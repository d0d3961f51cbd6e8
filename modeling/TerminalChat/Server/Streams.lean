import Mathlib
import TerminalChat.Server.Speech

/-!
# Outgoing streams

The client sockets are non-blocking: a `send` may take only the beginning of its text, or nothing. The
server ignores what `send` returns and never sends the rest. So the stream of a client is made of what
each call has taken, and it stays a sequence of whole lines exactly as long as no call stops inside a
line and is followed by another (`Machine.streams_framed_iff`).
-/

set_option autoImplicit false

namespace TerminalChat.Server

open TerminalChat.Concurrency TerminalChat.Text

/-- The call of `send` behind a socket operation: the socket and the text. -/
def NetOp.sends : NetOp → Option (SOCKET × Bytes)
  | .sent sock text => some (sock, text)
  | .replayed sock text => some (sock, text)
  | _ => none

/-- What the bytes accepted so far are on a connection, one operation further. Operation number `n`
takes the first `accepts n` bytes of its text; 0 is `SOCKET_ERROR`. A connection starts with
`accept`. -/
def streamStep (accepts : Nat → Nat) (sock : SOCKET) (stream : Bytes) (op : NetOp × Nat) : Bytes :=
  match op.1 with
  | .accepted t => if t = sock then [] else stream
  | .sent t text => if t = sock then stream ++ text.take (accepts op.2) else stream
  | .replayed t text => if t = sock then stream ++ text.take (accepts op.2) else stream
  | .closed _ => stream

/-- The bytes that have been accepted for the client on a socket. -/
def stream (accepts : Nat → Nat) (net : List NetOp) (sock : SOCKET) : Bytes :=
  net.zipIdx.foldl (streamStep accepts sock) []

/-- A concatenation of complete lines. -/
def Framed (bytes : Bytes) : Prop :=
  ∃ lines : List Bytes, (∀ line ∈ lines, IsLine line) ∧ bytes = lines.flatten

/-- Whenever a line begins, that is, a call takes the first byte of its text, `P` holds of the
operations before the call and of the socket. -/
def AtEveryLine (accepts : Nat → Nat) (net : List NetOp) (P : List NetOp → SOCKET → Prop) : Prop :=
  ∀ (n : Nat) (op : NetOp) (sock : SOCKET) (text : Bytes), net[n]? = some op →
    op.sends = some (sock, text) → text.take (accepts n) ≠ [] → P (net.take n) sock

/-- The streams are framed whenever a line begins. -/
def StreamsFramed (accepts : Nat → Nat) (net : List NetOp) : Prop :=
  AtEveryLine accepts net fun past sock => Framed (stream accepts past sock)

/-- Operation number `i` is a `send` of `text` on the connection that the socket has now. -/
def OnConnection (past : List NetOp) (sock : SOCKET) (i : Nat) (text : Bytes) : Prop :=
  (∃ op, past[i]? = some op ∧ op.sends = some (sock, text)) ∧
    ∀ k, i < k → past[k]? ≠ some (.accepted sock)

/-- A call that takes nothing, or all of its text, or stops right behind a newline. -/
def CleanCut (text : Bytes) (n : Nat) : Prop :=
  n = 0 ∨ text.length ≤ n ∨ (text.take n).getLast? = some newline

instance (text : Bytes) (n : Nat) : Decidable (CleanCut text n) :=
  inferInstanceAs (Decidable (_ ∨ _ ∨ _))

/-- Whenever a line begins, all calls before on the connection were cut clean. -/
def CutsClean (accepts : Nat → Nat) (net : List NetOp) : Prop :=
  AtEveryLine accepts net fun past sock =>
    ∀ (i : Nat) (text : Bytes), OnConnection past sock i text → CleanCut text (accepts i)

/-! ## Lines -/

theorem isLine_ends {line : Bytes} (h : IsLine line) : line.getLast? = some newline := by
  obtain ⟨body, rfl, -⟩ := h
  exact List.getLast?_concat

/-- Every text is a sequence of whole lines and the beginning of one more. -/
theorem exists_lines (bytes : Bytes) : ∃ (lines : List Bytes) (rest : Bytes),
    (∀ line ∈ lines, IsLine line) ∧ OneLine rest ∧ bytes = lines.flatten ++ rest := by
  induction bytes using List.reverseRecOn with
  | nil => exact ⟨[], [], fun _ hl => absurd hl List.not_mem_nil, oneLine_nil, rfl⟩
  | append_singleton bytes c ih =>
      obtain ⟨lines, rest, hlines, hrest, rfl⟩ := ih
      by_cases hc : c = newline
      · -- the newline closes the line
        refine ⟨lines ++ [rest ++ [c]], [], fun line hl => ?_, oneLine_nil, ?_⟩
        · rcases List.mem_append.1 hl with hl | hl
          · exact hlines line hl
          · rw [List.mem_singleton.1 hl, hc]
            exact ⟨rest, rfl, hrest⟩
        · simp
      · refine ⟨lines, rest ++ [c], hlines, hrest.append ?_, List.append_assoc _ _ _⟩
        intro hm
        exact hc (List.mem_singleton.1 hm).symm

/-- A text is made of whole lines exactly when it is nothing or ends with a newline. -/
theorem framed_iff (bytes : Bytes) :
    Framed bytes ↔ bytes = [] ∨ bytes.getLast? = some newline := by
  constructor
  · rintro ⟨lines, hlines, rfl⟩
    rcases List.eq_nil_or_concat lines with rfl | ⟨front, line, rfl⟩
    · exact Or.inl rfl
    · have hline := isLine_ends (hlines line (by simp))
      right
      rw [List.concat_eq_append, List.flatten_append, List.flatten_singleton,
        List.getLast?_append, hline]
      rfl
  · intro h
    obtain ⟨lines, rest, hlines, hrest, rfl⟩ := exists_lines bytes
    refine ⟨lines, hlines, ?_⟩
    rcases h with h | h
    · rw [h, (List.append_eq_nil_iff.1 h).1]
    · cases hl : rest.getLast? with
      | none => rw [List.getLast?_eq_none_iff.1 hl, List.append_nil]
      | some c =>
          -- a line that has begun does not end with a newline
          rw [List.getLast?_append, hl, Option.some_or, Option.some.injEq] at h
          rw [h] at hl
          exact absurd (List.mem_of_getLast? hl) hrest

/-- Everything that the server says ends with a newline. -/
theorem getLast?_of_spoken {op : NetOp} (h : op.Spoken) {sock : SOCKET} {text : Bytes}
    (hs : op.sends = some (sock, text)) : text.getLast? = some newline := by
  have hend : ∀ body : Bytes, (body ++ str "\n").getLast? = some newline := fun body =>
    List.getLast?_concat
  have hchat : ∀ text, IsChat text → text.getLast? = some newline := by
    rintro text ⟨now, name, content, rfl⟩
    exact hend _
  cases op with
  | sent t text' =>
      simp only [NetOp.sends, Option.some.injEq, Prod.mk.injEq] at hs
      obtain ⟨-, rfl⟩ := hs
      cases h with
      | notice now notice hn => exact hend _
      | chat now name content => exact hend _
      | whisper now tag name content => exact hend _
      | answer c body hc => exact hend (c :: body)
  | replayed t text' =>
      simp only [NetOp.sends, Option.some.injEq, Prod.mk.injEq] at hs
      obtain ⟨-, rfl⟩ := hs
      rcases h with h | ⟨row, rfl⟩
      · exact hchat _ h
      · exact hend _
  | accepted t => exact absurd hs (by simp [NetOp.sends])
  | closed t => exact absurd hs (by simp [NetOp.sends])

/-- A call on a text with a newline at its end is cut clean when what it takes is framed. -/
theorem cleanCut_iff {text : Bytes} (h : text.getLast? = some newline) (n : Nat) :
    CleanCut text n ↔ text.take n = [] ∨ (text.take n).getLast? = some newline := by
  have hne : text ≠ [] := by
    rintro rfl
    exact absurd h (by simp)
  constructor
  · rintro (rfl | hall | hline)
    · exact Or.inl rfl
    · rw [List.take_of_length_le hall]
      exact Or.inr h
    · exact Or.inr hline
  · rintro (hnone | hline)
    · rw [List.take_eq_nil_iff] at hnone
      exact Or.inl (hnone.resolve_right hne)
    · exact Or.inr (Or.inr hline)

/-! ## Streams -/

section Streams

variable (accepts : Nat → Nat) (past : List NetOp) (op : NetOp) (sock : SOCKET)

theorem stream_concat : stream accepts (past ++ [op]) sock =
    streamStep accepts sock (stream accepts past sock) (op, past.length) := by
  rw [stream, List.zipIdx_append, List.foldl_append]
  simp [stream]

variable {accepts past op sock}

theorem streamStep_of_sends {text : Bytes} (h : op.sends = some (sock, text)) (bytes : Bytes)
    (n : Nat) : streamStep accepts sock bytes (op, n) = bytes ++ text.take (accepts n) := by
  cases op <;> simp_all [NetOp.sends, streamStep]

theorem streamStep_of_not_sends (h : ∀ text, op.sends ≠ some (sock, text))
    (ha : op ≠ .accepted sock) (bytes : Bytes) (n : Nat) :
    streamStep accepts sock bytes (op, n) = bytes := by
  cases op <;> simp_all [NetOp.sends, streamStep]

/-- The calls on the connection after one more operation. -/
theorem onConnection_concat {i : Nat} {text : Bytes} :
    OnConnection (past ++ [op]) sock i text ↔ op ≠ .accepted sock ∧
      (OnConnection past sock i text ∨ i = past.length ∧ op.sends = some (sock, text)) := by
  constructor
  · rintro ⟨⟨op', hop, hsends⟩, hsince⟩
    have hlt : i < (past ++ [op]).length := (List.getElem?_eq_some_iff.1 hop).1
    rw [List.length_append, List.length_singleton] at hlt
    have hnew : op ≠ .accepted sock := by
      rintro rfl
      by_cases hi : i = past.length
      · rw [hi, List.getElem?_concat_length, Option.some.injEq] at hop
        rw [← hop] at hsends
        exact absurd hsends (by simp [NetOp.sends])
      · exact hsince past.length (by omega) List.getElem?_concat_length
    refine ⟨hnew, ?_⟩
    by_cases hi : i = past.length
    · rw [hi, List.getElem?_concat_length, Option.some.injEq] at hop
      exact Or.inr ⟨hi, by rw [hop]; exact hsends⟩
    · rw [List.getElem?_append_left (by omega)] at hop
      refine Or.inl ⟨⟨op', hop, hsends⟩, fun k hk ha => hsince k hk ?_⟩
      rw [List.getElem?_append_left (List.getElem?_eq_some_iff.1 ha).1]
      exact ha
  · rintro ⟨hnew, ⟨⟨op', hop, hsends⟩, hsince⟩ | ⟨rfl, hsends⟩⟩
    · have hlt := (List.getElem?_eq_some_iff.1 hop).1
      refine ⟨⟨op', by rw [List.getElem?_append_left hlt]; exact hop, hsends⟩, fun k hk ha => ?_⟩
      by_cases hk' : k < past.length
      · rw [List.getElem?_append_left hk'] at ha
        exact hsince k hk ha
      · rw [List.getElem?_append_right (by omega)] at ha
        have := List.mem_singleton.1 (List.mem_of_getElem? ha)
        exact hnew this.symm
    · refine ⟨⟨op, List.getElem?_concat_length, hsends⟩, fun k hk ha => ?_⟩
      have hlt := (List.getElem?_eq_some_iff.1 ha).1
      rw [List.length_append, List.length_singleton] at hlt
      omega

theorem AtEveryLine.init {P : List NetOp → SOCKET → Prop}
    (h : AtEveryLine accepts (past ++ [op]) P) : AtEveryLine accepts past P := by
  intro n op' sock text hop hsends hne
  have hlt := (List.getElem?_eq_some_iff.1 hop).1
  have htake : (past ++ [op]).take n = past.take n := List.take_append_of_le_length (by omega)
  rw [← htake]
  exact h n op' sock text (by rw [List.getElem?_append_left hlt]; exact hop) hsends hne

/-- A stream whose calls were all cut clean is framed. -/
theorem framed_of_clean (hspeech : ∀ op ∈ past, op.Spoken)
    (h : ∀ i text, OnConnection past sock i text → CleanCut text (accepts i)) :
    Framed (stream accepts past sock) := by
  rw [framed_iff]
  induction past using List.reverseRecOn with
  | nil => exact Or.inl rfl
  | append_singleton past op ih =>
      rw [stream_concat]
      by_cases ha : op = .accepted sock
      · left
        rw [ha]
        simp [streamStep]
      have hpast := ih (fun op hop => hspeech op (List.mem_append_left _ hop)) fun i text hi =>
        h i text (onConnection_concat.2 ⟨ha, Or.inl hi⟩)
      by_cases hs : ∃ text, op.sends = some (sock, text)
      · obtain ⟨text, hs⟩ := hs
        have hclean := h _ text (onConnection_concat.2 ⟨ha, Or.inr ⟨rfl, hs⟩⟩)
        rw [cleanCut_iff (getLast?_of_spoken (hspeech op (by simp)) hs)] at hclean
        rw [streamStep_of_sends hs]
        rcases hclean with hnone | hline
        · rw [hnone, List.append_nil]
          exact hpast
        · right
          rw [List.getLast?_append, hline]
          rfl
      · rw [streamStep_of_not_sends (fun text ht => hs ⟨text, ht⟩) ha]
        exact hpast

/-- Where every line so far began behind whole lines, a framed stream has only calls that were cut
clean: the last of them shows in the stream, and the line before which the others stand has begun. -/
theorem clean_of_framed (hspeech : ∀ op ∈ past, op.Spoken) (hlines : StreamsFramed accepts past)
    (hframed : Framed (stream accepts past sock)) :
    ∀ i text, OnConnection past sock i text → CleanCut text (accepts i) := by
  induction past using List.reverseRecOn with
  | nil =>
      rintro i text ⟨⟨op, hop, -⟩, -⟩
      exact absurd hop (by simp)
  | append_singleton past op ih =>
      -- the last operation decides what the calls before it could leave open
      intro i text hcall
      obtain ⟨ha, hconn⟩ := onConnection_concat.1 hcall
      have hpast := ih (fun op hop => hspeech op (List.mem_append_left _ hop)) hlines.init
      rw [stream_concat] at hframed
      by_cases hs : ∃ text, op.sends = some (sock, text)
      · obtain ⟨text', hs⟩ := hs
        have hends := getLast?_of_spoken (hspeech op (by simp)) hs
        rw [streamStep_of_sends hs] at hframed
        -- the call takes nothing: the stream is the one before
        by_cases hnone : text'.take (accepts past.length) = []
        · rw [hnone, List.append_nil] at hframed
          rcases hconn with hi | ⟨rfl, hi⟩
          · exact hpast hframed i text hi
          · rw [hs, Option.some.injEq, Prod.mk.injEq] at hi
            rw [← hi.2, cleanCut_iff hends]
            exact Or.inl hnone
        · -- the call begins a line, so the stream before it was framed
          have hbefore := hlines past.length op sock text' List.getElem?_concat_length hs hnone
          rw [List.take_left] at hbefore
          rcases hconn with hi | ⟨rfl, hi⟩
          · exact hpast hbefore i text hi
          · rw [hs, Option.some.injEq, Prod.mk.injEq] at hi
            rw [← hi.2, cleanCut_iff hends]
            rw [framed_iff, List.append_eq_nil_iff, List.getLast?_append] at hframed
            rcases hframed with h | h
            · exact Or.inl h.2
            · right
              cases hl : (text'.take (accepts past.length)).getLast? with
              | none => exact absurd (List.getLast?_eq_none_iff.1 hl) hnone
              | some c =>
                  rw [hl, Option.some_or] at h
                  exact h
      · rw [streamStep_of_not_sends (fun text ht => hs ⟨text, ht⟩) ha] at hframed
        rcases hconn with hi | ⟨-, hi⟩
        · exact hpast hframed i text hi
        · exact absurd ⟨text, hi⟩ hs

end Streams

/-- Among whole lines that are handed to `send`, the streams are framed exactly when the calls are cut
clean. -/
theorem streamsFramed_iff {net : List NetOp} (hspeech : ∀ op ∈ net, op.Spoken)
    (accepts : Nat → Nat) : StreamsFramed accepts net ↔ CutsClean accepts net := by
  have hpast : ∀ n, ∀ op ∈ net.take n, op.Spoken := fun n op hop =>
    hspeech op (List.mem_of_mem_take hop)
  constructor
  · intro h n op sock text hop hsends hne
    apply clean_of_framed (hpast n)
    · intro k op' sock' text' hop' hsends' hne'
      have hlt := (List.getElem?_eq_some_iff.1 hop').1
      rw [List.length_take] at hlt
      rw [List.getElem?_take_of_lt (by omega)] at hop'
      rw [List.take_take, Nat.min_eq_left (by omega)]
      exact h k op' sock' text' hop' hsends' hne'
    · exact h n op sock text hop hsends hne
  · intro h n op sock text hop hsends hne
    exact framed_of_clean (hpast n) (h n op sock text hop hsends hne)

namespace Machine

/-- In every run, whatever `send` does, the streams stay framed exactly when no call that stops inside
a line is followed by one that begins another on the same connection. -/
theorem streams_framed_iff (m : Machine) (hm : Reachable anyStep m) (accepts : Nat → Nat) :
    StreamsFramed accepts m.globals.net ↔ CutsClean accepts m.globals.net :=
  streamsFramed_iff (speaking_of_reachable hm).net accepts

/-- The first call takes five bytes, all others take everything. -/
def stutter (n : Nat) : Nat := if n = 1 then 5 else 1000

/-- A greeting of which half has been taken, and the answer to the first command behind it. -/
theorem streams_framed_greeting : ∃ m, Reachable anyStep m ∧
    (StreamsFramed (fun _ => 1000) m.globals.net ↔ CutsClean (fun _ => 1000) m.globals.net) ∧
    stream stutter m.globals.net 4 = str "WELCONAME_SET\n" := by
  obtain ⟨m, hm, hp⟩ := reachable_of_after (fun _ _ => True)
    [(.connect 4, 0), (.receive 4 (str "/SETNAME bob"), 0)]
    (fun m => decide (stream stutter m.globals.net 4 = str "WELCONAME_SET\n")) (by decide +kernel)
  have hany : Reachable anyStep m := hm.mono fun _ _ _ => trivial
  exact ⟨m, hany, streams_framed_iff m hany _, of_decide_eq_true hp⟩

/-- The answer to the first command is glued to the beginning of the greeting. -/
theorem not_streams_framed : ¬∀ (m : Machine), Reachable anyStep m → ∀ accepts : Nat → Nat,
    StreamsFramed accepts m.globals.net := by
  intro h
  obtain ⟨m, hm, hp⟩ := reachable_of_after (fun _ _ => True)
    [(.connect 4, 0), (.receive 4 (str "/SETNAME bob"), 0)]
    (fun m => decide (m.globals.net = [.accepted 4, .sent 4 (str "WELCOME:Chat Server\n"),
      .sent 4 (str "NAME_SET\n")])) (by decide +kernel)
  have hnet := of_decide_eq_true hp
  have hframed := h m (hm.mono fun _ _ _ => trivial) stutter 2 (.sent 4 (str "NAME_SET\n")) 4
    (str "NAME_SET\n") (by rw [hnet]; rfl) rfl (by decide)
  rw [hnet, framed_iff] at hframed
  exact absurd hframed (by decide)

end Machine

end TerminalChat.Server
