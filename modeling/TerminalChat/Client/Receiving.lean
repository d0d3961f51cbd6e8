import Mathlib
import TerminalChat.Client.ClientState
import TerminalChat.Text.Framing

/-!
# The receive loop of the client

`receiveMessages` cuts what it receives at newlines, keeps what follows the last one, and decodes the
trimmed lines that are not empty. What it decodes does not depend on how the bytes are cut on their way
(`Receiver.foldl_receive`). A private message has two fields behind its marker, at the first two colons of
the line.
-/

set_option autoImplicit false

namespace TerminalChat.Client

open TerminalChat.Text

/-! ## Private messages -/

/-- The two fields of a `PM_FROM` or `PM_SENT` line: what stands between its first two colons, and what
follows the second. Without a second colon `secondColon + 1` wraps around to zero, and the content is
the whole line. -/
def pmFields (message : Bytes) : Bytes × Bytes :=
  let afterFirst := (message.dropWhile fun c => c != colon).drop 1
  (afterFirst.takeWhile fun c => c != colon,
    if colon ∈ afterFirst then (afterFirst.dropWhile fun c => c != colon).drop 1 else message)

/-- What the receiver shows as a private message. -/
inductive PrivateLine where
  | received (sender content : Bytes)
  | sent (recipient content : Bytes)
  deriving DecidableEq

/-- The private message that the receiver shows for a line, when it takes one of the two branches. -/
def privateLine (line : Bytes) : Option PrivateLine :=
  let message := trim line
  match responseOf message with
  | .pmFrom => some (.received (pmFields message).1 (pmFields message).2)
  | .pmSent => some (.sent (pmFields message).1 (pmFields message).2)
  | _ => none

/-! ## The loop -/

/-- The receiver: its state, `incompleteMessage`, and the lines it has decoded with their kinds. -/
structure Receiver where
  state : ClientState := {}
  incompleteMessage : Bytes := []
  decoded : List (Response × Bytes) := []
  deriving DecidableEq

/-- The branch that a line takes; a blank line takes none. -/
def decodeLine (line : Bytes) : Option (Response × Bytes) :=
  if (trim line).isEmpty then none else some (responseOf (trim line), trim line)

/-- One round of the loop in `receiveMessages`. -/
def Receiver.receive (r : Receiver) (buffer : Bytes) : Receiver :=
  let lines := messagesOf newline (r.incompleteMessage ++ buffer)
  { state := lines.1.foldl (fun state line => receiveLine line state) r.state
    incompleteMessage := lines.2
    decoded := r.decoded ++ lines.1.filterMap decodeLine }

theorem Receiver.receive_append (r : Receiver) (buffer more : Bytes) :
    (r.receive buffer).receive more = r.receive (buffer ++ more) := by
  rw [receive, receive, receive, ← List.append_assoc, messagesOf_append (r.incompleteMessage ++ buffer)]
  simp [List.foldl_append, List.filterMap_append]

/-- What is decoded does not depend on how the bytes are cut. -/
theorem Receiver.foldl_receive (chunks : List Bytes) : ∀ (r : Receiver) (buffer : Bytes),
    chunks.foldl Receiver.receive (r.receive buffer) = r.receive (buffer ++ chunks.flatten) := by
  induction chunks with
  | nil =>
      intro r buffer
      rw [List.flatten_nil, List.append_nil, List.foldl_nil]
  | cons chunk chunks ih =>
      intro r buffer
      rw [List.foldl_cons, receive_append, ih, List.flatten_cons, List.append_assoc]

/-- A kind of line that does nothing to the state. -/
def Response.Idle (kind : Response) : Prop :=
  ∀ (message : Bytes) (state : ClientState), handleResponse message state kind = state

/-- A line that takes no branch, or one that does nothing, leaves the state alone. -/
theorem receiveLine_of_idle {kind : Response} (hk : kind.Idle) {line : Bytes}
    (h : ∀ p ∈ decodeLine line, p.1 = kind) (state : ClientState) :
    receiveLine line state = state := by
  rw [receiveLine]
  by_cases hempty : (trim line).isEmpty = true
  · rw [if_pos hempty]
  · rw [if_neg hempty]
    have hkind : responseOf (trim line) = kind := h (responseOf (trim line), trim line) (by
      rw [decodeLine, if_neg hempty]
      rfl)
    rw [hkind]
    exact hk _ _

/-! ## One line -/

/-- However the text is cut on its way, a client that has decoded all before it decodes exactly one
line, of the given kind, and keeps its state. -/
def ReadAsOne (kind : Response) (text : Bytes) : Prop :=
  ∀ (chunks : List Bytes) (state : ClientState), chunks.flatten = text →
    ∃ line, chunks.foldl Receiver.receive { state := state } =
      { state := state, decoded := [(kind, line)] }

theorem readAsOne_iff {kind : Response} (hk : kind.Idle) {text : Bytes} : ReadAsOne kind text ↔
    (messagesOf newline text).2 = [] ∧
      ∃ line, (messagesOf newline text).1.filterMap decodeLine = [(kind, line)] := by
  have hfold : ∀ (chunks : List Bytes) (state : ClientState), chunks.flatten = text →
      chunks.foldl Receiver.receive { state := state } = Receiver.receive { state := state } text := by
    intro chunks state htext
    have hnone : ({ state := state } : Receiver) = Receiver.receive { state := state } [] := rfl
    rw [hnone, Receiver.foldl_receive, List.nil_append, htext]
    rfl
  constructor
  · intro h
    obtain ⟨line, hline⟩ := h [text] {} (List.flatten_singleton)
    rw [hfold _ _ List.flatten_singleton, Receiver.receive, Receiver.mk.injEq] at hline
    exact ⟨hline.2.1, line, by simpa using hline.2.2⟩
  · rintro ⟨hrest, line, hline⟩ chunks state htext
    refine ⟨line, ?_⟩
    have hkeep : ∀ (lines : List Bytes), (∀ l ∈ lines, ∀ p ∈ decodeLine l, p.1 = kind) →
        lines.foldl (fun state line => receiveLine line state) state = state := by
      intro lines hlines
      induction lines with
      | nil => rfl
      | cons l lines ih =>
          rw [List.foldl_cons, receiveLine_of_idle hk (hlines l List.mem_cons_self)]
          exact ih fun l' hl' => hlines l' (List.mem_cons_of_mem l hl')
    rw [hfold chunks state htext, Receiver.receive, List.nil_append, hrest, hline, hkeep]
    · rfl
    · intro l hl p hp
      have hmem : p ∈ (messagesOf newline text).1.filterMap decodeLine :=
        List.mem_filterMap.2 ⟨l, hl, hp⟩
      rw [hline, List.mem_singleton] at hmem
      rw [hmem]

/-- A text with a character that is not blank gives a line. -/
theorem decodeLine_ne_none {line : Bytes} {c : UInt8} (hc : c ∈ line) (hb : isBlank c = false) :
    decodeLine line ≠ none := by
  rw [decodeLine, if_neg]
  · exact Option.some_ne_none _
  · rw [List.isEmpty_iff]
    exact trim_ne_nil hc hb

theorem decodeLine_of_blank {line : Bytes} (h : ∀ c ∈ line, isBlank c = true) :
    decodeLine line = none := by
  have hnil : line.dropWhile isBlank = [] := List.dropWhile_eq_nil_iff.2 h
  rw [decodeLine, trim, hnil]
  rfl

/-- Blanks give no line. -/
theorem filterMap_decodeLine_of_blank {stream : Bytes} (h : ∀ c ∈ stream, isBlank c = true) :
    (messagesOf newline stream).1.filterMap decodeLine = [] := by
  rw [List.filterMap_eq_nil_iff]
  intro line hline
  apply decodeLine_of_blank
  intro c hc
  apply h
  rw [← closed_messagesOf newline stream, List.mem_append, closed, List.mem_flatMap]
  exact Or.inl ⟨line, hline, List.mem_append_left _ hc⟩

/-- A closed text with a character that is not blank gives a line. -/
theorem filterMap_decodeLine_ne_nil (text : Bytes) {c : UInt8} (hc : c ∈ text)
    (hb : isBlank c = false) :
    (messagesOf newline (text ++ [newline])).1.filterMap decodeLine ≠ [] := by
  have hsplit := closed_messagesOf newline (text ++ [newline])
  rw [messagesOf_concat, List.append_nil] at hsplit
  have hmem : c ∈ closed newline (messagesOf newline (text ++ [newline])).1 := by
    rw [hsplit]
    exact List.mem_append_left _ hc
  rw [closed, List.mem_flatMap] at hmem
  obtain ⟨line, hline, hcl⟩ := hmem
  have hcline : c ∈ line := by
    rcases List.mem_append.1 hcl with h | h
    · exact h
    · rw [List.mem_singleton.1 h] at hb
      exact absurd hb (by decide)
  intro hnil
  exact decodeLine_ne_none hcline hb (List.filterMap_eq_nil_iff.1 hnil line hline)

/-- A text behind a start that decides its kind is read as one line exactly when nothing but blanks
follows its first newline. -/
theorem readAsOne_start {p : Bytes} (start content : Bytes) (hd : Decisive start) (ht : Trimmed start)
    (hne : start ≠ []) (hone : OneLine start) (hk : (responseOf start).Idle) (hp : OneLine p) :
    ReadAsOne (responseOf start) (start ++ p ++ content ++ [newline]) ↔
      OneLine (content.rdropWhile isBlank) := by
  have hcontent := List.rdropWhile_append_rtakeWhile (p := isBlank) (l := content)
  obtain ⟨c₀, hc₀, hblank₀⟩ : ∃ c ∈ start, isBlank c = false := by
    have hhead := List.head?_eq_some_head hne
    refine ⟨start.head hne, List.head_mem hne, head_trim (s := start) ?_⟩
    rw [show trim start = start from ht]
    exact hhead
  rw [readAsOne_iff hk, messagesOf_concat]
  constructor
  · rintro ⟨-, line, hline⟩ hnl
    -- behind a newline that is not at the end there is a second line
    obtain ⟨u, v, huv⟩ := List.append_of_mem hnl
    have hne : content.rdropWhile isBlank ≠ [] := List.ne_nil_of_mem hnl
    have hlast := List.rdropWhile_last_not isBlank content hne
    have hv : v ≠ [] := by
      rintro rfl
      simp [huv, isBlank, newline] at hlast
    have hc : (content.rdropWhile isBlank).getLast hne ∈ v := by
      simp only [huv, List.getLast_append_of_ne_nil _ (List.cons_ne_nil newline v),
        List.getLast_cons hv]
      exact List.getLast_mem hv
    have htext : start ++ p ++ content ++ [newline] =
        (start ++ p ++ u ++ [newline]) ++ (v ++ content.rtakeWhile isBlank ++ [newline]) := by
      conv_lhs => rw [← hcontent, huv]
      simp
    rw [htext, messagesOf_append, messagesOf_concat, List.nil_append, List.filterMap_append] at hline
    have hfirst := filterMap_decodeLine_ne_nil (start ++ p ++ u)
      (List.mem_append_left u (List.mem_append_left p hc₀)) hblank₀
    have hsecond := filterMap_decodeLine_ne_nil (v ++ content.rtakeWhile isBlank)
      (List.mem_append_left _ hc) (Bool.eq_false_iff.2 hlast)
    have hlen := congrArg List.length hline
    rw [List.length_append, List.length_singleton] at hlen
    have h₁ := List.length_pos_iff.2 hfirst
    have h₂ := List.length_pos_iff.2 hsecond
    omega
  · intro hcore
    apply And.intro rfl
    -- the first newline is among the blanks that close the text
    obtain ⟨u, v, huv, hu⟩ := List.eq_append_cons_of_mem
      (List.mem_append_right (content.rtakeWhile isBlank) (List.mem_singleton_self newline))
    have hblank : ∀ c ∈ u ++ newline :: v, isBlank c = true := by
      intro c hc
      rw [← huv, List.mem_append, List.mem_singleton] at hc
      rcases hc with hc | rfl
      · exact List.mem_rtakeWhile_imp hc
      · decide
    have htext : start ++ p ++ content ++ [newline] =
        (start ++ (p ++ content.rdropWhile isBlank ++ u)) ++ newline :: v := by
      rw [← hcontent, List.append_assoc, List.append_assoc, List.append_assoc, huv]
      simp [hcontent]
    have hfirst : newline ∉ start ++ (p ++ content.rdropWhile isBlank ++ u) :=
      OneLine.append hone ((hp.append hcore).append hu)
    have hline : decodeLine (start ++ (p ++ content.rdropWhile isBlank ++ u)) = some
        (responseOf start, start ++ (p ++ content.rdropWhile isBlank ++ u).rdropWhile isBlank) := by
      rw [decodeLine, trim_append ht hne, responseOf_append hd, if_neg]
      rw [List.isEmpty_iff]
      exact fun h => hne (List.append_eq_nil_iff.1 h).1
    refine ⟨start ++ (p ++ content.rdropWhile isBlank ++ u).rdropWhile isBlank, ?_⟩
    rw [htext, messagesOf_closed hfirst, List.filterMap_cons, hline, filterMap_decodeLine_of_blank
      fun c hc => hblank c (List.mem_append_right _ (List.mem_cons_of_mem _ hc))]

/-- A client that has decoded all before it decodes a closed line to the line, however it is cut. -/
theorem foldl_receive_line {line : Bytes} (ht : Trimmed line) (hone : OneLine line) (hne : line ≠ [])
    {chunks : List Bytes} (hchunks : chunks.flatten = line ++ [newline]) {r : Receiver}
    (hr : r.incompleteMessage = []) :
    (chunks.foldl Receiver.receive r).decoded = r.decoded ++ [(responseOf line, line)] := by
  have hnone : r = r.receive [] := by
    rw [Receiver.receive, hr]
    cases r
    simp [messagesOf] at hr ⊢
    exact hr
  have hlines : messagesOf newline (line ++ newline :: []) = ([line], []) :=
    messagesOf_closed hone []
  have hline : decodeLine line = some (responseOf line, line) := by
    rw [decodeLine, show trim line = line from ht, if_neg]
    rwa [List.isEmpty_iff]
  rw [hnone, Receiver.foldl_receive, List.nil_append, hchunks, Receiver.receive, ← hnone, hr,
    List.nil_append, hlines, List.filterMap_cons, hline, List.filterMap_nil]

/-- The password that the receiver shows for a `ROOM_PASSWORD` line. -/
def shownPassword (message : Bytes) : Bytes := trim (message.drop 14)

/-- The private messages that the receiver shows for a text. -/
def shownPrivate (text : Bytes) : List PrivateLine :=
  (messagesOf newline text).1.filterMap privateLine

/-- The fields of a line behind a marker that ends with the first colon. -/
theorem pmFields_append (marker : Bytes) {name : Bytes} (hm : colon ∉ marker)
    (hn : colon ∉ name) (content : Bytes) :
    pmFields (marker ++ [colon] ++ (name ++ [colon] ++ content)) = (name, content) := by
  have hall : ∀ {s : Bytes}, colon ∉ s → ∀ c ∈ s, (c != colon) = true := by
    intro s hs c hc
    rw [bne_iff_ne]
    rintro rfl
    exact hs hc
  have hrest : ((marker ++ [colon] ++ (name ++ [colon] ++ content)).dropWhile
      fun c => c != colon).drop 1 = name ++ [colon] ++ content := by
    rw [List.append_assoc, List.dropWhile_append_of_pos (hall hm)]
    rfl
  have hname : (name ++ [colon] ++ content).takeWhile (fun c => c != colon) = name := by
    rw [List.append_assoc, List.takeWhile_append_of_pos (hall hn)]
    simp
  have hcontent : ((name ++ [colon] ++ content).dropWhile fun c => c != colon).drop 1 =
      content := by
    rw [List.append_assoc, List.dropWhile_append_of_pos (hall hn)]
    rfl
  have hmem : colon ∈ name ++ [colon] ++ content := by simp
  unfold pmFields
  dsimp only
  rw [hrest, hname, if_pos hmem, hcontent]

/-- A line that starts with `PM_FROM:` is decoded to the name and the content, when the name has no
colon. -/
theorem privateLine_pmFrom {name content : Bytes} (hn : colon ∉ name) (ht : Trimmed content)
    (hne : content ≠ []) :
    privateLine (str "PM_FROM:" ++ (name ++ [colon] ++ content)) =
      some (.received name content) := by
  have htail : (name ++ [colon] ++ content).rdropWhile isBlank = name ++ [colon] ++ content := by
    rw [List.rdropWhile_eq_self_iff]
    intro hall
    rw [List.getLast_append_of_ne_nil hall hne]
    exact List.rdropWhile_eq_self_iff.1 (rdropWhile_of_trimmed ht) hne
  have hkind : responseOf (str "PM_FROM:") = .pmFrom := by decide
  have hfields := pmFields_append (str "PM_FROM") (by decide) hn content
  unfold privateLine
  dsimp only
  rw [trim_append (by decide) (by decide), htail, responseOf_append (by decide), hkind]
  dsimp only
  rw [show str "PM_FROM:" = str "PM_FROM" ++ [colon] by decide, hfields]

end TerminalChat.Client
