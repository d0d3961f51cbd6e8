import Mathlib
import TerminalChat.Server.Utterances
import TerminalChat.System.Tracking
import TerminalChat.Text.Subsequence

/-!
# From the keyboard to the decoder of a reader

What a user types goes through the client, the connection, the handler, the queue, the broadcaster, the
connection of a reader and its decoder. Each of these keeps the order and none of them makes anything up,
so what a reader has decoded of what another user has said is what that user has typed, in the order of
the typing (`keyboard_to_decoder`). `Past` records what has been typed, told and decoded along a run.
-/

set_option autoImplicit false

namespace TerminalChat.System

open TerminalChat.Concurrency TerminalChat.Text TerminalChat.Server TerminalChat.Client

/-! ## The past of a run -/

/-- The transcript of a connection: the lines that the server has sent, each with the message whose turn it was,
and the lines that the client has decoded. -/
structure Transcript where
  told : List (Option Message × Bytes) := []
  decoded : List Bytes := []

namespace Transcript

/-- What a socket operation of the server adds, in the turn of a message or outside of any. -/
def observe (c : SOCKET) (turn : Option Message) (tr : Transcript) : NetOp → Transcript
  | .accepted t => if t = c then {} else tr
  | .sent t text => if t = c then { tr with told := tr.told ++ [(turn, text)] } else tr
  | .replayed t text => if t = c then { tr with told := tr.told ++ [(turn, text)] } else tr
  | .closed _ => tr

/-- The client has decoded a line. -/
def decode (line : Bytes) (tr : Transcript) : Transcript := { tr with decoded := tr.decoded ++ [line] }

/-- The lines that the client has decoded, with their origin. -/
def decodedLines (tr : Transcript) : List (Option Message × Bytes) := tr.told.take tr.decoded.length

/-- The lines of messages among others. -/
def ofTurns (lines : List (Option Message × Bytes)) : List (Message × Bytes) :=
  lines.filterMap fun p => p.1.map fun message => (message, p.2)

/-- The decoded lines that are about messages from `a`. -/
def heardFrom (a : SOCKET) (tr : Transcript) : List (Message × Bytes) :=
  (ofTurns tr.decodedLines).filter fun p => p.1.senderSocket = a

end Transcript

/-- The past of a run: what the watch has seen in the server, the lines that the server has received, the lines
that have been typed at the clients of a socket, and the transcript of its last connection. -/
structure Past where
  watch : Watch := {}
  heard : List (SOCKET × Bytes) := []
  typed : SOCKET → List Bytes := fun _ => []
  transcript : SOCKET → Transcript := fun _ => {}

namespace Past

/-- The message whose turn it was between two watches. -/
def turnBetween (w w' : Watch) : Option Message :=
  (((turns w'.log).drop (turns w.log).length).head?).map Prod.fst

/-- The past after a step of the server. -/
def serve (p : Past) (m : Machine) (l : Label) (m' : Machine) : Past :=
  let watch := p.watch.observe m l m'
  { p with
    watch := watch
    heard := p.heard ++ l.heard
    transcript := fun c => (opsBetween m.globals m'.globals).foldl
      (Transcript.observe c (turnBetween p.watch watch)) (p.transcript c) }

/-- The past after a line has been typed at the client of `c`. -/
def type (p : Past) (c : SOCKET) (typed : Bytes) : Past :=
  { p with typed := Function.update p.typed c (p.typed c ++ [getline typed]) }

/-- The past after the client of `c` has decoded a line. -/
def decode (p : Past) (c : SOCKET) (line : Bytes) : Past :=
  { p with transcript := Function.update p.transcript c ((p.transcript c).decode line) }

/-- The past after a move from `n` to `n'`. -/
def observe (p : Past) (n : Network) (mv : Move) (n' : Network) : Past :=
  match mv with
  | .server l => p.serve n.server l n'.server
  | .typeName c typed => p.type c typed
  | .typeLine c typed => p.type c typed
  | .deliver _ _ => p
  | .decode c =>
      match takeMessage newline (n.client c).incompleteMessage with
      | some (line, _) => p.decode c line
      | none => p

end Past

/-- The network and its past are reached by a run from a boot with a database of lines. -/
inductive Followed (db : Database) (listenSocket : SOCKET) : Network → Past → Prop where
  | boot (hdb : db.Lined) : Followed db listenSocket (.boot db listenSocket) {}
  | move {n n' : Network} {p : Past} (mv : Move) (h : Followed db listenSocket n p)
      (hnext : n.next mv = some n') : Followed db listenSocket n' (p.observe n mv n')

/-! ## What a connection conveys -/

/-- What the server has told the client is what has been decoded and what is on its way. -/
structure Endpoint.Conveys (ep : Endpoint) (tr : Transcript) : Prop where
  lines : ∃ pending : List Bytes, (∀ line ∈ pending, OneLine line) ∧
    ep.incompleteMessage ++ ep.incoming = closed newline pending ∧
      tr.told.map Prod.snd = (tr.decoded ++ pending).map fun line => line ++ [newline]

namespace Endpoint

variable {c : SOCKET} {ep ep' : Endpoint} {tr : Transcript} {turn : Option Message}

theorem Conveys.blank : ({} : Endpoint).Conveys {} := ⟨[], by simp, rfl, rfl⟩

/-- A line is put on its way. -/
theorem Conveys.put (h : ep.Conveys tr) {body : Bytes} (hb : OneLine body) (turn : Option Message) :
    ({ ep with incoming := ep.incoming ++ (body ++ [newline]) } : Endpoint).Conveys
      { tr with told := tr.told ++ [(turn, body ++ [newline])] } := by
  obtain ⟨pending, hlines, hstream, htold⟩ := h.lines
  refine ⟨pending ++ [body], fun line hl => ?_, ?_, ?_⟩
  · rcases List.mem_append.1 hl with hl | hl
    · exact hlines line hl
    · exact List.mem_singleton.1 hl ▸ hb
  · show ep.incompleteMessage ++ (ep.incoming ++ (body ++ [newline])) = _
    rw [← List.append_assoc, hstream, closed_append]
    simp [closed]
  · show (tr.told ++ [(turn, body ++ [newline])]).map Prod.snd = _
    rw [List.map_append, htold, ← List.append_assoc]
    simp

theorem Conveys.observe (h : ep.Conveys tr) {op : NetOp} (hop : op.Lined) (turn : Option Message) :
    (ep.observe c op).Conveys (tr.observe c turn op) := by
  cases op with
  | accepted t =>
      by_cases ht : t = c
      · simpa [Endpoint.observe, Transcript.observe, ht] using Conveys.blank
      · simpa [Endpoint.observe, Transcript.observe, ht] using h
  | sent t text =>
      by_cases ht : t = c
      · obtain ⟨body, rfl, hb⟩ := hop
        simpa [Endpoint.observe, Transcript.observe, ht] using h.put hb turn
      · simpa [Endpoint.observe, Transcript.observe, ht] using h
  | replayed t text =>
      by_cases ht : t = c
      · obtain ⟨body, rfl, hb⟩ := hop
        have hline : OneLine (str "[" ++ body) := (show OneLine (str "[") by decide).append hb
        simpa [Endpoint.observe, Transcript.observe, ht] using h.put hline turn
      · simpa [Endpoint.observe, Transcript.observe, ht] using h
  | closed t => exact h

theorem Conveys.observeAll {ops : List NetOp} (hops : ∀ op ∈ ops, op.Lined) (turn : Option Message) :
    ∀ {ep : Endpoint} {tr : Transcript}, ep.Conveys tr →
      (ops.foldl (Endpoint.observe c) ep).Conveys (ops.foldl (Transcript.observe c turn) tr) := by
  induction ops with
  | nil => exact fun h => h
  | cons op ops ih =>
      intro ep tr h
      have hrest : ∀ op' ∈ ops, op'.Lined := fun op' hop' => hops op' (List.mem_cons_of_mem op hop')
      exact ih hrest (h.observe (hops op List.mem_cons_self) turn)

/-- Nothing changes when only the way to the server or the state of the client does. -/
theorem Conveys.congr (h : ep.Conveys tr)
    (hstream : ep'.incompleteMessage ++ ep'.incoming = ep.incompleteMessage ++ ep.incoming) :
    ep'.Conveys tr := by
  obtain ⟨pending, hlines, hpending, htold⟩ := h.lines
  exact ⟨pending, hlines, hstream.trans hpending, htold⟩

/-- A line is decoded. -/
theorem Conveys.decode (h : ep.Conveys tr) {line rest : Bytes}
    (htake : takeMessage newline ep.incompleteMessage = some (line, rest)) (state : ClientState) :
    ({ ep with state := state, incompleteMessage := rest } : Endpoint).Conveys
      (tr.decode line) := by
  obtain ⟨pending, hlines, hstream, htold⟩ := h.lines
  have hfirst := takeMessage_append htake ep.incoming
  rw [hstream] at hfirst
  obtain ⟨more, rfl, hmore⟩ := takeMessage_closed hlines hfirst
  refine ⟨more, fun l hl => hlines l (List.mem_cons_of_mem line hl), hmore, ?_⟩
  have hsame : (tr.decode line).decoded ++ more = tr.decoded ++ line :: more := by simp [Transcript.decode]
  rw [hsame]
  exact htold

/-- The decoded lines are the first that the server has told, all of them when nothing is on its way. -/
theorem Conveys.decodedLines (h : ep.Conveys tr) :
    tr.decodedLines.map Prod.snd = (tr.decoded.map fun line => line ++ [newline]) ∧
      (ep.Quiescent → tr.decodedLines = tr.told) := by
  obtain ⟨pending, -, hstream, htold⟩ := h.lines
  constructor
  · rw [Transcript.decodedLines, List.map_take, htold, List.map_append]
    exact List.take_left' (by simp)
  · rintro ⟨-, hincoming, hincomplete⟩
    rw [hincoming, hincomplete] at hstream
    have hnone : pending = [] := by
      cases pending with
      | nil => rfl
      | cons line lines => simp [closed] at hstream
    have hlength := congrArg List.length htold
    rw [hnone, List.append_nil, List.length_map, List.length_map] at hlength
    rw [Transcript.decodedLines, ← hlength, List.take_length]

end Endpoint

/-! ## The keyboard -/

/-- The line is what the client sends for what is typed: at the prompt for a name, or in the input loop. -/
def Sends (line typed : Bytes) : Prop :=
  line = str "/SETNAME " ++ chosenName typed ∨ ∃ state v, (handleInput state typed).sent = some (line, v)

theorem parseText_slash (rest : Bytes) : ∃ command, parseText (str "/" ++ rest) = .command command := by
  have hslash : startsWith (str "/") (str "/" ++ rest) = true := by
    rw [startsWith, List.isPrefixOf_iff_prefix]
    exact List.prefix_append _ _
  rw [parseText, if_pos hslash]
  exact ⟨_, rfl⟩

/-- What is sent for a name is no message. -/
theorem not_utters_setName (name : Bytes) (message : Message) : ¬Utters (str "/SETNAME " ++ name) message := by
  have htrim : ∃ rest, trim (str "/SETNAME " ++ name) = str "/" ++ rest := by
    have hsplit : str "/SETNAME " ++ name = str "/" ++ (str "SETNAME " ++ name) := rfl
    rw [hsplit, trim_append (by decide) (by decide)]
    exact ⟨_, rfl⟩
  obtain ⟨rest, hrest⟩ := htrim
  obtain ⟨command, hcommand⟩ := parseText_slash rest
  intro h
  cases h with
  | chat _ hparse =>
      rw [hrest, hcommand] at hparse
      cases hparse
  | whisper _ hparse =>
      rw [hrest, hcommand] at hparse
      cases hparse

/-- A message in what the client sends is a message in what is typed. -/
theorem utters_typed {message : Message} {line typed : Bytes} (h : Utters line message)
    (hsends : Sends line typed) : Utters typed message := by
  rcases hsends with rfl | ⟨state, v, hsent⟩
  · exact absurd h (not_utters_setName _ message)
  -- the input loop sends the trimmed line, or FORCELEAVE
  have hline : line = trim typed ∨ line = str "/FORCELEAVE" := by
    rcases (sent_handleInput hsent).2 with ⟨-, hat⟩ | ⟨-, -, c, -, hc⟩ | ⟨-, -, rfl, -⟩
    · exact Or.inl (sent_privateInput hat).1
    · exact (sent_runClientCommand hc).imp_right And.left
    · exact Or.inl rfl
  rcases hline with rfl | rfl
  · cases h with
    | chat hpublic hparse =>
        rw [trim_trim] at hparse
        exact .chat hpublic hparse
    | whisper hprivate hparse =>
        rw [trim_trim] at hparse
        exact .whisper hprivate hparse
  · have hparse : parseText (trim (str "/FORCELEAVE")) = .command .forceLeave := by decide
    cases h with
    | chat _ h =>
        rw [hparse] at h
        cases h
    | whisper _ h =>
        rw [hparse] at h
        cases h

/-- The lines that the server has received from `a`. -/
def heardOf (a : SOCKET) (heard : List (SOCKET × Bytes)) : List Bytes :=
  (heard.filter fun line => line.1 = a).map Prod.snd

theorem heardOf_append (a : SOCKET) (heard heard' : List (SOCKET × Bytes)) :
    heardOf a (heard ++ heard') = heardOf a heard ++ heardOf a heard' := by
  rw [heardOf, List.filter_append, List.map_append]
  rfl

/-- What the server has received from `a` and what is on its way come from what has been typed there. -/
def FromKeyboard (a : SOCKET) (ep : Endpoint) (p : Past) : Prop :=
  List.SublistForall₂ Sends (heardOf a p.heard ++ ep.outgoing) (p.typed a)

/-- Accepting a connection drops what is on its way; other operations leave it alone. -/
theorem outgoing_observeAll (c : SOCKET) (ops : List NetOp) : ∀ ep : Endpoint,
    (ops.foldl (Endpoint.observe c) ep).outgoing.Sublist ep.outgoing := by
  induction ops with
  | nil => exact fun ep => List.Sublist.refl _
  | cons op ops ih =>
      intro ep
      refine (ih _).trans ?_
      cases op with
      | accepted t =>
          rw [Endpoint.observe]
          split
          · exact List.nil_sublist _
          · exact List.Sublist.refl _
      | sent t text =>
          rw [Endpoint.observe]
          split <;> exact List.Sublist.refl _
      | replayed t text =>
          rw [Endpoint.observe]
          split <;> exact List.Sublist.refl _
      | closed t => exact List.Sublist.refl _

/-- The server receives the first line on its way. -/
theorem heardOf_received {n : Network} {l : Label} (hsupplies : n.Supplies l) (a : SOCKET)
    (heard : List (SOCKET × Bytes)) : heardOf a (heard ++ l.heard) ++ ((n.client a).received a l).outgoing =
      heardOf a heard ++ (n.client a).outgoing := by
  rw [heardOf_append, List.append_assoc]
  congr 1
  cases l with
  | event ev =>
      cases ev with
      | receive t line =>
          have hhead : (n.client t).outgoing.head? = some line := hsupplies
          by_cases ht : t = a
          · subst ht
            obtain ⟨rest, hrest⟩ := List.head?_eq_some_iff.1 hhead
            simp [Label.heard, Event.heard, heardOf, Endpoint.received, hrest]
          · simp [Label.heard, Event.heard, heardOf, Endpoint.received, ht]
      | connect t => rfl
      | hangup t => rfl
  | _ => rfl

/-! ## The turns -/

/-- A step of the server gives nobody a turn, or one message, to which all operations of the step belong. -/
theorem turns_observe (m : Machine) (l : Label) (m' : Machine) (w : Watch) :
    turns (w.observe m l m').log = turns w.log ∨ ∃ message,
      turns (w.observe m l m').log = turns w.log ++ [(message, opsBetween m.globals m'.globals)] := by
  cases l with
  | run t e =>
      cases t with
      | main =>
          left
          rw [Watch.observe]
          split
          · rw [turns_append, turns_mainEntries, List.append_nil]
          · rfl
      | broadcaster =>
          rw [Watch.observe]
          split
          · show turns (w.log ++ w.hand.entries e m.globals m'.globals) = _ ∨ ∃ message,
              turns (w.log ++ w.hand.entries e m.globals m'.globals) = _
            rw [turns_append]
            cases w.hand with
            | empty => exact Or.inl (List.append_nil _)
            | taken message => exact Or.inl (List.append_nil _)
            | found message =>
                rw [Hand.entries]
                split
                · exact Or.inl (List.append_nil _)
                · exact Or.inr ⟨message, rfl⟩
            | resolved message t recipient => exact Or.inr ⟨message, rfl⟩
          · exact Or.inl rfl
      | cleanup n => exact Or.inl rfl
  | _ => exact Or.inl rfl

/-- A line told outside of a turn is about no message. -/
theorem ofTurns_put_outside (lines : List (Option Message × Bytes)) (text : Bytes) :
    Transcript.ofTurns (lines ++ [(none, text)]) = Transcript.ofTurns lines := by
  simp [Transcript.ofTurns]

/-- An operation outside of a turn adds no line about a message; a new connection starts without any. -/
theorem ofTurns_observe_outside (c : SOCKET) (tr : Transcript) (op : NetOp) :
    (Transcript.ofTurns (tr.observe c none op).told).Sublist (Transcript.ofTurns tr.told) := by
  cases op with
  | accepted t =>
      rw [Transcript.observe]
      split
      · exact List.nil_sublist _
      · exact List.Sublist.refl _
  | sent t text =>
      rw [Transcript.observe]
      split
      · rw [ofTurns_put_outside]
      · exact List.Sublist.refl _
  | replayed t text =>
      rw [Transcript.observe]
      split
      · rw [ofTurns_put_outside]
      · exact List.Sublist.refl _
  | closed t => exact List.Sublist.refl _

/-- What is told outside of a turn is about no message. -/
theorem ofTurns_outside (c : SOCKET) (ops : List NetOp) : ∀ tr : Transcript,
    (Transcript.ofTurns (ops.foldl (Transcript.observe c none) tr).told).Sublist
      (Transcript.ofTurns tr.told) := by
  induction ops with
  | nil => exact fun tr => List.Sublist.refl _
  | cons op ops ih =>
      intro tr
      rw [List.foldl_cons]
      exact (ih _).trans (ofTurns_observe_outside c tr op)

/-- What is told in the turn of a message is about this message. -/
theorem ofTurns_turn (c : SOCKET) (message : Message) (ops : List NetOp)
    (hsent : ∀ op ∈ ops, ∃ t text, op = .sent t text) : ∀ tr : Transcript,
    Transcript.ofTurns (ops.foldl (Transcript.observe c (some message)) tr).told =
      Transcript.ofTurns tr.told ++ (sentTo c ops).map fun text => (message, text) := by
  induction ops with
  | nil => exact fun tr => (List.append_nil _).symm
  | cons op ops ih =>
      intro tr
      have hrest : ∀ op' ∈ ops, ∃ t text, op' = .sent t text :=
        fun op' hop' => hsent op' (List.mem_cons_of_mem op hop')
      obtain ⟨t, text, rfl⟩ := hsent op List.mem_cons_self
      rw [List.foldl_cons, ih hrest]
      by_cases ht : t = c
      · simp [Transcript.observe, Transcript.ofTurns, sentTo, ht]
      · simp [Transcript.observe, sentTo, ht]

/-- The lines that the turns have sent to `c`, each with its message. -/
def linesOfTurns (c : SOCKET) (log : List Entry) : List (Message × Bytes) :=
  (turns log).flatMap fun q => (sentTo c q.2).map fun text => (q.1, text)

/-! ## Whole runs -/

/-- What a run keeps. -/
structure Carried (db : Database) (listenSocket : SOCKET) (n : Network) (p : Past) : Prop where
  watched : Machine.Watched Machine.anyStep db listenSocket n.server p.watch
  synced : n.Synced
  answered : n.server.Answered p.watch p.heard
  conveys : ∀ c, (n.client c).Conveys (p.transcript c)
  keyboard : ∀ a, FromKeyboard a (n.client a) p
  inTurn : ∀ c, (Transcript.ofTurns (p.transcript c).told).Sublist (linesOfTurns c p.watch.log)

section Runs

variable {db : Database} {listenSocket : SOCKET} {n n' : Network} {p : Past} {c : SOCKET}

theorem carried_boot (hdb : db.Lined) : Carried db listenSocket (.boot db listenSocket) {} where
  watched := .refl
  synced := ⟨Machine.writesLines_boot hdb listenSocket, fun c => Endpoint.follows_boot c⟩
  answered := Machine.answered_boot db listenSocket
  conveys _ := .blank
  keyboard _ := .nil
  inTurn _ := List.Sublist.refl _

/-- The server takes a step. -/
theorem Carried.serve (h : Carried db listenSocket n p) {l : Label} {m : Machine} (hsupplies : n.Supplies l)
    (hm : n.server.next l = some m) (hsynced : (n.serve l m).Synced) :
    Carried db listenSocket (n.serve l m) (p.serve n.server l m) := by
  have hwatched : Machine.Watched Machine.anyStep db listenSocket m (p.watch.observe n.server l m) :=
    h.watched.tail ⟨l, trivial, hm, rfl⟩
  have hlined : ∀ op ∈ opsBetween n.server.globals m.globals, op.Lined := fun op hop =>
    hsynced.server.globals.net op (List.mem_of_mem_drop hop)
  refine ⟨hwatched, hsynced, h.answered.next hm, fun c => ?_, fun a => ?_, fun c => ?_⟩
  · apply Endpoint.Conveys.observeAll hlined
    apply (h.conveys c).congr
    unfold Endpoint.received
    split
    · split <;> rfl
    · rfl
  · apply part_comes (h.keyboard a)
    have hsame := heardOf_received hsupplies a p.heard
    rw [← hsame]
    exact (List.Sublist.refl _).append (outgoing_observeAll a _ _)
  · show (Transcript.ofTurns ((opsBetween n.server.globals m.globals).foldl (Transcript.observe c
      (Past.turnBetween p.watch (p.watch.observe n.server l m))) (p.transcript c)).told).Sublist
        (linesOfTurns c (p.watch.observe n.server l m).log)
    rcases turns_observe n.server l m p.watch with hturns | ⟨message, hturns⟩
    · rw [Past.turnBetween, hturns, List.drop_length, linesOfTurns, hturns]
      exact (ofTurns_outside c _ _).trans (h.inTurn c)
    · -- the lines of the turn are added on both sides
      have hsent : ∀ op ∈ opsBetween n.server.globals m.globals, ∃ t text, op = .sent t text := by
        intro op hop
        have hmem : (message, opsBetween n.server.globals m.globals) ∈
            turns (p.watch.observe n.server l m).log := by
          rw [hturns]
          exact List.mem_append_right _ List.mem_cons_self
        obtain ⟨t, text, hop', -⟩ := hwatched.oneOrder.lines _ hmem op hop
        exact ⟨t, text, hop'⟩
      rw [Past.turnBetween, hturns, List.drop_left, linesOfTurns, hturns, List.flatMap_append]
      rw [List.head?_cons, Option.map_some, ofTurns_turn c message _ hsent]
      exact (h.inTurn c).append (by simp)

/-- A client changes its end of the connection. -/
theorem Carried.setClient (h : Carried db listenSocket n p) {ep : Endpoint} {tr : Transcript}
    (typed : List Bytes) (hsynced : (n.setClient c ep).Synced) (hconveys : ep.Conveys tr)
    (hsame : tr.told = (p.transcript c).told)
    (hkeyboard : List.SublistForall₂ Sends (heardOf c p.heard ++ ep.outgoing) typed) :
    Carried db listenSocket (n.setClient c ep) { p with
      typed := Function.update p.typed c typed
      transcript := Function.update p.transcript c tr } := by
  refine ⟨h.watched, hsynced, h.answered, fun d => ?_, fun a => ?_, fun d => ?_⟩
  · by_cases hd : d = c
    · subst hd
      simpa [Network.setClient] using hconveys
    · simpa [Network.setClient, Function.update_of_ne hd] using h.conveys d
  · by_cases ha : a = c
    · subst ha
      simpa [FromKeyboard, Network.setClient] using hkeyboard
    · simpa [FromKeyboard, Network.setClient, Function.update_of_ne ha] using h.keyboard a
  · by_cases hd : d = c
    · subst hd
      simpa [hsame] using h.inTurn d
    · simpa [Function.update_of_ne hd] using h.inTurn d

theorem Carried.move (h : Carried db listenSocket n p) (mv : Move) (hnext : n.next mv = some n') :
    Carried db listenSocket n' (p.observe n mv n') := by
  have hsynced : n'.Synced := h.synced.step
    (show Network.Step Machine.anyStep n n' from ⟨mv, fun _ _ => trivial, hnext⟩)
  have hstill : ∀ c, Function.update p.typed c (p.typed c) = p.typed :=
    fun c => Function.update_eq_self c _
  have hkept : ∀ c, Function.update p.transcript c (p.transcript c) = p.transcript :=
    fun c => Function.update_eq_self c _
  cases mv with
  | server l =>
      simp only [Network.next, Option.ite_none_right_eq_some, Option.map_eq_some_iff] at hnext
      obtain ⟨hsupplies, m, hm, rfl⟩ := hnext
      exact h.serve hsupplies hm hsynced
  | typeName c typed =>
      simp only [Network.next, Option.ite_none_left_eq_some, Option.some.injEq] at hnext
      obtain ⟨-, rfl⟩ := hnext
      have hmove := h.setClient (p.typed c ++ [getline typed]) hsynced ((h.conveys c).congr rfl) rfl ?_
      · rw [hkept] at hmove
        exact hmove
      · -- the typed name is the source of the line that is sent for it
        show List.SublistForall₂ Sends (heardOf c p.heard ++ ((n.client c).outgoing ++ [_])) _
        rw [← List.append_assoc]
        exact comes_append (h.keyboard c) (comes_of_forall₂ (.cons (Or.inl rfl) .nil))
  | typeLine c typed =>
      simp only [Network.next, Option.ite_none_left_eq_some, Option.some.injEq] at hnext
      obtain ⟨-, rfl⟩ := hnext
      have hmove := h.setClient (p.typed c ++ [getline typed]) hsynced ((h.conveys c).congr rfl) rfl ?_
      · rw [hkept] at hmove
        exact hmove
      · show List.SublistForall₂ Sends (heardOf c p.heard ++ ((n.client c).outgoing ++
          (handleInput (n.client c).state (getline typed)).sent.toList.map (·.1))) _
        rw [← List.append_assoc]
        apply comes_append (h.keyboard c)
        -- a typed line gives one line to send, or none
        cases hsent : (handleInput (n.client c).state (getline typed)).sent with
        | none => exact .nil
        | some line => exact comes_of_forall₂ (.cons (Or.inr ⟨_, line.2, hsent⟩) .nil)
  | deliver c k =>
      simp only [Network.next, Option.ite_none_left_eq_some, Option.some.injEq] at hnext
      obtain ⟨-, rfl⟩ := hnext
      -- bytes change their place in the stream, not their order
      have hstream : ((n.client c).deliver k).Conveys (p.transcript c) := by
        apply (h.conveys c).congr
        rw [Endpoint.deliver, List.append_assoc, List.take_append_drop]
      have hmove := h.setClient _ hsynced hstream rfl (h.keyboard c)
      rw [hkept, hstill] at hmove
      exact hmove
  | decode c =>
      simp only [Network.next, Endpoint.decode, Option.map_map, Option.map_eq_some_iff] at hnext
      obtain ⟨⟨line, rest⟩, htake, rfl⟩ := hnext
      have hmove := h.setClient _ hsynced ((h.conveys c).decode htake _) rfl (h.keyboard c)
      rw [hstill] at hmove
      simp only [Past.observe, htake]
      exact hmove

theorem Followed.carried (h : Followed db listenSocket n p) : Carried db listenSocket n p := by
  induction h with
  | boot hdb => exact carried_boot hdb
  | move mv _ hnext ih => exact ih.move mv hnext

end Runs

/-! ## End to end -/

/-- The way of a message: the line that was typed, the message it was accepted as, and the lines that its turn
has sent to a reader who has decoded them. -/
structure Relay where
  line : Bytes
  message : Message
  texts : List Bytes

/-- The message comes from `a` and is what was typed; every line bears it, and a public message gives at most
one. -/
structure Relay.Sound (a : SOCKET) (r : Relay) : Prop where
  sender : r.message.senderSocket = a
  utters : Utters r.line r.message
  bears : ∀ text ∈ r.texts, Bears r.message text
  once : r.message.isPrivate = false → r.texts.length ≤ 1

/-- A part of the lines of a turn is made of some of its texts. -/
theorem texts_of_part {message : Message} {texts : List Bytes} {part : List (Message × Bytes)}
    (h : part.Sublist (texts.map fun text => (message, text))) :
    (part.map Prod.snd).Sublist texts ∧ part = (part.map Prod.snd).map fun text => (message, text) := by
  obtain ⟨chosen, hchosen, rfl⟩ := List.sublist_map_iff.1 h
  simpa using hchosen

/-- Turns of messages from `a`, a part of the lines of each, and the line that each was typed as. -/
theorem relays_of_turns {a b : SOCKET} {parts : List (List (Message × Bytes))}
    {had : List (Message × List NetOp)} (hparts : List.Forall₂ (fun part q =>
      part.Sublist ((sentTo b q.2).map fun text => (q.1, text))) parts had) : ∀ {lines : List Bytes},
    List.Forall₂ (fun message line => Utters line message) (had.map Prod.fst) lines →
    (∀ q ∈ had, q.1.senderSocket = a) → (∀ q ∈ had, ∀ text ∈ sentTo b q.2, Bears q.1 text) →
    (∀ q ∈ had, q.1.isPrivate = false → (sentTo b q.2).length ≤ 1) →
      ∃ relays : List Relay, relays.map Relay.line = lines ∧ (∀ r ∈ relays, r.Sound a) ∧
        parts.flatten = relays.flatMap fun r => r.texts.map fun text => (r.message, text) := by
  induction hparts with
  | nil =>
      intro lines hlines _ _ _
      rw [List.map_nil, List.forall₂_nil_left_iff] at hlines
      exact ⟨[], hlines.symm, by simp, rfl⟩
  | @cons part q parts had hpart _ ih =>
      intro lines hlines hsender hbears honce
      rw [List.map_cons, List.forall₂_cons_left_iff] at hlines
      obtain ⟨line, rest, hline, hrest, rfl⟩ := hlines
      have hmem : ∀ q' ∈ had, q' ∈ q :: had := fun q' hq' => List.mem_cons_of_mem q hq'
      obtain ⟨relays, hmap, hsound, hflatten⟩ := ih hrest (fun q' hq' => hsender q' (hmem q' hq'))
        (fun q' hq' => hbears q' (hmem q' hq')) fun q' hq' => honce q' (hmem q' hq')
      obtain ⟨htexts, hsame⟩ := texts_of_part hpart
      refine ⟨⟨line, q.1, part.map Prod.snd⟩ :: relays, by rw [List.map_cons, hmap], ?_, ?_⟩
      · intro r hr
        rcases List.mem_cons.1 hr with rfl | hr
        · refine ⟨hsender q List.mem_cons_self, hline, fun text htext => ?_, fun hpublic => ?_⟩
          · exact hbears q List.mem_cons_self text (htexts.subset htext)
          · exact htexts.length_le.trans (honce q List.mem_cons_self hpublic)
        · exact hsound r hr
      · rw [List.flatten_cons, List.flatMap_cons, ← hflatten]
        exact congrArg (· ++ parts.flatten) hsame

section EndToEnd

variable {db : Database} {listenSocket : SOCKET} {n : Network} {p : Past}

/-- The turns of messages from `a`. -/
def turnsOf (a : SOCKET) (log : List Entry) : List (Message × List NetOp) :=
  (turns log).filter fun q => q.1.senderSocket = a

/-- The messages from `a` that have had their turn come from the lines typed there. -/
theorem Carried.turns_typed (h : Carried db listenSocket n p) (a : SOCKET) : List.SublistForall₂
    (fun message line => Utters line message) ((turnsOf a p.watch.log).map Prod.fst) (p.typed a) := by
  -- from the turns to the received lines
  have hheard : List.SublistForall₂ (fun message line => Says line message)
      ((turns p.watch.log).map Prod.fst) p.heard := by
    obtain ⟨_, pending, said, -, -, -, hanswer, hsublist⟩ := h.answered
    have haccepted := comes_of_sublist (comes_of_forall₂ hanswer.flip)
      ((List.sublist_append_left said pending).trans hsublist)
    exact part_comes haccepted ((List.sublist_append_left _ _).trans h.watched.oneOrder.queue)
  have hfilter := comes_filter hheard (fun message => message.senderSocket = a) (fun line => line.1 = a) (by
    intro message line hsaid hsender
    simpa [hsaid.1] using hsender)
  have hsame : ((turns p.watch.log).map Prod.fst).filter (fun message => message.senderSocket = a) =
      (turnsOf a p.watch.log).map Prod.fst := by
    rw [turnsOf, List.filter_map]
    rfl
  rw [hsame] at hfilter
  -- and from there to the keyboard
  have hkeyboard : List.SublistForall₂ Sends (heardOf a p.heard) (p.typed a) :=
    part_comes (h.keyboard a) (List.sublist_append_left _ _)
  rw [heardOf, List.sublistForall₂_map_left_iff] at hkeyboard
  exact comes_trans hfilter hkeyboard fun message line typed hsaid hsends => utters_typed hsaid.2 hsends

/-- The decoded lines about messages from `a` are lines of their turns. -/
theorem Carried.heard_turns (h : Carried db listenSocket n p) (a b : SOCKET) :
    ((p.transcript b).heardFrom a).Sublist ((turnsOf a p.watch.log).flatMap fun q =>
      (sentTo b q.2).map fun text => (q.1, text)) := by
  have hdecoded : (Transcript.ofTurns (p.transcript b).decodedLines).Sublist (linesOfTurns b p.watch.log) :=
    ((List.take_sublist _ _).filterMap _).trans (h.inTurn b)
  have hfilter : (linesOfTurns b p.watch.log).filter (fun q => q.1.senderSocket = a) =
      (turnsOf a p.watch.log).flatMap fun q => (sentTo b q.2).map fun text => (q.1, text) := by
    rw [linesOfTurns, turnsOf]
    induction turns p.watch.log with
    | nil => rfl
    | cons q had ih =>
        rw [List.flatMap_cons, List.filter_append, ih]
        by_cases hq : q.1.senderSocket = a
        · simp [hq, List.filter_map, Function.comp_def]
        · simp [hq, List.filter_map, Function.comp_def]
  rw [← hfilter]
  exact hdecoded.filter _

/-- **From the keyboard to the decoder.** In every run of the network a client has decoded, line for line, the
beginning of what the server has told it since it accepted it, and all of it when nothing is on its way. What
`b` has decoded of messages from `a` are lines that bear what was typed at `a`: for a part of the typed lines,
in the order of the typing, some lines for each, and for a public message at most one. -/
theorem keyboard_to_decoder (h : Followed db listenSocket n p) :
    (∀ c, (p.transcript c).decodedLines.map Prod.snd =
        ((p.transcript c).decoded.map fun line => line ++ [newline]) ∧
      (p.transcript c).decodedLines <+: (p.transcript c).told ∧
      ((n.client c).Quiescent → (p.transcript c).decodedLines = (p.transcript c).told)) ∧
    ∀ a b, ∃ relays : List Relay, (relays.map Relay.line).Sublist (p.typed a) ∧
      (∀ r ∈ relays, r.Sound a) ∧ (p.transcript b).heardFrom a =
        relays.flatMap fun r => r.texts.map fun text => (r.message, text) := by
  have hcarried := h.carried
  refine ⟨fun c => ?_, fun a b => ?_⟩
  · have hdecoded := (hcarried.conveys c).decodedLines
    exact ⟨hdecoded.1, List.take_prefix _ _, hdecoded.2⟩
  · obtain ⟨lines, hutters, hlines⟩ := List.sublistForall₂_iff.1 (hcarried.turns_typed a)
    obtain ⟨parts, hparts, hheard⟩ := parts_of_sublist_flatMap _ _ _ (hcarried.heard_turns a b)
    have hmem : ∀ q ∈ turnsOf a p.watch.log, q ∈ turns p.watch.log ∧ q.1.senderSocket = a := fun q hq => by
      simpa [turnsOf] using hq
    have hbears : ∀ q ∈ turnsOf a p.watch.log, ∀ text ∈ sentTo b q.2, Bears q.1 text := by
      intro q hq text htext
      rw [sentTo, List.mem_filterMap] at htext
      obtain ⟨op, hop, hsent⟩ := htext
      obtain ⟨t, text', rfl, hbears⟩ := hcarried.watched.oneOrder.lines q (hmem q hq).1 op hop
      dsimp only at hsent
      split at hsent
      · rw [← Option.some.inj hsent]
        exact hbears
      · exact absurd hsent (by simp)
    obtain ⟨relays, hmap, hsound, hflatten⟩ := relays_of_turns hparts hutters (fun q hq => (hmem q hq).2)
      hbears fun q hq hpublic => hcarried.watched.once q (hmem q hq).1 hpublic b
    exact ⟨relays, hmap ▸ hlines, hsound, hheard.trans hflatten⟩

end EndToEnd

/-! ## An executable run -/

/-- Make the moves one after the other; those that cannot occur are skipped. -/
def follow : Network × Past → List Move → Network × Past
  | q, [] => q
  | q, mv :: mvs =>
      match q.1.next mv with
      | some n' => follow (n', q.2.observe q.1 mv n') mvs
      | none => follow q mvs

theorem followed_follow {db : Database} {listenSocket : SOCKET} : ∀ (mvs : List Move) (q : Network × Past),
    Followed db listenSocket q.1 q.2 → Followed db listenSocket (follow q mvs).1 (follow q mvs).2
  | [], _, h => h
  | mv :: mvs, q, h => by
      rw [follow]
      cases hnext : q.1.next mv with
      | some n' => exact followed_follow mvs _ (h.move mv hnext)
      | none => exact followed_follow mvs q h

/-- The server handles an event, and the client decodes what it is told. -/
def handling (ev : Event) (draw : Fin 900000) : List Move :=
  (Machine.serving ev draw).map .server ++ [.deliver ev.socket 1000] ++ List.replicate 3 (.decode ev.socket)

/-- The user at `c` types a line, which the server handles as `line`. -/
def speaking (c : SOCKET) (typed line : Bytes) (draw : Fin 900000) : List Move :=
  .typeLine c typed :: handling (.receive c line) draw

/-- Alice makes a room, bob joins it, and alice says hello and goodbye; bob has decoded the first. -/
def conversation : List Move :=
  handling (.connect 4) 0 ++ .typeName 4 (str "alice") :: handling (.receive 4 (str "/SETNAME alice")) 0 ++
    handling (.connect 5) 0 ++ .typeName 5 (str "bob") :: handling (.receive 5 (str "/SETNAME bob")) 0 ++
    speaking 4 (str "/CREATE PUBLIC") (str "/CREATE PUBLIC") 7 ++
    speaking 5 (str "/JOIN 100007") (str "/JOIN 100007") 0 ++ speaking 4 (str " hello ") (str "hello") 0 ++
    speaking 4 (str "goodbye") (str "goodbye") 0 ++ (Machine.delivering ++ Machine.delivering).map .server ++
    [.deliver 5 1000, .decode 5]

theorem keyboard_to_decoder_hello : ∃ n p, Followed {} 3 n p ∧
    p.typed 4 = [str "alice", str "/CREATE PUBLIC", str " hello ", str "goodbye"] ∧
    ((p.transcript 5).heardFrom 4).map Prod.snd = [str "[00:00:00] alice: hello\n"] ∧
    ∃ relays : List Relay, (relays.map Relay.line).Sublist (p.typed 4) ∧ (∀ r ∈ relays, r.Sound 4) ∧
      (p.transcript 5).heardFrom 4 = relays.flatMap fun r => r.texts.map fun text => (r.message, text) := by
  have hrun : Followed {} 3 (follow (.boot {} 3, {}) conversation).1 (follow (.boot {} 3, {}) conversation).2 :=
    followed_follow conversation _ (.boot fun _ hrow => absurd hrow List.not_mem_nil)
  have hcheck : (follow (.boot {} 3, {}) conversation).2.typed 4 =
        [str "alice", str "/CREATE PUBLIC", str " hello ", str "goodbye"] ∧
      (((follow (.boot {} 3, {}) conversation).2.transcript 5).heardFrom 4).map Prod.snd =
        [str "[00:00:00] alice: hello\n"] := by decide +kernel
  exact ⟨_, _, hrun, hcheck.1, hcheck.2, (keyboard_to_decoder hrun).2 4 5⟩

end TerminalChat.System
