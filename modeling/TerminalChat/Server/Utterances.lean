import Mathlib
import TerminalChat.Concurrency.Emission
import TerminalChat.Server.Guards
import TerminalChat.Server.Ordering
import TerminalChat.Server.Secrecy

/-!
# From received lines to accepted messages

The main thread puts a message into the queue only for a line that it has received, at most one for each line,
and in the order of the lines (`Machine.Watched.once`, `Machine.Answered.next`). No command puts anything into
the queue: none of them takes `g_queueMutex`.
-/

set_option autoImplicit false

namespace TerminalChat.Server

open TerminalChat.Concurrency TerminalChat.Text

/-- What a client asks for with a line: the message is the chat line, or the private message in it. -/
inductive Utters (line : Bytes) (message : Message) : Prop where
  | chat (hpublic : message.isPrivate = false) (h : parseText (trim line) = .chat message.content)
  | whisper (hprivate : message.isPrivate = true)
      (h : parseText (trim line) = .privateMessage message.recipientName message.content)

/-! ## Commands stay away from the queue -/

/-- The program never takes `g_queueMutex`. -/
def Tame {α : Type} (p : Thread α) : Prop := p.Takes {m | m ≠ .queueMutex}

section Tame

variable {α β : Type} (sock : SOCKET)

theorem tame_pure (a : α) : Tame (pure a : Thread α) := trivial

theorem tame_seq {p : Thread α} {f : α → Thread β} (hp : Tame p) (hf : ∀ a, Tame (f a)) :
    Tame (p >>= f) := Prog.takes_bind hf p hp

theorem tame_ite {c : Prop} [Decidable c] {p p' : Thread α} (hp : Tame p) (hp' : Tame p') :
    Tame (if c then p else p') := Prog.takes_ite hp hp'

theorem tame_step (b : Sect α) : Tame (step b) := by
  show (Prog.block Mutex.leaf b).Takes _
  apply Prog.takes_block
  simp

theorem tame_reply (text : Bytes) : Tame (reply sock text) := tame_step _

theorem tame_underClients {p : Thread α} (hp : Tame p) : Tame (Prog.holding .clientsMutex p) :=
  Prog.takes_holding (by simp) hp

theorem tame_underRooms {p : Thread α} (hp : Tame p) : Tame (Prog.holding .chatRoomsMutex p) :=
  Prog.takes_holding (by simp) hp

theorem tame_clients (b : Sect α) : Tame (critical .clientsMutex b) := tame_underClients (tame_step b)

theorem tame_rooms (b : Sect α) : Tame (critical .chatRoomsMutex b) := tame_underRooms (tame_step b)

/-- The checks that the commands of a client in a room begin with. -/
theorem tame_guards {c c' : ClientInfo → Bool} {error error' : Bytes} {p : ClientInfo → Thread Unit}
    (hp : ∀ client, Tame (p client)) : Tame (do
      let client ← critical .clientsMutex (clientInfo sock)
      if c client then reply sock error
      else if c' client then reply sock error'
      else p client : Thread Unit) := by
  apply tame_seq (tame_clients _)
  exact fun client => tame_ite (tame_reply sock _) (tame_ite (tame_reply sock _) (hp client))

theorem tame_handleCreateCommand (params : Bytes) : Tame (handleCreateCommand sock params) := by
  refine tame_ite (tame_reply sock _) (tame_seq (tame_step _) fun roomId => tame_seq ?_ fun client => ?_)
  · apply tame_underClients
    apply tame_seq (tame_step _)
    exact fun _ => tame_ite (tame_pure _) (tame_seq (tame_rooms _) fun _ => tame_pure _)
  · apply tame_seq (tame_rooms _)
    intro _
    apply tame_seq (tame_clients _)
    exact fun _ => tame_seq (tame_step _) fun _ => tame_reply sock _

theorem tame_handleJoinCommand (params : Bytes) : Tame (handleJoinCommand sock params) := by
  apply tame_ite (tame_reply sock _)
  apply tame_underClients
  exact tame_seq (tame_step _) fun _ => tame_ite (tame_reply sock _) (tame_rooms _)

theorem tame_handleSetNameCommand (name : Bytes) : Tame (handleSetNameCommand sock name) := by
  apply tame_ite (tame_reply sock _)
  apply tame_seq (tame_clients _)
  exact fun _ => tame_ite (tame_reply sock _) (tame_seq (tame_clients _) fun _ => tame_reply sock _)

theorem tame_handleUsersCommand : Tame (handleUsersCommand sock) := by
  apply tame_seq (tame_clients _)
  intro client
  apply tame_ite (tame_reply sock _)
  apply tame_underRooms
  apply tame_seq (tame_step _)
  exact fun _ => tame_ite (tame_seq (tame_step _) fun _ => tame_clients _) (tame_pure _)

theorem tame_handleKickCommand (params : Bytes) : Tame (handleKickCommand sock params) := by
  apply tame_ite (tame_reply sock _)
  apply tame_guards
  intro client
  apply tame_ite (tame_reply sock _)
  apply tame_seq (tame_clients _)
  intro target
  apply tame_ite (tame_reply sock _)
  apply tame_seq (tame_step _)
  intro _
  apply tame_seq (tame_reply target _)
  exact fun _ => tame_seq (tame_rooms _) fun _ => tame_clients _

theorem tame_handleBanCommand (params : Bytes) : Tame (handleBanCommand sock params) := by
  apply tame_ite (tame_reply sock _)
  apply tame_guards
  intro client
  apply tame_ite (tame_reply sock _)
  apply tame_seq (tame_clients _)
  intro target
  apply tame_underRooms
  apply tame_seq (tame_step _)
  intro _
  refine tame_ite (tame_seq (tame_step _) fun _ => tame_ite (tame_reply sock _) ?_) (tame_pure _)
  exact tame_seq (tame_step _) fun _ => tame_seq (tame_clients _) fun _ => tame_reply sock _

theorem tame_handleTransferCommand (params : Bytes) : Tame (handleTransferCommand sock params) := by
  apply tame_ite (tame_reply sock _)
  apply tame_guards
  intro client
  apply tame_ite (tame_reply sock _)
  apply tame_seq (tame_clients _)
  intro target
  apply tame_ite (tame_reply sock _)
  apply tame_underRooms
  apply tame_seq (tame_step _)
  exact fun _ => tame_ite (tame_seq (tame_step _) fun _ => tame_clients _) (tame_pure _)

theorem tame_handleLeaveCommand : Tame (handleLeaveCommand sock) := by
  apply tame_guards
  intro client
  apply tame_seq (tame_rooms _)
  exact fun _ => tame_seq (tame_clients _) fun _ => tame_reply sock _

theorem tame_handOverRoom (client : ClientInfo) : Tame (handOverRoom sock client) := by
  apply tame_underRooms
  apply tame_seq (tame_step _)
  intro _
  refine tame_ite (tame_seq (tame_step _) fun _ => tame_seq ?_ fun _ => tame_step _) (tame_pure _)
  exact tame_ite (tame_clients _) (tame_pure _)

theorem tame_handleForceLeaveCommand : Tame (handleForceLeaveCommand sock) := by
  apply tame_guards
  intro client
  apply tame_seq (tame_handOverRoom sock client)
  exact fun _ => tame_seq (tame_clients _) fun _ => tame_reply sock _

theorem tame_handleChangePasswordCommand (params : Bytes) :
    Tame (handleChangePasswordCommand sock params) := by
  apply tame_ite (tame_reply sock _)
  apply tame_guards
  exact fun client => tame_rooms _

theorem tame_runCommand (c : Command) : Tame (runCommand sock c) := by
  cases c with
  | create params => exact tame_handleCreateCommand sock params
  | join params => exact tame_handleJoinCommand sock params
  | setName name => exact tame_handleSetNameCommand sock name
  | list => exact tame_rooms _
  | getPassword => exact tame_guards sock fun client => tame_rooms _
  | users => exact tame_handleUsersCommand sock
  | kick params => exact tame_handleKickCommand sock params
  | ban params => exact tame_handleBanCommand sock params
  | transfer params => exact tame_handleTransferCommand sock params
  | leave => exact tame_handleLeaveCommand sock
  | forceLeave => exact tame_handleForceLeaveCommand sock
  | changePassword params => exact tame_handleChangePasswordCommand sock params
  | unknown => exact tame_reply sock _

/-- What is confined and tame leaves the queue alone. -/
theorem guar_of_tame {p : Thread α} (hconfined : Confines ∅ p) (htame : Tame p) :
    p.Guar (fun _ => True) (fun s s' => s'.messageQueue = s.messageQueue) fun _ => True :=
  Prog.Confined.guar (k := Table.messageQueue) (by simp [guards, Table.mutex]) p ∅ (by simp) hconfined htame

end Tame

/-! ## What a handler may emit -/

/-- The line that an event brings. -/
def Event.heard : Event → List (SOCKET × Bytes)
  | .receive sock line => [(sock, line)]
  | _ => []

/-- The message says what the client has asked for with the line. -/
def Says (line : SOCKET × Bytes) (message : Message) : Prop :=
  message.senderSocket = line.1 ∧ Utters line.2 message

section Handlers

variable {V : Message → Prop} {n : Nat} (sock : SOCKET)

theorem emits_of_tame {p : Thread Unit} (hconfined : Confines ∅ p) (htame : Tame p) :
    p.Emits Globals.messageQueue V n := Prog.emits_of_guar p (guar_of_tame hconfined htame)

theorem emits_reply (text : Bytes) : (reply sock text).Emits Globals.messageQueue V n :=
  emits_of_tame (confines_reply sock text) (tame_reply sock text)

/-- The entry of the client is read before anything is said. -/
theorem emits_clientInfo {f : ClientInfo → Thread Unit}
    (hf : ∀ client, (f client).Emits Globals.messageQueue V n) :
    (critical .clientsMutex (clientInfo sock) >>= f).Emits Globals.messageQueue V n :=
  Prog.emits_seq hf _ (guar_of_tame (confines_clientInfo sock) (tame_clients _))

theorem emits_pushMessage {message : Message} (h : V message) :
    (pushMessage message).Emits Globals.messageQueue V 1 :=
  Prog.emits_append Mutex.leaf h fun _ _ => rfl

theorem emits_runRequest {request : Request}
    (hchat : ∀ client text, request = .chat text → V (chatMessage sock client text))
    (hprivate : ∀ client name text, request = .privateMessage name text →
      V (privateMessage sock client name text)) :
    (runRequest sock request).Emits Globals.messageQueue V 1 := by
  cases request with
  | command c => exact emits_of_tame (confines_runCommand sock c) (tame_runCommand sock c)
  | badPrivateMessage => exact emits_reply sock _
  | privateMessage name text =>
      apply emits_clientInfo
      intro client
      apply Prog.emits_ite (emits_reply sock _)
      apply Prog.emits_ite (emits_reply sock _)
      exact emits_pushMessage (hprivate client name text rfl)
  | chat text =>
      apply emits_clientInfo
      intro client
      apply Prog.emits_ite (emits_reply sock _)
      exact emits_pushMessage (hchat client text rfl)

/-- The handler of an event emits at most one message, and only what a line asks for. -/
theorem emits_handler (ev : Event) : ev.handler.Emits Globals.messageQueue
    (fun message => ∀ line ∈ ev.heard, Says line message) ev.heard.length := by
  cases ev with
  | connect sock =>
      apply emits_of_tame (confines_handler (.connect sock))
      apply tame_seq (tame_step _)
      intro _
      apply tame_seq (tame_clients _)
      intro _
      exact tame_seq (Prog.takes_holding (by simp) (tame_step _)) fun _ => tame_reply sock _
  | hangup sock =>
      apply emits_of_tame (confines_handler (.hangup sock))
      refine tame_seq ?_ fun _ => tame_seq (tame_clients _) fun _ => tame_seq (tame_step _) fun _ => ?_
      · apply tame_seq (tame_clients _)
        intro client
        apply tame_ite (tame_pure _)
        exact tame_seq (tame_rooms _) fun _ => tame_seq (tame_clients _) fun _ => tame_rooms _
      · exact Prog.takes_holding (by simp) (tame_step _)
  | receive sock line =>
      show (handleClientMessage sock line).Emits Globals.messageQueue _ 1
      rw [handleClientMessage]
      cases htext : actedText line with
      | none => exact trivial
      | some text =>
          -- what is acted on is the trimmed line
          simp only [actedText, Option.ite_none_left_eq_some, Option.some.injEq] at htext
          obtain ⟨-, rfl⟩ := htext
          apply emits_runRequest
          · intro client content hparse line' hline'
            rw [Event.heard, List.mem_singleton] at hline'
            exact hline' ▸ ⟨rfl, .chat rfl hparse⟩
          · intro client name content hparse line' hline'
            rw [Event.heard, List.mem_singleton] at hline'
            exact hline' ▸ ⟨rfl, .whisper rfl hparse⟩

end Handlers

/-! ## Whole runs -/

/-- The lines that a step of the server receives. -/
def Label.heard : Label → List (SOCKET × Bytes)
  | .event ev => ev.heard
  | _ => []

theorem accepted_entries (e : Env) (s s' : Globals) (hand : Hand) : accepted (hand.entries e s s') = [] := by
  cases hand with
  | empty => rfl
  | taken message => rfl
  | found message =>
      rw [Hand.entries]
      split
      · rfl
      · rfl
  | resolved message t recipient => rfl

namespace Machine

variable {m m' : Machine} {w : Watch} {lines : List (SOCKET × Bytes)} {l : Label}

/-- The accepted messages answer to received lines, in their order, and the main thread may still emit one for
the last line. -/
def Answered (m : Machine) (w : Watch) (lines : List (SOCKET × Bytes)) : Prop :=
  ∃ V pending said, (m.config.prog .main).Emits Globals.messageQueue V pending.length ∧
    (∀ message, V message → ∀ line ∈ pending, Says line message) ∧ pending.length ≤ 1 ∧
      List.Forall₂ Says said (accepted w.log) ∧ (said ++ pending).Sublist lines

theorem answered_boot (db : Database) (listenSocket : SOCKET) : (boot db listenSocket).Answered {} [] :=
  ⟨fun _ => False, [], [], trivial, fun _ h => h.elim, Nat.zero_le 1, .nil, .slnil⟩

/-- The program of the main thread and the accepted messages are as before. -/
theorem Answered.congr {w' : Watch} (h : m.Answered w lines)
    (hprog : m'.config.prog .main = m.config.prog .main) (hlog : accepted w'.log = accepted w.log) :
    m'.Answered w' lines := by
  obtain ⟨V, pending, said, hemits, hsaid, hone, hanswer, hsublist⟩ := h
  exact ⟨V, pending, said, hprog ▸ hemits, hsaid, hone, hlog ▸ hanswer, hsublist⟩

/-- A handler starts: what has been said is said, and the new line is pending. -/
theorem Answered.event (h : m.Answered w lines) {ev : Event} (hnext : m.next (.event ev) = some m') :
    m'.Answered w (lines ++ ev.heard) := by
  obtain ⟨V, pending, said, -, -, -, hanswer, hsublist⟩ := h
  simp only [Machine.next, Option.ite_none_right_eq_some, Option.some.injEq] at hnext
  obtain ⟨-, rfl⟩ := hnext
  refine ⟨_, ev.heard, said, ?_, fun _ h => h, ?_, hanswer, ?_⟩
  · show ((m.config.start .main ev.handler).prog .main).Emits _ _ _
    simpa [Config.start] using emits_handler ev
  · cases ev <;> simp [Event.heard]
  · exact ((List.sublist_append_left said pending).trans hsublist).append (List.Sublist.refl _)

/-- The main thread takes a step. -/
theorem Answered.runMain (h : m.Answered w lines) {e : Env} (hnext : m.next (.run .main e) = some m') :
    m'.Answered (w.observe m (.run .main e) m') lines := by
  obtain ⟨V, pending, said, hemits, hsaid, hone, hanswer, hsublist⟩ := h
  simp only [Machine.next, Option.map_eq_some_iff] at hnext
  obtain ⟨c, hc, rfl⟩ := hnext
  have haccepted : ∀ queued, c.shared.messageQueue = m.globals.messageQueue ++ queued →
      (m.config.prog .main).isAct = true → accepted (w.observe m (.run .main e) { m with config := c }).log =
        accepted w.log ++ queued := by
    intro queued hqueue hact
    have hdrop : ({ m with config := c } : Machine).globals.messageQueue.drop
        m.globals.messageQueue.length = queued := by
      show c.shared.messageQueue.drop _ = _
      rw [hqueue, List.drop_left]
    simp only [Watch.observe, hact, if_true, accepted_append, accepted_mainEntries, hdrop]
  rcases Config.emits_stepThread hc hemits with ⟨hqueue, hemits'⟩ | ⟨hact, message, k, hV, hn, hqueue, hemits'⟩
  · refine ⟨V, pending, said, hemits', hsaid, hone, ?_, hsublist⟩
    cases hact : (m.config.prog .main).isAct with
    | true =>
        rw [haccepted [] (by rw [List.append_nil]; exact hqueue) hact, List.append_nil]
        exact hanswer
    | false => simpa [Watch.observe, hact] using hanswer
  · -- the message for the last line
    obtain ⟨line, rfl⟩ := List.length_eq_one_iff.1 (show pending.length = 1 by omega)
    obtain rfl : k = 0 := by
      rw [List.length_singleton] at hn
      omega
    refine ⟨V, [], said ++ [line], hemits', ?_, Nat.zero_le 1, ?_, ?_⟩
    · intro _ _ line' hline'
      exact absurd hline' List.not_mem_nil
    · rw [haccepted [message] hqueue hact]
      exact List.rel_append hanswer (.cons (hsaid message hV line List.mem_cons_self) .nil)
    · rw [List.append_nil]
      exact hsublist

/-- Every step keeps the accepted messages answered. -/
theorem Answered.next (h : m.Answered w lines) (hnext : m.next l = some m') :
    m'.Answered (w.observe m l m') (lines ++ l.heard) := by
  have hnone : ∀ l : Label, l.heard = [] → lines ++ l.heard = lines := fun l hl => by
    rw [hl, List.append_nil]
  cases l with
  | event ev => exact h.event hnext
  | run t e =>
      rw [hnone _ rfl]
      cases t with
      | main => exact h.runMain hnext
      | broadcaster =>
          have hlog : accepted (w.observe m (.run .broadcaster e) m').log = accepted w.log := by
            cases hact : (m.config.prog .broadcaster).isAct with
            | true => simp [Watch.observe, hact, accepted_append, accepted_entries]
            | false => simp [Watch.observe, hact]
          simp only [Machine.next, Option.map_eq_some_iff] at hnext
          obtain ⟨c, hc, rfl⟩ := hnext
          exact h.congr (Config.stepThread_prog_of_ne hc (by decide)) hlog
      | cleanup n =>
          simp only [Machine.next, Option.map_eq_some_iff] at hnext
          obtain ⟨c, hc, rfl⟩ := hnext
          exact h.congr (Config.stepThread_prog_of_ne hc (by simp)) rfl
  | round =>
      rw [hnone _ rfl]
      simp only [Machine.next, Option.ite_none_right_eq_some, Option.some.injEq] at hnext
      obtain ⟨-, rfl⟩ := hnext
      exact h.congr (by simp [Config.start]) rfl
  | wake i =>
      rw [hnone _ rfl]
      simp only [Machine.next] at hnext
      split at hnext
      · cases hnext
        exact h.congr (by simp [Config.start, Config.setShared]) rfl
      · exact absurd hnext (by simp)
  | tick d =>
      rw [hnone _ rfl]
      simp only [Machine.next, Option.some.injEq] at hnext
      subst hnext
      exact h.congr rfl rfl
  | signal =>
      rw [hnone _ rfl]
      simp only [Machine.next, Option.some.injEq] at hnext
      subst hnext
      exact h.congr rfl rfl

/-- A public message is sent at most once to a client. -/
def Once (log : List Entry) : Prop :=
  ∀ p ∈ turns log, p.1.isPrivate = false → ∀ t, (sentTo t p.2).length ≤ 1

theorem length_sentTo_publicOps (message : Message) (now : LocalTm) (s : Globals) (t : SOCKET) :
    (sentTo t (publicOps message now (targets s message))).length ≤ 1 := by
  have hnodup : (targets s message).Nodup := by
    rw [targets]
    cases s.chatRooms[message.roomId]? with
    | none => exact List.nodup_nil
    | some room =>
        apply List.Nodup.filter
        exact (Std.ExtTreeSet.distinct_toList (t := room.clients)).imp fun h heq => h (by simp [heq])
  have hcount : (sentTo t (publicOps message now (targets s message))).length =
      (targets s message).count t := by
    rw [publicOps]
    induction targets s message with
    | nil => rfl
    | cons u us ih =>
        by_cases hu : u = t
        · simpa [sentTo, hu] using ih
        · simpa [sentTo, hu] using ih
  rw [hcount]
  exact List.nodup_iff_count_le_one.1 hnodup t

variable {ok : Machine → Label → Prop} {db : Database} {listenSocket : SOCKET}

theorem Watched.once (h : Watched ok db listenSocket m w) : Once w.log := by
  have hboot : Once ({} : Watch).log := fun p hp => absurd hp List.not_mem_nil
  refine (h.induction (P := fun _ _ w => Once w.log) hboot ?_).choose_spec.2
  intro m g w l m' g' hwatched _ _ h hmove
  generalize w.observe m l m' = w' at hmove
  cases hmove with
  | rest hs => exact h
  | wake hs => exact h
  | sweep roomId hs => exact h
  | main H hd =>
      rw [Once, turns_append, turns_mainEntries, List.append_nil]
      exact h
  | @broadcast e m' hd =>
      intro p hp hpublic t
      rw [turns_append, List.mem_append] at hp
      rcases hp with hp | hp
      · exact h p hp hpublic t
      -- the turn of a public message, or of one that is private
      cases hw : w.hand with
      | empty =>
          rw [hw] at hp
          exact absurd hp List.not_mem_nil
      | taken message =>
          rw [hw] at hp
          exact absurd hp List.not_mem_nil
      | found message =>
          rw [hw] at hp hd
          rw [Hand.Acts] at hd
          by_cases hprivate : message.isPrivate = true
          · rw [Hand.entries, if_pos hprivate] at hp
            exact absurd hp List.not_mem_nil
          · rw [if_neg hprivate] at hd
            rw [Hand.entries, if_neg hprivate] at hp
            obtain rfl := List.mem_singleton.1 hp
            obtain ⟨-, hs⟩ := hd
            show (sentTo t (opsBetween m.globals m'.globals)).length ≤ 1
            rw [hs, net_deliverPublic]
            exact length_sentTo_publicOps message _ _ t
      | resolved message u recipient =>
          rw [hw] at hp
          obtain rfl := List.mem_singleton.1 hp
          have hprivate := hwatched.oneOrder.resolved message u recipient hw
          exact absurd hprivate (by rw [hpublic]; simp)

end Machine

end TerminalChat.Server
