import Mathlib
import TerminalChat.Server.Pacing
import TerminalChat.Server.Refusals
import TerminalChat.Server.Deliveries
import TerminalChat.Server.Deadlock

/-!
# Who hears a message

Two runs of the server that differ in the content of one accepted message. The broadcaster delivers a chat
message to the members of its room, and a private one to its sender and to the client that it looks up;
nobody else is sent anything that depends on the content (`Machine.outsiders_hear_the_same`,
`Machine.whisper_unheard_by_others`).
-/

set_option autoImplicit false

namespace TerminalChat.Server

open TerminalChat.Concurrency TerminalChat.Text

/-! ## The broadcaster -/

/-- What is left of `broadcastMessages` when it is about to look up the recipient of a message. -/
def lookingUp (message : Message) : Thread Unit :=
  (((step (.read fun _ s => s.findClientByUsername message.recipientName message.roomId)).bind fun t =>
    .unlock .clientsMutex (.ret t)).bind fun t => step (deliverPrivate message t)).bind fun a =>
      .unlock .chatRoomsMutex (.ret a)

/-- What is known of an action of a thread, when two runs that differ in the content of the marked message
are at the programs `q` and `q'`: it leaves the socket outside of the room of a public message, and the
socket is not what the broadcaster finds when it looks up the recipient of a private one. -/
def Admissible (mark : Message) (other : Bytes) (t : SOCKET) (thread : Tid) (q q' : Thread Unit)
    (s u : Globals) : Prop :=
  Outside mark t s u ∧ (mark.isPrivate = true → thread = .broadcaster → q = lookingUp mark →
    q' = lookingUp { mark with content := other } →
      s.findClientByUsername mark.recipientName mark.roomId ≠ t)

section Broadcaster

variable {mark message message' : Message} {other : Bytes} {t recipient : SOCKET} {s s' : Globals}

theorem Message.Masked.eq_with (h : mark.Masked other message message') :
    message' = { message with content := message'.content } := by
  rcases h with rfl | ⟨rfl, rfl⟩
  · rfl
  · rfl

theorem RoomMasked.remember {r : Bytes} {room room' : ChatRoom} (h : RoomMasked mark r room room')
    {line line' : Bytes} (hline : line' = line ∨ (mark.isPrivate = false ∧ r = mark.roomId)) :
    RoomMasked mark r (room.addMessageToHistory line) (room'.addMessageToHistory line') := by
  obtain ⟨history, rfl, hlength, hsame⟩ := h
  have hlengths : (history ++ [line']).length = (room.messageHistory ++ [line]).length := by
    rw [List.length_append, List.length_append, hlength]
    rfl
  refine ⟨_, rfl, ?_, ?_⟩
  · simp only [ChatRoom.addMessageToHistory, hlengths]
    split
    · rw [List.length_tail, List.length_tail, hlengths]
    · exact hlengths
  · rcases hline with rfl | hopen
    · rcases hsame with rfl | hopen
      · exact Or.inl rfl
      · exact Or.inr hopen
    · exact Or.inr hopen

/-- Rows that differ in the marked content are saved. -/
theorem TablesMasked.save {db db' : Database} (h : TablesMasked mark db db') (calls : Nat → Bool)
    (now : Bytes) (hm : mark.Masked other message message') (recipientName : Bytes) : TablesMasked mark
      (db.saveMessage calls now message.roomId message.senderName message.content message.isPrivate
        recipientName)
      (db'.saveMessage calls now message'.roomId message'.senderName message'.content
        message'.isPrivate recipientName) := by
  rw [Database.saveMessage, Database.saveMessage]
  split
  · refine ⟨h.rooms, h.bans, List.rel_append h.messages (.cons ?_ .nil)⟩
    rcases hm with rfl | ⟨rfl, rfl⟩
    · exact .refl _
    · exact Or.inr ⟨rfl, rfl, rfl⟩
  · exact h

/-! ### Deliveries -/

/-- Two deliveries to the members of a room that send the socket the same. -/
theorem Veiled.deliverPublic (hs : Veiled mark other t s s') (hm : mark.Masked other message message')
    (hpublic : message.isPrivate = false) (e : Env)
    (hops : received t (publicOps message' (e.wall 0) (targets s' message')) =
      received t (publicOps message (e.wall 0) (targets s message))) :
    Veiled mark other t ((deliverPublic message).exec e s).state
      ((deliverPublic message').exec e s').state := by
  have hroom : message'.roomId = message.roomId := by rw [hm.eq_with]
  have hpublic' : message'.isPrivate = false := by rw [hm.eq_with, hpublic]
  have hedit := hs.editRoom message.roomId (f := fun room => room.addMessageToHistory (message.line e))
    (g := fun room => room.addMessageToHistory (message'.line e)) fun room room' hmask => by
      apply hmask.remember
      rcases hm with rfl | ⟨rfl, rfl⟩
      · exact Or.inl rfl
      · exact Or.inr ⟨hpublic, rfl⟩
  have hsave := (hedit.talk hops).tellDatabase fun db db' hdb =>
    hdb.save e.calls e.utc.text hm []
  rw [state_deliverPublic, state_deliverPublic, hroom]
  rw [hpublic, hpublic', hroom] at hsave
  exact hsave

/-- Two deliveries of a private message that send the socket the same. -/
theorem Veiled.deliverPrivate (hs : Veiled mark other t s s') (hm : mark.Masked other message message')
    (hprivate : message.isPrivate = true) (e : Env)
    (hops : received t (privateOps message' (e.wall 0) recipient) =
      received t (privateOps message (e.wall 0) recipient)) :
    Veiled mark other t ((deliverPrivate message recipient).exec e s).state
      ((deliverPrivate message' recipient).exec e s').state := by
  have hname : message'.recipientName = message.recipientName := by rw [hm.eq_with]
  have hprivate' : message'.isPrivate = true := by rw [hm.eq_with, hprivate]
  rw [state_deliverPrivate, state_deliverPrivate]
  by_cases hnone : recipient = INVALID_SOCKET
  · rw [if_pos hnone, if_pos hnone]
    exact hs.talk hops
  · rw [if_neg hnone, if_neg hnone]
    have hsave := (hs.talk hops).tellDatabase fun db db' hdb =>
      hdb.save e.calls e.utc.text hm message.recipientName
    rw [hprivate, hprivate'] at hsave
    rw [hname]
    exact hsave

/-- The line goes to members of the room only. -/
theorem received_publicOps (h : ¬s.IsMember t message.roomId) (message' : Message) (now : LocalTm) :
    received t (publicOps message' now (targets s message)) = [] := by
  apply received_of_others
  intro op hop text
  obtain ⟨sock, hsock, rfl⟩ := List.mem_map.1 hop
  have hne : sock ≠ t := by
    rintro rfl
    rw [targets] at hsock
    cases hroom : s.chatRooms[message.roomId]? with
    | none => simp [hroom] at hsock
    | some room =>
        rw [hroom, Option.map_some, Option.getD_some, ChatRoom.broadcastTargets, List.mem_filter] at hsock
        exact h ⟨room, hroom, Std.ExtTreeSet.mem_toList.1 hsock.1⟩
  exact ⟨fun h => hne (NetOp.sent.inj h).1, fun h => NetOp.noConfusion h⟩

/-- The lines go to the recipient and the sender. -/
theorem received_privateOps (message : Message) (hsender : message.senderSocket ≠ t)
    (hrecipient : recipient ≠ t) (now : LocalTm) : received t (privateOps message now recipient) = [] := by
  apply received_of_others
  intro op hop text
  rw [privateOps] at hop
  split at hop
  · rw [List.mem_singleton] at hop
    subst hop
    simp [hsender]
  · simp only [List.mem_cons, List.not_mem_nil, or_false] at hop
    rcases hop with rfl | rfl
    · simp [hrecipient]
    · simp [hsender]

theorem Veiled.targets (hs : Veiled mark other t s s') (message : Message) :
    targets s' message = targets s message := by
  rw [Server.targets, Server.targets, hs.ask fun _ _ => rfl]

theorem passed_deliverPublic (e : Env) (s : Globals) (message : Message) :
    ((deliverPublic message).exec e s).passed =
      [.roomMutex message.roomId, .roomMutex message.roomId, .dbMutex] := rfl

theorem passed_deliverPrivate (e : Env) (s : Globals) (message : Message) (recipient : SOCKET) :
    ((deliverPrivate message recipient).exec e s).passed =
      if recipient = INVALID_SOCKET then [] else [.dbMutex] := by
  unfold deliverPrivate
  split
  · rfl
  · rfl

theorem even_deliverPublic (hpublic : message.isPrivate = false) :
    (deliverPublic message).Even (Veiled mark other t) Whatever := by
  refine ⟨fun _ _ => trivial, fun e s s' hs _ => ⟨rfl, ?_, ?_⟩⟩
  · rw [passed_deliverPublic, passed_deliverPublic]
  · apply hs.deliverPublic (.refl message) hpublic
    rw [hs.targets]

theorem even_deliverPrivate (hprivate : message.isPrivate = true) (recipient : SOCKET) :
    (deliverPrivate message recipient).Even (Veiled mark other t) Whatever := by
  refine ⟨fun _ _ => trivial, fun e s s' hs _ => ⟨rfl, ?_, ?_⟩⟩
  · rw [passed_deliverPrivate, passed_deliverPrivate]
  · exact hs.deliverPrivate (.refl message) hprivate e rfl

theorem even_deliverMessage (message : Message) :
    (deliverMessage message).Even (Outside mark t) (Veiled mark other t) Whatever := by
  apply Prog.even_holding
  apply even_seq (even_step (even_roomExists _))
  intro _ _
  apply Prog.even_ite _ (even_done trivial)
  by_cases hp : message.isPrivate = true
  · rw [if_pos hp]
    apply even_seq (even_findClientByUsername _ _)
    exact fun recipient _ => even_step (even_deliverPrivate hp recipient)
  · rw [if_neg hp]
    exact even_step (even_deliverPublic (Bool.eq_false_iff.2 hp))

/-- Messages that differ in the marked content are delivered in step, and the socket hears nothing of
either. -/
theorem alike_deliverMessage (hsender : mark.isPrivate = true → mark.senderSocket ≠ t) :
    (deliverMessage mark).Alike (Admissible mark other t .broadcaster) (Veiled mark other t) (fun _ _ => True)
      (deliverMessage { mark with content := other }) fun _ => True := by
  have hm : mark.Masked other mark { mark with content := other } := Or.inr ⟨rfl, rfl⟩
  apply Prog.alike_holding
  apply Prog.alike_bind (K := fun a a' => a' = a)
  swap
  · apply Prog.Even.alike (S := Outside mark t) (V := Whatever)
    · exact fun _ _ _ _ h => h.1
    · exact fun _ _ => rfl
    · exact even_step (even_roomExists mark.roomId)
  rintro _ found rfl
  by_cases hfound : found = true
  swap
  · rw [if_neg hfound, if_neg hfound]
    exact trivial
  rw [if_pos hfound, if_pos hfound]
  by_cases hp : mark.isPrivate = true
  · rw [if_pos hp, if_pos hp]
    -- the recipient is looked up, and is not the socket
    apply Prog.alike_bind (K := fun recipient recipient' => recipient' = recipient ∧ recipient ≠ t)
    · rintro recipient _ ⟨rfl, hrecipient⟩
      apply Prog.alike_block
      intro e s s' hs _ _
      refine ⟨trivial, ?_, ?_⟩
      · rw [passed_deliverPrivate, passed_deliverPrivate]
      · apply hs.deliverPrivate hm hp
        rw [received_privateOps mark (hsender hp) hrecipient]
        exact received_privateOps { mark with content := other } (hsender hp) hrecipient _
    · apply Prog.alike_holding
      apply Prog.alike_block
      intro e s s' hs _ hl
      refine ⟨⟨?_, hl.2 hp rfl rfl rfl⟩, rfl, hs⟩
      show s'.findClientByUsername _ _ = s.findClientByUsername _ _
      rw [Globals.findClientByUsername, Globals.findClientByUsername, hs.clients]
  · rw [if_neg hp, if_neg hp]
    have hpublic : mark.isPrivate = false := Bool.eq_false_iff.2 hp
    apply Prog.alike_block
    intro e s s' hs _ hl
    refine ⟨trivial, ?_, hs.deliverPublic hm hpublic e ?_⟩
    · rw [passed_deliverPublic, passed_deliverPublic]
    have htargets : targets s' { mark with content := other } = targets s mark := hs.targets mark
    rw [htargets, received_publicOps (hl.1 hpublic).1, received_publicOps (hl.1 hpublic).1]

/-- The front of the queue is the same in both, or the marked message. -/
theorem settled_popMessage {L : Thread (Option Message) → Thread (Option Message) → Globals → Globals → Prop} :
    (step popMessage).Settled L (Veiled mark other t) (Option.Rel (mark.Masked other)) := by
  have hfront : ∀ {queue queue' : List Message}, List.Forall₂ (mark.Masked other) queue queue' →
      Option.Rel (mark.Masked other) queue.head? queue'.head? ∧
        List.Forall₂ (mark.Masked other) queue.tail queue'.tail := by
    intro queue queue' h
    cases h with
    | nil => exact ⟨.none, .nil⟩
    | cons hm hrest => exact ⟨.some hm, hrest⟩
  constructor
  · apply Prog.alike_block
    intro e s s' hs _ _
    exact ⟨(hfront hs.queue).1, rfl, { hs with queue := (hfront hs.queue).2 }⟩
  · intro e s
    show Option.Rel (mark.Masked other) s.messageQueue.head? s.messageQueue.head?
    cases s.messageQueue.head? with
    | none => exact .none
    | some message => exact .some (.refl message)

/-- Two broadcasters keep pace. -/
theorem settled_broadcastRound (hsender : mark.isPrivate = true → mark.senderSocket ≠ t) :
    broadcastRound.Settled (Admissible mark other t .broadcaster) (Veiled mark other t) fun _ _ => True := by
  apply Prog.Even.settled_bind (S := Outside mark t) (V := Whatever) (fun _ _ _ _ h => h.1)
  swap
  · exact even_step (even_ask fun _ _ _ hs => hs.flag)
  intro stop _
  by_cases hstop : stop = true
  · rw [if_pos hstop]
    exact trivial
  rw [if_neg hstop]
  apply Prog.settled_bind (K := Option.Rel (mark.Masked other))
  · intro a a' ha
    cases ha with
    | none => exact trivial
    | some hm =>
        -- the popped messages are the same, or the marked one and its other version
        rcases hm with rfl | ⟨rfl, rfl⟩
        · exact (even_deliverMessage _).alike (fun _ _ _ _ h => h.1) fun _ _ => trivial
        · exact alike_deliverMessage hsender
  · intro a _
    cases a with
    | none => exact trivial
    | some message => exact (even_deliverMessage message).settled (fun _ _ _ _ h => h.1) fun _ _ => trivial
  · apply Prog.settled_holding
    apply Prog.Even.settled_bind (S := Outside mark t) (V := Whatever) (fun _ _ _ _ h => h.1)
    swap
    · apply even_step
      apply even_ask
      intro _ s s' hs
      -- both queues have the same length
      have hempty : s'.messageQueue.isEmpty = s.messageQueue.isEmpty := by
        rw [Bool.eq_iff_iff, List.isEmpty_iff_length_eq_zero, List.isEmpty_iff_length_eq_zero,
          hs.queue.length_eq]
      rw [hs.flag, hempty]
    intro ready _
    by_cases hready : ready = true
    · rw [if_pos hready]
      exact settled_popMessage
    · rw [if_neg hready]
      exact settled_popMessage

/-- Every thread in progress keeps pace with itself, in every run. -/
theorem settled_of_reachable {m : Machine} (h : Machine.Reachable Machine.anyStep m)
    (hmark : mark.isPrivate = false → cString mark.roomId = mark.roomId)
    (hsender : mark.isPrivate = true → mark.senderSocket ≠ t) :
    m.config.Settled (Admissible mark other t) (Veiled mark other t) := by
  obtain ⟨db, listenSocket, hrun⟩ := h
  have heven : ∀ (u : Tid) (p : Thread Unit), p.Even (Outside mark t) (Veiled mark other t) Whatever →
      p.Settled (Admissible mark other t u) (Veiled mark other t) fun _ _ => True :=
    fun u p hp => hp.settled (fun _ _ _ _ h => h.1) fun _ _ => trivial
  induction hrun with
  | refl => exact fun _ => trivial
  | tail _ hstep ih =>
      obtain ⟨l, -, hnext⟩ := hstep
      cases l with
      | event ev =>
          simp only [Machine.next, Option.ite_none_right_eq_some, Option.some.injEq] at hnext
          obtain ⟨-, rfl⟩ := hnext
          exact Config.settled_update ih (heven _ _ (even_handler hmark ev)) _ _
      | round =>
          simp only [Machine.next, Option.ite_none_right_eq_some, Option.some.injEq] at hnext
          obtain ⟨-, rfl⟩ := hnext
          exact Config.settled_update ih (settled_broadcastRound hsender) _ _
      | wake i =>
          simp only [Machine.next] at hnext
          split at hnext
          · simp only [Option.some.injEq] at hnext
            subst hnext
            exact Config.settled_update ih (heven _ _ (even_cleanupEmptyRoom _)) _ _
          · exact absurd hnext (by simp)
      | run u e =>
          simp only [Machine.next, Option.map_eq_some_iff] at hnext
          obtain ⟨c, hc, rfl⟩ := hnext
          exact ih.stepThread hc
      | tick d =>
          simp only [Machine.next, Option.some.injEq] at hnext
          subst hnext
          exact ih
      | signal =>
          simp only [Machine.next, Option.some.injEq] at hnext
          subst hnext
          exact ih

end Broadcaster

/-! ## Two runs -/

namespace Machine

/-- What a handler knows of the next state has to do with the clients, which the other threads leave
alone. The other threads know nothing. -/
def Keeps : Tid → (Globals → Prop) → Prop
  | .main, P => ∀ s s', s'.clients = s.clients → P s → P s'
  | _, P => ∀ s, P s

/-- The machines are at the same point of two runs that differ in the content of the marked message. -/
structure Abreast (mark : Message) (other : Bytes) (t : SOCKET) (m m' : Machine) : Prop where
  woken : m'.woken = m.woken
  config : m.config.Alike (Admissible mark other t) (Veiled mark other t) Keeps m'.config

section Abreast

variable {mark : Message} {other : Bytes} {t : SOCKET} {m m' m₁ m₂ : Machine} {l : Label}

theorem Abreast.veiled (h : Abreast mark other t m m') :
    Veiled mark other t m.globals m'.globals := h.config.shared

theorem keeps_true (u : Tid) : Keeps u fun _ => True := by
  cases u with
  | main => exact fun _ _ _ h => h
  | _ => exact fun _ => trivial

theorem Abreast.idle_iff (h : Abreast mark other t m m') : m'.Idle ↔ m.Idle := by
  obtain ⟨P, -, -, hprog⟩ := h.config.prog .main
  rw [Machine.Idle, Machine.Idle, hprog.isDone]

theorem canOccur_congr {s s' : Globals} (h : s'.clients = s.clients) (ev : Event) :
    ev.CanOccur s' ↔ ev.CanOccur s := by
  cases ev with
  | connect sock => rw [Event.CanOccur, Event.CanOccur, h]
  | receive sock buffer => rw [Event.CanOccur, Event.CanOccur, h]
  | hangup sock => exact Iff.rfl

/-- A thread starts a program, alike in both machines; the states may change in what only it knows. -/
theorem Abreast.start (h : Abreast mark other t m m') {s s' : Globals} (u : Tid) (n : Nat)
    {p p' : Thread Unit} {P : Globals → Prop} (hclients : s.clients = m.globals.clients)
    (hs : Veiled mark other t s s') (hkeeps : Keeps u P) (hP : P s)
    (hp : p.Alike (Admissible mark other t u) (Veiled mark other t) (fun _ _ => True) p' P) :
    Abreast mark other t ⟨(m.config.setShared s).start u p, n⟩ ⟨(m'.config.setShared s').start u p', n⟩ := by
  refine ⟨rfl, ?_⟩
  have hupdate := h.config.update (t := u) hs (fun v _ P hkeeps hP => ?_) m.config.owner hkeeps hP hp
  · have howner := h.config.owner
    constructor
    · exact howner
    · exact hupdate.shared
    · exact hupdate.prog
  · cases v with
    | main => exact hkeeps _ _ hclients hP
    | _ => exact hkeeps s

theorem Keeps.kept {u : Tid} {P : Globals → Prop} (h : Keeps u P) {s s' : Globals}
    (hclients : s'.clients = s.clients) (hP : P s) : P s' := by
  cases u with
  | main => exact h s s' hclients hP
  | _ => exact h s'

/-- The clock and the signal are the same in both runs. -/
theorem Abreast.rest (h : Abreast mark other t m m') {s s' : Globals}
    (hclients : s.clients = m.globals.clients) (hs : Veiled mark other t s s') :
    Abreast mark other t { m with config := m.config.setShared s }
      { m' with config := m'.config.setShared s' } := by
  refine ⟨h.woken, h.config.owner, hs, fun u => ?_⟩
  obtain ⟨P, hkeeps, hP, hprog⟩ := h.config.prog u
  exact ⟨P, hkeeps, hkeeps.kept hclients hP, hprog⟩

/-- The second run follows a step of the first one. -/
theorem Abreast.next (h : Abreast mark other t m m') (hm : Reachable anyStep m)
    (hmark : mark.isPrivate = false → cString mark.roomId = mark.roomId)
    (hsender : mark.isPrivate = true → mark.senderSocket ≠ t) (hnext : m.next l = some m₁)
    (hl : ∀ u e, l = .run u e →
      Admissible mark other t u (m.config.prog u) (m'.config.prog u) m.globals m₁.globals) :
    ∃ m₂, m'.next l = some m₂ ∧ Abreast mark other t m₁ m₂ := by
  have hs := h.veiled
  -- a handler or a cleanup does the same on both sides
  have heven : ∀ (u : Tid) (p : Thread Unit), p.Even (Outside mark t) (Veiled mark other t) Whatever →
      p.Alike (Admissible mark other t u) (Veiled mark other t) (fun _ _ => True) p fun _ => True :=
    fun u p hp => hp.alike (fun _ _ _ _ h => h.1) fun _ _ => trivial
  cases l with
  | event ev =>
      simp only [Machine.next, Option.ite_none_right_eq_some, Option.some.injEq] at hnext ⊢
      obtain ⟨⟨hidle, hoccurs⟩, rfl⟩ := hnext
      refine ⟨_, ⟨⟨h.idle_iff.2 hidle, (canOccur_congr hs.clients ev).2 hoccurs⟩, rfl⟩, ?_⟩
      rw [h.woken.symm]
      exact h.start .main m'.woken rfl hs (keeps_true _) trivial (heven _ _ (even_handler hmark ev))
  | round =>
      simp only [Machine.next, Option.ite_none_right_eq_some, Option.some.injEq] at hnext ⊢
      obtain ⟨hdone, rfl⟩ := hnext
      obtain ⟨P, -, -, hprog⟩ := h.config.prog .broadcaster
      refine ⟨_, ⟨hprog.isDone.trans hdone, rfl⟩, ?_⟩
      rw [h.woken.symm]
      exact h.start .broadcaster m'.woken rfl hs (keeps_true _) trivial
        (settled_broadcastRound hsender).alike
  | wake i =>
      simp only [Machine.next] at hnext ⊢
      rw [hs.cleanups, h.woken]
      split at hnext
      · rename_i roomId hi
        simp only [Option.some.injEq] at hnext
        subst hnext
        refine ⟨_, rfl, h.start (.cleanup m.woken) (m.woken + 1) rfl ?_ (keeps_true _) trivial
          (heven _ _ (even_cleanupEmptyRoom roomId))⟩
        exact { hs with cleanups := rfl }
      · exact absurd hnext (by simp)
  | run u e =>
      simp only [Machine.next, Option.map_eq_some_iff] at hnext ⊢
      obtain ⟨c, hc, rfl⟩ := hnext
      -- what one thread is known to have read stays true while another thread steps
      have hkeep : ∀ v ≠ u, ∀ P, Keeps v P → P m.config.shared → P c.shared := by
        intro v hv P hkeeps hP
        cases v with
        | main =>
            have hu : ∀ e', Label.run u e ≠ .run .main e' := by
              intro e' heq
              exact hv (Label.run.inj heq).1.symm
            have hstep : m.next (.run u e) = some { m with config := c } := by
              rw [Machine.next, hc]
              rfl
            exact hkeeps _ _ (clients_of_other hm (fun _ => by simp) hu hstep).1 hP
        | _ => exact hkeeps _
      obtain ⟨c', hc', halike⟩ := h.config.stepThread hc hkeep keeps_true (hl u e rfl)
      exact ⟨_, ⟨c', hc', rfl⟩, h.woken, halike⟩
  | tick d =>
      simp only [Machine.next, Option.some.injEq] at hnext ⊢
      subst hnext
      exact ⟨_, rfl, h.rest rfl { hs with clock := congrArg (· + d) hs.clock }⟩
  | signal =>
      simp only [Machine.next, Option.some.injEq] at hnext ⊢
      subst hnext
      exact ⟨_, rfl, h.rest rfl { hs with flag := rfl }⟩

/-- In the first run the socket is never a member of the room of a public message. -/
def StaysOutside (mark : Message) (t : SOCKET) (m : Machine) (labels : List Label) : Prop :=
  mark.isPrivate = false → ∀ n u, m.exec (fun _ => true) (labels.take n) = some u →
    ¬u.globals.IsMember t mark.roomId

/-- Whenever the broadcaster looks up the recipient of the marked message, which has another content in the
second run, it does not find the socket. -/
def StaysUnfound (mark : Message) (other : Bytes) (t : SOCKET) (m m' : Machine) (labels : List Label) :
    Prop :=
  mark.isPrivate = true → ∀ n u u', m.exec (fun _ => true) (labels.take n) = some u →
    m'.exec (fun _ => true) (labels.take n) = some u' →
      u.config.prog .broadcaster = lookingUp mark →
        u'.config.prog .broadcaster = lookingUp { mark with content := other } →
          u.globals.findClientByUsername mark.recipientName mark.roomId ≠ t

/-- The second run follows the first one to its end. -/
theorem Abreast.exec (hmark : mark.isPrivate = false → cString mark.roomId = mark.roomId)
    (hsender : mark.isPrivate = true → mark.senderSocket ≠ t) :
    ∀ (labels : List Label) {m m' m₁ : Machine}, Abreast mark other t m m' → Reachable anyStep m →
      m.exec (fun _ => true) labels = some m₁ → StaysOutside mark t m labels →
      StaysUnfound mark other t m m' labels →
      ∃ m₂, m'.exec (fun _ => true) labels = some m₂ ∧ Abreast mark other t m₁ m₂
  | [], m, m', m₁, h, _, hrun, _, _ => by
      rw [Machine.exec, Option.some.injEq] at hrun
      subst hrun
      exact ⟨m', rfl, h⟩
  | l :: labels, m, m', m₁, h, hm, hrun, houtside, hunfound => by
      simp only [Machine.exec, if_true, Option.bind_eq_some_iff] at hrun ⊢
      obtain ⟨u, hu, hrun⟩ := hrun
      have hnow : Outside mark t m.globals u.globals := fun hpublic =>
        ⟨houtside hpublic 0 m rfl, houtside hpublic 1 u (by simp [Machine.exec, hu])⟩
      obtain ⟨u', hu', hnext⟩ := h.next hm hmark hsender hu fun v e _ => ⟨hnow, by
        rintro hprivate rfl hq hq'
        exact hunfound hprivate 0 m m' rfl rfl hq hq'⟩
      have hreach : Reachable anyStep u := by
        obtain ⟨db, listenSocket, hrun⟩ := hm
        exact ⟨db, listenSocket, hrun.tail ⟨l, trivial, hu⟩⟩
      obtain ⟨m₂, hm₂, hend⟩ := Abreast.exec hmark hsender labels hnext hreach hrun
        (fun hpublic n v hv => houtside hpublic (n + 1) v (by simp [Machine.exec, hu, hv]))
        fun hprivate n v v' hv hv' => hunfound hprivate (n + 1) v v' (by simp [Machine.exec, hu, hv])
          (by simp [Machine.exec, hu', hv'])
      exact ⟨m₂, ⟨u', hu', hm₂⟩, hend⟩

/-- Two runs that part at an event whose handlers are alike. -/
theorem same_heard (mark : Message) (other : Bytes) {labels : List Label} {ev ev' : Event}
    {P : Globals → Prop}
    (hm : Reachable anyStep m) (hmark : mark.isPrivate = false → cString mark.roomId = mark.roomId)
    (hsender : mark.isPrivate = true → mark.senderSocket ≠ t)
    (hP : ∀ s s', s'.clients = s.clients → P s → P s') (hnow : P m.globals)
    (halike : ev.handler.Alike (Admissible mark other t .main) (Veiled mark other t) (fun _ _ => True)
      ev'.handler P)
    (hrun : m.exec (fun _ => true) (.event ev :: labels) = some m₁)
    (hrun' : m.exec (fun _ => true) (.event ev' :: labels) = some m₂)
    (houtside : ∀ u, m.next (.event ev) = some u → StaysOutside mark t u labels)
    (hunfound : ∀ u u', m.next (.event ev) = some u → m.next (.event ev') = some u' →
      StaysUnfound mark other t u u' labels) :
    received t m₂.globals.net = received t m₁.globals.net := by
  simp only [Machine.exec, if_true, Option.bind_eq_some_iff] at hrun hrun'
  obtain ⟨u, hu, hrun⟩ := hrun
  obtain ⟨u', hu', hrun'⟩ := hrun'
  have hreach : Reachable anyStep u := by
    obtain ⟨db, listenSocket, hrun⟩ := hm
    exact ⟨db, listenSocket, hrun.tail ⟨_, trivial, hu⟩⟩
  obtain ⟨db, listenSocket, hboot⟩ := hm
  obtain ⟨w, hw⟩ := exists_watched hboot
  have hnumbered := hw.numbered
  have hself : Abreast mark other t m m :=
    ⟨rfl, (settled_of_reachable ⟨db, listenSocket, hboot⟩ hmark hsender).alike
      (.refl fun r hr => hnumbered.cString (hnumbered.live r hr)) keeps_true⟩
  have hstart : Abreast mark other t u u' := by
    simp only [Machine.next, Option.ite_none_right_eq_some, Option.some.injEq] at hu hu'
    obtain ⟨-, rfl⟩ := hu
    obtain ⟨-, rfl⟩ := hu'
    exact hself.start .main m.woken rfl hself.veiled hP hnow halike
  obtain ⟨m₃, hm₃, hend⟩ := hstart.exec hmark hsender labels hreach hrun (houtside u hu)
    (hunfound u u' hu hu')
  rw [hrun', Option.some.injEq] at hm₃
  subst hm₃
  exact hend.veiled.heard

end Abreast

end Machine

/-! ## The two messages -/

/-- The chat message that `handleClientMessage` pushes for a client. -/
def chatMessage (sock : SOCKET) (client : ClientInfo) (text : Bytes) : Message where
  senderSocket := sock
  content := text
  roomId := client.roomId
  senderName := client.username
  isPrivate := false

/-- The private message that `handleClientMessage` pushes for a client. -/
def privateMessage (sock : SOCKET) (client : ClientInfo) (name text : Bytes) : Message where
  senderSocket := sock
  content := text
  roomId := client.roomId
  senderName := client.username
  isPrivate := true
  recipientName := name

section Messages

variable {sock t : SOCKET} {client : ClientInfo} {name text text' buffer : Bytes} {mark : Message}
  {other : Bytes}

theorem handleClientMessage_of_parse {request : Request}
    (h : (actedText buffer).map parseText = some request) :
    handleClientMessage sock buffer = runRequest sock request := by
  unfold handleClientMessage
  cases hacted : actedText buffer with
  | none => simp [hacted] at h
  | some received =>
      rw [hacted, Option.map_some, Option.some.injEq] at h
      dsimp only
      rw [h]

theorem alike_pushMessage {L : Thread Unit → Thread Unit → Globals → Globals → Prop} :
    (pushMessage mark).Alike L (Veiled mark other t) (fun _ _ => True)
      (pushMessage { mark with content := other }) fun _ => True := by
  apply Prog.alike_holding
  apply Prog.alike_block
  exact fun _ _ _ hs _ _ => ⟨trivial, rfl, hs.push (Or.inr ⟨rfl, rfl⟩)⟩

/-- Two requests that go on alike once the entry of the client has been read. -/
theorem alike_clientInfo {L : Thread Unit → Thread Unit → Globals → Globals → Prop}
    {f f' : ClientInfo → Thread Unit}
    (h : (f client).Alike L (Veiled mark other t) (fun _ _ => True) (f' client) fun _ => True) :
    (critical .clientsMutex (clientInfo sock) >>= f).Alike L (Veiled mark other t) (fun _ _ => True)
      (critical .clientsMutex (clientInfo sock) >>= f') fun s => s.info sock = client := by
  apply Prog.alike_bind (K := fun c c' => c = client ∧ c' = client)
  · rintro _ _ ⟨rfl, rfl⟩
    exact h
  · apply Prog.alike_holding
    apply Prog.alike_block
    intro _ s s' hs hclient _
    exact ⟨⟨hclient, (hs.info sock).trans hclient⟩, rfl, hs⟩

theorem alike_reply {thread : Tid} (text : Bytes) : (reply sock text).Alike (Admissible mark other t thread)
    (Veiled mark other t) (fun _ _ => True) (reply sock text) fun _ => True :=
  (even_reply sock text).alike (fun _ _ _ _ h => h.1) fun _ _ => trivial

theorem alike_chat {thread : Tid} : (runRequest sock (.chat text)).Alike
    (Admissible (chatMessage sock client text) text' t thread)
    (Veiled (chatMessage sock client text) text' t) (fun _ _ => True) (runRequest sock (.chat text'))
    fun s => s.info sock = client := by
  apply alike_clientInfo
  by_cases hroom : client.roomId.isEmpty = true
  · rw [if_pos hroom, if_pos hroom]
    exact alike_reply _
  · rw [if_neg hroom, if_neg hroom]
    exact alike_pushMessage

theorem alike_privateMessage {thread : Tid} : (runRequest sock (.privateMessage name text)).Alike
    (Admissible (privateMessage sock client name text) text' t thread)
    (Veiled (privateMessage sock client name text) text' t) (fun _ _ => True)
    (runRequest sock (.privateMessage name text')) fun s => s.info sock = client := by
  apply alike_clientInfo
  by_cases hroom : client.roomId.isEmpty = true
  · rw [if_pos hroom, if_pos hroom]
    exact alike_reply _
  rw [if_neg hroom, if_neg hroom]
  by_cases hself : (name == client.username) = true
  · rw [if_pos hself, if_pos hself]
    exact alike_reply _
  · rw [if_neg hself, if_neg hself]
    exact alike_pushMessage

theorem info_congr {s s' : Globals} (h : s'.clients = s.clients) (hs : s.info sock = client) :
    s'.info sock = client := by
  rw [Globals.info, h]
  exact hs

end Messages

/-! ## Who hears them -/

namespace Machine

variable {m m₁ m₂ : Machine} {sock t : SOCKET} {buffer buffer' name text text' : Bytes}
  {labels : List Label}

/-- A connection that is never a member of the room hears the same, whatever a message in the room
says. -/
theorem outsiders_hear_the_same (hm : Reachable anyStep m) (hdrawn : m.globals.drawnIds.Nodup)
    (hchat : (actedText buffer).map parseText = some (.chat text))
    (hchat' : (actedText buffer').map parseText = some (.chat text'))
    (hrun : m.exec (fun _ => true) (.event (.receive sock buffer) :: labels) = some m₁)
    (hrun' : m.exec (fun _ => true) (.event (.receive sock buffer') :: labels) = some m₂)
    (houtside : ∀ n u,
      m.exec (fun _ => true) ((Label.event (.receive sock buffer) :: labels).take n) = some u →
        ¬u.globals.IsMember t (m.globals.info sock).roomId) :
    received t m₂.globals.net = received t m₁.globals.net := by
  have hidle : m.Idle := by
    simp only [Machine.exec, if_true, Option.bind_eq_some_iff, Machine.next,
      Option.ite_none_right_eq_some] at hrun
    obtain ⟨_, ⟨⟨hidle, -⟩, -⟩, -⟩ := hrun
    exact hidle
  refine same_heard (chatMessage sock (m.globals.info sock) text) text'
    (P := fun s => s.info sock = m.globals.info sock) hm ?_ (fun h => absurd h Bool.false_ne_true)
    (fun _ _ => info_congr) rfl ?_ hrun hrun' ?_ fun _ _ _ _ h => absurd h Bool.false_ne_true
  · intro _
    show cString (m.globals.info sock).roomId = (m.globals.info sock).roomId
    by_cases hroom : (m.globals.info sock).roomId = []
    · rw [hroom]
      rfl
    · obtain ⟨db, listenSocket, hboot⟩ := hm
      obtain ⟨w, hw⟩ := exists_watched hboot
      have hmember := isMember_of_roomId ⟨db, listenSocket, hboot⟩ hidle hdrawn hroom rfl
      exact hw.numbered.cString (hw.numbered.live _ hmember.mem)
  · show (handleClientMessage sock buffer).Alike _ _ _ (handleClientMessage sock buffer') _
    rw [handleClientMessage_of_parse hchat, handleClientMessage_of_parse hchat']
    exact alike_chat
  · intro u hu _ n v hv
    exact houtside (n + 1) v (by simp [Machine.exec, hu, hv])

/-- What is checked at every machine of a run holds at every machine of the run. -/
theorem check_of_exec {check : Machine → Bool} : ∀ (labels : List Label) {m m₁ : Machine},
    m.exec check labels = some m₁ → check m₁ = true →
      m.exec (fun _ => true) labels = some m₁ ∧ ∀ n u,
        m.exec (fun _ => true) (labels.take n) = some u → check u = true
  | [], m, m₁, hrun, hend => by
      rw [exec, Option.some.injEq] at hrun
      subst hrun
      refine ⟨rfl, fun n u hu => ?_⟩
      rw [List.take_nil, exec, Option.some.injEq] at hu
      rwa [← hu]
  | l :: labels, m, m₁, hrun, hend => by
      rw [exec, Option.ite_none_right_eq_some, Option.bind_eq_some_iff] at hrun
      obtain ⟨hnow, v, hv, hrun⟩ := hrun
      obtain ⟨hrun', hrest⟩ := check_of_exec labels hrun hend
      refine ⟨by simp [exec, hv, hrun'], fun n u hu => ?_⟩
      cases n with
      | zero =>
          rw [List.take_zero, exec, Option.some.injEq] at hu
          rwa [← hu]
      | succ n =>
          rw [List.take_succ_cons, exec, if_pos rfl, hv] at hu
          exact hrest n u hu

/-- Alice and bob are in one room, and carol is in the room with the id that the draw gives. -/
def threeClients (draw : Fin 900000) : List (Event × Fin 900000) := [
  (.connect 4, 0), (.receive 4 (str "/SETNAME alice"), 0), (.receive 4 (str "/CREATE PUBLIC"), 0),
  (.connect 5, 0), (.receive 5 (str "/SETNAME bob"), 0), (.receive 5 (str "/JOIN 100000"), 0),
  (.connect 6, 0), (.receive 6 (str "/SETNAME carol"), 0), (.receive 6 (str "/CREATE PUBLIC"), draw)]

/-- The socket is in no room with that id. -/
def outsideRoom (t : SOCKET) (r : Bytes) (m : Machine) : Bool :=
  (m.globals.chatRooms[r]?).all fun room => !room.clients.contains t

theorem not_isMember_of_outsideRoom {r : Bytes} (h : outsideRoom t r m = true) :
    ¬m.globals.IsMember t r := by
  rintro ⟨room, hroom, hmem⟩
  rw [outsideRoom, hroom, Option.all_some, Bool.not_eq_true', ← Bool.not_eq_true] at h
  exact h (Std.ExtTreeSet.contains_iff_mem.2 hmem)

/-- Carol, in another room, hears nothing of what alice says to bob. -/
theorem outsiders_hear_the_same_carol : ∃ m m₁ m₂ : Machine, Reachable anyStep m ∧
    m.exec (fun _ => true) (.event (.receive 4 (str "hello")) :: (steps .main 6 ++ [.round] ++
      steps .broadcaster 15)) = some m₁ ∧
    m.exec (fun _ => true) (.event (.receive 4 (str "good bye")) :: (steps .main 6 ++ [.round] ++
      steps .broadcaster 15)) = some m₂ ∧
    received 5 m₂.globals.net ≠ received 5 m₁.globals.net ∧
    received 6 m₂.globals.net = received 6 m₁.globals.net := by
  obtain ⟨m, hm, hp⟩ := reachable_of_after (fun _ _ => True) (threeClients 1) (fun m =>
    (m.exec (outsideRoom 6 (str "100000")) (.event (.receive 4 (str "hello")) :: (steps .main 6 ++
      [.round] ++ steps .broadcaster 15))).any fun m₁ =>
    (m.exec (fun _ => true) (.event (.receive 4 (str "good bye")) :: (steps .main 6 ++
      [.round] ++ steps .broadcaster 15))).any fun m₂ =>
    decide (m.globals.drawnIds.Nodup ∧ (m.globals.info 4).roomId = str "100000" ∧
      outsideRoom 6 (str "100000") m₁ = true ∧
      received 5 m₂.globals.net ≠ received 5 m₁.globals.net)) (by decide +kernel)
  obtain ⟨m₁, hm₁, hp⟩ := (Option.any_eq_true _ _).1 hp
  obtain ⟨m₂, hm₂, hp⟩ := (Option.any_eq_true _ _).1 hp
  obtain ⟨hdrawn, hroom, hend, hheard⟩ := of_decide_eq_true hp
  obtain ⟨hrun, houtside⟩ := check_of_exec _ hm₁ hend
  have hreach : Reachable anyStep m := hm.mono fun _ _ _ => trivial
  refine ⟨m, m₁, m₂, hreach, hrun, hm₂, hheard, ?_⟩
  have hchat : ∀ text ∈ [str "hello", str "good bye"],
      (actedText text).map parseText = some (.chat text) := by decide +kernel
  apply outsiders_hear_the_same hreach hdrawn (hchat _ (by decide)) (hchat _ (by decide)) hrun hm₂
  intro n u hu
  rw [hroom]
  exact not_isMember_of_outsideRoom (houtside n u hu)

/-- What a private message says is heard only by its sender and by the client that the broadcaster finds
when it looks up the recipient. -/
theorem whisper_unheard_by_others (hm : Reachable anyStep m)
    (hprivate : (actedText buffer).map parseText = some (.privateMessage name text))
    (hprivate' : (actedText buffer').map parseText = some (.privateMessage name text'))
    (hrun : m.exec (fun _ => true) (.event (.receive sock buffer) :: labels) = some m₁)
    (hrun' : m.exec (fun _ => true) (.event (.receive sock buffer') :: labels) = some m₂)
    (hsender : sock ≠ t) (hunfound : ∀ n u u',
      m.exec (fun _ => true) ((Label.event (.receive sock buffer) :: labels).take n) = some u →
      m.exec (fun _ => true) ((Label.event (.receive sock buffer') :: labels).take n) = some u' →
      u.config.prog .broadcaster = lookingUp (privateMessage sock (m.globals.info sock) name text) →
      u'.config.prog .broadcaster = lookingUp (privateMessage sock (m.globals.info sock) name text') →
        u.globals.findClientByUsername name (m.globals.info sock).roomId ≠ t) :
    received t m₂.globals.net = received t m₁.globals.net := by
  refine same_heard (privateMessage sock (m.globals.info sock) name text) text'
    (P := fun s => s.info sock = m.globals.info sock) hm (fun h => absurd h.symm Bool.false_ne_true)
    (fun _ => hsender) (fun _ _ => info_congr) rfl ?_ hrun hrun'
    (fun _ _ h => absurd h.symm Bool.false_ne_true) ?_
  · show (handleClientMessage sock buffer).Alike _ _ _ (handleClientMessage sock buffer') _
    rw [handleClientMessage_of_parse hprivate, handleClientMessage_of_parse hprivate']
    exact alike_privateMessage
  · intro u u' hu hu' _ n v v' hv hv'
    exact hunfound (n + 1) v v' (by simp [Machine.exec, hu, hv]) (by simp [Machine.exec, hu', hv'])

/-- Alice, bob and carol are in one room. -/
def oneRoom : List (Event × Fin 900000) := [
  (.connect 4, 0), (.receive 4 (str "/SETNAME alice"), 0), (.receive 4 (str "/CREATE PUBLIC"), 0),
  (.connect 5, 0), (.receive 5 (str "/SETNAME bob"), 0), (.receive 5 (str "/JOIN 100000"), 0),
  (.connect 6, 0), (.receive 6 (str "/SETNAME carol"), 0), (.receive 6 (str "/JOIN 100000"), 0)]

/-- Carol hears nothing of what alice whispers to bob. -/
theorem whisper_unheard_by_carol : ∃ m m₁ m₂ : Machine, Reachable anyStep m ∧
    m.exec (fun _ => true) (.event (.receive 4 (str "@bob hello")) :: (steps .main 6 ++ [.round] ++
      steps .broadcaster 14)) = some m₁ ∧
    m.exec (fun _ => true) (.event (.receive 4 (str "@bob good bye")) :: (steps .main 6 ++ [.round] ++
      steps .broadcaster 14)) = some m₂ ∧
    received 5 m₂.globals.net ≠ received 5 m₁.globals.net ∧
    received 6 m₂.globals.net = received 6 m₁.globals.net := by
  obtain ⟨m, hm, hp⟩ := reachable_of_after (fun _ _ => True) oneRoom (fun m : Machine =>
    (m.exec (fun u => decide (u.globals.findClientByUsername (str "bob") (str "100000") ≠ 6))
      (.event (.receive 4 (str "@bob hello")) :: (steps .main 6 ++ [.round] ++
        steps .broadcaster 14))).any fun m₁ : Machine =>
    (m.exec (fun _ => true) (.event (.receive 4 (str "@bob good bye")) :: (steps .main 6 ++
      [.round] ++ steps .broadcaster 14))).any fun m₂ : Machine =>
    decide ((m.globals.info 4).roomId = str "100000" ∧
      m₁.globals.findClientByUsername (str "bob") (str "100000") ≠ 6 ∧
      received 5 m₂.globals.net ≠ received 5 m₁.globals.net)) (by decide +kernel)
  obtain ⟨m₁, hm₁, hp⟩ := (Option.any_eq_true _ _).1 hp
  obtain ⟨m₂, hm₂, hp⟩ := (Option.any_eq_true _ _).1 hp
  obtain ⟨hroom, hend, hheard⟩ := of_decide_eq_true hp
  obtain ⟨hrun, hunfound⟩ := check_of_exec _ hm₁ (decide_eq_true hend)
  have hreach : Reachable anyStep m := hm.mono fun _ _ _ => trivial
  refine ⟨m, m₁, m₂, hreach, hrun, hm₂, hheard, ?_⟩
  have hwhisper : ∀ text ∈ [str "hello", str "good bye"],
      (actedText (str "@bob " ++ text)).map parseText = some (.privateMessage (str "bob") text) := by
    decide +kernel
  apply whisper_unheard_by_others hreach (hwhisper _ (by decide)) (hwhisper _ (by decide)) hrun hm₂
    (by decide)
  intro n u u' hu _ _ _
  rw [hroom]
  exact of_decide_eq_true (hunfound n u hu)

/-- Bob gives up his name and carol takes it before the whisper to bob is delivered: carol hears it. -/
theorem not_whisper_unheard_by_bystanders : ¬∀ (m m₁ m₂ : Machine) (sock t : SOCKET)
    (buffer buffer' name text text' : Bytes) (labels : List Label), Reachable anyStep m →
      (actedText buffer).map parseText = some (.privateMessage name text) →
      (actedText buffer').map parseText = some (.privateMessage name text') →
      m.exec (fun _ => true) (.event (.receive sock buffer) :: labels) = some m₁ →
      m.exec (fun _ => true) (.event (.receive sock buffer') :: labels) = some m₂ →
      sock ≠ t → m.globals.findClientByUsername name (m.globals.info sock).roomId ≠ t →
        received t m₂.globals.net = received t m₁.globals.net := by
  intro hall
  obtain ⟨m, hm, hp⟩ := reachable_of_after (fun _ _ => True) oneRoom (fun m : Machine =>
    (m.exec (fun _ => true) (.event (.receive 4 (str "@bob hello")) :: (steps .main 6 ++
      [.event (.receive 5 (str "/SETNAME robert"))] ++ steps .main 7 ++
      [.event (.receive 6 (str "/SETNAME bob"))] ++ steps .main 7 ++ [.round] ++
      steps .broadcaster 14))).any fun m₁ : Machine =>
    (m.exec (fun _ => true) (.event (.receive 4 (str "@bob good bye")) :: (steps .main 6 ++
      [.event (.receive 5 (str "/SETNAME robert"))] ++ steps .main 7 ++
      [.event (.receive 6 (str "/SETNAME bob"))] ++ steps .main 7 ++ [.round] ++
      steps .broadcaster 14))).any fun m₂ : Machine =>
    decide (m.globals.findClientByUsername (str "bob") (m.globals.info 4).roomId ≠ 6 ∧
      received 6 m₂.globals.net ≠ received 6 m₁.globals.net)) (by decide +kernel)
  obtain ⟨m₁, hm₁, hp⟩ := (Option.any_eq_true _ _).1 hp
  obtain ⟨m₂, hm₂, hp⟩ := (Option.any_eq_true _ _).1 hp
  obtain ⟨hfind, hheard⟩ := of_decide_eq_true hp
  exact hheard (hall m m₁ m₂ 4 6 (str "@bob hello") (str "@bob good bye") (str "bob") (str "hello")
    (str "good bye") _ (hm.mono fun _ _ _ => trivial) (by decide +kernel) (by decide +kernel) hm₁ hm₂
    (by decide) hfind)

end Machine

end TerminalChat.Server
