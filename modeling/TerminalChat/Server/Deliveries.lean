import Mathlib
import TerminalChat.Server.Watch
import TerminalChat.Server.Blocks

/-!
# What is delivered

Along every watched run the broadcaster only delivers what handlers have accepted: messages under a
name that SETNAME can have set, with trimmed contents. A delivery sends one line to members of the
room, or one to the client that was looked up and one to the sender (`Machine.Watched.deliverable`).
-/

set_option autoImplicit false

namespace TerminalChat.Server

open TerminalChat.Concurrency TerminalChat.Text

/-- A message as handlers accept it. -/
structure Message.Accepted (message : Message) : Prop where
  named : NameOk message.senderName
  inRoom : message.roomId ≠ []
  trimmed : Trimmed message.content
  nonempty : message.content ≠ []

/-- The socket operations of a delivery to the members of a room. -/
def publicOps (message : Message) (now : LocalTm) (members : List SOCKET) : List NetOp :=
  members.map fun sock => .sent sock (chatText now.text message.senderName message.content)

/-- The socket operations of a delivery to the client that was looked up, or of the refusal. -/
def privateOps (message : Message) (now : LocalTm) (recipientSocket : SOCKET) : List NetOp :=
  if recipientSocket = INVALID_SOCKET then
    [.sent message.senderSocket
      (str "ERROR: User '" ++ message.recipientName ++ str "' not found in this room\n")]
  else [
    .sent recipientSocket (privateText now.text "PM_FROM:" message.senderName message.content),
    .sent message.senderSocket
      (privateText now.text "PM_SENT:" message.recipientName message.content)]

/-- The client that was looked up has the name and is in the room. -/
structure LookedUp (message : Message) (recipientSocket : SOCKET) (recipient : ClientInfo) :
    Prop where
  isPrivate : message.isPrivate = true
  name : recipientSocket ≠ INVALID_SOCKET → recipient.username = message.recipientName
  room : recipientSocket ≠ INVALID_SOCKET → recipient.roomId = message.roomId
  named : NameOk recipient.username

/-- What holds of the message in hand. -/
def Hand.Sound : Hand → Prop
  | .empty => True
  | .taken message => message.Accepted
  | .found message => message.Accepted
  | .resolved message recipientSocket recipient =>
      message.Accepted ∧ LookedUp message recipientSocket recipient

/-- What holds of an entry of the log. -/
def Entry.Sound : Entry → Prop
  | .opened _ => True
  | .accepted message => message.Accepted
  | .delivered message stamp ops =>
      message.Accepted ∧ message.isPrivate = false ∧ (∃ utc : UtcTime, stamp = utc.text) ∧
        ∃ now members, ops = publicOps message now members
  | .whispered message recipientSocket recipient ops =>
      message.Accepted ∧ LookedUp message recipientSocket recipient ∧
        ∃ now, ops = privateOps message now recipientSocket

/-- What holds of the queue, the hand and the log along every run. -/
structure Deliverable (s : Globals) (w : Watch) : Prop where
  names : ∀ t, NameOk (s.info t).username
  queue : ∀ message ∈ s.messageQueue, message.Accepted
  hand : w.hand.Sound
  log : ∀ entry ∈ w.log, entry.Sound

theorem nameOk_nil : NameOk [] := ⟨rfl, List.not_mem_nil⟩

theorem opsBetween_eq {s s' : Globals} {ops : List NetOp} (h : s'.net = s.net ++ ops) :
    opsBetween s s' = ops := by
  rw [opsBetween, h, List.drop_left]

section Acts

variable (e : Env) (s : Globals) (message : Message)

/-- The members of the room that a delivery goes to. -/
def targets (s : Globals) (message : Message) : List SOCKET :=
  ((s.chatRooms[message.roomId]?).map fun room =>
    room.broadcastTargets message.senderSocket).getD []

/-- The line that a delivery writes. -/
def Message.line (message : Message) (e : Env) : Bytes :=
  chatText (e.wall 0).text message.senderName message.content

/-- A delivery writes the history, sends the line to the other members, and saves the message. -/
theorem state_deliverPublic : ((deliverPublic message).exec e s).state =
    { s.editRoom message.roomId fun room => room.addMessageToHistory (message.line e) with
      net := s.net ++ publicOps message (e.wall 0) (targets s message)
      database := s.database.saveMessage e.calls e.utc.text message.roomId message.senderName
        message.content false [] } := by
  -- the history grows before the targets are read, which leaves the members as they were
  have htargets : (((s.editRoom message.roomId fun room =>
      room.addMessageToHistory (message.line e)).chatRooms[message.roomId]?).map fun room =>
        room.broadcastTargets message.senderSocket).getD [] = targets s message := by
    rw [Globals.getElem?_editRoom, if_pos rfl, Option.map_map]
    rfl
  have hrun : ((deliverPublic message).exec e s).state =
      { s.editRoom message.roomId fun room => room.addMessageToHistory (message.line e) with
        net := s.net ++ publicOps message (e.wall 0) ((((s.editRoom message.roomId fun room =>
          room.addMessageToHistory (message.line e)).chatRooms[message.roomId]?).map fun room =>
            room.broadcastTargets message.senderSocket).getD [])
        database := s.database.saveMessage (fun n => e.calls (0 + n)) e.utc.text message.roomId
          message.senderName message.content false [] } := rfl
  rw [hrun, htargets]
  simp only [Nat.zero_add]

/-- A private delivery sends two lines and saves the message; a refusal sends one. -/
theorem state_deliverPrivate (recipientSocket : SOCKET) :
    ((deliverPrivate message recipientSocket).exec e s).state =
      { s with
        net := s.net ++ privateOps message (e.wall 0) recipientSocket
        database := if recipientSocket = INVALID_SOCKET then s.database
          else s.database.saveMessage e.calls e.utc.text message.roomId message.senderName
            message.content true message.recipientName } := by
  unfold deliverPrivate privateOps
  by_cases h : recipientSocket = INVALID_SOCKET
  · rw [if_pos h, if_pos h, if_pos h]
    rfl
  · rw [if_neg h, if_neg h, if_neg h]
    have hcalls : (fun n => e.calls (0 + n)) = e.calls := funext fun n => by rw [Nat.zero_add]
    have hnet : ∀ (text text' : Bytes), (s.net ++ [NetOp.sent recipientSocket text]) ++
        [NetOp.sent message.senderSocket text'] = s.net ++
          [NetOp.sent recipientSocket text, NetOp.sent message.senderSocket text'] := by
      intro text text'
      rw [List.append_assoc]
      rfl
    rw [← hnet, ← hcalls]
    rfl

end Acts

theorem net_deliverPublic (e : Env) (s : Globals) (message : Message) :
    opsBetween s ((deliverPublic message).exec e s).state =
      publicOps message (e.wall 0) (targets s message) := by
  rw [state_deliverPublic]
  exact opsBetween_eq rfl

theorem net_deliverPrivate (e : Env) (s : Globals) (message : Message) (t : SOCKET) :
    opsBetween s ((deliverPrivate message t).exec e s).state = privateOps message (e.wall 0) t := by
  rw [state_deliverPrivate]
  exact opsBetween_eq rfl

/-- What the broadcaster never touches. -/
theorem Hand.Acts.frame {hand : Hand} {e : Env} {s s' : Globals} (h : hand.Acts e s s') :
    s'.clients = s.clients ∧ s'.drawnIds = s.drawnIds ∧
      s'.pendingCleanups = s.pendingCleanups := by
  cases hand with
  | empty =>
      rcases h with rfl | ⟨message, rest, -, rfl⟩
      · exact ⟨rfl, rfl, rfl⟩
      · exact ⟨rfl, rfl, rfl⟩
  | taken message =>
      rw [show s' = s from h]
      exact ⟨rfl, rfl, rfl⟩
  | found message =>
      rw [Hand.Acts] at h
      split at h
      · rw [h]
        exact ⟨rfl, rfl, rfl⟩
      · rw [h.2, state_deliverPublic]
        exact ⟨rfl, rfl, rfl⟩
  | resolved message t recipient =>
      rw [h.2, state_deliverPrivate]
      exact ⟨rfl, rfl, rfl⟩

/-- In a room the broadcaster only writes the history. -/
theorem Hand.Acts.room {hand : Hand} {e : Env} {s s' : Globals} (h : hand.Acts e s s') (r : Bytes) :
    ∃ f : ChatRoom → List Bytes, s'.chatRooms[r]? = (s.chatRooms[r]?).map fun room =>
      { room with messageHistory := f room } := by
  have hsame : s'.chatRooms = s.chatRooms → ∃ f : ChatRoom → List Bytes,
      s'.chatRooms[r]? = (s.chatRooms[r]?).map fun room => { room with messageHistory := f room } := by
    intro hr
    refine ⟨ChatRoom.messageHistory, ?_⟩
    rw [hr]
    exact Option.map_id'.symm
  cases hand with
  | empty =>
      rcases h with rfl | ⟨message, rest, -, rfl⟩
      · exact hsame rfl
      · exact hsame rfl
  | taken message =>
      rw [show s' = s from h] at hsame ⊢
      exact hsame rfl
  | found message =>
      rw [Hand.Acts] at h
      split at h
      · rw [h] at hsame ⊢
        exact hsame rfl
      · -- a public delivery adds to the memory of its own room only
        by_cases hr : message.roomId = r
        · refine ⟨fun room => (room.addMessageToHistory (message.line e)).messageHistory, ?_⟩
          rw [h.2, state_deliverPublic, Globals.getElem?_editRoom, if_pos hr]
          rfl
        · refine ⟨ChatRoom.messageHistory, ?_⟩
          rw [h.2, state_deliverPublic, Globals.getElem?_editRoom, if_neg hr]
          exact Option.map_id'.symm
  | resolved message t recipient =>
      rw [h.2, state_deliverPrivate] at hsame ⊢
      exact hsame rfl

/-! ## Along the runs -/

variable {s s' : Globals} {w : Watch}

theorem deliverable_boot (db : Database) (listenSocket : SOCKET) :
    Deliverable (.boot db listenSocket) {} := by
  constructor
  · intro t
    rw [Globals.info, Globals.boot, Std.ExtTreeMap.getElem?_empty]
    exact nameOk_nil
  · exact fun message hm => absurd hm List.not_mem_nil
  · exact trivial
  · exact fun entry hm => absurd hm List.not_mem_nil

/-- Only names, the queue and the watch matter. -/
theorem Deliverable.congr (h : Deliverable s w) (hc : s'.clients = s.clients)
    (hq : ∀ message ∈ s'.messageQueue, message ∈ s.messageQueue) : Deliverable s' w := by
  refine ⟨fun t => ?_, fun message hm => h.queue message (hq message hm), h.hand, h.log⟩
  rw [Globals.info, hc]
  exact h.names t

/-- An action of a handler accepts messages of named clients. -/
theorem Deliverable.main {H : List Mutex} {g g' : Note} {e : Env} (h : Deliverable s w)
    (hd : MainDeed H g g' e s s') :
    Deliverable s' { w with log := w.log ++ mainEntries s s' } := by
  obtain ⟨effs, ops, hdeeds, -⟩ := hd.deeds
  have hqueue := hdeeds.queue
  -- what the main thread queues is made from the record of the sender
  have hpushed : ∀ message ∈ effs.flatMap Effect.pushed, message.Accepted := by
    intro message hm
    obtain ⟨hname, -, hroom, htrim, hne⟩ := hdeeds.pushes hm
    refine ⟨?_, hroom, htrim, hne⟩
    rw [hname]
    exact h.names _
  refine ⟨fun t => ?_, fun message hm => ?_, h.hand, fun entry hm => ?_⟩
  · rcases hd.names t with ht | ht
    · rw [ht]
      exact h.names t
    · exact ht
  · rw [hqueue, List.mem_append] at hm
    rcases hm with hm | hm
    · exact h.queue message hm
    · exact hpushed message hm
  · rw [List.mem_append] at hm
    rcases hm with hm | hm
    · exact h.log entry hm
    · rw [mainEntries, hqueue, List.drop_left, List.mem_append, List.mem_map, List.mem_map] at hm
      rcases hm with ⟨r, -, rfl⟩ | ⟨message, hm, rfl⟩
      · exact trivial
      · exact hpushed message hm

/-- What has been looked up. -/
theorem Deliverable.lookedUp (h : Deliverable s w) {message : Message}
    (hp : message.isPrivate = true) :
    LookedUp message (s.findClientByUsername message.recipientName message.roomId)
      (s.info (s.findClientByUsername message.recipientName message.roomId)) := by
  rcases findClientByUsername_cases s message.recipientName message.roomId with
    ⟨hnone, -⟩ | ⟨c, hc, hname, hroom⟩
  · exact ⟨hp, fun hne => absurd hnone hne, fun hne => absurd hnone hne, h.names _⟩
  · have hinfo : s.info (s.findClientByUsername message.recipientName message.roomId) = c := by
      rw [Globals.info, hc]
      rfl
    rw [← hinfo] at hname hroom
    exact ⟨hp, fun _ => hname, fun _ => hroom, h.names _⟩

/-- An action of the broadcaster passes a message on. -/
theorem Deliverable.broadcast {e : Env} (h : Deliverable s w) (hd : w.hand.Acts e s s') :
    Deliverable s' { hand := w.hand.advance s s', log := w.log ++ w.hand.entries e s s' } := by
  have hhand := h.hand
  cases hw : w.hand with
  | empty =>
      rw [hw] at hd
      have hlog : ∀ entry ∈ w.log ++ Hand.empty.entries e s s', entry.Sound := by
        intro entry hm
        rw [Hand.entries, List.append_nil] at hm
        exact h.log entry hm
      rcases hd with rfl | ⟨message, rest, hqueue, rfl⟩
      · refine ⟨h.names, h.queue, ?_, hlog⟩
        rw [Hand.advance]
        split
        · exact trivial
        · rw [if_neg (Nat.lt_irrefl _)]
          exact trivial
      · refine ⟨h.names, fun m hm => h.queue m ?_, ?_, hlog⟩
        · rw [hqueue]
          exact List.mem_cons_of_mem message hm
        · simp only [Hand.advance, hqueue]
          rw [if_pos (by simp)]
          exact h.queue message (by rw [hqueue]; exact List.mem_cons_self)
  | taken message =>
      rw [hw] at hd hhand
      have hsame : s' = s := hd
      subst hsame
      refine ⟨h.names, h.queue, ?_, fun entry hm => ?_⟩
      · rw [Hand.advance]
        split
        · exact hhand
        · exact trivial
      · rw [Hand.entries, List.append_nil] at hm
        exact h.log entry hm
  | found message =>
      rw [hw] at hd hhand
      rw [Hand.Acts] at hd
      by_cases hp : message.isPrivate = true
      · rw [if_pos hp] at hd
        subst hd
        refine ⟨h.names, h.queue, ?_, fun entry hm => ?_⟩
        · simp only [Hand.advance, if_pos hp]
          exact ⟨hhand, h.lookedUp hp⟩
        · rw [Hand.entries, if_pos hp, List.append_nil] at hm
          exact h.log entry hm
      · rw [if_neg hp] at hd
        obtain ⟨-, rfl⟩ := hd
        refine ⟨h.names, h.queue, ?_, fun entry hm => ?_⟩
        · rw [Hand.advance, if_neg hp]
          exact trivial
        · rw [Hand.entries, if_neg hp, List.mem_append, List.mem_singleton] at hm
          rcases hm with hm | rfl
          · exact h.log entry hm
          · -- the new entry: a delivery to the members of the room
            exact ⟨hhand, Bool.eq_false_iff.2 hp, ⟨_, rfl⟩, _, _, net_deliverPublic e s message⟩
  | resolved message t recipient =>
      rw [hw] at hd hhand
      have hstate : s' = ((deliverPrivate message t).exec e s).state := hd.2
      rw [state_deliverPrivate] at hstate
      have hkeep : Deliverable s' w := h.congr (by rw [hstate]) (by rw [hstate]; exact fun _ h => h)
      refine ⟨hkeep.names, hkeep.queue, trivial, fun entry hm => ?_⟩
      rw [Hand.entries, List.mem_append, List.mem_singleton] at hm
      rcases hm with hm | rfl
      · exact h.log entry hm
      · -- the new entry: a delivery to the recipient and the sender
        refine ⟨hhand.1, hhand.2, e.wall 0, ?_⟩
        rw [hstate]
        exact opsBetween_eq rfl

namespace Machine

variable {ok : Machine → Label → Prop} {db : Database} {listenSocket : SOCKET} {m : Machine}

/-- The drawn ids only grow. -/
theorem Move.drawnIds {m' : Machine} {g g' : Note} {w' : Watch} {l : Label}
    (h : Move m g w l m' g' w') : m.globals.drawnIds <:+ m'.globals.drawnIds := by
  cases h with
  | rest hs => rw [hs]
  | wake hs => rw [hs]
  | main H hd =>
      obtain ⟨effs, ops, hdeeds, -⟩ := hd.deeds
      exact hdeeds.drawnIds
  | broadcast hd => rw [hd.frame.2.1]
  | sweep roomId hs =>
      rw [hs]
      exact Effect.drawnIds_suffix _ _ _

/-- Along every watched run only accepted messages are delivered. -/
theorem Watched.deliverable (h : Watched ok db listenSocket m w) : Deliverable m.globals w := by
  have hkeep := h.induction (P := fun m _ w => Deliverable m.globals w)
    (deliverable_boot db listenSocket)
  refine (hkeep fun m g w l m' g' _ _ _ h hmove => ?_).choose_spec.2
  clear hkeep
  generalize w.observe m l m' = w' at hmove
  cases hmove with
  | rest hs =>
      apply h.congr
      · rw [hs]
      · rw [hs]
        exact fun _ h => h
  | wake hs =>
      apply h.congr
      · rw [hs]
      · rw [hs]
        exact fun _ h => h
  | main H hd => exact h.main hd
  | broadcast hd => exact h.broadcast hd
  | @sweep n e m' roomId hs =>
      apply h.congr
      · rw [hs, Effect.clients_apply]
      · have hnone : (Effect.sweep roomId).pushed = [] := rfl
        rw [hs, Effect.messageQueue_apply, hnone, List.append_nil]
        exact fun _ h => h

end Machine

end TerminalChat.Server
