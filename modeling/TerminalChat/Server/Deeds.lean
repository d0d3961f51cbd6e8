import Mathlib
import TerminalChat.Concurrency.RelyGuarantee
import TerminalChat.Server.Membership

/-!
# What the threads do to each other

An effect (`Effect`) is something that a handler does to the rooms, the database, the queue, the pending
cleanups or the drawn ids in one action. The contract of the main thread (`mainContract`) says which
effects an action may have, under which conditions, and what the handler then still owes; those of the
broadcaster and of the cleanup threads say what they do. While a handler runs, the other threads only
write histories and sweep rooms without members; while the broadcaster holds `g_chatRoomsMutex`, the rooms
stand still.
-/

set_option autoImplicit false

namespace TerminalChat.Server

open TerminalChat.Concurrency TerminalChat.Text

/-! ## Effects -/

/-- The room is live and has no members. -/
def Globals.Deserted (s : Globals) (roomId : Bytes) : Prop :=
  (s.chatRooms[roomId]?).any ChatRoom.isEmpty = true

instance Globals.decidableDeserted (s : Globals) (roomId : Bytes) : Decidable (s.Deserted roomId) :=
  inferInstanceAs (Decidable (_ = true))

/-- What JOIN replays from the history of a room. -/
def Globals.history (e : Env) (s : Globals) (roomId : Bytes) : List Bytes :=
  let stored := s.database.getMessageHistory (fun n => e.calls (2 + n)) e.order roomId
    MAX_MESSAGE_HISTORY
  if stored.isEmpty then ((s.chatRooms[roomId]?).map ChatRoom.messageHistory).getD [] else stored

/-- The effects of the handlers. A client that departs leaves the cleanup of its room to the handler;
one that leaves spawns a cleanup thread; one that is expelled leaves others behind. -/
inductive Effect where
  | draw (roomId : Bytes)
  | depart (roomId : Bytes) (sock : SOCKET)
  | leave (roomId : Bytes) (sock : SOCKET)
  | expel (roomId : Bytes) (sock : SOCKET)
  | enter (roomId : Bytes) (sock : SOCKET)
  | create (roomId : Bytes) (isPrivate : Bool) (password : Bytes) (sock : SOCKET)
  | record (roomId : Bytes) (isPrivate : Bool) (owner password : Bytes)
  | appoint (roomId : Bytes) (sock : SOCKET)
  | credit (roomId name : Bytes)
  | ban (roomId name : Bytes)
  | rekey (roomId password : Bytes)
  | push (message : Message)
  | sweep (roomId : Bytes)

/-- What an effect does to the globals, the trace and the clients apart. -/
def Effect.apply (e : Env) : Effect → Globals → Globals
  | .draw roomId, s => { s with drawnIds := roomId :: s.drawnIds }
  | .depart roomId sock, s => s.editRoom roomId fun room => room.removeClient sock
  | .leave roomId sock, s =>
      let s' := s.editRoom roomId fun room => room.removeClient sock
      if s'.Deserted roomId then { s' with pendingCleanups := s'.pendingCleanups ++ [roomId] } else s'
  | .expel roomId sock, s => s.editRoom roomId fun room => room.removeClient sock
  | .enter roomId sock, s => s.editRoom roomId fun room => room.addClient sock s.steadyNow
  | .create roomId isPrivate password sock, s => s.insertRoom roomId
      ((ChatRoom.new roomId isPrivate password sock).addClient sock s.steadyNow)
  | .record roomId isPrivate owner password, s =>
      { s with database := s.database.createRoom e.calls roomId isPrivate owner password }
  | .appoint roomId sock, s => s.editRoom roomId fun room => room.setOwner sock
  | .credit roomId name, s => { s with database := s.database.updateRoomOwner e.calls roomId name }
  | .ban roomId name, s => { s.editRoom roomId fun room => room.banUser name with
      database := s.database.addBan e.calls roomId name }
  | .rekey roomId password, s => { s.editRoom roomId fun room => room.setPassword password with
      database := s.database.updateRoomPassword e.calls roomId password }
  | .push message, s => { s with messageQueue := s.messageQueue ++ [message] }
  | .sweep roomId, s =>
      if s.Deserted roomId then { s with
        chatRooms := s.chatRooms.erase roomId
        database := (s.database.deleteRoom e.calls roomId).2 }
      else s

/-- What an effect replays, and to whom. -/
def Effect.replays (e : Env) (s : Globals) : Effect → List (SOCKET × Bytes)
  | .enter roomId sock => (s.history e roomId).map fun msg => (sock, msg)
  | _ => []

/-- The replays among socket operations. -/
def replays (ops : List NetOp) : List (SOCKET × Bytes) :=
  ops.filterMap fun op => match op with
    | .replayed sock text => some (sock, text)
    | _ => none

/-! ## Notes -/

/-- What the broadcaster has in hand: a message taken from the queue, one whose room it has found, or
a private one whose recipient it has looked up, with the entry of the recipient. -/
inductive Hand where
  | empty
  | taken (message : Message)
  | found (message : Message)
  | resolved (message : Message) (recipientSocket : SOCKET) (recipient : ClientInfo)
  deriving DecidableEq

/-- The note of a thread: the hand of the broadcaster, the rooms that a handler still has to sweep,
and those it has created and not yet written to the database. -/
structure Note where
  hand : Hand := .empty
  owed : List Bytes := []
  unrecorded : List Bytes := []

/-- The note after an effect. -/
def Effect.after : Effect → Note → Note
  | .depart roomId _, g => { g with owed := roomId :: g.owed }
  | .sweep roomId, g => { g with owed := g.owed.filter fun r => r != roomId }
  | .create roomId _ _ _, g => { g with unrecorded := roomId :: g.unrecorded }
  | .record roomId _ _ _, g => { g with unrecorded := g.unrecorded.filter fun r => r != roomId }
  | _, g => g

/-- A name that SETNAME can have set. -/
structure NameOk (name : Bytes) : Prop where
  trimmed : Trimmed name
  oneLine : OneLine name

/-- Every name is as before or one that SETNAME can have set. -/
def NamesKept (s s' : Globals) : Prop :=
  ∀ t, (s'.info t).username = (s.info t).username ∨ NameOk (s'.info t).username

theorem NamesKept.trans {s s' s'' : Globals} (h : NamesKept s s') (h' : NamesKept s' s'') :
    NamesKept s s'' := by
  intro t
  rcases h' t with ht | ht
  · rw [ht]
    exact h t
  · exact Or.inr ht

/-- When an effect may happen. What rests on the agreement of `g_clients` with the rooms, or on a
fresh id, holds as long as the drawn ids are distinct. -/
def Effect.Allowed (g : Note) (s : Globals) : Effect → Prop
  | .draw roomId => ∃ draw, roomId = roomIdOf draw
  | .expel roomId sock => s.drawnIds.Nodup → ∃ t, t ≠ sock ∧ s.IsMember t roomId
  | .enter roomId sock => roomId ∈ s.chatRooms ∧ sock ≠ INVALID_SOCKET
  | .create roomId isPrivate password sock => (s.drawnIds.Nodup → roomId ∉ s.chatRooms) ∧
      roomId ∈ s.drawnIds ∧ password.isEmpty = !isPrivate ∧ sock ≠ INVALID_SOCKET
  | .record roomId isPrivate _ password => roomId ∈ g.unrecorded ∧
      ∃ room, s.chatRooms[roomId]? = some room ∧ room.isPrivate = isPrivate ∧
        room.password = password
  | .ban roomId _ => roomId ∈ s.chatRooms
  | .rekey roomId password => password ≠ [] ∧
      ∃ room, s.chatRooms[roomId]? = some room ∧ room.isPrivate = true
  | .push message => message.senderName = (s.info message.senderSocket).username ∧
      message.roomId = (s.info message.senderSocket).roomId ∧ message.roomId ≠ [] ∧
      Trimmed message.content ∧ message.content ≠ []
  | _ => True

/-- The two states agree on what effects are about. -/
structure Matches (s s' : Globals) : Prop where
  rooms : s'.chatRooms = s.chatRooms
  database : s'.database = s.database
  queue : s'.messageQueue = s.messageQueue
  pending : s'.pendingCleanups = s.pendingCleanups
  drawn : s'.drawnIds = s.drawnIds
  clock : s'.steadyNow = s.steadyNow

theorem Matches.refl (s : Globals) : Matches s s := ⟨rfl, rfl, rfl, rfl, rfl, rfl⟩

/-- The effects of an action, one after the other, from one note and state to another. -/
inductive Deeds (e : Env) : List Effect → Note → Globals → Note → Globals → Prop where
  | done {g : Note} {s s' : Globals} (h : Matches s s') : Deeds e [] g s g s'
  | cons {eff : Effect} {effs : List Effect} {g g' : Note} {s s' : Globals}
      (ha : eff.Allowed g s) (h : Deeds e effs (eff.after g) (eff.apply e s) g' s') :
      Deeds e (eff :: effs) g s g' s'

theorem Deeds.one {e : Env} {eff : Effect} {g : Note} {s s' : Globals} (ha : eff.Allowed g s)
    (h : Matches (eff.apply e s) s') : Deeds e [eff] g s (eff.after g) s' := .cons ha (.done h)

/-! ### What effects leave alone -/

/-- The messages that an effect puts into the queue. -/
def Effect.pushed : Effect → List Message
  | .push message => [message]
  | _ => []

section Frame

variable (e : Env) (s : Globals) (eff : Effect)

@[simp] theorem Effect.clients_apply : (eff.apply e s).clients = s.clients := by
  cases eff with
  | leave roomId sock =>
      dsimp only [Effect.apply]
      split <;> rfl
  | sweep roomId =>
      dsimp only [Effect.apply]
      split <;> rfl
  | _ => rfl

@[simp] theorem Effect.info_apply (sock : SOCKET) : (eff.apply e s).info sock = s.info sock := by
  rw [Globals.info, Effect.clients_apply, Globals.info]

@[simp] theorem Effect.net_apply : (eff.apply e s).net = s.net := by
  cases eff with
  | leave roomId sock =>
      dsimp only [Effect.apply]
      split <;> rfl
  | sweep roomId =>
      dsimp only [Effect.apply]
      split <;> rfl
  | _ => rfl

@[simp] theorem Effect.messageQueue_apply :
    (eff.apply e s).messageQueue = s.messageQueue ++ eff.pushed := by
  cases eff with
  | leave roomId sock =>
      dsimp only [Effect.apply, Effect.pushed]
      split <;> exact (List.append_nil _).symm
  | sweep roomId =>
      dsimp only [Effect.apply, Effect.pushed]
      split <;> exact (List.append_nil _).symm
  | push message => rfl
  | _ => exact (List.append_nil _).symm

/-- The drawn ids only grow. -/
theorem Effect.drawnIds_suffix : s.drawnIds <:+ (eff.apply e s).drawnIds := by
  cases eff with
  | draw roomId => exact List.suffix_cons roomId s.drawnIds
  | leave roomId sock =>
      dsimp only [Effect.apply]
      split <;> exact List.suffix_refl _
  | sweep roomId =>
      dsimp only [Effect.apply]
      split <;> exact List.suffix_refl _
  | _ => exact List.suffix_refl _

end Frame

section Runs

variable {e : Env} {effs : List Effect} {g g' : Note} {s s' : Globals}

/-- The rule for the effects of an action: what every allowed effect keeps, they keep together. -/
theorem Deeds.keep {P : Note → Globals → Prop} (h : Deeds e effs g s g' s')
    (hmatch : ∀ g s s', Matches s s' → P g s → P g s')
    (heff : ∀ (eff : Effect) (g : Note) (s : Globals), eff ∈ effs → eff.Allowed g s → P g s →
      P (eff.after g) (eff.apply e s)) (hp : P g s) : P g' s' := by
  induction h with
  | done hm => exact hmatch _ _ _ hm hp
  | @cons eff effs g g' s s' ha _ ih =>
      exact ih (fun eff' g s hmem => heff eff' g s (List.mem_cons_of_mem eff hmem))
        (heff eff g s List.mem_cons_self ha hp)

theorem Deeds.queue (h : Deeds e effs g s g' s') :
    s'.messageQueue = s.messageQueue ++ effs.flatMap Effect.pushed := by
  induction h with
  | done hm => rw [hm.queue, List.flatMap_nil, List.append_nil]
  | cons _ _ ih => rw [ih, Effect.messageQueue_apply, List.flatMap_cons, List.append_assoc]

theorem Deeds.drawnIds (h : Deeds e effs g s g' s') : s.drawnIds <:+ s'.drawnIds := by
  induction h with
  | done hm => rw [hm.drawn]
  | @cons eff effs g g' s s' _ _ ih => exact (Effect.drawnIds_suffix e s eff).trans ih

/-- What is pushed comes from a client that is in a room, under the name of the client. -/
theorem Deeds.pushes (h : Deeds e effs g s g' s') {message : Message}
    (hm : message ∈ effs.flatMap Effect.pushed) :
    message.senderName = (s.info message.senderSocket).username ∧
      message.roomId = (s.info message.senderSocket).roomId ∧ message.roomId ≠ [] ∧
      Trimmed message.content ∧ message.content ≠ [] := by
  induction h with
  | done _ => exact absurd hm List.not_mem_nil
  | @cons eff effs g g' s s' ha _ ih =>
      rw [List.flatMap_cons, List.mem_append] at hm
      rcases hm with hm | hm
      · cases eff with
        | push message' =>
            rw [Effect.pushed, List.mem_singleton] at hm
            rw [hm]
            exact ha
        | _ => exact absurd hm List.not_mem_nil
      · have h := ih hm
        -- no effect changes a record, so the later effects saw the same sender
        rw [Effect.info_apply] at h
        exact h

end Runs

/-! ## The contracts -/

/-- The effects that have an action of their own: all but those of an admission, where a client may
leave a room and enter another in one action. -/
def Effect.Alone : Effect → Prop
  | .leave _ _ => False
  | .enter _ _ => False
  | _ => True

/-- What an action of the main thread does. -/
structure MainDeed (H : List Mutex) (g g' : Note) (e : Env) (s s' : Globals) : Prop where
  deeds : ∃ effs ops, Deeds e effs g s g' s' ∧ s'.net = s.net ++ ops ∧
    replays ops = effs.flatMap (Effect.replays e s) ∧ ∀ eff ∈ effs, eff.Alone → effs = [eff]
  names : NamesKept s s'
  guarded : .chatRoomsMutex ∉ H → s'.chatRooms = s.chatRooms

/-- What the other threads may do while a handler runs and holds the mutexes `H`. -/
structure Backdrop (H : List Mutex) (s s' : Globals) : Prop where
  clients : s'.clients = s.clients
  drawn : s'.drawnIds = s.drawnIds
  kept : ∀ (r : Bytes) (room : ChatRoom), s.chatRooms[r]? = some room →
    (∃ history, s'.chatRooms[r]? = some { room with messageHistory := history }) ∨
      s'.chatRooms[r]? = none ∧ room.isEmpty = true
  fresh : ∀ r : Bytes, s.chatRooms[r]? = none → s'.chatRooms[r]? = none
  held : .chatRoomsMutex ∈ H → s'.chatRooms = s.chatRooms

theorem Backdrop.of_rooms {H : List Mutex} {s s' : Globals} (hc : s'.clients = s.clients)
    (hd : s'.drawnIds = s.drawnIds) (hr : s'.chatRooms = s.chatRooms) : Backdrop H s s' := by
  refine ⟨hc, hd, fun r room hroom => Or.inl ⟨room.messageHistory, ?_⟩, fun r hroom => ?_,
    fun _ => hr⟩
  · rw [hr, hroom]
  · rw [hr, hroom]

theorem Backdrop.refl (H : List Mutex) (s : Globals) : Backdrop H s s := .of_rooms rfl rfl rfl

theorem Backdrop.trans {H : List Mutex} {s s' s'' : Globals} (h : Backdrop H s s')
    (h' : Backdrop H s' s'') : Backdrop H s s'' := by
  refine ⟨h'.clients.trans h.clients, h'.drawn.trans h.drawn, fun r room hroom => ?_,
    fun r hroom => h'.fresh r (h.fresh r hroom), fun hm => (h'.held hm).trans (h.held hm)⟩
  rcases h.kept r room hroom with ⟨history, h₁⟩ | ⟨h₁, hempty⟩
  · rcases h'.kept r _ h₁ with ⟨history', h₂⟩ | ⟨h₂, hempty⟩
    · exact Or.inl ⟨history', h₂⟩
    · exact Or.inr ⟨h₂, hempty⟩
  · exact Or.inr ⟨h'.fresh r h₁, hempty⟩

/-- A member stays a member. -/
theorem Backdrop.isMember {H : List Mutex} {s s' : Globals} (h : Backdrop H s s') {sock : SOCKET}
    {r : Bytes} (hm : s.IsMember sock r) : s'.IsMember sock r := by
  obtain ⟨room, hroom, hmem⟩ := hm
  rcases h.kept r room hroom with ⟨history, h'⟩ | ⟨-, hempty⟩
  · exact ⟨_, h', hmem⟩
  · exact absurd hmem (room.isEmpty_iff.1 hempty sock)

theorem Backdrop.info {H : List Mutex} {s s' : Globals} (h : Backdrop H s s') (sock : SOCKET) :
    s'.info sock = s.info sock := by
  rw [Globals.info, h.clients, Globals.info]

/-- What an action of the broadcaster does, by what it has in hand: it looks or takes the front of
the queue, looks for the room, looks for the recipient or delivers to the room, delivers to the
recipient. -/
def Hand.Acts (e : Env) (s s' : Globals) : Hand → Prop
  | .empty => s' = s ∨ ∃ message rest, s.messageQueue = message :: rest ∧
      s' = { s with messageQueue := rest }
  | .taken _ => s' = s
  | .found message =>
      if message.isPrivate then s' = s
      else message.roomId ∈ s.chatRooms ∧ s' = ((deliverPublic message).exec e s).state
  | .resolved message recipientSocket _ =>
      message.roomId ∈ s.chatRooms ∧ s' = ((deliverPrivate message recipientSocket).exec e s).state

/-- What the broadcaster has in hand after an action. -/
def Hand.advance (s s' : Globals) : Hand → Hand
  | .empty =>
      match s.messageQueue with
      | [] => .empty
      | message :: _ =>
          if s'.messageQueue.length < s.messageQueue.length then .taken message else .empty
  | .taken message => if message.roomId ∈ s.chatRooms then .found message else .empty
  | .found message =>
      if message.isPrivate then
        let recipientSocket := s.findClientByUsername message.recipientName message.roomId
        .resolved message recipientSocket (s.info recipientSocket)
      else .empty
  | .resolved _ _ _ => .empty

/-- What an action of the broadcaster does. -/
structure BroadcastDeed (H : List Mutex) (g g' : Note) (e : Env) (s s' : Globals) : Prop where
  acts : g.hand.Acts e s s'
  note : g' = { g with hand := g.hand.advance s s' }
  guarded : .chatRoomsMutex ∉ H → s'.chatRooms = s.chatRooms

/-- What an action of a cleanup thread does. -/
structure CleanupDeed (H : List Mutex) (g g' : Note) (e : Env) (s s' : Globals) : Prop where
  sweeps : ∃ roomId, s' = (Effect.sweep roomId).apply e s
  note : g' = g
  guarded : .chatRoomsMutex ∉ H → s'.chatRooms = s.chatRooms

/-- The contract of the main thread. -/
def mainContract : Contract Mutex Env Globals Note where
  rely := Backdrop
  guarantee := MainDeed
  rely_refl := Backdrop.refl
  rely_trans _ _ _ _ h h' := h.trans h'
  rely_mono _ _ _ _ h := ⟨h.clients, h.drawn, h.kept, h.fresh, fun hm => h.held (.tail _ hm)⟩

/-- The rooms stand still while their mutex is held. -/
def RoomsHeld (H : List Mutex) (s s' : Globals) : Prop :=
  .chatRoomsMutex ∈ H → s'.chatRooms = s.chatRooms

/-- A contract of a thread that relies on no more than that. -/
def contractUnderRooms (G : List Mutex → Note → Note → Env → Globals → Globals → Prop) :
    Contract Mutex Env Globals Note where
  rely := RoomsHeld
  guarantee := G
  rely_refl _ _ _ := rfl
  rely_trans _ _ _ _ h h' hm := (h' hm).trans (h hm)
  rely_mono _ _ _ _ h hm := h (.tail _ hm)

/-- The contracts of the threads. -/
def contract : Tid → Contract Mutex Env Globals Note
  | .main => mainContract
  | .broadcaster => contractUnderRooms BroadcastDeed
  | .cleanup _ => contractUnderRooms CleanupDeed

end TerminalChat.Server
