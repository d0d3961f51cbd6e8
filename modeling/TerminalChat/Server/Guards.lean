import Mathlib
import TerminalChat.Concurrency.Confinement
import TerminalChat.Server.Process

/-!
# The tables and their mutexes

`g_chatRooms`, `g_clients`, `g_messageQueue` and the poll table have a mutex each. The handlers, the
broadcaster, the cleanup threads and the end of `main` touch a table only while they hold its mutex, so no
two threads ever touch the same table at once (`Process.no_data_race`). The database locks its own mutex
in every call, and the other globals are atomic or belong to the system.
-/

set_option autoImplicit false

namespace TerminalChat.Server

open TerminalChat.Concurrency TerminalChat.Text

/-- The tables that the threads share. -/
inductive Table where
  | chatRooms
  | clients
  | messageQueue
  | pollFds
  deriving DecidableEq

namespace Table

/-- The mutex of a table. -/
def mutex : Table → Mutex
  | .chatRooms => .chatRoomsMutex
  | .clients => .clientsMutex
  | .messageQueue => .queueMutex
  | .pollFds => .pollFdsMutex

/-- The table is the same in both states. -/
def Same : Table → Globals → Globals → Prop
  | .chatRooms, s, s' => s'.chatRooms = s.chatRooms
  | .clients, s, s' => s'.clients = s.clients
  | .messageQueue, s, s' => s'.messageQueue = s.messageQueue
  | .pollFds, s, s' => s'.pollFds = s.pollFds

/-- Everything but the tables is the same in both states. -/
structure Rest (s s' : Globals) : Prop where
  flag : s'.shutdownRequested = s.shutdownRequested
  database : s'.database = s.database
  cleanups : s'.pendingCleanups = s.pendingCleanups
  clock : s'.steadyNow = s.steadyNow
  net : s'.net = s.net
  drawn : s'.drawnIds = s.drawnIds

theorem equivalence_same (k : Table) : Equivalence (Same k) := by
  cases k with
  | chatRooms => exact ⟨fun _ => rfl, fun h => h.symm, fun h h' => h'.trans h⟩
  | clients => exact ⟨fun _ => rfl, fun h => h.symm, fun h h' => h'.trans h⟩
  | messageQueue => exact ⟨fun _ => rfl, fun h => h.symm, fun h h' => h'.trans h⟩
  | pollFds => exact ⟨fun _ => rfl, fun h => h.symm, fun h h' => h'.trans h⟩

end Table

/-- The tables of the server with their mutexes. -/
def guards : Guarding Table Mutex Globals where
  mutex := Table.mutex
  Same := Table.Same
  Rest := Table.Rest
  equivalence := Table.equivalence_same

/-- The block touches only what `H` guards. -/
abbrev Kept {α : Type} (H : Set Mutex) (b : Sect α) : Prop := b.Confined guards H

/-! ## The statements -/

section Statements

variable {H : Set Mutex} {s s' : Globals} {α : Type}

/-- A statement that touches no table. -/
theorem kept_rest {b : Sect α} (hsame : ∀ e s k, Table.Same k s (b.exec e s).state)
    (heven : ∀ e s s', Table.Rest s s' → (b.exec e s').value = (b.exec e s).value ∧
      (b.exec e s').passed = (b.exec e s).passed ∧ Table.Rest (b.exec e s).state (b.exec e s').state) :
    Kept H b := by
  refine ⟨fun e s k _ => hsame e s k, fun _ _ => trivial, fun e s s' h _ => ?_⟩
  obtain ⟨hvalue, hpassed, hrest⟩ := heven e s s' h.1
  refine ⟨hvalue, hpassed, hrest, fun k hk => ?_⟩
  have hequiv := Table.equivalence_same k
  exact hequiv.trans (hequiv.symm (hsame e s k)) (hequiv.trans (h.2 k hk) (hsame e s' k))

/-- A statement that touches one table, under its mutex. -/
theorem kept_table {b : Sect α} (k : Table) (hk : k.mutex ∈ H)
    (hsame : ∀ e s k', k' ≠ k → Table.Same k' s (b.exec e s).state)
    (heven : ∀ e s s', Table.Rest s s' → Table.Same k s s' → (b.exec e s').value = (b.exec e s).value ∧
      (b.exec e s').passed = (b.exec e s).passed ∧ Table.Rest (b.exec e s).state (b.exec e s').state ∧
        Table.Same k (b.exec e s).state (b.exec e s').state) : Kept H b := by
  refine ⟨?_, fun _ _ => trivial, fun e s s' h _ => ?_⟩
  · intro e s k' hk'
    apply hsame
    rintro rfl
    exact hk' hk
  · obtain ⟨hvalue, hpassed, hrest, htable⟩ := heven e s s' h.1 (h.2 k hk)
    refine ⟨hvalue, hpassed, hrest, fun k' hk' => ?_⟩
    by_cases heq : k' = k
    · rw [heq]
      exact htable
    · have hequiv := Table.equivalence_same k'
      exact hequiv.trans (hequiv.symm (hsame e s k' heq)) (hequiv.trans (h.2 k' hk') (hsame e s' k' heq))

theorem Table.Rest.net_append (h : Table.Rest s s') (ops : List NetOp) :
    Table.Rest { s with net := s.net ++ ops } { s' with net := s'.net ++ ops } :=
  ⟨h.flag, h.database, h.cleanups, h.clock, congrArg (· ++ ops) h.net, h.drawn⟩

theorem Table.same_net (k : Table) (s : Globals) (net : List NetOp) : k.Same s { s with net := net } := by
  cases k <;> rfl

/-- A socket operation. -/
theorem kept_net (ops : List NetOp) : Kept H (.modify fun _ s => { s with net := s.net ++ ops }) := by
  apply kept_rest
  · exact fun _ s k => k.same_net s _
  · exact fun _ _ _ h => ⟨rfl, rfl, h.net_append ops⟩

theorem kept_sendToClient (sock : SOCKET) (text : Bytes) : Kept H (sendToClient sock text) :=
  kept_net [.sent sock text]

theorem kept_getCurrentTimestamp (k : Nat) : Kept H (getCurrentTimestamp k) :=
  Block.confined_read fun _ _ _ _ => rfl

theorem kept_generateRoomId : Kept H generateRoomId := by
  apply kept_rest
  · intro _ _ k
    cases k <;> rfl
  · intro e s s' h
    exact ⟨rfl, rfl, h.flag, h.database, h.cleanups, h.clock, h.net,
      congrArg (roomIdOf e.draw :: ·) h.drawn⟩

theorem kept_spawnCleanup (roomId : Bytes) : Kept H (spawnCleanup roomId) := by
  apply kept_rest
  · intro _ _ k
    cases k <;> rfl
  · intro _ _ _ h
    exact ⟨rfl, rfl, h.flag, h.database, congrArg (· ++ [roomId]) h.cleanups, h.clock, h.net, h.drawn⟩

theorem kept_tellDatabase (n : Nat) (f : Env → (Nat → Bool) → Database → Database) :
    Kept H (tellDatabase n f) := by
  apply kept_rest
  · intro _ _ k
    cases k <;> rfl
  · intro e s s' h
    exact ⟨rfl, rfl, h.flag, congrArg (f e fun i => e.calls (n + i)) h.database, h.cleanups, h.clock,
      h.net, h.drawn⟩

theorem kept_askDatabase (n : Nat) (f : Env → (Nat → Bool) → Database → α) :
    Kept H (askDatabase n f) := by
  apply kept_rest
  · intro _ _ k
    cases k <;> rfl
  · intro e s s' h
    exact ⟨congrArg (f e fun i => e.calls (n + i)) h.database, rfl, h⟩

/-! ### The clients -/

section Clients

variable (hH : Mutex.clientsMutex ∈ H) (sock : SOCKET)

include hH

/-- A statement that reads the clients. -/
theorem kept_readClients (f : Globals → α) (hf : ∀ s s', s'.clients = s.clients → f s' = f s) :
    Kept H (.read fun _ s => f s) :=
  Block.confined_read fun _ s s' h => hf s s' (h.2 .clients hH)

/-- A statement that updates the clients. -/
theorem kept_updateClients (f : Std.ExtTreeMap SOCKET ClientInfo → Std.ExtTreeMap SOCKET ClientInfo) :
    Kept H (.modify fun _ s => { s with clients := f s.clients }) := by
  apply kept_table .clients hH
  · intro _ _ k hk
    cases k <;> first | rfl | exact absurd rfl hk
  · intro _ s s' h hsame
    exact ⟨rfl, rfl, ⟨h.flag, h.database, h.cleanups, h.clock, h.net, h.drawn⟩, congrArg f hsame⟩

theorem kept_clientInfo : Kept H (clientInfo sock) :=
  kept_readClients hH (fun s => s.info sock) fun _ _ h => by rw [Globals.info, Globals.info, h]

theorem kept_setClientInfo (f : ClientInfo → ClientInfo) : Kept H (setClientInfo sock f) :=
  kept_updateClients hH fun clients => clients.insert sock (f (clients[sock]?.getD {}))

theorem kept_clientRef : Kept H (clientRef sock) :=
  Block.confined_bind (kept_clientInfo hH sock) fun info =>
    Block.confined_bind (kept_setClientInfo hH sock id) fun _ => Block.confined_pure info

end Clients

/-! ### The rooms -/

section Rooms

variable (hH : Mutex.chatRoomsMutex ∈ H) (roomId : Bytes)

include hH

/-- A statement that reads the rooms, and may pass through their mutexes. -/
theorem kept_readRooms (f : Globals → α) (passed : Globals → List Leaf)
    (hf : ∀ s s', s'.chatRooms = s.chatRooms → f s' = f s ∧ passed s' = passed s) :
    Kept H ⟨fun _ s => ⟨f s, s, passed s⟩⟩ := by
  apply kept_table .chatRooms hH
  · intro _ _ k _
    cases k <;> rfl
  · intro _ s s' h hsame
    exact ⟨(hf s s' hsame).1, (hf s s' hsame).2, h, hsame⟩

/-- A statement that updates the rooms at the reading of the clock. -/
theorem kept_updateRooms (f : Nat → Std.ExtTreeMap Bytes ChatRoom → Std.ExtTreeMap Bytes ChatRoom)
    (passed : List Leaf) :
    Kept H ⟨fun _ s => ⟨(), { s with chatRooms := f s.steadyNow s.chatRooms }, passed⟩⟩ := by
  apply kept_table .chatRooms hH
  · intro _ _ k hk
    cases k <;> first | rfl | exact absurd rfl hk
  · intro _ s s' h hsame
    refine ⟨rfl, rfl, ⟨h.flag, h.database, h.cleanups, h.clock, h.net, h.drawn⟩, ?_⟩
    show f s'.steadyNow s'.chatRooms = f s.steadyNow s.chatRooms
    rw [h.clock, show s'.chatRooms = s.chatRooms from hsame]

/-- A statement that sends what it reads in the rooms. -/
theorem kept_sendRooms (f : Std.ExtTreeMap Bytes ChatRoom → List NetOp)
    (passed : Std.ExtTreeMap Bytes ChatRoom → List Leaf) : Kept H ⟨fun _ s =>
      ⟨(), { s with net := s.net ++ f s.chatRooms }, passed s.chatRooms⟩⟩ := by
  apply kept_table .chatRooms hH
  · exact fun _ s k _ => k.same_net s _
  · intro _ s s' h hsame
    have hrooms : s'.chatRooms = s.chatRooms := hsame
    refine ⟨rfl, congrArg passed hrooms, ⟨h.flag, h.database, h.cleanups, h.clock, ?_, h.drawn⟩, hrooms⟩
    show s'.net ++ f s'.chatRooms = s.net ++ f s.chatRooms
    rw [hrooms, h.net]

theorem kept_roomExists : Kept H (roomExists roomId) :=
  kept_readRooms hH (fun s => s.chatRooms.contains roomId) (fun _ => []) fun _ _ h => by rw [h]; simp

theorem kept_askRoom [Inhabited α] (f : ChatRoom → α) : Kept H (askRoom roomId f) :=
  kept_readRooms hH (fun s => ((s.chatRooms[roomId]?).map f).getD default) (fun _ => [.roomMutex roomId])
    fun _ _ h => by rw [h]; simp

theorem kept_tellRoom (f : ChatRoom → ChatRoom) : Kept H (tellRoom roomId f) :=
  kept_updateRooms hH (fun _ rooms => rooms.modify roomId f) [.roomMutex roomId]

theorem kept_addClient (sock : SOCKET) : Kept H (addClient roomId sock) :=
  kept_updateRooms hH (fun now rooms => rooms.modify roomId fun room => room.addClient sock now)
    [.roomMutex roomId]

theorem kept_longestMember : Kept H (longestMember roomId) := by
  apply kept_table .chatRooms hH
  · intro _ _ k _
    cases k <;> rfl
  · intro _ s s' h hsame
    refine ⟨?_, rfl, h, hsame⟩
    show ((s'.chatRooms[roomId]?).map fun room => room.getLongestMember s'.steadyNow).getD INVALID_SOCKET = _
    rw [h.clock, show s'.chatRooms = s.chatRooms from hsame]
    rfl

theorem kept_broadcast (text : Bytes) (sock : SOCKET) : Kept H (broadcast roomId text sock) :=
  kept_sendRooms hH (fun rooms => ((rooms[roomId]?.map fun room : ChatRoom =>
    room.broadcastTargets sock).getD []).map fun t => .sent t text) fun _ => [.roomMutex roomId]

theorem kept_broadcastToAll (text : Bytes) : Kept H (broadcastToAll roomId text) :=
  kept_sendRooms hH (fun rooms => ((rooms[roomId]?.map fun room : ChatRoom =>
    room.broadcastToAllTargets).getD []).map fun t => .sent t text) fun _ => [.roomMutex roomId]

end Rooms

end Statements

/-! ## The critical sections -/

section Sections

variable {H : Set Mutex} (sock : SOCKET) (roomId : Bytes)

open Block

theorem kept_sweepRoom (hr : Mutex.chatRoomsMutex ∈ H) : Kept H (sweepRoom roomId) := by
  refine confined_bind (kept_roomExists hr roomId) fun _ => confined_ite ?_ (confined_pure _)
  refine confined_bind (kept_askRoom hr roomId _) fun _ => confined_ite ?_ (confined_pure _)
  refine confined_bind ?_ fun _ => kept_tellDatabase 0 _
  exact kept_updateRooms hr (fun _ rooms => rooms.erase roomId) []

theorem kept_departRoom (hr : Mutex.chatRoomsMutex ∈ H) (username : Bytes) :
    Kept H (departRoom roomId username sock) := by
  refine confined_bind (kept_getCurrentTimestamp 0) fun _ => ?_
  exact confined_bind (kept_broadcast hr roomId _ sock) fun _ => kept_tellRoom hr roomId _

theorem kept_leaveRoom (hr : Mutex.chatRoomsMutex ∈ H) (username : Bytes) :
    Kept H (leaveRoom roomId username sock) := by
  refine confined_bind (kept_roomExists hr roomId) fun _ => confined_ite ?_ (confined_pure _)
  refine confined_bind (kept_departRoom sock roomId hr username) fun _ => ?_
  exact confined_bind (kept_askRoom hr roomId _) fun _ =>
    confined_ite (kept_spawnCleanup roomId) (confined_pure _)

theorem kept_sendHistory (hr : Mutex.chatRoomsMutex ∈ H) : Kept H (sendHistory sock roomId) := by
  have hsend : ∀ history : List Bytes, Kept H (if history.isEmpty then pure () else do
      sendToClient sock (str "MESSAGE_HISTORY_START\n")
      .modify fun _ s => { s with net := s.net ++ history.map fun msg => .replayed sock msg }
      sendToClient sock (str "MESSAGE_HISTORY_END\n")) := by
    intro history
    refine confined_ite (confined_pure _) ?_
    exact confined_bind (kept_sendToClient sock _) fun _ =>
      confined_bind (kept_net _) fun _ => kept_sendToClient sock _
  refine confined_bind (kept_askDatabase 2 _) fun stored => ?_
  -- from memory when the file has nothing
  exact confined_ite (confined_bind (kept_askRoom hr roomId _) hsend)
    (confined_bind (confined_pure _) hsend)

theorem kept_admitClient (hr : Mutex.chatRoomsMutex ∈ H) (hc : Mutex.clientsMutex ∈ H)
    (client : ClientInfo) : Kept H (admitClient sock client roomId) := by
  refine confined_bind (confined_ite (confined_pure _) (kept_leaveRoom sock _ hr _)) fun _ => ?_
  refine confined_bind (kept_addClient hr roomId sock) fun _ => ?_
  refine confined_bind (kept_setClientInfo hc sock _) fun _ => ?_
  refine confined_bind (kept_sendToClient sock _) fun _ => ?_
  refine confined_bind (kept_sendHistory sock roomId hr) fun _ => ?_
  exact confined_bind (kept_getCurrentTimestamp 1) fun _ => kept_broadcast hr roomId _ sock

theorem kept_joinRoom (hr : Mutex.chatRoomsMutex ∈ H) (hc : Mutex.clientsMutex ∈ H)
    (client : ClientInfo) (password : Bytes) : Kept H (joinRoom sock client roomId password) := by
  have hadmit := kept_admitClient sock roomId hr hc client
  have hverify : ∀ accepted : Bool, Kept H (if !accepted then sendToClient sock (str "WRONG_PASSWORD\n")
      else admitClient sock client roomId) := fun _ => confined_ite (kept_sendToClient sock _) hadmit
  have hbanned : ∀ banned : Bool, Kept H (if banned then
      sendToClient sock (errorText "You are banned from this room")
    else do
      let isPrivate ← askRoom roomId ChatRoom.isPrivate
      if isPrivate && password.isEmpty then
        sendToClient sock (str "PASSWORD_REQUIRED\n")
      else
        let accepted ← if isPrivate then askRoom roomId fun room => room.verifyPassword password
          else pure true
        if !accepted then
          sendToClient sock (str "WRONG_PASSWORD\n")
        else
          admitClient sock client roomId) := by
    intro banned
    refine confined_ite (kept_sendToClient sock _) ?_
    refine confined_bind (kept_askRoom hr roomId _) fun isPrivate => ?_
    refine confined_ite (kept_sendToClient sock _) ?_
    exact confined_ite (confined_bind (kept_askRoom hr roomId _) hverify)
      (confined_bind (confined_pure _) hverify)
  refine confined_bind (kept_roomExists hr roomId) fun found => ?_
  refine confined_ite (kept_sendToClient sock _) ?_
  refine confined_bind (kept_askRoom hr roomId _) fun banned => ?_
  exact confined_ite (confined_bind (confined_pure _) hbanned)
    (confined_bind (kept_askDatabase 0 _) hbanned)

theorem kept_expelBanned (hr : Mutex.chatRoomsMutex ∈ H) (username : Bytes) :
    Kept H (expelBanned roomId username sock) := by
  refine confined_bind (kept_getCurrentTimestamp 0) fun _ => ?_
  refine confined_bind (kept_sendToClient sock _) fun _ => ?_
  refine confined_bind (kept_sendToClient sock _) fun _ => ?_
  refine confined_bind (kept_getCurrentTimestamp 1) fun _ => ?_
  exact confined_bind (kept_broadcastToAll hr roomId _) fun _ => kept_tellRoom hr roomId _

theorem kept_chooseNewOwner (hr : Mutex.chatRoomsMutex ∈ H) : Kept H (chooseNewOwner roomId sock) := by
  refine confined_bind (kept_askRoom hr roomId _) fun _ => confined_ite ?_ (confined_pure _)
  refine confined_bind (kept_longestMember hr roomId) fun _ => confined_ite ?_ (confined_pure _)
  exact confined_bind (kept_askRoom hr roomId _) fun _ => confined_pure _

theorem kept_promoteNewOwner (hr : Mutex.chatRoomsMutex ∈ H) (hc : Mutex.clientsMutex ∈ H) :
    Kept H (promoteNewOwner roomId sock) := by
  refine confined_bind (kept_readClients hc (fun s => s.clients.contains sock) fun _ _ h => by rw [h])
    fun _ => confined_ite ?_ (confined_pure _)
  refine confined_bind (kept_clientInfo hc sock) fun _ => ?_
  refine confined_bind (kept_setClientInfo hc sock _) fun _ => ?_
  exact confined_bind (kept_tellRoom hr roomId _) fun _ => confined_pure _

theorem kept_announceForceLeave (hr : Mutex.chatRoomsMutex ∈ H) (username newOwnerName : Bytes)
    (newOwner : SOCKET) : Kept H (announceForceLeave roomId username newOwnerName newOwner sock) := by
  refine confined_bind (kept_getCurrentTimestamp 0) fun _ => ?_
  refine confined_bind (confined_ite (confined_pure _) ?_) fun _ => ?_
  · refine confined_bind (kept_getCurrentTimestamp 1) fun _ => ?_
    exact confined_bind (kept_broadcastToAll hr roomId _) fun _ => kept_sendToClient newOwner _
  refine confined_bind (kept_broadcast hr roomId _ sock) fun _ => ?_
  refine confined_bind (kept_tellRoom hr roomId _) fun _ => ?_
  exact confined_bind (kept_askRoom hr roomId _) fun _ =>
    confined_ite (kept_spawnCleanup roomId) (confined_pure _)

end Sections

/-! ## The handlers -/

/-- Started with `H`, the program touches only what it holds the mutex of, and ends with `H`. -/
def Confines {α : Type} (H : Set Mutex) (p : Thread α) : Prop := p.Confined guards (fun _ H' => H' = H) H

section Rules

variable {α β : Type} {H : Set Mutex}

theorem confines_pure (a : α) : Confines H (pure a : Thread α) := rfl

theorem confines_seq {p : Thread α} {f : α → Thread β} (hp : Confines H p)
    (hf : ∀ a, Confines H (f a)) : Confines H (p >>= f) := by
  apply Prog.confined_bind f p H
  refine Prog.confined_mono ?_ p H hp
  rintro a _ rfl
  exact hf a

theorem confines_ite {c : Prop} [Decidable c] {p p' : Thread α} (hp : Confines H p)
    (hp' : Confines H p') : Confines H (if c then p else p') := by
  split
  · exact hp
  · exact hp'

theorem confines_step (hleaf : ∀ l, Mutex.leaf l ∉ H) {b : Sect α} (hb : Kept H b) :
    Confines H (step b) := by
  show (Prog.block Mutex.leaf b).Confined guards (fun _ H' => H' = H) H
  exact Prog.confined_block Mutex.leaf hleaf hb fun _ => rfl

theorem confines_holding {m : Mutex} (hm : m ∉ H) {p : Thread α} (hp : Confines (insert m H) p) :
    Confines H (Prog.holding m p) := by
  apply Prog.confined_holding hm
  exact Prog.confined_mono (fun _ _ h => ⟨h, rfl⟩) p _ hp

theorem confines_critical {m : Mutex} (hm : m ∉ H) (hleaf : ∀ l, Mutex.leaf l ∉ insert m H)
    {b : Sect α} (hb : Kept (insert m H) b) : Confines H (critical m b) :=
  confines_holding hm (confines_step hleaf hb)

/-- A step without a mutex. -/
theorem confines_free {b : Sect α} (hb : Kept ∅ b) : Confines ∅ (step b) := confines_step (by simp) hb

/-- A critical section of its own. -/
theorem confines_alone {k : Table} {b : Sect α} (hb : Kept (insert k.mutex ∅) b) :
    Confines ∅ (critical k.mutex b) := by
  refine confines_critical (by simp) ?_ hb
  cases k <;> simp [Table.mutex]

end Rules

section Handlers

variable {α : Type} (sock : SOCKET)

/-- The mutexes held under `g_clientsMutex`, under `g_chatRoomsMutex`, and under both. -/
abbrev underClients : Set Mutex := insert .clientsMutex ∅

abbrev underRooms : Set Mutex := insert .chatRoomsMutex ∅

theorem confines_reply (text : Bytes) : Confines ∅ (reply sock text) :=
  confines_free (kept_sendToClient sock text)

theorem confines_clients {b : Sect α} (hb : Kept underClients b) : Confines ∅ (critical .clientsMutex b) :=
  confines_alone (k := .clients) hb

theorem confines_rooms {b : Sect α} (hb : Kept underRooms b) : Confines ∅ (critical .chatRoomsMutex b) :=
  confines_alone (k := .chatRooms) hb

theorem confines_polled {b : Sect α} (hb : Kept (insert .pollFdsMutex ∅) b) :
    Confines ∅ (critical .pollFdsMutex b) :=
  confines_alone (k := .pollFds) hb

/-- A step under `g_chatRoomsMutex`. -/
theorem confines_underRooms {b : Sect α} (hb : Kept underRooms b) : Confines underRooms (step b) :=
  confines_step (by simp) hb

/-- `g_clientsMutex` inside `g_chatRoomsMutex`. -/
theorem confines_clients_inside {b : Sect α} (hb : Kept (insert .clientsMutex underRooms) b) :
    Confines underRooms (critical .clientsMutex b) :=
  confines_critical (by simp) (by simp) hb

/-- `g_chatRoomsMutex` inside `g_clientsMutex`. -/
theorem confines_rooms_inside {b : Sect α} (hb : Kept (insert .chatRoomsMutex underClients) b) :
    Confines underClients (critical .chatRoomsMutex b) :=
  confines_critical (by simp) (by simp) hb

theorem confines_clientInfo : Confines ∅ (critical .clientsMutex (clientInfo sock)) :=
  confines_clients (kept_clientInfo (by simp) sock)

theorem confines_setClientInfo (f : ClientInfo → ClientInfo) :
    Confines ∅ (critical .clientsMutex (setClientInfo sock f)) :=
  confines_clients (kept_setClientInfo (by simp) sock f)

theorem confines_cleanupEmptyRoom (roomId : Bytes) : Confines ∅ (cleanupEmptyRoom roomId) :=
  confines_rooms (kept_sweepRoom roomId (by simp))

theorem confines_findClientByUsername (username roomId : Bytes) {H : Set Mutex}
    (hm : Mutex.clientsMutex ∉ H) (hleaf : ∀ l, Mutex.leaf l ∉ H) :
    Confines H (findClientByUsername username roomId) := by
  refine confines_critical hm (by simpa using hleaf) ?_
  refine kept_readClients (by simp) (fun s => s.findClientByUsername username roomId) ?_
  intro s s' h
  simp only [Globals.findClientByUsername, h]

theorem confines_removeClientFromRoom : Confines ∅ (removeClientFromRoom sock) := by
  refine confines_seq (confines_clientInfo sock) fun client => confines_ite (confines_pure _) ?_
  refine confines_seq (confines_rooms ?_) fun _ => ?_
  · exact Block.confined_bind (kept_roomExists (by simp) _) fun _ =>
      Block.confined_ite (kept_departRoom sock _ (by simp) _) (Block.confined_pure _)
  · exact confines_seq (confines_setClientInfo sock _) fun _ => confines_cleanupEmptyRoom _

theorem confines_makeRoom (client : ClientInfo) (roomId : Bytes) (isPrivate : Bool) (password : Bytes) :
    Confines ∅ (makeRoom sock client roomId isPrivate password) := by
  refine confines_seq (confines_rooms ?_) fun _ => ?_
  · refine Block.confined_bind ?_ fun _ => kept_addClient (by simp) roomId sock
    exact kept_updateRooms (by simp)
      (fun _ rooms => rooms.insert roomId (ChatRoom.new roomId isPrivate password sock)) []
  · refine confines_seq (confines_setClientInfo sock _) fun _ => ?_
    exact confines_seq (confines_free (kept_tellDatabase 0 _)) fun _ => confines_reply sock _

theorem confines_handleCreateCommand (params : Bytes) : Confines ∅ (handleCreateCommand sock params) := by
  refine confines_ite (confines_reply sock _) ?_
  refine confines_seq (confines_free kept_generateRoomId) fun roomId => ?_
  refine confines_seq (confines_holding (by simp) ?_) fun client => confines_makeRoom sock client roomId _ _
  -- the creator leaves its room under both mutexes
  refine confines_seq (confines_step (by simp) (kept_clientRef (by simp) sock)) fun client => ?_
  refine confines_ite (confines_pure _) ?_
  exact confines_seq (confines_rooms_inside (kept_leaveRoom sock _ (by simp) _)) fun _ => confines_pure _

theorem confines_handleJoinCommand (params : Bytes) : Confines ∅ (handleJoinCommand sock params) := by
  refine confines_ite (confines_reply sock _) (confines_holding (by simp) ?_)
  refine confines_seq (confines_step (by simp) (kept_clientRef (by simp) sock)) fun client => ?_
  refine confines_ite (confines_step (by simp) (kept_sendToClient sock _)) ?_
  exact confines_rooms_inside (kept_joinRoom sock _ (by simp) (by simp) client _)

theorem confines_handleSetNameCommand (name : Bytes) : Confines ∅ (handleSetNameCommand sock name) := by
  refine confines_ite (confines_reply sock _) ?_
  refine confines_seq (confines_clients ?_) fun available => confines_ite (confines_reply sock _) ?_
  · refine kept_readClients (by simp) (fun s => s.isUsernameAvailable (trim name) sock) ?_
    intro s s' h
    simp only [Globals.isUsernameAvailable, h]
  · exact confines_seq (confines_setClientInfo sock _) fun _ => confines_reply sock _

theorem confines_handleListCommand : Confines ∅ (handleListCommand sock) := by
  have hr : Mutex.chatRoomsMutex ∈ underRooms := by simp
  refine confines_rooms ?_
  exact kept_sendRooms hr (fun rooms => [.sent sock (str "ROOMS_LIST:" ++
    rooms.toList.flatMap (fun p => roomEntry p.1 p.2) ++ str "\n")])
    fun rooms => rooms.toList.flatMap fun p => [.roomMutex p.1, .roomMutex p.1]

theorem confines_handleGetPasswordCommand : Confines ∅ (handleGetPasswordCommand sock) := by
  refine confines_seq (confines_clientInfo sock) fun client => confines_ite (confines_reply sock _) ?_
  refine confines_ite (confines_reply sock _) (confines_rooms ?_)
  refine Block.confined_bind (kept_roomExists (by simp) _) fun _ =>
    Block.confined_ite ?_ (Block.confined_pure _)
  refine Block.confined_bind (kept_askRoom (by simp) _ _) fun _ => Block.confined_ite ?_ ?_
  · exact Block.confined_bind (kept_askRoom (by simp) _ _) fun _ => kept_sendToClient sock _
  · exact kept_sendToClient sock _

theorem confines_handleUsersCommand : Confines ∅ (handleUsersCommand sock) := by
  refine confines_seq (confines_clientInfo sock) fun client => confines_ite (confines_reply sock _) ?_
  refine confines_holding (by simp) ?_
  refine confines_seq (confines_underRooms (kept_roomExists (by simp) _)) fun _ =>
    confines_ite ?_ (confines_pure _)
  refine confines_seq (confines_underRooms (kept_askRoom (by simp) _ _)) fun members => ?_
  refine confines_clients_inside (kept_table .clients (by simp [Table.mutex]) ?_ ?_)
  · exact fun _ s k _ => k.same_net s _
  · intro _ s s' h hsame
    have hclients : s'.clients = s.clients := hsame
    refine ⟨rfl, rfl, ⟨h.flag, h.database, h.cleanups, h.clock, ?_, h.drawn⟩, hclients⟩
    show s'.net ++ [.sent sock (str "USERS_LIST:" ++ userEntries s' members ++ str "\n")] = _
    simp only [userEntries, hclients, h.net]
    rfl

theorem confines_handleKickCommand (params : Bytes) : Confines ∅ (handleKickCommand sock params) := by
  refine confines_ite (confines_reply sock _) (confines_seq (confines_clientInfo sock) fun client => ?_)
  refine confines_ite (confines_reply sock _) (confines_ite (confines_reply sock _) ?_)
  refine confines_ite (confines_reply sock _) ?_
  refine confines_seq (confines_findClientByUsername _ _ (by simp) (by simp)) fun target => ?_
  refine confines_ite (confines_reply sock _) ?_
  refine confines_seq (confines_free ?_) fun _ => confines_seq (confines_reply target _) fun _ => ?_
  · exact Block.confined_bind (kept_getCurrentTimestamp 0) fun _ => kept_sendToClient target _
  refine confines_seq (confines_rooms ?_) fun _ => confines_setClientInfo target _
  refine Block.confined_bind (kept_roomExists (by simp) _) fun _ =>
    Block.confined_ite ?_ (Block.confined_pure _)
  refine Block.confined_bind (kept_getCurrentTimestamp 0) fun _ => ?_
  exact Block.confined_bind (kept_broadcastToAll (by simp) _ _) fun _ => kept_tellRoom (by simp) _ _

theorem confines_handleBanCommand (params : Bytes) : Confines ∅ (handleBanCommand sock params) := by
  refine confines_ite (confines_reply sock _) (confines_seq (confines_clientInfo sock) fun client => ?_)
  refine confines_ite (confines_reply sock _) (confines_ite (confines_reply sock _) ?_)
  refine confines_ite (confines_reply sock _) ?_
  refine confines_seq (confines_findClientByUsername _ _ (by simp) (by simp)) fun target => ?_
  refine confines_holding (by simp) ?_
  refine confines_seq (confines_underRooms (kept_roomExists (by simp) _)) fun _ =>
    confines_ite ?_ (confines_pure _)
  have hanswer : Confines underRooms (reply sock
      (str "SUCCESS: User " ++ trim params ++ str " has been banned\n")) :=
    confines_underRooms (kept_sendToClient sock _)
  refine confines_seq (confines_underRooms ?_) fun _ => confines_ite hanswer ?_
  · exact Block.confined_bind (kept_tellRoom (by simp) _ _) fun _ => kept_tellDatabase 0 _
  · refine confines_seq (confines_underRooms (kept_expelBanned target _ (by simp) _)) fun _ => ?_
    exact confines_seq (confines_clients_inside (kept_setClientInfo (by simp) target _)) fun _ => hanswer

theorem confines_handleTransferCommand (params : Bytes) :
    Confines ∅ (handleTransferCommand sock params) := by
  refine confines_ite (confines_reply sock _) (confines_seq (confines_clientInfo sock) fun client => ?_)
  refine confines_ite (confines_reply sock _) (confines_ite (confines_reply sock _) ?_)
  refine confines_ite (confines_reply sock _) ?_
  refine confines_seq (confines_findClientByUsername _ _ (by simp) (by simp)) fun target => ?_
  refine confines_ite (confines_reply sock _) (confines_holding (by simp) ?_)
  refine confines_seq (confines_underRooms (kept_roomExists (by simp) _)) fun _ =>
    confines_ite ?_ (confines_pure _)
  refine confines_seq (confines_underRooms (kept_tellRoom (by simp) _ _)) fun _ => ?_
  -- both flags, the database and the notices under both mutexes
  refine confines_clients_inside ?_
  refine Block.confined_bind (kept_setClientInfo (by simp) sock _) fun _ => ?_
  refine Block.confined_bind (kept_setClientInfo (by simp) target _) fun _ => ?_
  refine Block.confined_bind (kept_tellDatabase 0 _) fun _ => ?_
  refine Block.confined_bind (kept_getCurrentTimestamp 0) fun _ => ?_
  refine Block.confined_bind (kept_broadcastToAll (by simp) _ _) fun _ => ?_
  exact Block.confined_bind (kept_sendToClient sock _) fun _ => kept_sendToClient target _

theorem confines_handleLeaveCommand : Confines ∅ (handleLeaveCommand sock) := by
  refine confines_seq (confines_clientInfo sock) fun client => confines_ite (confines_reply sock _) ?_
  refine confines_ite (confines_reply sock _) ?_
  refine confines_seq (confines_rooms (kept_leaveRoom sock _ (by simp) _)) fun _ => ?_
  exact confines_seq (confines_setClientInfo sock _) fun _ => confines_reply sock _

theorem confines_handOverRoom (client : ClientInfo) : Confines ∅ (handOverRoom sock client) := by
  refine confines_holding (by simp) ?_
  refine confines_seq (confines_underRooms (kept_roomExists (by simp) _)) fun _ =>
    confines_ite ?_ (confines_pure _)
  refine confines_seq (confines_underRooms (kept_chooseNewOwner sock _ (by simp))) fun newOwner => ?_
  refine confines_seq (confines_ite (confines_clients_inside ?_) (confines_pure _)) fun name => ?_
  · exact kept_promoteNewOwner newOwner _ (by simp) (by simp)
  · exact confines_underRooms (kept_announceForceLeave sock _ (by simp) _ name newOwner)

theorem confines_handleForceLeaveCommand : Confines ∅ (handleForceLeaveCommand sock) := by
  refine confines_seq (confines_clientInfo sock) fun client => confines_ite (confines_reply sock _) ?_
  refine confines_ite (confines_reply sock _) ?_
  refine confines_seq (confines_handOverRoom sock client) fun _ => ?_
  exact confines_seq (confines_setClientInfo sock _) fun _ => confines_reply sock _

theorem confines_handleChangePasswordCommand (params : Bytes) :
    Confines ∅ (handleChangePasswordCommand sock params) := by
  refine confines_ite (confines_reply sock _) (confines_seq (confines_clientInfo sock) fun client => ?_)
  refine confines_ite (confines_reply sock _) (confines_ite (confines_reply sock _) (confines_rooms ?_))
  refine Block.confined_bind (kept_roomExists (by simp) _) fun _ =>
    Block.confined_ite ?_ (Block.confined_pure _)
  refine Block.confined_bind (kept_askRoom (by simp) _ _) fun _ =>
    Block.confined_ite (kept_sendToClient sock _) ?_
  refine Block.confined_bind (kept_tellRoom (by simp) _ _) fun _ => ?_
  refine Block.confined_bind (kept_tellDatabase 0 _) fun _ => ?_
  refine Block.confined_bind (kept_sendToClient sock _) fun _ => ?_
  exact Block.confined_bind (kept_getCurrentTimestamp 0) fun _ => kept_broadcast (by simp) _ _ sock

theorem confines_runCommand (c : Command) : Confines ∅ (runCommand sock c) := by
  cases c with
  | create params => exact confines_handleCreateCommand sock params
  | join params => exact confines_handleJoinCommand sock params
  | setName name => exact confines_handleSetNameCommand sock name
  | list => exact confines_handleListCommand sock
  | getPassword => exact confines_handleGetPasswordCommand sock
  | users => exact confines_handleUsersCommand sock
  | kick params => exact confines_handleKickCommand sock params
  | ban params => exact confines_handleBanCommand sock params
  | transfer params => exact confines_handleTransferCommand sock params
  | leave => exact confines_handleLeaveCommand sock
  | forceLeave => exact confines_handleForceLeaveCommand sock
  | changePassword params => exact confines_handleChangePasswordCommand sock params
  | unknown => exact confines_reply sock _

/-- A critical section that updates the poll table. -/
theorem confines_updatePolled (f : List SOCKET → List SOCKET) :
    Confines ∅ (critical .pollFdsMutex (.modify fun _ s => { s with pollFds := f s.pollFds })) := by
  refine confines_polled (kept_table .pollFds (by simp [Table.mutex]) ?_ ?_)
  · intro _ _ k hk
    cases k <;> first | rfl | exact absurd rfl hk
  · intro _ s s' h hsame
    exact ⟨rfl, rfl, ⟨h.flag, h.database, h.cleanups, h.clock, h.net, h.drawn⟩, congrArg f hsame⟩

/-- A critical section on the queue that depends on nothing else. -/
theorem kept_queue {H : Set Mutex} (hH : Mutex.queueMutex ∈ H) (f : List Message → α × List Message) :
    Kept H ⟨fun _ s => ⟨(f s.messageQueue).1, { s with messageQueue := (f s.messageQueue).2 }, []⟩⟩ := by
  apply kept_table .messageQueue hH
  · intro _ _ k hk
    cases k <;> first | rfl | exact absurd rfl hk
  · intro _ s s' h hsame
    have hqueue : s'.messageQueue = s.messageQueue := hsame
    refine ⟨?_, rfl, ⟨h.flag, h.database, h.cleanups, h.clock, h.net, h.drawn⟩, ?_⟩
    · show (f s'.messageQueue).1 = (f s.messageQueue).1
      rw [hqueue]
    · show (f s'.messageQueue).2 = (f s.messageQueue).2
      rw [hqueue]

theorem confines_pushMessage (msg : Message) : Confines ∅ (pushMessage msg) :=
  confines_alone (k := .messageQueue)
    (kept_queue (by simp [Table.mutex]) fun queue => ((), queue ++ [msg]))

theorem confines_runRequest (r : Request) : Confines ∅ (runRequest sock r) := by
  cases r with
  | command c => exact confines_runCommand sock c
  | badPrivateMessage => exact confines_reply sock _
  | privateMessage recipientName content =>
      refine confines_seq (confines_clientInfo sock) fun client => confines_ite (confines_reply sock _) ?_
      exact confines_ite (confines_reply sock _) (confines_pushMessage _)
  | chat text =>
      refine confines_seq (confines_clientInfo sock) fun client => confines_ite (confines_reply sock _) ?_
      exact confines_pushMessage _

/-- Every handler touches the tables under their mutexes. -/
theorem confines_handler (ev : Event) : Confines ∅ ev.handler := by
  cases ev with
  | connect sock =>
      refine confines_seq (confines_free (kept_net [.accepted sock])) fun _ => ?_
      refine confines_seq (confines_clients ?_) fun _ => ?_
      · exact kept_updateClients (by simp) fun clients => clients.insert sock {}
      · exact confines_seq (confines_updatePolled fun polled => polled ++ [sock]) fun _ =>
          confines_reply sock _
  | hangup sock =>
      refine confines_seq (confines_removeClientFromRoom sock) fun _ => ?_
      refine confines_seq (confines_clients ?_) fun _ => ?_
      · exact kept_updateClients (by simp) fun clients => clients.erase sock
      · exact confines_seq (confines_free (kept_net [.closed sock])) fun _ =>
          confines_updatePolled fun polled => polled.erase sock
  | receive sock buffer =>
      show Confines ∅ (handleClientMessage sock buffer)
      rw [handleClientMessage]
      split
      · exact confines_pure _
      · exact confines_runRequest sock _

end Handlers

/-! ## The other threads -/

theorem confines_deliverMessage (message : Message) : Confines ∅ (deliverMessage message) := by
  refine confines_holding (by simp) ?_
  refine confines_seq (confines_underRooms (kept_roomExists (by simp) _)) fun _ =>
    confines_ite (confines_ite ?_ ?_) (confines_pure _)
  · -- a private message
    refine confines_seq (confines_findClientByUsername _ _ (by simp) (by simp)) fun recipient => ?_
    apply confines_underRooms
    rw [deliverPrivate]
    refine Block.confined_ite (kept_sendToClient _ _) ?_
    refine Block.confined_bind (kept_getCurrentTimestamp 0) fun _ => ?_
    refine Block.confined_bind (kept_sendToClient _ _) fun _ => ?_
    exact Block.confined_bind (kept_sendToClient _ _) fun _ => kept_tellDatabase 0 _
  · -- a message to all
    refine confines_underRooms (Block.confined_bind (kept_getCurrentTimestamp 0) fun _ => ?_)
    refine Block.confined_bind (kept_tellRoom (by simp) _ _) fun _ => ?_
    exact Block.confined_bind (kept_broadcast (by simp) _ _ _) fun _ => kept_tellDatabase 0 _

/-- A round of the broadcaster. -/
theorem confines_broadcastRound : Confines ∅ broadcastRound := by
  refine confines_seq (confines_free ?_) fun stop => confines_ite (confines_pure _) ?_
  · exact Block.confined_read fun _ _ _ h => h.1.flag
  have hq : Mutex.queueMutex ∈ (insert .queueMutex ∅ : Set Mutex) := by simp
  refine confines_seq (confines_holding (by simp) ?_) fun message => ?_
  · refine confines_seq (confines_step (by simp) ?_) fun ready => ?_
    · refine Block.confined_read fun _ s s' h => ?_
      have hqueue : s'.messageQueue = s.messageQueue := h.2 .messageQueue hq
      rw [hqueue, h.1.flag]
    have hpop : Confines (insert .queueMutex ∅) (step popMessage) :=
      confines_step (by simp) (kept_queue hq fun queue => (queue.head?, queue.tail))
    split
    · exact hpop
    · -- the wait gives the mutex away and takes it again
      refine confines_seq ⟨hq, ?_⟩ fun _ => hpop
      show insert Mutex.queueMutex (insert Mutex.queueMutex ∅ \ {Mutex.queueMutex}) =
        (insert Mutex.queueMutex ∅ : Set Mutex)
      simp
  · cases message with
    | none => exact confines_pure _
    | some message => exact confines_deliverMessage message

/-- The end of `main`. -/
theorem confines_clearTables : Confines ∅ clearTables := by
  refine confines_seq (confines_polled (kept_table .pollFds (by simp [Table.mutex]) ?_ ?_)) fun _ => ?_
  · intro _ _ k hk
    cases k <;> first | rfl | exact absurd rfl hk
  · intro _ s s' h hsame
    have hpolled : s'.pollFds = s.pollFds := hsame
    refine ⟨rfl, rfl, ⟨h.flag, h.database, h.cleanups, h.clock, ?_, h.drawn⟩, rfl⟩
    show s'.net ++ ((s'.pollFds.drop 1).filter _).map .closed = _
    rw [hpolled, h.net]
    rfl
  refine confines_seq (confines_rooms (kept_updateRooms (by simp) (fun _ _ => ∅) [])) fun _ => ?_
  exact confines_clients (kept_updateClients (by simp) fun _ => ∅)

/-! ## Whole runs -/

namespace Machine

variable {m m' : Machine} {l : Label}

/-- Every thread touches the tables under their mutexes only. -/
structure Fenced (m : Machine) : Prop where
  confined : m.config.Confined guards
  asleep : m.Asleep

theorem fenced_boot (db : Database) (listenSocket : SOCKET) : Fenced (boot db listenSocket) := by
  refine ⟨fun t => ?_, fun _ _ => rfl⟩
  show {m | (none : Option Tid) = some t} = (∅ : Set Mutex)
  simp

/-- A finished thread is started on a program that touches the tables under their mutexes. -/
theorem Fenced.start (h : m.Fenced) {t : Tid} (hdone : (m.config.prog t).isDone = true)
    {p : Thread Unit} (hp : Confines ∅ p) : (m.config.start t p).Confined guards :=
  Config.confined_start h.confined hdone hp

theorem Fenced.next (h : m.Fenced) (hnext : m.next l = some m') : m'.Fenced := by
  have hasleep := h.asleep.next hnext
  cases l with
  | event ev =>
      simp only [Machine.next, Option.ite_none_right_eq_some, Option.some.injEq] at hnext
      obtain ⟨⟨hidle, -⟩, rfl⟩ := hnext
      exact ⟨h.start hidle (confines_handler ev), hasleep⟩
  | round =>
      simp only [Machine.next, Option.ite_none_right_eq_some, Option.some.injEq] at hnext
      obtain ⟨hdone, rfl⟩ := hnext
      exact ⟨h.start hdone confines_broadcastRound, hasleep⟩
  | wake i =>
      simp only [Machine.next] at hnext
      split at hnext
      · simp only [Option.some.injEq] at hnext
        subst hnext
        refine ⟨?_, hasleep⟩
        exact Config.confined_start (Config.confined_setShared h.confined _) (h.asleep m.woken le_rfl)
          (confines_cleanupEmptyRoom _)
      · cases hnext
  | run t e =>
      simp only [Machine.next, Option.map_eq_some_iff] at hnext
      obtain ⟨c, hc, rfl⟩ := hnext
      exact ⟨h.confined.stepThread hc, hasleep⟩
  | tick d =>
      simp only [Machine.next, Option.some.injEq] at hnext
      subst hnext
      exact ⟨Config.confined_setShared h.confined _, hasleep⟩
  | signal =>
      simp only [Machine.next, Option.some.injEq] at hnext
      subst hnext
      exact ⟨Config.confined_setShared h.confined _, hasleep⟩

/-- The next step of the thread is an action that may change the table or depends on it. -/
def Touches (m : Machine) (t : Tid) (k : Table) : Prop := m.config.Touches guards t k

end Machine

namespace Process

open PollLoop

variable {listenSocket : SOCKET} {p p' : Process}

/-- The threads are fenced, and `main` waits for the broadcaster only when it has nothing to do. -/
structure Fenced (p : Process) : Prop where
  machine : p.machine.Fenced
  top : p.phase = .joining → p.loop.Top

theorem Fenced.next {l : ProcessLabel} (h : p.Fenced) (hnext : p.next listenSocket l = some p') :
    p'.Fenced := by
  cases l with
  | loop l =>
      simp only [Process.next, Option.ite_none_right_eq_some, Option.map_eq_some_iff] at hnext
      obtain ⟨hoccurs, loop', hloop, rfl⟩ := hnext
      constructor
      · show loop'.machine.Fenced
        rcases machine_of_loop hloop with ⟨hmachine, -⟩ | ⟨l', hm', -⟩
        · rw [hmachine]
          exact h.machine
        · exact h.machine.next hm'
      · intro hjoining
        exact top_of_joining (p := p) hjoining (h.top hjoining) hoccurs hloop
  | leave pollFailed =>
      simp only [Process.next, Option.ite_none_right_eq_some, Option.some.injEq] at hnext
      obtain ⟨⟨-, htop, -⟩, rfl⟩ := hnext
      exact ⟨h.machine, fun _ => htop⟩
  | join =>
      simp only [Process.next, Option.ite_none_right_eq_some, Option.some.injEq] at hnext
      obtain ⟨⟨hjoining, -, -⟩, rfl⟩ := hnext
      refine ⟨⟨h.machine.start (h.top hjoining).2 confines_clearTables, ?_⟩, fun hphase => by cases hphase⟩
      exact Machine.asleep_start (s := p.machine.globals) h.machine.asleep (by simp) _
  | exit =>
      simp only [Process.next, Option.ite_none_right_eq_some, Option.some.injEq] at hnext
      obtain ⟨-, rfl⟩ := hnext
      exact ⟨h.machine, fun hphase => by cases hphase⟩

theorem fenced_of_run {db : Database} {ls : List ProcessLabel}
    (hrun : (boot db listenSocket).run listenSocket ls = some p) : p.Fenced := by
  induction ls using List.reverseRecOn generalizing p with
  | nil =>
      obtain rfl := Option.some.inj hrun
      exact ⟨Machine.fenced_boot db listenSocket, fun hphase => by cases hphase⟩
  | append_singleton ls l ih =>
      rw [run_append, Option.bind_eq_some_iff] at hrun
      obtain ⟨before, hbefore, hnext⟩ := hrun
      exact (ih hbefore).next hnext

/-- **No data race.** In every run of the process a thread touches `g_chatRooms`, `g_clients`,
`g_messageQueue` or the poll table only while it owns the mutex of the table, so two threads are never about
to touch the same table. -/
theorem no_data_race (db : Database) (listenSocket : SOCKET) (ls : List ProcessLabel) (p : Process)
    (hrun : (boot db listenSocket).run listenSocket ls = some p) :
    (∀ t k, p.machine.Touches t k → p.machine.config.owner k.mutex = some t) ∧
      ∀ t u k, p.machine.Touches t k → p.machine.Touches u k → t = u := by
  have hfenced := fenced_of_run hrun
  have hown : ∀ t k, p.machine.Touches t k → p.machine.config.owner k.mutex = some t := by
    intro t k htouch
    exact hfenced.machine.confined.owner_of_touches htouch
  refine ⟨hown, fun t u k ht hu => ?_⟩
  have hsame := (hown t k ht).symm.trans (hown u k hu)
  exact Option.some.inj hsame

/-- The next step of `main` puts the socket into `g_clients`. -/
def enters (sock : SOCKET) (m : Machine) : Bool :=
  match m.config.prog .main with
  | .act f _ => (f (.midnight 0) m.globals).clients.contains sock && !m.globals.clients.contains sock
  | _ => false

theorem touches_of_enters {sock : SOCKET} {m : Machine} (h : enters sock m = true) :
    m.Touches .main .clients := by
  rw [enters] at h
  split at h
  · rename_i f next hprog
    rw [Bool.and_eq_true, Bool.not_eq_true'] at h
    refine ⟨f, next, hprog, .midnight 0, m.globals, Or.inl fun hsame => ?_⟩
    have hclients : (f (.midnight 0) m.globals).clients = m.globals.clients := hsame
    rw [hclients, h.2] at h
    exact Bool.false_ne_true h.1
  · cases h

/-- A client connects; its entry in `g_clients` is about to be made. -/
def entering : List ProcessLabel :=
  [.loop (.poll [POLLRDNORM]), .loop (.visit (some 4) none)] ++ (working 2).map .loop

theorem no_data_race_entering : ∃ p, (boot {} 3).run 3 entering = some p ∧
    p.machine.Touches .main .clients ∧ ∀ u, p.machine.Touches u .clients → u = .main := by
  have hrun : ((boot {} 3).run 3 entering).any (fun p => enters 4 p.machine) = true := by decide +kernel
  obtain ⟨p, hp, henters⟩ := (Option.any_eq_true _ _).1 hrun
  have htouch := touches_of_enters henters
  exact ⟨p, hp, htouch, fun u hu => ((no_data_race {} 3 entering p hp).2 _ _ _ htouch hu).symm⟩

end Process

end TerminalChat.Server
