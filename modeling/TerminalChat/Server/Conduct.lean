import Mathlib
import TerminalChat.Server.Connections

/-!
# The conduct of the handlers

What the handler of a client line does to the globals is made of a few kinds of changes: a line to a client
that has a key, a line to members of a room, an update of an entry that is there, a change of a room. An
invariant that is closed under these changes (`Closed`) is upheld by every command (`Closed.runCommand`).
-/

set_option autoImplicit false

namespace TerminalChat.Server

open TerminalChat.Concurrency TerminalChat.Text TerminalChat.Client

/-- The invariant fixes the keys of `g_clients` to be `K`, and it is kept by whatever commands do. -/
structure Closed (K : SOCKET → Prop) (I : Globals → Prop) : Prop where
  keys : ∀ {s : Globals}, I s → ∀ t, t ∈ s.clients ↔ K t
  same : ∀ {s s' : Globals}, I s → s'.clients = s.clients → s'.chatRooms = s.chatRooms →
    s'.pollFds = s.pollFds → s'.net = s.net → I s'
  send : ∀ {s : Globals} {t : SOCKET}, I s → K t → ∀ text, I (s.send t text)
  tell : ∀ {s : Globals} {socks : List SOCKET}, I s → (∀ t ∈ socks, ∃ r, s.IsMember t r) →
    ∀ text, I (s.sendAll socks text)
  replay : ∀ {s : Globals} {t : SOCKET}, I s → K t → ∀ history : List Bytes,
    I { s with net := s.net ++ history.map fun msg => .replayed t msg }
  setInfo : ∀ {s : Globals} {t : SOCKET}, I s → K t → ∀ f, I (s.setInfo t f)
  edit : ∀ {s : Globals} {f : ChatRoom → ChatRoom}, I s →
    (∀ room t, t ∈ (f room).clients → t ∈ room.clients) → ∀ r, I (s.editRoom r f)
  enter : ∀ {s : Globals} {t : SOCKET}, I s → K t → ∀ r now,
    I (s.editRoom r fun room => room.addClient t now)
  make : ∀ {s : Globals}, I s → ∀ r isPrivate password t,
    I (s.insertRoom r (ChatRoom.new r isPrivate password t))
  erase : ∀ {s : Globals}, I s → ∀ r, I { s with chatRooms := s.chatRooms.erase r }

namespace Closed

variable {K : SOCKET → Prop} {I : Globals → Prop} {α : Type} {sock : SOCKET}

/-! ## Blocks -/

theorem sendToClient (hI : Closed K I) (hk : K sock) (text : Bytes) :
    Upholds I (sendToClient sock text) Whatever := fun _ _ hs => ⟨hI.send hs hk text, trivial⟩

theorem reply (hI : Closed K I) (hk : K sock) (text : Bytes) : Maintains I (reply sock text) Whatever :=
  maintains_step (hI.sendToClient hk text)

/-- Whoever is among the targets of a broadcast is a member of the room. -/
theorem members_of_targets {s : Globals} {roomId : Bytes} {f : ChatRoom → List SOCKET}
    (hf : ∀ room t, t ∈ f room → t ∈ room.clients) :
    ∀ t ∈ ((s.chatRooms[roomId]?).map f).getD [], ∃ r, s.IsMember t r := by
  intro t ht
  cases hroom : s.chatRooms[roomId]? with
  | none =>
      rw [hroom] at ht
      exact absurd ht List.not_mem_nil
  | some room =>
      rw [hroom] at ht
      exact ⟨roomId, room, hroom, hf room t ht⟩

theorem mem_of_broadcastTargets (sender : SOCKET) (room : ChatRoom) (t : SOCKET)
    (ht : t ∈ room.broadcastTargets sender) : t ∈ room.clients :=
  Std.ExtTreeSet.mem_toList.1 (List.mem_filter.1 ht).1

theorem mem_of_broadcastToAllTargets (room : ChatRoom) (t : SOCKET)
    (ht : t ∈ room.broadcastToAllTargets) : t ∈ room.clients :=
  Std.ExtTreeSet.mem_toList.1 (List.mem_filter.1 ht).1

theorem broadcast (hI : Closed K I) (roomId text : Bytes) (sender : SOCKET) :
    Upholds I (broadcast roomId text sender) Whatever :=
  fun _ _ hs => ⟨hI.tell hs (members_of_targets (mem_of_broadcastTargets sender)) text, trivial⟩

theorem broadcastToAll (hI : Closed K I) (roomId text : Bytes) :
    Upholds I (broadcastToAll roomId text) Whatever :=
  fun _ _ hs => ⟨hI.tell hs (members_of_targets mem_of_broadcastToAllTargets) text, trivial⟩

theorem tellRoom (hI : Closed K I) (roomId : Bytes) {f : ChatRoom → ChatRoom}
    (hf : ∀ room t, t ∈ (f room).clients → t ∈ room.clients) :
    Upholds I (tellRoom roomId f) Whatever := fun _ _ hs => ⟨hI.edit hs hf roomId, trivial⟩

theorem removeClient (hI : Closed K I) (roomId : Bytes) (t : SOCKET) :
    Upholds I (Server.tellRoom roomId fun room => room.removeClient t) Whatever :=
  hI.tellRoom roomId fun room u hu => ((room.mem_clients_removeClient t u).1 hu).2

theorem addClient (hI : Closed K I) (hk : K sock) (roomId : Bytes) :
    Upholds I (addClient roomId sock) Whatever :=
  fun _ s hs => ⟨hI.enter hs hk roomId s.steadyNow, trivial⟩

theorem tellDatabase (hI : Closed K I) (k : Nat) (f : Env → (Nat → Bool) → Database → Database) :
    Upholds I (tellDatabase k f) Whatever := fun _ _ hs => ⟨hI.same hs rfl rfl rfl rfl, trivial⟩

theorem spawnCleanup (hI : Closed K I) (roomId : Bytes) : Upholds I (spawnCleanup roomId) Whatever :=
  fun _ _ hs => ⟨hI.same hs rfl rfl rfl rfl, trivial⟩

theorem setClientInfo (hI : Closed K I) (hk : K sock) (f : ClientInfo → ClientInfo) :
    Upholds I (setClientInfo sock f) Whatever := fun _ _ hs => ⟨hI.setInfo hs hk f, trivial⟩

theorem clientRef (hI : Closed K I) (hk : K sock) : Upholds I (clientRef sock) Whatever :=
  fun _ _ hs => ⟨hI.setInfo hs hk id, trivial⟩

/-- Whoever is found by its name has a key. -/
theorem findClientByUsername (hI : Closed K I) (username roomId : Bytes) : Maintains I
    (findClientByUsername username roomId) fun t => t ≠ INVALID_SOCKET → K t := by
  refine maintains_critical fun e s hs => ⟨hs, ?_⟩
  show s.findClientByUsername username roomId ≠ INVALID_SOCKET →
    K (s.findClientByUsername username roomId)
  intro hfound
  rcases findClientByUsername_cases s username roomId with ⟨hnone, -⟩ | ⟨c, hc, -⟩
  · exact absurd hnone hfound
  · rw [← hI.keys hs, Std.ExtTreeMap.mem_iff_isSome_getElem?, hc]
    rfl

theorem clientInfo (sock : SOCKET) : Maintains I (critical .clientsMutex (clientInfo sock)) Whatever :=
  maintains_critical (upholds_read _)

theorem timestamp (k : Nat) : Upholds I (getCurrentTimestamp k) Whatever := upholds_read _

theorem sweepRoom (hI : Closed K I) (roomId : Bytes) : Upholds I (sweepRoom roomId) Whatever := by
  apply upholds_bind (upholds_roomExists roomId)
  intro _ _
  apply upholds_ite _ (upholds_pure trivial)
  apply upholds_bind (upholds_ask roomId _)
  intro _ _
  apply upholds_ite _ (upholds_pure trivial)
  apply upholds_bind (K := Whatever)
  · exact fun _ _ hs => ⟨hI.erase hs roomId, trivial⟩
  · exact fun _ _ => hI.tellDatabase 0 _

theorem cleanupEmptyRoom (hI : Closed K I) (roomId : Bytes) :
    Maintains I (cleanupEmptyRoom roomId) Whatever := maintains_critical (hI.sweepRoom roomId)

theorem departRoom (hI : Closed K I) (roomId username : Bytes) (t : SOCKET) :
    Upholds I (departRoom roomId username t) Whatever := by
  apply upholds_bind (timestamp 0)
  intro _ _
  apply upholds_bind (hI.broadcast roomId _ t)
  exact fun _ _ => hI.removeClient roomId t

/-- The first part of `removeClientFromRoom`. -/
theorem departLiveRoom (hI : Closed K I) (roomId username : Bytes) (t : SOCKET) :
    Upholds I (do if ← roomExists roomId then Server.departRoom roomId username t) Whatever := by
  apply upholds_bind (upholds_roomExists roomId)
  exact fun _ _ => upholds_ite (hI.departRoom roomId username t) (upholds_pure trivial)

theorem leaveRoom (hI : Closed K I) (roomId username : Bytes) (t : SOCKET) :
    Upholds I (leaveRoom roomId username t) Whatever := by
  apply upholds_bind (upholds_roomExists roomId)
  intro _ _
  apply upholds_ite _ (upholds_pure trivial)
  apply upholds_bind (hI.departRoom roomId username t)
  intro _ _
  apply upholds_bind (upholds_ask roomId _)
  exact fun _ _ => upholds_ite (hI.spawnCleanup roomId) (upholds_pure trivial)

/-! ## Commands -/

/-- The checks that the commands of the owner share. -/
theorem guards (hI : Closed K I) (hk : K sock) {p : ClientInfo → Thread Unit} {c : ClientInfo → Bool}
    {error error' : Bytes} (hp : ∀ client, Maintains I (p client) Whatever) :
    Maintains I (do
      let client ← critical .clientsMutex (Server.clientInfo sock)
      if client.roomId.isEmpty then Server.reply sock error
      else if c client then Server.reply sock error'
      else p client : Thread Unit) Whatever := by
  apply maintains_seq (clientInfo sock)
  intro client _
  exact maintains_ite (hI.reply hk _) (maintains_ite (hI.reply hk _) (hp client))

theorem handleCreateCommand (hI : Closed K I) (hk : K sock) (params : Bytes) :
    Maintains I (handleCreateCommand sock params) Whatever := by
  apply maintains_ite (hI.reply hk _)
  apply maintains_seq (K := Whatever)
  · -- a draw changes no more than the ids drawn
    exact maintains_step fun e s hs => ⟨hI.same hs rfl rfl rfl rfl, trivial⟩
  intro roomId _
  apply maintains_seq (K := Whatever)
  · apply maintains_holding
    apply maintains_seq (maintains_step (hI.clientRef hk))
    intro client _
    apply maintains_ite (maintains_pure trivial)
    exact maintains_seq (maintains_critical (hI.leaveRoom _ _ sock)) fun _ _ => maintains_pure trivial
  intro client _
  apply maintains_seq (K := Whatever)
  · apply maintains_critical
    apply upholds_bind (K := Whatever)
    · exact fun e s hs => ⟨hI.make hs _ _ _ _, trivial⟩
    · exact fun _ _ => hI.addClient hk roomId
  intro _ _
  apply maintains_seq (maintains_critical (hI.setClientInfo hk _))
  intro _ _
  apply maintains_seq (maintains_step (hI.tellDatabase 0 _))
  exact fun _ _ => hI.reply hk _

theorem sendHistory (hI : Closed K I) (hk : K sock) (roomId : Bytes) :
    Upholds I (sendHistory sock roomId) Whatever := by
  apply upholds_bind (upholds_askDatabase 2 _)
  intro stored _
  apply upholds_branch (K := Whatever) (upholds_ask roomId _) (upholds_pure trivial)
  intro history _
  apply upholds_ite (upholds_pure trivial)
  apply upholds_bind (hI.sendToClient hk _)
  intro _ _
  apply upholds_bind (K := Whatever)
  · exact fun e s hs => ⟨hI.replay hs hk history, trivial⟩
  · exact fun _ _ => hI.sendToClient hk _

theorem admitClient (hI : Closed K I) (hk : K sock) (client : ClientInfo) (roomId : Bytes) :
    Upholds I (admitClient sock client roomId) Whatever := by
  apply upholds_bind (K := Whatever)
  · exact upholds_ite (upholds_pure trivial) (hI.leaveRoom _ _ sock)
  intro _ _
  apply upholds_bind (hI.addClient hk roomId)
  intro _ _
  apply upholds_bind (hI.setClientInfo hk _)
  intro _ _
  apply upholds_bind (hI.sendToClient hk _)
  intro _ _
  apply upholds_bind (hI.sendHistory hk roomId)
  intro _ _
  apply upholds_bind (timestamp 1)
  exact fun _ _ => hI.broadcast roomId _ sock

theorem joinRoom (hI : Closed K I) (hk : K sock) (client : ClientInfo) (roomId password : Bytes) :
    Upholds I (joinRoom sock client roomId password) Whatever := by
  apply upholds_bind (upholds_roomExists roomId)
  intro _ _
  apply upholds_ite (hI.sendToClient hk _)
  apply upholds_bind (upholds_ask roomId _)
  intro banned _
  apply upholds_branch (K := Whatever) (upholds_pure trivial) (upholds_askDatabase 0 _)
  intro _ _
  apply upholds_ite (hI.sendToClient hk _)
  apply upholds_bind (upholds_ask roomId _)
  intro _ _
  apply upholds_ite (hI.sendToClient hk _)
  apply upholds_branch (K := Whatever) (upholds_ask roomId _) (upholds_pure trivial)
  intro _ _
  exact upholds_ite (hI.sendToClient hk _) (hI.admitClient hk client roomId)

theorem handleJoinCommand (hI : Closed K I) (hk : K sock) (params : Bytes) :
    Maintains I (handleJoinCommand sock params) Whatever := by
  apply maintains_ite (hI.reply hk _)
  apply maintains_holding
  apply maintains_seq (maintains_step (hI.clientRef hk))
  intro client _
  exact maintains_ite (hI.reply hk _) (maintains_critical (hI.joinRoom hk client _ _))

theorem handleSetNameCommand (hI : Closed K I) (hk : K sock) (name : Bytes) :
    Maintains I (handleSetNameCommand sock name) Whatever := by
  apply maintains_ite (hI.reply hk _)
  apply maintains_seq (maintains_critical (upholds_read _))
  intro _ _
  apply maintains_ite (hI.reply hk _)
  apply maintains_seq (maintains_critical (hI.setClientInfo hk _))
  exact fun _ _ => hI.reply hk _

theorem handleGetPasswordCommand (hI : Closed K I) (hk : K sock) :
    Maintains I (handleGetPasswordCommand sock) Whatever := by
  apply hI.guards hk
  intro client
  apply maintains_critical
  apply upholds_bind (upholds_roomExists _)
  intro _ _
  apply upholds_ite _ (upholds_pure trivial)
  apply upholds_bind (upholds_ask _ _)
  intro _ _
  apply upholds_ite _ (hI.sendToClient hk _)
  exact upholds_bind (upholds_ask _ _) fun _ _ => hI.sendToClient hk _

theorem handleUsersCommand (hI : Closed K I) (hk : K sock) :
    Maintains I (handleUsersCommand sock) Whatever := by
  apply maintains_seq (clientInfo sock)
  intro client _
  apply maintains_ite (hI.reply hk _)
  apply maintains_holding
  apply maintains_seq (maintains_step (upholds_roomExists _))
  intro _ _
  apply maintains_ite _ (maintains_pure trivial)
  apply maintains_seq (maintains_step (upholds_ask _ _))
  intro members _
  exact maintains_critical fun e s hs => hI.sendToClient hk _ e s hs

theorem handleKickCommand (hI : Closed K I) (hk : K sock) (params : Bytes) :
    Maintains I (handleKickCommand sock params) Whatever := by
  apply maintains_ite (hI.reply hk _)
  apply hI.guards hk
  intro client
  apply maintains_ite (hI.reply hk _)
  apply maintains_seq (hI.findClientByUsername _ _)
  intro t ht
  by_cases hfound : t = INVALID_SOCKET
  · rw [if_pos hfound]
    exact hI.reply hk _
  · -- the target has a key
    have hkt := ht hfound
    rw [if_neg hfound]
    apply maintains_seq (K := Whatever)
    · apply maintains_step
      exact upholds_bind (timestamp 0) fun _ _ => hI.sendToClient hkt _
    intro _ _
    apply maintains_seq (hI.reply hkt _)
    intro _ _
    apply maintains_seq (K := Whatever)
    · apply maintains_critical
      apply upholds_bind (upholds_roomExists _)
      intro _ _
      apply upholds_ite _ (upholds_pure trivial)
      apply upholds_bind (timestamp 0)
      intro _ _
      exact upholds_bind (hI.broadcastToAll _ _) fun _ _ => hI.removeClient _ t
    · exact fun _ _ => maintains_critical (hI.setClientInfo hkt _)

theorem expelBanned (hI : Closed K I) {t : SOCKET} (hkt : K t) (roomId username : Bytes) :
    Upholds I (expelBanned roomId username t) Whatever := by
  apply upholds_bind (timestamp 0)
  intro _ _
  apply upholds_bind (hI.sendToClient hkt _)
  intro _ _
  apply upholds_bind (hI.sendToClient hkt _)
  intro _ _
  apply upholds_bind (timestamp 1)
  intro _ _
  exact upholds_bind (hI.broadcastToAll roomId _) fun _ _ => hI.removeClient roomId t

theorem handleBanCommand (hI : Closed K I) (hk : K sock) (params : Bytes) :
    Maintains I (handleBanCommand sock params) Whatever := by
  apply maintains_ite (hI.reply hk _)
  apply hI.guards hk
  intro client
  apply maintains_ite (hI.reply hk _)
  apply maintains_seq (hI.findClientByUsername _ _)
  intro t ht
  apply maintains_holding
  apply maintains_seq (maintains_step (upholds_roomExists _))
  intro _ _
  apply maintains_ite _ (maintains_pure trivial)
  apply maintains_seq (K := Whatever)
  · apply maintains_step
    exact upholds_bind (hI.tellRoom _ fun _ _ h => h) fun _ _ => hI.tellDatabase 0 _
  intro _ _
  by_cases hfound : t = INVALID_SOCKET
  · rw [if_pos hfound]
    exact hI.reply hk _
  · rw [if_neg hfound]
    -- a target that was found has a record, so it may be written to
    apply maintains_seq (maintains_step (hI.expelBanned (ht hfound) _ _))
    intro _ _
    apply maintains_seq (maintains_critical (hI.setClientInfo (ht hfound) _))
    exact fun _ _ => hI.reply hk _

theorem handleTransferCommand (hI : Closed K I) (hk : K sock) (params : Bytes) :
    Maintains I (handleTransferCommand sock params) Whatever := by
  apply maintains_ite (hI.reply hk _)
  apply hI.guards hk
  intro client
  apply maintains_ite (hI.reply hk _)
  apply maintains_seq (hI.findClientByUsername _ _)
  intro t ht
  -- the target is used as a key only when it was found
  by_cases hfound : t = INVALID_SOCKET
  · rw [if_pos hfound]
    exact hI.reply hk _
  · have hkt := ht hfound
    rw [if_neg hfound]
    apply maintains_holding
    apply maintains_seq (maintains_step (upholds_roomExists _))
    intro _ _
    apply maintains_ite _ (maintains_pure trivial)
    apply maintains_seq (maintains_step (hI.tellRoom (f := fun room => room.setOwner t) _
      fun _ _ h => h))
    intro _ _
    apply maintains_critical
    apply upholds_bind (hI.setClientInfo hk _)
    intro _ _
    apply upholds_bind (hI.setClientInfo hkt _)
    intro _ _
    apply upholds_bind (hI.tellDatabase 0 _)
    intro _ _
    apply upholds_bind (timestamp 0)
    intro _ _
    apply upholds_bind (hI.broadcastToAll _ _)
    intro _ _
    exact upholds_bind (hI.sendToClient hk _) fun _ _ => hI.sendToClient hkt _

theorem handleLeaveCommand (hI : Closed K I) (hk : K sock) :
    Maintains I (handleLeaveCommand sock) Whatever := by
  apply hI.guards hk
  intro client
  apply maintains_seq (maintains_critical (hI.leaveRoom _ _ sock))
  intro _ _
  apply maintains_seq (maintains_critical (hI.setClientInfo hk _))
  exact fun _ _ => hI.reply hk _

/-- The result names a new owner only when that one was found in `g_clients`. -/
theorem promoteNewOwner (hI : Closed K I) (roomId : Bytes) (t : SOCKET) :
    Upholds I (promoteNewOwner roomId t) fun name => name.isEmpty = false → K t := by
  apply upholds_bind (K := fun found => found = true → K t)
  · intro e s hs
    refine ⟨hs, ?_⟩
    -- the heir was looked up among the records
    intro hfound
    rw [← hI.keys hs t]
    exact Std.ExtTreeMap.contains_iff_mem.1 hfound
  · intro found hfound
    by_cases hyes : found = true
    · rw [if_pos hyes]
      apply upholds_bind (upholds_read _)
      intro client _
      apply upholds_bind (hI.setClientInfo (hfound hyes) _)
      intro _ _
      apply upholds_bind (hI.tellRoom (f := fun room => room.setOwner t) roomId fun _ _ h => h)
      exact fun _ _ => upholds_pure fun _ => hfound hyes
    · rw [if_neg hyes]
      exact upholds_pure fun hne => absurd hne (by decide)

theorem announceForceLeave (hI : Closed K I) {name : Bytes} {t : SOCKET}
    (hkt : name.isEmpty = false → K t) (roomId username : Bytes) :
    Upholds I (announceForceLeave roomId username name t sock) Whatever := by
  apply upholds_bind (timestamp 0)
  intro _ _
  apply upholds_bind (K := Whatever)
  · rw [announceNewOwner]
    by_cases hname : name.isEmpty = true
    · rw [if_pos hname]
      exact upholds_pure trivial
    · rw [if_neg hname]
      apply upholds_bind (timestamp 1)
      intro _ _
      apply upholds_bind (hI.broadcastToAll roomId _)
      exact fun _ _ => hI.sendToClient (hkt (by simpa using hname)) _
  intro _ _
  apply upholds_bind (hI.broadcast roomId _ sock)
  intro _ _
  apply upholds_bind (hI.removeClient roomId sock)
  intro _ _
  apply upholds_bind (upholds_ask roomId _)
  exact fun _ _ => upholds_ite (hI.spawnCleanup roomId) (upholds_pure trivial)

theorem handleForceLeaveCommand (hI : Closed K I) (hk : K sock) :
    Maintains I (handleForceLeaveCommand sock) Whatever := by
  apply hI.guards hk
  intro client
  apply maintains_seq (K := Whatever)
  · apply maintains_holding
    apply maintains_seq (maintains_step (upholds_roomExists _))
    intro _ _
    apply maintains_ite _ (maintains_pure trivial)
    apply maintains_seq (maintains_step (upholds_chooseNewOwner _ sock))
    intro t _
    -- a name that is not empty says that the heir has a record
    apply maintains_seq (K := fun name : Bytes => name.isEmpty = false → K t)
    · apply maintains_ite (maintains_critical (hI.promoteNewOwner _ t))
      exact maintains_pure fun hne => absurd hne (by decide)
    · exact fun name hname => maintains_step (hI.announceForceLeave hname _ _)
  · intro _ _
    apply maintains_seq (maintains_critical (hI.setClientInfo hk _))
    exact fun _ _ => hI.reply hk _

theorem handleChangePasswordCommand (hI : Closed K I) (hk : K sock) (params : Bytes) :
    Maintains I (handleChangePasswordCommand sock params) Whatever := by
  apply maintains_ite (hI.reply hk _)
  apply hI.guards hk
  intro client
  apply maintains_critical
  apply upholds_bind (upholds_roomExists _)
  intro _ _
  apply upholds_ite _ (upholds_pure trivial)
  apply upholds_bind (upholds_ask _ _)
  intro _ _
  apply upholds_ite (hI.sendToClient hk _)
  apply upholds_bind (hI.tellRoom (f := fun room => room.setPassword (trim params)) _ fun _ _ h => h)
  intro _ _
  apply upholds_bind (hI.tellDatabase 0 _)
  intro _ _
  apply upholds_bind (hI.sendToClient hk _)
  intro _ _
  exact upholds_bind (timestamp 0) fun _ _ => hI.broadcast _ _ sock

theorem runCommand (hI : Closed K I) (hk : K sock) (c : Command) :
    Maintains I (runCommand sock c) Whatever := by
  cases c with
  | create params => exact hI.handleCreateCommand hk params
  | join params => exact hI.handleJoinCommand hk params
  | setName name => exact hI.handleSetNameCommand hk name
  | list => exact maintains_critical fun e s hs => hI.sendToClient hk _ e s hs
  | getPassword => exact hI.handleGetPasswordCommand hk
  | users => exact hI.handleUsersCommand hk
  | kick params => exact hI.handleKickCommand hk params
  | ban params => exact hI.handleBanCommand hk params
  | transfer params => exact hI.handleTransferCommand hk params
  | leave => exact hI.handleLeaveCommand hk
  | forceLeave => exact hI.handleForceLeaveCommand hk
  | changePassword params => exact hI.handleChangePasswordCommand hk params
  | unknown => exact hI.reply hk _

theorem pushMessage (hI : Closed K I) (message : Message) :
    Maintains I (pushMessage message) Whatever :=
  maintains_critical fun _ _ hs => ⟨hI.same hs rfl rfl rfl rfl, trivial⟩

/-- The handler of a client that has a key keeps the invariant. -/
theorem handleClientMessage (hI : Closed K I) (hk : K sock) (buffer : Bytes) :
    Maintains I (handleClientMessage sock buffer) Whatever := by
  unfold Server.handleClientMessage
  split
  · exact maintains_pure trivial
  · rename_i text _
    cases parseText text with
    | command c => exact hI.runCommand hk c
    | badPrivateMessage => exact hI.reply hk _
    | privateMessage name content =>
        apply hI.guards hk
        exact fun client => hI.pushMessage _
    | chat content =>
        apply maintains_seq (clientInfo sock)
        intro client _
        exact maintains_ite (hI.reply hk _) (hI.pushMessage _)

end Closed

end TerminalChat.Server
