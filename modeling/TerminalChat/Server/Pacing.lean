import Mathlib
import TerminalChat.Server.Veil

/-!
# Handlers in front of the veil

The handlers do the same in two states that differ behind the veil (`even_handler`). JOIN is the only one
that looks behind it: what it replays to the client it admits may differ, so the two states stay alike for
a socket that is not let into the room of the marked message.
-/

set_option autoImplicit false

namespace TerminalChat.Server

open TerminalChat.Concurrency TerminalChat.Text

/-- Neither before nor after an action is the socket a member of the room of the marked message, when that
is a public one. -/
def Outside (mark : Message) (t : SOCKET) (s u : Globals) : Prop :=
  mark.isPrivate = false → ¬s.IsMember t mark.roomId ∧ ¬u.IsMember t mark.roomId

section Handlers

variable {mark : Message} {other : Bytes} {t : SOCKET} {α β : Type} {K : α → Prop} {K' : β → Prop}

/-! ## Rules -/

theorem even_step {b : Sect α} (hb : b.Even (Veiled mark other t) K) :
    (step b).Even (Outside mark t) (Veiled mark other t) K :=
  Prog.even_block _ hb.value fun _ _ _ hs => hb.evenAt hs

theorem even_critical {m : Mutex} {b : Sect α} (hb : b.Even (Veiled mark other t) K) :
    (critical m b).Even (Outside mark t) (Veiled mark other t) K :=
  Prog.even_holding m (even_step hb)

theorem even_seq {p : Thread α} {f : α → Thread β}
    (hp : p.Even (Outside mark t) (Veiled mark other t) K)
    (hf : ∀ a, K a → (f a).Even (Outside mark t) (Veiled mark other t) K') :
    (p >>= f).Even (Outside mark t) (Veiled mark other t) K' := Prog.even_bind hf p hp

theorem even_done {a : α} (h : K a) :
    (pure a : Thread α).Even (Outside mark t) (Veiled mark other t) K := h

theorem even_reply (sock : SOCKET) (text : Bytes) :
    (reply sock text).Even (Outside mark t) (Veiled mark other t) Whatever :=
  even_step (even_sendToClient sock text)

theorem even_findClientByUsername (username roomId : Bytes) :
    (findClientByUsername username roomId).Even (Outside mark t) (Veiled mark other t) Whatever := by
  apply even_critical
  apply even_ask
  intro _ s s' hs
  rw [Globals.findClientByUsername, Globals.findClientByUsername, hs.clients]

/-! ## Leaving -/

theorem even_sweepRoom (roomId : Bytes) :
    (sweepRoom roomId).Even (Veiled mark other t) Whatever := by
  apply Block.even_bind (even_roomExists roomId)
  intro _ _
  apply Block.even_ite _ (Block.even_pure trivial)
  apply Block.even_bind (even_askRoom roomId fun _ _ => rfl)
  intro _ _
  apply Block.even_ite _ (Block.even_pure trivial)
  apply Block.even_bind (K := Whatever)
  · exact even_tell fun _ _ _ hs => hs.eraseRoom roomId
  · exact fun _ _ => even_tellDatabase 0 fun _ _ _ _ => masked_deleteRoom

theorem even_cleanupEmptyRoom (roomId : Bytes) :
    (cleanupEmptyRoom roomId).Even (Outside mark t) (Veiled mark other t) Whatever :=
  even_critical (even_sweepRoom roomId)

theorem oblivious_removeClient (sock : SOCKET) :
    Oblivious fun room => room.removeClient sock := ⟨fun _ => rfl, fun _ _ => rfl⟩

theorem even_departRoom (roomId username : Bytes) (sock : SOCKET) :
    (departRoom roomId username sock).Even (Veiled mark other t) Whatever := by
  apply Block.even_bind (even_getCurrentTimestamp 0)
  intro _ _
  apply Block.even_bind (even_broadcast roomId _ sock)
  exact fun _ _ => even_tellRoom roomId (oblivious_removeClient sock)

theorem even_leaveRoom (roomId username : Bytes) (sock : SOCKET) :
    (leaveRoom roomId username sock).Even (Veiled mark other t) Whatever := by
  apply Block.even_bind (even_roomExists roomId)
  intro _ _
  apply Block.even_ite _ (Block.even_pure trivial)
  apply Block.even_bind (even_departRoom roomId username sock)
  intro _ _
  apply Block.even_bind (even_askRoom roomId fun _ _ => rfl)
  exact fun _ _ => Block.even_ite (even_spawnCleanup roomId) (Block.even_pure trivial)

theorem even_removeClientFromRoom (sock : SOCKET) :
    (removeClientFromRoom sock).Even (Outside mark t) (Veiled mark other t) Whatever := by
  apply even_seq (even_critical (even_clientInfo sock))
  intro client _
  apply Prog.even_ite (even_done trivial)
  apply even_seq (K := Whatever)
  · apply even_critical
    apply Block.even_bind (even_roomExists client.roomId)
    exact fun _ _ => Block.even_ite (even_departRoom _ _ _) (Block.even_pure trivial)
  · intro _ _
    apply even_seq (even_critical (even_setClientInfo sock _))
    exact fun _ _ => even_cleanupEmptyRoom client.roomId

/-! ## JOIN -/

/-- The replay of a history to a client. -/
def replay (sock : SOCKET) (history : List Bytes) : Sect Unit :=
  if history.isEmpty then pure ()
  else do
    sendToClient sock (str "MESSAGE_HISTORY_START\n")
    .modify fun _ s => { s with net := s.net ++ history.map fun msg => .replayed sock msg }
    sendToClient sock (str "MESSAGE_HISTORY_END\n")

/-- The operations of a replay. -/
def replayOps (sock : SOCKET) (history : List Bytes) : List NetOp :=
  if history.isEmpty then []
  else [.sent sock (str "MESSAGE_HISTORY_START\n")] ++
    history.map (fun msg => .replayed sock msg) ++ [.sent sock (str "MESSAGE_HISTORY_END\n")]

theorem exec_replay (e : Env) (s : Globals) (sock : SOCKET) (history : List Bytes) :
    (replay sock history).exec e s = ⟨(), { s with net := s.net ++ replayOps sock history }, []⟩ := by
  rw [replay, replayOps]
  by_cases hnone : history.isEmpty = true
  · rw [if_pos hnone, if_pos hnone, List.append_nil]
    rfl
  · rw [if_neg hnone, if_neg hnone, ← List.append_assoc, ← List.append_assoc]
    rfl

/-- What the database has of a room. -/
def storedHistory (e : Env) (s : Globals) (roomId : Bytes) : List Bytes :=
  s.database.getMessageHistory (fun n => e.calls (2 + n)) e.order roomId MAX_MESSAGE_HISTORY

theorem history_eq (e : Env) (s : Globals) (roomId : Bytes) : s.history e roomId =
    if (storedHistory e s roomId).isEmpty then ((s.chatRooms[roomId]?).map ChatRoom.messageHistory).getD []
    else storedHistory e s roomId := rfl

theorem exec_sendHistory (e : Env) (s : Globals) (sock : SOCKET) (roomId : Bytes) :
    (sendHistory sock roomId).exec e s = ⟨(),
        { s with net := s.net ++ replayOps sock (s.history e roomId) }, .dbMutex ::
        if (storedHistory e s roomId).isEmpty then [.roomMutex roomId] else []⟩ := by
  -- the database is asked first; the rest, named so that `rfl` does not unfold it, runs on its answer
  obtain ⟨rest, hrest⟩ : ∃ rest : Sect Unit, (if (storedHistory e s roomId).isEmpty then
      askRoom roomId ChatRoom.messageHistory >>= replay sock
    else pure (storedHistory e s roomId) >>= replay sock) = rest := ⟨_, rfl⟩
  have hopen : (sendHistory sock roomId).exec e s =
      ⟨(rest.exec e s).value, (rest.exec e s).state, .dbMutex :: (rest.exec e s).passed⟩ := by
    rw [← hrest]
    rfl
  rw [hopen, history_eq]
  by_cases hstored : (storedHistory e s roomId).isEmpty = true
  · -- nothing stored: the mutex of the room is taken for its memory
    rw [if_pos hstored] at hrest ⊢
    rw [if_pos hstored, ← hrest]
    show (⟨((replay sock _).exec e s).value, ((replay sock _).exec e s).state,
      .dbMutex :: .roomMutex roomId :: ((replay sock _).exec e s).passed⟩ : Outcome _ _ _) = _
    rw [exec_replay]
    rfl
  · rw [if_neg hstored] at hrest ⊢
    rw [if_neg hstored, ← hrest]
    have hpure : (pure (storedHistory e s roomId) >>= replay sock : Sect Unit).exec e s =
        (replay sock (storedHistory e s roomId)).exec e s := rfl
    rw [hpure, exec_replay]

theorem received_replayOps {sock : SOCKET} (h : sock ≠ t) (history : List Bytes) :
    received t (replayOps sock history) = [] := by
  rw [replayOps]
  split
  · rfl
  · apply received_of_others
    intro op hop text
    simp only [List.mem_append, List.mem_singleton, List.mem_map] at hop
    rcases hop with (rfl | ⟨msg, -, rfl⟩) | rfl
    · simp [h]
    · simp [h]
    · simp [h]

/-- What is behind the veil is replayed only to a client that enters the room of the marked message. -/
theorem even_sendHistory {sock : SOCKET} {roomId : Bytes}
    (hmark : mark.isPrivate = false → cString mark.roomId = mark.roomId)
    (hid : cString roomId = roomId)
    (haway : mark.isPrivate = false → ¬(sock = t ∧ roomId = mark.roomId)) :
    (sendHistory sock roomId).Even (Veiled mark other t) Whatever := by
  refine ⟨fun _ _ => trivial, fun e s s' hs _ => ?_⟩
  have hlength : (storedHistory e s' roomId).length = (storedHistory e s roomId).length :=
    length_getMessageHistory hs.tables e.order MAX_MESSAGE_HISTORY
  have hempty : (storedHistory e s' roomId).isEmpty = (storedHistory e s roomId).isEmpty := by
    rw [Bool.eq_iff_iff, List.isEmpty_iff_length_eq_zero, List.isEmpty_iff_length_eq_zero, hlength]
  rw [exec_sendHistory, exec_sendHistory, hempty]
  refine ⟨rfl, rfl, hs.talk ?_⟩
  by_cases hroom : mark.isPrivate = false ∧ roomId = mark.roomId
  · -- the replay may differ, but it is for another socket
    have hsock : sock ≠ t := fun h => haway hroom.1 ⟨h, hroom.2⟩
    rw [received_replayOps hsock, received_replayOps hsock]
  · have hstored : storedHistory e s' roomId = storedHistory e s roomId := by
      apply getMessageHistory_masked hs.tables
      intro hpublic
      rw [hmark hpublic, hid]
      exact fun h => hroom ⟨hpublic, h.symm⟩
    have hmemory : (s'.chatRooms[roomId]?).map ChatRoom.messageHistory =
        (s.chatRooms[roomId]?).map ChatRoom.messageHistory := by
      have hrel := hs.rooms roomId
      generalize s.chatRooms[roomId]? = o, s'.chatRooms[roomId]? = o' at hrel ⊢
      cases hrel with
      | none => rfl
      | some hmask =>
          obtain ⟨history, rfl, -, hsame | hopen⟩ := hmask
          · rw [Option.map_some, Option.map_some, hsame]
          · exact absurd hopen hroom
    rw [history_eq, history_eq, hstored, hmemory]

theorem even_leaveOldRoom (sock : SOCKET) (client : ClientInfo) :
    (leaveOldRoom sock client).Even (Veiled mark other t) Whatever :=
  Block.even_ite (Block.even_pure trivial) (even_leaveRoom _ _ sock)

theorem even_admitClient {sock : SOCKET} {roomId : Bytes} (client : ClientInfo)
    (hmark : mark.isPrivate = false → cString mark.roomId = mark.roomId)
    (hid : cString roomId = roomId)
    (haway : mark.isPrivate = false → ¬(sock = t ∧ roomId = mark.roomId)) :
    (admitClient sock client roomId).Even (Veiled mark other t) Whatever := by
  apply Block.even_bind (even_leaveOldRoom sock client)
  intro _ _
  apply Block.even_bind (even_addClient roomId sock)
  intro _ _
  apply Block.even_bind (even_setClientInfo sock _)
  intro _ _
  apply Block.even_bind (even_sendToClient sock _)
  intro _ _
  apply Block.even_bind (even_sendHistory hmark hid haway)
  intro _ _
  apply Block.even_bind (even_getCurrentTimestamp 1)
  exact fun _ _ => even_broadcast roomId _ sock

/-- Leaving a room takes no room away. -/
theorem post_leaveOldRoom_rooms (e : Env) (s : Globals) (sock : SOCKET) (client : ClientInfo) :
    (leaveOldRoom sock client).post e s fun _ u => ∀ r ∈ s.chatRooms, r ∈ u.chatRooms := by
  simp only [leaveOldRoom, leaveRoom, departRoom, Block.post_ite, Block.post_pure, Block.post_bind,
    post_roomExists, post_getCurrentTimestamp, post_broadcast, post_tellRoom, post_askRoom,
    post_spawnCleanup, mem_editRoom]
  exact ⟨fun _ _ h => h, fun _ => ⟨fun _ => ⟨fun _ _ h => h, fun _ _ h => h⟩, fun _ _ h => h⟩⟩

/-- Whoever is admitted to a room that is there is a member. -/
theorem isMember_admitClient (e : Env) {s : Globals} (sock : SOCKET) (client : ClientInfo)
    {roomId : Bytes} (hlive : roomId ∈ s.chatRooms) :
    (admitClient sock client roomId).post e s fun _ u => u.IsMember sock roomId := by
  simp only [admitClient, Block.post_bind, post_addClient, post_setClientInfo, post_sendToClient,
    post_getCurrentTimestamp, post_broadcast]
  -- leaving the old room removes no room, so the new one is still there to enter
  apply Block.post_mono (post_leaveOldRoom_rooms e s sock client)
  intro _ u hu
  apply Block.post_mono (post_sendHistory_replays e _ sock roomId)
  rintro _ v ⟨ops, rfl, -⟩
  obtain ⟨room, hroom⟩ : ∃ room, u.chatRooms[roomId]? = some room :=
    ⟨_, Std.ExtTreeMap.getElem?_eq_some_getElem (hu roomId hlive)⟩
  refine ⟨room.addClient sock u.steadyNow, ?_, ?_⟩
  · show (u.editRoom roomId fun room => room.addClient sock u.steadyNow).chatRooms[roomId]? = _
    rw [Globals.getElem?_editRoom, if_pos rfl, hroom, Option.map_some]
  · rw [ChatRoom.mem_clients_addClient]
    exact Or.inl rfl

/-- JOIN under both locks, as far as it does not let the socket into the room of the marked message. -/
theorem evenAt_joinRoom {e : Env} {s s' : Globals} {sock : SOCKET} (client : ClientInfo)
    (roomId password : Bytes) (hmark : mark.isPrivate = false → cString mark.roomId = mark.roomId)
    (hs : Veiled mark other t s s') : (joinRoom sock client roomId password).EvenAt
      (Veiled mark other t) (Outside mark t s) e s s' := by
  apply Block.evenAt_bind (even_roomExists roomId) hs
  intro u' hu
  apply Block.evenAt_ite
  · exact fun _ => (even_sendToClient sock _).evenAt hu
  intro hlive
  have hcontains : ((roomExists roomId).exec e s).value = true := by simpa using hlive
  -- past this answer the room is live
  replace hlive : roomId ∈ s.chatRooms := Std.ExtTreeMap.contains_iff_mem.1 hcontains
  apply Block.evenAt_bind (even_askRoom roomId fun _ _ => rfl) hu
  intro u' hu
  apply Block.evenAt_branch (K := Whatever) (Block.even_pure trivial)
    (even_askDatabase 0 fun _ _ _ _ h => by
      rw [Database.isUserBanned, Database.isUserBanned, h.bans]) rfl rfl hu
  intro banned u' _ hu
  apply Block.evenAt_ite
  · exact fun _ => (even_sendToClient sock _).evenAt hu
  intro _
  apply Block.evenAt_bind (even_askRoom roomId fun _ _ => rfl) hu
  intro u' hu
  apply Block.evenAt_ite
  · exact fun _ => (even_sendToClient sock _).evenAt hu
  intro _
  apply Block.evenAt_branch (K := Whatever) (even_askRoom roomId fun _ _ => rfl)
    (Block.even_pure trivial) rfl rfl hu
  intro accepted u' _ hu
  apply Block.evenAt_ite
  · exact fun _ => (even_sendToClient sock _).evenAt hu
  intro _
  -- a join of `t` to the room of a public mark would end with `t` inside, which the run excludes
  by_cases haway : mark.isPrivate = false ∧ sock = t ∧ roomId = mark.roomId
  · intro hend
    obtain ⟨hpublic, rfl, rfl⟩ := haway
    exact absurd (isMember_admitClient e sock client hlive) (hend hpublic).2
  · exact (even_admitClient client hmark (hu.ids roomId hlive) fun h h' => haway ⟨h, h'⟩).evenAt hu

/-- JOIN. -/
theorem even_handleJoinCommand {sock : SOCKET} (params : Bytes)
    (hmark : mark.isPrivate = false → cString mark.roomId = mark.roomId) :
    (handleJoinCommand sock params).Even (Outside mark t) (Veiled mark other t) Whatever := by
  apply Prog.even_ite (even_reply sock _)
  apply Prog.even_holding
  apply even_seq (even_step (even_clientRef sock))
  intro client _
  apply Prog.even_ite (even_reply sock _)
  apply Prog.even_holding
  exact Prog.even_block _ (fun _ _ => trivial) fun _ _ _ hs => evenAt_joinRoom client _ _ hmark hs

/-! ## The other commands -/

/-- The checks that the commands of the owner share. -/
theorem even_guards {sock : SOCKET} {p : ClientInfo → Thread Unit} {c : ClientInfo → Bool}
    {error error' : Bytes}
    (hp : ∀ client, (p client).Even (Outside mark t) (Veiled mark other t) Whatever) :
    Prog.Even (Outside mark t) (Veiled mark other t) Whatever (do
      let client ← critical .clientsMutex (clientInfo sock)
      if client.roomId.isEmpty then reply sock error
      else if c client then reply sock error'
      else p client : Thread Unit) := by
  apply even_seq (even_critical (even_clientInfo sock))
  intro client _
  exact Prog.even_ite (even_reply sock _) (Prog.even_ite (even_reply sock _) (hp client))

section Commands

variable {sock : SOCKET}

theorem even_handleCreateCommand (params : Bytes) :
    (handleCreateCommand sock params).Even (Outside mark t) (Veiled mark other t) Whatever := by
  apply Prog.even_ite (even_reply sock _)
  apply even_seq (even_step even_generateRoomId)
  -- both runs draw the same id, and it has no NUL byte
  intro roomId hid
  apply even_seq (K := Whatever)
  · apply Prog.even_holding
    apply even_seq (even_step (even_clientRef sock))
    intro client _
    apply Prog.even_ite (even_done trivial)
    exact even_seq (even_critical (even_leaveRoom _ _ sock)) fun _ _ => even_done trivial
  · intro client _
    apply even_seq (K := Whatever)
    · apply even_critical
      apply Block.even_bind (K := Whatever)
      · exact even_tell fun _ _ _ hs => hs.insertRoom hid _
      · exact fun _ _ => even_addClient roomId sock
    · intro _ _
      apply even_seq (even_critical (even_setClientInfo sock _))
      intro _ _
      apply even_seq (K := Whatever)
      · exact even_step (even_tellDatabase 0 fun _ _ _ _ => masked_createRoom _ _ _)
      · exact fun _ _ => even_reply sock _

theorem even_handleSetNameCommand (name : Bytes) :
    (handleSetNameCommand sock name).Even (Outside mark t) (Veiled mark other t) Whatever := by
  apply Prog.even_ite (even_reply sock _)
  apply even_seq (K := Whatever)
  · apply even_critical
    apply even_ask
    intro _ s s' hs
    rw [Globals.isUsernameAvailable, Globals.isUsernameAvailable, hs.clients]
  · intro _ _
    apply Prog.even_ite (even_reply sock _)
    apply even_seq (even_critical (even_setClientInfo sock _))
    exact fun _ _ => even_reply sock _

/-- The list says which rooms there are, whether they are private, and how many members they have. -/
theorem even_handleListCommand :
    (handleListCommand sock).Even (Outside mark t) (Veiled mark other t) Whatever := by
  apply even_critical
  refine ⟨fun _ _ => trivial, fun _ s s' hs _ => ?_⟩
  -- of a room LIST reads the id, the kind and the number of members, never the messages
  have hlist := hs.toList_map (f := roomEntry) fun _ _ _ => rfl
  have hread : ∀ {γ : Type} (g : Bytes × Bytes → List γ),
      (s'.chatRooms.toList.flatMap fun p => g (p.1, roomEntry p.1 p.2)) =
        s.chatRooms.toList.flatMap fun p => g (p.1, roomEntry p.1 p.2) := by
    intro γ g
    have happly := congrArg (fun l => List.flatMap g l) hlist
    simpa only [List.flatMap_map] using happly
  -- both runs pass the same mutexes of rooms
  refine ⟨rfl, hread fun p => [Leaf.roomMutex p.1, Leaf.roomMutex p.1], ?_⟩
  show Veiled mark other t (s.send sock _) (s'.send sock _)
  rw [hread fun p => p.2]
  exact hs.send sock _

theorem even_handleGetPasswordCommand :
    (handleGetPasswordCommand sock).Even (Outside mark t) (Veiled mark other t) Whatever := by
  apply even_guards
  intro client
  apply even_critical
  apply Block.even_bind (even_roomExists _)
  intro _ _
  apply Block.even_ite _ (Block.even_pure trivial)
  apply Block.even_bind (even_askRoom _ fun _ _ => rfl)
  intro _ _
  apply Block.even_ite _ (even_sendToClient sock _)
  exact Block.even_bind (even_askRoom _ fun _ _ => rfl) fun _ _ => even_sendToClient sock _

theorem even_handleUsersCommand :
    (handleUsersCommand sock).Even (Outside mark t) (Veiled mark other t) Whatever := by
  apply even_seq (even_critical (even_clientInfo sock))
  intro client _
  apply Prog.even_ite (even_reply sock _)
  apply Prog.even_holding
  apply even_seq (even_step (even_roomExists _))
  intro _ _
  apply Prog.even_ite _ (even_done trivial)
  apply even_seq (even_step (even_askRoom _ fun _ _ => rfl))
  intro members _
  apply even_critical
  apply even_tell
  -- the records of the clients are equal in the two runs
  intro _ s s' hs
  rw [userEntries, userEntries, hs.clients]
  exact hs.send sock _

theorem even_handleKickCommand (params : Bytes) :
    (handleKickCommand sock params).Even (Outside mark t) (Veiled mark other t) Whatever := by
  apply Prog.even_ite (even_reply sock _)
  apply even_guards
  intro client
  apply Prog.even_ite (even_reply sock _)
  apply even_seq (even_findClientByUsername _ _)
  intro target _
  apply Prog.even_ite (even_reply sock _)
  apply even_seq (K := Whatever)
  · apply even_step
    exact Block.even_bind (even_getCurrentTimestamp 0) fun _ _ => even_sendToClient target _
  intro _ _
  apply even_seq (even_reply target _)
  intro _ _
  apply even_seq (K := Whatever)
  · apply even_critical
    apply Block.even_bind (even_roomExists _)
    intro _ _
    apply Block.even_ite _ (Block.even_pure trivial)
    apply Block.even_bind (even_getCurrentTimestamp 0)
    intro _ _
    exact Block.even_bind (even_broadcastToAll _ _) fun _ _ =>
      even_tellRoom _ (oblivious_removeClient target)
  · exact fun _ _ => even_critical (even_setClientInfo target _)

theorem even_expelBanned (roomId username : Bytes) (target : SOCKET) :
    (expelBanned roomId username target).Even (Veiled mark other t) Whatever := by
  apply Block.even_bind (even_getCurrentTimestamp 0)
  intro _ _
  apply Block.even_bind (even_sendToClient target _)
  intro _ _
  apply Block.even_bind (even_sendToClient target _)
  intro _ _
  apply Block.even_bind (even_getCurrentTimestamp 1)
  intro _ _
  apply Block.even_bind (even_broadcastToAll roomId _)
  exact fun _ _ => even_tellRoom roomId (oblivious_removeClient target)

theorem even_handleBanCommand (params : Bytes) :
    (handleBanCommand sock params).Even (Outside mark t) (Veiled mark other t) Whatever := by
  apply Prog.even_ite (even_reply sock _)
  apply even_guards
  intro client
  apply Prog.even_ite (even_reply sock _)
  apply even_seq (even_findClientByUsername _ _)
  intro target _
  apply Prog.even_holding
  apply even_seq (even_step (even_roomExists _))
  intro _ _
  apply Prog.even_ite _ (even_done trivial)
  apply even_seq (K := Whatever)
  · apply even_step
    apply Block.even_bind (K := Whatever)
    · exact even_tellRoom _ ⟨fun _ => rfl, fun _ _ => rfl⟩
    · exact fun _ _ => even_tellDatabase 0 fun _ _ _ _ => masked_addBan _
  intro _ _
  -- `findClientByUsername` gave the same answer in both runs
  by_cases hfound : target = INVALID_SOCKET
  · rw [if_pos hfound]
    exact even_reply sock _
  · rw [if_neg hfound]
    apply even_seq (even_step (even_expelBanned _ _ target))
    intro _ _
    apply even_seq (even_critical (even_setClientInfo target _))
    exact fun _ _ => even_reply sock _

theorem even_handleTransferCommand (params : Bytes) :
    (handleTransferCommand sock params).Even (Outside mark t) (Veiled mark other t) Whatever := by
  apply Prog.even_ite (even_reply sock _)
  apply even_guards
  intro client
  apply Prog.even_ite (even_reply sock _)
  apply even_seq (even_findClientByUsername _ _)
  intro target _
  apply Prog.even_ite (even_reply sock _)
  apply Prog.even_holding
  apply even_seq (even_step (even_roomExists _))
  intro _ _
  apply Prog.even_ite _ (even_done trivial)
  apply even_seq (K := Whatever)
  · exact even_step (even_tellRoom _ ⟨fun _ => rfl, fun _ _ => rfl⟩)
  intro _ _
  apply even_critical
  apply Block.even_bind (even_setClientInfo sock _)
  intro _ _
  apply Block.even_bind (even_setClientInfo target _)
  intro _ _
  apply Block.even_bind (K := Whatever)
  · exact even_tellDatabase 0 fun _ _ _ _ => masked_updateRoomOwner _
  intro _ _
  apply Block.even_bind (even_getCurrentTimestamp 0)
  intro _ _
  apply Block.even_bind (even_broadcastToAll _ _)
  intro _ _
  exact Block.even_bind (even_sendToClient sock _) fun _ _ => even_sendToClient target _

theorem even_handleLeaveCommand :
    (handleLeaveCommand sock).Even (Outside mark t) (Veiled mark other t) Whatever := by
  apply even_guards
  intro client
  apply even_seq (even_critical (even_leaveRoom _ _ sock))
  intro _ _
  apply even_seq (even_critical (even_setClientInfo sock _))
  exact fun _ _ => even_reply sock _

theorem even_chooseNewOwner (roomId : Bytes) :
    (chooseNewOwner roomId sock).Even (Veiled mark other t) Whatever := by
  apply Block.even_bind (even_askRoom roomId fun _ _ => rfl)
  intro _ _
  apply Block.even_ite _ (Block.even_pure trivial)
  apply Block.even_bind (even_longestMember roomId)
  intro _ _
  apply Block.even_ite _ (Block.even_pure trivial)
  exact Block.even_bind (even_askRoom roomId fun _ _ => rfl) fun _ _ => Block.even_pure trivial

theorem even_promoteNewOwner (roomId : Bytes) (heir : SOCKET) :
    (promoteNewOwner roomId heir).Even (Veiled mark other t) Whatever := by
  apply Block.even_bind (K := Whatever)
  · exact even_ask fun _ _ _ hs => congrArg (·.contains heir) hs.clients
  intro _ _
  apply Block.even_ite _ (Block.even_pure trivial)
  apply Block.even_bind (even_clientInfo heir)
  intro _ _
  apply Block.even_bind (even_setClientInfo heir _)
  intro _ _
  exact Block.even_bind (even_tellRoom roomId ⟨fun _ => rfl, fun _ _ => rfl⟩)
    fun _ _ => Block.even_pure trivial

theorem even_announceForceLeave (roomId username name : Bytes) (heir : SOCKET) :
    (announceForceLeave roomId username name heir sock).Even (Veiled mark other t) Whatever := by
  apply Block.even_bind (even_getCurrentTimestamp 0)
  intro _ _
  -- the same heir, or none, in both runs
  apply Block.even_bind (K := Whatever)
  · apply Block.even_ite (Block.even_pure trivial)
    apply Block.even_bind (even_getCurrentTimestamp 1)
    intro _ _
    exact Block.even_bind (even_broadcastToAll roomId _) fun _ _ => even_sendToClient heir _
  intro _ _
  apply Block.even_bind (even_broadcast roomId _ sock)
  intro _ _
  apply Block.even_bind (even_tellRoom roomId (oblivious_removeClient sock))
  intro _ _
  apply Block.even_bind (even_askRoom roomId fun _ _ => rfl)
  exact fun _ _ => Block.even_ite (even_spawnCleanup roomId) (Block.even_pure trivial)

theorem even_handleForceLeaveCommand :
    (handleForceLeaveCommand sock).Even (Outside mark t) (Veiled mark other t) Whatever := by
  apply even_guards
  intro client
  apply even_seq (K := Whatever)
  · apply Prog.even_holding
    apply even_seq (even_step (even_roomExists _))
    intro _ _
    apply Prog.even_ite _ (even_done trivial)
    apply even_seq (even_step (even_chooseNewOwner _))
    intro heir _
    apply even_seq (K := Whatever)
    · exact Prog.even_ite (even_critical (even_promoteNewOwner _ heir)) (even_done trivial)
    · exact fun name _ => even_step (even_announceForceLeave _ _ name heir)
  · intro _ _
    apply even_seq (even_critical (even_setClientInfo sock _))
    exact fun _ _ => even_reply sock _

theorem even_handleChangePasswordCommand (params : Bytes) :
    (handleChangePasswordCommand sock params).Even (Outside mark t) (Veiled mark other t)
      Whatever := by
  apply Prog.even_ite (even_reply sock _)
  apply even_guards
  intro client
  apply even_critical
  apply Block.even_bind (even_roomExists _)
  intro _ _
  apply Block.even_ite _ (Block.even_pure trivial)
  apply Block.even_bind (even_askRoom _ fun _ _ => rfl)
  intro _ _
  apply Block.even_ite (even_sendToClient sock _)
  apply Block.even_bind (K := Whatever)
  · exact even_tellRoom _ ⟨fun _ => rfl, fun _ _ => rfl⟩
  intro _ _
  apply Block.even_bind (K := Whatever)
  · exact even_tellDatabase 0 fun _ _ _ _ => masked_updateRoomPassword _
  intro _ _
  apply Block.even_bind (even_sendToClient sock _)
  intro _ _
  exact Block.even_bind (even_getCurrentTimestamp 0) fun _ _ => even_broadcast _ _ sock

theorem even_runCommand (hmark : mark.isPrivate = false → cString mark.roomId = mark.roomId)
    (c : Command) : (runCommand sock c).Even (Outside mark t) (Veiled mark other t) Whatever := by
  cases c with
  | create params => exact even_handleCreateCommand params
  | join params => exact even_handleJoinCommand params hmark
  | setName name => exact even_handleSetNameCommand name
  | list => exact even_handleListCommand
  | getPassword => exact even_handleGetPasswordCommand
  | users => exact even_handleUsersCommand
  | kick params => exact even_handleKickCommand params
  | ban params => exact even_handleBanCommand params
  | transfer params => exact even_handleTransferCommand params
  | leave => exact even_handleLeaveCommand
  | forceLeave => exact even_handleForceLeaveCommand
  | changePassword params => exact even_handleChangePasswordCommand params
  | unknown => exact even_reply sock _

/-! ## Events -/

theorem even_pushMessage (message : Message) :
    (pushMessage message).Even (Outside mark t) (Veiled mark other t) Whatever := by
  apply even_critical
  apply even_tell
  intro _ s s' hs
  exact hs.push (.refl message)

theorem even_handleClientMessage
    (hmark : mark.isPrivate = false → cString mark.roomId = mark.roomId) (buffer : Bytes) :
    (handleClientMessage sock buffer).Even (Outside mark t) (Veiled mark other t) Whatever := by
  unfold handleClientMessage
  split
  · exact even_done trivial
  · rename_i text _
    cases parseText text with
    | command c => exact even_runCommand hmark c
    | badPrivateMessage => exact even_reply sock _
    | privateMessage name content =>
        -- the two runs push the same message
        apply even_guards
        exact fun client => even_pushMessage _
    | chat content =>
        apply even_seq (even_critical (even_clientInfo sock))
        intro client _
        exact Prog.even_ite (even_reply sock _) (even_pushMessage _)

theorem even_acceptClient :
    (acceptClient sock).Even (Outside mark t) (Veiled mark other t) Whatever := by
  apply even_seq (K := Whatever)
  · exact even_step (even_tell fun _ _ _ hs => hs.talk rfl)
  intro _ _
  apply even_seq (K := Whatever)
  · exact even_critical (even_tell fun _ _ _ hs =>
      { hs with clients := congrArg (·.insert sock {}) hs.clients })
  intro _ _
  apply even_seq (K := Whatever)
  · exact even_critical (even_tell fun _ _ _ hs =>
      { hs with polled := congrArg (· ++ [sock]) hs.polled })
  · exact fun _ _ => even_reply sock _

theorem even_handleClientDisconnect :
    (handleClientDisconnect sock).Even (Outside mark t) (Veiled mark other t) Whatever := by
  apply even_seq (even_removeClientFromRoom sock)
  intro _ _
  apply even_seq (K := Whatever)
  · exact even_critical (even_tell fun _ _ _ hs =>
      { hs with clients := congrArg (·.erase sock) hs.clients })
  intro _ _
  apply even_seq (K := Whatever)
  · exact even_step (even_tell fun _ _ _ hs => hs.talk rfl)
  · exact fun _ _ => even_critical (even_tell fun _ _ _ hs =>
      { hs with polled := congrArg (·.erase sock) hs.polled })

end Commands

/-- No handler sees what is behind the veil, except the one that lets the socket into the room of the
marked message. -/
theorem even_handler (hmark : mark.isPrivate = false → cString mark.roomId = mark.roomId) (ev : Event) :
    ev.handler.Even (Outside mark t) (Veiled mark other t) Whatever := by
  cases ev with
  | connect sock => exact even_acceptClient
  | receive sock buffer => exact even_handleClientMessage hmark buffer
  | hangup sock => exact even_handleClientDisconnect

end Handlers

end TerminalChat.Server
