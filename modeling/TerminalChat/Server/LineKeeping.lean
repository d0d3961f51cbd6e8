import Mathlib
import TerminalChat.Server.Lines

/-!
# Every thread writes lines

Whatever a handler reads has no newline, so what it writes is again a line. This holds of every
handler that has received one line, of the broadcaster and of the cleanup threads, and so along every
run in which the server receives one line at a time (`Machine.WritesLines.next`).
-/

set_option autoImplicit false

namespace TerminalChat.Server

open TerminalChat.Concurrency TerminalChat.Text

/-! ## The handlers -/

section Handlers

variable {sock : SOCKET} {roomId : Bytes}

theorem writesLines_reply {text : Bytes} (h : IsLine text) :
    WritesLines (reply sock text) AnyValue := writesLines_step (keepsLines_send sock h)

theorem writesLines_error {text : String} (h : OneLine (str text)) :
    WritesLines (reply sock (errorText text)) AnyValue := writesLines_reply (isLine_errorText h)

theorem writesLines_clientInfo :
    WritesLines (critical .clientsMutex (clientInfo sock)) ClientInfo.Lined :=
  writesLines_critical (keepsLines_clientInfo sock)

theorem keepsLines_removeClient (t : SOCKET) :
    KeepsLines (tellRoom roomId fun room => room.removeClient t) AnyValue :=
  keepsLines_tellRoom roomId fun _ h => ⟨h.password, h.history⟩

theorem keepsLines_sweepRoom : KeepsLines (sweepRoom roomId) AnyValue := by
  intro e s hs
  simp only [sweepRoom, Block.post_bind, post_roomExists, Block.post_ite, post_askRoom,
    Block.post_modify, post_tellDatabase, Block.post_pure]
  refine ⟨fun _ => ⟨fun _ => ⟨.of_net ⟨hs.clients, fun r room hr => ?_, hs.queue, ?_, hs.net⟩ rfl,
    trivial⟩, fun _ => ⟨.of_net hs rfl, trivial⟩⟩, fun _ => ⟨.of_net hs rfl, trivial⟩⟩
  · rw [Std.ExtTreeMap.getElem?_erase] at hr
    split at hr
    · simp at hr
    · exact hs.rooms r room hr
  · intro row hrow
    exact hs.database row (Database.mem_messages_deleteRoom hrow)

theorem writesLines_cleanupEmptyRoom : WritesLines (cleanupEmptyRoom roomId) AnyValue :=
  writesLines_critical keepsLines_sweepRoom

theorem keepsLines_departRoom {username : Bytes} (hu : OneLine username) :
    KeepsLines (departRoom roomId username sock) AnyValue :=
  keepsLines_bind (keepsLines_timestamp 0) fun _ ht =>
    keepsLines_bind (keepsLines_broadcast sock roomId
      (isLine_systemText ht (hu.append (by decide)))) fun _ _ => keepsLines_removeClient sock

theorem keepsLines_leaveRoom {username : Bytes} (hu : OneLine username) :
    KeepsLines (leaveRoom roomId username sock) AnyValue := by
  refine keepsLines_bind (keepsLines_roomExists roomId) fun _ _ => keepsLines_ite ?_
    (keepsLines_pure trivial)
  refine keepsLines_bind (keepsLines_departRoom hu) fun _ _ => ?_
  exact keepsLines_bind (keepsLines_ask roomId _) fun _ _ =>
    keepsLines_ite (keepsLines_spawnCleanup roomId) (keepsLines_pure trivial)

theorem keepsLines_leave (t : SOCKET) : KeepsLines
    (setClientInfo t fun c => { c with roomId := [], isRoomOwner := false }) AnyValue :=
  keepsLines_setClientInfo t fun _ hc => ⟨hc.username, oneLine_nil⟩

theorem writesLines_removeClientFromRoom : WritesLines (removeClientFromRoom sock) AnyValue := by
  refine writesLines_seq writesLines_clientInfo fun client hc =>
    writesLines_ite (K := AnyValue) trivial ?_
  refine writesLines_seq (K := AnyValue) (writesLines_critical ?_) fun _ _ => ?_
  · exact keepsLines_bind (keepsLines_roomExists _) fun _ _ =>
      keepsLines_ite (keepsLines_departRoom hc.username) (keepsLines_pure trivial)
  · exact writesLines_seq (writesLines_critical (keepsLines_leave sock)) fun _ _ =>
      writesLines_cleanupEmptyRoom

/-! ### CREATE and JOIN -/

theorem oneLine_createParams (params : Bytes) : OneLine (createParams params).2 := by
  unfold createParams
  dsimp only
  split
  · exact (oneLine_getline _).trim
  · exact oneLine_nil

theorem writesLines_makeRoom {client : ClientInfo} (hr : OneLine roomId) (isPrivate : Bool)
    {password : Bytes} (hp : OneLine password) :
    WritesLines (makeRoom sock client roomId isPrivate password) AnyValue := by
  refine writesLines_seq (K := AnyValue) (writesLines_critical ?_) fun _ _ => ?_
  · refine keepsLines_bind (K := AnyValue) (fun e s hs => ?_) fun _ _ => keepsLines_addClient sock roomId
    rw [Block.post_modify]
    refine ⟨.of_net ⟨hs.clients, fun q room hq => ?_, hs.queue, hs.database, hs.net⟩ rfl, trivial⟩
    rw [Globals.insertRoom, Std.ExtTreeMap.getElem?_insert] at hq
    split at hq
    · rename_i heq
      rw [Std.LawfulEqCmp.compare_eq_iff_eq] at heq
      rw [Option.some.injEq] at hq
      rw [← heq, ← hq]
      exact ⟨hr, hp, by simp [ChatRoom.new]⟩
    · exact hs.rooms q room hq
  · refine writesLines_seq (writesLines_critical (keepsLines_setClientInfo sock fun _ hc =>
      ⟨hc.username, hr⟩)) fun _ _ => ?_
    refine writesLines_seq (writesLines_step (keepsLines_tellDatabase fun e calls db row hrow => ?_))
      fun _ _ => writesLines_reply (isLine_of_oneLine ?_)
    · simp only [Database.createRoom] at hrow
      split at hrow <;> exact hrow
    · refine (((show OneLine (str "ROOM_CREATED:") by decide).append hr).append (by decide)).append ?_
      split <;> decide

theorem writesLines_handleCreateCommand (params : Bytes) :
    WritesLines (handleCreateCommand sock params) AnyValue := by
  refine writesLines_ite (writesLines_error (by decide)) ?_
  have hdraw : KeepsLines generateRoomId OneLine := fun e s hs =>
    ⟨.of_net ⟨hs.clients, hs.rooms, hs.queue, hs.database, hs.net⟩ rfl, oneLine_decimal _⟩
  refine writesLines_seq (writesLines_step hdraw) fun roomId hr => ?_
  refine writesLines_seq (K := AnyValue) (writesLines_holding ?_) fun client _ =>
    writesLines_makeRoom hr _ (oneLine_createParams params)
  refine writesLines_seq (writesLines_step (keepsLines_clientRef sock)) fun client hc => ?_
  exact writesLines_ite trivial (writesLines_seq
    (writesLines_critical (keepsLines_leaveRoom hc.username)) fun _ _ => trivial)

theorem keepsLines_sendHistory : KeepsLines (sendHistory sock roomId) AnyValue := by
  have hstored : KeepsLines (askDatabase 2 fun e calls db =>
      db.getMessageHistory calls e.order roomId MAX_MESSAGE_HISTORY)
        fun history => ∀ message ∈ history, IsHistoryLine message := by
    intro e s hs
    rw [post_askDatabase]
    refine ⟨.of_net hs rfl, fun message hm => ?_⟩
    unfold Database.getMessageHistory at hm
    split at hm
    · simp only [List.mem_reverse, List.mem_map] at hm
      obtain ⟨p, hp, rfl⟩ := hm
      have hin := (List.take_subset _ _) (List.mem_zipIdx_iff_getElem?.1
        ((List.takeWhile_sublist _).subset hp) |> List.mem_of_getElem?)
      rw [(e.order.perm _).mem_iff] at hin
      exact isHistoryLine_historyLine (hs.database p.1 (List.mem_filter.1 hin).1)
    · simp at hm
  refine keepsLines_bind hstored fun stored hst => ?_
  have hmemory : KeepsLines (askRoom roomId ChatRoom.messageHistory)
      fun history => ∀ message ∈ history, IsHistoryLine message :=
    keepsLines_askRoom roomId (fun room h => h.history) fun _ hm => absurd hm List.not_mem_nil
  refine keepsLines_branch hmemory (keepsLines_pure hst) fun history hh => ?_
  refine keepsLines_ite (keepsLines_pure trivial) ?_
  refine keepsLines_bind (keepsLines_send sock ⟨str "MESSAGE_HISTORY_START", rfl, by decide⟩)
    fun _ _ => ?_
  refine keepsLines_bind (K := AnyValue) (fun e s hs => ⟨hs.append_net fun op hop => ?_, trivial⟩)
    fun _ _ => keepsLines_send sock ⟨str "MESSAGE_HISTORY_END", rfl, by decide⟩
  obtain ⟨message, hm, rfl⟩ := List.mem_map.1 hop
  exact hh message hm

theorem keepsLines_leaveOldRoom {client : ClientInfo} (hc : client.Lined) :
    KeepsLines (leaveOldRoom sock client) AnyValue :=
  keepsLines_ite (keepsLines_pure trivial) (keepsLines_leaveRoom hc.username)

theorem keepsLines_admitClient {client : ClientInfo} (hc : client.Lined) (hr : OneLine roomId) :
    KeepsLines (admitClient sock client roomId) AnyValue := by
  refine keepsLines_bind (keepsLines_leaveOldRoom hc) fun _ _ => ?_
  refine keepsLines_bind (keepsLines_addClient sock roomId) fun _ _ => ?_
  refine keepsLines_bind (keepsLines_setClientInfo sock fun _ h => ⟨h.username, hr⟩) fun _ _ => ?_
  refine keepsLines_bind (keepsLines_send sock (isLine_of_oneLine
    ((show OneLine (str "ROOM_JOINED:") by decide).append hr))) fun _ _ => ?_
  refine keepsLines_bind keepsLines_sendHistory fun _ _ => ?_
  exact keepsLines_bind (keepsLines_timestamp 1) fun _ ht => keepsLines_broadcast sock roomId
    (isLine_systemText ht (hc.username.append (by decide)))

theorem keepsLines_joinRoom {client : ClientInfo} (hc : client.Lined) (hr : OneLine roomId)
    (password : Bytes) : KeepsLines (joinRoom sock client roomId password) AnyValue := by
  refine keepsLines_bind (keepsLines_roomExists roomId) fun _ _ => ?_
  refine keepsLines_ite (keepsLines_send sock ⟨str "ROOM_NOT_FOUND", rfl, by decide⟩) ?_
  refine keepsLines_bind (keepsLines_ask roomId _) fun banned _ => ?_
  refine keepsLines_branch (K := AnyValue) (keepsLines_pure trivial) (keepsLines_askDatabase _ _)
    fun _ _ => ?_
  refine keepsLines_ite (keepsLines_send sock (isLine_errorText (by decide))) ?_
  refine keepsLines_bind (keepsLines_ask roomId _) fun _ _ => ?_
  refine keepsLines_ite (keepsLines_send sock ⟨str "PASSWORD_REQUIRED", rfl, by decide⟩) ?_
  refine keepsLines_branch (K := AnyValue) (keepsLines_ask roomId _) (keepsLines_pure trivial)
    fun _ _ => ?_
  exact keepsLines_ite (keepsLines_send sock ⟨str "WRONG_PASSWORD", rfl, by decide⟩)
    (keepsLines_admitClient hc hr)

theorem writesLines_handleJoinCommand {params : Bytes} (h : OneLine params) :
    WritesLines (handleJoinCommand sock params) AnyValue := by
  have hr : OneLine (joinParams params).1 := (h.sublist (word_sublist params)).trim
  refine writesLines_ite (writesLines_error (by decide)) (writesLines_holding ?_)
  refine writesLines_seq (writesLines_step (keepsLines_clientRef sock)) fun client hc => ?_
  exact writesLines_ite (writesLines_error (by decide))
    (writesLines_critical (keepsLines_joinRoom hc hr _))

/-! ### Names and lists -/

theorem writesLines_handleSetNameCommand {name : Bytes} (h : OneLine name) :
    WritesLines (handleSetNameCommand sock name) AnyValue := by
  refine writesLines_ite (writesLines_error (by decide)) ?_
  refine writesLines_seq (writesLines_critical (keepsLines_read _)) fun _ _ => ?_
  refine writesLines_ite (writesLines_reply ⟨str "NAME_TAKEN", rfl, by decide⟩) ?_
  exact writesLines_seq (writesLines_critical (keepsLines_setClientInfo sock fun _ hc =>
    ⟨h.trim, hc.roomId⟩)) fun _ _ => writesLines_reply ⟨str "NAME_SET", rfl, by decide⟩

theorem writesLines_handleListCommand : WritesLines (handleListCommand sock) AnyValue := by
  refine writesLines_critical fun e s hs => ⟨hs.append_net fun op hop => ?_, trivial⟩
  rw [List.mem_singleton.1 hop]
  refine isLine_of_oneLine ((show OneLine (str "ROOMS_LIST:") by decide).append
    (oneLine_flatMap fun p hp => ?_))
  have hid := (hs.rooms _ _ (Std.ExtTreeMap.mem_toList_iff_getElem?_eq_some.1 hp)).1
  refine ((((hid.append (by decide)).append (oneLine_decimal _)).append (by decide)).append
    ?_).append (by decide)
  split <;> decide

theorem writesLines_handleGetPasswordCommand :
    WritesLines (handleGetPasswordCommand sock) AnyValue := by
  refine writesLines_seq writesLines_clientInfo fun client hc => ?_
  refine writesLines_ite (writesLines_error (by decide)) ?_
  refine writesLines_ite (writesLines_error (by decide)) (writesLines_critical ?_)
  refine keepsLines_bind (keepsLines_roomExists _) fun _ _ =>
    keepsLines_ite ?_ (keepsLines_pure trivial)
  refine keepsLines_bind (keepsLines_ask _ _) fun _ _ => keepsLines_ite ?_
    (keepsLines_send sock (isLine_errorText (by decide)))
  exact keepsLines_bind (keepsLines_askRoom _ (fun room h => h.password) oneLine_nil) fun _ hp =>
    keepsLines_send sock (isLine_of_oneLine ((show OneLine (str "ROOM_PASSWORD:") by decide).append hp))

theorem oneLine_userEntries {s : Globals} (hs : Lined s) (members : List SOCKET) :
    OneLine (userEntries s members) := by
  refine oneLine_flatMap fun sock _ => ?_
  split
  · rename_i c hc
    split
    · exact oneLine_nil
    · exact (hs.clients sock c hc).username.append (by decide)
  · exact oneLine_nil

theorem writesLines_handleUsersCommand : WritesLines (handleUsersCommand sock) AnyValue := by
  refine writesLines_seq writesLines_clientInfo fun client hc => ?_
  refine writesLines_ite (writesLines_error (by decide)) (writesLines_holding ?_)
  refine writesLines_seq (writesLines_step (keepsLines_roomExists _)) fun _ _ =>
    writesLines_ite ?_ trivial
  refine writesLines_seq (writesLines_step (keepsLines_ask _ _)) fun members _ => ?_
  refine writesLines_critical fun e s hs => ⟨hs.append_net fun op hop => ?_, trivial⟩
  rw [List.mem_singleton.1 hop]
  exact isLine_of_oneLine ((show OneLine (str "USERS_LIST:") by decide).append
    (oneLine_userEntries hs members))

/-! ### The commands of the owner -/

/-- The checks that the commands of the owner share. -/
theorem writesLines_guards {p : ClientInfo → Thread Unit} {c : ClientInfo → Bool}
    {error error' : String} (h : OneLine (str error)) (h' : OneLine (str error'))
    (hp : ∀ client : ClientInfo, client.Lined → WritesLines (p client) AnyValue) :
    WritesLines (do
      let client ← critical .clientsMutex (clientInfo sock)
      if client.roomId.isEmpty then reply sock (errorText error)
      else if c client then reply sock (errorText error')
      else p client : Thread Unit) AnyValue :=
  writesLines_seq writesLines_clientInfo fun client hc =>
    writesLines_ite (writesLines_error h) (writesLines_ite (writesLines_error h') (hp client hc))

theorem writesLines_findClientByUsername (username : Bytes) :
    WritesLines (findClientByUsername username roomId) AnyValue :=
  writesLines_critical (keepsLines_read _)

theorem writesLines_handleKickCommand {params : Bytes} (h : OneLine params) :
    WritesLines (handleKickCommand sock params) AnyValue := by
  refine writesLines_ite (writesLines_error (by decide))
    (writesLines_guards (by decide) (by decide) fun client hc => ?_)
  refine writesLines_ite (writesLines_error (by decide)) ?_
  refine writesLines_seq (writesLines_findClientByUsername _) fun t _ => ?_
  refine writesLines_ite (writesLines_error (by decide)) ?_
  refine writesLines_seq (K := AnyValue) (writesLines_step (keepsLines_bind (keepsLines_timestamp 0)
    fun _ ht => keepsLines_send t (isLine_systemText ht (by decide)))) fun _ _ => ?_
  refine writesLines_seq (writesLines_reply ⟨str "KICKED_FROM_ROOM", rfl, by decide⟩) fun _ _ => ?_
  refine writesLines_seq (K := AnyValue) (writesLines_critical ?_) fun _ _ =>
    writesLines_critical (keepsLines_leave t)
  refine keepsLines_bind (keepsLines_roomExists _) fun _ _ =>
    keepsLines_ite ?_ (keepsLines_pure trivial)
  exact keepsLines_bind (keepsLines_timestamp 0) fun _ ht => keepsLines_bind
    (keepsLines_broadcastToAll _ (isLine_systemText ht (h.trim.append (by decide)))) fun _ _ =>
      keepsLines_removeClient t

theorem keepsLines_expelBanned {username : Bytes} (hu : OneLine username) (t : SOCKET) :
    KeepsLines (expelBanned roomId username t) AnyValue := by
  refine keepsLines_bind (keepsLines_timestamp 0) fun _ ht => ?_
  refine keepsLines_bind (keepsLines_send t (isLine_systemText ht (by decide))) fun _ _ => ?_
  refine keepsLines_bind (keepsLines_send t ⟨str "KICKED_FROM_ROOM", rfl, by decide⟩) fun _ _ => ?_
  exact keepsLines_bind (keepsLines_timestamp 1) fun _ ht => keepsLines_bind
    (keepsLines_broadcastToAll _ (isLine_systemText ht (hu.append (by decide)))) fun _ _ =>
      keepsLines_removeClient t

theorem writesLines_handleBanCommand {params : Bytes} (h : OneLine params) :
    WritesLines (handleBanCommand sock params) AnyValue := by
  refine writesLines_ite (writesLines_error (by decide))
    (writesLines_guards (by decide) (by decide) fun client hc => ?_)
  refine writesLines_ite (writesLines_error (by decide)) ?_
  refine writesLines_seq (writesLines_findClientByUsername _) fun t _ => writesLines_holding ?_
  refine writesLines_seq (writesLines_step (keepsLines_roomExists _)) fun _ _ =>
    writesLines_ite ?_ trivial
  refine writesLines_seq (K := AnyValue) (writesLines_step ?_) fun _ _ => ?_
  · refine keepsLines_bind (keepsLines_tellRoom _ fun _ hr => ⟨hr.password, hr.history⟩) fun _ _ =>
      keepsLines_tellDatabase fun e calls db row hrow => ?_
    simp only [Database.addBan] at hrow
    split at hrow <;> exact hrow
  have hdone : WritesLines (reply sock (str "SUCCESS: User " ++ trim params ++
      str " has been banned\n")) AnyValue := by
    refine writesLines_reply ⟨str "SUCCESS: User " ++ trim params ++ str " has been banned", ?_,
      ((show OneLine (str "SUCCESS: User ") by decide).append h.trim).append (by decide)⟩
    rw [List.append_assoc _ _ [newline]]
    rfl
  refine writesLines_ite hdone ?_
  refine writesLines_seq (writesLines_step (keepsLines_expelBanned h.trim t)) fun _ _ => ?_
  exact writesLines_seq (writesLines_critical (keepsLines_leave t)) fun _ _ => hdone

theorem writesLines_handleTransferCommand {params : Bytes} (h : OneLine params) :
    WritesLines (handleTransferCommand sock params) AnyValue := by
  refine writesLines_ite (writesLines_error (by decide))
    (writesLines_guards (by decide) (by decide) fun client hc => ?_)
  refine writesLines_ite (writesLines_error (by decide)) ?_
  refine writesLines_seq (writesLines_findClientByUsername _) fun t _ => ?_
  refine writesLines_ite (writesLines_error (by decide)) (writesLines_holding ?_)
  refine writesLines_seq (writesLines_step (keepsLines_roomExists _)) fun _ _ =>
    writesLines_ite ?_ trivial
  refine writesLines_seq (writesLines_step (keepsLines_tellRoom _ fun _ hr =>
    ⟨hr.password, hr.history⟩)) fun _ _ => writesLines_critical ?_
  have hflag : ∀ (u : SOCKET) (b : Bool),
      KeepsLines (setClientInfo u fun c => { c with isRoomOwner := b }) AnyValue := fun u b =>
    keepsLines_setClientInfo u fun _ h => ⟨h.username, h.roomId⟩
  refine keepsLines_bind (hflag sock false) fun _ _ => keepsLines_bind (hflag t true) fun _ _ => ?_
  refine keepsLines_bind (keepsLines_tellDatabase fun e calls db row hrow => ?_) fun _ _ => ?_
  · simp only [Database.updateRoomOwner] at hrow
    split at hrow <;> exact hrow
  refine keepsLines_bind (keepsLines_timestamp 0) fun _ ht => ?_
  refine keepsLines_bind (keepsLines_broadcastToAll _ (isLine_systemText ht
    ((show OneLine (str "Room ownership transferred to ") by decide).append h.trim))) fun _ _ => ?_
  refine keepsLines_bind (keepsLines_send sock (isLine_of_oneLine
    ((show OneLine (str "SUCCESS: Ownership transferred to ") by decide).append h.trim))) fun _ _ => ?_
  exact keepsLines_send t ⟨str "OWNERSHIP_RECEIVED", rfl, by decide⟩

theorem writesLines_handleLeaveCommand : WritesLines (handleLeaveCommand sock) AnyValue := by
  refine writesLines_seq writesLines_clientInfo fun client hc => ?_
  refine writesLines_ite (writesLines_error (by decide)) ?_
  refine writesLines_ite (writesLines_reply ⟨str "OWNER_LEAVE_WARNING", rfl, by decide⟩) ?_
  refine writesLines_seq (writesLines_critical (keepsLines_leaveRoom hc.username)) fun _ _ => ?_
  exact writesLines_seq (writesLines_critical (keepsLines_setClientInfo sock fun _ h =>
    ⟨h.username, oneLine_nil⟩)) fun _ _ => writesLines_reply ⟨str "LEFT_ROOM", rfl, by decide⟩

theorem writesLines_promoteOther (t : SOCKET) :
    WritesLines (promoteOther roomId t sock) OneLine := by
  refine writesLines_ite (writesLines_critical ?_) oneLine_nil
  refine keepsLines_bind (keepsLines_read _) fun _ _ => keepsLines_ite ?_
    (keepsLines_pure oneLine_nil)
  refine keepsLines_bind (keepsLines_clientInfo t) fun client hc => ?_
  refine keepsLines_bind (keepsLines_setClientInfo t fun _ h => ⟨h.username, h.roomId⟩)
    fun _ _ => ?_
  exact keepsLines_bind (keepsLines_tellRoom roomId fun _ h => ⟨h.password, h.history⟩)
    fun _ _ => keepsLines_pure hc.username

theorem keepsLines_announceNewOwner {name : Bytes} (hn : OneLine name) (t : SOCKET) :
    KeepsLines (announceNewOwner roomId name t) AnyValue := by
  refine keepsLines_ite (keepsLines_pure trivial) ?_
  exact keepsLines_bind (keepsLines_timestamp 1) fun _ ht => keepsLines_bind
    (keepsLines_broadcastToAll roomId (isLine_systemText ht
      ((show OneLine (str "Room ownership transferred to ") by decide).append hn))) fun _ _ =>
        keepsLines_send t ⟨str "OWNERSHIP_RECEIVED", rfl, by decide⟩

theorem keepsLines_announceForceLeave {username name : Bytes} (hu : OneLine username)
    (hn : OneLine name) (t : SOCKET) :
    KeepsLines (announceForceLeave roomId username name t sock) AnyValue := by
  refine keepsLines_bind (keepsLines_timestamp 0) fun _ ht => ?_
  refine keepsLines_bind (keepsLines_announceNewOwner hn t) fun _ _ => ?_
  refine keepsLines_bind (keepsLines_broadcast sock roomId
    (isLine_systemText ht (hu.append (by decide)))) fun _ _ => ?_
  refine keepsLines_bind (keepsLines_removeClient sock) fun _ _ => ?_
  exact keepsLines_bind (keepsLines_ask roomId _) fun _ _ =>
    keepsLines_ite (keepsLines_spawnCleanup roomId) (keepsLines_pure trivial)

theorem writesLines_handOverRoom {client : ClientInfo} (hc : client.Lined) :
    WritesLines (handOverRoom sock client) AnyValue := by
  refine writesLines_holding (writesLines_seq (writesLines_step (keepsLines_roomExists _))
    fun _ _ => writesLines_ite ?_ trivial)
  have hchoose : KeepsLines (chooseNewOwner client.roomId sock) AnyValue := by
    refine keepsLines_bind (keepsLines_ask _ _) fun _ _ => keepsLines_ite ?_
      (keepsLines_pure trivial)
    refine keepsLines_bind (keepsLines_longestMember _) fun t _ => keepsLines_ite ?_
      (keepsLines_pure trivial)
    exact keepsLines_bind (keepsLines_ask _ _) fun _ _ => keepsLines_pure trivial
  refine writesLines_seq (writesLines_step hchoose) fun t _ => ?_
  exact writesLines_seq (writesLines_promoteOther t) fun name hn =>
    writesLines_step (keepsLines_announceForceLeave hc.username hn t)

theorem writesLines_handleForceLeaveCommand :
    WritesLines (handleForceLeaveCommand sock) AnyValue :=
  writesLines_guards (by decide) (by decide) fun client hc => by
    refine writesLines_seq (writesLines_handOverRoom hc) fun _ _ => ?_
    exact writesLines_seq (writesLines_critical (keepsLines_leave sock)) fun _ _ =>
      writesLines_reply ⟨str "LEFT_ROOM", rfl, by decide⟩

theorem writesLines_handleChangePasswordCommand {params : Bytes} (h : OneLine params) :
    WritesLines (handleChangePasswordCommand sock params) AnyValue := by
  refine writesLines_ite (writesLines_error (by decide))
    (writesLines_guards (by decide) (by decide) fun client hc => writesLines_critical ?_)
  refine keepsLines_bind (keepsLines_roomExists _) fun _ _ =>
    keepsLines_ite ?_ (keepsLines_pure trivial)
  refine keepsLines_bind (keepsLines_ask _ _) fun _ _ =>
    keepsLines_ite (keepsLines_send sock (isLine_errorText (by decide))) ?_
  refine keepsLines_bind (keepsLines_tellRoom _ fun _ hr => ⟨h.trim, hr.history⟩) fun _ _ => ?_
  refine keepsLines_bind (keepsLines_tellDatabase fun e calls db row hrow => ?_) fun _ _ => ?_
  · simp only [Database.updateRoomPassword] at hrow
    split at hrow <;> exact hrow
  refine keepsLines_bind (keepsLines_send sock (isLine_of_oneLine
    ((show OneLine (str "PASSWORD_CHANGED:") by decide).append h.trim))) fun _ _ => ?_
  exact keepsLines_bind (keepsLines_timestamp 0) fun _ ht =>
    keepsLines_broadcast sock _ (isLine_systemText ht (by decide))

/-! ### Events -/

/-- No newline in what a command hands to its handler. -/
def Command.Lined : Command → Prop
  | .create params => OneLine params
  | .join params => OneLine params
  | .setName name => OneLine name
  | .kick params => OneLine params
  | .ban params => OneLine params
  | .transfer params => OneLine params
  | .changePassword params => OneLine params
  | _ => True

theorem Command.lined_ite {p : Prop} [Decidable p] {c c' : Command} (h : c.Lined)
    (h' : c'.Lined) : (if p then c else c').Lined := by
  split
  · exact h
  · exact h'

theorem lined_parseCommand (text : Bytes) : (parseCommand text).Lined := by
  have hparams := oneLine_getline (afterWord text)
  rw [parseCommand]
  refine Command.lined_ite hparams (Command.lined_ite hparams (Command.lined_ite hparams ?_))
  refine Command.lined_ite trivial (Command.lined_ite trivial (Command.lined_ite trivial ?_))
  refine Command.lined_ite hparams (Command.lined_ite hparams (Command.lined_ite hparams ?_))
  exact Command.lined_ite trivial (Command.lined_ite trivial (Command.lined_ite hparams trivial))

theorem writesLines_runCommand {c : Command} (h : c.Lined) :
    WritesLines (runCommand sock c) AnyValue := by
  cases c with
  | create params => exact writesLines_handleCreateCommand params
  | join params => exact writesLines_handleJoinCommand h
  | setName name => exact writesLines_handleSetNameCommand h
  | list => exact writesLines_handleListCommand
  | getPassword => exact writesLines_handleGetPasswordCommand
  | users => exact writesLines_handleUsersCommand
  | kick params => exact writesLines_handleKickCommand h
  | ban params => exact writesLines_handleBanCommand h
  | transfer params => exact writesLines_handleTransferCommand h
  | leave => exact writesLines_handleLeaveCommand
  | forceLeave => exact writesLines_handleForceLeaveCommand
  | changePassword params => exact writesLines_handleChangePasswordCommand h
  | unknown => exact writesLines_error (by decide)

theorem writesLines_pushMessage {message : Message} (h : message.Lined) :
    WritesLines (pushMessage message) AnyValue := by
  refine writesLines_critical fun e s hs =>
    ⟨.of_net ⟨hs.clients, hs.rooms, fun msg hm => ?_, hs.database, hs.net⟩ rfl, trivial⟩
  rcases List.mem_append.1 hm with hm | hm
  · exact hs.queue msg hm
  · exact List.mem_singleton.1 hm ▸ h

theorem writesLines_runRequest {text : Bytes} (h : OneLine text) :
    WritesLines (runRequest sock (parseText text)) AnyValue := by
  unfold parseText
  split
  · exact writesLines_runCommand (lined_parseCommand _)
  · split
    · unfold parsePrivateMessage
      split
      · exact writesLines_error (by decide)
      · dsimp only
        split
        · exact writesLines_error (by decide)
        · split
          · exact writesLines_error (by decide)
          · refine writesLines_seq writesLines_clientInfo fun client hc => ?_
            refine writesLines_ite (writesLines_error (by decide)) ?_
            refine writesLines_ite (writesLines_error (by decide)) (writesLines_pushMessage ?_)
            exact ⟨(h.sublist (List.drop_sublist _ _)).trim, hc.username,
              (h.sublist ((List.take_sublist _ _).trans (List.drop_sublist _ _))).trim⟩
    · refine writesLines_seq writesLines_clientInfo fun client hc => ?_
      exact writesLines_ite (writesLines_error (by decide))
        (writesLines_pushMessage ⟨h, hc.username, oneLine_nil⟩)

/-- The handler of an event writes lines when what it has received is one line. -/
theorem writesLines_handler {ev : Event} (h : ∀ sock buffer, ev = .receive sock buffer → OneLine buffer) :
    WritesLines ev.handler AnyValue := by
  cases ev with
  | connect sock =>
      refine writesLines_seq (K := AnyValue) (writesLines_step fun e s hs =>
        ⟨hs.append_net fun op hop => ?_, trivial⟩) fun _ _ => ?_
      · rw [List.mem_singleton.1 hop]
        exact trivial
      refine writesLines_seq (K := AnyValue) (writesLines_critical fun e s hs =>
        ⟨.of_net ?_ rfl, trivial⟩) fun _ _ => ?_
      · exact hs.setInfo sock (f := fun _ => {}) fun _ _ => ⟨oneLine_nil, oneLine_nil⟩
      refine writesLines_seq (K := AnyValue) (writesLines_critical fun e s hs =>
        ⟨.of_net ⟨hs.clients, hs.rooms, hs.queue, hs.database, hs.net⟩ rfl, trivial⟩) fun _ _ => ?_
      exact writesLines_reply ⟨str "WELCOME:Chat Server", rfl, by decide⟩
  | hangup sock =>
      refine writesLines_seq writesLines_removeClientFromRoom fun _ _ => ?_
      refine writesLines_seq (K := AnyValue) (writesLines_critical fun e s hs =>
        ⟨.of_net ⟨fun t c hc => ?_, hs.rooms, hs.queue, hs.database, hs.net⟩ rfl, trivial⟩)
          fun _ _ => ?_
      · have hc' : (s.clients.erase sock)[t]? = some c := hc
        rw [Std.ExtTreeMap.getElem?_erase] at hc'
        split at hc'
        · simp at hc'
        · exact hs.clients t c hc'
      refine writesLines_seq (K := AnyValue) (writesLines_step fun e s hs =>
        ⟨hs.append_net fun op hop => ?_, trivial⟩) fun _ _ => ?_
      · rw [List.mem_singleton.1 hop]
        exact trivial
      exact writesLines_critical fun e s hs =>
        ⟨.of_net ⟨hs.clients, hs.rooms, hs.queue, hs.database, hs.net⟩ rfl, trivial⟩
  | receive sock buffer =>
      show WritesLines (handleClientMessage sock buffer) AnyValue
      rw [handleClientMessage]
      cases ht : actedText buffer with
      | none => exact trivial
      | some text =>
          refine writesLines_runRequest ?_
          simp only [actedText, Option.ite_none_left_eq_some, Option.some.injEq] at ht
          rw [← ht.2]
          exact (h sock buffer rfl).trim

end Handlers

/-! ## The other threads -/

theorem lined_saveMessage {db : Database} (hd : db.Lined) (calls : Nat → Bool) (t : UtcTime)
    (roomId : Bytes) {sender content : Bytes} (hs : OneLine sender) (hc : OneLine content)
    (isPrivate : Bool) (recipient : Bytes) :
    (db.saveMessage calls t.text roomId sender content isPrivate recipient).Lined := by
  intro row hrow
  unfold Database.saveMessage at hrow
  split at hrow
  · rcases List.mem_append.1 hrow with hrow | hrow
    · exact hd row hrow
    · rw [List.mem_singleton.1 hrow]
      exact ⟨oneLine_cString hs, oneLine_cString hc, oneLine_utcTime t⟩
  · exact hd row hrow

theorem keepsLines_deliverPublic {message : Message} (h : message.Lined) :
    KeepsLines (deliverPublic message) AnyValue := by
  intro e s hs
  have hline := isHistoryLine_chatText (e.wall 0) h.senderName h.content
  simp only [deliverPublic, Block.post_bind, post_getCurrentTimestamp, post_tellRoom,
    post_broadcast, post_tellDatabase]
  have hroom : ∀ room : ChatRoom, room.Lined → (room.addMessageToHistory
      (chatText (e.wall 0).text message.senderName message.content)).Lined := by
    intro room hr
    have hall : ∀ msg ∈ room.messageHistory ++
        [chatText (e.wall 0).text message.senderName message.content], IsHistoryLine msg := by
      intro msg hm
      rcases List.mem_append.1 hm with hm | hm
      · exact hr.history msg hm
      · exact List.mem_singleton.1 hm ▸ hline
    refine ⟨hr.password, fun msg hm => ?_⟩
    simp only [ChatRoom.addMessageToHistory] at hm
    split at hm
    · exact hall msg (List.mem_of_mem_tail hm)
    · exact hall msg hm
  have h₁ := (hs.editRoom message.roomId hroom).sendAll
    (((s.editRoom message.roomId fun room => room.addMessageToHistory
      (chatText (e.wall 0).text message.senderName message.content)).chatRooms[message.roomId]?.map
        fun room => room.broadcastTargets message.senderSocket).getD []) hline.isLine
  exact ⟨⟨⟨h₁.lined.clients, h₁.lined.rooms, h₁.lined.queue,
    lined_saveMessage h₁.lined.database _ _ _ h.senderName h.content _ _, h₁.lined.net⟩, h₁.net⟩,
      trivial⟩

theorem isLine_privateText (t : LocalTm) {tag : String} {name content : Bytes}
    (ht : OneLine (str tag)) (hn : OneLine name) (hc : OneLine content) :
    IsLine (privateText t.text tag name content) :=
  isLine_of_oneLine ((((((oneLine_localTm t).append (by decide)).append ht).append hn).append
    (by decide)).append hc)

theorem keepsLines_deliverPrivate {message : Message} (h : message.Lined) (t : SOCKET) :
    KeepsLines (deliverPrivate message t) AnyValue := by
  have hmissing : IsLine (str "ERROR: User '" ++ message.recipientName ++
      str "' not found in this room\n") := by
    refine ⟨str "ERROR: User '" ++ message.recipientName ++ str "' not found in this room", ?_,
      ((show OneLine (str "ERROR: User '") by decide).append h.recipientName).append (by decide)⟩
    rw [List.append_assoc _ _ [newline]]
    rfl
  refine keepsLines_ite (keepsLines_send _ hmissing) fun e s hs => ?_
  simp only [Block.post_bind, post_getCurrentTimestamp, post_sendToClient, post_tellDatabase]
  have h₁ : Writes s (s.send t (privateText (e.wall 0).text "PM_FROM:" message.senderName
      message.content)) := (keepsLines_send t
    (isLine_privateText (e.wall 0) (by decide) h.senderName h.content) e s hs).1
  have h₂ := h₁.trans (keepsLines_send message.senderSocket (isLine_privateText (e.wall 0)
    (show OneLine (str "PM_SENT:") by decide) h.recipientName h.content) e _ h₁.lined).1
  exact ⟨⟨⟨h₂.lined.clients, h₂.lined.rooms, h₂.lined.queue,
    lined_saveMessage h₂.lined.database _ _ _ h.senderName h.content _ _, h₂.lined.net⟩, h₂.net⟩,
      trivial⟩

theorem keepsLines_popMessage :
    KeepsLines popMessage fun message => ∀ msg ∈ message, msg.Lined := by
  intro e s hs
  exact ⟨.of_net ⟨hs.clients, hs.rooms, fun msg hm => hs.queue msg (List.mem_of_mem_tail hm),
    hs.database, hs.net⟩ rfl, fun msg hm => hs.queue msg (List.mem_of_head? hm)⟩

theorem writesLines_deliverMessage {message : Message} (h : message.Lined) :
    WritesLines (deliverMessage message) AnyValue := by
  refine writesLines_holding (writesLines_seq (writesLines_step (keepsLines_roomExists _))
    fun _ _ => writesLines_ite (writesLines_ite ?_ ?_) trivial)
  · exact writesLines_seq (writesLines_findClientByUsername _) fun t _ =>
      writesLines_step (keepsLines_deliverPrivate h t)
  · exact writesLines_step (keepsLines_deliverPublic h)

/-- A round of the broadcaster writes lines. -/
theorem writesLines_broadcastRound : WritesLines broadcastRound AnyValue := by
  refine writesLines_seq (writesLines_step (keepsLines_read _)) fun _ _ =>
    writesLines_ite trivial ?_
  refine writesLines_seq (K := fun message => ∀ msg ∈ message, msg.Lined)
    (writesLines_holding ?_) fun message hm => ?_
  · refine writesLines_seq (writesLines_step (keepsLines_read _)) fun ready _ => ?_
    have hpop := writesLines_step keepsLines_popMessage
    split
    · exact hpop
    · exact hpop
  · cases message with
    | none => exact trivial
    | some message => exact writesLines_deliverMessage (hm message rfl)

/-! ## Runs -/

namespace Machine

/-- Everything the server keeps is lined, and every thread writes lines. -/
structure WritesLines (m : Machine) : Prop where
  globals : Lined m.globals
  threads : ∀ t, Server.WritesLines (m.config.prog t) AnyValue

variable {m m' : Machine}

theorem writesLines_boot {db : Database} (hdb : db.Lined) (listenSocket : SOCKET) :
    (boot db listenSocket).WritesLines where
  globals := ⟨fun _ _ h => by simp [globals, boot, Globals.boot] at h,
    fun _ _ h => by simp [globals, boot, Globals.boot] at h,
    fun _ h => by simp [globals, boot, Globals.boot] at h, hdb,
    fun _ h => by simp [globals, boot, Globals.boot] at h⟩
  threads _ := trivial

theorem threads_start (hm : m.WritesLines) (u : Tid) {p : Thread Unit}
    (hp : Server.WritesLines p AnyValue) (t : Tid) :
    Server.WritesLines ((m.config.start u p).prog t) AnyValue := by
  by_cases hu : t = u
  · subst hu
    simpa [Config.start] using hp
  · simpa [Config.start, Function.update_of_ne hu] using hm.threads t

/-- A step of a server that receives one line at a time writes lines. -/
theorem WritesLines.next (hm : m.WritesLines) {l : Label}
    (hl : ∀ sock buffer, l = .event (.receive sock buffer) → OneLine buffer)
    (h : m.next l = some m') : m'.WritesLines ∧ m.globals.net <+: m'.globals.net := by
  have hg := hm.globals
  cases l with
  | event ev =>
      simp only [Machine.next, Option.ite_none_right_eq_some, Option.some.injEq] at h
      obtain ⟨-, rfl⟩ := h
      exact ⟨⟨hg, threads_start hm .main (writesLines_handler fun sock buffer he =>
        hl sock buffer (congrArg Label.event he))⟩, List.prefix_refl _⟩
  | round =>
      simp only [Machine.next, Option.ite_none_right_eq_some, Option.some.injEq] at h
      obtain ⟨-, rfl⟩ := h
      exact ⟨⟨hg, threads_start hm .broadcaster writesLines_broadcastRound⟩, List.prefix_refl _⟩
  | wake i =>
      simp only [Machine.next] at h
      cases hi : m.globals.pendingCleanups[i]? with
      | none => simp [hi] at h
      | some roomId =>
          simp only [hi, Option.some.injEq] at h
          subst h
          exact ⟨⟨⟨hg.clients, hg.rooms, hg.queue, hg.database, hg.net⟩,
            threads_start hm (.cleanup m.woken) writesLines_cleanupEmptyRoom⟩, List.prefix_refl _⟩
  | run t e =>
      simp only [Machine.next, Option.map_eq_some_iff] at h
      obtain ⟨c, hc, rfl⟩ := h
      obtain ⟨ht, hs⟩ := Config.guar_stepThread hc hg (hm.threads t)
      -- taking or releasing a mutex writes nothing
      have hw : Writes m.globals c.shared := by
        rcases hs with hs | hs
        · exact hs ▸ .of_net hg rfl
        · exact hs
      refine ⟨⟨hw.lined, fun u => ?_⟩, hw.net⟩
      by_cases hu : u = t
      · rw [hu]
        exact ht
      · show Server.WritesLines (c.prog u) AnyValue
        rw [Config.stepThread_prog_of_ne hc hu]
        exact hm.threads u
  | tick d =>
      simp only [Machine.next, Option.some.injEq] at h
      subst h
      exact ⟨⟨⟨hg.clients, hg.rooms, hg.queue, hg.database, hg.net⟩, hm.threads⟩,
        List.prefix_refl _⟩
  | signal =>
      simp only [Machine.next, Option.some.injEq] at h
      subst h
      exact ⟨⟨⟨hg.clients, hg.rooms, hg.queue, hg.database, hg.net⟩, hm.threads⟩,
        List.prefix_refl _⟩

end Machine

end TerminalChat.Server
