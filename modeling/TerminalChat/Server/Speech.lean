import Mathlib
import TerminalChat.Server.Deliveries
import TerminalChat.Server.LineKeeping
import TerminalChat.Server.Upholding

/-!
# What the server says

Everything that the server sends is one of four things (`Spoken`): a SYSTEM line with one of a few
notices, the line of a chat message, the line of a private message, or an answer. This holds of every
handler, of the broadcaster and of the cleanup threads, whatever the clients send, and so along every run
(`Machine.speaking_of_reachable`).
-/

set_option autoImplicit false

namespace TerminalChat.Server

open TerminalChat.Concurrency TerminalChat.Text

/-- What a SYSTEM line can say. -/
inductive SystemNotice where
  | hasJoined (name : Bytes)
  | hasLeft (name : Bytes)
  | hasBeenKicked (name : Bytes)
  | hasBeenBanned (name : Bytes)
  | ownershipTransferred (name : Bytes)
  | youHaveBeenKicked
  | youHaveBeenBanned
  | passwordChanged
  deriving DecidableEq

/-- The text of a notice, as the handlers write it. -/
def SystemNotice.text : SystemNotice → Bytes
  | .hasJoined name => name ++ str " has joined the room"
  | .hasLeft name => name ++ str " has left the room"
  | .hasBeenKicked name => name ++ str " has been kicked from the room"
  | .hasBeenBanned name => name ++ str " has been banned from the room"
  | .ownershipTransferred name => str "Room ownership transferred to " ++ name
  | .youHaveBeenKicked => str "You have been kicked from the room by the owner"
  | .youHaveBeenBanned => str "You have been banned from the room by the owner"
  | .passwordChanged => str "Room password has been changed by the owner"

/-- The name in a notice is one that SETNAME can have set, or blank. -/
def SystemNotice.Named : SystemNotice → Prop
  | .hasJoined name => NameOk name
  | .hasLeft name => NameOk name
  | .hasBeenKicked name => NameOk name
  | .hasBeenBanned name => NameOk name
  | .ownershipTransferred name => NameOk name
  | _ => True

/-- What a `send` can be given. An answer does not begin like a line with a clock reading. -/
inductive Spoken : Bytes → Prop where
  | notice (now : LocalTm) (notice : SystemNotice) (h : notice.Named) :
      Spoken (systemText now.text notice.text)
  | chat (now : LocalTm) (name content : Bytes) : Spoken (chatText now.text name content)
  | whisper (now : LocalTm) (tag : String) (name content : Bytes) :
      Spoken (privateText now.text tag name content)
  | answer (c : UInt8) (body : Bytes) (h : c ≠ 91) : Spoken (c :: body ++ str "\n")

/-- The line of a chat message, at some time. -/
def IsChat (text : Bytes) : Prop := ∃ (now : LocalTm) (name content : Bytes),
  text = chatText now.text name content

/-- What a replay can be given: a line from the memory of a room or one from the database. -/
def Recited (text : Bytes) : Prop := IsChat text ∨ ∃ row, text = Database.historyLine row

/-- What a socket operation sends. -/
def NetOp.Spoken : NetOp → Prop
  | .sent _ text => Server.Spoken text
  | .replayed _ text => Recited text
  | _ => True

/-- The names are good, the memory of the rooms holds chat lines, and all that has been sent is
speech. -/
structure Speaking (s : Globals) : Prop where
  names : ∀ t, NameOk (s.info t).username
  history : ∀ (r : Bytes) (room : ChatRoom), s.chatRooms[r]? = some room →
    ∀ text ∈ room.messageHistory, IsChat text
  net : ∀ op ∈ s.net, op.Spoken

section State

variable {s : Globals}

theorem Speaking.setInfo (hs : Speaking s) (sock : SOCKET) {f : ClientInfo → ClientInfo}
    (hf : NameOk (s.info sock).username → NameOk (f (s.info sock)).username) :
    Speaking (s.setInfo sock f) := by
  refine ⟨fun t => ?_, hs.history, hs.net⟩
  rw [info_setInfo]
  by_cases ht : t = sock
  · rw [if_pos ht]
    exact hf (hs.names sock)
  · rw [if_neg ht]
    exact hs.names t

theorem Speaking.editRoom (hs : Speaking s) (q : Bytes) {f : ChatRoom → ChatRoom}
    (hf : ∀ room, ∀ text ∈ (f room).messageHistory, text ∈ room.messageHistory ∨ IsChat text) :
    Speaking (s.editRoom q f) := by
  refine ⟨hs.names, fun r room hr text ht => ?_, hs.net⟩
  rw [Globals.getElem?_editRoom] at hr
  split at hr
  · obtain ⟨room₀, h₀, rfl⟩ := Option.map_eq_some_iff.1 hr
    rcases hf room₀ text ht with h | h
    · exact hs.history r room₀ h₀ text h
    · exact h
  · exact hs.history r room hr text ht

theorem Speaking.append (hs : Speaking s) {ops : List NetOp} (h : ∀ op ∈ ops, op.Spoken) :
    Speaking { s with net := s.net ++ ops } := by
  refine ⟨hs.names, hs.history, fun op hop => ?_⟩
  rcases List.mem_append.1 hop with hop | hop
  · exact hs.net op hop
  · exact h op hop

theorem Speaking.sendAll (hs : Speaking s) (socks : List SOCKET) {text : Bytes} (h : Spoken text) :
    Speaking (s.sendAll socks text) := by
  apply hs.append
  intro op hop
  obtain ⟨t, -, rfl⟩ := List.mem_map.1 hop
  exact h

theorem Speaking.chatRooms (hs : Speaking s) {chatRooms : Std.ExtTreeMap Bytes ChatRoom}
    (h : ∀ (r : Bytes) (room : ChatRoom), chatRooms[r]? = some room →
      s.chatRooms[r]? = some room ∨ room.messageHistory = []) :
    Speaking { s with chatRooms := chatRooms } := by
  refine ⟨hs.names, fun r room hr text ht => ?_, hs.net⟩
  rcases h r room hr with h | h
  · exact hs.history r room h text ht
  · rw [h] at ht
    exact absurd ht List.not_mem_nil

end State

/-- An answer that begins with a label. -/
theorem spoken_answer (label : Bytes) (h : (label.head?.any fun c => c != 91) = true)
    (rest : Bytes) : Spoken (label ++ rest ++ str "\n") := by
  cases label with
  | nil => exact absurd h (by simp)
  | cons c label => exact .answer c (label ++ rest) (by simpa using h)

/-- An answer that ends with a fixed text. -/
theorem spoken_answer_to (label : Bytes) (h : (label.head?.any fun c => c != 91) = true)
    (middle : Bytes) {tail b : Bytes} (ht : tail = b ++ str "\n") :
    Spoken (label ++ middle ++ tail) := by
  have hassoc : label ++ middle ++ tail = label ++ (middle ++ b) ++ str "\n" := by
    rw [ht, List.append_assoc, List.append_assoc, List.append_assoc]
  rw [hassoc]
  exact spoken_answer label h (middle ++ b)

theorem spoken_errorText (text : String) : Spoken (errorText text) :=
  spoken_answer (str "ERROR: ") (by decide) (str text)

theorem spoken_notice {timestamp : Bytes} (ht : ∃ now : LocalTm, timestamp = now.text)
    (notice : SystemNotice) (h : notice.Named) : Spoken (systemText timestamp notice.text) := by
  obtain ⟨now, rfl⟩ := ht
  exact .notice now notice h

/-! ## The statements of the handlers -/

section Statements

variable (sock : SOCKET) (roomId : Bytes)

theorem speaks_send {text : Bytes} (h : Spoken text) :
    Upholds Speaking (sendToClient sock text) Whatever :=
  fun _ _ hs => ⟨hs.sendAll [sock] h, trivial⟩

theorem speaks_timestamp (k : Nat) :
    Upholds Speaking (getCurrentTimestamp k) fun text => ∃ now : LocalTm, text = now.text :=
  fun _ _ hs => ⟨hs, _, rfl⟩

theorem speaks_clientInfo :
    Upholds Speaking (clientInfo sock) fun client => NameOk client.username :=
  fun _ _ hs => ⟨hs, hs.names sock⟩

theorem speaks_clientRef :
    Upholds Speaking (clientRef sock) fun client => NameOk client.username :=
  fun _ _ hs => ⟨hs.setInfo sock fun h => h, hs.names sock⟩

theorem speaks_setClientInfo {f : ClientInfo → ClientInfo}
    (hf : ∀ c : ClientInfo, NameOk c.username → NameOk (f c).username) :
    Upholds Speaking (setClientInfo sock f) Whatever :=
  fun _ _ hs => ⟨hs.setInfo sock (hf _), trivial⟩

theorem speaks_tellRoom {f : ChatRoom → ChatRoom}
    (hf : ∀ room, (f room).messageHistory = room.messageHistory) :
    Upholds Speaking (tellRoom roomId f) Whatever := by
  refine fun _ _ hs => ⟨hs.editRoom roomId fun room text ht => Or.inl ?_, trivial⟩
  rw [hf] at ht
  exact ht

theorem speaks_addClient : Upholds Speaking (addClient roomId sock) Whatever :=
  fun _ _ hs => ⟨hs.editRoom roomId fun _ _ ht => Or.inl ht, trivial⟩

theorem speaks_broadcast {text : Bytes} (h : Spoken text) :
    Upholds Speaking (broadcast roomId text sock) Whatever := fun _ _ hs => ⟨hs.sendAll _ h, trivial⟩

theorem speaks_broadcastToAll {text : Bytes} (h : Spoken text) :
    Upholds Speaking (broadcastToAll roomId text) Whatever := fun _ _ hs => ⟨hs.sendAll _ h, trivial⟩

theorem speaks_tellDatabase (k : Nat) (f : Env → (Nat → Bool) → Database → Database) :
    Upholds Speaking (tellDatabase k f) Whatever :=
  fun _ _ hs => ⟨⟨hs.names, hs.history, hs.net⟩, trivial⟩

theorem speaks_spawnCleanup : Upholds Speaking (spawnCleanup roomId) Whatever :=
  fun _ _ hs => ⟨⟨hs.names, hs.history, hs.net⟩, trivial⟩

end Statements

/-! ## The handlers -/

section Handlers

variable {sock : SOCKET} {roomId : Bytes}

theorem speaks_reply {text : Bytes} (h : Spoken text) :
    Maintains Speaking (reply sock text) Whatever := maintains_step (speaks_send sock h)

theorem speaks_error (text : String) : Maintains Speaking (reply sock (errorText text)) Whatever :=
  speaks_reply (spoken_errorText text)

theorem speaks_client : Maintains Speaking (critical .clientsMutex (clientInfo sock))
    fun client => NameOk client.username := maintains_critical (speaks_clientInfo sock)

theorem speaks_removeClient (t : SOCKET) :
    Upholds Speaking (tellRoom roomId fun room => room.removeClient t) Whatever :=
  speaks_tellRoom roomId fun _ => rfl

theorem speaks_leave (t : SOCKET) : Upholds Speaking
    (setClientInfo t fun c => { c with roomId := [], isRoomOwner := false }) Whatever :=
  speaks_setClientInfo t fun _ h => h

theorem speaks_sweepRoom : Upholds Speaking (sweepRoom roomId) Whatever := by
  apply upholds_bind (upholds_roomExists roomId)
  intro _ _
  apply upholds_ite
  · apply upholds_bind (upholds_ask roomId _)
    intro _ _
    apply upholds_ite
    · refine upholds_bind (K := Whatever) ?_ fun _ _ => speaks_tellDatabase _ _
      intro e s hs
      rw [Block.post_modify]
      -- the rooms that stay keep their histories
      refine ⟨hs.chatRooms fun r room hr => Or.inl ?_, trivial⟩
      rw [Globals.getElem?_eraseRoom] at hr
      split at hr
      · exact absurd hr (by simp)
      · exact hr
    · exact upholds_pure trivial
  · exact upholds_pure trivial

theorem speaks_cleanupEmptyRoom : Maintains Speaking (cleanupEmptyRoom roomId) Whatever :=
  maintains_critical speaks_sweepRoom

theorem speaks_departRoom {username : Bytes} (hu : NameOk username) :
    Upholds Speaking (departRoom roomId username sock) Whatever := by
  apply upholds_bind (speaks_timestamp 0)
  intro _ ht
  apply upholds_bind (speaks_broadcast sock roomId (spoken_notice ht (.hasLeft username) hu))
  intro _ _
  exact speaks_removeClient sock

theorem speaks_leaveRoom {username : Bytes} (hu : NameOk username) :
    Upholds Speaking (leaveRoom roomId username sock) Whatever := by
  apply upholds_bind (upholds_roomExists roomId)
  intro _ _
  apply upholds_ite
  · apply upholds_bind (speaks_departRoom hu)
    intro _ _
    apply upholds_bind (upholds_ask roomId _)
    intro _ _
    exact upholds_ite (speaks_spawnCleanup roomId) (upholds_pure trivial)
  · exact upholds_pure trivial

theorem speaks_removeClientFromRoom : Maintains Speaking (removeClientFromRoom sock) Whatever := by
  apply maintains_seq speaks_client
  -- the name was taken from the record: it fits into one line
  intro client hc
  apply maintains_ite
  · exact maintains_pure trivial
  · refine maintains_seq (K := Whatever) (maintains_critical ?_) fun _ _ => ?_
    · apply upholds_bind (upholds_roomExists _)
      intro _ _
      exact upholds_ite (speaks_departRoom hc) (upholds_pure trivial)
    · apply maintains_seq (maintains_critical (speaks_leave sock))
      intro _ _
      exact speaks_cleanupEmptyRoom

/-! ### CREATE and JOIN -/

theorem speaks_makeRoom (client : ClientInfo) (isPrivate : Bool) (password : Bytes) :
    Maintains Speaking (makeRoom sock client roomId isPrivate password) Whatever := by
  refine maintains_seq (K := Whatever) (maintains_critical ?_) fun _ _ => ?_
  · refine upholds_bind (K := Whatever) ?_ fun _ _ => speaks_addClient sock roomId
    intro e s hs
    rw [Block.post_modify]
    -- the new room has an empty history
    refine ⟨hs.chatRooms fun r room hr => ?_, trivial⟩
    have hr' : (s.insertRoom roomId (ChatRoom.new roomId isPrivate password sock)).chatRooms[r]? =
      some room := hr
    rw [Globals.getElem?_insertRoom] at hr'
    split at hr'
    · rw [Option.some.injEq] at hr'
      exact Or.inr (by rw [← hr']; rfl)
    · exact Or.inl hr'
  · refine maintains_seq (maintains_critical (speaks_setClientInfo sock ?_)) fun _ _ => ?_
    · exact fun _ h => h
    apply maintains_seq (maintains_step (speaks_tellDatabase _ _))
    intro _ _
    apply speaks_reply
    rw [List.append_assoc (str "ROOM_CREATED:"), List.append_assoc (str "ROOM_CREATED:")]
    exact spoken_answer (str "ROOM_CREATED:") (by decide) _

theorem speaks_handleCreateCommand (params : Bytes) :
    Maintains Speaking (handleCreateCommand sock params) Whatever := by
  apply maintains_ite
  · exact speaks_error _
  · refine maintains_seq (K := Whatever) (maintains_step ?_) fun roomId _ => ?_
    · exact fun e s hs => ⟨⟨hs.names, hs.history, hs.net⟩, trivial⟩
    refine maintains_seq (K := Whatever) (maintains_holding ?_) fun client _ =>
      speaks_makeRoom client _ _
    apply maintains_seq (maintains_step (speaks_clientRef sock))
    intro client hc
    apply maintains_ite
    · exact maintains_pure trivial
    · exact maintains_seq (maintains_critical (speaks_leaveRoom hc)) fun _ _ =>
        maintains_pure trivial

/-- What JOIN replays comes from the database or from the memory of the room. -/
theorem speaks_sendHistory : Upholds Speaking (sendHistory sock roomId) Whatever := by
  -- a row is shown as one line of the database
  have hstored : Upholds Speaking (askDatabase 2 fun e calls db =>
      db.getMessageHistory calls e.order roomId MAX_MESSAGE_HISTORY)
        fun history => ∀ text ∈ history, Recited text := by
    intro e s hs
    rw [post_askDatabase]
    refine ⟨hs, fun text ht => Or.inr ?_⟩
    unfold Database.getMessageHistory at ht
    split at ht
    · simp only [List.mem_reverse, List.mem_map] at ht
      obtain ⟨p, -, rfl⟩ := ht
      exact ⟨p.1, rfl⟩
    · exact absurd ht List.not_mem_nil
  -- the memory of a room holds the very lines that were broadcast
  have hmemory : Upholds Speaking (askRoom roomId ChatRoom.messageHistory)
      fun history => ∀ text ∈ history, Recited text := by
    intro e s hs
    rw [post_askRoom]
    refine ⟨hs, fun text ht => Or.inl ?_⟩
    cases hr : s.chatRooms[roomId]? with
    | none =>
        rw [hr] at ht
        exact absurd ht List.not_mem_nil
    | some room =>
        rw [hr] at ht
        exact hs.history roomId room hr text ht
  apply upholds_bind hstored
  intro stored hst
  refine upholds_branch hmemory (upholds_pure hst) fun history hh => ?_
  apply upholds_ite
  · exact upholds_pure trivial
  · apply upholds_bind (speaks_send sock (spoken_answer (str "MESSAGE_HISTORY_START") (by decide) []))
    intro _ _
    refine upholds_bind (K := Whatever) (fun e s hs => ⟨hs.append fun op hop => ?_, trivial⟩)
      fun _ _ => speaks_send sock (spoken_answer (str "MESSAGE_HISTORY_END") (by decide) [])
    obtain ⟨text, ht, rfl⟩ := List.mem_map.1 hop
    exact hh text ht

theorem speaks_admitClient {client : ClientInfo} (hc : NameOk client.username) :
    Upholds Speaking (admitClient sock client roomId) Whatever := by
  refine upholds_bind (K := Whatever) ?_ fun _ _ => ?_
  · exact upholds_ite (upholds_pure trivial) (speaks_leaveRoom hc)
  apply upholds_bind (speaks_addClient sock roomId)
  intro _ _
  refine upholds_bind (speaks_setClientInfo sock ?_) fun _ _ => ?_
  · exact fun _ h => h
  apply upholds_bind (speaks_send sock (spoken_answer (str "ROOM_JOINED:") (by decide) roomId))
  intro _ _
  apply upholds_bind speaks_sendHistory
  intro _ _
  apply upholds_bind (speaks_timestamp 1)
  intro _ ht
  exact speaks_broadcast sock roomId (spoken_notice ht (.hasJoined client.username) hc)

theorem speaks_joinRoom {client : ClientInfo} (hc : NameOk client.username) (password : Bytes) :
    Upholds Speaking (joinRoom sock client roomId password) Whatever := by
  apply upholds_bind (upholds_roomExists roomId)
  intro _ _
  apply upholds_ite
  · exact speaks_send sock (spoken_answer (str "ROOM_NOT_FOUND") (by decide) [])
  apply upholds_bind (upholds_ask roomId _)
  intro banned _
  -- the second opinion on the ban; neither answer is sent
  refine upholds_branch (K := Whatever) (upholds_pure trivial) (upholds_askDatabase _ _)
    fun _ _ => ?_
  apply upholds_ite
  · exact speaks_send sock (spoken_errorText _)
  apply upholds_bind (upholds_ask roomId _)
  intro _ _
  apply upholds_ite
  · exact speaks_send sock (spoken_answer (str "PASSWORD_REQUIRED") (by decide) [])
  refine upholds_branch (K := Whatever) (upholds_ask roomId _) (upholds_pure trivial) fun _ _ => ?_
  apply upholds_ite
  · exact speaks_send sock (spoken_answer (str "WRONG_PASSWORD") (by decide) [])
  · exact speaks_admitClient hc

theorem speaks_handleJoinCommand (params : Bytes) :
    Maintains Speaking (handleJoinCommand sock params) Whatever := by
  apply maintains_ite
  · exact speaks_error _
  · apply maintains_holding
    apply maintains_seq (maintains_step (speaks_clientRef sock))
    intro client hc
    apply maintains_ite
    · exact speaks_error _
    · exact maintains_critical (speaks_joinRoom hc _)

/-! ### Names and lists -/

/-- A parameter that is read to the end of a line and trimmed. -/
theorem nameOk_trim {params : Bytes} (h : OneLine params) : NameOk (trim params) :=
  ⟨trimmed_trim params, h.trim⟩

theorem speaks_handleSetNameCommand {name : Bytes} (h : OneLine name) :
    Maintains Speaking (handleSetNameCommand sock name) Whatever := by
  apply maintains_ite
  · exact speaks_error _
  · apply maintains_seq (maintains_critical (upholds_read _))
    intro _ _
    apply maintains_ite
    · exact speaks_reply (spoken_answer (str "NAME_TAKEN") (by decide) [])
    · refine maintains_seq (maintains_critical (speaks_setClientInfo sock ?_)) fun _ _ => ?_
      · exact fun _ _ => nameOk_trim h
      · exact speaks_reply (spoken_answer (str "NAME_SET") (by decide) [])

theorem speaks_handleListCommand : Maintains Speaking (handleListCommand sock) Whatever :=
  maintains_critical fun _ _ hs =>
    ⟨hs.sendAll [sock] (spoken_answer (str "ROOMS_LIST:") (by decide) _), trivial⟩

theorem speaks_handleGetPasswordCommand :
    Maintains Speaking (handleGetPasswordCommand sock) Whatever := by
  apply maintains_seq speaks_client
  intro client _
  apply maintains_ite
  · exact speaks_error _
  apply maintains_ite
  · exact speaks_error _
  apply maintains_critical
  apply upholds_bind (upholds_roomExists _)
  intro _ _
  apply upholds_ite
  · apply upholds_bind (upholds_ask _ _)
    intro _ _
    apply upholds_ite
    · apply upholds_bind (upholds_ask _ _)
      intro password _
      exact speaks_send sock (spoken_answer (str "ROOM_PASSWORD:") (by decide) password)
    · exact speaks_send sock (spoken_errorText _)
  · exact upholds_pure trivial

theorem speaks_handleUsersCommand : Maintains Speaking (handleUsersCommand sock) Whatever := by
  apply maintains_seq speaks_client
  intro client _
  apply maintains_ite
  · exact speaks_error _
  apply maintains_holding
  apply maintains_seq (maintains_step (upholds_roomExists _))
  intro _ _
  apply maintains_ite
  · apply maintains_seq (maintains_step (upholds_ask _ _))
    intro members _
    exact maintains_critical fun _ _ hs =>
      ⟨hs.sendAll [sock] (spoken_answer (str "USERS_LIST:") (by decide) _), trivial⟩
  · exact maintains_pure trivial

/-! ### The commands of the owner -/

/-- The checks that the commands of the owner share. -/
theorem speaks_guards {p : ClientInfo → Thread Unit} {c : ClientInfo → Bool}
    {error error' : String}
    (hp : ∀ client : ClientInfo, NameOk client.username → Maintains Speaking (p client) Whatever) :
    Maintains Speaking (do
      let client ← critical .clientsMutex (clientInfo sock)
      if client.roomId.isEmpty then reply sock (errorText error)
      else if c client then reply sock (errorText error')
      else p client : Thread Unit) Whatever :=
  maintains_seq speaks_client fun client hc =>
    maintains_ite (speaks_error _) (maintains_ite (speaks_error _) (hp client hc))

theorem speaks_handleKickCommand {params : Bytes} (h : OneLine params) :
    Maintains Speaking (handleKickCommand sock params) Whatever := by
  refine maintains_ite (speaks_error _) (speaks_guards fun client hc => ?_)
  apply maintains_ite
  · exact speaks_error _
  apply maintains_seq (maintains_findClientByUsername _ _)
  intro t _
  apply maintains_ite
  · exact speaks_error _
  refine maintains_seq (K := Whatever) (maintains_step ?_) fun _ _ => ?_
  · exact upholds_bind (speaks_timestamp 0) fun _ ht =>
      speaks_send t (spoken_notice ht .youHaveBeenKicked trivial)
  apply maintains_seq (speaks_reply (spoken_answer (str "KICKED_FROM_ROOM") (by decide) []))
  intro _ _
  -- the others are told the name as the owner typed it, trimmed
  refine maintains_seq (K := Whatever) (maintains_critical ?_) fun _ _ =>
    maintains_critical (speaks_leave t)
  apply upholds_bind (upholds_roomExists _)
  intro _ _
  apply upholds_ite
  · apply upholds_bind (speaks_timestamp 0)
    intro _ ht
    apply upholds_bind (speaks_broadcastToAll _
      (spoken_notice ht (.hasBeenKicked (trim params)) (nameOk_trim h)))
    intro _ _
    exact speaks_removeClient t
  · exact upholds_pure trivial

theorem speaks_expelBanned {username : Bytes} (hu : NameOk username) (t : SOCKET) :
    Upholds Speaking (expelBanned roomId username t) Whatever := by
  apply upholds_bind (speaks_timestamp 0)
  intro _ ht
  apply upholds_bind (speaks_send t (spoken_notice ht .youHaveBeenBanned trivial))
  intro _ _
  apply upholds_bind (speaks_send t (spoken_answer (str "KICKED_FROM_ROOM") (by decide) []))
  intro _ _
  apply upholds_bind (speaks_timestamp 1)
  intro _ ht
  apply upholds_bind (speaks_broadcastToAll roomId (spoken_notice ht (.hasBeenBanned username) hu))
  intro _ _
  exact speaks_removeClient t

theorem speaks_handleBanCommand {params : Bytes} (h : OneLine params) :
    Maintains Speaking (handleBanCommand sock params) Whatever := by
  refine maintains_ite (speaks_error _) (speaks_guards fun client hc => ?_)
  apply maintains_ite
  · exact speaks_error _
  apply maintains_seq (maintains_findClientByUsername _ _)
  intro t _
  apply maintains_holding
  apply maintains_seq (maintains_step (upholds_roomExists _))
  intro _ _
  apply maintains_ite
  · refine maintains_seq (K := Whatever) (maintains_step ?_) fun _ _ => ?_
    · refine upholds_bind (speaks_tellRoom _ fun _ => rfl) fun _ _ => speaks_tellDatabase _ _
    have hdone : Maintains Speaking (reply sock (str "SUCCESS: User " ++ trim params ++
        str " has been banned\n")) Whatever := by
      apply speaks_reply
      exact spoken_answer_to (str "SUCCESS: User ") (by decide) (trim params)
        (b := str " has been banned") (by decide)
    apply maintains_ite
    · exact hdone
    · apply maintains_seq (maintains_step (speaks_expelBanned (nameOk_trim h) t))
      intro _ _
      exact maintains_seq (maintains_critical (speaks_leave t)) fun _ _ => hdone
  · exact maintains_pure trivial

theorem speaks_handleTransferCommand {params : Bytes} (h : OneLine params) :
    Maintains Speaking (handleTransferCommand sock params) Whatever := by
  refine maintains_ite (speaks_error _) (speaks_guards fun client hc => ?_)
  apply maintains_ite
  · exact speaks_error _
  apply maintains_seq (maintains_findClientByUsername _ _)
  intro t _
  apply maintains_ite
  · exact speaks_error _
  apply maintains_holding
  apply maintains_seq (maintains_step (upholds_roomExists _))
  intro _ _
  apply maintains_ite
  · refine maintains_seq (maintains_step (speaks_tellRoom _ fun _ => rfl)) fun _ _ => ?_
    apply maintains_critical
    -- the flags are no part of a name
    have hflag : ∀ (u : SOCKET) (b : Bool), Upholds Speaking
        (setClientInfo u fun c => { c with isRoomOwner := b }) Whatever :=
      fun u b => speaks_setClientInfo u fun _ hc => hc
    apply upholds_bind (hflag sock false)
    intro _ _
    apply upholds_bind (hflag t true)
    intro _ _
    apply upholds_bind (speaks_tellDatabase _ _)
    intro _ _
    apply upholds_bind (speaks_timestamp 0)
    intro _ ht
    apply upholds_bind (speaks_broadcastToAll _
      (spoken_notice ht (.ownershipTransferred (trim params)) (nameOk_trim h)))
    intro _ _
    apply upholds_bind (speaks_send sock
      (spoken_answer (str "SUCCESS: Ownership transferred to ") (by decide) (trim params)))
    intro _ _
    exact speaks_send t (spoken_answer (str "OWNERSHIP_RECEIVED") (by decide) [])
  · exact maintains_pure trivial

theorem speaks_handleLeaveCommand : Maintains Speaking (handleLeaveCommand sock) Whatever := by
  apply maintains_seq speaks_client
  intro client hc
  apply maintains_ite
  · exact speaks_error _
  apply maintains_ite
  · exact speaks_reply (spoken_answer (str "OWNER_LEAVE_WARNING") (by decide) [])
  apply maintains_seq (maintains_critical (speaks_leaveRoom hc))
  intro _ _
  refine maintains_seq (maintains_critical (speaks_setClientInfo sock ?_)) fun _ _ => ?_
  · exact fun _ h => h
  · exact speaks_reply (spoken_answer (str "LEFT_ROOM") (by decide) [])

theorem speaks_promoteOther (t : SOCKET) :
    Maintains Speaking (promoteOther roomId t sock) NameOk := by
  apply maintains_ite
  · apply maintains_critical
    apply upholds_bind (upholds_read _)
    intro _ _
    apply upholds_ite
    · apply upholds_bind (speaks_clientInfo t)
      intro client hc
      refine upholds_bind (speaks_setClientInfo t ?_) fun _ _ => ?_
      · exact fun _ h => h
      · exact upholds_bind (speaks_tellRoom roomId fun _ => rfl) fun _ _ => upholds_pure hc
    · exact upholds_pure nameOk_nil
  · exact maintains_pure nameOk_nil

theorem speaks_announceForceLeave {username name : Bytes} (hu : NameOk username)
    (hn : NameOk name) (t : SOCKET) :
    Upholds Speaking (announceForceLeave roomId username name t sock) Whatever := by
  apply upholds_bind (speaks_timestamp 0)
  intro _ hleave
  refine upholds_bind (K := Whatever) ?_ fun _ _ => ?_
  · apply upholds_ite
    · -- no name, so nobody took over
      exact upholds_pure trivial
    · apply upholds_bind (speaks_timestamp 1)
      intro _ ht
      apply upholds_bind (speaks_broadcastToAll roomId
        (spoken_notice ht (.ownershipTransferred name) hn))
      intro _ _
      exact speaks_send t (spoken_answer (str "OWNERSHIP_RECEIVED") (by decide) [])
  apply upholds_bind (speaks_broadcast sock roomId (spoken_notice hleave (.hasLeft username) hu))
  intro _ _
  apply upholds_bind (speaks_removeClient sock)
  intro _ _
  apply upholds_bind (upholds_ask roomId _)
  intro _ _
  exact upholds_ite (speaks_spawnCleanup roomId) (upholds_pure trivial)

theorem speaks_handleForceLeaveCommand :
    Maintains Speaking (handleForceLeaveCommand sock) Whatever := by
  refine speaks_guards fun client hc => ?_
  refine maintains_seq (K := Whatever) (maintains_holding ?_) fun _ _ => ?_
  · apply maintains_seq (maintains_step (upholds_roomExists _))
    intro _ _
    apply maintains_ite
    · apply maintains_seq (maintains_step (upholds_chooseNewOwner _ _))
      intro t _
      apply maintains_seq (speaks_promoteOther t)
      -- the name of the heir comes from its record
      intro name hn
      exact maintains_step (speaks_announceForceLeave hc hn t)
    · exact maintains_pure trivial
  · apply maintains_seq (maintains_critical (speaks_leave sock))
    intro _ _
    exact speaks_reply (spoken_answer (str "LEFT_ROOM") (by decide) [])

theorem speaks_handleChangePasswordCommand (params : Bytes) :
    Maintains Speaking (handleChangePasswordCommand sock params) Whatever := by
  refine maintains_ite (speaks_error _) (speaks_guards fun client hc => ?_)
  apply maintains_critical
  apply upholds_bind (upholds_roomExists _)
  intro _ _
  apply upholds_ite
  · apply upholds_bind (upholds_ask _ _)
    intro _ _
    apply upholds_ite
    · exact speaks_send sock (spoken_errorText _)
    refine upholds_bind (speaks_tellRoom _ fun _ => rfl) fun _ _ => ?_
    apply upholds_bind (speaks_tellDatabase _ _)
    intro _ _
    apply upholds_bind (speaks_send sock
      (spoken_answer (str "PASSWORD_CHANGED:") (by decide) (trim params)))
    intro _ _
    apply upholds_bind (speaks_timestamp 0)
    intro _ ht
    exact speaks_broadcast sock _ (spoken_notice ht .passwordChanged trivial)
  · exact upholds_pure trivial

/-! ### Events -/

theorem speaks_runCommand {c : Command} (h : c.Lined) :
    Maintains Speaking (runCommand sock c) Whatever := by
  cases c with
  | create params => exact speaks_handleCreateCommand params
  | join params => exact speaks_handleJoinCommand params
  | setName name => exact speaks_handleSetNameCommand h
  | list => exact speaks_handleListCommand
  | getPassword => exact speaks_handleGetPasswordCommand
  | users => exact speaks_handleUsersCommand
  | kick params => exact speaks_handleKickCommand h
  | ban params => exact speaks_handleBanCommand h
  | transfer params => exact speaks_handleTransferCommand h
  | leave => exact speaks_handleLeaveCommand
  | forceLeave => exact speaks_handleForceLeaveCommand
  | changePassword params => exact speaks_handleChangePasswordCommand params
  | unknown => exact speaks_error _

theorem speaks_pushMessage (message : Message) :
    Maintains Speaking (pushMessage message) Whatever :=
  maintains_critical fun _ _ hs => ⟨⟨hs.names, hs.history, hs.net⟩, trivial⟩

/-- What a request says; a command has its parameters from one line. -/
theorem speaks_runRequest {request : Request} (h : ∀ c, request = .command c → c.Lined) :
    Maintains Speaking (runRequest sock request) Whatever := by
  cases request with
  | command c => exact speaks_runCommand (h c rfl)
  | privateMessage recipientName content =>
      apply maintains_seq speaks_client
      intro client _
      apply maintains_ite
      · exact speaks_error _
      · exact maintains_ite (speaks_error _) (speaks_pushMessage _)
  | badPrivateMessage => exact speaks_error _
  | chat text =>
      apply maintains_seq speaks_client
      intro client _
      exact maintains_ite (speaks_error _) (speaks_pushMessage _)

/-- Only a text with a slash in front of it is a command. -/
theorem lined_of_parseText {text : Bytes} {c : Command} (h : parseText text = .command c) :
    c.Lined := by
  unfold parseText at h
  split at h
  · rw [Request.command.injEq] at h
    rw [← h]
    exact lined_parseCommand _
  · split at h
    · unfold parsePrivateMessage at h
      split at h
      · exact absurd h (by simp)
      · dsimp only at h
        split at h
        · exact absurd h (by simp)
        · split at h <;> exact absurd h (by simp)
    · exact absurd h (by simp)

theorem speaks_handler (ev : Event) : Maintains Speaking ev.handler Whatever := by
  cases ev with
  | connect sock =>
      refine maintains_seq (K := Whatever) (maintains_step fun e s hs => ⟨?_, trivial⟩) fun _ _ => ?_
      · exact hs.append fun op hop => by rw [List.mem_singleton.1 hop]; exact trivial
      refine maintains_seq (K := Whatever) (maintains_critical fun e s hs => ⟨?_, trivial⟩)
        fun _ _ => ?_
      · exact hs.setInfo sock (f := fun _ => {}) fun _ => nameOk_nil
      refine maintains_seq (K := Whatever) (maintains_critical fun e s hs => ⟨?_, trivial⟩)
        fun _ _ => ?_
      · exact ⟨hs.names, hs.history, hs.net⟩
      exact speaks_reply (spoken_answer (str "WELCOME:Chat Server") (by decide) [])
  | hangup sock =>
      apply maintains_seq speaks_removeClientFromRoom
      intro _ _
      refine maintains_seq (K := Whatever) (maintains_critical fun e s hs => ⟨?_, trivial⟩)
        fun _ _ => ?_
      · refine ⟨fun t => ?_, hs.history, hs.net⟩
        show NameOk (({ s with clients := s.clients.erase sock } : Globals).info t).username
        rcases (performs_eraseClient e s sock).names t with h | h
        · rw [h]
          exact hs.names t
        · exact h
      refine maintains_seq (K := Whatever) (maintains_step fun e s hs => ⟨?_, trivial⟩) fun _ _ => ?_
      · exact hs.append fun op hop => by rw [List.mem_singleton.1 hop]; exact trivial
      exact maintains_critical fun e s hs => ⟨⟨hs.names, hs.history, hs.net⟩, trivial⟩
  | receive sock buffer =>
      show Maintains Speaking (handleClientMessage sock buffer) Whatever
      rw [handleClientMessage]
      cases actedText buffer with
      | none => exact maintains_pure trivial
      | some text => exact speaks_runRequest fun c hc => lined_of_parseText hc

end Handlers

/-! ## The broadcaster -/

theorem speaks_deliverMessage (message : Message) :
    Maintains Speaking (deliverMessage message) Whatever := by
  apply maintains_holding
  apply maintains_seq (maintains_step (upholds_roomExists _))
  intro _ _
  refine maintains_ite (maintains_ite ?_ (maintains_step ?_)) (maintains_pure trivial)
  · apply maintains_seq (maintains_findClientByUsername _ _)
    intro t _
    apply maintains_step
    apply upholds_ite
    · apply speaks_send
      exact spoken_answer_to (str "ERROR: User '") (by decide) message.recipientName
        (b := str "' not found in this room") (by decide)
    · apply upholds_bind (speaks_timestamp 0)
      rintro _ ⟨now, rfl⟩
      apply upholds_bind (speaks_send t (.whisper now _ _ _))
      intro _ _
      exact upholds_bind (speaks_send _ (.whisper now _ _ _)) fun _ _ => speaks_tellDatabase _ _
  · apply upholds_bind (speaks_timestamp 0)
    rintro _ ⟨now, rfl⟩
    refine upholds_bind (K := Whatever) (fun e s hs => ⟨hs.editRoom _ fun room text ht => ?_, trivial⟩)
      fun _ _ => ?_
    · have hmem : text ∈ room.messageHistory ++
          [chatText now.text message.senderName message.content] := by
        simp only [ChatRoom.addMessageToHistory] at ht
        split at ht
        · exact List.mem_of_mem_tail ht
        · exact ht
      rcases List.mem_append.1 hmem with h | h
      · exact Or.inl h
      · exact Or.inr ⟨now, _, _, List.mem_singleton.1 h⟩
    · exact upholds_bind (speaks_broadcast _ _ (.chat now _ _)) fun _ _ => speaks_tellDatabase _ _

theorem speaks_broadcastRound : Maintains Speaking broadcastRound Whatever := by
  apply maintains_seq (maintains_step (upholds_read _))
  intro _ _
  apply maintains_ite
  · exact maintains_pure trivial
  refine maintains_seq (K := Whatever) (maintains_holding ?_) fun message _ => ?_
  · apply maintains_seq (maintains_step (upholds_read _))
    intro ready _
    have hpop : Maintains Speaking (step popMessage) Whatever :=
      maintains_step fun _ _ hs => ⟨⟨hs.names, hs.history, hs.net⟩, trivial⟩
    split
    · exact hpop
    · exact hpop
  · cases message with
    | none => exact maintains_pure trivial
    | some message => exact speaks_deliverMessage message

namespace Machine

/-- Along every run the server only speaks. -/
theorem speaking_of_reachable {ok : Machine → Label → Prop} {m : Machine} (hm : Reachable ok m) :
    Speaking m.globals := by
  refine (upheld_of_reachable hm ?_ ?_ speaks_handler speaks_broadcastRound
    fun roomId => speaks_cleanupEmptyRoom).holds
  · intro db listenSocket
    refine ⟨(deliverable_boot db listenSocket).names, fun r room hr => ?_, fun op hop => ?_⟩
    · rw [Globals.boot, Std.ExtTreeMap.getElem?_empty] at hr
      exact absurd hr (by simp)
    · exact absurd hop List.not_mem_nil
  · intro s s' hc hr _ _ hn hs
    refine ⟨fun t => ?_, fun r room hroom => ?_, fun op hop => ?_⟩
    · rw [Globals.info, hc]
      exact hs.names t
    · rw [hr] at hroom
      exact hs.history r room hroom
    · rw [hn] at hop
      exact hs.net op hop

end Machine

end TerminalChat.Server
