import Mathlib
import TerminalChat.Server.State

/-!
# The command handlers

The handlers of `Server.cpp` as programs of the main thread: one `critical` block for each critical
section, in the order of the source, and one `step` for each stretch of code without a lock. A block
under two locks stands inside `Prog.holding` of the outer one. `parseCommand` reads a line, and
`handleClientCommand` runs the handler of its command.
-/

set_option autoImplicit false

namespace TerminalChat.Server

open TerminalChat.Concurrency TerminalChat.Text

/-- Answer the client outside of every critical section. -/
def reply (sock : SOCKET) (text : Bytes) : Thread Unit := step (sendToClient sock text)

/-! ## Leaving rooms -/

/-- The body of `cleanupEmptyRoom`, under `g_chatRoomsMutex`. -/
def sweepRoom (roomId : Bytes) : Sect Unit := do
  if ← roomExists roomId then
    if ← askRoom roomId ChatRoom.isEmpty then
      .modify fun _ s => { s with chatRooms := s.chatRooms.erase roomId }
      tellDatabase 0 fun _ calls db => (db.deleteRoom calls roomId).2

/-- `cleanupEmptyRoom`. -/
def cleanupEmptyRoom (roomId : Bytes) : Thread Unit := critical .chatRoomsMutex (sweepRoom roomId)

/-- Tell the room that a user has left and take the socket out. -/
def departRoom (roomId username : Bytes) (sock : SOCKET) : Sect Unit := do
  let timestamp ← getCurrentTimestamp 0
  broadcast roomId (systemText timestamp (username ++ str " has left the room")) sock
  tellRoom roomId fun room => room.removeClient sock

/-- Leave a room and, when it is empty now, start a delayed cleanup. -/
def leaveRoom (roomId username : Bytes) (sock : SOCKET) : Sect Unit := do
  if ← roomExists roomId then
    departRoom roomId username sock
    if ← askRoom roomId ChatRoom.isEmpty then
      spawnCleanup roomId

/-- `removeClientFromRoom`. -/
def removeClientFromRoom (clientSocket : SOCKET) : Thread Unit := do
  let client ← critical .clientsMutex (clientInfo clientSocket)
  if client.roomId.isEmpty then
    pure ()
  else
    critical .chatRoomsMutex do
      if ← roomExists client.roomId then
        departRoom client.roomId client.username clientSocket
    critical .clientsMutex
      (setClientInfo clientSocket fun c => { c with roomId := [], isRoomOwner := false })
    -- the one way out of a room that does not wait for the cleanup
    cleanupEmptyRoom client.roomId

/-! ## CREATE and JOIN -/

/-- What CREATE reads from its parameters: whether the room is private, and the password. -/
def createParams (params : Bytes) : Bool × Bytes :=
  let isPrivate := word params == str "PRIVATE"
  (isPrivate, if isPrivate then trim (getline (afterWord params)) else [])

/-- The part of `handleCreateCommand` after the creator has left its room. -/
def makeRoom (clientSocket : SOCKET) (client : ClientInfo) (roomId : Bytes) (isPrivate : Bool)
    (password : Bytes) : Thread Unit := do
  critical .chatRoomsMutex do
    .modify fun _ s => s.insertRoom roomId (ChatRoom.new roomId isPrivate password clientSocket)
    addClient roomId clientSocket
  critical .clientsMutex
    (setClientInfo clientSocket fun c => { c with roomId := roomId, isRoomOwner := true })
  step (tellDatabase 0 fun _ calls db =>
    db.createRoom calls roomId isPrivate client.username password)
  reply clientSocket (str "ROOM_CREATED:" ++ roomId ++ str ":" ++
    (if isPrivate then str "PRIVATE" else str "PUBLIC") ++ str "\n")

/-- `handleCreateCommand`. -/
def handleCreateCommand (clientSocket : SOCKET) (params : Bytes) : Thread Unit := do
  let isPrivate := (createParams params).1
  let password := (createParams params).2
  if isPrivate && password.isEmpty then
    reply clientSocket (errorText "Private rooms require a password")
  else
    let roomId ← step generateRoomId
    -- the rooms are locked inside the clients here, and in JOIN; everywhere else it is the other way round
    let client ← Prog.holding .clientsMutex do
      let client ← step (clientRef clientSocket)
      if client.roomId.isEmpty then
        pure client
      else
        critical .chatRoomsMutex (leaveRoom client.roomId client.username clientSocket)
        pure client
    makeRoom clientSocket client roomId isPrivate password

/-- What JOIN reads from its parameters: the room id, and the password if one is asked for. -/
def joinParams (params : Bytes) : Bytes × Bytes :=
  (trim (word params), trim (getline (afterWord params)))

/-- Replay the history to a client that has just joined: the database first, the memory of the room
when the database gives nothing. -/
def sendHistory (clientSocket : SOCKET) (roomId : Bytes) : Sect Unit := do
  let stored ← askDatabase 2 fun e calls db =>
    db.getMessageHistory calls e.order roomId MAX_MESSAGE_HISTORY
  let history ← if stored.isEmpty then askRoom roomId ChatRoom.messageHistory else pure stored
  if history.isEmpty then
    pure ()
  else
    sendToClient clientSocket (str "MESSAGE_HISTORY_START\n")
    -- each line is sent on its own; `replayed` sets it apart from other lines in the trace
    .modify fun _ s => { s with net := s.net ++ history.map fun msg => .replayed clientSocket msg }
    sendToClient clientSocket (str "MESSAGE_HISTORY_END\n")

/-- The part of `handleJoinCommand` that leaves the room the client is in. -/
def leaveOldRoom (clientSocket : SOCKET) (client : ClientInfo) : Sect Unit :=
  if client.roomId.isEmpty then
    pure ()
  else
    leaveRoom client.roomId client.username clientSocket

/-- The part of `handleJoinCommand` after all checks. -/
def admitClient (clientSocket : SOCKET) (client : ClientInfo) (roomId : Bytes) : Sect Unit := do
  leaveOldRoom clientSocket client
  addClient roomId clientSocket
  setClientInfo clientSocket fun c => { c with roomId := roomId, isRoomOwner := false }
  sendToClient clientSocket (str "ROOM_JOINED:" ++ roomId ++ str "\n")
  sendHistory clientSocket roomId
  let timestamp ← getCurrentTimestamp 1
  broadcast roomId (systemText timestamp (client.username ++ str " has joined the room"))
    clientSocket

/-- The part of `handleJoinCommand` under both locks. -/
def joinRoom (clientSocket : SOCKET) (client : ClientInfo) (roomId password : Bytes) :
    Sect Unit := do
  if !(← roomExists roomId) then
    sendToClient clientSocket (str "ROOM_NOT_FOUND\n")
  else
    let banned ← askRoom roomId fun room => room.isUserBanned client.username
    let banned ← if banned then pure true else
      askDatabase 0 fun _ calls db => db.isUserBanned calls roomId client.username
    if banned then
      sendToClient clientSocket (errorText "You are banned from this room")
    else
      let isPrivate ← askRoom roomId ChatRoom.isPrivate
      if isPrivate && password.isEmpty then
        sendToClient clientSocket (str "PASSWORD_REQUIRED\n")
      else
        let accepted ← if isPrivate then askRoom roomId fun room => room.verifyPassword password
          else pure true
        if !accepted then
          sendToClient clientSocket (str "WRONG_PASSWORD\n")
        else
          admitClient clientSocket client roomId

/-- `handleJoinCommand`. -/
def handleJoinCommand (clientSocket : SOCKET) (params : Bytes) : Thread Unit := do
  let roomId := (joinParams params).1
  let password := (joinParams params).2
  if roomId.isEmpty then
    reply clientSocket (errorText "Room ID cannot be empty")
  else
    Prog.holding .clientsMutex do
      let client ← step (clientRef clientSocket)
      if roomId == client.roomId then
        reply clientSocket (errorText "You are already in this room")
      else
        critical .chatRoomsMutex (joinRoom clientSocket client roomId password)

/-! ## Names and lists -/

/-- `handleSetNameCommand`. -/
def handleSetNameCommand (clientSocket : SOCKET) (name : Bytes) : Thread Unit := do
  let trimmedName := trim name
  if trimmedName.isEmpty then
    reply clientSocket (errorText "Name cannot be empty")
  else
    let available ← critical .clientsMutex
      (.read fun _ s => s.isUsernameAvailable trimmedName clientSocket)
    if !available then
      reply clientSocket (str "NAME_TAKEN\n")
    else
      -- a critical section of its own: the name is not reserved in between
      critical .clientsMutex (setClientInfo clientSocket fun c => { c with username := trimmedName })
      reply clientSocket (str "NAME_SET\n")

/-- One entry of the room list. -/
def roomEntry (id : Bytes) (room : ChatRoom) : Bytes :=
  id ++ str "(" ++ decimal room.getClientCount ++ str ")" ++
    (if room.isPrivate then str "[PRIVATE]" else str "[PUBLIC]") ++ str ","

/-- The block of `handleListCommand`. -/
def listRooms (clientSocket : SOCKET) : Sect Unit :=
  ⟨fun _ s => ⟨(), s.send clientSocket
    (str "ROOMS_LIST:" ++ s.chatRooms.toList.flatMap (fun p => roomEntry p.1 p.2) ++ str "\n"),
    s.chatRooms.toList.flatMap fun p => [.roomMutex p.1, .roomMutex p.1]⟩⟩

/-- `handleListCommand`. -/
def handleListCommand (clientSocket : SOCKET) : Thread Unit :=
  critical .chatRoomsMutex (listRooms clientSocket)

/-- `handleGetPasswordCommand`. -/
def handleGetPasswordCommand (clientSocket : SOCKET) : Thread Unit := do
  let client ← critical .clientsMutex (clientInfo clientSocket)
  if client.roomId.isEmpty then
    reply clientSocket (errorText "You are not in a room")
  else if !client.isRoomOwner then
    reply clientSocket (errorText "Only room owner can view password")
  else
    critical .chatRoomsMutex do
      -- without the room there is no answer at all
      if ← roomExists client.roomId then
        if ← askRoom client.roomId ChatRoom.isPrivate then
          let password ← askRoom client.roomId ChatRoom.password
          sendToClient clientSocket (str "ROOM_PASSWORD:" ++ password ++ str "\n")
        else
          sendToClient clientSocket (errorText "This is a public room")

/-- The user list of a room: the names of its members that have one, in the order of the set. -/
def userEntries (s : Globals) (members : List SOCKET) : Bytes :=
  members.flatMap fun sock =>
    match s.clients[sock]? with
    | some c => if c.username.isEmpty then [] else c.username ++ str ","
    | none => []

/-- `handleUsersCommand`. -/
def handleUsersCommand (clientSocket : SOCKET) : Thread Unit := do
  let client ← critical .clientsMutex (clientInfo clientSocket)
  if client.roomId.isEmpty then
    reply clientSocket (errorText "You are not in a room")
  else
    Prog.holding .chatRoomsMutex do
      if ← step (roomExists client.roomId) then
        let members ← step (askRoom client.roomId fun room => room.clients.toList)
        critical .clientsMutex (.modify fun _ s =>
          s.send clientSocket (str "USERS_LIST:" ++ userEntries s members ++ str "\n"))

/-! ## The commands of the owner -/

/-- `findClientByUsername`. -/
def findClientByUsername (username roomId : Bytes) : Thread SOCKET :=
  critical .clientsMutex (.read fun _ s => s.findClientByUsername username roomId)

/-- `handleKickCommand`. -/
def handleKickCommand (clientSocket : SOCKET) (params : Bytes) : Thread Unit := do
  let targetUsername := trim params
  if targetUsername.isEmpty then
    reply clientSocket (errorText "Please specify a username to kick")
  else
    let client ← critical .clientsMutex (clientInfo clientSocket)
    if client.roomId.isEmpty then
      reply clientSocket (errorText "You are not in a room")
    else if !client.isRoomOwner then
      reply clientSocket (errorText "Only room owner can kick users")
    else if targetUsername == client.username then
      reply clientSocket (errorText "You cannot kick yourself")
    else
      let targetSocket ← findClientByUsername targetUsername client.roomId
      if targetSocket = INVALID_SOCKET then
        reply clientSocket (errorText "User not found in this room")
      else
        -- told before the room is looked up, so also when it is gone
        step do
          let timestamp ← getCurrentTimestamp 0
          sendToClient targetSocket
            (systemText timestamp (str "You have been kicked from the room by the owner"))
        reply targetSocket (str "KICKED_FROM_ROOM\n")
        critical .chatRoomsMutex do
          if ← roomExists client.roomId then
            let timestamp ← getCurrentTimestamp 0
            broadcastToAll client.roomId
              (systemText timestamp (targetUsername ++ str " has been kicked from the room"))
            tellRoom client.roomId fun room => room.removeClient targetSocket
        critical .clientsMutex
          (setClientInfo targetSocket fun c => { c with roomId := [], isRoomOwner := false })

/-- The ban of a user who is in the room: the notices and the removal from the room. -/
def expelBanned (roomId targetUsername : Bytes) (targetSocket : SOCKET) : Sect Unit := do
  let timestamp ← getCurrentTimestamp 0
  sendToClient targetSocket
    (systemText timestamp (str "You have been banned from the room by the owner"))
  sendToClient targetSocket (str "KICKED_FROM_ROOM\n")
  let timestamp ← getCurrentTimestamp 1
  broadcastToAll roomId
    (systemText timestamp (targetUsername ++ str " has been banned from the room"))
  tellRoom roomId fun room => room.removeClient targetSocket

/-- `handleBanCommand`. -/
def handleBanCommand (clientSocket : SOCKET) (params : Bytes) : Thread Unit := do
  let targetUsername := trim params
  if targetUsername.isEmpty then
    reply clientSocket (errorText "Please specify a username to ban")
  else
    let client ← critical .clientsMutex (clientInfo clientSocket)
    if client.roomId.isEmpty then
      reply clientSocket (errorText "You are not in a room")
    else if !client.isRoomOwner then
      reply clientSocket (errorText "Only room owner can ban users")
    else if targetUsername == client.username then
      reply clientSocket (errorText "You cannot ban yourself")
    else
      let targetSocket ← findClientByUsername targetUsername client.roomId
      Prog.holding .chatRoomsMutex do
        if ← step (roomExists client.roomId) then
          step do
            tellRoom client.roomId fun room => room.banUser targetUsername
            tellDatabase 0 fun _ calls db => db.addBan calls client.roomId targetUsername
          -- a user who is not in the room is banned all the same
          if targetSocket = INVALID_SOCKET then
            pure ()
          else
            step (expelBanned client.roomId targetUsername targetSocket)
            critical .clientsMutex
              (setClientInfo targetSocket fun c => { c with roomId := [], isRoomOwner := false })
          reply clientSocket
            (str "SUCCESS: User " ++ targetUsername ++ str " has been banned\n")

/-- `handleTransferCommand`. -/
def handleTransferCommand (clientSocket : SOCKET) (params : Bytes) : Thread Unit := do
  let targetUsername := trim params
  if targetUsername.isEmpty then
    reply clientSocket (errorText "Please specify a username to transfer ownership")
  else
    let client ← critical .clientsMutex (clientInfo clientSocket)
    if client.roomId.isEmpty then
      reply clientSocket (errorText "You are not in a room")
    else if !client.isRoomOwner then
      reply clientSocket (errorText "Only room owner can transfer ownership")
    else if targetUsername == client.username then
      reply clientSocket (errorText "You are already the owner")
    else
      let targetSocket ← findClientByUsername targetUsername client.roomId
      if targetSocket = INVALID_SOCKET then
        reply clientSocket (errorText "User not found in this room")
      else
        Prog.holding .chatRoomsMutex do
          if ← step (roomExists client.roomId) then
            -- the target was looked up before the room was locked
            step (tellRoom client.roomId fun room => room.setOwner targetSocket)
            critical .clientsMutex do
              setClientInfo clientSocket fun c => { c with isRoomOwner := false }
              setClientInfo targetSocket fun c => { c with isRoomOwner := true }
              tellDatabase 0 fun _ calls db => db.updateRoomOwner calls client.roomId targetUsername
              let timestamp ← getCurrentTimestamp 0
              broadcastToAll client.roomId
                (systemText timestamp (str "Room ownership transferred to " ++ targetUsername))
              sendToClient clientSocket
                (str "SUCCESS: Ownership transferred to " ++ targetUsername ++ str "\n")
              sendToClient targetSocket (str "OWNERSHIP_RECEIVED\n")

/-- `handleLeaveCommand`. -/
def handleLeaveCommand (clientSocket : SOCKET) : Thread Unit := do
  let client ← critical .clientsMutex (clientInfo clientSocket)
  if client.roomId.isEmpty then
    reply clientSocket (errorText "You are not in a room")
  else if client.isRoomOwner then
    reply clientSocket (str "OWNER_LEAVE_WARNING\n")
  else
    critical .chatRoomsMutex (leaveRoom client.roomId client.username clientSocket)
    critical .clientsMutex (setClientInfo clientSocket fun c => { c with roomId := [] })
    reply clientSocket (str "LEFT_ROOM\n")

/-- The search for the next owner in `handleForceLeaveCommand`: the longest member, or the first
other member when that is the leaver. -/
def chooseNewOwner (roomId : Bytes) (clientSocket : SOCKET) : Sect SOCKET := do
  if (← askRoom roomId ChatRoom.getClientCount) > 1 then
    let newOwner ← longestMember roomId
    -- the search includes the leaver; then the order of the socket numbers decides
    if newOwner = clientSocket then
      let members ← askRoom roomId fun room => room.clients.toList
      pure ((members.find? fun sock => sock != clientSocket).getD newOwner)
    else
      pure newOwner
  else
    pure INVALID_SOCKET

/-- Make the chosen member the owner, when it is connected; the result is its name. -/
def promoteNewOwner (roomId : Bytes) (newOwner : SOCKET) : Sect Bytes := do
  if ← .read fun _ s => s.clients.contains newOwner then
    let client ← clientInfo newOwner
    setClientInfo newOwner fun c => { c with isRoomOwner := true }
    tellRoom roomId fun room => room.setOwner newOwner
    pure client.username
  else
    pure []

/-- The notices about the new owner, when it has a name. -/
def announceNewOwner (roomId newOwnerName : Bytes) (newOwner : SOCKET) : Sect Unit :=
  if newOwnerName.isEmpty then
    pure ()
  else do
    let timestamp ← getCurrentTimestamp 1
    broadcastToAll roomId
      (systemText timestamp (str "Room ownership transferred to " ++ newOwnerName))
    sendToClient newOwner (str "OWNERSHIP_RECEIVED\n")

/-- The notices of a forced leave and the removal of the leaver. -/
def announceForceLeave (roomId username newOwnerName : Bytes) (newOwner clientSocket : SOCKET) :
    Sect Unit := do
  -- taken before the notices about the owner
  let leaveTime ← getCurrentTimestamp 0
  announceNewOwner roomId newOwnerName newOwner
  broadcast roomId (systemText leaveTime (username ++ str " has left the room")) clientSocket
  tellRoom roomId fun room => room.removeClient clientSocket
  if ← askRoom roomId ChatRoom.isEmpty then
    spawnCleanup roomId

/-- The promotion in `handleForceLeaveCommand`, skipped when nobody but the leaver was found; the
result is the name of the new owner. -/
def promoteOther (roomId : Bytes) (newOwner clientSocket : SOCKET) : Thread Bytes :=
  if newOwner ≠ INVALID_SOCKET ∧ newOwner ≠ clientSocket then
    critical .clientsMutex (promoteNewOwner roomId newOwner)
  else
    pure []

/-- The part of `handleForceLeaveCommand` under `g_chatRoomsMutex`. -/
def handOverRoom (clientSocket : SOCKET) (client : ClientInfo) : Thread Unit :=
  Prog.holding .chatRoomsMutex do
    if ← step (roomExists client.roomId) then
      let newOwner ← step (chooseNewOwner client.roomId clientSocket)
      let newOwnerName ← promoteOther client.roomId newOwner clientSocket
      step (announceForceLeave client.roomId client.username newOwnerName newOwner clientSocket)

/-- `handleForceLeaveCommand`. -/
def handleForceLeaveCommand (clientSocket : SOCKET) : Thread Unit := do
  let client ← critical .clientsMutex (clientInfo clientSocket)
  if client.roomId.isEmpty then
    reply clientSocket (errorText "You are not in a room")
  else if !client.isRoomOwner then
    reply clientSocket (errorText "This command is for room owners")
  else
    handOverRoom clientSocket client
    critical .clientsMutex
      (setClientInfo clientSocket fun c => { c with roomId := [], isRoomOwner := false })
    reply clientSocket (str "LEFT_ROOM\n")

/-- `handleChangePasswordCommand`. -/
def handleChangePasswordCommand (clientSocket : SOCKET) (params : Bytes) : Thread Unit := do
  let newPassword := trim params
  if newPassword.isEmpty then
    reply clientSocket (errorText "Password cannot be empty")
  else
    let client ← critical .clientsMutex (clientInfo clientSocket)
    if client.roomId.isEmpty then
      reply clientSocket (errorText "You are not in a room")
    else if !client.isRoomOwner then
      reply clientSocket (errorText "Only room owner can change password")
    else
      critical .chatRoomsMutex do
        if ← roomExists client.roomId then
          if !(← askRoom client.roomId ChatRoom.isPrivate) then
            sendToClient clientSocket (errorText "This is a public room")
          else
            tellRoom client.roomId fun room => room.setPassword newPassword
            tellDatabase 0 fun _ calls db => db.updateRoomPassword calls client.roomId newPassword
            sendToClient clientSocket (str "PASSWORD_CHANGED:" ++ newPassword ++ str "\n")
            let timestamp ← getCurrentTimestamp 0
            broadcast client.roomId
              (systemText timestamp (str "Room password has been changed by the owner"))
              clientSocket

/-! ## Client lines -/

/-- The commands that `handleClientCommand` tells apart, with what it hands to their handlers. -/
inductive Command where
  | create (params : Bytes)
  | join (params : Bytes)
  | setName (name : Bytes)
  | list
  | getPassword
  | users
  | kick (params : Bytes)
  | ban (params : Bytes)
  | transfer (params : Bytes)
  | leave
  | forceLeave
  | changePassword (params : Bytes)
  | unknown
  deriving DecidableEq

/-- The first word of a command line and the rest of the line, as `handleClientCommand` reads
them. -/
def parseCommand (command : Bytes) : Command :=
  let cmd := word command
  let params := getline (afterWord command)
  if cmd = str "CREATE" then .create params
  else if cmd = str "JOIN" then .join params
  else if cmd = str "SETNAME" then .setName params
  else if cmd = str "LIST" then .list
  else if cmd = str "GETPASSWORD" then .getPassword
  else if cmd = str "USERS" then .users
  else if cmd = str "KICK" then .kick params
  else if cmd = str "BAN" then .ban params
  else if cmd = str "TRANSFER" then .transfer params
  else if cmd = str "LEAVE" then .leave
  else if cmd = str "FORCELEAVE" then .forceLeave
  else if cmd = str "CHANGEPASSWORD" then .changePassword params
  else .unknown

/-- The handler of a command. -/
def runCommand (clientSocket : SOCKET) : Command → Thread Unit
  | .create params => handleCreateCommand clientSocket params
  | .join params => handleJoinCommand clientSocket params
  | .setName name => handleSetNameCommand clientSocket name
  | .list => handleListCommand clientSocket
  | .getPassword => handleGetPasswordCommand clientSocket
  | .users => handleUsersCommand clientSocket
  | .kick params => handleKickCommand clientSocket params
  | .ban params => handleBanCommand clientSocket params
  | .transfer params => handleTransferCommand clientSocket params
  | .leave => handleLeaveCommand clientSocket
  | .forceLeave => handleForceLeaveCommand clientSocket
  | .changePassword params => handleChangePasswordCommand clientSocket params
  | .unknown => reply clientSocket (errorText "Unknown command")

/-- `handleClientCommand`. -/
def handleClientCommand (clientSocket : SOCKET) (command : Bytes) : Thread Unit :=
  runCommand clientSocket (parseCommand command)

/-- Push a message to `g_messageQueue`. -/
def pushMessage (msg : Message) : Thread Unit :=
  critical .queueMutex (.modify fun _ s => { s with messageQueue := s.messageQueue ++ [msg] })

/-- What a received text asks for: a command, a private message, or a chat message. -/
inductive Request where
  | command (c : Command)
  | privateMessage (recipientName content : Bytes)
  | badPrivateMessage
  | chat (text : Bytes)
  deriving DecidableEq

/-- The private message in a text that starts with `@`: the name up to the first space and the rest,
both trimmed. -/
def parsePrivateMessage (receivedText : Bytes) : Request :=
  match receivedText.idxOf? space with
  | none => .badPrivateMessage
  | some spacePos =>
      -- the space follows the `@` at once
      if spacePos = 1 then .badPrivateMessage
      else
        let recipientName := trim ((receivedText.drop 1).take (spacePos - 1))
        let messageContent := trim (receivedText.drop (spacePos + 1))
        if recipientName.isEmpty || messageContent.isEmpty then .badPrivateMessage
        else .privateMessage recipientName messageContent

/-- How `handleClientMessage` reads a text that is trimmed and not empty. -/
def parseText (receivedText : Bytes) : Request :=
  if startsWith (str "/") receivedText then .command (parseCommand (receivedText.drop 1))
  else if startsWith (str "@") receivedText then parsePrivateMessage receivedText
  else .chat receivedText

/-- The text that `handleClientMessage` acts on in a received buffer, when there is one. -/
def actedText (buffer : Bytes) : Option Bytes :=
  if (trim buffer).isEmpty then none else some (trim buffer)

/-- The handler of a request. -/
def runRequest (clientSocket : SOCKET) : Request → Thread Unit
  | .command c => runCommand clientSocket c
  | .badPrivateMessage => reply clientSocket
      (errorText "Invalid private message format. Use: @username message")
  | .privateMessage recipientName messageContent => do
      let client ← critical .clientsMutex (clientInfo clientSocket)
      if client.roomId.isEmpty then
        reply clientSocket (errorText "You must join a room first")
      else if recipientName == client.username then
        reply clientSocket (errorText "You cannot send a private message to yourself")
      else
        pushMessage {
          senderSocket := clientSocket
          content := messageContent
          roomId := client.roomId
          senderName := client.username
          isPrivate := true
          recipientName := recipientName }
  | .chat receivedText => do
      let client ← critical .clientsMutex (clientInfo clientSocket)
      if client.roomId.isEmpty then
        reply clientSocket (errorText "You must join a room first")
      else
        pushMessage {
          senderSocket := clientSocket
          content := receivedText
          roomId := client.roomId
          senderName := client.username
          isPrivate := false }

/-- `handleClientMessage`. -/
def handleClientMessage (clientSocket : SOCKET) (buffer : Bytes) : Thread Unit :=
  match actedText buffer with
  | none => pure ()
  | some receivedText => runRequest clientSocket (parseText receivedText)

/-! ## Connections -/

/-- The part of the main loop that accepts a connection. -/
def acceptClient (clientSocket : SOCKET) : Thread Unit := do
  step (.modify fun _ s => { s with net := s.net ++ [.accepted clientSocket] })
  critical .clientsMutex
    (.modify fun _ s => { s with clients := s.clients.insert clientSocket {} })
  critical .pollFdsMutex (.modify fun _ s => { s with pollFds := s.pollFds ++ [clientSocket] })
  reply clientSocket (str "WELCOME:Chat Server\n")

/-- `handleClientDisconnect`. -/
def handleClientDisconnect (clientSocket : SOCKET) : Thread Unit := do
  removeClientFromRoom clientSocket
  critical .clientsMutex
    (.modify fun _ s => { s with clients := s.clients.erase clientSocket })
  step (.modify fun _ s => { s with net := s.net ++ [.closed clientSocket] })
  critical .pollFdsMutex (.modify fun _ s => { s with pollFds := s.pollFds.erase clientSocket })

end TerminalChat.Server
