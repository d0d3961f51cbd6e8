import Mathlib
import TerminalChat.Query.Keyed
import TerminalChat.Server.Database

/-!
# The database file

All tables of the database and all operations of `Database` on them, those for accounts and for the
administration of bans included. `perform` runs one of them; what it may read besides the file are the
outcomes of its SQLite calls, the clock of the database, the order of rows with equal timestamps and that of
rows which a query does not order. `Registry` is what the file is about, and `enroll` the registry that a
sequence of operations comes to.
-/

set_option autoImplicit false

namespace TerminalChat.Server

open TerminalChat.Text TerminalChat.Query

/-- A row of `users`. -/
structure UserRow where
  username : Bytes
  passwordHash : Bytes
  createdAt : Bytes
  lastSeen : Bytes
  deriving DecidableEq

/-- The tables of the file, in insertion order. -/
structure DatabaseFile extends Database where
  users : List UserRow := []
  deriving DecidableEq

/-- The rows that `LIMIT` lets through; a negative limit is none. -/
def limited (limit : Int) (rows : List MessageRow) : List MessageRow :=
  if limit < 0 then rows else rows.take limit.toNat

/-- An order in which SQLite may step through the bans that a query without `ORDER BY` selects. -/
structure ScanOrder where
  arrange : List BanRow → List BanRow
  perm : ∀ rows, (arrange rows).Perm rows

/-- The order of the table. -/
def ScanOrder.table : ScanOrder where
  arrange rows := rows
  perm rows := .refl rows

namespace Database

/-- `Database::roomExists`. -/
def roomExists (calls : Nat → Bool) (roomId : Bytes) (db : Database) : Bool :=
  calls 0 && calls 1 && db.rooms.any fun row => row.roomId == cString roomId

/-- `Database::removeBan`. -/
def removeBan (calls : Nat → Bool) (roomId username : Bytes) (db : Database) : Database :=
  if calls 0 && calls 1 then
    { db with bans := db.bans.filter fun row =>
        !(row.roomId == cString roomId && row.username == cString username) }
  else db

/-- `Database::getBannedUsers`: the rows that are stepped to before a step fails. -/
def getBannedUsers (calls : Nat → Bool) (scan : ScanOrder) (roomId : Bytes) (db : Database) : List Bytes :=
  if calls 0 then
    let selected := db.bans.filter fun row => row.roomId == cString roomId
    ((scan.arrange selected).zipIdx.takeWhile fun p => calls (p.2 + 1)).map fun p => p.1.username
  else []

/-- The rows that `getPrivateMessages` selects: the private messages between two users. -/
def between (user1 user2 : Bytes) (row : MessageRow) : Bool :=
  row.isPrivate &&
    ((row.senderUsername == cString user1 && row.recipientUsername == some (cString user2)) ||
      (row.senderUsername == cString user2 && row.recipientUsername == some (cString user1)))

/-- `Database::getPrivateMessages`. -/
def getPrivateMessages (calls : Nat → Bool) (order : DescOrder) (user1 user2 : Bytes) (limit : Int)
    (db : Database) : List Bytes :=
  if calls 0 then
    let selected := db.messages.filter (between user1 user2)
    let stepped := (limited limit (order.arrange selected)).zipIdx.takeWhile fun p => calls (p.2 + 1)
    (stepped.map fun p => historyLine p.1).reverse
  else []

end Database

namespace DatabaseFile

/-- `Database::createUser`. `username` is unique, so a second row for the same name is refused. -/
def createUser (calls : Nat → Bool) (now : Bytes) (username passwordHash : Bytes)
    (file : DatabaseFile) : Bool × DatabaseFile :=
  if calls 0 && calls 1 && !file.users.any (fun row => row.username == cString username) then
    (true, { file with users := file.users ++ [{
        username := cString username
        passwordHash := cString passwordHash
        createdAt := now
        lastSeen := now }] })
  else (false, file)

/-- `Database::authenticateUser`. -/
def authenticateUser (calls : Nat → Bool) (username passwordHash : Bytes) (file : DatabaseFile) :
    Bool :=
  calls 0 && calls 1 && file.users.any fun row =>
    row.username == cString username && row.passwordHash == cString passwordHash

/-- `Database::userExists`. -/
def userExists (calls : Nat → Bool) (username : Bytes) (file : DatabaseFile) : Bool :=
  calls 0 && calls 1 && file.users.any fun row => row.username == cString username

/-- `Database::updateLastSeen`. -/
def updateLastSeen (calls : Nat → Bool) (now username : Bytes) (file : DatabaseFile) :
    Bool × DatabaseFile :=
  if calls 0 && calls 1 then
    (true, { file with users := file.users.map fun row =>
        if row.username == cString username then { row with lastSeen := now } else row })
  else (false, file)

end DatabaseFile

/-- A call of an operation of `Database`. -/
inductive Call where
  | createUser (username passwordHash : Bytes)
  | authenticateUser (username passwordHash : Bytes)
  | userExists (username : Bytes)
  | updateLastSeen (username : Bytes)
  | saveMessage (roomId sender content : Bytes) (isPrivate : Bool) (recipient : Bytes)
  | getMessageHistory (roomId : Bytes) (limit : Nat)
  | getPrivateMessages (user1 user2 : Bytes) (limit : Int)
  | createRoom (roomId : Bytes) (isPrivate : Bool) (owner passwordHash : Bytes)
  | deleteRoom (roomId : Bytes)
  | roomExists (roomId : Bytes)
  | updateRoomOwner (roomId newOwner : Bytes)
  | updateRoomPassword (roomId newPasswordHash : Bytes)
  | addBan (roomId username : Bytes)
  | removeBan (roomId username : Bytes)
  | isUserBanned (roomId username : Bytes)
  | getBannedUsers (roomId : Bytes)

/-- What an operation returns. -/
inductive Answer where
  | nothing
  | flag (b : Bool)
  | lines (texts : List Bytes)
  deriving DecidableEq

/-- What an operation reads besides the file. -/
structure CallEnv where
  calls : Nat → Bool
  now : Bytes
  order : DescOrder
  scan : ScanOrder

/-- Both the preparation and the single step of a statement succeed. -/
def CallEnv.ok (e : CallEnv) : Bool := e.calls 0 && e.calls 1

namespace DatabaseFile

/-- Run one operation. The results that the source gives besides the change of a table are computed
here. -/
def perform (e : CallEnv) (file : DatabaseFile) : Call → Answer × DatabaseFile
  | .createUser username passwordHash =>
      let r := file.createUser e.calls e.now username passwordHash
      (.flag r.1, r.2)
  | .authenticateUser username passwordHash =>
      (.flag (file.authenticateUser e.calls username passwordHash), file)
  | .userExists username => (.flag (file.userExists e.calls username), file)
  | .updateLastSeen username =>
      let r := file.updateLastSeen e.calls e.now username
      (.flag r.1, r.2)
  | .saveMessage roomId sender content isPrivate recipient =>
      (.nothing, { file with
        toDatabase := file.toDatabase.saveMessage e.calls e.now roomId sender content isPrivate
          recipient })
  | .getMessageHistory roomId limit =>
      (.lines (file.toDatabase.getMessageHistory e.calls e.order roomId limit), file)
  | .getPrivateMessages user1 user2 limit =>
      (.lines (file.toDatabase.getPrivateMessages e.calls e.order user1 user2 limit), file)
  | .createRoom roomId isPrivate owner passwordHash =>
      -- `INSERT` into a table with a unique column fails for an id that is there
      (.flag (e.ok && !file.rooms.any fun row => row.roomId == cString roomId), { file with
        toDatabase := file.toDatabase.createRoom e.calls roomId isPrivate owner passwordHash })
  | .deleteRoom roomId =>
      let r := file.toDatabase.deleteRoom e.calls roomId
      (.flag r.1, { file with toDatabase := r.2 })
  | .roomExists roomId => (.flag (file.toDatabase.roomExists e.calls roomId), file)
  | .updateRoomOwner roomId newOwner =>
      (.flag e.ok, { file with
        toDatabase := file.toDatabase.updateRoomOwner e.calls roomId newOwner })
  | .updateRoomPassword roomId newPasswordHash =>
      (.flag e.ok, { file with
        toDatabase := file.toDatabase.updateRoomPassword e.calls roomId newPasswordHash })
  | .addBan roomId username =>
      (.flag e.ok, { file with toDatabase := file.toDatabase.addBan e.calls roomId username })
  | .removeBan roomId username =>
      (.flag e.ok, { file with toDatabase := file.toDatabase.removeBan e.calls roomId username })
  | .isUserBanned roomId username =>
      (.flag (file.toDatabase.isUserBanned e.calls roomId username), file)
  | .getBannedUsers roomId => (.lines (file.toDatabase.getBannedUsers e.calls e.scan roomId), file)

/-- The file after a sequence of operations. -/
def performAll (history : List (CallEnv × Call)) (file : DatabaseFile) : DatabaseFile :=
  history.foldl (fun file p => (file.perform p.1 p.2).2) file

end DatabaseFile

/-! ## The registry -/

/-- What the file is about: who has an account and with which password, the rooms, who is banned from
which room, and the archive of messages. -/
structure Registry where
  accounts : Bytes → Option Bytes
  rooms : Bytes → Option RoomRow
  bans : Set (Bytes × Bytes)
  archive : List MessageRow

/-- A change of the registry. -/
inductive Change where
  | register (name passwordHash : Bytes)
  | save (row : MessageRow)
  | openRoom (row : RoomRow)
  | appoint (roomId owner : Bytes)
  | rekey (roomId passwordHash : Bytes)
  | ban (roomId name : Bytes)
  | unban (roomId name : Bytes)
  | dropMessages (roomId : Bytes)
  | dropBans (roomId : Bytes)
  | dropRoom (roomId : Bytes)

namespace Registry

/-- Nobody has an account, and there are no rooms. -/
def empty : Registry := ⟨fun _ => none, fun _ => none, ∅, []⟩

/-- The registry after a change. Of two accounts with one name, and of two rooms with one id, the first
stays. -/
def apply (l : Registry) : Change → Registry
  | .register name passwordHash => { l with
      accounts := fun q => if q = name then some ((l.accounts q).getD passwordHash) else l.accounts q }
  | .save row => { l with archive := l.archive ++ [row] }
  | .openRoom row => { l with
      rooms := fun q => if q = row.roomId then some ((l.rooms q).getD row) else l.rooms q }
  | .appoint roomId owner => { l with
      rooms := fun q => if q = roomId then (l.rooms q).map fun row => { row with ownerUsername := owner }
        else l.rooms q }
  | .rekey roomId passwordHash => { l with
      rooms := fun q =>
        if q = roomId then (l.rooms q).map fun row => { row with passwordHash := some passwordHash }
        else l.rooms q }
  | .ban roomId name => { l with bans := insert (roomId, name) l.bans }
  | .unban roomId name => { l with bans := l.bans \ {(roomId, name)} }
  | .dropMessages roomId => { l with archive := l.archive.filter fun row => row.roomId ≠ roomId }
  | .dropBans roomId => { l with bans := {p ∈ l.bans | p.1 ≠ roomId} }
  | .dropRoom roomId => { l with rooms := fun q => if q = roomId then none else l.rooms q }

end Registry

/-- The row that `saveMessage` writes. -/
def savedRow (now roomId sender content : Bytes) (isPrivate : Bool) (recipient : Bytes) : MessageRow where
  roomId := cString roomId
  senderUsername := cString sender
  content := cString content
  isPrivate := isPrivate
  recipientUsername := if recipient.isEmpty then none else some (cString recipient)
  timestamp := now

/-- The row that `createRoom` writes. -/
def openedRow (roomId : Bytes) (isPrivate : Bool) (owner passwordHash : Bytes) : RoomRow where
  roomId := cString roomId
  isPrivate := isPrivate
  ownerUsername := cString owner
  passwordHash := if passwordHash.isEmpty then none else some (cString passwordHash)

/-- The changes that an operation makes, given which of its statements succeed. -/
def Call.changes (e : CallEnv) : Call → List Change
  | .createUser username passwordHash =>
      if e.ok then [.register (cString username) (cString passwordHash)] else []
  | .saveMessage roomId sender content isPrivate recipient =>
      if e.ok then [.save (savedRow e.now roomId sender content isPrivate recipient)] else []
  | .createRoom roomId isPrivate owner passwordHash =>
      if e.ok then [.openRoom (openedRow roomId isPrivate owner passwordHash)] else []
  | .deleteRoom roomId =>
      (if e.calls 0 && e.calls 1 then [.dropMessages (cString roomId)] else []) ++
        (if e.calls 2 && e.calls 3 then [.dropBans (cString roomId)] else []) ++
        (if e.calls 4 && e.calls 5 then [.dropRoom (cString roomId)] else [])
  | .updateRoomOwner roomId newOwner =>
      if e.ok then [.appoint (cString roomId) (cString newOwner)] else []
  | .updateRoomPassword roomId newPasswordHash =>
      if e.ok then [.rekey (cString roomId) (cString newPasswordHash)] else []
  | .addBan roomId username => if e.ok then [.ban (cString roomId) (cString username)] else []
  | .removeBan roomId username => if e.ok then [.unban (cString roomId) (cString username)] else []
  | _ => []

/-- The registry after a sequence of operations. -/
def enroll (history : List (CallEnv × Call)) (l : Registry) : Registry :=
  (history.flatMap fun p => p.2.changes p.1).foldl Registry.apply l

end TerminalChat.Server
