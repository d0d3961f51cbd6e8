import Mathlib
import TerminalChat.Server.ChatRoom

/-!
# The database

The three SQLite tables the server works on and the operations of `Database` on them, over rows in
insertion order. Every `sqlite3_prepare_v2` and `sqlite3_step` of an operation may fail; the outcome
of the `n`-th call is `calls n`. `sqlite3_bind_text` with length -1 binds the text up to its first
NUL byte.
-/

set_option autoImplicit false

namespace TerminalChat.Server

open TerminalChat.Text

/-- The text that `sqlite3_bind_text(.., -1, ..)` binds. -/
def cString (s : Bytes) : Bytes := s.takeWhile fun c => c != 0

/-- A row of `rooms`. -/
structure RoomRow where
  roomId : Bytes
  isPrivate : Bool
  ownerUsername : Bytes
  passwordHash : Option Bytes
  deriving DecidableEq

/-- A row of `messages`. -/
structure MessageRow where
  roomId : Bytes
  senderUsername : Bytes
  content : Bytes
  isPrivate : Bool
  recipientUsername : Option Bytes
  timestamp : Bytes
  deriving DecidableEq

/-- A row of `bans`. -/
structure BanRow where
  roomId : Bytes
  username : Bytes
  deriving DecidableEq

/-- The tables, in insertion order. -/
structure Database where
  rooms : List RoomRow := []
  messages : List MessageRow := []
  bans : List BanRow := []
  deriving DecidableEq

/-- An arrangement of rows that `ORDER BY timestamp DESC` may produce: a permutation with
non-increasing timestamps. Rows with equal timestamps come in any order. -/
structure DescOrder where
  arrange : List MessageRow → List MessageRow
  perm : ∀ rows, (arrange rows).Perm rows
  sorted : ∀ rows, (arrange rows).Pairwise fun a b => b.timestamp ≤ a.timestamp

/-- The arrangement that keeps rows with equal timestamps in the order of the table. -/
def DescOrder.stable : DescOrder where
  arrange rows := rows.insertionSort fun a b => b.timestamp ≤ a.timestamp
  perm rows := List.perm_insertionSort _ rows
  sorted rows :=
    List.pairwise_insertionSort (fun a b : MessageRow => b.timestamp ≤ a.timestamp) rows

namespace Database

/-- `Database::saveMessage`; `now` is `CURRENT_TIMESTAMP`. -/
def saveMessage (calls : Nat → Bool) (now : Bytes) (roomId sender content : Bytes)
    (isPrivate : Bool) (recipient : Bytes) (db : Database) : Database :=
  if calls 0 && calls 1 then
    { db with messages := db.messages ++ [{
        roomId := cString roomId
        senderUsername := cString sender
        content := cString content
        isPrivate := isPrivate
        recipientUsername := if recipient.isEmpty then none else some (cString recipient)
        timestamp := now }] }
  else db

/-- The line that `Database::getMessageHistory` builds from a row. -/
def historyLine (row : MessageRow) : Bytes :=
  str "[" ++ row.timestamp ++ str "] " ++ row.senderUsername ++ str ": " ++ row.content ++ str "\n"

/-- `Database::getMessageHistory`. -/
def getMessageHistory (calls : Nat → Bool) (order : DescOrder) (roomId : Bytes) (limit : Nat)
    (db : Database) : List Bytes :=
  if calls 0 then
    let selected := db.messages.filter fun row => row.roomId == cString roomId && !row.isPrivate
    let stepped := ((order.arrange selected).take limit).zipIdx.takeWhile fun p => calls (p.2 + 1)
    (stepped.map fun p => historyLine p.1).reverse
  else []

/-- `Database::createRoom`. `room_id` is unique, so a second row for the same id is refused. -/
def createRoom (calls : Nat → Bool) (roomId : Bytes) (isPrivate : Bool) (owner : Bytes)
    (passwordHash : Bytes) (db : Database) : Database :=
  if calls 0 && calls 1 && !db.rooms.any (fun row => row.roomId == cString roomId) then
    { db with rooms := db.rooms ++ [{
        roomId := cString roomId
        isPrivate := isPrivate
        ownerUsername := cString owner
        passwordHash := if passwordHash.isEmpty then none else some (cString passwordHash) }] }
  else db

/-- `Database::deleteRoom`: three deletions, the first two of which may fail silently. -/
def deleteRoom (calls : Nat → Bool) (roomId : Bytes) (db : Database) : Bool × Database :=
  let db₁ := if calls 0 && calls 1 then
      { db with messages := db.messages.filter fun row => row.roomId != cString roomId }
    else db
  let db₂ := if calls 2 && calls 3 then
      { db₁ with bans := db₁.bans.filter fun row => row.roomId != cString roomId }
    else db₁
  if calls 4 && calls 5 then
    (true, { db₂ with rooms := db₂.rooms.filter fun row => row.roomId != cString roomId })
  else (false, db₂)

/-- `Database::updateRoomOwner`. -/
def updateRoomOwner (calls : Nat → Bool) (roomId newOwner : Bytes) (db : Database) : Database :=
  if calls 0 && calls 1 then
    { db with rooms := db.rooms.map fun row =>
        if row.roomId == cString roomId then { row with ownerUsername := cString newOwner }
        else row }
  else db

/-- `Database::updateRoomPassword`. -/
def updateRoomPassword (calls : Nat → Bool) (roomId newPasswordHash : Bytes) (db : Database) :
    Database :=
  if calls 0 && calls 1 then
    { db with rooms := db.rooms.map fun row =>
        if row.roomId == cString roomId then
          { row with passwordHash := some (cString newPasswordHash) }
        else row }
  else db

/-- `Database::addBan`: `INSERT OR IGNORE` on the unique pair. -/
def addBan (calls : Nat → Bool) (roomId username : Bytes) (db : Database) : Database :=
  if calls 0 && calls 1 &&
      !db.bans.any (fun row => row.roomId == cString roomId && row.username == cString username)
  then { db with bans := db.bans ++ [{ roomId := cString roomId, username := cString username }] }
  else db

/-- `Database::isUserBanned`. -/
def isUserBanned (calls : Nat → Bool) (roomId username : Bytes) (db : Database) : Bool :=
  calls 0 && calls 1 &&
    db.bans.any fun row => row.roomId == cString roomId && row.username == cString username

/-! ### What a deletion leaves -/

section Deletion

variable {calls : Nat → Bool} {roomId : Bytes} {db : Database}

/-- The three tables after `deleteRoom`, and what it returns. -/
theorem deleteRoom_eq (calls : Nat → Bool) (roomId : Bytes) (db : Database) :
    db.deleteRoom calls roomId = (calls 4 && calls 5, {
      rooms := if calls 4 && calls 5 then db.rooms.filter fun row => row.roomId != cString roomId
        else db.rooms
      messages := if calls 0 && calls 1 then
          db.messages.filter fun row => row.roomId != cString roomId
        else db.messages
      bans := if calls 2 && calls 3 then db.bans.filter fun row => row.roomId != cString roomId
        else db.bans }) := by
  unfold deleteRoom
  cases calls 0 && calls 1 <;> cases calls 2 && calls 3 <;> cases calls 4 && calls 5 <;> rfl

theorem mem_rooms_deleteRoom {row : RoomRow} (h : row ∈ (db.deleteRoom calls roomId).2.rooms) :
    row ∈ db.rooms := by
  rw [deleteRoom_eq] at h
  dsimp only at h
  split at h
  · exact List.mem_of_mem_filter h
  · exact h

theorem mem_messages_deleteRoom {row : MessageRow}
    (h : row ∈ (db.deleteRoom calls roomId).2.messages) : row ∈ db.messages := by
  rw [deleteRoom_eq] at h
  dsimp only at h
  split at h
  · exact List.mem_of_mem_filter h
  · exact h

theorem mem_bans_deleteRoom {row : BanRow} (h : row ∈ (db.deleteRoom calls roomId).2.bans) :
    row ∈ db.bans := by
  rw [deleteRoom_eq] at h
  dsimp only at h
  split at h
  · exact List.mem_of_mem_filter h
  · exact h

end Deletion

end Database

end TerminalChat.Server
