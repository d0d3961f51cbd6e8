import Mathlib
import TerminalChat.Server.Database

/-!
# Deleting a room from the database

`Database::deleteRoom` runs three deletions, each of which may fail, and returns the outcome of the last.
The outcomes of the first two are lost; `deletion_all_or_nothing_iff` says when this does not matter.
-/

set_option autoImplicit false

namespace TerminalChat.Server

open TerminalChat.Text

namespace Database

/-- No row of the three tables names the room; SQLite is given an id up to its first NUL byte. -/
def Forgotten (roomId : Bytes) (db : Database) : Prop :=
  (∀ row ∈ db.messages, row.roomId ≠ cString roomId) ∧
    (∀ row ∈ db.bans, row.roomId ≠ cString roomId) ∧ ∀ row ∈ db.rooms, row.roomId ≠ cString roomId

/-- The rows of the other rooms. -/
def others (roomId : Bytes) (db : Database) : Database where
  rooms := db.rooms.filter fun row => row.roomId != cString roomId
  messages := db.messages.filter fun row => row.roomId != cString roomId
  bans := db.bans.filter fun row => row.roomId != cString roomId

/-- A deletion that is all or nothing: it succeeds and no row names the room any more, or it fails and
the tables are as before. The rows of other rooms are untouched. -/
def AllOrNothing (roomId : Bytes) (db : Database) (result : Bool × Database) : Prop :=
  (result.1 = true ∧ result.2.Forgotten roomId ∨ result.1 = false ∧ result.2 = db) ∧
    result.2.others roomId = db.others roomId

section Outcome

variable {α : Type} {key : α → Bytes} {r : Bytes} {rows : List α} {done : Bool}

/-- A deletion leaves no row of the room when it runs, or when there was none. -/
theorem forall_ne_ite_filter : (∀ row ∈ if done then rows.filter (fun row => key row != r) else rows,
    key row ≠ r) ↔ done = true ∨ ∀ row ∈ rows, key row ≠ r := by
  cases done with
  | true => simp
  | false => simp

/-- A deletion leaves a table alone when it does not run, or when there is no row of the room. -/
theorem ite_filter_eq_self : (if done then rows.filter (fun row => key row != r) else rows) = rows ↔
    done = false ∨ ∀ row ∈ rows, key row ≠ r := by
  cases done with
  | true => simp [List.filter_eq_self]
  | false => simp

theorem filter_ite_filter : (if done then rows.filter (fun row => key row != r) else rows).filter
    (fun row => key row != r) = rows.filter fun row => key row != r := by
  cases done with
  | true => simp [List.filter_filter]
  | false => rfl

end Outcome

end Database

/-- **Deleting a room is all or nothing exactly when the deletions agree.** Each of the first two
deletions succeeds when the last one does and fails when it fails, unless it has no row to delete. -/
theorem deletion_all_or_nothing_iff (calls : Nat → Bool) (roomId : Bytes) (db : Database) :
    db.AllOrNothing roomId (db.deleteRoom calls roomId) ↔
      ((calls 0 && calls 1) = (calls 4 && calls 5) ∨
        ∀ row ∈ db.messages, row.roomId ≠ cString roomId) ∧
      ((calls 2 && calls 3) = (calls 4 && calls 5) ∨
        ∀ row ∈ db.bans, row.roomId ≠ cString roomId) := by
  have hothers : (db.deleteRoom calls roomId).2.others roomId = db.others roomId := by
    rw [Database.deleteRoom_eq, Database.others, Database.others, Database.mk.injEq]
    exact ⟨Database.filter_ite_filter, Database.filter_ite_filter, Database.filter_ite_filter⟩
  rw [Database.AllOrNothing, and_iff_left hothers, Database.deleteRoom_eq]
  dsimp only
  generalize (calls 0 && calls 1) = messagesDone
  generalize (calls 2 && calls 3) = bansDone
  cases calls 4 && calls 5 with
  | true =>
      -- a success has to delete the rows of all three tables
      rw [Database.Forgotten, Database.forall_ne_ite_filter, Database.forall_ne_ite_filter,
        Database.forall_ne_ite_filter]
      simp
  | false =>
      -- a failure has to delete none
      have hsame : ∀ db' : Database, db' = db ↔
          db'.rooms = db.rooms ∧ db'.messages = db.messages ∧ db'.bans = db.bans := by
        intro db'
        constructor
        · rintro rfl
          exact ⟨rfl, rfl, rfl⟩
        · rintro ⟨hrooms, hmessages, hbans⟩
          cases db'
          cases db
          simp_all
      rw [hsame]
      dsimp only
      rw [Database.ite_filter_eq_self, Database.ite_filter_eq_self, Database.ite_filter_eq_self]
      simp

/-- The deletion of the messages fails, and the room is deleted all the same. -/
def lockedMessages : Nat → Bool := fun n => n != 1

/-- A success that leaves a message behind. -/
theorem not_deletion_all_or_nothing : ¬Database.AllOrNothing (str "100000")
    { messages := [⟨str "100000", str "alice", str "hello", false, none, []⟩] }
    (Database.deleteRoom lockedMessages (str "100000")
      { messages := [⟨str "100000", str "alice", str "hello", false, none, []⟩] }) := by
  rw [Database.AllOrNothing]
  rintro ⟨⟨-, hmessages, -⟩ | ⟨hfailed, -⟩, -⟩
  · exact hmessages ⟨str "100000", str "alice", str "hello", false, none, []⟩ (by decide) (by decide)
  · exact absurd hfailed (by decide)

end TerminalChat.Server
