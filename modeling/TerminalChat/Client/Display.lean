import Mathlib.Tactic.Common
import TerminalChat.Text.Positions

/-!
# The lists on the screen

`displayRoomsList` and `displayUsersList` take the text behind the marker of a line apart at its commas
and print an entry for what they find in each piece. The number of an entry is its place in the list.
-/

set_option autoImplicit false

namespace TerminalChat.Client

open TerminalChat.Text

/-- The comma. -/
def comma : UInt8 := 44

/-- The opening parenthesis. -/
def leftParen : UInt8 := 40

/-- The closing parenthesis. -/
def rightParen : UInt8 := 41

/-- What a list shows: the text that there is nothing, or its entries in order. -/
inductive Listing (α : Type) where
  | nothing
  | entries (l : List α)
  deriving DecidableEq

/-- An entry of the room list. -/
structure RoomShown where
  roomId : Bytes
  userCount : Bytes
  type : Bytes
  deriving DecidableEq

/-- An entry of the user list; `you` and `owner` are the tags ` (You)` and ` [OWNER]`. -/
structure UserShown where
  user : Bytes
  you : Bool := false
  owner : Bool := false
  deriving DecidableEq

/-- The type that `displayRoomsList` prints for what follows the id of a room. -/
def shownType (remaining : Bytes) : Bytes :=
  if contains (str "[PRIVATE]") remaining then str "PRIVATE [*]"
  else if contains (str "[PUBLIC]") remaining then str "PUBLIC [+]"
  else str "PUBLIC"

/-- One round of the loop in `displayRoomsList`. The closing parenthesis is never at the start of
`remaining`, so `closePos - 1` does not wrap around. -/
def shownRoom (piece : Bytes) : Except Exception (Option RoomShown) := do
  let room ← trimAt piece
  if room.isEmpty then pure none
  else match find room leftParen 0 with
    | none => pure none
    | some pos => do
        let roomId ← substr room 0 pos
        let remaining ← substrFrom room pos
        let closePos := position (find remaining rightParen 0)
        let userCount ← substr remaining 1 (closePos - 1)
        pure (some ⟨roomId, userCount, shownType remaining⟩)

/-- `displayRoomsList`. -/
def displayRoomsList (roomsList : Bytes) : Except Exception (Listing RoomShown) :=
  if roomsList = [] ∨ roomsList = [comma] then pure .nothing
  else do
    let shown ← (getlines comma roomsList).mapM shownRoom
    pure (.entries (shown.filterMap id))

/-- One round of the loop in `displayUsersList`. -/
def shownUser (username : Bytes) (isOwner : Bool) (piece : Bytes) :
    Except Exception (Option UserShown) := do
  let user ← trimAt piece
  if user.isEmpty then pure none
  else if user = username then pure (some { user := user, you := true, owner := isOwner })
  else pure (some { user := user })

/-- `displayUsersList`. -/
def displayUsersList (usersList username : Bytes) (isOwner : Bool) :
    Except Exception (Listing UserShown) :=
  if usersList = [] ∨ usersList = [comma] then pure .nothing
  else do
    let shown ← (getlines comma usersList).mapM (shownUser username isOwner)
    pure (.entries (shown.filterMap id))

/-! ## The pieces -/

/-- A loop whose rounds throw nothing throws nothing. -/
theorem mapM_ok {α β : Type} {f : α → Except Exception β} {g : α → β} :
    ∀ {l : List α}, (∀ a ∈ l, f a = .ok (g a)) → l.mapM f = .ok (l.map g)
  | [], _ => rfl
  | a :: l, h => by
      have ih := mapM_ok fun b hb => h b (List.mem_cons_of_mem a hb)
      rw [List.mapM_cons, h a List.mem_cons_self, ih]
      rfl

/-- The pieces of texts that are closed by the separator. -/
theorem getlines_closed {sep : UInt8} {texts : List Bytes} (h : ∀ t ∈ texts, sep ∉ t) :
    getlines sep (closed sep texts) = texts := by
  have hmessages : messagesOf sep (closed sep texts) = (texts, []) := by
    induction texts with
    | nil => rfl
    | cons t texts ih =>
        have hcons : closed sep (t :: texts) = t ++ sep :: closed sep texts := by
          simp [closed]
        rw [hcons, messagesOf_closed (h t List.mem_cons_self),
          ih fun t' ht' => h t' (List.mem_cons_of_mem t ht')]
  rw [getlines, hmessages, if_pos rfl, List.append_nil]

/-- No piece has the separator. -/
theorem not_mem_getlines {sep : UInt8} {s piece : Bytes} (h : piece ∈ getlines sep s) :
    sep ∉ piece := by
  obtain ⟨hmessages, hrest⟩ := not_mem_messagesOf sep s
  rw [getlines, List.mem_append] at h
  rcases h with h | h
  · exact hmessages piece h
  · split at h
    · exact absurd h List.not_mem_nil
    · rw [List.mem_singleton.1 h]
      exact hrest

/-- A piece that is all of a text throws nothing: the searches and parts of a room. -/
theorem shownRoom_ok (piece : Bytes) : ∃ shown, shownRoom piece = .ok shown := by
  rw [shownRoom, trimAt_eq]
  show ∃ shown, (if (trim piece).isEmpty then pure none else _) = Except.ok shown
  by_cases hempty : (trim piece).isEmpty = true
  · rw [if_pos hempty]
    exact ⟨none, rfl⟩
  · rw [if_neg hempty]
    cases hpos : find (trim piece) leftParen 0 with
    | none => exact ⟨none, rfl⟩
    | some pos =>
        have hlt := (find_bounds hpos).2
        -- what starts at the parenthesis has at least the parenthesis
        have hone : 1 ≤ ((trim piece).drop pos).length := by
          rw [List.length_drop]
          omega
        dsimp only
        rw [substr_eq_ok (Nat.zero_le _), substrFrom_eq_ok (Nat.le_of_lt hlt)]
        show ∃ shown, (do
          let userCount ← substr ((trim piece).drop pos) 1 _
          pure _) = Except.ok shown
        rw [substr_eq_ok hone]
        exact ⟨_, rfl⟩

theorem shownUser_eq (username : Bytes) (isOwner : Bool) (piece : Bytes) :
    shownUser username isOwner piece = .ok (if (trim piece).isEmpty then none
      else some (if trim piece = username then { user := trim piece, you := true, owner := isOwner }
        else { user := trim piece })) := by
  rw [shownUser, trimAt_eq]
  show (if (trim piece).isEmpty then pure none else _) = _
  split
  · rfl
  · split
    · rfl
    · rfl

/-- The room list is taken apart within its bounds. -/
theorem displayRoomsList_ok (roomsList : Bytes) :
    ∃ shown, displayRoomsList roomsList = .ok shown := by
  rw [displayRoomsList]
  split
  · exact ⟨.nothing, rfl⟩
  · have hall : ∀ piece ∈ getlines comma roomsList,
        shownRoom piece = .ok (shownRoom_ok piece).choose := fun piece _ =>
      (shownRoom_ok piece).choose_spec
    rw [mapM_ok hall]
    exact ⟨_, rfl⟩

/-- The user list is taken apart within its bounds. -/
theorem displayUsersList_ok (usersList username : Bytes) (isOwner : Bool) :
    ∃ shown, displayUsersList usersList username isOwner = .ok shown := by
  rw [displayUsersList]
  split
  · exact ⟨.nothing, rfl⟩
  · rw [mapM_ok fun piece _ => shownUser_eq username isOwner piece]
    exact ⟨_, rfl⟩

end TerminalChat.Client
