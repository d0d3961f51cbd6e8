import Mathlib
import TerminalChat.Server.Records

/-!
# The database beside the rooms

What the three tables keep of the live rooms, as a relation between a table of sheets and the
database (`Mirror`), and what each operation of the server on the two stores makes of it. Every SQLite call
succeeds here.
-/

set_option autoImplicit false

namespace TerminalChat.Server

open TerminalChat.Concurrency TerminalChat.Text

/-! ## Sheets -/

/-- What the database keeps of a room. -/
structure Sheet where
  isPrivate : Bool
  password : Bytes
  bannedUsers : Std.ExtTreeSet Bytes

/-- The row of `rooms` shows the sheet: the flag, and the password of a private room. -/
structure RoomRow.Shows (row : RoomRow) (sheet : Sheet) : Prop where
  isPrivate : row.isPrivate = sheet.isPrivate
  password : row.passwordHash = if sheet.isPrivate then some (cString sheet.password) else none

/-- The rows of a room that JOIN may replay, in insertion order. -/
def Database.publicRows (db : Database) (roomId : Bytes) : List MessageRow :=
  db.messages.filter fun row => row.roomId == roomId && !row.isPrivate

/-- The database mirrors the sheets of the live rooms and the transcripts of what has been delivered
in them; the rooms in `unrecorded` may have no row yet. -/
structure Mirror (sheets : Bytes → Option Sheet) (unrecorded : List Bytes)
    (transcript : Bytes → List MessageRow) (db : Database) : Prop where
  ids : ∀ {r sheet}, sheets r = some sheet → cString r = r
  gated : ∀ {r sheet}, sheets r = some sheet → sheet.password.isEmpty = !sheet.isPrivate
  unique : (db.rooms.map RoomRow.roomId).Nodup
  shown : ∀ row ∈ db.rooms, ∃ sheet, sheets row.roomId = some sheet ∧ row.Shows sheet
  recorded : ∀ {r sheet}, sheets r = some sheet →
    r ∈ unrecorded ∨ r ∈ db.rooms.map RoomRow.roomId
  bansOnce : db.bans.Nodup
  banned : ∀ r name, ⟨r, name⟩ ∈ db.bans ↔
    ∃ sheet, sheets r = some sheet ∧ ∃ user ∈ sheet.bannedUsers, cString user = name
  messages : ∀ r, db.publicRows r = transcript r
  placed : ∀ row ∈ db.messages, (sheets row.roomId).isSome

namespace Mirror

variable {sheets : Bytes → Option Sheet} {unrecorded : List Bytes}
  {transcript : Bytes → List MessageRow} {db : Database} {calls : Nat → Bool} {r : Bytes}
  {sheet : Sheet}

theorem empty : Mirror (fun _ => none) [] (fun _ => []) {} := by
  constructor <;> simp [Database.publicRows]

/-- A room comes into being. -/
theorem create (h : Mirror sheets unrecorded transcript db) (hr : sheets r = none)
    (hid : cString r = r) {isPrivate : Bool} {password : Bytes}
    (hp : password.isEmpty = !isPrivate) :
    Mirror (Function.update sheets r (some ⟨isPrivate, password, ∅⟩)) (r :: unrecorded)
      transcript db := by
  -- the id belongs to no other live room, and CREATE touches no table
  have hne : ∀ {q : Bytes}, (sheets q).isSome → q ≠ r := by
    rintro q hq rfl
    rw [hr] at hq
    exact absurd hq (by simp)
  constructor
  · intro q sheet hq
    by_cases he : q = r
    · rw [he]
      exact hid
    · rw [Function.update_of_ne he] at hq
      exact h.ids hq
  · intro q sheet hq
    by_cases he : q = r
    · rw [he, Function.update_self, Option.some.injEq] at hq
      rw [← hq]
      exact hp
    · rw [Function.update_of_ne he] at hq
      exact h.gated hq
  · exact h.unique
  · intro row hrow
    obtain ⟨sheet, hs, hshow⟩ := h.shown row hrow
    refine ⟨sheet, ?_, hshow⟩
    rw [Function.update_of_ne (hne (by rw [hs]; rfl))]
    exact hs
  · intro q sheet hq
    by_cases he : q = r
    · rw [he]
      exact Or.inl List.mem_cons_self
    · rw [Function.update_of_ne he] at hq
      rcases h.recorded hq with hu | hrow
      · exact Or.inl (List.mem_cons_of_mem r hu)
      · exact Or.inr hrow
  · exact h.bansOnce
  · intro q name
    rw [h.banned]
    by_cases he : q = r
    · rw [he, hr, Function.update_self]
      simp
    · rw [Function.update_of_ne he]
  · exact h.messages
  · intro row hrow
    have hlive := h.placed row hrow
    rw [Function.update_of_ne (hne hlive)]
    exact hlive

/-- `Database::createRoom` writes the row of a room that has none yet. -/
theorem record (h : Mirror sheets unrecorded transcript db) (hc : ∀ n, calls n = true)
    (hr : sheets r = some sheet) (owner : Bytes) :
    Mirror sheets (unrecorded.filter fun q => q != r) transcript
      (db.createRoom calls r sheet.isPrivate owner sheet.password) := by
  have hid := h.ids hr
  -- the room of the new row is not owed one any more
  have hrest : ∀ {q : Bytes} {l : List Bytes}, q ∈ unrecorded ∨ q ∈ l → r ∈ l →
      q ∈ unrecorded.filter (fun q => q != r) ∨ q ∈ l := by
    intro q l hq hrow
    by_cases he : q = r
    · rw [he]
      exact Or.inr hrow
    · rcases hq with hq | hq
      · exact Or.inl (List.mem_filter.2 ⟨hq, by simpa using he⟩)
      · exact Or.inr hq
  by_cases hany : db.rooms.any (fun row => row.roomId == r) = true
  · -- a second row is refused
    have hsame : db.createRoom calls r sheet.isPrivate owner sheet.password = db := by
      rw [Database.createRoom, hid, hany]
      simp
    rw [hsame]
    refine ⟨h.ids, h.gated, h.unique, h.shown, fun hq => hrest (h.recorded hq) ?_, h.bansOnce,
      h.banned, h.messages, h.placed⟩
    obtain ⟨row, hrow, heq⟩ := List.any_eq_true.1 hany
    exact List.mem_map.2 ⟨row, hrow, by simpa using heq⟩
  · have hfree : r ∉ db.rooms.map RoomRow.roomId := by
      intro hmem
      obtain ⟨row, hrow, heq⟩ := List.mem_map.1 hmem
      exact hany (List.any_eq_true.2 ⟨row, hrow, by simpa using heq⟩)
    have hdb : db.createRoom calls r sheet.isPrivate owner sheet.password =
        { db with rooms := db.rooms ++ [{
            roomId := r
            isPrivate := sheet.isPrivate
            ownerUsername := cString owner
            passwordHash := if sheet.password.isEmpty then none
              else some (cString sheet.password) }] } := by
      rw [Database.createRoom, hid, Bool.eq_false_iff.2 hany, hc, hc]
      rfl
    rw [hdb]
    refine ⟨h.ids, h.gated, ?_, ?_, fun hq => hrest ?_ ?_, h.bansOnce, h.banned, h.messages,
      h.placed⟩
    · rw [List.map_append, List.map_singleton]
      exact h.unique.append (List.nodup_singleton r) (List.disjoint_singleton.2 hfree)
    · intro row hrow
      rw [List.mem_append, List.mem_singleton] at hrow
      rcases hrow with hrow | rfl
      · exact h.shown row hrow
      · refine ⟨sheet, hr, rfl, ?_⟩
        dsimp only
        rw [h.gated hr]
        cases sheet.isPrivate <;> rfl
    · rcases h.recorded hq with hu | hrow
      · exact Or.inl hu
      · rw [List.map_append]
        exact Or.inr (List.mem_append_left _ hrow)
    · rw [List.map_append]
      exact List.mem_append_right _ (List.mem_singleton_self r)

/-- A new sheet for a live room, with rows that show it. -/
theorem edit (h : Mirror sheets unrecorded transcript db) (hr : sheets r = some sheet)
    (sheet' : Sheet) (f : RoomRow → RoomRow) (bans : List BanRow)
    (hp : sheet'.password.isEmpty = !sheet'.isPrivate) (hf : ∀ row, (f row).roomId = row.roomId)
    (hkeep : ∀ row, row.roomId ≠ r → f row = row)
    (hshow : ∀ row, row.roomId = r → row.Shows sheet → (f row).Shows sheet') (honce : bans.Nodup)
    (hbans : ∀ q name, ⟨q, name⟩ ∈ bans ↔
      if q = r then ∃ user ∈ sheet'.bannedUsers, cString user = name else ⟨q, name⟩ ∈ db.bans) :
    Mirror (Function.update sheets r (some sheet')) unrecorded transcript
      { db with rooms := db.rooms.map f, bans := bans } := by
  -- an edit keeps the ids of the rows
  have hids : (db.rooms.map f).map RoomRow.roomId = db.rooms.map RoomRow.roomId := by
    rw [List.map_map]
    exact List.map_congr_left fun row _ => hf row
  constructor
  · intro q sheet₀ hq
    by_cases he : q = r
    · rw [he]
      exact h.ids hr
    · rw [Function.update_of_ne he] at hq
      exact h.ids hq
  · intro q sheet₀ hq
    by_cases he : q = r
    · rw [he, Function.update_self, Option.some.injEq] at hq
      rw [← hq]
      exact hp
    · rw [Function.update_of_ne he] at hq
      exact h.gated hq
  · rw [hids]
    exact h.unique
  · intro row' hrow'
    obtain ⟨row, hrow, rfl⟩ := List.mem_map.1 hrow'
    obtain ⟨sheet₀, hs, hsh⟩ := h.shown row hrow
    by_cases he : row.roomId = r
    · rw [he, hr, Option.some.injEq] at hs
      rw [← hs] at hsh
      exact ⟨sheet', by rw [hf, he, Function.update_self], hshow row he hsh⟩
    · rw [hkeep row he]
      exact ⟨sheet₀, by rw [Function.update_of_ne he]; exact hs, hsh⟩
  · intro q sheet₀ hq
    rw [hids]
    by_cases he : q = r
    · rw [he]
      exact h.recorded hr
    · rw [Function.update_of_ne he] at hq
      exact h.recorded hq
  · exact honce
  · intro q name
    rw [hbans]
    by_cases he : q = r
    · rw [if_pos he, he, Function.update_self]
      simp
    · rw [if_neg he, Function.update_of_ne he]
      exact h.banned q name
  · exact h.messages
  · intro row hrow
    by_cases he : row.roomId = r
    · rw [he, Function.update_self]
      rfl
    · rw [Function.update_of_ne he]
      exact h.placed row hrow

/-- The bans of a room that its sheet lists. -/
theorem banned_of_some (h : Mirror sheets unrecorded transcript db) (hr : sheets r = some sheet)
    (name : Bytes) : ⟨r, name⟩ ∈ db.bans ↔ ∃ user ∈ sheet.bannedUsers, cString user = name := by
  rw [h.banned, hr]
  simp

/-- The bans after an `INSERT OR IGNORE` that succeeds. -/
theorem addBan_eq (hc : ∀ n, calls n = true) (name : Bytes) : db.addBan calls r name =
    { db with bans := if ⟨cString r, cString name⟩ ∈ db.bans then db.bans
        else db.bans ++ [⟨cString r, cString name⟩] } := by
  have hany : db.bans.any (fun row => row.roomId == cString r && row.username == cString name) =
      decide ((⟨cString r, cString name⟩ : BanRow) ∈ db.bans) := by
    rw [Bool.eq_iff_iff, List.any_eq_true, decide_eq_true_eq]
    constructor
    · rintro ⟨row, hrow, heq⟩
      rw [Bool.and_eq_true, beq_iff_eq, beq_iff_eq] at heq
      rwa [← heq.1, ← heq.2]
    · exact fun hmem => ⟨_, hmem, by simp⟩
  rw [Database.addBan, hany, hc, hc]
  by_cases hmem : (⟨cString r, cString name⟩ : BanRow) ∈ db.bans
  · simp [hmem]
  · simp [hmem]

/-- `Database::addBan` beside `ChatRoom::banUser`. -/
theorem ban (h : Mirror sheets unrecorded transcript db) (hc : ∀ n, calls n = true)
    (hr : sheets r = some sheet) (name : Bytes) :
    Mirror (Function.update sheets r (some { sheet with
      bannedUsers := sheet.bannedUsers.insert name })) unrecorded transcript
        (db.addBan calls r name) := by
  have hrooms : db.rooms = db.rooms.map id := (List.map_id _).symm
  have hgated := h.gated hr
  rw [addBan_eq hc, h.ids hr]
  have hmem : ∀ (q n : Bytes), ⟨q, n⟩ ∈ (if ⟨r, cString name⟩ ∈ db.bans then db.bans
      else db.bans ++ [⟨r, cString name⟩]) ↔ ⟨q, n⟩ ∈ db.bans ∨ q = r ∧ n = cString name := by
    intro q n
    by_cases hold : (⟨r, cString name⟩ : BanRow) ∈ db.bans
    · rw [if_pos hold]
      refine ⟨Or.inl, ?_⟩
      rintro (hq | ⟨rfl, rfl⟩)
      · exact hq
      · exact hold
    · rw [if_neg hold, List.mem_append, List.mem_singleton, BanRow.mk.injEq]
  have hedit := h.edit hr { sheet with bannedUsers := sheet.bannedUsers.insert name } id
    (if ⟨r, cString name⟩ ∈ db.bans then db.bans else db.bans ++ [⟨r, cString name⟩])
      hgated (fun _ => rfl) (fun _ _ => rfl) (fun row _ hsh => ⟨hsh.isPrivate, hsh.password⟩) ?_ ?_
  · rw [← hrooms] at hedit
    exact hedit
  · by_cases hold : (⟨r, cString name⟩ : BanRow) ∈ db.bans
    · rw [if_pos hold]
      exact h.bansOnce
    · rw [if_neg hold]
      exact h.bansOnce.append (List.nodup_singleton _) (List.disjoint_singleton.2 hold)
  · intro q n
    rw [hmem]
    by_cases he : q = r
    · rw [if_pos he, he, h.banned_of_some hr]
      simp only [Std.ExtTreeSet.mem_insert, Std.LawfulEqCmp.compare_eq_iff_eq, true_and]
      constructor
      · rintro (⟨user, hu, rfl⟩ | rfl)
        · exact ⟨user, Or.inr hu, rfl⟩
        · exact ⟨name, Or.inl rfl, rfl⟩
      · rintro ⟨user, rfl | hu, rfl⟩
        · exact Or.inr rfl
        · exact Or.inl ⟨user, hu, rfl⟩
    · rw [if_neg he]
      exact ⟨fun hq => hq.resolve_right fun hq => he hq.1, Or.inl⟩

/-- `Database::updateRoomPassword` beside `ChatRoom::setPassword`. -/
theorem rekey (h : Mirror sheets unrecorded transcript db) (hc : ∀ n, calls n = true)
    (hr : sheets r = some sheet) (hpriv : sheet.isPrivate = true) {password : Bytes}
    (hp : password ≠ []) :
    Mirror (Function.update sheets r (some { sheet with password := password })) unrecorded
      transcript (db.updateRoomPassword calls r password) := by
  have hdb : db.updateRoomPassword calls r password = { db with rooms := db.rooms.map fun row =>
      if row.roomId == r then { row with passwordHash := some (cString password) } else row } := by
    rw [Database.updateRoomPassword, hc, hc, h.ids hr]
    rfl
  rw [hdb]
  refine h.edit hr { sheet with password := password } _ db.bans ?_ (fun row => ?_)
    (fun row he => if_neg (by simpa using he)) (fun row he hsh => ?_) h.bansOnce fun q n => ?_
  · rw [hpriv]
    simpa using hp
  · split <;> rfl
  · rw [if_pos (by simpa using he)]
    exact ⟨hsh.isPrivate, by rw [hpriv]; rfl⟩
  · by_cases he : q = r
    · rw [if_pos he, he]
      exact h.banned_of_some hr n
    · rw [if_neg he]

/-- `Database::updateRoomOwner`: the owner is no matter of the sheet. -/
theorem credit (h : Mirror sheets unrecorded transcript db) (roomId owner : Bytes) :
    Mirror sheets unrecorded transcript (db.updateRoomOwner calls roomId owner) := by
  rw [Database.updateRoomOwner]
  split
  · have hids : (db.rooms.map fun row => if row.roomId == cString roomId then
        { row with ownerUsername := cString owner } else row).map RoomRow.roomId =
          db.rooms.map RoomRow.roomId := by
      rw [List.map_map]
      refine List.map_congr_left fun row _ => ?_
      rw [Function.comp_apply]
      split <;> rfl
    refine ⟨h.ids, h.gated, by rw [hids]; exact h.unique, fun row' hrow' => ?_, fun hr => ?_,
      h.bansOnce, h.banned, h.messages, h.placed⟩
    · obtain ⟨row, hrow, rfl⟩ := List.mem_map.1 hrow'
      obtain ⟨sheet, hs, hsh⟩ := h.shown row hrow
      split
      · exact ⟨sheet, hs, hsh.isPrivate, hsh.password⟩
      · exact ⟨sheet, hs, hsh⟩
    · rw [hids]
      exact h.recorded hr
  · exact h

/-- `Database::deleteRoom` beside the removal of the room. -/
theorem sweep (h : Mirror sheets unrecorded transcript db) (hc : ∀ n, calls n = true)
    (hr : sheets r = some sheet) :
    Mirror (Function.update sheets r none) unrecorded (Function.update transcript r [])
      (db.deleteRoom calls r).2 := by
  -- all three statements succeed
  have hdb : (db.deleteRoom calls r).2 = {
      rooms := db.rooms.filter fun row => row.roomId != r
      messages := db.messages.filter fun row => row.roomId != r
      bans := db.bans.filter fun row => row.roomId != r } := by
    rw [Database.deleteRoom_eq, h.ids hr]
    simp only [hc, Bool.and_self, if_true]
  -- the rooms that are left are the others
  have hlive : ∀ {q : Bytes} {sheet : Sheet}, Function.update sheets r none q = some sheet →
      q ≠ r ∧ sheets q = some sheet := by
    intro q sheet hq
    by_cases he : q = r
    · rw [he, Function.update_self] at hq
      exact absurd hq (by simp)
    · rw [Function.update_of_ne he] at hq
      exact ⟨he, hq⟩
  rw [hdb]
  constructor
  · exact fun hq => h.ids (hlive hq).2
  · exact fun hq => h.gated (hlive hq).2
  · exact h.unique.sublist (List.filter_sublist.map _)
  · intro row hrow
    rw [List.mem_filter, bne_iff_ne] at hrow
    rw [Function.update_of_ne hrow.2]
    exact h.shown row hrow.1
  · intro q sheet hq
    obtain ⟨he, hq⟩ := hlive hq
    rcases h.recorded hq with hu | hrow
    · exact Or.inl hu
    · obtain ⟨row, hmem, rfl⟩ := List.mem_map.1 hrow
      exact Or.inr (List.mem_map.2 ⟨row, List.mem_filter.2 ⟨hmem, by simpa using he⟩, rfl⟩)
  · exact h.bansOnce.filter _
  · intro q name
    rw [List.mem_filter, bne_iff_ne, h.banned]
    by_cases he : q = r
    · rw [he, Function.update_self]
      simp
    · rw [Function.update_of_ne he]
      simp [he]
  · intro q
    rw [Database.publicRows, List.filter_filter]
    by_cases he : q = r
    · rw [he, Function.update_self, List.filter_eq_nil_iff]
      intro row _ hsel
      simp only [Bool.and_eq_true, beq_iff_eq, bne_iff_ne] at hsel
      exact hsel.2 hsel.1.1
    · rw [Function.update_of_ne he, ← h.messages q, Database.publicRows]
      refine List.filter_congr fun row _ => ?_
      by_cases hrow : row.roomId = q
      · simp [hrow, he]
      · simp [hrow]
  · intro row hrow
    rw [List.mem_filter, bne_iff_ne] at hrow
    rw [Function.update_of_ne hrow.2]
    exact h.placed row hrow.1

/-- `Database::saveMessage` in a live room. -/
theorem save (h : Mirror sheets unrecorded transcript db) (hc : ∀ n, calls n = true)
    (hr : sheets r = some sheet) (stamp sender content : Bytes) (isPrivate : Bool)
    (recipient : Bytes) :
    Mirror sheets unrecorded
      (if isPrivate then transcript else Function.update transcript r (transcript r ++ [{
        roomId := r
        senderUsername := cString sender
        content := cString content
        isPrivate := false
        recipientUsername := if recipient.isEmpty then none else some (cString recipient)
        timestamp := stamp }]))
      (db.saveMessage calls stamp r sender content isPrivate recipient) := by
  rw [Database.saveMessage, hc, hc, h.ids hr]
  refine ⟨h.ids, h.gated, h.unique, h.shown, h.recorded, h.bansOnce, h.banned, fun q => ?_,
    fun row hrow => ?_⟩
  · have hold := h.messages q
    have hnew : ∀ row : MessageRow, List.filter (fun row => row.roomId == q && !row.isPrivate)
        (db.messages ++ [row]) = transcript q ++
          List.filter (fun row => row.roomId == q && !row.isPrivate) [row] := by
      intro row
      rw [List.filter_append, ← hold]
      rfl
    refine (hnew _).trans ?_
    cases isPrivate with
    | true => simp
    | false =>
        by_cases he : q = r
        · simp [he]
        · simp [Ne.symm he, Function.update_of_ne he]
  · have hrow' := List.mem_append.1 hrow
    rw [List.mem_singleton] at hrow'
    rcases hrow' with hrow | rfl
    · exact h.placed row hrow
    · rw [hr]
      rfl

end Mirror

end TerminalChat.Server
