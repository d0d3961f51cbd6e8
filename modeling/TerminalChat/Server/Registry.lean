import Mathlib
import TerminalChat.Query.Sorting
import TerminalChat.Server.DatabaseFile

/-!
# The database file keeps a registry

The tables of accounts and rooms are keyed and no ban is written down twice, whatever operations are
called and whichever SQLite calls fail. The file then stands for a registry: partial maps of accounts and
rooms, a set of bans and the archive. Every operation changes the file as it changes the registry, and
answers from the registry (`file_keeps_registry`). The registry in turn is what its history makes of it
(`authenticate_iff_first_account`, `banned_iff_last_decision`, `private_conversation`).
-/

set_option autoImplicit false

namespace TerminalChat.Server

open TerminalChat.Text TerminalChat.Query

/-- The registry that the file stands for. -/
def DatabaseFile.registry (file : DatabaseFile) : Registry where
  accounts name := (lookup UserRow.username file.users name).map UserRow.passwordHash
  rooms := lookup RoomRow.roomId file.rooms
  bans := {p | (⟨p.1, p.2⟩ : BanRow) ∈ file.bans}
  archive := file.messages

/-- No account, no room and no ban is written down twice. -/
structure DatabaseFile.Unique (file : DatabaseFile) : Prop where
  users : Keyed UserRow.username file.users
  rooms : Keyed RoomRow.roomId file.rooms
  bans : file.bans.Nodup

section Tables

variable {ρ κ : Type} [DecidableEq κ] [BEq κ] [LawfulBEq κ] {key : ρ → κ} {rows : List ρ}

theorem any_eq_isSome_lookup (k : κ) :
    (rows.any fun row => key row == k) = (lookup key rows k).isSome := by
  rw [Bool.eq_iff_iff, isSome_lookup_iff, List.any_eq_true, List.mem_map]
  simp only [beq_iff_eq]

/-- A map with a test for the key is an update. -/
theorem map_eq_updateAt (k : κ) (f : ρ → ρ) :
    (rows.map fun row => if key row == k then f row else row) = updateAt key k f rows := by
  rw [updateAt]
  apply List.map_congr_left
  intro row _
  by_cases hk : key row = k
  · simp [hk]
  · simp [hk]

theorem filter_eq_deleteAt (k : κ) : (rows.filter fun row => key row != k) = deleteAt key k rows := by
  rw [deleteAt]
  apply List.filter_congr
  intro row _
  by_cases hk : key row = k
  · simp [hk]
  · simp [hk]

/-- A guarded insertion is an insertion of what is new. -/
theorem append_eq_insertNew (row : ρ) :
    (if (rows.any fun r => key r == key row) = true then rows else rows ++ [row]) =
      insertNew key row rows := by
  rw [insertNew, any_eq_isSome_lookup]

end Tables

/-! ## What each operation does to its table -/

section Operations

variable (e : CallEnv) (file : DatabaseFile)

theorem users_createUser (username passwordHash : Bytes) :
    file.createUser e.calls e.now username passwordHash =
      (e.ok && (file.registry.accounts (cString username)).isNone, { file with
        users := if e.ok then insertNew UserRow.username {
            username := cString username
            passwordHash := cString passwordHash
            createdAt := e.now
            lastSeen := e.now } file.users
          else file.users }) := by
  have hnone : (file.registry.accounts (cString username)).isNone =
      !file.users.any fun row => row.username == cString username := by
    rw [any_eq_isSome_lookup]
    show ((lookup UserRow.username file.users (cString username)).map UserRow.passwordHash).isNone = _
    cases lookup UserRow.username file.users (cString username) with
    | none => rfl
    | some row => rfl
  rw [hnone, DatabaseFile.createUser, ← append_eq_insertNew, CallEnv.ok]
  cases e.calls 0 && e.calls 1 with
  | false => rfl
  | true =>
      cases file.users.any fun row => row.username == cString username with
      | false => rfl
      | true => rfl

theorem users_updateLastSeen (username : Bytes) :
    file.updateLastSeen e.calls e.now username = (e.ok, { file with
      users := if e.ok then
          updateAt UserRow.username (cString username) (fun row => { row with lastSeen := e.now })
            file.users
        else file.users }) := by
  rw [DatabaseFile.updateLastSeen, ← map_eq_updateAt, CallEnv.ok]
  cases e.calls 0 && e.calls 1 with
  | false => rfl
  | true => rfl

theorem rooms_createRoom (roomId owner passwordHash : Bytes) (isPrivate : Bool) :
    file.toDatabase.createRoom e.calls roomId isPrivate owner passwordHash = { file.toDatabase with
      rooms := if e.ok then
          insertNew RoomRow.roomId (openedRow roomId isPrivate owner passwordHash) file.rooms
        else file.rooms } := by
  rw [Database.createRoom, ← append_eq_insertNew, CallEnv.ok]
  cases e.calls 0 && e.calls 1 with
  | false => rfl
  | true =>
      have hkey : (openedRow roomId isPrivate owner passwordHash).roomId = cString roomId := rfl
      rw [hkey]
      cases file.rooms.any fun row => row.roomId == cString roomId with
      | false => rfl
      | true => rfl

theorem rooms_updateRoomOwner (roomId newOwner : Bytes) :
    file.toDatabase.updateRoomOwner e.calls roomId newOwner = { file.toDatabase with
      rooms := if e.ok then
          updateAt RoomRow.roomId (cString roomId)
            (fun row => { row with ownerUsername := cString newOwner }) file.rooms
        else file.rooms } := by
  rw [Database.updateRoomOwner, ← map_eq_updateAt, CallEnv.ok]
  cases e.calls 0 && e.calls 1 with
  | false => rfl
  | true => rfl

theorem rooms_updateRoomPassword (roomId newPasswordHash : Bytes) :
    file.toDatabase.updateRoomPassword e.calls roomId newPasswordHash = { file.toDatabase with
      rooms := if e.ok then
          updateAt RoomRow.roomId (cString roomId)
            (fun row => { row with passwordHash := some (cString newPasswordHash) }) file.rooms
        else file.rooms } := by
  rw [Database.updateRoomPassword, ← map_eq_updateAt, CallEnv.ok]
  cases e.calls 0 && e.calls 1 with
  | false => rfl
  | true => rfl

/-- A ban is a row of the table of bans. -/
theorem any_bans (roomId username : Bytes) :
    (file.bans.any fun row => row.roomId == roomId && row.username == username) =
      decide ((⟨roomId, username⟩ : BanRow) ∈ file.bans) := by
  rw [Bool.eq_iff_iff, List.any_eq_true, decide_eq_true_eq]
  constructor
  · rintro ⟨row, hrow, heq⟩
    rw [Bool.and_eq_true, beq_iff_eq, beq_iff_eq] at heq
    rw [← heq.1, ← heq.2]
    exact hrow
  · intro hmem
    exact ⟨_, hmem, by simp⟩

theorem bans_addBan (roomId username : Bytes) :
    file.toDatabase.addBan e.calls roomId username = { file.toDatabase with
      bans := if e.ok ∧ (⟨cString roomId, cString username⟩ : BanRow) ∉ file.bans then
          file.bans ++ [⟨cString roomId, cString username⟩]
        else file.bans } := by
  rw [Database.addBan, any_bans, CallEnv.ok]
  by_cases hmem : (⟨cString roomId, cString username⟩ : BanRow) ∈ file.bans
  · simp [hmem]
  · cases e.calls 0 && e.calls 1 with
    | false => simp
    | true => simp [hmem]

theorem bans_removeBan (roomId username : Bytes) :
    file.toDatabase.removeBan e.calls roomId username = { file.toDatabase with
      bans := if e.ok then
          file.bans.filter fun row => row ≠ ⟨cString roomId, cString username⟩
        else file.bans } := by
  have hsame : (file.bans.filter fun row =>
      !(row.roomId == cString roomId && row.username == cString username)) =
        file.bans.filter fun row => row ≠ ⟨cString roomId, cString username⟩ := by
    apply List.filter_congr
    rintro ⟨r, n⟩ _
    by_cases hr : r = cString roomId
    · by_cases hn : n = cString username
      · simp [hr, hn]
      · simp [hr, hn]
    · simp [hr]
  rw [Database.removeBan, hsame, CallEnv.ok]
  cases e.calls 0 && e.calls 1 with
  | false => rfl
  | true => rfl

end Operations

/-! ## Every operation keeps the tables unique -/

theorem Unique.empty : ({} : DatabaseFile).Unique := ⟨List.nodup_nil, List.nodup_nil, List.nodup_nil⟩

theorem DatabaseFile.Unique.perform {file : DatabaseFile} (h : file.Unique) (e : CallEnv) (c : Call) :
    (file.perform e c).2.Unique := by
  cases c with
  | createUser username passwordHash =>
      rw [DatabaseFile.perform, users_createUser]
      refine ⟨?_, h.rooms, h.bans⟩
      dsimp only
      split
      · exact h.users.insertNew _
      · exact h.users
  | updateLastSeen username =>
      rw [DatabaseFile.perform, users_updateLastSeen]
      refine ⟨?_, h.rooms, h.bans⟩
      dsimp only
      split
      · exact h.users.updateAt fun _ => rfl
      · exact h.users
  | createRoom roomId isPrivate owner passwordHash =>
      rw [DatabaseFile.perform, rooms_createRoom]
      refine ⟨h.users, ?_, h.bans⟩
      dsimp only
      split
      · exact h.rooms.insertNew _
      · exact h.rooms
  | updateRoomOwner roomId newOwner =>
      rw [DatabaseFile.perform, rooms_updateRoomOwner]
      refine ⟨h.users, ?_, h.bans⟩
      dsimp only
      split
      · exact h.rooms.updateAt fun _ => rfl
      · exact h.rooms
  | updateRoomPassword roomId newPasswordHash =>
      rw [DatabaseFile.perform, rooms_updateRoomPassword]
      refine ⟨h.users, ?_, h.bans⟩
      dsimp only
      split
      · exact h.rooms.updateAt fun _ => rfl
      · exact h.rooms
  | deleteRoom roomId =>
      rw [DatabaseFile.perform, Database.deleteRoom_eq]
      refine ⟨h.users, ?_, ?_⟩
      · dsimp only
        split
        · exact h.rooms.sublist List.filter_sublist
        · exact h.rooms
      · dsimp only
        split
        · exact h.bans.sublist List.filter_sublist
        · exact h.bans
  | addBan roomId username =>
      rw [DatabaseFile.perform, bans_addBan]
      refine ⟨h.users, h.rooms, ?_⟩
      dsimp only
      split
      · rename_i hnew
        -- INSERT OR IGNORE adds only a pair that is not there
        exact h.bans.append (List.nodup_singleton _) (List.disjoint_singleton.2 hnew.2)
      · exact h.bans
  | removeBan roomId username =>
      rw [DatabaseFile.perform, bans_removeBan]
      refine ⟨h.users, h.rooms, ?_⟩
      dsimp only
      split
      · exact h.bans.sublist List.filter_sublist
      · exact h.bans
  | saveMessage roomId sender content isPrivate recipient =>
      rw [DatabaseFile.perform, Database.saveMessage]
      split
      · exact ⟨h.users, h.rooms, h.bans⟩
      · exact ⟨h.users, h.rooms, h.bans⟩
  | _ => exact h

/-! ## Every operation changes the registry -/

/-- Registry with the same entries. -/
theorem Registry.ext {l l' : Registry} (ha : ∀ q, l.accounts q = l'.accounts q)
    (hr : ∀ q, l.rooms q = l'.rooms q) (hb : ∀ p, p ∈ l.bans ↔ p ∈ l'.bans)
    (hm : l.archive = l'.archive) : l = l' := by
  obtain ⟨accounts, rooms, bans, archive⟩ := l
  obtain ⟨accounts', rooms', bans', archive'⟩ := l'
  obtain rfl : accounts = accounts' := funext ha
  obtain rfl : rooms = rooms' := funext hr
  obtain rfl : bans = bans' := Set.ext hb
  obtain rfl : archive = archive' := hm
  rfl

section Simulation

variable (e : CallEnv) (file : DatabaseFile)

theorem registry_deleteRoom (roomId : Bytes) : (file.perform e (.deleteRoom roomId)).2.registry =
    ((Call.deleteRoom roomId).changes e).foldl Registry.apply file.registry := by
  rw [DatabaseFile.perform, Database.deleteRoom_eq, Call.changes, List.foldl_append, List.foldl_append]
  -- the three statements run or fail independently of each other
  have hrooms : ∀ q, lookup RoomRow.roomId
      (file.rooms.filter fun row => row.roomId != cString roomId) q =
        if q = cString roomId then none else lookup RoomRow.roomId file.rooms q := by
    intro q
    rw [filter_eq_deleteAt, lookup_deleteAt]
  have harchive : (file.messages.filter fun row => row.roomId != cString roomId) =
      file.messages.filter fun row => row.roomId ≠ cString roomId := by
    apply List.filter_congr
    intro row _
    by_cases hr : row.roomId = cString roomId
    · simp [hr]
    · simp [hr]
  apply Registry.ext
  · intro q
    cases e.calls 0 && e.calls 1 <;> cases e.calls 2 && e.calls 3 <;>
      cases e.calls 4 && e.calls 5 <;> rfl
  · intro q
    cases e.calls 0 && e.calls 1 <;> cases e.calls 2 && e.calls 3 <;>
      cases e.calls 4 && e.calls 5 <;> first | rfl | exact hrooms q
  · intro p
    cases e.calls 0 && e.calls 1 <;> cases e.calls 2 && e.calls 3 <;>
      cases e.calls 4 && e.calls 5 <;>
        simp [DatabaseFile.registry, Registry.apply, List.mem_filter]
  · cases e.calls 0 && e.calls 1 <;> cases e.calls 2 && e.calls 3 <;>
      cases e.calls 4 && e.calls 5 <;> first | rfl | exact harchive

/-- What an operation does to the file, its changes do to the registry. -/
theorem registry_perform (c : Call) :
    (file.perform e c).2.registry = (c.changes e).foldl Registry.apply file.registry := by
  cases c with
  | createUser username passwordHash =>
      rw [DatabaseFile.perform, users_createUser, Call.changes]
      cases e.ok with
      | false => rfl
      | true =>
          apply Registry.ext
          · intro q
            show (lookup UserRow.username (insertNew UserRow.username _ file.users) q).map _ =
              if q = cString username then _ else _
            rw [lookup_insertNew]
            split
            · show _ = some (((lookup UserRow.username file.users q).map UserRow.passwordHash).getD _)
              cases lookup UserRow.username file.users q with
              | none => rfl
              | some row => rfl
            · rfl
          · exact fun _ => rfl
          · exact fun _ => Iff.rfl
          · rfl
  | updateLastSeen username =>
      -- the time of the last visit is no part of the registry
      rw [DatabaseFile.perform, users_updateLastSeen]
      show _ = file.registry
      cases e.ok with
      | false => rfl
      | true =>
          apply Registry.ext
          · intro q
            show (lookup UserRow.username (updateAt UserRow.username _ _ file.users) q).map _ =
              (lookup UserRow.username file.users q).map _
            rw [lookup_updateAt]
            · split
              · rw [Option.map_map]
                rfl
              · rfl
            · exact fun _ => rfl
          · exact fun _ => rfl
          · exact fun _ => Iff.rfl
          · rfl
  | saveMessage roomId sender content isPrivate recipient =>
      rw [DatabaseFile.perform, Database.saveMessage, Call.changes, CallEnv.ok]
      cases e.calls 0 && e.calls 1 with
      | false => rfl
      | true => rfl
  | createRoom roomId isPrivate owner passwordHash =>
      rw [DatabaseFile.perform, rooms_createRoom, Call.changes]
      cases e.ok with
      | false => rfl
      | true =>
          apply Registry.ext
          · exact fun _ => rfl
          · exact fun q => lookup_insertNew _ q
          · exact fun _ => Iff.rfl
          · rfl
  | deleteRoom roomId => exact registry_deleteRoom e file roomId
  | updateRoomOwner roomId newOwner =>
      rw [DatabaseFile.perform, rooms_updateRoomOwner, Call.changes]
      cases e.ok with
      | false => rfl
      | true =>
          apply Registry.ext
          · exact fun _ => rfl
          · intro q
            show lookup RoomRow.roomId (updateAt RoomRow.roomId _ _ file.rooms) q = _
            rw [lookup_updateAt]
            · rfl
            · exact fun _ => rfl
          · exact fun _ => Iff.rfl
          · rfl
  | updateRoomPassword roomId newPasswordHash =>
      rw [DatabaseFile.perform, rooms_updateRoomPassword, Call.changes]
      cases e.ok with
      | false => rfl
      | true =>
          apply Registry.ext
          · exact fun _ => rfl
          · intro q
            show lookup RoomRow.roomId (updateAt RoomRow.roomId _ _ file.rooms) q = _
            rw [lookup_updateAt]
            · rfl
            · exact fun _ => rfl
          · exact fun _ => Iff.rfl
          · rfl
  | addBan roomId username =>
      rw [DatabaseFile.perform, bans_addBan, Call.changes]
      cases e.ok with
      | false => simp
      | true =>
          apply Registry.ext
          · exact fun _ => rfl
          · exact fun _ => rfl
          · rintro ⟨r, n⟩
            by_cases hmem : (⟨cString roomId, cString username⟩ : BanRow) ∈ file.bans
            · simp [DatabaseFile.registry, Registry.apply, hmem]
            · simp [DatabaseFile.registry, Registry.apply, hmem, or_comm]
          · rfl
  | removeBan roomId username =>
      rw [DatabaseFile.perform, bans_removeBan, Call.changes]
      cases e.ok with
      | false => rfl
      | true =>
          apply Registry.ext
          · exact fun _ => rfl
          · exact fun _ => rfl
          · rintro ⟨r, n⟩
            simp [DatabaseFile.registry, Registry.apply, imp_iff_not_or]
          · rfl
  | _ => rfl

end Simulation

/-! ## Every operation answers from the registry -/

/-- What has been said in public in a room. -/
def Registry.said (l : Registry) (roomId : Bytes) : List MessageRow :=
  l.archive.filter fun row => row.roomId = roomId ∧ row.isPrivate = false

/-- What two users have whispered to each other. -/
def Registry.conversation (l : Registry) (name name' : Bytes) : List MessageRow :=
  l.archive.filter fun row => row.isPrivate = true ∧
    (row.senderUsername = name ∧ row.recipientUsername = some name' ∨
      row.senderUsername = name' ∧ row.recipientUsername = some name)

/-- The answer shows latest of the messages, the oldest first, and not more than the limit; when no step
fails, as many as there are within the limit. -/
def Answer.ShowsLatest (e : CallEnv) (limit : Int) (messages : List MessageRow) (a : Answer) : Prop :=
  ∃ rows : List MessageRow, a = .lines (rows.map Database.historyLine).reverse ∧
    TopRows MessageRow.timestamp messages rows ∧ (0 ≤ limit → rows.length ≤ limit) ∧
    ((∀ n, e.calls n = true) →
      rows.length = if limit < 0 then messages.length else min limit.toNat messages.length)

section Answers

variable {e : CallEnv} {file : DatabaseFile}

/-- In a keyed table an account is found under its name and its password. -/
theorem authenticate_eq (h : file.Unique) (username passwordHash : Bytes) :
    file.authenticateUser e.calls username passwordHash =
      (e.ok && file.registry.accounts (cString username) == some (cString passwordHash)) := by
  have hany : (file.users.any fun row =>
      row.username == cString username && row.passwordHash == cString passwordHash) =
        (file.registry.accounts (cString username) == some (cString passwordHash)) := by
    rw [Bool.eq_iff_iff, List.any_eq_true, beq_iff_eq]
    show _ ↔ (lookup UserRow.username file.users (cString username)).map UserRow.passwordHash = _
    constructor
    · rintro ⟨row, hrow, heq⟩
      rw [Bool.and_eq_true, beq_iff_eq, beq_iff_eq] at heq
      rw [← heq.1, lookup_of_mem h.users hrow, Option.map_some, heq.2]
    · intro hfound
      obtain ⟨row, hrow, hhash⟩ := Option.map_eq_some_iff.1 hfound
      refine ⟨row, mem_of_lookup hrow, ?_⟩
      rw [key_of_lookup hrow, hhash]
      simp
  rw [DatabaseFile.authenticateUser, hany, CallEnv.ok]

/-- The rows that are stepped to before a step fails. -/
def stepped {α : Type} (calls : Nat → Bool) (rows : List α) : List α :=
  (rows.zipIdx.takeWhile fun p => calls (p.2 + 1)).map Prod.fst

/-- They are the first ones. -/
theorem stepped_initial {α : Type} (calls : Nat → Bool) (rows : List α) : stepped calls rows <+: rows := by
  have hprefix := (List.takeWhile_prefix (l := rows.zipIdx) fun p => calls (p.2 + 1)).map Prod.fst
  rwa [List.zipIdx_map_fst] at hprefix

/-- They are all rows when no step fails. -/
theorem stepped_eq {α : Type} {calls : Nat → Bool} (hcalls : ∀ n, calls n = true) (rows : List α) :
    stepped calls rows = rows := by
  rw [stepped, List.takeWhile_eq_self_iff.2 fun p _ => hcalls _, List.zipIdx_map_fst]

theorem map_stepped {α β : Type} (calls : Nat → Bool) (rows : List α) (f : α → β) :
    ((rows.zipIdx.takeWhile fun p => calls (p.2 + 1)).map fun p => f p.1) = (stepped calls rows).map f := by
  rw [stepped, List.map_map]
  rfl

/-- The rows that `LIMIT` lets through are the first ones. -/
theorem limited_initial (limit : Int) (rows : List MessageRow) : limited limit rows <+: rows := by
  rw [limited]
  split
  · exact List.prefix_rfl
  · exact List.take_prefix _ _

theorem length_limited (limit : Int) (rows : List MessageRow) :
    (limited limit rows).length = if limit < 0 then rows.length else min limit.toNat rows.length := by
  rw [limited]
  split
  · rfl
  · rw [List.length_take]

/-- A query that steps through messages by decreasing timestamps, within a limit, shows latest ones. -/
theorem showsLatest_of_stepped (limit : Int) (messages : List MessageRow) :
    (Answer.lines (if e.calls 0 then
        ((stepped e.calls (limited limit (e.order.arrange messages))).map Database.historyLine).reverse
      else [])).ShowsLatest e limit messages := by
  by_cases hcall : e.calls 0 = true
  · rw [if_pos hcall]
    have hstepped := stepped_initial e.calls (limited limit (e.order.arrange messages))
    have hlen := length_limited limit (e.order.arrange messages)
    rw [(e.order.perm messages).length_eq] at hlen
    refine ⟨stepped e.calls (limited limit (e.order.arrange messages)), rfl, ?_, fun hlimit => ?_,
      fun hcalls => ?_⟩
    · exact topRows_of_prefix (e.order.perm messages) (e.order.sorted messages)
        (hstepped.trans (limited_initial limit _))
    · have hle := hstepped.length_le
      rw [hlen, if_neg (by omega)] at hle
      omega
    · rw [stepped_eq hcalls]
      exact hlen
  · rw [if_neg hcall]
    refine ⟨[], rfl, topRows_of_prefix (e.order.perm messages) (e.order.sorted messages) List.nil_prefix,
      fun hlimit => hlimit, fun hcalls => absurd (hcalls 0) hcall⟩

/-- The rows that `getPrivateMessages` selects. -/
theorem filter_eq_conversation (user1 user2 : Bytes) :
    file.messages.filter (Database.between user1 user2) =
      file.registry.conversation (cString user1) (cString user2) := by
  apply List.filter_congr
  intro row _
  rw [Bool.eq_iff_iff, Database.between, decide_eq_true_eq]
  simp only [Bool.and_eq_true, Bool.or_eq_true, beq_iff_eq]

theorem getPrivateMessages_eq_stepped (user1 user2 : Bytes) (limit : Int) :
    file.toDatabase.getPrivateMessages e.calls e.order user1 user2 limit =
      if e.calls 0 then
        ((stepped e.calls (limited limit (e.order.arrange
          (file.registry.conversation (cString user1) (cString user2))))).map
            Database.historyLine).reverse
      else [] := by
  rw [Database.getPrivateMessages, ← filter_eq_conversation]
  dsimp only
  rw [map_stepped e.calls]

end Answers

/-! ## Whole histories -/

section Histories

variable {history : List (CallEnv × Call)} {file : DatabaseFile}

theorem performAll_concat (history : List (CallEnv × Call)) (e : CallEnv) (c : Call)
    (file : DatabaseFile) :
    (file.performAll (history ++ [(e, c)])) = ((file.performAll history).perform e c).2 := by
  rw [DatabaseFile.performAll, List.foldl_append]
  rfl

theorem enroll_concat (history : List (CallEnv × Call)) (e : CallEnv) (c : Call) (l : Registry) :
    enroll (history ++ [(e, c)]) l = (c.changes e).foldl Registry.apply (enroll history l) := by
  rw [enroll, List.flatMap_append, List.foldl_append]
  simp [enroll]

/-- A history keeps the entries unique, and the file stands for the registry of the history. -/
theorem performAll_registry (h : file.Unique) (history : List (CallEnv × Call)) :
    (file.performAll history).Unique ∧ (file.performAll history).registry = enroll history file.registry := by
  induction history using List.reverseRecOn with
  | nil => exact ⟨h, rfl⟩
  | append_singleton history p ih =>
      obtain ⟨e, c⟩ := p
      rw [performAll_concat, enroll_concat, ← ih.2]
      exact ⟨ih.1.perform e c, registry_perform e _ c⟩

theorem registry_empty : ({} : DatabaseFile).registry = .empty := by
  apply Registry.ext
  · exact fun _ => rfl
  · exact fun _ => rfl
  · intro p
    simp [DatabaseFile.registry, Registry.empty]
  · rfl

/-- The password with which an operation creates an account for the name, if it does. -/
def Call.registers (name : Bytes) (e : CallEnv) : Call → Option Bytes
  | .createUser username passwordHash =>
      if e.ok ∧ cString username = name then some (cString passwordHash) else none
  | _ => none

theorem accounts_changes (name : Bytes) (e : CallEnv) (c : Call) (l : Registry) :
    ((c.changes e).foldl Registry.apply l).accounts name =
      (l.accounts name).or (c.registers name e) := by
  cases c with
  | createUser username passwordHash =>
      rw [Call.changes, Call.registers]
      cases hok : e.ok with
      | false => simp
      | true =>
          by_cases hname : cString username = name
          · subst hname
            simp only [Registry.apply, List.foldl_cons, List.foldl_nil, if_true, true_and]
            cases l.accounts (cString username) with
            | none => rfl
            | some _ => rfl
          · simp [Registry.apply, hname, Ne.symm hname]
  | deleteRoom roomId =>
      -- deleting a room touches no account
      show _ = (l.accounts name).or none
      rw [Call.changes, Option.or_none]
      cases e.calls 0 && e.calls 1 <;> cases e.calls 2 && e.calls 3 <;>
        cases e.calls 4 && e.calls 5 <;> simp [Registry.apply]
  | _ =>
      simp only [Call.changes, Call.registers, Option.or_none]
      first
        | rfl
        | split
          · rfl
          · rfl

/-- The account with a name is the one that was created first. -/
theorem accounts_enroll (name : Bytes) (history : List (CallEnv × Call)) :
    (enroll history .empty).accounts name = history.findSome? fun p => p.2.registers name p.1 := by
  induction history using List.reverseRecOn with
  | nil => rfl
  | append_singleton history p ih =>
      rw [enroll_concat, accounts_changes, ih, List.findSome?_append, List.findSome?_singleton]

/-- Authentication. After every history an account opens with exactly the password of the first
successful creation under its name, up to the first NUL byte of either; no later creation under this
name, no visit and no deletion of a room changes it. -/
theorem authenticate_iff_first_account (history : List (CallEnv × Call)) (e : CallEnv)
    (username passwordHash : Bytes) :
    (DatabaseFile.performAll history {}).authenticateUser e.calls username passwordHash = true ↔
      e.ok = true ∧ (history.findSome? fun p => p.2.registers (cString username) p.1) =
        some (cString passwordHash) := by
  obtain ⟨hunique, hregistry⟩ := performAll_registry Unique.empty history
  rw [registry_empty] at hregistry
  rw [authenticate_eq hunique, hregistry, accounts_enroll, Bool.and_eq_true, beq_iff_eq]

/-! ### Bans -/

/-- What an operation decides about a ban, if it does. -/
def Call.decides (roomId name : Bytes) (e : CallEnv) : Call → Option Bool
  | .addBan r n => if e.ok ∧ cString r = roomId ∧ cString n = name then some true else none
  | .removeBan r n => if e.ok ∧ cString r = roomId ∧ cString n = name then some false else none
  | .deleteRoom r => if e.calls 2 ∧ e.calls 3 ∧ cString r = roomId then some false else none
  | _ => none

theorem bans_changes (roomId name : Bytes) (e : CallEnv) (c : Call) (l : Registry) :
    (roomId, name) ∈ ((c.changes e).foldl Registry.apply l).bans ↔
      (c.decides roomId name e = some true ∨
        c.decides roomId name e = none ∧ (roomId, name) ∈ l.bans) := by
  cases c with
  | addBan r n =>
      rw [Call.changes, Call.decides]
      cases e.ok with
      | false => simp
      | true =>
          -- only a decision about this very pair moves it
          by_cases hr : cString r = roomId
          · by_cases hn : cString n = name
            · simp [Registry.apply, hr, hn]
            · simp [Registry.apply, hr, hn, Ne.symm hn]
          · simp [Registry.apply, hr, Ne.symm hr]
  | removeBan r n =>
      rw [Call.changes, Call.decides]
      cases e.ok with
      | false => simp
      | true =>
          by_cases hr : cString r = roomId
          · by_cases hn : cString n = name
            · simp [Registry.apply, hr, hn]
            · simp [Registry.apply, hr, hn, Ne.symm hn]
          · simp [Registry.apply, hr, Ne.symm hr]
  | deleteRoom r =>
      rw [Call.changes, Call.decides]
      by_cases hr : cString r = roomId
      · -- the three statements of `deleteRoom` fail independently; the second is about bans
        cases e.calls 0 && e.calls 1 <;> cases h2 : e.calls 2 <;> cases h3 : e.calls 3 <;>
          cases e.calls 4 && e.calls 5 <;> simp [Registry.apply, hr]
      · cases e.calls 0 && e.calls 1 <;> cases h2 : e.calls 2 <;> cases h3 : e.calls 3 <;>
          cases e.calls 4 && e.calls 5 <;> simp [Registry.apply, hr, Ne.symm hr]
  | _ =>
      simp only [Call.changes, Call.decides, reduceCtorEq, false_or, true_and]
      first
        | rfl
        | split
          · rfl
          · rfl

/-- A ban stands when the last decision about it was to ban. -/
theorem bans_enroll (roomId name : Bytes) (history : List (CallEnv × Call)) :
    (roomId, name) ∈ (enroll history .empty).bans ↔
      (history.reverse.findSome? fun p => p.2.decides roomId name p.1) = some true := by
  induction history using List.reverseRecOn with
  | nil => simp [enroll, Registry.empty]
  | append_singleton history p ih =>
      rw [enroll_concat, bans_changes, ih, List.reverse_append, List.reverse_singleton,
        List.singleton_append, List.findSome?_cons]
      cases p.2.decides roomId name p.1 with
      | none => simp
      | some b => simp

/-- Bans. After every history a user is reported as banned exactly when the last of the successful bans,
pardons and deletions of the room that concern the pair was a ban; names and ids count up to their first
NUL byte. -/
theorem banned_iff_last_decision (history : List (CallEnv × Call)) (e : CallEnv)
    (roomId username : Bytes) :
    (DatabaseFile.performAll history {}).toDatabase.isUserBanned e.calls roomId username = true ↔
      e.ok = true ∧ (history.reverse.findSome? fun p =>
        p.2.decides (cString roomId) (cString username) p.1) = some true := by
  obtain ⟨-, hregistry⟩ := performAll_registry Unique.empty history
  rw [registry_empty] at hregistry
  rw [← bans_enroll, ← hregistry, Database.isUserBanned, any_bans, Bool.and_eq_true, decide_eq_true_eq,
    CallEnv.ok]
  exact Iff.rfl

/-! ### Private conversations -/

/-- The row that an operation adds to the archive, if it does. -/
def Call.saves (e : CallEnv) : Call → Option MessageRow
  | .saveMessage roomId sender content isPrivate recipient =>
      if e.ok then some (savedRow e.now roomId sender content isPrivate recipient) else none
  | _ => none

theorem archive_changes (e : CallEnv) (c : Call) (l : Registry) {row : MessageRow}
    (h : row ∈ ((c.changes e).foldl Registry.apply l).archive) :
    row ∈ l.archive ∨ c.saves e = some row := by
  cases c with
  | saveMessage roomId sender content isPrivate recipient =>
      rw [Call.changes] at h
      rw [Call.saves]
      cases hok : e.ok with
      | false =>
          rw [hok] at h
          exact Or.inl h
      | true =>
          rw [hok] at h
          have hmem : row ∈ l.archive ++ [savedRow e.now roomId sender content isPrivate recipient] := h
          rw [List.mem_append, List.mem_singleton] at hmem
          exact hmem.imp_right fun heq => by rw [heq, if_pos rfl]
  | deleteRoom roomId =>
      left
      rw [Call.changes] at h
      revert h
      cases e.calls 0 && e.calls 1 <;> cases e.calls 2 && e.calls 3 <;>
        cases e.calls 4 && e.calls 5 <;> simp +contextual [Registry.apply]
  | _ =>
      left
      simp only [Call.changes] at h
      first
        | exact h
        | split at h
          · exact h
          · exact h

/-- Whatever is in the archive has been saved. -/
theorem mem_archive_enroll {row : MessageRow} (h : row ∈ (enroll history .empty).archive) :
    ∃ p ∈ history, p.2.saves p.1 = some row := by
  induction history using List.reverseRecOn with
  | nil => exact absurd h List.not_mem_nil
  | append_singleton history p ih =>
      rw [enroll_concat] at h
      rcases archive_changes p.1 p.2 _ h with hbefore | hsaved
      · obtain ⟨q, hq, hsaves⟩ := ih hbefore
        exact ⟨q, List.mem_append_left _ hq, hsaves⟩
      · exact ⟨p, List.mem_append_right _ (List.mem_singleton.2 rfl), hsaved⟩

theorem conversation_comm (l : Registry) (name name' : Bytes) :
    l.conversation name name' = l.conversation name' name := by
  apply List.filter_congr
  intro row _
  rw [decide_eq_decide, or_comm]

/-- When no SQLite call fails a conversation is shown in a descending order, within the limit. -/
theorem getPrivateMessages_of_calls {e : CallEnv} (hcalls : ∀ n, e.calls n = true) (user1 user2 : Bytes)
    (limit : Int) : file.toDatabase.getPrivateMessages e.calls e.order user1 user2 limit =
      ((limited limit (e.order.arrange (file.registry.conversation (cString user1) (cString user2)))).map
        Database.historyLine).reverse := by
  rw [getPrivateMessages_eq_stepped, if_pos (hcalls 0), stepped_eq hcalls]

/-- Private conversations. After every history the messages between two users are latest ones of those that
one of the two has sent to the other and that have been saved, as far as the archive still has them. From the
other side SQLite may order messages with one timestamp in another way; when no call fails and messages with
one timestamp have one line, both sides show the same, and when the limit cuts nothing off the two sides show
the same lines up to their order. -/
theorem private_conversation (history : List (CallEnv × Call)) (e e' : CallEnv) (user1 user2 : Bytes)
    (limit : Int) :
    let db := (DatabaseFile.performAll history {}).toDatabase
    let conversation := (enroll history .empty).conversation (cString user1) (cString user2)
    let lines := db.getPrivateMessages e.calls e.order user1 user2 limit
    let others := db.getPrivateMessages e'.calls e'.order user2 user1 limit
    (∀ row ∈ conversation, ∃ p ∈ history, p.2.saves p.1 = some row) ∧
    (Answer.lines lines).ShowsLatest e limit conversation ∧
    (Answer.lines others).ShowsLatest e' limit conversation ∧
    ((∀ n, e.calls n = true) → (∀ n, e'.calls n = true) →
      ((∀ a ∈ conversation, ∀ b ∈ conversation, a.timestamp = b.timestamp →
        Database.historyLine a = Database.historyLine b) → lines = others) ∧
      (limit < 0 ∨ conversation.length ≤ limit.toNat → lines.Perm others)) := by
  intro db conversation lines others
  obtain ⟨-, hregistry⟩ := performAll_registry Unique.empty history
  rw [registry_empty] at hregistry
  have hconversation : (DatabaseFile.performAll history {}).registry.conversation (cString user1)
      (cString user2) = conversation := by rw [hregistry]
  have hother : (DatabaseFile.performAll history {}).registry.conversation (cString user2)
      (cString user1) = conversation := by rw [conversation_comm, hconversation]
  refine ⟨fun row hrow => mem_archive_enroll (List.mem_of_mem_filter hrow), ?_, ?_, fun hcalls hcalls' => ?_⟩
  · have hlatest := showsLatest_of_stepped (e := e) limit conversation
    rw [← hconversation, ← getPrivateMessages_eq_stepped, hconversation] at hlatest
    exact hlatest
  · have hlatest := showsLatest_of_stepped (e := e') limit conversation
    rw [← hother, ← getPrivateMessages_eq_stepped, hother] at hlatest
    exact hlatest
  have hlines : lines = ((limited limit (e.order.arrange conversation)).map Database.historyLine).reverse := by
    rw [← hconversation]
    exact getPrivateMessages_of_calls hcalls user1 user2 limit
  have hothers : others =
      ((limited limit (e'.order.arrange conversation)).map Database.historyLine).reverse := by
    rw [← hother]
    exact getPrivateMessages_of_calls hcalls' user2 user1 limit
  -- the two calls arrange the same rows, each with its own order of the ties
  have hperm : (e.order.arrange conversation).Perm (e'.order.arrange conversation) :=
    (e.order.perm _).trans (e'.order.perm _).symm
  rw [hlines, hothers]
  constructor
  · intro hties
    have htake := map_take_eq (e.order.perm conversation) (e'.order.perm conversation)
      (e.order.sorted _) (e'.order.sorted _) hties
    congr 1
    -- a negative limit is no limit
    by_cases hlimit : limit < 0
    · have hall := htake conversation.length
      rw [limited, if_pos hlimit, limited, if_pos hlimit]
      rwa [List.take_of_length_le (e.order.perm _).length_eq.le,
        List.take_of_length_le (e'.order.perm _).length_eq.le] at hall
    · rw [limited, if_neg hlimit, limited, if_neg hlimit]
      exact htake limit.toNat
  · intro hwithin
    have hwhole : ∀ order : DescOrder, limited limit (order.arrange conversation) =
        order.arrange conversation := by
      intro order
      rw [limited]
      split
      · rfl
      · rename_i hlimit
        exact List.take_of_length_le ((order.perm _).length_eq.le.trans (hwithin.resolve_left hlimit))
    rw [hwhole, hwhole]
    exact ((List.reverse_perm _).trans (hperm.map _)).trans (List.reverse_perm _).symm

end Histories

end TerminalChat.Server
