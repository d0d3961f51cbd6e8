import Mathlib

/-!
# Tables with a unique key

A table is a list of rows, and `key` gives the key of a row. The table is keyed when no key occurs
twice. Inserting a row whose key is new, updating the rows with a key and deleting them keep the table
keyed; and looking up a key after them gives what the same operations on a partial map would give
(`lookup_insertNew`, `lookup_updateAt`, `lookup_deleteAt`).
-/

set_option autoImplicit false

namespace TerminalChat.Query

variable {ρ κ : Type} [DecidableEq κ] (key : ρ → κ) {rows : List ρ} {row : ρ} {k q : κ}

/-- No key occurs twice. -/
def Keyed (rows : List ρ) : Prop := (rows.map key).Nodup

/-- The row with a key, when there is one. -/
def lookup (rows : List ρ) (k : κ) : Option ρ := rows.find? fun row => key row = k

/-- Insert a row; refused when its key is taken. -/
def insertNew (row : ρ) (rows : List ρ) : List ρ :=
  if (lookup key rows (key row)).isSome then rows else rows ++ [row]

/-- Update the rows with a key. -/
def updateAt (k : κ) (f : ρ → ρ) (rows : List ρ) : List ρ :=
  rows.map fun row => if key row = k then f row else row

/-- Delete the rows with a key. -/
def deleteAt (k : κ) (rows : List ρ) : List ρ := rows.filter fun row => key row ≠ k

variable {key}

/-! ## Lookup -/

theorem lookup_eq_none_iff : lookup key rows k = none ↔ k ∉ rows.map key := by
  rw [lookup, List.find?_eq_none]
  simp [eq_comm]

theorem isSome_lookup_iff : (lookup key rows k).isSome ↔ k ∈ rows.map key := by
  rw [← not_iff_not, Bool.not_eq_true, Option.isSome_eq_false_iff, Option.isNone_iff_eq_none,
    lookup_eq_none_iff]

theorem key_of_lookup (h : lookup key rows k = some row) : key row = k := by
  simpa using List.find?_some h

theorem mem_of_lookup (h : lookup key rows k = some row) : row ∈ rows := List.mem_of_find?_eq_some h

/-- In a keyed table every row is the one that is looked up under its key. -/
theorem lookup_of_mem (hk : Keyed key rows) (h : row ∈ rows) : lookup key rows (key row) = some row := by
  induction rows with
  | nil => exact absurd h List.not_mem_nil
  | cons first rest ih =>
      rw [Keyed, List.map_cons, List.nodup_cons] at hk
      rcases List.mem_cons.1 h with rfl | hrest
      · simp [lookup]
      · have hne : key first ≠ key row := by
          rintro heq
          exact hk.1 (heq ▸ List.mem_map_of_mem hrest)
        have hfound := ih hk.2 hrest
        rw [lookup] at hfound ⊢
        rw [List.find?_cons_of_neg (by simpa using hne)]
        exact hfound

/-! ## What the operations keep -/

theorem Keyed.insertNew (h : Keyed key rows) (row : ρ) : Keyed key (insertNew key row rows) := by
  rw [Query.insertNew]
  split
  · exact h
  · rename_i hnew
    rw [isSome_lookup_iff] at hnew
    rw [Keyed, List.map_append, List.nodup_append]
    refine ⟨h, List.nodup_singleton _, ?_⟩
    intro a ha b hb heq
    rw [List.map_singleton, List.mem_singleton] at hb
    exact hnew (hb ▸ heq ▸ ha)

theorem map_updateAt {f : ρ → ρ} (hf : ∀ row, key (f row) = key row) :
    (updateAt key k f rows).map key = rows.map key := by
  rw [updateAt, List.map_map]
  apply List.map_congr_left
  intro row _
  by_cases hk : key row = k
  · simp [hk, hf]
  · simp [hk]

theorem Keyed.updateAt {f : ρ → ρ} (h : Keyed key rows) (hf : ∀ row, key (f row) = key row) :
    Keyed key (updateAt key k f rows) := by
  rw [Keyed, map_updateAt hf]
  exact h

omit [DecidableEq κ] in
theorem Keyed.sublist {rows' : List ρ} (h : Keyed key rows) (hs : rows'.Sublist rows) :
    Keyed key rows' := List.Nodup.sublist (hs.map key) h

theorem Keyed.deleteAt (h : Keyed key rows) (k : κ) : Keyed key (deleteAt key k rows) :=
  h.sublist List.filter_sublist

/-! ## What the operations come to -/

theorem lookup_insertNew (row : ρ) (q : κ) : lookup key (insertNew key row rows) q =
    if q = key row then some ((lookup key rows q).getD row) else lookup key rows q := by
  rw [insertNew]
  by_cases hq : q = key row
  · subst hq
    rw [if_pos rfl]
    cases hfound : lookup key rows (key row) with
    | some found =>
        rw [Option.isSome_some, if_pos rfl, hfound]
        rfl
    | none =>
        rw [Option.isSome_none, if_neg (by simp), lookup, List.find?_append]
        rw [lookup] at hfound
        rw [hfound]
        simp
  · rw [if_neg hq]
    split
    · rfl
    · rw [lookup, List.find?_append, List.find?_cons_of_neg (by simpa using Ne.symm hq)]
      simp [lookup]

theorem lookup_updateAt {f : ρ → ρ} (hf : ∀ row, key (f row) = key row) (k q : κ) :
    lookup key (updateAt key k f rows) q =
      if q = k then (lookup key rows q).map f else lookup key rows q := by
  induction rows with
  | nil => simp [lookup, updateAt]
  | cons first rest ih =>
      have hkey : key (if key first = k then f first else first) = key first := by
        split
        · exact hf first
        · rfl
      rw [updateAt] at ih
      rw [updateAt, List.map_cons, lookup, lookup]
      by_cases heq : key first = q
      · rw [List.find?_cons_of_pos (by simpa using hkey.trans heq),
          List.find?_cons_of_pos (by simpa using heq), heq]
        split
        · rfl
        · rfl
      · rw [List.find?_cons_of_neg (by simpa [hkey] using heq),
          List.find?_cons_of_neg (by simpa using heq)]
        exact ih

theorem lookup_deleteAt (k q : κ) :
    lookup key (deleteAt key k rows) q = if q = k then none else lookup key rows q := by
  by_cases hq : q = k
  · subst hq
    rw [if_pos rfl, lookup_eq_none_iff, deleteAt, List.mem_map]
    rintro ⟨row, hrow, rfl⟩
    exact absurd (List.mem_filter.1 hrow).2 (by simp)
  · rw [if_neg hq, lookup, lookup, deleteAt, List.find?_filter]
    congr 1
    funext row
    by_cases hrow : key row = q
    · simp [hrow, hq]
    · simp [hrow]

end TerminalChat.Query
