import Mathlib.Data.List.DropRight
import Mathlib.Data.List.Sort

/-!
# The last rows by a key

A query that sorts rows by a key may return rows with equal keys in any order. The rows are kept in an
order in which the keys do not decrease, and the last `n` of them are asked for. The arrangement does
not matter for what is read off the rows exactly when rows with equal keys agree, as far as they can come
among the last `n` (`rtake_eq_iff`). `TopRows` says which rows the beginning of a descending order may be.
-/

set_option autoImplicit false

namespace TerminalChat.Query

variable {α κ β : Type} {key : α → κ} {val : α → β} {l a : List α} {n : Nat}

/-- Rows with equal keys, the later among the last `n`, agree. -/
def TiesAgree (key : α → κ) (val : α → β) (n : Nat) (l : List α) : Prop :=
  ∀ (i j : Nat) (hij : i < j) (hj : j < l.length), l.length ≤ j + n → key l[i] = key l[j] →
    val l[i] = val l[j]

/-- Ties depend on what is read off the rows of the list only. -/
theorem TiesAgree.congr {val' : α → β} (h : TiesAgree key val n l) (hv : ∀ x ∈ l, val x = val' x) :
    TiesAgree key val' n l := by
  intro i j hij hj hlast hkey
  rw [← hv _ (List.getElem_mem _), ← hv _ (List.getElem_mem _)]
  exact h i j hij hj hlast hkey

theorem tiesAgree_map {γ : Type} {f : γ → α} {l : List γ} : TiesAgree key val n (l.map f) ↔
    TiesAgree (fun x => key (f x)) (fun x => val (f x)) n l := by
  simp only [TiesAgree, List.length_map, List.getElem_map]

variable [LE κ]

/-- The keys do not decrease. -/
def Chronological (key : α → κ) (l : List α) : Prop := l.Pairwise fun x y => key x ≤ key y

/-! ## Exchanges -/

/-- The arrangement with the rows of two places exchanged. -/
theorem swap_chronological {i j : Nat} (hl : Chronological key l) (hi : i < l.length)
    (hj : j < l.length) (hkey : key l[i] = key l[j]) :
    Chronological key ((l.set i l[j]).set j l[i]) := by
  have hmap : ((l.set i l[j]).set j l[i]).map key = l.map key := by
    apply List.ext_getElem
    · simp
    · intro k hk hk'
      rw [List.length_map] at hk'
      simp only [List.getElem_map, List.getElem_set]
      split
      · rename_i hjk
        subst hjk
        exact hkey
      · split
        · rename_i hik
          subst hik
          exact hkey.symm
        · rfl
  rw [Chronological, ← List.pairwise_map (f := key) (R := fun x y : κ => x ≤ y), hmap]
  exact List.pairwise_map.2 hl

/-- When every arrangement shows the same last rows, rows with equal keys agree: exchange them. -/
theorem tiesAgree_of_rtake_eq (hl : Chronological key l)
    (h : ∀ a : List α, a.Perm l → Chronological key a →
      (a.rtake n).map val = (l.rtake n).map val) : TiesAgree key val n l := by
  intro i j hij hj hlast hkey
  have hi : i < l.length := by omega
  have hsame := h _ (List.set_set_perm hi hj) (swap_chronological hl hi hj hkey)
  have hlen : ((l.set i l[j]).set j l[i]).length = l.length := by simp
  have hplace : l.length - n + (j - (l.length - n)) = j := by omega
  have hread := congrArg (fun vals : List β => vals[j - (l.length - n)]?) hsame
  simp only [List.rtake, hlen, List.getElem?_map, List.getElem?_drop, hplace] at hread
  rw [List.getElem?_eq_getElem hj, List.getElem?_eq_getElem (by rw [hlen]; exact hj)] at hread
  simpa [List.getElem_set] using hread

/-! ## Arrangements -/

section Arrangements

variable [Std.Antisymm fun x y : κ => x ≤ y]

/-- Two arrangements in the order of the keys have the same keys in the same places. -/
theorem Chronological.map_eq (ha : Chronological key a) (hl : Chronological key l) (hp : a.Perm l) :
    a.map key = l.map key := by
  apply List.Perm.eq_of_pairwise' (r := fun x y : κ => x ≤ y)
  · exact List.pairwise_map.2 ha
  · exact List.pairwise_map.2 hl
  · exact hp.map key

theorem Chronological.getElem_eq (ha : Chronological key a) (hl : Chronological key l)
    (hp : a.Perm l) {i : Nat} (hi : i < a.length) (hi' : i < l.length) : key a[i] = key l[i] := by
  have hmap := ha.map_eq hl hp
  have ha' : i < (a.map key).length := by
    rw [List.length_map]
    exact hi
  have hl' : i < (l.map key).length := by
    rw [List.length_map]
    exact hi'
  calc key a[i] = (a.map key)[i] := by rw [List.getElem_map]
    _ = (l.map key)[i] := by simp only [hmap]
    _ = key l[i] := by rw [List.getElem_map]

/-- When rows with equal keys agree, every arrangement shows the same last rows. -/
theorem TiesAgree.rtake_eq (h : TiesAgree key val n l) (hl : Chronological key l) (hp : a.Perm l)
    (ha : Chronological key a) : (a.rtake n).map val = (l.rtake n).map val := by
  have hlen : a.length = l.length := hp.length_eq
  have hat : ∀ (j : Nat) (hj : j < a.length) (hj' : j < l.length), l.length ≤ j + n →
      val a[j] = val l[j] := by
    intro j hj hj' hlast
    -- the row stands somewhere in the list, under the same key
    obtain ⟨i, hi, hrow⟩ := List.getElem_of_mem (hp.subset (List.getElem_mem hj))
    have hkey : key l[i] = key l[j] := by
      rw [hrow]
      exact ha.getElem_eq hl hp hj hj'
    rw [← hrow]
    rcases Nat.lt_trichotomy i j with hij | rfl | hij
    · exact h i j hij hj' hlast hkey
    · rfl
    · exact (h j i hij hi (by omega) hkey.symm).symm
  apply List.ext_getElem
  · simp only [List.length_map, List.rtake, List.length_drop, hlen]
  · intro i hi hi'
    simp only [List.length_map, List.rtake, List.length_drop] at hi hi'
    simp only [List.getElem_map, List.rtake, List.getElem_drop, hlen]
    apply hat
    omega

/-- **The last rows do not depend on the arrangement.** -/
theorem rtake_eq_iff (hl : Chronological key l) :
    (∀ a : List α, a.Perm l → Chronological key a →
      (a.rtake n).map val = (l.rtake n).map val) ↔ TiesAgree key val n l := by
  constructor
  · exact tiesAgree_of_rtake_eq hl
  · intro h a hp ha
    exact h.rtake_eq hl hp ha

end Arrangements

/-! ## The rows with the greatest keys -/

/-- `rows` are rows of `all` with the greatest keys, the greatest first; which of several rows with one key
are among them is left open. -/
def TopRows (key : α → κ) (all rows : List α) : Prop :=
  rows.Pairwise (fun x y => key y ≤ key x) ∧
    ∃ rest : List α, (rows ++ rest).Perm all ∧ ∀ x ∈ rows, ∀ y ∈ rest, key y ≤ key x

/-- A beginning of a descending order has the greatest keys. -/
theorem topRows_of_prefix {rows : List α} (hp : a.Perm l) (ha : a.Pairwise fun x y => key y ≤ key x)
    (h : rows <+: a) : TopRows key l rows := by
  obtain ⟨rest, rfl⟩ := h
  obtain ⟨hrows, -, hcross⟩ := List.pairwise_append.1 ha
  exact ⟨hrows, rest, hp, hcross⟩

/-- When rows with equal keys agree, two descending orders show the same first rows. -/
theorem map_take_eq {a' : List α} [Std.Antisymm fun x y : κ => x ≤ y] (hp : a.Perm l) (hp' : a'.Perm l)
    (ha : a.Pairwise fun x y => key y ≤ key x) (ha' : a'.Pairwise fun x y => key y ≤ key x)
    (hties : ∀ x ∈ l, ∀ y ∈ l, key x = key y → val x = val y) (n : Nat) :
    (a.take n).map val = (a'.take n).map val := by
  have hagree : TiesAgree key val n a'.reverse := by
    intro i j _ _ _ hkey
    apply hties _ _ _ _ hkey
    · exact hp'.subset (List.mem_reverse.1 (List.getElem_mem _))
    · exact hp'.subset (List.mem_reverse.1 (List.getElem_mem _))
  have hlast := hagree.rtake_eq (List.pairwise_reverse.2 ha')
    (((List.reverse_perm a).trans (hp.trans hp'.symm)).trans (List.reverse_perm a').symm)
    (List.pairwise_reverse.2 ha)
  rw [List.rtake_eq_reverse_take_reverse, List.rtake_eq_reverse_take_reverse, List.reverse_reverse,
    List.reverse_reverse, List.map_reverse, List.map_reverse] at hlast
  exact List.reverse_injective hlast

/-! ## A bounded queue -/

/-- A queue of at most `n` rows: the oldest makes room for a new one. -/
theorem rtake_concat (l : List α) (x : α) (n : Nat) : (l ++ [x]).rtake n =
    if (l.rtake n ++ [x]).length > n then (l.rtake n ++ [x]).tail else l.rtake n ++ [x] := by
  simp only [List.rtake, List.length_append, List.length_drop, List.length_singleton]
  split
  · rename_i hfull
    have hdrop : l.length + 1 - n = l.length - n + 1 := by omega
    rw [hdrop, ← List.drop_append_of_le_length (by omega), List.tail_drop]
  · rename_i hroom
    have hdrop : l.length + 1 - n = l.length - n := by omega
    rw [hdrop, List.drop_append_of_le_length (by omega)]

end TerminalChat.Query
