import Mathlib
import TerminalChat.Text.Bytes
import TerminalChat.Text.Framing

/-!
# Positions in a string

The searches of `std::string`, `substr`, and the arithmetic of `size_t`. A search gives a position or
`npos`, the largest `size_t`. Sums and differences are taken modulo `2 ^ 64`, so `npos + 1` is zero.
`substr` throws when it would start behind the end of the string.
-/

set_option autoImplicit false

namespace TerminalChat.Text

/-- What a call on a `std::string` may throw. -/
inductive Exception where
  | outOfRange
  deriving DecidableEq

/-- `string::npos`. -/
def npos : Nat := 2 ^ 64 - 1

/-- The value of an expression over `size_t`. -/
def sizeT (n : Int) : Nat := (n % 2 ^ 64).toNat

/-- `s.find(c, pos)`; nothing where it gives `npos`. -/
def find (s : Bytes) (c : UInt8) (pos : Nat) : Option Nat :=
  ((s.drop pos).idxOf? c).map fun i => pos + i

/-- `s.rfind(c, pos)`; nothing where it gives `npos`. -/
def rfind (s : Bytes) (c : UInt8) : Nat → Option Nat
  | 0 => if s[0]? = some c then some 0 else none
  | pos + 1 => if s[pos + 1]? = some c then some (pos + 1) else rfind s c pos

/-- `s.find(p) != npos`. -/
def contains (p s : Bytes) : Bool := s.tails.any fun rest => startsWith p rest

/-- The `size_t` that a search gives. -/
def position (found : Option Nat) : Nat := found.getD npos

/-- `s.substr(pos, n)`. -/
def substr (s : Bytes) (pos n : Nat) : Except Exception Bytes :=
  if pos ≤ s.length then .ok ((s.drop pos).take n) else .error .outOfRange

/-- `s.substr(pos)`. -/
def substrFrom (s : Bytes) (pos : Nat) : Except Exception Bytes :=
  if pos ≤ s.length then .ok (s.drop pos) else .error .outOfRange

/-- `trim` by its positions: `find_first_not_of`, `find_last_not_of` and `substr`. -/
def trimAt (s : Bytes) : Except Exception Bytes :=
  if s.all isBlank then .ok []
  else
    let first := s.findIdx fun c => !isBlank c
    let last := s.length - 1 - s.reverse.findIdx fun c => !isBlank c
    substr s first (last - first + 1)

/-- The texts that `getline(stream, text, sep)` extracts from a stream holding `s` until it fails. An
end behind the last separator is none. -/
def getlines (sep : UInt8) (s : Bytes) : List Bytes :=
  (messagesOf sep s).1 ++ if (messagesOf sep s).2 = [] then [] else [(messagesOf sep s).2]

section Positions

variable {s p u v : Bytes} {c : UInt8} {pos n i : Nat}

/-! ## Arithmetic -/

theorem sizeT_of_lt (h : n < 2 ^ 64) : sizeT n = n := by
  rw [sizeT]
  omega

theorem sizeT_le (n : Nat) : sizeT n ≤ n := by
  rw [sizeT]
  omega

/-- Behind `npos` comes zero. -/
theorem sizeT_npos : sizeT ((npos : Int) + 1) = 0 := by decide

/-! ## Searches -/

theorem find_eq_some_iff : find s c pos = some i ↔
    ∃ u v, s.drop pos = u ++ c :: v ∧ c ∉ u ∧ i = pos + u.length := by
  rw [find, Option.map_eq_some_iff]
  constructor
  · rintro ⟨k, hk, rfl⟩
    rw [List.idxOf?_eq_some_iff] at hk
    obtain ⟨hlt, hc, hbefore⟩ := hk
    refine ⟨(s.drop pos).take k, (s.drop pos).drop (k + 1), ?_, ?_, ?_⟩
    · conv_lhs => rw [← List.take_append_drop k (s.drop pos), List.drop_eq_getElem_cons hlt, hc]
    · intro hmem
      obtain ⟨j, hj, he⟩ := List.getElem_of_mem hmem
      rw [List.length_take] at hj
      rw [List.getElem_take] at he
      exact hbefore j (by omega) he
    · rw [List.length_take]
      omega
  · rintro ⟨u, v, hs, hu, rfl⟩
    refine ⟨u.length, ?_, rfl⟩
    rw [hs, List.idxOf?_eq_some_iff]
    refine ⟨by simp, by simp, ?_⟩
    intro j hj he
    rw [List.getElem_append_left hj] at he
    exact hu (he ▸ List.getElem_mem hj)

theorem find_eq_none_iff : find s c pos = none ↔ c ∉ s.drop pos := by
  rw [find, Option.map_eq_none_iff, List.idxOf?_eq_none_iff]

/-- A character that is found is at the position and not before the start of the search. -/
theorem find_bounds (h : find s c pos = some i) : pos ≤ i ∧ i < s.length := by
  obtain ⟨u, v, hs, -, rfl⟩ := find_eq_some_iff.1 h
  have hlen := congrArg List.length hs
  rw [List.length_drop, List.length_append, List.length_cons] at hlen
  omega

theorem find_append (hc : c ∉ u) : find (u ++ c :: v) c 0 = some u.length := by
  rw [find_eq_some_iff]
  exact ⟨u, v, rfl, hc, (Nat.zero_add _).symm⟩

/-- What stands before the first occurrence of a character, and what starts with it. -/
theorem takeWhile_ne_append (hc : c ∉ u) : (u ++ c :: v).takeWhile (fun d => d != c) = u := by
  rw [List.takeWhile_append_of_pos]
  · simp
  · intro d hd
    rw [bne_iff_ne]
    rintro rfl
    exact hc hd

theorem dropWhile_ne_append (hc : c ∉ u) : (u ++ c :: v).dropWhile (fun d => d != c) = c :: v := by
  rw [List.dropWhile_append_of_pos]
  · simp
  · intro d hd
    rw [bne_iff_ne]
    rintro rfl
    exact hc hd

/-- Behind a found position, whether or not the search failed, there is room for `substr`. -/
theorem succ_position_le (s : Bytes) (c : UInt8) (pos : Nat) :
    sizeT ((position (find s c pos) : Int) + 1) ≤ s.length := by
  cases h : find s c pos with
  | none =>
      rw [position, Option.getD_none, sizeT_npos]
      exact Nat.zero_le _
  | some i =>
      have hi := (find_bounds h).2
      have hle := sizeT_le (i + 1)
      rw [position, Option.getD_some]
      push_cast at hle
      omega

theorem rfind_bounds : ∀ {pos : Nat}, rfind s c pos = some i → i ≤ pos ∧ s[i]? = some c
  | 0, h => by
      rw [rfind] at h
      split at h
      · rename_i h0
        rw [Option.some.injEq] at h
        subst h
        exact ⟨Nat.le_refl 0, h0⟩
      · exact absurd h (by simp)
  | pos + 1, h => by
      rw [rfind] at h
      split at h
      · rename_i h0
        rw [Option.some.injEq] at h
        subst h
        exact ⟨Nat.le_refl _, h0⟩
      · obtain ⟨hle, hi⟩ := rfind_bounds h
        exact ⟨Nat.le_succ_of_le hle, hi⟩

theorem contains_iff : contains p s = true ↔ p <:+: s := by
  rw [contains, List.any_eq_true]
  constructor
  · rintro ⟨rest, hrest, hp⟩
    rw [startsWith, List.isPrefixOf_iff_prefix] at hp
    exact hp.isInfix.trans ((List.mem_tails _ _).1 hrest).isInfix
  · rintro ⟨a, b, rfl⟩
    refine ⟨p ++ b, (List.mem_tails _ _).2 ⟨a, (List.append_assoc a p b).symm⟩, ?_⟩
    rw [startsWith, List.isPrefixOf_iff_prefix]
    exact List.prefix_append p b

/-! ## Parts -/

theorem substr_eq_ok (h : pos ≤ s.length) (n : Nat) :
    substr s pos n = .ok ((s.drop pos).take n) := if_pos h

theorem substrFrom_eq_ok (h : pos ≤ s.length) : substrFrom s pos = .ok (s.drop pos) := if_pos h

/-- What stands before a position and what stands behind it. -/
theorem substr_append (u v : Bytes) : substr (u ++ v) 0 u.length = .ok u := by
  rw [substr_eq_ok (Nat.zero_le _), List.drop_zero, List.take_left]

theorem substrFrom_append (u v : Bytes) : substrFrom (u ++ v) u.length = .ok v := by
  rw [substrFrom_eq_ok (by simp), List.drop_left]

/-- `trim` by its positions throws nothing, and gives the trimmed text. -/
theorem trimAt_eq (s : Bytes) : trimAt s = .ok (trim s) := by
  rw [trimAt]
  by_cases hall : s.all isBlank = true
  · have hnil : s.dropWhile isBlank = [] := List.dropWhile_eq_nil_iff.2 (List.all_eq_true.1 hall)
    rw [if_pos hall, trim, hnil]
    rfl
  · rw [if_neg hall]
    dsimp only
    obtain ⟨first, hfirst⟩ : ∃ first, s.findIdx (fun c => !isBlank c) = first := ⟨_, rfl⟩
    have hlt : first < s.length := by
      rw [← hfirst]
      apply List.findIdx_lt_length_of_exists
      simpa using hall
    have hcut : s.reverse = (s.drop first).reverse ++ (s.take first).reverse := by
      rw [← List.reverse_append, List.take_append_drop]
    -- the last character that is not blank is not before the first one
    have hback : (s.drop first).reverse.findIdx (fun c => !isBlank c) < (s.drop first).length := by
      rw [← List.length_reverse]
      apply List.findIdx_lt_length_of_exists
      refine ⟨s[first], List.mem_reverse.2 ?_, ?_⟩
      · rw [List.drop_eq_getElem_cons hlt]
        exact List.mem_cons_self
      · subst hfirst
        exact List.findIdx_getElem (p := fun c => !isBlank c)
    have hlast : s.reverse.findIdx (fun c => !isBlank c) =
        (s.drop first).reverse.findIdx fun c => !isBlank c := by
      rw [hcut, List.findIdx_append, if_pos (by rwa [List.length_reverse])]
    rw [hfirst, hlast, substr_eq_ok (Nat.le_of_lt hlt), trim, List.dropWhile_eq_drop_findIdx_not, hfirst,
      List.rdropWhile, List.dropWhile_eq_drop_findIdx_not, List.drop_reverse, List.reverse_reverse]
    rw [List.length_drop] at hback
    congr 2
    rw [List.length_drop]
    omega

end Positions

end TerminalChat.Text
