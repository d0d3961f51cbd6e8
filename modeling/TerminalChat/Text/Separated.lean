import Mathlib.Data.List.Infix
import Mathlib.Tactic.Common

/-!
# Two fields and a separator

A text of two fields with a separator between them, over any alphabet, where nothing is escaped. Two
such texts can be equal although their fields differ: the separator of one then lies in a field of the
other. For a separator that does not overlap with itself this is the only way
(`separated_eq_iff`).
-/

set_option autoImplicit false

namespace TerminalChat.Text

variable {α : Type} {sep : List α} {x y x' y' : List α}

/-- No proper part at the end of the separator is also at its beginning. -/
def Unbordered (sep : List α) : Prop :=
  ∀ rest : List α, rest <:+ sep → rest <+: sep → rest = [] ∨ rest = sep

/-- The first field of the second pair goes on where that of the first pair ends: behind a separator
it has what the second field of the first pair begins with. -/
def Continues (sep x y x' y' : List α) : Prop :=
  ∃ rest, x' = x ++ sep ++ rest ∧ y = rest ++ sep ++ y'

theorem Continues.eq (h : Continues sep x y x' y') : x ++ sep ++ y = x' ++ sep ++ y' := by
  obtain ⟨rest, rfl, rfl⟩ := h
  simp only [List.append_assoc]

theorem Continues.ne (h : Continues sep x y x' y') (hsep : sep ≠ []) : x ≠ x' := by
  obtain ⟨rest, rfl, -⟩ := h
  intro he
  have hlen := congrArg List.length he
  have hpos := List.length_pos_of_ne_nil hsep
  simp only [List.length_append] at hlen
  omega

/-- A text that begins with the separator and again has it after `a`: either `a` is nothing, or it
begins with the separator. -/
theorem separator_shift (hs : Unbordered sep) {a : List α} (h : sep ++ y = a ++ (sep ++ y')) :
    a = [] ∧ y = y' ∨ ∃ rest, a = sep ++ rest ∧ y = rest ++ sep ++ y' := by
  rcases List.append_eq_append_iff.1 h with ⟨rest, rfl, hy⟩ | ⟨rest, hsep, hy⟩
  · exact Or.inr ⟨rest, rfl, by rw [hy, List.append_assoc]⟩
  · -- the rest of the separator behind `a` stands at its beginning, too
    have hsuffix : rest <:+ sep := ⟨a, hsep.symm⟩
    have hprefix : rest <+: sep := by
      have hrest : rest <+: sep ++ y' := ⟨y, hy.symm⟩
      exact List.prefix_of_prefix_length_le hrest (List.prefix_append sep y') hsuffix.length_le
    rcases hs rest hsuffix hprefix with hnone | hall
    · rw [hnone, List.append_nil] at hsep
      rw [hnone, List.nil_append] at hy
      exact Or.inr ⟨[], by rw [hsep, List.append_nil], by rw [List.nil_append, hy]⟩
    · rw [hall] at hsep hy
      refine Or.inl ⟨?_, (List.append_cancel_left hy).symm⟩
      exact List.append_left_eq_self.1 hsep.symm

/-- Two texts with an unescaped separator are equal exactly when their fields are, or one goes on
behind the separator of the other. -/
theorem separated_eq_iff (hs : Unbordered sep) : x ++ sep ++ y = x' ++ sep ++ y' ↔
    (x = x' ∧ y = y') ∨ Continues sep x y x' y' ∨ Continues sep x' y' x y := by
  constructor
  · intro h
    rw [List.append_assoc, List.append_assoc] at h
    rcases List.append_eq_append_iff.1 h with ⟨a, rfl, ha⟩ | ⟨a, rfl, ha⟩
    · rcases separator_shift hs ha with ⟨rfl, rfl⟩ | ⟨rest, rfl, rfl⟩
      · exact Or.inl ⟨(List.append_nil x).symm, rfl⟩
      · exact Or.inr (Or.inl ⟨rest, (List.append_assoc _ _ _).symm, rfl⟩)
    · rcases separator_shift hs ha with ⟨rfl, rfl⟩ | ⟨rest, rfl, rfl⟩
      · exact Or.inl ⟨List.append_nil x', rfl⟩
      · exact Or.inr (Or.inr ⟨rest, (List.append_assoc _ _ _).symm, rfl⟩)
  · rintro (⟨rfl, rfl⟩ | h | h)
    · rfl
    · exact h.eq
    · exact h.eq.symm

/-- A separator of two different characters. -/
theorem unbordered_pair {a b : α} (h : a ≠ b) : Unbordered [a, b] := by
  intro rest hsuffix hprefix
  rcases rest with _ | ⟨c, _ | ⟨d, tail⟩⟩
  · exact Or.inl rfl
  · -- one character at both ends would be `a` and `b`
    have hfirst : c = a := by simpa using hprefix
    obtain ⟨front, hfront⟩ := hsuffix
    have hlast := congrArg List.getLast? hfront
    rw [List.getLast?_append] at hlast
    simp only [List.getLast?_singleton, Option.some_or, List.getLast?_cons_cons,
      Option.some.injEq] at hlast
    exact absurd (hfirst.symm.trans hlast) h
  · refine Or.inr (hsuffix.eq_of_length_le ?_)
    simp

end TerminalChat.Text
