import Mathlib.Data.List.Forall2

/-!
# Subsequences up to a relation

`List.SublistForall₂ R l l'` says that the elements of `l` come, in their order, from elements of `l'`:
each of them from one that is related to it, and no two from the same. Here is how such facts are put
together along a chain of queues (`comes_trans`), and how a subsequence of groups is cut into its groups
(`parts_of_sublist_flatMap`).
-/

set_option autoImplicit false

namespace TerminalChat.Text

open List

variable {α β γ : Type} {R : α → β → Prop} {S : β → γ → Prop} {T : α → γ → Prop}
  {as as' : List α} {bs bs' : List β} {cs : List γ}

theorem comes_of_forall₂ (h : Forall₂ R as bs) : SublistForall₂ R as bs :=
  sublistForall₂_iff.2 ⟨bs, h, Sublist.refl bs⟩

/-- What comes from a part comes from the whole. -/
theorem comes_of_sublist (h : SublistForall₂ R as bs) (hbs : bs.Sublist bs') : SublistForall₂ R as bs' := by
  obtain ⟨chosen, hchosen, hsub⟩ := sublistForall₂_iff.1 h
  exact sublistForall₂_iff.2 ⟨chosen, hchosen, hsub.trans hbs⟩

/-- A part comes from wherever the whole comes from. -/
theorem part_comes (h : SublistForall₂ R as bs) (has : as'.Sublist as) : SublistForall₂ R as' bs := by
  induction h generalizing as' with
  | nil =>
      rw [sublist_nil.1 has]
      exact .nil
  | cons hab _ ih =>
      cases has with
      | cons _ has => exact .cons_right (ih has)
      | cons_cons _ has => exact .cons hab (ih has)
  | cons_right _ ih => exact .cons_right (ih has)

/-- One queue after the other. -/
theorem comes_trans (hab : SublistForall₂ R as bs) (hbc : SublistForall₂ S bs cs)
    (h : ∀ a b c, R a b → S b c → T a c) : SublistForall₂ T as cs := by
  induction hbc generalizing as with
  | nil =>
      cases hab with
      | nil => exact .nil
  | cons hs _ ih =>
      cases hab with
      | nil => exact .nil
      | cons hr hab => exact .cons (h _ _ _ hr hs) (ih hab)
      | cons_right hab => exact .cons_right (ih hab)
  | cons_right _ ih => exact .cons_right (ih hab)

theorem comes_append (h : SublistForall₂ R as bs) (h' : SublistForall₂ R as' bs') :
    SublistForall₂ R (as ++ as') (bs ++ bs') := by
  induction h with
  | @nil bs => exact comes_of_sublist h' (sublist_append_right bs bs')
  | cons hab _ ih => exact .cons hab ih
  | cons_right _ ih => exact .cons_right ih

/-- Elements with a property come from elements with a property. -/
theorem comes_filter (h : SublistForall₂ R as bs) (p : α → Bool) (q : β → Bool)
    (hpq : ∀ a b, R a b → p a = true → q b = true) : SublistForall₂ R (as.filter p) (bs.filter q) := by
  induction h with
  | nil => exact .nil
  | @cons a b as bs hab _ ih =>
      cases hp : p a with
      | true =>
          rw [filter_cons_of_pos hp, filter_cons_of_pos (hpq a b hab hp)]
          exact .cons hab ih
      | false =>
          rw [filter_cons_of_neg (by simp [hp])]
          exact comes_of_sublist ih ((sublist_cons_self b bs).filter q)
  | @cons_right b as bs _ ih => exact comes_of_sublist ih ((sublist_cons_self b bs).filter q)

/-- A part of groups, put one after the other, is a list of parts of the groups. -/
theorem parts_of_sublist_flatMap (f : β → List α) : ∀ (bs : List β) (as : List α), as.Sublist (bs.flatMap f) →
    ∃ parts : List (List α), Forall₂ (fun part b => part.Sublist (f b)) parts bs ∧ as = parts.flatten
  | [], as, h => ⟨[], .nil, sublist_nil.1 h⟩
  | b :: bs, as, h => by
      obtain ⟨part, rest, rfl, hpart, hrest⟩ := sublist_append_iff.1 h
      obtain ⟨parts, hparts, rfl⟩ := parts_of_sublist_flatMap f bs rest hrest
      exact ⟨part :: parts, .cons hpart hparts, rfl⟩

end TerminalChat.Text
