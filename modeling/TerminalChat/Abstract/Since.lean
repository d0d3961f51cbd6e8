import Mathlib

/-!
# What has held since

A history is a list of events, the last one at its end. `Since P Q` says of a history that at one of its
events `P` held, and that `Q` has held at each event after it. Both may look at the events before.
`since_concat_iff` is the recursion, `since_iff` the reading with two parts of the history.
-/

set_option autoImplicit false

namespace TerminalChat.Abstract

variable {α : Type}

/-- `P` held at some event, and `Q` has held since. -/
inductive Since (P Q : List α → α → Prop) : List α → Prop where
  | now {before : List α} {x : α} : P before x → Since P Q (before ++ [x])
  | onward {before : List α} {x : α} : Since P Q before → Q before x → Since P Q (before ++ [x])

variable {P Q : List α → α → Prop}

theorem not_since_nil : ¬Since P Q [] := by
  intro h
  generalize hl : ([] : List α) = l at h
  cases h with
  | now _ => exact absurd hl (by simp)
  | onward _ _ => exact absurd hl (by simp)

/-- One more event: `P` holds at it, or `Q` does and the property held before. -/
theorem since_concat_iff {before : List α} {x : α} :
    Since P Q (before ++ [x]) ↔ P before x ∨ Since P Q before ∧ Q before x := by
  constructor
  · intro h
    generalize hl : before ++ [x] = l at h
    cases h with
    | now hp =>
        obtain ⟨rfl, hx⟩ := List.append_inj' hl rfl
        obtain rfl := List.singleton_injective hx
        exact Or.inl hp
    | onward hs hq =>
        obtain ⟨rfl, hx⟩ := List.append_inj' hl rfl
        obtain rfl := List.singleton_injective hx
        exact Or.inr ⟨hs, hq⟩
  · rintro (hp | ⟨hs, hq⟩)
    · exact Since.now hp
    · exact Since.onward hs hq

/-- The event at which `P` held, with those before it and those since. -/
theorem since_iff {l : List α} : Since P Q l ↔ ∃ before x after, l = before ++ x :: after ∧ P before x ∧
    ∀ mid y rest, after = mid ++ y :: rest → Q (before ++ x :: mid) y := by
  constructor
  · intro h
    induction h with
    | @now before x hp => exact ⟨before, x, [], rfl, hp, fun mid y rest hnil => absurd hnil (by simp)⟩
    | @onward before z _ hq ih =>
        obtain ⟨start, x, after, rfl, hp, hafter⟩ := ih
        refine ⟨start, x, after ++ [z], by simp, hp, ?_⟩
        intro mid y rest hsplit
        rcases List.eq_nil_or_concat rest with rfl | ⟨rest, w, rfl⟩
        · -- the new event
          obtain ⟨rfl, hz⟩ := List.append_inj' hsplit rfl
          obtain rfl := List.singleton_injective hz
          exact hq
        · -- an event from before
          apply hafter mid y rest
          rw [List.concat_eq_append, ← List.cons_append, ← List.append_assoc] at hsplit
          exact (List.append_inj' hsplit rfl).1
  · rintro ⟨before, x, after, rfl, hp, hafter⟩
    induction after using List.reverseRecOn with
    | nil => exact Since.now hp
    | append_singleton after z ih =>
        have hz : before ++ x :: (after ++ [z]) = (before ++ x :: after) ++ [z] := by simp
        rw [hz]
        apply Since.onward (ih ?_) (hafter after z [] rfl)
        intro mid y rest hsplit
        apply hafter mid y (rest ++ [z])
        rw [hsplit, List.append_assoc, List.cons_append]

end TerminalChat.Abstract
