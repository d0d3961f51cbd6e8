import TerminalChat.Abstract.Runs

/-!
# Traces of a hall

A trace is a run with its operations written down: they take effect one after the other, in their order,
and only sweeps happen between them. What is known of a person is a fold over the operations
(`Trace.person`): sweeps and the operations on others do not enter into it.
-/

set_option autoImplicit false

namespace TerminalChat.Abstract

namespace Hall

variable {S I N P : Type} [Inhabited N] {bad : S} {h : Hall S I N P} {op : Op S I N P}
  {ops : List (Op S I N P)} {s : S}

/-- The hall reached from the empty one by the operations `ops`, each permitted in its turn, and by
sweeps. -/
inductive Trace (bad : S) : List (Op S I N P) → Hall S I N P → Prop where
  | empty : Trace bad [] .empty
  | sweeps {ops : List (Op S I N P)} {h h' : Hall S I N P} : Trace bad ops h → Sweeps h h' →
      Trace bad ops h'
  | apply {ops : List (Op S I N P)} {h : Hall S I N P} (op : Op S I N P) : Trace bad ops h →
      op.Permitted bad h → Trace bad (ops ++ [op]) (op.apply h)

/-- A trace is a run. -/
theorem Trace.run (ht : Trace bad ops h) : Run bad (fun _ _ => True) h := by
  induction ht with
  | empty => exact .empty
  | sweeps _ hw ih => exact ih.sweeps hw
  | apply op _ hp ih => exact ih.apply op hp trivial

/-! ## The record of a person -/

open Classical in
/-- What an operation makes of the record of `s`. -/
noncomputable def Op.record (s : S) (p : Option (Person I N)) : Op S I N P → Option (Person I N)
  | .pass => p
  | .connect t => if t = s then some default else p
  | .disconnect t => if t = s then none else p
  | .rename t n => if t = s then p.map fun q => { q with name := n } else p
  | .create t r _ _ => if t = s then p.map fun q => { q with place := some r, owner := true } else p
  | .join t r _ => if t = s then p.map fun q => { q with place := some r, owner := false } else p
  | .missing _ _ => p
  | .kick _ t _ => if t = s then p.map fun q => { q with place := none, owner := false } else p
  | .ban _ _ _ none => p
  | .ban _ _ _ (some t) => if t = s then p.map fun q => { q with place := none, owner := false } else p
  | .transfer a t _ _ =>
      if t = s then p.map fun q => { q with owner := true }
      else if a = s then p.map fun q => { q with owner := false }
      else p
  | .leave t => if t = s then p.map fun q => { q with place := none } else p
  | .forceLeave t _ none _ =>
      if t = s then p.map fun q => { q with place := none, owner := false } else p
  | .forceLeave t _ (some u) _ =>
      if t = s then p.map fun q => { q with place := none, owner := false }
      else if u = s then p.map fun q => { q with owner := true }
      else p
  | .setPassword _ _ _ => p

/-- The record of `s` after the operations `ops`. -/
noncomputable def recordOf (s : S) (ops : List (Op S I N P)) : Option (Person I N) :=
  ops.foldl (Op.record s) none

theorem recordOf_concat : recordOf s (ops ++ [op]) = op.record s (recordOf s ops) := by
  rw [recordOf, List.foldl_append]
  rfl

/-- An entry that is updated is the record that is updated. -/
theorem some_entry (hs : (h.person s).isSome) (f : Person I N → Person I N) :
    some (f (h.entry s)) = (h.person s).map f := by
  obtain ⟨p, hp⟩ := Option.isSome_iff_exists.1 hs
  rw [hp, entry_of_person hp]
  rfl

attribute [local simp] Op.apply detach place promote newRoom Op.record

/-- A permitted operation does to a person what it does to its record. -/
theorem person_eq_record (hp : op.Permitted bad h) (s : S) :
    (op.apply h).person s = op.record s (h.person s) := by
  have hknown : ∀ (t : S) (f : Person I N → Person I N), (h.person t).isSome →
      some (f (h.entry t)) = (h.person t).map f := fun t f ht => some_entry ht f
  have hplaced : ∀ t : S, (h.entry t).place ≠ none → (h.person t).isSome :=
    fun t => isSome_of_place
  cases op with
  | pass => rfl
  | connect t =>
      simp
      grind
  | disconnect t =>
      simp
      grind
  | rename t n =>
      simp
      grind [Op.Permitted]
  | create t r isPrivate password =>
      simp
      grind [Op.Permitted]
  | join t r password =>
      simp
      grind [Op.Permitted]
  | missing t r => simp
  | kick a t n =>
      simp
      grind [Op.Permitted]
  | ban a r n u =>
      cases u with
      | none => simp
      | some u =>
          simp
          grind [Op.Permitted]
  | transfer a t r n =>
      -- the owner gives the flag away, the other gets it
      simp
      grind [Op.Permitted, Rules]
  | leave t =>
      simp
      grind [Op.Permitted]
  | forceLeave t r u told =>
      cases u with
      | none =>
          simp
          grind [Op.Permitted, Rules]
      | some u =>
          simp
          grind [Op.Permitted, Rules]
  | setPassword t r password => simp

/-- The record of a person is all that is known of it. -/
theorem Trace.person (ht : Trace bad ops h) (s : S) : h.person s = recordOf s ops := by
  induction ht with
  | empty => rfl
  | sweeps _ hw ih => rw [hw.person, ih]
  | apply op ht hp ih => rw [person_eq_record hp, ih, recordOf_concat]

end Hall

end TerminalChat.Abstract
