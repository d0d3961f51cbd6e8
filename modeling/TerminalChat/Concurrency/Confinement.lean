import Mathlib
import TerminalChat.Concurrency.Lockstep
import TerminalChat.Concurrency.Termination

/-!
# Tables and the mutexes that guard them

The shared state is made of tables, each guarded by a mutex, and of a rest. A program is confined
(`Prog.Confined`) when its actions change only the tables whose mutexes it holds then, and depend only on
these and on the rest. In a configuration of confined threads every table is touched by the owner of its
mutex alone (`Config.Confined.owner_of_touches`).
-/

set_option autoImplicit false

namespace TerminalChat.Concurrency

variable {κ τ μ ν ε σ α β : Type}

/-- The tables `κ` of a state: the mutex that guards a table, when two states have the same table, and when
they have the same rest. -/
structure Guarding (κ μ σ : Type) where
  mutex : κ → μ
  Same : κ → σ → σ → Prop
  Rest : σ → σ → Prop
  equivalence : ∀ k, Equivalence (Same k)

namespace Guarding

variable {G : Guarding κ μ σ} {H : Set μ} {s s' s'' : σ}

/-- What can be seen with the mutexes `H` is the same in both states. -/
def Agree (G : Guarding κ μ σ) (H : Set μ) (s s' : σ) : Prop :=
  G.Rest s s' ∧ ∀ k, G.mutex k ∈ H → G.Same k s s'

/-- The tables that `H` does not guard are the same in both states. -/
def Frame (G : Guarding κ μ σ) (H : Set μ) (s s' : σ) : Prop :=
  ∀ k, G.mutex k ∉ H → G.Same k s s'

theorem frame_refl (s : σ) : G.Frame H s s := fun k _ => (G.equivalence k).refl s

theorem Frame.trans (h : G.Frame H s s') (h' : G.Frame H s' s'') : G.Frame H s s'' :=
  fun k hk => (G.equivalence k).trans (h k hk) (h' k hk)

end Guarding

/-! ## Blocks -/

namespace Block

/-- The block changes only the tables that `H` guards, and depends only on these and on the rest. -/
structure Confined (G : Guarding κ μ σ) (H : Set μ) (b : Block ν ε σ α) : Prop where
  frame : ∀ e s, G.Frame H s (b.exec e s).state
  even : b.Even (G.Agree H) fun _ => True

variable {G : Guarding κ μ σ} {H : Set μ} {b b' : Block ν ε σ α} {f : α → Block ν ε σ β}

theorem confined_pure (a : α) : (pure a : Block ν ε σ α).Confined G H :=
  ⟨fun _ s => Guarding.frame_refl s, even_pure trivial⟩

theorem confined_bind (hb : b.Confined G H) (hf : ∀ a, (f a).Confined G H) :
    (b >>= f).Confined G H := by
  constructor
  · intro e s
    exact (hb.frame e s).trans ((hf _).frame e _)
  · exact even_bind hb.even fun a _ => (hf a).even

theorem confined_ite {c : Prop} [Decidable c] (hb : b.Confined G H) (hb' : b'.Confined G H) :
    (if c then b else b').Confined G H := by
  split
  · exact hb
  · exact hb'

/-- A block that only reads what `H` guards. -/
theorem confined_read {f : ε → σ → α} (hf : ∀ e s s', G.Agree H s s' → f e s' = f e s) :
    (Block.read f : Block ν ε σ α).Confined G H :=
  ⟨fun _ s => Guarding.frame_refl s, fun _ _ => trivial, fun e s s' hs _ => ⟨hf e s s' hs, rfl, hs⟩⟩

end Block

/-! ## Programs -/

namespace Prog

/-- Started with the mutexes `H`, every action of the program changes only the tables guarded by what it
holds then, and depends only on these and on the rest; it releases only what it holds, and ends with `K`. -/
def Confined (G : Guarding κ μ σ) (K : α → Set μ → Prop) : Prog μ ε σ α → Set μ → Prop
  | ret a, H => K a H
  | lock m next, H => next.Confined G K (insert m H)
  | unlock m next, H => m ∈ H ∧ next.Confined G K (H \ {m})
  | act f next, H => (∀ e s, G.Frame H s (f e s)) ∧
      (∀ e s s', G.Agree H s s' → G.Agree H (f e s) (f e s') ∧ next e s' = next e s) ∧
        ∀ e s, (next e s).Confined G K H

variable {G : Guarding κ μ σ} {K K' : α → Set μ → Prop} {H : Set μ}

theorem confined_mono (h : ∀ a H', K a H' → K' a H') :
    ∀ (p : Prog μ ε σ α) (H : Set μ), p.Confined G K H → p.Confined G K' H
  | ret a, H, hp => h a H hp
  | lock _ next, _, hp => confined_mono h next _ hp
  | unlock _ next, _, hp => ⟨hp.1, confined_mono h next _ hp.2⟩
  | act _ next, _, hp => ⟨hp.1, hp.2.1, fun e s => confined_mono h (next e s) _ (hp.2.2 e s)⟩

theorem confined_bind {L : β → Set μ → Prop} (f : α → Prog μ ε σ β) :
    ∀ (p : Prog μ ε σ α) (H : Set μ), p.Confined G (fun a H' => (f a).Confined G L H') H →
      (p >>= f).Confined G L H
  | ret _, _, hp => hp
  | lock _ next, _, hp => confined_bind f next _ hp
  | unlock _ next, _, hp => ⟨hp.1, confined_bind f next _ hp.2⟩
  | act _ next, _, hp => by
      refine ⟨hp.1, fun e s s' hs => ?_, fun e s => confined_bind f (next e s) _ (hp.2.2 e s)⟩
      obtain ⟨hstate, hnext⟩ := hp.2.1 e s s' hs
      exact ⟨hstate, congrArg (fun p : Prog μ ε σ α => p.bind f) hnext⟩

theorem confined_through (emb : ν → μ) (hemb : ∀ n, emb n ∉ H) {p : Prog μ ε σ α}
    (hp : p.Confined G K H) : ∀ ms : List ν, (through emb ms p).Confined G K H
  | [] => hp
  | m :: ms => by
      refine ⟨Set.mem_insert _ _, ?_⟩
      rw [Set.insert_sdiff_self_of_notMem (hemb m)]
      exact confined_through emb hemb hp ms

/-- A confined block, where the mutexes it passes through are free to be taken. -/
theorem confined_block (emb : ν → μ) (hemb : ∀ n, emb n ∉ H) {b : Block ν ε σ α}
    (hb : b.Confined G H) (hK : ∀ a, K a H) : (block emb b).Confined G K H := by
  refine ⟨hb.frame, fun e s s' hs => ?_, fun e s => ?_⟩
  · obtain ⟨hvalue, hpassed, hstate⟩ := hb.even.same e s s' hs trivial
    refine ⟨hstate, ?_⟩
    dsimp only
    rw [hvalue, hpassed]
  · exact confined_through emb hemb (p := ret _) (hK _) _

theorem confined_holding {m : μ} (hm : m ∉ H) {p : Prog μ ε σ α}
    (hp : p.Confined G (fun a H' => H' = insert m H ∧ K a H) (insert m H)) :
    (holding m p).Confined G K H := by
  apply confined_bind (fun a => unlock m (ret a)) p (insert m H)
  refine confined_mono ?_ p _ hp
  rintro a H' ⟨rfl, ha⟩
  refine ⟨Set.mem_insert _ _, ?_⟩
  rw [Set.insert_sdiff_self_of_notMem hm]
  exact ha

/-! ### Tables out of reach -/

/-- The program takes no mutex outside `L`. -/
def Takes (L : Set μ) : Prog μ ε σ α → Prop
  | ret _ => True
  | lock m next => m ∈ L ∧ next.Takes L
  | unlock _ next => next.Takes L
  | act _ next => ∀ e s, (next e s).Takes L

variable {L : Set μ}

theorem takes_bind {f : α → Prog μ ε σ β} (hf : ∀ a, (f a).Takes L) :
    ∀ p : Prog μ ε σ α, p.Takes L → (p >>= f).Takes L
  | ret a, _ => hf a
  | lock _ next, hp => ⟨hp.1, takes_bind hf next hp.2⟩
  | unlock _ next, hp => takes_bind hf next hp
  | act _ next, hp => fun e s => takes_bind hf (next e s) (hp e s)

theorem takes_ite {c : Prop} [Decidable c] {p p' : Prog μ ε σ α} (hp : p.Takes L) (hp' : p'.Takes L) :
    (if c then p else p').Takes L := by
  split
  · exact hp
  · exact hp'

theorem takes_block (emb : ν → μ) (hemb : ∀ n, emb n ∈ L) (b : Block ν ε σ α) : (block emb b).Takes L := by
  have hthrough : ∀ (ms : List ν) (a : α), (through emb ms (ret a) : Prog μ ε σ α).Takes L := by
    intro ms a
    induction ms with
    | nil => exact trivial
    | cons m ms ih => exact ⟨hemb m, ih⟩
  exact fun e s => hthrough _ _

theorem takes_holding {m : μ} (hm : m ∈ L) {p : Prog μ ε σ α} (hp : p.Takes L) :
    (holding m p).Takes L := by
  refine ⟨hm, ?_⟩
  apply takes_bind (f := fun a => unlock m (ret a)) _ p hp
  exact fun _ => trivial

/-- A confined program leaves a table alone whose mutex it neither holds nor takes. -/
theorem Confined.guar {k : κ} (hL : G.mutex k ∉ L) :
    ∀ (p : Prog μ ε σ α) (H : Set μ), G.mutex k ∉ H → p.Confined G K H → p.Takes L →
      p.Guar (fun _ => True) (G.Same k) fun _ => True
  | ret _, _, _, _, _ => trivial
  | lock m next, H, hH, hp, htakes => by
      refine Confined.guar hL next (insert m H) ?_ hp htakes.2
      rintro (rfl | hmem)
      · exact hL htakes.1
      · exact hH hmem
  | unlock m next, H, hH, hp, htakes => by
      refine Confined.guar hL next (H \ {m}) ?_ hp.2 htakes
      exact fun hmem => hH hmem.1
  | act f next, H, hH, hp, htakes => fun e s _ => by
      refine ⟨hp.1 e s k hH, ?_⟩
      exact Confined.guar hL (next e s) H hH (hp.2.2 e s) (htakes e s)

end Prog

/-! ## Configurations -/

namespace Config

variable [DecidableEq τ] [DecidableEq μ] {G : Guarding κ μ σ} {c c' : Config τ μ ε σ}

/-- Every thread is confined to what it holds, and ends with nothing. -/
def Confined (G : Guarding κ μ σ) (c : Config τ μ ε σ) : Prop :=
  ∀ t, (c.prog t).Confined G (fun _ H => H = ∅) {m | c.owner m = some t}

omit [DecidableEq τ] [DecidableEq μ] in
theorem confined_setShared (h : c.Confined G) (s : σ) : (c.setShared s).Confined G := h

omit [DecidableEq τ] [DecidableEq μ] in
/-- A finished thread owns no mutex. -/
theorem Confined.owns_nothing (h : c.Confined G) {t : τ} (hdone : (c.prog t).isDone = true) :
    {m | c.owner m = some t} = ∅ := by
  have ht := h t
  obtain ⟨a, hp⟩ := Prog.eq_ret_of_done hdone
  rw [hp] at ht
  exact ht

omit [DecidableEq μ] in
theorem confined_start (h : c.Confined G) {t : τ} (hdone : (c.prog t).isDone = true)
    {p : Prog μ ε σ Unit} (hp : p.Confined G (fun _ H => H = ∅) ∅) : (c.start t p).Confined G := by
  intro u
  show ((c.start t p).prog u).Confined G _ {m | c.owner m = some u}
  by_cases hu : u = t
  · subst hu
    rw [h.owns_nothing hdone]
    simpa [start] using hp
  · simpa [start, Function.update_of_ne hu] using h u

/-- One step of a thread keeps every thread confined. -/
theorem Confined.stepThread (h : c.Confined G) {t : τ} {e : ε} (hstep : c.stepThread t e = some c') :
    c'.Confined G := by
  have ht := h t
  rcases stepThread_cases hstep with ⟨m, next, hp, hfree, rfl⟩ | ⟨m, next, hp, rfl⟩ |
    ⟨f, next, hp, rfl⟩
  · -- the thread takes a mutex that is free
    rw [hp] at ht
    intro u
    by_cases hu : u = t
    · subst hu
      have hset : {m' | Function.update c.owner m (some u) m' = some u} =
          insert m {m' | c.owner m' = some u} := by
        ext m'
        by_cases hm : m' = m
        · simp [hm]
        · simp [hm]
      show (Function.update c.prog u next u).Confined G _ _
      rw [hset, Function.update_self]
      exact ht
    · have hset : {m' | Function.update c.owner m (some t) m' = some u} = {m' | c.owner m' = some u} := by
        ext m'
        by_cases hm : m' = m
        · simp [hm, hfree, Ne.symm hu]
        · simp [Function.update_of_ne hm]
      show (Function.update c.prog t next u).Confined G _ _
      rw [hset, Function.update_of_ne hu]
      exact h u
  · -- it releases one that it owns
    rw [hp] at ht
    have hown : c.owner m = some t := ht.1
    intro u
    by_cases hu : u = t
    · subst hu
      have hset : {m' | Function.update c.owner m none m' = some u} =
          {m' | c.owner m' = some u} \ {m} := by
        ext m'
        by_cases hm : m' = m
        · simp [hm]
        · simp [hm]
      show (Function.update c.prog u next u).Confined G _ _
      rw [hset, Function.update_self]
      exact ht.2
    · have hset : {m' | Function.update c.owner m none m' = some u} = {m' | c.owner m' = some u} := by
        ext m'
        by_cases hm : m' = m
        · simp [hm, hown, Ne.symm hu]
        · simp [Function.update_of_ne hm]
      show (Function.update c.prog t next u).Confined G _ _
      rw [hset, Function.update_of_ne hu]
      exact h u
  · -- it acts
    rw [hp] at ht
    intro u
    by_cases hu : u = t
    · subst hu
      show (Function.update c.prog u (next e c.shared) u).Confined G _ _
      rw [Function.update_self]
      exact ht.2.2 e c.shared
    · show (Function.update c.prog t (next e c.shared) u).Confined G _ _
      rw [Function.update_of_ne hu]
      exact h u

/-! ## Who touches a table -/

/-- The states differ at most in the table `k`. -/
def Apart (G : Guarding κ μ σ) (k : κ) (s s' : σ) : Prop :=
  G.Rest s s' ∧ ∀ k', k' ≠ k → G.Same k' s s'

/-- The next step of the thread is an action that may change the table, or that can do something else
where only the table is another one. -/
def Touches (G : Guarding κ μ σ) (c : Config τ μ ε σ) (t : τ) (k : κ) : Prop :=
  ∃ f next, c.prog t = .act f next ∧ ∃ e s, ¬G.Same k s (f e s) ∨
    ∃ s', Apart G k s s' ∧ ¬(Apart G k (f e s) (f e s') ∧ next e s' = next e s)

omit [DecidableEq τ] [DecidableEq μ] in
/-- Only the owner of its mutex touches a table. -/
theorem Confined.owner_of_touches (h : c.Confined G) {t : τ} {k : κ}
    (htouch : c.Touches G t k) : c.owner (G.mutex k) = some t := by
  obtain ⟨f, next, hp, e, s, hdoes⟩ := htouch
  have ht := h t
  rw [hp] at ht
  obtain ⟨hframe, heven, -⟩ := ht
  by_contra hnot
  rcases hdoes with hchanged | ⟨s', ⟨hrest, hothers⟩, hdiffers⟩
  · exact hchanged (hframe e s k hnot)
  · -- what the thread can see is the same in both states
    have hagree : G.Agree {m | c.owner m = some t} s s' := by
      refine ⟨hrest, fun k' hk' => hothers k' ?_⟩
      rintro rfl
      exact hnot hk'
    obtain ⟨⟨hrest', hseen⟩, hnext⟩ := heven e s s' hagree
    refine hdiffers ⟨⟨hrest', fun k' hk' => ?_⟩, hnext⟩
    by_cases hmem : G.mutex k' ∈ {m | c.owner m = some t}
    · exact hseen k' hmem
    · -- what it cannot see it leaves alone
      have hs := hframe e s k' hmem
      have hs' := hframe e s' k' hmem
      exact (G.equivalence k').trans ((G.equivalence k').symm hs)
        ((G.equivalence k').trans (hothers k' hk') hs')

end Config

end TerminalChat.Concurrency
