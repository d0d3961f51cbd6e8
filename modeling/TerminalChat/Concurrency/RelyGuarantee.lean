import TerminalChat.Concurrency.Threads

/-!
# Contracts between threads

A contract of a thread (`Contract`) says what the thread relies on while it holds some mutexes, and what
each of its actions guarantees. An action may also update a private note, which stands for what the thread
still owes or has in hand. A mutex protects a part of the state when every thread relies on that part
standing still while it holds the mutex and changes it only then: two threads never hold the same mutex,
so the guarantee of the one is what the other relies on.

The soundness theorem (`Config.honoured_stepThread`) says that along every step of a configuration the
contracts stay honoured, and that the state moves only as the moving thread guarantees.
-/

set_option autoImplicit false

namespace TerminalChat.Concurrency

variable {τ μ ν ε σ γ α β : Type}

/-- What a thread relies on while it holds the mutexes `H`, and what an action of it may do then: it
reads an environment value, moves the state, and updates the note of the thread. -/
structure Contract (μ ε σ γ : Type) where
  rely : List μ → σ → σ → Prop
  guarantee : List μ → γ → γ → ε → σ → σ → Prop
  rely_refl : ∀ H s, rely H s s
  rely_trans : ∀ H s s' s'', rely H s s' → rely H s' s'' → rely H s s''
  rely_mono : ∀ m H s s', rely (m :: H) s s' → rely H s s'

namespace Prog

variable [DecidableEq μ]

/-- Started with the mutexes `H` and the note `g` in a state that the others may still move, the
program keeps the contract `C` and ends with `Q`. -/
def Honours (C : Contract μ ε σ γ) (Q : α → γ → List μ → σ → Prop) :
    Prog μ ε σ α → γ → List μ → σ → Prop
  | ret a, g, H, s => Q a g H s
  | lock m next, g, H, s => ∀ s', C.rely H s s' → next.Honours C Q g (m :: H) s'
  | unlock m next, g, H, s => m ∈ H ∧ ∀ s', C.rely H s s' → next.Honours C Q g (H.erase m) s'
  | act f next, g, H, s => ∀ e s', C.rely H s s' → ∃ g', C.guarantee H g g' e s' (f e s') ∧
      (next e s').Honours C Q g' H (f e s')

/-- An assertion about the note and the state that the others keep true. -/
def Stable (C : Contract μ ε σ γ) (H : List μ) (P : γ → σ → Prop) : Prop :=
  ∀ g s s', C.rely H s s' → P g s → P g s'

/-- Started with the mutexes `H` where `P` holds, the program keeps the contract and ends with the
same mutexes and with `Q`. -/
def Triple (C : Contract μ ε σ γ) (H : List μ) (P : γ → σ → Prop) (p : Prog μ ε σ α)
    (Q : α → γ → σ → Prop) : Prop :=
  ∀ g s, P g s → p.Honours C (fun a g' H' s' => H' = H ∧ Q a g' s') g H s

section Rules

variable {C : Contract μ ε σ γ} {g : γ} {H : List μ} {s : σ}

theorem honours_mono {Q Q' : α → γ → List μ → σ → Prop} (h : ∀ a g H s, Q a g H s → Q' a g H s) :
    ∀ (p : Prog μ ε σ α) (g : γ) (H : List μ) (s : σ), p.Honours C Q g H s → p.Honours C Q' g H s
  | ret a, g, H, s, hp => h a g H s hp
  | lock _ next, _, _, _, hp => fun s' hs => honours_mono h next _ _ s' (hp s' hs)
  | unlock _ next, _, _, _, hp => ⟨hp.1, fun s' hs => honours_mono h next _ _ s' (hp.2 s' hs)⟩
  | act _ next, _, _, _, hp => fun e s' hs => by
      obtain ⟨g', hg, hn⟩ := hp e s' hs
      exact ⟨g', hg, honours_mono h (next e s') _ _ _ hn⟩

theorem honours_bind (f : α → Prog μ ε σ β) {Q : β → γ → List μ → σ → Prop} :
    ∀ (p : Prog μ ε σ α) (g : γ) (H : List μ) (s : σ),
      p.Honours C (fun a g' H' s' => (f a).Honours C Q g' H' s') g H s →
        (p >>= f).Honours C Q g H s
  | ret _, _, _, _, hp => hp
  | lock _ next, _, _, _, hp => fun s' hs => honours_bind f next _ _ s' (hp s' hs)
  | unlock _ next, _, _, _, hp => ⟨hp.1, fun s' hs => honours_bind f next _ _ s' (hp.2 s' hs)⟩
  | act _ next, _, _, _, hp => fun e s' hs => by
      obtain ⟨g', hg, hn⟩ := hp e s' hs
      exact ⟨g', hg, honours_bind f (next e s') _ _ _ hn⟩

/-- A contract that is honoured stays so while the others move the state. -/
theorem honours_stable {Q : α → γ → List μ → σ → Prop}
    (hQ : ∀ a g H s s', Q a g H s → C.rely H s s' → Q a g H s') (p : Prog μ ε σ α) {s' : σ}
    (hp : p.Honours C Q g H s) (hs : C.rely H s s') : p.Honours C Q g H s' := by
  cases p with
  | ret a => exact hQ a g H s s' hp hs
  | lock m next => exact fun t ht => hp t (C.rely_trans H s s' t hs ht)
  | unlock m next => exact ⟨hp.1, fun t ht => hp.2 t (C.rely_trans H s s' t hs ht)⟩
  | act f next => exact fun e t ht => hp e t (C.rely_trans H s s' t hs ht)

theorem honours_through {Q : α → γ → List μ → σ → Prop} (emb : ν → μ) (p : Prog μ ε σ α) :
    ∀ (ms : List ν) (s : σ), (∀ s', C.rely H s s' → p.Honours C Q g H s') →
      (through emb ms p).Honours C Q g H s
  | [], s, hp => hp s (C.rely_refl H s)
  | m :: ms, s, hp => by
      intro s₁ h₁
      refine ⟨List.mem_cons_self, fun s₂ h₂ => ?_⟩
      rw [List.erase_cons_head]
      -- what the others do while the mutex of the block is held, they may do without it
      have h : C.rely H s s₂ := C.rely_trans H s s₁ s₂ h₁ (C.rely_mono (emb m) H s₁ s₂ h₂)
      exact honours_through emb p ms s₂ fun s₃ h₃ => hp s₃ (C.rely_trans H s s₂ s₃ h h₃)

end Rules

section Triples

variable {C : Contract μ ε σ γ} {H : List μ} {P P' : γ → σ → Prop} {Q Q' : α → γ → σ → Prop}

omit [DecidableEq μ] in
theorem Stable.cons (hP : Stable C H P) (m : μ) : Stable C (m :: H) P :=
  fun g s s' hs => hP g s s' (C.rely_mono m H s s' hs)

theorem triple_mono {p : Prog μ ε σ α} (hp : Triple C H P p Q) (hP : ∀ g s, P' g s → P g s)
    (hQ : ∀ a g s, Q a g s → Q' a g s) : Triple C H P' p Q' := by
  intro g s h
  refine honours_mono ?_ p g H s (hp g s (hP g s h))
  rintro a g' H' s' ⟨rfl, hq⟩
  exact ⟨rfl, hQ a g' s' hq⟩

theorem triple_pure {a : α} (h : ∀ g s, P g s → Q a g s) : Triple C H P (pure a) Q :=
  fun g s hp => ⟨rfl, h g s hp⟩

/-- Sequential composition. -/
theorem triple_bind {R : β → γ → σ → Prop} {p : Prog μ ε σ β} {f : β → Prog μ ε σ α}
    (hp : Triple C H P p R) (hf : ∀ b, Triple C H (R b) (f b) Q) : Triple C H P (p >>= f) Q := by
  intro g s h
  refine honours_bind f p g H s (honours_mono ?_ p g H s (hp g s h))
  rintro b g' H' s' ⟨rfl, hr⟩
  exact hf b g' s' hr

theorem triple_ite (c : Prop) [Decidable c] {p p' : Prog μ ε σ α} (hp : c → Triple C H P p Q)
    (hp' : ¬c → Triple C H P p' Q) : Triple C H P (if c then p else p') Q := by
  by_cases hc : c
  · rw [if_pos hc]
    exact hp hc
  · rw [if_neg hc]
    exact hp' hc

/-- A block is one action; before it and after it the others may move the state. -/
theorem triple_block (emb : ν → μ) {b : Block ν ε σ α} (hP : Stable C H P)
    (hQ : ∀ a, Stable C H (Q a)) (hb : ∀ e g s, P g s →
      b.post e s fun a s' => ∃ g', C.guarantee H g g' e s s' ∧ Q a g' s') :
    Triple C H P (block emb b) Q := by
  intro g s h e s' hs
  obtain ⟨g', hg, hq⟩ := hb e g s' (hP g s s' hs h)
  refine ⟨g', hg, honours_through emb _ _ _ fun s₂ h₂ => ⟨rfl, ?_⟩⟩
  exact hQ _ g' _ s₂ h₂ hq

/-- A program under a mutex; before the mutex is taken and before it is released the others may move
the state. -/
theorem triple_holding {m : μ} {p : Prog μ ε σ α} (hP : Stable C H P) (hQ : ∀ a, Stable C H (Q a))
    (hp : Triple C (m :: H) P p Q) : Triple C H P (holding m p) Q := by
  intro g s h s' hs
  refine honours_bind _ p g (m :: H) s' (honours_mono ?_ p g (m :: H) s'
    (hp g s' (hP g s s' hs h)))
  rintro a g' H' s₁ ⟨rfl, hq⟩
  refine ⟨List.mem_cons_self, fun s₂ h₂ => ⟨List.erase_cons_head _ _, ?_⟩⟩
  exact (hQ a).cons m g' s₁ s₂ h₂ hq

/-- Giving up the mutex for a while. -/
theorem triple_yield {m : μ} {P : γ → σ → Prop} (hP : Stable C H P) :
    Triple C (m :: H) P (unlock m (lock m (pure ()))) fun _ => P := by
  intro g s h
  refine ⟨List.mem_cons_self, fun s₁ h₁ => ?_⟩
  rw [List.erase_cons_head]
  intro s₂ h₂
  exact ⟨rfl, hP g s₁ s₂ h₂ (hP.cons m g s s₁ h₁ h)⟩

end Triples

end Prog

/-! ## Soundness -/

namespace Config

variable [DecidableEq τ] [DecidableEq μ]

/-- Whatever a thread guarantees while it holds the mutexes `K`, another thread that holds none of
them relies on. -/
def Compatible (C : τ → Contract μ ε σ γ) : Prop :=
  ∀ t u, t ≠ u → ∀ (H K : List μ) (g g' : γ) (e : ε) (s s' : σ), (∀ m ∈ H, m ∉ K) →
    (C u).guarantee K g g' e s s' → (C t).rely H s s'

/-- The owner table agrees with the mutexes `held` by each thread, and the remaining program of every
thread keeps its contract from there and ends with `Q`. -/
structure Honoured (C : τ → Contract μ ε σ γ) (Q : τ → γ → σ → Prop) (c : Config τ μ ε σ)
    (note : τ → γ) (held : τ → List μ) : Prop where
  owner_iff : ∀ m t, c.owner m = some t ↔ m ∈ held t
  nodup : ∀ t, (held t).Nodup
  honours : ∀ t, (c.prog t).Honours (C t) (fun _ g H s => H = [] ∧ Q t g s) (note t) (held t) c.shared

variable {C : τ → Contract μ ε σ γ} {Q : τ → γ → σ → Prop} {c c' : Config τ μ ε σ} {note : τ → γ}
  {held : τ → List μ}

omit [DecidableEq τ] in
theorem Honoured.disjoint (hh : Honoured C Q c note held) {t u : τ} (h : t ≠ u) :
    ∀ m ∈ held t, m ∉ held u := by
  intro m ht hu
  rw [← hh.owner_iff] at ht hu
  rw [ht, Option.some.injEq] at hu
  exact h hu

omit [DecidableEq τ] in
/-- A finished thread holds no mutex, and its postcondition holds. -/
theorem Honoured.of_done (hh : Honoured C Q c note held) {t : τ} (hp : (c.prog t).isDone = true) :
    held t = [] ∧ Q t (note t) c.shared := by
  have h := hh.honours t
  cases hq : c.prog t with
  | ret a =>
      rw [hq] at h
      exact h
  | lock m next => simp [hq, Prog.isDone] at hp
  | unlock m next => simp [hq, Prog.isDone] at hp
  | act f next => simp [hq, Prog.isDone] at hp

omit [DecidableEq τ] in
/-- The surroundings move the state, as every thread relies on. -/
theorem honoured_setShared (hQ : ∀ t g s s', Q t g s → (C t).rely [] s s' → Q t g s')
    (hh : Honoured C Q c note held) {s : σ} (hs : ∀ t, (C t).rely (held t) c.shared s) :
    Honoured C Q (c.setShared s) note held := by
  refine ⟨hh.owner_iff, hh.nodup, fun t => ?_⟩
  refine Prog.honours_stable ?_ (c.prog t) (hh.honours t) (hs t)
  rintro _ g H s s' ⟨rfl, hq⟩ hrely
  exact ⟨rfl, hQ t g s s' hq hrely⟩

/-- A finished thread starts a program that keeps its contract. -/
theorem honoured_start (hh : Honoured C Q c note held) {t : τ} {p : Prog μ ε σ Unit}
    (hdone : (c.prog t).isDone = true)
    {P : γ → σ → Prop} (hP : P (note t) c.shared)
    (hp : Prog.Triple (C t) [] P p fun _ => Q t) : Honoured C Q (c.start t p) note held := by
  refine ⟨hh.owner_iff, hh.nodup, fun u => ?_⟩
  by_cases hu : u = t
  · subst hu
    have hheld := (hh.of_done hdone).1
    rw [hheld]
    simpa [start] using hp _ _ hP
  · simpa [start, Function.update_of_ne hu] using hh.honours u

/-- Along one step the contracts stay honoured, and the state moves as the thread guarantees or not
at all. -/
theorem honoured_stepThread (hC : Compatible C)
    (hQ : ∀ t g s s', Q t g s → (C t).rely [] s s' → Q t g s')
    (hh : Honoured C Q c note held) {t : τ} {e : ε} (h : c.stepThread t e = some c') :
    ((c.prog t).isAct = false ∧ c'.shared = c.shared ∧ ∃ held', Honoured C Q c' note held') ∨
    ((c.prog t).isAct = true ∧ ∃ g', (C t).guarantee (held t) (note t) g' e c.shared c'.shared ∧
      Honoured C Q c' (Function.update note t g') held) := by
  have ht := hh.honours t
  rcases stepThread_cases h with ⟨m, next, hp, hfree, rfl⟩ | ⟨m, next, hp, rfl⟩ |
    ⟨f, next, hp, rfl⟩
  · -- the thread takes a free mutex
    rw [hp] at ht
    refine Or.inl ⟨by rw [hp]; rfl, rfl, Function.update held t (m :: held t), ?_, ?_, ?_⟩
    · -- the owner table and the held mutexes agree as before; another thread did not hold the free mutex
      intro m' u
      by_cases hm : m' = m
      · subst hm
        by_cases hu : u = t
        · simp [hu]
        · have hout : m' ∉ held u := by
            intro hmem
            rw [← hh.owner_iff, hfree] at hmem
            simp at hmem
          simp [Function.update_of_ne hu, hout, Ne.symm hu]
      · by_cases hu : u = t
        · subst hu
          simp [hm, hh.owner_iff]
        · simp [Function.update_of_ne hm, Function.update_of_ne hu, hh.owner_iff]
    · intro u
      by_cases hu : u = t
      · subst hu
        have hout : m ∉ held u := by
          intro hmem
          rw [← hh.owner_iff, hfree] at hmem
          simp at hmem
        simpa using ⟨hout, hh.nodup u⟩
      · simpa [Function.update_of_ne hu] using hh.nodup u
    · intro u
      by_cases hu : u = t
      · subst hu
        simpa using ht c.shared ((C u).rely_refl _ _)
      · simpa [Function.update_of_ne hu] using hh.honours u
  · -- the thread releases a mutex
    rw [hp] at ht
    have hown : c.owner m = some t := (hh.owner_iff m t).2 ht.1
    refine Or.inl ⟨by rw [hp]; rfl, rfl, Function.update held t ((held t).erase m), ?_, ?_, ?_⟩
    · intro m' u
      by_cases hu : u = t
      · subst hu
        by_cases hm : m' = m
        · subst hm
          simp [(hh.nodup u).mem_erase_iff]
        · simp [(hh.nodup u).mem_erase_iff, hm, hh.owner_iff]
      · by_cases hm : m' = m
        · subst hm
          have hout : m' ∉ held u := hh.disjoint (Ne.symm hu) m' ht.1
          simp [Function.update_of_ne hu, hout]
        · simp [Function.update_of_ne hm, Function.update_of_ne hu, hh.owner_iff]
    · intro u
      by_cases hu : u = t
      · subst hu
        simpa using (hh.nodup u).erase m
      · simpa [Function.update_of_ne hu] using hh.nodup u
    · intro u
      by_cases hu : u = t
      · subst hu
        simpa using ht.2 c.shared ((C u).rely_refl _ _)
      · simpa [Function.update_of_ne hu] using hh.honours u
  · -- the thread acts: the others rely on what it guarantees
    rw [hp] at ht
    obtain ⟨g', hg, hn⟩ := ht e c.shared ((C t).rely_refl _ _)
    refine Or.inr ⟨by rw [hp]; rfl, g', hg, hh.owner_iff, hh.nodup, fun u => ?_⟩
    by_cases hu : u = t
    · subst hu
      simpa using hn
    · have hrely : (C u).rely (held u) c.shared (f e c.shared) :=
        hC u t hu _ _ _ _ _ _ _ (hh.disjoint hu) hg
      -- what the others owe is stable under what this action guarantees
      have hstable := Prog.honours_stable (Q := fun _ g H s => H = [] ∧ Q u g s) (by
        rintro _ g H s s' ⟨rfl, hq⟩ hs
        exact ⟨rfl, hQ u g s s' hq hs⟩) (c.prog u) (hh.honours u) hrely
      simpa [Function.update_of_ne hu] using hstable

/-! ## One thread -/

section OneThread

variable {C : Contract μ ε σ γ} {Q : Unit → γ → List μ → σ → Prop} {c c' : Config τ μ ε σ} {g : γ}
  {H : List μ}

/-- A thread that moves keeps its contract, whatever the contracts of the others are: it takes or
releases a mutex, or its action is one that the contract allows. -/
theorem honours_stepThread {t : τ} {e : ε} (h : c.stepThread t e = some c')
    (ht : (c.prog t).Honours C Q g H c.shared) :
    (c'.shared = c.shared ∧ (c.prog t).isAct = false ∧
      ∃ H', (c'.prog t).Honours C Q g H' c'.shared) ∨
    ((c.prog t).isAct = true ∧ ∃ g', C.guarantee H g g' e c.shared c'.shared ∧
      (c'.prog t).Honours C Q g' H c'.shared) := by
  rcases stepThread_cases h with ⟨m, next, hp, -, rfl⟩ | ⟨m, next, hp, rfl⟩ | ⟨f, next, hp, rfl⟩
  · rw [hp] at ht
    refine Or.inl ⟨rfl, by rw [hp]; rfl, m :: H, ?_⟩
    simpa using ht c.shared (C.rely_refl _ _)
  · rw [hp] at ht
    refine Or.inl ⟨rfl, by rw [hp]; rfl, H.erase m, ?_⟩
    simpa using ht.2 c.shared (C.rely_refl _ _)
  · rw [hp] at ht
    obtain ⟨g', hg, hn⟩ := ht e c.shared (C.rely_refl _ _)
    refine Or.inr ⟨by rw [hp]; rfl, g', hg, ?_⟩
    simpa using hn

end OneThread

end Config

end TerminalChat.Concurrency
