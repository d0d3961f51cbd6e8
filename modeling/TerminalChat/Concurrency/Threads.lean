import TerminalChat.Concurrency.Program
import Mathlib.Logic.Function.Basic

/-!
# Threads that share a state and a set of mutexes

A configuration holds the shared state, the owner of every mutex, and the remaining program of every
thread. One step of a thread (`Config.stepThread`) takes a free mutex, releases one, or performs an action.

The transfer lemmas say what one step of a thread does to the three predicate transformers of
`Program.lean`: the moving thread keeps its own precondition, a thread that stands still keeps it
under interference, and lock discipline is kept by every step (`Config.disciplined_stepThread`). In a deadlock
every thread of a set waits for a mutex that another one holds (`Config.Deadlocked.hold_and_wait`).
-/

set_option autoImplicit false

namespace TerminalChat.Concurrency

variable {τ μ ε σ : Type} [DecidableEq τ] [DecidableEq μ]

/-- Shared state, owners of the mutexes, remaining programs of the threads. -/
structure Config (τ μ ε σ : Type) where
  shared : σ
  owner : μ → Option τ
  prog : τ → Prog μ ε σ Unit

namespace Config

/-- One step of thread `t`; none when it is finished or waits for a mutex. -/
def stepThread (c : Config τ μ ε σ) (t : τ) (e : ε) : Option (Config τ μ ε σ) :=
  match c.prog t with
  | .ret _ => none
  | .lock m next =>
      match c.owner m with
      | none => some { c with
          owner := Function.update c.owner m (some t)
          prog := Function.update c.prog t next }
      | some _ => none
  | .unlock m next => some { c with
      owner := Function.update c.owner m none
      prog := Function.update c.prog t next }
  | .act f next => some { c with
      shared := f e c.shared
      prog := Function.update c.prog t (next e c.shared) }

/-- Give thread `t` the program `p`. -/
def start (c : Config τ μ ε σ) (t : τ) (p : Prog μ ε σ Unit) : Config τ μ ε σ :=
  { c with prog := Function.update c.prog t p }

/-- Change the shared state, no thread moving. -/
def setShared (c : Config τ μ ε σ) (s : σ) : Config τ μ ε σ := { c with shared := s }

/-- Everything one step of a thread can do. -/
theorem stepThread_cases {c c' : Config τ μ ε σ} {t : τ} {e : ε}
    (h : c.stepThread t e = some c') :
    (∃ m next, c.prog t = .lock m next ∧ c.owner m = none ∧
      c' = ⟨c.shared, Function.update c.owner m (some t), Function.update c.prog t next⟩) ∨
    (∃ m next, c.prog t = .unlock m next ∧
      c' = ⟨c.shared, Function.update c.owner m none, Function.update c.prog t next⟩) ∨
    (∃ f next, c.prog t = .act f next ∧
      c' = ⟨f e c.shared, c.owner, Function.update c.prog t (next e c.shared)⟩) := by
  cases hp : c.prog t with
  | ret a => simp [stepThread, hp] at h
  | lock m next =>
      cases ho : c.owner m with
      | none =>
          simp only [stepThread, hp, ho, Option.some.injEq] at h
          exact Or.inl ⟨m, next, rfl, ho, h.symm⟩
      | some u => simp [stepThread, hp, ho] at h
  | unlock m next =>
      simp only [stepThread, hp, Option.some.injEq] at h
      exact Or.inr (Or.inl ⟨m, next, rfl, h.symm⟩)
  | act f next =>
      simp only [stepThread, hp, Option.some.injEq] at h
      exact Or.inr (Or.inr ⟨f, next, rfl, h.symm⟩)

theorem stepThread_prog_of_ne {c c' : Config τ μ ε σ} {t u : τ} {e : ε}
    (h : c.stepThread t e = some c') (hu : u ≠ t) : c'.prog u = c.prog u := by
  rcases stepThread_cases h with ⟨m, next, -, -, rfl⟩ | ⟨m, next, -, rfl⟩ | ⟨f, next, -, rfl⟩ <;>
    simp [Function.update_of_ne hu]

/-! ## Preconditions and guarantees along a step -/

section Transfer

variable {R G : σ → σ → Prop} {Q : Unit → σ → Prop} {P : σ → Prop} {K : Unit → Prop}

/-- A thread that moves keeps its precondition. -/
theorem wp_stepThread (hR : ∀ s, R s s) {c c' : Config τ μ ε σ} {t : τ} {e : ε}
    (h : c.stepThread t e = some c') (hw : (c.prog t).wp R Q c.shared) :
    (c'.prog t).wp R Q c'.shared := by
  rcases stepThread_cases h with ⟨m, next, hp, -, rfl⟩ | ⟨m, next, hp, rfl⟩ | ⟨f, next, hp, rfl⟩
  · rw [hp] at hw
    simpa [Prog.wp] using hw
  · rw [hp] at hw
    simpa [Prog.wp] using hw
  · rw [hp] at hw
    simpa using hw e c.shared (hR _)

/-- A thread that moves keeps its guarantee, and the state moves along it or not at all. -/
theorem guar_stepThread {c c' : Config τ μ ε σ} {t : τ} {e : ε}
    (h : c.stepThread t e = some c') (hP : P c.shared) (hg : (c.prog t).Guar P G K) :
    (c'.prog t).Guar P G K ∧ (c'.shared = c.shared ∨ G c.shared c'.shared) := by
  rcases stepThread_cases h with ⟨m, next, hp, -, rfl⟩ | ⟨m, next, hp, rfl⟩ | ⟨f, next, hp, rfl⟩
  · rw [hp] at hg
    exact ⟨by simpa [Prog.Guar] using hg, Or.inl rfl⟩
  · rw [hp] at hg
    exact ⟨by simpa [Prog.Guar] using hg, Or.inl rfl⟩
  · rw [hp] at hg
    obtain ⟨h1, h2⟩ := hg e c.shared hP
    exact ⟨by simpa using h2, Or.inr h1⟩

end Transfer

/-! ## Lock discipline along a step -/

/-- The owner table agrees with the mutexes `held` by each thread, and every remaining program keeps
the discipline `ok` from there. -/
structure Disciplined (ok : τ → List μ → Bool → μ → Prop) (c : Config τ μ ε σ)
    (held : τ → List μ) (acted : τ → Bool) : Prop where
  owner_iff : ∀ m t, c.owner m = some t ↔ m ∈ held t
  nodup : ∀ t, (held t).Nodup
  locks : ∀ t, (c.prog t).Locks (ok t) (fun _ H _ => H = []) (held t) (acted t)

variable {ok : τ → List μ → Bool → μ → Prop} {c c' : Config τ μ ε σ} {held : τ → List μ}
  {acted : τ → Bool}

omit [DecidableEq τ] in
theorem Disciplined.ok_of_lock (hd : Disciplined ok c held acted) {t : τ} {m : μ}
    {next : Prog μ ε σ Unit} (hp : c.prog t = .lock m next) : ok t (held t) (acted t) m := by
  have h := hd.locks t
  rw [hp] at h
  exact h.1

omit [DecidableEq τ] in
/-- A finished thread holds no mutex. -/
theorem Disciplined.held_of_done (hd : Disciplined ok c held acted) {t : τ}
    (hp : (c.prog t).isDone = true) : held t = [] := by
  have h := hd.locks t
  cases hq : c.prog t with
  | ret a =>
      rw [hq] at h
      exact h
  | lock m next => simp [hq, Prog.isDone] at hp
  | unlock m next => simp [hq, Prog.isDone] at hp
  | act f next => simp [hq, Prog.isDone] at hp

omit [DecidableEq τ] in
theorem disciplined_setShared (hd : Disciplined ok c held acted) (s : σ) :
    Disciplined ok (c.setShared s) held acted :=
  ⟨hd.owner_iff, hd.nodup, hd.locks⟩

/-- Starting a disciplined program on a finished thread keeps the discipline. -/
theorem disciplined_start (hd : Disciplined ok c held acted) {t : τ} {p : Prog μ ε σ Unit}
    (hdone : (c.prog t).isDone = true)
    (hp : p.Locks (ok t) (fun _ H _ => H = []) [] (acted t)) :
    Disciplined ok (c.start t p) held acted := by
  refine ⟨hd.owner_iff, hd.nodup, fun u => ?_⟩
  by_cases hu : u = t
  · subst hu
    simpa [start, hd.held_of_done hdone] using hp
  · simpa [start, Function.update_of_ne hu] using hd.locks u

/-- One step of a thread keeps the discipline; the thread's flag records whether it acted. -/
theorem disciplined_stepThread (hd : Disciplined ok c held acted) {t : τ} {e : ε}
    (h : c.stepThread t e = some c') :
    ∃ held', Disciplined ok c' held' (Function.update acted t (c.prog t).isAct) := by
  have ht := hd.locks t
  -- the other threads are where they were
  have hstill : ∀ (held' : τ → List μ) (prog' : Prog μ ε σ Unit),
      (∀ u, u ≠ t → held' u = held u) →
      prog'.Locks (ok t) (fun _ H _ => H = []) (held' t) (c.prog t).isAct →
      ∀ u, (Function.update c.prog t prog' u).Locks (ok u) (fun _ H _ => H = []) (held' u)
        (Function.update acted t (c.prog t).isAct u) := by
    intro held' prog' hne hself u
    by_cases hu : u = t
    · subst hu
      simpa using hself
    · simpa [Function.update_of_ne hu, hne u hu] using hd.locks u
  rcases stepThread_cases h with ⟨m, next, hp, hfree, rfl⟩ | ⟨m, next, hp, rfl⟩ |
    ⟨f, next, hp, rfl⟩
  · rw [hp] at ht
    -- the thread takes a mutex that nobody holds
    have hout : ∀ u, m ∉ held u := fun u hu => by
      have := (hd.owner_iff m u).2 hu
      simp [hfree] at this
    refine ⟨Function.update held t (m :: held t), fun m' u => ?_, fun u => ?_, ?_⟩
    · by_cases hm : m' = m
      · subst hm
        by_cases hu : u = t
        · simp [hu]
        · simp [Function.update_of_ne hu, hout u, Ne.symm hu]
      · by_cases hu : u = t
        · subst hu
          simp [hm, hd.owner_iff]
        · simp [Function.update_of_ne hm, Function.update_of_ne hu, hd.owner_iff]
    · by_cases hu : u = t
      · subst hu
        simpa using ⟨hout u, hd.nodup u⟩
      · simpa [Function.update_of_ne hu] using hd.nodup u
    · exact hstill _ next (fun u hu => by simp [Function.update_of_ne hu])
        (by simpa [hp, Prog.isAct] using ht.2)
  · rw [hp] at ht
    -- the thread releases a mutex, which it owns
    have hown : c.owner m = some t := (hd.owner_iff m t).2 ht.1
    refine ⟨Function.update held t ((held t).erase m), fun m' u => ?_, fun u => ?_, ?_⟩
    · by_cases hu : u = t
      · subst hu
        by_cases hm : m' = m
        · subst hm
          simp [(hd.nodup u).mem_erase_iff]
        · simp [(hd.nodup u).mem_erase_iff, hm, hd.owner_iff]
      · by_cases hm : m' = m
        · subst hm
          have : m' ∉ held u := fun hmu => by
            have := (hd.owner_iff m' u).2 hmu
            rw [hown] at this
            exact hu (Option.some.inj this).symm
          simp [Function.update_of_ne hu, this]
        · simp [Function.update_of_ne hm, Function.update_of_ne hu, hd.owner_iff]
    · by_cases hu : u = t
      · subst hu
        simpa using (hd.nodup u).erase m
      · simpa [Function.update_of_ne hu] using hd.nodup u
    · exact hstill _ next (fun u hu => by simp [Function.update_of_ne hu])
        (by simpa [hp, Prog.isAct] using ht.2)
  · rw [hp] at ht
    exact ⟨held, hd.owner_iff, hd.nodup, hstill held _ (fun _ _ => rfl)
      (by simpa [hp, Prog.isAct] using ht e c.shared)⟩

/-- A thread that has just acted and now stands before a mutex was aiming at it. -/
theorem aims_of_stepThread {t : τ} {e : ε} {m : μ} {next : Prog μ ε σ Unit}
    (h : c.stepThread t e = some c') (hact : (c.prog t).isAct = true)
    (hp : c'.prog t = .lock m next) : (c.prog t).Aims m c.shared := by
  rcases stepThread_cases h with ⟨m', next', hq, -, rfl⟩ | ⟨m', next', hq, rfl⟩ |
    ⟨f, next', hq, rfl⟩
  · simp [hq, Prog.isAct] at hact
  · simp [hq, Prog.isAct] at hact
  · rw [hq]
    refine ⟨e, ?_⟩
    have hn : next' e c.shared = .lock m next := by simpa using hp
    rw [hn]
    rfl

/-! ## Waiting in a circle -/

/-- Thread `t` waits for a mutex that `u` holds. -/
def WaitsFor (c : Config τ μ ε σ) (t u : τ) : Prop :=
  ∃ m next, c.prog t = .lock m next ∧ c.owner m = some u

instance (c : Config τ μ ε σ) (t u : τ) : Decidable (c.WaitsFor t u) :=
  match h : c.prog t with
  | .ret _ => isFalse (by simp [WaitsFor, h])
  | .lock m next => decidable_of_iff (c.owner m = some u) (by simp [WaitsFor, h])
  | .unlock _ _ => isFalse (by simp [WaitsFor, h])
  | .act _ _ => isFalse (by simp [WaitsFor, h])

/-- Every thread of `S` waits for a mutex held by a thread of `S`. The case of one thread is a
thread that waits for a mutex it already holds. -/
def Deadlocked (c : Config τ μ ε σ) (S : Set τ) : Prop :=
  S.Nonempty ∧ ∀ t ∈ S, ∃ u ∈ S, c.WaitsFor t u

omit [DecidableEq τ] in
/-- Hold and wait: in a deadlock every thread stands before a mutex that some thread of the set
holds while it stands before another one. -/
theorem Deadlocked.hold_and_wait {S : Set τ} (hS : c.Deadlocked S)
    (hd : Disciplined ok c held acted) {t : τ} (ht : t ∈ S) :
    ∃ m next, c.prog t = .lock m next ∧ ∃ u ∈ S, m ∈ held u ∧
      ∃ m' next', c.prog u = .lock m' next' ∧ ok u (held u) (acted u) m' := by
  obtain ⟨u, hu, m, next, hp, ho⟩ := hS.2 t ht
  obtain ⟨-, -, m', next', hp', -⟩ := hS.2 u hu
  exact ⟨m, next, hp, u, hu, (hd.owner_iff m u).1 ho, m', next', hp', hd.ok_of_lock hp'⟩

end Config

end TerminalChat.Concurrency
