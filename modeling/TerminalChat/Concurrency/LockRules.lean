import TerminalChat.Concurrency.Threads

/-!
# Where a thread takes its mutexes, by the state it has seen

`Prog.Locks` asks for a discipline whatever the state is. A program that branches on what it reads may
take a mutex on one branch only. `Prog.Obeys D` follows the state: the program takes a mutex only where
`D.mayTake` allows it, by the mutexes it holds and a note that each of its actions moves, while the
others move the state along `D.rely`. A program with `Prog.Locks` has it (`Prog.obeys_of_locks`).

`Config.Obeying` says this of the remaining program of a thread, with the mutexes that the owner table
gives it. It holds from the start of the program (`Config.obeying_start`) along the steps of the thread
(`Config.Obeying.move`) and of the others (`Config.Obeying.stay`).
-/

set_option autoImplicit false

namespace TerminalChat.Concurrency

variable {τ μ ν ε σ γ α β : Type}

/-- How the others move the state, how an action of the thread moves its note, and which mutexes the
thread may take. -/
structure LockRule (μ σ γ : Type) where
  rely : σ → σ → Prop
  advance : γ → σ → σ → γ
  mayTake : List μ → γ → μ → Prop
  rely_refl : ∀ s, rely s s
  rely_trans : ∀ s s' s'', rely s s' → rely s' s'' → rely s s''

namespace Prog

variable [DecidableEq μ]

/-- Started with the mutexes `H` and the note `g`, in the state `s` that the others may still move, the
program takes mutexes as the rule allows and ends with `K`. -/
def Obeys (D : LockRule μ σ γ) (K : α → List μ → γ → σ → Prop) :
    Prog μ ε σ α → List μ → γ → σ → Prop
  | ret a, H, g, s => K a H g s
  | lock m next, H, g, s => D.mayTake H g m ∧ next.Obeys D K (m :: H) g s
  | unlock m next, H, g, s => next.Obeys D K (H.erase m) g s
  | act f next, H, g, s => ∀ e s', D.rely s s' →
      (next e s').Obeys D K H (D.advance g s' (f e s')) (f e s')

section Obeys

variable {D : LockRule μ σ γ} {K : α → List μ → γ → σ → Prop} {H : List μ} {g : γ} {s : σ}

theorem obeys_mono {K' : α → List μ → γ → σ → Prop} (h : ∀ a H g s, K a H g s → K' a H g s) :
    ∀ (p : Prog μ ε σ α) (H : List μ) (g : γ) (s : σ), p.Obeys D K H g s → p.Obeys D K' H g s
  | ret a, H, g, s, hp => h a H g s hp
  | lock _ next, _, _, _, hp => ⟨hp.1, obeys_mono h next _ _ _ hp.2⟩
  | unlock _ next, _, _, _, hp => obeys_mono h next _ _ _ hp
  | act _ next, _, _, _, hp => fun e s' hs => obeys_mono h (next e s') _ _ _ (hp e s' hs)

theorem obeys_bind (f : α → Prog μ ε σ β) {K : β → List μ → γ → σ → Prop} :
    ∀ (p : Prog μ ε σ α) (H : List μ) (g : γ) (s : σ),
      p.Obeys D (fun a H' g' s' => (f a).Obeys D K H' g' s') H g s → (p >>= f).Obeys D K H g s
  | ret _, _, _, _, hp => hp
  | lock _ next, _, _, _, hp => ⟨hp.1, obeys_bind f next _ _ _ hp.2⟩
  | unlock _ next, _, _, _, hp => obeys_bind f next _ _ _ hp
  | act _ next, _, _, _, hp => fun e s' hs => obeys_bind f (next e s') _ _ _ (hp e s' hs)

theorem obeys_through (emb : ν → μ) (p : Prog μ ε σ α) (hleaf : ∀ l, D.mayTake H g (emb l))
    (hp : p.Obeys D K H g s) : ∀ ms : List ν, (through emb ms p).Obeys D K H g s
  | [] => hp
  | m :: ms => by
      refine ⟨hleaf m, ?_⟩
      show (through emb ms p).Obeys D K ((emb m :: H).erase (emb m)) g s
      rw [List.erase_cons_head]
      exact obeys_through emb p hleaf hp ms

/-- A block is one action; the mutexes it passes through are free to be taken. -/
theorem obeys_block (emb : ν → μ) (b : Block ν ε σ α) (hleaf : ∀ g l, D.mayTake H g (emb l))
    (hb : ∀ e s', D.rely s s' → b.post e s' fun a s'' => K a H (D.advance g s' s'') s'') :
    (block emb b).Obeys D K H g s := by
  intro e s' hs
  have hret : (ret (b.exec e s').value : Prog μ ε σ α).Obeys D K H
      (D.advance g s' (b.exec e s').state) (b.exec e s').state := hb e s' hs
  exact obeys_through emb _ (hleaf _) hret _

theorem obeys_holding {m : μ} {p : Prog μ ε σ α} (hm : D.mayTake H g m)
    (hp : p.Obeys D (fun a H' g' s' => K a (H'.erase m) g' s') (m :: H) g s) :
    (holding m p).Obeys D K H g s :=
  ⟨hm, obeys_bind _ p _ _ _ hp⟩

/-- What is kept in every state is kept in the states that are reached. -/
theorem obeys_of_locks {ok : List μ → Bool → μ → Prop} {L : α → List μ → Bool → Prop}
    (hok : ∀ H b g m, ok H b m → D.mayTake H g m) (hK : ∀ a H b g s, L a H b → K a H g s) :
    ∀ (p : Prog μ ε σ α) (H : List μ) (b : Bool) (g : γ) (s : σ),
      p.Locks ok L H b → p.Obeys D K H g s
  | ret a, H, b, g, s, hp => hK a H b g s hp
  | lock m next, H, b, g, _, hp =>
      ⟨hok H b g m hp.1, obeys_of_locks hok hK next _ _ _ _ hp.2⟩
  | unlock _ next, _, _, _, _, hp => obeys_of_locks hok hK next _ _ _ _ hp.2
  | act _ next, _, _, _, _, hp => fun e s' _ => obeys_of_locks hok hK (next e s') _ _ _ _ (hp e s')

/-- The others may move the state. -/
theorem obeys_stable (hK : ∀ a H g s s', K a H g s → D.rely s s' → K a H g s') :
    ∀ (p : Prog μ ε σ α) (H : List μ) (g : γ) (s s' : σ), p.Obeys D K H g s → D.rely s s' →
      p.Obeys D K H g s'
  | ret a, H, g, s, s', hp, hs => hK a H g s s' hp hs
  | lock _ next, _, _, s, s', hp, hs => ⟨hp.1, obeys_stable hK next _ _ s s' hp.2 hs⟩
  | unlock _ next, _, _, s, s', hp, hs => obeys_stable hK next _ _ s s' hp hs
  | act _ _, _, _, s, s', hp, hs => fun e s'' hs' => hp e s'' (D.rely_trans s s' s'' hs hs')

end Obeys

end Prog

namespace Config

variable [DecidableEq τ] [DecidableEq μ]

/-- The remaining program of the thread takes mutexes as the rule allows. -/
def Obeying (D : LockRule μ σ γ) (c : Config τ μ ε σ) (t : τ) (g : γ) : Prop :=
  ∃ H : List μ, H.Nodup ∧ (∀ m, c.owner m = some t ↔ m ∈ H) ∧
    (c.prog t).Obeys D (fun _ _ _ _ => True) H g c.shared

variable {D : LockRule μ σ γ} {c c' : Config τ μ ε σ} {t : τ} {g : γ}

/-- A thread that holds nothing starts a program. -/
theorem obeying_start {p : Prog μ ε σ Unit} (hfree : ∀ m, c.owner m ≠ some t)
    (hp : p.Obeys D (fun _ _ _ _ => True) [] g c.shared) : (c.start t p).Obeying D t g := by
  refine ⟨[], List.nodup_nil, fun m => ?_, ?_⟩
  · exact iff_of_false (hfree m) List.not_mem_nil
  · simpa [start] using hp

omit [DecidableEq τ] in
/-- A thread stands before a mutex only where the rule allows it. -/
theorem Obeying.mayTake (h : c.Obeying D t g) {m : μ} {next : Prog μ ε σ Unit}
    (hp : c.prog t = .lock m next) :
    ∃ H : List μ, (∀ m, c.owner m = some t ↔ m ∈ H) ∧ D.mayTake H g m := by
  obtain ⟨H, -, ho, ht⟩ := h
  rw [hp] at ht
  exact ⟨H, ho, ht.1⟩

omit [DecidableEq τ] in
theorem Obeying.setShared (h : c.Obeying D t g) {s : σ} (hs : D.rely c.shared s) :
    (c.setShared s).Obeying D t g := by
  obtain ⟨H, hn, ho, ht⟩ := h
  exact ⟨H, hn, ho, Prog.obeys_stable (fun _ _ _ _ _ _ _ => trivial) _ H g _ _ ht hs⟩

/-- Another thread starts a program. -/
theorem Obeying.start (h : c.Obeying D t g) {u : τ} (hu : t ≠ u) (p : Prog μ ε σ Unit) :
    (c.start u p).Obeying D t g := by
  obtain ⟨H, hn, ho, ht⟩ := h
  refine ⟨H, hn, ho, ?_⟩
  simpa [Config.start, Function.update_of_ne hu] using ht

/-- A step of the thread: its note moves with its actions. -/
theorem Obeying.move (h : c.Obeying D t g) {e : ε} (hstep : c.stepThread t e = some c') :
    c'.Obeying D t (if (c.prog t).isAct then D.advance g c.shared c'.shared else g) := by
  obtain ⟨H, hn, ho, ht⟩ := h
  rcases stepThread_cases hstep with ⟨m, next, hp, hfree, rfl⟩ | ⟨m, next, hp, rfl⟩ |
    ⟨f, next, hp, rfl⟩
  · rw [hp] at ht
    have hout : m ∉ H := by
      rw [← ho, hfree]
      simp
    refine ⟨m :: H, List.nodup_cons.2 ⟨hout, hn⟩, fun m' => ?_, ?_⟩
    · by_cases hm : m' = m
      · simp [hm]
      · simp [hm, ho]
    · simpa [hp, Prog.isAct] using ht.2
  · rw [hp] at ht
    refine ⟨H.erase m, hn.erase m, fun m' => ?_, ?_⟩
    · by_cases hm : m' = m
      · simp [hm, hn.mem_erase_iff]
      · simp [hn.mem_erase_iff, hm, ho]
    · have hnext : next.Obeys D (fun _ _ _ _ => True) (H.erase m) g c.shared := ht
      simpa [hp, Prog.isAct] using hnext
  · rw [hp] at ht
    exact ⟨H, hn, ho, by simpa [hp, Prog.isAct] using ht e c.shared (D.rely_refl _)⟩

/-- A step of another thread, which releases only what it holds. -/
theorem Obeying.stay (h : c.Obeying D t g) {u : τ} (hu : t ≠ u) {e : ε}
    (hstep : c.stepThread u e = some c')
    (hown : ∀ m next, c.prog u = .unlock m next → c.owner m = some u)
    (hs : D.rely c.shared c'.shared) : c'.Obeying D t g := by
  obtain ⟨H, hn, ho, ht⟩ := h
  have hprog : c'.prog t = c.prog t := stepThread_prog_of_ne hstep hu
  refine ⟨H, hn, fun m' => ?_, ?_⟩
  · rw [← ho m']
    rcases stepThread_cases hstep with ⟨m, next, hp, hfree, rfl⟩ | ⟨m, next, hp, rfl⟩ |
      ⟨f, next, hp, rfl⟩
    · by_cases hm : m' = m
      · simp [hm, hfree, Ne.symm hu]
      · simp [Function.update_of_ne hm]
    · by_cases hm : m' = m
      · simp [hm, hown m next hp, Ne.symm hu]
      · simp [Function.update_of_ne hm]
    · rfl
  · rw [hprog]
    exact Prog.obeys_stable (fun _ _ _ _ _ _ _ => trivial) _ H g _ _ ht hs

end Config

end TerminalChat.Concurrency
