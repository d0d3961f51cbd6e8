import TerminalChat.Concurrency.Threads

/-!
# What holds throughout a program

A precondition for a postcondition and for an invariant: the invariant holds after every action of the
program, whatever the other threads do along their rely relation between the actions (`Prog.throughout`).
A step of the thread keeps it (`Config.throughout_stepThread`).
-/

set_option autoImplicit false

namespace TerminalChat.Concurrency

variable {τ μ ν ε σ α β : Type}

namespace Prog

/-- `I` holds after every action of the program and `Q` when it ends, when other threads may change the
state along `R` before every action. -/
def throughout (R : σ → σ → Prop) (I : σ → Prop) (Q : α → σ → Prop) : Prog μ ε σ α → σ → Prop
  | ret a, s => Q a s
  | lock _ next, s => next.throughout R I Q s
  | unlock _ next, s => next.throughout R I Q s
  | act f next, s => ∀ e s', R s s' → I (f e s') ∧ (next e s').throughout R I Q (f e s')

variable {R : σ → σ → Prop} {I : σ → Prop} {Q Q' : α → σ → Prop}

@[simp] theorem throughout_pure (a : α) (s : σ) :
    (pure a : Prog μ ε σ α).throughout R I Q s ↔ Q a s := Iff.rfl

theorem throughout_mono (h : ∀ a s, Q a s → Q' a s) :
    ∀ (p : Prog μ ε σ α) (s : σ), p.throughout R I Q s → p.throughout R I Q' s
  | ret a, s, hp => h a s hp
  | lock _ next, s, hp => throughout_mono h next s hp
  | unlock _ next, s, hp => throughout_mono h next s hp
  | act f next, _, hp => fun e s' hs =>
      ⟨(hp e s' hs).1, throughout_mono h (next e s') (f e s') (hp e s' hs).2⟩

theorem throughout_bind (f : α → Prog μ ε σ β) (Q : β → σ → Prop) :
    ∀ (p : Prog μ ε σ α) (s : σ), (p >>= f).throughout R I Q s ↔
      p.throughout R I (fun a s' => (f a).throughout R I Q s') s
  | ret _, _ => Iff.rfl
  | lock _ next, s => throughout_bind f Q next s
  | unlock _ next, s => throughout_bind f Q next s
  | act _ next, _ =>
      forall_congr' fun e => forall_congr' fun s' => imp_congr_right fun _ =>
        and_congr_right fun _ => throughout_bind f Q (next e s') _

theorem throughout_through (emb : ν → μ) (p : Prog μ ε σ α) (s : σ) :
    ∀ ms : List ν, (through emb ms p).throughout R I Q s ↔ p.throughout R I Q s
  | [] => Iff.rfl
  | _ :: ms => throughout_through emb p s ms

theorem throughout_block (emb : ν → μ) (b : Block ν ε σ α) (s : σ) :
    (block emb b).throughout R I Q s ↔ ∀ e s', R s s' → b.post e s' fun a t => I t ∧ Q a t := by
  refine forall_congr' fun e => forall_congr' fun s' => imp_congr_right fun _ =>
    and_congr_right fun _ => ?_
  exact throughout_through emb _ _ _

theorem throughout_holding (m : μ) (p : Prog μ ε σ α) (s : σ) :
    (holding m p).throughout R I Q s ↔ p.throughout R I Q s := by
  show (p >>= fun a => unlock m (ret a)).throughout R I Q s ↔ _
  rw [throughout_bind]
  exact Iff.rfl

/-- It is stable under the interference it allows for. -/
theorem throughout_stable (hR : ∀ a b c, R a b → R b c → R a c)
    (hQ : ∀ a s s', Q a s → R s s' → Q a s') :
    ∀ (p : Prog μ ε σ α) (s s' : σ), p.throughout R I Q s → R s s' → p.throughout R I Q s'
  | ret a, s, s', hp, hs => hQ a s s' hp hs
  | lock _ next, s, s', hp, hs => throughout_stable hR hQ next s s' hp hs
  | unlock _ next, s, s', hp, hs => throughout_stable hR hQ next s s' hp hs
  | act _ _, _, _, hp, hs => fun e t ht => hp e t (hR _ _ _ hs ht)

/-- What a program and the interference maintain holds throughout and when the program ends. -/
theorem throughout_of_guar {P : σ → Prop} {K : α → Prop} (hR : ∀ s s', P s → R s s' → P s')
    (hI : ∀ s, P s → I s) : ∀ (p : Prog μ ε σ α) (s : σ), p.Guar P (fun _ s' => P s') K → P s →
      p.throughout R I (fun a s' => P s' ∧ K a) s
  | ret _, _, hp, hs => ⟨hs, hp⟩
  | lock _ next, s, hp, hs => throughout_of_guar hR hI next s hp hs
  | unlock _ next, s, hp, hs => throughout_of_guar hR hI next s hp hs
  | act _ next, s, hp, hs => fun e s' h => by
      obtain ⟨hstep, hnext⟩ := hp e s' (hR s s' hs h)
      exact ⟨hI _ hstep, throughout_of_guar hR hI (next e s') _ hnext hstep⟩

end Prog

namespace Config

variable [DecidableEq τ] [DecidableEq μ] {R : σ → σ → Prop} {I : σ → Prop} {Q : Unit → σ → Prop}

/-- A thread that moves keeps the invariant, and its precondition. -/
theorem throughout_stepThread (hR : ∀ s, R s s) {c c' : Config τ μ ε σ} {t : τ} {e : ε}
    (h : c.stepThread t e = some c') (hI : I c.shared) (hw : (c.prog t).throughout R I Q c.shared) :
    I c'.shared ∧ (c'.prog t).throughout R I Q c'.shared := by
  rcases stepThread_cases h with ⟨m, next, hp, -, rfl⟩ | ⟨m, next, hp, rfl⟩ | ⟨f, next, hp, rfl⟩
  · rw [hp] at hw
    exact ⟨hI, by simpa [Prog.throughout] using hw⟩
  · rw [hp] at hw
    exact ⟨hI, by simpa [Prog.throughout] using hw⟩
  · rw [hp] at hw
    simpa using hw e c.shared (hR _)

end Config

end TerminalChat.Concurrency
