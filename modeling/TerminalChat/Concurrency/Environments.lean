import TerminalChat.Concurrency.Threads

/-!
# Preconditions in restricted environments

A thread reads an environment value in each of its actions. Where only the values that satisfy `E`
occur, a program may end in more than it does in general: `wpIn` is the precondition in this setting, and
`Config.wpIn_stepThread` keeps it along a step.
-/

set_option autoImplicit false

namespace TerminalChat.Concurrency

variable {τ μ ν ε σ α β : Type}

namespace Prog

/-- The weakest precondition for `Q` when the environment values satisfy `E` and other threads may
change the state along `R` before every action. -/
def wpIn (E : ε → Prop) (R : σ → σ → Prop) (Q : α → σ → Prop) : Prog μ ε σ α → σ → Prop
  | ret a, s => Q a s
  | lock _ next, s => next.wpIn E R Q s
  | unlock _ next, s => next.wpIn E R Q s
  | act f next, s => ∀ e, E e → ∀ s', R s s' → (next e s').wpIn E R Q (f e s')

variable {E : ε → Prop} {R : σ → σ → Prop} {Q Q' : α → σ → Prop}

@[simp] theorem wpIn_pure (a : α) (s : σ) :
    (pure a : Prog μ ε σ α).wpIn E R Q s ↔ Q a s := Iff.rfl

theorem wpIn_mono (h : ∀ a s, Q a s → Q' a s) :
    ∀ (p : Prog μ ε σ α) (s : σ), p.wpIn E R Q s → p.wpIn E R Q' s
  | ret a, s, hp => h a s hp
  | lock _ next, s, hp => wpIn_mono h next s hp
  | unlock _ next, s, hp => wpIn_mono h next s hp
  | act f next, _, hp => fun e he s' hs => wpIn_mono h (next e s') (f e s') (hp e he s' hs)

theorem wpIn_bind (f : α → Prog μ ε σ β) (Q : β → σ → Prop) :
    ∀ (p : Prog μ ε σ α) (s : σ),
      (p >>= f).wpIn E R Q s ↔ p.wpIn E R (fun a s' => (f a).wpIn E R Q s') s
  | ret _, _ => Iff.rfl
  | lock _ next, s => wpIn_bind f Q next s
  | unlock _ next, s => wpIn_bind f Q next s
  | act _ next, _ =>
      forall_congr' fun e => forall_congr' fun _ => forall_congr' fun s' =>
        imp_congr_right fun _ => wpIn_bind f Q (next e s') _

theorem wpIn_through (emb : ν → μ) (p : Prog μ ε σ α) (s : σ) :
    ∀ ms : List ν, (through emb ms p).wpIn E R Q s ↔ p.wpIn E R Q s
  | [] => Iff.rfl
  | _ :: ms => wpIn_through emb p s ms

theorem wpIn_block (emb : ν → μ) (b : Block ν ε σ α) (s : σ) :
    (block emb b).wpIn E R Q s ↔ ∀ e, E e → ∀ s', R s s' → b.post e s' Q := by
  refine forall_congr' fun e => forall_congr' fun _ => forall_congr' fun s' =>
    imp_congr_right fun _ => ?_
  exact wpIn_through emb _ _ _

theorem wpIn_holding (m : μ) (p : Prog μ ε σ α) (s : σ) :
    (holding m p).wpIn E R Q s ↔ p.wpIn E R Q s := by
  show (p >>= fun a => unlock m (ret a)).wpIn E R Q s ↔ _
  rw [wpIn_bind]
  exact Iff.rfl

theorem wpIn_ite (c : Prop) [Decidable c] (p p' : Prog μ ε σ α) (s : σ) :
    (if c then p else p').wpIn E R Q s ↔ (c → p.wpIn E R Q s) ∧ (¬c → p'.wpIn E R Q s) := by
  by_cases hc : c
  · simp [hc]
  · simp [hc]

/-- A precondition is stable under the interference it allows for. -/
theorem wpIn_stable (hR : ∀ a b c, R a b → R b c → R a c)
    (hQ : ∀ a s s', Q a s → R s s' → Q a s') :
    ∀ (p : Prog μ ε σ α) (s s' : σ), p.wpIn E R Q s → R s s' → p.wpIn E R Q s'
  | ret a, s, s', hp, hs => hQ a s s' hp hs
  | lock _ next, s, s', hp, hs => wpIn_stable hR hQ next s s' hp hs
  | unlock _ next, s, s', hp, hs => wpIn_stable hR hQ next s s' hp hs
  | act _ _, _, _, hp, hs => fun e he t ht => hp e he t (hR _ _ _ hs ht)

/-- What a program and the interference maintain holds when the program ends. -/
theorem wpIn_of_guar {P : σ → Prop} {K : α → Prop} (hR : ∀ s s', P s → R s s' → P s') :
    ∀ (p : Prog μ ε σ α) (s : σ), p.Guar P (fun _ s' => P s') K → P s →
      p.wpIn E R (fun a s' => P s' ∧ K a) s
  | ret _, _, hp, hs => ⟨hs, hp⟩
  | lock _ next, s, hp, hs => wpIn_of_guar hR next s hp hs
  | unlock _ next, s, hp, hs => wpIn_of_guar hR next s hp hs
  | act _ next, s, hp, hs => fun e _ s' h => by
      obtain ⟨hstep, hnext⟩ := hp e s' (hR s s' hs h)
      exact wpIn_of_guar hR (next e s') _ hnext hstep

end Prog

namespace Config

variable [DecidableEq τ] [DecidableEq μ] {E : ε → Prop} {R : σ → σ → Prop} {Q : Unit → σ → Prop}

/-- A thread that moves keeps its precondition. -/
theorem wpIn_stepThread (hR : ∀ s, R s s) {c c' : Config τ μ ε σ} {t : τ} {e : ε} (he : E e)
    (h : c.stepThread t e = some c') (hw : (c.prog t).wpIn E R Q c.shared) :
    (c'.prog t).wpIn E R Q c'.shared := by
  rcases stepThread_cases h with ⟨m, next, hp, -, rfl⟩ | ⟨m, next, hp, rfl⟩ | ⟨f, next, hp, rfl⟩
  · rw [hp] at hw
    simpa [Prog.wpIn] using hw
  · rw [hp] at hw
    simpa [Prog.wpIn] using hw
  · rw [hp] at hw
    simpa using hw e he c.shared (hR _)

end Config

end TerminalChat.Concurrency
