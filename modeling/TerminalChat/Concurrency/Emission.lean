import TerminalChat.Concurrency.RelyGuarantee

/-!
# Programs that emit a bounded number of elements

A part of the shared state is a queue that others may change at any time. A program emits at most `n`
elements (`Prog.Emits`) when each of its actions leaves the queue alone or appends one element, and no run
has more than `n` of the second kind. Nothing is asked of the state, so the others need no contract; a
step of the thread takes one from `n` or leaves it (`Config.emits_stepThread`).
-/

set_option autoImplicit false

namespace TerminalChat.Concurrency

variable {τ μ ν ε σ α β ι : Type}

namespace Prog

/-- The program appends at most `n` elements to the queue, each with `V`. -/
def Emits (queue : σ → List ι) (V : ι → Prop) : Prog μ ε σ α → Nat → Prop
  | ret _, _ => True
  | lock _ next, n => next.Emits queue V n
  | unlock _ next, n => next.Emits queue V n
  | act f next, n => ∀ e s, (queue (f e s) = queue s ∧ (next e s).Emits queue V n) ∨
      ∃ i k, V i ∧ n = k + 1 ∧ queue (f e s) = queue s ++ [i] ∧ (next e s).Emits queue V k

variable {queue : σ → List ι} {V : ι → Prop} {n : Nat}

/-- A program whose actions leave the queue alone may go before one that emits. -/
theorem emits_seq {f : α → Prog μ ε σ β} {K : α → Prop} (hf : ∀ a, (f a).Emits queue V n) :
    ∀ p : Prog μ ε σ α, p.Guar (fun _ => True) (fun s s' => queue s' = queue s) K →
      (p >>= f).Emits queue V n
  | ret a, _ => hf a
  | lock _ next, hp => emits_seq hf next hp
  | unlock _ next, hp => emits_seq hf next hp
  | act _ next, hp => fun e s =>
      Or.inl ⟨(hp e s trivial).1, emits_seq hf (next e s) (hp e s trivial).2⟩

/-- A program whose actions leave the queue alone emits nothing. -/
theorem emits_of_guar {K : α → Prop} :
    ∀ p : Prog μ ε σ α, p.Guar (fun _ => True) (fun s s' => queue s' = queue s) K → p.Emits queue V n
  | ret _, _ => trivial
  | lock _ next, hp => emits_of_guar next hp
  | unlock _ next, hp => emits_of_guar next hp
  | act _ next, hp => fun e s => Or.inl ⟨(hp e s trivial).1, emits_of_guar (next e s) (hp e s trivial).2⟩

theorem emits_ite {c : Prop} [Decidable c] {p p' : Prog μ ε σ α} (hp : p.Emits queue V n)
    (hp' : p'.Emits queue V n) : (if c then p else p').Emits queue V n := by
  split
  · exact hp
  · exact hp'

/-- A block under a mutex that appends one element. -/
theorem emits_append {m : μ} (emb : ν → μ) {i : ι} (hi : V i) {b : Block ν ε σ Unit}
    (happend : ∀ e s, queue (b.exec e s).state = queue s ++ [i]) :
    (holding m (block emb b)).Emits queue V (n + 1) := by
  have hthrough : ∀ ms : List ν, ((through emb ms (ret ())).bind fun a => unlock m (ret a) :
      Prog μ ε σ Unit).Emits queue V n := by
    intro ms
    induction ms with
    | nil => exact trivial
    | cons m' ms ih => exact ih
  exact fun e s => Or.inr ⟨i, n, hi, rfl, happend e s, hthrough _⟩

end Prog

namespace Config

variable [DecidableEq τ] [DecidableEq μ] {queue : σ → List ι} {V : ι → Prop} {n : Nat}
  {c c' : Config τ μ ε σ}

/-- A step of a thread that emits: the queue is as before, or has one more element and the thread may emit
one less. -/
theorem emits_stepThread {t : τ} {e : ε} (h : c.stepThread t e = some c')
    (ht : (c.prog t).Emits queue V n) :
    (queue c'.shared = queue c.shared ∧ (c'.prog t).Emits queue V n) ∨
    ((c.prog t).isAct = true ∧ ∃ i k, V i ∧ n = k + 1 ∧ queue c'.shared = queue c.shared ++ [i] ∧
      (c'.prog t).Emits queue V k) := by
  rcases stepThread_cases h with ⟨m, next, hp, -, rfl⟩ | ⟨m, next, hp, rfl⟩ | ⟨f, next, hp, rfl⟩
  · rw [hp] at ht
    have hnext : next.Emits queue V n := ht
    exact Or.inl ⟨rfl, by simpa using hnext⟩
  · rw [hp] at ht
    have hnext : next.Emits queue V n := ht
    exact Or.inl ⟨rfl, by simpa using hnext⟩
  · rw [hp] at ht
    rcases ht e c.shared with ⟨hsame, hnext⟩ | ⟨i, k, hi, hn, happend, hnext⟩
    · exact Or.inl ⟨hsame, by simpa using hnext⟩
    · exact Or.inr ⟨by rw [hp]; rfl, i, k, hi, hn, happend, by simpa using hnext⟩

end Config

end TerminalChat.Concurrency
