import Mathlib.Logic.Relation
import Mathlib.Data.List.Basic

/-!
# Programs of locks and atomic actions

A thread is a program over a shared state: it takes and releases mutexes and performs atomic
actions. An action reads one environment value, which stands for whatever the surrounding system
supplies to it (a clock reading, a random draw, the outcome of a call), and the program may branch
on what it has read.

Three predicate transformers over programs are defined here. `Prog.wp` is the weakest precondition
under interference: before every action other threads may change the state along a rely relation.
`Prog.Guar` says what the actions of a program may do to the state. `Prog.Locks` is the lock
discipline: which mutexes a program may take, given those it already holds.
-/

set_option autoImplicit false

namespace TerminalChat.Concurrency

variable {μ ν ε σ α β : Type}

/-- A program with mutexes `μ`, environment values `ε`, shared state `σ` and result `α`. -/
inductive Prog (μ ε σ α : Type) : Type where
  | ret (a : α)
  | lock (m : μ) (next : Prog μ ε σ α)
  | unlock (m : μ) (next : Prog μ ε σ α)
  | act (f : ε → σ → σ) (next : ε → σ → Prog μ ε σ α)

/-- The outcome of a block: its value, the state it leaves, and the mutexes it passed through, one
after the other, each released before the next was taken. -/
structure Outcome (ν σ α : Type) where
  value : α
  state : σ
  passed : List ν

/-- A block is the code between two synchronisation points of a thread. It runs as one action. -/
structure Block (ν ε σ α : Type) : Type where
  exec : ε → σ → Outcome ν σ α

namespace Block

instance : Monad (Block ν ε σ) where
  pure a := ⟨fun _ s => ⟨a, s, []⟩⟩
  bind b f := ⟨fun e s =>
    let r := b.exec e s
    let r' := (f r.value).exec e r.state
    ⟨r'.value, r'.state, r.passed ++ r'.passed⟩⟩

/-- A block that only reads. -/
def read (f : ε → σ → α) : Block ν ε σ α := ⟨fun e s => ⟨f e s, s, []⟩⟩

/-- A block that only updates the state. -/
def modify (f : ε → σ → σ) : Block ν ε σ Unit := ⟨fun e s => ⟨(), f e s, []⟩⟩

/-- The outcome of a block satisfies `Q`. -/
def post (b : Block ν ε σ α) (e : ε) (s : σ) (Q : α → σ → Prop) : Prop :=
  Q (b.exec e s).value (b.exec e s).state

section Post

variable (e : ε) (s : σ) (Q : α → σ → Prop)

@[simp] theorem post_pure (a : α) : (pure a : Block ν ε σ α).post e s Q ↔ Q a s := Iff.rfl

@[simp] theorem post_bind (b : Block ν ε σ β) (f : β → Block ν ε σ α) :
    (b >>= f).post e s Q ↔ b.post e s fun a s' => (f a).post e s' Q := Iff.rfl

@[simp] theorem post_read (f : ε → σ → α) :
    (read f : Block ν ε σ α).post e s Q ↔ Q (f e s) s := Iff.rfl

@[simp] theorem post_modify (f : ε → σ → σ) (Q : Unit → σ → Prop) :
    (modify f : Block ν ε σ Unit).post e s Q ↔ Q () (f e s) := Iff.rfl

@[simp] theorem post_ite (c : Prop) [Decidable c] (b b' : Block ν ε σ α) :
    (if c then b else b').post e s Q ↔ (c → b.post e s Q) ∧ (¬c → b'.post e s Q) := by
  by_cases hc : c
  · simp [hc]
  · simp [hc]

variable {e s Q}

theorem post_mono {b : Block ν ε σ α} {Q' : α → σ → Prop} (hb : b.post e s Q)
    (h : ∀ a s', Q a s' → Q' a s') : b.post e s Q' := h _ _ hb

end Post

end Block

namespace Prog

/-- Sequential composition. -/
def bind : Prog μ ε σ α → (α → Prog μ ε σ β) → Prog μ ε σ β
  | ret a, f => f a
  | lock m next, f => lock m (next.bind f)
  | unlock m next, f => unlock m (next.bind f)
  | act g next, f => act g fun e s => (next e s).bind f

instance : Monad (Prog μ ε σ) where
  pure := ret
  bind := bind

/-- Take and release the mutexes `ms` one after the other, then go on. -/
def through (emb : ν → μ) : List ν → Prog μ ε σ α → Prog μ ε σ α
  | [], p => p
  | m :: ms, p => lock (emb m) (unlock (emb m) (through emb ms p))

/-- A block as one action, followed by the mutexes it passed through. -/
def block (emb : ν → μ) (b : Block ν ε σ α) : Prog μ ε σ α :=
  act (fun e s => (b.exec e s).state) fun e s =>
    through emb (b.exec e s).passed (ret (b.exec e s).value)

/-- Run `p` while holding `m`. -/
def holding (m : μ) (p : Prog μ ε σ α) : Prog μ ε σ α :=
  lock m (p.bind fun a => unlock m (ret a))

/-- The program has nothing left to do. -/
def isDone : Prog μ ε σ α → Bool
  | ret _ => true
  | _ => false

/-- The next step of the program is an action. -/
def isAct : Prog μ ε σ α → Bool
  | act _ _ => true
  | _ => false

/-- Run a program with no other thread around; the `n`-th action reads `es n`. -/
def run : Prog μ ε σ α → (Nat → ε) → σ → α × σ
  | ret a, _, s => (a, s)
  | lock _ next, es, s => next.run es s
  | unlock _ next, es, s => next.run es s
  | act f next, es, s => (next (es 0) s).run (fun n => es (n + 1)) (f (es 0) s)

theorem run_through_bind (emb : ν → μ) (p : Prog μ ε σ α) (f : α → Prog μ ε σ β) (es : Nat → ε)
    (s : σ) : ∀ ms : List ν, (through emb ms p >>= f).run es s = (p >>= f).run es s
  | [] => rfl
  | _ :: ms => run_through_bind emb p f es s ms

/-- A program that begins with a block runs the block on the first environment value. -/
theorem run_block_bind (emb : ν → μ) (b : Block ν ε σ α) (f : α → Prog μ ε σ β) (es : Nat → ε)
    (s : σ) : (block emb b >>= f).run es s =
      (f (b.exec (es 0) s).value).run (fun n => es (n + 1)) (b.exec (es 0) s).state :=
  run_through_bind emb (ret (b.exec (es 0) s).value) f _ _ _

theorem run_block (emb : ν → μ) (b : Block ν ε σ α) (es : Nat → ε) (s : σ) :
    (block emb b).run es s = ((b.exec (es 0) s).value, (b.exec (es 0) s).state) := by
  have hret : ∀ (ms : List ν) (p : Prog μ ε σ α) (es : Nat → ε) (s : σ),
      (through emb ms p).run es s = p.run es s := by
    intro ms
    induction ms with
    | nil => exact fun _ _ _ => rfl
    | cons m ms ih => exact fun p es s => ih p es s
  exact hret _ _ _ _

/-- Alone, a program runs under a mutex as it does without it. -/
theorem run_holding (m : μ) (p : Prog μ ε σ α) (es : Nat → ε) (s : σ) :
    (holding m p).run es s = p.run es s := by
  have hbind : ∀ (p : Prog μ ε σ α) (es : Nat → ε) (s : σ),
      (p.bind fun a => unlock m (ret a)).run es s = p.run es s := by
    intro p
    induction p with
    | ret a => exact fun _ _ => rfl
    | lock k next ih => exact fun es s => ih es s
    | unlock k next ih => exact fun es s => ih es s
    | act f next ih => exact fun es s => ih (es 0) s _ _
  exact hbind p es s

/-! ## Weakest preconditions under interference -/

/-- The weakest precondition for `Q` when other threads may change the state along `R` before every
action. Mutexes are ignored: a precondition for every interleaving is one for those that respect the
mutexes. -/
def wp (R : σ → σ → Prop) (Q : α → σ → Prop) : Prog μ ε σ α → σ → Prop
  | ret a, s => Q a s
  | lock _ next, s => next.wp R Q s
  | unlock _ next, s => next.wp R Q s
  | act f next, s => ∀ e s', R s s' → (next e s').wp R Q (f e s')

section Wp

variable {R : σ → σ → Prop} {Q Q' : α → σ → Prop}

@[simp] theorem wp_pure (a : α) (s : σ) :
    (pure a : Prog μ ε σ α).wp R Q s ↔ Q a s := Iff.rfl

theorem wp_mono (h : ∀ a s, Q a s → Q' a s) :
    ∀ (p : Prog μ ε σ α) (s : σ), p.wp R Q s → p.wp R Q' s
  | ret a, s, hp => h a s hp
  | lock _ next, s, hp => wp_mono h next s hp
  | unlock _ next, s, hp => wp_mono h next s hp
  | act f next, _, hp => fun e s' hs => wp_mono h (next e s') (f e s') (hp e s' hs)

theorem wp_bind (f : α → Prog μ ε σ β) (Q : β → σ → Prop) :
    ∀ (p : Prog μ ε σ α) (s : σ),
      (p >>= f).wp R Q s ↔ p.wp R (fun a s' => (f a).wp R Q s') s
  | ret _, _ => Iff.rfl
  | lock _ next, s => wp_bind f Q next s
  | unlock _ next, s => wp_bind f Q next s
  | act _ next, _ =>
      forall_congr' fun e => forall_congr' fun s' => imp_congr_right fun _ =>
        wp_bind f Q (next e s') _

theorem wp_through (emb : ν → μ) (p : Prog μ ε σ α) (s : σ) :
    ∀ ms : List ν, (through emb ms p).wp R Q s ↔ p.wp R Q s
  | [] => Iff.rfl
  | _ :: ms => wp_through emb p s ms

theorem wp_block (emb : ν → μ) (b : Block ν ε σ α) (s : σ) :
    (block emb b).wp R Q s ↔ ∀ e s', R s s' → b.post e s' Q := by
  refine forall_congr' fun e => forall_congr' fun s' => imp_congr_right fun _ => ?_
  exact wp_through emb _ _ _

theorem wp_holding (m : μ) (p : Prog μ ε σ α) (s : σ) :
    (holding m p).wp R Q s ↔ p.wp R Q s := by
  show (p >>= fun a => unlock m (ret a)).wp R Q s ↔ _
  rw [wp_bind]
  exact Iff.rfl

theorem wp_ite (c : Prop) [Decidable c] (p p' : Prog μ ε σ α) (s : σ) :
    (if c then p else p').wp R Q s ↔ (c → p.wp R Q s) ∧ (¬c → p'.wp R Q s) := by
  by_cases hc : c
  · simp [hc]
  · simp [hc]

/-- A precondition is stable under the interference it allows for. -/
theorem wp_stable (hR : ∀ a b c, R a b → R b c → R a c) (hQ : ∀ a s s', Q a s → R s s' → Q a s') :
    ∀ (p : Prog μ ε σ α) (s s' : σ), p.wp R Q s → R s s' → p.wp R Q s'
  | ret a, s, s', hp, hs => hQ a s s' hp hs
  | lock _ next, s, s', hp, hs => wp_stable hR hQ next s s' hp hs
  | unlock _ next, s, s', hp, hs => wp_stable hR hQ next s s' hp hs
  | act _ _, _, _, hp, hs => fun e t ht => hp e t (hR _ _ _ hs ht)

/-- A program run alone satisfies every postcondition it has under interference. -/
theorem run_of_wp (hR : ∀ s, R s s) :
    ∀ (p : Prog μ ε σ α) (es : Nat → ε) (s : σ),
      p.wp R Q s → Q (p.run es s).1 (p.run es s).2
  | ret _, _, _, hp => hp
  | lock _ next, es, s, hp => run_of_wp hR next es s hp
  | unlock _ next, es, s, hp => run_of_wp hR next es s hp
  | act f next, es, s, hp =>
      run_of_wp hR (next (es 0) s) (fun n => es (n + 1)) (f (es 0) s) (hp (es 0) s (hR s))

end Wp

/-! ## Guarantees -/

/-- Every action taken in a state with `P` moves the state along `G`, and the result satisfies
`K`. -/
def Guar (P : σ → Prop) (G : σ → σ → Prop) (K : α → Prop) : Prog μ ε σ α → Prop
  | ret a => K a
  | lock _ next => next.Guar P G K
  | unlock _ next => next.Guar P G K
  | act f next => ∀ e s, P s → G s (f e s) ∧ (next e s).Guar P G K

section Guar

variable {P : σ → Prop} {G : σ → σ → Prop} {K K' : α → Prop}

@[simp] theorem guar_pure (a : α) : (pure a : Prog μ ε σ α).Guar P G K ↔ K a := Iff.rfl

theorem guar_mono (h : ∀ a, K a → K' a) : ∀ p : Prog μ ε σ α, p.Guar P G K → p.Guar P G K'
  | ret a, hp => h a hp
  | lock _ next, hp => guar_mono h next hp
  | unlock _ next, hp => guar_mono h next hp
  | act _ next, hp => fun e s hs => ⟨(hp e s hs).1, guar_mono h (next e s) (hp e s hs).2⟩

theorem guar_bind (f : α → Prog μ ε σ β) {L : β → Prop} :
    ∀ p : Prog μ ε σ α, (p >>= f).Guar P G L ↔ p.Guar P G (fun a => (f a).Guar P G L)
  | ret _ => Iff.rfl
  | lock _ next => guar_bind f next
  | unlock _ next => guar_bind f next
  | act _ next =>
      forall_congr' fun e => forall_congr' fun s => imp_congr_right fun _ =>
        and_congr_right fun _ => guar_bind f (next e s)

/-- Sequential composition of two guarantees. -/
theorem guar_seq {p : Prog μ ε σ α} {f : α → Prog μ ε σ β} {L : β → Prop} (hp : p.Guar P G K)
    (hf : ∀ a, K a → (f a).Guar P G L) : (p >>= f).Guar P G L :=
  (guar_bind f p).2 (guar_mono hf p hp)

theorem guar_through (emb : ν → μ) (p : Prog μ ε σ α) :
    ∀ ms : List ν, (through emb ms p).Guar P G K ↔ p.Guar P G K
  | [] => Iff.rfl
  | _ :: ms => guar_through emb p ms

theorem guar_block (emb : ν → μ) (b : Block ν ε σ α) :
    (block emb b).Guar P G K ↔ ∀ e s, P s → b.post e s fun a s' => G s s' ∧ K a := by
  refine forall_congr' fun e => forall_congr' fun s => imp_congr_right fun _ =>
    and_congr_right fun _ => ?_
  exact guar_through emb _ _

theorem guar_holding (m : μ) (p : Prog μ ε σ α) :
    (holding m p).Guar P G K ↔ p.Guar P G K := by
  show (p >>= fun a => unlock m (ret a)).Guar P G K ↔ _
  rw [guar_bind]
  exact Iff.rfl

end Guar

/-! ## Lock discipline -/

/-- `p.Locks ok K H b`: started with the mutexes `H` held, the program takes a mutex `m` only where
`ok H b m`, releases only what it holds, and ends with `K`. The flag `b` says whether the last step
was an action. -/
def Locks [DecidableEq μ] (ok : List μ → Bool → μ → Prop) (K : α → List μ → Bool → Prop) :
    Prog μ ε σ α → List μ → Bool → Prop
  | ret a, H, b => K a H b
  | lock m next, H, b => ok H b m ∧ next.Locks ok K (m :: H) false
  | unlock m next, H, _ => m ∈ H ∧ next.Locks ok K (H.erase m) false
  | act _ next, H, _ => ∀ e s, (next e s).Locks ok K H true

/-- The program is on its way to taking `m` from the state `s`: only actions stand before it. -/
def Aims (m : μ) : Prog μ ε σ α → σ → Prop
  | ret _, _ => False
  | lock m' _, _ => m' = m
  | unlock _ _, _ => False
  | act f next, s => ∃ e, (next e s).Aims m (f e s)

section Locks

variable [DecidableEq μ] {ok : List μ → Bool → μ → Prop}

@[simp] theorem locks_pure {K : α → List μ → Bool → Prop} (a : α) (H : List μ) (b : Bool) :
    (pure a : Prog μ ε σ α).Locks ok K H b ↔ K a H b := Iff.rfl

theorem locks_mono {K K' : α → List μ → Bool → Prop} (h : ∀ a H b, K a H b → K' a H b) :
    ∀ (p : Prog μ ε σ α) (H : List μ) (b : Bool), p.Locks ok K H b → p.Locks ok K' H b
  | ret a, H, b, hp => h a H b hp
  | lock _ next, _, _, hp => ⟨hp.1, locks_mono h next _ _ hp.2⟩
  | unlock _ next, _, _, hp => ⟨hp.1, locks_mono h next _ _ hp.2⟩
  | act _ next, _, _, hp => fun e s => locks_mono h (next e s) _ _ (hp e s)

theorem locks_bind (f : α → Prog μ ε σ β) {K : β → List μ → Bool → Prop} :
    ∀ (p : Prog μ ε σ α) (H : List μ) (b : Bool),
      (p >>= f).Locks ok K H b ↔ p.Locks ok (fun a H' b' => (f a).Locks ok K H' b') H b
  | ret _, _, _ => Iff.rfl
  | lock _ next, _, _ => and_congr_right fun _ => locks_bind f next _ _
  | unlock _ next, _, _ => and_congr_right fun _ => locks_bind f next _ _
  | act _ next, _, _ =>
      forall_congr' fun e => forall_congr' fun s => locks_bind f (next e s) _ _

theorem locks_through {K : α → List μ → Bool → Prop} (emb : ν → μ) (p : Prog μ ε σ α)
    (H : List μ) (hok : ∀ (m : ν) (b : Bool), ok H b (emb m)) :
    ∀ (ms : List ν) (b : Bool), (∀ b', p.Locks ok K H b') → (through emb ms p).Locks ok K H b
  | [], b, hp => hp b
  | m :: ms, b, hp => by
      refine ⟨hok m b, List.mem_cons_self, ?_⟩
      rw [List.erase_cons_head]
      exact locks_through emb p H hok ms false hp

/-- A block keeps the held mutexes when every mutex it may pass through is free to be taken. -/
theorem locks_block {K : α → List μ → Bool → Prop} (emb : ν → μ) (b : Block ν ε σ α)
    {H : List μ} {fl : Bool} (hok : ∀ (m : ν) (b' : Bool), ok H b' (emb m))
    (hK : ∀ a b', K a H b') : (block emb b).Locks ok K H fl :=
  fun _ _ => locks_through emb _ H hok _ _ (hK _)

/-- A block that passes through no mutex leaves the flag of an action. -/
theorem locks_block_quiet {K : α → List μ → Bool → Prop} (emb : ν → μ) (b : Block ν ε σ α)
    {H : List μ} {fl : Bool} (hq : ∀ e s, (b.exec e s).passed = [])
    (hK : ∀ a, K a H true) : (block emb b).Locks ok K H fl := by
  intro e s
  show (through emb (b.exec e s).passed (ret (b.exec e s).value)).Locks ok K H true
  rw [hq e s]
  exact hK _

theorem locks_holding {K : α → List μ → Bool → Prop} {m : μ} {p : Prog μ ε σ α} {H : List μ}
    {b : Bool} (hok : ok H b m)
    (hp : p.Locks ok (fun a H' _ => m ∈ H' ∧ K a (H'.erase m) false) (m :: H) false) :
    (holding m p).Locks ok K H b := by
  refine ⟨hok, ?_⟩
  show (p >>= fun a => unlock m (ret a)).Locks ok K (m :: H) false
  rw [locks_bind]
  exact hp

end Locks

end Prog

end TerminalChat.Concurrency
