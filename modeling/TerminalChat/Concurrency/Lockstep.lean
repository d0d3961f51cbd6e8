import TerminalChat.Concurrency.Threads

/-!
# Two runs in lockstep

A relation of states leaves something open, and a program is even when it does not see what: on related
states it takes and releases the same mutexes, goes on in the same way and leaves related states. Two
programs that differ in what is left open are alike (`Prog.Alike`) when they keep pace with each other. A
configuration whose threads are alike to those of another one can be followed step by step
(`Config.Alike.stepThread`). An action has to be alike only where it is admissible: `L` is what the first
run is known to satisfy when a program acts.
-/

set_option autoImplicit false

namespace TerminalChat.Concurrency

variable {τ μ ν ε σ α β : Type}

namespace Block

/-- Run on two states, the block gives the same value, passes through the same mutexes and leaves states
related by `R`; as far as its state on the first one satisfies `S`. -/
def EvenAt (R : σ → σ → Prop) (S : σ → Prop) (b : Block ν ε σ α) (e : ε) (s s' : σ) : Prop :=
  S (b.exec e s).state → (b.exec e s').value = (b.exec e s).value ∧
    (b.exec e s').passed = (b.exec e s).passed ∧ R (b.exec e s).state (b.exec e s').state

/-- The block is even on all related states, and its values satisfy `K`. -/
structure Even (R : σ → σ → Prop) (b : Block ν ε σ α) (K : α → Prop) : Prop where
  value : ∀ e s, K (b.exec e s).value
  same : ∀ e s s', R s s' → b.EvenAt R (fun _ => True) e s s'

section Even

variable {R : σ → σ → Prop} {S : σ → Prop} {K : α → Prop} {K' : β → Prop} {e : ε} {s s' : σ}
  {b b' : Block ν ε σ α} {f : α → Block ν ε σ β}

theorem even_pure {a : α} (h : K a) : (pure a : Block ν ε σ α).Even R K :=
  ⟨fun _ _ => h, fun _ _ _ hs _ => ⟨rfl, rfl, hs⟩⟩

theorem Even.evenAt (h : b.Even R K) (hs : R s s') : b.EvenAt R S e s s' :=
  fun _ => h.same e s s' hs trivial

/-- After an even block it is the rest that counts. -/
theorem evenAt_bind (hb : b.Even R K) (hs : R s s')
    (hf : ∀ u', R (b.exec e s).state u' → (f (b.exec e s).value).EvenAt R S e (b.exec e s).state u') :
    (b >>= f).EvenAt R S e s s' := by
  intro hend
  -- the first block gives both runs one value, so the rest is the same program in both
  obtain ⟨hvalue, hpassed, hstate⟩ := hb.same e s s' hs trivial
  obtain ⟨hvalue', hpassed', hstate'⟩ := hf _ hstate hend
  refine ⟨?_, ?_, ?_⟩
  · show ((f (b.exec e s').value).exec e (b.exec e s').state).value = _
    rw [hvalue]
    exact hvalue'
  · show (b.exec e s').passed ++ ((f (b.exec e s').value).exec e (b.exec e s').state).passed = _
    rw [hvalue, hpassed, hpassed']
    rfl
  · show R _ ((f (b.exec e s').value).exec e (b.exec e s').state).state
    rw [hvalue]
    exact hstate'

theorem evenAt_ite {c : Prop} [Decidable c] (hb : c → b.EvenAt R S e s s')
    (hb' : ¬c → b'.EvenAt R S e s s') : (if c then b else b').EvenAt R S e s s' := by
  split
  · exact hb ‹_›
  · exact hb' ‹_›

/-- A branch that only reads, and binds its value to the rest of the block. -/
theorem evenAt_branch {c : Prop} [Decidable c] (hb : b.Even R K) (hb' : b'.Even R K)
    (hsame : (b.exec e s).state = s) (hsame' : (b'.exec e s).state = s) (hs : R s s')
    (hf : ∀ a u', K a → R s u' → (f a).EvenAt R S e s u') :
    (if c then b >>= f else b' >>= f).EvenAt R S e s s' := by
  have hread : ∀ b : Block ν ε σ α, b.Even R K → (b.exec e s).state = s →
      (b >>= f).EvenAt R S e s s' := by
    intro b hb hsame
    apply evenAt_bind hb hs
    rw [hsame]
    exact fun u' hu => hf _ u' (hb.value e s) hu
  exact evenAt_ite (fun _ => hread b hb hsame) fun _ => hread b' hb' hsame'

theorem even_bind (hb : b.Even R K) (hf : ∀ a, K a → (f a).Even R K') : (b >>= f).Even R K' := by
  constructor
  · intro e s
    exact (hf _ (hb.value e s)).value e _
  · intro e s s' hs
    apply evenAt_bind hb hs
    intro u' hu
    exact (hf _ (hb.value e s)).evenAt hu

theorem even_ite {c : Prop} [Decidable c] (hb : b.Even R K) (hb' : b'.Even R K) :
    (if c then b else b').Even R K := by
  split
  · exact hb
  · exact hb'

end Even

end Block

namespace Prog

/-- On related states the program acts in the same way, as far as `L` admits its actions; its results
satisfy `K`. -/
def Even (L R : σ → σ → Prop) (K : α → Prop) : Prog μ ε σ α → Prop
  | ret a => K a
  | lock _ next => next.Even L R K
  | unlock _ next => next.Even L R K
  | act f next =>
      (∀ e s s', R s s' → L s (f e s) → R (f e s) (f e s') ∧ next e s' = next e s) ∧
        ∀ e s, (next e s).Even L R K

/-- The programs keep pace: they do the same to the mutexes, every action that `L` admits takes related
states to related states, and the results are related by `K`. The state of the next action satisfies
`P`. -/
def Alike (L : Prog μ ε σ α → Prog μ ε σ α → σ → σ → Prop) (R : σ → σ → Prop) (K : α → α → Prop) :
    Prog μ ε σ α → Prog μ ε σ α → (σ → Prop) → Prop
  | ret a, ret a', _ => K a a'
  | lock m next, lock m' next', P => m' = m ∧ next.Alike L R K next' P
  | unlock m next, unlock m' next', P => m' = m ∧ next.Alike L R K next' P
  | act f next, act f' next', P => ∀ e s s', R s s' → P s →
      L (act f next) (act f' next') s (f e s) →
        R (f e s) (f' e s') ∧ (next e s).Alike L R K (next' e s') fun _ => True
  | _, _, _ => False

/-- Whatever is left of the program keeps pace with itself. -/
def Settled (L : Prog μ ε σ α → Prog μ ε σ α → σ → σ → Prop) (R : σ → σ → Prop) (K : α → α → Prop) :
    Prog μ ε σ α → Prop
  | ret a => K a a
  | lock _ next => next.Settled L R K
  | unlock _ next => next.Settled L R K
  | act f next => (act f next).Alike L R K (act f next) (fun _ => True) ∧
      ∀ e s, (next e s).Settled L R K

section Rules

variable {L R : σ → σ → Prop} {K : α → Prop} {K' : β → Prop}

theorem even_pure {a : α} (h : K a) : (pure a : Prog μ ε σ α).Even L R K := h

theorem even_bind {f : α → Prog μ ε σ β} (hf : ∀ a, K a → (f a).Even L R K') :
    ∀ p : Prog μ ε σ α, p.Even L R K → (p >>= f).Even L R K'
  | ret a, h => hf a h
  | lock _ next, h => even_bind hf next h
  | unlock _ next, h => even_bind hf next h
  | act _ next, h => by
      refine ⟨fun e s s' hs hl => ?_, fun e s => even_bind hf (next e s) (h.2 e s)⟩
      obtain ⟨hstate, hnext⟩ := h.1 e s s' hs hl
      exact ⟨hstate, congrArg (fun p : Prog μ ε σ α => p.bind f) hnext⟩

theorem even_ite {c : Prop} [Decidable c] {p p' : Prog μ ε σ α} (hp : p.Even L R K)
    (hp' : p'.Even L R K) : (if c then p else p').Even L R K := by
  split
  · exact hp
  · exact hp'

theorem even_through (emb : ν → μ) {p : Prog μ ε σ α} (h : p.Even L R K) :
    ∀ ms : List ν, (through emb ms p).Even L R K
  | [] => h
  | _ :: ms => even_through emb h ms

theorem even_block (emb : ν → μ) {b : Block ν ε σ α} (hvalue : ∀ e s, K (b.exec e s).value)
    (hb : ∀ e s s', R s s' → b.EvenAt R (L s) e s s') : (block emb b).Even L R K := by
  constructor
  · intro e s s' hs hl
    obtain ⟨hsame, hpassed, hstate⟩ := hb e s s' hs hl
    refine ⟨hstate, ?_⟩
    dsimp only
    rw [hsame, hpassed]
  · intro e s
    exact even_through emb (p := ret _) (hvalue e s) _

theorem even_holding (m : μ) {p : Prog μ ε σ α} (h : p.Even L R K) : (holding m p).Even L R K :=
  even_bind (f := fun a => unlock m (ret a)) (fun _ ha => ha) p h

end Rules

section Alike

variable {L : Prog μ ε σ α → Prog μ ε σ α → σ → σ → Prop} {R : σ → σ → Prop} {K : α → α → Prop}
  {P : σ → Prop}

/-- Less may be known of the next state than is needed. -/
theorem alike_strengthen {P' : σ → Prop} (hP : ∀ s, P' s → P s) :
    ∀ p p' : Prog μ ε σ α, p.Alike L R K p' P → p.Alike L R K p' P'
  | ret _, ret _, h => h
  | lock _ next, lock _ next', h => ⟨h.1, alike_strengthen hP next next' h.2⟩
  | unlock _ next, unlock _ next', h => ⟨h.1, alike_strengthen hP next next' h.2⟩
  | act _ _, act _ _, h => fun e s s' hs hp hl => h e s s' hs (hP s hp) hl

/-- An even program keeps pace with itself. -/
theorem Even.alike {S : σ → σ → Prop} {V : α → Prop} (hL : ∀ q q' s u, L q q' s u → S s u)
    (hK : ∀ a, V a → K a a) :
    ∀ p : Prog μ ε σ α, p.Even S R V → p.Alike L R K p fun _ => True
  | ret a, h => hK a h
  | lock _ next, h => ⟨rfl, Even.alike hL hK next h⟩
  | unlock _ next, h => ⟨rfl, Even.alike hL hK next h⟩
  | act _ next, h => by
      intro e s s' hs _ hl
      obtain ⟨hstate, hnext⟩ := h.1 e s s' hs (hL _ _ s _ hl)
      rw [hnext]
      exact ⟨hstate, Even.alike hL hK (next e s) (h.2 e s)⟩

theorem Even.settled {S : σ → σ → Prop} {V : α → Prop} (hL : ∀ q q' s u, L q q' s u → S s u)
    (hK : ∀ a, V a → K a a) : ∀ p : Prog μ ε σ α, p.Even S R V → p.Settled L R K
  | ret a, h => hK a h
  | lock _ next, h => Even.settled hL hK next h
  | unlock _ next, h => Even.settled hL hK next h
  | act f next, h => ⟨Even.alike hL hK (act f next) h, fun e s => Even.settled hL hK _ (h.2 e s)⟩

theorem Settled.alike : ∀ p : Prog μ ε σ α, p.Settled L R K → p.Alike L R K p fun _ => True
  | ret _, h => h
  | lock _ next, h => ⟨rfl, Settled.alike next h⟩
  | unlock _ next, h => ⟨rfl, Settled.alike next h⟩
  | act _ _, h => h.1

theorem alike_bind {M : Prog μ ε σ β → Prog μ ε σ β → σ → σ → Prop} {J : β → β → Prop}
    {f g : α → Prog μ ε σ β} (hf : ∀ a a', K a a' → (f a).Alike M R J (g a') fun _ => True) :
    ∀ (p p' : Prog μ ε σ α) (P : σ → Prop), p.Alike (fun q q' => M (q >>= f) (q' >>= g)) R K p' P →
      (p >>= f).Alike M R J (p' >>= g) P
  | ret a, ret a', _, h => alike_strengthen (fun _ _ => trivial) _ _ (hf a a' h)
  | lock _ next, lock _ next', P, h => ⟨h.1, alike_bind hf next next' P h.2⟩
  | unlock _ next, unlock _ next', P, h => ⟨h.1, alike_bind hf next next' P h.2⟩
  | act _ _, act _ _, _, h => fun e s s' hs hp hl =>
      ⟨(h e s s' hs hp hl).1, alike_bind hf _ _ _ (h e s s' hs hp hl).2⟩

theorem settled_bind {M : Prog μ ε σ β → Prog μ ε σ β → σ → σ → Prop} {J : β → β → Prop}
    {f : α → Prog μ ε σ β} (hf : ∀ a a', K a a' → (f a).Alike M R J (f a') fun _ => True)
    (hset : ∀ a, K a a → (f a).Settled M R J) :
    ∀ p : Prog μ ε σ α, p.Settled (fun q q' => M (q >>= f) (q' >>= f)) R K → (p >>= f).Settled M R J
  | ret a, h => hset a h
  | lock _ next, h => settled_bind hf hset next h
  | unlock _ next, h => settled_bind hf hset next h
  | act _ next, h => ⟨alike_bind hf _ _ _ h.1, fun e s => settled_bind hf hset (next e s) (h.2 e s)⟩

theorem settled_holding (m : μ) {p : Prog μ ε σ α}
    (h : p.Settled (fun q q' => L (q.bind fun a => unlock m (ret a)) (q'.bind fun a => unlock m (ret a)))
      R K) : (holding m p).Settled L R K := by
  apply settled_bind (M := L) (J := K) (f := fun a => unlock m (ret a)) _ _ p h
  · exact fun _ _ ha => ⟨rfl, ha⟩
  · exact fun _ ha => ha

/-- An even program comes before a settled one. -/
theorem Even.settled_bind {S : σ → σ → Prop} {V : β → Prop} (hL : ∀ q q' s u, L q q' s u → S s u)
    {f : β → Prog μ ε σ α} (hf : ∀ b, V b → (f b).Settled L R K) :
    ∀ p : Prog μ ε σ β, p.Even S R V → (p >>= f).Settled L R K
  | ret b, h => hf b h
  | lock _ next, h => Even.settled_bind hL hf next h
  | unlock _ next, h => Even.settled_bind hL hf next h
  | act _ next, h => by
      refine ⟨fun e s s' hs _ hl => ?_, fun e s => Even.settled_bind hL hf (next e s) (h.2 e s)⟩
      obtain ⟨hstate, hnext⟩ := h.1 e s s' hs (hL _ _ s _ hl)
      refine ⟨hstate, ?_⟩
      dsimp only
      rw [hnext]
      exact (Even.settled_bind hL hf (next e s) (h.2 e s)).alike

theorem alike_through (emb : ν → μ) {p q : Prog μ ε σ α} (h : p.Alike L R K q P) :
    ∀ ms : List ν, (through emb ms p).Alike L R K (through emb ms q) P
  | [] => h
  | _ :: ms => ⟨rfl, rfl, alike_through emb h ms⟩

/-- Two blocks that pass through the same mutexes. -/
theorem alike_block (emb : ν → μ) {b b' : Block ν ε σ α}
    (hb : ∀ e s s', R s s' → P s → L (block emb b) (block emb b') s (b.exec e s).state →
      K (b.exec e s).value (b'.exec e s').value ∧ (b'.exec e s').passed = (b.exec e s).passed ∧
        R (b.exec e s).state (b'.exec e s').state) :
    (block emb b).Alike L R K (block emb b') P := by
  intro e s s' hs hp hl
  obtain ⟨hvalue, hpassed, hstate⟩ := hb e s s' hs hp hl
  refine ⟨hstate, ?_⟩
  dsimp only
  rw [hpassed]
  exact alike_through emb (p := ret _) (q := ret _) hvalue _

theorem alike_holding (m : μ) {p p' : Prog μ ε σ α}
    (h : p.Alike (fun q q' => L (q.bind fun a => unlock m (ret a)) (q'.bind fun a => unlock m (ret a)))
      R K p' P) :
    (holding m p).Alike L R K (holding m p') P := by
  refine ⟨rfl, ?_⟩
  apply alike_bind (M := L) (f := fun a => unlock m (ret a)) (g := fun a => unlock m (ret a)) _ p p' P h
  exact fun _ _ ha => ⟨rfl, ha⟩

/-- Programs that keep pace finish together. -/
theorem Alike.isDone : ∀ {p p' : Prog μ ε σ α}, p.Alike L R K p' P → p'.isDone = p.isDone
  | ret _, ret _, _ => rfl
  | lock _ _, lock _ _, _ => rfl
  | unlock _ _, unlock _ _, _ => rfl
  | act _ _, act _ _, _ => rfl

end Alike

end Prog

namespace Config

variable [DecidableEq τ] [DecidableEq μ]

/-- Whatever is left of the threads keeps pace with itself. -/
def Settled (L : τ → Prog μ ε σ Unit → Prog μ ε σ Unit → σ → σ → Prop) (R : σ → σ → Prop)
    (c : Config τ μ ε σ) : Prop := ∀ t, (c.prog t).Settled (L t) R fun _ _ => True

/-- The configurations keep pace: their mutexes have the same owners, their states are related, and so do
their threads. What a thread knows of its next state is something that the others leave alone, as `Keeps`
says. -/
structure Alike (L : τ → Prog μ ε σ Unit → Prog μ ε σ Unit → σ → σ → Prop) (R : σ → σ → Prop)
    (Keeps : τ → (σ → Prop) → Prop) (c c' : Config τ μ ε σ) : Prop where
  owner : c'.owner = c.owner
  shared : R c.shared c'.shared
  prog : ∀ t, ∃ P, Keeps t P ∧ P c.shared ∧
    (c.prog t).Alike (L t) R (fun _ _ => True) (c'.prog t) P

variable {L : τ → Prog μ ε σ Unit → Prog μ ε σ Unit → σ → σ → Prop} {R : σ → σ → Prop}
  {Keeps : τ → (σ → Prop) → Prop} {c c' c₁ : Config τ μ ε σ} {t : τ} {e : ε}

omit [DecidableEq μ] in
theorem settled_update {p : Prog μ ε σ Unit} (h : c.Settled L R)
    (hp : p.Settled (L t) R fun _ _ => True) (s : σ) (owner : μ → Option τ) :
    Settled L R ⟨s, owner, Function.update c.prog t p⟩ := by
  intro u
  by_cases hu : u = t
  · subst hu
    simpa using hp
  · simpa [Function.update_of_ne hu] using h u

/-- Every step leaves settled threads behind. -/
theorem Settled.stepThread (h : c.Settled L R) (hstep : c.stepThread t e = some c₁) :
    c₁.Settled L R := by
  have hprog := h t
  rcases stepThread_cases hstep with ⟨m, next, hp, -, rfl⟩ | ⟨m, next, hp, rfl⟩ | ⟨f, next, hp, rfl⟩
  · rw [hp] at hprog
    exact settled_update (p := next) h hprog _ _
  · rw [hp] at hprog
    exact settled_update (p := next) h hprog _ _
  · rw [hp] at hprog
    exact settled_update h (hprog.2 _ _) _ _

omit [DecidableEq τ] [DecidableEq μ] in
/-- Settled configurations keep pace with themselves. -/
theorem Settled.alike (h : c.Settled L R) (hs : R c.shared c.shared)
    (hkeeps : ∀ t, Keeps t fun _ => True) : c.Alike L R Keeps c :=
  ⟨rfl, hs, fun t => ⟨_, hkeeps t, trivial, (h t).alike⟩⟩

omit [DecidableEq μ] in
/-- One thread goes on, and the others still know what they knew. -/
theorem Alike.update (h : c.Alike L R Keeps c') {s s' : σ} (hs : R s s')
    (hkeep : ∀ u ≠ t, ∀ P, Keeps u P → P c.shared → P s) (owner : μ → Option τ)
    {p p' : Prog μ ε σ Unit} {P : σ → Prop} (hkeeps : Keeps t P) (hP : P s)
    (hp : p.Alike (L t) R (fun _ _ => True) p' P) :
    Alike L R Keeps ⟨s, owner, Function.update c.prog t p⟩
      ⟨s', owner, Function.update c'.prog t p'⟩ := by
  refine ⟨rfl, hs, fun u => ?_⟩
  by_cases hu : u = t
  · subst hu
    exact ⟨P, hkeeps, hP, by simpa using hp⟩
  · obtain ⟨P', hkeeps', hP', hprog⟩ := h.prog u
    exact ⟨P', hkeeps', hkeep u hu P' hkeeps' hP', by simpa [Function.update_of_ne hu] using hprog⟩

/-- The second configuration follows an admissible step of the first one. -/
theorem Alike.stepThread (h : c.Alike L R Keeps c') (hstep : c.stepThread t e = some c₁)
    (hkeep : ∀ u ≠ t, ∀ P, Keeps u P → P c.shared → P c₁.shared)
    (htrue : ∀ t, Keeps t fun _ => True) (hl : L t (c.prog t) (c'.prog t) c.shared c₁.shared) :
    ∃ c₁', c'.stepThread t e = some c₁' ∧ c₁.Alike L R Keeps c₁' := by
  obtain ⟨P, hkeeps, hP, hprog⟩ := h.prog t
  -- the other thread stands at a step of the same kind: a lock, an unlock or an action
  rcases stepThread_cases hstep with ⟨m, next, hp, hfree, rfl⟩ | ⟨m, next, hp, rfl⟩ |
    ⟨f, next, hp, rfl⟩
  · rw [hp] at hprog
    cases hp' : c'.prog t with
    | lock m' next' =>
        rw [hp'] at hprog
        obtain ⟨rfl, hnext⟩ := hprog
        refine ⟨_, ?_, h.update h.shared hkeep _ hkeeps hP hnext⟩
        -- the owners agree, so the mutex is free there too
        simp only [Config.stepThread, hp', h.owner, hfree]
    | _ =>
        rw [hp'] at hprog
        exact hprog.elim
  · rw [hp] at hprog
    cases hp' : c'.prog t with
    | unlock m' next' =>
        rw [hp'] at hprog
        obtain ⟨rfl, hnext⟩ := hprog
        refine ⟨_, ?_, h.update h.shared hkeep _ hkeeps hP hnext⟩
        simp only [Config.stepThread, hp', h.owner]
    | _ =>
        rw [hp'] at hprog
        exact hprog.elim
  · rw [hp] at hprog hl
    cases hp' : c'.prog t with
    | act f' next' =>
        rw [hp'] at hprog hl
        obtain ⟨hs, hnext⟩ := hprog e c.shared c'.shared h.shared hP hl
        refine ⟨_, ?_, h.update hs hkeep _ (htrue t) trivial hnext⟩
        simp only [Config.stepThread, hp', h.owner]
    | _ =>
        rw [hp'] at hprog
        exact hprog.elim

end Config

end TerminalChat.Concurrency
