import Mathlib
import TerminalChat.Concurrency.Threads

/-!
# Runs of threads end

A program is a well-founded tree: whatever its actions read, it is over after finitely many steps
(`Prog.wellFounded_next`). A step of one thread replaces one program of the multiset of remaining
programs by a part of it (`Config.tasks_stepThread`), so every interleaving of finitely many threads
ends. Where no thread can step and no set of threads is deadlocked, all threads are finished
(`Config.finished_of_stuck`). A measure that goes down with some steps of a run and stays with the others
leaves room for finitely many of the former (`finite_of_descents`).
-/

set_option autoImplicit false

namespace TerminalChat.Concurrency

variable {τ μ ε σ α : Type}

namespace Prog

/-- `q.Next p`: one step of a thread with the program `p` may leave it with `q`. -/
inductive Next : Prog μ ε σ α → Prog μ ε σ α → Prop where
  | lock (m : μ) (next : Prog μ ε σ α) : Next next (.lock m next)
  | unlock (m : μ) (next : Prog μ ε σ α) : Next next (.unlock m next)
  | act (f : ε → σ → σ) (next : ε → σ → Prog μ ε σ α) (e : ε) (s : σ) :
      Next (next e s) (.act f next)

/-- No program goes on forever. -/
theorem wellFounded_next : WellFounded (Next : Prog μ ε σ α → Prog μ ε σ α → Prop) := by
  constructor
  intro p
  induction p with
  | ret a =>
      constructor
      intro q hq
      cases hq
  | lock m next ih =>
      constructor
      intro q hq
      cases hq
      exact ih
  | unlock m next ih =>
      constructor
      intro q hq
      cases hq
      exact ih
  | act f next ih =>
      constructor
      intro q hq
      -- what an action reads selects one of the subtrees
      cases hq with
      | act f next e s => exact ih e s

/-- A finished program is a return. -/
theorem eq_ret_of_done {p : Prog μ ε σ α} (h : p.isDone = true) : ∃ a, p = .ret a := by
  cases p with
  | ret a => exact ⟨a, rfl⟩
  | lock m next => cases h
  | unlock m next => cases h
  | act f next => cases h

end Prog

namespace Config

variable [DecidableEq τ] [DecidableEq μ] {c c' : Config τ μ ε σ} {t : τ} {e : ε}

/-- A finished thread takes no step. -/
theorem stepThread_of_done (h : (c.prog t).isDone = true) : c.stepThread t e = none := by
  obtain ⟨a, hp⟩ := Prog.eq_ret_of_done h
  simp [stepThread, hp]

/-- The moving thread goes on to a part of its program. -/
theorem next_stepThread (h : c.stepThread t e = some c') : (c'.prog t).Next (c.prog t) := by
  rcases stepThread_cases h with ⟨m, next, hp, -, rfl⟩ | ⟨m, next, hp, rfl⟩ | ⟨f, next, hp, rfl⟩
  · rw [hp]
    simpa using Prog.Next.lock m next
  · rw [hp]
    simpa using Prog.Next.unlock m next
  · rw [hp]
    simpa using Prog.Next.act f next e c.shared

/-- The remaining programs of the threads in `S`. -/
def tasks (c : Config τ μ ε σ) (S : Finset τ) : Multiset (Prog μ ε σ Unit) := S.val.map c.prog

/-- A step of a thread in `S` replaces its program by a part of it. -/
theorem tasks_stepThread {S : Finset τ} (ht : t ∈ S) (h : c.stepThread t e = some c') :
    Relation.CutExpand Prog.Next (c'.tasks S) (c.tasks S) := by
  have hsplit : S.val = t ::ₘ (S.erase t).val := by
    rw [Finset.erase_val, Multiset.cons_erase ht]
  have hrest : (S.erase t).val.map c'.prog = (S.erase t).val.map c.prog := by
    apply Multiset.map_congr rfl
    intro u hu
    exact stepThread_prog_of_ne h (Finset.ne_of_mem_erase hu)
  have hcut := Relation.cutExpand_single_add (next_stepThread h) ((S.erase t).val.map c.prog)
  rw [tasks, tasks, hsplit, Multiset.map_cons, Multiset.map_cons, hrest]
  exact hcut

/-! ## Progress -/

/-- Every thread is finished. -/
def Finished (c : Config τ μ ε σ) : Prop := ∀ t, (c.prog t).isDone = true

/-- A thread that cannot step although it is not finished waits for another one. -/
theorem waitsFor_of_stuck (hd : (c.prog t).isDone = false) (h : c.stepThread t e = none) :
    ∃ u, c.WaitsFor t u := by
  cases hp : c.prog t with
  | ret a => simp [hp, Prog.isDone] at hd
  | lock m next =>
      cases ho : c.owner m with
      | none => simp [stepThread, hp, ho] at h
      | some u => exact ⟨u, m, next, hp, ho⟩
  | unlock m next => simp [stepThread, hp] at h
  | act f next => simp [stepThread, hp] at h

/-- Threads that keep a lock discipline and cannot step are finished, or some are deadlocked. -/
theorem finished_of_stuck {ok : τ → List μ → Bool → μ → Prop} {held : τ → List μ}
    {acted : τ → Bool} (hd : Disciplined ok c held acted) (hfree : ∀ S, ¬c.Deadlocked S)
    (hstuck : ∀ t, ∃ e, c.stepThread t e = none) : c.Finished := by
  by_contra hall
  simp only [Finished, not_forall, Bool.not_eq_true] at hall
  -- the unfinished threads wait for unfinished threads, since a finished one holds no mutex
  apply hfree {t | (c.prog t).isDone = false}
  constructor
  · exact hall
  · intro t ht
    obtain ⟨e, hnone⟩ := hstuck t
    obtain ⟨u, m, next, hp, ho⟩ := waitsFor_of_stuck ht hnone
    refine ⟨u, ?_, m, next, hp, ho⟩
    show (c.prog u).isDone = false
    by_contra hdone
    rw [Bool.not_eq_false] at hdone
    have hmem := (hd.owner_iff m u).1 ho
    rw [hd.held_of_done hdone] at hmem
    exact absurd hmem List.not_mem_nil

end Config

/-! ## Infinite runs -/

/-- A sequence that goes up nowhere goes down at finitely many places. -/
theorem finite_of_descents {r : α → α → Prop} (hr : WellFounded r) (f : ℕ → α) {S : Set ℕ}
    (hdown : ∀ n ∈ S, r (f (n + 1)) (f n)) (hstep : ∀ n, r (f (n + 1)) (f n) ∨ f (n + 1) = f n) :
    S.Finite := by
  -- by well-founded induction on the value from which on the places are counted
  have hfrom : ∀ (a : α) (n : ℕ), f n = a → {k | k ∈ S ∧ n ≤ k}.Finite := by
    intro a
    induction a using hr.induction with
    | _ a ih =>
        rintro n rfl
        by_cases hfalls : ∃ k, n ≤ k ∧ r (f (k + 1)) (f k)
        · classical
          obtain ⟨hle, hfall⟩ := Nat.find_spec hfalls
          have hconst : ∀ d, n + d ≤ Nat.find hfalls → f (n + d) = f n := by
            intro d
            induction d with
            | zero => exact fun _ => rfl
            | succ d ihd =>
                intro hd
                have hbefore : ¬r (f (n + d + 1)) (f (n + d)) := fun hlt =>
                  Nat.find_min hfalls (Nat.lt_of_succ_le hd) ⟨Nat.le_add_right n d, hlt⟩
                exact ((hstep (n + d)).resolve_left hbefore).trans (ihd (by omega))
          have hsame : f (Nat.find hfalls) = f n := by
            have h := hconst (Nat.find hfalls - n) (by omega)
            rwa [Nat.add_sub_cancel' hle] at h
          have hlater := ih (f (Nat.find hfalls + 1)) (hsame ▸ hfall) (Nat.find hfalls + 1) rfl
          refine ((Set.finite_Iic (Nat.find hfalls)).union hlater).subset ?_
          rintro k ⟨hk, -⟩
          rcases Nat.lt_or_ge (Nat.find hfalls) k with hlt | hge
          · exact Or.inr ⟨hk, hlt⟩
          · exact Or.inl hge
        · refine Set.finite_empty.subset ?_
          rintro k ⟨hk, hle⟩
          exact hfalls ⟨k, hle, hdown k hk⟩
  have hall := hfrom (f 0) 0 rfl
  simpa using hall

end TerminalChat.Concurrency
