import Mathlib
import TerminalChat.Server.LockOrder
import TerminalChat.Server.Runs

/-!
# Deadlocks of the server

The lock order of the threads leaves one way into a deadlock: the main thread holds
`g_clientsMutex` and goes for `g_chatRoomsMutex` while the broadcaster holds the latter and goes for
the former (`Machine.crossed_of_deadlocked`). A run gets there only through an overlap of the two
(`Machine.Overlap`), so in a run that avoids it no set of threads is ever deadlocked
(`Machine.ordered_of_reachable`).
-/

set_option autoImplicit false

namespace TerminalChat.Server

open TerminalChat.Concurrency TerminalChat.Text

namespace Machine

/-- The main thread holds `g_clientsMutex` and goes for `g_chatRoomsMutex`, and the broadcaster
holds `g_chatRoomsMutex` and goes for `g_clientsMutex`. -/
def Overlap (m : Machine) : Prop :=
  (m.config.owner .clientsMutex = some .main ∧
    (m.config.prog .main).Aims .chatRoomsMutex m.globals) ∧
  m.config.owner .chatRoomsMutex = some .broadcaster ∧
    (m.config.prog .broadcaster).Aims .clientsMutex m.globals

/-- No step is taken from an overlap. -/
def noOverlap : Machine → Label → Prop := fun m _ => ¬m.Overlap

/-- The threads keep the lock order, with the mutexes `held` by them. -/
abbrev Ordered (m : Machine) (held : Tid → List Mutex) (acted : Tid → Bool) : Prop :=
  Config.Disciplined (mayTake True) m.config held acted

variable {m m' : Machine} {held : Tid → List Mutex} {acted : Tid → Bool}

theorem ordered_boot (db : Database) (listenSocket : SOCKET) :
    (boot db listenSocket).Ordered (fun _ => []) fun _ => false :=
  ⟨by simp [boot], by simp, fun _ => rfl⟩

/-- The two threads stand in each other's way. -/
structure Crossed (m : Machine) (held : Tid → List Mutex) (acted : Tid → Bool) : Prop where
  mainHolds : held .main = [.clientsMutex]
  mainWaits : ∃ next, m.config.prog .main = .lock .chatRoomsMutex next
  mainActed : acted .main = true
  broadcasterHolds : held .broadcaster = [.chatRoomsMutex]
  broadcasterWaits : ∃ next, m.config.prog .broadcaster = .lock .clientsMutex next
  broadcasterActed : acted .broadcaster = true

/-- A thread that holds a mutex and may take another holds one of the two big ones and goes for the
other. -/
theorem holder_cases {u : Tid} {n n' : Mutex} {b : Bool} (hn : n ∈ held u)
    (hmay : mayTake True u (held u) b n') (hleaf : ∀ l, n' ≠ .leaf l) :
    (u = .main ∧ held u = [.clientsMutex] ∧ n' = .chatRoomsMutex ∧ b = true) ∨
    (u = .main ∧ held u = [.chatRoomsMutex] ∧ n' = .clientsMutex) ∨
    (u = .broadcaster ∧ held u = [.chatRoomsMutex] ∧ n' = .clientsMutex ∧ b = true) := by
  -- the rule lets a thread take the other mutexes only with empty hands
  have hne : held u ≠ [] := List.ne_nil_of_mem hn
  cases n' with
  | leaf l => exact absurd rfl (hleaf l)
  | queueMutex => cases u <;> exact absurd hmay hne
  | pollFdsMutex => cases u <;> exact absurd hmay hne
  | clientsMutex =>
      cases u with
      | main => exact Or.inr (Or.inl ⟨rfl, hmay.resolve_left hne, rfl⟩)
      | broadcaster => exact Or.inr (Or.inr ⟨rfl, hmay.1, rfl, hmay.2⟩)
      | cleanup n => exact hmay.elim
  | chatRoomsMutex =>
      cases u with
      | main =>
          obtain ⟨hh, hb, -⟩ := hmay.resolve_left hne
          exact Or.inl ⟨rfl, hh, rfl, hb⟩
      | broadcaster => exact absurd hmay hne
      | cleanup n => exact absurd hmay hne

/-- Nobody holds the mutex of a room or of the database while it waits. -/
theorem leaf_not_held {u : Tid} {l : Leaf} {n' : Mutex} {b : Bool}
    (hmay : mayTake True u (held u) b n') : Mutex.leaf l ∉ held u := by
  intro hn
  cases n' with
  | leaf l' =>
      have h : ∀ m ∈ held u, m = .clientsMutex ∨ m = .chatRoomsMutex := by
        cases u <;> exact hmay
      simpa using h _ hn
  | _ =>
      rcases holder_cases hn hmay (by simp) with ⟨-, h, -⟩ | ⟨-, h, -⟩ | ⟨-, h, -⟩ <;>
        simp [h] at hn

/-- Every deadlock is the crossing of the main thread and the broadcaster. -/
theorem crossed_of_deadlocked (hd : m.Ordered held acted) {S : Set Tid}
    (hS : m.config.Deadlocked S) : m.Crossed held acted := by
  -- whatever a thread of the set waits for is held by one that waits for a big mutex in turn
  have hnext : ∀ t ∈ S, ∃ n next, m.config.prog t = .lock n next ∧ ∃ u ∈ S, n ∈ held u ∧
      ∃ n' next', m.config.prog u = .lock n' next' ∧
        ((u = .main ∧ held u = [.clientsMutex] ∧ n' = .chatRoomsMutex ∧ acted u = true) ∨
          (u = .main ∧ held u = [.chatRoomsMutex] ∧ n' = .clientsMutex) ∨
          (u = .broadcaster ∧ held u = [.chatRoomsMutex] ∧ n' = .clientsMutex ∧
            acted u = true)) := by
    intro t ht
    obtain ⟨n, next, hp, u, hu, hn, n', next', hp', hmay⟩ := hS.hold_and_wait hd ht
    refine ⟨n, next, hp, u, hu, hn, n', next', hp', holder_cases hn hmay fun l hl => ?_⟩
    obtain ⟨n₁, next₁, hp₁, v, hv, hn₁, n₂, next₂, -, hmay₂⟩ := hS.hold_and_wait hd hu
    rw [hp', Prog.lock.injEq] at hp₁
    rw [← hp₁.1, hl] at hn₁
    exact leaf_not_held hmay₂ hn₁
  obtain ⟨t, ht⟩ := hS.1
  obtain ⟨n, next, hp, u, hu, hn, n', next', hp', hcase⟩ := hnext t ht
  obtain ⟨n₁, next₁, hp₁, v, hv, hn₁, n₂, next₂, hp₂, hcase'⟩ := hnext u hu
  rw [hp', Prog.lock.injEq] at hp₁
  obtain ⟨rfl, -⟩ := hp₁
  rcases hcase with ⟨rfl, hh, rfl, hb⟩ | ⟨rfl, hh, rfl⟩ | ⟨rfl, hh, rfl, hb⟩ <;>
    rcases hcase' with ⟨rfl, hh', rfl, hb'⟩ | ⟨rfl, hh', rfl⟩ | ⟨rfl, hh', rfl, hb'⟩ <;>
      simp [hh'] at hn₁
  · simp [hh] at hh'
  · exact ⟨hh, ⟨_, hp'⟩, hb, hh', ⟨_, hp₂⟩, hb'⟩
  · simp [hh] at hh'
  · exact ⟨hh', ⟨_, hp₂⟩, hb', hh, ⟨_, hp'⟩, hb⟩

theorem aims_of_lock {p : Thread Unit} {n : Mutex} (h : ∃ next, p = .lock n next) (s : Globals) :
    p.Aims n s := by
  obtain ⟨next, rfl⟩ := h
  exact rfl

/-- Another thread's step takes no mutex away. -/
theorem owner_of_stepThread {c c' : Config Tid Mutex Env Globals} {t u : Tid} {e : Env} {n : Mutex}
    (h : c.stepThread t e = some c') (hu : u ≠ t) (ho : c'.owner n = some u) :
    c.owner n = some u := by
  rcases Config.stepThread_cases h with ⟨k, next, -, -, rfl⟩ | ⟨k, next, -, rfl⟩ |
    ⟨f, next, -, rfl⟩
  · by_cases hk : n = k
    · simp [hk, Ne.symm hu] at ho
    · simpa [Function.update_of_ne hk] using ho
  · by_cases hk : n = k
    · simp [hk] at ho
    · simpa [Function.update_of_ne hk] using ho
  · exact ho

/-- A thread that has just acted took no mutex. -/
theorem owner_of_act {c c' : Config Tid Mutex Env Globals} {t : Tid} {e : Env}
    (h : c.stepThread t e = some c') (hact : (c.prog t).isAct = true) : c'.owner = c.owner := by
  rcases Config.stepThread_cases h with ⟨k, next, hp, -, rfl⟩ | ⟨k, next, hp, rfl⟩ |
    ⟨f, next, -, rfl⟩
  · simp [hp, Prog.isAct] at hact
  · simp [hp, Prog.isAct] at hact
  · rfl

/-- A thread that stands before a mutex after its action, or did not move, was going for it. -/
theorem aims_before {c c' : Config Tid Mutex Env Globals} {t u : Tid} {e : Env} {n : Mutex}
    (h : c.stepThread t e = some c') (hact : t = u → (c.prog u).isAct = true)
    (hp : ∃ next, c'.prog u = .lock n next) : (c.prog u).Aims n c.shared := by
  by_cases hu : u = t
  · subst hu
    obtain ⟨next, hp⟩ := hp
    exact Config.aims_of_stepThread h (hact rfl) hp
  · rw [Config.stepThread_prog_of_ne h hu] at hp
    exact aims_of_lock hp _

/-- A thread that holds a mutex, and has just acted if it moved, held it before. -/
theorem owner_before {c c' : Config Tid Mutex Env Globals} {t u : Tid} {e : Env} {n : Mutex}
    (h : c.stepThread t e = some c') (hact : t = u → (c.prog u).isAct = true)
    (ho : c'.owner n = some u) : c.owner n = some u := by
  by_cases hu : u = t
  · subst hu
    rwa [owner_of_act h (hact rfl)] at ho
  · exact owner_of_stepThread h hu ho

/-- The step into a crossing is taken from an overlap. -/
theorem overlap_of_crossed {t : Tid} {e : Env}
    (h : m.next (.run t e) = some m') {held' : Tid → List Mutex}
    (hd' : m'.Ordered held' (Function.update acted t (m.config.prog t).isAct))
    (hc : m'.Crossed held' (Function.update acted t (m.config.prog t).isAct)) : m.Overlap := by
  simp only [next, Option.map_eq_some_iff] at h
  obtain ⟨c, hstep, rfl⟩ := h
  -- each has acted since it took its mutex, so it held it and aimed at the other before this step too
  have hmain : t = .main → (m.config.prog .main).isAct = true := by
    rintro rfl
    simpa using hc.mainActed
  have hbroadcaster : t = .broadcaster → (m.config.prog .broadcaster).isAct = true := by
    rintro rfl
    simpa using hc.broadcasterActed
  have hown : c.owner .clientsMutex = some .main := (hd'.owner_iff _ _).2 (by simp [hc.mainHolds])
  have hown' : c.owner .chatRoomsMutex = some .broadcaster :=
    (hd'.owner_iff _ _).2 (by simp [hc.broadcasterHolds])
  exact ⟨⟨owner_before hstep hmain hown, aims_before hstep hmain hc.mainWaits⟩,
    owner_before hstep hbroadcaster hown', aims_before hstep hbroadcaster hc.broadcasterWaits⟩

/-- A crossing that no thread's step has just made is an overlap. -/
theorem overlap_of_crossed_same (hd : m.Ordered held acted) (hc : m.Crossed held acted) :
    m.Overlap :=
  ⟨⟨(hd.owner_iff _ _).2 (by simp [hc.mainHolds]), aims_of_lock hc.mainWaits _⟩,
    (hd.owner_iff _ _).2 (by simp [hc.broadcasterHolds]), aims_of_lock hc.broadcasterWaits _⟩

/-- Starting a program on a finished thread makes no crossing. -/
theorem crossed_of_start (hd : m.Ordered held acted) {s : Globals} {t : Tid} {p : Thread Unit}
    {k : Nat} (hdone : (m.config.prog t).isDone = true)
    (hc : Crossed { config := (m.config.setShared s).start t p, woken := k } held acted) :
    m.Crossed held acted := by
  have hfree := hd.held_of_done hdone
  have hne : ∀ u, held u ≠ [] → u ≠ t := by
    rintro u hu rfl
    exact hu hfree
  have hmain := hne .main (by simp [hc.mainHolds])
  have hbroadcaster := hne .broadcaster (by simp [hc.broadcasterHolds])
  refine ⟨hc.mainHolds, ?_, hc.mainActed, hc.broadcasterHolds, ?_, hc.broadcasterActed⟩
  · simpa [Config.start, Config.setShared, Function.update_of_ne hmain] using hc.mainWaits
  · simpa [Config.start, Config.setShared, Function.update_of_ne hbroadcaster]
      using hc.broadcasterWaits

/-- A step keeps the order, and only a step from an overlap makes a crossing. -/
theorem ordered_next (hd : m.Ordered held acted) (hm : m.Asleep) {l : Label}
    (h : m.next l = some m') :
    ∃ held' acted', m'.Ordered held' acted' ∧ m'.Asleep ∧
      (m'.Crossed held' acted' → m.Overlap) := by
  have hasleep := hm.next h
  have hsame : ∀ s k, Ordered ⟨m.config.setShared s, k⟩ held acted := fun s k =>
    Config.disciplined_setShared hd s
  cases l with
  | event ev =>
      simp only [next, Option.ite_none_right_eq_some, Option.some.injEq] at h
      obtain ⟨⟨hidle, -⟩, rfl⟩ := h
      refine ⟨held, acted, Config.disciplined_start hd hidle (keeps_handler ev (fun _ _ _ => trivial) _),
        hasleep, fun hc => ?_⟩
      exact overlap_of_crossed_same hd (crossed_of_start (s := m.globals) hd hidle hc)
  | round =>
      simp only [next, Option.ite_none_right_eq_some, Option.some.injEq] at h
      obtain ⟨hdone, rfl⟩ := h
      refine ⟨held, acted, Config.disciplined_start hd hdone (keeps_broadcastRound _), hasleep,
        fun hc => ?_⟩
      exact overlap_of_crossed_same hd (crossed_of_start (s := m.globals) hd hdone hc)
  | wake i =>
      -- the cleanup gets a thread of its own, which has done nothing yet
      simp only [next] at h
      cases hi : m.globals.pendingCleanups[i]? with
      | none => simp [hi] at h
      | some roomId =>
          simp only [hi, Option.some.injEq] at h
          subst h
          have hdone := hm m.woken le_rfl
          refine ⟨held, acted, Config.disciplined_start (hsame _ 0) hdone
            (keeps_cleanupEmptyRoom _ roomId _), hasleep, fun hc => ?_⟩
          exact overlap_of_crossed_same hd (crossed_of_start hd hdone hc)
  | run t e =>
      have hstep := h
      simp only [next, Option.map_eq_some_iff] at hstep
      obtain ⟨c, hstep, rfl⟩ := hstep
      -- the only label that moves a mutex
      obtain ⟨held', hd'⟩ := Config.disciplined_stepThread hd hstep
      exact ⟨held', _, hd', hasleep, fun hc => overlap_of_crossed h hd' hc⟩
  | tick d =>
      simp only [next, Option.some.injEq] at h
      subst h
      exact ⟨held, acted, hsame _ _, hasleep, fun hc => overlap_of_crossed_same hd
        ⟨hc.1, hc.2, hc.3, hc.4, hc.5, hc.6⟩⟩
  | signal =>
      simp only [next, Option.some.injEq] at h
      subst h
      exact ⟨held, acted, hsame _ _, hasleep, fun hc => overlap_of_crossed_same hd
        ⟨hc.1, hc.2, hc.3, hc.4, hc.5, hc.6⟩⟩

theorem ordered_of_reachable (hm : Reachable noOverlap m) :
    ∃ held acted, m.Ordered held acted ∧ m.Asleep ∧ ¬m.Crossed held acted := by
  obtain ⟨db, listenSocket, hrun⟩ := hm
  induction hrun with
  | refl =>
      refine ⟨_, _, ordered_boot db listenSocket, fun _ _ => rfl, fun hc => ?_⟩
      simpa using hc.mainActed
  | tail _ hstep ih =>
      obtain ⟨held, acted, hd, hasleep, -⟩ := ih
      obtain ⟨l, hfree, hnext⟩ := hstep
      obtain ⟨held', acted', hd', hasleep', hc⟩ := ordered_next hd hasleep hnext
      exact ⟨held', acted', hd', hasleep', fun h => hfree (hc h)⟩

/-- `n` steps of a thread. -/
def steps (t : Tid) (n : Nat) : List Label := List.replicate n (.run t (.midnight 8))

end Machine

end TerminalChat.Server
