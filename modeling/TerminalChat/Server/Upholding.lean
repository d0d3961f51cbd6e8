import Mathlib
import TerminalChat.Server.Runs

/-!
# Upholding an invariant

The rules for an invariant of the globals: blocks and programs that uphold it, one rule for each way
they are put together, and the rule for runs (`Machine.upheld_of_reachable`). They ask nothing of the
invariant.
-/

set_option autoImplicit false

namespace TerminalChat.Server

open TerminalChat.Concurrency TerminalChat.Text

variable {I : Globals → Prop}

/-- A block that upholds the invariant, with values that satisfy `K`. -/
def Upholds {α : Type} (I : Globals → Prop) (b : Sect α) (K : α → Prop) : Prop :=
  ∀ e s, I s → b.post e s fun a s' => I s' ∧ K a

/-- A program all of whose actions uphold the invariant, with results that satisfy `K`. -/
def Maintains {α : Type} (I : Globals → Prop) (p : Thread α) (K : α → Prop) : Prop :=
  p.Guar I (fun _ s' => I s') K

/-- Whatever the value is. -/
def Whatever {α : Type} (_ : α) : Prop := True

section Rules

variable {α β : Type} {K : α → Prop} {L : β → Prop}

theorem upholds_pure {a : α} (h : K a) : Upholds I (pure a) K := fun _ _ hs => ⟨hs, h⟩

theorem upholds_bind {b : Sect α} {f : α → Sect β} (hb : Upholds I b K)
    (hf : ∀ a, K a → Upholds I (f a) L) : Upholds I (b >>= f) L := by
  intro e s hs
  rw [Block.post_bind]
  apply Block.post_mono (hb e s hs)
  intro a s' h
  exact hf a h.2 e s' h.1

theorem upholds_ite {c : Prop} [Decidable c] {b b' : Sect α} (hb : Upholds I b K)
    (hb' : Upholds I b' K) : Upholds I (if c then b else b') K := by
  split
  · exact hb
  · exact hb'

/-- A branch that binds its value to the rest of the block. -/
theorem upholds_branch {c : Prop} [Decidable c] {b b' : Sect α} {f : α → Sect β}
    (hb : Upholds I b K) (hb' : Upholds I b' K) (hf : ∀ a, K a → Upholds I (f a) L) :
    Upholds I (if c then b >>= f else b' >>= f) L :=
  upholds_ite (upholds_bind hb hf) (upholds_bind hb' hf)

/-- Whatever only reads upholds everything. -/
theorem upholds_read (f : Env → Globals → α) : Upholds I (.read f) Whatever :=
  fun _ _ hs => ⟨hs, trivial⟩

theorem upholds_roomExists (roomId : Bytes) : Upholds I (roomExists roomId) Whatever :=
  upholds_read _

theorem upholds_ask [Inhabited α] (roomId : Bytes) (f : ChatRoom → α) :
    Upholds I (askRoom roomId f) Whatever := fun _ _ hs => ⟨hs, trivial⟩

theorem upholds_longestMember (roomId : Bytes) : Upholds I (longestMember roomId) Whatever :=
  fun _ _ hs => ⟨hs, trivial⟩

theorem upholds_askDatabase (k : Nat) (f : Env → (Nat → Bool) → Database → α) :
    Upholds I (askDatabase k f) Whatever := fun _ _ hs => ⟨hs, trivial⟩

theorem upholds_chooseNewOwner (roomId : Bytes) (sock : SOCKET) :
    Upholds I (chooseNewOwner roomId sock) Whatever := by
  apply upholds_bind (upholds_ask roomId _)
  intro _ _
  apply upholds_ite
  · apply upholds_bind (upholds_longestMember roomId)
    intro t _
    apply upholds_ite
    · exact upholds_bind (upholds_ask roomId _) fun _ _ => upholds_pure trivial
    · exact upholds_pure trivial
  · exact upholds_pure trivial

theorem maintains_pure {a : α} (h : K a) : Maintains I (pure a) K := h

theorem maintains_step {b : Sect α} (hb : Upholds I b K) : Maintains I (step b) K := by
  rw [Maintains, step, Prog.guar_block]
  exact hb

theorem maintains_holding {m : Mutex} {p : Thread α} (hp : Maintains I p K) :
    Maintains I (Prog.holding m p) K := (Prog.guar_holding m p).2 hp

theorem maintains_critical {m : Mutex} {b : Sect α} (hb : Upholds I b K) :
    Maintains I (critical m b) K := maintains_holding (maintains_step hb)

theorem maintains_seq {p : Thread α} {f : α → Thread β} (hp : Maintains I p K)
    (hf : ∀ a, K a → Maintains I (f a) L) : Maintains I (p >>= f) L := Prog.guar_seq hp hf

theorem maintains_ite {c : Prop} [Decidable c] {p p' : Thread α} (hp : Maintains I p K)
    (hp' : Maintains I p' K) : Maintains I (if c then p else p') K := by
  split
  · exact hp
  · exact hp'

theorem maintains_findClientByUsername (username roomId : Bytes) :
    Maintains I (findClientByUsername username roomId) Whatever :=
  maintains_critical (upholds_read _)

end Rules

/-! ## Runs -/

namespace Machine

/-- The invariant holds, and every thread maintains it. -/
structure Upheld (I : Globals → Prop) (m : Machine) : Prop where
  holds : I m.globals
  threads : ∀ t, Maintains I (m.config.prog t) Whatever

variable {m m' : Machine}

theorem upheld_start (hm : m.Upheld I) (u : Tid) {p : Thread Unit} (hp : Maintains I p Whatever)
    (t : Tid) : Maintains I ((m.config.start u p).prog t) Whatever := by
  by_cases hu : t = u
  · subst hu
    simpa [Config.start] using hp
  · simpa [Config.start, Function.update_of_ne hu] using hm.threads t

/-- The rule for runs: what the start has, every handler and every round maintain, and the clocks, the
signal and the waking of a cleanup thread leave alone, holds along every run. -/
theorem upheld_of_reachable {ok : Machine → Label → Prop} (hm : Reachable ok m)
    (hboot : ∀ db listenSocket, I (.boot db listenSocket))
    (hframe : ∀ s s' : Globals, s'.clients = s.clients → s'.chatRooms = s.chatRooms →
      s'.messageQueue = s.messageQueue → s'.database = s.database → s'.net = s.net → I s → I s')
    (hhandler : ∀ ev : Event, Maintains I ev.handler Whatever)
    (hround : Maintains I broadcastRound Whatever)
    (hcleanup : ∀ roomId, Maintains I (cleanupEmptyRoom roomId) Whatever) : m.Upheld I := by
  obtain ⟨db, listenSocket, hrun⟩ := hm
  induction hrun with
  | refl => exact ⟨hboot db listenSocket, fun _ => trivial⟩
  | @tail m m' _ hstep ih =>
      obtain ⟨l, -, h⟩ := hstep
      have hI := ih.holds
      cases l with
      | event ev =>
          simp only [Machine.next, Option.ite_none_right_eq_some, Option.some.injEq] at h
          obtain ⟨-, rfl⟩ := h
          exact ⟨hI, upheld_start ih .main (hhandler ev)⟩
      | round =>
          simp only [Machine.next, Option.ite_none_right_eq_some, Option.some.injEq] at h
          obtain ⟨-, rfl⟩ := h
          exact ⟨hI, upheld_start ih .broadcaster hround⟩
      | wake i =>
          simp only [Machine.next] at h
          cases hi : m.globals.pendingCleanups[i]? with
          | none => simp [hi] at h
          | some roomId =>
              simp only [hi, Option.some.injEq] at h
              subst h
              exact ⟨hframe m.globals _ rfl rfl rfl rfl rfl hI,
                upheld_start ih (.cleanup m.woken) (hcleanup roomId)⟩
      | run t e =>
          simp only [Machine.next, Option.map_eq_some_iff] at h
          obtain ⟨c, hc, rfl⟩ := h
          -- the thread that moves upholds the invariant and keeps the rest of its program
          obtain ⟨ht, hs⟩ := Config.guar_stepThread hc hI (ih.threads t)
          constructor
          · rcases hs with hs | hs
            · show I c.shared
              rw [hs]
              exact hI
            · exact hs
          · intro u
            by_cases hu : u = t
            · rw [hu]
              exact ht
            · show Maintains I (c.prog u) Whatever
              rw [Config.stepThread_prog_of_ne hc hu]
              exact ih.threads u
      | tick d =>
          simp only [Machine.next, Option.some.injEq] at h
          subst h
          exact ⟨hframe m.globals _ rfl rfl rfl rfl rfl hI, ih.threads⟩
      | signal =>
          simp only [Machine.next, Option.some.injEq] at h
          subst h
          exact ⟨hframe m.globals _ rfl rfl rfl rfl rfl hI, ih.threads⟩

end Machine

end TerminalChat.Server
