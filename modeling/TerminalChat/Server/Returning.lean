import Mathlib
import TerminalChat.Server.Process
import TerminalChat.Server.Quiescence

/-!
# The process returns

Once the shutdown has been requested the process comes to its end by itself: the loop goes through the
descriptors it still has, the handlers and the cleanups under way are finished, the broadcaster leaves its
loop after at most one more round, and `main` closes and clears. Every step other than the clock's and a
further signal lowers what is left to do (`Closing.lower`), so every run has finitely many of them; and as
long as `main` has not returned one is possible (`Closing.exists_winding`). `shutdown_completes` states both.
-/

set_option autoImplicit false

namespace TerminalChat.Server

open TerminalChat.Concurrency TerminalChat.Text

/-- A step that is not the clock's and not a further signal. -/
def ProcessLabel.Winds : ProcessLabel → Prop
  | .loop (.server (.tick _)) => False
  | .loop (.server .signal) => False
  | _ => True

/-- How many phases are still to come. -/
def Phase.left : Phase → Nat
  | .polling => 3
  | .joining => 2
  | .clearing => 1
  | .returned => 0

namespace Process

open PollLoop Machine

variable {listenSocket : SOCKET} {p p' : Process} {l : ProcessLabel}

/-- `p'` follows `p` by a step that winds up. -/
def Winding (listenSocket : SOCKET) (p p' : Process) : Prop :=
  ∃ l : ProcessLabel, l.Winds ∧ p.next listenSocket l = some p'

/-- How many rounds the broadcaster can still start: none when it is out of its loop or about to leave it. -/
def roundsLeft (p : Process) : Nat :=
  if p.broadcastLog.stage = .returned ∨
      p.broadcastLog.stage = .testing ∧ (p.machine.config.prog .broadcaster).isDone = false then 0 else 1

/-- What is left to do. -/
def rank (p : Process) : Nat × Nat × Thread Unit × Nat × Nat × Multiset (Thread Unit) :=
  (p.phase.left, p.loop.remaining.length, p.machine.config.prog .main,
    p.globals.pendingCleanups.length, p.roundsLeft, p.machine.config.tasks p.machine.helpers)

/-- The order in which the rank goes down: that of the machine, behind the phases and the descriptors. -/
def Lower : Nat × Nat × Thread Unit × Nat × Nat × Multiset (Thread Unit) →
    Nat × Nat × Thread Unit × Nat × Nat × Multiset (Thread Unit) → Prop :=
  Prod.Lex (· < ·) (Prod.Lex (· < ·) Below)

theorem wellFounded_lower : WellFounded Lower :=
  WellFounded.prod_lex wellFounded_lt (WellFounded.prod_lex wellFounded_lt wellFounded_below)

section Lower

variable (hphase : p'.phase = p.phase) (hrem : p'.loop.remaining = p.loop.remaining)

include hphase hrem

/-- `main` goes on. -/
theorem lower_of_main (hnext : (p'.machine.config.prog .main).Next (p.machine.config.prog .main)) :
    Lower p'.rank p.rank := by
  rw [rank, rank, hphase, hrem]
  exact Prod.Lex.right _ (Prod.Lex.right _ (Prod.Lex.left _ _ hnext))

variable (hmain : p'.machine.config.prog .main = p.machine.config.prog .main)

include hmain

/-- A cleanup thread wakes up. -/
theorem lower_of_wake (hpending : p'.globals.pendingCleanups.length < p.globals.pendingCleanups.length) :
    Lower p'.rank p.rank := by
  rw [rank, rank, hphase, hrem, hmain]
  exact Prod.Lex.right _ (Prod.Lex.right _ (Prod.Lex.right _ (Prod.Lex.left _ _ hpending)))

variable (hpending : p'.globals.pendingCleanups = p.globals.pendingCleanups)

include hpending

/-- The broadcaster starts a round. -/
theorem lower_of_round (hrounds : p'.roundsLeft < p.roundsLeft) : Lower p'.rank p.rank := by
  rw [rank, rank, hphase, hrem, hmain, hpending]
  exact Prod.Lex.right _ (Prod.Lex.right _ (Prod.Lex.right _ (Prod.Lex.right _
    (Prod.Lex.left _ _ hrounds))))

/-- Another thread goes on. -/
theorem lower_of_helper (hrounds : p'.roundsLeft ≤ p.roundsLeft)
    (htasks : Relation.CutExpand Prog.Next (p'.machine.config.tasks p'.machine.helpers)
      (p.machine.config.tasks p.machine.helpers)) : Lower p'.rank p.rank := by
  rcases Nat.lt_or_eq_of_le hrounds with hlt | heq
  · exact lower_of_round hphase hrem hmain hpending hlt
  · rw [rank, rank, hphase, hrem, hmain, hpending, heq]
    exact Prod.Lex.right _ (Prod.Lex.right _ (Prod.Lex.right _ (Prod.Lex.right _
      (Prod.Lex.right _ htasks))))

end Lower

/-! ## The flag stays -/

theorem flag_of_turn {s s' : Globals} {v v' : BroadcastLog} (h : Turn s v s' v')
    (hflag : s.shutdownRequested = true) : s'.shutdownRequested = true := by
  cases h with
  | signal hq hf => exact hf
  | adds added hq hf => exact hf.trans hflag
  | out hs hf => exact hf.trans hflag
  | rests hs hq hf => exact hf.trans hflag
  | ends hs hq hf => exact hf.trans hflag
  | acts hs hq hf => exact hf.trans hflag
  | actsLast hs hq hf hl => exact hf.trans hflag

/-! ## The rounds that are left -/

/-- While the flag is set, the round that is about to test it ends the loop. -/
theorem lastRound_of_broadcaster {m m' : Machine} {v : BroadcastLog} (hl : m.Looping v)
    (hflag : m.globals.shutdownRequested = true) {e : Env}
    (h : m.next (.run .broadcaster e) = some m')
    (hlast : v.stage = .returned ∨
      v.stage = .testing ∧ (m.config.prog .broadcaster).isDone = false) :
    (v.observe m (.run .broadcaster e) m').stage = .returned ∨
      (v.observe m (.run .broadcaster e) m').stage = .testing ∧
        (m'.config.prog .broadcaster).isDone = false := by
  rcases hlast with hs | ⟨hs, hd⟩
  · rw [observe_out hs]
    exact Or.inl hs
  have hne : v.stage ≠ .returned := by
    rw [hs]
    decide
  simp only [Machine.next, Option.map_eq_some_iff] at h
  obtain ⟨c, hc, rfl⟩ := h
  cases hl with
  | out hout => exact absurd hout hne
  | between hdone _ =>
      rw [hd] at hdone
      cases hdone
  | inside _ H hh =>
      rcases Config.honours_stepThread hc hh with ⟨-, hact, H', hh'⟩ | ⟨hact, g', hg, hh'⟩
      · -- a mutex; the round cannot end at this stage
        have hgoes : (c.prog .broadcaster).isDone = false := by
          by_contra hdone
          rcases stage_of_done (by simpa using hdone) hh' with hstage | hstage <;>
            rw [hs] at hstage <;> cases hstage
        refine Or.inr ⟨?_, hgoes⟩
        simp [BroadcastLog.observe, hact, hgoes, hs]
      · -- the test of the flag
        have hstage : (v.act m.globals).stage = .returned := by
          simp [BroadcastLog.act, hs, Stage.advance, hflag]
        left
        by_cases hdone : (c.prog .broadcaster).isDone = true
        · simp [BroadcastLog.observe, hne, hact, hdone, BroadcastLog.endRound, hstage]
        · simp [BroadcastLog.observe, hne, hact, hdone, hstage]

theorem roundsLeft_le_one (p : Process) : p.roundsLeft ≤ 1 := by
  rw [roundsLeft]
  split
  · exact Nat.zero_le 1
  · exact le_rfl

/-- The number of rounds that are left does not go up, when the last round stays the last. -/
theorem roundsLeft_le (h : (p.broadcastLog.stage = .returned ∨
      p.broadcastLog.stage = .testing ∧ (p.machine.config.prog .broadcaster).isDone = false) →
    p'.broadcastLog.stage = .returned ∨
      p'.broadcastLog.stage = .testing ∧ (p'.machine.config.prog .broadcaster).isDone = false) :
    p'.roundsLeft ≤ p.roundsLeft := by
  by_cases hlast : p.broadcastLog.stage = .returned ∨
      p.broadcastLog.stage = .testing ∧ (p.machine.config.prog .broadcaster).isDone = false
  · rw [roundsLeft, if_pos (h hlast)]
    exact Nat.zero_le _
  · have hone : p.roundsLeft = 1 := by rw [roundsLeft, if_neg hlast]
    rw [hone]
    exact roundsLeft_le_one p'

/-! ## Every step goes down -/

/-- What holds before and after every step once the flag is set. -/
structure Closing (listenSocket : SOCKET) (p : Process) : Prop where
  sound : Sound True listenSocket p
  flag : p.globals.shutdownRequested = true

/-- The loop polls only while the flag is down. -/
theorem Closing.not_poll (h : Closing listenSocket p) (revents : List (BitVec 16)) (loop' : PollLoop) :
    p.loop.next listenSocket (.poll revents) ≠ some loop' := by
  intro hnext
  simp only [PollLoop.next, Option.ite_none_right_eq_some] at hnext
  obtain ⟨⟨-, hdown, -⟩, -⟩ := hnext
  have hup := h.flag
  rw [show p.globals = p.loop.machine.globals from rfl, hdown] at hup
  cases hup

theorem Closing.steady (h : Closing listenSocket p) (hnext : p.next listenSocket l = some p') : l.Steady := by
  cases l with
  | loop l =>
      cases l with
      | poll revents =>
          simp only [Process.next, Option.ite_none_right_eq_some, Option.map_eq_some_iff] at hnext
          obtain ⟨-, loop', hloop, -⟩ := hnext
          exact absurd hloop (h.not_poll revents loop')
      | visit accepted received => exact trivial
      | server l => exact trivial
  | leave pollFailed => exact trivial
  | join => exact trivial
  | exit => exact trivial

/-- In the loop and until the join, a step of the machine is a turn. -/
theorem Running.turn (h : Running True listenSocket p) {l : Label} {m' : Machine}
    (hm : p.machine.next l = some m') :
    Turn p.globals p.broadcastLog m'.globals (p.broadcastLog.observe p.machine l m') :=
  (h.looping.next h.reachable hm).1

theorem Closing.next (h : Closing listenSocket p) (hnext : p.next listenSocket l = some p') :
    Closing listenSocket p' := by
  have hsound := h.sound.next (fun _ => h.steady hnext) hnext
  refine ⟨hsound, ?_⟩
  cases l with
  | loop l =>
      simp only [Process.next, Option.ite_none_right_eq_some, Option.map_eq_some_iff] at hnext
      obtain ⟨-, loop', hloop, rfl⟩ := hnext
      show loop'.machine.globals.shutdownRequested = true
      cases hsound with
      | running hp hrun =>
          cases h.sound with
          | running _ hbefore =>
              rcases machine_of_loop hloop with ⟨hmachine, -⟩ | ⟨l', hm', -⟩
              · rw [hmachine]
                exact h.flag
              · exact flag_of_turn (hbefore.turn hm') h.flag
          | ending hp' _ =>
              have hsame : p.phase = .polling ∨ p.phase = .joining := hp
              rcases hp' with hp' | hp' <;> rw [hp'] at hsame <;> simp at hsame
      | ending hp hend => exact hend.winding.flag
  | leave pollFailed =>
      simp only [Process.next, Option.ite_none_right_eq_some, Option.some.injEq] at hnext
      obtain ⟨-, rfl⟩ := hnext
      exact h.flag
  | join =>
      simp only [Process.next, Option.ite_none_right_eq_some, Option.some.injEq] at hnext
      obtain ⟨-, rfl⟩ := hnext
      exact h.flag
  | exit =>
      simp only [Process.next, Option.ite_none_right_eq_some, Option.some.injEq] at hnext
      obtain ⟨-, rfl⟩ := hnext
      exact h.flag

/-- While `main` closes and clears, and after it, nobody puts a cleanup thread to sleep. -/
theorem pendingCleanups_of_winding {m m' : Machine} (h : m.Winding True) {t : Tid} (ht : t ≠ .main) {e : Env}
    (hnext : m.next (.run t e) = some m') :
    m'.globals.pendingCleanups = m.globals.pendingCleanups := by
  simp only [Machine.next, Option.map_eq_some_iff] at hnext
  obtain ⟨c, hstep, rfl⟩ := hnext
  obtain ⟨note, held, hc⟩ := h.contracts
  rcases Config.honoured_stepThread compatible_lastContract stable_lastNote hc hstep with
    ⟨-, hs, -⟩ | ⟨-, g', hg, -⟩
  · show c.shared.pendingCleanups = _
    rw [hs]
    rfl
  · cases t with
    | main => exact absurd rfl ht
    | broadcaster => exact False.elim hg
    | cleanup n =>
        obtain ⟨r, hs⟩ := CleanupDeed.sweeps hg
        show c.shared.pendingCleanups = _
        rw [hs, Effect.apply]
        split
        · rfl
        · rfl

theorem Closing.asleep (h : Closing listenSocket p) : p.machine.Asleep := by
  cases h.sound with
  | running hp hrun => exact reachable_asleep hrun.reachable
  | ending hp hend => exact hend.winding.asleep

/-- A step of a thread beside `main` puts no cleanup thread to sleep and leaves no more rounds. -/
theorem Closing.helper (h : Closing listenSocket p) {t : Tid} (ht : t ≠ .main) {e : Env} {m' : Machine}
    (hm : p.machine.next (.run t e) = some m') :
    m'.globals.pendingCleanups = p.globals.pendingCleanups ∧
      ((p.broadcastLog.stage = .returned ∨
          p.broadcastLog.stage = .testing ∧ (p.machine.config.prog .broadcaster).isDone = false) →
        (p.broadcastLog.observe p.machine (.run t e) m').stage = .returned ∨
          (p.broadcastLog.observe p.machine (.run t e) m').stage = .testing ∧
            (m'.config.prog .broadcaster).isDone = false) := by
  cases h.sound with
  | running hp hrun =>
      refine ⟨pendingCleanups_of_helper hrun.reachable ht hm, fun hlast => ?_⟩
      cases t with
      | main => exact absurd rfl ht
      | broadcaster => exact lastRound_of_broadcaster hrun.looping h.flag hm hlast
      | cleanup n =>
          rw [broadcaster_of_other hm (by simp) (by simp)]
          exact hlast
  | ending hp hend =>
      refine ⟨pendingCleanups_of_winding hend.winding ht hm, fun _ => Or.inl ?_⟩
      exact stage_observe hend.stage _ _ _

/-- A round that the broadcaster starts is its last. -/
theorem Closing.round (h : Closing listenSocket p) (hstage : p.broadcastLog.stage ≠ .returned) {m' : Machine}
    (hm : p.machine.next .round = some m') :
    p.roundsLeft = 1 ∧ p.broadcastLog.stage = .testing ∧ (m'.config.prog .broadcaster).isDone = false := by
  simp only [Machine.next, Option.ite_none_right_eq_some, Option.some.injEq] at hm
  obtain ⟨hdone, rfl⟩ := hm
  cases h.sound with
  | ending hp hend => exact absurd hend.stage hstage
  | running hp hrun =>
      have hloop := hrun.looping
      cases hloop with
      | out hs => exact absurd hs hstage
      | inside hd H hh =>
          rw [hd] at hdone
          cases hdone
      | between _ hs =>
          have hstart : ((p.machine.config.start .broadcaster broadcastRound).prog .broadcaster).isDone =
              false := by
            simp only [Config.start, Function.update_self]
            rfl
          refine ⟨?_, hs, hstart⟩
          rw [roundsLeft, if_neg]
          simp [hs, hdone]

/-- Every step that winds up goes down. -/
theorem Closing.lower (h : Closing listenSocket p) (hl : l.Winds)
    (hnext : p.next listenSocket l = some p') : Lower p'.rank p.rank := by
  cases l with
  | leave pollFailed =>
      simp only [Process.next, Option.ite_none_right_eq_some, Option.some.injEq] at hnext
      obtain ⟨⟨hphase, -⟩, rfl⟩ := hnext
      apply Prod.Lex.left
      show Phase.left .joining < p.phase.left
      rw [hphase]
      decide
  | join =>
      simp only [Process.next, Option.ite_none_right_eq_some, Option.some.injEq] at hnext
      obtain ⟨⟨hphase, -⟩, rfl⟩ := hnext
      apply Prod.Lex.left
      show Phase.left .clearing < p.phase.left
      rw [hphase]
      decide
  | exit =>
      simp only [Process.next, Option.ite_none_right_eq_some, Option.some.injEq] at hnext
      obtain ⟨⟨hphase, -⟩, rfl⟩ := hnext
      apply Prod.Lex.left
      show Phase.left .returned < p.phase.left
      rw [hphase]
      decide
  | loop l =>
      have hpolls := h.steady hnext
      simp only [Process.next, Option.ite_none_right_eq_some, Option.map_eq_some_iff] at hnext
      obtain ⟨hoccurs, loop', hloop, rfl⟩ := hnext
      cases l with
      | poll revents => exact absurd hloop (h.not_poll revents loop')
      | visit accepted received =>
          -- one descriptor less
          apply Prod.Lex.right
          apply Prod.Lex.left
          obtain ⟨fd, r, rest, hrem, -, ⟨-, rfl⟩ | ⟨_, _, -, -, -, -, rfl⟩⟩ := visit_cases hloop
          · show p.loop.remaining.tail.length < p.loop.remaining.length
            rw [hrem]
            exact Nat.lt_succ_self _
          · show p.loop.remaining.tail.length < p.loop.remaining.length
            rw [hrem]
            exact Nat.lt_succ_self _
      | server l =>
          obtain ⟨hev, m', hm', rfl⟩ := server_cases hloop
          cases l with
          | event ev => exact absurd rfl (hev ev)
          | tick d => exact hl.elim
          | signal => exact hl.elim
          | round =>
              obtain ⟨hone, hstage, hgoes⟩ := h.round hoccurs hm'
              obtain ⟨hmain, hpending⟩ := main_of_round hm'
              refine lower_of_round rfl rfl hmain hpending ?_
              rw [hone, roundsLeft, if_pos (Or.inr ⟨hstage, hgoes⟩)]
              exact Nat.zero_lt_one
          | wake i =>
              obtain ⟨hmain, hpending⟩ := main_of_wake hm'
              exact lower_of_wake rfl rfl hmain hpending
          | run t e =>
              by_cases hmain : t = .main
              · subst hmain
                simp only [Machine.next, Option.map_eq_some_iff] at hm'
                obtain ⟨c, hc, rfl⟩ := hm'
                exact lower_of_main rfl rfl (Config.next_stepThread hc)
              · obtain ⟨hpending, hlast⟩ := h.helper hmain hm'
                have hhelper := mem_helpers h.asleep hmain hm'
                have hhelpers := helpers_of_run hm'
                simp only [Machine.next, Option.map_eq_some_iff] at hm'
                obtain ⟨c, hc, rfl⟩ := hm'
                exact lower_of_helper rfl rfl (Config.stepThread_prog_of_ne hc (Ne.symm hmain)) hpending
                  (roundsLeft_le hlast) (Config.tasks_stepThread hhelper hc)

/-! ## Where it can go no further -/

/-- The threads keep the lock order, and nobody stands in anybody's way. -/
def Untangled (p : Process) : Prop :=
  p.machine.Asleep ∧ ∃ held acted, p.machine.Ordered held acted ∧ ¬p.machine.Crossed held acted

theorem keeps_clearTables : Keeps True .main [] clearTables := by
  refine keeps_seq (keeps_holding (pollFds_alone .main) (keeps_quick fun _ _ => rfl)) fun _ => ?_
  exact keeps_seq (keeps_rooms _) fun _ => keeps_clients _

theorem Untangled.next (h : p.Untangled) (hfree : ¬p.machine.Overlap) (htop : p.phase = .joining → p.loop.Top)
    (hnext : p.next listenSocket l = some p') : p'.Untangled := by
  obtain ⟨hasleep, held, acted, hd, hcross⟩ := h
  cases l with
  | loop l =>
      simp only [Process.next, Option.ite_none_right_eq_some, Option.map_eq_some_iff] at hnext
      obtain ⟨-, loop', hloop, rfl⟩ := hnext
      rcases machine_of_loop hloop with ⟨hmachine, -⟩ | ⟨l', hm', -⟩
      · show loop'.machine.Asleep ∧ ∃ held acted, loop'.machine.Ordered held acted ∧
          ¬loop'.machine.Crossed held acted
        rw [hmachine]
        exact ⟨hasleep, held, acted, hd, hcross⟩
      · obtain ⟨held', acted', hd', hasleep', hcross'⟩ := ordered_next hd hasleep hm'
        exact ⟨hasleep', held', acted', hd', fun hc => hfree (hcross' hc)⟩
  | leave pollFailed =>
      simp only [Process.next, Option.ite_none_right_eq_some, Option.some.injEq] at hnext
      obtain ⟨-, rfl⟩ := hnext
      exact ⟨hasleep, held, acted, hd, hcross⟩
  | join =>
      simp only [Process.next, Option.ite_none_right_eq_some, Option.some.injEq] at hnext
      obtain ⟨⟨hjoining, -, -⟩, rfl⟩ := hnext
      have hidle := (htop hjoining).2
      refine ⟨asleep_start (s := p.machine.globals) hasleep (by simp) _, held, acted,
        Config.disciplined_start hd hidle (keeps_clearTables _), fun hc => ?_⟩
      exact hcross (crossed_of_start (s := p.machine.globals) hd hidle hc)
  | exit =>
      simp only [Process.next, Option.ite_none_right_eq_some, Option.some.injEq] at hnext
      obtain ⟨-, rfl⟩ := hnext
      exact ⟨hasleep, held, acted, hd, hcross⟩

/-- An idle loop can go through its next descriptor, whatever `WSAPoll` has answered for it. -/
theorem visit_of_idle (listenSocket : SOCKET) {loop : PollLoop} {fd : SOCKET} {revents : BitVec 16}
    {rest : List (SOCKET × BitVec 16)} (hrem : loop.remaining = (fd, revents) :: rest)
    (hidle : loop.machine.Idle) : ∃ loop', loop.next listenSocket (.visit none none) = some loop' := by
  rw [PollLoop.next, hrem]
  cases hev : pollEvent loop.index fd revents none none with
  | none => exact ⟨loop.advance loop.machine, by simp only [hev, if_pos hidle]⟩
  | some ev =>
      -- `recv` gives nothing: the client has hung up
      have hhang : ev = .hangup fd := by
        rw [pollEvent] at hev
        split at hev
        · cases hev
        · split at hev
          · cases hev
          · split at hev
            · exact (Option.some.inj hev).symm
            · cases hev
      subst hhang
      refine ⟨loop.advance { loop.machine with
        config := loop.machine.config.start .main (Event.hangup fd).handler }, ?_⟩
      simp [hev, MayAccept, Machine.next, hidle, Event.CanOccur]

/-- As long as `main` has not returned, some step that winds up is possible. -/
theorem Closing.exists_winding (h : Closing listenSocket p) (hu : p.Untangled)
    (hphase : p.phase ≠ .returned) :
    ∃ p', Winding listenSocket p p' := by
  by_contra hstuck
  obtain ⟨-, held, acted, hd, hcross⟩ := hu
  have hnone : ∀ l : ProcessLabel, l.Winds → p.next listenSocket l = none := by
    intro l hl
    by_contra hsome
    obtain ⟨p', hp'⟩ := Option.ne_none_iff_exists'.1 hsome
    exact hstuck ⟨p', l, hl, hp'⟩
  have hserver : ∀ l : Label, ProcessLabel.Winds (.loop (.server l)) → (∀ ev, l ≠ .event ev) →
      PollLabel.Occurs p.phase p.broadcastLog (.server l) → p.machine.next l = none := by
    intro l hl hev hoccurs
    have hno := hnone _ hl
    rw [Process.next, if_pos hoccurs, Option.map_eq_none_iff] at hno
    cases l with
    | event ev => exact absurd rfl (hev ev)
    | _ => simpa [PollLoop.next, machine] using hno
  have hfinished : p.machine.config.Finished := by
    apply Config.finished_of_stuck hd fun S hS => hcross (crossed_of_deadlocked hd hS)
    intro t
    refine ⟨.midnight 0, ?_⟩
    simpa [Machine.next] using hserver (.run t (.midnight 0)) trivial (by simp) trivial
  have hidle : p.machine.Idle := hfinished .main
  cases hp : p.phase with
  | returned => exact hphase hp
  | clearing =>
      have hno := hnone .exit trivial
      simp [Process.next, hp, hidle] at hno
  | joining =>
      have hstage : p.broadcastLog.stage = .returned := by
        by_contra hstage
        have hno := hserver .round trivial (by simp) hstage
        simp [Machine.next, hfinished .broadcaster] at hno
      have hno := hnone .join trivial
      simp [Process.next, hp, hstage, hfinished .broadcaster] at hno
  | polling =>
      cases hrem : p.loop.remaining with
      | nil =>
          -- the loop tests the flag
          have hno := hnone (.leave false) trivial
          have htop : p.loop.Top := ⟨hrem, hidle⟩
          simp [Process.next, hp, htop, h.flag] at hno
      | cons d rest =>
          -- the loop goes through the next descriptor
          obtain ⟨fd, revents⟩ := d
          obtain ⟨loop', hloop⟩ := visit_of_idle listenSocket hrem hidle
          have hno := hnone (.loop (.visit none none)) trivial
          have hoccurs : PollLabel.Occurs p.phase p.broadcastLog (.visit none none) := hp
          simp [Process.next, hoccurs, hloop] at hno

/-! ## Whole runs -/

/-- The clock and a further signal leave what is left to do as it is. -/
theorem rank_of_not_winds (hl : ¬l.Winds) (hnext : p.next listenSocket l = some p') :
    p'.rank = p.rank := by
  cases l with
  | leave pollFailed => exact absurd trivial hl
  | join => exact absurd trivial hl
  | exit => exact absurd trivial hl
  | loop l =>
      simp only [Process.next, Option.ite_none_right_eq_some, Option.map_eq_some_iff] at hnext
      obtain ⟨-, loop', hloop, rfl⟩ := hnext
      cases l with
      | poll revents => exact absurd trivial hl
      | visit accepted received => exact absurd trivial hl
      | server l =>
          obtain ⟨-, m', hm', rfl⟩ := server_cases hloop
          cases l with
          | tick d =>
              simp only [Machine.next, Option.some.injEq] at hm'
              subst hm'
              rfl
          | signal =>
              simp only [Machine.next, Option.some.injEq] at hm'
              subst hm'
              rfl
          | event ev => exact absurd trivial hl
          | round => exact absurd trivial hl
          | wake i => exact absurd trivial hl
          | run t e => exact absurd trivial hl

/-- A run takes finitely many steps that wind up, whatever the clock and further signals do in between. -/
theorem Closing.finite_winds (h : Closing listenSocket p) {run : ℕ → Process} {ls : ℕ → ProcessLabel}
    (hstart : run 0 = p) (hsteps : ∀ n, (run n).next listenSocket (ls n) = some (run (n + 1))) :
    {n | (ls n).Winds}.Finite := by
  have hclosing : ∀ n, Closing listenSocket (run n) := by
    intro n
    induction n with
    | zero =>
        rw [hstart]
        exact h
    | succ n ih => exact ih.next (hsteps n)
  refine finite_of_descents wellFounded_lower (fun n => (run n).rank) (fun n hn => ?_) fun n => ?_
  · exact (hclosing n).lower hn (hsteps n)
  · by_cases hn : (ls n).Winds
    · exact Or.inl ((hclosing n).lower hn (hsteps n))
    · exact Or.inr (rank_of_not_winds hn (hsteps n))

/-- The order of the locks along a run that never stands before an overlap. -/
theorem untangled_of_run {db : Database} {ls : List ProcessLabel} (hsteady : ∀ l ∈ ls, l.Steady)
    (hrun : (boot db listenSocket).run listenSocket ls = some p)
    (hfree : ∀ done q, done <+: ls → (boot db listenSocket).run listenSocket done = some q →
      ¬q.machine.Overlap) : p.Untangled := by
  induction ls using List.reverseRecOn generalizing p with
  | nil =>
      obtain rfl := Option.some.inj hrun
      exact ⟨fun _ _ => rfl, _, _, ordered_boot db listenSocket, fun hc => by simpa using hc.mainActed⟩
  | append_singleton ls l ih =>
      rw [run_append, Option.bind_eq_some_iff] at hrun
      obtain ⟨before, hbefore, hnext⟩ := hrun
      have hsteady' : ∀ l' ∈ ls, l'.Steady := fun l' hl' => hsteady l' (List.mem_append_left _ hl')
      have hu := ih hsteady' hbefore fun done q hdone hq =>
        hfree done q (hdone.trans (List.prefix_append _ _)) hq
      have htop : before.phase = .joining → before.loop.Top := by
        intro hjoining
        cases sound_of_run True (fun _ => hsteady') hbefore with
        | running _ hrunning => exact hrunning.top hjoining
        | ending hp _ =>
            rw [hjoining] at hp
            exact absurd hp (by decide)
      exact hu.next (hfree ls before (List.prefix_append _ _) hbefore) htop hnext

/-- **The shutdown completes.** Once the shutdown has been requested, and while the listening socket does not
hang up, every run takes finitely many steps other than clock ticks and further signals, in whatever order
its threads are scheduled. As long as `main` has not returned such a step is possible, after a run in which
the main thread and the broadcaster have never gone for each other's mutex. -/
theorem shutdown_completes (db : Database) (listenSocket : SOCKET) (ls : List ProcessLabel) (p : Process)
    (hrun : (boot db listenSocket).run listenSocket ls = some p) (hsteady : ∀ l ∈ ls, l.Steady)
    (hflag : p.globals.shutdownRequested = true) :
    (∀ (run : ℕ → Process) (labels : ℕ → ProcessLabel), run 0 = p →
      (∀ n, (run n).next listenSocket (labels n) = some (run (n + 1))) → {n | (labels n).Winds}.Finite) ∧
    ((∀ done q, done <+: ls → (boot db listenSocket).run listenSocket done = some q →
        ¬q.machine.Overlap) → p.phase ≠ .returned → ∃ p', Winding listenSocket p p') := by
  have hclosing : Closing listenSocket p := ⟨sound_of_run True (fun _ => hsteady) hrun, hflag⟩
  constructor
  · exact fun run labels hstart hsteps => hclosing.finite_winds hstart hsteps
  · exact fun hfree hphase => hclosing.exists_winding (untangled_of_run hsteady hrun hfree) hphase

/-- The broadcaster has no room locked. -/
def roomsFree (q : Process) : Bool := decide (q.machine.config.owner .chatRoomsMutex ≠ some .broadcaster)

/-- The signal comes while a client is connected. -/
theorem shutdown_completes_shortDay :
    ∃ p, (boot {} 3).run 3 (shortDay.take 11) = some p ∧ p.phase = .polling ∧
      (∀ (run : ℕ → Process) (labels : ℕ → ProcessLabel), run 0 = p →
        (∀ n, (run n).next 3 (labels n) = some (run (n + 1))) → {n | (labels n).Winds}.Finite) ∧
      ∃ p', Winding 3 p p' := by
  have hrun : ((boot {} 3).run 3 (shortDay.take 11)).any (fun p => decide (p.phase = .polling ∧
      p.globals.shutdownRequested = true)) = true := by decide +kernel
  obtain ⟨p, hp, hcheck⟩ := (Option.any_eq_true _ _).1 hrun
  obtain ⟨hphase, hflag⟩ := of_decide_eq_true hcheck
  have hsteady : ∀ l ∈ shortDay.take 11, l.Steady := fun l hl => steady_shortDay l (List.mem_of_mem_take hl)
  have hall : (shortDay.take 11).inits.all (fun done => ((boot {} 3).run 3 done).all roomsFree) = true := by
    decide +kernel
  have hfree : ∀ done q, done <+: shortDay.take 11 → (boot {} 3).run 3 done = some q →
      ¬q.machine.Overlap := by
    intro done q hdone hq hoverlap
    have hchecked := List.all_eq_true.1 hall done ((List.mem_inits _ _).2 hdone)
    rw [hq] at hchecked
    exact of_decide_eq_true hchecked hoverlap.2.1
  obtain ⟨hfinite, hgoes⟩ := shutdown_completes {} 3 (shortDay.take 11) p hp hsteady hflag
  exact ⟨p, hp, hphase, hfinite, hgoes hfree (by simp [hphase])⟩

end Process

end TerminalChat.Server
