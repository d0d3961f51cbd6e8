import Mathlib
import TerminalChat.Server.Membership

/-!
# The diary of a run

Seen whenever no handler is in progress, a run of the server is a sequence of handled events. The diary of
the run lists them, each with the globals before and after (`Machine.Kept`, `Machine.exists_kept`). What a
handler ends in, whatever the other threads do meanwhile, holds of the globals after its event.
-/

set_option autoImplicit false

namespace TerminalChat.Server

open TerminalChat.Concurrency TerminalChat.Text TerminalChat.Abstract

/-- A handled event. -/
structure Handled where
  before : Globals
  event : Event
  after : Globals

namespace Machine

/-- A step that satisfies `ok` and starts no handler. -/
def Continues (ok : Machine → Label → Prop) (m : Machine) (l : Label) : Prop :=
  ok m l ∧ ∀ ev, l ≠ .event ev

/-- The machine handles an event by steps that satisfy `ok`. -/
structure HandlesBy (ok : Machine → Label → Prop) (m : Machine) (ev : Event) (m' : Machine) :
    Prop where
  allowed : ok m (.event ev)
  steps : ∃ m₁, m.next (.event ev) = some m₁ ∧
    Relation.ReflTransGen (Step (Continues ok)) m₁ m'
  idle : m'.Idle

/-- The machine is reached by a run from a start of the server, no handler is in progress, and the
diary has been kept. -/
inductive Kept (ok : Machine → Label → Prop) (db : Database) (listenSocket : SOCKET) :
    Machine → List Handled → Prop where
  | boot : Kept ok db listenSocket (boot db listenSocket) []
  | rest {m m' : Machine} {diary : List Handled} {l : Label} (h : Kept ok db listenSocket m diary)
      (hl : Continues ok m l) (hnext : m.next l = some m') : Kept ok db listenSocket m' diary
  | handle {m m' : Machine} {diary : List Handled} {ev : Event}
      (h : Kept ok db listenSocket m diary) (hh : HandlesBy ok m ev m') :
      Kept ok db listenSocket m' (diary ++ [⟨m.globals, ev, m'.globals⟩])

variable {ok : Machine → Label → Prop} {db : Database} {listenSocket : SOCKET} {m m' : Machine}
  {diary : List Handled} {ev : Event}

/-- Only an event starts a handler. -/
theorem idle_next (hidle : m.Idle) {l : Label} (hl : ∀ ev, l ≠ .event ev)
    (h : m.next l = some m') : m'.Idle := by
  cases l with
  | event ev => exact absurd rfl (hl ev)
  | round =>
      simp only [Machine.next, Option.ite_none_right_eq_some, Option.some.injEq] at h
      obtain ⟨-, rfl⟩ := h
      simpa [Idle, main_start] using hidle
  | wake i =>
      simp only [Machine.next] at h
      cases hi : m.globals.pendingCleanups[i]? with
      | none => simp [hi] at h
      | some roomId =>
          simp only [hi, Option.some.injEq] at h
          subst h
          simpa [Idle, main_start, Config.setShared] using hidle
  | run t e =>
      simp only [Machine.next, Option.map_eq_some_iff] at h
      obtain ⟨c, hc, rfl⟩ := h
      -- a finished main thread has no step to take
      have hne : Tid.main ≠ t := by
        rintro rfl
        rcases Config.stepThread_cases hc with ⟨k, next, hp, -⟩ | ⟨k, next, hp, -⟩ |
          ⟨f, next, hp, -⟩ <;> simp [Idle, hp, Prog.isDone] at hidle
      show (c.prog .main).isDone = true
      rw [Config.stepThread_prog_of_ne hc hne]
      exact hidle
  | tick d =>
      simp only [Machine.next, Option.some.injEq] at h
      subst h
      exact hidle
  | signal =>
      simp only [Machine.next, Option.some.injEq] at h
      subst h
      exact hidle

theorem Kept.idle (h : Kept ok db listenSocket m diary) : m.Idle := by
  induction h with
  | boot => rfl
  | rest _ hl hnext ih => exact idle_next ih hl.2 hnext
  | handle _ hh _ => exact hh.idle

theorem HandlesBy.run (hh : HandlesBy ok m ev m') :
    Relation.ReflTransGen (Step ok) m m' := by
  obtain ⟨m₁, hnext, hrun⟩ := hh.steps
  apply Relation.ReflTransGen.head ⟨_, hh.allowed, hnext⟩
  apply hrun.lift id
  rintro m₂ m₃ ⟨l, hl, hn⟩
  exact ⟨l, hl.1, hn⟩

theorem HandlesBy.handles (hh : HandlesBy ok m ev m') : m.Handles ev m' := by
  obtain ⟨m₁, hnext, hrun⟩ := hh.steps
  refine ⟨m₁, hnext, hrun.lift id ?_, hh.idle⟩
  rintro m₂ m₃ ⟨l, hl, hn⟩
  exact ⟨l, hl.2, hn⟩

theorem Kept.run (h : Kept ok db listenSocket m diary) :
    Relation.ReflTransGen (Step ok) (Machine.boot db listenSocket) m := by
  induction h with
  | boot => exact .refl
  | rest _ hl hnext ih => exact ih.tail ⟨_, hl.1, hnext⟩
  | handle _ hh ih => exact ih.trans hh.run

theorem Kept.reachable (h : Kept ok db listenSocket m diary) : Reachable ok m :=
  ⟨db, listenSocket, h.run⟩

theorem Kept.reachable_any (h : Kept ok db listenSocket m diary) : Reachable anyStep m :=
  h.reachable.mono fun _ _ _ => trivial

/-- A diary can be kept of every run. -/
theorem exists_kept (hrun : Relation.ReflTransGen (Step ok) (Machine.boot db listenSocket) m)
    (hidle : m.Idle) : ∃ diary, Kept ok db listenSocket m diary := by
  -- between events the diary is complete; in a handler its last event is still open
  have hall : ∃ diary, Kept ok db listenSocket m diary ∨ ∃ m₀ m₁ ev,
      Kept ok db listenSocket m₀ diary ∧ ok m₀ (.event ev) ∧ m₀.next (.event ev) = some m₁ ∧
        Relation.ReflTransGen (Step (Continues ok)) m₁ m := by
    clear hidle
    induction hrun with
    | refl => exact ⟨[], Or.inl .boot⟩
    | @tail m m' _ hstep ih =>
        obtain ⟨l, hok, hnext⟩ := hstep
        obtain ⟨diary, ih⟩ := ih
        by_cases hl : ∀ ev, l ≠ .event ev
        · rcases ih with h | ⟨m₀, m₁, ev, h, hev, hstart, hquiet⟩
          · exact ⟨diary, Or.inl (h.rest ⟨hok, hl⟩ hnext)⟩
          · exact ⟨diary, Or.inr ⟨m₀, m₁, ev, h, hev, hstart, hquiet.tail ⟨l, ⟨hok, hl⟩, hnext⟩⟩⟩
        · simp only [ne_eq, not_forall, not_not] at hl
          obtain ⟨ev, rfl⟩ := hl
          rcases ih with h | ⟨m₀, m₁, ev₀, h, hev, hstart, hquiet⟩
          · exact ⟨diary, Or.inr ⟨m, m', ev, h, hok, hnext, .refl⟩⟩
          · have hh : HandlesBy ok m₀ ev₀ m := ⟨hev, ⟨m₁, hstart, hquiet⟩, idle_of_event hnext⟩
            exact ⟨_, Or.inr ⟨m, m', ev, h.handle hh, hok, hnext, .refl⟩⟩
  obtain ⟨diary, h | ⟨m₀, m₁, ev, h, hev, hstart, hquiet⟩⟩ := hall
  · exact ⟨diary, h⟩
  · exact ⟨_, h.handle ⟨hev, ⟨m₁, hstart, hquiet⟩, hidle⟩⟩

/-! ## What happens between two entries -/

/-- Between events the other threads keep to the background. -/
theorem background_of_rest (hm : Reachable anyStep m) (hidle : m.Idle) {l : Label}
    (hl : ∀ ev, l ≠ .event ev) (h : m.next l = some m') :
    Background m.globals m'.globals := by
  have ht := hm.tracked (C := fun _ _ => True) fun _ _ _ _ _ _ _ _ _ => trivial
  cases l with
  | event ev => exact absurd rfl (hl ev)
  | round =>
      simp only [Machine.next, Option.ite_none_right_eq_some, Option.some.injEq] at h
      obtain ⟨-, rfl⟩ := h
      exact .of_hall rfl rfl rfl
  | wake i =>
      simp only [Machine.next] at h
      cases hi : m.globals.pendingCleanups[i]? with
      | none => simp [hi] at h
      | some roomId =>
          simp only [hi, Option.some.injEq] at h
          subst h
          exact .of_hall rfl rfl rfl
  | run t e =>
      -- a finished main thread has no step to take
      have hne : t ≠ .main := by
        rintro rfl
        simp only [Machine.next, Option.map_eq_some_iff] at h
        obtain ⟨c, hc, -⟩ := h
        rcases Config.stepThread_cases hc with ⟨k, next, hp, -⟩ | ⟨k, next, hp, -⟩ |
          ⟨f, next, hp, -⟩ <;> simp [Idle, hp, Prog.isDone] at hidle
      exact background_of_run ht.others hne h
  | tick d =>
      simp only [Machine.next, Option.some.injEq] at h
      subst h
      exact .of_hall rfl rfl rfl
  | signal =>
      simp only [Machine.next, Option.some.injEq] at h
      subst h
      exact .of_hall rfl rfl rfl

/-- What the handler of an event ends in under interference, its event ends in. -/
theorem HandlesBy.ends {Q : Globals → Prop} (hm : Reachable anyStep m) (hh : HandlesBy ok m ev m')
    (hQ : ∀ s s', Q s → Rely s s' → Q s') (hwp : ev.handler.wp Rely (fun _ => Q) m.globals) :
    Q m'.globals := by
  obtain ⟨m₁, hstart, hrun, hidle⟩ := hh.handles
  have ht := hm.tracked (C := fun _ _ => True) fun _ _ _ _ _ _ _ _ _ => trivial
  have ht₁ : m₁.Tracked Q := by
    simp only [Machine.next, Option.ite_none_right_eq_some, Option.some.injEq] at hstart
    obtain ⟨-, rfl⟩ := hstart
    refine ⟨?_, others_start ht.others _ fun hne => absurd rfl hne⟩
    have hprog : (m.config.start .main ev.handler).prog .main = ev.handler := by
      simp [Config.start]
    rw [hprog]
    exact hwp
  exact (ht₁.quiet hQ hrun).of_idle hidle

/-- An event that is handled can occur. -/
theorem HandlesBy.canOccur (hh : HandlesBy ok m ev m') : ev.CanOccur m.globals := by
  obtain ⟨m₁, hstart, -⟩ := hh.steps
  simp only [Machine.next, Option.ite_none_right_eq_some] at hstart
  exact hstart.1.2

theorem HandlesBy.ready (hm : Reachable anyStep m) (hidle : m.Idle) (hh : HandlesBy ok m ev m')
    {c : Command} (hc : ev.command = some c) : Ready m.globals ev.socket := by
  refine ⟨?_, (hallRun_of_reachable hm hidle).valid⟩
  have hocc := hh.canOccur
  cases ev with
  | receive sock buffer => exact hocc.1
  | connect sock => exact absurd hc (by simp [Event.command])
  | hangup sock => exact absurd hc (by simp [Event.command])

/-- The handler of a command. -/
theorem handler_of_command {c : Command} (hc : ev.command = some c) :
    ev.handler = runCommand ev.socket c := by
  cases ev with
  | connect sock => exact absurd hc (by simp [Event.command])
  | hangup sock => exact absurd hc (by simp [Event.command])
  | receive sock buffer =>
      rw [Event.command] at hc
      rw [Event.handler, handleClientMessage]
      cases ht : actedText buffer with
      | none => exact absurd hc (by simp [ht])
      | some text =>
          rw [ht, Option.bind_some] at hc
          cases hp : parseText text with
          | command c' =>
              rw [hp] at hc
              -- the text is parsed once more by the handler, with the same outcome
              obtain rfl : c' = c := Option.some.inj hc
              show runRequest sock (parseText text) = _
              rw [hp]
              rfl
          | privateMessage _ _ => exact absurd hc (by simp [hp, Request.command?])
          | badPrivateMessage => exact absurd hc (by simp [hp, Request.command?])
          | chat _ => exact absurd hc (by simp [hp, Request.command?])

/-! ## Executable diaries -/

/-- Handle the events that `cond` allows, one after the other and without interference, and keep the
diary. -/
def keep (cond : Globals → Event → Prop) [∀ s ev, Decidable (cond s ev)] :
    Machine × List Handled → List (Event × Fin 900000) → Machine × List Handled
  | p, [] => p
  | p, (ev, draw) :: evs =>
      match p.1.serve cond ev draw with
      | some m' =>
          if m'.Idle then keep cond (m', p.2 ++ [⟨p.1.globals, ev, m'.globals⟩]) evs
          else keep cond p evs
      | none => keep cond p evs

theorem keep_kept {cond : Globals → Event → Prop} [∀ s ev, Decidable (cond s ev)]
    (hok : ∀ m ev, cond m.globals ev → ok m (.event ev))
    (hrun : ∀ m draw, ok m (.run .main (.midnight draw))) :
    ∀ (evs : List (Event × Fin 900000)) (p : Machine × List Handled),
      Kept ok db listenSocket p.1 p.2 →
        Kept ok db listenSocket (keep cond p evs).1 (keep cond p evs).2
  | [], _, h => h
  | (ev, draw) :: evs, p, h => by
      rw [keep]
      split
      · rename_i m' hserve
        split
        · rename_i hidle
          apply keep_kept hok hrun evs
          simp only [serve, Option.ite_none_right_eq_some, Option.map_eq_some_iff] at hserve
          obtain ⟨hc, m₁, hnext, rfl⟩ := hserve
          refine h.handle ⟨hok _ _ hc, ⟨m₁, hnext, ?_⟩, hidle⟩
          exact finish_reaches (fun m => ⟨hrun m draw, fun ev => by simp⟩) 60 m₁
        · exact keep_kept hok hrun evs p h
      · exact keep_kept hok hrun evs p h

/-- A property of the machine and the diary after the events `evs` is one of a run and its diary. -/
theorem kept_of_keep (ok : Machine → Label → Prop) (cond : Globals → Event → Prop)
    [∀ s ev, Decidable (cond s ev)] (hok : ∀ m ev, cond m.globals ev → ok m (.event ev))
    (hrun : ∀ m draw, ok m (.run .main (.midnight draw))) (evs : List (Event × Fin 900000))
    (p : Machine → List Handled → Bool)
    (h : p (keep cond (Machine.boot {} 3, []) evs).1 (keep cond (Machine.boot {} 3, []) evs).2 = true) :
    ∃ m diary, Kept ok {} 3 m diary ∧ p m diary = true :=
  ⟨_, _, keep_kept hok hrun evs (Machine.boot {} 3, []) .boot, h⟩

end Machine

end TerminalChat.Server
