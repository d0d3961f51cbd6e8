import Mathlib
import TerminalChat.Server.Refusing

/-!
# Refusals change nothing

Along every run the handler in progress keeps its contract. So a handler that refuses its client sends
one line and does nothing else, whatever the other threads do in the meantime
(`Machine.refusal_changes_nothing`).
-/

set_option autoImplicit false

namespace TerminalChat.Server

open TerminalChat.Concurrency TerminalChat.Text

namespace Machine

variable {m m' : Machine} {sock : SOCKET} {g : Standing}

/-- The handler in progress, for a client, keeps its contract from what it has done so far. -/
def InOrder (m : Machine) (sock : SOCKET) (g : Standing) : Prop :=
  ∃ H, (m.config.prog .main).Honours (orderly sock) (fun _ _ _ _ => True) g H m.globals

theorem inOrder_event {ev : Event} (h : m.next (.event ev) = some m') :
    m'.InOrder ev.socket .clean ∧ m'.globals = m.globals := by
  simp only [next, Option.ite_none_right_eq_some, Option.some.injEq] at h
  obtain ⟨⟨-, hev⟩, rfl⟩ := h
  refine ⟨⟨[], ?_⟩, rfl⟩
  have hprog : (m.config.start .main ev.handler).prog .main = ev.handler := by
    simp [Config.start]
  rw [hprog]
  exact orderly_handler hev

theorem InOrder.main (hm : m.InOrder sock g) {e : Env} (h : m.next (.run .main e) = some m') :
    ∃ g', Orderly sock g g' m.globals m'.globals ∧ m'.InOrder sock g' := by
  obtain ⟨H, hh⟩ := hm
  simp only [next, Option.map_eq_some_iff] at h
  obtain ⟨c, hc, rfl⟩ := h
  rcases Config.honours_stepThread hc hh with ⟨hs, -, H', hh'⟩ | ⟨-, g', hg, hh'⟩
  · have hsame : c.shared = m.globals := hs
    exact ⟨g, ⟨by rw [globals, hsame], Or.inl ⟨rfl, hsame⟩⟩, H', hh'⟩
  · exact ⟨g', hg, H, hh'⟩

/-- The other threads, the clock and the signal leave the clients and the handler in progress
alone. -/
theorem clients_of_other (hm : Reachable anyStep m) {l : Label} (hl : ∀ ev, l ≠ .event ev)
    (hr : ∀ e, l ≠ .run .main e) (h : m.next l = some m') :
    m'.globals.clients = m.globals.clients ∧ m'.config.prog .main = m.config.prog .main := by
  have hothers := (hm.tracked (C := fun _ _ => True) fun _ _ _ _ _ _ _ _ _ => trivial).others
  cases l with
  | event ev => exact absurd rfl (hl ev)
  | round =>
      simp only [next, Option.ite_none_right_eq_some, Option.some.injEq] at h
      obtain ⟨-, rfl⟩ := h
      exact ⟨rfl, main_start (by decide) _⟩
  | wake i =>
      simp only [next] at h
      cases hi : m.globals.pendingCleanups[i]? with
      | none => simp [hi] at h
      | some roomId =>
          simp only [hi, Option.some.injEq] at h
          subst h
          exact ⟨rfl, main_start (by simp) _⟩
  | run t e =>
      have ht : t ≠ .main := by
        rintro rfl
        exact hr e rfl
      refine ⟨(background_of_run hothers ht h).clients, ?_⟩
      simp only [next, Option.map_eq_some_iff] at h
      obtain ⟨c, hc, rfl⟩ := h
      exact Config.stepThread_prog_of_ne hc (Ne.symm ht)
  | tick d =>
      simp only [next, Option.some.injEq] at h
      subst h
      exact ⟨rfl, rfl⟩
  | signal =>
      simp only [next, Option.some.injEq] at h
      subst h
      exact ⟨rfl, rfl⟩

theorem InOrder.other (hm : m.InOrder sock g) (hreach : Reachable anyStep m) {l : Label}
    (hl : ∀ ev, l ≠ .event ev) (hr : ∀ e, l ≠ .run .main e) (h : m.next l = some m') :
    m'.InOrder sock g := by
  obtain ⟨H, hh⟩ := hm
  obtain ⟨hclients, hprog⟩ := clients_of_other hreach hl hr h
  refine ⟨H, ?_⟩
  rw [hprog]
  exact Prog.honours_stable (fun _ _ _ _ _ _ _ => trivial) _ hh hclients

/-- In every run the handler in progress keeps its contract. -/
theorem exists_inOrder (hm : Reachable anyStep m) : ∃ sock g, m.InOrder sock g := by
  obtain ⟨db, listenSocket, hrun⟩ := hm
  induction hrun with
  | refl => exact ⟨0, .clean, [], trivial⟩
  | @tail m m' hrun hstep ih =>
      obtain ⟨l, -, h⟩ := hstep
      obtain ⟨sock, g, hm⟩ := ih
      by_cases hl : ∀ ev, l ≠ .event ev
      · by_cases hr : ∀ e, l ≠ .run .main e
        · exact ⟨sock, g, hm.other ⟨db, listenSocket, hrun⟩ hl hr h⟩
        · simp only [ne_eq, not_forall, not_not] at hr
          obtain ⟨e, rfl⟩ := hr
          obtain ⟨g', -, hm'⟩ := hm.main h
          exact ⟨sock, g', hm'⟩
      · simp only [ne_eq, not_forall, not_not] at hl
        obtain ⟨ev, rfl⟩ := hl
        exact ⟨_, _, (inOrder_event h).1⟩

/-- No handler touches the shutdown flag. -/
theorem flag_of_main (hm : Reachable anyStep m) {e : Env} (h : m.next (.run .main e) = some m') :
    m'.globals.shutdownRequested = m.globals.shutdownRequested := by
  obtain ⟨sock, g, hin⟩ := exists_inOrder hm
  obtain ⟨g', hd, -⟩ := hin.main h
  exact hd.flag

/-- The handling of an event from `m` on: the steps of the main thread so far, each with the globals
before and after it, among any steps of the other threads. -/
inductive Handling (m : Machine) (ev : Event) : List (Globals × Globals) → Machine → Prop where
  | start {m₁ : Machine} (h : m.next (.event ev) = some m₁) : Handling m ev [] m₁
  | main {acts : List (Globals × Globals)} {m₁ m₂ : Machine} (e : Env) (h : Handling m ev acts m₁)
      (hn : m₁.next (.run .main e) = some m₂) :
      Handling m ev (acts ++ [(m₁.globals, m₂.globals)]) m₂
  | other {acts : List (Globals × Globals)} {m₁ m₂ : Machine} (l : Label)
      (h : Handling m ev acts m₁) (hl : ∀ ev, l ≠ .event ev) (hr : ∀ e, l ≠ .run .main e)
      (hn : m₁.next l = some m₂) : Handling m ev acts m₂

/-- The step sends the client a refusal. -/
def SendsRefusal (sock : SOCKET) (a : Globals × Globals) : Prop :=
  ∃ op ∈ opsBetween a.1 a.2, op.Refuses sock

instance (sock : SOCKET) (a : Globals × Globals) : Decidable (SendsRefusal sock a) :=
  inferInstanceAs (Decidable (∃ op ∈ _, _))

/-- One step sends the client one refusal and does nothing else; all others do nothing. -/
def OnlyRefuses (sock : SOCKET) (acts : List (Globals × Globals)) : Prop :=
  ∃ (before after : List (Globals × Globals)) (s : Globals) (text : Bytes), IsRefusal text ∧
    acts = before ++ (s, s.send sock text) :: after ∧ ∀ a ∈ before ++ after, a.2 = a.1

/-- What the handler has done so far, by its steps. -/
structure Accounted (sock : SOCKET) (g : Standing) (acts : List (Globals × Globals)) : Prop where
  clean : g = .clean → ∀ a ∈ acts, a.2 = a.1
  refused : g = .refused → OnlyRefuses sock acts
  touched : g = .touched → ∀ a ∈ acts, ¬SendsRefusal sock a

theorem not_sendsRefusal_of_same {a : Globals × Globals} (h : a.2 = a.1) :
    ¬SendsRefusal sock a := by
  rintro ⟨op, hop, -⟩
  rw [opsBetween, h, List.drop_length] at hop
  exact absurd hop List.not_mem_nil

/-- One more step, that sends what can be sent. -/
theorem Accounted.step {acts : List (Globals × Globals)} (hacts : Accounted sock g acts)
    {g' : Standing} {s s' : Globals} (h : Orderly sock g g' s s') (hs : ∀ op ∈ s'.net, op.Spoken) :
    Accounted sock g' (acts ++ [(s, s')]) := by
  have hmem : ∀ {P : Globals × Globals → Prop}, (∀ a ∈ acts, P a) → P (s, s') →
      ∀ a ∈ acts ++ [(s, s')], P a := by
    intro P hold hnew a ha
    rcases List.mem_append.1 ha with ha | ha
    · exact hold a ha
    · rw [List.mem_singleton.1 ha]
      exact hnew
  rcases h.deed with ⟨rfl, rfl⟩ | ⟨rfl, rfl, text, ht, rfl⟩ | ⟨hg, rfl, ops, hnet, hops⟩
  · -- the step only reads
    refine ⟨fun hg => hmem (hacts.clean hg) rfl, fun hg => ?_,
      fun hg => hmem (hacts.touched hg) (not_sendsRefusal_of_same rfl)⟩
    obtain ⟨before, after, t, text, ht, rfl, hrest⟩ := hacts.refused hg
    refine ⟨before, after ++ [(s', s')], t, text, ht, by simp, ?_⟩
    intro a ha
    rw [← List.append_assoc] at ha
    rcases List.mem_append.1 ha with ha | ha
    · exact hrest a ha
    · rw [List.mem_singleton.1 ha]
  · refine ⟨by simp, fun _ => ⟨acts, [], s, text, ht, rfl, ?_⟩, by simp⟩
    rw [List.append_nil]
    exact hacts.clean rfl
  · refine ⟨by simp, by simp, fun _ => hmem ?_ ?_⟩
    · intro a ha
      cases g with
      | clean => exact not_sendsRefusal_of_same (hacts.clean rfl a ha)
      | refused => exact absurd rfl hg
      | touched => exact hacts.touched rfl a ha
    · rintro ⟨op, hop, hr⟩
      rw [opsBetween_eq hnet] at hop
      refine hops op hop (hr.denies (hs op ?_))
      rw [hnet]
      exact List.mem_append_right _ hop

theorem Handling.reachable {ev : Event} {acts : List (Globals × Globals)}
    (hm : Reachable anyStep m) (h : m.Handling ev acts m') : Reachable anyStep m' := by
  obtain ⟨db, listenSocket, hrun⟩ := hm
  refine ⟨db, listenSocket, ?_⟩
  induction h with
  | start h => exact hrun.tail ⟨_, trivial, h⟩
  | main e _ hn ih => exact ih.tail ⟨_, trivial, hn⟩
  | other l _ _ _ hn ih => exact ih.tail ⟨_, trivial, hn⟩

/-- The steps of a handling are accounted for. -/
theorem Handling.accounted {ev : Event} {acts : List (Globals × Globals)}
    (hm : Reachable anyStep m) (h : m.Handling ev acts m') :
    ∃ g, m'.InOrder ev.socket g ∧ Accounted ev.socket g acts := by
  induction h with
  | start h =>
      exact ⟨.clean, (inOrder_event h).1, fun _ a ha => absurd ha List.not_mem_nil, by simp,
        by simp⟩
  | main e _ hn ih =>
      rename_i hh
      obtain ⟨g, hin, hacts⟩ := ih
      obtain ⟨g', hd, hin'⟩ := hin.main hn
      exact ⟨g', hin', hacts.step hd (speaking_of_reachable ((hh.main e hn).reachable hm)).net⟩
  | other l hh hl hr hn ih =>
      obtain ⟨g, hin, hacts⟩ := ih
      exact ⟨g, hin.other (hh.reachable hm) hl hr hn, hacts⟩

/-- Nothing happens between the steps: each begins where the one before has ended. -/
def Undisturbed (s : Globals) : List (Globals × Globals) → Globals → Prop
  | [], s' => s' = s
  | a :: acts, s' => a.1 = s ∧ Undisturbed a.2 acts s'

theorem undisturbed_append {acts acts' : List (Globals × Globals)} {s s' : Globals} :
    Undisturbed s (acts ++ acts') s' ↔ ∃ t, Undisturbed s acts t ∧ Undisturbed t acts' s' := by
  induction acts generalizing s with
  | nil => simp [Undisturbed]
  | cons a acts ih =>
      simp only [List.cons_append, Undisturbed, ih]
      constructor
      · rintro ⟨ha, t, h, h'⟩
        exact ⟨t, ⟨ha, h⟩, h'⟩
      · rintro ⟨t, ⟨ha, h⟩, h'⟩
        exact ⟨ha, t, h, h'⟩

theorem eq_of_undisturbed {acts : List (Globals × Globals)} (hsame : ∀ a ∈ acts, a.2 = a.1)
    {s s' : Globals} (h : Undisturbed s acts s') : s' = s := by
  induction acts generalizing s with
  | nil => exact h
  | cons a acts ih =>
      obtain ⟨rfl, h⟩ := h
      rw [ih (fun a ha => hsame a (List.mem_cons_of_mem _ ha)) h, hsame a List.mem_cons_self]

/-- When nothing else happens, a refusal is all that is left of the handling. -/
theorem OnlyRefuses.undisturbed {acts : List (Globals × Globals)} (h : OnlyRefuses sock acts)
    {s s' : Globals} (hu : Undisturbed s acts s') :
    ∃ text, IsRefusal text ∧ s' = s.send sock text := by
  obtain ⟨before, after, t, text, ht, rfl, hsame⟩ := h
  obtain ⟨t₁, hbefore, hstep, hafter⟩ := undisturbed_append.1 hu
  have h₁ := eq_of_undisturbed (fun a ha => hsame a (List.mem_append_left _ ha)) hbefore
  have h₂ := eq_of_undisturbed (fun a ha => hsame a (List.mem_append_right _ ha)) hafter
  refine ⟨text, ht, ?_⟩
  have ht₁ : t = t₁ := hstep
  rw [h₂, ht₁, h₁]

/-- The steps that `finish` takes. -/
def stepsToFinish (e : Env) : Nat → Machine → List (Globals × Globals)
  | 0, _ => []
  | fuel + 1, m =>
      match m.next (.run .main e) with
      | some m' => (m.globals, m'.globals) :: stepsToFinish e fuel m'
      | none => []

theorem Handling.finish {ev : Event} (e : Env) : ∀ (fuel : Nat) (acts : List (Globals × Globals))
    (m₁ : Machine), m.Handling ev acts m₁ →
      m.Handling ev (acts ++ stepsToFinish e fuel m₁) (m₁.finish e fuel)
  | 0, acts, m₁, h => by
      rw [stepsToFinish, List.append_nil]
      exact h
  | fuel + 1, acts, m₁, h => by
      rw [stepsToFinish, Machine.finish]
      cases hn : m₁.next (.run .main e) with
      | none =>
          rw [List.append_nil]
          exact h
      | some m₂ =>
          have hrest := Handling.finish e fuel _ m₂ (h.main e hn)
          rw [List.append_assoc] at hrest
          exact hrest

/-- A line that is refused changes nothing: its handling, among any steps of the other threads, sends
the client the refusal and does nothing else. Without other steps the globals are those from before,
and the refusal. -/
theorem refusal_changes_nothing (m : Machine) (hm : Reachable anyStep m) (sock : SOCKET)
    (buffer : Bytes) (acts : List (Globals × Globals)) (m' : Machine)
    (h : m.Handling (.receive sock buffer) acts m') (href : ∃ a ∈ acts, SendsRefusal sock a) :
    OnlyRefuses sock acts ∧ (Undisturbed m.globals acts m'.globals →
      ∃ text, IsRefusal text ∧ m'.globals = m.globals.send sock text) := by
  obtain ⟨g, -, hacts⟩ := h.accounted hm
  obtain ⟨a, ha, hr⟩ := href
  have honly : OnlyRefuses sock acts := by
    cases g with
    | clean => exact absurd hr (not_sendsRefusal_of_same (hacts.clean rfl a ha))
    | refused => exact hacts.refused rfl
    | touched => exact absurd hr (hacts.touched rfl a ha)
  exact ⟨honly, honly.undisturbed⟩

/-- The warning to an owner who wants to leave. -/
theorem refusal_changes_nothing_leave : ∃ (m : Machine) (acts : List (Globals × Globals))
    (m' : Machine), Reachable anyStep m ∧ m.Handling (.receive 4 (str "/LEAVE")) acts m' ∧ m'.Idle ∧
      OnlyRefuses 4 acts := by
  obtain ⟨m, hm, hp⟩ := reachable_of_after (fun _ _ => True)
    [(.connect 4, 0), (.receive 4 (str "/CREATE PUBLIC"), 7)]
    (fun m => (m.next (.event (.receive 4 (str "/LEAVE")))).any fun m₁ : Machine =>
      decide ((finish (.midnight 0) 60 m₁).Idle ∧
        ∃ a ∈ stepsToFinish (.midnight 0) 60 m₁, SendsRefusal 4 a)) (by decide +kernel)
  obtain ⟨m₁, h₁, hp⟩ := (Option.any_eq_true _ _).1 hp
  obtain ⟨hidle, href⟩ := of_decide_eq_true hp
  have hany : Reachable anyStep m := hm.mono fun _ _ _ => trivial
  have hh := Handling.finish (.midnight 0) 60 [] m₁ (.start h₁)
  rw [List.nil_append] at hh
  exact ⟨m, _, _, hany, hh, hidle,
    (refusal_changes_nothing m hany 4 (str "/LEAVE") _ _ hh href).1⟩

end Machine

end TerminalChat.Server
