import Mathlib
import TerminalChat.Server.Refusals

/-!
# Shutdown

The loop of the broadcaster tests the shutdown flag before every round. The test inside the round, that
ends the loop only when the queue is empty, therefore drains nothing: once the flag is set, at most
the message of the round in progress is still taken (`drained_iff`). A `BroadcastLog` is kept beside a run.
It follows the broadcaster through its loop and counts the messages.
-/

set_option autoImplicit false

namespace TerminalChat.Server

open TerminalChat.Concurrency TerminalChat.Text

/-- Where the broadcaster is: before the test of the flag, before its wait has looked at the queue,
before it takes a message, behind that, or out of the loop. -/
inductive Stage where
  | testing
  | waiting
  | taking
  | handling
  | returned
  deriving DecidableEq

/-- The stage after an action. -/
def Stage.advance (s : Globals) : Stage → Stage
  | .testing => if s.shutdownRequested then .returned else .waiting
  | .waiting => .taking
  | .taking => .handling
  | .handling => .handling
  | .returned => .returned

/-- The stage of the broadcaster, the messages pushed before the flag was set, those that have been
taken and processed, and the one that is being processed. -/
structure BroadcastLog where
  stage : Stage := .testing
  pushed : List Message := []
  processed : List Message := []
  inHand : Option Message := none

/-- The broadcaster has acted. -/
def BroadcastLog.act (s : Globals) (v : BroadcastLog) : BroadcastLog :=
  { v with
    stage := v.stage.advance s
    inHand := if v.stage = .taking then s.messageQueue.head? else v.inHand }

/-- A round is over: what was taken has been processed. -/
def BroadcastLog.endRound (v : BroadcastLog) : BroadcastLog :=
  { v with
    stage := if v.stage = .returned then .returned else .testing
    processed := v.processed ++ v.inHand.toList
    inHand := none }

/-- The log after a step of the machine. -/
def BroadcastLog.observe (m : Machine) (l : Label) (m' : Machine) (v : BroadcastLog) : BroadcastLog :=
  match l with
  | .run .main _ =>
      if m.globals.shutdownRequested then v
      else { v with pushed := v.pushed ++
        m'.globals.messageQueue.drop m.globals.messageQueue.length }
  | .run .broadcaster _ =>
      if v.stage = .returned then v
      else
        let acted := if (m.config.prog .broadcaster).isAct then v.act m.globals else v
        if (m'.config.prog .broadcaster).isDone then acted.endRound else acted
  | _ => v

/-! ## The loop of the broadcaster -/

/-- What an action of the broadcaster does to the queue, by the stage. -/
structure Rotates (g g' : Stage) (s s' : Globals) : Prop where
  stage : g' = g.advance s
  queue : s'.messageQueue = if g = .taking then s.messageQueue.tail else s.messageQueue
  flag : s'.shutdownRequested = s.shutdownRequested

/-- The contract of the loop. It relies on nothing. -/
def rotation : Contract Mutex Env Globals Stage where
  rely _ _ _ := True
  guarantee _ g g' _ s s' := Rotates g g' s s'
  rely_refl _ _ := trivial
  rely_trans _ _ _ _ _ _ := trivial
  rely_mono _ _ _ _ _ := trivial

section Loop

variable {H : List Mutex}

/-- The broadcaster is at a stage. -/
def At (stage : Stage) (g : Stage) (_ : Globals) : Prop := g = stage

theorem stable_at {stage : Stage} : Prog.Stable rotation H (At stage) := fun _ _ _ _ h => h

/-- A block that leaves the queue and the flag alone, at a stage that takes nothing. -/
theorem triple_rotate {α : Type} {b : Sect α} {stage : Stage} {next : α → Stage}
    (hs : stage ≠ .taking) (hb : ∀ e s, b.post e s fun a s' => next a = stage.advance s ∧
      s'.messageQueue = s.messageQueue ∧ s'.shutdownRequested = s.shutdownRequested) :
    Prog.Triple rotation H (At stage) (step b) fun a => At (next a) := by
  apply Prog.triple_block _ stable_at fun _ => stable_at
  rintro e g s rfl
  apply Block.post_mono (hb e s)
  rintro a s' ⟨hnext, hqueue, hflag⟩
  refine ⟨next a, ⟨hnext, ?_, hflag⟩, rfl⟩
  rw [if_neg hs]
  exact hqueue

/-- What the broadcaster does with a message leaves the queue and the flag alone. -/
theorem triple_handling {α : Type} {b : Sect α} (hb : ∀ e s, b.post e s fun _ s' =>
    s'.messageQueue = s.messageQueue ∧ s'.shutdownRequested = s.shutdownRequested) :
    Prog.Triple rotation H (At .handling) (step b) fun _ => At .handling :=
  triple_rotate (by decide) fun e s => Block.post_mono (hb e s) fun _ _ h => ⟨rfl, h⟩

theorem triple_take : Prog.Triple rotation H (At .taking) (step popMessage) fun _ =>
    At .handling := by
  apply Prog.triple_block _ stable_at fun _ => stable_at
  rintro e g s rfl
  exact ⟨.handling, ⟨rfl, rfl, rfl⟩, rfl⟩

theorem triple_deliver (message : Message) :
    Prog.Triple rotation H (At .handling) (deliverMessage message) fun _ => At .handling := by
  apply Prog.triple_holding stable_at fun _ => stable_at
  apply Prog.triple_bind (R := fun _ => At .handling)
  · exact triple_handling fun _ _ => ⟨rfl, rfl⟩
  intro found
  apply Prog.triple_ite
  · intro _
    apply Prog.triple_ite
    · intro _
      apply Prog.triple_bind (R := fun _ => At .handling)
      · apply Prog.triple_holding stable_at fun _ => stable_at
        exact triple_handling fun _ _ => ⟨rfl, rfl⟩
      · intro t
        apply triple_handling
        intro e s
        simp only [deliverPrivate, Block.post_ite, post_sendToClient, Block.post_bind,
          post_getCurrentTimestamp, post_tellDatabase]
        exact ⟨fun _ => ⟨rfl, rfl⟩, fun _ => ⟨rfl, rfl⟩⟩
    · exact fun _ => triple_handling fun _ _ => ⟨rfl, rfl⟩
  · exact fun _ => Prog.triple_pure fun _ _ h => h

/-- A round ends the loop, or has looked for a message and handled what there was. -/
theorem triple_round : Prog.Triple rotation [] (At .testing) broadcastRound fun _ g _ =>
    g = .returned ∨ g = .handling := by
  apply Prog.triple_bind (R := fun stop => At (if stop then .returned else .waiting))
  · exact triple_rotate (by decide) fun _ _ => ⟨rfl, rfl, rfl⟩
  intro stop
  apply Prog.triple_ite
  · rintro rfl
    exact Prog.triple_pure fun _ _ h => Or.inl h
  · intro hstop
    rw [Bool.not_eq_true] at hstop
    rw [hstop]
    apply Prog.triple_bind (R := fun _ => At .handling)
    · apply Prog.triple_holding stable_at fun _ => stable_at
      apply Prog.triple_bind (R := fun _ => At .taking)
      · exact triple_rotate (by decide) fun _ _ => ⟨rfl, rfl, rfl⟩
      intro ready
      apply Prog.triple_ite
      · exact fun _ => triple_take
      · exact fun _ => Prog.triple_bind (Prog.triple_yield stable_at) fun _ => triple_take
    intro message
    cases message with
    | none => exact Prog.triple_pure fun _ _ h => Or.inr h
    | some message =>
        exact Prog.triple_mono (triple_deliver message) (fun _ _ h => h) fun _ _ _ h => Or.inr h

end Loop

/-! ## Runs -/

namespace Machine

variable {m m' : Machine} {v v' : BroadcastLog}

/-- A step of the machine, with the log of the broadcaster. -/
def BroadcastLogStep (p p' : Machine × BroadcastLog) : Prop :=
  ∃ l, p.1.next l = some p'.1 ∧ p'.2 = p.2.observe p.1 l p'.1

/-- The machine is reached by a run from a start of the server, and the log has been kept. -/
def Logged (db : Database) (listenSocket : SOCKET) (m : Machine) (v : BroadcastLog) : Prop :=
  Relation.ReflTransGen BroadcastLogStep (boot db listenSocket, {}) (m, v)

/-- In every run the contracts of all threads are honoured. -/
theorem exists_honoured (hm : Reachable anyStep m) : ∃ note, m.Honoured note := by
  obtain ⟨db, listenSocket, hrun⟩ := hm
  obtain ⟨w, hw⟩ := exists_watched hrun
  obtain ⟨note, hh, -⟩ := hw.honoured_induction (P := fun _ _ _ => True) trivial
    fun _ _ _ _ _ _ _ _ _ _ _ => trivial
  exact ⟨note, hh⟩

/-- A step that takes or releases a mutex leaves the globals alone. -/
theorem globals_of_not_act {t : Tid} {e : Env} (hact : (m.config.prog t).isAct = false)
    (h : m.next (.run t e) = some m') : m'.globals = m.globals := by
  simp only [next, Option.map_eq_some_iff] at h
  obtain ⟨c, hc, rfl⟩ := h
  rcases Config.stepThread_cases hc with ⟨n, next, hp, -, rfl⟩ | ⟨n, next, hp, rfl⟩ |
    ⟨f, next, hp, rfl⟩
  · rfl
  · rfl
  · rw [hp] at hact
    exact absurd hact (by simp [Prog.isAct])

/-- The broadcaster does not touch the flag. -/
theorem flag_of_broadcaster (hm : Reachable anyStep m) {e : Env}
    (h : m.next (.run .broadcaster e) = some m') :
    m'.globals.shutdownRequested = m.globals.shutdownRequested := by
  obtain ⟨note, hh⟩ := exists_honoured hm
  obtain ⟨note', -, hstride⟩ := hh.next hm h
  cases hstride with
  | rest hn hs hl => rw [globals_of_not_act (hl _ _ rfl) h]
  | act H g' hn hact hg =>
      have hacts := BroadcastDeed.acts hg
      cases hhand : (note .broadcaster).hand with
      | empty =>
          rw [hhand] at hacts
          rcases hacts with hs | ⟨message, rest, -, hs⟩
          · rw [hs]
          · rw [hs]
      | taken message =>
          rw [hhand] at hacts
          rw [show m'.globals = m.globals from hacts]
      | found message =>
          rw [hhand, Hand.Acts] at hacts
          split at hacts
          · rw [hacts]
          · rw [hacts.2, state_deliverPublic]
            rfl
      | resolved message t recipient =>
          rw [hhand] at hacts
          rw [hacts.2, state_deliverPrivate]

/-- What the other threads, the clock and the signal do to the queue and the flag: only handlers add
messages, and only the signal sets the flag. -/
theorem queue_of_other (hm : Reachable anyStep m) {l : Label} (h : m.next l = some m')
    (hl : ∀ e, l ≠ .run .broadcaster e) :
    (∃ added, m'.globals.messageQueue = m.globals.messageQueue ++ added ∧
      ((∀ e, l ≠ .run .main e) → added = [])) ∧
    (l ≠ .signal → m'.globals.shutdownRequested = m.globals.shutdownRequested) := by
  have hsame : m'.globals.messageQueue = m.globals.messageQueue →
      ∃ added, m'.globals.messageQueue = m.globals.messageQueue ++ added ∧
        ((∀ e, l ≠ .run .main e) → added = []) :=
    fun hq => ⟨[], by rw [hq, List.append_nil], fun _ => rfl⟩
  cases l with
  | event ev =>
      have hs := (inOrder_event h).2
      exact ⟨hsame (by rw [hs]), fun _ => by rw [hs]⟩
  | round =>
      simp only [next, Option.ite_none_right_eq_some, Option.some.injEq] at h
      obtain ⟨-, rfl⟩ := h
      exact ⟨hsame rfl, fun _ => rfl⟩
  | wake i =>
      simp only [next] at h
      cases hi : m.globals.pendingCleanups[i]? with
      | none => simp [hi] at h
      | some roomId =>
          simp only [hi, Option.some.injEq] at h
          subst h
          exact ⟨hsame rfl, fun _ => rfl⟩
  | tick d =>
      simp only [next, Option.some.injEq] at h
      subst h
      exact ⟨hsame rfl, fun _ => rfl⟩
  | signal =>
      simp only [next, Option.some.injEq] at h
      subst h
      exact ⟨hsame rfl, fun hne => absurd rfl hne⟩
  | run t e =>
      obtain ⟨note, hh⟩ := exists_honoured hm
      obtain ⟨note', -, hstride⟩ := hh.next hm h
      cases hstride with
      | rest hn hs hl' =>
          have hsame' := globals_of_not_act (hl' t e rfl) h
          exact ⟨hsame (by rw [hsame']), fun _ => by rw [hsame']⟩
      | act H g' hn hact hg =>
          cases t with
          | main =>
              -- the only effect on the queue is a push at its end
              obtain ⟨effs, ops, hdeeds, -⟩ := MainDeed.deeds hg
              exact ⟨⟨_, hdeeds.queue, fun hne => absurd rfl (hne e)⟩, fun _ => flag_of_main hm h⟩
          | broadcaster => exact absurd rfl (hl e)
          | cleanup n =>
              obtain ⟨roomId, hs⟩ := CleanupDeed.sweeps hg
              rw [hs, Effect.apply]
              split
              · exact ⟨⟨[], by simp, fun _ => rfl⟩, fun _ => rfl⟩
              · exact ⟨⟨[], by simp, fun _ => rfl⟩, fun _ => rfl⟩

/-- The broadcaster has left its loop, is between two rounds, or is in a round at its stage. -/
inductive Looping (m : Machine) (v : BroadcastLog) : Prop where
  | out (hs : v.stage = .returned)
  | between (hd : (m.config.prog .broadcaster).isDone = true) (hs : v.stage = .testing)
  | inside (hd : (m.config.prog .broadcaster).isDone = false) (H : List Mutex)
      (hh : (m.config.prog .broadcaster).Honours rotation
        (fun _ g _ _ => g = .returned ∨ g = .handling) v.stage H m.globals)

end Machine

/-- What a step does to the queue, the flag and the log: messages are added, or the flag is set; the
broadcaster is out of its loop; or it acts or not, and then perhaps ends its round. -/
inductive Turn (s : Globals) (v : BroadcastLog) (s' : Globals) : BroadcastLog → Prop where
  | adds (added : List Message) (hq : s'.messageQueue = s.messageQueue ++ added)
      (hf : s'.shutdownRequested = s.shutdownRequested) : Turn s v s' { v with
        pushed := if s.shutdownRequested then v.pushed else v.pushed ++ added }
  | signal (hq : s'.messageQueue = s.messageQueue) (hf : s'.shutdownRequested = true) : Turn s v s' v
  | out (hs : v.stage = .returned) (hf : s'.shutdownRequested = s.shutdownRequested) : Turn s v s' v
  | rests (hs : v.stage ≠ .returned) (hq : s'.messageQueue = s.messageQueue)
      (hf : s'.shutdownRequested = s.shutdownRequested) : Turn s v s' v
  | ends (hs : v.stage = .handling) (hq : s'.messageQueue = s.messageQueue)
      (hf : s'.shutdownRequested = s.shutdownRequested) : Turn s v s' v.endRound
  | acts (hs : v.stage ≠ .returned)
      (hq : s'.messageQueue = if v.stage = .taking then s.messageQueue.tail else s.messageQueue)
      (hf : s'.shutdownRequested = s.shutdownRequested) : Turn s v s' (v.act s)
  | actsLast (hs : v.stage ≠ .returned)
      (hq : s'.messageQueue = if v.stage = .taking then s.messageQueue.tail else s.messageQueue)
      (hf : s'.shutdownRequested = s.shutdownRequested)
      (hl : v.stage.advance s = .returned ∨ v.stage.advance s = .handling) :
      Turn s v s' (v.act s).endRound

namespace Machine

variable {m m' : Machine} {v v' : BroadcastLog}

theorem observe_out (h : v.stage = .returned) (e : Env) :
    v.observe m (.run .broadcaster e) m' = v := by
  simp [BroadcastLog.observe, h]

theorem stage_of_done {stage : Stage} {H : List Mutex} {s : Globals} {p : Thread Unit}
    (hd : p.isDone = true) (hh : p.Honours rotation
      (fun _ g _ _ => g = .returned ∨ g = .handling) stage H s) :
    stage = .returned ∨ stage = .handling := by
  cases p with
  | ret a => exact hh
  | lock m next => simp [Prog.isDone] at hd
  | unlock m next => simp [Prog.isDone] at hd
  | act f next => simp [Prog.isDone] at hd

/-- A step of the broadcaster. -/
theorem Looping.broadcaster (hl : m.Looping v) (hs : v.stage ≠ .returned) {e : Env}
    (h : m.next (.run .broadcaster e) = some m') :
    Turn m.globals v m'.globals (v.observe m (.run .broadcaster e) m') ∧
      m'.Looping (v.observe m (.run .broadcaster e) m') := by
  simp only [next, Option.map_eq_some_iff] at h
  obtain ⟨c, hc, rfl⟩ := h
  cases hl with
  | out hout => exact absurd hout hs
  | between hd _ =>
      -- a finished thread takes no step
      rcases Config.stepThread_cases hc with ⟨n, next, hp, -⟩ | ⟨n, next, hp, -⟩ |
        ⟨f, next, hp, -⟩ <;> simp [hp, Prog.isDone] at hd
  | inside hd H hh =>
      have hlater : ∀ v₁ : BroadcastLog, (∃ H', (c.prog .broadcaster).Honours rotation
          (fun _ g _ _ => g = .returned ∨ g = .handling) v₁.stage H' c.shared) →
          Looping { m with config := c }
            (if (c.prog .broadcaster).isDone then v₁.endRound else v₁) := by
        rintro v₁ ⟨H', hh'⟩
        by_cases hdone : (c.prog .broadcaster).isDone = true
        · rw [if_pos hdone]
          rcases stage_of_done hdone hh' with hr | hr
          · exact .out (by simp [BroadcastLog.endRound, hr])
          · exact .between hdone (by simp [BroadcastLog.endRound, hr])
        · rw [if_neg hdone]
          exact .inside (by simpa using hdone) H' hh'
      rcases Config.honours_stepThread hc hh with ⟨hsame, hact, H', hh'⟩ | ⟨hact, g', hg, hh'⟩
      · have hobs : v.observe m (.run .broadcaster e) { m with config := c } =
            if (c.prog .broadcaster).isDone then v.endRound else v := by
          simp [BroadcastLog.observe, hs, hact]
        have hglobals : Machine.globals { m with config := c } = m.globals := hsame
        rw [hobs, hglobals]
        refine ⟨?_, hlater v ⟨H', hh'⟩⟩
        by_cases hdone : (c.prog .broadcaster).isDone = true
        · rw [if_pos hdone]
          exact .ends ((stage_of_done hdone hh').resolve_left hs) rfl rfl
        · rw [if_neg hdone]
          exact .rests hs rfl rfl
      · obtain ⟨rfl, hqueue, hflag⟩ := hg
        have hobs : v.observe m (.run .broadcaster e) { m with config := c } =
            if (c.prog .broadcaster).isDone then (v.act m.globals).endRound
              else v.act m.globals := by
          simp [BroadcastLog.observe, hs, hact]
        rw [hobs]
        refine ⟨?_, hlater (v.act m.globals) ⟨H, hh'⟩⟩
        by_cases hdone : (c.prog .broadcaster).isDone = true
        · rw [if_pos hdone]
          exact .actsLast hs hqueue hflag (stage_of_done hdone hh')
        · rw [if_neg hdone]
          exact .acts hs hqueue hflag

/-- The loop stands still while another thread moves. -/
theorem Looping.other (hl : m.Looping v)
    (hp : m'.config.prog .broadcaster = m.config.prog .broadcaster) {v' : BroadcastLog}
    (hv : v'.stage = v.stage) : m'.Looping v' := by
  cases hl with
  | out hs => exact .out (hv.trans hs)
  | between hd hs => exact .between (by rw [hp]; exact hd) (hv.trans hs)
  | inside hd H hh =>
      refine .inside (by rw [hp]; exact hd) H ?_
      rw [hp, hv]
      exact Prog.honours_stable (fun _ _ _ _ _ hq _ => hq) _ hh trivial

theorem broadcaster_of_other {l : Label} (h : m.next l = some m') (hr : l ≠ .round)
    (hl : ∀ e, l ≠ .run .broadcaster e) :
    m'.config.prog .broadcaster = m.config.prog .broadcaster := by
  have hstart : ∀ (c : Config Tid Mutex Env Globals) (t : Tid) (p : Thread Unit),
      t ≠ .broadcaster → (c.start t p).prog .broadcaster = c.prog .broadcaster := by
    intro c t p ht
    simp [Config.start, Function.update_of_ne ht.symm]
  cases l with
  | event ev =>
      simp only [next, Option.ite_none_right_eq_some, Option.some.injEq] at h
      obtain ⟨-, rfl⟩ := h
      exact hstart _ _ _ (by decide)
  | round => exact absurd rfl hr
  | wake i =>
      simp only [next] at h
      cases hi : m.globals.pendingCleanups[i]? with
      | none => simp [hi] at h
      | some roomId =>
          simp only [hi, Option.some.injEq] at h
          subst h
          exact hstart _ _ _ (by simp)
  | run t e =>
      simp only [next, Option.map_eq_some_iff] at h
      obtain ⟨c, hc, rfl⟩ := h
      apply Config.stepThread_prog_of_ne hc
      rintro rfl
      exact hl e rfl
  | tick d =>
      simp only [next, Option.some.injEq] at h
      subst h
      rfl
  | signal =>
      simp only [next, Option.some.injEq] at h
      subst h
      rfl

/-- Every step is a turn. -/
theorem Looping.next (hl : m.Looping v) (hm : Reachable anyStep m) {l : Label}
    (h : m.next l = some m') : Turn m.globals v m'.globals (v.observe m l m') ∧
      m'.Looping (v.observe m l m') := by
  -- a step of neither the main thread nor the broadcaster leaves the queue and the log alone
  have hquiet : (∀ e, l ≠ .run .main e) → (∀ e, l ≠ .run .broadcaster e) →
      v.observe m l m' = v ∧ Turn m.globals v m'.globals v := by
    intro hmain hbroad
    obtain ⟨⟨added, hq, hnone⟩, hflag⟩ := queue_of_other hm h hbroad
    rw [hnone hmain, List.append_nil] at hq
    have hobs : v.observe m l m' = v := by
      cases l with
      | run t e =>
          cases t with
          | main => exact absurd rfl (hmain e)
          | broadcaster => exact absurd rfl (hbroad e)
          | cleanup n => rfl
      | _ => rfl
    refine ⟨hobs, ?_⟩
    by_cases hsig : l = .signal
    · rw [hsig] at h
      simp only [Machine.next, Option.some.injEq] at h
      subst h
      exact .signal rfl rfl
    · have hadds := Turn.adds (v := v) [] (by rw [hq, List.append_nil]) (hflag hsig)
      simpa using hadds
  by_cases hbroad : ∀ e, l ≠ .run .broadcaster e
  · by_cases hmain : ∀ e, l ≠ .run .main e
    · obtain ⟨hobs, hturn⟩ := hquiet hmain hbroad
      rw [hobs]
      refine ⟨hturn, ?_⟩
      by_cases hr : l = .round
      · rw [hr] at h
        simp only [Machine.next, Option.ite_none_right_eq_some, Option.some.injEq] at h
        obtain ⟨hd, rfl⟩ := h
        cases hl with
        | out hs => exact .out hs
        | inside hd' H hh =>
            rw [hd] at hd'
            exact absurd hd' (by decide)
        | between _ hs =>
            have hprog : (m.config.start .broadcaster broadcastRound).prog .broadcaster =
                broadcastRound := by simp [Config.start]
            refine .inside (by rw [hprog]; rfl) [] ?_
            rw [hprog]
            exact Prog.honours_mono (fun _ _ _ _ hq => hq.2) _ _ _ _ (triple_round _ _ hs)
      · exact hl.other (broadcaster_of_other h hr hbroad) rfl
    · -- the main thread may push; the log takes it up until the shutdown is requested
      simp only [ne_eq, not_forall, not_not] at hmain
      obtain ⟨e, rfl⟩ := hmain
      obtain ⟨⟨added, hq, -⟩, hflag⟩ := queue_of_other hm h hbroad
      have hobs : v.observe m (.run .main e) m' = { v with
          pushed := if m.globals.shutdownRequested then v.pushed else v.pushed ++ added } := by
        rw [BroadcastLog.observe, hq, List.drop_left]
        split
        · rfl
        · rfl
      rw [hobs]
      exact ⟨.adds added hq (hflag (by simp)), hl.other (broadcaster_of_other h (by simp) hbroad) rfl⟩
  · simp only [ne_eq, not_forall, not_not] at hbroad
    obtain ⟨e, rfl⟩ := hbroad
    by_cases hs : v.stage = .returned
    · rw [observe_out hs]
      exact ⟨.out hs (flag_of_broadcaster hm h), .out hs⟩
    · exact hl.broadcaster hs h

end Machine

/-! ## The account -/

/-- The messages that have been taken from the queue. -/
def BroadcastLog.taken (v : BroadcastLog) : List Message := v.processed ++ v.inHand.toList

theorem BroadcastLog.taken_endRound (v : BroadcastLog) : v.endRound.taken = v.taken := by
  simp [BroadcastLog.taken, BroadcastLog.endRound]

theorem BroadcastLog.taken_act {s : Globals} {v : BroadcastLog} (h : v.stage ≠ .handling → v.inHand = none) :
    (v.act s).taken = if v.stage = .taking then v.taken ++ s.messageQueue.head?.toList
      else v.taken := by
  by_cases hs : v.stage = .taking
  · rw [if_pos hs, BroadcastLog.taken, BroadcastLog.taken, h (by rw [hs]; decide)]
    simp [BroadcastLog.act, hs]
  · rw [if_neg hs, BroadcastLog.taken, BroadcastLog.taken]
    simp [BroadcastLog.act, hs]

/-- What holds along every run: only a broadcaster that handles a message has one in hand, it leaves
its loop only when the flag is set, and until then every message pushed has been taken or is in the
queue. -/
structure QueueAccounted (s : Globals) (v : BroadcastLog) : Prop where
  hand : v.stage ≠ .handling → v.inHand = none
  ended : v.stage = .returned → s.shutdownRequested = true
  account : s.shutdownRequested = false → v.pushed = v.taken ++ s.messageQueue

theorem hand_act {s : Globals} {v : BroadcastLog} (h : v.stage ≠ .handling → v.inHand = none) :
    (v.act s).stage ≠ .handling → (v.act s).inHand = none := by
  intro hs
  have hstage : (v.act s).stage = v.stage.advance s := rfl
  have hne : v.stage ≠ .taking ∧ v.stage ≠ .handling := by
    constructor
    · intro h'
      rw [hstage, h'] at hs
      exact hs rfl
    · intro h'
      rw [hstage, h'] at hs
      exact hs rfl
  have hinHand : (v.act s).inHand = v.inHand := if_neg hne.1
  rw [hinHand]
  exact h hne.2

theorem returned_act {s : Globals} {v : BroadcastLog} (hs : v.stage ≠ .returned)
    (h : (v.act s).stage = .returned) : s.shutdownRequested = true := by
  have hstage : v.stage.advance s = .returned := h
  cases hv : v.stage with
  | testing =>
      rw [hv, Stage.advance] at hstage
      by_contra hf
      rw [if_neg hf] at hstage
      exact absurd hstage (by decide)
  | waiting => rw [hv] at hstage; exact absurd hstage (by simp [Stage.advance])
  | taking => rw [hv] at hstage; exact absurd hstage (by simp [Stage.advance])
  | handling => rw [hv] at hstage; exact absurd hstage (by simp [Stage.advance])
  | returned => exact absurd hv hs

theorem returned_endRound {v : BroadcastLog} : v.endRound.stage = .returned ↔ v.stage = .returned := by
  rw [BroadcastLog.endRound]
  by_cases h : v.stage = .returned
  · simp [h]
  · simp [h]

theorem taken_queue {s s' : Globals} {v : BroadcastLog} (h : v.stage ≠ .handling → v.inHand = none)
    (hq : s'.messageQueue = if v.stage = .taking then s.messageQueue.tail else s.messageQueue) :
    (v.act s).taken ++ s'.messageQueue = v.taken ++ s.messageQueue := by
  rw [BroadcastLog.taken_act h, hq]
  by_cases hs : v.stage = .taking
  · rw [if_pos hs, if_pos hs, List.append_assoc]
    cases s.messageQueue with
    | nil => rfl
    | cons message rest => rfl
  · rw [if_neg hs, if_neg hs]

theorem QueueAccounted.act {s s' : Globals} {v : BroadcastLog} (h : QueueAccounted s v)
    (hs : v.stage ≠ .returned)
    (hq : s'.messageQueue = if v.stage = .taking then s.messageQueue.tail else s.messageQueue)
    (hf : s'.shutdownRequested = s.shutdownRequested) : QueueAccounted s' (v.act s) := by
  refine ⟨hand_act h.hand, fun hr => hf.trans (returned_act hs hr), fun hflag => ?_⟩
  rw [taken_queue h.hand hq]
  exact h.account (hf ▸ hflag)

theorem QueueAccounted.endRound {s : Globals} {v : BroadcastLog} (h : QueueAccounted s v) :
    QueueAccounted s v.endRound := by
  refine ⟨fun _ => rfl, fun hr => h.ended (returned_endRound.1 hr), fun hflag => ?_⟩
  rw [BroadcastLog.taken_endRound]
  exact h.account hflag

/-- The queue and the flag are as before. -/
theorem QueueAccounted.congr {s s' : Globals} {v : BroadcastLog} (h : QueueAccounted s v)
    (hq : s'.messageQueue = s.messageQueue) (hf : s'.shutdownRequested = s.shutdownRequested) :
    QueueAccounted s' v := by
  refine ⟨h.hand, fun hs => hf.trans (h.ended hs), fun hflag => ?_⟩
  rw [hq]
  exact h.account (hf ▸ hflag)

theorem QueueAccounted.turn {s s' : Globals} {v v' : BroadcastLog} (h : QueueAccounted s v)
    (ht : Turn s v s' v') :
    QueueAccounted s' v' := by
  cases ht with
  | adds added hq hf =>
      refine ⟨h.hand, fun hs => hf.trans (h.ended hs), fun hflag => ?_⟩
      rw [hf] at hflag
      have hkept : BroadcastLog.taken { v with
          pushed := if s.shutdownRequested then v.pushed else v.pushed ++ added } = v.taken := rfl
      rw [hkept, hq, ← List.append_assoc, ← h.account hflag]
      simp [hflag]
  | signal hq hf => exact ⟨h.hand, fun _ => hf, fun hflag => by simp [hf] at hflag⟩
  | out hs hf =>
      refine ⟨h.hand, fun hs => hf.trans (h.ended hs), fun hflag => ?_⟩
      rw [hf, h.ended hs] at hflag
      exact absurd hflag (by decide)
  | rests hs hq hf => exact h.congr hq hf
  | ends hs hq hf => exact (h.congr hq hf).endRound
  | acts hs hq hf => exact h.act hs hq hf
  | actsLast hs hq hf _ => exact (h.act hs hq hf).endRound

/-- The round in progress will still take a message. -/
def Stage.WillTake (stage : Stage) : Prop := stage = .waiting ∨ stage = .taking

instance (stage : Stage) : Decidable stage.WillTake := inferInstanceAs (Decidable (_ ∨ _))

/-- What holds once the flag is set, compared with the globals `s₀` and the log `v₀` of that moment:
until the round in progress has taken a message nothing has been taken, and no round follows it. -/
structure Closing (s₀ : Globals) (v₀ : BroadcastLog) (s : Globals) (v : BroadcastLog) : Prop where
  hand : v.stage ≠ .handling → v.inHand = none
  flag : s.shutdownRequested = true
  account : v.stage ≠ .returned →
    ∃ later, v.taken ++ s.messageQueue = v₀.taken ++ s₀.messageQueue ++ later
  order : ∃ rest later, v.taken ++ rest = v₀.taken ++ s₀.messageQueue ++ later
  before : v.stage.WillTake → v₀.stage.WillTake ∧ v.taken.length = v₀.taken.length
  after : ¬v.stage.WillTake →
    (¬v₀.stage.WillTake → v.taken.length = v₀.taken.length) ∧
    (v₀.stage.WillTake → v₀.taken.length ≤ v.taken.length ∧
      v.taken.length ≤ v₀.taken.length + 1 ∧
      (s₀.messageQueue ≠ [] → v.taken.length = v₀.taken.length + 1))

section Closing

variable {s₀ s s' : Globals} {v₀ v v' : BroadcastLog}

/-- A message is taken, when there is one. -/
theorem Closing.take (h : Closing s₀ v₀ s v) (hs : v.stage = .taking) :
    v₀.taken.length ≤ (v.taken ++ s.messageQueue.head?.toList).length ∧
      (v.taken ++ s.messageQueue.head?.toList).length ≤ v₀.taken.length + 1 ∧
      (s₀.messageQueue ≠ [] →
        (v.taken ++ s.messageQueue.head?.toList).length = v₀.taken.length + 1) := by
  obtain ⟨-, hlen⟩ := h.before (Or.inr hs)
  obtain ⟨later, haccount⟩ := h.account (by rw [hs]; decide)
  have hqueue := congrArg List.length haccount
  simp only [List.length_append] at hqueue ⊢
  cases hq : s.messageQueue with
  | nil =>
      rw [hq] at hqueue
      have hnone : s₀.messageQueue = [] := by
        rw [← List.length_eq_zero_iff]
        simp only [List.length_nil] at hqueue
        omega
      refine ⟨by simp; omega, by simp; omega, fun hne => absurd hnone hne⟩
  | cons message rest =>
      simp only [List.head?_cons, Option.toList_some, List.length_singleton]
      exact ⟨by omega, by omega, fun _ => by omega⟩

theorem Closing.act (h : Closing s₀ v₀ s v) (hs : v.stage ≠ .returned)
    (hq : s'.messageQueue = if v.stage = .taking then s.messageQueue.tail else s.messageQueue)
    (hf : s'.shutdownRequested = s.shutdownRequested) : Closing s₀ v₀ s' (v.act s) := by
  have hqueue := taken_queue h.hand hq
  obtain ⟨later, haccount⟩ := h.account hs
  have hlater : (v.act s).taken ++ s'.messageQueue = v₀.taken ++ s₀.messageQueue ++ later := by
    rw [hqueue, haccount]
  have hstage : (v.act s).stage = v.stage.advance s := rfl
  have hkept : v.stage ≠ .taking → (v.act s).taken = v.taken := by
    intro hne
    rw [BroadcastLog.taken_act h.hand, if_neg hne]
  refine ⟨hand_act h.hand, hf.trans h.flag, fun _ => ⟨later, hlater⟩, ⟨_, later, hlater⟩, ?_, ?_⟩
  · -- the round goes on to take a message
    intro hwill
    rw [hstage] at hwill
    cases hv : v.stage with
    | testing => simp [hv, Stage.advance, h.flag, Stage.WillTake] at hwill
    | waiting =>
        rw [hkept (by rw [hv]; decide)]
        exact h.before (Or.inl hv)
    | taking => simp [hv, Stage.advance, Stage.WillTake] at hwill
    | handling => simp [hv, Stage.advance, Stage.WillTake] at hwill
    | returned => exact absurd hv hs
  · intro hwill
    rw [hstage] at hwill
    cases hv : v.stage with
    | testing =>
        rw [hkept (by rw [hv]; decide)]
        exact h.after (by rw [hv]; decide)
    | waiting => exact absurd (Or.inr (by rw [hv]; rfl)) hwill
    | taking =>
        rw [BroadcastLog.taken_act h.hand, if_pos hv]
        exact ⟨fun hne => absurd (h.before (Or.inr hv)).1 hne, fun _ => h.take hv⟩
    | handling =>
        rw [hkept (by rw [hv]; decide)]
        exact h.after (by rw [hv]; decide)
    | returned => exact absurd hv hs

theorem Closing.endRound (h : Closing s₀ v₀ s v) (hs : v.stage = .returned ∨ v.stage = .handling) :
    Closing s₀ v₀ s v.endRound := by
  have hwill : ¬v.stage.WillTake := by
    rcases hs with hs | hs
    · rw [hs]
      decide
    · rw [hs]
      decide
  refine ⟨fun _ => rfl, h.flag, fun hr => ?_, ?_, fun hend => ?_, fun _ => ?_⟩
  · rw [BroadcastLog.taken_endRound]
    exact h.account fun hr' => hr (returned_endRound.2 hr')
  · rw [BroadcastLog.taken_endRound]
    exact h.order
  · rw [BroadcastLog.endRound] at hend
    by_cases hr : v.stage = .returned
    · simp [hr, Stage.WillTake] at hend
    · simp [hr, Stage.WillTake] at hend
  · rw [BroadcastLog.taken_endRound]
    exact h.after hwill

/-- The queue is as before, and the flag is set. -/
theorem Closing.congr (h : Closing s₀ v₀ s v) (hq : s'.messageQueue = s.messageQueue)
    (hf : s'.shutdownRequested = true) : Closing s₀ v₀ s' v := by
  refine ⟨h.hand, hf, fun hs => ?_, h.order, h.before, h.after⟩
  rw [hq]
  exact h.account hs

theorem Closing.turn (h : Closing s₀ v₀ s v) (ht : Turn s v s' v') : Closing s₀ v₀ s' v' := by
  cases ht with
  | adds added hq hf =>
      refine ⟨h.hand, hf.trans h.flag, fun hs => ?_, h.order, h.before, h.after⟩
      obtain ⟨later, haccount⟩ := h.account hs
      refine ⟨later ++ added, ?_⟩
      have hkept : BroadcastLog.taken { v with
          pushed := if s.shutdownRequested then v.pushed else v.pushed ++ added } = v.taken := rfl
      rw [hkept, hq, ← List.append_assoc, haccount, List.append_assoc]
  | signal hq hf => exact h.congr hq hf
  | out hs hf =>
      exact ⟨h.hand, hf.trans h.flag, fun hne => absurd hs hne, h.order, h.before, h.after⟩
  | rests hs hq hf => exact h.congr hq (hf.trans h.flag)
  | ends hs hq hf => exact (h.congr hq (hf.trans h.flag)).endRound (Or.inr hs)
  | acts hs hq hf => exact h.act hs hq hf
  | actsLast hs hq hf hl => exact (h.act hs hq hf).endRound hl

/-- The flag has just been set. -/
theorem closing_of_queueAccounted (h : QueueAccounted s₀ v₀) (hq : s.messageQueue = s₀.messageQueue)
    (hf : s.shutdownRequested = true) : Closing s₀ v₀ s v₀ := by
  refine ⟨h.hand, hf, fun _ => ⟨[], ?_⟩, ⟨s₀.messageQueue, [], ?_⟩, fun hw => ⟨hw, rfl⟩,
    fun hw => ⟨fun _ => rfl, fun hw' => absurd hw' hw⟩⟩
  · rw [hq, List.append_nil]
  · rw [List.append_nil]

/-- When the flag is set nothing is queued, or a single message that the round in progress will still
take. -/
def CanDrain (s : Globals) (stage : Stage) : Prop :=
  s.messageQueue = [] ∨ s.messageQueue.length = 1 ∧ stage.WillTake

instance (s : Globals) (stage : Stage) : Decidable (CanDrain s stage) :=
  inferInstanceAs (Decidable (_ ∨ _))

/-- What has been processed when the broadcaster has left its loop. -/
theorem Closing.sends_all_iff (h : Closing s₀ v₀ s v) (hpushed : v₀.pushed = v₀.taken ++ s₀.messageQueue)
    (hr : v.stage = .returned) : v₀.pushed <+: v.processed ↔ CanDrain s₀ v₀.stage := by
  have hprocessed : v.taken = v.processed := by
    rw [BroadcastLog.taken, h.hand (by rw [hr]; decide)]
    exact List.append_nil _
  obtain ⟨rest, later, horder⟩ := h.order
  rw [← hpushed, hprocessed] at horder
  obtain ⟨hidle, hround⟩ := h.after (by rw [hr]; decide)
  rw [hprocessed] at hidle hround
  have hlen : v₀.pushed.length = v₀.taken.length + s₀.messageQueue.length := by
    rw [hpushed, List.length_append]
  have hinitial : v₀.pushed <+: v.processed ↔ v₀.pushed.length ≤ v.processed.length := by
    constructor
    · exact List.IsPrefix.length_le
    · refine List.prefix_of_prefix_length_le (List.prefix_append _ later) ?_
      rw [← horder]
      exact List.prefix_append _ _
  rw [hinitial, hlen, CanDrain]
  by_cases hnone : s₀.messageQueue = []
  · rw [hnone]
    refine iff_of_true ?_ (Or.inl rfl)
    by_cases hw : v₀.stage.WillTake
    · exact (hround hw).1
    · exact (hidle hw).ge
  · have hpos : 0 < s₀.messageQueue.length := List.length_pos_iff.2 hnone
    by_cases hw : v₀.stage.WillTake
    · rw [(hround hw).2.2 hnone]
      simp only [hnone, hw, false_or, and_true]
      omega
    · rw [hidle hw]
      simp only [hnone, hw, false_or, and_false, iff_false]
      omega

end Closing

namespace Machine

variable {db : Database} {listenSocket : SOCKET} {m m' : Machine} {v v' : BroadcastLog}

/-- A run with the log is a run. -/
theorem reachable_of_broadcastLog {p p' : Machine × BroadcastLog} (hp : Reachable anyStep p.1)
    (h : Relation.ReflTransGen BroadcastLogStep p p') : Reachable anyStep p'.1 := by
  obtain ⟨db, listenSocket, hrun⟩ := hp
  refine ⟨db, listenSocket, hrun.trans (h.lift Prod.fst ?_)⟩
  rintro q q' ⟨l, hnext, -⟩
  exact ⟨l, trivial, hnext⟩

/-- What every turn keeps holds along a run with the log. -/
theorem turns_keep {P : Globals → BroadcastLog → Prop}
    (hP : ∀ s v s' v', P s v → Turn s v s' v' → P s' v') {p p' : Machine × BroadcastLog}
    (hp : Reachable anyStep p.1) (hl : p.1.Looping p.2) (h : P p.1.globals p.2)
    (hrun : Relation.ReflTransGen BroadcastLogStep p p') : p'.1.Looping p'.2 ∧ P p'.1.globals p'.2 := by
  induction hrun with
  | refl => exact ⟨hl, h⟩
  | @tail q q' hrun hstep ih =>
      obtain ⟨l, hnext, hv⟩ := hstep
      obtain ⟨hturn, hl'⟩ := ih.1.next (reachable_of_broadcastLog hp hrun) hnext
      rw [hv]
      exact ⟨hl', hP _ _ _ _ ih.2 hturn⟩

/-- Take the steps of a list one after the other; those that cannot occur are skipped. -/
def takeSteps : Machine × BroadcastLog → List Label → Machine × BroadcastLog
  | p, [] => p
  | p, l :: ls =>
      match p.1.next l with
      | some m' => takeSteps (m', p.2.observe p.1 l m') ls
      | none => takeSteps p ls

theorem takeSteps_steps : ∀ (ls : List Label) (p : Machine × BroadcastLog),
    Relation.ReflTransGen BroadcastLogStep p (takeSteps p ls)
  | [], _ => .refl
  | l :: ls, p => by
      rw [takeSteps]
      cases hl : p.1.next l with
      | some m' => exact Relation.ReflTransGen.head ⟨l, hl, rfl⟩ (takeSteps_steps ls _)
      | none => exact takeSteps_steps ls p

/-- When the broadcaster returns, what was pushed before the flag was set has been taken and processed
exactly when at that moment nothing was queued, or one message that the round in progress would still
take. -/
theorem drained_iff (h : Logged db listenSocket m v) (hflag : m.globals.shutdownRequested = false)
    (m₁ : Machine) (hsignal : m.next .signal = some m₁)
    (hrun : Relation.ReflTransGen BroadcastLogStep (m₁, v) (m', v')) (hret : v'.stage = .returned) :
    v.pushed <+: v'.processed ↔ CanDrain m.globals v.stage := by
  have hboot : Reachable anyStep (boot db listenSocket) := ⟨db, listenSocket, .refl⟩
  obtain ⟨hl, haccounted⟩ := turns_keep (P := QueueAccounted) (fun _ _ _ _ h ht => h.turn ht) hboot
    (.between rfl rfl) ⟨fun _ => rfl, fun hs => (by cases hs), fun _ => rfl⟩ h
  have hreach : Reachable anyStep m := reachable_of_broadcastLog hboot h
  have hsig := hsignal
  simp only [next, Option.some.injEq] at hsig
  have hclosing : Closing m.globals v m₁.globals v := by
    rw [← hsig]
    exact closing_of_queueAccounted haccounted rfl rfl
  have hl₁ : m₁.Looping v := (hl.next hreach hsignal).2
  have hreach₁ : Reachable anyStep m₁ := by
    obtain ⟨db, listenSocket, hrun⟩ := hreach
    exact ⟨db, listenSocket, hrun.tail ⟨_, trivial, hsignal⟩⟩
  obtain ⟨-, hend⟩ := turns_keep (P := Closing m.globals v) (fun _ _ _ _ h ht => h.turn ht) hreach₁
    hl₁ hclosing hrun
  exact hend.sends_all_iff (haccounted.account hflag) hret

/-- A run of the steps `ls`, the signal, and the steps `ls'`. -/
theorem logged_of_signal (ls ls' : List Label) (p : Globals → BroadcastLog → BroadcastLog → Bool)
    (h : (let q := takeSteps (boot {} 3, {}) ls
      (q.1.next .signal).any fun m₁ => p q.1.globals q.2 (takeSteps (m₁, q.2) ls').2) = true) :
    ∃ m v m₁ m' v', Logged {} 3 m v ∧ m.next .signal = some m₁ ∧
      Relation.ReflTransGen BroadcastLogStep (m₁, v) (m', v') ∧ p m.globals v v' = true := by
  obtain ⟨m₁, h₁, hp⟩ := (Option.any_eq_true _ _).1 h
  exact ⟨_, _, m₁, _, _, takeSteps_steps ls _, h₁, takeSteps_steps ls' _, hp⟩

/-- A client creates a room and says hello. -/
def hello : List Label := serving (.connect 4) 0 ++ serving (.receive 4 (str "/CREATE PUBLIC")) 7 ++
  serving (.receive 4 (str "hello")) 0

/-- The signal comes while the round that will take the message is under way. -/
theorem drained_iff_hello : ∃ m v m₁ m' v', Logged {} 3 m v ∧ m.next .signal = some m₁ ∧
    Relation.ReflTransGen BroadcastLogStep (m₁, v) (m', v') ∧ v.pushed.length = 1 ∧
      v'.stage = .returned ∧ v.pushed <+: v'.processed := by
  obtain ⟨m, v, m₁, m', v', h, hsignal, hrun, hp⟩ := logged_of_signal
    (hello ++ [.round, .run .broadcaster (.midnight 0)]) (delivering ++ delivering)
    (fun s v v' => decide (s.shutdownRequested = false ∧ v.pushed.length = 1 ∧
      v'.stage = .returned ∧ CanDrain s v.stage)) (by decide +kernel)
  obtain ⟨hflag, hpushed, hret, hdrain⟩ := of_decide_eq_true hp
  exact ⟨m, v, m₁, m', v', h, hsignal, hrun, hpushed, hret,
    (drained_iff h hflag m₁ hsignal hrun hret).2 hdrain⟩

/-- The signal comes between two rounds, and the message stays in the queue. -/
theorem not_drained : ¬∀ (m m₁ m' : Machine) (v v' : BroadcastLog), Logged {} 3 m v →
    m.globals.shutdownRequested = false → m.next .signal = some m₁ →
      Relation.ReflTransGen BroadcastLogStep (m₁, v) (m', v') → v'.stage = .returned →
        v.pushed <+: v'.processed := by
  intro hall
  obtain ⟨m, v, m₁, m', v', h, hsignal, hrun, hp⟩ := logged_of_signal hello delivering
    (fun s v v' => decide (s.shutdownRequested = false ∧ v.pushed.length = 1 ∧
      v'.stage = .returned ∧ v'.processed = [])) (by decide +kernel)
  obtain ⟨hflag, hpushed, hret, hnone⟩ := of_decide_eq_true hp
  have hdrained := hall m m₁ m' v v' h hflag hsignal hrun hret
  rw [hnone, List.prefix_nil] at hdrained
  rw [hdrained] at hpushed
  exact absurd hpushed (by decide)

end Machine

end TerminalChat.Server
