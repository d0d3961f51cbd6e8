import Mathlib
import TerminalChat.Concurrency.Termination
import TerminalChat.Server.Deadlock
import TerminalChat.Server.Lifecycle
import TerminalChat.Server.Shutdown

/-!
# The server comes to rest

Without new events the server works off what it has: its threads go on, sleeping cleanup threads wake
up, and the broadcaster starts a round for a queued message. However a run goes on
without events, it takes finitely many such steps, and where none is possible the threads are finished, no
cleanup is pending and the queue has been served (`Machine.comes_to_rest`).
-/

set_option autoImplicit false

namespace TerminalChat.Server

open TerminalChat.Concurrency TerminalChat.Text

/-- The step brings no work from outside: the clock goes on, or the shutdown signal arrives. -/
def Label.Outer : Label → Prop
  | .tick _ => True
  | .signal => True
  | _ => False

namespace Machine

variable {m m' : Machine} {v : BroadcastLog} {db : Database} {listenSocket : SOCKET}

/-- A step that brings nothing new: a thread goes on, a cleanup thread wakes up, or the broadcaster
starts a round for a queued message. -/
def Settling (m : Machine) : Label → Prop
  | .run _ _ => True
  | .wake _ => True
  | .round => m.globals.shutdownRequested = false ∧ m.globals.messageQueue ≠ []
  | _ => False

/-- Nothing is left to do. -/
structure AtRest (m : Machine) : Prop where
  finished : m.config.Finished
  swept : m.globals.pendingCleanups = []
  served : m.globals.shutdownRequested = true ∨ m.globals.messageQueue = []

/-- The round in progress has not yet taken its message. -/
def Owes (m : Machine) (v : BroadcastLog) : Prop :=
  v.stage.WillTake ∨ v.stage = .testing ∧ (m.config.prog .broadcaster).isDone = false

instance (m : Machine) (v : BroadcastLog) : Decidable (m.Owes v) := inferInstanceAs (Decidable (_ ∨ _))

/-- How many more rounds the queued messages can start. -/
def roundsLeft (m : Machine) (v : BroadcastLog) : Nat :=
  if m.globals.shutdownRequested then 0
  else m.globals.messageQueue.length - if m.Owes v then 1 else 0

/-- The threads other than the main thread that may be running. -/
def helpers (m : Machine) : Finset Tid :=
  insert .broadcaster ((Finset.range m.woken).image .cleanup)

/-- What is left to do. A step of the main thread may add to everything after the first entry, a
cleanup thread that wakes up to everything after the second. -/
def rank (m : Machine) (v : BroadcastLog) : Thread Unit × Nat × Nat × Multiset (Thread Unit) :=
  (m.config.prog .main, m.globals.pendingCleanups.length, m.roundsLeft v, m.config.tasks m.helpers)

/-- The order in which the rank goes down. -/
def Below : Thread Unit × Nat × Nat × Multiset (Thread Unit) →
    Thread Unit × Nat × Nat × Multiset (Thread Unit) → Prop :=
  Prod.Lex Prog.Next (Prod.Lex (· < ·) (Prod.Lex (· < ·) (Relation.CutExpand Prog.Next)))

theorem wellFounded_below : WellFounded Below :=
  WellFounded.prod_lex Prog.wellFounded_next (WellFounded.prod_lex wellFounded_lt
    (WellFounded.prod_lex wellFounded_lt Prog.wellFounded_next.cutExpand))

/-! ## What the helpers leave alone -/

/-- Only the main thread and the threads that have woken up take steps. -/
theorem mem_helpers (hm : m.Asleep) {t : Tid} (ht : t ≠ .main) {e : Env}
    (h : m.next (.run t e) = some m') : t ∈ m.helpers := by
  cases t with
  | main => exact absurd rfl ht
  | broadcaster => simp [helpers]
  | cleanup n =>
      by_contra hn
      have hle : m.woken ≤ n := by simpa [helpers] using hn
      simp [next, Config.stepThread_of_done (hm n hle)] at h

theorem helpers_of_run {t : Tid} {e : Env} (h : m.next (.run t e) = some m') :
    m'.helpers = m.helpers := by
  simp only [next, Option.map_eq_some_iff] at h
  obtain ⟨c, -, rfl⟩ := h
  rfl

/-- Only handlers put cleanup threads to sleep. -/
theorem pendingCleanups_of_helper (hm : Reachable anyStep m) {t : Tid} (ht : t ≠ .main) {e : Env}
    (h : m.next (.run t e) = some m') : m'.globals.pendingCleanups = m.globals.pendingCleanups := by
  obtain ⟨note, hh⟩ := exists_honoured hm
  obtain ⟨note', -, hstride⟩ := hh.next hm h
  cases hstride with
  | rest hn hs hl => rw [globals_of_not_act (hl _ _ rfl) h]
  | act H g' hn hact hg =>
      cases t with
      | main => exact absurd rfl ht
      | broadcaster =>
          obtain ⟨-, -, hpending⟩ := (BroadcastDeed.acts hg).frame
          exact hpending
      | cleanup n =>
          obtain ⟨roomId, hs⟩ := CleanupDeed.sweeps hg
          rw [hs, Effect.apply]
          split
          · rfl
          · rfl

/-! ## The rounds that are left -/

theorem roundsLeft_of_flag (h : m.globals.shutdownRequested = true) : m.roundsLeft v = 0 := by
  rw [roundsLeft, if_pos h]

/-- What the number of rounds that are left depends on. -/
theorem roundsLeft_congr {v' : BroadcastLog}
    (hflag : m'.globals.shutdownRequested = m.globals.shutdownRequested)
    (hcount : m'.globals.messageQueue.length - (if m'.Owes v' then 1 else 0) =
      m.globals.messageQueue.length - (if m.Owes v then 1 else 0)) :
    m'.roundsLeft v' = m.roundsLeft v := by
  rw [roundsLeft, roundsLeft, hflag, hcount]

/-- A round in progress pays for the message it takes. -/
theorem roundsLeft_of_broadcaster (hm : Reachable anyStep m) (hl : m.Looping v)
    (ht : QueueAccounted m.globals v) {e : Env} (h : m.next (.run .broadcaster e) = some m') :
    m'.roundsLeft (v.observe m (.run .broadcaster e) m') = m.roundsLeft v := by
  have hflag := flag_of_broadcaster hm h
  by_cases hset : m.globals.shutdownRequested = true
  · rw [roundsLeft_of_flag hset, roundsLeft_of_flag (hflag.trans hset)]
  have hs : v.stage ≠ .returned := fun hs => hset (ht.ended hs)
  simp only [next, Option.map_eq_some_iff] at h
  obtain ⟨c, hc, rfl⟩ := h
  cases hl with
  | out hout => exact absurd hout hs
  | between hd _ =>
      rw [Config.stepThread_of_done hd] at hc
      cases hc
  | inside hd H hh =>
      apply roundsLeft_congr hflag
      rcases Config.honours_stepThread hc hh with ⟨hsame, hact, H', hh'⟩ | ⟨hact, g', hg, hh'⟩
      · -- a mutex is taken or released; the round may end here, but only after the delivery
        have hqueue : c.shared.messageQueue = m.globals.messageQueue := by
          rw [hsame]
          rfl
        by_cases hdone : (c.prog .broadcaster).isDone = true
        · have hstage := (stage_of_done hdone hh').resolve_left hs
          simp [Owes, BroadcastLog.observe, hact, hdone, hstage, BroadcastLog.endRound, Stage.WillTake,
            globals, hqueue]
        · simp [Owes, BroadcastLog.observe, hact, hdone, hs, hd, globals, hqueue]
      · obtain ⟨rfl, hqueue, -⟩ := hg
        have hend : (c.prog .broadcaster).isDone = true →
            v.stage.advance m.config.shared = .returned ∨ v.stage.advance m.config.shared = .handling :=
          fun hdone => stage_of_done hdone hh'
        have hfalse : m.config.shared.shutdownRequested = false := by simpa [globals] using hset
        cases hstage : v.stage with
        | returned => exact absurd hstage hs
        | testing =>
            rw [hstage] at hqueue hend
            have hdone : (c.prog .broadcaster).isDone = false := by
              by_contra hdone
              simpa [Stage.advance, hfalse] using hend (by simpa using hdone)
            simp [Owes, BroadcastLog.observe, BroadcastLog.act, hact, hdone, hstage, hd, Stage.advance,
              Stage.WillTake, globals, hqueue, hfalse]
        | waiting =>
            rw [hstage] at hqueue hend
            have hdone : (c.prog .broadcaster).isDone = false := by
              by_contra hdone
              simpa [Stage.advance] using hend (by simpa using hdone)
            simp [Owes, BroadcastLog.observe, BroadcastLog.act, hact, hdone, hstage, Stage.advance,
              Stage.WillTake, globals, hqueue]
        | taking =>
            -- here the message leaves the queue
            rw [hstage] at hqueue
            by_cases hdone : (c.prog .broadcaster).isDone = true
            · simp [Owes, BroadcastLog.observe, BroadcastLog.act, BroadcastLog.endRound, hact, hdone, hstage,
                Stage.advance, Stage.WillTake, globals, hqueue]
            · simp [Owes, BroadcastLog.observe, BroadcastLog.act, hact, hdone, hstage, Stage.advance,
                Stage.WillTake, globals, hqueue]
        | handling =>
            rw [hstage] at hqueue
            by_cases hdone : (c.prog .broadcaster).isDone = true
            · simp [Owes, BroadcastLog.observe, BroadcastLog.act, BroadcastLog.endRound, hact, hdone, hstage,
                Stage.advance, Stage.WillTake, globals, hqueue]
            · simp [Owes, BroadcastLog.observe, BroadcastLog.act, hact, hdone, hstage, Stage.advance,
                Stage.WillTake, globals, hqueue]

theorem stage_observe {n : Nat} {e : Env} : v.observe m (.run (.cleanup n) e) m' = v := rfl

theorem roundsLeft_of_cleanup (hm : Reachable anyStep m) {n : Nat} {e : Env}
    (h : m.next (.run (.cleanup n) e) = some m') :
    m'.roundsLeft (v.observe m (.run (.cleanup n) e) m') = m.roundsLeft v := by
  obtain ⟨⟨added, hq, hnone⟩, hflag⟩ := queue_of_other hm h (by simp)
  rw [hnone (by simp), List.append_nil] at hq
  have hprog := broadcaster_of_other h (by simp) (by simp)
  apply roundsLeft_congr (hflag (by simp))
  have howes : m'.Owes v ↔ m.Owes v := by simp only [Owes, hprog]
  simp only [hq, stage_observe, howes]

/-- A round that is started pays in advance. -/
theorem roundsLeft_of_round (hl : m.Looping v) (ht : QueueAccounted m.globals v)
    (hsettling : Settling m .round) (h : m.next .round = some m') :
    m'.roundsLeft (v.observe m .round m') < m.roundsLeft v := by
  obtain ⟨hflag, hqueue⟩ := hsettling
  simp only [next, Option.ite_none_right_eq_some, Option.some.injEq] at h
  obtain ⟨hd, rfl⟩ := h
  have hstage : v.stage = .testing := by
    cases hl with
    | out hs => exact absurd (ht.ended hs) (by simp [hflag])
    | between _ hs => exact hs
    | inside hd' H hh => exact absurd hd (by simp [hd'])
  have hbefore : m.roundsLeft v = m.globals.messageQueue.length := by
    simp [roundsLeft, Owes, hflag, hstage, hd, Stage.WillTake]
  have hafter : roundsLeft { m with config := m.config.start .broadcaster broadcastRound } v =
      m.globals.messageQueue.length - 1 := by
    have hprog : (broadcastRound).isDone = false := rfl
    have hsame : globals { m with config := m.config.start .broadcaster broadcastRound } = m.globals :=
      rfl
    rw [roundsLeft, hsame, hflag]
    simp [Owes, hstage, hprog, Config.start]
  have hpos := List.length_pos_of_ne_nil hqueue
  show roundsLeft { m with config := m.config.start .broadcaster broadcastRound } v < m.roundsLeft v
  rw [hbefore, hafter]
  omega

/-! ## Every settling step goes down -/

theorem main_of_round (h : m.next .round = some m') :
    m'.config.prog .main = m.config.prog .main ∧
      m'.globals.pendingCleanups = m.globals.pendingCleanups := by
  simp only [next, Option.ite_none_right_eq_some, Option.some.injEq] at h
  obtain ⟨-, rfl⟩ := h
  exact ⟨by simp [Config.start], rfl⟩

theorem main_of_wake {i : Nat} (h : m.next (.wake i) = some m') :
    m'.config.prog .main = m.config.prog .main ∧
      m'.globals.pendingCleanups.length < m.globals.pendingCleanups.length := by
  simp only [next] at h
  cases hi : m.globals.pendingCleanups[i]? with
  | none => simp [hi] at h
  | some roomId =>
      simp only [hi, Option.some.injEq] at h
      subst h
      obtain ⟨hlt, -⟩ := List.getElem?_eq_some_iff.1 hi
      refine ⟨by simp [Config.start, Config.setShared], ?_⟩
      show (m.globals.pendingCleanups.eraseIdx i).length < m.globals.pendingCleanups.length
      rw [List.length_eraseIdx_of_lt hlt]
      omega

theorem below_settling (hm : Reachable anyStep m) (hl : m.Looping v) (ht : QueueAccounted m.globals v)
    {l : Label} (hsettling : m.Settling l) (h : m.next l = some m') :
    Below (m'.rank (v.observe m l m')) (m.rank v) := by
  have hsame : ∀ {p p' : Thread Unit × Nat × Nat × Multiset (Thread Unit)}, p'.1 = p.1 →
      Prod.Lex (· < ·) (Prod.Lex (· < ·) (Relation.CutExpand Prog.Next)) p'.2 p.2 → Below p' p := by
    rintro ⟨a, b⟩ ⟨a', b'⟩ rfl hb
    exact Prod.Lex.right _ hb
  cases l with
  | event ev => exact hsettling.elim
  | tick d => exact hsettling.elim
  | signal => exact hsettling.elim
  | round =>
      obtain ⟨hmain, hpending⟩ := main_of_round h
      apply hsame hmain
      rw [rank, rank, hpending]
      exact Prod.Lex.right _ (Prod.Lex.left _ _ (roundsLeft_of_round hl ht hsettling h))
  | wake i =>
      obtain ⟨hmain, hpending⟩ := main_of_wake h
      apply hsame hmain
      exact Prod.Lex.left _ _ hpending
  | run t e =>
      by_cases hmain : t = .main
      · subst hmain
        simp only [next, Option.map_eq_some_iff] at h
        obtain ⟨c, hc, rfl⟩ := h
        exact Prod.Lex.left _ _ (Config.next_stepThread hc)
      · have hhelper := mem_helpers (reachable_asleep hm) hmain h
        have hrounds : m'.roundsLeft (v.observe m (.run t e) m') = m.roundsLeft v := by
          cases t with
          | main => exact absurd rfl hmain
          | broadcaster => exact roundsLeft_of_broadcaster hm hl ht h
          | cleanup n => exact roundsLeft_of_cleanup hm h
        have hpending := pendingCleanups_of_helper hm hmain h
        have hhelpers := helpers_of_run h
        have hrank : m'.rank (v.observe m (.run t e) m') = (m'.config.prog .main,
            m.globals.pendingCleanups.length, m.roundsLeft v, m'.config.tasks m.helpers) := by
          rw [rank, hpending, hrounds, hhelpers]
        rw [hrank]
        simp only [next, Option.map_eq_some_iff] at h
        obtain ⟨c, hc, rfl⟩ := h
        apply hsame (Config.stepThread_prog_of_ne hc (Ne.symm hmain))
        exact Prod.Lex.right _ (Prod.Lex.right _ (Config.tasks_stepThread hhelper hc))

/-! ## Whole runs -/

/-- The log can be kept in every run. -/
theorem exists_logged {ok : Machine → Label → Prop}
    (hrun : Relation.ReflTransGen (Step ok) (boot db listenSocket) m) :
    ∃ v, Logged db listenSocket m v := by
  induction hrun with
  | refl => exact ⟨{}, .refl⟩
  | tail _ hstep ih =>
      obtain ⟨v, hv⟩ := ih
      obtain ⟨l, -, hnext⟩ := hstep
      exact ⟨v.observe _ l _, hv.tail ⟨l, hnext, rfl⟩⟩

theorem Logged.keeps (h : Logged db listenSocket m v) :
    Reachable anyStep m ∧ m.Looping v ∧ QueueAccounted m.globals v := by
  have hboot : Reachable anyStep (boot db listenSocket) := ⟨db, listenSocket, .refl⟩
  obtain ⟨hl, ht⟩ := turns_keep (P := QueueAccounted) (fun _ _ _ _ h ht => h.turn ht) hboot
    (.between rfl rfl) ⟨fun _ => rfl, fun hs => (by cases hs), fun _ => rfl⟩ h
  exact ⟨reachable_of_broadcastLog hboot h, hl, ht⟩

/-- The clock leaves the rank alone, and the signal takes away the rounds that are left. -/
theorem rank_outer {l : Label} (hl : l.Outer) (h : m.next l = some m') :
    Below (m'.rank (v.observe m l m')) (m.rank v) ∨ m'.rank (v.observe m l m') = m.rank v := by
  cases l with
  | tick d =>
      simp only [next, Option.some.injEq] at h
      subst h
      exact Or.inr rfl
  | signal =>
      simp only [next, Option.some.injEq] at h
      subst h
      rcases Nat.eq_zero_or_pos (m.roundsLeft v) with hnone | hsome
      · right
        rw [rank, rank, hnone]
        rfl
      · left
        refine Prod.Lex.right _ (Prod.Lex.right _ (Prod.Lex.left _ _ ?_))
        rw [roundsLeft_of_flag rfl]
        exact hsome
  | _ => exact hl.elim

/-- An infinite run without new events, the log kept beside it. -/
def broadcastLogAlong (v : BroadcastLog) (run : ℕ → Machine) (ls : ℕ → Label) : ℕ → BroadcastLog
  | 0 => v
  | n + 1 => (broadcastLogAlong v run ls n).observe (run n) (ls n) (run (n + 1))

/-- In an infinite run without new events only finitely many steps settle anything. -/
theorem Logged.finite_settling (h : Logged db listenSocket m v) {run : ℕ → Machine}
    {ls : ℕ → Label} (hstart : run 0 = m) (hsteps : ∀ n, (run n).next (ls n) = some (run (n + 1)))
    (hls : ∀ n, (run n).Settling (ls n) ∨ (ls n).Outer) :
    {n | (run n).Settling (ls n)}.Finite := by
  have hlogged : ∀ n, Logged db listenSocket (run n) (broadcastLogAlong v run ls n) := by
    intro n
    induction n with
    | zero =>
        rw [hstart]
        exact h
    | succ n ih => exact ih.tail ⟨ls n, hsteps n, rfl⟩
  have hdown : ∀ n, (run n).Settling (ls n) →
      Below ((run (n + 1)).rank (broadcastLogAlong v run ls (n + 1)))
        ((run n).rank (broadcastLogAlong v run ls n)) := by
    intro n hsettling
    obtain ⟨hreach, hl, ht⟩ := (hlogged n).keeps
    exact below_settling hreach hl ht hsettling (hsteps n)
  refine finite_of_descents wellFounded_below (fun n => (run n).rank (broadcastLogAlong v run ls n)) hdown
    fun n => ?_
  rcases hls n with hsettling | houter
  · exact Or.inl (hdown n hsettling)
  · exact rank_outer houter (hsteps n)

/-- Where no settling step is possible, nothing is left to do. -/
theorem atRest_of_stuck (hm : Reachable noOverlap m) (hstuck : ∀ m', ¬Step Settling m m') :
    m.AtRest := by
  obtain ⟨held, acted, hd, -, hfree⟩ := ordered_of_reachable hm
  have hnone : ∀ l, m.Settling l → m.next l = none := by
    intro l hl
    by_contra hsome
    obtain ⟨m', hm'⟩ := Option.ne_none_iff_exists'.1 hsome
    exact hstuck m' ⟨l, hl, hm'⟩
  have hfinished : m.config.Finished := by
    apply Config.finished_of_stuck hd fun S hS => hfree (crossed_of_deadlocked hd hS)
    intro t
    refine ⟨.midnight 0, ?_⟩
    simpa [next] using hnone (.run t (.midnight 0)) trivial
  refine ⟨hfinished, ?_, ?_⟩
  · have hwake := hnone (.wake 0) trivial
    cases hp : m.globals.pendingCleanups with
    | nil => rfl
    | cons roomId rest => simp [next, hp] at hwake
  · by_contra hleft
    rw [not_or, Bool.not_eq_true] at hleft
    have hround := hnone .round hleft
    simp [next, hfinished .broadcaster] at hround

/-- At rest the live rooms are those with a member: a deserted one would have its cleanup pending. -/
theorem AtRest.inhabited (h : m.AtRest) (hm : Reachable anyStep m) (hdrawn : m.globals.drawnIds.Nodup)
    (r : Bytes) : r ∈ m.globals.chatRooms ↔ ∃ t, m.globals.IsMember t r := by
  constructor
  · intro hr
    by_contra hnone
    obtain ⟨db, listenSocket, hrun⟩ := hm
    obtain ⟨w, hw⟩ := exists_watched hrun
    obtain ⟨g, hg, htended⟩ := hw.tended hdrawn
    have hdeserted : m.globals.Deserted r := deserted_iff.2 ⟨hr, fun t ht => hnone ⟨t, ht⟩⟩
    rcases htended r hdeserted with (hpending | ⟨n, hsweeping⟩) | howed
    · rw [h.swept] at hpending
      exact absurd hpending List.not_mem_nil
    · exact not_sweeping_of_done (h.finished _) hsweeping
    · rw [hg (h.finished .main)] at howed
      exact absurd howed List.not_mem_nil
  · rintro ⟨t, ht⟩
    exact ht.mem

/-- Without new events the server comes to rest. In every infinite run without them, in whatever order
its threads are scheduled, all but finitely many steps are those of the clock and of the signal. Where it
can go no further, after a run in which the main thread and the broadcaster have never gone for each
other's mutex, all threads are finished, no cleanup is pending and the queue has been served, unless the
shutdown was requested. In runs with distinct room ids the rooms that are left then are those with
members. -/
theorem comes_to_rest (m : Machine) (hm : Reachable anyStep m) :
    (∀ (run : ℕ → Machine) (ls : ℕ → Label), run 0 = m →
      (∀ n, (run n).next (ls n) = some (run (n + 1))) →
      (∀ n, (run n).Settling (ls n) ∨ (ls n).Outer) → {n | (run n).Settling (ls n)}.Finite) ∧
    (Reachable noOverlap m → (∀ m', ¬Step Settling m m') → m.AtRest ∧ (m.globals.drawnIds.Nodup →
      ∀ r, r ∈ m.globals.chatRooms ↔ ∃ t, m.globals.IsMember t r)) := by
  constructor
  · obtain ⟨db, listenSocket, hrun⟩ := hm
    obtain ⟨v, hv⟩ := exists_logged hrun
    exact fun run ls hstart hsteps hls => hv.finite_settling hstart hsteps hls
  · intro hfree hstuck
    have hrest := atRest_of_stuck hfree hstuck
    exact ⟨hrest, fun hdrawn => hrest.inhabited hm hdrawn⟩

/-- A machine whose threads are finished takes no settling step when nothing is queued or pending. -/
theorem stuck_of_finished (hfinished : m.config.Finished) (hpending : m.globals.pendingCleanups = [])
    (hqueue : m.globals.messageQueue = []) (m' : Machine) : ¬Step Settling m m' := by
  rintro ⟨l, hsettling, hnext⟩
  cases l with
  | run t e => simp [next, Config.stepThread_of_done (hfinished t)] at hnext
  | wake i => simp [next, hpending] at hnext
  | round => exact hsettling.2 hqueue
  | event ev => exact hsettling
  | tick d => exact hsettling
  | signal => exact hsettling

/-- The events of a client that creates a room and says hello. -/
def greeting : List Label :=
  [.event (.connect 4)] ++ steps .main 8 ++ [.event (.receive 4 (str "/CREATE PUBLIC"))] ++
    steps .main 16 ++ [.event (.receive 4 (str "hello"))] ++ steps .main 6

/-- Nobody has delivered the hello yet; once the broadcaster has, the server is at rest, and the room of
the client is left. -/
theorem comes_to_rest_hello : (∃ m, Reachable anyStep m ∧ m.globals.messageQueue ≠ [] ∧
      ∀ (run : ℕ → Machine) (ls : ℕ → Label), run 0 = m →
        (∀ n, (run n).next (ls n) = some (run (n + 1))) →
        (∀ n, (run n).Settling (ls n) ∨ (ls n).Outer) → {n | (run n).Settling (ls n)}.Finite) ∧
    ∃ m : Machine, m.AtRest ∧ str "100008" ∈ m.globals.chatRooms ∧
      ∀ r, r ∈ m.globals.chatRooms ↔ ∃ t, m.globals.IsMember t r := by
  constructor
  · obtain ⟨m, hm, hp⟩ := (Option.any_eq_true (fun m : Machine =>
      decide (m.globals.messageQueue ≠ [])) _).1 (by decide +kernel :
        ((boot {} 3).exec (fun _ => true) greeting).any _ = true)
    have hreach : Reachable anyStep m := ⟨{}, 3, exec_reaches (fun _ _ _ => trivial) _ _ _ hm⟩
    exact ⟨m, hreach, of_decide_eq_true hp, (comes_to_rest m hreach).1⟩
  · -- the main thread holds nothing while the broadcaster delivers
    have hcheck : ∀ (m : Machine) (l : Label), decide (m.config.owner .clientsMutex ≠ some .main ∨
        m.config.owner .chatRoomsMutex ≠ some .broadcaster) = true → noOverlap m l := by
      rintro m l h ⟨⟨hmain, -⟩, hbroadcaster, -⟩
      rcases of_decide_eq_true h with h | h
      · exact h hmain
      · exact h hbroadcaster
    obtain ⟨m, hm, hp⟩ := (Option.any_eq_true (fun m : Machine =>
      decide ((m.config.prog .main).isDone = true ∧ (m.config.prog .broadcaster).isDone = true ∧
        m.woken = 0 ∧ m.globals.pendingCleanups = [] ∧ m.globals.messageQueue = [] ∧
        m.globals.drawnIds.Nodup ∧ str "100008" ∈ m.globals.chatRooms)) _).1 (by decide +kernel :
          ((boot {} 3).exec (fun m => decide (m.config.owner .clientsMutex ≠ some .main ∨
            m.config.owner .chatRoomsMutex ≠ some .broadcaster))
              (greeting ++ [.round] ++ steps .broadcaster 15)).any _ = true)
    obtain ⟨hmain, hbroadcaster, hwoken, hpending, hqueue, hdrawn, hlive⟩ := of_decide_eq_true hp
    have hreach : Reachable noOverlap m := ⟨{}, 3, exec_reaches hcheck _ _ _ hm⟩
    have hany : Reachable anyStep m := hreach.mono fun _ _ _ => trivial
    have hfinished : m.config.Finished := by
      intro t
      cases t with
      | main => exact hmain
      | broadcaster => exact hbroadcaster
      | cleanup n => exact reachable_asleep hany n (by omega)
    obtain ⟨hrest, hrooms⟩ := (comes_to_rest m hany).2 hreach
      (stuck_of_finished hfinished hpending hqueue)
    exact ⟨m, hrest, hlive, hrooms hdrawn⟩

end Machine

end TerminalChat.Server
