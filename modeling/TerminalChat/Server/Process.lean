import Mathlib
import TerminalChat.Server.Shutdown
import TerminalChat.Server.Sockets

/-!
# The process

`main` from the start of its loop to its return. It leaves the loop at the top of an iteration, when the
shutdown has been requested or `WSAPoll` has failed, and closes the listening socket; it waits until the
broadcaster has left its own loop; then it closes the sockets in the poll table and clears the tables. Cleanup
threads may be under way all the time, also when it returns. `Process.orderly_shutdown` says what holds then.
-/

set_option autoImplicit false

namespace TerminalChat.Server

open TerminalChat.Concurrency TerminalChat.Text

/-- Where `main` is: in its loop, waiting for the broadcaster, closing and clearing, or behind that. -/
inductive Phase where
  | polling
  | joining
  | clearing
  | returned
  deriving DecidableEq

/-- The sockets in the poll table behind the first are closed, and the table is cleared. -/
def closeClients : Sect Unit :=
  .modify fun _ s => { s with
    net := s.net ++ ((s.pollFds.drop 1).filter fun fd => fd != INVALID_SOCKET).map .closed
    pollFds := [] }

/-- What `main` does once the broadcaster has been joined. -/
def clearTables : Thread Unit := do
  critical .pollFdsMutex closeClients
  critical .chatRoomsMutex (.modify fun _ s => { s with chatRooms := ∅ })
  critical .clientsMutex (.modify fun _ s => { s with clients := ∅ })

/-- The process: the loop with the threads, the log of the broadcaster, and where `main` is. -/
structure Process where
  loop : PollLoop
  broadcastLog : BroadcastLog := {}
  phase : Phase := .polling

/-- A step: one of the loop or of another thread, the end of the loop, the join of the broadcaster, the
return. -/
inductive ProcessLabel where
  | loop (l : PollLabel)
  | leave (pollFailed : Bool)
  | join
  | exit

/-- The log after a step of the loop. -/
def BroadcastLog.follow (loop : PollLoop) (l : PollLabel) (loop' : PollLoop) (v : BroadcastLog) :
    BroadcastLog :=
  match l with
  | .server l => v.observe loop.machine l loop'.machine
  | _ => v

/-- Steps of the loop occur only in it; the broadcaster starts no round once it has left its own. -/
def PollLabel.Occurs (phase : Phase) (v : BroadcastLog) : PollLabel → Prop
  | .server .round => v.stage ≠ .returned
  | .server _ => True
  | _ => phase = .polling

instance (phase : Phase) (v : BroadcastLog) : (l : PollLabel) → Decidable (l.Occurs phase v)
  | .server .round => inferInstanceAs (Decidable (v.stage ≠ .returned))
  | .server (.event _) => isTrue trivial
  | .server (.wake _) => isTrue trivial
  | .server (.run _ _) => isTrue trivial
  | .server (.tick _) => isTrue trivial
  | .server .signal => isTrue trivial
  | .poll _ => inferInstanceAs (Decidable (phase = .polling))
  | .visit _ _ => inferInstanceAs (Decidable (phase = .polling))

namespace Process

/-- The threads and the globals. -/
def machine (p : Process) : Machine := p.loop.machine

def globals (p : Process) : Globals := p.machine.globals

/-- The process when the loop starts. -/
def boot (db : Database) (listenSocket : SOCKET) : Process where
  loop := .boot db listenSocket

/-- One step; none where the label cannot occur. -/
def next (listenSocket : SOCKET) (p : Process) : ProcessLabel → Option Process
  | .loop l =>
      if l.Occurs p.phase p.broadcastLog then
        (p.loop.next listenSocket l).map fun loop =>
          { p with loop := loop, broadcastLog := p.broadcastLog.follow p.loop l loop }
      else none
  | .leave pollFailed =>
      -- the test of the `while` at the top of an iteration, or the `break` after a failed `WSAPoll`
      if p.phase = .polling ∧ p.loop.Top ∧
          (p.globals.shutdownRequested = true ∨ pollFailed = true) then
        some { p with phase := .joining }
      else none
  | .join =>
      -- `broadcastThread.join()`, and the main thread goes on with the sockets and the tables
      if p.phase = .joining ∧ p.broadcastLog.stage = .returned ∧
          (p.machine.config.prog .broadcaster).isDone = true then
        some { p with
          loop := { p.loop with
            machine := { p.machine with config := p.machine.config.start .main clearTables } }
          phase := .clearing }
      else none
  | .exit =>
      if p.phase = .clearing ∧ p.machine.Idle then some { p with phase := .returned } else none

/-- The process after a list of steps. -/
def run (listenSocket : SOCKET) (p : Process) (ls : List ProcessLabel) : Option Process :=
  ls.foldlM (next listenSocket) p

end Process

/-- The listening socket does not hang up. -/
def ProcessLabel.Steady : ProcessLabel → Prop
  | .loop l => l.Steady
  | _ => True

/-! ## Closing the sockets -/

section Traces

variable {net : List NetOp}

/-- Different open sockets are closed one after the other. -/
theorem proper_closeAll (h : Proper net) {socks : List SOCKET} (hnodup : socks.Nodup)
    (hopen : ∀ t ∈ socks, connected net t = true) :
    Proper (net ++ socks.map .closed) ∧
      ∀ t, connected (net ++ socks.map .closed) t = true ↔ connected net t = true ∧ t ∉ socks := by
  induction socks using List.reverseRecOn with
  | nil => simpa using h
  | append_singleton socks u ih =>
      rw [List.nodup_append] at hnodup
      obtain ⟨hsocks, -, hdisjoint⟩ := hnodup
      obtain ⟨hproper, hconn⟩ := ih hsocks fun t ht => hopen t (List.mem_append_left _ ht)
      have hu : u ∉ socks := fun hmem => hdisjoint u hmem u List.mem_cons_self rfl
      have hplace : connected (net ++ socks.map .closed) u = true :=
        (hconn u).2 ⟨hopen u (List.mem_append_right _ List.mem_cons_self), hu⟩
      rw [List.map_append, List.map_singleton, ← List.append_assoc]
      refine ⟨hproper.concat hplace, ?_⟩
      intro t
      have hlast : connected (net ++ socks.map .closed ++ [.closed u]) t =
          (!(u == t) && connected (net ++ socks.map .closed) t) := by
        rw [connected_append]
        rfl
      rw [hlast, Bool.and_eq_true, Bool.not_eq_true', beq_eq_false_iff_ne, hconn t]
      simp only [List.mem_append, List.mem_singleton, not_or]
      constructor
      · exact fun ht => ⟨ht.2.1, ht.2.2, ht.1.symm⟩
      · exact fun ht => ⟨Ne.symm ht.2.2, ht.1, ht.2.1⟩

end Traces

/-- The sockets in the poll table behind the first are those that are open, each once. -/
structure Globals.Closable (s : Globals) : Prop where
  proper : Proper s.net
  nodup : (s.pollFds.drop 1).Nodup
  openSocks : ∀ t, connected s.net t = true ↔ t ∈ s.pollFds.drop 1
  valid : INVALID_SOCKET ∉ s.pollFds.drop 1

/-- No socket is open, and none is polled. -/
structure Globals.Shut (s : Globals) : Prop where
  proper : Proper s.net
  none : ∀ t, connected s.net t = false
  unpolled : s.pollFds = []

/-- Moreover the tables are empty. -/
structure Globals.Cleared (s : Globals) : Prop extends s.Shut where
  rooms : s.chatRooms = ∅
  clients : s.clients = ∅

theorem Globals.Closable.shut {s : Globals} (h : s.Closable) (e : Env) :
    (closeClients.exec e s).state.Shut := by
  have hvalid : (s.pollFds.drop 1).filter (fun fd => fd != INVALID_SOCKET) = s.pollFds.drop 1 := by
    apply List.filter_eq_self.2
    intro t ht
    rw [bne_iff_ne]
    rintro rfl
    exact h.valid ht
  obtain ⟨hproper, hconn⟩ := proper_closeAll h.proper h.nodup fun t ht => (h.openSocks t).2 ht
  have hnet : (closeClients.exec e s).state.net = s.net ++ (s.pollFds.drop 1).map .closed := by
    rw [← hvalid]
    show s.net ++ _ = _
    rw [hvalid]
  refine ⟨?_, ?_, rfl⟩
  · rw [hnet]
    exact hproper
  · intro t
    rw [hnet, Bool.eq_false_iff]
    intro hopen
    obtain ⟨hbefore, hnot⟩ := (hconn t).1 hopen
    exact hnot ((h.openSocks t).1 hbefore)

/-! ## The last contracts -/

/-- What the cleanup threads, the clock and the signal do while `main` closes and clears: once the rooms are
gone, a cleanup finds none and leaves the database alone. -/
structure LeavesTables (s s' : Globals) : Prop where
  clients : s'.clients = s.clients
  pollFds : s'.pollFds = s.pollFds
  net : s'.net = s.net
  rooms : s.chatRooms = ∅ → s'.chatRooms = ∅ ∧ s'.database = s.database

theorem LeavesTables.refl (s : Globals) : LeavesTables s s := ⟨rfl, rfl, rfl, fun h => ⟨h, rfl⟩⟩

theorem LeavesTables.trans {s s' s'' : Globals} (h : LeavesTables s s') (h' : LeavesTables s' s'') :
    LeavesTables s s'' := by
  refine ⟨h'.clients.trans h.clients, h'.pollFds.trans h.pollFds, h'.net.trans h.net, ?_⟩
  intro hnone
  obtain ⟨hrooms, hdb⟩ := h.rooms hnone
  obtain ⟨hrooms', hdb'⟩ := h'.rooms hrooms
  exact ⟨hrooms', hdb'.trans hdb⟩

theorem leavesTables_sweep (e : Env) (s : Globals) (r : Bytes) :
    LeavesTables s ((Effect.sweep r).apply e s) := by
  refine ⟨Effect.clients_apply e s _, pollFds_sweep e s r, Effect.net_apply e s _, ?_⟩
  intro hnone
  have hdeserted : ¬s.Deserted r := by
    rw [Globals.Deserted, hnone]
    simp
  rw [Effect.apply, if_neg hdeserted]
  exact ⟨hnone, rfl⟩

theorem Globals.Closable.leavesTables {s s' : Globals} (h : s.Closable) (hs : LeavesTables s s') :
    s'.Closable := by
  constructor
  · rw [hs.net]
    exact h.proper
  · rw [hs.pollFds]
    exact h.nodup
  · rw [hs.net, hs.pollFds]
    exact h.openSocks
  · rw [hs.pollFds]
    exact h.valid

theorem Globals.Shut.leavesTables {s s' : Globals} (h : s.Shut) (hs : LeavesTables s s') : s'.Shut := by
  constructor
  · rw [hs.net]
    exact h.proper
  · rw [hs.net]
    exact h.none
  · exact hs.pollFds.trans h.unpolled

theorem Globals.Cleared.leavesTables {s s' : Globals} (h : s.Cleared) (hs : LeavesTables s s') : s'.Cleared :=
  ⟨h.toShut.leavesTables hs, (hs.rooms h.rooms).1, hs.clients.trans h.clients⟩

/-- What an action of `main` does while it closes and clears. -/
structure ClosingDeed (H : List Mutex) (g g' : Note) (s s' : Globals) : Prop where
  note : g' = g
  flag : s'.shutdownRequested = s.shutdownRequested
  guarded : .chatRoomsMutex ∉ H → s'.chatRooms = s.chatRooms

/-- The contract of `main` while it closes and clears. -/
def closingContract : Contract Mutex Env Globals Note where
  rely _ := LeavesTables
  guarantee H g g' _ := ClosingDeed H g g'
  rely_refl _ := LeavesTables.refl
  rely_trans _ _ _ _ h h' := h.trans h'
  rely_mono _ _ _ _ h := h

/-- The contracts of the threads when the broadcaster is out of its loop. -/
def lastContract : Tid → Contract Mutex Env Globals Note
  | .main => closingContract
  | .broadcaster => contractUnderRooms fun _ _ _ _ _ _ => False
  | .cleanup n => contract (.cleanup n)

/-- What the threads end with; `steady` says that the listening socket has not hung up. -/
def LastNote (steady : Prop) : Tid → Note → Globals → Prop
  | .main, _, s => steady → s.Cleared
  | _, g, _ => g = {}

theorem compatible_lastContract : Config.Compatible lastContract := by
  intro t u htu H K g g' e s s' hK hg
  have hheld : RoomsHeld H s s' := by
    intro hm
    cases u with
    | main => exact ClosingDeed.guarded hg (hK _ hm)
    | broadcaster => exact False.elim hg
    | cleanup n => exact CleanupDeed.guarded hg (hK _ hm)
  cases t with
  | main =>
      cases u with
      | main => exact absurd rfl htu
      | broadcaster => exact False.elim hg
      | cleanup n =>
          obtain ⟨r, rfl⟩ := CleanupDeed.sweeps hg
          exact leavesTables_sweep e s r
  | broadcaster => exact hheld
  | cleanup n => exact hheld

/-- The last part of `main`. -/
theorem triple_clearTables (steady : Prop) :
    Prog.Triple closingContract [] (fun _ s => steady → s.Closable) clearTables
      fun _ _ s => steady → s.Cleared := by
  have hclosable : ∀ {H : List Mutex}, Prog.Stable closingContract H
      fun _ s => steady → s.Closable := fun _ _ _ hs h hk => (h hk).leavesTables hs
  have hshut : ∀ {H : List Mutex}, Prog.Stable closingContract H
      fun _ s => steady → s.Shut := fun _ _ _ hs h hk => (h hk).leavesTables hs
  have hrooms : ∀ {H : List Mutex}, Prog.Stable closingContract H
      fun _ s => steady → s.Shut ∧ s.chatRooms = ∅ :=
    fun _ _ _ hs h hk => ⟨(h hk).1.leavesTables hs, (hs.rooms (h hk).2).1⟩
  have hcleared : ∀ {H : List Mutex}, Prog.Stable closingContract H
      fun _ s => steady → s.Cleared := fun _ _ _ hs h hk => (h hk).leavesTables hs
  apply Prog.triple_bind (R := fun _ _ s => steady → s.Shut)
  · -- the sockets
    apply Prog.triple_holding hclosable fun _ => hshut
    apply Prog.triple_block _ hclosable fun _ => hshut
    exact fun e g s h => ⟨g, ⟨rfl, rfl, fun _ => rfl⟩, fun hk => (h hk).shut e⟩
  intro _
  apply Prog.triple_bind (R := fun _ _ s => steady → s.Shut ∧ s.chatRooms = ∅)
  · -- the rooms
    apply Prog.triple_holding hshut fun _ => hrooms
    apply Prog.triple_block _ hshut fun _ => hrooms
    intro e g s h
    refine ⟨g, ⟨rfl, rfl, fun hm => absurd List.mem_cons_self hm⟩, fun hk => ?_⟩
    exact ⟨⟨(h hk).proper, (h hk).none, (h hk).unpolled⟩, rfl⟩
  intro _
  -- the clients
  apply Prog.triple_holding hrooms fun _ => hcleared
  apply Prog.triple_block _ hrooms fun _ => hcleared
  intro e g s h
  refine ⟨g, ⟨rfl, rfl, fun _ => rfl⟩, fun hk => ?_⟩
  obtain ⟨hs, hnone⟩ := h hk
  exact ⟨⟨hs.proper, hs.none, hs.unpolled⟩, hnone, rfl⟩

namespace Machine

variable {steady : Prop} {m m' : Machine} {l : Label}

/-- The shutdown has been requested, and the threads keep the last contracts. -/
structure Winding (steady : Prop) (m : Machine) : Prop where
  flag : m.globals.shutdownRequested = true
  asleep : m.Asleep
  contracts : ∃ note held, Config.Honoured lastContract (LastNote steady) m.config note held

theorem stable_lastNote (t : Tid) (g : Note) (s s' : Globals) (h : LastNote steady t g s)
    (hs : (lastContract t).rely [] s s') : LastNote steady t g s' := by
  cases t with
  | main => exact fun hk => Globals.Cleared.leavesTables (h hk) hs
  | broadcaster => exact h
  | cleanup n => exact h

/-- When `main` is done the tables are cleared. -/
theorem Winding.of_idle (h : m.Winding steady) (hidle : m.Idle) : steady → m.globals.Cleared := by
  obtain ⟨note, held, hc⟩ := h.contracts
  exact (hc.of_done hidle).2

/-- `main` starts to close and to clear. -/
theorem winding_start {note : Tid → Note} (hflag : m.globals.shutdownRequested = true)
    (hh : m.Honoured note) (hidle : m.Idle) (hdone : (m.config.prog .broadcaster).isDone = true)
    (hclosable : steady → m.globals.Closable) :
    Winding steady { m with config := m.config.start .main clearTables } := by
  obtain ⟨held, hc⟩ := hh.contracts
  refine ⟨hflag, asleep_start (s := m.globals) hh.asleep (by simp) _, note, held, hc.owner_iff, hc.nodup, ?_⟩
  intro t
  cases t with
  | main =>
      -- the new program of `main`
      have hheld := (hc.of_done hidle).1
      have htriple := triple_clearTables steady (note .main) m.globals hclosable
      have hprog : (m.config.start .main clearTables).prog .main = clearTables := by
        simp [Config.start]
      rw [hprog, hheld]
      exact htriple
  | broadcaster =>
      have hprog : (m.config.start .main clearTables).prog .broadcaster = m.config.prog .broadcaster := by
        simp [Config.start]
      have hnote := hc.of_done hdone
      rw [hprog]
      obtain ⟨a, hp⟩ := Prog.eq_ret_of_done hdone
      rw [hp]
      exact hnote
  | cleanup n =>
      have hprog : (m.config.start .main clearTables).prog (.cleanup n) = m.config.prog (.cleanup n) := by
        simp [Config.start]
      rw [hprog]
      exact hc.honours (.cleanup n)

/-- What the surroundings do. -/
theorem Winding.setShared (h : m.Winding steady) {s : Globals} (hleaves : LeavesTables m.globals s)
    (hrooms : s.chatRooms = m.globals.chatRooms) (hflag : s.shutdownRequested = true) :
    Winding steady { m with config := m.config.setShared s } := by
  obtain ⟨note, held, hc⟩ := h.contracts
  refine ⟨hflag, h.asleep, note, held, Config.honoured_setShared stable_lastNote hc ?_⟩
  intro t
  cases t with
  | main => exact hleaves
  | broadcaster => exact fun _ => hrooms
  | cleanup n => exact fun _ => hrooms

/-- A step while `main` closes and clears, and after it. -/
theorem Winding.next (h : m.Winding steady) (hev : ∀ ev, l ≠ .event ev) (hround : l ≠ .round)
    (hnext : m.next l = some m') :
    m'.Winding steady ∧ (m.Idle → LeavesTables m.globals m'.globals ∧ m'.Idle) := by
  cases l with
  | event ev => exact absurd rfl (hev ev)
  | round => exact absurd rfl hround
  | tick d =>
      simp only [Machine.next, Option.some.injEq] at hnext
      subst hnext
      have hleaves : LeavesTables m.globals { m.globals with steadyNow := m.globals.steadyNow + d } :=
        ⟨rfl, rfl, rfl, fun h => ⟨h, rfl⟩⟩
      exact ⟨h.setShared hleaves rfl h.flag, fun hidle => ⟨hleaves, hidle⟩⟩
  | signal =>
      simp only [Machine.next, Option.some.injEq] at hnext
      subst hnext
      have hleaves : LeavesTables m.globals { m.globals with shutdownRequested := true } :=
        ⟨rfl, rfl, rfl, fun h => ⟨h, rfl⟩⟩
      exact ⟨h.setShared hleaves rfl rfl, fun hidle => ⟨hleaves, hidle⟩⟩
  | wake i =>
      have hasleep := h.asleep.next hnext
      simp only [Machine.next] at hnext
      cases hi : m.globals.pendingCleanups[i]? with
      | none => simp [hi] at hnext
      | some roomId =>
          simp only [hi, Option.some.injEq] at hnext
          subst hnext
          have hleaves : LeavesTables m.globals { m.globals with
              pendingCleanups := m.globals.pendingCleanups.eraseIdx i } :=
            ⟨rfl, rfl, rfl, fun h => ⟨h, rfl⟩⟩
          obtain ⟨note, held, hc⟩ := (h.setShared hleaves rfl h.flag).contracts
          -- the thread that wakes up had no program
          have hdone := h.asleep m.woken le_rfl
          refine ⟨⟨h.flag, hasleep, note, held, Config.honoured_start hc hdone
            (P := fun g _ => g = {}) (hc.of_done hdone).2 (triple_cleanupEmptyRoom roomId)⟩, ?_⟩
          intro hidle
          refine ⟨hleaves, ?_⟩
          have hmain : (m.config.prog .main).isDone = true := hidle
          simpa [Idle, Config.start, Config.setShared] using hmain
  | run t e =>
      have hasleep := h.asleep.next hnext
      simp only [Machine.next, Option.map_eq_some_iff] at hnext
      obtain ⟨c, hstep, rfl⟩ := hnext
      obtain ⟨note, held, hc⟩ := h.contracts
      have hidle : m.Idle → t ≠ .main ∧ Idle { m with config := c } := by
        intro hidle
        have ht : t ≠ .main := by
          rintro rfl
          rw [Config.stepThread_of_done hidle] at hstep
          cases hstep
        refine ⟨ht, ?_⟩
        show (c.prog .main).isDone = true
        rw [Config.stepThread_prog_of_ne hstep ht.symm]
        exact hidle
      rcases Config.honoured_stepThread compatible_lastContract stable_lastNote hc hstep with
        ⟨-, hs, held', hc'⟩ | ⟨-, g', hg, hc'⟩
      · have hglobals : Machine.globals { m with config := c } = m.globals := hs
        refine ⟨⟨?_, hasleep, note, held', hc'⟩, ?_⟩
        · rw [hglobals]
          exact h.flag
        · intro hi
          rw [hglobals]
          exact ⟨.refl _, (hidle hi).2⟩
      · -- an action: of `main`, or of a cleanup thread
        cases t with
        | main =>
            refine ⟨⟨(ClosingDeed.flag hg).trans h.flag, hasleep, _, held, hc'⟩, ?_⟩
            exact fun hi => absurd rfl (hidle hi).1
        | broadcaster => exact False.elim hg
        | cleanup n =>
            obtain ⟨r, hs⟩ := CleanupDeed.sweeps hg
            have hleaves : LeavesTables m.globals (Machine.globals { m with config := c }) := by
              show LeavesTables m.globals c.shared
              rw [hs]
              exact leavesTables_sweep e _ r
            refine ⟨⟨?_, hasleep, _, held, hc'⟩, fun hi => ⟨hleaves, (hidle hi).2⟩⟩
            show c.shared.shutdownRequested = true
            rw [hs, Effect.apply]
            split
            · exact h.flag
            · exact h.flag

end Machine

namespace Process

open PollLoop

variable {steady : Prop} {listenSocket : SOCKET} {p p' : Process} {loop' : PollLoop} {l : PollLabel}

/-! ## Until the join -/

/-- Before the broadcaster is joined: the log of the broadcaster is right, a loop that has been left is at
the top, and the loop is guarded as long as the listening socket has not hung up. -/
structure Running (steady : Prop) (listenSocket : SOCKET) (p : Process) : Prop where
  reachable : Machine.Reachable Machine.anyStep p.machine
  looping : p.machine.Looping p.broadcastLog
  accounted : QueueAccounted p.globals p.broadcastLog
  top : p.phase = .joining → p.loop.Top
  guarded : steady → Guarded listenSocket p.loop

theorem running_boot (steady : Prop) (db : Database) (listenSocket : SOCKET) :
    Running steady listenSocket (boot db listenSocket) := by
  refine ⟨⟨db, listenSocket, .refl⟩, .between rfl rfl, ⟨fun _ => rfl, ?_, fun _ => rfl⟩, ?_,
    fun _ => guarded_boot db listenSocket⟩
  · intro h
    cases h
  · intro h
    cases h

/-- A step of the loop is one of the machine, which the log has observed, or none. -/
theorem machine_of_loop (h : p.loop.next listenSocket l = some loop') :
    (loop'.machine = p.machine ∧ p.broadcastLog.follow p.loop l loop' = p.broadcastLog) ∨
      ∃ l', p.machine.next l' = some loop'.machine ∧
        p.broadcastLog.follow p.loop l loop' = p.broadcastLog.observe p.machine l' loop'.machine := by
  cases l with
  | poll revents =>
      simp only [PollLoop.next, Option.ite_none_right_eq_some, Option.some.injEq] at h
      obtain ⟨-, rfl⟩ := h
      exact Or.inl ⟨rfl, rfl⟩
  | visit accepted received =>
      obtain ⟨_, _, _, -, -, ⟨-, rfl⟩ | ⟨ev, m', -, -, -, hm', rfl⟩⟩ := visit_cases h
      · exact Or.inl ⟨rfl, rfl⟩
      · exact Or.inr ⟨.event ev, hm', rfl⟩
  | server l' =>
      obtain ⟨-, m', hm', rfl⟩ := server_cases h
      exact Or.inr ⟨l', hm', rfl⟩

/-- Once the loop has been left it stays at the top. -/
theorem top_of_server {l : Label} (htop : p.loop.Top)
    (h : p.loop.next listenSocket (.server l) = some loop') : loop'.Top := by
  obtain ⟨hrem, hidle⟩ := htop
  obtain ⟨hev, m', hm', rfl⟩ := server_cases h
  refine ⟨hrem, ?_⟩
  have hmain : ∀ e, l ≠ .run .main e := by
    rintro e rfl
    simp [Machine.next, Config.stepThread_of_done hidle] at hm'
  show (m'.config.prog .main).isDone = true
  rw [Machine.prog_main_next hev hmain hm']
  exact hidle

/-- Outside the loop only the threads take steps. -/
theorem server_of_occurs {l : PollLabel} (hoccurs : l.Occurs p.phase p.broadcastLog)
    (hphase : p.phase ≠ .polling) :
    ∃ l', l = .server l' := by
  cases l with
  | server l' => exact ⟨l', rfl⟩
  | poll revents => exact absurd hoccurs hphase
  | visit accepted received => exact absurd hoccurs hphase

/-- While `main` waits for the broadcaster, the loop stays at the top. -/
theorem top_of_joining {l : PollLabel} (hjoining : p.phase = .joining) (htop : p.loop.Top)
    (hoccurs : l.Occurs p.phase p.broadcastLog) (hnext : p.loop.next listenSocket l = some loop') :
    loop'.Top := by
  obtain ⟨l', rfl⟩ := server_of_occurs hoccurs (by simp [hjoining])
  exact top_of_server htop hnext

theorem Running.loop (h : Running steady listenSocket p) (hsteady : steady → l.Steady)
    (hoccurs : l.Occurs p.phase p.broadcastLog) (hnext : p.loop.next listenSocket l = some loop') :
    Running steady listenSocket
      { p with loop := loop', broadcastLog := p.broadcastLog.follow p.loop l loop' } := by
  have hkept : Machine.Reachable Machine.anyStep loop'.machine ∧
      loop'.machine.Looping (p.broadcastLog.follow p.loop l loop') ∧
      QueueAccounted loop'.machine.globals (p.broadcastLog.follow p.loop l loop') := by
    rcases machine_of_loop hnext with ⟨hmachine, hlog⟩ | ⟨l', hm', hlog⟩
    · rw [hmachine, hlog]
      exact ⟨h.reachable, h.looping, h.accounted⟩
    · rw [hlog]
      obtain ⟨hturn, hlooping⟩ := h.looping.next h.reachable hm'
      exact ⟨reachable_next h.reachable hm', hlooping, h.accounted.turn hturn⟩
  refine ⟨hkept.1, hkept.2.1, hkept.2.2, ?_, fun hk => (h.guarded hk).next (hsteady hk) hnext⟩
  intro hjoining
  exact top_of_joining (p := p) hjoining (h.top hjoining) hoccurs hnext

/-- At the top of the loop the poll table has the sockets that are open. -/
theorem closable_of_top (h : Guarded listenSocket p.loop) (htop : p.loop.Top) : p.globals.Closable := by
  have hidle : p.machine.Idle := htop.2
  have hinStep := h.sockets.of_idle hidle
  obtain ⟨socks, hpolled, hdistinct, hkeys⟩ := (h.order.connects.of_idle hidle).table
  have hdrop : p.globals.pollFds.drop 1 = socks := by
    rw [show p.globals.pollFds = listenSocket :: socks from hpolled]
    rfl
  constructor
  · exact hinStep.proper
  · rw [hdrop]
    rw [hpolled, List.nodup_cons] at hdistinct
    exact hdistinct.2
  · intro t
    rw [hdrop, hkeys t]
    exact ⟨hinStep.keyed t, hinStep.keysConnected t⟩
  · rw [hdrop, hkeys]
    exact (Machine.hallRun_of_reachable h.order.reachable hidle).valid

/-! ## From the join on -/

/-- After the broadcaster has been joined. -/
structure Ending (steady : Prop) (p : Process) : Prop where
  winding : p.machine.Winding steady
  stage : p.broadcastLog.stage = .returned
  idle : p.phase = .returned → p.machine.Idle

theorem Running.join (h : Running steady listenSocket p) (hjoining : p.phase = .joining)
    (hstage : p.broadcastLog.stage = .returned)
    (hdone : (p.machine.config.prog .broadcaster).isDone = true)
    (hnext : p.next listenSocket .join = some p') : Ending steady p' := by
  rw [next, if_pos ⟨hjoining, hstage, hdone⟩, Option.some.injEq] at hnext
  subst hnext
  have htop := h.top hjoining
  obtain ⟨note, hh⟩ := Machine.exists_honoured h.reachable
  refine ⟨?_, hstage, fun hreturned => by cases hreturned⟩
  exact Machine.winding_start (h.accounted.ended hstage) hh htop.2 hdone
    fun hk => closable_of_top (h.guarded hk) htop

theorem stage_observe {v : BroadcastLog} (h : v.stage = .returned) (m : Machine) (l : Label) (m' : Machine) :
    (v.observe m l m').stage = .returned := by
  cases l with
  | run t e =>
      cases t with
      | main =>
          rw [BroadcastLog.observe]
          split
          · exact h
          · exact h
      | broadcaster =>
          rw [Machine.observe_out h]
          exact h
      | cleanup n => exact h
  | _ => exact h

theorem Ending.loop (h : Ending steady p) (hphase : p.phase ≠ .polling)
    (hoccurs : l.Occurs p.phase p.broadcastLog)
    (hnext : p.loop.next listenSocket l = some loop') :
    Ending steady { p with loop := loop', broadcastLog := p.broadcastLog.follow p.loop l loop' } ∧
      (p.phase = .returned → LeavesTables p.globals loop'.machine.globals) := by
  cases l with
  | poll revents => exact absurd hoccurs hphase
  | visit accepted received => exact absurd hoccurs hphase
  | server l' =>
      obtain ⟨hev, m', hm', rfl⟩ := server_cases hnext
      have hround : l' ≠ .round := by
        rintro rfl
        exact hoccurs h.stage
      obtain ⟨hwinding, hrest⟩ := h.winding.next hev hround hm'
      refine ⟨⟨hwinding, stage_observe h.stage _ _ _, ?_⟩, fun hreturned => (hrest (h.idle hreturned)).1⟩
      exact fun hreturned => (hrest (h.idle hreturned)).2

/-! ## Runs -/

/-- What holds in the four phases. -/
inductive Sound (steady : Prop) (listenSocket : SOCKET) (p : Process) : Prop where
  | running (hp : p.phase = .polling ∨ p.phase = .joining) (h : Running steady listenSocket p)
  | ending (hp : p.phase = .clearing ∨ p.phase = .returned) (h : Ending steady p)

theorem run_append (listenSocket : SOCKET) (p : Process) (ls : List ProcessLabel) (l : ProcessLabel) :
    p.run listenSocket (ls ++ [l]) = (p.run listenSocket ls).bind fun x => x.next listenSocket l := by
  rw [run, List.foldlM_append]
  show (p.run listenSocket ls >>= fun x => [l].foldlM (next listenSocket) x) = _
  cases p.run listenSocket ls with
  | none => rfl
  | some x => simp [List.foldlM]

theorem Sound.next {l : ProcessLabel} (h : Sound steady listenSocket p) (hsteady : steady → l.Steady)
    (hnext : p.next listenSocket l = some p') : Sound steady listenSocket p' := by
  cases l with
  | loop l =>
      simp only [Process.next, Option.ite_none_right_eq_some, Option.map_eq_some_iff] at hnext
      obtain ⟨hoccurs, loop', hloop, rfl⟩ := hnext
      cases h with
      | running hp h => exact .running hp (h.loop hsteady hoccurs hloop)
      | ending hp h =>
          have hphase : p.phase ≠ .polling := by
            rcases hp with hp | hp <;> rw [hp] <;> decide
          exact .ending hp (h.loop hphase hoccurs hloop).1
  | leave pollFailed =>
      simp only [Process.next, Option.ite_none_right_eq_some, Option.some.injEq] at hnext
      obtain ⟨⟨hpolling, htop, -⟩, rfl⟩ := hnext
      cases h with
      | running hp h =>
          exact .running (Or.inr rfl) ⟨h.reachable, h.looping, h.accounted, fun _ => htop, h.guarded⟩
      | ending hp h =>
          rw [hpolling] at hp
          exact absurd hp (by decide)
  | join =>
      have hjoin := hnext
      simp only [Process.next, Option.ite_none_right_eq_some, Option.some.injEq] at hnext
      obtain ⟨⟨hjoining, hstage, hdone⟩, hp'⟩ := hnext
      cases h with
      | running hp h =>
          exact .ending (Or.inl (by rw [← hp'])) (h.join hjoining hstage hdone hjoin)
      | ending hp h =>
          rw [hjoining] at hp
          exact absurd hp (by decide)
  | exit =>
      simp only [Process.next, Option.ite_none_right_eq_some, Option.some.injEq] at hnext
      obtain ⟨⟨hclearing, hidle⟩, rfl⟩ := hnext
      cases h with
      | running hp h =>
          rw [hclearing] at hp
          exact absurd hp (by decide)
      | ending hp h => exact .ending (Or.inr rfl) ⟨h.winding, h.stage, fun _ => hidle⟩

theorem sound_of_run (steady : Prop) {db : Database} {ls : List ProcessLabel}
    (hsteady : steady → ∀ l ∈ ls, l.Steady)
    (hrun : (boot db listenSocket).run listenSocket ls = some p) : Sound steady listenSocket p := by
  induction ls using List.reverseRecOn generalizing p with
  | nil =>
      obtain rfl := Option.some.inj hrun
      exact .running (Or.inl rfl) (running_boot steady db listenSocket)
  | append_singleton ls l ih =>
      rw [run_append, Option.bind_eq_some_iff] at hrun
      obtain ⟨before, hbefore, hnext⟩ := hrun
      have hsound := ih (fun hk l' hl' => hsteady hk l' (List.mem_append_left _ hl')) hbefore
      exact hsound.next (fun hk => hsteady hk l (List.mem_append_right _ List.mem_cons_self)) hnext

/-- What the cleanup threads that are left do after the return. -/
theorem leavesTables_of_returned {ls : List ProcessLabel} (h : Ending steady p)
    (hreturned : p.phase = .returned) (hrun : p.run listenSocket ls = some p') :
    Ending steady p' ∧ p'.phase = .returned ∧ LeavesTables p.globals p'.globals := by
  induction ls using List.reverseRecOn generalizing p' with
  | nil =>
      obtain rfl := Option.some.inj hrun
      exact ⟨h, hreturned, .refl _⟩
  | append_singleton ls l ih =>
      rw [run_append, Option.bind_eq_some_iff] at hrun
      obtain ⟨before, hbefore, hnext⟩ := hrun
      obtain ⟨hending, hphase, hleaves⟩ := ih hbefore
      cases l with
      | loop l =>
          simp only [next, Option.ite_none_right_eq_some, Option.map_eq_some_iff] at hnext
          obtain ⟨hoccurs, loop', hloop, rfl⟩ := hnext
          have hpolling : before.phase ≠ .polling := by
            rw [hphase]
            decide
          obtain ⟨hending', hleaves'⟩ := hending.loop hpolling hoccurs hloop
          exact ⟨hending', hphase, hleaves.trans (hleaves' hphase)⟩
      | leave pollFailed => simp [next, hphase] at hnext
      | join => simp [next, hphase] at hnext
      | exit => simp [next, hphase] at hnext

/-- **Orderly shutdown.** `main` returns only after the signal, also when `WSAPoll` has failed, and after the
broadcaster has left its loop. Then, if the listening socket has not hung up, every socket that `accept` has
given has been closed, each time before it was given again and never twice; the rooms, the clients and the
poll table are empty and stay so; and whatever cleanup threads are still under way change neither the database
nor a socket. -/
theorem orderly_shutdown (db : Database) (listenSocket : SOCKET) (ls : List ProcessLabel) (p : Process)
    (hrun : (boot db listenSocket).run listenSocket ls = some p) (hreturned : p.phase = .returned) :
    p.globals.shutdownRequested = true ∧ p.broadcastLog.stage = .returned ∧
    ((∀ l ∈ ls, l.Steady) →
      Proper p.globals.net ∧
      (∀ t, p.globals.net.count (.closed t) = p.globals.net.count (.accepted t)) ∧
      ∀ ls' p', p.run listenSocket ls' = some p' →
        p'.globals.chatRooms = ∅ ∧ p'.globals.clients = ∅ ∧ p'.globals.pollFds = [] ∧
        p'.globals.database = p.globals.database ∧ p'.globals.net = p.globals.net) := by
  cases sound_of_run (∀ l ∈ ls, l.Steady) id hrun with
  | running hp h =>
      rw [hreturned] at hp
      exact absurd hp (by decide)
  | ending hp h =>
      refine ⟨h.winding.flag, h.stage, fun hsteady => ?_⟩
      have hcleared : p.globals.Cleared := h.winding.of_idle (h.idle hreturned) hsteady
      refine ⟨hcleared.proper, fun t => ?_, fun ls' p' hrun' => ?_⟩
      · have hbalance := hcleared.proper.balance t
        rw [hbalance, hcleared.none t]
        rfl
      · obtain ⟨-, -, hleaves⟩ := leavesTables_of_returned h hreturned hrun'
        have hlater := hcleared.leavesTables hleaves
        exact ⟨hlater.rooms, hlater.clients, hlater.unpolled, (hleaves.rooms hcleared.rooms).2, hleaves.net⟩

/-- A client connects; then the signal comes, and the server shuts down. -/
def shortDay : List ProcessLabel :=
  [.loop (.poll [POLLRDNORM]), .loop (.visit (some 4) none)] ++ (working 8).map .loop ++
    [.loop (.server .signal), .loop (.server .round), .loop (.server (.run .broadcaster (.midnight 0))),
      .leave false, .join] ++ (working 9).map .loop ++ [.exit]

theorem steady_shortDay : ∀ l ∈ shortDay, l.Steady := by
  intro l hl
  simp only [shortDay, working, List.map_replicate, List.mem_append, List.mem_cons, List.mem_replicate,
    List.not_mem_nil, or_false] at hl
  rcases hl with ((((rfl | rfl) | ⟨-, rfl⟩) | rfl | rfl | rfl | rfl | rfl) | ⟨-, rfl⟩) | rfl
  · -- the listening socket has a connection, and does not hang up
    rintro r hr ⟨hread, -⟩
    rw [← Option.some.inj hr] at hread
    exact absurd hread (by decide)
  all_goals trivial

theorem orderly_shutdown_shortDay : ∃ p, (boot {} 3).run 3 shortDay = some p ∧ p.phase = .returned ∧
    p.globals.net.count (.accepted 4) = 1 ∧ p.globals.net.count (.closed 4) = 1 := by
  have hrun : ((boot {} 3).run 3 shortDay).any (fun p => decide (p.phase = .returned ∧
      p.globals.net.count (.accepted 4) = 1)) = true := by decide +kernel
  obtain ⟨p, hp, hcheck⟩ := (Option.any_eq_true _ _).1 hrun
  obtain ⟨hreturned, haccepted⟩ := of_decide_eq_true hcheck
  refine ⟨p, hp, hreturned, haccepted, ?_⟩
  obtain ⟨-, -, hrest⟩ := orderly_shutdown {} 3 shortDay p hp hreturned
  rw [(hrest steady_shortDay).2.1 4]
  exact haccepted

end Process

end TerminalChat.Server
