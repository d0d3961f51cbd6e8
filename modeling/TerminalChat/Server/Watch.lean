import Mathlib
import TerminalChat.Server.Honouring

/-!
# Watching a run

A watch is kept beside a run of the server. It follows what the broadcaster has in hand and keeps a
log: the rooms that come into being, the messages that are accepted, and the deliveries, each with
the socket operations of its step. Nothing in the server depends on it; it is computed from the steps
(`Watch.observe`), and `Machine.Watched.move` says what one step adds.
-/

set_option autoImplicit false

namespace TerminalChat.Server

open TerminalChat.Concurrency TerminalChat.Text

/-- An entry of the log. A delivery to a room carries the reading of the database clock, a delivery of
a private message the socket that was looked up and its entry at that moment. -/
inductive Entry where
  | opened (roomId : Bytes)
  | accepted (message : Message)
  | delivered (message : Message) (stamp : Bytes) (ops : List NetOp)
  | whispered (message : Message) (recipientSocket : SOCKET) (recipient : ClientInfo)
      (ops : List NetOp)
  deriving DecidableEq

/-- What the broadcaster has in hand, and the log. -/
structure Watch where
  hand : Hand := .empty
  log : List Entry := []

/-- The socket operations between two states of a run. -/
def opsBetween (s s' : Globals) : List NetOp := s'.net.drop s.net.length

/-- What an action of a handler enters into the log. -/
def mainEntries (s s' : Globals) : List Entry :=
  (s'.chatRooms.keys.filter fun r => r ∉ s.chatRooms).map .opened ++
    (s'.messageQueue.drop s.messageQueue.length).map .accepted

/-- What an action of the broadcaster enters into the log. -/
def Hand.entries (e : Env) (s s' : Globals) : Hand → List Entry
  | .empty => []
  | .taken _ => []
  | .found message =>
      if message.isPrivate then [] else [.delivered message e.utc.text (opsBetween s s')]
  | .resolved message recipientSocket recipient =>
      [.whispered message recipientSocket recipient (opsBetween s s')]

/-- The watch after a step of the machine. -/
def Watch.observe (m : Machine) (l : Label) (m' : Machine) (w : Watch) : Watch :=
  match l with
  | .run .main _ =>
      if (m.config.prog .main).isAct then
        { w with log := w.log ++ mainEntries m.globals m'.globals }
      else w
  | .run .broadcaster e =>
      if (m.config.prog .broadcaster).isAct then
        { hand := w.hand.advance m.globals m'.globals
          log := w.log ++ w.hand.entries e m.globals m'.globals }
      else w
  | _ => w

/-! ## What the log says about a room -/

/-- One entry's share in the deliveries of a room: a room that comes into being has none. -/
def deliveredStep (roomId : Bytes) (acc : List (Message × Bytes)) :
    Entry → List (Message × Bytes)
  | .opened r => if r = roomId then [] else acc
  | .delivered message stamp _ =>
      if message.roomId = roomId then acc ++ [(message, stamp)] else acc
  | _ => acc

/-- The messages delivered in a room since its creation, with the readings of the database clock. -/
def deliveredIn (roomId : Bytes) (log : List Entry) : List (Message × Bytes) :=
  log.foldl (deliveredStep roomId) []

/-- One entry's share in the messages accepted in a room. -/
def acceptedStep (roomId : Bytes) (acc : List Message) : Entry → List Message
  | .opened r => if r = roomId then [] else acc
  | .accepted message => if message.roomId = roomId then acc ++ [message] else acc
  | _ => acc

/-- The messages accepted in a room since its creation. -/
def acceptedIn (roomId : Bytes) (log : List Entry) : List Message :=
  log.foldl (acceptedStep roomId) []

theorem deliveredIn_append (r : Bytes) (log log' : List Entry) :
    deliveredIn r (log ++ log') = log'.foldl (deliveredStep r) (deliveredIn r log) :=
  List.foldl_append

theorem acceptedIn_append (r : Bytes) (log log' : List Entry) :
    acceptedIn r (log ++ log') = log'.foldl (acceptedStep r) (acceptedIn r log) :=
  List.foldl_append

/-! ## Watched runs -/

namespace Machine

/-- A step of the machine, watched. -/
def WatchStep (ok : Machine → Label → Prop) (p p' : Machine × Watch) : Prop :=
  ∃ l, ok p.1 l ∧ p.1.next l = some p'.1 ∧ p'.2 = p.2.observe p.1 l p'.1

/-- The machine is reached by a run from a start of the server, and the watch has been kept. -/
def Watched (ok : Machine → Label → Prop) (db : Database) (listenSocket : SOCKET) (m : Machine)
    (w : Watch) : Prop :=
  Relation.ReflTransGen (WatchStep ok) (boot db listenSocket, {}) (m, w)

/-- One step of a watched run: no more than a reading of the clock or the shutdown signal, the end of
a cleanup thread's sleep, or an action under the contract of its thread. -/
inductive Move (m : Machine) (g : Note) (w : Watch) : Label → Machine → Note → Watch → Prop where
  | rest {l : Label} {m' : Machine} (hs : m'.globals = { m.globals with
      steadyNow := m'.globals.steadyNow
      shutdownRequested := m'.globals.shutdownRequested }) : Move m g w l m' g w
  | wake {i : Nat} {m' : Machine} (hs : m'.globals = { m.globals with
      pendingCleanups := m.globals.pendingCleanups.eraseIdx i }) : Move m g w (.wake i) m' g w
  | main {e : Env} {m' : Machine} {g' : Note} (H : List Mutex)
      (hd : MainDeed H g g' e m.globals m'.globals) : Move m g w (.run .main e) m' g'
        { w with log := w.log ++ mainEntries m.globals m'.globals }
  | broadcast {e : Env} {m' : Machine} (hd : w.hand.Acts e m.globals m'.globals) :
      Move m g w (.run .broadcaster e) m' g
        { hand := w.hand.advance m.globals m'.globals
          log := w.log ++ w.hand.entries e m.globals m'.globals }
  | sweep {n : Nat} {e : Env} {m' : Machine} (roomId : Bytes)
      (hs : m'.globals = (Effect.sweep roomId).apply e m.globals) :
      Move m g w (.run (.cleanup n) e) m' g w

variable {ok : Machine → Label → Prop} {db : Database} {listenSocket : SOCKET} {m m' : Machine}
  {w w' : Watch}

theorem move_of_stride {note note' : Tid → Note} {l : Label} (h : Stride note note' m l m')
    (hw : (note .broadcaster).hand = w.hand) :
    (note' .broadcaster).hand = (w.observe m l m').hand ∧
      Move m (note .main) w l m' (note' .main) (w.observe m l m') := by
  cases h with
  | rest hn hs hl =>
      -- the watch takes note of actions only
      have hsame : w.observe m l m' = w := by
        cases l with
        | run t e =>
            have hact := hl t e rfl
            cases t with
            | main => simp [Watch.observe, hact]
            | broadcaster => simp [Watch.observe, hact]
            | cleanup n => rfl
        | _ => rfl
      rw [hn, hsame]
      exact ⟨hw, .rest hs⟩
  | wake hn hs =>
      rw [hn]
      exact ⟨hw, .wake hs⟩
  | @act t e m' H g' hn hact hg =>
      cases t with
      | main =>
          have hobs : w.observe m (.run .main e) m' =
              { w with log := w.log ++ mainEntries m.globals m'.globals } := by
            simp [Watch.observe, hact]
          rw [hn, hobs, Function.update_self, Function.update_of_ne (by decide)]
          exact ⟨hw, .main H hg⟩
      | broadcaster =>
          have hobs : w.observe m (.run .broadcaster e) m' =
              { hand := w.hand.advance m.globals m'.globals
                log := w.log ++ w.hand.entries e m.globals m'.globals } := by
            simp [Watch.observe, hact]
          have hd : BroadcastDeed H (note .broadcaster) g' e m.globals m'.globals := hg
          rw [hn, hobs, Function.update_self, Function.update_of_ne (by decide)]
          refine ⟨?_, .broadcast ?_⟩
          · rw [hd.note, hw]
          · rw [← hw]
            exact hd.acts
      | cleanup n =>
          have hd : CleanupDeed H (note (.cleanup n)) g' e m.globals m'.globals := hg
          obtain ⟨roomId, hs⟩ := hd.sweeps
          rw [hn, Function.update_of_ne (by simp), Function.update_of_ne (by simp)]
          exact ⟨hw, .sweep roomId hs⟩

/-- A watched run is a run. -/
theorem Watched.run (h : Watched ok db listenSocket m w) :
    Relation.ReflTransGen (Step ok) (boot db listenSocket) m := by
  have hrun : Relation.ReflTransGen (WatchStep ok) (boot db listenSocket, {}) (m, w) := h
  refine hrun.lift Prod.fst ?_
  rintro p p' ⟨l, hok, hnext, -⟩
  exact ⟨l, hok, hnext⟩

theorem Watched.reachable (h : Watched ok db listenSocket m w) : Reachable ok m :=
  ⟨db, listenSocket, h.run⟩

/-- Every run can be watched. -/
theorem exists_watched (h : Relation.ReflTransGen (Step ok) (boot db listenSocket) m) :
    ∃ w, Watched ok db listenSocket m w := by
  induction h with
  | refl => exact ⟨{}, .refl⟩
  | @tail m m' _ hstep ih =>
      obtain ⟨w, hw⟩ := ih
      obtain ⟨l, hok, hnext⟩ := hstep
      exact ⟨w.observe m l m', hw.tail ⟨l, hok, hnext, rfl⟩⟩

/-- The contracts are honoured along a watched run, with the hand of the watch. What a boot has, and
every step of every thread keeps under the contract of the thread, holds along the run. -/
theorem Watched.honoured_induction {P : Machine → Note → Watch → Prop}
    (h : Watched ok db listenSocket m w) (hboot : P (boot db listenSocket) {} {})
    (hmove : ∀ (m : Machine) (g : Note) (w : Watch) (l : Label) (m' : Machine) (g' : Note),
      Watched ok db listenSocket m w → ok m l → m.next l = some m' → P m g w →
        Move m g w l m' g' (w.observe m l m') → P m' g' (w.observe m l m')) :
    ∃ note, m.Honoured note ∧ (note .broadcaster).hand = w.hand ∧ P m (note .main) w := by
  have hall : ∀ p : Machine × Watch,
      Relation.ReflTransGen (WatchStep ok) (boot db listenSocket, {}) p →
        ∃ note, p.1.Honoured note ∧ (note .broadcaster).hand = p.2.hand ∧
          P p.1 (note .main) p.2 := by
    intro p hrun
    -- on the run of machine and watch; the note is carried along beside them
    induction hrun with
    | refl => exact ⟨fun _ => {}, honoured_boot db listenSocket, rfl, hboot⟩
    | @tail q q' hrun hstep ih =>
        obtain ⟨l, hok, hnext, hw⟩ := hstep
        obtain ⟨note, hh, hhand, hP⟩ := ih
        have hreach : Reachable anyStep q.1 :=
          (Watched.reachable hrun).mono fun _ _ _ => trivial
        obtain ⟨note', hh', hstride⟩ := hh.next hreach hnext
        obtain ⟨hhand', hmv⟩ := move_of_stride hstride hhand
        rw [hw]
        exact ⟨note', hh', hhand', hmove _ _ _ _ _ _ hrun hok hnext hP hmv⟩
  exact hall _ h

/-- The rule for watched runs. The note is that of the main thread; it is blank while no handler is in
progress. -/
theorem Watched.induction {P : Machine → Note → Watch → Prop}
    (h : Watched ok db listenSocket m w) (hboot : P (boot db listenSocket) {} {})
    (hmove : ∀ (m : Machine) (g : Note) (w : Watch) (l : Label) (m' : Machine) (g' : Note),
      Watched ok db listenSocket m w → ok m l → m.next l = some m' → P m g w →
        Move m g w l m' g' (w.observe m l m') → P m' g' (w.observe m l m')) :
    ∃ g, (m.Idle → g = {}) ∧ P m g w := by
  obtain ⟨note, hh, -, hP⟩ := h.honoured_induction hboot hmove
  exact ⟨note .main, fun hidle => hh.note_of_done hidle, hP⟩

/-- Every step that continues a watched run is a move. -/
theorem Watched.move (h : Watched ok db listenSocket m w) {l : Label} (hnext : m.next l = some m') :
    ∃ g g', Move m g w l m' g' (w.observe m l m') := by
  obtain ⟨note, hh, hhand, -⟩ := h.honoured_induction (P := fun _ _ _ => True) trivial
    fun _ _ _ _ _ _ _ _ _ _ _ => trivial
  obtain ⟨note', -, hstride⟩ := hh.next (h.reachable.mono fun _ _ _ => trivial) hnext
  exact ⟨note .main, note' .main, (move_of_stride hstride hhand).2⟩

/-! ## Executable watched runs -/

/-- Take the steps of a list one after the other; those that cannot occur are skipped. -/
def play : Machine × Watch → List Label → Machine × Watch
  | p, [] => p
  | p, l :: ls =>
      match p.1.next l with
      | some m' => play (m', p.2.observe p.1 l m') ls
      | none => play p ls

theorem play_watched : ∀ (ls : List Label) (p : Machine × Watch),
    (∀ l ∈ ls, ∀ m, ok m l) → Relation.ReflTransGen (WatchStep ok) p (play p ls)
  | [], p, _ => .refl
  | l :: ls, p, hok => by
      have hrest : ∀ l ∈ ls, ∀ m, ok m l := fun l' hl' => hok l' (List.mem_cons_of_mem _ hl')
      rw [play]
      cases hl : p.1.next l with
      | some m' =>
          exact Relation.ReflTransGen.head ⟨l, hok l List.mem_cons_self p.1, hl, rfl⟩
            (play_watched ls _ hrest)
      | none => exact play_watched ls p hrest

/-- A property of the machine and the watch after the steps `ls` is one of a watched run. -/
theorem watched_of_play (ok : Machine → Label → Prop) (ls : List Label)
    (hok : ∀ l ∈ ls, ∀ m, ok m l) (p : Machine → Watch → Bool)
    (h : p (play (boot {} 3, {}) ls).1 (play (boot {} 3, {}) ls).2 = true) :
    ∃ m w, Watched ok {} 3 m w ∧ p m w = true :=
  ⟨_, _, play_watched ls (boot {} 3, {}) hok, h⟩

/-- The main thread handles an event to its end. -/
def serving (ev : Event) (draw : Fin 900000) : List Label :=
  .event ev :: List.replicate 40 (.run .main (.midnight draw))

/-- The broadcaster makes one round. -/
def delivering : List Label := .round :: List.replicate 20 (.run .broadcaster (.midnight 0))

end Machine

end TerminalChat.Server
