import Mathlib
import TerminalChat.Server.Handlers

/-!
# The running server

The broadcaster thread, the detached cleanup threads and the main thread of the server as one
machine. The main thread starts a handler for an event of the poll loop whenever it is idle; the
broadcaster starts the next round of its loop; a sleeping cleanup thread wakes up at any later
moment; and any thread may take its next step (`Machine.next`).
-/

set_option autoImplicit false

namespace TerminalChat.Server

open TerminalChat.Concurrency TerminalChat.Text

/-! ## The broadcaster -/

/-- The line that `broadcastMessages` builds for a chat message. -/
def chatText (timestamp senderName content : Bytes) : Bytes :=
  timestamp ++ str " " ++ senderName ++ str ": " ++ content ++ str "\n"

/-- The delivery of a chat message, under `g_chatRoomsMutex`. -/
def deliverPublic (message : Message) : Sect Unit := do
  let timestamp ← getCurrentTimestamp 0
  let formattedMessage := chatText timestamp message.senderName message.content
  tellRoom message.roomId fun room => room.addMessageToHistory formattedMessage
  broadcast message.roomId formattedMessage message.senderSocket
  tellDatabase 0 fun e calls db =>
    db.saveMessage calls e.utc.text message.roomId message.senderName message.content false []

/-- The line that `broadcastMessages` builds for the recipient of a private message, and for its
sender. -/
def privateText (timestamp : Bytes) (tag : String) (name content : Bytes) : Bytes :=
  timestamp ++ str " " ++ str tag ++ name ++ str ":" ++ content ++ str "\n"

/-- The delivery of a private message, under `g_chatRoomsMutex`, once the recipient has been looked
up. -/
def deliverPrivate (message : Message) (recipientSocket : SOCKET) : Sect Unit := do
  if recipientSocket = INVALID_SOCKET then
    sendToClient message.senderSocket
      (str "ERROR: User '" ++ message.recipientName ++ str "' not found in this room\n")
  else
    let timestamp ← getCurrentTimestamp 0
    sendToClient recipientSocket
      (privateText timestamp "PM_FROM:" message.senderName message.content)
    sendToClient message.senderSocket
      (privateText timestamp "PM_SENT:" message.recipientName message.content)
    tellDatabase 0 fun e calls db => db.saveMessage calls e.utc.text message.roomId
      message.senderName message.content true message.recipientName

/-- Take the front of `g_messageQueue`. -/
def popMessage : Sect (Option Message) :=
  ⟨fun _ s => ⟨s.messageQueue.head?, { s with messageQueue := s.messageQueue.tail }, []⟩⟩

/-- What `broadcastMessages` does with a message it has taken from the queue. -/
def deliverMessage (message : Message) : Thread Unit :=
  Prog.holding .chatRoomsMutex do
    if ← step (roomExists message.roomId) then
      if message.isPrivate then
        let recipientSocket ← findClientByUsername message.recipientName message.roomId
        step (deliverPrivate message recipientSocket)
      else
        step (deliverPublic message)

/-- One round of the loop in `broadcastMessages`. The wait on `g_messageCV` releases the queue mutex
and takes it again; it returns when there is a message, at shutdown, or after its timeout. -/
def broadcastRound : Thread Unit := do
  let stop ← step (.read fun _ s => s.shutdownRequested)
  if stop then
    pure ()
  else
    let message ← Prog.holding .queueMutex do
      let ready ← step (.read fun _ s => !s.messageQueue.isEmpty || s.shutdownRequested)
      if ready then
        pure ()
      else
        .unlock .queueMutex (.lock .queueMutex (pure ()))
      step popMessage
    match message with
    | none => pure ()
    | some message => deliverMessage message

/-! ## The machine -/

/-- The threads of the server. Cleanup threads are numbered in the order in which they wake up. -/
inductive Tid where
  | main
  | broadcaster
  | cleanup (n : Nat)
  deriving DecidableEq

/-- The server process: its threads, and the number of cleanup threads that have woken up. -/
structure Machine where
  config : Config Tid Mutex Env Globals
  woken : Nat

/-- An event of the poll loop, for which the main thread runs a handler. -/
inductive Event where
  | connect (s : SOCKET)
  | receive (s : SOCKET) (buffer : Bytes)
  | hangup (s : SOCKET)
  deriving DecidableEq

/-- The handler of an event. -/
def Event.handler : Event → Thread Unit
  | .connect s => acceptClient s
  | .receive s buffer => handleClientMessage s buffer
  | .hangup s => handleClientDisconnect s

/-- The client whose event it is. -/
def Event.socket : Event → SOCKET
  | .connect sock => sock
  | .receive sock _ => sock
  | .hangup sock => sock

/-- The command in a received text. -/
def Request.command? : Request → Option Command
  | .command c => some c
  | _ => none

/-- The command of an event. -/
def Event.command : Event → Option Command
  | .receive _ buffer => (actedText buffer).bind fun text => (parseText text).command?
  | _ => none

/-- When an event can occur: `accept` gives a valid socket that is not open, and `recv` gives between
one and `BUFFER_SIZE - 1` bytes from a connected client. -/
def Event.CanOccur (s : Globals) : Event → Prop
  | .connect sock => sock ≠ INVALID_SOCKET ∧ sock ∉ s.clients
  | .receive sock buffer =>
      sock ∈ s.clients ∧ buffer ≠ [] ∧ buffer.length ≤ BUFFER_SIZE - 1
  | .hangup _ => True

instance (s : Globals) (ev : Event) : Decidable (ev.CanOccur s) := by
  cases ev <;> simp only [Event.CanOccur] <;> infer_instance

/-- A step of the machine: the main thread starts a handler, the broadcaster starts a round, a
cleanup thread wakes up, a thread takes a step, the steady clock advances, or the shutdown signal
arrives. -/
inductive Label where
  | event (ev : Event)
  | round
  | wake (i : Nat)
  | run (t : Tid) (e : Env)
  | tick (d : Nat)
  | signal

namespace Machine

/-- The globals. -/
def globals (m : Machine) : Globals := m.config.shared

/-- No handler is in progress. -/
def Idle (m : Machine) : Prop := (m.config.prog .main).isDone = true

instance (m : Machine) : Decidable m.Idle := inferInstanceAs (Decidable (_ = true))

/-- One step of the machine; none where the label cannot occur. -/
def next (m : Machine) : Label → Option Machine
  | .event ev =>
      if m.Idle ∧ ev.CanOccur m.globals then
        some { m with config := m.config.start .main ev.handler }
      else none
  | .round =>
      if (m.config.prog .broadcaster).isDone then
        some { m with config := m.config.start .broadcaster broadcastRound }
      else none
  | .wake i =>
      match m.globals.pendingCleanups[i]? with
      | some roomId => some
          { config := (m.config.setShared { m.globals with
              pendingCleanups := m.globals.pendingCleanups.eraseIdx i }).start
                (.cleanup m.woken) (cleanupEmptyRoom roomId)
            woken := m.woken + 1 }
      | none => none
  | .run t e => (m.config.stepThread t e).map fun c => { m with config := c }
  | .tick d => some { m with config := m.config.setShared { m.globals with
      steadyNow := m.globals.steadyNow + d } }
  | .signal => some { m with config := m.config.setShared { m.globals with
      shutdownRequested := true } }

/-- The machine when the main loop starts. -/
def boot (db : Database) (listenSocket : SOCKET) : Machine where
  config := { shared := .boot db listenSocket, owner := fun _ => none, prog := fun _ => .ret () }
  woken := 0

/-- `m'` follows `m` by a step whose label satisfies `ok` in the globals of `m`. -/
def Step (ok : Machine → Label → Prop) (m m' : Machine) : Prop :=
  ∃ l, ok m l ∧ m.next l = some m'

/-- The machines reached by a run from some boot, all of whose steps satisfy `ok`. -/
def Reachable (ok : Machine → Label → Prop) (m : Machine) : Prop :=
  ∃ db listenSocket, Relation.ReflTransGen (Step ok) (boot db listenSocket) m

/-- Every step is allowed. -/
def anyStep : Machine → Label → Prop := fun _ _ => True

/-- Handlers start only where `cond` allows their event. -/
def eventsIn (cond : Globals → Event → Prop) : Machine → Label → Prop
  | m, .event ev => cond m.globals ev
  | _, _ => True

theorem Reachable.mono {ok ok' : Machine → Label → Prop} (h : ∀ m l, ok m l → ok' m l)
    {m : Machine} (hm : Reachable ok m) : Reachable ok' m := by
  obtain ⟨db, listenSocket, hrun⟩ := hm
  refine ⟨db, listenSocket, hrun.lift id ?_⟩
  rintro m₁ m₂ ⟨l, hl, hn⟩
  exact ⟨l, h m₁ l hl, hn⟩

/-- The machine handles `ev` from `m` to `m'`: it starts the handler, and takes steps other than
events until no handler is in progress. -/
def Handles (m : Machine) (ev : Event) (m' : Machine) : Prop :=
  ∃ m₁, m.next (.event ev) = some m₁ ∧
    Relation.ReflTransGen (Step fun _ l => ∀ ev, l ≠ .event ev) m₁ m' ∧ m'.Idle

/-! ## Executable runs -/

/-- Run a list of labels, each from a machine that passes the check. -/
def exec (check : Machine → Bool) : Machine → List Label → Option Machine
  | m, [] => some m
  | m, l :: ls => if check m then (m.next l).bind fun m' => m'.exec check ls else none

/-- An executed list of labels is a run. -/
theorem exec_reaches {ok : Machine → Label → Prop} {check : Machine → Bool}
    (hok : ∀ m l, check m = true → ok m l) : ∀ (ls : List Label) (m m' : Machine),
      m.exec check ls = some m' → Relation.ReflTransGen (Step ok) m m'
  | [], m, m', h => by
      simp only [exec, Option.some.injEq] at h
      rw [h]
  | l :: ls, m, m', h => by
      simp only [exec, Option.ite_none_right_eq_some, Option.bind_eq_some_iff] at h
      obtain ⟨hc, m₁, h₁, h₂⟩ := h
      exact Relation.ReflTransGen.head ⟨l, hok m l hc, h₁⟩ (exec_reaches hok ls m₁ m' h₂)

/-- Let the main thread run, for at most `fuel` steps, until no handler is in progress. -/
def finish (e : Env) : Nat → Machine → Machine
  | 0, m => m
  | fuel + 1, m =>
      match m.next (.run .main e) with
      | some m' => m'.finish e fuel
      | none => m

theorem finish_reaches {ok : Machine → Label → Prop} {e : Env}
    (hok : ∀ m, ok m (.run .main e)) : ∀ (fuel : Nat) (m : Machine),
      Relation.ReflTransGen (Step ok) m (m.finish e fuel)
  | 0, _ => .refl
  | fuel + 1, m => by
      rw [finish]
      split
      · rename_i m' h
        exact Relation.ReflTransGen.head ⟨.run .main e, hok m, h⟩ (finish_reaches hok fuel m')
      · exact .refl

/-- Handle one event without interference, when `cond` allows it. -/
def serve (cond : Globals → Event → Prop) [∀ s ev, Decidable (cond s ev)] (m : Machine)
    (ev : Event) (draw : Fin 900000) : Option Machine :=
  if cond m.globals ev then
    (m.next (.event ev)).map fun m' => m'.finish (.midnight draw) 60
  else none

/-- Handle events one after the other. -/
def serveAll (cond : Globals → Event → Prop) [∀ s ev, Decidable (cond s ev)] :
    Machine → List (Event × Fin 900000) → Option Machine
  | m, [] => some m
  | m, (ev, draw) :: evs => (m.serve cond ev draw).bind fun m' => m'.serveAll cond evs

theorem serveAll_reaches (cond : Globals → Event → Prop) [∀ s ev, Decidable (cond s ev)] :
    ∀ (evs : List (Event × Fin 900000)) (m m' : Machine), m.serveAll cond evs = some m' →
      Relation.ReflTransGen (Step (eventsIn cond)) m m'
  | [], m, m', h => by
      simp only [serveAll, Option.some.injEq] at h
      rw [h]
  | (ev, draw) :: evs, m, m', h => by
      simp only [serveAll, serve, Option.bind_eq_some_iff, Option.ite_none_right_eq_some,
        Option.map_eq_some_iff] at h
      obtain ⟨m₁, ⟨hc, m₀, h₀, rfl⟩, h₁⟩ := h
      refine Relation.ReflTransGen.head ⟨.event ev, hc, h₀⟩ ?_
      exact (finish_reaches (fun _ => trivial) 60 m₀).trans (serveAll_reaches cond evs _ _ h₁)

/-- The machine after the events `evs`, each handled without interference. -/
def after (cond : Globals → Event → Prop) [∀ s ev, Decidable (cond s ev)]
    (evs : List (Event × Fin 900000)) : Option Machine :=
  (boot {} 3).serveAll cond evs

section After

variable (cond : Globals → Event → Prop) [∀ s ev, Decidable (cond s ev)]

/-- A property of the machine after `evs` is one of a reachable machine. -/
theorem reachable_of_after (evs : List (Event × Fin 900000)) (p : Machine → Bool)
    (h : (after cond evs).any p = true) : ∃ m, Reachable (eventsIn cond) m ∧ p m = true := by
  obtain ⟨m, hm, hp⟩ := (Option.any_eq_true _ _).1 h
  exact ⟨m, ⟨_, _, serveAll_reaches cond evs _ m hm⟩, hp⟩

/-- The same for the machine before and after one more event. -/
theorem handles_of_after (evs : List (Event × Fin 900000)) (ev : Event) (draw : Fin 900000)
    (p : Machine → Machine → Bool) (h : ((after cond evs).any fun m =>
      (m.serve cond ev draw).any fun m' => decide m'.Idle && p m m') = true) :
    ∃ m m', Reachable (eventsIn cond) m ∧ m.Handles ev m' ∧ p m m' = true := by
  obtain ⟨m, hm, h'⟩ := (Option.any_eq_true _ _).1 h
  obtain ⟨m', hm', hp⟩ := (Option.any_eq_true _ _).1 h'
  rw [Bool.and_eq_true, decide_eq_true_eq] at hp
  simp only [serve, Option.ite_none_right_eq_some, Option.map_eq_some_iff] at hm'
  obtain ⟨-, m₀, h₀, rfl⟩ := hm'
  refine ⟨m, _, ⟨_, _, serveAll_reaches cond evs _ m hm⟩, ⟨m₀, h₀, ?_, hp.1⟩, hp.2⟩
  exact finish_reaches (fun _ ev => by simp) 60 m₀

end After

end Machine

end TerminalChat.Server
