import Mathlib
import TerminalChat.Client.Core
import TerminalChat.Client.Process
import TerminalChat.System.Delivery

/-!
# Clients with their threads

In the network a client reads a line, handles it and sends what comes of it in one move. The client
process does this in several actions of its sender, while its receiver goes on, and a send may fail. Here
are the server and client processes with their connections. What they do, a network does: a move of the
network stands for the action that commits the sender to a text, and a text that is committed and not yet
sent is already on its way there. What is proved about networks then holds of the processes
(`Deployment.threads_track_server`).
-/

set_option autoImplicit false

namespace TerminalChat.System

open TerminalChat.Concurrency TerminalChat.Text TerminalChat.Server TerminalChat.Client

/-- A client process with its connection: the texts on their way to the server, and the bytes on their way to
the client. -/
structure Terminal where
  process : ClientProcess := {}
  outgoing : List Bytes := []
  incoming : Bytes := []

namespace Terminal

/-- What a socket operation of the server does to the terminal of the client `c`. -/
def observe (c : SOCKET) (t : Terminal) : NetOp → Terminal
  | .accepted sock => if sock = c then {} else t
  | .sent sock text => if sock = c then { t with incoming := t.incoming ++ text } else t
  | .replayed sock text => if sock = c then { t with incoming := t.incoming ++ text } else t
  | .closed _ => t

/-- The server has received the first text on its way. -/
def received (c : SOCKET) (t : Terminal) : Label → Terminal
  | .event (.receive sock _) => if sock = c then { t with outgoing := t.outgoing.tail } else t
  | _ => t

/-- The process has come to `p`; what it has sent meanwhile is on its way. -/
def advance (t : Terminal) (p : ClientProcess) : Terminal :=
  { t with
    process := p
    outgoing := t.outgoing ++ ClientProcess.sentTexts (p.trace.drop t.process.trace.length) }

/-- One step of the process: `getline` takes a line of what is typed, and `recv` gives bytes that are on their
way. -/
def next (t : Terminal) : ClientLabel → Option Terminal
  | .type typed => (t.process.next (.type (getline typed))).map t.advance
  | .recv (.bytes buffer) =>
      -- the bytes keep their order; how many come at once is open
      if buffer <+: t.incoming then
        (t.process.next (.recv (.bytes buffer))).map fun p =>
          { t.advance p with incoming := t.incoming.drop buffer.length }
      else none
  | l => (t.process.next l).map t.advance

/-- Nothing is on its way to the client, or not decoded. -/
def Caught (t : Terminal) : Prop := t.incoming = [] ∧ t.process.incompleteMessage = []

instance (t : Terminal) : Decidable t.Caught := inferInstanceAs (Decidable (_ ∧ _))

end Terminal

/-- The server process and the terminals by their sockets. -/
structure Deployment where
  server : Machine
  terminal : SOCKET → Terminal

/-- A step of the server, or of a client process. -/
inductive DeploymentMove where
  | server (l : Label)
  | client (c : SOCKET) (l : ClientLabel)

namespace Deployment

/-- The server receives only the first text on its way. -/
def Supplies (d : Deployment) : Label → Prop
  | .event (.receive c line) => (d.terminal c).outgoing.head? = some line
  | _ => True

instance (d : Deployment) : (l : Label) → Decidable (d.Supplies l)
  | .event (.receive c line) => inferInstanceAs (Decidable ((d.terminal c).outgoing.head? = some line))
  | .event (.connect _) => .isTrue trivial
  | .event (.hangup _) => .isTrue trivial
  | .round => .isTrue trivial
  | .wake _ => .isTrue trivial
  | .run _ _ => .isTrue trivial
  | .tick _ => .isTrue trivial
  | .signal => .isTrue trivial

/-- The deployment after a step of the server from `d.server` to `m`. -/
def serve (d : Deployment) (l : Label) (m : Machine) : Deployment where
  server := m
  terminal c := (opsBetween d.server.globals m.globals).foldl (Terminal.observe c)
    ((d.terminal c).received c l)

/-- Update one terminal. -/
def setTerminal (d : Deployment) (c : SOCKET) (t : Terminal) : Deployment :=
  { d with terminal := Function.update d.terminal c t }

/-- One step; none where the move cannot occur. -/
def next (d : Deployment) : DeploymentMove → Option Deployment
  | .server l => if d.Supplies l then (d.server.next l).map (d.serve l) else none
  | .client c l => ((d.terminal c).next l).map (d.setTerminal c)

/-- The deployment when the main loop of the server starts. -/
def boot (db : Database) (listenSocket : SOCKET) : Deployment where
  server := .boot db listenSocket
  terminal _ := {}

/-- `d'` follows `d` by a move; where the server moves, its label satisfies `ok`. -/
def Step (ok : Machine → Label → Prop) (d d' : Deployment) : Prop :=
  ∃ mv, (∀ l, mv = .server l → ok d.server l) ∧ d.next mv = some d'

end Deployment

/-! ## What a network makes of it -/

/-- The text that the sender is committed to. -/
def inHand : SenderPlace → List Bytes
  | .storing username => [str "/SETNAME " ++ username]
  | .sendingName username => [str "/SETNAME " ++ username]
  | .sending message => [message]
  | _ => []

/-- The endpoint stands for the terminal: both have the same bytes and, flags and name apart, the same state; a
text in the hand of the sender is on its way already. A sender that has returned may have failed to send its
text. The endpoint never raises the flag. -/
structure Terminal.Shadows (t : Terminal) (ep : Endpoint) : Prop where
  core : ep.state.core = t.process.state.core
  going : ep.state.shouldExit = false
  incompleteMessage : ep.incompleteMessage = t.process.incompleteMessage
  incoming : ep.incoming = t.incoming
  outgoing : ∃ extra, ep.outgoing = t.outgoing ++ extra ∧
    (t.process.sender ≠ .returned → extra = inHand t.process.sender)
  typed : ∀ line, t.process.sender = .handling line → ∃ typed, line = getline typed

/-- A move of the network at a client that has not raised the flag, or none. -/
def Endpoint.Moves (ep ep' : Endpoint) : Prop :=
  ep' = ep ∨ (∃ typed, ep' = ep.typeName typed) ∨ (∃ typed, ep' = ep.typeLine typed) ∨
    (∃ k, ep' = ep.deliver k) ∨ ep.decode = some ep'

namespace Terminal

variable {c : SOCKET} {t t' : Terminal} {ep : Endpoint} {p p' : ClientProcess}

theorem shadows_start : ({} : Terminal).Shadows {} :=
  ⟨rfl, rfl, rfl, rfl, ⟨[], rfl, fun _ => rfl⟩, by simp⟩

theorem advance_of_same (h : p.trace = t.process.trace) : t.advance p = { t with process := p } := by
  simp [advance, h, ClientProcess.sentTexts]

/-- A step that sends nothing. -/
theorem shadows_advance (h : ({ t with process := p } : Terminal).Shadows ep)
    (htrace : p.trace = t.process.trace) : (t.advance p).Shadows ep := by
  rw [advance_of_same htrace]
  exact h

theorem advance_of_sent {text : Bytes} (h : p.trace = t.process.trace ++ [.sent text]) :
    t.advance p = { t with process := p, outgoing := t.outgoing ++ [text] } := by
  simp [advance, h, ClientProcess.sentTexts]

/-- A step that nobody else sees. -/
theorem Shadows.still (h : t.Shadows ep) (htrace : p.trace = t.process.trace)
    (hcore : p.state.core = t.process.state.core) (hsame : p.incompleteMessage = t.process.incompleteMessage)
    (hhand : p.sender ≠ .returned → t.process.sender ≠ .returned ∧ inHand p.sender = inHand t.process.sender)
    (htyped : ∀ line, p.sender = .handling line → ∃ typed, line = getline typed) :
    (t.advance p).Shadows ep := by
  rw [advance_of_same htrace]
  obtain ⟨extra, hout, hextra⟩ := h.outgoing
  refine ⟨h.core.trans hcore.symm, h.going, h.incompleteMessage.trans hsame.symm, h.incoming,
    ⟨extra, hout, ?_⟩, htyped⟩
  intro hs
  obtain ⟨hbefore, hin⟩ := hhand hs
  exact (hextra hbefore).trans hin.symm

/-- A step of another thread of the client that nobody else sees. -/
theorem Shadows.aside (h : t.Shadows ep) (htrace : p.trace = t.process.trace)
    (hcore : p.state.core = t.process.state.core) (hsame : p.incompleteMessage = t.process.incompleteMessage)
    (hsender : p.sender = t.process.sender) : (t.advance p).Shadows ep := by
  apply h.still htrace hcore hsame
  · intro hs
    exact ⟨hsender ▸ hs, congrArg inHand hsender⟩
  · intro line hline
    exact h.typed line (hsender.symm.trans hline)

/-- The text in the hand of the sender is sent, or the sender gives up. -/
theorem Shadows.transmit (h : t.Shadows ep) {text : Bytes} {place : SenderPlace} {fails : Bool}
    (hs : t.process.sender ≠ .returned) (hhand : inHand t.process.sender = [text]) (hplace : inHand place = [])
    (htyped : ∀ line, place ≠ .handling line) :
    (t.advance (t.process.transmit text fails place)).Shadows ep := by
  cases fails with
  | true =>
      -- the text stays on its way in the network, where the server never receives it
      apply h.still
      · rfl
      · rfl
      · rfl
      · intro hne
        exact absurd rfl hne
      · intro line hline
        cases hline
  | false =>
      have hsent : (t.process.transmit text false place).trace = t.process.trace ++ [.sent text] := rfl
      rw [advance_of_sent hsent]
      obtain ⟨extra, hout, hextra⟩ := h.outgoing
      refine ⟨h.core, h.going, h.incompleteMessage, h.incoming, ⟨[], ?_, fun _ => hplace.symm⟩, ?_⟩
      · rw [hout, hextra hs, hhand, List.append_nil]
      · intro line hline
        exact absurd hline (htyped line)

/-- The steps of the sender. -/
theorem Shadows.sender (h : t.Shadows ep) {fails : Bool} (hnext : t.process.senderNext fails = some p) :
    ∃ ep', ep.Moves ep' ∧ (t.advance p).Shadows ep' := by
  unfold ClientProcess.senderNext at hnext
  cases hs : t.process.sender with
  | handling line =>
      obtain ⟨typed, rfl⟩ := h.typed line hs
      obtain ⟨extra, hout, hextra⟩ := h.outgoing
      have hnone : extra = [] := by simpa [hs, inHand] using hextra (by simp [hs])
      have hturn := handleInput_congr h.core (getline typed)
      have hsent : (handleInput ep.state (getline typed)).sent =
          (handleInput t.process.state (getline typed)).sent := (congrArg Turn.sent hturn :)
      have hcore : (handleInput ep.state (getline typed)).state.core =
          (handleInput t.process.state (getline typed)).state.core := (congrArg Turn.state hturn :)
      simp only [hs] at hnext
      by_cases hquit : trim (getline typed) = str "quit" ∨ trim (getline typed) = str "exit"
      · -- the network knows no `quit`: its client stays there and is silent
        simp only [handleInput_quit hquit, skip, if_pos hquit, Option.some.injEq] at hnext
        subst hnext
        refine ⟨ep, Or.inl rfl, h.still rfl rfl rfl (fun hne => absurd rfl hne) ?_⟩
        simp
      · have hgoing : (handleInput ep.state (getline typed)).state.shouldExit = false := by
          rw [shouldExit_handleInput, h.going]
          simpa using hquit
        refine ⟨ep.typeLine typed, Or.inr (Or.inr (Or.inl ⟨typed, rfl⟩)), ?_⟩
        obtain ⟨place, rfl, hplace, hnot⟩ : ∃ place, p = { t.process with
            state := (handleInput t.process.state (getline typed)).state
            sender := place } ∧
              inHand place = (handleInput t.process.state (getline typed)).sent.toList.map (·.1) ∧
                ∀ line, place ≠ .handling line := by
          split at hnext
          · rename_i message v hmessage
            exact ⟨.sending message, (Option.some.inj hnext).symm, by simp [hmessage, inHand], by simp⟩
          · rename_i hmessage
            rw [if_neg hquit] at hnext
            exact ⟨.inputTest, (Option.some.inj hnext).symm, by simp [hmessage, inHand], by simp⟩
        refine shadows_advance ?_ rfl
        refine ⟨hcore, hgoing, h.incompleteMessage, h.incoming, ⟨inHand place, ?_, fun _ => rfl⟩, ?_⟩
        · show ep.outgoing ++ _ = _
          rw [hout, hnone, List.append_nil, hsent, hplace]
        · intro line hline
          exact absurd hline (hnot line)
  -- the network has made its move before: at the prompt for a name, or when the line was handled
  | sendingName username =>
      simp only [hs, Option.some.injEq] at hnext
      subst hnext
      exact ⟨ep, Or.inl rfl, h.transmit (by simp [hs]) (by simp [hs, inHand]) rfl (by simp)⟩
  | sending message =>
      simp only [hs, Option.some.injEq] at hnext
      subst hnext
      exact ⟨ep, Or.inl rfl, h.transmit (by simp [hs]) (by simp [hs, inHand]) rfl (by simp)⟩
  | waiting =>
      simp only [hs, Option.ite_none_left_eq_some, Option.some.injEq] at hnext
      obtain ⟨-, rfl⟩ := hnext
      exact ⟨ep, Or.inl rfl, h.still rfl rfl rfl (by simp [hs, inHand]) (by simp)⟩
  | namePrompt => simp [hs] at hnext
  | inputPrompt => simp [hs] at hnext
  | returned => simp [hs] at hnext
  | storing username =>
      simp only [hs, Option.some.injEq] at hnext
      subst hnext
      exact ⟨ep, Or.inl rfl, h.still rfl rfl rfl (by simp [hs, inHand]) (by simp)⟩
  | raising =>
      simp only [hs, Option.some.injEq] at hnext
      subst hnext
      exact ⟨ep, Or.inl rfl, h.still rfl rfl rfl (by simp [hs, inHand]) (by simp)⟩
  | resetting =>
      simp only [hs, Option.some.injEq] at hnext
      subst hnext
      exact ⟨ep, Or.inl rfl, h.still rfl rfl rfl (by simp [hs, inHand]) (by simp)⟩
  | _ =>
      simp only [hs, Option.some.injEq] at hnext
      subst hnext
      refine ⟨ep, Or.inl rfl, h.still rfl rfl rfl ?_ ?_⟩
      · dsimp only
        split <;> simp [hs, inHand]
      · dsimp only
        split <;> simp

/-- `getline` gives the sender a line of what is typed. -/
theorem Shadows.type (h : t.Shadows ep) {typed : Bytes}
    (hnext : t.process.next (.type (getline typed)) = some p) :
    ∃ ep', ep.Moves ep' ∧ (t.advance p).Shadows ep' := by
  obtain ⟨extra, hout, hextra⟩ := h.outgoing
  unfold ClientProcess.next at hnext
  cases hs : t.process.sender <;> simp only [hs, Option.some.injEq, reduceCtorEq] at hnext
  case namePrompt =>
    -- the name depends on the line only, so the network may send it at once
    subst hnext
    have hnone : extra = [] := by simpa [hs, inHand] using hextra (by simp [hs])
    refine ⟨ep.typeName typed, Or.inr (Or.inl ⟨typed, rfl⟩), ?_⟩
    refine shadows_advance ?_ rfl
    refine ⟨h.core, h.going, h.incompleteMessage, h.incoming,
      ⟨[str "/SETNAME " ++ chosenName (getline typed)], ?_, fun _ => rfl⟩, by simp⟩
    show ep.outgoing ++ _ = _
    rw [hout, hnone, List.append_nil]
    rfl
  case inputPrompt =>
    -- what the line does depends on the state when it is handled, so the network waits
    subst hnext
    refine ⟨ep, Or.inl rfl, h.still rfl rfl rfl (by simp [hs, inHand]) ?_⟩
    rintro line hline
    simp only [SenderPlace.handling.injEq] at hline
    exact ⟨typed, hline.symm⟩

/-- The steps of the receiver outside `recv`: a line is decoded, or nothing is seen. -/
theorem Shadows.receiver (h : t.Shadows ep) (hnext : t.process.receiverNext = some p) :
    ∃ ep', ep.Moves ep' ∧ (t.advance p).Shadows ep' := by
  unfold ClientProcess.receiverNext at hnext
  cases hr : t.process.receiver with
  | test =>
      simp only [hr, Option.some.injEq] at hnext
      subst hnext
      exact ⟨ep, Or.inl rfl, h.aside rfl rfl rfl rfl⟩
  | receiving => simp [hr] at hnext
  | returned => simp [hr] at hnext
  | scanning =>
      simp only [hr] at hnext
      split at hnext
      · rename_i line rest htake
        obtain rfl := Option.some.inj hnext
        refine ⟨{ ep with state := receiveLine line ep.state, incompleteMessage := rest }, ?_, ?_⟩
        · refine Or.inr (Or.inr (Or.inr (Or.inr ?_)))
          rw [Endpoint.decode, h.incompleteMessage, htake]
          rfl
        · refine shadows_advance ?_ rfl
          exact ⟨receiveLine_congr h.core line, (shouldExit_receiveLine line ep.state).trans h.going, rfl,
            h.incoming, h.outgoing, h.typed⟩
      · obtain rfl := Option.some.inj hnext
        exact ⟨ep, Or.inl rfl, h.aside rfl rfl rfl rfl⟩

/-- The steps of `main`: no text is sent, and nothing changes but the flag. -/
theorem Shadows.main (h : t.Shadows ep) (hnext : t.process.mainNext = some p) : (t.advance p).Shadows ep := by
  cases ClientProcess.mainStep_next hnext with
  | joinSender hmain hsender => exact h.aside rfl rfl rfl rfl
  | raise hmain => exact h.aside rfl rfl rfl rfl
  | joinReceiver hmain hreceiver => exact h.aside rfl rfl rfl rfl
  | close hmain =>
      have hclosed : t.advance { t.process with trace := t.process.trace ++ [.closed], main := .returned } =
          { t with process := { t.process with trace := t.process.trace ++ [.closed], main := .returned } } := by
        simp [advance, ClientProcess.sentTexts]
      rw [hclosed]
      exact ⟨h.core, h.going, h.incompleteMessage, h.incoming, h.outgoing, h.typed⟩

/-- `recv` returns: with bytes that are on their way, or for good. -/
theorem Shadows.recv (h : t.Shadows ep) {result : Recv} (hnext : t.next (.recv result) = some t') :
    ∃ ep', ep.Moves ep' ∧ t'.Shadows ep' := by
  cases result with
  | bytes buffer =>
      simp only [next, ClientProcess.next, ClientProcess.recvReturns, Option.ite_none_right_eq_some,
        Option.map_eq_some_iff, Option.some.injEq] at hnext
      obtain ⟨⟨rest, hrest⟩, p, ⟨-, -, rfl⟩, rfl⟩ := hnext
      refine ⟨ep.deliver buffer.length, Or.inr (Or.inr (Or.inr (Or.inl ⟨_, rfl⟩))), ?_⟩
      -- the network delivers as many bytes
      have htake : t.incoming.take buffer.length = buffer := by rw [← hrest, List.take_left]
      have hout : (t.advance { t.process with
          incompleteMessage := t.process.incompleteMessage ++ buffer
          trace := t.process.trace ++ [.received buffer]
          receiver := .scanning }).outgoing = t.outgoing := by
        simp [advance, ClientProcess.sentTexts]
      constructor
      · exact h.core
      · exact h.going
      · show ep.incompleteMessage ++ ep.incoming.take buffer.length = _
        rw [h.incompleteMessage, h.incoming, htake]
        rfl
      · show ep.incoming.drop buffer.length = _
        rw [h.incoming]
      · show ∃ extra, ep.outgoing = (t.advance _).outgoing ++ extra ∧ _
        rw [hout]
        exact h.outgoing
      · exact h.typed
  | closed =>
      simp only [next, ClientProcess.next, ClientProcess.recvReturns, Option.ite_none_right_eq_some,
        Option.map_eq_some_iff, Option.some.injEq] at hnext
      obtain ⟨p, ⟨-, rfl⟩, rfl⟩ := hnext
      exact ⟨ep, Or.inl rfl, h.aside rfl rfl rfl rfl⟩
  | failed =>
      simp only [next, ClientProcess.next, ClientProcess.recvReturns, Option.ite_none_right_eq_some,
        Option.map_eq_some_iff, Option.some.injEq] at hnext
      obtain ⟨p, ⟨-, rfl⟩, rfl⟩ := hnext
      exact ⟨ep, Or.inl rfl, h.aside rfl rfl rfl rfl⟩

/-- Every step of a client process is a move of its endpoint, or none. -/
theorem Shadows.next (h : t.Shadows ep) {l : ClientLabel} (hnext : t.next l = some t') :
    ∃ ep', ep.Moves ep' ∧ t'.Shadows ep' := by
  cases l with
  | recv result => exact h.recv hnext
  | type typed =>
      obtain ⟨p, hp, rfl⟩ := Option.map_eq_some_iff.1 hnext
      exact h.type hp
  | sender fails =>
      obtain ⟨p, hp, rfl⟩ := Option.map_eq_some_iff.1 hnext
      exact h.sender hp
  | timeout =>
      obtain ⟨p, hp, rfl⟩ := Option.map_eq_some_iff.1 hnext
      simp only [ClientProcess.next, Option.ite_none_right_eq_some, Option.some.injEq] at hp
      obtain ⟨-, rfl⟩ := hp
      exact ⟨ep, Or.inl rfl, h.still rfl rfl rfl (fun hne => absurd rfl hne) (by simp)⟩
  | receiver =>
      obtain ⟨p, hp, rfl⟩ := Option.map_eq_some_iff.1 hnext
      exact h.receiver hp
  | main =>
      obtain ⟨p, hp, rfl⟩ := Option.map_eq_some_iff.1 hnext
      exact ⟨ep, Or.inl rfl, h.main hp⟩

/-- What the server does to the connection keeps the two together. -/
theorem Shadows.observe (h : t.Shadows ep) (op : NetOp) : (t.observe c op).Shadows (ep.observe c op) := by
  cases op with
  | accepted sock =>
      simp only [Terminal.observe, Endpoint.observe]
      split
      · exact shadows_start
      · exact h
  | sent sock text =>
      simp only [Terminal.observe, Endpoint.observe]
      split
      · exact ⟨h.core, h.going, h.incompleteMessage, congrArg (· ++ text) h.incoming, h.outgoing, h.typed⟩
      · exact h
  | replayed sock text =>
      simp only [Terminal.observe, Endpoint.observe]
      split
      · exact ⟨h.core, h.going, h.incompleteMessage, congrArg (· ++ text) h.incoming, h.outgoing, h.typed⟩
      · exact h
  | closed sock => exact h

theorem Shadows.observeAll (ops : List NetOp) : ∀ {t : Terminal} {ep : Endpoint}, t.Shadows ep →
    (ops.foldl (Terminal.observe c) t).Shadows (ops.foldl (Endpoint.observe c) ep) := by
  induction ops with
  | nil => exact fun h => h
  | cons op ops ih => exact fun h => ih (h.observe op)

/-- The server receives a text that is on its way. -/
theorem Shadows.received (h : t.Shadows ep) {l : Label}
    (hsupplies : ∀ line, l = .event (.receive c line) → t.outgoing.head? = some line) :
    (t.received c l).Shadows (ep.received c l) := by
  by_cases hl : ∃ line, l = .event (.receive c line)
  · obtain ⟨line, rfl⟩ := hl
    obtain ⟨extra, hout, hextra⟩ := h.outgoing
    -- the first text on its way is no text in the hand of the sender
    have hne : t.outgoing ≠ [] := by
      intro hnil
      simpa [hnil] using hsupplies line rfl
    have htail : ep.outgoing.tail = t.outgoing.tail ++ extra := by
      rw [hout, List.tail_append_of_ne_nil hne]
    simp only [Terminal.received, Endpoint.received, if_true]
    exact ⟨h.core, h.going, h.incompleteMessage, h.incoming, ⟨extra, htail, hextra⟩, h.typed⟩
  · have ht : t.received c l = t := by
      unfold Terminal.received
      split
      · exact if_neg fun hsock => hl ⟨_, by rw [hsock]⟩
      · rfl
    have hep : ep.received c l = ep := by
      unfold Endpoint.received
      split
      · exact if_neg fun hsock => hl ⟨_, by rw [hsock]⟩
      · rfl
    rw [ht, hep]
    exact h

end Terminal

/-! ## Whole runs -/

namespace Network

variable {ok : Machine → Label → Prop} {n : Network} {c : SOCKET}

theorem setClient_self : n.setClient c (n.client c) = n := by
  rw [setClient, Function.update_eq_self]

/-- The network makes the moves of an endpoint that has not raised the flag. -/
theorem reaches_of_moves {ep : Endpoint} (hgoing : (n.client c).state.shouldExit = false)
    (h : (n.client c).Moves ep) : Relation.ReflTransGen (Step ok) n (n.setClient c ep) := by
  rcases h with rfl | ⟨typed, rfl⟩ | ⟨typed, rfl⟩ | ⟨k, rfl⟩ | hdecode
  · rw [setClient_self]
  · exact .single ⟨.typeName c typed, by simp, by simp [next, hgoing]⟩
  · exact .single ⟨.typeLine c typed, by simp, by simp [next, hgoing]⟩
  · exact .single ⟨.deliver c k, by simp, by simp [next, hgoing]⟩
  · exact .single ⟨.decode c, by simp, by simp [next, hdecode]⟩

end Network

namespace Deployment

variable {ok : Machine → Label → Prop} {d d' : Deployment} {n : Network} {c : SOCKET}

/-- The network stands for the deployment: it has the same server, and its endpoints stand for the
terminals. -/
structure Shadowed (d : Deployment) (n : Network) : Prop where
  server : n.server = d.server
  client : ∀ c, (d.terminal c).Shadows (n.client c)

theorem shadowed_boot (db : Database) (listenSocket : SOCKET) :
    (boot db listenSocket).Shadowed (.boot db listenSocket) :=
  ⟨rfl, fun _ => Terminal.shadows_start⟩

/-- A text that is on its way in the deployment is first on its way in the network. -/
theorem Shadowed.supplies (h : d.Shadowed n) {l : Label} (hl : d.Supplies l) : n.Supplies l := by
  unfold Network.Supplies
  split
  · rename_i c line
    obtain ⟨extra, hout, -⟩ := (h.client c).outgoing
    have hhead : (d.terminal c).outgoing.head? = some line := hl
    rw [hout, List.head?_append, hhead]
    rfl
  · trivial

/-- Each step of the deployment is a step of the network, or none. -/
theorem Shadowed.step (h : d.Shadowed n) (hstep : Step ok d d') :
    ∃ n', Relation.ReflTransGen (Network.Step ok) n n' ∧ d'.Shadowed n' := by
  obtain ⟨mv, hok, hnext⟩ := hstep
  cases mv with
  | server l =>
      simp only [next, Option.ite_none_right_eq_some, Option.map_eq_some_iff] at hnext
      obtain ⟨hsupplies, m, hm, rfl⟩ := hnext
      have hn : n.next (.server l) = some (n.serve l m) := by
        rw [Network.next, if_pos (h.supplies hsupplies), h.server, hm]
        rfl
      refine ⟨n.serve l m, .single ⟨.server l, ?_, hn⟩, rfl, fun c => ?_⟩
      · rintro l' hl'
        cases hl'
        rw [h.server]
        exact hok l rfl
      · have hnet : m.globals.net.drop n.server.globals.net.length =
            opsBetween d.server.globals m.globals := by
          rw [h.server]
          rfl
        show ((d.serve l m).terminal c).Shadows ((m.globals.net.drop n.server.globals.net.length).foldl
          (Endpoint.observe c) ((n.client c).received c l))
        rw [hnet]
        apply Terminal.Shadows.observeAll
        apply (h.client c).received
        rintro line rfl
        exact hsupplies
  | client c l =>
      obtain ⟨t', ht', rfl⟩ := Option.map_eq_some_iff.1 hnext
      obtain ⟨ep', hmoves, hshadows⟩ := (h.client c).next ht'
      refine ⟨n.setClient c ep', Network.reaches_of_moves (h.client c).going hmoves, h.server, fun e => ?_⟩
      by_cases he : e = c
      · subst he
        simpa [setTerminal, Network.setClient] using hshadows
      · simpa [setTerminal, Network.setClient, Function.update_of_ne he] using h.client e

/-- Every run of a deployment is the run of a network. -/
theorem shadowed_of_run {db : Database} {listenSocket : SOCKET}
    (hrun : Relation.ReflTransGen (Step ok) (boot db listenSocket) d) :
    ∃ n, Relation.ReflTransGen (Network.Step ok) (.boot db listenSocket) n ∧ d.Shadowed n := by
  induction hrun with
  | refl => exact ⟨_, .refl, shadowed_boot db listenSocket⟩
  | tail _ hstep ih =>
      obtain ⟨n, hn, hshadowed⟩ := ih
      obtain ⟨n', hn', hshadowed'⟩ := hshadowed.step hstep
      exact ⟨n', hn.trans hn', hshadowed'⟩

/-- A client that has caught up believes what it has been told. -/
theorem Shadowed.view (h : d.Shadowed n) (hn : n.Synced) (hcaught : (d.terminal c).Caught) :
    (d.terminal c).process.state.view = viewOf d.server.globals.net c := by
  obtain ⟨hincoming, hincomplete⟩ := hcaught
  have hc := h.client c
  -- what the client has sent does not matter here
  have hfollows : ({ n.client c with outgoing := [] } : Endpoint).Follows c n.server.globals.net :=
    ⟨by simp, (hn.client c).incoming⟩
  have hview := hfollows.view_of_quiescent
    ⟨rfl, hc.incoming.trans hincoming, hc.incompleteMessage.trans hincomplete⟩
  rw [h.server] at hview
  rw [← view_core, ← hc.core, view_core]
  exact hview

/-- **Clients with their threads do what the network does.** In every run of the server and the client
processes, each with its sender, its receiver and its `main`, there is a run of the network with the same
server, the same bytes on their way and the same room in every client. In runs of events that inform, a client
that has decoded all it was sent knows its place and its ownership whenever no handler is in progress, wherever
its own threads are. -/
theorem threads_track_server (db : Database) (listenSocket : SOCKET) (hdb : db.Lined) (d : Deployment)
    (hrun : Relation.ReflTransGen (Step ok) (boot db listenSocket) d) :
    (∃ n, Relation.ReflTransGen (Network.Step ok) (.boot db listenSocket) n ∧ n.server = d.server ∧
      ∀ c, (n.client c).incoming = (d.terminal c).incoming ∧
        (n.client c).incompleteMessage = (d.terminal c).process.incompleteMessage ∧
        (d.terminal c).outgoing <+: (n.client c).outgoing ∧
        (n.client c).state.view = (d.terminal c).process.state.view) ∧
    ((∀ m l, ok m l → Machine.eventsIn Informs m l) → d.server.Idle → ∀ c ∈ d.server.globals.clients,
      (d.terminal c).Caught → Tracks (d.terminal c).process.state (d.server.globals.info c)) := by
  obtain ⟨n, hn, hshadowed⟩ := shadowed_of_run hrun
  have hreach : Network.Reachable ok n := ⟨db, listenSocket, hdb, hn⟩
  constructor
  · refine ⟨n, hn, hshadowed.server, fun c => ?_⟩
    have hc := hshadowed.client c
    obtain ⟨extra, hout, -⟩ := hc.outgoing
    refine ⟨hc.incoming, hc.incompleteMessage, ⟨extra, hout.symm⟩, ?_⟩
    rw [← view_core, hc.core, view_core]
  · intro hinforms hidle c hc hcaught
    apply tracks_of_view
    rw [hshadowed.view hreach.synced hcaught]
    have hserver : d.server.Reachable (Machine.eventsIn Informs) := by
      rw [← hshadowed.server]
      exact hreach.server.mono hinforms
    exact hserver.informed hidle hc

/-! ## An executable run -/

/-- The move starts a handler only with an event that informs. -/
def Allows (d : Deployment) : DeploymentMove → Prop
  | .server (.event ev) => Informs d.server.globals ev
  | _ => True

instance (d : Deployment) (mv : DeploymentMove) : Decidable (d.Allows mv) := by
  unfold Allows
  split <;> infer_instance

/-- Make the moves one after the other; those that cannot occur are skipped. -/
def follow (d : Deployment) : List (Deployment → DeploymentMove) → Deployment
  | [] => d
  | mv :: mvs =>
      match d.next (mv d) with
      | some d' => if d.Allows (mv d) then d'.follow mvs else d.follow mvs
      | none => d.follow mvs

theorem follow_reaches : ∀ (mvs : List (Deployment → DeploymentMove)) (d : Deployment),
    Relation.ReflTransGen (Step (Machine.eventsIn Informs)) d (d.follow mvs)
  | [], _ => .refl
  | mv :: mvs, d => by
      rw [follow]
      split
      · rename_i d' hnext
        split
        · rename_i hallows
          refine Relation.ReflTransGen.head ⟨mv d, ?_, hnext⟩ (follow_reaches mvs d')
          intro l hl
          rw [hl] at hallows
          cases l <;> exact hallows
        · exact follow_reaches mvs d
      · exact follow_reaches mvs d

/-- The server handles an event. -/
def handles (ev : Event) (draw : Fin 900000) : List (Deployment → DeploymentMove) :=
  (Machine.serving ev draw).map fun l _ => .server l

/-- The client acts by its sender. -/
def acts (c : SOCKET) (k : Nat) : List (Deployment → DeploymentMove) :=
  List.replicate k fun _ => .client c (.sender false)

/-- The client receives all that is on its way, and decodes it. -/
def hears (c : SOCKET) : List (Deployment → DeploymentMove) :=
  (fun _ => .client c .receiver) :: (fun d => .client c (.recv (.bytes (d.terminal c).incoming))) ::
    List.replicate 4 fun _ => .client c .receiver

/-- Ann enters and makes a room; her sender has the next line in its hand when she hears of it. -/
def opening : List (Deployment → DeploymentMove) :=
  handles (.connect 4) 0 ++ acts 4 1 ++ [fun _ => .client 4 (.type (str "ann"))] ++ acts 4 3 ++
    handles (.receive 4 (str "/SETNAME ann")) 0 ++ hears 4 ++ acts 4 5 ++
    [fun _ => .client 4 (.type (str "/CREATE PUBLIC"))] ++ acts 4 2 ++
    handles (.receive 4 (str "/CREATE PUBLIC")) 7 ++ acts 4 1 ++
    [fun _ => .client 4 (.type (str "/LIST"))] ++ acts 4 1 ++ hears 4

theorem threads_track_server_opening : ∃ d,
    Relation.ReflTransGen (Step (Machine.eventsIn Informs)) (boot {} 3) d ∧
    (d.terminal 4).process.sender = .sending (str "/LIST") ∧
    (d.terminal 4).process.state.currentRoomId = str "100007" ∧
    Tracks (d.terminal 4).process.state (d.server.globals.info 4) ∧
    ∃ n, Relation.ReflTransGen (Network.Step (Machine.eventsIn Informs)) (.boot {} 3) n ∧
      n.server = d.server := by
  have hrun := follow_reaches opening (boot {} 3)
  have hcheck : (fun d : Deployment => decide ((d.terminal 4).process.sender = .sending (str "/LIST") ∧
      (d.terminal 4).process.state.currentRoomId = str "100007" ∧ d.server.Idle ∧
      4 ∈ d.server.globals.clients ∧ (d.terminal 4).Caught)) ((boot {} 3).follow opening) = true := by
    decide +kernel
  generalize (boot {} 3).follow opening = d at hrun hcheck
  obtain ⟨hsender, hroom, hidle, hc, hcaught⟩ := of_decide_eq_true hcheck
  obtain ⟨⟨n, hn, hserver, -⟩, htracks⟩ := threads_track_server {} 3
    (fun _ hrow => absurd hrow List.not_mem_nil) d hrun
  exact ⟨d, hrun, hsender, hroom, htracks (fun _ _ h => h) hidle 4 hc hcaught, n, hn, hserver⟩

end Deployment

end TerminalChat.System
