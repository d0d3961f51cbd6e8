import Mathlib
import TerminalChat.Client.Input
import TerminalChat.Server.LineKeeping
import TerminalChat.Text.Framing

/-!
# The server and its clients

The server together with clients that run the client program, over connections that lose nothing and keep
the order. A client hands whole lines to its connection and the server receives them one by one; the other
way bytes travel in chunks of any size, and the client decodes a line as soon as it has its newline. The
steps of the server, the lines that users type, the deliveries and the decodings interleave in any order
(`Network.next`). A user may type before the client is named, and without its ever being named.
-/

set_option autoImplicit false

namespace TerminalChat.System

open TerminalChat.Concurrency TerminalChat.Text TerminalChat.Server TerminalChat.Client

/-- A client process and its connection: the lines on their way to the server, the bytes on their way
to the client, and `incompleteMessage`, the bytes it has received and not decoded. -/
structure Endpoint where
  state : ClientState := {}
  outgoing : List Bytes := []
  incoming : Bytes := []
  incompleteMessage : Bytes := []
  deriving DecidableEq

namespace Endpoint

/-- What a socket operation of the server does to the connection of the client `c`: an accepted
connection is that of a new process. -/
def observe (c : SOCKET) (ep : Endpoint) : NetOp → Endpoint
  | .accepted t => if t = c then {} else ep
  | .sent t text => if t = c then { ep with incoming := ep.incoming ++ text } else ep
  | .replayed t text => if t = c then { ep with incoming := ep.incoming ++ text } else ep
  | .closed _ => ep

/-- The server has received the first line on its way. -/
def received (c : SOCKET) (ep : Endpoint) : Label → Endpoint
  | .event (.receive t _) => if t = c then { ep with outgoing := ep.outgoing.tail } else ep
  | _ => ep

/-- The user types a line at the prompt for a name. -/
def typeName (typed : Bytes) (ep : Endpoint) : Endpoint :=
  let prompted := promptName ep.state (getline typed)
  { ep with
    state := prompted.1
    outgoing := ep.outgoing ++ [prompted.2] }

/-- The user types a line into the input loop. -/
def typeLine (typed : Bytes) (ep : Endpoint) : Endpoint :=
  let turn := handleInput ep.state (getline typed)
  { ep with
    state := turn.state
    outgoing := ep.outgoing ++ turn.sent.toList.map (·.1) }

/-- One `recv` of the client gives `n` bytes. -/
def deliver (n : Nat) (ep : Endpoint) : Endpoint :=
  { ep with
    incoming := ep.incoming.drop n
    incompleteMessage := ep.incompleteMessage ++ ep.incoming.take n }

/-- The client decodes the first line it has received. -/
def decode (ep : Endpoint) : Option Endpoint :=
  (takeMessage newline ep.incompleteMessage).map fun p =>
    { ep with
      state := receiveLine p.1 ep.state
      incompleteMessage := p.2 }

/-- Nothing is on its way to the server or to the client, or not decoded. -/
def Quiescent (ep : Endpoint) : Prop :=
  ep.outgoing = [] ∧ ep.incoming = [] ∧ ep.incompleteMessage = []

instance (ep : Endpoint) : Decidable ep.Quiescent := inferInstanceAs (Decidable (_ ∧ _))

end Endpoint

/-- The server process and the clients by their sockets. -/
structure Network where
  server : Machine
  client : SOCKET → Endpoint

/-- A step of the network: the server takes a step, a user types, bytes are delivered, or a client
decodes a line. -/
inductive Move where
  | server (l : Label)
  | typeName (c : SOCKET) (typed : Bytes)
  | typeLine (c : SOCKET) (typed : Bytes)
  | deliver (c : SOCKET) (n : Nat)
  | decode (c : SOCKET)

namespace Network

/-- The server receives only the first line on its way. -/
def Supplies (n : Network) : Label → Prop
  | .event (.receive c line) => (n.client c).outgoing.head? = some line
  | _ => True

instance (n : Network) (l : Label) : Decidable (n.Supplies l) := by
  unfold Supplies
  split <;> infer_instance

/-- The network after a step of the server from `n.server` to `m`. -/
def serve (n : Network) (l : Label) (m : Machine) : Network where
  server := m
  client c := (m.globals.net.drop n.server.globals.net.length).foldl (Endpoint.observe c)
    ((n.client c).received c l)

/-- Update one client. -/
def setClient (n : Network) (c : SOCKET) (ep : Endpoint) : Network :=
  { n with client := Function.update n.client c ep }

/-- One step of the network; none where the move cannot occur. Users and `recv` stop when the client
is about to exit. -/
def next (n : Network) : Move → Option Network
  | .server l => if n.Supplies l then (n.server.next l).map (n.serve l) else none
  | .typeName c typed =>
      if (n.client c).state.shouldExit then none
      else some (n.setClient c ((n.client c).typeName typed))
  | .typeLine c typed =>
      if (n.client c).state.shouldExit then none
      else some (n.setClient c ((n.client c).typeLine typed))
  | .deliver c k =>
      if (n.client c).state.shouldExit then none
      else some (n.setClient c ((n.client c).deliver k))
  | .decode c => (n.client c).decode.map (n.setClient c)

/-- The network when the main loop of the server starts. -/
def boot (db : Database) (listenSocket : SOCKET) : Network where
  server := .boot db listenSocket
  client _ := {}

/-- `n'` follows `n` by a move; where the server moves, its label satisfies `ok`. -/
def Step (ok : Machine → Label → Prop) (n n' : Network) : Prop :=
  ∃ mv, (∀ l, mv = .server l → ok n.server l) ∧ n.next mv = some n'

/-- The networks reached by a run from a boot with a database of lines, whose server steps all satisfy
`ok`. -/
def Reachable (ok : Machine → Label → Prop) (n : Network) : Prop :=
  ∃ db listenSocket, Database.Lined db ∧
    Relation.ReflTransGen (Step ok) (boot db listenSocket) n

variable {ok : Machine → Label → Prop} {n n' : Network}

/-- The moves of a network by what they do to the server. -/
theorem server_of_step (h : Step ok n n') :
    (∃ l m, ok n.server l ∧ n.Supplies l ∧ n.server.next l = some m ∧ n' = n.serve l m) ∨
    ∃ c ep, n' = n.setClient c ep ∧ ((∃ typed, ep = (n.client c).typeName typed) ∨
      (∃ typed, ep = (n.client c).typeLine typed) ∨ (∃ k, ep = (n.client c).deliver k) ∨
        (n.client c).decode = some ep) := by
  obtain ⟨mv, hok, hn⟩ := h
  cases mv with
  | server l =>
      simp only [next, Option.ite_none_right_eq_some, Option.map_eq_some_iff] at hn
      obtain ⟨hsup, m, hm, rfl⟩ := hn
      exact Or.inl ⟨l, m, hok l rfl, hsup, hm, rfl⟩
  | typeName c typed =>
      simp only [next, Option.ite_none_left_eq_some, Option.some.injEq] at hn
      exact Or.inr ⟨c, _, hn.2.symm, Or.inl ⟨typed, rfl⟩⟩
  | typeLine c typed =>
      simp only [next, Option.ite_none_left_eq_some, Option.some.injEq] at hn
      exact Or.inr ⟨c, _, hn.2.symm, Or.inr (Or.inl ⟨typed, rfl⟩)⟩
  | deliver c k =>
      simp only [next, Option.ite_none_left_eq_some, Option.some.injEq] at hn
      exact Or.inr ⟨c, _, hn.2.symm, Or.inr (Or.inr (Or.inl ⟨k, rfl⟩))⟩
  | decode c =>
      simp only [next, Option.map_eq_some_iff] at hn
      obtain ⟨ep, hep, rfl⟩ := hn
      exact Or.inr ⟨c, ep, rfl, Or.inr (Or.inr (Or.inr hep))⟩

/-- The server of a reachable network is reachable. -/
theorem Reachable.server (hn : Reachable ok n) : Machine.Reachable ok n.server := by
  obtain ⟨db, listenSocket, -, hrun⟩ := hn
  refine ⟨db, listenSocket, ?_⟩
  induction hrun with
  | refl => exact .refl
  | tail _ hstep ih =>
      rcases server_of_step hstep with ⟨l, m, hok, -, hm, rfl⟩ | ⟨c, ep, rfl, -⟩
      · exact ih.tail ⟨l, hok, hm⟩
      · exact ih

/-! ## Executable runs -/

/-- Let the main thread of the server run, for at most `fuel` steps, until no handler is in
progress. -/
def finish (e : Env) : Nat → Network → Network
  | 0, n => n
  | fuel + 1, n =>
      match n.next (.server (.run .main e)) with
      | some n' => n'.finish e fuel
      | none => n

section Play

variable (cond : Globals → Event → Prop) [∀ s ev, Decidable (cond s ev)]

/-- The move starts a handler only where `cond` allows its event. -/
def Allows (n : Network) : Move → Prop
  | .server (.event ev) => cond n.server.globals ev
  | _ => True

instance (n : Network) (mv : Move) : Decidable (n.Allows cond mv) := by
  unfold Allows
  split <;> infer_instance

/-- Make the moves one after the other, each time letting the server finish its handler. -/
def play (draw : Fin 900000) : Network → List Move → Option Network
  | n, [] => some n
  | n, mv :: mvs =>
      if n.Allows cond mv then
        (n.next mv).bind fun n' => (n'.finish (.midnight draw) 60).play draw mvs
      else none

omit [∀ s ev, Decidable (cond s ev)] in
theorem finish_reaches (e : Env) : ∀ (fuel : Nat) (n : Network),
    Relation.ReflTransGen (Step (Machine.eventsIn cond)) n (n.finish e fuel)
  | 0, _ => .refl
  | fuel + 1, n => by
      rw [finish]
      split
      · rename_i n' h
        refine Relation.ReflTransGen.head ⟨.server (.run .main e), ?_, h⟩
          (finish_reaches e fuel n')
        rintro l hl
        cases hl
        exact trivial
      · exact .refl

theorem play_reaches (draw : Fin 900000) : ∀ (mvs : List Move) (n n' : Network),
    n.play cond draw mvs = some n' →
      Relation.ReflTransGen (Step (Machine.eventsIn cond)) n n'
  | [], n, n', h => by
      simp only [play, Option.some.injEq] at h
      rw [h]
  | mv :: mvs, n, n', h => by
      simp only [play, Option.ite_none_right_eq_some, Option.bind_eq_some_iff] at h
      obtain ⟨hallows, n₁, h₁, h₂⟩ := h
      refine Relation.ReflTransGen.head ⟨mv, ?_, h₁⟩
        ((finish_reaches cond _ 60 n₁).trans (play_reaches draw mvs _ n' h₂))
      rintro l rfl
      cases l <;> exact hallows

/-- A property of the network after the moves `mvs` is one of a reachable network. -/
theorem reachable_of_play (draw : Fin 900000) (mvs : List Move) (p : Network → Bool)
    (h : ((boot {} 3).play cond draw mvs).any p = true) :
    ∃ n, Reachable (Machine.eventsIn cond) n ∧ p n = true := by
  obtain ⟨n, hn, hp⟩ := (Option.any_eq_true _ _).1 h
  exact ⟨n, ⟨_, _, fun _ hrow => absurd hrow List.not_mem_nil,
    play_reaches cond draw mvs _ n hn⟩, hp⟩

end Play

theorem Reachable.mono {ok ok' : Machine → Label → Prop} (h : ∀ m l, ok m l → ok' m l)
    {n : Network} (hn : Reachable ok n) : Reachable ok' n := by
  obtain ⟨db, listenSocket, hdb, hrun⟩ := hn
  refine ⟨db, listenSocket, hdb, hrun.lift id ?_⟩
  rintro n₁ n₂ ⟨mv, hok, hnext⟩
  exact ⟨mv, fun l hl => h _ _ (hok l hl), hnext⟩

end Network

end TerminalChat.System
