import Mathlib
import TerminalChat.Server.Connections

/-!
# The poll loop

The loop of `main` around its handlers: it takes a snapshot of `pollFds`, asks `WSAPoll` about it, and goes
through the answers in order. The first descriptor is accepted from when it can be read; every other answer,
also one for the first descriptor, is followed by a `recv`, and by `handleClientDisconnect` when that gives
nothing. `PollLoop.poll_table_matches_iff` says in which runs the poll table lists the connected clients.
-/

set_option autoImplicit false

namespace TerminalChat.Server

open TerminalChat.Concurrency TerminalChat.Text

/-- The bits of `revents` that the loop looks at. -/
def POLLERR : BitVec 16 := 0x0001

def POLLHUP : BitVec 16 := 0x0002

def POLLRDNORM : BitVec 16 := 0x0100

/-- The loop: the process it runs in, and of the iteration in progress the index of the next descriptor
and the descriptors still to be gone through, with the answers of `WSAPoll`. -/
structure PollLoop where
  machine : Machine
  index : Nat := 0
  remaining : List (SOCKET × BitVec 16) := []

/-- A step: an iteration begins, and `WSAPoll` answers; the next descriptor is gone through, where `accept`
gives a socket or none and `recv` gives bytes or none; or the process takes a step that is not an event of
the loop. -/
inductive PollLabel where
  | poll (revents : List (BitVec 16))
  | visit (accepted : Option SOCKET) (received : Option Bytes)
  | server (l : Label)

/-- The event that the loop runs a handler for when it goes through a descriptor. -/
def pollEvent (i : Nat) (fd : SOCKET) (revents : BitVec 16) (accepted : Option SOCKET)
    (received : Option Bytes) : Option Event :=
  if revents = 0 then none
  else if i = 0 ∧ revents &&& POLLRDNORM ≠ 0 then accepted.map .connect
  else if revents &&& (POLLRDNORM ||| POLLHUP ||| POLLERR) ≠ 0 then
    match received with
    | some buffer => some (.receive fd buffer)
    | none => some (.hangup fd)
  else none

/-- `accept` gives a socket only while the listening socket is open, and not the number of that. -/
def MayAccept (listenSocket : SOCKET) (s : Globals) : Event → Prop
  | .connect sock => sock ≠ listenSocket ∧ NetOp.closed listenSocket ∉ s.net
  | _ => True

instance (listenSocket : SOCKET) (s : Globals) : (ev : Event) → Decidable (MayAccept listenSocket s ev)
  | .connect sock => inferInstanceAs (Decidable (sock ≠ listenSocket ∧ NetOp.closed listenSocket ∉ s.net))
  | .receive _ _ => isTrue trivial
  | .hangup _ => isTrue trivial

namespace PollLoop

/-- The loop is at the top of an iteration. -/
def Top (loop : PollLoop) : Prop := loop.remaining = [] ∧ loop.machine.Idle

instance (loop : PollLoop) : Decidable loop.Top := inferInstanceAs (Decidable (_ ∧ _))

/-- The loop has gone through its next descriptor. -/
def advance (loop : PollLoop) (m : Machine) : PollLoop where
  machine := m
  index := loop.index + 1
  remaining := loop.remaining.tail

/-- One step; none where the label cannot occur. -/
def next (listenSocket : SOCKET) (loop : PollLoop) : PollLabel → Option PollLoop
  | .poll revents =>
      let pollFds := loop.machine.globals.pollFds
      if loop.Top ∧ loop.machine.globals.shutdownRequested = false ∧ pollFds ≠ [] ∧
          revents.length = pollFds.length then
        some { loop with index := 0, remaining := pollFds.zip revents }
      else none
  | .visit accepted received =>
      -- one turn of the `for` loop over the answers
      match loop.remaining with
      | [] => none
      | (fd, revents) :: _ =>
          match pollEvent loop.index fd revents accepted received with
          | none => if loop.machine.Idle then some (loop.advance loop.machine) else none
          | some ev =>
              if MayAccept listenSocket loop.machine.globals ev then
                (loop.machine.next (.event ev)).map loop.advance
              else none
  -- events come of answers only
  | .server (.event _) => none
  | .server l => (loop.machine.next l).map fun m => { loop with machine := m }

/-- The loop when it starts. -/
def boot (db : Database) (listenSocket : SOCKET) : PollLoop where
  machine := .boot db listenSocket

/-- The loop after a list of steps. -/
def run (listenSocket : SOCKET) (loop : PollLoop) (ls : List PollLabel) : Option PollLoop :=
  ls.foldlM (next listenSocket) loop

/-- The poll table is the listening socket and then, each once, the keys of `g_clients`. -/
def TableMatches (listenSocket : SOCKET) (s : Globals) : Prop :=
  ∃ socks, s.pollFds = listenSocket :: socks ∧ s.pollFds.Nodup ∧ ∀ t, t ∈ socks ↔ t ∈ s.clients

end PollLoop

/-- An answer that reports an error or a hang-up and nothing to read. -/
def HangsUp (revents : BitVec 16) : Prop :=
  revents &&& POLLRDNORM = 0 ∧ revents &&& (POLLHUP ||| POLLERR) ≠ 0

/-- The answer for the first descriptor is none of these. -/
def PollLabel.Steady : PollLabel → Prop
  | .poll revents => ∀ r, revents.head? = some r → ¬HangsUp r
  | _ => True

/-! ## The events of a descriptor -/

section Events

theorem mask_eq_zero_iff (revents : BitVec 16) :
    revents &&& (POLLRDNORM ||| POLLHUP ||| POLLERR) = 0 ↔
      revents &&& POLLRDNORM = 0 ∧ revents &&& (POLLHUP ||| POLLERR) = 0 := by
  rw [BitVec.or_assoc, BitVec.and_or_distrib_left]
  exact BitVec.or_eq_zero_iff

variable {i : Nat} {fd : SOCKET} {revents : BitVec 16} {accepted : Option SOCKET}
  {received : Option Bytes} {ev : Event}

theorem pollEvent_cases (h : pollEvent i fd revents accepted received = some ev) :
    (i = 0 ∧ revents &&& POLLRDNORM ≠ 0 ∧ ∃ sock, ev = .connect sock) ∨
      ((i = 0 → HangsUp revents) ∧ ((∃ buffer, ev = .receive fd buffer) ∨ ev = .hangup fd)) := by
  unfold pollEvent at h
  split at h
  · exact absurd h (by simp)
  split at h
  · rename_i hread
    obtain ⟨sock, -, rfl⟩ := Option.map_eq_some_iff.1 h
    exact Or.inl ⟨hread.1, hread.2, sock, rfl⟩
  rename_i hread
  split at h
  · rename_i hmask
    refine Or.inr ⟨?_, ?_⟩
    · intro hi
      have hzero : revents &&& POLLRDNORM = 0 := not_not.1 fun hne => hread ⟨hi, hne⟩
      refine ⟨hzero, ?_⟩
      intro hrest
      exact hmask ((mask_eq_zero_iff revents).2 ⟨hzero, hrest⟩)
    · split at h
      · rename_i buffer
        exact Or.inl ⟨buffer, (Option.some.inj h).symm⟩
      · exact Or.inr (Option.some.inj h).symm
  · exact absurd h (by simp)

/-- An answer with a hang-up and nothing to read is followed by `recv`. -/
theorem pollEvent_of_hangsUp (h : HangsUp revents) (i : Nat) (fd : SOCKET)
    (accepted : Option SOCKET) (received : Option Bytes) :
    ∃ ev, pollEvent i fd revents accepted received = some ev ∧
      ((∃ buffer, ev = .receive fd buffer) ∨ ev = .hangup fd) := by
  obtain ⟨hread, hrest⟩ := h
  have hne : revents ≠ 0 := by
    rintro rfl
    exact hrest (by decide)
  have hmask : revents &&& (POLLRDNORM ||| POLLHUP ||| POLLERR) ≠ 0 := by
    intro hzero
    exact hrest ((mask_eq_zero_iff revents).1 hzero).2
  unfold pollEvent
  rw [if_neg hne, if_neg fun h => h.2 hread, if_pos hmask]
  cases received with
  | some buffer => exact ⟨_, rfl, Or.inl ⟨buffer, rfl⟩⟩
  | none => exact ⟨_, rfl, Or.inr rfl⟩

end Events

/-! ## One iteration -/

namespace PollLoop

/-- The poll table matches, and the descriptors still to be gone through are keys of it, the listening
socket first when it is there. -/
structure Fits (listenSocket : SOCKET) (i : Nat) (rem : List (SOCKET × BitVec 16)) (s : Globals) :
    Prop where
  table : TableMatches listenSocket s
  distinct : (rem.map Prod.fst).Nodup
  first : i = 0 → rem = [] ∨ ∃ r rest, rem = (listenSocket, r) :: rest
  clients : ∀ p ∈ rem, p.1 ∈ s.clients ∨ i = 0 ∧ p.1 = listenSocket

variable {listenSocket fd sock : SOCKET} {i : Nat} {r : BitVec 16} {rem rest : List (SOCKET × BitVec 16)}
  {s s' : Globals} {K : SOCKET → Prop} {l : List SOCKET}

/-- The listening socket is no client. -/
theorem TableMatches.not_client (h : TableMatches listenSocket s) : listenSocket ∉ s.clients := by
  obtain ⟨socks, hpolled, hdistinct, hkeys⟩ := h
  rw [hpolled, List.nodup_cons] at hdistinct
  exact fun hc => hdistinct.1 ((hkeys listenSocket).2 hc)

theorem TableMatches.besides (h : TableMatches listenSocket s) (hs : Besides s s') :
    TableMatches listenSocket s' := by
  obtain ⟨socks, hpolled, hdistinct, hkeys⟩ := h
  rw [TableMatches, hs.2, hs.1.backdrop.clients]
  exact ⟨socks, hpolled, hdistinct, hkeys⟩

theorem Fits.besides (h : Fits listenSocket i rem s) (hs : Besides s s') : Fits listenSocket i rem s' := by
  refine ⟨h.table.besides hs, h.distinct, h.first, ?_⟩
  rw [hs.1.backdrop.clients]
  exact h.clients

/-- The next descriptors are clients. -/
theorem Fits.rest_clients (h : Fits listenSocket i ((fd, r) :: rest) s) :
    ∀ p ∈ rest, p.1 ∈ s.clients ∧ p.1 ≠ fd := by
  have hdistinct := h.distinct
  rw [List.map_cons, List.nodup_cons] at hdistinct
  intro p hp
  have hne : p.1 ≠ fd := by
    rintro heq
    exact hdistinct.1 (List.mem_map.2 ⟨p, hp, heq⟩)
  refine ⟨?_, hne⟩
  rcases h.clients p (List.mem_cons_of_mem _ hp) with hc | ⟨hi, hl⟩
  · exact hc
  · rcases h.first hi with hnil | ⟨r', rest', hrem⟩
    · exact absurd hnil (by simp)
    · rw [List.cons.injEq, Prod.mk.injEq] at hrem
      exact absurd (hl.trans hrem.1.1.symm) hne

/-- What has been gone through leaves the rest. -/
theorem Fits.tail (h : Fits listenSocket i ((fd, r) :: rest) s) (htable : TableMatches listenSocket s')
    (hc : ∀ t, t ∈ s.clients → t ≠ fd → t ∈ s'.clients) : Fits listenSocket (i + 1) rest s' := by
  have hdistinct := h.distinct
  rw [List.map_cons, List.nodup_cons] at hdistinct
  refine ⟨htable, hdistinct.2, fun hi => absurd hi (Nat.succ_ne_zero i), ?_⟩
  intro p hp
  obtain ⟨hclient, hne⟩ := h.rest_clients p hp
  exact Or.inl (hc p.1 hclient hne)

/-- A client that has been accepted. -/
theorem TableMatches.connect (h : TableMatches listenSocket s) (hnew : sock ∉ s.clients)
    (hl : sock ≠ listenSocket) (hs : Leaves (fun t => t = sock ∨ t ∈ s.clients) (s.pollFds ++ [sock]) s') :
    TableMatches listenSocket s' := by
  obtain ⟨socks, hpolled, hdistinct, hkeys⟩ := h
  refine ⟨socks ++ [sock], ?_, ?_, ?_⟩
  · rw [hs.polled, hpolled, List.cons_append]
  · rw [hs.polled]
    refine hdistinct.append (List.nodup_singleton sock) ?_
    rw [List.disjoint_singleton, hpolled, List.mem_cons, not_or]
    exact ⟨hl, fun hm => hnew ((hkeys sock).1 hm)⟩
  · intro t
    rw [hs.keys t, List.mem_append, List.mem_singleton, hkeys t, or_comm]

/-- A client that has been disconnected. -/
theorem TableMatches.hangup (h : TableMatches listenSocket s) (hc : fd ∈ s.clients)
    (hs : Leaves (fun t => t ∈ s.clients ∧ t ≠ fd) (s.pollFds.erase fd) s') :
    TableMatches listenSocket s' := by
  have hl : listenSocket ≠ fd := by
    rintro rfl
    exact h.not_client hc
  obtain ⟨socks, hpolled, hdistinct, hkeys⟩ := h
  have herase : s.pollFds.erase fd = listenSocket :: socks.erase fd := by
    rw [hpolled, List.erase_cons_tail (by simpa using hl)]
  refine ⟨socks.erase fd, hs.polled.trans herase, ?_, ?_⟩
  · rw [hs.polled]
    exact hdistinct.erase fd
  · intro t
    rw [hpolled, List.nodup_cons] at hdistinct
    rw [hs.keys t, hdistinct.2.mem_erase_iff, hkeys t, and_comm]

theorem TableMatches.receive (h : TableMatches listenSocket s)
    (hs : Leaves (fun t => t ∈ s.clients) s.pollFds s') : TableMatches listenSocket s' := by
  obtain ⟨socks, hpolled, hdistinct, hkeys⟩ := h
  refine ⟨socks, hs.polled.trans hpolled, ?_, ?_⟩
  · rw [hs.polled]
    exact hdistinct
  · intro t
    rw [hs.keys t, hkeys t]

/-- What the handler for a descriptor leaves: the rest of the iteration, or, when it hung up on the
listening socket, a poll table without it. -/
theorem Fits.event (h : Fits listenSocket i ((fd, r) :: rest) s) {ev : Event} {accepted : Option SOCKET}
    {received : Option Bytes} (hev : pollEvent i fd r accepted received = some ev) (hcan : ev.CanOccur s)
    (hacc : MayAccept listenSocket s ev)
    (hs : Leaves (ev.clientsAfter s) (ev.pollFdsAfter s.pollFds) s') :
    Fits listenSocket (i + 1) rest s' ∧ (i = 0 → ¬HangsUp r) ∨
      listenSocket ∉ s'.pollFds ∧ i = 0 ∧ HangsUp r := by
  rcases pollEvent_cases hev with ⟨rfl, hread, sock, rfl⟩ | ⟨hhang, hrecv⟩
  · -- a connection is accepted
    refine Or.inl ⟨h.tail (h.table.connect hcan.2 hacc.1 hs) ?_, fun _ hh => hread hh.1⟩
    exact fun t ht _ => (hs.keys t).2 (Or.inr ht)
  · rcases h.clients (fd, r) List.mem_cons_self with hclient | ⟨rfl, hlisten⟩
    · -- a client
      have hi : i ≠ 0 := by
        intro hi
        rcases h.first hi with hnil | ⟨r', rest', hrem⟩
        · exact absurd hnil (by simp)
        · rw [List.cons.injEq, Prod.mk.injEq] at hrem
          apply h.table.not_client
          rw [← hrem.1.1]
          exact hclient
      left
      refine ⟨?_, fun hi' => absurd hi' hi⟩
      rcases hrecv with ⟨buffer, rfl⟩ | rfl
      · exact h.tail (h.table.receive hs) fun t ht _ => (hs.keys t).2 ht
      · exact h.tail (h.table.hangup hclient hs) fun t ht hne => (hs.keys t).2 ⟨ht, hne⟩
    · -- the listening socket
      have hl : fd = listenSocket := hlisten
      rw [hl] at hrecv
      rcases hrecv with ⟨buffer, rfl⟩ | rfl
      · exact absurd hcan.1 h.table.not_client
      · right
        refine ⟨?_, rfl, hhang rfl⟩
        obtain ⟨socks, hpolled, hdistinct, -⟩ := h.table
        rw [hs.polled]
        exact fun hm => (hdistinct.mem_erase_iff.1 hm).1 rfl

/-! ## Steps of the loop -/

/-- The process is one of a run, and its handler in progress leaves what the iteration needs. -/
structure InOrder (listenSocket : SOCKET) (loop : PollLoop) : Prop where
  reachable : Machine.Reachable Machine.anyStep loop.machine
  connects : loop.machine.Connects (Fits listenSocket loop.index loop.remaining)

/-- The poll table has lost the listening socket in the iteration in progress. -/
structure Adrift (listenSocket : SOCKET) (loop : PollLoop) : Prop where
  reachable : Machine.Reachable Machine.anyStep loop.machine
  index : loop.index ≠ 0
  connects : loop.machine.Connects fun s => listenSocket ∉ s.pollFds

variable {loop loop' : PollLoop} {m' : Machine} {accepted : Option SOCKET} {received : Option Bytes}

theorem reachable_next {m : Machine} (hm : Machine.Reachable Machine.anyStep m) {l : Label}
    (h : m.next l = some m') : Machine.Reachable Machine.anyStep m' := by
  obtain ⟨db, sock, hrun⟩ := hm
  exact ⟨db, sock, hrun.tail ⟨l, trivial, h⟩⟩

theorem server_cases {l : Label} (h : loop.next listenSocket (.server l) = some loop') :
    (∀ ev, l ≠ .event ev) ∧ ∃ m', loop.machine.next l = some m' ∧ loop' = { loop with machine := m' } := by
  cases l with
  | event ev => exact absurd h (by simp [next])
  | _ =>
      refine ⟨by simp, ?_⟩
      simp only [next, Option.map_eq_some_iff] at h
      obtain ⟨m', hm', rfl⟩ := h
      exact ⟨m', hm', rfl⟩

theorem InOrder.server (h : InOrder listenSocket loop) {l : Label}
    (hnext : loop.next listenSocket (.server l) = some loop') :
    InOrder listenSocket loop' ∧ loop'.index = loop.index ∧ loop'.remaining = loop.remaining := by
  obtain ⟨hl, m', hm', rfl⟩ := server_cases hnext
  exact ⟨⟨reachable_next h.reachable hm',
    h.connects.next h.reachable (fun _ _ hf hb => hf.besides hb) hl hm'⟩, rfl, rfl⟩

theorem Adrift.server (h : Adrift listenSocket loop) {l : Label}
    (hnext : loop.next listenSocket (.server l) = some loop') : Adrift listenSocket loop' := by
  obtain ⟨hl, m', hm', rfl⟩ := server_cases hnext
  refine ⟨reachable_next h.reachable hm', h.index, h.connects.next h.reachable ?_ hl hm'⟩
  intro s s' hs hb
  rw [hb.2]
  exact hs

theorem visit_cases (h : loop.next listenSocket (.visit accepted received) = some loop') :
    ∃ fd r rest, loop.remaining = (fd, r) :: rest ∧ loop.machine.Idle ∧
      ((pollEvent loop.index fd r accepted received = none ∧ loop' = loop.advance loop.machine) ∨
        ∃ ev m', pollEvent loop.index fd r accepted received = some ev ∧
          MayAccept listenSocket loop.machine.globals ev ∧ ev.CanOccur loop.machine.globals ∧
          loop.machine.next (.event ev) = some m' ∧ loop' = loop.advance m') := by
  rw [next] at h
  cases hrem : loop.remaining with
  | nil =>
      rw [hrem] at h
      exact absurd h (by simp)
  | cons p rest =>
      obtain ⟨fd, r⟩ := p
      simp only [hrem] at h
      refine ⟨fd, r, rest, rfl, ?_⟩
      cases hev : pollEvent loop.index fd r accepted received with
      | none =>
          simp only [hev, Option.ite_none_right_eq_some, Option.some.injEq] at h
          exact ⟨h.1, Or.inl ⟨rfl, h.2.symm⟩⟩
      | some ev =>
          simp only [hev, Option.ite_none_right_eq_some, Option.map_eq_some_iff] at h
          obtain ⟨hacc, m', hm', rfl⟩ := h
          refine ⟨Machine.idle_of_event hm', Or.inr ⟨ev, m', rfl, hacc, ?_, hm', rfl⟩⟩
          simp only [Machine.next, Option.ite_none_right_eq_some] at hm'
          exact hm'.1.2

theorem connects_of_idle {m : Machine} {Q : Globals → Prop} (hidle : m.Idle) (hs : m.globals.KeysConnected)
    (hQ : Q m.globals) : m.Connects Q := by
  refine ⟨hs, ?_⟩
  cases hp : m.config.prog .main with
  | ret a => exact hQ
  | lock n next => simp [Machine.Idle, hp, Prog.isDone] at hidle
  | unlock n next => simp [Machine.Idle, hp, Prog.isDone] at hidle
  | act f next => simp [Machine.Idle, hp, Prog.isDone] at hidle

/-- A descriptor is gone through: the loop stays in order, unless it hangs up on the listening socket. -/
theorem InOrder.visit (h : InOrder listenSocket loop)
    (hnext : loop.next listenSocket (.visit accepted received) = some loop') :
    ∃ p rest, loop.remaining = p :: rest ∧ loop'.index ≠ 0 ∧
      ((loop.index = 0 → ¬HangsUp p.2) → InOrder listenSocket loop') ∧
      (loop.index = 0 → HangsUp p.2 → Adrift listenSocket loop') := by
  obtain ⟨fd, r, rest, hrem, hidle, ⟨hev, rfl⟩ | ⟨ev, m', hev, hacc, hcan, hm', rfl⟩⟩ :=
    visit_cases hnext
  · -- no event comes of the answer
    have hfits := h.connects.of_idle hidle
    rw [hrem] at hfits
    refine ⟨(fd, r), rest, hrem, Nat.succ_ne_zero _, ?_, ?_⟩
    · intro _
      refine ⟨h.reachable, connects_of_idle hidle h.connects.keysConnected ?_⟩
      show Fits listenSocket (loop.index + 1) loop.remaining.tail _
      rw [hrem]
      exact hfits.tail hfits.table fun _ ht _ => ht
    · intro _ hhang
      obtain ⟨ev, hsome, -⟩ := pollEvent_of_hangsUp hhang loop.index fd accepted received
      exact absurd (hev.symm.trans hsome) (by simp)
  · have hfits := h.connects.of_idle hidle
    rw [hrem] at hfits
    have hconnects := Machine.connects_event h.connects.keysConnected hm'
    have hreach := reachable_next h.reachable hm'
    refine ⟨(fd, r), rest, hrem, Nat.succ_ne_zero _, ?_, ?_⟩
    · intro hsteady
      refine ⟨hreach, hconnects.keysConnected, Prog.throughout_mono ?_ _ _ hconnects.main⟩
      intro _ s' hs'
      show Fits listenSocket (loop.index + 1) loop.remaining.tail s'
      rw [hrem]
      rcases hfits.event hev hcan hacc hs' with ⟨hfits', -⟩ | ⟨-, hi, hhang⟩
      · exact hfits'
      · exact absurd hhang (hsteady hi)
    · -- the listening socket is taken for a client and closed
      intro hi hhang
      refine ⟨hreach, Nat.succ_ne_zero _, hconnects.keysConnected,
        Prog.throughout_mono ?_ _ _ hconnects.main⟩
      intro _ s' hs'
      rcases hfits.event hev hcan hacc hs' with ⟨-, hsteady⟩ | ⟨hlost, -⟩
      · exact absurd hhang (hsteady hi)
      · exact hlost

/-- Nothing brings the listening socket back before the next iteration. -/
theorem Adrift.visit (h : Adrift listenSocket loop)
    (hnext : loop.next listenSocket (.visit accepted received) = some loop') :
    Adrift listenSocket loop' := by
  obtain ⟨fd, r, rest, hrem, hidle, ⟨hev, rfl⟩ | ⟨ev, m', hev, -, -, hm', rfl⟩⟩ := visit_cases hnext
  · exact ⟨h.reachable, Nat.succ_ne_zero _, h.connects⟩
  · have hlost := h.connects.of_idle hidle
    have hconnects := Machine.connects_event h.connects.keysConnected hm'
    refine ⟨reachable_next h.reachable hm', Nat.succ_ne_zero _, hconnects.keysConnected,
      Prog.throughout_mono ?_ _ _ hconnects.main⟩
    intro _ s' hs'
    rcases pollEvent_cases hev with ⟨hi, -⟩ | ⟨-, ⟨buffer, rfl⟩ | rfl⟩
    · exact absurd hi h.index
    · rw [hs'.polled]
      exact hlost
    · rw [hs'.polled]
      exact fun hm => hlost (List.mem_of_mem_erase hm)

/-- An iteration begins at the top; the first answer is for the listening socket. -/
theorem InOrder.poll (h : InOrder listenSocket loop) {revents : List (BitVec 16)}
    (hnext : loop.next listenSocket (.poll revents) = some loop') :
    InOrder listenSocket loop' ∧ loop'.index = 0 ∧
      ∃ r rest, revents.head? = some r ∧ loop'.remaining = (listenSocket, r) :: rest := by
  simp only [next, Option.ite_none_right_eq_some, Option.some.injEq] at hnext
  obtain ⟨⟨⟨-, hidle⟩, -, -, hlength⟩, rfl⟩ := hnext
  have htable := (h.connects.of_idle hidle).table
  obtain ⟨socks, hpolled, hdistinct, hkeys⟩ := htable
  cases revents with
  | nil =>
      rw [hpolled] at hlength
      exact absurd hlength (by simp)
  | cons r rs =>
      have hzip : loop.machine.globals.pollFds.zip (r :: rs) = (listenSocket, r) :: socks.zip rs := by
        rw [hpolled, List.zip_cons_cons]
      refine ⟨⟨h.reachable, connects_of_idle hidle h.connects.keysConnected
        ⟨⟨socks, hpolled, hdistinct, hkeys⟩, ?_, ?_, ?_⟩⟩, rfl, r, socks.zip rs, rfl, hzip⟩
      · show ((loop.machine.globals.pollFds.zip (r :: rs)).map Prod.fst).Nodup
        rw [List.map_fst_zip (Nat.le_of_eq hlength.symm)]
        exact hdistinct
      · exact fun _ => Or.inr ⟨r, socks.zip rs, hzip⟩
      · intro p hp
        have hmem : p.1 ∈ loop.machine.globals.pollFds := (List.of_mem_zip hp).1
        rw [hpolled, List.mem_cons] at hmem
        rcases hmem with hl | hc
        · exact Or.inr ⟨rfl, hl⟩
        · exact Or.inl ((hkeys p.1).1 hc)

theorem top_of_poll {revents : List (BitVec 16)}
    (hnext : loop.next listenSocket (.poll revents) = some loop') : loop.Top := by
  simp only [next, Option.ite_none_right_eq_some] at hnext
  exact hnext.1.1

/-! ## Runs of the loop -/

theorem run_concat (listenSocket : SOCKET) (loop : PollLoop) (ls : List PollLabel) (l : PollLabel) :
    loop.run listenSocket (ls ++ [l]) = (loop.run listenSocket ls).bind fun x => x.next listenSocket l := by
  rw [run, List.foldlM_append]
  show (loop.run listenSocket ls >>= fun x => [l].foldlM (next listenSocket) x) = _
  cases loop.run listenSocket ls with
  | none => rfl
  | some x => simp [List.foldlM]

/-- At some top of the run the poll table has not matched. -/
def Strayed (listenSocket : SOCKET) (start : PollLoop) (ls : List PollLabel) : Prop :=
  ∃ before x, before <+: ls ∧ start.run listenSocket before = some x ∧ x.Top ∧
    ¬TableMatches listenSocket x.machine.globals

/-- Where a run has come to: it is in order; or the answer that loses the listening socket has come, and it
is still to be gone through, or the socket is lost in this iteration or was in an earlier one. -/
inductive Course (listenSocket : SOCKET) (start : PollLoop) (ls : List PollLabel) (loop : PollLoop) :
    Prop where
  | steady (hls : ∀ l ∈ ls, l.Steady) (h : InOrder listenSocket loop)
      (hhead : loop.index = 0 → ∀ p ∈ loop.remaining.head?, ¬HangsUp p.2)
  | pending (hls : ¬∀ l ∈ ls, l.Steady) (h : InOrder listenSocket loop) (hi : loop.index = 0)
      (hhead : ∃ p ∈ loop.remaining.head?, HangsUp p.2)
  | lost (hls : ¬∀ l ∈ ls, l.Steady) (h : Adrift listenSocket loop)
  | strayed (hls : ¬∀ l ∈ ls, l.Steady) (h : Strayed listenSocket start ls)

theorem Strayed.concat {start : PollLoop} {ls : List PollLabel} (h : Strayed listenSocket start ls)
    (l : PollLabel) : Strayed listenSocket start (ls ++ [l]) := by
  obtain ⟨before, x, hpre, hrun⟩ := h
  exact ⟨before, x, hpre.trans (List.prefix_append ls [l]), hrun⟩

theorem steady_concat {ls : List PollLabel} {l : PollLabel} (hls : ∀ l' ∈ ls, l'.Steady)
    (hl : l.Steady) : ∀ l' ∈ ls ++ [l], l'.Steady := by
  intro l' hl'
  rcases List.mem_append.1 hl' with hl' | hl'
  · exact hls l' hl'
  · rw [List.mem_singleton.1 hl']
    exact hl

theorem not_steady_concat {ls : List PollLabel} (hls : ¬∀ l' ∈ ls, l'.Steady) (l : PollLabel) :
    ¬∀ l' ∈ ls ++ [l], l'.Steady :=
  fun hall => hls fun l' hl' => hall l' (List.mem_append_left [l] hl')

theorem Course.next {start : PollLoop} {ls : List PollLabel} {l : PollLabel}
    (h : Course listenSocket start ls loop) (hrun : start.run listenSocket ls = some loop)
    (hnext : loop.next listenSocket l = some loop') : Course listenSocket start (ls ++ [l]) loop' := by
  cases h with
  | steady hls h hhead =>
      cases l with
      | server l =>
          obtain ⟨h', hi, hrem⟩ := h.server hnext
          refine .steady (steady_concat hls trivial) h' ?_
          rw [hi, hrem]
          exact hhead
      | visit accepted received =>
          obtain ⟨p, rest, hrem, hi, hkeep, -⟩ := h.visit hnext
          rw [hrem] at hhead
          exact .steady (steady_concat hls trivial) (hkeep fun hz => hhead hz p rfl)
            fun hz => absurd hz hi
      | poll revents =>
          obtain ⟨h', hi, r, rest, hr, hrem⟩ := h.poll hnext
          by_cases hhang : HangsUp r
          · refine .pending ?_ h' hi ⟨(listenSocket, r), ?_, hhang⟩
            · intro hall
              exact hall (.poll revents) (List.mem_append_right ls List.mem_cons_self) r hr hhang
            · rw [hrem]
              rfl
          · refine .steady (steady_concat hls ?_) h' ?_
            · intro r' hr'
              rw [hr, Option.some.injEq] at hr'
              rw [← hr']
              exact hhang
            · intro _ p hp
              rw [hrem] at hp
              rw [← Option.some.inj hp]
              exact hhang
  | pending hls h hi hhead =>
      have hls' := not_steady_concat hls l
      obtain ⟨p, hp, hhang⟩ := hhead
      cases l with
      | server l =>
          obtain ⟨h', hi', hrem⟩ := h.server hnext
          refine .pending hls' h' (hi'.trans hi) ⟨p, ?_, hhang⟩
          rw [hrem]
          exact hp
      | visit accepted received =>
          obtain ⟨p', rest, hrem, -, -, hlose⟩ := h.visit hnext
          rw [hrem] at hp
          obtain rfl := Option.some.inj hp
          exact .lost hls' (hlose hi hhang)
      | poll revents =>
          -- the iteration is not over
          have htop := (top_of_poll hnext).1
          rw [htop] at hp
          exact absurd hp (by simp)
  | lost hls h =>
      have hls' := not_steady_concat hls l
      cases l with
      | server l => exact .lost hls' (h.server hnext)
      | visit accepted received => exact .lost hls' (h.visit hnext)
      | poll revents =>
          have htop := top_of_poll hnext
          refine .strayed hls' ⟨ls, loop, List.prefix_append ls _, hrun, htop, ?_⟩
          rintro ⟨socks, hpolled, -⟩
          apply h.connects.of_idle htop.2
          rw [hpolled]
          exact List.mem_cons_self
  | strayed hls h => exact .strayed (not_steady_concat hls l) (h.concat l)

theorem inOrder_boot (db : Database) (listenSocket : SOCKET) :
    InOrder listenSocket (boot db listenSocket) := by
  have hreach : Machine.Reachable Machine.anyStep (boot db listenSocket).machine :=
    ⟨db, listenSocket, .refl⟩
  refine ⟨hreach, connects_of_idle rfl (Machine.keysConnected_of_reachable hreach) ⟨?_, List.nodup_nil,
    fun _ => Or.inl rfl, fun p hp => absurd hp List.not_mem_nil⟩⟩
  refine ⟨[], rfl, List.nodup_singleton listenSocket, ?_⟩
  intro t
  simp [boot, Machine.boot, Machine.globals, Globals.boot]

theorem course_of_run (db : Database) (listenSocket : SOCKET) (ls : List PollLabel) :
    ∀ {loop : PollLoop}, (boot db listenSocket).run listenSocket ls = some loop →
      Course listenSocket (boot db listenSocket) ls loop := by
  induction ls using List.reverseRecOn with
  | nil =>
      intro loop hrun
      obtain rfl := Option.some.inj hrun
      exact .steady (fun l hl => absurd hl List.not_mem_nil) (inOrder_boot db listenSocket)
        fun _ p hp => absurd hp (by simp [boot])
  | append_singleton ls l ih =>
      intro loop' hrun
      rw [run_concat, Option.bind_eq_some_iff] at hrun
      obtain ⟨loop, hrun, hnext⟩ := hrun
      exact (ih hrun).next hrun hnext

theorem reachable_of_run {db : Database} {ls : List PollLabel}
    (hrun : (boot db listenSocket).run listenSocket ls = some loop) :
    Machine.Reachable Machine.anyStep loop.machine := by
  induction ls using List.reverseRecOn generalizing loop with
  | nil =>
      obtain rfl := Option.some.inj hrun
      exact ⟨db, listenSocket, .refl⟩
  | append_singleton ls l ih =>
      rw [run_concat, Option.bind_eq_some_iff] at hrun
      obtain ⟨before, hrun, hnext⟩ := hrun
      have hbefore := ih hrun
      cases l with
      | poll revents =>
          simp only [next, Option.ite_none_right_eq_some, Option.some.injEq] at hnext
          obtain ⟨-, rfl⟩ := hnext
          exact hbefore
      | visit accepted received =>
          obtain ⟨_, _, _, -, -, ⟨-, rfl⟩ | ⟨_, _, -, -, -, hm', rfl⟩⟩ := visit_cases hnext
          · exact hbefore
          · exact reachable_next hbefore hm'
      | server l =>
          obtain ⟨-, m', hm', rfl⟩ := server_cases hnext
          exact reachable_next hbefore hm'

/-- **The poll table matches the client table exactly when the listening socket never hangs up.** At the
top of every iteration `pollFds` is the listening socket and then, each once, the keys of `g_clients`, and at
all times every key is the socket of a connection: in a run of whole iterations this holds if and only if
no answer for the first descriptor reports an error or a hang-up and nothing to read. -/
theorem poll_table_matches_iff (db : Database) (listenSocket : SOCKET) (ls : List PollLabel)
    (loop : PollLoop) (hrun : (boot db listenSocket).run listenSocket ls = some loop)
    (htop : loop.Top) :
    (∀ before x, before <+: ls → (boot db listenSocket).run listenSocket before = some x →
      (x.Top → TableMatches listenSocket x.machine.globals) ∧ x.machine.globals.KeysConnected) ↔
    ∀ l ∈ ls, l.Steady := by
  constructor
  · intro hall
    cases course_of_run db listenSocket ls hrun with
    | steady hls _ _ => exact hls
    | pending _ _ _ hhead =>
        obtain ⟨p, hp, -⟩ := hhead
        rw [htop.1] at hp
        exact absurd hp (by simp)
    | lost _ h =>
        obtain ⟨socks, hpolled, -⟩ := (hall ls loop (List.prefix_refl ls) hrun).1 htop
        have hlost := h.connects.of_idle htop.2
        rw [hpolled] at hlost
        exact absurd List.mem_cons_self hlost
    | strayed _ h =>
        obtain ⟨before, x, hpre, hx, hxtop, hstray⟩ := h
        exact absurd ((hall before x hpre hx).1 hxtop) hstray
  · intro hsteady before x hpre hx
    have hbefore : ∀ l ∈ before, l.Steady := fun l hl => hsteady l (hpre.subset hl)
    have hkeysConnected := Machine.keysConnected_of_reachable (reachable_of_run hx)
    refine ⟨?_, hkeysConnected⟩
    intro hxtop
    cases course_of_run db listenSocket before hx with
    | steady _ h _ => exact (h.connects.of_idle hxtop.2).table
    | pending hls _ _ _ => exact absurd hbefore hls
    | lost hls _ => exact absurd hbefore hls
    | strayed hls _ => exact absurd hbefore hls

/-- The main thread takes `n` steps. -/
def working (n : Nat) : List PollLabel := List.replicate n (.server (.run .main (.midnight 0)))

/-- A client connects, and hangs up in the next iteration. -/
def brief : List PollLabel :=
  [.poll [POLLRDNORM], .visit (some 4) none] ++ working 8 ++
    [.poll [0, POLLHUP], .visit none none, .visit none none] ++ working 10

theorem poll_table_matches_iff_brief : ∃ loop, (boot {} 3).run 3 brief = some loop ∧ loop.Top ∧
    ((∀ before x, before <+: brief → (boot {} 3).run 3 before = some x →
      (x.Top → TableMatches 3 x.machine.globals) ∧ x.machine.globals.KeysConnected) ↔
      ∀ l ∈ brief, l.Steady) := by
  have hrun : ((boot {} 3).run 3 brief).any (fun loop => decide loop.Top) = true := by decide +kernel
  obtain ⟨loop, hloop, htop⟩ := (Option.any_eq_true _ _).1 hrun
  have htop' := of_decide_eq_true htop
  exact ⟨loop, hloop, htop', poll_table_matches_iff {} 3 brief loop hloop htop'⟩

/-- `WSAPoll` reports a hang-up on the listening socket. -/
def hangup : List PollLabel := [.poll [POLLHUP], .visit none none] ++ working 10

/-- After a hang-up on the listening socket the poll table is empty. -/
theorem not_poll_table_matches : ¬∀ (db : Database) (listenSocket : SOCKET) (ls : List PollLabel)
    (loop : PollLoop), (boot db listenSocket).run listenSocket ls = some loop → loop.Top →
      TableMatches listenSocket loop.machine.globals := by
  intro h
  have hrun : ((boot {} 3).run 3 hangup).any (fun loop =>
      decide (loop.Top ∧ loop.machine.globals.pollFds = [])) = true := by decide +kernel
  obtain ⟨loop, hloop, hp⟩ := (Option.any_eq_true _ _).1 hrun
  obtain ⟨htop, hempty⟩ := of_decide_eq_true hp
  obtain ⟨socks, hpolled, -⟩ := h {} 3 hangup loop hloop htop
  rw [hempty] at hpolled
  exact absurd hpolled (by simp)

end PollLoop

end TerminalChat.Server
