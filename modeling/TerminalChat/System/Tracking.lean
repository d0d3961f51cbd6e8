import Mathlib
import TerminalChat.Server.Informing
import TerminalChat.System.Network

/-!
# Clients that keep track of the server

What a client believes about its room is its view after the lines it has decoded. Decoding the lines
that are still on their way would lead to the view that the server has told it, so a client with
nothing on its way believes what it has been told. In runs whose events inform, that is where it is
(`Network.client_tracks_server`).
-/

set_option autoImplicit false

namespace TerminalChat.System

open TerminalChat.Concurrency TerminalChat.Text TerminalChat.Abstract TerminalChat.Server
  TerminalChat.Client

/-- The client knows whether it is in a room, which one it is, and whether it is flagged owner. -/
structure Tracks (state : ClientState) (info : ClientInfo) : Prop where
  inRoom : state.inRoom = true ↔ info.roomId ≠ []
  currentRoomId : info.roomId ≠ [] → state.currentRoomId = info.roomId
  isRoomOwner : state.isRoomOwner = info.isRoomOwner

instance (state : ClientState) (info : ClientInfo) : Decidable (Tracks state info) :=
  decidable_of_iff ((state.inRoom = true ↔ info.roomId ≠ []) ∧
      (info.roomId ≠ [] → state.currentRoomId = info.roomId) ∧
        state.isRoomOwner = info.isRoomOwner)
    ⟨fun ⟨h₁, h₂, h₃⟩ => ⟨h₁, h₂, h₃⟩, fun h => ⟨h.inRoom, h.currentRoomId, h.isRoomOwner⟩⟩

/-- A client whose view is its place and its ownership tracks the server. -/
theorem tracks_of_view {state : ClientState} {info : ClientInfo}
    (h : state.view = ⟨info.person.place, info.isRoomOwner⟩) : Tracks state info := by
  simp only [ClientState.view, View.mk.injEq] at h
  obtain ⟨hplace, howner⟩ := h
  -- the empty id is the server's way of saying that the client is in no room
  by_cases hin : info.roomId = []
  · rw [(ClientInfo.place_person_eq_none info).2 hin] at hplace
    refine ⟨?_, fun hne => absurd hin hne, howner⟩
    simpa [hin] using hplace
  · rw [(ClientInfo.place_person_eq_some info info.roomId).2 ⟨hin, rfl⟩] at hplace
    cases hroom : state.inRoom with
    | false => simp [hroom] at hplace
    | true =>
        rw [hroom, if_pos rfl, Option.some.injEq] at hplace
        exact ⟨iff_of_true hroom hin, fun _ => hplace, howner⟩

/-! ## Lines on their way -/

/-- The view after decoding `lines`. -/
def viewLines (lines : List Bytes) (v : View Bytes) : View Bytes :=
  lines.foldl (fun v line => viewLine line v) v

theorem viewLine_concat_newline (body : Bytes) (v : View Bytes) :
    viewLine (body ++ [newline]) v = viewLine body v := by
  have htrim : trim (body ++ [newline]) = trim body := by
    unfold trim
    rw [List.dropWhile_append]
    split
    · rename_i h
      rw [List.isEmpty_iff.1 h]
      rfl
    · exact List.rdropWhile_concat_pos _ _ _ (by decide)
  rw [viewLine, htrim, viewLine]

/-- Decoding what is on its way to the client `c` leads to the view that the trace `net` has given
it, and what it has sent is whole lines. -/
structure Endpoint.Follows (c : SOCKET) (ep : Endpoint) (net : List NetOp) : Prop where
  outgoing : ∀ line ∈ ep.outgoing, OneLine line
  incoming : ∃ lines : List Bytes, (∀ line ∈ lines, OneLine line) ∧
    ep.incompleteMessage ++ ep.incoming = closed newline lines ∧
      viewLines lines ep.state.view = viewOf net c

namespace Endpoint

variable {c : SOCKET} {ep : Endpoint} {net : List NetOp}

theorem follows_boot (c : SOCKET) : ({} : Endpoint).Follows c [] :=
  ⟨by simp, [], by simp, rfl, rfl⟩

/-- A line that is put on its way adds what it says to the view. -/
theorem Follows.put (h : ep.Follows c net) {body : Bytes} (hb : OneLine body) {op : NetOp}
    (hop : ∀ v, viewStep c v op = viewLine body v) :
    ({ ep with incoming := ep.incoming ++ (body ++ [newline]) } : Endpoint).Follows c
      (net ++ [op]) := by
  obtain ⟨lines, hlines, hstream, hview⟩ := h.incoming
  refine ⟨h.outgoing, lines ++ [body], fun line hl => ?_, ?_, ?_⟩
  · rcases List.mem_append.1 hl with hl | hl
    · exact hlines line hl
    · exact List.mem_singleton.1 hl ▸ hb
  · show ep.incompleteMessage ++ (ep.incoming ++ (body ++ [newline])) = _
    rw [← List.append_assoc, hstream, closed_append]
    simp [closed]
  · rw [viewOf_append, ← hview, viewLines, List.foldl_append]
    exact (hop _).symm

/-- A socket operation that does not concern the client. -/
theorem Follows.skip (h : ep.Follows c net) {op : NetOp} (hop : ∀ v, viewStep c v op = v) :
    ep.Follows c (net ++ [op]) := by
  obtain ⟨lines, hlines, hstream, hview⟩ := h.incoming
  refine ⟨h.outgoing, lines, hlines, hstream, ?_⟩
  rw [viewOf_append, hview]
  exact (hop _).symm

/-- The connection follows every socket operation of a server that sends lines. -/
theorem Follows.observe (h : ep.Follows c net) {op : NetOp} (hop : op.Lined) :
    (ep.observe c op).Follows c (net ++ [op]) := by
  cases op with
  | accepted t =>
      by_cases ht : t = c
      · subst ht
        simp only [Endpoint.observe, if_true]
        refine ⟨by simp, [], by simp, rfl, ?_⟩
        rw [viewOf_append]
        simp [viewStep, viewLines, ClientState.view, View.blank]
      · simp only [Endpoint.observe, if_neg ht]
        exact h.skip fun v => by simp [viewStep, ht]
  | sent t text =>
      by_cases ht : t = c
      · -- a text of the server is one line with its newline
        obtain ⟨body, rfl, hb⟩ := hop
        simp only [Endpoint.observe, if_pos ht]
        refine h.put hb fun v => ?_
        rw [← viewLine_concat_newline]
        simp [viewStep, ht]
      · simp only [Endpoint.observe, if_neg ht]
        exact h.skip fun v => by simp [viewStep, ht]
  | replayed t text =>
      by_cases ht : t = c
      · obtain ⟨body, rfl, hb⟩ := hop
        simp only [Endpoint.observe, if_pos ht]
        -- a row of the history begins with a bracket, so it says nothing about the place
        refine h.put ((show OneLine (str "[") by decide).append hb) fun v => ?_
        exact (quiet_bracket body v).symm
      · simp only [Endpoint.observe, if_neg ht]
        exact h.skip fun v => rfl
  | closed t => exact h.skip fun v => rfl

theorem Follows.observeAll {ops : List NetOp} (hops : ∀ op ∈ ops, op.Lined) :
    ∀ {ep : Endpoint} {net : List NetOp}, ep.Follows c net →
      (ops.foldl (Endpoint.observe c) ep).Follows c (net ++ ops) := by
  induction ops with
  | nil =>
      intro ep net h
      simpa using h
  | cons op ops ih =>
      intro ep net h
      have h' := ih (fun op' hop' => hops op' (List.mem_cons_of_mem op hop'))
        (h.observe (hops op List.mem_cons_self))
      simpa using h'

theorem Follows.received (h : ep.Follows c net) (l : Label) : (ep.received c l).Follows c net := by
  unfold Endpoint.received
  split
  · split
    · exact ⟨fun line hl => h.outgoing line (List.mem_of_mem_tail hl), h.incoming⟩
    · exact h
  · exact h

theorem Follows.typeName (h : ep.Follows c net) (typed : Bytes) :
    (ep.typeName typed).Follows c net := by
  refine ⟨fun line hl => ?_, h.incoming⟩
  rcases List.mem_append.1 hl with hl | hl
  · exact h.outgoing line hl
  · rw [List.mem_singleton.1 hl]
    refine (show OneLine (str "/SETNAME ") by decide).append ?_
    unfold chosenName
    split
    · decide
    · exact (oneLine_getline typed).trim

theorem Follows.typeLine (h : ep.Follows c net) (typed : Bytes) :
    (ep.typeLine typed).Follows c net := by
  obtain ⟨lines, hlines, hstream, hview⟩ := h.incoming
  refine ⟨fun line hl => ?_, lines, hlines, hstream, ?_⟩
  · rcases List.mem_append.1 hl with hl | hl
    · exact h.outgoing line hl
    · simp only [List.mem_map, Option.mem_toList] at hl
      obtain ⟨⟨m, v⟩, hsent, rfl⟩ := hl
      exact oneLine_sent (oneLine_getline typed) hsent
  · rw [← hview]
    exact congrArg (viewLines lines) (view_handleInput ep.state (getline typed))

theorem Follows.deliver (h : ep.Follows c net) (k : Nat) : (ep.deliver k).Follows c net := by
  obtain ⟨lines, hlines, hstream, hview⟩ := h.incoming
  refine ⟨h.outgoing, lines, hlines, ?_, hview⟩
  show ep.incompleteMessage ++ ep.incoming.take k ++ ep.incoming.drop k = _
  rw [List.append_assoc, List.take_append_drop, hstream]

/-- Decoding a line moves its effect from the stream into the state of the client. -/
theorem Follows.decode (h : ep.Follows c net) {ep' : Endpoint} (hd : ep.decode = some ep') :
    ep'.Follows c net := by
  obtain ⟨lines, hlines, hstream, hview⟩ := h.incoming
  simp only [Endpoint.decode, Option.map_eq_some_iff] at hd
  obtain ⟨⟨line, rest⟩, htake, rfl⟩ := hd
  have hfirst := takeMessage_append htake ep.incoming
  rw [hstream] at hfirst
  obtain ⟨more, rfl, hmore⟩ := takeMessage_closed hlines hfirst
  refine ⟨h.outgoing, more, fun l hl => hlines l (List.mem_cons_of_mem line hl), hmore, ?_⟩
  rw [← hview, viewLines, viewLines, List.foldl_cons]
  exact congrArg (viewLines more) (view_receiveLine line ep.state)

/-- A client with nothing on its way has been told what it believes. -/
theorem Follows.view_of_quiescent (h : ep.Follows c net) (hq : ep.Quiescent) :
    ep.state.view = viewOf net c := by
  obtain ⟨lines, -, hstream, hview⟩ := h.incoming
  rw [hq.2.1, hq.2.2] at hstream
  cases lines with
  | nil => exact hview
  | cons line lines => simp [closed] at hstream

end Endpoint

/-! ## Runs -/

namespace Network

/-- The server writes lines, and every connection follows its trace. -/
structure Synced (n : Network) : Prop where
  server : n.server.WritesLines
  client : ∀ c, (n.client c).Follows c n.server.globals.net

variable {ok : Machine → Label → Prop} {n n' : Network}

/-- The received line is one that a client has sent. -/
theorem Synced.oneLine (h : n.Synced) {l : Label} (hl : n.Supplies l) (sock : SOCKET)
    (buffer : Bytes) (he : l = .event (.receive sock buffer)) : OneLine buffer := by
  subst he
  exact (h.client sock).outgoing buffer (List.mem_of_head? hl)

/-- Every move keeps the network synced. -/
theorem Synced.step (h : n.Synced) (hstep : Step ok n n') : n'.Synced := by
  rcases server_of_step hstep with ⟨l, m, -, hsup, hm, rfl⟩ | ⟨c, ep, rfl, hmove⟩
  · obtain ⟨hwrites, ops, hops⟩ := h.server.next (h.oneLine hsup) hm
    refine ⟨hwrites, fun c => ?_⟩
    -- what this step added to the trace
    have hnew : m.globals.net.drop n.server.globals.net.length = ops := by
      rw [← hops, List.drop_left]
    have hlined : ∀ op ∈ ops, op.Lined := fun op hop =>
      hwrites.globals.net op (hops ▸ List.mem_append_right _ hop)
    have hfollows := ((h.client c).received l).observeAll hlined
    rw [hops] at hfollows
    rw [serve]
    simpa only [hnew] using hfollows
  · refine ⟨h.server, fun d => ?_⟩
    -- a step of one client touches no other
    by_cases hd : d = c
    · subst hd
      simp only [setClient, Function.update_self]
      have hc := h.client d
      rcases hmove with ⟨typed, rfl⟩ | ⟨typed, rfl⟩ | ⟨k, rfl⟩ | hdecode
      · exact hc.typeName typed
      · exact hc.typeLine typed
      · exact hc.deliver k
      · exact hc.decode hdecode
    · simp only [setClient, Function.update_of_ne hd]
      exact h.client d

theorem Reachable.synced (hn : Reachable ok n) : n.Synced := by
  obtain ⟨db, listenSocket, hdb, hrun⟩ := hn
  induction hrun with
  | refl => exact ⟨Machine.writesLines_boot hdb listenSocket, fun c => Endpoint.follows_boot c⟩
  | tail _ hstep ih => exact ih.step hstep

/-- Client state tracks server state, in every run of events that inform. -/
theorem client_tracks_server (n : Network) (hn : Reachable (Machine.eventsIn Informs) n)
    (hidle : n.server.Idle) (c : SOCKET) (hc : c ∈ n.server.globals.clients)
    (hq : (n.client c).Quiescent) : Tracks (n.client c).state (n.server.globals.info c) := by
  refine tracks_of_view ?_
  rw [(hn.synced.client c).view_of_quiescent hq]
  exact hn.server.informed hidle hc

/-- A client connects, gives its name, and is told that the name is set. -/
def enters (c : SOCKET) (name : String) : List Move :=
  [.server (.event (.connect c)), .typeName c (str name),
    .server (.event (.receive c (str "/SETNAME " ++ str name))), .deliver c 1000, .decode c, .decode c]

/-- The user types a line, and the server receives it. -/
def saying (c : SOCKET) (line : String) : List Move :=
  [.typeLine c (str line), .server (.event (.receive c (str line)))]

theorem client_tracks_server_joins : ∃ n, Reachable (Machine.eventsIn Informs) n ∧
    Tracks (n.client 5).state (n.server.globals.info 5) ∧
      (n.client 5).state.currentRoomId = str "100007" := by
  obtain ⟨n, hn, hp⟩ := reachable_of_play Informs 7
    (enters 4 "ann" ++ enters 5 "bob" ++ saying 4 "/CREATE PUBLIC" ++ saying 5 "/JOIN 100007" ++
      [.deliver 5 1000, .decode 5])
    (fun n => decide (n.server.Idle ∧ 5 ∈ n.server.globals.clients ∧ (n.client 5).Quiescent ∧
      (n.client 5).state.currentRoomId = str "100007")) (by decide +kernel)
  obtain ⟨hidle, hc, hq, hroom⟩ := of_decide_eq_true hp
  exact ⟨n, hn, client_tracks_server n hn hidle 5 hc hq, hroom⟩

/-- After a JOIN that finds no room, a client that is in a room believes it is in none. -/
theorem not_client_tracks_server : ¬∀ n, Reachable Machine.anyStep n → n.server.Idle →
    ∀ c ∈ n.server.globals.clients, (n.client c).Quiescent →
      Tracks (n.client c).state (n.server.globals.info c) := by
  intro h
  obtain ⟨n, hn, hp⟩ := reachable_of_play (fun _ _ => True) 7
    (enters 4 "ann" ++ saying 4 "/CREATE PUBLIC" ++ saying 4 "/JOIN 1" ++
      [.deliver 4 1000, .decode 4, .decode 4])
    (fun n => decide (n.server.Idle ∧ 4 ∈ n.server.globals.clients ∧ (n.client 4).Quiescent ∧
      (n.client 4).state.inRoom = false ∧ (n.server.globals.info 4).roomId = str "100007"))
    (by decide +kernel)
  obtain ⟨hidle, hc, hq, hout, hin⟩ := of_decide_eq_true hp
  have htracks := h n (hn.mono fun _ _ _ => trivial) hidle 4 hc hq
  rw [htracks.inRoom.2 (by rw [hin]; decide)] at hout
  exact absurd hout (by simp)

end Network

end TerminalChat.System
