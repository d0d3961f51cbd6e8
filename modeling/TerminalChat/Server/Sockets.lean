import Mathlib
import TerminalChat.Concurrency.Termination
import TerminalChat.Server.Conduct
import TerminalChat.Server.Lifecycle
import TerminalChat.Server.Polling

/-!
# Sockets

What the server does with the sockets of its clients. `accept` gives a socket that is not open; whatever is
sent or replayed goes to a socket that is open, the lines about private messages apart, which the broadcaster
sends to a socket number that it got with the message; and what is closed is open (`Proper`,
`PollLoop.sockets_in_place`).
-/

set_option autoImplicit false

namespace TerminalChat.Server

open TerminalChat.Concurrency TerminalChat.Text TerminalChat.Client

/-- A line about a private message: to the client that was looked up, or to the sender. -/
def NetOp.Whisper (op : NetOp) : Prop := ∃ message now t, op ∈ privateOps message now t

/-- After the operations `net` the operation meets its socket as it should be. -/
def NetOp.InPlace (net : List NetOp) : NetOp → Prop
  | .accepted t => connected net t = false
  | .sent t text => connected net t = true ∨ (NetOp.sent t text).Whisper
  | .replayed t _ => connected net t = true
  | .closed t => connected net t = true

/-- Every operation is in place. -/
def Proper (net : List NetOp) : Prop :=
  ∀ before op after, net = before ++ op :: after → op.InPlace before

/-! ## Traces -/

section Traces

variable {net ops : List NetOp} {op : NetOp} {t : SOCKET}

theorem proper_nil : Proper [] := by
  intro before op after h
  exact absurd h (by simp)

theorem Proper.concat (h : Proper net) (hop : op.InPlace net) : Proper (net ++ [op]) := by
  intro before op' after heq
  -- the last operation is `op`, or the split is one of `net`
  induction after using List.reverseRecOn with
  | nil =>
      obtain ⟨rfl, hlast⟩ := List.append_inj' heq rfl
      rw [List.cons.injEq] at hlast
      rw [← hlast.1]
      exact hop
  | append_singleton after last _ =>
      rw [← List.cons_append, ← List.append_assoc] at heq
      obtain ⟨rfl, -⟩ := List.append_inj' heq rfl
      exact h before op' after rfl

/-- A proper trace, from its end. -/
theorem Proper.split (h : Proper (net ++ [op])) : Proper net ∧ op.InPlace net := by
  constructor
  · intro before op' after heq
    exact h before op' (after ++ [op]) (by rw [heq, List.append_assoc, List.cons_append])
  · exact h net op [] rfl

/-- What has been accepted and not closed is open. -/
theorem Proper.balance (h : Proper net) (t : SOCKET) :
    net.count (.accepted t) = net.count (.closed t) + (connected net t).toNat := by
  induction net using List.reverseRecOn with
  | nil => rfl
  | append_singleton net op ih =>
      obtain ⟨hnet, hop⟩ := h.split
      have hcount := ih hnet
      rw [List.count_append, List.count_append, connected_append]
      cases op with
      | accepted u =>
          by_cases hu : u = t
          · rw [hu, NetOp.InPlace] at hop
            rw [hop] at hcount
            simp [hu, connectedStep, hcount]
          · have hne : (u == t) = false := beq_false_of_ne hu
            simpa [hu, hne, connectedStep] using hcount
      | closed u =>
          by_cases hu : u = t
          · rw [hu, NetOp.InPlace] at hop
            rw [hop] at hcount
            simp [hu, connectedStep, hcount]
          · have hne : (u == t) = false := beq_false_of_ne hu
            simpa [hu, hne, connectedStep] using hcount
      | sent u text => simpa [connectedStep] using hcount
      | replayed u text => simpa [connectedStep] using hcount

theorem talks_of_whisper (h : op.Whisper) : op.Talks := by
  obtain ⟨message, now, t, hop⟩ := h
  exact (aside_privateOps message now t op hop).talks

/-- The operation talks to a socket that is open, or about a private message. -/
def NetOp.TalksInPlace (net : List NetOp) (op : NetOp) : Prop := op.Talks ∧ op.InPlace net

/-- While nothing but talk happens, it stays in place. -/
theorem Proper.talk (h : Proper net) (hops : ∀ op ∈ ops, op.TalksInPlace net) : Proper (net ++ ops) := by
  induction ops using List.reverseRecOn with
  | nil => rwa [List.append_nil]
  | append_singleton ops op ih =>
      have hbefore : ∀ op' ∈ ops, op'.TalksInPlace net :=
        fun op' hop' => hops op' (List.mem_append_left _ hop')
      have hsame : ∀ t, connected (net ++ ops) t = connected net t :=
        connected_of_talks (fun op' hop' => (hbefore op' hop').1) net
      rw [← List.append_assoc]
      apply (ih hbefore).concat
      obtain ⟨htalks, hplace⟩ := hops op (List.mem_append_right _ List.mem_cons_self)
      cases op with
      | accepted t => exact htalks.elim
      | closed t => exact htalks.elim
      | sent t text =>
          rw [NetOp.InPlace, hsame]
          exact hplace
      | replayed t text =>
          rw [NetOp.InPlace, hsame]
          exact hplace

end Traces

/-! ## Sockets in place -/

/-- The tables, with the members of all rooms among the keys and every operation in place. -/
structure TablesInPlace (K : SOCKET → Prop) (l : List SOCKET) (o : SOCKET → Bool) (s : Globals) : Prop where
  tables : TablesAre K l o s
  members : ∀ t r, s.IsMember t r → K t
  proper : Proper s.net

/-- At every moment: members have keys, keys have connections, and every operation is in place. -/
structure Globals.SocketsInPlace (s : Globals) : Prop where
  keysConnected : s.KeysConnected
  members : ∀ t r, s.IsMember t r → t ∈ s.clients
  proper : Proper s.net

/-- Between two handlers: moreover every connection has its key. -/
structure Globals.SocketsInStep (s : Globals) : Prop extends s.SocketsInPlace where
  keyed : ∀ t, connected s.net t = true → t ∈ s.clients

theorem isMember_congr {s s' : Globals} (h : s'.chatRooms = s.chatRooms) (t : SOCKET) (r : Bytes) :
    s'.IsMember t r ↔ s.IsMember t r := by
  rw [Globals.IsMember, Globals.IsMember, h]

theorem isMember_of_shrink {s : Globals} {q r : Bytes} {t : SOCKET} {f : ChatRoom → ChatRoom}
    (hf : ∀ room u, u ∈ (f room).clients → u ∈ room.clients) (h : (s.editRoom q f).IsMember t r) :
    s.IsMember t r := by
  rcases isMember_of_editRoom h with h | ⟨rfl, room, hroom, hmem⟩
  · exact h
  · exact ⟨room, hroom, hf room t hmem⟩

section InPlace

variable {K : SOCKET → Prop} {l : List SOCKET} {o : SOCKET → Bool} {s s' : Globals} {sock : SOCKET}

theorem TablesInPlace.inPlace (h : TablesInPlace K l o s) (ho : ∀ t, K t → o t = true) :
    s.SocketsInPlace := by
  refine ⟨h.tables.keysConnected ho, ?_, h.proper⟩
  intro t r ht
  exact (h.tables.keys t).2 (h.members t r ht)

theorem Globals.SocketsInPlace.tablesInPlace (h : s.SocketsInPlace) :
    TablesInPlace (fun t => t ∈ s.clients) s.pollFds (connected s.net) s :=
  ⟨tablesAre_now s, h.members, h.proper⟩

/-- Talk with clients that are there. -/
theorem TablesInPlace.talk (h : TablesInPlace K l o s) (hc : s'.clients = s.clients)
    (hr : s'.chatRooms = s.chatRooms) (hp : s'.pollFds = s.pollFds) (ops : List NetOp)
    (hn : s'.net = s.net ++ ops) (hops : ∀ op ∈ ops, op.TalksInPlace s.net) : TablesInPlace K l o s' := by
  refine ⟨h.tables.talk hc hp ops hn fun op hop => (hops op hop).1, ?_, ?_⟩
  · intro t r ht
    exact h.members t r ((isMember_congr hr t r).1 ht)
  · rw [hn]
    exact h.proper.talk hops

theorem TablesInPlace.same (h : TablesInPlace K l o s) (hc : s'.clients = s.clients)
    (hr : s'.chatRooms = s.chatRooms) (hp : s'.pollFds = s.pollFds) (hn : s'.net = s.net) :
    TablesInPlace K l o s' :=
  h.talk hc hr hp [] (hn.trans (List.append_nil _).symm) fun _ hop => absurd hop List.not_mem_nil

/-- The rooms may lose members. -/
theorem TablesInPlace.shrink (h : TablesInPlace K l o s) (hc : s'.clients = s.clients)
    (hp : s'.pollFds = s.pollFds) (hn : s'.net = s.net) (hr : ∀ t r, s'.IsMember t r → s.IsMember t r) :
    TablesInPlace K l o s' := by
  refine ⟨h.tables.same hc hp hn, ?_, ?_⟩
  · intro t r ht
    exact h.members t r (hr t r ht)
  · rw [hn]
    exact h.proper

/-- Commands keep the sockets in place. -/
theorem closed_tablesInPlace (ho : ∀ t, K t → o t = true) : Closed K (TablesInPlace K l o) where
  keys h := h.tables.keys
  same := TablesInPlace.same
  send {s t} h ht text := by
    refine h.talk rfl rfl rfl [.sent t text] rfl ?_
    intro op hop
    rw [List.mem_singleton.1 hop]
    exact ⟨trivial, Or.inl ((h.tables.conns t).trans (ho t ht))⟩
  tell {s socks} h hsocks text := by
    refine h.talk rfl rfl rfl (socks.map fun sock => .sent sock text) rfl ?_
    intro op hop
    obtain ⟨t, ht, rfl⟩ := List.mem_map.1 hop
    obtain ⟨r, hmem⟩ := hsocks t ht
    exact ⟨trivial, Or.inl ((h.tables.conns t).trans (ho t (h.members t r hmem)))⟩
  replay {s t} h ht history := by
    refine h.talk rfl rfl rfl (history.map fun msg => .replayed t msg) rfl ?_
    intro op hop
    obtain ⟨msg, -, rfl⟩ := List.mem_map.1 hop
    exact ⟨trivial, (h.tables.conns t).trans (ho t ht)⟩
  setInfo h ht f := ⟨h.tables.setInfo ht f, h.members, h.proper⟩
  edit h hf r := h.shrink rfl rfl rfl fun t q hq => isMember_of_shrink hf hq
  enter {s t} h ht r now := by
    refine ⟨h.tables.same rfl rfl rfl, ?_, h.proper⟩
    intro u q hu
    rcases isMember_of_editRoom hu with hu | ⟨rfl, room, hroom, hmem⟩
    · exact h.members u q hu
    · rcases (room.mem_clients_addClient _ _ _).1 hmem with rfl | hmem
      · exact ht
      · exact h.members u r ⟨room, hroom, hmem⟩
  make {s} h r isPrivate password t := by
    refine ⟨h.tables.same rfl rfl rfl, ?_, h.proper⟩
    rintro u q ⟨room, hroom, hmem⟩
    rw [Globals.getElem?_insertRoom] at hroom
    split at hroom
    · -- the new room has no members
      rw [← Option.some.inj hroom] at hmem
      exact absurd hmem (ChatRoom.mem_clients_new _ _ _ _ _)
    · exact h.members u q ⟨room, hroom, hmem⟩
  erase {s} h r := by
    refine TablesInPlace.shrink h rfl rfl rfl ?_
    rintro t q ⟨room, hroom, hmem⟩
    rw [Globals.getElem?_eraseRoom] at hroom
    split at hroom
    · exact absurd hroom (by simp)
    · exact ⟨room, hroom, hmem⟩

/-! ## The other threads -/

/-- What the other threads do: they leave the keys and the poll table alone, no room gets members, and
they talk to members, or about private messages. -/
structure Around (s s' : Globals) : Prop where
  besides : Besides s s'
  members : ∀ t r, s'.IsMember t r → s.IsMember t r
  talk : ∃ ops, s'.net = s.net ++ ops ∧
    ∀ op ∈ ops, (∃ t text r, op = .sent t text ∧ s.IsMember t r) ∨ op.Whisper

theorem Around.of_silent (h : Besides s s') (hr : ∀ t r, s'.IsMember t r → s.IsMember t r)
    (hn : s'.net = s.net) : Around s s' :=
  ⟨h, hr, [], hn.trans (List.append_nil _).symm, fun _ hop => absurd hop List.not_mem_nil⟩

theorem Around.refl (s : Globals) : Around s s := .of_silent (.refl s) (fun _ _ h => h) rfl

theorem Around.trans {s'' : Globals} (h : Around s s') (h' : Around s' s'') : Around s s'' := by
  obtain ⟨ops, hnet, hops⟩ := h.talk
  obtain ⟨ops', hnet', hops'⟩ := h'.talk
  refine ⟨h.besides.trans h'.besides, fun t r ht => h.members t r (h'.members t r ht), ops ++ ops', ?_, ?_⟩
  · rw [hnet', hnet, List.append_assoc]
  · intro op hop
    rcases List.mem_append.1 hop with hop | hop
    · exact hops op hop
    · rcases hops' op hop with ⟨t, text, r, rfl, hmem⟩ | hwhisper
      · exact Or.inl ⟨t, text, r, rfl, h.members t r hmem⟩
      · exact Or.inr hwhisper

theorem TablesInPlace.around (h : TablesInPlace K l o s) (ho : ∀ t, K t → o t = true) (hs : Around s s') :
    TablesInPlace K l o s' := by
  obtain ⟨ops, hnet, hops⟩ := hs.talk
  refine ⟨h.tables.besides hs.besides, fun t r ht => h.members t r (hs.members t r ht), ?_⟩
  rw [hnet]
  apply h.proper.talk
  intro op hop
  rcases hops op hop with ⟨t, text, r, rfl, hmem⟩ | hwhisper
  · exact ⟨trivial, Or.inl ((h.tables.conns t).trans (ho t (h.members t r hmem)))⟩
  · refine ⟨talks_of_whisper hwhisper, ?_⟩
    have htalks := talks_of_whisper hwhisper
    cases op with
    | sent t text => exact Or.inr hwhisper
    | replayed t text =>
        obtain ⟨message, now, u, hmem⟩ := hwhisper
        obtain ⟨_, _, heq, -⟩ := aside_privateOps message now u _ hmem
        exact absurd heq (by simp)
    | accepted t => exact htalks.elim
    | closed t => exact htalks.elim

theorem Globals.SocketsInPlace.around (h : s.SocketsInPlace) (hs : Around s s') : s'.SocketsInPlace :=
  (h.tablesInPlace.around h.keysConnected hs).inPlace h.keysConnected

theorem Globals.SocketsInStep.around (h : s.SocketsInStep) (hs : Around s s') : s'.SocketsInStep := by
  refine ⟨h.toSocketsInPlace.around hs, ?_⟩
  have htables := (tablesAre_now s).besides hs.besides
  intro t ht
  rw [htables.conns t] at ht
  exact (htables.keys t).2 (h.keyed t ht)

/-! ## Connections come and go -/

theorem TablesInPlace.accepted (h : TablesInPlace K l o s) (hfree : o sock = false) :
    TablesInPlace K l (fun t => sock == t || o t) { s with net := s.net ++ [.accepted sock] } :=
  ⟨h.tables.accepted sock, h.members, h.proper.concat ((h.tables.conns sock).trans hfree)⟩

theorem TablesInPlace.insert (h : TablesInPlace K l o s) (sock : SOCKET) (c : ClientInfo) :
    TablesInPlace (fun t => t = sock ∨ K t) l o { s with clients := s.clients.insert sock c } :=
  ⟨h.tables.insert sock c, fun t r ht => Or.inr (h.members t r ht), h.proper⟩

theorem TablesInPlace.append (h : TablesInPlace K l o s) (sock : SOCKET) :
    TablesInPlace K (l ++ [sock]) o { s with pollFds := s.pollFds ++ [sock] } :=
  ⟨h.tables.append sock, h.members, h.proper⟩

theorem TablesInPlace.erase (h : TablesInPlace K l o s) (haway : ∀ r, ¬s.IsMember sock r) :
    TablesInPlace (fun t => K t ∧ t ≠ sock) l o { s with clients := s.clients.erase sock } := by
  refine ⟨h.tables.erase sock, ?_, h.proper⟩
  intro t r ht
  refine ⟨h.members t r ht, ?_⟩
  rintro rfl
  exact haway r ht

theorem TablesInPlace.closed (h : TablesInPlace K l o s) (hopen : o sock = true) :
    TablesInPlace K l (fun t => !(sock == t) && o t) { s with net := s.net ++ [.closed sock] } :=
  ⟨h.tables.closed sock, h.members, h.proper.concat ((h.tables.conns sock).trans hopen)⟩

theorem TablesInPlace.remove (h : TablesInPlace K l o s) (sock : SOCKET) :
    TablesInPlace K (l.erase sock) o { s with pollFds := s.pollFds.erase sock } :=
  ⟨h.tables.remove sock, h.members, h.proper⟩

/-! ## Handlers -/

/-- One action that keeps the sockets in place, and then the rest. -/
theorem socketsInPlace_step_then {b : Sect Unit} {f : Unit → Thread Unit} {Q : Globals → Prop}
    {K' : SOCKET → Prop} {l' : List SOCKET} {o' : SOCKET → Bool} (hs : TablesInPlace K l o s)
    (ho : ∀ t, K t → o t = true)
    (hb : ∀ e s, TablesInPlace K l o s → TablesInPlace K' l' o' (b.exec e s).state)
    (ho' : ∀ t, K' t → o' t = true)
    (hf : ∀ s', TablesInPlace K' l' o' s' → (f ()).throughout Around Globals.SocketsInPlace (fun _ => Q) s') :
    (step b >>= f).throughout Around Globals.SocketsInPlace (fun _ => Q) s := by
  rw [Prog.throughout_bind, step, Prog.throughout_block]
  intro e s' haround
  have hsockets := hb e s' (hs.around ho haround)
  exact ⟨hsockets.inPlace ho', hf _ hsockets⟩

theorem socketsInPlace_critical_then {m : Mutex} {b : Sect Unit} {f : Unit → Thread Unit}
    {Q : Globals → Prop} {K' : SOCKET → Prop} {l' : List SOCKET} {o' : SOCKET → Bool}
    (hs : TablesInPlace K l o s) (ho : ∀ t, K t → o t = true)
    (hb : ∀ e s, TablesInPlace K l o s → TablesInPlace K' l' o' (b.exec e s).state)
    (ho' : ∀ t, K' t → o' t = true)
    (hf : ∀ s', TablesInPlace K' l' o' s' → (f ()).throughout Around Globals.SocketsInPlace (fun _ => Q) s') :
    (critical m b >>= f).throughout Around Globals.SocketsInPlace (fun _ => Q) s := by
  have h := socketsInPlace_step_then (Q := Q) hs ho hb ho' hf
  rw [Prog.throughout_bind] at h ⊢
  exact (Prog.throughout_holding m _ s).2 h

/-- A program that commands are made of. -/
theorem socketsInPlace_maintains {α : Type} {p : Thread α} {L : α → Prop} (hs : TablesInPlace K l o s)
    (ho : ∀ t, K t → o t = true) (hp : Maintains (TablesInPlace K l o) p L) :
    p.throughout Around Globals.SocketsInPlace (fun a s' => TablesInPlace K l o s' ∧ L a) s :=
  Prog.throughout_of_guar (fun _ _ h hs => h.around ho hs) (fun _ h => h.inPlace ho) _ _ hp hs

/-- Every connection has its key when all that were there have and none has been added. -/
theorem TablesInPlace.inStep (h : TablesInPlace K l o s) (ho : ∀ t, K t ↔ o t = true) : s.SocketsInStep := by
  refine ⟨h.inPlace fun t ht => (ho t).1 ht, ?_⟩
  intro t ht
  rw [h.tables.conns t] at ht
  exact (h.tables.keys t).2 ((ho t).2 ht)

theorem socketsInPlace_acceptClient (hs : s.SocketsInStep) (hnew : sock ∉ s.clients) :
    (acceptClient sock).throughout Around Globals.SocketsInPlace (fun _ => Globals.SocketsInStep) s := by
  have hbefore : ∀ t, t ∈ s.clients → (sock == t || connected s.net t) = true := by
    intro t ht
    rw [hs.keysConnected t ht, Bool.or_true]
  -- the connections are those before and the new one
  have hafter : ∀ t, t = sock ∨ t ∈ s.clients ↔ (sock == t || connected s.net t) = true := by
    intro t
    rw [Bool.or_eq_true, beq_iff_eq]
    constructor
    · rintro (rfl | ht)
      · exact Or.inl rfl
      · exact Or.inr (hs.keysConnected t ht)
    · rintro (rfl | ht)
      · exact Or.inl rfl
      · exact Or.inr (hs.keyed t ht)
  have hclosed : connected s.net sock = false := by
    rw [Bool.eq_false_iff]
    exact fun hopen => hnew (hs.keyed sock hopen)
  apply socketsInPlace_step_then hs.tablesInPlace hs.keysConnected (fun _ _ h => h.accepted hclosed) hbefore
  intro s₁ h₁
  apply socketsInPlace_critical_then h₁ hbefore (fun _ _ h => h.insert sock {}) fun t => (hafter t).1
  intro s₂ h₂
  apply socketsInPlace_critical_then h₂ (fun t => (hafter t).1) (fun _ _ h => h.append sock)
    fun t => (hafter t).1
  intro s₃ h₃
  apply Prog.throughout_mono _ _ _ (socketsInPlace_maintains h₃ (fun t => (hafter t).1)
    ((closed_tablesInPlace fun t => (hafter t).1).reply (Or.inl rfl) _))
  rintro _ s₄ ⟨h₄, -⟩
  exact h₄.inStep hafter

/-- The client is in no room. -/
def Globals.Away (s : Globals) (sock : SOCKET) : Prop := ∀ r, ¬s.IsMember sock r

/-- The client is in no other room than this one. -/
def Globals.OnlyIn (s : Globals) (sock : SOCKET) (r : Bytes) : Prop :=
  ∀ q, s.IsMember sock q → q ≠ [] ∧ q = r

/-- What the other threads and the rest of the handler keep. -/
theorem Globals.OnlyIn.around {r : Bytes} (h : s.OnlyIn sock r) (hs : Around s s') : s'.OnlyIn sock r :=
  fun q hq => h q (hs.members sock q hq)

theorem away_removeClient {r : Bytes} (h : s.OnlyIn sock r) :
    (s.editRoom r fun room => room.removeClient sock).Away sock := by
  rintro q ⟨room', hroom, hmem⟩
  rw [Globals.getElem?_editRoom] at hroom
  split at hroom
  · obtain ⟨room, -, rfl⟩ := Option.map_eq_some_iff.1 hroom
    exact ((room.mem_clients_removeClient sock sock).1 hmem).1 rfl
  · rename_i hne
    exact hne (h q ⟨room', hroom, hmem⟩).2.symm

/-- The first part of `removeClientFromRoom`. -/
theorem away_departRoom {r : Bytes} (username : Bytes) (e : Env) (h : s.OnlyIn sock r) :
    (do if ← roomExists r then departRoom r username sock : Sect Unit).post e s
      fun _ s' => s'.Away sock := by
  simp only [Block.post_bind, post_roomExists, Block.post_ite, Block.post_pure, departRoom,
    post_getCurrentTimestamp, post_broadcast, post_tellRoom]
  constructor
  · intro _
    exact away_removeClient fun q hq => h q hq
  · intro hnone q hq
    have hlive := hq.mem
    rw [(h q hq).2] at hlive
    exact hnone (Std.ExtTreeMap.contains_iff_mem.2 hlive)

theorem away_sweepRoom (r : Bytes) (e : Env) (h : s.Away sock) :
    (sweepRoom r).post e s fun _ s' => s'.Away sock := by
  simp only [sweepRoom, Block.post_bind, post_roomExists, Block.post_ite, Block.post_pure, post_askRoom,
    Block.post_modify, post_tellDatabase]
  refine ⟨fun _ => ⟨fun _ => ?_, fun _ => h⟩, fun _ => h⟩
  rintro q ⟨room, hroom, hmem⟩
  rw [Globals.getElem?_eraseRoom] at hroom
  split at hroom
  · exact absurd hroom (by simp)
  · exact h q ⟨room, hroom, hmem⟩

theorem socketsInPlace_removeClientFromRoom (hs : s.SocketsInStep) (hk : sock ∈ s.clients)
    (hback : s.OnlyIn sock (s.info sock).roomId) :
    (removeClientFromRoom sock).throughout Around Globals.SocketsInPlace (fun _ s' =>
      TablesInPlace (fun t => t ∈ s.clients) s.pollFds (connected s.net) s' ∧ s'.Away sock) s := by
  have hI := closed_tablesInPlace (l := s.pollFds) hs.keysConnected
  rw [removeClientFromRoom, Prog.throughout_bind]
  refine (Prog.throughout_holding _ _ _).2 ((Prog.throughout_block _ _ _).2 ?_)
  intro e s₁ haround₁
  have h₁ := hs.tablesInPlace.around hs.keysConnected haround₁
  have hin₁ := hback.around haround₁
  refine ⟨h₁.inPlace hs.keysConnected, ?_⟩
  -- the other threads have left the entry alone
  have hinfo : ((clientInfo sock).exec e s₁).value = s.info sock :=
    haround₁.besides.1.backdrop.info sock
  have hstate : ((clientInfo sock).exec e s₁).state = s₁ := rfl
  rw [hinfo, hstate]
  by_cases hroom : (s.info sock).roomId.isEmpty = true
  · rw [if_pos hroom]
    refine ⟨h₁, ?_⟩
    intro q hq
    obtain ⟨hne, heq⟩ := hin₁ q hq
    rw [heq] at hne
    exact hne (List.isEmpty_iff.1 hroom)
  · rw [if_neg hroom, Prog.throughout_bind]
    refine (Prog.throughout_holding _ _ _).2 ((Prog.throughout_block _ _ _).2 ?_)
    intro e' s₂ haround₂
    have hdepart := hI.departLiveRoom (s.info sock).roomId (s.info sock).username sock e' s₂
      (h₁.around hs.keysConnected haround₂)
    refine ⟨hdepart.1.inPlace hs.keysConnected, ?_⟩
    -- the entry and the sweep of the room change nothing about this
    refine Prog.throughout_mono (fun _ _ h => h.1) _ _ (Prog.throughout_of_guar (K := Whatever)
      (P := fun s' => TablesInPlace (fun t => t ∈ s.clients) s.pollFds (connected s.net) s' ∧ s'.Away sock)
      (fun _ _ h hs' => ⟨h.1.around hs.keysConnected hs', fun r hr => h.2 r (hs'.members sock r hr)⟩)
      (fun _ h => h.1.inPlace hs.keysConnected) _ _ ?_ ?_)
    · apply maintains_seq (K := Whatever)
      · apply maintains_critical
        intro _ _ h
        exact ⟨⟨hI.setInfo h.1 hk fun c => { c with roomId := [], isRoomOwner := false }, h.2⟩, trivial⟩
      · intro _ _
        apply maintains_critical
        exact fun e s h => ⟨⟨(hI.sweepRoom _ e s h.1).1, away_sweepRoom _ e h.2⟩, trivial⟩
    · exact ⟨hdepart.1, away_departRoom _ e' (hin₁.around haround₂)⟩

/-- A client that departs from its room is in none, and then its key and its connection go. -/
theorem socketsInPlace_handleClientDisconnect (hs : s.SocketsInStep) (hk : sock ∈ s.clients)
    (hback : s.OnlyIn sock (s.info sock).roomId) :
    (handleClientDisconnect sock).throughout Around Globals.SocketsInPlace
      (fun _ => Globals.SocketsInStep) s := by
  have hclosed : ∀ t, t ∈ s.clients ∧ t ≠ sock ↔ (!(sock == t) && connected s.net t) = true := by
    intro t
    rw [Bool.and_eq_true, Bool.not_eq_true', beq_eq_false_iff_ne]
    constructor
    · exact fun ht => ⟨ht.2.symm, hs.keysConnected t ht.1⟩
    · exact fun ht => ⟨hs.keyed t ht.2, ht.1.symm⟩
  rw [handleClientDisconnect, Prog.throughout_bind]
  apply Prog.throughout_mono _ _ _ (socketsInPlace_removeClientFromRoom hs hk hback)
  rintro _ s₁ ⟨h₁, haway⟩
  rw [Prog.throughout_bind]
  refine (Prog.throughout_holding _ _ _).2 ((Prog.throughout_block _ _ _).2 ?_)
  intro e s₂ haround
  -- the key goes, and no room has the client
  have h₂ := (h₁.around hs.keysConnected haround).erase fun r hr => haway r (haround.members _ r hr)
  have hkept : ∀ t, t ∈ s.clients ∧ t ≠ sock → connected s.net t = true := fun t ht => hs.keysConnected t ht.1
  refine ⟨h₂.inPlace hkept, ?_⟩
  apply socketsInPlace_step_then h₂ hkept (fun _ _ h => h.closed (hs.keysConnected sock hk))
    fun t => (hclosed t).1
  intro s₃ h₃
  rw [critical, Prog.throughout_holding, step, Prog.throughout_block]
  intro e' s' haround'
  have h₄ := (h₃.around (fun t => (hclosed t).1) haround').remove sock
  exact ⟨h₄.inPlace fun t => (hclosed t).1, h₄.inStep hclosed⟩

theorem socketsInPlace_handleClientMessage (hs : s.SocketsInStep) (hk : sock ∈ s.clients) (buffer : Bytes) :
    (handleClientMessage sock buffer).throughout Around Globals.SocketsInPlace
      (fun _ => Globals.SocketsInStep) s := by
  apply Prog.throughout_mono _ _ _ (socketsInPlace_maintains hs.tablesInPlace hs.keysConnected
    ((closed_tablesInPlace hs.keysConnected).handleClientMessage hk buffer))
  rintro _ s' ⟨h, -⟩
  exact h.inStep fun t => ⟨hs.keysConnected t, hs.keyed t⟩

end InPlace

/-- The event hangs up on no socket but a client's. -/
def Event.OnClient (s : Globals) : Event → Prop
  | .hangup sock => sock ∈ s.clients
  | _ => True

theorem socketsInPlace_handler {s : Globals} (hs : s.SocketsInStep) {ev : Event} (hev : ev.CanOccur s)
    (hclient : ev.OnClient s) (hback : ∀ sock, s.OnlyIn sock (s.info sock).roomId) :
    ev.handler.throughout Around Globals.SocketsInPlace (fun _ => Globals.SocketsInStep) s := by
  cases ev with
  | connect sock => exact socketsInPlace_acceptClient hs hev.2
  | receive sock buffer => exact socketsInPlace_handleClientMessage hs hev.1 buffer
  | hangup sock => exact socketsInPlace_handleClientDisconnect hs hclient (hback sock)

/-! ## Runs -/

namespace Machine

variable {ok : Machine → Label → Prop} {m m' : Machine} {l : Label}

/-- What a step of another thread does. -/
theorem Move.around {g g' : Note} {w w' : Watch} (h : Move m g w l m' g' w')
    (hl : ∀ e, l ≠ .run .main e) (hb : Besides m.globals m'.globals) :
    Around m.globals m'.globals := by
  cases h with
  | rest hs =>
      apply Around.of_silent hb
      · intro t r
        rw [hs]
        exact id
      · rw [hs]
  | wake hs =>
      apply Around.of_silent hb
      · intro t r
        rw [hs]
        exact id
      · rw [hs]
  | main H hd => exact absurd rfl (hl _)
  | broadcast hd =>
      refine ⟨hb, fun t r => (isMember_broadcast hd).1, ?_⟩
      -- by what the broadcaster has in hand
      cases hhand : w.hand with
      | empty =>
          rw [hhand] at hd
          refine ⟨[], ?_, fun _ hop => absurd hop List.not_mem_nil⟩
          rcases hd with hd | ⟨message, rest, -, hd⟩
          · rw [hd, List.append_nil]
          · rw [hd, List.append_nil]
      | taken message =>
          rw [hhand] at hd
          refine ⟨[], ?_, fun _ hop => absurd hop List.not_mem_nil⟩
          rw [show m'.globals = m.globals from hd, List.append_nil]
      | found message =>
          rw [hhand, Hand.Acts] at hd
          split at hd
          · refine ⟨[], ?_, fun _ hop => absurd hop List.not_mem_nil⟩
            rw [hd, List.append_nil]
          · rw [hd.2, state_deliverPublic]
            refine ⟨_, rfl, ?_⟩
            intro op hop
            obtain ⟨t, ht, rfl⟩ := List.mem_map.1 hop
            obtain ⟨r, hmem⟩ := Closed.members_of_targets
              (Closed.mem_of_broadcastTargets message.senderSocket) t ht
            exact Or.inl ⟨t, _, r, rfl, hmem⟩
      | resolved message t recipient =>
          rw [hhand] at hd
          rw [hd.2, state_deliverPrivate]
          exact ⟨_, rfl, fun op hop => Or.inr ⟨message, _, t, hop⟩⟩
  | @sweep n e m' roomId hs =>
      apply Around.of_silent hb
      · intro t r ht
        rw [hs] at ht
        rcases Effect.isMember_apply ht with ht | ht | ⟨_, _, ht⟩
        · exact ht
        · exact absurd ht (by simp)
        · exact absurd ht (by simp)
      · rw [hs, Effect.net_apply]

theorem around_of_next (hm : Reachable ok m) (hl : ∀ e, l ≠ .run .main e)
    (h : m.next l = some m') : Around m.globals m'.globals := by
  have hb := besides_of_next hm hl h
  obtain ⟨db, listenSocket, hrun⟩ := hm
  obtain ⟨w, hw⟩ := exists_watched hrun
  obtain ⟨g, g', hmove⟩ := hw.move h
  exact hmove.around hl hb

/-- The invariant of a run, now and throughout the handler in progress. -/
structure KeepsSockets (m : Machine) : Prop where
  inPlace : m.globals.SocketsInPlace
  main : (m.config.prog .main).throughout Around Globals.SocketsInPlace
    (fun _ => Globals.SocketsInStep) m.globals

theorem KeepsSockets.of_idle (h : m.KeepsSockets) (hidle : m.Idle) : m.globals.SocketsInStep := by
  have hmain := h.main
  obtain ⟨a, hp⟩ := Prog.eq_ret_of_done hidle
  rw [hp] at hmain
  exact hmain

/-- A step that starts no handler. -/
theorem KeepsSockets.next (hm : Reachable ok m) (h : m.KeepsSockets) (hl : ∀ ev, l ≠ .event ev)
    (hnext : m.next l = some m') : m'.KeepsSockets := by
  by_cases hlab : ∀ e, l ≠ .run .main e
  · have haround := around_of_next hm hlab hnext
    constructor
    · exact h.inPlace.around haround
    · rw [prog_main_next hl hlab hnext]
      exact Prog.throughout_stable (fun _ _ _ h h' => h.trans h') (fun _ _ _ h hs => h.around hs)
        _ _ _ h.main haround
  · simp only [ne_eq, not_forall, not_not] at hlab
    obtain ⟨e, rfl⟩ := hlab
    simp only [Machine.next, Option.map_eq_some_iff] at hnext
    obtain ⟨c, hc, rfl⟩ := hnext
    obtain ⟨hinPlace, hmain⟩ := Config.throughout_stepThread Around.refl hc h.inPlace h.main
    exact ⟨hinPlace, hmain⟩

/-- The start of a handler. -/
theorem KeepsSockets.event (hm : Reachable anyStep m) (h : m.KeepsSockets) {ev : Event}
    (hclient : ev.OnClient m.globals) (hnext : m.next (.event ev) = some m') : m'.KeepsSockets := by
  simp only [Machine.next, Option.ite_none_right_eq_some, Option.some.injEq] at hnext
  obtain ⟨⟨hidle, hev⟩, rfl⟩ := hnext
  refine ⟨h.inPlace, ?_⟩
  have hprog : (m.config.start .main ev.handler).prog .main = ev.handler := by
    simp [Config.start]
  rw [hprog]
  apply socketsInPlace_handler (h.of_idle hidle) hev hclient
  intro sock q hq
  obtain ⟨hne, heq⟩ := roomId_of_isMember hm hidle hq
  exact ⟨hne, heq.symm⟩

theorem keepsSockets_boot (db : Database) (listenSocket : SOCKET) : (boot db listenSocket).KeepsSockets := by
  have hinStep : (boot db listenSocket).globals.SocketsInStep := by
    refine ⟨⟨?_, ?_, proper_nil⟩, ?_⟩
    · intro t ht
      exact absurd ht (by simp [boot, globals, Globals.boot])
    · rintro t r ⟨room, hroom, -⟩
      simp [boot, globals, Globals.boot] at hroom
    · intro t ht
      exact absurd ht (by simp [boot, globals, Globals.boot, connected])
  exact ⟨hinStep.toSocketsInPlace, hinStep⟩

end Machine

namespace PollLoop

/-- The loop is in order, its next descriptor does not hang up on the listening socket, and the sockets of
its clients are in place. -/
structure Guarded (listenSocket : SOCKET) (loop : PollLoop) : Prop where
  order : InOrder listenSocket loop
  head : loop.index = 0 → ∀ p ∈ loop.remaining.head?, ¬HangsUp p.2
  sockets : loop.machine.KeepsSockets

variable {listenSocket : SOCKET} {loop loop' : PollLoop}

/-- A descriptor whose handler hangs up is one of a client. -/
theorem Fits.onClient {i : Nat} {fd : SOCKET} {r : BitVec 16} {rest : List (SOCKET × BitVec 16)}
    {s : Globals} (h : Fits listenSocket i ((fd, r) :: rest) s) {accepted : Option SOCKET}
    {received : Option Bytes} {ev : Event} (hev : pollEvent i fd r accepted received = some ev)
    (hsteady : i = 0 → ¬HangsUp r) : ev.OnClient s := by
  rcases pollEvent_cases hev with ⟨-, -, sock, rfl⟩ | ⟨hhang, ⟨buffer, rfl⟩ | rfl⟩
  · trivial
  · trivial
  · rcases h.clients (fd, r) List.mem_cons_self with hc | ⟨hi, -⟩
    · exact hc
    · exact absurd (hhang hi) (hsteady hi)

theorem Guarded.next {l : PollLabel} (h : Guarded listenSocket loop) (hl : l.Steady)
    (hnext : loop.next listenSocket l = some loop') : Guarded listenSocket loop' := by
  cases l with
  | server l =>
      obtain ⟨horder, hi, hrem⟩ := h.order.server hnext
      refine ⟨horder, ?_, ?_⟩
      · rw [hi, hrem]
        exact h.head
      · obtain ⟨hev, m', hm', rfl⟩ := server_cases hnext
        exact h.sockets.next h.order.reachable hev hm'
  | poll revents =>
      obtain ⟨horder, -, r, rest, hr, hrem⟩ := h.order.poll hnext
      refine ⟨horder, ?_, ?_⟩
      · intro _ p hp
        rw [hrem] at hp
        rw [← Option.some.inj hp]
        exact hl r hr
      · simp only [PollLoop.next, Option.ite_none_right_eq_some, Option.some.injEq] at hnext
        obtain ⟨-, rfl⟩ := hnext
        exact h.sockets
  | visit accepted received =>
      obtain ⟨p, rest, hrem, hi, hkeep, -⟩ := h.order.visit hnext
      have hhead := h.head
      rw [hrem] at hhead
      have hsteady : loop.index = 0 → ¬HangsUp p.2 := fun hz => hhead hz p rfl
      refine ⟨hkeep hsteady, fun hz => absurd hz hi, ?_⟩
      obtain ⟨fd, r, rest', hrem', hidle, ⟨-, rfl⟩ | ⟨ev, m', hev, -, -, hm', rfl⟩⟩ :=
        visit_cases hnext
      · exact h.sockets
      · -- the handler that is started is one for a client
        have hfits := h.order.connects.of_idle hidle
        rw [hrem'] at hrem hfits
        rw [← (List.cons.inj hrem).1] at hsteady
        exact h.sockets.event h.order.reachable (hfits.onClient hev hsteady) hm'

theorem guarded_boot (db : Database) (listenSocket : SOCKET) :
    Guarded listenSocket (boot db listenSocket) :=
  ⟨inOrder_boot db listenSocket, fun _ p hp => absurd hp (by simp [boot]),
    Machine.keepsSockets_boot db listenSocket⟩

theorem guarded_of_run {db : Database} {ls : List PollLabel} (hsteady : ∀ l ∈ ls, l.Steady)
    (hrun : (boot db listenSocket).run listenSocket ls = some loop) : Guarded listenSocket loop := by
  induction ls using List.reverseRecOn generalizing loop with
  | nil =>
      obtain rfl := Option.some.inj hrun
      exact guarded_boot db listenSocket
  | append_singleton ls l ih =>
      rw [run_concat, Option.bind_eq_some_iff] at hrun
      obtain ⟨before, hbefore, hnext⟩ := hrun
      have hguarded := ih (fun l' hl' => hsteady l' (List.mem_append_left _ hl')) hbefore
      exact hguarded.next (hsteady l (List.mem_append_right _ List.mem_cons_self)) hnext

/-- **Every socket operation is in place.** In every run in which the listening socket does not hang up, at
every moment: `accept` has only given sockets that were not open, only open ones have been closed, and
whatever has been sent has gone to an open one, the lines about private messages apart; a socket has been
closed as often as it has been accepted, but once less while it is open; the members of all rooms are keys of
`g_clients`, and the keys are open; and between two handlers the open sockets are exactly the keys. -/
theorem sockets_in_place (db : Database) (listenSocket : SOCKET) (ls : List PollLabel) (loop : PollLoop)
    (hrun : (boot db listenSocket).run listenSocket ls = some loop) (hsteady : ∀ l ∈ ls, l.Steady) :
    let s := loop.machine.globals
    Proper s.net ∧
    (∀ t, s.net.count (.accepted t) = s.net.count (.closed t) + (connected s.net t).toNat) ∧
    (∀ t r, s.IsMember t r → t ∈ s.clients) ∧
    (∀ t ∈ s.clients, connected s.net t = true) ∧
    (loop.machine.Idle → ∀ t, connected s.net t = true ↔ t ∈ s.clients) := by
  intro s
  have hguarded := guarded_of_run hsteady hrun
  have hinPlace := hguarded.sockets.inPlace
  refine ⟨hinPlace.proper, hinPlace.proper.balance, hinPlace.members, hinPlace.keysConnected, ?_⟩
  intro hidle t
  exact ⟨(hguarded.sockets.of_idle hidle).keyed t, hinPlace.keysConnected t⟩

theorem sockets_in_place_brief : ∃ loop, (boot {} 3).run 3 brief = some loop ∧
    loop.machine.globals.net.length = 3 ∧ Proper loop.machine.globals.net := by
  have hrun : ((boot {} 3).run 3 brief).any (fun loop =>
      decide (loop.machine.globals.net.length = 3)) = true := by decide +kernel
  obtain ⟨loop, hloop, hp⟩ := (Option.any_eq_true _ _).1 hrun
  have hsteady : ∀ l ∈ brief, l.Steady := by
    intro l hl
    simp only [brief, working, List.mem_append, List.mem_cons, List.mem_replicate, List.not_mem_nil,
      or_false] at hl
    rcases hl with (((rfl | rfl) | ⟨-, rfl⟩) | rfl | rfl | rfl) | ⟨-, rfl⟩
    · rintro r hr ⟨hread, -⟩
      rw [← Option.some.inj hr] at hread
      exact absurd hread (by decide)
    · trivial
    · trivial
    · rintro r hr ⟨-, hrest⟩
      rw [← Option.some.inj hr] at hrest
      exact hrest (by decide)
    · trivial
    · trivial
    · trivial
  exact ⟨loop, hloop, of_decide_eq_true hp, (sockets_in_place {} 3 brief loop hloop hsteady).1⟩

end PollLoop

end TerminalChat.Server
