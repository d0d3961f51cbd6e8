import Mathlib
import TerminalChat.Concurrency.Throughout
import TerminalChat.Server.Upholding
import TerminalChat.Server.Meanwhile

/-!
# Connections

Only `main` puts a key into `g_clients`, for a socket that `accept` has just returned, and only
`handleClientDisconnect` takes one out, before it closes the socket. The handlers of the commands use
`g_clients[sock]` as well, which would insert a key; they use it only for sockets that have one. So every
key is the socket of a connection in every run (`Machine.keysConnected_of_reachable`).
-/

set_option autoImplicit false

namespace TerminalChat.Server

open TerminalChat.Concurrency TerminalChat.Text TerminalChat.Client

/-! ## Sockets that are open to clients -/

/-- Whether a socket is open to a client after a socket operation. -/
def connectedStep (t : SOCKET) (b : Bool) : NetOp → Bool
  | .accepted sock => sock == t || b
  | .closed sock => !(sock == t) && b
  | _ => b

/-- `accept` has returned the socket, and it has not been closed since. -/
def connected (net : List NetOp) (t : SOCKET) : Bool := net.foldl (connectedStep t) false

theorem connected_append (net ops : List NetOp) (t : SOCKET) :
    connected (net ++ ops) t = ops.foldl (connectedStep t) (connected net t) := by
  rw [connected, List.foldl_append]
  rfl

/-- The operation neither opens nor closes a socket. -/
def NetOp.Talks : NetOp → Prop
  | .sent _ _ => True
  | .replayed _ _ => True
  | _ => False

theorem connected_of_talks {ops : List NetOp} (h : ∀ op ∈ ops, op.Talks) (net : List NetOp)
    (t : SOCKET) : connected (net ++ ops) t = connected net t := by
  rw [connected_append]
  induction ops with
  | nil => rfl
  | cons op ops ih =>
      have hop : connectedStep t (connected net t) op = connected net t := by
        have htalks := h op List.mem_cons_self
        cases op with
        | accepted sock => exact htalks.elim
        | closed sock => exact htalks.elim
        | _ => rfl
      rw [List.foldl_cons, hop]
      exact ih fun op' hop' => h op' (List.mem_cons_of_mem op hop')

/-- Every key of `g_clients` is the socket of a connection. -/
def Globals.KeysConnected (s : Globals) : Prop := ∀ t ∈ s.clients, connected s.net t = true

/-- The keys of `g_clients` are `K`, `pollFds` is `l`, and the sockets open to clients are `o`. -/
structure TablesAre (K : SOCKET → Prop) (l : List SOCKET) (o : SOCKET → Bool) (s : Globals) : Prop where
  keys : ∀ t, t ∈ s.clients ↔ K t
  polled : s.pollFds = l
  conns : ∀ t, connected s.net t = o t

section Tables

variable {K : SOCKET → Prop} {l : List SOCKET} {o : SOCKET → Bool} {s s' : Globals} {α β : Type}

theorem TablesAre.talk (h : TablesAre K l o s) (hc : s'.clients = s.clients) (hp : s'.pollFds = s.pollFds)
    (ops : List NetOp) (hn : s'.net = s.net ++ ops) (hops : ∀ op ∈ ops, op.Talks) :
    TablesAre K l o s' := by
  constructor
  · rw [hc]
    exact h.keys
  · rw [hp]
    exact h.polled
  · intro t
    rw [hn, connected_of_talks hops]
    exact h.conns t

theorem TablesAre.same (h : TablesAre K l o s) (hc : s'.clients = s.clients) (hp : s'.pollFds = s.pollFds)
    (hn : s'.net = s.net) : TablesAre K l o s' :=
  h.talk hc hp [] (hn.trans (List.append_nil _).symm) fun _ hop => absurd hop List.not_mem_nil

theorem TablesAre.setInfo (h : TablesAre K l o s) {t : SOCKET} (ht : K t) (f : ClientInfo → ClientInfo) :
    TablesAre K l o (s.setInfo t f) := by
  refine ⟨?_, h.polled, h.conns⟩
  intro t'
  rw [Globals.setInfo, Std.ExtTreeMap.mem_insert, Std.compare_eq_iff_eq, h.keys t']
  constructor
  · rintro (rfl | hk)
    · exact ht
    · exact hk
  · exact Or.inr

theorem TablesAre.keysConnected (h : TablesAre K l o s) (ho : ∀ t, K t → o t = true) : s.KeysConnected := by
  intro t ht
  rw [h.conns t]
  exact ho t ((h.keys t).1 ht)

/-! ## Blocks -/

theorem tablesAre_sendToClient (sock : SOCKET) (text : Bytes) :
    Upholds (TablesAre K l o) (sendToClient sock text) Whatever := by
  intro e s hs
  refine ⟨hs.talk rfl rfl [.sent sock text] rfl ?_, trivial⟩
  intro op hop
  rw [List.mem_singleton.1 hop]
  trivial

theorem TablesAre.sendAll (h : TablesAre K l o s) (socks : List SOCKET) (text : Bytes) :
    TablesAre K l o (s.sendAll socks text) := by
  refine h.talk rfl rfl (socks.map fun sock => .sent sock text) rfl ?_
  intro op hop
  obtain ⟨sock, -, rfl⟩ := List.mem_map.1 hop
  trivial

theorem tablesAre_broadcast (roomId text : Bytes) (sock : SOCKET) :
    Upholds (TablesAre K l o) (broadcast roomId text sock) Whatever :=
  fun _ _ hs => ⟨hs.sendAll _ _, trivial⟩

theorem tablesAre_broadcastToAll (roomId text : Bytes) :
    Upholds (TablesAre K l o) (broadcastToAll roomId text) Whatever :=
  fun _ _ hs => ⟨hs.sendAll _ _, trivial⟩

theorem tablesAre_tellRoom (roomId : Bytes) (f : ChatRoom → ChatRoom) :
    Upholds (TablesAre K l o) (tellRoom roomId f) Whatever :=
  fun _ _ hs => ⟨hs.same rfl rfl rfl, trivial⟩

theorem tablesAre_addClient (roomId : Bytes) (sock : SOCKET) :
    Upholds (TablesAre K l o) (addClient roomId sock) Whatever :=
  fun _ _ hs => ⟨hs.same rfl rfl rfl, trivial⟩

theorem tablesAre_tellDatabase (k : Nat) (f : Env → (Nat → Bool) → Database → Database) :
    Upholds (TablesAre K l o) (tellDatabase k f) Whatever :=
  fun _ _ hs => ⟨hs.same rfl rfl rfl, trivial⟩

theorem tablesAre_spawnCleanup (roomId : Bytes) :
    Upholds (TablesAre K l o) (spawnCleanup roomId) Whatever :=
  fun _ _ hs => ⟨hs.same rfl rfl rfl, trivial⟩

theorem tablesAre_getCurrentTimestamp (k : Nat) :
    Upholds (TablesAre K l o) (getCurrentTimestamp k) Whatever := upholds_read _

theorem tablesAre_setClientInfo {t : SOCKET} (ht : K t) (f : ClientInfo → ClientInfo) :
    Upholds (TablesAre K l o) (setClientInfo t f) Whatever :=
  fun _ _ hs => ⟨hs.setInfo ht f, trivial⟩

theorem tablesAre_clientRef {t : SOCKET} (ht : K t) :
    Upholds (TablesAre K l o) (clientRef t) Whatever := fun _ _ hs => ⟨hs.setInfo ht id, trivial⟩

/-- A client that is in a room has a key. -/
theorem tablesAre_clientInfo (sock : SOCKET) : Maintains (TablesAre K l o)
    (critical .clientsMutex (clientInfo sock)) fun client => client.roomId ≠ [] → K sock := by
  refine maintains_critical fun e s hs => ⟨hs, ?_⟩
  show (s.info sock).roomId ≠ [] → K sock
  intro hroom
  rw [← hs.keys sock, Std.ExtTreeMap.mem_iff_isSome_getElem?]
  cases hc : s.clients[sock]? with
  | none =>
      rw [Globals.info, hc] at hroom
      exact absurd rfl hroom
  | some c => rfl

/-- Whoever is found by its name has a key. -/
theorem tablesAre_findClientByUsername (username roomId : Bytes) : Maintains (TablesAre K l o)
    (findClientByUsername username roomId) fun t => t ≠ INVALID_SOCKET → K t := by
  refine maintains_critical fun e s hs => ⟨hs, ?_⟩
  show s.findClientByUsername username roomId ≠ INVALID_SOCKET →
    K (s.findClientByUsername username roomId)
  intro hfound
  rcases findClientByUsername_cases s username roomId with ⟨hnone, -⟩ | ⟨c, hc, -⟩
  · exact absurd hnone hfound
  · rw [← hs.keys, Std.ExtTreeMap.mem_iff_isSome_getElem?, hc]
    rfl

theorem tablesAre_reply (sock : SOCKET) (text : Bytes) :
    Maintains (TablesAre K l o) (reply sock text) Whatever :=
  maintains_step (tablesAre_sendToClient sock text)

theorem tablesAre_sweepRoom (roomId : Bytes) : Upholds (TablesAre K l o) (sweepRoom roomId) Whatever := by
  apply upholds_bind (upholds_roomExists roomId)
  intro _ _
  apply upholds_ite
  · apply upholds_bind (upholds_ask roomId _)
    intro _ _
    apply upholds_ite
    · apply upholds_bind (K := Whatever)
      · exact fun _ _ hs => ⟨hs.same rfl rfl rfl, trivial⟩
      · exact fun _ _ => tablesAre_tellDatabase 0 _
    · exact upholds_pure trivial
  · exact upholds_pure trivial

theorem tablesAre_cleanupEmptyRoom (roomId : Bytes) :
    Maintains (TablesAre K l o) (cleanupEmptyRoom roomId) Whatever :=
  maintains_critical (tablesAre_sweepRoom roomId)

theorem tablesAre_departRoom (roomId username : Bytes) (sock : SOCKET) :
    Upholds (TablesAre K l o) (departRoom roomId username sock) Whatever := by
  apply upholds_bind (tablesAre_getCurrentTimestamp 0)
  intro _ _
  apply upholds_bind (tablesAre_broadcast roomId _ sock)
  exact fun _ _ => tablesAre_tellRoom roomId _

theorem tablesAre_leaveRoom (roomId username : Bytes) (sock : SOCKET) :
    Upholds (TablesAre K l o) (leaveRoom roomId username sock) Whatever := by
  apply upholds_bind (upholds_roomExists roomId)
  intro _ _
  apply upholds_ite
  · apply upholds_bind (tablesAre_departRoom roomId username sock)
    intro _ _
    apply upholds_bind (upholds_ask roomId _)
    exact fun _ _ => upholds_ite (tablesAre_spawnCleanup roomId) (upholds_pure trivial)
  · exact upholds_pure trivial

/-! ## Handlers -/

theorem tablesAre_removeClientFromRoom (sock : SOCKET) :
    Maintains (TablesAre K l o) (removeClientFromRoom sock) Whatever := by
  apply maintains_seq (tablesAre_clientInfo sock)
  intro client hclient
  by_cases hroom : client.roomId.isEmpty = true
  · rw [if_pos hroom]
    exact maintains_pure trivial
  · rw [if_neg hroom]
    -- a client in a room has a key, so `g_clients[clientSocket]` finds it
    have hkey : K sock := hclient (by simpa using hroom)
    apply maintains_seq (K := Whatever)
    · apply maintains_critical
      apply upholds_bind (upholds_roomExists client.roomId)
      exact fun _ _ => upholds_ite (tablesAre_departRoom _ _ _) (upholds_pure trivial)
    · intro _ _
      apply maintains_seq (maintains_critical (tablesAre_setClientInfo hkey _))
      exact fun _ _ => tablesAre_cleanupEmptyRoom client.roomId

/-- The checks that the commands of the owner share. -/
theorem tablesAre_guards {sock : SOCKET} {p : ClientInfo → Thread Unit} {c : ClientInfo → Bool}
    {error error' : Bytes} (hp : ∀ client, Maintains (TablesAre K l o) (p client) Whatever) :
    Maintains (TablesAre K l o) (do
      let client ← critical .clientsMutex (clientInfo sock)
      if client.roomId.isEmpty then reply sock error
      else if c client then reply sock error'
      else p client : Thread Unit) Whatever := by
  apply maintains_seq (tablesAre_clientInfo sock)
  intro client _
  exact maintains_ite (tablesAre_reply sock _) (maintains_ite (tablesAre_reply sock _) (hp client))

section Commands

variable {sock : SOCKET}

theorem tablesAre_handleCreateCommand (hk : K sock) (params : Bytes) :
    Maintains (TablesAre K l o) (handleCreateCommand sock params) Whatever := by
  apply maintains_ite (tablesAre_reply sock _)
  apply maintains_seq (K := Whatever)
  · exact maintains_step fun e s hs => ⟨hs.same rfl rfl rfl, trivial⟩
  intro roomId _
  apply maintains_seq (K := Whatever)
  · apply maintains_holding
    apply maintains_seq (maintains_step (tablesAre_clientRef hk))
    intro client _
    apply maintains_ite (maintains_pure trivial)
    exact maintains_seq (maintains_critical (tablesAre_leaveRoom _ _ sock)) fun _ _ => maintains_pure trivial
  · intro client _
    apply maintains_seq (K := Whatever)
    · apply maintains_critical
      apply upholds_bind (K := Whatever)
      · exact fun e s hs => ⟨hs.same rfl rfl rfl, trivial⟩
      · exact fun _ _ => tablesAre_addClient roomId sock
    · intro _ _
      apply maintains_seq (maintains_critical (tablesAre_setClientInfo hk _))
      intro _ _
      apply maintains_seq (maintains_step (tablesAre_tellDatabase 0 _))
      exact fun _ _ => tablesAre_reply sock _

theorem tablesAre_sendHistory (roomId : Bytes) :
    Upholds (TablesAre K l o) (sendHistory sock roomId) Whatever := by
  apply upholds_bind (upholds_askDatabase 2 _)
  intro stored _
  apply upholds_branch (K := Whatever) (upholds_ask roomId _) (upholds_pure trivial)
  intro history _
  apply upholds_ite (upholds_pure trivial)
  apply upholds_bind (tablesAre_sendToClient sock _)
  intro _ _
  apply upholds_bind (K := Whatever)
  · intro e s hs
    refine ⟨hs.talk rfl rfl (history.map fun msg => .replayed sock msg) rfl ?_, trivial⟩
    intro op hop
    obtain ⟨msg, -, rfl⟩ := List.mem_map.1 hop
    trivial
  · exact fun _ _ => tablesAre_sendToClient sock _

theorem tablesAre_admitClient (hk : K sock) (client : ClientInfo) (roomId : Bytes) :
    Upholds (TablesAre K l o) (admitClient sock client roomId) Whatever := by
  apply upholds_bind (K := Whatever)
  · exact upholds_ite (upholds_pure trivial) (tablesAre_leaveRoom _ _ sock)
  intro _ _
  apply upholds_bind (tablesAre_addClient roomId sock)
  intro _ _
  apply upholds_bind (tablesAre_setClientInfo hk _)
  intro _ _
  apply upholds_bind (tablesAre_sendToClient sock _)
  intro _ _
  apply upholds_bind (tablesAre_sendHistory roomId)
  intro _ _
  apply upholds_bind (tablesAre_getCurrentTimestamp 1)
  exact fun _ _ => tablesAre_broadcast roomId _ sock

theorem tablesAre_joinRoom (hk : K sock) (client : ClientInfo) (roomId password : Bytes) :
    Upholds (TablesAre K l o) (joinRoom sock client roomId password) Whatever := by
  apply upholds_bind (upholds_roomExists roomId)
  intro _ _
  apply upholds_ite (tablesAre_sendToClient sock _)
  apply upholds_bind (upholds_ask roomId _)
  intro banned _
  apply upholds_branch (K := Whatever) (upholds_pure trivial) (upholds_askDatabase 0 _)
  intro _ _
  apply upholds_ite (tablesAre_sendToClient sock _)
  apply upholds_bind (upholds_ask roomId _)
  intro _ _
  apply upholds_ite (tablesAre_sendToClient sock _)
  apply upholds_branch (K := Whatever) (upholds_ask roomId _) (upholds_pure trivial)
  intro _ _
  exact upholds_ite (tablesAre_sendToClient sock _) (tablesAre_admitClient hk client roomId)

theorem tablesAre_handleJoinCommand (hk : K sock) (params : Bytes) :
    Maintains (TablesAre K l o) (handleJoinCommand sock params) Whatever := by
  apply maintains_ite (tablesAre_reply sock _)
  apply maintains_holding
  apply maintains_seq (maintains_step (tablesAre_clientRef hk))
  intro client _
  exact maintains_ite (tablesAre_reply sock _) (maintains_critical (tablesAre_joinRoom hk client _ _))

theorem tablesAre_handleSetNameCommand (hk : K sock) (name : Bytes) :
    Maintains (TablesAre K l o) (handleSetNameCommand sock name) Whatever := by
  apply maintains_ite (tablesAre_reply sock _)
  apply maintains_seq (maintains_critical (upholds_read _))
  intro _ _
  apply maintains_ite (tablesAre_reply sock _)
  apply maintains_seq (maintains_critical (tablesAre_setClientInfo hk _))
  exact fun _ _ => tablesAre_reply sock _

theorem tablesAre_handleGetPasswordCommand :
    Maintains (TablesAre K l o) (handleGetPasswordCommand sock) Whatever := by
  apply tablesAre_guards
  intro client
  apply maintains_critical
  apply upholds_bind (upholds_roomExists _)
  intro _ _
  apply upholds_ite _ (upholds_pure trivial)
  apply upholds_bind (upholds_ask _ _)
  intro _ _
  apply upholds_ite _ (tablesAre_sendToClient sock _)
  exact upholds_bind (upholds_ask _ _) fun _ _ => tablesAre_sendToClient sock _

theorem tablesAre_handleUsersCommand :
    Maintains (TablesAre K l o) (handleUsersCommand sock) Whatever := by
  apply maintains_seq (tablesAre_clientInfo sock)
  intro client _
  apply maintains_ite (tablesAre_reply sock _)
  apply maintains_holding
  apply maintains_seq (maintains_step (upholds_roomExists _))
  intro _ _
  apply maintains_ite _ (maintains_pure trivial)
  apply maintains_seq (maintains_step (upholds_ask _ _))
  intro members _
  exact maintains_critical fun e s hs => tablesAre_sendToClient sock _ e s hs

theorem tablesAre_handleKickCommand (params : Bytes) :
    Maintains (TablesAre K l o) (handleKickCommand sock params) Whatever := by
  apply maintains_ite (tablesAre_reply sock _)
  apply tablesAre_guards
  intro client
  apply maintains_ite (tablesAre_reply sock _)
  apply maintains_seq (tablesAre_findClientByUsername _ _)
  intro t ht
  by_cases hfound : t = INVALID_SOCKET
  · rw [if_pos hfound]
    exact tablesAre_reply sock _
  · rw [if_neg hfound]
    apply maintains_seq (K := Whatever)
    · apply maintains_step
      exact upholds_bind (tablesAre_getCurrentTimestamp 0) fun _ _ => tablesAre_sendToClient t _
    intro _ _
    apply maintains_seq (tablesAre_reply t _)
    intro _ _
    apply maintains_seq (K := Whatever)
    · apply maintains_critical
      apply upholds_bind (upholds_roomExists _)
      intro _ _
      apply upholds_ite _ (upholds_pure trivial)
      apply upholds_bind (tablesAre_getCurrentTimestamp 0)
      intro _ _
      exact upholds_bind (tablesAre_broadcastToAll _ _) fun _ _ => tablesAre_tellRoom _ _
    · exact fun _ _ => maintains_critical (tablesAre_setClientInfo (ht hfound) _)

theorem tablesAre_expelBanned (roomId username : Bytes) (t : SOCKET) :
    Upholds (TablesAre K l o) (expelBanned roomId username t) Whatever := by
  apply upholds_bind (tablesAre_getCurrentTimestamp 0)
  intro _ _
  apply upholds_bind (tablesAre_sendToClient t _)
  intro _ _
  apply upholds_bind (tablesAre_sendToClient t _)
  intro _ _
  apply upholds_bind (tablesAre_getCurrentTimestamp 1)
  intro _ _
  exact upholds_bind (tablesAre_broadcastToAll roomId _) fun _ _ => tablesAre_tellRoom roomId _

theorem tablesAre_handleBanCommand (params : Bytes) :
    Maintains (TablesAre K l o) (handleBanCommand sock params) Whatever := by
  apply maintains_ite (tablesAre_reply sock _)
  apply tablesAre_guards
  intro client
  apply maintains_ite (tablesAre_reply sock _)
  apply maintains_seq (tablesAre_findClientByUsername _ _)
  intro t ht
  apply maintains_holding
  apply maintains_seq (maintains_step (upholds_roomExists _))
  intro _ _
  apply maintains_ite _ (maintains_pure trivial)
  apply maintains_seq (K := Whatever)
  · apply maintains_step
    exact upholds_bind (tablesAre_tellRoom _ _) fun _ _ => tablesAre_tellDatabase 0 _
  intro _ _
  by_cases hfound : t = INVALID_SOCKET
  · rw [if_pos hfound]
    exact tablesAre_reply sock _
  · rw [if_neg hfound]
    apply maintains_seq (maintains_step (tablesAre_expelBanned _ _ t))
    intro _ _
    apply maintains_seq (maintains_critical (tablesAre_setClientInfo (ht hfound) _))
    exact fun _ _ => tablesAre_reply sock _

theorem tablesAre_handleTransferCommand (hk : K sock) (params : Bytes) :
    Maintains (TablesAre K l o) (handleTransferCommand sock params) Whatever := by
  apply maintains_ite (tablesAre_reply sock _)
  apply tablesAre_guards
  intro client
  apply maintains_ite (tablesAre_reply sock _)
  apply maintains_seq (tablesAre_findClientByUsername _ _)
  intro t ht
  by_cases hfound : t = INVALID_SOCKET
  · rw [if_pos hfound]
    exact tablesAre_reply sock _
  · rw [if_neg hfound]
    apply maintains_holding
    apply maintains_seq (maintains_step (upholds_roomExists _))
    intro _ _
    apply maintains_ite _ (maintains_pure trivial)
    apply maintains_seq (maintains_step (tablesAre_tellRoom _ _))
    intro _ _
    apply maintains_critical
    apply upholds_bind (tablesAre_setClientInfo hk _)
    intro _ _
    apply upholds_bind (tablesAre_setClientInfo (ht hfound) _)
    intro _ _
    apply upholds_bind (tablesAre_tellDatabase 0 _)
    intro _ _
    apply upholds_bind (tablesAre_getCurrentTimestamp 0)
    intro _ _
    apply upholds_bind (tablesAre_broadcastToAll _ _)
    intro _ _
    exact upholds_bind (tablesAre_sendToClient sock _) fun _ _ => tablesAre_sendToClient t _

theorem tablesAre_handleLeaveCommand (hk : K sock) :
    Maintains (TablesAre K l o) (handleLeaveCommand sock) Whatever := by
  apply tablesAre_guards
  intro client
  apply maintains_seq (maintains_critical (tablesAre_leaveRoom _ _ sock))
  intro _ _
  apply maintains_seq (maintains_critical (tablesAre_setClientInfo hk _))
  exact fun _ _ => tablesAre_reply sock _

/-- The new owner is looked up before it is promoted. -/
theorem tablesAre_promoteNewOwner (roomId : Bytes) (t : SOCKET) :
    Upholds (TablesAre K l o) (promoteNewOwner roomId t) Whatever := by
  apply upholds_bind (K := fun found => found = true → K t)
  · intro e s hs
    refine ⟨hs, ?_⟩
    intro hfound
    rw [← hs.keys t]
    exact Std.ExtTreeMap.contains_iff_mem.1 hfound
  · intro found hfound
    by_cases hyes : found = true
    · rw [if_pos hyes]
      apply upholds_bind (upholds_read _)
      intro client _
      apply upholds_bind (tablesAre_setClientInfo (hfound hyes) _)
      intro _ _
      exact upholds_bind (tablesAre_tellRoom roomId _) fun _ _ => upholds_pure trivial
    · rw [if_neg hyes]
      exact upholds_pure trivial

theorem tablesAre_announceForceLeave (roomId username name : Bytes) (t : SOCKET) :
    Upholds (TablesAre K l o) (announceForceLeave roomId username name t sock) Whatever := by
  apply upholds_bind (tablesAre_getCurrentTimestamp 0)
  intro _ _
  apply upholds_bind (K := Whatever)
  · apply upholds_ite (upholds_pure trivial)
    apply upholds_bind (tablesAre_getCurrentTimestamp 1)
    intro _ _
    exact upholds_bind (tablesAre_broadcastToAll roomId _) fun _ _ => tablesAre_sendToClient t _
  intro _ _
  apply upholds_bind (tablesAre_broadcast roomId _ sock)
  intro _ _
  apply upholds_bind (tablesAre_tellRoom roomId _)
  intro _ _
  apply upholds_bind (upholds_ask roomId _)
  exact fun _ _ => upholds_ite (tablesAre_spawnCleanup roomId) (upholds_pure trivial)

theorem tablesAre_handleForceLeaveCommand (hk : K sock) :
    Maintains (TablesAre K l o) (handleForceLeaveCommand sock) Whatever := by
  apply tablesAre_guards
  intro client
  apply maintains_seq (K := Whatever)
  · apply maintains_holding
    apply maintains_seq (maintains_step (upholds_roomExists _))
    intro _ _
    apply maintains_ite _ (maintains_pure trivial)
    apply maintains_seq (maintains_step (upholds_chooseNewOwner _ sock))
    intro t _
    apply maintains_seq (K := Whatever)
    · exact maintains_ite (maintains_critical (tablesAre_promoteNewOwner _ t)) (maintains_pure trivial)
    · exact fun name _ => maintains_step (tablesAre_announceForceLeave _ _ name t)
  · intro _ _
    apply maintains_seq (maintains_critical (tablesAre_setClientInfo hk _))
    exact fun _ _ => tablesAre_reply sock _

theorem tablesAre_handleChangePasswordCommand (params : Bytes) :
    Maintains (TablesAre K l o) (handleChangePasswordCommand sock params) Whatever := by
  apply maintains_ite (tablesAre_reply sock _)
  apply tablesAre_guards
  intro client
  apply maintains_critical
  apply upholds_bind (upholds_roomExists _)
  intro _ _
  apply upholds_ite _ (upholds_pure trivial)
  apply upholds_bind (upholds_ask _ _)
  intro _ _
  apply upholds_ite (tablesAre_sendToClient sock _)
  apply upholds_bind (tablesAre_tellRoom _ _)
  intro _ _
  apply upholds_bind (tablesAre_tellDatabase 0 _)
  intro _ _
  apply upholds_bind (tablesAre_sendToClient sock _)
  intro _ _
  exact upholds_bind (tablesAre_getCurrentTimestamp 0) fun _ _ => tablesAre_broadcast _ _ sock

theorem tablesAre_runCommand (hk : K sock) (c : Command) :
    Maintains (TablesAre K l o) (runCommand sock c) Whatever := by
  cases c with
  | create params => exact tablesAre_handleCreateCommand hk params
  | join params => exact tablesAre_handleJoinCommand hk params
  | setName name => exact tablesAre_handleSetNameCommand hk name
  | list => exact maintains_critical fun e s hs => tablesAre_sendToClient sock _ e s hs
  | getPassword => exact tablesAre_handleGetPasswordCommand
  | users => exact tablesAre_handleUsersCommand
  | kick params => exact tablesAre_handleKickCommand params
  | ban params => exact tablesAre_handleBanCommand params
  | transfer params => exact tablesAre_handleTransferCommand hk params
  | leave => exact tablesAre_handleLeaveCommand hk
  | forceLeave => exact tablesAre_handleForceLeaveCommand hk
  | changePassword params => exact tablesAre_handleChangePasswordCommand params
  | unknown => exact tablesAre_reply sock _

theorem tablesAre_pushMessage (message : Message) :
    Maintains (TablesAre K l o) (pushMessage message) Whatever :=
  maintains_critical fun _ _ hs => ⟨hs.same rfl rfl rfl, trivial⟩

/-- The handler of a client that has a key leaves the keys, the poll table and the connections alone. -/
theorem tablesAre_handleClientMessage (hk : K sock) (buffer : Bytes) :
    Maintains (TablesAre K l o) (handleClientMessage sock buffer) Whatever := by
  unfold handleClientMessage
  split
  · exact maintains_pure trivial
  · rename_i text _
    cases parseText text with
    | command c => exact tablesAre_runCommand hk c
    | badPrivateMessage => exact tablesAre_reply sock _
    | privateMessage name content =>
        apply tablesAre_guards
        exact fun client => tablesAre_pushMessage _
    | chat content =>
        apply maintains_seq (tablesAre_clientInfo sock)
        intro client _
        exact maintains_ite (tablesAre_reply sock _) (tablesAre_pushMessage _)

end Commands

end Tables

/-! ## The main loop between its events -/

/-- What the other threads do, with the poll table. -/
def Besides (s s' : Globals) : Prop := Meanwhile s s' ∧ s'.pollFds = s.pollFds

theorem Besides.refl (s : Globals) : Besides s s := ⟨.refl s, rfl⟩

theorem Besides.trans {s s' s'' : Globals} (h : Besides s s') (h' : Besides s' s'') : Besides s s'' :=
  ⟨h.1.trans h'.1, h'.2.trans h.2⟩

theorem NetOp.Aside.talks {op : NetOp} (h : op.Aside) : op.Talks := by
  obtain ⟨sock, text, rfl, -⟩ := h
  trivial

theorem Hand.Acts.pollFds {e : Env} {s s' : Globals} {hand : Hand} (h : hand.Acts e s s') :
    s'.pollFds = s.pollFds := by
  cases hand with
  | empty =>
      rcases h with rfl | ⟨message, rest, -, rfl⟩
      · rfl
      · rfl
  | taken message => exact congrArg Globals.pollFds h
  | found message =>
      rw [Hand.Acts] at h
      split at h
      · rw [h]
      · rw [h.2, state_deliverPublic]
        rfl
  | resolved message t recipient =>
      rw [h.2, state_deliverPrivate]

theorem pollFds_sweep (e : Env) (s : Globals) (roomId : Bytes) :
    ((Effect.sweep roomId).apply e s).pollFds = s.pollFds := by
  rw [Effect.apply]
  split <;> rfl

section Tables

variable {K : SOCKET → Prop} {l : List SOCKET} {o : SOCKET → Bool} {s s' : Globals} {sock : SOCKET}

theorem TablesAre.besides (h : TablesAre K l o s) (hs : Besides s s') : TablesAre K l o s' := by
  obtain ⟨ops, hnet, hops⟩ := hs.1.net
  exact h.talk hs.1.backdrop.clients hs.2 ops hnet fun op hop => (hops op hop).talks

theorem tablesAre_now (s : Globals) : TablesAre (fun t => t ∈ s.clients) s.pollFds (connected s.net) s :=
  ⟨fun _ => Iff.rfl, rfl, fun _ => rfl⟩

theorem TablesAre.accepted (h : TablesAre K l o s) (sock : SOCKET) :
    TablesAre K l (fun t => sock == t || o t) { s with net := s.net ++ [.accepted sock] } := by
  refine ⟨h.keys, h.polled, ?_⟩
  intro t
  show connected (s.net ++ [.accepted sock]) t = _
  rw [connected_append, h.conns t]
  rfl

theorem TablesAre.closed (h : TablesAre K l o s) (sock : SOCKET) :
    TablesAre K l (fun t => !(sock == t) && o t) { s with net := s.net ++ [.closed sock] } := by
  refine ⟨h.keys, h.polled, ?_⟩
  intro t
  show connected (s.net ++ [.closed sock]) t = _
  rw [connected_append, h.conns t]
  rfl

theorem TablesAre.insert (h : TablesAre K l o s) (sock : SOCKET) (c : ClientInfo) :
    TablesAre (fun t => t = sock ∨ K t) l o { s with clients := s.clients.insert sock c } := by
  refine ⟨?_, h.polled, h.conns⟩
  intro t
  show t ∈ s.clients.insert sock c ↔ _
  rw [Std.ExtTreeMap.mem_insert, Std.compare_eq_iff_eq, h.keys t, eq_comm]

theorem TablesAre.erase (h : TablesAre K l o s) (sock : SOCKET) :
    TablesAre (fun t => K t ∧ t ≠ sock) l o { s with clients := s.clients.erase sock } := by
  refine ⟨?_, h.polled, h.conns⟩
  intro t
  show t ∈ s.clients.erase sock ↔ _
  rw [Std.ExtTreeMap.mem_erase, ne_eq, Std.compare_eq_iff_eq, h.keys t, and_comm, eq_comm]

theorem TablesAre.append (h : TablesAre K l o s) (sock : SOCKET) :
    TablesAre K (l ++ [sock]) o { s with pollFds := s.pollFds ++ [sock] } :=
  ⟨h.keys, congrArg (· ++ [sock]) h.polled, h.conns⟩

theorem TablesAre.remove (h : TablesAre K l o s) (sock : SOCKET) :
    TablesAre K (l.erase sock) o { s with pollFds := s.pollFds.erase sock } :=
  ⟨h.keys, congrArg (·.erase sock) h.polled, h.conns⟩

/-- One action after which every key of the new tables has its connection, and then the rest. -/
theorem throughout_step_then {b : Sect Unit} {f : Unit → Thread Unit} {Q : Globals → Prop}
    {K' : SOCKET → Prop} {l' : List SOCKET} {o' : SOCKET → Bool} (hs : TablesAre K l o s)
    (hb : ∀ e s, TablesAre K l o s → TablesAre K' l' o' (b.exec e s).state) (ho : ∀ t, K' t → o' t = true)
    (hf : ∀ s', TablesAre K' l' o' s' → (f ()).throughout Besides Globals.KeysConnected (fun _ => Q) s') :
    (step b >>= f).throughout Besides Globals.KeysConnected (fun _ => Q) s := by
  rw [Prog.throughout_bind, step, Prog.throughout_block]
  intro e s' hbesides
  have htables := hb e s' (hs.besides hbesides)
  exact ⟨htables.keysConnected ho, hf _ htables⟩

theorem throughout_critical_then {m : Mutex} {b : Sect Unit} {f : Unit → Thread Unit}
    {Q : Globals → Prop} {K' : SOCKET → Prop} {l' : List SOCKET} {o' : SOCKET → Bool}
    (hs : TablesAre K l o s) (hb : ∀ e s, TablesAre K l o s → TablesAre K' l' o' (b.exec e s).state)
    (ho : ∀ t, K' t → o' t = true)
    (hf : ∀ s', TablesAre K' l' o' s' → (f ()).throughout Besides Globals.KeysConnected (fun _ => Q) s') :
    (critical m b >>= f).throughout Besides Globals.KeysConnected (fun _ => Q) s := by
  have h := throughout_step_then (Q := Q) hs hb ho hf
  rw [Prog.throughout_bind] at h ⊢
  exact (Prog.throughout_holding m _ s).2 h

/-- What a handler leaves: the keys, the poll table, and a connection for every key. -/
structure Leaves (K : SOCKET → Prop) (l : List SOCKET) (s : Globals) : Prop where
  keys : ∀ t, t ∈ s.clients ↔ K t
  polled : s.pollFds = l
  keysConnected : s.KeysConnected

theorem TablesAre.leaves (h : TablesAre K l o s) (ho : ∀ t, K t → o t = true) : Leaves K l s :=
  ⟨h.keys, h.polled, h.keysConnected ho⟩

theorem Leaves.besides (h : Leaves K l s) (hs : Besides s s') : Leaves K l s' := by
  have htables : TablesAre K l (connected s.net) s := ⟨h.keys, h.polled, fun _ => rfl⟩
  exact (htables.besides hs).leaves fun t ht => h.keysConnected t ((h.keys t).2 ht)

theorem throughout_acceptClient (hs : s.KeysConnected) (sock : SOCKET) :
    (acceptClient sock).throughout Besides Globals.KeysConnected
      (fun _ => Leaves (fun t => t = sock ∨ t ∈ s.clients) (s.pollFds ++ [sock])) s := by
  -- the keys before, and with the new client
  have hbefore : ∀ t, t ∈ s.clients → (sock == t || connected s.net t) = true := by
    intro t ht
    rw [hs t ht, Bool.or_true]
  have hafter : ∀ t, t = sock ∨ t ∈ s.clients → (sock == t || connected s.net t) = true := by
    rintro t (rfl | ht)
    · rw [beq_self_eq_true, Bool.true_or]
    · exact hbefore t ht
  apply throughout_step_then (tablesAre_now s) (fun _ _ h => h.accepted sock) hbefore
  intro s₁ h₁
  apply throughout_critical_then h₁ (fun _ _ h => h.insert sock {}) hafter
  intro s₂ h₂
  apply throughout_critical_then h₂ (fun _ s' h => h.append sock) hafter
  intro s₃ h₃
  apply Prog.throughout_mono _ _ _ (Prog.throughout_of_guar (fun _ _ h hb => h.besides hb)
    (fun _ h => h.keysConnected hafter) _ _ (tablesAre_reply sock _) h₃)
  rintro _ s₄ ⟨h₄, -⟩
  exact h₄.leaves hafter

theorem throughout_handleClientDisconnect (hs : s.KeysConnected) (sock : SOCKET) :
    (handleClientDisconnect sock).throughout Besides Globals.KeysConnected
      (fun _ => Leaves (fun t => t ∈ s.clients ∧ t ≠ sock) (s.pollFds.erase sock)) s := by
  have hkept : ∀ t, t ∈ s.clients ∧ t ≠ sock → connected s.net t = true := fun t ht => hs t ht.1
  have hclosed : ∀ t, t ∈ s.clients ∧ t ≠ sock → (!(sock == t) && connected s.net t) = true := by
    intro t ht
    rw [hkept t ht, beq_false_of_ne ht.2.symm]
    rfl
  rw [handleClientDisconnect, Prog.throughout_bind]
  apply Prog.throughout_mono _ _ _ (Prog.throughout_of_guar (fun _ _ h hb => h.besides hb)
    (fun _ h => h.keysConnected hs) _ _ (tablesAre_removeClientFromRoom sock) (tablesAre_now s))
  rintro _ s₁ ⟨h₁, -⟩
  apply throughout_critical_then h₁ (fun _ _ h => h.erase sock) hkept
  intro s₂ h₂
  apply throughout_step_then h₂ (fun _ _ h => h.closed sock) hclosed
  intro s₃ h₃
  rw [critical, Prog.throughout_holding, step, Prog.throughout_block]
  intro e s' hbesides
  have h₄ := (h₃.besides hbesides).remove sock
  exact ⟨h₄.keysConnected hclosed, h₄.leaves hclosed⟩

theorem throughout_handleClientMessage (hs : s.KeysConnected) (hk : sock ∈ s.clients) (buffer : Bytes) :
    (handleClientMessage sock buffer).throughout Besides Globals.KeysConnected
      (fun _ => Leaves (fun t => t ∈ s.clients) s.pollFds) s := by
  apply Prog.throughout_mono _ _ _ (Prog.throughout_of_guar (fun _ _ h hb => h.besides hb)
    (fun _ h => h.keysConnected hs) _ _ (tablesAre_handleClientMessage hk buffer) (tablesAre_now s))
  rintro _ s' ⟨h, -⟩
  exact h.leaves hs

end Tables

/-- The keys of `g_clients` after an event. -/
def Event.clientsAfter (s : Globals) : Event → SOCKET → Prop
  | .connect sock => fun t => t = sock ∨ t ∈ s.clients
  | .receive _ _ => fun t => t ∈ s.clients
  | .hangup sock => fun t => t ∈ s.clients ∧ t ≠ sock

/-- The poll table after an event. -/
def Event.pollFdsAfter (l : List SOCKET) : Event → List SOCKET
  | .connect sock => l ++ [sock]
  | .receive _ _ => l
  | .hangup sock => l.erase sock

theorem throughout_handler {s : Globals} (hs : s.KeysConnected) {ev : Event} (hev : ev.CanOccur s) :
    ev.handler.throughout Besides Globals.KeysConnected
      (fun _ => Leaves (ev.clientsAfter s) (ev.pollFdsAfter s.pollFds)) s := by
  cases ev with
  | connect sock => exact throughout_acceptClient hs sock
  | receive sock buffer => exact throughout_handleClientMessage hs hev.1 buffer
  | hangup sock => exact throughout_handleClientDisconnect hs sock

namespace Machine

variable {ok : Machine → Label → Prop} {m m' : Machine} {Q : Globals → Prop} {l : Label}

theorem Move.pollFds {g g' : Note} {w w' : Watch} (h : Move m g w l m' g' w')
    (hl : ∀ e, l ≠ .run .main e) : m'.globals.pollFds = m.globals.pollFds := by
  cases h with
  | rest hs => rw [hs]
  | wake hs => rw [hs]
  | main H hd => exact absurd rfl (hl _)
  | broadcast hd => exact hd.pollFds
  | sweep roomId hs =>
      rw [hs]
      exact pollFds_sweep _ _ roomId

theorem besides_of_next (hm : Reachable ok m) (hl : ∀ e, l ≠ .run .main e)
    (h : m.next l = some m') : Besides m.globals m'.globals := by
  refine ⟨meanwhile_of_next hm hl h, ?_⟩
  obtain ⟨db, listenSocket, hrun⟩ := hm
  obtain ⟨w, hw⟩ := exists_watched hrun
  obtain ⟨g, g', hmove⟩ := hw.move h
  exact hmove.pollFds hl

/-- Every key has its connection, now and throughout the handler in progress, which ends in `Q`. -/
structure Connects (Q : Globals → Prop) (m : Machine) : Prop where
  keysConnected : m.globals.KeysConnected
  main : (m.config.prog .main).throughout Besides Globals.KeysConnected (fun _ => Q) m.globals

theorem Connects.of_idle (h : m.Connects Q) (hidle : m.Idle) : Q m.globals := by
  have hmain := h.main
  cases hp : m.config.prog .main with
  | ret a =>
      rw [hp] at hmain
      exact hmain
  | lock n next => simp [Idle, hp, Prog.isDone] at hidle
  | unlock n next => simp [Idle, hp, Prog.isDone] at hidle
  | act f next => simp [Idle, hp, Prog.isDone] at hidle

/-- A step that starts no handler. -/
theorem Connects.next (hm : Reachable ok m) (h : m.Connects Q)
    (hQ : ∀ s s', Q s → Besides s s' → Q s') (hl : ∀ ev, l ≠ .event ev) (hnext : m.next l = some m') :
    m'.Connects Q := by
  by_cases hlab : ∀ e, l ≠ .run .main e
  · have hb := besides_of_next hm hlab hnext
    constructor
    · exact ((tablesAre_now _).besides hb).keysConnected h.keysConnected
    · rw [prog_main_next hl hlab hnext]
      exact Prog.throughout_stable (fun _ _ _ h h' => h.trans h') (fun _ => hQ) _ _ _ h.main hb
  · simp only [ne_eq, not_forall, not_not] at hlab
    obtain ⟨e, rfl⟩ := hlab
    simp only [Machine.next, Option.map_eq_some_iff] at hnext
    obtain ⟨c, hc, rfl⟩ := hnext
    obtain ⟨hkeysConnected, hmain⟩ := Config.throughout_stepThread Besides.refl hc h.keysConnected h.main
    exact ⟨hkeysConnected, hmain⟩

/-- The start of a handler. -/
theorem connects_event {ev : Event} (hs : m.globals.KeysConnected) (hnext : m.next (.event ev) = some m') :
    m'.Connects (Leaves (ev.clientsAfter m.globals) (ev.pollFdsAfter m.globals.pollFds)) := by
  simp only [Machine.next, Option.ite_none_right_eq_some, Option.some.injEq] at hnext
  obtain ⟨⟨-, hev⟩, rfl⟩ := hnext
  refine ⟨hs, ?_⟩
  have hprog : (m.config.start .main ev.handler).prog .main = ev.handler := by
    simp [Config.start]
  rw [hprog]
  exact throughout_handler hs hev

/-- In every state of every run, every key of `g_clients` is the socket of a connection. -/
theorem keysConnected_of_reachable (hm : Reachable ok m) : m.globals.KeysConnected := by
  suffices h : m.Connects Globals.KeysConnected from h.keysConnected
  obtain ⟨db, listenSocket, hrun⟩ := hm
  induction hrun with
  | refl =>
      have hboot : (boot db listenSocket).globals.KeysConnected := by
        intro t ht
        exact absurd ht (by simp [boot, globals, Globals.boot])
      exact ⟨hboot, hboot⟩
  | @tail m m' hrun hstep ih =>
      obtain ⟨l, -, hnext⟩ := hstep
      by_cases hl : ∀ ev, l ≠ .event ev
      · exact ih.next ⟨db, listenSocket, hrun⟩
          (fun s s' h hb => ((tablesAre_now s).besides hb).keysConnected h) hl hnext
      · simp only [ne_eq, not_forall, not_not] at hl
        obtain ⟨ev, rfl⟩ := hl
        have h := connects_event ih.keysConnected hnext
        exact ⟨h.keysConnected, Prog.throughout_mono (fun _ _ hq => hq.keysConnected) _ _ h.main⟩

end Machine

end TerminalChat.Server
