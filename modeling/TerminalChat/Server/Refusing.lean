import Mathlib
import TerminalChat.Server.Streams

/-!
# How handlers refuse

A handler refuses with an `ERROR` line or with one of five answers of its own. Every check that
refuses stands before the first change: a handler that refuses reads until then, and nothing follows
the refusal. This is a contract of the main thread (`orderly`), with what the handler has done so far
as its note, and every handler honours it (`orderly_handler`).
-/

set_option autoImplicit false

namespace TerminalChat.Server

open TerminalChat.Concurrency TerminalChat.Text

/-! ## What is a refusal -/

/-- How refusals begin. -/
def refusalHeads : List Bytes :=
  [str "ERROR: ", str "ROOM_NOT_FOUND\n", str "PASSWORD_REQUIRED\n", str "WRONG_PASSWORD\n",
    str "NAME_TAKEN\n", str "OWNER_LEAVE_WARNING\n"]

/-- The line refuses what the client has asked for. -/
def IsRefusal (text : Bytes) : Prop := (refusalHeads.any fun head => startsWith head text) = true

instance (text : Bytes) : Decidable (IsRefusal text) := inferInstanceAs (Decidable (_ = true))

/-- The socket operation sends the client a refusal. -/
def NetOp.Refuses (sock : SOCKET) (op : NetOp) : Prop :=
  ∃ text, op.sends = some (sock, text) ∧ IsRefusal text

instance (sock : SOCKET) (op : NetOp) : Decidable (op.Refuses sock) :=
  decidable_of_iff ((op.sends.any fun p => p.1 == sock && decide (IsRefusal p.2)) = true) (by
    rw [Option.any_eq_true, NetOp.Refuses]
    simp)

/-- The same for the answers of handlers, the replayed lines apart. -/
def NetOp.Denies (sock : SOCKET) : NetOp → Prop
  | .sent t text => t = sock ∧ IsRefusal text
  | _ => False

theorem isRefusal_errorText (text : String) : IsRefusal (errorText text) := by
  have h : startsWith (str "ERROR: ") (errorText text) = true := by
    rw [startsWith, List.isPrefixOf_iff_prefix, errorText, List.append_assoc]
    exact List.prefix_append _ _
  rw [IsRefusal, List.any_eq_true]
  exact ⟨str "ERROR: ", by simp [refusalHeads], h⟩

/-- A text is told from a refusal by its label. -/
theorem not_isRefusal_label (label : Bytes)
    (h : (refusalHeads.all fun head => head.take label.length != label.take head.length) = true)
    (rest : Bytes) : ¬IsRefusal (label ++ rest) := by
  intro hr
  rw [IsRefusal, List.any_eq_true] at hr
  obtain ⟨head, hmem, hstart⟩ := hr
  have hne := List.all_eq_true.1 h head hmem
  rw [bne_iff_ne] at hne
  rw [startsWith, List.isPrefixOf_iff_prefix, List.prefix_iff_eq_take] at hstart
  apply hne
  have hlabel : (label ++ rest).take label.length = label := List.take_left
  -- were `head` a beginning of the line, the two would agree as far as both go
  calc head.take label.length
      = ((label ++ rest).take head.length).take label.length := by rw [← hstart]
    _ = ((label ++ rest).take label.length).take head.length := by
        rw [List.take_take, List.take_take, Nat.min_comm]
    _ = label.take head.length := by rw [hlabel]

theorem not_isRefusal_systemText (now : LocalTm) (text : Bytes) :
    ¬IsRefusal (systemText now.text text) := by
  have h : systemText now.text text = str "[" ++ (twoDigits now.hour ++ (str ":" ++
      (twoDigits now.min ++ (str ":" ++ (twoDigits now.sec ++ (str "]" ++ (str " SYSTEM: " ++
        (text ++ str "\n")))))))) := by
    simp only [systemText, LocalTm.text, List.append_assoc]
  rw [h]
  exact not_isRefusal_label (str "[") (by decide) _

/-- No line of a history is a refusal. -/
theorem not_isRefusal_recited {text : Bytes} (h : Recited text) : ¬IsRefusal text := by
  rcases h with ⟨now, name, content, rfl⟩ | ⟨row, rfl⟩
  · simp only [chatText, LocalTm.text, List.append_assoc]
    exact not_isRefusal_label (str "[") (by decide) _
  · simp only [Database.historyLine, List.append_assoc]
    exact not_isRefusal_label (str "[") (by decide) _

/-- Only an answer can refuse. -/
theorem NetOp.Refuses.denies {sock : SOCKET} {op : NetOp} (h : op.Refuses sock) (hs : op.Spoken) :
    op.Denies sock := by
  obtain ⟨text, hsends, hr⟩ := h
  cases op with
  | sent t text' =>
      simp only [NetOp.sends, Option.some.injEq, Prod.mk.injEq] at hsends
      obtain ⟨rfl, rfl⟩ := hsends
      exact ⟨rfl, hr⟩
  | replayed t text' =>
      -- an old line that is recited is no refusal, whatever its content
      simp only [NetOp.sends, Option.some.injEq, Prod.mk.injEq] at hsends
      obtain ⟨-, rfl⟩ := hsends
      exact absurd hr (not_isRefusal_recited hs)
  | accepted t => exact absurd hsends (by simp [NetOp.sends])
  | closed t => exact absurd hsends (by simp [NetOp.sends])

/-! ## The contract -/

/-- What a handler has done so far: nothing, refused, or something else. -/
inductive Standing where
  | clean
  | refused
  | touched
  deriving DecidableEq

/-- What an action may do: nothing; refuse the client, as long as nothing has been done; or, as long
as the client has not been refused, anything that does not refuse it. The shutdown flag is left
alone. -/
structure Orderly (sock : SOCKET) (g g' : Standing) (s s' : Globals) : Prop where
  flag : s'.shutdownRequested = s.shutdownRequested
  deed : (g' = g ∧ s' = s) ∨
    (g = .clean ∧ g' = .refused ∧ ∃ text, IsRefusal text ∧ s' = s.send sock text) ∨
    (g ≠ .refused ∧ g' = .touched ∧
      ∃ ops, s'.net = s.net ++ ops ∧ ∀ op ∈ ops, ¬op.Denies sock)

/-- The contract of a handler for a client: the other threads leave the clients alone. -/
def orderly (sock : SOCKET) : Contract Mutex Env Globals Standing where
  rely _ s s' := s'.clients = s.clients
  guarantee _ g g' _ s s' := Orderly sock g g' s s'
  rely_refl _ _ := rfl
  rely_trans _ _ _ _ h h' := h'.trans h
  rely_mono _ _ _ _ h := h

/-- What a block does besides refusing. -/
structure Harmless (sock : SOCKET) (s s' : Globals) : Prop where
  flag : s'.shutdownRequested = s.shutdownRequested
  net : ∃ ops, s'.net = s.net ++ ops ∧ ∀ op ∈ ops, ¬op.Denies sock

section Rules

variable {α β : Type} {sock : SOCKET} {H : List Mutex}

theorem Harmless.of_net {s s' : Globals} (hf : s'.shutdownRequested = s.shutdownRequested)
    (hn : s'.net = s.net) : Harmless sock s s' :=
  ⟨hf, [], by rw [hn, List.append_nil], fun _ h => absurd h List.not_mem_nil⟩

theorem Harmless.refl (sock : SOCKET) (s : Globals) : Harmless sock s s := .of_net rfl rfl

theorem Harmless.trans {s s' s'' : Globals} (h : Harmless sock s s') (h' : Harmless sock s' s'') :
    Harmless sock s s'' := by
  obtain ⟨ops, hnet, hops⟩ := h.net
  obtain ⟨ops', hnet', hops'⟩ := h'.net
  refine ⟨h'.flag.trans h.flag, ops ++ ops', by rw [hnet', hnet, List.append_assoc], ?_⟩
  intro op hop
  rcases List.mem_append.1 hop with hop | hop
  · exact hops op hop
  · exact hops' op hop

theorem Harmless.sendAll {s s' : Globals} (h : Harmless sock s s') (socks : List SOCKET)
    {text : Bytes} (ht : ¬IsRefusal text) : Harmless sock s (s'.sendAll socks text) := by
  refine h.trans ⟨rfl, _, rfl, ?_⟩
  intro op hop
  obtain ⟨t, -, rfl⟩ := List.mem_map.1 hop
  rintro ⟨-, hr⟩
  exact ht hr

theorem Harmless.send {s s' : Globals} (h : Harmless sock s s') (t : SOCKET) {text : Bytes}
    (ht : ¬IsRefusal text) : Harmless sock s (s'.send t text) := h.sendAll [t] ht

/-- Nothing has been done yet, and the client is connected. -/
def Unmoved (sock : SOCKET) (g : Standing) (s : Globals) : Prop := g = .clean ∧ sock ∈ s.clients

/-- The client has not been refused. -/
def Open (g : Standing) (_ : Globals) : Prop := g ≠ .refused

theorem stable_unmoved : Prog.Stable (orderly sock) H (Unmoved sock) := by
  intro g s s' hs h
  refine ⟨h.1, ?_⟩
  have hclients : s'.clients = s.clients := hs
  rw [hclients]
  exact h.2

theorem stable_open : Prog.Stable (orderly sock) H Open := fun _ _ _ _ h => h

theorem stable_true : Prog.Stable (orderly sock) H fun _ _ => True := fun _ _ _ _ _ => trivial

/-- A program that does not refuse. -/
def Accepts (sock : SOCKET) (H : List Mutex) (p : Thread α) : Prop :=
  Prog.Triple (orderly sock) H Open p fun _ => Open

/-- A program that has done nothing before, and that may refuse. -/
def Decides (sock : SOCKET) (H : List Mutex) (p : Thread α) : Prop :=
  Prog.Triple (orderly sock) H (Unmoved sock) p fun _ _ _ => True

theorem accepts_pure (a : α) : Accepts sock H (pure a) := Prog.triple_pure fun _ _ h => h

theorem accepts_seq {p : Thread β} {f : β → Thread α} (hp : Accepts sock H p)
    (hf : ∀ b, Accepts sock H (f b)) : Accepts sock H (p >>= f) := Prog.triple_bind hp hf

theorem accepts_ite {c : Prop} [Decidable c] {p p' : Thread α} (hp : Accepts sock H p)
    (hp' : Accepts sock H p') : Accepts sock H (if c then p else p') :=
  Prog.triple_ite c (fun _ => hp) fun _ => hp'

theorem accepts_holding {m : Mutex} {p : Thread α} (hp : Accepts sock (m :: H) p) :
    Accepts sock H (Prog.holding m p) := Prog.triple_holding stable_open (fun _ => stable_open) hp

theorem accepts_step {b : Sect α} (hb : ∀ e s, b.post e s fun _ s' => Harmless sock s s') :
    Accepts sock H (step b) := by
  apply Prog.triple_block _ stable_open fun _ => stable_open
  intro e g s hg
  apply Block.post_mono (hb e s)
  intro _ s' h
  exact ⟨.touched, ⟨h.flag, Or.inr (Or.inr ⟨hg, rfl, h.net⟩)⟩, by simp [Open]⟩

theorem accepts_critical {m : Mutex} {b : Sect α}
    (hb : ∀ e s, b.post e s fun _ s' => Harmless sock s s') : Accepts sock H (critical m b) :=
  accepts_holding (accepts_step hb)

theorem accepts_reply {t : SOCKET} {text : Bytes} (ht : ¬IsRefusal text) :
    Accepts sock H (reply t text) :=
  accepts_step fun _ _ => (Harmless.of_net rfl rfl).send t ht

theorem accepts_setInfo (t : SOCKET) (f : ClientInfo → ClientInfo) :
    Accepts sock H (critical .clientsMutex (setClientInfo t f)) :=
  accepts_critical fun _ _ => .of_net rfl rfl

theorem decides_of_accepts {p : Thread α} (hp : Accepts sock H p) : Decides sock H p :=
  Prog.triple_mono hp (fun g s h => by rw [Open, h.1]; simp) fun _ _ _ _ => trivial

theorem decides_pure (a : α) : Decides sock H (pure a) := Prog.triple_pure fun _ _ _ => trivial

theorem decides_ite {c : Prop} [Decidable c] {p p' : Thread α} (hp : Decides sock H p)
    (hp' : Decides sock H p') : Decides sock H (if c then p else p') :=
  Prog.triple_ite c (fun _ => hp) fun _ => hp'

theorem decides_holding {m : Mutex} {p : Thread α} (hp : Decides sock (m :: H) p) :
    Decides sock H (Prog.holding m p) :=
  Prog.triple_holding stable_unmoved (fun _ => stable_true) hp

/-- A block that does nothing, refuses, or does something else. -/
theorem decides_step {b : Sect α} (hb : ∀ e s, sock ∈ s.clients → b.post e s fun _ s' => s' = s ∨
    (∃ text, IsRefusal text ∧ s' = s.send sock text) ∨ Harmless sock s s') :
    Decides sock H (step b) := by
  apply Prog.triple_block _ stable_unmoved fun _ => stable_true
  rintro e g s ⟨rfl, hconn⟩
  apply Block.post_mono (hb e s hconn)
  rintro _ s' (rfl | ⟨text, ht, rfl⟩ | h)
  · exact ⟨.clean, ⟨rfl, Or.inl ⟨rfl, rfl⟩⟩, trivial⟩
  · exact ⟨.refused, ⟨rfl, Or.inr (Or.inl ⟨rfl, rfl, text, ht, rfl⟩)⟩, trivial⟩
  · exact ⟨.touched, ⟨h.flag, Or.inr (Or.inr ⟨by simp, rfl, h.net⟩)⟩, trivial⟩

theorem decides_refuse {text : Bytes} (ht : IsRefusal text) : Decides sock H (reply sock text) :=
  decides_step fun _ _ _ => Or.inr (Or.inl ⟨text, ht, rfl⟩)

theorem decides_error (text : String) : Decides sock H (reply sock (errorText text)) :=
  decides_refuse (isRefusal_errorText text)

/-- After a block that leaves the globals alone, nothing has been done yet. -/
theorem decides_after {b : Sect β} {f : β → Thread α}
    (hb : ∀ e s, sock ∈ s.clients → b.post e s fun _ s' => s' = s)
    (hf : ∀ a, Decides sock H (f a)) : Decides sock H (step b >>= f) := by
  apply Prog.triple_bind (R := fun _ => Unmoved sock) _ hf
  apply Prog.triple_block _ stable_unmoved fun _ => stable_unmoved
  rintro e g s ⟨rfl, hconn⟩
  apply Block.post_mono (hb e s hconn)
  rintro _ s' rfl
  exact ⟨.clean, ⟨rfl, Or.inl ⟨rfl, rfl⟩⟩, rfl, hconn⟩

/-- The same for a block under a mutex. -/
theorem decides_after_critical {m : Mutex} {b : Sect β} {f : β → Thread α}
    (hb : ∀ e s, sock ∈ s.clients → b.post e s fun _ s' => s' = s)
    (hf : ∀ a, Decides sock H (f a)) : Decides sock H (critical m b >>= f) := by
  apply Prog.triple_bind (R := fun _ => Unmoved sock) _ hf
  apply Prog.triple_holding stable_unmoved fun _ => stable_unmoved
  apply Prog.triple_block _ stable_unmoved fun _ => stable_unmoved
  rintro e g s ⟨rfl, hconn⟩
  apply Block.post_mono (hb e s hconn)
  rintro _ s' rfl
  exact ⟨.clean, ⟨rfl, Or.inl ⟨rfl, rfl⟩⟩, rfl, hconn⟩

/-- The entry of the client is read. -/
theorem decides_clientInfo {f : ClientInfo → Thread α} (hf : ∀ client, Decides sock H (f client)) :
    Decides sock H (critical .clientsMutex (clientInfo sock) >>= f) :=
  decides_after_critical (fun _ _ _ => rfl) hf

theorem setInfo_id {s : Globals} (h : sock ∈ s.clients) : s.setInfo sock id = s := by
  have hsame : s.clients.insert sock (id (s.info sock)) = s.clients := by
    apply Std.ExtTreeMap.ext_getElem?
    intro t
    rw [Std.ExtTreeMap.getElem?_insert]
    -- the entry of `sock` itself, and the others
    split
    · rename_i ht
      rw [Std.LawfulEqCmp.compare_eq_iff_eq] at ht
      rw [← ht, Globals.info, Std.ExtTreeMap.getElem?_eq_some_getElem h]
      rfl
    · rfl
  rw [Globals.setInfo, hsame]

/-- `g_clients[sock]` inserts nothing for a connected client. -/
theorem decides_clientRef {f : ClientInfo → Thread α} (hf : ∀ client, Decides sock H (f client)) :
    Decides sock H (step (clientRef sock) >>= f) :=
  decides_after (fun _ _ h => setInfo_id h) hf

end Rules

/-! ## The blocks -/

section Blocks

variable (sock : SOCKET) (e : Env) (s : Globals) (roomId username : Bytes) (t : SOCKET)

theorem harmless_departRoom :
    (departRoom roomId username t).post e s fun _ s' => Harmless sock s s' := by
  have hsent := (Harmless.refl sock s).sendAll
    (((s.chatRooms[roomId]?).map fun room => room.broadcastTargets t).getD [])
    (not_isRefusal_systemText (e.wall 0) (username ++ str " has left the room"))
  exact hsent.trans (.of_net rfl rfl)

theorem harmless_leaveRoom :
    (leaveRoom roomId username t).post e s fun _ s' => Harmless sock s s' := by
  simp only [leaveRoom, Block.post_bind, post_roomExists, Block.post_ite, Block.post_pure,
    post_askRoom, post_spawnCleanup]
  constructor
  · intro _
    apply Block.post_mono (harmless_departRoom sock e s roomId username t)
    intro _ s' h
    exact ⟨fun _ => h.trans (.of_net rfl rfl), fun _ => h⟩
  · exact fun _ => .of_net rfl rfl

theorem harmless_sweepRoom :
    (sweepRoom roomId).post e s fun _ s' => Harmless sock s s' := by
  simp only [sweepRoom, Block.post_bind, post_roomExists, Block.post_ite, post_askRoom,
    Block.post_modify, post_tellDatabase, Block.post_pure]
  have hsame : ∀ s' : Globals, s'.shutdownRequested = s.shutdownRequested → s'.net = s.net →
      Harmless sock s s' := fun _ => .of_net
  exact ⟨fun _ => ⟨fun _ => hsame _ rfl rfl, fun _ => hsame _ rfl rfl⟩, fun _ => hsame _ rfl rfl⟩

theorem harmless_sendHistory :
    (sendHistory t roomId).post e s fun _ s' => Harmless sock s s' := by
  have hstart : ¬IsRefusal (str "MESSAGE_HISTORY_START\n") := by decide
  have hend : ¬IsRefusal (str "MESSAGE_HISTORY_END\n") := by decide
  -- header, recited lines and footer, wherever the lines come from
  have hreplay : ∀ history : List Bytes, Harmless sock s
      (({ s.send t (str "MESSAGE_HISTORY_START\n") with
        net := (s.send t (str "MESSAGE_HISTORY_START\n")).net ++
          history.map fun msg => .replayed t msg } : Globals).send t
            (str "MESSAGE_HISTORY_END\n")) := by
    intro history
    apply Harmless.send _ t hend
    apply ((Harmless.of_net rfl rfl).send t hstart).trans
    refine ⟨rfl, _, rfl, ?_⟩
    intro op hop
    obtain ⟨msg, -, rfl⟩ := List.mem_map.1 hop
    exact id
  simp only [sendHistory, Block.post_bind, post_askDatabase, Block.post_ite, post_askRoom,
    Block.post_pure, post_sendToClient, Block.post_modify]
  have hnone : Harmless sock s s := .of_net rfl rfl
  exact ⟨fun _ => ⟨fun _ => hnone, fun _ => hreplay _⟩,
    fun _ => ⟨fun _ => hnone, fun _ => hreplay _⟩⟩

theorem harmless_admitClient (client : ClientInfo) :
    (admitClient t client roomId).post e s fun _ s' => Harmless sock s s' := by
  have hjoined : ¬IsRefusal (str "ROOM_JOINED:" ++ roomId ++ str "\n") := by
    rw [List.append_assoc]
    exact not_isRefusal_label (str "ROOM_JOINED:") (by decide) _
  have hleave : (leaveOldRoom t client).post e s fun _ s' => Harmless sock s s' := by
    rw [leaveOldRoom, Block.post_ite, Block.post_pure]
    exact ⟨fun _ => .of_net rfl rfl, fun _ => harmless_leaveRoom sock e s _ _ t⟩
  rw [admitClient, Block.post_bind]
  apply Block.post_mono hleave
  intro _ s₁ h₁
  simp only [Block.post_bind, post_addClient, post_setClientInfo, post_sendToClient,
    post_getCurrentTimestamp, post_broadcast]
  apply Block.post_mono (harmless_sendHistory sock e _ roomId t)
  intro _ s₂ h₂
  apply Harmless.sendAll _ _ (not_isRefusal_systemText _ _)
  apply Harmless.trans _ h₂
  apply Harmless.send _ t hjoined
  exact h₁.trans (.of_net rfl rfl)

theorem harmless_expelBanned :
    (expelBanned roomId username t).post e s fun _ s' => Harmless sock s s' := by
  have hkicked : ¬IsRefusal (str "KICKED_FROM_ROOM\n") := by decide
  have h₁ := (Harmless.refl sock s).send t
    (not_isRefusal_systemText (e.wall 0) (str "You have been banned from the room by the owner"))
  have h₂ := (h₁.send t hkicked).sendAll (((s.chatRooms[roomId]?).map fun room =>
    room.broadcastToAllTargets).getD [])
    (not_isRefusal_systemText (e.wall 1) (username ++ str " has been banned from the room"))
  exact h₂.trans (.of_net rfl rfl)

theorem harmless_announceForceLeave (newOwnerName : Bytes) (newOwner : SOCKET) :
    (announceForceLeave roomId username newOwnerName newOwner t).post e s fun _ s' =>
      Harmless sock s s' := by
  have hreceived : ¬IsRefusal (str "OWNERSHIP_RECEIVED\n") := by decide
  -- the part that is skipped when nobody takes over
  have hannounce : (announceNewOwner roomId newOwnerName newOwner).post e s fun _ s' =>
      Harmless sock s s' := by
    simp only [announceNewOwner, Block.post_ite, Block.post_pure, Block.post_bind,
      post_getCurrentTimestamp, post_broadcastToAll, post_sendToClient]
    constructor
    · exact fun _ => .of_net rfl rfl
    · intro _
      apply Harmless.send _ newOwner hreceived
      exact (Harmless.of_net rfl rfl).sendAll _ (not_isRefusal_systemText _ _)
  simp only [announceForceLeave, Block.post_bind, post_getCurrentTimestamp, post_broadcast,
    post_tellRoom, post_askRoom, Block.post_ite, post_spawnCleanup, Block.post_pure]
  apply Block.post_mono hannounce
  intro _ s₁ h₁
  have h₂ := h₁.sendAll (((s₁.chatRooms[roomId]?).map fun room => room.broadcastTargets t).getD [])
    (not_isRefusal_systemText (e.wall 0) (username ++ str " has left the room"))
  -- taking the leaver out and scheduling a cleanup send nothing
  have hrest : ∀ s' : Globals, s'.shutdownRequested = s₁.shutdownRequested →
      s'.net = (s₁.sendAll (((s₁.chatRooms[roomId]?).map fun room =>
        room.broadcastTargets t).getD []) (systemText (e.wall 0).text
          (username ++ str " has left the room"))).net → Harmless sock s s' :=
    fun s' hf hn => h₂.trans (.of_net hf hn)
  exact ⟨fun _ => hrest _ rfl rfl, fun _ => hrest _ rfl rfl⟩

/-- JOIN under both locks refuses before it does anything. -/
theorem decides_joinRoom (client : ClientInfo) (password : Bytes) :
    (joinRoom sock client roomId password).post e s fun _ s' => s' = s ∨
      (∃ text, IsRefusal text ∧ s' = s.send sock text) ∨ Harmless sock s s' := by
  apply post_joinRoom_cases e s
  · exact fun _ => Or.inr (Or.inl ⟨_, by decide, rfl⟩)
  · intro text ht
    refine Or.inr (Or.inl ⟨text, ?_, rfl⟩)
    simp only [joinRefusals, List.mem_cons, List.not_mem_nil, or_false] at ht
    -- banned, without a password, with a wrong one
    rcases ht with rfl | rfl | rfl
    · exact isRefusal_errorText _
    · decide
    · decide
  · intro room _ _ _
    apply Block.post_mono (harmless_admitClient sock e s roomId sock client)
    exact fun _ s' h => Or.inr (Or.inr h)

end Blocks

/-! ## The handlers -/

section Handlers

variable {sock : SOCKET} {H : List Mutex}

theorem accepts_makeRoom (client : ClientInfo) (roomId : Bytes) (isPrivate : Bool)
    (password : Bytes) : Accepts sock [] (makeRoom sock client roomId isPrivate password) := by
  apply accepts_seq
  · exact accepts_critical fun _ _ => .of_net rfl rfl
  intro _
  apply accepts_seq (accepts_setInfo sock _)
  intro _
  apply accepts_seq
  · exact accepts_step fun _ _ => .of_net rfl rfl
  intro _
  apply accepts_reply
  simp only [List.append_assoc]
  exact not_isRefusal_label (str "ROOM_CREATED:") (by decide) _

/-- `handleCreateCommand`. -/
theorem decides_handleCreateCommand (params : Bytes) :
    Decides sock [] (handleCreateCommand sock params) := by
  apply decides_ite
  · exact decides_error _
  apply decides_of_accepts
  apply accepts_seq
  · exact accepts_step fun _ _ => .of_net rfl rfl
  intro roomId
  apply accepts_seq
  · apply accepts_holding
    apply accepts_seq
    · exact accepts_step fun _ _ => .of_net rfl rfl
    intro client
    apply accepts_ite (accepts_pure client)
    apply accepts_seq
    · -- past the check of the password nothing is refused, and the old room is left without one
      exact accepts_critical fun e s => harmless_leaveRoom sock e s _ _ sock
    · exact fun _ => accepts_pure client
  · exact fun client => accepts_makeRoom client roomId _ _

/-- `handleJoinCommand`. -/
theorem decides_handleJoinCommand (params : Bytes) :
    Decides sock [] (handleJoinCommand sock params) := by
  apply decides_ite
  · exact decides_error _
  apply decides_holding
  apply decides_clientRef
  intro client
  apply decides_ite
  · exact decides_error _
  apply decides_holding
  exact decides_step fun e s _ => decides_joinRoom sock e s _ client _

/-- `handleSetNameCommand`. -/
theorem decides_handleSetNameCommand (name : Bytes) :
    Decides sock [] (handleSetNameCommand sock name) := by
  apply decides_ite
  · exact decides_error _
  apply decides_after_critical
  · exact fun _ _ _ => rfl
  intro available
  apply decides_ite
  · exact decides_refuse (by decide)
  apply decides_of_accepts
  apply accepts_seq (accepts_setInfo sock _)
  exact fun _ => accepts_reply (by decide)

/-- `handleListCommand`. -/
theorem decides_handleListCommand : Decides sock [] (handleListCommand sock) := by
  apply decides_of_accepts
  apply accepts_critical
  intro e s
  apply Harmless.send (.of_net rfl rfl)
  rw [List.append_assoc]
  exact not_isRefusal_label (str "ROOMS_LIST:") (by decide) _

/-- `handleGetPasswordCommand`. -/
theorem decides_handleGetPasswordCommand :
    Decides sock [] (handleGetPasswordCommand sock) := by
  apply decides_clientInfo
  intro client
  apply decides_ite
  · exact decides_error _
  apply decides_ite
  · exact decides_error _
  apply decides_holding
  apply decides_step
  intro e s _
  simp only [Block.post_bind, post_roomExists, Block.post_ite, post_askRoom, post_sendToClient,
    Block.post_pure]
  refine ⟨fun _ => ⟨fun _ => Or.inr (Or.inr ?_), fun _ => Or.inr (Or.inl ?_)⟩, fun _ => Or.inl trivial⟩
  · apply Harmless.send (.of_net rfl rfl)
    rw [List.append_assoc]
    exact not_isRefusal_label (str "ROOM_PASSWORD:") (by decide) _
  · exact ⟨_, isRefusal_errorText _, rfl⟩

/-- `handleUsersCommand`. -/
theorem decides_handleUsersCommand : Decides sock [] (handleUsersCommand sock) := by
  apply decides_clientInfo
  intro client
  apply decides_ite
  · exact decides_error _
  apply decides_holding
  apply decides_after
  · exact fun _ _ _ => rfl
  intro found
  apply decides_ite
  · apply decides_after
    · exact fun _ _ _ => rfl
    intro members
    apply decides_of_accepts
    apply accepts_critical
    intro e s
    apply Harmless.send (.of_net rfl rfl)
    rw [List.append_assoc]
    exact not_isRefusal_label (str "USERS_LIST:") (by decide) _
  · exact decides_pure _

theorem decides_findClientByUsername {α : Type} {username roomId : Bytes} {f : SOCKET → Thread α}
    (hf : ∀ t, Decides sock H (f t)) :
    Decides sock H (findClientByUsername username roomId >>= f) :=
  decides_after_critical (fun _ _ _ => rfl) hf

/-- `handleKickCommand`. -/
theorem decides_handleKickCommand (params : Bytes) :
    Decides sock [] (handleKickCommand sock params) := by
  apply decides_ite
  · exact decides_error _
  apply decides_clientInfo
  intro client
  apply decides_ite
  · exact decides_error _
  apply decides_ite
  · exact decides_error _
  apply decides_ite
  · exact decides_error _
  apply decides_findClientByUsername
  intro t
  apply decides_ite
  · exact decides_error _
  -- past the guards; the line goes to the target before the owner is answered
  apply decides_of_accepts
  apply accepts_seq
  · exact accepts_step fun _ _ => (Harmless.of_net rfl rfl).send t (not_isRefusal_systemText _ _)
  intro _
  apply accepts_seq (accepts_reply (by decide))
  intro _
  apply accepts_seq
  · apply accepts_critical
    intro e s
    simp only [Block.post_bind, post_roomExists, Block.post_ite, post_getCurrentTimestamp,
      post_broadcastToAll, post_tellRoom, Block.post_pure]
    have hsent := (Harmless.refl sock s).sendAll
      (((s.chatRooms[client.roomId]?).map fun room => room.broadcastToAllTargets).getD [])
      (not_isRefusal_systemText (e.wall 0) (trim params ++ str " has been kicked from the room"))
    exact ⟨fun _ => hsent.trans (.of_net rfl rfl), fun _ => .of_net rfl rfl⟩
  · exact fun _ => accepts_setInfo t _

/-- `handleBanCommand`. -/
theorem decides_handleBanCommand (params : Bytes) :
    Decides sock [] (handleBanCommand sock params) := by
  apply decides_ite
  · exact decides_error _
  apply decides_clientInfo
  intro client
  apply decides_ite
  · exact decides_error _
  apply decides_ite
  · exact decides_error _
  apply decides_ite
  · exact decides_error _
  apply decides_findClientByUsername
  intro t
  apply decides_holding
  -- a room that has gone in between: nothing is done and nothing is said
  apply decides_after
  · exact fun _ _ _ => rfl
  intro found
  apply decides_ite
  · apply decides_of_accepts
    apply accepts_seq
    · exact accepts_step fun _ _ => .of_net rfl rfl
    intro _
    have hdone : Accepts sock [.chatRoomsMutex]
        (reply sock (str "SUCCESS: User " ++ trim params ++ str " has been banned\n")) := by
      apply accepts_reply
      rw [List.append_assoc]
      exact not_isRefusal_label (str "SUCCESS: User ") (by decide) _
    apply accepts_ite hdone
    · apply accepts_seq
      · exact accepts_step fun e s => harmless_expelBanned sock e s _ _ t
      · exact fun _ => accepts_seq (accepts_setInfo t _) fun _ => hdone
  · exact decides_pure _

/-- `handleTransferCommand`. -/
theorem decides_handleTransferCommand (params : Bytes) :
    Decides sock [] (handleTransferCommand sock params) := by
  apply decides_ite
  · exact decides_error _
  apply decides_clientInfo
  intro client
  apply decides_ite
  · exact decides_error _
  apply decides_ite
  · exact decides_error _
  apply decides_ite
  · exact decides_error _
  apply decides_findClientByUsername
  intro t
  apply decides_ite
  · exact decides_error _
  apply decides_holding
  -- a room that has gone in between: nothing is done and nothing is said
  apply decides_after
  · exact fun _ _ _ => rfl
  intro found
  apply decides_ite
  · apply decides_of_accepts
    apply accepts_seq
    · exact accepts_step fun _ _ => .of_net rfl rfl
    intro _
    apply accepts_critical
    intro e s
    have hsuccess : ¬IsRefusal
        (str "SUCCESS: Ownership transferred to " ++ trim params ++ str "\n") := by
      rw [List.append_assoc]
      exact not_isRefusal_label (str "SUCCESS: Ownership transferred to ") (by decide) _
    have hreceived : ¬IsRefusal (str "OWNERSHIP_RECEIVED\n") := by decide
    simp only [Block.post_bind, post_setClientInfo, post_tellDatabase, post_getCurrentTimestamp,
      post_broadcastToAll, post_sendToClient]
    apply Harmless.send _ t hreceived
    apply Harmless.send _ sock hsuccess
    apply Harmless.sendAll _ _ (not_isRefusal_systemText _ _)
    exact .of_net rfl rfl
  · exact decides_pure _

/-- `handleLeaveCommand`. -/
theorem decides_handleLeaveCommand : Decides sock [] (handleLeaveCommand sock) := by
  apply decides_clientInfo
  intro client
  apply decides_ite
  · exact decides_error _
  apply decides_ite
  · exact decides_refuse (by decide)
  apply decides_of_accepts
  apply accepts_seq
  · exact accepts_critical fun e s => harmless_leaveRoom sock e s _ _ sock
  intro _
  apply accepts_seq (accepts_setInfo sock _)
  exact fun _ => accepts_reply (by decide)

/-- `handleForceLeaveCommand`. -/
theorem decides_handleForceLeaveCommand :
    Decides sock [] (handleForceLeaveCommand sock) := by
  apply decides_clientInfo
  intro client
  apply decides_ite
  · exact decides_error _
  apply decides_ite
  · exact decides_error _
  -- past the two guards the owner goes, whether or not there is an heir
  apply decides_of_accepts
  apply accepts_seq
  · apply accepts_holding
    apply accepts_seq
    · exact accepts_step fun _ _ => .of_net rfl rfl
    intro found
    apply accepts_ite
    · apply accepts_seq
      · apply accepts_step
        intro e s
        apply Block.post_mono (post_chooseNewOwner e s _ sock)
        rintro _ s' ⟨rfl, -⟩
        exact .of_net rfl rfl
      intro newOwner
      apply accepts_seq
      · apply accepts_ite
        · apply accepts_critical
          intro e s
          simp only [promoteNewOwner, Block.post_bind, Block.post_read, Block.post_ite,
            post_clientInfo, post_setClientInfo, post_tellRoom, Block.post_pure]
          exact ⟨fun _ => .of_net rfl rfl, fun _ => .of_net rfl rfl⟩
        · exact accepts_pure _
      intro name
      exact accepts_step fun e s => harmless_announceForceLeave sock e s _ _ sock name newOwner
    · exact accepts_pure _
  intro _
  apply accepts_seq (accepts_setInfo sock _)
  exact fun _ => accepts_reply (by decide)

/-- `handleChangePasswordCommand`. -/
theorem decides_handleChangePasswordCommand (params : Bytes) :
    Decides sock [] (handleChangePasswordCommand sock params) := by
  apply decides_ite
  · exact decides_error _
  apply decides_clientInfo
  intro client
  apply decides_ite
  · exact decides_error _
  apply decides_ite
  · exact decides_error _
  apply decides_holding
  apply decides_step
  intro e s _
  simp only [Block.post_bind, post_roomExists, Block.post_ite, post_askRoom, post_sendToClient,
    Block.post_pure, post_tellRoom, post_tellDatabase, post_getCurrentTimestamp, post_broadcast]
  -- a public room is the one refusal that is decided under the mutex
  refine ⟨fun _ => ⟨fun _ => Or.inr (Or.inl ⟨_, isRefusal_errorText _, rfl⟩),
    fun _ => Or.inr (Or.inr ?_)⟩, fun _ => Or.inl trivial⟩
  have hchanged : ¬IsRefusal (str "PASSWORD_CHANGED:" ++ trim params ++ str "\n") := by
    rw [List.append_assoc]
    exact not_isRefusal_label (str "PASSWORD_CHANGED:") (by decide) _
  apply Harmless.sendAll _ _ (not_isRefusal_systemText _ _)
  apply Harmless.send _ sock hchanged
  exact .of_net rfl rfl

theorem decides_runCommand (c : Command) : Decides sock [] (runCommand sock c) := by
  cases c with
  | create params => exact decides_handleCreateCommand params
  | join params => exact decides_handleJoinCommand params
  | setName name => exact decides_handleSetNameCommand name
  | list => exact decides_handleListCommand
  | getPassword => exact decides_handleGetPasswordCommand
  | users => exact decides_handleUsersCommand
  | kick params => exact decides_handleKickCommand params
  | ban params => exact decides_handleBanCommand params
  | transfer params => exact decides_handleTransferCommand params
  | leave => exact decides_handleLeaveCommand
  | forceLeave => exact decides_handleForceLeaveCommand
  | changePassword params => exact decides_handleChangePasswordCommand params
  | unknown => exact decides_error _

theorem decides_runRequest (request : Request) : Decides sock [] (runRequest sock request) := by
  have hpush : ∀ message, Decides sock [] (pushMessage message) := by
    intro message
    apply decides_of_accepts
    exact accepts_critical fun _ _ => .of_net rfl rfl
  cases request with
  | command c => exact decides_runCommand c
  | badPrivateMessage => exact decides_error _
  | privateMessage recipientName content =>
      apply decides_clientInfo
      intro client
      apply decides_ite
      · exact decides_error _
      apply decides_ite
      · exact decides_error _
      · exact hpush _
  | chat text =>
      apply decides_clientInfo
      intro client
      apply decides_ite
      · exact decides_error _
      · exact hpush _

/-- `handleClientMessage`, for every buffer. -/
theorem decides_handleClientMessage (buffer : Bytes) :
    Decides sock [] (handleClientMessage sock buffer) := by
  rw [handleClientMessage]
  cases actedText buffer with
  | none => exact decides_pure _
  | some text => exact decides_runRequest _

/-- The part of the main loop that accepts a connection refuses nobody. -/
theorem accepts_acceptClient (t : SOCKET) : Accepts sock [] (acceptClient t) := by
  apply accepts_seq
  · apply accepts_step
    intro e s
    refine ⟨rfl, [.accepted t], rfl, ?_⟩
    intro op hop
    rw [List.mem_singleton.1 hop]
    exact id
  intro _
  apply accepts_seq
  · exact accepts_critical fun _ _ => .of_net rfl rfl
  intro _
  apply accepts_seq
  · exact accepts_critical fun _ _ => .of_net rfl rfl
  exact fun _ => accepts_reply (by decide)

/-- `handleClientDisconnect` refuses nobody. -/
theorem accepts_handleClientDisconnect (t : SOCKET) :
    Accepts sock [] (handleClientDisconnect t) := by
  apply accepts_seq
  · apply accepts_seq
    · exact accepts_critical fun _ _ => .of_net rfl rfl
    intro client
    apply accepts_ite (accepts_pure _)
    apply accepts_seq
    · apply accepts_critical
      intro e s
      simp only [Block.post_bind, post_roomExists, Block.post_ite, Block.post_pure]
      exact ⟨fun _ => harmless_departRoom sock e s _ _ t, fun _ => .of_net rfl rfl⟩
    intro _
    apply accepts_seq (accepts_setInfo t _)
    exact fun _ => accepts_critical fun e s => harmless_sweepRoom sock e s _
  intro _
  apply accepts_seq
  · exact accepts_critical fun _ _ => .of_net rfl rfl
  intro _
  apply accepts_seq
  · apply accepts_step
    intro e s
    refine ⟨rfl, [.closed t], rfl, ?_⟩
    intro op hop
    rw [List.mem_singleton.1 hop]
    exact id
  exact fun _ => accepts_critical fun _ _ => .of_net rfl rfl

/-- Every handler keeps its contract from where its event occurs. -/
theorem orderly_handler {ev : Event} {s : Globals} (hev : ev.CanOccur s) :
    ev.handler.Honours (orderly ev.socket) (fun _ _ _ _ => True) .clean [] s := by
  have hstart : Open .clean s := by simp [Open]
  -- connections and disconnections refuse nothing
  have hany : ∀ {p : Thread Unit}, Accepts ev.socket [] p →
      p.Honours (orderly ev.socket) (fun _ _ _ _ => True) .clean [] s := by
    intro p hp
    exact Prog.honours_mono (fun _ _ _ _ _ => trivial) p _ _ _ (hp .clean s hstart)
  cases ev with
  | connect t => exact hany (accepts_acceptClient t)
  | hangup t => exact hany (accepts_handleClientDisconnect t)
  | receive t buffer =>
      apply Prog.honours_mono (fun _ _ _ _ _ => trivial)
      exact (decides_handleClientMessage buffer : Decides t [] _) .clean s ⟨rfl, hev.1⟩

end Handlers

end TerminalChat.Server
