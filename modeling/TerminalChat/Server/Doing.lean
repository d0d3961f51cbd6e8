import Mathlib
import TerminalChat.Server.LineKeeping
import TerminalChat.Server.Performing

/-!
# The handlers keep their contract

Each handler keeps the contract of the main thread: it starts and ends with nothing owed, and each of
its actions has the effects that it is allowed to have where it happens (`fulfils_handler`).
-/

set_option autoImplicit false

namespace TerminalChat.Server

open TerminalChat.Concurrency TerminalChat.Text

/-! ## Handlers -/

section Handlers

variable {H : List Mutex} {g : Note} {F : Globals → Prop} {sock : SOCKET}

/-- The last answer of a handler. -/
theorem fulfils_answer (hF : Steady H F) (text : Bytes) :
    Fulfils H g F (reply sock text) g fun _ _ => True :=
  fulfils_quiet hF (fun _ => steady_true) fun e s _ => ⟨performs_send e s sock text, trivial⟩

theorem fulfils_clientInfo (hF : Steady H F) : Fulfils H g F (critical .clientsMutex
    (clientInfo sock)) g fun client s => F s ∧ client = s.info sock := by
  refine fulfils_quiet_critical hF (fun client => hF.and ?_) fun e s h =>
    ⟨performs_nothing e s, h, rfl⟩
  intro s s' hs hclient
  rw [hclient, hs.info]

/-- An update of an entry that keeps the name. -/
theorem fulfils_setInfo {f : ClientInfo → ClientInfo} (hf : ∀ c, (f c).username = c.username)
    (hF : Steady H F) (hloc : ∀ s, F s → F (s.setInfo sock f)) :
    Fulfils H g F (critical .clientsMutex (setClientInfo sock f)) g fun _ => F :=
  fulfils_quiet_critical hF (fun _ => hF) fun e s h => ⟨performs_setInfo e s sock hf, hloc s h⟩

/-- The handler sweeps the room it owes. -/
theorem fulfils_cleanupEmptyRoom (r : Bytes) (hF : Steady [] F) :
    Fulfils [] { owed := [r] } F (cleanupEmptyRoom r) {} fun _ _ => True := by
  refine fulfils_critical hF (fun _ => steady_true) fun e s _ => ?_
  refine Block.post_mono (performs_sweepRoom e s r) fun _ s' h => ⟨?_, trivial⟩
  have hd := h.held (g := { owed := [r] }) trivial (List.mem_cons_self (l := []))
  simpa [Effect.after] using hd

/-- `handleLeaveCommand`. -/
theorem fulfils_handleLeaveCommand :
    Fulfils [] g (fun _ => True) (handleLeaveCommand sock) g fun _ _ => True := by
  refine fulfils_seq (fulfils_clientInfo steady_true) fun client => ?_
  refine fulfils_weaken (F := fun _ => True) (K := fun _ _ => True) ?_ (fun _ _ => trivial)
    fun _ _ h => h
  refine fulfils_ite _ (fun _ => fulfils_answer steady_true _) fun _ => ?_
  refine fulfils_ite _ (fun _ => fulfils_answer steady_true _) fun _ => ?_
  refine fulfils_then ?_ fun _ => fulfils_then ?_ fun _ => fulfils_answer steady_true _
  · refine fulfils_critical steady_true (fun _ => steady_true) fun e s _ => ?_
    refine Block.post_mono (post_leaveRoom_deeds e s _ _ sock) fun _ s' h => ⟨?_, trivial⟩
    exact h.held trivial List.mem_cons_self
  · exact fulfils_setInfo (fun _ => rfl) steady_true fun _ h => h

/-- `removeClientFromRoom`: the room it takes the client out of is swept at the end. -/
theorem fulfils_removeClientFromRoom :
    Fulfils [] {} (fun _ => True) (removeClientFromRoom sock) {} fun _ _ => True := by
  refine fulfils_seq (fulfils_clientInfo steady_true) fun client => ?_
  refine fulfils_weaken (F := fun _ => True) (K := fun _ _ => True) ?_ (fun _ _ => trivial)
    fun _ _ h => h
  refine fulfils_ite _ (fun _ => fulfils_pure fun _ h => h) fun _ => ?_
  refine fulfils_seq (k := { owed := [client.roomId] }) (K := fun _ _ => True) ?_ fun _ =>
    fulfils_seq (fulfils_setInfo (fun _ => rfl) steady_true fun _ h => h) fun _ =>
      fulfils_cleanupEmptyRoom client.roomId steady_true
  refine fulfils_critical steady_true (fun _ => steady_true) fun e s _ => ?_
  have hdeed : ∀ s', Performs e [.depart client.roomId sock] s s' →
      MainDeed [.chatRoomsMutex] {} { owed := [client.roomId] } e s s' := fun s' h =>
    h.held (g := {}) trivial List.mem_cons_self
  simp only [Block.post_bind, post_roomExists, Block.post_ite, Block.post_pure, and_true,
    Std.ExtTreeMap.contains_iff_mem]
  constructor
  · -- the room is live: the client leaves it and the others are told
    intro _
    refine post_departRoom_sends e s _ _ _ _ fun socks text => hdeed _ ?_
    exact .of_sends ⟨rfl, rfl, rfl, rfl, rfl, rfl⟩ ((Sends.refl _).append (replays_sends socks text))
      rfl rfl
  · -- the room has gone since the record was read: to depart from it changes nothing
    intro hr
    refine hdeed _ (.of_sends ?_ (.refl _) rfl rfl)
    simp only [List.foldl_cons, List.foldl_nil, Effect.apply, editRoom_of_not_mem hr]
    exact .refl s

/-- `handleClientDisconnect`. -/
theorem fulfils_handleClientDisconnect :
    Fulfils [] {} (fun _ => True) (handleClientDisconnect sock) {} fun _ _ => True := by
  refine fulfils_seq fulfils_removeClientFromRoom fun _ => ?_
  refine fulfils_then ?_ fun _ => fulfils_then ?_ fun _ => ?_
  · exact fulfils_quiet_critical steady_true (fun _ => steady_true) fun e s _ =>
      ⟨performs_eraseClient e s sock, trivial⟩
  · exact fulfils_quiet steady_true (fun _ => steady_true) fun e s _ =>
      ⟨performs_ops e s rfl, trivial⟩
  · exact fulfils_quiet_critical steady_true (fun _ => steady_true) fun e s _ =>
      ⟨.of_sends ⟨rfl, rfl, rfl, rfl, rfl, rfl⟩ (.refl _) rfl rfl, trivial⟩

/-- The part of the main loop that accepts a connection. -/
theorem fulfils_acceptClient :
    Fulfils [] {} (fun _ => True) (acceptClient sock) {} fun _ _ => True := by
  refine fulfils_then ?_ fun _ => fulfils_then ?_ fun _ => fulfils_then ?_ fun _ =>
    fulfils_answer steady_true _
  · exact fulfils_quiet steady_true (fun _ => steady_true) fun e s _ =>
      ⟨performs_ops e s rfl, trivial⟩
  · exact fulfils_quiet_critical steady_true (fun _ => steady_true) fun e s _ =>
      ⟨performs_insertClient e s sock, trivial⟩
  · exact fulfils_quiet_critical steady_true (fun _ => steady_true) fun e s _ =>
      ⟨.of_sends ⟨rfl, rfl, rfl, rfl, rfl, rfl⟩ (.refl _) rfl rfl, trivial⟩

end Handlers

/-! ### CREATE and JOIN -/

section Entering

variable {H : List Mutex} {sock : SOCKET} {roomId : Bytes}

/-- What holds when a handler starts: the live rooms have drawn ids, and, if these are distinct,
every client is a member of the room it points to. -/
structure Settled (s : Globals) : Prop where
  live : ∀ r, r ∈ s.chatRooms → r ∈ s.drawnIds
  placed : s.drawnIds.Nodup → ∀ t r, r ≠ [] → (s.info t).roomId = r → s.IsMember t r

theorem Backdrop.mem {s s' : Globals} (h : Backdrop H s s') {r : Bytes} (hr : r ∈ s'.chatRooms) :
    r ∈ s.chatRooms := by
  by_contra hout
  have hnone := h.fresh r (Std.ExtTreeMap.getElem?_eq_none hout)
  rw [Std.ExtTreeMap.mem_iff_isSome_getElem?, hnone] at hr
  simp at hr

theorem steady_settled : Steady H Settled := by
  intro s s' hs h
  constructor
  · intro r hr
    rw [hs.drawn]
    exact h.live r (hs.mem hr)
  · intro hd t r hr hinfo
    rw [hs.drawn] at hd
    rw [hs.info] at hinfo
    exact hs.isMember (h.placed hd t r hr hinfo)

/-- The id has been drawn and, if the drawn ids are distinct, is that of no live room. -/
structure FreshId (roomId : Bytes) (s : Globals) : Prop where
  drawn : roomId ∈ s.drawnIds
  free : s.drawnIds.Nodup → roomId ∉ s.chatRooms

theorem steady_freshId : Steady H (FreshId roomId) := by
  intro s s' hs h
  constructor
  · rw [hs.drawn]
    exact h.drawn
  · intro hd hr
    rw [hs.drawn] at hd
    exact h.free hd (hs.mem hr)

theorem mem_editRoom {s : Globals} {q r : Bytes} {f : ChatRoom → ChatRoom} :
    q ∈ (s.editRoom r f).chatRooms ↔ q ∈ s.chatRooms := Std.ExtTreeMap.mem_modify

theorem leave_rooms (e : Env) (s : Globals) (r : Bytes) (t : SOCKET) :
    ((Effect.leave r t).apply e s).chatRooms =
      (s.editRoom r fun room => room.removeClient t).chatRooms := by
  simp only [Effect.apply]
  split <;> rfl

theorem leave_drawn (e : Env) (s : Globals) (r : Bytes) (t : SOCKET) :
    ((Effect.leave r t).apply e s).drawnIds = s.drawnIds := by
  simp only [Effect.apply]
  split <;> rfl

theorem FreshId.leave {e : Env} {s s' : Globals} (h : FreshId roomId s) {r : Bytes} {t : SOCKET}
    (hp : Performs e [.leave r t] s s') : FreshId roomId s' := by
  have hd : s'.drawnIds = s.drawnIds := hp.fields.drawn.trans (leave_drawn e s r t)
  have hr : s'.chatRooms = (s.editRoom r fun room => room.removeClient t).chatRooms :=
    hp.fields.rooms.trans (leave_rooms e s r t)
  constructor
  · rw [hd]
    exact h.drawn
  · rw [hd, hr, mem_editRoom]
    exact h.free

theorem fulfils_generateRoomId :
    Fulfils [] {} Settled (step generateRoomId) {} FreshId := by
  refine fulfils_step steady_settled (fun _ => steady_freshId) fun e s h => ?_
  rw [post_generateRoomId]
  constructor
  · have hp : Performs e [.draw (roomIdOf e.draw)] s
        { s with drawnIds := roomIdOf e.draw :: s.drawnIds } :=
      .of_sends ⟨rfl, rfl, rfl, rfl, rfl, rfl⟩ (.refl _) rfl rfl
    exact hp.one (g := {}) ⟨e.draw, rfl⟩ fun _ => rfl
  · refine ⟨List.mem_cons_self, fun hd hr => ?_⟩
    exact (List.nodup_cons.1 hd).1 (h.live _ hr)

theorem fulfils_clientRef {g : Note} {F : Globals → Prop} (hF : Steady H F)
    (hloc : ∀ s, F s → F (s.setInfo sock id)) :
    Fulfils H g F (step (clientRef sock)) g fun _ => F :=
  fulfils_quiet hF (fun _ => hF) fun e s h =>
    ⟨performs_setInfo e s sock fun _ => rfl, hloc s h⟩

/-- The room is live with the kind and the password it was created with, and the creator is in it. -/
def Opened (roomId : Bytes) (isPrivate : Bool) (password : Bytes) (sock : SOCKET) (s : Globals) :
    Prop :=
  ∃ room, s.chatRooms[roomId]? = some room ∧ (room.isPrivate = isPrivate ∧
    room.password = password) ∧ sock ∈ room.clients

theorem steady_opened {isPrivate : Bool} {password : Bytes} :
    Steady H (Opened roomId isPrivate password sock) := by
  rintro s s' hs ⟨room, hroom, hfields, hmem⟩
  rcases hs.kept roomId room hroom with ⟨history, h'⟩ | ⟨-, hempty⟩
  · exact ⟨_, h', hfields, hmem⟩
  · exact absurd hmem (room.isEmpty_iff.1 hempty sock)

theorem insertRoom_editRoom (s : Globals) (r : Bytes) (room : ChatRoom) (f : ChatRoom → ChatRoom) :
    (s.insertRoom r room).editRoom r f = s.insertRoom r (f room) := by
  have hmod : (s.chatRooms.insert r room).modify r f = s.chatRooms.insert r (f room) := by
    apply Std.ExtTreeMap.ext_getElem?
    intro q
    simp only [Std.ExtTreeMap.getElem?_modify, Std.ExtTreeMap.getElem?_insert]
    by_cases hq : compare r q = .eq
    · simp [hq]
    · rw [if_neg hq, if_neg hq, if_neg hq]
  rw [Globals.insertRoom, Globals.editRoom, hmod]
  rfl

/-- The room of a CREATE is in memory first and in the database later. -/
theorem fulfils_makeRoom {client : ClientInfo} {isPrivate : Bool} {password : Bytes}
    (hp : password.isEmpty = !isPrivate) (hs : sock ≠ INVALID_SOCKET) :
    Fulfils [] {} (FreshId roomId) (makeRoom sock client roomId isPrivate password) {}
      fun _ _ => True := by
  refine fulfils_seq (k := { unrecorded := [roomId] })
    (K := fun _ => Opened roomId isPrivate password sock) ?_ fun _ => ?_
  · -- the room is inserted with its creator; from here on its row is owed
    refine fulfils_critical steady_freshId (fun _ => steady_opened) fun e s h => ?_
    rw [Block.post_bind, Block.post_modify, post_addClient, insertRoom_editRoom]
    constructor
    · have hdo : Performs e [.create roomId isPrivate password sock] s (s.insertRoom roomId
          ((ChatRoom.new roomId isPrivate password sock).addClient sock s.steadyNow)) :=
        .of_sends ⟨rfl, rfl, rfl, rfl, rfl, rfl⟩ (.refl _) rfl rfl
      exact hdo.held (g := {}) ⟨h.free, h.drawn, hp, hs⟩ List.mem_cons_self
    · refine ⟨_, Std.ExtTreeMap.getElem?_insert_self, ⟨rfl, rfl⟩, ?_⟩
      rw [ChatRoom.mem_clients_addClient]
      exact Or.inl rfl
  · refine fulfils_seq (K := fun _ => Opened roomId isPrivate password sock)
      (k := { unrecorded := [roomId] }) ?_ fun _ => ?_
    · exact fulfils_setInfo (fun _ => rfl) steady_opened fun _ h => h
    refine fulfils_seq (k := {}) (K := fun _ _ => True) ?_ fun _ => fulfils_answer steady_true _
    -- `database.createRoom` settles the row; no mutex is held, yet the room keeps its fields
    refine fulfils_step steady_opened (fun _ => steady_true) fun e s h => ⟨?_, trivial⟩
    obtain ⟨room, hroom, hfields, -⟩ := h
    have hcalls : (fun n => e.calls (0 + n)) = e.calls := by
      funext n
      rw [Nat.zero_add]
    have hdo : Performs e [.record roomId isPrivate client.username password] s { s with
        database := s.database.createRoom (fun n => e.calls (0 + n)) roomId isPrivate
          client.username password } := by
      rw [hcalls]
      exact .of_sends ⟨rfl, rfl, rfl, rfl, rfl, rfl⟩ (.refl _) rfl rfl
    have hd := hdo.one (H := []) (g := { unrecorded := [roomId] })
      ⟨List.mem_cons_self, room, hroom, hfields⟩ fun _ => rfl
    have hnote : (Effect.record roomId isPrivate client.username password).after
        { unrecorded := [roomId] } = {} := by
      simp [Effect.after]
    rw [hnote] at hd
    exact hd

/-- `handleCreateCommand`. -/
theorem fulfils_handleCreateCommand (params : Bytes) (hs : sock ≠ INVALID_SOCKET) :
    Fulfils [] {} Settled (handleCreateCommand sock params) {} fun _ _ => True := by
  refine fulfils_ite _ (fun _ => fulfils_answer steady_settled _) fun hok => ?_
  have hp : (createParams params).2.isEmpty = !(createParams params).1 := by
    unfold createParams at hok ⊢
    dsimp only at hok ⊢
    split <;> simp_all
  refine fulfils_seq fulfils_generateRoomId fun roomId => ?_
  refine fulfils_seq (K := fun _ => FreshId roomId) (k := {}) ?_ fun client =>
    fulfils_makeRoom hp hs
  refine fulfils_holding steady_freshId (fun _ => steady_freshId) ?_
  refine fulfils_seq (fulfils_clientRef steady_freshId fun _ h => ⟨h.drawn, h.free⟩)
    fun client => ?_
  refine fulfils_ite _ (fun _ => fulfils_pure fun _ h => h) fun _ => ?_
  refine fulfils_seq (K := fun _ => FreshId roomId) (k := {}) ?_ fun _ =>
    fulfils_pure fun _ h => h
  -- a creator inside a room leaves it first, which leaves the new id fresh
  refine fulfils_critical steady_freshId (fun _ => steady_freshId) fun e s h => ?_
  refine Block.post_mono (post_leaveRoom_deeds e s _ _ sock) fun _ s' h' => ?_
  exact ⟨h'.held (g := {}) trivial List.mem_cons_self, h.leave h'⟩

/-- A history that is sent to a client is replayed line by line. -/
theorem replays_history (sock : SOCKET) (history : List Bytes) :
    replays ([.sent sock (str "MESSAGE_HISTORY_START\n")] ++
      history.map (fun msg => .replayed sock msg) ++
        [.sent sock (str "MESSAGE_HISTORY_END\n")]) = history.map fun msg => (sock, msg) := by
  simp [replays, List.filterMap_map, List.filterMap_eq_map']

/-- What JOIN replays, among the lines it sends. -/
theorem post_sendHistory_replays (e : Env) (s : Globals) (sock : SOCKET) (roomId : Bytes) :
    (sendHistory sock roomId).post e s fun _ s' => ∃ ops,
      s' = { s with net := s.net ++ ops } ∧
        replays ops = (s.history e roomId).map fun msg => (sock, msg) := by
  -- what is sent, whichever of the two sources the lines come from
  have hsend : ∀ history, s.history e roomId = history → Block.post (if history.isEmpty then pure ()
      else do
        sendToClient sock (str "MESSAGE_HISTORY_START\n")
        .modify fun _ s => { s with net := s.net ++ history.map fun msg => .replayed sock msg }
        sendToClient sock (str "MESSAGE_HISTORY_END\n") : Sect Unit) e s fun _ s' => ∃ ops,
          s' = { s with net := s.net ++ ops } ∧
            replays ops = (s.history e roomId).map fun msg => (sock, msg) := by
    intro history hh
    rw [Block.post_ite, Block.post_pure, hh]
    constructor
    · intro hempty
      rw [List.isEmpty_iff] at hempty
      exact ⟨[], by simp, by simp [hempty, replays]⟩
    · intro _
      simp only [Block.post_bind, Block.post_modify, post_sendToClient]
      exact ⟨_, by simp [Globals.send], replays_history sock history⟩
  rw [sendHistory, Block.post_bind, post_askDatabase]
  dsimp only
  rw [Block.post_ite]
  constructor
  · -- the database has none: the lines come from the memory of the room
    intro hempty
    refine hsend _ ?_
    rw [Globals.history]
    exact if_pos hempty
  · intro hne
    refine hsend _ ?_
    rw [Globals.history]
    exact if_neg hne

theorem messageHistory_editRoom (s : Globals) (q r : Bytes) {f : ChatRoom → ChatRoom}
    (hf : ∀ room, (f room).messageHistory = room.messageHistory) :
    ((s.editRoom q f).chatRooms[r]?).map ChatRoom.messageHistory =
      (s.chatRooms[r]?).map ChatRoom.messageHistory := by
  rw [Globals.getElem?_editRoom]
  split
  · rw [Option.map_map]
    exact congrArg (Option.map · _) (funext hf)
  · rfl

theorem history_congr {e : Env} {s s' : Globals} {r : Bytes} (hd : s'.database = s.database)
    (hr : (s'.chatRooms[r]?).map ChatRoom.messageHistory =
      (s.chatRooms[r]?).map ChatRoom.messageHistory) : s'.history e r = s.history e r := by
  rw [Globals.history, Globals.history, hd, hr]

/-- The effects of an admission. -/
def joinEffects (client : ClientInfo) (roomId : Bytes) (sock : SOCKET) : List Effect :=
  (if client.roomId.isEmpty then [] else [.leave client.roomId sock]) ++ [.enter roomId sock]

/-- A client that has left its old room and told it, if it was in one. -/
theorem post_leaveOldRoom_deeds (e : Env) (s : Globals) (client : ClientInfo) (r : Bytes) :
    (leaveOldRoom sock client).post e s fun _ s' =>
      Performs e (if client.roomId.isEmpty then [] else [.leave client.roomId sock]) s s' ∧
        s'.history e r = s.history e r := by
  rw [leaveOldRoom, Block.post_ite, Block.post_pure]
  constructor
  · intro hnone
    rw [if_pos hnone]
    exact ⟨performs_nothing e s, rfl⟩
  · intro hin
    -- `leaveRoom` may record another owner, but touches no message
    rw [if_neg hin]
    refine Block.post_mono (post_leaveRoom_deeds e s _ _ sock) fun _ s' h => ⟨h, ?_⟩
    refine history_congr (h.fields.database.trans ?_) ?_
    · simp only [List.foldl_cons, List.foldl_nil, Effect.apply]
      split <;> rfl
    · rw [h.fields.rooms, List.foldl_cons, List.foldl_nil, leave_rooms]
      exact messageHistory_editRoom s _ r fun _ => rfl

/-- Entering a room and being told its history. -/
theorem performs_enter {e : Env} {s s₁ s₂ : Globals} (hh : ∃ ops,
      s₂ = { s₁ with net := s₁.net ++ ops } ∧
        replays ops = (s₁.history e roomId).map fun msg => (sock, msg))
    (hadd : Matches ((Effect.enter roomId sock).apply e s) s₁) (hn : Sends s.net s₁.net)
    (hnames : NamesKept s s₁) :
    Performs e [.enter roomId sock] s s₂ := by
  obtain ⟨ops, rfl, hops⟩ := hh
  obtain ⟨ops₁, hnet, hnone⟩ := hn
  -- the client was added before the history was read: a member more changes no line of it
  have hsame : s₁.history e roomId = s.history e roomId := by
    refine history_congr hadd.database ?_
    rw [hadd.rooms]
    exact messageHistory_editRoom s roomId roomId fun _ => rfl
  rw [hsame] at hops
  refine ⟨⟨hadd.rooms, hadd.database, hadd.queue, hadd.pending, hadd.drawn, hadd.clock⟩,
    ⟨ops₁ ++ ops, ?_, ?_⟩, hnames⟩
  · rw [hnet, List.append_assoc]
  · simp only [replays] at hnone hops ⊢
    rw [List.filterMap_append, hnone, hops]
    simp [Effect.replays]

/-- A room that is entered after the old one has been left. -/
theorem Performs.append_enter {e : Env} {effs : List Effect} {s s₁ s₂ : Globals}
    (h : Performs e effs s s₁) (h' : Performs e [.enter roomId sock] s₁ s₂)
    (hh : s₁.history e roomId = s.history e roomId) :
    Performs e (effs ++ [.enter roomId sock]) s s₂ := by
  obtain ⟨ops, hnet, hops⟩ := h.net
  obtain ⟨ops', hnet', hops'⟩ := h'.net
  refine ⟨?_, ⟨ops ++ ops', ?_, ?_⟩, h.names.trans h'.names⟩
  · rw [List.foldl_append, List.foldl_cons, List.foldl_nil]
    have hf := h.fields
    have hf' := h'.fields
    -- only the fields of the state in the middle matter
    generalize List.foldl (fun s eff => Effect.apply e eff s) s _ = s₀ at hf ⊢
    simp only [List.foldl_cons, List.foldl_nil, Effect.apply] at hf'
    refine ⟨?_, hf'.database.trans hf.database, hf'.queue.trans hf.queue,
      hf'.pending.trans hf.pending, hf'.drawn.trans hf.drawn, hf'.clock.trans hf.clock⟩
    rw [hf'.rooms]
    simp only [Effect.apply, Globals.editRoom, hf.rooms, hf.clock]
  · rw [hnet', hnet, List.append_assoc]
  · simp only [replays] at hops hops' ⊢
    rw [List.filterMap_append, hops, hops', List.flatMap_append]
    simp [Effect.replays, hh]

theorem post_admitClient_deeds (e : Env) (s : Globals) (client : ClientInfo) (roomId : Bytes) :
    (admitClient sock client roomId).post e s fun _ s' =>
      Performs e (joinEffects client roomId sock) s s' := by
  rw [admitClient, Block.post_bind]
  refine Block.post_mono (post_leaveOldRoom_deeds e s client roomId) ?_
  rintro _ s₁ ⟨hleft, hhist⟩
  simp only [Block.post_bind, post_addClient, post_setClientInfo, post_sendToClient,
    post_getCurrentTimestamp, post_broadcast]
  refine Block.post_mono (post_sendHistory_replays e _ sock roomId) fun _ s₂ h₂ => ?_
  have henter : Performs e [.enter roomId sock] s₁ s₂ := by
    refine performs_enter h₂ ⟨rfl, rfl, rfl, rfl, rfl, rfl⟩ ((Sends.refl _).append rfl) ?_
    exact (performs_setInfo e s₁ sock
      (f := fun c => { c with roomId := roomId, isRoomOwner := false }) fun _ => rfl).names
  exact (hleft.append_enter henter hhist).then_sends _ _

/-- An admission is allowed where the room is live. -/
theorem Performs.joins {g : Note} {e : Env} {s s' : Globals} {client : ClientInfo}
    (h : Performs e (joinEffects client roomId sock) s s') (hr : roomId ∈ s.chatRooms)
    (hs : sock ≠ INVALID_SOCKET) (hm : .chatRoomsMutex ∈ H) : MainDeed H g g e s s' := by
  obtain ⟨ops, hnet, hops⟩ := h.net
  -- neither leaving nor entering has to be a deed of its own
  have hno : ∀ eff ∈ joinEffects client roomId sock, eff.Alone →
      joinEffects client roomId sock = [eff] := by
    intro eff hmem halone
    rw [joinEffects, List.mem_append, List.mem_singleton] at hmem
    rcases hmem with hmem | rfl
    · split at hmem
      · exact absurd hmem List.not_mem_nil
      · rw [List.mem_singleton.1 hmem] at halone
        exact halone.elim
    · exact halone.elim
  refine ⟨⟨_, ops, ?_, hnet, hops, hno⟩, h.names, fun hn => absurd hm hn⟩
  have hf := h.fields
  unfold joinEffects at hf ⊢
  split
  · rename_i hnone
    rw [if_pos hnone] at hf
    exact .one (g := g) ⟨hr, hs⟩ hf
  · rename_i hin
    rw [if_neg hin] at hf
    refine .cons (g := g) trivial (.one (g := g) ⟨?_, hs⟩ hf)
    rw [leave_rooms, mem_editRoom]
    exact hr

/-- `handleJoinCommand`. -/
theorem fulfils_handleJoinCommand (params : Bytes) (hs : sock ≠ INVALID_SOCKET) :
    Fulfils [] {} (fun _ => True) (handleJoinCommand sock params) {} fun _ _ => True := by
  refine fulfils_ite _ (fun _ => fulfils_answer steady_true _) fun _ => ?_
  refine fulfils_holding steady_true (fun _ => steady_true) ?_
  refine fulfils_then (fulfils_clientRef steady_true fun _ h => h) fun client => ?_
  refine fulfils_ite _ (fun _ => fulfils_answer steady_true _) fun _ => ?_
  -- `g_clientsMutex` is held since before the record was read: the record is current here
  refine fulfils_critical steady_true (fun _ => steady_true) fun e s _ => ?_
  refine post_joinRoom_cases e s (fun _ => ⟨?_, trivial⟩) (fun text _ => ⟨?_, trivial⟩)
    fun room hroom _ _ => ?_
  · exact (performs_send e s sock _).quiet
  · exact (performs_send e s sock text).quiet
  · refine Block.post_mono (post_admitClient_deeds e s client _) fun _ s' h => ⟨?_, trivial⟩
    refine h.joins ?_ hs List.mem_cons_self
    rw [Std.ExtTreeMap.mem_iff_isSome_getElem?, hroom]
    rfl

end Entering

/-! ### Names, lists and passwords -/

section Asking

variable {sock : SOCKET}

/-- `handleSetNameCommand`, for a name that stands on one line. -/
theorem fulfils_handleSetNameCommand {name : Bytes} (hn : OneLine name) :
    Fulfils [] {} (fun _ => True) (handleSetNameCommand sock name) {} fun _ _ => True := by
  refine fulfils_ite _ (fun _ => fulfils_answer steady_true _) fun _ => ?_
  refine fulfils_then ?_ fun available => fulfils_ite _ (fun _ => fulfils_answer steady_true _)
    fun _ => fulfils_then ?_ fun _ => fulfils_answer steady_true _
  · exact fulfils_quiet_critical steady_true (fun _ => steady_true) fun e s _ =>
      ⟨performs_nothing e s, trivial⟩
  · exact fulfils_quiet_critical steady_true (fun _ => steady_true) fun e s _ =>
      ⟨performs_rename e s sock ⟨trimmed_trim name, hn.trim⟩, trivial⟩

/-- `handleListCommand`. -/
theorem fulfils_handleListCommand :
    Fulfils [] {} (fun _ => True) (handleListCommand sock) {} fun _ _ => True :=
  fulfils_quiet_critical steady_true (fun _ => steady_true) fun e s _ =>
    ⟨performs_send e s sock _, trivial⟩

/-- `handleGetPasswordCommand`. -/
theorem fulfils_handleGetPasswordCommand :
    Fulfils [] {} (fun _ => True) (handleGetPasswordCommand sock) {} fun _ _ => True := by
  refine fulfils_seq (fulfils_clientInfo steady_true) fun client => ?_
  refine fulfils_weaken (F := fun _ => True) (K := fun _ _ => True) ?_ (fun _ _ => trivial)
    fun _ _ h => h
  refine fulfils_ite _ (fun _ => fulfils_answer steady_true _) fun _ => ?_
  refine fulfils_ite _ (fun _ => fulfils_answer steady_true _) fun _ => ?_
  refine fulfils_quiet_critical steady_true (fun _ => steady_true) fun e s _ => ?_
  simp only [Block.post_bind, post_roomExists, Block.post_ite, post_askRoom, post_sendToClient,
    Block.post_pure, and_true]
  have hsend := fun text => performs_send e s sock text
  exact ⟨fun _ => ⟨fun _ => hsend _, fun _ => hsend _⟩, fun _ => performs_nothing e s⟩

/-- `handleUsersCommand`. -/
theorem fulfils_handleUsersCommand :
    Fulfils [] {} (fun _ => True) (handleUsersCommand sock) {} fun _ _ => True := by
  refine fulfils_seq (fulfils_clientInfo steady_true) fun client => ?_
  refine fulfils_weaken (F := fun _ => True) (K := fun _ _ => True) ?_ (fun _ _ => trivial)
    fun _ _ h => h
  refine fulfils_ite _ (fun _ => fulfils_answer steady_true _) fun _ => ?_
  refine fulfils_holding steady_true (fun _ => steady_true) ?_
  refine fulfils_then ?_ fun found => fulfils_ite _ (fun _ => ?_) fun _ => fulfils_pure fun _ h => h
  · exact fulfils_quiet steady_true (fun _ => steady_true) fun e s _ =>
      ⟨performs_nothing e s, trivial⟩
  refine fulfils_then ?_ fun members => ?_
  · exact fulfils_quiet steady_true (fun _ => steady_true) fun e s _ =>
      ⟨performs_nothing e s, trivial⟩
  · exact fulfils_quiet_critical steady_true (fun _ => steady_true) fun e s _ =>
      ⟨performs_send e s sock _, trivial⟩

/-- `handleChangePasswordCommand`. -/
theorem fulfils_handleChangePasswordCommand (params : Bytes) :
    Fulfils [] {} (fun _ => True) (handleChangePasswordCommand sock params) {}
      fun _ _ => True := by
  refine fulfils_ite _ (fun _ => fulfils_answer steady_true _) fun hne => ?_
  refine fulfils_seq (fulfils_clientInfo steady_true) fun client => ?_
  refine fulfils_weaken (F := fun _ => True) (K := fun _ _ => True) ?_ (fun _ _ => trivial)
    fun _ _ h => h
  refine fulfils_ite _ (fun _ => fulfils_answer steady_true _) fun _ => ?_
  refine fulfils_ite _ (fun _ => fulfils_answer steady_true _) fun _ => ?_
  refine fulfils_critical steady_true (fun _ => steady_true) fun e s _ => ?_
  simp only [Block.post_bind, post_roomExists, Block.post_ite, post_askRoom, post_sendToClient,
    Block.post_pure, and_true, Bool.not_eq_true', post_tellRoom, post_tellDatabase,
    post_getCurrentTimestamp, post_broadcast, Nat.zero_add]
  refine ⟨fun hr => ⟨fun _ => (performs_send e s sock _).quiet, fun hpriv => ?_⟩,
    fun _ => (performs_nothing e s).quiet⟩
  -- memory and database change in one critical section
  have hdo : Performs e [.rekey client.roomId (trim params)] s
      { s.editRoom client.roomId fun room => room.setPassword (trim params) with
        database := s.database.updateRoomPassword (fun n => e.calls n) client.roomId
          (trim params) } :=
    .of_sends ⟨rfl, rfl, rfl, rfl, rfl, rfl⟩ (.refl _) rfl rfl
  refine ((hdo.then_send _ _).then_sends _ _).held (g := {}) ⟨?_, ?_⟩ List.mem_cons_self
  · -- the new password is not empty, and the room is private
    simpa using hne
  · cases hroom : s.chatRooms[client.roomId]? with
    | none =>
        rw [hroom] at hpriv
        exact absurd rfl hpriv
    | some room =>
        rw [hroom] at hpriv
        exact ⟨room, rfl, Bool.of_not_eq_false hpriv⟩

end Asking

/-! ### The commands of the owner -/

section Owning

variable {H : List Mutex} {g : Note} {F : Globals → Prop} {sock : SOCKET}

/-- If the drawn ids are distinct, somebody else than `t` is in the room. -/
def Accompanied (t : SOCKET) (roomId : Bytes) (s : Globals) : Prop :=
  s.drawnIds.Nodup → ∃ u, u ≠ t ∧ s.IsMember u roomId

theorem steady_accompanied {t : SOCKET} {roomId : Bytes} : Steady H (Accompanied t roomId) := by
  intro s s' hs h hd
  rw [hs.drawn] at hd
  obtain ⟨u, hu, hm⟩ := h hd
  exact ⟨u, hu, hs.isMember hm⟩

theorem fulfils_findClientByUsername (username roomId : Bytes) (hF : Steady H F) :
    Fulfils H g F (findClientByUsername username roomId) g fun t s => F s ∧
      (t = INVALID_SOCKET ∨ (s.info t).username = username) := by
  refine fulfils_quiet_critical hF (fun t => hF.and ?_) fun e s h =>
    ⟨performs_nothing e s, h, ?_⟩
  · intro s s' hs ht
    rwa [hs.info]
  · show s.findClientByUsername username roomId = INVALID_SOCKET ∨
      (s.info (s.findClientByUsername username roomId)).username = username
    rcases findClientByUsername_cases s username roomId with ⟨ht, -⟩ | ⟨c, hc, hu, -⟩
    · exact Or.inl ht
    · refine Or.inr ?_
      rw [Globals.info, hc]
      exact hu

/-- A user that another client of the room has found by its name is not alone in it. -/
theorem accompanied_of_found {s : Globals} (hs : Settled s) {client : ClientInfo}
    (hc : client = s.info sock) (hr : client.roomId ≠ []) {t : SOCKET} {username : Bytes}
    (hname : (s.info t).username = username) (hother : username ≠ client.username) :
    Accompanied t client.roomId s := by
  intro hd
  refine ⟨sock, ?_, hs.placed hd sock client.roomId hr (by rw [hc])⟩
  rintro rfl
  rw [hc] at hother
  exact hother hname.symm

/-- The checks that KICK, BAN and TRANSFER begin with: the rest of the command knows that a user who
has been found is not alone in the room. -/
theorem fulfils_ownerCommand {targetUsername : Bytes} {text₁ text₂ text₃ text₄ : Bytes}
    {rest : ClientInfo → SOCKET → Thread Unit} (hrest : ∀ client t,
      Fulfils [] {} (fun s => t ≠ INVALID_SOCKET → Accompanied t client.roomId s) (rest client t) {}
        fun _ _ => True) :
    Fulfils [] {} Settled (if targetUsername.isEmpty then reply sock text₁ else do
      let client ← critical .clientsMutex (clientInfo sock)
      if client.roomId.isEmpty then reply sock text₂
      else if !client.isRoomOwner then reply sock text₃
      else if targetUsername == client.username then reply sock text₄
      else
        let targetSocket ← findClientByUsername targetUsername client.roomId
        rest client targetSocket) {} fun _ _ => True := by
  refine fulfils_ite _ (fun _ => fulfils_answer steady_settled _) fun _ => ?_
  refine fulfils_seq (fulfils_clientInfo steady_settled) fun client => ?_
  have hsteady : ∀ {H : List Mutex}, Steady H fun s => Settled s ∧ client = s.info sock := by
    intro H s s' hs h
    exact ⟨steady_settled s s' hs h.1, by rw [hs.info]; exact h.2⟩
  refine fulfils_ite _ (fun _ => fulfils_answer hsteady _) fun hr => ?_
  refine fulfils_ite _ (fun _ => fulfils_answer hsteady _) fun _ => ?_
  refine fulfils_ite _ (fun _ => fulfils_answer hsteady _) fun hother => ?_
  refine fulfils_seq (fulfils_findClientByUsername _ _ hsteady) fun t => ?_
  refine fulfils_weaken (hrest client t) ?_ fun _ _ h => h
  rintro s ⟨⟨hs, hc⟩, hfound⟩ ht
  exact accompanied_of_found hs hc (by simpa using hr) (hfound.resolve_left ht)
    (by simpa using hother)

theorem isMember_editRoom (s : Globals) (q r : Bytes) (u : SOCKET) {f : ChatRoom → ChatRoom}
    (hf : ∀ room, (f room).clients = room.clients) :
    (s.editRoom q f).IsMember u r ↔ s.IsMember u r := by
  rw [Globals.IsMember, Globals.IsMember, Globals.getElem?_editRoom]
  split
  · cases s.chatRooms[r]? with
    | none => simp
    | some room => simp [hf]
  · exact Iff.rfl

/-- Telling the room of an expulsion and taking the socket out. -/
theorem performs_expel (e : Env) (s : Globals) (r : Bytes) (t : SOCKET) (socks : List SOCKET)
    (text : Bytes) : Performs e [.expel r t] s
      ((s.sendAll socks text).editRoom r fun room => room.removeClient t) :=
  .of_sends ⟨rfl, rfl, rfl, rfl, rfl, rfl⟩ ((Sends.refl _).append (replays_sends socks text)) rfl rfl

/-- `handleKickCommand`. -/
theorem fulfils_handleKickCommand (params : Bytes) :
    Fulfils [] {} Settled (handleKickCommand sock params) {} fun _ _ => True := by
  refine fulfils_ownerCommand fun client t => ?_
  have hsteady : ∀ {H : List Mutex},
      Steady H fun s => t ≠ INVALID_SOCKET → Accompanied t client.roomId s :=
    fun s s' hs h ht => steady_accompanied s s' hs (h ht)
  refine fulfils_ite _ (fun _ => fulfils_answer hsteady _) fun ht => ?_
  -- from here the target is a client that was found in the room of the owner
  refine fulfils_weaken (F := Accompanied t client.roomId) (K := fun _ _ => True) ?_
    (fun _ h => h ht) fun _ _ h => h
  refine fulfils_seq (k := {}) (K := fun _ => Accompanied t client.roomId) ?_ fun _ =>
    fulfils_seq (k := {}) (K := fun _ => Accompanied t client.roomId) ?_ fun _ =>
      fulfils_then ?_ fun _ => fulfils_setInfo (fun _ => rfl) steady_true fun _ h => h
  · exact fulfils_quiet steady_accompanied (fun _ => steady_accompanied) fun e s h =>
      ⟨performs_send e s t _, h⟩
  · exact fulfils_quiet steady_accompanied (fun _ => steady_accompanied) fun e s h =>
      ⟨performs_send e s t _, h⟩
  · refine fulfils_critical steady_accompanied (fun _ => steady_true) fun e s h => ?_
    simp only [Block.post_bind, post_roomExists, Block.post_ite, post_getCurrentTimestamp,
      post_broadcastToAll, post_tellRoom, Block.post_pure, and_true]
    exact ⟨fun _ => (performs_expel e s _ t _ _).held (g := {}) h List.mem_cons_self,
      fun _ => (performs_nothing e s).quiet⟩

/-- The room is live while its mutex is held. -/
theorem steady_live {r : Bytes} : Steady (.chatRoomsMutex :: H) fun s => r ∈ s.chatRooms := by
  intro s s' hs h
  rw [hs.held List.mem_cons_self]
  exact h

/-- Whether a room is live, while the mutex of the rooms is held. -/
theorem fulfils_roomExists (r : Bytes) (hF : Steady (.chatRoomsMutex :: H) F) :
    Fulfils (.chatRoomsMutex :: H) g F (step (roomExists r)) g fun found s =>
      F s ∧ (found = true → r ∈ s.chatRooms) := by
  refine fulfils_quiet hF (fun found => hF.and ?_) fun e s h =>
    ⟨performs_nothing e s, h, Std.ExtTreeMap.contains_iff_mem.1⟩
  exact fun s s' hs h hfound => steady_live s s' hs (h hfound)

/-- `handleBanCommand`. -/
theorem fulfils_handleBanCommand (params : Bytes) :
    Fulfils [] {} Settled (handleBanCommand sock params) {} fun _ _ => True := by
  refine fulfils_ownerCommand fun client t => ?_
  have hsteady : ∀ {H : List Mutex},
      Steady H fun s => t ≠ INVALID_SOCKET → Accompanied t client.roomId s :=
    fun s s' hs h ht => steady_accompanied s s' hs (h ht)
  refine fulfils_holding hsteady (fun _ => steady_true) ?_
  refine fulfils_seq (fulfils_roomExists client.roomId hsteady) fun found => ?_
  refine fulfils_ite _ (fun hfound => ?_) fun _ => fulfils_pure fun _ _ => trivial
  refine fulfils_seq (k := {})
    (K := fun _ s => t ≠ INVALID_SOCKET → Accompanied t client.roomId s) ?_ fun _ => ?_
  · refine fulfils_weaken (F := fun s => (t ≠ INVALID_SOCKET → Accompanied t client.roomId s) ∧
      client.roomId ∈ s.chatRooms) ?_ (fun s h => ⟨h.1, h.2 hfound⟩) fun _ _ h => h
    refine fulfils_step (hsteady.and steady_live) (fun _ => hsteady) fun e s h => ?_
    -- the name is banned whether or not a client bears it
    have hdo : Performs e [.ban client.roomId (trim params)] s
        { s.editRoom client.roomId fun room => room.banUser (trim params) with
          database := s.database.addBan (fun n => e.calls (0 + n)) client.roomId (trim params) } := by
      simp only [Nat.zero_add]
      exact .of_sends ⟨rfl, rfl, rfl, rfl, rfl, rfl⟩ (.refl _) rfl rfl
    refine ⟨hdo.held (g := {}) h.2 List.mem_cons_self, fun ht hd => ?_⟩
    -- a ban takes nobody out of the members
    obtain ⟨u, hu, hm⟩ := h.1 ht hd
    exact ⟨u, hu, (isMember_editRoom s client.roomId client.roomId u
      (f := fun room => room.banUser (trim params)) fun _ => rfl).2 hm⟩
  refine fulfils_ite _ (fun _ => fulfils_answer hsteady _) fun ht => ?_
  refine fulfils_weaken (F := Accompanied t client.roomId) (K := fun _ _ => True) ?_
    (fun _ h => h ht) fun _ _ h => h
  refine fulfils_then ?_ fun _ => fulfils_then ?_ fun _ => fulfils_answer steady_true _
  · refine fulfils_step steady_accompanied (fun _ => steady_true) fun e s h => ⟨?_, trivial⟩
    have hdo : Performs e [.expel client.roomId t] s
        ((expelBanned client.roomId (trim params) t).exec e s).state :=
      .of_sends ⟨rfl, rfl, rfl, rfl, rfl, rfl⟩ ((((Sends.refl _).append (replays_sends [t] _)).append
        (replays_sends [t] _)).append (replays_sends _ _)) rfl rfl
    exact hdo.held (g := {}) h List.mem_cons_self
  · exact fulfils_setInfo (fun _ => rfl) steady_true fun _ h => h

/-- `handleTransferCommand`. -/
theorem fulfils_handleTransferCommand (params : Bytes) :
    Fulfils [] {} Settled (handleTransferCommand sock params) {} fun _ _ => True := by
  refine fulfils_ownerCommand fun client t => ?_
  refine fulfils_weaken (F := fun _ => True) (K := fun _ _ => True) ?_ (fun _ _ => trivial)
    fun _ _ h => h
  refine fulfils_ite _ (fun _ => fulfils_answer steady_true _) fun _ => ?_
  refine fulfils_holding steady_true (fun _ => steady_true) ?_
  refine fulfils_then ?_ fun found => fulfils_ite _ (fun _ => ?_) fun _ => fulfils_pure fun _ h => h
  · exact fulfils_quiet steady_true (fun _ => steady_true) fun e s _ =>
      ⟨performs_nothing e s, trivial⟩
  refine fulfils_then ?_ fun _ => ?_
  · refine fulfils_step steady_true (fun _ => steady_true) fun e s _ => ⟨?_, trivial⟩
    -- first the owner socket of the room, under `g_chatRoomsMutex` alone
    have hdo : Performs e [.appoint client.roomId t] s
        (s.editRoom client.roomId fun room => room.setOwner t) :=
      .of_sends ⟨rfl, rfl, rfl, rfl, rfl, rfl⟩ (.refl _) rfl rfl
    exact hdo.held (g := {}) trivial List.mem_cons_self
  · refine fulfils_critical steady_true (fun _ => steady_true) fun e s _ => ⟨?_, trivial⟩
    -- then the two flags and the row, under `g_clientsMutex` as well
    have hnames := (performs_setInfo e s sock (f := fun c => { c with isRoomOwner := false })
      fun _ => rfl).names.trans (performs_setInfo e _ t (f := fun c => { c with isRoomOwner := true })
        fun _ => rfl).names
    have hdo : Performs e [.credit client.roomId (trim params)] s
        { (s.setInfo sock fun c => { c with isRoomOwner := false }).setInfo t
            fun c => { c with isRoomOwner := true } with
          database := s.database.updateRoomOwner (fun n => e.calls (0 + n)) client.roomId
            (trim params) } := by
      simp only [Nat.zero_add]
      exact ⟨⟨rfl, rfl, rfl, rfl, rfl, rfl⟩, ⟨[], (List.append_nil _).symm, rfl⟩, hnames⟩
    exact (((hdo.then_sends _ _).then_send _ _).then_send _ _).one (g := {}) trivial fun _ => rfl

/-- The promotion of the new owner, when it is connected. -/
theorem fulfils_promoteOther (r : Bytes) (t : SOCKET) :
    Fulfils [.chatRoomsMutex] {} (fun _ => True) (promoteOther r t sock) {} fun _ _ => True := by
  refine fulfils_ite _ (fun _ => ?_) fun _ => fulfils_pure fun _ h => h
  refine fulfils_critical steady_true (fun _ => steady_true) fun e s _ => ?_
  simp only [promoteNewOwner, Block.post_bind, Block.post_read, Block.post_ite, post_clientInfo,
    post_setClientInfo, post_tellRoom, Block.post_pure, and_true]
  constructor
  · intro _
    have hdo : Performs e [.appoint r t] s
        ((s.setInfo t fun c => { c with isRoomOwner := true }).editRoom r
          fun room => room.setOwner t) :=
      ⟨⟨rfl, rfl, rfl, rfl, rfl, rfl⟩, ⟨[], (List.append_nil _).symm, rfl⟩,
        (performs_setInfo e s t (f := fun c => { c with isRoomOwner := true }) fun _ => rfl).names⟩
    exact hdo.held (g := {}) trivial (by simp)
  · exact fun _ => (performs_nothing e s).quiet

/-- The notices about the new owner have no effects. -/
theorem post_announceNewOwner_deeds (e : Env) (s : Globals) (r name : Bytes) (t : SOCKET) :
    (announceNewOwner r name t).post e s fun _ s' => Performs e [] s s' := by
  simp only [announceNewOwner, Block.post_ite, Block.post_pure, Block.post_bind,
    post_getCurrentTimestamp, post_broadcastToAll, post_sendToClient]
  constructor
  · exact fun _ => performs_nothing e s
  · exact fun _ => (performs_sendAll e s _ _).then_send _ _

/-- The notices of a forced leave, and the leaver out of the room. -/
theorem post_announceForceLeave_deeds (e : Env) (s : Globals) (r username name : Bytes)
    (t : SOCKET) : (announceForceLeave r username name t sock).post e s fun _ s' =>
      Performs e [.leave r sock] s s' := by
  simp only [announceForceLeave, Block.post_bind, post_getCurrentTimestamp, post_broadcast,
    post_tellRoom, post_askRoom, Block.post_ite, post_spawnCleanup, Block.post_pure]
  refine Block.post_mono (post_announceNewOwner_deeds e s r name t) fun _ s₁ h₁ => ?_
  rw [← deserted_of_askRoom]
  exact performs_leave r sock (h₁.then_sends _ _)

/-- `handleForceLeaveCommand`. -/
theorem fulfils_handleForceLeaveCommand :
    Fulfils [] {} (fun _ => True) (handleForceLeaveCommand sock) {} fun _ _ => True := by
  refine fulfils_seq (fulfils_clientInfo steady_true) fun client => ?_
  refine fulfils_weaken (F := fun _ => True) (K := fun _ _ => True) ?_ (fun _ _ => trivial)
    fun _ _ h => h
  refine fulfils_ite _ (fun _ => fulfils_answer steady_true _) fun _ => ?_
  refine fulfils_ite _ (fun _ => fulfils_answer steady_true _) fun _ => ?_
  refine fulfils_then ?_ fun _ => fulfils_then
    (fulfils_setInfo (fun _ => rfl) steady_true fun _ h => h) fun _ => fulfils_answer steady_true _
  refine fulfils_holding steady_true (fun _ => steady_true) ?_
  refine fulfils_then ?_ fun found => fulfils_ite _ (fun _ => ?_) fun _ => fulfils_pure fun _ h => h
  · exact fulfils_quiet steady_true (fun _ => steady_true) fun e s _ =>
      ⟨performs_nothing e s, trivial⟩
  -- choose the heir, make it the owner, then go
  refine fulfils_then ?_ fun newOwner => fulfils_then (fulfils_promoteOther _ _) fun name => ?_
  · refine fulfils_quiet steady_true (fun _ => steady_true) fun e s _ => ?_
    simp only [chooseNewOwner, Block.post_bind, post_askRoom, Block.post_ite, post_longestMember,
      Block.post_pure, and_true]
    exact ⟨fun _ => ⟨fun _ => performs_nothing e s, fun _ => performs_nothing e s⟩,
      fun _ => performs_nothing e s⟩
  · refine fulfils_step steady_true (fun _ => steady_true) fun e s _ => ?_
    refine Block.post_mono (post_announceForceLeave_deeds e s _ _ _ _) fun _ s' h => ?_
    exact ⟨h.held (g := {}) trivial List.mem_cons_self, trivial⟩

end Owning

/-! ## Every handler -/

section Events

variable {sock : SOCKET}

/-- The parameters of a command stand on one line, and a text to be sent is trimmed and not
empty. -/
def Request.WellFormed : Request → Prop
  | .command c => c.Lined
  | .privateMessage _ content => Trimmed content ∧ content ≠ []
  | .chat text => Trimmed text ∧ text ≠ []
  | _ => True

theorem wellFormed_parsePrivateMessage (text : Bytes) :
    (parsePrivateMessage text).WellFormed := by
  unfold parsePrivateMessage
  split
  · exact trivial
  · split
    · exact trivial
    · dsimp only
      split
      · exact trivial
      · rename_i hne
        simp only [Bool.or_eq_true, not_or, List.isEmpty_iff] at hne
        exact ⟨trimmed_trim _, hne.2⟩

/-- Every request that the server acts on is well-formed. -/
theorem wellFormed_parseText {buffer text : Bytes} (h : actedText buffer = some text) :
    (parseText text).WellFormed := by
  unfold actedText at h
  split at h
  · simp at h
  · rename_i hne
    rw [Option.some.injEq] at h
    unfold parseText
    split
    · exact lined_parseCommand _
    · split
      · exact wellFormed_parsePrivateMessage _
      · rw [← h]
        exact ⟨trimmed_trim buffer, by simpa using hne⟩

/-- Pushing a message of the client. -/
theorem fulfils_pushMessage (client : ClientInfo) {message : Message}
    (hsock : message.senderSocket = sock) (hname : message.senderName = client.username)
    (hroom : message.roomId = client.roomId) (hne : client.roomId ≠ [])
    (hcontent : Trimmed message.content ∧ message.content ≠ []) :
    Fulfils [] {} (fun s => client = s.info sock) (pushMessage message) {} fun _ _ => True := by
  -- only the thread of the handlers writes the records of the clients
  have hsteady : Steady [] fun s => client = s.info sock := by
    intro s s' hs h
    rw [hs.info]
    exact h
  refine fulfils_critical hsteady (fun _ => steady_true) fun e s h => ⟨?_, trivial⟩
  have hdo : Performs e [.push message] s { s with messageQueue := s.messageQueue ++ [message] } :=
    .of_sends ⟨rfl, rfl, rfl, rfl, rfl, rfl⟩ (.refl _) rfl rfl
  refine hdo.one (g := {}) ⟨?_, ?_, ?_, hcontent⟩ fun _ => rfl
  · rw [hname, hsock, h]
  · rw [hroom, hsock, h]
  · rw [hroom]
    exact hne

theorem fulfils_runCommand {c : Command} (hc : c.Lined)
    (hs : sock ≠ INVALID_SOCKET) :
    Fulfils [] {} Settled (runCommand sock c) {} fun _ _ => True := by
  have hweak : ∀ {p : Thread Unit}, Fulfils [] {} (fun _ => True) p {} (fun _ _ => True) →
      Fulfils [] {} Settled p {} fun _ _ => True :=
    fun hp => fulfils_weaken hp (fun _ _ => trivial) fun _ _ h => h
  cases c with
  | create params => exact fulfils_handleCreateCommand params hs
  | join params => exact hweak (fulfils_handleJoinCommand params hs)
  | setName name => exact hweak (fulfils_handleSetNameCommand hc)
  | list => exact hweak fulfils_handleListCommand
  | getPassword => exact hweak fulfils_handleGetPasswordCommand
  | users => exact hweak fulfils_handleUsersCommand
  | kick params => exact fulfils_handleKickCommand params
  | ban params => exact fulfils_handleBanCommand params
  | transfer params => exact fulfils_handleTransferCommand params
  | leave => exact hweak fulfils_handleLeaveCommand
  | forceLeave => exact hweak fulfils_handleForceLeaveCommand
  | changePassword params => exact hweak (fulfils_handleChangePasswordCommand params)
  | unknown => exact fulfils_answer steady_settled _

theorem fulfils_runRequest {request : Request} (hr : request.WellFormed)
    (hs : sock ≠ INVALID_SOCKET) :
    Fulfils [] {} Settled (runRequest sock request) {} fun _ _ => True := by
  have hclient : ∀ {client : ClientInfo}, Steady [] fun s => Settled s ∧ client = s.info sock := by
    intro client s s' hs h
    exact ⟨steady_settled s s' hs h.1, by rw [hs.info]; exact h.2⟩
  cases request with
  | command c => exact fulfils_runCommand hr hs
  | badPrivateMessage => exact fulfils_answer steady_settled _
  | privateMessage recipientName content =>
      refine fulfils_seq (fulfils_clientInfo steady_settled) fun client => ?_
      refine fulfils_ite _ (fun _ => fulfils_answer hclient _) fun hroom => ?_
      refine fulfils_ite _ (fun _ => fulfils_answer hclient _) fun _ => ?_
      exact fulfils_weaken (fulfils_pushMessage client rfl rfl rfl
        (by simpa using hroom) hr) (fun _ h => h.2) fun _ _ h => h
  | chat text =>
      refine fulfils_seq (fulfils_clientInfo steady_settled) fun client => ?_
      refine fulfils_ite _ (fun _ => fulfils_answer hclient _) fun hroom => ?_
      exact fulfils_weaken (fulfils_pushMessage client rfl rfl rfl
        (by simpa using hroom) hr) (fun _ h => h.2) fun _ _ h => h

/-- Every handler keeps the contract of the main thread. -/
theorem fulfils_handler {ev : Event} (hs : ∀ buffer, ev = .receive ev.socket buffer →
    ev.socket ≠ INVALID_SOCKET) : Fulfils [] {} Settled ev.handler {} fun _ _ => True := by
  have hweak : ∀ {p : Thread Unit}, Fulfils [] {} (fun _ => True) p {} (fun _ _ => True) →
      Fulfils [] {} Settled p {} fun _ _ => True :=
    fun hp => fulfils_weaken hp (fun _ _ => trivial) fun _ _ h => h
  cases ev with
  | connect sock => exact hweak fulfils_acceptClient
  | hangup sock => exact hweak fulfils_handleClientDisconnect
  | receive sock buffer =>
      rw [Event.handler, handleClientMessage]
      cases ht : actedText buffer with
      | none => exact fulfils_pure fun _ _ => trivial
      | some text => exact fulfils_runRequest (wellFormed_parseText ht) (hs buffer rfl)

end Events

end TerminalChat.Server
