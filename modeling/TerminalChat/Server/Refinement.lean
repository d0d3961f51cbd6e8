import Mathlib
import TerminalChat.Server.Blocks

/-!
# The handlers refine the operations of a hall

While a handler runs, the other threads only sweep rooms without members. Under this interference
every handler does what one permitted operation of the hall does, up to such sweeps, whatever the
steps of the handler are interleaved with. The operation is one that the received text asks for
(`wp_handler`).
-/

set_option autoImplicit false

namespace TerminalChat.Server

open TerminalChat.Concurrency TerminalChat.Text TerminalChat.Abstract TerminalChat.Client

/-- Operations on the hall of the server. -/
abbrev ServerOp : Type := Hall.Op SOCKET Bytes Bytes Bytes

/-- What the other threads do while a handler runs: they sweep rooms, and keep the members and the
join times of every room they leave. -/
structure Rely (s s' : Globals) : Prop where
  sweeps : Hall.Sweeps s.hall s'.hall
  seniority : ∀ (r : Bytes) (room' : ChatRoom), s'.chatRooms[r]? = some room' →
    ∃ room, s.chatRooms[r]? = some room ∧ room'.clients = room.clients ∧
      room'.clientJoinTimes = room.clientJoinTimes

/-- The operations that a command of a client may come to. -/
def Command.Asks (sock : SOCKET) : Command → ServerOp → Prop
  | .create params, op => ¬((createParams params).1 && (createParams params).2.isEmpty) = true ∧
      ∃ draw, op = .create sock (roomIdOf draw) (createParams params).1 (createParams params).2
  | .join params, op => (joinParams params).1 ≠ [] ∧ (op = .missing sock (joinParams params).1 ∨
      op = .join sock (joinParams params).1 (joinParams params).2)
  | .setName name, op => op = .rename sock (trim name)
  | .kick params, op => ∃ t, op = .kick sock t (trim params)
  | .ban params, op => ∃ r t, op = .ban sock r (trim params) t
  | .transfer params, op => ∃ t r, op = .transfer sock t r (trim params)
  | .leave, op => op = .leave sock
  | .forceLeave, op => ∃ r t told, op = .forceLeave sock r t told
  | .changePassword params, op => ∃ r, op = .setPassword sock r (trim params)
  | _, _ => False

/-- The operations that a request of a client may come to. -/
def Request.Asks (sock : SOCKET) : Request → ServerOp → Prop
  | .command c, op => c.Asks sock op
  | _, _ => False

/-- Ownership that is handed on goes to the heir in a room of `s` with several members. -/
def HeedsSeniority (s : Globals) : ServerOp → Prop
  | .forceLeave sock r (some t) _ => ∃ room, s.chatRooms[r]? = some room ∧
      1 < room.getClientCount ∧ t = room.heir sock
  | _ => True

/-- The operations that an event may come to. -/
def Event.Asks : Event → ServerOp → Prop
  | .connect sock, op => op = .connect sock
  | .hangup sock, op => op = .disconnect sock
  | .receive sock buffer, op => ∃ text, actedText buffer = some text ∧ (parseText text).Asks sock op

/-- From the hall `h`, one permitted operation out of `asks`, or none, leads to `h'`, with sweeps
before and after. -/
def Does (asks : ServerOp → Prop) (h h' : ServerHall) : Prop :=
  ∃ op h₁, (op = .pass ∨ asks op) ∧ Hall.Sweeps h h₁ ∧ op.Permitted INVALID_SOCKET h₁ ∧
    Hall.Sweeps (op.apply h₁) h'

/-- What the main thread relies on when it starts the handler of a client: the client is connected,
and nobody is connected on `INVALID_SOCKET`. -/
structure Ready (s : Globals) (sock : SOCKET) : Prop where
  connected : sock ∈ s.clients
  valid : INVALID_SOCKET ∉ s.clients

section Rules

variable {asks : ServerOp → Prop} {s : Globals} {H : ServerHall}

theorem Does.pass {h h' : ServerHall} (hw : Hall.Sweeps h h') : Does asks h h' :=
  ⟨.pass, h, Or.inl rfl, .refl h, trivial, hw⟩

theorem Does.of_op {h h' : ServerHall} (op : ServerOp) (ha : asks op)
    (hp : op.Permitted INVALID_SOCKET h) (hw : Hall.Sweeps (op.apply h) h') : Does asks h h' :=
  ⟨op, h, Or.inr ha, .refl h, hp, hw⟩

theorem Does.sweeps {h h' h'' : ServerHall} (hd : Does asks h h') (hw : Hall.Sweeps h' h'') :
    Does asks h h'' := by
  obtain ⟨op, h₁, ha, hw₁, hp, hw₂⟩ := hd
  exact ⟨op, h₁, ha, hw₁, hp, hw₂.trans hw⟩

theorem Does.mono {asks' : ServerOp → Prop} {h h' : ServerHall} (hd : Does asks h h')
    (hasks : ∀ op, asks op → asks' op) : Does asks' h h' := by
  obtain ⟨op, h₁, ha, hrest⟩ := hd
  exact ⟨op, h₁, ha.imp_right (hasks op), hrest⟩

theorem Rely.refl (s : Globals) : Rely s s := ⟨.refl _, fun _ room h => ⟨room, h, rfl, rfl⟩⟩

theorem Rely.trans {s s' s'' : Globals} (h : Rely s s') (h' : Rely s' s'') : Rely s s'' := by
  refine ⟨h.sweeps.trans h'.sweeps, fun r room'' hr => ?_⟩
  obtain ⟨room', hr', hc', ht'⟩ := h'.seniority r room'' hr
  obtain ⟨room, hr, hc, ht⟩ := h.seniority r room' hr'
  exact ⟨room, hr, hc'.trans hc, ht'.trans ht⟩

/-- A room that is left has the heir it had before. -/
theorem Rely.heir {s s' : Globals} (h : Rely s s') {r : Bytes} {t sock : SOCKET}
    (ht : ∃ room, s'.chatRooms[r]? = some room ∧ 1 < room.getClientCount ∧ t = room.heir sock) :
    ∃ room, s.chatRooms[r]? = some room ∧ 1 < room.getClientCount ∧ t = room.heir sock := by
  obtain ⟨room', hr', hcount, rfl⟩ := ht
  obtain ⟨room, hr, hc, htimes⟩ := h.seniority r room' hr'
  rw [ChatRoom.getClientCount, hc] at hcount
  exact ⟨room, hr, hcount, ChatRoom.heir_congr hc htimes sock⟩

/-- The hall of the globals is `H`, up to sweeps. -/
theorem wp_step {α : Type} {Q : α → Globals → Prop} (hs : Hall.Sweeps H s.hall) {b : Sect α}
    (hb : ∀ e s', Hall.Sweeps H s'.hall → b.post e s' Q) : (step b).wp Rely Q s := by
  rw [step, Prog.wp_block]
  exact fun e s' h => hb e s' (hs.trans h.sweeps)

/-- The same, keeping track of what the other threads have done since `s₀`. -/
theorem wp_step_rely {α : Type} {Q : α → Globals → Prop} {s₀ : Globals} (hs : Rely s₀ s)
    {b : Sect α} (hb : ∀ e s', Rely s₀ s' → b.post e s' Q) : (step b).wp Rely Q s := by
  rw [step, Prog.wp_block]
  exact fun e s' h => hb e s' (hs.trans h)

theorem wp_critical {α : Type} {Q : α → Globals → Prop} (hs : Hall.Sweeps H s.hall) (m : Mutex)
    {b : Sect α} (hb : ∀ e s', Hall.Sweeps H s'.hall → b.post e s' Q) :
    (critical m b).wp Rely Q s := by
  rw [critical, Prog.wp_holding]
  exact wp_step hs hb

theorem sweeps_send (hs : Hall.Sweeps H s.hall) (sock : SOCKET) (text : Bytes) :
    Hall.Sweeps (H.tell sock (viewLine text)) (s.send sock text).hall := by
  rw [hall_send]
  exact hs.tell _ _

theorem sweeps_send_of_quiet (hs : Hall.Sweeps H s.hall) {text : Bytes} (h : Quiet text)
    (sock : SOCKET) : Hall.Sweeps H (s.send sock text).hall := by
  rwa [hall_send_of_quiet s h]

theorem sweeps_sendAll (hs : Hall.Sweeps H s.hall) {text : Bytes} (h : Quiet text)
    (socks : List SOCKET) : Hall.Sweeps H (s.sendAll socks text).hall := by
  rwa [hall_sendAll s h]

theorem sweeps_database (hs : Hall.Sweeps H s.hall) (db : Database) :
    Hall.Sweeps H ({ s with database := db } : Globals).hall := hs

theorem sweeps_setInfo (hs : Hall.Sweeps H s.hall) (sock : SOCKET) {f : ClientInfo → ClientInfo}
    {g : Person Bytes Bytes → Person Bytes Bytes} (hf : ∀ c, (f c).person = g c.person) :
    Hall.Sweeps (H.setPerson sock g) (s.setInfo sock f).hall := by
  rw [hall_setInfo s sock hf]
  exact hs.setPerson _ _

/-- A reference to a connected client inserts nothing. -/
theorem sweeps_clientRef (hs : Hall.Sweeps H s.hall) {sock : SOCKET} (hc : sock ∈ s.clients) :
    Hall.Sweeps H (s.setInfo sock id).hall := by
  have h := sweeps_setInfo hs sock (f := id) (g := id) fun _ => rfl
  have hknown : (H.person sock).isSome := by
    rw [← hs.person]
    exact (s.isSome_person_hall sock).2 hc
  rwa [Hall.setPerson_of_id _ hknown (f := id) fun _ => rfl] at h

/-- An edit of a room that does not exist. -/
theorem sweeps_editRoom_of_none (hs : Hall.Sweeps H s.hall) {r : Bytes}
    (hr : s.chatRooms.contains r ≠ true) (g : Room SOCKET Bytes Bytes → Room SOCKET Bytes Bytes)
    (hg : ∀ R, (g R).members ⊆ R.members) : Hall.Sweeps (H.editRoom r g) s.hall := by
  have h := hs.editRoom r g hg
  rwa [Hall.editRoom_of_none _ (room_hall_eq_none hr)] at h

theorem sweeps_editRoom (hs : Hall.Sweeps H s.hall) (r : Bytes) {f : ChatRoom → ChatRoom}
    {g : Room SOCKET Bytes Bytes → Room SOCKET Bytes Bytes}
    (hf : ∀ room, (f room).room = g room.room) (hg : ∀ R, (g R).members ⊆ R.members) :
    Hall.Sweeps (H.editRoom r g) (s.editRoom r f).hall := by
  rw [hall_editRoom s r hf]
  exact hs.editRoom _ _ hg

/-- A quiet answer to a client is no operation. -/
theorem wp_reply (hs : Hall.Sweeps H s.hall) {text : Bytes} (h : Quiet text) (sock : SOCKET) :
    (reply sock text).wp Rely (fun _ s' => Hall.Sweeps H s'.hall) s :=
  wp_step hs fun _ _ h' => sweeps_send_of_quiet h' h sock

/-- Reading the entry of a client. -/
theorem wp_clientInfo (hs : Hall.Sweeps H s.hall) {sock : SOCKET}
    {Q : ClientInfo → Globals → Prop}
    (hb : ∀ s', Hall.Sweeps H s'.hall → H.entry sock = (s'.info sock).person → Q (s'.info sock) s') :
    (critical .clientsMutex (clientInfo sock)).wp Rely Q s := by
  refine wp_critical hs _ fun e s' h => ?_
  rw [post_clientInfo]
  refine hb s' h ?_
  rw [← h.entry, Globals.entry_hall]

end Rules

section Handlers

variable {s : Globals} {sock : SOCKET}

/-- A handler that only answers has done no operation. -/
theorem wp_answer {asks : ServerOp → Prop} {s' : Globals} (hs : Hall.Sweeps s.hall s'.hall)
    {text : Bytes} (h : Quiet text) (sock : SOCKET) :
    (reply sock text).wp Rely (fun _ s'' => Does asks s.hall s''.hall) s' :=
  Prog.wp_mono (fun _ _ => .pass) _ _ (wp_reply hs h sock)

/-- `handleLeaveCommand`. -/
theorem wp_handleLeaveCommand : (handleLeaveCommand sock).wp Rely
    (fun _ s' => Does (Command.leave.Asks sock) s.hall s'.hall) s := by
  rw [handleLeaveCommand, Prog.wp_bind]
  refine wp_clientInfo (.refl _) fun s₁ h₁ hc => ?_
  generalize s₁.info sock = client at hc
  rw [Prog.wp_ite]
  refine ⟨fun _ => wp_answer h₁ (quiet_errorText _) sock, fun hin => ?_⟩
  rw [List.isEmpty_iff] at hin
  rw [Prog.wp_ite]
  refine ⟨fun _ => wp_answer h₁ ?_ sock, fun hown => ?_⟩
  · exact quiet_append (p := str "OWNER_LEAVE_WARNING") (by decide) (str "\n")
  have hplace : (s.hall.entry sock).place = some client.roomId := by simp [hc, hin]
  rw [Prog.wp_bind]
  refine wp_critical h₁ _ fun e s₂ h₂ => ?_
  refine Block.post_mono (post_leaveRoom e s₂ _ _ sock) fun _ s₃ e₃ => ?_
  have h₃ : Hall.Sweeps (s.hall.vacate sock) s₃.hall := by
    rw [e₃, Hall.vacate_of_place hplace]
    exact h₂.editRoom _ _ fun _ _ hm => hm.1
  rw [Prog.wp_bind]
  refine wp_critical h₃ _ fun e s₄ h₄ => ?_
  have h₅ := sweeps_setInfo h₄ sock (f := fun c => { c with roomId := [] })
    (g := fun p => { p with place := none }) (fun _ => rfl)
  refine wp_step h₅ fun e s₆ h₆ => ?_
  have h₇ := sweeps_send h₆ sock (str "LEFT_ROOM\n")
  rw [funext viewLine_left] at h₇
  refine Does.of_op (.leave sock) rfl ⟨?_, ?_⟩ h₇
  · rw [hplace]
    simp
  · rw [hc]
    simpa using hown

/-- `removeClientFromRoom`, up to the entry of the client itself. -/
theorem wp_removeClientFromRoom : (removeClientFromRoom sock).wp Rely (fun _ s' =>
    ∃ H : ServerHall, H.dropPerson sock = (s.hall.vacate sock).dropPerson sock ∧
      Hall.Sweeps H s'.hall) s := by
  rw [removeClientFromRoom, Prog.wp_bind]
  refine wp_clientInfo (.refl _) fun s₁ h₁ hc => ?_
  generalize s₁.info sock = client at hc
  rw [Prog.wp_ite]
  refine ⟨fun hnone => ⟨s.hall, ?_, h₁⟩, fun hin => ?_⟩
  · have hplace : (s.hall.entry sock).place = none := by
      rw [hc]
      simpa using hnone
    rw [Hall.vacate, hplace]
  rw [List.isEmpty_iff] at hin
  have hplace : (s.hall.entry sock).place = some client.roomId := by
    rw [hc]
    simp [hin]
  rw [Prog.wp_bind]
  refine wp_critical h₁ _ fun e s₂ h₂ => ?_
  have h₂' : Hall.Sweeps (s.hall.vacate sock) (s₂.hall.editRoom client.roomId (·.remove sock)) := by
    rw [Hall.vacate_of_place hplace]
    exact h₂.editRoom _ _ fun _ _ hm => hm.1
  -- after the room: the entry of the client, then the cleanup
  have hnext : ∀ s₃ : Globals, s₃.hall = s₂.hall.editRoom client.roomId (·.remove sock) →
      ((do
        critical .clientsMutex
          (setClientInfo sock fun c => { c with roomId := [], isRoomOwner := false })
        cleanupEmptyRoom client.roomId : Thread Unit)).wp Rely (fun _ s' =>
          ∃ H : ServerHall, H.dropPerson sock = (s.hall.vacate sock).dropPerson sock ∧
            Hall.Sweeps H s'.hall) s₃ := by
    intro s₃ e₃
    rw [← e₃] at h₂'
    rw [Prog.wp_bind]
    refine wp_critical h₂' _ fun e s₄ h₄ => ?_
    have h₅ := sweeps_setInfo h₄ sock (f := fun c => { c with roomId := [], isRoomOwner := false })
      (g := fun p => { p with place := none, owner := false }) (fun _ => rfl)
    refine wp_critical h₅ _ fun e s₆ h₆ => ?_
    refine Block.post_mono (post_sweepRoom e s₆ client.roomId) fun _ s₇ h₇ => ?_
    exact ⟨_, Hall.dropPerson_setPerson _ _ _, h₆.trans h₇⟩
  simp only [Block.post_bind, post_roomExists, Block.post_ite, Block.post_pure]
  refine ⟨fun _ => ?_, fun hr => ?_⟩
  · exact Block.post_mono (post_departRoom e s₂ _ _ sock) fun _ s₃ e₃ => hnext s₃ e₃
  · exact hnext s₂ (Hall.editRoom_of_none _ (room_hall_eq_none hr) _).symm

/-- `handleClientDisconnect`. -/
theorem wp_handleClientDisconnect : (handleClientDisconnect sock).wp Rely
    (fun _ s' => Does ((Event.hangup sock).Asks) s.hall s'.hall) s := by
  rw [handleClientDisconnect, Prog.wp_bind]
  refine Prog.wp_mono ?_ _ _ wp_removeClientFromRoom
  rintro - s₁ ⟨H, hH, h₁⟩
  rw [Prog.wp_bind]
  refine wp_critical h₁ _ fun e s₂ h₂ => ?_
  have h₃ : Hall.Sweeps (H.dropPerson sock)
      ({ s₂ with clients := s₂.clients.erase sock } : Globals).hall := by
    rw [hall_eraseClient]
    exact h₂.dropPerson sock
  rw [Block.post_modify, Prog.wp_bind]
  refine wp_step h₃ fun e s₄ h₄ => ?_
  have h₅ : Hall.Sweeps (H.dropPerson sock)
      ({ s₄ with net := s₄.net ++ [.closed sock] } : Globals).hall := by
    rw [hall_net s₄ fun op hop _ _ => by rw [List.mem_singleton.1 hop]; rfl]
    exact h₄
  refine wp_critical h₅ _ fun e s₆ h₆ => ?_
  refine Does.of_op (.disconnect sock) rfl trivial ?_
  rw [Hall.Op.apply, ← hH]
  exact h₆

/-- The main loop accepts a connection. -/
theorem wp_acceptClient (hsock : sock ≠ INVALID_SOCKET) (hnew : sock ∉ s.clients) :
    (acceptClient sock).wp Rely
      (fun _ s' => Does ((Event.connect sock).Asks) s.hall s'.hall) s := by
  rw [acceptClient, Prog.wp_bind]
  refine wp_step (.refl s.hall) fun e s₁ h₁ => ?_
  have h₂ : Hall.Sweeps (s.hall.tell sock fun _ => .blank)
      ({ s₁ with net := s₁.net ++ [.accepted sock] } : Globals).hall := by
    rw [hall_accepted]
    exact h₁.tell _ _
  rw [Block.post_modify, Prog.wp_bind]
  refine wp_critical h₂ _ fun e s₃ h₃ => ?_
  have h₄ : Hall.Sweeps ((s.hall.tell sock fun _ => .blank).setPerson sock fun _ => default)
      ({ s₃ with clients := s₃.clients.insert sock {} } : Globals).hall := by
    rw [hall_insertClient]
    exact h₃.setPerson _ _
  rw [Block.post_modify, Prog.wp_bind]
  refine wp_critical h₄ _ fun e s₅ h₅ => ?_
  rw [Block.post_modify]
  have h₆ : Hall.Sweeps ((s.hall.tell sock fun _ => .blank).setPerson sock fun _ => default)
      ({ s₅ with pollFds := s₅.pollFds ++ [sock] } : Globals).hall := h₅
  have hq : Quiet (str "WELCOME:Chat Server\n") :=
    quiet_append (p := str "WELCOME:") (by decide) (str "Chat Server\n")
  refine Prog.wp_mono (fun _ s₇ h₇ => ?_) _ _ (wp_reply h₆ hq sock)
  exact Does.of_op (.connect sock) rfl ⟨hsock, (s.person_hall_eq_none sock).2 hnew⟩ h₇

/-! ### CREATE and JOIN -/

theorem roomIdOf_ne_nil (draw : Fin 900000) : roomIdOf draw ≠ [] := decimal_ne_nil _

theorem digit_of_mem_roomIdOf {draw : Fin 900000} {c : UInt8} (h : c ∈ roomIdOf draw) :
    48 ≤ c ∧ c ≤ 57 := isDigit_of_mem_decimal h

/-- The insertion of a new room with its creator in it. -/
theorem sweeps_newRoom {H : ServerHall} (hs : Hall.Sweeps H s.hall) (roomId : Bytes)
    (isPrivate : Bool) (password : Bytes) (now : Nat) :
    Hall.Sweeps (H.putRoom roomId (Hall.newRoom sock isPrivate password))
      ((s.insertRoom roomId (ChatRoom.new roomId isPrivate password sock)).editRoom roomId
        fun room => room.addClient sock now).hall := by
  rw [hall_editRoom (g := fun R => R.enrol sock) _ _ fun room => room_addClient room sock now,
    hall_insertRoom, Hall.editRoom_putRoom, ← room_addClient _ sock now, room_new]
  exact hs.putRoom _ _

/-- CREATE once the creator has left its room. -/
theorem wp_makeRoom {H : ServerHall} (hs : Hall.Sweeps H s.hall) (client : ClientInfo)
    (draw : Fin 900000) (isPrivate : Bool) (password : Bytes) :
    (makeRoom sock client (roomIdOf draw) isPrivate password).wp Rely (fun _ s' =>
      Hall.Sweeps (((H.putRoom (roomIdOf draw) (Hall.newRoom sock isPrivate password)).place sock
        (roomIdOf draw) true).tell sock fun _ => ⟨some (roomIdOf draw), true⟩) s'.hall) s := by
  rw [makeRoom, Prog.wp_bind]
  refine wp_critical hs _ fun e₁ s₁ h₁ => ?_
  have h₂ : Hall.Sweeps (H.putRoom (roomIdOf draw) (Hall.newRoom sock isPrivate password)) _ :=
    sweeps_newRoom h₁ (roomIdOf draw) isPrivate password s₁.steadyNow
  rw [Block.post_bind, Block.post_modify, post_addClient, Prog.wp_bind]
  refine wp_critical h₂ _ fun e₂ s₃ h₃ => ?_
  have h₄ := sweeps_setInfo h₃ sock
    (f := fun c => { c with roomId := roomIdOf draw, isRoomOwner := true })
    (g := fun p => { p with place := some (roomIdOf draw), owner := true })
    (fun c => by simp [ClientInfo.person, roomIdOf_ne_nil])
  rw [post_setClientInfo, Prog.wp_bind]
  refine wp_step h₄ fun e₅ s₅ h₅ => ?_
  rw [post_tellDatabase]
  refine wp_step (sweeps_database h₅ _) fun e₆ s₆ h₆ => ?_
  have h₇ := sweeps_send h₆ sock (str "ROOM_CREATED:" ++ roomIdOf draw ++ str ":" ++
    (if isPrivate then str "PRIVATE" else str "PUBLIC") ++ str "\n")
  rw [funext (viewLine_created (fun _ => digit_of_mem_roomIdOf) isPrivate)] at h₇
  exact h₇

/-- `handleCreateCommand`. -/
theorem wp_handleCreateCommand (hready : Ready s sock) (params : Bytes) :
    (handleCreateCommand sock params).wp Rely
      (fun _ s' => Does ((Command.create params).Asks sock) s.hall s'.hall) s := by
  rw [handleCreateCommand, Prog.wp_ite]
  refine ⟨fun _ => wp_answer (.refl _) (quiet_errorText _) sock, fun hok => ?_⟩
  rw [Prog.wp_bind]
  refine wp_step (.refl _) fun e s₁ h₁ => ?_
  rw [post_generateRoomId]
  have h₂ : Hall.Sweeps (s.hall.draw (roomIdOf e.draw))
      ({ s₁ with drawnIds := roomIdOf e.draw :: s₁.drawnIds } : Globals).hall := h₁.draw _
  -- once the creator has left its old room, the new one is made
  have hmake : ∀ (s₃ : Globals) (client : ClientInfo),
      Hall.Sweeps ((s.hall.draw (roomIdOf e.draw)).vacate sock) s₃.hall →
      (makeRoom sock client (roomIdOf e.draw) (createParams params).1
        (createParams params).2).wp Rely
          (fun _ s' => Does ((Command.create params).Asks sock) s.hall s'.hall) s₃ := by
    intro s₃ client h₃
    refine Prog.wp_mono (fun _ s₄ h₄ => ?_) _ _ (wp_makeRoom h₃ client e.draw _ _)
    exact Does.of_op (.create sock (roomIdOf e.draw) _ _) ⟨hok, e.draw, rfl⟩
      ((s.isSome_person_hall sock).2 hready.connected) h₄
  rw [Prog.wp_bind, Prog.wp_holding, Prog.wp_bind]
  refine wp_step h₂ fun e₁ s₃ h₃ => ?_
  rw [post_clientRef]
  have hentry : ((s.hall.draw (roomIdOf e.draw)).entry sock) = (s₃.info sock).person := by
    rw [← h₃.entry, Globals.entry_hall]
  have hconn : sock ∈ s₃.clients := by
    rw [← Globals.isSome_person_hall, h₃.person]
    exact (s.isSome_person_hall sock).2 hready.connected
  -- the entry that is read is that of the start
  have h₄ := sweeps_clientRef h₃ hconn
  rw [Prog.wp_ite]
  refine ⟨fun hnone => hmake _ _ ?_, fun hin => ?_⟩
  · have hplace : ((s.hall.draw (roomIdOf e.draw)).entry sock).place = none := by
      rw [hentry]
      simpa using hnone
    rwa [Hall.vacate, hplace]
  · rw [List.isEmpty_iff] at hin
    have hplace : ((s.hall.draw (roomIdOf e.draw)).entry sock).place =
        some (s₃.info sock).roomId := by
      rw [hentry]
      simp [hin]
    rw [Prog.wp_bind]
    refine wp_critical h₄ _ fun e₂ s₅ h₅ => ?_
    refine Block.post_mono (post_leaveRoom e₂ s₅ _ _ sock) fun _ s₆ e₆ => hmake s₆ _ ?_
    rw [e₆, Hall.vacate_of_place hplace]
    exact h₅.editRoom _ _ fun _ _ hm => hm.1

/-- `handleJoinCommand`. -/
theorem wp_handleJoinCommand (hready : Ready s sock) (params : Bytes) :
    (handleJoinCommand sock params).wp Rely
      (fun _ s' => Does ((Command.join params).Asks sock) s.hall s'.hall) s := by
  rw [handleJoinCommand, Prog.wp_ite]
  refine ⟨fun _ => wp_answer (.refl _) (quiet_errorText _) sock, fun hne => ?_⟩
  rw [List.isEmpty_iff] at hne
  rw [Prog.wp_holding, Prog.wp_bind]
  refine wp_step (.refl _) fun e₁ s₁ h₁ => ?_
  have hconn : sock ∈ s₁.clients := (Globals.mem_clients_of_sweeps h₁ sock).2 hready.connected
  have h₂ := sweeps_clientRef h₁ hconn
  rw [post_clientRef, Prog.wp_ite]
  refine ⟨fun _ => wp_answer h₂ (quiet_errorText _) sock, fun hother => ?_⟩
  rw [beq_iff_eq] at hother
  refine wp_critical h₂ _ fun e₃ s₃ h₃ => ?_
  have hinfo := Globals.info_eq_of_sweeps h₁ h₃ sock
  have hconn₃ := (Globals.mem_clients_of_sweeps h₃ sock).2 hready.connected
  rw [hinfo] at hother ⊢
  refine Block.post_mono (post_joinRoom e₃ s₃ hconn₃ (trimmed_trim _) hne hother) ?_
  rintro - s₄ ⟨op, hop, hperm, h₄⟩
  refine ⟨op, s₃.hall, hop.imp_right fun h => ⟨hne, h⟩, h₃, hperm, ?_⟩
  rw [h₄]
  exact .refl _

/-! ### Names and lists -/

/-- `handleSetNameCommand`. -/
theorem wp_handleSetNameCommand (hready : Ready s sock) (name : Bytes) :
    (handleSetNameCommand sock name).wp Rely
      (fun _ s' => Does ((Command.setName name).Asks sock) s.hall s'.hall) s := by
  rw [handleSetNameCommand, Prog.wp_ite]
  refine ⟨fun _ => wp_answer (.refl _) (quiet_errorText _) sock, fun hne => ?_⟩
  rw [List.isEmpty_iff] at hne
  rw [Prog.wp_bind]
  refine wp_critical (.refl _) _ fun e₁ s₁ h₁ => ?_
  rw [Block.post_read, Prog.wp_ite]
  refine ⟨fun _ => wp_answer h₁ ?_ sock, fun havail => ?_⟩
  · exact quiet_append (p := str "NAME_TAKEN") (by decide) (str "\n")
  rw [Bool.not_eq_true', Bool.not_eq_false] at havail
  rw [Prog.wp_bind]
  refine wp_critical h₁ _ fun e₂ s₂ h₂ => ?_
  have h₃ := sweeps_setInfo h₂ sock (f := fun c => { c with username := trim name })
    (g := fun p => { p with name := trim name }) (fun _ => rfl)
  have hq : Quiet (str "NAME_SET\n") :=
    quiet_append (p := str "NAME_SET") (by decide) (str "\n")
  rw [post_setClientInfo]
  refine Prog.wp_mono (fun _ s₄ h₄ => ?_) _ _ (wp_reply h₃ hq sock)
  refine Does.of_op (.rename sock (trim name)) rfl ⟨?_, hne, fun t ht => ?_⟩ h₄
  · exact (s.isSome_person_hall sock).2 hready.connected
  · rw [← h₁.entry]
    exact name_ne_of_available s₁ hne havail t ht

/-- `handleListCommand`. -/
theorem wp_handleListCommand : (handleListCommand sock).wp Rely
    (fun _ s' => Does (Command.list.Asks sock) s.hall s'.hall) s := by
  refine wp_critical (.refl _) _ fun e₁ s₁ h₁ => Does.pass (sweeps_send_of_quiet h₁ ?_ sock)
  rw [List.append_assoc]
  exact quiet_append (by decide) _

/-- `handleGetPasswordCommand`. -/
theorem wp_handleGetPasswordCommand : (handleGetPasswordCommand sock).wp Rely
    (fun _ s' => Does (Command.getPassword.Asks sock) s.hall s'.hall) s := by
  rw [handleGetPasswordCommand, Prog.wp_bind]
  refine wp_clientInfo (.refl _) fun s₁ h₁ hc => ?_
  rw [Prog.wp_ite]
  refine ⟨fun _ => wp_answer h₁ (quiet_errorText _) sock, fun _ => ?_⟩
  rw [Prog.wp_ite]
  refine ⟨fun _ => wp_answer h₁ (quiet_errorText _) sock, fun _ => ?_⟩
  refine wp_critical h₁ _ fun e₂ s₂ h₂ => ?_
  simp only [Block.post_bind, post_roomExists, Block.post_ite, post_askRoom, post_sendToClient,
    Block.post_pure]
  refine ⟨fun _ => ⟨fun _ => ?_, fun _ => ?_⟩, fun _ => .pass h₂⟩
  · refine Does.pass (sweeps_send_of_quiet h₂ ?_ sock)
    rw [List.append_assoc]
    exact quiet_append (by decide) _
  · exact Does.pass (sweeps_send_of_quiet h₂ (quiet_errorText _) sock)

/-- `handleUsersCommand`. -/
theorem wp_handleUsersCommand : (handleUsersCommand sock).wp Rely
    (fun _ s' => Does (Command.users.Asks sock) s.hall s'.hall) s := by
  rw [handleUsersCommand, Prog.wp_bind]
  refine wp_clientInfo (.refl _) fun s₁ h₁ hc => ?_
  rw [Prog.wp_ite]
  refine ⟨fun _ => wp_answer h₁ (quiet_errorText _) sock, fun _ => ?_⟩
  rw [Prog.wp_holding, Prog.wp_bind]
  refine wp_step h₁ fun e₂ s₂ h₂ => ?_
  rw [post_roomExists, Prog.wp_ite]
  refine ⟨fun _ => ?_, fun _ => .pass h₂⟩
  rw [Prog.wp_bind]
  refine wp_step h₂ fun e₃ s₃ h₃ => ?_
  refine wp_critical (s := s₃) h₃ _ fun e₄ s₄ h₄ => ?_
  refine Does.pass (sweeps_send_of_quiet h₄ ?_ sock)
  rw [List.append_assoc]
  exact quiet_append (by decide) _

/-! ### The commands of the owner -/

/-- Looking up a name in a room, when nobody is connected on `INVALID_SOCKET`. -/
theorem wp_findClientByUsername {H : ServerHall} (hs : Hall.Sweeps H s.hall)
    (hbad : (H.person INVALID_SOCKET) = none) {u r : Bytes} (hr : r ≠ [])
    {Q : SOCKET → Globals → Prop}
    (hnone : ∀ s', Hall.Sweeps H s'.hall →
      (∀ t, (H.entry t).name = u → (H.entry t).place ≠ some r) → Q INVALID_SOCKET s')
    (hsome : ∀ t s', Hall.Sweeps H s'.hall → t ≠ INVALID_SOCKET → (H.entry t).name = u →
      (H.entry t).place = some r → Q t s') : (findClientByUsername u r).wp Rely Q s := by
  refine wp_critical hs _ fun e s' h => ?_
  rw [Block.post_read]
  have hbad' : INVALID_SOCKET ∉ s'.clients := by
    rw [← Globals.person_hall_eq_none, h.person]
    exact hbad
  rcases findClientByUsername_spec s' hbad' (u := u) hr with ⟨hf, hall⟩ | ⟨hne, hn, hp⟩
  · rw [hf]
    refine hnone s' h fun t => ?_
    rw [← h.entry]
    exact hall t
  · rw [h.entry] at hn hp
    exact hsome _ s' h hne hn hp

/-- The guards that the commands of the owner share have let the client through. -/
theorem rules_of_guards {H : ServerHall} {client : ClientInfo} (hc : H.entry sock = client.person)
    (hin : ¬client.roomId.isEmpty = true) (hown : ¬(!client.isRoomOwner) = true) :
    client.roomId ≠ [] ∧ H.Rules sock client.roomId := by
  rw [List.isEmpty_iff] at hin
  refine ⟨hin, ?_, ?_⟩
  · rw [hc]
    simp [hin]
  · rw [hc]
    simpa using hown

/-- `handleKickCommand`. -/
theorem wp_handleKickCommand (hready : Ready s sock) (params : Bytes) :
    (handleKickCommand sock params).wp Rely
      (fun _ s' => Does ((Command.kick params).Asks sock) s.hall s'.hall) s := by
  rw [handleKickCommand, Prog.wp_ite]
  refine ⟨fun _ => wp_answer (.refl _) (quiet_errorText _) sock, fun hne => ?_⟩
  rw [List.isEmpty_iff] at hne
  rw [Prog.wp_bind]
  refine wp_clientInfo (.refl _) fun s₁ h₁ hc => ?_
  generalize s₁.info sock = client at hc
  rw [Prog.wp_ite]
  refine ⟨fun _ => wp_answer h₁ (quiet_errorText _) sock, fun hin => ?_⟩
  rw [Prog.wp_ite]
  refine ⟨fun _ => wp_answer h₁ (quiet_errorText _) sock, fun hown => ?_⟩
  rw [Prog.wp_ite]
  refine ⟨fun _ => wp_answer h₁ (quiet_errorText _) sock, fun hother => ?_⟩
  rw [beq_iff_eq] at hother
  obtain ⟨hr, hrules⟩ := rules_of_guards hc hin hown
  rw [Prog.wp_bind]
  refine wp_findClientByUsername h₁ ((s.person_hall_eq_none _).2 hready.valid) hr
    (fun s₂ h₂ _ => ?_) fun t s₂ h₂ ht hn hp => ?_
  · rw [if_pos rfl]
    exact wp_answer h₂ (quiet_errorText _) sock
  rw [if_neg ht, Prog.wp_bind]
  refine wp_step h₂ fun e₃ s₃ h₃ => ?_
  -- the notices to the target go out before the room is locked
  have h₄ := sweeps_send_of_quiet h₃ (quiet_systemText (e₃.wall 0)
    (str "You have been kicked from the room by the owner")) t
  refine (Prog.wp_bind _ _ _ _).2 (wp_step h₄ fun e₅ s₅ h₅ => ?_)
  have h₆ := sweeps_send h₅ t (str "KICKED_FROM_ROOM\n")
  rw [funext viewLine_kicked] at h₆
  rw [post_sendToClient, Prog.wp_bind]
  refine wp_critical h₆ _ fun e₇ s₇ h₇ => ?_
  -- once the target is out of the room, its entry follows
  have hlast : ∀ s₈ : Globals, Hall.Sweeps ((s.hall.tell t fun _ => .blank).editRoom client.roomId
      (·.remove t)) s₈.hall →
      (critical .clientsMutex
        (setClientInfo t fun c => { c with roomId := [], isRoomOwner := false })).wp Rely
          (fun _ s' => Does ((Command.kick params).Asks sock) s.hall s'.hall) s₈ := by
    intro s₈ h₈
    refine wp_critical h₈ _ fun e₉ s₉ h₉ => ?_
    have h₁₀ := sweeps_setInfo h₉ t (f := fun c => { c with roomId := [], isRoomOwner := false })
      (g := fun p => { p with place := none, owner := false }) (fun _ => rfl)
    refine Does.of_op (.kick sock t (trim params)) ⟨t, rfl⟩
      ⟨client.roomId, hrules, ?_, hne, hn, hp⟩ ?_
    · rintro rfl
      rw [hc] at hn
      exact hother hn.symm
    · rw [Hall.Op.apply, Hall.detach, Hall.vacate_of_place hp]
      exact h₁₀
  simp only [Block.post_bind, post_roomExists, Block.post_ite, Block.post_pure,
    post_getCurrentTimestamp, post_broadcastToAll, post_tellRoom]
  refine ⟨fun _ => hlast _ ?_, fun hnone => hlast _ ?_⟩
  · exact sweeps_editRoom (sweeps_sendAll h₇ (quiet_systemText _ _) _) _
      (fun room => room_removeClient room t) fun _ _ hm => hm.1
  · exact sweeps_editRoom_of_none h₇ hnone _ fun _ _ hm => hm.1

/-- Removing a banned client from the room and telling it so. -/
theorem post_expelBanned {H : ServerHall} (hs : Hall.Sweeps H s.hall) (e : Env) (r u : Bytes)
    (t : SOCKET) : (expelBanned r u t).post e s fun _ s' =>
      Hall.Sweeps ((H.tell t fun _ => .blank).editRoom r (·.remove t)) s'.hall := by
  simp only [expelBanned, Block.post_bind, post_getCurrentTimestamp, post_sendToClient,
    post_broadcastToAll, post_tellRoom]
  have h₁ := sweeps_send_of_quiet hs (quiet_systemText (e.wall 0)
    (str "You have been banned from the room by the owner")) t
  have h₂ := sweeps_send h₁ t (str "KICKED_FROM_ROOM\n")
  rw [funext viewLine_kicked] at h₂
  exact sweeps_editRoom (sweeps_sendAll h₂ (quiet_systemText _ _) _) _
    (fun room => room_removeClient room t) fun _ _ hm => hm.1

/-- `handleBanCommand`. -/
theorem wp_handleBanCommand (hready : Ready s sock) (params : Bytes) :
    (handleBanCommand sock params).wp Rely
      (fun _ s' => Does ((Command.ban params).Asks sock) s.hall s'.hall) s := by
  rw [handleBanCommand, Prog.wp_ite]
  refine ⟨fun _ => wp_answer (.refl _) (quiet_errorText _) sock, fun hne => ?_⟩
  rw [List.isEmpty_iff] at hne
  rw [Prog.wp_bind]
  refine wp_clientInfo (.refl _) fun s₁ h₁ hc => ?_
  generalize s₁.info sock = client at hc
  rw [Prog.wp_ite]
  refine ⟨fun _ => wp_answer h₁ (quiet_errorText _) sock, fun hin => ?_⟩
  rw [Prog.wp_ite]
  refine ⟨fun _ => wp_answer h₁ (quiet_errorText _) sock, fun hown => ?_⟩
  rw [Prog.wp_ite]
  refine ⟨fun _ => wp_answer h₁ (quiet_errorText _) sock, fun hother => ?_⟩
  rw [beq_iff_eq] at hother
  obtain ⟨hr, hrules⟩ := rules_of_guards hc hin hown
  have hquiet : Quiet (str "SUCCESS: User " ++ trim params ++ str " has been banned\n") := by
    rw [List.append_assoc]
    exact quiet_append (p := str "SUCCESS:") (by decide) (str " User " ++ _)
  -- the ban is recorded in the room and in the database
  have hban : ∀ (e : Env) (s' : Globals), Hall.Sweeps s.hall s'.hall →
      ((tellRoom client.roomId fun room => room.banUser (trim params)) >>= fun _ =>
        tellDatabase 0 fun _ calls db => db.addBan calls client.roomId (trim params)).post e s'
          fun _ s'' => Hall.Sweeps (s.hall.editRoom client.roomId (·.ban (trim params)))
            s''.hall := by
    intro e s' h
    simp only [Block.post_bind, post_tellRoom, post_tellDatabase]
    exact sweeps_editRoom h _ (fun room => room_banUser room (trim params)) fun _ => subset_rfl
  rw [Prog.wp_bind]
  refine wp_findClientByUsername h₁ ((s.person_hall_eq_none _).2 hready.valid) hr
    (fun s₂ h₂ hnobody => ?_) fun t s₂ h₂ ht hn hp => ?_
  · rw [Prog.wp_holding, Prog.wp_bind]
    refine wp_step h₂ fun e₃ s₃ h₃ => ?_
    rw [post_roomExists, Prog.wp_ite]
    refine ⟨fun _ => ?_, fun _ => .pass h₃⟩
    rw [Prog.wp_bind]
    refine wp_step h₃ fun e₄ s₄ h₄ => Block.post_mono (hban e₄ s₄ h₄) fun _ s₅ h₅ => ?_
    rw [if_pos rfl]
    refine Prog.wp_mono (fun _ s₆ h₆ => ?_) _ _ (wp_reply h₅ hquiet sock)
    exact Does.of_op (.ban sock client.roomId (trim params) none) ⟨_, _, rfl⟩
      ⟨hrules, hne, hnobody⟩ h₆
  · have hself : sock ≠ t := by
      rintro rfl
      rw [hc] at hn
      exact hother hn.symm
    rw [Prog.wp_holding, Prog.wp_bind]
    refine wp_step h₂ fun e₃ s₃ h₃ => ?_
    rw [post_roomExists, Prog.wp_ite]
    refine ⟨fun _ => ?_, fun _ => .pass h₃⟩
    rw [Prog.wp_bind]
    refine wp_step h₃ fun e₄ s₄ h₄ => Block.post_mono (hban e₄ s₄ h₄) fun _ s₅ h₅ => ?_
    rw [if_neg ht, Prog.wp_bind]
    refine wp_step h₅ fun e₆ s₆ h₆ =>
      Block.post_mono (post_expelBanned h₆ e₆ _ _ t) fun _ s₇ h₇ => ?_
    rw [Prog.wp_bind]
    refine wp_critical h₇ _ fun e₈ s₈ h₈ => ?_
    have h₉ := sweeps_setInfo h₈ t (f := fun c => { c with roomId := [], isRoomOwner := false })
      (g := fun p => { p with place := none, owner := false }) (fun _ => rfl)
    refine Prog.wp_mono (fun _ s₁₀ h₁₀ => ?_) _ _ (wp_reply h₉ hquiet sock)
    refine Does.of_op (.ban sock client.roomId (trim params) (some t)) ⟨_, _, rfl⟩
      ⟨hrules, hself, hne, hn, hp⟩ ?_
    have hp' : ((s.hall.editRoom client.roomId (·.ban (trim params))).entry t).place =
        some client.roomId := hp
    rw [Hall.Op.apply, Hall.detach, Hall.vacate_of_place hp']
    exact h₁₀

/-- `handleTransferCommand`. -/
theorem wp_handleTransferCommand (hready : Ready s sock) (params : Bytes) :
    (handleTransferCommand sock params).wp Rely
      (fun _ s' => Does ((Command.transfer params).Asks sock) s.hall s'.hall) s := by
  rw [handleTransferCommand, Prog.wp_ite]
  refine ⟨fun _ => wp_answer (.refl _) (quiet_errorText _) sock, fun hne => ?_⟩
  rw [List.isEmpty_iff] at hne
  rw [Prog.wp_bind]
  refine wp_clientInfo (.refl _) fun s₁ h₁ hc => ?_
  generalize s₁.info sock = client at hc
  rw [Prog.wp_ite]
  refine ⟨fun _ => wp_answer h₁ (quiet_errorText _) sock, fun hin => ?_⟩
  rw [Prog.wp_ite]
  refine ⟨fun _ => wp_answer h₁ (quiet_errorText _) sock, fun hown => ?_⟩
  rw [Prog.wp_ite]
  refine ⟨fun _ => wp_answer h₁ (quiet_errorText _) sock, fun hother => ?_⟩
  rw [beq_iff_eq] at hother
  obtain ⟨hr, hrules⟩ := rules_of_guards hc hin hown
  rw [Prog.wp_bind]
  -- nobody of that name in the room: a refusal
  refine wp_findClientByUsername h₁ ((s.person_hall_eq_none _).2 hready.valid) hr
    (fun s₂ h₂ _ => ?_) fun t s₂ h₂ ht hn hp => ?_
  · rw [if_pos rfl]
    exact wp_answer h₂ (quiet_errorText _) sock
  have hself : sock ≠ t := by
    rintro rfl
    rw [hc] at hn
    exact hother hn.symm
  rw [if_neg ht, Prog.wp_holding, Prog.wp_bind]
  refine wp_step h₂ fun e₃ s₃ h₃ => ?_
  rw [post_roomExists, Prog.wp_ite]
  refine ⟨fun hroom => ?_, fun _ => .pass h₃⟩
  have hexists : (s.hall.room client.roomId).isSome := by
    rw [Std.ExtTreeMap.contains_iff_mem, ← Globals.isSome_room_hall] at hroom
    obtain ⟨R, hR⟩ := Option.isSome_iff_exists.1 hroom
    simp [h₃.room_of_some hR]
  rw [Prog.wp_bind]
  refine wp_step h₃ fun e₄ s₄ h₄ => ?_
  -- the owner of the room, then the two flags, then the notices
  have h₅ := sweeps_editRoom h₄ client.roomId (fun room => room_setOwner room t)
    fun _ => subset_rfl
  rw [post_tellRoom]
  refine wp_critical h₅ _ fun e₆ s₆ h₆ => ?_
  have h₇ := sweeps_setInfo h₆ sock (f := fun c => { c with isRoomOwner := false })
    (g := fun p => { p with owner := false }) (fun _ => rfl)
  have h₈ := sweeps_setInfo h₇ t (f := fun c => { c with isRoomOwner := true })
    (g := fun p => { p with owner := true }) (fun _ => rfl)
  simp only [Block.post_bind, post_setClientInfo, post_tellDatabase, post_getCurrentTimestamp,
    post_broadcastToAll, post_sendToClient]
  have hquiet : Quiet (str "SUCCESS: Ownership transferred to " ++ trim params ++ str "\n") := by
    rw [List.append_assoc]
    exact quiet_append (p := str "SUCCESS:") (by decide)
      (str " Ownership transferred to " ++ _)
  -- what has been done is one transfer
  refine Does.of_op (.transfer sock t client.roomId (trim params)) ⟨_, _, rfl⟩
    ⟨hrules, hself, hne, hn, hp, hexists⟩ ?_
  rw [Hall.Op.apply, ← funext viewLine_ownership]
  exact sweeps_send (sweeps_send_of_quiet (sweeps_sendAll (sweeps_database h₈ _)
    (quiet_systemText _ _) _) hquiet sock) t _

/-- `handleChangePasswordCommand`. -/
theorem wp_handleChangePasswordCommand (params : Bytes) :
    (handleChangePasswordCommand sock params).wp Rely
      (fun _ s' => Does ((Command.changePassword params).Asks sock) s.hall s'.hall) s := by
  rw [handleChangePasswordCommand, Prog.wp_ite]
  refine ⟨fun _ => wp_answer (.refl _) (quiet_errorText _) sock, fun _ => ?_⟩
  rw [Prog.wp_bind]
  refine wp_clientInfo (.refl _) fun s₁ h₁ hc => ?_
  generalize s₁.info sock = client at hc
  rw [Prog.wp_ite]
  refine ⟨fun _ => wp_answer h₁ (quiet_errorText _) sock, fun hin => ?_⟩
  rw [Prog.wp_ite]
  refine ⟨fun _ => wp_answer h₁ (quiet_errorText _) sock, fun hown => ?_⟩
  obtain ⟨-, hrules⟩ := rules_of_guards hc hin hown
  refine wp_critical h₁ _ fun e₂ s₂ h₂ => ?_
  simp only [Block.post_bind, post_roomExists, Block.post_ite, post_askRoom, post_sendToClient,
    post_tellRoom, post_tellDatabase, post_getCurrentTimestamp, post_broadcast, Block.post_pure]
  refine ⟨fun _ => ⟨fun _ => ?_, fun _ => ?_⟩, fun _ => .pass h₂⟩
  · exact Does.pass (sweeps_send_of_quiet h₂ (quiet_errorText _) sock)
  · have hquiet : Quiet (str "PASSWORD_CHANGED:" ++ trim params ++ str "\n") := by
      rw [List.append_assoc]
      exact quiet_append (by decide) _
    have h₃ := sweeps_editRoom h₂ client.roomId
      (fun room => room_setPassword room (trim params)) fun _ => subset_rfl
    refine Does.of_op (.setPassword sock client.roomId (trim params)) ⟨_, rfl⟩ hrules ?_
    exact sweeps_sendAll (sweeps_send_of_quiet (sweeps_database h₃ _) hquiet sock)
      (quiet_systemText _ _) _

/-- The hall in which `r` has been handed to a successor, if there is one. -/
noncomputable def handedOver (h : ServerHall) (r : Bytes) (told : Bool) :
    Option SOCKET → ServerHall
  | none => h
  | some t => (h.promote t r).tell t fun v => if told then { v with owner := true } else v

theorem apply_forceLeave (h : ServerHall) (r : Bytes) (t : Option SOCKET) (told : Bool) :
    (Hall.Op.forceLeave sock r t told).apply h =
      ((handedOver h r told t).detach sock).tell sock fun _ => .blank := by
  cases t <;> rfl

theorem entry_handedOver {h : ServerHall} (r : Bytes) (told : Bool) {t : Option SOCKET}
    (ht : t ≠ some sock) : (handedOver h r told t).entry sock = h.entry sock := by
  cases t with
  | none => rfl
  | some t =>
      rw [handedOver, Hall.entry_tell, Hall.promote, Hall.entry_setPerson, if_neg,
        Hall.entry_editRoom]
      rintro rfl
      exact ht rfl

/-- The promotion of a member: it is connected and handed the room, or nothing happens. -/
theorem wp_promoteOther {H : ServerHall} (hs : Hall.Sweeps H s.hall)
    (hbad : H.person INVALID_SOCKET = none) {r : Bytes} {t : SOCKET}
    (ht : t = INVALID_SOCKET ∧ (H.membersOf r).Subsingleton ∨ t ∈ H.membersOf r ∧ t ≠ sock)
    {Q : Bytes → Globals → Prop}
    (hnobody : ∀ s', Hall.Sweeps H s'.hall →
      ((H.membersOf r).Subsingleton ∨ ∃ t ∈ H.membersOf r, H.person t = none) → Q [] s')
    (hpromoted : ∀ s', Hall.Sweeps (H.promote t r) s'.hall → t ∈ H.membersOf r → t ≠ sock →
      (H.person t).isSome → Q (H.entry t).name s') :
    (promoteOther r t sock).wp Rely Q s := by
  rw [promoteOther, Prog.wp_ite]
  refine ⟨fun ⟨hvalid, hother⟩ => ?_, fun hcond => hnobody s hs ?_⟩
  · obtain ⟨hmem, -⟩ := ht.resolve_left fun h => hvalid h.1
    refine wp_critical hs _ fun e₁ s₁ h₁ => Block.post_mono (post_promoteNewOwner e₁ s₁ r t) ?_
    rintro name s₂ (⟨hconn, rfl, h₂⟩ | ⟨hconn, rfl, rfl⟩)
    · rw [h₁.entry]
      refine hpromoted s₂ ?_ hmem hother ?_
      · rw [h₂]
        exact (h₁.editRoom r (·.setOwner t) fun _ => subset_rfl).setPerson _ _
      · rw [← h₁.person]
        exact (s₁.isSome_person_hall t).2 hconn
    · refine hnobody s₂ h₁ (Or.inr ⟨t, hmem, ?_⟩)
      rw [← h₁.person]
      exact (s₂.person_hall_eq_none t).2 hconn
  · rcases ht with ⟨-, hsub⟩ | ⟨hmem, hother⟩
    · exact Or.inl hsub
    · have ht : t = INVALID_SOCKET := by
        by_contra hvalid
        exact hcond ⟨hvalid, hother⟩
      exact Or.inr ⟨t, hmem, ht ▸ hbad⟩

/-- The part of FORCELEAVE under `g_chatRoomsMutex`. -/
theorem wp_handOverRoom {s₀ : Globals} (hs : Rely s₀ s) (hbad : INVALID_SOCKET ∉ s₀.clients)
    {client : ClientInfo} (hrules : s₀.hall.Rules sock client.roomId) :
    (handOverRoom sock client).wp Rely (fun _ s' => ∃ t told,
      (Hall.Op.forceLeave sock client.roomId t told).Permitted INVALID_SOCKET s₀.hall ∧
        HeedsSeniority s₀ (.forceLeave sock client.roomId t told) ∧ t ≠ some sock ∧
        Hall.Sweeps ((handedOver s₀.hall client.roomId told t).editRoom client.roomId
          (·.remove sock)) s'.hall) s := by
  have hnobody := (s₀.person_hall_eq_none _).2 hbad
  rw [handOverRoom, Prog.wp_holding, Prog.wp_bind]
  refine wp_step_rely hs fun e₁ s₁ h₁ => ?_
  rw [post_roomExists, Prog.wp_ite]
  refine ⟨fun _ => ?_, fun hnone => ⟨none, false, ⟨hrules, Or.inl ?_⟩, trivial, by simp, ?_⟩⟩
  · rw [Prog.wp_bind]
    refine wp_step_rely h₁ fun e₂ s₂ h₂ => ?_
    refine Block.post_mono (post_chooseNewOwner e₂ s₂ client.roomId sock) ?_
    rintro t s₃ ⟨rfl, hchoice⟩
    rw [h₂.sweeps.membersOf] at hchoice
    rw [Prog.wp_bind]
    -- nobody takes over, or the member that was chosen does
    refine wp_promoteOther h₂.sweeps hnobody (hchoice.imp_right (·.1)) (fun s₄ h₄ hcase => ?_)
      fun s₄ h₄ hmem hother hconn => ?_
    · refine wp_step h₄ fun e₅ s₅ h₅ =>
        Block.post_mono (post_announceForceLeave e₅ s₅ _ _ _ t sock) fun _ s₆ h₆ => ?_
      refine ⟨none, false, ⟨hrules, hcase⟩, trivial, by simp, ?_⟩
      rw [h₆, Hall.tell_of_id _ _ fun v => by simp]
      exact h₅.editRoom client.roomId (·.remove sock) fun _ _ hm => hm.1
    · have hheir := hchoice.resolve_left fun h => by simp [h.1, hnobody] at hconn
      refine wp_step h₄ fun e₅ s₅ h₅ =>
        Block.post_mono (post_announceForceLeave e₅ s₅ _ _ _ t sock) fun _ s₆ h₆ => ?_
      refine ⟨some t, decide ((s₀.hall.entry t).name ≠ []),
        ⟨hrules, Ne.symm hother, hmem, hconn, decide_eq_true_iff⟩, h₂.heir hheir.2, ?_, ?_⟩
      · simpa using hother
      · rw [h₆]
        exact (h₅.tell t fun v => if decide ((s₀.hall.entry t).name ≠ []) then
          { v with owner := true } else v).editRoom client.roomId (·.remove sock)
            fun _ _ hm => hm.1
  · -- a room that is gone has no members
    intro x hx
    rw [← h₁.sweeps.membersOf] at hx
    obtain ⟨R, hR, -⟩ := hx
    rw [room_hall_eq_none hnone] at hR
    simp at hR
  · exact sweeps_editRoom_of_none h₁.sweeps hnone _ fun _ _ hm => hm.1

/-- `handleForceLeaveCommand`. -/
theorem wp_handleForceLeaveCommand (hready : Ready s sock) : (handleForceLeaveCommand sock).wp Rely
    (fun _ s' => Does (fun op => Command.forceLeave.Asks sock op ∧ HeedsSeniority s op)
      s.hall s'.hall) s := by
  rw [handleForceLeaveCommand, Prog.wp_bind]
  refine (Prog.wp_holding _ _ _).2 (wp_step_rely (.refl s) fun e₁ s₁ h₁ => ?_)
  rw [post_clientInfo]
  have hc : s.hall.entry sock = (s₁.info sock).person := by
    rw [← h₁.sweeps.entry, Globals.entry_hall]
  generalize s₁.info sock = client at hc
  rw [Prog.wp_ite]
  refine ⟨fun _ => wp_answer h₁.sweeps (quiet_errorText _) sock, fun hin => ?_⟩
  rw [Prog.wp_ite]
  refine ⟨fun _ => wp_answer h₁.sweeps (quiet_errorText _) sock, fun hown => ?_⟩
  obtain ⟨-, hrules⟩ := rules_of_guards hc hin hown
  rw [Prog.wp_bind]
  refine Prog.wp_mono ?_ _ _ (wp_handOverRoom h₁ hready.valid hrules)
  rintro - s₂ ⟨t, told, hperm, hheeds, hself, h₂⟩
  rw [Prog.wp_bind]
  refine wp_critical h₂ _ fun e₃ s₃ h₃ => ?_
  have h₄ := sweeps_setInfo h₃ sock (f := fun c => { c with roomId := [], isRoomOwner := false })
    (g := fun p => { p with place := none, owner := false }) (fun _ => rfl)
  refine wp_step h₄ fun e₅ s₅ h₅ => ?_
  have h₆ := sweeps_send h₅ sock (str "LEFT_ROOM\n")
  rw [funext viewLine_left] at h₆
  refine Does.of_op (.forceLeave sock client.roomId t told) ⟨⟨_, _, _, rfl⟩, hheeds⟩ hperm ?_
  have hplace : ((handedOver s.hall client.roomId told t).entry sock).place =
      some client.roomId := by
    rw [entry_handedOver _ _ hself]
    exact hrules.1
  rw [apply_forceLeave, Hall.detach, Hall.vacate_of_place hplace]
  exact h₆

/-! ### Requests -/

theorem wp_pushMessage {asks : ServerOp → Prop} {s' : Globals}
    (hs : Hall.Sweeps s.hall s'.hall) (msg : Message) :
    (pushMessage msg).wp Rely (fun _ s'' => Does asks s.hall s''.hall) s' :=
  wp_critical hs _ fun _ _ h => Does.pass h

/-- Only FORCELEAVE hands on ownership to an heir. -/
theorem Command.Asks.heedsSeniority {c : Command} (hc : c ≠ .forceLeave) {op : ServerOp}
    (ha : c.Asks sock op) : HeedsSeniority s op := by
  cases op with
  | forceLeave _ _ _ _ => cases c <;> simp [Command.Asks] at ha hc
  | _ => trivial

/-- The handler of a command. -/
theorem wp_runCommand (hready : Ready s sock) (c : Command) : (runCommand sock c).wp Rely
    (fun _ s' => Does (fun op => c.Asks sock op ∧ HeedsSeniority s op) s.hall s'.hall) s := by
  by_cases hc : c = .forceLeave
  · rw [hc]
    exact wp_handleForceLeaveCommand hready
  · have h : (runCommand sock c).wp Rely (fun _ s' => Does (c.Asks sock) s.hall s'.hall) s := by
      cases c with
      | create params => exact wp_handleCreateCommand hready params
      | join params => exact wp_handleJoinCommand hready params
      | setName name => exact wp_handleSetNameCommand hready name
      | list => exact wp_handleListCommand
      | getPassword => exact wp_handleGetPasswordCommand
      | users => exact wp_handleUsersCommand
      | kick params => exact wp_handleKickCommand hready params
      | ban params => exact wp_handleBanCommand hready params
      | transfer params => exact wp_handleTransferCommand hready params
      | leave => exact wp_handleLeaveCommand
      | forceLeave => exact absurd rfl hc
      | changePassword params => exact wp_handleChangePasswordCommand params
      | unknown => exact wp_answer (.refl _) (quiet_errorText _) sock
    exact Prog.wp_mono (fun _ _ hd => hd.mono fun _ ha => ⟨ha, ha.heedsSeniority hc⟩) _ _ h

/-- The handler of a request. -/
theorem wp_runRequest (hready : Ready s sock) (r : Request) : (runRequest sock r).wp Rely
    (fun _ s' => Does (fun op => r.Asks sock op ∧ HeedsSeniority s op) s.hall s'.hall) s := by
  cases r with
  | command c => exact wp_runCommand hready c
  | badPrivateMessage => exact wp_answer (.refl _) (quiet_errorText _) sock
  | privateMessage recipientName content =>
      rw [runRequest, Prog.wp_bind]
      refine wp_clientInfo (.refl _) fun s₁ h₁ hc => ?_
      rw [Prog.wp_ite]
      refine ⟨fun _ => wp_answer h₁ (quiet_errorText _) sock, fun _ => ?_⟩
      rw [Prog.wp_ite]
      exact ⟨fun _ => wp_answer h₁ (quiet_errorText _) sock, fun _ => wp_pushMessage h₁ _⟩
  | chat text =>
      rw [runRequest, Prog.wp_bind]
      refine wp_clientInfo (.refl _) fun s₁ h₁ hc => ?_
      rw [Prog.wp_ite]
      exact ⟨fun _ => wp_answer h₁ (quiet_errorText _) sock, fun _ => wp_pushMessage h₁ _⟩

/-- Every handler refines an operation that its event asks for. -/
theorem wp_handler {ev : Event} (hev : ev.CanOccur s) (hvalid : INVALID_SOCKET ∉ s.clients) :
    ev.handler.wp Rely (fun _ s' =>
      Does (fun op => ev.Asks op ∧ HeedsSeniority s op) s.hall s'.hall) s := by
  cases ev with
  | connect sock =>
      refine Prog.wp_mono (fun _ _ hd => hd.mono fun _ ha => ⟨ha, ?_⟩) _ _
        (wp_acceptClient hev.1 hev.2)
      rw [ha]
      exact trivial
  | hangup sock =>
      refine Prog.wp_mono (fun _ _ hd => hd.mono fun _ ha => ⟨ha, ?_⟩) _ _
        wp_handleClientDisconnect
      rw [ha]
      exact trivial
  | receive sock buffer =>
      show (handleClientMessage sock buffer).wp Rely _ s
      rw [handleClientMessage]
      cases ht : actedText buffer with
      | none => exact Does.pass (.refl _)
      | some text =>
          refine Prog.wp_mono (fun _ s' h => ?_) _ _
            (wp_runRequest ⟨hev.1, hvalid⟩ (parseText text))
          exact h.mono fun op hop => ⟨⟨text, ht, hop.1⟩, hop.2⟩

end Handlers

end TerminalChat.Server
