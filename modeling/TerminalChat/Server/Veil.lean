import Mathlib
import TerminalChat.Concurrency.Lockstep
import TerminalChat.Server.Connections
import TerminalChat.Server.Lifecycle

/-!
# Behind a veil

Two states of the server that differ in the content of one message (`Veiled`), wherever it has got to: the
queue, the table of messages, and the memory of the room when the message is public. What a socket outside
has been sent is the same in both. No handler looks behind the veil, except that JOIN replays what it
finds there to the client it admits.
-/

set_option autoImplicit false

namespace TerminalChat.Server

open TerminalChat.Concurrency TerminalChat.Text

/-- The bytes that the server has sent to a socket. -/
def received (t : SOCKET) (net : List NetOp) : Bytes :=
  net.flatMap fun op => match op with
    | .sent sock text => if sock = t then text else []
    | .replayed sock text => if sock = t then text else []
    | _ => []

/-- The messages are the same, or the marked one and the same with another content. -/
def Message.Masked (mark : Message) (other : Bytes) (m m' : Message) : Prop :=
  m' = m ∨ (m = mark ∧ m' = { mark with content := other })

/-- The rows are the same, or rows of the marked message that differ in their contents. -/
def RowMasked (mark : Message) (row row' : MessageRow) : Prop :=
  row' = row ∨ (row.roomId = cString mark.roomId ∧ row.isPrivate = mark.isPrivate ∧
    row' = { row with content := row'.content })

/-- The rooms differ at most in what they remember, and only where the marked message is public and has
been sent there. -/
def RoomMasked (mark : Message) (r : Bytes) (room room' : ChatRoom) : Prop :=
  ∃ history, room' = { room with messageHistory := history } ∧
    history.length = room.messageHistory.length ∧
      (history = room.messageHistory ∨ (mark.isPrivate = false ∧ r = mark.roomId))

/-- The databases differ at most in the contents of the marked message. -/
structure TablesMasked (mark : Message) (db db' : Database) : Prop where
  rooms : db'.rooms = db.rooms
  bans : db'.bans = db.bans
  messages : List.Forall₂ (RowMasked mark) db.messages db'.messages

/-- The states differ at most in the content of the marked message, which is `other` in the second one, and
the socket `t` has been sent the same. -/
structure Veiled (mark : Message) (other : Bytes) (t : SOCKET) (s s' : Globals) : Prop where
  clients : s'.clients = s.clients
  flag : s'.shutdownRequested = s.shutdownRequested
  polled : s'.pollFds = s.pollFds
  cleanups : s'.pendingCleanups = s.pendingCleanups
  clock : s'.steadyNow = s.steadyNow
  drawn : s'.drawnIds = s.drawnIds
  rooms : ∀ r, Option.Rel (RoomMasked mark r) s.chatRooms[r]? s'.chatRooms[r]?
  queue : List.Forall₂ (mark.Masked other) s.messageQueue s'.messageQueue
  tables : TablesMasked mark s.database s'.database
  heard : received t s'.net = received t s.net
  ids : ∀ r ∈ s.chatRooms, cString r = r

section Masks

variable {mark : Message} {other : Bytes} {m : Message} {row : MessageRow} {room : ChatRoom}
  {r : Bytes} {t : SOCKET} {net ops ops' : List NetOp}

theorem received_append (t : SOCKET) (net ops : List NetOp) :
    received t (net ++ ops) = received t net ++ received t ops := List.flatMap_append

/-- Operations that send nothing to the socket. -/
theorem received_of_others (h : ∀ op ∈ ops, ∀ text, op ≠ .sent t text ∧ op ≠ .replayed t text) :
    received t ops = [] := by
  rw [received, List.flatMap_eq_nil_iff]
  intro op hop
  cases op with
  | sent sock text =>
      dsimp only
      rw [if_neg]
      rintro rfl
      exact (h _ hop text).1 rfl
  | replayed sock text =>
      dsimp only
      rw [if_neg]
      rintro rfl
      exact (h _ hop text).2 rfl
  | accepted sock => rfl
  | closed sock => rfl

theorem Message.Masked.refl (m : Message) : mark.Masked other m m := Or.inl rfl

theorem RowMasked.refl (row : MessageRow) : RowMasked mark row row := Or.inl rfl

theorem RoomMasked.refl (room : ChatRoom) : RoomMasked mark r room room :=
  ⟨room.messageHistory, rfl, rfl, Or.inl rfl⟩

theorem TablesMasked.refl (db : Database) : TablesMasked mark db db :=
  ⟨rfl, rfl, List.forall₂_same.2 fun row _ => .refl row⟩

/-- A state differs in nothing from itself. -/
theorem Veiled.refl {s : Globals} (h : ∀ r ∈ s.chatRooms, cString r = r) :
    Veiled mark other t s s := by
  refine ⟨rfl, rfl, rfl, rfl, rfl, rfl, fun r => ?_, List.forall₂_same.2 fun m _ => .refl m,
    .refl _, rfl, h⟩
  cases s.chatRooms[r]? with
  | none => exact .none
  | some room => exact .some (.refl room)

end Masks

/-! ## What cannot be seen -/

/-- The function does not read what the room remembers. -/
def Unremembering {α : Type} (f : ChatRoom → α) : Prop :=
  ∀ (room : ChatRoom) (history : List Bytes), f { room with messageHistory := history } = f room

/-- The update leaves what the room remembers alone, and does not read it. -/
structure Oblivious (f : ChatRoom → ChatRoom) : Prop where
  keeps : ∀ room, (f room).messageHistory = room.messageHistory
  commutes : ∀ (room : ChatRoom) (history : List Bytes),
    f { room with messageHistory := history } = { f room with messageHistory := history }

section Seen

variable {mark : Message} {other : Bytes} {t : SOCKET} {s s' : Globals} {r : Bytes}

theorem Veiled.info (h : Veiled mark other t s s') (sock : SOCKET) : s'.info sock = s.info sock := by
  rw [Globals.info, Globals.info, h.clients]

theorem Veiled.ask {α : Type} (h : Veiled mark other t s s') {f : ChatRoom → α}
    (hf : Unremembering f) (r : Bytes) :
    (s'.chatRooms[r]?).map f = (s.chatRooms[r]?).map f := by
  have hroom := h.rooms r
  generalize s.chatRooms[r]? = o, s'.chatRooms[r]? = o' at hroom ⊢
  cases hroom with
  | none => rfl
  | some hmask =>
      obtain ⟨history, rfl, -⟩ := hmask
      rw [Option.map_some, Option.map_some, hf]

theorem Veiled.contains (h : Veiled mark other t s s') (r : Bytes) :
    s'.chatRooms.contains r = s.chatRooms.contains r := by
  have hask := congrArg Option.isSome (h.ask (f := fun _ => ()) (fun _ _ => rfl) r)
  rw [Std.ExtTreeMap.contains_eq_isSome_getElem?, Std.ExtTreeMap.contains_eq_isSome_getElem?]
  simpa using hask

theorem Veiled.mem_iff (h : Veiled mark other t s s') (r : Bytes) :
    r ∈ s'.chatRooms ↔ r ∈ s.chatRooms := by
  rw [← Std.ExtTreeMap.contains_iff_mem, ← Std.ExtTreeMap.contains_iff_mem, h.contains]

/-- What the list of rooms says does not depend on what the rooms remember. -/
theorem Veiled.toList_map {α : Type} (h : Veiled mark other t s s') {f : Bytes → ChatRoom → α}
    (hf : ∀ r, Unremembering (f r)) :
    s'.chatRooms.toList.map (fun p => (p.1, f p.1 p.2)) =
      s.chatRooms.toList.map fun p => (p.1, f p.1 p.2) := by
  have hmap : s'.chatRooms.map f = s.chatRooms.map f := by
    apply Std.ExtTreeMap.ext_getElem?
    intro r
    rw [Std.ExtTreeMap.getElem?_map, Std.ExtTreeMap.getElem?_map, h.ask (hf r)]
  have hlist := congrArg Std.ExtTreeMap.toList hmap
  rwa [Std.ExtTreeMap.toList_map, Std.ExtTreeMap.toList_map] at hlist

/-! ### Updates -/

/-- What is sent is the same, or it is not for the socket. -/
theorem Veiled.talk (h : Veiled mark other t s s') {ops ops' : List NetOp}
    (hops : received t ops' = received t ops) :
    Veiled mark other t { s with net := s.net ++ ops } { s' with net := s'.net ++ ops' } :=
  { h with
    heard := by
      rw [received_append, received_append, h.heard, hops] }

theorem Veiled.send (h : Veiled mark other t s s') (sock : SOCKET) (text : Bytes) :
    Veiled mark other t (s.send sock text) (s'.send sock text) := h.talk rfl

theorem Veiled.sendAll (h : Veiled mark other t s s') (socks : List SOCKET) (text : Bytes) :
    Veiled mark other t (s.sendAll socks text) (s'.sendAll socks text) := h.talk rfl

theorem Veiled.setInfo (h : Veiled mark other t s s') (sock : SOCKET)
    (f : ClientInfo → ClientInfo) :
    Veiled mark other t (s.setInfo sock f) (s'.setInfo sock f) :=
  { h with
    clients := by
      show s'.clients.insert sock (f (s'.info sock)) = s.clients.insert sock (f (s.info sock))
      rw [h.clients, h.info] }

/-- Both rooms are updated, each in its own way. -/
theorem Veiled.editRoom (h : Veiled mark other t s s') (q : Bytes) {f g : ChatRoom → ChatRoom}
    (hf : ∀ room room', RoomMasked mark q room room' → RoomMasked mark q (f room) (g room')) :
    Veiled mark other t (s.editRoom q f) (s'.editRoom q g) := by
  refine { h with rooms := fun r => ?_, ids := fun r hr => h.ids r (mem_editRoom.1 hr) }
  have hroom := h.rooms r
  rw [Globals.getElem?_editRoom, Globals.getElem?_editRoom]
  -- the edited room, and the others
  by_cases hq : q = r
  · subst hq
    rw [if_pos rfl, if_pos rfl]
    generalize s.chatRooms[q]? = o, s'.chatRooms[q]? = o' at hroom ⊢
    cases hroom with
    | none => exact .none
    | some hmask => exact .some (hf _ _ hmask)
  · rw [if_neg hq, if_neg hq]
    exact hroom

theorem RoomMasked.oblivious {room room' : ChatRoom} (h : RoomMasked mark r room room')
    {f : ChatRoom → ChatRoom} (hf : Oblivious f) : RoomMasked mark r (f room) (f room') := by
  obtain ⟨history, rfl, hlength, hsame⟩ := h
  refine ⟨history, hf.commutes room history, ?_, ?_⟩
  · rw [hf.keeps]
    exact hlength
  · rw [hf.keeps]
    exact hsame

theorem Veiled.tellRoom (h : Veiled mark other t s s') (q : Bytes) {f : ChatRoom → ChatRoom}
    (hf : Oblivious f) : Veiled mark other t (s.editRoom q f) (s'.editRoom q f) :=
  h.editRoom q fun _ _ hmask => hmask.oblivious hf

theorem Veiled.insertRoom (h : Veiled mark other t s s') {q : Bytes} (hq : cString q = q)
    (room : ChatRoom) : Veiled mark other t (s.insertRoom q room) (s'.insertRoom q room) := by
  refine { h with rooms := fun r => ?_, ids := fun r hr => ?_ }
  · rw [Globals.getElem?_insertRoom, Globals.getElem?_insertRoom]
    split
    · exact .some (.refl room)
    · exact h.rooms r
  · rw [Globals.insertRoom, Std.ExtTreeMap.mem_insert, Std.compare_eq_iff_eq] at hr
    rcases hr with rfl | hr
    · exact hq
    · exact h.ids r hr

theorem Veiled.eraseRoom (h : Veiled mark other t s s') (q : Bytes) : Veiled mark other t
    { s with chatRooms := s.chatRooms.erase q } { s' with chatRooms := s'.chatRooms.erase q } := by
  refine { h with rooms := fun r => ?_, ids := fun r hr => ?_ }
  · show Option.Rel _ (s.chatRooms.erase q)[r]? (s'.chatRooms.erase q)[r]?
    rw [Globals.getElem?_eraseRoom, Globals.getElem?_eraseRoom]
    split
    · exact .none
    · exact h.rooms r
  · exact h.ids r (Std.ExtTreeMap.mem_of_mem_erase hr)

theorem Veiled.draw (h : Veiled mark other t s s') (q : Bytes) :
    Veiled mark other t { s with drawnIds := q :: s.drawnIds }
      { s' with drawnIds := q :: s'.drawnIds } :=
  { h with drawn := congrArg (q :: ·) h.drawn }

/-- Messages that differ in the marked content are pushed. -/
theorem Veiled.push (h : Veiled mark other t s s') {m m' : Message} (hm : mark.Masked other m m') :
    Veiled mark other t { s with messageQueue := s.messageQueue ++ [m] }
      { s' with messageQueue := s'.messageQueue ++ [m'] } :=
  { h with queue := List.rel_append h.queue (.cons hm .nil) }

theorem Veiled.tellDatabase (h : Veiled mark other t s s') {f f' : Database → Database}
    (hf : ∀ db db', TablesMasked mark db db' → TablesMasked mark (f db) (f' db')) :
    Veiled mark other t { s with database := f s.database } { s' with database := f' s'.database } :=
  { h with tables := hf _ _ h.tables }

end Seen

/-! ## Even blocks -/

section Blocks

variable {mark : Message} {other : Bytes} {t : SOCKET} {α : Type}

/-- A block that reads what is in front of the veil. -/
theorem even_ask {f : Env → Globals → α} {ms : List Leaf}
    (hf : ∀ e s s', Veiled mark other t s s' → f e s' = f e s) :
    (⟨fun e s => ⟨f e s, s, ms⟩⟩ : Sect α).Even (Veiled mark other t) Whatever :=
  ⟨fun _ _ => trivial, fun e s s' hs _ => ⟨hf e s s' hs, rfl, hs⟩⟩

/-- A block that updates both states in the same way. -/
theorem even_tell {f : Env → Globals → Globals} {ms : List Leaf}
    (hf : ∀ e s s', Veiled mark other t s s' → Veiled mark other t (f e s) (f e s')) :
    (⟨fun e s => ⟨(), f e s, ms⟩⟩ : Sect Unit).Even (Veiled mark other t) Whatever :=
  ⟨fun _ _ => trivial, fun e s s' hs _ => ⟨rfl, rfl, hf e s s' hs⟩⟩

theorem even_sendToClient (sock : SOCKET) (text : Bytes) :
    (sendToClient sock text).Even (Veiled mark other t) Whatever :=
  even_tell fun _ _ _ hs => hs.send sock text

theorem even_getCurrentTimestamp (k : Nat) :
    (getCurrentTimestamp k).Even (Veiled mark other t) Whatever := even_ask fun _ _ _ _ => rfl

theorem even_generateRoomId :
    generateRoomId.Even (Veiled mark other t) fun r => cString r = r :=
  ⟨fun e _ => cString_roomIdOf e.draw, fun e _ _ hs _ => ⟨rfl, rfl, hs.draw (roomIdOf e.draw)⟩⟩

theorem even_clientInfo (sock : SOCKET) :
    (clientInfo sock).Even (Veiled mark other t) Whatever := even_ask fun _ _ _ hs => hs.info sock

theorem even_clientRef (sock : SOCKET) : (clientRef sock).Even (Veiled mark other t) Whatever :=
  ⟨fun _ _ => trivial, fun _ _ _ hs _ => ⟨hs.info sock, rfl, hs.setInfo sock id⟩⟩

theorem even_setClientInfo (sock : SOCKET) (f : ClientInfo → ClientInfo) :
    (setClientInfo sock f).Even (Veiled mark other t) Whatever :=
  even_tell fun _ _ _ hs => hs.setInfo sock f

theorem even_roomExists (roomId : Bytes) :
    (roomExists roomId).Even (Veiled mark other t) Whatever :=
  even_ask fun _ _ _ hs => hs.contains roomId

theorem even_askRoom [Inhabited α] (roomId : Bytes) {f : ChatRoom → α} (hf : Unremembering f) :
    (askRoom roomId f).Even (Veiled mark other t) Whatever :=
  even_ask fun _ _ _ hs => congrArg (·.getD default) (hs.ask hf roomId)

theorem even_tellRoom (roomId : Bytes) {f : ChatRoom → ChatRoom} (hf : Oblivious f) :
    (tellRoom roomId f).Even (Veiled mark other t) Whatever :=
  even_tell fun _ _ _ hs => hs.tellRoom roomId hf

theorem oblivious_addClient (sock : SOCKET) (now : Nat) :
    Oblivious fun room => room.addClient sock now := ⟨fun _ => rfl, fun _ _ => rfl⟩

theorem even_addClient (roomId : Bytes) (sock : SOCKET) :
    (addClient roomId sock).Even (Veiled mark other t) Whatever := by
  apply even_tell
  intro _ s s' hs
  rw [hs.clock]
  exact hs.tellRoom roomId (oblivious_addClient sock s.steadyNow)

theorem even_longestMember (roomId : Bytes) :
    (longestMember roomId).Even (Veiled mark other t) Whatever := by
  apply even_ask
  intro _ s s' hs
  rw [hs.clock, hs.ask fun _ _ => rfl]

theorem even_broadcast (roomId text : Bytes) (sock : SOCKET) :
    (broadcast roomId text sock).Even (Veiled mark other t) Whatever := by
  apply even_tell
  intro _ s s' hs
  rw [hs.ask fun _ _ => rfl]
  exact hs.sendAll _ text

theorem even_broadcastToAll (roomId text : Bytes) :
    (broadcastToAll roomId text).Even (Veiled mark other t) Whatever := by
  apply even_tell
  intro _ s s' hs
  rw [hs.ask fun _ _ => rfl]
  exact hs.sendAll _ text

theorem even_tellDatabase (k : Nat) {f : Env → (Nat → Bool) → Database → Database}
    (hf : ∀ e calls db db', TablesMasked mark db db' →
      TablesMasked mark (f e calls db) (f e calls db')) :
    (tellDatabase k f).Even (Veiled mark other t) Whatever :=
  even_tell fun e _ _ hs => hs.tellDatabase (hf e _)

theorem even_askDatabase (k : Nat) {f : Env → (Nat → Bool) → Database → α}
    (hf : ∀ e calls db db', TablesMasked mark db db' → f e calls db' = f e calls db) :
    (askDatabase k f).Even (Veiled mark other t) Whatever :=
  even_ask fun e _ _ hs => hf e _ _ _ hs.tables

theorem even_spawnCleanup (roomId : Bytes) :
    (spawnCleanup roomId).Even (Veiled mark other t) Whatever :=
  even_tell fun _ _ _ hs => { hs with cleanups := congrArg (· ++ [roomId]) hs.cleanups }

end Blocks

/-! ## The tables -/

section Tables

variable {mark : Message} {db db' : Database} {calls : Nat → Bool} {roomId : Bytes}

/-- An operation that has nothing to do with the messages. -/
theorem TablesMasked.unread (h : TablesMasked mark db db') {f : Database → Database}
    (hf : ∀ (db : Database) (rows : List MessageRow),
      f { db with messages := rows } = { f db with messages := rows }) :
    TablesMasked mark (f db) (f db') := by
  have hdb' : db' = { db with messages := db'.messages } := by
    rw [← h.rooms, ← h.bans]
  have hsame : f db = { f db with messages := db.messages } := hf db db.messages
  have hmessages : (f db).messages = db.messages := by
    rw [hsame]
  rw [hdb', hf db db'.messages]
  refine ⟨rfl, rfl, ?_⟩
  rw [hmessages]
  exact h.messages

theorem masked_createRoom (isPrivate : Bool) (owner password : Bytes)
    (h : TablesMasked mark db db') : TablesMasked mark
      (db.createRoom calls roomId isPrivate owner password)
      (db'.createRoom calls roomId isPrivate owner password) := by
  apply h.unread (f := fun db => db.createRoom calls roomId isPrivate owner password)
  intro db rows
  rw [Database.createRoom, Database.createRoom]
  by_cases hc : (calls 0 && calls 1 && !db.rooms.any fun row => row.roomId == cString roomId) = true
  · rw [if_pos hc, if_pos hc]
  · rw [if_neg hc, if_neg hc]

theorem masked_updateRoomOwner (owner : Bytes) (h : TablesMasked mark db db') :
    TablesMasked mark (db.updateRoomOwner calls roomId owner)
      (db'.updateRoomOwner calls roomId owner) := by
  apply h.unread (f := fun db => db.updateRoomOwner calls roomId owner)
  intro db rows
  rw [Database.updateRoomOwner, Database.updateRoomOwner]
  by_cases hc : (calls 0 && calls 1) = true
  · rw [if_pos hc, if_pos hc]
  · rw [if_neg hc, if_neg hc]

theorem masked_updateRoomPassword (password : Bytes) (h : TablesMasked mark db db') :
    TablesMasked mark (db.updateRoomPassword calls roomId password)
      (db'.updateRoomPassword calls roomId password) := by
  apply h.unread (f := fun db => db.updateRoomPassword calls roomId password)
  intro db rows
  rw [Database.updateRoomPassword, Database.updateRoomPassword]
  by_cases hc : (calls 0 && calls 1) = true
  · rw [if_pos hc, if_pos hc]
  · rw [if_neg hc, if_neg hc]

theorem masked_addBan (username : Bytes) (h : TablesMasked mark db db') :
    TablesMasked mark (db.addBan calls roomId username) (db'.addBan calls roomId username) := by
  apply h.unread (f := fun db => db.addBan calls roomId username)
  intro db rows
  rw [Database.addBan, Database.addBan]
  by_cases hc : (calls 0 && calls 1 && !db.bans.any fun row =>
      row.roomId == cString roomId && row.username == cString username) = true
  · rw [if_pos hc, if_pos hc]
  · rw [if_neg hc, if_neg hc]

/-- A deletion removes the rows of the marked message in both or in neither. -/
theorem masked_deleteRoom (h : TablesMasked mark db db') :
    TablesMasked mark (db.deleteRoom calls roomId).2 (db'.deleteRoom calls roomId).2 := by
  rw [Database.deleteRoom_eq, Database.deleteRoom_eq]
  refine ⟨?_, ?_, ?_⟩
  · rw [h.rooms]
  · rw [h.bans]
  · dsimp only
    split
    · apply List.rel_filter _ h.messages
      rintro row row' (rfl | ⟨-, -, hrow⟩)
      · exact Iff.rfl
      · rw [hrow]
    · exact h.messages

/-- Where every pair of masked rows is left out, the same rows are selected. -/
theorem filter_of_masked {p : MessageRow → Bool} {rows rows' : List MessageRow}
    (h : List.Forall₂ (RowMasked mark) rows rows')
    (hp : ∀ row, row.roomId = cString mark.roomId → row.isPrivate = mark.isPrivate → p row = false) :
    rows'.filter p = rows.filter p := by
  induction h with
  | nil => rfl
  | @cons row row' rows rows' hrow _ ih =>
      rcases hrow with rfl | ⟨hid, hprivate, hrow⟩
      · rw [List.filter_cons, List.filter_cons, ih]
      · have hout : p row = false := hp row hid hprivate
        have hout' : p row' = false := by
          rw [hrow]
          exact hp _ hid hprivate
        rw [List.filter_cons, List.filter_cons, hout, hout', if_neg (by decide), if_neg (by decide), ih]

/-- How many rows of a list SQLite steps through does not depend on the rows. -/
theorem length_stepped {rows rows' : List MessageRow} (h : rows'.length = rows.length) (k : Nat) :
    ((rows'.zipIdx k).takeWhile fun p => calls (p.2 + 1)).length =
      ((rows.zipIdx k).takeWhile fun p => calls (p.2 + 1)).length := by
  induction rows generalizing rows' k with
  | nil => rw [List.length_eq_zero_iff.1 h]
  | cons row rows ih =>
      obtain ⟨row', rows', rfl⟩ := List.exists_cons_of_length_eq_add_one h
      rw [List.zipIdx_cons, List.zipIdx_cons, List.takeWhile_cons, List.takeWhile_cons]
      split
      · rw [List.length_cons, List.length_cons, ih (by simpa using h)]
      · rfl

/-- The history of a room is as long in both databases. -/
theorem length_getMessageHistory (h : TablesMasked mark db db') (order : DescOrder) (limit : Nat) :
    (db'.getMessageHistory calls order roomId limit).length =
      (db.getMessageHistory calls order roomId limit).length := by
  rw [Database.getMessageHistory, Database.getMessageHistory]
  split
  · simp only [List.length_reverse, List.length_map]
    apply length_stepped
    rw [List.length_take, List.length_take, (order.perm _).length_eq, (order.perm _).length_eq]
    congr 1
    -- masked rows stand in the same rooms and are public alike, so as many are selected
    have hselected := List.rel_filter (R := RowMasked mark)
      (p := fun row => row.roomId == cString roomId && !row.isPrivate)
      (q := fun row => row.roomId == cString roomId && !row.isPrivate) (by
        rintro row row' (rfl | ⟨-, -, hrow⟩)
        · exact Iff.rfl
        · rw [hrow]) h.messages
    exact hselected.length_eq.symm
  · rfl

/-- The history of another room is the same, and so is every history when the marked message is
private. -/
theorem getMessageHistory_masked (h : TablesMasked mark db db') (order : DescOrder) (limit : Nat)
    (hroom : mark.isPrivate = false → cString mark.roomId ≠ cString roomId) :
    db'.getMessageHistory calls order roomId limit = db.getMessageHistory calls order roomId limit := by
  have hselected : db'.messages.filter (fun row => row.roomId == cString roomId && !row.isPrivate) =
      db.messages.filter fun row => row.roomId == cString roomId && !row.isPrivate := by
    apply filter_of_masked h.messages
    intro row hid hprivate
    cases hmark : mark.isPrivate with
    | true => simp [hprivate, hmark]
    | false => simp [hid, hroom hmark]
  rw [Database.getMessageHistory, Database.getMessageHistory, hselected]

end Tables

end TerminalChat.Server
