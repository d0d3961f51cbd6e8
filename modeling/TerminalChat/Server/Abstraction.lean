import Mathlib
import TerminalChat.Abstract.Runs
import TerminalChat.Client.ClientState
import TerminalChat.Server.Machine

/-!
# The hall of the server

The abstraction from the globals of the server to a hall (`Globals.hall`). Persons are the entries of
`g_clients`, rooms those of `g_chatRooms`, and the view of a client is what the lines sent to it say. Each
operation on the globals is matched by its counterpart on halls.
-/

set_option autoImplicit false

namespace TerminalChat.Server

open TerminalChat.Concurrency TerminalChat.Text TerminalChat.Abstract TerminalChat.Client

/-- Halls of sockets, room ids, user names and passwords. -/
abbrev ServerHall : Type := Hall SOCKET Bytes Bytes Bytes

/-- The person behind an entry of `g_clients`. -/
def ClientInfo.person (c : ClientInfo) : Person Bytes Bytes :=
  ⟨c.username, if c.roomId = [] then none else some c.roomId, c.isRoomOwner⟩

/-- The abstract room behind an entry of `g_chatRooms`. -/
def ChatRoom.room (room : ChatRoom) : Room SOCKET Bytes Bytes where
  members := {s | s ∈ room.clients}
  owner := room.ownerSocket
  bans := {u | u ∈ room.bannedUsers}
  isPrivate := room.isPrivate
  password := room.password

/-- What a socket operation tells a client about its place. -/
def viewStep (sock : SOCKET) (v : View Bytes) : NetOp → View Bytes
  | .accepted t => if t = sock then .blank else v
  | .sent t text => if t = sock then viewLine text v else v
  | .replayed _ _ => v
  | .closed _ => v

/-- What a client has been told about its place. -/
def viewOf (net : List NetOp) (sock : SOCKET) : View Bytes := net.foldl (viewStep sock) .blank

/-- The hall of the server. -/
def Globals.hall (s : Globals) : ServerHall where
  person sock := s.clients[sock]?.map ClientInfo.person
  room r := s.chatRooms[r]?.map ChatRoom.room
  view := viewOf s.net
  drawn := s.drawnIds

/-! ## Observations -/

theorem ClientInfo.person_injective : Function.Injective ClientInfo.person := by
  rintro ⟨n, r, o⟩ ⟨n', r', o'⟩ h
  simp only [ClientInfo.person, Person.mk.injEq] at h
  obtain ⟨rfl, h, rfl⟩ := h
  by_cases hr : r = []
  · by_cases hr' : r' = []
    · rw [hr, hr']
    · simp [hr, hr'] at h
  · by_cases hr' : r' = []
    · simp [hr, hr'] at h
    · simp only [hr, hr', if_false, Option.some.injEq] at h
      rw [h]

@[simp] theorem ClientInfo.name_person (c : ClientInfo) : c.person.name = c.username := rfl

@[simp] theorem ClientInfo.owner_person (c : ClientInfo) : c.person.owner = c.isRoomOwner := rfl

@[simp] theorem ClientInfo.place_person_eq_some (c : ClientInfo) (r : Bytes) :
    c.person.place = some r ↔ r ≠ [] ∧ c.roomId = r := by
  by_cases h : c.roomId = []
  · simp only [person, h, if_true, reduceCtorEq, false_iff]
    rintro ⟨h1, h2⟩
    exact h1 h2.symm
  · simp only [person, h, if_false, Option.some.injEq]
    constructor
    · rintro rfl
      exact ⟨h, rfl⟩
    · exact fun h' => h'.2

@[simp] theorem ClientInfo.place_person_eq_none (c : ClientInfo) :
    c.person.place = none ↔ c.roomId = [] := by
  by_cases h : c.roomId = []
  · simp [person, h]
  · simp [person, h]

namespace Globals

variable (s : Globals)

/-- The entry of a socket in the hall. -/
@[simp] theorem entry_hall (sock : SOCKET) : s.hall.entry sock = (s.info sock).person := by
  simp only [Hall.entry, hall, info]
  cases s.clients[sock]? with
  | none => rfl
  | some c => rfl

theorem isSome_person_hall (sock : SOCKET) : (s.hall.person sock).isSome ↔ sock ∈ s.clients := by
  simp [hall]

theorem person_hall_eq_none (sock : SOCKET) : s.hall.person sock = none ↔ sock ∉ s.clients := by
  rw [← Option.not_isSome_iff_eq_none, isSome_person_hall]

theorem isSome_room_hall (r : Bytes) : (s.hall.room r).isSome ↔ r ∈ s.chatRooms := by
  simp [hall]

theorem mem_membersOf_hall (r : Bytes) (sock : SOCKET) : sock ∈ s.hall.membersOf r ↔
    ∃ room, s.chatRooms[r]? = some room ∧ sock ∈ room.clients := by
  simp only [Hall.membersOf, hall, Option.map_eq_some_iff, Set.mem_ofPred_eq]
  constructor
  · rintro ⟨R, ⟨room, hr, rfl⟩, hm⟩
    exact ⟨room, hr, hm⟩
  · rintro ⟨room, hr, hm⟩
    exact ⟨room.room, ⟨room, hr, rfl⟩, hm⟩

theorem mem_bansOf_hall (r : Bytes) (n : Bytes) : n ∈ s.hall.bansOf r ↔
    ∃ room, s.chatRooms[r]? = some room ∧ n ∈ room.bannedUsers := by
  simp only [Hall.bansOf, hall, Option.map_eq_some_iff, Set.mem_ofPred_eq]
  constructor
  · rintro ⟨R, ⟨room, hr, rfl⟩, hm⟩
    exact ⟨room, hr, hm⟩
  · rintro ⟨room, hr, hm⟩
    exact ⟨room.room, ⟨room, hr, rfl⟩, hm⟩

theorem ownerAt_hall (r : Bytes) (o : SOCKET) : s.hall.ownerAt r = some o ↔
    ∃ room, s.chatRooms[r]? = some room ∧ room.ownerSocket = o := by
  simp only [Hall.ownerAt, hall, Option.map_eq_some_iff, Option.map_map, Function.comp_def]
  rfl

theorem rules_hall (sock : SOCKET) (r : Bytes) : s.hall.Rules sock r ↔
    (r ≠ [] ∧ (s.info sock).roomId = r) ∧ (s.info sock).isRoomOwner = true := by
  simp [Hall.Rules]

theorem room_hall_of_some {r : Bytes} {room : ChatRoom} (h : s.chatRooms[r]? = some room) :
    s.hall.room r = some room.room := by
  simp [hall, h]

variable {s}

/-- Two states swept from the same hall have the same entries. -/
theorem info_eq_of_sweeps {s' : Globals} {H : ServerHall} (h : Hall.Sweeps H s.hall)
    (h' : Hall.Sweeps H s'.hall) (sock : SOCKET) : s.info sock = s'.info sock := by
  have he := (h.entry sock).trans (h'.entry sock).symm
  rw [entry_hall, entry_hall] at he
  exact ClientInfo.person_injective he

theorem mem_clients_of_sweeps {s' : Globals} (h : Hall.Sweeps s.hall s'.hall) (sock : SOCKET) :
    sock ∈ s'.clients ↔ sock ∈ s.clients := by
  rw [← isSome_person_hall, ← isSome_person_hall, h.person]

end Globals

/-! ## The texts of the server -/

theorem quiet_errorText (text : String) : Quiet (errorText text) :=
  quiet_append (p := str "ERROR:") (by decide) (str " " ++ str text ++ str "\n")

theorem quiet_bracket (rest : Bytes) : Quiet (str "[" ++ rest) := quiet_append (by decide) rest

theorem quiet_systemText (t : LocalTm) (text : Bytes) : Quiet (systemText t.text text) := by
  have : systemText t.text text = str "[" ++ (twoDigits t.hour ++ str ":" ++ twoDigits t.min ++
      str ":" ++ twoDigits t.sec ++ str "]" ++ str " SYSTEM: " ++ text ++ str "\n") := by
    simp [systemText, LocalTm.text]
  rw [this]
  exact quiet_bracket _

theorem quiet_chatText (t : LocalTm) (senderName content : Bytes) :
    Quiet (chatText t.text senderName content) := by
  have : chatText t.text senderName content = str "[" ++ (twoDigits t.hour ++ str ":" ++
      twoDigits t.min ++ str ":" ++ twoDigits t.sec ++ str "]" ++ str " " ++ senderName ++
      str ": " ++ content ++ str "\n") := by
    simp [chatText, LocalTm.text]
  rw [this]
  exact quiet_bracket _

theorem quiet_privateText (t : LocalTm) (tag : String) (name content : Bytes) :
    Quiet (privateText t.text tag name content) := by
  have : privateText t.text tag name content = str "[" ++ (twoDigits t.hour ++ str ":" ++
      twoDigits t.min ++ str ":" ++ twoDigits t.sec ++ str "]" ++ str " " ++ str tag ++ name ++
      str ":" ++ content ++ str "\n") := by
    simp [privateText, LocalTm.text]
  rw [this]
  exact quiet_bracket _

theorem viewLine_notFound (v : View Bytes) :
    viewLine (str "ROOM_NOT_FOUND\n") v = { v with place := none } := by
  have h : responseOf (trim (str "ROOM_NOT_FOUND\n")) = .roomNotFound := by decide
  rw [viewLine, h]
  rfl

theorem viewLine_kicked (v : View Bytes) : viewLine (str "KICKED_FROM_ROOM\n") v = .blank := by
  have h : responseOf (trim (str "KICKED_FROM_ROOM\n")) = .kickedFromRoom := by decide
  rw [viewLine, h]
  rfl

theorem viewLine_left (v : View Bytes) : viewLine (str "LEFT_ROOM\n") v = .blank := by
  have h : responseOf (trim (str "LEFT_ROOM\n")) = .leftRoom := by decide
  rw [viewLine, h]
  rfl

theorem viewLine_ownership (v : View Bytes) :
    viewLine (str "OWNERSHIP_RECEIVED\n") v = { v with owner := true } := by
  have h : responseOf (trim (str "OWNERSHIP_RECEIVED\n")) = .ownershipReceived := by decide
  rw [viewLine, h]
  rfl

/-- `ROOM_JOINED` names the room that was joined. -/
theorem viewLine_joined {r : Bytes} (hr : Trimmed r) (v : View Bytes) :
    viewLine (str "ROOM_JOINED:" ++ r ++ str "\n") v = ⟨some r, false⟩ := by
  have h : responseOf (str "ROOM_JOINED:") = .roomJoined := by decide
  have hdrop : (r ++ str "\n").rdropWhile isBlank = r := by
    have hn : str "\n" = [newline] := rfl
    rw [hn, List.rdropWhile_concat_pos _ _ _ (by decide)]
    exact rdropWhile_of_trimmed hr
  rw [List.append_assoc, viewLine_append (by decide) (by decide) (by decide), h, hdrop]
  have hid : joinedRoomId (str "ROOM_JOINED:" ++ r) = r := hr
  simp [viewResponse, hid]

/-- `ROOM_CREATED` names the new room. -/
theorem viewLine_created {r : Bytes} (hr : ∀ c ∈ r, 48 ≤ c ∧ c ≤ 57) (isPrivate : Bool)
    (v : View Bytes) : viewLine (str "ROOM_CREATED:" ++ r ++ str ":" ++
      (if isPrivate then str "PRIVATE" else str "PUBLIC") ++ str "\n") v = ⟨some r, true⟩ := by
  have h : responseOf (str "ROOM_CREATED:") = .roomCreated := by decide
  obtain ⟨kind, hkind⟩ : ∃ kind : Bytes,
      (r ++ (str ":" ++ ((if isPrivate then str "PRIVATE" else str "PUBLIC") ++
        str "\n"))).rdropWhile isBlank = r ++ colon :: kind := by
    cases isPrivate with
    | true =>
        refine ⟨str "PRIVATE", ?_⟩
        have : r ++ (str ":" ++ (str "PRIVATE" ++ str "\n")) =
          (r ++ str ":PRIVAT") ++ [69] ++ [newline] := by
          simp only [List.append_assoc]
          rfl
        rw [if_pos rfl, this, List.rdropWhile_concat_pos _ _ _ (by decide),
          List.rdropWhile_concat_neg _ _ _ (by decide), List.append_assoc]
        rfl
    | false =>
        refine ⟨str "PUBLIC", ?_⟩
        have : r ++ (str ":" ++ (str "PUBLIC" ++ str "\n")) =
          (r ++ str ":PUBLI") ++ [67] ++ [newline] := by
          simp only [List.append_assoc]
          rfl
        rw [if_neg (by simp), this, List.rdropWhile_concat_pos _ _ _ (by decide),
          List.rdropWhile_concat_neg _ _ _ (by decide), List.append_assoc]
        rfl
  have hid : createdRoomId (str "ROOM_CREATED:" ++ (r ++ colon :: kind)) = r := by
    have hdrop : ((str "ROOM_CREATED:" ++ (r ++ colon :: kind)).dropWhile fun c => c != colon).drop 1
        = r ++ colon :: kind := rfl
    rw [createdRoomId, hdrop, List.takeWhile_append_of_pos]
    · simp only [bne_self_eq_false, Bool.false_eq_true, not_false_eq_true,
        List.takeWhile_cons_of_neg, List.append_nil]
      exact trimmed_of_digits hr
    · intro c hc
      have := (hr c hc).2
      simp only [bne_iff_ne]
      rintro rfl
      exact absurd this (by decide)
  simp only [List.append_assoc]
  rw [viewLine_append (by decide) (by decide) (by decide), h, hkind]
  simp [viewResponse, hid]

/-! ## Operations -/

section Operations

variable (s : Globals)

theorem viewOf_append (net net' : List NetOp) (sock : SOCKET) :
    viewOf (net ++ net') sock = net'.foldl (viewStep sock) (viewOf net sock) := by
  simp [viewOf]

/-- Sending a line tells the client what the line says. -/
theorem hall_send (sock : SOCKET) (text : Bytes) :
    (s.send sock text).hall = s.hall.tell sock (viewLine text) := by
  have hview : viewOf (s.net ++ [.sent sock text]) =
      Function.update (viewOf s.net) sock (viewLine text (viewOf s.net sock)) := by
    funext t
    rw [viewOf_append]
    by_cases ht : t = sock
    · simp [ht, viewStep]
    · simp [ht, Ne.symm ht, viewStep]
  simp only [Globals.hall, Globals.send, Hall.tell, hview]
  congr 1
  funext t
  simp [Function.update_apply]

theorem hall_send_of_quiet {text : Bytes} (h : Quiet text) (sock : SOCKET) :
    (s.send sock text).hall = s.hall := by
  rw [hall_send]
  exact Hall.tell_of_id _ _ h

/-- Socket operations that tell nothing keep the hall. -/
theorem hall_net {net' : List NetOp} (h : ∀ op ∈ net', ∀ sock v, viewStep sock v op = v) :
    ({ s with net := s.net ++ net' } : Globals).hall = s.hall := by
  have hview : viewOf (s.net ++ net') = viewOf s.net := by
    funext t
    rw [viewOf_append]
    induction net' with
    | nil => rfl
    | cons op net' ih =>
        rw [List.foldl_cons, h op List.mem_cons_self]
        exact ih fun op' hop' => h op' (List.mem_cons_of_mem _ hop')
  simp [Globals.hall, hview]

theorem hall_sendAll {text : Bytes} (h : Quiet text) (socks : List SOCKET) :
    (s.sendAll socks text).hall = s.hall := by
  refine hall_net s fun op hop sock v => ?_
  obtain ⟨t, -, rfl⟩ := List.mem_map.1 hop
  simp [viewStep, h v]

theorem hall_replay (sock : SOCKET) (history : List Bytes) :
    ({ s with net := s.net ++ history.map fun msg => .replayed sock msg } : Globals).hall =
      s.hall := by
  refine hall_net s fun op hop t v => ?_
  obtain ⟨msg, -, rfl⟩ := List.mem_map.1 hop
  rfl

/-- Accepting a connection blanks the view of the socket. -/
theorem hall_accepted (sock : SOCKET) :
    ({ s with net := s.net ++ [.accepted sock] } : Globals).hall =
      s.hall.tell sock fun _ => .blank := by
  have hview : viewOf (s.net ++ [.accepted sock]) =
      Function.update (viewOf s.net) sock .blank := by
    funext t
    rw [viewOf_append]
    by_cases ht : t = sock
    · simp [ht, viewStep]
    · simp [ht, Ne.symm ht, viewStep]
  simp only [Globals.hall, Hall.tell, hview]
  congr 1
  funext t
  simp [Function.update_apply]

/-- `g_clients[sock]` with an update is an update of the person. -/
theorem hall_setInfo (sock : SOCKET) {f : ClientInfo → ClientInfo}
    {g : Person Bytes Bytes → Person Bytes Bytes} (hf : ∀ c, (f c).person = g c.person) :
    (s.setInfo sock f).hall = s.hall.setPerson sock g := by
  have hperson : (s.setInfo sock f).hall.person = (s.hall.setPerson sock g).person := by
    funext t
    rw [Hall.person_setPerson, Globals.entry_hall, ← hf]
    by_cases ht : t = sock
    · simp [Globals.hall, Globals.setInfo, ht]
    · simp [Globals.hall, Globals.setInfo, ht, Ne.symm ht, Std.ExtTreeMap.getElem?_insert]
  show Hall.mk (s.setInfo sock f).hall.person s.hall.room s.hall.view s.hall.drawn = _
  rw [hperson]
  rfl

theorem hall_insertClient (sock : SOCKET) :
    ({ s with clients := s.clients.insert sock {} } : Globals).hall =
      s.hall.setPerson sock fun _ => default := by
  have : ({ s with clients := s.clients.insert sock {} } : Globals) = s.setInfo sock fun _ => {} :=
    rfl
  rw [this]
  exact hall_setInfo s sock fun _ => rfl

theorem hall_eraseClient (sock : SOCKET) :
    ({ s with clients := s.clients.erase sock } : Globals).hall = s.hall.dropPerson sock := by
  simp only [Globals.hall, Hall.dropPerson]
  congr 1
  funext t
  by_cases ht : t = sock
  · simp [ht]
  · simp [ht, Ne.symm ht, Std.ExtTreeMap.getElem?_erase]

/-- An update of a room is an edit of the abstract room. -/
theorem hall_editRoom (r : Bytes) {f : ChatRoom → ChatRoom}
    {g : Room SOCKET Bytes Bytes → Room SOCKET Bytes Bytes}
    (hf : ∀ room, (f room).room = g room.room) :
    (s.editRoom r f).hall = s.hall.editRoom r g := by
  simp only [Globals.hall, Globals.editRoom, Hall.editRoom]
  congr 1
  funext q
  by_cases hq : q = r
  · cases hr : s.chatRooms[r]? with
    | none => simp [hq, hr]
    | some room => simp [hq, hr, hf]
  · simp [hq, Ne.symm hq, Std.ExtTreeMap.getElem?_modify]

theorem hall_insertRoom (r : Bytes) (room : ChatRoom) :
    (s.insertRoom r room).hall = s.hall.putRoom r room.room := by
  simp only [Globals.hall, Globals.insertRoom, Hall.putRoom]
  congr 1
  funext q
  by_cases hq : q = r
  · simp [hq]
  · simp [hq, Ne.symm hq, Std.ExtTreeMap.getElem?_insert]

theorem hall_database (db : Database) : ({ s with database := db } : Globals).hall = s.hall := rfl

/-- Erasing a room without members is a sweep. -/
theorem sweeps_eraseRoom {r : Bytes} {room : ChatRoom} (hr : s.chatRooms[r]? = some room)
    (he : room.isEmpty = true) :
    Hall.Sweeps s.hall ({ s with chatRooms := s.chatRooms.erase r } : Globals).hall := by
  refine ⟨rfl, rfl, rfl, fun q => ?_⟩
  by_cases hq : q = r
  · refine Or.inr ⟨by simp [Globals.hall, hq], ?_⟩
    rw [Set.eq_empty_iff_forall_notMem, hq]
    intro sock hm
    obtain ⟨room', hr', hm'⟩ := (s.mem_membersOf_hall r sock).1 hm
    rw [hr, Option.some.injEq] at hr'
    rw [← hr'] at hm'
    exact (room.isEmpty_iff.1 he) sock hm'
  · exact Or.inl (by simp [Globals.hall, Ne.symm hq, Std.ExtTreeMap.getElem?_erase])

theorem hall_boot (db : Database) (listenSocket : SOCKET) :
    (Globals.boot db listenSocket).hall = Hall.empty := by
  simp only [Globals.hall, Globals.boot, Hall.empty, Std.ExtTreeMap.getElem?_empty,
    Option.map_none]
  rfl

end Operations

end TerminalChat.Server
