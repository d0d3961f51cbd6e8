import Mathlib
import TerminalChat.Server.Abstraction

/-!
# What the blocks do to the hall

One lemma for each block of the handlers that touches the rooms or the clients: the hall it leaves,
and what its value says about the hall it started from. `post_joinRoom` is the one for JOIN,
`post_promoteNewOwner` the one for a succession.
-/

set_option autoImplicit false

namespace TerminalChat.Server

open TerminalChat.Concurrency TerminalChat.Text TerminalChat.Abstract TerminalChat.Client

variable (e : Env) (s : Globals)

/-! ## Rooms -/

theorem room_removeClient (room : ChatRoom) (sock : SOCKET) :
    (room.removeClient sock).room = room.room.remove sock := by
  have h : {t | t ∈ (room.removeClient sock).clients} = {t | t ∈ room.clients} \ {sock} := by
    ext t
    simp [and_comm]
  rw [ChatRoom.room, h]
  rfl

theorem room_addClient (room : ChatRoom) (sock : SOCKET) (now : Nat) :
    (room.addClient sock now).room = room.room.enrol sock := by
  have h : {t | t ∈ (room.addClient sock now).clients} = insert sock {t | t ∈ room.clients} := by
    ext t
    simp
  rw [ChatRoom.room, h]
  rfl

theorem room_banUser (room : ChatRoom) (n : Bytes) : (room.banUser n).room = room.room.ban n := by
  have h : {u | u ∈ (room.banUser n).bannedUsers} = insert n {u | u ∈ room.bannedUsers} := by
    ext u
    simp
  rw [ChatRoom.room, h]
  rfl

theorem room_setOwner (room : ChatRoom) (sock : SOCKET) :
    (room.setOwner sock).room = room.room.setOwner sock := rfl

theorem room_setPassword (room : ChatRoom) (password : Bytes) :
    (room.setPassword password).room = room.room.setPassword password := rfl

theorem room_addMessageToHistory (room : ChatRoom) (message : Bytes) :
    (room.addMessageToHistory message).room = room.room := rfl

theorem room_new (roomId : Bytes) (isPrivate : Bool) (password : Bytes) (sock : SOCKET) (now : Nat) :
    ((ChatRoom.new roomId isPrivate password sock).addClient sock now).room =
      Hall.newRoom sock isPrivate password := by
  rw [room_addClient]
  simp only [ChatRoom.room, Room.enrol, Hall.newRoom, ChatRoom.new, Room.mk.injEq, true_and,
    and_true]
  constructor
  · ext t
    simp
  · ext u
    simp

/-! ## Leaving -/

theorem post_departRoom (roomId username : Bytes) (sock : SOCKET) :
    (departRoom roomId username sock).post e s fun _ s' =>
      s'.hall = s.hall.editRoom roomId (·.remove sock) := by
  simp only [departRoom, Block.post_bind, post_getCurrentTimestamp, post_broadcast, post_tellRoom]
  rw [hall_editRoom _ _ fun room => room_removeClient room sock,
    hall_sendAll _ (quiet_systemText _ _)]

theorem room_hall_eq_none {s : Globals} {r : Bytes} (h : s.chatRooms.contains r ≠ true) :
    s.hall.room r = none := by
  rw [Ne, Std.ExtTreeMap.contains_iff_mem, ← Globals.isSome_room_hall] at h
  simpa using h

theorem post_leaveRoom (roomId username : Bytes) (sock : SOCKET) :
    (leaveRoom roomId username sock).post e s fun _ s' =>
      s'.hall = s.hall.editRoom roomId (·.remove sock) := by
  simp only [leaveRoom, Block.post_bind, post_roomExists, Block.post_ite, Block.post_pure,
    post_askRoom, post_spawnCleanup]
  refine ⟨fun _ => ?_, fun hr => ?_⟩
  · exact Block.post_mono (post_departRoom e s roomId username sock) fun _ s' h =>
      ⟨fun _ => h, fun _ => h⟩
  · exact (Hall.editRoom_of_none _ (room_hall_eq_none hr) _).symm

/-- The body of `cleanupEmptyRoom` sweeps its room or does nothing. -/
theorem post_sweepRoom (roomId : Bytes) :
    (sweepRoom roomId).post e s fun _ s' => Hall.Sweeps s.hall s'.hall := by
  simp only [sweepRoom, Block.post_bind, post_roomExists, Block.post_ite, post_askRoom,
    Block.post_modify, post_tellDatabase, Block.post_pure]
  refine ⟨fun hr => ⟨fun he => ?_, fun _ => .refl _⟩, fun _ => .refl _⟩
  rw [Std.ExtTreeMap.contains_iff_mem] at hr
  have hroom := Std.ExtTreeMap.getElem?_eq_some_getElem hr
  rw [hroom] at he
  exact sweeps_eraseRoom s hroom he

/-! ## Entering -/

theorem post_sendHistory (sock : SOCKET) (roomId : Bytes) :
    (sendHistory sock roomId).post e s fun _ s' => s'.hall = s.hall := by
  have hstart : Quiet (str "MESSAGE_HISTORY_START\n") :=
    quiet_append (p := str "MESSAGE_HISTORY_START") (by decide) (str "\n")
  have hend : Quiet (str "MESSAGE_HISTORY_END\n") :=
    quiet_append (p := str "MESSAGE_HISTORY_END") (by decide) (str "\n")
  have hreplay : ∀ history : List Bytes, ((({ s.send sock (str "MESSAGE_HISTORY_START\n") with
      net := (s.send sock (str "MESSAGE_HISTORY_START\n")).net ++
        history.map fun msg => .replayed sock msg } : Globals).send sock
          (str "MESSAGE_HISTORY_END\n")).hall = s.hall) := by
    intro history
    rw [hall_send_of_quiet _ hend, hall_replay, hall_send_of_quiet _ hstart]
  simp only [sendHistory, Block.post_bind, post_askDatabase, Block.post_ite, post_askRoom,
    Block.post_pure, post_sendToClient, Block.post_modify, hreplay, implies_true, and_self]

/-- Leaving the room of the client, if it is in one. -/
theorem post_leaveOldRoom (sock : SOCKET) : (leaveOldRoom sock (s.info sock)).post e s fun _ s' =>
    s'.hall = s.hall.vacate sock := by
  simp only [leaveOldRoom, Block.post_ite, Block.post_pure, List.isEmpty_iff]
  refine ⟨fun hr => ?_, fun hr => ?_⟩
  · simp [Hall.vacate, ClientInfo.person, hr]
  · refine Block.post_mono (post_leaveRoom e s _ _ sock) fun _ s' h => ?_
    rw [h]
    simp [Hall.vacate, ClientInfo.person, hr]

theorem post_admitClient (sock : SOCKET) {roomId : Bytes} (hr : Trimmed roomId) (hne : roomId ≠ [])
    (password : Bytes) : (admitClient sock (s.info sock) roomId).post e s fun _ s' =>
      s'.hall = (Hall.Op.join sock roomId password).apply s.hall := by
  simp only [admitClient, Block.post_bind, post_addClient, post_setClientInfo, post_sendToClient,
    post_getCurrentTimestamp, post_broadcast]
  refine Block.post_mono (post_leaveOldRoom e s sock) fun _ s₁ h₁ => ?_
  refine Block.post_mono (post_sendHistory e _ sock roomId) fun _ s₂ h₂ => ?_
  rw [hall_sendAll _ (quiet_systemText _ _), h₂, hall_send,
    hall_setInfo (g := fun p => { p with place := some roomId, owner := false }),
    hall_editRoom (g := fun R => R.enrol sock), h₁]
  · rw [Hall.Op.apply, Hall.place, funext (viewLine_joined hr)]
  · exact fun room => room_addClient room sock _
  · intro c
    simp [ClientInfo.person, hne]

/-- The answers of JOIN that refuse a client. -/
def joinRefusals : List Bytes :=
  [errorText "You are banned from this room", str "PASSWORD_REQUIRED\n", str "WRONG_PASSWORD\n"]

/-- The cases of JOIN under both locks: no such room, a refusal, or the admission. -/
theorem post_joinRoom_cases {sock : SOCKET} {client : ClientInfo} {roomId password : Bytes}
    {Q : Unit → Globals → Prop}
    (hmissing : s.chatRooms[roomId]? = none → Q () (s.send sock (str "ROOM_NOT_FOUND\n")))
    (hrefused : ∀ text ∈ joinRefusals, Q () (s.send sock text))
    (hadmitted : ∀ room, s.chatRooms[roomId]? = some room →
      client.username ∉ room.bannedUsers → (room.isPrivate = true → room.password = password) →
      (admitClient sock client roomId).post e s Q) :
    (joinRoom sock client roomId password).post e s Q := by
  simp only [joinRoom, Block.post_bind, post_roomExists, Block.post_ite, post_sendToClient,
    post_askRoom, post_askDatabase, Block.post_pure, Bool.not_eq_true']
  have hbanned := hrefused (errorText "You are banned from this room") (by simp [joinRefusals])
  have hrequired := hrefused (str "PASSWORD_REQUIRED\n") (by simp [joinRefusals])
  have hwrong := hrefused (str "WRONG_PASSWORD\n") (by simp [joinRefusals])
  cases hroom : s.chatRooms[roomId]? with
  | none =>
      have hmem : roomId ∉ s.chatRooms := by
        rw [Std.ExtTreeMap.mem_iff_isSome_getElem?, hroom]
        simp
      refine ⟨fun _ => hmissing hroom, fun h => absurd ?_ h⟩
      rwa [← Bool.not_eq_true, Std.ExtTreeMap.contains_iff_mem]
  | some room =>
      have hadm := hadmitted room hroom
      have hmem : roomId ∈ s.chatRooms := by
        rw [Std.ExtTreeMap.mem_iff_isSome_getElem?, hroom]
        rfl
      by_cases hban : client.username ∈ room.bannedUsers
      · simp [hmem, hban, hbanned]
      · simp only [hban, not_false_eq_true, forall_true_left] at hadm
        by_cases hpriv : room.isPrivate = true
        · by_cases hpw : room.password = password
          · simp [hmem, hban, hpriv, hbanned, hrequired, hpw, ChatRoom.verifyPassword, hadm]
          · simp [hmem, hban, hpriv, hbanned, hrequired, hpw, ChatRoom.verifyPassword, hwrong]
        · simp [hmem, hban, hpriv, hbanned, hadm]

theorem quiet_of_mem_joinRefusals {text : Bytes} (h : text ∈ joinRefusals) : Quiet text := by
  simp only [joinRefusals, List.mem_cons, List.not_mem_nil, or_false] at h
  rcases h with rfl | rfl | rfl
  · exact quiet_errorText _
  · exact quiet_append (p := str "PASSWORD_REQUIRED") (by decide) (str "\n")
  · exact quiet_append (p := str "WRONG_PASSWORD") (by decide) (str "\n")

/-- What JOIN does under both locks is an operation. -/
theorem post_joinRoom {sock : SOCKET} {roomId password : Bytes} (hs : sock ∈ s.clients)
    (hr : Trimmed roomId) (hne : roomId ≠ []) (hother : roomId ≠ (s.info sock).roomId) :
    (joinRoom sock (s.info sock) roomId password).post e s fun _ s' => ∃ op : Hall.Op _ _ _ _,
      (op = .pass ∨ op = .missing sock roomId ∨ op = .join sock roomId password) ∧
      op.Permitted INVALID_SOCKET s.hall ∧ s'.hall = op.apply s.hall := by
  have hknown := (s.isSome_person_hall sock).2 hs
  refine post_joinRoom_cases e s (fun hnone => ?_) (fun text ht => ?_) fun room hroom hban hpw => ?_
  · refine ⟨.missing sock roomId, Or.inr (Or.inl rfl), ⟨hknown, by simp [Globals.hall, hnone], ?_⟩, ?_⟩
    · simp [hother.symm]
    rw [hall_send, Hall.Op.apply, funext viewLine_notFound]
  · exact ⟨.pass, Or.inl rfl, trivial, hall_send_of_quiet s (quiet_of_mem_joinRefusals ht) sock⟩
  · refine Block.post_mono (post_admitClient e s sock hr hne password) fun _ s' h =>
      ⟨.join sock roomId password, Or.inr (Or.inr rfl), ⟨hknown, ?_, ?_, ?_, ?_⟩, h⟩
    · simp [Globals.hall, hroom]
    · simp [hother.symm]
    · rw [Globals.mem_bansOf_hall]
      rintro ⟨room', hroom', hn⟩
      rw [hroom, Option.some.injEq] at hroom'
      rw [← hroom'] at hn
      exact hban (by simpa using hn)
    · intro R hR hp
      rw [Globals.room_hall_of_some s hroom, Option.some.injEq] at hR
      rw [← hR] at hp ⊢
      exact hpw hp

/-! ## Names -/

theorem isUsernameAvailable_iff (name : Bytes) (excludeSocket : SOCKET) :
    s.isUsernameAvailable name excludeSocket = true ↔
      ∀ t c, s.clients[t]? = some c → t ≠ excludeSocket → c.username ≠ name := by
  simp only [Globals.isUsernameAvailable, Bool.not_eq_true', List.any_eq_false, Bool.and_eq_true,
    bne_iff_ne, beq_iff_eq, not_and, Prod.forall, Std.ExtTreeMap.mem_toList_iff_getElem?_eq_some]

/-- An available name is the name of nobody else. -/
theorem name_ne_of_available {name : Bytes} {excludeSocket : SOCKET} (hne : name ≠ [])
    (h : s.isUsernameAvailable name excludeSocket = true) (t : SOCKET) (ht : t ≠ excludeSocket) :
    (s.hall.entry t).name ≠ name := by
  rw [Globals.entry_hall, ClientInfo.name_person, Globals.info]
  cases hc : s.clients[t]? with
  | none => exact hne.symm
  | some c => exact (isUsernameAvailable_iff s name excludeSocket).1 h t c hc ht

/-- `findClientByUsername` finds nobody, or a client with that name in that room. -/
theorem findClientByUsername_cases (u r : Bytes) :
    (s.findClientByUsername u r = INVALID_SOCKET ∧
      ∀ (t : SOCKET) (c : ClientInfo), s.clients[t]? = some c → c.username = u → c.roomId ≠ r) ∨
    ∃ c : ClientInfo, s.clients[s.findClientByUsername u r]? = some c ∧ c.username = u ∧
      c.roomId = r := by
  unfold Globals.findClientByUsername
  cases hf : s.clients.toList.find? fun p => p.2.username == u && p.2.roomId == r with
  | none =>
      refine Or.inl ⟨rfl, fun t c hc hu hr => ?_⟩
      have := List.find?_eq_none.1 hf (t, c) (Std.ExtTreeMap.mem_toList_iff_getElem?_eq_some.2 hc)
      simp [hu, hr] at this
  | some p =>
      have hp := List.find?_some hf
      have hm := List.mem_of_find?_eq_some hf
      simp only [Bool.and_eq_true, beq_iff_eq] at hp
      exact Or.inr ⟨p.2, Std.ExtTreeMap.mem_toList_iff_getElem?_eq_some.1 hm, hp.1, hp.2⟩

/-- When nobody is connected on `INVALID_SOCKET`, the result of `findClientByUsername` tells whether
the room has a client with that name. -/
theorem findClientByUsername_spec (hbad : INVALID_SOCKET ∉ s.clients) {u r : Bytes} (hr : r ≠ []) :
    (s.findClientByUsername u r = INVALID_SOCKET ∧
      ∀ t, (s.hall.entry t).name = u → (s.hall.entry t).place ≠ some r) ∨
    s.findClientByUsername u r ≠ INVALID_SOCKET ∧
      (s.hall.entry (s.findClientByUsername u r)).name = u ∧
      (s.hall.entry (s.findClientByUsername u r)).place = some r := by
  rcases findClientByUsername_cases s u r with ⟨h, hall⟩ | ⟨c, hc, hu, hcr⟩
  · refine Or.inl ⟨h, fun t hn hp => ?_⟩
    rw [Globals.entry_hall, Globals.info] at hn hp
    cases ht : s.clients[t]? with
    | none => simp [ht, ClientInfo.person] at hp
    | some c =>
        rw [ht] at hn hp
        exact hall t c ht hn ((ClientInfo.place_person_eq_some c r).1 hp).2
  · refine Or.inr ⟨fun h => hbad ?_, ?_, ?_⟩
    · rw [← h, Std.ExtTreeMap.mem_iff_isSome_getElem?, hc]
      rfl
    · simp [Globals.info, hc, hu]
    · simp [Globals.info, hc, hcr, hr]

/-! ## Handing on ownership -/

/-- The new owner that FORCELEAVE picks: nobody when the room has at most one member, and otherwise
the heir of the leaver, who is another member. -/
theorem post_chooseNewOwner (roomId : Bytes) (sock : SOCKET) :
    (chooseNewOwner roomId sock).post e s fun v s' => s' = s ∧
      (v = INVALID_SOCKET ∧ (s.hall.membersOf roomId).Subsingleton ∨
        (v ∈ s.hall.membersOf roomId ∧ v ≠ sock) ∧
          ∃ room, s.chatRooms[roomId]? = some room ∧ 1 < room.getClientCount ∧
            v = room.heir sock) := by
  simp only [chooseNewOwner, Block.post_bind, post_askRoom, Block.post_ite, post_longestMember,
    Block.post_pure]
  cases hroom : s.chatRooms[roomId]? with
  | none =>
      refine ⟨fun h => absurd h (by simp [default]), fun _ => ⟨trivial, Or.inl ⟨trivial, ?_⟩⟩⟩
      rintro x hx
      rw [Globals.mem_membersOf_hall, hroom] at hx
      simp at hx
  | some room =>
      have hmem : ∀ x, x ∈ s.hall.membersOf roomId ↔ x ∈ room.clients := by
        intro x
        rw [Globals.mem_membersOf_hall, hroom]
        simp
      simp only [Option.map_some, Option.getD_some]
      rw [room.getLongestMember_now s.steadyNow 0]
      refine ⟨fun hcount => ?_, fun hcount => ⟨trivial, Or.inl ⟨trivial, fun x hx y hy => ?_⟩⟩⟩
      · -- of two members one is not the leaver, so the search finds somebody
        obtain ⟨x, y, hx, hy, hxy⟩ := room.two_members hcount
        refine ⟨fun hself => ⟨trivial, Or.inr ⟨?_, room, rfl, hcount, ?_⟩⟩,
          fun hother => ⟨trivial, Or.inr ⟨⟨?_, hother⟩, room, rfl, hcount, ?_⟩⟩⟩
        · cases hf : room.clients.toList.find? fun t => t != sock with
          | none =>
              have hall := List.find?_eq_none.1 hf
              have hx' := hall x (Std.ExtTreeSet.mem_toList.2 hx)
              have hy' := hall y (Std.ExtTreeSet.mem_toList.2 hy)
              simp only [bne_iff_ne, ne_eq, not_not] at hx' hy'
              exact absurd (hx'.trans hy'.symm) hxy
          | some t =>
              refine ⟨(hmem t).2 (Std.ExtTreeSet.mem_toList.1 (List.mem_of_find?_eq_some hf)), ?_⟩
              simpa using List.find?_some hf
        · simp [ChatRoom.heir, hself]
        · exact (hmem _).2 (room.getLongestMember_mem 0 hx)
        · simp [ChatRoom.heir, hother]
      · refine room.subsingleton_of_count_le ?_ ((hmem x).1 hx) ((hmem y).1 hy)
        simpa using hcount

/-- The promotion of the new owner, when it is connected. -/
theorem post_promoteNewOwner (roomId : Bytes) (t : SOCKET) :
    (promoteNewOwner roomId t).post e s fun name s' =>
      t ∈ s.clients ∧ name = (s.hall.entry t).name ∧ s'.hall = s.hall.promote t roomId ∨
      t ∉ s.clients ∧ name = [] ∧ s' = s := by
  simp only [promoteNewOwner, Block.post_bind, Block.post_read, Block.post_ite, post_clientInfo,
    post_setClientInfo, post_tellRoom, Block.post_pure, Std.ExtTreeMap.contains_iff_mem]
  refine ⟨fun h => Or.inl ⟨h, by simp, ?_⟩, fun h => Or.inr ⟨h, trivial, trivial⟩⟩
  rw [hall_editRoom _ _ fun room => room_setOwner room t,
    hall_setInfo (g := fun p => { p with owner := true }) _ _ fun _ => rfl]
  rfl

/-- The notices about the new owner tell it of its ownership when it has a name. -/
theorem post_announceNewOwner (roomId name : Bytes) (t : SOCKET) :
    (announceNewOwner roomId name t).post e s fun _ s' =>
      s'.hall = s.hall.tell t fun v => if decide (name ≠ []) then { v with owner := true } else v := by
  simp only [announceNewOwner, Block.post_ite, Block.post_pure, Block.post_bind,
    post_getCurrentTimestamp, post_broadcastToAll, post_sendToClient, List.isEmpty_iff]
  refine ⟨fun h => (Hall.tell_of_id _ _ fun v => by simp [h]).symm, fun h => ?_⟩
  rw [hall_send, hall_sendAll _ (quiet_systemText _ _), funext viewLine_ownership]
  simp [h]

/-- The notices of a forced leave, and the leaver out of the room. -/
theorem post_announceForceLeave (roomId username name : Bytes) (t sock : SOCKET) :
    (announceForceLeave roomId username name t sock).post e s fun _ s' =>
      s'.hall = (s.hall.tell t fun v =>
        if decide (name ≠ []) then { v with owner := true } else v).editRoom roomId
          (·.remove sock) := by
  simp only [announceForceLeave, Block.post_bind, post_getCurrentTimestamp, post_broadcast,
    post_tellRoom, post_askRoom, Block.post_ite, post_spawnCleanup, Block.post_pure]
  refine Block.post_mono (post_announceNewOwner e s roomId name t) fun _ s₁ h₁ => ?_
  have h : ∀ socks text, Quiet text → ((s₁.sendAll socks text).editRoom roomId fun room =>
      room.removeClient sock).hall = s₁.hall.editRoom roomId (·.remove sock) := by
    intro socks text hq
    rw [hall_editRoom _ _ fun room => room_removeClient room sock, hall_sendAll _ hq]
  rw [← h₁]
  exact ⟨fun _ => h _ _ (quiet_systemText _ _), fun _ => h _ _ (quiet_systemText _ _)⟩

end TerminalChat.Server
