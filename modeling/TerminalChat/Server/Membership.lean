import Mathlib
import TerminalChat.Server.Runs

/-!
# Membership and ownership are recorded twice

Whenever no handler is in progress, `g_clients` and `g_chatRooms` agree on who is where
(`Machine.membership_agreement`), and whoever is flagged owner is the owner of the room it is in
(`Machine.owner_flag_titled`), provided that all drawn room ids are distinct.
-/

set_option autoImplicit false

namespace TerminalChat.Server

open TerminalChat.Concurrency TerminalChat.Text TerminalChat.Abstract

/-- `g_chatRooms` has a room `r` that lists the socket. -/
def Globals.IsMember (s : Globals) (sock : SOCKET) (r : Bytes) : Prop :=
  ∃ room, s.chatRooms[r]? = some room ∧ sock ∈ room.clients

theorem Globals.IsMember.mem {s : Globals} {sock : SOCKET} {r : Bytes} (h : s.IsMember sock r) :
    r ∈ s.chatRooms := by
  obtain ⟨room, hr, -⟩ := h
  rw [Std.ExtTreeMap.mem_iff_isSome_getElem?, hr]
  rfl

/-- The client is flagged owner of the room `r`. -/
def Globals.Rules (s : Globals) (sock : SOCKET) (r : Bytes) : Prop :=
  (r ≠ [] ∧ (s.info sock).roomId = r) ∧ (s.info sock).isRoomOwner = true

instance (s : Globals) (sock : SOCKET) (r : Bytes) : Decidable (s.Rules sock r) :=
  inferInstanceAs (Decidable (_ ∧ _))

namespace Machine

variable {m : Machine}

theorem hallRun_of_reachable (hm : Reachable anyStep m) (hidle : m.Idle) :
    HallRun (fun _ _ => True) m.globals.hall :=
  hm.hallRun (fun _ _ _ _ _ _ _ _ _ => trivial) hidle

/-- Members point back to their room, whatever ids are drawn. -/
theorem roomId_of_isMember (hm : Reachable anyStep m) (hidle : m.Idle) {sock : SOCKET} {r : Bytes}
    (h : m.globals.IsMember sock r) : r ≠ [] ∧ (m.globals.info sock).roomId = r := by
  have hback := (hallRun_of_reachable hm hidle).sound.back r sock
    ((m.globals.mem_membersOf_hall r sock).2 h)
  simpa using hback

/-- A client is a member of the room it points to. -/
theorem isMember_of_roomId (hm : Reachable anyStep m) (hidle : m.Idle)
    (hdrawn : m.globals.drawnIds.Nodup) {sock : SOCKET} {r : Bytes} (hr : r ≠ [])
    (h : (m.globals.info sock).roomId = r) : m.globals.IsMember sock r := by
  have hagrees := ((hallRun_of_reachable hm hidle).agrees_titled hdrawn).1 sock r
  rw [Globals.entry_hall, ClientInfo.place_person_eq_some] at hagrees
  exact (m.globals.mem_membersOf_hall r sock).1 (hagrees ⟨hr, h⟩)

/-- Membership agreement. -/
theorem membership_agreement (hm : Reachable anyStep m) (hidle : m.Idle)
    (hdrawn : m.globals.drawnIds.Nodup) :
    (∀ sock r, r ≠ [] → ((m.globals.info sock).roomId = r ↔ m.globals.IsMember sock r)) ∧
    (∀ sock r r', m.globals.IsMember sock r → m.globals.IsMember sock r' → r = r') ∧
    (∀ sock r, m.globals.IsMember sock r → sock ∈ m.globals.clients) ∧
    ∀ (sock : SOCKET) (c : ClientInfo), m.globals.clients[sock]? = some c → c.roomId ≠ [] →
      c.roomId ∈ m.globals.chatRooms := by
  have hiff : ∀ sock r, r ≠ [] →
      ((m.globals.info sock).roomId = r ↔ m.globals.IsMember sock r) := fun sock r hr =>
    ⟨isMember_of_roomId hm hidle hdrawn hr, fun h => (roomId_of_isMember hm hidle h).2⟩
  refine ⟨hiff, fun sock r r' h h' => ?_, fun sock r h => ?_, fun sock c hc hr => ?_⟩
  · rw [← (roomId_of_isMember hm hidle h).2, (roomId_of_isMember hm hidle h').2]
  · obtain ⟨hr, hroom⟩ := roomId_of_isMember hm hidle h
    by_contra hout
    rw [Globals.info, Std.ExtTreeMap.getElem?_eq_none hout] at hroom
    exact hr hroom.symm
  · have hinfo : (m.globals.info sock).roomId = c.roomId := by rw [Globals.info, hc]; rfl
    exact ((hiff sock _ hr).1 hinfo).mem

/-- Two clients of which one has created a room, the other has joined it, and the first has then
created another room. -/
def visits : List (Event × Fin 900000) :=
  [(.connect 4, 0), (.connect 5, 0), (.receive 4 (str "/CREATE PUBLIC"), 7),
    (.receive 5 (str "/JOIN 100007"), 0), (.receive 4 (str "/CREATE PRIVATE key"), 8)]

theorem membership_agreement_visits : ∃ m, Reachable anyStep m ∧
    m.globals.IsMember 5 (str "100007") ∧ m.globals.IsMember 4 (str "100008") := by
  obtain ⟨m, hm, hp⟩ := reachable_of_after (fun _ _ => True) visits (fun m => decide (m.Idle ∧
    m.globals.drawnIds.Nodup ∧ (m.globals.info 5).roomId = str "100007" ∧
      (m.globals.info 4).roomId = str "100008")) (by decide +kernel)
  obtain ⟨hidle, hdrawn, h5, h4⟩ := of_decide_eq_true hp
  have hany : Reachable anyStep m := hm.mono fun _ _ _ => trivial
  have hagree := (membership_agreement hany hidle hdrawn).1
  exact ⟨m, hany, (hagree 5 _ (by decide)).1 h5, (hagree 4 _ (by decide)).1 h4⟩

/-- Whoever is flagged owner is in a room that names it as its owner. -/
theorem room_of_isRoomOwner (hm : Reachable anyStep m) (hidle : m.Idle)
    (hdrawn : m.globals.drawnIds.Nodup) {sock : SOCKET}
    (howner : (m.globals.info sock).isRoomOwner = true) : (m.globals.info sock).roomId ≠ [] ∧
      ∃ room, m.globals.chatRooms[(m.globals.info sock).roomId]? = some room ∧
        sock ∈ room.clients ∧ room.ownerSocket = sock := by
  have htitled := ((hallRun_of_reachable hm hidle).agrees_titled hdrawn).2
  obtain ⟨r, hplace, hat⟩ := htitled sock (by simpa using howner)
  rw [Globals.entry_hall, ClientInfo.place_person_eq_some] at hplace
  obtain ⟨hr, rfl⟩ := hplace
  obtain ⟨room, hlive, hmem⟩ := isMember_of_roomId hm hidle hdrawn hr rfl
  obtain ⟨room', hlive', hat'⟩ := (m.globals.ownerAt_hall _ sock).1 hat
  rw [hlive, Option.some.injEq] at hlive'
  exact ⟨hr, room, hlive, hmem, hlive' ▸ hat'⟩

/-- The owner flag is unique and local. -/
theorem owner_flag_titled (hm : Reachable anyStep m) (hidle : m.Idle)
    (hdrawn : m.globals.drawnIds.Nodup) :
    (∀ sock, (m.globals.info sock).isRoomOwner = true → (m.globals.info sock).roomId ≠ [] ∧
      ∃ room, m.globals.chatRooms[(m.globals.info sock).roomId]? = some room ∧
        sock ∈ room.clients ∧ room.ownerSocket = sock) ∧
    ∀ sock sock', (m.globals.info sock).isRoomOwner = true →
      (m.globals.info sock').isRoomOwner = true →
      (m.globals.info sock).roomId = (m.globals.info sock').roomId → sock = sock' := by
  refine ⟨fun sock h => room_of_isRoomOwner hm hidle hdrawn h, fun sock sock' h h' he => ?_⟩
  obtain ⟨-, room, hlive, -, hat⟩ := room_of_isRoomOwner hm hidle hdrawn h
  obtain ⟨-, room', hlive', -, hat'⟩ := room_of_isRoomOwner hm hidle hdrawn h'
  rw [← he, hlive, Option.some.injEq] at hlive'
  rw [← hat, ← hat', hlive']

theorem owner_flag_titled_visits : ∃ m, Reachable anyStep m ∧
    ∃ room, m.globals.chatRooms[str "100008"]? = some room ∧ 4 ∈ room.clients ∧
      room.ownerSocket = 4 := by
  obtain ⟨m, hm, hp⟩ := reachable_of_after (fun _ _ => True) visits (fun m => decide (m.Idle ∧
    m.globals.drawnIds.Nodup ∧ (m.globals.info 4).isRoomOwner = true ∧
      (m.globals.info 4).roomId = str "100008")) (by decide +kernel)
  obtain ⟨hidle, hdrawn, howner, hroom⟩ := of_decide_eq_true hp
  have hany : Reachable anyStep m := hm.mono fun _ _ _ => trivial
  obtain ⟨-, h⟩ := (owner_flag_titled hany hidle hdrawn).1 4 howner
  rw [hroom] at h
  exact ⟨m, hany, h⟩

end Machine

end TerminalChat.Server
