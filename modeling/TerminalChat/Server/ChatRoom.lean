import Mathlib
import TerminalChat.Text.Bytes

/-!
# Clients, rooms and messages

The data of the server: `ClientInfo`, `ChatRoom` with its methods, and `Message`. A room records its
members twice, in `clients` and in `clientJoinTimes`; the structure carries the proof that the two
agree, so a room in which they differ cannot be built.
-/

set_option autoImplicit false

namespace TerminalChat.Server

open TerminalChat.Text

/-- A Winsock socket handle. `std::map` and `std::set` order sockets by their number. -/
abbrev SOCKET : Type := Nat

/-- `INVALID_SOCKET` of a 64-bit Winsock. -/
def INVALID_SOCKET : SOCKET := 2 ^ 64 - 1

def BUFFER_SIZE : Nat := 4096

def MAX_MESSAGE_HISTORY : Nat := 100

/-- What the server knows about a connection. The defaults are those of `ClientInfo()`. -/
structure ClientInfo where
  username : Bytes := []
  roomId : Bytes := []
  isRoomOwner : Bool := false
  deriving DecidableEq

instance : Inhabited ClientInfo := ⟨{}⟩

/-- A message in `g_messageQueue`. The defaults are those of `Message()`. -/
structure Message where
  senderSocket : SOCKET := INVALID_SOCKET
  content : Bytes := []
  roomId : Bytes := []
  senderName : Bytes := []
  isPrivate : Bool := false
  recipientName : Bytes := []
  deriving DecidableEq

/-- A chat room. The steady clock is read as a natural number. -/
structure ChatRoom where
  roomId : Bytes
  password : Bytes
  isPrivate : Bool
  ownerSocket : SOCKET
  clients : Std.ExtTreeSet SOCKET
  bannedUsers : Std.ExtTreeSet Bytes
  messageHistory : List Bytes
  clientJoinTimes : Std.ExtTreeMap SOCKET Nat
  joinTimes_keys : ∀ s, s ∈ clientJoinTimes ↔ s ∈ clients

namespace ChatRoom

/-- `ChatRoom::ChatRoom`. -/
def new (id : Bytes) (isPrivate : Bool) (password : Bytes) (owner : SOCKET) : ChatRoom where
  roomId := id
  password := password
  isPrivate := isPrivate
  ownerSocket := owner
  clients := ∅
  bannedUsers := ∅
  messageHistory := []
  clientJoinTimes := ∅
  joinTimes_keys := by simp

def getClientCount (room : ChatRoom) : Nat := room.clients.size

def isEmpty (room : ChatRoom) : Bool := room.getClientCount == 0

def verifyPassword (room : ChatRoom) (password : Bytes) : Bool := room.password == password

def setPassword (room : ChatRoom) (newPassword : Bytes) : ChatRoom :=
  { room with password := newPassword }

def setOwner (room : ChatRoom) (newOwner : SOCKET) : ChatRoom :=
  { room with ownerSocket := newOwner }

def isUserBanned (room : ChatRoom) (username : Bytes) : Bool :=
  room.bannedUsers.contains username

def banUser (room : ChatRoom) (username : Bytes) : ChatRoom :=
  { room with bannedUsers := room.bannedUsers.insert username }

/-- `ChatRoom::addClient`; `now` is the reading of the steady clock. -/
def addClient (room : ChatRoom) (clientSocket : SOCKET) (now : Nat) : ChatRoom :=
  { room with
    clients := room.clients.insert clientSocket
    clientJoinTimes := room.clientJoinTimes.insert clientSocket now
    joinTimes_keys := fun s => by simp [room.joinTimes_keys] }

def removeClient (room : ChatRoom) (clientSocket : SOCKET) : ChatRoom :=
  { room with
    clients := room.clients.erase clientSocket
    clientJoinTimes := room.clientJoinTimes.erase clientSocket
    joinTimes_keys := fun s => by simp [room.joinTimes_keys] }

/-- One round of the loop in `ChatRoom::getLongestMember`, on `longestMember` and
`earliestTime`. -/
def longestStep (times : Std.ExtTreeMap SOCKET Nat) (acc : SOCKET × Nat) (sock : SOCKET) :
    SOCKET × Nat :=
  match times[sock]? with
  | none => acc
  | some t => if acc.1 = INVALID_SOCKET ∨ t < acc.2 then (sock, t) else acc

/-- `ChatRoom::getLongestMember`; `now` is the reading of the steady clock. -/
def getLongestMember (room : ChatRoom) (now : Nat) : SOCKET :=
  if room.clients.isEmpty then INVALID_SOCKET
  else (room.clients.toList.foldl (longestStep room.clientJoinTimes) (INVALID_SOCKET, now)).1

/-- The member that takes over when `leaver` leaves a room with several members. -/
def heir (room : ChatRoom) (leaver : SOCKET) : SOCKET :=
  if room.getLongestMember 0 = leaver then
    (room.clients.toList.find? fun s => s != leaver).getD (room.getLongestMember 0)
  else room.getLongestMember 0

/-- `ChatRoom::addMessageToHistory`. -/
def addMessageToHistory (room : ChatRoom) (message : Bytes) : ChatRoom :=
  let history := room.messageHistory ++ [message]
  { room with
    messageHistory := if history.length > MAX_MESSAGE_HISTORY then history.tail else history }

/-- The sockets `ChatRoom::broadcast` sends to, in the order of the set. -/
def broadcastTargets (room : ChatRoom) (senderSocket : SOCKET) : List SOCKET :=
  room.clients.toList.filter fun s => s != senderSocket && s != INVALID_SOCKET

/-- The sockets `ChatRoom::broadcastToAll` sends to, in the order of the set. -/
def broadcastToAllTargets (room : ChatRoom) : List SOCKET :=
  room.clients.toList.filter fun s => s != INVALID_SOCKET

@[simp] theorem mem_clients_new (id : Bytes) (isPrivate : Bool) (password : Bytes)
    (owner s : SOCKET) : s ∉ (new id isPrivate password owner).clients := by
  simp [new]

@[simp] theorem mem_clients_addClient (room : ChatRoom) (t s : SOCKET) (now : Nat) :
    s ∈ (room.addClient t now).clients ↔ s = t ∨ s ∈ room.clients := by
  simp [addClient, eq_comm (a := s)]

@[simp] theorem mem_clients_removeClient (room : ChatRoom) (t s : SOCKET) :
    s ∈ (room.removeClient t).clients ↔ s ≠ t ∧ s ∈ room.clients := by
  simp [removeClient, eq_comm (a := s)]

@[simp] theorem mem_bannedUsers_banUser (room : ChatRoom) (n u : Bytes) :
    u ∈ (room.banUser n).bannedUsers ↔ u = n ∨ u ∈ room.bannedUsers := by
  simp [banUser, eq_comm (a := u)]

@[simp] theorem isUserBanned_iff (room : ChatRoom) (u : Bytes) :
    room.isUserBanned u = true ↔ u ∈ room.bannedUsers := by
  simp [isUserBanned]

theorem isEmpty_iff (room : ChatRoom) : room.isEmpty = true ↔ ∀ s, s ∉ room.clients := by
  rw [← Std.ExtTreeSet.eq_empty_iff_forall_not_mem, Std.ExtTreeSet.eq_empty_iff_size_eq_zero]
  simp [isEmpty, getClientCount]

/-- A room with at most one member has no two different members. -/
theorem subsingleton_of_count_le (room : ChatRoom) (h : room.getClientCount ≤ 1) {s t : SOCKET}
    (hs : s ∈ room.clients) (ht : t ∈ room.clients) : s = t := by
  have hlen : room.clients.toList.length ≤ 1 := by
    simpa [getClientCount] using h
  have hs' := Std.ExtTreeSet.mem_toList.2 hs
  have ht' := Std.ExtTreeSet.mem_toList.2 ht
  match hl : room.clients.toList, hlen with
  | [], _ => simp [hl] at hs'
  | [x], _ =>
      rw [hl, List.mem_singleton] at hs' ht'
      rw [hs', ht']

/-- A room with more than one member has two different members. -/
theorem two_members (room : ChatRoom) (h : 1 < room.getClientCount) :
    ∃ s t, s ∈ room.clients ∧ t ∈ room.clients ∧ s ≠ t := by
  have hlen : 1 < room.clients.toList.length := by
    simpa [getClientCount] using h
  have hnd : room.clients.toList.Pairwise fun s t => ¬compare s t = .eq :=
    Std.ExtTreeSet.distinct_toList
  match hl : room.clients.toList, hlen with
  | x :: y :: l, _ =>
      refine ⟨x, y, Std.ExtTreeSet.mem_toList.1 (by simp [hl]),
        Std.ExtTreeSet.mem_toList.1 (by simp [hl]), ?_⟩
      rw [hl] at hnd
      rintro rfl
      simp at hnd

/-- The running minimum of `getLongestMember` is its start value or comes from the list. -/
theorem foldl_longestStep_mem (times : Std.ExtTreeMap SOCKET Nat) :
    ∀ (l : List SOCKET) (acc : SOCKET × Nat),
      (l.foldl (longestStep times) acc).1 = acc.1 ∨ (l.foldl (longestStep times) acc).1 ∈ l
  | [], _ => Or.inl rfl
  | x :: l, acc => by
      have hstep : (longestStep times acc x).1 = acc.1 ∨ (longestStep times acc x).1 = x := by
        unfold longestStep
        split
        · exact Or.inl rfl
        · split
          · exact Or.inr rfl
          · exact Or.inl rfl
      rw [List.foldl_cons]
      rcases foldl_longestStep_mem times l (longestStep times acc x) with h | h
      · rcases hstep with h' | h'
        · exact Or.inl (h.trans h')
        · exact Or.inr (by rw [h, h']; exact List.mem_cons_self)
      · exact Or.inr (List.mem_cons_of_mem _ h)

/-- The clock is only the start value of the search, and the first member visited replaces it. -/
theorem getLongestMember_now (room : ChatRoom) (now now' : Nat) :
    room.getLongestMember now = room.getLongestMember now' := by
  unfold getLongestMember
  cases hl : room.clients.toList with
  | nil => rfl
  | cons x l =>
      have hx : x ∈ room.clients := Std.ExtTreeSet.mem_toList.1 (by rw [hl]; exact List.mem_cons_self)
      have ht := Std.ExtTreeMap.getElem?_eq_some_getElem ((room.joinTimes_keys x).2 hx)
      simp only [List.foldl_cons, longestStep, ht, true_or, if_true]

/-- The heir depends on the members and on their join times only. -/
theorem heir_congr {room room' : ChatRoom} (hc : room'.clients = room.clients)
    (ht : room'.clientJoinTimes = room.clientJoinTimes) (leaver : SOCKET) :
    room'.heir leaver = room.heir leaver := by
  simp [heir, getLongestMember, hc, ht]

/-- In a room with a member the longest member is a member: the first one visited is accepted,
whatever the clock says. -/
theorem getLongestMember_mem (room : ChatRoom) (now : Nat) {s : SOCKET} (hs : s ∈ room.clients) :
    room.getLongestMember now ∈ room.clients := by
  have hne : room.clients.isEmpty = false := by
    rw [Bool.eq_false_iff]
    intro he
    rw [Std.ExtTreeSet.isEmpty_iff] at he
    exact Std.ExtTreeSet.eq_empty_iff_forall_not_mem.1 he s hs
  unfold getLongestMember
  rw [hne]
  have hs' := Std.ExtTreeSet.mem_toList.2 hs
  cases hl : room.clients.toList with
  | nil => simp [hl] at hs'
  | cons x l =>
      have hx : x ∈ room.clients := Std.ExtTreeSet.mem_toList.1 (by rw [hl]; exact List.mem_cons_self)
      obtain ⟨t, ht⟩ : ∃ t, room.clientJoinTimes[x]? = some t :=
        ⟨_, Std.ExtTreeMap.getElem?_eq_some_getElem ((room.joinTimes_keys x).2 hx)⟩
      have hfirst : longestStep room.clientJoinTimes (INVALID_SOCKET, now) x = (x, t) := by
        simp [longestStep, ht]
      have hmem : ∀ y ∈ l, y ∈ room.clients := fun y hy =>
        Std.ExtTreeSet.mem_toList.1 (by rw [hl]; exact List.mem_cons_of_mem _ hy)
      simp only [Bool.false_eq_true, if_false, List.foldl_cons, hfirst]
      rcases foldl_longestStep_mem room.clientJoinTimes l (x, t) with h | h
      · rw [h]
        exact hx
      · exact hmem _ h

end ChatRoom

end TerminalChat.Server
