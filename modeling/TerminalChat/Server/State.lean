import Mathlib
import TerminalChat.Concurrency.Threads
import TerminalChat.Server.Database

/-!
# The state of the server

The globals of the server as one record, the operations of the handlers on them as blocks, and the
mutexes that guard them. Two fields are not in the program: `net` is the trace of its socket
operations and `drawnIds` the list of the ids that `generateRoomId` has returned.
-/

set_option autoImplicit false

namespace TerminalChat.Server

open TerminalChat.Concurrency TerminalChat.Text

/-- The mutexes that are only ever held around one call: those of the rooms and that of the
database. -/
inductive Leaf where
  | roomMutex (roomId : Bytes)
  | dbMutex
  deriving DecidableEq

/-- The mutexes of the server. -/
inductive Mutex where
  | clientsMutex
  | chatRoomsMutex
  | queueMutex
  | pollFdsMutex
  | leaf (l : Leaf)
  deriving DecidableEq

/-- A reading of the local time of day. -/
structure LocalTm where
  hour : Fin 24
  min : Fin 60
  sec : Fin 61

/-- A reading of the UTC clock of the database. -/
structure UtcTime where
  year : Fin 10000
  month : Fin 12
  day : Fin 31
  hour : Fin 24
  min : Fin 60
  sec : Fin 60

/-- What one action reads from its surroundings: the draw of `generateRoomId`, the readings of the
system clock, the clock of the database, the outcomes of the SQLite calls, and the order in which
SQLite returns rows with equal timestamps. -/
structure Env where
  draw : Fin 900000
  wall : Nat → LocalTm
  utc : UtcTime
  calls : Nat → Bool
  order : DescOrder

/-- Midnight, every SQLite call succeeds, and `generateRoomId` draws `draw`. -/
def Env.midnight (draw : Fin 900000) : Env where
  draw := draw
  wall _ := ⟨0, 0, 0⟩
  utc := ⟨0, 0, 0, 0, 0, 0⟩
  calls _ := true
  order := .stable

/-- A socket operation of the server; `replayed` is a `send` that replays a message of the
history. -/
inductive NetOp where
  | accepted (s : SOCKET)
  | sent (s : SOCKET) (text : Bytes)
  | replayed (s : SOCKET) (text : Bytes)
  | closed (s : SOCKET)
  deriving DecidableEq

/-- The globals of the server. `pendingCleanups` are the detached threads that still sleep before
they call `cleanupEmptyRoom`; `steadyNow` is the steady clock. -/
structure Globals where
  chatRooms : Std.ExtTreeMap Bytes ChatRoom := ∅
  clients : Std.ExtTreeMap SOCKET ClientInfo := ∅
  messageQueue : List Message := []
  shutdownRequested : Bool := false
  database : Database := {}
  pollFds : List SOCKET := []
  pendingCleanups : List Bytes := []
  steadyNow : Nat := 0
  net : List NetOp := []
  drawnIds : List Bytes := []

/-- The server after `main` has opened the database and the listening socket. -/
def Globals.boot (db : Database) (listenSocket : SOCKET) : Globals where
  database := db
  pollFds := [listenSocket]

/-- Two decimal digits. -/
def twoDigits (n : Nat) : Bytes := [UInt8.ofNat (48 + n / 10 % 10), UInt8.ofNat (48 + n % 10)]

/-- `strftime` with the format `[%H:%M:%S]`. -/
def LocalTm.text (t : LocalTm) : Bytes :=
  str "[" ++ twoDigits t.hour ++ str ":" ++ twoDigits t.min ++ str ":" ++ twoDigits t.sec ++ str "]"

/-- `CURRENT_TIMESTAMP` of SQLite. -/
def UtcTime.text (t : UtcTime) : Bytes :=
  twoDigits (t.year / 100) ++ twoDigits (t.year % 100) ++ str "-" ++ twoDigits (t.month + 1) ++
    str "-" ++ twoDigits (t.day + 1) ++ str " " ++ twoDigits t.hour ++ str ":" ++
    twoDigits t.min ++ str ":" ++ twoDigits t.sec

/-- The id that a draw from `uniform_int_distribution<> dis(100000, 999999)` gives. -/
def roomIdOf (draw : Fin 900000) : Bytes := decimal (100000 + draw)

instance drawBound_neZero : NeZero (900000 : Nat) := ⟨by decide⟩

namespace Globals

/-- `send` on a client socket; the result of the call is ignored. -/
def send (s : Globals) (sock : SOCKET) (text : Bytes) : Globals :=
  { s with net := s.net ++ [.sent sock text] }

/-- One `send` of the same text to each socket of a list. -/
def sendAll (s : Globals) (socks : List SOCKET) (text : Bytes) : Globals :=
  { s with net := s.net ++ socks.map fun sock => .sent sock text }

/-- The entry of a client; the blank entry when there is none. -/
def info (s : Globals) (sock : SOCKET) : ClientInfo := s.clients[sock]?.getD {}

/-- `g_clients[sock]` with an update: the operator inserts a blank entry when there is none. -/
def setInfo (s : Globals) (sock : SOCKET) (f : ClientInfo → ClientInfo) : Globals :=
  { s with clients := s.clients.insert sock (f (s.info sock)) }

/-- `g_chatRooms[roomId] = room`. -/
def insertRoom (s : Globals) (roomId : Bytes) (room : ChatRoom) : Globals :=
  { s with chatRooms := s.chatRooms.insert roomId room }

/-- Update a room of `g_chatRooms`. -/
def editRoom (s : Globals) (roomId : Bytes) (f : ChatRoom → ChatRoom) : Globals :=
  { s with chatRooms := s.chatRooms.modify roomId f }

theorem getElem?_editRoom (s : Globals) (q r : Bytes) (f : ChatRoom → ChatRoom) :
    (s.editRoom q f).chatRooms[r]? =
      if q = r then (s.chatRooms[r]?).map f else s.chatRooms[r]? := by
  rw [editRoom, Std.ExtTreeMap.getElem?_modify]
  by_cases h : q = r
  · simp [h]
  · simp [h]

theorem getElem?_insertRoom (s : Globals) (q r : Bytes) (room : ChatRoom) :
    (s.insertRoom q room).chatRooms[r]? = if q = r then some room else s.chatRooms[r]? := by
  rw [insertRoom, Std.ExtTreeMap.getElem?_insert]
  by_cases h : q = r
  · simp [h]
  · simp [h]

theorem getElem?_eraseRoom (s : Globals) (q r : Bytes) :
    (s.chatRooms.erase q)[r]? = if q = r then none else s.chatRooms[r]? := by
  rw [Std.ExtTreeMap.getElem?_erase]
  by_cases h : q = r
  · simp [h]
  · simp [h]

/-- `isUsernameAvailable`, the loop over `g_clients`. -/
def isUsernameAvailable (s : Globals) (username : Bytes) (excludeSocket : SOCKET) : Bool :=
  !s.clients.toList.any fun p => p.1 != excludeSocket && p.2.username == username

/-- `findClientByUsername`, the loop over `g_clients`. -/
def findClientByUsername (s : Globals) (username roomId : Bytes) : SOCKET :=
  match s.clients.toList.find? fun p => p.2.username == username && p.2.roomId == roomId with
  | some p => p.1
  | none => INVALID_SOCKET

end Globals

/-- The code between two synchronisation points of the server. -/
abbrev Sect (α : Type) : Type := Block Leaf Env Globals α

/-- A program of a server thread. -/
abbrev Thread (α : Type) : Type := Prog Mutex Env Globals α

/-- A block as a step of a thread. -/
def step {α : Type} (b : Sect α) : Thread α := Prog.block .leaf b

/-- A block under a `lock_guard` on `m`. -/
def critical {α : Type} (m : Mutex) (b : Sect α) : Thread α := Prog.holding m (step b)

/-! ## The statements of the handlers -/

/-- `sendToClient`. -/
def sendToClient (sock : SOCKET) (text : Bytes) : Sect Unit :=
  .modify fun _ s => s.send sock text

/-- `getCurrentTimestamp`, the `k`-th reading in a block. -/
def getCurrentTimestamp (k : Nat) : Sect Bytes := .read fun e _ => (e.wall k).text

/-- `generateRoomId`. -/
def generateRoomId : Sect Bytes :=
  ⟨fun e s => ⟨roomIdOf e.draw, { s with drawnIds := roomIdOf e.draw :: s.drawnIds }, []⟩⟩

/-- The entry of a client as `g_clients.find` gives it; the blank entry when it is not found. -/
def clientInfo (sock : SOCKET) : Sect ClientInfo := .read fun _ s => s.info sock

/-- A reference `g_clients[sock]`, which inserts a blank entry when there is none. -/
def clientRef (sock : SOCKET) : Sect ClientInfo :=
  ⟨fun _ s => ⟨s.info sock, s.setInfo sock id, []⟩⟩

/-- `g_clients[sock]`, updated. -/
def setClientInfo (sock : SOCKET) (f : ClientInfo → ClientInfo) : Sect Unit :=
  .modify fun _ s => s.setInfo sock f

/-- `g_chatRooms.find(roomId) != g_chatRooms.end()`. -/
def roomExists (roomId : Bytes) : Sect Bool := .read fun _ s => s.chatRooms.contains roomId

/-- A method of a room that only reads; it runs under the mutex of the room. -/
def askRoom {α : Type} [Inhabited α] (roomId : Bytes) (f : ChatRoom → α) : Sect α :=
  ⟨fun _ s => ⟨((s.chatRooms[roomId]?).map f).getD default, s, [.roomMutex roomId]⟩⟩

/-- A method of a room that updates it; it runs under the mutex of the room. -/
def tellRoom (roomId : Bytes) (f : ChatRoom → ChatRoom) : Sect Unit :=
  ⟨fun _ s => ⟨(), s.editRoom roomId f, [.roomMutex roomId]⟩⟩

/-- `ChatRoom::addClient` at the current reading of the steady clock. -/
def addClient (roomId : Bytes) (sock : SOCKET) : Sect Unit :=
  ⟨fun _ s => ⟨(), s.editRoom roomId fun room => room.addClient sock s.steadyNow,
    [.roomMutex roomId]⟩⟩

/-- `ChatRoom::getLongestMember` at the current reading of the steady clock. -/
def longestMember (roomId : Bytes) : Sect SOCKET :=
  ⟨fun _ s => ⟨((s.chatRooms[roomId]?).map fun room => room.getLongestMember s.steadyNow).getD
    INVALID_SOCKET, s, [.roomMutex roomId]⟩⟩

/-- `ChatRoom::broadcast`. -/
def broadcast (roomId : Bytes) (text : Bytes) (senderSocket : SOCKET) : Sect Unit :=
  ⟨fun _ s => ⟨(), s.sendAll (((s.chatRooms[roomId]?).map fun room =>
    room.broadcastTargets senderSocket).getD []) text, [.roomMutex roomId]⟩⟩

/-- `ChatRoom::broadcastToAll`. -/
def broadcastToAll (roomId : Bytes) (text : Bytes) : Sect Unit :=
  ⟨fun _ s => ⟨(), s.sendAll (((s.chatRooms[roomId]?).map fun room =>
    room.broadcastToAllTargets).getD []) text, [.roomMutex roomId]⟩⟩

/-- An operation of the database that updates it; its first SQLite call is number `k` of the
block. -/
def tellDatabase (k : Nat) (f : Env → (Nat → Bool) → Database → Database) : Sect Unit :=
  ⟨fun e s => ⟨(), { s with database := f e (fun n => e.calls (k + n)) s.database }, [.dbMutex]⟩⟩

/-- An operation of the database that only reads. -/
def askDatabase {α : Type} (k : Nat) (f : Env → (Nat → Bool) → Database → α) : Sect α :=
  ⟨fun e s => ⟨f e (fun n => e.calls (k + n)) s.database, s, [.dbMutex]⟩⟩

/-- Start a detached thread that sleeps and then calls `cleanupEmptyRoom`. -/
def spawnCleanup (roomId : Bytes) : Sect Unit :=
  .modify fun _ s => { s with pendingCleanups := s.pendingCleanups ++ [roomId] }

/-- `ERROR: ` with a text. -/
def errorText (text : String) : Bytes := str "ERROR: " ++ str text ++ str "\n"

/-- A `SYSTEM` line. -/
def systemText (timestamp text : Bytes) : Bytes := timestamp ++ str " SYSTEM: " ++ text ++ str "\n"

/-! ### What the statements compute -/

section Post

variable (e : Env) (s : Globals) (sock : SOCKET) (roomId text : Bytes) (Q : Unit → Globals → Prop)

@[simp] theorem post_sendToClient :
    (sendToClient sock text).post e s Q ↔ Q () (s.send sock text) := Iff.rfl

@[simp] theorem post_getCurrentTimestamp (k : Nat) (Q : Bytes → Globals → Prop) :
    (getCurrentTimestamp k).post e s Q ↔ Q (e.wall k).text s := Iff.rfl

@[simp] theorem post_generateRoomId (Q : Bytes → Globals → Prop) : generateRoomId.post e s Q ↔
    Q (roomIdOf e.draw) { s with drawnIds := roomIdOf e.draw :: s.drawnIds } := Iff.rfl

@[simp] theorem post_clientInfo (Q : ClientInfo → Globals → Prop) :
    (clientInfo sock).post e s Q ↔ Q (s.info sock) s := Iff.rfl

@[simp] theorem post_clientRef (Q : ClientInfo → Globals → Prop) :
    (clientRef sock).post e s Q ↔ Q (s.info sock) (s.setInfo sock id) := Iff.rfl

@[simp] theorem post_setClientInfo (f : ClientInfo → ClientInfo) :
    (setClientInfo sock f).post e s Q ↔ Q () (s.setInfo sock f) := Iff.rfl

@[simp] theorem post_roomExists (Q : Bool → Globals → Prop) :
    (roomExists roomId).post e s Q ↔ Q (s.chatRooms.contains roomId) s := Iff.rfl

@[simp] theorem post_askRoom {α : Type} [Inhabited α] (f : ChatRoom → α)
    (Q : α → Globals → Prop) : (askRoom roomId f).post e s Q ↔
      Q (((s.chatRooms[roomId]?).map f).getD default) s := Iff.rfl

@[simp] theorem post_tellRoom (f : ChatRoom → ChatRoom) :
    (tellRoom roomId f).post e s Q ↔ Q () (s.editRoom roomId f) := Iff.rfl

@[simp] theorem post_addClient : (addClient roomId sock).post e s Q ↔
    Q () (s.editRoom roomId fun room => room.addClient sock s.steadyNow) := Iff.rfl

@[simp] theorem post_longestMember (Q : SOCKET → Globals → Prop) :
    (longestMember roomId).post e s Q ↔
      Q (((s.chatRooms[roomId]?).map fun room => room.getLongestMember s.steadyNow).getD
        INVALID_SOCKET) s := Iff.rfl

@[simp] theorem post_broadcast : (broadcast roomId text sock).post e s Q ↔
    Q () (s.sendAll (((s.chatRooms[roomId]?).map fun room =>
      room.broadcastTargets sock).getD []) text) := Iff.rfl

@[simp] theorem post_broadcastToAll : (broadcastToAll roomId text).post e s Q ↔
    Q () (s.sendAll (((s.chatRooms[roomId]?).map fun room =>
      room.broadcastToAllTargets).getD []) text) := Iff.rfl

@[simp] theorem post_tellDatabase (k : Nat) (f : Env → (Nat → Bool) → Database → Database) :
    (tellDatabase k f).post e s Q ↔
      Q () { s with database := f e (fun n => e.calls (k + n)) s.database } := Iff.rfl

@[simp] theorem post_askDatabase {α : Type} (k : Nat)
    (f : Env → (Nat → Bool) → Database → α) (Q : α → Globals → Prop) :
    (askDatabase k f).post e s Q ↔ Q (f e (fun n => e.calls (k + n)) s.database) s := Iff.rfl

@[simp] theorem post_spawnCleanup : (spawnCleanup roomId).post e s Q ↔
    Q () { s with pendingCleanups := s.pendingCleanups ++ [roomId] } := Iff.rfl

end Post

end TerminalChat.Server
