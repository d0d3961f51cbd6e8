import Mathlib
import TerminalChat.Server.Machine

/-!
# The order of the locks

The broadcaster and most handlers take `g_chatRoomsMutex` before `g_clientsMutex`; JOIN, and CREATE
from inside a room, take them the other way round. All other mutexes are taken last or alone. `mayTake`
says where each thread takes which mutex, and `keeps_handler`, `keeps_broadcastRound` and
`keeps_cleanupEmptyRoom` that its programs do so.
-/

set_option autoImplicit false

namespace TerminalChat.Server

open TerminalChat.Concurrency TerminalChat.Text

/-- Where a thread takes a mutex: the mutexes it holds then, and whether its last step was an
action. The main thread takes `g_chatRoomsMutex` inside `g_clientsMutex` only where it nests. -/
def mayTake (nests : Prop) : Tid → List Mutex → Bool → Mutex → Prop
  | .main, H, _, .clientsMutex => H = [] ∨ H = [.chatRoomsMutex]
  | .main, H, acted, .chatRoomsMutex => H = [] ∨ H = [.clientsMutex] ∧ acted = true ∧ nests
  | .broadcaster, H, acted, .clientsMutex => H = [.chatRoomsMutex] ∧ acted = true
  | .broadcaster, H, _, .chatRoomsMutex => H = []
  | .cleanup _, _, _, .clientsMutex => False
  | .cleanup _, H, _, .chatRoomsMutex => H = []
  | _, H, _, .queueMutex => H = []
  | _, H, _, .pollFdsMutex => H = []
  | _, H, _, .leaf _ => ∀ m ∈ H, m = .clientsMutex ∨ m = .chatRoomsMutex

section Order

variable {nests : Prop} (t : Tid) (acted : Bool)

theorem main_clients : mayTake nests .main [] acted .clientsMutex := Or.inl rfl

theorem main_clients_inside : mayTake nests .main [.chatRoomsMutex] acted .clientsMutex := Or.inr rfl

theorem rooms_first : mayTake nests t [] acted .chatRoomsMutex := by
  cases t with
  | main => exact Or.inl rfl
  | broadcaster => exact rfl
  | cleanup n => exact rfl

theorem main_rooms_inside (h : nests) : mayTake nests .main [.clientsMutex] true .chatRoomsMutex :=
  Or.inr ⟨rfl, rfl, h⟩

theorem broadcaster_clients :
    mayTake nests .broadcaster [.chatRoomsMutex] true .clientsMutex := ⟨rfl, rfl⟩

theorem queue_alone : mayTake nests t [] acted .queueMutex := by
  cases t <;> rfl

theorem pollFds_alone : mayTake nests t [] acted .pollFdsMutex := by
  cases t <;> rfl

end Order

/-- The program of a thread that starts with the mutexes `H` keeps the order and ends with `H`. -/
def Keeps {α : Type} (nests : Prop) (t : Tid) (H : List Mutex) (p : Thread α) : Prop :=
  ∀ acted, p.Locks (mayTake nests t) (fun _ H' _ => H' = H) H acted

/-- The block passes through no mutex. -/
def Quick {α : Type} (b : Sect α) : Prop := ∀ e s, (b.exec e s).passed = []

section Rules

variable {α β : Type} {nests : Prop} {t : Tid} {H : List Mutex}

theorem keeps_pure (a : α) : Keeps nests t H (pure a : Thread α) := fun _ => rfl

theorem keeps_seq {p : Thread α} {f : α → Thread β} (hp : Keeps nests t H p)
    (hf : ∀ a, Keeps nests t H (f a)) : Keeps nests t H (p >>= f) := by
  intro acted
  rw [Prog.locks_bind]
  refine Prog.locks_mono ?_ p H acted (hp acted)
  rintro a H' acted' rfl
  exact hf a acted'

theorem keeps_ite (c : Prop) [Decidable c] {p p' : Thread α} (hp : Keeps nests t H p)
    (hp' : Keeps nests t H p') : Keeps nests t H (if c then p else p') := by
  split
  · exact hp
  · exact hp'

/-- A block, where the mutexes of rooms and of the database may be taken. -/
theorem keeps_step (hleaf : ∀ m ∈ H, m = .clientsMutex ∨ m = .chatRoomsMutex) (b : Sect α) :
    Keeps nests t H (step b) := by
  intro acted
  refine Prog.locks_block _ _ (fun l acted' => ?_) fun _ _ => rfl
  cases t <;> exact hleaf

/-- A block that passes through no mutex. -/
theorem keeps_quick {b : Sect α} (hb : Quick b) : Keeps nests t H (step b) :=
  fun _ => Prog.locks_block_quiet _ _ hb fun _ => rfl

/-- After a block that passes through no mutex the thread has just acted. -/
theorem keeps_quick_seq {b : Sect α} (hb : Quick b) {f : α → Thread β}
    (hf : ∀ a, (f a).Locks (mayTake nests t) (fun _ H' _ => H' = H) H true) :
    Keeps nests t H (step b >>= f) := by
  intro acted
  rw [Prog.locks_bind]
  exact Prog.locks_block_quiet _ _ hb hf

theorem locks_holding_of_keeps {m : Mutex} {acted : Bool} (hm : mayTake nests t H acted m) {p : Thread α}
    (hp : Keeps nests t (m :: H) p) :
    (Prog.holding m p).Locks (mayTake nests t) (fun _ H' _ => H' = H) H acted := by
  refine Prog.locks_holding hm (Prog.locks_mono ?_ p _ _ (hp false))
  rintro a H' acted' rfl
  exact ⟨List.mem_cons_self, List.erase_cons_head _ _⟩

theorem keeps_holding {m : Mutex} (hm : ∀ acted, mayTake nests t H acted m) {p : Thread α}
    (hp : Keeps nests t (m :: H) p) : Keeps nests t H (Prog.holding m p) :=
  fun acted => locks_holding_of_keeps (hm acted) hp

end Rules

/-! ## The main thread -/

/-- The commands whose handlers can take `g_chatRoomsMutex` inside `g_clientsMutex`. -/
def Command.CanNest : Command → Prop
  | .create _ => True
  | .join _ => True
  | _ => False

section Main

variable {α : Type} {nests : Prop} (sock : SOCKET)

theorem keeps_reply (text : Bytes) {H : List Mutex} : Keeps nests .main H (reply sock text) :=
  keeps_quick fun _ _ => rfl

/-- `g_clientsMutex` alone. -/
theorem keeps_clients (b : Sect α) : Keeps nests .main [] (critical .clientsMutex b) :=
  keeps_holding main_clients (keeps_step (by simp) b)

/-- `g_clientsMutex` inside `g_chatRoomsMutex`. -/
theorem keeps_clients_inside (b : Sect α) :
    Keeps nests .main [.chatRoomsMutex] (critical .clientsMutex b) :=
  keeps_holding main_clients_inside (keeps_step (by simp) b)

/-- `g_chatRoomsMutex` alone. -/
theorem keeps_rooms (b : Sect α) : Keeps nests .main [] (critical .chatRoomsMutex b) :=
  keeps_holding (rooms_first .main) (keeps_step (by simp) b)

theorem keeps_underRooms {p : Thread α} (hp : Keeps nests .main [.chatRoomsMutex] p) :
    Keeps nests .main [] (Prog.holding .chatRoomsMutex p) :=
  keeps_holding (rooms_first .main) hp

theorem keeps_room_step (b : Sect α) : Keeps nests .main [.chatRoomsMutex] (step b) :=
  keeps_step (by simp) b

theorem keeps_free_step (b : Sect α) : Keeps nests .main [] (step b) := keeps_step (by simp) b

theorem keeps_removeClientFromRoom : Keeps nests .main [] (removeClientFromRoom sock) := by
  refine keeps_seq (keeps_clients _) fun client => keeps_ite _ (keeps_pure _) ?_
  exact keeps_seq (keeps_rooms _) fun _ => keeps_seq (keeps_clients _) fun _ => keeps_rooms _

theorem keeps_makeRoom (client : ClientInfo) (roomId : Bytes) (isPrivate : Bool) (password : Bytes) :
    Keeps nests .main [] (makeRoom sock client roomId isPrivate password) :=
  keeps_seq (keeps_rooms _) fun _ => keeps_seq (keeps_clients _) fun _ =>
    keeps_seq (keeps_free_step _) fun _ => keeps_reply sock _

theorem keeps_handleCreateCommand (params : Bytes) (hnests : nests) :
    Keeps nests .main [] (handleCreateCommand sock params) := by
  refine keeps_ite _ (keeps_reply sock _) (keeps_seq (keeps_free_step _) fun roomId => ?_)
  refine keeps_seq (keeps_holding main_clients ?_) fun client => keeps_makeRoom sock _ _ _ _
  refine keeps_quick_seq (fun _ _ => rfl) fun client => ?_
  split
  · exact keeps_pure _ _
  · -- the creator is in a room: its mutex order is reversed here
    rw [Prog.locks_bind]
    refine Prog.locks_mono ?_ _ _ _ (locks_holding_of_keeps (main_rooms_inside hnests)
      (keeps_step (by simp) _))
    rintro a H' acted' rfl
    exact keeps_pure _ _

theorem keeps_handleJoinCommand (params : Bytes) (hnests : nests) :
    Keeps nests .main [] (handleJoinCommand sock params) := by
  refine keeps_ite _ (keeps_reply sock _) (keeps_holding main_clients ?_)
  refine keeps_quick_seq (fun _ _ => rfl) fun client => ?_
  split
  · exact keeps_reply sock _ _
  · exact locks_holding_of_keeps (main_rooms_inside hnests) (keeps_step (by simp) _)

theorem keeps_handleSetNameCommand (name : Bytes) :
    Keeps nests .main [] (handleSetNameCommand sock name) := by
  refine keeps_ite _ (keeps_reply sock _) (keeps_seq (keeps_clients _) fun available => ?_)
  refine keeps_ite _ (keeps_reply sock _) ?_
  exact keeps_seq (keeps_clients _) fun _ => keeps_reply sock _

theorem keeps_handleGetPasswordCommand : Keeps nests .main [] (handleGetPasswordCommand sock) := by
  refine keeps_seq (keeps_clients _) fun client => keeps_ite _ (keeps_reply sock _) ?_
  exact keeps_ite _ (keeps_reply sock _) (keeps_rooms _)

theorem keeps_handleUsersCommand : Keeps nests .main [] (handleUsersCommand sock) := by
  refine keeps_seq (keeps_clients _) fun client => keeps_ite _ (keeps_reply sock _) ?_
  refine keeps_underRooms (keeps_seq (keeps_room_step _) fun found => keeps_ite _ ?_ (keeps_pure _))
  exact keeps_seq (keeps_room_step _) fun members => keeps_clients_inside _

/-- The checks that the commands of the owner begin with. -/
theorem keeps_handleKickCommand (params : Bytes) : Keeps nests .main [] (handleKickCommand sock params) := by
  refine keeps_ite _ (keeps_reply sock _) (keeps_seq (keeps_clients _) fun client => ?_)
  refine keeps_ite _ (keeps_reply sock _) (keeps_ite _ (keeps_reply sock _) ?_)
  refine keeps_ite _ (keeps_reply sock _) (keeps_seq (keeps_clients _) fun target => ?_)
  refine keeps_ite _ (keeps_reply sock _) (keeps_seq (keeps_free_step _) fun _ => ?_)
  refine keeps_seq (keeps_reply target _) fun _ => keeps_seq (keeps_rooms _) fun _ => ?_
  exact keeps_clients _

theorem keeps_handleBanCommand (params : Bytes) : Keeps nests .main [] (handleBanCommand sock params) := by
  refine keeps_ite _ (keeps_reply sock _) (keeps_seq (keeps_clients _) fun client => ?_)
  refine keeps_ite _ (keeps_reply sock _) (keeps_ite _ (keeps_reply sock _) ?_)
  refine keeps_ite _ (keeps_reply sock _) (keeps_seq (keeps_clients _) fun target => ?_)
  refine keeps_underRooms (keeps_seq (keeps_room_step _) fun found => keeps_ite _ ?_ (keeps_pure _))
  refine keeps_seq (keeps_room_step _) fun _ => ?_
  split
  · exact keeps_reply sock _
  · exact keeps_seq (keeps_room_step _) fun _ =>
      keeps_seq (keeps_clients_inside _) fun _ => keeps_reply sock _

theorem keeps_handleTransferCommand (params : Bytes) :
    Keeps nests .main [] (handleTransferCommand sock params) := by
  refine keeps_ite _ (keeps_reply sock _) (keeps_seq (keeps_clients _) fun client => ?_)
  refine keeps_ite _ (keeps_reply sock _) (keeps_ite _ (keeps_reply sock _) ?_)
  refine keeps_ite _ (keeps_reply sock _) (keeps_seq (keeps_clients _) fun target => ?_)
  refine keeps_ite _ (keeps_reply sock _) ?_
  refine keeps_underRooms (keeps_seq (keeps_room_step _) fun found => keeps_ite _ ?_ (keeps_pure _))
  exact keeps_seq (keeps_room_step _) fun _ => keeps_clients_inside _

theorem keeps_handleLeaveCommand : Keeps nests .main [] (handleLeaveCommand sock) := by
  refine keeps_seq (keeps_clients _) fun client => keeps_ite _ (keeps_reply sock _) ?_
  refine keeps_ite _ (keeps_reply sock _) (keeps_seq (keeps_rooms _) fun _ => ?_)
  exact keeps_seq (keeps_clients _) fun _ => keeps_reply sock _

theorem keeps_handOverRoom (client : ClientInfo) : Keeps nests .main [] (handOverRoom sock client) := by
  refine keeps_underRooms (keeps_seq (keeps_room_step _) fun found => keeps_ite _ ?_ (keeps_pure _))
  refine keeps_seq (keeps_room_step _) fun newOwner => keeps_seq ?_ fun name => keeps_room_step _
  exact keeps_ite _ (keeps_clients_inside _) (keeps_pure _)

theorem keeps_handleForceLeaveCommand : Keeps nests .main [] (handleForceLeaveCommand sock) := by
  refine keeps_seq (keeps_clients _) fun client => keeps_ite _ (keeps_reply sock _) ?_
  refine keeps_ite _ (keeps_reply sock _) (keeps_seq (keeps_handOverRoom sock client) fun _ => ?_)
  exact keeps_seq (keeps_clients _) fun _ => keeps_reply sock _

theorem keeps_handleChangePasswordCommand (params : Bytes) :
    Keeps nests .main [] (handleChangePasswordCommand sock params) := by
  refine keeps_ite _ (keeps_reply sock _) (keeps_seq (keeps_clients _) fun client => ?_)
  exact keeps_ite _ (keeps_reply sock _) (keeps_ite _ (keeps_reply sock _) (keeps_rooms _))

theorem keeps_runCommand (c : Command) (hnests : c.CanNest → nests) :
    Keeps nests .main [] (runCommand sock c) := by
  cases c with
  | create params => exact keeps_handleCreateCommand sock params (hnests trivial)
  | join params => exact keeps_handleJoinCommand sock params (hnests trivial)
  | setName name => exact keeps_handleSetNameCommand sock name
  | list => exact keeps_rooms _
  | getPassword => exact keeps_handleGetPasswordCommand sock
  | users => exact keeps_handleUsersCommand sock
  | kick params => exact keeps_handleKickCommand sock params
  | ban params => exact keeps_handleBanCommand sock params
  | transfer params => exact keeps_handleTransferCommand sock params
  | leave => exact keeps_handleLeaveCommand sock
  | forceLeave => exact keeps_handleForceLeaveCommand sock
  | changePassword params => exact keeps_handleChangePasswordCommand sock params
  | unknown => exact keeps_reply sock _

theorem keeps_pushMessage (msg : Message) : Keeps nests .main [] (pushMessage msg) :=
  keeps_holding (queue_alone .main) (keeps_quick fun _ _ => rfl)

theorem keeps_runRequest (r : Request) (hnests : ∀ c, r.command? = some c → c.CanNest → nests) :
    Keeps nests .main [] (runRequest sock r) := by
  cases r with
  | command c => exact keeps_runCommand sock c (hnests c rfl)
  | badPrivateMessage => exact keeps_reply sock _
  | privateMessage recipientName content =>
      refine keeps_seq (keeps_clients _) fun client => keeps_ite _ (keeps_reply sock _) ?_
      exact keeps_ite _ (keeps_reply sock _) (keeps_pushMessage _)
  | chat text =>
      refine keeps_seq (keeps_clients _) fun client => keeps_ite _ (keeps_reply sock _) ?_
      exact keeps_pushMessage _

/-- Every handler keeps the order. -/
theorem keeps_handler (ev : Event) (hnests : ∀ c, ev.command = some c → c.CanNest → nests) :
    Keeps nests .main [] ev.handler := by
  have hpoll : ∀ f : Env → Globals → Globals,
      Keeps nests .main [] (critical .pollFdsMutex (.modify f)) := fun f =>
    keeps_holding (pollFds_alone .main) (keeps_quick fun _ _ => rfl)
  cases ev with
  | connect sock =>
      refine keeps_seq (keeps_free_step _) fun _ => keeps_seq (keeps_clients _) fun _ => ?_
      exact keeps_seq (hpoll _) fun _ => keeps_reply sock _
  | hangup sock =>
      refine keeps_seq (keeps_removeClientFromRoom sock) fun _ => keeps_seq (keeps_clients _) ?_
      exact fun _ => keeps_seq (keeps_free_step _) fun _ => hpoll _
  | receive sock buffer =>
      show Keeps nests .main [] (handleClientMessage sock buffer)
      rw [handleClientMessage]
      cases ht : actedText buffer with
      | none => exact keeps_pure _
      | some text =>
          refine keeps_runRequest sock _ fun c hc => hnests c ?_
          rw [Event.command, ht]
          exact hc

end Main

/-! ## The other threads -/

section Others

variable {nests : Prop}

theorem keeps_deliverMessage (message : Message) : Keeps nests .broadcaster [] (deliverMessage message) := by
  refine keeps_holding (rooms_first .broadcaster) (keeps_quick_seq (fun _ _ => rfl) fun found => ?_)
  split
  · split
    · rw [findClientByUsername, critical, Prog.locks_bind]
      refine Prog.locks_mono ?_ _ _ _ (locks_holding_of_keeps broadcaster_clients (keeps_step (by simp) _))
      rintro a H' acted' rfl
      exact keeps_step (by simp) _ _
    · exact keeps_step (by simp) _ _
  · exact keeps_pure _ _

/-- A round of the broadcaster keeps the order. -/
theorem keeps_broadcastRound : Keeps nests .broadcaster [] broadcastRound := by
  refine keeps_seq (keeps_quick fun _ _ => rfl) fun stop => ?_
  split
  · exact keeps_pure _
  · refine keeps_seq (keeps_holding (queue_alone .broadcaster) ?_) fun message => ?_
    · refine keeps_seq (keeps_quick fun _ _ => rfl) fun ready => ?_
      have hpop : Keeps nests .broadcaster [.queueMutex] (step popMessage) := keeps_quick fun _ _ => rfl
      split
      · exact hpop
      · refine keeps_seq (fun _ => ?_) fun _ => hpop
        exact ⟨List.mem_cons_self, rfl, rfl⟩
    · cases message with
      | none => exact keeps_pure _
      | some message => exact keeps_deliverMessage message

theorem keeps_cleanupEmptyRoom (n : Nat) (roomId : Bytes) :
    Keeps nests (.cleanup n) [] (cleanupEmptyRoom roomId) :=
  keeps_holding (rooms_first (.cleanup n)) (keeps_step (by simp) _)

end Others

end TerminalChat.Server
