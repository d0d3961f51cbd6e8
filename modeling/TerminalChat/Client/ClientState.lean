import Mathlib
import TerminalChat.Abstract.Hall
import TerminalChat.Text.Bytes

/-!
# The client and the lines it receives

`ClientState` and the part of `receiveMessages` that changes it. The receiver compares each line with
a list of markers, in order; a line that starts with none of them is a chat message. What a line does
to the fields `m_inRoom`, `m_currentRoomId` and `m_isRoomOwner` depends on these fields only, so it is
an update of the view of a hall.
-/

set_option autoImplicit false

namespace TerminalChat.Client

open TerminalChat.Text TerminalChat.Abstract

/-- The client. The defaults are those of `ClientState()`. -/
structure ClientState where
  inRoom : Bool := false
  shouldExit : Bool := false
  waitingForNameValidation : Bool := false
  ownerLeaveWarning : Bool := false
  isRoomOwner : Bool := false
  currentRoomId : Bytes := []
  username : Bytes := []
  pendingRoomJoin : Bytes := []
  deriving DecidableEq

/-- `ClientState::resetRoomState`. -/
def ClientState.resetRoomState (state : ClientState) : ClientState :=
  { state with
    inRoom := false
    isRoomOwner := false
    ownerLeaveWarning := false
    currentRoomId := [] }

/-- `ClientState::clearPendingJoin`. -/
def ClientState.clearPendingJoin (state : ClientState) : ClientState :=
  { state with pendingRoomJoin := [] }

/-- The kinds of lines that `receiveMessages` tells apart. -/
inductive Response where
  | welcome
  | roomCreated
  | roomJoined
  | historyStart
  | historyEnd
  | roomNotFound
  | passwordRequired
  | wrongPassword
  | nameSet
  | nameTaken
  | roomsList
  | usersList
  | roomPassword
  | passwordChanged
  | kickedFromRoom
  | leftRoom
  | ownerLeaveWarning
  | ownershipReceived
  | success
  | pmFrom
  | pmSent
  | error
  | system
  | chat
  deriving DecidableEq

/-- The markers that `receiveMessages` looks for at the start of a line, in its order. -/
def markers : List (Bytes × Response) := [
  (str "WELCOME:", .welcome),
  (str "ROOM_CREATED:", .roomCreated),
  (str "ROOM_JOINED:", .roomJoined),
  (str "MESSAGE_HISTORY_START", .historyStart),
  (str "MESSAGE_HISTORY_END", .historyEnd),
  (str "ROOM_NOT_FOUND", .roomNotFound),
  (str "PASSWORD_REQUIRED", .passwordRequired),
  (str "WRONG_PASSWORD", .wrongPassword),
  (str "NAME_SET", .nameSet),
  (str "NAME_TAKEN", .nameTaken),
  (str "ROOMS_LIST:", .roomsList),
  (str "USERS_LIST:", .usersList),
  (str "ROOM_PASSWORD:", .roomPassword),
  (str "PASSWORD_CHANGED:", .passwordChanged),
  (str "KICKED_FROM_ROOM", .kickedFromRoom),
  (str "LEFT_ROOM", .leftRoom),
  (str "OWNER_LEAVE_WARNING", .ownerLeaveWarning),
  (str "OWNERSHIP_RECEIVED", .ownershipReceived),
  (str "SUCCESS:", .success),
  (str "PM_FROM:", .pmFrom),
  (str "PM_SENT:", .pmSent),
  (str "ERROR:", .error),
  (str "SYSTEM:", .system)]

/-- The kind of a trimmed line. -/
def responseOf (message : Bytes) : Response :=
  ((markers.find? fun p => startsWith p.1 message).map (·.2)).getD .chat

/-- The colon character. -/
def colon : UInt8 := 58

/-- The room id in a `ROOM_CREATED` line: what stands between its first two colons. -/
def createdRoomId (message : Bytes) : Bytes :=
  trim (((message.dropWhile fun c => c != colon).drop 1).takeWhile fun c => c != colon)

/-- The room id in a `ROOM_JOINED` line. -/
def joinedRoomId (message : Bytes) : Bytes := trim (message.drop 12)

/-- What a line of some kind does to the client. -/
def handleResponse (message : Bytes) (state : ClientState) : Response → ClientState
  | .roomCreated => { state with
      currentRoomId := createdRoomId message, inRoom := true, isRoomOwner := true }
  | .roomJoined => { state with
      currentRoomId := joinedRoomId message, inRoom := true, isRoomOwner := false }.clearPendingJoin
  | .roomNotFound => { state with inRoom := false }.clearPendingJoin
  | .passwordRequired => state.clearPendingJoin
  | .wrongPassword => state.clearPendingJoin
  | .nameSet => { state with waitingForNameValidation := false }
  | .nameTaken => { state with username := [], waitingForNameValidation := false }
  | .kickedFromRoom => state.resetRoomState
  | .leftRoom => state.resetRoomState
  | .ownerLeaveWarning => { state with ownerLeaveWarning := true }
  | .ownershipReceived => { state with isRoomOwner := true }
  | _ => state

/-- What `receiveMessages` does with a line. -/
def receiveLine (line : Bytes) (state : ClientState) : ClientState :=
  let message := trim line
  if message.isEmpty then state else handleResponse message state (responseOf message)

/-! ## The view of a client -/

/-- The place and the ownership that the client has been told. -/
def ClientState.view (state : ClientState) : View Bytes :=
  ⟨if state.inRoom then some state.currentRoomId else none, state.isRoomOwner⟩

/-- What a line of some kind does to the view. -/
def viewResponse (message : Bytes) (v : View Bytes) : Response → View Bytes
  | .roomCreated => ⟨some (createdRoomId message), true⟩
  | .roomJoined => ⟨some (joinedRoomId message), false⟩
  | .roomNotFound => { v with place := none }
  | .kickedFromRoom => .blank
  | .leftRoom => .blank
  | .ownershipReceived => { v with owner := true }
  | _ => v

/-- What a line does to the view. -/
def viewLine (line : Bytes) (v : View Bytes) : View Bytes :=
  viewResponse (trim line) v (responseOf (trim line))

theorem view_handleResponse (message : Bytes) (state : ClientState) (r : Response) :
    (handleResponse message state r).view = viewResponse message state.view r := by
  cases r <;> rfl

/-- The view of the client follows the lines it receives. -/
theorem view_receiveLine (line : Bytes) (state : ClientState) :
    (receiveLine line state).view = viewLine line state.view := by
  unfold receiveLine viewLine
  by_cases h : trim line = []
  · have hr : responseOf ([] : Bytes) = .chat := by decide
    simp [h, hr, viewResponse]
  · simpa [h] using view_handleResponse (trim line) state (responseOf (trim line))

/-! ## Lines with a known start -/

/-- A start that decides the kind of a line: no longer marker goes on from it. -/
def Decisive (start : Bytes) : Prop :=
  ∀ p ∈ markers, startsWith p.1 start = true ∨ startsWith start p.1 = false

instance (start : Bytes) : Decidable (Decisive start) :=
  inferInstanceAs (Decidable (∀ p ∈ markers, _))

theorem startsWith_append_iff {p start : Bytes} (h : startsWith p start = true ∨
    startsWith start p = false) (rest : Bytes) :
    startsWith p (start ++ rest) = startsWith p start := by
  rw [Bool.eq_iff_iff]
  simp only [startsWith, List.isPrefixOf_iff_prefix] at h ⊢
  constructor
  · intro hp
    rcases h with h | h
    · exact h
    · rcases List.prefix_or_prefix_of_prefix hp (List.prefix_append start rest) with h' | h'
      · exact h'
      · rw [← List.isPrefixOf_iff_prefix, h] at h'
        exact absurd h' (by simp)
  · exact fun hp => hp.trans (List.prefix_append start rest)

/-- The kind of a line with a decisive start. -/
theorem responseOf_append {start : Bytes} (h : Decisive start) (rest : Bytes) :
    responseOf (start ++ rest) = responseOf start := by
  have hfind : markers.find? (fun p => startsWith p.1 (start ++ rest)) =
      markers.find? fun p => startsWith p.1 start :=
    List.find?_congr fun p hp => startsWith_append_iff (h p hp) rest
  rw [responseOf, hfind, responseOf]

/-- What a line with a decisive start does to the view. -/
theorem viewLine_append {start : Bytes} (h : Decisive start) (ht : Trimmed start)
    (hne : start ≠ []) (rest : Bytes) (v : View Bytes) : viewLine (start ++ rest) v =
      viewResponse (start ++ rest.rdropWhile isBlank) v (responseOf start) := by
  rw [viewLine, trim_append ht hne, responseOf_append h]

/-- A text that tells a client nothing about its place. -/
def Quiet (text : Bytes) : Prop := ∀ v, viewLine text v = v

/-- The kinds of lines that tell a client nothing about its place. -/
def Response.quiet : Response → Bool
  | .roomCreated => false
  | .roomJoined => false
  | .roomNotFound => false
  | .kickedFromRoom => false
  | .leftRoom => false
  | .ownershipReceived => false
  | _ => true

theorem viewResponse_of_quiet {r : Response} (h : r.quiet = true) (message : Bytes)
    (v : View Bytes) : viewResponse message v r = v := by
  cases r <;> first | rfl | simp [Response.quiet] at h

/-- A start that makes every line quiet. -/
def Silent (start : Bytes) : Prop :=
  Decisive start ∧ Trimmed start ∧ start ≠ [] ∧ (responseOf start).quiet = true

instance (start : Bytes) : Decidable (Silent start) := inferInstanceAs (Decidable (_ ∧ _))

theorem quiet_append {p : Bytes} (h : Silent p) (rest : Bytes) : Quiet (p ++ rest) := by
  intro v
  rw [viewLine_append h.1 h.2.1 h.2.2.1]
  exact viewResponse_of_quiet h.2.2.2 _ v

end TerminalChat.Client
