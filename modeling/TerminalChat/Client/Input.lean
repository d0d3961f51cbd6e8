import Mathlib
import TerminalChat.Client.ClientState

/-!
# The input loop of the client

`sendMessageToServer`: the prompt for a name (`promptName`), and the loop that reads a line, checks it
against the state of the client, and sends it (`handleInput`). For its checks the loop upper-cases its own
copies of the command word and of the type in CREATE; what it sends is the line itself.
-/

set_option autoImplicit false

namespace TerminalChat.Client

open TerminalChat.Text

/-- The loop `for (auto& c : s) c = toupper(c)`. -/
def upper (s : Bytes) : Bytes := s.map toUpper

/-- What the input loop has validated a line as, with the parts of the line it has looked at. -/
inductive Validated where
  | privateMessage (recipientName : Bytes)
  | createPublic
  | createPrivate (password : Bytes)
  | join (roomId : Bytes)
  | leave
  | forceLeave
  | kick (targetUser : Bytes)
  | ban (targetUser : Bytes)
  | transfer (targetUser : Bytes)
  | changePassword (newPass : Bytes)
  | list
  | users
  | getPassword
  | chat
  deriving DecidableEq

/-- One turn of the input loop: the state it leaves, and the message it sends with what it has
validated it as. -/
structure Turn where
  state : ClientState
  sent : Option (Bytes × Validated)
  deriving DecidableEq

/-- `continue`: nothing is sent. -/
def skip (state : ClientState) : Turn := ⟨state, none⟩

/-- The message is sent. -/
def transmit (state : ClientState) (message : Bytes) (v : Validated) : Turn :=
  ⟨state, some (message, v)⟩

/-- A line that starts with `@`. -/
def privateInput (state : ClientState) (message : Bytes) : Turn :=
  if !state.inRoom then skip state
  else match message.idxOf? space with
    | none => skip state
    | some spacePos =>
        if spacePos = 1 then skip state
        else
          let recipientName := trim ((message.drop 1).take (spacePos - 1))
          if recipientName.isEmpty then skip state
          else transmit state message (.privateMessage recipientName)

/-- CREATE; `rest` is what the stream holds after the command word. -/
def createInput (state : ClientState) (message rest : Bytes) : Turn :=
  let type := upper (word rest)
  if type ≠ str "PUBLIC" ∧ type ≠ str "PRIVATE" then skip state
  else if type = str "PRIVATE" then
    let password := trim (getline (afterWord rest))
    if password.isEmpty then skip state else transmit state message (.createPrivate password)
  else transmit state message .createPublic

/-- JOIN. -/
def joinInput (state : ClientState) (message rest : Bytes) : Turn :=
  let roomId := word rest
  if roomId.isEmpty then skip state
  else transmit { state with pendingRoomJoin := roomId } message (.join roomId)

/-- LEAVE: after the warning of the server it is sent as FORCELEAVE. -/
def leaveInput (state : ClientState) (message : Bytes) : Turn :=
  if !state.inRoom then skip state
  else if state.ownerLeaveWarning then
    transmit { state with ownerLeaveWarning := false } (str "/FORCELEAVE") .forceLeave
  else transmit state message .leave

/-- KICK, BAN, TRANSFER and CHANGEPASSWORD: the client must be in a room and its owner, and the
argument must not be empty. -/
def ownerInput (state : ClientState) (message rest : Bytes) (v : Bytes → Validated) : Turn :=
  if !state.inRoom then skip state
  else if !state.isRoomOwner then skip state
  else
    let argument := trim (getline rest)
    if argument.isEmpty then skip state else transmit state message (v argument)

/-- The commands that the input loop tells apart. -/
inductive ClientCommand where
  | create
  | join
  | leave
  | kick
  | ban
  | transfer
  | changePassword
  | help
  | list
  | users
  | getPassword
  deriving DecidableEq

/-- The word that the upper-cased command word is compared with. -/
def ClientCommand.name : ClientCommand → Bytes
  | .create => str "CREATE"
  | .join => str "JOIN"
  | .leave => str "LEAVE"
  | .kick => str "KICK"
  | .ban => str "BAN"
  | .transfer => str "TRANSFER"
  | .changePassword => str "CHANGEPASSWORD"
  | .help => str "HELP"
  | .list => str "LIST"
  | .users => str "USERS"
  | .getPassword => str "GETPASSWORD"

/-- The commands in the order of the comparisons. -/
def clientCommands : List ClientCommand :=
  [.create, .join, .leave, .kick, .ban, .transfer, .changePassword, .help, .list, .users,
    .getPassword]

/-- The command with the word `cmd`. -/
def clientCommandOf (cmd : Bytes) : Option ClientCommand :=
  clientCommands.find? fun c => c.name == cmd

/-- A command; `rest` is what the stream holds after the command word. -/
def runClientCommand (state : ClientState) (message rest : Bytes) : ClientCommand → Turn
  | .create => createInput state message rest
  | .join => joinInput state message rest
  | .leave => leaveInput state message
  | .kick => ownerInput state message rest .kick
  | .ban => ownerInput state message rest .ban
  | .transfer => ownerInput state message rest .transfer
  | .changePassword => ownerInput state message rest .changePassword
  | .help => skip state
  | .list => transmit state message .list
  | .users => transmit state message .users
  | .getPassword => transmit state message .getPassword

/-- A line that starts with `/`. -/
def commandInput (state : ClientState) (message : Bytes) : Turn :=
  match clientCommandOf (upper (word (message.drop 1))) with
  | some c => runClientCommand state message (afterWord (message.drop 1)) c
  | none => skip state

/-- The turn of the input loop on a line. -/
def handleInput (state : ClientState) (line : Bytes) : Turn :=
  let message := trim line
  if message.isEmpty then skip state
  else if message = str "quit" ∨ message = str "exit" then skip { state with shouldExit := true }
  else if startsWith (str "@") message then privateInput state message
  else if startsWith (str "/") message then commandInput state message
  else if !state.inRoom then skip state
  else transmit state message .chat

theorem name_of_clientCommandOf {cmd : Bytes} {c : ClientCommand}
    (h : clientCommandOf cmd = some c) : c.name = cmd := by
  simpa using List.find?_some h

theorem not_slash_of_at {message : Bytes} (hat : startsWith (str "@") message = true) :
    startsWith (str "/") message = false := by
  cases message with
  | nil => rfl
  | cons c cs =>
      rw [show str "@" = [64] from rfl] at hat
      rw [show str "/" = [47] from rfl]
      simp only [startsWith, List.isPrefixOf_cons_cons, Bool.and_eq_true, beq_iff_eq] at hat ⊢
      simp [← hat.1]

/-- The name that the prompt takes from a line. -/
def chosenName (line : Bytes) : Bytes :=
  if (trim line).isEmpty then str "Anonymous" else trim line

/-- The prompt for a name: the state it leaves and the command it sends. -/
def promptName (state : ClientState) (line : Bytes) : ClientState × Bytes :=
  ({ state with username := chosenName line, waitingForNameValidation := true },
    str "/SETNAME " ++ chosenName line)

/-! ## What the client sends -/

section Sent

variable {state : ClientState} {message rest m : Bytes} {v : Validated}

theorem sent_transmit {state' : ClientState} {v' : Validated} :
    (transmit state' message v').sent = some (m, v) ↔ m = message ∧ v = v' := by
  simp [transmit, eq_comm]

theorem sent_skip {state' : ClientState} : (skip state').sent ≠ some (m, v) := by
  simp [skip]

theorem sent_privateInput (h : (privateInput state message).sent = some (m, v)) :
    m = message ∧ ∃ p, message.idxOf? space = some p ∧ p ≠ 1 ∧
      trim ((message.drop 1).take (p - 1)) ≠ [] ∧
      v = .privateMessage (trim ((message.drop 1).take (p - 1))) := by
  unfold privateInput at h
  split at h
  · exact absurd h sent_skip
  · split at h
    · exact absurd h sent_skip
    · rename_i p hp
      dsimp only at h
      split at h
      · exact absurd h sent_skip
      · rename_i hne
        split at h
        · exact absurd h sent_skip
        · rename_i hname
          obtain ⟨rfl, rfl⟩ := sent_transmit.1 h
          exact ⟨rfl, p, hp, hne, by simpa using hname, rfl⟩

theorem sent_createInput (h : (createInput state message rest).sent = some (m, v)) :
    m = message ∧ (upper (word rest) = str "PUBLIC" ∧ v = .createPublic ∨
      upper (word rest) = str "PRIVATE" ∧ trim (getline (afterWord rest)) ≠ [] ∧
        v = .createPrivate (trim (getline (afterWord rest)))) := by
  unfold createInput at h
  dsimp only at h
  split at h
  · exact absurd h sent_skip
  · rename_i htype
    split at h
    · rename_i hprivate
      split at h
      · exact absurd h sent_skip
      · rename_i hpw
        obtain ⟨rfl, rfl⟩ := sent_transmit.1 h
        exact ⟨rfl, Or.inr ⟨hprivate, by simpa using hpw, rfl⟩⟩
    · rename_i hprivate
      obtain ⟨rfl, rfl⟩ := sent_transmit.1 h
      refine ⟨rfl, Or.inl ⟨?_, rfl⟩⟩
      -- neither word would have been refused
      by_contra hpublic
      exact htype ⟨hpublic, hprivate⟩

theorem sent_joinInput (h : (joinInput state message rest).sent = some (m, v)) :
    m = message ∧ v = .join (word rest) := by
  unfold joinInput at h
  dsimp only at h
  split at h
  · exact absurd h sent_skip
  · exact sent_transmit.1 h

theorem sent_leaveInput (h : (leaveInput state message).sent = some (m, v)) :
    m = message ∧ v = .leave ∨ m = str "/FORCELEAVE" ∧ v = .forceLeave := by
  unfold leaveInput at h
  split at h
  · exact absurd h sent_skip
  · split at h
    · exact Or.inr (sent_transmit.1 h)
    · exact Or.inl (sent_transmit.1 h)

theorem sent_ownerInput {f : Bytes → Validated}
    (h : (ownerInput state message rest f).sent = some (m, v)) :
    m = message ∧ v = f (trim (getline rest)) := by
  unfold ownerInput at h
  dsimp only at h
  split at h
  · exact absurd h sent_skip
  · split at h
    · exact absurd h sent_skip
    · split at h
      · exact absurd h sent_skip
      · exact sent_transmit.1 h

/-- A command is sent as it was typed, or as FORCELEAVE. -/
theorem sent_runClientCommand {c : ClientCommand}
    (h : (runClientCommand state message rest c).sent = some (m, v)) :
    m = message ∨ m = str "/FORCELEAVE" ∧ v = .forceLeave := by
  cases c with
  | create => exact Or.inl (sent_createInput h).1
  | join => exact Or.inl (sent_joinInput h).1
  | leave => exact (sent_leaveInput h).imp_left And.left
  | help => exact absurd h sent_skip
  | list => exact Or.inl (sent_transmit.1 h).1
  | users => exact Or.inl (sent_transmit.1 h).1
  | getPassword => exact Or.inl (sent_transmit.1 h).1
  | kick => exact Or.inl (sent_ownerInput h).1
  | ban => exact Or.inl (sent_ownerInput h).1
  | transfer => exact Or.inl (sent_ownerInput h).1
  | changePassword => exact Or.inl (sent_ownerInput h).1

/-- What the input loop sends: the line itself, or FORCELEAVE in place of a second LEAVE. -/
theorem sent_handleInput {line : Bytes} (h : (handleInput state line).sent = some (m, v)) :
    trim line ≠ [] ∧
    (startsWith (str "@") (trim line) = true ∧ (privateInput state (trim line)).sent = some (m, v) ∨
    startsWith (str "@") (trim line) = false ∧ startsWith (str "/") (trim line) = true ∧
      (∃ c, clientCommandOf (upper (word ((trim line).drop 1))) = some c ∧
        (runClientCommand state (trim line) (afterWord ((trim line).drop 1)) c).sent =
          some (m, v)) ∨
    startsWith (str "@") (trim line) = false ∧ startsWith (str "/") (trim line) = false ∧
      m = trim line ∧ v = .chat) := by
  unfold handleInput at h
  dsimp only at h
  split at h
  · exact absurd h sent_skip
  rename_i hne
  refine ⟨by simpa using hne, ?_⟩
  split at h
  · exact absurd h sent_skip
  split at h
  · rename_i hat
    -- the source tests the at sign before the slash
    exact Or.inl ⟨hat, h⟩
  rename_i hat
  rw [Bool.not_eq_true] at hat
  split at h
  · rename_i hslash
    unfold commandInput at h
    split at h
    · rename_i c hc
      exact Or.inr (Or.inl ⟨hat, hslash, c, hc, h⟩)
    · exact absurd h sent_skip
  · rename_i hslash
    rw [Bool.not_eq_true] at hslash
    split at h
    · exact absurd h sent_skip
    · exact Or.inr (Or.inr ⟨hat, hslash, sent_transmit.1 h⟩)

/-- What the client sends for a line is one line. -/
theorem oneLine_sent {line : Bytes} (hline : OneLine line)
    (h : (handleInput state line).sent = some (m, v)) : OneLine m := by
  rcases (sent_handleInput h).2 with ⟨-, hat⟩ | ⟨-, -, c, -, hc⟩ | ⟨-, -, rfl, -⟩
  · rw [(sent_privateInput hat).1]
    exact hline.trim
  · rcases sent_runClientCommand hc with rfl | ⟨rfl, -⟩
    · exact hline.trim
    · decide
  · exact hline.trim

end Sent

/-! ## The state it leaves -/

section Left

variable (state : ClientState) (message rest : Bytes)

theorem state_privateInput : (privateInput state message).state = state := by
  unfold privateInput
  split
  · rfl
  · split
    · rfl
    · dsimp only
      split
      · rfl
      · split <;> rfl

theorem state_createInput : (createInput state message rest).state = state := by
  unfold createInput
  dsimp only
  split
  · rfl
  · split
    · split <;> rfl
    · rfl

theorem state_ownerInput (v : Bytes → Validated) : (ownerInput state message rest v).state = state := by
  unfold ownerInput
  dsimp only
  split
  · rfl
  · split
    · rfl
    · split <;> rfl

theorem view_joinInput : (joinInput state message rest).state.view = state.view := by
  unfold joinInput
  dsimp only
  split <;> rfl

theorem view_leaveInput : (leaveInput state message).state.view = state.view := by
  unfold leaveInput
  split
  · rfl
  · split <;> rfl

theorem view_runClientCommand (c : ClientCommand) :
    (runClientCommand state message rest c).state.view = state.view := by
  cases c with
  | create => exact congrArg ClientState.view (state_createInput state message rest)
  | join => exact view_joinInput state message rest
  | leave => exact view_leaveInput state message
  | kick => exact congrArg ClientState.view (state_ownerInput state message rest _)
  | ban => exact congrArg ClientState.view (state_ownerInput state message rest _)
  | transfer => exact congrArg ClientState.view (state_ownerInput state message rest _)
  | changePassword => exact congrArg ClientState.view (state_ownerInput state message rest _)
  | _ => rfl

/-- The input loop does not change the view. -/
theorem view_handleInput (line : Bytes) : (handleInput state line).state.view = state.view := by
  unfold handleInput
  dsimp only
  split
  · rfl
  · split
    · rfl
    · split
      · exact congrArg ClientState.view (state_privateInput state _)
      · split
        · unfold commandInput
          split
          · exact view_runClientCommand state _ _ _
          · rfl
        · split <;> rfl

end Left

end TerminalChat.Client
