import Mathlib
import TerminalChat.Client.Input

/-!
# What the branches of the client do not look at

The two flags and the name are written by the name loop, by the answers to SETNAME and by the exit. No other
branch of the client reads them, so what a line does, typed or received, depends on the rest of the state
(`handleInput_congr`, `receiveLine_congr`).
-/

set_option autoImplicit false

namespace TerminalChat.Client

open TerminalChat.Text

/-- The state without the flags and the name, which only the name loop and the exit use. -/
def ClientState.core (state : ClientState) : ClientState :=
  { state with shouldExit := false, waitingForNameValidation := false, username := [] }

/-- The turn with the core of its state. -/
def Turn.core (turn : Turn) : Turn := { turn with state := turn.state.core }

theorem view_core (state : ClientState) : state.core.view = state.view := rfl

theorem core_handleResponse (message : Bytes) (state : ClientState) (r : Response) :
    (handleResponse message state.core r).core = (handleResponse message state r).core := by
  cases r <;> rfl

theorem core_receiveLine (line : Bytes) (state : ClientState) :
    (receiveLine line state.core).core = (receiveLine line state).core := by
  unfold receiveLine
  dsimp only
  split
  · rfl
  · exact core_handleResponse _ state _

section Turns

variable (state : ClientState) (message rest : Bytes)

theorem core_privateInput : (privateInput state.core message).core = (privateInput state message).core := by
  have hin : state.core.inRoom = state.inRoom := rfl
  unfold privateInput
  rw [hin]
  split
  · rfl
  · split
    · rfl
    · dsimp only
      split
      · rfl
      · split <;> rfl

theorem core_createInput :
    (createInput state.core message rest).core = (createInput state message rest).core := by
  unfold createInput
  dsimp only
  split
  · rfl
  · split
    · split <;> rfl
    · rfl

theorem core_joinInput : (joinInput state.core message rest).core = (joinInput state message rest).core := by
  unfold joinInput
  dsimp only
  split <;> rfl

theorem core_leaveInput : (leaveInput state.core message).core = (leaveInput state message).core := by
  have hin : state.core.inRoom = state.inRoom := rfl
  have hwarned : state.core.ownerLeaveWarning = state.ownerLeaveWarning := rfl
  unfold leaveInput
  rw [hin, hwarned]
  split
  · rfl
  · split <;> rfl

theorem core_ownerInput (v : Bytes → Validated) :
    (ownerInput state.core message rest v).core = (ownerInput state message rest v).core := by
  have hin : state.core.inRoom = state.inRoom := rfl
  have howner : state.core.isRoomOwner = state.isRoomOwner := rfl
  unfold ownerInput
  rw [hin, howner]
  dsimp only
  split
  · rfl
  · split
    · rfl
    · split <;> rfl

theorem core_runClientCommand (c : ClientCommand) :
    (runClientCommand state.core message rest c).core = (runClientCommand state message rest c).core := by
  cases c with
  | create => exact core_createInput state message rest
  | join => exact core_joinInput state message rest
  | leave => exact core_leaveInput state message
  | kick => exact core_ownerInput state message rest _
  | ban => exact core_ownerInput state message rest _
  | transfer => exact core_ownerInput state message rest _
  | changePassword => exact core_ownerInput state message rest _
  | _ => rfl

/-- A turn of the input loop depends on the core of the state only. -/
theorem core_handleInput (line : Bytes) :
    (handleInput state.core line).core = (handleInput state line).core := by
  have hin : state.core.inRoom = state.inRoom := rfl
  unfold handleInput
  rw [hin]
  dsimp only
  split
  · rfl
  · split
    · rfl
    · split
      · exact core_privateInput state _
      · split
        · unfold commandInput
          split
          · exact core_runClientCommand state _ _ _
          · rfl
        · split <;> rfl

end Turns

/-- States with the same core take the same turn. -/
theorem handleInput_congr {state state' : ClientState} (h : state.core = state'.core) (line : Bytes) :
    (handleInput state line).core = (handleInput state' line).core := by
  rw [← core_handleInput state, h, core_handleInput]

theorem receiveLine_congr {state state' : ClientState} (h : state.core = state'.core) (line : Bytes) :
    (receiveLine line state).core = (receiveLine line state').core := by
  rw [← core_receiveLine line state, h, core_receiveLine]

/-- `quit` and `exit` send nothing and change nothing but the flag. -/
theorem handleInput_quit {line : Bytes} (h : trim line = str "quit" ∨ trim line = str "exit")
    (state : ClientState) : handleInput state line = skip { state with shouldExit := true } := by
  have hne : (trim line).isEmpty = false := by
    rcases h with h | h
    · rw [h]
      rfl
    · rw [h]
      rfl
  unfold handleInput
  simp [hne, h]

end TerminalChat.Client
