import TerminalChat.Client.Dispatch
import TerminalChat.Client.Wrapping
import TerminalChat.Server.Handlers

/-!
# Positions within bounds

The server takes the parts of a received text out by their positions, as the client does with its lines.
Neither program takes a part that starts behind the end of its string (`no_out_of_range`).
-/

set_option autoImplicit false

namespace TerminalChat.System

open TerminalChat.Text TerminalChat.Client TerminalChat.Server

/-- The branch of `handleClientMessage` for a text that starts with `@`. The position of the space is
neither `npos` nor zero where it is used, so no expression wraps around. -/
def readPrivateMessage (receivedText : Bytes) : Except Exception Request :=
  match find receivedText space 0 with
  | none => pure .badPrivateMessage
  | some spacePos =>
      if spacePos = 1 then pure .badPrivateMessage
      else do
        let recipientName ← substr receivedText 1 (spacePos - 1)
        let messageContent ← substrFrom receivedText (spacePos + 1)
        let recipientName ← trimAt recipientName
        let messageContent ← trimAt messageContent
        pure (if recipientName.isEmpty || messageContent.isEmpty then .badPrivateMessage
          else .privateMessage recipientName messageContent)

/-- How `handleClientMessage` reads a buffer, with the positions it computes; nothing for a blank one. -/
def readMessage (buffer : Bytes) : Except Exception (Option Request) := do
  let receivedText ← trimAt buffer
  if receivedText.isEmpty then pure none
  else if startsWith (str "/") receivedText then do
    let command ← substrFrom receivedText 1
    pure (some (.command (parseCommand command)))
  else if startsWith (str "@") receivedText then do
    let request ← readPrivateMessage receivedText
    pure (some request)
  else pure (some (.chat receivedText))

/-- The parts of a private message are within the text, and are those that are parsed. -/
theorem readPrivateMessage_eq {receivedText : Bytes} (hne : receivedText ≠ []) :
    readPrivateMessage receivedText = .ok (parsePrivateMessage receivedText) := by
  have hsame : find receivedText space 0 = receivedText.idxOf? space := by
    rw [find, List.drop_zero]
    cases receivedText.idxOf? space with
    | none => rfl
    | some i => rw [Option.map_some, Nat.zero_add]
  have hone : 1 ≤ receivedText.length := List.length_pos_of_ne_nil hne
  rw [readPrivateMessage, parsePrivateMessage]
  cases hspace : find receivedText space 0 with
  | none =>
      rw [← hsame, hspace]
      rfl
  | some spacePos =>
      have hlt := (find_bounds hspace).2
      rw [← hsame, hspace]
      dsimp only
      split
      · rfl
      · rw [substr_eq_ok hone, substrFrom_eq_ok (by omega)]
        dsimp only [bind, Except.bind]
        rw [trimAt_eq, trimAt_eq]
        rfl

/-- The server reads a buffer as it is parsed, and throws nothing. -/
theorem readMessage_eq (buffer : Bytes) :
    readMessage buffer = .ok ((actedText buffer).map parseText) := by
  rw [readMessage, trimAt_eq, actedText]
  dsimp only [bind, Except.bind]
  by_cases hempty : (trim buffer).isEmpty = true
  · rw [if_pos hempty, if_pos hempty]
    rfl
  · rw [if_neg hempty, if_neg hempty, Option.map_some, parseText]
    rw [List.isEmpty_iff] at hempty
    split
    · rw [substrFrom_eq_ok (List.length_pos_of_ne_nil hempty)]
      rfl
    · split
      · rw [readPrivateMessage_eq hempty]
        rfl
      · rfl

/-- **No position is out of range.** Whatever the server sends and however it is cut, the receiver of a
client throws nothing, and neither do the room list and the printing of messages on any text; whatever a
client sends, the server throws nothing when it reads it. -/
theorem no_out_of_range :
    (∀ (results : List Recv) (r : Reception), ∃ r', receiveMessages results r = .ok r') ∧
    (∀ (message : Bytes) (s : Session), ∃ s', respond message s (responseOf message) = .ok s') ∧
    (∀ roomsList : Bytes, ∃ shown, displayRoomsList roomsList = .ok shown) ∧
    (∀ (consoleWidth : Int) (message : Bytes) (alignRight : Bool),
      ∃ text, printAlignedMessage consoleWidth message alignRight = .ok text) ∧
    ∀ buffer : Bytes, ∃ request, readMessage buffer = .ok request := by
  refine ⟨receiveMessages_ok, ?_, displayRoomsList_ok, printAlignedMessage_ok,
    fun buffer => ⟨_, readMessage_eq buffer⟩⟩
  intro message s
  obtain ⟨s', hs', -⟩ := @respond_ok message _ rfl s
  exact ⟨s', hs'⟩

end TerminalChat.System
