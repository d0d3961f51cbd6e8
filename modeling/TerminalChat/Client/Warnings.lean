import Mathlib
import TerminalChat.Abstract.Since
import TerminalChat.Client.Receiving
import TerminalChat.Client.Input

/-!
# The warning before an owner leaves

`m_ownerLeaveWarning` makes the input loop send FORCELEAVE for LEAVE. The receiver sets it on
OWNER_LEAVE_WARNING; LEFT_ROOM and KICKED_FROM_ROOM clear it, and so does the LEAVE that uses it.
ROOM_CREATED, ROOM_JOINED and the confirmation of a transfer do not, so that a warning is carried over to
another room or past the loss of the ownership; `force_leave_warned_iff` says when this happens to no
LEAVE.
-/

set_option autoImplicit false

namespace TerminalChat.Client

open TerminalChat.Text TerminalChat.Abstract

/-- What the client handles: a line typed into the input loop, whose message may fail to be sent, or a
line from the server. -/
inductive Handled where
  | typed (line : Bytes) (sendFails : Bool)
  | received (line : Bytes)
  deriving DecidableEq

/-- What the client does to its state. The input loop ends with `shouldExit`. -/
def handle (state : ClientState) : Handled → ClientState
  | .typed line sendFails =>
      if state.shouldExit then state
      else
        let turn := handleInput state line
        if turn.sent.isSome && sendFails then { turn.state with shouldExit := true } else turn.state
  | .received line => receiveLine line state

/-- The state after a history, for a client that has chosen its name. -/
def stateAfter (username : Bytes) (history : List Handled) : ClientState :=
  history.foldl handle { username := username }

/-! ## What the lines say -/

namespace Handled

/-- The branch that a line from the server takes, with its message. -/
def heard : Handled → Option (Response × Bytes)
  | .typed _ _ => none
  | .received line => decodeLine line

/-- The kind of a line from the server. -/
def kind (x : Handled) : Option Response := x.heard.map (·.1)

/-- The server warns the owner. -/
def Warns (x : Handled) : Prop := x.kind = some .ownerLeaveWarning

/-- The client enters a room. -/
def Enters (x : Handled) : Prop := x.kind = some .roomCreated ∨ x.kind = some .roomJoined

/-- The client is taken out of its room. -/
def TakesOut (x : Handled) : Prop := x.kind = some .leftRoom ∨ x.kind = some .kickedFromRoom

/-- The server confirms that the client has transferred its ownership. -/
def TransfersAway (x : Handled) : Prop :=
  ∃ message, x.heard = some (.success, message) ∧
    startsWith (str "SUCCESS: Ownership transferred to ") message = true

/-- The client is told that it is the owner of its room. -/
def MakesOwner (x : Handled) : Prop := x.kind = some .roomCreated ∨ x.kind = some .ownershipReceived

/-- What ends an ownership: another room, no room, or a transfer. -/
def EndsOwnership (x : Handled) : Prop := x.kind = some .roomJoined ∨ x.TakesOut ∨ x.TransfersAway

end Handled

/-- The client has been told that it is the owner, and nothing else since. -/
def Owner : List Handled → Prop := Since (fun _ x => x.MakesOwner) fun _ x => ¬x.EndsOwnership

/-- A warning has come in the present stay in the room, to the owner, who has been the owner ever since. -/
def Warned : List Handled → Prop :=
  Since (fun before x => x.Warns ∧ Owner before) fun _ x => ¬x.Enters ∧ ¬x.TakesOut ∧ ¬x.TransfersAway

/-! ## LEAVE -/

/-- The line is a LEAVE for the input loop. -/
def IsLeave (line : Bytes) : Prop :=
  startsWith (str "/") (trim line) = true ∧
    clientCommandOf (upper (word ((trim line).drop 1))) = some .leave

/-- The input loop reads a LEAVE while the client is in a room. -/
def Leaves (state : ClientState) : Handled → Prop
  | .typed line _ => state.shouldExit = false ∧ state.inRoom = true ∧ IsLeave line
  | .received _ => False

/-- The input loop sends FORCELEAVE for a line. -/
def Forces (state : ClientState) : Handled → Prop
  | .typed line _ => state.shouldExit = false ∧
      (handleInput state line).sent = some (str "/FORCELEAVE", .forceLeave)
  | .received _ => False

variable {state : ClientState} {line : Bytes}

theorem handleInput_of_isLeave (h : IsLeave line) :
    handleInput state line = leaveInput state (trim line) := by
  obtain ⟨hslash, hcmd⟩ := h
  have hne : trim line ≠ [] := by
    intro hnil
    rw [hnil] at hslash
    exact absurd hslash (by decide)
  -- a slash in front rules out the two words and the private message
  have hquit : ¬(trim line = str "quit" ∨ trim line = str "exit") := by
    rintro (ht | ht)
    · rw [ht] at hslash
      exact absurd hslash (by decide)
    · rw [ht] at hslash
      exact absurd hslash (by decide)
  have hat : ¬startsWith (str "@") (trim line) = true := by
    intro hat
    rw [not_slash_of_at hat] at hslash
    exact Bool.false_ne_true hslash
  have hcommand : commandInput state (trim line) = leaveInput state (trim line) := by
    rw [commandInput, hcmd]
    rfl
  simp only [handleInput, List.isEmpty_iff, if_neg hne, if_neg hquit, if_neg hat, if_pos hslash, hcommand]

/-- Every other line leaves the warning alone. -/
theorem warning_of_not_isLeave (h : ¬IsLeave line) :
    (handleInput state line).state.ownerLeaveWarning = state.ownerLeaveWarning := by
  unfold handleInput
  dsimp only
  split
  · rfl
  split
  · rfl
  split
  · rw [state_privateInput]
  split
  · rename_i hslash
    unfold commandInput
    split
    · rename_i c hc
      cases c with
      | leave => exact absurd ⟨hslash, hc⟩ h
      | create => exact congrArg _ (state_createInput state _ _)
      | join =>
          show (joinInput state _ _).state.ownerLeaveWarning = _
          unfold joinInput
          dsimp only
          split <;> rfl
      | kick => exact congrArg _ (state_ownerInput state _ _ _)
      | ban => exact congrArg _ (state_ownerInput state _ _ _)
      | transfer => exact congrArg _ (state_ownerInput state _ _ _)
      | changePassword => exact congrArg _ (state_ownerInput state _ _ _)
      | _ => rfl
    · rfl
  · split <;> rfl

/-- FORCELEAVE is sent for a LEAVE only. -/
theorem isLeave_of_forceLeave {m : Bytes} (h : (handleInput state line).sent = some (m, .forceLeave)) :
    IsLeave line := by
  rcases (sent_handleInput h).2 with ⟨-, hat⟩ | ⟨-, hslash, c, hc, hsent⟩ | ⟨-, -, -, hv⟩
  · obtain ⟨-, _, -, -, -, hv⟩ := sent_privateInput hat
    exact Validated.noConfusion hv
  · refine ⟨hslash, hc.trans (congrArg some ?_)⟩
    cases c with
    -- only `leaveInput` sends FORCELEAVE; every other case sends something else
    | leave => rfl
    | create =>
        obtain ⟨-, ⟨-, hv⟩ | ⟨-, -, hv⟩⟩ := sent_createInput hsent
        · exact Validated.noConfusion hv
        · exact Validated.noConfusion hv
    | join => exact Validated.noConfusion (sent_joinInput hsent).2
    | kick => exact Validated.noConfusion (sent_ownerInput hsent).2
    | ban => exact Validated.noConfusion (sent_ownerInput hsent).2
    | transfer => exact Validated.noConfusion (sent_ownerInput hsent).2
    | changePassword => exact Validated.noConfusion (sent_ownerInput hsent).2
    | help => exact absurd hsent sent_skip
    | list => exact Validated.noConfusion (sent_transmit.1 hsent).2
    | users => exact Validated.noConfusion (sent_transmit.1 hsent).2
    | getPassword => exact Validated.noConfusion (sent_transmit.1 hsent).2
  · exact Validated.noConfusion hv

/-- A LEAVE in a room is sent as FORCELEAVE exactly when a warning is up. -/
theorem forces_iff {x : Handled} : Forces state x ↔ Leaves state x ∧ state.ownerLeaveWarning = true := by
  cases x with
  | received line => simp [Forces, Leaves]
  | typed line sendFails =>
      constructor
      · rintro ⟨hexit, hsent⟩
        have hleave := isLeave_of_forceLeave hsent
        -- what is sent is FORCELEAVE only behind the two tests of `leaveInput`
        rw [handleInput_of_isLeave hleave, leaveInput] at hsent
        split at hsent
        · exact absurd hsent sent_skip
        · rename_i hroom
          split at hsent
          · rename_i hwarning
            exact ⟨⟨hexit, by simpa using hroom, hleave⟩, hwarning⟩
          · exact Validated.noConfusion (sent_transmit.1 hsent).2
      · rintro ⟨⟨hexit, hroom, hleave⟩, hwarning⟩
        refine ⟨hexit, ?_⟩
        rw [handleInput_of_isLeave hleave]
        simp [leaveInput, hroom, hwarning, transmit]

/-! ## The warning along a history -/

/-- What clears the warning: a line that takes the client out of its room, or a LEAVE in a room. -/
def Clears (state : ClientState) (x : Handled) : Prop := x.TakesOut ∨ Leaves state x

theorem receiveLine_eq (line : Bytes) (state : ClientState) : receiveLine line state =
    match decodeLine line with
    | none => state
    | some p => handleResponse p.2 state p.1 := by
  rw [receiveLine, decodeLine]
  split <;> rfl

theorem warning_handle (state : ClientState) (x : Handled) : (handle state x).ownerLeaveWarning = true ↔
    x.Warns ∨ state.ownerLeaveWarning = true ∧ ¬Clears state x := by
  cases x with
  | typed line sendFails =>
      have hkind : (Handled.typed line sendFails).kind = none := rfl
      simp only [Handled.Warns, Clears, Handled.TakesOut, hkind, reduceCtorEq, false_or]
      cases hexit : state.shouldExit with
      | true => simp [handle, Leaves, hexit]
      | false =>
          have hhandle : (handle state (.typed line sendFails)).ownerLeaveWarning =
              (handleInput state line).state.ownerLeaveWarning := by
            rw [handle, hexit, if_neg Bool.false_ne_true]
            dsimp only
            split <;> rfl
          rw [hhandle]
          by_cases hleave : IsLeave line
          · rw [handleInput_of_isLeave hleave, leaveInput]
            cases hroom : state.inRoom <;> cases hwarning : state.ownerLeaveWarning <;>
              simp [Leaves, hroom, hexit, hleave, hwarning, skip, transmit]
          · rw [warning_of_not_isLeave hleave]
            simp [Leaves, hleave]
  | received line =>
      -- of what the server sends, the kinds that warn or take out of the room touch the flag
      rw [handle, receiveLine_eq, Handled.Warns, Clears, Handled.TakesOut, Handled.kind, Handled.heard]
      cases hline : decodeLine line with
      | none => simp [Leaves]
      | some p =>
          obtain ⟨r, message⟩ := p
          cases r <;> simp [Leaves, handleResponse, ClientState.resetRoomState, ClientState.clearPendingJoin]

/-- A warning is up: none of what clears it has come since. -/
def Pending (username : Bytes) : List Handled → Prop :=
  Since (fun _ x => x.Warns) fun before x => ¬Clears (stateAfter username before) x

/-- The last warning that is still up came before the client entered another room or transferred its
ownership, or it came to a client that was not the owner. -/
def CarriedOver (username : Bytes) : List Handled → Prop :=
  Since
    (fun before x => x.Warns ∧ ¬Owner before ∨ Pending username before ∧ (x.Enters ∨ x.TransfersAway))
    fun before x => ¬x.Warns ∧ ¬Clears (stateAfter username before) x

variable {username : Bytes} {history : List Handled}

theorem stateAfter_concat (username : Bytes) (history : List Handled) (x : Handled) :
    stateAfter username (history ++ [x]) = handle (stateAfter username history) x := by
  rw [stateAfter, List.foldl_append]
  rfl

/-- The flag of the client is up exactly while a warning is. -/
theorem warning_stateAfter (username : Bytes) (history : List Handled) :
    (stateAfter username history).ownerLeaveWarning = true ↔ Pending username history := by
  induction history using List.reverseRecOn with
  | nil =>
      constructor
      · intro h
        exact Bool.noConfusion h
      · intro h
        exact absurd h not_since_nil
  | append_singleton history x ih =>
      rw [stateAfter_concat, warning_handle, ih, Pending, since_concat_iff]

theorem Handled.TransfersAway.kind_eq {x : Handled} (h : x.TransfersAway) : x.kind = some .success := by
  obtain ⟨message, hx, -⟩ := h
  rw [Handled.kind, hx]
  rfl

/-- A line from the server is of one kind. -/
theorem Handled.Warns.frame {x : Handled} (h : x.Warns) :
    ¬x.Enters ∧ ¬x.TakesOut ∧ ¬x.TransfersAway := by
  rw [Handled.Warns] at h
  refine ⟨?_, ?_, ?_⟩
  · rintro (hk | hk) <;> exact absurd (h.symm.trans hk) (by decide)
  · rintro (hk | hk) <;> exact absurd (h.symm.trans hk) (by decide)
  · intro haway
    exact absurd (h.symm.trans haway.kind_eq) (by decide)

/-- Neither the entry into a room nor the confirmation of a transfer clears the warning. -/
theorem not_clears_of_break {x : Handled} (h : x.Enters ∨ x.TransfersAway) : ¬Clears state x := by
  -- a room entered or handed on is told by the server in other kinds of lines
  have hkind : x.kind = some .roomCreated ∨ x.kind = some .roomJoined ∨ x.kind = some .success := by
    rcases h with (hk | hk) | haway
    · exact Or.inl hk
    · exact Or.inr (Or.inl hk)
    · exact Or.inr (Or.inr haway.kind_eq)
  rintro ((hk | hk) | hleaves)
  · rw [hk] at hkind
    exact absurd hkind (by decide)
  · rw [hk] at hkind
    exact absurd hkind (by decide)
  · cases x with
    | typed line sendFails => exact absurd hkind (by simp [Handled.kind, Handled.heard])
    | received line => exact hleaves

theorem owner_of_warned (h : Warned history) : Owner history := by
  induction h with
  | now h =>
      obtain ⟨hwarns, howner⟩ := h
      refine Since.onward howner ?_
      -- whatever would end the ownership would have ended the warning
      rintro (hk | hout | haway)
      · exact hwarns.frame.1 (Or.inr hk)
      · exact hwarns.frame.2.1 hout
      · exact hwarns.frame.2.2 haway
  | onward _ hstay ih =>
      refine Since.onward ih ?_
      rintro (hk | hout | haway)
      · exact hstay.1 (Or.inr hk)
      · exact hstay.2.1 hout
      · exact hstay.2.2 haway

/-- A warning that is up and has not been carried over is one for the present stay. -/
theorem warned_of_pending (history : List Handled) : Pending username history →
    ¬CarriedOver username history → Warned history := by
  induction history using List.reverseRecOn with
  | nil =>
      intro h
      exact absurd h not_since_nil
  | append_singleton history x ih =>
      intro hpending hcarried
      rw [CarriedOver, since_concat_iff, not_or, not_or] at hcarried
      obtain ⟨⟨hwarns, hbreak⟩, hcarried⟩ := hcarried
      by_cases hx : x.Warns
      · -- a new warning, to the owner
        exact Since.now ⟨hx, not_not.1 fun howner => hwarns ⟨hx, howner⟩⟩
      · -- the warning is an earlier one, and the line does not end the stay
        rw [Pending, since_concat_iff] at hpending
        obtain ⟨hpending, hclears⟩ := hpending.resolve_left hx
        refine Since.onward (ih hpending fun h => hcarried ⟨h, hx, hclears⟩) ⟨?_, ?_, ?_⟩
        · exact fun h => hbreak ⟨hpending, Or.inl h⟩
        · exact fun h => hclears (Or.inl h)
        · exact fun h => hbreak ⟨hpending, Or.inr h⟩

/-- A warning that has been carried over is up, and it is not one for the present stay. -/
theorem pending_of_carriedOver (h : CarriedOver username history) :
    Pending username history ∧ ¬Warned history := by
  induction h with
  | @now before x h =>
      -- warned without being the owner, or still pending when it enters a room or gives its own away
      rcases h with ⟨hwarns, howner⟩ | ⟨hpending, hbreak⟩
      · refine ⟨Since.now hwarns, ?_⟩
        rw [Warned, since_concat_iff]
        rintro (h | h)
        · exact howner h.2
        · exact howner (owner_of_warned h.1)
      · refine ⟨Since.onward hpending (not_clears_of_break hbreak), ?_⟩
        rw [Warned, since_concat_iff]
        rintro (h | ⟨-, henters, -, haway⟩)
        · exact hbreak.elim h.1.frame.1 h.1.frame.2.2
        · exact hbreak.elim henters haway
  | @onward before x _ hstay ih =>
      refine ⟨Since.onward ih.1 hstay.2, ?_⟩
      rw [Warned, since_concat_iff]
      rintro (h | h)
      · exact hstay.1 h.1
      · exact ih.2 h.1

/-! ## Force-leave -/

/-- **A forced leave has its warning exactly when none is carried over.** In a history, FORCELEAVE is sent
for a LEAVE only after a warning in the present stay to a client that has been the owner ever since: this
holds if and only if no LEAVE is typed in a room while the last warning still up has been carried over. -/
theorem force_leave_warned_iff (username : Bytes) (history : List Handled) :
    (∀ before x after, history = before ++ x :: after → Forces (stateAfter username before) x →
      Warned before) ↔
    ∀ before x after, history = before ++ x :: after → Leaves (stateAfter username before) x →
      ¬CarriedOver username before := by
  constructor
  · intro h before x after hsplit hleaves hcarried
    obtain ⟨hpending, hwarned⟩ := pending_of_carriedOver hcarried
    apply hwarned
    apply h before x after hsplit
    exact forces_iff.2 ⟨hleaves, (warning_stateAfter username before).2 hpending⟩
  · intro h before x after hsplit hforces
    obtain ⟨hleaves, hflag⟩ := forces_iff.1 hforces
    have hpending := (warning_stateAfter username before).1 hflag
    exact warned_of_pending before hpending (h before x after hsplit hleaves)

/-- The owner of a room asks to leave it, is warned, and joins another room. -/
def joinsWarned : List Handled :=
  [.received (str "ROOM_CREATED:100007:PUBLIC"), .typed (str "/LEAVE") false,
    .received (str "OWNER_LEAVE_WARNING"), .received (str "ROOM_JOINED:100008")]

/-- The first LEAVE in the other room, where the client owns nothing, is sent as FORCELEAVE. -/
theorem not_force_leave_warned : ¬∀ (username : Bytes) (history before : List Handled) (x : Handled)
    (after : List Handled), history = before ++ x :: after → Forces (stateAfter username before) x →
      Warned before := by
  intro h
  have hwarned := h (str "alice") (joinsWarned ++ [.typed (str "/LEAVE") false]) joinsWarned
    (.typed (str "/LEAVE") false) [] rfl (show _ ∧ _ by decide +kernel)
  have hsplit : joinsWarned = joinsWarned.take 3 ++ [.received (str "ROOM_JOINED:100008")] := rfl
  rw [hsplit, Warned, since_concat_iff] at hwarned
  rcases hwarned with hnow | hstay
  · exact absurd hnow.1 (show ¬_ = _ by decide +kernel)
  · exact hstay.2.1 (Or.inr (show _ = _ by decide +kernel))

end TerminalChat.Client
