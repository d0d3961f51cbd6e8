import Mathlib
import TerminalChat.Client.Dispatch
import TerminalChat.Client.Input

/-!
# The client process

`main` starts the sender and the receiver, joins the sender, raises `m_shouldExit`, joins the receiver and
closes the socket. Both loops test the flag only between two rounds: the sender may be in `getline` and the
receiver in `recv` when it goes up, and neither call looks at it. Here are the three threads with all the
places where they wait, and their steps in any order.
-/

set_option autoImplicit false

namespace TerminalChat.Client

open TerminalChat.Text

/-- Where `main` is. -/
inductive MainPlace where
  | joiningSender
  | raising
  | joiningReceiver
  | closing
  | returned
  deriving DecidableEq

/-- Where the sender is: at the test of the name loop, in its `getline`, at its next action, or waiting for the
answer; behind the name loop; at the test of the input loop, in its `getline`, with a line or with a message to
send. -/
inductive SenderPlace where
  | nameTest
  | namePrompt
  | storing (username : Bytes)
  | sendingName (username : Bytes)
  | raising
  | waiting
  | checking
  | reading
  | resetting
  | named
  | inputTest
  | inputPrompt
  | handling (line : Bytes)
  | sending (message : Bytes)
  | returned
  deriving DecidableEq

/-- Where the receiver is: at the test of its loop, in `recv`, or scanning what it has received. -/
inductive ReceiverPlace where
  | test
  | receiving
  | scanning
  | returned
  deriving DecidableEq

/-- An operation on the socket of the client. -/
inductive SocketOp where
  | sent (text : Bytes)
  | received (buffer : Bytes)
  | closed
  deriving DecidableEq

/-- The client process: the state that its threads share, where they are, `incompleteMessage`, and the trace of
the socket operations. -/
structure ClientProcess where
  state : ClientState := {}
  main : MainPlace := .joiningSender
  sender : SenderPlace := .nameTest
  receiver : ReceiverPlace := .test
  incompleteMessage : Bytes := []
  trace : List SocketOp := []
  deriving DecidableEq

/-- A step: `getline` gives a line; the sender takes its next action, which fails to send or not; it has waited
for too long; `recv` returns; the receiver or `main` takes its next action. -/
inductive ClientLabel where
  | type (line : Bytes)
  | sender (fails : Bool)
  | timeout
  | recv (result : Recv)
  | receiver
  | main

namespace ClientProcess

/-- `setShouldExit(true)`. -/
def raiseExit (p : ClientProcess) : ClientProcess := { p with state := { p.state with shouldExit := true } }

/-- `send`, and where the sender goes then; when it fails, the sender raises the flag and returns. -/
def transmit (p : ClientProcess) (text : Bytes) (fails : Bool) (next : SenderPlace) : ClientProcess :=
  if fails then { p.raiseExit with sender := .returned }
  else { p with
    trace := p.trace ++ [.sent text]
    sender := next }

/-- The next action of the sender. -/
def senderNext (p : ClientProcess) (fails : Bool) : Option ClientProcess :=
  match p.sender with
  | .nameTest => some { p with sender := if p.state.shouldExit then .named else .namePrompt }
  | .namePrompt => none
  | .storing username => some { p with
      state := { p.state with username := username }
      sender := .sendingName username }
  | .sendingName username => some (p.transmit (str "/SETNAME " ++ username) fails .raising)
  | .raising => some { p with
      -- the request is on its way already, so the answer may come before this
      state := { p.state with waitingForNameValidation := true }
      sender := .waiting }
  | .waiting =>
      -- the inner loop sleeps until one of the two flags has changed
      if p.state.waitingForNameValidation && !p.state.shouldExit then none
      else some { p with sender := .checking }
  | .checking => some { p with sender := if p.state.waitingForNameValidation then .resetting else .reading }
  | .reading => some { p with sender := if p.state.username.isEmpty then .resetting else .named }
  | .resetting => some { p with
      -- the name was rejected: the loop takes another turn
      state := { p.state with username := [] }
      sender := .nameTest }
  -- behind the loop, with an accepted name or with the flag up
  | .named => some { p with sender := if p.state.shouldExit then .returned else .inputTest }
  | .inputTest => some { p with sender := if p.state.shouldExit then .returned else .inputPrompt }
  | .inputPrompt => none
  | .handling line =>
      let turn := handleInput p.state line
      let p := { p with state := turn.state }
      match turn.sent with
      | some (message, _) => some { p with sender := .sending message }
      | none =>
          -- `quit` and `exit` break out of the loop, all else goes on with the next line
          if trim line = str "quit" ∨ trim line = str "exit" then some { p with sender := .returned }
          else some { p with sender := .inputTest }
  | .sending message => some (p.transmit message fails .inputTest)
  | .returned => none

/-- `recv` returns. -/
def recvReturns (p : ClientProcess) : Recv → Option ClientProcess
  | .bytes buffer =>
      if buffer ≠ [] ∧ buffer.length ≤ bufferSize - 1 then
        some { p with
          incompleteMessage := p.incompleteMessage ++ buffer
          trace := p.trace ++ [.received buffer]
          receiver := .scanning }
      else none
  | .closed => some { p.raiseExit with receiver := .returned }
  -- an error ends the receiver, but the flag stays as it is and the sender goes on
  | .failed => some { p with receiver := .returned }

/-- The next action of the receiver: the test of the loop, or the next line. -/
def receiverNext (p : ClientProcess) : Option ClientProcess :=
  match p.receiver with
  | .test => some { p with receiver := if p.state.shouldExit then .returned else .receiving }
  | .receiving => none
  | .scanning =>
      match takeMessage newline p.incompleteMessage with
      | some (line, rest) => some { p with
          state := receiveLine line p.state
          incompleteMessage := rest }
      | none => some { p with receiver := .test }
  | .returned => none

/-- The next action of `main`. -/
def mainNext (p : ClientProcess) : Option ClientProcess :=
  match p.main with
  | .joiningSender => if p.sender = .returned then some { p with main := .raising } else none
  | .raising => some { p.raiseExit with main := .joiningReceiver }
  -- the pause of half a second before the join bounds nothing: the join itself has no timeout
  | .joiningReceiver => if p.receiver = .returned then some { p with main := .closing } else none
  | .closing => some { p with
      trace := p.trace ++ [.closed]
      main := .returned }
  | .returned => none

/-- One step; none where the label cannot occur. -/
def next (p : ClientProcess) : ClientLabel → Option ClientProcess
  | .type line =>
      match p.sender with
      | .namePrompt => some { p with sender := .storing (chosenName line) }
      | .inputPrompt => some { p with sender := .handling line }
      | _ => none
  | .sender fails => p.senderNext fails
  | .timeout => if p.sender = .waiting then some { p.raiseExit with sender := .returned } else none
  | .recv result => if p.receiver = .receiving then p.recvReturns result else none
  | .receiver => p.receiverNext
  | .main => p.mainNext

/-- The process after a list of labels; none where one of them cannot occur. -/
def run (p : ClientProcess) : List ClientLabel → Option ClientProcess
  | [] => some p
  | l :: ls => (p.next l).bind fun p' => p'.run ls

end ClientProcess

/-! ## The flag stays up -/

theorem shouldExit_receiveLine (line : Bytes) (state : ClientState) :
    (receiveLine line state).shouldExit = state.shouldExit := by
  unfold receiveLine
  dsimp only
  split
  · rfl
  · cases responseOf (trim line) <;> rfl

theorem shouldExit_runClientCommand (state : ClientState) (message rest : Bytes) (c : ClientCommand) :
    (runClientCommand state message rest c).state.shouldExit = state.shouldExit := by
  cases c with
  | create => exact congrArg ClientState.shouldExit (state_createInput state message rest)
  | kick => exact congrArg ClientState.shouldExit (state_ownerInput state message rest _)
  | ban => exact congrArg ClientState.shouldExit (state_ownerInput state message rest _)
  | transfer => exact congrArg ClientState.shouldExit (state_ownerInput state message rest _)
  | changePassword => exact congrArg ClientState.shouldExit (state_ownerInput state message rest _)
  | join =>
      show (joinInput state message rest).state.shouldExit = state.shouldExit
      unfold joinInput
      dsimp only
      split <;> rfl
  | leave =>
      show (leaveInput state message).state.shouldExit = state.shouldExit
      unfold leaveInput
      split
      · rfl
      · split <;> rfl
  | _ => rfl

/-- The input loop raises the flag for `quit` and `exit` and leaves it alone otherwise. -/
theorem shouldExit_handleInput (state : ClientState) (line : Bytes) :
    (handleInput state line).state.shouldExit =
      (state.shouldExit || decide (trim line = str "quit" ∨ trim line = str "exit")) := by
  have hquit : str "quit" ≠ [] := by decide
  have hexit : str "exit" ≠ [] := by decide
  unfold handleInput
  dsimp only
  split
  · rename_i hempty
    rw [List.isEmpty_iff] at hempty
    simp [skip, hempty, hquit.symm, hexit.symm]
  · split
    · rename_i hq
      simp [skip, hq]
    · rename_i hq
      simp only [hq, decide_false, Bool.or_false]
      split
      · exact congrArg ClientState.shouldExit (state_privateInput state _)
      · split
        · unfold commandInput
          split
          · exact shouldExit_runClientCommand state _ _ _
          · rfl
        · split <;> rfl

/-! ## What is left to do once the flag is up -/

/-- How many actions the sender may still take. -/
def SenderPlace.rank : SenderPlace → Nat
  | .returned => 0
  | .inputTest => 1
  | .sending _ => 2
  | .handling _ => 3
  | .inputPrompt => 4
  | .named => 5
  | .nameTest => 6
  | .resetting => 7
  | .reading => 8
  | .checking => 9
  | .waiting => 10
  | .raising => 11
  | .sendingName _ => 12
  | .storing _ => 13
  | .namePrompt => 14

/-- How many texts the sender may still send. -/
def SenderPlace.texts : SenderPlace → Nat
  | .namePrompt => 1
  | .storing _ => 1
  | .sendingName _ => 1
  | .inputPrompt => 1
  | .handling _ => 1
  | .sending _ => 1
  | _ => 0

/-- How many actions `main` may still take. -/
def MainPlace.rank : MainPlace → Nat
  | .joiningSender => 4
  | .raising => 3
  | .joiningReceiver => 2
  | .closing => 1
  | .returned => 0

/-- How many buffers the receiver may still receive. -/
def ReceiverPlace.buffers : ReceiverPlace → Nat
  | .receiving => 1
  | _ => 0

namespace ClientProcess

variable {p p' q : ClientProcess} {l : ClientLabel} {ls : List ClientLabel}

/-- How many actions the receiver may still take, outside `recv`: one for each line it has. -/
def receiverRank (p : ClientProcess) : Nat :=
  match p.receiver with
  | .test => 1
  | .receiving => 0
  | .scanning => 2 + p.incompleteMessage.length
  | .returned => 0

/-- `recv` first: what it returns may have any length. -/
def rank (p : ClientProcess) : Nat × Nat :=
  (p.receiver.buffers, p.main.rank + p.sender.rank + p.receiverRank)

/-- The texts sent. -/
def sentTexts (trace : List SocketOp) : List Bytes :=
  trace.filterMap fun
    | .sent text => some text
    | _ => none

/-- The buffers received. -/
def receivedBuffers (trace : List SocketOp) : List Bytes :=
  trace.filterMap fun
    | .received buffer => some buffer
    | _ => none

/-! ## The steps of each thread -/

/-- What a step of the sender does: it leaves the other threads alone; it returns with the flag up; it sends
nothing or one text. With the flag up it comes nearer to its end, and does not come by another text to send. -/
structure SenderStep (p p' : ClientProcess) : Prop where
  main : p'.main = p.main
  receiver : p'.receiver = p.receiver
  incompleteMessage : p'.incompleteMessage = p.incompleteMessage
  running : p.sender ≠ .returned
  flag : p.state.shouldExit = true → p'.state.shouldExit = true
  returns : p'.sender = .returned → p'.state.shouldExit = true
  trace : p'.trace = p.trace ∧ (p.state.shouldExit = true → p'.sender.texts ≤ p.sender.texts) ∨
    ∃ text, p'.trace = p.trace ++ [.sent text] ∧ p'.sender.texts < p.sender.texts
  lower : p.state.shouldExit = true → p'.sender.rank < p.sender.rank

/-- What a step of the receiver does: it leaves the other threads alone; it receives nothing or one buffer. -/
structure ReceiverStep (p p' : ClientProcess) : Prop where
  main : p'.main = p.main
  sender : p'.sender = p.sender
  running : p.receiver ≠ .returned
  flag : p.state.shouldExit = true → p'.state.shouldExit = true
  trace : p'.trace = p.trace ∧ (p.state.shouldExit = true → p'.receiver.buffers ≤ p.receiver.buffers) ∨
    ∃ buffer, p'.trace = p.trace ++ [.received buffer] ∧ p'.receiver.buffers < p.receiver.buffers
  lower : p.state.shouldExit = true → p'.receiver.buffers < p.receiver.buffers ∨
    p'.receiver.buffers = p.receiver.buffers ∧ p'.receiverRank < p.receiverRank

/-- A send, from a place with a text to send. -/
theorem SenderStep.transmit {text : Bytes} {fails : Bool} {next : SenderPlace}
    (hrun : p.sender ≠ .returned) (hnext : next ≠ .returned) (htexts : next.texts < p.sender.texts)
    (hlower : next.rank < p.sender.rank) : SenderStep p (p.transmit text fails next) := by
  unfold ClientProcess.transmit
  cases fails with
  | true =>
      have hpos : 0 < p.sender.rank := by omega
      exact ⟨rfl, rfl, rfl, hrun, fun _ => rfl, fun _ => rfl, Or.inl ⟨rfl, fun _ => Nat.zero_le _⟩,
        fun _ => hpos⟩
  | false =>
      exact ⟨rfl, rfl, rfl, hrun, id, fun h => absurd h hnext, Or.inr ⟨text, rfl, htexts⟩,
        fun _ => hlower⟩

/-- A step of the sender that sends nothing and goes to a place it does not return from. -/
theorem SenderStep.go {state : ClientState} {place : SenderPlace} (hrun : p.sender ≠ .returned)
    (hplace : place ≠ .returned) (hflag : p.state.shouldExit = true → state.shouldExit = true)
    (htexts : p.state.shouldExit = true → place.texts ≤ p.sender.texts)
    (hlower : p.state.shouldExit = true → place.rank < p.sender.rank) :
    SenderStep p { p with state := state, sender := place } :=
  ⟨rfl, rfl, rfl, hrun, hflag, fun h => absurd h hplace, Or.inl ⟨rfl, htexts⟩, hlower⟩

/-- The sender returns with the flag up. -/
theorem SenderStep.leave {state : ClientState} (hrun : p.sender ≠ .returned)
    (hflag : state.shouldExit = true) : SenderStep p { p with state := state, sender := .returned } := by
  refine ⟨rfl, rfl, rfl, hrun, fun _ => hflag, fun _ => hflag, Or.inl ⟨rfl, fun _ => Nat.zero_le _⟩,
    fun _ => ?_⟩
  cases hs : p.sender <;> simp_all [SenderPlace.rank]

/-- The steps of the sender, one for each of its places. -/
theorem senderStep_next {fails : Bool} (h : p.senderNext fails = some p') : SenderStep p p' := by
  unfold senderNext at h
  cases hs : p.sender with
  | nameTest =>
      simp only [hs, Option.some.injEq] at h
      subst h
      -- with the flag up the test leads behind the loop, so no further name is asked for
      apply SenderStep.go
      · simp [hs]
      · split <;> simp
      · exact id
      · intro hexit
        simp [hexit, hs, SenderPlace.texts]
      · intro hexit
        simp [hexit, hs, SenderPlace.rank]
  | namePrompt => simp [hs] at h
  | storing username =>
      simp only [hs, Option.some.injEq] at h
      subst h
      apply SenderStep.go <;> simp [hs, SenderPlace.texts, SenderPlace.rank]
  | sendingName username =>
      simp only [hs, Option.some.injEq] at h
      subst h
      apply SenderStep.transmit <;> simp [hs, SenderPlace.texts, SenderPlace.rank]
  | raising =>
      simp only [hs, Option.some.injEq] at h
      subst h
      apply SenderStep.go <;> simp [hs, SenderPlace.texts, SenderPlace.rank]
  | waiting =>
      simp only [hs, Option.ite_none_left_eq_some, Option.some.injEq] at h
      obtain ⟨-, rfl⟩ := h
      apply SenderStep.go <;> simp [hs, SenderPlace.texts, SenderPlace.rank]
  | checking =>
      simp only [hs, Option.some.injEq] at h
      subst h
      apply SenderStep.go
      · simp [hs]
      · split <;> simp
      · exact id
      · intro _
        split <;> simp [SenderPlace.texts]
      · intro _
        split <;> simp [hs, SenderPlace.rank]
  | reading =>
      simp only [hs, Option.some.injEq] at h
      subst h
      apply SenderStep.go
      · simp [hs]
      · split <;> simp
      · exact id
      · intro _
        split <;> simp [SenderPlace.texts]
      · intro _
        split <;> simp [hs, SenderPlace.rank]
  | resetting =>
      simp only [hs, Option.some.injEq] at h
      subst h
      apply SenderStep.go <;> simp [hs, SenderPlace.texts, SenderPlace.rank]
  | named =>
      simp only [hs, Option.some.injEq] at h
      subst h
      by_cases hexit : p.state.shouldExit = true
      · rw [if_pos hexit]
        exact SenderStep.leave (by simp [hs]) hexit
      · rw [if_neg hexit]
        apply SenderStep.go <;> simp [hs, hexit]
  | inputTest =>
      simp only [hs, Option.some.injEq] at h
      subst h
      by_cases hexit : p.state.shouldExit = true
      · rw [if_pos hexit]
        exact SenderStep.leave (by simp [hs]) hexit
      · rw [if_neg hexit]
        apply SenderStep.go <;> simp [hs, hexit]
  | inputPrompt => simp [hs] at h
  | handling line =>
      have hflag := shouldExit_handleInput p.state line
      simp only [hs] at h
      split at h
      · -- the line is sent as a message
        rename_i message v hsent
        obtain rfl := Option.some.inj h
        apply SenderStep.go <;> simp +contextual [hs, hflag, SenderPlace.texts, SenderPlace.rank]
      · split at h
        · rename_i hq
          obtain rfl := Option.some.inj h
          exact SenderStep.leave (by simp [hs]) (by simp [hflag, hq])
        · rename_i hq
          obtain rfl := Option.some.inj h
          apply SenderStep.go <;> simp [hs, hflag, hq, SenderPlace.texts, SenderPlace.rank]
  | sending message =>
      simp only [hs, Option.some.injEq] at h
      subst h
      apply SenderStep.transmit <;> simp [hs, SenderPlace.texts, SenderPlace.rank]
  | returned => simp [hs] at h

/-- The timeout of the name loop. -/
theorem senderStep_timeout (hs : p.sender = .waiting) :
    SenderStep p { p.raiseExit with sender := .returned } :=
  SenderStep.leave (by simp [hs]) rfl

/-- `getline` gives the sender a line. -/
theorem senderStep_type {line : Bytes} (h : p.next (.type line) = some p') : SenderStep p p' := by
  unfold next at h
  cases hs : p.sender <;> simp only [hs, Option.some.injEq, reduceCtorEq] at h
  case namePrompt =>
    subst h
    apply SenderStep.go <;> simp [hs, SenderPlace.texts, SenderPlace.rank]
  case inputPrompt =>
    subst h
    apply SenderStep.go <;> simp [hs, SenderPlace.texts, SenderPlace.rank]

/-- `recv` returns. -/
theorem receiverStep_recv {result : Recv} (hr : p.receiver = .receiving)
    (h : p.recvReturns result = some p') : ReceiverStep p p' := by
  have hrun : p.receiver ≠ .returned := by simp [hr]
  have hone : p.receiver.buffers = 1 := by simp [hr, ReceiverPlace.buffers]
  have hlower : ∀ place : ReceiverPlace, place ≠ .receiving → place.buffers < p.receiver.buffers := by
    intro place hplace
    rw [hone]
    cases place <;> simp_all [ReceiverPlace.buffers]
  unfold recvReturns at h
  cases result with
  | bytes buffer =>
      simp only [Option.ite_none_right_eq_some, Option.some.injEq] at h
      obtain ⟨-, rfl⟩ := h
      exact ⟨rfl, rfl, hrun, id, Or.inr ⟨buffer, rfl, hlower _ (by simp)⟩,
        fun _ => Or.inl (hlower _ (by simp))⟩
  | closed =>
      obtain rfl := Option.some.inj h
      exact ⟨rfl, rfl, hrun, fun _ => rfl, Or.inl ⟨rfl, fun _ => (hlower _ (by simp)).le⟩,
        fun _ => Or.inl (hlower _ (by simp))⟩
  | failed =>
      obtain rfl := Option.some.inj h
      exact ⟨rfl, rfl, hrun, id, Or.inl ⟨rfl, fun _ => (hlower _ (by simp)).le⟩,
        fun _ => Or.inl (hlower _ (by simp))⟩

/-- A taken line makes the rest shorter. -/
theorem length_lt_of_takeMessage {stream line rest : Bytes}
    (h : takeMessage newline stream = some (line, rest)) : rest.length < stream.length := by
  rw [(takeMessage_eq_some.1 h).2, List.length_append, List.length_cons]
  omega

/-- The steps of the receiver outside `recv`. -/
theorem receiverStep_next (h : p.receiverNext = some p') : ReceiverStep p p' := by
  unfold receiverNext at h
  cases hr : p.receiver with
  | test =>
      simp only [hr, Option.some.injEq] at h
      subst h
      refine ⟨rfl, rfl, by simp [hr], id, Or.inl ⟨rfl, ?_⟩, ?_⟩
      · intro hexit
        simp [hexit, hr, ReceiverPlace.buffers]
      · intro hexit
        simp [hexit, hr, ReceiverPlace.buffers, receiverRank]
  | receiving => simp [hr] at h
  | scanning =>
      simp only [hr] at h
      split at h
      · rename_i line rest htake
        obtain rfl := Option.some.inj h
        -- each line leaves less to scan
        have hshorter := length_lt_of_takeMessage htake
        refine ⟨rfl, rfl, by simp [hr], ?_, Or.inl ⟨rfl, fun _ => ?_⟩, fun _ => Or.inr ⟨?_, ?_⟩⟩
        · intro hexit
          exact (shouldExit_receiveLine line p.state).trans hexit
        · simp [hr]
        · simp [hr]
        · simpa [receiverRank, hr] using hshorter
      · obtain rfl := Option.some.inj h
        refine ⟨rfl, rfl, by simp [hr], id, Or.inl ⟨rfl, fun _ => ?_⟩, fun _ => Or.inr ⟨?_, ?_⟩⟩
        · simp [ReceiverPlace.buffers]
        · simp [hr, ReceiverPlace.buffers]
        · simp only [receiverRank, hr]
          omega
  | returned => simp [hr] at h

/-- What a step of `main` does. -/
inductive MainStep (p : ClientProcess) : ClientProcess → Prop where
  | joinSender (hmain : p.main = .joiningSender) (hsender : p.sender = .returned) :
      MainStep p { p with main := .raising }
  | raise (hmain : p.main = .raising) : MainStep p { p.raiseExit with main := .joiningReceiver }
  | joinReceiver (hmain : p.main = .joiningReceiver) (hreceiver : p.receiver = .returned) :
      MainStep p { p with main := .closing }
  | close (hmain : p.main = .closing) :
      MainStep p { p with trace := p.trace ++ [.closed], main := .returned }

/-- The steps of `main`. -/
theorem mainStep_next (h : p.mainNext = some p') : MainStep p p' := by
  unfold mainNext at h
  cases hm : p.main with
  | joiningSender =>
      simp only [hm, Option.ite_none_right_eq_some, Option.some.injEq] at h
      obtain ⟨hsender, rfl⟩ := h
      exact .joinSender hm hsender
  | raising =>
      simp only [hm, Option.some.injEq] at h
      subst h
      exact .raise hm
  | joiningReceiver =>
      simp only [hm, Option.ite_none_right_eq_some, Option.some.injEq] at h
      obtain ⟨hreceiver, rfl⟩ := h
      exact .joinReceiver hm hreceiver
  | closing =>
      simp only [hm, Option.some.injEq] at h
      subst h
      exact .close hm
  | returned => simp [hm] at h

/-- A step is a step of one of the three threads; only `recv` brings the receiver on from `recv`. -/
theorem next_cases (h : p.next l = some p') :
    SenderStep p p' ∨ ReceiverStep p p' ∧ (p.receiver = .receiving → ∃ result, l = .recv result) ∨
      MainStep p p' := by
  cases l with
  | type line => exact Or.inl (senderStep_type h)
  | sender fails => exact Or.inl (senderStep_next h)
  | timeout =>
      simp only [next, Option.ite_none_right_eq_some, Option.some.injEq] at h
      obtain ⟨hs, rfl⟩ := h
      exact Or.inl (senderStep_timeout hs)
  | recv result =>
      simp only [next, Option.ite_none_right_eq_some] at h
      exact Or.inr (Or.inl ⟨receiverStep_recv h.1 h.2, fun _ => ⟨result, rfl⟩⟩)
  | receiver =>
      refine Or.inr (Or.inl ⟨receiverStep_next h, fun hr => ?_⟩)
      have hnone : p.receiverNext = none := by simp [receiverNext, hr]
      rw [next, hnone] at h
      cases h
  | main => exact Or.inr (Or.inr (mainStep_next h))

/-! ## How the process ends -/

/-- What holds throughout: `main` is past a thread only when that thread has returned, the sender returns with
the flag up, and the socket is closed by the last action of `main`. -/
structure Orderly (p : ClientProcess) : Prop where
  joined : p.main ≠ .joiningSender → p.sender = .returned
  flag : p.sender = .returned → p.state.shouldExit = true
  received : p.main = .closing ∨ p.main = .returned → p.receiver = .returned
  unclosed : p.main ≠ .returned → .closed ∉ p.trace
  closed : p.main = .returned → ∃ before, p.trace = before ++ [.closed] ∧ .closed ∉ before

theorem orderly_start : Orderly {} := by
  constructor <;> simp

/-- A step of the sender: `main` still waits for it. -/
theorem Orderly.sender (h : Orderly p) (hstep : SenderStep p p') : Orderly p' := by
  -- past the join of the sender there would be no such step
  have hmain : p.main = .joiningSender := by
    by_contra hne
    exact hstep.running (h.joined hne)
  have hmain' : p'.main = .joiningSender := hstep.main.trans hmain
  have htrace : .closed ∉ p.trace := h.unclosed (by simp [hmain])
  refine ⟨fun hne => absurd hmain' hne, hstep.returns, ?_, ?_, ?_⟩
  · simp [hmain']
  · intro _
    -- what the sender adds to the trace is no `closed`
    rcases hstep.trace with ⟨ht, -⟩ | ⟨text, ht, -⟩
    · rwa [ht]
    · simpa [ht] using htrace
  · simp [hmain']

/-- A step of the receiver: `main` has not gone past it. -/
theorem Orderly.receiver (h : Orderly p) (hstep : ReceiverStep p p') : Orderly p' := by
  have hmain : ¬(p.main = .closing ∨ p.main = .returned) := fun hpast => hstep.running (h.received hpast)
  rw [← hstep.main, not_or] at hmain
  have htrace : .closed ∉ p.trace := h.unclosed (hstep.main ▸ hmain.2)
  refine ⟨?_, ?_, ?_, ?_, ?_⟩
  · rw [hstep.main, hstep.sender]
    exact h.joined
  · intro hs
    exact hstep.flag (h.flag (hstep.sender ▸ hs))
  · intro hpast
    exact absurd hpast (not_or.2 hmain)
  · intro _
    rcases hstep.trace with ⟨ht, -⟩ | ⟨buffer, ht, -⟩
    · rwa [ht]
    · simpa [ht] using htrace
  · intro hreturned
    exact absurd hreturned hmain.2

/-- A step of `main`. -/
theorem Orderly.main (h : Orderly p) (hstep : MainStep p p') : Orderly p' := by
  cases hstep with
  | joinSender hmain hsender =>
      exact ⟨fun _ => hsender, h.flag, by simp, fun _ => h.unclosed (by simp [hmain]), by simp⟩
  | raise hmain =>
      have hsender : p.sender = .returned := h.joined (by simp [hmain])
      exact ⟨fun _ => hsender, fun _ => rfl, by simp, fun _ => h.unclosed (by simp [hmain]), by simp⟩
  | joinReceiver hmain hreceiver =>
      have hsender : p.sender = .returned := h.joined (by simp [hmain])
      exact ⟨fun _ => hsender, h.flag, fun _ => hreceiver, fun _ => h.unclosed (by simp [hmain]), by simp⟩
  | close hmain =>
      -- both joins are over, so the trace ends here
      have hsender : p.sender = .returned := h.joined (by simp [hmain])
      have hreceiver : p.receiver = .returned := h.received (Or.inl hmain)
      have htrace : .closed ∉ p.trace := h.unclosed (by simp [hmain])
      exact ⟨fun _ => hsender, h.flag, fun _ => hreceiver, by simp, fun _ => ⟨p.trace, rfl, htrace⟩⟩

theorem Orderly.next (h : Orderly p) (hnext : p.next l = some p') : Orderly p' := by
  rcases next_cases hnext with hstep | ⟨hstep, -⟩ | hstep
  · exact h.sender hstep
  · exact h.receiver hstep
  · exact h.main hstep

/-- What every step keeps holds after every run. -/
theorem run_induction {P : ClientProcess → Prop} (h : P p) (hrun : p.run ls = some q)
    (hstep : ∀ l ∈ ls, ∀ p p', P p → p.next l = some p' → P p') : P q := by
  induction ls generalizing p with
  | nil =>
      obtain rfl := Option.some.inj hrun
      exact h
  | cons l ls ih =>
      rw [run, Option.bind_eq_some_iff] at hrun
      obtain ⟨p', hnext, hrun⟩ := hrun
      apply ih (hstep l List.mem_cons_self p p' h hnext) hrun
      intro l' hl'
      exact hstep l' (List.mem_cons_of_mem _ hl')

theorem Orderly.run (h : Orderly p) (hrun : p.run ls = some q) : Orderly q :=
  run_induction h hrun fun _ _ _ _ => Orderly.next

/-- The only `closed` of a trace that ends with it. -/
theorem eq_of_closed {before before' after : List SocketOp} (hnot : .closed ∉ before)
    (h : before ++ [.closed] = before' ++ .closed :: after) : before' = before ∧ after = [] := by
  rcases List.append_eq_append_iff.1 h with ⟨more, rfl, hmore⟩ | ⟨more, rfl, hmore⟩
  · cases more with
    | nil => simpa using hmore.symm
    | cons op ops =>
        have hlength := congrArg List.length hmore
        simp only [List.length_append, List.length_cons, List.length_nil] at hlength
        omega
  · cases more with
    | nil => simpa using hmore.symm
    | cons op ops =>
        simp only [List.cons_append, List.cons.injEq] at hmore
        exact absurd (by simp [hmore.1]) hnot

/-- While the receiver is in `recv`, `main` has not returned, and only the return of `recv` changes that. -/
theorem waiting_for_recv (h : Orderly p) (hr : p.receiver = .receiving) (hrun : p.run ls = some q)
    (hno : ∀ result, .recv result ∉ ls) : q.main ≠ .returned := by
  have hkept : Orderly q ∧ q.receiver = .receiving := by
    apply run_induction (P := fun p => Orderly p ∧ p.receiver = .receiving) ⟨h, hr⟩ hrun
    rintro l hl p p' ⟨hp, hr⟩ hnext
    refine ⟨hp.next hnext, ?_⟩
    -- nobody but `recv` itself moves the receiver
    rcases next_cases hnext with hstep | ⟨-, hrecv⟩ | hstep
    · exact hstep.receiver.trans hr
    · obtain ⟨result, rfl⟩ := hrecv hr
      exact absurd hl (hno result)
    · cases hstep <;> exact hr
  intro hreturned
  have hreceiver := hkept.1.received (Or.inr hreturned)
  rw [hkept.2] at hreceiver
  cases hreceiver

/-! ## Once the flag is up -/

theorem flag_next (hflag : p.state.shouldExit = true) (hnext : p.next l = some p') :
    p'.state.shouldExit = true := by
  rcases next_cases hnext with hstep | ⟨hstep, -⟩ | hstep
  · exact hstep.flag hflag
  · exact hstep.flag hflag
  · cases hstep with
    | raise hmain => rfl
    | joinSender hmain hsender => exact hflag
    | joinReceiver hmain hreceiver => exact hflag
    | close hmain => exact hflag

theorem sentTexts_append (ops more : List SocketOp) :
    sentTexts (ops ++ more) = sentTexts ops ++ sentTexts more :=
  List.filterMap_append

theorem receivedBuffers_append (ops more : List SocketOp) :
    receivedBuffers (ops ++ more) = receivedBuffers ops ++ receivedBuffers more :=
  List.filterMap_append

/-- With the flag up: what the process has sent since the trace `ops`, with what it may still send, is no more
than `sent`, and likewise what it receives. -/
structure LastActs (ops : List SocketOp) (sent received : Nat) (p : ClientProcess) : Prop where
  flag : p.state.shouldExit = true
  since : ∃ more, p.trace = ops ++ more ∧ (sentTexts more).length + p.sender.texts ≤ sent ∧
    (receivedBuffers more).length + p.receiver.buffers ≤ received

theorem LastActs.next {ops : List SocketOp} {sent received : Nat} (h : LastActs ops sent received p)
    (hnext : p.next l = some p') : LastActs ops sent received p' := by
  refine ⟨flag_next h.flag hnext, ?_⟩
  obtain ⟨more, htrace, hsent, hreceived⟩ := h.since
  rcases next_cases hnext with hstep | ⟨hstep, -⟩ | hstep
  · rw [hstep.receiver]
    rcases hstep.trace with ⟨ht, hless⟩ | ⟨text, ht, hless⟩
    · have htexts := hless h.flag
      exact ⟨more, ht.trans htrace, by omega, hreceived⟩
    · -- a text more in the trace, one less to send
      refine ⟨more ++ [.sent text], by rw [ht, htrace, List.append_assoc], ?_, ?_⟩
      · rw [sentTexts_append, List.length_append]
        simp only [sentTexts, List.filterMap_cons, List.filterMap_nil, List.length_singleton] at hsent ⊢
        omega
      · rw [receivedBuffers_append]
        simpa [receivedBuffers] using hreceived
  · rw [hstep.sender]
    rcases hstep.trace with ⟨ht, hless⟩ | ⟨buffer, ht, hless⟩
    · have hbuffers := hless h.flag
      exact ⟨more, ht.trans htrace, hsent, by omega⟩
    · -- a buffer more in the trace, one less to receive
      refine ⟨more ++ [.received buffer], by rw [ht, htrace, List.append_assoc], ?_, ?_⟩
      · rw [sentTexts_append]
        simpa [sentTexts] using hsent
      · rw [receivedBuffers_append, List.length_append]
        simp only [receivedBuffers, List.filterMap_cons, List.filterMap_nil,
          List.length_singleton] at hreceived ⊢
        omega
  · -- main sends nothing and receives nothing
    cases hstep with
    | joinSender hmain hsender => exact ⟨more, htrace, hsent, hreceived⟩
    | raise hmain => exact ⟨more, htrace, hsent, hreceived⟩
    | joinReceiver hmain hreceiver => exact ⟨more, htrace, hsent, hreceived⟩
    | close hmain =>
        refine ⟨more ++ [.closed], by simp only [htrace, List.append_assoc], ?_, ?_⟩
        · rw [sentTexts_append]
          simpa [sentTexts] using hsent
        · rw [receivedBuffers_append]
          simpa [receivedBuffers] using hreceived

theorem texts_le_one (place : SenderPlace) : place.texts ≤ 1 := by
  cases place <;> simp [SenderPlace.texts]

theorem buffers_le_one (place : ReceiverPlace) : place.buffers ≤ 1 := by
  cases place <;> simp [ReceiverPlace.buffers]

/-- With the flag up the process sends and receives once more at most. -/
theorem last_acts (hflag : p.state.shouldExit = true) (hrun : p.run ls = some q) :
    ∃ more, q.trace = p.trace ++ more ∧ (sentTexts more).length ≤ 1 ∧
      (receivedBuffers more).length ≤ 1 := by
  have hstart : LastActs p.trace 1 1 p := by
    refine ⟨hflag, [], (List.append_nil _).symm, ?_, ?_⟩
    · simpa [sentTexts] using texts_le_one p.sender
    · simpa [receivedBuffers] using buffers_le_one p.receiver
  obtain ⟨-, more, htrace, hsent, hreceived⟩ := run_induction hstart hrun fun _ _ _ _ => LastActs.next
  exact ⟨more, htrace, by omega, by omega⟩

/-! ## It comes to an end -/

/-- The order of the ranks. -/
def Lower : Nat × Nat → Nat × Nat → Prop := Prod.Lex (· < ·) (· < ·)

theorem wellFounded_lower : WellFounded Lower := Nat.lt_wfRel.wf.prod_lex Nat.lt_wfRel.wf

/-- With the flag up every step comes nearer to the end. -/
theorem lower_next (hflag : p.state.shouldExit = true) (hnext : p.next l = some p') :
    Lower p'.rank p.rank := by
  rcases next_cases hnext with hstep | ⟨hstep, -⟩ | hstep
  · -- the sender leaves the receiver's part of the rank alone
    have hlower := hstep.lower hflag
    have hrank : p'.receiverRank = p.receiverRank := by
      simp only [receiverRank, hstep.receiver, hstep.incompleteMessage]
    simp only [Lower, rank, hstep.receiver, hstep.main, hrank]
    apply Prod.Lex.right
    omega
  · -- `recv` may fill the buffer again, which is why it comes first in the rank
    rcases hstep.lower hflag with hbuffers | ⟨hbuffers, hlower⟩
    · exact Prod.Lex.left _ _ hbuffers
    · simp only [Lower, rank, hbuffers, hstep.main, hstep.sender]
      apply Prod.Lex.right
      omega
  · cases hstep with
    | joinSender hmain hsender =>
        apply Prod.Lex.right
        simp [receiverRank, MainPlace.rank, hmain]
    | raise hmain =>
        apply Prod.Lex.right
        simp [receiverRank, raiseExit, MainPlace.rank, hmain]
    | joinReceiver hmain hreceiver =>
        apply Prod.Lex.right
        simp [receiverRank, MainPlace.rank, hmain]
    | close hmain =>
        apply Prod.Lex.right
        simp [receiverRank, MainPlace.rank, hmain]

/-- No run goes on forever once the flag is up. -/
theorem acc_of_flag (hflag : p.state.shouldExit = true) :
    Acc (fun p' p : ClientProcess => ∃ l, p.next l = some p') p := by
  -- by well-founded induction on the rank
  generalize hr : p.rank = r
  induction r using wellFounded_lower.induction generalizing p with
  | _ r ih =>
      constructor
      rintro p' ⟨l, hnext⟩
      have hlower := lower_next hflag hnext
      rw [hr] at hlower
      exact ih _ hlower (flag_next hflag hnext) rfl

/-- A sender that has not returned has a step: nothing else holds it up but `getline` and the waiting for an
answer, which ends by the timeout. -/
theorem sender_goes_on (hs : p.sender ≠ .returned) : ∃ l, (p.next l).isSome = true := by
  cases hplace : p.sender with
  | returned => exact absurd hplace hs
  | namePrompt => exact ⟨.type [], by simp [next, hplace]⟩
  | inputPrompt => exact ⟨.type [], by simp [next, hplace]⟩
  | waiting => exact ⟨.timeout, by simp [next, hplace]⟩
  | handling line =>
      refine ⟨.sender false, ?_⟩
      simp only [next, senderNext, hplace]
      split
      · rfl
      · split <;> rfl
  | _ => exact ⟨.sender false, by simp [next, senderNext, hplace]⟩

/-- A receiver that has not returned has a step, in `recv` the end of the connection. -/
theorem receiver_goes_on (hr : p.receiver ≠ .returned) : ∃ l, (p.next l).isSome = true := by
  cases hplace : p.receiver with
  | returned => exact absurd hplace hr
  | test => exact ⟨.receiver, by simp [next, receiverNext, hplace]⟩
  | receiving => exact ⟨.recv .closed, by simp [next, recvReturns, hplace]⟩
  | scanning =>
      refine ⟨.receiver, ?_⟩
      cases htake : takeMessage newline p.incompleteMessage with
      | some taken => simp [next, receiverNext, hplace, htake]
      | none => simp [next, receiverNext, hplace, htake]

/-- Where nothing can happen any more, `main` has returned. -/
theorem returned_of_stuck (hstuck : ∀ l, p.next l = none) : p.main = .returned := by
  have hsender : p.sender = .returned := by
    by_contra hs
    obtain ⟨l, hnext⟩ := sender_goes_on hs
    simp [hstuck l] at hnext
  have hreceiver : p.receiver = .returned := by
    by_contra hr
    obtain ⟨l, hnext⟩ := receiver_goes_on hr
    simp [hstuck l] at hnext
  -- with both threads gone nothing holds `main` up
  have hmain := hstuck .main
  cases hm : p.main with
  | returned => rfl
  | joiningSender => simp [next, mainNext, hm, hsender] at hmain
  | raising => simp [next, mainNext, hm] at hmain
  | joiningReceiver => simp [next, mainNext, hm, hreceiver] at hmain
  | closing => simp [next, mainNext, hm] at hmain

/-- **The exit of the client is orderly, and it waits for the server.** In every run, `main` has returned
exactly when the socket is closed; it is closed once, as the last operation, when both threads have returned.
While the receiver is in `recv`, `main` does not return before `recv` does, `quit` or not. Once the flag is up
the client sends at most one more text and receives at most one more buffer, every run ends, and where nothing
can happen any more `main` has returned. -/
theorem orderly_exit (ls : List ClientLabel) (p : ClientProcess) (hrun : ({} : ClientProcess).run ls = some p) :
    (p.main = .returned ↔ .closed ∈ p.trace) ∧
    (∀ before after, p.trace = before ++ .closed :: after →
      after = [] ∧ .closed ∉ before ∧ p.sender = .returned ∧ p.receiver = .returned) ∧
    (p.receiver = .receiving → ∀ more q, p.run more = some q → (∀ result, .recv result ∉ more) →
      q.main ≠ .returned) ∧
    (p.state.shouldExit = true →
      (∀ more q, p.run more = some q → ∃ ops, q.trace = p.trace ++ ops ∧
        (sentTexts ops).length ≤ 1 ∧ (receivedBuffers ops).length ≤ 1) ∧
      (¬∃ run : Nat → ClientProcess, run 0 = p ∧ ∀ n, ∃ l, (run n).next l = some (run (n + 1))) ∧
      ∀ more q, p.run more = some q → (∀ l, q.next l = none) → q.main = .returned) := by
  have h : Orderly p := orderly_start.run hrun
  have hreturned : .closed ∈ p.trace → p.main = .returned := by
    intro hclosed
    by_contra hmain
    exact h.unclosed hmain hclosed
  refine ⟨⟨?_, hreturned⟩, ?_, ?_, ?_⟩
  · intro hmain
    obtain ⟨before, htrace, -⟩ := h.closed hmain
    simp [htrace]
  · intro before after htrace
    have hmain : p.main = .returned := hreturned (by simp [htrace])
    obtain ⟨before', htrace', hnot⟩ := h.closed hmain
    obtain ⟨rfl, rfl⟩ := eq_of_closed hnot (htrace'.symm.trans htrace)
    exact ⟨rfl, hnot, h.joined (by simp [hmain]), h.received (Or.inr hmain)⟩
  · intro hr more q hmore hno
    exact waiting_for_recv h hr hmore hno
  · intro hflag
    refine ⟨fun more q hmore => last_acts hflag hmore, ?_, fun more q _ hstuck => returned_of_stuck hstuck⟩
    rintro ⟨run, hstart, hsteps⟩
    exact (acc_iff_isEmpty_descending_chain.1 (acc_of_flag hflag)).false ⟨run, hstart, hsteps⟩

/-- The user says `quit` while the receiver is in `recv`; a last line of the server lets the client end. -/
def quitting : List ClientLabel := [
  .receiver, .sender false, .type (str "alice"), .sender false, .sender false, .sender false,
  .recv (.bytes (closed newline [str "NAME_SET"])), .receiver, .receiver, .receiver,
  .sender false, .sender false, .sender false, .sender false, .sender false, .type (str "quit"),
  .sender false, .main, .main]

/-- `main` waits for the receiver at first; when `recv` returns, it comes to its end. -/
theorem orderly_exit_quitting :
    (∃ p, ({} : ClientProcess).run quitting = some p ∧ p.state.shouldExit = true ∧
      ∀ more q, p.run more = some q → (∀ result, .recv result ∉ more) → q.main ≠ .returned) ∧
    ∃ p, ({} : ClientProcess).run (quitting ++ [.recv (.bytes (str "SUCCESS:")), .receiver, .receiver,
      .main, .main]) = some p ∧ .closed ∈ p.trace := by
  constructor
  · have hrun : (({} : ClientProcess).run quitting).any (fun p => decide (p.state.shouldExit = true ∧
        p.receiver = .receiving)) = true := by decide +kernel
    obtain ⟨p, hp, hcheck⟩ := (Option.any_eq_true _ _).1 hrun
    obtain ⟨hflag, hr⟩ := of_decide_eq_true hcheck
    exact ⟨p, hp, hflag, (orderly_exit quitting p hp).2.2.1 hr⟩
  · have hrun : (({} : ClientProcess).run (quitting ++ [.recv (.bytes (str "SUCCESS:")), .receiver, .receiver,
        .main, .main])).any (fun p => decide (p.main = .returned)) = true := by decide +kernel
    obtain ⟨p, hp, hcheck⟩ := (Option.any_eq_true _ _).1 hrun
    exact ⟨p, hp, (orderly_exit _ p hp).1.1 (of_decide_eq_true hcheck)⟩

end ClientProcess

end TerminalChat.Client
