import Mathlib
import TerminalChat.Client.Input

/-!
# The name handshake

The name loop of `sendMessageToServer`, the two branches of `receiveMessages` that answer it, and the server,
as three parties that take their steps in any order. The sender sends SETNAME, raises the flag
`m_waitingForNameValidation` and waits until the receiver lowers it. The flag goes up after the request is
on its way, so a quick answer comes too early. `Handshake.next` is one step, and
`Handshake.name_answer_never_missed_iff` says which runs miss no answer.
-/

set_option autoImplicit false

namespace TerminalChat.System

open TerminalChat.Text TerminalChat.Client

/-- Where the sender is in the name loop: the action it takes next. -/
inductive SenderAt where
  | prompt
  | storing (username : Bytes)
  | sending (username : Bytes)
  | raising (username : Bytes)
  | waiting (username : Bytes)
  | checking (username : Bytes)
  | reading (username : Bytes)
  | resetting
  | accepted (username : Bytes)
  | returned
  deriving DecidableEq

/-- Where the receiver is: it waits for a line, or it takes the next action of the branch for NAME_TAKEN
or NAME_SET, or its loop has ended. -/
inductive ReceiverAt where
  | idle
  | clearing
  | lowering
  | returned
  deriving DecidableEq

/-- The answer of the server to a SETNAME: NAME_SET when the name is available, NAME_TAKEN otherwise. -/
structure Answer where
  username : Bytes
  available : Bool
  deriving DecidableEq

/-- The handshake: the state the two threads of the client share, where they are, the requests and answers
on their way, and of the past how many requests were sent, how many answers the receiver has processed, and
the last answer of the server. -/
structure Handshake where
  state : ClientState := {}
  sender : SenderAt := .prompt
  receiver : ReceiverAt := .idle
  requests : List Bytes := []
  answers : List Answer := []
  sent : Nat := 0
  processed : Nat := 0
  lastAnswer : Option Answer := none
  deriving DecidableEq

/-- A step: the sender reads a line at its prompt, takes its next action, fails to send, or has waited for too
long; the server answers; the receiver takes an answer, takes its next action, finds the connection
closed, or leaves its loop because `recv` fails or the flag is up. -/
inductive HandshakeLabel where
  | type (line : Bytes)
  | sender
  | sendFails
  | timeout
  | answer (available : Bool)
  | receive
  | receiver
  | close
  | recvFails
  deriving DecidableEq

/-- The steps of the server and the receiver. -/
def HandshakeLabel.ofOthers : HandshakeLabel → Bool
  | .answer _ => true
  | .receive => true
  | .receiver => true
  | .close => true
  | .recvFails => true
  | _ => false

namespace Handshake

/-- The next action of the sender. -/
def senderNext (h : Handshake) : Option Handshake :=
  match h.sender with
  | .prompt => if h.state.shouldExit then some { h with sender := .returned } else none
  | .storing username => some { h with
      state := { h.state with username := username }
      sender := .sending username }
  | .sending username => some { h with
      requests := h.requests ++ [username]
      sent := h.sent + 1
      sender := .raising username }
  | .raising username => some { h with
      state := { h.state with waitingForNameValidation := true }
      sender := .waiting username }
  | .waiting username =>
      if h.state.waitingForNameValidation && !h.state.shouldExit then none
      else some { h with sender := .checking username }
  | .checking username =>
      if h.state.waitingForNameValidation then some { h with sender := .resetting }
      else some { h with sender := .reading username }
  | .reading username =>
      if h.state.username.isEmpty then some { h with sender := .resetting }
      else some { h with sender := .accepted username }
  | .resetting => some { h with
      state := { h.state with username := [] }
      sender := .prompt }
  | .accepted _ => none
  | .returned => none

/-- The next action of the receiver in the branch it is in. -/
def receiverNext (h : Handshake) : Option Handshake :=
  match h.receiver with
  | .clearing => some { h with
      state := { h.state with username := [] }
      receiver := .lowering }
  | .lowering => some { h with
      state := { h.state with waitingForNameValidation := false }
      processed := h.processed + 1
      receiver := .idle }
  | .idle => none
  | .returned => none

/-- One step; none where the label cannot occur. -/
def next (h : Handshake) : HandshakeLabel → Option Handshake
  | .type line =>
      if h.sender = .prompt ∧ h.state.shouldExit = false then
        some { h with sender := .storing (chosenName line) }
      else none
  | .sender => h.senderNext
  | .sendFails =>
      match h.sender with
      | .sending _ => some { h with
          state := { h.state with shouldExit := true }
          sender := .returned }
      | _ => none
  | .timeout =>
      match h.sender with
      | .waiting _ => some { h with
          state := { h.state with shouldExit := true }
          sender := .returned }
      | _ => none
  | .answer available =>
      match h.requests with
      | username :: requests => some { h with
          requests := requests
          answers := h.answers ++ [⟨username, available⟩]
          lastAnswer := some ⟨username, available⟩ }
      | [] => none
  | .receive =>
      match h.receiver, h.answers with
      | .idle, answer :: answers => some { h with
          answers := answers
          receiver := if answer.available then .lowering else .clearing }
      | _, _ => none
  | .receiver => h.receiverNext
  | .close =>
      if h.receiver = .idle then
        some { h with
          state := { h.state with shouldExit := true }
          receiver := .returned }
      else none
  | .recvFails => if h.receiver = .idle then some { h with receiver := .returned } else none

/-- The states that a sequence of labels goes through, as far as the labels can occur. -/
def visits (h : Handshake) : List HandshakeLabel → List Handshake
  | [] => [h]
  | l :: ls => h :: match h.next l with
    | some h' => h'.visits ls
    | none => []

/-- The steps of a sequence of labels, each with the state before it. -/
def steps (h : Handshake) : List HandshakeLabel → List (Handshake × HandshakeLabel)
  | [] => []
  | l :: ls => match h.next l with
    | some h' => (h, l) :: h'.steps ls
    | none => []

/-- The sender waits for an answer that the receiver has already processed. -/
def Missed (h : Handshake) : Prop :=
  (∃ username, h.sender = .waiting username) ∧ h.state.waitingForNameValidation = true ∧
    h.processed = h.sent

/-- A name is accepted only when the last answer was NAME_SET for it. -/
def Sound (h : Handshake) : Prop :=
  ∀ username, h.sender = .accepted username → h.lastAnswer = some ⟨username, true⟩

/-- The flag goes up while the answer to the request is still to be processed. -/
def InTime (h : Handshake) : HandshakeLabel → Prop
  | .sender => ∀ username, h.sender = .raising username → h.processed < h.sent
  | _ => True

/-- Without interruption the sender does at its prompt what `promptName` does. -/
theorem foldlM_type {h : Handshake} (hs : h.sender = .prompt) (he : h.state.shouldExit = false)
    (line : Bytes) : [HandshakeLabel.type line, .sender, .sender, .sender].foldlM next h = some { h with
      state := (promptName h.state line).1
      requests := h.requests ++ [chosenName line]
      sent := h.sent + 1
      sender := .waiting (chosenName line) } := by
  simp [List.foldlM, next, senderNext, hs, he, promptName]

/-- The line that brings an answer. -/
def lineOf (answer : Answer) : Bytes :=
  if answer.available then str "NAME_SET" else str "NAME_TAKEN"

/-- Without interruption the receiver does with an answer what `receiveLine` does with its line. -/
theorem foldlM_receive {h : Handshake} {answer : Answer} {answers : List Answer}
    (hr : h.receiver = .idle) (ha : h.answers = answer :: answers) :
    (.receive :: List.replicate (if answer.available then 1 else 2) HandshakeLabel.receiver).foldlM next h =
      some { h with
        state := receiveLine (lineOf answer) h.state
        answers := answers
        processed := h.processed + 1 } := by
  cases hav : answer.available with
  | true =>
      have hline : receiveLine (lineOf answer) h.state =
          { h.state with waitingForNameValidation := false } := by
        rw [lineOf, hav]
        rfl
      simp [List.foldlM, next, receiverNext, hr, ha, hav, hline]
  | false =>
      have hline : receiveLine (lineOf answer) h.state =
          { h.state with username := [], waitingForNameValidation := false } := by
        rw [lineOf, hav]
        rfl
      simp [List.foldlM, List.replicate, next, receiverNext, hr, ha, hav, hline]

/-! ## The invariant -/

/-- Nothing is on its way, and the flag is down. -/
structure Quiet (h : Handshake) : Prop where
  requests : h.requests = []
  answers : h.answers = []
  receiver : h.receiver = .idle ∨ h.receiver = .returned
  processed : h.processed = h.sent
  flag : h.state.waitingForNameValidation = false

/-- The answer to the request for `username` has been processed: the name was set, or it is cleared. -/
structure Settled (h : Handshake) (username : Bytes) : Prop where
  requests : h.requests = []
  answers : h.answers = []
  receiver : h.receiver = .idle ∨ h.receiver = .returned
  processed : h.processed = h.sent
  outcome : h.lastAnswer = some ⟨username, true⟩ ∨ h.state.username = []

/-- The request for `username` or its answer is on its way, or the receiver is at it. -/
structure Outstanding (h : Handshake) (username : Bytes) : Prop where
  processed : h.processed + 1 = h.sent
  place : (h.requests = [username] ∧ h.answers = [] ∧ (h.receiver = .idle ∨ h.receiver = .returned)) ∨
    (h.requests = [] ∧ ∃ available, h.answers = [⟨username, available⟩] ∧
      h.lastAnswer = some ⟨username, available⟩ ∧ (h.receiver = .idle ∨ h.receiver = .returned)) ∨
    (h.requests = [] ∧ h.answers = [] ∧ (h.receiver = .clearing ∨ h.receiver = .lowering ∧
      (h.lastAnswer = some ⟨username, true⟩ ∨ h.state.username = [])))

/-- What holds at each place of the sender. -/
def Inv (h : Handshake) : Prop :=
  match h.sender with
  | .prompt => h.state.shouldExit = false → h.Quiet
  | .storing _ => h.Quiet
  | .sending _ => h.Quiet
  | .raising username => h.state.waitingForNameValidation = false ∧
      (h.Outstanding username ∨ h.Settled username)
  | .waiting username => (h.Outstanding username ∧ h.state.waitingForNameValidation = true) ∨
      h.Settled username
  | .checking username => (h.Outstanding username ∧ h.state.waitingForNameValidation = true ∧
      h.state.shouldExit = true) ∨ (h.Settled username ∧
        (h.state.waitingForNameValidation = true → h.state.shouldExit = true))
  | .reading username => h.Settled username ∧ h.state.waitingForNameValidation = false
  | .resetting => h.state.shouldExit = false → h.Quiet
  | .accepted username => h.requests = [] ∧ h.lastAnswer = some ⟨username, true⟩
  | .returned => True

/-! ## Steps of the server and the receiver -/

section Others

variable {h h' : Handshake} {l : HandshakeLabel} {username : Bytes}

/-- Another party leaves the sender where it is; it lowers the flag when it has processed an answer and
does not raise it, and an exit is not taken back. -/
theorem frame_of_others (hl : l.ofOthers = true) (hn : h.next l = some h') :
    h'.sender = h.sender ∧
      (h'.state.waitingForNameValidation = true → h.state.waitingForNameValidation = true ∧
        h'.processed = h.processed ∧ h'.sent = h.sent) ∧
      (h.state.shouldExit = true → h'.state.shouldExit = true) := by
  cases l with
  | answer available =>
      rw [next] at hn
      split at hn
      · cases hn
        exact ⟨rfl, fun hflag => ⟨hflag, rfl, rfl⟩, id⟩
      · exact absurd hn (by simp)
  | receive =>
      rw [next] at hn
      split at hn
      · cases hn
        exact ⟨rfl, fun hflag => ⟨hflag, rfl, rfl⟩, id⟩
      · exact absurd hn (by simp)
  | receiver =>
      rw [next, receiverNext] at hn
      split at hn
      · cases hn
        exact ⟨rfl, fun hflag => ⟨hflag, rfl, rfl⟩, id⟩
      · cases hn
        exact ⟨rfl, fun hflag => absurd hflag (by simp), id⟩
      · exact absurd hn (by simp)
      · exact absurd hn (by simp)
  | close =>
      rw [next, Option.ite_none_right_eq_some] at hn
      obtain ⟨-, hn⟩ := hn
      cases hn
      exact ⟨rfl, fun hflag => ⟨hflag, rfl, rfl⟩, fun _ => rfl⟩
  | recvFails =>
      rw [next, Option.ite_none_right_eq_some] at hn
      obtain ⟨-, hn⟩ := hn
      cases hn
      exact ⟨rfl, fun hflag => ⟨hflag, rfl, rfl⟩, id⟩
  | _ => exact absurd hl Bool.false_ne_true

/-- Where nothing is on its way, all that the other parties can do is that the receiver leaves its loop. -/
theorem returned_of_others (hl : l.ofOthers = true) (hrequests : h.requests = []) (hanswers : h.answers = [])
    (hreceiver : h.receiver = .idle ∨ h.receiver = .returned) (hn : h.next l = some h') :
    ∃ exit : Bool, h' = { h with
      state := { h.state with shouldExit := exit }
      receiver := .returned } := by
  cases l with
  | answer available => simp [next, hrequests] at hn
  | receive => simp [next, hanswers] at hn
  | receiver =>
      rcases hreceiver with hreceiver | hreceiver
      · simp [next, receiverNext, hreceiver] at hn
      · simp [next, receiverNext, hreceiver] at hn
  | close =>
      rw [next, Option.ite_none_right_eq_some] at hn
      obtain ⟨-, hn⟩ := hn
      cases hn
      exact ⟨true, rfl⟩
  | recvFails =>
      rw [next, Option.ite_none_right_eq_some] at hn
      obtain ⟨-, hn⟩ := hn
      cases hn
      exact ⟨h.state.shouldExit, rfl⟩
  | _ => exact absurd hl Bool.false_ne_true

theorem Quiet.others (hq : h.Quiet) (hl : l.ofOthers = true) (hn : h.next l = some h') : h'.Quiet := by
  obtain ⟨exit, rfl⟩ := returned_of_others hl hq.requests hq.answers hq.receiver hn
  exact ⟨hq.requests, hq.answers, Or.inr rfl, hq.processed, hq.flag⟩

theorem Settled.others (hs : h.Settled username) (hl : l.ofOthers = true) (hn : h.next l = some h') :
    h'.Settled username := by
  obtain ⟨exit, rfl⟩ := returned_of_others hl hs.requests hs.answers hs.receiver hn
  exact ⟨hs.requests, hs.answers, Or.inr rfl, hs.processed, hs.outcome⟩

/-- A request stays outstanding until the receiver lowers the flag; then it is settled. -/
theorem Outstanding.others (ho : h.Outstanding username) (hl : l.ofOthers = true)
    (hn : h.next l = some h') : (h'.Outstanding username ∧
      h'.state.waitingForNameValidation = h.state.waitingForNameValidation) ∨
      (h'.Settled username ∧ h'.state.waitingForNameValidation = false) := by
  obtain ⟨hprocessed, ⟨hrequests, hanswers, hreceiver⟩ | ⟨hrequests, available, hanswers, hlast, hreceiver⟩ |
    ⟨hrequests, hanswers, hreceiver⟩⟩ := ho
  · -- the request is on its way
    cases l with
    | answer available =>
        -- the server answers: the answer is on its way now
        simp only [next, hrequests, Option.some.injEq] at hn
        subst hn
        refine Or.inl ⟨⟨hprocessed, Or.inr (Or.inl ⟨rfl, available, ?_, rfl, hreceiver⟩)⟩, rfl⟩
        rw [hanswers, List.nil_append]
    | receive => simp [next, hanswers] at hn
    | receiver => rcases hreceiver with hr | hr <;> simp [next, receiverNext, hr] at hn
    | close =>
        rw [next, Option.ite_none_right_eq_some] at hn
        obtain ⟨-, hn⟩ := hn
        cases hn
        exact Or.inl ⟨⟨hprocessed, Or.inl ⟨hrequests, hanswers, Or.inr rfl⟩⟩, rfl⟩
    | recvFails =>
        rw [next, Option.ite_none_right_eq_some] at hn
        obtain ⟨-, hn⟩ := hn
        cases hn
        exact Or.inl ⟨⟨hprocessed, Or.inl ⟨hrequests, hanswers, Or.inr rfl⟩⟩, rfl⟩
    | _ => exact absurd hl Bool.false_ne_true
  · -- its answer is
    cases l with
    | answer available => simp [next, hrequests] at hn
    | receive =>
        -- the answer arrives; one that takes the name leads to the branch that clears it
        rcases hreceiver with hr | hr
        · simp only [next, hr, hanswers, Option.some.injEq] at hn
          subst hn
          refine Or.inl ⟨⟨hprocessed, Or.inr (Or.inr ⟨hrequests, rfl, ?_⟩)⟩, rfl⟩
          cases available with
          | true => exact Or.inr ⟨rfl, Or.inl hlast⟩
          | false => exact Or.inl rfl
        · simp [next, hr] at hn
    | receiver => rcases hreceiver with hr | hr <;> simp [next, receiverNext, hr] at hn
    | close =>
        rw [next, Option.ite_none_right_eq_some] at hn
        obtain ⟨-, hn⟩ := hn
        cases hn
        exact Or.inl ⟨⟨hprocessed,
          Or.inr (Or.inl ⟨hrequests, available, hanswers, hlast, Or.inr rfl⟩)⟩, rfl⟩
    | recvFails =>
        rw [next, Option.ite_none_right_eq_some] at hn
        obtain ⟨-, hn⟩ := hn
        cases hn
        exact Or.inl ⟨⟨hprocessed,
          Or.inr (Or.inl ⟨hrequests, available, hanswers, hlast, Or.inr rfl⟩)⟩, rfl⟩
    | _ => exact absurd hl Bool.false_ne_true
  · -- the receiver is at the answer
    cases l with
    | answer available => simp [next, hrequests] at hn
    | receive => simp [next, hanswers] at hn
    | receiver =>
        rcases hreceiver with hr | ⟨hr, houtcome⟩
        · -- the username is cleared, the flag still up
          simp only [next, receiverNext, hr, Option.some.injEq] at hn
          subst hn
          exact Or.inl ⟨⟨hprocessed, Or.inr (Or.inr ⟨hrequests, hanswers, Or.inr ⟨rfl, Or.inr rfl⟩⟩)⟩, rfl⟩
        · -- the flag is lowered: the request is settled
          simp only [next, receiverNext, hr, Option.some.injEq] at hn
          subst hn
          exact Or.inr ⟨⟨hrequests, hanswers, Or.inl rfl, hprocessed, houtcome⟩, rfl⟩
    | close => rcases hreceiver with hr | ⟨hr, -⟩ <;> simp [next, hr] at hn
    | recvFails => rcases hreceiver with hr | ⟨hr, -⟩ <;> simp [next, hr] at hn
    | _ => exact absurd hl Bool.false_ne_true

/-- The invariant is kept by the other parties. -/
theorem Inv.others (hi : h.Inv) (hl : l.ofOthers = true) (hn : h.next l = some h') : h'.Inv := by
  obtain ⟨hsender, hflag, hexit⟩ := frame_of_others hl hn
  -- nobody takes the exit flag back
  have hrun : h'.state.shouldExit = false → h.state.shouldExit = false := by
    intro he
    rw [Bool.eq_false_iff] at he ⊢
    exact fun he' => he (hexit he')
  have hlow : h.state.waitingForNameValidation = false → h'.state.waitingForNameValidation = false := by
    intro hf
    rw [Bool.eq_false_iff] at hf ⊢
    exact fun hf' => hf (hflag hf').1
  rw [Inv] at hi ⊢
  rw [hsender]
  cases hs : h.sender with
  | prompt =>
      rw [hs] at hi
      exact fun he => (hi (hrun he)).others hl hn
  | storing username =>
      rw [hs] at hi
      exact Quiet.others hi hl hn
  | sending username =>
      rw [hs] at hi
      exact Quiet.others hi hl hn
  | raising username =>
      rw [hs] at hi
      obtain ⟨hf, ho | hset⟩ := hi
      · refine ⟨hlow hf, ?_⟩
        rcases ho.others hl hn with ⟨ho', -⟩ | ⟨hset', -⟩
        · exact Or.inl ho'
        · exact Or.inr hset'
      · exact ⟨hlow hf, Or.inr (hset.others hl hn)⟩
  | waiting username =>
      rw [hs] at hi
      rcases hi with ⟨ho, hf⟩ | hset
      · rcases ho.others hl hn with ⟨ho', hf'⟩ | ⟨hset', -⟩
        · exact Or.inl ⟨ho', hf'.trans hf⟩
        · exact Or.inr hset'
      · exact Or.inr (hset.others hl hn)
  | checking username =>
      rw [hs] at hi
      rcases hi with ⟨ho, hf, he⟩ | ⟨hset, hfe⟩
      · rcases ho.others hl hn with ⟨ho', hf'⟩ | ⟨hset', -⟩
        · exact Or.inl ⟨ho', hf'.trans hf, hexit he⟩
        · exact Or.inr ⟨hset', fun _ => hexit he⟩
      · exact Or.inr ⟨hset.others hl hn, fun hf' => hexit (hfe (hflag hf').1)⟩
  | reading username =>
      rw [hs] at hi
      exact ⟨hi.1.others hl hn, hlow hi.2⟩
  | resetting =>
      rw [hs] at hi
      exact fun he => (hi (hrun he)).others hl hn
  | accepted username =>
      rw [hs] at hi
      -- nothing is sent any more, so the last outcome stays the last
      obtain ⟨hrequests, hlast⟩ := hi
      cases l with
      | answer available => simp [next, hrequests] at hn
      | receive =>
          rw [next] at hn
          split at hn
          · cases hn
            exact ⟨hrequests, hlast⟩
          · exact absurd hn (by simp)
      | receiver =>
          rw [next, receiverNext] at hn
          split at hn
          · cases hn
            exact ⟨hrequests, hlast⟩
          · cases hn
            exact ⟨hrequests, hlast⟩
          · exact absurd hn (by simp)
          · exact absurd hn (by simp)
      | close =>
          rw [next, Option.ite_none_right_eq_some] at hn
          obtain ⟨-, hn⟩ := hn
          cases hn
          exact ⟨hrequests, hlast⟩
      | recvFails =>
          rw [next, Option.ite_none_right_eq_some] at hn
          obtain ⟨-, hn⟩ := hn
          cases hn
          exact ⟨hrequests, hlast⟩
      | _ => exact absurd hl Bool.false_ne_true
  | returned => trivial

end Others

/-! ## Steps of the sender -/

section Own

variable {h h' : Handshake} {username : Bytes}

/-- The invariant is kept by the actions of the sender. -/
theorem Inv.senderNext (hi : h.Inv) (hn : h.senderNext = some h') : h'.Inv := by
  rw [Inv] at hi
  rw [Handshake.senderNext] at hn
  cases hs : h.sender with
  | prompt =>
      simp only [hs, Option.ite_none_right_eq_some, Option.some.injEq] at hn
      obtain ⟨-, rfl⟩ := hn
      trivial
  | storing username =>
      simp only [hs, Option.some.injEq] at hn hi
      subst hn
      exact ⟨hi.requests, hi.answers, hi.receiver, hi.processed, hi.flag⟩
  | sending username =>
      simp only [hs, Option.some.injEq] at hn hi
      subst hn
      refine ⟨hi.flag, Or.inl ⟨?_, Or.inl ⟨?_, hi.answers, hi.receiver⟩⟩⟩
      · exact congrArg (· + 1) hi.processed
      · dsimp only
        rw [hi.requests, List.nil_append]
  | raising username =>
      simp only [hs, Option.some.injEq] at hn hi
      subst hn
      -- the answer may have come before the flag was raised
      rcases hi.2 with ho | hset
      · exact Or.inl ⟨⟨ho.processed, ho.place⟩, rfl⟩
      · exact Or.inr ⟨hset.requests, hset.answers, hset.receiver, hset.processed, hset.outcome⟩
  | waiting username =>
      simp only [hs, Option.ite_none_left_eq_some, Option.some.injEq, Bool.and_eq_true, not_and,
        Bool.not_eq_true', Bool.not_eq_false] at hn hi
      -- the wait ends when the flag is down or the program is to exit
      obtain ⟨hleave, rfl⟩ := hn
      rcases hi with ⟨ho, hf⟩ | hset
      · exact Or.inl ⟨⟨ho.processed, ho.place⟩, hf, hleave hf⟩
      · exact Or.inr ⟨⟨hset.requests, hset.answers, hset.receiver, hset.processed, hset.outcome⟩, hleave⟩
  | checking username =>
      simp only [hs] at hn hi
      -- a flag that is still up means that the program is to exit
      by_cases hf : h.state.waitingForNameValidation = true
      · rw [if_pos hf, Option.some.injEq] at hn
        subst hn
        intro he
        rcases hi with ⟨-, -, he'⟩ | ⟨-, hfe⟩
        · exact absurd he (by simp [he'])
        · exact absurd he (by simp [hfe hf])
      · rw [if_neg hf, Option.some.injEq] at hn
        subst hn
        rcases hi with ⟨-, hf', -⟩ | ⟨hset, -⟩
        · exact absurd hf' hf
        · exact ⟨⟨hset.requests, hset.answers, hset.receiver, hset.processed, hset.outcome⟩,
            Bool.eq_false_iff.2 hf⟩
  | reading username =>
      simp only [hs] at hn hi
      obtain ⟨hset, hf⟩ := hi
      -- an empty name means NAME_TAKEN
      by_cases hempty : h.state.username.isEmpty = true
      · rw [if_pos hempty, Option.some.injEq] at hn
        subst hn
        exact fun _ => ⟨hset.requests, hset.answers, hset.receiver, hset.processed, hf⟩
      · rw [if_neg hempty, Option.some.injEq] at hn
        subst hn
        rw [List.isEmpty_iff] at hempty
        exact ⟨hset.requests, hset.outcome.resolve_right hempty⟩
  | resetting =>
      simp only [hs, Option.some.injEq] at hn hi
      subst hn
      intro he
      have hq := hi he
      exact ⟨hq.requests, hq.answers, hq.receiver, hq.processed, hq.flag⟩
  | accepted username => simp [hs] at hn
  | returned => simp [hs] at hn

/-- Every step keeps the invariant. -/
theorem Inv.next (hi : h.Inv) {l : HandshakeLabel} (hn : h.next l = some h') : h'.Inv := by
  cases l with
  | type line =>
      rw [Handshake.next, Option.ite_none_right_eq_some] at hn
      obtain ⟨⟨hprompt, hrun⟩, hn⟩ := hn
      cases hn
      rw [Inv, hprompt] at hi
      have hq := hi hrun
      exact ⟨hq.requests, hq.answers, hq.receiver, hq.processed, hq.flag⟩
  | sender => exact hi.senderNext hn
  | sendFails =>
      rw [Handshake.next] at hn
      split at hn
      · cases hn
        trivial
      · exact absurd hn (by simp)
  | timeout =>
      rw [Handshake.next] at hn
      split at hn
      · cases hn
        trivial
      · exact absurd hn (by simp)
  | answer available => exact hi.others rfl hn
  | receive => exact hi.others rfl hn
  | receiver => exact hi.others rfl hn
  | close => exact hi.others rfl hn
  | recvFails => exact hi.others rfl hn

theorem inv_start : Inv {} := fun _ => ⟨rfl, rfl, Or.inl rfl, rfl, rfl⟩

theorem Inv.sound (hi : h.Inv) : h.Sound := by
  intro username hs
  rw [Inv, hs] at hi
  exact hi.2

/-- A step leads to a missed answer exactly when it raises the flag too late. -/
theorem missed_iff_late (hi : h.Inv) (hm : ¬h.Missed) {l : HandshakeLabel} (hn : h.next l = some h') :
    h'.Missed ↔ ¬h.InTime l := by
  constructor
  · rintro ⟨⟨username, hs'⟩, hf', hp'⟩ hin
    have hothers : l.ofOthers = false := by
      rw [Bool.eq_false_iff]
      intro hl
      obtain ⟨hsender, hflag, -⟩ := frame_of_others hl hn
      obtain ⟨hf, hp, hsent⟩ := hflag hf'
      exact hm ⟨⟨username, hsender.symm.trans hs'⟩, hf, hp.symm.trans (hp'.trans hsent)⟩
    cases l with
    | type line =>
        rw [Handshake.next, Option.ite_none_right_eq_some] at hn
        obtain ⟨-, hn⟩ := hn
        cases hn
        exact absurd hs' (by simp)
    | sender =>
        -- only the raise leads to the wait
        rw [Handshake.next, Handshake.senderNext] at hn
        cases hs : h.sender with
        | raising u =>
            have hlt := hin u hs
            simp only [hs, Option.some.injEq] at hn
            subst hn
            exact absurd hp' (Nat.ne_of_lt hlt)
        | prompt =>
            simp only [hs, Option.ite_none_right_eq_some, Option.some.injEq] at hn
            obtain ⟨-, rfl⟩ := hn
            exact absurd hs' (by simp)
        | waiting u =>
            simp only [hs, Option.ite_none_left_eq_some, Option.some.injEq] at hn
            obtain ⟨-, rfl⟩ := hn
            exact absurd hs' (by simp)
        | checking u =>
            simp only [hs] at hn
            split at hn <;> cases hn <;> exact absurd hs' (by simp)
        | reading u =>
            simp only [hs] at hn
            split at hn <;> cases hn <;> exact absurd hs' (by simp)
        | accepted u => simp [hs] at hn
        | returned => simp [hs] at hn
        | _ =>
            simp only [hs, Option.some.injEq] at hn
            subst hn
            exact absurd hs' (by simp)
    | sendFails =>
        rw [Handshake.next] at hn
        split at hn
        · cases hn
          exact absurd hs' (by simp)
        · exact absurd hn (by simp)
    | timeout =>
        rw [Handshake.next] at hn
        split at hn
        · cases hn
          exact absurd hs' (by simp)
        · exact absurd hn (by simp)
    | _ => exact Bool.noConfusion hothers
  · intro hlate
    cases l with
    | sender =>
        simp only [InTime, not_forall, Nat.not_lt] at hlate
        obtain ⟨username, hs, hle⟩ := hlate
        rw [Inv, hs] at hi
        rw [Handshake.next, Handshake.senderNext] at hn
        simp only [hs, Option.some.injEq] at hn
        subst hn
        rcases hi.2 with ho | hset
        · have hp := ho.processed
          omega
        · exact ⟨⟨username, rfl⟩, rfl, hset.processed⟩
    | _ => exact absurd trivial hlate

/-- Along a sequence of steps no answer is missed exactly when every raise is in time. -/
theorem visits_sound_iff : ∀ (ls : List HandshakeLabel) {h : Handshake}, h.Inv → ¬h.Missed →
    ((∀ x ∈ h.visits ls, ¬x.Missed ∧ x.Sound) ↔ ∀ p ∈ h.steps ls, p.1.InTime p.2)
  | [], h, hi, hm => by
      rw [visits, steps]
      constructor
      · intro _ p hp
        exact absurd hp List.not_mem_nil
      · intro _ x hx
        rw [List.mem_singleton.1 hx]
        exact ⟨hm, hi.sound⟩
  | l :: ls, h, hi, hm => by
      rw [visits, steps]
      cases hn : h.next l with
      | none =>
          constructor
          · intro _ p hp
            exact absurd hp List.not_mem_nil
          · intro _ x hx
            rw [List.mem_singleton.1 hx]
            exact ⟨hm, hi.sound⟩
      | some h' =>
          have hi' := hi.next hn
          have hstep := missed_iff_late hi hm hn
          constructor
          · intro hall
            -- no answer has been missed in the next state, so the step was in time
            have hm' : ¬h'.Missed := by
              refine (hall h' (List.mem_cons_of_mem h ?_)).1
              cases ls with
              | nil => exact List.mem_singleton_self h'
              | cons _ _ => exact List.mem_cons_self
            intro p hp
            rcases List.mem_cons.1 hp with rfl | hp
            · exact not_not.1 fun hlate => hm' (hstep.2 hlate)
            · exact (visits_sound_iff ls hi' hm').1
                (fun x hx => hall x (List.mem_cons_of_mem h hx)) p hp
          · intro hall
            have hm' : ¬h'.Missed := fun hmissed =>
              hstep.1 hmissed (hall (h, l) List.mem_cons_self)
            intro x hx
            rcases List.mem_cons.1 hx with rfl | hx
            · exact ⟨hm, hi.sound⟩
            · exact (visits_sound_iff ls hi' hm').2
                (fun p hp => hall p (List.mem_cons_of_mem _ hp)) x hx

end Own

/-- **The name handshake misses no answer exactly when the flag goes up in time.** In every state that a
sequence of steps goes through, the sender does not wait for an answer that has been processed, and a name
is accepted only when the last answer was NAME_SET for it: this holds if and only if in every step that
raises the flag the answer to the request is still to be processed. -/
theorem name_answer_never_missed_iff (ls : List HandshakeLabel) :
    (∀ h ∈ visits {} ls, ¬h.Missed ∧ h.Sound) ↔ ∀ p ∈ steps {} ls, p.1.InTime p.2 :=
  visits_sound_iff ls inv_start fun hm => absurd hm.1 (by simp)

/-- The server answers, and the receiver processes the answer, before the sender raises the flag. -/
def quickAnswer : List HandshakeLabel :=
  [.type (str "alice"), .sender, .sender, .answer true, .receive, .receiver, .sender]

/-- The sender waits, although its only request has been answered with NAME_SET. -/
theorem not_name_answer_never_missed :
    ¬∀ ls : List HandshakeLabel, ∀ h ∈ visits {} ls, ¬h.Missed ∧ h.Sound := by
  intro hall
  obtain ⟨h, hh, hmissed⟩ : ∃ h ∈ visits {} quickAnswer, h.sender = .waiting (str "alice") ∧
      h.state.waitingForNameValidation = true ∧ h.processed = h.sent := by decide +kernel
  exact (hall quickAnswer h hh).1 ⟨⟨_, hmissed.1⟩, hmissed.2⟩

end Handshake

end TerminalChat.System
