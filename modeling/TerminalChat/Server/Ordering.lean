import Mathlib
import TerminalChat.Server.Joining

/-!
# One order for all clients

The broadcaster takes the messages from the queue one after the other, and a message that comes to its
turn is sent to all its readers before the next one comes to its own. So the clients hear what they hear
in one order, that in which the messages were accepted, whoever is in which room and whatever the
handlers send in between (`Machine.one_order`).
-/

set_option autoImplicit false

namespace TerminalChat.Server

open TerminalChat.Concurrency TerminalChat.Text

/-! ## Turns -/

/-- The turn of a message: the message and the socket operations for it. -/
def Entry.turn : Entry → Option (Message × List NetOp)
  | .delivered message _ ops => some (message, ops)
  | .whispered message _ _ ops => some (message, ops)
  | _ => none

/-- The turns that messages have had, public and private, in order. -/
def turns (log : List Entry) : List (Message × List NetOp) := log.filterMap Entry.turn

theorem turns_append (log log' : List Entry) : turns (log ++ log') = turns log ++ turns log' :=
  List.filterMap_append

theorem turns_mainEntries (s s' : Globals) : turns (mainEntries s s') = [] := by
  rw [turns, List.filterMap_eq_nil_iff]
  intro entry hentry
  rw [mainEntries, List.mem_append, List.mem_map, List.mem_map] at hentry
  rcases hentry with ⟨q, -, rfl⟩ | ⟨message, -, rfl⟩
  · rfl
  · rfl

/-- The message whose turn is still to come although it has left the queue. -/
def Hand.waiting : Hand → List Message
  | .empty => []
  | .taken message => [message]
  | .found message => [message]
  | .resolved message _ _ => [message]

/-- A line that the broadcaster may send for a message: the chat line; the two lines of a private
message; or the refusal when its recipient is not there. -/
inductive Bears (message : Message) : Bytes → Prop where
  | chat (now : LocalTm) (h : message.isPrivate = false) :
      Bears message (chatText now.text message.senderName message.content)
  | whisper (now : LocalTm) (h : message.isPrivate = true) :
      Bears message (privateText now.text "PM_FROM:" message.senderName message.content)
  | receipt (now : LocalTm) (h : message.isPrivate = true) :
      Bears message (privateText now.text "PM_SENT:" message.recipientName message.content)
  | refusal (h : message.isPrivate = true) : Bears message
      (str "ERROR: User '" ++ message.recipientName ++ str "' not found in this room\n")

/-- Everything that is sent in the turn of a message bears the message. -/
def Truthful (log : List Entry) : Prop :=
  ∀ p ∈ turns log, ∀ op ∈ p.2, ∃ t text, op = .sent t text ∧ Bears p.1 text

/-- What a run keeps: the turns are those of accepted messages in the order of their acceptance, what
is in hand and in the queue comes after them, and the trace contains the turns in their order. -/
structure OneOrder (s : Globals) (w : Watch) : Prop where
  queue : ((turns w.log).map Prod.fst ++ (w.hand.waiting ++ s.messageQueue)).Sublist (accepted w.log)
  trace : ((turns w.log).flatMap Prod.snd).Sublist s.net
  lines : Truthful w.log
  resolved : ∀ message t recipient, w.hand = .resolved message t recipient → message.isPrivate = true

section Order

variable {s s' : Globals} {w : Watch} {e : Env}

theorem OneOrder.same (h : OneOrder s w) (hq : s'.messageQueue = s.messageQueue) (hn : s'.net = s.net) :
    OneOrder s' w := by
  refine ⟨?_, ?_, h.lines, h.resolved⟩
  · rw [hq]
    exact h.queue
  · rw [hn]
    exact h.trace

/-- Handlers accept messages; they give nobody a turn. -/
theorem OneOrder.main {H : List Mutex} {g g' : Note} (h : OneOrder s w) (hd : MainDeed H g g' e s s') :
    OneOrder s' { w with log := w.log ++ mainEntries s s' } := by
  obtain ⟨effs, ops, hdeeds, hnet, -⟩ := hd.deeds
  -- the handlers log what they accept, which is no turn of the broadcaster
  have hsame : turns (w.log ++ mainEntries s s') = turns w.log := by
    rw [turns_append, turns_mainEntries, List.append_nil]
  have hqueue := hdeeds.queue
  constructor
  · show ((turns (w.log ++ mainEntries s s')).map Prod.fst ++ (w.hand.waiting ++ s'.messageQueue)).Sublist
      (accepted (w.log ++ mainEntries s s'))
    rw [hsame, accepted_append, accepted_mainEntries, hqueue, List.drop_left, ← List.append_assoc,
      ← List.append_assoc]
    have hbefore := h.queue
    rw [← List.append_assoc] at hbefore
    exact hbefore.append (List.Sublist.refl _)
  · show ((turns (w.log ++ mainEntries s s')).flatMap Prod.snd).Sublist s'.net
    rw [hsame, hnet]
    exact h.trace.trans (List.sublist_append_left _ _)
  · show Truthful (w.log ++ mainEntries s s')
    rw [Truthful, hsame]
    exact h.lines
  · exact h.resolved

/-- The message in hand has its turn. -/
theorem OneOrder.turn (h : OneOrder s w) {message : Message} (hw : w.hand.waiting = [message])
    {entry : Entry} {ops : List NetOp} (hentry : entry.turn = some (message, ops))
    (haccepted : accepted [entry] = []) (hops : ∀ op ∈ ops, ∃ t text, op = .sent t text ∧
      Bears message text) (hq : s'.messageQueue = s.messageQueue) (hnet : s'.net = s.net ++ ops) :
    OneOrder s' { hand := .empty, log := w.log ++ [entry] } := by
  -- the turn goes behind the others, and the message leaves the hand
  have hturns : turns (w.log ++ [entry]) = turns w.log ++ [(message, ops)] := by
    rw [turns_append]
    simp [turns, hentry]
  constructor
  · show ((turns (w.log ++ [entry])).map Prod.fst ++ ([] ++ s'.messageQueue)).Sublist
      (accepted (w.log ++ [entry]))
    have hbefore := h.queue
    rw [hw] at hbefore
    rw [hturns, accepted_append, haccepted, List.append_nil, List.map_append, hq, List.append_assoc]
    exact hbefore
  · show ((turns (w.log ++ [entry])).flatMap Prod.snd).Sublist s'.net
    rw [hturns, List.flatMap_append, hnet]
    exact h.trace.append (by simp)
  · show Truthful (w.log ++ [entry])
    intro p hp
    rw [hturns, List.mem_append, List.mem_singleton] at hp
    rcases hp with hp | rfl
    · exact h.lines p hp
    · exact hops
  · intro _ _ _ heq
    cases heq

/-- The message in hand is dropped, its room being gone. -/
theorem OneOrder.drop (h : OneOrder s w) : OneOrder s { w with hand := .empty } := by
  refine ⟨?_, h.trace, h.lines, fun _ _ _ heq => by cases heq⟩
  apply List.Sublist.trans _ h.queue
  exact (List.Sublist.refl _).append (List.sublist_append_right _ _)

theorem OneOrder.broadcast (h : OneOrder s w) (hd : w.hand.Acts e s s') :
    OneOrder s' { hand := w.hand.advance s s', log := w.log ++ w.hand.entries e s s' } := by
  cases hw : w.hand with
  | empty =>
      rw [hw] at hd
      rw [Hand.entries, List.append_nil]
      rcases hd with rfl | ⟨message, rest, hqueue, rfl⟩
      · rw [advance_empty, ← hw]
        exact h
      · -- the front of the queue comes into the hand
        have hadvance : Hand.empty.advance s { s with messageQueue := rest } = .taken message := by
          simp [Hand.advance, hqueue]
        rw [hadvance]
        refine ⟨?_, h.trace, h.lines, fun _ _ _ heq => by cases heq⟩
        have hbefore := h.queue
        rw [hw, hqueue] at hbefore
        exact hbefore
  | taken message =>
      rw [hw] at hd
      rw [show s' = s from hd, Hand.entries, List.append_nil, Hand.advance]
      split
      · refine ⟨?_, h.trace, h.lines, fun _ _ _ heq => by cases heq⟩
        have hbefore := h.queue
        rw [hw] at hbefore
        exact hbefore
      · -- no such room: the message has no turn
        exact h.drop
  | found message =>
      rw [hw, Hand.Acts] at hd
      by_cases hp : message.isPrivate = true
      · rw [if_pos hp] at hd
        rw [hd, Hand.entries, if_pos hp, List.append_nil]
        simp only [Hand.advance, if_pos hp]
        refine ⟨?_, h.trace, h.lines, ?_⟩
        · have hbefore := h.queue
          rw [hw] at hbefore
          exact hbefore
        · -- only a private message comes to have a recipient
          intro message' t recipient heq
          obtain ⟨rfl, -⟩ := Hand.resolved.inj heq
          exact hp
      · rw [if_neg hp] at hd
        rw [Hand.entries, if_neg hp, Hand.advance, if_neg hp]
        obtain ⟨-, rfl⟩ := hd
        rw [net_deliverPublic]
        -- the message leaves the hand and has its turn
        apply h.turn (by rw [hw, Hand.waiting]) (by rfl) (by rfl)
        · intro op hop
          obtain ⟨t, -, rfl⟩ := List.mem_map.1 hop
          exact ⟨t, _, rfl, .chat _ (by simpa using hp)⟩
        · rw [state_deliverPublic]
          rfl
        · rw [state_deliverPublic]
  | resolved message t recipient =>
      rw [hw] at hd
      have hp := h.resolved message t recipient hw
      obtain ⟨-, rfl⟩ := hd
      rw [Hand.entries, Hand.advance, net_deliverPrivate]
      apply h.turn (by rw [hw, Hand.waiting]) (by rfl) (by rfl)
      · intro op hop
        rw [privateOps] at hop
        split at hop
        · rw [List.mem_singleton] at hop
          exact ⟨_, _, hop, .refusal hp⟩
        · rcases List.mem_pair.1 hop with rfl | rfl
          · exact ⟨_, _, rfl, .whisper _ hp⟩
          · exact ⟨_, _, rfl, .receipt _ hp⟩
      · rw [state_deliverPrivate]
      · rw [state_deliverPrivate]

end Order

/-! ## Whole runs -/

theorem sentTo_flatMap (t : SOCKET) (ps : List (Message × List NetOp)) :
    sentTo t (ps.flatMap Prod.snd) = ps.flatMap fun p => sentTo t p.2 := by
  rw [sentTo, List.filterMap_flatMap]
  rfl

namespace Machine

variable {ok : Machine → Label → Prop} {db : Database} {listenSocket : SOCKET} {m : Machine}
  {w : Watch}

theorem Watched.oneOrder (h : Watched ok db listenSocket m w) : OneOrder m.globals w := by
  have hboot : OneOrder (boot db listenSocket).globals {} :=
    ⟨List.Sublist.slnil, List.Sublist.slnil, fun p hp => absurd hp List.not_mem_nil,
      fun _ _ _ heq => by cases heq⟩
  refine (h.induction (P := fun m _ w => OneOrder m.globals w) hboot ?_).choose_spec.2
  intro m g w l m' g' _ _ _ h hmove
  generalize w.observe m l m' = w' at hmove
  cases hmove with
  | rest hs =>
      rw [hs]
      exact h.same rfl rfl
  | wake hs =>
      rw [hs]
      exact h.same rfl rfl
  | main H hd => exact h.main hd
  | broadcast hd => exact h.broadcast hd
  | @sweep n e m' roomId hs =>
      have hnone : (Effect.sweep roomId).pushed = [] := rfl
      rw [hs]
      exact h.same (by rw [Effect.messageQueue_apply, hnone, List.append_nil]) (by simp)

/-- One order for all clients. In every run the messages have their turns in the order in which they
were accepted, each at most one; what is sent in the turn of a message is a line of this message; and
each client is sent the lines of the turns in the order of the turns. -/
theorem one_order (h : Watched ok db listenSocket m w) :
    (∃ position : Nat ↪o Nat, ∀ i,
      (turns w.log)[i]?.map Prod.fst = (accepted w.log)[position i]?) ∧
    (∀ p ∈ turns w.log, ∀ op ∈ p.2, ∃ t text, op = .sent t text ∧ Bears p.1 text) ∧
    (∀ t, ((turns w.log).flatMap fun p => sentTo t p.2).Sublist (sentTo t m.globals.net)) ∧
    ((turns w.log).flatMap Prod.snd).Sublist m.globals.net := by
  have horder := h.oneOrder
  refine ⟨?_, horder.lines, ?_, horder.trace⟩
  · have hsublist := (List.sublist_append_left _ _).trans horder.queue
    obtain ⟨position, hposition⟩ := List.sublist_iff_exists_orderEmbedding_getElem?_eq.1 hsublist
    exact ⟨position, fun i => by rw [← hposition, List.getElem?_map]⟩
  · intro t
    rw [← sentTo_flatMap]
    exact horder.trace.filterMap _

/-- Alice and bob are in a room; alice says hello to all, then bob whispers to alice. -/
def twoTurns : List Label :=
  serving (.connect 4) 0 ++ serving (.receive 4 (str "/SETNAME alice")) 0 ++
    serving (.connect 5) 0 ++ serving (.receive 5 (str "/SETNAME bob")) 0 ++
    serving (.receive 4 (str "/CREATE PUBLIC")) 7 ++ serving (.receive 5 (str "/JOIN 100007")) 0 ++
    serving (.receive 4 (str "hello")) 0 ++ serving (.receive 5 (str "@alice hi")) 0 ++
    delivering ++ delivering

theorem one_order_alice : ∃ m w, Watched anyStep {} 3 m w ∧
    (turns w.log).map (fun p => p.1.content) = [str "hello", str "hi"] ∧
    (sentTo 4 ((turns w.log).flatMap Prod.snd)).length = 1 ∧
    (sentTo 5 ((turns w.log).flatMap Prod.snd)).length = 2 ∧
    ((turns w.log).flatMap Prod.snd).Sublist m.globals.net := by
  obtain ⟨m, w, hw, hp⟩ := watched_of_play anyStep twoTurns (fun _ _ _ => trivial)
    (fun m w => decide ((turns w.log).map (fun p => p.1.content) = [str "hello", str "hi"] ∧
      (sentTo 4 ((turns w.log).flatMap Prod.snd)).length = 1 ∧
      (sentTo 5 ((turns w.log).flatMap Prod.snd)).length = 2)) (by decide +kernel)
  obtain ⟨hcontents, halice, hbob⟩ := of_decide_eq_true hp
  exact ⟨m, w, hw, hcontents, halice, hbob, (one_order hw).2.2.2⟩

end Machine

end TerminalChat.Server
