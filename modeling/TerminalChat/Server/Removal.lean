import Mathlib
import TerminalChat.Server.Joining
import TerminalChat.Server.Refusals

/-!
# Removal and speech

A message is accepted from a client that is in a room and delivered later, and the delivery does not
look at the sender again. So KICK and BAN stop what a client says from being accepted, not what has
been accepted from being delivered: after the removal nothing more is accepted, and only those messages
are delivered that were already in the queue or in the hand of the broadcaster (`removal_takes_effect`).
-/

set_option autoImplicit false

namespace TerminalChat.Server

open TerminalChat.Concurrency TerminalChat.Text

/-- The message was said by a client in a room. -/
def Message.SaidIn (t : SOCKET) (r : Bytes) (message : Message) : Prop :=
  message.senderSocket = t ∧ message.roomId = r

instance (t : SOCKET) (r : Bytes) (message : Message) : Decidable (message.SaidIn t r) :=
  inferInstanceAs (Decidable (_ ∧ _))

/-- The message that the broadcaster has in hand. -/
def Hand.held : Hand → List Message
  | .empty => []
  | .taken message => [message]
  | .found message => [message]
  | .resolved message _ _ => [message]

/-- The messages of a client in a room that have been accepted and neither delivered nor dropped. -/
def inFlight (t : SOCKET) (r : Bytes) (s : Globals) (w : Watch) : List Message :=
  (w.hand.held ++ s.messageQueue).filter fun message => message.SaidIn t r

/-- The message that an entry of the log passes on, to a room or to a single client. -/
def Entry.passedOn : Entry → List Message
  | .delivered message _ _ => [message]
  | .whispered message _ _ _ => [message]
  | _ => []

/-- The messages of a client in a room that have been passed on. -/
def heard (t : SOCKET) (r : Bytes) (log : List Entry) : List Message :=
  (log.flatMap Entry.passedOn).filter fun message => message.SaidIn t r

theorem heard_append (t : SOCKET) (r : Bytes) (log log' : List Entry) :
    heard t r (log ++ log') = heard t r log ++ heard t r log' := by
  rw [heard, List.flatMap_append, List.filter_append]
  rfl

theorem heard_mainEntries (t : SOCKET) (r : Bytes) (s s' : Globals) :
    heard t r (mainEntries s s') = [] := by
  rw [mainEntries, heard_append]
  generalize s'.messageQueue.drop s.messageQueue.length = messages
  generalize s'.chatRooms.keys.filter (fun r => r ∉ s.chatRooms) = ids
  simp [heard, Entry.passedOn, List.flatMap_map]

section Steps

variable {t : SOCKET} {r : Bytes} {s s' : Globals} {w : Watch} {e : Env}

/-- What an action of a handler pushes is not said in the room by a client that is elsewhere. -/
theorem not_saidIn_of_pushed {effs : List Effect} {g g' : Note}
    (hd : Deeds e effs g s g' s') (hout : (s.info t).roomId ≠ r) {message : Message}
    (hm : message ∈ effs.flatMap Effect.pushed) : ¬message.SaidIn t r := by
  rintro ⟨hsock, hroom⟩
  obtain ⟨-, hwhere, -⟩ := hd.pushes hm
  rw [hsock, hroom] at hwhere
  exact hout hwhere.symm

/-- An action of a handler leaves what is in flight as it is. -/
theorem inFlight_main {H : List Mutex} {g g' : Note} (hd : MainDeed H g g' e s s')
    (hout : (s.info t).roomId ≠ r) (log : List Entry) :
    inFlight t r s' { w with log := log } = inFlight t r s w := by
  obtain ⟨effs, ops, hdeeds, -⟩ := hd.deeds
  have hnone : (effs.flatMap Effect.pushed).filter (fun message => message.SaidIn t r) = [] := by
    rw [List.filter_eq_nil_iff]
    intro message hm hsaid
    exact not_saidIn_of_pushed hdeeds hout hm (of_decide_eq_true hsaid)
  rw [inFlight, hdeeds.queue, ← List.append_assoc, List.filter_append, hnone, List.append_nil]
  rfl

/-- No message of a client that is elsewhere is accepted in the room. -/
theorem not_accepted_main {H : List Mutex} {g g' : Note} (hd : MainDeed H g g' e s s')
    (hout : (s.info t).roomId ≠ r) {message : Message} (hm : .accepted message ∈ mainEntries s s') :
    ¬message.SaidIn t r := by
  obtain ⟨effs, ops, hdeeds, -⟩ := hd.deeds
  have hpushed : message ∈ effs.flatMap Effect.pushed := by
    simpa [mainEntries, hdeeds.queue] using hm
  exact not_saidIn_of_pushed hdeeds hout hpushed

/-- The broadcaster accepts nothing. -/
theorem not_accepted_entries (hand : Hand) (message : Message) : .accepted message ∉ hand.entries e s s' := by
  cases hand with
  | empty => simp [Hand.entries]
  | taken message => simp [Hand.entries]
  | found message =>
      rw [Hand.entries]
      split
      · simp
      · simp
  | resolved message u recipient => simp [Hand.entries]

/-- What the broadcaster passes on or drops is no longer in flight. -/
theorem inFlight_broadcast (hd : w.hand.Acts e s s') :
    (heard t r (w.hand.entries e s s') ++ inFlight t r s'
      { hand := w.hand.advance s s', log := w.log ++ w.hand.entries e s s' }).Sublist
        (inFlight t r s w) := by
  -- a message that is dropped leaves a shorter sequence
  have hdrop : ∀ message : Message, (s.messageQueue.filter fun m => m.SaidIn t r).Sublist
      (([message] ++ s.messageQueue).filter fun m => m.SaidIn t r) := fun message =>
    (List.sublist_cons_self message _).filter _
  -- a message that is delivered goes over from what is in flight to what has been heard
  have hpass : ∀ message : Message, ([message].filter (fun m => m.SaidIn t r) ++
      s.messageQueue.filter fun m => m.SaidIn t r).Sublist
        (([message] ++ s.messageQueue).filter fun m => m.SaidIn t r) := by
    intro message
    rw [List.filter_append]
  cases hw : w.hand with
  | empty =>
      rw [hw] at hd
      rw [inFlight, inFlight, hw]
      rcases hd with rfl | ⟨message, rest, hqueue, rfl⟩
      · rw [advance_empty]
        exact List.Sublist.refl _
      · simp only [Hand.advance, hqueue]
        rw [if_pos (by simp)]
        exact List.Sublist.refl _
  | taken message =>
      rw [hw] at hd
      rw [show s' = s from hd, inFlight, inFlight, hw, Hand.advance]
      dsimp only
      split
      · exact List.Sublist.refl _
      · exact hdrop message
  | found message =>
      rw [hw] at hd
      rw [Hand.Acts] at hd
      rw [inFlight, inFlight, hw]
      by_cases hp : message.isPrivate = true
      · rw [if_pos hp] at hd
        rw [hd, Hand.entries, if_pos hp]
        simp only [Hand.advance, if_pos hp]
        exact List.Sublist.refl _
      · rw [if_neg hp] at hd
        have hqueue : s'.messageQueue = s.messageQueue := by rw [hd.2, state_deliverPublic]; rfl
        rw [Hand.entries, if_neg hp, Hand.advance, if_neg hp, hqueue]
        exact hpass message
  | resolved message u recipient =>
      rw [hw] at hd
      have hqueue : s'.messageQueue = s.messageQueue := by rw [hd.2, state_deliverPrivate]
      rw [inFlight, inFlight, hw, Hand.entries, hqueue]
      exact hpass message

end Steps

namespace Machine

variable {ok : Machine → Label → Prop} {db : Database} {listenSocket : SOCKET} {m m' : Machine}
  {w w' : Watch} {t : SOCKET} {r : Bytes}

/-- A watched step after which the client is not in the room. -/
def OutsideStep (ok : Machine → Label → Prop) (t : SOCKET) (r : Bytes) (p p' : Machine × Watch) :
    Prop :=
  WatchStep ok p p' ∧ (p'.1.globals.info t).roomId ≠ r

/-- One step while the client is not in the room. -/
theorem Move.inFlight {g g' : Note} {l : Label} (h : Move m g w l m' g' w')
    (hout : (m.globals.info t).roomId ≠ r) : ∃ new, w'.log = w.log ++ new ∧
      (∀ message, .accepted message ∈ new → ¬message.SaidIn t r) ∧
      (heard t r new ++ Server.inFlight t r m'.globals w').Sublist
        (Server.inFlight t r m.globals w) := by
  cases h with
  | rest hs => exact ⟨[], by rw [List.append_nil], by simp, by rw [hs]; exact List.Sublist.refl _⟩
  | wake hs => exact ⟨[], by rw [List.append_nil], by simp, by rw [hs]; exact List.Sublist.refl _⟩
  | main H hd =>
      refine ⟨_, rfl, fun message hm => not_accepted_main hd hout hm, ?_⟩
      rw [heard_mainEntries, List.nil_append, inFlight_main hd hout]
  | broadcast hd =>
      exact ⟨_, rfl, fun message hm => absurd hm (not_accepted_entries _ _), inFlight_broadcast hd⟩
  | sweep roomId hs =>
      have hnone : (Effect.sweep roomId).pushed = [] := rfl
      refine ⟨[], by rw [List.append_nil], by simp, ?_⟩
      rw [Server.inFlight, hs, Effect.messageQueue_apply, hnone, List.append_nil]
      exact List.Sublist.refl _

/-- Once a client is out of a room, by KICK or BAN or otherwise, and until it is in the room again,
none of its messages is accepted in the room, and only those are passed on there that were in flight when
it left, in their order; and no other of its messages is in flight. -/
theorem removal_takes_effect (hw : Watched ok db listenSocket m w)
    (hout : (m.globals.info t).roomId ≠ r)
    (hrun : Relation.ReflTransGen (OutsideStep ok t r) (m, w) (m', w')) :
    ∃ new, w'.log = w.log ++ new ∧ (∀ message, .accepted message ∈ new → ¬message.SaidIn t r) ∧
      (heard t r new ++ inFlight t r m'.globals w').Sublist (inFlight t r m.globals w) := by
  have hall : ∀ p : Machine × Watch, Relation.ReflTransGen (OutsideStep ok t r) (m, w) p →
      Watched ok db listenSocket p.1 p.2 ∧ (p.1.globals.info t).roomId ≠ r ∧
        ∃ new, p.2.log = w.log ++ new ∧
          (∀ message, .accepted message ∈ new → ¬message.SaidIn t r) ∧
          (heard t r new ++ inFlight t r p.1.globals p.2).Sublist (inFlight t r m.globals w) := by
    intro p hrun
    induction hrun with
    | refl => exact ⟨hw, hout, [], (List.append_nil _).symm, by simp, List.Sublist.refl _⟩
    | @tail q q' _ hstep ih =>
        obtain ⟨hq, hqout, new, hlog, hnone, hsub⟩ := ih
        obtain ⟨hwatch, hout'⟩ := hstep
        obtain ⟨l, hok, hnext, hobs⟩ := hwatch
        obtain ⟨g, g', hmove⟩ := hq.move hnext
        rw [← hobs] at hmove
        obtain ⟨new', hlog', hnone', hsub'⟩ := hmove.inFlight hqout
        refine ⟨hq.tail ⟨l, hok, hnext, hobs⟩, hout', new ++ new', ?_, fun message hm => ?_, ?_⟩
        · rw [hlog', hlog, List.append_assoc]
        · exact (List.mem_append.1 hm).elim (hnone message) (hnone' message)
        · rw [heard_append, List.append_assoc]
          exact ((List.Sublist.refl _).append hsub').trans hsub
  exact (hall (m', w') hrun).2.2

/-! ### An example -/

/-- The steps of the broadcaster leave a client where it is. -/
theorem play_outside : ∀ (ls : List Label) (p : Machine × Watch), Reachable anyStep p.1 →
    (∀ l ∈ ls, ∀ ev, l ≠ .event ev) → (∀ l ∈ ls, ∀ e, l ≠ .run .main e) →
      (p.1.globals.info t).roomId ≠ r →
        Relation.ReflTransGen (OutsideStep anyStep t r) p (play p ls)
  | [], _, _, _, _, _ => .refl
  | l :: ls, p, hm, hl, hr, hout => by
      have hl' := fun l' hmem => hl l' (List.mem_cons_of_mem l hmem)
      have hr' := fun l' hmem => hr l' (List.mem_cons_of_mem l hmem)
      rw [play]
      cases hnext : p.1.next l with
      | none => exact play_outside ls p hm hl' hr' hout
      | some m' =>
          have hclients := (clients_of_other hm (hl l List.mem_cons_self) (hr l List.mem_cons_self)
            hnext).1
          have hout' : (m'.globals.info t).roomId ≠ r := by
            rw [Globals.info, hclients]
            exact hout
          have hm' : Reachable anyStep m' := by
            obtain ⟨db, listenSocket, hrun⟩ := hm
            exact ⟨db, listenSocket, hrun.tail ⟨l, trivial, hnext⟩⟩
          exact Relation.ReflTransGen.head ⟨⟨l, trivial, hnext, rfl⟩, hout'⟩
            (play_outside ls (m', p.2.observe p.1 l m') hm' hl' hr' hout')

/-- Alice has made a room, and a message of bob in the room is in the queue. -/
def beforeKick : List Label :=
  serving (.connect 4) 0 ++ serving (.receive 4 (str "/SETNAME alice")) 0 ++
    serving (.receive 4 (str "/CREATE PUBLIC")) 7 ++ serving (.connect 5) 0 ++
      serving (.receive 5 (str "/SETNAME bob")) 0 ++ serving (.receive 5 (str "/JOIN 100007")) 0 ++
        serving (.receive 5 (str "hello")) 0

/-- Alice kicks bob. -/
def kickBob : Event := .receive 4 (str "/KICK bob")

/-- The handling of an event, watched. -/
def HandledWatched (ev : Event) (p p' : Machine × Watch) : Prop :=
  ∃ m₁, p.1.next (.event ev) = some m₁ ∧
    Relation.ReflTransGen (WatchStep fun _ l => ∀ ev, l ≠ .event ev) (m₁, p.2) p' ∧ p'.1.Idle

theorem watched_of_handled {ev : Event} {p p' : Machine × Watch}
    (hw : Watched anyStep db listenSocket p.1 p.2) (h : HandledWatched ev p p') :
    Watched anyStep db listenSocket p'.1 p'.2 := by
  obtain ⟨m₁, h₁, hrun, -⟩ := h
  have hw₁ : Watched anyStep db listenSocket m₁ p.2 := hw.tail ⟨.event ev, trivial, h₁, rfl⟩
  refine hw₁.trans (hrun.lift id ?_)
  rintro q q' ⟨l, -, hnext, hobs⟩
  exact ⟨l, trivial, hnext, hobs⟩

/-- The run of the example: before the KICK, after it, and after a round of the broadcaster. -/
theorem kick_and_deliver : ∃ p p₀ p' : Machine × Watch, Watched anyStep {} 3 p.1 p.2 ∧
    HandledWatched kickBob p p₀ ∧ (p.1.globals.info 5).roomId = str "100007" ∧
      (p₀.1.globals.info 5).roomId ≠ str "100007" ∧
        Relation.ReflTransGen (OutsideStep anyStep 5 (str "100007")) p₀ p' ∧
          inFlight 5 (str "100007") p₀.1.globals p₀.2 ≠ [] ∧
            heard 5 (str "100007") (p'.2.log.drop p₀.2.log.length) ≠ [] := by
  obtain ⟨m, w, hw, hp⟩ := watched_of_play anyStep beforeKick (fun _ _ _ => trivial)
    (fun m w => (m.next (.event kickBob)).any fun m₁ =>
      let p₀ := play (m₁, w) (List.replicate 40 (.run .main (.midnight 0)))
      let p' := play p₀ delivering
      decide (p₀.1.Idle ∧ (m.globals.info 5).roomId = str "100007" ∧
        (p₀.1.globals.info 5).roomId ≠ str "100007" ∧
        inFlight 5 (str "100007") p₀.1.globals p₀.2 ≠ [] ∧
        heard 5 (str "100007") (p'.2.log.drop p₀.2.log.length) ≠ [])) (by decide +kernel)
  obtain ⟨m₁, h₁, hp⟩ := (Option.any_eq_true _ _).1 hp
  obtain ⟨hidle, hin, hout, hflight, hheard⟩ := of_decide_eq_true hp
  have hquiet : Relation.ReflTransGen (WatchStep fun _ l => ∀ ev, l ≠ .event ev) (m₁, w)
      (play (m₁, w) (List.replicate 40 (.run .main (.midnight 0)))) := by
    apply play_watched
    intro l hl _ ev
    rw [(List.mem_replicate.1 hl).2]
    simp
  have hh : HandledWatched kickBob (m, w)
      (play (m₁, w) (List.replicate 40 (.run .main (.midnight 0)))) := ⟨m₁, h₁, hquiet, hidle⟩
  refine ⟨(m, w), _, _, hw, hh, hin, hout, ?_, hflight, hheard⟩
  apply play_outside delivering _ (watched_of_handled hw hh).reachable
  · intro l hl ev
    simp only [delivering, List.mem_cons, List.mem_replicate] at hl
    rcases hl with rfl | ⟨-, rfl⟩ <;> simp
  · intro l hl e
    simp only [delivering, List.mem_cons, List.mem_replicate] at hl
    rcases hl with rfl | ⟨-, rfl⟩ <;> simp
  · exact hout

/-- A message that bob has said before alice kicks him is passed on. -/
theorem removal_takes_effect_kick : ∃ p p₀ p' : Machine × Watch, Watched anyStep {} 3 p.1 p.2 ∧
    HandledWatched kickBob p p₀ ∧ inFlight 5 (str "100007") p₀.1.globals p₀.2 ≠ [] ∧
      ∃ new, p'.2.log = p₀.2.log ++ new ∧ heard 5 (str "100007") new ≠ [] ∧
        (∀ message, .accepted message ∈ new → ¬message.SaidIn 5 (str "100007")) ∧
        (heard 5 (str "100007") new ++ inFlight 5 (str "100007") p'.1.globals p'.2).Sublist
          (inFlight 5 (str "100007") p₀.1.globals p₀.2) := by
  obtain ⟨p, p₀, p', hw, hh, -, hout, hrun, hflight, hheard⟩ := kick_and_deliver
  have hw₀ : Watched anyStep {} 3 p₀.1 p₀.2 := watched_of_handled hw hh
  obtain ⟨new, hlog, hnone, hsub⟩ := removal_takes_effect hw₀ hout hrun
  rw [hlog, List.drop_left] at hheard
  exact ⟨p, p₀, p', hw, hh, hflight, new, hlog, hheard, hnone, hsub⟩

/-- After a KICK or a BAN has taken a client out of its room, a message of the client is passed on in
the room. -/
theorem not_removal_silences : ¬∀ (p p₀ p' : Machine × Watch) (ev : Event) (params : Bytes)
    (t : SOCKET) (r : Bytes), Watched anyStep {} 3 p.1 p.2 → HandledWatched ev p p₀ →
      (ev.command = some (.kick params) ∨ ev.command = some (.ban params)) →
        (p.1.globals.info t).roomId = r → (p₀.1.globals.info t).roomId ≠ r →
          Relation.ReflTransGen (OutsideStep anyStep t r) p₀ p' →
            heard t r (p'.2.log.drop p₀.2.log.length) = [] := by
  intro hall
  obtain ⟨p, p₀, p', hw, hh, hin, hout, hrun, -, hheard⟩ := kick_and_deliver
  exact hheard (hall p p₀ p' kickBob (str " bob") 5 (str "100007") hw hh (Or.inl (by decide)) hin
    hout hrun)

end Machine

end TerminalChat.Server
