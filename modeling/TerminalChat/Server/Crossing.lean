import Mathlib
import TerminalChat.Concurrency.LockRules
import TerminalChat.Concurrency.Termination
import TerminalChat.Server.Deadlock
import TerminalChat.Server.Meanwhile

/-!
# Which events lead into a deadlock

Two things are needed for the crossing of the main thread and the broadcaster. The handler in progress
takes `g_chatRoomsMutex` inside `g_clientsMutex`: its event is a CREATE from inside a room or a JOIN of
another room (`Event.Nests`). And the broadcaster delivers a private message of a live room
(`Hand.DeliversPrivate`). In a run that takes no step while both are under way no set of threads is ever
deadlocked (`Course.no_deadlock`); without this condition a reachable state is
(`Machine.not_no_deadlock`).
-/

set_option autoImplicit false

namespace TerminalChat.Server

open TerminalChat.Concurrency TerminalChat.Text

/-! ## What is under way -/

/-- The handler of the command takes `g_chatRoomsMutex` inside `g_clientsMutex`: the command is a CREATE
from a client in a room, with a password if the room is to be private, or a JOIN that names another room
than that of the client. -/
def Command.Nests (s : Globals) (sock : SOCKET) : Command → Prop
  | .create params =>
      ((createParams params).1 && (createParams params).2.isEmpty) = false ∧ (s.info sock).roomId ≠ []
  | .join params => (joinParams params).1 ≠ [] ∧ (joinParams params).1 ≠ (s.info sock).roomId
  | _ => False

instance (s : Globals) (sock : SOCKET) : (c : Command) → Decidable (c.Nests s sock)
  | .create _ => inferInstanceAs (Decidable (_ ∧ _))
  | .join _ => inferInstanceAs (Decidable (_ ∧ _))
  | .setName _ | .list | .getPassword | .users | .kick _ | .ban _ | .transfer _ | .leave
  | .forceLeave | .changePassword _ | .unknown => isFalse id

/-- The event carries such a command. -/
def Event.Nests (s : Globals) (ev : Event) : Prop := ∃ c ∈ ev.command, c.Nests s ev.socket

instance (s : Globals) (ev : Event) : Decidable (ev.Nests s) :=
  match h : ev.command with
  | some c => decidable_of_iff (c.Nests s ev.socket) (by simp [Event.Nests, h])
  | none => isFalse (by simp [Event.Nests, h])

/-- The broadcaster delivers a private message of a live room: it has taken the message from the queue
and has not yet sent it. -/
def Hand.DeliversPrivate (s : Globals) : Hand → Prop
  | .empty => False
  | .taken message => message.isPrivate = true ∧ message.roomId ∈ s.chatRooms
  | .found message => message.isPrivate = true
  | .resolved _ _ _ => True

instance (s : Globals) : (hand : Hand) → Decidable (hand.DeliversPrivate s)
  | .empty => isFalse id
  | .taken _ => inferInstanceAs (Decidable (_ ∧ _))
  | .found _ => inferInstanceAs (Decidable (_ = true))
  | .resolved _ _ _ => isTrue trivial

/-- The machine, its watch, and whether the last event that was handled is one that nests. -/
structure Course where
  machine : Machine
  watch : Watch := {}
  nests : Bool := false

namespace Course

/-- A step of the machine. -/
def next (p : Course) (l : Label) : Option Course :=
  (p.machine.next l).map fun m' =>
    { machine := m'
      watch := p.watch.observe p.machine l m'
      nests := match l with
        | .event ev => decide (ev.Nests p.machine.globals)
        | _ => p.nests }

/-- The handler of a nesting event is in progress during the delivery of a private message of a live
room. -/
def NestsDuringDelivery (p : Course) : Prop :=
  (p.nests = true ∧ ¬p.machine.Idle) ∧ p.watch.hand.DeliversPrivate p.machine.globals

instance (p : Course) : Decidable p.NestsDuringDelivery := inferInstanceAs (Decidable (_ ∧ _))

/-- A step that is taken while not both are under way. -/
def Step (p p' : Course) : Prop := ¬p.NestsDuringDelivery ∧ ∃ l, p.next l = some p'

/-- The course of a run from some boot all of whose steps are of this kind. -/
def Reached (p : Course) : Prop :=
  ∃ db listenSocket, Relation.ReflTransGen Step { machine := Machine.boot db listenSocket } p

end Course

/-! ## The rules of the two threads -/

/-- While another thread moves, the clients stay; the main thread does not take `g_chatRoomsMutex`
inside `g_clientsMutex`. -/
def mainRule : LockRule Mutex Globals Unit where
  rely s s' := s'.clients = s.clients
  advance g _ _ := g
  mayTake H _ n := .clientsMutex ∈ H → n ≠ .chatRoomsMutex
  rely_refl _ := rfl
  rely_trans _ _ _ h h' := h'.trans h

/-- The broadcaster takes `g_clientsMutex` only with a private message whose room it has found. -/
def broadcasterRule : LockRule Mutex Globals Hand where
  rely _ _ := True
  advance hand s s' := hand.advance s s'
  mayTake _ hand n := n = .clientsMutex → ∃ message, hand = .found message ∧ message.isPrivate = true
  rely_refl _ := trivial
  rely_trans _ _ _ _ _ := trivial

section Main

variable {α : Type} {H : List Mutex} {s : Globals} {sock : SOCKET}

/-- What keeps the order without nesting keeps the rule. -/
theorem obeys_of_keeps {p : Thread α} (hp : Keeps False .main H p) :
    p.Obeys mainRule (fun _ H' _ _ => H' = H) H () s := by
  have hok : ∀ (H' : List Mutex) (b : Bool) (g : Unit) (n : Mutex),
      mayTake False .main H' b n → mainRule.mayTake H' g n := by
    rintro H' b g n hn hmem rfl
    rcases hn with rfl | ⟨-, -, hfalse⟩
    · exact absurd hmem List.not_mem_nil
    · exact hfalse
  exact Prog.obeys_of_locks (L := fun _ H' _ => H' = H) hok (fun _ _ _ _ _ h => h) p H false () s
    (hp false)

theorem obeys_true_of_keeps {p : Thread α} (hp : Keeps False .main H p) :
    p.Obeys mainRule (fun _ _ _ _ => True) H () s :=
  Prog.obeys_mono (fun _ _ _ _ _ => trivial) p H () s (obeys_of_keeps hp)

theorem mainRule_leaf (H : List Mutex) (g : Unit) (l : Leaf) : mainRule.mayTake H g (.leaf l) := by
  rintro - ⟨⟩

theorem info_of_clients {s' : Globals} (h : s'.clients = s.clients) : s'.info sock = s.info sock := by
  rw [Globals.info, h, Globals.info]

theorem obeys_handleCreateCommand {params : Bytes}
    (hn : ¬(Command.create params).Nests s sock) :
    (handleCreateCommand sock params).Obeys mainRule (fun _ _ _ _ => True) [] () s := by
  rw [handleCreateCommand]
  by_cases hrefused : ((createParams params).1 && (createParams params).2.isEmpty) = true
  · rw [if_pos hrefused]
    exact obeys_true_of_keeps (keeps_reply sock _)
  · -- the creator is in no room, and only the handler could change that
    have hroom : (s.info sock).roomId = [] := by
      by_contra hroom
      exact hn ⟨by simpa using hrefused, hroom⟩
    rw [if_neg hrefused]
    refine Prog.obeys_bind _ _ _ _ _ (Prog.obeys_block .leaf _ (fun g l => mainRule_leaf _ g l)
      fun e s₁ hs₁ => ?_)
    refine Prog.obeys_bind _ _ _ _ _ (Prog.obeys_holding (fun hmem => absurd hmem List.not_mem_nil) ?_)
    refine Prog.obeys_bind _ _ _ _ _ (Prog.obeys_block .leaf _ (fun g l => mainRule_leaf _ g l)
      fun e₂ s₂ hs₂ => ?_)
    rw [post_clientRef, info_of_clients (hs₂.trans hs₁), hroom]
    exact obeys_true_of_keeps (keeps_makeRoom sock _ _ _ _)

theorem obeys_handleJoinCommand {params : Bytes} (hn : ¬(Command.join params).Nests s sock) :
    (handleJoinCommand sock params).Obeys mainRule (fun _ _ _ _ => True) [] () s := by
  rw [handleJoinCommand]
  by_cases hempty : (joinParams params).1.isEmpty = true
  · rw [if_pos hempty]
    exact obeys_true_of_keeps (keeps_reply sock _)
  · -- a join that is no nesting names no room or the own one: it never gets to the rooms
    have hroom : (joinParams params).1 = (s.info sock).roomId := by
      by_contra hroom
      exact hn ⟨by simpa using hempty, hroom⟩
    rw [if_neg hempty]
    refine Prog.obeys_holding (fun hmem => absurd hmem List.not_mem_nil) ?_
    refine Prog.obeys_bind _ _ _ _ _ (Prog.obeys_block .leaf _ (fun g l => mainRule_leaf _ g l)
      fun e s₁ hs₁ => ?_)
    -- the handler reads the room that was in the record when the event arrived
    rw [post_clientRef, info_of_clients hs₁, hroom, if_pos (beq_self_eq_true _)]
    exact obeys_true_of_keeps (keeps_reply sock _)

/-- The handler of an event that does not nest. -/
theorem obeys_handler {ev : Event} (hn : ¬ev.Nests s) :
    ev.handler.Obeys mainRule (fun _ _ _ _ => True) [] () s := by
  by_cases hcan : ∃ c, ev.command = some c ∧ c.CanNest
  · obtain ⟨c, hc, hcan⟩ := hcan
    have hnc : ¬c.Nests s ev.socket := fun h => hn ⟨c, hc, h⟩
    rw [Machine.handler_of_command hc]
    cases c with
    | create params => exact obeys_handleCreateCommand hnc
    | join params => exact obeys_handleJoinCommand hnc
    | _ => exact hcan.elim
  · exact obeys_true_of_keeps (keeps_handler ev fun c hc h => hcan ⟨c, hc, h⟩)

end Main

section Broadcaster

variable {α : Type} {H : List Mutex} {s : Globals}

theorem broadcasterRule_leaf (H : List Mutex) (hand : Hand) (l : Leaf) :
    broadcasterRule.mayTake H hand (.leaf l) := by
  rintro ⟨⟩

theorem broadcasterRule_other {n : Mutex} (hn : n ≠ .clientsMutex) (H : List Mutex) (hand : Hand) :
    broadcasterRule.mayTake H hand n := fun h => absurd h hn

/-- A block after which nothing is asked. -/
theorem obeys_last (b : Sect α) (hand : Hand) :
    (step b).Obeys broadcasterRule (fun _ _ _ _ => True) H hand s := by
  refine Prog.obeys_block Mutex.leaf b (broadcasterRule_leaf H) fun e s' _ => ?_
  trivial

/-- The broadcaster looks up the recipient with the message in hand. -/
theorem obeys_deliverMessage (message : Message) :
    (deliverMessage message).Obeys broadcasterRule (fun _ _ _ _ => True) [] (.taken message) s := by
  refine Prog.obeys_holding (broadcasterRule_other (by decide) _ _) ?_
  refine Prog.obeys_bind _ _ _ _ _ (Prog.obeys_block .leaf _ (broadcasterRule_leaf _)
    fun e s' _ => ?_)
  rw [post_roomExists]
  by_cases hr : message.roomId ∈ s'.chatRooms
  · have hhand : broadcasterRule.advance (.taken message) s' s' = .found message := if_pos hr
    rw [Std.ExtTreeMap.contains_iff_mem.2 hr, hhand, if_pos rfl]
    -- only a private message makes it go for the clients
    by_cases hp : message.isPrivate = true
    · rw [if_pos hp]
      refine Prog.obeys_bind _ _ _ _ _ (Prog.obeys_holding (fun _ => ⟨message, rfl, hp⟩) ?_)
      exact Prog.obeys_block .leaf _ (broadcasterRule_leaf _) fun _ _ _ => obeys_last _ _
    · rw [if_neg hp]
      exact obeys_last _ _
  · -- the room has gone: the broadcaster takes no second mutex
    rw [Bool.eq_false_iff.2 fun h => hr (Std.ExtTreeMap.contains_iff_mem.1 h)]
    trivial

theorem obeys_popMessage {f : Option Message → Thread Unit}
    (hf : ∀ message s', (f message).Obeys broadcasterRule (fun _ _ _ _ => True)
      (H.erase .queueMutex) (HandOf message) s') :
    (step popMessage).Obeys broadcasterRule (fun message H' hand s' =>
      (f message).Obeys broadcasterRule (fun _ _ _ _ => True) (H'.erase .queueMutex) hand s')
      H .empty s := by
  refine Prog.obeys_block .leaf _ (broadcasterRule_leaf _) fun e s' _ => ?_
  show (f s'.messageQueue.head?).Obeys _ _ _
    (Hand.advance s' { s' with messageQueue := s'.messageQueue.tail } .empty) _
  -- what the record has in hand is the head of the queue, as popped
  have hhand : Hand.advance s' { s' with messageQueue := s'.messageQueue.tail } .empty =
      HandOf s'.messageQueue.head? := by
    rw [Hand.advance]
    cases s'.messageQueue with
    | nil => rfl
    | cons message rest => simp [HandOf]
  rw [hhand]
  exact hf _ _

/-- A round of the broadcaster keeps its rule. -/
theorem obeys_broadcastRound :
    broadcastRound.Obeys broadcasterRule (fun _ _ _ _ => True) [] .empty s := by
  have hlook : ∀ s' : Globals, broadcasterRule.advance .empty s' s' = .empty := advance_empty
  have hrest : ∀ f : Option Message → Thread Unit, f none = pure () →
      (∀ message, f (some message) = deliverMessage message) → ∀ message s',
        (f message).Obeys broadcasterRule (fun _ _ _ _ => True) [] (HandOf message) s' := by
    intro f hnone hsome message s'
    cases message with
    | none =>
        rw [hnone]
        trivial
    | some message =>
        rw [hsome]
        exact obeys_deliverMessage message
  refine Prog.obeys_bind _ _ _ _ _ (Prog.obeys_block .leaf _ (broadcasterRule_leaf _)
    fun e s₁ _ => ?_)
  rw [Block.post_read, hlook]
  cases s₁.shutdownRequested with
  | true => trivial
  | false =>
      refine Prog.obeys_bind _ _ _ _ _ (Prog.obeys_holding
        (broadcasterRule_other (by decide) _ _) ?_)
      refine Prog.obeys_bind _ _ _ _ _ (Prog.obeys_block .leaf _ (broadcasterRule_leaf _)
        fun e s₂ _ => ?_)
      rw [Block.post_read, hlook]
      split
      · exact obeys_popMessage (hrest _ rfl fun _ => rfl)
      · -- the wait gives the mutex up and takes it again
        exact ⟨broadcasterRule_other (by decide) _ _, obeys_popMessage (hrest _ rfl fun _ => rfl)⟩

end Broadcaster

/-! ## Along a run -/

namespace Course

open Machine

variable {p p' : Course} {l : Label}

/-- The threads keep the lock order, the broadcaster its rule, and the main thread its rule as long as
the last event does not nest. -/
structure Kept (p : Course) : Prop where
  watched : ∃ db listenSocket, Watched anyStep db listenSocket p.machine p.watch
  asleep : p.machine.Asleep
  ordered : ∃ held acted, p.machine.Ordered held acted
  main : p.nests = false → p.machine.config.Obeying mainRule .main ()
  broadcaster : p.machine.config.Obeying broadcasterRule .broadcaster p.watch.hand

theorem Kept.reachable (h : p.Kept) : Reachable anyStep p.machine := by
  obtain ⟨db, listenSocket, hw⟩ := h.watched
  exact hw.reachable

theorem kept_boot (db : Database) (listenSocket : SOCKET) :
    Kept { machine := boot db listenSocket } := by
  have hfree : ∀ t n, (boot db listenSocket).config.owner n ≠ some t := by simp [boot]
  refine ⟨⟨db, listenSocket, .refl⟩, fun _ _ => rfl, ⟨_, _, ordered_boot db listenSocket⟩,
    fun _ => ?_, ?_⟩
  · exact ⟨[], List.nodup_nil, fun n => iff_of_false (hfree _ n) List.not_mem_nil, trivial⟩
  · exact ⟨[], List.nodup_nil, fun n => iff_of_false (hfree _ n) List.not_mem_nil, trivial⟩

theorem next_eq (h : p.next l = some p') : ∃ m', p.machine.next l = some m' ∧
    p'.machine = m' ∧ p'.watch = p.watch.observe p.machine l m' := by
  obtain ⟨m', hm', rfl⟩ := Option.map_eq_some_iff.1 h
  exact ⟨m', hm', rfl, rfl⟩

theorem nests_next (h : p.next l = some p') (hl : ∀ ev, l ≠ .event ev) : p'.nests = p.nests := by
  obtain ⟨m', -, rfl⟩ := Option.map_eq_some_iff.1 h
  cases l with
  | event ev => exact absurd rfl (hl ev)
  | _ => rfl

/-- A finished thread owns no mutex. -/
theorem Kept.free (h : p.Kept) {t : Tid} (hdone : (p.machine.config.prog t).isDone = true)
    (n : Mutex) : p.machine.config.owner n ≠ some t := by
  obtain ⟨held, acted, hd⟩ := h.ordered
  intro ho
  have hmem := (hd.owner_iff n t).1 ho
  rw [hd.held_of_done hdone] at hmem
  exact absurd hmem List.not_mem_nil

/-- A thread that releases a mutex owns it. -/
theorem Kept.owns (h : p.Kept) {t : Tid} {n : Mutex} {next : Thread Unit}
    (hp : p.machine.config.prog t = .unlock n next) : p.machine.config.owner n = some t := by
  obtain ⟨held, acted, hd⟩ := h.ordered
  have hlocks := hd.locks t
  rw [hp] at hlocks
  exact (hd.owner_iff n t).2 hlocks.1

theorem rely_of_next {m m' : Machine} (hm : Reachable anyStep m) {l : Label}
    (hl : ∀ e, l ≠ .run .main e) (h : m.next l = some m') : mainRule.rely m.globals m'.globals :=
  (meanwhile_of_next hm hl h).backdrop.clients

/-- The main thread keeps its rule as long as no nesting event starts. -/
theorem Kept.main_next (h : p.Kept) (hnext : p.next l = some p') (hn : p'.nests = false) :
    p'.machine.config.Obeying mainRule .main () := by
  have hrely : (∀ e, l ≠ .run .main e) → ∀ m', p.machine.next l = some m' →
      mainRule.rely p.machine.globals m'.globals :=
    fun hl m' hm' => rely_of_next h.reachable hl hm'
  have hbefore : (∀ ev, l ≠ .event ev) → p.machine.config.Obeying mainRule .main () :=
    fun hl => h.main (by rw [← nests_next hnext hl, hn])
  obtain ⟨m', hm', rfl⟩ := Option.map_eq_some_iff.1 hnext
  cases l with
  | event ev =>
      -- the only step that starts a handler of the main thread
      have hev : ¬ev.Nests p.machine.globals := of_decide_eq_false hn
      simp only [Machine.next, Option.ite_none_right_eq_some, Option.some.injEq] at hm'
      obtain ⟨⟨hidle, -⟩, rfl⟩ := hm'
      exact Config.obeying_start (h.free hidle) (obeys_handler hev)
  | round =>
      have hm := hbefore (by simp)
      simp only [Machine.next, Option.ite_none_right_eq_some, Option.some.injEq] at hm'
      obtain ⟨-, rfl⟩ := hm'
      exact hm.start (by decide) _
  | wake i =>
      have hm := hbefore (by simp)
      simp only [Machine.next] at hm'
      cases hi : p.machine.globals.pendingCleanups[i]? with
      | none => simp [hi] at hm'
      | some roomId =>
          simp only [hi, Option.some.injEq] at hm'
          subst hm'
          have hawake := hm.setShared (s := { p.machine.globals with
            pendingCleanups := p.machine.globals.pendingCleanups.eraseIdx i }) rfl
          exact hawake.start (by simp) _
  | run t e =>
      have hm := hbefore (by simp)
      have hstep := hm'
      simp only [Machine.next, Option.map_eq_some_iff] at hstep
      obtain ⟨c, hc, rfl⟩ := hstep
      -- a step of another thread cannot take away what the rule relies on
      by_cases ht : t = .main
      · subst ht
        exact hm.move hc
      · exact hm.stay (Ne.symm ht) hc (fun n next hp => h.owns hp)
          (hrely (by simp [ht]) _ hm')
  | tick d =>
      have hm := hbefore (by simp)
      simp only [Machine.next, Option.some.injEq] at hm'
      subst hm'
      exact hm.setShared rfl
  | signal =>
      have hm := hbefore (by simp)
      simp only [Machine.next, Option.some.injEq] at hm'
      subst hm'
      exact hm.setShared rfl

/-- The broadcaster has empty hands when it is finished. -/
theorem Kept.hand_of_done (h : p.Kept)
    (hdone : (p.machine.config.prog .broadcaster).isDone = true) : p.watch.hand = .empty := by
  obtain ⟨db, listenSocket, hw⟩ := h.watched
  obtain ⟨note, hh, hhand, -⟩ := hw.honoured_induction (P := fun _ _ _ => True) trivial
    fun _ _ _ _ _ _ _ _ _ _ _ => trivial
  rw [← hhand, hh.note_of_done hdone]

/-- The broadcaster keeps its rule. -/
theorem Kept.broadcaster_next (h : p.Kept) (hnext : p.next l = some p') :
    p'.machine.config.Obeying broadcasterRule .broadcaster p'.watch.hand := by
  have hb := h.broadcaster
  obtain ⟨m', hm', rfl⟩ := Option.map_eq_some_iff.1 hnext
  cases l with
  | event ev =>
      simp only [Machine.next, Option.ite_none_right_eq_some, Option.some.injEq] at hm'
      obtain ⟨-, rfl⟩ := hm'
      exact hb.start (by decide) _
  | round =>
      -- a round begins with nothing in hand
      simp only [Machine.next, Option.ite_none_right_eq_some, Option.some.injEq] at hm'
      obtain ⟨hdone, rfl⟩ := hm'
      show Config.Obeying broadcasterRule _ Tid.broadcaster p.watch.hand
      rw [h.hand_of_done hdone]
      exact Config.obeying_start (h.free hdone) obeys_broadcastRound
  | wake i =>
      simp only [Machine.next] at hm'
      cases hi : p.machine.globals.pendingCleanups[i]? with
      | none => simp [hi] at hm'
      | some roomId =>
          simp only [hi, Option.some.injEq] at hm'
          subst hm'
          exact (hb.setShared trivial).start (by simp : Tid.broadcaster ≠ .cleanup _) _
  | run t e =>
      simp only [Machine.next, Option.map_eq_some_iff] at hm'
      obtain ⟨c, hc, rfl⟩ := hm'
      have hstay : t ≠ .broadcaster → c.Obeying broadcasterRule .broadcaster p.watch.hand :=
        fun ht => hb.stay (Ne.symm ht) hc (fun n next hp => h.owns hp) trivial
      cases t with
      | main =>
          show c.Obeying broadcasterRule .broadcaster (p.watch.observe _ (.run .main e) _).hand
          rw [Watch.observe]
          split
          · exact hstay (by decide)
          · exact hstay (by decide)
      | broadcaster =>
          have hmove := hb.move hc
          show c.Obeying broadcasterRule .broadcaster (p.watch.observe _ (.run .broadcaster e) _).hand
          rw [Watch.observe]
          -- the record moves with the actions, not with the mutexes
          split at hmove
          · rename_i hact
            rw [if_pos hact]
            exact hmove
          · rename_i hact
            rw [if_neg hact]
            exact hmove
      | cleanup n => exact hstay (by simp)
  | tick d =>
      simp only [Machine.next, Option.some.injEq] at hm'
      subst hm'
      exact hb.setShared trivial
  | signal =>
      simp only [Machine.next, Option.some.injEq] at hm'
      subst hm'
      exact hb.setShared trivial

theorem Kept.next (h : p.Kept) (hnext : p.next l = some p') : p'.Kept := by
  obtain ⟨m', hm', hmachine, hwatch⟩ := next_eq hnext
  obtain ⟨db, listenSocket, hw⟩ := h.watched
  obtain ⟨held, acted, hd⟩ := h.ordered
  obtain ⟨held', acted', hd', hasleep, -⟩ := ordered_next hd h.asleep hm'
  subst hmachine
  refine ⟨⟨db, listenSocket, ?_⟩, hasleep, ⟨held', acted', hd'⟩, h.main_next hnext,
    h.broadcaster_next hnext⟩
  rw [hwatch]
  exact hw.tail ⟨l, trivial, hm', rfl⟩

theorem Reached.kept (h : p.Reached) : p.Kept := by
  obtain ⟨db, listenSocket, hrun⟩ := h
  induction hrun with
  | refl => exact kept_boot db listenSocket
  | tail _ hstep ih =>
      obtain ⟨-, l, hl⟩ := hstep
      exact ih.next hl

/-! ## The crossing -/

/-- Where the two threads stand in each other's way, the last event nests and the broadcaster has found
the room of a private message. -/
theorem Kept.crossed (h : p.Kept) {held : Tid → List Mutex} {acted : Tid → Bool}
    (hd : p.machine.Ordered held acted) (hc : p.machine.Crossed held acted) :
    p.nests = true ∧ ∃ message, p.watch.hand = .found message ∧ message.isPrivate = true := by
  obtain ⟨mainNext, hmain⟩ := hc.mainWaits
  obtain ⟨broadcasterNext, hbroadcaster⟩ := hc.broadcasterWaits
  constructor
  · by_contra hn
    obtain ⟨H, ho, hmay⟩ := (h.main (Bool.eq_false_iff.2 hn)).mayTake hmain
    have hown : p.machine.config.owner .clientsMutex = some .main :=
      (hd.owner_iff _ _).2 (by simp [hc.mainHolds])
    exact hmay ((ho _).1 hown) rfl
  · obtain ⟨H, -, hmay⟩ := h.broadcaster.mayTake hbroadcaster
    exact hmay rfl

/-- A message that is found was in hand before, and its room is live. -/
theorem deliversPrivate_of_next (hnext : p.next l = some p') {message : Message}
    (hhand : p'.watch.hand = .found message) (hp : message.isPrivate = true) :
    p.watch.hand.DeliversPrivate p.machine.globals := by
  have hsame : p.watch.hand = .found message → p.watch.hand.DeliversPrivate p.machine.globals := by
    intro h
    rw [h]
    exact hp
  obtain ⟨m', -, -, hwatch⟩ := next_eq hnext
  rw [hwatch] at hhand
  cases l with
  | run t e =>
      cases t with
      | main =>
          rw [Watch.observe] at hhand
          split at hhand
          · exact hsame hhand
          · exact hsame hhand
      | broadcaster =>
          rw [Watch.observe] at hhand
          split at hhand
          · cases hw : p.watch.hand with
            | empty =>
                simp only [hw, Hand.advance] at hhand
                split at hhand
                · exact absurd hhand (by simp)
                · split at hhand <;> exact absurd hhand (by simp)
            | taken message' =>
                simp only [hw, Hand.advance] at hhand
                split at hhand
                · rename_i hlive
                  rw [Hand.found.injEq] at hhand
                  subst hhand
                  exact ⟨hp, hlive⟩
                · exact absurd hhand (by simp)
            | found message' =>
                simp only [hw, Hand.advance] at hhand
                split at hhand <;> exact absurd hhand (by simp)
            | resolved message' t recipient => trivial
          · exact hsame hhand
      | cleanup n => exact hsame hhand
  | _ => exact hsame hhand

/-- A handler that waits was in progress before, or its event has just started. -/
theorem not_idle_of_next (hnext : p.next l = some p') (hl : ∀ ev, l ≠ .event ev) {n : Mutex}
    {next : Thread Unit} (hwaits : p'.machine.config.prog .main = .lock n next) :
    ¬p.machine.Idle := by
  intro hidle
  obtain ⟨m', hm', hmachine, -⟩ := next_eq hnext
  subst hmachine
  have hprog : p'.machine.config.prog .main = p.machine.config.prog .main := by
    refine prog_main_next hl (fun e he => ?_) hm'
    subst he
    simp only [Machine.next, Option.map_eq_some_iff] at hm'
    obtain ⟨c, hc, -⟩ := hm'
    rw [Config.stepThread_of_done hidle] at hc
    exact absurd hc (by simp)
  rw [Idle, ← hprog, hwaits] at hidle
  exact absurd hidle (by simp [Prog.isDone])

/-- Only a step that is taken while both are under way makes the two threads stand in each other's way. -/
theorem Kept.nestsDuringDelivery_of_crossed (h : p.Kept) (hnext : p.next l = some p')
    {held : Tid → List Mutex} {acted : Tid → Bool} (hd : p'.machine.Ordered held acted)
    (hc : p'.machine.Crossed held acted) : p.NestsDuringDelivery := by
  obtain ⟨hn, message, hhand, hp⟩ := (h.next hnext).crossed hd hc
  obtain ⟨mainNext, hmain⟩ := hc.mainWaits
  have hl : ∀ ev, l ≠ .event ev := by
    rintro ev rfl
    -- a handler that has just started holds nothing
    obtain ⟨m', hm', hmachine, -⟩ := next_eq hnext
    have hidle := idle_of_event hm'
    simp only [Machine.next, Option.ite_none_right_eq_some, Option.some.injEq] at hm'
    obtain ⟨-, hm'⟩ := hm'
    have hown : p'.machine.config.owner .clientsMutex = some .main :=
      (hd.owner_iff _ _).2 (by simp [hc.mainHolds])
    rw [hmachine, ← hm'] at hown
    exact h.free hidle _ hown
  refine ⟨⟨?_, not_idle_of_next hnext hl hmain⟩, deliversPrivate_of_next hnext hhand hp⟩
  rw [← nests_next hnext hl]
  exact hn

theorem Reached.not_crossed (h : p.Reached) {held : Tid → List Mutex} {acted : Tid → Bool}
    (hd : p.machine.Ordered held acted) : ¬p.machine.Crossed held acted := by
  intro hc
  obtain ⟨db, listenSocket, hrun⟩ := h
  cases hrun with
  | refl => exact absurd ((kept_boot db listenSocket).crossed hd hc).1 (by simp)
  | tail hbefore hstep =>
      obtain ⟨hfree, l, hl⟩ := hstep
      have hkept : Kept _ := Reached.kept ⟨db, listenSocket, hbefore⟩
      exact hfree (hkept.nestsDuringDelivery_of_crossed hl hd hc)

end Course

namespace Course

/-- No deadlock, in every run that takes no step while the handler of a CREATE from inside a room, or of
a JOIN of another room, is in progress during the delivery of a private message of a live room. -/
theorem no_deadlock (p : Course) (hp : p.Reached) :
    (∀ S, ¬p.machine.config.Deadlocked S) ∧ ∀ t, ¬p.machine.config.WaitsFor t t := by
  obtain ⟨held, acted, hd⟩ := hp.kept.ordered
  have hnone : ∀ S, ¬p.machine.config.Deadlocked S :=
    fun S hS => hp.not_crossed hd (Machine.crossed_of_deadlocked hd hS)
  refine ⟨hnone, fun t ht => hnone {t} ⟨⟨t, rfl⟩, ?_⟩⟩
  rintro u rfl
  exact ⟨u, rfl, ht⟩

/-- Take the steps of a list one after the other, until both are under way; those that cannot occur are
skipped. -/
def play : Course → List Label → Course
  | p, [] => p
  | p, l :: ls =>
      if p.NestsDuringDelivery then p
      else
        match p.next l with
        | some p' => p'.play ls
        | none => p.play ls

theorem play_reaches : ∀ (ls : List Label) (p : Course), Relation.ReflTransGen Step p (p.play ls)
  | [], _ => .refl
  | l :: ls, p => by
      rw [play]
      by_cases hc : p.NestsDuringDelivery
      · rw [if_pos hc]
      · rw [if_neg hc]
        cases hl : p.next l with
        | some p' => exact Relation.ReflTransGen.head ⟨hc, l, hl⟩ (play_reaches ls p')
        | none => exact play_reaches ls p

/-- A room is created from inside another one, right after a private message has been delivered. -/
theorem no_deadlock_creating : ∃ p : Course, p.Reached ∧ p.nests = true ∧
    p.machine.config.owner .clientsMutex = some .main ∧ ∀ S, ¬p.machine.config.Deadlocked S := by
  have hreach : Reached _ := ⟨{}, 3, play_reaches ([.event (.connect 4)] ++ Machine.steps .main 8 ++
    [.event (.receive 4 (str "/CREATE PUBLIC"))] ++ Machine.steps .main 20 ++
    [.event (.receive 4 (str "@bob hi"))] ++ Machine.steps .main 8 ++ [.round] ++
    Machine.steps .broadcaster 14 ++ [.event (.receive 4 (str "/CREATE PUBLIC"))] ++
    Machine.steps .main 3) _⟩
  exact ⟨_, hreach, by decide +kernel, by decide +kernel, (no_deadlock _ hreach).1⟩

end Course

namespace Machine

/-- The main thread creates a room from inside another one while the broadcaster looks up the
recipient of a private message. -/
theorem not_no_deadlock : ¬∀ m, Reachable anyStep m → ∀ S, ¬m.config.Deadlocked S := by
  intro h
  obtain ⟨m, hm, hp⟩ := (Option.any_eq_true (fun m : Machine => decide
    (m.config.WaitsFor .main .broadcaster ∧ m.config.WaitsFor .broadcaster .main)) _).1
      (by decide +kernel : ((after (fun _ _ => True) [(.connect 4, 0),
        (.receive 4 (str "/CREATE PUBLIC"), 7), (.receive 4 (str "@bob hi"), 0)]).bind fun m =>
          m.exec (fun _ => true) ([.round] ++ steps .broadcaster 7 ++
            [.event (.receive 4 (str "/CREATE PUBLIC"))] ++ steps .main 3)).any _ = true)
  obtain ⟨m₀, hm₀, hm⟩ := Option.bind_eq_some_iff.1 hm
  have hbefore := serveAll_reaches (fun _ _ => True) _ _ m₀ hm₀
  have hafter : Relation.ReflTransGen (Step anyStep) m₀ m :=
    exec_reaches (fun _ _ _ => trivial) _ _ _ hm
  have hreach : Reachable anyStep m := by
    refine ⟨{}, 3, (hbefore.lift id ?_).trans hafter⟩
    rintro m₁ m₂ ⟨l, -, hn⟩
    exact ⟨l, trivial, hn⟩
  obtain ⟨hmain, hbroadcaster⟩ := of_decide_eq_true hp
  refine h m hreach {.main, .broadcaster} ⟨⟨.main, Or.inl rfl⟩, ?_⟩
  rintro t (rfl | rfl)
  · exact ⟨.broadcaster, Or.inr rfl, hmain⟩
  · exact ⟨.main, Or.inl rfl, hbroadcaster⟩

end Machine

end TerminalChat.Server
