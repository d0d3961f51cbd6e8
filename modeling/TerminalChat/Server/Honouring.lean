import Mathlib
import TerminalChat.Server.Doing

/-!
# The contracts hold along every run

The broadcaster and the cleanup threads keep their contracts too, and what each thread guarantees is
what the others rely on (`compatible_contract`). So along every run every action is what its contract says
(`Machine.Honoured.next`).
-/

set_option autoImplicit false

namespace TerminalChat.Server

open TerminalChat.Concurrency TerminalChat.Text

/-! ## The other threads -/

section Others

/-- A cleanup thread keeps its contract. -/
theorem triple_cleanupEmptyRoom (roomId : Bytes) :
    Prog.Triple (contractUnderRooms CleanupDeed) [] (fun g _ => g = {}) (cleanupEmptyRoom roomId)
      fun _ g _ => g = {} := by
  refine Prog.triple_holding (fun _ _ _ _ h => h) (fun _ _ _ _ _ h => h) ?_
  refine Prog.triple_block _ (fun _ _ _ _ h => h) (fun _ _ _ _ _ h => h) fun e g s hg => ?_
  refine Block.post_mono (post_sweepRoom_deeds e s roomId) fun _ s' h => ?_
  exact ⟨g, ⟨⟨roomId, h⟩, rfl, fun hn => absurd List.mem_cons_self hn⟩, hg⟩

theorem advance_empty (s : Globals) : Hand.advance s s .empty = .empty := by
  rw [Hand.advance]
  cases s.messageQueue with
  | nil => rfl
  | cons message rest => exact if_neg (Nat.lt_irrefl _)

/-- What the broadcaster has in hand, and a fact about the rooms. -/
def InHand (hand : Hand) (F : Globals → Prop) (g : Note) (s : Globals) : Prop :=
  g = { hand := hand } ∧ F s

theorem stable_inHand {H : List Mutex} {hand : Hand} :
    Prog.Stable (contractUnderRooms BroadcastDeed) H (InHand hand fun _ => True) :=
  fun _ _ _ _ h => h

/-- An action of the broadcaster that only reads, with empty hands. -/
theorem triple_look {H : List Mutex} (f : Env → Globals → Bool) :
    Prog.Triple (contractUnderRooms BroadcastDeed) H (InHand .empty fun _ => True)
      (step (.read f)) fun _ => InHand .empty fun _ => True := by
  refine Prog.triple_block _ stable_inHand (fun _ => stable_inHand) fun e g s hg => ?_
  obtain ⟨rfl, -⟩ := hg
  refine ⟨_, ⟨Or.inl rfl, rfl, fun _ => rfl⟩, ?_, trivial⟩
  exact congrArg (fun hand => ({ hand := hand } : Note)) (advance_empty s)

/-- What the broadcaster has in hand when it has looked at the queue. -/
def HandOf : Option Message → Hand
  | none => .empty
  | some message => .taken message

theorem triple_popMessage {H : List Mutex} :
    Prog.Triple (contractUnderRooms BroadcastDeed) H (InHand .empty fun _ => True)
      (step popMessage) fun message => InHand (HandOf message) fun _ => True := by
  refine Prog.triple_block _ stable_inHand (fun _ => stable_inHand) fun e g s hg => ?_
  obtain ⟨rfl, -⟩ := hg
  show ∃ g', BroadcastDeed H { } g' e s { s with messageQueue := s.messageQueue.tail } ∧
    InHand (HandOf s.messageQueue.head?) (fun _ => True) g' _
  cases hq : s.messageQueue with
  | nil =>
      refine ⟨{ }, ⟨Or.inl ?_, ?_, fun _ => rfl⟩, rfl, trivial⟩
      · rw [List.tail_nil, ← hq]
      · rw [Hand.advance, hq]
  | cons message rest =>
      refine ⟨{ hand := .taken message }, ⟨Or.inr ⟨message, rest, hq, rfl⟩, ?_, fun _ => rfl⟩, rfl,
        trivial⟩
      rw [Hand.advance, hq]
      simp

/-- The broadcaster delivers what it has in hand, or drops it. -/
theorem triple_deliverMessage (message : Message) :
    Prog.Triple (contractUnderRooms BroadcastDeed) [] (InHand (.taken message) fun _ => True)
      (deliverMessage message) fun _ => InHand .empty fun _ => True := by
  refine Prog.triple_holding stable_inHand (fun _ => stable_inHand) ?_
  -- under `g_chatRoomsMutex` the room stays while the recipient is looked up
  have hlive : ∀ {hand : Hand}, Prog.Stable (contractUnderRooms BroadcastDeed) [.chatRoomsMutex]
      (InHand hand fun s => message.roomId ∈ s.chatRooms) := by
    rintro hand g s s' hs ⟨hg, hr⟩
    refine ⟨hg, ?_⟩
    show message.roomId ∈ s'.chatRooms
    rwa [hs List.mem_cons_self]
  have hheld : ∀ {s s' : Globals}, .chatRoomsMutex ∉ [Mutex.chatRoomsMutex] →
      s'.chatRooms = s.chatRooms := fun hn => absurd List.mem_cons_self hn
  refine Prog.triple_bind (R := fun found => if found then
    InHand (.found message) fun s => message.roomId ∈ s.chatRooms
      else InHand .empty fun _ => True) ?_ fun found => ?_
  · refine Prog.triple_block _ stable_inHand (fun found => ?_) fun e g s hg => ?_
    · cases found with
      | true => exact hlive
      | false => exact stable_inHand
    obtain ⟨rfl, -⟩ := hg
    rw [post_roomExists]
    by_cases hr : message.roomId ∈ s.chatRooms
    · rw [Std.ExtTreeMap.contains_iff_mem.2 hr]
      refine ⟨{ hand := .found message }, ⟨rfl, ?_, fun _ => rfl⟩, rfl, hr⟩
      rw [Hand.advance, if_pos hr]
    · rw [Bool.eq_false_iff.2 fun h => hr (Std.ExtTreeMap.contains_iff_mem.1 h)]
      refine ⟨{ }, ⟨rfl, ?_, fun _ => rfl⟩, rfl, trivial⟩
      rw [Hand.advance, if_neg hr]
  cases found with
  | false => exact Prog.triple_pure fun _ _ h => h
  | true =>
      show Prog.Triple _ _ (InHand (.found message) fun s => message.roomId ∈ s.chatRooms)
        (if message.isPrivate then _ else _) _
      refine Prog.triple_ite _ (fun hpriv => ?_) fun hpub => ?_
      · have hfound : ∀ t, Prog.Stable (contractUnderRooms BroadcastDeed) [.chatRoomsMutex]
            fun g s => ∃ recipient, InHand (.resolved message t recipient)
              (fun s => message.roomId ∈ s.chatRooms) g s := by
          rintro t g s s' hs ⟨recipient, h⟩
          exact ⟨recipient, hlive g s s' hs h⟩
        refine Prog.triple_bind (R := fun t g s => ∃ recipient,
          InHand (.resolved message t recipient) (fun s => message.roomId ∈ s.chatRooms) g s) ?_
            fun t => ?_
        · -- the lookup, under `g_clientsMutex` as well
          refine Prog.triple_holding hlive hfound ?_
          refine Prog.triple_block _ (hlive.cons _) (fun t => (hfound t).cons _) fun e g s hg => ?_
          obtain ⟨rfl, hr⟩ := hg
          refine ⟨_, ⟨?_, rfl, fun _ => rfl⟩,
            s.info (s.findClientByUsername message.recipientName message.roomId), ?_, hr⟩
          · rw [Hand.Acts, if_pos hpriv]
            rfl
          · rw [Hand.advance, if_pos hpriv]
            rfl
        · -- the delivery to the recipient and the sender
          refine Prog.triple_block _ (hfound t) (fun _ => stable_inHand) fun e g s hg => ?_
          obtain ⟨recipient, rfl, hr⟩ := hg
          exact ⟨{ }, ⟨⟨hr, rfl⟩, rfl, hheld⟩, rfl, trivial⟩
      · -- the delivery to the room
        refine Prog.triple_block _ hlive (fun _ => stable_inHand) fun e g s hg => ?_
        obtain ⟨rfl, hr⟩ := hg
        refine ⟨{ }, ⟨?_, ?_, hheld⟩, rfl, trivial⟩
        · rw [Hand.Acts, if_neg hpub]
          exact ⟨hr, rfl⟩
        · rw [Hand.advance, if_neg hpub]

/-- A round of the broadcaster keeps its contract. -/
theorem triple_broadcastRound :
    Prog.Triple (contractUnderRooms BroadcastDeed) [] (InHand .empty fun _ => True) broadcastRound
      fun _ => InHand .empty fun _ => True := by
  refine Prog.triple_bind (triple_look _) fun stop => Prog.triple_ite _
    (fun _ => Prog.triple_pure fun _ _ h => h) fun _ => ?_
  refine Prog.triple_bind (R := fun message => InHand (HandOf message) fun _ => True) ?_
    fun message => ?_
  · refine Prog.triple_holding stable_inHand (fun _ => stable_inHand) ?_
    refine Prog.triple_bind (triple_look _) fun ready => ?_
    refine Prog.triple_ite _ (fun _ => triple_popMessage) fun _ => ?_
    exact Prog.triple_bind (Prog.triple_yield stable_inHand) fun _ => triple_popMessage
  · cases message with
    | none => exact Prog.triple_pure fun _ _ h => h
    | some message => exact triple_deliverMessage message

end Others

/-! ## What the threads guarantee is what the others rely on -/

section Compatible

variable {H K : List Mutex} {g g' : Note} {e : Env} {s s' : Globals}

theorem backdrop_of_same (h : s' = s) : Backdrop H s s' := by
  rw [h]
  exact .refl H s

/-- A delivery to a room only writes its history. -/
theorem backdrop_deliverPublic (message : Message) (hh : .chatRoomsMutex ∈ H →
    ((deliverPublic message).exec e s).state.chatRooms = s.chatRooms) :
    Backdrop H s ((deliverPublic message).exec e s).state := by
  have hrooms : ((deliverPublic message).exec e s).state.chatRooms =
      (s.editRoom message.roomId fun room => room.addMessageToHistory
        (chatText (e.wall 0).text message.senderName message.content)).chatRooms := rfl
  refine ⟨rfl, rfl, fun r room hroom => Or.inl ?_, fun r hroom => ?_, hh⟩
  · rw [hrooms, Globals.getElem?_editRoom, hroom]
    split
    · exact ⟨_, rfl⟩
    · exact ⟨room.messageHistory, rfl⟩
  · rw [hrooms, Globals.getElem?_editRoom, hroom]
    split <;> rfl

/-- A delivery to a recipient touches no room and no client. -/
theorem backdrop_deliverPrivate (message : Message) (t : SOCKET) :
    Backdrop H s ((deliverPrivate message t).exec e s).state := by
  have hsame : (deliverPrivate message t).post e s fun _ s' => Backdrop H s s' := by
    simp only [deliverPrivate, Block.post_ite, post_sendToClient, Block.post_bind,
      post_getCurrentTimestamp, post_tellDatabase]
    exact ⟨fun _ => .of_rooms rfl rfl rfl, fun _ => .of_rooms rfl rfl rfl⟩
  exact hsame

theorem BroadcastDeed.backdrop (h : BroadcastDeed K g g' e s s') (hK : ∀ m ∈ H, m ∉ K) :
    Backdrop H s s' := by
  have hh : .chatRoomsMutex ∈ H → s'.chatRooms = s.chatRooms := fun hm => h.guarded (hK _ hm)
  have ha := h.acts
  cases hg : g.hand with
  | empty =>
      rw [hg] at ha
      rcases ha with rfl | ⟨message, rest, -, rfl⟩
      · exact .refl H _
      · exact .of_rooms rfl rfl rfl
  | taken message =>
      rw [hg] at ha
      exact backdrop_of_same ha
  | found message =>
      rw [hg, Hand.Acts] at ha
      by_cases hp : message.isPrivate = true
      · rw [if_pos hp] at ha
        exact backdrop_of_same ha
      · rw [if_neg hp] at ha
        obtain ⟨-, rfl⟩ := ha
        exact backdrop_deliverPublic message hh
  | resolved message t recipient =>
      rw [hg] at ha
      rw [ha.2]
      exact backdrop_deliverPrivate message t

theorem CleanupDeed.backdrop (h : CleanupDeed K g g' e s s') (hK : ∀ m ∈ H, m ∉ K) :
    Backdrop H s s' := by
  obtain ⟨roomId, hs⟩ := h.sweeps
  have hh : .chatRoomsMutex ∈ H → s'.chatRooms = s.chatRooms := fun hm => h.guarded (hK _ hm)
  rw [Effect.apply] at hs
  by_cases hd : s.Deserted roomId
  · rw [if_pos hd] at hs
    have hrooms : s'.chatRooms = s.chatRooms.erase roomId := by rw [hs]
    refine ⟨by rw [hs], by rw [hs], fun r room hroom => ?_, fun r hroom => ?_, hh⟩
    · rw [hrooms, Globals.getElem?_eraseRoom, hroom]
      by_cases hr : roomId = r
      · rw [Globals.Deserted, hr, hroom] at hd
        rw [if_pos hr]
        exact Or.inr ⟨rfl, hd⟩
      · rw [if_neg hr]
        exact Or.inl ⟨room.messageHistory, rfl⟩
    · rw [hrooms, Globals.getElem?_eraseRoom, hroom]
      split <;> rfl
  · rw [if_neg hd] at hs
    exact backdrop_of_same hs

/-- Every thread relies only on what the others guarantee. -/
theorem compatible_contract : Config.Compatible contract := by
  intro t u htu H K g g' e s s' hK hg
  have hheld : RoomsHeld H s s' := by
    intro hm
    cases u with
    | main => exact MainDeed.guarded hg (hK _ hm)
    | broadcaster => exact BroadcastDeed.guarded hg (hK _ hm)
    | cleanup n => exact CleanupDeed.guarded hg (hK _ hm)
  cases t with
  | main =>
      cases u with
      | main => exact absurd rfl htu
      | broadcaster => exact BroadcastDeed.backdrop hg hK
      | cleanup n => exact CleanupDeed.backdrop hg hK
  | broadcaster => exact hheld
  | cleanup n => exact hheld

end Compatible

/-! ## Runs -/

namespace Machine

variable {m m' : Machine} {note : Tid → Note}

/-- The contracts of all threads are honoured, with these notes. -/
structure Honoured (m : Machine) (note : Tid → Note) : Prop where
  asleep : m.Asleep
  contracts : ∃ held, Config.Honoured contract (fun _ g _ => g = {}) m.config note held

/-- What one step of the machine does to the globals and to the notes: no more than a reading of the
clock or the shutdown signal, the end of a cleanup thread's sleep, or an action under the contract of
its thread. -/
inductive Stride (note note' : Tid → Note) (m : Machine) : Label → Machine → Prop where
  | rest {l : Label} {m' : Machine} (hn : note' = note) (hs : m'.globals = { m.globals with
      steadyNow := m'.globals.steadyNow
      shutdownRequested := m'.globals.shutdownRequested })
      (hl : ∀ t e, l = .run t e → (m.config.prog t).isAct = false) : Stride note note' m l m'
  | wake {i : Nat} {m' : Machine} (hn : note' = note) (hs : m'.globals = { m.globals with
      pendingCleanups := m.globals.pendingCleanups.eraseIdx i }) : Stride note note' m (.wake i) m'
  | act {t : Tid} {e : Env} {m' : Machine} (H : List Mutex) (g' : Note)
      (hn : note' = Function.update note t g') (hact : (m.config.prog t).isAct = true)
      (hg : (contract t).guarantee H (note t) g' e m.globals m'.globals) :
      Stride note note' m (.run t e) m'

theorem honoured_boot (db : Database) (listenSocket : SOCKET) :
    (boot db listenSocket).Honoured fun _ => {} := by
  refine ⟨fun _ _ => rfl, fun _ => [], fun n t => ?_, fun _ => List.nodup_nil, fun _ => ⟨rfl, rfl⟩⟩
  simp [boot]

/-- A finished thread owes nothing and has nothing in hand. -/
theorem Honoured.note_of_done (hh : m.Honoured note) {t : Tid}
    (hd : (m.config.prog t).isDone = true) : note t = {} := by
  obtain ⟨held, hc⟩ := hh.contracts
  exact (hc.of_done hd).2

theorem settled_of_idle (hm : Reachable anyStep m) (hidle : m.Idle) : Settled m.globals := by
  have hsound := (hallRun_of_reachable hm hidle).sound
  refine ⟨fun r hr => ?_, fun hd t r hr hinfo => isMember_of_roomId hm hidle hd hr hinfo⟩
  exact hsound.drawn r ((m.globals.isSome_room_hall r).2 hr)

/-- A handler starts from a settled state. -/
theorem Honoured.event (hm : Reachable anyStep m) (hh : m.Honoured note) {ev : Event}
    (h : m.next (.event ev) = some m') : m'.Honoured note := by
  have hidle := idle_of_event h
  have hasleep := hh.asleep.next h
  simp only [next, Option.ite_none_right_eq_some, Option.some.injEq] at h
  obtain ⟨⟨-, hev⟩, rfl⟩ := h
  obtain ⟨held, hc⟩ := hh.contracts
  have hvalid : ∀ buffer, ev = .receive ev.socket buffer → ev.socket ≠ INVALID_SOCKET := by
    intro buffer he hbad
    rw [he] at hev
    have hconn : ev.socket ∈ m.globals.clients := hev.1
    rw [hbad] at hconn
    exact (hallRun_of_reachable hm hidle).valid hconn
  refine ⟨hasleep, held, Config.honoured_start hc hidle
    (P := Noting {} Settled) ⟨hh.note_of_done hidle, settled_of_idle hm hidle⟩ ?_⟩
  exact Prog.triple_mono (fulfils_handler hvalid) (fun _ _ h => h) fun _ _ _ h => h.1

/-- Along every step the contracts stay honoured, and the step does what they say. -/
theorem Honoured.next (hm : Reachable anyStep m) (hh : m.Honoured note) {l : Label}
    (h : m.next l = some m') : ∃ note', m'.Honoured note' ∧ Stride note note' m l m' := by
  have hasleep := hh.asleep.next h
  obtain ⟨held, hc⟩ := hh.contracts
  have hshared : ∀ s : Globals, (∀ t, (contract t).rely (held t) m.globals s) →
      Config.Honoured contract (fun _ g _ => g = {}) (m.config.setShared s) note held :=
    fun s hs => Config.honoured_setShared (fun _ _ _ _ hq _ => hq) hc hs
  -- what leaves the clients, the drawn ids and the rooms alone breaks nobody's reliance
  have hrely : ∀ (s : Globals) (t : Tid), s.clients = m.globals.clients →
      s.drawnIds = m.globals.drawnIds → s.chatRooms = m.globals.chatRooms →
      (contract t).rely (held t) m.globals s := by
    intro s t hclients hdrawn hrooms
    cases t with
    | main => exact .of_rooms hclients hdrawn hrooms
    | broadcaster => exact fun _ => hrooms
    | cleanup n => exact fun _ => hrooms
  cases l with
  | event ev =>
      have hh' := hh.event hm h
      simp only [Machine.next, Option.ite_none_right_eq_some, Option.some.injEq] at h
      obtain ⟨-, rfl⟩ := h
      exact ⟨note, hh', .rest rfl rfl fun _ _ hl => by simp at hl⟩
  | round =>
      simp only [Machine.next, Option.ite_none_right_eq_some, Option.some.injEq] at h
      obtain ⟨hdone, rfl⟩ := h
      refine ⟨note, ⟨hasleep, held, Config.honoured_start hc hdone (P := InHand .empty fun _ => True)
        ⟨hh.note_of_done hdone, trivial⟩ ?_⟩, .rest rfl rfl fun _ _ hl => by simp at hl⟩
      exact Prog.triple_mono triple_broadcastRound (fun _ _ h => h) fun _ _ _ h => h.1
  | wake i =>
      simp only [Machine.next] at h
      cases hi : m.globals.pendingCleanups[i]? with
      | none => simp [hi] at h
      | some roomId =>
          simp only [hi, Option.some.injEq] at h
          subst h
          have hdone := hh.asleep m.woken le_rfl
          have hawake := hshared { m.globals with
            pendingCleanups := m.globals.pendingCleanups.eraseIdx i }
              fun t => hrely _ t rfl rfl rfl
          exact ⟨note, ⟨hasleep, held, Config.honoured_start hawake hdone (P := fun g _ => g = {})
            (hh.note_of_done hdone) (triple_cleanupEmptyRoom roomId)⟩, .wake rfl rfl⟩
  | run t e =>
      simp only [Machine.next, Option.map_eq_some_iff] at h
      obtain ⟨c, hstep, rfl⟩ := h
      rcases Config.honoured_stepThread compatible_contract (fun _ _ _ _ hq _ => hq) hc hstep with
        ⟨hact, hs, held', hc'⟩ | ⟨hact, g', hg, hc'⟩
      · refine ⟨note, ⟨hasleep, held', hc'⟩, .rest rfl ?_ fun u e' hl => ?_⟩
        · have hglobals : Machine.globals { m with config := c } = m.globals := hs
          rw [hglobals]
        · rw [Label.run.injEq] at hl
          rw [← hl.1]
          exact hact
      · exact ⟨_, ⟨hasleep, held, hc'⟩, .act _ g' rfl hact hg⟩
  | tick d =>
      simp only [Machine.next, Option.some.injEq] at h
      subst h
      exact ⟨note, ⟨hasleep, held, hshared _ fun t => hrely _ t rfl rfl rfl⟩,
        .rest rfl rfl fun _ _ hl => by simp at hl⟩
  | signal =>
      simp only [Machine.next, Option.some.injEq] at h
      subst h
      exact ⟨note, ⟨hasleep, held, hshared _ fun t => hrely _ t rfl rfl rfl⟩,
        .rest rfl rfl fun _ _ hl => by simp at hl⟩

end Machine

end TerminalChat.Server
