import Mathlib
import TerminalChat.Server.Admission

/-!
# The boundary of a JOIN

A message is pushed to the queue by a handler and written to the history, sent to the members and saved
by the broadcaster, the three under `g_chatRoomsMutex`; JOIN makes a client a member and replays the
history under the same mutex. So a message of the room is either replayed to the client or sent to it
live, whatever the position of the JOIN among the deliveries (`Machine.no_gap_no_duplicate`).
-/

set_option autoImplicit false

namespace TerminalChat.Server

open TerminalChat.Concurrency TerminalChat.Text

/-! ## The order of the messages -/

/-- The messages that handlers have accepted, in order. -/
def accepted (log : List Entry) : List Message :=
  log.filterMap fun entry => match entry with
    | .accepted message => some message
    | _ => none

/-- The messages that have been delivered to a room, in order. -/
def delivered (log : List Entry) : List Message :=
  log.filterMap fun entry => match entry with
    | .delivered message _ _ => some message
    | _ => none

/-- The message that the broadcaster may still deliver to a room. -/
def Hand.pending : Hand → List Message
  | .taken message => [message]
  | .found message => [message]
  | _ => []

/-- What has been delivered, is in hand or waits in the queue has been accepted, in this order. -/
def InOrder (s : Globals) (w : Watch) : Prop :=
  (delivered w.log ++ (w.hand.pending ++ s.messageQueue)).Sublist (accepted w.log)

theorem accepted_append (log log' : List Entry) :
    accepted (log ++ log') = accepted log ++ accepted log' := List.filterMap_append

theorem delivered_append (log log' : List Entry) :
    delivered (log ++ log') = delivered log ++ delivered log' := List.filterMap_append

theorem accepted_mainEntries (s s' : Globals) :
    accepted (mainEntries s s') = s'.messageQueue.drop s.messageQueue.length := by
  rw [mainEntries, accepted_append]
  generalize s'.messageQueue.drop s.messageQueue.length = messages
  generalize s'.chatRooms.keys.filter (fun r => r ∉ s.chatRooms) = ids
  simp [accepted, List.filterMap_map]

theorem delivered_mainEntries (s s' : Globals) : delivered (mainEntries s s') = [] := by
  rw [mainEntries, delivered_append]
  generalize s'.messageQueue.drop s.messageQueue.length = messages
  generalize s'.chatRooms.keys.filter (fun r => r ∉ s.chatRooms) = ids
  simp [delivered, List.filterMap_map]

/-- What has been delivered in a room is some of what has been delivered. -/
theorem deliveredIn_sublist (r : Bytes) (log : List Entry) :
    ((deliveredIn r log).map Prod.fst).Sublist (delivered log) := by
  induction log using List.reverseRecOn with
  | nil => exact List.Sublist.slnil
  | append_singleton log entry ih =>
      rw [deliveredIn_append, delivered_append, List.foldl_cons, List.foldl_nil]
      cases entry with
      | opened q =>
          rw [deliveredStep]
          split
          · exact List.nil_sublist _
          · exact ih.trans (List.sublist_append_left _ _)
      | accepted message => exact ih.trans (List.sublist_append_left _ _)
      | delivered message stamp ops =>
          rw [deliveredStep]
          split
          · rw [List.map_append]
            exact ih.append (List.Sublist.refl _)
          · exact ih.trans (List.sublist_append_left _ _)
      | whispered message t recipient ops => exact ih.trans (List.sublist_append_left _ _)

section Order

variable {s s' : Globals} {w : Watch} {e : Env}

theorem InOrder.main {H : List Mutex} {g g' : Note} (h : InOrder s w)
    (hd : MainDeed H g g' e s s') : InOrder s' { w with log := w.log ++ mainEntries s s' } := by
  obtain ⟨effs, ops, hdeeds, -⟩ := hd.deeds
  have hqueue := hdeeds.queue
  rw [InOrder, delivered_append, accepted_append, delivered_mainEntries, accepted_mainEntries,
    List.append_nil, hqueue, List.drop_left, ← List.append_assoc, ← List.append_assoc]
  rw [InOrder, ← List.append_assoc] at h
  exact h.append (List.Sublist.refl _)

/-- The broadcaster takes the front of the queue, and delivers or drops what it has in hand. -/
theorem InOrder.broadcast (h : InOrder s w) (hd : w.hand.Acts e s s') :
    InOrder s' { hand := w.hand.advance s s', log := w.log ++ w.hand.entries e s s' } := by
  rw [InOrder] at h ⊢
  cases hw : w.hand with
  | empty =>
      rw [hw] at hd h
      rw [Hand.entries, List.append_nil]
      rcases hd with rfl | ⟨message, rest, hqueue, rfl⟩
      · have hempty : Hand.empty.advance s' s' = .empty := advance_empty s'
        rw [hempty]
        exact h
      · simp only [Hand.advance, hqueue]
        rw [if_pos (by simp)]
        rw [hqueue] at h
        exact h
  | taken message =>
      rw [hw] at hd h
      rw [show s' = s from hd, Hand.entries, List.append_nil, Hand.advance]
      dsimp only
      split
      · exact h
      · -- a message without a room is dropped from the sequence
        exact List.Sublist.trans ((List.Sublist.refl _).append (List.sublist_append_right _ _)) h
  | found message =>
      rw [hw] at hd h
      rw [Hand.Acts] at hd
      by_cases hp : message.isPrivate = true
      · rw [if_pos hp] at hd
        rw [hd, Hand.entries, if_pos hp, List.append_nil]
        simp only [Hand.advance, if_pos hp]
        exact List.Sublist.trans ((List.Sublist.refl _).append (List.sublist_append_right _ _)) h
      · rw [if_neg hp] at hd
        have hqueue : s'.messageQueue = s.messageQueue := by rw [hd.2, state_deliverPublic]; rfl
        rw [Hand.entries, if_neg hp, Hand.advance, if_neg hp, hqueue, delivered_append,
          accepted_append, List.append_assoc]
        exact h.trans (List.sublist_append_left _ _)
  | resolved message t recipient =>
      rw [hw] at hd h
      have hqueue : s'.messageQueue = s.messageQueue := by rw [hd.2, state_deliverPrivate]
      rw [Hand.entries, hqueue, delivered_append, accepted_append]
      exact List.Sublist.trans (by simpa [delivered, Hand.advance, Hand.pending] using h)
        (List.sublist_append_left _ _)

namespace Machine

variable {ok : Machine → Label → Prop} {db : Database} {listenSocket : SOCKET} {m : Machine}

/-- Along every watched run the messages keep their order. -/
theorem Watched.inOrder (h : Watched ok db listenSocket m w) : InOrder m.globals w := by
  refine (h.induction (P := fun m _ w => InOrder m.globals w) List.Sublist.slnil
    fun m g w l m' g' _ _ _ h hmove => ?_).choose_spec.2
  generalize w.observe m l m' = w' at hmove
  cases hmove with
  | rest hs =>
      rw [hs]
      exact h
  | wake hs =>
      rw [hs]
      exact h
  | main H hd => exact h.main hd
  | broadcast hd => exact h.broadcast hd
  | @sweep n e m' roomId hs =>
      have hnone : (Effect.sweep roomId).pushed = [] := rfl
      rw [InOrder, hs, Effect.messageQueue_apply, hnone, List.append_nil]
      exact h

end Machine

end Order

/-! ## What JOIN replays -/

section Replay

variable {s s' : Globals} {log : List Entry} {e : Env} {r : Bytes}

/-- A room in which nothing has been delivered remembers nothing. -/
def Silent (s : Globals) (log : List Entry) : Prop :=
  ∀ (r : Bytes) (room : ChatRoom), s.chatRooms[r]? = some room → deliveredIn r log = [] →
    room.messageHistory = []

theorem Silent.congr (h : Silent s log) (hr : s'.chatRooms = s.chatRooms) : Silent s' log := by
  rw [Silent, hr]
  exact h

/-- An action of a handler writes no history. -/
theorem Silent.main {H : List Mutex} {g g' : Note} (h : Silent s log) (hd : MainDeed H g g' e s s') :
    Silent s' (log ++ mainEntries s s') := by
  obtain ⟨effs, ops, hdeeds, -⟩ := hd.deeds
  intro r room' hroom' hnone
  have hlive : r ∈ s'.chatRooms := by
    rw [Std.ExtTreeMap.mem_iff_isSome_getElem?, hroom']
    rfl
  rcases hdeeds.messageHistory hroom' with hhist | ⟨room, hroom, hhist⟩
  · exact hhist
  · have hr : r ∈ s.chatRooms := by
      rw [Std.ExtTreeMap.mem_iff_isSome_getElem?, hroom]
      rfl
    rw [deliveredIn_mainEntries log hlive, if_pos hr] at hnone
    rw [hhist]
    exact h r room hroom hnone

theorem Silent.broadcast {hand : Hand} (h : Silent s log) (hd : hand.Acts e s s') :
    Silent s' (log ++ hand.entries e s s') := by
  cases hand with
  | empty =>
      rw [Hand.entries, List.append_nil]
      rcases hd with rfl | ⟨message, rest, -, rfl⟩
      · exact h
      · exact h.congr rfl
  | taken message =>
      rw [Hand.entries, List.append_nil, show s' = s from hd]
      exact h
  | found message =>
      rw [Hand.Acts] at hd
      by_cases hp : message.isPrivate = true
      · rw [if_pos hp] at hd
        rw [Hand.entries, if_pos hp, List.append_nil, hd]
        exact h
      · rw [if_neg hp] at hd
        rw [Hand.entries, if_neg hp]
        generalize opsBetween s s' = ops
        rw [hd.2, state_deliverPublic]
        intro r room hroom hnone
        rw [deliveredIn_append, List.foldl_cons, List.foldl_nil, deliveredStep] at hnone
        by_cases hr : message.roomId = r
        · rw [if_pos hr] at hnone
          exact absurd hnone (List.append_ne_nil_of_right_ne_nil _ (List.cons_ne_nil _ _))
        · rw [if_neg hr] at hnone
          rw [Globals.getElem?_editRoom, if_neg hr] at hroom
          exact h r room hroom hnone
  | resolved message t recipient =>
      intro r room hroom hnone
      rw [deliveredIn_append] at hnone
      rw [hd.2, state_deliverPrivate] at hroom
      exact h r room hroom hnone

theorem Machine.Watched.silent {ok : Machine → Label → Prop} {db : Database}
    {listenSocket : SOCKET} {m : Machine} {w : Watch} (h : Watched ok db listenSocket m w) :
    Silent m.globals w.log := by
  refine (h.induction (P := fun m _ w => Silent m.globals w.log) ?_
    fun m g w l m' g' _ _ _ h hmove => ?_).choose_spec.2
  · intro r room hroom
    simp [boot, Machine.globals, Globals.boot] at hroom
  · generalize w.observe m l m' = w' at hmove
    cases hmove with
    | rest hs =>
        rw [hs]
        exact h
    | wake hs =>
        rw [hs]
        exact h
    | main H hd => exact h.main hd
    | broadcast hd => exact h.broadcast hd
    | @sweep n e m' roomId hs =>
        intro r room' hroom' hnone
        rw [hs] at hroom'
        rcases Effect.messageHistory_apply hroom' with ⟨room, hroom, hhist⟩ | ⟨_, _, _, hne, -⟩
        · rw [hhist]
          exact h r room hroom hnone
        · exact absurd hne (by simp)

/-- The lines that are replayed for what has been delivered. -/
def replayLines (deliveries : List (Message × Bytes)) : List Bytes :=
  deliveries.map fun p => Database.historyLine (p.1.row p.2)

/-- The history of a live room in the table is that of its last deliveries: all of them, each once, as
long as there are not too many. -/
theorem history_subperm {rows : List MessageRow} (hc : ∀ n, e.calls n = true)
    (hid : cString r = r) (hrows : s.database.publicRows r = rows)
    (hnone : rows = [] → ∀ room, s.chatRooms[r]? = some room → room.messageHistory = []) :
    (s.history e r).Subperm (rows.map Database.historyLine) ∧
      (rows.length ≤ MAX_MESSAGE_HISTORY →
        (s.history e r).Perm (rows.map Database.historyLine)) := by
  have hperm := e.order.perm rows
  have hcalls : ∀ n, e.calls (2 + n) = true := fun n => hc (2 + n)
  have hstored := getMessageHistory_eq (r := r) hcalls e.order MAX_MESSAGE_HISTORY s.database
  rw [hid, hrows] at hstored
  have hhist : s.history e r =
      (((e.order.arrange rows).take MAX_MESSAGE_HISTORY).map Database.historyLine).reverse := by
    rw [Globals.history, hstored]
    split
    · rename_i hempty
      have hnil : rows = [] := by
        rw [List.isEmpty_iff, List.reverse_eq_nil_iff, List.map_eq_nil_iff, List.take_eq_nil_iff] at hempty
        rcases hempty with h | h
        · exact absurd h (by decide)
        · rw [h] at hperm
          exact hperm.nil_eq.symm
      rw [List.isEmpty_iff.1 hempty]
      cases hroom : s.chatRooms[r]? with
      | none => rfl
      | some room => exact hnone hnil room hroom
    · rfl
  rw [hhist]
  constructor
  · refine (List.reverse_perm _).subperm.trans ?_
    exact ((List.take_sublist _ _).map _).subperm.trans (hperm.map _).subperm
  · intro hle
    rw [List.take_of_length_le (by rw [hperm.length_eq]; exact hle)]
    exact (List.reverse_perm _).trans (hperm.map _)

end Replay

/-! ## What is sent live -/

/-- What socket operations send to a client. -/
def sentTo (sock : SOCKET) (ops : List NetOp) : List Bytes :=
  ops.filterMap fun op => match op with
    | .sent s text => if s = sock then some text else none
    | _ => none

/-- The lines that deliveries to a room send to a client, in order, each with its message. -/
def liveTo (sock : SOCKET) (r : Bytes) (log : List Entry) : List (Message × Bytes) :=
  log.flatMap fun entry => match entry with
    | .delivered message _ ops =>
        if message.roomId = r then (sentTo sock ops).map fun text => (message, text) else []
    | _ => []

theorem liveTo_append (sock : SOCKET) (r : Bytes) (log log' : List Entry) :
    liveTo sock r (log ++ log') = liveTo sock r log ++ liveTo sock r log' := List.flatMap_append

theorem liveTo_mainEntries (sock : SOCKET) (r : Bytes) (s s' : Globals) :
    liveTo sock r (mainEntries s s') = [] := by
  rw [liveTo, List.flatMap_eq_nil_iff]
  intro entry hentry
  rw [mainEntries, List.mem_append, List.mem_map, List.mem_map] at hentry
  rcases hentry with ⟨q, -, rfl⟩ | ⟨message, -, rfl⟩
  · rfl
  · rfl

section Live

variable {s : Globals} {sock : SOCKET} {r : Bytes} {message : Message}

/-- A delivery sends its line once to every other member. -/
theorem sentTo_publicOps (now : LocalTm) (hin : s.IsMember sock message.roomId)
    (hv : sock ≠ INVALID_SOCKET) : sentTo sock (publicOps message now (targets s message)) =
      if message.senderSocket = sock then []
      else [chatText now.text message.senderName message.content] := by
  obtain ⟨room, hroom, hmem⟩ := hin
  have htargets : targets s message = room.broadcastTargets message.senderSocket := by
    rw [targets, hroom]
    rfl
  -- the member is among the targets once, unless it is the sender
  have hfilter : (room.broadcastTargets message.senderSocket).filter (fun t => t = sock) =
      if message.senderSocket = sock then [] else [sock] := by
    have hnd : room.clients.toList.Nodup :=
      (Std.ExtTreeSet.distinct_toList (t := room.clients)).imp fun h heq => h (by simp [heq])
    rw [ChatRoom.broadcastTargets, List.filter_filter]
    by_cases hs : message.senderSocket = sock
    · rw [if_pos hs, List.filter_eq_nil_iff]
      intro t _ hsel
      simp only [Bool.and_eq_true, decide_eq_true_eq, bne_iff_ne] at hsel
      exact hsel.2.1 (hsel.1.trans hs.symm)
    · have hsame : room.clients.toList.filter (fun t => decide (t = sock) &&
          (t != message.senderSocket && t != INVALID_SOCKET)) =
            room.clients.toList.filter (fun t => t = sock) := by
        refine List.filter_congr fun t _ => ?_
        by_cases ht : t = sock
        · simp [ht, Ne.symm hs, hv]
        · simp [ht]
      rw [if_neg hs, hsame, List.filter_eq, List.count_eq_one_of_mem hnd
        (Std.ExtTreeSet.mem_toList.2 hmem)]
      rfl
  have hsent : ∀ (socks : List SOCKET) (text : Bytes),
      sentTo sock (socks.map fun t => .sent t text) =
        (socks.filter fun t => t = sock).map fun _ => text := by
    intro socks text
    induction socks with
    | nil => rfl
    | cons t socks ih =>
        rw [sentTo] at ih
        by_cases ht : t = sock
        · simp [sentTo, ht, ih]
        · simp [sentTo, ht, ih]
  rw [publicOps, hsent, htargets, hfilter]
  split <;> rfl

end Live

/-! ## While a client is a member -/

/-- What the log says about a room and one of its members since the entries `log₁`: the deliveries
have gone on, and each of them has sent one line to the member unless it sent the message itself. -/
structure LiveSince (sock : SOCKET) (r : Bytes) (log₁ log new : List Entry) : Prop where
  entries : log = log₁ ++ new
  delivered : deliveredIn r log = deliveredIn r log₁ ++ deliveredIn r new
  live : (liveTo sock r new).map Prod.fst =
    ((deliveredIn r new).map Prod.fst).filter fun message => message.senderSocket ≠ sock
  lines : ∀ p ∈ liveTo sock r new, ∃ now, p.2 = chatText (LocalTm.text now) p.1.senderName p.1.content

theorem LiveSince.refl (sock : SOCKET) (r : Bytes) (log : List Entry) :
    LiveSince sock r log log [] :=
  ⟨(List.append_nil _).symm, (List.append_nil _).symm, rfl, fun _ hp => absurd hp List.not_mem_nil⟩

section Since

variable {s s' : Globals} {sock : SOCKET} {r : Bytes} {log₁ log new : List Entry} {e : Env}

/-- An action of a handler delivers nothing. -/
theorem LiveSince.main (h : LiveSince sock r log₁ log new) (hr : r ∈ s.chatRooms)
    (hr' : r ∈ s'.chatRooms) :
    LiveSince sock r log₁ (log ++ mainEntries s s') (new ++ mainEntries s s') := by
  have hnew := deliveredIn_mainEntries (s := s) new hr'
  rw [if_pos hr] at hnew
  refine ⟨by rw [h.entries, List.append_assoc], ?_, ?_, ?_⟩
  · rw [deliveredIn_mainEntries log hr', if_pos hr, hnew]
    exact h.delivered
  · rw [liveTo_append, liveTo_mainEntries, List.append_nil, hnew]
    exact h.live
  · rw [liveTo_append, liveTo_mainEntries, List.append_nil]
    exact h.lines

/-- An entry that is no delivery to the room. -/
theorem LiveSince.other (h : LiveSince sock r log₁ log new) {entry : Entry}
    (hd : ∀ acc, deliveredStep r acc entry = acc) (hl : liveTo sock r [entry] = []) :
    LiveSince sock r log₁ (log ++ [entry]) (new ++ [entry]) := by
  have hsame : ∀ log, deliveredIn r (log ++ [entry]) = deliveredIn r log := by
    intro log
    rw [deliveredIn_append, List.foldl_cons, List.foldl_nil, hd]
  refine ⟨by rw [h.entries, List.append_assoc], ?_, ?_, ?_⟩
  · rw [hsame, hsame]
    exact h.delivered
  · rw [liveTo_append, hl, List.append_nil, hsame]
    exact h.live
  · rw [liveTo_append, hl, List.append_nil]
    exact h.lines

/-- A delivery to the room sends its line to the member. -/
theorem LiveSince.deliver (h : LiveSince sock r log₁ log new) {message : Message}
    (hr : message.roomId = r) (hin : s.IsMember sock r) (hv : sock ≠ INVALID_SOCKET)
    (now : LocalTm) (stamp : Bytes) :
    LiveSince sock r log₁
      (log ++ [.delivered message stamp (publicOps message now (targets s message))])
      (new ++ [.delivered message stamp (publicOps message now (targets s message))]) := by
  have hd : ∀ log, deliveredIn r (log ++ [.delivered message stamp
      (publicOps message now (targets s message))]) = deliveredIn r log ++ [(message, stamp)] := by
    intro log
    rw [deliveredIn_append, List.foldl_cons, List.foldl_nil, deliveredStep, if_pos hr]
  have hl : liveTo sock r [.delivered message stamp (publicOps message now (targets s message))] =
      if message.senderSocket = sock then []
      else [(message, chatText now.text message.senderName message.content)] := by
    rw [liveTo, List.flatMap_singleton]
    dsimp only
    rw [if_pos hr, sentTo_publicOps now (by rw [hr]; exact hin) hv]
    split <;> rfl
  refine ⟨by rw [h.entries, List.append_assoc], ?_, ?_, ?_⟩
  · rw [hd, hd, h.delivered, List.append_assoc]
  · rw [liveTo_append, hd, hl, List.map_append, h.live, List.map_append, List.filter_append]
    by_cases hs : message.senderSocket = sock
    · simp [hs]
    · simp [hs]
  · intro p hp
    rw [liveTo_append, hl, List.mem_append] at hp
    rcases hp with hp | hp
    · exact h.lines p hp
    · split at hp
      · exact absurd hp List.not_mem_nil
      · rw [List.mem_singleton] at hp
        rw [hp]
        exact ⟨now, rfl⟩

theorem LiveSince.broadcast {hand : Hand} (h : LiveSince sock r log₁ log new)
    (hd : hand.Acts e s s') (hin : s.IsMember sock r) (hv : sock ≠ INVALID_SOCKET) :
    LiveSince sock r log₁ (log ++ hand.entries e s s') (new ++ hand.entries e s s') := by
  cases hand with
  | empty =>
      rw [Hand.entries, List.append_nil, List.append_nil]
      exact h
  | taken message =>
      rw [Hand.entries, List.append_nil, List.append_nil]
      exact h
  | found message =>
      rw [Hand.Acts] at hd
      rw [Hand.entries]
      by_cases hp : message.isPrivate = true
      · rw [if_pos hp, List.append_nil, List.append_nil]
        exact h
      · rw [if_neg hp] at hd
        rw [if_neg hp, hd.2, net_deliverPublic]
        by_cases hr : message.roomId = r
        · exact h.deliver hr hin hv (e.wall 0) e.utc.text
        · refine h.other (fun acc => ?_) ?_
          · rw [deliveredStep, if_neg hr]
          · rw [liveTo, List.flatMap_singleton]
            exact if_neg hr
  | resolved message t recipient => exact h.other (fun _ => rfl) rfl

end Since

namespace Machine

variable {ok : Machine → Label → Prop} {db : Database} {listenSocket : SOCKET} {m m₁ m' : Machine}
  {w w₁ w' : Watch} {sock : SOCKET} {r : Bytes}

/-- A step of a watched run after which the client is a member of the room. -/
def Stays (ok : Machine → Label → Prop) (sock : SOCKET) (r : Bytes) (p p' : Machine × Watch) : Prop :=
  WatchStep ok p p' ∧ p'.1.globals.IsMember sock r

/-- While a client stays a member it is sent what is delivered. -/
theorem Watched.live_since (hw : Watched ok db listenSocket m₁ w₁)
    (hin : m₁.globals.IsMember sock r)
    (hstay : Relation.ReflTransGen (Stays ok sock r) (m₁, w₁) (m', w')) :
    Watched ok db listenSocket m' w' ∧ m₁.globals.drawnIds <:+ m'.globals.drawnIds ∧
      ∃ new, LiveSince sock r w₁.log w'.log new := by
  have hv : sock ≠ INVALID_SOCKET := by
    rintro rfl
    exact hw.valid r hin
  have hall : ∀ p : Machine × Watch, Relation.ReflTransGen (Stays ok sock r) (m₁, w₁) p →
      Watched ok db listenSocket p.1 p.2 ∧ p.1.globals.IsMember sock r ∧
        m₁.globals.drawnIds <:+ p.1.globals.drawnIds ∧
          ∃ new, LiveSince sock r w₁.log p.2.log new := by
    intro p hrun
    induction hrun with
    | refl => exact ⟨hw, hin, List.suffix_refl _, [], LiveSince.refl sock r w₁.log⟩
    | @tail q q' _ hstep ih =>
        obtain ⟨hq, hq_in, hsuffix, new, hsince⟩ := ih
        obtain ⟨hwatch, hq_in'⟩ := hstep
        have hq' : Watched ok db listenSocket q'.1 q'.2 := Relation.ReflTransGen.tail hq hwatch
        obtain ⟨l, -, hnext, hw'⟩ := hwatch
        obtain ⟨g, g', hmove⟩ := hq.move hnext
        refine ⟨hq', hq_in', hsuffix.trans hmove.drawnIds, ?_⟩
        rw [← hw'] at hmove
        generalize q'.2 = w₂ at hmove ⊢
        cases hmove with
        | rest _ => exact ⟨new, hsince⟩
        | wake _ => exact ⟨new, hsince⟩
        | main H _ => exact ⟨_, hsince.main hq_in.mem hq_in'.mem⟩
        | broadcast hd => exact ⟨_, hsince.broadcast hd hq_in hv⟩
        | sweep _ _ => exact ⟨new, hsince⟩
  obtain ⟨hw', -, hsuffix, hsince⟩ := hall _ hstay
  exact ⟨hw', hsuffix, hsince⟩

/-- A step in which a JOIN makes the client a member of the room. -/
structure Joins (ok : Machine → Label → Prop) (sock : SOCKET) (r : Bytes) (e : Env) (m : Machine)
    (w : Watch) (m₁ : Machine) (w₁ : Watch) : Prop where
  allowed : ok m (.run .main e)
  next : m.next (.run .main e) = some m₁
  watch : w₁ = w.observe m (.run .main e) m₁
  block : ∃ client password,
    m₁.globals = ((joinRoom sock client r password).exec e m.globals).state
  outside : ¬m.globals.IsMember sock r
  inside : m₁.globals.IsMember sock r

/-- No gap and no duplicate at the boundary of a JOIN. In a run from an empty database, in which every
SQLite call succeeds and the drawn ids are distinct, the history that is replayed to the client is made
of lines for messages that have been delivered in the room before, all of them, each once, unless there
are too many. From then on, as long as the client is a member, each delivery sends it one line unless it
is the sender; and what was delivered before and after are different messages, in the order in which
they were accepted. -/
theorem no_gap_no_duplicate {e : Env} (hw : Watched callsSucceed {} listenSocket m w)
    (hjoin : Joins callsSucceed sock r e m w m₁ w₁)
    (hstay : Relation.ReflTransGen (Stays callsSucceed sock r) (m₁, w₁) (m', w'))
    (hdrawn : m'.globals.drawnIds.Nodup) :
    (∃ lines : List Bytes, replays (opsBetween m.globals m₁.globals) = lines.map (fun text => (sock, text)) ∧
      lines.Subperm (replayLines (deliveredIn r w.log)) ∧
      ((deliveredIn r w.log).length ≤ MAX_MESSAGE_HISTORY →
        lines.Perm (replayLines (deliveredIn r w.log)))) ∧
    ∃ new, w'.log = w₁.log ++ new ∧
      deliveredIn r w'.log = deliveredIn r w.log ++ deliveredIn r new ∧
      (liveTo sock r new).map Prod.fst =
        ((deliveredIn r new).map Prod.fst).filter (fun message => message.senderSocket ≠ sock) ∧
      (∀ p ∈ liveTo sock r new,
        ∃ now, p.2 = chatText (LocalTm.text now) p.1.senderName p.1.content) ∧
      ((deliveredIn r w.log).map Prod.fst ++ (deliveredIn r new).map Prod.fst).Sublist
        (accepted w'.log) := by
  have hw₁ : Watched callsSucceed {} listenSocket m₁ w₁ :=
    hw.tail ⟨_, hjoin.allowed, hjoin.next, hjoin.watch⟩
  obtain ⟨hw', hsuffix, new, hsince⟩ := hw₁.live_since hjoin.inside hstay
  have hmove : m.globals.drawnIds <:+ m₁.globals.drawnIds := by
    obtain ⟨g, g', hmove⟩ := hw.move hjoin.next
    exact hmove.drawnIds
  have hdrawn₀ := hdrawn.sublist (hmove.trans hsuffix).sublist
  obtain ⟨client, password, hblock⟩ := hjoin.block
  -- the admission
  have hinside := hjoin.inside
  rw [hblock] at hinside
  have hadmitted := admitted_of_isMember e m.globals sock client r password hjoin.outside hinside
  have hperforms := performs_joinRoom e m.globals sock client r password hadmitted
  rw [← hblock] at hperforms
  have hlive : r ∈ m.globals.chatRooms := by
    rw [Std.ExtTreeMap.mem_iff_isSome_getElem?]
    cases hroom : m.globals.chatRooms[r]? with
    | none => simp [joinVerdict, hroom] at hadmitted
    | some room => rfl
  have hsame : deliveredIn r w₁.log = deliveredIn r w.log := by
    obtain ⟨g, g', hmove⟩ := hw.move hjoin.next
    rw [← hjoin.watch] at hmove
    generalize w₁ = w₂ at hmove ⊢
    cases hmove with
    | rest _ => rfl
    | main H _ => rw [deliveredIn_mainEntries w.log hjoin.inside.mem, if_pos hlive]
  -- what is replayed
  obtain ⟨g, -, hmirror⟩ := hw.mirrored hdrawn₀
  have hrows : m.globals.database.publicRows r = (deliveredIn r w.log).map fun p => p.1.row p.2 := by
    rw [hmirror.messages r, transcript, if_pos hlive]
  have hid : cString r = r := hw.numbered.cString (hw.numbered.live r hlive)
  have hhist := history_subperm hjoin.allowed hid hrows fun hnil room hroom =>
    hw.silent r room hroom (List.map_eq_nil_iff.1 hnil)
  rw [List.map_map, List.length_map] at hhist
  refine ⟨⟨m.globals.history e r, replays_of_admission hperforms, hhist.1, hhist.2⟩, new,
    hsince.entries, ?_, hsince.live, hsince.lines, ?_⟩
  · rw [hsince.delivered, hsame]
  -- the order
  rw [← hsame, ← List.map_append, ← hsince.delivered]
  exact (deliveredIn_sublist r w'.log).trans ((List.sublist_append_left _ _).trans hw'.inOrder)

/-- Alice has made a room and a message of hers has been delivered; bob is connected. -/
def beforeJoin : List Label :=
  serving (.connect 4) 0 ++ serving (.receive 4 (str "/SETNAME alice")) 0 ++
    serving (.receive 4 (str "/CREATE PUBLIC")) 0 ++ serving (.receive 4 (str "hi")) 0 ++
    delivering ++ serving (.connect 5) 0 ++ serving (.receive 5 (str "/SETNAME bob")) 0

/-- What the JOIN of bob does under both locks. -/
def bobJoins (s : Globals) : Globals :=
  ((joinRoom 5 (s.info 5) (str "100000") []).exec (.midnight 0) (s.setInfo 5 id)).state

theorem no_gap_no_duplicate_bob : ∃ (e : Env) (m m₁ : Machine) (w w₁ : Watch),
    Joins callsSucceed 5 (str "100000") e m w m₁ w₁ ∧
      (deliveredIn (str "100000") w.log).length = 1 ∧ ∃ lines : List Bytes,
        replays (opsBetween m.globals m₁.globals) = lines.map (fun text => (5, text)) ∧
          lines.Perm (replayLines (deliveredIn (str "100000") w.log)) := by
  obtain ⟨m, w, hw, hp⟩ := watched_of_play callsSucceed beforeJoin
    (by
      simp only [beforeJoin, List.forall_mem_append]
      exact ⟨⟨⟨⟨⟨⟨callsSucceed_serving _ _, callsSucceed_serving _ _⟩, callsSucceed_serving _ _⟩,
        callsSucceed_serving _ _⟩, callsSucceed_delivering⟩, callsSucceed_serving _ _⟩,
          callsSucceed_serving _ _⟩)
    (fun m w => decide (m.Idle ∧ (bobJoins m.globals).drawnIds.Nodup ∧
      (deliveredIn (str "100000") w.log).length = 1 ∧
      (Event.receive 5 (str "/JOIN 100000")).CanOccur m.globals ∧
      str "100000" ≠ (m.globals.info 5).roomId ∧ m.config.owner .clientsMutex = none ∧
      m.config.owner .chatRoomsMutex = none) &&
      ((m.globals.chatRooms[str "100000"]?).any fun room => !room.clients.contains 5) &&
      (((bobJoins m.globals).chatRooms[str "100000"]?).any fun room =>
        room.clients.contains 5)) (by decide +kernel)
  simp only [Bool.and_eq_true, decide_eq_true_eq] at hp
  obtain ⟨⟨⟨hidle, hdrawn, hone, hocc, hother, hclients, hrooms⟩, hout⟩, hin⟩ := hp
  have hparams : joinParams (str " 100000") = (str "100000", []) := by decide
  have hev : (Event.receive 5 (str "/JOIN 100000")).handler =
      handleJoinCommand 5 (str " 100000") := by
    have hacted : actedText (str "/JOIN 100000") = some (str "/JOIN 100000") := by decide
    have hparse : parseText (str "/JOIN 100000") = .command (.join (str " 100000")) := by decide
    rw [Event.handler, handleClientMessage, hacted]
    dsimp only
    rw [hparse]
    rfl
  obtain ⟨m', w', m₁, hw', hlog, hs, hnext, hs₁⟩ := hw.comes_to_join (e := .midnight 0) hidle hev
    hocc (by rw [hparams]; decide) (by rw [hparams]; exact hother) hclients hrooms trivial
      fun _ _ => rfl
  rw [hparams, hs] at hs₁
  have hafter : m₁.globals = bobJoins m.globals := hs₁
  rw [← hs] at hs₁
  have hjoin : Joins callsSucceed 5 (str "100000") (.midnight 0) m' w' m₁
      (w'.observe m' (.run .main (.midnight 0)) m₁) := by
    refine ⟨fun _ => rfl, hnext, rfl, ⟨_, _, hs₁⟩, ?_, ?_⟩
    · rintro ⟨room, hroom, hmem⟩
      rw [hs] at hroom
      rw [show m.globals.chatRooms[str "100000"]? = some room from hroom, Option.any_some,
        Std.ExtTreeSet.contains_iff_mem.2 hmem] at hout
      exact absurd hout (by decide)
    · rw [← hafter] at hin
      obtain ⟨room, hroom, hmem⟩ := (Option.any_eq_true _ _).1 hin
      exact ⟨room, hroom, Std.ExtTreeSet.contains_iff_mem.1 hmem⟩
  rw [← hafter] at hdrawn
  obtain ⟨⟨lines, hreplays, -, hperm⟩, -⟩ := no_gap_no_duplicate hw' hjoin .refl hdrawn
  refine ⟨_, m', m₁, w', _, hjoin, by rw [hlog]; exact hone, lines, hreplays, hperm ?_⟩
  rw [hlog, hone]
  decide

end Machine

end TerminalChat.Server
