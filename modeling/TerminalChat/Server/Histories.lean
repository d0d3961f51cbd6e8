import Mathlib
import TerminalChat.Query.Sorting
import TerminalChat.Server.Joining

/-!
# The two histories of a room

A room remembers the lines of its last `MAX_MESSAGE_HISTORY` deliveries, in the order in which they were
made. `Database::getMessageHistory` sorts the rows of the room by a timestamp with a resolution of one
second, so the order of the deliveries of one second is lost, and of those in the second of the cut any
may come. `Machine.histories_agree_iff` says when the two agree.
-/

set_option autoImplicit false

namespace TerminalChat.Server

open TerminalChat.Concurrency TerminalChat.Query TerminalChat.Text

/-! ## What the room remembers -/

/-- The lines are those of the last deliveries, with the local time of each. -/
def Remembers (lines : List Bytes) (deliveries : List (Message × Bytes)) : Prop :=
  List.Forall₂ (fun line p => ∃ now : LocalTm, line =
    chatText now.text p.1.senderName p.1.content) lines (deliveries.rtake MAX_MESSAGE_HISTORY)

/-- Every room remembers what has been delivered in it. -/
def Remembering (s : Globals) (log : List Entry) : Prop :=
  ∀ (r : Bytes) (room : ChatRoom), s.chatRooms[r]? = some room →
    Remembers room.messageHistory (deliveredIn r log)

/-- `addMessageToHistory` keeps the last lines. -/
theorem Remembers.addMessage {room : ChatRoom} {deliveries : List (Message × Bytes)}
    (h : Remembers room.messageHistory deliveries) (message : Message) (stamp : Bytes) (e : Env) :
    Remembers (room.addMessageToHistory (message.line e)).messageHistory
      (deliveries ++ [(message, stamp)]) := by
  have hall := List.rel_append h (List.Forall₂.cons (b := (message, stamp))
    ⟨e.wall 0, (rfl : message.line e = _)⟩ List.Forall₂.nil)
  rw [Remembers, rtake_concat, ChatRoom.addMessageToHistory]
  dsimp only
  rw [← hall.length_eq]
  split
  · rw [← List.drop_one, ← List.drop_one]
    exact List.forall₂_drop 1 hall
  · exact hall

section Actions

variable {s s' : Globals} {log : List Entry} {e : Env} {effs : List Effect} {g g' : Note}
  {r : Bytes}

/-- A room that was there before an action of a handler has the history that it had. -/
theorem Deeds.messageHistory_of_mem (h : Deeds e effs g s g' s')
    (halone : ∀ eff ∈ effs, eff.Alone → effs = [eff]) (hn : s'.drawnIds.Nodup)
    (hr : r ∈ s.chatRooms) {room' : ChatRoom} (hroom' : s'.chatRooms[r]? = some room') :
    ∃ room, s.chatRooms[r]? = some room ∧ room'.messageHistory = room.messageHistory := by
  by_cases hcreate : ∃ isPrivate password sock, Effect.create r isPrivate password sock ∈ effs
  · -- a room that comes into being is new
    obtain ⟨isPrivate, password, sock, hmem⟩ := hcreate
    have hdrawn := hn.sublist h.drawnIds.sublist
    rw [halone _ hmem trivial] at h
    cases h with
    | cons ha _ => exact absurd hr (ha.1 hdrawn)
  · refine h.keep (P := fun _ s₁ => ∀ room', s₁.chatRooms[r]? = some room' →
      ∃ room, s.chatRooms[r]? = some room ∧ room'.messageHistory = room.messageHistory)
      (fun _ s₁ s₂ hm h => ?_) (fun eff g s₁ hmem _ h room' hroom' => ?_)
      (fun room hroom => ⟨room, hroom, rfl⟩) room' hroom'
    · rw [hm.rooms]
      exact h
    · rcases Effect.messageHistory_apply hroom' with ⟨room, hroom, hhist⟩ | ⟨_, _, _, rfl, -⟩
      · rw [hhist]
        exact h room hroom
      · exact absurd ⟨_, _, _, hmem⟩ hcreate

theorem Remembering.congr (h : Remembering s log) (hr : s'.chatRooms = s.chatRooms) :
    Remembering s' log := by
  rw [Remembering, hr]
  exact h

/-- An action of a handler writes no history. -/
theorem Remembering.main {H : List Mutex} (h : Remembering s log) (hd : MainDeed H g g' e s s')
    (hn : s'.drawnIds.Nodup) : Remembering s' (log ++ mainEntries s s') := by
  obtain ⟨effs, ops, hdeeds, -, -, halone⟩ := hd.deeds
  intro r room' hroom'
  have hlive : r ∈ s'.chatRooms := by
    rw [Std.ExtTreeMap.mem_iff_isSome_getElem?, hroom']
    rfl
  rw [deliveredIn_mainEntries log hlive]
  split
  · rename_i hr
    obtain ⟨room, hroom, hhist⟩ := hdeeds.messageHistory_of_mem halone hn hr hroom'
    rw [hhist]
    exact h r room hroom
  · rename_i hr
    rcases hdeeds.messageHistory hroom' with hhist | ⟨room, hroom, -⟩
    · rw [hhist]
      exact List.Forall₂.nil
    · rw [Std.ExtTreeMap.getElem?_eq_none hr] at hroom
      exact absurd hroom (by simp)

/-- A delivery goes into the history of its room. -/
theorem Remembering.broadcast {hand : Hand} (h : Remembering s log) (hd : hand.Acts e s s') :
    Remembering s' (log ++ hand.entries e s s') := by
  cases hand with
  | empty =>
      rw [Hand.entries, List.append_nil]
      rcases hd with rfl | ⟨message, rest, -, rfl⟩
      · exact h
      · exact h.congr rfl
  | taken message =>
      rw [Hand.entries, List.append_nil, show s' = s from hd]
      exact h
  | found message =>
      rw [Hand.Acts] at hd
      by_cases hp : message.isPrivate = true
      · rw [if_pos hp] at hd
        rw [Hand.entries, if_pos hp, List.append_nil, hd]
        exact h
      · rw [if_neg hp] at hd
        rw [Hand.entries, if_neg hp]
        generalize opsBetween s s' = ops
        rw [hd.2, state_deliverPublic]
        intro r room' hroom'
        rw [deliveredIn_append, List.foldl_cons, List.foldl_nil, deliveredStep]
        rw [Globals.getElem?_editRoom] at hroom'
        by_cases hr : message.roomId = r
        · rw [if_pos hr] at hroom' ⊢
          obtain ⟨room, hroom, rfl⟩ := Option.map_eq_some_iff.1 hroom'
          exact (h r room hroom).addMessage message e.utc.text e
        · rw [if_neg hr] at hroom' ⊢
          exact h r room' hroom'
  | resolved message t recipient =>
      intro r room hroom
      rw [hd.2, state_deliverPrivate] at hroom
      rw [deliveredIn_append]
      exact h r room hroom

end Actions

/-- Along every watched run in which the drawn ids are distinct, a room remembers its last
deliveries. -/
theorem Machine.Watched.remembering {ok : Machine → Label → Prop} {db : Database}
    {listenSocket : SOCKET} {m : Machine} {w : Watch} (h : Watched ok db listenSocket m w)
    (hn : m.globals.drawnIds.Nodup) : Remembering m.globals w.log := by
  refine (h.induction (P := fun m _ w => m.globals.drawnIds.Nodup → Remembering m.globals w.log)
    (fun _ => ?_) fun m g w l m' g' _ _ _ h hmove hn => ?_).choose_spec.2 hn
  · intro r room hroom
    simp [boot, Machine.globals, Globals.boot] at hroom
  · replace h := h (hn.sublist hmove.drawnIds.sublist)
    generalize w.observe m l m' = w' at hmove
    cases hmove with
    | rest hs =>
        rw [hs]
        exact h
    | wake hs =>
        rw [hs]
        exact h
    | main H hd => exact h.main hd hn
    | broadcast hd => exact h.broadcast hd
    | @sweep n e m' roomId hs =>
        intro r room' hroom'
        rw [hs] at hroom'
        rcases Effect.messageHistory_apply hroom' with ⟨room, hroom, hhist⟩ | ⟨_, _, _, hne, -⟩
        · rw [hhist]
          exact h r room hroom
        · exact absurd hne (by simp)

/-! ## What the database returns -/

/-- The rows whose lines `Database::getMessageHistory` returns. -/
def Database.historyRows (db : Database) (order : DescOrder) (roomId : Bytes) (limit : Nat) :
    List MessageRow :=
  ((order.arrange (db.messages.filter fun row =>
    row.roomId == cString roomId && !row.isPrivate)).take limit).reverse

/-- The sender and the content of a row. -/
def MessageRow.pair (row : MessageRow) : Bytes × Bytes := (row.senderUsername, row.content)

/-- The sender and the content of a message. -/
def Message.pair (message : Message) : Bytes × Bytes := (message.senderName, message.content)

/-- Whatever order SQLite chooses, the rows that the database returns for the room have these senders
and contents. -/
def Database.Retells (db : Database) (roomId : Bytes) (pairs : List (Bytes × Bytes)) : Prop :=
  ∀ (calls : Nat → Bool) (order : DescOrder), (∀ n, calls n = true) →
    db.getMessageHistory calls order roomId MAX_MESSAGE_HISTORY =
      (db.historyRows order roomId MAX_MESSAGE_HISTORY).map Database.historyLine ∧
    (db.historyRows order roomId MAX_MESSAGE_HISTORY).map MessageRow.pair = pairs

theorem getMessageHistory_eq_historyRows {calls : Nat → Bool} (hc : ∀ n, calls n = true)
    (order : DescOrder) (r : Bytes) (limit : Nat) (db : Database) :
    db.getMessageHistory calls order r limit =
      (db.historyRows order r limit).map Database.historyLine := by
  rw [getMessageHistory_eq hc, Database.historyRows, List.map_reverse, Database.publicRows]

/-- The arrangement of one table is chosen. -/
def DescOrder.choose (rows a : List MessageRow) (hp : a.Perm rows)
    (ha : a.Pairwise fun x y => y.timestamp ≤ x.timestamp) : DescOrder where
  arrange l := if l = rows then a else DescOrder.stable.arrange l
  perm l := by
    split
    · rename_i hl
      rw [hl]
      exact hp
    · exact DescOrder.stable.perm l
  sorted l := by
    split
    · exact ha
    · exact DescOrder.stable.sorted l

/-- The database retells the last rows exactly when rows of one second agree. -/
theorem retells_iff {db : Database} {r : Bytes} (hid : cString r = r)
    (hclock : Chronological MessageRow.timestamp (db.publicRows r)) :
    db.Retells r (((db.publicRows r).rtake MAX_MESSAGE_HISTORY).map MessageRow.pair) ↔
      TiesAgree MessageRow.timestamp MessageRow.pair MAX_MESSAGE_HISTORY (db.publicRows r) := by
  have hrows : ∀ order : DescOrder, db.historyRows order r MAX_MESSAGE_HISTORY =
      (order.arrange (db.publicRows r)).reverse.rtake MAX_MESSAGE_HISTORY := by
    intro order
    rw [Database.historyRows, hid, List.rtake_eq_reverse_take_reverse, List.reverse_reverse]
    rfl
  rw [← rtake_eq_iff hclock]
  constructor
  · intro h a hp ha
    have hdesc : a.reverse.Pairwise fun x y => y.timestamp ≤ x.timestamp := by
      rw [List.pairwise_reverse]
      exact ha
    have hshown := (h (fun _ => true) (.choose (db.publicRows r) a.reverse
      ((List.reverse_perm a).trans hp) hdesc) fun _ => rfl).2
    rw [hrows, DescOrder.choose] at hshown
    simpa using hshown
  · intro h calls order hc
    refine ⟨getMessageHistory_eq_historyRows hc order r _ db, ?_⟩
    rw [hrows]
    apply h
    · exact (List.reverse_perm _).trans (order.perm _)
    · rw [Chronological, List.pairwise_reverse]
      exact order.sorted _

/-! ## The two histories -/

theorem cString_eq_self {s : Bytes} (h : 0 ∉ s) : cString s = s := by
  apply List.takeWhile_eq_self_iff.2
  intro c hc
  simp only [bne_iff_ne, ne_eq]
  rintro rfl
  exact h hc

/-- There is no NUL byte in the name or in the content. -/
structure Message.NulFree (message : Message) : Prop where
  name : 0 ∉ message.senderName
  content : 0 ∉ message.content

theorem pair_row {message : Message} (h : message.NulFree) (stamp : Bytes) :
    (message.row stamp).pair = message.pair := by
  rw [MessageRow.pair, Message.pair, Message.row]
  dsimp only
  rw [cString_eq_self h.name, cString_eq_self h.content]

namespace Machine

variable {listenSocket : SOCKET} {m : Machine} {w : Watch} {r : Bytes} {room : ChatRoom}

/-- The two histories of a live room agree exactly when messages of one second agree. In a run from an
empty database, in which every SQLite call succeeds, the drawn ids are distinct, the messages of the room
have no NUL bytes and the database clock does not go back, the room remembers the lines of its last
deliveries in order. The database retells these, whatever order SQLite chooses, exactly when any two
deliveries of the same second, the later of them among the last ones, have the same sender and the same
content. -/
theorem histories_agree_iff (h : Watched callsSucceed {} listenSocket m w)
    (hdrawn : m.globals.drawnIds.Nodup) (hroom : m.globals.chatRooms[r]? = some room)
    (htext : ∀ p ∈ deliveredIn r w.log, p.1.NulFree)
    (hclock : (deliveredIn r w.log).Pairwise fun p q => p.2 ≤ q.2) :
    Remembers room.messageHistory (deliveredIn r w.log) ∧
      (m.globals.database.Retells r
          (((deliveredIn r w.log).rtake MAX_MESSAGE_HISTORY).map fun p => p.1.pair) ↔
        TiesAgree Prod.snd (fun p => p.1.pair) MAX_MESSAGE_HISTORY (deliveredIn r w.log)) := by
  refine ⟨h.remembering hdrawn r room hroom, ?_⟩
  have hlive : r ∈ m.globals.chatRooms := by
    rw [Std.ExtTreeMap.mem_iff_isSome_getElem?, hroom]
    rfl
  have hid : cString r = r := h.numbered.cString (h.numbered.live r hlive)
  obtain ⟨g, -, hmirror⟩ := h.mirrored hdrawn
  have hrows : m.globals.database.publicRows r = (deliveredIn r w.log).map fun p => p.1.row p.2 := by
    rw [hmirror.messages r, transcript, if_pos hlive]
  -- the rows show what the messages say
  have hpairs : ∀ p ∈ deliveredIn r w.log, (p.1.row p.2).pair = p.1.pair :=
    fun p hp => pair_row (htext p hp) p.2
  have hlast : ((m.globals.database.publicRows r).rtake MAX_MESSAGE_HISTORY).map MessageRow.pair =
      ((deliveredIn r w.log).rtake MAX_MESSAGE_HISTORY).map fun p => p.1.pair := by
    rw [hrows, List.rtake, List.rtake, List.length_map, ← List.map_drop, List.map_map]
    apply List.map_congr_left
    intro p hp
    exact hpairs p (List.mem_of_mem_drop hp)
  have hsorted : Chronological MessageRow.timestamp (m.globals.database.publicRows r) := by
    rw [hrows, Chronological, List.pairwise_map]
    exact hclock
  rw [← hlast, retells_iff hid hsorted, hrows, tiesAgree_map]
  constructor
  · intro hties
    exact hties.congr hpairs
  · intro hties
    exact hties.congr fun p hp => (hpairs p hp).symm

/-- Alice makes a room and says the same thing twice within one second. -/
def sayingTwice (first second : Bytes) : List Label :=
  serving (.connect 4) 0 ++ serving (.receive 4 (str "/SETNAME alice")) 0 ++
    serving (.receive 4 (str "/CREATE PUBLIC")) 0 ++ serving (.receive 4 first) 0 ++ delivering ++
    serving (.receive 4 second) 0 ++ delivering

theorem callsSucceed_sayingTwice (first second : Bytes) :
    ∀ l ∈ sayingTwice first second, ∀ m, callsSucceed m l := by
  simp only [sayingTwice, List.forall_mem_append]
  exact ⟨⟨⟨⟨⟨⟨callsSucceed_serving _ _, callsSucceed_serving _ _⟩, callsSucceed_serving _ _⟩,
    callsSucceed_serving _ _⟩, callsSucceed_delivering⟩, callsSucceed_serving _ _⟩,
    callsSucceed_delivering⟩

theorem histories_agree_iff_twice : ∃ m w, Watched callsSucceed {} 3 m w ∧
    (deliveredIn (str "100000") w.log).length = 2 ∧
      m.globals.database.Retells (str "100000")
        [(str "alice", str "hi"), (str "alice", str "hi")] := by
  obtain ⟨m, w, hw, hp⟩ := watched_of_play callsSucceed (sayingTwice (str "hi") (str "hi"))
    (callsSucceed_sayingTwice _ _)
    (fun m w => decide (m.globals.drawnIds.Nodup ∧ str "100000" ∈ m.globals.chatRooms ∧
      deliveredIn (str "100000") w.log = List.replicate 2
        (⟨4, str "hi", str "100000", str "alice", false, []⟩, (Env.midnight 0).utc.text)))
    (by decide +kernel)
  obtain ⟨hdrawn, hlive, hlog⟩ := of_decide_eq_true hp
  obtain ⟨room, hroom⟩ := Option.isSome_iff_exists.1 (Std.ExtTreeMap.mem_iff_isSome_getElem?.1 hlive)
  have hties := (histories_agree_iff hw hdrawn hroom
    (by
      intro p hp
      rw [hlog] at hp
      rw [List.eq_of_mem_replicate hp]
      exact ⟨by decide, by decide⟩)
    (by
      rw [hlog]
      exact List.pairwise_replicate.2 (Or.inr (List.le_refl _)))).2
  rw [hlog] at hties
  refine ⟨m, w, hw, ?_, ?_⟩
  · rw [hlog, List.length_replicate]
  · apply hties.2
    intro i j _ _ _ _
    rw [List.getElem_replicate, List.getElem_replicate]

/-- Two different messages of one second: SQLite may return them in either order, and with an order
that keeps equal timestamps as they stand in the table the database returns them the wrong way
round. -/
theorem not_histories_agree : ¬∀ (m : Machine) (w : Watch) (r : Bytes) (room : ChatRoom),
    Watched callsSucceed {} 3 m w → m.globals.drawnIds.Nodup →
      m.globals.chatRooms[r]? = some room → (∀ p ∈ deliveredIn r w.log, p.1.NulFree) →
        (deliveredIn r w.log).Pairwise (fun p q => p.2 ≤ q.2) →
          m.globals.database.Retells r
            (((deliveredIn r w.log).rtake MAX_MESSAGE_HISTORY).map fun p => p.1.pair) := by
  intro h
  obtain ⟨m, w, hw, hp⟩ := watched_of_play callsSucceed (sayingTwice (str "hi") (str "ho"))
    (callsSucceed_sayingTwice _ _)
    (fun m w => decide (m.globals.drawnIds.Nodup ∧ str "100000" ∈ m.globals.chatRooms ∧
      (∀ p ∈ deliveredIn (str "100000") w.log, 0 ∉ p.1.senderName ∧ 0 ∉ p.1.content) ∧
      (deliveredIn (str "100000") w.log).Pairwise (fun p q : Message × Bytes => p.2 ≤ q.2) ∧
      (m.globals.database.historyRows .stable (str "100000") MAX_MESSAGE_HISTORY).map
        MessageRow.pair ≠ ((deliveredIn (str "100000") w.log).rtake MAX_MESSAGE_HISTORY).map
          fun p => p.1.pair)) (by decide +kernel)
  obtain ⟨hdrawn, hlive, htext, hclock, hne⟩ := of_decide_eq_true hp
  obtain ⟨room, hroom⟩ := Option.isSome_iff_exists.1 (Std.ExtTreeMap.mem_iff_isSome_getElem?.1 hlive)
  apply hne
  exact (h m w _ room hw hdrawn hroom (fun p hp => ⟨(htext p hp).1, (htext p hp).2⟩) hclock
    (fun _ => true) .stable fun _ => rfl).2

end Machine

end TerminalChat.Server
