import Mathlib
import TerminalChat.Server.Deliveries
import TerminalChat.Server.Doing
import TerminalChat.Server.Lines

/-!
# What the history holds

The rows of `messages`, the memory of a room and what JOIN replays hold nothing but lines of messages
that the broadcaster has delivered in this run, and rows that the database had at its start
(`Machine.Watched.recalled`).
-/

set_option autoImplicit false

namespace TerminalChat.Server

open TerminalChat.Concurrency TerminalChat.Text

/-- The row that the delivery of a message inserts. -/
def Message.row (message : Message) (stamp : Bytes) : MessageRow where
  roomId := cString message.roomId
  senderUsername := cString message.senderName
  content := cString message.content
  isPrivate := false
  recipientUsername := none
  timestamp := stamp

/-- What the server has written into every row of `messages`: the name of the sender and the time are
on one line. -/
def Database.Written (db : Database) : Prop :=
  ∀ row ∈ db.messages, OneLine row.senderUsername ∧ OneLine row.timestamp

/-- A line of the history and the content it carries: the line of a row that the database had at the
start or of a message that has been delivered, or the line that was delivered. -/
inductive Recorded (db : Database) (log : List Entry) : Bytes → Bytes → Prop where
  | earlier {row : MessageRow} (h : row ∈ db.messages) :
      Recorded db log (Database.historyLine row) row.content
  | stored {message : Message} {stamp : Bytes} {ops : List NetOp}
      (h : .delivered message stamp ops ∈ log) :
      Recorded db log (Database.historyLine (message.row stamp)) (cString message.content)
  | remembered {message : Message} {stamp : Bytes} {ops : List NetOp} (now : LocalTm)
      (h : .delivered message stamp ops ∈ log) :
      Recorded db log (chatText now.text message.senderName message.content) message.content

/-- The text is a line of the history. -/
def IsRecorded (db : Database) (log : List Entry) (text : Bytes) : Prop :=
  ∃ content, Recorded db log text content

/-- The history holds nothing but what has been recorded. -/
structure Recalled (db : Database) (s : Globals) (log : List Entry) : Prop where
  rows : ∀ row ∈ s.database.messages, row.isPrivate = false →
    IsRecorded db log (Database.historyLine row)
  memory : ∀ (r : Bytes) (room : ChatRoom), s.chatRooms[r]? = some room →
    ∀ text ∈ room.messageHistory, IsRecorded db log text

variable {db : Database} {log log' : List Entry} {s s' : Globals} {e : Env}

theorem IsRecorded.append {text : Bytes} (h : IsRecorded db log text) (log' : List Entry) :
    IsRecorded db (log ++ log') text := by
  obtain ⟨content, h⟩ := h
  refine ⟨content, ?_⟩
  cases h with
  | earlier h => exact .earlier h
  | stored h => exact .stored (List.mem_append_left log' h)
  | remembered now h => exact .remembered now (List.mem_append_left log' h)

theorem Recalled.append (h : Recalled db s log) (log' : List Entry) :
    Recalled db s (log ++ log') :=
  ⟨fun row hrow hp => (h.rows row hrow hp).append log',
    fun r room hroom text ht => (h.memory r room hroom text ht).append log'⟩

/-! ## Effects -/

/-- No effect adds a message to the database. -/
theorem Effect.mem_messages_apply {eff : Effect} {row : MessageRow}
    (h : row ∈ (eff.apply e s).database.messages) : row ∈ s.database.messages := by
  cases eff with
  | leave roomId sock =>
      dsimp only [Effect.apply] at h
      split at h <;> exact h
  | record roomId isPrivate owner password =>
      dsimp only [Effect.apply, Database.createRoom] at h
      split at h <;> exact h
  | credit roomId name =>
      dsimp only [Effect.apply, Database.updateRoomOwner] at h
      split at h <;> exact h
  | ban roomId name =>
      dsimp only [Effect.apply, Database.addBan] at h
      split at h <;> exact h
  | rekey roomId password =>
      dsimp only [Effect.apply, Database.updateRoomPassword] at h
      split at h <;> exact h
  | sweep roomId =>
      dsimp only [Effect.apply] at h
      split at h
      · exact Database.mem_messages_deleteRoom h
      · exact h
  | _ => exact h

/-- An effect writes no history: a room after it was there before, with the same history, or has just
been created. -/
theorem Effect.messageHistory_apply {eff : Effect} {r : Bytes} {room' : ChatRoom}
    (h : (eff.apply e s).chatRooms[r]? = some room') :
    (∃ room, s.chatRooms[r]? = some room ∧ room'.messageHistory = room.messageHistory) ∨
      ∃ isPrivate password sock, eff = .create r isPrivate password sock ∧
        room'.messageHistory = [] := by
  -- no edit of a handler touches the memory
  have hedit : ∀ {q : Bytes} {f : ChatRoom → ChatRoom},
      (s.editRoom q f).chatRooms[r]? = some room' →
        (∀ room, (f room).messageHistory = room.messageHistory) →
          ∃ room, s.chatRooms[r]? = some room ∧ room'.messageHistory = room.messageHistory := by
    intro q f hroom hf
    rw [Globals.getElem?_editRoom] at hroom
    split at hroom
    · obtain ⟨room, hr, rfl⟩ := Option.map_eq_some_iff.1 hroom
      exact ⟨room, hr, hf room⟩
    · exact ⟨room', hroom, rfl⟩
  cases eff with
  | depart q sock => exact Or.inl (hedit h fun _ => rfl)
  | leave q sock =>
      rw [leave_rooms] at h
      exact Or.inl (hedit h fun _ => rfl)
  | expel q sock => exact Or.inl (hedit h fun _ => rfl)
  | enter q sock => exact Or.inl (hedit h fun _ => rfl)
  | appoint q sock => exact Or.inl (hedit h fun _ => rfl)
  | ban q name => exact Or.inl (hedit h fun _ => rfl)
  | rekey q password => exact Or.inl (hedit h fun _ => rfl)
  | create q isPrivate password sock =>
      rw [Effect.apply, Globals.getElem?_insertRoom] at h
      split at h
      · rename_i hq
        rw [hq]
        rw [Option.some.injEq] at h
        exact Or.inr ⟨isPrivate, password, sock, rfl, by rw [← h]; rfl⟩
      · exact Or.inl ⟨room', h, rfl⟩
  | sweep q =>
      dsimp only [Effect.apply] at h
      split at h
      · rw [Globals.getElem?_eraseRoom] at h
        split at h
        · exact absurd h (by simp)
        · exact Or.inl ⟨room', h, rfl⟩
      · exact Or.inl ⟨room', h, rfl⟩
  | _ => exact Or.inl ⟨room', h, rfl⟩

/-- What JOIN replays has been recorded. -/
theorem Recalled.history (h : Recalled db s log) {r text : Bytes} (ht : text ∈ s.history e r) :
    IsRecorded db log text := by
  rw [Globals.history] at ht
  split at ht
  · cases hr : s.chatRooms[r]? with
    | none =>
        rw [hr] at ht
        exact absurd ht List.not_mem_nil
    | some room =>
        rw [hr] at ht
        exact h.memory r room hr text ht
  · unfold Database.getMessageHistory at ht
    split at ht
    · rw [List.mem_reverse, List.mem_map] at ht
      obtain ⟨p, hp, rfl⟩ := ht
      have hzip := (List.takeWhile_prefix _).subset hp
      have hmem := List.mem_of_mem_take (List.fst_mem_of_mem_zipIdx hzip)
      rw [(e.order.perm _).mem_iff, List.mem_filter, Bool.and_eq_true, Bool.not_eq_true'] at hmem
      exact h.rows p.1 hmem.1 hmem.2.2
    · exact absurd ht List.not_mem_nil

theorem Recalled.effect {eff : Effect} (h : Recalled db s log) :
    Recalled db (eff.apply e s) log := by
  refine ⟨fun row hrow => h.rows row (Effect.mem_messages_apply hrow), fun r room hroom text ht => ?_⟩
  rcases Effect.messageHistory_apply hroom with ⟨room₀, h₀, hhist⟩ | ⟨_, _, _, -, hhist⟩
  · rw [hhist] at ht
    exact h.memory r room₀ h₀ text ht
  · rw [hhist] at ht
    exact absurd ht List.not_mem_nil

theorem Recalled.congr (h : Recalled db s log) (hd : s'.database = s.database)
    (hr : s'.chatRooms = s.chatRooms) : Recalled db s' log := by
  constructor
  · rw [hd]
    exact h.rows
  · rw [hr]
    exact h.memory

/-! ## Along the runs -/

section Actions

variable {effs : List Effect} {g g' : Note}

/-- No action of a handler adds a message to the database. -/
theorem Deeds.mem_messages (h : Deeds e effs g s g' s') {row : MessageRow}
    (hrow : row ∈ s'.database.messages) : row ∈ s.database.messages := by
  refine h.keep (P := fun _ s₁ => row ∈ s₁.database.messages → row ∈ s.database.messages)
    (fun _ s₁ s₂ hm h => ?_) (fun eff g s₁ _ _ h hrow => ?_) id hrow
  · rw [hm.database]
    exact h
  · exact h (Effect.mem_messages_apply hrow)

/-- An action of a handler writes no history: a room after it was there before, with the same history,
or has none. -/
theorem Deeds.messageHistory (h : Deeds e effs g s g' s') {r : Bytes} {room' : ChatRoom}
    (hroom' : s'.chatRooms[r]? = some room') : room'.messageHistory = [] ∨
      ∃ room, s.chatRooms[r]? = some room ∧ room'.messageHistory = room.messageHistory := by
  refine h.keep (P := fun _ s₁ => ∀ room', s₁.chatRooms[r]? = some room' →
    room'.messageHistory = [] ∨
      ∃ room, s.chatRooms[r]? = some room ∧ room'.messageHistory = room.messageHistory)
    (fun _ s₁ s₂ hm h => ?_) (fun eff g s₁ _ _ h room' hroom' => ?_)
    (fun room hroom => Or.inr ⟨room, hroom, rfl⟩) room' hroom'
  · rw [hm.rooms]
    exact h
  · rcases Effect.messageHistory_apply hroom' with ⟨room, hroom, hhist⟩ | ⟨_, _, _, -, hhist⟩
    · rw [hhist]
      exact h room hroom
    · exact Or.inl hhist

end Actions

/-- An action of a handler writes no history. -/
theorem Recalled.main {H : List Mutex} {g g' : Note} (h : Recalled db s log)
    (hd : MainDeed H g g' e s s') : Recalled db s' log := by
  obtain ⟨effs, ops, hdeeds, -⟩ := hd.deeds
  exact hdeeds.keep (P := fun _ s => Recalled db s log)
    (fun _ _ _ hm h => h.congr hm.database hm.rooms) (fun _ _ _ _ _ h => h.effect) h

/-- A handler replays only what has been recorded. -/
theorem Recalled.replays {H : List Mutex} {g g' : Note} (h : Recalled db s log)
    (hd : MainDeed H g g' e s s') {t : SOCKET} {text : Bytes}
    (ht : .replayed t text ∈ s'.net) : .replayed t text ∈ s.net ∨ IsRecorded db log text := by
  obtain ⟨effs, ops, -, hnet, hops, -⟩ := hd.deeds
  rw [hnet, List.mem_append] at ht
  rcases ht with ht | ht
  · exact Or.inl ht
  · have hmem : (t, text) ∈ effs.flatMap (Effect.replays e s) := by
      rw [← hops]
      exact List.mem_filterMap.2 ⟨_, ht, rfl⟩
    obtain ⟨eff, -, hmem⟩ := List.mem_flatMap.1 hmem
    cases eff with
    | enter r sock =>
        obtain ⟨text', htext, heq⟩ := List.mem_map.1 hmem
        rw [Prod.mk.injEq] at heq
        rw [heq.2] at htext
        exact Or.inr (h.history htext)
    | _ => exact absurd hmem List.not_mem_nil

theorem mem_messages_saveMessage {calls : Nat → Bool} {stamp roomId sender content : Bytes}
    {isPrivate : Bool} {recipient : Bytes} {db : Database} {row : MessageRow}
    (h : row ∈ (db.saveMessage calls stamp roomId sender content isPrivate recipient).messages) :
    row ∈ db.messages ∨ row = {
      roomId := cString roomId
      senderUsername := cString sender
      content := cString content
      isPrivate := isPrivate
      recipientUsername := if recipient.isEmpty then none else some (cString recipient)
      timestamp := stamp } := by
  unfold Database.saveMessage at h
  split at h
  · rw [List.mem_append, List.mem_singleton] at h
    exact h
  · exact Or.inl h

theorem mem_messageHistory_add {room : ChatRoom} {text line : Bytes}
    (h : text ∈ (room.addMessageToHistory line).messageHistory) :
    text ∈ room.messageHistory ∨ text = line := by
  rw [ChatRoom.addMessageToHistory] at h
  have hmem : text ∈ room.messageHistory ++ [line] := by
    dsimp only at h
    split at h
    · exact List.mem_of_mem_tail h
    · exact h
  rw [List.mem_append, List.mem_singleton] at hmem
  exact hmem

/-- A delivery to a room records its message, one to a recipient nothing that is replayed. -/
theorem Recalled.broadcast {hand : Hand} (h : Recalled db s log) (hd : hand.Acts e s s') :
    Recalled db s' (log ++ hand.entries e s s') := by
  cases hand with
  | empty =>
      rcases hd with rfl | ⟨message, rest, -, rfl⟩
      · exact h.append _
      · exact (h.append _).congr rfl rfl
  | taken message =>
      have hsame : s' = s := hd
      rw [hsame]
      exact h.append _
  | found message =>
      rw [Hand.Acts] at hd
      by_cases hp : message.isPrivate = true
      · rw [if_pos hp] at hd
        rw [hd]
        exact h.append _
      · rw [if_neg hp] at hd
        obtain ⟨-, rfl⟩ := hd
        -- the entry that the new row and the new line of the memory come from
        have hnew : .delivered message e.utc.text (opsBetween s ((deliverPublic message).exec e s).state)
            ∈ log ++ (Hand.found message).entries e s ((deliverPublic message).exec e s).state := by
          rw [Hand.entries, if_neg hp]
          exact List.mem_append_right log (List.mem_singleton_self _)
        have h' := h.append ((Hand.found message).entries e s ((deliverPublic message).exec e s).state)
        generalize log ++ (Hand.found message).entries e s _ = log' at hnew h' ⊢
        generalize opsBetween s _ = ops at hnew
        rw [state_deliverPublic]
        constructor
        · intro row hrow hpub
          rcases mem_messages_saveMessage hrow with hrow | rfl
          · exact h'.rows row hrow hpub
          · exact ⟨_, .stored hnew⟩
        · intro r room hroom text ht
          rw [Globals.getElem?_editRoom] at hroom
          split at hroom
          · obtain ⟨room₀, h₀, rfl⟩ := Option.map_eq_some_iff.1 hroom
            rcases mem_messageHistory_add ht with ht | rfl
            · exact h'.memory r room₀ h₀ text ht
            · exact ⟨_, .remembered (e.wall 0) hnew⟩
          · exact h'.memory r room hroom text ht
  | resolved message t recipient =>
      have hstate : s' = ((deliverPrivate message t).exec e s).state := hd.2
      rw [hstate]
      have h' := h.append ((Hand.resolved message t recipient).entries e s
        ((deliverPrivate message t).exec e s).state)
      generalize log ++ (Hand.resolved message t recipient).entries e s _ = log' at h' ⊢
      rw [state_deliverPrivate]
      refine ⟨fun row hrow hpub => ?_, h'.memory⟩
      dsimp only at hrow
      split at hrow
      · exact h'.rows row hrow hpub
      · rcases mem_messages_saveMessage hrow with hrow | rfl
        · exact h'.rows row hrow hpub
        · -- the new row is private
          exact absurd hpub (by simp)

/-- A delivery replays nothing. -/
theorem replayed_broadcast {hand : Hand} (hd : hand.Acts e s s') {t : SOCKET} {text : Bytes}
    (ht : .replayed t text ∈ s'.net) : .replayed t text ∈ s.net := by
  cases hand with
  | empty =>
      rcases hd with rfl | ⟨message, rest, -, rfl⟩
      · exact ht
      · exact ht
  | taken message =>
      have hsame : s' = s := hd
      rw [hsame] at ht
      exact ht
  | found message =>
      rw [Hand.Acts] at hd
      split at hd
      · rw [hd] at ht
        exact ht
      · rw [hd.2, state_deliverPublic] at ht
        rcases List.mem_append.1 ht with ht | ht
        · exact ht
        · simp [publicOps] at ht
  | resolved message u recipient =>
      have hstate : s' = ((deliverPrivate message u).exec e s).state := hd.2
      rw [hstate, state_deliverPrivate] at ht
      rcases List.mem_append.1 ht with ht | ht
      · exact ht
      · rw [privateOps] at ht
        split at ht <;> simp at ht

namespace Machine

variable {ok : Machine → Label → Prop} {listenSocket : SOCKET} {m : Machine} {w : Watch}

/-- Along every watched run the history holds nothing but what has been recorded, and nothing else is
replayed. -/
theorem Watched.recalled (h : Watched ok db listenSocket m w) : Recalled db m.globals w.log ∧
    ∀ t text, .replayed t text ∈ m.globals.net → IsRecorded db w.log text := by
  have hkeep := h.induction (P := fun m _ w => Recalled db m.globals w.log ∧
    ∀ t text, .replayed t text ∈ m.globals.net → IsRecorded db w.log text) ?_
  · refine (hkeep fun m g w l m' g' _ _ _ h hmove => ?_).choose_spec.2
    clear hkeep
    obtain ⟨h, hnet⟩ := h
    generalize w.observe m l m' = w' at hmove
    cases hmove with
    | rest hs =>
        rw [hs]
        exact ⟨h.congr rfl rfl, hnet⟩
    | wake hs =>
        rw [hs]
        exact ⟨h.congr rfl rfl, hnet⟩
    | main H hd =>
        refine ⟨(h.main hd).append _, fun t text ht => ?_⟩
        rcases h.replays hd ht with ht | ht
        · exact (hnet t text ht).append _
        · exact ht.append _
    | broadcast hd =>
        exact ⟨h.broadcast hd, fun t text ht => (hnet t text (replayed_broadcast hd ht)).append _⟩
    | sweep roomId hs =>
        rw [hs]
        refine ⟨h.effect, fun t text ht => ?_⟩
        rw [Effect.net_apply] at ht
        exact hnet t text ht
  · refine ⟨⟨fun row hrow _ => ⟨_, .earlier hrow⟩, fun r room hroom => ?_⟩, fun t text ht => ?_⟩
    · simp [Globals.boot, Machine.globals, boot] at hroom
    · exact absurd ht List.not_mem_nil

/-- A server leaves its database as it may find it when it is started again. -/
theorem Watched.written (h : Watched ok db listenSocket m w) (hdb : db.Written) :
    m.globals.database.Written := by
  refine (h.induction (P := fun m _ _ => m.globals.database.Written) hdb
    fun m g w l m' g' hrun _ _ h hmove => ?_).choose_spec.2
  -- a row is written for an accepted message, whose sender has a name in one line
  have hsave : ∀ {e : Env} {message : Message} {isPrivate : Bool} {recipient : Bytes},
      message.Accepted → (m.globals.database.saveMessage e.calls e.utc.text message.roomId
        message.senderName message.content isPrivate recipient).Written := by
    intro e message isPrivate recipient hm row hrow
    rcases mem_messages_saveMessage hrow with hrow | rfl
    · exact h row hrow
    · exact ⟨hm.named.oneLine.sublist (List.takeWhile_sublist _), oneLine_utcTime e.utc⟩
  have hhand := hrun.deliverable.hand
  generalize w.observe m l m' = w' at hmove
  cases hmove with
  | rest hs =>
      rw [hs]
      exact h
  | wake hs =>
      rw [hs]
      exact h
  | main H hd =>
      obtain ⟨effs, ops, hdeeds, -⟩ := hd.deeds
      refine hdeeds.keep (P := fun _ s => s.database.Written) (fun _ s s' hm h => ?_)
        (fun eff _ s _ _ h => fun row hrow => h row (Effect.mem_messages_apply hrow)) h
      rw [hm.database]
      exact h
  | broadcast hd =>
      cases hw : w.hand with
      | empty =>
          rw [hw] at hd
          rcases hd with hs | ⟨message, rest, -, hs⟩
          · rw [hs]
            exact h
          · rw [hs]
            exact h
      | taken message =>
          rw [hw] at hd
          rw [show m'.globals = m.globals from hd]
          exact h
      | found message =>
          rw [hw] at hd hhand
          rw [Hand.Acts] at hd
          split at hd
          · rw [hd]
            exact h
          · rw [hd.2, state_deliverPublic]
            exact hsave hhand
      | resolved message t recipient =>
          rw [hw] at hd hhand
          rw [hd.2, state_deliverPrivate]
          dsimp only
          split
          · exact h
          · exact hsave hhand.1
  | sweep roomId hs =>
      rw [hs]
      exact fun row hrow => h row (Effect.mem_messages_apply hrow)

end Machine

end TerminalChat.Server
