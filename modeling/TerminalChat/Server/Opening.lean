import Mathlib
import TerminalChat.Server.Joining

/-!
# New rooms

CREATE makes a room in memory and does not look at what the database holds under the id it has drawn.
What an earlier room with the same id has left there, and messages for it that still wait to be
delivered, come to light in the new one. A room of which nothing is left behind starts clean: until it
is deleted, JOIN replays what has been sent in it, and refuses users that have been banned in it
(`Machine.new_room_starts_clean`).
-/

set_option autoImplicit false

namespace TerminalChat.Server

open TerminalChat.Concurrency TerminalChat.Text

variable {s s' : Globals} {e : Env} {r : Bytes}

/-! ## Effects -/

/-- Only BAN adds a row to the bans. -/
theorem Effect.mem_bans_apply {eff : Effect} {row : BanRow}
    (h : row ∈ (eff.apply e s).database.bans) : row ∈ s.database.bans ∨
      ∃ q name, eff = .ban q name ∧ row = ⟨cString q, cString name⟩ := by
  cases eff with
  | leave q sock =>
      dsimp only [Effect.apply] at h
      split at h <;> exact Or.inl h
  | record q isPrivate owner password =>
      dsimp only [Effect.apply, Database.createRoom] at h
      split at h <;> exact Or.inl h
  | credit q name =>
      dsimp only [Effect.apply, Database.updateRoomOwner] at h
      split at h <;> exact Or.inl h
  | rekey q password =>
      dsimp only [Effect.apply, Database.updateRoomPassword] at h
      split at h <;> exact Or.inl h
  | ban q name =>
      dsimp only [Effect.apply, Database.addBan] at h
      split at h
      · rw [List.mem_append, List.mem_singleton] at h
        rcases h with h | h
        · exact Or.inl h
        · exact Or.inr ⟨q, name, rfl, h⟩
      · exact Or.inl h
  | sweep q =>
      dsimp only [Effect.apply] at h
      split at h
      · exact Or.inl (Database.mem_bans_deleteRoom h)
      · exact Or.inl h
  | _ => exact Or.inl h

section Actions

variable {effs : List Effect} {g g' : Note}

theorem Deeds.mem_bans (h : Deeds e effs g s g' s') {row : BanRow}
    (hrow : row ∈ s'.database.bans) : row ∈ s.database.bans ∨
      ∃ q name, .ban q name ∈ effs ∧ row = ⟨cString q, cString name⟩ := by
  refine h.keep (P := fun _ s₁ => row ∈ s₁.database.bans → row ∈ s.database.bans ∨
    ∃ q name, .ban q name ∈ effs ∧ row = ⟨cString q, cString name⟩)
    (fun _ s₁ s₂ hm h => ?_) (fun eff g s₁ hmem _ h hrow => ?_) Or.inl hrow
  · rw [hm.database]
    exact h
  · rcases Effect.mem_bans_apply hrow with hrow | ⟨q, name, rfl, heq⟩
    · exact h hrow
    · exact Or.inr ⟨q, name, hmem, heq⟩

theorem Deeds.create_of_mem (h : Deeds e effs g s g' s') (hnew : r ∉ s.chatRooms)
    (hlive : r ∈ s'.chatRooms) :
    ∃ isPrivate password sock, .create r isPrivate password sock ∈ effs := by
  refine (h.keep (P := fun _ s₁ => r ∈ s₁.chatRooms → r ∈ s.chatRooms ∨
    ∃ isPrivate password sock, .create r isPrivate password sock ∈ effs)
    (fun _ s₁ s₂ hm h => ?_) (fun eff g s₁ hmem _ h hr => ?_) Or.inl hlive).resolve_left hnew
  · rw [hm.rooms]
    exact h
  · rcases Effect.mem_of_mem_apply hr with hr | ⟨isPrivate, password, sock, rfl⟩
    · exact h hr
    · exact Or.inr ⟨isPrivate, password, sock, hmem⟩

end Actions

/-! ## What the log says -/

theorem foldl_acceptedStep_opened (r : Bytes) : ∀ (ids : List Bytes) (acc : List Message),
    (ids.map Entry.opened).foldl (acceptedStep r) acc = if r ∈ ids then [] else acc
  | [], acc => by simp
  | q :: ids, acc => by
      rw [List.map_cons, List.foldl_cons, foldl_acceptedStep_opened r ids, acceptedStep]
      by_cases hq : q = r
      · simp [hq]
      · simp [hq, Ne.symm hq]

theorem foldl_acceptedStep_accepted (r : Bytes) : ∀ (messages acc : List Message),
    (messages.map Entry.accepted).foldl (acceptedStep r) acc =
      acc ++ messages.filter fun message => message.roomId = r
  | [], acc => by simp
  | message :: messages, acc => by
      rw [List.map_cons, List.foldl_cons, foldl_acceptedStep_accepted r messages, acceptedStep]
      by_cases hq : message.roomId = r
      · simp [hq]
      · simp [hq]

/-- After an action of a handler a live room has the messages it had, or is new and has none, and those
that the action has pushed. -/
theorem acceptedIn_mainEntries (log : List Entry) (hr : r ∈ s'.chatRooms) :
    acceptedIn r (log ++ mainEntries s s') = (if r ∈ s.chatRooms then acceptedIn r log else []) ++
      (s'.messageQueue.drop s.messageQueue.length).filter fun message => message.roomId = r := by
  rw [acceptedIn_append, mainEntries, List.foldl_append, foldl_acceptedStep_opened,
    foldl_acceptedStep_accepted]
  by_cases hs : r ∈ s.chatRooms
  · rw [if_pos hs, if_neg]
    intro hmem
    exact absurd hs (by simpa using (List.mem_filter.1 hmem).2)
  · rw [if_neg hs, if_pos]
    exact List.mem_filter.2 ⟨Std.ExtTreeMap.mem_keys.2 hr, by simpa using hs⟩

/-- A delivery accepts nothing. -/
theorem acceptedIn_entries (e : Env) (s s' : Globals) (hand : Hand) (log : List Entry) :
    acceptedIn r (log ++ hand.entries e s s') = acceptedIn r log := by
  rw [acceptedIn_append]
  cases hand with
  | found message =>
      rw [Hand.entries]
      split <;> rfl
  | _ => rfl

/-! ## Clean rooms -/

/-- A line of the history for a message: that of its row, or the line that was delivered. -/
def Message.HasLine (message : Message) (text : Bytes) : Prop :=
  (∃ stamp, text = Database.historyLine (message.row stamp)) ∨
    ∃ now : LocalTm, text = chatText now.text message.senderName message.content

/-- The ban set of a live room. -/
def Globals.bannedIn (s : Globals) (roomId : Bytes) : List Bytes :=
  ((s.chatRooms[roomId]?).map fun room => room.bannedUsers.toList).getD []

/-- Nothing is left of an earlier room with this id: no row that JOIN reads, and no chat message that
waits to be delivered. -/
structure NothingLeft (r : Bytes) (s : Globals) (w : Watch) : Prop where
  messages : s.database.publicRows r = []
  bans : ∀ row ∈ s.database.bans, row.roomId ≠ r
  waiting : ∀ message ∈ w.hand.pending ++ s.messageQueue, message.roomId = r →
    message.isPrivate = true

/-- What the server holds about a live room comes from messages that have been accepted in it since its
creation, and its ban rows from the names. -/
structure Clean (r : Bytes) (names : List Bytes) (s : Globals) (w : Watch) : Prop where
  rows : ∀ row ∈ s.database.publicRows r,
    ∃ message ∈ acceptedIn r w.log, ∃ stamp, row = message.row stamp
  memory : ∀ room, s.chatRooms[r]? = some room → ∀ text ∈ room.messageHistory,
    ∃ message ∈ acceptedIn r w.log, message.HasLine text
  waiting : ∀ message ∈ w.hand.pending ++ s.messageQueue, message.roomId = r →
    message.isPrivate = false → message ∈ acceptedIn r w.log
  bans : ∀ row ∈ s.database.bans, row.roomId = r → ∃ name ∈ names, cString name = row.username
  banned : ∀ name ∈ s.bannedIn r, name ∈ names

theorem mem_bannedIn {room : ChatRoom} (h : s.chatRooms[r]? = some room) {name : Bytes} :
    name ∈ s.bannedIn r ↔ name ∈ room.bannedUsers := by
  rw [Globals.bannedIn, h]
  exact Std.ExtTreeSet.mem_toList

theorem mem_publicRows {db : Database} {row : MessageRow} :
    row ∈ db.publicRows r ↔ row ∈ db.messages ∧ row.roomId = r ∧ row.isPrivate = false := by
  simp [Database.publicRows, List.mem_filter]

section Steps

variable {w : Watch} {names : List Bytes} {g g' : Note} {H : List Mutex}

theorem Clean.mono (h : Clean r names s w) {names' : List Bytes} (hsub : names ⊆ names') :
    Clean r names' s w := by
  refine ⟨h.rows, h.memory, h.waiting, fun row hrow hr => ?_, fun name hn => hsub (h.banned name hn)⟩
  obtain ⟨name, hn, hname⟩ := h.bans row hrow hr
  exact ⟨name, hsub hn, hname⟩

/-- What is in the queue after an action was there before or has been accepted in it. -/
theorem waiting_main (w : Watch) (hd : MainDeed H g g' e s s') (hlive : r ∈ s'.chatRooms)
    {message : Message} (hm : message ∈ w.hand.pending ++ s'.messageQueue)
    (hr : message.roomId = r) : message ∈ w.hand.pending ++ s.messageQueue ∨
      message ∈ acceptedIn r (w.log ++ mainEntries s s') := by
  obtain ⟨effs, ops, hdeeds, -⟩ := hd.deeds
  rw [hdeeds.queue, ← List.append_assoc, List.mem_append] at hm
  rcases hm with hm | hm
  · exact Or.inl hm
  · right
    rw [acceptedIn_mainEntries w.log hlive, hdeeds.queue, List.drop_left]
    exact List.mem_append_right _ (List.mem_filter.2 ⟨hm, by simpa using hr⟩)

/-- CREATE makes a room that is clean when nothing is left of an earlier one. -/
theorem Clean.opened (hd : MainDeed H g g' e s s') (hnew : r ∉ s.chatRooms)
    (hlive : r ∈ s'.chatRooms) (h : NothingLeft r s w) :
    Clean r (s'.bannedIn r) s' { w with log := w.log ++ mainEntries s s' } := by
  obtain ⟨effs, ops, hdeeds, -, -, halone⟩ := hd.deeds
  have hnone : s.chatRooms[r]? = none := Std.ExtTreeMap.getElem?_eq_none hnew
  constructor
  · intro row hrow
    rw [mem_publicRows] at hrow
    have hold : row ∈ s.database.publicRows r := mem_publicRows.2 ⟨hdeeds.mem_messages hrow.1, hrow.2⟩
    rw [h.messages] at hold
    exact absurd hold List.not_mem_nil
  · intro room hroom text ht
    rcases hdeeds.messageHistory hroom with hhist | ⟨room₀, h₀, -⟩
    · rw [hhist] at ht
      exact absurd ht List.not_mem_nil
    · rw [hnone] at h₀
      exact absurd h₀ (by simp)
  · intro message hm hr hpub
    rcases waiting_main w hd hlive hm hr with hold | hacc
    · rw [h.waiting message hold hr] at hpub
      exact absurd hpub (by decide)
    · exact hacc
  · intro row hrow hr
    rcases hdeeds.mem_bans hrow with hrow | ⟨q, name, hban, -⟩
    · exact absurd hr (h.bans row hrow)
    · -- the creation is the whole action
      obtain ⟨isPrivate, password, sock, hcreate⟩ := hdeeds.create_of_mem hnew hlive
      rw [halone _ hcreate trivial, List.mem_singleton] at hban
      exact absurd hban (by simp)
  · exact fun _ hn => hn

/-- An action of a handler keeps a live room clean, up to the names it bans. -/
theorem Clean.main (hd : MainDeed H g g' e s s') (hnum : Numbered s) (hold : r ∈ s.chatRooms)
    (hlive : r ∈ s'.chatRooms) (h : Clean r names s w) :
    Clean r (names ++ s'.bannedIn r) s' { w with log := w.log ++ mainEntries s s' } := by
  obtain ⟨effs, ops, hdeeds, -, -, halone⟩ := hd.deeds
  have hgrow : acceptedIn r w.log ⊆ acceptedIn r (w.log ++ mainEntries s s') := by
    rw [acceptedIn_mainEntries w.log hlive, if_pos hold]
    exact List.subset_append_left _ _
  constructor
  · intro row hrow
    rw [mem_publicRows] at hrow
    -- no action of a handler adds a row to `messages`
    obtain ⟨message, hacc, hrow⟩ :=
      h.rows row (mem_publicRows.2 ⟨hdeeds.mem_messages hrow.1, hrow.2⟩)
    exact ⟨message, hgrow hacc, hrow⟩
  · intro room hroom text ht
    rcases hdeeds.messageHistory hroom with hhist | ⟨room₀, h₀, hhist⟩
    · rw [hhist] at ht
      exact absurd ht List.not_mem_nil
    · rw [hhist] at ht
      obtain ⟨message, hacc, hline⟩ := h.memory room₀ h₀ text ht
      exact ⟨message, hgrow hacc, hline⟩
  · intro message hm hr hpub
    rcases waiting_main w hd hlive hm hr with hm | hacc
    · exact hgrow (h.waiting message hm hr hpub)
    · exact hacc
  · intro row hrow hr
    rcases hdeeds.mem_bans hrow with hrow | ⟨q, name, hban, rfl⟩
    · obtain ⟨name, hn, hname⟩ := h.bans row hrow hr
      exact ⟨name, List.mem_append_left _ hn, hname⟩
    · -- the ban is the whole action, and the room remembers it
      rw [halone _ hban trivial] at hdeeds
      refine ⟨name, List.mem_append_right _ ?_, rfl⟩
      cases hdeeds with
      | cons ha hrest =>
          cases hrest with
          | done hmatch =>
              have hq : q = r := by
                rw [← hr]
                exact (hnum.cString (hnum.live q ha)).symm
              subst hq
              obtain ⟨room, hroom⟩ := Option.isSome_iff_exists.1
                (Std.ExtTreeMap.mem_iff_isSome_getElem?.1 ha)
              have hroom' : s'.chatRooms[q]? = some (room.banUser name) := by
                rw [hmatch.rooms]
                exact (Globals.getElem?_editRoom _ _ _ _).trans (by rw [if_pos rfl, hroom]; rfl)
              rw [mem_bannedIn hroom', ChatRoom.mem_bannedUsers_banUser]
              exact Or.inl rfl
  · exact fun _ hn => List.mem_append_right _ hn

/-- A state that differs in no room, row or message. -/
theorem Clean.congr (h : Clean r names s w) (hr : s'.chatRooms = s.chatRooms)
    (hd : s'.database = s.database) (hq : s'.messageQueue = s.messageQueue) :
    Clean r names s' w := by
  refine ⟨?_, ?_, ?_, ?_, ?_⟩
  · rw [hd]
    exact h.rows
  · rw [hr]
    exact h.memory
  · rw [hq]
    exact h.waiting
  · rw [hd]
    exact h.bans
  · rw [Globals.bannedIn, hr]
    exact h.banned

/-- A sweep takes rows and rooms away. -/
theorem Clean.sweep {q : Bytes} (h : Clean r names s w) :
    Clean r names ((Effect.sweep q).apply e s) w := by
  have hrooms : ∀ room, ((Effect.sweep q).apply e s).chatRooms[r]? = some room →
      s.chatRooms[r]? = some room := by
    intro room hroom
    dsimp only [Effect.apply] at hroom
    split at hroom
    · rw [Globals.getElem?_eraseRoom] at hroom
      split at hroom
      · exact absurd hroom (by simp)
      · exact hroom
    · exact hroom
  have hqueue : ((Effect.sweep q).apply e s).messageQueue = s.messageQueue := by
    rw [Effect.messageQueue_apply]
    exact List.append_nil _
  constructor
  · intro row hrow
    rw [mem_publicRows] at hrow
    exact h.rows row (mem_publicRows.2 ⟨Effect.mem_messages_apply hrow.1, hrow.2⟩)
  · exact fun room hroom => h.memory room (hrooms room hroom)
  · rw [hqueue]
    exact h.waiting
  · intro row hrow hr
    rcases Effect.mem_bans_apply hrow with hrow | ⟨_, _, hne, -⟩
    · exact h.bans row hrow hr
    · exact absurd hne (by simp)
  · intro name hn
    apply h.banned name
    cases hroom : ((Effect.sweep q).apply e s).chatRooms[r]? with
    | none =>
        rw [Globals.bannedIn, hroom] at hn
        exact absurd hn List.not_mem_nil
    | some room =>
        rw [mem_bannedIn hroom] at hn
        rw [mem_bannedIn (hrooms room hroom)]
        exact hn

/-- The broadcaster writes what has been accepted. -/
theorem Clean.broadcast (hd : w.hand.Acts e s s') (hnum : Numbered s) (h : Clean r names s w) :
    Clean r names s' { hand := w.hand.advance s s', log := w.log ++ w.hand.entries e s s' } := by
  have hsame := acceptedIn_entries (r := r) e s s' w.hand w.log
  cases hw : w.hand with
  | empty =>
      -- a test of the queue changes nothing; a pop moves the message from the queue into the hand
      rw [hw] at hd hsame
      rcases hd with rfl | ⟨message, rest, hqueue, rfl⟩
      · refine ⟨?_, ?_, ?_, h.bans, h.banned⟩
        · rw [hsame]
          exact h.rows
        · rw [hsame]
          exact h.memory
        · rw [hsame, advance_empty]
          have hwait := h.waiting
          rw [hw] at hwait
          exact hwait
      · refine ⟨?_, ?_, ?_, h.bans, h.banned⟩
        · rw [hsame]
          exact h.rows
        · rw [hsame]
          exact h.memory
        · rw [hsame]
          have hwait := h.waiting
          rw [hw, hqueue] at hwait
          simp only [Hand.advance, hqueue]
          rw [if_pos (by simp)]
          exact hwait
  | taken message =>
      -- the room is looked up; a message without a room is dropped, which leaves fewer that wait
      rw [hw] at hd hsame
      obtain rfl : s' = s := hd
      refine ⟨?_, ?_, ?_, h.bans, h.banned⟩
      · rw [hsame]
        exact h.rows
      · rw [hsame]
        exact h.memory
      · rw [hsame, Hand.advance]
        have hwait := h.waiting
        rw [hw] at hwait
        dsimp only
        split
        · exact hwait
        · exact fun m hm => hwait m (List.mem_append_right _ hm)
  | found message =>
      rw [hw] at hd hsame
      rw [Hand.Acts] at hd
      have hwait := h.waiting
      rw [hw] at hwait
      by_cases hp : message.isPrivate = true
      · -- the recipient of a private message is looked up
        rw [if_pos hp] at hd
        subst hd
        refine ⟨?_, ?_, ?_, h.bans, h.banned⟩
        · rw [hsame]
          exact h.rows
        · rw [hsame]
          exact h.memory
        · rw [hsame, Hand.advance, if_pos hp]
          exact fun m hm => hwait m (List.mem_append_right _ hm)
      · -- a public message reaches the table and the memory of its room, and is accepted there
        rw [if_neg hp] at hd
        obtain ⟨hlive, hs⟩ := hd
        have hacc : message.roomId = r → message ∈ acceptedIn r w.log := fun hr =>
          hwait message (List.mem_append_left _ (List.mem_singleton_self _)) hr
            (Bool.eq_false_iff.2 hp)
        generalize opsBetween s s' = ops at hsame
        rw [state_deliverPublic] at hs
        refine ⟨?_, ?_, ?_, ?_, ?_⟩
        · rw [hsame, hs]
          intro row hrow
          rw [mem_publicRows] at hrow
          rcases mem_messages_saveMessage hrow.1 with hold | hnew
          · exact h.rows row (mem_publicRows.2 ⟨hold, hrow.2⟩)
          · refine ⟨message, hacc ?_, e.utc.text, hnew⟩
            rw [← hnum.cString (hnum.live _ hlive), ← hrow.2.1, hnew]
        · rw [hsame, hs]
          intro room hroom text ht
          rw [Globals.getElem?_editRoom] at hroom
          split at hroom
          · rename_i hr
            obtain ⟨room₀, h₀, rfl⟩ := Option.map_eq_some_iff.1 hroom
            rcases mem_messageHistory_add ht with ht | rfl
            · exact h.memory room₀ h₀ text ht
            · exact ⟨message, hacc hr, Or.inr ⟨e.wall 0, rfl⟩⟩
          · exact h.memory room hroom text ht
        · rw [hsame, Hand.advance, if_neg hp, hs]
          exact fun m hm => hwait m (List.mem_append_right _ hm)
        · rw [hs]
          intro row hrow
          apply h.bans row
          dsimp only [Database.saveMessage] at hrow
          split at hrow <;> exact hrow
        · have hbans : s'.bannedIn r = s.bannedIn r := by
            rw [hs, Globals.bannedIn, Globals.bannedIn, Globals.getElem?_editRoom]
            split
            · rw [Option.map_map]
              rfl
            · rfl
          rw [hbans]
          exact h.banned
  | resolved message t recipient =>
      -- the row of a private message is no public row
      rw [hw] at hd hsame
      obtain ⟨-, hs⟩ := hd
      generalize opsBetween s s' = ops at hsame
      rw [state_deliverPrivate] at hs
      have hwait := h.waiting
      rw [hw] at hwait
      refine ⟨?_, ?_, ?_, ?_, ?_⟩
      · rw [hsame, hs]
        intro row hrow
        rw [mem_publicRows] at hrow
        dsimp only at hrow
        split at hrow
        · exact h.rows row (mem_publicRows.2 hrow)
        · rcases mem_messages_saveMessage hrow.1 with hold | hnew
          · exact h.rows row (mem_publicRows.2 ⟨hold, hrow.2⟩)
          · rw [hnew] at hrow
            exact absurd hrow.2.2 (by simp)
      · rw [hsame, hs]
        exact h.memory
      · rw [hsame, hs]
        exact hwait
      · rw [hs]
        intro row hrow
        apply h.bans row
        dsimp only [Database.saveMessage] at hrow
        split at hrow
        · exact hrow
        · split at hrow <;> exact hrow
      · rw [hs]
        exact h.banned

/-- A step of a watched run keeps a live room clean, up to the names that are in its ban set. -/
theorem Clean.move {m m' : Machine} {l : Label} {w' : Watch} (hmove : Machine.Move m g w l m' g' w')
    (hnum : Numbered m.globals) (hold : r ∈ m.globals.chatRooms) (hlive : r ∈ m'.globals.chatRooms)
    (h : Clean r names m.globals w) :
    Clean r (names ++ m'.globals.bannedIn r) m'.globals w' := by
  have hsub : names ⊆ names ++ m'.globals.bannedIn r := List.subset_append_left _ _
  cases hmove with
  | rest hs => exact (h.congr (by rw [hs]) (by rw [hs]) (by rw [hs])).mono hsub
  | wake hs => exact (h.congr (by rw [hs]) (by rw [hs]) (by rw [hs])).mono hsub
  | main H hd => exact h.main hd hnum hold hlive
  | broadcast hd => exact (h.broadcast hd hnum).mono hsub
  | sweep roomId hs =>
      rw [hs] at hsub ⊢
      exact h.sweep.mono hsub

/-- What JOIN replays in a clean room are lines of messages accepted in it. -/
theorem Clean.history (h : Clean r names s w) (hid : cString r = r) {text : Bytes}
    (ht : text ∈ s.history e r) : ∃ message ∈ acceptedIn r w.log, message.HasLine text := by
  rw [Globals.history] at ht
  split at ht
  · cases hr : s.chatRooms[r]? with
    | none =>
        rw [hr] at ht
        exact absurd ht List.not_mem_nil
    | some room =>
        rw [hr] at ht
        exact h.memory room hr text ht
  · unfold Database.getMessageHistory at ht
    split at ht
    · rw [List.mem_reverse, List.mem_map] at ht
      obtain ⟨p, hp, rfl⟩ := ht
      have hzip := (List.takeWhile_prefix _).subset hp
      have hmem := List.mem_of_mem_take (List.fst_mem_of_mem_zipIdx hzip)
      rw [(e.order.perm _).mem_iff, hid] at hmem
      obtain ⟨message, hacc, stamp, hrow⟩ := h.rows p.1 hmem
      exact ⟨message, hacc, Or.inl ⟨stamp, by rw [hrow]⟩⟩
    · exact absurd ht List.not_mem_nil

/-- A refusal of a user as banned comes from one of the names. -/
theorem Clean.refused (h : Clean r names s w) (hid : cString r = r) {username password : Bytes}
    (hv : joinVerdict e s r username password = .banned) :
    ∃ name ∈ names, cString name = cString username := by
  cases hr : s.chatRooms[r]? with
  | none => simp [joinVerdict, hr] at hv
  | some room =>
      by_cases hban : (room.isUserBanned username ||
          s.database.isUserBanned e.calls r username) = true
      · rw [Bool.or_eq_true, ChatRoom.isUserBanned_iff] at hban
        rcases hban with hmem | hrow
        · exact ⟨username, h.banned username ((mem_bannedIn hr).2 hmem), rfl⟩
        · rw [Database.isUserBanned, Bool.and_eq_true, List.any_eq_true] at hrow
          obtain ⟨-, row, hrow, heq⟩ := hrow
          rw [Bool.and_eq_true, beq_iff_eq, beq_iff_eq, hid] at heq
          obtain ⟨name, hn, hname⟩ := h.bans row hrow heq.1
          exact ⟨name, hn, hname.trans heq.2⟩
      · rw [joinVerdict, hr] at hv
        dsimp only at hv
        rw [if_neg hban] at hv
        split at hv
        · exact absurd hv (by decide)
        · split at hv <;> exact absurd hv (by decide)

end Steps

/-! ## Along the runs -/

namespace Machine

variable {ok : Machine → Label → Prop} {db : Database} {listenSocket : SOCKET} {m m₁ m' : Machine}
  {w w₁ w' : Watch}

/-- A step in which a CREATE brings the room into being: its id is that of no live room before. -/
structure Opens (ok : Machine → Label → Prop) (r : Bytes) (m : Machine) (w : Watch) (m₁ : Machine)
    (w₁ : Watch) : Prop where
  step : WatchStep ok (m, w) (m₁, w₁)
  fresh : r ∉ m.globals.chatRooms
  live : r ∈ m₁.globals.chatRooms

/-- The run goes on from `p₀` and the room is not deleted; the names are those that have been in its
ban set. -/
inductive Lasting (ok : Machine → Label → Prop) (r : Bytes) (p₀ : Machine × Watch) :
    Machine × Watch → List Bytes → Prop where
  | start : Lasting ok r p₀ p₀ (p₀.1.globals.bannedIn r)
  | step {p p' : Machine × Watch} {names : List Bytes} (h : Lasting ok r p₀ p names)
      (hstep : WatchStep ok p p') (hlive : r ∈ p'.1.globals.chatRooms) :
      Lasting ok r p₀ p' (names ++ p'.1.globals.bannedIn r)

/-- A room that starts clean stays so until it is deleted. -/
theorem Watched.clean {names : List Bytes} (hw : Watched ok db listenSocket m w)
    (hopen : Opens ok r m w m₁ w₁) (hleft : NothingLeft r m.globals w)
    (hlast : Lasting ok r (m₁, w₁) (m', w') names) :
    Watched ok db listenSocket m' w' ∧ r ∈ m'.globals.chatRooms ∧ Clean r names m'.globals w' := by
  have hall : ∀ (p : Machine × Watch) (names : List Bytes), Lasting ok r (m₁, w₁) p names →
      Watched ok db listenSocket p.1 p.2 ∧ r ∈ p.1.globals.chatRooms ∧
        Clean r names p.1.globals p.2 := by
    intro p names h
    induction h with
    | start =>
        refine ⟨hw.tail hopen.step, hopen.live, ?_⟩
        obtain ⟨l, -, hnext, hw₁⟩ := hopen.step
        obtain ⟨g, g', hmove⟩ := hw.move hnext
        rw [← hw₁] at hmove
        have hnew := hopen.fresh
        have hlive := hopen.live
        dsimp only at hmove ⊢
        generalize w₁ = w₂ at hmove ⊢
        -- only an action of a handler makes a room
        cases hmove with
        | rest hs =>
            rw [hs] at hlive
            exact absurd hlive hnew
        | wake hs =>
            rw [hs] at hlive
            exact absurd hlive hnew
        | main H hd => exact Clean.opened hd hnew hlive hleft
        | broadcast hd =>
            obtain ⟨f, hroom⟩ := hd.room r
            rw [Std.ExtTreeMap.mem_iff_isSome_getElem?, hroom, Option.isSome_map,
              ← Std.ExtTreeMap.mem_iff_isSome_getElem?] at hlive
            exact absurd hlive hnew
        | sweep roomId hs =>
            rw [hs] at hlive
            rcases Effect.mem_of_mem_apply hlive with hlive | ⟨_, _, _, hne⟩
            · exact absurd hlive hnew
            · exact absurd hne (by simp)
    | @step p p' names _ hstep hlive ih =>
        obtain ⟨hp, hold, hclean⟩ := ih
        refine ⟨Relation.ReflTransGen.tail hp hstep, hlive, ?_⟩
        obtain ⟨l, -, hnext, hw'⟩ := hstep
        obtain ⟨g, g', hmove⟩ := hp.move hnext
        rw [← hw'] at hmove
        exact hclean.move hmove hp.numbered hold hlive
  exact hall _ names hlast

/-- A new room starts clean when nothing is left of an earlier one. In a run on any database, after a
CREATE whose id is that of no live room and of which neither rows nor waiting chat messages are left,
and until the room is deleted: JOIN replays nothing but lines of messages that have been accepted in
the room since, and refuses a user as banned only if it has been banned in the room since, or agrees
up to the first NUL byte with a user that has. -/
theorem new_room_starts_clean {names : List Bytes} {sock : SOCKET} {client : ClientInfo}
    {password : Bytes} (hw : Watched ok db listenSocket m w) (hopen : Opens ok r m w m₁ w₁)
    (hleft : NothingLeft r m.globals w) (hlast : Lasting ok r (m₁, w₁) (m', w') names) :
    (∀ p ∈ replays (opsBetween m'.globals
        ((joinRoom sock client r password).exec e m'.globals).state),
      p.1 = sock ∧ ∃ message ∈ acceptedIn r w'.log, message.HasLine p.2) ∧
    (joinVerdict e m'.globals r client.username password = .banned →
      (∀ name ∈ names, cString name = cString client.username → name = client.username) →
        client.username ∈ names) := by
  obtain ⟨hw', hlive, hclean⟩ := hw.clean hopen hleft hlast
  have hid : cString r = r := hw'.numbered.cString (hw'.numbered.live r hlive)
  constructor
  · intro p hp
    by_cases hv : joinVerdict e m'.globals r client.username password = .admitted
    · rw [replays_of_admission (performs_joinRoom e _ _ _ _ _ hv), List.mem_map] at hp
      obtain ⟨text, ht, rfl⟩ := hp
      exact ⟨rfl, hclean.history hid ht⟩
    · rw [state_joinRoom, if_neg hv, Globals.send, opsBetween_eq rfl] at hp
      exact absurd hp List.not_mem_nil
  · intro hv hsame
    obtain ⟨name, hn, hname⟩ := hclean.refused hid hv
    rw [← hsame name hn hname]
    exact hn

/-! ### Executable runs -/

/-- Take the steps of a list one after the other, as long as the room is live, and keep the names; steps
that cannot occur are skipped. -/
def playIn (r : Bytes) : (Machine × Watch) × List Bytes → List Label →
    Option ((Machine × Watch) × List Bytes)
  | q, [] => some q
  | q, l :: ls =>
      match q.1.1.next l with
      | some m' =>
          if r ∈ m'.globals.chatRooms then
            playIn r ((m', q.1.2.observe q.1.1 l m'), q.2 ++ m'.globals.bannedIn r) ls
          else none
      | none => playIn r q ls

theorem lasting_of_playIn {p₀ : Machine × Watch} : ∀ (ls : List Label)
    (q q' : (Machine × Watch) × List Bytes), playIn r q ls = some q' →
      Lasting anyStep r p₀ q.1 q.2 → Lasting anyStep r p₀ q'.1 q'.2
  | [], q, q', h, hq => by
      rw [playIn, Option.some.injEq] at h
      rw [← h]
      exact hq
  | l :: ls, q, q', h, hq => by
      rw [playIn] at h
      cases hl : q.1.1.next l with
      | some m' =>
          rw [hl] at h
          dsimp only at h
          split at h
          · rename_i hlive
            exact lasting_of_playIn ls _ q' h (hq.step ⟨l, trivial, hl, rfl⟩ hlive)
          · exact absurd h (by simp)
      | none =>
          rw [hl] at h
          exact lasting_of_playIn ls q q' h hq

/-- The check of a run from a start on `db`: `first` leads to the step that creates the room, `rest`
goes on from there, and `p` looks at the states before the creation and at the end. -/
def opensAndLasts (r : Bytes) (db : Database) (first rest : List Label)
    (p : Machine × Watch → (Machine × Watch) × List Bytes → Bool) : Bool :=
  let q := play (boot db 3, {}) first
  (q.1.next (.run .main (.midnight 0))).any fun m₁ =>
    decide (r ∉ q.1.globals.chatRooms ∧ r ∈ m₁.globals.chatRooms) &&
      (playIn r ((m₁, q.2.observe q.1 (.run .main (.midnight 0)) m₁), m₁.globals.bannedIn r)
        rest).any fun q' => p q q'

theorem lasting_of_check (r : Bytes) (db : Database) (first rest : List Label)
    (p : Machine × Watch → (Machine × Watch) × List Bytes → Bool)
    (h : opensAndLasts r db first rest p = true) : ∃ m w m₁ w₁ m' w' names,
      Watched anyStep db 3 m w ∧ Opens anyStep r m w m₁ w₁ ∧
        Lasting anyStep r (m₁, w₁) (m', w') names ∧ p (m, w) ((m', w'), names) = true := by
  have hq : Relation.ReflTransGen (WatchStep anyStep) (boot db 3, {})
      (play (boot db 3, {}) first) := play_watched first _ fun _ _ _ => trivial
  rw [opensAndLasts] at h
  generalize play (boot db 3, {}) first = q at h hq
  obtain ⟨m₁, hnext, h⟩ := (Option.any_eq_true _ _).1 h
  rw [Bool.and_eq_true, decide_eq_true_eq] at h
  obtain ⟨⟨hfresh, hlive⟩, h⟩ := h
  obtain ⟨q', hplay, hp⟩ := (Option.any_eq_true _ _).1 h
  refine ⟨q.1, q.2, m₁, q.2.observe q.1 (.run .main (.midnight 0)) m₁, q'.1.1, q'.1.2, q'.2, hq,
    ⟨⟨.run .main (.midnight 0), trivial, hnext, rfl⟩, hfresh, hlive⟩, ?_, hp⟩
  exact lasting_of_playIn rest _ q' hplay .start

theorem reachable_play (ls : List Label) : Reachable anyStep (play (boot {} 3, {}) ls).1 :=
  Watched.reachable (w := (play (boot {} 3, {}) ls).2)
    (play_watched ls (boot {} 3, {}) fun _ _ _ => trivial)

/-- The first run on a database: alice makes a room, and what she says there is delivered. -/
def firstServer : List Label :=
  serving (.connect 4) 0 ++ serving (.receive 4 (str "/SETNAME alice")) 0 ++
    serving (.receive 4 (str "/CREATE PUBLIC")) 0 ++ serving (.receive 4 (str "hi")) 0 ++ delivering

/-- A run in which carol makes a room, up to the step in which the room comes into being. -/
def beforeCreation : List Label :=
  serving (.connect 4) 0 ++ serving (.receive 4 (str "/SETNAME carol")) 0 ++
    (serving (.receive 4 (str "/CREATE PUBLIC")) 0).take 6

/-- How that run goes on: bob connects. -/
def afterCreation : List Label :=
  (serving (.receive 4 (str "/CREATE PUBLIC")) 0).drop 7 ++ serving (.connect 5) 0 ++
    serving (.receive 5 (str "/SETNAME bob")) 0

/-- A room that draws the id of a room of an earlier run replays what was said there. -/
theorem not_new_room_starts_clean : ¬∀ (m₀ : Machine), Reachable anyStep m₀ →
    ∀ (m m₁ m' : Machine) (w w₁ w' : Watch) (names : List Bytes),
      Watched anyStep m₀.globals.database 3 m w → Opens anyStep (str "100000") m w m₁ w₁ →
      Lasting anyStep (str "100000") (m₁, w₁) (m', w') names → m'.Idle →
        ∀ p ∈ replays (opsBetween m'.globals ((joinRoom 5 (m'.globals.info 5) (str "100000")
          []).exec (.midnight 0) m'.globals).state),
            ∃ message ∈ acceptedIn (str "100000") w'.log, message.HasLine p.2 := by
  intro h
  obtain ⟨m, w, m₁, w₁, m', w', names, hw, hopen, hlast, hp⟩ :=
    lasting_of_check (str "100000") (play (boot {} 3, {}) firstServer).1.globals.database
      beforeCreation afterCreation (fun _ q => decide (q.1.1.Idle ∧ acceptedIn (str "100000") q.1.2.log = [] ∧
        joinVerdict (.midnight 0) q.1.1.globals (str "100000") (q.1.1.globals.info 5).username [] =
          .admitted ∧ q.1.1.globals.history (.midnight 0) (str "100000") ≠ [])) (by decide +kernel)
  obtain ⟨hidle, hnone, hv, hhist⟩ := of_decide_eq_true hp
  obtain ⟨text, ht⟩ := List.exists_mem_of_ne_nil _ hhist
  have hreplay : ((5, text) : SOCKET × Bytes) ∈ replays (opsBetween m'.globals
      ((joinRoom 5 (m'.globals.info 5) (str "100000") []).exec (.midnight 0) m'.globals).state) := by
    rw [replays_of_admission (performs_joinRoom _ _ _ _ _ _ hv)]
    exact List.mem_map.2 ⟨text, ht, rfl⟩
  obtain ⟨message, hmem, -⟩ :=
    h _ (reachable_play firstServer) m m₁ m' w w₁ w' names hw hopen hlast hidle _ hreplay
  rw [hnone] at hmem
  exact List.not_mem_nil hmem

theorem new_room_starts_clean_bob : ∃ (m m₁ m' : Machine) (w w₁ w' : Watch) (names : List Bytes),
    Watched anyStep {} 3 m w ∧ Opens anyStep (str "100000") m w m₁ w₁ ∧
    Lasting anyStep (str "100000") (m₁, w₁) (m', w') names ∧
    m'.globals.history (.midnight 0) (str "100000") ≠ [] ∧
    ∀ p ∈ replays (opsBetween m'.globals ((joinRoom 5 (m'.globals.info 5) (str "100000")
      []).exec (.midnight 0) m'.globals).state),
        p.1 = 5 ∧ ∃ message ∈ acceptedIn (str "100000") w'.log, message.HasLine p.2 := by
  obtain ⟨m, w, m₁, w₁, m', w', names, hw, hopen, hlast, hp⟩ :=
    lasting_of_check (str "100000") {} beforeCreation
      (afterCreation ++ serving (.receive 4 (str "hi")) 0 ++ delivering)
      (fun q q' => decide (q.1.globals.database.publicRows (str "100000") = [] ∧
        q.1.globals.database.bans = [] ∧ q.2.hand.pending ++ q.1.globals.messageQueue = [] ∧
          q'.1.1.globals.history (.midnight 0) (str "100000") ≠ [])) (by decide +kernel)
  obtain ⟨hrows, hbans, hwait, hhist⟩ := of_decide_eq_true hp
  have hleft : NothingLeft (str "100000") m.globals w := by
    refine ⟨hrows, ?_, ?_⟩
    · rw [show m.globals.database.bans = [] from hbans]
      exact fun row hrow => absurd hrow List.not_mem_nil
    · rw [show w.hand.pending ++ m.globals.messageQueue = [] from hwait]
      exact fun message hm => absurd hm List.not_mem_nil
  exact ⟨m, m₁, m', w, w₁, w', names, hw, hopen, hlast, hhist,
    (new_room_starts_clean hw hopen hleft hlast).1⟩

end Machine

end TerminalChat.Server
