import Mathlib
import TerminalChat.Server.Lifecycle
import TerminalChat.Server.Mirror

/-!
# The two stores of the server

CREATE, CHANGEPASSWORD, BAN, the deliveries and the cleanups update `g_chatRooms` and the database side
by side. In a run in which every SQLite call succeeds the two say the same whenever no handler is in
progress (`Machine.tables_match_rooms`); in between a handler may owe the row of the room it has just made.
-/

set_option autoImplicit false

namespace TerminalChat.Server

open TerminalChat.Concurrency TerminalChat.Text

/-! ## Sheets and transcripts -/

def ChatRoom.sheet (room : ChatRoom) : Sheet := ⟨room.isPrivate, room.password, room.bannedUsers⟩

/-- The sheet of a live room. -/
def Globals.sheet (s : Globals) (roomId : Bytes) : Option Sheet :=
  (s.chatRooms[roomId]?).map ChatRoom.sheet

/-- The rows of what has been delivered in a live room since its creation. -/
def transcript (s : Globals) (log : List Entry) (roomId : Bytes) : List MessageRow :=
  if roomId ∈ s.chatRooms then (deliveredIn roomId log).map fun p => p.1.row p.2 else []

section Sheets

variable {s s' : Globals} {q r : Bytes} {f : ChatRoom → ChatRoom} {room : ChatRoom}

theorem sheet_of_rooms (h : s'.chatRooms = s.chatRooms) : s'.sheet = s.sheet := by
  funext r
  rw [Globals.sheet, h, Globals.sheet]

theorem isSome_sheet : (s.sheet r).isSome ↔ r ∈ s.chatRooms := by
  rw [Globals.sheet, Option.isSome_map, Std.ExtTreeMap.mem_iff_isSome_getElem?]

theorem sheet_of_getElem? (h : s.chatRooms[r]? = some room) : s.sheet r = some room.sheet := by
  rw [Globals.sheet, h]
  rfl

/-- An edit that leaves the sheet alone. -/
theorem sheet_editRoom_same (hf : ∀ room, (f room).sheet = room.sheet) :
    (s.editRoom q f).sheet = s.sheet := by
  funext r
  rw [Globals.sheet, Globals.getElem?_editRoom, Globals.sheet]
  split
  · rw [Option.map_map]
    exact congrArg (fun g => (s.chatRooms[r]?).map g) (funext hf)
  · rfl

theorem sheet_editRoom (h : s.chatRooms[q]? = some room) :
    (s.editRoom q f).sheet = Function.update s.sheet q (some (f room).sheet) := by
  funext r
  rw [Globals.sheet, Globals.getElem?_editRoom]
  by_cases he : r = q
  · rw [he, if_pos rfl, Function.update_self, h]
    rfl
  · rw [if_neg (Ne.symm he), Function.update_of_ne he, Globals.sheet]

theorem sheet_insertRoom :
    (s.insertRoom q room).sheet = Function.update s.sheet q (some room.sheet) := by
  funext r
  rw [Globals.sheet, Globals.getElem?_insertRoom]
  by_cases he : r = q
  · rw [he, if_pos rfl, Function.update_self]
    rfl
  · rw [if_neg (Ne.symm he), Function.update_of_ne he, Globals.sheet]

theorem sheet_erase : ({ s with chatRooms := s.chatRooms.erase q } : Globals).sheet =
    Function.update s.sheet q none := by
  funext r
  rw [Globals.sheet, Globals.getElem?_eraseRoom]
  by_cases he : r = q
  · rw [he, if_pos rfl, Function.update_self]
    rfl
  · rw [if_neg (Ne.symm he), Function.update_of_ne he, Globals.sheet]

end Sheets

theorem foldl_opened (r : Bytes) : ∀ (ids : List Bytes) (acc : List (Message × Bytes)),
    (ids.map Entry.opened).foldl (deliveredStep r) acc = if r ∈ ids then [] else acc
  | [], acc => by simp
  | q :: ids, acc => by
      rw [List.map_cons, List.foldl_cons, foldl_opened r ids, deliveredStep]
      by_cases hq : q = r
      · simp [hq]
      · simp [hq, Ne.symm hq]

theorem foldl_accepted (r : Bytes) : ∀ (messages : List Message) (acc : List (Message × Bytes)),
    (messages.map Entry.accepted).foldl (deliveredStep r) acc = acc
  | [], _ => rfl
  | _ :: messages, acc => foldl_accepted r messages acc

/-- After an action of a handler a live room has the deliveries it had, or is new and has none. -/
theorem deliveredIn_mainEntries {s s' : Globals} {r : Bytes} (log : List Entry)
    (hr : r ∈ s'.chatRooms) : deliveredIn r (log ++ mainEntries s s') =
      if r ∈ s.chatRooms then deliveredIn r log else [] := by
  rw [deliveredIn_append, mainEntries, List.foldl_append, foldl_opened, foldl_accepted]
  by_cases hs : r ∈ s.chatRooms
  · rw [if_pos hs, if_neg]
    intro hmem
    exact absurd hs (by simpa using (List.mem_filter.1 hmem).2)
  · rw [if_neg hs, if_pos]
    exact List.mem_filter.2 ⟨Std.ExtTreeMap.mem_keys.2 hr, by simpa using hs⟩

theorem transcript_main {s s' : Globals} (log : List Entry) (r : Bytes) :
    transcript s' (log ++ mainEntries s s') r =
      if r ∈ s'.chatRooms then transcript s log r else [] := by
  rw [transcript, transcript]
  by_cases hr : r ∈ s'.chatRooms
  · rw [if_pos hr, if_pos hr, deliveredIn_mainEntries log hr]
    split <;> rfl
  · rw [if_neg hr, if_neg hr]

/-! ## Effects -/

section Effects

variable {s s' : Globals} {e : Env} {g : Note} {rows : Bytes → List MessageRow}

/-- The stores of the server mirror each other. -/
def Mirrored (g : Note) (rows : Bytes → List MessageRow) (s : Globals) : Prop :=
  Mirror s.sheet g.unrecorded rows s.database

theorem Mirrored.congr (h : Mirrored g rows s) (hsheet : s'.sheet = s.sheet)
    (hd : s'.database = s.database) : Mirrored g rows s' := by
  rw [Mirrored, hsheet, hd]
  exact h

/-- An effect other than a sweep keeps the two stores together. -/
theorem Mirrored.effect {eff : Effect} (h : Mirrored g rows s) (hc : ∀ n, e.calls n = true)
    (ha : eff.Allowed g s) (hnum : Numbered s) (hn : s.drawnIds.Nodup)
    (hne : ∀ r, eff ≠ .sweep r) : Mirrored (eff.after g) rows (eff.apply e s) := by
  -- what changes only members, owners or memory changes no sheet
  have hsame : ∀ {q : Bytes} {f : ChatRoom → ChatRoom}, (∀ room, (f room).sheet = room.sheet) →
      Mirrored g rows (s.editRoom q f) := fun hf => h.congr (sheet_editRoom_same hf) rfl
  cases eff with
  | depart q sock => exact hsame fun _ => rfl
  | leave q sock =>
      have hleft := hsame (q := q) (f := fun room => room.removeClient sock) fun _ => rfl
      refine hleft.congr (sheet_of_rooms (leave_rooms e s q sock)) ?_
      simp only [Effect.apply]
      split <;> rfl
  | expel q sock => exact hsame fun _ => rfl
  | enter q sock => exact hsame fun _ => rfl
  | appoint q sock => exact hsame fun _ => rfl
  | create q isPrivate password sock =>
      -- the room is live, and its row still owed
      obtain ⟨hfresh, hdrawn, hp, -⟩ := ha
      have hnone : s.sheet q = none := by
        rw [Globals.sheet, Std.ExtTreeMap.getElem?_eq_none (hfresh hn)]
        rfl
      rw [Mirrored, Effect.apply, sheet_insertRoom]
      exact h.create hnone (hnum.cString hdrawn) hp
  | record q isPrivate owner password =>
      -- the row that was owed
      obtain ⟨-, room, hroom, rfl, rfl⟩ := ha
      exact Mirror.record h hc (sheet_of_getElem? hroom) owner
  | credit q name => exact Mirror.credit h q name
  | ban q name =>
      obtain ⟨room, hroom⟩ := Option.isSome_iff_exists.1
        (Std.ExtTreeMap.mem_iff_isSome_getElem?.1 ha)
      have hedit : ((Effect.ban q name).apply e s).sheet = _ :=
        sheet_editRoom (f := fun room => room.banUser name) hroom
      rw [Mirrored, hedit]
      exact Mirror.ban h hc (sheet_of_getElem? hroom) name
  | rekey q password =>
      obtain ⟨hp, room, hroom, hpriv⟩ := ha
      have hedit : ((Effect.rekey q password).apply e s).sheet = _ :=
        sheet_editRoom (f := fun room => room.setPassword password) hroom
      rw [Mirrored, hedit]
      exact Mirror.rekey h hc (sheet_of_getElem? hroom) hpriv hp
  | sweep q => exact absurd rfl (hne q)
  | draw q => exact h
  | push message => exact h

/-- A sweep takes a room out of both stores. -/
theorem Mirrored.sweep {log : List Entry} {r : Bytes} (h : Mirrored g (transcript s log) s)
    (hc : ∀ n, e.calls n = true) : Mirrored g (transcript ((Effect.sweep r).apply e s) log)
      ((Effect.sweep r).apply e s) := by
  rw [Effect.apply]
  by_cases hd : s.Deserted r
  · rw [if_pos hd]
    obtain ⟨room, hroom⟩ := Option.isSome_iff_exists.1
      (Std.ExtTreeMap.mem_iff_isSome_getElem?.1 hd.mem)
    have hrows : transcript { s with
        chatRooms := s.chatRooms.erase r
        database := (s.database.deleteRoom e.calls r).2 } log =
          Function.update (transcript s log) r [] := by
      funext q
      rw [transcript]
      by_cases he : q = r
      · rw [he, Function.update_self, if_neg (by simp)]
      · have hlive : q ∈ s.chatRooms.erase r ↔ q ∈ s.chatRooms := by
          simp [Std.ExtTreeMap.mem_erase, Ne.symm he]
        rw [Function.update_of_ne he, transcript]
        simp only [hlive]
    rw [hrows, Mirrored]
    have hsheet : Globals.sheet { s with
        chatRooms := s.chatRooms.erase r
        database := (s.database.deleteRoom e.calls r).2 } = Function.update s.sheet r none :=
      sheet_erase
    rw [hsheet]
    exact Mirror.sweep h hc (sheet_of_getElem? hroom)
  · rw [if_neg hd]
    exact h

/-- An action of a handler keeps the two stores together. -/
theorem Mirrored.main {H : List Mutex} {g' : Note} {log : List Entry}
    (h : Mirrored g (transcript s log) s) (hc : ∀ n, e.calls n = true)
    (hd : MainDeed H g g' e s s') (hnum : Numbered s) (hn : s'.drawnIds.Nodup) :
    Mirrored g' (transcript s' (log ++ mainEntries s s')) s' := by
  obtain ⟨effs, ops, hdeeds, -, -, halone⟩ := hd.deeds
  -- the transcripts of the live rooms are the old ones; a dead room has none
  have hrows : ∀ rows : Bytes → List MessageRow,
      (∀ r ∈ s'.chatRooms, rows r = transcript s log r) → (∀ r ∉ s'.chatRooms, rows r = []) →
        rows = transcript s' (log ++ mainEntries s s') := by
    intro rows hin hout
    funext r
    rw [transcript_main]
    by_cases hr : r ∈ s'.chatRooms
    · rw [if_pos hr, hin r hr]
    · rw [if_neg hr, hout r hr]
  by_cases hsweep : ∃ r, Effect.sweep r ∈ effs
  · -- the sweep is the whole action
    obtain ⟨r, hr⟩ := hsweep
    rw [halone _ hr trivial] at hdeeds
    cases hdeeds with
    | cons _ hrest =>
        cases hrest with
        | done hm =>
            have hswept := (h.sweep (r := r) hc).congr (sheet_of_rooms hm.rooms) hm.database
            rw [← hrows (transcript ((Effect.sweep r).apply e s) log) ?_ ?_]
            · exact hswept
            · intro q hq
              rw [hm.rooms] at hq
              have hold : q ∈ s.chatRooms := by
                dsimp only [Effect.apply] at hq
                split at hq
                · exact (Std.ExtTreeMap.mem_erase.1 hq).2
                · exact hq
              rw [transcript, transcript, if_pos hq, if_pos hold]
            · intro q hq
              rw [hm.rooms] at hq
              rw [transcript, if_neg hq]
  · -- without a sweep the effects of the action go through one by one
    have hkeep := hdeeds.keep (P := fun g s₁ => s₁.drawnIds.Nodup →
      Mirrored g (transcript s log) s₁ ∧ Numbered s₁ ∧ ∀ r ∈ s.chatRooms, r ∈ s₁.chatRooms)
      (fun g s₁ s₂ hm h hn => ?_) (fun eff g s₁ hmem ha h hn => ?_) fun _ => ⟨h, hnum, fun _ hr => hr⟩
    · obtain ⟨hmirror, -, hlive⟩ := hkeep hn
      rw [← hrows (transcript s log) (fun _ _ => rfl) fun r hr => ?_]
      · exact hmirror
      · rw [transcript, if_neg fun hs => hr (hlive r hs)]
    · rw [hm.drawn] at hn
      obtain ⟨hmirror, hnum, hlive⟩ := h hn
      refine ⟨hmirror.congr (sheet_of_rooms hm.rooms) hm.database, hnum.congr hm.drawn ?_, ?_⟩
      · rw [hm.rooms]
        exact fun _ hr => hr
      · rw [hm.rooms]
        exact hlive
    · have hn' : s₁.drawnIds.Nodup := hn.sublist (Effect.drawnIds_suffix e s₁ eff).sublist
      obtain ⟨hmirror, hnum, hlive⟩ := h hn'
      have hne : ∀ r, eff ≠ .sweep r := by
        rintro r rfl
        exact hsweep ⟨r, hmem⟩
      exact ⟨hmirror.effect hc ha hnum hn' hne, hnum.effect ha,
        fun r hr => Effect.mem_apply (hne r) (hlive r hr)⟩

/-- A delivery goes into the table and into the transcript of the room. -/
theorem Mirrored.broadcast {hand : Hand} {log : List Entry} (h : Mirrored g (transcript s log) s)
    (hc : ∀ n, e.calls n = true) (hd : hand.Acts e s s') :
    Mirrored g (transcript s' (log ++ hand.entries e s s')) s' := by
  -- nothing is delivered: the rows stay
  have hquiet : ∀ {s' : Globals}, s'.chatRooms = s.chatRooms → s'.database = s.database →
      Mirrored g (transcript s' log) s' := by
    intro s' hrooms hdb
    have hsame : transcript s' log = transcript s log := by
      funext r
      rw [transcript, transcript, hrooms]
    rw [hsame]
    exact h.congr (sheet_of_rooms hrooms) hdb
  cases hand with
  | empty =>
      rw [Hand.entries, List.append_nil]
      rcases hd with rfl | ⟨message, rest, -, rfl⟩
      · exact h
      · exact hquiet rfl rfl
  | taken message =>
      rw [Hand.entries, List.append_nil, show s' = s from hd]
      exact h
  | found message =>
      rw [Hand.Acts] at hd
      by_cases hp : message.isPrivate = true
      · rw [if_pos hp] at hd
        rw [Hand.entries, if_pos hp, List.append_nil, hd]
        exact h
      · rw [if_neg hp] at hd
        obtain ⟨hlive, hs⟩ := hd
        obtain ⟨sheet, hr⟩ := Option.isSome_iff_exists.1 (isSome_sheet.2 hlive)
        have hsaved := Mirror.save h hc hr e.utc.text message.senderName message.content false []
        rw [Hand.entries, if_neg hp]
        generalize opsBetween s s' = ops
        have hsheet : s'.sheet = s.sheet := by
          rw [hs, state_deliverPublic]
          exact sheet_editRoom_same fun _ => rfl
        have hdb : s'.database = s.database.saveMessage e.calls e.utc.text message.roomId
            message.senderName message.content false [] := by rw [hs, state_deliverPublic]
        -- the delivery adds one row to the transcript of its room
        have hrows : transcript s' (log ++ [.delivered message e.utc.text ops]) =
            Function.update (transcript s log) message.roomId
              (transcript s log message.roomId ++ [message.row e.utc.text]) := by
          funext r
          have hmem : r ∈ s'.chatRooms ↔ r ∈ s.chatRooms := by
            rw [← isSome_sheet, hsheet, isSome_sheet]
          rw [transcript, deliveredIn_append, List.foldl_cons, List.foldl_nil, deliveredStep]
          by_cases he : r = message.roomId
          · rw [if_pos he.symm, he, Function.update_self, transcript, if_pos hlive, if_pos, List.map_append]
            · rfl
            · rw [← he, hmem, he]
              exact hlive
          · rw [if_neg (Ne.symm he), Function.update_of_ne he, transcript]
            simp only [hmem]
        rw [Mirrored, hrows, hsheet, hdb, Message.row, h.ids hr]
        exact hsaved
  | resolved message t recipient =>
      obtain ⟨hlive, hs⟩ := hd
      obtain ⟨sheet, hr⟩ := Option.isSome_iff_exists.1 (isSome_sheet.2 hlive)
      rw [state_deliverPrivate] at hs
      have hrooms : s'.chatRooms = s.chatRooms := by rw [hs]
      -- a private message is in no transcript, and its row in no public history
      have hrows : transcript s' (log ++ (Hand.resolved message t recipient).entries e s s') =
          transcript s log := by
        funext r
        rw [transcript, transcript, hrooms, deliveredIn_append]
        rfl
      rw [hrows, Mirrored, sheet_of_rooms hrooms, hs]
      dsimp only
      split
      · exact h
      · exact Mirror.save h hc hr e.utc.text message.senderName message.content true
          message.recipientName

end Effects

/-! ## Along the runs -/

/-- The tables say what the rooms say, texts compared up to their first NUL byte. -/
structure TablesMatch (s : Globals) (log : List Entry) : Prop where
  roomsOnce : (s.database.rooms.map RoomRow.roomId).Nodup
  rooms : ∀ r, r ∈ s.database.rooms.map RoomRow.roomId ↔ r ∈ s.chatRooms
  shown : ∀ row ∈ s.database.rooms, ∀ room, s.chatRooms[row.roomId]? = some room →
    row.isPrivate = room.isPrivate ∧
      row.passwordHash = if room.isPrivate then some (cString room.password) else none
  bansOnce : s.database.bans.Nodup
  banned : ∀ r room, s.chatRooms[r]? = some room → ∀ name,
    ⟨r, name⟩ ∈ s.database.bans ↔ ∃ user ∈ room.bannedUsers, cString user = name
  messages : ∀ r ∈ s.chatRooms,
    s.database.publicRows r = (deliveredIn r log).map fun p => p.1.row p.2
  bansLive : ∀ row ∈ s.database.bans, row.roomId ∈ s.chatRooms
  messagesLive : ∀ row ∈ s.database.messages, row.roomId ∈ s.chatRooms

/-- Stores that mirror each other match when every room has its row. -/
theorem Mirrored.tables {s : Globals} {log : List Entry}
    (h : Mirrored {} (transcript s log) s) : TablesMatch s log := by
  constructor
  · exact h.unique
  · intro r
    constructor
    · intro hr
      obtain ⟨row, hrow, rfl⟩ := List.mem_map.1 hr
      obtain ⟨sheet, hs, -⟩ := h.shown row hrow
      exact isSome_sheet.1 (by rw [hs]; rfl)
    · intro hr
      obtain ⟨sheet, hs⟩ := Option.isSome_iff_exists.1 (isSome_sheet.2 hr)
      exact (h.recorded hs).resolve_left List.not_mem_nil
  · intro row hrow room hroom
    obtain ⟨sheet, hs, hshow⟩ := h.shown row hrow
    rw [sheet_of_getElem? hroom, Option.some.injEq] at hs
    rw [← hs] at hshow
    exact ⟨hshow.isPrivate, hshow.password⟩
  · exact h.bansOnce
  · exact fun r room hroom name => Mirror.banned_of_some h (sheet_of_getElem? hroom) name
  · intro r hr
    rw [h.messages r, transcript, if_pos hr]
  · intro row hrow
    obtain ⟨sheet, hs, -⟩ := (h.banned row.roomId row.username).1 hrow
    exact isSome_sheet.1 (by rw [hs]; rfl)
  · exact fun row hrow => isSome_sheet.1 (h.placed row hrow)

namespace Machine

variable {listenSocket : SOCKET} {m : Machine} {w : Watch}

/-- Every SQLite call succeeds. -/
def callsSucceed : Machine → Label → Prop
  | _, .run _ e => ∀ n, e.calls n = true
  | _, _ => True

theorem callsSucceed_serving (ev : Event) (draw : Fin 900000) :
    ∀ l ∈ serving ev draw, ∀ m, callsSucceed m l := by
  intro l hl m
  rcases List.mem_cons.1 hl with rfl | hl
  · exact trivial
  · rw [List.eq_of_mem_replicate hl]
    exact fun _ => rfl

theorem callsSucceed_delivering : ∀ l ∈ delivering, ∀ m, callsSucceed m l := by
  intro l hl m
  rcases List.mem_cons.1 hl with rfl | hl
  · exact trivial
  · rw [List.eq_of_mem_replicate hl]
    exact fun _ => rfl

/-- Along every watched run from an empty database, in which every SQLite call succeeds and the drawn
ids are distinct, the two stores mirror each other. -/
theorem Watched.mirrored (h : Watched callsSucceed {} listenSocket m w)
    (hn : m.globals.drawnIds.Nodup) :
    ∃ g, (m.Idle → g = {}) ∧ Mirrored g (transcript m.globals w.log) m.globals := by
  have hboot : Mirrored {} (transcript (Globals.boot {} listenSocket) [])
      (Globals.boot {} listenSocket) := by
    have hsheet : Globals.sheet (Globals.boot {} listenSocket) = fun _ => none := by
      funext r
      rw [Globals.sheet, Globals.boot, Std.ExtTreeMap.getElem?_empty]
      rfl
    have hrows : transcript (Globals.boot {} listenSocket) [] = fun _ => [] := by
      funext r
      rw [transcript, if_neg (by exact Std.ExtTreeMap.not_mem_empty)]
    rw [Mirrored, hsheet, hrows]
    exact Mirror.empty
  have hkeep := h.induction (P := fun m g w => m.globals.drawnIds.Nodup →
    Mirrored g (transcript m.globals w.log) m.globals) (fun _ => hboot)
    fun m g w l m' g' hrun hok _ h hmove hn => ?_
  · obtain ⟨g, hg, hmirror⟩ := hkeep
    exact ⟨g, hg, hmirror hn⟩
  · have hmirror := h (hn.sublist hmove.drawnIds.sublist)
    have hnum := hrun.numbered
    generalize w.observe m l m' = w' at hmove
    cases hmove with
    | rest hs =>
        rw [hs]
        exact hmirror
    | wake hs =>
        rw [hs]
        exact hmirror
    | main H hd => exact hmirror.main hok hd hnum hn
    | broadcast hd => exact hmirror.broadcast hok hd
    | sweep roomId hs =>
        rw [hs]
        exact hmirror.sweep hok

/-- The database mirrors the live rooms: in every state of such a run in which no handler is in
progress, the tables say what the rooms say. -/
theorem tables_match_rooms (h : Watched callsSucceed {} listenSocket m w)
    (hdrawn : m.globals.drawnIds.Nodup) (hidle : m.Idle) : TablesMatch m.globals w.log := by
  obtain ⟨g, hg, hmirror⟩ := h.mirrored hdrawn
  rw [hg hidle] at hmirror
  exact hmirror.tables

theorem tables_match_rooms_100000 : ∃ m w, Watched callsSucceed {} 3 m w ∧
    (deliveredIn (str "100000") w.log).length = 1 ∧ TablesMatch m.globals w.log := by
  obtain ⟨m, w, hw, hp⟩ := watched_of_play callsSucceed
    (serving (.connect 4) 0 ++ serving (.receive 4 (str "/SETNAME alice")) 0 ++
      serving (.receive 4 (str "/CREATE PRIVATE key")) 0 ++ serving (.receive 4 (str "hi")) 0 ++
      delivering)
    (by
      simp only [List.forall_mem_append]
      exact ⟨⟨⟨⟨callsSucceed_serving _ _, callsSucceed_serving _ _⟩, callsSucceed_serving _ _⟩,
        callsSucceed_serving _ _⟩, callsSucceed_delivering⟩)
    (fun m w => decide (m.Idle ∧ m.globals.drawnIds.Nodup ∧
      (deliveredIn (str "100000") w.log).length = 1)) (by decide +kernel)
  obtain ⟨hidle, hdrawn, hone⟩ := of_decide_eq_true hp
  exact ⟨m, w, hw, hone, tables_match_rooms hw hdrawn hidle⟩

end Machine

end TerminalChat.Server
