import Mathlib
import TerminalChat.Server.Upholding
import TerminalChat.Server.Meanwhile

/-!
# The rows of the rooms

CREATE inserts a row into `rooms` and TRANSFER writes the owner of one. All other handlers leave the
owners in the table alone (`leaves_handler`): BAN and CHANGEPASSWORD write other columns, and a cleanup
takes rows away.
-/

set_option autoImplicit false

namespace TerminalChat.Server

open TerminalChat.Concurrency TerminalChat.Text

/-- Every row of the second table has the id and the owner of one of the first. -/
def RowsFrom (rows rows' : List RoomRow) : Prop :=
  ∀ row ∈ rows', ∃ old ∈ rows, old.roomId = row.roomId ∧ old.ownerUsername = row.ownerUsername

@[simp] theorem RowsFrom.refl (rows : List RoomRow) : RowsFrom rows rows :=
  fun row hrow => ⟨row, hrow, rfl, rfl⟩

theorem RowsFrom.trans {rows rows' rows'' : List RoomRow} (h : RowsFrom rows rows')
    (h' : RowsFrom rows' rows'') : RowsFrom rows rows'' := by
  intro row hrow
  obtain ⟨row', hrow', hid', howner'⟩ := h' row hrow
  obtain ⟨old, hold, hid, howner⟩ := h row' hrow'
  exact ⟨old, hold, hid.trans hid', howner.trans howner'⟩

theorem RowsFrom.of_subset {rows rows' : List RoomRow} (h : ∀ row ∈ rows', row ∈ rows) :
    RowsFrom rows rows' := fun row hrow => ⟨row, h row hrow, rfl, rfl⟩

section Database

variable (calls : Nat → Bool) (r name : Bytes) (db : Database)

theorem rowsFrom_updateRoomPassword :
    RowsFrom db.rooms (db.updateRoomPassword calls r name).rooms := by
  rw [Database.updateRoomPassword]
  split
  · intro row hrow
    obtain ⟨old, hold, rfl⟩ := List.mem_map.1 hrow
    refine ⟨old, hold, ?_, ?_⟩
    · split <;> rfl
    · split <;> rfl
  · exact .refl _

theorem rooms_addBan : (db.addBan calls r name).rooms = db.rooms := by
  rw [Database.addBan]
  split <;> rfl

end Database

/-! ## Blocks -/

/-- The table still has its ids and owners from `rows`. -/
def StillFrom (rows : List RoomRow) (s : Globals) : Prop := RowsFrom rows s.database.rooms

/-- The effect writes the owner of a room. -/
def Effect.Titles : Effect → Prop
  | .record _ _ _ _ => True
  | .credit _ _ => True
  | _ => False

theorem rowsFrom_apply (e : Env) (s : Globals) {eff : Effect} (h : ¬eff.Titles) :
    RowsFrom s.database.rooms (eff.apply e s).database.rooms := by
  cases eff with
  | record roomId isPrivate owner password => exact absurd trivial h
  | credit roomId name => exact absurd trivial h
  | leave roomId sock =>
      simp only [Effect.apply]
      split <;> exact .refl _
  | ban roomId name =>
      rw [Effect.apply, rooms_addBan]
      exact .refl _
  | rekey roomId password => exact rowsFrom_updateRoomPassword _ _ _ _
  | sweep roomId =>
      rw [Effect.apply]
      split
      · exact .of_subset fun row hrow => Database.mem_rooms_deleteRoom hrow
      · exact .refl _
  | _ => exact .refl _

/-- What is done by such effects leaves the owners alone. -/
theorem Performs.rows {e : Env} {effs : List Effect} {s s' : Globals} (h : Performs e effs s s')
    (heffs : ∀ eff ∈ effs, ¬eff.Titles) : RowsFrom s.database.rooms s'.database.rooms := by
  have hall : ∀ (effs : List Effect) (s : Globals), (∀ eff ∈ effs, ¬eff.Titles) →
      RowsFrom s.database.rooms (effs.foldl (fun s eff => eff.apply e s) s).database.rooms := by
    intro effs
    induction effs with
    | nil => exact fun s _ => .refl _
    | cons eff effs ih =>
        intro s hs
        exact (rowsFrom_apply e s (hs eff List.mem_cons_self)).trans
          (ih _ fun eff' hmem => hs eff' (List.mem_cons_of_mem eff hmem))
  have hfold := hall effs s heffs
  rw [← h.fields.database] at hfold
  exact hfold

section Blocks

variable {α : Type} {rows : List RoomRow} {sock : SOCKET} {r : Bytes}

theorem leaves_of_post {b : Sect α}
    (h : ∀ e s, b.post e s fun _ s' => RowsFrom s.database.rooms s'.database.rooms) :
    Upholds (StillFrom rows) b Whatever :=
  fun e s hs => Block.post_mono (h e s) fun _ _ h' => ⟨hs.trans h', trivial⟩

theorem leaves_of_performs {b : Sect α} (effs : List Effect) (heffs : ∀ eff ∈ effs, ¬eff.Titles)
    (h : ∀ e s, b.post e s fun _ s' => Performs e effs s s') :
    Upholds (StillFrom rows) b Whatever :=
  leaves_of_post fun e s => Block.post_mono (h e s) fun _ _ h' => h'.rows heffs

theorem leaves_send (text : Bytes) : Upholds (StillFrom rows) (sendToClient sock text) Whatever :=
  leaves_of_post fun _ _ => .refl _

theorem leaves_setClientInfo (f : ClientInfo → ClientInfo) :
    Upholds (StillFrom rows) (setClientInfo sock f) Whatever := leaves_of_post fun _ _ => .refl _

theorem leaves_tellRoom (f : ChatRoom → ChatRoom) :
    Upholds (StillFrom rows) (tellRoom r f) Whatever := leaves_of_post fun _ _ => .refl _

theorem leaves_broadcast (text : Bytes) :
    Upholds (StillFrom rows) (broadcast r text sock) Whatever := leaves_of_post fun _ _ => .refl _

theorem leaves_leaveRoom (name : Bytes) :
    Upholds (StillFrom rows) (leaveRoom r name sock) Whatever :=
  leaves_of_performs [.leave r sock] (by simp [Effect.Titles]) fun e s => post_leaveRoom_deeds e s r name sock

theorem leaves_clientRef : Upholds (StillFrom rows) (clientRef sock) Whatever :=
  leaves_of_post fun _ _ => .refl _

end Blocks

/-! ## Handlers -/

section Handlers

variable {rows : List RoomRow} {sock : SOCKET}

theorem leaves_reply (text : Bytes) : Maintains (StillFrom rows) (reply sock text) Whatever :=
  maintains_step (leaves_send text)

theorem leaves_clientInfo (t : SOCKET) :
    Maintains (StillFrom rows) (critical .clientsMutex (clientInfo t)) Whatever :=
  maintains_critical (upholds_read _)

theorem leaves_removeClientFromRoom :
    Maintains (StillFrom rows) (removeClientFromRoom sock) Whatever := by
  apply maintains_seq (leaves_clientInfo sock)
  intro client _
  apply maintains_ite (maintains_pure trivial)
  apply maintains_seq (K := Whatever)
  · apply maintains_critical
    apply upholds_bind (upholds_roomExists _)
    intro _ _
    exact upholds_ite (leaves_of_post fun _ _ => .refl _) (upholds_pure trivial)
  intro _ _
  apply maintains_seq (maintains_critical (leaves_setClientInfo _))
  intro _ _
  exact maintains_critical (leaves_of_performs [.sweep client.roomId] (by simp [Effect.Titles])
    fun e s => performs_sweepRoom e s client.roomId)

theorem leaves_handleJoinCommand (params : Bytes) :
    Maintains (StillFrom rows) (handleJoinCommand sock params) Whatever := by
  apply maintains_ite (leaves_reply _)
  apply maintains_holding
  apply maintains_seq (maintains_step leaves_clientRef)
  intro client _
  apply maintains_ite (leaves_reply _)
  apply maintains_critical
  apply leaves_of_post
  intro e s
  apply post_joinRoom_cases e s
  · exact fun _ => .refl _
  · exact fun _ _ => .refl _
  · intro room _ _ _
    apply Block.post_mono (post_admitClient_deeds e s client _)
    intro _ s' h
    apply h.rows
    intro eff heff
    rw [joinEffects, List.mem_append, List.mem_singleton] at heff
    rcases heff with heff | rfl
    · split at heff
      · exact absurd heff List.not_mem_nil
      · rw [List.mem_singleton.1 heff]
        exact id
    · exact id

theorem leaves_handleSetNameCommand (name : Bytes) :
    Maintains (StillFrom rows) (handleSetNameCommand sock name) Whatever := by
  apply maintains_ite (leaves_reply _)
  apply maintains_seq (maintains_critical (upholds_read _))
  intro _ _
  apply maintains_ite (leaves_reply _)
  apply maintains_seq (maintains_critical (leaves_setClientInfo _))
  exact fun _ _ => leaves_reply _

theorem leaves_handleGetPasswordCommand :
    Maintains (StillFrom rows) (handleGetPasswordCommand sock) Whatever := by
  apply maintains_seq (leaves_clientInfo sock)
  intro client _
  apply maintains_ite (leaves_reply _)
  apply maintains_ite (leaves_reply _)
  apply maintains_critical
  apply upholds_bind (upholds_roomExists _)
  intro _ _
  apply upholds_ite _ (upholds_pure trivial)
  apply upholds_bind (upholds_ask _ _)
  intro _ _
  apply upholds_ite _ (leaves_send _)
  exact upholds_bind (upholds_ask _ _) fun _ _ => leaves_send _

theorem leaves_handleUsersCommand :
    Maintains (StillFrom rows) (handleUsersCommand sock) Whatever := by
  apply maintains_seq (leaves_clientInfo sock)
  intro client _
  apply maintains_ite (leaves_reply _)
  apply maintains_holding
  apply maintains_seq (maintains_step (upholds_roomExists _))
  intro _ _
  apply maintains_ite _ (maintains_pure trivial)
  apply maintains_seq (maintains_step (upholds_ask _ _))
  intro _ _
  exact maintains_critical (leaves_of_post fun _ _ => .refl _)

/-- The guards that the commands of the owner share. -/
theorem leaves_guards {text text' : Bytes} {p : ClientInfo → Thread Unit}
    (hp : ∀ client, Maintains (StillFrom rows) (p client) Whatever) :
    Maintains (StillFrom rows) (do
      let client ← critical .clientsMutex (clientInfo sock)
      if client.roomId.isEmpty then reply sock text
      else if !client.isRoomOwner then reply sock text'
      else p client) Whatever := by
  apply maintains_seq (leaves_clientInfo sock)
  intro client _
  exact maintains_ite (leaves_reply _) (maintains_ite (leaves_reply _) (hp client))

theorem leaves_handleKickCommand (params : Bytes) :
    Maintains (StillFrom rows) (handleKickCommand sock params) Whatever := by
  apply maintains_ite (leaves_reply _)
  apply leaves_guards
  intro client
  apply maintains_ite (leaves_reply _)
  apply maintains_seq (maintains_findClientByUsername _ _)
  intro t _
  apply maintains_ite (leaves_reply _)
  apply maintains_seq (maintains_step (upholds_bind (upholds_read _) fun _ _ => leaves_send _))
  intro _ _
  apply maintains_seq (leaves_reply _)
  intro _ _
  apply maintains_seq (K := Whatever)
  · apply maintains_critical
    apply upholds_bind (upholds_roomExists _)
    intro _ _
    exact upholds_ite (leaves_of_post fun _ _ => .refl _) (upholds_pure trivial)
  · exact fun _ _ => maintains_critical (leaves_setClientInfo _)

theorem leaves_handleBanCommand (params : Bytes) :
    Maintains (StillFrom rows) (handleBanCommand sock params) Whatever := by
  apply maintains_ite (leaves_reply _)
  apply leaves_guards
  intro client
  apply maintains_ite (leaves_reply _)
  apply maintains_seq (maintains_findClientByUsername _ _)
  intro t _
  apply maintains_holding
  apply maintains_seq (maintains_step (upholds_roomExists _))
  intro _ _
  apply maintains_ite _ (maintains_pure trivial)
  apply maintains_seq (K := Whatever)
  · apply maintains_step
    apply upholds_bind (leaves_tellRoom _)
    intro _ _
    apply leaves_of_post
    intro e s
    rw [post_tellDatabase, rooms_addBan]
    exact .refl _
  intro _ _
  split
  · exact leaves_reply _
  · apply maintains_seq (K := Whatever)
    · exact maintains_step (leaves_of_post fun _ _ => .refl _)
    intro _ _
    apply maintains_seq (maintains_critical (leaves_setClientInfo _))
    exact fun _ _ => leaves_reply _

theorem leaves_handleLeaveCommand :
    Maintains (StillFrom rows) (handleLeaveCommand sock) Whatever := by
  apply maintains_seq (leaves_clientInfo sock)
  intro client _
  apply maintains_ite (leaves_reply _)
  apply maintains_ite (leaves_reply _)
  apply maintains_seq (maintains_critical (leaves_leaveRoom _))
  intro _ _
  apply maintains_seq (maintains_critical (leaves_setClientInfo _))
  exact fun _ _ => leaves_reply _

theorem leaves_handleForceLeaveCommand :
    Maintains (StillFrom rows) (handleForceLeaveCommand sock) Whatever := by
  apply leaves_guards
  intro client
  apply maintains_seq (K := Whatever)
  · apply maintains_holding
    apply maintains_seq (maintains_step (upholds_roomExists _))
    intro _ _
    apply maintains_ite _ (maintains_pure trivial)
    apply maintains_seq (maintains_step (upholds_chooseNewOwner _ _))
    intro t _
    apply maintains_seq (K := Whatever)
    · apply maintains_ite _ (maintains_pure trivial)
      apply maintains_critical
      apply upholds_bind (upholds_read _)
      intro _ _
      apply upholds_ite _ (upholds_pure trivial)
      apply upholds_bind (upholds_read _)
      intro _ _
      apply upholds_bind (leaves_setClientInfo _)
      intro _ _
      exact upholds_bind (leaves_tellRoom _) fun _ _ => upholds_pure trivial
    · intro name _
      exact maintains_step (leaves_of_performs [.leave client.roomId sock] (by simp [Effect.Titles])
        fun e s => post_announceForceLeave_deeds e s _ _ name t)
  · intro _ _
    apply maintains_seq (maintains_critical (leaves_setClientInfo _))
    exact fun _ _ => leaves_reply _

theorem leaves_handleChangePasswordCommand (params : Bytes) :
    Maintains (StillFrom rows) (handleChangePasswordCommand sock params) Whatever := by
  apply maintains_ite (leaves_reply _)
  apply leaves_guards
  intro client
  apply maintains_critical
  apply upholds_bind (upholds_roomExists _)
  intro _ _
  apply upholds_ite _ (upholds_pure trivial)
  apply upholds_bind (upholds_ask _ _)
  intro _ _
  apply upholds_ite (leaves_send _)
  apply upholds_bind (leaves_tellRoom _)
  intro _ _
  apply upholds_bind (K := Whatever)
  · exact leaves_of_post fun _ _ => rowsFrom_updateRoomPassword _ _ _ _
  intro _ _
  apply upholds_bind (leaves_send _)
  intro _ _
  exact upholds_bind (upholds_read _) fun _ _ => leaves_broadcast _

/-- The command writes no owner into the table. -/
def Command.Titles : Command → Prop
  | .create _ => True
  | .transfer _ => True
  | _ => False

theorem leaves_runCommand {c : Command} (hc : ¬c.Titles) :
    Maintains (StillFrom rows) (runCommand sock c) Whatever := by
  cases c with
  | create params => exact absurd trivial hc
  | transfer params => exact absurd trivial hc
  | join params => exact leaves_handleJoinCommand params
  | setName name => exact leaves_handleSetNameCommand name
  | list => exact maintains_critical (leaves_of_post fun _ _ => .refl _)
  | getPassword => exact leaves_handleGetPasswordCommand
  | users => exact leaves_handleUsersCommand
  | kick params => exact leaves_handleKickCommand params
  | ban params => exact leaves_handleBanCommand params
  | leave => exact leaves_handleLeaveCommand
  | forceLeave => exact leaves_handleForceLeaveCommand
  | changePassword params => exact leaves_handleChangePasswordCommand params
  | unknown => exact leaves_reply _

/-- Only CREATE and TRANSFER write owners into the table. -/
theorem leaves_handler {ev : Event} (hev : ∀ c, ev.command = some c → ¬c.Titles) :
    Maintains (StillFrom rows) ev.handler Whatever := by
  cases ev with
  | connect sock =>
      apply maintains_seq (K := Whatever)
      · exact maintains_step (leaves_of_post fun _ _ => .refl _)
      intro _ _
      apply maintains_seq (K := Whatever)
      · exact maintains_critical (leaves_of_post fun _ _ => .refl _)
      intro _ _
      apply maintains_seq (K := Whatever)
      · exact maintains_critical (leaves_of_post fun _ _ => .refl _)
      · exact fun _ _ => leaves_reply _
  | hangup sock =>
      apply maintains_seq leaves_removeClientFromRoom
      intro _ _
      apply maintains_seq (K := Whatever)
      · exact maintains_critical (leaves_of_post fun _ _ => .refl _)
      intro _ _
      apply maintains_seq (K := Whatever)
      · exact maintains_step (leaves_of_post fun _ _ => .refl _)
      · exact fun _ _ => maintains_critical (leaves_of_post fun _ _ => .refl _)
  | receive sock buffer =>
      cases hcommand : (Event.receive sock buffer).command with
      | some c =>
          rw [Machine.handler_of_command hcommand]
          exact leaves_runCommand (hev c hcommand)
      | none =>
          -- what is no command writes into no table
          have hpush : ∀ msg, Maintains (StillFrom rows) (pushMessage msg) Whatever :=
            fun msg => maintains_critical (leaves_of_post fun _ _ => .refl _)
          rw [Event.handler, handleClientMessage]
          rw [Event.command] at hcommand
          cases ht : actedText buffer with
          | none => exact maintains_pure trivial
          | some text =>
              rw [ht, Option.bind_some] at hcommand
              dsimp only
              cases hp : parseText text with
              | command c =>
                  rw [hp] at hcommand
                  exact absurd hcommand (by simp [Request.command?])
              | badPrivateMessage => exact leaves_reply _
              | privateMessage recipientName content =>
                  apply maintains_seq (leaves_clientInfo sock)
                  intro client _
                  apply maintains_ite (leaves_reply _)
                  exact maintains_ite (leaves_reply _) (hpush _)
              | chat text =>
                  apply maintains_seq (leaves_clientInfo sock)
                  intro client _
                  exact maintains_ite (leaves_reply _) (hpush _)

end Handlers

end TerminalChat.Server
