import Mathlib
import TerminalChat.Abstract.Decrees
import TerminalChat.Server.Rows
import TerminalChat.Server.Mirroring
import TerminalChat.Server.Bans

/-!
# The owner on record

The table `rooms` has a column for the name of the owner. CREATE fills it in and TRANSFER keeps it up to
date; FORCELEAVE, which hands on ownership as well, and SETNAME of an owner do not touch it. What is bound
into the column ends at the first NUL byte of the name. `Machine.owners_on_record` says in which runs the
column is right.
-/

set_option autoImplicit false

namespace TerminalChat.Server

open TerminalChat.Concurrency TerminalChat.Text TerminalChat.Abstract

/-- The row has the id and the owner of a row of `s`. -/
def OldRow (s : Globals) (row : RoomRow) : Prop :=
  ∃ old ∈ s.database.rooms, old.roomId = row.roomId ∧ old.ownerUsername = row.ownerUsername

/-- The clients, the drawn ids, and what holds of the rows of the rooms. -/
structure Ledger (info : SOCKET → ClientInfo) (drawn : List Bytes) (P : RoomRow → Prop)
    (s : Globals) : Prop where
  info : ∀ t, s.info t = info t
  drawn : s.drawnIds = drawn
  rows : ∀ row ∈ s.database.rooms, P row

namespace Ledger

variable {info : SOCKET → ClientInfo} {drawn : List Bytes} {P : RoomRow → Prop} {s s' : Globals}

theorem start (s : Globals) : Ledger s.info s.drawnIds (OldRow s) s :=
  ⟨fun _ => rfl, rfl, fun row hrow => ⟨row, hrow, rfl, rfl⟩⟩

theorem congr (h : Ledger info drawn P s) (hc : s'.clients = s.clients)
    (hd : s'.drawnIds = s.drawnIds) (hr : s'.database.rooms = s.database.rooms) :
    Ledger info drawn P s' := by
  refine ⟨fun t => ?_, hd.trans h.drawn, ?_⟩
  · rw [Globals.info, hc]
    exact h.info t
  · rw [hr]
    exact h.rows

theorem meanwhile (h : Ledger info drawn P s) (hm : Meanwhile s s') : Ledger info drawn P s' :=
  ⟨fun t => (hm.backdrop.info t).trans (h.info t), hm.backdrop.drawn.trans h.drawn,
    fun row hrow => h.rows row (hm.rows row hrow)⟩

theorem setInfo (h : Ledger info drawn P s) (t : SOCKET) (f : ClientInfo → ClientInfo) :
    Ledger (Function.update info t (f (info t))) drawn P (s.setInfo t f) := by
  refine ⟨fun u => ?_, h.drawn, h.rows⟩
  rw [info_setInfo, h.info t]
  by_cases hu : u = t
  · rw [if_pos hu, hu, Function.update_self]
  · rw [if_neg hu, Function.update_of_ne hu]
    exact h.info u

theorem setDatabase (h : Ledger info drawn P s) (P' : RoomRow → Prop) (db : Database)
    (hdb : ∀ row ∈ db.rooms, P' row) : Ledger info drawn P' { s with database := db } :=
  ⟨h.info, h.drawn, hdb⟩

end Ledger

section Handlers

variable {s : Globals} {sock : SOCKET} {params : Bytes}

/-- The rows after the creation of a room. -/
theorem mem_createRoom {calls : Nat → Bool} {r owner password : Bytes} {isPrivate : Bool}
    {db : Database} {row : RoomRow} (h : row ∈ (db.createRoom calls r isPrivate owner password).rooms) :
    row ∈ db.rooms ∨ row.roomId = cString r ∧ row.ownerUsername = cString owner := by
  rw [Database.createRoom] at h
  split at h
  · rcases List.mem_append.1 h with h | h
    · exact Or.inl h
    · rw [List.mem_singleton.1 h]
      exact Or.inr ⟨rfl, rfl⟩
  · exact Or.inl h

/-- The rows after a successful update of an owner. -/
theorem mem_updateRoomOwner {calls : Nat → Bool} (hcalls : ∀ n, calls n = true) {r owner : Bytes}
    {db : Database} {row : RoomRow} (h : row ∈ (db.updateRoomOwner calls r owner).rooms) :
    row ∈ db.rooms ∧ row.roomId ≠ cString r ∨
      row.roomId = cString r ∧ row.ownerUsername = cString owner := by
  rw [Database.updateRoomOwner, hcalls, hcalls, Bool.and_self, if_pos rfl] at h
  obtain ⟨old, hold, rfl⟩ := List.mem_map.1 h
  by_cases hid : old.roomId = cString r
  · rw [if_pos (beq_iff_eq.2 hid)]
    exact Or.inr ⟨hid, rfl⟩
  · rw [if_neg fun heq => hid (beq_iff_eq.1 heq)]
    exact Or.inl ⟨hold, hid⟩

/-- What CREATE leads to: nothing, or a room of the creator with its name in the table. -/
def Creates (s : Globals) (sock : SOCKET) (params : Bytes) (s' : Globals) : Prop :=
  Ledger s.info s.drawnIds (OldRow s) s' ∨
    ((createParams params).1 && (createParams params).2.isEmpty) = false ∧ ∃ draw,
      Ledger (Function.update s.info sock { s.info sock with
        roomId := roomIdOf draw
        isRoomOwner := true }) (roomIdOf draw :: s.drawnIds) (fun row => OldRow s row ∨
          row.roomId = cString (roomIdOf draw) ∧
            row.ownerUsername = cString (s.info sock).username) s'

theorem Creates.meanwhile {s' s'' : Globals} (h : Creates s sock params s')
    (hm : Meanwhile s' s'') : Creates s sock params s'' := by
  rcases h with h | ⟨hgiven, draw, h⟩
  · exact Or.inl (h.meanwhile hm)
  · exact Or.inr ⟨hgiven, draw, h.meanwhile hm⟩

variable {E : Env → Prop}

/-- The part of CREATE after the creator has left its room. -/
theorem wpIn_makeRoom {draw : Fin 900000} {isPrivate : Bool} {password : Bytes} {s₁ : Globals}
    (h : Ledger s.info (roomIdOf draw :: s.drawnIds) (OldRow s) s₁) :
    (makeRoom sock (s.info sock) (roomIdOf draw) isPrivate password).wpIn E Meanwhile (fun _ s' =>
      Ledger (Function.update s.info sock { s.info sock with
        roomId := roomIdOf draw
        isRoomOwner := true }) (roomIdOf draw :: s.drawnIds) (fun row => OldRow s row ∨
          row.roomId = cString (roomIdOf draw) ∧
            row.ownerUsername = cString (s.info sock).username) s') s₁ := by
  rw [makeRoom, Prog.wpIn_bind, wpIn_critical]
  intro e₁ _ s₂ h₂
  rw [Block.post_bind, Block.post_modify, post_addClient, Prog.wpIn_bind, wpIn_critical]
  have hroom : Ledger s.info (roomIdOf draw :: s.drawnIds) (OldRow s)
      ((s₂.insertRoom (roomIdOf draw) (ChatRoom.new (roomIdOf draw) isPrivate password sock)).editRoom
        (roomIdOf draw) fun room => room.addClient sock s₂.steadyNow) :=
    (h.meanwhile h₂).congr rfl rfl rfl
  intro e₂ _ s₃ h₃
  rw [post_setClientInfo, Prog.wpIn_bind, wpIn_step]
  have hflag := (hroom.meanwhile h₃).setInfo sock fun c => { c with
    roomId := roomIdOf draw
    isRoomOwner := true }
  intro e₃ _ s₄ h₄
  rw [post_tellDatabase, reply, wpIn_step]
  have hnow := hflag.meanwhile h₄
  have hrow := hnow.setDatabase (fun row => OldRow s row ∨
      row.roomId = cString (roomIdOf draw) ∧ row.ownerUsername = cString (s.info sock).username)
    (s₄.database.createRoom (fun n => e₃.calls (0 + n)) (roomIdOf draw) isPrivate
      (s.info sock).username password) fun row hrow =>
        (mem_createRoom hrow).imp_left fun hold => hnow.rows row hold
  intro e₄ _ s₅ h₅
  rw [post_sendToClient]
  exact (hrow.meanwhile h₅).congr rfl rfl rfl

theorem post_leaveRoom_ledger {info : SOCKET → ClientInfo} {drawn : List Bytes}
    {P : RoomRow → Prop} {s₁ : Globals} (h : Ledger info drawn P s₁) (e : Env)
    (r name : Bytes) : (leaveRoom r name sock).post e s₁ fun _ s' => Ledger info drawn P s' := by
  simp only [leaveRoom, departRoom, Block.post_bind, post_roomExists, Block.post_ite,
    post_getCurrentTimestamp, post_broadcast, post_tellRoom, post_askRoom, post_spawnCleanup,
    Block.post_pure]
  exact ⟨fun _ => ⟨fun _ => h.congr rfl rfl rfl, fun _ => h.congr rfl rfl rfl⟩, fun _ => h⟩

theorem wpIn_handleCreateCommand : (handleCreateCommand sock params).wpIn E Meanwhile
    (fun _ s' => Creates s sock params s') s := by
  rw [handleCreateCommand, Prog.wpIn_ite]
  constructor
  · intro _
    rw [reply, wpIn_step]
    intro e₁ _ s₁ h₁
    exact Or.inl (((Ledger.start s).meanwhile h₁).congr rfl rfl rfl)
  intro hok
  rw [Bool.not_eq_true] at hok
  rw [Prog.wpIn_bind, wpIn_step]
  intro e₁ _ s₁ h₁
  have hold := (Ledger.start s).meanwhile h₁
  have hdrawn : Ledger s.info (roomIdOf e₁.draw :: s.drawnIds) (OldRow s)
      { s₁ with drawnIds := roomIdOf e₁.draw :: s₁.drawnIds } :=
    ⟨hold.info, congrArg _ hold.drawn, hold.rows⟩
  rw [post_generateRoomId, Prog.wpIn_bind, Prog.wpIn_holding, Prog.wpIn_bind, wpIn_step]
  intro e₂ _ s₂ h₂
  have hsame := (hdrawn.meanwhile h₂).setInfo sock id
  rw [id, Function.update_eq_self] at hsame
  rw [post_clientRef, (hdrawn.meanwhile h₂).info, Prog.wpIn_ite]
  have hdone : ∀ s₃, Ledger s.info (roomIdOf e₁.draw :: s.drawnIds) (OldRow s) s₃ →
      (makeRoom sock (s.info sock) (roomIdOf e₁.draw) (createParams params).1
        (createParams params).2).wpIn E Meanwhile (fun _ s' => Creates s sock params s') s₃ :=
    fun s₃ h => Prog.wpIn_mono (fun _ _ h' => Or.inr ⟨hok, e₁.draw, h'⟩) _ _ (wpIn_makeRoom h)
  constructor
  · exact fun _ => hdone _ hsame
  · intro _
    rw [Prog.wpIn_bind, wpIn_critical]
    intro e₃ _ s₃ h₃
    apply Block.post_mono (post_leaveRoom_ledger (hsame.meanwhile h₃) e₃ _ _)
    exact fun _ s₄ h₄ => hdone s₄ h₄

/-- The members of a room to whom its owner may transfer it by that name. -/
def Transferable (s : Globals) (sock : SOCKET) (params : Bytes) (t : SOCKET) (r : Bytes) : Prop :=
  s.Rules sock r ∧ t ≠ sock ∧ (s.info t).username = trim params ∧ (s.info t).roomId = r

instance (s : Globals) (sock : SOCKET) (params : Bytes) (t : SOCKET) (r : Bytes) :
    Decidable (Transferable s sock params t r) := inferInstanceAs (Decidable (_ ∧ _))

/-- What TRANSFER leads to: nothing, or another owner with its name in the table. -/
def Transfers (s : Globals) (sock : SOCKET) (params : Bytes) (s' : Globals) : Prop :=
  Ledger s.info s.drawnIds (OldRow s) s' ∨ ∃ t r, Transferable s sock params t r ∧
    Ledger (Function.update (Function.update s.info sock { s.info sock with isRoomOwner := false })
      t { s.info t with isRoomOwner := true }) s.drawnIds (fun row =>
        OldRow s row ∧ row.roomId ≠ cString r ∨
          row.roomId = cString r ∧ row.ownerUsername = cString (trim params)) s'

theorem Transfers.meanwhile {s' s'' : Globals} (h : Transfers s sock params s')
    (hm : Meanwhile s' s'') : Transfers s sock params s'' := by
  rcases h with h | ⟨t, r, htarget, h⟩
  · exact Or.inl (h.meanwhile hm)
  · exact Or.inr ⟨t, r, htarget, h.meanwhile hm⟩

theorem wpIn_refuse {s₁ : Globals} (h : Ledger s.info s.drawnIds (OldRow s) s₁) (text : Bytes) :
    (reply sock text).wpIn E Meanwhile (fun _ s' => Transfers s sock params s') s₁ := by
  rw [reply, wpIn_step]
  intro e₂ _ s₂ h₂
  exact Or.inl ((h.meanwhile h₂).congr rfl rfl rfl)

/-- The part of TRANSFER under both locks. -/
theorem post_passOn {s₁ : Globals} {t : SOCKET} {r : Bytes} (h : Ledger s.info s.drawnIds (OldRow s) s₁)
    (ht : Transferable s sock params t r) {e : Env} (he : ∀ n, e.calls n = true) :
    (do
      setClientInfo sock fun c => { c with isRoomOwner := false }
      setClientInfo t fun c => { c with isRoomOwner := true }
      tellDatabase 0 fun _ calls db => db.updateRoomOwner calls r (trim params)
      let timestamp ← getCurrentTimestamp 0
      broadcastToAll r (systemText timestamp (str "Room ownership transferred to " ++ trim params))
      sendToClient sock (str "SUCCESS: Ownership transferred to " ++ trim params ++ str "\n")
      sendToClient t (str "OWNERSHIP_RECEIVED\n")).post e s₁ fun _ s' =>
        Transfers s sock params s' := by
  simp only [Block.post_bind, post_setClientInfo, post_tellDatabase, post_getCurrentTimestamp,
    post_broadcastToAll, post_sendToClient]
  have hflags := (h.setInfo sock fun c => { c with isRoomOwner := false }).setInfo t
    fun c => { c with isRoomOwner := true }
  rw [Function.update_of_ne ht.2.1] at hflags
  have hrow := hflags.setDatabase (fun row => OldRow s row ∧ row.roomId ≠ cString r ∨
      row.roomId = cString r ∧ row.ownerUsername = cString (trim params))
    (s₁.database.updateRoomOwner (fun n => e.calls (0 + n)) r (trim params)) fun row hrow =>
      (mem_updateRoomOwner (fun n => he (0 + n)) hrow).imp_left fun hold =>
        ⟨h.rows row hold.1, hold.2⟩
  exact Or.inr ⟨t, r, ht, hrow.congr rfl rfl rfl⟩

theorem wpIn_handleTransferCommand (hE : ∀ e, E e → ∀ n, e.calls n = true) :
    (handleTransferCommand sock params).wpIn E Meanwhile (fun _ s' => Transfers s sock params s')
      s := by
  have hstart := Ledger.start s
  rw [handleTransferCommand, Prog.wpIn_ite]
  refine ⟨fun _ => wpIn_refuse hstart _, fun hne => ?_⟩
  rw [Prog.wpIn_bind, wpIn_critical]
  intro e₁ _ s₁ h₁
  have h₁ := hstart.meanwhile h₁
  rw [post_clientInfo, h₁.info, Prog.wpIn_ite]
  refine ⟨fun _ => wpIn_refuse h₁ _, fun hin => ?_⟩
  rw [Prog.wpIn_ite]
  refine ⟨fun _ => wpIn_refuse h₁ _, fun howner => ?_⟩
  rw [Prog.wpIn_ite]
  refine ⟨fun _ => wpIn_refuse h₁ _, fun hself => ?_⟩
  rw [Prog.wpIn_bind, findClientByUsername, wpIn_critical]
  intro e₂ _ s₂ h₂
  have h₂ := h₁.meanwhile h₂
  rw [Block.post_read, Prog.wpIn_ite]
  refine ⟨fun _ => wpIn_refuse h₂ _, fun hfound => ?_⟩
  -- whoever is found has the name and is in the room
  obtain ⟨c, hc, hname, hroom⟩ :=
    (findClientByUsername_cases s₂ (trim params) (s.info sock).roomId).resolve_left
      fun hnone => hfound hnone.1
  generalize s₂.findClientByUsername (trim params) (s.info sock).roomId = t at hc hfound
  have hinfo : s.info t = c := by
    rw [← h₂.info, Globals.info, hc, Option.getD_some]
  have htarget : Transferable s sock params t (s.info sock).roomId := by
    refine ⟨⟨⟨fun hempty => hin (List.isEmpty_iff.2 hempty), rfl⟩, by simpa using howner⟩, ?_, ?_, ?_⟩
    · rintro rfl
      rw [hinfo, hname] at hself
      exact hself (beq_self_eq_true _)
    · rw [hinfo, hname]
    · rw [hinfo, hroom]
  rw [Prog.wpIn_holding, Prog.wpIn_bind, wpIn_step]
  intro e₃ _ s₃ h₃
  have h₃ := h₂.meanwhile h₃
  rw [post_roomExists, Prog.wpIn_ite]
  refine ⟨fun _ => ?_, fun _ => Or.inl h₃⟩
  rw [Prog.wpIn_bind, wpIn_step]
  intro e₄ _ s₄ h₄
  rw [post_tellRoom, wpIn_critical]
  have h₄ : Ledger s.info s.drawnIds (OldRow s)
      (s₄.editRoom (s.info sock).roomId fun room => room.setOwner t) :=
    (h₃.meanwhile h₄).congr rfl rfl rfl
  intro e₅ he₅ s₅ h₅
  exact post_passOn (h₄.meanwhile h₅) htarget (hE e₅ he₅)

end Handlers

/-! ## The events that keep the record -/

/-- The event leaves the right owner on record: no owner changes its name, a room is handed on to a
member of the same name, which is none, and the name that is written has no NUL byte in it. -/
def NamesOwner (s : Globals) (ev : Event) : Prop :=
  match ev.command with
  | some (.create params) => ((createParams params).1 && (createParams params).2.isEmpty) = false →
      cString (s.info ev.socket).username = (s.info ev.socket).username
  | some (.setName params) => AcceptsName s ev.socket params = true →
      (∃ r, s.Rules ev.socket r) → trim params = (s.info ev.socket).username
  | some (.transfer params) =>
      (∃ t r, Transferable s ev.socket params t r) → cString (trim params) = trim params
  | some .forceLeave => ∀ r room, s.Rules ev.socket r → s.chatRooms[r]? = some room →
      1 < room.getClientCount →
        (s.info (room.heir ev.socket)).username = (s.info ev.socket).username
  | _ => True

instance decidableRulesSome (s : Globals) (sock : SOCKET) : Decidable (∃ r, s.Rules sock r) :=
  decidable_of_iff (s.Rules sock (s.info sock).roomId)
    ⟨fun h => ⟨_, h⟩, fun ⟨r, h⟩ => by rwa [h.1.2]⟩

instance decidableTransferableSome (s : Globals) (sock : SOCKET) (params : Bytes) :
    Decidable (∃ t r, Transferable s sock params t r) :=
  decidable_of_iff (∃ t ∈ s.clients.keys, Transferable s sock params t (s.info sock).roomId) (by
    constructor
    · rintro ⟨t, -, h⟩
      exact ⟨t, _, h⟩
    · rintro ⟨t, r, h⟩
      obtain ⟨⟨⟨hne, hplace⟩, -⟩, -, -, hthere⟩ := id h
      refine ⟨t, Std.ExtTreeMap.mem_keys.2 ?_, by rwa [hplace]⟩
      -- a socket without an entry is in no room
      by_contra hnone
      rw [Globals.info, Std.ExtTreeMap.getElem?_eq_none hnone] at hthere
      exact hne hthere.symm)

instance (s : Globals) (ev : Event) : Decidable (NamesOwner s ev) := by
  unfold NamesOwner
  generalize ev.command = command
  induction command using Option.casesOn with
  | none => exact instDecidableTrue
  | some c =>
      induction c using Command.casesOn with
      | create params => exact inferInstanceAs (Decidable (_ → _))
      | setName params => exact inferInstanceAs (Decidable (_ → _ → _))
      | transfer params => exact inferInstanceAs (Decidable (_ → _))
      | forceLeave =>
          -- the room can only be the one in the entry of the client
          exact decidable_of_iff (∀ room ∈ s.chatRooms[(s.info ev.socket).roomId]?,
              s.Rules ev.socket (s.info ev.socket).roomId → 1 < room.getClientCount →
                (s.info (room.heir ev.socket)).username = (s.info ev.socket).username)
            ⟨fun h r room hrules hroom => by
              obtain rfl := hrules.1.2
              exact h room hroom hrules, fun h room hroom hrules => h _ room hrules hroom⟩
      | _ => exact instDecidableTrue

/-- Every SQLite call succeeds, and every event leaves the right owner on record. -/
def ownersNamed (m : Machine) (l : Label) : Prop :=
  Machine.callsSucceed m l ∧ ∀ ev, l = .event ev → NamesOwner m.globals ev

/-- What the table says of the rooms with a flagged owner. -/
def OwnersMatch (s : Globals) : Prop :=
  ∀ t r, s.Rules t r → ∀ row ∈ s.database.rooms, row.roomId = r →
    row.ownerUsername = (s.info t).username

theorem OwnersMatch.meanwhile {s s' : Globals} (h : OwnersMatch s) (hm : Meanwhile s s') :
    OwnersMatch s' := by
  intro t r hrules row hrow hid
  rw [Globals.Rules, hm.backdrop.info] at hrules
  rw [hm.backdrop.info]
  exact h t r hrules row (hm.rows row hrow) hid

/-- An old row under the clients of before. -/
theorem OwnersMatch.of_old {s : Globals} (h : OwnersMatch s) {t : SOCKET} {r : Bytes}
    (hrules : s.Rules t r) {row : RoomRow} (hold : OldRow s row) (hid : row.roomId = r) :
    row.ownerUsername = (s.info t).username := by
  obtain ⟨old, hmem, hsame, howner⟩ := hold
  rw [← howner]
  exact h t r hrules old hmem (hsame.trans hid)

namespace Machine

variable {ok : Machine → Label → Prop} {listenSocket : SOCKET} {m m' : Machine} {w : Watch}
  {diary : List Handled} {ev : Event}

/-- The other handlers leave the owners in the table alone. -/
theorem HandlesBy.oldRows (hm : Reachable ok m) (hh : HandlesBy ok m ev m')
    (hev : ∀ c, ev.command = some c → ¬c.Titles) : ∀ row ∈ m'.globals.database.rooms,
      OldRow m.globals row := by
  apply hh.ends_in (E := fun _ => True) (Q := StillFrom m.globals.database.rooms) hm
    fun _ _ _ => trivial
  · exact fun s s' h hs => h.trans (.of_subset hs.rows)
  · have hstill := Prog.wpIn_of_guar (E := fun _ => True) (R := Meanwhile)
      (fun s s' h hs => RowsFrom.trans h (.of_subset hs.rows)) ev.handler m.globals
        (leaves_handler hev) (.refl _)
    exact Prog.wpIn_mono (fun _ _ h => h.1) _ _ hstill

/-- The events other than CREATE and TRANSFER. -/
theorem ownersMatch_other (hm : Reachable ok m) (hidle : m.Idle) (hh : HandlesBy ok m ev m')
    (hnamed : NamesOwner m.globals ev) (hev : ∀ c, ev.command = some c → ¬c.Titles)
    (h : OwnersMatch m.globals) : OwnersMatch m'.globals := by
  intro t r hrules row hrow hid
  have hany : Reachable anyStep m := hm.mono fun _ _ _ => trivial
  -- the rows are old ones: only CREATE and TRANSFER write owners
  have hold := hh.oldRows hm hev row hrow
  obtain ⟨op, h₁, hop, hw, hp, hw'⟩ := hany.heeds hh.handles
  have hback := ((hallRun_of_reachable hany hidle).sweeps hw).sound.back
  have hafter := (hw'.rules t r).1 ((m'.globals.rules_hall t r).2 hrules)
  obtain ⟨hcrown, hname⟩ := Hall.rules_of_apply hback hp hafter
  have hbefore : h₁.Rules t r → m.globals.Rules t r := fun hr =>
    (m.globals.rules_hall t r).1 ((hw.rules t r).1 hr)
  have hnow : ((op.apply h₁).entry t).name = (m'.globals.info t).username := by
    rw [← hw'.entry, Globals.entry_hall, ClientInfo.name_person]
  have hthen : (h₁.entry t).name = (m.globals.info t).username := by
    rw [hw.entry, Globals.entry_hall, ClientInfo.name_person]
  rw [hnow] at hname
  rcases hname with hname | ⟨n, rfl, hname⟩
  · rw [hname, hthen]
    rcases hcrown with hcrown | hr
    · -- only FORCELEAVE makes an owner here
      rcases hop with rfl | ⟨ha, hheeds⟩
      · exact hcrown.elim
      cases op with
      | create s q isPrivate password =>
          obtain ⟨params, hcommand, -⟩ := ha.create
          exact absurd trivial (hev _ hcommand)
      | transfer a u q n =>
          obtain ⟨params, hcommand, -⟩ := ha.transfer
          exact absurd trivial (hev _ hcommand)
      | forceLeave s q u told =>
          cases u with
          | none => exact hcrown.elim
          | some u =>
              obtain ⟨rfl, rfl⟩ := hcrown
              obtain ⟨hcommand, rfl⟩ := ha.forceLeave
              obtain ⟨room, hroom, hcount, rfl⟩ := hheeds
              have hleaver : m.globals.Rules ev.socket q :=
                (m.globals.rules_hall _ q).1 ((hw.rules _ q).1 hp.1)
              rw [NamesOwner, hcommand] at hnamed
              rw [hnamed q room hleaver hroom hcount]
              exact h.of_old hleaver hold hid
      | _ => exact hcrown.elim
    · exact h.of_old (hbefore hr) hold hid
  · -- the owner has been renamed, which the condition allows only to its own name
    have hr := hbefore (hcrown.resolve_left id)
    rcases hop with hpass | ⟨ha, -⟩
    · exact absurd hpass (by simp)
    obtain ⟨params, hcommand, rfl, rfl⟩ := ha.rename
    have haccepts := acceptsName_of_permitted hw hp
    rw [NamesOwner, hcommand] at hnamed
    rw [hname, hnamed haccepts ⟨r, hr⟩]
    exact h.of_old hr hold hid

/-- CREATE puts the name of the creator into the table, under an id that no row has. -/
theorem ownersMatch_create (hw : Watched callsSucceed {} listenSocket m w) (hidle : m.Idle)
    {sock : SOCKET} {params : Bytes} {s' : Globals} (hc : Creates m.globals sock params s')
    (hnamed : ((createParams params).1 && (createParams params).2.isEmpty) = false →
      cString (m.globals.info sock).username = (m.globals.info sock).username)
    (hdrawn : s'.drawnIds.Nodup) (h : OwnersMatch m.globals) : OwnersMatch s' := by
  have hany : Reachable anyStep m := hw.reachable.mono fun _ _ _ => trivial
  intro t r hrules row hrow hid
  rcases hc with hc | ⟨hgiven, draw, hc⟩
  · rw [Globals.Rules, hc.info] at hrules
    rw [hc.info]
    exact h.of_old hrules (hc.rows row hrow) hid
  · rw [hc.drawn, List.nodup_cons] at hdrawn
    obtain ⟨hfresh, hdrawn⟩ := hdrawn
    have hdead : ∀ q ∈ m.globals.chatRooms, q ≠ roomIdOf draw := by
      rintro q hq rfl
      exact hfresh (hw.numbered.live _ hq)
    by_cases ht : t = sock
    · subst ht
      rw [Globals.Rules, hc.info, Function.update_self] at hrules
      rw [hc.info, Function.update_self]
      rcases hc.rows row hrow with ⟨old, hold, hsame, -⟩ | ⟨-, howner⟩
      · have hlive := ((tables_match_rooms hw hdrawn hidle).rooms old.roomId).1
          (List.mem_map_of_mem hold)
        exact absurd (hsame.trans (hid.trans hrules.1.2.symm)) (hdead _ hlive)
      · rw [howner, hnamed hgiven]
    · rw [Globals.Rules, hc.info, Function.update_of_ne ht] at hrules
      rw [hc.info, Function.update_of_ne ht]
      rcases hc.rows row hrow with hold | ⟨hnew, -⟩
      · exact h.of_old hrules hold hid
      · have hmem := isMember_of_roomId hany hidle hdrawn hrules.1.1 hrules.1.2
        rw [cString_roomIdOf, hid] at hnew
        exact absurd hnew (hdead r hmem.mem)

/-- TRANSFER puts the name of the new owner into the row of the room. -/
theorem ownersMatch_transfer (hw : Watched callsSucceed {} listenSocket m w) (hidle : m.Idle)
    {sock : SOCKET} {params : Bytes} {s' : Globals} (hc : Transfers m.globals sock params s')
    (hnamed : (∃ t r, Transferable m.globals sock params t r) →
      cString (trim params) = trim params)
    (hdrawn : m.globals.drawnIds.Nodup) (h : OwnersMatch m.globals) : OwnersMatch s' := by
  have hany : Reachable anyStep m := hw.reachable.mono fun _ _ _ => trivial
  intro t r hrules row hrow hid
  -- the TRANSFER is refused, or accepted for `u`
  rcases hc with hc | ⟨u, q, htarget, hc⟩
  · rw [Globals.Rules, hc.info] at hrules
    rw [hc.info]
    exact h.of_old hrules (hc.rows row hrow) hid
  · obtain ⟨howns, hother, hname, hplace⟩ := id htarget
    have hmem := isMember_of_roomId hany hidle hdrawn howns.1.1 howns.1.2
    have hq : cString q = q := hw.numbered.cString (hw.numbered.live q hmem.mem)
    rw [Globals.Rules, hc.info] at hrules
    rw [hc.info]
    have hrow' := hc.rows row hrow
    rw [hq] at hrow'
    -- the new owner: its row has been written, with its name
    by_cases htu : t = u
    · subst htu
      rw [Function.update_self] at hrules ⊢
      have hroom : q = r := hplace.symm.trans hrules.1.2
      rcases hrow' with ⟨-, hne⟩ | ⟨-, howner⟩
      · exact absurd (hid.trans hroom.symm) hne
      · rw [howner, hnamed ⟨t, q, htarget⟩]
        exact hname.symm
    · rw [Function.update_of_ne htu] at hrules ⊢
      by_cases hts : t = sock
      · -- the former owner is not flagged any more
        subst hts
        rw [Function.update_self] at hrules
        exact absurd hrules.2 (by simp)
      · rw [Function.update_of_ne hts] at hrules ⊢
        rcases hrow' with ⟨hold, -⟩ | ⟨hsame, -⟩
        · exact h.of_old hrules hold hid
        · -- two clients would be flagged in the room
          obtain ⟨-, room, hroom, -, hat⟩ := room_of_isRoomOwner hany hidle hdrawn hrules.2
          obtain ⟨-, room', hroom', -, hat'⟩ := room_of_isRoomOwner hany hidle hdrawn howns.2
          have hqr : (m.globals.info sock).roomId = (m.globals.info t).roomId := by
            rw [howns.1.2, hrules.1.2, ← hid, hsame]
          rw [hqr, hroom, Option.some.injEq] at hroom'
          exact absurd (hat.symm.trans ((congrArg ChatRoom.ownerSocket hroom').trans hat')) hts

/-- Along a run whose events leave the right owner on record, the table names every owner. -/
theorem ownersMatch_of_kept (h : Kept ownersNamed {} listenSocket m diary)
    (hdrawn : m.globals.drawnIds.Nodup) : OwnersMatch m.globals := by
  induction h with
  | boot =>
      intro t r _ row hrow
      exact absurd hrow List.not_mem_nil
  | @rest m m' diary l h _ hnext ih =>
      have hmean := meanwhile_of_rest h.reachable h.idle hnext
      rw [hmean.backdrop.drawn] at hdrawn
      exact (ih hdrawn).meanwhile hmean
  | @handle m m' diary ev h hh ih =>
      obtain ⟨op, h₁, -, hw', -, hw''⟩ := h.reachable_any.does hh.handles
      -- the ids drawn before are among those drawn in all
      have hbefore : m.globals.drawnIds.Nodup := by
        have hall := hw''.drawn
        rw [Hall.drawn_apply, hw'.drawn] at hall
        rw [show m'.globals.drawnIds = op.draws ++ m.globals.drawnIds from hall] at hdrawn
        exact (List.nodup_append.1 hdrawn).2.1
      have hserved : Relation.ReflTransGen (Step callsSucceed) (boot {} listenSocket) m :=
        h.run.lift id fun _ _ ⟨l, hl, hnext⟩ => ⟨l, hl.1, hnext⟩
      obtain ⟨w, hw⟩ := exists_watched hserved
      have hnamed := hh.allowed.2 ev rfl
      have hE : ∀ m e, ownersNamed m (.run .main e) → ∀ n, e.calls n = true :=
        fun m e hok => hok.1
      cases hcommand : ev.command with
      | none =>
          refine ownersMatch_other h.reachable h.idle hh hnamed (fun c hc => ?_) (ih hbefore)
          rw [hcommand] at hc
          exact absurd hc (by simp)
      | some c =>
          rw [NamesOwner, hcommand] at hnamed
          cases c with
          | create params =>
              have hc : Creates m.globals ev.socket params m'.globals := by
                apply hh.ends_in h.reachable hE fun _ _ hc hm => hc.meanwhile hm
                rw [handler_of_command hcommand]
                exact wpIn_handleCreateCommand
              exact ownersMatch_create hw h.idle hc hnamed hdrawn (ih hbefore)
          | transfer params =>
              have hc : Transfers m.globals ev.socket params m'.globals := by
                apply hh.ends_in h.reachable hE fun _ _ hc hm => hc.meanwhile hm
                rw [handler_of_command hcommand]
                exact wpIn_handleTransferCommand fun _ he => he
              exact ownersMatch_transfer hw h.idle hc hnamed hbefore (ih hbefore)
          | _ =>
              refine ownersMatch_other h.reachable h.idle hh (hh.allowed.2 ev rfl) (fun c hc => ?_)
                (ih hbefore)
              rw [hcommand, Option.some.injEq] at hc
              rw [← hc]
              exact id

/-- Every live room with a flagged owner has one row, and the row names the owner. -/
def OwnersOnRecord (s : Globals) : Prop :=
  ∀ (r : Bytes) (room : ChatRoom) (sock : SOCKET), s.chatRooms[r]? = some room →
    sock ∈ room.clients → (s.info sock).isRoomOwner = true → ∃ row,
      (s.database.rooms.filter fun row => row.roomId == r) = [row] ∧
        row.ownerUsername = (s.info sock).username

theorem filter_eq_singleton {rows : List RoomRow} (hnd : (rows.map RoomRow.roomId).Nodup)
    {row : RoomRow} (hrow : row ∈ rows) :
    (rows.filter fun row' => row'.roomId == row.roomId) = [row] := by
  induction rows with
  | nil => exact absurd hrow List.not_mem_nil
  | cons x rows ih =>
      rw [List.map_cons, List.nodup_cons] at hnd
      by_cases hx : x = row
      · subst hx
        rw [List.filter_cons, if_pos (beq_self_eq_true x.roomId), List.cons.injEq]
        refine ⟨rfl, List.filter_eq_nil_iff.2 fun y hy hsame => hnd.1 ?_⟩
        rw [← beq_iff_eq.1 hsame]
        exact List.mem_map_of_mem hy
      · have hrow' := (List.mem_cons.1 hrow).resolve_left (Ne.symm hx)
        rw [List.filter_cons_of_neg, ih hnd.2 hrow']
        intro hsame
        rw [beq_iff_eq] at hsame
        rw [hsame] at hnd
        exact hnd.1 (List.mem_map_of_mem hrow')

/-- The recorded owner is the real owner, in every run from an empty database with distinct ids in which
every SQLite call succeeds and every event leaves the right owner on record. -/
theorem owners_on_record
    (hrun : Relation.ReflTransGen (Step ownersNamed) (boot {} listenSocket) m) (hidle : m.Idle)
    (hdrawn : m.globals.drawnIds.Nodup) : OwnersOnRecord m.globals := by
  obtain ⟨diary, h⟩ := exists_kept hrun hidle
  have hserved : Relation.ReflTransGen (Step callsSucceed) (boot {} listenSocket) m :=
    hrun.lift id fun _ _ ⟨l, hl, hnext⟩ => ⟨l, hl.1, hnext⟩
  obtain ⟨w, hw⟩ := exists_watched hserved
  have htables := tables_match_rooms hw hdrawn hidle
  intro r room sock hroom hmem howner
  have hlive : r ∈ m.globals.chatRooms := by
    rw [Std.ExtTreeMap.mem_iff_isSome_getElem?, hroom]
    rfl
  obtain ⟨row, hrow, rfl⟩ := List.mem_map.1 ((htables.rooms r).2 hlive)
  refine ⟨row, filter_eq_singleton htables.roomsOnce hrow, ?_⟩
  have hplace := roomId_of_isMember h.reachable_any hidle ⟨room, hroom, hmem⟩
  exact ownersMatch_of_kept h hdrawn sock row.roomId ⟨hplace, howner⟩ row hrow rfl

/-- Alice makes a room and hands it to bob. -/
theorem owners_on_record_bob : ∃ m : Machine, Reachable ownersNamed m ∧ OwnersOnRecord m.globals ∧
    m.globals.Rules 5 (str "100007") := by
  obtain ⟨m, diary, h, hp⟩ := kept_of_keep ownersNamed NamesOwner
    (fun m ev hev => ⟨trivial, fun ev' heq => by
      rw [← Label.event.inj heq]
      exact hev⟩)
    (fun _ _ => ⟨fun _ => rfl, fun _ heq => nomatch heq⟩)
    [(.connect 4, 0), (.connect 5, 0), (.receive 4 (str "/SETNAME alice"), 0),
      (.receive 5 (str "/SETNAME bob"), 0), (.receive 4 (str "/CREATE PUBLIC"), 7),
      (.receive 5 (str "/JOIN 100007"), 0), (.receive 4 (str "/TRANSFER bob"), 0)]
    (fun m _ => decide (m.globals.drawnIds.Nodup ∧ m.globals.Rules 5 (str "100007")))
    (by decide +kernel)
  obtain ⟨hdrawn, hrules⟩ := of_decide_eq_true hp
  exact ⟨m, h.reachable, owners_on_record h.run h.idle hdrawn, hrules⟩

/-- An owner changes its name. -/
theorem not_owners_on_record : ¬∀ m : Machine,
    Relation.ReflTransGen (Step callsSucceed) (boot {} 3) m → m.Idle →
      m.globals.drawnIds.Nodup → OwnersOnRecord m.globals := by
  intro hall
  obtain ⟨m, diary, h, hp⟩ := kept_of_keep callsSucceed (fun _ _ => True) (fun _ _ _ => trivial)
    (fun _ _ _ => rfl)
    [(.connect 4, 0), (.receive 4 (str "/SETNAME alice"), 0), (.receive 4 (str "/CREATE PUBLIC"), 7),
      (.receive 4 (str "/SETNAME bob"), 0)]
    (fun m _ => decide (m.globals.drawnIds.Nodup ∧ (m.globals.info 4).isRoomOwner = true ∧
      (m.globals.info 4).username = str "bob" ∧
        m.globals.database.rooms.map RoomRow.ownerUsername = [str "alice"]) &&
      (m.globals.chatRooms[str "100007"]?).any fun room : ChatRoom => room.clients.contains 4)
    (by decide +kernel)
  rw [Bool.and_eq_true, decide_eq_true_eq, Option.any_eq_true] at hp
  obtain ⟨⟨hdrawn, howner, hname, hrows⟩, room, hroom, hmem⟩ := hp
  obtain ⟨row, hfilter, hrecord⟩ := hall m h.run h.idle hdrawn _ room 4 hroom
    (Std.ExtTreeSet.contains_iff_mem.1 hmem) howner
  have hrow : row ∈ m.globals.database.rooms :=
    List.mem_of_mem_filter (hfilter ▸ List.mem_singleton_self row)
  have halice := List.mem_map_of_mem (f := RoomRow.ownerUsername) hrow
  rw [hrows, List.mem_singleton, hrecord, hname] at halice
  exact absurd halice (by decide)

end Machine

end TerminalChat.Server
