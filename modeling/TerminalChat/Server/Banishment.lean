import Mathlib
import TerminalChat.Abstract.Decrees
import TerminalChat.Server.Diary
import TerminalChat.Server.Admission
import TerminalChat.Server.Refusing

/-!
# What JOIN knows of the bans

A room is told the name of a banned user with its length, the database up to its first NUL byte. JOIN asks
both. The room remembers exactly the names in the BANs of its owners; the database cannot tell a banned
name from another one that agrees with it up to the first NUL byte. `Machine.ban_decision_exact_iff` says
in which runs the decision is exact.
-/

set_option autoImplicit false

namespace TerminalChat.Server

open TerminalChat.Concurrency TerminalChat.Text TerminalChat.Abstract TerminalChat.Client

/-- The event is a BAN of somebody else by an owner of the room. -/
def Handled.Bans (p : Handled) (r name : Bytes) : Prop :=
  ∃ params, p.event.command = some (.ban params) ∧ p.before.Rules p.event.socket r ∧
    trim params = name ∧ name ≠ [] ∧ name ≠ (p.before.info p.event.socket).username

/-- An owner of the room has executed a BAN of the name. -/
def BannedIn (diary : List Handled) (r name : Bytes) : Prop := ∃ p ∈ diary, p.Bans r name

theorem bannedIn_concat {diary : List Handled} {p : Handled} {r name : Bytes} :
    BannedIn (diary ++ [p]) r name ↔ BannedIn diary r name ∨ p.Bans r name := by
  simp only [BannedIn, List.mem_append, List.mem_singleton, or_and_right, exists_or,
    exists_eq_left]

section Handlers

variable {s : Globals} {sock : SOCKET} {r params : Bytes}

/-- The room, if it is live, remembers the name. -/
def Remembered (r name : Bytes) (s : Globals) : Prop :=
  ∀ R, s.hall.room r = some R → name ∈ R.bans

theorem Remembered.sweeps {name : Bytes} {s s' : Globals} (h : Remembered r name s)
    (hs : Hall.Sweeps s.hall s'.hall) : Remembered r name s' :=
  fun R hR => h R (hs.room_of_some hR)

theorem remembered_of_sweeps {H : ServerHall} {name : Bytes}
    (hs : Hall.Sweeps (H.editRoom r (·.ban name)) s.hall) : Remembered r name s := by
  intro R hR
  have hroom := hs.room_of_some hR
  rw [Hall.room_editRoom, if_pos rfl] at hroom
  obtain ⟨R₀, -, rfl⟩ := Option.map_eq_some_iff.1 hroom
  exact Set.mem_insert _ _

/-- An accepted BAN is remembered by the room. -/
theorem wp_remembered (hready : Ready s sock) (hrules : s.Rules sock r) (hne : trim params ≠ [])
    (hother : trim params ≠ (s.info sock).username) : (handleBanCommand sock params).wp Rely
      (fun _ s' => Remembered r (trim params) s') s := by
  obtain ⟨⟨hr, hroom⟩, howner⟩ := hrules
  rw [handleBanCommand, Prog.wp_ite]
  refine ⟨fun hempty => absurd (List.isEmpty_iff.1 hempty) hne, fun _ => ?_⟩
  rw [Prog.wp_bind]
  refine wp_clientInfo (.refl _) fun s₁ h₁ hc => ?_
  have hclient : s₁.info sock = s.info sock :=
    ClientInfo.person_injective (by rw [← hc, Globals.entry_hall])
  -- every guard lets the owner through
  rw [hclient, hroom, howner, Prog.wp_ite]
  refine ⟨fun hempty => absurd (List.isEmpty_iff.1 hempty) hr, fun _ => ?_⟩
  rw [Prog.wp_ite]
  refine ⟨fun hguest => absurd hguest (by simp), fun _ => ?_⟩
  rw [Prog.wp_ite]
  refine ⟨fun hself => absurd (beq_iff_eq.1 hself) hother, fun _ => ?_⟩
  have hban : ∀ (e : Env) (s' : Globals), Hall.Sweeps s.hall s'.hall →
      ((tellRoom r fun room => room.banUser (trim params)) >>= fun _ =>
        tellDatabase 0 fun _ calls db => db.addBan calls r (trim params)).post e s'
          fun _ s'' => Hall.Sweeps (s.hall.editRoom r (·.ban (trim params))) s''.hall := by
    intro e s' h
    simp only [Block.post_bind, post_tellRoom, post_tellDatabase]
    exact sweeps_editRoom h _ (fun room => room_banUser room (trim params)) fun _ => subset_rfl
  have hquiet : Quiet (str "SUCCESS: User " ++ trim params ++ str " has been banned\n") := by
    rw [List.append_assoc]
    exact quiet_append (p := str "SUCCESS:") (by decide) (str " User " ++ _)
  have hgone : ∀ s₃ : Globals, Hall.Sweeps s.hall s₃.hall → s₃.chatRooms.contains r ≠ true →
      Remembered r (trim params) s₃ := by
    intro s₃ _ hnone R hR
    rw [room_hall_eq_none hnone] at hR
    exact absurd hR (by simp)
  rw [Prog.wp_bind]
  refine wp_findClientByUsername h₁ ((s.person_hall_eq_none _).2 hready.valid) hr
    (fun s₂ h₂ _ => ?_) fun t s₂ h₂ ht _ _ => ?_
  · rw [Prog.wp_holding, Prog.wp_bind]
    refine wp_step h₂ fun e₃ s₃ h₃ => ?_
    rw [post_roomExists, Prog.wp_ite]
    refine ⟨fun _ => ?_, fun hnone => hgone s₃ h₃ hnone⟩
    rw [Prog.wp_bind]
    refine wp_step h₃ fun e₄ s₄ h₄ => Block.post_mono (hban e₄ s₄ h₄) fun _ s₅ h₅ => ?_
    rw [if_pos rfl]
    exact Prog.wp_mono (fun _ _ => remembered_of_sweeps) _ _ (wp_reply h₅ hquiet sock)
  · rw [Prog.wp_holding, Prog.wp_bind]
    refine wp_step h₂ fun e₃ s₃ h₃ => ?_
    rw [post_roomExists, Prog.wp_ite]
    refine ⟨fun _ => ?_, fun hnone => hgone s₃ h₃ hnone⟩
    rw [Prog.wp_bind]
    refine wp_step h₃ fun e₄ s₄ h₄ => Block.post_mono (hban e₄ s₄ h₄) fun _ s₅ h₅ => ?_
    rw [if_neg ht, Prog.wp_bind]
    refine wp_step h₅ fun e₆ s₆ h₆ =>
      Block.post_mono (post_expelBanned h₆ e₆ _ _ t) fun _ s₇ h₇ => ?_
    rw [Prog.wp_bind]
    refine wp_critical h₇ _ fun e₈ s₈ h₈ => ?_
    have h₉ := sweeps_setInfo h₈ t (f := fun c => { c with roomId := [], isRoomOwner := false })
      (g := fun p => { p with place := none, owner := false }) (fun _ => rfl)
    refine Prog.wp_mono (fun _ s₁₀ h₁₀ R hR => ?_) _ _ (wp_reply h₉ hquiet sock)
    have hroom₁₀ := h₁₀.room_of_some hR
    simp only [Hall.room_setPerson, Hall.room_editRoom, Hall.room_tell, if_true,
      Option.map_map, Option.map_eq_some_iff] at hroom₁₀
    obtain ⟨R₀, -, rfl⟩ := hroom₁₀
    exact Set.mem_insert _ _

end Handlers

/-! ## JOIN, run alone -/

section Joining

variable (es : Nat → Env) (s : Globals) (sock : SOCKET) {params r : Bytes}

/-- JOIN of another room does what is done under both locks. -/
theorem run_handleJoinCommand (hr : (joinParams params).1 ≠ [])
    (hother : (joinParams params).1 ≠ (s.info sock).roomId) :
    ((handleJoinCommand sock params).run es s).2 =
      ((joinRoom sock (s.info sock) (joinParams params).1 (joinParams params).2).exec (es 1)
        (s.setInfo sock id)).state := by
  rw [handleJoinCommand, if_neg (by simpa using hr), Prog.run_holding, step, Prog.run_block_bind]
  have hne : ((joinParams params).1 == (s.info sock).roomId) = false := by simpa using hother
  show (Prog.run (if ((joinParams params).1 == (s.info sock).roomId) = true then _ else _) _ _).2 = _
  rw [hne, if_neg (by simp), critical, Prog.run_holding, step, Prog.run_block]
  rfl

/-- JOIN answers that the client is banned. -/
def RefusesBanned (params : Bytes) : Prop :=
  ((handleJoinCommand sock params).run es s).2.net =
    s.net ++ [.sent sock (errorText "You are banned from this room")]

/-- JOIN answers so exactly when the verdict says so. -/
theorem refusesBanned_iff (hr : (joinParams params).1 ≠ [])
    (hother : (joinParams params).1 ≠ (s.info sock).roomId) :
    RefusesBanned es s sock params ↔ joinVerdict (es 1) s (joinParams params).1
      (s.info sock).username (joinParams params).2 = .banned := by
  have hverdict : joinVerdict (es 1) (s.setInfo sock id) (joinParams params).1
      (s.info sock).username (joinParams params).2 = joinVerdict (es 1) s (joinParams params).1
        (s.info sock).username (joinParams params).2 := rfl
  rw [RefusesBanned, run_handleJoinCommand es s sock hr hother, state_joinRoom, hverdict]
  by_cases hadmitted : joinVerdict (es 1) s (joinParams params).1 (s.info sock).username
      (joinParams params).2 = .admitted
  · -- an admission refuses nothing
    rw [if_pos hadmitted]
    obtain ⟨ops, hnet, hops⟩ := (harmless_admitClient sock (es 1) (s.setInfo sock id)
      (joinParams params).1 sock (s.info sock)).net
    constructor
    · intro hsent
      rw [hsent] at hnet
      have hops' : [NetOp.sent sock (errorText "You are banned from this room")] = ops :=
        List.append_cancel_left hnet
      have hdenies := hops (.sent sock (errorText "You are banned from this room"))
        (hops' ▸ List.mem_singleton_self _)
      exact absurd ⟨rfl, isRefusal_errorText _⟩ hdenies
    · intro hbanned
      rw [hadmitted] at hbanned
      exact absurd hbanned (by decide)
  · rw [if_neg hadmitted]
    constructor
    · intro hsent
      have htext : [NetOp.sent sock _] = [NetOp.sent sock _] := List.append_cancel_left hsent
      simp only [List.cons.injEq, NetOp.sent.injEq, true_and, and_true] at htext
      generalize joinVerdict (es 1) s (joinParams params).1 (s.info sock).username
        (joinParams params).2 = verdict at htext hadmitted ⊢
      -- the other refusals have other texts
      cases verdict with
      | banned => rfl
      | admitted => exact absurd rfl hadmitted
      | missing => exact absurd htext (by decide)
      | passwordRequired => exact absurd htext (by decide)
      | wrongPassword => exact absurd htext (by decide)
    · intro hbanned
      rw [hbanned]
      rfl

/-- The verdict on the bans of a live room: the memory of the room, or the database. -/
theorem joinVerdict_banned_iff {e : Env} {room : ChatRoom} {password username : Bytes}
    (hroom : s.chatRooms[r]? = some room) : joinVerdict e s r username password = .banned ↔
      username ∈ room.bannedUsers ∨ s.database.isUserBanned e.calls r username = true := by
  rw [joinVerdict, hroom]
  dsimp only
  rw [← room.isUserBanned_iff, ← Bool.or_eq_true]
  split
  · rename_i hbanned
    exact iff_of_true rfl hbanned
  · rename_i hfree
    apply iff_of_false
    · split
      · simp
      · split
        · simp
        · simp
    · exact hfree

end Joining

namespace Machine

variable {ok : Machine → Label → Prop} {db : Database} {listenSocket : SOCKET} {m m' : Machine}
  {diary : List Handled} {ev : Event} {r name : Bytes}

/-- A BAN by an owner is carried out. -/
theorem HandlesBy.remembered (hm : Reachable anyStep m) (hidle : m.Idle) (hh : HandlesBy ok m ev m')
    (hb : Handled.Bans ⟨m.globals, ev, m'.globals⟩ r name) : Remembered r name m'.globals := by
  obtain ⟨params, hcommand, hrules, rfl, hne, hother⟩ := hb
  apply hh.ends hm
  · exact fun s s' h hs => h.sweeps hs.sweeps
  · rw [handler_of_command hcommand]
    exact wp_remembered (hh.ready hm hidle hcommand) hrules hne hother

/-- Whoever is banned has been named in a BAN by an owner. -/
theorem bans_of_permitted (hm : Reachable anyStep m) (hidle : m.Idle) {s' : Globals} {h₁ : ServerHall}
    {op : ServerOp} (ha : ev.Asks op) (hw : Hall.Sweeps m.globals.hall h₁)
    (hp : op.Permitted INVALID_SOCKET h₁) (hb : op.Bans r name) :
    Handled.Bans ⟨m.globals, ev, s'⟩ r name := by
  have hsound := ((hallRun_of_reachable hm hidle).sweeps hw).sound
  cases op with
  | ban a q n t =>
      obtain ⟨rfl, rfl⟩ := hb
      obtain ⟨params, hcommand, rfl, rfl⟩ := ha.ban
      have hrules : h₁.Rules ev.socket q := by
        cases t with
        | none => exact hp.1
        | some t => exact hp.1
      have hne : trim params ≠ [] := by
        cases t with
        | none => exact hp.2.1
        | some t => exact hp.2.2.1
      have hself : (h₁.entry ev.socket).name ≠ trim params := by
        intro hname
        cases t with
        | none => exact hp.2.2 ev.socket hname hrules.1
        | some t =>
            obtain ⟨-, hat, -, hn, -⟩ := hp
            exact hat (hsound.names _ _ (hname.trans hn.symm) (by rw [hname]; exact hne))
      refine ⟨params, hcommand, ?_, rfl, hne, ?_⟩
      · exact (m.globals.rules_hall _ _).1 ((hw.rules _ _).1 hrules)
      · intro hname
        rw [hw.entry, Globals.entry_hall] at hself
        exact hself hname.symm
  | _ => exact hb.elim

/-- A live room remembers exactly the names in the BANs of its owners, and has been drawn if it has
any. -/
theorem Kept.remembers (h : Kept ok db listenSocket m diary) (hdrawn : m.globals.drawnIds.Nodup) :
    (∀ r name, BannedIn diary r name → r ∈ m.globals.drawnIds) ∧
      ∀ r R, m.globals.hall.room r = some R → ∀ name, name ∈ R.bans ↔ BannedIn diary r name := by
  induction h with
  | boot =>
      constructor
      · rintro r name ⟨p, hp, -⟩
        exact absurd hp List.not_mem_nil
      · intro r R hR
        have hboot : (Machine.boot db listenSocket).globals.hall = .empty := hall_boot db listenSocket
        rw [hboot] at hR
        exact absurd hR (by simp [Hall.empty])
  | @rest m m' diary l h hl hnext ih =>
      have hback := background_of_rest h.reachable_any h.idle hl.2 hnext
      have hsame : m'.globals.drawnIds = m.globals.drawnIds := hback.rely.sweeps.drawn
      rw [hsame] at hdrawn ⊢
      obtain ⟨hseen, hbans⟩ := ih hdrawn
      exact ⟨hseen, fun r R hR => hbans r R (hback.rely.sweeps.room_of_some hR)⟩
  | @handle m m' diary ev h hh ih =>
      obtain ⟨op, h₁, hop, hw, hp, hw'⟩ := h.reachable_any.does hh.handles
      have hdraws : m'.globals.drawnIds = op.draws ++ m.globals.drawnIds := by
        have hall := hw'.drawn
        rw [Hall.drawn_apply, hw.drawn] at hall
        exact hall
      rw [hdraws] at hdrawn ⊢
      obtain ⟨hseen, hbans⟩ := ih (List.nodup_append.1 hdrawn).2.1
      -- whoever rules a room is in it
      have hlive : ∀ r name, Handled.Bans ⟨m.globals, ev, m'.globals⟩ r name →
          r ∈ m.globals.drawnIds := by
        rintro r name ⟨params, -, hrules, -⟩
        have hmem := isMember_of_roomId h.reachable_any h.idle
          (List.nodup_append.1 hdrawn).2.1 hrules.1.1 hrules.1.2
        have hsound := (hallRun_of_reachable h.reachable_any h.idle).sound
        exact hsound.drawn r ((m.globals.isSome_room_hall r).2 hmem.mem)
      refine ⟨fun r name hb => ?_, fun r R' hR' name => ?_⟩
      · rw [bannedIn_concat] at hb
        rcases hb with hb | hb
        · exact List.mem_append_right _ (hseen r name hb)
        · exact List.mem_append_right _ (hlive r name hb)
      · have hafter := hw'.room_of_some hR'
        rw [bannedIn_concat]
        by_cases hr : r ∈ op.draws
        · -- a new room has no bans, and nobody has ruled a room with its id
          obtain ⟨sock, isPrivate, password, -, rfl⟩ := Hall.room_of_draws hafter hr
          have hfresh : r ∉ m.globals.drawnIds :=
            fun hold => (List.nodup_append.1 hdrawn).2.2 r hr r hold rfl
          constructor
          · exact fun hb => absurd hb (Set.notMem_empty name)
          · rintro (hb | hb)
            · exact absurd (hseen r name hb) hfresh
            · exact absurd (hlive r name hb) hfresh
        · obtain ⟨R, hR⟩ := Option.isSome_iff_exists.1
            ((Hall.room_apply (by rw [hafter]; rfl)).resolve_right hr)
          obtain ⟨-, hdecrees, -⟩ := Hall.room_of_decrees hR hafter hr
          rw [hdecrees, hbans r R (hw.room_of_some hR) name]
          constructor
          · rintro (hb | hb)
            · exact Or.inl hb
            · rcases hop with rfl | ha
              · exact hb.elim
              · exact Or.inr (bans_of_permitted h.reachable_any h.idle ha hw hp hb)
          · rintro (hb | hb)
            · exact Or.inl hb
            · have hmem := hh.remembered h.reachable_any h.idle hb R' hR'
              rw [hdecrees, hbans r R (hw.room_of_some hR) name] at hmem
              exact hmem

/-- The names that a live room remembers are those in the BANs of its owners. -/
theorem Kept.mem_bannedUsers (h : Kept ok db listenSocket m diary)
    (hdrawn : m.globals.drawnIds.Nodup) {room : ChatRoom} (hroom : m.globals.chatRooms[r]? = some room)
    (name : Bytes) : name ∈ room.bannedUsers ↔ BannedIn diary r name :=
  (h.remembers hdrawn).2 r room.room (Globals.room_hall_of_some _ hroom) name

/-- JOIN decides on bans as the BANs of the owners say, unless the database takes the name for another
one. In a run from an empty database in which every SQLite call succeeds and the drawn ids are distinct,
a client that is not in a live room is refused as banned exactly when an owner of the room has banned its
name, if and only if no name that agrees with it up to the first NUL byte has been banned instead. -/
theorem ban_decision_exact_iff (h : Kept callsSucceed {} listenSocket m diary)
    (hdrawn : m.globals.drawnIds.Nodup) (hlive : r ∈ m.globals.chatRooms) {sock : SOCKET}
    (hout : (m.globals.info sock).roomId ≠ r) {params : Bytes} (hparams : (joinParams params).1 = r)
    {es : Nat → Env} (hcalls : ∀ n k, (es n).calls k = true) :
    (RefusesBanned es m.globals sock params ↔
        BannedIn diary r (m.globals.info sock).username) ↔
      ((∃ name, BannedIn diary r name ∧ cString name = cString (m.globals.info sock).username) →
        BannedIn diary r (m.globals.info sock).username) := by
  obtain ⟨w, hw⟩ := exists_watched h.run
  obtain ⟨room, hroom⟩ := Option.isSome_iff_exists.1 (Std.ExtTreeMap.mem_iff_isSome_getElem?.1 hlive)
  have hid : cString r = r := hw.numbered.cString (hw.numbered.live r hlive)
  have hne : r ≠ [] := by
    obtain ⟨draw, rfl⟩ := hw.numbered.drawn r (hw.numbered.live r hlive)
    exact roomIdOf_ne_nil draw
  have hmemory := fun name => h.mem_bannedUsers hdrawn hroom name
  -- the database has the names up to their first NUL byte
  have htable : m.globals.database.isUserBanned (es 1).calls r (m.globals.info sock).username = true ↔
      ∃ name, BannedIn diary r name ∧ cString name = cString (m.globals.info sock).username := by
    have hbanned := (tables_match_rooms hw hdrawn h.idle).banned r room hroom
      (cString (m.globals.info sock).username)
    have hrow : m.globals.database.isUserBanned (es 1).calls r (m.globals.info sock).username = true ↔
        ⟨r, cString (m.globals.info sock).username⟩ ∈ m.globals.database.bans := by
      rw [Database.isUserBanned, hcalls, hcalls, hid, Bool.and_self, Bool.true_and, List.any_eq_true]
      constructor
      · rintro ⟨row, hrow, hsame⟩
        simp only [Bool.and_eq_true, beq_iff_eq] at hsame
        rw [← hsame.1, ← hsame.2]
        exact hrow
      · intro hrow
        exact ⟨_, hrow, by simp⟩
    rw [hrow, hbanned]
    constructor
    · rintro ⟨name, hname, hsame⟩
      exact ⟨name, (hmemory name).1 hname, hsame⟩
    · rintro ⟨name, hname, hsame⟩
      exact ⟨name, (hmemory name).2 hname, hsame⟩
  rw [← hparams] at hne hout
  rw [refusesBanned_iff es m.globals sock hne (Ne.symm hout), hparams,
    joinVerdict_banned_iff m.globals hroom, hmemory, htable]
  constructor
  · intro hexact htwin
    exact hexact.1 (Or.inr htwin)
  · intro htwin
    constructor
    · rintro (hban | hban)
      · exact hban
      · exact htwin hban
    · exact Or.inl

/-- Alice makes a room and bans a name from it; a client with another name, or the same, stays
outside. -/
def banning (guest name : Bytes) : List (Event × Fin 900000) :=
  [(.connect 4, 0), (.connect 5, 0), (.receive 5 (str "/SETNAME " ++ guest), 0),
    (.receive 4 (str "/SETNAME alice"), 0), (.receive 4 (str "/CREATE PUBLIC"), 7),
    (.receive 4 (str "/BAN " ++ name), 0)]

theorem kept_banning (guest name : Bytes) (p : Machine → List Handled → Bool)
    (h : p (keep (fun _ _ => True) (Machine.boot {} 3, []) (banning guest name)).1
      (keep (fun _ _ => True) (Machine.boot {} 3, []) (banning guest name)).2 = true) :
    ∃ m diary, Kept callsSucceed {} 3 m diary ∧ p m diary = true := by
  apply kept_of_keep callsSucceed (fun _ _ => True) _ _ _ p h
  · intro _ _ _
    exact trivial
  · intro _ _ _
    rfl

/-- The names in the BANs of a diary, accepted or not. -/
def namesInBans (diary : List Handled) : List Bytes :=
  diary.filterMap fun p => match p.event.command with
    | some (.ban params) => some (trim params)
    | _ => none

theorem mem_namesInBans (hb : BannedIn diary r name) : name ∈ namesInBans diary := by
  obtain ⟨p, hp, params, hcommand, -, rfl, -⟩ := hb
  apply List.mem_filterMap.2
  refine ⟨p, hp, ?_⟩
  rw [hcommand]

theorem ban_decision_exact_iff_bob : ∃ m diary, Kept callsSucceed {} 3 m diary ∧
    RefusesBanned (fun _ => .midnight 0) m.globals 5 (str " 100007") := by
  obtain ⟨m, diary, h, hp⟩ := kept_banning (str "bob") (str "bob")
    (fun m diary => decide (m.globals.drawnIds.Nodup ∧ str "100007" ∈ m.globals.chatRooms ∧
      (m.globals.info 5).roomId = [] ∧ (m.globals.info 5).username = str "bob") &&
      diary.any fun p => decide (p.event = .receive 4 (str "/BAN bob") ∧
        p.before.Rules 4 (str "100007") ∧ (p.before.info 4).username = str "alice"))
    (by decide +kernel)
  rw [Bool.and_eq_true, decide_eq_true_eq, List.any_eq_true] at hp
  obtain ⟨⟨hdrawn, hlive, hout, hname⟩, p, hmem, hp⟩ := hp
  obtain ⟨hev, hrules, halice⟩ := of_decide_eq_true hp
  have hban : BannedIn diary (str "100007") (m.globals.info 5).username := by
    rw [hname]
    refine ⟨p, hmem, str " bob", ?_, ?_, by decide, by decide, ?_⟩
    · rw [hev]
      decide
    · rw [hev]
      exact hrules
    · rw [hev]
      show str "bob" ≠ (p.before.info 4).username
      rw [halice]
      decide
  have hparams : (joinParams (str " 100007")).1 = str "100007" := by decide
  have hcalls : ∀ n k : Nat, ((fun _ => .midnight 0 : Nat → Env) n).calls k = true := fun _ _ => rfl
  have hexact := ban_decision_exact_iff h hdrawn hlive (by rw [hout]; decide) hparams hcalls
  exact ⟨m, diary, h, (hexact.2 fun _ => hban).2 hban⟩

/-- Bob is banned, and another client, whose name is bob's with a NUL byte and more behind it, is
refused. -/
theorem not_ban_decision_exact : ¬∀ (m : Machine) (diary : List Handled) (r : Bytes) (sock : SOCKET)
    (params : Bytes) (es : Nat → Env), Kept callsSucceed {} 3 m diary → m.globals.drawnIds.Nodup →
      r ∈ m.globals.chatRooms → (m.globals.info sock).roomId ≠ r → (joinParams params).1 = r →
        (∀ n k, (es n).calls k = true) → (RefusesBanned es m.globals sock params ↔
          BannedIn diary r (m.globals.info sock).username) := by
  intro h
  obtain ⟨m, diary, hkept, hp⟩ := kept_banning (str "bob" ++ [0, 120]) (str "bob")
    (fun m diary => decide (m.globals.drawnIds.Nodup ∧ str "100007" ∈ m.globals.chatRooms ∧
      (m.globals.info 5).roomId = [] ∧ (m.globals.info 5).username = str "bob" ++ [0, 120] ∧
      namesInBans diary = [str "bob"] ∧
      ((handleJoinCommand 5 (str " 100007")).run (fun _ => .midnight 0) m.globals).2.net =
        m.globals.net ++ [.sent 5 (errorText "You are banned from this room")]))
    (by decide +kernel)
  obtain ⟨hdrawn, hlive, hout, hname, hbans, hrefused⟩ := of_decide_eq_true hp
  have hban := (h m diary _ 5 (str " 100007") (fun _ => .midnight 0) hkept hdrawn hlive
    (by rw [hout]; decide) (by decide) fun _ _ => rfl).1 hrefused
  have hmem := mem_namesInBans hban
  rw [hbans, hname] at hmem
  exact absurd hmem (by decide)

end Machine

end TerminalChat.Server
