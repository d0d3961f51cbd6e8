import Mathlib
import TerminalChat.Server.Membership

/-!
# The reach of a command

What handling an event of one client does to the other clients and to their rooms: nothing, unless the
client is flagged owner of the room that is concerned (`Machine.owner_authority`). The other threads
change no entry of `g_clients` at all.
-/

set_option autoImplicit false

namespace TerminalChat.Server

open TerminalChat.Concurrency TerminalChat.Text TerminalChat.Abstract

section Asks

variable {ev : Event} {op : ServerOp} {h : ServerHall} {b : SOCKET}

/-- Only KICK and BAN expel, and they name whom they expel. -/
theorem Event.Asks.expels (ha : ev.Asks op) (hp : op.Permitted INVALID_SOCKET h)
    (he : op.Expels b) : ∃ params,
      (ev.command = some (.kick params) ∨ ev.command = some (.ban params)) ∧
        trim params = (h.entry b).name := by
  rcases ha.command with rfl | rfl | ⟨c, hev, hc⟩
  · exact he.elim
  · exact he.elim
  · cases c with
    | kick params =>
        obtain ⟨t, rfl⟩ := hc
        cases he
        obtain ⟨r, -, -, -, hn, -⟩ := hp
        exact ⟨params, Or.inl hev, hn.symm⟩
    | ban params =>
        obtain ⟨r, t, rfl⟩ := hc
        cases t with
        | none => exact he.elim
        | some t =>
            cases he
            exact ⟨params, Or.inr hev, hp.2.2.2.1.symm⟩
    | create params => obtain ⟨-, draw, rfl⟩ := hc; exact he.elim
    | join params => rcases hc with ⟨-, rfl | rfl⟩ <;> exact he.elim
    | setName name => cases hc; exact he.elim
    | transfer params => obtain ⟨t, r, rfl⟩ := hc; exact he.elim
    | leave => cases hc; exact he.elim
    | forceLeave => obtain ⟨r, t, told, rfl⟩ := hc; exact he.elim
    | changePassword params => obtain ⟨r, rfl⟩ := hc; exact he.elim
    | _ => exact hc.elim

/-- Only TRANSFER and FORCELEAVE promote, and TRANSFER names whom it promotes. -/
theorem Event.Asks.promotes (ha : ev.Asks op) (hp : op.Permitted INVALID_SOCKET h)
    (hm : op.Promotes b) : ev.command = some .forceLeave ∨
      ∃ params, ev.command = some (.transfer params) ∧ trim params = (h.entry b).name := by
  rcases ha.command with rfl | rfl | ⟨c, hev, hc⟩
  · exact hm.elim
  · exact hm.elim
  · cases c with
    | transfer params =>
        obtain ⟨t, r, rfl⟩ := hc
        cases hm
        exact Or.inr ⟨params, hev, hp.2.2.2.1.symm⟩
    | forceLeave => exact Or.inl hev
    | create params => obtain ⟨-, draw, rfl⟩ := hc; exact hm.elim
    | join params => rcases hc with ⟨-, rfl | rfl⟩ <;> exact hm.elim
    | setName name => cases hc; exact hm.elim
    | kick params => obtain ⟨t, rfl⟩ := hc; exact hm.elim
    | ban params => obtain ⟨r, t, rfl⟩ := hc; exact hm.elim
    | leave => cases hc; exact hm.elim
    | changePassword params => obtain ⟨r, rfl⟩ := hc; exact hm.elim
    | _ => exact hc.elim

end Asks

/-- An entry with a place has this place as its room id. -/
theorem ClientInfo.roomId_of_place {c : ClientInfo} {r : Bytes} (h : c.person.place = some r) :
    c.roomId = r := ((c.place_person_eq_some r).1 h).2

/-- The command takes `b` out of its room, by its name. -/
def Expelled (ev : Event) (s s' : Globals) (b : SOCKET) : Prop :=
  (∃ params, (ev.command = some (.kick params) ∨ ev.command = some (.ban params)) ∧
    trim params = (s.info b).username) ∧
  s'.info b = { s.info b with
    roomId := []
    isRoomOwner := false }

/-- The command makes `b` owner of the room it is in. -/
def Promoted (ev : Event) (s s' : Globals) (b : SOCKET) : Prop :=
  (ev.command = some .forceLeave ∨
    ∃ params, ev.command = some (.transfer params) ∧ trim params = (s.info b).username) ∧
  s'.info b = { s.info b with isRoomOwner := true } ∧
  ∃ room, s'.chatRooms[(s.info b).roomId]? = some room ∧ room.ownerSocket = b

namespace Machine

variable {m m' : Machine} {ev : Event}

theorem Handles.reachable (hh : m.Handles ev m') (hm : Reachable anyStep m) :
    Reachable anyStep m' := by
  obtain ⟨m₁, hstart, hrun, -⟩ := hh
  obtain ⟨db, listenSocket, hbefore⟩ := hm
  refine ⟨db, listenSocket, (hbefore.tail ⟨_, trivial, hstart⟩).trans (hrun.lift id ?_)⟩
  rintro m₂ m₃ ⟨l, -, hn⟩
  exact ⟨l, trivial, hn⟩

/-- What a handled event does to the entry of another client. -/
theorem info_of_handles (hm : Reachable anyStep m) (hh : m.Handles ev m')
    (hdrawn : m'.globals.drawnIds.Nodup) {b : SOCKET} (hb : b ≠ ev.socket) :
    m'.globals.info b = m.globals.info b ∨
    m.globals.Rules ev.socket (m.globals.info b).roomId ∧
      (Expelled ev m.globals m'.globals b ∨ Promoted ev m.globals m'.globals b) := by
  obtain ⟨m₁, hstart, hrun, hidle'⟩ := id hh
  have hr := hallRun_of_reachable hm (idle_of_event hstart)
  obtain ⟨op, h₁, hop, hw, hp, hw'⟩ := hm.does hh
  have hentry : ∀ p, (op.apply h₁).entry b = p → (m'.globals.info b).person = p := by
    rintro p rfl
    rw [← Globals.entry_hall, hw'.entry]
  have hbefore : h₁.entry b = (m.globals.info b).person := by
    rw [hw.entry, Globals.entry_hall]
  have hsame : (op.apply h₁).entry b = h₁.entry b → m'.globals.info b = m.globals.info b :=
    fun h => ClientInfo.person_injective (hentry _ (h.trans hbefore))
  rcases hop with rfl | ha
  · exact Or.inl (hsame rfl)
  have hactor := ha.actor
  have hrules : ∀ r, h₁.Rules ev.socket r → m.globals.Rules ev.socket r := fun r h =>
    (m.globals.rules_hall _ r).1 ((hw.rules _ r).1 h)
  -- KICK and BAN take somebody out
  by_cases he : op.Expels b
  · obtain ⟨r, hown, hplace, hafter⟩ := Hall.entry_of_expelled hactor hp he
    rw [hbefore] at hplace hafter
    refine Or.inr ⟨?_, Or.inl ⟨?_, ?_⟩⟩
    · rw [ClientInfo.roomId_of_place hplace]
      exact hrules r hown
    · simpa [hbefore] using ha.expels hp he
    · exact ClientInfo.person_injective (by rw [hentry _ hafter]; rfl)
  -- TRANSFER and FORCELEAVE make somebody owner
  by_cases hpr : op.Promotes b
  · obtain ⟨r, hown, hplace, hafter, -⟩ :=
      Hall.entry_of_promoted (hr.sweeps hw).sound.back hactor hp hpr
    rw [hbefore] at hplace hafter
    have hinfo : m'.globals.info b = { m.globals.info b with isRoomOwner := true } :=
      ClientInfo.person_injective (by rw [hentry _ hafter]; rfl)
    refine Or.inr ⟨?_, Or.inr ⟨?_, hinfo, ?_⟩⟩
    · rw [ClientInfo.roomId_of_place hplace]
      exact hrules r hown
    · simpa [hbefore] using ha.promotes hp hpr
    · have howner : (m'.globals.info b).isRoomOwner = true := by rw [hinfo]
      obtain ⟨-, room, hlive, -, hat⟩ :=
        room_of_isRoomOwner (hh.reachable hm) hidle' hdrawn howner
      rw [hinfo] at hlive
      exact ⟨room, hlive, hat⟩
  · refine Or.inl (hsame (Hall.entry_of_bystander ?_ he hpr))
    rw [hactor]
    simpa using hb.symm

/-- What a handled event does to a room that its client does not rule. -/
theorem room_of_handles (hm : Reachable anyStep m) (hh : m.Handles ev m')
    (hdrawn : m'.globals.drawnIds.Nodup) {r : Bytes} (hr : ¬m.globals.Rules ev.socket r) :
    (∀ b, b ≠ ev.socket → (m'.globals.IsMember b r ↔ m.globals.IsMember b r)) ∧
    ∀ room room', m.globals.chatRooms[r]? = some room → m'.globals.chatRooms[r]? = some room' →
      room'.password = room.password ∧ room'.bannedUsers = room.bannedUsers := by
  obtain ⟨m₁, hstart, -, -⟩ := id hh
  have hrun := hallRun_of_reachable hm (idle_of_event hstart)
  obtain ⟨op, h₁, hop, hw, hp, hw'⟩ := hm.does hh
  have hsound := (hrun.sweeps hw).sound
  have hnodup : (op.apply h₁).drawn.Nodup := by
    rw [← hw'.drawn]
    exact hdrawn
  have hfresh := hsound.fresh hnodup
  have hnot : ¬h₁.Rules ev.socket r := fun h =>
    hr ((m.globals.rules_hall _ r).1 ((hw.rules _ r).1 h))
  refine ⟨fun b hb => ?_, fun room room' hroom hroom' => ?_⟩
  · show (∃ _, _) ↔ ∃ _, _
    rw [← Globals.mem_membersOf_hall, ← Globals.mem_membersOf_hall, hw'.membersOf,
      ← hw.membersOf]
    rcases hop with rfl | ha
    · exact Iff.rfl
    · exact Hall.membersOf_of_not_rules hsound.back ha.actor hp hfresh hnot hb
  · have hR' := hw'.room_of_some (Globals.room_hall_of_some _ hroom')
    have hlive : h₁.room r = some room.room := by
      have hsome : ((op.apply h₁).room r).isSome := by simp [hR']
      rcases Hall.room_apply hsome with h | h
      · obtain ⟨R, hR⟩ := Option.isSome_iff_exists.1 h
        have := hw.room_of_some hR
        rw [Globals.room_hall_of_some _ hroom] at this
        rw [hR, this]
      · -- a live room is not made again: its id has been drawn before
        rw [Hall.drawn_apply, List.nodup_append, hw.drawn] at hnodup
        have hold := hrun.sound.drawn r (by rw [Globals.room_hall_of_some _ hroom]; rfl)
        exact absurd rfl (hnodup.2.2 r h r hold)
    have hkeep : room'.room.bans = room.room.bans ∧ room'.room.password = room.room.password := by
      rcases hop with rfl | ha
      · have h : h₁.room r = some room'.room := hR'
        rw [hlive, Option.some.injEq] at h
        rw [h]
        exact ⟨rfl, rfl⟩
      · obtain ⟨hb, hpw, -⟩ := Hall.room_of_not_rules ha.actor hp hfresh hnot hlive hR'
        exact ⟨hb, hpw⟩
    refine ⟨hkeep.2, Std.ExtTreeSet.ext_mem fun u => ?_⟩
    have h := Set.ext_iff.1 hkeep.1 u
    exact h

/-- The threads other than the main thread change no client, and remove no room with a member. -/
theorem background_of_label (hm : Reachable anyStep m) {l : Label}
    (hl : ∀ e, l ≠ .run .main e) (h : m.next l = some m') : Background m.globals m'.globals := by
  have hothers := (hm.tracked (C := fun _ _ => True) fun _ _ _ _ _ _ _ _ _ => trivial).others
  cases l with
  | event ev =>
      simp only [Machine.next, Option.ite_none_right_eq_some, Option.some.injEq] at h
      obtain ⟨-, rfl⟩ := h
      exact .of_hall rfl rfl rfl
  | round =>
      simp only [Machine.next, Option.ite_none_right_eq_some, Option.some.injEq] at h
      obtain ⟨-, rfl⟩ := h
      exact .of_hall rfl rfl rfl
  | wake i =>
      simp only [Machine.next] at h
      cases hi : m.globals.pendingCleanups[i]? with
      | none => simp [hi] at h
      | some roomId =>
          simp only [hi, Option.some.injEq] at h
          subst h
          exact .of_hall rfl rfl rfl
  | run t e =>
      have ht : t ≠ .main := by
        rintro rfl
        exact hl e rfl
      exact background_of_run hothers ht h
  | tick d =>
      simp only [Machine.next, Option.some.injEq] at h
      subst h
      exact .of_hall rfl rfl rfl
  | signal =>
      simp only [Machine.next, Option.some.injEq] at h
      subst h
      exact .of_hall rfl rfl rfl

/-- Only the authority of an owner reaches other clients. -/
theorem owner_authority :
    (∀ (m m' : Machine) (ev : Event), Reachable anyStep m → m.Handles ev m' →
      m'.globals.drawnIds.Nodup →
      (∀ b, b ≠ ev.socket → m'.globals.info b = m.globals.info b ∨
        m.globals.Rules ev.socket (m.globals.info b).roomId ∧
          (Expelled ev m.globals m'.globals b ∨ Promoted ev m.globals m'.globals b)) ∧
      ∀ r, ¬m.globals.Rules ev.socket r →
        (∀ b, b ≠ ev.socket → (m'.globals.IsMember b r ↔ m.globals.IsMember b r)) ∧
        ∀ room room', m.globals.chatRooms[r]? = some room →
          m'.globals.chatRooms[r]? = some room' →
          room'.password = room.password ∧ room'.bannedUsers = room.bannedUsers) ∧
    ∀ (m m' : Machine) (l : Label), Reachable anyStep m → (∀ e, l ≠ .run .main e) →
      m.next l = some m' → m'.globals.clients = m.globals.clients ∧
        ∀ r room, m.globals.chatRooms[r]? = some room → r ∉ m'.globals.chatRooms →
          room.isEmpty = true := by
  refine ⟨fun m m' ev hm hh hdrawn => ⟨fun b hb => info_of_handles hm hh hdrawn hb,
    fun r hr => room_of_handles hm hh hdrawn hr⟩, fun m m' l hm hl h => ?_⟩
  have hback := background_of_label hm hl h
  refine ⟨hback.clients, fun r room hroom hgone => ?_⟩
  rw [room.isEmpty_iff]
  intro sock hmem
  have hmember := (m.globals.mem_membersOf_hall r sock).2 ⟨room, hroom, hmem⟩
  have hlive := hback.rely.sweeps.room_of_mem hmember
  rw [Globals.room_hall_of_some _ hroom] at hlive
  refine hgone ((m'.globals.isSome_room_hall r).1 ?_)
  rw [hlive]
  rfl

theorem owner_authority_kick : ∃ m m', Reachable anyStep m ∧
    m.Handles (.receive 4 (str "/KICK bob")) m' ∧
    Expelled (.receive 4 (str "/KICK bob")) m.globals m'.globals 5 := by
  obtain ⟨m, m', hm, hh, hp⟩ := handles_of_after (fun _ _ => True)
    [(.connect 4, 0), (.connect 5, 0), (.receive 5 (str "/SETNAME bob"), 0),
      (.receive 4 (str "/CREATE PUBLIC"), 7), (.receive 5 (str "/JOIN 100007"), 0)]
    (.receive 4 (str "/KICK bob")) 0 (fun m m' => decide (m'.globals.drawnIds.Nodup ∧
      (m.globals.info 5).roomId = str "100007" ∧ (m'.globals.info 5).roomId = []))
    (by decide +kernel)
  obtain ⟨hdrawn, hin, hout⟩ := of_decide_eq_true hp
  have hany : Reachable anyStep m := hm.mono fun _ _ _ => trivial
  refine ⟨m, m', hany, hh, ?_⟩
  rcases (owner_authority.1 m m' _ hany hh hdrawn).1 5 (by decide) with h | ⟨-, h | ⟨-, h, -⟩⟩
  · rw [h, hin] at hout
    exact absurd hout (by decide)
  · exact h
  · rw [h] at hout
    exact absurd (hin.symm.trans hout) (by decide)

end Machine

end TerminalChat.Server
