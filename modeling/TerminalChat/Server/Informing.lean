import Mathlib
import TerminalChat.Server.Runs

/-!
# Telling clients about their place

Whatever changes the room of a client or its ownership comes with a line that says so to the client,
with three exceptions. A JOIN that finds no room is answered as if the client had no room any more.
TRANSFER tells the new owner but not the old one. FORCELEAVE tells an heir with a name, and no other.
In runs without these events every client has been told where it is whenever no handler is in
progress (`Machine.Reachable.informed`).
-/

set_option autoImplicit false

namespace TerminalChat.Server

open TerminalChat.Concurrency TerminalChat.Text TerminalChat.Abstract

/-- The JOIN cannot end in `ROOM_NOT_FOUND` for a client that is in a room: the client is in none, the
parameters name none or its own, or the room they name is live and has a member. -/
def FindsRoom (s : Globals) (sock : SOCKET) (params : Bytes) : Bool :=
  (s.info sock).roomId.isEmpty || (joinParams params).1.isEmpty ||
    (joinParams params).1 == (s.info sock).roomId ||
      match s.chatRooms[(joinParams params).1]? with
      | some room => !room.isEmpty
      | none => false

/-- TRANSFER is accepted: the client is the flagged owner of a live room, and the parameters name
another client in that room. -/
def AcceptsTransfer (s : Globals) (sock : SOCKET) (params : Bytes) : Bool :=
  let client := s.info sock
  !(trim params).isEmpty && !client.roomId.isEmpty && client.isRoomOwner &&
    trim params != client.username && s.chatRooms.contains client.roomId &&
      s.findClientByUsername (trim params) client.roomId != INVALID_SOCKET

/-- The heir of an owner whose room has several members has a name. -/
def HeirNamed (s : Globals) (sock : SOCKET) : Bool :=
  let client := s.info sock
  client.roomId.isEmpty || !client.isRoomOwner ||
    match s.chatRooms[client.roomId]? with
    | some room => room.getClientCount ≤ 1 || !(s.info (room.heir sock)).username.isEmpty
    | none => true

/-- The event is no JOIN from inside a room that may find no room, no accepted TRANSFER, and no
FORCELEAVE that hands the room to a client without a name. -/
def Informs (s : Globals) (ev : Event) : Prop :=
  match ev.command with
  | some (.join params) => FindsRoom s ev.socket params = true
  | some (.transfer params) => AcceptsTransfer s ev.socket params = false
  | some .forceLeave => HeirNamed s ev.socket = true
  | _ => True

instance (s : Globals) (ev : Event) : Decidable (Informs s ev) := by
  unfold Informs
  split <;> infer_instance

section Conditions

variable {s : Globals} {h : ServerHall} {sock : SOCKET} {params : Bytes}

/-- A JOIN that finds a room, or comes from outside of every room, tells the truth. -/
theorem place_of_findsRoom (hw : Hall.Sweeps s.hall h) (hfinds : FindsRoom s sock params = true)
    (hne : (joinParams params).1 ≠ [])
    (hp : (Hall.Op.missing sock (joinParams params).1 : ServerOp).Permitted INVALID_SOCKET h) :
    (h.entry sock).place = none := by
  obtain ⟨-, hnone, hother⟩ := hp
  rw [hw.entry, Globals.entry_hall] at hother ⊢
  rw [ClientInfo.place_person_eq_none]
  by_contra hin
  have hown : (joinParams params).1 ≠ (s.info sock).roomId := fun he =>
    hother ((ClientInfo.place_person_eq_some _ _).2 ⟨hne, he.symm⟩)
  simp only [FindsRoom, List.isEmpty_iff, hin, hne, hown, Bool.or_eq_true,
    beq_iff_eq, false_or] at hfinds
  cases hroom : s.chatRooms[(joinParams params).1]? with
  | none => simp [hroom] at hfinds
  | some room =>
      have hsome : room.isEmpty = false := by simpa [hroom] using hfinds
      obtain ⟨t, ht⟩ : ∃ t, t ∈ room.clients := by
        by_contra hnobody
        rw [room.isEmpty_iff.2 (not_exists.1 hnobody)] at hsome
        exact absurd hsome (by simp)
      have hlive := hw.room_of_mem ((s.mem_membersOf_hall _ t).2 ⟨room, hroom, ht⟩)
      rw [hnone, Globals.room_hall_of_some s hroom] at hlive
      exact absurd hlive (by simp)

/-- A permitted transfer is one that TRANSFER accepts. -/
theorem acceptsTransfer_of_permitted (hvalid : INVALID_SOCKET ∉ s.clients)
    (hw : Hall.Sweeps s.hall h) {t : SOCKET} {r : Bytes}
    (hp : (Hall.Op.transfer sock t r (trim params) : ServerOp).Permitted INVALID_SOCKET h)
    (hn : h.NamesUnique) : AcceptsTransfer s sock params = true := by
  obtain ⟨hrules, hself, hne, hname, hplace, hroom⟩ := hp
  obtain ⟨⟨hr, hroomId⟩, hflag⟩ := (s.rules_hall sock r).1 ((hw.rules sock r).1 hrules)
  have hother : trim params ≠ (s.info sock).username := by
    intro he
    refine hself (hn sock t ?_ ?_)
    · rw [hname, he, hw.entry, Globals.entry_hall]
      rfl
    · rw [hw.entry, Globals.entry_hall, ClientInfo.name_person, ← he]
      exact hne
  have hlive : s.chatRooms.contains r = true := by
    rw [Std.ExtTreeMap.contains_iff_mem, ← Globals.isSome_room_hall]
    obtain ⟨R, hR⟩ := Option.isSome_iff_exists.1 hroom
    simp [hw.room_of_some hR]
  have hfound : s.findClientByUsername (trim params) r ≠ INVALID_SOCKET := by
    rcases findClientByUsername_spec s hvalid (u := trim params) hr with ⟨-, hall⟩ | ⟨hf, -⟩
    · rw [hw.entry] at hname hplace
      exact absurd hplace (hall t hname)
    · exact hf
  have hne' : trim params ≠ [] := hne
  simp only [AcceptsTransfer, hroomId, hflag, hlive]
  simp [hr, hne', hother, hfound]

/-- An heir with a name is told. -/
theorem told_of_heirNamed (hw : Hall.Sweeps s.hall h) (hnamed : HeirNamed s sock = true) {t : SOCKET}
    {r : Bytes} {told : Bool}
    (hheeds : HeedsSeniority s (.forceLeave sock r (some t) told))
    (hp : (Hall.Op.forceLeave sock r (some t) told : ServerOp).Permitted INVALID_SOCKET h) :
    told = true := by
  obtain ⟨hrules, -, -, -, htold⟩ := hp
  obtain ⟨⟨hr, hroomId⟩, hflag⟩ := (s.rules_hall sock r).1 ((hw.rules sock r).1 hrules)
  obtain ⟨room, hroom, hcount, rfl⟩ := hheeds
  rw [htold, hw.entry, Globals.entry_hall, ClientInfo.name_person]
  have hmany : ¬room.getClientCount ≤ 1 := Nat.not_le.2 hcount
  simp only [HeirNamed, hroomId, hflag, hroom] at hnamed
  have hname : (s.info (room.heir sock)).username ≠ [] := by simpa [hr, hmany] using hnamed
  exact hname

end Conditions

theorem yields_tells : Yields (Machine.eventsIn Informs) fun op h => op.Tells h := by
  rintro m ev op h hok hsound ⟨ha, hheeds⟩ hw hp
  have hinforms : Informs m.globals ev := hok
  cases op with
  | missing sock r =>
      obtain ⟨params, hev, rfl, rfl, hne⟩ := ha.missing
      simp only [Informs, hev] at hinforms
      exact place_of_findsRoom hw hinforms hne hp
  | transfer a t r n =>
      obtain ⟨params, hev, rfl, rfl⟩ := ha.transfer
      simp only [Informs, hev] at hinforms
      have hvalid := (m.globals.person_hall_eq_none _).1 hsound.outside
      rw [acceptsTransfer_of_permitted hvalid hw hp (hsound.sweeps hw).names] at hinforms
      exact absurd hinforms (by simp)
  | forceLeave sock r t told =>
      cases t with
      | none => trivial
      | some t =>
          obtain ⟨hev, rfl⟩ := ha.forceLeave
          simp only [Informs, hev] at hinforms
          exact told_of_heirNamed hw hinforms hheeds hp
  | _ => trivial

/-- Whenever no handler is in progress, every client has been told its place and its ownership, in
every run of events that inform. -/
theorem Machine.Reachable.informed {m : Machine} (hm : Reachable (eventsIn Informs) m)
    (hidle : m.Idle) {sock : SOCKET} (hs : sock ∈ m.globals.clients) :
    viewOf m.globals.net sock = ⟨(m.globals.info sock).person.place,
      (m.globals.info sock).isRoomOwner⟩ := by
  have hmirrors := (hm.hallRun yields_tells hidle).mirrors fun _ _ h => h
  have hview := hmirrors sock ((m.globals.isSome_person_hall sock).2 hs)
  rw [Globals.entry_hall] at hview
  exact hview

end TerminalChat.Server
