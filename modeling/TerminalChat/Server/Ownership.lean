import Mathlib
import TerminalChat.Server.Membership

/-!
# Ownership of inhabited rooms

FORCELEAVE hands a room on before its owner leaves, and LEAVE is refused to an owner. The other ways
out of a room take the owner away and leave the others behind: CREATE and JOIN of another room, and
the loss of the connection. A room that was left empty may also be joined before it is cleaned up;
its first visitor is not its owner. In runs without these events every inhabited room has its owner
(`Machine.rooms_owned`).
-/

set_option autoImplicit false

namespace TerminalChat.Server

open TerminalChat.Concurrency TerminalChat.Text TerminalChat.Abstract

/-- The client is flagged owner of a room with other members. -/
def OwnsOthers (s : Globals) (sock : SOCKET) : Bool :=
  (s.info sock).isRoomOwner && match s.chatRooms[(s.info sock).roomId]? with
  | some room => room.clients.toList.any fun t => t != sock
  | none => false

/-- What the checks of JOIN in memory say: the room is another one and exists, the name is not banned
from it, and it is public or the password is right. -/
def CanEnter (s : Globals) (sock : SOCKET) (params : Bytes) : Bool :=
  match s.chatRooms[(joinParams params).1]? with
  | some room => (s.info sock).roomId != (joinParams params).1 &&
      !room.isUserBanned (s.info sock).username &&
      (!room.isPrivate || room.verifyPassword (joinParams params).2)
  | none => false

/-- The room that JOIN names has a member. -/
def JoinsCompany (s : Globals) (params : Bytes) : Bool :=
  match s.chatRooms[(joinParams params).1]? with
  | some room => !room.isEmpty
  | none => true

/-- No owner with other members in its room creates a room, joins one, or loses its connection, and
nobody joins an empty room. -/
def HandsOn (s : Globals) (ev : Event) : Prop :=
  match ev with
  | .connect _ => True
  | .hangup sock => OwnsOthers s sock = false
  | .receive sock buffer =>
      match (Event.receive sock buffer).command with
      | some (.create params) =>
          ((createParams params).1 && (createParams params).2.isEmpty) = false →
            OwnsOthers s sock = false
      | some (.join params) => CanEnter s sock params = true →
          OwnsOthers s sock = false ∧ JoinsCompany s params = true
      | _ => True

instance (s : Globals) (ev : Event) : Decidable (HandsOn s ev) := by
  unfold HandsOn
  induction ev using Event.casesOn with
  | connect sock => exact instDecidableTrue
  | hangup sock => exact instDecidableEqBool _ _
  | receive sock buffer =>
      dsimp only
      generalize (Event.receive sock buffer).command = command
      induction command using Option.casesOn with
      | none => exact instDecidableTrue
      | some c =>
          induction c using Command.casesOn with
          | create params => exact inferInstanceAs (Decidable (_ → _))
          | join params => exact inferInstanceAs (Decidable (_ → _))
          | _ => exact instDecidableTrue

/-- Every live room with a member has exactly one member that is flagged as its owner, and names it
as its owner. -/
def RoomsOwned (s : Globals) : Prop :=
  ∀ (r : Bytes) (room : ChatRoom), s.chatRooms[r]? = some room → room.isEmpty = false →
    ∃ o ∈ room.clients, s.Rules o r ∧ room.ownerSocket = o ∧
      ∀ o' ∈ room.clients, s.Rules o' r → o' = o

theorem leavesNobody_of_ownsOthers {s : Globals} {sock : SOCKET}
    (h : OwnsOthers s sock = false) : s.hall.LeavesNobody sock := by
  intro r hr t ht
  obtain ⟨⟨-, hroomId⟩, hflag⟩ := (s.rules_hall sock r).1 hr
  obtain ⟨room, hroom, hmem⟩ := (s.mem_membersOf_hall r t).1 ht
  by_contra hne
  have hother : (room.clients.toList.any fun t => t != sock) = true :=
    List.any_eq_true.2 ⟨t, Std.ExtTreeSet.mem_toList.2 hmem, by simpa using hne⟩
  simp [OwnsOthers, hflag, hroomId, hroom, hother] at h

theorem leavesNobody_of_sweeps {h h' : ServerHall} (hw : Hall.Sweeps h h') {sock : SOCKET}
    (hn : h.LeavesNobody sock) : h'.LeavesNobody sock := by
  intro r hr
  rw [hw.membersOf]
  exact hn r ((hw.rules sock r).1 hr)

/-- A permitted JOIN passes the checks in memory. -/
theorem canEnter_of_permitted {s : Globals} {h : ServerHall} {sock : SOCKET} {r password : Bytes}
    {params : Bytes} (hparams : joinParams params = (r, password)) (hr : r ≠ [])
    (hw : Hall.Sweeps s.hall h)
    (hp : (Hall.Op.join sock r password : ServerOp).Permitted INVALID_SOCKET h) :
    CanEnter s sock params = true ∧ ∃ room, s.chatRooms[r]? = some room := by
  obtain ⟨-, hlive, hplace, hban, hopens⟩ := hp
  obtain ⟨R, hR⟩ := Option.isSome_iff_exists.1 hlive
  -- sweeps only remove rooms: the room was live when the event arrived
  have hbefore := hw.room_of_some hR
  simp only [Globals.hall, Option.map_eq_some_iff] at hbefore
  obtain ⟨room, hroom, rfl⟩ := hbefore
  rw [hw.entry, Globals.entry_hall] at hplace hban
  have hother : (s.info sock).roomId ≠ r := fun he =>
    hplace ((ClientInfo.place_person_eq_some _ r).2 ⟨hr, he⟩)
  have hfree : room.isUserBanned (s.info sock).username = false := by
    rw [Bool.eq_false_iff]
    exact fun hb => hban ⟨_, hR, Std.ExtTreeSet.contains_iff_mem.1 hb⟩
  have hopen : room.isPrivate = false ∨ room.verifyPassword password = true := by
    rw [← Bool.not_eq_true]
    refine or_iff_not_imp_left.2 fun hprivate => ?_
    exact beq_iff_eq.2 (hopens _ hR (not_not.1 hprivate))
  refine ⟨?_, room, hroom⟩
  simp only [CanEnter, hparams, hroom, hfree]
  simpa [hother] using hopen

theorem yields_handsOn : Yields (Machine.eventsIn HandsOn) fun op h => op.HandsOn h := by
  intro m ev op h hok hsound ha hw hp
  have hok' : HandsOn m.globals ev := hok
  cases op with
  | create sock r isPrivate password =>
      obtain ⟨params, hev, rfl, hparams, hgiven⟩ := ha.1.create
      refine leavesNobody_of_sweeps hw (leavesNobody_of_ownsOthers ?_)
      cases ev with
      | receive sock buffer =>
          simp only [HandsOn, hev, hparams] at hok'
          exact hok' hgiven
      | connect sock => cases hev
      | hangup sock => cases hev
  | join sock r password =>
      obtain ⟨params, hev, rfl, hparams, hr⟩ := ha.1.join
      obtain ⟨hcan, room, hroom⟩ := canEnter_of_permitted hparams hr hw hp
      cases ev with
      | receive sock buffer =>
          simp only [HandsOn, hev] at hok'
          obtain ⟨hleaves, hcompany⟩ := hok' hcan
          refine ⟨leavesNobody_of_sweeps hw (leavesNobody_of_ownsOthers hleaves), ?_⟩
          simp only [JoinsCompany, hparams, hroom] at hcompany
          rw [hw.membersOf]
          -- a room that the handler of the JOIN would enter has a member
          by_contra hnone
          rw [Set.not_nonempty_iff_eq_empty] at hnone
          have hempty : room.isEmpty = true := room.isEmpty_iff.2 fun t ht => by
            have := (m.globals.mem_membersOf_hall r t).2 ⟨room, hroom, ht⟩
            rw [hnone] at this
            exact this
          simp [hempty] at hcompany
      | connect sock => cases hev
      | hangup sock => cases hev
  | disconnect sock =>
      cases ha.1.disconnect
      exact leavesNobody_of_sweeps hw (leavesNobody_of_ownsOthers hok')
  | _ => trivial

namespace Machine

/-- Every inhabited room has an owner, in every run in which ownership is handed on. -/
theorem rooms_owned (m : Machine) (hm : Reachable (eventsIn HandsOn) m) (hidle : m.Idle)
    (hdrawn : m.globals.drawnIds.Nodup) : RoomsOwned m.globals := by
  have hrun := hm.hallRun yields_handsOn hidle
  have howned := hrun.owned (fun _ _ h => h) hdrawn
  have htitled := (hrun.agrees_titled hdrawn).2
  intro r room hroom hsome
  obtain ⟨sock, hmem⟩ : ∃ sock, sock ∈ room.clients := by
    by_contra hnone
    rw [Bool.eq_false_iff, Ne, room.isEmpty_iff] at hsome
    exact hsome fun t ht => hnone ⟨t, ht⟩
  -- the hall has a ruler of the room among its members
  obtain ⟨o, homem, hat, hrules⟩ := howned r sock
    ((m.globals.mem_membersOf_hall r sock).2 ⟨room, hroom, hmem⟩)
  obtain ⟨room₁, hroom₁, ho⟩ := (m.globals.mem_membersOf_hall r o).1 homem
  obtain ⟨room₂, hroom₂, howner⟩ := (m.globals.ownerAt_hall r o).1 hat
  rw [hroom, Option.some.injEq] at hroom₁ hroom₂
  subst hroom₁ hroom₂
  refine ⟨o, ho, (m.globals.rules_hall o r).1 hrules, howner, fun o' _ hrules' => ?_⟩
  -- any other flagged client of this room owns it as well, and an owner socket is one
  obtain ⟨r', hplace', hat'⟩ := htitled o' ((m.globals.rules_hall o' r).2 hrules').2
  have hr' : r' = r := Option.some.inj
    (hplace'.symm.trans ((m.globals.rules_hall o' r).2 hrules').1)
  subst hr'
  obtain ⟨room', hroom', howner'⟩ := (m.globals.ownerAt_hall r' o').1 hat'
  rw [hroom, Option.some.injEq] at hroom'
  rw [← howner', ← hroom', howner]

theorem rooms_owned_forceLeave : ∃ m, Reachable (eventsIn HandsOn) m ∧ RoomsOwned m.globals ∧
    (m.globals.info 4).roomId = [] ∧ m.globals.Rules 5 (str "100007") := by
  obtain ⟨m, hm, hp⟩ := reachable_of_after HandsOn
    [(.connect 4, 0), (.connect 5, 0), (.receive 5 (str "/SETNAME bob"), 0),
      (.receive 4 (str "/CREATE PUBLIC"), 7), (.receive 5 (str "/JOIN 100007"), 0),
      (.receive 4 (str "/FORCELEAVE"), 0)]
    (fun m => decide (m.Idle ∧ m.globals.drawnIds.Nodup ∧ (m.globals.info 4).roomId = [] ∧
      m.globals.Rules 5 (str "100007"))) (by decide +kernel)
  obtain ⟨hidle, hdrawn, hleft, hrules⟩ := of_decide_eq_true hp
  exact ⟨m, hm, rooms_owned m hm hidle hdrawn, hleft, hrules⟩

/-- An owner creates another room and leaves its guest in a room without an owner. -/
theorem not_rooms_owned : ¬∀ m, Reachable anyStep m → m.Idle → m.globals.drawnIds.Nodup →
    RoomsOwned m.globals := by
  intro h
  obtain ⟨m, hm, hp⟩ := reachable_of_after (fun _ _ => True) visits
    (fun m => decide (m.Idle ∧ m.globals.drawnIds.Nodup) &&
      match m.globals.chatRooms[str "100007"]? with
      | some room => !room.isEmpty &&
          room.clients.toList.all fun t => decide (¬m.globals.Rules t (str "100007"))
      | none => false) (by decide +kernel)
  rw [Bool.and_eq_true, decide_eq_true_eq] at hp
  obtain ⟨⟨hidle, hdrawn⟩, hroom⟩ := hp
  split at hroom
  · rename_i room hlive
    rw [Bool.and_eq_true, Bool.not_eq_true', List.all_eq_true] at hroom
    obtain ⟨o, ho, hrules, -⟩ := h m (hm.mono fun _ _ _ => trivial) hidle hdrawn _ room hlive hroom.1
    exact of_decide_eq_true (hroom.2 o (Std.ExtTreeSet.mem_toList.2 ho)) hrules
  · simp at hroom

end Machine

end TerminalChat.Server
