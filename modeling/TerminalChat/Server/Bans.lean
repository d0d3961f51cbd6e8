import Mathlib
import TerminalChat.Server.Membership

/-!
# Bans

A room keeps its bans by name. JOIN asks for them and BAN expels the member with the banned name, but
SETNAME lets a member take any name that nobody else has, also one that is banned from its room.
Banned names stay out of every room in the runs that do not use this (`Machine.ban_enforcement`).
-/

set_option autoImplicit false

namespace TerminalChat.Server

open TerminalChat.Concurrency TerminalChat.Text TerminalChat.Abstract

/-- The server accepts the name that the parameters of SETNAME give. -/
def AcceptsName (s : Globals) (sock : SOCKET) (params : Bytes) : Bool :=
  !(trim params).isEmpty && s.isUsernameAvailable (trim params) sock

/-- The client is listed by a live room from which the name is banned. -/
def InRoomThatBans (s : Globals) (sock : SOCKET) (name : Bytes) : Bool :=
  match s.chatRooms[(s.info sock).roomId]? with
  | some room => room.clients.contains sock && room.isUserBanned name
  | none => false

/-- The event is not an accepted SETNAME by a member of a room from which the new name is banned. -/
def KeepsBannedNames (s : Globals) (ev : Event) : Prop :=
  match ev.command with
  | some (.setName params) =>
      (AcceptsName s ev.socket params && InRoomThatBans s ev.socket (trim params)) = false
  | _ => True

instance (s : Globals) (ev : Event) : Decidable (KeepsBannedNames s ev) := by
  unfold KeepsBannedNames
  generalize ev.command = command
  induction command using Option.casesOn with
  | none => exact instDecidableTrue
  | some c =>
      induction c using Command.casesOn with
      | setName params => exact instDecidableEqBool _ _
      | _ => exact instDecidableTrue

/-- No member of a live room has a name that is banned there. -/
def BansEnforced (s : Globals) : Prop :=
  ∀ (sock : SOCKET) (r : Bytes) (room : ChatRoom), s.chatRooms[r]? = some room → sock ∈ room.clients →
    (s.info sock).username ∉ room.bannedUsers

theorem bansEnforced_of_unbanned {s : Globals} (h : s.hall.Unbanned) : BansEnforced s := by
  intro sock r room hroom hmem hban
  refine h r sock ((s.mem_membersOf_hall r sock).2 ⟨room, hroom, hmem⟩) ?_
  rw [Globals.entry_hall]
  exact (s.mem_bansOf_hall r _).2 ⟨room, hroom, hban⟩

/-- A name that SETNAME sets is one that the server accepts. -/
theorem acceptsName_of_permitted {s : Globals} {h : ServerHall} {sock : SOCKET} {params : Bytes}
    (hw : Hall.Sweeps s.hall h)
    (hp : (Hall.Op.rename sock (trim params) : ServerOp).Permitted INVALID_SOCKET h) :
    AcceptsName s sock params = true := by
  obtain ⟨-, hne, hfree⟩ := hp
  simp only [AcceptsName, Bool.and_eq_true, Bool.not_eq_true', List.isEmpty_eq_false_iff]
  refine ⟨hne, (isUsernameAvailable_iff s _ _).2 fun t c hc ht hn => ?_⟩
  refine hfree t ht ?_
  rw [hw.entry, Globals.entry_hall, Globals.info, hc]
  exact hn

theorem yields_respectsBans :
    Yields (Machine.eventsIn KeepsBannedNames) fun op h => op.RespectsBans h := by
  intro m ev op h hok hsound ha hw hp
  cases op with
  | rename sock n =>
      intro r hmem hban
      obtain ⟨params, hev, rfl, rfl⟩ := ha.1.rename
      have hacc := acceptsName_of_permitted hw hp
      rw [hw.membersOf] at hmem
      have hplace := hsound.back r _ hmem
      rw [Globals.entry_hall, ClientInfo.place_person_eq_some] at hplace
      obtain ⟨room, hroom, hin⟩ := (m.globals.mem_membersOf_hall r _).1 hmem
      obtain ⟨room', hroom', hb⟩ := (m.globals.mem_bansOf_hall r _).1 (hw.bansOf_subset r hban)
      rw [hroom, Option.some.injEq] at hroom'
      rw [← hroom'] at hb
      have hbanned : room.isUserBanned (trim params) = true := Std.ExtTreeSet.contains_iff_mem.2 hb
      have hlists : room.clients.contains ev.socket = true := Std.ExtTreeSet.contains_iff_mem.2 hin
      have hok' : KeepsBannedNames m.globals ev := hok
      simp [KeepsBannedNames, hev, hacc, InRoomThatBans, hplace.2, hroom, hlists, hbanned] at hok'
  | _ => trivial

namespace Machine

/-- Ban enforcement, in every run without a SETNAME to a name that is banned from the room. -/
theorem ban_enforcement (m : Machine) (hm : Reachable (eventsIn KeepsBannedNames) m)
    (hidle : m.Idle) : BansEnforced m.globals :=
  bansEnforced_of_unbanned ((hm.hallRun yields_respectsBans hidle).unbanned fun _ _ h => h)

theorem ban_enforcement_banned : ∃ m, Reachable (eventsIn KeepsBannedNames) m ∧
    BansEnforced m.globals ∧ (m.globals.info 5).username = str "bob" := by
  obtain ⟨m, hm, hp⟩ := reachable_of_after KeepsBannedNames
    [(.connect 4, 0), (.connect 5, 0), (.receive 5 (str "/SETNAME bob"), 0),
      (.receive 4 (str "/CREATE PUBLIC"), 7), (.receive 4 (str "/BAN mallory"), 0),
      (.receive 5 (str "/JOIN 100007"), 0)]
    (fun m => decide (m.Idle ∧ (m.globals.info 5).username = str "bob")) (by decide +kernel)
  obtain ⟨hidle, hname⟩ := of_decide_eq_true hp
  exact ⟨m, hm, ban_enforcement m hm hidle, hname⟩

/-- A member takes a banned name. -/
theorem not_ban_enforcement :
    ¬∀ m, Reachable anyStep m → m.Idle → BansEnforced m.globals := by
  intro h
  obtain ⟨m, hm, hp⟩ := reachable_of_after (fun _ _ => True)
    [(.connect 4, 0), (.connect 5, 0), (.receive 5 (str "/SETNAME bob"), 0),
      (.receive 4 (str "/CREATE PUBLIC"), 7), (.receive 4 (str "/BAN mallory"), 0),
      (.receive 5 (str "/JOIN 100007"), 0), (.receive 5 (str "/SETNAME mallory"), 0)]
    (fun m => decide (m.Idle) && match m.globals.chatRooms[str "100007"]? with
      | some room => room.clients.contains 5 &&
          room.isUserBanned (m.globals.info 5).username
      | none => false) (by decide +kernel)
  rw [Bool.and_eq_true, decide_eq_true_eq] at hp
  obtain ⟨hidle, hban⟩ := hp
  split at hban
  · rename_i room hroom
    rw [Bool.and_eq_true] at hban
    exact h m (hm.mono fun _ _ _ => trivial) hidle 5 _ room hroom
      (Std.ExtTreeSet.contains_iff_mem.1 hban.1) (Std.ExtTreeSet.contains_iff_mem.1 hban.2)
  · simp at hban

end Machine

end TerminalChat.Server
