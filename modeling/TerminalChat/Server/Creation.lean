import Mathlib
import TerminalChat.Server.Membership

/-!
# Creating a room

`generateRoomId` draws an id at random and `handleCreateCommand` assigns the new room to it without
asking whether the id is in use. The creation leaves every other room alone, and makes the creator
its only owner, exactly when the id is neither the key of such a room nor the room id of a client
that is still flagged owner (`Machine.created_alone_iff`).
-/

set_option autoImplicit false

namespace TerminalChat.Server

open TerminalChat.Concurrency TerminalChat.Text TerminalChat.Abstract

/-- What CREATE has done to the globals `s` when it ends in `s'`. -/
structure Created (s : Globals) (sock : SOCKET) (roomId : Bytes) (params : Bytes) (s' : Globals) :
    Prop where
  others : ∀ r, r ≠ roomId → r ≠ (s.info sock).roomId → s'.chatRooms[r]? = s.chatRooms[r]?
  room : ∃ now, s'.chatRooms[roomId]? = some
    ((ChatRoom.new roomId (createParams params).1 (createParams params).2 sock).addClient sock now)
  info : ∀ t, s'.info t = if t = sock then { s.info sock with
    roomId := roomId
    isRoomOwner := true } else s.info t

section Frame

variable (e : Env) (s : Globals)

theorem post_leaveRoom_frame (roomId username : Bytes) (sock : SOCKET) :
    (leaveRoom roomId username sock).post e s fun _ s' =>
      s'.clients = s.clients ∧ ∀ r, r ≠ roomId → s'.chatRooms[r]? = s.chatRooms[r]? := by
  have hedit : ∀ r, r ≠ roomId → ∀ f, (s.chatRooms.modify roomId f)[r]? = s.chatRooms[r]? := by
    intro r hr f
    simp [Std.ExtTreeMap.getElem?_modify, Ne.symm hr]
  simp only [leaveRoom, departRoom, Block.post_bind, post_roomExists, Block.post_ite,
    post_getCurrentTimestamp, post_broadcast, post_tellRoom, post_askRoom, post_spawnCleanup,
    Block.post_pure]
  refine ⟨fun _ => ⟨fun _ => ⟨?_, fun r hr => hedit r hr _⟩,
    fun _ => ⟨?_, fun r hr => hedit r hr _⟩⟩, fun _ => ⟨trivial, fun _ _ => trivial⟩⟩ <;> rfl

end Frame

/-- The part of CREATE after the creator has left its room. -/
theorem wp_makeRoom_eq {s s₁ : Globals} {sock : SOCKET} (client : ClientInfo) (roomId params : Bytes)
    (hrooms : ∀ r, r ≠ (s.info sock).roomId → s₁.chatRooms[r]? = s.chatRooms[r]?)
    (hinfo : ∀ t, s₁.info t = s.info t) :
    (makeRoom sock client roomId (createParams params).1 (createParams params).2).wp Eq
      (fun _ s' => Created s sock roomId params s') s₁ := by
  simp only [makeRoom, Prog.wp_bind, critical, Prog.wp_holding, step, reply, Prog.wp_block,
    Block.post_bind, Block.post_modify, post_addClient, post_setClientInfo, post_tellDatabase,
    post_sendToClient]
  rintro e₁ _ rfl e₂ _ rfl e₃ _ rfl e₄ _ rfl
  refine ⟨fun r hr hold => ?_, ⟨s₁.steadyNow, ?_⟩, fun t => ?_⟩
  · show ((s₁.chatRooms.insert roomId _).modify roomId _)[r]? = _
    rw [Std.ExtTreeMap.getElem?_modify, ← hrooms r hold]
    simp [Ne.symm hr, Std.ExtTreeMap.getElem?_insert]
  · show ((s₁.chatRooms.insert roomId _).modify roomId _)[roomId]? = _
    simp [Globals.insertRoom]
  · rw [← hinfo sock, ← hinfo t]
    simp only [Globals.info, Globals.send, Globals.setInfo, Globals.editRoom, Globals.insertRoom,
      Std.ExtTreeMap.getElem?_insert]
    by_cases ht : t = sock
    · simp [ht]
    · simp [ht, Ne.symm ht]

/-- A successful CREATE, with no other thread around. -/
theorem created_of_run {s : Globals} {sock : SOCKET} {params : Bytes}
    (hok : ((createParams params).1 && (createParams params).2.isEmpty) = false) (es : Nat → Env) :
    Created s sock (roomIdOf (es 0).draw) params ((handleCreateCommand sock params).run es s).2 := by
  rw [handleCreateCommand, if_neg (by simp [hok]), step, Prog.run_block_bind]
  refine Prog.run_of_wp (R := Eq)
    (Q := fun _ s' => Created s sock (roomIdOf (es 0).draw) params s') (fun _ => rfl) _ _ _ ?_
  rw [Prog.wp_bind, Prog.wp_holding, Prog.wp_bind, step, Prog.wp_block]
  rintro e₁ _ rfl
  rw [post_clientRef, Prog.wp_ite]
  have hinfo : ∀ s₂ : Globals, s₂.clients = s.clients.insert sock (s.info sock) →
      ∀ t, s₂.info t = s.info t := by
    intro s₂ h t
    rw [Globals.info, h, Std.ExtTreeMap.getElem?_insert]
    by_cases ht : sock = t
    · simp [ht]
    · simp [ht, Globals.info]
  refine ⟨fun hnone => ?_, fun hin => ?_⟩
  · exact wp_makeRoom_eq _ _ _ (fun _ _ => rfl) (hinfo _ rfl)
  · rw [Prog.wp_bind, critical, Prog.wp_holding, step, Prog.wp_block]
    rintro e₂ _ rfl
    refine Block.post_mono (post_leaveRoom_frame e₂ _ _ _ sock) fun _ s₂ h₂ => ?_
    exact wp_makeRoom_eq _ _ _ (fun r hr => h₂.2 r hr) (hinfo _ h₂.1)

/-- The creation leaves the other rooms alone, and the creator is the only member and the only
flagged owner of the new room. -/
structure CreatedAlone (s : Globals) (sock : SOCKET) (roomId : Bytes) (s' : Globals) : Prop where
  rooms : ∀ (r : Bytes) (room : ChatRoom), s.chatRooms[r]? = some room →
    r ≠ (s.info sock).roomId → s'.chatRooms[r]? = some room
  member : ∃ room, s'.chatRooms[roomId]? = some room ∧ ∀ t, t ∈ room.clients ↔ t = sock
  owner : ∀ t, s'.Rules t roomId ↔ t = sock

/-- The id is the key of no live room but the one that the creator leaves, and no other client is
flagged owner under it. -/
def Unused (s : Globals) (sock : SOCKET) (roomId : Bytes) : Prop :=
  (roomId ∈ s.chatRooms → roomId = (s.info sock).roomId) ∧ ∀ t, t ≠ sock → ¬s.Rules t roomId

theorem rules_of_created {s s' : Globals} {sock : SOCKET} {roomId params : Bytes}
    (hr : roomId ≠ []) (hc : Created s sock roomId params s') (t : SOCKET) :
    s'.Rules t roomId ↔ t = sock ∨ s.Rules t roomId := by
  by_cases ht : t = sock
  · simp [Globals.Rules, hc.info, ht, hr]
  · simp [Globals.Rules, hc.info, ht]

namespace Machine

/-- A creation that disturbs no live room has drawn an unused id. -/
theorem unused_of_createdAlone {m : Machine} (hm : Reachable anyStep m) (hidle : m.Idle)
    {sock : SOCKET} {roomId params : Bytes} (hr : roomId ≠ []) {s' : Globals}
    (hc : Created m.globals sock roomId params s')
    (h : CreatedAlone m.globals sock roomId s') : Unused m.globals sock roomId := by
  have howner := rules_of_created hr hc
  refine ⟨fun hlive => ?_, fun t ht hrules => ht ((h.owner t).1 ((howner t).2 (Or.inr hrules)))⟩
  by_contra hold
  have hroom := Std.ExtTreeMap.getElem?_eq_some_getElem hlive
  obtain ⟨now, hnew⟩ := hc.room
  have hkept := h.rooms _ _ hroom hold
  rw [hnew, Option.some.injEq] at hkept
  -- the new room lists the creator, whom the old one does not
  have hmem : m.globals.IsMember sock roomId := by
    refine ⟨_, hroom, ?_⟩
    rw [← hkept]
    simp [ChatRoom.addClient]
  exact hold (roomId_of_isMember hm hidle hmem).2.symm

/-- When creating a room disturbs no live room. -/
theorem created_alone_iff (m : Machine) (hm : Reachable anyStep m) (hidle : m.Idle) (sock : SOCKET)
    (params : Bytes) (hok : ((createParams params).1 && (createParams params).2.isEmpty) = false)
    (es : Nat → Env) :
    CreatedAlone m.globals sock (roomIdOf (es 0).draw)
      ((handleCreateCommand sock params).run es m.globals).2 ↔
    Unused m.globals sock (roomIdOf (es 0).draw) := by
  have hc : Created m.globals sock (roomIdOf (es 0).draw) params
      ((handleCreateCommand sock params).run es m.globals).2 := created_of_run hok es
  have howner := rules_of_created (roomIdOf_ne_nil _) hc
  obtain ⟨now, hnew⟩ := hc.room
  refine ⟨unused_of_createdAlone hm hidle (roomIdOf_ne_nil _) hc, ?_⟩
  rintro ⟨hfree, hnobody⟩
  refine ⟨fun r room hroom hr => ?_, ⟨_, hnew, fun t => ?_⟩, fun t => ?_⟩
  · rw [hc.others r ?_ hr]
    · exact hroom
    · rintro rfl
      refine hr (hfree ?_)
      rw [Std.ExtTreeMap.mem_iff_isSome_getElem?, hroom]
      rfl
  · simp only [ChatRoom.addClient, ChatRoom.new, Std.ExtTreeSet.mem_insert, Std.compare_eq_iff_eq,
      Std.ExtTreeSet.not_mem_empty, or_false]
    exact eq_comm
  · rw [howner]
    refine or_iff_left_of_imp fun hrules => ?_
    by_contra ht
    exact hnobody t ht hrules

theorem created_alone_iff_visits : ∃ m, Reachable anyStep m ∧
    CreatedAlone m.globals 5 (roomIdOf 9)
      ((handleCreateCommand 5 (str " PUBLIC")).run (fun _ => .midnight 9) m.globals).2 := by
  obtain ⟨m, hm, hp⟩ := reachable_of_after (fun _ _ => True) visits (fun m => decide (m.Idle ∧
    roomIdOf 9 ∉ m.globals.chatRooms) && m.globals.clients.toList.all fun p =>
      p.2.roomId != roomIdOf 9) (by decide +kernel)
  rw [Bool.and_eq_true, decide_eq_true_eq, List.all_eq_true] at hp
  obtain ⟨⟨hidle, hfree⟩, hnobody⟩ := hp
  have hany : Reachable anyStep m := hm.mono fun _ _ _ => trivial
  have hok : ((createParams (str " PUBLIC")).1 && (createParams (str " PUBLIC")).2.isEmpty) =
      false := by decide +kernel
  refine ⟨m, hany, (created_alone_iff m hany hidle 5 _ hok fun _ => .midnight 9).2
    ⟨fun h => absurd h hfree, fun t _ hrules => ?_⟩⟩
  have hroom := hrules.1.2
  rw [Globals.info] at hroom
  cases ht : m.globals.clients[t]? with
  | none =>
      rw [ht] at hroom
      exact roomIdOf_ne_nil _ hroom.symm
  | some c =>
      rw [ht] at hroom
      have := hnobody (t, c) (Std.ExtTreeMap.mem_toList_iff_getElem?_eq_some.2 ht)
      simp at this hroom
      exact this hroom

/-- A draw of an id in use replaces the room of another client. -/
theorem not_created_alone : ¬∀ (m : Machine), Reachable anyStep m → m.Idle →
    ∀ sock ∈ m.globals.clients, ∀ params,
      ((createParams params).1 && (createParams params).2.isEmpty) = false → ∀ es : Nat → Env,
        CreatedAlone m.globals sock (roomIdOf (es 0).draw)
          ((handleCreateCommand sock params).run es m.globals).2 := by
  intro h
  obtain ⟨m, hm, hp⟩ := reachable_of_after (fun _ _ => True) visits (fun m => decide (m.Idle ∧
    4 ∈ m.globals.clients ∧ roomIdOf 7 ∈ m.globals.chatRooms ∧
      roomIdOf 7 ≠ (m.globals.info 4).roomId)) (by decide +kernel)
  obtain ⟨hidle, hconn, hlive, hother⟩ := of_decide_eq_true hp
  have hany : Reachable anyStep m := hm.mono fun _ _ _ => trivial
  have hok : ((createParams (str " PUBLIC")).1 && (createParams (str " PUBLIC")).2.isEmpty) =
      false := by decide +kernel
  have halone := h m hany hidle 4 hconn (str " PUBLIC") hok fun _ => .midnight 7
  have hunused : Unused m.globals 4 (roomIdOf 7) := unused_of_createdAlone hany hidle
    (roomIdOf_ne_nil _) (created_of_run hok fun _ => .midnight 7) halone
  exact hother (hunused.1 hlive)

end Machine

end TerminalChat.Server
