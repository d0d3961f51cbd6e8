import Mathlib
import TerminalChat.Server.Longest
import TerminalChat.Server.Meanwhile

/-!
# Succession

FORCELEAVE hands the room of its owner to the member that joined first. The search for that member
includes the leaver; when it finds the leaver itself, the first other member in the order of the socket
numbers takes over, whenever it joined. The notice to the new owner hangs on its name.
`Machine.succession_iff` says when the successor is the eldest and is told so.
-/

set_option autoImplicit false

namespace TerminalChat.Server

open TerminalChat.Concurrency TerminalChat.Text TerminalChat.Abstract TerminalChat.Client

/-! ## Who joined first -/

namespace ChatRoom

variable {room : ChatRoom} {leaver s t : SOCKET}

/-- When the member joined. -/
def joinTime (room : ChatRoom) (sock : SOCKET) : Nat := (room.clientJoinTimes[sock]?).getD 0

/-- No two members joined at the same reading of the clock. -/
def JoinedApart (room : ChatRoom) : Prop :=
  ∀ s ∈ room.clients, ∀ t ∈ room.clients, room.joinTime s = room.joinTime t → s = t

/-- The member other than the leaver that joined before all the others. -/
def Eldest (room : ChatRoom) (leaver t : SOCKET) : Prop :=
  (t ∈ room.clients ∧ t ≠ leaver) ∧
    ∀ u ∈ room.clients, u ≠ leaver → room.joinTime t ≤ room.joinTime u

/-- The longest member joined no later than any other member. -/
theorem joinTime_getLongestMember (hvalid : ∀ s ∈ room.clients, s ≠ INVALID_SOCKET)
    (hs : s ∈ room.clients) : room.joinTime (room.getLongestMember 0) ≤ room.joinTime s := by
  obtain ⟨first, hfirst, hall⟩ := getLongestMember_before hvalid 0 hs
  obtain ⟨time, htime, hbefore⟩ := hall s hs
  rw [joinTime, joinTime, hfirst, htime, Option.getD_some, Option.getD_some]
  rcases hbefore with hlt | ⟨heq, -⟩
  · exact Nat.le_of_lt hlt
  · exact Nat.le_of_eq heq

/-- The first other member in the order of the set has the smallest number. -/
theorem find?_other (hother : ∃ t ∈ room.clients, t ≠ leaver) :
    ∃ t, room.clients.toList.find? (fun s => s != leaver) = some t ∧ (t ∈ room.clients ∧ t ≠ leaver) ∧
      ∀ u ∈ room.clients, u ≠ leaver → t ≤ u := by
  obtain ⟨u, hu, hne⟩ := hother
  cases hf : room.clients.toList.find? fun s => s != leaver with
  | none =>
      have hnone := List.find?_eq_none.1 hf u (Std.ExtTreeSet.mem_toList.2 hu)
      exact absurd (bne_iff_ne.2 hne) hnone
  | some t =>
      have ht := Std.ExtTreeSet.mem_toList.1 (List.mem_of_find?_eq_some hf)
      have hne' : (t != leaver) = true := List.find?_some (p := fun s => s != leaver) hf
      refine ⟨t, rfl, ⟨ht, bne_iff_ne.1 hne'⟩, fun u hu hne => ?_⟩
      obtain ⟨-, before, after, hsplit, hbefore⟩ := List.find?_eq_some_iff_append.1 hf
      have hmem := Std.ExtTreeSet.mem_toList.2 hu
      rw [hsplit, List.mem_append, List.mem_cons] at hmem
      rcases hmem with hmem | rfl | hmem
      · have hleaver := hbefore u hmem
        rw [Bool.not_eq_true', bne_eq_false_iff_eq] at hleaver
        exact absurd hleaver hne
      · exact le_rfl
      · have hsorted : room.clients.toList.Pairwise fun a b => compare a b = .lt :=
          Std.ExtTreeSet.ordered_toList
        rw [hsplit, List.pairwise_append] at hsorted
        have hlt := (List.pairwise_cons.1 hsorted.2.1).1 u hmem
        exact (compare_lt_iff_lt.1 hlt).le

/-- The heir is the eldest of the others exactly when somebody joined before the leaver, or the other
member with the smallest number is the eldest. -/
theorem eldest_heir_iff (hvalid : ∀ s ∈ room.clients, s ≠ INVALID_SOCKET)
    (hapart : room.JoinedApart) (hmem : leaver ∈ room.clients)
    (hother : ∃ t ∈ room.clients, t ≠ leaver) : room.Eldest leaver (room.heir leaver) ↔
      (∃ t ∈ room.clients, room.joinTime t < room.joinTime leaver) ∨
        ∃ t, room.Eldest leaver t ∧ ∀ u ∈ room.clients, u ≠ leaver → t ≤ u := by
  have hlongest := room.getLongestMember_mem 0 hmem
  by_cases hself : room.getLongestMember 0 = leaver
  · obtain ⟨t, hfind, ht, hleast⟩ := find?_other hother
    have hheir : room.heir leaver = t := by
      rw [heir, if_pos hself, hfind, Option.getD_some]
    rw [hheir]
    constructor
    · intro heldest
      exact Or.inr ⟨t, heldest, hleast⟩
    · rintro (⟨u, hu, hbefore⟩ | ⟨u, heldest, hu⟩)
      · have hle := joinTime_getLongestMember hvalid hu
        rw [hself] at hle
        omega
      · have hsame : t = u :=
          le_antisymm (hleast u heldest.1.1 heldest.1.2) (hu t ht.1 ht.2)
        rw [hsame]
        exact heldest
  · have hheir : room.heir leaver = room.getLongestMember 0 := by
      rw [heir, if_neg hself]
    rw [hheir]
    constructor
    · intro _
      refine Or.inl ⟨_, hlongest, ?_⟩
      apply lt_of_le_of_ne (joinTime_getLongestMember hvalid hmem)
      exact fun htime => hself (hapart _ hlongest _ hmem htime)
    · intro _
      exact ⟨⟨hlongest, hself⟩, fun u hu _ => joinTime_getLongestMember hvalid hu⟩

/-- There is but one eldest. -/
theorem Eldest.unique (hapart : room.JoinedApart) (hs : room.Eldest leaver s)
    (ht : room.Eldest leaver t) : s = t :=
  hapart s hs.1.1 t ht.1.1
    (le_antisymm (hs.2 t ht.1.1 ht.1.2) (ht.2 s hs.1.1 hs.1.2))

end ChatRoom

/-! ## What FORCELEAVE does -/

/-- The line that tells a client of its ownership. -/
def ownershipLine : Bytes := str "OWNERSHIP_RECEIVED\n"

theorem not_quiet_ownershipLine : ¬Quiet ownershipLine := by
  intro h
  have hblank := h .blank
  rw [ownershipLine, viewLine_ownership] at hblank
  exact absurd (congrArg View.owner hblank) (by decide)

theorem Quiet.ne_ownership {text : Bytes} (h : Quiet text) : text ≠ ownershipLine := by
  rintro rfl
  exact not_quiet_ownershipLine h

theorem NetOp.Aside.ne_ownership {op : NetOp} (h : op.Aside) (sock : SOCKET) :
    op ≠ .sent sock ownershipLine := by
  rintro rfl
  obtain ⟨t, text, heq, hquiet⟩ := h
  rw [NetOp.sent.injEq] at heq
  exact Quiet.ne_ownership hquiet heq.2.symm

/-- Since `s` the clients have become `info`, the room has these members and this owner, and these
clients have been told of their ownership. -/
structure Scene (s : Globals) (r : Bytes) (info : SOCKET → ClientInfo)
    (members : Std.ExtTreeSet SOCKET) (owner : SOCKET) (told : SOCKET → Prop) (s' : Globals) :
    Prop where
  info : ∀ t, s'.info t = info t
  room : ∃ room, s'.chatRooms[r]? = some room ∧ room.clients = members ∧ room.ownerSocket = owner
  net : ∃ ops, s'.net = s.net ++ ops ∧ ∀ t, .sent t ownershipLine ∈ ops ↔ told t

namespace Scene

variable {s s' s'' : Globals} {r : Bytes} {info : SOCKET → ClientInfo}
  {members : Std.ExtTreeSet SOCKET} {owner t : SOCKET} {told : SOCKET → Prop}

/-- The other threads do not disturb the scene while somebody is in the room. -/
theorem meanwhile (h : Scene s r info members owner told s') (ht : t ∈ members)
    (hm : Meanwhile s' s'') : Scene s r info members owner told s'' := by
  obtain ⟨room, hroom, hmembers, howner⟩ := h.room
  obtain ⟨ops, hnet, htold⟩ := h.net
  obtain ⟨ops', hnet', haside⟩ := hm.net
  refine ⟨fun u => (hm.backdrop.info u).trans (h.info u), ?_, ops ++ ops', ?_, fun u => ?_⟩
  · rcases hm.backdrop.kept r room hroom with ⟨history, h'⟩ | ⟨-, hempty⟩
    · exact ⟨_, h', hmembers, howner⟩
    · rw [← hmembers] at ht
      exact absurd ht (room.isEmpty_iff.1 hempty t)
  · rw [hnet', hnet, List.append_assoc]
  · rw [List.mem_append, htold u, or_iff_left]
    exact fun hop => (haside _ hop).ne_ownership u rfl

theorem congr (h : Scene s r info members owner told s') (hc : s''.clients = s'.clients)
    (hr : s''.chatRooms = s'.chatRooms) (hn : s''.net = s'.net) :
    Scene s r info members owner told s'' := by
  refine ⟨fun u => ?_, ?_, ?_⟩
  · rw [Globals.info, hc]
    exact h.info u
  · rw [hr]
    exact h.room
  · rw [hn]
    exact h.net

theorem sendAll (h : Scene s r info members owner told s') {text : Bytes}
    (hne : text ≠ ownershipLine) (socks : List SOCKET) :
    Scene s r info members owner told (s'.sendAll socks text) := by
  obtain ⟨ops, hnet, htold⟩ := h.net
  refine ⟨h.info, h.room, ops ++ socks.map fun sock => .sent sock text, ?_, fun u => ?_⟩
  · rw [Globals.sendAll, hnet, List.append_assoc]
  · rw [List.mem_append, htold u, or_iff_left]
    intro hop
    obtain ⟨sock, -, heq⟩ := List.mem_map.1 hop
    rw [NetOp.sent.injEq] at heq
    exact hne heq.2

/-- The line to the new owner. -/
theorem tell (h : Scene s r info members owner (fun _ => False) s') :
    Scene s r info members owner (fun u => u = t) (s'.send t ownershipLine) := by
  obtain ⟨ops, hnet, htold⟩ := h.net
  refine ⟨h.info, h.room, ops ++ [.sent t ownershipLine], ?_, fun u => ?_⟩
  · rw [Globals.send, hnet, List.append_assoc]
  · rw [List.mem_append, htold u, false_or, List.mem_singleton, NetOp.sent.injEq,
      and_iff_left rfl]

theorem setInfo (h : Scene s r info members owner told s') (t : SOCKET)
    (f : ClientInfo → ClientInfo) :
    Scene s r (Function.update info t (f (info t))) members owner told (s'.setInfo t f) := by
  refine ⟨fun u => ?_, h.room, h.net⟩
  rw [Globals.info, Globals.setInfo, Std.ExtTreeMap.getElem?_insert, h.info t]
  by_cases hu : u = t
  · simp [hu]
  · have hu' : ¬t = u := fun heq => hu heq.symm
    rw [Function.update_of_ne hu, ← h.info u]
    simp [hu', Globals.info]

theorem editRoom (h : Scene s r info members owner told s') {f : ChatRoom → ChatRoom}
    {members' : Std.ExtTreeSet SOCKET} {owner' : SOCKET}
    (hf : ∀ room, room.clients = members → room.ownerSocket = owner →
      (f room).clients = members' ∧ (f room).ownerSocket = owner') :
    Scene s r info members' owner' told (s'.editRoom r f) := by
  obtain ⟨room, hroom, hmembers, howner⟩ := h.room
  refine ⟨h.info, ⟨f room, ?_, hf room hmembers howner⟩, h.net⟩
  rw [Globals.getElem?_editRoom, if_pos rfl, hroom, Option.map_some]

end Scene

theorem Scene.start {s : Globals} {r : Bytes} {room : ChatRoom} (h : s.chatRooms[r]? = some room) :
    Scene s r s.info room.clients room.ownerSocket (fun _ => False) s :=
  ⟨fun _ => rfl, ⟨room, h, rfl, rfl⟩, [], (List.append_nil _).symm,
    fun _ => iff_of_false List.not_mem_nil id⟩

section Handler

variable {s : Globals} {r : Bytes} {room : ChatRoom} {sock : SOCKET}

theorem heir_mem (hmem : sock ∈ room.clients) (hother : ∃ t ∈ room.clients, t ≠ sock) :
    room.heir sock ∈ room.clients ∧ room.heir sock ≠ sock := by
  by_cases hself : room.getLongestMember 0 = sock
  · obtain ⟨t, hfind, ht, -⟩ := ChatRoom.find?_other hother
    rw [ChatRoom.heir, if_pos hself, hfind, Option.getD_some]
    exact ht
  · rw [ChatRoom.heir, if_neg hself]
    exact ⟨room.getLongestMember_mem 0 hmem, hself⟩

/-- The owner picks its heir, whatever has been delivered to the room meanwhile. -/
theorem post_chooseHeir {s' : Globals} (hroom : s.chatRooms[r]? = some room)
    (hmem : sock ∈ room.clients) (hother : ∃ t ∈ room.clients, t ≠ sock) (h : Meanwhile s s')
    (e : Env) : (chooseNewOwner r sock).post e s' fun t s'' => s'' = s' ∧ t = room.heir sock := by
  obtain ⟨history, hroom'⟩ := (h.backdrop.kept r room hroom).resolve_right
    fun hgone => room.isEmpty_iff.1 hgone.2 sock hmem
  apply Block.post_mono (post_chooseNewOwner e s' r sock)
  rintro t s'' ⟨rfl, ⟨-, hsub⟩ | ⟨-, room', hlive, -, rfl⟩⟩
  · -- two members are not one
    obtain ⟨u, hu, hne⟩ := hother
    have hin : ∀ x ∈ room.clients, x ∈ s''.hall.membersOf r :=
      fun x hx => (s''.mem_membersOf_hall r x).2 ⟨_, hroom', hx⟩
    exact absurd (hsub (hin u hu) (hin sock hmem)) hne
  · rw [hroom', Option.some.injEq] at hlive
    subst hlive
    exact ⟨rfl, rfl⟩

/-- The notices of a forced leave: the new owner is told when it has a name. -/
theorem post_announce {s' : Globals} {info : SOCKET → ClientInfo}
    {members : Std.ExtTreeSet SOCKET} {owner t : SOCKET}
    (h : Scene s r info members owner (fun _ => False) s') (e : Env) (username name : Bytes) :
    (announceForceLeave r username name t sock).post e s' fun _ s'' =>
      Scene s r info (members.erase sock) owner (fun u => u = t ∧ name ≠ []) s'' := by
  have hleave : ∀ told s₁, Scene s r info members owner told s₁ → ∀ socks text, Quiet text →
      Scene s r info (members.erase sock) owner told
        ((s₁.sendAll socks text).editRoom r fun room => room.removeClient sock) := by
    intro told s₁ h₁ socks text hq
    apply (h₁.sendAll (Quiet.ne_ownership hq) socks).editRoom
    rintro room rfl rfl
    exact ⟨rfl, rfl⟩
  simp only [announceForceLeave, announceNewOwner, Block.post_bind, post_getCurrentTimestamp,
    post_broadcast, post_tellRoom, post_askRoom, Block.post_ite, post_spawnCleanup, Block.post_pure,
    post_broadcastToAll, post_sendToClient, List.isEmpty_iff]
  constructor
  · rintro rfl
    have hnobody : Scene s r info members owner (fun u => u = t ∧ ([] : Bytes) ≠ []) s' := by
      simpa using h
    constructor
    · intro _
      exact (hleave _ _ hnobody _ _ (quiet_systemText _ _)).congr rfl rfl rfl
    · intro _
      exact hleave _ _ hnobody _ _ (quiet_systemText _ _)
  · intro hname
    have htold : ∀ socks, Scene s r info members owner (fun u => u = t ∧ name ≠ [])
        ((s'.sendAll socks (systemText (e.wall 1).text
          (str "Room ownership transferred to " ++ name))).send t ownershipLine) := by
      intro socks
      simpa [hname] using (h.sendAll (Quiet.ne_ownership (quiet_systemText _ _)) socks).tell (t := t)
    constructor
    · intro _
      exact (hleave _ _ (htold _) _ _ (quiet_systemText _ _)).congr rfl rfl rfl
    · intro _
      exact hleave _ _ (htold _) _ _ (quiet_systemText _ _)

/-- The promotion of the heir. -/
theorem post_promote {s' : Globals} {info : SOCKET → ClientInfo}
    {members : Std.ExtTreeSet SOCKET} {owner t : SOCKET} {told : SOCKET → Prop}
    (h : Scene s r info members owner told s') (hconn : t ∈ s'.clients) (e : Env) :
    (promoteNewOwner r t).post e s' fun name s'' => name = (info t).username ∧
      Scene s r (Function.update info t { info t with isRoomOwner := true }) members t told s'' := by
  simp only [promoteNewOwner, Block.post_bind, Block.post_read, Block.post_ite, post_clientInfo,
    post_setClientInfo, post_tellRoom, Block.post_pure, Std.ExtTreeMap.contains_iff_mem]
  refine ⟨fun _ => ⟨by rw [h.info t], ?_⟩, fun hnone => absurd hconn hnone⟩
  apply (h.setInfo t fun c => { c with isRoomOwner := true }).editRoom
  rintro room rfl -
  exact ⟨rfl, rfl⟩

/-- The clients after the owner has handed its room to its heir. -/
def handedOn (s : Globals) (sock heir : SOCKET) : SOCKET → ClientInfo :=
  Function.update (Function.update s.info heir { s.info heir with isRoomOwner := true }) sock
    { s.info sock with
      roomId := []
      isRoomOwner := false }

/-- FORCELEAVE of an owner that is not alone in its room. -/
theorem wpIn_handleForceLeaveCommand (hrules : s.Rules sock r) (hroom : s.chatRooms[r]? = some room)
    (hmem : sock ∈ room.clients) (hother : ∃ t ∈ room.clients, t ≠ sock)
    (hconn : ∀ t ∈ room.clients, t ∈ s.clients ∧ t ≠ INVALID_SOCKET) :
    (handleForceLeaveCommand sock).wpIn (fun _ => True) Meanwhile (fun _ s' =>
      Scene s r (handedOn s sock (room.heir sock)) (room.clients.erase sock) (room.heir sock)
        (fun u => u = room.heir sock ∧ (s.info (room.heir sock)).username ≠ []) s') s := by
  obtain ⟨⟨hr, hin⟩, howner⟩ := hrules
  obtain ⟨hheir, hne⟩ := heir_mem hmem hother
  have hstay : room.heir sock ∈ room.clients.erase sock := by
    rw [Std.ExtTreeSet.mem_erase]
    exact ⟨fun heq => hne (compare_eq_iff_eq.1 heq).symm, hheir⟩
  rw [handleForceLeaveCommand, Prog.wpIn_bind, wpIn_critical]
  intro e₁ _ s₁ h₁
  rw [post_clientInfo, h₁.backdrop.info, Prog.wpIn_ite]
  refine ⟨fun hempty => absurd (List.isEmpty_iff.1 hempty) (by rw [hin]; exact hr), fun _ => ?_⟩
  rw [Prog.wpIn_ite]
  refine ⟨fun hguest => absurd howner (by simpa using hguest), fun _ => ?_⟩
  rw [Prog.wpIn_bind, handOverRoom, Prog.wpIn_holding, Prog.wpIn_bind, wpIn_step, hin]
  intro e₂ _ s₂ h₂
  have hback := h₁.trans h₂
  have hlive : s₂.chatRooms.contains r = true := by
    rw [Std.ExtTreeMap.contains_iff_mem]
    exact (hback.backdrop.isMember ⟨room, hroom, hmem⟩).mem
  rw [post_roomExists, hlive, if_pos rfl, Prog.wpIn_bind, wpIn_step]
  intro e₃ _ s₃ h₃
  apply Block.post_mono (post_chooseHeir hroom hmem hother (hback.trans h₃) e₃)
  rintro t s₄ ⟨rfl, rfl⟩
  -- the heir is another member, and connected
  rw [Prog.wpIn_bind, promoteOther, if_pos ⟨(hconn _ hheir).2, hne⟩, wpIn_critical]
  intro e₅ _ s₅ h₅
  have hlast := (hback.trans h₃).trans h₅
  have hclients : room.heir sock ∈ s₅.clients := by
    rw [hlast.backdrop.clients]
    exact (hconn _ hheir).1
  apply Block.post_mono (post_promote ((Scene.start hroom).meanwhile hheir hlast) hclients e₅)
  rintro name s₆ ⟨rfl, hscene⟩
  rw [wpIn_step]
  intro e₇ _ s₇ h₇
  apply Block.post_mono (post_announce (hscene.meanwhile hheir h₇) e₇ _ _)
  intro _ s₈ hscene'
  rw [Prog.wpIn_bind, wpIn_critical]
  intro e₉ _ s₉ h₉
  rw [post_setClientInfo, reply, wpIn_step]
  intro e₁₀ _ s₁₀ h₁₀
  rw [post_sendToClient]
  have hlast' := ((hscene'.meanwhile hstay h₉).setInfo sock fun c => { c with
    roomId := []
    isRoomOwner := false }).meanwhile hstay h₁₀
  rw [Function.update_of_ne (Ne.symm hne)] at hlast'
  exact hlast'.sendAll (by decide) [sock]

end Handler

/-! ## The succession -/

/-- Ownership of the room has passed from the leaver to the heir, the heir has been told so, and the
leaver is gone. -/
structure Succeeds (s s' : Globals) (r : Bytes) (leaver heir : SOCKET) : Prop where
  flagged : (s'.info heir).isRoomOwner = true
  owner : ∃ room, s'.chatRooms[r]? = some room ∧ room.ownerSocket = heir
  outside : (s'.info leaver).roomId = [] ∧ ∀ q, ¬s'.IsMember leaver q
  unflagged : (s'.info leaver).isRoomOwner = false
  told : .sent heir ownershipLine ∈ opsBetween s s'

namespace Machine

variable {m m' : Machine} {ev : Event} {r : Bytes} {room : ChatRoom}

/-- The room passes to the eldest of the others. When the owner of a room with other members, who joined
at different times, executes FORCELEAVE, the eldest of the others becomes the owner and is told so,
exactly when somebody has joined before the leaver or the other member with the smallest socket number is
the eldest, and the eldest has a name. -/
theorem succession_iff (hm : Reachable anyStep m) (hidle : m.Idle) (hh : HandlesBy anyStep m ev m')
    (hcommand : ev.command = some .forceLeave) (hrules : m.globals.Rules ev.socket r)
    (hroom : m.globals.chatRooms[r]? = some room) (hmem : ev.socket ∈ room.clients)
    (hother : ∃ t ∈ room.clients, t ≠ ev.socket) (hapart : room.JoinedApart) :
    (∃ heir, room.Eldest ev.socket heir ∧
      Succeeds m.globals m'.globals r ev.socket heir) ↔
    ((∃ t ∈ room.clients, room.joinTime t < room.joinTime ev.socket) ∨
        ∃ t, room.Eldest ev.socket t ∧ ∀ u ∈ room.clients, u ≠ ev.socket → t ≤ u) ∧
      ∀ t, room.Eldest ev.socket t → (m.globals.info t).username ≠ [] := by
  have hconn : ∀ t ∈ room.clients, t ∈ m.globals.clients ∧ t ≠ INVALID_SOCKET := by
    intro t ht
    obtain ⟨hr, hinfo⟩ := roomId_of_isMember hm hidle ⟨room, hroom, ht⟩
    have hin : t ∈ m.globals.clients := by
      by_contra hnone
      rw [Globals.info, Std.ExtTreeMap.getElem?_eq_none hnone] at hinfo
      exact hr hinfo.symm
    refine ⟨hin, ?_⟩
    rintro rfl
    exact (hallRun_of_reachable hm hidle).valid hin
  obtain ⟨hheir, hne⟩ := heir_mem hmem hother
  have hscene : Scene m.globals r (handedOn m.globals ev.socket (room.heir ev.socket))
      (room.clients.erase ev.socket) (room.heir ev.socket) (fun u => u = room.heir ev.socket ∧
        (m.globals.info (room.heir ev.socket)).username ≠ []) m'.globals := by
    apply hh.ends_in (E := fun _ => True) hm fun _ _ _ => trivial
    · intro s s' h hs
      apply h.meanwhile (t := room.heir ev.socket) _ hs
      rw [Std.ExtTreeSet.mem_erase]
      exact ⟨fun heq => hne (compare_eq_iff_eq.1 heq).symm, hheir⟩
    · rw [handler_of_command hcommand]
      exact wpIn_handleForceLeaveCommand hrules hroom hmem hother hconn
  obtain ⟨room', hroom', hmembers, howner⟩ := hscene.room
  obtain ⟨ops, hnet, htold⟩ := hscene.net
  have hleaver : m'.globals.info ev.socket = { m.globals.info ev.socket with
      roomId := []
      isRoomOwner := false } := by
    rw [hscene.info, handedOn, Function.update_self]
  rw [← ChatRoom.eldest_heir_iff (fun t ht => (hconn t ht).2) hapart hmem hother]
  constructor
  · rintro ⟨heir, heldest, hs⟩
    -- the owner of the room is the heir of the code
    obtain ⟨room'', hroom'', howner''⟩ := hs.owner
    rw [hroom', Option.some.injEq] at hroom''
    subst hroom''
    obtain rfl : room.heir ev.socket = heir := howner.symm.trans howner''
    refine ⟨heldest, fun t ht => ?_⟩
    rw [ht.unique hapart heldest]
    have hsent := hs.told
    rw [opsBetween_eq hnet, htold] at hsent
    exact hsent.2
  · rintro ⟨heldest, hnamed⟩
    refine ⟨_, heldest, ?_, ⟨room', hroom', howner⟩, ⟨?_, fun q hq => ?_⟩, ?_, ?_⟩
    · rw [hscene.info, handedOn, Function.update_of_ne hne, Function.update_self]
    · rw [hleaver]
    · have hback := roomId_of_isMember (hh.reachable hm) hh.idle hq
      rw [hleaver] at hback
      exact hback.1 hback.2.symm
    · rw [hleaver]
    · rw [opsBetween_eq hnet, htold]
      exact ⟨rfl, hnamed _ heldest⟩

/-! ### Examples -/

/-- A property of the machine after some steps, and after one more event. -/
theorem handled_of_play (ls : List Label) (ev : Event) (draw : Fin 900000)
    (p : Machine → Machine → Bool)
    (h : (((play (boot {} 3, {}) ls).1.serve (fun _ _ => True) ev draw).any fun m' =>
      decide ((play (boot {} 3, {}) ls).1.Idle ∧ m'.Idle) && p (play (boot {} 3, {}) ls).1 m') = true) :
    ∃ m m', Reachable anyStep m ∧ m.Idle ∧ HandlesBy anyStep m ev m' ∧ p m m' = true := by
  obtain ⟨m', hserve, hp⟩ := (Option.any_eq_true _ _).1 h
  rw [Bool.and_eq_true, decide_eq_true_eq] at hp
  have hw : Watched anyStep {} 3 (play (boot {} 3, {}) ls).1 (play (boot {} 3, {}) ls).2 :=
    play_watched ls (boot {} 3, {}) fun _ _ _ => trivial
  simp only [serve, if_true, Option.map_eq_some_iff] at hserve
  obtain ⟨m₁, hstart, rfl⟩ := hserve
  refine ⟨_, _, hw.reachable, hp.1.1, ⟨trivial, ⟨m₁, hstart, ?_⟩, hp.1.2⟩, hp.2⟩
  exact finish_reaches (fun _ => ⟨trivial, fun ev => by simp⟩) 60 m₁

/-- A client makes a room; bob joins it a second later, and another client another second later. -/
def visiting (bob other : SOCKET) : List Label :=
  serving (.connect 4) 0 ++ serving (.receive 4 (str "/CREATE PUBLIC")) 7 ++
    serving (.connect bob) 0 ++ serving (.receive bob (str "/SETNAME bob")) 0 ++ [.tick 1] ++
      serving (.receive bob (str "/JOIN 100007")) 0 ++ serving (.connect other) 0 ++ [.tick 1] ++
        serving (.receive other (str "/JOIN 100007")) 0

/-- Before the event the client on socket 4 owns the room with the two others; after it the room has the
owner `heir`. -/
def handsTo (bob other heir : SOCKET) (m m' : Machine) : Bool :=
  decide (m.globals.Rules 4 (str "100007") ∧ (m.globals.info bob).username = str "bob") &&
    ((m.globals.chatRooms[str "100007"]?).any fun room => decide (room.clients.toList = [4, 5, 6] ∧
      [4, bob, other].map room.joinTime = [0, 1, 2])) &&
    (m'.globals.chatRooms[str "100007"]?).any fun room => decide (room.ownerSocket = heir)

theorem rooms_of_handsTo {bob other heir : SOCKET} (h : handsTo bob other heir m m' = true) :
    ∃ room room' : ChatRoom, (m.globals.Rules 4 (str "100007") ∧
      (m.globals.info bob).username = str "bob") ∧
        m.globals.chatRooms[str "100007"]? = some room ∧ room.clients.toList = [4, 5, 6] ∧
          [4, bob, other].map room.joinTime = [0, 1, 2] ∧
            m'.globals.chatRooms[str "100007"]? = some room' ∧ room'.ownerSocket = heir := by
  simp only [handsTo, Bool.and_eq_true, decide_eq_true_eq, Option.any_eq_true] at h
  obtain ⟨⟨howns, room, hroom, hlist, htimes⟩, room', hroom', howner⟩ := h
  exact ⟨room, room', howns, hroom, hlist, htimes, hroom', howner⟩

theorem mem_of_toList {room : ChatRoom} (h : room.clients.toList = [4, 5, 6]) (t : SOCKET) :
    t ∈ room.clients ↔ t = 4 ∨ t = 5 ∨ t = 6 := by
  rw [← Std.ExtTreeSet.mem_toList, h]
  simp

/-- Bob has joined before another client with a higher number, and takes over. -/
theorem succession_iff_bob : ∃ (m m' : Machine) (room : ChatRoom), Reachable anyStep m ∧
    room.Eldest 4 5 ∧ Succeeds m.globals m'.globals (str "100007") 4 5 := by
  obtain ⟨m, m', hm, hidle, hh, hp⟩ := handled_of_play (visiting 5 6)
    (.receive 4 (str "/FORCELEAVE")) 0 (handsTo 5 6 5) (by decide +kernel)
  obtain ⟨room, room', ⟨hrules, hname⟩, hroom, hlist, htimes, -⟩ := rooms_of_handsTo hp
  simp only [List.map_cons, List.map_nil, List.cons.injEq, and_true] at htimes
  obtain ⟨h4, h5, h6⟩ := htimes
  have hmem := mem_of_toList hlist
  have hapart : room.JoinedApart := by
    intro s hs t ht htime
    rcases (hmem s).1 hs with rfl | rfl | rfl <;> rcases (hmem t).1 ht with rfl | rfl | rfl <;>
      simp [h4, h5, h6] at htime ⊢
  have heldest : room.Eldest 4 5 := by
    refine ⟨⟨(hmem 5).2 (by simp), by decide⟩, fun u hu hne => ?_⟩
    rcases (hmem u).1 hu with rfl | rfl | rfl
    · exact absurd rfl hne
    · exact le_rfl
    · omega
  obtain ⟨heir, hheir, hs⟩ := (succession_iff hm hidle hh (by decide) hrules hroom
    ((hmem 4).2 (by simp)) ⟨5, (hmem 5).2 (by simp), by decide⟩ hapart).2 (by
      refine ⟨Or.inr ⟨5, heldest, fun u hu hne => ?_⟩, fun t ht => ?_⟩
      · rcases (hmem u).1 hu with rfl | rfl | rfl
        · exact absurd rfl hne
        · exact le_rfl
        · decide
      · rw [ht.unique hapart heldest, hname]
        decide)
  rw [hheir.unique hapart heldest] at hs
  exact ⟨m, m', room, hm, heldest, hs⟩

/-- Bob has joined before another client with a lower number, which takes over. -/
theorem not_succession : ¬∀ (m m' : Machine) (ev : Event) (r : Bytes) (room : ChatRoom),
    Reachable anyStep m → m.Idle → HandlesBy anyStep m ev m' → ev.command = some .forceLeave →
      m.globals.Rules ev.socket r → m.globals.chatRooms[r]? = some room →
        ev.socket ∈ room.clients → (∃ t ∈ room.clients, t ≠ ev.socket) → room.JoinedApart →
          ∃ heir, room.Eldest ev.socket heir ∧
            Succeeds m.globals m'.globals r ev.socket heir := by
  intro h
  obtain ⟨m, m', hm, hidle, hh, hp⟩ := handled_of_play (visiting 6 5)
    (.receive 4 (str "/FORCELEAVE")) 0 (handsTo 6 5 5) (by decide +kernel)
  obtain ⟨room, room', ⟨hrules, -⟩, hroom, hlist, htimes, hroom', howner⟩ := rooms_of_handsTo hp
  simp only [List.map_cons, List.map_nil, List.cons.injEq, and_true] at htimes
  obtain ⟨h4, h6, h5⟩ := htimes
  have hmem := mem_of_toList hlist
  have hapart : room.JoinedApart := by
    intro s hs t ht htime
    rcases (hmem s).1 hs with rfl | rfl | rfl <;> rcases (hmem t).1 ht with rfl | rfl | rfl <;>
      simp [h4, h5, h6] at htime ⊢
  obtain ⟨heir, heldest, hs⟩ := h m m' _ _ room hm hidle hh (by decide) hrules hroom
    ((hmem 4).2 (by simp)) ⟨5, (hmem 5).2 (by simp), by decide⟩ hapart
  obtain ⟨room'', hroom'', howner''⟩ := hs.owner
  rw [hroom', Option.some.injEq] at hroom''
  subst hroom''
  have hle := heldest.2 6 ((hmem 6).2 (by simp)) (by decide)
  rw [← howner'', howner, h5, h6] at hle
  omega

end Machine

end TerminalChat.Server
