import Mathlib
import TerminalChat.Server.ChatRoom

/-!
# The longest member

`ChatRoom::getLongestMember` goes through the members in the order of their numbers and keeps the earliest
join time it has seen. After any calls of `addClient` and `removeClient` this is a member whose last join is
the earliest, and among those the one with the smallest number (`longest_member_correct`).
-/

set_option autoImplicit false

namespace TerminalChat.Server

open TerminalChat.Text

/-- A call of `addClient` or `removeClient`; `now` is the reading of the steady clock. -/
inductive RoomCall where
  | add (sock : SOCKET) (now : Nat)
  | remove (sock : SOCKET)
  deriving DecidableEq

/-- What a call does to the room. -/
def RoomCall.apply (room : ChatRoom) : RoomCall → ChatRoom
  | .add sock now => room.addClient sock now
  | .remove sock => room.removeClient sock

/-- When the socket joined most recently, if it has not been removed since. -/
def RoomCall.joined (sock : SOCKET) (time : Option Nat) : RoomCall → Option Nat
  | .add s now => if s = sock then some now else time
  | .remove s => if s = sock then none else time

/-- The most recent join of a socket in a sequence of calls. -/
def lastJoin (calls : List RoomCall) (sock : SOCKET) : Option Nat :=
  calls.foldl (RoomCall.joined sock) none

/-- The most recent join is one of the calls. -/
theorem mem_of_foldl_joined {sock : SOCKET} {time : Nat} {calls : List RoomCall} :
    ∀ {acc : Option Nat}, calls.foldl (RoomCall.joined sock) acc = some time →
      acc = some time ∨ .add sock time ∈ calls := by
  induction calls with
  | nil => exact fun h => Or.inl h
  | cons call calls ih =>
      intro acc h
      rcases ih h with h | h
      · cases call with
        | add s now =>
            simp only [RoomCall.joined] at h
            split at h
            · rename_i hs
              rw [Option.some.injEq] at h
              rw [hs, h]
              exact Or.inr List.mem_cons_self
            · exact Or.inl h
        | remove s =>
            simp only [RoomCall.joined] at h
            split at h
            · exact absurd h (by simp)
            · exact Or.inl h
      · exact Or.inr (List.mem_cons_of_mem call h)

/-- A new room after calls of `addClient` and `removeClient`. -/
def roomAfter (id : Bytes) (isPrivate : Bool) (password : Bytes) (owner : SOCKET)
    (calls : List RoomCall) : ChatRoom :=
  calls.foldl RoomCall.apply (.new id isPrivate password owner)

namespace ChatRoom

variable {room : ChatRoom} {s t : SOCKET}

/-- The join times of the room are those of the calls. -/
theorem joinTimes_foldl (calls : List RoomCall) (sock : SOCKET) : ∀ room : ChatRoom,
    (calls.foldl RoomCall.apply room).clientJoinTimes[sock]? =
      calls.foldl (RoomCall.joined sock) room.clientJoinTimes[sock]? := by
  induction calls with
  | nil => exact fun _ => rfl
  | cons call calls ih =>
      intro room
      rw [List.foldl_cons, List.foldl_cons, ih]
      congr 1
      cases call with
      | add s now =>
          rw [RoomCall.apply, RoomCall.joined, addClient, Std.ExtTreeMap.getElem?_insert]
          by_cases h : s = sock <;> simp [h]
      | remove s =>
          rw [RoomCall.apply, RoomCall.joined, removeClient, Std.ExtTreeMap.getElem?_erase]
          by_cases h : s = sock <;> simp [h]

/-- The join time of the first is earlier than that of the second, or it is the same and the number of the
first is not larger. -/
def Before (p q : SOCKET × Nat) : Prop := p.2 < q.2 ∨ p.2 = q.2 ∧ p.1 ≤ q.1

theorem Before.trans {p q r : SOCKET × Nat} (h : Before p q) (h' : Before q r) : Before p r := by
  rcases h with h | ⟨htime, hsock⟩
  · rcases h' with h' | ⟨htime', -⟩
    · exact Or.inl (h.trans h')
    · exact Or.inl (htime' ▸ h)
  · rcases h' with h' | ⟨htime', hsock'⟩
    · exact Or.inl (htime ▸ h')
    · exact Or.inr ⟨htime.trans htime', hsock.trans hsock'⟩

/-- The search finds the first of the sockets it visits, in the order of the join times. -/
theorem foldl_longestStep_before (times : Std.ExtTreeMap SOCKET Nat) :
    ∀ (l : List SOCKET) (acc : SOCKET × Nat), acc.1 ≠ INVALID_SOCKET → times[acc.1]? = some acc.2 →
      (∀ s ∈ l, s ≠ INVALID_SOCKET) → (acc.1 :: l).Pairwise (· < ·) →
        times[(l.foldl (longestStep times) acc).1]? = some (l.foldl (longestStep times) acc).2 ∧
          Before (l.foldl (longestStep times) acc) acc ∧
            ∀ s ∈ l, ∀ time, times[s]? = some time →
              Before (l.foldl (longestStep times) acc) (s, time)
  | [], acc, _, htime, _, _ =>
      ⟨htime, Or.inr ⟨rfl, le_rfl⟩, fun s hs => absurd hs List.not_mem_nil⟩
  | x :: l, acc, hacc, hheld, hl, hsorted => by
      have hx := hl x List.mem_cons_self
      have hrest : ∀ s ∈ l, s ≠ INVALID_SOCKET := fun s hs => hl s (List.mem_cons_of_mem x hs)
      obtain ⟨hfirst, htail⟩ := List.pairwise_cons.1 hsorted
      have hlt := hfirst x List.mem_cons_self
      -- the step keeps what it has, or takes the socket it visits
      have hstep : (longestStep times acc x = acc ∨
          ∃ time, times[x]? = some time ∧ longestStep times acc x = (x, time)) ∧
          Before (longestStep times acc x) acc ∧
          ∀ time, times[x]? = some time → Before (longestStep times acc x) (x, time) := by
        unfold longestStep
        cases htime : times[x]? with
        | none => exact ⟨Or.inl rfl, Or.inr ⟨rfl, le_rfl⟩, fun time ht => nomatch ht⟩
        | some time =>
            dsimp only
            split
            · rename_i h
              refine ⟨Or.inr ⟨time, rfl, rfl⟩, Or.inl (h.resolve_left hacc), ?_⟩
              intro time' ht
              rw [Option.some.inj ht]
              exact Or.inr ⟨rfl, le_rfl⟩
            · rename_i h
              refine ⟨Or.inl rfl, Or.inr ⟨rfl, le_rfl⟩, ?_⟩
              intro time' ht
              rw [← Option.some.inj ht]
              rw [not_or, Nat.not_lt] at h
              rcases Nat.lt_or_eq_of_le h.2 with hearlier | hsame
              · exact Or.inl hearlier
              · exact Or.inr ⟨hsame, Nat.le_of_lt hlt⟩
      obtain ⟨hkind, hbefore, hvisited⟩ := hstep
      have hnext : (longestStep times acc x).1 ≠ INVALID_SOCKET ∧
          times[(longestStep times acc x).1]? = some (longestStep times acc x).2 ∧
          ((longestStep times acc x).1 :: l).Pairwise (· < ·) := by
        rcases hkind with h | ⟨time, htime, h⟩
        · rw [h]
          refine ⟨hacc, hheld, List.pairwise_cons.2 ⟨fun s hs => ?_, (List.pairwise_cons.1 htail).2⟩⟩
          exact hfirst s (List.mem_cons_of_mem x hs)
        · rw [h]
          exact ⟨hx, htime, htail⟩
      obtain ⟨ih₀, ih, ih'⟩ :=
        foldl_longestStep_before times l _ hnext.1 hnext.2.1 hrest hnext.2.2
      rw [List.foldl_cons]
      refine ⟨ih₀, ih.trans hbefore, fun s hs time ht => ?_⟩
      rcases List.mem_cons.1 hs with rfl | hs
      · exact ih.trans (hvisited time ht)
      · exact ih' s hs time ht

/-- The longest member is before all members in the order of the join times. -/
theorem getLongestMember_before (hvalid : ∀ s ∈ room.clients, s ≠ INVALID_SOCKET) (now : Nat)
    (hs : s ∈ room.clients) : ∃ time, room.clientJoinTimes[room.getLongestMember now]? = some time ∧
      ∀ u ∈ room.clients, ∃ time', room.clientJoinTimes[u]? = some time' ∧
        Before (room.getLongestMember now, time) (u, time') := by
  have htime : ∀ u ∈ room.clients, ∃ time, room.clientJoinTimes[u]? = some time := fun u hu =>
    ⟨_, Std.ExtTreeMap.getElem?_eq_some_getElem ((room.joinTimes_keys u).2 hu)⟩
  have hsorted : room.clients.toList.Pairwise (· < ·) :=
    Std.ExtTreeSet.ordered_toList.imp fun h => Nat.compare_eq_lt.1 h
  have hmem : ∀ x ∈ room.clients.toList, x ∈ room.clients :=
    fun x hx => Std.ExtTreeSet.mem_toList.1 hx
  have hlisted : ∀ u ∈ room.clients, u ∈ room.clients.toList :=
    fun u hu => Std.ExtTreeSet.mem_toList.2 hu
  have hne : room.clients.isEmpty = false := by
    rw [Bool.eq_false_iff]
    intro he
    rw [Std.ExtTreeSet.isEmpty_iff] at he
    exact Std.ExtTreeSet.eq_empty_iff_forall_not_mem.1 he s hs
  rw [getLongestMember, hne]
  simp only [Bool.false_eq_true, if_false]
  cases hl : room.clients.toList with
  | nil =>
      have hs' := hlisted s hs
      rw [hl] at hs'
      exact absurd hs' List.not_mem_nil
  | cons x l =>
      rw [hl] at hsorted hmem hlisted
      have hx := hmem x List.mem_cons_self
      obtain ⟨first, hfirst⟩ := htime x hx
      -- the sentinel accepts the first member, whatever the clock says
      have hstart : longestStep room.clientJoinTimes (INVALID_SOCKET, now) x = (x, first) := by
        simp [longestStep, hfirst]
      obtain ⟨hheld, hbefore, hall⟩ := foldl_longestStep_before room.clientJoinTimes l (x, first)
        (hvalid x hx) hfirst (fun y hy => hvalid y (hmem y (List.mem_cons_of_mem x hy))) hsorted
      rw [List.foldl_cons, hstart]
      refine ⟨_, hheld, fun u hu => ?_⟩
      obtain ⟨time', ht'⟩ := htime u hu
      refine ⟨time', ht', ?_⟩
      rcases List.mem_cons.1 (hlisted u hu) with rfl | hul
      · rw [hfirst, Option.some.injEq] at ht'
        rw [← ht']
        exact hbefore
      · exact hall u hul time' ht'

/-- The longest member of an empty room is no socket. -/
theorem getLongestMember_of_empty (now : Nat) (h : ∀ s, s ∉ room.clients) :
    room.getLongestMember now = INVALID_SOCKET := by
  have hempty : room.clients = ∅ := Std.ExtTreeSet.eq_empty_iff_forall_not_mem.2 h
  rw [getLongestMember, hempty]
  rfl

end ChatRoom

/-- **The longest member is computed correctly.** After any calls with valid sockets, the join times are
kept for the members only, they are those of the most recent joins, the longest member is
`INVALID_SOCKET` exactly when the room is empty, and otherwise it is the member that joined first, the
one with the smallest number among those. This holds whatever the clock reads. -/
theorem longest_member_correct (id password : Bytes) (isPrivate : Bool) (owner : SOCKET) (now : Nat)
    {calls : List RoomCall} (hvalid : ∀ sock time, .add sock time ∈ calls → sock ≠ INVALID_SOCKET) :
    (∀ s, s ∈ (roomAfter id isPrivate password owner calls).clientJoinTimes ↔
      s ∈ (roomAfter id isPrivate password owner calls).clients) ∧
    (∀ s, s ∈ (roomAfter id isPrivate password owner calls).clients ↔ (lastJoin calls s).isSome) ∧
    ((roomAfter id isPrivate password owner calls).getLongestMember now = INVALID_SOCKET ↔
      ∀ s, s ∉ (roomAfter id isPrivate password owner calls).clients) ∧
    ((∃ s, s ∈ (roomAfter id isPrivate password owner calls).clients) →
      ∃ t ∈ (roomAfter id isPrivate password owner calls).clients,
        (roomAfter id isPrivate password owner calls).getLongestMember now = t ∧
        ∀ s ∈ (roomAfter id isPrivate password owner calls).clients,
          ∃ first time, lastJoin calls t = some first ∧ lastJoin calls s = some time ∧
            (first < time ∨ first = time ∧ t ≤ s)) := by
  obtain ⟨room, hroom⟩ : ∃ room, roomAfter id isPrivate password owner calls = room := ⟨_, rfl⟩
  have htimes : ∀ s, room.clientJoinTimes[s]? = lastJoin calls s := by
    intro s
    rw [← hroom, roomAfter, ChatRoom.joinTimes_foldl]
    rfl
  have hmembers : ∀ s, s ∈ room.clients ↔ (lastJoin calls s).isSome := by
    intro s
    rw [← room.joinTimes_keys, ← htimes, Std.ExtTreeMap.isSome_getElem?_iff_mem]
  have hsockets : ∀ s ∈ room.clients, s ≠ INVALID_SOCKET := by
    intro s hs
    obtain ⟨time, htime⟩ := Option.isSome_iff_exists.1 ((hmembers s).1 hs)
    rcases mem_of_foldl_joined htime with h | h
    · exact absurd h (by simp)
    · exact hvalid s time h
  rw [hroom]
  refine ⟨room.joinTimes_keys, hmembers, ⟨?_, room.getLongestMember_of_empty now⟩, ?_⟩
  · intro hnone s hs
    exact hsockets _ (room.getLongestMember_mem now hs) hnone
  · rintro ⟨s, hs⟩
    obtain ⟨first, hfirst, hall⟩ := ChatRoom.getLongestMember_before hsockets now hs
    refine ⟨_, room.getLongestMember_mem now hs, rfl, fun u hu => ?_⟩
    obtain ⟨time, htime, hbefore⟩ := hall u hu
    exact ⟨first, time, (htimes _).symm.trans hfirst, (htimes u).symm.trans htime, hbefore⟩

/-- Socket 5 joins again at the time at which socket 4 has joined; socket 3 is gone. -/
theorem longest_member_correct_rejoined : ∃ t ∈ (roomAfter [] false [] 5
    [.add 5 1, .add 3 2, .add 4 7, .remove 3, .add 5 7]).clients,
    (roomAfter [] false [] 5 [.add 5 1, .add 3 2, .add 4 7, .remove 3, .add 5 7]).getLongestMember 9 =
      t ∧ t = 4 := by
  have hvalid : ∀ sock time, RoomCall.add sock time ∈
      [.add 5 1, .add 3 2, .add 4 7, .remove 3, .add 5 7] → sock ≠ INVALID_SOCKET := by
    intro sock time h
    simp only [List.mem_cons, RoomCall.add.injEq, reduceCtorEq, List.not_mem_nil, or_false,
      false_or] at h
    rcases h with ⟨rfl, -⟩ | ⟨rfl, -⟩ | ⟨rfl, -⟩ | ⟨rfl, -⟩ <;> decide
  obtain ⟨-, hmembers, -, hlongest⟩ := longest_member_correct [] [] false 5 9 hvalid
  obtain ⟨t, ht, hfound, -⟩ := hlongest ⟨4, (hmembers 4).2 (by decide)⟩
  refine ⟨t, ht, hfound, ?_⟩
  rw [← hfound]
  decide +kernel

end TerminalChat.Server
