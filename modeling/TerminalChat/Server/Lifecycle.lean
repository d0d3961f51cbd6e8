import Mathlib
import TerminalChat.Server.Deliveries
import TerminalChat.Server.Doing

/-!
# The life of a room

A room goes only when it has no members, and one without members does not stay: whoever takes the last
member out starts a cleanup for it, or owes one until the end of the handler. KICK and BAN take a
member out and start nothing; the owner is still inside. `Machine.room_lifecycle` puts this together.
-/

set_option autoImplicit false

namespace TerminalChat.Server

open TerminalChat.Concurrency TerminalChat.Text

variable {s s' : Globals} {e : Env} {r : Bytes}

/-! ## Rooms without members -/

theorem deserted_iff : s.Deserted r ↔ r ∈ s.chatRooms ∧ ∀ t, ¬s.IsMember t r := by
  rw [Globals.Deserted, Std.ExtTreeMap.mem_iff_isSome_getElem?]
  cases hr : s.chatRooms[r]? with
  | none => simp
  | some room =>
      rw [Option.any_some, room.isEmpty_iff]
      constructor
      · intro h
        refine ⟨rfl, ?_⟩
        rintro t ⟨room', hroom, hmem⟩
        rw [hr, Option.some.injEq] at hroom
        rw [← hroom] at hmem
        exact h t hmem
      · exact fun h t ht => h.2 t ⟨room, hr, ht⟩

theorem Globals.Deserted.congr (h : s'.Deserted r) (hr : s'.chatRooms[r]? = s.chatRooms[r]?) :
    s.Deserted r := by
  rw [Globals.Deserted, hr] at h
  exact h

/-- An edit that keeps the members of a room deserts nothing. -/
theorem Globals.Deserted.of_editRoom {q : Bytes} {f : ChatRoom → ChatRoom}
    (h : (s.editRoom q f).Deserted r) (hf : q = r → ∀ room t, t ∈ room.clients → t ∈ (f room).clients) :
    s.Deserted r := by
  rw [deserted_iff, mem_editRoom] at h
  refine deserted_iff.2 ⟨h.1, ?_⟩
  rintro t ⟨room, hroom, hmem⟩
  apply h.2 t
  by_cases hq : q = r
  · refine ⟨f room, ?_, hf hq room t hmem⟩
    rw [Globals.getElem?_editRoom, if_pos hq, hroom]
    rfl
  · refine ⟨room, ?_, hmem⟩
    rw [Globals.getElem?_editRoom, if_neg hq, hroom]

/-! ## Effects -/

/-- The effect does not empty the room, or leaves a cleanup behind. -/
theorem Effect.deserted_apply {eff : Effect} {g : Note} (ha : eff.Allowed g s)
    (hn : s.drawnIds.Nodup) (h : (eff.apply e s).Deserted r) :
    s.Deserted r ∧ eff ≠ .sweep r ∨ r ∈ (eff.apply e s).pendingCleanups ∨ r ∈ (eff.after g).owed := by
  cases eff with
  | depart q sock =>
      by_cases hq : q = r
      · subst hq
        exact Or.inr (Or.inr List.mem_cons_self)
      · exact Or.inl ⟨h.of_editRoom fun h' => absurd h' hq, by simp⟩
  | leave q sock =>
      by_cases hq : q = r
      · subst hq
        refine Or.inr (Or.inl ?_)
        have hd : (s.editRoom q fun room => room.removeClient sock).Deserted q :=
          h.congr (by rw [leave_rooms])
        simp only [Effect.apply, if_pos hd]
        exact List.mem_append_right _ (List.mem_singleton_self q)
      · have hd : (s.editRoom q fun room => room.removeClient sock).Deserted r :=
          h.congr (by rw [leave_rooms])
        exact Or.inl ⟨hd.of_editRoom fun h' => absurd h' hq, by simp⟩
  | expel q sock =>
      by_cases hq : q = r
      · subst hq
        -- the owner is another member
        obtain ⟨t, ht, room, hroom, hmem⟩ := ha hn
        refine absurd ?_ ((deserted_iff.1 h).2 t)
        refine ⟨room.removeClient sock, ?_, (room.mem_clients_removeClient sock t).2 ⟨ht, hmem⟩⟩
        rw [Effect.apply, Globals.getElem?_editRoom, if_pos rfl, hroom]
        rfl
      · exact Or.inl ⟨h.of_editRoom fun h' => absurd h' hq, by simp⟩
  | enter q sock =>
      exact Or.inl ⟨h.of_editRoom fun _ room t ht => (room.mem_clients_addClient _ _ _).2 (Or.inr ht),
        by simp⟩
  | create q isPrivate password sock =>
      by_cases hq : q = r
      · subst hq
        refine absurd ?_ ((deserted_iff.1 h).2 sock)
        refine ⟨(ChatRoom.new q isPrivate password sock).addClient sock s.steadyNow, ?_,
          (ChatRoom.mem_clients_addClient _ sock sock _).2 (Or.inl rfl)⟩
        rw [Effect.apply, Globals.getElem?_insertRoom, if_pos rfl]
      · refine Or.inl ⟨h.congr ?_, by simp⟩
        rw [Effect.apply, Globals.getElem?_insertRoom, if_neg hq]
  | appoint q sock => exact Or.inl ⟨h.of_editRoom fun _ _ _ ht => ht, by simp⟩
  | ban q name =>
      have hd : (s.editRoom q fun room => room.banUser name).Deserted r := h.congr rfl
      exact Or.inl ⟨hd.of_editRoom fun _ _ _ ht => ht, by simp⟩
  | rekey q password =>
      have hd : (s.editRoom q fun room => room.setPassword password).Deserted r := h.congr rfl
      exact Or.inl ⟨hd.of_editRoom fun _ _ _ ht => ht, by simp⟩
  | sweep q =>
      rw [Effect.apply] at h
      by_cases hd : s.Deserted q
      · rw [if_pos hd] at h
        have hmem := (deserted_iff.1 h).1
        rw [Std.ExtTreeMap.mem_erase] at hmem
        have hq : q ≠ r := by simpa using hmem.1
        refine Or.inl ⟨h.congr ?_, by simpa using hq⟩
        rw [Globals.getElem?_eraseRoom, if_neg hq]
      · rw [if_neg hd] at h
        refine Or.inl ⟨h, ?_⟩
        intro heq
        rw [Effect.sweep.injEq] at heq
        rw [heq] at hd
        exact hd h
  | _ => exact Or.inl ⟨h.congr rfl, by simp⟩

theorem Effect.pendingCleanups_apply (eff : Effect) (h : r ∈ s.pendingCleanups) :
    r ∈ (eff.apply e s).pendingCleanups := by
  cases eff with
  | leave q sock =>
      dsimp only [Effect.apply]
      split
      · exact List.mem_append_left _ h
      · exact h
  | sweep q =>
      dsimp only [Effect.apply]
      split <;> exact h
  | _ => exact h

theorem Effect.owed_after {eff : Effect} {g : Note} (h : r ∈ g.owed) (hne : eff ≠ .sweep r) :
    r ∈ (eff.after g).owed := by
  cases eff with
  | depart q sock => exact List.mem_cons_of_mem q h
  | sweep q =>
      refine List.mem_filter.2 ⟨h, ?_⟩
      rw [bne_iff_ne]
      rintro rfl
      exact hne rfl
  | _ => exact h

/-- Only a sweep takes a room away. -/
theorem Effect.mem_apply {eff : Effect} (hne : eff ≠ .sweep r) (h : r ∈ s.chatRooms) :
    r ∈ (eff.apply e s).chatRooms := by
  cases eff with
  | leave q sock =>
      rw [leave_rooms, mem_editRoom]
      exact h
  | create q isPrivate password sock =>
      rw [Effect.apply, Globals.insertRoom, Std.ExtTreeMap.mem_insert]
      exact Or.inr h
  | sweep q =>
      dsimp only [Effect.apply]
      split
      · rw [Std.ExtTreeMap.mem_erase]
        refine ⟨?_, h⟩
        intro heq
        rw [Std.LawfulEqCmp.compare_eq_iff_eq] at heq
        rw [heq] at hne
        exact hne rfl
      · exact h
  | draw q => exact h
  | record q isPrivate owner password => exact h
  | credit q name => exact h
  | push message => exact h
  | _ => exact mem_editRoom.2 h

/-- Only CREATE brings a room into being. -/
theorem Effect.mem_of_mem_apply {eff : Effect} (h : r ∈ (eff.apply e s).chatRooms) :
    r ∈ s.chatRooms ∨ ∃ isPrivate password sock, eff = .create r isPrivate password sock := by
  cases eff with
  | leave q sock =>
      rw [leave_rooms, mem_editRoom] at h
      exact Or.inl h
  | create q isPrivate password sock =>
      rw [Effect.apply, Globals.insertRoom, Std.ExtTreeMap.mem_insert] at h
      rcases h with hq | h
      · rw [Std.LawfulEqCmp.compare_eq_iff_eq] at hq
        rw [hq]
        exact Or.inr ⟨isPrivate, password, sock, rfl⟩
      · exact Or.inl h
  | sweep q =>
      dsimp only [Effect.apply] at h
      split at h
      · exact Or.inl (Std.ExtTreeMap.mem_erase.1 h).2
      · exact Or.inl h
  | draw q => exact Or.inl h
  | record q isPrivate owner password => exact Or.inl h
  | credit q name => exact Or.inl h
  | push message => exact Or.inl h
  | _ => exact Or.inl (mem_editRoom.1 h)

theorem isMember_of_editRoom {q : Bytes} {f : ChatRoom → ChatRoom} {t : SOCKET}
    (h : (s.editRoom q f).IsMember t r) : s.IsMember t r ∨
      q = r ∧ ∃ room, s.chatRooms[q]? = some room ∧ t ∈ (f room).clients := by
  obtain ⟨room', hroom', hmem⟩ := h
  rw [Globals.getElem?_editRoom] at hroom'
  by_cases hq : q = r
  · rw [if_pos hq, ← hq] at hroom'
    obtain ⟨room, hroom, rfl⟩ := Option.map_eq_some_iff.1 hroom'
    exact Or.inr ⟨hq, room, hroom, hmem⟩
  · rw [if_neg hq] at hroom'
    exact Or.inl ⟨room', hroom', hmem⟩

/-- An effect makes a client a member of a room only as it enters or creates the room. -/
theorem Effect.isMember_apply {eff : Effect} {t : SOCKET} (h : (eff.apply e s).IsMember t r) :
    s.IsMember t r ∨ eff = .enter r t ∨
      ∃ isPrivate password, eff = .create r isPrivate password t := by
  -- an edit that adds no client adds no member
  have hkeep : ∀ {q : Bytes} {f : ChatRoom → ChatRoom}, (∀ room, ∀ t ∈ (f room).clients, t ∈ room.clients) →
      (s.editRoom q f).IsMember t r → s.IsMember t r := by
    intro q f hf h
    rcases isMember_of_editRoom h with h | ⟨rfl, room, hroom, hmem⟩
    · exact h
    · exact ⟨room, hroom, hf room t hmem⟩
  have hremove : ∀ {q : Bytes} {sock : SOCKET},
      (s.editRoom q fun room => room.removeClient sock).IsMember t r → s.IsMember t r :=
    fun h => hkeep (fun room t ht => ((room.mem_clients_removeClient _ t).1 ht).2) h
  cases eff with
  | depart q sock => exact Or.inl (hremove h)
  | leave q sock =>
      obtain ⟨room, hroom, hmem⟩ := h
      rw [leave_rooms] at hroom
      exact Or.inl (hremove ⟨room, hroom, hmem⟩)
  | expel q sock => exact Or.inl (hremove h)
  | enter q sock =>
      rcases isMember_of_editRoom h with h | ⟨rfl, room, hroom, hmem⟩
      · exact Or.inl h
      · rcases (room.mem_clients_addClient _ _ _).1 hmem with rfl | hmem
        · exact Or.inr (Or.inl rfl)
        · exact Or.inl ⟨room, hroom, hmem⟩
  | create q isPrivate password sock =>
      obtain ⟨room, hroom, hmem⟩ := h
      rw [Effect.apply, Globals.getElem?_insertRoom] at hroom
      by_cases hq : q = r
      · rw [if_pos hq, Option.some.injEq] at hroom
        rw [← hroom, ChatRoom.mem_clients_addClient] at hmem
        rcases hmem with rfl | hmem
        · rw [hq]
          exact Or.inr (Or.inr ⟨isPrivate, password, rfl⟩)
        · exact absurd hmem (ChatRoom.mem_clients_new _ _ _ _ _)
      · rw [if_neg hq] at hroom
        exact Or.inl ⟨room, hroom, hmem⟩
  | appoint q sock =>
      exact Or.inl (hkeep (f := fun room => room.setOwner sock) (fun _ _ ht => ht) h)
  | ban q name => exact Or.inl (hkeep (f := fun room => room.banUser name) (fun _ _ ht => ht) h)
  | rekey q password =>
      exact Or.inl (hkeep (f := fun room => room.setPassword password) (fun _ _ ht => ht) h)
  | sweep q =>
      obtain ⟨room, hroom, hmem⟩ := h
      dsimp only [Effect.apply] at hroom
      split at hroom
      · rw [Globals.getElem?_eraseRoom] at hroom
        split at hroom
        · exact absurd hroom (by simp)
        · exact Or.inl ⟨room, hroom, hmem⟩
      · exact Or.inl ⟨room, hroom, hmem⟩
  | _ => exact Or.inl h

/-! ## Drawn ids -/

/-- Every live room has an id that has been drawn. -/
structure Numbered (s : Globals) : Prop where
  drawn : ∀ r ∈ s.drawnIds, ∃ draw, r = roomIdOf draw
  live : ∀ r ∈ s.chatRooms, r ∈ s.drawnIds

theorem cString_roomIdOf (draw : Fin 900000) : cString (roomIdOf draw) = roomIdOf draw := by
  refine List.takeWhile_eq_self_iff.2 fun c hc => ?_
  have hdigit := (isDigit_of_mem_decimal hc).1
  rw [bne_iff_ne]
  rintro rfl
  exact absurd hdigit (by decide)

/-- The text of a drawn id has no NUL byte. -/
theorem Numbered.cString (h : Numbered s) (hr : r ∈ s.drawnIds) : cString r = r := by
  obtain ⟨draw, rfl⟩ := h.drawn r hr
  exact cString_roomIdOf draw

theorem Numbered.congr (h : Numbered s) (hd : s'.drawnIds = s.drawnIds)
    (hr : ∀ r ∈ s'.chatRooms, r ∈ s.chatRooms) : Numbered s' := by
  constructor
  · rw [hd]
    exact h.drawn
  · intro r hr'
    rw [hd]
    exact h.live r (hr r hr')

theorem Numbered.effect {eff : Effect} {g : Note} (h : Numbered s) (ha : eff.Allowed g s) :
    Numbered (eff.apply e s) := by
  have hgrow := (Effect.drawnIds_suffix e s eff).subset
  constructor
  · cases eff with
    | draw q =>
        intro r hr
        rcases List.mem_cons.1 hr with rfl | hr
        · exact ha
        · exact h.drawn r hr
    | leave q sock =>
        rw [leave_drawn e s q sock]
        exact h.drawn
    | sweep q =>
        dsimp only [Effect.apply]
        split <;> exact h.drawn
    | _ => exact h.drawn
  · intro r hr
    apply hgrow
    rcases Effect.mem_of_mem_apply hr with hr | ⟨isPrivate, password, sock, rfl⟩
    · exact h.live r hr
    · exact ha.2.1

/-! ## Cleanup threads -/

/-- The program is that of a cleanup thread which has not swept the room yet: it waits for
`g_chatRoomsMutex` or holds it. -/
def Sweeping (r : Bytes) (p : Thread Unit) : Prop :=
  p = cleanupEmptyRoom r ∨ .lock .chatRoomsMutex p = cleanupEmptyRoom r

/-- A cleanup of the room is pending: a thread for it sleeps, or has woken up and not swept the room
yet. -/
def Machine.CleanupPending (m : Machine) (r : Bytes) : Prop :=
  r ∈ m.globals.pendingCleanups ∨ ∃ n, Sweeping r (m.config.prog (.cleanup n))

/-- The program of a cleanup thread: the mutex, the sweep, and the release of mutexes. -/
theorem cleanupEmptyRoom_eq (r : Bytes) : ∃ next, cleanupEmptyRoom r = .lock .chatRoomsMutex
    (.act (fun e s => (Effect.sweep r).apply e s) next) := by
  have hact : (fun (e : Env) s => ((sweepRoom r).exec e s).state) =
      fun e s => (Effect.sweep r).apply e s := by
    funext e s
    exact post_sweepRoom_deeds e s r
  refine ⟨fun e s => (Prog.through .leaf ((sweepRoom r).exec e s).passed (.ret
    ((sweepRoom r).exec e s).value)).bind fun a => .unlock .chatRoomsMutex (.ret a), ?_⟩
  rw [← hact]
  rfl

theorem Sweeping.cases {p : Thread Unit} (h : Sweeping r p) :
    (∃ next, p = .lock .chatRoomsMutex next ∧ Sweeping r next) ∨
      ∃ next, p = .act (fun e s => (Effect.sweep r).apply e s) next := by
  obtain ⟨next, hnext⟩ := cleanupEmptyRoom_eq r
  rcases h with h | h
  · refine Or.inl ⟨_, h.trans hnext, Or.inr ?_⟩
    rw [hnext]
  · rw [hnext, Prog.lock.injEq] at h
    exact Or.inr ⟨next, h.2⟩

/-- A step of a cleanup thread that has not swept the room takes the mutex or sweeps. -/
theorem Sweeping.stepThread {c c' : Config Tid Mutex Env Globals} {t : Tid}
    (hp : Sweeping r (c.prog t)) (h : c.stepThread t e = some c') :
    c'.shared = c.shared ∧ Sweeping r (c'.prog t) ∨
      c'.shared = (Effect.sweep r).apply e c.shared := by
  rcases hp.cases with ⟨next, hp, hs⟩ | ⟨next, hp⟩
  · rcases Config.stepThread_cases h with ⟨m, next', hp', -, rfl⟩ | ⟨m, next', hp', -⟩ |
      ⟨f, next', hp', -⟩
    · rw [hp, Prog.lock.injEq] at hp'
      refine Or.inl ⟨rfl, ?_⟩
      rw [← hp'.2]
      simpa using hs
    · rw [hp] at hp'
      exact absurd hp' (by simp)
    · rw [hp] at hp'
      exact absurd hp' (by simp)
  · rcases Config.stepThread_cases h with ⟨m, next', hp', -⟩ | ⟨m, next', hp', -⟩ |
      ⟨f, next', hp', rfl⟩
    · rw [hp] at hp'
      exact absurd hp' (by simp)
    · rw [hp] at hp'
      exact absurd hp' (by simp)
    · rw [hp, Prog.act.injEq] at hp'
      rw [← hp'.1]
      exact Or.inr rfl

/-- A thread that has nothing to do is not about to sweep. -/
theorem not_sweeping_of_done {p : Thread Unit} (h : p.isDone = true) : ¬Sweeping r p := by
  intro hs
  rcases hs.cases with ⟨next, rfl, -⟩ | ⟨next, rfl⟩
  · exact absurd h (by simp [Prog.isDone])
  · exact absurd h (by simp [Prog.isDone])

/-- A room that has been swept is not deserted. -/
theorem not_deserted_sweep : ¬((Effect.sweep r).apply e s).Deserted r := by
  intro h
  rw [Effect.apply] at h
  by_cases hd : s.Deserted r
  · rw [if_pos hd] at h
    exact absurd (deserted_iff.1 h).1 (by simp)
  · rw [if_neg hd] at h
    exact hd h

/-! ## Along the runs -/

namespace Machine

variable {ok : Machine → Label → Prop} {db : Database} {listenSocket : SOCKET} {m m' : Machine}
  {w : Watch}

/-- Every room without members has a cleanup pending, or the handler in progress owes one. -/
def Tended (m : Machine) (g : Note) : Prop :=
  ∀ r, m.globals.Deserted r → m.CleanupPending r ∨ r ∈ g.owed

/-- Along a step a cleanup thread goes on towards its sweep, or sweeps. -/
theorem sweeping_next (hasleep : m.Asleep) {l : Label} (h : m.next l = some m') {r : Bytes} {n : Nat}
    (hs : Sweeping r (m.config.prog (.cleanup n))) :
    Sweeping r (m'.config.prog (.cleanup n)) ∨
      ∃ e, m'.globals = (Effect.sweep r).apply e m.globals := by
  cases l with
  | event ev =>
      simp only [Machine.next, Option.ite_none_right_eq_some, Option.some.injEq] at h
      obtain ⟨-, rfl⟩ := h
      exact Or.inl (by simpa [Config.start] using hs)
  | round =>
      simp only [Machine.next, Option.ite_none_right_eq_some, Option.some.injEq] at h
      obtain ⟨-, rfl⟩ := h
      exact Or.inl (by simpa [Config.start] using hs)
  | wake i =>
      simp only [Machine.next] at h
      cases hi : m.globals.pendingCleanups[i]? with
      | none => simp [hi] at h
      | some roomId =>
          simp only [hi, Option.some.injEq] at h
          subst h
          -- the number of the thread that wakes up is new
          by_cases hn : n = m.woken
          · rw [hn] at hs
            exact absurd hs (not_sweeping_of_done (hasleep m.woken le_rfl))
          · exact Or.inl (by simpa [Config.start, Config.setShared, hn] using hs)
  | run t e =>
      simp only [Machine.next, Option.map_eq_some_iff] at h
      obtain ⟨c, hstep, rfl⟩ := h
      by_cases ht : Tid.cleanup n = t
      · subst ht
        rcases hs.stepThread hstep with ⟨-, hs'⟩ | hs'
        · exact Or.inl hs'
        · exact Or.inr ⟨e, hs'⟩
      · refine Or.inl ?_
        rw [Config.stepThread_prog_of_ne hstep ht]
        exact hs
  | tick d =>
      simp only [Machine.next, Option.some.injEq] at h
      subst h
      exact Or.inl hs
  | signal =>
      simp only [Machine.next, Option.some.injEq] at h
      subst h
      exact Or.inl hs

/-- A pending cleanup stays pending along a step that keeps the sleepers, unless the room is swept. -/
theorem CleanupPending.next {r : Bytes} (hp : m.CleanupPending r) (hasleep : m.Asleep) {l : Label}
    (h : m.next l = some m')
    (hsame : r ∈ m.globals.pendingCleanups → m'.CleanupPending r) :
    m'.CleanupPending r ∨ ¬m'.globals.Deserted r := by
  rcases hp with hp | ⟨n, hs⟩
  · exact Or.inl (hsame hp)
  · rcases sweeping_next hasleep h hs with hs | ⟨e, he⟩
    · exact Or.inl (Or.inr ⟨n, hs⟩)
    · rw [he]
      exact Or.inr not_deserted_sweep

theorem reachable_asleep (hm : Reachable ok m) : m.Asleep := by
  obtain ⟨db, listenSocket, hrun⟩ := hm
  induction hrun with
  | refl => exact fun _ _ => rfl
  | tail _ hstep ih =>
      obtain ⟨l, -, hnext⟩ := hstep
      exact ih.next hnext

/-- The end of the sleep of a cleanup thread leaves its cleanup pending. -/
theorem pending_of_wake {i : Nat} (h : m.next (.wake i) = some m') {r : Bytes}
    (hr : r ∈ m.globals.pendingCleanups) : m'.CleanupPending r := by
  simp only [next] at h
  cases hi : m.globals.pendingCleanups[i]? with
  | none => simp [hi] at h
  | some roomId =>
      simp only [hi, Option.some.injEq] at h
      subst h
      by_cases hq : roomId = r
      · refine Or.inr ⟨m.woken, Or.inl ?_⟩
        simp [Config.start, hq]
      · refine Or.inl ?_
        obtain ⟨j, hj⟩ := List.mem_iff_getElem?.1 hr
        have hne : j ≠ i := by
          rintro rfl
          rw [hi, Option.some.injEq] at hj
          exact hq hj
        exact List.mem_eraseIdx_iff_getElem?.2 ⟨j, hne, hj⟩

/-- Along every step every room without members stays tended. -/
theorem Tended.next {g g' : Note} {l : Label} {w' : Watch} (h : m.Tended g) (hasleep : m.Asleep)
    (hnext : m.next l = some m') (hmove : Move m g w l m' g' w')
    (hn : m'.globals.drawnIds.Nodup) : m'.Tended g' := by
  intro r hd
  have hkeep : m.CleanupPending r ∨ r ∈ g'.owed →
      (r ∈ m.globals.pendingCleanups → m'.CleanupPending r) → m'.CleanupPending r ∨ r ∈ g'.owed := by
    rintro (hp | hp) hsame
    · rcases hp.next hasleep hnext hsame with hp | hp
      · exact Or.inl hp
      · exact absurd hd hp
    · exact Or.inr hp
  cases hmove with
  | rest hs =>
      rw [hs] at hd
      refine hkeep (h r hd) fun hp => Or.inl ?_
      rw [hs]
      exact hp
  | wake hs =>
      rw [hs] at hd
      exact hkeep (h r hd) (pending_of_wake hnext)
  | @main e m' g' H hdeed =>
      obtain ⟨effs, ops, hdeeds, -⟩ := hdeed.deeds
      -- along the effects of the action: a room that is deserted now owes its cleanup to one of them
      have htended : m'.globals.drawnIds.Nodup → ∀ r, m'.globals.Deserted r →
          r ∈ m'.globals.pendingCleanups ∨ (∃ n, Sweeping r (m.config.prog (.cleanup n))) ∨
            r ∈ g'.owed := by
        refine hdeeds.keep (P := fun g s => s.drawnIds.Nodup → ∀ r, s.Deserted r →
          r ∈ s.pendingCleanups ∨ (∃ n, Sweeping r (m.config.prog (.cleanup n))) ∨ r ∈ g.owed)
          (fun g s s' hm h hn r hd => ?_) (fun eff g s _ ha h hn r hd => ?_) fun _ r hd => ?_
        · rw [hm.drawn] at hn
          rw [hm.pending]
          exact h hn r (hd.congr (by rw [hm.rooms]))
        · have hn' : s.drawnIds.Nodup := hn.sublist (Effect.drawnIds_suffix e s eff).sublist
          rcases Effect.deserted_apply ha hn' hd with ⟨hd, hne⟩ | hp | ho
          · rcases h hn' r hd with hp | hs | ho
            · exact Or.inl (Effect.pendingCleanups_apply eff hp)
            · exact Or.inr (Or.inl hs)
            · exact Or.inr (Or.inr (Effect.owed_after ho hne))
          · exact Or.inl hp
          · exact Or.inr (Or.inr ho)
        · rcases h r hd with (hp | hs) | ho
          · exact Or.inl hp
          · exact Or.inr (Or.inl hs)
          · exact Or.inr (Or.inr ho)
      rcases htended hn r hd with hp | ⟨n, hs⟩ | ho
      · exact Or.inl (Or.inl hp)
      · -- the cleanup thread goes on, or has swept the room
        rcases sweeping_next hasleep hnext hs with hs | ⟨e, he⟩
        · exact Or.inl (Or.inr ⟨n, hs⟩)
        · rw [he] at hd
          exact absurd hd not_deserted_sweep
      · exact Or.inr ho
  | broadcast hacts =>
      obtain ⟨f, hroom⟩ := hacts.room r
      -- the broadcaster writes into the memory of a room and changes no members
      have hd' : m.globals.Deserted r := by
        rw [Globals.Deserted, hroom] at hd
        rw [Globals.Deserted]
        cases hr : m.globals.chatRooms[r]? with
        | none =>
            rw [hr] at hd
            exact hd
        | some room =>
            rw [hr] at hd
            exact hd
      refine hkeep (h r hd') fun hp => Or.inl ?_
      rw [hacts.frame.2.2]
      exact hp
  | @sweep n e m' roomId hs =>
      have hn' : m.globals.drawnIds.Nodup := by
        rw [hs] at hn
        exact hn.sublist (Effect.drawnIds_suffix e m.globals (.sweep roomId)).sublist
      rw [hs] at hd
      have hallowed : (Effect.sweep roomId).Allowed {} m.globals := trivial
      rcases Effect.deserted_apply hallowed hn' hd with ⟨hd', -⟩ | hp | ho
      · refine hkeep (h r hd') fun hp => Or.inl ?_
        rw [hs]
        exact Effect.pendingCleanups_apply (.sweep roomId) hp
      · refine Or.inl (Or.inl ?_)
        rw [hs]
        exact hp
      · exact absurd ho List.not_mem_nil

/-- Along every watched run with distinct ids every room without members is tended. -/
theorem Watched.tended (h : Watched ok db listenSocket m w) (hn : m.globals.drawnIds.Nodup) :
    ∃ g, (m.Idle → g = {}) ∧ m.Tended g := by
  have hkeep := h.induction (P := fun m g _ => m.globals.drawnIds.Nodup → m.Tended g)
  obtain ⟨g, hg, htended⟩ := hkeep (fun _ r hd => absurd (deserted_iff.1 hd).1
    Std.ExtTreeMap.not_mem_empty) fun m g w l m' g' hrun _ hnext h hmove hn =>
      (h (hn.sublist hmove.drawnIds.sublist)).next (reachable_asleep hrun.reachable) hnext hmove hn
  exact ⟨g, hg, htended hn⟩

/-- Along every watched run the live rooms have drawn ids. -/
theorem Watched.numbered (h : Watched ok db listenSocket m w) : Numbered m.globals := by
  have hboot : Numbered (Globals.boot db listenSocket) :=
    ⟨fun r hr => absurd hr List.not_mem_nil, fun r hr => absurd hr Std.ExtTreeMap.not_mem_empty⟩
  refine (h.induction (P := fun m _ _ => Numbered m.globals) hboot
    fun m g w l m' g' _ _ _ h hmove => ?_).choose_spec.2
  generalize w.observe m l m' = w' at hmove
  cases hmove with
  | rest hs => exact h.congr (by rw [hs]) (by rw [hs]; exact fun _ hr => hr)
  | wake hs => exact h.congr (by rw [hs]) (by rw [hs]; exact fun _ hr => hr)
  | main H hd =>
      obtain ⟨effs, ops, hdeeds, -⟩ := hd.deeds
      refine hdeeds.keep (P := fun _ s => Numbered s) (fun _ s s' hm h => ?_)
        (fun eff g s _ ha h => h.effect ha) h
      exact h.congr hm.drawn (by rw [hm.rooms]; exact fun _ hr => hr)
  | broadcast hd =>
      refine h.congr hd.frame.2.1 fun r hr => ?_
      obtain ⟨f, hroom⟩ := hd.room r
      rw [Std.ExtTreeMap.mem_iff_isSome_getElem?, hroom, Option.isSome_map] at hr
      exact Std.ExtTreeMap.mem_iff_isSome_getElem?.2 hr
  | sweep roomId hs =>
      rw [hs]
      exact h.effect (g := {}) trivial

/-- The broadcaster changes no membership. -/
theorem isMember_broadcast {hand : Hand} {e : Env} {s s' : Globals} (hd : hand.Acts e s s')
    {t : SOCKET} {r : Bytes} : s'.IsMember t r ↔ s.IsMember t r := by
  obtain ⟨f, hroom⟩ := hd.room r
  constructor
  · rintro ⟨room', hroom', hmem⟩
    rw [hroom] at hroom'
    obtain ⟨room, hr, rfl⟩ := Option.map_eq_some_iff.1 hroom'
    exact ⟨room, hr, hmem⟩
  · rintro ⟨room, hr, hmem⟩
    exact ⟨{ room with messageHistory := f room }, by rw [hroom, hr]; rfl, hmem⟩

/-- Along every watched run `INVALID_SOCKET` is in no room. -/
theorem Watched.valid (h : Watched ok db listenSocket m w) (r : Bytes) :
    ¬m.globals.IsMember INVALID_SOCKET r := by
  have heffect : ∀ {eff : Effect} {e : Env} {g : Note} {s : Globals}, eff.Allowed g s →
      (∀ r, ¬s.IsMember INVALID_SOCKET r) → ∀ r, ¬(eff.apply e s).IsMember INVALID_SOCKET r := by
    intro eff e g s ha h r hmem
    rcases Effect.isMember_apply hmem with hmem | rfl | ⟨_, _, rfl⟩
    · exact h r hmem
    · exact ha.2 rfl
    · exact ha.2.2.2 rfl
  refine (h.induction (P := fun m _ _ => ∀ r, ¬m.globals.IsMember INVALID_SOCKET r) ?_
    fun m g w l m' g' _ _ _ h hmove => ?_).choose_spec.2 r
  · rintro r ⟨room, hroom, -⟩
    simp [boot, Machine.globals, Globals.boot] at hroom
  · generalize w.observe m l m' = w' at hmove
    cases hmove with
    | rest hs =>
        rw [hs]
        exact h
    | wake hs =>
        rw [hs]
        exact h
    | main H hd =>
        obtain ⟨effs, ops, hdeeds, -⟩ := hd.deeds
        refine hdeeds.keep (P := fun _ s => ∀ r, ¬s.IsMember INVALID_SOCKET r)
          (fun _ s s' hm h r => ?_) (fun _ _ _ _ ha h => heffect ha h) h
        rw [Globals.IsMember, hm.rooms]
        exact h r
    | broadcast hd => exact fun r hmem => h r ((isMember_broadcast hd).1 hmem)
    | sweep roomId hs =>
        rw [hs]
        exact heffect (g := {}) trivial h

/-- A room that a step takes away has no members. -/
theorem Move.deserted_of_erased {g g' : Note} {l : Label} {w' : Watch}
    (h : Move m g w l m' g' w') {r : Bytes} (hr : r ∈ m.globals.chatRooms)
    (hr' : r ∉ m'.globals.chatRooms) : m.globals.Deserted r := by
  cases h with
  | rest hs =>
      rw [hs] at hr'
      exact absurd hr hr'
  | wake hs =>
      rw [hs] at hr'
      exact absurd hr hr'
  | @main e m' g' H hdeed =>
      obtain ⟨effs, ops, hdeeds, -, -, halone⟩ := hdeed.deeds
      by_cases hsweep : Effect.sweep r ∈ effs
      · -- the sweep is the whole action
        rw [halone _ hsweep trivial] at hdeeds
        cases hdeeds with
        | cons _ hrest =>
            cases hrest with
            | done hm =>
                rw [hm.rooms, Effect.apply] at hr'
                by_cases hd : m.globals.Deserted r
                · exact hd
                · rw [if_neg hd] at hr'
                  exact absurd hr hr'
      · refine absurd ?_ hr'
        exact hdeeds.keep (P := fun _ s => r ∈ s.chatRooms)
          (fun _ s s' hm hr => by rw [hm.rooms]; exact hr)
          (fun eff _ s hmem _ hr => Effect.mem_apply (fun heq => hsweep (heq ▸ hmem)) hr) hr
  | broadcast hacts =>
      -- the broadcaster erases no room
      obtain ⟨f, hroom⟩ := hacts.room r
      rw [Std.ExtTreeMap.mem_iff_isSome_getElem?, hroom, Option.isSome_map,
        ← Std.ExtTreeMap.mem_iff_isSome_getElem?] at hr'
      exact absurd hr hr'
  | @sweep n e m' roomId hs =>
      by_cases hq : roomId = r
      · subst hq
        rw [hs, Effect.apply] at hr'
        by_cases hd : m.globals.Deserted roomId
        · exact hd
        · rw [if_neg hd] at hr'
          exact absurd hr hr'
      · rw [hs] at hr'
        exact absurd (Effect.mem_apply (fun heq => hq (Effect.sweep.inj heq)) hr) hr'

/-- The life of a room: it goes only when it has no members; whenever no handler is in progress, a room
without members has a cleanup pending; and when none is pending, the live rooms are those with a
member. -/
theorem room_lifecycle (hm : Reachable anyStep m) (hdrawn : m.globals.drawnIds.Nodup) :
    (∀ l m', m.next l = some m' → ∀ r ∈ m.globals.chatRooms, r ∉ m'.globals.chatRooms →
      ∀ t, ¬m.globals.IsMember t r) ∧
    (m.Idle → ∀ r ∈ m.globals.chatRooms, (∀ t, ¬m.globals.IsMember t r) → m.CleanupPending r) ∧
    (m.Idle → (∀ r, ¬m.CleanupPending r) →
      ∀ r, r ∈ m.globals.chatRooms ↔ ∃ t, m.globals.IsMember t r) := by
  obtain ⟨db, listenSocket, hrun⟩ := hm
  obtain ⟨w, hw⟩ := exists_watched hrun
  obtain ⟨g, hg, htended⟩ := hw.tended hdrawn
  have hpending : m.Idle → ∀ r ∈ m.globals.chatRooms, (∀ t, ¬m.globals.IsMember t r) →
      m.CleanupPending r := by
    intro hidle r hr hnone
    rcases htended r (deserted_iff.2 ⟨hr, hnone⟩) with hp | ho
    · exact hp
    · rw [hg hidle] at ho
      exact absurd ho List.not_mem_nil
  refine ⟨fun l m' hnext r hr hr' => ?_, hpending, fun hidle hnone r => ⟨fun hr => ?_, ?_⟩⟩
  · obtain ⟨g, g', hmove⟩ := hw.move hnext
    exact (deserted_iff.1 (hmove.deserted_of_erased hr hr')).2
  · by_contra hempty
    exact hnone r (hpending hidle r hr fun t ht => hempty ⟨t, ht⟩)
  · rintro ⟨t, ht⟩
    exact ht.mem

theorem room_lifecycle_forsaken : ∃ m, Reachable anyStep m ∧ str "100007" ∈ m.globals.chatRooms ∧
    m.CleanupPending (str "100007") := by
  obtain ⟨m, hm, hp⟩ := reachable_of_after (fun _ _ => True)
    [(.connect 4, 0), (.receive 4 (str "/CREATE PUBLIC"), 7), (.receive 4 (str "/FORCELEAVE"), 0)]
    (fun m => decide (m.Idle ∧ m.globals.drawnIds.Nodup ∧ m.globals.Deserted (str "100007")))
    (by decide +kernel)
  obtain ⟨hidle, hdrawn, hd⟩ := of_decide_eq_true hp
  obtain ⟨hlive, hnone⟩ := deserted_iff.1 hd
  have hreach : Reachable anyStep m := hm.mono fun _ _ _ => trivial
  exact ⟨m, hreach, hlive, (room_lifecycle hreach hdrawn).2.1 hidle _ hlive hnone⟩

end Machine

end TerminalChat.Server
