import Mathlib
import TerminalChat.Concurrency.Environments
import TerminalChat.Server.Deliveries
import TerminalChat.Server.Diary

/-!
# Meanwhile

What the broadcaster and the cleanup threads do between two actions of a handler, down to the tables and
the sockets: they add no row to `rooms` or `bans`, and they send only lines that tell a client nothing
about its place (`Meanwhile`).
-/

set_option autoImplicit false

namespace TerminalChat.Server

open TerminalChat.Concurrency TerminalChat.Text TerminalChat.Abstract TerminalChat.Client

/-- The operation sends a line that says nothing about the place of a client. -/
def NetOp.Aside (op : NetOp) : Prop := ∃ sock text, op = .sent sock text ∧ Quiet text

/-- What the other threads do while a handler runs or none does. -/
structure Meanwhile (s s' : Globals) : Prop where
  backdrop : Backdrop [] s s'
  rows : ∀ row ∈ s'.database.rooms, row ∈ s.database.rooms
  bans : ∀ row ∈ s'.database.bans, row ∈ s.database.bans
  net : ∃ ops, s'.net = s.net ++ ops ∧ ∀ op ∈ ops, op.Aside

theorem Meanwhile.of_same {s s' : Globals} (hb : Backdrop [] s s')
    (hd : s'.database = s.database) (hn : s'.net = s.net) : Meanwhile s s' := by
  refine ⟨hb, fun row hrow => ?_, fun row hrow => ?_, [], ?_,
    fun op hop => absurd hop List.not_mem_nil⟩
  · rw [hd] at hrow
    exact hrow
  · rw [hd] at hrow
    exact hrow
  · rw [hn, List.append_nil]

theorem Meanwhile.refl (s : Globals) : Meanwhile s s := .of_same (.refl [] s) rfl rfl

theorem Meanwhile.trans {s s' s'' : Globals} (h : Meanwhile s s') (h' : Meanwhile s' s'') :
    Meanwhile s s'' := by
  obtain ⟨ops, hnet, hops⟩ := h.net
  obtain ⟨ops', hnet', hops'⟩ := h'.net
  refine ⟨h.backdrop.trans h'.backdrop, fun row hrow => h.rows row (h'.rows row hrow),
    fun row hrow => h.bans row (h'.bans row hrow), ops ++ ops', ?_, fun op hop => ?_⟩
  · rw [hnet', hnet, List.append_assoc]
  · rcases List.mem_append.1 hop with hop | hop
    · exact hops op hop
    · exact hops' op hop

/-- The text has been sent to the client, and otherwise only lines that say nothing about the place of a
client. -/
def Answered (sock : SOCKET) (text : Bytes) (s s' : Globals) : Prop :=
  ∃ before after, s'.net = s.net ++ before ++ .sent sock text :: after ∧
    ∀ op ∈ before ++ after, op.Aside

theorem Answered.meanwhile {sock : SOCKET} {text : Bytes} {s s' s'' : Globals}
    (h : Answered sock text s s') (hm : Meanwhile s' s'') : Answered sock text s s'' := by
  obtain ⟨before, after, hnet, hops⟩ := h
  obtain ⟨ops, hnet', hops'⟩ := hm.net
  refine ⟨before, after ++ ops, ?_, fun op hop => ?_⟩
  · rw [hnet', hnet, List.append_assoc, List.cons_append]
  · rw [← List.append_assoc, List.mem_append] at hop
    rcases hop with hop | hop
    · exact hops op hop
    · exact hops' op hop

/-- A text that is sent after the other threads have moved. -/
theorem Meanwhile.answered {s s' : Globals} (hm : Meanwhile s s') (sock : SOCKET) (text : Bytes) :
    Answered sock text s (s'.send sock text) := by
  obtain ⟨before, hnet, hbefore⟩ := hm.net
  refine ⟨before, [], ?_, ?_⟩
  · rw [← hnet]
    rfl
  · rw [List.append_nil]
    exact hbefore

/-- A room with a member is there as long as only the other threads move. -/
theorem Meanwhile.kept {s s' : Globals} (hm : Meanwhile s s') {r : Bytes} {room : ChatRoom}
    (hroom : s.chatRooms[r]? = some room) {sock : SOCKET} (hmem : sock ∈ room.clients) :
    ∃ history, s'.chatRooms[r]? = some { room with messageHistory := history } := by
  rcases hm.backdrop.kept r room hroom with hkept | ⟨-, hempty⟩
  · exact hkept
  · exact absurd hmem (room.isEmpty_iff.1 hempty sock)

section Steps

variable {e : Env} {s s' : Globals}

theorem rooms_saveMessage (calls : Nat → Bool) (now roomId sender content : Bytes)
    (isPrivate : Bool) (recipient : Bytes) (db : Database) :
    (db.saveMessage calls now roomId sender content isPrivate recipient).rooms = db.rooms := by
  rw [Database.saveMessage]
  split
  · rfl
  · rfl

theorem bans_saveMessage (calls : Nat → Bool) (now roomId sender content : Bytes)
    (isPrivate : Bool) (recipient : Bytes) (db : Database) :
    (db.saveMessage calls now roomId sender content isPrivate recipient).bans = db.bans := by
  rw [Database.saveMessage]
  split
  · rfl
  · rfl

theorem aside_publicOps (message : Message) (now : LocalTm) (members : List SOCKET) :
    ∀ op ∈ publicOps message now members, op.Aside := by
  intro op hop
  obtain ⟨sock, -, rfl⟩ := List.mem_map.1 hop
  exact ⟨sock, _, rfl, quiet_chatText _ _ _⟩

theorem aside_privateOps (message : Message) (now : LocalTm) (t : SOCKET) :
    ∀ op ∈ privateOps message now t, op.Aside := by
  intro op hop
  rw [privateOps] at hop
  split at hop
  · rw [List.mem_singleton] at hop
    exact ⟨_, _, hop, quiet_notInRoom _⟩
  · rcases List.mem_pair.1 hop with rfl | rfl
    · exact ⟨_, _, rfl, quiet_privateText _ _ _ _⟩
    · exact ⟨_, _, rfl, quiet_privateText _ _ _ _⟩

/-- An action of the broadcaster. -/
theorem Hand.Acts.meanwhile {hand : Hand} (h : hand.Acts e s s') : Meanwhile s s' := by
  have hb : Backdrop [] s s' := BroadcastDeed.backdrop (K := [.chatRoomsMutex]) (g := { hand := hand })
    ⟨h, rfl, fun hm => absurd List.mem_cons_self hm⟩ fun m hm => absurd hm List.not_mem_nil
  cases hand with
  | empty =>
      rcases h with rfl | ⟨message, rest, -, rfl⟩
      · exact .refl _
      · exact .of_same hb rfl rfl
  | taken message =>
      rw [show s' = s from h]
      exact .refl s
  | found message =>
      rw [Hand.Acts] at h
      split at h
      · rw [h]
        exact .refl s
      · rw [h.2, state_deliverPublic] at hb ⊢
        refine ⟨hb, fun row hrow => ?_, fun row hrow => ?_, _, rfl, aside_publicOps message _ _⟩
        · rw [rooms_saveMessage] at hrow
          exact hrow
        · rw [bans_saveMessage] at hrow
          exact hrow
  | resolved message t recipient =>
      rw [h.2, state_deliverPrivate] at hb ⊢
      refine ⟨hb, fun row hrow => ?_, fun row hrow => ?_, _, rfl, aside_privateOps message _ t⟩
      · dsimp only at hrow
        split at hrow
        · exact hrow
        · rw [rooms_saveMessage] at hrow
          exact hrow
      · dsimp only at hrow
        split at hrow
        · exact hrow
        · rw [bans_saveMessage] at hrow
          exact hrow

/-- An action of a cleanup thread. -/
theorem meanwhile_sweep (roomId : Bytes) : Meanwhile s ((Effect.sweep roomId).apply e s) := by
  have hb : Backdrop [] s ((Effect.sweep roomId).apply e s) :=
    CleanupDeed.backdrop (K := [.chatRoomsMutex]) (g := {}) ⟨⟨roomId, rfl⟩, rfl,
      fun hm => absurd List.mem_cons_self hm⟩ fun m hm => absurd hm List.not_mem_nil
  refine ⟨hb, fun row hrow => ?_, fun row hrow => ?_, [], ?_,
    fun op hop => absurd hop List.not_mem_nil⟩
  · rw [Effect.apply] at hrow
    split at hrow
    · exact Database.mem_rooms_deleteRoom hrow
    · exact hrow
  · rw [Effect.apply] at hrow
    split at hrow
    · exact Database.mem_bans_deleteRoom hrow
    · exact hrow
  · rw [Effect.net_apply, List.append_nil]

end Steps

section Programs

variable {α : Type} {E : Env → Prop} {R : Globals → Globals → Prop} {Q : α → Globals → Prop}

theorem wpIn_step (b : Sect α) (s : Globals) :
    (step b).wpIn E R Q s ↔ ∀ e, E e → ∀ s', R s s' → b.post e s' Q :=
  Prog.wpIn_block _ _ _

theorem wpIn_critical (m : Mutex) (b : Sect α) (s : Globals) :
    (critical m b).wpIn E R Q s ↔ ∀ e, E e → ∀ s', R s s' → b.post e s' Q :=
  (Prog.wpIn_holding m _ s).trans (wpIn_step b s)

end Programs

namespace Machine

variable {ok : Machine → Label → Prop} {m m' : Machine} {ev : Event} {l : Label}

theorem Move.meanwhile {g g' : Note} {w w' : Watch} (h : Move m g w l m' g' w')
    (hl : ∀ e, l ≠ .run .main e) : Meanwhile m.globals m'.globals := by
  cases h with
  | rest hs =>
      rw [hs]
      exact .of_same (.of_rooms rfl rfl rfl) rfl rfl
  | wake hs =>
      rw [hs]
      exact .of_same (.of_rooms rfl rfl rfl) rfl rfl
  | main H hd => exact absurd rfl (hl _)
  | broadcast hd => exact hd.meanwhile
  | sweep roomId hs =>
      rw [hs]
      exact meanwhile_sweep roomId

/-- A step of any other thread than the main one. -/
theorem meanwhile_of_next (hm : Reachable ok m) (hl : ∀ e, l ≠ .run .main e)
    (h : m.next l = some m') : Meanwhile m.globals m'.globals := by
  obtain ⟨db, listenSocket, hrun⟩ := hm
  obtain ⟨w, hw⟩ := exists_watched hrun
  obtain ⟨g, g', hmove⟩ := hw.move h
  exact hmove.meanwhile hl

/-- The handler in progress is moved by the main thread only. -/
theorem prog_main_next (hev : ∀ ev, l ≠ .event ev) (hl : ∀ e, l ≠ .run .main e)
    (h : m.next l = some m') : m'.config.prog .main = m.config.prog .main := by
  cases l with
  | event ev => exact absurd rfl (hev ev)
  | round =>
      simp only [Machine.next, Option.ite_none_right_eq_some, Option.some.injEq] at h
      obtain ⟨-, rfl⟩ := h
      exact main_start (by decide) _
  | wake i =>
      simp only [Machine.next] at h
      cases hi : m.globals.pendingCleanups[i]? with
      | none => simp [hi] at h
      | some roomId =>
          simp only [hi, Option.some.injEq] at h
          subst h
          exact main_start (by simp) _
  | run t e =>
      simp only [Machine.next, Option.map_eq_some_iff] at h
      obtain ⟨c, hc, rfl⟩ := h
      apply Config.stepThread_prog_of_ne hc
      rintro rfl
      exact hl e rfl
  | tick d =>
      simp only [Machine.next, Option.some.injEq] at h
      subst h
      rfl
  | signal =>
      simp only [Machine.next, Option.some.injEq] at h
      subst h
      rfl

/-- Between events only the other threads move. -/
theorem meanwhile_of_rest (hm : Reachable ok m) (hidle : m.Idle) (h : m.next l = some m') :
    Meanwhile m.globals m'.globals := by
  apply meanwhile_of_next hm _ h
  rintro e rfl
  simp only [Machine.next, Option.map_eq_some_iff] at h
  obtain ⟨c, hc, -⟩ := h
  rcases Config.stepThread_cases hc with ⟨k, next, hp, -⟩ | ⟨k, next, hp, -⟩ | ⟨f, next, hp, -⟩ <;>
    simp [Idle, hp, Prog.isDone] at hidle

theorem HandlesBy.reachable (hm : Reachable ok m) (hh : HandlesBy ok m ev m') : Reachable ok m' := by
  obtain ⟨db, listenSocket, hrun⟩ := hm
  exact ⟨db, listenSocket, hrun.trans hh.run⟩

/-- What the handler of an event ends in, in the environments of the run and whatever the other threads
do meanwhile, its event ends in. -/
theorem HandlesBy.ends_in {E : Env → Prop} {Q : Globals → Prop} (hm : Reachable ok m)
    (hE : ∀ m e, ok m (.run .main e) → E e) (hh : HandlesBy ok m ev m')
    (hQ : ∀ s s', Q s → Meanwhile s s' → Q s')
    (hwp : ev.handler.wpIn E Meanwhile (fun _ => Q) m.globals) : Q m'.globals := by
  obtain ⟨m₁, hstart, hrun⟩ := hh.steps
  obtain ⟨hallowed, -, hidle⟩ := hh
  -- along the run: what is left of the handler still leads to `Q`
  have hall : Reachable ok m' ∧ (m'.config.prog .main).wpIn E Meanwhile (fun _ => Q) m'.globals := by
    clear hidle
    induction hrun with
    | refl =>
        obtain ⟨db, listenSocket, hbefore⟩ := hm
        refine ⟨⟨db, listenSocket, hbefore.tail ⟨_, hallowed, hstart⟩⟩, ?_⟩
        simp only [Machine.next, Option.ite_none_right_eq_some, Option.some.injEq] at hstart
        obtain ⟨-, rfl⟩ := hstart
        have hprog : (m.config.start .main ev.handler).prog .main = ev.handler := by
          simp [Config.start]
        rw [hprog]
        exact hwp
    | @tail m₂ m₃ hbefore hstep ih =>
        obtain ⟨l, hl, hnext⟩ := hstep
        obtain ⟨hreach, hmain⟩ := ih
        have hreach' : Reachable ok m₃ := by
          obtain ⟨db, listenSocket, hrun⟩ := hreach
          exact ⟨db, listenSocket, hrun.tail ⟨l, hl.1, hnext⟩⟩
        refine ⟨hreach', ?_⟩
        by_cases hlab : ∀ e, l ≠ .run .main e
        · rw [prog_main_next hl.2 hlab hnext]
          exact Prog.wpIn_stable (fun _ _ _ h h' => h.trans h') (fun _ => hQ) _ _ _ hmain
            (meanwhile_of_next hreach hlab hnext)
        · simp only [ne_eq, not_forall, not_not] at hlab
          obtain ⟨e, rfl⟩ := hlab
          simp only [Machine.next, Option.map_eq_some_iff] at hnext
          obtain ⟨c, hc, rfl⟩ := hnext
          exact Config.wpIn_stepThread Meanwhile.refl (hE _ _ hl.1) hc hmain
  -- at the end nothing is left of it
  have hmain := hall.2
  cases hp : m'.config.prog .main with
  | ret a =>
      rw [hp] at hmain
      exact hmain
  | lock n next => simp [Idle, hp, Prog.isDone] at hidle
  | unlock n next => simp [Idle, hp, Prog.isDone] at hidle
  | act f next => simp [Idle, hp, Prog.isDone] at hidle

end Machine

end TerminalChat.Server
