import Mathlib
import TerminalChat.Server.Refinement

/-!
# Runs of the server

The broadcaster and the cleanup threads change no entry of `g_clients` and only sweep rooms without
members. With the refinement of the handlers it follows that every run of the server, seen whenever
no handler is in progress, is a run of the hall (`Machine.Reachable.hallRun`).
-/

set_option autoImplicit false

namespace TerminalChat.Server

open TerminalChat.Concurrency TerminalChat.Text TerminalChat.Abstract TerminalChat.Client

/-- What a step of a thread other than the main thread may do. -/
structure Background (s s' : Globals) : Prop where
  rely : Rely s s'
  clients : s'.clients = s.clients

theorem Rely.of_hall {s s' : Globals} (h : s'.hall = s.hall) (hr : s'.chatRooms = s.chatRooms) :
    Rely s s' := by
  refine ⟨?_, fun r room hroom => ⟨room, hr ▸ hroom, rfl, rfl⟩⟩
  rw [h]
  exact .refl _

theorem Background.of_hall {s s' : Globals} (h : s'.hall = s.hall) (hr : s'.chatRooms = s.chatRooms)
    (hc : s'.clients = s.clients) : Background s s' := ⟨.of_hall h hr, hc⟩

/-- An edit of a room that keeps its members and their join times keeps the seniority in it. -/
theorem seniority_editRoom (s : Globals) (q : Bytes) {f : ChatRoom → ChatRoom}
    (hf : ∀ room, (f room).clients = room.clients ∧
      (f room).clientJoinTimes = room.clientJoinTimes) (r : Bytes) (room' : ChatRoom)
    (h : (s.editRoom q f).chatRooms[r]? = some room') : ∃ room, s.chatRooms[r]? = some room ∧
      room'.clients = room.clients ∧ room'.clientJoinTimes = room.clientJoinTimes := by
  by_cases hq : q = r
  · subst hq
    simp only [Globals.editRoom, Std.ExtTreeMap.getElem?_modify_self,
      Option.map_eq_some_iff] at h
    obtain ⟨room, hroom, rfl⟩ := h
    exact ⟨room, hroom, hf room⟩
  · simp only [Globals.editRoom, Std.ExtTreeMap.getElem?_modify, Std.LawfulEqCmp.compare_eq_iff_eq,
      hq, if_false] at h
    exact ⟨room', h, rfl, rfl⟩

/-- The program keeps to the background. -/
def StaysBehind {α : Type} (p : Thread α) : Prop :=
  p.Guar (fun _ => True) Background (fun _ => True)

section Rules

variable {α β : Type}

theorem staysBehind_step {b : Sect α} (hb : ∀ e s, b.post e s fun _ s' => Background s s') :
    StaysBehind (step b) := by
  rw [StaysBehind, step, Prog.guar_block]
  exact fun e s _ => Block.post_mono (hb e s) fun _ _ h => ⟨h, trivial⟩

theorem staysBehind_seq {p : Thread α} {f : α → Thread β} (hp : StaysBehind p)
    (hf : ∀ a, StaysBehind (f a)) : StaysBehind (p >>= f) :=
  Prog.guar_seq hp fun a _ => hf a

theorem staysBehind_holding {m : Mutex} {p : Thread α} (hp : StaysBehind p) :
    StaysBehind (Prog.holding m p) := (Prog.guar_holding m p).2 hp

theorem staysBehind_read (f : Env → Globals → α) : StaysBehind (step (.read f)) :=
  staysBehind_step fun _ _ => .of_hall rfl rfl rfl

end Rules

/-! ## The broadcaster and the cleanup threads -/

theorem post_deliverPublic (e : Env) (s : Globals) (message : Message) :
    (deliverPublic message).post e s fun _ s' => Background s s' := by
  simp only [deliverPublic, Block.post_bind, post_getCurrentTimestamp, post_tellRoom,
    post_broadcast, post_tellDatabase]
  have hroom := fun room : ChatRoom => room_addMessageToHistory room
    (chatText (e.wall 0).text message.senderName message.content)
  refine ⟨⟨sweeps_database (sweeps_sendAll ?_ (quiet_chatText _ _ _) _) _,
    seniority_editRoom s message.roomId fun room => ⟨rfl, rfl⟩⟩, rfl⟩
  rw [hall_editRoom (g := id) _ _ hroom, Hall.editRoom_of_id _ _ (f := id) fun _ => rfl]
  exact .refl _

theorem quiet_notInRoom (name : Bytes) :
    Quiet (str "ERROR: User '" ++ name ++ str "' not found in this room\n") := by
  rw [List.append_assoc]
  exact quiet_append (p := str "ERROR: User '") (by decide) _

theorem post_deliverPrivate (e : Env) (s : Globals) (message : Message) (t : SOCKET) :
    (deliverPrivate message t).post e s fun _ s' => Background s s' := by
  simp only [deliverPrivate, Block.post_ite, post_sendToClient, Block.post_bind,
    post_getCurrentTimestamp, post_tellDatabase]
  refine ⟨fun _ => .of_hall (hall_send_of_quiet s (quiet_notInRoom _) _) rfl rfl, fun _ => ?_⟩
  refine .of_hall ((hall_database _ _).trans ?_) rfl rfl
  rw [hall_send_of_quiet _ (quiet_privateText _ _ _ _),
    hall_send_of_quiet _ (quiet_privateText _ _ _ _)]

theorem staysBehind_deliverMessage (message : Message) : StaysBehind (deliverMessage message) := by
  refine staysBehind_holding (staysBehind_seq (staysBehind_read _) fun found => ?_)
  split
  · split
    · refine staysBehind_seq (staysBehind_holding (staysBehind_read _)) fun t => ?_
      exact staysBehind_step fun e s => post_deliverPrivate e s message t
    · exact staysBehind_step fun e s => post_deliverPublic e s message
  · exact trivial

/-- A round of the broadcaster keeps to the background. -/
theorem staysBehind_broadcastRound : StaysBehind broadcastRound := by
  refine staysBehind_seq (staysBehind_read _) fun stop => ?_
  split
  · exact trivial
  · refine staysBehind_seq (staysBehind_holding ?_) fun message => ?_
    · refine staysBehind_seq (staysBehind_read _) fun ready => ?_
      have hpop : StaysBehind (step popMessage) := staysBehind_step fun _ _ => .of_hall rfl rfl rfl
      split
      · exact hpop
      · exact staysBehind_seq trivial fun _ => hpop
    · cases message with
      | none => exact trivial
      | some message => exact staysBehind_deliverMessage message

/-- A cleanup thread keeps to the background. -/
theorem staysBehind_cleanupEmptyRoom (roomId : Bytes) : StaysBehind (cleanupEmptyRoom roomId) := by
  refine staysBehind_holding (staysBehind_step fun e s => ?_)
  have hclients : (sweepRoom roomId).post e s fun _ s' => s'.clients = s.clients := by
    simp [sweepRoom]
  have hrooms : (sweepRoom roomId).post e s fun _ s' => s'.chatRooms = s.chatRooms ∨
      s'.chatRooms = s.chatRooms.erase roomId := by
    simp [sweepRoom]
  refine ⟨⟨post_sweepRoom e s roomId, fun r room' hr => ?_⟩, hclients⟩
  rcases hrooms with h | h
  · rw [h] at hr
    exact ⟨room', hr, rfl, rfl⟩
  · rw [h, Std.ExtTreeMap.getElem?_erase] at hr
    split at hr
    · simp at hr
    · exact ⟨room', hr, rfl, rfl⟩

/-! ## Steps of the machine -/

/-- The handler in progress ends in `Q`, and the other threads keep to the background. -/
structure Machine.Tracked (Q : Globals → Prop) (m : Machine) : Prop where
  main : (m.config.prog .main).wp Rely (fun _ => Q) m.globals
  others : ∀ t, t ≠ .main → StaysBehind (m.config.prog t)

namespace Machine

variable {Q : Globals → Prop} {m m' : Machine}

/-- A step of a thread in the background. -/
theorem background_of_run (hm : ∀ t, t ≠ .main → StaysBehind (m.config.prog t)) {t : Tid}
    (ht : t ≠ .main) {e : Env} (h : m.next (.run t e) = some m') :
    Background m.globals m'.globals := by
  simp only [next, Option.map_eq_some_iff] at h
  obtain ⟨c, hc, rfl⟩ := h
  rcases (Config.guar_stepThread hc trivial (hm t ht)).2 with hs | hs
  · exact .of_hall (congrArg Globals.hall hs) (congrArg Globals.chatRooms hs)
      (congrArg Globals.clients hs)
  · exact hs

/-- A thread that is given a program that keeps to the background. -/
theorem others_start {c : Config Tid Mutex Env Globals}
    (hm : ∀ t, t ≠ .main → StaysBehind (c.prog t)) (u : Tid) {p : Thread Unit}
    (hp : u ≠ .main → StaysBehind p) : ∀ t, t ≠ .main → StaysBehind ((c.start u p).prog t) := by
  intro t ht
  by_cases hu : t = u
  · subst hu
    simpa [Config.start] using hp ht
  · simpa [Config.start, Function.update_of_ne hu] using hm t ht

theorem main_start {c : Config Tid Mutex Env Globals} {u : Tid} (hu : u ≠ .main) (p : Thread Unit) :
    (c.start u p).prog .main = c.prog .main := by
  simp [Config.start, Function.update_of_ne hu.symm]

/-- A step that starts no handler keeps track of the handler in progress. -/
theorem Tracked.next (hQ : ∀ s s', Q s → Rely s s' → Q s') (hm : m.Tracked Q) {l : Label}
    (hl : ∀ ev, l ≠ .event ev) (h : m.next l = some m') : m'.Tracked Q := by
  -- the precondition of the rest of the handler is stable under what the others do
  have hstable : ∀ s', Rely m.globals s' → (m.config.prog .main).wp Rely (fun _ => Q) s' :=
    fun s' hs => Prog.wp_stable (R := Rely) (fun _ _ _ h h' => h.trans h') (fun _ => hQ) _ _ _ hm.main hs
  cases l with
  | event ev => exact absurd rfl (hl ev)
  | round =>
      simp only [Machine.next, Option.ite_none_right_eq_some, Option.some.injEq] at h
      obtain ⟨-, rfl⟩ := h
      refine ⟨?_, others_start hm.others _ fun _ => staysBehind_broadcastRound⟩
      rw [main_start (by decide)]
      exact hm.main
  | wake i =>
      simp only [Machine.next] at h
      cases hi : m.globals.pendingCleanups[i]? with
      | none => simp [hi] at h
      | some roomId =>
          simp only [hi, Option.some.injEq] at h
          subst h
          refine ⟨?_, others_start hm.others _ fun _ => staysBehind_cleanupEmptyRoom roomId⟩
          rw [main_start (by simp)]
          exact hstable _ (.of_hall rfl rfl)
  | run t e =>
      by_cases ht : t = .main
      · subst ht
        simp only [Machine.next, Option.map_eq_some_iff] at h
        obtain ⟨c, hc, rfl⟩ := h
        refine ⟨Config.wp_stepThread Rely.refl hc hm.main, fun u hu => ?_⟩
        rw [Config.stepThread_prog_of_ne hc hu]
        exact hm.others u hu
      · -- a step of another thread stays in the background
        have hback := background_of_run hm.others ht h
        simp only [Machine.next, Option.map_eq_some_iff] at h
        obtain ⟨c, hc, rfl⟩ := h
        refine ⟨?_, fun u hu => ?_⟩
        · rw [Config.stepThread_prog_of_ne hc (Ne.symm ht)]
          exact hstable _ hback.rely
        · by_cases hut : u = t
          · subst hut
            exact (Config.guar_stepThread hc trivial (hm.others u hu)).1
          · rw [Config.stepThread_prog_of_ne hc hut]
            exact hm.others u hu
  | tick d =>
      simp only [Machine.next, Option.some.injEq] at h
      subst h
      exact ⟨hstable _ (.of_hall rfl rfl), hm.others⟩
  | signal =>
      simp only [Machine.next, Option.some.injEq] at h
      subst h
      exact ⟨hstable _ (.of_hall rfl rfl), hm.others⟩

/-- A handler starts when no other is in progress. -/
theorem idle_of_event {ev : Event} (h : m.next (.event ev) = some m') : m.Idle := by
  simp only [next, Option.ite_none_right_eq_some] at h
  exact h.1.1

/-- The start of a handler, when nobody is connected on `INVALID_SOCKET`. -/
theorem Tracked.event (hm : m.Tracked Q) (hvalid : INVALID_SOCKET ∉ m.globals.clients) {ev : Event}
    (h : m.next (.event ev) = some m') :
    m'.Tracked fun s' =>
      Does (fun op => ev.Asks op ∧ HeedsSeniority m.globals op) m.globals.hall s'.hall := by
  simp only [Machine.next, Option.ite_none_right_eq_some, Option.some.injEq] at h
  obtain ⟨⟨-, hev⟩, rfl⟩ := h
  refine ⟨?_, others_start hm.others _ fun hne => absurd rfl hne⟩
  have hprog : (m.config.start .main ev.handler).prog .main = ev.handler := by
    simp [Config.start]
  rw [hprog]
  exact wp_handler hev hvalid

theorem Tracked.quiet (hQ : ∀ s s', Q s → Rely s s' → Q s') (hm : m.Tracked Q)
    (hrun : Relation.ReflTransGen (Step fun _ l => ∀ ev, l ≠ .event ev) m m') : m'.Tracked Q := by
  induction hrun with
  | refl => exact hm
  | tail _ hstep ih =>
      obtain ⟨l, hl, hnext⟩ := hstep
      exact ih.next hQ hl hnext

/-- When no handler is in progress, its postcondition holds. -/
theorem Tracked.of_idle (hm : m.Tracked Q) (hidle : m.Idle) : Q m.globals := by
  have h := hm.main
  cases hp : m.config.prog .main with
  | ret a =>
      rw [hp] at h
      exact h
  | lock n next => simp [Idle, hp, Prog.isDone] at hidle
  | unlock n next => simp [Idle, hp, Prog.isDone] at hidle
  | act f next => simp [Idle, hp, Prog.isDone] at hidle

theorem tracked_boot (db : Database) (listenSocket : SOCKET)
    (hQ : Q (Globals.boot db listenSocket)) : (boot db listenSocket).Tracked Q :=
  ⟨hQ, fun _ _ => trivial⟩

/-- The cleanup threads that have not woken up have no program. -/
def Asleep (m : Machine) : Prop := ∀ n, m.woken ≤ n → (m.config.prog (.cleanup n)).isDone = true

theorem asleep_start {s : Globals} (hm : m.Asleep) {t : Tid} (ht : ∀ n, m.woken ≤ n → t ≠ .cleanup n)
    (p : Thread Unit) : Asleep { config := (m.config.setShared s).start t p, woken := m.woken } := by
  intro n hn
  simpa [Config.start, Config.setShared, Function.update_of_ne (ht n hn).symm] using hm n hn

/-- Cleanup threads wake up one by one. -/
theorem Asleep.next (hm : m.Asleep) {l : Label} (h : m.next l = some m') : m'.Asleep := by
  cases l with
  | event ev =>
      simp only [Machine.next, Option.ite_none_right_eq_some, Option.some.injEq] at h
      obtain ⟨-, rfl⟩ := h
      exact asleep_start (s := m.globals) hm (by simp) _
  | round =>
      simp only [Machine.next, Option.ite_none_right_eq_some, Option.some.injEq] at h
      obtain ⟨-, rfl⟩ := h
      exact asleep_start (s := m.globals) hm (by simp) _
  | wake i =>
      simp only [Machine.next] at h
      cases hi : m.globals.pendingCleanups[i]? with
      | none => simp [hi] at h
      | some roomId =>
          simp only [hi, Option.some.injEq] at h
          subst h
          intro n hn
          have hn' : m.woken + 1 ≤ n := hn
          have hne : Tid.cleanup n ≠ .cleanup m.woken := by
            simp only [ne_eq, Tid.cleanup.injEq]
            omega
          simpa [Config.start, Config.setShared, Function.update_of_ne hne] using hm n (by omega)
  | run t e =>
      simp only [Machine.next, Option.map_eq_some_iff] at h
      obtain ⟨c, hstep, rfl⟩ := h
      intro n hn
      have hne : Tid.cleanup n ≠ t := by
        rintro rfl
        have hdone := hm n hn
        rcases Config.stepThread_cases hstep with ⟨k, next, hp, -⟩ | ⟨k, next, hp, -⟩ |
          ⟨f, next, hp, -⟩ <;> simp [hp, Prog.isDone] at hdone
      show (c.prog (.cleanup n)).isDone = true
      rw [Config.stepThread_prog_of_ne hstep hne]
      exact hm n hn
  | tick d =>
      simp only [Machine.next, Option.some.injEq] at h
      subst h
      exact hm
  | signal =>
      simp only [Machine.next, Option.some.injEq] at h
      subst h
      exact hm

end Machine

/-! ## What an event asks for -/

section Asks

variable {ev : Event} {op : ServerOp}

/-- An event asks for the arrival or the departure of its client, or for what its command asks. -/
theorem Event.Asks.command (ha : ev.Asks op) :
    op = .connect ev.socket ∨ op = .disconnect ev.socket ∨
      ∃ c, ev.command = some c ∧ c.Asks ev.socket op := by
  cases ev with
  | connect sock => exact Or.inl ha
  | hangup sock => exact Or.inr (Or.inl ha)
  | receive sock buffer =>
      obtain ⟨text, ht, hr⟩ := ha
      refine Or.inr (Or.inr ?_)
      simp only [Event.command, ht, Option.bind_some]
      cases hp : parseText text with
      | command c =>
          rw [hp] at hr
          exact ⟨c, rfl, hr⟩
      | privateMessage _ _ =>
          rw [hp] at hr
          exact hr.elim
      | badPrivateMessage =>
          rw [hp] at hr
          exact hr.elim
      | chat _ =>
          rw [hp] at hr
          exact hr.elim

/-- Whatever an event asks for is done by its client. -/
theorem Event.Asks.actor (ha : ev.Asks op) : op.actor = some ev.socket := by
  rcases ha.command with rfl | rfl | ⟨c, -, hc⟩
  · rfl
  · rfl
  · cases c with
    | create params => obtain ⟨-, draw, rfl⟩ := hc; rfl
    | join params => rcases hc with ⟨-, rfl | rfl⟩ <;> rfl
    | setName name => cases hc; rfl
    | kick params => obtain ⟨t, rfl⟩ := hc; rfl
    | ban params => obtain ⟨r, t, rfl⟩ := hc; rfl
    | transfer params => obtain ⟨t, r, rfl⟩ := hc; rfl
    | leave => cases hc; rfl
    | forceLeave => obtain ⟨r, t, told, rfl⟩ := hc; rfl
    | changePassword params => obtain ⟨r, rfl⟩ := hc; rfl
    | _ => exact hc.elim

theorem Event.Asks.rename {sock : SOCKET} {n : Bytes} (ha : ev.Asks (.rename sock n)) :
    ∃ params, ev.command = some (.setName params) ∧ sock = ev.socket ∧ n = trim params := by
  rcases ha.command with he | he | ⟨c, hev, hc⟩
  · cases he
  · cases he
  · cases c <;> simp [Command.Asks] at hc
    exact ⟨_, hev, hc.1, hc.2⟩

theorem Event.Asks.create {sock : SOCKET} {r : Bytes} {isPrivate : Bool} {password : Bytes}
    (ha : ev.Asks (.create sock r isPrivate password)) : ∃ params,
      ev.command = some (.create params) ∧ sock = ev.socket ∧
        createParams params = (isPrivate, password) ∧ (isPrivate && password.isEmpty) = false := by
  rcases ha.command with he | he | ⟨c, hev, hc⟩
  · cases he
  · cases he
  · cases c with
    | create params =>
        obtain ⟨hok, draw, he⟩ := hc
        simp only [Hall.Op.create.injEq] at he
        obtain ⟨hs, -, rfl, rfl⟩ := he
        exact ⟨params, hev, hs, rfl, Bool.eq_false_iff.2 hok⟩
    | _ => simp [Command.Asks] at hc

theorem Event.Asks.join {sock : SOCKET} {r password : Bytes} (ha : ev.Asks (.join sock r password)) :
    ∃ params, ev.command = some (.join params) ∧ sock = ev.socket ∧
      joinParams params = (r, password) ∧ r ≠ [] := by
  rcases ha.command with he | he | ⟨c, hev, hc⟩
  · cases he
  · cases he
  · cases c <;> simp [Command.Asks] at hc
    obtain ⟨hne, hs, hr, hp⟩ := hc
    exact ⟨_, hev, hs, Prod.ext hr.symm hp.symm, hr ▸ hne⟩

theorem Event.Asks.missing {sock : SOCKET} {r : Bytes} (ha : ev.Asks (.missing sock r)) :
    ∃ params, ev.command = some (.join params) ∧ sock = ev.socket ∧ r = (joinParams params).1 ∧
      r ≠ [] := by
  rcases ha.command with he | he | ⟨c, hev, hc⟩
  · cases he
  · cases he
  · cases c <;> simp [Command.Asks] at hc
    obtain ⟨hne, hs, hr⟩ := hc
    exact ⟨_, hev, hs, hr, hr ▸ hne⟩

theorem Event.Asks.transfer {a t : SOCKET} {r n : Bytes} (ha : ev.Asks (.transfer a t r n)) :
    ∃ params, ev.command = some (.transfer params) ∧ a = ev.socket ∧ n = trim params := by
  rcases ha.command with he | he | ⟨c, hev, hc⟩
  · cases he
  · cases he
  · cases c <;> simp [Command.Asks] at hc
    exact ⟨_, hev, hc.1, hc.2⟩

theorem Event.Asks.setPassword {a : SOCKET} {r password : Bytes}
    (ha : ev.Asks (.setPassword a r password)) : ∃ params,
      ev.command = some (.changePassword params) ∧ a = ev.socket ∧ password = trim params := by
  rcases ha.command with he | he | ⟨c, hev, hc⟩
  · cases he
  · cases he
  · cases c <;> simp [Command.Asks] at hc
    exact ⟨_, hev, hc.1, hc.2⟩

theorem Event.Asks.ban {a : SOCKET} {r n : Bytes} {t : Option SOCKET} (ha : ev.Asks (.ban a r n t)) :
    ∃ params, ev.command = some (.ban params) ∧ a = ev.socket ∧ n = trim params := by
  rcases ha.command with he | he | ⟨c, hev, hc⟩
  · cases he
  · cases he
  · cases c <;> simp [Command.Asks] at hc
    exact ⟨_, hev, hc.1, hc.2⟩

theorem Event.Asks.forceLeave {sock : SOCKET} {r : Bytes} {t : Option SOCKET} {told : Bool}
    (ha : ev.Asks (.forceLeave sock r t told)) :
    ev.command = some .forceLeave ∧ sock = ev.socket := by
  rcases ha.command with he | he | ⟨c, hev, hc⟩
  · cases he
  · cases he
  · cases c <;> simp [Command.Asks] at hc
    exact ⟨hev, hc⟩

theorem Event.Asks.disconnect {sock : SOCKET} (ha : ev.Asks (.disconnect sock)) :
    ev = .hangup sock := by
  cases ev with
  | connect _ => cases ha
  | hangup _ => cases ha; rfl
  | receive _ buffer =>
      obtain ⟨text, -, hr⟩ := ha
      cases hp : parseText text with
      | command c =>
          rw [hp] at hr
          cases c <;> simp [Request.Asks, Command.Asks] at hr
      | _ =>
          rw [hp] at hr
          exact hr.elim

end Asks

/-! ## Every run is a run of the hall -/

/-- A run of the hall of the server. -/
abbrev HallRun (C : ServerOp → ServerHall → Prop) : ServerHall → Prop := Hall.Run INVALID_SOCKET C

/-- Operations under a condition on the events that ask for them: whenever `ok` lets an event
start in a sound hall, each permitted operation it may come to satisfies `C`, also after sweeps. -/
def Yields (ok : Machine → Label → Prop) (C : ServerOp → ServerHall → Prop) : Prop :=
  ∀ m ev op h, ok m (.event ev) → m.globals.hall.Sound INVALID_SOCKET →
    ev.Asks op ∧ HeedsSeniority m.globals op → Hall.Sweeps m.globals.hall h →
      op.Permitted INVALID_SOCKET h → C op h

theorem HallRun.does {C : ServerOp → ServerHall → Prop} {asks : ServerOp → Prop}
    {h h' : ServerHall} (hr : HallRun C h) (hd : Does asks h h')
    (hC : ∀ op h₁, asks op → Hall.Sweeps h h₁ → op.Permitted INVALID_SOCKET h₁ → C op h₁) :
    HallRun C h' := by
  obtain ⟨op, h₁, rfl | ha, hw, hp, hw'⟩ := hd
  · exact (hr.sweeps hw).sweeps hw'
  · exact ((hr.sweeps hw).apply op hp (hC op h₁ ha hw hp)).sweeps hw'

theorem HallRun.valid {C : ServerOp → ServerHall → Prop} {s : Globals} (hr : HallRun C s.hall) :
    INVALID_SOCKET ∉ s.clients := (s.person_hall_eq_none _).1 hr.sound.outside

namespace Machine

variable {ok : Machine → Label → Prop} {C : ServerOp → ServerHall → Prop} {m m' : Machine}

/-- In every run each handler in progress ends in a run of the hall. -/
theorem Reachable.tracked (hC : Yields ok C) (hm : Reachable ok m) :
    m.Tracked fun s => HallRun C s.hall := by
  obtain ⟨db, listenSocket, hrun⟩ := hm
  induction hrun with
  | refl =>
      refine tracked_boot db listenSocket ?_
      rw [hall_boot]
      exact .empty
  | tail _ hstep ih =>
      obtain ⟨l, hok, hnext⟩ := hstep
      have hQ : ∀ s s' : Globals, HallRun C s.hall → Rely s s' → HallRun C s'.hall :=
        fun _ _ hr hs => hr.sweeps hs.sweeps
      cases l with
      | event ev =>
          have hr := ih.of_idle (idle_of_event hnext)
          have ht := ih.event hr.valid hnext
          refine ⟨Prog.wp_mono (fun _ s' hd => ?_) _ _ ht.main, ht.others⟩
          exact hr.does hd fun op h₁ ha hw hp => hC _ ev op h₁ hok hr.sound ha hw hp
      | round => exact ih.next hQ (by simp) hnext
      | wake i => exact ih.next hQ (by simp) hnext
      | run t e => exact ih.next hQ (by simp) hnext
      | tick d => exact ih.next hQ (by simp) hnext
      | signal => exact ih.next hQ (by simp) hnext

/-- Whenever no handler is in progress, the hall of the server is reached by a run of the hall. -/
theorem Reachable.hallRun (hC : Yields ok C) (hm : Reachable ok m) (hidle : m.Idle) :
    HallRun C m.globals.hall := (hm.tracked hC).of_idle hidle

/-- Handling an event comes to an operation it asks for, and what is handed on goes to the heir. -/
theorem Reachable.heeds (hm : Reachable anyStep m) {ev : Event} (hh : m.Handles ev m') :
    Does (fun op => ev.Asks op ∧ HeedsSeniority m.globals op) m.globals.hall m'.globals.hall := by
  obtain ⟨m₁, hstart, hrun, hidle'⟩ := hh
  have ht := hm.tracked (C := fun _ _ => True) fun _ _ _ _ _ _ _ _ _ => trivial
  have ht₁ := ht.event (ht.of_idle (idle_of_event hstart)).valid hstart
  exact (ht₁.quiet (fun _ _ hd hs => hd.sweeps hs.sweeps) hrun).of_idle hidle'

/-- Handling an event comes to an operation it asks for. -/
theorem Reachable.does (hm : Reachable anyStep m) {ev : Event} (hh : m.Handles ev m') :
    Does ev.Asks m.globals.hall m'.globals.hall := (hm.heeds hh).mono fun _ ha => ha.1

end Machine

end TerminalChat.Server
