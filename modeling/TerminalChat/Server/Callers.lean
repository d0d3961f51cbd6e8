import Mathlib
import TerminalChat.Server.Registry
import TerminalChat.Server.Deliveries

/-!
# What the server calls

Whatever a run of the server does to the database, it does by six operations of `Database`: it opens,
credits, rekeys and deletes rooms, adds bans and saves messages. So what holds of the file after every
history of operations holds of it at every moment of every run, also when the server is stopped there and
started again over the same file (`file_after_servers`).
-/

set_option autoImplicit false

namespace TerminalChat.Server

open TerminalChat.Concurrency TerminalChat.Text TerminalChat.Query

/-- The operations that the server calls when it changes the file. -/
def Call.ByServer : Call → Prop
  | .saveMessage _ _ _ _ _ => True
  | .createRoom _ _ _ _ => True
  | .deleteRoom _ => True
  | .updateRoomOwner _ _ => True
  | .updateRoomPassword _ _ => True
  | .addBan _ _ => True
  | _ => False

/-- What an operation reads of what an action reads. -/
def Env.callEnv (e : Env) : CallEnv := ⟨e.calls, e.utc.text, e.order, .table⟩

/-- The file is left by operations of the server, from the file `start`. -/
def WrittenBy (start file : DatabaseFile) : Prop :=
  ∃ history : List (CallEnv × Call), (∀ p ∈ history, p.2.ByServer) ∧ start.performAll history = file

section Written

variable {start file : DatabaseFile}

theorem WrittenBy.refl (start : DatabaseFile) : WrittenBy start start :=
  ⟨[], fun _ hp => absurd hp List.not_mem_nil, rfl⟩

theorem WrittenBy.perform (h : WrittenBy start file) (e : CallEnv) {c : Call} (hc : c.ByServer) :
    WrittenBy start (file.perform e c).2 := by
  obtain ⟨history, hserver, rfl⟩ := h
  refine ⟨history ++ [(e, c)], ?_, performAll_concat history e c start⟩
  intro p hp
  rw [List.mem_append, List.mem_singleton] at hp
  rcases hp with hp | rfl
  · exact hserver p hp
  · exact hc

theorem WrittenBy.trans {file' : DatabaseFile} (h : WrittenBy start file) (h' : WrittenBy file file') :
    WrittenBy start file' := by
  obtain ⟨history, hserver, rfl⟩ := h
  obtain ⟨history', hserver', rfl⟩ := h'
  refine ⟨history ++ history', ?_, ?_⟩
  · intro p hp
    rcases List.mem_append.1 hp with hp | hp
    · exact hserver p hp
    · exact hserver' p hp
  · exact List.foldl_append

end Written

/-! ## Actions -/

/-- The database of the run is left by operations of the server; the accounts are as they were. -/
def OnFile (start : DatabaseFile) (s : Globals) : Prop :=
  WrittenBy start { toDatabase := s.database, users := start.users }

section Actions

variable {start : DatabaseFile} {s s' : Globals} {e : Env}

theorem OnFile.same (h : OnFile start s) (hd : s'.database = s.database) : OnFile start s' := by
  rw [OnFile, hd]
  exact h

theorem OnFile.effect (h : OnFile start s) (eff : Effect) : OnFile start (eff.apply e s) := by
  -- each effect on the database is one of the calls of the server
  have hcall : ∀ c : Call, c.ByServer →
      WrittenBy start (DatabaseFile.perform e.callEnv { toDatabase := s.database, users := start.users } c).2 :=
    fun c hc => h.perform e.callEnv hc
  cases eff with
  | record roomId isPrivate owner password => exact hcall (.createRoom roomId isPrivate owner password) trivial
  | credit roomId name => exact hcall (.updateRoomOwner roomId name) trivial
  | ban roomId name => exact hcall (.addBan roomId name) trivial
  | rekey roomId password => exact hcall (.updateRoomPassword roomId password) trivial
  | sweep roomId =>
      rw [Effect.apply]
      split
      · exact hcall (.deleteRoom roomId) trivial
      · exact h
  | leave roomId sock =>
      rw [Effect.apply]
      split
      · exact h
      · exact h
  | _ => exact h

theorem OnFile.deeds {effs : List Effect} {g g' : Note} (h : OnFile start s) (hd : Deeds e effs g s g' s') :
    OnFile start s' := by
  refine hd.keep (P := fun _ s => OnFile start s) ?_ ?_ h
  · intro _ s s' hm hs
    exact hs.same hm.database
  · intro eff _ s _ _ hs
    exact hs.effect eff

theorem OnFile.acts {hand : Hand} (h : OnFile start s) (hd : hand.Acts e s s') : OnFile start s' := by
  -- the broadcaster only saves messages
  have hsave : ∀ (message : Message) (isPrivate : Bool) (recipient : Bytes),
      WrittenBy start ⟨s.database.saveMessage e.calls e.utc.text message.roomId message.senderName
        message.content isPrivate recipient, start.users⟩ := fun message isPrivate recipient =>
    h.perform e.callEnv (c := .saveMessage message.roomId message.senderName message.content isPrivate
      recipient) trivial
  cases hand with
  | empty =>
      rcases hd with rfl | ⟨message, rest, -, rfl⟩
      · exact h
      · exact h
  | taken message =>
      rw [show s' = s from hd]
      exact h
  | found message =>
      rw [Hand.Acts] at hd
      split at hd
      · rw [hd]
        exact h
      · rw [hd.2, state_deliverPublic]
        exact hsave message false []
  | resolved message t recipient =>
      rw [hd.2, state_deliverPrivate, OnFile]
      dsimp only
      split
      · exact h
      · exact hsave message true message.recipientName

end Actions

/-! ## Runs and restarts -/

namespace Machine

variable {ok : Machine → Label → Prop} {db : Database} {listenSocket : SOCKET} {m : Machine}

theorem onFile_of_run (hrun : Relation.ReflTransGen (Step ok) (boot db listenSocket) m)
    (users : List UserRow) : OnFile { toDatabase := db, users := users } m.globals := by
  obtain ⟨w, hw⟩ := exists_watched hrun
  refine (hw.induction (P := fun m _ _ => OnFile { toDatabase := db, users := users } m.globals)
    (WrittenBy.refl _) ?_).choose_spec.2
  intro m g w l m' g' _ _ _ h hmove
  -- what the watch notes plays no part here
  generalize w.observe m l m' = w' at hmove
  cases hmove with
  | rest hs =>
      rw [hs]
      exact h
  | wake hs =>
      rw [hs]
      exact h
  | main H hd =>
      obtain ⟨effs, ops, hdeeds, -⟩ := hd.deeds
      exact h.deeds hdeeds
  | broadcast hd => exact h.acts hd
  | sweep roomId hs =>
      rw [hs]
      exact h.effect (.sweep roomId)

end Machine

/-- The databases that a series of servers over one file leaves, beginning with an empty one. A server
may be stopped at any moment of its run. -/
inductive LeftByServers : Database → Prop where
  | empty : LeftByServers {}
  | stop {db : Database} {listenSocket : SOCKET} {m : Machine} (h : LeftByServers db)
      (hrun : Relation.ReflTransGen (Machine.Step Machine.anyStep) (Machine.boot db listenSocket) m) :
      LeftByServers m.globals.database

theorem LeftByServers.written {db : Database} (h : LeftByServers db) :
    WrittenBy {} { toDatabase := db } := by
  induction h with
  | empty => exact .refl _
  | stop _ hrun ih => exact ih.trans (Machine.onFile_of_run hrun [])

/-- No operation of the server creates an account. -/
theorem registers_byServer {c : Call} (hc : c.ByServer) (name : Bytes) (e : CallEnv) :
    c.registers name e = none := by
  cases c with
  | createUser username passwordHash => exact hc.elim
  | _ => rfl

/-- No operation of the server takes a ban back; only the deletion of the room does. -/
theorem decides_byServer {c : Call} (hc : c.ByServer) {roomId name : Bytes} {e : CallEnv}
    (h : c.decides roomId name e = some false) : ∃ r, c = .deleteRoom r ∧ cString r = roomId := by
  cases c with
  | removeBan r n => exact hc.elim
  | deleteRoom r =>
      rw [Call.decides] at h
      split at h
      · rename_i hr
        exact ⟨r, rfl, hr.2.2⟩
      · exact absurd h (by simp)
  | addBan r n =>
      rw [Call.decides] at h
      split at h
      · exact absurd h (by simp)
      · exact absurd h (by simp)
  | _ => exact absurd h (by simp [Call.decides])

/-- The file after any number of servers. However often the server has been started over the file and
wherever each of them was stopped, whichever SQLite calls failed: the file is the result of a history of
six operations; no room has two rows and no ban is written twice; nobody has an account, so no
authentication succeeds; and a ban is reported exactly when it is the last decision of the history about
the pair, where only the deletion of the room can have taken it back. -/
theorem file_after_servers (db : Database) (h : LeftByServers db) :
    ∃ history : List (CallEnv × Call), (∀ p ∈ history, p.2.ByServer) ∧
      DatabaseFile.performAll history {} = { toDatabase := db } ∧
      Keyed RoomRow.roomId db.rooms ∧ db.bans.Nodup ∧
      (∀ (e : CallEnv) (username passwordHash : Bytes),
        DatabaseFile.authenticateUser e.calls username passwordHash { toDatabase := db } = false) ∧
      (∀ (e : CallEnv) (roomId username : Bytes), db.isUserBanned e.calls roomId username = true ↔
        e.ok = true ∧ (history.reverse.findSome? fun p =>
          p.2.decides (cString roomId) (cString username) p.1) = some true) ∧
      ∀ (roomId username : Bytes), ∀ p ∈ history, p.2.decides roomId username p.1 = some false →
        ∃ r, p.2 = .deleteRoom r ∧ cString r = roomId := by
  obtain ⟨history, hserver, hfile⟩ := h.written
  obtain ⟨hunique, hregistry⟩ := performAll_registry Unique.empty history
  rw [registry_empty] at hregistry
  rw [hfile] at hunique hregistry
  refine ⟨history, hserver, hfile, hunique.rooms, hunique.bans, ?_, ?_, ?_⟩
  · intro e username passwordHash
    have hnone : (enroll history .empty).accounts (cString username) = none := by
      rw [accounts_enroll, List.findSome?_eq_none_iff]
      intro p hp
      exact registers_byServer (hserver p hp) _ _
    rw [authenticate_eq hunique, hregistry, hnone]
    simp
  · intro e roomId username
    have hbans : db.isUserBanned e.calls roomId username = true ↔
        e.ok = true ∧ (cString roomId, cString username) ∈ (enroll history .empty).bans := by
      rw [← hregistry, Database.isUserBanned, any_bans { toDatabase := db }, Bool.and_eq_true,
        decide_eq_true_eq, CallEnv.ok]
      exact Iff.rfl
    rw [hbans, bans_enroll]
  · intro roomId username p hp hfalse
    exact decides_byServer (hserver p hp) hfalse

/-- Alice makes a room and bans bob, who is not there; the server is stopped, and another one runs. -/
theorem file_after_servers_bob : ∃ db, LeftByServers db ∧ db.rooms.length = 1 ∧ db.bans.length = 1 ∧
    db.bans.Nodup := by
  obtain ⟨m, hm, hp⟩ := (Option.any_eq_true (fun m : Machine =>
    decide (m.globals.database.rooms.length = 1 ∧ m.globals.database.bans.length = 1)) _).1
      (by decide +kernel : ((Machine.boot {} 3).serveAll (fun _ _ => True)
        [(.connect 4, 0), (.receive 4 (str "/SETNAME alice"), 0), (.receive 4 (str "/CREATE PUBLIC"), 7),
          (.receive 4 (str "/BAN bob"), 0)]).any _ = true)
  have hrun := Machine.serveAll_reaches (fun _ _ => True) _ _ m hm
  have hleft : LeftByServers m.globals.database := by
    refine LeftByServers.empty.stop (hrun.lift id ?_)
    rintro m₁ m₂ ⟨l, -, hn⟩
    exact ⟨l, trivial, hn⟩
  have hagain : LeftByServers (Machine.boot m.globals.database 5).globals.database :=
    hleft.stop .refl
  obtain ⟨hrooms, hbans⟩ := of_decide_eq_true hp
  obtain ⟨history, -, -, -, hnodup, -⟩ := file_after_servers _ hagain
  exact ⟨_, hagain, hrooms, hbans, hnodup⟩

end TerminalChat.Server
