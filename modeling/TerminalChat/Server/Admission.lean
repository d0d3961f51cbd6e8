import Mathlib
import TerminalChat.Server.Mirroring

/-!
# What JOIN decides

JOIN looks for the room, for a ban in memory and then in the database, and for the password of a private
room, in this order (`joinVerdict`); it admits the client when nothing speaks against it
(`handleJoinCommand_eq`). An admission replays the history of the room (`Machine.Watched.comes_to_join`).
-/

set_option autoImplicit false

namespace TerminalChat.Server

open TerminalChat.Concurrency TerminalChat.Text

/-! ## Verdicts -/

/-- The outcomes of JOIN under both locks. -/
inductive Verdict where
  | missing
  | banned
  | passwordRequired
  | wrongPassword
  | admitted
  deriving DecidableEq

/-- What JOIN answers to a client that it does not admit. -/
def Verdict.text : Verdict → Bytes
  | .missing => str "ROOM_NOT_FOUND\n"
  | .banned => errorText "You are banned from this room"
  | .passwordRequired => str "PASSWORD_REQUIRED\n"
  | .wrongPassword => str "WRONG_PASSWORD\n"
  | .admitted => []

/-- The outcome of JOIN for a client with this name and this password. -/
def joinVerdict (e : Env) (s : Globals) (roomId username password : Bytes) : Verdict :=
  match s.chatRooms[roomId]? with
  | none => .missing
  | some room =>
      if room.isUserBanned username || s.database.isUserBanned e.calls roomId username then .banned
      else if room.isPrivate && password.isEmpty then .passwordRequired
      else if room.isPrivate && room.password != password then .wrongPassword
      else .admitted

section Verdicts

variable (e : Env) (s : Globals) (sock : SOCKET) (client : ClientInfo) (roomId password : Bytes)

/-- JOIN does what the verdict says. -/
theorem state_joinRoom : ((joinRoom sock client roomId password).exec e s).state =
    if joinVerdict e s roomId client.username password = .admitted then
      ((admitClient sock client roomId).exec e s).state
    else s.send sock (joinVerdict e s roomId client.username password).text := by
  have hpost : (joinRoom sock client roomId password).post e s fun _ s' => s' =
      if joinVerdict e s roomId client.username password = .admitted then
        ((admitClient sock client roomId).exec e s).state
      else s.send sock (joinVerdict e s roomId client.username password).text := by
    simp only [joinRoom, Block.post_bind, post_roomExists, Block.post_ite, post_sendToClient,
      post_askRoom, post_askDatabase, Block.post_pure, Bool.not_eq_true', Nat.zero_add]
    cases hroom : s.chatRooms[roomId]? with
    | none =>
        have hout : s.chatRooms.contains roomId = false := by
          rw [Std.ExtTreeMap.contains_eq_isSome_getElem?, hroom]
          rfl
        simp [joinVerdict, hroom, hout, Verdict.text]
    | some room =>
        have hin : s.chatRooms.contains roomId = true := by
          rw [Std.ExtTreeMap.contains_eq_isSome_getElem?, hroom]
          rfl
        have hjoined : (admitClient sock client roomId).post e s fun _ s' =>
            s' = ((admitClient sock client roomId).exec e s).state := rfl
        have hverify : room.verifyPassword password = !(room.password != password) := by
          simp [ChatRoom.verifyPassword, bne]
        simp only [hin, Option.map_some, Option.getD_some, hverify, joinVerdict, hroom]
        generalize room.isUserBanned client.username = inMemory
        generalize Database.isUserBanned e.calls roomId client.username s.database = inTable
        generalize room.isPrivate = isPrivate
        generalize (room.password != password) = differs
        generalize password.isEmpty = isEmpty
        -- the checks one after the other
        cases inMemory
        · cases inTable
          · cases isPrivate
            · simp [hjoined]
            · cases isEmpty
              · cases differs <;> simp [hjoined, Verdict.text]
              · simp [Verdict.text]
          · simp [Verdict.text]
        · simp [Verdict.text]
  exact hpost

theorem performs_joinRoom (h : joinVerdict e s roomId client.username password = .admitted) :
    Performs e (joinEffects client roomId sock) s
      ((joinRoom sock client roomId password).exec e s).state := by
  rw [state_joinRoom, if_pos h]
  exact post_admitClient_deeds e s client roomId

/-- A client that JOIN has made a member has been admitted. -/
theorem admitted_of_isMember {r : Bytes} (h : ¬s.IsMember sock r)
    (h' : ((joinRoom sock client roomId password).exec e s).state.IsMember sock r) :
    joinVerdict e s roomId client.username password = .admitted := by
  by_contra hne
  rw [state_joinRoom, if_neg hne] at h'
  exact h h'

end Verdicts

/-! ## The history that is replayed -/

section History

variable {e : Env} {s : Globals} {client : ClientInfo} {sock : SOCKET} {r : Bytes}

/-- An admission replays the history of the room to the client, and nothing else. -/
theorem replays_of_admission {s' : Globals} (h : Performs e (joinEffects client r sock) s s') :
    replays (opsBetween s s') = (s.history e r).map fun text => (sock, text) := by
  obtain ⟨ops, hnet, hops⟩ := h.net
  rw [opsBetween_eq hnet, hops, joinEffects, List.flatMap_append]
  split <;> simp [Effect.replays]

/-- When every SQLite call succeeds, the last rows of the room are read, oldest first. -/
theorem getMessageHistory_eq {calls : Nat → Bool} (hc : ∀ n, calls n = true) (order : DescOrder)
    (limit : Nat) (db : Database) : db.getMessageHistory calls order r limit =
      (((order.arrange (db.publicRows (cString r))).take limit).map
        Database.historyLine).reverse := by
  rw [Database.getMessageHistory, hc, if_pos rfl]
  have hall : ∀ rows : List MessageRow, rows.zipIdx.takeWhile (fun p => calls (p.2 + 1)) =
      rows.zipIdx := by
    intro rows
    exact List.takeWhile_eq_self_iff.2 fun p _ => hc (p.2 + 1)
  have hfst : ∀ rows : List MessageRow, rows.zipIdx.map (fun p => Database.historyLine p.1) =
      rows.map Database.historyLine := by
    intro rows
    conv_rhs => rw [← List.zipIdx_map_fst 0 rows]
    rw [List.map_map]
    rfl
  dsimp only
  rw [hall, hfst]
  rfl

end History

/-! ## The way to the critical section -/

/-- The steps of JOIN, as long as it is not answered at once: `g_clientsMutex`, the entry of the client,
`g_chatRoomsMutex`, and what is done under both. -/
theorem handleJoinCommand_eq (sock : SOCKET) {params : Bytes} (hr : (joinParams params).1 ≠ []) :
    ∃ next : Env → Globals → Thread Unit,
      handleJoinCommand sock params = .lock .clientsMutex
        (.act (fun _ s => s.setInfo sock id) next) ∧
      ∀ e s, (joinParams params).1 ≠ (s.info sock).roomId → ∃ next', next e s = .lock .chatRoomsMutex
        (.act (fun e' s' => ((joinRoom sock (s.info sock) (joinParams params).1
          (joinParams params).2).exec e' s').state) next') := by
  rw [handleJoinCommand, if_neg (by simpa using hr)]
  refine ⟨_, rfl, fun e s hother => ?_⟩
  have hne : ((joinParams params).1 == (s.info sock).roomId) = false := by simpa using hother
  refine ⟨?_, ?_⟩
  rotate_left
  · show Prog.bind (if ((joinParams params).1 == (s.info sock).roomId) = true then _ else _) _ = _
    rw [hne]
    rfl

theorem mainEntries_of_same {s s' : Globals} (hr : s'.chatRooms = s.chatRooms)
    (hq : s'.messageQueue = s.messageQueue) : mainEntries s s' = [] := by
  have hkeys : s.chatRooms.keys.filter (fun r => r ∉ s.chatRooms) = [] := by
    rw [List.filter_eq_nil_iff]
    intro r hmem
    simpa using hmem
  rw [mainEntries, hr, hq, hkeys, List.drop_length]
  rfl

namespace Machine

variable {ok : Machine → Label → Prop} {db : Database} {listenSocket : SOCKET} {m : Machine}
  {w : Watch}

/-- A handler whose next step takes a free mutex takes it. -/
theorem Watched.locks (hw : Watched ok db listenSocket m w) {x : Mutex} {next : Thread Unit} {e : Env}
    (hok : ok m (.run .main e)) (hp : m.config.prog .main = .lock x next)
    (ho : m.config.owner x = none) :
    ∃ m', Watched ok db listenSocket m' w ∧ m'.globals = m.globals ∧ m'.config.prog .main = next ∧
      m'.config.owner = Function.update m.config.owner x (some .main) := by
  refine ⟨{ m with config := { m.config with
    owner := Function.update m.config.owner x (some .main)
    prog := Function.update m.config.prog .main next } }, hw.tail ⟨.run .main e, hok, ?_, ?_⟩, rfl,
      by simp, rfl⟩
  · simp only [Machine.next, Config.stepThread, hp, ho, Option.map_some]
  · simp [Watch.observe, hp, Prog.isAct]

/-- A handler whose next step is an action acts. -/
theorem Watched.acts (hw : Watched ok db listenSocket m w) {f : Env → Globals → Globals}
    {next : Env → Globals → Thread Unit} {e : Env} (hok : ok m (.run .main e))
    (hp : m.config.prog .main = .act f next) :
    ∃ m' w', m.next (.run .main e) = some m' ∧ Watched ok db listenSocket m' w' ∧
      m'.globals = f e m.globals ∧ w'.log = w.log ++ mainEntries m.globals m'.globals ∧
        m'.config.prog .main = next e m.globals ∧ m'.config.owner = m.config.owner := by
  have hnext : ∃ m', m.next (.run .main e) = some m' ∧ m'.globals = f e m.globals ∧
      m'.config.prog .main = next e m.globals ∧ m'.config.owner = m.config.owner := by
    refine ⟨{ m with config := { m.config with
      shared := f e m.globals
      prog := Function.update m.config.prog .main (next e m.globals) } }, ?_, rfl, by simp, rfl⟩
    simp only [Machine.next, Config.stepThread, hp, Option.map_some, globals]
  obtain ⟨m', hnext, hs, hp', ho⟩ := hnext
  refine ⟨m', w.observe m (.run .main e) m', hnext, hw.tail ⟨.run .main e, hok, hnext, rfl⟩, hs, ?_,
    hp', ho⟩
  simp [Watch.observe, hp, Prog.isAct]

/-- An undisturbed JOIN comes to its critical section. -/
theorem Watched.comes_to_join (hw : Watched ok db listenSocket m w) (hidle : m.Idle) {ev : Event}
    {sock : SOCKET} {params : Bytes} (hev : ev.handler = handleJoinCommand sock params)
    (hocc : ev.CanOccur m.globals) (hr : (joinParams params).1 ≠ [])
    (hother : (joinParams params).1 ≠ (m.globals.info sock).roomId)
    (hclients : m.config.owner .clientsMutex = none) (hrooms : m.config.owner .chatRoomsMutex = none)
    {e : Env} (hok : ok m (.event ev)) (hrun : ∀ m, ok m (.run .main e)) :
    ∃ m' w' m₁, Watched ok db listenSocket m' w' ∧ w'.log = w.log ∧
      m'.globals = m.globals.setInfo sock id ∧ m'.next (.run .main e) = some m₁ ∧
        m₁.globals = ((joinRoom sock (m.globals.info sock) (joinParams params).1
          (joinParams params).2).exec e m'.globals).state := by
  obtain ⟨next, hprog, hnext⟩ := handleJoinCommand_eq sock hr
  obtain ⟨next', hnext'⟩ := hnext e m.globals hother
  -- the event, and the mutex of the clients
  have h₀ : Watched ok db listenSocket { m with config := m.config.start .main ev.handler } w :=
    hw.tail ⟨.event ev, hok, if_pos ⟨hidle, hocc⟩, rfl⟩
  have hlock : (m.config.start .main ev.handler).prog .main = .lock .clientsMutex
      (.act (fun _ s => s.setInfo sock id) next) := by
    rw [hev, hprog]
    simp [Config.start]
  obtain ⟨m₁, h₁, hs₁, hp₁, ho₁⟩ := h₀.locks (hrun _) hlock hclients
  -- the entry of the client
  obtain ⟨m₂, w₂, -, h₂, hs₂, hlog, hp₂, ho₂⟩ := h₁.acts (e := e) (hrun _) hp₁
  -- the mutex of the rooms
  rw [hs₁] at hs₂ hlog hp₂
  obtain ⟨m₃, h₃, hs₃, hp₃, -⟩ := h₂.locks (hrun _) (hp₂.trans hnext') (by
    rw [ho₂, ho₁, Function.update_of_ne (by decide)]
    exact hrooms)
  obtain ⟨m₄, w₄, hn₄, -, hs₄, -⟩ := h₃.acts (e := e) (hrun _) hp₃
  refine ⟨m₃, w₂, m₄, h₃, ?_, hs₃.trans hs₂, hn₄, hs₄⟩
  rw [hlog, mainEntries_of_same, List.append_nil]
  · rw [hs₂]
    rfl
  · rw [hs₂]
    rfl

end Machine

end TerminalChat.Server
