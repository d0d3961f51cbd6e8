import Mathlib
import TerminalChat.Server.Machine

/-!
# Lines

A server whose clients send whole lines keeps no newline in its names, passwords, messages and
history, and everything it sends is one line. `Lined` says so of the globals. Here are the rules for
blocks and programs that keep it, and that they hold of every statement of the handlers.
-/

set_option autoImplicit false

namespace TerminalChat.Server

open TerminalChat.Concurrency TerminalChat.Text

/-- One line with its newline. -/
def IsLine (text : Bytes) : Prop := ∃ body, text = body ++ [newline] ∧ OneLine body

/-- One line of the history; every client takes it for chat. -/
def IsHistoryLine (text : Bytes) : Prop := ∃ body, text = str "[" ++ body ++ [newline] ∧ OneLine body

/-- What a client is sent is one line. -/
def NetOp.Lined : NetOp → Prop
  | .sent _ text => IsLine text
  | .replayed _ text => IsHistoryLine text
  | _ => True

/-- No newline in an entry of `g_clients`. -/
structure ClientInfo.Lined (c : ClientInfo) : Prop where
  username : OneLine c.username
  roomId : OneLine c.roomId

/-- No newline in a room, except after each message of its history. -/
structure ChatRoom.Lined (room : ChatRoom) : Prop where
  password : OneLine room.password
  history : ∀ message ∈ room.messageHistory, IsHistoryLine message

/-- No newline in a queued message. -/
structure Message.Lined (message : Message) : Prop where
  content : OneLine message.content
  senderName : OneLine message.senderName
  recipientName : OneLine message.recipientName

/-- No newline in a row of `messages`. -/
structure MessageRow.Lined (row : MessageRow) : Prop where
  senderUsername : OneLine row.senderUsername
  content : OneLine row.content
  timestamp : OneLine row.timestamp

/-- No newline in the stored messages. -/
def Database.Lined (db : Database) : Prop := ∀ row ∈ db.messages, row.Lined

/-- No newline in anything the server keeps, and everything it has sent is a line. -/
structure Lined (s : Globals) : Prop where
  clients : ∀ (sock : SOCKET) (c : ClientInfo), s.clients[sock]? = some c → c.Lined
  rooms : ∀ (r : Bytes) (room : ChatRoom), s.chatRooms[r]? = some room → OneLine r ∧ room.Lined
  queue : ∀ message ∈ s.messageQueue, message.Lined
  database : s.database.Lined
  net : ∀ op ∈ s.net, op.Lined

/-- A step that keeps the globals lined and only adds to the trace of the network. -/
structure Writes (s s' : Globals) : Prop where
  lined : Lined s'
  net : s.net <+: s'.net

theorem Writes.of_net {s s' : Globals} (h : Lined s') (hn : s'.net = s.net) : Writes s s' :=
  ⟨h, hn ▸ List.prefix_refl _⟩

theorem Writes.trans {s s' s'' : Globals} (h : Writes s s') (h' : Writes s' s'') : Writes s s'' :=
  ⟨h'.lined, h.net.trans h'.net⟩

/-! ## Texts -/

theorem isLine_of_oneLine {body : Bytes} (h : OneLine body) : IsLine (body ++ str "\n") :=
  ⟨body, rfl, h⟩

theorem oneLine_nil : OneLine [] := by simp [OneLine]

theorem oneLine_flatMap {α : Type} {l : List α} {f : α → Bytes} (h : ∀ a ∈ l, OneLine (f a)) :
    OneLine (l.flatMap f) := by
  intro hm
  obtain ⟨a, ha, hc⟩ := List.mem_flatMap.1 hm
  exact h a ha hc

theorem oneLine_cString {s : Bytes} (h : OneLine s) : OneLine (cString s) :=
  h.sublist (List.takeWhile_prefix _).sublist

theorem oneLine_decimal (n : Nat) : OneLine (decimal n) := by
  intro h
  exact absurd (isDigit_of_mem_decimal h).1 (by decide)

theorem oneLine_twoDigits (n : Nat) : OneLine (twoDigits n) := by
  have hdigit : ∀ k : Nat, k < 10 → newline ≠ UInt8.ofNat (48 + k) := by decide
  have h₁ := hdigit (n / 10 % 10) (Nat.mod_lt _ (by decide))
  have h₂ := hdigit (n % 10) (Nat.mod_lt _ (by decide))
  simp only [OneLine, twoDigits, List.mem_cons, List.not_mem_nil, or_false, not_or]
  exact ⟨h₁, h₂⟩

theorem oneLine_localTm (t : LocalTm) : OneLine t.text := by
  have hcolon : OneLine (str ":") := by decide
  have hopen : OneLine (str "[") := by decide
  have hclose : OneLine (str "]") := by decide
  exact ((((((hopen.append (oneLine_twoDigits _)).append hcolon).append
    (oneLine_twoDigits _)).append hcolon).append (oneLine_twoDigits _))).append hclose

theorem oneLine_utcTime (t : UtcTime) : OneLine t.text := by
  have hdash : OneLine (str "-") := by decide
  have hspace : OneLine (str " ") := by decide
  have hcolon : OneLine (str ":") := by decide
  exact (((((((((((oneLine_twoDigits _).append (oneLine_twoDigits _)).append hdash).append
    (oneLine_twoDigits _)).append hdash).append (oneLine_twoDigits _)).append hspace).append
      (oneLine_twoDigits _)).append hcolon).append (oneLine_twoDigits _)).append hcolon).append
        (oneLine_twoDigits _)

theorem isLine_errorText {text : String} (h : OneLine (str text)) : IsLine (errorText text) :=
  isLine_of_oneLine ((show OneLine (str "ERROR: ") by decide).append h)

theorem isLine_systemText {timestamp text : Bytes} (ht : OneLine timestamp) (h : OneLine text) :
    IsLine (systemText timestamp text) :=
  isLine_of_oneLine ((ht.append (by decide)).append h)

theorem isHistoryLine_chatText (t : LocalTm) {name content : Bytes} (hn : OneLine name)
    (hc : OneLine content) : IsHistoryLine (chatText t.text name content) := by
  refine ⟨twoDigits t.hour ++ str ":" ++ twoDigits t.min ++ str ":" ++ twoDigits t.sec ++ str "]" ++
    str " " ++ name ++ str ": " ++ content, ?_, ?_⟩
  · simp only [chatText, LocalTm.text, List.append_assoc]
    rfl
  · have hcolon : OneLine (str ":") := by decide
    have htime := (((((oneLine_twoDigits t.hour).append hcolon).append
      (oneLine_twoDigits t.min)).append hcolon).append (oneLine_twoDigits t.sec)).append
        (show OneLine (str "]") by decide)
    exact (((htime.append (by decide)).append hn).append (by decide)).append hc

theorem IsHistoryLine.isLine {text : Bytes} (h : IsHistoryLine text) : IsLine text := by
  obtain ⟨body, rfl, hb⟩ := h
  exact ⟨_, rfl, (show OneLine (str "[") by decide).append hb⟩

theorem isHistoryLine_historyLine {row : MessageRow} (h : row.Lined) :
    IsHistoryLine (Database.historyLine row) := by
  refine ⟨row.timestamp ++ str "] " ++ row.senderUsername ++ str ": " ++ row.content, ?_, ?_⟩
  · simp only [Database.historyLine, List.append_assoc]
    rfl
  · exact (((h.timestamp.append (by decide)).append h.senderUsername).append (by decide)).append
      h.content

/-! ## Blocks -/

/-- A block that keeps the globals lined, with values that satisfy `K`. -/
def KeepsLines {α : Type} (b : Sect α) (K : α → Prop) : Prop :=
  ∀ e s, Lined s → b.post e s fun a s' => Writes s s' ∧ K a

/-- A program all of whose actions keep the globals lined, with results that satisfy `K`. -/
def WritesLines {α : Type} (p : Thread α) (K : α → Prop) : Prop := p.Guar Lined Writes K

/-- Nothing is asked of a value. -/
def AnyValue {α : Type} : α → Prop := fun _ => True

section Rules

variable {α β : Type} {K K' : α → Prop} {L : β → Prop}

theorem keepsLines_pure {a : α} (h : K a) : KeepsLines (pure a) K :=
  fun _ _ hs => ⟨.of_net hs rfl, h⟩

theorem keepsLines_bind {b : Sect α} {f : α → Sect β} (hb : KeepsLines b K)
    (hf : ∀ a, K a → KeepsLines (f a) L) : KeepsLines (b >>= f) L := by
  intro e s hs
  rw [Block.post_bind]
  refine Block.post_mono (hb e s hs) fun a s' h => ?_
  exact Block.post_mono (hf a h.2 e s' h.1.lined) fun _ _ h' => ⟨h.1.trans h'.1, h'.2⟩

theorem keepsLines_ite {c : Prop} [Decidable c] {b b' : Sect α} (hb : KeepsLines b K)
    (hb' : KeepsLines b' K) : KeepsLines (if c then b else b') K := by
  split
  · exact hb
  · exact hb'

/-- A branch that binds its value to the rest of the block. -/
theorem keepsLines_branch {c : Prop} [Decidable c] {b b' : Sect α} {f : α → Sect β}
    (hb : KeepsLines b K) (hb' : KeepsLines b' K) (hf : ∀ a, K a → KeepsLines (f a) L) :
    KeepsLines (if c then b >>= f else b' >>= f) L :=
  keepsLines_ite (keepsLines_bind hb hf) (keepsLines_bind hb' hf)

theorem writesLines_step {b : Sect α} (hb : KeepsLines b K) : WritesLines (step b) K := by
  rw [WritesLines, step, Prog.guar_block]
  exact hb

theorem writesLines_critical {m : Mutex} {b : Sect α} (hb : KeepsLines b K) :
    WritesLines (critical m b) K := (Prog.guar_holding m _).2 (writesLines_step hb)

theorem writesLines_holding {m : Mutex} {p : Thread α} (hp : WritesLines p K) :
    WritesLines (Prog.holding m p) K := (Prog.guar_holding m p).2 hp

theorem writesLines_seq {p : Thread α} {f : α → Thread β} (hp : WritesLines p K)
    (hf : ∀ a, K a → WritesLines (f a) L) : WritesLines (p >>= f) L := Prog.guar_seq hp hf

theorem writesLines_ite {c : Prop} [Decidable c] {p p' : Thread α} (hp : WritesLines p K)
    (hp' : WritesLines p' K) : WritesLines (if c then p else p') K := by
  split
  · exact hp
  · exact hp'

end Rules

/-! ## The statements of the handlers -/

theorem Lined.info {s : Globals} (hs : Lined s) (sock : SOCKET) : (s.info sock).Lined := by
  rw [Globals.info]
  cases h : s.clients[sock]? with
  | none => exact ⟨oneLine_nil, oneLine_nil⟩
  | some c => exact hs.clients sock c h

theorem Lined.setInfo {s : Globals} (hs : Lined s) (sock : SOCKET) {f : ClientInfo → ClientInfo}
    (hf : ∀ c : ClientInfo, c.Lined → (f c).Lined) : Lined (s.setInfo sock f) := by
  refine ⟨fun t c hc => ?_, hs.rooms, hs.queue, hs.database, hs.net⟩
  rw [Globals.setInfo, Std.ExtTreeMap.getElem?_insert] at hc
  split at hc
  · rw [Option.some.injEq] at hc
    rw [← hc]
    exact hf _ (hs.info sock)
  · exact hs.clients t c hc

theorem Lined.editRoom {s : Globals} (hs : Lined s) (q : Bytes) {f : ChatRoom → ChatRoom}
    (hf : ∀ room : ChatRoom, room.Lined → (f room).Lined) : Lined (s.editRoom q f) := by
  refine ⟨hs.clients, fun r room hr => ?_, hs.queue, hs.database, hs.net⟩
  rw [Globals.editRoom, Std.ExtTreeMap.getElem?_modify] at hr
  split at hr
  · rename_i hq
    obtain ⟨room₀, h₀, rfl⟩ := Option.map_eq_some_iff.1 hr
    rw [Std.LawfulEqCmp.compare_eq_iff_eq] at hq
    subst hq
    obtain ⟨hid, hroom⟩ := hs.rooms _ room₀ h₀
    exact ⟨hid, hf room₀ hroom⟩
  · exact hs.rooms r room hr

theorem Lined.append_net {s : Globals} (hs : Lined s) {ops : List NetOp}
    (h : ∀ op ∈ ops, op.Lined) : Writes s { s with net := s.net ++ ops } := by
  refine ⟨⟨hs.clients, hs.rooms, hs.queue, hs.database, fun op hop => ?_⟩, List.prefix_append _ _⟩
  rcases List.mem_append.1 hop with hop | hop
  · exact hs.net op hop
  · exact h op hop

theorem Lined.sendAll {s : Globals} (hs : Lined s) (socks : List SOCKET) {text : Bytes}
    (h : IsLine text) : Writes s (s.sendAll socks text) :=
  hs.append_net fun op hop => by
    obtain ⟨t, -, rfl⟩ := List.mem_map.1 hop
    exact h

section Statements

variable (sock : SOCKET) (roomId : Bytes)

theorem keepsLines_read {α : Type} (f : Env → Globals → α) : KeepsLines (.read f) AnyValue :=
  fun _ _ hs => ⟨.of_net hs rfl, trivial⟩

theorem keepsLines_send {text : Bytes} (h : IsLine text) :
    KeepsLines (sendToClient sock text) AnyValue :=
  fun _ _ hs => ⟨hs.append_net fun _ hop => List.mem_singleton.1 hop ▸ h, trivial⟩

theorem keepsLines_timestamp (k : Nat) : KeepsLines (getCurrentTimestamp k) OneLine :=
  fun _ _ hs => ⟨.of_net hs rfl, oneLine_localTm _⟩

theorem keepsLines_clientInfo : KeepsLines (clientInfo sock) ClientInfo.Lined :=
  fun _ _ hs => ⟨.of_net hs rfl, hs.info sock⟩

theorem keepsLines_clientRef : KeepsLines (clientRef sock) ClientInfo.Lined :=
  fun _ _ hs => ⟨.of_net (hs.setInfo sock fun _ hc => hc) rfl, hs.info sock⟩

theorem keepsLines_setClientInfo {f : ClientInfo → ClientInfo}
    (hf : ∀ c : ClientInfo, c.Lined → (f c).Lined) : KeepsLines (setClientInfo sock f) AnyValue :=
  fun _ _ hs => ⟨.of_net (hs.setInfo sock hf) rfl, trivial⟩

theorem keepsLines_roomExists : KeepsLines (roomExists roomId) AnyValue := keepsLines_read _

theorem keepsLines_askRoom {α : Type} [Inhabited α] {f : ChatRoom → α} {K : α → Prop}
    (h : ∀ room : ChatRoom, room.Lined → K (f room)) (hd : K default) :
    KeepsLines (askRoom roomId f) K := by
  intro e s hs
  rw [post_askRoom]
  refine ⟨.of_net hs rfl, ?_⟩
  cases hr : s.chatRooms[roomId]? with
  | none => exact hd
  | some room => exact h room (hs.rooms _ room hr).2

theorem keepsLines_ask {α : Type} [Inhabited α] (f : ChatRoom → α) :
    KeepsLines (askRoom roomId f) AnyValue :=
  keepsLines_askRoom roomId (fun _ _ => trivial) trivial

theorem keepsLines_tellRoom {f : ChatRoom → ChatRoom}
    (hf : ∀ room : ChatRoom, room.Lined → (f room).Lined) :
    KeepsLines (tellRoom roomId f) AnyValue :=
  fun _ _ hs => ⟨.of_net (hs.editRoom roomId hf) rfl, trivial⟩

theorem keepsLines_addClient : KeepsLines (addClient roomId sock) AnyValue :=
  fun _ _ hs => ⟨.of_net (hs.editRoom roomId fun _ h => ⟨h.password, h.history⟩) rfl, trivial⟩

theorem keepsLines_longestMember : KeepsLines (longestMember roomId) AnyValue :=
  fun _ _ hs => ⟨.of_net hs rfl, trivial⟩

theorem keepsLines_broadcast {text : Bytes} (h : IsLine text) :
    KeepsLines (broadcast roomId text sock) AnyValue := fun _ _ hs => ⟨hs.sendAll _ h, trivial⟩

theorem keepsLines_broadcastToAll {text : Bytes} (h : IsLine text) :
    KeepsLines (broadcastToAll roomId text) AnyValue := fun _ _ hs => ⟨hs.sendAll _ h, trivial⟩

theorem keepsLines_spawnCleanup : KeepsLines (spawnCleanup roomId) AnyValue :=
  fun _ _ hs => ⟨.of_net ⟨hs.clients, hs.rooms, hs.queue, hs.database, hs.net⟩ rfl, trivial⟩

theorem keepsLines_askDatabase {α : Type} (k : Nat) (f : Env → (Nat → Bool) → Database → α) :
    KeepsLines (askDatabase k f) AnyValue :=
  fun _ _ hs => ⟨.of_net hs rfl, trivial⟩

/-- An operation of the database that stores no new message. -/
theorem keepsLines_tellDatabase {k : Nat} {f : Env → (Nat → Bool) → Database → Database}
    (h : ∀ e calls db, ∀ row ∈ (f e calls db).messages, row ∈ db.messages) :
    KeepsLines (tellDatabase k f) AnyValue :=
  fun _ _ hs => ⟨.of_net ⟨hs.clients, hs.rooms, hs.queue,
    fun row hr => hs.database row (h _ _ _ row hr), hs.net⟩ rfl, trivial⟩

end Statements

end TerminalChat.Server
