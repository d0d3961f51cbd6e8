import Mathlib
import TerminalChat.Client.Receiving
import TerminalChat.Server.LineKeeping
import TerminalChat.Server.Records

/-!
# What clients decode of messages

The lines that the server builds for messages start with a bracket, so a client decodes them as chat
(`private_line_never_shown`). The content of a message may have a newline inside, and what stands behind
it is a line of its own (`message_read_as_one_line_iff`).
-/

set_option autoImplicit false

namespace TerminalChat.System

open TerminalChat.Concurrency TerminalChat.Text TerminalChat.Server TerminalChat.Client

/-! ## The lines for messages -/

/-- A text that starts with a bracket and ends with the content and a newline; what stands before the
content is on one line. -/
def Carries (text content : Bytes) : Prop :=
  ∃ p, OneLine p ∧ text = str "[" ++ p ++ content ++ [newline]

theorem carries_chatText (t : LocalTm) {name : Bytes} (hn : OneLine name) (content : Bytes) :
    Carries (chatText t.text name content) content := by
  refine ⟨twoDigits t.hour ++ str ":" ++ twoDigits t.min ++ str ":" ++ twoDigits t.sec ++ str "]" ++
    str " " ++ name ++ str ": ", ?_, ?_⟩
  · have hcolon : OneLine (str ":") := by decide
    have htime := (((((oneLine_twoDigits t.hour).append hcolon).append
      (oneLine_twoDigits t.min)).append hcolon).append (oneLine_twoDigits t.sec)).append
        (show OneLine (str "]") by decide)
    exact ((htime.append (by decide)).append hn).append (by decide)
  · simp only [chatText, LocalTm.text, List.append_assoc]
    rfl

theorem carries_privateText (t : LocalTm) {tag : String} (htag : OneLine (str tag)) {name : Bytes}
    (hn : OneLine name) (content : Bytes) : Carries (privateText t.text tag name content) content := by
  refine ⟨twoDigits t.hour ++ str ":" ++ twoDigits t.min ++ str ":" ++ twoDigits t.sec ++ str "]" ++
    str " " ++ str tag ++ name ++ str ":", ?_, ?_⟩
  · have hcolon : OneLine (str ":") := by decide
    have htime := (((((oneLine_twoDigits t.hour).append hcolon).append
      (oneLine_twoDigits t.min)).append hcolon).append (oneLine_twoDigits t.sec)).append
        (show OneLine (str "]") by decide)
    exact (((htime.append (by decide)).append htag).append hn).append hcolon
  · simp only [privateText, LocalTm.text, List.append_assoc]
    rfl

theorem carries_historyLine (row : MessageRow) (hn : OneLine row.senderUsername)
    (ht : OneLine row.timestamp) : Carries (Database.historyLine row) row.content := by
  refine ⟨row.timestamp ++ str "] " ++ row.senderUsername ++ str ": ",
    ((ht.append (by decide)).append hn).append (by decide), ?_⟩
  simp only [Database.historyLine, List.append_assoc]
  rfl

/-- Such a text is one line of chat exactly when nothing but blanks follows the first newline of its
content. -/
theorem Carries.readAsOne_iff {text content : Bytes} (h : Carries text content) :
    ReadAsOne .chat text ↔ OneLine (content.rdropWhile isBlank) := by
  obtain ⟨p, hp, rfl⟩ := h
  have hkind : responseOf (str "[") = .chat := by decide
  have hidle : (responseOf (str "[")).Idle := by
    rw [hkind]
    exact fun _ _ => rfl
  have hread := readAsOne_start (str "[") content (by decide) (by decide)
    (by decide) (by decide) hidle hp
  rw [hkind] at hread
  exact hread

/-! ## Private messages -/

/-- The line of a private message is never decoded as one: it starts with the time of day. -/
theorem shownPrivate_of_carries {text content : Bytes} (h : Carries text content)
    (hc : OneLine content) : shownPrivate text = [] := by
  obtain ⟨p, hp, rfl⟩ := h
  have hline : newline ∉ str "[" ++ p ++ content :=
    ((show OneLine (str "[") by decide).append hp).append hc
  have hkind : responseOf (str "[") = .chat := by decide
  have hnone : privateLine (str "[" ++ p ++ content) = none := by
    rw [List.append_assoc]
    unfold privateLine
    dsimp only
    rw [trim_append (by decide) (by decide), responseOf_append (by decide), hkind]
  rw [shownPrivate, messagesOf_closed hline, List.filterMap_cons, hnone]
  rfl

theorem private_line_never_shown (now : LocalTm) {sender recipient content : Bytes}
    (hs : NameOk sender) (hr : NameOk recipient) (hc : OneLine content) :
    shownPrivate (privateText now.text "PM_FROM:" sender content) ≠ [.received sender content] ∧
      shownPrivate (privateText now.text "PM_SENT:" recipient content) ≠
        [.sent recipient content] := by
  constructor
  · rw [shownPrivate_of_carries (carries_privateText now (by decide) hs.oneLine content) hc]
    exact List.cons_ne_nil _ _ ∘ Eq.symm
  · rw [shownPrivate_of_carries (carries_privateText now (by decide) hr.oneLine content) hc]
    exact List.cons_ne_nil _ _ ∘ Eq.symm

theorem alice_sees_no_private_line : shownPrivate (privateText (LocalTm.text ⟨0, 0, 0⟩) "PM_FROM:"
    (str "alice") (str "hi")) ≠ [.received (str "alice") (str "hi")] := by decide

theorem private_line_never_shown_alice :
    shownPrivate (privateText (LocalTm.text ⟨0, 0, 0⟩) "PM_FROM:" (str "alice") (str "hi")) ≠
      [.received (str "alice") (str "hi")] ∧
    shownPrivate (privateText (LocalTm.text ⟨0, 0, 0⟩) "PM_SENT:" (str "bob") (str "hi")) ≠
      [.sent (str "bob") (str "hi")] :=
  private_line_never_shown ⟨0, 0, 0⟩ ⟨by decide, by decide⟩ ⟨by decide, by decide⟩ (by decide)

/-! ## One line for one message -/

section Runs

variable {ok : Machine → Label → Prop} {db : Database} {listenSocket : SOCKET} {m : Machine}
  {w : Watch}

theorem carries_publicOps {message : Message} (hm : message.Accepted) {now : LocalTm}
    {members : List SOCKET} {t : SOCKET} {text : Bytes}
    (h : .sent t text ∈ publicOps message now members) : Carries text message.content := by
  rw [publicOps, List.mem_map] at h
  obtain ⟨sock, -, hop⟩ := h
  rw [NetOp.sent.injEq] at hop
  rw [← hop.2]
  exact carries_chatText now hm.named.oneLine message.content

/-- The recipient was found, so its name is one that SETNAME can have set. -/
theorem carries_privateOps {message : Message} (hm : message.Accepted) {now : LocalTm}
    {recipientSocket : SOCKET} {recipient : ClientInfo}
    (hr : LookedUp message recipientSocket recipient) (hne : recipientSocket ≠ INVALID_SOCKET)
    {t : SOCKET} {text : Bytes} (h : .sent t text ∈ privateOps message now recipientSocket) :
    Carries text message.content := by
  have hname : OneLine message.recipientName := by
    rw [← hr.name hne]
    exact hr.named.oneLine
  rw [privateOps, if_neg hne, List.mem_cons, List.mem_singleton, NetOp.sent.injEq,
    NetOp.sent.injEq] at h
  rcases h with ⟨-, rfl⟩ | ⟨-, rfl⟩
  · exact carries_privateText now (by decide) hm.named.oneLine message.content
  · exact carries_privateText now (by decide) hname message.content

/-- The refusal of a private message is one line exactly when the name in it is. -/
theorem readAsOne_refusal {message : Message} {now : LocalTm} {t : SOCKET} {text : Bytes}
    (h : .sent t text ∈ privateOps message now INVALID_SOCKET) :
    ReadAsOne .error text ↔ OneLine message.recipientName := by
  rw [privateOps, if_pos rfl, List.mem_singleton, NetOp.sent.injEq] at h
  have hkind : responseOf (str "ERROR:") = .error := by decide
  have hidle : (responseOf (str "ERROR:")).Idle := by
    rw [hkind]
    exact fun _ _ => rfl
  have hread := readAsOne_start (p := str " User '") (str "ERROR:")
    (message.recipientName ++ str "' not found in this room") (by decide) (by decide)
    (by decide) (by decide) hidle (by decide)
  -- the text ends in a quote and words, so nothing is trimmed from its end
  have htail : (message.recipientName ++ str "' not found in this room").rdropWhile isBlank =
      message.recipientName ++ str "' not found in this room" := by
    rw [List.rdropWhile_eq_self_iff]
    intro hne
    rw [List.getLast_append_of_ne_nil hne (by decide)]
    decide
  have hone : OneLine (message.recipientName ++ str "' not found in this room") ↔
      OneLine message.recipientName := by
    constructor
    · exact fun h => h.sublist (List.sublist_append_left _ _)
    · exact fun h => h.append (by decide)
  rw [hkind, htail, hone] at hread
  rw [h.2, ← hread]
  simp only [List.append_assoc]
  exact Iff.rfl

/-- A line of the history carries the content of its message. -/
theorem carries_recorded (hd : Deliverable m.globals w) (hdb : db.Written) {text content : Bytes}
    (h : Recorded db w.log text content) : Carries text content := by
  cases h with
  | earlier h => exact carries_historyLine _ (hdb _ h).1 (hdb _ h).2
  | @stored message stamp ops h =>
      obtain ⟨hm, -, ⟨utc, rfl⟩, -⟩ := hd.log _ h
      exact carries_historyLine (message.row utc.text) (oneLine_cString hm.named.oneLine)
        (oneLine_utcTime utc)
  | remembered now h => exact carries_chatText now (hd.log _ h).1.named.oneLine _

/-- What clients decode of a message, live and from the history, along every watched run: exactly one
line, when nothing in the message starts a line of its own. -/
theorem message_read_as_one_line_iff (h : Machine.Watched ok db listenSocket m w)
    (hdb : db.Written) :
    (∀ message stamp ops, .delivered message stamp ops ∈ w.log → ∀ t text, .sent t text ∈ ops →
      (ReadAsOne .chat text ↔ OneLine message.content)) ∧
    (∀ message recipientSocket recipient ops,
      .whispered message recipientSocket recipient ops ∈ w.log → ∀ t text, .sent t text ∈ ops →
        if recipientSocket = INVALID_SOCKET then
          (ReadAsOne .error text ↔ OneLine message.recipientName)
        else (ReadAsOne .chat text ↔ OneLine message.content)) ∧
    ∀ t text, .replayed t text ∈ m.globals.net → ∃ content, Recorded db w.log text content ∧
      (ReadAsOne .chat text ↔ OneLine (content.rdropWhile isBlank)) := by
  have hd := h.deliverable
  refine ⟨fun message stamp ops hlog t text ht => ?_,
    fun message recipientSocket recipient ops hlog t text ht => ?_, fun t text ht => ?_⟩
  · obtain ⟨hm, -, -, now, members, rfl⟩ := hd.log _ hlog
    rw [(carries_publicOps hm ht).readAsOne_iff, rdropWhile_of_trimmed hm.trimmed]
  · obtain ⟨hm, hr, now, rfl⟩ := hd.log _ hlog
    -- the sender is told that there is no such user, or both are told the message
    by_cases hne : recipientSocket = INVALID_SOCKET
    · subst hne
      rw [if_pos rfl]
      exact readAsOne_refusal ht
    · rw [if_neg hne, (carries_privateOps hm hr hne ht).readAsOne_iff,
        rdropWhile_of_trimmed hm.trimmed]
  · obtain ⟨content, hrec⟩ := h.recalled.2 t text ht
    exact ⟨content, hrec, (carries_recorded hd hdb hrec).readAsOne_iff⟩

end Runs

/-! ### A line that takes a reader out of its room -/

/-- Two clients in a room; the second sends a message with a newline. -/
def forgery : List Label :=
  Machine.serving (.connect 4) 0 ++
  Machine.serving (.receive 4 (str "/SETNAME alice")) 0 ++
  Machine.serving (.receive 4 (str "/CREATE PUBLIC")) 0 ++
  Machine.serving (.connect 5) 0 ++
  Machine.serving (.receive 5 (str "/SETNAME bob")) 0 ++
  Machine.serving (.receive 5 (str "/JOIN 100000")) 0 ++
  Machine.serving (.receive 5 (str "hi\nKICKED_FROM_ROOM")) 0 ++ Machine.delivering

/-- The message with the newline, as it is delivered. -/
def forged : Message where
  senderSocket := 5
  content := str "hi\nKICKED_FROM_ROOM"
  roomId := str "100000"
  senderName := str "bob"

/-- The line for it. -/
def forgedText : Bytes := chatText ((Env.midnight 0).wall 0).text (str "bob") forged.content

theorem forged_delivered : ∃ m w, Machine.Watched Machine.anyStep {} 3 m w ∧
    .delivered forged (UtcTime.text ⟨0, 0, 0, 0, 0, 0⟩) [.sent 4 forgedText] ∈ w.log := by
  obtain ⟨m, w, hw, hp⟩ := Machine.watched_of_play Machine.anyStep forgery
    (fun _ _ _ => trivial) (fun _ w => decide (.delivered forged (UtcTime.text ⟨0, 0, 0, 0, 0, 0⟩)
      [.sent 4 forgedText] ∈ w.log)) (by decide +kernel)
  exact ⟨m, w, hw, of_decide_eq_true hp⟩

/-- The owner of the room receives a text that makes its client leave the room. -/
theorem forged_line_takes_owner_out : (∃ m w, Machine.Watched Machine.anyStep {} 3 m w ∧
      .delivered forged (UtcTime.text ⟨0, 0, 0, 0, 0, 0⟩) [.sent 4 forgedText] ∈ w.log) ∧
    (Receiver.receive
      { state := { inRoom := true, isRoomOwner := true, currentRoomId := str "100000" } }
      forgedText).state = {} :=
  ⟨forged_delivered, by decide +kernel⟩

/-- The delivery of the forged line is one of those that the theorem speaks about. -/
theorem message_read_as_one_line_iff_forged : ∃ m w,
    Machine.Watched Machine.anyStep {} 3 m w ∧
      (ReadAsOne .chat forgedText ↔ OneLine forged.content) := by
  obtain ⟨m, w, hw, hlog⟩ := forged_delivered
  exact ⟨m, w, hw, (message_read_as_one_line_iff hw fun _ hrow => absurd hrow List.not_mem_nil).1
    forged _ _ hlog 4 forgedText (List.mem_singleton_self _)⟩

end TerminalChat.System
