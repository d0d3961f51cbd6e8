import Mathlib
import TerminalChat.Client.Input
import TerminalChat.Server.Creation

/-!
# Two readers of one command line

The client checks a line before it sends it, and the server reads it again. The client compares
upper-cased copies of the command word and of the type in CREATE, the server the words themselves.
The two give a line the same meaning exactly when the words that matter are typed in capitals
(`same_meaning_iff`).
-/

set_option autoImplicit false

namespace TerminalChat.System

open TerminalChat.Concurrency TerminalChat.Text TerminalChat.Server TerminalChat.Client

/-- Handling the message makes a room with this privacy and this password, under the drawn id. -/
def Creates (message : Bytes) (isPrivate : Bool) (password : Bytes) : Prop :=
  ∀ (s : Globals) (sock : SOCKET) (es : Nat → Env), ∃ room : ChatRoom,
    ((handleClientMessage sock message).run es s).2.chatRooms[roomIdOf (es 0).draw]? = some room ∧
      room.isPrivate = isPrivate ∧ room.password = password

/-- The server reads the message as what the client has validated. -/
def SameMeaning (message : Bytes) : Validated → Prop
  | .privateMessage recipientName => recipientName ≠ [] ∧ ∃ content, content ≠ [] ∧
      parseText message = .privateMessage recipientName content
  | .createPublic => Creates message false []
  | .createPrivate password => Creates message true password
  | .join roomId => ∃ params, parseText message = .command (.join params) ∧
      (joinParams params).1 = roomId
  | .leave => parseText message = .command .leave
  | .forceLeave => parseText message = .command .forceLeave
  | .kick targetUser => ∃ params, parseText message = .command (.kick params) ∧
      trim params = targetUser
  | .ban targetUser => ∃ params, parseText message = .command (.ban params) ∧
      trim params = targetUser
  | .transfer targetUser => ∃ params, parseText message = .command (.transfer params) ∧
      trim params = targetUser
  | .changePassword newPass => ∃ params, parseText message = .command (.changePassword params) ∧
      trim params = newPass
  | .list => parseText message = .command .list
  | .users => parseText message = .command .users
  | .getPassword => parseText message = .command .getPassword
  | .chat => parseText message = .chat message

/-- The command word is in capitals, and so is the type of a CREATE that asks for a private room. -/
def InCapitals (message : Bytes) : Prop :=
  startsWith (str "/") message = true →
    upper (word (message.drop 1)) = word (message.drop 1) ∧
    (word (message.drop 1) = str "CREATE" →
      upper (word (afterWord (message.drop 1))) = str "PRIVATE" →
        word (afterWord (message.drop 1)) = str "PRIVATE")

/-! ## What the server reads -/

/-- The command of the server with the same word. -/
def serverCommand (params : Bytes) : ClientCommand → Command
  | .create => .create params
  | .join => .join params
  | .leave => .leave
  | .kick => .kick params
  | .ban => .ban params
  | .transfer => .transfer params
  | .changePassword => .changePassword params
  | .help => .unknown
  | .list => .list
  | .users => .users
  | .getPassword => .getPassword

/-- A command word in capitals is read as what it is. -/
theorem parseCommand_of_word {command : Bytes} {c : ClientCommand} (h : word command = c.name) :
    parseCommand command = serverCommand (getline (afterWord command)) c := by
  unfold parseCommand
  rw [h]
  cases c <;> rfl

/-- A command word that is not in capitals is unknown. -/
theorem parseCommand_of_not_upper {command : Bytes} (h : upper (word command) ≠ word command) :
    parseCommand command = .unknown := by
  have hne : ∀ K, upper K = K → word command ≠ K := by
    rintro K hK hw
    rw [hw] at h
    exact h hK
  unfold parseCommand
  simp only [hne (str "CREATE") (by decide), hne (str "JOIN") (by decide),
    hne (str "SETNAME") (by decide), hne (str "LIST") (by decide),
    hne (str "GETPASSWORD") (by decide), hne (str "USERS") (by decide),
    hne (str "KICK") (by decide), hne (str "BAN") (by decide), hne (str "TRANSFER") (by decide),
    hne (str "LEAVE") (by decide), hne (str "FORCELEAVE") (by decide),
    hne (str "CHANGEPASSWORD") (by decide), if_false]

/-- A message that starts with `@` is read as the same private message; what follows the name is not
empty because the line is trimmed. -/
theorem parseText_privateMessage {message : Bytes} (ht : Trimmed message) (hne : message ≠ [])
    (hat : startsWith (str "@") message = true) {p : Nat} (hp : message.idxOf? space = some p)
    (hp1 : p ≠ 1) (hname : trim ((message.drop 1).take (p - 1)) ≠ []) :
    ∃ content, content ≠ [] ∧ parseText message =
      .privateMessage (trim ((message.drop 1).take (p - 1))) content := by
  have hslash := not_slash_of_at hat
  have hlast : isBlank (message.getLast hne) = false := by
    have h := last_trim (s := message) (by rwa [show trim message = message from ht])
    simpa only [show trim message = message from ht] using h
  have hcontent : trim (message.drop (p + 1)) ≠ [] := by
    obtain ⟨hlt, hspace, -⟩ := List.idxOf?_eq_some_iff.1 hp
    have hshort : p + 1 < message.length := by
      by_contra hlong
      have hend : message.length - 1 = p := by omega
      rw [List.getLast_eq_getElem] at hlast
      simp only [hend, hspace] at hlast
      exact absurd hlast (by decide)
    have hrest : message.drop (p + 1) ≠ [] := by simpa using hshort
    have hmem := List.getLast_mem hrest
    rw [List.getLast_drop] at hmem
    exact trim_ne_nil hmem hlast
  refine ⟨trim (message.drop (p + 1)), hcontent, ?_⟩
  rw [← List.isEmpty_eq_false_iff] at hname hcontent
  simp only [parseText, hslash, hat, parsePrivateMessage, hp, hp1, hname, hcontent]
  rfl

/-- A message that makes a room makes the room that the server reads in it. -/
theorem creates_iff {message params : Bytes} (ht : Trimmed message) (hne : message ≠ [])
    (hp : parseText message = .command (.create params))
    (hok : ((createParams params).1 && (createParams params).2.isEmpty) = false)
    (isPrivate : Bool) (password : Bytes) :
    Creates message isPrivate password ↔ createParams params = (isPrivate, password) := by
  have hacted : actedText message = some message := by
    simp [actedText, show trim message = message from ht, hne]
  have hrun : ∀ sock, handleClientMessage sock message = handleCreateCommand sock params := by
    intro sock
    rw [handleClientMessage, hacted]
    show runRequest sock (parseText message) = _
    rw [hp]
    rfl
  constructor
  · intro h
    obtain ⟨room, hroom, hprivate, hpassword⟩ := h {} 0 fun _ => .midnight 0
    rw [hrun] at hroom
    have hc : Created {} 0 _ _ _ := created_of_run hok fun _ => .midnight 0
    obtain ⟨now, hnew⟩ := hc.room
    rw [hnew, Option.some.injEq] at hroom
    rw [← hprivate, ← hpassword, ← hroom]
    rfl
  · intro h s sock es
    have hc : Created s sock _ _ _ := created_of_run hok es
    obtain ⟨now, hnew⟩ := hc.room
    rw [hrun]
    exact ⟨_, hnew, congrArg Prod.fst h, congrArg Prod.snd h⟩

/-! ## Agreement -/

section Agreement

variable {state : ClientState} {message m : Bytes} {v : Validated} {c : ClientCommand}

theorem inCapitals_of_not_slash (h : startsWith (str "/") message = false) : InCapitals message := by
  intro h'
  rw [h] at h'
  exact absurd h' (by simp)

/-- A command word in capitals is all that commands other than CREATE need. -/
theorem inCapitals_of_word (hword : word (message.drop 1) = c.name) (hc : c ≠ .create) :
    InCapitals message := by
  refine fun _ => ⟨?_, fun hcreate => ?_⟩
  · rw [hword]
    cases c <;> decide
  · rw [hword] at hcreate
    cases c with
    | create => exact absurd rfl hc
    | _ => exact absurd hcreate (by decide)

theorem inCapitals_create_iff (hslash : startsWith (str "/") message = true)
    (hword : word (message.drop 1) = str "CREATE") : InCapitals message ↔
      (upper (word (afterWord (message.drop 1))) = str "PRIVATE" →
        word (afterWord (message.drop 1)) = str "PRIVATE") := by
  have hup : upper (str "CREATE") = str "CREATE" := by decide
  simp only [InCapitals, hslash, hword, hup, true_and, forall_true_left]

/-- CREATE with its command word in capitals. -/
theorem create_agrees_iff (ht : Trimmed message) (hne : message ≠ [])
    (hslash : startsWith (str "/") message = true)
    (hword : word (message.drop 1) = str "CREATE")
    (hparse : parseText message = .command (.create (afterWord (message.drop 1))))
    (hone : OneLine (afterWord (message.drop 1)))
    (h : (createInput state message (afterWord (message.drop 1))).sent = some (m, v)) :
    m = message ∧ (SameMeaning message v ↔ InCapitals message) := by
  obtain ⟨rfl, hcase⟩ := sent_createInput h
  refine ⟨rfl, ?_⟩
  rw [inCapitals_create_iff hslash hword]
  generalize hrest : afterWord (m.drop 1) = rest at *
  have hpublic : word rest ≠ str "PRIVATE" → createParams rest = (false, []) := by
    intro hne
    simp [createParams, hne]
  have hprivate : word rest = str "PRIVATE" →
      createParams rest = (true, trim (getline (afterWord rest))) := by
    intro he
    simp [createParams, he]
  rcases hcase with ⟨htype, rfl⟩ | ⟨htype, hpw, rfl⟩
  · have hw : word rest ≠ str "PRIVATE" := by
      intro he
      rw [he] at htype
      exact absurd htype (by decide)
    have hok : createParams rest = (false, []) := hpublic hw
    refine iff_of_true ((creates_iff ht hne hparse (by rw [hok]; rfl) _ _).2 hok) fun he => ?_
    rw [htype] at he
    exact absurd he (by decide)
  · by_cases hw : word rest = str "PRIVATE"
    · have hok := hprivate hw
      refine iff_of_true ((creates_iff ht hne hparse ?_ _ _).2 hok) fun _ => hw
      simpa [hok] using hpw
    · have hok := hpublic hw
      refine iff_of_false (fun hc => ?_) fun himp => hw (himp htype)
      have := (creates_iff ht hne hparse (by rw [hok]; rfl) _ _).1 hc
      rw [hok] at this
      exact absurd (congrArg Prod.fst this) (by simp)

/-- FORCELEAVE, which the client writes itself. -/
theorem forceLeave_agrees : (parseText (str "/FORCELEAVE") ≠ .command .unknown ∧
    SameMeaning (str "/FORCELEAVE") .forceLeave) ↔ InCapitals (str "/FORCELEAVE") := by
  have hforce : parseText (str "/FORCELEAVE") = .command .forceLeave := by decide
  refine iff_of_true ⟨by rw [hforce]; simp, hforce⟩ fun _ => ⟨by decide, fun he => ?_⟩
  exact absurd he (by decide)

/-- A command with its command word in capitals. -/
theorem command_agrees_iff (ht : Trimmed message) (hone : OneLine message)
    (hslash : startsWith (str "/") message = true) (hword : word (message.drop 1) = c.name)
    (h : (runClientCommand state message (afterWord (message.drop 1)) c).sent = some (m, v)) :
    (parseText m ≠ .command .unknown ∧ SameMeaning m v) ↔ InCapitals m := by
  have hne : message ≠ [] := by
    rintro rfl
    exact absurd hslash (by decide)
  have hrest : OneLine (afterWord (message.drop 1)) :=
    hone.sublist ((afterWord_sublist _).trans (List.drop_sublist 1 message))
  have hparse : parseText message =
      .command (serverCommand (afterWord (message.drop 1)) c) := by
    rw [parseText, if_pos hslash, parseCommand_of_word hword, getline_of_oneLine hrest]
  have hgetline := getline_of_oneLine hrest
  cases c with
  | create =>
      -- the client upper-cases the type, the server does not
      obtain ⟨rfl, hiff⟩ := create_agrees_iff ht hne hslash hword hparse hrest h
      rw [← hiff]
      exact and_iff_right (by rw [hparse]; simp [serverCommand])
  | join =>
      obtain ⟨rfl, rfl⟩ := sent_joinInput h
      refine iff_of_true ⟨by rw [hparse]; simp [serverCommand], _, hparse, ?_⟩
        (inCapitals_of_word hword (by decide))
      exact trimmed_word _
  | leave =>
      -- a warned owner sends FORCELEAVE instead
      rcases sent_leaveInput h with ⟨rfl, rfl⟩ | ⟨rfl, rfl⟩
      · exact iff_of_true ⟨by rw [hparse]; simp [serverCommand], hparse⟩
          (inCapitals_of_word hword (by decide))
      · exact forceLeave_agrees
  | help => exact absurd h sent_skip
  | list =>
      obtain ⟨rfl, rfl⟩ := sent_transmit.1 h
      exact iff_of_true ⟨by rw [hparse]; simp [serverCommand], hparse⟩
        (inCapitals_of_word hword (by decide))
  | users =>
      obtain ⟨rfl, rfl⟩ := sent_transmit.1 h
      exact iff_of_true ⟨by rw [hparse]; simp [serverCommand], hparse⟩
        (inCapitals_of_word hword (by decide))
  | getPassword =>
      obtain ⟨rfl, rfl⟩ := sent_transmit.1 h
      exact iff_of_true ⟨by rw [hparse]; simp [serverCommand], hparse⟩
        (inCapitals_of_word hword (by decide))
  | kick =>
      obtain ⟨rfl, rfl⟩ := sent_ownerInput h
      exact iff_of_true ⟨by rw [hparse]; simp [serverCommand], _, hparse, by rw [hgetline]⟩
        (inCapitals_of_word hword (by decide))
  | ban =>
      obtain ⟨rfl, rfl⟩ := sent_ownerInput h
      exact iff_of_true ⟨by rw [hparse]; simp [serverCommand], _, hparse, by rw [hgetline]⟩
        (inCapitals_of_word hword (by decide))
  | transfer =>
      obtain ⟨rfl, rfl⟩ := sent_ownerInput h
      exact iff_of_true ⟨by rw [hparse]; simp [serverCommand], _, hparse, by rw [hgetline]⟩
        (inCapitals_of_word hword (by decide))
  | changePassword =>
      obtain ⟨rfl, rfl⟩ := sent_ownerInput h
      exact iff_of_true ⟨by rw [hparse]; simp [serverCommand], _, hparse, by rw [hgetline]⟩
        (inCapitals_of_word hword (by decide))

end Agreement

/-- When client and server agree on a line that the client sends. -/
theorem same_meaning_iff (state : ClientState) (line m : Bytes) (v : Validated)
    (hone : OneLine line) (h : (handleInput state line).sent = some (m, v)) :
    (parseText m ≠ .command .unknown ∧ SameMeaning m v) ↔ InCapitals m := by
  obtain ⟨hne, hcase⟩ := sent_handleInput h
  have ht := trimmed_trim line
  rcases hcase with ⟨hat, h⟩ | ⟨-, hslash, c, hc, h⟩ | ⟨hat, hslash, rfl, rfl⟩
  · obtain ⟨rfl, p, hp, hp1, hname, rfl⟩ := sent_privateInput h
    obtain ⟨content, hcontent, hparse⟩ := parseText_privateMessage ht hne hat hp hp1 hname
    refine iff_of_true ⟨?_, hname, content, hcontent, hparse⟩
      (inCapitals_of_not_slash (not_slash_of_at hat))
    rw [hparse]
    simp
  · have hupper := name_of_clientCommandOf hc
    by_cases hword : upper (word ((trim line).drop 1)) = word ((trim line).drop 1)
    · exact command_agrees_iff ht hone.trim hslash (hword.symm.trans hupper.symm) h
    · rcases sent_runClientCommand h with rfl | ⟨rfl, rfl⟩
      · have hparse : parseText (trim line) = .command .unknown := by
          rw [parseText, if_pos hslash, parseCommand_of_not_upper hword]
        exact iff_of_false (fun hc => hc.1 hparse) fun hcap => hword (hcap hslash).1
      · exact forceLeave_agrees
  · have hparse : parseText (trim line) = .chat (trim line) := by
      simp [parseText, hat, hslash]
    refine iff_of_true ⟨?_, hparse⟩ (inCapitals_of_not_slash hslash)
    rw [hparse]
    simp

theorem same_meaning_iff_private :
    parseText (str "/CREATE PRIVATE key") ≠ .command .unknown ∧
      SameMeaning (str "/CREATE PRIVATE key") (.createPrivate (str "key")) :=
  (same_meaning_iff {} (str "/CREATE PRIVATE key ") _ _ (by decide) (by decide +kernel)).2
    fun _ => ⟨by decide +kernel, fun _ _ => by decide +kernel⟩

/-- A room that the user asked to be private becomes a public one. -/
theorem not_same_meaning : ¬∀ (state : ClientState) (line m : Bytes) (v : Validated), OneLine line →
    (handleInput state line).sent = some (m, v) →
      parseText m ≠ .command .unknown ∧ SameMeaning m v := by
  intro h
  obtain ⟨-, hcreates⟩ := h {} (str "/CREATE private key") (str "/CREATE private key")
    (.createPrivate (str "key")) (by decide) (by decide +kernel)
  have hparse : parseText (str "/CREATE private key") =
      .command (.create (str " private key")) := by decide +kernel
  have hok := (creates_iff (by decide +kernel) (by decide) hparse (by decide +kernel) _ _).1 hcreates
  exact absurd hok (by decide +kernel)

end TerminalChat.System
