import Mathlib
import TerminalChat.Client.Receiving
import TerminalChat.Server.Banishment
import TerminalChat.Server.Meanwhile

/-!
# The password gate

CREATE and CHANGEPASSWORD read a password as the trimmed rest of a line, JOIN reads its answer in the
same way, and a client reads the password of its room back from a line. What the last accepted of the
first two commands has set is what opens the room and what its owner is shown (`Machine.password_gate`).
-/

set_option autoImplicit false

namespace TerminalChat.Server

open TerminalChat.Concurrency TerminalChat.Text TerminalChat.Abstract TerminalChat.Client

/-! ## The lines -/

/-- What a client sends to join the room `r` with the text `x` behind it. -/
def joinLine (r x : Bytes) : Bytes := str "/JOIN " ++ r ++ str " " ++ x

/-- The answer to GETPASSWORD, without its newline. -/
def passwordLine (password : Bytes) : Bytes := str "ROOM_PASSWORD:" ++ password

/-- Blanks at the end make no difference to trimming. -/
theorem trim_append_blanks (s : Bytes) {b : Bytes} (hb : ∀ c ∈ b, isBlank c = true) :
    trim (s ++ b) = trim s := by
  have hend : ∀ d : Bytes, (d ++ b).rdropWhile isBlank = d.rdropWhile isBlank := by
    intro d
    rw [List.rdropWhile, List.rdropWhile, List.reverse_append, List.dropWhile_append_of_pos]
    intro c hc
    exact hb c (List.mem_reverse.1 hc)
  by_cases hs : ∀ c ∈ s, isBlank c = true
  · have h₁ : s.dropWhile isBlank = [] := List.dropWhile_eq_nil_iff.2 hs
    have h₂ : (s ++ b).dropWhile isBlank = [] := by
      rw [List.dropWhile_append_of_pos hs]
      exact List.dropWhile_eq_nil_iff.2 hb
    rw [trim, trim, h₁, h₂]
  · have hne : s.dropWhile isBlank ≠ [] := fun h => hs (List.dropWhile_eq_nil_iff.1 h)
    rw [trim, trim, List.dropWhile_append, if_neg (by simpa using hne), hend]

theorem trim_rdropWhile (s : Bytes) : trim (s.rdropWhile isBlank) = trim s := by
  conv_rhs => rw [← List.rdropWhile_append_rtakeWhile (p := isBlank) (l := s)]
  rw [trim_append_blanks]
  exact fun c hc => List.mem_rtakeWhile_imp hc

theorem trim_cons_blank {c : UInt8} (hc : isBlank c = true) (s : Bytes) : trim (c :: s) = trim s := by
  rw [trim, List.dropWhile_cons_of_pos hc, trim]

/-- A word in front of a text that is empty or starts with white space. -/
theorem word_append {w : Bytes} (hw : ∀ c ∈ w, isSpace c = false) (hne : w ≠ []) {rest : Bytes}
    (hrest : ∀ c, rest.head? = some c → isSpace c = true) :
    word (w ++ rest) = w ∧ afterWord (w ++ rest) = rest := by
  have hstart : (w ++ rest).dropWhile isSpace = w ++ rest := by
    cases w with
    | nil => exact absurd rfl hne
    | cons c w => simp [hw c List.mem_cons_self]
  have hall : ∀ c ∈ w, (!isSpace c) = true := fun c hc => by rw [hw c hc]; rfl
  constructor
  · rw [word, hstart, List.takeWhile_append_of_pos hall]
    cases rest with
    | nil => simp
    | cons c rest => simp [hrest c rfl]
  · rw [afterWord, hstart, List.dropWhile_append_of_pos hall]
    cases rest with
    | nil => simp
    | cons c rest => simp [hrest c rfl]

/-- White space in front of a word is skipped. -/
theorem word_cons {c : UInt8} (hc : isSpace c = true) (s : Bytes) :
    word (c :: s) = word s ∧ afterWord (c :: s) = afterWord s := by
  rw [word, afterWord, List.dropWhile_cons_of_pos hc]
  exact ⟨rfl, rfl⟩

section RoomIds

variable {draw : Fin 900000} {c : UInt8}

theorem isSpace_of_mem_roomIdOf (hc : c ∈ roomIdOf draw) : isSpace c = false := by
  obtain ⟨hge, -⟩ := isDigit_of_mem_decimal hc
  have h₁ : c ≠ 32 := by
    rintro rfl
    exact absurd hge (by decide)
  have h₂ : ¬c ≤ 13 := by
    intro hle
    exact absurd (UInt8.le_trans hge hle) (by decide)
  simp [isSpace, h₁, h₂]

theorem oneLine_roomIdOf (draw : Fin 900000) : OneLine (roomIdOf draw) := by
  intro hnl
  exact absurd (isSpace_of_mem_roomIdOf hnl) (by decide)

theorem trimmed_roomIdOf (draw : Fin 900000) : Trimmed (roomIdOf draw) :=
  trimmed_of_digits fun _ hc => isDigit_of_mem_decimal hc

end RoomIds

/-- The line `/JOIN r x` is handled as a JOIN of `r` with the trimmed `x`. -/
theorem command_joinLine (draw : Fin 900000) {x : Bytes} (hx : OneLine x) (sock : SOCKET) :
    ∃ params, (Event.receive sock (joinLine (roomIdOf draw) x)).command = some (.join params) ∧
      joinParams params = (roomIdOf draw, trim x) := by
  have hdigits : ∀ c ∈ roomIdOf draw, isSpace c = false := fun c hc => isSpace_of_mem_roomIdOf hc
  -- what is left of the answer when the line has been trimmed
  obtain ⟨answer, hanswer⟩ : ∃ answer, answer = (32 :: x).rdropWhile isBlank := ⟨_, rfl⟩
  have hprefix : answer <+: 32 :: x := hanswer ▸ List.rdropWhile_prefix _ _
  have hspace : ∀ c, answer.head? = some c → isSpace c = true := by
    intro c hc
    obtain ⟨t, ht⟩ := hprefix
    cases answer with
    | nil => simp at hc
    | cons d answer =>
        rw [List.head?_cons, Option.some.injEq] at hc
        rw [← hc, (List.cons.inj ht).1]
        decide
  have hone : OneLine answer := by
    apply OneLine.sublist _ hprefix.sublist
    rw [OneLine, List.mem_cons, not_or]
    exact ⟨by decide, hx⟩
  have htrim : trim (joinLine (roomIdOf draw) x) =
      47 :: (str "JOIN" ++ (32 :: (roomIdOf draw ++ answer))) := by
    have hfront : Trimmed (str "/JOIN " ++ roomIdOf draw) := by
      apply trimmed_of_ends
      · intro c hc
        rw [show str "/JOIN " = 47 :: (str "JOIN" ++ [32]) by decide, List.cons_append,
          List.head?_cons, Option.some.injEq] at hc
        rw [← hc]
        decide
      · intro c hc
        rw [List.getLast?_append_of_ne_nil _ (roomIdOf_ne_nil draw)] at hc
        exact isBlank_of_not_isSpace (isSpace_of_mem_roomIdOf (List.mem_of_mem_getLast? hc))
    have hne : str "/JOIN " ++ roomIdOf draw ≠ [] := List.append_ne_nil_of_left_ne_nil (by decide) _
    rw [joinLine, List.append_assoc _ (str " "), trim_append hfront hne,
      show str " " ++ x = 32 :: x by rw [show str " " = [32] by decide]; rfl, ← hanswer,
      show str "/JOIN " = 47 :: (str "JOIN" ++ [32]) by decide]
    simp
  have hacted : actedText (joinLine (roomIdOf draw) x) =
      some (47 :: (str "JOIN" ++ (32 :: (roomIdOf draw ++ answer)))) := by
    rw [actedText, htrim, List.isEmpty_cons, if_neg (by decide)]
  have hword : word (str "JOIN" ++ (32 :: (roomIdOf draw ++ answer))) = str "JOIN" ∧
      afterWord (str "JOIN" ++ (32 :: (roomIdOf draw ++ answer))) =
        32 :: (roomIdOf draw ++ answer) := by
    apply word_append
    · decide +kernel
    · decide
    · intro c hc
      rw [List.head?_cons, Option.some.injEq] at hc
      rw [← hc]
      decide
  have hparams : OneLine (32 :: (roomIdOf draw ++ answer)) := by
    rw [OneLine, List.mem_cons, not_or]
    exact ⟨by decide, (oneLine_roomIdOf draw).append hone⟩
  have hstart : ∀ text : Bytes, startsWith (str "/") (47 :: text) = true := fun text => by
    rw [show str "/" = [47] by decide]
    simp [startsWith]
  refine ⟨32 :: (roomIdOf draw ++ answer), ?_, ?_⟩
  · rw [Event.command, hacted, Option.bind_some, parseText, if_pos (hstart _), List.drop_one,
      List.tail_cons, parseCommand, hword.1, hword.2, getline_of_oneLine hparams]
    rfl
  · have hid := word_append hdigits (roomIdOf_ne_nil draw) hspace
    have hskip := word_cons (c := 32) (by decide) (roomIdOf draw ++ answer)
    rw [joinParams, hskip.1, hskip.2, hid.1, hid.2, getline_of_oneLine hone,
      show trim (roomIdOf draw) = roomIdOf draw from trimmed_roomIdOf draw, hanswer, trim_rdropWhile,
      trim_cons_blank (by decide)]

/-! ## JOIN -/

/-- The name is banned from the room, in its memory or in the database. -/
def Globals.Excludes (s : Globals) (room : ChatRoom) (r name : Bytes) : Prop :=
  name ∈ room.bannedUsers ∨
    ∃ row ∈ s.database.bans, row.roomId = cString r ∧ row.username = cString name

section Joining

variable {e : Env} {s s' : Globals} {sock : SOCKET} {room : ChatRoom} {r password : Bytes}

/-- JOIN admits a client that is not banned when its answer is the password. -/
theorem joinVerdict_admitted_iff {name : Bytes} (hroom : s.chatRooms[r]? = some room)
    (hprivate : room.isPrivate = true) (hne : room.password ≠ [])
    (hfree : ¬s.Excludes room r name) :
    joinVerdict e s r name password = .admitted ↔ password = room.password := by
  have hmemory : room.isUserBanned name = false := by
    rw [Bool.eq_false_iff, ne_eq, room.isUserBanned_iff]
    exact fun h => hfree (Or.inl h)
  have htable : s.database.isUserBanned e.calls r name = false := by
    rw [Bool.eq_false_iff]
    intro h
    rw [Database.isUserBanned, Bool.and_eq_true, List.any_eq_true] at h
    obtain ⟨-, row, hrow, hsame⟩ := h
    simp only [Bool.and_eq_true, beq_iff_eq] at hsame
    exact hfree (Or.inr ⟨row, hrow, hsame⟩)
  rw [joinVerdict, hroom]
  dsimp only
  rw [hmemory, htable, hprivate, if_neg (by simp), Bool.true_and, Bool.true_and]
  by_cases hempty : password = []
  · subst hempty
    simp [Ne.symm hne]
  · rw [if_neg (by simpa using hempty)]
    by_cases hsame : room.password = password
    · simp [hsame]
    · simp [hsame, Ne.symm hsame]

/-- What JOIN does under both locks makes the client a member exactly when it admits it. -/
theorem isMember_joinRoom_iff (hr : Trimmed r) (hne : r ≠ []) (hout : ¬s.IsMember sock r)
    (hlive : r ∈ s.chatRooms) :
    ((joinRoom sock (s.info sock) r password).exec e s).state.IsMember sock r ↔
      joinVerdict e s r (s.info sock).username password = .admitted := by
  constructor
  · exact admitted_of_isMember e s sock _ r password hout
  · intro hadmitted
    rw [state_joinRoom, if_pos hadmitted]
    have hhall : ((admitClient sock (s.info sock) r).exec e s).state.hall =
        (Hall.Op.join sock r password).apply s.hall := post_admitClient e s sock hr hne password
    obtain ⟨R, hR⟩ := Option.isSome_iff_exists.1 ((s.isSome_room_hall r).2 hlive)
    rw [Globals.IsMember, ← Globals.mem_membersOf_hall, hhall]
    have hvacated : ∃ R', (s.hall.vacate sock).room r = some R' := by
      rw [Hall.room_vacate, hR]
      split
      · exact ⟨_, rfl⟩
      · exact ⟨_, rfl⟩
    obtain ⟨R', hR'⟩ := hvacated
    refine ⟨R'.enrol sock, ?_, Set.mem_insert _ _⟩
    rw [Hall.Op.apply, Hall.room_tell, Hall.place, Hall.room_setPerson, Hall.room_editRoom,
      if_pos rfl, hR', Option.map_some]

/-- Before the gate of `r` stands a client that is neither in the room nor banned from it, and the room,
when it is there, is private and has the password. -/
structure AtGate (sock : SOCKET) (client : ClientInfo) (r password : Bytes) (s : Globals) : Prop where
  info : s.info sock = client
  out : ¬s.IsMember sock r
  room : ∀ room, s.chatRooms[r]? = some room → room.isPrivate = true ∧ room.password = password ∧
    ¬s.Excludes room r client.username

/-- The client is in the room exactly if the room is still there and `p` holds. -/
def Admits (sock : SOCKET) (r : Bytes) (p : Prop) (s : Globals) : Prop :=
  s.IsMember sock r ↔ r ∈ s.chatRooms ∧ p

/-- A room that is there after the other threads have moved was there before, with another history at
most. -/
theorem room_of_meanwhile (hm : Meanwhile s s') (hroom : s'.chatRooms[r]? = some room) :
    ∃ room₀ history, s.chatRooms[r]? = some room₀ ∧
      room = { room₀ with messageHistory := history } := by
  cases h : s.chatRooms[r]? with
  | none =>
      rw [hm.backdrop.fresh r h] at hroom
      exact absurd hroom (by simp)
  | some room₀ =>
      rcases hm.backdrop.kept r room₀ h with ⟨history, hkept⟩ | ⟨hnone, -⟩
      · rw [hkept, Option.some.injEq] at hroom
        exact ⟨room₀, history, rfl, hroom.symm⟩
      · rw [hnone] at hroom
        exact absurd hroom (by simp)

/-- Nobody else makes the client a member or takes it out. -/
theorem isMember_meanwhile (hm : Meanwhile s s') (hlive : r ∈ s'.chatRooms) :
    s'.IsMember sock r ↔ s.IsMember sock r := by
  obtain ⟨room', hroom'⟩ := Option.isSome_iff_exists.1 (Std.ExtTreeMap.mem_iff_isSome_getElem?.1 hlive)
  obtain ⟨room, history, hroom, rfl⟩ := room_of_meanwhile hm hroom'
  rw [Globals.IsMember, Globals.IsMember, hroom', hroom]
  simp

theorem AtGate.meanwhile {client : ClientInfo} (h : AtGate sock client r password s)
    (hm : Meanwhile s s') : AtGate sock client r password s' := by
  refine ⟨(hm.backdrop.info sock).trans h.info, fun hmem => ?_, fun room' hroom' => ?_⟩
  · exact h.out ((isMember_meanwhile hm hmem.mem).1 hmem)
  · obtain ⟨room, history, hroom, rfl⟩ := room_of_meanwhile hm hroom'
    obtain ⟨hprivate, hpassword, hfree⟩ := h.room room hroom
    refine ⟨hprivate, hpassword, ?_⟩
    rintro (hbanned | ⟨row, hrow, hsame⟩)
    · exact hfree (Or.inl hbanned)
    · exact hfree (Or.inr ⟨row, hm.bans row hrow, hsame⟩)

theorem AtGate.setInfo {client : ClientInfo} (h : AtGate sock client r password s) :
    AtGate sock client r password (s.setInfo sock id) := by
  refine ⟨?_, h.out, h.room⟩
  rw [info_setInfo, if_pos rfl]
  exact h.info

theorem Admits.meanwhile {p : Prop} (h : Admits sock r p s) (hm : Meanwhile s s') :
    Admits sock r p s' := by
  by_cases hlive' : r ∈ s'.chatRooms
  · have hlive : r ∈ s.chatRooms := by
      rw [Std.ExtTreeMap.mem_iff_isSome_getElem?] at hlive' ⊢
      obtain ⟨room', hroom'⟩ := Option.isSome_iff_exists.1 hlive'
      obtain ⟨room, -, hroom, -⟩ := room_of_meanwhile hm hroom'
      rw [hroom]
      rfl
    rw [Admits] at h ⊢
    rw [isMember_meanwhile hm hlive', h]
    exact and_congr_left fun _ => iff_of_true hlive hlive'
  · exact iff_of_false (fun hmem => hlive' hmem.mem) fun hand => hlive' hand.1

/-- JOIN under both locks admits a client before the gate exactly when the answer is the password. -/
theorem admits_joinRoom {client : ClientInfo} {answer : Bytes} (h : AtGate sock client r password s)
    (hpassword : password ≠ []) (hr : Trimmed r) (hne : r ≠ []) :
    Admits sock r (answer = password) ((joinRoom sock client r answer).exec e s).state := by
  by_cases hlive : r ∈ s.chatRooms
  · obtain ⟨room, hroom⟩ := Option.isSome_iff_exists.1
      (Std.ExtTreeMap.mem_iff_isSome_getElem?.1 hlive)
    obtain ⟨hprivate, rfl, hfree⟩ := h.room room hroom
    obtain rfl := h.info
    have hiff : ((joinRoom sock (s.info sock) r answer).exec e s).state.IsMember sock r ↔
        answer = room.password :=
      (isMember_joinRoom_iff hr hne h.out hlive).trans
        (joinVerdict_admitted_iff hroom hprivate hpassword hfree)
    constructor
    · exact fun hmem => ⟨hmem.mem, hiff.1 hmem⟩
    · exact fun hand => hiff.2 hand.2
  · -- no such room
    have hnone : s.chatRooms[r]? = none := Std.ExtTreeMap.getElem?_eq_none hlive
    have hmissing : joinVerdict e s r client.username answer = .missing := by
      rw [joinVerdict, hnone]
    have hstate : ((joinRoom sock client r answer).exec e s).state.chatRooms = s.chatRooms := by
      rw [state_joinRoom, hmissing, if_neg (by decide)]
      rfl
    have hgone : r ∉ ((joinRoom sock client r answer).exec e s).state.chatRooms := by
      rw [hstate]
      exact hlive
    exact iff_of_false (fun hmem => hgone hmem.mem) fun hand => hgone hand.1

variable {client : ClientInfo} {params : Bytes}

/-- JOIN admits a client before the gate exactly when its answer is the password, whatever the other
threads do meanwhile. -/
theorem wpIn_handleJoinCommand {E : Env → Prop}
    (h : AtGate sock client (joinParams params).1 password s) (hpassword : password ≠ [])
    (hr : Trimmed (joinParams params).1) (hne : (joinParams params).1 ≠ [])
    (hplace : client.roomId ≠ (joinParams params).1) :
    (handleJoinCommand sock params).wpIn E Meanwhile
      (fun _ => Admits sock (joinParams params).1 ((joinParams params).2 = password)) s := by
  rw [handleJoinCommand, if_neg (by simpa using hne), Prog.wpIn_holding, Prog.wpIn_bind, wpIn_step]
  intro e₁ _ s₁ h₁
  have hgate := h.meanwhile h₁
  rw [post_clientRef, hgate.info, if_neg (by simpa using Ne.symm hplace), wpIn_critical]
  intro e₂ _ s₂ h₂
  exact admits_joinRoom (hgate.setInfo.meanwhile h₂) hpassword hr hne

/-- JOIN, run alone where the room is live. -/
theorem isMember_run_iff (es : Nat → Env)
    (h : AtGate sock client (joinParams params).1 password s) (hpassword : password ≠ [])
    (hr : Trimmed (joinParams params).1) (hne : (joinParams params).1 ≠ [])
    (hplace : client.roomId ≠ (joinParams params).1)
    (hlive : (joinParams params).1 ∈ s.chatRooms) :
    ((handleJoinCommand sock params).run es s).2.IsMember sock (joinParams params).1 ↔
      (joinParams params).2 = password := by
  obtain ⟨room, hroom⟩ := Option.isSome_iff_exists.1 (Std.ExtTreeMap.mem_iff_isSome_getElem?.1 hlive)
  have hgate := h.setInfo
  obtain ⟨hprivate, rfl, hfree⟩ := hgate.room room hroom
  obtain rfl := hgate.info
  have hsame : (s.setInfo sock id).info sock = s.info sock := hgate.info.symm ▸ h.info.symm ▸ rfl
  rw [hsame] at hplace hfree
  rw [run_handleJoinCommand es s sock hne (Ne.symm hplace), ← hsame,
    isMember_joinRoom_iff hr hne hgate.out hlive]
  exact joinVerdict_admitted_iff hroom hprivate hpassword (hsame ▸ hfree)

end Joining

/-! ## CHANGEPASSWORD and GETPASSWORD -/

section Keys

variable {E : Env → Prop} {s s' : Globals} {sock : SOCKET} {room : ChatRoom}
  {r params password : Bytes}

/-- The room, when it is there, has the password. -/
def Keyed (r password : Bytes) (s : Globals) : Prop :=
  ∀ room, s.chatRooms[r]? = some room → room.password = password

theorem Keyed.meanwhile (h : Keyed r password s) (hm : Meanwhile s s') : Keyed r password s' := by
  intro room' hroom'
  obtain ⟨room, history, hroom, rfl⟩ := room_of_meanwhile hm hroom'
  exact h room hroom

/-- CHANGEPASSWORD of the owner of a private room sets the password. -/
theorem wpIn_handleChangePasswordCommand (hrules : s.Rules sock r) (hne : trim params ≠ [])
    (hprivate : ∀ room, s.chatRooms[r]? = some room → room.isPrivate = true) :
    (handleChangePasswordCommand sock params).wpIn E Meanwhile
      (fun _ => Keyed r (trim params)) s := by
  obtain ⟨⟨hr, hplace⟩, howner⟩ := hrules
  rw [handleChangePasswordCommand, Prog.wpIn_ite]
  refine ⟨fun hempty => absurd (List.isEmpty_iff.1 hempty) hne, fun _ => ?_⟩
  rw [Prog.wpIn_bind, wpIn_critical]
  intro e₁ _ s₁ h₁
  rw [post_clientInfo, h₁.backdrop.info, hplace, howner, if_neg (by simpa using hr),
    if_neg (by simp), wpIn_critical]
  intro e₂ _ s₂ h₂
  simp only [Block.post_bind, post_roomExists, Block.post_ite, post_askRoom, post_sendToClient,
    post_tellRoom, post_tellDatabase, post_getCurrentTimestamp, post_broadcast, Block.post_pure]
  refine ⟨fun hlive => ⟨fun hpublic => ?_, fun _ => ?_⟩, fun hgone room hroom => ?_⟩
  · -- the room has not become public
    obtain ⟨room₂, hroom₂⟩ := Option.isSome_iff_exists.1
      (Std.ExtTreeMap.contains_eq_isSome_getElem?.symm.trans hlive)
    obtain ⟨room, history, hroom, rfl⟩ := room_of_meanwhile (h₁.trans h₂) hroom₂
    rw [hroom₂] at hpublic
    simp [hprivate room hroom] at hpublic
  · intro room hroom
    have hset : (s₂.editRoom r fun room => room.setPassword (trim params)).chatRooms[r]? =
        some room := hroom
    rw [Globals.getElem?_editRoom, if_pos rfl, Option.map_eq_some_iff] at hset
    obtain ⟨room₀, -, rfl⟩ := hset
    rfl
  · rw [Std.ExtTreeMap.contains_eq_isSome_getElem?, hroom] at hgone
    exact absurd rfl hgone

/-- The answer to GETPASSWORD has been sent, and otherwise only lines that say nothing about the place
of a client. -/
def Shows (sock : SOCKET) (password : Bytes) (s s' : Globals) : Prop :=
  ∃ before after, s'.net = s.net ++ before ++
      .sent sock (passwordLine password ++ [newline]) :: after ∧
    ∀ op ∈ before ++ after, op.Aside

/-- GETPASSWORD shows the owner of a private room its password. -/
theorem wpIn_handleGetPasswordCommand (hrules : s.Rules sock r)
    (hroom : s.chatRooms[r]? = some room) (hmem : sock ∈ room.clients)
    (hprivate : room.isPrivate = true) :
    (handleGetPasswordCommand sock).wpIn E Meanwhile (fun _ => Shows sock room.password s) s := by
  obtain ⟨⟨hr, hplace⟩, howner⟩ := hrules
  rw [handleGetPasswordCommand, Prog.wpIn_bind, wpIn_critical]
  intro e₁ _ s₁ h₁
  rw [post_clientInfo, h₁.backdrop.info, hplace, howner, if_neg (by simpa using hr),
    if_neg (by simp), wpIn_critical]
  intro e₂ _ s₂ h₂
  have hm := h₁.trans h₂
  -- the owner is in the room, so the room is still there
  obtain ⟨history, hkept⟩ := hm.kept hroom hmem
  simp only [Block.post_bind, post_roomExists, Block.post_ite, post_askRoom, post_sendToClient,
    Block.post_pure, Std.ExtTreeMap.contains_eq_isSome_getElem?, hkept, Option.isSome_some,
    Option.map_some, Option.getD_some, hprivate]
  refine ⟨fun _ => ⟨fun _ => ?_, fun hpublic => absurd trivial hpublic⟩,
    fun hgone => absurd trivial hgone⟩
  exact hm.answered sock (passwordLine room.password ++ [newline])

theorem Shows.meanwhile {s'' : Globals} (h : Shows sock password s s') (hm : Meanwhile s' s'') :
    Shows sock password s s'' :=
  Answered.meanwhile h hm

end Keys

/-! ## The password of a room -/

/-- The password that the event gives to the room: by the CREATE that makes it, or by an accepted
CHANGEPASSWORD of its owner. -/
def Handled.password (r : Bytes) (p : Handled) : Option Bytes :=
  match p.event.command with
  | some (.create params) =>
      if r ∉ p.before.chatRooms ∧ r ∈ p.after.chatRooms then some (createParams params).2 else none
  | some (.changePassword params) =>
      if p.before.Rules p.event.socket r ∧ trim params ≠ [] ∧
          (p.before.chatRooms[r]?).any ChatRoom.isPrivate then some (trim params)
      else none
  | _ => none

/-- The last password that the events of the diary have given to the room. -/
def passwordIn (diary : List Handled) (r : Bytes) : Option Bytes :=
  diary.reverse.findSome? (Handled.password r)

theorem passwordIn_concat (diary : List Handled) (p : Handled) (r : Bytes) :
    passwordIn (diary ++ [p]) r = (p.password r).or (passwordIn diary r) := by
  rw [passwordIn, List.reverse_append, List.reverse_singleton, List.singleton_append,
    List.findSome?_cons]
  cases p.password r with
  | none => rfl
  | some password => rfl

/-- A password that a client can type and read back. -/
structure Typeable (password : Bytes) : Prop where
  ne_nil : password ≠ []
  trimmed : Trimmed password
  oneLine : OneLine password

/-- CREATE PRIVATE takes no other password. -/
theorem typeable_createParams {params : Bytes}
    (h : ¬((createParams params).1 && (createParams params).2.isEmpty) = true)
    (hprivate : (createParams params).1 = true) : Typeable (createParams params).2 := by
  rw [hprivate, Bool.true_and, List.isEmpty_iff] at h
  have hword : (word params == str "PRIVATE") = true := hprivate
  have hpassword : (createParams params).2 = trim (getline (afterWord params)) := by
    rw [createParams]
    dsimp only
    rw [hword, if_pos rfl]
  refine ⟨h, ?_, ?_⟩
  · rw [hpassword]
    exact trimmed_trim _
  · rw [hpassword]
    exact (oneLine_getline _).trim

/-- CHANGEPASSWORD is handed one line. -/
theorem oneLine_of_changePassword {ev : Event} {params : Bytes}
    (h : ev.command = some (.changePassword params)) : OneLine params := by
  cases ev with
  | connect sock => exact absurd h (by simp [Event.command])
  | hangup sock => exact absurd h (by simp [Event.command])
  | receive sock buffer =>
      rw [Event.command] at h
      obtain ⟨text, hacted, htext⟩ := Option.bind_eq_some_iff.1 h
      have hformed := wellFormed_parseText hacted
      cases hrequest : parseText text with
      | command c =>
          rw [hrequest] at hformed htext
          rw [Option.some.inj htext] at hformed
          exact hformed
      | privateMessage _ _ => exact absurd htext (by simp [hrequest, Request.command?])
      | badPrivateMessage => exact absurd htext (by simp [hrequest, Request.command?])
      | chat _ => exact absurd htext (by simp [hrequest, Request.command?])

namespace Machine

variable {ok : Machine → Label → Prop} {db : Database} {listenSocket : SOCKET} {m m' : Machine}
  {diary : List Handled} {ev : Event} {r : Bytes}

/-- A CHANGEPASSWORD without a password is refused. -/
theorem HandlesBy.unchanged (hm : Reachable anyStep m) (hh : HandlesBy ok m ev m') {params : Bytes}
    (hcommand : ev.command = some (.changePassword params)) (hempty : trim params = []) :
    Hall.Sweeps m.globals.hall m'.globals.hall := by
  apply hh.ends (Q := fun s => Hall.Sweeps m.globals.hall s.hall) hm
  · exact fun _ _ hs hrely => hs.trans hrely.sweeps
  · rw [handler_of_command hcommand]
    show (handleChangePasswordCommand ev.socket params).wp Rely _ _
    rw [handleChangePasswordCommand, hempty, List.isEmpty_nil, if_pos rfl]
    exact wp_reply (.refl _) (quiet_errorText _) _

/-- What an event makes of the password of a private room. -/
theorem HandlesBy.password_cases (hm : Reachable ok m) (hidle : m.Idle) (hh : HandlesBy ok m ev m')
    (hdrawn : m'.globals.drawnIds.Nodup) {room' : ChatRoom}
    (hroom' : m'.globals.chatRooms[r]? = some room') (hprivate : room'.isPrivate = true) :
    Handled.password r ⟨m.globals, ev, m'.globals⟩ = some room'.password ∧ Typeable room'.password ∨
      Handled.password r ⟨m.globals, ev, m'.globals⟩ = none ∧ ∃ room,
        m.globals.chatRooms[r]? = some room ∧ room.isPrivate = true ∧
          room.password = room'.password := by
  have hany : Reachable anyStep m := hm.mono fun _ _ _ => trivial
  obtain ⟨op, h₁, hop, hw, hp, hw'⟩ := hany.does hh.handles
  have hafter := hw'.room_of_some (Globals.room_hall_of_some _ hroom')
  by_cases hr : r ∈ op.draws
  · -- the room has just been made
    obtain ⟨sock, isPrivate, password, rfl, hnew⟩ := Hall.room_of_draws hafter hr
    obtain rfl : room'.isPrivate = isPrivate := congrArg Room.isPrivate hnew
    obtain rfl : room'.password = password := congrArg Room.password hnew
    have ha : ev.Asks (.create sock r room'.isPrivate room'.password) :=
      hop.resolve_left (by simp)
    obtain ⟨params, hcommand, -, hparams, hok⟩ := ha.create
    have hlive' : r ∈ m'.globals.chatRooms := by
      rw [Std.ExtTreeMap.mem_iff_isSome_getElem?, hroom']
      rfl
    -- ids that are drawn are distinct, so the room has not been live before
    have hdead : r ∉ m.globals.chatRooms := by
      intro hlive
      have hdrawn₀ := (hallRun_of_reachable hany hidle).sound.drawn r
        ((m.globals.isSome_room_hall r).2 hlive)
      have hall := hw'.drawn
      rw [Hall.drawn_apply, hw.drawn] at hall
      rw [show m'.globals.drawnIds = r :: m.globals.drawnIds from hall, List.nodup_cons] at hdrawn
      exact hdrawn.1 hdrawn₀
    have htypeable : Typeable (createParams params).2 := by
      apply typeable_createParams
      · rw [hparams, hok]
        decide
      · rw [hparams]
        exact hprivate
    rw [hparams] at htypeable
    left
    refine ⟨?_, htypeable⟩
    rw [Handled.password, hcommand]
    dsimp only
    rw [if_pos ⟨hdead, hlive'⟩, hparams]
  · -- the room was there before; only the operation of CHANGEPASSWORD moves its password
    obtain ⟨R, hR⟩ := Option.isSome_iff_exists.1
      ((Hall.room_apply (by rw [hafter]; rfl)).resolve_right hr)
    obtain ⟨hkind, -, hkey⟩ := Hall.room_of_decrees hR hafter hr
    obtain ⟨room, hroom, rfl⟩ : ∃ room, m.globals.chatRooms[r]? = some room ∧ room.room = R := by
      have hbefore := hw.room_of_some hR
      rw [Globals.hall] at hbefore
      exact Option.map_eq_some_iff.1 hbefore
    have hprivate₀ : room.isPrivate = true := hkind.symm.trans hprivate
    have hlive : r ∈ m.globals.chatRooms := by
      rw [Std.ExtTreeMap.mem_iff_isSome_getElem?, hroom]
      rfl
    by_cases hgives : ∃ params, ev.command = some (.changePassword params) ∧
        m.globals.Rules ev.socket r ∧ trim params ≠ []
    · -- an accepted CHANGEPASSWORD
      obtain ⟨params, hcommand, hrules, hne⟩ := hgives
      have hkeyed : Keyed r (trim params) m'.globals := by
        apply hh.ends_in (E := fun _ => True) hm (fun _ _ _ => trivial) fun _ _ hk hm => hk.meanwhile hm
        rw [handler_of_command hcommand]
        apply wpIn_handleChangePasswordCommand hrules hne
        intro room₀ hroom₀
        rw [hroom, Option.some.injEq] at hroom₀
        rw [← hroom₀]
        exact hprivate₀
      have hset := hkeyed room' hroom'
      left
      rw [hset]
      refine ⟨?_, hne, trimmed_trim _, (oneLine_of_changePassword hcommand).trim⟩
      rw [Handled.password, hcommand]
      dsimp only
      rw [if_pos ⟨hrules, hne, by rw [hroom, Option.any_some, hprivate₀]⟩]
    · right
      refine ⟨?_, room, hroom, hprivate₀, ?_⟩
      · rw [Handled.password]
        split
        · rw [if_neg fun hmade => hmade.1 hlive]
        · rename_i params hcommand
          rw [if_neg fun haccepted => hgives ⟨params, hcommand, haccepted.1, haccepted.2.1⟩]
        · rfl
      · rcases hkey with hkey | ⟨hsame, -⟩
        · have hsweeps : Hall.Sweeps m.globals.hall m'.globals.hall := by
            cases op with
            | setPassword a q password =>
                obtain ⟨rfl, rfl⟩ := hkey
                obtain ⟨params, hcommand, rfl, hpassword⟩ :=
                  (hop.resolve_left (by simp)).setPassword
                have hrules := (m.globals.rules_hall _ _).1 ((hw.rules _ _).1 hp)
                -- an operation that sets the password without an accepted command: the password is empty
                have hempty : trim params = [] := by
                  by_contra hne
                  exact hgives ⟨params, hcommand, hrules, hne⟩
                exact hh.unchanged hany hcommand hempty
            | _ => exact hkey.elim
          have hbefore := hsweeps.room_of_some (Globals.room_hall_of_some _ hroom')
          rw [Globals.room_hall_of_some _ hroom, Option.some.injEq] at hbefore
          exact congrArg Room.password hbefore
        · exact hsame.symm

/-- The password of a private room is the last that the events have given to it. -/
theorem Kept.password (h : Kept ok db listenSocket m diary) (hdrawn : m.globals.drawnIds.Nodup)
    {room : ChatRoom} (hroom : m.globals.chatRooms[r]? = some room)
    (hprivate : room.isPrivate = true) :
    passwordIn diary r = some room.password ∧ Typeable room.password := by
  induction h generalizing room with
  | boot =>
      have hnone : (Machine.boot db listenSocket).globals.chatRooms[r]? = none := rfl
      rw [hnone] at hroom
      exact absurd hroom (by simp)
  | @rest m m' diary l h hl hnext ih =>
      have hmean := meanwhile_of_rest h.reachable h.idle hnext
      rw [hmean.backdrop.drawn] at hdrawn
      obtain ⟨room₀, history, hroom₀, rfl⟩ := room_of_meanwhile hmean hroom
      have hbefore := ih hdrawn hroom₀ hprivate
      exact hbefore
  | @handle m m' diary ev h hh ih =>
      rw [passwordIn_concat]
      rcases hh.password_cases h.reachable h.idle hdrawn hroom hprivate with
        ⟨hgiven, htypeable⟩ | ⟨hnone, room₀, hroom₀, hprivate₀, hsame⟩
      · rw [hgiven]
        exact ⟨rfl, htypeable⟩
      · obtain ⟨op, h₁, -, hw, -, hw'⟩ := h.reachable_any.does hh.handles
        have hbefore : m.globals.drawnIds.Nodup := by
          have hall := hw'.drawn
          rw [Hall.drawn_apply, hw.drawn] at hall
          rw [show m'.globals.drawnIds = op.draws ++ m.globals.drawnIds from hall] at hdrawn
          exact (List.nodup_append.1 hdrawn).2.1
        rw [hnone, Option.none_or, ← hsame]
        exact ih hbefore hroom₀ hprivate₀

/-- The password opens the room `r`, and is what the owner of `r` is shown. -/
structure GuardedBy (ok : Machine → Label → Prop) (m : Machine) (r : Bytes) (room : ChatRoom)
    (password : Bytes) : Prop where
  /-- Whatever the other threads do while `/JOIN r x` of a client outside is handled, the client ends up in
  the room exactly if its answer is the password and nobody has removed the room. -/
  opens : ∀ (sock : SOCKET) (x : Bytes) (m' : Machine), (m.globals.info sock).roomId ≠ r →
    ¬m.globals.Excludes room r (m.globals.info sock).username → OneLine x →
    HandlesBy ok m (.receive sock (joinLine r x)) m' →
      (m'.globals.IsMember sock r ↔ r ∈ m'.globals.chatRooms ∧ trim x = password)
  /-- While nothing else moves, the answer alone decides. -/
  opensAlone : ∀ (sock : SOCKET) (x : Bytes) (es : Nat → Env),
    (m.globals.info sock).roomId ≠ r → ¬m.globals.Excludes room r (m.globals.info sock).username →
    OneLine x → (((Event.receive sock (joinLine r x)).handler.run es m.globals).2.IsMember sock r ↔
      trim x = password)
  /-- GETPASSWORD of the owner is answered with the password. -/
  shows : ∀ (ev : Event) (m' : Machine), ev.command = some .getPassword →
    m.globals.Rules ev.socket r → HandlesBy ok m ev m' →
      Shows ev.socket password m.globals m'.globals
  /-- The client reads the password from the answer, however it is cut on its way. -/
  reads : ∀ (chunks : List Bytes) (client : Receiver), client.incompleteMessage = [] →
    chunks.flatten = passwordLine password ++ [newline] →
      (chunks.foldl Receiver.receive client).decoded =
          client.decoded ++ [(.roomPassword, passwordLine password)] ∧
        shownPassword (passwordLine password) = password

/-- The password gate. In every run with distinct ids the last password that the events have given to a
live private room opens it, and is what its owner is shown. -/
theorem password_gate (h : Kept ok db listenSocket m diary) (hdrawn : m.globals.drawnIds.Nodup)
    {room : ChatRoom} (hroom : m.globals.chatRooms[r]? = some room)
    (hprivate : room.isPrivate = true) :
    ∃ password, passwordIn diary r = some password ∧ GuardedBy ok m r room password := by
  obtain ⟨hlast, htypeable⟩ := h.password hdrawn hroom hprivate
  have hany := h.reachable_any
  have hlive : r ∈ m.globals.chatRooms := by
    rw [Std.ExtTreeMap.mem_iff_isSome_getElem?, hroom]
    rfl
  obtain ⟨w, hw⟩ := exists_watched h.run
  obtain ⟨draw, rfl⟩ := hw.numbered.drawn r (hw.numbered.live r hlive)
  have hgate : ∀ sock, (m.globals.info sock).roomId ≠ roomIdOf draw →
      ¬m.globals.Excludes room (roomIdOf draw) (m.globals.info sock).username →
        AtGate sock (m.globals.info sock) (roomIdOf draw) room.password m.globals := by
    intro sock hplace hfree
    refine ⟨rfl, fun hmem => hplace (roomId_of_isMember hany h.idle hmem).2, fun room' hroom' => ?_⟩
    rw [hroom, Option.some.injEq] at hroom'
    rw [← hroom']
    exact ⟨hprivate, rfl, hfree⟩
  refine ⟨room.password, hlast, ⟨?_, ?_, ?_, ?_⟩⟩
  · -- admission, with the other threads at work
    intro sock x m' hplace hfree hx hh
    obtain ⟨params, hcommand, hparams⟩ := command_joinLine draw hx sock
    have hid : (joinParams params).1 = roomIdOf draw := congrArg Prod.fst hparams
    have hgate' := hgate sock hplace hfree
    rw [← hid] at hgate' hplace
    have hadmits : Admits sock (joinParams params).1 ((joinParams params).2 = room.password)
        m'.globals := by
      apply hh.ends_in (E := fun _ => True) h.reachable (fun _ _ _ => trivial)
        fun _ _ ha hm => ha.meanwhile hm
      rw [handler_of_command hcommand]
      refine wpIn_handleJoinCommand hgate' htypeable.ne_nil ?_ ?_ hplace
      · rw [hid]
        exact trimmed_roomIdOf draw
      · rw [hid]
        exact roomIdOf_ne_nil draw
    rw [hparams] at hadmits
    exact hadmits
  · -- admission, with the handler alone
    intro sock x es hplace hfree hx
    obtain ⟨params, hcommand, hparams⟩ := command_joinLine draw hx sock
    have hid : (joinParams params).1 = roomIdOf draw := congrArg Prod.fst hparams
    have hgate' := hgate sock hplace hfree
    rw [← hid] at hgate' hplace hlive
    have halone := isMember_run_iff es hgate' htypeable.ne_nil (by rw [hid]; exact trimmed_roomIdOf draw)
      (by rw [hid]; exact roomIdOf_ne_nil draw) hplace hlive
    rw [hparams] at halone
    rw [handler_of_command hcommand]
    exact halone
  · -- GETPASSWORD of the owner
    intro ev m' hcommand hrules hh
    obtain ⟨room', hroom', hmem⟩ := isMember_of_roomId hany h.idle hdrawn hrules.1.1 hrules.1.2
    rw [hroom, Option.some.injEq] at hroom'
    rw [← hroom'] at hmem
    apply hh.ends_in (E := fun _ => True) h.reachable (fun _ _ _ => trivial)
      fun _ _ hs hm => hs.meanwhile hm
    rw [handler_of_command hcommand]
    exact wpIn_handleGetPasswordCommand hrules hroom hmem hprivate
  · -- what the client reads from the answer
    intro chunks client hclient hchunks
    have htail : room.password.rdropWhile isBlank = room.password :=
      rdropWhile_of_trimmed htypeable.trimmed
    have hline : Trimmed (passwordLine room.password) := by
      rw [Trimmed, passwordLine, trim_append (by decide) (by decide), htail]
    have hone : OneLine (passwordLine room.password) :=
      OneLine.append (by decide) htypeable.oneLine
    have hkind : responseOf (passwordLine room.password) = .roomPassword := by
      rw [passwordLine, responseOf_append (by decide)]
      decide
    constructor
    · rw [foldl_receive_line hline hone _ hchunks hclient, hkind]
      exact List.append_ne_nil_of_left_ne_nil (by decide) _
    · rw [shownPassword, passwordLine, List.drop_left' (by decide)]
      exact htypeable.trimmed

/-- Alice makes a private room, gives it another password, and shows it to herself. -/
theorem password_gate_alice : ∃ m : Machine, ∃ room : ChatRoom, Reachable anyStep m ∧
    m.globals.chatRooms[str "100007"]? = some room ∧ m.globals.Rules 4 (str "100007") ∧
      GuardedBy anyStep m (str "100007") room (str "two  words") := by
  obtain ⟨m, diary, h, hp⟩ := kept_of_keep anyStep (fun _ _ => True) (fun _ _ _ => trivial)
    (fun _ _ => trivial)
    [(.connect 4, 0), (.connect 5, 0), (.receive 4 (str "/CREATE PRIVATE first"), 7),
      (.receive 4 (str "/CHANGEPASSWORD  two  words \r\n"), 0)]
    (fun m diary => decide (m.globals.drawnIds.Nodup ∧ m.globals.Rules 4 (str "100007") ∧
      passwordIn diary (str "100007") = some (str "two  words")) &&
      (m.globals.chatRooms[str "100007"]?).any ChatRoom.isPrivate)
    (by decide +kernel)
  rw [Bool.and_eq_true, decide_eq_true_eq, Option.any_eq_true] at hp
  obtain ⟨⟨hdrawn, hrules, hlast⟩, room, hroom, hprivate⟩ := hp
  obtain ⟨password, hpassword, hguard⟩ := password_gate h hdrawn hroom hprivate
  rw [hlast, Option.some.injEq] at hpassword
  subst hpassword
  exact ⟨m, room, h.reachable, hroom, hrules, hguard⟩

end Machine

end TerminalChat.Server
