import Mathlib
import TerminalChat.Client.Dispatch
import TerminalChat.Server.Names
import TerminalChat.Server.Passwords
import TerminalChat.Server.Succession

/-!
# The two lists across the connection

LIST and USERS answer with one line: a marker, and entries that are closed by commas. `receiveMessages`
cuts the line out of the stream and takes the entries apart at their commas. An entry of the room list is
made of digits, parentheses and a tag, and comes back as it was sent (`room_list_round_trips`). An entry
of the user list is a name, and comes back exactly when the name has no comma
(`user_list_round_trips_iff`).
-/

set_option autoImplicit false

namespace TerminalChat.System

open TerminalChat.Concurrency TerminalChat.Text TerminalChat.Client TerminalChat.Server
open TerminalChat.Server.Machine

/-! ## One line of the receiver -/

/-- A session that has nothing left to read prints `x` for the text, and nothing else, however `recv` cuts
the text; the state of the client stays as it is. -/
def Prints (session : Session) (text : Bytes) (x : Shown) : Prop :=
  ∀ chunks : List Bytes, chunks.flatten = text → ∃ session' : Session,
    receiveMessages (chunks.map .bytes) ⟨session, []⟩ = .ok ⟨session', []⟩ ∧
      session'.shown = session.shown ++ [x] ∧ session'.state = session.state

section Lines

variable {line : Bytes} {session session' : Session}

/-- A line that arrives in pieces is gone through once, as a whole. -/
theorem receiveMessages_line (hone : OneLine line) (hrun : session.state.shouldExit = false)
    (hline : processLine session line = .ok session') {chunks : List Bytes}
    (hchunks : chunks.flatten = line ++ [newline]) :
    receiveMessages (chunks.map .bytes) ⟨session, []⟩ = .ok ⟨session', []⟩ := by
  have hstart : Reception.receive ⟨session, []⟩ [] = .ok ⟨session, []⟩ := by
    rw [Reception.receive_eq]
    rfl
  obtain ⟨r, hr, hloop⟩ := receiveMessages_chunks [] chunks [] _ hstart hrun
  rw [List.nil_append, hchunks, Reception.receive_eq, List.nil_append, messagesOf_closed hone,
    show messagesOf newline [] = ([], []) from rfl, List.foldlM_cons, hline] at hr
  rw [List.append_nil] at hloop
  rw [hloop, ← Except.ok.inj hr]
  rfl

/-- A line that starts with the marker of a list, behind which stands `list`. -/
theorem prints_list {start list : Bytes} {x : Shown} (hstart : Decisive start)
    (hone : OneLine (start ++ list)) (htrim : Trimmed (start ++ list)) (hne : start ≠ [])
    (hrun : session.state.shouldExit = false)
    (hrespond : ∀ s : Session, s.state = session.state →
      respond (start ++ list) s (responseOf start) = .ok (s.print x)) :
    Prints session (start ++ list ++ [newline]) x := by
  intro chunks hchunks
  have hempty : (start ++ list).isEmpty = false := by
    simp [hne]
  have hline : processLine session (start ++ list) =
      .ok ({ session with processed := session.processed ++ [start ++ list] }.print x) := by
    rw [processLine, trimAt_eq, show trim (start ++ list) = start ++ list from htrim]
    dsimp only [bind, Except.bind]
    rw [hempty, if_neg (by decide), responseOf_append hstart]
    exact hrespond _ rfl
  exact ⟨_, receiveMessages_line hone hrun hline hchunks, rfl, rfl⟩

/-- Closed texts behind a start that is trimmed: the line ends with the start or with a comma. -/
theorem trimmed_closed {start : Bytes} (hstart : Trimmed start) (hne : start ≠ [])
    (texts : List Bytes) : Trimmed (start ++ closed comma texts) := by
  rw [Trimmed, trim_append hstart hne]
  congr 1
  induction texts using List.reverseRecOn with
  | nil => rfl
  | append_singleton texts t _ =>
      rw [closed_append, show closed comma [t] = t ++ [comma] by simp [closed], ← List.append_assoc,
        List.rdropWhile_concat_neg]
      decide

theorem oneLine_closed {texts : List Bytes} (h : ∀ t ∈ texts, OneLine t) :
    OneLine (closed comma texts) := by
  intro hmem
  rw [closed, List.mem_flatMap] at hmem
  obtain ⟨t, ht, hc⟩ := hmem
  rcases List.mem_append.1 hc with hc | hc
  · exact h t ht hc
  · exact absurd (List.mem_singleton.1 hc) (by decide)

end Lines

/-! ## LIST -/

section Rooms

/-- What LIST sends. -/
def roomsReply (s : Globals) : Bytes :=
  str "ROOMS_LIST:" ++ s.chatRooms.toList.flatMap (fun p => roomEntry p.1 p.2) ++ str "\n"

/-- An entry of the room list without its comma. -/
def roomPiece (p : Bytes × ChatRoom) : Bytes :=
  p.1 ++ leftParen :: (decimal p.2.getClientCount ++
    rightParen :: if p.2.isPrivate then str "[PRIVATE]" else str "[PUBLIC]")

/-- What a client is to see of a room. -/
def roomShown (p : Bytes × ChatRoom) : RoomShown where
  roomId := p.1
  userCount := decimal p.2.getClientCount
  type := if p.2.isPrivate then str "PRIVATE [*]" else str "PUBLIC [+]"

/-- What a client is to see of the rooms. -/
def roomListing (s : Globals) : Listing RoomShown :=
  if s.chatRooms.toList = [] then .nothing else .entries (s.chatRooms.toList.map roomShown)

variable {draw : Fin 900000} {room : ChatRoom} {c : UInt8}

theorem roomEntry_eq (p : Bytes × ChatRoom) : roomEntry p.1 p.2 = roomPiece p ++ [comma] := by
  rw [roomEntry, roomPiece, show str "(" = [leftParen] by decide, show str ")" = [rightParen] by decide,
    show str "," = [comma] by decide]
  simp

theorem roomsReply_eq (s : Globals) : roomsReply s =
    str "ROOMS_LIST:" ++ closed comma (s.chatRooms.toList.map roomPiece) ++ [newline] := by
  rw [roomsReply, closed, List.flatMap_map, show str "\n" = [newline] by decide]
  simp only [roomEntry_eq]

/-- The characters of an entry are digits, parentheses and those of its tag. -/
theorem mem_roomPiece (hc : c ∈ roomPiece (roomIdOf draw, room)) : (48 ≤ c ∧ c ≤ 57) ∨
    c ∈ [leftParen, rightParen] ++ if room.isPrivate then str "[PRIVATE]" else str "[PUBLIC]" := by
  simp only [roomPiece, roomIdOf, List.mem_append, List.mem_cons] at hc
  rcases hc with hc | hc | hc | hc | hc
  · exact Or.inl (isDigit_of_mem_decimal hc)
  · exact Or.inr (by simp [hc])
  · exact Or.inl (isDigit_of_mem_decimal hc)
  · exact Or.inr (by simp [hc])
  · exact Or.inr (List.mem_append_right _ hc)

/-- A character that is neither a digit nor one of those of the tags is not in an entry. -/
theorem not_mem_roomPiece (hdigit : ¬(48 ≤ c ∧ c ≤ 57))
    (hprivate : c ∉ [leftParen, rightParen] ++ str "[PRIVATE]")
    (hpublic : c ∉ [leftParen, rightParen] ++ str "[PUBLIC]") :
    c ∉ roomPiece (roomIdOf draw, room) := by
  intro hc
  rcases mem_roomPiece hc with hc | hc
  · exact hdigit hc
  · split at hc
    · exact hprivate hc
    · exact hpublic hc

theorem trimmed_roomPiece : Trimmed (roomPiece (roomIdOf draw, room)) := by
  obtain ⟨d, hd⟩ : ∃ d, (roomIdOf draw).head? = some d :=
    ⟨_, List.head?_eq_some_head (roomIdOf_ne_nil draw)⟩
  apply trimmed_of_ends
  · intro c hc
    rw [roomPiece, List.head?_append, hd, Option.some_or, Option.some.injEq] at hc
    rw [← hc]
    exact isBlank_of_not_isSpace (isSpace_of_mem_roomIdOf (List.mem_of_head? hd))
  · -- the last character is the bracket of the tag
    intro c hc
    rw [roomPiece, ← List.cons_append, ← List.append_assoc, List.append_cons,
      List.getLast?_append] at hc
    split at hc
    · rw [show (str "[PRIVATE]").getLast? = some 93 by decide] at hc
      cases hc
      decide
    · rw [show (str "[PUBLIC]").getLast? = some 93 by decide] at hc
      cases hc
      decide

/-- The tag that is searched for behind the id of a room is the one that the server has written. -/
theorem shownType_piece {n : Nat} : shownType (leftParen :: (decimal n ++
    rightParen :: if room.isPrivate then str "[PRIVATE]" else str "[PUBLIC]")) =
      if room.isPrivate then str "PRIVATE [*]" else str "PUBLIC [+]" := by
  have hsuffix : ∀ tag : Bytes, contains tag (leftParen :: (decimal n ++ rightParen :: tag)) = true := by
    intro tag
    rw [contains_iff]
    exact ⟨leftParen :: (decimal n ++ [rightParen]), [], by simp⟩
  rw [shownType]
  cases room.isPrivate with
  | true =>
      rw [if_pos rfl, if_pos rfl, if_pos (hsuffix _)]
  | false =>
      have hnot : contains (str "[PRIVATE]")
          (leftParen :: (decimal n ++ rightParen :: str "[PUBLIC]")) = false := by
        rw [Bool.eq_false_iff, ne_eq, contains_iff]
        intro h
        -- only the other tag has an R
        have hmem : (82 : UInt8) ∈ leftParen :: (decimal n ++ rightParen :: str "[PUBLIC]") :=
          h.subset (by decide)
        rw [List.mem_cons, List.mem_append] at hmem
        rcases hmem with hmem | hmem | hmem
        · exact absurd hmem (by decide)
        · exact absurd (isDigit_of_mem_decimal hmem).2 (by decide)
        · exact absurd hmem (by decide)
      simp only [Bool.false_eq_true, if_false, hnot]
      rw [if_pos (hsuffix _)]

/-- An entry shows its room. -/
theorem shownRoom_piece : shownRoom (roomPiece (roomIdOf draw, room)) =
    .ok (some (roomShown (roomIdOf draw, room))) := by
  have hdigits : ∀ {n : Nat} {d : UInt8}, ¬(48 ≤ d ∧ d ≤ 57) → d ∉ decimal n :=
    fun hd hmem => hd (isDigit_of_mem_decimal hmem)
  have hempty : (roomPiece (roomIdOf draw, room)).isEmpty = false := by
    simp [roomPiece]
  have hopen : find (roomPiece (roomIdOf draw, room)) leftParen 0 = some (roomIdOf draw).length :=
    find_append (hdigits (by decide))
  rw [shownRoom, trimAt_eq, show trim (roomPiece (roomIdOf draw, room)) = _ from trimmed_roomPiece]
  dsimp only [bind, Except.bind]
  rw [hempty, if_neg (by decide), hopen]
  dsimp only
  rw [roomPiece, substr_append, substrFrom_append]
  dsimp only
  obtain ⟨tag, htag⟩ : ∃ tag, (if room.isPrivate then str "[PRIVATE]" else str "[PUBLIC]") = tag :=
    ⟨_, rfl⟩
  have hclose : find (leftParen :: (decimal room.getClientCount ++ rightParen :: tag)) rightParen 0 =
      some (decimal room.getClientCount).length.succ := by
    rw [← List.cons_append, find_append]
    · rfl
    · rw [List.mem_cons, not_or]
      exact ⟨by decide, hdigits (by decide)⟩
  have htype := @shownType_piece room room.getClientCount
  rw [htag] at htype ⊢
  rw [hclose, position, Option.getD_some, Nat.succ_sub_one, substr_eq_ok (by simp), List.drop_one,
    List.tail_cons, List.take_left]
  dsimp only
  rw [htype]
  rfl

/-- The entries of the rooms show the rooms. -/
theorem displayRoomsList_closed {rooms : List (Bytes × ChatRoom)}
    (hids : ∀ p ∈ rooms, ∃ draw, p.1 = roomIdOf draw) :
    displayRoomsList (closed comma (rooms.map roomPiece)) =
      .ok (if rooms = [] then .nothing else .entries (rooms.map roomShown)) := by
  by_cases hnone : rooms = []
  · subst hnone
    rfl
  · have hpiece : ∀ piece ∈ rooms.map roomPiece, comma ∉ piece ∧ piece ≠ [] := by
      intro piece hpiece
      obtain ⟨⟨r, room⟩, hp, rfl⟩ := List.mem_map.1 hpiece
      obtain ⟨draw, hr⟩ := hids _ hp
      obtain rfl : r = roomIdOf draw := hr
      exact ⟨not_mem_roomPiece (by decide) (by decide) (by decide), by simp [roomPiece]⟩
    have hlist : ¬(closed comma (rooms.map roomPiece) = [] ∨
        closed comma (rooms.map roomPiece) = [comma]) := by
      obtain ⟨p, rest, rfl⟩ := List.exists_cons_of_ne_nil hnone
      obtain ⟨c, cs, hp⟩ := List.exists_cons_of_ne_nil (hpiece _ List.mem_cons_self).2
      simp [closed, hp]
    rw [displayRoomsList, if_neg hlist, if_neg hnone, getlines_closed fun t ht => (hpiece t ht).1]
    have hall : ∀ p ∈ rooms, (shownRoom ∘ roomPiece) p = .ok (some (roomShown p)) := by
      rintro ⟨r, room⟩ hp
      obtain ⟨draw, hr⟩ := hids _ hp
      obtain rfl : r = roomIdOf draw := hr
      exact shownRoom_piece
    rw [List.mapM_map, mapM_ok hall]
    show Except.ok (Listing.entries _) = _
    rw [List.filterMap_map]
    congr 2
    exact congrFun List.filterMap_eq_map rooms

theorem mem_of_mem_toList {s : Globals} {p : Bytes × ChatRoom} (hp : p ∈ s.chatRooms.toList) :
    p.1 ∈ s.chatRooms := by
  rw [Std.ExtTreeMap.mem_iff_isSome_getElem?, Std.ExtTreeMap.mem_toList_iff_getElem?_eq_some.1 hp]
  rfl

theorem prints_roomsReply {s : Globals} (hids : ∀ r ∈ s.chatRooms, ∃ draw, r = roomIdOf draw)
    {session : Session} (hrun : session.state.shouldExit = false) :
    Prints session (roomsReply s) (.rooms (roomListing s)) := by
  have hdrawn : ∀ p ∈ s.chatRooms.toList, ∃ draw, p.1 = roomIdOf draw := fun p hp =>
    hids p.1 (mem_of_mem_toList hp)
  have hpieces : ∀ piece ∈ s.chatRooms.toList.map roomPiece, OneLine piece := by
    intro piece hpiece
    obtain ⟨⟨r, room⟩, hp, rfl⟩ := List.mem_map.1 hpiece
    obtain ⟨draw, hr⟩ := hdrawn _ hp
    obtain rfl : r = roomIdOf draw := hr
    exact not_mem_roomPiece (by decide) (by decide) (by decide)
  rw [roomsReply_eq]
  apply prints_list (by decide) (OneLine.append (by decide) (oneLine_closed hpieces))
    (trimmed_closed (by decide) (by decide) _) (by decide) hrun
  intro session' _
  rw [show responseOf (str "ROOMS_LIST:") = .roomsList by decide, respond,
    show 11 = (str "ROOMS_LIST:").length by decide, substrFrom_append]
  dsimp only [bind, Except.bind]
  rw [displayRoomsList_closed hdrawn]
  rfl

/-- **The room list round-trips.** Whatever rooms there are, LIST answers with one text, and a client that
receives it, in whatever pieces, is shown the rooms in the order of their ids, each with its id, the
number of its members and its privacy, or that there is none. -/
theorem room_list_round_trips (s : Globals) (hids : ∀ r ∈ s.chatRooms, ∃ draw, r = roomIdOf draw)
    (sock : SOCKET) (es : Nat → Env) :
    ((handleListCommand sock).run es s).2 = s.send sock (roomsReply s) ∧
    (∀ session : Session, session.state.shouldExit = false →
      Prints session (roomsReply s) (.rooms (roomListing s))) ∧
    (s.chatRooms.toList.map Prod.fst).Pairwise (fun r r' => compare r r' = .lt) ∧
    (roomListing s = .nothing ↔ ∀ r, r ∉ s.chatRooms) := by
  refine ⟨?_, fun session hrun => prints_roomsReply hids hrun, ?_, ?_⟩
  · rw [handleListCommand, critical, Prog.run_holding, step, Prog.run_block]
    rfl
  · rw [Std.ExtTreeMap.map_fst_toList_eq_keys]
    exact Std.ExtTreeMap.ordered_keys
  · rw [roomListing]
    constructor
    · intro h r hr
      split at h
      · rename_i hnone
        obtain ⟨room, hroom⟩ := Option.isSome_iff_exists.1
          (Std.ExtTreeMap.mem_iff_isSome_getElem?.1 hr)
        have hmem := Std.ExtTreeMap.mem_toList_iff_getElem?_eq_some.2 hroom
        rw [hnone] at hmem
        exact absurd hmem List.not_mem_nil
      · exact absurd h (by simp)
    · intro h
      rw [if_pos]
      rw [List.eq_nil_iff_forall_not_mem]
      exact fun p hp => h p.1 (mem_of_mem_toList hp)

/-- A private room in front of a public one that was made before it. -/
theorem room_list_round_trips_two : ∃ s : Globals,
    roomListing s = .entries [⟨str "100003", str "0", str "PRIVATE [*]"⟩,
      ⟨str "100007", str "0", str "PUBLIC [+]"⟩] ∧
    Prints { state := {} } (roomsReply s) (.rooms (roomListing s)) := by
  obtain ⟨rooms, hrooms⟩ : ∃ rooms : Std.ExtTreeMap Bytes ChatRoom, rooms =
      ((∅ : Std.ExtTreeMap Bytes ChatRoom).insert (roomIdOf 7) (.new (roomIdOf 7) false [] 4)).insert
        (roomIdOf 3) (.new (roomIdOf 3) true (str "key") 5) := ⟨_, rfl⟩
  have hids : ∀ r ∈ rooms, ∃ draw, r = roomIdOf draw := by
    intro r hr
    rw [hrooms] at hr
    simp only [Std.ExtTreeMap.mem_insert, Std.LawfulEqCmp.compare_eq_iff_eq] at hr
    rcases hr with hr | hr | hr
    · exact ⟨3, hr.symm⟩
    · exact ⟨7, hr.symm⟩
    · exact absurd hr Std.ExtTreeMap.not_mem_empty
  refine ⟨{ chatRooms := rooms }, ?_,
    (room_list_round_trips { chatRooms := rooms } hids 4 fun _ => .midnight 0).2.1 _ rfl⟩
  rw [hrooms]
  decide +kernel

end Rooms

/-! ## USERS -/

section Users

/-- What USERS sends to a client in a room with these members. -/
def usersReply (s : Globals) (members : List SOCKET) : Bytes :=
  str "USERS_LIST:" ++ userEntries s members ++ str "\n"

/-- The names of the members that have one. -/
def memberNames (s : Globals) (members : List SOCKET) : List Bytes :=
  (members.map fun t => (s.info t).username).filter fun name => name ≠ []

/-- The names that a user list shows. -/
def shownNames : Listing UserShown → List Bytes
  | .nothing => []
  | .entries l => l.map UserShown.user

/-- A client that receives the answer, in whatever pieces, is shown the names of the members that have
one, each once. -/
def UsersRoundTrip (s : Globals) (room : ChatRoom) : Prop :=
  ∀ session : Session, session.state.shouldExit = false → ∃ shown : Listing UserShown,
    Prints session (usersReply s room.clients.toList) (.users shown) ∧ (shownNames shown).Nodup ∧
      ∀ name, name ∈ shownNames shown ↔ name ≠ [] ∧ ∃ t ∈ room.clients, (s.info t).username = name

variable {s s' : Globals} {members : List SOCKET} {room : ChatRoom} {name : Bytes}

theorem userEntries_eq (s : Globals) (members : List SOCKET) :
    userEntries s members = closed comma (memberNames s members) := by
  have hcomma : str "," = [comma] := by decide
  induction members with
  | nil => rfl
  | cons t members ih =>
      have hnames : memberNames s (t :: members) =
          (if (s.info t).username = [] then [] else [(s.info t).username]) ++
            memberNames s members := by
        by_cases hname : (s.info t).username = []
        · simp [memberNames, hname]
        · simp [memberNames, hname]
      rw [userEntries] at ih
      rw [userEntries, List.flatMap_cons, ih, hnames, closed_append, Globals.info]
      congr 1
      cases s.clients[t]? with
      | none => rfl
      | some c =>
          by_cases hname : c.username = []
          · simp [hname, closed]
          · simp [hname, closed, hcomma]

theorem usersReply_eq (s : Globals) (members : List SOCKET) : usersReply s members =
    str "USERS_LIST:" ++ closed comma (memberNames s members) ++ [newline] := by
  rw [usersReply, userEntries_eq, show str "\n" = [newline] by decide]

/-- A client with a name has an entry. -/
theorem getElem?_of_info {t : SOCKET} (h : (s.info t).username ≠ []) : ∃ c, s.clients[t]? = some c := by
  rw [Globals.info] at h
  cases hc : s.clients[t]? with
  | none =>
      rw [hc] at h
      exact absurd rfl h
  | some c => exact ⟨c, rfl⟩

theorem mem_memberNames : name ∈ memberNames s members ↔
    name ≠ [] ∧ ∃ t ∈ members, (s.info t).username = name := by
  simp [memberNames, and_comm]

/-- The names that differ stand in the list once. -/
theorem nodup_memberNames (hdiffer : s.NamesDiffer) (room : ChatRoom) :
    (memberNames s room.clients.toList).Nodup := by
  have hmembers : room.clients.toList.Nodup := by
    have hdistinct := Std.ExtTreeSet.distinct_toList (t := room.clients)
    exact hdistinct.imp fun hne heq => hne (Std.LawfulEqCmp.compare_eq_iff_eq.2 heq)
  rw [memberNames, List.filter_map]
  apply List.Nodup.map_on _ (hmembers.filter _)
  intro t ht t' ht' hname
  have hne : (s.info t).username ≠ [] := by
    simpa using (List.mem_filter.1 ht).2
  have hne' : (s.info t').username ≠ [] := by
    simpa using (List.mem_filter.1 ht').2
  obtain ⟨c, hc⟩ := getElem?_of_info hne
  obtain ⟨c', hc'⟩ := getElem?_of_info hne'
  rw [info_of_getElem? hc] at hname hne
  rw [info_of_getElem? hc'] at hname
  exact hdiffer t t' c c' hc hc' hname hne

/-- The answer prints what `displayUsersList` makes of its names. -/
theorem prints_usersReply (hnames : ∀ t, NameOk (s.info t).username) (members : List SOCKET)
    {session : Session} (hrun : session.state.shouldExit = false) {shown : Listing UserShown}
    (hshown : displayUsersList (closed comma (memberNames s members)) session.state.username
      session.state.isRoomOwner = .ok shown) :
    Prints session (usersReply s members) (.users shown) := by
  have hone : ∀ name ∈ memberNames s members, OneLine name := by
    intro name hname
    obtain ⟨-, t, -, rfl⟩ := mem_memberNames.1 hname
    exact (hnames t).oneLine
  rw [usersReply_eq]
  apply prints_list (by decide) (OneLine.append (by decide) (oneLine_closed hone))
    (trimmed_closed (by decide) (by decide) _) (by decide) hrun
  intro session' hstate
  rw [show responseOf (str "USERS_LIST:") = .usersList by decide, respond,
    show 11 = (str "USERS_LIST:").length by decide, substrFrom_append, hstate]
  dsimp only [bind, Except.bind]
  rw [hshown]
  rfl

/-- A text is printed in one way. -/
theorem Prints.unique {session : Session} {text : Bytes} {x y : Shown}
    (hx : Prints session text x) (hy : Prints session text y) : x = y := by
  obtain ⟨s₁, h₁, hshown₁, -⟩ := hx [text] List.flatten_singleton
  obtain ⟨s₂, h₂, hshown₂, -⟩ := hy [text] List.flatten_singleton
  rw [h₁, Except.ok.injEq, Reception.mk.injEq] at h₂
  rw [← h₂.1, hshown₁] at hshown₂
  simpa using hshown₂

/-- The names of a user list are pieces between commas, trimmed and not empty. -/
theorem shownNames_displayUsersList {list username : Bytes} {isOwner : Bool}
    {shown : Listing UserShown} (h : displayUsersList list username isOwner = .ok shown) :
    shownNames shown = ((getlines comma list).map trim).filter fun name => name ≠ [] := by
  rw [displayUsersList] at h
  split at h
  · rename_i hlist
    rw [← Except.ok.inj h]
    rcases hlist with rfl | rfl
    · rfl
    · decide
  · rw [mapM_ok fun piece _ => shownUser_eq username isOwner piece] at h
    rw [← Except.ok.inj h]
    show ((List.map _ (getlines comma list)).filterMap id).map UserShown.user = _
    induction getlines comma list with
    | nil => rfl
    | cons piece pieces ih =>
        rw [List.map_cons, List.map_cons]
        by_cases hpiece : trim piece = []
        · simpa [hpiece] using ih
        · by_cases hyou : trim piece = username
          · subst hyou
            simpa [hpiece] using ih
          · simpa [hpiece, hyou] using ih

/-- The answer brings the names back exactly when none of them has a comma. -/
theorem usersRoundTrip_iff (hdiffer : s.NamesDiffer) (hnames : ∀ t, NameOk (s.info t).username) :
    UsersRoundTrip s room ↔ ∀ t ∈ room.clients, comma ∉ (s.info t).username := by
  have hmembers : ∀ name, name ∈ memberNames s room.clients.toList ↔
      name ≠ [] ∧ ∃ t ∈ room.clients, (s.info t).username = name := by
    intro name
    simp only [mem_memberNames, Std.ExtTreeSet.mem_toList]
  constructor
  · intro h t ht hcomma
    have hne : (s.info t).username ≠ [] := List.ne_nil_of_mem hcomma
    obtain ⟨shown, hprints, -, hall⟩ := h { state := {} } rfl
    obtain ⟨shown', hshown'⟩ := displayUsersList_ok
      (closed comma (memberNames s room.clients.toList)) [] false
    obtain rfl : shown = shown' := by
      have hsame := hprints.unique (prints_usersReply hnames room.clients.toList rfl hshown')
      simpa using hsame
    have hmem := (hall _).2 ⟨hne, t, ht, rfl⟩
    rw [shownNames_displayUsersList hshown', List.mem_filter, List.mem_map] at hmem
    obtain ⟨⟨piece, hpiece, hname⟩, -⟩ := hmem
    -- a shown name lies between two commas
    rw [← hname] at hcomma
    exact not_mem_getlines hpiece ((trim_sublist piece).subset hcomma)
  · intro h session hrun
    obtain ⟨shown, hshown⟩ := displayUsersList_ok
      (closed comma (memberNames s room.clients.toList)) session.state.username
      session.state.isRoomOwner
    have hback : shownNames shown = memberNames s room.clients.toList := by
      rw [shownNames_displayUsersList hshown, getlines_closed]
      · -- the names are trimmed and not empty
        have htrim : (memberNames s room.clients.toList).map trim =
            memberNames s room.clients.toList := by
          have hsame : ∀ name ∈ memberNames s room.clients.toList, trim name = id name := by
            intro name hname
            obtain ⟨-, t, -, rfl⟩ := mem_memberNames.1 hname
            exact (hnames t).trimmed
          rw [List.map_congr_left hsame, List.map_id]
        rw [htrim, List.filter_eq_self]
        intro name hname
        exact decide_eq_true (mem_memberNames.1 hname).1
      · intro name hname
        obtain ⟨-, t, ht, rfl⟩ := mem_memberNames.1 hname
        exact h t (Std.ExtTreeSet.mem_toList.1 ht)
    refine ⟨shown, prints_usersReply hnames _ hrun hshown, ?_, ?_⟩
    · rw [hback]
      exact nodup_memberNames hdiffer room
    · rw [hback]
      exact hmembers

/-- USERS of a client in a live room is answered with the names of the members, whatever the other threads
do meanwhile. -/
theorem wpIn_handleUsersCommand {E : Env → Prop} {sock : SOCKET} {r : Bytes} (hr : r ≠ [])
    (hplace : (s.info sock).roomId = r) (hroom : s.chatRooms[r]? = some room)
    (hmem : sock ∈ room.clients) :
    (handleUsersCommand sock).wpIn E Meanwhile
      (fun _ => Answered sock (usersReply s room.clients.toList) s) s := by
  rw [handleUsersCommand, Prog.wpIn_bind, wpIn_critical]
  intro e₁ _ s₁ h₁
  rw [post_clientInfo, h₁.backdrop.info, hplace, if_neg (by simpa using hr), Prog.wpIn_holding,
    Prog.wpIn_bind, wpIn_step]
  intro e₂ _ s₂ h₂
  -- the client is in the room, so the room is still there
  obtain ⟨history₂, hroom₂⟩ := (h₁.trans h₂).kept hroom hmem
  rw [post_roomExists, Std.ExtTreeMap.contains_eq_isSome_getElem?, hroom₂, Option.isSome_some,
    if_pos rfl, Prog.wpIn_bind, wpIn_step]
  intro e₃ _ s₃ h₃
  obtain ⟨history₃, hroom₃⟩ := ((h₁.trans h₂).trans h₃).kept hroom hmem
  rw [post_askRoom, hroom₃, Option.map_some, Option.getD_some, wpIn_critical]
  intro e₄ _ s₄ h₄
  have hm := ((h₁.trans h₂).trans h₃).trans h₄
  have hsame : userEntries s₄ room.clients.toList = userEntries s room.clients.toList := by
    rw [userEntries, userEntries, hm.backdrop.clients]
  show Answered sock _ s (s₄.send sock (str "USERS_LIST:" ++ userEntries s₄ room.clients.toList ++
    str "\n"))
  rw [hsame]
  exact hm.answered sock _

/-- **The user list round-trips, as long as no name has a comma.** USERS of a member of a live room, handled
among any steps of the other threads, is answered with one text; a client that receives it is shown the
names of the members, each once and as they are, exactly if none of them has a comma. -/
theorem user_list_round_trips_iff {m m' : Machine} (hm : Reachable anyStep m) {ev : Event}
    (hcommand : ev.command = some .users) (hh : HandlesBy anyStep m ev m') {r : Bytes}
    (hroom : m.globals.chatRooms[r]? = some room) (hmem : ev.socket ∈ room.clients) :
    Answered ev.socket (usersReply m.globals room.clients.toList) m.globals m'.globals ∧
      (UsersRoundTrip m.globals room ↔
        ∀ t ∈ room.clients, comma ∉ (m.globals.info t).username) := by
  have hidle : m.Idle := by
    obtain ⟨m₁, hstart, -⟩ := hh.steps
    exact idle_of_event hstart
  obtain ⟨hr, hplace⟩ := roomId_of_isMember hm hidle ⟨room, hroom, hmem⟩
  constructor
  · apply hh.ends_in (E := fun _ => True) hm (fun _ _ _ => trivial) fun _ _ hs h => hs.meanwhile h
    rw [handler_of_command hcommand]
    exact wpIn_handleUsersCommand hr hplace hroom hmem
  · exact usersRoundTrip_iff (namesDiffer_of_idle hm hidle) (nameOk_of_reachable hm)

/-- A client with this name makes a room, and another without a name joins it. -/
def hosting (name : Bytes) : List Label :=
  serving (.connect 4) 0 ++ serving (.receive 4 (str "/SETNAME " ++ name)) 0 ++
    serving (.receive 4 (str "/CREATE PUBLIC")) 7 ++ serving (.connect 5) 0 ++
      serving (.receive 5 (str "/JOIN 100007")) 0

/-- The room of the two, in which the first has this name. -/
def hosts (name : Bytes) (m : Machine) : Bool :=
  ((m.globals.chatRooms[str "100007"]?).any fun room => decide (room.clients.toList = [4, 5])) &&
    decide ((m.globals.info 4).username = name ∧ (m.globals.info 5).username = [])

theorem members_of_hosts {m : Machine} (h : hosts name m = true) : ∃ room : ChatRoom,
    m.globals.chatRooms[str "100007"]? = some room ∧ (∀ t, t ∈ room.clients ↔ t = 4 ∨ t = 5) ∧
      (m.globals.info 4).username = name ∧ (m.globals.info 5).username = [] := by
  simp only [hosts, Bool.and_eq_true, decide_eq_true_eq, Option.any_eq_true] at h
  obtain ⟨⟨room, hroom, hlist⟩, hname, hblank⟩ := h
  refine ⟨room, hroom, fun t => ?_, hname, hblank⟩
  rw [← Std.ExtTreeSet.mem_toList, hlist]
  simp

/-- The room of bob and a client without a name. -/
theorem user_list_round_trips_iff_bob : ∃ (m : Machine) (room : ChatRoom), Reachable anyStep m ∧
    5 ∈ room.clients ∧ (m.globals.info 4).username = str "bob" ∧ UsersRoundTrip m.globals room := by
  obtain ⟨m, m', hm, -, hh, hp⟩ := handled_of_play (hosting (str "bob"))
    (.receive 5 (str "/USERS")) 0 (fun m _ => hosts (str "bob") m) (by decide +kernel)
  obtain ⟨room, hroom, hmem, hname, hblank⟩ := members_of_hosts hp
  have hback := (user_list_round_trips_iff hm (by decide) hh hroom ((hmem 5).2 (by simp))).2
  refine ⟨m, room, hm, (hmem 5).2 (by simp), hname, hback.2 fun t ht => ?_⟩
  rcases (hmem t).1 ht with rfl | rfl
  · rw [hname]
    decide
  · rw [hblank]
    decide

/-- SETNAME accepts the name `a,b`, and USERS shows the names `a` and `b`. -/
theorem not_user_list_round_trips : ¬∀ (m m' : Machine) (ev : Event) (r : Bytes) (room : ChatRoom),
    Reachable anyStep m → m.globals.NamesDiffer → HandlesBy anyStep m ev m' →
      ev.command = some .users → m.globals.chatRooms[r]? = some room → ev.socket ∈ room.clients →
        UsersRoundTrip m.globals room := by
  intro h
  obtain ⟨m, m', hm, hidle, hh, hp⟩ := handled_of_play (hosting (str "a,b"))
    (.receive 5 (str "/USERS")) 0 (fun m _ => hosts (str "a,b") m) (by decide +kernel)
  obtain ⟨room, hroom, hmem, hname, -⟩ := members_of_hosts hp
  have hdiffer := namesDiffer_of_idle hm hidle
  have hback := h m m' _ _ room hm hdiffer hh (by decide) hroom ((hmem 5).2 (by simp))
  have hfree := (usersRoundTrip_iff hdiffer (nameOk_of_reachable hm)).1 hback 4
    ((hmem 4).2 (by simp))
  rw [hname] at hfree
  exact hfree (by decide)

end Users

end TerminalChat.System
