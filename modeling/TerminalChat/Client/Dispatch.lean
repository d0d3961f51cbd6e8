import TerminalChat.Client.Display
import TerminalChat.Client.Receiving

/-!
# The receiver with its positions

`receiveMessages` as it computes: the scan for newlines in what was received, the markers of a line, the
parts of the line that each branch takes out by their positions, and what it prints. Every `substr` may
throw; none does, whatever bytes the server sends and however they are cut.
-/

set_option autoImplicit false

namespace TerminalChat.Client

open TerminalChat.Text

/-- What `receiveMessages` prints for a line, with the parts of the line it prints. `aligned` is
`printAlignedMessage`. -/
inductive Shown where
  | welcome
  | roomCreated (roomId type : Bytes)
  | roomJoined (roomId : Bytes)
  | historyStart
  | historyEnd
  | roomNotFound
  | passwordRequired (pendingRoomJoin : Bytes)
  | wrongPassword
  | nameSet (username : Bytes)
  | nameTaken (username : Bytes)
  | rooms (shown : Listing RoomShown)
  | users (shown : Listing UserShown)
  | roomPassword (password : Bytes)
  | passwordChanged (newPassword : Bytes)
  | kicked
  | left
  | ownerLeaveWarning
  | ownershipReceived
  | success (text : Bytes)
  | aligned (message : Bytes) (alignRight : Bool)
  | error (message : Bytes)
  | system (message : Bytes)
  deriving DecidableEq

/-- What the branches of `receiveMessages` work on: the state of the client and the flag
`inMessageHistory`, and with them the trimmed lines it has gone through and what it has printed. -/
structure Session where
  state : ClientState
  inMessageHistory : Bool := false
  processed : List Bytes := []
  shown : List Shown := []
  deriving DecidableEq

/-- The session after a print. -/
def Session.print (s : Session) (x : Shown) : Session := { s with shown := s.shown ++ [x] }

/-- The session after an update of the client state. -/
def Session.set (s : Session) (f : ClientState → ClientState) : Session :=
  { s with state := f s.state }

/-- What stands between the first two colons of a line, and what follows the second. -/
def colonFields (message : Bytes) : Except Exception (Bytes × Bytes) := do
  let firstColon := position (find message colon 0)
  let secondColon := position (find message colon (sizeT ((firstColon : Int) + 1)))
  let between ← substr message (sizeT ((firstColon : Int) + 1))
    (sizeT ((secondColon : Int) - firstColon - 1))
  let behind ← substrFrom message (sizeT ((secondColon : Int) + 1))
  pure (between, behind)

/-- The branches of `receiveMessages`, on a trimmed line that is not empty. -/
def respond (message : Bytes) (s : Session) : Response → Except Exception Session
  | .welcome => pure (s.print .welcome)
  | .roomCreated => do
      let (between, behind) ← colonFields message
      let currentRoomId ← trimAt between
      let roomType ← trimAt behind
      pure ((s.set fun state => { state with
        currentRoomId := currentRoomId, inRoom := true, isRoomOwner := true }).print
          (.roomCreated currentRoomId roomType))
  | .roomJoined => do
      let currentRoomId ← substrFrom message 12
      let currentRoomId ← trimAt currentRoomId
      pure ((s.set fun state => { state with
        currentRoomId := currentRoomId, inRoom := true, isRoomOwner := false }.clearPendingJoin).print
          (.roomJoined currentRoomId))
  | .historyStart => pure ({ s with inMessageHistory := true }.print .historyStart)
  | .historyEnd => pure ({ s with inMessageHistory := false }.print .historyEnd)
  -- the client takes itself out of its room here, which the server has not done
  | .roomNotFound => pure
      ((s.set fun state => { state with inRoom := false }.clearPendingJoin).print .roomNotFound)
  | .passwordRequired => pure
      ((s.set ClientState.clearPendingJoin).print (.passwordRequired s.state.pendingRoomJoin))
  | .wrongPassword => pure ((s.set ClientState.clearPendingJoin).print .wrongPassword)
  | .nameSet => pure ((s.set fun state => { state with waitingForNameValidation := false }).print
      (.nameSet s.state.username))
  | .nameTaken => pure ((s.set fun state => { state with
      username := [], waitingForNameValidation := false }).print (.nameTaken s.state.username))
  | .roomsList => do
      let roomsList ← substrFrom message 11
      let shown ← displayRoomsList roomsList
      pure (s.print (.rooms shown))
  | .usersList => do
      let usersList ← substrFrom message 11
      let shown ← displayUsersList usersList s.state.username s.state.isRoomOwner
      pure (s.print (.users shown))
  | .roomPassword => do
      let password ← substrFrom message 14
      let password ← trimAt password
      pure (s.print (.roomPassword password))
  | .passwordChanged => do
      let newPassword ← substrFrom message 17
      let newPassword ← trimAt newPassword
      pure (s.print (.passwordChanged newPassword))
  | .kickedFromRoom => pure ((s.set ClientState.resetRoomState).print .kicked)
  | .leftRoom => pure ((s.set ClientState.resetRoomState).print .left)
  | .ownerLeaveWarning => pure
      ((s.set fun state => { state with ownerLeaveWarning := true }).print .ownerLeaveWarning)
  | .ownershipReceived => pure
      ((s.set fun state => { state with isRoomOwner := true }).print .ownershipReceived)
  | .success => do
      let text ← substrFrom message 8
      pure (s.print (.success text))
  -- tested at the beginning of the line, where the server puts a timestamp
  | .pmFrom => do
      let (sender, pmContent) ← colonFields message
      pure (s.print (.aligned (str "[PM from " ++ sender ++ str "]: " ++ pmContent) false))
  | .pmSent => do
      let (recipient, pmContent) ← colonFields message
      pure (s.print (.aligned (str "[PM to " ++ recipient ++ str "]: " ++ pmContent) true))
  | .error => pure (s.print (.error message))
  -- what is said in no room and in no history is not shown
  | .system => pure (if s.state.inRoom || s.inMessageHistory then s.print (.system message) else s)
  | .chat => pure (if s.state.inRoom || s.inMessageHistory then s.print (.aligned message false) else s)

/-- What `receiveMessages` does with a line. -/
def processLine (s : Session) (line : Bytes) : Except Exception Session := do
  let message ← trimAt line
  if message.isEmpty then pure s
  else respond message { s with processed := s.processed ++ [message] } (responseOf message)

/-- The inner loop of `receiveMessages`, from `pos` on: where it ends and what it has done. -/
def scan (receivedData : Bytes) (pos : Nat) (s : Session) : Except Exception (Nat × Session) :=
  match h : find receivedData newline pos with
  | none => pure (pos, s)
  | some newlinePos => do
      let line ← substr receivedData pos (newlinePos - pos)
      let s ← processLine s line
      scan receivedData (newlinePos + 1) s
termination_by receivedData.length - pos
decreasing_by
  have := find_bounds h
  omega

/-- The receiver thread between two calls of `recv`. -/
structure Reception where
  session : Session
  incompleteMessage : Bytes := []
  deriving DecidableEq

/-- One round of the outer loop, on the bytes that `recv` gives. -/
def Reception.receive (r : Reception) (buffer : Bytes) : Except Exception Reception := do
  let receivedData := r.incompleteMessage ++ buffer
  let (pos, session) ← scan receivedData 0 r.session
  if pos < receivedData.length then
    let incompleteMessage ← substrFrom receivedData pos
    pure ⟨session, incompleteMessage⟩
  else pure ⟨session, []⟩

/-- `BUFFER_SIZE` of `receiveMessages`. -/
def bufferSize : Nat := 4096

/-- What `recv` returns: bytes, zero when the server has closed the connection, or an error. -/
inductive Recv where
  | bytes (buffer : Bytes)
  | closed
  | failed

/-- `receiveMessages`, on what `recv` returns call after call; at the end of the list it waits for the
next call to return. -/
def receiveMessages : List Recv → Reception → Except Exception Reception
  | [], r => pure r
  | result :: results, r =>
      if r.session.state.shouldExit then pure r
      else match result with
        | .bytes buffer => do
            let r ← r.receive buffer
            receiveMessages results r
        | .closed => pure { r with
            session := r.session.set fun state => { state with shouldExit := true } }
        | .failed => pure r

/-! ## The branches -/

section Branches

variable {message line : Bytes} {s : Session} {kind : Response}

/-- A line of some kind starts with a marker of this kind. -/
theorem marker_of_responseOf (h : responseOf message = kind) (hkind : kind ≠ .chat) :
    ∃ p ∈ markers, p.2 = kind ∧ p.1 <+: message := by
  rw [responseOf] at h
  cases hfind : markers.find? fun p => startsWith p.1 message with
  | none =>
      rw [hfind] at h
      exact absurd h.symm hkind
  | some p =>
      rw [hfind] at h
      have hstart := List.find?_some hfind
      rw [startsWith, List.isPrefixOf_iff_prefix] at hstart
      exact ⟨p, List.mem_of_find?_eq_some hfind, h, hstart⟩

theorem le_length_of_responseOf {n : Nat} (h : responseOf message = kind) (hkind : kind ≠ .chat)
    (hmarkers : ∀ p ∈ markers, p.2 = kind → n ≤ p.1.length) : n ≤ message.length := by
  obtain ⟨p, hp, hpkind, hstart⟩ := marker_of_responseOf h hkind
  exact (hmarkers p hp hpkind).trans hstart.length_le

/-- The parts around the second colon are within the line, whether or not there is one. -/
theorem colonFields_ok (message : Bytes) : ∃ fields, colonFields message = .ok fields := by
  rw [colonFields, substr_eq_ok (succ_position_le message colon 0),
    substrFrom_eq_ok (succ_position_le message colon _)]
  exact ⟨_, rfl⟩

/-- A branch throws nothing, and does not end the loop. -/
theorem respond_ok (h : responseOf message = kind) (s : Session) :
    ∃ s', respond message s kind = .ok s' ∧ s'.processed = s.processed ∧
      s'.state.shouldExit = s.state.shouldExit := by
  obtain ⟨fields, hfields⟩ := colonFields_ok message
  cases kind with
  | roomCreated =>
      rw [respond, hfields]
      dsimp only [bind, Except.bind]
      rw [trimAt_eq, trimAt_eq]
      exact ⟨_, rfl, rfl, rfl⟩
  | roomJoined =>
      rw [respond, substrFrom_eq_ok (le_length_of_responseOf h (by decide) (by decide))]
      dsimp only [bind, Except.bind]
      rw [trimAt_eq]
      exact ⟨_, rfl, rfl, rfl⟩
  | roomsList =>
      rw [respond, substrFrom_eq_ok (le_length_of_responseOf h (by decide) (by decide))]
      dsimp only [bind, Except.bind]
      obtain ⟨shown, hshown⟩ := displayRoomsList_ok (message.drop 11)
      rw [hshown]
      exact ⟨_, rfl, rfl, rfl⟩
  | usersList =>
      rw [respond, substrFrom_eq_ok (le_length_of_responseOf h (by decide) (by decide))]
      dsimp only [bind, Except.bind]
      obtain ⟨shown, hshown⟩ :=
        displayUsersList_ok (message.drop 11) s.state.username s.state.isRoomOwner
      rw [hshown]
      exact ⟨_, rfl, rfl, rfl⟩
  | roomPassword =>
      rw [respond, substrFrom_eq_ok (le_length_of_responseOf h (by decide) (by decide))]
      dsimp only [bind, Except.bind]
      rw [trimAt_eq]
      exact ⟨_, rfl, rfl, rfl⟩
  | passwordChanged =>
      rw [respond, substrFrom_eq_ok (le_length_of_responseOf h (by decide) (by decide))]
      dsimp only [bind, Except.bind]
      rw [trimAt_eq]
      exact ⟨_, rfl, rfl, rfl⟩
  | success =>
      rw [respond, substrFrom_eq_ok (le_length_of_responseOf h (by decide) (by decide))]
      exact ⟨_, rfl, rfl, rfl⟩
  | pmFrom =>
      rw [respond, hfields]
      exact ⟨_, rfl, rfl, rfl⟩
  | pmSent =>
      rw [respond, hfields]
      exact ⟨_, rfl, rfl, rfl⟩
  | system =>
      refine ⟨_, rfl, ?_, ?_⟩ <;> split <;> rfl
  | chat =>
      refine ⟨_, rfl, ?_, ?_⟩ <;> split <;> rfl
  | _ => exact ⟨_, rfl, rfl, rfl⟩

/-- The trimmed line that a line adds to those gone through, when it is not empty. -/
def processedLine (line : Bytes) : Option Bytes :=
  if (trim line).isEmpty then none else some (trim line)

theorem filterMap_processedLine (lines : List Bytes) :
    lines.filterMap processedLine = (lines.map trim).filter fun m => m ≠ [] := by
  induction lines with
  | nil => rfl
  | cons line lines ih =>
      rw [List.filterMap_cons, List.map_cons, ih, processedLine]
      by_cases hempty : trim line = []
      · simp [hempty]
      · simp [hempty]

theorem processLine_ok (line : Bytes) (s : Session) :
    ∃ s', processLine s line = .ok s' ∧
      s'.processed = s.processed ++ (processedLine line).toList ∧
      s'.state.shouldExit = s.state.shouldExit := by
  rw [processLine, trimAt_eq, processedLine]
  dsimp only [bind, Except.bind]
  by_cases hempty : (trim line).isEmpty = true
  · rw [if_pos hempty, if_pos hempty]
    exact ⟨s, rfl, (List.append_nil _).symm, rfl⟩
  · rw [if_neg hempty, if_neg hempty]
    exact respond_ok rfl _

/-- Lines are gone through in order. -/
theorem foldlM_processLine_ok : ∀ (lines : List Bytes) (s : Session),
    ∃ s', lines.foldlM processLine s = .ok s' ∧
      s'.processed = s.processed ++ lines.filterMap processedLine ∧
      s'.state.shouldExit = s.state.shouldExit
  | [], s => ⟨s, rfl, (List.append_nil _).symm, rfl⟩
  | line :: lines, s => by
      obtain ⟨s₁, h₁, hprocessed₁, hexit₁⟩ := processLine_ok line s
      obtain ⟨s₂, h₂, hprocessed₂, hexit₂⟩ := foldlM_processLine_ok lines s₁
      refine ⟨s₂, ?_, ?_, hexit₂.trans hexit₁⟩
      · rw [List.foldlM_cons, h₁]
        exact h₂
      · rw [hprocessed₂, hprocessed₁, List.append_assoc, List.filterMap_cons]
        cases processedLine line <;> rfl

end Branches

/-! ## The loops -/

/-- From a position on, the scan goes through the lines that are closed and ends where the last of them
does. -/
theorem scan_eq (receivedData : Bytes) : ∀ (n pos : Nat) (s : Session),
    receivedData.length - pos = n → pos ≤ receivedData.length → scan receivedData pos s =
      ((messagesOf newline (receivedData.drop pos)).1.foldlM processLine s).map fun s' =>
        (receivedData.length - (messagesOf newline (receivedData.drop pos)).2.length, s') := by
  intro n
  induction n using Nat.strong_induction_on with
  | _ n ih =>
      intro pos s hn hpos
      rw [scan]
      split
      · rename_i h
        rw [messagesOf_of_not_mem (find_eq_none_iff.1 h), List.length_drop,
          Nat.sub_sub_self hpos]
        rfl
      · rename_i newlinePos h
        obtain ⟨u, v, hsplit, hu, rfl⟩ := find_eq_some_iff.1 h
        have hlen := congrArg List.length hsplit
        rw [List.length_drop, List.length_append, List.length_cons] at hlen
        have hrest : receivedData.drop (pos + u.length + 1) = v := by
          rw [Nat.add_assoc, ← List.drop_drop, hsplit]
          simp
        obtain ⟨s₁, hline, -⟩ := processLine_ok u s
        rw [substr_eq_ok hpos, hsplit, Nat.add_sub_cancel_left, List.take_left]
        dsimp only [bind, Except.bind]
        rw [hline]
        dsimp only
        rw [ih (receivedData.length - (pos + u.length + 1)) (by omega) _ s₁ rfl (by omega), hrest,
          messagesOf_closed hu, List.foldlM_cons, hline]
        rfl

/-- A round goes through the closed lines of what is there, and keeps the rest. -/
theorem Reception.receive_eq (r : Reception) (buffer : Bytes) : r.receive buffer =
    ((messagesOf newline (r.incompleteMessage ++ buffer)).1.foldlM processLine r.session).map
      fun s => ⟨s, (messagesOf newline (r.incompleteMessage ++ buffer)).2⟩ := by
  obtain ⟨data, hdata⟩ : ∃ data, r.incompleteMessage ++ buffer = data := ⟨_, rfl⟩
  have hsplit := closed_messagesOf newline data
  obtain ⟨s, hs, -⟩ := foldlM_processLine_ok (messagesOf newline data).1 r.session
  have hlen := congrArg List.length hsplit
  rw [List.length_append] at hlen
  rw [receive, hdata, scan_eq data _ 0 r.session rfl (Nat.zero_le _), List.drop_zero, hs]
  dsimp only [bind, Except.bind, Except.map]
  by_cases hrest : (messagesOf newline data).2 = []
  · rw [hrest, List.length_nil, Nat.sub_zero, if_neg (Nat.lt_irrefl _)]
    rfl
  · have hpos := List.length_pos_of_ne_nil hrest
    have hfront : data.length - (messagesOf newline data).2.length =
        (closed newline (messagesOf newline data).1).length := by omega
    have hdrop : data.drop (closed newline (messagesOf newline data).1).length =
        (messagesOf newline data).2 := by
      calc data.drop (closed newline (messagesOf newline data).1).length
          = (closed newline (messagesOf newline data).1 ++ (messagesOf newline data).2).drop
              (closed newline (messagesOf newline data).1).length := by rw [hsplit]
        _ = (messagesOf newline data).2 := List.drop_left
    rw [hfront]
    rw [if_pos (by omega), substrFrom_eq_ok (by omega), hdrop]
    rfl

/-- A round throws nothing and does not end the loop. -/
theorem Reception.receive_ok (r : Reception) (buffer : Bytes) : ∃ r', r.receive buffer = .ok r' ∧
    r'.session.state.shouldExit = r.session.state.shouldExit := by
  obtain ⟨s, hs, -, hexit⟩ := foldlM_processLine_ok
    (messagesOf newline (r.incompleteMessage ++ buffer)).1 r.session
  rw [receive_eq, hs]
  exact ⟨_, rfl, hexit⟩

/-- Two rounds are one round on the bytes of both. -/
theorem Reception.receive_append {r r' : Reception} {buffer : Bytes} (h : r.receive buffer = .ok r')
    (more : Bytes) : r.receive (buffer ++ more) = r'.receive more := by
  obtain ⟨s, hs, -⟩ := foldlM_processLine_ok
    (messagesOf newline (r.incompleteMessage ++ buffer)).1 r.session
  rw [receive_eq, hs, Except.map, Except.ok.injEq] at h
  subst h
  rw [receive_eq, receive_eq, ← List.append_assoc, messagesOf_append (r.incompleteMessage ++ buffer),
    List.foldlM_append, hs]
  rfl

/-! ## The decoded lines -/

section Decoded

variable {message line : Bytes} {s s' : Session}

/-- The parts that the positions give are those around the first two colons, on a line whose positions
are all below `npos`. -/
theorem colonFields_eq (hcolon : colon ∈ message) (hlen : message.length ≤ npos) :
    colonFields message = .ok (pmFields message) := by
  obtain ⟨u, v, rfl, hu⟩ := List.eq_append_cons_of_mem hcolon
  rw [List.length_append, List.length_cons, npos] at hlen
  have hfirst : sizeT ((u.length : Int) + 1) = u.length + 1 := sizeT_of_lt (n := u.length + 1) (by omega)
  have hbehind : (u ++ colon :: v).drop (u.length + 1) = v := by simp
  have hroom : u.length + 1 ≤ (u ++ colon :: v).length := by simp
  rw [colonFields, find_append hu, position, Option.getD_some, hfirst, substr_eq_ok hroom, hbehind,
    pmFields, dropWhile_ne_append hu, List.drop_one, List.tail_cons]
  dsimp only [bind, Except.bind]
  by_cases hv : colon ∈ v
  · obtain ⟨a, b, rfl, ha⟩ := List.eq_append_cons_of_mem hv
    rw [List.length_append, List.length_cons] at hlen
    have hsecond : find (u ++ colon :: (a ++ colon :: b)) colon (u.length + 1) =
        some (u.length + 1 + a.length) := find_eq_some_iff.2 ⟨a, b, hbehind, ha, rfl⟩
    have hcount : sizeT (((u.length + 1 + a.length : Nat) : Int) - u.length - 1) = a.length := by
      rw [sizeT]
      omega
    have hnext : sizeT (((u.length + 1 + a.length : Nat) : Int) + 1) =
        u.length + 1 + (a.length + 1) := by
      rw [sizeT]
      omega
    rw [hsecond, position, Option.getD_some, hcount, hnext, substrFrom_eq_ok (by simp; omega),
      ← List.drop_drop, hbehind, List.take_left, takeWhile_ne_append ha, if_pos (by simp),
      dropWhile_ne_append ha]
    simp [pure, Except.pure]
  · have hsecond : find (u ++ colon :: v) colon (u.length + 1) = none := by
      rw [find_eq_none_iff, hbehind]
      exact hv
    have hcount : v.length ≤ sizeT ((npos : Int) - u.length - 1) := by
      rw [sizeT, npos]
      omega
    have hall : v.takeWhile (fun c => c != colon) = v := by
      rw [List.takeWhile_eq_self_iff]
      intro c hc
      rw [bne_iff_ne]
      rintro rfl
      exact hv hc
    rw [hsecond, position, Option.getD_none, sizeT_npos, substrFrom_eq_ok (Nat.zero_le _),
      List.take_of_length_le hcount, hall, if_neg hv]
    rfl

theorem colon_mem_of_responseOf {kind : Response} (h : responseOf message = kind)
    (hkind : kind ≠ .chat) (hmarkers : ∀ p ∈ markers, p.2 = kind → colon ∈ p.1) :
    colon ∈ message := by
  obtain ⟨p, hp, hpkind, hstart⟩ := marker_of_responseOf h hkind
  exact hstart.subset (hmarkers p hp hpkind)

/-- What a branch does to the state of the client. -/
theorem state_respond {kind : Response} (h : responseOf message = kind) (hlen : message.length ≤ npos)
    (hs : respond message s kind = .ok s') : s'.state = handleResponse message s.state kind := by
  cases kind with
  | roomCreated =>
      rw [respond, colonFields_eq (colon_mem_of_responseOf h (by decide) (by decide)) hlen] at hs
      dsimp only [bind, Except.bind] at hs
      rw [trimAt_eq, trimAt_eq] at hs
      cases hs
      rfl
  | roomJoined =>
      rw [respond, substrFrom_eq_ok (le_length_of_responseOf h (by decide) (by decide))] at hs
      dsimp only [bind, Except.bind] at hs
      rw [trimAt_eq] at hs
      cases hs
      rfl
  | roomsList =>
      rw [respond, substrFrom_eq_ok (le_length_of_responseOf h (by decide) (by decide))] at hs
      dsimp only [bind, Except.bind] at hs
      obtain ⟨shown, hshown⟩ := displayRoomsList_ok (message.drop 11)
      rw [hshown] at hs
      cases hs
      rfl
  | usersList =>
      rw [respond, substrFrom_eq_ok (le_length_of_responseOf h (by decide) (by decide))] at hs
      dsimp only [bind, Except.bind] at hs
      obtain ⟨shown, hshown⟩ :=
        displayUsersList_ok (message.drop 11) s.state.username s.state.isRoomOwner
      rw [hshown] at hs
      cases hs
      rfl
  | roomPassword =>
      rw [respond, substrFrom_eq_ok (le_length_of_responseOf h (by decide) (by decide))] at hs
      dsimp only [bind, Except.bind] at hs
      rw [trimAt_eq] at hs
      cases hs
      rfl
  | passwordChanged =>
      rw [respond, substrFrom_eq_ok (le_length_of_responseOf h (by decide) (by decide))] at hs
      dsimp only [bind, Except.bind] at hs
      rw [trimAt_eq] at hs
      cases hs
      rfl
  | success =>
      rw [respond, substrFrom_eq_ok (le_length_of_responseOf h (by decide) (by decide))] at hs
      cases hs
      rfl
  | pmFrom =>
      rw [respond, colonFields_eq (colon_mem_of_responseOf h (by decide) (by decide)) hlen] at hs
      cases hs
      rfl
  | pmSent =>
      rw [respond, colonFields_eq (colon_mem_of_responseOf h (by decide) (by decide)) hlen] at hs
      cases hs
      rfl
  | system =>
      rw [respond, pure, Applicative.toPure, Monad.toApplicative] at hs
      cases hs
      split <;> rfl
  | chat =>
      cases hs
      split <;> rfl
  | _ =>
      cases hs
      rfl

/-- A line that is shorter than `npos` leaves the state that `receiveLine` leaves. -/
theorem state_processLine (hlen : line.length ≤ npos) (hs : processLine s line = .ok s') :
    s'.state = receiveLine line s.state := by
  rw [processLine, trimAt_eq] at hs
  dsimp only [bind, Except.bind] at hs
  rw [receiveLine]
  by_cases hempty : (trim line).isEmpty = true
  · rw [if_pos hempty] at hs ⊢
    cases hs
    rfl
  · rw [if_neg hempty] at hs ⊢
    exact state_respond (s := { s with processed := s.processed ++ [trim line] }) rfl
      ((length_trim_le line).trans hlen) hs

/-- The decoded lines of a round, and the state they leave. -/
theorem state_foldlM_processLine : ∀ {lines : List Bytes} {s s' : Session},
    (∀ line ∈ lines, line.length ≤ npos) → lines.foldlM processLine s = .ok s' →
      s'.state = lines.foldl (fun state line => receiveLine line state) s.state
  | [], s, s', _, hs => by
      cases hs
      rfl
  | line :: lines, s, s', hlen, hs => by
      obtain ⟨s₁, h₁, -⟩ := processLine_ok line s
      rw [List.foldlM_cons, h₁] at hs
      rw [List.foldl_cons, ← state_processLine (hlen line List.mem_cons_self) h₁]
      exact state_foldlM_processLine (fun l hl => hlen l (List.mem_cons_of_mem line hl)) hs

/-- **The receiver with its positions is the receiver.** On what fits into a string, a round keeps the
same rest, leaves the same state, and goes through the lines that are decoded. -/
theorem Reception.receive_eq_receiver {r r' : Reception} {buffer : Bytes}
    (hlen : (r.incompleteMessage ++ buffer).length ≤ npos) (hr : r.receive buffer = .ok r') :
    r'.session.state = (Receiver.receive ⟨r.session.state, r.incompleteMessage, []⟩ buffer).state ∧
    r'.incompleteMessage =
      (Receiver.receive ⟨r.session.state, r.incompleteMessage, []⟩ buffer).incompleteMessage ∧
    r'.session.processed = r.session.processed ++
      (Receiver.receive ⟨r.session.state, r.incompleteMessage, []⟩ buffer).decoded.map Prod.snd := by
  obtain ⟨data, hdata⟩ : ∃ data, r.incompleteMessage ++ buffer = data := ⟨_, rfl⟩
  obtain ⟨s, hs, hprocessed, -⟩ := foldlM_processLine_ok (messagesOf newline data).1 r.session
  rw [Reception.receive_eq, hdata, hs] at hr
  cases hr
  have hshort : ∀ line ∈ (messagesOf newline data).1, line.length ≤ npos := by
    intro line hline
    have hle := length_le_closed newline hline
    have hwhole := congrArg List.length (closed_messagesOf newline data)
    rw [List.length_append] at hwhole
    rw [hdata] at hlen
    omega
  refine ⟨?_, ?_, ?_⟩
  · rw [Receiver.receive, hdata]
    exact state_foldlM_processLine hshort hs
  · rw [Receiver.receive, hdata]
  · rw [Receiver.receive, hdata, List.nil_append, hprocessed, List.map_filterMap]
    congr 2
    funext line
    rw [processedLine, decodeLine]
    split <;> rfl

end Decoded

/-- Rounds on the chunks of a stream do what one round on the stream does. -/
theorem receiveMessages_chunks (results : List Recv) {r₀ : Reception} :
    ∀ (chunks : List Bytes) (buffer : Bytes) (r : Reception), r₀.receive buffer = .ok r →
      r.session.state.shouldExit = false →
      ∃ r', r₀.receive (buffer ++ chunks.flatten) = .ok r' ∧
        receiveMessages (chunks.map .bytes ++ results) r = receiveMessages results r' := by
  intro chunks
  induction chunks with
  | nil =>
      intro buffer r hr hexit
      refine ⟨r, ?_, rfl⟩
      rw [List.flatten_nil, List.append_nil]
      exact hr
  | cons chunk chunks ih =>
      intro buffer r hr hexit
      obtain ⟨r₁, hr₁, hexit₁⟩ := r.receive_ok chunk
      obtain ⟨r', hr', hloop⟩ := ih (buffer ++ chunk) r₁
        ((Reception.receive_append hr chunk).trans hr₁) (hexit₁.trans hexit)
      refine ⟨r', ?_, ?_⟩
      · rw [List.flatten_cons, ← List.append_assoc]
        exact hr'
      · rw [List.map_cons, List.cons_append, receiveMessages, if_neg (by simp [hexit])]
        dsimp only [bind, Except.bind]
        rw [hr₁]
        exact hloop

/-- The closed messages and the rest are what splitting at the separator gives. -/
theorem splitOn_eq_messagesOf {sep : UInt8} (stream : Bytes) :
    stream.splitOn sep = (messagesOf sep stream).1 ++ [(messagesOf sep stream).2] := by
  induction stream with
  | nil => rfl
  | cons c stream ih =>
      rw [List.splitOn_cons_eq_if_modifyHead, messagesOf]
      by_cases hc : c = sep
      · rw [if_pos (beq_iff_eq.2 hc), if_pos hc, ih]
        rfl
      · rw [if_neg (by simpa using hc), if_neg hc, ih]
        cases (messagesOf sep stream).1 with
        | nil => rfl
        | cons m ms => rfl

/-- **The lines of the client do not depend on how the stream is cut.** On any stream there is one session
that `receiveMessages` comes to however `recv` cuts the stream: its lines are those between the
newlines of the stream, trimmed, without the empty ones, and it keeps what follows the last newline. -/
theorem lines_independent_of_chunks (stream : Bytes) {state : ClientState}
    (hrun : state.shouldExit = false) :
    ∃ r : Reception,
      r.session.processed = ((stream.splitOn newline).dropLast.map trim).filter (fun m => m ≠ []) ∧
      (stream.splitOn newline).getLast? = some r.incompleteMessage ∧
      ∀ (chunks : List Bytes) (results : List Recv), Cuts (bufferSize - 1) stream chunks →
        receiveMessages (chunks.map .bytes ++ results) ⟨{ state := state }, []⟩ =
          receiveMessages results r := by
  obtain ⟨s, hs, hprocessed, -⟩ :=
    foldlM_processLine_ok (messagesOf newline stream).1 { state := state }
  have hstart : Reception.receive ⟨{ state := state }, []⟩ [] = .ok ⟨{ state := state }, []⟩ := by
    rw [Reception.receive_eq]
    rfl
  have hwhole : Reception.receive ⟨{ state := state }, []⟩ stream =
      .ok ⟨s, (messagesOf newline stream).2⟩ := by
    rw [Reception.receive_eq, List.nil_append, hs]
    rfl
  refine ⟨⟨s, (messagesOf newline stream).2⟩, ?_, ?_, ?_⟩
  · rw [hprocessed, splitOn_eq_messagesOf, List.dropLast_concat, List.nil_append,
      filterMap_processedLine]
  · rw [splitOn_eq_messagesOf, List.getLast?_concat]
  · intro chunks results hcuts
    obtain ⟨r', hr', hloop⟩ := receiveMessages_chunks results chunks [] _ hstart hrun
    rw [List.nil_append, hcuts.whole, hwhole, Except.ok.injEq] at hr'
    rw [hloop, ← hr']

/-- A cut between the carriage return and the newline of a line. -/
theorem lines_independent_of_chunks_crlf : ∃ r : Reception,
    r.session.processed = [str "NAME_SET"] ∧ r.incompleteMessage = str "ROOM" ∧
      receiveMessages ([str "NAME_SET\r", str "\nROOM"].map .bytes ++ []) ⟨{ state := {} }, []⟩ =
        receiveMessages [] r := by
  obtain ⟨r, hprocessed, hrest, hcuts⟩ :=
    @lines_independent_of_chunks (str "NAME_SET\r\nROOM") {} rfl
  refine ⟨r, hprocessed.trans (by decide), ?_, hcuts _ _ ⟨by decide, by decide, by decide⟩⟩
  rw [← Option.some.injEq, ← hrest]
  decide

/-- **The receiver never throws.** -/
theorem receiveMessages_ok : ∀ (results : List Recv) (r : Reception),
    ∃ r', receiveMessages results r = .ok r'
  | [], r => ⟨r, rfl⟩
  | .bytes buffer :: results, r => by
      rw [receiveMessages]
      split
      · exact ⟨r, rfl⟩
      · obtain ⟨r₁, hr₁, -⟩ := r.receive_ok buffer
        obtain ⟨r', hr'⟩ := receiveMessages_ok results r₁
        refine ⟨r', ?_⟩
        dsimp only [bind, Except.bind]
        rw [hr₁]
        exact hr'
  | .closed :: results, r => by
      rw [receiveMessages]
      split
      · exact ⟨r, rfl⟩
      · exact ⟨_, rfl⟩
  | .failed :: results, r => by
      rw [receiveMessages]
      split
      · exact ⟨r, rfl⟩
      · exact ⟨r, rfl⟩

end TerminalChat.Client
