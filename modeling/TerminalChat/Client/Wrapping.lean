import Mathlib
import TerminalChat.Text.Positions

/-!
# Wrapped messages

`printAlignedMessage` breaks a message that is wider than the console into lines. A line ends at the last
space that is not behind the limit, or at the limit when there is no space behind the start of the line; a
space at the break is not printed.
-/

set_option autoImplicit false

namespace TerminalChat.Client

open TerminalChat.Text

/-- `maxMessageWidth`: the width of the console without a margin, and 20 at least. -/
def maxMessageWidth (consoleWidth : Int) : Nat :=
  if consoleWidth - 10 < 20 then 20 else (consoleWidth - 10).toNat

/-- Where the line from `pos` on ends. -/
def breakPos (msg : Bytes) (width pos : Nat) : Nat :=
  let endPos := pos + width
  if endPos ≥ msg.length then msg.length
  else match rfind msg space endPos with
    | some spacePos => if spacePos > pos then spacePos else endPos
    | none => endPos

/-- Where the next line starts: a space at the break is skipped. -/
def skipSpace (msg : Bytes) (pos : Nat) : Nat :=
  if pos < msg.length ∧ msg[pos]? = some space then pos + 1 else pos

section Break

variable {msg : Bytes} {width pos : Nat}

theorem twenty_le_maxMessageWidth (consoleWidth : Int) : 20 ≤ maxMessageWidth consoleWidth := by
  rw [maxMessageWidth]
  split
  · exact Nat.le_refl 20
  · omega

/-- A line makes progress, stays in the message and is no wider than the limit. -/
theorem breakPos_bounds (hwidth : 0 < width) (hpos : pos < msg.length) :
    pos < breakPos msg width pos ∧ breakPos msg width pos ≤ msg.length ∧
      breakPos msg width pos ≤ pos + width := by
  rw [breakPos]
  by_cases hend : pos + width ≥ msg.length
  · rw [if_pos hend]
    omega
  · rw [if_neg hend]
    cases hspace : rfind msg space (pos + width) with
    | none =>
        dsimp only
        omega
    | some spacePos =>
        -- a blank at `pos` itself would give an empty line, so the line is cut at the width
        have hle := (rfind_bounds hspace).1
        dsimp only
        split
        · omega
        · omega

theorem le_skipSpace (msg : Bytes) (pos : Nat) : pos ≤ skipSpace msg pos := by
  rw [skipSpace]
  split
  · exact Nat.le_succ pos
  · exact Nat.le_refl pos

/-- What is skipped at a break is nothing or one space. -/
theorem drop_eq_skipSpace (msg : Bytes) (pos : Nat) : msg.drop pos = msg.drop (skipSpace msg pos) ∨
    msg.drop pos = space :: msg.drop (skipSpace msg pos) := by
  rw [skipSpace]
  split
  · rename_i h
    obtain ⟨hlt, hspace⟩ := h
    rw [List.getElem?_eq_getElem hlt, Option.some.injEq] at hspace
    exact Or.inr (by rw [List.drop_eq_getElem_cons hlt, hspace])
  · exact Or.inl rfl

theorem skipSpace_le (h : pos ≤ msg.length) : skipSpace msg pos ≤ msg.length := by
  rw [skipSpace]
  split
  · omega
  · exact h

end Break

/-- The loop of `printAlignedMessage`: the lines from `pos` on. -/
def wrapLines (consoleWidth : Int) (msg : Bytes) (pos : Nat) : Except Exception (List Bytes) :=
  if _ : pos < msg.length then do
    -- `endPos` of the source, then one blank behind it is skipped
    let endPos := breakPos msg (maxMessageWidth consoleWidth) pos
    let line ← substr msg pos (endPos - pos)
    let lines ← wrapLines consoleWidth msg (skipSpace msg endPos)
    pure (line :: lines)
  else pure []
termination_by msg.length - pos
decreasing_by
  have hwidth := twenty_le_maxMessageWidth consoleWidth
  have hpos : pos < msg.length := by assumption
  have hbreak := @breakPos_bounds msg (maxMessageWidth consoleWidth) pos (by omega) hpos
  have hskip := le_skipSpace msg (breakPos msg (maxMessageWidth consoleWidth) pos)
  omega

/-- The lines that `printAlignedMessage` prints, without their padding. -/
def alignedLines (consoleWidth : Int) (message : Bytes) : Except Exception (List Bytes) :=
  if message.length > maxMessageWidth consoleWidth then wrapLines consoleWidth message 0
  else pure [message]

/-- A line with its padding. The padding is computed in `size_t` and stored in an `int`. -/
def alignedText (consoleWidth : Int) (alignRight : Bool) (line : Bytes) : Bytes :=
  if alignRight then
    let padding := Int.bmod (consoleWidth - line.length - 2) (2 ^ 32)
    if padding > 0 then List.replicate padding.toNat space ++ line else line
  else str "  " ++ line

/-- `printAlignedMessage`. -/
def printAlignedMessage (consoleWidth : Int) (message : Bytes) (alignRight : Bool) :
    Except Exception Bytes := do
  let lines ← alignedLines consoleWidth message
  pure (lines.flatMap fun line => alignedText consoleWidth alignRight line ++ [newline])

/-- The text is the lines in order, with at most one space more behind each of them. -/
inductive Rejoined : List Bytes → Bytes → Prop where
  | nil : Rejoined [] []
  | joined {lines : List Bytes} {rest : Bytes} (line : Bytes) :
      Rejoined lines rest → Rejoined (line :: lines) (line ++ rest)
  | spaced {lines : List Bytes} {rest : Bytes} (line : Bytes) :
      Rejoined lines rest → Rejoined (line :: lines) (line ++ space :: rest)

/-- From any position the loop ends, with lines that are not empty and fit, and that make up the rest of
the message. -/
theorem wrapLines_ok (consoleWidth : Int) (msg : Bytes) : ∀ (n pos : Nat), msg.length - pos = n →
    pos ≤ msg.length → ∃ lines, wrapLines consoleWidth msg pos = .ok lines ∧
      (∀ line ∈ lines, line ≠ [] ∧ line.length ≤ maxMessageWidth consoleWidth) ∧
      Rejoined lines (msg.drop pos) := by
  intro n
  induction n using Nat.strong_induction_on with
  | _ n ih =>
      intro pos hn hpos
      rw [wrapLines]
      by_cases h : pos < msg.length
      · have hwidth := twenty_le_maxMessageWidth consoleWidth
        obtain ⟨endPos, hend⟩ :
            ∃ endPos, breakPos msg (maxMessageWidth consoleWidth) pos = endPos := ⟨_, rfl⟩
        have hbreak := @breakPos_bounds msg (maxMessageWidth consoleWidth) pos (by omega) h
        rw [hend] at hbreak
        obtain ⟨hprogress, hinside, hfits⟩ := hbreak
        have hskip := le_skipSpace msg endPos
        obtain ⟨lines, hlines, hall, hrejoined⟩ := ih (msg.length - skipSpace msg endPos) (by omega)
          (skipSpace msg endPos) rfl (skipSpace_le hinside)
        -- the line is what stands between the position and the break
        have hline : ((msg.drop pos).take (endPos - pos)).length = endPos - pos := by
          rw [List.length_take, List.length_drop]
          omega
        have hsplit : msg.drop pos = (msg.drop pos).take (endPos - pos) ++ msg.drop endPos := by
          conv_lhs => rw [← List.take_append_drop (endPos - pos) (msg.drop pos)]
          rw [List.drop_drop, Nat.add_sub_cancel' (Nat.le_of_lt hprogress)]
        refine ⟨(msg.drop pos).take (endPos - pos) :: lines, ?_, ?_, ?_⟩
        · rw [dif_pos h, hend]
          dsimp only
          rw [substr_eq_ok hpos]
          dsimp only [bind, Except.bind]
          rw [hlines]
          rfl
        · intro line hmem
          rcases List.mem_cons.1 hmem with rfl | hmem
          · constructor
            · apply List.ne_nil_of_length_pos
              omega
            · omega
          · exact hall line hmem
        · rw [hsplit, List.take_left' hline]
          rcases drop_eq_skipSpace msg endPos with hnone | hone
          · rw [hnone]
            exact .joined _ hrejoined
          · rw [hone]
            exact .spaced _ hrejoined
      · refine ⟨[], by rw [dif_neg h]; rfl, fun line hmem => absurd hmem List.not_mem_nil, ?_⟩
        rw [List.drop_of_length_le (Nat.le_of_not_lt h)]
        exact .nil

/-- Nothing is taken out of a message beyond its end. -/
theorem printAlignedMessage_ok (consoleWidth : Int) (message : Bytes) (alignRight : Bool) :
    ∃ text, printAlignedMessage consoleWidth message alignRight = .ok text := by
  rw [printAlignedMessage, alignedLines]
  split
  · obtain ⟨lines, hlines, -⟩ := wrapLines_ok consoleWidth message _ 0 rfl (Nat.zero_le _)
    rw [hlines]
    exact ⟨_, rfl⟩
  · exact ⟨_, rfl⟩

theorem maxMessageWidth_eq (consoleWidth : Int) :
    (maxMessageWidth consoleWidth : Int) = max (consoleWidth - 10) 20 := by
  rw [maxMessageWidth]
  split
  · omega
  · omega

/-- **Word wrapping ends and loses nothing.** A message that is not empty is printed in lines that are not
empty and no longer than the limit, and it is these lines with at most one space behind each. -/
theorem wrapping_lossless (consoleWidth : Int) {message : Bytes} (hmessage : message ≠ [])
    (alignRight : Bool) :
    ∃ lines, alignedLines consoleWidth message = .ok lines ∧
      printAlignedMessage consoleWidth message alignRight = .ok
        (lines.flatMap fun line => alignedText consoleWidth alignRight line ++ [newline]) ∧
      (∀ line ∈ lines, line ≠ [] ∧ (line.length : Int) ≤ max (consoleWidth - 10) 20) ∧
      Rejoined lines message := by
  have hlines : ∃ lines, alignedLines consoleWidth message = .ok lines ∧
      (∀ line ∈ lines, line ≠ [] ∧ line.length ≤ maxMessageWidth consoleWidth) ∧
      Rejoined lines message := by
    rw [alignedLines]
    split
    · exact wrapLines_ok consoleWidth message _ 0 rfl (Nat.zero_le _)
    · -- a message that fits is its own only line
      rename_i hshort
      refine ⟨[message], rfl, ?_, ?_⟩
      · intro line hmem
        rw [List.mem_singleton.1 hmem]
        exact ⟨hmessage, Nat.le_of_not_lt hshort⟩
      · have hone : Rejoined [message] (message ++ []) := .joined message .nil
        rwa [List.append_nil] at hone
  obtain ⟨lines, hok, hall, hrejoined⟩ := hlines
  refine ⟨lines, hok, ?_, ?_, hrejoined⟩
  · rw [printAlignedMessage, hok]
    rfl
  · intro line hmem
    obtain ⟨hne, hle⟩ := hall line hmem
    rw [← maxMessageWidth_eq]
    exact ⟨hne, Int.ofNat_le.2 hle⟩

/-- A space exactly at the limit, and a word that is longer than the limit. -/
theorem wrapping_lossless_long_word : ∃ lines,
    alignedLines 30 (List.replicate 20 97 ++ [space] ++ List.replicate 25 98) = .ok lines ∧
      (∀ line ∈ lines, line ≠ [] ∧ (line.length : Int) ≤ 20) ∧
      Rejoined lines (List.replicate 20 97 ++ [space] ++ List.replicate 25 98) := by
  obtain ⟨lines, hok, -, hall, hrejoined⟩ := @wrapping_lossless 30
    (List.replicate 20 97 ++ [space] ++ List.replicate 25 98) (by decide) false
  exact ⟨lines, hok, hall, hrejoined⟩

end TerminalChat.Client
