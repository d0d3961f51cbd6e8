import Mathlib.Data.List.DropRight
import Mathlib.Tactic.Common

/-!
# Byte strings

The operations of `std::string` and of `std::stringstream` that a line protocol is parsed with, on
lists of bytes: trimming, extraction of a word with `>>`, the rest of the line, prefix tests, the
search for a character, decimal numbers, and upper case.

`trim` strips space, tab, carriage return and newline. Extraction splits on the wider set of C white
space, which also has the vertical tab and the form feed.
-/

set_option autoImplicit false

namespace TerminalChat.Text

/-- A `std::string`: any list of bytes, NUL included. -/
abbrev Bytes : Type := List UInt8

/-- The bytes of a string literal. -/
def str (s : String) : Bytes := s.toUTF8.data.toList

/-- The newline character. -/
def newline : UInt8 := 10

/-- The space character. -/
def space : UInt8 := 32

/-- The characters that `trim` strips: space, tab, carriage return, newline. -/
def isBlank (c : UInt8) : Bool := c == 32 || c == 9 || c == 13 || c == 10

/-- `isspace` in the C locale: the characters that end a word read with `>>`. -/
def isSpace (c : UInt8) : Bool := c == 32 || (9 ≤ c && c ≤ 13)

/-- `trim`: drop the blanks at both ends. -/
def trim (s : Bytes) : Bytes := (s.dropWhile isBlank).rdropWhile isBlank

/-- The word that `stream >> word` reads from a stream holding `s`; empty when none is left. -/
def word (s : Bytes) : Bytes := (s.dropWhile isSpace).takeWhile fun c => !isSpace c

/-- What `stream >> word` leaves in a stream holding `s`. -/
def afterWord (s : Bytes) : Bytes := (s.dropWhile isSpace).dropWhile fun c => !isSpace c

/-- `getline` from a stream holding `s`. -/
def getline (s : Bytes) : Bytes := s.takeWhile fun c => c != newline

/-- `s.find(p) == 0`. -/
def startsWith (p s : Bytes) : Bool := p.isPrefixOf s

/-- `toupper` in the C locale. -/
def toUpper (c : UInt8) : UInt8 := if 97 ≤ c && c ≤ 122 then c - 32 else c

/-- `to_string` of a natural number. -/
def decimal (n : Nat) : Bytes := (Nat.toDigits 10 n).map Char.toUInt8

/-- The text is trimmed: it neither starts nor ends with a blank. -/
def Trimmed (s : Bytes) : Prop := trim s = s

instance (s : Bytes) : Decidable (Trimmed s) := inferInstanceAs (Decidable (trim s = s))

/-- The text has no newline. -/
def OneLine (s : Bytes) : Prop := newline ∉ s

instance (s : Bytes) : Decidable (OneLine s) := inferInstanceAs (Decidable (newline ∉ s))

/-! ## Trimming -/

theorem trim_sublist (s : Bytes) : (trim s).Sublist s :=
  (List.rdropWhile_prefix _ _).sublist.trans (List.dropWhile_suffix _).sublist

theorem length_trim_le (s : Bytes) : (trim s).length ≤ s.length := (trim_sublist s).length_le

theorem dropWhile_of_head {s : Bytes} (h : ∀ c, s.head? = some c → isBlank c = false) :
    s.dropWhile isBlank = s := by
  cases s with
  | nil => rfl
  | cons c s => simp [List.dropWhile, h c rfl]

theorem head_trim {s : Bytes} {c : UInt8} (h : (trim s).head? = some c) : isBlank c = false := by
  have hpre : (trim s) <+: s.dropWhile isBlank := List.rdropWhile_prefix _ _
  cases hd : s.dropWhile isBlank with
  | nil =>
      rw [hd, List.prefix_nil] at hpre
      simp [hpre] at h
  | cons d ds =>
      have hne : s.dropWhile isBlank ≠ [] := by simp [hd]
      have hnot := List.head_dropWhile_not isBlank hne
      simp only [hd, List.head_cons] at hnot
      rw [hd] at hpre
      obtain ⟨t, ht⟩ := hpre
      cases htr : trim s with
      | nil => simp [htr] at h
      | cons x xs =>
          simp only [htr, List.cons_append, List.cons.injEq] at ht
          simp only [htr, List.head?_cons, Option.some.injEq] at h
          rw [← h, ht.1]
          exact hnot

theorem last_trim {s : Bytes} (h : trim s ≠ []) : isBlank ((trim s).getLast h) = false := by
  have hnot := List.rdropWhile_last_not isBlank (s.dropWhile isBlank) h
  exact Bool.eq_false_iff.2 hnot

/-- A text is trimmed when both its ends are not blank. -/
theorem trimmed_of_ends {s : Bytes} (hh : ∀ c, s.head? = some c → isBlank c = false)
    (hl : ∀ c, s.getLast? = some c → isBlank c = false) : Trimmed s := by
  show (s.dropWhile isBlank).rdropWhile isBlank = s
  rw [dropWhile_of_head hh]
  refine List.rdropWhile_eq_self_iff.2 fun hne => ?_
  rw [hl _ (List.getLast?_eq_some_getLast hne)]
  simp

/-- Trimming is idempotent. -/
theorem trimmed_trim (s : Bytes) : Trimmed (trim s) := by
  refine trimmed_of_ends (fun c hc => head_trim hc) fun c hc => ?_
  have hne : trim s ≠ [] := by
    intro h0
    simp [h0] at hc
  rw [List.getLast?_eq_some_getLast hne, Option.some.injEq] at hc
  rw [← hc]
  exact last_trim hne

theorem rdropWhile_of_trimmed {s : Bytes} (h : Trimmed s) : s.rdropWhile isBlank = s := by
  refine List.rdropWhile_eq_self_iff.2 fun hne => ?_
  have hne' : trim s ≠ [] := by rwa [show trim s = s from h]
  have hl := last_trim hne'
  simp only [show trim s = s from h] at hl
  simp [hl]

/-- What stands before a text is kept by trimming when its ends are not blank. -/
theorem trim_append {p : Bytes} (hp : Trimmed p) (hne : p ≠ []) (s : Bytes) :
    trim (p ++ s) = p ++ s.rdropWhile isBlank := by
  have hd : (p ++ s).dropWhile isBlank = p ++ s := by
    refine dropWhile_of_head fun c hc => ?_
    rw [List.head?_append_of_ne_nil _ hne] at hc
    rw [← hp] at hc
    exact head_trim hc
  show ((p ++ s).dropWhile isBlank).rdropWhile isBlank = _
  rw [hd]
  induction s using List.reverseRecOn with
  | nil =>
      rw [List.append_nil, List.rdropWhile_nil, List.append_nil]
      exact rdropWhile_of_trimmed hp
  | append_singleton s c ih =>
      rw [← List.append_assoc, List.rdropWhile_concat, List.rdropWhile_concat]
      split
      · exact ih (by rw [← List.append_assoc] at hd; exact dropWhile_of_head (by
          intro d hd'
          rw [List.head?_append_of_ne_nil _ hne] at hd'
          rw [← hp] at hd'
          exact head_trim hd'))
      · rw [List.append_assoc]

/-- A text with a character that is not blank is not trimmed away. -/
theorem trim_ne_nil {s : Bytes} {c : UInt8} (hc : c ∈ s) (hb : isBlank c = false) : trim s ≠ [] := by
  intro h
  have hall := List.rdropWhile_eq_nil_iff.1 h
  have hnil : s.dropWhile isBlank = [] := by
    by_contra hne
    have hnot := List.head_dropWhile_not isBlank hne
    rw [hall _ (List.head_mem hne)] at hnot
    exact absurd hnot (by simp)
  rw [List.dropWhile_eq_nil_iff] at hnil
  rw [hnil c hc] at hb
  exact absurd hb (by simp)

@[simp] theorem trim_trim (s : Bytes) : trim (trim s) = trim s := trimmed_trim s

theorem OneLine.sublist {s t : Bytes} (h : OneLine s) (hts : t.Sublist s) : OneLine t :=
  fun hm => h (hts.subset hm)

theorem OneLine.trim {s : Bytes} (h : OneLine s) : OneLine (trim s) := h.sublist (trim_sublist s)

theorem OneLine.append {s t : Bytes} (hs : OneLine s) (ht : OneLine t) : OneLine (s ++ t) := by
  intro h
  rcases List.mem_append.1 h with h | h
  · exact hs h
  · exact ht h

theorem oneLine_getline (s : Bytes) : OneLine (getline s) := by
  intro h
  have := List.mem_takeWhile_imp h
  simp at this

/-- A line without newline is read to its end. -/
theorem getline_of_oneLine {s : Bytes} (h : OneLine s) : getline s = s := by
  refine List.takeWhile_eq_self_iff.2 fun c hc => ?_
  have : c ≠ newline := fun he => h (he ▸ hc)
  simpa using this

theorem word_sublist (s : Bytes) : (word s).Sublist s :=
  (List.takeWhile_prefix _).sublist.trans (List.dropWhile_suffix _).sublist

theorem afterWord_sublist (s : Bytes) : (afterWord s).Sublist s :=
  (List.dropWhile_suffix _).sublist.trans (List.dropWhile_suffix _).sublist

theorem isBlank_of_not_isSpace {c : UInt8} (h : isSpace c = false) : isBlank c = false := by
  rw [Bool.eq_false_iff] at h ⊢
  intro hb
  refine h ?_
  simp only [isBlank, Bool.or_eq_true, beq_iff_eq] at hb
  rcases hb with ((rfl | rfl) | rfl) | rfl <;> decide

/-- A word has no white space in it. -/
theorem trimmed_word (s : Bytes) : Trimmed (word s) := by
  have hword : ∀ c ∈ word s, isBlank c = false := fun c hc =>
    isBlank_of_not_isSpace (by simpa using List.mem_takeWhile_imp hc)
  exact trimmed_of_ends (fun c hc => hword c (List.mem_of_mem_head? hc))
    fun c hc => hword c (List.mem_of_mem_getLast? hc)

/-! ## Decimal numbers -/

theorem decimal_ne_nil (n : Nat) : decimal n ≠ [] := by
  simp [decimal, Nat.toDigits_ne_nil]

theorem isDigit_of_mem_decimal {n : Nat} {c : UInt8} (h : c ∈ decimal n) : 48 ≤ c ∧ c ≤ 57 := by
  obtain ⟨d, hd, rfl⟩ := List.mem_map.1 h
  have hdig := Nat.isDigit_of_mem_toDigits (by decide) (by decide) hd
  simp only [Char.isDigit, Bool.and_eq_true, decide_eq_true_eq] at hdig
  have h1 : 48 ≤ d.toNat := UInt32.le_iff_toNat_le.1 hdig.1
  have h2 : d.toNat ≤ 57 := UInt32.le_iff_toNat_le.1 hdig.2
  have h3 : d.toUInt8.toNat = d.toNat := by
    have hmod : d.toUInt8.toNat = d.toNat % 2 ^ 8 := UInt32.toNat_toUInt8 d.val
    rw [hmod]
    exact Nat.mod_eq_of_lt (by omega)
  constructor
  · rw [UInt8.le_iff_toNat_le, h3]
    exact h1
  · rw [UInt8.le_iff_toNat_le, h3]
    exact h2

/-- A text of digits is trimmed. -/
theorem trimmed_of_digits {s : Bytes} (h : ∀ c ∈ s, 48 ≤ c ∧ c ≤ 57) : Trimmed s := by
  have hblank : ∀ c ∈ s, isBlank c = false := by
    intro c hc
    have hge := (h c hc).1
    rw [isBlank]
    simp only [Bool.or_eq_false_iff, beq_eq_false_iff_ne]
    refine ⟨⟨⟨?_, ?_⟩, ?_⟩, ?_⟩ <;>
      · rintro rfl
        exact absurd hge (by decide)
  exact trimmed_of_ends (fun c hc => hblank c (List.mem_of_mem_head? hc))
    fun c hc => hblank c (List.mem_of_mem_getLast? hc)

end TerminalChat.Text
