import Mathlib.Data.List.Basic
import Mathlib.Data.List.TakeWhile
import Mathlib.Tactic.Common

/-!
# Cutting a byte stream

A stream that is cut into chunks, and readers that look at one chunk at a time. A reader that may
drop the ends of a chunk but adds nothing gives back the messages of the stream only when the chunks
are the messages (`Shortens.filterMap_eq_iff`): it has no way to put a message together or to take two apart.

A stream of messages that a separator closes can be read however it is cut: the reader waits for the
separator (`messagesOf_closed`).
-/

set_option autoImplicit false

namespace TerminalChat.Text

variable {α : Type}

/-- The chunks are a way to cut the stream, at most `limit` characters at a time. -/
structure Cuts (limit : Nat) (stream : List α) (chunks : List (List α)) : Prop where
  whole : chunks.flatten = stream
  nonempty : ∀ c ∈ chunks, c ≠ []
  bounded : ∀ c ∈ chunks, c.length ≤ limit

/-- A reader of single chunks that gives at most what the chunk holds. -/
structure Shortens (f : List α → Option (List α)) : Prop where
  length_le : ∀ c t, f c = some t → t.length ≤ c.length
  eq_of_length : ∀ c t, f c = some t → t.length = c.length → t = c

variable {f : List α → Option (List α)}

theorem Shortens.flatten_length_le (hf : Shortens f) :
    ∀ chunks : List (List α), (chunks.filterMap f).flatten.length ≤ chunks.flatten.length
  | [] => Nat.le_refl _
  | c :: chunks => by
      have ih := hf.flatten_length_le chunks
      cases hc : f c with
      | none =>
          rw [List.filterMap_cons_none hc, List.flatten_cons, List.length_append]
          omega
      | some t =>
          have ht := hf.length_le c t hc
          rw [List.filterMap_cons_some hc, List.flatten_cons, List.flatten_cons,
            List.length_append, List.length_append]
          omega

/-- What such a reader gives is as long as the stream only when it gives the chunks. -/
theorem Shortens.filterMap_eq_self (hf : Shortens f) : ∀ chunks : List (List α),
    (∀ c ∈ chunks, c ≠ []) → (chunks.filterMap f).flatten.length = chunks.flatten.length →
      chunks.filterMap f = chunks
  | [], _, _ => rfl
  | c :: chunks, hne, hlen => by
      have ih := hf.filterMap_eq_self chunks fun d hd => hne d (List.mem_cons_of_mem c hd)
      have hle := hf.flatten_length_le chunks
      have hpos := List.length_pos_of_ne_nil (hne c List.mem_cons_self)
      cases hc : f c with
      | none =>
          rw [List.filterMap_cons_none hc, List.flatten_cons, List.length_append] at hlen
          omega
      | some t =>
          have ht := hf.length_le c t hc
          rw [List.filterMap_cons_some hc, List.flatten_cons, List.flatten_cons,
            List.length_append, List.length_append] at hlen
          rw [List.filterMap_cons_some hc, ih (by omega), hf.eq_of_length c t hc (by omega)]

/-- A reader of single chunks recovers messages exactly when the chunks are the messages. -/
theorem Shortens.filterMap_eq_iff (hf : Shortens f) {limit : Nat} {messages chunks : List (List α)}
    (hread : ∀ m ∈ messages, f m = some m) (hcut : Cuts limit messages.flatten chunks) :
    chunks.filterMap f = messages ↔ chunks = messages := by
  constructor
  · intro h
    rw [← h]
    refine (hf.filterMap_eq_self chunks hcut.nonempty ?_).symm
    rw [h, hcut.whole]
  · rintro rfl
    refine (List.filterMap_congr hread).trans ?_
    rw [List.filterMap_some]

/-! ## Closed messages -/

/-- The stream of `messages`, each closed by `sep`. -/
def closed (sep : α) (messages : List (List α)) : List α := messages.flatMap fun m => m ++ [sep]

theorem closed_append (sep : α) (messages more : List (List α)) :
    closed sep (messages ++ more) = closed sep messages ++ closed sep more := by
  simp [closed]

/-- A message is no longer than the stream it is in. -/
theorem length_le_closed (sep : α) {messages : List (List α)} {m : List α} (h : m ∈ messages) :
    m.length ≤ (closed sep messages).length := by
  obtain ⟨front, back, rfl⟩ := List.append_of_mem h
  simp only [closed, List.flatMap_append, List.flatMap_cons, List.length_append]
  omega

section Reader

variable [DecidableEq α] {sep : α}

/-- The first closed message of a stream and what follows it. -/
def takeMessage (sep : α) (stream : List α) : Option (List α × List α) :=
  match stream.dropWhile fun c => c != sep with
  | [] => none
  | _ :: rest => some (stream.takeWhile fun c => c != sep, rest)

theorem takeMessage_eq_some {stream m rest : List α} :
    takeMessage sep stream = some (m, rest) ↔ sep ∉ m ∧ stream = m ++ sep :: rest := by
  have hsplit := List.takeWhile_append_dropWhile (p := fun c => c != sep) (l := stream)
  constructor
  · intro h
    unfold takeMessage at h
    cases hd : stream.dropWhile fun c => c != sep with
    | nil => simp [hd] at h
    | cons c cs =>
        have hc := List.head_dropWhile_not (fun c => c != sep) (l := stream) (by simp [hd])
        simp only [hd, List.head_cons, bne_eq_false_iff_eq] at hc
        simp only [hd, Option.some.injEq, Prod.mk.injEq] at h
        obtain ⟨rfl, rfl⟩ := h
        refine ⟨fun hm => ?_, ?_⟩
        · simpa using List.mem_takeWhile_imp hm
        · rw [hc] at hd
          rw [← hd, hsplit]
  · rintro ⟨hm, rfl⟩
    have hall : ∀ c ∈ m, (c != sep) = true := by
      intro c hc
      rw [bne_iff_ne]
      rintro rfl
      exact hm hc
    have hdrop : (m ++ sep :: rest).dropWhile (fun c => c != sep) = sep :: rest := by
      rw [List.dropWhile_append_of_pos hall]
      simp
    have htake : (m ++ sep :: rest).takeWhile (fun c => c != sep) = m := by
      rw [List.takeWhile_append_of_pos hall]
      simp
    simp [takeMessage, hdrop, htake]

/-- A closed message stays the first one when the stream goes on. -/
theorem takeMessage_append {stream m rest : List α} (h : takeMessage sep stream = some (m, rest))
    (more : List α) : takeMessage sep (stream ++ more) = some (m, rest ++ more) := by
  rw [takeMessage_eq_some] at h ⊢
  refine ⟨h.1, ?_⟩
  rw [h.2]
  simp

/-- A reader that waits for the separator takes the messages of a stream one by one. -/
theorem takeMessage_closed {messages : List (List α)} (hsep : ∀ m ∈ messages, sep ∉ m)
    {m rest : List α} (h : takeMessage sep (closed sep messages) = some (m, rest)) :
    ∃ more, messages = m :: more ∧ rest = closed sep more := by
  cases messages with
  | nil => simp [takeMessage, closed] at h
  | cons m' more =>
      have hfirst : takeMessage sep (closed sep (m' :: more)) = some (m', closed sep more) := by
        rw [takeMessage_eq_some]
        exact ⟨hsep m' List.mem_cons_self, by simp [closed]⟩
      rw [h, Option.some.injEq, Prod.mk.injEq] at hfirst
      obtain ⟨rfl, rfl⟩ := hfirst
      exact ⟨more, rfl, rfl⟩

/-- The closed messages of a stream, and what follows the last of them. -/
def messagesOf (sep : α) : List α → List (List α) × List α
  | [] => ([], [])
  | c :: stream =>
      if c = sep then ([] :: (messagesOf sep stream).1, (messagesOf sep stream).2)
      else match (messagesOf sep stream).1 with
        | [] => ([], c :: (messagesOf sep stream).2)
        | m :: ms => ((c :: m) :: ms, (messagesOf sep stream).2)

/-- How a stream begins decides its messages as far as they are closed; the rest is read again with
what follows. -/
theorem messagesOf_append (stream more : List α) : messagesOf sep (stream ++ more) =
    ((messagesOf sep stream).1 ++ (messagesOf sep ((messagesOf sep stream).2 ++ more)).1,
      (messagesOf sep ((messagesOf sep stream).2 ++ more)).2) := by
  induction stream with
  | nil => rfl
  | cons c stream ih =>
      rw [List.cons_append, messagesOf, messagesOf]
      by_cases hc : c = sep
      · rw [if_pos hc, if_pos hc, ih]
        rfl
      · rw [if_neg hc, if_neg hc]
        cases hm : (messagesOf sep stream).1 with
        | nil =>
            -- no message is closed yet, so the first character goes on with the rest
            rw [hm, List.nil_append] at ih
            rw [ih, List.nil_append, List.cons_append, messagesOf, if_neg hc]
        | cons m ms =>
            rw [hm, List.cons_append] at ih
            rw [ih]
            rfl

/-- The messages, closed, and the rest make up the stream. -/
theorem closed_messagesOf (sep : α) (stream : List α) :
    closed sep (messagesOf sep stream).1 ++ (messagesOf sep stream).2 = stream := by
  induction stream with
  | nil => rfl
  | cons c stream ih =>
      rw [messagesOf]
      by_cases hc : c = sep
      · rw [if_pos hc, hc]
        exact congrArg (sep :: ·) ih
      · rw [if_neg hc]
        cases hm : (messagesOf sep stream).1 with
        | nil =>
            rw [hm] at ih
            exact congrArg (c :: ·) ih
        | cons m ms =>
            rw [hm] at ih
            exact congrArg (c :: ·) ih

/-- Neither a message nor the rest has a separator. -/
theorem not_mem_messagesOf (sep : α) (stream : List α) :
    (∀ m ∈ (messagesOf sep stream).1, sep ∉ m) ∧ sep ∉ (messagesOf sep stream).2 := by
  induction stream with
  | nil => simp [messagesOf]
  | cons c stream ih =>
      obtain ⟨hmessages, hrest⟩ := ih
      rw [messagesOf]
      by_cases hc : c = sep
      · rw [if_pos hc]
        exact ⟨List.forall_mem_cons.2 ⟨List.not_mem_nil, hmessages⟩, hrest⟩
      · rw [if_neg hc]
        cases hm : (messagesOf sep stream).1 with
        | nil =>
            refine ⟨by simp, ?_⟩
            rw [List.mem_cons, not_or]
            exact ⟨fun h => hc h.symm, hrest⟩
        | cons m ms =>
            rw [hm, List.forall_mem_cons] at hmessages
            refine ⟨List.forall_mem_cons.2 ⟨?_, hmessages.2⟩, hrest⟩
            rw [List.mem_cons, not_or]
            exact ⟨fun h => hc h.symm, hmessages.1⟩

/-- A text without separator is not closed. -/
theorem messagesOf_of_not_mem {m : List α} (h : sep ∉ m) : messagesOf sep m = ([], m) := by
  induction m with
  | nil => rfl
  | cons c m ih =>
      rw [List.mem_cons, not_or] at h
      rw [messagesOf, if_neg fun hc => h.1 hc.symm, ih h.2]

/-- A closed message comes first. -/
theorem messagesOf_closed {m : List α} (h : sep ∉ m) (stream : List α) :
    messagesOf sep (m ++ sep :: stream) =
      (m :: (messagesOf sep stream).1, (messagesOf sep stream).2) := by
  induction m with
  | nil => rw [List.nil_append, messagesOf, if_pos rfl]
  | cons c m ih =>
      rw [List.mem_cons, not_or] at h
      rw [List.cons_append, messagesOf, if_neg fun hc => h.1 hc.symm, ih h.2]

/-- Nothing follows the last separator of a stream that ends with it. -/
theorem messagesOf_concat (stream : List α) : (messagesOf sep (stream ++ [sep])).2 = [] := by
  induction stream with
  | nil => rw [List.nil_append, messagesOf, if_pos rfl, messagesOf]
  | cons c stream ih =>
      rw [List.cons_append, messagesOf]
      by_cases hc : c = sep
      · rw [if_pos hc]
        exact ih
      · rw [if_neg hc]
        cases hm : (messagesOf sep (stream ++ [sep])).1 with
        | nil =>
            -- the separator at the end closes at least one message
            have hsplit := closed_messagesOf sep (stream ++ [sep])
            rw [hm, ih] at hsplit
            simp [closed] at hsplit
        | cons m ms => exact ih

end Reader

end TerminalChat.Text
