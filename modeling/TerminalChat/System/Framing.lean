import Mathlib
import TerminalChat.Text.Framing
import TerminalChat.Server.Handlers

/-!
# Framing of client requests

The client sends the bytes of a line and nothing else. The server takes whatever one `recv` call
gives as one request. Lines are therefore kept apart only by how the stream happens to be cut
(`actedTexts_eq_iff`).
-/

set_option autoImplicit false

namespace TerminalChat.System

open TerminalChat.Text TerminalChat.Server

/-- The bytes that `sendMessageToServer` hands to `send` for a line. -/
def sentBytes (message : Bytes) : Bytes := message

/-- The stream of a client that transmits `lines`. -/
def streamOf (lines : List Bytes) : Bytes := (lines.map sentBytes).flatten

/-- The texts that the server acts on when its `recv` calls give `chunks`. -/
def actedTexts (chunks : List Bytes) : List Bytes := chunks.filterMap actedText

/-- A line that a client can transmit. -/
structure Transmittable (line : Bytes) : Prop where
  trimmed : Trimmed line
  nonempty : line ≠ []
  oneLine : OneLine line
  bounded : line.length ≤ BUFFER_SIZE - 1

theorem actedText_shortens : Shortens actedText where
  length_le := by
    intro c t h
    simp only [actedText, Option.ite_none_left_eq_some, Option.some.injEq] at h
    rw [← h.2]
    exact length_trim_le c
  eq_of_length := by
    intro c t h hlen
    simp only [actedText, Option.ite_none_left_eq_some, Option.some.injEq] at h
    rw [← h.2] at hlen ⊢
    exact (trim_sublist c).eq_of_length hlen

theorem actedText_of_transmittable {line : Bytes} (h : Transmittable line) :
    actedText line = some line := by
  have htrim : trim line = line := h.trimmed
  simp [actedText, htrim, h.nonempty]

/-- When the server acts on the lines that the client has sent. -/
theorem actedTexts_eq_iff (lines chunks : List Bytes) (hlines : ∀ l ∈ lines, Transmittable l)
    (hcut : Cuts (BUFFER_SIZE - 1) (streamOf lines) chunks) :
    actedTexts chunks = lines ↔ chunks = lines := by
  rw [streamOf, show lines.map sentBytes = lines from List.map_id lines] at hcut
  exact actedText_shortens.filterMap_eq_iff
    (fun l hl => actedText_of_transmittable (hlines l hl)) hcut

theorem transmittable_requests : ∀ l ∈ [str "/LIST", str "/USERS"], Transmittable l := by
  intro l hl
  simp only [List.mem_cons, List.not_mem_nil, or_false] at hl
  rcases hl with rfl | rfl
  · exact ⟨by decide, by decide, by decide, by decide⟩
  · exact ⟨by decide, by decide, by decide, by decide⟩

theorem actedTexts_eq_iff_requests : actedTexts [str "/LIST", str "/USERS"] =
    [str "/LIST", str "/USERS"] := by
  have hcut : Cuts (BUFFER_SIZE - 1) (streamOf [str "/LIST", str "/USERS"])
      [str "/LIST", str "/USERS"] := ⟨rfl, by decide, by decide⟩
  exact (actedTexts_eq_iff _ _ transmittable_requests hcut).2 rfl

/-- Two requests that arrive together become one. -/
theorem not_actedTexts_eq : ¬∀ lines chunks, (∀ l ∈ lines, Transmittable l) →
    Cuts (BUFFER_SIZE - 1) (streamOf lines) chunks → actedTexts chunks = lines := by
  intro h
  have hcut : Cuts (BUFFER_SIZE - 1) (streamOf [str "/LIST", str "/USERS"])
      [str "/LIST/USERS"] := ⟨rfl, by decide, by decide⟩
  exact absurd (h _ _ transmittable_requests hcut) (by decide)

end TerminalChat.System
