import Mathlib
import TerminalChat.Server.Speech
import TerminalChat.Text.Separated

/-!
# Who has said it

A chat line is a clock reading, a name, a colon with a space, and the content, and nothing in the name
or in the content is escaped. SETNAME takes any name that is not blank and that nobody else has, also
one with a colon in it, and also the name under which the server itself speaks. Here is which lines
can be mistaken for which (`attributed_iff`).
-/

set_option autoImplicit false

namespace TerminalChat.Server

open TerminalChat.Concurrency TerminalChat.Text

/-- What stands between the name and the content of a chat line. -/
def chatSeparator : Bytes := str ": "

/-- The name under which the server speaks. -/
def systemName : Bytes := str "SYSTEM"

/-- A name that SETNAME sets in some run. -/
def Assumable (name : Bytes) : Prop :=
  name ≠ [] ∧ ∃ m sock, Machine.Reachable Machine.anyStep m ∧ m.Idle ∧
    (m.globals.info sock).username = name

/-- The chat lines of `name` and `name'`, written at the same time, tell who has said what, and that
of `name` is no SYSTEM line. -/
def Attributed (now : LocalTm) (name content name' content' : Bytes) : Prop :=
  (chatText now.text name content = chatText now.text name' content' →
    name = name' ∧ content = content') ∧
  ∀ (now' : LocalTm) (notice : SystemNotice), notice.Named →
    chatText now.text name content ≠ systemText now'.text notice.text

/-- The chat line reads like a notice: the name is that of the server and the content a notice, or the
name begins with that of the server and a separator, and a notice with the rest of the name. -/
def Poses (name content : Bytes) : Prop :=
  ∃ notice : SystemNotice, notice.Named ∧ (name = systemName ∧ content = notice.text ∨
    Continues chatSeparator systemName notice.text name content)

theorem unbordered_chatSeparator : Unbordered chatSeparator :=
  unbordered_pair (a := 58) (b := 32) (by decide)

section Lines

/-- A SYSTEM line is a chat line of the server. -/
theorem systemText_eq_chatText (t text : Bytes) :
    systemText t text = chatText t systemName text := by
  have hlabel : str " SYSTEM: " = str " " ++ (systemName ++ chatSeparator) := by decide
  rw [systemText, chatText, hlabel]
  simp only [List.append_assoc, chatSeparator]

/-- What stands behind the clock readings decides whether two chat lines are equal. -/
theorem chatText_eq_iff {t t' : Bytes} (hlen : t.length = t'.length)
    (name content name' content' : Bytes) : chatText t name content = chatText t' name' content' ↔
      t = t' ∧ name ++ chatSeparator ++ content = name' ++ chatSeparator ++ content' := by
  have hsplit : ∀ t name content : Bytes, chatText t name content =
      t ++ (str " " ++ ((name ++ chatSeparator ++ content) ++ str "\n")) := by
    intro t name content
    simp only [chatText, chatSeparator, List.append_assoc]
  rw [hsplit, hsplit]
  constructor
  · intro h
    obtain ⟨ht, hrest⟩ := List.append_inj h hlen
    exact ⟨ht, List.append_cancel_right (List.append_cancel_left hrest)⟩
  · rintro ⟨rfl, h⟩
    rw [h]

theorem length_localTm (now : LocalTm) : now.text.length = 10 := by
  have hone : (str "[").length = 1 ∧ (str ":").length = 1 ∧ (str "]").length = 1 := by decide
  simp only [LocalTm.text, twoDigits, List.length_append, List.length_cons, List.length_nil,
    hone.1, hone.2.1, hone.2.2]

end Lines

/-- Chat lines are attributed exactly when no name goes on behind the separator of the other line,
and the line of `name` does not pose as a notice. -/
theorem attributed_iff (now : LocalTm) (name content name' content' : Bytes) :
    Attributed now name content name' content' ↔
      ¬Continues chatSeparator name content name' content' ∧
      ¬Continues chatSeparator name' content' name content ∧ ¬Poses name content := by
  have hne : chatSeparator ≠ [] := by decide
  have hlines := fun (n c : Bytes) (now' : LocalTm) => chatText_eq_iff
    ((length_localTm now).trans (length_localTm now').symm) name content n c
  constructor
  · -- each of the three gives another reading of the same line
    rintro ⟨hsame, hsystem⟩
    refine ⟨fun h => ?_, fun h => ?_, ?_⟩
    · exact h.ne hne (hsame ((hlines name' content' now).2 ⟨rfl, h.eq⟩)).1
    · exact h.ne hne (hsame ((hlines name' content' now).2 ⟨rfl, h.eq.symm⟩)).1.symm
    · rintro ⟨notice, hnamed, hposes⟩
      refine hsystem now notice hnamed ?_
      rw [systemText_eq_chatText, hlines]
      rcases hposes with ⟨rfl, rfl⟩ | h
      · exact ⟨rfl, rfl⟩
      · exact ⟨rfl, h.eq.symm⟩
  · rintro ⟨hfirst, hsecond, hposes⟩
    constructor
    · intro h
      rcases (separated_eq_iff unbordered_chatSeparator).1 ((hlines name' content' now).1 h).2 with
        he | h | h
      · exact he
      · exact absurd h hfirst
      · exact absurd h hsecond
    · intro now' notice hnamed h
      rw [systemText_eq_chatText] at h
      rcases (separated_eq_iff unbordered_chatSeparator).1 ((hlines systemName _ now').1 h).2 with
        he | h | h
      · exact hposes ⟨notice, hnamed, Or.inl he⟩
      · -- the name of the server has no separator in it
        obtain ⟨rest, hname, -⟩ := h
        have hmem : (58 : UInt8) ∈ systemName := by
          rw [hname]
          simp [chatSeparator, show (58 : UInt8) ∈ str ": " by decide]
        exact absurd hmem (by decide)
      · exact hposes ⟨notice, hnamed, Or.inr h⟩

/-- Two guests, one of whom has a name that begins with that of the other, and one whose name is that
of the server. -/
def impostors : List (Event × Fin 900000) :=
  [(.connect 4, 0), (.connect 5, 0), (.connect 6, 0), (.receive 4 (str "/SETNAME a"), 0),
    (.receive 5 (str "/SETNAME a: b"), 0), (.receive 6 (str "/SETNAME SYSTEM"), 0)]

theorem assumable_impostors :
    Assumable (str "a") ∧ Assumable (str "a: b") ∧ Assumable systemName := by
  obtain ⟨m, hm, hp⟩ := Machine.reachable_of_after (fun _ _ => True) impostors
    (fun m => decide (m.Idle ∧ (m.globals.info 4).username = str "a" ∧
      (m.globals.info 5).username = str "a: b" ∧ (m.globals.info 6).username = systemName))
    (by decide +kernel)
  obtain ⟨hidle, ha, hab, hsystem⟩ := of_decide_eq_true hp
  have hany : Machine.Reachable Machine.anyStep m := hm.mono fun _ _ _ => trivial
  exact ⟨⟨by decide, m, 4, hany, hidle, ha⟩, ⟨by decide, m, 5, hany, hidle, hab⟩,
    ⟨by decide, m, 6, hany, hidle, hsystem⟩⟩

/-- The lines of two guests are equal, and a guest says what the server says when somebody joins. -/
theorem not_attributed : (∃ name name' content content' : Bytes, Assumable name ∧ Assumable name' ∧
      OneLine content ∧ OneLine content' ∧ name ≠ name' ∧
      chatText (LocalTm.mk 0 0 0).text name content = chatText (LocalTm.mk 0 0 0).text name' content') ∧
    (∃ name content : Bytes, Assumable name ∧ OneLine content ∧
      chatText (LocalTm.mk 0 0 0).text name content =
        systemText (LocalTm.mk 0 0 0).text (SystemNotice.hasJoined (str "bob")).text) ∧
    ¬∀ (now : LocalTm) (name content name' content' : Bytes), Assumable name → Assumable name' →
      OneLine content → OneLine content' → Attributed now name content name' content' := by
  obtain ⟨ha, hab, hsystem⟩ := assumable_impostors
  have hjoined : chatText (LocalTm.mk 0 0 0).text systemName (str "bob has joined the room") =
      systemText (LocalTm.mk 0 0 0).text (SystemNotice.hasJoined (str "bob")).text := by decide
  refine ⟨⟨str "a", str "a: b", str "b: c", str "c", ha, hab, by decide, by decide, by decide,
    by decide⟩, ⟨systemName, str "bob has joined the room", hsystem, by decide, hjoined⟩, ?_⟩
  intro h
  have hclaim := h ⟨0, 0, 0⟩ systemName (str "bob has joined the room") systemName [] hsystem hsystem
    (by decide) (by decide)
  exact hclaim.2 ⟨0, 0, 0⟩ (.hasJoined (str "bob")) ⟨by decide, by decide⟩ hjoined

end TerminalChat.Server
