import TerminalChat.Abstract.Invariants

/-!
# Runs of a hall

A run (`Run`) starts in the empty hall and takes permitted operations under a condition, with sweeps at
any moment. The invariants hold along every run whose operations satisfy the condition they need (`sound`,
`owned`, `unbanned`, `mirrors`).

The last section says what an operation does to everybody but its actor: nothing, unless the actor
rules the room (`entry_of_bystander`).
-/

set_option autoImplicit false

namespace TerminalChat.Abstract

namespace Hall

variable {S I N P : Type} [Inhabited N]

/-- The hall before anybody comes in. -/
def empty : Hall S I N P where
  person _ := none
  room _ := none
  view _ := .blank
  drawn := []

/-- The halls reached by permitted operations that satisfy `C`, and by sweeps. -/
inductive Run (bad : S) (C : Op S I N P → Hall S I N P → Prop) : Hall S I N P → Prop where
  | empty : Run bad C .empty
  | sweeps {h h' : Hall S I N P} : Run bad C h → Sweeps h h' → Run bad C h'
  | apply {h : Hall S I N P} (op : Op S I N P) : Run bad C h → op.Permitted bad h → C op h →
      Run bad C (op.apply h)

variable {bad : S} {C : Op S I N P → Hall S I N P → Prop} {h : Hall S I N P}

namespace Run

theorem sound (hr : Run bad C h) : h.Sound bad := by
  induction hr with
  | empty => exact ⟨rfl, by simp [PointsBack, Hall.empty, membersOf],
      by simp [NamesUnique, Hall.empty, entry], by simp [Hall.empty]⟩
  | sweeps _ hw ih => exact ih.sweeps hw
  | apply op _ hp _ ih => exact ih.apply hp

/-- With distinct ids, membership agrees and owners are titled. -/
theorem agrees_titled (hr : Run bad C h) (hd : h.drawn.Nodup) : h.Agrees ∧ h.Titled := by
  induction hr with
  | empty => exact ⟨by simp [Agrees, Hall.empty, entry], by simp [Titled, Hall.empty, entry]⟩
  | sweeps _ hw ih =>
      rw [hw.drawn] at hd
      obtain ⟨ha, ht⟩ := ih hd
      exact ⟨ha.sweeps hw, ht.sweeps ha hw⟩
  | apply op hr hp _ ih =>
      obtain ⟨ha, ht⟩ := ih (nodup_of_apply hd)
      have hf := hr.sound.fresh hd
      exact ⟨ha.apply hp hf, ht.apply hr.sound.back hp hf⟩

/-- With distinct ids and operations that hand on ownership, inhabited rooms are owned. -/
theorem owned (hr : Run bad C h) (hC : ∀ op h, C op h → op.HandsOn h) (hd : h.drawn.Nodup) :
    h.Owned := by
  induction hr with
  | empty => simp [Owned, Hall.empty, membersOf]
  | sweeps _ hw ih =>
      rw [hw.drawn] at hd
      exact (ih hd).sweeps hw
  | apply op hr hp hc ih =>
      have hd' := nodup_of_apply hd
      obtain ⟨ha, ht⟩ := hr.agrees_titled hd'
      exact (ih hd').apply hr.sound.back ht ha hp (hr.sound.fresh hd) (hC op _ hc)

/-- With operations that respect bans, banned names stay out. -/
theorem unbanned (hr : Run bad C h) (hC : ∀ op h, C op h → op.RespectsBans h) : h.Unbanned := by
  induction hr with
  | empty => simp [Unbanned, Hall.empty, membersOf]
  | sweeps _ hw ih => exact ih.sweeps hw
  | apply op hr hp hc ih => exact ih.apply hr.sound.back hr.sound.names hp (hC op _ hc)

/-- With operations that tell, everybody is informed. -/
theorem mirrors (hr : Run bad C h) (hC : ∀ op h, C op h → op.Tells h) : h.Mirrors := by
  induction hr with
  | empty => simp [Mirrors, Hall.empty]
  | sweeps _ hw ih => exact ih.sweeps hw
  | apply op _ hp hc ih => exact ih.apply hp (hC op _ hc)

end Run

/-! ## What operations do to the others -/

/-- The person who acts. -/
def Op.actor : Op S I N P → Option S
  | .pass => none
  | .connect s => some s
  | .disconnect s => some s
  | .rename s _ => some s
  | .create s _ _ _ => some s
  | .join s _ _ => some s
  | .missing s _ => some s
  | .kick a _ _ => some a
  | .ban a _ _ _ => some a
  | .transfer a _ _ _ => some a
  | .leave s => some s
  | .forceLeave s _ _ _ => some s
  | .setPassword s _ _ => some s

/-- The operation takes `b` out of its room. -/
def Op.Expels (b : S) : Op S I N P → Prop
  | .kick _ t _ => t = b
  | .ban _ _ _ (some t) => t = b
  | _ => False

/-- The operation makes `b` owner of its room. -/
def Op.Promotes (b : S) : Op S I N P → Prop
  | .transfer _ t _ _ => t = b
  | .forceLeave _ _ (some t) _ => t = b
  | _ => False

attribute [local simp] Op.apply detach place promote newRoom

section Others

variable {op : Op S I N P} {a b : S}

/-- Everybody who does not act, is not expelled and not promoted keeps its entry. -/
theorem entry_of_bystander (hb : op.actor ≠ some b) (he : ¬op.Expels b) (hm : ¬op.Promotes b) :
    (op.apply h).entry b = h.entry b := by
  cases op with
  | ban a r n u =>
      -- a ban may meet nobody who bears the name
      cases u with
      | none => simp
      | some u =>
          simp
          grind [Op.Expels]
  | forceLeave s r u told =>
      cases u with
      | none =>
          simp
          grind [Op.actor]
      | some u =>
          simp
          grind [Op.actor, Op.Promotes]
  | _ =>
      simp
      try grind [Op.actor, Op.Promotes, Op.Expels]

/-- Whoever is expelled was in a room that the actor rules, and is out of it afterwards. -/
theorem entry_of_expelled (ha : op.actor = some a) (hp : op.Permitted bad h) (he : op.Expels b) :
    ∃ r, h.Rules a r ∧ (h.entry b).place = some r ∧
      (op.apply h).entry b = { h.entry b with
        place := none
        owner := false } := by
  cases op with
  | kick a' t n =>
      obtain ⟨r, hr, -, -, -, ht⟩ := hp
      cases he
      cases ha
      exact ⟨r, hr, ht, by simp⟩
  | ban a' r n u =>
      cases u with
      | none => exact he.elim
      | some u =>
          cases he
          cases ha
          exact ⟨r, hp.1, hp.2.2.2.2, by simp⟩
  | _ => exact he.elim

/-- Whoever is promoted was in a room that the actor rules, and is its owner afterwards. -/
theorem entry_of_promoted (hb : h.PointsBack) (ha : op.actor = some a) (hp : op.Permitted bad h)
    (hm : op.Promotes b) : ∃ r, h.Rules a r ∧ (h.entry b).place = some r ∧
      (op.apply h).entry b = { h.entry b with owner := true } ∧
      (op.apply h).ownerAt r = some b := by
  cases op with
  | transfer a' t r n =>
      cases hm
      cases ha
      obtain ⟨hr, hne, -, -, ht, hroom⟩ := hp
      refine ⟨r, hr, ht, ?_, ?_⟩
      · simp [Ne.symm hne]
      · obtain ⟨R, hR⟩ := Option.isSome_iff_exists.1 hroom
        simp [hR]
  | forceLeave s r u told =>
      cases u with
      | none => exact hm.elim
      | some u =>
          cases hm
          cases ha
          obtain ⟨hr, hne, hmem, -, -⟩ := hp
          refine ⟨r, hr, hb r _ hmem, ?_, ?_⟩
          · simp [Ne.symm hne]
          · -- the heir is a member, so its room is there
            obtain ⟨R, hR⟩ := Option.isSome_iff_exists.1 (isSome_of_mem hmem)
            simp [hR]
  | _ => exact hm.elim

/-- The others stay members of a room that the actor does not rule. -/
theorem membersOf_of_not_rules (hback : h.PointsBack) (ha : op.actor = some a)
    (hp : op.Permitted bad h) (hf : op.Fresh h) {r : I} (hr : ¬h.Rules a r) (hb : b ≠ a) :
    b ∈ (op.apply h).membersOf r ↔ b ∈ h.membersOf r := by
  have hbr := hback r b
  cases op with
  | create s q isPrivate password =>
      -- a fresh room had nobody in it
      have hq : h.room q = none := hf q (by simp [Op.draws])
      have hm : b ∉ h.membersOf q := by simp [membersOf, hq]
      simp
      grind [Op.actor]
  | ban a' q n u =>
      cases u with
      | none => simp
      | some u =>
          simp
          grind [Op.actor, Op.Permitted]
  | forceLeave s q u told =>
      cases u with
      | none =>
          simp
          grind [Op.actor]
      | some u =>
          simp
          grind [Op.actor]
  | _ =>
      simp
      try grind [Op.actor, Op.Permitted]

/-- A room that the actor does not rule keeps its bans and its password. -/
theorem room_of_not_rules (ha : op.actor = some a) (hp : op.Permitted bad h) (hf : op.Fresh h)
    {r : I} (hr : ¬h.Rules a r) {R R' : Room S N P} (hR : h.room r = some R)
    (hR' : (op.apply h).room r = some R') :
    R'.bans = R.bans ∧ R'.password = R.password ∧ R'.isPrivate = R.isPrivate := by
  cases op with
  | create s q isPrivate password =>
      -- a fresh id is not that of `R`
      have hq : h.room q = none := hf q (by simp [Op.draws])
      simp [room_vacate] at hR'
      grind [Op.actor, Room.remove]
  | ban a' q n u =>
      cases u with
      | none =>
          simp at hR'
          grind [Op.actor, Op.Permitted]
      | some u =>
          simp [room_vacate] at hR'
          grind [Op.actor, Op.Permitted, Room.remove]
  | forceLeave s q u told =>
      cases u with
      | none =>
          simp [room_vacate] at hR'
          grind [Op.actor, Op.Permitted, Room.remove]
      | some u =>
          simp [room_vacate] at hR'
          grind [Op.actor, Op.Permitted, Room.remove, Room.setOwner]
  | _ =>
      simp [room_vacate] at hR'
      try grind [Op.actor, Op.Permitted, Room.remove, Room.enrol, Room.setOwner]

end Others

end Hall

end TerminalChat.Abstract
