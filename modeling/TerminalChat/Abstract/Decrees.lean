import TerminalChat.Abstract.Runs

/-!
# What owners decree

The bans and the password of a room change by operations on this room only: a ban adds a name, a new
password replaces the old one, and the creation of the room sets both. Whether a room is private is
settled when it is created (`Hall.room_of_decrees`). Nobody comes to rule a room but by a creation, a transfer
or a succession (`Hall.rules_of_apply`).
-/

set_option autoImplicit false

namespace TerminalChat.Abstract

namespace Hall

variable {S I N P : Type}

/-- The operation bans the name from the room. -/
def Op.Bans (r : I) (n : N) : Op S I N P → Prop
  | .ban _ q n' _ => q = r ∧ n' = n
  | _ => False

/-- The operation gives the room this password. -/
def Op.Rekeys (r : I) (password : P) : Op S I N P → Prop
  | .setPassword _ q password' => q = r ∧ password' = password
  | _ => False

/-- The operation makes the person owner of the room. -/
def Op.Crowns (s : S) (r : I) : Op S I N P → Prop
  | .create t q _ _ => t = s ∧ q = r
  | .transfer _ t q _ => t = s ∧ q = r
  | .forceLeave _ q (some t) _ => t = s ∧ q = r
  | _ => False

variable [Inhabited N] {bad : S} {h : Hall S I N P} {op : Op S I N P} {r : I}

attribute [local simp] Op.apply detach place promote newRoom

/-- A room that an operation has not made has only got what was decreed. -/
theorem room_of_decrees {R R' : Room S N P} (hR : h.room r = some R)
    (hR' : (op.apply h).room r = some R') (hr : r ∉ op.draws) :
    R'.isPrivate = R.isPrivate ∧ (∀ n, n ∈ R'.bans ↔ n ∈ R.bans ∨ op.Bans r n) ∧
      (op.Rekeys r R'.password ∨
        R'.password = R.password ∧ ∀ password, ¬op.Rekeys r password) := by
  cases op with
  | ban a q n u =>
      cases u with
      | none =>
          simp at hR'
          grind [Op.Bans, Op.Rekeys, Room.ban]
      | some u =>
          simp [room_vacate] at hR'
          grind [Op.Bans, Op.Rekeys, Room.ban, Room.remove]
  | forceLeave s q u told =>
      cases u with
      | none =>
          simp [room_vacate] at hR'
          grind [Op.Bans, Op.Rekeys, Room.remove]
      | some u =>
          simp [room_vacate] at hR'
          grind [Op.Bans, Op.Rekeys, Room.remove, Room.setOwner]
  | create s q isPrivate password =>
      simp [room_vacate] at hR'
      grind [Op.Bans, Op.Rekeys, Op.draws, Room.remove]
  | _ =>
      simp [room_vacate] at hR'
      grind [Op.Bans, Op.Rekeys, Room.remove, Room.enrol, Room.setOwner, Room.setPassword]

/-- A room that an operation has made is the one that a creation makes. -/
theorem room_of_draws {R' : Room S N P} (hR' : (op.apply h).room r = some R')
    (hr : r ∈ op.draws) : ∃ s isPrivate password, op = .create s r isPrivate password ∧
      R' = newRoom s isPrivate password := by
  cases op with
  | create s q isPrivate password =>
      rw [Op.draws, List.mem_singleton] at hr
      subst hr
      simp at hR'
      exact ⟨s, isPrivate, password, rfl, by rw [← hR', newRoom]⟩
  | _ => exact absurd hr List.not_mem_nil

/-- Whoever rules a room after an operation has ruled it before or has been crowned, and has the name it
had unless it has changed it. -/
theorem rules_of_apply (hb : h.PointsBack) (hp : op.Permitted bad h) {s : S}
    (hr : (op.apply h).Rules s r) : (op.Crowns s r ∨ h.Rules s r) ∧
      (((op.apply h).entry s).name = (h.entry s).name ∨
        ∃ n, op = .rename s n ∧ ((op.apply h).entry s).name = n) := by
  obtain ⟨hplace, howner⟩ := hr
  cases op with
  | ban a q n u =>
      cases u with
      | none =>
          simp at hplace howner
          simp [Rules, hplace, howner]
      | some u =>
          simp at hplace howner
          simp
          grind [Rules]
  | forceLeave t q u told =>
      cases u with
      | none =>
          simp at hplace howner
          simp
          grind [Rules]
      | some u =>
          have hu := hb q u hp.2.2.1
          simp at hplace howner
          simp
          grind [Rules, Op.Crowns]
  | transfer a t q n =>
      simp at hplace howner
      simp
      grind [Rules, Op.Crowns, Op.Permitted]
  | _ =>
      simp at hplace howner
      simp
      grind [Rules, Op.Crowns]

end Hall

end TerminalChat.Abstract
