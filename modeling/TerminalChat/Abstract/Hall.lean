import Mathlib.Data.Set.Subsingleton
import Mathlib.Logic.Function.Basic
import Mathlib.Tactic.Common

/-!
# Halls: people, rooms and owners

The abstract state that a chat server is about, over arbitrary types of people `S`, room ids `I`,
names `N` and passwords `P`. A person has a name and may be placed in a room, and may be flagged as
owner; a room has members, an owner, banned names, a privacy flag and a password. Membership and
ownership are written down twice, at the person and at the room, and `view` is what every person
has been told about its own place. `Op` lists what can happen in a hall, each as one step.

A room without members may be swept away at any moment. `Sweeps` is the relation of such removals;
every operation is monotone along it.
-/

set_option autoImplicit false

namespace TerminalChat.Abstract

variable {S I N P : Type}

/-- A person of the hall. -/
structure Person (I N : Type) where
  name : N
  place : Option I
  owner : Bool

/-- Somebody who has just come in. -/
instance [Inhabited N] : Inhabited (Person I N) := ⟨⟨default, none, false⟩⟩

@[simp, grind =] theorem Person.name_default [Inhabited N] : (default : Person I N).name = default := rfl

@[simp, grind =] theorem Person.place_default [Inhabited N] : (default : Person I N).place = none := rfl

@[simp, grind =] theorem Person.owner_default [Inhabited N] : (default : Person I N).owner = false := rfl

/-- A room of the hall. -/
structure Room (S N P : Type) where
  members : Set S
  owner : S
  bans : Set N
  isPrivate : Bool
  password : P

namespace Room

/-- Take a member out. -/
def remove (s : S) (R : Room S N P) : Room S N P := { R with members := R.members \ {s} }

/-- Let a member in. -/
def enrol (s : S) (R : Room S N P) : Room S N P := { R with members := insert s R.members }

/-- Hand the room to an owner. -/
def setOwner (s : S) (R : Room S N P) : Room S N P := { R with owner := s }

/-- Ban a name. -/
def ban (n : N) (R : Room S N P) : Room S N P := { R with bans := insert n R.bans }

/-- Change the password. -/
def setPassword (password : P) (R : Room S N P) : Room S N P := { R with password := password }

section Fields

variable (R : Room S N P) (s : S) (n : N) (password : P)

@[simp] theorem owner_remove : (remove s R).owner = R.owner := by simp [remove]

@[simp] theorem bans_remove : (remove s R).bans = R.bans := by simp [remove]

@[simp] theorem owner_enrol : (enrol s R).owner = R.owner := by simp [enrol]

@[simp] theorem bans_enrol : (enrol s R).bans = R.bans := by simp [enrol]

@[simp] theorem members_setOwner : (setOwner s R).members = R.members := by simp [setOwner]

@[simp] theorem bans_setOwner : (setOwner s R).bans = R.bans := by simp [setOwner]

@[simp] theorem members_ban : (ban n R).members = R.members := by simp [ban]

@[simp] theorem owner_ban : (ban n R).owner = R.owner := by simp [ban]

@[simp] theorem members_setPassword : (setPassword password R).members = R.members := by simp [setPassword]

@[simp] theorem owner_setPassword : (setPassword password R).owner = R.owner := by simp [setPassword]

@[simp] theorem bans_setPassword : (setPassword password R).bans = R.bans := by simp [setPassword]

end Fields

end Room

/-- What a person has been told about its place and its ownership. -/
structure View (I : Type) where
  place : Option I
  owner : Bool

/-- The view of somebody who has just come in. -/
def View.blank : View I := ⟨none, false⟩

/-- The hall; `drawn` lists the ids that have been given to rooms. -/
structure Hall (S I N P : Type) where
  person : S → Option (Person I N)
  room : I → Option (Room S N P)
  view : S → View I
  drawn : List I

namespace Hall

/-! ## Observations -/

/-- The entry of a person; that of somebody who has just come in when it is unknown. -/
def entry [Inhabited N] (h : Hall S I N P) (s : S) : Person I N := (h.person s).getD default

/-- The members of a room; none when it does not exist. -/
def membersOf (h : Hall S I N P) (r : I) : Set S := {s | ∃ R, h.room r = some R ∧ s ∈ R.members}

/-- The names banned from a room; none when it does not exist. -/
def bansOf (h : Hall S I N P) (r : I) : Set N := {n | ∃ R, h.room r = some R ∧ n ∈ R.bans}

/-- The owner of a room, when it exists. -/
def ownerAt (h : Hall S I N P) (r : I) : Option S := (h.room r).map (·.owner)

/-- `s` is placed in `r` and flagged owner. -/
def Rules [Inhabited N] (h : Hall S I N P) (s : S) (r : I) : Prop :=
  (h.entry s).place = some r ∧ (h.entry s).owner = true

theorem entry_of_person [Inhabited N] {h : Hall S I N P} {s : S} {p : Person I N}
    (hp : h.person s = some p) : h.entry s = p := by
  simp [entry, hp]

theorem entry_of_none [Inhabited N] {h : Hall S I N P} {s : S} (hp : h.person s = none) :
    h.entry s = default := by
  simp [entry, hp]

theorem room_of_mem {h : Hall S I N P} {r : I} {s : S} (hs : s ∈ h.membersOf r) :
    ∃ R, h.room r = some R ∧ s ∈ R.members := hs

/-! ## Updates -/

open Classical in
/-- Update a person; somebody unknown comes in first. -/
noncomputable def setPerson [Inhabited N] (s : S) (f : Person I N → Person I N)
    (h : Hall S I N P) : Hall S I N P :=
  { h with person := Function.update h.person s (some (f (h.entry s))) }

open Classical in
/-- Forget a person. -/
noncomputable def dropPerson (s : S) (h : Hall S I N P) : Hall S I N P :=
  { h with person := Function.update h.person s none }

open Classical in
/-- Update a room, if there is one. -/
noncomputable def editRoom (r : I) (f : Room S N P → Room S N P) (h : Hall S I N P) :
    Hall S I N P :=
  { h with room := Function.update h.room r ((h.room r).map f) }

open Classical in
/-- Put a room in place of whatever was there. -/
noncomputable def putRoom (r : I) (R : Room S N P) (h : Hall S I N P) : Hall S I N P :=
  { h with room := Function.update h.room r (some R) }

open Classical in
/-- Tell a person something about its place. -/
noncomputable def tell (s : S) (f : View I → View I) (h : Hall S I N P) : Hall S I N P :=
  { h with view := Function.update h.view s (f (h.view s)) }

/-- Record that an id has been given away. -/
def draw (r : I) (h : Hall S I N P) : Hall S I N P := { h with drawn := r :: h.drawn }

/-- Take a person out of the room it is placed in, leaving its own entry alone. -/
noncomputable def vacate [Inhabited N] (s : S) (h : Hall S I N P) : Hall S I N P :=
  match (h.entry s).place with
  | none => h
  | some r => editRoom r (·.remove s) h

/-- Take a person out of its room. -/
noncomputable def detach [Inhabited N] (s : S) (h : Hall S I N P) : Hall S I N P :=
  setPerson s (fun p => { p with place := none, owner := false }) (vacate s h)

/-- Place a person in the room `r`. -/
noncomputable def place [Inhabited N] (s : S) (r : I) (owner : Bool) (h : Hall S I N P) :
    Hall S I N P :=
  setPerson s (fun p => { p with place := some r, owner := owner }) h

/-- Make `t` the owner of `r`. -/
noncomputable def promote [Inhabited N] (t : S) (r : I) (h : Hall S I N P) : Hall S I N P :=
  setPerson t (fun p => { p with owner := true }) (editRoom r (·.setOwner t) h)

/-! ### Updates without effect -/

section Trivial

variable (h : Hall S I N P)

theorem tell_of_id (s : S) {f : View I → View I} (hf : ∀ v, f v = v) : h.tell s f = h := by
  simp [tell, hf]

theorem editRoom_of_none {r : I} (hr : h.room r = none) (f : Room S N P → Room S N P) :
    h.editRoom r f = h := by
  have : (h.room r).map f = h.room r := by rw [hr, Option.map_none]
  simp only [editRoom, this, Function.update_eq_self]

theorem editRoom_of_id (r : I) {f : Room S N P → Room S N P} (hf : ∀ R, f R = R) :
    h.editRoom r f = h := by
  have : (h.room r).map f = h.room r := by
    cases h.room r with
    | none => rfl
    | some R => simp [hf]
  simp only [editRoom, this, Function.update_eq_self]

theorem setPerson_of_id [Inhabited N] {s : S} (hs : (h.person s).isSome)
    {f : Person I N → Person I N} (hf : ∀ p, f p = p) : h.setPerson s f = h := by
  obtain ⟨p, hp⟩ := Option.isSome_iff_exists.1 hs
  have : some (f (h.entry s)) = h.person s := by rw [hf, entry_of_person hp, hp]
  simp only [setPerson, this, Function.update_eq_self]

open Classical in
theorem editRoom_putRoom (r : I) (R : Room S N P) (f : Room S N P → Room S N P) :
    (h.putRoom r R).editRoom r f = h.putRoom r (f R) := by
  simp [editRoom, putRoom]

open Classical in
theorem dropPerson_setPerson [Inhabited N] (s : S) (f : Person I N → Person I N) :
    (h.setPerson s f).dropPerson s = h.dropPerson s := by
  simp [setPerson, dropPerson]

end Trivial

/-! ### What updates do to each field -/

section Fields

variable [Inhabited N] (h : Hall S I N P) (s t : S) (r q : I) (f : Person I N → Person I N)
  (g : Room S N P → Room S N P) (v : View I → View I) (R : Room S N P)

open Classical in
@[simp] theorem person_setPerson : (h.setPerson s f).person t =
    if t = s then some (f (h.entry s)) else h.person t := by
  simp [setPerson, Function.update_apply]

@[simp] theorem room_setPerson : (h.setPerson s f).room r = h.room r := rfl

@[simp] theorem view_setPerson : (h.setPerson s f).view t = h.view t := rfl

@[simp] theorem drawn_setPerson : (h.setPerson s f).drawn = h.drawn := rfl

open Classical in
omit [Inhabited N] in
@[simp] theorem person_dropPerson :
    (h.dropPerson s).person t = if t = s then none else h.person t := by
  simp [dropPerson, Function.update_apply]

omit [Inhabited N] in
@[simp] theorem room_dropPerson : (h.dropPerson s).room r = h.room r := rfl

omit [Inhabited N] in
@[simp] theorem view_dropPerson : (h.dropPerson s).view t = h.view t := rfl

omit [Inhabited N] in
@[simp] theorem drawn_dropPerson : (h.dropPerson s).drawn = h.drawn := rfl

omit [Inhabited N] in
@[simp] theorem person_editRoom : (h.editRoom q g).person s = h.person s := rfl

open Classical in
omit [Inhabited N] in
@[simp] theorem room_editRoom :
    (h.editRoom q g).room r = if r = q then (h.room q).map g else h.room r := by
  simp [editRoom, Function.update_apply]

omit [Inhabited N] in
@[simp] theorem view_editRoom : (h.editRoom q g).view s = h.view s := rfl

omit [Inhabited N] in
@[simp] theorem drawn_editRoom : (h.editRoom q g).drawn = h.drawn := rfl

omit [Inhabited N] in
@[simp] theorem person_putRoom : (h.putRoom q R).person s = h.person s := rfl

open Classical in
omit [Inhabited N] in
@[simp] theorem room_putRoom :
    (h.putRoom q R).room r = if r = q then some R else h.room r := by
  simp [putRoom, Function.update_apply]

omit [Inhabited N] in
@[simp] theorem view_putRoom : (h.putRoom q R).view s = h.view s := rfl

omit [Inhabited N] in
@[simp] theorem drawn_putRoom : (h.putRoom q R).drawn = h.drawn := rfl

omit [Inhabited N] in
@[simp] theorem person_tell : (h.tell s v).person t = h.person t := rfl

omit [Inhabited N] in
@[simp] theorem room_tell : (h.tell s v).room r = h.room r := rfl

open Classical in
omit [Inhabited N] in
@[simp] theorem view_tell : (h.tell s v).view t = if t = s then v (h.view s) else h.view t := by
  simp [tell, Function.update_apply]

omit [Inhabited N] in
@[simp] theorem drawn_tell : (h.tell s v).drawn = h.drawn := rfl

omit [Inhabited N] in
@[simp] theorem person_draw : (h.draw q).person s = h.person s := rfl

omit [Inhabited N] in
@[simp] theorem room_draw : (h.draw q).room r = h.room r := rfl

omit [Inhabited N] in
@[simp] theorem view_draw : (h.draw q).view s = h.view s := rfl

omit [Inhabited N] in
@[simp] theorem drawn_draw : (h.draw q).drawn = q :: h.drawn := rfl

@[simp] theorem person_vacate : (h.vacate s).person t = h.person t := by
  unfold vacate
  split <;> rfl

open Classical in
theorem room_vacate : (h.vacate s).room r =
    if (h.entry s).place = some r then (h.room r).map (·.remove s) else h.room r := by
  unfold vacate
  cases hp : (h.entry s).place with
  | none => simp
  | some q =>
      by_cases hr : r = q
      · simp [hr]
      · simp [hr, Ne.symm hr]

theorem vacate_of_place {h : Hall S I N P} {s : S} {r : I} (hr : (h.entry s).place = some r) :
    h.vacate s = h.editRoom r (·.remove s) := by
  rw [vacate, hr]

@[simp] theorem view_vacate : (h.vacate s).view t = h.view t := by
  unfold vacate
  split <;> rfl

@[simp] theorem drawn_vacate : (h.vacate s).drawn = h.drawn := by
  unfold vacate
  split <;> rfl

end Fields

/-! ### What updates do to the observations -/

section Observations

variable [Inhabited N] (h : Hall S I N P) (s t : S) (r q : I) (f : Person I N → Person I N)
  (g : Room S N P → Room S N P) (v : View I → View I) (R : Room S N P)

open Classical in
@[simp] theorem entry_setPerson :
    (h.setPerson s f).entry t = if t = s then f (h.entry s) else h.entry t := by
  by_cases ht : t = s
  · simp [entry, ht]
  · simp [entry, ht]

open Classical in
@[simp] theorem entry_dropPerson :
    (h.dropPerson s).entry t = if t = s then default else h.entry t := by
  by_cases ht : t = s
  · simp [entry, ht]
  · simp [entry, ht]

@[simp] theorem entry_editRoom : (h.editRoom q g).entry t = h.entry t := rfl

@[simp] theorem entry_putRoom : (h.putRoom q R).entry t = h.entry t := rfl

@[simp] theorem entry_tell : (h.tell s v).entry t = h.entry t := rfl

@[simp] theorem entry_draw : (h.draw q).entry t = h.entry t := rfl

@[simp] theorem entry_vacate : (h.vacate s).entry t = h.entry t := by
  simp [entry]

@[simp] theorem membersOf_setPerson : (h.setPerson s f).membersOf r = h.membersOf r := rfl

omit [Inhabited N] in
@[simp] theorem membersOf_dropPerson : (h.dropPerson s).membersOf r = h.membersOf r := rfl

omit [Inhabited N] in
@[simp] theorem membersOf_tell : (h.tell s v).membersOf r = h.membersOf r := rfl

omit [Inhabited N] in
@[simp] theorem membersOf_draw : (h.draw q).membersOf r = h.membersOf r := rfl

omit [Inhabited N] in
/-- An edit that keeps the members of the room keeps all members. -/
@[simp] theorem membersOf_editRoom (hg : ∀ R, (g R).members = R.members) :
    (h.editRoom q g).membersOf r = h.membersOf r := by
  ext t
  by_cases hr : r = q
  · subst hr
    simp [membersOf, hg]
  · simp [membersOf, hr]

omit [Inhabited N] in
@[simp] theorem mem_membersOf_enrol : t ∈ (h.editRoom q (·.enrol s)).membersOf r ↔
    t ∈ h.membersOf r ∨ r = q ∧ t = s ∧ (h.room q).isSome := by
  by_cases hr : r = q
  · subst hr
    cases hR : h.room r with
    | none => simp [membersOf, hR]
    | some R => simp [membersOf, hR, Room.enrol, or_comm]
  · simp [membersOf, hr]

@[simp] theorem mem_membersOf_vacate : t ∈ (h.vacate s).membersOf r ↔
    t ∈ h.membersOf r ∧ ¬ (t = s ∧ (h.entry s).place = some r) := by
  by_cases hp : (h.entry s).place = some r
  · cases hR : h.room r with
    | none => simp [membersOf, room_vacate, hp, hR]
    | some R => simp [membersOf, room_vacate, hp, hR, Room.remove]
  · simp [membersOf, room_vacate, hp]

omit [Inhabited N] in
@[simp] theorem mem_membersOf_putRoom : t ∈ (h.putRoom q R).membersOf r ↔
    r = q ∧ t ∈ R.members ∨ r ≠ q ∧ t ∈ h.membersOf r := by
  by_cases hr : r = q
  · simp [membersOf, hr]
  · simp [membersOf, hr]

@[simp] theorem ownerAt_setPerson : (h.setPerson s f).ownerAt r = h.ownerAt r := rfl

omit [Inhabited N] in
@[simp] theorem ownerAt_dropPerson : (h.dropPerson s).ownerAt r = h.ownerAt r := rfl

omit [Inhabited N] in
@[simp] theorem ownerAt_tell : (h.tell s v).ownerAt r = h.ownerAt r := rfl

omit [Inhabited N] in
@[simp] theorem ownerAt_draw : (h.draw q).ownerAt r = h.ownerAt r := rfl

omit [Inhabited N] in
/-- An edit that keeps the owner of the room keeps all owners. -/
@[simp] theorem ownerAt_editRoom (hg : ∀ R, (g R).owner = R.owner) :
    (h.editRoom q g).ownerAt r = h.ownerAt r := by
  by_cases hr : r = q
  · subst hr
    cases hR : h.room r with
    | none => simp [ownerAt, hR]
    | some R => simp [ownerAt, hR, hg]
  · simp [ownerAt, hr]

open Classical in
omit [Inhabited N] in
@[simp] theorem ownerAt_setOwner : (h.editRoom q (·.setOwner s)).ownerAt r =
    if r = q ∧ (h.room q).isSome then some s else h.ownerAt r := by
  by_cases hr : r = q
  · subst hr
    cases hR : h.room r with
    | none => simp [ownerAt, hR]
    | some R => simp [ownerAt, hR, Room.setOwner]
  · simp [ownerAt, hr]

@[simp] theorem ownerAt_vacate : (h.vacate s).ownerAt r = h.ownerAt r := by
  unfold vacate
  split
  · rfl
  · simp

open Classical in
omit [Inhabited N] in
@[simp] theorem ownerAt_putRoom :
    (h.putRoom q R).ownerAt r = if r = q then some R.owner else h.ownerAt r := by
  by_cases hr : r = q
  · simp [ownerAt, hr]
  · simp [ownerAt, hr]

@[simp] theorem bansOf_setPerson : (h.setPerson s f).bansOf r = h.bansOf r := rfl

omit [Inhabited N] in
@[simp] theorem bansOf_dropPerson : (h.dropPerson s).bansOf r = h.bansOf r := rfl

omit [Inhabited N] in
@[simp] theorem bansOf_tell : (h.tell s v).bansOf r = h.bansOf r := rfl

omit [Inhabited N] in
@[simp] theorem bansOf_draw : (h.draw q).bansOf r = h.bansOf r := rfl

omit [Inhabited N] in
/-- An edit that keeps the bans of the room keeps all bans. -/
@[simp] theorem bansOf_editRoom (hg : ∀ R, (g R).bans = R.bans) :
    (h.editRoom q g).bansOf r = h.bansOf r := by
  ext n
  by_cases hr : r = q
  · subst hr
    simp [bansOf, hg]
  · simp [bansOf, hr]

omit [Inhabited N] in
@[simp] theorem mem_bansOf_ban (n m : N) : m ∈ (h.editRoom q (·.ban n)).bansOf r ↔
    m ∈ h.bansOf r ∨ r = q ∧ m = n ∧ (h.room q).isSome := by
  by_cases hr : r = q
  · subst hr
    cases hR : h.room r with
    | none => simp [bansOf, hR]
    | some R => simp [bansOf, hR, Room.ban, or_comm]
  · simp [bansOf, hr]

@[simp] theorem bansOf_vacate : (h.vacate s).bansOf r = h.bansOf r := by
  unfold vacate
  split
  · rfl
  · simp

omit [Inhabited N] in
@[simp] theorem mem_bansOf_putRoom (n : N) : n ∈ (h.putRoom q R).bansOf r ↔
    r = q ∧ n ∈ R.bans ∨ r ≠ q ∧ n ∈ h.bansOf r := by
  by_cases hr : r = q
  · simp [bansOf, hr]
  · simp [bansOf, hr]

end Observations

/-! ## Operations -/

/-- What can happen in a hall. -/
inductive Op (S I N P : Type) where
  | pass
  | connect (s : S)
  | disconnect (s : S)
  | rename (s : S) (n : N)
  | create (s : S) (r : I) (isPrivate : Bool) (password : P)
  | join (s : S) (r : I) (password : P)
  | missing (s : S) (r : I)
  | kick (a t : S) (n : N)
  | ban (a : S) (r : I) (n : N) (t : Option S)
  | transfer (a t : S) (r : I) (n : N)
  | leave (s : S)
  | forceLeave (s : S) (r : I) (t : Option S) (told : Bool)
  | setPassword (s : S) (r : I) (password : P)

/-- The room that `create` makes. -/
def newRoom (s : S) (isPrivate : Bool) (password : P) : Room S N P :=
  { members := {s}, owner := s, bans := ∅, isPrivate := isPrivate, password := password }

/-- The effect of an operation. -/
noncomputable def Op.apply [Inhabited N] : Op S I N P → Hall S I N P → Hall S I N P
  | .pass, h => h
  | .connect s, h => tell s (fun _ => .blank) (setPerson s (fun _ => default) h)
  | .disconnect s, h => dropPerson s (vacate s h)
  | .rename s n, h => setPerson s (fun p => { p with name := n }) h
  | .create s r isPrivate password, h =>
      tell s (fun _ => ⟨some r, true⟩)
        (place s r true (putRoom r (newRoom s isPrivate password) (vacate s (draw r h))))
  | .join s r _, h =>
      tell s (fun _ => ⟨some r, false⟩) (place s r false (editRoom r (·.enrol s) (vacate s h)))
  | .missing s _, h => tell s (fun v => { v with place := none }) h
  | .kick _ t _, h => tell t (fun _ => .blank) (detach t h)
  | .ban _ r n none, h => editRoom r (·.ban n) h
  | .ban _ r n (some t), h => tell t (fun _ => .blank) (detach t (editRoom r (·.ban n) h))
  | .transfer a t r _, h =>
      tell t (fun v => { v with owner := true })
        (setPerson t (fun p => { p with owner := true })
          (setPerson a (fun p => { p with owner := false }) (editRoom r (·.setOwner t) h)))
  | .leave s, h =>
      tell s (fun _ => .blank) (setPerson s (fun p => { p with place := none }) (vacate s h))
  | .forceLeave s _ none _, h => tell s (fun _ => .blank) (detach s h)
  | .forceLeave s r (some t) told, h =>
      tell s (fun _ => .blank)
        (detach s (tell t (fun v => if told then { v with owner := true } else v) (promote t r h)))
  | .setPassword _ r password, h => editRoom r (·.setPassword password) h

/-- The password opens the room: the room is public, or it is its password. -/
def Opens (h : Hall S I N P) (r : I) (password : P) : Prop :=
  ∀ R, h.room r = some R → R.isPrivate = true → R.password = password

/-- When an operation is permitted; `bad` is a person who never comes in. -/
def Op.Permitted [Inhabited N] (bad : S) : Op S I N P → Hall S I N P → Prop
  | .pass, _ => True
  | .connect s, h => s ≠ bad ∧ h.person s = none
  | .disconnect _, _ => True
  | .rename s n, h => (h.person s).isSome ∧ n ≠ default ∧ ∀ t, t ≠ s → (h.entry t).name ≠ n
  | .create s _ _ _, h => (h.person s).isSome
  | .join s r password, h => (h.person s).isSome ∧ (h.room r).isSome ∧
      (h.entry s).place ≠ some r ∧ (h.entry s).name ∉ h.bansOf r ∧ h.Opens r password
  | .missing s r, h => (h.person s).isSome ∧ h.room r = none ∧ (h.entry s).place ≠ some r
  | .kick a t n, h => ∃ r, h.Rules a r ∧ a ≠ t ∧ n ≠ default ∧ (h.entry t).name = n ∧
      (h.entry t).place = some r
  | .ban a r n none, h => h.Rules a r ∧ n ≠ default ∧
      ∀ t, (h.entry t).name = n → (h.entry t).place ≠ some r
  | .ban a r n (some t), h => h.Rules a r ∧ a ≠ t ∧ n ≠ default ∧ (h.entry t).name = n ∧
      (h.entry t).place = some r
  | .transfer a t r n, h => h.Rules a r ∧ a ≠ t ∧ n ≠ default ∧ (h.entry t).name = n ∧
      (h.entry t).place = some r ∧ (h.room r).isSome
  | .leave s, h => (h.entry s).place ≠ none ∧ (h.entry s).owner = false
  | .forceLeave s r none _, h => h.Rules s r ∧
      ((h.membersOf r).Subsingleton ∨ ∃ t ∈ h.membersOf r, h.person t = none)
  | .forceLeave s r (some t) told, h => h.Rules s r ∧ s ≠ t ∧ t ∈ h.membersOf r ∧
      (h.person t).isSome ∧ (told = true ↔ (h.entry t).name ≠ default)
  | .setPassword s r _, h => h.Rules s r

/-! ## Sweeping empty rooms -/

/-- `h'` is `h` with some rooms without members removed. -/
structure Sweeps (h h' : Hall S I N P) : Prop where
  person : h'.person = h.person
  view : h'.view = h.view
  drawn : h'.drawn = h.drawn
  room : ∀ r, h'.room r = h.room r ∨ h'.room r = none ∧ h.membersOf r = ∅

namespace Sweeps

variable {h h' h'' : Hall S I N P}

theorem refl (h : Hall S I N P) : Sweeps h h := ⟨rfl, rfl, rfl, fun _ => Or.inl rfl⟩

/-- A room that is left is unchanged. -/
theorem room_of_some (hs : Sweeps h h') {r : I} {R : Room S N P} (hr : h'.room r = some R) :
    h.room r = some R := by
  rcases hs.room r with e | ⟨e, -⟩
  · rw [← e]
    exact hr
  · rw [hr] at e
    exact absurd e (by simp)

theorem membersOf (hs : Sweeps h h') (r : I) : h'.membersOf r = h.membersOf r := by
  rcases hs.room r with e | ⟨e, he⟩
  · simp [Hall.membersOf, e]
  · rw [he]
    simp [Hall.membersOf, e]

/-- A room with a member is not swept. -/
theorem room_of_mem (hs : Sweeps h h') {r : I} {s : S} (hm : s ∈ h.membersOf r) :
    h'.room r = h.room r := by
  rcases hs.room r with e | ⟨-, he⟩
  · exact e
  · rw [he] at hm
    exact absurd hm (Set.notMem_empty s)

theorem trans (h₁ : Sweeps h h') (h₂ : Sweeps h' h'') : Sweeps h h'' := by
  refine ⟨h₂.person.trans h₁.person, h₂.view.trans h₁.view, h₂.drawn.trans h₁.drawn, fun r => ?_⟩
  rcases h₂.room r with e₂ | ⟨e₂, he⟩
  · rcases h₁.room r with e₁ | ⟨e₁, he⟩
    · exact Or.inl (e₂.trans e₁)
    · exact Or.inr ⟨e₂.trans e₁, he⟩
  · exact Or.inr ⟨e₂, by rw [← h₁.membersOf r, he]⟩

theorem bansOf_subset (hs : Sweeps h h') (r : I) : h'.bansOf r ⊆ h.bansOf r := by
  rintro n ⟨R, hR, hn⟩
  exact ⟨R, hs.room_of_some hR, hn⟩

theorem ownerAt_of_mem (hs : Sweeps h h') {r : I} {s : S} (hm : s ∈ h.membersOf r) :
    h'.ownerAt r = h.ownerAt r := by
  simp [Hall.ownerAt, hs.room_of_mem hm]

section Monotone

variable [Inhabited N]

theorem entry (hs : Sweeps h h') (s : S) : h'.entry s = h.entry s := by
  simp [Hall.entry, hs.person]

theorem rules (hs : Sweeps h h') (s : S) (r : I) : h'.Rules s r ↔ h.Rules s r := by
  simp [Hall.Rules, hs.entry]

theorem setPerson (hs : Sweeps h h') (s : S) (f : Person I N → Person I N) :
    Sweeps (h.setPerson s f) (h'.setPerson s f) :=
  ⟨by simp [Hall.setPerson, hs.person, hs.entry], hs.view, hs.drawn, hs.room⟩

omit [Inhabited N] in
theorem tell (hs : Sweeps h h') (s : S) (f : View I → View I) :
    Sweeps (h.tell s f) (h'.tell s f) :=
  ⟨hs.person, by simp [Hall.tell, hs.view], hs.drawn, hs.room⟩

omit [Inhabited N] in
theorem draw (hs : Sweeps h h') (r : I) : Sweeps (h.draw r) (h'.draw r) :=
  ⟨hs.person, hs.view, by simp [Hall.draw, hs.drawn], hs.room⟩

omit [Inhabited N] in
theorem dropPerson (hs : Sweeps h h') (s : S) : Sweeps (h.dropPerson s) (h'.dropPerson s) :=
  ⟨by simp [Hall.dropPerson, hs.person], hs.view, hs.drawn, hs.room⟩

omit [Inhabited N] in
theorem putRoom (hs : Sweeps h h') (r : I) (R : Room S N P) :
    Sweeps (h.putRoom r R) (h'.putRoom r R) := by
  refine ⟨hs.person, hs.view, hs.drawn, fun q => ?_⟩
  by_cases hq : q = r
  · exact Or.inl (by simp [hq])
  · rcases hs.room q with e | ⟨e, he⟩
    · exact Or.inl (by simp [hq, e])
    · refine Or.inr ⟨by simp [hq, e], ?_⟩
      ext t
      simp [hq, he]

omit [Inhabited N] in
/-- An edit that lets nobody in is monotone. -/
theorem editRoom (hs : Sweeps h h') (r : I) (f : Room S N P → Room S N P)
    (hf : ∀ R, (f R).members ⊆ R.members) : Sweeps (h.editRoom r f) (h'.editRoom r f) := by
  refine ⟨hs.person, hs.view, hs.drawn, fun q => ?_⟩
  by_cases hq : q = r
  · subst hq
    rcases hs.room q with e | ⟨e, he⟩
    · exact Or.inl (by simp [e])
    · refine Or.inr ⟨by simp [e], ?_⟩
      rw [Set.eq_empty_iff_forall_notMem]
      rintro t ⟨R, hR, ht⟩
      simp only [room_editRoom, if_true, Option.map_eq_some_iff] at hR
      obtain ⟨R₀, hR₀, rfl⟩ := hR
      have : t ∈ h.membersOf q := ⟨R₀, hR₀, hf R₀ ht⟩
      rw [he] at this
      exact this
  · rcases hs.room q with e | ⟨e, he⟩
    · exact Or.inl (by simp [hq, e])
    · refine Or.inr ⟨by simp [hq, e], ?_⟩
      simpa [Hall.membersOf, hq] using he

theorem vacate (hs : Sweeps h h') (s : S) : Sweeps (h.vacate s) (h'.vacate s) := by
  unfold Hall.vacate
  rw [hs.entry]
  split
  · exact hs
  · exact hs.editRoom _ _ fun _ _ hm => hm.1

end Monotone

end Sweeps

end Hall

end TerminalChat.Abstract
