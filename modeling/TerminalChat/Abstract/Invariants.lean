import TerminalChat.Abstract.Hall

/-!
# Invariants of a hall

`Sound` holds in every hall that permitted operations lead to. The members of a room point back to
it, but under a reused room id a person may point to a room it is not a member of. `Agrees` and
`Titled` need every drawn id to be new. `Owned`, `Unbanned` and `Mirrors` are kept by every operation
that satisfies a condition of its own, and by no other in general.
-/

set_option autoImplicit false

namespace TerminalChat.Abstract

namespace Hall

variable {S I N P : Type} [Inhabited N]

/-- The members of a room are placed in it. -/
def PointsBack (h : Hall S I N P) : Prop := ∀ r, ∀ s ∈ h.membersOf r, (h.entry s).place = some r

/-- No two persons share a name. -/
def NamesUnique (h : Hall S I N P) : Prop :=
  ∀ s t, (h.entry s).name = (h.entry t).name → (h.entry s).name ≠ default → s = t

/-- What holds of a hall whatever ids are drawn. -/
structure Sound (bad : S) (h : Hall S I N P) : Prop where
  outside : h.person bad = none
  back : h.PointsBack
  names : h.NamesUnique
  drawn : ∀ r, (h.room r).isSome → r ∈ h.drawn

/-- Everybody is a member of the room it is placed in. -/
def Agrees (h : Hall S I N P) : Prop := ∀ s r, (h.entry s).place = some r → s ∈ h.membersOf r

/-- Whoever is flagged owner is placed in a room that names it as its owner. -/
def Titled (h : Hall S I N P) : Prop :=
  ∀ s, (h.entry s).owner = true → ∃ r, (h.entry s).place = some r ∧ h.ownerAt r = some s

/-- The owner of an inhabited room is a member that is flagged so. -/
def Owned (h : Hall S I N P) : Prop :=
  ∀ r s, s ∈ h.membersOf r → ∃ o ∈ h.membersOf r, h.ownerAt r = some o ∧ h.Rules o r

/-- No member of a room has a name that is banned there. -/
def Unbanned (h : Hall S I N P) : Prop := ∀ r, ∀ s ∈ h.membersOf r, (h.entry s).name ∉ h.bansOf r

/-- Everybody has been told its place and its ownership. -/
def Mirrors (h : Hall S I N P) : Prop :=
  ∀ s, (h.person s).isSome → h.view s = ⟨(h.entry s).place, (h.entry s).owner⟩

attribute [local simp] Op.apply detach place promote newRoom Rules

variable {bad : S} {h : Hall S I N P} {op : Op S I N P}

/-- Permitted operations keep the members of rooms pointing back. -/
theorem PointsBack.apply (hb : h.PointsBack) (hp : op.Permitted bad h) :
    (op.apply h).PointsBack := by
  intro q t
  have ht := hb q t
  cases op with
  | pass => exact ht
  | missing s r => exact ht
  | connect s =>
      have hs : (h.entry s).place = none := by rw [entry_of_none hp.2]; rfl
      simp
      grind
  | ban a r n u =>
      cases u with
      | none => simpa using ht
      | some u =>
          simp
          grind
  | forceLeave s r u told =>
      cases u with
      | none =>
          simp
          grind
      | some u =>
          simp
          grind
  | setPassword s r password => simpa using ht
  | _ =>
      simp
      grind

/-- Permitted operations keep names unique. -/
theorem NamesUnique.apply (hn : h.NamesUnique) (hp : op.Permitted bad h) :
    (op.apply h).NamesUnique := by
  intro t u
  have ht := hn t u
  cases op with
  | rename s n =>
      obtain ⟨-, -, hfree⟩ := hp
      simp
      grind
  | ban a r n v =>
      cases v with
      | none => simpa using ht
      | some v =>
          simp
          grind
  | forceLeave s r v told =>
      cases v with
      | none =>
          simp
          grind
      | some v =>
          simp
          grind
  | _ =>
      simp
      grind

/-- The ids that an operation draws. -/
def Op.draws : Op S I N P → List I
  | .create _ r _ _ => [r]
  | _ => []

theorem drawn_apply (op : Op S I N P) (h : Hall S I N P) :
    (op.apply h).drawn = op.draws ++ h.drawn := by
  cases op with
  | ban a r n u =>
      cases u with
      | none => rfl
      | some u => simp [Op.draws]
  | forceLeave s r u told =>
      cases u with
      | none => simp [Op.draws]
      | some u => simp [Op.draws]
  | _ => simp [Op.draws]

/-- Only `create` makes a room. -/
theorem room_apply {r : I} (hr : ((op.apply h).room r).isSome) :
    (h.room r).isSome ∨ r ∈ op.draws := by
  cases op with
  | ban a q n u =>
      cases u with
      | none =>
          simp at hr
          grind
      | some u =>
          simp [room_vacate] at hr
          grind
  | forceLeave s q u told =>
      cases u with
      | none =>
          simp [room_vacate] at hr
          grind
      | some u =>
          simp [room_vacate] at hr
          grind
  | create s q isPrivate password =>
      simp [room_vacate, Op.draws] at hr ⊢
      grind
  | _ =>
      simp [room_vacate] at hr
      grind

theorem isSome_of_place {s : S} (hs : (h.entry s).place ≠ none) : (h.person s).isSome := by
  cases hp : h.person s with
  | none => simp [entry_of_none hp] at hs
  | some p => rfl

omit [Inhabited N] in
theorem isSome_of_mem {s : S} {r : I} (hs : s ∈ h.membersOf r) : (h.room r).isSome := by
  obtain ⟨R, hR, -⟩ := hs
  simp [hR]

/-- Only `connect` lets somebody in. -/
theorem person_apply (hp : op.Permitted bad h) {t : S} (ht : ((op.apply h).person t).isSome) :
    (h.person t).isSome ∨ op = .connect t := by
  have hplace := isSome_of_place (h := h) (s := t)
  cases op with
  | ban a q n u =>
      cases u with
      | none => exact Or.inl (by simpa using ht)
      | some u =>
          simp at ht
          grind [Op.Permitted]
  | forceLeave s q u told =>
      cases u with
      | none =>
          simp at ht
          grind [Op.Permitted, Rules]
      | some u =>
          simp at ht
          grind [Op.Permitted, Rules]
  | _ =>
      simp at ht
      grind [Op.Permitted, Rules]

/-- Permitted operations keep the hall sound. -/
theorem Sound.apply (hs : h.Sound bad) (hp : op.Permitted bad h) : (op.apply h).Sound bad where
  outside := by
    rw [← Option.not_isSome_iff_eq_none]
    intro hbad
    rcases person_apply hp hbad with h' | rfl
    · simp [hs.outside] at h'
    · exact hp.1 rfl
  back := hs.back.apply hp
  names := hs.names.apply hp
  drawn := by
    intro r hr
    rw [drawn_apply, List.mem_append]
    rcases room_apply hr with h' | h'
    · exact Or.inr (hs.drawn r h')
    · exact Or.inl h'

/-! ## New ids -/

/-- The ids that an operation draws are those of no room. -/
def Op.Fresh (op : Op S I N P) (h : Hall S I N P) : Prop := ∀ r ∈ op.draws, h.room r = none

/-- An operation after which all drawn ids are distinct has drawn new ones. -/
theorem Sound.fresh (hs : h.Sound bad) (hd : (op.apply h).drawn.Nodup) : op.Fresh h := by
  intro r hr
  rw [drawn_apply, List.nodup_append] at hd
  rw [← Option.not_isSome_iff_eq_none]
  exact fun h' => hd.2.2 r hr r (hs.drawn r h') rfl

theorem nodup_of_apply (hd : (op.apply h).drawn.Nodup) : h.drawn.Nodup := by
  rw [drawn_apply, List.nodup_append] at hd
  exact hd.2.1

/-- Under new ids permitted operations keep everybody a member of its room. -/
theorem Agrees.apply (ha : h.Agrees) (hp : op.Permitted bad h) (hf : op.Fresh h) :
    (op.apply h).Agrees := by
  intro t q
  have ht := ha t q
  cases op with
  | create s r isPrivate password =>
      have hr : h.room r = none := hf r (by simp [Op.draws])
      have hm : t ∉ h.membersOf r := by simp [membersOf, hr]
      simp
      grind
  | join s r password =>
      have hr : ((h.vacate s).room r).isSome := by
        rw [room_vacate]
        split <;> simp [hp.2.1]
      simp [hr]
      grind
  | ban a r n u =>
      cases u with
      | none => simpa using ht
      | some u =>
          simp
          grind
  | forceLeave s r u told =>
      cases u with
      | none =>
          simp
          grind
      | some u =>
          simp
          grind
  | _ =>
      simp
      grind

/-- Under new ids permitted operations keep owners titled. -/
theorem Titled.apply (ht : h.Titled) (hb : h.PointsBack) (hp : op.Permitted bad h) (hf : op.Fresh h) :
    (op.apply h).Titled := by
  intro t
  have hown := ht t
  cases op with
  | create s r isPrivate password =>
      have hr : h.room r = none := hf r (by simp [Op.draws])
      have hm : h.ownerAt r = none := by simp [ownerAt, hr]
      simp
      grind
  | transfer a u r n =>
      have hold := ht a
      simp
      grind [Op.Permitted, Rules]
  | ban a r n u =>
      cases u with
      | none => simpa using hown
      | some u =>
          simp
          grind
  | forceLeave s r u told =>
      cases u with
      | none =>
          simp
          grind
      | some u =>
          have hold := ht s
          have hu := hb r u hp.2.2.1
          have hroom := isSome_of_mem hp.2.2.1
          simp
          grind [Op.Permitted, Rules]
  | _ =>
      simp
      grind [Op.Permitted]

/-! ## Conditions -/

/-- Nobody is left behind in a room that `s` rules. -/
def LeavesNobody (h : Hall S I N P) (s : S) : Prop := ∀ r, h.Rules s r → h.membersOf r ⊆ {s}

/-- The operation leaves no inhabited room without its owner. -/
def Op.HandsOn : Op S I N P → Hall S I N P → Prop
  | .create s _ _ _, h => h.LeavesNobody s
  | .join s r _, h => h.LeavesNobody s ∧ (h.membersOf r).Nonempty
  | .disconnect s, h => h.LeavesNobody s
  | _, _ => True

/-- The operation gives no member a name that is banned from its room. -/
def Op.RespectsBans : Op S I N P → Hall S I N P → Prop
  | .rename s n, h => ∀ r, s ∈ h.membersOf r → n ∉ h.bansOf r
  | _, _ => True

/-- The operation tells everybody concerned what it does to its place and ownership. -/
def Op.Tells : Op S I N P → Hall S I N P → Prop
  | .missing s _, h => (h.entry s).place = none
  | .transfer _ _ _ _, _ => False
  | .forceLeave _ _ (some _) told, _ => told = true
  | _, _ => True

/-- Under new ids an operation that hands on ownership keeps inhabited rooms owned. -/
theorem Owned.apply (ho : h.Owned) (hb : h.PointsBack) (ht : h.Titled) (ha : h.Agrees)
    (hp : op.Permitted bad h) (hf : op.Fresh h) (hc : op.HandsOn h) : (op.apply h).Owned := by
  intro q t
  have hq := ho q
  have hbq := hb q
  cases op with
  | create s r isPrivate password =>
      -- the room is new, and the creator leaves nobody behind
      have hr : h.room r = none := hf r (by simp [Op.draws])
      have hm : h.ownerAt r = none := by simp [ownerAt, hr]
      simp
      grind [Op.HandsOn, LeavesNobody, Rules]
  | join s r password =>
      -- the room stays when the client leaves its old one
      have hr : ((h.vacate s).room r).isSome := by
        rw [room_vacate]
        split <;> simp [hp.2.1]
      simp [hr]
      grind [Op.Permitted, Op.HandsOn, LeavesNobody, Rules, Set.Nonempty]
  | disconnect s =>
      simp
      grind [Op.HandsOn, LeavesNobody, Rules]
  | connect s =>
      have hs : (h.entry s).place = none := by rw [entry_of_none hp.2]; rfl
      simp
      grind [Rules]
  | kick a u n =>
      have hold := ht a
      simp
      grind [Op.Permitted, Rules]
  | ban a r n u =>
      have hold := ht a
      cases u with
      | none => simpa using hq t
      | some u =>
          simp
          grind [Op.Permitted, Rules]
  | transfer a u r n =>
      have hold := ht a
      simp
      grind [Op.Permitted, Rules, Agrees]
  | leave s =>
      simp
      grind [Op.Permitted, Rules]
  | forceLeave s r u told =>
      have hold := ht s
      cases u with
      | none =>
          -- without an heir the leaver is alone
          have hone : (h.membersOf r).Subsingleton := by
            refine hp.2.resolve_right ?_
            rintro ⟨u, hu, hnone⟩
            have := isSome_of_place (h := h) (s := u) (by simp [hb r u hu])
            simp [hnone] at this
          simp
          grind [Op.Permitted, Rules, Set.Subsingleton]
      | some u =>
          have hroom := isSome_of_mem hp.2.2.1
          have hu := hb r u hp.2.2.1
          simp
          grind [Op.Permitted, Rules]
  | _ =>
      simp
      grind [Rules]

/-- An operation that respects bans keeps banned names out. -/
theorem Unbanned.apply (hu : h.Unbanned) (hb : h.PointsBack) (hn : h.NamesUnique)
    (hp : op.Permitted bad h) (hc : op.RespectsBans h) : (op.apply h).Unbanned := by
  intro q t
  have hq := hu q t
  have hbq := hb q t
  cases op with
  | connect s =>
      have hs : (h.entry s).place = none := by rw [entry_of_none hp.2]; rfl
      simp
      grind
  | rename s n =>
      simp
      grind [Op.RespectsBans]
  | ban a r n u =>
      cases u with
      | none =>
          simp
          grind [Op.Permitted]
      | some u =>
          simp
          grind [Op.Permitted, NamesUnique]
  | forceLeave s r u told =>
      cases u with
      | none =>
          simp
          grind
      | some u =>
          simp
          grind
  | _ =>
      simp
      grind [Op.Permitted]

/-- An operation that tells keeps everybody informed. -/
theorem Mirrors.apply (hm : h.Mirrors) (hp : op.Permitted bad h) (hc : op.Tells h) :
    (op.apply h).Mirrors := by
  intro t
  have hmt := hm t
  cases op with
  | forceLeave s r u told =>
      cases u with
      | none =>
          simp
          grind [View.blank]
      | some u =>
          simp
          grind [View.blank, Op.Permitted, Op.Tells]
  | ban a r n u =>
      cases u with
      | none => simpa using hmt
      | some u =>
          simp
          grind [View.blank]
  | _ =>
      simp
      grind [View.blank, Op.Permitted, Op.Tells]

/-! ## Sweeping -/

section Sweeps

variable {h' : Hall S I N P}

theorem Sound.sweeps (hs : h.Sound bad) (hw : Sweeps h h') : h'.Sound bad where
  outside := by
    rw [hw.person]
    exact hs.outside
  back := by
    intro r s hm
    rw [hw.membersOf] at hm
    rw [hw.entry]
    exact hs.back r s hm
  names := by
    intro s t
    rw [hw.entry, hw.entry]
    exact hs.names s t
  drawn := by
    intro r hr
    obtain ⟨R, hR⟩ := Option.isSome_iff_exists.1 hr
    rw [hw.drawn]
    exact hs.drawn r (by simp [hw.room_of_some hR])

theorem Agrees.sweeps (ha : h.Agrees) (hw : Sweeps h h') : h'.Agrees := by
  intro s r hr
  rw [hw.entry] at hr
  rw [hw.membersOf]
  exact ha s r hr

theorem Titled.sweeps (ht : h.Titled) (ha : h.Agrees) (hw : Sweeps h h') : h'.Titled := by
  intro s hs
  rw [hw.entry] at hs
  obtain ⟨r, hr, ho⟩ := ht s hs
  refine ⟨r, ?_, ?_⟩
  · rw [hw.entry]
    exact hr
  · rw [hw.ownerAt_of_mem (ha s r hr)]
    exact ho

theorem Owned.sweeps (ho : h.Owned) (hw : Sweeps h h') : h'.Owned := by
  intro r s hs
  rw [hw.membersOf] at hs ⊢
  obtain ⟨o, hm, hat, hr⟩ := ho r s hs
  refine ⟨o, hm, ?_, (hw.rules o r).2 hr⟩
  rw [hw.ownerAt_of_mem hs]
  exact hat

theorem Unbanned.sweeps (hu : h.Unbanned) (hw : Sweeps h h') : h'.Unbanned := by
  intro r s hs hn
  rw [hw.membersOf] at hs
  rw [hw.entry] at hn
  exact hu r s hs (hw.bansOf_subset r hn)

theorem Mirrors.sweeps (hm : h.Mirrors) (hw : Sweeps h h') : h'.Mirrors := by
  intro s hs
  rw [hw.person] at hs
  rw [hw.view, hw.entry]
  exact hm s hs

end Sweeps

end Hall

end TerminalChat.Abstract
