import Mathlib
import TerminalChat.Server.Deeds

/-!
# What the blocks perform

The rules for programs of the main thread under its contract (`Fulfils`), and for each block of the handlers
that touches the rooms or the clients the effects that it performs (`Performs`).
-/

set_option autoImplicit false

namespace TerminalChat.Server

open TerminalChat.Concurrency TerminalChat.Text

/-! ## Blocks -/

/-- The trace grows by socket operations that replay nothing. -/
def Sends (net net' : List NetOp) : Prop := ∃ ops, net' = net ++ ops ∧ replays ops = []

theorem Sends.refl (net : List NetOp) : Sends net net := ⟨[], by simp, rfl⟩

theorem Sends.append {net net' ops : List NetOp} (h : Sends net net') (ho : replays ops = []) :
    Sends net (net' ++ ops) := by
  obtain ⟨ops', rfl, h'⟩ := h
  refine ⟨ops' ++ ops, by simp, ?_⟩
  rw [replays, List.filterMap_append]
  simp only [replays] at h' ho
  rw [h', ho]
  rfl

theorem replays_sends (socks : List SOCKET) (text : Bytes) :
    replays (socks.map fun sock => .sent sock text) = [] := by
  simp [replays, List.filterMap_map]

/-- What a block does in one action: the effects, the replays that belong to them, and nothing else
to what effects are about. -/
structure Performs (e : Env) (effs : List Effect) (s s' : Globals) : Prop where
  fields : Matches (effs.foldl (fun s eff => eff.apply e s) s) s'
  net : ∃ ops, s'.net = s.net ++ ops ∧ replays ops = effs.flatMap (Effect.replays e s)
  names : NamesKept s s'

theorem Performs.of_sends {e : Env} {effs : List Effect} {s s' : Globals}
    (hf : Matches (effs.foldl (fun s eff => eff.apply e s) s) s') (hn : Sends s.net s'.net)
    (hr : effs.flatMap (Effect.replays e s) = []) (hc : s'.clients = s.clients) :
    Performs e effs s s' := by
  obtain ⟨ops, hops, hnone⟩ := hn
  refine ⟨hf, ⟨ops, hops, hnone.trans hr.symm⟩, fun t => Or.inl ?_⟩
  rw [Globals.info, hc, Globals.info]

section Rules

variable {α β : Type} {H : List Mutex} {g g' : Note} {F : Globals → Prop}
  {F' : α → Globals → Prop} {e : Env} {s s' : Globals}

theorem Performs.quiet (h : Performs e [] s s') : MainDeed H g g e s s' := by
  obtain ⟨ops, hops, hnone⟩ := h.net
  exact ⟨⟨[], ops, .done h.fields, hops, hnone, fun _ hmem => absurd hmem List.not_mem_nil⟩, h.names,
    fun _ => h.fields.rooms⟩

theorem Performs.one {eff : Effect} (h : Performs e [eff] s s') (ha : eff.Allowed g s)
    (hg : .chatRoomsMutex ∉ H → s'.chatRooms = s.chatRooms) :
    MainDeed H g (eff.after g) e s s' := by
  obtain ⟨ops, hops, hnone⟩ := h.net
  refine ⟨⟨[eff], ops, .one ha h.fields, hops, hnone, fun eff' hmem _ => ?_⟩, h.names, hg⟩
  rw [List.mem_singleton.1 hmem]

theorem Performs.held {eff : Effect} (h : Performs e [eff] s s') (ha : eff.Allowed g s)
    (hm : .chatRoomsMutex ∈ H) : MainDeed H g (eff.after g) e s s' :=
  h.one ha fun hn => absurd hm hn

/-- The note is known, and a fact about the globals. -/
def Noting (g₀ : Note) (F : Globals → Prop) (g : Note) (s : Globals) : Prop := g = g₀ ∧ F s

/-- A fact that the other threads keep while the mutexes `H` are held. -/
def Steady (H : List Mutex) (F : Globals → Prop) : Prop := ∀ s s', Backdrop H s s' → F s → F s'

theorem steady_noting (hF : Steady H F) : Prog.Stable mainContract H (Noting g F) :=
  fun _ s s' hs h => ⟨h.1, hF s s' hs h.2⟩

theorem steady_true : Steady H fun _ => True := fun _ _ _ _ => trivial

theorem Steady.and {F₁ F₂ : Globals → Prop} (h₁ : Steady H F₁) (h₂ : Steady H F₂) :
    Steady H fun s => F₁ s ∧ F₂ s := fun s s' hs h => ⟨h₁ s s' hs h.1, h₂ s s' hs h.2⟩

theorem Steady.mono {m : Mutex} (h : Steady H F) : Steady (m :: H) F :=
  fun s s' hs => h s s' (mainContract.rely_mono m H s s' hs)

/-- From the note `g` and the fact `F`, the program keeps the contract of the main thread and ends
with the note `g'` and the fact `F'`. -/
def Fulfils (H : List Mutex) (g : Note) (F : Globals → Prop) (p : Thread α) (g' : Note)
    (F' : α → Globals → Prop) : Prop :=
  Prog.Triple mainContract H (Noting g F) p fun a => Noting g' (F' a)

theorem fulfils_weaken {F₀ : Globals → Prop} {K F₀' : α → Globals → Prop} {p : Thread α}
    (hp : Fulfils H g F p g' K) (hF : ∀ s, F₀ s → F s) (hF' : ∀ a s, K a s → F₀' a s) :
    Fulfils H g F₀ p g' F₀' :=
  Prog.triple_mono hp (fun _ _ h => ⟨h.1, hF _ h.2⟩) fun _ _ _ h => ⟨h.1, hF' _ _ h.2⟩

theorem fulfils_pure {a : α} (h : ∀ s, F s → F' a s) : Fulfils H g F (pure a) g F' :=
  Prog.triple_pure fun _ _ hp => ⟨hp.1, h _ hp.2⟩

theorem fulfils_seq {p : Thread β} {f : β → Thread α} {k : Note} {K : β → Globals → Prop}
    (hp : Fulfils H g F p k K) (hf : ∀ b, Fulfils H k (K b) (f b) g' F') :
    Fulfils H g F (p >>= f) g' F' := Prog.triple_bind hp hf

/-- Sequential composition where nothing is carried over. -/
theorem fulfils_then {p : Thread β} {f : β → Thread α} (hp : Fulfils H g F p g fun _ _ => True)
    (hf : ∀ b, Fulfils H g (fun _ => True) (f b) g' F') : Fulfils H g F (p >>= f) g' F' :=
  fulfils_seq hp hf

theorem fulfils_ite (c : Prop) [Decidable c] {p p' : Thread α} (hp : c → Fulfils H g F p g' F')
    (hp' : ¬c → Fulfils H g F p' g' F') : Fulfils H g F (if c then p else p') g' F' :=
  Prog.triple_ite c hp hp'

theorem fulfils_step {b : Sect α} (hF : Steady H F) (hF' : ∀ a, Steady H (F' a))
    (hb : ∀ e s, F s → b.post e s fun a s' => MainDeed H g g' e s s' ∧ F' a s') :
    Fulfils H g F (step b) g' F' := by
  refine Prog.triple_block _ (steady_noting hF) (fun a => steady_noting (hF' a)) ?_
  rintro e g₀ s ⟨rfl, h⟩
  exact Block.post_mono (hb e s h) fun a s' h' => ⟨g', h'.1, rfl, h'.2⟩

theorem fulfils_holding {m : Mutex} {p : Thread α} (hF : Steady H F) (hF' : ∀ a, Steady H (F' a))
    (hp : Fulfils (m :: H) g F p g' F') : Fulfils H g F (Prog.holding m p) g' F' :=
  Prog.triple_holding (steady_noting hF) (fun a => steady_noting (hF' a)) hp

theorem fulfils_critical {m : Mutex} {b : Sect α} (hF : Steady H F) (hF' : ∀ a, Steady H (F' a))
    (hb : ∀ e s, F s → b.post e s fun a s' => MainDeed (m :: H) g g' e s s' ∧ F' a s') :
    Fulfils H g F (critical m b) g' F' :=
  fulfils_holding hF hF' (fulfils_step hF.mono (fun a => (hF' a).mono) hb)

/-- A block without effects. -/
theorem fulfils_quiet {b : Sect α} (hF : Steady H F) (hF' : ∀ a, Steady H (F' a))
    (hb : ∀ e s, F s → b.post e s fun a s' => Performs e [] s s' ∧ F' a s') :
    Fulfils H g F (step b) g F' :=
  fulfils_step hF hF' fun e s h => Block.post_mono (hb e s h) fun _ _ h' => ⟨h'.1.quiet, h'.2⟩

theorem fulfils_quiet_critical {m : Mutex} {b : Sect α} (hF : Steady H F)
    (hF' : ∀ a, Steady H (F' a))
    (hb : ∀ e s, F s → b.post e s fun a s' => Performs e [] s s' ∧ F' a s') :
    Fulfils H g F (critical m b) g F' :=
  fulfils_holding hF hF' (fulfils_quiet hF.mono (fun a => (hF' a).mono) hb)

end Rules

/-! ### What the quiet blocks perform -/

section Quiet

variable (e : Env) (s : Globals) (sock : SOCKET)

theorem performs_nothing : Performs e [] s s := .of_sends (.refl s) (.refl _) rfl rfl

theorem performs_ops {ops : List NetOp} (h : replays ops = []) :
    Performs e [] s { s with net := s.net ++ ops } :=
  .of_sends ⟨rfl, rfl, rfl, rfl, rfl, rfl⟩ ((Sends.refl _).append h) rfl rfl

theorem performs_send (text : Bytes) : Performs e [] s (s.send sock text) := performs_ops e s rfl

theorem performs_sendAll (socks : List SOCKET) (text : Bytes) :
    Performs e [] s (s.sendAll socks text) := performs_ops e s (replays_sends socks text)

theorem info_setInfo (f : ClientInfo → ClientInfo) (t : SOCKET) :
    (s.setInfo sock f).info t = if t = sock then f (s.info sock) else s.info t := by
  by_cases ht : t = sock
  · simp [Globals.info, Globals.setInfo, ht]
  · simp [Globals.info, Globals.setInfo, ht, Ne.symm ht, Std.ExtTreeMap.getElem?_insert]

theorem performs_clients {s' : Globals} (hf : Matches s s') (hn : Sends s.net s'.net)
    (h : NamesKept s s') : Performs e [] s s' := by
  obtain ⟨ops, hops, hnone⟩ := hn
  exact ⟨hf, ⟨ops, hops, hnone⟩, h⟩

/-- An update of an entry that keeps the name. -/
theorem performs_setInfo {f : ClientInfo → ClientInfo} (hf : ∀ c, (f c).username = c.username) :
    Performs e [] s (s.setInfo sock f) := by
  refine performs_clients e s ⟨rfl, rfl, rfl, rfl, rfl, rfl⟩ (.refl _) fun t => Or.inl ?_
  rw [info_setInfo]
  by_cases ht : t = sock
  · rw [if_pos ht, hf, ht]
  · rw [if_neg ht]

theorem performs_rename {n : Bytes} (hn : NameOk n) :
    Performs e [] s (s.setInfo sock fun c => { c with username := n }) := by
  refine performs_clients e s ⟨rfl, rfl, rfl, rfl, rfl, rfl⟩ (.refl _) fun t => ?_
  rw [info_setInfo]
  by_cases ht : t = sock
  · rw [if_pos ht]
    exact Or.inr hn
  · rw [if_neg ht]
    exact Or.inl rfl

/-- An entry that is blank now has a good name. -/
theorem nameOk_of_blank {s' : Globals} {t : SOCKET} (h : s'.info t = {}) :
    NameOk (s'.info t).username := by
  rw [h]
  exact ⟨by decide, by decide⟩

theorem performs_insertClient :
    Performs e [] s { s with clients := s.clients.insert sock {} } := by
  refine performs_clients e s ⟨rfl, rfl, rfl, rfl, rfl, rfl⟩ (.refl _) fun t => ?_
  by_cases ht : t = sock
  · exact Or.inr (nameOk_of_blank (by simp [Globals.info, ht]))
  · left
    simp [Globals.info, Std.ExtTreeMap.getElem?_insert, Ne.symm ht]

theorem performs_eraseClient :
    Performs e [] s { s with clients := s.clients.erase sock } := by
  refine performs_clients e s ⟨rfl, rfl, rfl, rfl, rfl, rfl⟩ (.refl _) fun t => ?_
  by_cases ht : t = sock
  · exact Or.inr (nameOk_of_blank (by simp [Globals.info, ht]))
  · left
    simp [Globals.info, Std.ExtTreeMap.getElem?_erase, Ne.symm ht]

/-- What comes after the effects of a block. -/
theorem Performs.then_sends {e : Env} {effs : List Effect} {s s₁ : Globals}
    (h : Performs e effs s s₁) (socks : List SOCKET) (text : Bytes) :
    Performs e effs s (s₁.sendAll socks text) := by
  obtain ⟨ops, hnet, hops⟩ := h.net
  obtain ⟨hr, hdb, hq, hp, hd, hc⟩ := h.fields
  refine ⟨⟨hr, hdb, hq, hp, hd, hc⟩, ⟨ops ++ socks.map fun sock => .sent sock text, ?_, ?_⟩, h.names⟩
  · rw [Globals.sendAll, hnet, List.append_assoc]
  · have hlast := replays_sends socks text
    simp only [replays] at hops hlast ⊢
    rw [List.filterMap_append, hops, hlast, List.append_nil]

theorem Performs.then_send {e : Env} {effs : List Effect} {s s₁ : Globals}
    (h : Performs e effs s s₁) (sock : SOCKET) (text : Bytes) :
    Performs e effs s (s₁.send sock text) := h.then_sends [sock] text

end Quiet

/-! ### Leaving -/

section Leaving

variable (e : Env) (s : Globals) (roomId username : Bytes) (sock : SOCKET)

theorem editRoom_of_not_mem {s : Globals} {roomId : Bytes} (h : roomId ∉ s.chatRooms)
    (f : ChatRoom → ChatRoom) : s.editRoom roomId f = s := by
  have hmod : s.chatRooms.modify roomId f = s.chatRooms := by
    apply Std.ExtTreeMap.ext_getElem?
    intro q
    have hget := s.getElem?_editRoom roomId q f
    rw [Globals.editRoom] at hget
    rw [hget]
    by_cases hq : roomId = q
    · rw [if_pos hq, ← hq, Std.ExtTreeMap.getElem?_eq_none h]
      rfl
    · rw [if_neg hq]
  rw [Globals.editRoom, hmod]

theorem deserted_of_askRoom (s : Globals) (roomId : Bytes) : s.Deserted roomId ↔
    ((s.chatRooms[roomId]?).map ChatRoom.isEmpty).getD default = true := by
  rw [Globals.Deserted]
  cases s.chatRooms[roomId]? with
  | none => exact Iff.rfl
  | some room => exact Iff.rfl

theorem Globals.Deserted.mem {s : Globals} {roomId : Bytes} (h : s.Deserted roomId) :
    roomId ∈ s.chatRooms := by
  rw [Globals.Deserted] at h
  rw [Std.ExtTreeMap.mem_iff_isSome_getElem?]
  cases hr : s.chatRooms[roomId]? with
  | none => simp [hr] at h
  | some room => rfl

/-- The state that `departRoom` leaves. -/
theorem post_departRoom_sends (Q : Unit → Globals → Prop)
    (hQ : ∀ socks text, Q () ((s.sendAll socks text).editRoom roomId fun room =>
      room.removeClient sock)) : (departRoom roomId username sock).post e s Q := by
  simp only [departRoom, Block.post_bind, post_getCurrentTimestamp, post_broadcast, post_tellRoom]
  exact hQ _ _

/-- Taking a socket out of a room, and the cleanup that is spawned for a room without members. -/
theorem performs_leave {e : Env} {s s₁ : Globals} (h : Performs e [] s s₁) :
    ((s₁.editRoom roomId fun room => room.removeClient sock).Deserted roomId →
      Performs e [.leave roomId sock] s
        { s₁.editRoom roomId fun room => room.removeClient sock with
          pendingCleanups := s₁.pendingCleanups ++ [roomId] }) ∧
    (¬(s₁.editRoom roomId fun room => room.removeClient sock).Deserted roomId →
      Performs e [.leave roomId sock] s
        (s₁.editRoom roomId fun room => room.removeClient sock)) := by
  obtain ⟨⟨hr, hdb, hq, hp, hd, hc⟩, hnet, hnames⟩ := h
  simp only [List.foldl_nil] at hr hdb hq hp hd hc
  -- whether the room is deserted is read from the rooms alone
  have hsame : (s₁.editRoom roomId fun room => room.removeClient sock).Deserted roomId ↔
      (s.editRoom roomId fun room => room.removeClient sock).Deserted roomId := by
    rw [Globals.Deserted, Globals.Deserted, Globals.editRoom, Globals.editRoom, hr]
  have hrooms : (s₁.editRoom roomId fun room => room.removeClient sock).chatRooms =
      (s.editRoom roomId fun room => room.removeClient sock).chatRooms := by
    rw [Globals.editRoom, Globals.editRoom, hr]
  rw [hsame]
  constructor
  · intro hdeserted
    refine ⟨?_, hnet, hnames⟩
    simp only [List.foldl_cons, List.foldl_nil, Effect.apply, if_pos hdeserted]
    exact ⟨hrooms, hdb, hq, congrArg (· ++ [roomId]) hp, hd, hc⟩
  · intro hdeserted
    refine ⟨?_, hnet, hnames⟩
    simp only [List.foldl_cons, List.foldl_nil, Effect.apply, if_neg hdeserted]
    exact ⟨hrooms, hdb, hq, hp, hd, hc⟩

theorem post_leaveRoom_deeds : (leaveRoom roomId username sock).post e s fun _ s' =>
    Performs e [.leave roomId sock] s s' := by
  simp only [leaveRoom, Block.post_bind, post_roomExists, Block.post_ite, Block.post_pure,
    post_askRoom, post_spawnCleanup, Std.ExtTreeMap.contains_iff_mem]
  constructor
  · intro _
    refine post_departRoom_sends e s _ _ _ _ fun socks text => ?_
    rw [← deserted_of_askRoom]
    exact performs_leave roomId sock (performs_sendAll e s socks text)
  · intro hr
    -- no room, hence nothing to leave and nothing deserted
    refine .of_sends ?_ (.refl _) rfl rfl
    simp only [List.foldl_cons, List.foldl_nil, Effect.apply, editRoom_of_not_mem hr]
    rw [if_neg fun hd => hr hd.mem]
    exact .refl s

theorem post_sweepRoom_deeds : (sweepRoom roomId).post e s fun _ s' =>
    s' = (Effect.sweep roomId).apply e s := by
  simp only [sweepRoom, Block.post_bind, post_roomExists, Block.post_ite, post_askRoom,
    Block.post_modify, post_tellDatabase, Block.post_pure, ← deserted_of_askRoom, Nat.zero_add,
    Std.ExtTreeMap.contains_iff_mem, Effect.apply]
  constructor
  · intro _
    constructor
    · intro hd
      rw [if_pos hd]
    · intro hd
      rw [if_neg hd]
  · intro hr
    -- a deserted room is in particular a live one
    rw [if_neg fun hd => hr hd.mem]

theorem performs_sweepRoom : (sweepRoom roomId).post e s fun _ s' =>
    Performs e [.sweep roomId] s s' := by
  refine Block.post_mono (post_sweepRoom_deeds e s roomId) ?_
  rintro _ s' rfl
  refine .of_sends (.refl _) ?_ rfl ?_
  · rw [Effect.apply]
    split <;> exact .refl _
  · rw [Effect.apply]
    split <;> rfl

end Leaving

end TerminalChat.Server
