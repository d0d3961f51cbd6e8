import Mathlib
import TerminalChat.Server.Deliveries

/-!
# Names

SETNAME trims what `handleClientCommand` has read up to the end of a line, and refuses a name that
another client holds. The check and the assignment stand in two critical sections, but only the main
thread writes names. So whenever no handler is in progress the names of the clients tell them apart,
and `findClientByUsername` finds the client that holds a name or nobody (`Machine.usernames_resolve`).
-/

set_option autoImplicit false

namespace TerminalChat.Server

open TerminalChat.Concurrency TerminalChat.Text TerminalChat.Abstract

/-- No two clients share a name, blank names apart. -/
def Globals.NamesDiffer (s : Globals) : Prop :=
  ∀ (t t' : SOCKET) (c c' : ClientInfo), s.clients[t]? = some c → s.clients[t']? = some c' →
    c.username = c'.username → c.username ≠ [] → t = t'

/-- The names of the clients tell them apart and are in normal form, and looking for a client by its
name in a room gives this client or nobody. -/
structure NamesResolve (s : Globals) : Prop where
  differ : s.NamesDiffer
  normal : ∀ (t : SOCKET) (c : ClientInfo), s.clients[t]? = some c → c.username ≠ [] →
    Trimmed c.username ∧ OneLine c.username
  found : ∀ (t : SOCKET) (c : ClientInfo) (r : Bytes), s.clients[t]? = some c → c.username ≠ [] →
    s.findClientByUsername c.username r = if c.roomId = r then t else INVALID_SOCKET
  missing : ∀ name r : Bytes, (∀ (t : SOCKET) (c : ClientInfo), s.clients[t]? = some c →
    c.username ≠ name) → s.findClientByUsername name r = INVALID_SOCKET
  member : ∀ (t : SOCKET) (r : Bytes), s.IsMember t r → (s.info t).username ≠ [] →
    s.findClientByUsername (s.info t).username r = t
  listed : s.drawnIds.Nodup → ∀ name r : Bytes, r ≠ [] →
    s.findClientByUsername name r ≠ INVALID_SOCKET → s.IsMember (s.findClientByUsername name r) r

section Lookup

variable {s : Globals}

theorem info_of_getElem? {t : SOCKET} {c : ClientInfo} (h : s.clients[t]? = some c) :
    s.info t = c := by
  rw [Globals.info, h]
  rfl

theorem mem_of_getElem? {t : SOCKET} {c : ClientInfo} (h : s.clients[t]? = some c) :
    t ∈ s.clients := by
  rw [Std.ExtTreeMap.mem_iff_isSome_getElem?, h]
  rfl

/-- Among names that differ, the search stops at the client that holds the name. -/
theorem findClientByUsername_of_holder (hd : s.NamesDiffer) {t : SOCKET} {c : ClientInfo}
    (hc : s.clients[t]? = some c) (hne : c.username ≠ []) (r : Bytes) :
    s.findClientByUsername c.username r = if c.roomId = r then t else INVALID_SOCKET := by
  rcases findClientByUsername_cases s c.username r with ⟨hnone, hother⟩ | ⟨c', hc', hname, hroom⟩
  · have hout : c.roomId ≠ r := hother t c hc rfl
    rw [hnone, if_neg hout]
  · have hsame : t = s.findClientByUsername c.username r := hd t _ c c' hc hc' hname.symm hne
    have hentry : c' = c := by
      rw [← hsame, hc, Option.some.injEq] at hc'
      exact hc'.symm
    rw [← hentry, if_pos hroom, hentry]
    exact hsame.symm

/-- A name that nobody holds is not found. -/
theorem findClientByUsername_of_nobody {name : Bytes}
    (h : ∀ (t : SOCKET) (c : ClientInfo), s.clients[t]? = some c → c.username ≠ name) (r : Bytes) :
    s.findClientByUsername name r = INVALID_SOCKET := by
  rcases findClientByUsername_cases s name r with ⟨hnone, -⟩ | ⟨c, hc, hname, -⟩
  · exact hnone
  · exact absurd hname (h _ c hc)

end Lookup

namespace Machine

variable {m : Machine}

theorem namesDiffer_of_idle (hm : Reachable anyStep m) (hidle : m.Idle) :
    m.globals.NamesDiffer := by
  intro t t' c c' hc hc' hname hne
  have hunique := (hallRun_of_reachable hm hidle).sound.names t t'
  rw [Globals.entry_hall, Globals.entry_hall, info_of_getElem? hc, info_of_getElem? hc'] at hunique
  exact hunique hname hne

/-- In every state of every run, whatever a client is called is a name that SETNAME can have set. -/
theorem nameOk_of_reachable (hm : Reachable anyStep m) (t : SOCKET) :
    NameOk (m.globals.info t).username := by
  obtain ⟨db, listenSocket, hrun⟩ := hm
  obtain ⟨w, hw⟩ := exists_watched hrun
  exact hw.deliverable.names t

/-- Usernames resolve unambiguously whenever no handler is in progress. -/
theorem usernames_resolve (m : Machine) (hm : Reachable anyStep m) (hidle : m.Idle) :
    NamesResolve m.globals := by
  have hd := namesDiffer_of_idle hm hidle
  constructor
  · exact hd
  · intro t c hc _
    have hok := nameOk_of_reachable hm t
    rw [info_of_getElem? hc] at hok
    exact ⟨hok.trimmed, hok.oneLine⟩
  · intro t c r hc hne
    exact findClientByUsername_of_holder hd hc hne r
  · intro name r h
    exact findClientByUsername_of_nobody h r
  · intro t r hmem hne
    -- a member is connected and points back to the room
    obtain ⟨hr, hroom⟩ := roomId_of_isMember hm hidle hmem
    cases hc : m.globals.clients[t]? with
    | none =>
        rw [Globals.info, hc] at hroom
        exact absurd hroom.symm hr
    | some c =>
        rw [info_of_getElem? hc] at hroom hne ⊢
        rw [findClientByUsername_of_holder hd hc hne r, if_pos hroom]
  · intro hdrawn name r hr hfound
    rcases findClientByUsername_cases m.globals name r with ⟨hnone, -⟩ | ⟨c, hc, -, hroom⟩
    · exact absurd hnone hfound
    · apply isMember_of_roomId hm hidle hdrawn hr
      rw [info_of_getElem? hc]
      exact hroom

/-- Two clients with names, one of them in a room. -/
theorem usernames_resolve_guests : ∃ m, Reachable anyStep m ∧ NamesResolve m.globals ∧
    m.globals.findClientByUsername (str "bob") (str "100007") = 5 ∧
    m.globals.findClientByUsername (str "eve") (str "100007") = INVALID_SOCKET := by
  obtain ⟨m, hm, hp⟩ := reachable_of_after (fun _ _ => True)
    [(.connect 4, 0), (.connect 5, 0), (.receive 5 (str "/SETNAME  bob "), 0),
      (.receive 4 (str "/SETNAME eve\nmallory"), 0), (.receive 5 (str "/CREATE PUBLIC"), 7)]
    (fun m => decide (m.Idle ∧
      m.globals.clients[5]? = some (⟨str "bob", str "100007", true⟩ : ClientInfo) ∧
      m.globals.clients[4]? = some (⟨str "eve", [], false⟩ : ClientInfo))) (by decide +kernel)
  obtain ⟨hidle, hbob, heve⟩ := of_decide_eq_true hp
  have hany : Reachable anyStep m := hm.mono fun _ _ _ => trivial
  have hresolve := usernames_resolve m hany hidle
  have hfound := hresolve.found 5 _ (str "100007") hbob (by decide)
  have hmissing := hresolve.found 4 _ (str "100007") heve (by decide)
  exact ⟨m, hany, hresolve, hfound, hmissing⟩

end Machine

end TerminalChat.Server
