import Mathlib
import TerminalChat.Abstract.Traces
import TerminalChat.Server.Diary

/-!
# Handlers take effect at once

A handler runs through many actions, between which the broadcaster and the cleanup threads act. Seen
through `g_clients` and `g_chatRooms` it is one operation of the hall nevertheless: a run of the server
is a trace of the hall with one operation for each handled event, in the order of the events
(`Machine.handlers_atomic`).
-/

set_option autoImplicit false

namespace TerminalChat.Server

open TerminalChat.Concurrency TerminalChat.Text TerminalChat.Abstract

namespace Machine

variable {db : Database} {listenSocket : SOCKET} {m : Machine} {diary : List Handled}

/-- The operation is one that the event asks for, or none was performed for it; ownership that is handed
on goes to the heir in the room as it was. -/
def Performs (entry : Handled) (op : ServerOp) : Prop :=
  op = .pass ∨ entry.event.Asks op ∧ HeedsSeniority entry.before op

/-- An event adds one operation to a trace. -/
theorem trace_of_does {asks : ServerOp → Prop} {ops : List ServerOp} {h h' : ServerHall}
    (ht : Hall.Trace INVALID_SOCKET ops h) (hd : Does asks h h') :
    ∃ op, (op = .pass ∨ asks op) ∧ Hall.Trace INVALID_SOCKET (ops ++ [op]) h' := by
  obtain ⟨op, h₁, hasks, hbefore, hp, hafter⟩ := hd
  exact ⟨op, hasks, ((ht.sweeps hbefore).apply op hp).sweeps hafter⟩

/-- In every run each handled event is one operation of the hall: one that the event asks for, permitted
where it takes effect, or none. The operations take effect in the order of the events, with nothing but
sweeps of empty rooms between them, and the entry of every client is what they make of its record. -/
theorem handlers_atomic (h : Kept anyStep db listenSocket m diary) :
    ∃ ops, List.Forall₂ Performs diary ops ∧ Hall.Trace INVALID_SOCKET ops m.globals.hall ∧
      ∀ t : SOCKET, (m.globals.clients[t]?).map ClientInfo.person = Hall.recordOf t ops := by
  have htrace : ∃ ops, List.Forall₂ Performs diary ops ∧
      Hall.Trace INVALID_SOCKET ops m.globals.hall := by
    induction h with
    | boot =>
        refine ⟨[], .nil, ?_⟩
        rw [show (Machine.boot db listenSocket).globals.hall = .empty from hall_boot db listenSocket]
        exact .empty
    | rest h hl hnext ih =>
        obtain ⟨ops, hperforms, ht⟩ := ih
        exact ⟨ops, hperforms, ht.sweeps
          (background_of_rest h.reachable_any h.idle hl.2 hnext).rely.sweeps⟩
    | handle h hh ih =>
        obtain ⟨ops, hperforms, ht⟩ := ih
        obtain ⟨op, hop, ht'⟩ := trace_of_does ht (h.reachable_any.heeds hh.handles)
        exact ⟨ops ++ [op], List.rel_append hperforms (.cons hop .nil), ht'⟩
  obtain ⟨ops, hperforms, ht⟩ := htrace
  exact ⟨ops, hperforms, ht, ht.person⟩

/-- Alice has come, made a room and left it. -/
theorem handlers_atomic_alice : ∃ m diary ops, Kept anyStep {} 3 m diary ∧ diary.length = 4 ∧
    List.Forall₂ Performs diary ops ∧ Hall.Trace INVALID_SOCKET ops m.globals.hall := by
  obtain ⟨m, diary, h, hp⟩ := kept_of_keep anyStep (fun _ _ => True) (fun _ _ _ => trivial)
    (fun _ _ => trivial) [(.connect 4, 0), (.receive 4 (str "/SETNAME alice"), 0),
      (.receive 4 (str "/CREATE PUBLIC"), 7), (.receive 4 (str "/FORCELEAVE"), 0)]
    (fun _ diary => decide (diary.length = 4)) (by decide +kernel)
  obtain ⟨ops, hperforms, ht, -⟩ := handlers_atomic h
  exact ⟨m, diary, ops, h, of_decide_eq_true hp, hperforms, ht⟩

end Machine

end TerminalChat.Server
