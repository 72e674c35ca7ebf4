import FairShare.Proofs.Demand

/-!
# Requests that leave their queues

A caller who gives a request up takes it out of its queue, if it is still there. Requests leave by
priority and ticket, and they may leave in any order: what their queues are then, and which
priorities are struck off the rota, does not depend on it, and the other counters follow from those.
-/

namespace FairShare

namespace LockState

/-- The first request in the queue of the priority that has the ticket. -/
def waiter? (p : Nat) (ticket : UInt64) (s : LockState) : Option Waiter :=
  (s.queueAt p).find? (·.ticket = ticket)

/-- The counters without that request, if it is there. -/
def abandon (p : Nat) (ticket : UInt64) (s : LockState) : LockState :=
  match s.withdraw? p ticket with
  | none => s
  | some (_, s') => s'

variable {s : LockState} {p q : Nat} {ticket ticket' : UInt64}

theorem withdraw?_of_absent (absent : s.waiter? p ticket = none) :
    s.withdraw? p ticket = none := by
  unfold waiter? at absent
  unfold withdraw?
  rw [absent]

theorem withdraw?_of_entry {e : Waiter} (here : s.waiter? p ticket = some e) :
    s.withdraw? p ticket = some (e, s.abandon p ticket) := by
  unfold waiter? at here
  unfold abandon withdraw?
  rw [here]

theorem abandon_of_absent (absent : s.waiter? p ticket = none) : s.abandon p ticket = s := by
  unfold abandon
  rw [withdraw?_of_absent absent]

/-- A request that is there leaves its queue. -/
theorem leaves_abandon {e : Waiter} (here : s.waiter? p ticket = some e) :
    Leaves p e s (s.abandon p ticket) :=
  (leaves_of_withdraw? (withdraw?_of_entry here)).2

theorem abandon_of_entry {e : Waiter} (here : s.waiter? p ticket = some e) :
    s.abandon p ticket = s.leaveQueue p ((s.queueAt p).eraseP (·.ticket = ticket)) := by
  unfold waiter? at here
  unfold abandon withdraw?
  rw [here]

/-- The queue loses its first request with the ticket, whether there is one or not. -/
theorem lanes_abandon (s : LockState) (p : Nat) (ticket : UInt64) :
    (s.abandon p ticket).lanes = s.lanes.modify p fun lane =>
      { lane with queue := lane.queue.eraseP (·.ticket = ticket) } := by
  rw [s.modify_queue p fun queue => queue.eraseP (·.ticket = ticket)]
  cases here : s.waiter? p ticket with
  | none =>
      rw [abandon_of_absent here, List.eraseP_of_forall_not (List.find?_eq_none.mp here),
        modify_queueAt]
  | some e => rw [abandon_of_entry here, lanes_leaveQueue]

/-- Leaving a queue changes nothing but the queues and what counts them. -/
theorem abandon_eq (s : LockState) (p : Nat) (ticket : UInt64) :
    s.abandon p ticket =
      { s with
        lanes := (s.abandon p ticket).lanes
        demand := (s.abandon p ticket).demand
        rota := (s.abandon p ticket).rota
        waiting := (s.abandon p ticket).waiting } := by
  cases here : s.waiter? p ticket with
  | none => rw [abandon_of_absent here]
  | some e =>
      rw [abandon_of_entry here, leaveQueue_eq]

theorem queueAt_abandon (s : LockState) (p q : Nat) (ticket : UInt64) :
    (s.abandon p ticket).queueAt q =
      if q = p then (s.queueAt p).eraseP (·.ticket = ticket) else s.queueAt q := by
  cases here : s.waiter? p ticket with
  | none =>
      rw [abandon_of_absent here, List.eraseP_of_forall_not (List.find?_eq_none.mp here)]
      split
      · rename_i same
        rw [same]
      · rfl
  | some e => rw [abandon_of_entry here, queueAt_leaveQueue _ (leaves_abandon here).lt]

theorem frame_abandon (s : LockState) (p : Nat) (ticket : UInt64) :
    (s.abandon p ticket).slots = s.slots ∧ (s.abandon p ticket).free = s.free ∧
      (s.abandon p ticket).halted = s.halted ∧ (s.abandon p ticket).killed = s.killed ∧
      (s.abandon p ticket).nextTicket = s.nextTicket := by
  rw [abandon_eq]
  exact ⟨rfl, rfl, rfl, rfl, rfl⟩

/-- What is looked up at another priority, or by another ticket, stays. -/
theorem waiter?_abandon (apart : p = q → ticket ≠ ticket') :
    (s.abandon q ticket').waiter? p ticket = s.waiter? p ticket := by
  unfold waiter?
  rw [queueAt_abandon]
  split
  · rename_i same
    rw [same]
    apply find?_eraseP
    intro e own
    have own := of_decide_eq_true own
    exact decide_eq_false fun other => apart same (own.symm.trans other)
  · rfl

end LockState

/-- Requests with different tickets may leave a queue in any order. -/
theorem eraseP_ticket_comm {ticket ticket' : UInt64} (apart : ticket ≠ ticket')
    (queue : List Waiter) :
    (queue.eraseP (·.ticket = ticket)).eraseP (·.ticket = ticket') =
      (queue.eraseP (·.ticket = ticket')).eraseP (·.ticket = ticket) := by
  apply List.eraseP_comm
  intro e _
  by_contra both
  simp only [decide_eq_true_eq, not_or, not_not] at both
  exact apart (both.1.symm.trans both.2)

namespace DemandAccounts

variable {weights : List Nat} {s s' : LockState} {p q : Nat} {ticket ticket' : UInt64}

theorem abandon (h : DemandAccounts weights s) (p : Nat) (ticket : UInt64) :
    DemandAccounts weights (s.abandon p ticket) := by
  cases here : s.waiter? p ticket with
  | none => rwa [LockState.abandon_of_absent here]
  | some e => exact h.leave (LockState.leaves_abandon here)

/-- A priority whose queue is empty then is struck off, whether or not it was a member before. -/
theorem rota_abandon (h : DemandAccounts weights s) (p : Nat) (ticket : UInt64) :
    (s.abandon p ticket).rota =
      if (s.queueAt p).eraseP (·.ticket = ticket) = [] then s.rota.strike p else s.rota := by
  cases here : s.waiter? p ticket with
  | none =>
      rw [LockState.abandon_of_absent here,
        List.eraseP_of_forall_not (List.find?_eq_none.mp here)]
      split
      · rename_i idle
        rw [Rota.strike, h.spells.contains_eq_false (h.not_mem_of_idle idle)]
        rfl
      · rfl
  | some e =>
      have hp := (LockState.leaves_abandon here).lt
      rw [LockState.abandon_of_entry here]
      split
      · rename_i last
        rw [last, (LockState.leaveQueue_of_last hp).1]
      · rename_i others
        rw [(LockState.leaveQueue_of_others hp others).1]

/-- The account settles the waiting requests and the demand: lanes and members determine them. -/
theorem ext (h : DemandAccounts weights s) (h' : DemandAccounts weights s')
    (lanes : s.lanes = s'.lanes) (rota : s.rota = s'.rota) (slots : s.slots = s'.slots)
    (free : s.free = s'.free) (halted : s.halted = s'.halted) (killed : s.killed = s'.killed)
    (next : s.nextTicket = s'.nextTicket) : s = s' := by
  have waiters : s.waiters = s'.waiters := by rw [LockState.waiters, LockState.waiters, lanes]
  have weightAt : s.weightAt = s'.weightAt := by
    apply LockState.weightAt_congr
    rw [h.weights, h'.weights]
  have waiting : s.waiting = s'.waiting := by rw [h.waiting, h'.waiting, waiters]
  have demand : s.demand = s'.demand := by rw [h.demand, h'.demand, rota, weightAt]
  cases s
  cases s'
  simp_all

/-- The members do not depend on the order in which requests leave. -/
theorem rota_abandon_comm (h : DemandAccounts weights s) (apart : p = q → ticket ≠ ticket') :
    ((s.abandon p ticket).abandon q ticket').rota =
      ((s.abandon q ticket').abandon p ticket).rota := by
  rw [(h.abandon p ticket).rota_abandon, (h.abandon q ticket').rota_abandon, h.rota_abandon,
    h.rota_abandon, LockState.queueAt_abandon, LockState.queueAt_abandon]
  by_cases same : p = q
  · subst same
    rw [if_pos rfl, if_pos rfl, eraseP_ticket_comm (apart rfl)]
    split
    · split <;> split <;> simp [h.spells.strike_strike]
    · rename_i others
      -- a queue that is not empty when both have left was not empty when one had left
      have some₁ : (s.queueAt p).eraseP (·.ticket = ticket) ≠ [] := by
        intro none
        rw [← eraseP_ticket_comm (apart rfl), none] at others
        exact others rfl
      have some₂ : (s.queueAt p).eraseP (·.ticket = ticket') ≠ [] := by
        intro none
        rw [none] at others
        exact others rfl
      rw [if_neg some₁, if_neg some₂]
  · rw [if_neg (Ne.symm same), if_neg same]
    split <;> split <;> simp [h.spells.strike_comm p q]

/-- Requests may leave in any order. -/
theorem abandon_comm (h : DemandAccounts weights s) (p q : Nat) (ticket ticket' : UInt64) :
    (s.abandon p ticket).abandon q ticket' = (s.abandon q ticket').abandon p ticket := by
  by_cases same : p = q ∧ ticket = ticket'
  · rw [same.1, same.2]
  · have apart : p = q → ticket ≠ ticket' := fun e e' => same ⟨e, e'⟩
    apply ((h.abandon p ticket).abandon q ticket').ext ((h.abandon q ticket').abandon p ticket)
    · simp only [LockState.lanes_abandon]
      apply modify_comm
      intro e lane
      rw [eraseP_ticket_comm (apart e)]
    · exact h.rota_abandon_comm apart
    all_goals simp [LockState.frame_abandon]

/-- A slot that is returned and a request that leaves do not meet. -/
theorem abandon_returnSlot (h : DemandAccounts weights s) (p q : Nat) (ticket : UInt64) :
    (s.returnSlot q).abandon p ticket = (s.abandon p ticket).returnSlot q := by
  apply ((h.returnSlot q).abandon p ticket).ext ((h.abandon p ticket).returnSlot q)
  · rw [LockState.lanes_abandon]
    simp only [LockState.returnSlot, LockState.modifyLane, LockState.lanes_abandon]
    apply modify_comm
    intro same lane
    rfl
  · rw [(h.returnSlot q).rota_abandon, LockState.queueAt_returnSlot]
    exact (h.rota_abandon p ticket).symm
  all_goals simp [LockState.frame_abandon, LockState.returnSlot, LockState.modifyLane]

end DemandAccounts

end FairShare
