import FairShare.Proofs.Owners
import FairShare.Proofs.Sequence

/-!
# The demand is accounted for

The number of waiting requests is the total length of the queues, and the demand is the sum of the
weights of the members of the rota. While the lock runs, the members are the priorities whose
queues are not empty. A halt takes every member out and leaves the queues, so after it a queue may
be long while its priority is no member; what remains true is that members have requests.
-/

namespace FairShare

namespace LockState

variable {s s' : LockState}

theorem weightAt_congr (h : s'.weights = s.weights) : s'.weightAt = s.weightAt := by
  funext p
  rw [weightAt_eq, weightAt_eq, h]

theorem queueAt_congr (h : s'.queues = s.queues) : s'.queueAt = s.queueAt := by
  funext p
  rw [queueAt_eq, queueAt_eq, h]

theorem weights_eq_map_range (s : LockState) :
    s.weights = (List.range s.lanes.length).map s.weightAt := by
  apply List.ext_getElem
  · simp
  · intro p hp _
    rw [List.getElem_map, List.getElem_range, weightAt_eq, List.getElem?_eq_getElem hp]
    rfl

/-- A sum over distinct numbers below a bound is part of the sum over all of them. -/
theorem sum_map_le_range {ids : List Nat} {n : Nat} (nodup : ids.Nodup) (room : ∀ p ∈ ids, p < n)
    (f : Nat → Nat) : (ids.map f).sum ≤ ((List.range n).map f).sum := by
  have sub : ids ⊆ List.range n := by
    intro p hp
    exact List.mem_range.mpr (room p hp)
  obtain ⟨ids', perm, sublist⟩ := List.subperm_of_subset nodup sub
  rw [← (perm.map f).sum_eq]
  exact (sublist.map f).sum_le_sum fun _ _ => Nat.zero_le _

/-- Distinct priorities weigh no more than all of them. -/
theorem sum_weightAt_le {ids : List Nat} (nodup : ids.Nodup)
    (room : ∀ p ∈ ids, p < s.lanes.length) : (ids.map s.weightAt).sum ≤ s.weights.sum := by
  rw [weights_eq_map_range]
  exact sum_map_le_range nodup room s.weightAt

theorem waiters_length (s : LockState) : s.waiters.length = (s.queues.map List.length).sum := by
  rw [waiters_eq, List.length_flatten]

theorem length_links_raiseDemand (s : LockState) (p : Nat) :
    (s.raiseDemand p).rota.links.length = s.rota.links.length := by
  unfold raiseDemand
  split <;> simp

theorem length_links_leaveQueue {s : LockState} {p : Nat} (hp : p < s.lanes.length)
    (rest : List Waiter) : (s.leaveQueue p rest).rota.links.length = s.rota.links.length := by
  by_cases last : rest = []
  · subst last
    rw [(leaveQueue_of_last hp).1, Rota.length_links_strike]
  · rw [(leaveQueue_of_others hp last).1]

/-- Passing the turn, however often, leaves the sequence of the rota. -/
theorem spells_scan {ids : List Nat} (n : Nat) {s : LockState} (h : s.rota.Spells ids) :
    (s.scan n).2.rota.Spells ids := by
  induction n generalizing s with
  | zero => exact h
  | succ n ih =>
      simp only [scan]
      split
      · exact h.openRound
      · split
        · exact h.openRound
        · exact ih h.openRound.passTurn

end LockState

/-- A request leaves the queue of the priority, and what is taken off the counters was on them. -/
structure LockState.ExactExit (p : Nat) (s s' : LockState) : Prop where
  waiting : s'.waiting + 1 = s.waiting
  /-- The weight of the priority goes with its last request, if it was a member. -/
  demand : s'.demand + (if s.rota.contains p ∧ s'.queueAt p = [] then s.weightAt p else 0) =
    s.demand

/-- The account of the demand of a lock with these weights. -/
structure DemandAccounts (weights : List Nat) (s : LockState) : Prop where
  weights : s.weights = weights
  /-- The waiting requests are those in the queues. -/
  waiting : s.waiting = s.waiters.length
  /-- The rota stands for the sequence that its links list. -/
  spells : s.rota.Spells s.rota.toList
  room : s.rota.links.length = s.lanes.length
  /-- The demand is the sum of the weights of the members. -/
  demand : s.demand = (s.rota.toList.map s.weightAt).sum
  /-- A member has a request in its queue. -/
  queued : ∀ p ∈ s.rota.toList, s.queueAt p ≠ []
  /-- While the lock runs, a priority with a request in its queue is a member. -/
  active : s.halted = false → ∀ p, s.queueAt p ≠ [] → p ∈ s.rota.toList
  /-- After a kill nothing is queued. -/
  killed : s.killed = true → s.halted = true ∧ s.waiters = []

namespace DemandAccounts

variable {weights : List Nat} {s s' : LockState}

/-- There is a lane for each weight. -/
theorem length_lanes (h : DemandAccounts weights s) : s.lanes.length = weights.length := by
  rw [← LockState.length_weights, h.weights]

/-- The account reads nothing of the counters but these. -/
theorem congr (h : DemandAccounts weights s) (w : s'.weights = s.weights)
    (queues : s'.queues = s.queues) (waiting : s'.waiting = s.waiting)
    (rota : s'.rota = s.rota) (demand : s'.demand = s.demand) (halted : s'.halted = s.halted)
    (killed : s'.killed = s.killed) : DemandAccounts weights s' := by
  have lanes : s'.lanes.length = s.lanes.length := by
    rw [← LockState.length_weights, w, LockState.length_weights]
  have waiters : s'.waiters = s.waiters := by
    rw [LockState.waiters_eq, queues, LockState.waiters_eq]
  have queueAt := LockState.queueAt_congr queues
  have weightAt := LockState.weightAt_congr w
  refine ⟨w.trans h.weights, ?_, ?_, ?_, ?_, ?_, ?_, ?_⟩
  · rw [waiting, waiters]
    exact h.waiting
  · rw [rota]
    exact h.spells
  · rw [rota, lanes]
    exact h.room
  · rw [demand, rota, weightAt]
    exact h.demand
  · rw [rota, queueAt]
    exact h.queued
  · rw [halted, rota, queueAt]
    exact h.active
  · rw [killed, halted, waiters]
    exact h.killed

theorem takeSlot (h : DemandAccounts weights s) (p : Nat) : DemandAccounts weights (s.takeSlot p) :=
  h.congr (s.weights_takeSlot p) (s.queues_takeSlot p) rfl rfl rfl rfl rfl

theorem returnSlot (h : DemandAccounts weights s) (p : Nat) :
    DemandAccounts weights (s.returnSlot p) :=
  h.congr (s.weights_returnSlot p) (s.queues_returnSlot p) rfl rfl rfl rfl rfl

/-- Passing the turn changes nothing that the account reads. -/
theorem turn (h : DemandAccounts weights s) : DemandAccounts weights s.nextInTurn?.2 := by
  have spells := LockState.spells_scan (s.rota.size + 1) h.spells
  obtain ⟨t, e⟩ := s.nextInTurn?_eq_turn
  change s.nextInTurn?.2.rota.Spells s.rota.toList at spells
  rw [e] at spells ⊢
  exact ⟨h.weights, h.waiting, spells, h.room, h.demand, h.queued, h.active, h.killed⟩

/-- A halt takes every member out. -/
theorem halt (h : DemandAccounts weights s) : DemandAccounts weights s.halt := by
  cases halted : s.halted with
  | true => rwa [LockState.halt_of_halted halted]
  | false =>
      rw [LockState.halt_of_running halted]
      refine ⟨h.weights, h.waiting, Rota.Spells.clear s.rota, ?_, rfl, ?_, ?_, ?_⟩
      · simpa [Rota.clear, Rota.ofSize] using h.room
      · intro p hp
        cases hp
      · intro running
        cases running
      · intro killed
        exact ⟨rfl, (h.killed killed).2⟩

/-- A kill empties the queues too. -/
theorem kill (h : DemandAccounts weights s) : DemandAccounts weights s.kill := by
  cases killed : s.killed with
  | true => rwa [LockState.kill_of_killed killed]
  | false =>
      have none := LockState.waiters_kill killed
      have w : s.kill.weights = weights := by rw [LockState.weights_kill, h.weights]
      have room : s.kill.rota.links.length = s.kill.lanes.length := by
        rw [← LockState.length_weights, LockState.weights_kill, LockState.length_weights, ← h.room]
        exact LockState.length_links_kill s
      have halted : s.kill.halted = true := LockState.halted_kill killed
      rw [LockState.kill_of_alive killed] at none w room halted ⊢
      refine ⟨w, ?_, Rota.Spells.clear _, room, rfl, ?_, ?_, fun _ => ⟨halted, none⟩⟩
      · rw [none]
        rfl
      · intro p hp
        cases hp
      · intro running
        cases halted.symm.trans running

/-- A priority that has no request in its queue is no member. -/
theorem not_mem_of_idle (h : DemandAccounts weights s) {p : Nat} (idle : s.queueAt p = []) :
    p ∉ s.rota.toList :=
  fun member => h.queued p member idle

/-- The first request of a priority brings it into the rota, with its weight. -/
theorem raised_of_idle (h : DemandAccounts weights s) {p : Nat} (hp : p < s.lanes.length)
    (idle : s.queueAt p = []) :
    (s.raiseDemand p).rota.Spells (s.rota.toList ++ [p]) ∧
      (s.raiseDemand p).demand = s.demand + s.weightAt p := by
  have spells := h.spells.enrol (i := p) (by rwa [h.room])
  rw [if_neg (h.not_mem_of_idle idle)] at spells
  unfold LockState.raiseDemand
  rw [idle]
  exact ⟨spells, rfl⟩

/-- Later requests leave the rota as it is. -/
theorem raiseDemand_of_busy {p : Nat} (busy : s.queueAt p ≠ []) : s.raiseDemand p = s := by
  unfold LockState.raiseDemand
  rw [if_neg (by simpa using busy)]

/-- With a request that queues the members are the old ones and its priority. -/
theorem members_of_raiseDemand (h : DemandAccounts weights s) {p : Nat}
    (hp : p < s.lanes.length) : ∃ ids, (s.raiseDemand p).rota.Spells ids ∧
      (s.raiseDemand p).demand = (ids.map s.weightAt).sum ∧
      ∀ q, q ∈ ids ↔ q ∈ s.rota.toList ∨ q = p ∧ s.queueAt p = [] := by
  by_cases idle : s.queueAt p = []
  · obtain ⟨spells, sum⟩ := h.raised_of_idle hp idle
    refine ⟨_, spells, ?_, ?_⟩
    · rw [sum, h.demand]
      simp
    · intro q
      simp [idle]
  · rw [raiseDemand_of_busy idle]
    refine ⟨_, h.spells, h.demand, ?_⟩
    intro q
    simp [idle]

/-- When a request leaves its queue the members that stay are the others, and its priority if the
queue is not empty. -/
theorem members_of_leaveQueue (h : DemandAccounts weights s) {p : Nat} (hp : p < s.lanes.length)
    (rest : List Waiter) : ∃ ids, (s.leaveQueue p rest).rota.Spells ids ∧
      (s.leaveQueue p rest).demand = (ids.map s.weightAt).sum ∧
      ∀ q, q ∈ ids ↔ q ∈ s.rota.toList ∧ (q = p → rest ≠ []) := by
  by_cases last : rest = []
  · subst last
    obtain ⟨rota, demand⟩ := LockState.leaveQueue_of_last hp
    refine ⟨s.rota.toList.erase p, ?_, ?_, ?_⟩
    · rw [rota]
      exact h.spells.strike p
    · rw [demand]
      split
      · rename_i linked
        have member := (h.spells.contains_iff p).mp linked
        have split := List.sum_map_erase s.weightAt member
        rw [h.demand]
        omega
      · rename_i absent
        rw [List.erase_of_not_mem fun member => absent ((h.spells.contains_iff p).mpr member)]
        exact h.demand
    · intro q
      rw [h.spells.nodup.mem_erase_iff]
      simp [and_comm]
  · obtain ⟨rota, demand⟩ := LockState.leaveQueue_of_others hp last
    refine ⟨s.rota.toList, ?_, ?_, ?_⟩
    · rw [rota]
      exact h.spells
    · rw [demand]
      exact h.demand
    · intro q
      simp [last]

/-- A request that queues brings its priority into the rota if nothing waited there. -/
theorem enqueue {p : Nat} (c : Nat) (h : DemandAccounts weights s) (hp : p < s.lanes.length)
    (alive : s.killed = false) : DemandAccounts weights (s.enqueue p c) := by
  have e := s.enqueue_eq p c
  have w := s.weights_enqueue p c
  have lanes : (s.enqueue p c).lanes.length = s.lanes.length := by
    rw [← LockState.length_weights, w, LockState.length_weights]
  have queueAt := LockState.queueAt_enqueue c hp
  have weightAt := LockState.weightAt_congr w
  have rota : (s.enqueue p c).rota = (s.raiseDemand p).rota := by rw [e]
  have demand : (s.enqueue p c).demand = (s.raiseDemand p).demand := by rw [e]
  have waiting : (s.enqueue p c).waiting = s.waiting + 1 := by rw [e]
  have halted : (s.enqueue p c).halted = s.halted := by rw [e]
  have killed : (s.enqueue p c).killed = s.killed := by rw [e]
  obtain ⟨ids, spells, sum, members⟩ := h.members_of_raiseDemand hp
  rw [← rota] at spells
  have toList := spells.toList_eq
  refine ⟨w.trans h.weights, ?_, ?_, ?_, ?_, ?_, ?_, ?_⟩
  · rw [waiting, h.waiting, (LockState.waiters_enqueue_perm c hp).length_eq, List.length_cons]
  · rw [toList]
    exact spells
  · rw [rota, lanes, LockState.length_links_raiseDemand]
    exact h.room
  · rw [demand, sum, toList, weightAt]
  · rw [toList]
    intro q hq
    rw [queueAt q]
    split
    · simp
    · rename_i hqp
      rcases (members q).mp hq with member | ⟨same, -⟩
      · exact h.queued q member
      · exact absurd same hqp
  · rw [halted, toList]
    intro running q hq
    rw [queueAt q] at hq
    apply (members q).mpr
    by_cases hqp : q = p
    · subst hqp
      by_cases idle : s.queueAt q = []
      · exact .inr ⟨rfl, idle⟩
      · exact .inl (h.active running q idle)
    · rw [if_neg hqp] at hq
      exact .inl (h.active running q hq)
  · rw [killed]
    intro dead
    cases alive.symm.trans dead

/-- A request that queues and leaves its queue again leaves nothing behind but the next ticket. If
it was alone in the queue and the turn had come to it, the round is over. -/
theorem leaveQueue_enqueue (h : DemandAccounts weights s) {p : Nat} (room : p < s.lanes.length)
    (c : Nat) {turn : Option Nat} (member : ∀ j, turn = some j → j ∈ s.rota.toList ∨ j = p) :
    ({ s.enqueue p c with rota := { (s.enqueue p c).rota with turn } } : LockState).leaveQueue p
        (s.queueAt p) =
      { s with
        rota := { s.rota with
          turn := if s.queueAt p = [] ∧ turn = some p then none else turn }
        nextTicket := s.nextTicket + 1 } := by
  generalize queued :
    ({ s.enqueue p c with rota := { (s.enqueue p c).rota with turn } } : LockState) = s₁
  have e := s.enqueue_eq p c
  have room₁ : p < s₁.lanes.length := by
    rw [← queued]
    simpa [LockState.lanes_enqueue] using room
  have lanes : (s₁.leaveQueue p (s.queueAt p)).lanes = s.lanes := by
    rw [LockState.lanes_leaveQueue, ← queued, LockState.lanes_enqueue, List.modify_modify_eq]
    exact s.modify_queueAt p
  have rota₁ : s₁.rota = { (s.raiseDemand p).rota with turn } := by rw [← queued, e]
  have demand₁ : s₁.demand = (s.raiseDemand p).demand := by rw [← queued, e]
  have rest : (s₁.leaveQueue p (s.queueAt p)).rota =
      { s.rota with turn := if s.queueAt p = [] ∧ turn = some p then none else turn } ∧
      (s₁.leaveQueue p (s.queueAt p)).demand = s.demand := by
    by_cases idle : s.queueAt p = []
    · obtain ⟨rota, demand⟩ := LockState.leaveQueue_of_last room₁
      have raised : s.raiseDemand p = { s.addDemand p with rota := s.rota.enrol p } := by
        simp [LockState.raiseDemand, idle]
      rw [raised] at rota₁ demand₁
      have there : s₁.rota.contains p = true := by
        have spells := (h.raised_of_idle room idle).1
        rw [raised] at spells
        rw [rota₁]
        exact (spells.contains_iff p).mpr (by simp)
      have weight : s₁.weightAt p = s.weightAt p := by
        rw [LockState.weightAt_eq, LockState.weightAt_eq, ← queued]
        exact congrArg (fun l => l[p]?.getD 0) (s.weights_enqueue p c)
      rw [idle, rota, demand, if_pos there, rota₁, demand₁, weight]
      constructor
      · rw [h.spells.strike_enrol (h.room ▸ room) (h.not_mem_of_idle idle) member]
        simp
      · exact Nat.add_sub_cancel _ _
    · obtain ⟨rota, demand⟩ := LockState.leaveQueue_of_others room₁ idle
      rw [raiseDemand_of_busy idle] at rota₁ demand₁
      rw [rota, demand, rota₁, demand₁]
      simp [idle]
  rw [LockState.leaveQueue_eq, lanes, rest.1, rest.2, ← queued, e]
  rfl

/-- A request that queues and leaves its queue again leaves nothing behind but the next ticket, when
the turn stays where it was. -/
theorem leaveQueue_enqueue_of_turn (h : DemandAccounts weights s) {p : Nat}
    (room : p < s.lanes.length) (c : Nat) :
    (s.enqueue p c).leaveQueue p (s.queueAt p) = { s with nextTicket := s.nextTicket + 1 } := by
  have member := fun j turn => Or.inl (b := j = p) (h.spells.turn j turn)
  have undone := h.leaveQueue_enqueue room c member
  have apart : ¬(s.queueAt p = [] ∧ s.rota.turn = some p) := fun both =>
    h.not_mem_of_idle both.1 (h.spells.turn p both.2)
  rw [if_neg apart, ← s.turn_enqueue p c] at undone
  exact undone.trans (by rw [s.turn_enqueue])

/-- A request that leaves its queue takes its priority out of the rota if it was the last one. -/
theorem leave {p : Nat} {w : Waiter} (h : DemandAccounts weights s)
    (leaves : LockState.Leaves p w s s') : DemandAccounts weights s' := by
  have perm := leaves.waiters_perm
  obtain ⟨before, after, queue, rfl⟩ := leaves.split
  have hp : p < s.lanes.length := LockState.lt_of_queueAt_ne_nil (by simp [queue])
  generalize before ++ after = rest at perm ⊢
  have e := s.leaveQueue_eq p rest
  have w := s.weights_leaveQueue p rest
  have lanes : (s.leaveQueue p rest).lanes.length = s.lanes.length := by
    rw [← LockState.length_weights, w, LockState.length_weights]
  have queueAt := LockState.queueAt_leaveQueue rest hp
  have weightAt := LockState.weightAt_congr w
  have waiting : (s.leaveQueue p rest).waiting = s.waiting - 1 := by rw [e]
  have halted : (s.leaveQueue p rest).halted = s.halted := by rw [e]
  have killed : (s.leaveQueue p rest).killed = s.killed := by rw [e]
  obtain ⟨ids, spells, sum, members⟩ := h.members_of_leaveQueue hp rest
  have toList := spells.toList_eq
  refine ⟨w.trans h.weights, ?_, ?_, ?_, ?_, ?_, ?_, ?_⟩
  · rw [waiting, h.waiting, perm.length_eq, List.length_cons, Nat.add_sub_cancel]
  · rw [toList]
    exact spells
  · rw [LockState.length_links_leaveQueue hp, lanes]
    exact h.room
  · rw [sum, toList, weightAt]
  · rw [toList]
    intro q hq
    obtain ⟨member, others⟩ := (members q).mp hq
    rw [queueAt q]
    split
    · rename_i hqp
      exact others hqp
    · exact h.queued q member
  · rw [halted, toList]
    intro running q hq
    rw [queueAt q] at hq
    apply (members q).mpr
    split at hq
    · rename_i hqp
      subst hqp
      refine ⟨h.active running q ?_, fun _ => hq⟩
      simp [*]
    · rename_i hqp
      exact ⟨h.active running q hq, fun same => absurd same hqp⟩
  · rw [killed, halted]
    intro dead
    obtain ⟨stopped, none⟩ := h.killed dead
    rw [none] at perm
    exact absurd perm.length_eq (by simp)

/-- The weight of a member is part of the demand. -/
theorem weightAt_le (h : DemandAccounts weights s) {p : Nat} (linked : s.rota.contains p = true) :
    s.weightAt p ≤ s.demand := by
  have split := List.sum_map_erase s.weightAt ((h.spells.contains_iff p).mp linked)
  have sum := h.demand
  omega

/-- Leaving a queue takes off the counters only what was on them. -/
theorem exact_leave {p : Nat} {w : Waiter} (h : DemandAccounts weights s)
    (leaves : LockState.Leaves p w s s') : LockState.ExactExit p s s' := by
  have perm := leaves.waiters_perm
  have after := (h.leave leaves).waiting
  obtain ⟨pre, post, queue, rfl⟩ := leaves.split
  have hp : p < s.lanes.length := LockState.lt_of_queueAt_ne_nil (by simp [queue])
  have queueAt := LockState.queueAt_leaveQueue (pre ++ post) hp p
  rw [if_pos rfl] at queueAt
  constructor
  · rw [after, h.waiting, perm.length_eq, List.length_cons]
  · rw [queueAt]
    by_cases last : pre ++ post = []
    · rw [last, (LockState.leaveQueue_of_last hp).2]
      by_cases linked : s.rota.contains p = true
      · have le := h.weightAt_le linked
        rw [if_pos linked, if_pos ⟨linked, rfl⟩]
        omega
      · rw [if_neg linked, if_neg fun both => linked both.1]
        rfl
    · rw [if_neg fun both => last both.2, (LockState.leaveQueue_of_others hp last).2]
      rfl

/-- Distinct members weigh no more than all priorities, even with one more that has no queue. -/
theorem demand_le (h : DemandAccounts weights s) {p : Nat} (hp : p < s.lanes.length)
    (idle : s.queueAt p = []) : s.demand + s.weightAt p ≤ weights.sum := by
  have nodup : (p :: s.rota.toList).Nodup :=
    List.nodup_cons.mpr ⟨h.not_mem_of_idle idle, h.spells.nodup⟩
  have le := LockState.sum_weightAt_le nodup (s := s) fun q hq => by
    rcases List.mem_cons.mp hq with rfl | member
    · exact hp
    · exact h.room ▸ h.spells.room q member
  rw [List.map_cons, List.sum_cons, ← h.demand, h.weights] at le
  omega

theorem demand_le_sum (h : DemandAccounts weights s) : s.demand ≤ weights.sum := by
  rw [h.demand, ← h.weights]
  exact LockState.sum_weightAt_le h.spells.nodup fun q member => h.room ▸ h.spells.room q member

/-- After a kill there is nothing left to account for. -/
theorem of_killed (h : DemandAccounts weights s) (killed : s.killed = true) :
    (∀ p, s.queueAt p = []) ∧ s.rota.toList = [] ∧ s.waiting = 0 ∧ s.demand = 0 := by
  have none := (h.killed killed).2
  have idle : ∀ p, s.queueAt p = [] := by
    intro p
    by_contra busy
    obtain ⟨w, hw⟩ := List.exists_mem_of_ne_nil _ busy
    have member := LockState.mem_waiters_iff.mpr ⟨p, hw⟩
    rw [none] at member
    cases member
  have empty : s.rota.toList = [] := by
    by_contra members
    obtain ⟨p, hp⟩ := List.exists_mem_of_ne_nil _ members
    exact h.queued p hp (idle p)
  refine ⟨idle, empty, ?_, ?_⟩
  · rw [h.waiting, none]
    rfl
  · rw [h.demand, empty]
    rfl

/-- The grant loop takes the first request in turn out of its queue, and a slot for it. -/
theorem grantFirst {p : Nat} {s₁ s₂ : LockState} {w : Waiter} {o : Option Nat}
    (h : DemandAccounts weights s) (scan : s.nextInTurn? = (o, s₁))
    (first : s₁.grantFirst? p = some (w, s₂)) : DemandAccounts weights s₂ := by
  obtain ⟨s₃, leaves, rfl⟩ := LockState.leaves_of_grantFirst? first
  have turned := h.turn
  rw [scan] at turned
  exact (turned.leave leaves).takeSlot p

/-- Every effect keeps the account. -/
theorem keeps {x x' : Instance} {L L' : List Nat} {sec : Section} {a : Agenda Task}
    (effect : Effect x L sec x' a L') (h : DemandAccounts weights x.state) :
    DemandAccounts weights x'.state := by
  cases effect with
  | grantAtOnce => exact h.takeSlot _
  | queue _ room alive => exact h.enqueue _ room alive
  | halt => exact h.halt
  | kill | destroy => exact h.kill
  | withdraw _ _ _ found => exact h.leave (LockState.leaves_of_withdraw? found).2
  | release | letGoLast => exact h.returnSlot _
  | passStalled _ _ _ scan | passEmpty _ _ _ scan =>
      have turned := h.turn
      rwa [scan] at turned
  | grantLost _ _ _ scan first | grantReturned _ _ _ scan first | grant _ _ _ scan first =>
      exact h.grantFirst scan first
  | _ => exact h

end DemandAccounts

/-- A request leaves rota and demand alone, or brings its own priority into them, which nothing
waited at before. -/
theorem Effect.demand_of_request {x x' : Instance} {L L' : List Nat} {p : Nat} {a : Agenda Task}
    {weights : List Nat} (effect : Effect x L (.call (.request p)) x' a L')
    (h : DemandAccounts weights x.state) :
    (x'.state.rota = x.state.rota ∧ x'.state.demand = x.state.demand) ∨
    (x.state.queueAt p = [] ∧ p ∉ x.state.rota.toList ∧
      x'.state.rota.toList = x.state.rota.toList ++ [p] ∧
      x'.state.demand = x.state.demand + x.state.weightAt p) := by
  cases effect with
  | queue _ room =>
      have e := x.state.enqueue_eq p x.channels.length
      have rota : (x.state.enqueue p x.channels.length).rota = (x.state.raiseDemand p).rota := by
        rw [e]
      have demand : (x.state.enqueue p x.channels.length).demand =
          (x.state.raiseDemand p).demand := by rw [e]
      by_cases idle : x.state.queueAt p = []
      · obtain ⟨spells, sum⟩ := h.raised_of_idle room idle
        have toList := (congrArg Rota.toList rota).trans spells.toList_eq
        exact .inr ⟨idle, h.not_mem_of_idle idle, toList, demand.trans sum⟩
      · rw [DemandAccounts.raiseDemand_of_busy idle] at rota demand
        exact .inl ⟨rota, demand⟩
  | letGoMissing lets | letGoClone lets | letGoLast lets => cases lets
  | _ => exact .inl ⟨rfl, rfl⟩

/-- A fresh lock has no demand. -/
theorem demandAccounts_ofConfig (c : Config) :
    DemandAccounts (c.weights.map UInt32.toNat) (.ofConfig c) := by
  refine ⟨?_, ?_, Rota.spells_ofSize _, ?_, rfl, ?_, ?_, ?_⟩
  · simp [LockState.weights, LockState.ofConfig, Function.comp_def]
  · rw [LockState.waiters_ofConfig]
    rfl
  · simp [LockState.ofConfig, Rota.ofSize]
  · intro p hp
    cases hp
  · intro _ p busy
    exact absurd (LockState.queueAt_ofConfig c p) busy
  · intro killed
    cases killed

namespace World

/-- The account holds throughout a run. -/
theorem demandAccounts {c : Config} {x : Instance} {ms : List Move} {w : World}
    (fresh : Instance.create c = .ok x) (run : (start x).run? ms = some w) :
    DemandAccounts (c.weights.map UInt32.toNat) w.inst.state := by
  refine run?_invariant (I := fun x _ _ =>
    DemandAccounts (c.weights.map UInt32.toNat) x.state) ?_ run ?_
  · intro x L sec x' a L' effect rest h
    exact h.keeps effect
  · rw [eq_ofConfig_of_create fresh]
    exact demandAccounts_ofConfig c

/-- A killed instance is halted. -/
theorem halted_of_killed {c : Config} {x : Instance} {ms : List Move} {w : World}
    (fresh : Instance.create c = .ok x) (run : (start x).run? ms = some w)
    (killed : w.inst.state.killed = true) : w.inst.state.halted = true :=
  ((demandAccounts fresh run).killed killed).1

/-- An instance that runs has an owner. -/
theorem owners_of_running {c : Config} {x : Instance} {ms : List Move} {w : World}
    (fresh : Instance.create c = .ok x) (run : (start x).run? ms = some w)
    (running : w.inst.state.halted = false) : w.inst.owners ≠ 0 := by
  intro dead
  cases (halted_of_killed fresh run (killed_of_dead fresh run dead)).symm.trans running

/-- An instance that runs was not killed. -/
theorem alive_of_running {c : Config} {x : Instance} {ms : List Move} {w : World}
    (fresh : Instance.create c = .ok x) (run : (start x).run? ms = some w)
    (running : w.inst.state.halted = false) : w.inst.state.killed = false := by
  by_contra killed
  cases (halted_of_killed fresh run (by simpa using killed)).symm.trans running

/-- There is a lane for each weight. -/
theorem length_lanes {c : Config} {x : Instance} {ms : List Move} {w : World}
    (fresh : Instance.create c = .ok x) (run : (start x).run? ms = some w) :
    w.inst.state.lanes.length = c.weights.length := by
  rw [(demandAccounts fresh run).length_lanes, List.length_map]

/-- The counters of the demand are what they stand for in every state of a run, and none is ever
taken below zero or beyond its width. A kill leaves nothing of them for good. -/
theorem demand_accounted {c : Config} {x : Instance} {ms : List Move} {w : World}
    (fresh : Instance.create c = .ok x) (run : (start x).run? ms = some w) :
    w.inst.state.weights = c.weights.map UInt32.toNat ∧
    w.inst.state.waiting = (w.inst.state.queues.map List.length).sum ∧
    w.inst.state.rota.toList.Nodup ∧
    (∀ p, w.inst.state.rota.contains p = true ↔ p ∈ w.inst.state.rota.toList) ∧
    w.inst.state.demand = (w.inst.state.rota.toList.map w.inst.state.weightAt).sum ∧
    (∀ p ∈ w.inst.state.rota.toList, w.inst.state.queueAt p ≠ []) ∧
    (w.inst.state.halted = false →
      ∀ p, p ∈ w.inst.state.rota.toList ↔ w.inst.state.queueAt p ≠ []) ∧
    ((c.weights.map UInt32.toNat).sum < 2 ^ 64 → w.inst.state.demand < 2 ^ 64 ∧
      ∀ p < w.inst.state.lanes.length, w.inst.state.queueAt p = [] →
        w.inst.state.demand + w.inst.state.weightAt p < 2 ^ 64) ∧
    (∀ p w', w.step? (.call (.request p)) = some w' →
      (w'.inst.state.rota = w.inst.state.rota ∧ w'.inst.state.demand = w.inst.state.demand) ∨
      (w.inst.state.queueAt p = [] ∧ p ∉ w.inst.state.rota.toList ∧
        w'.inst.state.rota.toList = w.inst.state.rota.toList ++ [p] ∧
        w'.inst.state.demand = w.inst.state.demand + w.inst.state.weightAt p)) ∧
    (∀ p ticket entry s', w.inst.state.withdraw? p ticket = some (entry, s') →
      LockState.ExactExit p w.inst.state s') ∧
    (∀ p s₁ entry s', w.inst.state.nextInTurn? = (some p, s₁) →
      s₁.grantFirst? p = some (entry, s') → LockState.ExactExit p w.inst.state s') ∧
    (w.inst.state.killed = true → ∀ ms' w', w.run? ms' = some w' →
      w'.inst.state.killed = true ∧ (∀ p, w'.inst.state.queueAt p = []) ∧
        w'.inst.state.rota.toList = [] ∧ w'.inst.state.waiting = 0 ∧ w'.inst.state.demand = 0) := by
  have h := demandAccounts fresh run
  refine ⟨h.weights, ?_, h.spells.nodup, h.spells.contains_iff, h.demand, h.queued, ?_, ?_, ?_, ?_,
    ?_, ?_⟩
  · rw [h.waiting, LockState.waiters_length]
  · intro running p
    exact ⟨h.queued p, h.active running p⟩
  · intro fits
    constructor
    · exact Nat.lt_of_le_of_lt h.demand_le_sum fits
    · intro p hp idle
      exact Nat.lt_of_le_of_lt (h.demand_le hp idle) fits
  · intro p w' hstep
    obtain ⟨rest, a, -, -, effect⟩ := step?_effect hstep
    exact effect.demand_of_request h
  · intro p ticket entry s' found
    exact h.exact_leave (LockState.leaves_of_withdraw? found).2
  · intro p s₁ entry s' scan first
    obtain ⟨turn, s₃, rfl, leaves, rfl⟩ := LockState.turn_leaves_take scan first
    have turned := h.turn
    rw [scan] at turned
    obtain ⟨waiting, demand⟩ := turned.exact_leave leaves
    have queueAt := LockState.queueAt_congr (s₃.queues_takeSlot p)
    constructor
    · exact waiting
    · rw [queueAt]
      exact demand
  · intro killed ms' w' run'
    have run'' := run?_trans run run'
    have killed' := killed_of_run? run' killed
    exact ⟨killed', (demandAccounts fresh run'').of_killed killed'⟩

/-- A lock with one slot that is granted to one request while another waits for it. -/
theorem demand_accounted_of_two_requests :
    ∃ w, (start (.ofConfig { concurrency := 1, weights := [3] })).run?
        [.call (.request 0), .callEnds, .call (.request 0), .callEnds] = some w ∧
      w.inst.state.waiting = (w.inst.state.queues.map List.length).sum ∧
      w.inst.state.demand = 3 := by
  have run : (start (.ofConfig { concurrency := 1, weights := [3] })).run?
      [.call (.request 0), .callEnds, .call (.request 0), .callEnds] = some _ := rfl
  have accounted := demand_accounted (c := { concurrency := 1, weights := [3] }) rfl run
  exact ⟨_, run, accounted.2.1, rfl⟩

end World

end FairShare
