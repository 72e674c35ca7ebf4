import FairShare.Lock.State
import FairShare.Proofs.Tally

/-!
# The counters through views

What a lock holds is read through three lists, with one entry for each priority: the weights, the
runners and the queues. Each operation changes at most one entry of one of them. The lemmas here
say which, and what becomes of the counters beside them, so that no later proof opens an operation.
-/

namespace FairShare

namespace LockState

/-- The weights of the priorities. -/
def weights (s : LockState) : List Nat :=
  s.lanes.map fun lane => lane.weight.toNat

/-- The slots held at the priorities. -/
def runners (s : LockState) : List Nat :=
  s.lanes.map Lane.runners

/-- The queues of the priorities. -/
def queues (s : LockState) : List (List Waiter) :=
  s.lanes.map Lane.queue

variable (s : LockState) (p q : Nat)

@[simp] theorem length_weights : s.weights.length = s.lanes.length := by simp [weights]

@[simp] theorem length_runners : s.runners.length = s.lanes.length := by simp [runners]

@[simp] theorem length_queues : s.queues.length = s.lanes.length := by simp [queues]

theorem weightAt_eq : s.weightAt p = s.weights[p]?.getD 0 := by
  simp only [weightAt, laneAt, weights, List.getElem?_map, List.getD_eq_getElem?_getD]
  cases s.lanes[p]? <;> rfl

theorem runnersAt_eq : s.runnersAt p = s.runners[p]?.getD 0 := by
  simp only [runnersAt, laneAt, runners, List.getElem?_map, List.getD_eq_getElem?_getD]
  cases s.lanes[p]? <;> rfl

theorem queueAt_eq : s.queueAt p = s.queues[p]?.getD [] := by
  simp only [queueAt, laneAt, queues, List.getElem?_map, List.getD_eq_getElem?_getD]
  cases s.lanes[p]? <;> rfl

theorem waiters_eq : s.waiters = s.queues.flatten := by
  simp [waiters, queues, List.flatMap_def]

/-- A priority that holds a slot has a lane. -/
theorem lt_of_runnersAt_pos {s : LockState} {p : Nat} (h : 0 < s.runnersAt p) :
    p < s.lanes.length := by
  by_contra out
  rw [runnersAt_eq, List.getElem?_eq_none (by simpa using out)] at h
  exact absurd h (Nat.lt_irrefl 0)

/-- A priority with a request in its queue is one of the lock. -/
theorem lt_of_queueAt_ne_nil {s : LockState} {p : Nat} (h : s.queueAt p ≠ []) :
    p < s.lanes.length := by
  by_contra hp
  apply h
  rw [queueAt_eq, List.getElem?_eq_none (by simpa using hp)]
  rfl

theorem getElem?_queues {s : LockState} {p : Nat} (hp : p < s.lanes.length) :
    s.queues[p]? = some (s.queueAt p) := by
  rw [queueAt_eq, List.getElem?_eq_getElem (show p < s.queues.length by simpa using hp)]
  rfl

theorem mem_waiters_iff {s : LockState} {w : Waiter} : w ∈ s.waiters ↔ ∃ p, w ∈ s.queueAt p := by
  simp only [waiters_eq, List.mem_flatten, queueAt_eq]
  constructor
  · rintro ⟨queue, hq, hw⟩
    obtain ⟨p, hp⟩ := List.mem_iff_getElem?.mp hq
    exact ⟨p, by simpa [hp] using hw⟩
  · rintro ⟨p, hw⟩
    cases hp : s.queues[p]? with
    | none => simp [hp] at hw
    | some queue => exact ⟨queue, List.mem_of_getElem? hp, by simpa [hp] using hw⟩

/-- A queue is a part of the waiters, in their order. -/
theorem queueAt_sublist_waiters (s : LockState) (p : Nat) : (s.queueAt p).Sublist s.waiters := by
  rw [queueAt_eq, waiters_eq]
  cases hp : s.queues[p]? with
  | none => exact List.nil_sublist _
  | some queue => exact List.sublist_flatten_of_mem (List.mem_of_getElem? hp)

/-! ## The lanes -/

/-- A change of lanes that leaves the weights alone leaves the weight view alone. -/
theorem weights_modifyLane {f : Lane → Lane} (h : ∀ lane, (f lane).weight = lane.weight) :
    (s.modifyLane p f).weights = s.weights := by
  have e := map_modify (f := fun lane : Lane => lane.weight.toNat) (g := f) (h := id)
    (fun lane => by simp [h]) s.lanes p
  simpa [weights, modifyLane] using e

theorem runners_modifyLane {f : Lane → Lane} {g : Nat → Nat}
    (h : ∀ lane, (f lane).runners = g lane.runners) :
    (s.modifyLane p f).runners = s.runners.modify p g :=
  map_modify h s.lanes p

theorem queues_modifyLane {f : Lane → Lane} {g : List Waiter → List Waiter}
    (h : ∀ lane, (f lane).queue = g lane.queue) :
    (s.modifyLane p f).queues = s.queues.modify p g :=
  map_modify h s.lanes p

theorem queueAt_modify {s s' : LockState} {p : Nat} {g : List Waiter → List Waiter}
    (h : s'.queues = s.queues.modify p g) (hp : p < s.lanes.length) (q : Nat) :
    s'.queueAt q = if q = p then g (s.queueAt p) else s.queueAt q := by
  rw [queueAt_eq, queueAt_eq, queueAt_eq, h]
  split
  · rename_i hqp
    subst hqp
    simp [getElem?_queues hp]
  · rename_i hqp
    rw [List.getElem?_modify_ne _ _ (Ne.symm hqp)]

/-- A lane that is given a queue has it. -/
theorem queueAt_modifyLane {s : LockState} {p : Nat} (hp : p < s.lanes.length)
    (rest : List Waiter) :
    (s.modifyLane p fun lane => { lane with queue := rest }).queueAt p = rest := by
  have queues := queues_modifyLane s p (f := fun lane => { lane with queue := rest })
    (g := fun _ => rest) fun _ => rfl
  rw [queueAt_modify queues hp, if_pos rfl]

theorem weightAt_modifyLane (s : LockState) (p q : Nat) (rest : List Waiter) :
    (s.modifyLane p fun lane => { lane with queue := rest }).weightAt q = s.weightAt q := by
  have weights := weights_modifyLane s p (f := fun lane => { lane with queue := rest }) fun _ => rfl
  rw [weightAt_eq, weightAt_eq, weights]

@[simp] theorem modify_id' {α : Type} (l : List α) (i : Nat) : (l.modify i fun a => a) = l :=
  List.modify_id i l

/-- In a fresh lock nothing waits. -/
theorem waiters_ofConfig (c : Config) : (ofConfig c).waiters = [] := by
  simp [waiters, ofConfig, List.flatMap_map]

theorem queueAt_ofConfig (c : Config) (p : Nat) : (ofConfig c).queueAt p = [] := by
  have sub := queueAt_sublist_waiters (ofConfig c) p
  rw [waiters_ofConfig] at sub
  exact List.sublist_nil.mp sub

/-! ## Slots -/

@[simp] theorem weights_takeSlot : (s.takeSlot p).weights = s.weights :=
  weights_modifyLane s p fun _ => rfl

@[simp] theorem runners_takeSlot : (s.takeSlot p).runners = s.runners.modify p (· + 1) :=
  runners_modifyLane s p fun _ => rfl

@[simp] theorem queues_takeSlot : (s.takeSlot p).queues = s.queues := by
  have e := queues_modifyLane s p (f := fun lane => { lane with runners := lane.runners + 1 })
    (g := fun queue => queue) fun _ => rfl
  exact e.trans (modify_id' _ _)

@[simp] theorem weights_returnSlot : (s.returnSlot p).weights = s.weights :=
  weights_modifyLane s p fun _ => rfl

@[simp] theorem runners_returnSlot : (s.returnSlot p).runners = s.runners.modify p (· - 1) :=
  runners_modifyLane s p fun _ => rfl

@[simp] theorem queues_returnSlot : (s.returnSlot p).queues = s.queues := by
  have e := queues_modifyLane s p (f := fun lane => { lane with runners := lane.runners - 1 })
    (g := fun queue => queue) fun _ => rfl
  exact e.trans (modify_id' _ _)

/-- A slot that is taken and returned changes nothing. -/
theorem returnSlot_takeSlot : (s.takeSlot p).returnSlot p = s := by
  have free : s.free - 1 + 1 = s.free := by omega
  simp only [returnSlot, takeSlot, modifyLane, List.modify_modify_eq, free]
  have lanes : s.lanes.modify p (fun lane => lane) = s.lanes := modify_id' s.lanes p
  exact congrArg (fun lanes => { s with lanes }) lanes

/-- Slots may be returned in any order. -/
theorem returnSlot_comm (s : LockState) (p q : Nat) :
    (s.returnSlot p).returnSlot q = (s.returnSlot q).returnSlot p := by
  unfold returnSlot modifyLane
  simp only
  rw [modify_comm]
  intro same lane
  rfl

@[simp] theorem queueAt_takeSlot (q : Nat) : (s.takeSlot p).queueAt q = s.queueAt q := by
  rw [queueAt_eq, queues_takeSlot, ← queueAt_eq]

@[simp] theorem queueAt_returnSlot (q : Nat) : (s.returnSlot p).queueAt q = s.queueAt q := by
  rw [queueAt_eq, queues_returnSlot, ← queueAt_eq]

@[simp] theorem waiters_takeSlot : (s.takeSlot p).waiters = s.waiters := by
  simp [waiters_eq]

@[simp] theorem waiters_returnSlot : (s.returnSlot p).waiters = s.waiters := by
  simp [waiters_eq]

/-! ## Queues -/

/-- Raising and ending demand change the demand and the rota only. -/
theorem raiseDemand_eq :
    s.raiseDemand p =
      { s with demand := (s.raiseDemand p).demand, rota := (s.raiseDemand p).rota } := by
  unfold raiseDemand addDemand
  split <;> rfl

theorem endDemand_eq :
    s.endDemand p = { s with demand := (s.endDemand p).demand, rota := (s.endDemand p).rota } := by
  unfold endDemand
  split <;> rfl

variable (c : Nat)

@[simp] theorem weights_enqueue : (s.enqueue p c).weights = s.weights := by
  unfold enqueue
  rw [raiseDemand_eq]
  exact weights_modifyLane _ _ fun _ => rfl

@[simp] theorem runners_enqueue : (s.enqueue p c).runners = s.runners := by
  unfold enqueue
  rw [raiseDemand_eq]
  have e := runners_modifyLane s p
    (f := fun lane => { lane with queue := lane.queue ++ [⟨s.nextTicket, c⟩] })
    (g := fun n => n) fun _ => rfl
  exact e.trans (modify_id' _ _)

@[simp] theorem queues_enqueue :
    (s.enqueue p c).queues = s.queues.modify p (· ++ [⟨s.nextTicket, c⟩]) := by
  unfold enqueue
  rw [raiseDemand_eq]
  exact queues_modifyLane s p fun _ => rfl

/-- A queue that a request joins has it at the end, and the others stay. -/
theorem queueAt_enqueue {s : LockState} {p : Nat} (c : Nat) (room : p < s.lanes.length) (q : Nat) :
    (s.enqueue p c).queueAt q =
      if q = p then s.queueAt p ++ [⟨s.nextTicket, c⟩] else s.queueAt q :=
  queueAt_modify (s.queues_enqueue p c) room q

/-- What queueing leaves alone, and what it counts. -/
theorem enqueue_eq :
    s.enqueue p c =
      { s with
        lanes := (s.enqueue p c).lanes
        demand := (s.raiseDemand p).demand
        rota := (s.raiseDemand p).rota
        waiting := s.waiting + 1
        nextTicket := s.nextTicket + 1 } := by
  unfold enqueue
  rw [raiseDemand_eq]
  rfl

/-- A request that queues leaves the turn where it is. -/
theorem turn_enqueue : (s.enqueue p c).rota.turn = s.rota.turn := by
  rw [enqueue_eq]
  unfold raiseDemand Rota.enrol
  split
  · split <;> rfl
  · rfl

theorem lanes_enqueue :
    (s.enqueue p c).lanes =
      s.lanes.modify p fun lane => { lane with queue := lane.queue ++ [⟨s.nextTicket, c⟩] } := by
  unfold enqueue
  rw [raiseDemand_eq]
  rfl

theorem lanes_leaveQueue (rest : List Waiter) :
    (s.leaveQueue p rest).lanes = s.lanes.modify p fun lane => { lane with queue := rest } := by
  unfold leaveQueue
  rw [endDemand_eq]
  rfl

/-- A lane that is given the queue that it has stays as it is. -/
theorem modify_queueAt (s : LockState) (p : Nat) :
    (s.lanes.modify p fun lane => { lane with queue := s.queueAt p }) = s.lanes := by
  cases here : s.lanes[p]? with
  | none => exact List.modify_eq_self (List.getElem?_eq_none_iff.mp here)
  | some lane =>
      have queue : s.queueAt p = lane.queue := by
        simp [queueAt, laneAt, List.getD_eq_getElem?_getD, here]
      rw [modify_eq_set_of_getElem? _ here, queue]
      obtain ⟨hp, rfl⟩ := List.getElem?_eq_some_iff.mp here
      exact List.set_getElem_self hp

/-- Of a lane that is changed only the queue it has counts. -/
theorem modify_queue (s : LockState) (p : Nat) (f : List Waiter → List Waiter) :
    (s.lanes.modify p fun lane => { lane with queue := f lane.queue }) =
      s.lanes.modify p fun lane => { lane with queue := f (s.queueAt p) } := by
  cases here : s.lanes[p]? with
  | none =>
      have out := List.getElem?_eq_none_iff.mp here
      rw [List.modify_eq_self out, List.modify_eq_self out]
  | some lane =>
      have queue : s.queueAt p = lane.queue := by
        simp [queueAt, laneAt, List.getD_eq_getElem?_getD, here]
      rw [modify_eq_set_of_getElem? _ here, modify_eq_set_of_getElem? _ here, queue]

@[simp] theorem weights_leaveQueue (rest : List Waiter) :
    (s.leaveQueue p rest).weights = s.weights := by
  unfold leaveQueue
  rw [endDemand_eq]
  exact weights_modifyLane s p fun _ => rfl

@[simp] theorem runners_leaveQueue (rest : List Waiter) :
    (s.leaveQueue p rest).runners = s.runners := by
  unfold leaveQueue
  rw [endDemand_eq]
  have e := runners_modifyLane s p (f := fun lane => { lane with queue := rest })
    (g := fun n => n) fun _ => rfl
  exact e.trans (modify_id' _ _)

@[simp] theorem queues_leaveQueue (rest : List Waiter) :
    (s.leaveQueue p rest).queues = s.queues.modify p fun _ => rest := by
  unfold leaveQueue
  rw [endDemand_eq]
  exact queues_modifyLane s p fun _ => rfl

theorem queueAt_leaveQueue {s : LockState} {p : Nat} (rest : List Waiter)
    (room : p < s.lanes.length) (q : Nat) :
    (s.leaveQueue p rest).queueAt q = if q = p then rest else s.queueAt q :=
  queueAt_modify (s.queues_leaveQueue p rest) room q

/-- What leaving a queue leaves alone, and what it counts. -/
theorem leaveQueue_eq (rest : List Waiter) :
    s.leaveQueue p rest =
      { s with
        lanes := (s.leaveQueue p rest).lanes
        demand := (s.leaveQueue p rest).demand
        rota := (s.leaveQueue p rest).rota
        waiting := s.waiting - 1 } := by
  unfold leaveQueue
  rw [endDemand_eq]
  rfl

theorem endDemand_of_others {s : LockState} {p : Nat} (others : s.queueAt p ≠ []) :
    s.endDemand p = s := by
  unfold endDemand
  rw [if_neg (by simp [others])]

theorem endDemand_of_last {s : LockState} {p : Nat} (last : s.queueAt p = []) :
    (s.endDemand p).rota = s.rota.strike p ∧
      (s.endDemand p).demand =
        if s.rota.contains p then s.demand - s.weightAt p else s.demand := by
  unfold endDemand Rota.strike
  rw [last, List.isEmpty_nil, Bool.true_and]
  split
  · exact ⟨rfl, rfl⟩
  · exact ⟨rfl, rfl⟩

/-- Leaving a queue that stays non-empty leaves rota and demand alone. -/
theorem leaveQueue_of_others {s : LockState} {p : Nat} {rest : List Waiter}
    (hp : p < s.lanes.length) (others : rest ≠ []) :
    (s.leaveQueue p rest).rota = s.rota ∧ (s.leaveQueue p rest).demand = s.demand := by
  have queue := queueAt_modifyLane hp rest
  have e := endDemand_of_others (s := { s.modifyLane p fun lane =>
    { lane with queue := rest } with waiting := s.waiting - 1 })
    fun none => others (queue.symm.trans none)
  exact ⟨(congrArg LockState.rota e).trans rfl, (congrArg LockState.demand e).trans rfl⟩

/-- Leaving a queue that gets empty strikes its priority off, and its weight, if it is linked. -/
theorem leaveQueue_of_last {s : LockState} {p : Nat} (hp : p < s.lanes.length) :
    (s.leaveQueue p []).rota = s.rota.strike p ∧
      (s.leaveQueue p []).demand =
        if s.rota.contains p then s.demand - s.weightAt p else s.demand := by
  have weight := weightAt_modifyLane s p p []
  obtain ⟨rota, demand⟩ := endDemand_of_last (s := { s.modifyLane p fun lane =>
    { lane with queue := [] } with waiting := s.waiting - 1 }) (queueAt_modifyLane hp [])
  refine ⟨rota, demand.trans ?_⟩
  rw [← weight]
  rfl

/-- A request leaves its queue: the one at some place between others. -/
structure Leaves (p : Nat) (w : Waiter) (s s' : LockState) : Prop where
  /-- The queue had the request, and the others stay in their order. -/
  split : ∃ before after, s.queueAt p = before ++ w :: after ∧
    s' = s.leaveQueue p (before ++ after)

/-- What is withdrawn is the first request of the queue with the ticket. -/
theorem leaves_of_withdraw? {s s' : LockState} {p : Nat} {ticket : UInt64} {w : Waiter}
    (h : s.withdraw? p ticket = some (w, s')) : w.ticket = ticket ∧ Leaves p w s s' := by
  unfold withdraw? at h
  split at h
  · cases h
  · rename_i w' found
    obtain ⟨rfl, rfl⟩ := Prod.mk.inj (Option.some.inj h)
    obtain ⟨hw, before, after, hq, hbefore⟩ := List.find?_eq_some_iff_append.mp found
    refine ⟨of_decide_eq_true hw, ⟨before, after, hq, ?_⟩⟩
    rw [hq, List.eraseP_append_right _ (by simpa using hbefore)]
    simp only [List.eraseP_cons, hw, cond_true]

/-- Nothing is withdrawn only if no request of the queue has the ticket. -/
theorem withdraw?_eq_none {s : LockState} {p : Nat} {ticket : UInt64}
    (h : s.withdraw? p ticket = none) : ∀ w ∈ s.queueAt p, w.ticket ≠ ticket := by
  unfold withdraw? at h
  split at h
  · rename_i found
    simpa using List.find?_eq_none.mp found
  · cases h

/-- What is granted is the first request of the queue. -/
theorem leaves_of_grantFirst? {s s' : LockState} {p : Nat} {w : Waiter}
    (h : s.grantFirst? p = some (w, s')) :
    ∃ s₁, Leaves p w s s₁ ∧ s' = s₁.takeSlot p := by
  unfold grantFirst? at h
  split at h
  · cases h
  · rename_i w' rest hq
    obtain ⟨rfl, rfl⟩ := Prod.mk.inj (Option.some.inj h)
    exact ⟨_, ⟨[], rest, hq, rfl⟩, rfl⟩

/-- There is a first request to grant as soon as the queue is not empty. -/
theorem grantFirst?_eq_none_iff {s : LockState} {p : Nat} :
    s.grantFirst? p = none ↔ s.queueAt p = [] := by
  unfold grantFirst?
  split <;> simp_all

/-- Queueing adds one request. -/
theorem waiters_enqueue_perm {s : LockState} {p : Nat} (c : Nat) (hp : p < s.lanes.length) :
    (s.enqueue p c).waiters.Perm (⟨s.nextTicket, c⟩ :: s.waiters) := by
  obtain ⟨b, d, h, h'⟩ := flatten_modify (getElem?_queues hp) (· ++ [⟨s.nextTicket, c⟩])
  rw [waiters_eq, queues_enqueue, h', waiters_eq, h, ← List.append_assoc b, List.append_assoc]
  exact List.perm_middle

/-- Leaving a queue takes one request away. -/
theorem Leaves.waiters_perm {s s' : LockState} {p : Nat} {w : Waiter} (h : Leaves p w s s') :
    s.waiters.Perm (w :: s'.waiters) := by
  obtain ⟨before, after, hq, rfl⟩ := h.split
  have hp : p < s.lanes.length := lt_of_queueAt_ne_nil (by simp [hq])
  obtain ⟨b, d, h, h'⟩ := flatten_modify (getElem?_queues hp) fun _ => before ++ after
  rw [waiters_eq, waiters_eq, queues_leaveQueue, h', h, hq]
  have e : b ++ (before ++ w :: after) ++ d = (b ++ before) ++ w :: (after ++ d) := by simp
  have e' : b ++ (before ++ after) ++ d = (b ++ before) ++ (after ++ d) := by simp
  rw [e, e']
  exact List.perm_middle

namespace Leaves

variable {s s' : LockState} {p : Nat} {w : Waiter}

theorem mem (h : Leaves p w s s') : w ∈ s.queueAt p := by
  obtain ⟨before, after, hq, -⟩ := h.split
  rw [hq]
  exact List.mem_append_right _ List.mem_cons_self

theorem lt (h : Leaves p w s s') : p < s.lanes.length :=
  lt_of_queueAt_ne_nil (List.ne_nil_of_mem h.mem)

/-- The queues lose the request and nothing else. -/
theorem queueAt_eq (h : Leaves p w s s') (q : Nat) :
    ∃ before after, s.queueAt p = before ++ w :: after ∧
      s'.queueAt q = if q = p then before ++ after else s.queueAt q := by
  have hp := h.lt
  obtain ⟨before, after, hq, rfl⟩ := h.split
  exact ⟨before, after, hq, queueAt_leaveQueue (before ++ after) hp q⟩

theorem mem_of_mem (h : Leaves p w s s') {q : Nat} {w' : Waiter} (hw : w' ∈ s'.queueAt q) :
    w' ∈ s.queueAt q := by
  obtain ⟨before, after, hq, e⟩ := h.queueAt_eq q
  rw [e] at hw
  split at hw
  · rename_i same
    rw [same, hq]
    rcases List.mem_append.mp hw with hw | hw
    · exact List.mem_append_left _ hw
    · exact List.mem_append_right _ (List.mem_cons_of_mem _ hw)
  · exact hw

theorem mem_or (h : Leaves p w s s') {q : Nat} {w' : Waiter} (hw : w' ∈ s.queueAt q) :
    w' ∈ s'.queueAt q ∨ w' = w := by
  obtain ⟨before, after, hq, e⟩ := h.queueAt_eq q
  rw [e]
  split
  · rename_i same
    rw [same, hq] at hw
    rcases List.mem_append.mp hw with hw | hw
    · exact .inl (List.mem_append_left _ hw)
    · rcases List.mem_cons.mp hw with rfl | hw
      · exact .inr rfl
      · exact .inl (List.mem_append_right _ hw)
  · exact .inl hw

theorem frame (h : Leaves p w s s') :
    s'.nextTicket = s.nextTicket ∧ s'.killed = s.killed ∧ s'.halted = s.halted ∧
      s'.free = s.free ∧ s'.slots = s.slots := by
  obtain ⟨before, after, -, rfl⟩ := h.split
  rw [leaveQueue_eq]
  exact ⟨rfl, rfl, rfl, rfl, rfl⟩

/-- One request less waits. -/
theorem waiting_eq (h : Leaves p w s s') : s'.waiting = s.waiting - 1 := by
  obtain ⟨before, after, -, rfl⟩ := h.split
  rw [leaveQueue_eq]

end Leaves

/-! ## Stops -/

theorem halt_of_halted {s : LockState} (h : s.halted = true) : s.halt = s := by
  simp [halt, h]

theorem halt_of_running {s : LockState} (h : s.halted = false) :
    s.halt =
      { s with
        halted := true
        free := s.free - s.slots
        slots := 0
        rota := s.rota.clear
        demand := 0 } := by
  simp [halt, h]

theorem kill_of_killed {s : LockState} (h : s.killed = true) : s.kill = s := by
  simp [kill, h]

@[simp] theorem lanes_halt : s.halt.lanes = s.lanes := by
  unfold halt
  split <;> rfl

@[simp] theorem waiters_halt : s.halt.waiters = s.waiters := by
  simp [waiters]

@[simp] theorem queueAt_halt (q : Nat) : s.halt.queueAt q = s.queueAt q := by
  simp [queueAt, laneAt]

theorem kill_of_alive {s : LockState} (h : s.killed = false) :
    s.kill = ({ s with killed := true }).halt.drain := by
  simp [kill, h]

@[simp] theorem weights_kill : s.kill.weights = s.weights := by
  unfold kill
  split
  · rfl
  · simp [weights, drain, Function.comp_def]

@[simp] theorem runners_kill : s.kill.runners = s.runners := by
  unfold kill
  split
  · rfl
  · simp [runners, drain, Function.comp_def]

/-- A kill empties every queue. -/
theorem waiters_kill {s : LockState} (h : s.killed = false) : s.kill.waiters = [] := by
  rw [kill_of_alive h]
  simp [waiters, drain, List.flatMap_map]

theorem halted_kill {s : LockState} (h : s.killed = false) : s.kill.halted = true := by
  rw [kill_of_alive h]
  exact halted_halt _

theorem nextTicket_halt (s : LockState) : s.halt.nextTicket = s.nextTicket := by
  unfold halt
  split <;> rfl

theorem killed_halt (s : LockState) : s.halt.killed = s.killed := by
  unfold halt
  split <;> rfl

theorem nextTicket_kill (s : LockState) : s.kill.nextTicket = s.nextTicket := by
  unfold kill drain halt
  split
  · rfl
  · split <;> rfl

/-- Stops leave the room of the rota. -/
theorem length_links_kill (s : LockState) : s.kill.rota.links.length = s.rota.links.length := by
  unfold kill
  split
  · rfl
  · unfold drain halt
    split <;> simp

/-! ## Turns -/

/-- Passing the turn, however often, changes nothing but the turn. -/
theorem scan_eq_turn (n : Nat) (s : LockState) :
    ∃ turn, (s.scan n).2 = { s with rota := { s.rota with turn } } := by
  induction n generalizing s with
  | zero => exact ⟨s.rota.turn, rfl⟩
  | succ n ih =>
      have opened : s.rota.openRound = { s.rota with turn := s.rota.openRound.turn } := by
        unfold Rota.openRound
        split <;> rfl
      simp only [scan]
      rw [opened]
      split
      · exact ⟨_, rfl⟩
      · split
        · exact ⟨_, rfl⟩
        · obtain ⟨turn, h⟩ := ih _
          exact ⟨turn, h⟩

theorem nextInTurn?_eq_turn (s : LockState) :
    ∃ turn, s.nextInTurn?.2 = { s with rota := { s.rota with turn } } :=
  scan_eq_turn _ s

theorem eq_turn_of_nextInTurn? {s s₁ : LockState} {o : Option Nat}
    (scan : s.nextInTurn? = (o, s₁)) : ∃ turn, s₁ = { s with rota := { s.rota with turn } } := by
  obtain ⟨turn, e⟩ := s.nextInTurn?_eq_turn
  rw [scan] at e
  exact ⟨turn, e⟩

/-- The first request in turn is granted: the turn is passed, the request leaves its queue, and a
slot is taken. -/
theorem turn_leaves_take {s s₁ s₂ : LockState} {p : Nat} {w : Waiter} {o : Option Nat}
    (scan : s.nextInTurn? = (o, s₁)) (first : s₁.grantFirst? p = some (w, s₂)) :
    ∃ turn s₃, s₁ = { s with rota := { s.rota with turn } } ∧ Leaves p w s₁ s₃ ∧
      s₂ = s₃.takeSlot p := by
  obtain ⟨turn, e⟩ := eq_turn_of_nextInTurn? scan
  obtain ⟨s₃, leaves, hs⟩ := leaves_of_grantFirst? first
  exact ⟨turn, s₃, e, leaves, hs⟩

/-- What the grant loop grants is the first entry of a queue, and the others stay. -/
theorem queue_of_first {s s₁ s₂ : LockState} {p : Nat} {w : Waiter} {o : Option Nat}
    (scan : s.nextInTurn? = (o, s₁)) (first : s₁.grantFirst? p = some (w, s₂)) :
    ∃ rest, s.queueAt p = w :: rest ∧
      ∀ q, s₂.queueAt q = if q = p then rest else s.queueAt q := by
  obtain ⟨turn, rfl⟩ := eq_turn_of_nextInTurn? scan
  unfold grantFirst? at first
  split at first
  · cases first
  · rename_i w' rest queue
    obtain ⟨rfl, rfl⟩ := Prod.mk.inj (Option.some.inj first)
    have room := lt_of_queueAt_ne_nil (List.ne_nil_of_mem (queue ▸ List.mem_cons_self))
    refine ⟨rest, queue, fun q => ?_⟩
    rw [queueAt_takeSlot, queueAt_leaveQueue rest room]
    rfl

end LockState

end FairShare
