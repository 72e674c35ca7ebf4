import FairShare.Proofs.Effect
import FairShare.Proofs.Views

/-!
# Slots are conserved

Every slot is free or held, and every held slot belongs to exactly one grant that was not released
yet. The count holds for each priority, whatever way a slot was taken or given back, and it goes on
after a halt, when the free slots start from zero again and only the held ones are left.
-/

namespace FairShare

/-- Whether the grant holds a slot at the priority. -/
def Grant.countsAt (p : Nat) (g : Grant) : Bool :=
  decide (g.priority = p) && !g.released

@[simp] theorem Grant.countsAt_of_released {g : Grant} (h : g.released = true) (p : Nat) :
    g.countsAt p = false := by
  simp [countsAt, h]

@[simp] theorem Grant.countsAt_of_locked {g : Grant} (h : g.released = false) (p : Nat) :
    g.countsAt p = decide (g.priority = p) := by
  simp [countsAt, h]

/-- The slots are free or held by a grant, and no more than `limit` of them are held. -/
structure SlotsBalance (limit : Nat) (s : LockState) (grants : List Grant) : Prop where
  /-- The runners of a priority are its grants that were not released. -/
  runners : ∀ p, s.runnersAt p = grants.countP (Grant.countsAt p)
  /-- Free slots and held slots add up to the slots. -/
  balance : s.free + s.runners.sum = s.slots
  bound : s.runners.sum ≤ limit
  running : s.halted = false → s.slots = limit ∧ 0 ≤ s.free
  stopped : s.halted = true → s.slots = 0

namespace SlotsBalance

variable {limit : Nat} {s s' : LockState} {grants : List Grant}

/-- The balance reads nothing of the counters but runners, slots and whether they are halted. -/
theorem congr (h : SlotsBalance limit s grants) (runners : s'.runners = s.runners)
    (free : s'.free = s.free) (slots : s'.slots = s.slots) (halted : s'.halted = s.halted) :
    SlotsBalance limit s' grants where
  runners p := by rw [LockState.runnersAt_eq, runners, ← LockState.runnersAt_eq, h.runners]
  balance := by rw [free, runners, slots, h.balance]
  bound := by rw [runners]; exact h.bound
  running := by rw [halted, slots, free]; exact h.running
  stopped := by rw [halted, slots]; exact h.stopped

theorem runnersAt_modify {p : Nat} {f : Nat → Nat} (h : s'.runners = s.runners.modify p f)
    (hp : p < s.lanes.length) (q : Nat) :
    s'.runnersAt q = if q = p then f (s.runnersAt p) else s.runnersAt q := by
  rw [LockState.runnersAt_eq, LockState.runnersAt_eq, LockState.runnersAt_eq, h]
  have hp' : p < s.runners.length := by simpa using hp
  split
  · rename_i hqp
    subst hqp
    simp [List.getElem?_eq_getElem hp']
  · rename_i hqp
    rw [List.getElem?_modify_ne _ _ (Ne.symm hqp)]

theorem sum_runners_modify {p : Nat} {f : Nat → Nat} (h : s'.runners = s.runners.modify p f)
    (hp : p < s.lanes.length) :
    s'.runners.sum + s.runnersAt p = s.runners.sum + f (s.runnersAt p) := by
  have hp' : p < s.runners.length := by simpa using hp
  rw [h, LockState.runnersAt_eq, List.getElem?_eq_getElem hp']
  exact sum_modify f hp'

/-- After a halt no slot is free any more. -/
theorem running_of_free (h : SlotsBalance limit s grants) (free : 0 < s.free) :
    s.halted = false := by
  by_contra stopped
  have none := h.stopped (by simpa using stopped)
  have held := h.balance
  omega

/-- A slot that is taken while one is free goes to the new grant. -/
theorem take {p : Nat} (h : SlotsBalance limit s grants) (room : p < s.lanes.length)
    (free : 0 < s.free) : SlotsBalance limit (s.takeSlot p) (grants ++ [{ priority := p }]) := by
  have running := h.running_of_free free
  have hr : (s.takeSlot p).runners = s.runners.modify p (· + 1) := LockState.runners_takeSlot s p
  have sum := sum_runners_modify hr room
  have balance := h.balance
  have slots := (h.running running).1
  refine ⟨fun q => ?_, ?_, ?_, fun _ => ⟨slots, ?_⟩, fun stopped => ?_⟩
  · rw [runnersAt_modify hr room, List.countP_append, ← h.runners]
    by_cases hq : q = p
    · subst hq
      simp [Grant.countsAt]
    · simp [Grant.countsAt, hq, Ne.symm hq]
  · change s.free - 1 + ((s.takeSlot p).runners.sum : Int) = s.slots
    omega
  · omega
  · change 0 ≤ s.free - 1
    omega
  · exact absurd (running.symm.trans stopped) Bool.false_ne_true

/-- A grant that changes without a change of what it holds keeps the balance. -/
theorem regrant {g : Nat} {grant grant' : Grant} (h : SlotsBalance limit s grants)
    (here : grants[g]? = some grant) (priority : grant'.priority = grant.priority)
    (released : grant'.released = grant.released) :
    SlotsBalance limit s (grants.set g grant') where
  runners p := by
    have count := countP_set_add (Grant.countsAt p) here grant'
    have same : grant'.countsAt p = grant.countsAt p := by
      simp only [Grant.countsAt, priority, released]
    rw [same] at count
    have := h.runners p
    omega
  balance := h.balance
  bound := h.bound
  running := h.running
  stopped := h.stopped

/-- A slot that is given back is the one of the grant that is released. -/
theorem giveBack {g : Nat} {grant grant' : Grant} (h : SlotsBalance limit s grants)
    (here : grants[g]? = some grant) (locked : grant.released = false)
    (released : grant'.released = true) :
    SlotsBalance limit (s.returnSlot grant.priority) (grants.set g grant') := by
  have count (q : Nat) : (grants.set g grant').countP (Grant.countsAt q) +
      (decide (grant.priority = q)).toNat = grants.countP (Grant.countsAt q) := by
    have := countP_set_add (Grant.countsAt q) here grant'
    simpa [released, locked] using this
  have held : 0 < s.runnersAt grant.priority := by
    have := count grant.priority
    rw [decide_eq_true rfl, Bool.toNat_true] at this
    rw [h.runners]
    omega
  have room := LockState.lt_of_runnersAt_pos held
  have hr : (s.returnSlot grant.priority).runners = s.runners.modify grant.priority (· - 1) :=
    LockState.runners_returnSlot s _
  have sum := sum_runners_modify hr room
  have balance := h.balance
  refine ⟨fun q => ?_, ?_, ?_, fun running => ?_, h.stopped⟩
  · rw [runnersAt_modify hr room]
    have hc := count q
    have hq := h.runners q
    by_cases hp : q = grant.priority
    · subst hp
      rw [decide_eq_true rfl, Bool.toNat_true] at hc
      rw [if_pos rfl]
      omega
    · rw [decide_eq_false (Ne.symm hp), Bool.toNat_false] at hc
      rw [if_neg hp]
      omega
  · change s.free + 1 + ((s.returnSlot grant.priority).runners.sum : Int) = s.slots
    omega
  · have := h.bound
    omega
  · obtain ⟨slots, free⟩ := h.running running
    refine ⟨slots, ?_⟩
    change 0 ≤ s.free + 1
    omega

theorem halt (h : SlotsBalance limit s grants) : SlotsBalance limit s.halt grants := by
  cases halted : s.halted with
  | true => rwa [LockState.halt_of_halted halted]
  | false =>
      have balance := h.balance
      rw [LockState.halt_of_running halted]
      refine ⟨h.runners, ?_, h.bound, fun running => absurd running (by simp), fun _ => rfl⟩
      change s.free - s.slots + (s.runners.sum : Int) = 0
      omega

theorem kill (h : SlotsBalance limit s grants) : SlotsBalance limit s.kill grants := by
  cases killed : s.killed with
  | true => rwa [LockState.kill_of_killed killed]
  | false =>
      have hm : SlotsBalance limit { s with killed := true } grants :=
        ⟨h.runners, h.balance, h.bound, h.running, h.stopped⟩
      have runners : s.kill.runners = ({ s with killed := true } : LockState).halt.runners := by
        rw [LockState.runners_kill, LockState.runners, LockState.runners, LockState.lanes_halt]
      rw [LockState.kill_of_alive killed] at runners ⊢
      exact hm.halt.congr runners rfl rfl rfl

/-- Passing the turn and leaving a queue do not touch the slots. -/
theorem leave {p : Nat} {w : Waiter} (h : SlotsBalance limit s grants)
    (leaves : LockState.Leaves p w s s') : SlotsBalance limit s' grants := by
  obtain ⟨before, after, -, rfl⟩ := leaves.split
  have e := s.leaveQueue_eq p (before ++ after)
  exact h.congr (s.runners_leaveQueue p _) (by rw [e]) (by rw [e]) (by rw [e])

theorem turn (h : SlotsBalance limit s grants) : SlotsBalance limit s.nextInTurn?.2 grants := by
  obtain ⟨t, e⟩ := s.nextInTurn?_eq_turn
  rw [e]
  exact h.congr rfl rfl rfl rfl

theorem enqueue {p c : Nat} (h : SlotsBalance limit s grants) :
    SlotsBalance limit (s.enqueue p c) grants := by
  have e := s.enqueue_eq p c
  exact h.congr (s.runners_enqueue p c) (by rw [e]) (by rw [e]) (by rw [e])

/-- A grant of the loop takes a slot for the priority whose turn it is. -/
theorem grantFirst {p : Nat} {s₁ s₂ : LockState} {w : Waiter} (h : SlotsBalance limit s grants)
    (free : 0 < s.free) (scan : s.nextInTurn? = (some p, s₁))
    (first : s₁.grantFirst? p = some (w, s₂)) :
    SlotsBalance limit s₂ (grants ++ [{ priority := p }]) := by
  obtain ⟨s₃, leaves, rfl⟩ := LockState.leaves_of_grantFirst? first
  have turned : SlotsBalance limit s₁ grants := by
    have := h.turn
    rwa [scan] at this
  have free₁ : s₁.free = s.free := by
    obtain ⟨t, e⟩ := s.nextInTurn?_eq_turn
    rw [scan] at e
    rw [show s₁ = _ from e]
  obtain ⟨before, after, hq, e⟩ := leaves.split
  have free₃ : s₃.free = s₁.free := by rw [e, LockState.leaveQueue_eq]
  have room : p < s₃.lanes.length := by
    have hp := LockState.lt_of_queueAt_ne_nil (s := s₁) (p := p) (by simp [hq])
    rw [e, ← LockState.length_weights, LockState.weights_leaveQueue, LockState.length_weights]
    exact hp
  exact (turned.leave leaves).take room (by omega)

/-- Every effect keeps the balance. -/
theorem keeps {x x' : Instance} {L L' : List Nat} {sec : Section} {a : Agenda Task}
    (effect : Effect x L sec x' a L') (h : SlotsBalance limit x.state x.grants) :
    SlotsBalance limit x'.state x'.grants := by
  cases effect with
  | grantAtOnce _ room _ fast =>
      have free : 0 < x.state.free := by
        simp only [LockState.admitsAtOnce, Bool.and_eq_true, decide_eq_true_eq] at fast
        exact fast.1.2
      exact h.take room free
  | queue => exact h.enqueue
  | halt => exact h.halt
  | kill | destroy => exact h.kill
  | withdraw _ _ _ found => exact h.leave (LockState.leaves_of_withdraw? found).2
  | release _ here locked => exact h.giveBack here locked rfl
  | letGoLast _ here _ locked => exact h.giveBack here locked rfl
  | cloneLock _ here => exact h.regrant here rfl rfl
  | letGoClone _ here => exact h.regrant here rfl rfl
  | passStalled _ _ _ scan | passEmpty _ _ _ scan =>
      have turned := h.turn
      rwa [scan] at turned
  | grantLost _ free _ scan first | grantReturned _ free _ scan first
  | grant _ free _ scan first => exact h.grantFirst free scan first
  | _ => exact h

end SlotsBalance

/-- A fresh lock has all its slots free. -/
theorem slotsBalance_ofConfig (c : Config) :
    SlotsBalance (min c.concurrency.toNat LockState.slotLimit) (.ofConfig c) [] := by
  have runners : (LockState.ofConfig c).runners = List.replicate c.weights.length 0 := by
    simp [LockState.runners, LockState.ofConfig, Function.comp_def, List.map_const']
  have sum : (LockState.ofConfig c).runners.sum = 0 := by simp [runners]
  have slots : (LockState.ofConfig c).slots =
      (min c.concurrency.toNat LockState.slotLimit : Nat) := by
    change min (c.concurrency.toNat : Int) (LockState.slotLimit : Int) = _
    omega
  refine ⟨fun p => ?_, ?_, ?_, fun _ => ⟨slots, ?_⟩, fun halted => Bool.noConfusion halted⟩
  · rw [LockState.runnersAt_eq, runners, List.getElem?_replicate]
    split <;> rfl
  · rw [sum]
    exact Int.add_zero _
  · rw [sum]
    exact Nat.zero_le _
  · change 0 ≤ (LockState.ofConfig c).slots
    exact slots ▸ Int.natCast_nonneg _

end FairShare
