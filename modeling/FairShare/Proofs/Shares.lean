import FairShare.Proofs.Admissions
import FairShare.Proofs.Answers
import FairShare.Proofs.Passes
import Mathlib.Algebra.BigOperators.Ring.List
import Mathlib.Data.List.Infix

/-!
# Shares of a saturated lock

While requests wait at every priority, all priorities are in demand, and the share of each is a
fixed part of the slots: its weight times the slots over the sum of all weights, rounded up. A
priority that holds its share gets no more, so what is within the shares stays within them. A poll
that parks then leaves no slot free, and the slots that the other priorities can hold at most leave
each priority with all of its share but what is lost by rounding up.
-/

namespace FairShare

/-! ## Rounding -/

section Rounding
variable {c total : Nat}

/-- What divides evenly is not rounded. -/
theorem mul_ceilDiv_of_dvd {a : Nat} (pos : 0 < total) (even : total ∣ a) :
    total * ceilDiv a total = a := by
  obtain ⟨k, rfl⟩ := even
  have least := Nat.le_of_mul_le_mul_left (le_mul_ceilDiv (total * k) pos) pos
  have most := mul_ceilDiv_lt (total * k) pos
  rw [← Nat.mul_succ] at most
  have most' := Nat.lt_of_mul_lt_mul_left most
  rw [Nat.le_antisymm (Nat.le_of_lt_succ most') least]

/-- Rounding up adds less than one part for each weight. -/
theorem mul_sum_ceilDiv_add_length_le (weights : List Nat) (pos : 0 < total) :
    total * (weights.map fun weight => ceilDiv (weight * c) total).sum + weights.length ≤
      weights.sum * c + total * weights.length := by
  induction weights with
  | nil => simp
  | cons weight weights ih =>
      have one := mul_ceilDiv_lt (weight * c) pos
      rw [List.map_cons, List.sum_cons, List.sum_cons, List.length_cons, Nat.mul_add, Nat.add_mul,
        Nat.mul_succ]
      omega

/-- The shares of the weights that make up the total are less than one slot each above the slots. -/
theorem sum_ceilDiv_lt {weights : List Nat} (pos : 0 < weights.sum) :
    (weights.map fun weight => ceilDiv (weight * c) weights.sum).sum < c + weights.length := by
  have some : 0 < weights.length := by
    apply List.length_pos_iff.mpr
    rintro rfl
    exact Nat.lt_irrefl 0 pos
  have most := mul_sum_ceilDiv_add_length_le (c := c) weights pos
  apply Nat.lt_of_mul_lt_mul_left (a := weights.sum)
  rw [Nat.mul_add]
  omega

/-- Where one quantity is below another throughout, the gap in one place is part of the gap of the
sums. -/
theorem add_sum_le_of_le {ids : List Nat} {f g : Nat → Nat} (below : ∀ q ∈ ids, f q ≤ g q) {p : Nat}
    (member : p ∈ ids) : g p + (ids.map f).sum ≤ f p + (ids.map g).sum := by
  induction ids with
  | nil => cases member
  | cons q ids ih =>
      have rest : ∀ q ∈ ids, f q ≤ g q := fun q there => below q (List.mem_cons_of_mem _ there)
      rw [List.map_cons, List.map_cons, List.sum_cons, List.sum_cons]
      rcases List.mem_cons.mp member with rfl | later
      · have sums := List.sum_le_sum (l := ids) rest
        omega
      · have here := below q List.mem_cons_self
        have gap := ih rest later
        omega

end Rounding

/-! ## The shares of a configuration -/

namespace Config

/-- The weight of a priority, zero where there is none. -/
def weightOf (c : Config) (p : Nat) : Nat :=
  (c.weights.map UInt32.toNat)[p]?.getD 0

/-- The sum of all weights. -/
def totalWeight (c : Config) : Nat :=
  (c.weights.map UInt32.toNat).sum

/-- The slots of a lock that is made of the configuration. -/
def slots (c : Config) : Nat :=
  min c.concurrency.toNat LockState.slotLimit

/-- The share of the slots for a priority while all are in demand, rounded up. -/
def capOf (c : Config) (p : Nat) : Nat :=
  ceilDiv (c.weightOf p * c.slots) c.totalWeight

/-- The sum of all shares. -/
def capSum (c : Config) : Nat :=
  ((List.range c.weights.length).map c.capOf).sum

variable {c : Config}

theorem weights_eq_map_range (c : Config) :
    c.weights.map UInt32.toNat = (List.range c.weights.length).map c.weightOf := by
  apply List.ext_getElem
  · simp
  · intro p hp _
    rw [List.getElem_map, List.getElem_map, List.getElem_range, weightOf,
      List.getElem?_eq_getElem hp, List.getElem_map]
    rfl

theorem capSum_eq (c : Config) : c.capSum = ((c.weights.map UInt32.toNat).map fun weight =>
    ceilDiv (weight * c.slots) c.totalWeight).sum := by
  rw [weights_eq_map_range, List.map_map]
  rfl

theorem slots_pos (sound : c.fault? = none) : 0 < c.slots := by
  obtain ⟨some, -⟩ := c.fault?_eq_none_iff.mp sound
  have pos : 0 < c.concurrency.toNat := by
    apply Nat.pos_of_ne_zero
    intro zero
    exact some (UInt64.toNat_inj.mp zero)
  exact Nat.lt_min.mpr ⟨pos, by decide⟩

/-- Every priority has a weight. -/
theorem weightOf_pos (sound : c.fault? = none) {p : Nat} (room : p < c.weights.length) :
    0 < c.weightOf p := by
  obtain ⟨-, -, nonzero⟩ := c.fault?_eq_none_iff.mp sound
  have weight : c.weightOf p = c.weights[p].toNat := by
    rw [weightOf, List.getElem?_map, List.getElem?_eq_getElem room]
    rfl
  rw [weight]
  apply Nat.pos_of_ne_zero
  intro zero
  exact nonzero _ (List.getElem_mem room) (UInt32.toNat_inj.mp zero)

theorem totalWeight_pos (sound : c.fault? = none) : 0 < c.totalWeight := by
  obtain ⟨-, some, -⟩ := c.fault?_eq_none_iff.mp sound
  have room := List.length_pos_iff.mpr some
  have counted : c.weightOf 0 ≤ c.totalWeight := by
    rw [totalWeight, weights_eq_map_range]
    exact List.le_sum_of_mem (List.mem_map_of_mem (List.mem_range.mpr room))
  exact (weightOf_pos sound room).trans_le counted

/-- The shares cover the slots. -/
theorem slots_le_capSum (sound : c.fault? = none) : c.slots ≤ c.capSum := by
  rw [capSum_eq]
  exact le_sum_ceilDiv (totalWeight_pos sound)

/-- The shares are less than one slot each above the slots. -/
theorem capSum_lt (sound : c.fault? = none) : c.capSum < c.slots + c.weights.length := by
  rw [capSum_eq]
  have most := sum_ceilDiv_lt (c := c.slots) (totalWeight_pos sound)
  rwa [List.length_map] at most

/-- Shares that are not rounded add up to the slots. -/
theorem capSum_eq_slots (sound : c.fault? = none)
    (even : ∀ p < c.weights.length, c.totalWeight ∣ c.weightOf p * c.slots) :
    c.capSum = c.slots := by
  have pos := totalWeight_pos sound
  apply Nat.eq_of_mul_eq_mul_left pos
  calc c.totalWeight * c.capSum
      = ((List.range c.weights.length).map fun p => c.totalWeight * c.capOf p).sum :=
        (List.sum_map_mul_left ..).symm
    _ = ((List.range c.weights.length).map fun p => c.weightOf p * c.slots).sum := by
        congr 1
        apply List.map_congr_left
        intro p member
        exact mul_ceilDiv_of_dvd pos (even p (List.mem_range.mp member))
    _ = c.totalWeight * c.slots := by
        rw [List.sum_map_mul_right, ← weights_eq_map_range]
        rfl

end Config

/-- The lock counts the weights of its configuration. -/
theorem DemandAccounts.weightAt_eq_weightOf {c : Config} {s : LockState}
    (account : DemandAccounts (c.weights.map UInt32.toNat) s) : s.weightAt = c.weightOf := by
  funext p
  rw [LockState.weightAt_eq, account.weights]
  rfl

/-! ## Saturation -/

/-- The lock runs, and requests wait at every priority. -/
structure LockState.Saturated (s : LockState) : Prop where
  running : s.halted = false
  waits : ∀ p < s.lanes.length, s.queueAt p ≠ []

instance (s : LockState) : Decidable s.Saturated :=
  decidable_of_iff (s.halted = false ∧ ∀ p < s.lanes.length, s.queueAt p ≠ [])
    ⟨fun h => ⟨h.1, h.2⟩, fun h => ⟨h.running, h.waits⟩⟩

namespace LockState.Saturated

variable {c : Config} {s : LockState} {grants : List Grant} {p : Nat}

/-- All priorities of a saturated lock are in demand. -/
theorem demand_eq {weights : List Nat} (h : s.Saturated) (account : DemandAccounts weights s) :
    s.demand = weights.sum := by
  have all : s.rota.toList.Perm (List.range s.lanes.length) := by
    apply (List.perm_ext_iff_of_nodup account.spells.nodup List.nodup_range).mpr
    intro p
    rw [List.mem_range]
    constructor
    · exact fun member => account.room ▸ account.spells.room p member
    · exact fun room => account.active h.running p (h.waits p room)
  calc s.demand = (s.rota.toList.map s.weightAt).sum := account.demand
    _ = ((List.range s.lanes.length).map s.weightAt).sum := (all.map _).sum_eq
    _ = weights.sum := by rw [← weights_eq_map_range, account.weights]

/-- The shares of a saturated lock are those of its configuration. -/
theorem shareOf_eq (h : s.Saturated) (sound : c.fault? = none)
    (account : DemandAccounts (c.weights.map UInt32.toNat) s)
    (balance : SlotsBalance c.slots s grants) (room : p < s.lanes.length) :
    s.shareOf (s.weightAt p) = c.capOf p := by
  have slots : s.slots = (c.slots : Int) := (balance.running h.running).1
  have pos := Config.slots_pos sound
  have few : c.slots ≤ slotLimit := Nat.min_le_right _ _
  have demand : s.demand = c.totalWeight := h.demand_eq account
  have weight : s.weightAt p = c.weightOf p := congrFun account.weightAt_eq_weightOf p
  have counted : s.weightAt p ≤ s.demand := by
    rw [demand, Config.totalWeight, ← account.weights]
    exact List.le_sum_of_mem (weightAt_mem room)
  rw [LockState.shareOf_eq (by omega) (by omega) (demand ▸ Config.totalWeight_pos sound) counted,
    slots, demand, weight]
  rfl

/-- When nothing can be served at a saturated lock, no slot is free. -/
theorem free_eq_zero {limit : Nat} {weights : List Nat} (h : s.Saturated)
    (account : DemandAccounts weights s) (balance : SlotsBalance limit s grants)
    (some : 0 < s.lanes.length) (unserved : ¬s.CanServe) : s.free = 0 := by
  have waiting : 0 < s.waiting := by
    rw [account.waiting]
    have queued := (queueAt_sublist_waiters s 0).length_le
    have busy := List.length_pos_iff.mpr (h.waits 0 some)
    omega
  have none : ¬0 < s.free := fun free => unserved ⟨free, waiting⟩
  have free := (balance.running h.running).2
  omega

end LockState.Saturated

/-- What is admitted while requests wait at the priority is below its share. -/
theorem Admits.below {x : Instance} {p : Nat} {sec : Section} (admits : Admits x p sec)
    (waits : x.state.queueAt p ≠ []) :
    x.state.runnersAt p < x.state.shareOf (x.state.weightAt p) := by
  cases admits with
  | atOnce _ fast =>
      simp only [LockState.admitsAtOnce, Bool.and_eq_true, List.isEmpty_iff] at fast
      exact absurd fast.1.1 waits
  | inTurn _ _ able => exact (LockState.canGrant_iff.mp able).2

/-- The grants at the priority. -/
def Instance.grantsAt (x : Instance) (p : Nat) : Nat :=
  x.grants.countP fun g => decide (g.priority = p)

section Effects
variable {x x' : Instance} {L L' : List Nat} {sec : Section} {a : Agenda Task} {p : Nat}

/-- A section that makes a grant at a priority admits there, makes one grant, and takes one slot. -/
theorem Effect.takes_of_grantsAt (effect : Effect x L sec x' a L')
    (more : x'.grantsAt p ≠ x.grantsAt p) :
    Admits x p sec ∧ x'.grants = x.grants ++ [{ priority := p }] ∧
      x'.state.runnersAt p = x.state.runnersAt p + 1 := by
  rcases effect.slots_step with ⟨length, -⟩ | ⟨q, admits, grants, runners⟩
  · -- the grants are the same ones, and each stays at its priority
    exfalso
    apply more
    have priorities : x'.grants.map Grant.priority = x.grants.map Grant.priority := by
      apply List.ext_getElem
      · simpa using length
      · intro g _ old
        rw [List.length_map] at old
        obtain ⟨grant', here', same⟩ := effect.grant_priority (List.getElem?_eq_getElem old)
        obtain ⟨_, rfl⟩ := List.getElem?_eq_some_iff.mp here'
        rw [List.getElem_map, List.getElem_map, same]
    have counts (y : Instance) : y.grantsAt p = (y.grants.map Grant.priority).count p := by
      rw [List.count, List.countP_map]
      rfl
    rw [counts, counts, priorities]
  · obtain rfl : q = p := by
      by_contra apart
      apply more
      simp [Instance.grantsAt, grants, List.countP_append, apart]
    exact ⟨admits, grants, by rw [runners, if_pos rfl]⟩

/-- A section that makes a grant at a priority admits there. -/
theorem Effect.admits_of_grantsAt (effect : Effect x L sec x' a L')
    (more : x'.grantsAt p ≠ x.grantsAt p) : Admits x p sec :=
  (effect.takes_of_grantsAt more).1

end Effects

/-! ## Stretches of a run -/

namespace World

section Runs
variable {c : Config} {x : Instance} {ms ms' : List Move} {w v : World} {p : Nat}

/-- A move that admits at a priority of a saturated lock finds it below its share. -/
theorem below_of_admits (fresh : Instance.create c = .ok x) (run : (start x).run? ms = some w)
    (saturated : w.inst.state.Saturated) {sec : Section} (admits : Admits w.inst p sec)
    (room : p < c.weights.length) : w.inst.state.runnersAt p < c.capOf p := by
  have lane : p < w.inst.state.lanes.length := by rwa [length_lanes fresh run]
  rw [← saturated.shareOf_eq (fault?_of_create fresh) (demandAccounts fresh run)
    (slotsBalance fresh run) lane]
  exact admits.below (saturated.waits p lane)

/-- A saturated lock makes no grant at a priority that holds its share. -/
theorem grantsAt_of_full (fresh : Instance.create c = .ok x) (run : (start x).run? ms = some w)
    (saturated : w.inst.state.Saturated) (room : p < c.weights.length)
    (full : c.capOf p ≤ w.inst.state.runnersAt p) {m : Move} (hstep : w.step? m = some v) :
    v.inst.grantsAt p = w.inst.grantsAt p := by
  by_contra more
  obtain ⟨rest, a, -, -, effect⟩ := step?_effect hstep
  have below := below_of_admits fresh run saturated (effect.admits_of_grantsAt more) room
  omega

/-- A move of a saturated lock keeps a priority within its share. -/
theorem runnersAt_le_step (fresh : Instance.create c = .ok x) (run : (start x).run? ms = some w)
    (saturated : w.inst.state.Saturated) (room : p < c.weights.length)
    (within : w.inst.state.runnersAt p ≤ c.capOf p) {m : Move} (hstep : w.step? m = some v) :
    v.inst.state.runnersAt p ≤ c.capOf p := by
  obtain ⟨rest, a, -, -, effect⟩ := step?_effect hstep
  rcases effect.slots_step with ⟨-, -, less⟩ | ⟨q, admits, -, runners⟩
  · exact (less p).trans within
  · rw [runners p]
    split
    · rename_i same
      subst same
      exact below_of_admits fresh run saturated admits room
    · exact within

/-- While the lock is saturated a priority stays within its share. -/
theorem runnersAt_le_of_saturated (fresh : Instance.create c = .ok x)
    (run : (start x).run? ms = some w) (run' : w.run? ms' = some v)
    (saturated : ∀ ms₁ u, ms₁ <+: ms' → w.run? ms₁ = some u → u.inst.state.Saturated)
    (room : p < c.weights.length) (within : w.inst.state.runnersAt p ≤ c.capOf p) :
    v.inst.state.runnersAt p ≤ c.capOf p := by
  refine run?_induction (P := fun ms₁ u => ms₁ <+: ms' → u.inst.state.runnersAt p ≤ c.capOf p)
    (fun _ => within) ?_ run' (List.prefix_rfl)
  intro ms₁ u m u' hu held hstep sub
  have before : ms₁ <+: ms' := (List.prefix_append ms₁ [m]).trans sub
  exact runnersAt_le_step fresh (run?_trans run hu) (saturated ms₁ u before hu) room (held before)
    hstep

/-- When no slot of a lock is free and all priorities are within their shares, each of them has its
share but for what the shares are above the slots. -/
theorem capOf_le_of_full (fresh : Instance.create c = .ok x) (run : (start x).run? ms = some w)
    (running : w.inst.state.halted = false) (full : w.inst.state.free = 0)
    (within : ∀ p < c.weights.length, w.inst.state.runnersAt p ≤ c.capOf p)
    (room : p < c.weights.length) :
    c.capOf p + c.slots ≤ w.inst.state.runnersAt p + c.capSum := by
  have balance : SlotsBalance c.slots w.inst.state w.inst.grants := slotsBalance fresh run
  have slots := (balance.running running).1
  have held := balance.balance
  have sum : ((List.range c.weights.length).map w.inst.state.runnersAt).sum = c.slots := by
    rw [← length_lanes fresh run, ← LockState.runners_eq_map_range]
    omega
  rw [← sum]
  exact add_sum_le_of_le (fun q member => within q (List.mem_range.mp member))
    (List.mem_range.mpr room)

/-- When a poll of the grant loop of a saturated lock has returned that it waits, no slot is
free. -/
theorem free_eq_zero_of_returnsWaiting (fresh : Instance.create c = .ok x)
    (run : (start x).run? ms = some w) (saturated : w.inst.state.Saturated) {waker : Waker}
    (returns : w.ReturnsWaiting waker) : w.inst.state.free = 0 := by
  obtain ⟨⟨made, below, layers⟩, waits⟩ := returns
  have parked : w.inst.Parked := by
    rcases ended_or_parked fresh run layers with ⟨ended, -⟩ | ⟨-, parked, -⟩
    · cases waits.symm.trans ended
    · exact parked
  have some : 0 < w.inst.state.lanes.length := by
    obtain ⟨-, some, -⟩ := c.fault?_eq_none_iff.mp (fault?_of_create fresh)
    rw [length_lanes fresh run]
    exact List.length_pos_iff.mpr some
  exact saturated.free_eq_zero (demandAccounts fresh run) (slotsBalance fresh run) some
    parked.unserved

/-- The grants of a saturated lock follow the weights: while requests wait at every priority, each
gets its share of the slots, up to what rounding takes, and never more. The parts are exact if the
weights divide the slots evenly. -/
theorem shares_follow_weights (fresh : Instance.create c = .ok x)
    (run : (start x).run? ms = some w) (run' : w.run? ms' = some v)
    (saturated : ∀ ms₁ u, ms₁ <+: ms' → w.run? ms₁ = some u → u.inst.state.Saturated) :
    (∀ ms₁ m u u' p, ms₁ ++ [m] <+: ms' → w.run? ms₁ = some u → u.step? m = some u' →
      p < c.weights.length → c.capOf p ≤ u.inst.state.runnersAt p →
      u'.inst.grantsAt p = u.inst.grantsAt p) ∧
    (∀ p < c.weights.length, w.inst.state.runnersAt p ≤ c.capOf p →
      v.inst.state.runnersAt p ≤ c.capOf p) ∧
    (∀ waker, v.ReturnsWaiting waker →
      (∀ p < c.weights.length, v.inst.state.runnersAt p ≤ c.capOf p) →
      v.inst.state.free = 0 ∧ c.slots ≤ c.capSum ∧
      c.capSum - c.slots ≤ c.weights.length - 1 ∧
      (∀ p < c.weights.length, c.capOf p ≤ v.inst.state.runnersAt p + (c.capSum - c.slots)) ∧
      ((∀ p < c.weights.length, c.totalWeight ∣ c.weightOf p * c.slots) →
        ∀ p < c.weights.length,
          v.inst.state.runnersAt p = c.weightOf p * c.slots / c.totalWeight)) := by
  have sound := fault?_of_create fresh
  refine ⟨?_, ?_, ?_⟩
  · intro ms₁ m u u' p sub hu hstep room full
    have before : ms₁ <+: ms' := (List.prefix_append ms₁ [m]).trans sub
    exact grantsAt_of_full fresh (run?_trans run hu) (saturated ms₁ u before hu) room full hstep
  · intro p room within
    exact runnersAt_le_of_saturated fresh run run' saturated room within
  · intro waker returns within
    have whole := run?_trans run run'
    have here := saturated ms' v List.prefix_rfl run'
    have full := free_eq_zero_of_returnsWaiting fresh whole here returns
    have least := Config.slots_le_capSum sound
    have most := Config.capSum_lt sound
    have share : ∀ p < c.weights.length,
        c.capOf p + c.slots ≤ v.inst.state.runnersAt p + c.capSum :=
      fun p room => capOf_le_of_full fresh whole here.running full within room
    refine ⟨full, least, by omega, ?_, ?_⟩
    · intro p room
      have := share p room
      omega
    · intro even p room
      have lower := share p room
      have upper := within p room
      have exactly := Config.capSum_eq_slots sound even
      have cap : c.totalWeight * c.capOf p = c.weightOf p * c.slots :=
        mul_ceilDiv_of_dvd (Config.totalWeight_pos sound) (even p room)
      rw [← cap, Nat.mul_div_cancel_left _ (Config.totalWeight_pos sound)]
      omega

/-- Two slots and two priorities of equal weight, with requests waiting at both. A lock comes back,
and the poll that follows grants the slot to the priority that it came from, whose share it is. -/
theorem shares_follow_weights_of_release :
    ∃ w v, (start (.ofConfig { concurrency := 2, weights := [1, 1] })).run?
        [.call (.request 0), .callEnds, .call (.request 1), .callEnds, .call (.request 0),
          .callEnds, .call (.request 0), .callEnds, .call (.request 1), .callEnds,
          .call (.poll 0 .silent), .callEnds] = some w ∧
      w.run? [.call (.dropLock 0), .work, .work, .callEnds, .call (.drive .silent), .work, .work,
        .work, .work, .work, .work, .work, .work] = some v ∧
      v.ReturnsWaiting .silent ∧ v.inst.loop.grants = w.inst.loop.grants + 1 ∧
      v.inst.state.runnersAt 0 = 1 ∧ v.inst.state.runnersAt 1 = 1 := by
  have run : (start (.ofConfig { concurrency := 2, weights := [1, 1] })).run?
      [.call (.request 0), .callEnds, .call (.request 1), .callEnds, .call (.request 0),
        .callEnds, .call (.request 0), .callEnds, .call (.request 1), .callEnds,
        .call (.poll 0 .silent), .callEnds] = some _ := rfl
  have saturated : ∀ ms₁ ∈ ([.call (.dropLock 0), .work, .work, .callEnds,
      .call (.drive .silent), .work, .work, .work, .work, .work, .work, .work, .work] :
        List Move).inits,
      ∀ u ∈ (start (.ofConfig { concurrency := 2, weights := [1, 1] })).run?
        ([.call (.request 0), .callEnds, .call (.request 1), .callEnds, .call (.request 0),
          .callEnds, .call (.request 0), .callEnds, .call (.request 1), .callEnds,
          .call (.poll 0 .silent), .callEnds] ++ ms₁), u.inst.state.Saturated := by
    decide
  obtain ⟨-, -, parks⟩ := shares_follow_weights
    (c := { concurrency := 2, weights := [1, 1] }) rfl run
    (rfl : run? _ [.call (.dropLock 0), .work, .work, .callEnds, .call (.drive .silent), .work,
      .work, .work, .work, .work, .work, .work, .work] = some _)
    fun ms₁ u sub hu => saturated ms₁ ((List.mem_inits ms₁ _).mpr sub) u (run?_trans run hu)
  obtain ⟨-, -, -, -, shares⟩ := parks .silent ⟨⟨_, _, rfl⟩, rfl⟩ (by decide)
  have share := shares (by decide)
  exact ⟨_, _, run, rfl, ⟨⟨_, _, rfl⟩, rfl⟩, rfl, share 0 (by decide), share 1 (by decide)⟩

end Runs

end World

end FairShare
