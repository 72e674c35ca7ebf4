import FairShare.Proofs.Shares
import Mathlib.Algebra.BigOperators.Group.Finset.Basic
import Mathlib.Algebra.Order.BigOperators.Group.Finset
import Mathlib.Algebra.Order.Field.Rat
import Mathlib.Algebra.Order.Floor.Semiring
import Mathlib.Data.Rat.Floor

/-!
# Apportionment of the slots

Whatever priorities are in demand, the share of each is its exact part of the slots, rounded up. The
product on the way to it has room in 128 bits, and the share itself is never cut off. The shares
cover the slots and go beyond them by less than one slot for each priority; and a priority that
comes into demand takes from the shares of the others, while one that leaves gives to them.
-/

namespace FairShare

/-! ## Quotients that are rounded up -/

/-- The quotient is the exact one, rounded up. -/
theorem ceilDiv_eq_ceil {a b : Nat} (pos : 0 < b) : ceilDiv a b = ⌈(a : ℚ) / b⌉₊ := by
  apply eq_of_forall_ge_iff
  intro k
  have exact : (a : ℚ) / b ≤ k ↔ a ≤ b * k := by
    rw [div_le_iff₀ (by exact_mod_cast pos), mul_comm]
    exact_mod_cast Iff.rfl
  rw [ceilDiv_le_iff pos, Nat.ceil_le, exact]

theorem ceilDiv_pos {a b : Nat} (some : 0 < a) (pos : 0 < b) : 0 < ceilDiv a b := by
  by_contra none
  have le := (ceilDiv_le_iff pos).mp (Nat.le_of_not_lt none)
  omega

/-- A larger divisor leaves no more. -/
theorem ceilDiv_le_ceilDiv {a b b' : Nat} (pos : 0 < b) (le : b ≤ b') :
    ceilDiv a b' ≤ ceilDiv a b := by
  apply (ceilDiv_le_iff (pos.trans_le le)).mpr
  calc a ≤ b * ceilDiv a b := le_mul_ceilDiv a pos
    _ ≤ b' * ceilDiv a b := Nat.mul_le_mul_right _ le

/-- There is a share for every weight, unless there are no slots or there is no demand. -/
theorem share_eq_zero_iff {slots : Int} {weight total : Nat} (pos : 0 < weight) :
    share slots weight total = 0 ↔ slots ≤ 0 ∨ total = 0 := by
  unfold share
  split
  · rename_i none
    simp only [true_iff]
    exact none.symm
  · rename_i some
    have product : 0 < weight * slots.toNat := Nat.mul_pos pos (by omega)
    have quotient := ceilDiv_pos product (Nat.pos_of_ne_zero fun none => some (.inl none))
    have uncut : 0 < min (ceilDiv (weight * slots.toNat) total) largestShare :=
      Nat.lt_min.mpr ⟨quotient, by decide⟩
    omega

namespace LockState

/-- The share of the priority if the weights in demand add up to `total`. -/
def shareOutOf (s : LockState) (total p : Nat) : Nat :=
  ({ s with demand := total } : LockState).shareOf (s.weightAt p)

/-- The sum of the weights of the priorities. -/
def totalOf (s : LockState) (ids : Finset Nat) : Nat :=
  ∑ p ∈ ids, s.weightAt p

/-- The share of the priority while these priorities are in demand. -/
def shareAmong (s : LockState) (ids : Finset Nat) (p : Nat) : Nat :=
  s.shareOutOf (s.totalOf ids) p

variable {s : LockState} {ids ids' : Finset Nat} {p : Nat}

theorem weightAt_lt (s : LockState) (p : Nat) : s.weightAt p < 2 ^ 32 :=
  (s.laneAt p).weight.toNat_lt

theorem weightAt_le_totalOf (member : p ∈ ids) : s.weightAt p ≤ s.totalOf ids :=
  Finset.single_le_sum (f := s.weightAt) (fun _ _ => Nat.zero_le _) member

theorem totalOf_le_of_subset (sub : ids ⊆ ids') : s.totalOf ids ≤ s.totalOf ids' :=
  Finset.sum_le_sum_of_subset sub

/-- The product on the way to a share has room in 128 bits. -/
theorem weightAt_mul_slots_lt (few : s.slots ≤ slotLimit) (p : Nat) :
    s.weightAt p * s.slots.toNat < 2 ^ 128 := by
  have slots : s.slots.toNat ≤ slotLimit := by omega
  calc s.weightAt p * s.slots.toNat
      ≤ 2 ^ 32 * slotLimit := Nat.mul_le_mul (Nat.le_of_lt (s.weightAt_lt p)) slots
    _ < 2 ^ 128 := by decide

/-- The share of a priority in demand is not cut off. -/
theorem shareAmong_eq_ceilDiv (slots : 0 < s.slots) (few : s.slots ≤ slotLimit) (member : p ∈ ids)
    (pos : 0 < s.weightAt p) :
    s.shareAmong ids p = ceilDiv (s.weightAt p * s.slots.toNat) (s.totalOf ids) :=
  shareOf_eq (s := { s with demand := s.totalOf ids }) slots few
    (pos.trans_le (weightAt_le_totalOf member)) (weightAt_le_totalOf member)

theorem shareAmong_le_slots (slots : 0 < s.slots) (few : s.slots ≤ slotLimit) (member : p ∈ ids)
    (pos : 0 < s.weightAt p) : s.shareAmong ids p ≤ s.slots.toNat := by
  rw [shareAmong_eq_ceilDiv slots few member pos]
  exact ceilDiv_le (pos.trans_le (weightAt_le_totalOf member)) (weightAt_le_totalOf member)

/-- The more priorities are in demand, the less is the share of each. -/
theorem shareAmong_le_of_subset (few : s.slots ≤ slotLimit) (sub : ids ⊆ ids') (member : p ∈ ids)
    (pos : 0 < s.weightAt p) : s.shareAmong ids' p ≤ s.shareAmong ids p := by
  by_cases slots : 0 < s.slots
  · rw [shareAmong_eq_ceilDiv slots few (sub member) pos,
      shareAmong_eq_ceilDiv slots few member pos]
    exact ceilDiv_le_ceilDiv (pos.trans_le (weightAt_le_totalOf member)) (totalOf_le_of_subset sub)
  · have none : s.shareAmong ids' p = 0 :=
      share_eq_zero_of_not_pos _ _ (Int.not_lt.mp slots)
    rw [none]
    exact Nat.zero_le _

/-- The shares of the priorities, as those of a list of weights. -/
theorem sum_shareAmong_eq (slots : 0 < s.slots) (few : s.slots ≤ slotLimit)
    (weights : ∀ p ∈ ids, 0 < s.weightAt p) :
    s.totalOf ids = (ids.toList.map s.weightAt).sum ∧
      ∑ p ∈ ids, s.shareAmong ids p = ((ids.toList.map s.weightAt).map fun weight =>
        ceilDiv (weight * s.slots.toNat) (ids.toList.map s.weightAt).sum).sum := by
  have total : s.totalOf ids = (ids.toList.map s.weightAt).sum := (ids.sum_map_toList _).symm
  refine ⟨total, ?_⟩
  calc ∑ p ∈ ids, s.shareAmong ids p
      = ∑ p ∈ ids, ceilDiv (s.weightAt p * s.slots.toNat) (s.totalOf ids) := by
        apply Finset.sum_congr rfl
        intro p member
        exact shareAmong_eq_ceilDiv slots few member (weights p member)
    _ = (ids.toList.map fun p => ceilDiv (s.weightAt p * s.slots.toNat) (s.totalOf ids)).sum :=
        (ids.sum_map_toList _).symm
    _ = _ := by
        rw [List.map_map, total]
        rfl

/-- The shares of the priorities in demand apportion the slots: each is the exact part rounded up,
and together they cover the slots with less than one to spare for each priority. So a slot is never
idle for want of room within the shares, and who comes or leaves shifts the others only one way. -/
theorem shares_apportion_slots (s : LockState) (ids : Finset Nat) (nonneg : 0 ≤ s.slots)
    (few : s.slots ≤ slotLimit) (weights : ∀ p ∈ ids, 0 < s.weightAt p) :
    (0 < s.slots → ids.Nonempty →
      (∀ p ∈ ids,
        s.weightAt p * s.slots.toNat < 2 ^ 128 ∧
        ⌈(s.weightAt p * s.slots : ℚ) / s.totalOf ids⌉₊ ≤ largestShare ∧
        s.shareAmong ids p = ⌈(s.weightAt p * s.slots : ℚ) / s.totalOf ids⌉₊ ∧
        1 ≤ s.shareAmong ids p ∧ (s.shareAmong ids p : Int) ≤ s.slots) ∧
      s.slots ≤ ∑ p ∈ ids, s.shareAmong ids p ∧
      ∑ p ∈ ids, s.shareAmong ids p ≤ s.slots + ids.card - 1) ∧
    (∀ p ∈ ids, ∀ q, s.shareAmong (insert q ids) p ≤ s.shareAmong ids p) ∧
    (∀ p ∈ ids, ∀ q ≠ p, s.shareAmong ids p ≤ s.shareAmong (ids.erase q) p) ∧
    ∀ total p, 0 < s.weightAt p → (s.shareOutOf total p = 0 ↔ s.slots = 0 ∨ total = 0) := by
  refine ⟨?_, ?_, ?_, ?_⟩
  · intro slots some
    obtain ⟨total, shares⟩ := sum_shareAmong_eq slots few weights
    obtain ⟨q, there⟩ := some
    have pos : 0 < s.totalOf ids := (weights q there).trans_le (weightAt_le_totalOf there)
    refine ⟨?_, ?_, ?_⟩
    · intro p member
      have quotient := shareAmong_eq_ceilDiv slots few member (weights p member)
      have most := shareAmong_le_slots slots few member (weights p member)
      have least : 0 < s.shareAmong ids p := by
        rw [quotient]
        exact ceilDiv_pos (Nat.mul_pos (weights p member) (by omega)) pos
      have rounded : s.shareAmong ids p = ⌈(s.weightAt p * s.slots : ℚ) / s.totalOf ids⌉₊ := by
        have cast : ((s.slots.toNat : ℚ)) = s.slots := by
          exact_mod_cast Int.toNat_of_nonneg nonneg
        rw [quotient, ceilDiv_eq_ceil pos, Nat.cast_mul, cast]
      refine ⟨weightAt_mul_slots_lt few p, ?_, rounded, least, by omega⟩
      rw [← rounded]
      unfold largestShare
      unfold slotLimit at few
      omega
    · have cover := le_sum_ceilDiv (c := s.slots.toNat) (total ▸ pos)
      rw [← shares] at cover
      omega
    · have beyond := sum_ceilDiv_lt (c := s.slots.toNat) (total ▸ pos)
      rw [← shares, List.length_map, Finset.length_toList] at beyond
      omega
  · intro p member q
    exact shareAmong_le_of_subset few (Finset.subset_insert q ids) member (weights p member)
  · intro p member q other
    have stays : p ∈ ids.erase q := Finset.mem_erase.mpr ⟨other.symm, member⟩
    exact shareAmong_le_of_subset few (Finset.erase_subset q ids) stays (weights p member)
  · intro total p pos
    change share s.slots (s.weightAt p) total = 0 ↔ s.slots = 0 ∨ total = 0
    rw [share_eq_zero_iff pos]
    omega

/-- The largest lock, with a heavy priority and two light ones in demand. -/
theorem shares_apportion_slots_of_largest_lock :
    ∃ s : LockState,
      s = .ofConfig { concurrency := 0xFFFFFFFFFFFFFFFF, weights := [0xFFFFFFFF, 1, 1] } ∧
      s.slots = slotLimit ∧ s.totalOf {0, 1, 2} = 0x100000001 ∧
      s.shareAmong {0, 1, 2} 1 = ⌈(s.weightAt 1 * s.slots : ℚ) / s.totalOf {0, 1, 2}⌉₊ ∧
      s.slots ≤ ∑ p ∈ {0, 1, 2}, s.shareAmong {0, 1, 2} p ∧
      ∑ p ∈ {0, 1, 2}, s.shareAmong {0, 1, 2} p ≤ s.slots + 2 ∧
      s.shareAmong {0, 1, 2} 1 ≤ s.shareAmong (({0, 1, 2} : Finset Nat).erase 0) 1 ∧
      s.shareOutOf 0 1 = 0 := by
  refine ⟨_, rfl, rfl, by decide, ?_⟩
  obtain ⟨apportioned, -, leaves, zero⟩ := shares_apportion_slots
    (.ofConfig { concurrency := 0xFFFFFFFFFFFFFFFF, weights := [0xFFFFFFFF, 1, 1] }) {0, 1, 2}
    (by decide) (by decide) (by decide)
  obtain ⟨each, cover, beyond⟩ := apportioned (by decide) (by decide)
  obtain ⟨-, -, rounded, -⟩ := each 1 (by decide)
  refine ⟨rounded, cover, ?_, leaves 1 (by decide) 0 (by decide), ?_⟩
  · exact beyond.trans (by decide)
  · exact (zero 0 1 (by decide)).mpr (.inr rfl)

end LockState

end FairShare
