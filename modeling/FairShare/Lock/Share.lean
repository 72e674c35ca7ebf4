/-!
# Shares of the slots

A priority in demand may hold its weight's share of the slots among the weights of all priorities
in demand. Shares are rounded up, so that the shares of all of them together cover the slots.
-/

namespace FairShare

/-- The quotient of two natural numbers, rounded up; zero if the divisor is zero. -/
def ceilDiv (a b : Nat) : Nat :=
  if b = 0 then 0 else (a + b - 1) / b

/-- The largest number of slots that a share is written with. -/
def largestShare : Nat := 0xFFFFFFFFFFFFFFFF

/-- The share of `slots` for `weight` among the weights that add up to `total`. Without demand or
without slots there is no share. -/
def share (slots : Int) (weight total : Nat) : Nat :=
  if total = 0 ∨ slots ≤ 0 then 0
  else min (ceilDiv (weight * slots.toNat) total) largestShare

theorem share_eq_zero_of_not_pos {slots : Int} (weight total : Nat) (h : slots ≤ 0) :
    share slots weight total = 0 := by
  simp [share, h]

example : share 10 1 3 = 4 := by decide

end FairShare
