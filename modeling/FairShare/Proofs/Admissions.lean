import FairShare.Proofs.Queues
import FairShare.Proofs.Rounds

/-!
# Admissions

A slot is taken in one of two sections: by a request that is admitted at once, and by a pass of the
grant loop. Both compare the slots that the priority holds with its share before they take one more.
In every other section no priority comes to hold more slots than before.
-/

namespace FairShare

namespace LockState

variable {s s' : LockState} {p : Nat}

/-- The scan stops at a priority that can take a grant, and leaves the turn there. -/
theorem canGrant_turn_of_scan (n : Nat) (found : s.scan n = (some p, s')) :
    s.canGrant p = true ∧ s'.rota.turn = some p := by
  induction n generalizing s with
  | zero => cases found
  | succ n ih =>
      simp only [scan] at found
      split at found
      · cases found
      · rename_i turn
        split at found
        · rename_i able
          cases found
          exact ⟨able, turn⟩
        · have stops := ih found
          exact stops

/-- The priority that is found in turn can take a grant. -/
theorem canGrant_of_nextInTurn? (found : s.nextInTurn? = (some p, s')) : s.canGrant p = true :=
  (canGrant_turn_of_scan _ found).1

/-- Nothing is admitted at once when no slot is free. -/
theorem admitsAtOnce_of_full (full : s.free ≤ 0) (p : Nat) : s.admitsAtOnce p = false := by
  have none : ¬0 < s.free := Int.not_lt.mpr full
  simp [admitsAtOnce, none]

theorem runnersAt_congr (same : s'.runners = s.runners) : s'.runnersAt = s.runnersAt := by
  funext q
  rw [runnersAt_eq, runnersAt_eq, same]

theorem runnersAt_returnSlot_le (s : LockState) (p q : Nat) :
    (s.returnSlot p).runnersAt q ≤ s.runnersAt q := by
  rw [runnersAt_eq, runnersAt_eq, runners_returnSlot, List.getElem?_modify]
  cases s.runners[q]? with
  | none => exact Nat.le_refl _
  | some n =>
      split
      · exact Nat.sub_le n 1
      · exact Nat.le_refl n

/-- The priority that the grant loop grants to holds one slot more, and the others as many as
before. -/
theorem runnersAt_of_first {s₁ s₂ : LockState} {w : Waiter} {o : Option Nat}
    (scan : s.nextInTurn? = (o, s₁)) (first : s₁.grantFirst? p = some (w, s₂)) (q : Nat) :
    s₂.runnersAt q = s.runnersAt q + if q = p then 1 else 0 := by
  obtain ⟨turn, s₃, rfl, leaves, rfl⟩ := turn_leaves_take scan first
  have room : p < s.lanes.length := leaves.lt
  have runners : (s₃.takeSlot p).runners = s.runners.modify p (· + 1) := by
    obtain ⟨pre, post, -, rfl⟩ := leaves.split
    rw [runners_takeSlot, runners_leaveQueue]
    rfl
  rw [SlotsBalance.runnersAt_modify runners room q]
  split
  · rename_i same
    rw [same]
  · rfl

end LockState

/-- A section admits a request at the priority: a call for a slot at once, a pass in turn. -/
inductive Admits (x : Instance) (p : Nat) : Section → Prop where
  | atOnce (alive : x.state.killed = false) (fast : x.state.admitsAtOnce p = true) :
      Admits x p (.call (.request p))
  | inTurn {waker : Waker} (running : x.state.halted = false) (free : 0 < x.state.free)
      (able : x.state.canGrant p = true) : Admits x p (.task (.pass waker))

section Effects
variable {x x' : Instance} {L L' : List Nat} {sec : Section} {a : Agenda Task}

/-- What the grant loop grants is in turn, and takes a slot. -/
theorem Admits.of_first {s s' : LockState} {p : Nat} {w : Waiter} {waker : Waker}
    (running : x.state.halted = false) (free : 0 < x.state.free)
    (scan : x.state.nextInTurn? = (some p, s)) (first : s.grantFirst? p = some (w, s')) :
    Admits x p (.task (.pass waker)) ∧
      ∀ q, s'.runnersAt q = x.state.runnersAt q + if q = p then 1 else 0 :=
  ⟨.inTurn running free (LockState.canGrant_of_nextInTurn? scan),
    LockState.runnersAt_of_first scan first⟩

/-- A section admits at one priority and takes one slot for it, or no priority comes to hold more
slots. -/
theorem Effect.slots_step (effect : Effect x L sec x' a L') :
    (x'.grants.length = x.grants.length ∧ x'.loop.grants = x.loop.grants ∧
      ∀ p, x'.state.runnersAt p ≤ x.state.runnersAt p) ∨
    ∃ p, Admits x p sec ∧ x'.grants = x.grants ++ [{ priority := p }] ∧
      ∀ q, x'.state.runnersAt q = x.state.runnersAt q + if q = p then 1 else 0 := by
  have unchanged : x'.grants.length = x.grants.length → x'.loop.grants = x.loop.grants →
      x'.state.runners = x.state.runners →
      x'.grants.length = x.grants.length ∧ x'.loop.grants = x.loop.grants ∧
        ∀ p, x'.state.runnersAt p ≤ x.state.runnersAt p := by
    intro grants loop runners
    refine ⟨grants, loop, fun p => ?_⟩
    rw [LockState.runnersAt_congr runners]
  cases effect with
  | @grantAtOnce p _ room alive fast =>
      right
      refine ⟨p, .atOnce alive fast, rfl, fun q => ?_⟩
      rw [SlotsBalance.runnersAt_modify (x.state.runners_takeSlot p) room q]
      split
      · rename_i same
        rw [same]
      · rfl
  | grantLost running free _ scan first | grantReturned running free _ scan first
  | grant running free _ scan first =>
      right
      obtain ⟨admits, runners⟩ := Admits.of_first running free scan first
      exact ⟨_, admits, rfl, runners⟩
  | queue => exact .inl (unchanged rfl rfl (LockState.runners_enqueue _ _ _))
  | halt =>
      left
      apply unchanged rfl rfl
      rw [LockState.runners, LockState.lanes_halt]
      rfl
  | kill | destroy => exact .inl (unchanged rfl rfl (LockState.runners_kill _))
  | withdraw _ _ _ found =>
      left
      apply unchanged rfl rfl
      obtain ⟨pre, post, -, rfl⟩ := (LockState.leaves_of_withdraw? found).2.split
      exact LockState.runners_leaveQueue _ _ _
  | release | letGoLast =>
      exact .inl ⟨List.length_set, rfl, LockState.runnersAt_returnSlot_le _ _⟩
  | cloneLock | letGoClone => exact .inl (unchanged List.length_set rfl rfl)
  | passStalled _ _ _ scan | passEmpty _ _ _ scan =>
      left
      obtain ⟨turn, rfl⟩ := LockState.eq_turn_of_nextInTurn? scan
      exact unchanged rfl rfl rfl
  | _ => exact .inl (unchanged rfl rfl rfl)

/-- Nothing is admitted by a halted lock without free slots. -/
theorem Admits.not_of_halted {p : Nat} (halted : x.state.halted = true) (full : x.state.free ≤ 0) :
    ¬Admits x p sec := by
  intro admits
  cases admits with
  | atOnce _ fast => cases fast.symm.trans (LockState.admitsAtOnce_of_full full p)
  | inTurn running => cases halted.symm.trans running

end Effects

end FairShare
