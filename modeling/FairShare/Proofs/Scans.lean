import FairShare.Proofs.Admissions
import FairShare.Proofs.Passes

/-!
# The turn goes round

A scan finds the first priority of the round that can take a grant and leaves the turn with it. The
pass that follows takes the turn away only from a priority whose queue gets empty. So the turn goes
past a priority only when that has no request left to grant or holds its share of the slots.
-/

namespace FairShare

namespace LockState

variable {s s' s₁ s₂ : LockState} {ids : List Nat} {o : Option Nat} {p t : Nat} {w : Waiter}

/-- A scan that finds a priority gives it the turn and changes nothing else. -/
theorem eq_of_nextInTurn? (found : s.nextInTurn? = (some p, s')) :
    s' = { s with rota := { s.rota with turn := some p } } := by
  have turn := (canGrant_turn_of_scan _ found).2
  obtain ⟨t, rfl⟩ := eq_turn_of_nextInTurn? found
  obtain rfl : t = some p := turn
  rfl

/-- A priority that can take no grant has none to give or holds its share. -/
theorem canGrant_eq_false_iff :
    s.canGrant p = false ↔ s.shareOf (s.weightAt p) ≤ s.runnersAt p ∨ s.queueAt p = [] := by
  rw [← Bool.not_eq_true, canGrant_iff]
  by_cases none : s.queueAt p = [] <;> simp [none]

/-- A scan takes the turn from a priority only if that can take no grant. -/
theorem unable_of_scan (turn : s.rota.turn = some t) (scan : s.nextInTurn? = (o, s'))
    (left : o ≠ some t) : s.canGrant t = false := by
  cases able : s.canGrant t with
  | false => rfl
  | true =>
      have stays := nextInTurn?_of_able (by rw [Rota.turn_openRound, turn]; rfl) able
      rw [scan] at stays
      exact absurd (Prod.mk.inj stays).1 left

theorem Leaves.rota_of_others (leaves : Leaves p w s s') (others : s'.queueAt p ≠ []) :
    s'.rota = s.rota := by
  have room := leaves.lt
  obtain ⟨before, after, -, rfl⟩ := leaves.split
  rw [queueAt_leaveQueue _ room, if_pos rfl] at others
  exact (leaveQueue_of_others room others).1

/-- A request that leaves its queue takes the turn from a priority only if it was the last one
there. -/
theorem Leaves.turn_leaves (leaves : Leaves p w s s') (spells : s.rota.Spells ids)
    (turn : s.rota.turn = some t) (left : s'.rota.turn ≠ some t) : s'.queueAt t = [] := by
  by_contra others
  apply left
  by_cases same : p = t
  · subst same
    rw [leaves.rota_of_others others, turn]
  · -- the turn is with another priority, also if this one is struck off
    by_cases last : s'.queueAt p = []
    · have room := leaves.lt
      obtain ⟨before, after, -, rfl⟩ := leaves.split
      rw [queueAt_leaveQueue _ room, if_pos rfl] at last
      rw [last, (leaveQueue_of_last room).1, spells.turn_strike, turn,
        if_neg fun e => same (Option.some.inj e).symm]
    · rw [leaves.rota_of_others last, turn]

/-- Granting takes the turn from a priority only if that held its share before, or has no request
after it. -/
theorem turn_leaves_of_first (turn : s.rota.turn = some t)
    (scan : s.nextInTurn? = (some p, s₁)) (first : s₁.grantFirst? p = some (w, s₂))
    (left : s₂.rota.turn ≠ some t) :
    s.shareOf (s.weightAt t) ≤ s.runnersAt t ∨ s₂.queueAt t = [] := by
  by_cases same : p = t
  · -- the priority was granted to, and keeps the turn while requests wait there
    subst same
    right
    by_contra others
    obtain ⟨-, s₃, -, leaves, rfl⟩ := turn_leaves_take scan first
    rw [queueAt_takeSlot] at others
    apply left
    change s₃.rota.turn = some p
    rw [leaves.rota_of_others others]
    exact (canGrant_turn_of_scan _ scan).2
  · have unable := unable_of_scan turn scan (by simpa using same)
    obtain ⟨rest, -, queues⟩ := queue_of_first scan first
    rw [queues, if_neg (Ne.symm same)]
    exact canGrant_eq_false_iff.mp unable

end LockState

/-- A pass takes the turn from a priority only if that held its share before, or has no request
after it. -/
theorem Effect.turn_leaves_of_pass {x x' : Instance} {L L' : List Nat} {waker : Waker}
    {a : Agenda Task} {t : Nat} (effect : Effect x L (.task (.pass waker)) x' a L')
    (turn : x.state.rota.turn = some t) (left : x'.state.rota.turn ≠ some t) :
    x.state.shareOf (x.state.weightAt t) ≤ x.state.runnersAt t ∨ x'.state.queueAt t = [] := by
  cases effect with
  | passHalted => exact absurd turn left
  | passIdle => exact absurd turn left
  | passStalled _ _ _ scan =>
      have unable := LockState.unable_of_scan turn scan (by simp)
      obtain ⟨turn', rfl⟩ := LockState.eq_turn_of_nextInTurn? scan
      exact LockState.canGrant_eq_false_iff.mp unable
  | passEmpty _ _ _ scan =>
      obtain rfl := LockState.eq_of_nextInTurn? scan
      have unable := LockState.unable_of_scan turn scan left
      exact LockState.canGrant_eq_false_iff.mp unable
  | grantLost _ _ _ scan first | grantReturned _ _ _ scan first | grant _ _ _ scan first =>
      exact LockState.turn_leaves_of_first turn scan first left
  | letGoMissing lets | letGoClone lets | letGoLast lets => cases lets

/-- A priority loses the turn in one of three ways: the lock is halted, its last request leaves, or
a pass finds that it holds its share. -/
theorem Effect.turn_leaves {x x' : Instance} {L L' ids : List Nat} {sec : Section} {a : Agenda Task}
    {t : Nat} (effect : Effect x L sec x' a L') (spells : x.state.rota.Spells ids)
    (turn : x.state.rota.turn = some t) (left : x'.state.rota.turn ≠ some t) :
    x'.state.halted = true ∨ x'.state.queueAt t = [] ∨
      ∃ waker, sec = .task (.pass waker) ∧
        x.state.shareOf (x.state.weightAt t) ≤ x.state.runnersAt t := by
  have passed (waker : Waker) (pass : sec = .task (.pass waker)) :
      x'.state.halted = true ∨ x'.state.queueAt t = [] ∨ ∃ waker, sec = .task (.pass waker) ∧
        x.state.shareOf (x.state.weightAt t) ≤ x.state.runnersAt t := by
    subst pass
    rcases effect.turn_leaves_of_pass turn left with saturated | drained
    · exact .inr (.inr ⟨waker, rfl, saturated⟩)
    · exact .inr (.inl drained)
  cases effect with
  | halt => exact .inl (LockState.halted_halt _)
  | kill _ alive | destroy _ alive => exact .inl (LockState.halted_kill alive)
  | queue => exact absurd ((LockState.turn_enqueue _ _ _).trans turn) left
  | withdraw _ _ _ found =>
      obtain ⟨-, leaves⟩ := LockState.leaves_of_withdraw? found
      exact .inr (.inl (leaves.turn_leaves spells turn left))
  | passHalted | passIdle | passStalled | passEmpty | grantLost | grantReturned | grant =>
      exact passed _ rfl
  | _ => exact absurd turn left

/-- The scan is a round robin over the rota: it finds the first member from the turn on that can
take a grant. So the turn goes past a priority only if that has no request to grant or holds its
share. -/
theorem Instance.serves_in_turn {x : Instance} {ids : List Nat}
    (spells : x.state.rota.Spells ids) :
    (x.state.nextInTurn?.1.isSome = true ↔ ∃ p ∈ ids, x.state.canGrant p = true) ∧
    (∀ p s', x.state.nextInTurn? = (some p, s') →
      (x.state.queueAt p ≠ [] ∧ x.state.runnersAt p < x.state.shareOf (x.state.weightAt p)) ∧
      s' = { x.state with rota := { x.state.rota with turn := some p } } ∧
      ∃ passed rest, Rota.roundFrom x.state.rota.turn ids = passed ++ p :: rest ∧
        ∀ q ∈ passed, x.state.shareOf (x.state.weightAt q) ≤ x.state.runnersAt q ∨
          x.state.queueAt q = []) ∧
    (∀ s', x.state.nextInTurn? = (none, s') →
      ∃ turn, s' = { x.state with rota := { x.state.rota with turn } } ∧
        ∀ t, turn = some t → t ∈ ids) ∧
    (∀ waker t, x.state.rota.turn = some t → (x.pass waker).1.state.rota.turn ≠ some t →
      x.state.shareOf (x.state.weightAt t) ≤ x.state.runnersAt t ∨
        (x.pass waker).1.state.queueAt t = []) := by
  have look := LockState.nextInTurn?_fst spells
  refine ⟨?_, ?_, ?_, ?_⟩
  · rw [look, List.find?_isSome]
    simp only [Rota.mem_roundFrom_iff]
  · intro p s' found
    rw [found] at look
    obtain ⟨able, passed, rest, round, unable⟩ := List.find?_eq_some_iff_append.mp look.symm
    refine ⟨LockState.canGrant_iff.mp able, LockState.eq_of_nextInTurn? found, passed, rest, round,
      fun q member => ?_⟩
    exact LockState.canGrant_eq_false_iff.mp (by simpa using unable q member)
  · intro s' found
    obtain ⟨turn, rfl⟩ := LockState.eq_turn_of_nextInTurn? found
    refine ⟨turn, rfl, ?_⟩
    have kept := LockState.spells_scan (x.state.rota.size + 1) spells
    change x.state.nextInTurn?.2.rota.Spells ids at kept
    rw [found] at kept
    exact kept.turn
  · intro waker t turn left
    exact (effect_pass (L := []) waker).turn_leaves_of_pass turn left

/-- Two priorities with a request each, and the first of them holds its share: the scan passes it
over. -/
theorem Instance.serves_in_turn_of_saturated_first :
    ∃ w, (World.start (.ofConfig { concurrency := 2, weights := [1, 1] })).run?
        [.call (.request 0), .callEnds, .call (.request 0), .callEnds, .call (.request 0),
          .callEnds, .call (.request 1), .callEnds, .call (.poll 0 .silent), .callEnds,
          .call (.release 0)] = some w ∧
      w.inst.state.rota.Spells [0, 1] ∧ w.inst.state.nextInTurn?.1 = some 1 ∧
      w.inst.state.nextInTurn?.2.rota.turn = some 1 := by
  have run : (World.start (.ofConfig { concurrency := 2, weights := [1, 1] })).run?
      [.call (.request 0), .callEnds, .call (.request 0), .callEnds, .call (.request 0), .callEnds,
        .call (.request 1), .callEnds, .call (.poll 0 .silent), .callEnds,
        .call (.release 0)] = some _ := rfl
  have account := World.demandAccounts (c := { concurrency := 2, weights := [1, 1] }) rfl run
  have spells := account.spells
  obtain ⟨-, served, -⟩ := Instance.serves_in_turn spells
  have found := served 1 _ rfl
  refine ⟨_, run, spells, rfl, ?_⟩
  exact congrArg (fun s => s.rota.turn) found.2.1

namespace World

variable {c : Config} {x : Instance} {ms : List Move} {w w' : World} {m : Move} {t : Nat}

/-- In a run a priority that has the turn keeps it until the lock is halted, its last request
leaves, or a pass finds that it holds its share. -/
theorem turn_leaves (fresh : Instance.create c = .ok x) (run : (start x).run? ms = some w)
    (step : w.step? m = some w') (turn : w.inst.state.rota.turn = some t)
    (left : w'.inst.state.rota.turn ≠ some t) :
    w'.inst.state.halted = true ∨ w'.inst.state.queueAt t = [] ∨
      ∃ waker, w.sectionOf m = .task (.pass waker) ∧
        w.inst.state.shareOf (w.inst.state.weightAt t) ≤ w.inst.state.runnersAt t := by
  obtain ⟨rest, a, -, -, effect⟩ := step?_effect step
  exact effect.turn_leaves (demandAccounts fresh run).spells turn left

end World

end FairShare
