import FairShare.Proofs.Shares

/-!
# The share limit of an admission

A priority competes for the slots with every other priority at which requests wait. Its limit is
its share of the slots among the weights of all of these, rounded up. A request that is admitted at
once and a pass of the grant loop find their denominators in different ways: the request tries out
its own weight on top of the demand, while a pass reads the demand before it takes the request out
of its queue. In every reachable state both come to the weights of the rivals, each counted once.
-/

namespace FairShare

/-- The priorities that compete for the slots when one is wanted at `p`: itself and every other
priority at which requests wait. -/
def LockState.rivals (s : LockState) (p : Nat) : List Nat :=
  (List.range s.lanes.length).filter fun q => decide (q = p) || !(s.queueAt q).isEmpty

/-- The most slots that `p` may hold among these priorities: its share of the slots for its weight
among all their weights, rounded up. -/
def Config.limitAmong (c : Config) (ids : List Nat) (p : Nat) : Nat :=
  ceilDiv (c.weightOf p * c.slots) (ids.map c.weightOf).sum

namespace LockState

variable {c : Config} {s : LockState} {grants : List Grant} {p : Nat}

theorem mem_rivals_iff {q : Nat} :
    q ∈ s.rivals p ↔ q < s.lanes.length ∧ (q = p ∨ s.queueAt q ≠ []) := by
  simp [rivals]

theorem nodup_rivals : (s.rivals p).Nodup :=
  List.nodup_range.filter _

/-- Where requests wait, the rivals are the members of the rota. -/
theorem rivals_perm_of_waits {weights : List Nat} (account : DemandAccounts weights s)
    (running : s.halted = false) (waits : s.queueAt p ≠ []) :
    (s.rivals p).Perm s.rota.toList := by
  apply (List.perm_ext_iff_of_nodup nodup_rivals account.spells.nodup).mpr
  intro q
  rw [mem_rivals_iff]
  constructor
  · rintro ⟨-, rfl | busy⟩
    · exact account.active running q waits
    · exact account.active running q busy
  · intro member
    exact ⟨account.room ▸ account.spells.room q member, .inr (account.queued q member)⟩

/-- Where nothing waits, the rivals are the members of the rota and the priority itself. -/
theorem rivals_perm_of_calm {weights : List Nat} (account : DemandAccounts weights s)
    (running : s.halted = false) (room : p < s.lanes.length) (calm : s.queueAt p = []) :
    (s.rivals p).Perm (p :: s.rota.toList) := by
  have apart : p ∉ s.rota.toList := fun member => account.queued p member calm
  apply (List.perm_ext_iff_of_nodup nodup_rivals
    (List.nodup_cons.mpr ⟨apart, account.spells.nodup⟩)).mpr
  intro q
  rw [mem_rivals_iff, List.mem_cons]
  constructor
  · rintro ⟨-, rfl | busy⟩
    · exact .inl rfl
    · exact .inr (account.active running q busy)
  · rintro (rfl | member)
    · exact ⟨room, .inl rfl⟩
    · exact ⟨account.room ▸ account.spells.room q member, .inr (account.queued q member)⟩

/-- A share of all slots, for a demand that is the weight of some priorities, is the limit among
these. -/
theorem shareOf_eq_limitAmong (sound : c.fault? = none) (slots : s.slots = (c.slots : Int))
    {ids : List Nat} (demand : s.demand = (ids.map c.weightOf).sum) (member : p ∈ ids)
    (pos : 0 < c.weightOf p) : s.shareOf (c.weightOf p) = c.limitAmong ids p := by
  have some := Config.slots_pos sound
  have few : c.slots ≤ slotLimit := Nat.min_le_right _ _
  have counted : c.weightOf p ≤ s.demand := by
    rw [demand]
    exact List.le_sum_of_mem (List.mem_map_of_mem member)
  rw [shareOf_eq (by omega) (by omega) (by omega) counted, slots, demand]
  rfl

/-- The share that a pass compares with is the limit among the rivals. -/
theorem shareOf_of_waits (sound : c.fault? = none)
    (account : DemandAccounts (c.weights.map UInt32.toNat) s)
    (balance : SlotsBalance c.slots s grants) (running : s.halted = false)
    (waits : s.queueAt p ≠ []) :
    s.shareOf (s.weightAt p) = c.limitAmong (s.rivals p) p := by
  have rivals := rivals_perm_of_waits account running waits
  have room := lt_of_queueAt_ne_nil waits
  have weights : s.weightAt = c.weightOf := account.weightAt_eq_weightOf
  rw [weights]
  apply shareOf_eq_limitAmong sound (balance.running running).1
  · rw [account.demand, weights]
    exact ((rivals.map _).sum_eq).symm
  · exact mem_rivals_iff.mpr ⟨room, .inl rfl⟩
  · rw [account.length_lanes, List.length_map] at room
    exact Config.weightOf_pos sound room

/-- The share that a request compares with, which tries out its weight on top of the demand, is the
limit among the rivals. -/
theorem shareOf_of_calm (sound : c.fault? = none)
    (account : DemandAccounts (c.weights.map UInt32.toNat) s)
    (balance : SlotsBalance c.slots s grants) (running : s.halted = false)
    (room : p < s.lanes.length) (calm : s.queueAt p = []) :
    (s.addDemand p).shareOf (s.weightAt p) = c.limitAmong (s.rivals p) p := by
  have rivals := rivals_perm_of_calm account running room calm
  have weights : s.weightAt = c.weightOf := account.weightAt_eq_weightOf
  have tried : (s.addDemand p).demand = s.demand + s.weightAt p := rfl
  have slots : (s.addDemand p).slots = (c.slots : Int) := (balance.running running).1
  rw [weights]
  apply shareOf_eq_limitAmong sound slots
  · rw [tried, account.demand, weights, (rivals.map _).sum_eq, List.map_cons, List.sum_cons,
      Nat.add_comm]
  · exact mem_rivals_iff.mpr ⟨room, .inl rfl⟩
  · rw [account.length_lanes, List.length_map] at room
    exact Config.weightOf_pos sound room

/-- A request is admitted at once exactly where nothing waits, a slot is free, and the priority is
below its limit. -/
theorem admitsAtOnce_iff_limit (sound : c.fault? = none)
    (account : DemandAccounts (c.weights.map UInt32.toNat) s)
    (balance : SlotsBalance c.slots s grants) (room : p < s.lanes.length) :
    s.admitsAtOnce p = true ↔
      s.queueAt p = [] ∧ 0 < s.free ∧ s.runnersAt p < c.limitAmong (s.rivals p) p := by
  simp only [admitsAtOnce, Bool.and_eq_true, List.isEmpty_iff, decide_eq_true_eq, and_assoc]
  apply and_congr_right
  intro calm
  apply and_congr_right
  intro free
  rw [shareOf_of_calm sound account balance (balance.running_of_free free) room calm]

/-- A pass admits exactly where requests wait and the priority is below its limit. -/
theorem canGrant_iff_limit (sound : c.fault? = none)
    (account : DemandAccounts (c.weights.map UInt32.toNat) s)
    (balance : SlotsBalance c.slots s grants) (running : s.halted = false) :
    s.canGrant p = true ↔ s.queueAt p ≠ [] ∧ s.runnersAt p < c.limitAmong (s.rivals p) p := by
  rw [canGrant_iff]
  apply and_congr_right
  intro waits
  rw [shareOf_of_waits sound account balance running waits]

end LockState

/-- A request is admitted by the call that makes it or in a pass. -/
theorem Admits.sections {x : Instance} {p : Nat} {sec : Section} (admits : Admits x p sec) :
    sec = .call (.request p) ∨ ∃ waker, sec = .task (.pass waker) := by
  cases admits with
  | atOnce => exact .inl rfl
  | inTurn => exact .inr ⟨_, rfl⟩

/-- What is admitted is below its limit. -/
theorem Admits.below_limit {c : Config} {x : Instance} {p : Nat} {sec : Section}
    (admits : Admits x p sec) (sound : c.fault? = none)
    (account : DemandAccounts (c.weights.map UInt32.toNat) x.state)
    (balance : SlotsBalance c.slots x.state x.grants) (room : p < x.state.lanes.length) :
    x.state.runnersAt p < c.limitAmong (x.state.rivals p) p := by
  cases admits with
  | atOnce _ fast =>
      exact ((LockState.admitsAtOnce_iff_limit sound account balance room).mp fast).2.2
  | inTurn running _ able =>
      exact ((LockState.canGrant_iff_limit sound account balance running).mp able).2

section Effects
variable {x x' : Instance} {L L' : List Nat} {a : Agenda Task} {p : Nat}

/-- A request that is granted at once takes a slot and leaves nothing else behind. -/
theorem Effect.state_of_admitted (effect : Effect x L (.call (.request p)) x' a L')
    (more : x'.grantsAt p ≠ x.grantsAt p) : x'.state = x.state.takeSlot p := by
  cases effect with
  | grantAtOnce => rfl
  | letGoMissing lets | letGoClone lets | letGoLast lets => cases lets
  | _ => exact absurd rfl more

/-- A request that joins a queue was not admitted at once. -/
theorem Effect.slow_of_enqueued (effect : Effect x L (.call (.request p)) x' a L') {entry : Waiter}
    (joins : x'.state.queueAt p = x.state.queueAt p ++ [entry]) :
    p < x.state.lanes.length ∧ x.state.admitsAtOnce p = false := by
  cases effect with
  | queue _ room _ slow => exact ⟨room, slow⟩
  | letGoMissing lets | letGoClone lets | letGoLast lets => cases lets
  | grantAtOnce =>
      rw [LockState.queueAt_takeSlot] at joins
      simp at joins
  | _ => simp at joins

end Effects

namespace World

/-- Whatever is admitted, at once or by a pass, stays within the share of its priority among those
that compete for the slots at that moment. A request that finds nobody waiting is refused a slot
only for want of a free one or of room within that share. -/
theorem admits_within_limit {c : Config} {x : Instance} {ms : List Move} {w v : World} {m : Move}
    (fresh : Instance.create c = .ok x) (run : (start x).run? ms = some w)
    (hstep : w.step? m = some v) :
    (∀ p, v.inst.grantsAt p ≠ w.inst.grantsAt p →
      (m = .call (.request p) ∨ ∃ waker, m = .work ∧ w.next? = some (.task (.pass waker))) ∧
      v.inst.grants = w.inst.grants ++ [{ priority := p }] ∧
      v.inst.state.runnersAt p = w.inst.state.runnersAt p + 1 ∧
      v.inst.state.runnersAt p ≤ c.limitAmong (w.inst.state.rivals p) p) ∧
    (∀ p, m = .call (.request p) → v.inst.grantsAt p ≠ w.inst.grantsAt p →
      v.inst.state = w.inst.state.takeSlot p ∧ v.inst.state.demand = w.inst.state.demand ∧
      v.inst.state.rota = w.inst.state.rota) ∧
    (∀ p entry, m = .call (.request p) → w.inst.state.queueAt p = [] →
      v.inst.state.queueAt p = w.inst.state.queueAt p ++ [entry] →
      w.inst.state.free ≤ 0 ∨
        c.limitAmong (w.inst.state.rivals p) p ≤ w.inst.state.runnersAt p) := by
  have sound := fault?_of_create fresh
  have account := demandAccounts fresh run
  have balance : SlotsBalance c.slots w.inst.state w.inst.grants := slotsBalance fresh run
  have onward := run?_append_singleton_eq_some_iff.mpr ⟨w, run, hstep⟩
  obtain ⟨rest, a, -, -, effect⟩ := step?_effect hstep
  refine ⟨?_, ?_, ?_⟩
  · intro p more
    obtain ⟨admits, grants, runners⟩ := effect.takes_of_grantsAt more
    have room : p < w.inst.state.lanes.length := by
      rw [length_lanes fresh run, ← length_lanes fresh onward]
      exact LockState.lt_of_runnersAt_pos (by omega)
    have below := admits.below_limit sound account balance room
    refine ⟨?_, grants, runners, by omega⟩
    rcases admits.sections with requested | ⟨waker, passed⟩
    · exact .inl (eq_call_of_sectionOf requested)
    · exact .inr ⟨waker, eq_work_of_sectionOf passed, next?_of_sectionOf passed⟩
  · rintro p rfl more
    have taken := effect.state_of_admitted more
    rw [taken]
    exact ⟨rfl, rfl, rfl⟩
  · rintro p entry rfl calm joins
    obtain ⟨room, slow⟩ := effect.slow_of_enqueued joins
    by_contra fast
    rw [not_or, Int.not_le, Nat.not_le] at fast
    have admitted := (LockState.admitsAtOnce_iff_limit sound account balance room).mpr
      ⟨calm, fast.1, fast.2⟩
    cases admitted.symm.trans slow

/-- Three slots and two priorities of equal weight. Three requests of the first priority fill the
lock, a request of the other queues, and a lock comes back. A request of the first priority then
queues although a slot is free, because with both in demand its limit of two is reached. The pass
that follows grants to the other priority, within its limit. -/
theorem admits_within_limit_of_free_slot :
    ∃ u w v, (start (.ofConfig { concurrency := 3, weights := [1, 1] })).run?
        [.call (.request 0), .callEnds, .call (.request 0), .callEnds, .call (.request 0),
          .callEnds, .call (.request 1), .callEnds, .call (.poll 0 .silent), .callEnds,
          .call (.dropLock 0), .work, .work, .callEnds] = some u ∧
      u.run? [.call (.request 0), .work, .callEnds, .call (.drive .silent), .work] = some w ∧
      w.step? .work = some v ∧
      Config.limitAmong { concurrency := 3, weights := [1, 1] } (u.inst.state.rivals 0) 0 ≤
        u.inst.state.runnersAt 0 ∧
      v.inst.state.runnersAt 1 = 1 ∧
      v.inst.state.runnersAt 1 ≤ Config.limitAmong { concurrency := 3, weights := [1, 1] }
        (w.inst.state.rivals 1) 1 := by
  have run : (start (.ofConfig { concurrency := 3, weights := [1, 1] })).run?
      [.call (.request 0), .callEnds, .call (.request 0), .callEnds, .call (.request 0),
        .callEnds, .call (.request 1), .callEnds, .call (.poll 0 .silent), .callEnds,
        .call (.dropLock 0), .work, .work, .callEnds] = some _ := rfl
  have queues := admits_within_limit (c := { concurrency := 3, weights := [1, 1] }) rfl run
    (rfl : step? _ (.call (.request 0)) = some _)
  have passes := admits_within_limit (c := { concurrency := 3, weights := [1, 1] }) rfl
    (run?_trans run (rfl : run? _ [.call (.request 0), .work, .callEnds, .call (.drive .silent),
      .work] = some _))
    (rfl : step? _ .work = some _)
  have full := (queues.2.2 0 _ rfl rfl rfl).resolve_left (by decide)
  obtain ⟨-, -, -, within⟩ := passes.1 1 (by decide)
  exact ⟨_, _, _, run, rfl, rfl, full, rfl, within⟩

end World

end FairShare
