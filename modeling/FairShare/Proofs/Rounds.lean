import FairShare.Proofs.Conservation
import FairShare.Proofs.Demand
import Mathlib.Data.List.Rotate

/-!
# Rounds of the grant loop

The grant loop looks at the members of the rota from the turn on, round to where it began. The
shares of the members cover the slots, so while a slot is free and a request waits, some member
holds fewer slots than its share, and the round comes to it.
-/

namespace FairShare

/-- A free slot and a waiting request coexist. -/
def LockState.CanServe (s : LockState) : Prop :=
  0 < s.free ∧ 0 < s.waiting

/-! ## Shares -/

section Shares
variable {c total : Nat}

theorem le_mul_ceilDiv (a : Nat) (pos : 0 < total) : a ≤ total * ceilDiv a total := by
  unfold ceilDiv
  rw [if_neg (Nat.ne_of_gt pos)]
  have division := Nat.div_add_mod (a + total - 1) total
  have rest := Nat.mod_lt (a + total - 1) pos
  omega

/-- Rounding up adds less than one part. -/
theorem mul_ceilDiv_lt (a : Nat) (pos : 0 < total) : total * ceilDiv a total < a + total := by
  have most := Nat.mul_div_le (a + total - 1) total
  unfold ceilDiv
  rw [if_neg (Nat.ne_of_gt pos)]
  omega

theorem ceilDiv_le_iff {a k : Nat} (pos : 0 < total) : ceilDiv a total ≤ k ↔ a ≤ total * k := by
  constructor
  · intro le
    calc a ≤ total * ceilDiv a total := le_mul_ceilDiv a pos
      _ ≤ total * k := Nat.mul_le_mul_left total le
  · intro le
    have less : total * ceilDiv a total < total * (k + 1) := by
      have most := mul_ceilDiv_lt a pos
      rw [Nat.mul_succ]
      omega
    exact Nat.lt_succ_iff.mp (Nat.lt_of_mul_lt_mul_left less)

/-- A weight that is counted in the total has no more than all slots. -/
theorem ceilDiv_le {weight : Nat} (pos : 0 < total) (counted : weight ≤ total) :
    ceilDiv (weight * c) total ≤ c :=
  (ceilDiv_le_iff pos).mpr (Nat.mul_le_mul_right c counted)

/-- Rounding up loses nothing. -/
theorem mul_sum_le_mul_sum_ceilDiv (weights : List Nat) (pos : 0 < total) :
    weights.sum * c ≤ total * (weights.map fun weight => ceilDiv (weight * c) total).sum := by
  induction weights with
  | nil => simp
  | cons weight weights ih =>
      have one := le_mul_ceilDiv (weight * c) pos
      rw [List.sum_cons, List.map_cons, List.sum_cons, Nat.add_mul, Nat.mul_add]
      exact Nat.add_le_add one ih

/-- The shares of the weights that make up the total cover the slots. -/
theorem le_sum_ceilDiv {weights : List Nat} (pos : 0 < weights.sum) :
    c ≤ (weights.map fun weight => ceilDiv (weight * c) weights.sum).sum := by
  apply Nat.le_of_mul_le_mul_left _ pos
  exact mul_sum_le_mul_sum_ceilDiv weights pos

end Shares

/-! ## The order of looks -/

namespace Rota

variable {l : Rota} {ids : List Nat}

/-- The ids in the order of a round: from the turn on, or from the first id if a round is over. -/
def roundFrom (turn : Option Nat) (ids : List Nat) : List Nat :=
  match turn with
  | none => ids
  | some t => ids.rotate (ids.idxOf t)

theorem mem_roundFrom_iff {turn : Option Nat} {q : Nat} : q ∈ roundFrom turn ids ↔ q ∈ ids := by
  cases turn with
  | none => rfl
  | some t => exact List.mem_rotate

/-- A round is the ids from some place on and then those before it, and opens with that place. -/
theorem Spells.exists_round (h : l.Spells ids) (pos : 0 < ids.length) :
    ∃ i, i < ids.length ∧ l.openRound.turn = ids[i]? ∧
      roundFrom l.turn ids = ids.drop i ++ ids.take i := by
  have opened : l.openRound.turn = l.turn.or ids.head? := by
    rw [turn_openRound, h.first]
  cases turn : l.turn with
  | none =>
      refine ⟨0, pos, ?_, by simp [roundFrom]⟩
      rw [opened, turn, Option.none_or, List.head?_eq_getElem?]
  | some t =>
      have place := List.idxOf_lt_length_of_mem (h.turn t turn)
      refine ⟨ids.idxOf t, place, ?_, List.rotate_eq_drop_append_take (Nat.le_of_lt place)⟩
      rw [opened, turn, List.getElem?_eq_getElem place, List.getElem_idxOf]
      rfl

end Rota

namespace LockState

variable {s : LockState} {ids : List Nat}

/-- A scan looks at the members from the turn on, and then at all members from the first on. -/
theorem scan_fst (n : Nat) {i : Nat} (spells : s.rota.Spells ids)
    (turn : s.rota.openRound.turn = ids[i]?) (hi : i < ids.length)
    (enough : i + n ≤ 2 * ids.length) :
    (s.scan n).1 = ((ids.drop i ++ ids).take n).find? s.canGrant := by
  induction n generalizing s i with
  | zero => rfl
  | succ n ih =>
      have here : ids.drop i = ids[i] :: ids.drop (i + 1) := List.drop_eq_getElem_cons hi
      rw [List.getElem?_eq_getElem hi] at turn
      have e : ids = ids.take i ++ ids[i] :: ids.drop (i + 1) := by
        rw [← here, List.take_append_drop]
      have passed := spells.openRound.passTurn
      have next : s.rota.openRound.passTurn.turn = ids[i + 1]? := by
        rw [Rota.turn_passTurn, turn, Option.bind_some, spells.openRound.after?_eq e,
          List.head?_drop]
      rw [here, List.cons_append, List.take_succ_cons, List.find?_cons]
      simp only [scan]
      rw [turn]
      change (if s.canGrant ids[i] = true then ((some ids[i], _) : Option Nat × LockState)
        else _).1 = _
      cases able : s.canGrant ids[i] with
      | true => rfl
      | false =>
          rw [if_neg Bool.false_ne_true]
          by_cases more : i + 1 < ids.length
          · apply ih (s := { s with rota := s.rota.openRound.passTurn }) passed _ more (by omega)
            rw [Rota.turn_openRound, next, List.getElem?_eq_getElem more]
            rfl
          · -- the round is over, and the next one begins with the first member
            have last : ids.drop (i + 1) = [] := List.drop_eq_nil_of_le (by omega)
            have opened : s.rota.openRound.passTurn.openRound.turn = ids[0]? := by
              rw [Rota.turn_openRound, next, List.getElem?_eq_none (by omega), Option.none_or,
                passed.first, List.head?_eq_getElem?]
            have round := ih (s := { s with rota := s.rota.openRound.passTurn }) passed opened
              (by omega) (by omega)
            rw [List.drop_zero, List.take_append_of_le_length (by omega)] at round
            rw [last, List.nil_append]
            exact round

/-- The scan stays with a priority in turn that can take a grant. -/
theorem nextInTurn?_of_able {q : Nat} (turn : s.rota.openRound.turn = some q)
    (able : s.canGrant q = true) :
    s.nextInTurn? = (some q, { s with rota := s.rota.openRound }) := by
  have able' : ({ s with rota := s.rota.openRound } : LockState).canGrant q = true := able
  simp only [nextInTurn?, scan]
  rw [turn]
  exact if_pos able'

/-- What is found is the first in the round that can take a grant. The last of the looks is at the
member at which the round began. -/
theorem nextInTurn?_fst (spells : s.rota.Spells ids) :
    s.nextInTurn?.1 = (Rota.roundFrom s.rota.turn ids).find? s.canGrant := by
  rcases Nat.eq_zero_or_pos ids.length with none | pos
  · obtain rfl := List.eq_nil_of_length_eq_zero none
    have turn : s.rota.openRound.turn = .none := by
      cases turn : s.rota.openRound.turn with
      | none => rfl
      | some t => cases spells.openRound.turn t turn
    have round : Rota.roundFrom s.rota.turn [] = [] :=
      List.eq_nil_iff_forall_not_mem.mpr fun q => by simp [Rota.mem_roundFrom_iff]
    rw [round, nextInTurn?]
    simp [scan, turn]
  · obtain ⟨i, hi, turn, round⟩ := spells.exists_round pos
    have looks : (ids.drop i ++ ids).take (s.rota.size + 1) =
        (ids.drop i ++ ids.take i) ++ [ids[i]] := by
      rw [spells.size, List.take_append, List.length_drop, List.take_of_length_le (by simp; omega),
        show ids.length + 1 - (ids.length - i) = i + 1 by omega, ← List.take_concat_get' ids i hi,
        List.append_assoc]
    have look := scan_fst (s.rota.size + 1) spells turn hi (by rw [spells.size]; omega)
    rw [looks, ← round, List.find?_append] at look
    rw [nextInTurn?, look]
    cases first : (Rota.roundFrom s.rota.turn ids).find? s.canGrant with
    | some q => rfl
    | none =>
        have again := List.find?_eq_none.mp first ids[i]
          (Rota.mem_roundFrom_iff.mpr (List.getElem_mem hi))
        simp [again]

/-- When a member can take a grant, the round comes to one. -/
theorem nextInTurn?_of_canGrant {p : Nat} (spells : s.rota.Spells ids) (member : p ∈ ids)
    (able : s.canGrant p = true) :
    ∃ q s', s.nextInTurn? = (some q, s') ∧ q ∈ ids ∧ s.canGrant q = true := by
  have look := nextInTurn?_fst spells
  cases found : s.nextInTurn? with
  | mk o s' =>
      rw [found] at look
      cases o with
      | none =>
          exact absurd able (List.find?_eq_none.mp look.symm p (Rota.mem_roundFrom_iff.mpr member))
      | some q =>
          exact ⟨q, s', rfl, Rota.mem_roundFrom_iff.mp (List.mem_of_find?_eq_some look.symm),
            List.find?_some look.symm⟩

/-! ## A member below its share -/

theorem runners_eq_map_range (s : LockState) :
    s.runners = (List.range s.lanes.length).map s.runnersAt := by
  apply List.ext_getElem
  · simp
  · intro p hp _
    rw [List.getElem_map, List.getElem_range, runnersAt_eq, List.getElem?_eq_getElem hp]
    rfl

/-- Distinct priorities hold no more slots than all of them. -/
theorem sum_runnersAt_le (nodup : ids.Nodup) (room : ∀ p ∈ ids, p < s.lanes.length) :
    (ids.map s.runnersAt).sum ≤ s.runners.sum := by
  rw [runners_eq_map_range]
  exact sum_map_le_range nodup room s.runnersAt

theorem weightAt_mem {p : Nat} (room : p < s.lanes.length) : s.weightAt p ∈ s.weights := by
  rw [weights_eq_map_range]
  exact List.mem_map_of_mem (List.mem_range.mpr room)

/-- The share of a weight that is counted in the demand is not cut off. -/
theorem shareOf_eq {weight : Nat} (slots : 0 < s.slots) (few : s.slots ≤ slotLimit)
    (pos : 0 < s.demand) (counted : weight ≤ s.demand) :
    s.shareOf weight = ceilDiv (weight * s.slots.toNat) s.demand := by
  have most := ceilDiv_le (c := s.slots.toNat) pos counted
  unfold shareOf share
  rw [if_neg (by omega), Nat.min_eq_left]
  unfold largestShare
  unfold slotLimit at few
  omega

/-- The shares of the members cover the slots. -/
theorem slots_le_sum_shareOf (slots : 0 < s.slots) (few : s.slots ≤ slotLimit)
    (demand : s.demand = (ids.map s.weightAt).sum) (pos : 0 < s.demand) :
    s.slots.toNat ≤ (ids.map fun p => s.shareOf (s.weightAt p)).sum := by
  have shares : ids.map (fun p => s.shareOf (s.weightAt p)) =
      (ids.map s.weightAt).map fun weight =>
        ceilDiv (weight * s.slots.toNat) (ids.map s.weightAt).sum := by
    rw [List.map_map]
    apply List.map_congr_left
    intro p member
    have counted : s.weightAt p ≤ s.demand := by
      rw [demand]
      exact List.le_sum_of_mem (List.mem_map_of_mem member)
    rw [shareOf_eq slots few pos counted, demand]
    rfl
  rw [shares]
  exact le_sum_ceilDiv (demand ▸ pos)

end LockState

section Room
variable {weights : List Nat} {limit : Nat} {s : LockState} {grants : List Grant}

/-- A halted lock has no free slot. -/
theorem LockState.CanServe.running (serve : s.CanServe) (balance : SlotsBalance limit s grants) :
    s.halted = false :=
  balance.running_of_free serve.1

/-- While a slot is free and a request waits, some member holds fewer slots than its share. -/
theorem LockState.CanServe.exists_canGrant (serve : s.CanServe) (account : DemandAccounts weights s)
    (balance : SlotsBalance limit s grants) (few : limit ≤ LockState.slotLimit)
    (positive : ∀ weight ∈ weights, 0 < weight) : ∃ p ∈ s.rota.toList, s.canGrant p = true := by
  have running := serve.running balance
  have free := serve.1
  have waiting := serve.2
  have slots := (balance.running running).1
  have held := balance.balance
  obtain ⟨p₀, member₀⟩ : ∃ p, p ∈ s.rota.toList := by
    rw [account.waiting] at waiting
    obtain ⟨w, queued⟩ := List.exists_mem_of_length_pos waiting
    obtain ⟨p, entry⟩ := LockState.mem_waiters_iff.mp queued
    exact ⟨p, account.active running p (List.ne_nil_of_mem entry)⟩
  have pos : 0 < s.demand := by
    have room := account.room ▸ account.spells.room p₀ member₀
    have weight : 0 < s.weightAt p₀ := positive _ (account.weights ▸ LockState.weightAt_mem room)
    have counted := account.weightAt_le ((account.spells.contains_iff p₀).mpr member₀)
    omega
  by_contra none
  -- otherwise the members hold all slots
  have full : (s.rota.toList.map fun p => s.shareOf (s.weightAt p)).sum ≤
      (s.rota.toList.map s.runnersAt).sum := by
    apply List.sum_le_sum
    intro p member
    by_contra below
    apply none
    refine ⟨p, member, ?_⟩
    have busy : (s.queueAt p).isEmpty = false := by simpa using account.queued p member
    simpa [LockState.canGrant, busy] using below
  have cover := LockState.slots_le_sum_shareOf (by omega) (by omega) account.demand pos
  have part := LockState.sum_runnersAt_le account.spells.nodup (fun p member =>
    account.room ▸ account.spells.room p member)
  omega

/-- While a slot is free and a request waits, the round comes to a member that can take a grant. -/
theorem LockState.CanServe.nextInTurn? (serve : s.CanServe) (account : DemandAccounts weights s)
    (balance : SlotsBalance limit s grants) (few : limit ≤ LockState.slotLimit)
    (positive : ∀ weight ∈ weights, 0 < weight) :
    ∃ p s', s.nextInTurn? = (some p, s') ∧ s.canGrant p = true := by
  obtain ⟨p, member, able⟩ := serve.exists_canGrant account balance few positive
  obtain ⟨q, s', found, -, grants⟩ := LockState.nextInTurn?_of_canGrant account.spells member able
  exact ⟨q, s', found, grants⟩

end Room

/-- A lock is made of a configuration without faults. -/
theorem fault?_of_create {c : Config} {x : Instance} (fresh : Instance.create c = .ok x) :
    c.fault? = none := by
  unfold Instance.create Config.check at fresh
  split at fresh
  · cases fresh
  · rename_i checked
    split at checked
    · cases checked
    · rename_i none
      exact none

/-- The weights of a configuration without faults are positive. -/
theorem pos_of_create {c : Config} {x : Instance} (fresh : Instance.create c = .ok x) :
    ∀ weight ∈ c.weights.map UInt32.toNat, 0 < weight := by
  obtain ⟨-, -, nonzero⟩ := c.fault?_eq_none_iff.mp (fault?_of_create fresh)
  intro weight member
  obtain ⟨v, configured, rfl⟩ := List.mem_map.mp member
  apply Nat.pos_of_ne_zero
  intro zero
  apply nonzero v configured
  exact UInt32.toNat_inj.mp zero

namespace World

theorem weightAt_pos {c : Config} {x : Instance} {ms : List Move} {w : World} {p : Nat}
    (fresh : Instance.create c = .ok x) (run : (start x).run? ms = some w)
    (room : p < w.inst.state.lanes.length) : 0 < w.inst.state.weightAt p :=
  pos_of_create fresh _ ((demandAccounts fresh run).weights ▸ LockState.weightAt_mem room)

/-- While a slot is free and a request waits, the next round of the grant loop comes to a member
that can take a grant. -/
theorem next_of_canServe {c : Config} {x : Instance} {ms : List Move} {w : World}
    (fresh : Instance.create c = .ok x) (run : (start x).run? ms = some w)
    (serve : w.inst.state.CanServe) : w.inst.state.halted = false ∧
      ∃ p s', w.inst.state.nextInTurn? = (some p, s') ∧ w.inst.state.canGrant p = true := by
  have balance := slotsBalance fresh run
  refine ⟨serve.running balance, ?_⟩
  exact serve.nextInTurn? (demandAccounts fresh run) balance (Nat.min_le_right _ _)
    (pos_of_create fresh)

end World

end FairShare
