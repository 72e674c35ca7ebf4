import FairShare.Proofs.Rounds

/-!
# Passes of the grant loop

A pass grants as long as a slot is free and a request waits. The scan of such a pass finds a
priority from whatever place it begins, a turn outside the rota included, so a pass ends for want
of slots or of requests and for nothing else.
-/

namespace FairShare

namespace LockState

variable {s : LockState} {ids : List Nat}

/-- A scan whose turn is with no member looks there in vain and begins a round. -/
theorem nextInTurn?_of_stray {t : Nat} (spells : s.rota.Spells ids) (stray : t ∉ ids)
    (unable : s.canGrant t = false) :
    ({ s with rota := { s.rota with turn := some t } } : LockState).nextInTurn? =
      ({ s with rota := { s.rota with turn := none } } : LockState).scan ids.length := by
  have link : s.rota.link t = {} := spells.unlinked t stray
  have after : ({ s.rota with turn := some t } : Rota).after? t = none := by
    change (s.rota.link t).after = none
    rw [link]
  change ({ s with rota := { s.rota with turn := some t } } : LockState).scan (s.rota.size + 1) = _
  rw [spells.size]
  simp only [scan, Rota.openRound, Option.isNone_some, Bool.false_eq_true, if_false]
  rw [if_neg]
  · simp only [Rota.passTurn, Option.bind_some]
    rw [after]
  · change ¬ s.canGrant t = true
    rw [unable]
    exact Bool.false_ne_true

/-- When a member can take a grant and nobody else can, the scan finds a member that can, wherever
the turn is. -/
theorem nextInTurn?_of_turn {p : Nat} (turn : Option Nat) (spells : s.rota.Spells ids)
    (member : p ∈ ids) (able : s.canGrant p = true)
    (others : ∀ q, q ∉ ids → s.canGrant q = false) :
    ∃ q s', ({ s with rota := { s.rota with turn } } : LockState).nextInTurn? = (some q, s') ∧
      q ∈ ids ∧ s.canGrant q = true := by
  by_cases linked : ∀ t, turn = some t → t ∈ ids
  · exact nextInTurn?_of_canGrant (s := { s with rota := { s.rota with turn } })
      (spells.withTurn linked) member able
  · obtain ⟨t, rfl, stray⟩ : ∃ t, turn = some t ∧ t ∉ ids := by simpa using linked
    rw [nextInTurn?_of_stray spells stray (others t stray)]
    have opened : ({ s.rota with turn := none } : Rota).openRound.turn = ids[0]? := by
      rw [Rota.turn_openRound, Option.none_or, ← List.head?_eq_getElem?]
      exact spells.first
    have look := scan_fst (s := { s with rota := { s.rota with turn := none } }) ids.length
      (spells.withTurn fun _ e => by cases e) opened (List.length_pos_of_mem member) (by omega)
    rw [List.drop_zero, List.take_append_of_le_length (Nat.le_refl _), List.take_length] at look
    cases scanned : ({ s with rota := { s.rota with turn := none } } : LockState).scan
        ids.length with
    | mk o s' =>
        rw [scanned] at look
        cases o with
        | none => exact absurd able (List.find?_eq_none.mp look.symm p member)
        | some q =>
            exact ⟨q, s', rfl, List.mem_of_find?_eq_some look.symm, List.find?_some look.symm⟩

/-- A priority can take a grant exactly if a request waits there and it is below its share. -/
theorem canGrant_iff {p : Nat} :
    s.canGrant p = true ↔ s.queueAt p ≠ [] ∧ s.runnersAt p < s.shareOf (s.weightAt p) := by
  simp [canGrant]

end LockState

section Passes
variable {x x' : Instance} {L L' : List Nat} {sec : Section} {a : Agenda Task} {waker : Waker}

/-- A pass that can serve, and whose scan finds a priority, grants to the first request there. -/
theorem Effect.grants_of_pass (effect : Effect x L (.task (.pass waker)) x' a L')
    (running : x.state.halted = false) (serve : x.state.CanServe)
    (found : ∃ p s, x.state.nextInTurn? = (some p, s) ∧ x.state.canGrant p = true) :
    ∃ p w rest, x.state.canGrant p = true ∧ x.state.queueAt p = w :: rest ∧
      x'.state.queueAt p = rest ∧ x'.grants = x.grants ++ [{ priority := p }] ∧
      .settle waker ∈ tasksOf a := by
  obtain ⟨p, s, next, able⟩ := found
  cases effect with
  | passHalted halted => cases running.symm.trans halted
  | passIdle _ idle =>
      obtain ⟨free, waiting⟩ := serve
      omega
  | passStalled _ _ _ scan => cases next.symm.trans scan
  | passEmpty _ _ _ scan empty =>
      cases next.symm.trans scan
      obtain ⟨turn, rfl⟩ := LockState.eq_turn_of_nextInTurn? scan
      exact absurd (LockState.grantFirst?_eq_none_iff.mp empty) (LockState.canGrant_iff.mp able).1
  | grantLost _ _ _ scan first | grantReturned _ _ _ scan first | grant _ _ _ scan first =>
      cases next.symm.trans scan
      obtain ⟨rest, queue, queues⟩ := LockState.queue_of_first scan first
      exact ⟨p, _, rest, able, queue, (queues p).trans (if_pos rfl), rfl, by simp⟩
  | letGoMissing lets | letGoClone lets | letGoLast lets => cases lets

/-- A pass that goes back to the poll had nothing to serve, or its scan has failed. -/
theorem Effect.idle_of_resume (effect : Effect x L (.task (.pass waker)) x' a L')
    (resumes : .resume waker ∈ tasksOf a) (found : x.state.CanServe →
      ∃ p s, x.state.nextInTurn? = (some p, s) ∧ x.state.canGrant p = true) :
    x.state.free ≤ 0 ∨ x.state.waiting = 0 := by
  by_contra busy
  have serve : x.state.CanServe := by
    constructor <;> omega
  cases running : x.state.halted with
  | true =>
      cases effect with
      | passHalted => simp at resumes
      | passIdle running' | passStalled running' | passEmpty running' | grantLost running'
      | grantReturned running' | grant running' => cases running.symm.trans running'
      | letGoMissing lets | letGoClone lets | letGoLast lets => cases lets
  | false =>
      obtain ⟨p, w, rest, -, -, -, grants, settles⟩ :=
        effect.grants_of_pass running serve (found serve)
      cases effect with
      | passHalted halted => cases running.symm.trans halted
      | passIdle _ idle => exact busy idle
      | passStalled | passEmpty => simp at grants
      | grantLost | grantReturned | grant => simp at resumes
      | letGoMissing lets | letGoClone lets | letGoLast lets => cases lets

/-- The log reports a stall only of a pass that could serve and whose scan has failed. -/
theorem Effect.log_stalled {free : Int} {waiting demand : Nat} (effect : Effect x L sec x' a L')
    (stalled : .stalled free waiting demand ∈ x'.log) :
    .stalled free waiting demand ∈ x.log ∨
      x.state.CanServe ∧ ∃ s, x.state.nextInTurn? = (none, s) := by
  cases effect with
  | passStalled _ free waiting scan => exact .inr ⟨⟨free, Nat.pos_of_ne_zero waiting⟩, _, scan⟩
  | letGoMissing lets | letGoClone lets | letGoLast lets =>
      left
      cases lets <;> simpa using stalled
  | halt =>
      left
      split at stalled <;> simpa using stalled
  | _ =>
      left
      simpa using stalled

end Passes

namespace World

variable {c : Config} {x : Instance} {ms : List Move} {w : World}

/-- While a slot is free and a request waits, there is a first request of a member that can take a
grant. -/
theorem first_of_canServe (fresh : Instance.create c = .ok x) (run : (start x).run? ms = some w)
    (serve : w.inst.state.CanServe) : w.inst.state.halted = false ∧
      ∃ p s e s', w.inst.state.nextInTurn? = (some p, s) ∧ s.grantFirst? p = some (e, s') := by
  obtain ⟨running, p, s, scan, able⟩ := next_of_canServe fresh run serve
  refine ⟨running, p, s, ?_⟩
  have waits : s.queueAt p ≠ [] := by
    obtain ⟨turn, rfl⟩ := LockState.eq_turn_of_nextInTurn? scan
    exact (LockState.canGrant_iff.mp able).1
  cases first : s.grantFirst? p with
  | none => exact absurd (LockState.grantFirst?_eq_none_iff.mp first) waits
  | some granted => exact ⟨granted.1, granted.2, scan, rfl⟩

/-- With one priority only, that is the first request of its queue. -/
theorem first_of_one_lane (fresh : Instance.create c = .ok x) (run : (start x).run? ms = some w)
    (serve : w.inst.state.CanServe) (one : w.inst.state.lanes.length = 1) {e : Waiter}
    {rest : List Waiter} (queue : w.inst.state.queueAt 0 = e :: rest) :
    w.inst.state.halted = false ∧
      ∃ s s', w.inst.state.nextInTurn? = (some 0, s) ∧ s.grantFirst? 0 = some (e, s') := by
  obtain ⟨running, p, s, e', s', scan, first⟩ := first_of_canServe fresh run serve
  obtain ⟨rest', front, -⟩ := LockState.queue_of_first scan first
  obtain rfl : p = 0 := by
    have room := LockState.lt_of_queueAt_ne_nil (List.ne_nil_of_mem (front ▸ List.mem_cons_self))
    exact Nat.lt_one_iff.mp (one ▸ room)
  obtain ⟨rfl, -⟩ := List.cons.inj (queue.symm.trans front)
  exact ⟨running, s, s', scan, first⟩

/-- While a slot is free and a request waits, the scan finds a priority wherever the turn is. -/
theorem next_of_turn (fresh : Instance.create c = .ok x) (run : (start x).run? ms = some w)
    (serve : w.inst.state.CanServe) (turn : Option Nat) :
    ∃ p s', ({ w.inst.state with rota := { w.inst.state.rota with turn } } :
      LockState).nextInTurn? = (some p, s') ∧ w.inst.state.canGrant p = true := by
  have account := demandAccounts fresh run
  have balance := slotsBalance fresh run
  have running := serve.running balance
  obtain ⟨p, member, able⟩ := serve.exists_canGrant account balance (Nat.min_le_right _ _)
    (pos_of_create fresh)
  have others : ∀ q, q ∉ w.inst.state.rota.toList → w.inst.state.canGrant q = false := by
    intro q absent
    by_contra grants
    rw [Bool.not_eq_false] at grants
    exact absent (account.active running q (LockState.canGrant_iff.mp grants).1)
  obtain ⟨q, s', found, -, grants⟩ :=
    LockState.nextInTurn?_of_turn turn account.spells member able others
  exact ⟨q, s', found, grants⟩

/-- The log of a run reports no stall. -/
theorem not_stalled (fresh : Instance.create c = .ok x) (run : (start x).run? ms = some w)
    (free : Int) (waiting demand : Nat) : .stalled free waiting demand ∉ w.inst.log := by
  refine run?_induction (P := fun _ v => .stalled free waiting demand ∉ v.inst.log) ?_ ?_ run
  · rw [eq_ofConfig_of_create fresh]
    simp [start, Instance.ofConfig]
  · intro ms v m v' hv past hstep stalled
    obtain ⟨rest, a, -, -, effect⟩ := step?_effect hstep
    rcases effect.log_stalled stalled with before | ⟨serve, s, scan⟩
    · exact past before
    · obtain ⟨-, p, s', found, -⟩ := next_of_canServe fresh hv serve
      cases scan.symm.trans found

/-- The scan never stalls: while a slot is free and a request waits, it finds a priority below its
share, wherever the turn is. So a pass ends only for want of slots or of requests, and the branch
that reports a stall is dead. -/
theorem never_stalls (fresh : Instance.create c = .ok x) (run : (start x).run? ms = some w) :
    (w.inst.state.halted = false → 0 < w.inst.state.free → 0 < w.inst.state.waiting →
      (∀ turn, ∃ p s', ({ w.inst.state with rota := { w.inst.state.rota with turn } } :
        LockState).nextInTurn? = (some p, s') ∧ w.inst.state.queueAt p ≠ [] ∧
        w.inst.state.runnersAt p < w.inst.state.shareOf (w.inst.state.weightAt p)) ∧
      ∀ waker, ∃ p entry rest, w.inst.state.queueAt p = entry :: rest ∧
        w.inst.state.runnersAt p < w.inst.state.shareOf (w.inst.state.weightAt p) ∧
        (w.inst.pass waker).1.state.queueAt p = rest ∧
        (w.inst.pass waker).1.grants = w.inst.grants ++ [{ priority := p }] ∧
        .settle waker ∈ tasksOf (w.inst.pass waker).2) ∧
    (∀ waker, .resume waker ∈ tasksOf (w.inst.pass waker).2 →
      w.inst.state.free ≤ 0 ∨ w.inst.state.waiting = 0) ∧
    (∀ free waiting demand, .stalled free waiting demand ∉ w.inst.log) := by
  have finds (serve : w.inst.state.CanServe) := (next_of_canServe fresh run serve).2
  refine ⟨?_, ?_, not_stalled fresh run⟩
  · intro running free waiting
    have serve : w.inst.state.CanServe := ⟨free, waiting⟩
    constructor
    · intro turn
      obtain ⟨p, s', found, able⟩ := next_of_turn fresh run serve turn
      exact ⟨p, s', found, LockState.canGrant_iff.mp able⟩
    · intro waker
      have effect := effect_pass (x := w.inst) (L := w.locks) waker
      obtain ⟨p, entry, rest, able, queue, queue', grants, settles⟩ :=
        effect.grants_of_pass running serve (finds serve)
      exact ⟨p, entry, rest, queue, (LockState.canGrant_iff.mp able).2, queue', grants, settles⟩
  · intro waker resumes
    exact (effect_pass (L := w.locks) waker).idle_of_resume resumes finds

/-- A lock with one slot that is free again while a request of the second priority waits. -/
theorem never_stalls_of_release :
    ∃ w, (start (.ofConfig { concurrency := 1, weights := [1, 1] })).run?
        [.call (.request 0), .callEnds, .call (.request 1), .callEnds, .call (.poll 0 .silent),
          .callEnds, .call (.release 0)] = some w ∧
      w.inst.state.halted = false ∧ 0 < w.inst.state.free ∧ 0 < w.inst.state.waiting ∧
      ∃ p s', ({ w.inst.state with rota := { w.inst.state.rota with turn := some 0 } } :
        LockState).nextInTurn? = (some p, s') ∧ w.inst.state.queueAt p ≠ [] := by
  have run : (start (.ofConfig { concurrency := 1, weights := [1, 1] })).run?
      [.call (.request 0), .callEnds, .call (.request 1), .callEnds, .call (.poll 0 .silent),
        .callEnds, .call (.release 0)] = some _ := rfl
  have stalls := never_stalls (c := { concurrency := 1, weights := [1, 1] }) rfl run
  obtain ⟨p, s', found, waits, -⟩ := (stalls.1 rfl (by decide) (by decide)).1 (some 0)
  exact ⟨_, run, rfl, by decide, by decide, p, s', found, waits⟩

end World

end FairShare
