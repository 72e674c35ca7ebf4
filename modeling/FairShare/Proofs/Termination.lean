import FairShare.Proofs.Polls
import FairShare.Proofs.Demand
import FairShare.Proofs.Undisturbed

/-!
# What is in progress comes to its end

The code of wakers may make calls while a call is in progress: release the lock that was just
delivered, let requests go and make new ones. Each of these can put a slot, a request or the permit
back, and the grant loop goes on as long as it finds them. It does not go on by itself, though.
Every move other than a call uses up some of a credit, which only calls fill up, and each of them by
no more than a fixed amount.

The credit is amortized: a task pays for the moves that it leads to, a queued request for its own
grant, the stored permit for one pass, and an instance that is alive for its destruction.
-/

namespace FairShare

open Instance

/-! ## The credit -/

/-- What a task pays for: its own move and those that it leads to. -/
def Task.credit : Task → Nat
  | wakeLoop => 6
  | closeSender _ => 3
  | dropReceiver _ => 9
  | dropLock _ => 8
  | takeBack _ => 8
  | disown => 1
  | resume _ => 2
  | pass _ => 4
  | settle _ => 5
  | endPoll _ => 1

/-- The calling of a waker is one move, and the end of its code another. -/
def Activity.credit : Activity Task → Nat
  | task t => t.credit
  | waking _ => 2

/-- What an agenda pays for. -/
def creditOf (a : Agenda Task) : Nat :=
  (a.map Activity.credit).sum

@[simp] theorem creditOf_nil : creditOf [] = 0 := rfl

@[simp] theorem creditOf_cons (i : Activity Task) (a : Agenda Task) :
    creditOf (i :: a) = i.credit + creditOf a := rfl

@[simp] theorem creditOf_append (a b : Agenda Task) :
    creditOf (a ++ b) = creditOf a + creditOf b := by
  simp [creditOf]

theorem creditOf_callWaker_le (o : Option Waker) : creditOf (callWaker o) ≤ 2 := by
  cases o with
  | none => exact Nat.zero_le 2
  | some w => exact Nat.le_refl 2

theorem creditOf_wakeLoopIf_le (b : Bool) : creditOf (wakeLoopIf b) ≤ 6 := by
  cases b with
  | false => exact Nat.zero_le 6
  | true => exact Nat.le_refl 6

@[simp] theorem creditOf_closeAll (waiters : List Waiter) :
    creditOf (closeAll waiters) = 3 * waiters.length := by
  induction waiters with
  | nil => rfl
  | cons e waiters ih =>
      have first : creditOf (closeAll (e :: waiters)) = 3 + creditOf (closeAll waiters) := rfl
      rw [first, ih, List.length_cons]
      omega

/-- A channel has at most one lock to let go. -/
theorem creditOf_dropLocks_le (o : Option Nat) :
    creditOf (o.toList.map fun g => .task (.dropLock g)) ≤ 8 := by
  cases o with
  | none => exact Nat.zero_le 8
  | some g => exact Nat.le_refl 8

/-- What a layer pays for: its agenda, and its own end. -/
def Layer.credit : Layer → Nat
  | call _ a _ => creditOf a + 1
  | waker _ => 1

/-- What the instance pays for: the grant of each queued request, one pass with the stored permit,
and its destruction. -/
def Instance.credit (x : Instance) : Nat :=
  13 * x.state.waiters.length + 3 * x.wake.permit.toNat + 6 * x.isAlive.toNat

/-- What a section may leave: a call fills the credit up, a task pays for its own move. -/
def Section.credit : Section → Nat
  | call _ => 19
  | task t => t.credit - 1
  | idle => 0

namespace LockState

/-- Queueing adds one request. -/
theorem length_waiters_enqueue {s : LockState} {p : Nat} (c : Nat) (room : p < s.lanes.length) :
    (s.enqueue p c).waiters.length = s.waiters.length + 1 :=
  (waiters_enqueue_perm c room).length_eq

/-- Leaving a queue takes one request away. -/
theorem Leaves.length_waiters {s s' : LockState} {p : Nat} {e : Waiter} (h : Leaves p e s s') :
    s.waiters.length = s'.waiters.length + 1 :=
  h.waiters_perm.length_eq

/-- A grant to the first request in turn takes one request away. -/
theorem length_waiters_of_first {s s₁ s₂ : LockState} {p : Nat} {e : Waiter} {o : Option Nat}
    (scan : s.nextInTurn? = (o, s₁)) (first : s₁.grantFirst? p = some (e, s₂)) :
    s.waiters.length = s₂.waiters.length + 1 := by
  obtain ⟨turn, s₃, rfl, leaves, rfl⟩ := turn_leaves_take scan first
  rw [waiters_takeSlot]
  exact leaves.length_waiters

/-- Passing the turn leaves the requests in their queues. -/
theorem waiters_of_nextInTurn? {s s₁ : LockState} {o : Option Nat}
    (scan : s.nextInTurn? = (o, s₁)) : s₁.waiters = s.waiters := by
  obtain ⟨turn, rfl⟩ := eq_turn_of_nextInTurn? scan
  rfl

end LockState

/-- What a pending disowning takes away is there. -/
theorem OwnerCount.pos_of_disown {x : Instance} {rest : List Task}
    (count : OwnerCount x (.disown :: rest)) : 0 < x.owners := by
  by_contra dead
  have idle := (count.of_dead (Nat.eq_zero_of_not_pos dead)).2.2
  cases idle .disown List.mem_cons_self

/-- Whatever lets the last clone of a lock go pays for the firing and the disowning after it. -/
theorem LetsGo.seven_le_credit {g : Nat} {L L' : List Nat} {sec : Section} {es : List Event}
    (lets : LetsGo g L sec L' es) : 7 ≤ sec.credit := by
  cases lets <;> simp [Section.credit, Task.credit]

/-- No section leads to more than it pays for, and a call fills the credit up by a fixed amount at
most. -/
theorem Effect.credit_le {x x' : Instance} {L L' : List Nat} {sec : Section} {a : Agenda Task}
    (effect : Effect x L sec x' a L') {rest : List Task}
    (count : OwnerCount x (sec.tasks ++ rest)) :
    x'.credit + creditOf a ≤ x.credit + sec.credit := by
  have permit := Bool.toNat_le x.wake.permit
  -- nobody but the living come by a grant, a handle or a pass
  have alive : x'.isAlive.toNat ≤ x.isAlive.toNat := by
    have dead := effect.dead count
    unfold isAlive
    by_cases gone : x.owners = 0
    · rw [gone, dead gone]
    · rw [decide_eq_true (Nat.pos_of_ne_zero gone)]
      exact Bool.toNat_le _
  unfold Instance.credit
  unfold isAlive at *
  cases effect with
  | @queue p _ room =>
      have length := LockState.length_waiters_enqueue x.channels.length room
      have wake := creditOf_wakeLoopIf_le (0 < (x.state.enqueue p x.channels.length).free)
      simp only [length, Section.credit] at *
      omega
  | kill _ running =>
      simp [LockState.waiters_kill running, Section.credit, Activity.credit, Task.credit]
      omega
  | @withdraw r q ticket c e s _ _ _ found =>
      have length := (LockState.leaves_of_withdraw? found).2.length_waiters
      have wake := creditOf_wakeLoopIf_le
        (!s.halted && decide (0 < s.free) && decide (0 < s.waiting))
      simp [length, Section.credit, Activity.credit, Task.credit] at *
      omega
  | @release g grant =>
      have wake := creditOf_wakeLoopIf_le (0 < (x.state.returnSlot grant.priority).waiting)
      simp [Section.credit, Activity.credit, Task.credit]
      omega
  | letGoMissing lets | letGoClone lets => simp
  | @letGoLast g _ _ _ grant lets =>
      have wake := creditOf_wakeLoopIf_le (0 < (x.state.returnSlot grant.priority).waiting)
      have pays := lets.seven_le_credit
      simp [Activity.credit, Task.credit]
      omega
  | wakeLoop =>
      have call := creditOf_callWaker_le x.wake.waker
      simp [Section.credit, Task.credit]
      omega
  | @closeEmpty c ch =>
      have call := creditOf_callWaker_le ch.waker
      simpa [Section.credit, Task.credit] using call
  | @dropReceiver c ch =>
      have drop := creditOf_dropLocks_le ch.value
      simpa [Section.credit, Task.credit] using drop
  | destroy last running =>
      have owned := count.pos_of_disown
      simp [LockState.waiters_kill running, last, owned, Section.credit, Activity.credit,
        Task.credit]
      omega
  | destroyKilled last =>
      have owned := count.pos_of_disown
      simp [last, owned, Section.credit, Activity.credit, Task.credit]
  | beginPass owned _ permit =>
      simp [permit, Nat.pos_of_ne_zero owned, Section.credit, Activity.credit, Task.credit]
  | passStalled _ _ _ scan | passEmpty _ _ _ scan =>
      have waiters := LockState.waiters_of_nextInTurn? scan
      simp [waiters, Section.credit, Activity.credit, Task.credit]
  | grantLost _ _ _ scan first | grantReturned _ _ _ scan first =>
      have length := LockState.length_waiters_of_first scan first
      simp [length, Section.credit, Activity.credit, Task.credit] at *
      omega
  | @grant _ _ _ _ _ ch _ _ _ scan first =>
      have length := LockState.length_waiters_of_first scan first
      have call := creditOf_callWaker_le ch.waker
      simp [length, Section.credit, Activity.credit, Task.credit] at *
      omega
  | _ => simp [Section.credit, Activity.credit, Task.credit] at * <;> omega

/-- Whether the move is a call. -/
def Move.isCall : Move → Bool
  | call _ => true
  | _ => false

namespace World

/-! ## Moves -/

/-- What the instance and all that is in progress on it pay for. -/
def credit (w : World) : Nat :=
  w.inst.credit + (w.layers.map Layer.credit).sum

variable {c : Config} {x : Instance} {ms ms' : List Move} {w v : World}

/-- Every move uses up some credit, and only calls fill it up. -/
theorem step?_credit {m : Move} (count : OwnerCount w.inst w.tasks) (step : w.step? m = some v) :
    v.credit + 1 ≤ w.credit + 21 * m.isCall.toNat := by
  unfold credit
  rcases step?_cases step with ⟨c, rfl, -, allowed, rfl⟩ | ⟨c, t, rest, made, below, rfl, hl, rfl⟩ |
    ⟨c, k, rest, made, below, rfl, hl, rfl⟩ | ⟨k, below, rfl, hl, rfl⟩ |
    ⟨c, made, below, rfl, hl, rfl⟩
  · have count' : OwnerCount w.inst ((Section.call c).tasks ++ w.tasks) := count
    have pays := (effect_begin allowed).credit_le count'
    simp [begin, Layer.credit, Move.isCall, Section.credit] at pays ⊢
    omega
  · have pending : w.tasks = t :: (tasksOf rest ++ below.flatMap fun l => tasksOf l.agenda) := by
      simp [tasks, hl, Layer.agenda]
    rw [pending] at count
    have pays := (t.effect_perform w.inst w.locks).credit_le count
    have own : 0 < t.credit := by cases t <;> simp [Task.credit]
    simp [hl, Layer.credit, Move.isCall, Section.credit, Activity.credit] at pays ⊢
    omega
  all_goals
    simp only [hl, List.map_cons, List.sum_cons, Layer.credit, creditOf_cons, creditOf_nil,
      Activity.credit]
    omega

/-- The moves of a run are bounded by the credit at its start and the calls in it. -/
theorem length_add_credit_le (fresh : Instance.create c = .ok x)
    (run : (start x).run? ms = some w) (run' : w.run? ms' = some v) :
    ms'.length + v.credit ≤ w.credit + 21 * ms'.countP Move.isCall := by
  refine run?_induction (P := fun ms' v =>
    ms'.length + v.credit ≤ w.credit + 21 * ms'.countP Move.isCall) (by simp) ?_ run'
  intro ms' u m v reached past step
  have paid := step?_credit (ownerCount fresh (run?_trans run reached)) step
  rw [List.length_append, List.length_singleton, countP_append_singleton]
  omega

/-! ## Ends -/

/-- A move other than a call leaves less credit. -/
theorem credit_lt {m : Move} (fresh : Instance.create c = .ok x) (run : (start x).run? ms = some w)
    (step : w.step? m = some v) (other : m.isCall = false) : v.credit < w.credit := by
  have paid := step?_credit (ownerCount fresh run) step
  rw [other] at paid
  exact paid

/-- If the wakers make no calls from now on, what is left of the innermost call completes. -/
theorem exists_completes {d : Call} {a : Agenda Task} {made : Option Nat} {below : List Layer}
    (fresh : Instance.create c = .ok x) (run : (start x).run? ms = some w)
    (layers : w.layers = .call d a made :: below) : ∃ y, Completes a w.inst y := by
  -- the credit goes down with each move
  induction credit : w.credit using Nat.strong_induction_on generalizing ms w a with
  | _ n ih =>
      subst credit
      obtain ⟨z, layers', locks⟩ := w
      subst layers
      match a with
      | [] => exact ⟨z, .done z⟩
      | .task t :: rest =>
          have step : World.step? ⟨z, .call d (.task t :: rest) made :: below, locks⟩ .work =
              some ⟨(t.perform z).1, .call d ((t.perform z).2 ++ rest) made :: below, locks⟩ := rfl
          have reached := run?_append_singleton_eq_some_iff.mpr ⟨_, run, step⟩
          obtain ⟨y, completes⟩ := ih _ (credit_lt fresh run step rfl) reached rfl rfl
          exact ⟨y, .work rfl completes⟩
      | .waking k :: rest =>
          have called :
              World.step? ⟨z, .call d (.waking k :: rest) made :: below, locks⟩ (.wake k) =
              some ⟨z, .waker k :: .call d rest made :: below, locks⟩ := by simp [step?]
          have ended : World.step? ⟨z, .waker k :: .call d rest made :: below, locks⟩ .wakerEnds =
              some ⟨z, .call d rest made :: below, locks⟩ := rfl
          have reached := run?_append_singleton_eq_some_iff.mpr ⟨_, run, called⟩
          have reached' := run?_append_singleton_eq_some_iff.mpr ⟨_, reached, ended⟩
          have less := credit_lt fresh run called rfl
          have less' := credit_lt fresh reached ended rfl
          obtain ⟨y, completes⟩ := ih _ (less'.trans less) reached' rfl rfl
          exact ⟨y, .wake completes⟩

/-- If the wakers make no calls from now on, what is in progress returns, down to any layer. -/
theorem exists_unfolds_to {below : List Layer} (fresh : Instance.create c = .ok x)
    (run : (start x).run? ms = some w) (part : below <:+ w.layers) :
    ∃ y, Unfolds w { inst := y, layers := below, locks := w.locks } := by
  obtain ⟨above, layers⟩ := part
  induction above generalizing ms w with
  | nil =>
      obtain ⟨z, layers', locks⟩ := w
      subst layers
      exact ⟨z, .refl _⟩
  | cons l above ih =>
      obtain ⟨z, layers', locks⟩ := w
      subst layers
      obtain ⟨y, first⟩ :
          ∃ y, Unfolds ⟨z, l :: above ++ below, locks⟩ ⟨y, above ++ below, locks⟩ := by
        cases l with
        | call d a made =>
            obtain ⟨y, completes⟩ := exists_completes fresh run rfl
            exact ⟨y, completes.unfolds d made (above ++ below) locks⟩
        | waker k => exact ⟨z, [.wakerEnds], rfl, by simp⟩
      obtain ⟨ms', run', -⟩ := id first
      obtain ⟨y', rest⟩ := ih (run?_trans run run') rfl
      exact ⟨y', first.trans rest⟩

/-! ## Counts of moves -/

/-- How many moves of a run are of this kind, each judged in the world where it is made. -/
def occurrences (kind : World → Move → Bool) (w : World) : List Move → Nat
  | [] => 0
  | m :: ms =>
    (kind w m).toNat + match w.step? m with
      | none => 0
      | some v => v.occurrences kind ms

/-- Whether the move queues a request. -/
def queuesRequest (w : World) : Move → Bool
  | .call (.request p) =>
    decide (p < w.inst.state.lanes.length) && !w.inst.state.killed && !w.inst.state.admitsAtOnce p
  | _ => false

/-- Whether the move fires the wake event of the grant loop. -/
def firesLoop (w : World) (m : Move) : Bool :=
  decide (m = .work) && decide (w.next? = some (.task .wakeLoop))

theorem occurrences_append_singleton (kind : World → Move → Bool) (m : Move)
    (run : w.run? ms = some v) :
    w.occurrences kind (ms ++ [m]) = w.occurrences kind ms + (kind v m).toNat := by
  induction ms generalizing w with
  | nil =>
      obtain rfl := Option.some.inj run
      simp only [List.nil_append, occurrences, Nat.zero_add]
      cases w.step? m <;> rfl
  | cons m' ms ih =>
      rw [run?_cons] at run
      obtain ⟨u, step, run⟩ := Option.bind_eq_some_iff.mp run
      simp only [List.cons_append, occurrences, step]
      rw [ih run]
      omega

/-- What only moves of one kind add to, one at a time, grows by no more than their number. -/
theorem le_add_occurrences {kind : World → Move → Bool} (amount : Instance → Nat)
    (step : ∀ {u v : World} {m : Move}, u.step? m = some v →
      amount v.inst ≤ amount u.inst + (kind u m).toNat)
    (run : w.run? ms = some v) : amount v.inst ≤ amount w.inst + w.occurrences kind ms := by
  refine run?_induction (P := fun ms v =>
    amount v.inst ≤ amount w.inst + w.occurrences kind ms) (by simp) ?_ run
  intro ms u m v reached past now
  rw [occurrences_append_singleton kind m reached]
  have more := step now
  omega

end World

/-- The grants of the loop come out of the queues, which only a request that queues adds to. -/
theorem Effect.grants_add_waiters_le {x x' : Instance} {L L' : List Nat} {sec : Section}
    {a : Agenda Task} (effect : Effect x L sec x' a L') :
    x'.loop.grants + x'.state.waiters.length ≤ x.loop.grants + x.state.waiters.length ∨
    ∃ p, sec = .call (.request p) ∧ p < x.state.lanes.length ∧ x.state.killed = false ∧
      x.state.admitsAtOnce p = false ∧
      x'.loop.grants + x'.state.waiters.length = x.loop.grants + x.state.waiters.length + 1 := by
  cases effect with
  | @queue p _ room alive slow =>
      have length := LockState.length_waiters_enqueue x.channels.length room
      exact .inr ⟨p, rfl, room, alive, slow, by rw [length]; rfl⟩
  | kill _ running | destroy _ running =>
      left
      simp [LockState.waiters_kill running]
  | withdraw _ _ _ found =>
      have length := (LockState.leaves_of_withdraw? found).2.length_waiters
      left
      simp [length]
  | passStalled _ _ _ scan | passEmpty _ _ _ scan =>
      have waiters := LockState.waiters_of_nextInTurn? scan
      left
      simp [waiters]
  | grantLost _ _ _ scan first | grantReturned _ _ _ scan first | grant _ _ _ scan first =>
      have length := LockState.length_waiters_of_first scan first
      left
      simp only [length]
      omega
  | _ =>
      left
      simp

/-- The passes of the loop come out of the permit, which only a firing of the event stores. -/
theorem Effect.passes_add_permit_le {x x' : Instance} {L L' : List Nat} {sec : Section}
    {a : Agenda Task} (effect : Effect x L sec x' a L') :
    x'.loop.passes + x'.wake.permit.toNat ≤ x.loop.passes + x.wake.permit.toNat ∨
    sec = .task .wakeLoop ∧
      x'.loop.passes + x'.wake.permit.toNat ≤ x.loop.passes + x.wake.permit.toNat + 1 := by
  cases effect with
  | wakeLoop => exact .inr ⟨rfl, by simp⟩
  | beginPass _ _ permit => exact .inl (by simp [permit])
  | _ =>
      left
      simp

namespace World

variable {c : Config} {x : Instance} {ms ms' : List Move} {w u v : World}

/-- The loop grants no more requests than waited and were queued since. -/
theorem grants_add_waiters_le (run : w.run? ms = some v) :
    v.inst.loop.grants + v.inst.state.waiters.length ≤
      w.inst.loop.grants + w.inst.state.waiters.length + w.occurrences queuesRequest ms := by
  refine le_add_occurrences (fun x => x.loop.grants + x.state.waiters.length) ?_ run
  intro u v m step
  obtain ⟨_, _, -, -, effect⟩ := step?_effect step
  rcases effect.grants_add_waiters_le with le | ⟨p, asked, room, alive, slow, more⟩
  · exact le.trans (Nat.le_add_right _ _)
  · rw [eq_call_of_sectionOf asked]
    simp [queuesRequest, room, alive, slow, more]

/-- The loop begins no more passes than its event was fired, and one with a permit from before. -/
theorem passes_add_permit_le (run : w.run? ms = some v) :
    v.inst.loop.passes + v.inst.wake.permit.toNat ≤
      w.inst.loop.passes + w.inst.wake.permit.toNat + w.occurrences firesLoop ms := by
  refine le_add_occurrences (fun x => x.loop.passes + x.wake.permit.toNat) ?_ run
  intro u v m step
  obtain ⟨_, _, -, -, effect⟩ := step?_effect step
  rcases effect.passes_add_permit_le with le | ⟨fires, more⟩
  · exact le.trans (Nat.le_add_right _ _)
  · have kind : u.firesLoop m = true := by
      simp [firesLoop, eq_work_of_sectionOf fires, next?_of_sectionOf fires]
    rw [kind]
    exact more

/-- A poll of the grant loop comes to its end, whatever the wakers do, as long as they make finitely
many calls: the moves since it began are bounded by the credit that there was and by the calls that
were made since, and so are its grants and passes. -/
theorem drive_terminates (fresh : Instance.create c = .ok x) (run : (start x).run? ms = some w)
    {k : Waker} (polled : w.step? (.call (.drive k)) = some u) (run' : u.run? ms' = some v) :
    ms'.length ≤ u.credit + 21 * ms'.countP Move.isCall ∧
    (∀ below, below <:+ v.layers →
      ∃ y, Unfolds v { inst := y, layers := below, locks := v.locks } ∧
        (below = w.layers → y.loop.polling = false)) ∧
    v.inst.loop.grants ≤
      w.inst.loop.grants + w.inst.state.waiting + u.occurrences queuesRequest ms' ∧
    v.inst.loop.passes ≤ w.inst.loop.passes + 1 + u.occurrences firesLoop ms' := by
  have begun := run?_append_singleton_eq_some_iff.mpr ⟨w, run, polled⟩
  have reached := run?_trans begun run'
  have allowed := allows_of_step? polled
  obtain rfl : u = w.begin (.drive k) := by
    rcases step?_cases polled with ⟨d, e, -, -, rfl⟩ | ⟨_, _, _, _, _, e, -⟩ |
      ⟨_, _, _, _, _, e, -⟩ | ⟨_, _, e, -⟩ | ⟨_, _, _, e, -⟩
    · cases e
      rfl
    all_goals cases e
  refine ⟨?_, ?_, ?_, ?_⟩
  · have bound := length_add_credit_le fresh begun run'
    omega
  · intro below part
    obtain ⟨y, unfolds⟩ := exists_unfolds_to fresh reached part
    refine ⟨y, unfolds, ?_⟩
    rintro rfl
    -- no task of the loop was pending where the poll began
    obtain ⟨ms'', run'', -⟩ := unfolds
    have resting : w.inst.loop.polling = false := by
      simp only [allows, Bool.and_eq_true, Bool.not_eq_true'] at allowed
      exact allowed.2
    have before := pollCount fresh run
    have after := pollCount fresh (run?_trans reached run'')
    change w.tasks.countP Task.isOfPoll = _ at before after
    rw [resting] at before
    change w.tasks.countP Task.isOfPoll = y.loop.polling.toNat at after
    cases polling : y.loop.polling with
    | false => rfl
    | true =>
        rw [before, polling] at after
        cases after
  · have bound := grants_add_waiters_le run'
    have waiting := (demandAccounts fresh run).waiting
    change _ ≤ w.inst.loop.grants + w.inst.state.waiters.length + _ at bound
    omega
  · have bound := passes_add_permit_le run'
    have permit := Bool.toNat_le w.inst.wake.permit
    change _ ≤ w.inst.loop.passes + w.inst.wake.permit.toNat + _ at bound
    omega

/-- One slot and three requests. The waker that a poll calls takes the lock that came, releases it
at once and requests again: two grants come of it, in two passes, and then the poll waits. -/
theorem drive_terminates_of_greedy_waker :
    ∃ w u v, (start (.ofConfig { concurrency := 1, weights := [1] })).run?
        [.call (.request 0), .callEnds, .call (.poll 0 .silent), .callEnds, .call (.request 0),
          .callEnds, .call (.request 0), .callEnds, .call (.poll 1 (.named "greedy")), .callEnds,
          .call (.release 0), .work, .work, .callEnds] = some w ∧
      w.step? (.call (.drive .silent)) = some u ∧
      u.run?
        [.work, .work, .wake (.named "greedy"), .call (.poll 1 .silent), .callEnds,
          .call (.release 1), .work, .work, .callEnds, .call (.request 0), .work, .callEnds,
          .wakerEnds, .work, .work, .work, .work, .work, .work, .work, .work, .work, .work, .work,
          .work, .callEnds] = some v ∧
      v.isIdle = true ∧ v.inst.loop.polling = false ∧ v.inst.loop.grants = 2 ∧
      v.inst.loop.grants ≤ 0 + 2 + 1 ∧ v.inst.loop.passes = 2 ∧
      v.inst.loop.passes ≤ 0 + 1 + 2 := by
  have run : (start (.ofConfig { concurrency := 1, weights := [1] })).run?
      [.call (.request 0), .callEnds, .call (.poll 0 .silent), .callEnds, .call (.request 0),
        .callEnds, .call (.request 0), .callEnds, .call (.poll 1 (.named "greedy")), .callEnds,
        .call (.release 0), .work, .work, .callEnds] = some _ := rfl
  obtain ⟨-, returns, grants, passes⟩ := drive_terminates
    (c := { concurrency := 1, weights := [1] }) rfl run (k := .silent) rfl
    (rfl : run? _ [.work, .work, .wake (.named "greedy"), .call (.poll 1 .silent), .callEnds,
      .call (.release 1), .work, .work, .callEnds, .call (.request 0), .work, .callEnds,
      .wakerEnds, .work, .work, .work, .work, .work, .work, .work, .work, .work, .work, .work,
      .work, .callEnds] = some _)
  obtain ⟨y, unfolds, rests⟩ := returns [] (List.nil_suffix)
  have ends := unfolds.eq_of_isIdle rfl
  have polling := rests rfl
  rw [World.mk.injEq] at ends
  rw [ends.1] at polling
  exact ⟨_, _, _, run, rfl, rfl, rfl, polling, rfl, grants, rfl, passes⟩

end World

end FairShare
