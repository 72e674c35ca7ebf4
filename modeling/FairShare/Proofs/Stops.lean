import FairShare.Proofs.Batches
import FairShare.Proofs.Withdrawals

/-!
# Stops in a row

A halt and a kill may come in any order and any number. The first halt takes the slots away, the
first kill halts and empties the queues, and every further one finds nothing left to do. So a kill
absorbs the halts around it, and what a row of stops leaves behind depends only on whether there is
a kill in it.
-/

namespace FairShare

/-! ## The counters -/

namespace LockState

variable (s : LockState)

theorem halt_halt : s.halt.halt = s.halt :=
  halt_of_halted (halted_halt s)

theorem kill_kill : s.kill.kill = s.kill :=
  kill_of_killed (killed_kill s)

variable {s}

/-- A halt after a kill changes nothing. -/
theorem halt_kill (stopped : s.killed = true → s.halted = true) : s.kill.halt = s.kill := by
  apply halt_of_halted
  cases killed : s.killed with
  | true =>
      rw [kill_of_killed killed]
      exact stopped killed
  | false => exact halted_kill killed

/-- The mark of a kill may be set before or after a halt. -/
theorem halt_mark (s : LockState) :
    ({ s with killed := true } : LockState).halt = { s.halt with killed := true } := by
  unfold halt
  split <;> rfl

/-- A kill after a halt leaves what it leaves without the halt. -/
theorem kill_halt (stopped : s.killed = true → s.halted = true) : s.halt.kill = s.kill := by
  cases killed : s.killed with
  | true => rw [halt_of_halted (stopped killed)]
  | false =>
      calc s.halt.kill
          = ({ s.halt with killed := true } : LockState).halt.drain :=
            kill_of_alive (s.killed_halt.trans killed)
        _ = ({ s with killed := true } : LockState).halt.halt.drain := by rw [halt_mark s]
        _ = ({ s with killed := true } : LockState).halt.drain := by rw [halt_halt]
        _ = s.kill := (kill_of_alive killed).symm

@[simp] theorem runners_halt : s.halt.runners = s.runners := by
  unfold runners
  rw [lanes_halt]

@[simp] theorem queues_halt : s.halt.queues = s.queues := by
  unfold queues
  rw [lanes_halt]

theorem waiting_halt (s : LockState) : s.halt.waiting = s.waiting := by
  unfold halt
  split <;> rfl

end LockState

/-- The two ways to stop a lock. -/
inductive Stop where
  | halt
  | kill
deriving DecidableEq, Repr

namespace Stop

/-- What the stop makes of the counters. -/
def apply : Stop → LockState → LockState
  | halt, s => s.halt
  | kill, s => s.kill

/-- What stops in a row make of the counters. -/
def applyAll (word : List Stop) (s : LockState) : LockState :=
  word.foldl (fun s stop => stop.apply s) s

/-- The call with which users make the stop. -/
def call : Stop → Call
  | halt => .halt
  | kill => .kill

variable {s : LockState}

/-- After a stop, as before, a killed lock is halted. -/
theorem stopped_apply (stopped : s.killed = true → s.halted = true) (stop : Stop) :
    (stop.apply s).killed = true → (stop.apply s).halted = true := by
  intro _
  cases stop with
  | halt => exact LockState.halted_halt s
  | kill =>
      change s.kill.halted = true
      rw [← LockState.halt_kill stopped]
      exact LockState.halted_halt _

/-- A row of stops leaves what one kill leaves if there is a kill in it, and what one halt leaves
otherwise. -/
theorem applyAll_eq (stopped : s.killed = true → s.halted = true) {word : List Stop}
    (some : word ≠ []) : applyAll word s = if kill ∈ word then s.kill else s.halt := by
  induction word generalizing s with
  | nil => exact absurd rfl some
  | cons stop rest ih =>
      by_cases last : rest = []
      · subst last
        cases stop <;> rfl
      · have after : applyAll (stop :: rest) s =
            if kill ∈ rest then (stop.apply s).kill else (stop.apply s).halt :=
          ih (stopped_apply stopped stop) last
        rw [after]
        cases stop with
        | halt =>
            change (if kill ∈ rest then s.halt.kill else s.halt.halt) = _
            rw [LockState.kill_halt stopped, LockState.halt_halt]
            simp
        | kill =>
            change (if kill ∈ rest then s.kill.kill else s.kill.halt) = _
            rw [LockState.kill_kill, LockState.halt_kill stopped]
            simp

end Stop

/-! ## The calls -/

section Calls
variable (x : Instance)

/-- A halt calls the grant loop. -/
theorem completes_halt :
    ∃ y, Completes x.halt.2 x.halt.1 y ∧ y.state = x.state.halt ∧ y.handles = x.handles := by
  refine ⟨_, completes_wakeLoop x.halt.1, ?_, ?_⟩ <;>
    cases halted : x.state.halted <;> simp [Instance.halt, halted, Instance.report]

/-- A kill calls the grant loop and lets the senders of the requests in the queues go. -/
theorem completes_kill :
    ∃ y, Completes x.kill.2 x.kill.1 y ∧ y.state = x.state.kill ∧ y.handles = x.handles := by
  cases killed : x.state.killed with
  | true =>
      have outcome : x.kill = (x, []) := by simp [Instance.kill, killed]
      rw [outcome]
      exact ⟨x, .done x, (LockState.kill_of_killed killed).symm, rfl⟩
  | false =>
      have outcome : x.kill = ({ x with
          state := x.state.kill
          log := x.log ++ [.killed x.state.waiters.length] },
          .task .wakeLoop :: Instance.closeAll x.state.waiters) := by
        simp [Instance.kill, killed, Instance.report]
      obtain ⟨channels, closes⟩ := completes_closeAll x.state.waiters { x with
        state := x.state.kill
        wake := { permit := true, waker := none }
        log := x.log ++ [.killed x.state.waiters.length] }
      rw [outcome]
      exact ⟨_, (completes_wakeLoop _).append closes, rfl, rfl⟩

end Calls

namespace World

variable {c : Config} {x : Instance} {ms : List Move} {w v : World}

/-- A stop is performed while there is a handle, and makes of the counters what it should. -/
theorem exists_performs_stop (turn : w.usersTurn = true) (handle : 0 < w.inst.handles)
    (stop : Stop) :
    ∃ v, w.Performs stop.call v ∧ v.inst.state = stop.apply w.inst.state ∧
      v.inst.handles = w.inst.handles := by
  cases stop with
  | halt =>
      obtain ⟨y, completes, state, handles⟩ := completes_halt w.inst
      exact ⟨_, ⟨turn, decide_eq_true handle, y, completes, rfl⟩, state, handles⟩
  | kill =>
      obtain ⟨y, completes, state, handles⟩ := completes_kill w.inst
      exact ⟨_, ⟨turn, decide_eq_true handle, y, completes, rfl⟩, state, handles⟩

/-- Stops are performed in a row while there is a handle, and make of the counters what they
should. -/
theorem exists_performsAll_stops (turn : w.usersTurn = true) (handle : 0 < w.inst.handles)
    (word : List Stop) :
    ∃ v, w.PerformsAll (word.map Stop.call) v ∧
      v.inst.state = Stop.applyAll word w.inst.state := by
  induction word generalizing w with
  | nil => exact ⟨w, .nil w, rfl⟩
  | cons stop rest ih =>
      obtain ⟨u, first, state, handles⟩ := exists_performs_stop turn handle stop
      obtain ⟨v, others, state'⟩ := ih first.usersTurn (handles ▸ handle)
      refine ⟨v, .cons first others, ?_⟩
      rw [state', state]
      rfl

/-- What a row of halts and kills leaves of the counters depends only on whether there is a kill in
it, whatever their number and order. So both may be called again without harm, and a kill makes the
halts around it superfluous. -/
theorem stops_absorb (fresh : Instance.create c = .ok x) (run : (start x).run? ms = some w)
    (turn : w.usersTurn = true) (handle : 0 < w.inst.handles) :
    ∃ h k, w.Performs .halt h ∧ w.Performs .kill k ∧
      (∀ word : List Stop, word ≠ [] →
        (∃ v, w.PerformsAll (word.map Stop.call) v) ∧
        ∀ v, w.PerformsAll (word.map Stop.call) v →
          v.inst.state = if Stop.kill ∈ word then k.inst.state else h.inst.state) ∧
      (w.inst.state.halted = true → h.inst.state = w.inst.state) ∧
      (w.inst.state.killed = true → k.inst.state = w.inst.state) ∧
      (h.inst.state.halted = true ∧ h.inst.state.slots = 0 ∧
        h.inst.state.free = -(h.inst.state.runners.sum : Int) ∧
        h.inst.state.runners = w.inst.state.runners ∧
        h.inst.state.nextTicket = w.inst.state.nextTicket ∧
        h.inst.state.queues = w.inst.state.queues ∧
        h.inst.state.waiting = w.inst.state.waiting) ∧
      (k.inst.state.killed = true ∧ k.inst.state.slots = 0 ∧
        k.inst.state.free = -(k.inst.state.runners.sum : Int) ∧
        k.inst.state.runners = w.inst.state.runners ∧
        k.inst.state.nextTicket = w.inst.state.nextTicket ∧
        k.inst.state.waiters = [] ∧ k.inst.state.waiting = 0) := by
  have stopped := halted_of_killed fresh run
  have balance := slotsBalance fresh run
  obtain ⟨h, halts, halted, -⟩ := exists_performs_stop turn handle .halt
  obtain ⟨k, kills, killed, -⟩ := exists_performs_stop turn handle .kill
  change h.inst.state = w.inst.state.halt at halted
  change k.inst.state = w.inst.state.kill at killed
  refine ⟨h, k, halts, kills, ?_, ?_, ?_, ?_, ?_⟩
  · intro word some
    obtain ⟨v, performs, state⟩ := exists_performsAll_stops turn handle word
    refine ⟨⟨v, performs⟩, fun v' performs' => ?_⟩
    rw [performs.unique performs', state, Stop.applyAll_eq stopped some, halted, killed]
  · intro before
    rw [halted, LockState.halt_of_halted before]
  · intro before
    rw [killed, LockState.kill_of_killed before]
  · rw [halted]
    have after := balance.halt
    have slots := after.stopped (LockState.halted_halt _)
    have free := after.balance
    exact ⟨LockState.halted_halt _, slots, by omega, LockState.runners_halt,
      LockState.nextTicket_halt _, LockState.queues_halt, LockState.waiting_halt _⟩
  · rw [killed]
    have after := balance.kill
    have account := (demandAccounts fresh run).kill
    have gone : w.inst.state.kill.killed = true := LockState.killed_kill _
    have slots := after.stopped (account.killed gone).1
    have free := after.balance
    exact ⟨gone, slots, by omega, LockState.runners_kill _, LockState.nextTicket_kill _,
      (account.killed gone).2, (account.of_killed gone).2.2.1⟩

/-- One lock is out, a request waits from before a halt and another from after it. More halts change
nothing, and a kill between them leaves what a kill leaves alone. -/
theorem stops_absorb_of_halted_lock :
    ∃ w v v' k, (start (.ofConfig { concurrency := 1, weights := [1, 1] })).run?
        [.call (.request 0), .callEnds, .call (.request 0), .callEnds, .call .halt, .work,
          .callEnds, .call (.request 1), .callEnds] = some w ∧
      w.inst.state.free = -1 ∧ w.inst.state.waiting = 2 ∧ w.inst.state.demand = 1 ∧
      w.PerformsAll [.halt, .halt] v ∧ v.inst.state = w.inst.state ∧
      w.PerformsAll [.halt, .kill, .halt] v' ∧ w.Performs .kill k ∧
      v'.inst.state = k.inst.state ∧ k.inst.state ≠ w.inst.state := by
  have run : (start (.ofConfig { concurrency := 1, weights := [1, 1] })).run?
      [.call (.request 0), .callEnds, .call (.request 0), .callEnds, .call .halt, .work,
        .callEnds, .call (.request 1), .callEnds] = some _ := rfl
  obtain ⟨h, k, -, kills, words, same, -, -, killed⟩ :=
    stops_absorb (c := { concurrency := 1, weights := [1, 1] }) rfl run rfl (by decide)
  obtain ⟨⟨v, halts⟩, left⟩ := words [.halt, .halt] (by simp)
  obtain ⟨⟨v', stops⟩, left'⟩ := words [.halt, .kill, .halt] (by simp)
  have state : v.inst.state = _ := (left v halts).trans (same rfl)
  refine ⟨_, v, v', k, run, rfl, rfl, rfl, halts, state, stops, kills, left' v' stops, ?_⟩
  intro unchanged
  have alive := killed.1
  rw [unchanged] at alive
  cases alive

end World

end FairShare
