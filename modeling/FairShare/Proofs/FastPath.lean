import FairShare.Proofs.Admissions
import FairShare.Proofs.Deliveries
import FairShare.Proofs.Starvation

/-!
# The way in without a queue

While nothing waits, a request is granted at once exactly if a slot is free. That it skips the queue
makes no difference. On the way through the queue the request brings its priority into the rota as
its only member, the pass finds it there, and with the request the priority leaves the rota again.
What remains are the slot that was taken and a ticket that was given out.
-/

namespace FairShare

namespace DemandAccounts

variable {weights : List Nat} {s : LockState} {p : Nat}

/-- While nothing waits, the queues are empty. -/
theorem queueAt_of_calm (h : DemandAccounts weights s) (calm : s.waiting = 0) (q : Nat) :
    s.queueAt q = [] := by
  have none : s.waiters = [] := List.length_eq_zero_iff.mp (h.waiting ▸ calm)
  have part := s.queueAt_sublist_waiters q
  rw [none] at part
  exact List.sublist_nil.mp part

/-- While nothing waits, no priority is in demand, and no round is on. -/
theorem spells_of_calm (h : DemandAccounts weights s) (calm : s.waiting = 0) :
    s.rota.Spells [] := by
  have nobody : s.rota.toList = [] := List.eq_nil_iff_forall_not_mem.mpr fun q member =>
    h.queued q member (h.queueAt_of_calm calm q)
  have spells := h.spells
  rwa [nobody] at spells

theorem turn_of_calm (h : DemandAccounts weights s) (calm : s.waiting = 0) :
    s.rota.turn = none :=
  Option.eq_none_iff_forall_ne_some.mpr fun q turn => by
    cases (h.spells_of_calm calm).turn q turn

/-- A request that queues where nothing waits has the turn, and can take a grant if it could have
been admitted at once. -/
theorem nextInTurn?_of_enqueue (h : DemandAccounts weights s) (calm : s.waiting = 0)
    (room : p < s.lanes.length) (fast : s.admitsAtOnce p = true) (c : Nat) :
    (s.enqueue p c).nextInTurn? = (some p, { s.enqueue p c with
      rota := { (s.enqueue p c).rota with turn := some p } }) := by
  have e := s.enqueue_eq p c
  have empty := h.queueAt_of_calm calm p
  have rota : (s.enqueue p c).rota = (s.raiseDemand p).rota := by rw [e]
  have raised := h.raised_of_idle room empty
  have member : (s.enqueue p c).rota.Spells [p] := by
    have spells := raised.1
    rwa [(h.spells_of_calm calm).toList_eq, List.nil_append, ← rota] at spells
  have unopened : (s.enqueue p c).rota.turn = none := by
    rw [rota]
    unfold LockState.raiseDemand Rota.enrol
    split
    · split <;> exact h.turn_of_calm calm
    · exact h.turn_of_calm calm
  have turn : (s.enqueue p c).rota.openRound.turn = some p := by
    rw [Rota.turn_openRound, unopened, member.first]
    rfl
  have able : (s.enqueue p c).canGrant p = true := by
    rw [LockState.canGrant_iff]
    constructor
    · rw [LockState.queueAt_enqueue c room p, if_pos rfl]
      simp
    · have runners : (s.enqueue p c).runnersAt p = s.runnersAt p := by
        rw [LockState.runnersAt_congr (s.runners_enqueue p c)]
      have weight : (s.enqueue p c).weightAt p = s.weightAt p := by
        rw [LockState.weightAt_congr (s.weights_enqueue p c)]
      have share : (s.enqueue p c).shareOf (s.weightAt p) =
          (s.addDemand p).shareOf (s.weightAt p) := by
        unfold LockState.shareOf
        rw [e]
        exact congrArg (share s.slots (s.weightAt p)) raised.2
      simp only [LockState.admitsAtOnce, Bool.and_eq_true, decide_eq_true_eq] at fast
      rw [runners, weight, share]
      exact fast.2
  rw [LockState.nextInTurn?_of_able turn able]
  have opened : (s.enqueue p c).rota.openRound =
      { (s.enqueue p c).rota with turn := some p } := by
    rw [← turn]
    unfold Rota.openRound
    split <;> rfl
  rw [opened]

/-- The way through the queue leaves what the way past it leaves, but for the ticket. -/
theorem grantFirst_of_enqueue (h : DemandAccounts weights s) (calm : s.waiting = 0)
    (room : p < s.lanes.length) (c : Nat) :
    ({ s.enqueue p c with
        rota := { (s.enqueue p c).rota with turn := some p } } : LockState).grantFirst? p =
      some (⟨s.nextTicket, c⟩, { s.takeSlot p with nextTicket := s.nextTicket + 1 }) := by
  have empty := h.queueAt_of_calm calm p
  have queue : ({ s.enqueue p c with
      rota := { (s.enqueue p c).rota with turn := some p } } : LockState).queueAt p =
      [⟨s.nextTicket, c⟩] := by
    have joined := LockState.queueAt_enqueue c room p
    rw [if_pos rfl, empty] at joined
    exact joined
  have own : ∀ j, some p = some j → j ∈ s.rota.toList ∨ j = p := fun j e =>
    .inr (Option.some.inj e).symm
  have undone := h.leaveQueue_enqueue room c own
  rw [empty, if_pos ⟨rfl, rfl⟩, ← h.turn_of_calm calm] at undone
  rw [LockState.grantFirst?_of_queue queue, undone]
  rfl

end DemandAccounts

namespace World

variable {c : Config} {x : Instance} {ms : List Move} {w : World} {p : Nat}

/-- While nothing waits, a request is admitted at once exactly if a slot is free. -/
theorem admitsAtOnce_iff_of_calm (fresh : Instance.create c = .ok x)
    (run : (start x).run? ms = some w) (running : w.inst.state.halted = false)
    (calm : w.inst.state.waiting = 0) (room : p < w.inst.state.lanes.length) :
    w.inst.state.admitsAtOnce p = true ↔ 0 < w.inst.state.free := by
  constructor
  · intro fast
    by_contra full
    cases (LockState.admitsAtOnce_of_full (Int.not_lt.mp full) p).symm.trans fast
  · have nothing := (demandAccounts fresh run).queueAt_of_calm calm
    exact admitsAtOnce_of_free fresh run running nothing room

/-- A request that takes the way through the queue while nothing waits and a slot is free calls for
the loop, and one pass of the poll that follows grants to it. -/
theorem completes_requestQueued (fresh : Instance.create c = .ok x)
    (run : (start x).run? ms = some w) (running : w.inst.state.halted = false)
    (calm : w.inst.state.waiting = 0) (room : p < w.inst.state.lanes.length)
    (free : 0 < w.inst.state.free) (k : Waker) :
    ∃ y z, Completes (w.inst.requestQueued p).2 (w.inst.requestQueued p).1 y ∧
      Completes ((Call.drive k).begin y).2 ((Call.drive k).begin y).1 z ∧
      z.loop.passes = w.inst.loop.passes + 1 ∧
      z.grants = w.inst.grants ++ [{ priority := p }] ∧
      z.HoldsGrant w.inst.requests.length w.inst.grants.length ∧
      z.state = { w.inst.state.takeSlot p with nextTicket := w.inst.state.nextTicket + 1 } := by
  have account := demandAccounts fresh run
  have fast := (admitsAtOnce_iff_of_calm fresh run running calm room).mpr free
  have e := w.inst.state.enqueue_eq p w.inst.channels.length
  have free' : 0 < (w.inst.state.enqueue p w.inst.channels.length).free := by
    rw [e]
    exact free
  have calls : (w.inst.requestQueued p).2 = [.task .wakeLoop] := by
    simp [Instance.requestQueued, Instance.wakeLoopIf, free']
  rw [calls]
  generalize made : (w.inst.requestQueued p).1 = y
  have owned : y.owners ≠ 0 := made ▸ owners_of_running fresh run running
  have state : y.state = w.inst.state.enqueue p w.inst.channels.length := made ▸ rfl
  have grants : y.grants = w.inst.grants := made ▸ rfl
  have passes : y.loop.passes = w.inst.loop.passes := made ▸ rfl
  have channel : y.channels[w.inst.channels.length]? = some Handoff.empty :=
    made ▸ List.getElem?_concat_length
  have here : y.requests[w.inst.requests.length]? = some
      { priority := p, progress := .queued w.inst.state.nextTicket w.inst.channels.length } :=
    made ▸ List.getElem?_concat_length
  have scan := account.nextInTurn?_of_enqueue calm room fast w.inst.channels.length
  have first := account.grantFirst_of_enqueue calm room w.inst.channels.length
  rw [← state] at scan first free'
  have serves := completes_drive (x := { y with wake := { permit := true, waker := none } }) k owned
    (by rw [state, e]; exact running) rfl free' (by rw [state, e]; exact Nat.succ_ne_zero _) scan
    first channel rfl running (.inr calm)
  refine ⟨_, _, completes_wakeLoop y, serves, congrArg (· + 1) passes, ?_, ?_, rfl⟩
  · exact congrArg (· ++ _) grants
  · exact .delivered here rfl (getElem?_set_of_some channel _) (congrArg some (by rw [grants]))

/-- The way past the queue agrees with the way through it: a request that finds nobody waiting comes
to the same grant and leaves the same counters on both, but for the ticket that the queue gives out.
So the way past the queue is an optimization and no policy of its own. -/
theorem fast_path_agrees (fresh : Instance.create c = .ok x) (run : (start x).run? ms = some w)
    (turn : w.usersTurn = true) (handle : 0 < w.inst.handles)
    (running : w.inst.state.halted = false) (calm : w.inst.state.waiting = 0)
    (room : p < w.inst.state.lanes.length) :
    ∃ v, w.step? (.call (.request p)) = some v ∧
      ((∃ g, v.inst.HoldsGrant w.inst.requests.length g) ↔ 0 < w.inst.state.free) ∧
      (0 < w.inst.state.free → v.inst.HoldsGrant w.inst.requests.length w.inst.grants.length ∧
        ∀ k, ∃ y z, Completes (w.inst.requestQueued p).2 (w.inst.requestQueued p).1 y ∧
          Completes ((Call.drive k).begin y).2 ((Call.drive k).begin y).1 z ∧
          z.loop.passes = w.inst.loop.passes + 1 ∧ z.grants = v.inst.grants ∧
          z.HoldsGrant w.inst.requests.length w.inst.grants.length ∧
          z.state = { v.inst.state with nextTicket := v.inst.state.nextTicket + 1 }) := by
  have alive := alive_of_running fresh run running
  have iff := admitsAtOnce_iff_of_calm fresh run running calm room
  have outcome : (w.begin (.request p)).inst = (w.inst.request p).1 := rfl
  refine ⟨w.begin (.request p), by simp [step?, turn, allows, handle], ?_⟩
  rw [outcome]
  cases fast : w.inst.state.admitsAtOnce p with
  | true =>
      have free := iff.mp fast
      rw [Instance.request_of_admitted room alive fast]
      have holds : Instance.HoldsGrant { w.inst with
          state := w.inst.state.takeSlot p
          owners := w.inst.owners + 1
          grants := w.inst.grants ++ [{ priority := p }]
          requests := w.inst.requests ++
            [{ priority := p, progress := .settled (some (.granted w.inst.grants.length)) }]
          log := w.inst.log ++
            [.admitted p (w.inst.state.takeSlot p).free ((w.inst.state.takeSlot p).runnersAt p)] }
          w.inst.requests.length w.inst.grants.length :=
        .settled List.getElem?_concat_length rfl
      exact ⟨⟨fun _ => free, fun _ => ⟨_, holds⟩⟩, fun _ => ⟨holds, fun k =>
        completes_requestQueued fresh run running calm room free k⟩⟩
  | false =>
      have full : ¬0 < w.inst.state.free := fun free => by cases fast.symm.trans (iff.mpr free)
      refine ⟨⟨?_, fun free => absurd free full⟩, fun free => absurd free full⟩
      rintro ⟨g, holds⟩
      -- the channel of a request that queues is empty
      have queued : w.inst.request p = w.inst.requestQueued p := by
        simp [Instance.request, Nat.not_le.mpr room, alive, fast]
      rw [queued] at holds
      cases holds with
      | settled here progress =>
          cases List.getElem?_concat_length.symm.trans here
          cases progress
      | delivered here progress channel full =>
          cases List.getElem?_concat_length.symm.trans here
          cases progress
          cases List.getElem?_concat_length.symm.trans channel
          cases full

/-- Two slots and two priorities, of which the first holds a slot. A request of the other priority
takes the free slot at once, and so it would through its queue. -/
theorem fast_path_agrees_of_one_holder :
    ∃ w v, (start (.ofConfig { concurrency := 2, weights := [1, 3] })).run?
        [.call (.request 0), .callEnds] = some w ∧
      w.usersTurn = true ∧ 0 < w.inst.handles ∧ w.inst.state.halted = false ∧
      w.inst.state.waiting = 0 ∧ 1 < w.inst.state.lanes.length ∧
      w.step? (.call (.request 1)) = some v ∧ v.inst.HoldsGrant 1 1 ∧
      ∃ y z, Completes (w.inst.requestQueued 1).2 (w.inst.requestQueued 1).1 y ∧
        Completes ((Call.drive .silent).begin y).2 ((Call.drive .silent).begin y).1 z ∧
        z.HoldsGrant 1 1 ∧
        z.state = { v.inst.state with nextTicket := v.inst.state.nextTicket + 1 } := by
  have run : (start (.ofConfig { concurrency := 2, weights := [1, 3] })).run?
      [.call (.request 0), .callEnds] = some _ := rfl
  obtain ⟨v, step, -, agrees⟩ := fast_path_agrees (c := { concurrency := 2, weights := [1, 3] })
    (p := 1) rfl run rfl (by decide) rfl rfl (by decide)
  obtain ⟨holds, through⟩ := agrees (by decide)
  obtain ⟨y, z, queues, polls, -, -, delivered, state⟩ := through .silent
  exact ⟨_, v, run, rfl, by decide, rfl, rfl, by decide, step, holds, y, z, queues, polls,
    delivered, state⟩

end World

end FairShare
