import FairShare.Proofs.Passes
import FairShare.Proofs.Queues
import FairShare.Proofs.Undisturbed

/-!
# Priorities that wait for ever

The turn stays with a priority that was granted to. When its lock comes back before the grant loop
runs again, the priority is below its share again and is granted to again. So as long as requests
wait at one priority, with the slots that remain for it given back one by one, every other priority
can be kept waiting for any number of grants.
-/

namespace FairShare

/-- The event reports a grant of the loop at the priority. -/
def Event.isLoopGrant (p : Nat) : Event → Bool
  | .granting q _ _ _ => decide (q = p)
  | _ => false

/-- The grants of the loop at the priority so far. -/
def Instance.loopGrantsAt (x : Instance) (p : Nat) : Nat :=
  x.log.countP (Event.isLoopGrant p)

/-- Of any `n` grants of the loop during which the lock is not halted and a request waits at a
priority throughout, one goes to that priority. -/
def ServedWithin (c : Config) (n : Nat) : Prop :=
  ∀ x ms w ms' w' p, Instance.create c = .ok x → (World.start x).run? ms = some w →
    w.run? ms' = some w' →
    (∀ ms₁ v, ms₁ <+: ms' → w.run? ms₁ = some v →
      v.inst.state.halted = false ∧ v.inst.state.queueAt p ≠ []) →
    w.inst.loop.grants + n ≤ w'.inst.loop.grants →
    w.inst.loopGrantsAt p < w'.inst.loopGrantsAt p

namespace LockState

variable {s : LockState} {q : Nat}

theorem grantFirst?_of_queue {e : Waiter} {rest : List Waiter} (queue : s.queueAt q = e :: rest) :
    s.grantFirst? q = some (e, (s.leaveQueue q rest).takeSlot q) := by
  simp only [grantFirst?, queue]

/-- The first of several requests at `q` was granted and its slot returned: it has left the queue,
and the turn is with `q`. -/
structure Served (q : Nat) (rest : List Waiter) (s s' : LockState) : Prop where
  queue : s'.queueAt q = rest
  others : ∀ p, p ≠ q → s'.queueAt p = s.queueAt p
  rota : s'.rota = s.rota.openRound
  runners : s'.runners = s.runners
  free : s'.free = s.free
  halted : s'.halted = s.halted
  waiting : s'.waiting = s.waiting - 1

/-- When it is the turn of a priority that can take a grant, its first request is granted. -/
theorem served_of_able {e : Waiter} {rest : List Waiter} (turn : s.rota.openRound.turn = some q)
    (able : s.canGrant q = true) (queue : s.queueAt q = e :: rest) (more : rest ≠ []) :
    ∃ s₁ s', s.nextInTurn? = (some q, s₁) ∧ s₁.grantFirst? q = some (e, s'.takeSlot q) ∧
      Served q rest s s' := by
  have queue₁ : ({ s with rota := s.rota.openRound } : LockState).queueAt q = e :: rest := queue
  refine ⟨_, _, nextInTurn?_of_able turn able, grantFirst?_of_queue queue₁, ?_⟩
  have leaves : Leaves q e { s with rota := s.rota.openRound } _ := ⟨[], rest, queue₁, rfl⟩
  obtain ⟨-, -, halted, free, -⟩ := leaves.frame
  have queues := queueAt_leaveQueue rest leaves.lt
  refine ⟨?_, ?_, (leaveQueue_of_others leaves.lt more).1, runners_leaveQueue _ q rest, free,
    halted, leaves.waiting_eq⟩
  · rw [queues, if_pos rfl]
  · intro p apart
    rw [queues, if_neg apart]
    rfl

end LockState

/-- With nothing but requests at `q` waiting, a first request at another priority leaves the turn
with `q`. -/
theorem DemandAccounts.turn_of_raiseDemand {weights : List Nat} {s : LockState} {p q : Nat}
    (account : DemandAccounts weights s) (running : s.halted = false) (room : p < s.lanes.length)
    (apart : p ≠ q) (others : ∀ j, j ≠ q → s.queueAt j = []) (waits : s.queueAt q ≠ []) :
    (s.raiseDemand p).rota.openRound.turn = some q := by
  obtain ⟨spells, -⟩ := account.raised_of_idle room (others p apart)
  have members : ∀ j ∈ s.rota.toList, j = q := by
    intro j member
    by_contra other
    exact account.queued j member (others j other)
  have first : (s.rota.toList ++ [p]).head? = some q := by
    have member := account.active running q waits
    cases ids : s.rota.toList with
    | nil =>
        rw [ids] at member
        cases member
    | cons j rest => exact congrArg some (members j (ids ▸ List.mem_cons_self))
  have turn : (s.raiseDemand p).rota.turn = s.rota.turn := by
    unfold LockState.raiseDemand Rota.enrol
    split
    · split <;> rfl
    · rfl
  rw [Rota.turn_openRound, turn, spells.first, first]
  cases old : s.rota.turn with
  | none => rfl
  | some t => exact congrArg some (members t (account.spells.turn t old))

/-! ## One round -/

namespace World

/-- One slot is free at rest, it is the turn of `q` with `k + 1` requests, all in the hands of their
callers, and the loop was called for. A request waits at `p` as well. -/
structure Flooded (p q k : Nat) (w : World) : Prop where
  idle : w.layers = []
  running : w.inst.state.halted = false
  loopHeld : w.inst.loop.dropped = false
  resting : w.inst.loop.polling = false
  permit : w.inst.wake.permit = true
  free : w.inst.state.free = 1
  runners : w.inst.state.runnersAt q = 0
  turn : w.inst.state.rota.openRound.turn = some q
  asked : ∀ e ∈ w.inst.state.queueAt q, ∃ (r : Nat) (ticket : UInt64),
    w.inst.requests[r]? = some { priority := q, progress := .queued ticket e.channel }
  length : (w.inst.state.queueAt q).length = k + 1
  waits : w.inst.state.queueAt p ≠ []

section Runs
variable {c : Config} {x : Instance} {ms : List Move} {w : World} {p q k : Nat}

/-- While the lock runs, a priority without locks that has a request waiting can take a grant. -/
theorem canGrant_of_runners (fresh : Instance.create c = .ok x)
    (run : (start x).run? ms = some w) (running : w.inst.state.halted = false)
    (slots : 0 < w.inst.state.slots) (runners : w.inst.state.runnersAt q = 0)
    (waits : w.inst.state.queueAt q ≠ []) : w.inst.state.canGrant q = true := by
  have account := demandAccounts fresh run
  have balance := slotsBalance fresh run
  have limit := (balance.running running).1
  have member := account.active running q waits
  have weight := weightAt_pos fresh run (LockState.lt_of_queueAt_ne_nil waits)
  have counted := account.weightAt_le ((account.spells.contains_iff q).mpr member)
  refine LockState.canGrant_iff.mpr ⟨waits, ?_⟩
  rw [runners, LockState.shareOf_eq slots (by omega) (by omega) counted]
  have share := le_mul_ceilDiv (w.inst.state.weightAt q * w.inst.state.slots.toNat)
    (Nat.lt_of_lt_of_le weight counted)
  apply Nat.pos_of_ne_zero
  intro none
  rw [none, Nat.mul_zero] at share
  have := Nat.mul_pos weight (show 0 < w.inst.state.slots.toNat by omega)
  omega

/-- When the request of the first entry changes, those of the others are still with their
callers. -/
theorem Flooded.asked_rest (flooded : Flooded p q k w) (fresh : Instance.create c = .ok x)
    (run : (start x).run? ms = some w) {e : Waiter} {rest : List Waiter} {r : Nat}
    {ticket : UInt64} (queue : w.inst.state.queueAt q = e :: rest)
    (here : w.inst.requests[r]? = some { priority := q, progress := .queued ticket e.channel })
    (changed : Request) : ∀ e' ∈ rest, ∃ (r' : Nat) (ticket' : UInt64),
      (w.inst.requests.set r changed)[r']? =
        some { priority := q, progress := .queued ticket' e'.channel } := by
  intro e' entry
  have sorted := (queueOrder fresh run).sorted q
  rw [queue] at sorted
  have channels := (List.pairwise_cons.mp sorted).1 e' entry
  obtain ⟨r', ticket', here'⟩ := flooded.asked e' (queue ▸ List.mem_cons_of_mem e entry)
  refine ⟨r', ticket', ?_⟩
  rw [List.getElem?_set_ne ?_, here']
  rintro rfl
  have same := Request.mk.inj (Option.some.inj (here.symm.trans here'))
  have same := (Progress.queued.inj same.2).2
  omega

/-- The loop grants to the priority in turn, the caller takes the lock and lets it go, and all is as
before with one request less. -/
theorem Flooded.round (flooded : Flooded p q (k + 1) w) (apart : p ≠ q)
    (fresh : Instance.create c = .ok x) (run : (start x).run? ms = some w) :
    ∃ w', Reaches w w' ∧ Flooded p q k w' ∧ w'.inst.loop.grants = w.inst.loop.grants + 1 ∧
      w'.inst.loopGrantsAt p = w.inst.loopGrantsAt p := by
  have account := demandAccounts fresh run
  have owned := owners_of_running fresh run flooded.running
  obtain ⟨e, rest, queue⟩ := List.exists_cons_of_length_eq_add_one flooded.length
  have more : rest.length = k + 1 := by
    have length := flooded.length
    rw [queue, List.length_cons] at length
    omega
  obtain ⟨r, ticket, here⟩ := flooded.asked e (queue ▸ List.mem_cons_self)
  obtain ⟨-, -, ch, channel, receiver⟩ :=
    (channelEnds fresh run).receiver_of_awaits (c := e.channel) here (by simp [Request.awaits])
  have waiting : k + 2 ≤ w.inst.state.waiting := by
    have part := (LockState.queueAt_sublist_waiters w.inst.state q).length_le
    rw [← account.waiting, flooded.length] at part
    exact part
  have free := flooded.free
  have balance := (slotsBalance fresh run).balance
  have able := canGrant_of_runners fresh run flooded.running (by omega) flooded.runners
    (by simp [queue])
  obtain ⟨s, s', scan, first, served⟩ := LockState.served_of_able flooded.turn able queue
    (List.ne_nil_of_length_eq_add_one more)
  have back := LockState.returnSlot_takeSlot s' q
  have left := served.waiting
  have full : (s'.takeSlot q).free ≤ 0 := by
    change s'.free - 1 ≤ 0
    rw [served.free]
    omega
  have driven := reaches_of_drive flooded.idle flooded.loopHeld flooded.resting owned
    flooded.running flooded.permit (by omega) (by omega) scan first channel receiver
    (served.halted.trans flooded.running) full
  have taken := driven.trans <|
    reaches_of_poll rfl here rfl (getElem?_set_of_some channel _) rfl
  have released := taken.trans <|
    reaches_of_dropLock rfl List.mem_cons_self List.getElem?_concat_length rfl rfl back (by omega)
      (by simpa using owned)
  refine ⟨_, released, ?_, rfl, ?_⟩
  · refine ⟨rfl, served.halted.trans flooded.running, flooded.loopHeld, rfl, rfl,
      served.free.trans free, ?_, ?_, ?_, ?_, ?_⟩
    · change s'.runnersAt q = 0
      rw [LockState.runnersAt_eq, served.runners, ← LockState.runnersAt_eq, flooded.runners]
    · change s'.rota.openRound.turn = some q
      rw [served.rota, Rota.turn_openRound, flooded.turn]
      rfl
    · intro e' entry
      exact flooded.asked_rest fresh run queue here _ e' (served.queue ▸ entry)
    · exact served.queue ▸ more
    · change s'.queueAt p ≠ []
      rw [served.others p apart]
      exact flooded.waits
  · simp [Instance.loopGrantsAt, Event.isLoopGrant, apart.symm]

/-! ## The way there -/

/-- At rest `k` requests wait at `q`, all in the hands of their callers, and none elsewhere, and all
grants are at `p`. -/
structure Prepared (p q k : Nat) (w : World) : Prop where
  idle : w.layers = []
  running : w.inst.state.halted = false
  handle : 0 < w.inst.handles
  loopHeld : w.inst.loop.dropped = false
  resting : w.inst.loop.polling = false
  own : ∀ grant ∈ w.inst.grants, grant.priority = p
  others : ∀ j, j ≠ q → w.inst.state.queueAt j = []
  asked : ∀ e ∈ w.inst.state.queueAt q, ∃ (r : Nat) (ticket : UInt64),
    w.inst.requests[r]? = some { priority := q, progress := .queued ticket e.channel }
  length : (w.inst.state.queueAt q).length = k

/-- A request holds a grant at the priority since it was made. -/
def Seated (p : Nat) (x : Instance) : Prop :=
  ∃ r g : Nat, x.requests[r]? = some { priority := p, progress := .settled (some (.granted g)) } ∧
    x.grants[g]? = some { priority := p }

/-- While nothing waits, a request is granted at once as long as a slot is free: alone in demand,
its priority may have all of them. -/
theorem admitsAtOnce_of_free (fresh : Instance.create c = .ok x)
    (run : (start x).run? ms = some w) (running : w.inst.state.halted = false)
    (nothing : ∀ j, w.inst.state.queueAt j = []) (room : p < w.inst.state.lanes.length)
    (free : 0 < w.inst.state.free) : w.inst.state.admitsAtOnce p = true := by
  have account := demandAccounts fresh run
  have balance := slotsBalance fresh run
  obtain ⟨limit, -⟩ := balance.running running
  have total := balance.balance
  have weight := weightAt_pos fresh run room
  have members : w.inst.state.rota.toList = [] :=
    List.eq_nil_iff_forall_not_mem.mpr fun j member => account.queued j member (nothing j)
  have demand : (w.inst.state.addDemand p).demand = w.inst.state.weightAt p := by
    have none := account.demand
    rw [members] at none
    exact (congrArg (· + w.inst.state.weightAt p) none).trans (Nat.zero_add _)
  have slots : 0 < w.inst.state.slots := by omega
  have few : w.inst.state.slots ≤ LockState.slotLimit := by omega
  have share := LockState.shareOf_eq (s := w.inst.state.addDemand p) slots few (by omega)
    (Nat.le_of_eq demand.symm)
  have cover := Nat.le_of_mul_le_mul_left
    (le_mul_ceilDiv (w.inst.state.weightAt p * w.inst.state.slots.toNat) weight) weight
  have held : ([p].map w.inst.state.runnersAt).sum ≤ _ :=
    LockState.sum_runnersAt_le (by simp) (by simpa using room)
  simp only [LockState.admitsAtOnce, nothing p, List.isEmpty_nil, Bool.true_and, Bool.and_eq_true,
    decide_eq_true_eq]
  refine ⟨free, ?_⟩
  rw [share, demand]
  change w.inst.state.runnersAt p < ceilDiv (w.inst.state.weightAt p * w.inst.state.slots.toNat) _
  simp only [List.map_cons, List.map_nil, List.sum_cons, List.sum_nil] at held
  omega

/-- While nothing waits, a request at `p` takes a slot. -/
theorem Prepared.admit (prepared : Prepared p q 0 w) (fresh : Instance.create c = .ok x)
    (run : (start x).run? ms = some w) (room : p < c.weights.length)
    (free : 0 < w.inst.state.free) :
    ∃ w', Leads w w' ∧ Prepared p q 0 w' ∧
      w'.inst.state.free = w.inst.state.free - 1 ∧ Seated p w'.inst := by
  rw [← length_lanes fresh run] at room
  have nothing : ∀ j, w.inst.state.queueAt j = [] := by
    intro j
    by_cases same : j = q
    · exact same ▸ List.length_eq_zero_iff.mp prepared.length
    · exact prepared.others j same
  have fast := admitsAtOnce_of_free fresh run prepared.running nothing room free
  have leads := Leads.of_completes (c := .request p) prepared.idle
    (by simp [allows, prepared.handle])
    (Instance.request_of_admitted room (alive_of_running fresh run prepared.running) fast) (.done _)
  refine ⟨_, leads, ?_, rfl, _, _, List.getElem?_concat_length, List.getElem?_concat_length⟩
  refine ⟨rfl, prepared.running, prepared.handle, prepared.loopHeld, prepared.resting, ?_, ?_, ?_,
    ?_⟩
  · intro grant member
    rcases List.mem_append.mp member with old | new
    · exact prepared.own grant old
    · rw [List.mem_singleton.mp new]
  · intro j other
    exact (w.inst.state.queueAt_takeSlot p j).trans (prepared.others j other)
  · intro e entry
    obtain ⟨r, ticket, here⟩ := prepared.asked e (w.inst.state.queueAt_takeSlot p q ▸ entry)
    exact ⟨r, ticket, getElem?_append_of_some here _⟩
  · exact (congrArg List.length (w.inst.state.queueAt_takeSlot p q)).trans prepared.length

/-- While no slot is free, a request at `q` waits. -/
theorem Prepared.flood (prepared : Prepared p q k w) (fresh : Instance.create c = .ok x)
    (run : (start x).run? ms = some w) (room : q < c.weights.length)
    (full : w.inst.state.free = 0) (seated : Seated p w.inst) :
    ∃ w', Leads w w' ∧ Prepared p q (k + 1) w' ∧ w'.inst.state.free = 0 ∧
      Seated p w'.inst := by
  rw [← length_lanes fresh run] at room
  have leads := Leads.of_completes (c := .request q) prepared.idle
    (by simp [allows, prepared.handle])
    (Instance.request_of_full room (alive_of_running fresh run prepared.running) full.le) (.done _)
  have queues := LockState.queueAt_enqueue w.inst.channels.length room
  have frame := w.inst.state.enqueue_eq q w.inst.channels.length
  refine ⟨_, leads, ?_, ?_, ?_⟩
  · refine ⟨rfl, ?_, prepared.handle, prepared.loopHeld, prepared.resting, prepared.own, ?_, ?_, ?_⟩
    · exact (congrArg LockState.halted frame).trans prepared.running
    · intro j other
      exact ((queues j).trans (if_neg other)).trans (prepared.others j other)
    · intro e entry
      have entry := ((queues q).trans (if_pos rfl)) ▸ entry
      rcases List.mem_append.mp entry with old | new
      · obtain ⟨r, ticket, here⟩ := prepared.asked e old
        exact ⟨r, ticket, getElem?_append_of_some here _⟩
      · rw [List.mem_singleton.mp new]
        exact ⟨_, _, List.getElem?_concat_length⟩
    · have length := congrArg List.length ((queues q).trans (if_pos rfl))
      rw [List.length_append, prepared.length] at length
      exact length
  · exact (congrArg LockState.free frame).trans full
  · obtain ⟨r, g, here, there⟩ := seated
    exact ⟨r, g, getElem?_append_of_some here _, there⟩

/-- A handle and a lock that is still with its request are two owners. -/
theorem others_of_seated (fresh : Instance.create c = .ok x) (run : (start x).run? ms = some w)
    (handle : 0 < w.inst.handles) (seated : Seated p w.inst) : w.inst.owners - 1 ≠ 0 := by
  obtain ⟨r, g, -, there⟩ := seated
  have owners := ownerCount fresh run
  have counted : 0 < w.inst.grants.countP Grant.isOwner :=
    List.countP_pos_iff.mpr ⟨_, List.mem_of_getElem? there, rfl⟩
  unfold OwnerCount at owners
  omega

/-- With a request at `p` behind those at `q`, a slot that comes back is for the loop to grant. -/
theorem Prepared.flooded (prepared : Prepared p q (k + 1) w) (fresh : Instance.create c = .ok x)
    (run : (start x).run? ms = some w) (apart : p ≠ q) (room : p < c.weights.length)
    (full : w.inst.state.free = 0) (seated : Seated p w.inst) :
    ∃ w', Leads w w' ∧ Flooded p q k w' := by
  rw [← length_lanes fresh run] at room
  have others := others_of_seated fresh run prepared.handle seated
  obtain ⟨r, g, here, there⟩ := seated
  have waits : w.inst.state.queueAt q ≠ [] := List.ne_nil_of_length_eq_add_one prepared.length
  have turn := (demandAccounts fresh run).turn_of_raiseDemand prepared.running room apart
    prepared.others waits
  have none : w.inst.state.runnersAt q = 0 := by
    rw [(slotsBalance fresh run).runners, List.countP_eq_zero]
    intro grant member
    simp [Grant.countsAt, prepared.own grant member, apart]
  have queues := LockState.queueAt_enqueue w.inst.channels.length room
  have frame := w.inst.state.enqueue_eq p w.inst.channels.length
  have runners := w.inst.state.runners_enqueue p w.inst.channels.length
  have leads := Leads.of_completes (c := .request p) prepared.idle
    (by simp [allows, prepared.handle])
    (Instance.request_of_full room (alive_of_running fresh run prepared.running) full.le) (.done _)
  generalize w.inst.state.enqueue p w.inst.channels.length = s at queues frame runners leads
  have waiting : 0 < (s.returnSlot p).waiting := by
    rw [frame]
    exact Nat.succ_pos _
  have released := leads.trans <| Reaches.leads <|
    reaches_of_dropRequest rfl (getElem?_append_of_some here _) rfl there rfl rfl rfl waiting others
  refine ⟨_, released, ?_⟩
  refine ⟨rfl, ?_, prepared.loopHeld, prepared.resting, rfl, ?_, ?_, ?_, ?_, ?_, ?_⟩
  · exact (congrArg LockState.halted frame).trans prepared.running
  · change s.free + 1 = 1
    rw [frame]
    exact congrArg (· + 1) full
  · change (s.returnSlot p).runnersAt q = 0
    rw [LockState.runnersAt_eq, LockState.runners_returnSlot, List.getElem?_modify_ne _ _ apart,
      runners, ← LockState.runnersAt_eq, none]
  · exact (congrArg (fun s : LockState => s.rota.openRound.turn) frame).trans turn
  · intro e entry
    have entry := ((s.queueAt_returnSlot p q).trans ((queues q).trans (if_neg apart.symm))) ▸ entry
    obtain ⟨r', ticket, here'⟩ := prepared.asked e entry
    refine ⟨r', ticket, ?_⟩
    have other : r ≠ r' := by
      rintro rfl
      cases here.symm.trans here'
    exact (List.getElem?_set_ne other).trans (getElem?_append_of_some here' _)
  · change ((s.returnSlot p).queueAt q).length = k + 1
    rw [LockState.queueAt_returnSlot, queues, if_neg apart.symm, prepared.length]
  · change (s.returnSlot p).queueAt p ≠ []
    rw [LockState.queueAt_returnSlot, queues, if_pos rfl]
    exact List.append_ne_nil_of_right_ne_nil _ (List.cons_ne_nil _ _)

/-- Nothing has happened to a fresh lock. -/
theorem prepared_start (fresh : Instance.create c = .ok x) (p q : Nat) :
    Prepared p q 0 (start x) ∧ ∃ free : Nat, x.state.free = free + 1 := by
  obtain ⟨concurrency, -, -⟩ := c.fault?_eq_none_iff.mp (fault?_of_create fresh)
  rw [eq_ofConfig_of_create fresh]
  refine ⟨⟨rfl, rfl, Nat.one_pos, rfl, rfl, ?_, ?_, ?_, ?_⟩, ?_⟩
  · intro grant none
    cases none
  · intro j _
    exact LockState.queueAt_ofConfig c j
  · intro e entry
    cases LockState.queueAt_ofConfig c q ▸ entry
  · exact congrArg List.length (LockState.queueAt_ofConfig c q)
  · have pos : c.concurrency.toNat ≠ 0 := fun zero => concurrency (UInt64.toNat_inj.mp zero)
    refine ⟨min c.concurrency.toNat LockState.slotLimit - 1, ?_⟩
    change min (c.concurrency.toNat : Int) LockState.slotLimit = _
    unfold LockState.slotLimit
    omega

/-- Requests at `p` can take all slots. -/
theorem exists_full (fresh : Instance.create c = .ok x) (room : p < c.weights.length) (q : Nat) :
    ∃ ms w, (start x).run? ms = some w ∧ Prepared p q 0 w ∧ w.inst.state.free = 0 ∧
      Seated p w.inst := by
  have fill : ∀ (free : Nat) ms w, (start x).run? ms = some w → Prepared p q 0 w →
      w.inst.state.free = free + 1 → ∃ ms w, (start x).run? ms = some w ∧ Prepared p q 0 w ∧
        w.inst.state.free = 0 ∧ Seated p w.inst := by
    intro free
    induction free with
    | zero =>
        intro ms w run prepared one
        obtain ⟨w', ⟨ms', run'⟩, prepared', less, seated⟩ :=
          prepared.admit fresh run room (by omega)
        exact ⟨_, w', run?_trans run run', prepared', by omega, seated⟩
    | succ free ih =>
        intro ms w run prepared more
        obtain ⟨w', ⟨ms', run'⟩, prepared', less, -⟩ := prepared.admit fresh run room (by omega)
        exact ih _ w' (run?_trans run run') prepared' (by omega)
  obtain ⟨prepared, free, slots⟩ := prepared_start fresh p q
  exact fill free [] (start x) rfl prepared slots

/-- Any number of requests at `q` can wait for the loop with one at `p`. -/
theorem exists_flooded (fresh : Instance.create c = .ok x) (apart : p ≠ q)
    (hp : p < c.weights.length) (hq : q < c.weights.length) (k : Nat) :
    ∃ ms w, (start x).run? ms = some w ∧ Flooded p q k w := by
  have crowd : ∀ k, ∃ ms w, (start x).run? ms = some w ∧ Prepared p q k w ∧
      w.inst.state.free = 0 ∧ Seated p w.inst := by
    intro k
    induction k with
    | zero => exact exists_full fresh hp q
    | succ k ih =>
        obtain ⟨ms, w, run, prepared, full, seated⟩ := ih
        obtain ⟨w', ⟨ms', run'⟩, more⟩ := prepared.flood fresh run hq full seated
        exact ⟨_, w', run?_trans run run', more⟩
  obtain ⟨ms, w, run, prepared, full, seated⟩ := crowd (k + 1)
  obtain ⟨w', ⟨ms', run'⟩, flooded⟩ := prepared.flooded fresh run apart hp full seated
  exact ⟨_, w', run?_trans run run', flooded⟩

/-- Round after round, the loop makes any number of grants and none of them at `p`. -/
theorem Flooded.rounds (n : Nat) (flooded : Flooded p q (k + n) w) (apart : p ≠ q)
    (fresh : Instance.create c = .ok x) (run : (start x).run? ms = some w) :
    ∃ w', Reaches w w' ∧ Flooded p q k w' ∧ w'.inst.loop.grants = w.inst.loop.grants + n ∧
      w'.inst.loopGrantsAt p = w.inst.loopGrantsAt p := by
  induction n generalizing w ms with
  | zero => exact ⟨w, .refl w, flooded, rfl, rfl⟩
  | succ n ih =>
      obtain ⟨v, reaches, flooded', grants, none⟩ := flooded.round apart fresh run
      obtain ⟨ms', run'⟩ := reaches.leads
      obtain ⟨w', reaches', flooded'', grants', none'⟩ := ih flooded' (run?_trans run run')
      refine ⟨w', reaches.trans reaches', flooded'', ?_, none'.trans none⟩
      rw [grants', grants]
      omega

/-! ## Stretches -/

/-- Without requests, queues lose entries at most. -/
theorem queueAt_sublist_of_run? {v : World} (run : w.run? ms = some v)
    (none : ∀ j, .call (.request j) ∉ ms) (p : Nat) :
    (v.inst.state.queueAt p).Sublist (w.inst.state.queueAt p) := by
  refine run?_induction (P := fun ms v => (∀ j, .call (.request j) ∉ ms) →
    (v.inst.state.queueAt p).Sublist (w.inst.state.queueAt p)) (fun _ => .refl _) ?_ run none
  intro ms u m v _ past hstep none
  obtain ⟨rest, a, -, -, effect⟩ := step?_effect hstep
  have before := past fun j made => none j (List.mem_append_left _ made)
  rcases effect.queue_step with shrinks | ⟨j, request, -⟩
  · exact (shrinks.queues p).trans before
  · exact absurd (mem_of_sectionOf request) (none j)

/-- A request that waits at the end of a run without requests has waited throughout, and a lock that
is not halted at the end was not halted before. -/
theorem throughout_of_run? {w' : World} {ms' : List Move} (run' : w.run? ms' = some w')
    (none : ∀ j, .call (.request j) ∉ ms') (running : w'.inst.state.halted = false)
    (waits : w'.inst.state.queueAt p ≠ []) {ms₁ : List Move} {v : World} (sub : ms₁ <+: ms')
    (run₁ : w.run? ms₁ = some v) :
    v.inst.state.halted = false ∧ v.inst.state.queueAt p ≠ [] := by
  obtain ⟨ms₂, rfl⟩ := sub
  rw [run?_append, run₁] at run'
  have run₂ : v.run? ms₂ = some w' := run'
  constructor
  · by_contra halted
    cases running.symm.trans (halted_of_run? run₂ (by simpa using halted))
  · intro nothing
    have none₂ : ∀ j, .call (.request j) ∉ ms₂ :=
      fun j made => none j (List.mem_append_right _ made)
    have part := queueAt_sublist_of_run? run₂ none₂ p
    rw [nothing] at part
    exact waits (List.sublist_nil.mp part)

/-- Every priority can be kept waiting by every other one: for any number of grants, the loop makes
them all elsewhere while a request waits at `p` throughout and the lock is not halted. -/
theorem starves (fresh : Instance.create c = .ok x) (apart : p ≠ q) (hp : p < c.weights.length)
    (hq : q < c.weights.length) (n : Nat) :
    ∃ ms w ms' w', (start x).run? ms = some w ∧ w.run? ms' = some w' ∧
      (∀ ms₁ v, ms₁ <+: ms' → w.run? ms₁ = some v →
        v.inst.state.halted = false ∧ v.inst.state.queueAt p ≠ []) ∧
      w'.inst.loop.grants = w.inst.loop.grants + n ∧
      w'.inst.loopGrantsAt p = w.inst.loopGrantsAt p := by
  obtain ⟨ms, w, run, flooded⟩ := exists_flooded fresh apart hp hq (0 + n)
  obtain ⟨w', ⟨ms', run', none⟩, flooded', grants, same⟩ := flooded.rounds n apart fresh run
  refine ⟨ms, w, ms', w', run, run', ?_, grants, same⟩
  intro ms₁ v sub run₁
  exact throughout_of_run? run' none flooded'.running flooded'.waits sub run₁

end Runs

end World

/-! ## One priority -/

/-- The log reports the grants of the loop. -/
theorem Effect.loopGrants {x x' : Instance} {L L' : List Nat} {sec : Section} {a : Agenda Task}
    (effect : Effect x L sec x' a L') :
    (x'.loop.grants = x.loop.grants ∧ ∀ p, x'.loopGrantsAt p = x.loopGrantsAt p) ∨
    ∃ q, x.state.queueAt q ≠ [] ∧ x'.loop.grants = x.loop.grants + 1 ∧
      ∀ p, x'.loopGrantsAt p = x.loopGrantsAt p + if q = p then 1 else 0 := by
  cases effect with
  | grantLost _ _ _ scan first | grantReturned _ _ _ scan first | grant _ _ _ scan first =>
      right
      obtain ⟨rest, queue, -⟩ := LockState.queue_of_first scan first
      refine ⟨_, ne_of_eq_of_ne queue (List.cons_ne_nil _ _), rfl, fun p => ?_⟩
      simp [Instance.loopGrantsAt, Event.isLoopGrant, List.countP_singleton]
  | halt =>
      left
      refine ⟨rfl, fun p => ?_⟩
      simp only [Instance.loopGrantsAt, List.countP_append]
      split <;> simp [Event.isLoopGrant]
  | letGoMissing lets | letGoClone lets | letGoLast lets =>
      left
      refine ⟨rfl, fun p => ?_⟩
      cases lets <;> simp [Instance.loopGrantsAt, Event.isLoopGrant]
  | _ =>
      left
      exact ⟨rfl, fun p => by simp [Instance.loopGrantsAt, Event.isLoopGrant]⟩

namespace World

variable {c : Config} {x : Instance} {ms : List Move} {w : World}

/-- With one priority, all grants of the loop are at that priority. -/
theorem loopGrants_of_one (one : c.weights.length = 1) (fresh : Instance.create c = .ok x)
    (run : (start x).run? ms = some w) : w.inst.loop.grants = w.inst.loopGrantsAt 0 := by
  refine run?_induction (P := fun _ v => v.inst.loop.grants = v.inst.loopGrantsAt 0) ?_ ?_ run
  · rw [eq_ofConfig_of_create fresh]
    rfl
  · intro ms v m v' hv same hstep
    obtain ⟨rest, a, -, -, effect⟩ := step?_effect hstep
    rcases effect.loopGrants with ⟨grants, counts⟩ | ⟨q, waits, grants, counts⟩
    · rw [grants, counts, same]
    · have room := LockState.lt_of_queueAt_ne_nil waits
      rw [length_lanes fresh hv, one, Nat.lt_one_iff] at room
      rw [grants, counts, if_pos room, same]

/-- Priorities are sure to be served exactly if there is only one. A lock with more than one gives
no bound: as long as requests wait at one priority, with its locks let go before the loop runs
again, the turn stays there, and a request at another priority waits for any number of grants. -/
theorem servedWithin_iff (sound : c.fault? = none) :
    (∃ n, ServedWithin c n) ↔ c.weights.length = 1 := by
  have fresh : Instance.create c = .ok (.ofConfig c) := by
    simp [Instance.create, Config.check, sound]
  obtain ⟨-, some, -⟩ := c.fault?_eq_none_iff.mp sound
  have pos := List.length_pos_iff.mpr some
  constructor
  · rintro ⟨n, served⟩
    by_contra more
    obtain ⟨ms, w, ms', w', run, run', waits, grants, none⟩ :=
      starves fresh (p := 1) (q := 0) (by omega) (by omega) (by omega) n
    have some := served _ ms w ms' w' 1 fresh run run' waits (by omega)
    omega
  · intro one
    refine ⟨1, ?_⟩
    intro x ms w ms' w' p fresh run run' waits grants
    have here := (waits [] w (List.nil_prefix) rfl).2
    have room := LockState.lt_of_queueAt_ne_nil here
    rw [length_lanes fresh run, one, Nat.lt_one_iff] at room
    subst room
    rw [← loopGrants_of_one one fresh run, ← loopGrants_of_one one fresh (run?_trans run run')]
    exact grants

/-- With one slot and two priorities of equal weight no priority is sure to be served. -/
theorem servedWithin_iff_of_equal_weights :
    ({ concurrency := 1, weights := [1, 1] } : Config).fault? = none ∧
      ¬∃ n, ServedWithin { concurrency := 1, weights := [1, 1] } n := by
  refine ⟨by decide, fun served => ?_⟩
  have only := servedWithin_iff (c := { concurrency := 1, weights := [1, 1] }) (by decide)
  exact absurd (only.mp served) (by decide)

end World

end FairShare
