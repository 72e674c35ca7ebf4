import FairShare.Proofs.Closings

/-!
# What a kill does

A kill fails the requests that wait and leaves everything else: a grant that was made stays with
its request, and a lock that is out stays out and counted until it is given back. The senders of
the failed requests go one by one, with wakers called in between; whatever those do, the outcome is
the same when the kill returns. Nothing is granted or queued after it.
-/

namespace FairShare

namespace Instance

/-- The request awaits its verdict on the channel, and no grant was sent there. -/
def Ungranted (x : Instance) (r c : Nat) : Prop :=
  ∃ q ticket ch, x.requests[r]? = some q ∧ q.progress = .queued ticket c ∧
    x.channels[c]? = some ch ∧ ch.value = none

/-- A poll of a request without a grant answers that it has failed, once its sender is gone. -/
theorem Ungranted.poll {x : Instance} {r c : Nat} (h : x.Ungranted r c) (waker : Waker) :
    (x.poll r waker).1 =
      .ok (if goneAt Handoff.senderGone x.channels c then some .killed else none) := by
  obtain ⟨q, ticket, ch, here, progress, channel, empty⟩ := h
  rw [goneAt_of_getElem? channel]
  cases gone : ch.senderGone <;>
    simp [Instance.poll, here, progress, pollQueued, channel, Handoff.poll, empty, gone]

/-- A killed instance refuses every request at once. -/
theorem request_of_killed {x : Instance} {p : Nat} (killed : x.state.killed = true)
    (room : p < x.state.lanes.length) :
    x.request p = ((x.report (.refused p)).addRequest p (.settled (some .killed)), []) := by
  unfold request
  rw [if_neg (Nat.not_le.mpr room), if_pos killed]
  rfl

end Instance

section Effects
variable {x x' : Instance} {L L' : List Nat} {sec : Section} {a : Agenda Task}

/-- Nothing is granted after a kill. -/
theorem Effect.length_grants_of_killed (effect : Effect x L sec x' a L')
    (killed : x.state.killed = true) (halted : x.state.halted = true) :
    x'.grants.length = x.grants.length := by
  cases effect with
  | grantAtOnce _ _ alive => cases killed.symm.trans alive
  | grantLost running | grantReturned running | grant running => cases halted.symm.trans running
  | release | cloneLock | letGoClone | letGoLast => exact List.length_set
  | _ => rfl

/-- A request that awaits its verdict does so until it is spent. -/
theorem Effect.queued_or_spent (effect : Effect x L sec x' a L') {r c : Nat} {q : Request}
    {ticket : UInt64} (here : x.requests[r]? = some q) (queued : q.progress = .queued ticket c) :
    x'.requests[r]? = some q ∨ x'.Spent r := by
  have replaced : ∀ {k : Nat} {q' : Request}, x'.requests = x.requests.set k q' →
      (k = r → q'.progress = .finished ∨ q'.progress = .dropped) →
      x'.requests[r]? = some q ∨ x'.Spent r := by
    intro k q' e done
    unfold Instance.Spent
    rw [e]
    by_cases same : k = r
    · subst same
      exact .inr ⟨q', getElem?_set_of_some here q', .inr (done rfl)⟩
    · exact .inl ((List.getElem?_set_ne same).trans here)
  cases effect with
  | refuse | grantAtOnce | queue => exact .inl (getElem?_append_of_some here _)
  | takeVerdict there settled =>
      refine replaced rfl ?_
      rintro rfl
      cases here.symm.trans there
      cases queued.symm.trans settled
  | receive | fail => exact replaced rfl fun _ => .inl rfl
  | dropGranted | dropDone | dropUnqueued | withdraw => exact replaced rfl fun _ => .inr rfl
  | _ => exact .inl here

/-- Nothing is sent on a channel after a halt. -/
theorem Effect.unsent_of_halted (effect : Effect x L sec x' a L')
    (halted : x.state.halted = true) {c : Nat} {ch : Handoff Nat}
    (channel : x.channels[c]? = some ch) (empty : ch.value = none) :
    ∃ ch', x'.channels[c]? = some ch' ∧ ch'.value = none := by
  cases effect with
  | queue => exact ⟨ch, getElem?_append_of_some channel _, empty⟩
  | receive | fail | dropReceiver => exact exists_getElem?_set channel empty fun _ => rfl
  | wait _ _ _ empty' | closeEmpty _ empty' =>
      exact exists_getElem?_set channel empty fun _ => empty'
  | closeFull there =>
      refine exists_getElem?_set channel empty ?_
      rintro rfl
      cases there.symm.trans channel
      exact empty
  | grant running => cases halted.symm.trans running
  | _ => exact ⟨ch, channel, empty⟩

/-- A request without a grant gets none after a halt. -/
theorem Effect.ungranted_of_halted (effect : Effect x L sec x' a L')
    (halted : x.state.halted = true) {r c : Nat} (h : x.Ungranted r c) :
    x'.Ungranted r c ∨ x'.Spent r := by
  obtain ⟨q, ticket, ch, here, queued, channel, empty⟩ := h
  rcases effect.queued_or_spent here queued with there | spent
  · obtain ⟨ch', channel', empty'⟩ := effect.unsent_of_halted halted channel empty
    exact .inl ⟨q, ticket, ch', there, queued, channel', empty'⟩
  · exact .inr spent

/-- A sender that is gone does not come back. -/
theorem Effect.sender_gone (effect : Effect x L sec x' a L') {c : Nat} {ch : Handoff Nat}
    (channel : x.channels[c]? = some ch) (gone : ch.senderGone = true) :
    ∃ ch', x'.channels[c]? = some ch' ∧ ch'.senderGone = true := by
  cases effect with
  | queue => exact ⟨ch, getElem?_append_of_some channel _, gone⟩
  | closeFull | closeEmpty => exact exists_getElem?_set channel gone fun _ => rfl
  | wait _ _ there | receive _ _ there | fail _ _ there | dropReceiver there
  | grant _ _ _ _ _ there =>
      refine exists_getElem?_set channel gone ?_
      rintro rfl
      cases channel.symm.trans there
      exact gone
  | _ => exact ⟨ch, channel, gone⟩

end Effects

namespace World

/-- A user begins a call only in turn. -/
theorem step?_call {w w' : World} {c : Call} (h : w.step? (.call c) = some w') :
    w.usersTurn = true ∧ w' = w.begin c := by
  rcases step?_cases h with ⟨c', e, turn, -, rfl⟩ | ⟨_, _, _, _, _, e, -⟩ | ⟨_, _, _, _, _, e, -⟩ |
    ⟨_, _, e, -⟩ | ⟨_, _, _, e, -⟩
  · cases e
    exact ⟨turn, rfl⟩
  all_goals cases e

/-- The call of kill that finds the lock alive kills it, and touches no grant and no request. -/
theorem kill_begin {w w₁ : World} (hkill : w.step? (.call .kill) = some w₁)
    (alive : w.inst.state.killed = false) :
    w₁.inst.state = w.inst.state.kill ∧ w₁.inst.grants = w.inst.grants ∧
      w₁.inst.requests = w.inst.requests ∧ w₁.inst.channels = w.inst.channels := by
  obtain ⟨-, rfl⟩ := step?_call hkill
  simp [begin, Call.begin, Instance.kill, alive, Instance.report]

section Killed
variable {c : Config} {x : Instance} {ms ms' : List Move} {w v : World}

/-- Nothing is granted after a kill. -/
theorem length_grants_of_run? (fresh : Instance.create c = .ok x)
    (run : (start x).run? ms = some w) (run' : w.run? ms' = some v)
    (killed : w.inst.state.killed = true) : v.inst.grants.length = w.inst.grants.length := by
  refine run?_induction (P := fun _ u => u.inst.grants.length = w.inst.grants.length) rfl ?_ run'
  intro ms' u m u' hu same hstep
  obtain ⟨rest, a, -, -, effect⟩ := step?_effect hstep
  have killed' := killed_of_run? hu killed
  rw [effect.length_grants_of_killed killed' (halted_of_killed fresh (run?_trans run hu) killed')]
  exact same

/-- A grant stays at its priority, and a release is for good. -/
theorem grant_of_run? (fresh : Instance.create c = .ok x) (run : (start x).run? ms = some w)
    (run' : w.run? ms' = some v) {g : Nat} {grant : Grant}
    (here : w.inst.grants[g]? = some grant) :
    ∃ grant', v.inst.grants[g]? = some grant' ∧ grant'.priority = grant.priority ∧
      (grant.released = true → grant'.released = true) := by
  refine run?_induction (P := fun _ u => ∃ grant', u.inst.grants[g]? = some grant' ∧
    grant'.priority = grant.priority ∧ (grant.released = true → grant'.released = true))
    ⟨grant, here, rfl, id⟩ ?_ run'
  rintro ms' u m u' hu ⟨old, there, priority, released⟩ hstep
  obtain ⟨rest, a, -, -, effect⟩ := step?_effect hstep
  obtain ⟨new, there', priority'⟩ := effect.grant_priority there
  obtain ⟨new', there'', becomes⟩ := effect.grant_becomes there fun k k' user here' => by
    obtain ⟨held, here'', pos⟩ := exists_grant_of_held fresh (run?_trans run hu) user
    cases here'.symm.trans here''
    exact Nat.ne_of_gt pos
  cases there'.symm.trans there''
  exact ⟨new, there', priority'.trans priority, fun before => becomes.kept (released before)⟩

/-- A slot that was held is given back by a release or with the last clone of its lock, and in no
other way. -/
theorem released_of_run? (fresh : Instance.create c = .ok x) (run : (start x).run? ms = some w)
    (run' : w.run? ms' = some v) {g : Nat} {grant : Grant}
    (here : w.inst.grants[g]? = some grant) :
    ∃ grant', v.inst.grants[g]? = some grant' ∧ grant'.priority = grant.priority ∧
      (grant'.released = true ↔
        grant.released = true ∨ .call (.release g) ∈ ms' ∨ grant'.clones = 0) := by
  obtain ⟨grant', there, priority, kept⟩ := grant_of_run? fresh run run' here
  have before := released_iff fresh run here
  have after := released_iff fresh (run?_trans run run') there
  refine ⟨grant', there, priority, ?_⟩
  constructor
  · intro released
    rcases after.mp released with called | none
    · rcases List.mem_append.mp called with early | late
      · exact .inl (before.mpr (.inl early))
      · exact .inr (.inl late)
    · exact .inr (.inr none)
  · rintro (released | late | none)
    · exact kept released
    · exact after.mpr (.inl (List.mem_append_right _ late))
    · exact after.mpr (.inr none)

/-- A request without a grant gets none after a kill. -/
theorem ungranted_of_run? (run' : w.run? ms' = some v) (halted : w.inst.state.halted = true)
    {r d : Nat} (h : w.inst.Ungranted r d) : v.inst.Ungranted r d ∨ v.inst.Spent r := by
  refine run?_induction (P := fun _ u => u.inst.Ungranted r d ∨ u.inst.Spent r) (.inl h) ?_ run'
  intro ms' u m u' hu past hstep
  obtain ⟨rest, a, -, -, effect⟩ := step?_effect hstep
  rcases past with waits | spent
  · exact effect.ungranted_of_halted (halted_of_run? hu halted) waits
  · exact .inr (effect.spent spent)

theorem spent_of_run? (run' : w.run? ms' = some v) {r : Nat} (h : w.inst.Spent r) :
    v.inst.Spent r := by
  refine run?_invariant (I := fun x _ _ => x.Spent r) ?_ run' h
  intro x L sec x' a L' effect rest spent
  exact effect.spent spent

/-- A request that was let go is spent. -/
theorem spent_of_dropped (run' : w.run? ms' = some v) {r : Nat}
    (dropped : .call (.dropRequest r) ∈ ms') :
    v.inst.Spent r := by
  refine run?_induction (P := fun ms' v => .call (.dropRequest r) ∈ ms' → v.inst.Spent r) ?_ ?_
    run' dropped
  · intro none
    cases none
  · intro ms' u m u' hu past hstep dropped
    obtain ⟨rest, a, -, -, effect⟩ := step?_effect hstep
    rcases List.mem_append.mp dropped with earlier | now
    · exact effect.spent (past earlier)
    · obtain rfl := List.mem_singleton.mp now
      exact effect.spent_of_dropRequest

theorem sender_gone_of_run? (run' : w.run? ms' = some v) {d : Nat}
    (gone : ∃ ch, w.inst.channels[d]? = some ch ∧ ch.senderGone = true) :
    ∃ ch, v.inst.channels[d]? = some ch ∧ ch.senderGone = true := by
  refine run?_induction (P := fun _ u => ∃ ch, u.inst.channels[d]? = some ch ∧
    ch.senderGone = true) gone ?_ run'
  rintro ms' u m u' hu ⟨ch, channel, gone⟩ hstep
  obtain ⟨rest, a, -, -, effect⟩ := step?_effect hstep
  exact effect.sender_gone channel gone

/-- While users are at work, no call is about to let the sender of a request without a grant go,
unless the lock was killed. -/
theorem not_closing_of_ungranted (fresh : Instance.create c = .ok x)
    (run : (start x).run? ms = some w) (turn : w.usersTurn = true)
    (alive : w.inst.state.killed = false) {r d : Nat} (h : w.inst.Ungranted r d) :
    .closeSender d ∉ w.tasks := by
  intro closing
  obtain ⟨q, ticket, ch, here, progress, channel, empty⟩ := h
  obtain ⟨-, -, ch', channel', receiver⟩ :=
    (channelEnds fresh run).receiver_of_awaits (c := d) here (by simp [Request.awaits, progress])
  cases channel.symm.trans channel'
  rcases served_of_usersTurn fresh run turn with killed | served
  · cases alive.symm.trans killed
  · rcases served d ch closing channel with full | gone
    · exact full empty
    · cases receiver.symm.trans gone

end Killed

section Kill
variable {c : Config} {x : Instance} {ms ms' : List Move} {w w₁ v : World}

/-- From the kill on, a request that had no grant then is without one, or spent. -/
theorem ungranted_of_kill (hkill : w.step? (.call .kill) = some w₁)
    (alive : w.inst.state.killed = false) (run' : w₁.run? ms' = some v) {r d : Nat}
    (h : w.inst.Ungranted r d) : v.inst.Ungranted r d ∨ v.inst.Spent r := by
  obtain ⟨state, -, requests, channels⟩ := kill_begin hkill alive
  apply ungranted_of_run? run'
  · rw [state]
    exact LockState.halted_kill alive
  · unfold Instance.Ungranted
    rw [requests, channels]
    exact h

/-- When the kill returns, the senders of all requests without a grant are gone. -/
theorem sender_gone_of_return {u : World} (fresh : Instance.create c = .ok x)
    (run : (start x).run? ms = some w) (alive : w.inst.state.killed = false)
    (hkill : w.step? (.call .kill) = some w₁) (run₁ : w₁.run? ms' = some u)
    (returned : u.layers = w.layers) {r d : Nat} (h : w.inst.Ungranted r d) :
    goneAt Handoff.senderGone u.inst.channels d = true := by
  have run₂ : (start x).run? (ms ++ .call .kill :: ms') = some u := by
    apply run?_trans run
    rw [run?_cons, hkill]
    exact run₁
  have killed : u.inst.state.killed = true := by
    apply killed_of_run? run₁
    rw [(kill_begin hkill alive).1]
    exact LockState.killed_kill _
  have none : u.inst.state.waiters = [] := ((demandAccounts fresh run₂).killed killed).2
  have tasks : u.tasks = w.tasks := by
    unfold World.tasks
    rw [returned]
  have closing := not_closing_of_ungranted fresh run (step?_call hkill).1 alive h
  have sender := (channelEnds fresh run₂).senders d
  rw [none, tasks, List.count_eq_zero_of_not_mem closing, List.countP_nil] at sender
  cases gone : goneAt Handoff.senderGone u.inst.channels d with
  | true => rfl
  | false =>
      rw [gone] at sender
      cases sender

/-- From the return of the kill on, a poll of a request without a grant finds it failed. -/
theorem failed_of_return {ms₁ ms₂ : List Move} {u : World} (fresh : Instance.create c = .ok x)
    (run : (start x).run? ms = some w) (alive : w.inst.state.killed = false)
    (hkill : w.step? (.call .kill) = some w₁) (run₁ : w₁.run? ms₁ = some u)
    (returned : u.layers = w.layers) (run₂ : u.run? ms₂ = some v) {r d : Nat}
    (h : w.inst.Ungranted r d) :
    v.inst.Spent r ∨ ∀ waker, (v.inst.poll r waker).1 = .ok (some .killed) := by
  rcases ungranted_of_kill hkill alive run₁ h with waits | spent
  · have gone := sender_gone_of_return fresh run alive hkill run₁ returned h
    obtain ⟨q, ticket, ch, -, -, channel, -⟩ := waits
    rw [goneAt_of_getElem? channel] at gone
    obtain ⟨ch', channel', gone'⟩ := sender_gone_of_run? run₂ ⟨ch, channel, gone⟩
    rcases ungranted_of_kill hkill alive (run?_trans run₁ run₂) h with waits' | spent
    · right
      intro waker
      rw [waits'.poll waker, goneAt_of_getElem? channel', gone']
      rfl
    · exact .inl spent
  · exact .inl (spent_of_run? run₂ spent)

/-- A kill fails exactly the requests that wait, and is final: grants that were made are kept and
their slots stay held until they are given back, while nothing is granted or queued any more. This
holds from its first section on, and so for the wakers that it calls. -/
theorem kill_final (fresh : Instance.create c = .ok x) (run : (start x).run? ms = some w)
    (alive : w.inst.state.killed = false) (hkill : w.step? (.call .kill) = some w₁) :
    w₁.inst.grants = w.inst.grants ∧
    w₁.inst.state.runners = w.inst.state.runners ∧
    ∀ ms' v, w₁.run? ms' = some v →
      (v.inst.state.killed = true ∧ v.inst.state.slots = 0 ∧
        v.inst.state.free = -(v.inst.state.runners.sum : Int) ∧ v.inst.state.waiting = 0 ∧
        v.inst.state.demand = 0 ∧ v.inst.state.rota.toList = [] ∧
        ∀ p, v.inst.state.queueAt p = []) ∧
      v.inst.grants.length = w.inst.grants.length ∧
      (∀ p, v.inst.state.runnersAt p = v.inst.grants.countP (Grant.countsAt p)) ∧
      (∀ (g : Nat) (grant : Grant), w.inst.grants[g]? = some grant →
        ∃ grant', v.inst.grants[g]? = some grant' ∧ grant'.priority = grant.priority ∧
          (grant'.released = true ↔
            grant.released = true ∨ .call (.release g) ∈ ms' ∨ grant'.clones = 0)) ∧
      (∀ r g, w.inst.HoldsGrant r g → v.inst.Spent r ∨
        v.inst.isLocked g = true ∧
          ∀ waker, (v.inst.poll r waker).1 = .ok (some (.granted g))) ∧
      (∀ r d, w.inst.Ungranted r d →
        (∀ waker verdict, (v.inst.poll r waker).1 = .ok (some verdict) → verdict = .killed) ∧
        ∀ ms₁ ms₂ u, ms' = ms₁ ++ ms₂ → w₁.run? ms₁ = some u → u.layers = w.layers →
          v.inst.Spent r ∨ ∀ waker, (v.inst.poll r waker).1 = .ok (some .killed)) ∧
      (∀ p < c.weights.length,
        (v.inst.request p).1.state = v.inst.state ∧
        (v.inst.request p).1.grants = v.inst.grants ∧
        (v.inst.request p).1.channels = v.inst.channels ∧
        (v.inst.request p).2 = [] ∧
        (v.inst.request p).1.isReady v.inst.requests.length = true ∧
        ∀ waker, ((v.inst.request p).1.poll v.inst.requests.length waker).1 =
          .ok (some .killed)) := by
  obtain ⟨state, grants, -, -⟩ := kill_begin hkill alive
  have killed₁ : w₁.inst.state.killed = true := by
    rw [state]
    exact LockState.killed_kill _
  have stepped : w.run? [.call .kill] = some w₁ := by
    rw [run?_cons, hkill]
    rfl
  have run₁ := run?_trans run stepped
  refine ⟨grants, ?_, ?_⟩
  · rw [state, LockState.runners_kill]
  intro ms' v run'
  have run₂ := run?_trans run₁ run'
  have killed := killed_of_run? run' killed₁
  have account := demandAccounts fresh run₂
  have balance := slotsBalance fresh run₂
  refine ⟨?_, ?_, balance.runners, ?_, ?_, ?_, ?_⟩
  · obtain ⟨idle, empty, waiting, demand⟩ := account.of_killed killed
    have slots := balance.stopped (halted_of_killed fresh run₂ killed)
    have free := balance.balance
    exact ⟨killed, slots, by omega, waiting, demand, empty, idle⟩
  · rw [length_grants_of_run? fresh run₁ run' killed₁, grants]
  · intro g grant here
    exact released_of_run? fresh run₁ run' (grants ▸ here)
  · intro r g holds
    rcases holdsGrant_of_run? fresh run (run?_trans stepped run') holds with holds' | spent
    · right
      obtain ⟨grant, here, -, locked⟩ := unshared_of_holdsGrant fresh run₂ holds'
      exact ⟨by simp [Instance.isLocked, here, locked], holds'.poll⟩
    · exact .inl spent
  · intro r d ungranted
    constructor
    · intro waker verdict answer
      rcases ungranted_of_kill hkill alive run' ungranted with waits | spent
      · rw [waits.poll waker] at answer
        split at answer
        · cases answer
          rfl
        · cases answer
      · rw [spent.poll waker] at answer
        cases answer
    · rintro ms₁ ms₂ u rfl runᵤ returned
      obtain ⟨u', runᵤ', run₃⟩ := Option.bind_eq_some_iff.mp ((run?_append _ _ _).symm.trans run')
      cases runᵤ.symm.trans runᵤ'
      exact failed_of_return fresh run alive hkill runᵤ returned run₃ ungranted
  · intro p room
    have lanes := length_lanes fresh run₂ ▸ room
    rw [Instance.request_of_killed killed lanes]
    refine ⟨rfl, rfl, rfl, rfl, ?_, ?_⟩
    · simp [Instance.isReady, Instance.addRequest, Instance.report]
    · intro waker
      simp [Instance.poll, Instance.addRequest, Instance.report]

/-- A lock with one slot that is granted to one request while another waits for it, and killed. -/
theorem kill_final_of_two_requests :
    ∃ w w₁ v, (start (.ofConfig { concurrency := 1, weights := [1] })).run?
        [.call (.request 0), .callEnds, .call (.request 0), .callEnds] = some w ∧
      w.inst.state.killed = false ∧ w.step? (.call .kill) = some w₁ ∧
      w₁.run? [.work, .work, .callEnds] = some v ∧ v.layers = w.layers ∧
      (v.inst.poll 0 .silent).1 = .ok (some (.granted 0)) ∧ v.inst.isLocked 0 = true ∧
      (v.inst.poll 1 .silent).1 = .ok (some .killed) := by
  have run : (start (.ofConfig { concurrency := 1, weights := [1] })).run?
      [.call (.request 0), .callEnds, .call (.request 0), .callEnds] = some _ := rfl
  obtain ⟨-, -, after⟩ :=
    kill_final (c := { concurrency := 1, weights := [1] }) rfl run rfl rfl
  obtain ⟨-, -, -, -, granted, failed, -⟩ := after [.work, .work, .callEnds] _ rfl
  refine ⟨_, _, _, run, rfl, rfl, rfl, rfl, ?_, ?_, ?_⟩
  · rcases granted 0 0 (.settled rfl rfl) with ⟨q, here, spent⟩ | ⟨-, answer⟩
    · cases here
      simp at spent
    · exact answer .silent
  · rcases granted 0 0 (.settled rfl rfl) with ⟨q, here, spent⟩ | ⟨locked, -⟩
    · cases here
      simp at spent
    · exact locked
  · have returned := (failed 1 0 ⟨_, _, _, rfl, rfl, rfl, rfl⟩).2
    rcases returned [.work, .work, .callEnds] [] _ rfl rfl rfl with ⟨q, here, spent⟩ | answer
    · cases here
      simp at spent
    · exact answer .silent

end Kill

end World

end FairShare
