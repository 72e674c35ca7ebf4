import FairShare.Proofs.Answers
import FairShare.Proofs.Registrations

/-!
# The lifetime of an instance

An instance lives by its handles and by the grants whose slots are held, those included that no
poll has taken yet, and while a call works on it that has made itself an owner. Between calls
nothing else keeps it, and nothing less. What is left when it has gone is inert: the requests that
waited have failed, the grant loop answers that it has nothing left to do, and no call changes
anything for anybody else, or calls a waker.
-/

namespace FairShare

namespace Instance

/-- Somebody holds a handle or a slot. -/
def HeldBySomebody (x : Instance) : Prop :=
  0 < x.handles ∨ ∃ grant ∈ x.grants, grant.released = false

/-- The answer of a request that is not queued depends on the request only. -/
theorem poll_fst_congr {x y : Instance} {r : Nat} {q : Request} (here : x.requests[r]? = some q)
    (there : y.requests[r]? = some q) (unqueued : ∀ ticket c, q.progress ≠ .queued ticket c)
    (waker : Waker) : (x.poll r waker).1 = (y.poll r waker).1 := by
  unfold poll
  rw [here, there]
  cases progress : q.progress with
  | settled verdict => cases verdict <;> simp [progress]
  | queued ticket c => exact absurd progress (unqueued ticket c)
  | finished => simp [progress]
  | dropped => simp [progress]

end Instance

/-- A sender that is gone on a killed lock stays gone. -/
theorem Effect.goneAt_of_killed {x x' : Instance} {L L' : List Nat} {sec : Section}
    {a : Agenda Task} (effect : Effect x L sec x' a L') (killed : x.state.killed = true) {c : Nat}
    (gone : goneAt Handoff.senderGone x.channels c = true) :
    goneAt Handoff.senderGone x'.channels c = true := by
  cases channel : x.channels[c]? with
  | some ch =>
      rw [goneAt_of_getElem? channel] at gone
      obtain ⟨ch', channel', gone'⟩ := effect.sender_gone channel gone
      rw [goneAt_of_getElem? channel', gone']
  | none =>
      apply goneAt_of_missing
      rw [List.getElem?_eq_none_iff] at channel ⊢
      cases effect with
      | queue _ _ alive => cases killed.symm.trans alive
      | wait | receive | fail | closeFull | closeEmpty | dropReceiver | grant =>
          rw [List.length_set]
          exact channel
      | _ => exact channel

namespace World

/-- No waker is about to be called or registered with the grant loop, and all senders are gone. -/
structure Inert (w : World) : Prop where
  event : w.inst.wake.waker = none
  closed : ∀ c, goneAt Handoff.senderGone w.inst.channels c = true
  uncalled : ∀ waker, .waking waker ∉ w.agenda

section Runs
variable {c : Config} {x : Instance} {ms ms' : List Move} {w v : World} {r : Nat}

/-- Whoever holds a handle or a slot holds an instance that is there. -/
theorem isAlive_of_held (fresh : Instance.create c = .ok x) (run : (start x).run? ms = some w)
    (held : w.inst.HeldBySomebody) : w.inst.isAlive = true := by
  by_contra gone
  rw [Bool.not_eq_true, Instance.isAlive_eq_false_iff] at gone
  obtain ⟨none, released, -⟩ := (ownerCount fresh run).of_dead gone
  rcases held with handle | ⟨grant, member, locked⟩
  · omega
  · cases locked.symm.trans (released grant member)

/-- Between calls an instance is there exactly if somebody holds a handle or a slot. -/
theorem isAlive_iff_of_isIdle (fresh : Instance.create c = .ok x)
    (run : (start x).run? ms = some w) (idle : w.isIdle = true) :
    w.inst.isAlive = true ↔ w.inst.HeldBySomebody := by
  constructor
  · intro alive
    by_contra unheld
    obtain ⟨none, released⟩ := not_or.mp unheld
    have deserted : w.inst.Deserted := by
      refine ⟨Nat.eq_zero_of_not_pos none, fun grant member => ?_⟩
      by_contra locked
      exact released ⟨grant, member, by simpa using locked⟩
    have gone := owners_of_deserted fresh run idle deserted
    cases alive.symm.trans (Instance.isAlive_eq_false_iff.mpr gone)
  · exact isAlive_of_held fresh run

/-- A request that awaits its verdict from an instance that is gone has no grant. -/
theorem ungranted_of_dead (fresh : Instance.create c = .ok x) (run : (start x).run? ms = some w)
    (dead : w.inst.owners = 0) {d : Nat} (awaits : w.inst.AwaitsOn r d) :
    w.inst.Ungranted r d := by
  obtain ⟨q, ticket, here, queued⟩ := awaits
  obtain ⟨-, -, ch, channel, -⟩ :=
    (channelEnds fresh run).receiver_of_awaits (c := d) here (by simp [Request.awaits, queued])
  refine ⟨q, ticket, ch, here, queued, channel, ?_⟩
  by_contra full
  obtain ⟨g, value⟩ := Option.ne_none_iff_exists'.mp full
  obtain ⟨grant, made, -, locked⟩ :=
    unshared_of_holdsGrant fresh run (.delivered here queued channel value)
  obtain ⟨-, released, -⟩ := (ownerCount fresh run).of_dead dead
  cases locked.symm.trans (released grant (List.mem_of_getElem? made))

/-- Between calls an instance that is gone is inert. -/
theorem inert_of_dead (fresh : Instance.create c = .ok x) (run : (start x).run? ms = some w)
    (idle : w.isIdle = true) (dead : w.inst.owners = 0) : w.Inert := by
  have killed := killed_of_dead fresh run dead
  have none := tasks_of_isIdle idle
  refine ⟨?_, ?_, ?_⟩
  · by_contra registered
    have called := (wakeAccount fresh run).halted (halted_of_killed fresh run killed) registered
    rw [none] at called
    cases called
  · intro d
    have sender := (channelEnds fresh run).senders d
    rw [((demandAccounts fresh run).killed killed).2, none] at sender
    simpa using sender
  · intro waker called
    unfold agenda at called
    rw [List.isEmpty_iff.mp idle] at called
    cases called

/-- No waker is registered on a channel of an inert world. -/
theorem Inert.not_registered (h : w.Inert) (fresh : Instance.create c = .ok x)
    (run : (start x).run? ms = some w) (waker : Waker) (d : Nat) :
    ¬w.inst.Registered waker d := by
  rintro ⟨ch, channel, registered⟩
  have closed := h.closed d
  rw [goneAt_of_getElem? channel] at closed
  have waits := waitingEnds fresh run ch (List.mem_of_getElem? channel) (by simp [registered])
  cases closed.symm.trans waits.2

/-- An instance that is gone stays inert, and calls no waker. -/
theorem Inert.step {m : Move} (h : w.Inert) (fresh : Instance.create c = .ok x)
    (run : (start x).run? ms = some w) (dead : w.inst.owners = 0) (hstep : w.step? m = some v) :
    v.Inert ∧ ∀ waker, m ≠ .wake waker := by
  obtain ⟨done, rest, a, before, after, -, calls, -, effect⟩ := step?_agenda hstep
  have killed := killed_of_dead fresh run dead
  refine ⟨⟨?_, ?_, ?_⟩, ?_⟩
  · by_contra registered
    obtain ⟨waker, registered⟩ := Option.ne_none_iff_exists'.mp registered
    rcases effect.event_registered registered with old | ⟨-, owned⟩
    · cases h.event.symm.trans old
    · exact owned dead
  · exact fun d => effect.goneAt_of_killed killed (h.closed d)
  · intro waker called
    rw [after] at called
    rcases List.mem_append.mp called with now | later
    · obtain ⟨-, ⟨-, registered⟩ | ⟨d, registered, -⟩⟩ := effect.waking now
      · cases h.event.symm.trans registered
      · exact h.not_registered fresh run waker d registered
    · apply h.uncalled waker
      rw [before]
      exact List.mem_append_right _ later
  · rintro waker rfl
    apply h.uncalled waker
    rw [(step?_wake hstep).1]
    exact List.mem_cons_self

/-- Once it is gone and no call is in progress, an instance is inert for good. -/
theorem inert_of_run? (fresh : Instance.create c = .ok x) (run : (start x).run? ms = some w)
    (idle : w.isIdle = true) (dead : w.inst.owners = 0) (run' : w.run? ms' = some v) :
    v.Inert ∧ ∀ waker, .wake waker ∉ ms' := by
  refine run?_induction (P := fun ms' v => v.Inert ∧ ∀ waker, .wake waker ∉ ms') ?_ ?_ run'
  · exact ⟨inert_of_dead fresh run idle dead, fun waker => List.not_mem_nil⟩
  · rintro ms' u m u' hu ⟨inert, uncalled⟩ hstep
    obtain ⟨inert', other⟩ := inert.step fresh (run?_trans run hu)
      (dead_of_run? fresh run hu dead) hstep
    refine ⟨inert', fun waker => ?_⟩
    rw [List.mem_append, not_or, List.mem_singleton]
    exact ⟨uncalled waker, Ne.symm (other waker)⟩

/-- A request that awaits its verdict from an inert instance that is gone has failed. -/
theorem Inert.poll (h : w.Inert) (fresh : Instance.create c = .ok x)
    (run : (start x).run? ms = some w) (dead : w.inst.owners = 0) {d : Nat}
    (awaits : w.inst.AwaitsOn r d) (waker : Waker) :
    (w.inst.poll r waker).1 = .ok (some .killed) := by
  rw [(ungranted_of_dead fresh run dead awaits).poll waker, h.closed d]
  rfl

/-- A request stays as it is while it is neither polled nor let go. -/
theorem request_of_run? (run' : w.run? ms' = some v)
    (unpolled : ∀ waker, .call (.poll r waker) ∉ ms') (kept : .call (.dropRequest r) ∉ ms')
    {q : Request} (here : w.inst.requests[r]? = some q) : v.inst.requests[r]? = some q := by
  refine run?_induction (P := fun ms' v => (∀ waker, .call (.poll r waker) ∉ ms') →
    .call (.dropRequest r) ∉ ms' → v.inst.requests[r]? = some q) ?_ ?_ run' unpolled kept
  · intro _ _
    exact here
  · intro ms' u m u' hu past hstep unpolled kept
    obtain ⟨rest, a, -, -, effect⟩ := step?_effect hstep
    have there := past (fun waker before => unpolled waker (List.mem_append_left _ before))
      (fun before => kept (List.mem_append_left _ before))
    apply effect.request_kept _ _ there
    · intro waker polled
      exact unpolled waker (mem_of_sectionOf polled)
    · intro dropped
      exact kept (mem_of_sectionOf dropped)

/-- Once the instance is gone, a request that is left alone keeps its answer. -/
theorem answers_kept (fresh : Instance.create c = .ok x) (run : (start x).run? ms = some w)
    (idle : w.isIdle = true) (dead : w.inst.owners = 0) (run' : w.run? ms' = some v)
    (made : r < w.inst.requests.length) (unpolled : ∀ waker, .call (.poll r waker) ∉ ms')
    (kept : .call (.dropRequest r) ∉ ms') (waker : Waker) :
    (v.inst.poll r waker).1 = (w.inst.poll r waker).1 := by
  have here : w.inst.requests[r]? = some w.inst.requests[r] := List.getElem?_eq_getElem made
  have there := request_of_run? run' unpolled kept here
  by_cases queued : ∃ ticket d, w.inst.requests[r].progress = .queued ticket d
  · obtain ⟨ticket, d, queued⟩ := queued
    have dead' := dead_of_run? fresh run run' dead
    have inert' := (inert_of_run? fresh run idle dead run').1
    calc (v.inst.poll r waker).1
      _ = .ok (some .killed) :=
        inert'.poll fresh (run?_trans run run') dead' ⟨_, ticket, there, queued⟩ waker
      _ = (w.inst.poll r waker).1 :=
        ((inert_of_dead fresh run idle dead).poll fresh run dead ⟨_, ticket, here, queued⟩
          waker).symm
  · apply Instance.poll_fst_congr there here
    intro ticket d progress
    exact queued ⟨ticket, d, progress⟩

/-- A poll of the grant loop of an instance that is gone returns after two sections and answers
that there is nothing left to do. -/
theorem drive_of_dead {waker : Waker} (dead : w.inst.owners = 0)
    (hstep : w.step? (.call (.drive waker)) = some v) :
    ∃ u, v.run? [.work, .work] = some u ∧
      u.layers = .call (.drive waker) [] none :: w.layers ∧ u.inst.loop.ended = true := by
  obtain ⟨-, rfl⟩ := step?_call hstep
  simp [run?, step?, begin, madeBy, Call.begin, Instance.drive, Instance.modifyLoop, Task.perform,
    Instance.resume, Instance.report, dead]

/-- An instance lives as long as somebody holds a handle or a slot, and no longer: queued requests
and the grant loop do not keep it. Once it is gone nobody hangs, as every request that was queued
has failed and the grant loop ends. -/
theorem lives_while_held (fresh : Instance.create c = .ok x)
    (run : (start x).run? ms = some w) :
    (w.inst.HeldBySomebody → w.inst.isAlive = true) ∧
    (w.isIdle = true → (w.inst.isAlive = true ↔ w.inst.HeldBySomebody)) ∧
    (w.inst.isAlive = false → ∀ waker v, w.step? (.call (.drive waker)) = some v →
      ∃ u, v.run? [.work, .work] = some u ∧
        u.layers = .call (.drive waker) [] none :: w.layers ∧ u.inst.loop.ended = true) ∧
    (w.isIdle = true → w.inst.isAlive = false → ∀ ms' v, w.run? ms' = some v →
      v.inst.isAlive = false ∧
      (∀ r q ticket d, v.inst.requests[r]? = some q → q.progress = .queued ticket d →
        ∀ waker, (v.inst.poll r waker).1 = .ok (some .killed)) ∧
      (∀ waker, .wake waker ∉ ms') ∧
      (∀ r < w.inst.requests.length, (∀ waker, .call (.poll r waker) ∉ ms') →
        .call (.dropRequest r) ∉ ms' →
        ∀ waker, (v.inst.poll r waker).1 = (w.inst.poll r waker).1)) := by
  refine ⟨isAlive_of_held fresh run, isAlive_iff_of_isIdle fresh run, ?_, ?_⟩
  · intro gone waker v hstep
    exact drive_of_dead (Instance.isAlive_eq_false_iff.mp gone) hstep
  · intro idle gone ms' v run'
    have dead := Instance.isAlive_eq_false_iff.mp gone
    have dead' := dead_of_run? fresh run run' dead
    obtain ⟨inert, uncalled⟩ := inert_of_run? fresh run idle dead run'
    refine ⟨Instance.isAlive_eq_false_iff.mpr dead', ?_, uncalled, ?_⟩
    · intro r q ticket d here queued
      exact inert.poll fresh (run?_trans run run') dead' ⟨q, ticket, here, queued⟩
    · intro r made unpolled kept
      exact answers_kept fresh run idle dead run' made unpolled kept

/-- A lock with one slot whose first request has it while two wait. The lock is halted, its handle
goes, and then the slot comes back: nobody holds the instance, the requests that were stranded have
failed, and dropping one of them changes nothing for the other. -/
theorem lives_while_held_of_three_requests :
    ∃ w v, (start (.ofConfig { concurrency := 1, weights := [1] })).run?
        [.call (.request 0), .callEnds, .call (.request 0), .callEnds, .call (.request 0),
          .callEnds, .call (.poll 0 .silent), .callEnds, .call .halt, .work, .callEnds,
          .call .dropHandle, .work, .callEnds, .call (.dropLock 0), .work, .work, .work, .work,
          .work, .callEnds] = some w ∧
      w.isIdle = true ∧ w.inst.isAlive = false ∧
      w.run? [.call (.dropRequest 1), .work, .callEnds] = some v ∧
      ∀ waker, (v.inst.poll 2 waker).1 = .ok (some .killed) ∧
        (v.inst.poll 2 waker).1 = (w.inst.poll 2 waker).1 := by
  have run : (start (.ofConfig { concurrency := 1, weights := [1] })).run?
      [.call (.request 0), .callEnds, .call (.request 0), .callEnds, .call (.request 0),
        .callEnds, .call (.poll 0 .silent), .callEnds, .call .halt, .work, .callEnds,
        .call .dropHandle, .work, .callEnds, .call (.dropLock 0), .work, .work, .work, .work,
        .work, .callEnds] = some _ := rfl
  obtain ⟨-, -, -, gone⟩ := lives_while_held (c := { concurrency := 1, weights := [1] }) rfl run
  obtain ⟨-, failed, -, kept⟩ := gone rfl rfl [.call (.dropRequest 1), .work, .callEnds] _ rfl
  refine ⟨_, _, run, rfl, rfl, rfl, fun waker => ⟨?_, ?_⟩⟩
  · exact failed 2 _ _ _ rfl rfl waker
  · exact kept 2 (by decide) (by simp) (by simp) waker

end Runs

end World

end FairShare
