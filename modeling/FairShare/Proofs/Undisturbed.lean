import FairShare.Proofs.Effect
import FairShare.Proofs.Views

/-!
# Calls that nobody interrupts

A call that is made between calls runs to its end if the wakers that it calls do nothing. What it
leaves behind is then found by running its sections one after the other. The lemmas on sections say
what a section does to an instance that is known well enough.
-/

namespace FairShare

/-! ## Runs without calls -/

namespace World

/-- A run without calls leads from one world to the other: what is in progress goes on, and the
wakers that are called do nothing. -/
def Unfolds (w w' : World) : Prop :=
  ∃ ms, w.run? ms = some w' ∧ ∀ c, .call c ∉ ms

theorem Unfolds.refl (w : World) : Unfolds w w :=
  ⟨[], rfl, fun _ => List.not_mem_nil⟩

theorem Unfolds.trans {w w' w'' : World} (h : Unfolds w w') (h' : Unfolds w' w'') :
    Unfolds w w'' := by
  obtain ⟨ms, run, none⟩ := h
  obtain ⟨ms', run', none'⟩ := h'
  refine ⟨ms ++ ms', run?_trans run run', fun c made => ?_⟩
  rcases List.mem_append.mp made with made | made
  · exact none c made
  · exact none' c made

section Sections
variable {x y : Instance} {c : Call} {t : Task} {a rest : Agenda Task} {made : Option Nat}
  {below : List Layer} {locks : List Nat}

/-- The innermost call runs its next section. -/
theorem step?_work_of_perform (outcome : t.perform x = (y, a)) :
    step? { inst := x, layers := .call c (.task t :: rest) made :: below, locks } .work =
      some { inst := y, layers := .call c (a ++ rest) made :: below, locks } := by
  simp only [step?, outcome]

theorem unfolds_work (outcome : t.perform x = (y, a)) :
    Unfolds { inst := x, layers := .call c (.task t :: rest) made :: below, locks }
      { inst := y, layers := .call c (a ++ rest) made :: below, locks } :=
  ⟨[.work], (run?_singleton _ _).trans (step?_work_of_perform outcome), by simp⟩

/-- A waker that is called and does nothing changes nothing. -/
theorem unfolds_wake (w : Waker) :
    Unfolds { inst := x, layers := .call c (.waking w :: rest) made :: below, locks }
      { inst := x, layers := .call c rest made :: below, locks } :=
  ⟨[.wake w, .wakerEnds], by simp [run?_cons, step?], by simp⟩

/-- A call with nothing left returns. -/
theorem unfolds_callEnds :
    Unfolds { inst := x, layers := .call c [] made :: below, locks }
      { inst := x, layers := below, locks } :=
  ⟨[.callEnds], rfl, by simp⟩

end Sections

/-- The move that goes on with what is in progress, when users make no call. -/
def onward? (w : World) : Option Move :=
  match w.layers with
  | [] => none
  | .call _ [] _ :: _ => some .callEnds
  | .call _ (.task _ :: _) _ :: _ => some .work
  | .call _ (.waking waker :: _) _ :: _ => some (.wake waker)
  | .waker _ :: _ => some .wakerEnds

theorem onward?_of_step? {w v : World} {m : Move} (h : w.step? m = some v)
    (other : ∀ c, m ≠ .call c) : w.onward? = some m := by
  rcases step?_cases h with ⟨c, rfl, -⟩ | ⟨_, _, _, _, _, rfl, hl, -⟩ |
    ⟨_, _, _, _, _, rfl, hl, -⟩ | ⟨_, _, rfl, hl, -⟩ | ⟨_, _, _, rfl, hl, -⟩
  · exact absurd rfl (other c)
  all_goals simp [onward?, hl]

/-- Between calls nothing goes on by itself. -/
theorem Unfolds.eq_of_isIdle {w v : World} (h : Unfolds w v) (idle : w.isIdle = true) : v = w := by
  obtain ⟨ms, run, none⟩ := h
  cases ms with
  | nil => exact (Option.some.inj run).symm
  | cons m ms =>
      rw [run?_cons] at run
      obtain ⟨u, step, -⟩ := Option.bind_eq_some_iff.mp run
      have next := onward?_of_step? step fun c e => none c (e ▸ List.mem_cons_self)
      simp [onward?, List.isEmpty_iff.mp idle] at next

/-- What is in progress comes to one end only, if users make no call. -/
theorem Unfolds.unique {w v v' : World} (h : Unfolds w v) (h' : Unfolds w v')
    (idle : v.isIdle = true) (idle' : v'.isIdle = true) : v = v' := by
  obtain ⟨ms, run, none⟩ := h
  induction ms generalizing w with
  | nil =>
      obtain rfl := Option.some.inj run
      exact (h'.eq_of_isIdle idle).symm
  | cons m ms ih =>
      rw [run?_cons] at run
      obtain ⟨u, step, run⟩ := Option.bind_eq_some_iff.mp run
      have next := onward?_of_step? step fun c e => none c (e ▸ List.mem_cons_self)
      have rest : ∀ c, .call c ∉ ms := fun c made => none c (List.mem_cons_of_mem m made)
      obtain ⟨ms', run', none'⟩ := h'
      cases ms' with
      | nil =>
          obtain rfl := Option.some.inj run'
          simp [onward?, List.isEmpty_iff.mp idle'] at next
      | cons m' ms' =>
          rw [run?_cons] at run'
          obtain ⟨u', step', run'⟩ := Option.bind_eq_some_iff.mp run'
          have next' := onward?_of_step? step' fun c e => none' c (e ▸ List.mem_cons_self)
          obtain rfl := Option.some.inj (next.symm.trans next')
          obtain rfl := Option.some.inj (step.symm.trans step')
          exact ih ⟨ms', run', fun c made => none' c (List.mem_cons_of_mem m made)⟩ run rest

end World

/-- The agenda runs to its end, with wakers that do nothing, and leaves the second instance. -/
inductive Completes : Agenda Task → Instance → Instance → Prop where
  | done (x : Instance) : Completes [] x x
  | work {t : Task} {rest a : Agenda Task} {x y x' : Instance} (outcome : t.perform x = (y, a))
      (completes : Completes (a ++ rest) y x') : Completes (.task t :: rest) x x'
  | wake {w : Waker} {rest : Agenda Task} {x x' : Instance} (completes : Completes rest x x') :
      Completes (.waking w :: rest) x x'

namespace Completes

variable {a : Agenda Task} {x x' : Instance}

/-- A waker that does nothing changes nothing. -/
theorem callWaker (o : Option Waker) (h : Completes a x x') :
    Completes (callWaker o ++ a) x x' := by
  cases o with
  | none => exact h
  | some w => exact .wake h

/-- What completes one after the other completes together. -/
theorem append {b : Agenda Task} {x'' : Instance} (h : Completes a x x')
    (h' : Completes b x' x'') : Completes (a ++ b) x x'' := by
  induction h with
  | done => exact h'
  | work outcome _ ih =>
      have together := ih h'
      rw [List.append_assoc] at together
      exact .work outcome together
  | wake _ ih => exact .wake (ih h')

/-- A task completes if what follows from it does. -/
theorem task {t : Task} {y : Instance} (outcome : t.perform x = (y, a)) (h : Completes a y x') :
    Completes [.task t] x x' :=
  .work outcome (by rwa [List.append_nil])

/-- What completes is a run without calls, in which the innermost call returns. -/
theorem unfolds (h : Completes a x x') (c : Call) (made : Option Nat) (below : List Layer)
    (locks : List Nat) :
    World.Unfolds { inst := x, layers := .call c a made :: below, locks }
      { inst := x', layers := below, locks } := by
  induction h with
  | done => exact World.unfolds_callEnds
  | work outcome _ ih => exact (World.unfolds_work outcome).trans ih
  | wake _ ih => exact (World.unfolds_wake _).trans ih

/-- An agenda completes in one way only. -/
theorem unique {y : Instance} (h : Completes a x x') (h' : Completes a x y) : y = x' := by
  induction h with
  | done =>
      cases h'
      rfl
  | work outcome _ ih =>
      cases h' with
      | work outcome' completes =>
          obtain ⟨rfl, rfl⟩ := Prod.mk.inj (outcome.symm.trans outcome')
          exact ih completes
  | wake _ ih =>
      cases h' with
      | wake completes => exact ih completes

end Completes

/-! ## The past -/

namespace Instance

/-- The instance with these events before those in its log. -/
def withPast (past : List Event) (x : Instance) : Instance :=
  { x with log := past ++ x.log }

variable (past : List Event)

theorem report_withPast (e : Event) (x : Instance) :
    (x.withPast past).report e = (x.report e).withPast past := by
  simp [withPast, report]

theorem giveBack_withPast (g : Nat) (x : Instance) :
    (x.withPast past).giveBack g = ((x.giveBack g).1.withPast past, (x.giveBack g).2) := by
  cases here : x.grants[g]? with
  | none => simp [giveBack, withPast, here]
  | some grant =>
      generalize next : x.state.returnSlot grant.priority = s
      cases released : grant.released <;> simp [giveBack, withPast, here, released, next, report]

theorem dropLock_withPast (g : Nat) (x : Instance) :
    (x.withPast past).dropLock g = ((x.dropLock g).1.withPast past, (x.dropLock g).2) := by
  cases here : x.grants[g]? with
  | none => simp [dropLock, withPast, here]
  | some grant =>
      have less := giveBack_withPast past g
        { x with grants := x.grants.set g { grant with clones := grant.clones - 1 } }
      by_cases last : grant.clones - 1 = 0
      · simpa [dropLock, withPast, here, last] using less
      · simp [dropLock, withPast, here, last]

theorem disown_withPast (x : Instance) :
    (x.withPast past).disown = (x.disown.1.withPast past, x.disown.2) := by
  by_cases last : x.owners - 1 = 0 <;> cases killed : x.state.killed <;>
    simp [disown, destroy, withPast, last, killed, report]

theorem deliver_withPast (c g : Nat) (x : Instance) :
    (x.withPast past).deliver c g = ((x.deliver c g).1.withPast past, (x.deliver c g).2) := by
  cases channel : x.channels[c]? with
  | none => simp [deliver, withPast, channel]
  | some ch => cases gone : ch.receiverGone <;> simp [deliver, withPast, channel, gone]

theorem grantTo_withPast (k : Waker) (p : Nat) (x : Instance) :
    (x.withPast past).grantTo k p =
      ((x.grantTo k p).1.withPast past, (x.grantTo k p).2) := by
  cases first : x.state.grantFirst? p with
  | none => simp [grantTo, withPast, first, endPass]
  | some taken =>
      obtain ⟨e, s⟩ := taken
      have sent := deliver_withPast past e.channel x.grants.length
        (((({ x with state := s } : Instance).addGrant p).report
          (.granting p e.ticket s.free s.waiting)).modifyLoop
            fun l => { l with grants := l.grants + 1 })
      simp only [withPast, addGrant, report, modifyLoop] at sent
      simp [grantTo, withPast, first, addGrant, report, modifyLoop, sent]

theorem pass_withPast (k : Waker) (x : Instance) :
    (x.withPast past).pass k = ((x.pass k).1.withPast past, (x.pass k).2) := by
  cases halted : x.state.halted with
  | true => simp [pass, withPast, halted, endLoop, report]
  | false =>
      by_cases idle : x.state.free ≤ 0 ∨ x.state.waiting = 0
      · simp [pass, withPast, halted, idle, endPass]
      · rcases scan : x.state.nextInTurn? with ⟨_ | p, s⟩
        · simp [pass, withPast, halted, idle, scan, endPass, report]
        · have granted := grantTo_withPast past k p { x with state := s }
          simpa [pass, withPast, halted, idle, scan] using granted

end Instance

/-- No task reads what is in the log. -/
theorem Task.perform_withPast (past : List Event) (t : Task) (x : Instance) :
    t.perform (x.withPast past) = ((t.perform x).1.withPast past, (t.perform x).2) := by
  cases t with
  | wakeLoop => rfl
  | closeSender c =>
      cases channel : x.channels[c]? <;>
        simp [perform, Instance.closeSender, Instance.withPast, channel]
  | dropReceiver c =>
      cases channel : x.channels[c]? <;>
        simp [perform, Instance.dropReceiver, Instance.withPast, channel]
  | dropLock g => exact x.dropLock_withPast past g
  | takeBack g =>
      simp only [perform, Instance.report_withPast]
      exact Instance.dropLock_withPast past g _
  | disown => exact x.disown_withPast past
  | resume k =>
      by_cases dead : x.owners = 0 <;> cases halted : x.state.halted <;>
        cases permit : x.wake.permit <;>
        simp [perform, Instance.resume, Instance.withPast, dead, halted, permit, WakeEvent.poll,
          Instance.report, Instance.modifyLoop]
  | pass k => exact x.pass_withPast past k
  | settle k =>
      by_cases stop : x.state.halted ∨ x.owners = 1 <;>
        simp [perform, Instance.settle, Instance.withPast, stop, Instance.endLoop, Instance.report]
  | endPoll ended => rfl

/-- What completes does so after any past. -/
theorem Completes.withPast {past : List Event} {a : Agenda Task} {x y : Instance}
    (h : Completes a x y) : Completes a (x.withPast past) (y.withPast past) := by
  induction h with
  | done => exact .done _
  | work outcome _ ih => exact .work (by rw [Task.perform_withPast, outcome]) ih
  | wake _ ih => exact .wake ih

/-- What completes after some past does so without it. -/
theorem Completes.of_withPast {past : List Event} {a : Agenda Task} {x z : Instance}
    (h : Completes a (x.withPast past) z) :
    ∃ y, z = y.withPast past ∧ Completes a x y := by
  generalize start : x.withPast past = x' at h
  induction h generalizing x with
  | done => exact ⟨x, start.symm, .done x⟩
  | work outcome _ ih =>
      rw [← start, Task.perform_withPast] at outcome
      obtain ⟨rfl, rfl⟩ := Prod.mk.inj outcome
      obtain ⟨y, same, completes⟩ := ih rfl
      exact ⟨y, same, .work rfl completes⟩
  | wake _ ih =>
      obtain ⟨y, same, completes⟩ := ih start
      exact ⟨y, same, .wake completes⟩

namespace World

variable {w w' w'' : World}

/-- Users make a call that ownership allows, between calls or in the code of a waker, and it runs to
its end while the wakers that it calls do nothing. -/
def Performs (c : Call) (w w' : World) : Prop :=
  w.usersTurn = true ∧ w.allows c = true ∧
    ∃ x', Completes (c.begin w.inst).2 (c.begin w.inst).1 x' ∧
      w' = { inst := x', layers := w.layers, locks := w.locksAfter c }

theorem Performs.layers_eq {c : Call} (h : w.Performs c w') : w'.layers = w.layers := by
  obtain ⟨-, -, x', -, rfl⟩ := h
  rfl

theorem Performs.locks_eq {c : Call} (h : w.Performs c w') : w'.locks = w.locksAfter c := by
  obtain ⟨-, -, x', -, rfl⟩ := h
  rfl

/-- After a call that is performed it is the turn of users again. -/
theorem Performs.usersTurn {c : Call} (h : w.Performs c w') : w'.usersTurn = true := by
  have turn := h.1
  unfold World.usersTurn at turn ⊢
  rwa [h.layers_eq]

/-- A call that is performed is a run with no other call in it. -/
theorem Performs.exists_run {c : Call} (h : w.Performs c w') :
    ∃ ms, w.run? (.call c :: ms) = some w' ∧ ∀ c', .call c' ∉ ms := by
  obtain ⟨turn, allowed, x', completes, rfl⟩ := h
  obtain ⟨ms, run, none⟩ := completes.unfolds c (w.madeBy c) w.layers (w.locksAfter c)
  have step : w.step? (.call c) = some (w.begin c) := by simp [step?, turn, allowed]
  refine ⟨ms, ?_, none⟩
  rw [run?_cons, step]
  exact run

/-- A call is performed in one way only. -/
theorem Performs.unique {c : Call} (h : w.Performs c w') (h' : w.Performs c w'') : w'' = w' := by
  obtain ⟨-, -, x', completes, rfl⟩ := h
  obtain ⟨-, -, y, completes', rfl⟩ := h'
  rw [completes.unique completes']

/-- A call at rest whose agenda completes is a run with no other call in it. -/
theorem run?_of_completes {c : Call} {a : Agenda Task} {y x' : Instance} (idle : w.layers = [])
    (allowed : w.allows c = true) (outcome : c.begin w.inst = (y, a))
    (completes : Completes a y x') :
    ∃ ms, w.run? (.call c :: ms) = some { inst := x', locks := w.locksAfter c } ∧
      ∀ c', .call c' ∉ ms := by
  have turn : w.usersTurn = true := by
    unfold usersTurn
    rw [idle]
  have performs : w.Performs c { inst := x', layers := w.layers, locks := w.locksAfter c } :=
    ⟨turn, allowed, x', by rwa [outcome], rfl⟩
  rw [idle] at performs
  exact performs.exists_run

/-- A run leads from one world to the other. -/
def Leads (w w' : World) : Prop :=
  ∃ ms, w.run? ms = some w'

theorem Leads.trans (h : Leads w w') (h' : Leads w' w'') : Leads w w'' := by
  obtain ⟨ms, run⟩ := h
  obtain ⟨ms', run'⟩ := h'
  exact ⟨ms ++ ms', run?_trans run run'⟩

theorem Leads.of_completes {c : Call} {a : Agenda Task} {y x' : Instance} (idle : w.layers = [])
    (allowed : w.allows c = true) (outcome : c.begin w.inst = (y, a))
    (completes : Completes a y x') : Leads w { inst := x', locks := w.locksAfter c } := by
  obtain ⟨ms, run, -⟩ := run?_of_completes idle allowed outcome completes
  exact ⟨_, run⟩

/-- A run without requests leads from one world to the other. -/
def Reaches (w w' : World) : Prop :=
  ∃ ms, w.run? ms = some w' ∧ ∀ p, .call (.request p) ∉ ms

theorem Reaches.refl (w : World) : Reaches w w :=
  ⟨[], rfl, fun _ => List.not_mem_nil⟩

theorem Reaches.leads (h : Reaches w w') : Leads w w' := by
  obtain ⟨ms, run, -⟩ := h
  exact ⟨ms, run⟩

theorem Reaches.trans (h : Reaches w w') (h' : Reaches w' w'') : Reaches w w'' := by
  obtain ⟨ms, run, none⟩ := h
  obtain ⟨ms', run', none'⟩ := h'
  refine ⟨ms ++ ms', run?_trans run run', fun p made => ?_⟩
  rcases List.mem_append.mp made with made | made
  · exact none p made
  · exact none' p made

theorem Reaches.of_completes {c : Call} {a : Agenda Task} {y x' : Instance}
    (idle : w.layers = []) (allowed : w.allows c = true) (outcome : c.begin w.inst = (y, a))
    (completes : Completes a y x') (other : ∀ p, c ≠ .request p) :
    Reaches w { inst := x', locks := w.locksAfter c } := by
  obtain ⟨ms, run, none⟩ := run?_of_completes idle allowed outcome completes
  refine ⟨_, run, fun p made => ?_⟩
  rcases List.mem_cons.mp made with e | made
  · exact other p (Move.call.inj e).symm
  · exact none _ made

end World

/-! ## Sections -/

namespace Task

variable {x : Instance} {w : Waker}

theorem resume_of_permit (owned : x.owners ≠ 0) (running : x.state.halted = false)
    (permit : x.wake.permit = true) :
    (resume w).perform x = ({ x with
      wake := {}
      owners := x.owners + 1
      loop := { x.loop with passes := x.loop.passes + 1 } }, [.task (.pass w)]) := by
  simp [perform, Instance.resume, owned, running, WakeEvent.poll, permit, Instance.modifyLoop]

theorem resume_of_calm (owned : x.owners ≠ 0) (running : x.state.halted = false)
    (calm : x.wake.permit = false) :
    (resume w).perform x = ({ x with wake := { permit := false, waker := some w } },
      [.task (.endPoll false)]) := by
  simp [perform, Instance.resume, owned, running, WakeEvent.poll, calm]

theorem pass_of_unserved (running : x.state.halted = false)
    (idle : x.state.free ≤ 0 ∨ x.state.waiting = 0) :
    (pass w).perform x = (x, [.task .disown, .task (.resume w)]) := by
  simp [perform, Instance.pass, running, idle, Instance.endPass]

theorem pass_of_first {p : Nat} {s s' : LockState} {e : Waiter} {ch : Handoff Nat}
    (running : x.state.halted = false) (free : 0 < x.state.free) (waiting : x.state.waiting ≠ 0)
    (scan : x.state.nextInTurn? = (some p, s)) (first : s.grantFirst? p = some (e, s'))
    (channel : x.channels[e.channel]? = some ch) (receiver : ch.receiverGone = false) :
    (pass w).perform x = ({ x with
      state := s'
      owners := x.owners + 1
      grants := x.grants ++ [{ priority := p }]
      channels := x.channels.set e.channel { ch with value := some x.grants.length, waker := none }
      loop := { x.loop with grants := x.loop.grants + 1 }
      log := x.log ++ [.granting p e.ticket s'.free s'.waiting] },
      callWaker ch.waker ++ [.task (.closeSender e.channel), .task (.settle w)]) := by
  simp [perform, Instance.pass, running, Int.not_le.mpr free, waiting, scan, Instance.grantTo,
    first, Instance.deliver, channel, receiver, Instance.addGrant, Instance.report,
    Instance.modifyLoop, Handoff.store]

theorem closeSender_of_full {c g : Nat} {ch : Handoff Nat} (channel : x.channels[c]? = some ch)
    (full : ch.value = some g) :
    (closeSender c).perform x =
      ({ x with channels := x.channels.set c { ch with senderGone := true } }, []) := by
  simp [perform, Instance.closeSender, channel, Handoff.closeSender, full]

theorem settle_of_others (running : x.state.halted = false) (others : x.owners ≠ 1) :
    (settle w).perform x = (x, [.task (.pass w)]) := by
  simp [perform, Instance.settle, running, others]

theorem disown_of_others (others : x.owners - 1 ≠ 0) :
    disown.perform x = ({ x with owners := x.owners - 1 }, []) := by
  simp [perform, Instance.disown, others]

/-- The last clone of a lock takes the slot back with it, and calls for the grant loop if a request
waits. -/
theorem dropLock_of_last {g : Nat} {grant : Grant} (here : x.grants[g]? = some grant)
    (last : grant.clones = 1) (locked : grant.released = false) :
    (dropLock g).perform x = ({ x with
      state := x.state.returnSlot grant.priority
      grants := x.grants.set g { grant with clones := 0, released := true }
      log := x.log ++ [.released grant.priority (x.state.returnSlot grant.priority).free
        (x.state.returnSlot grant.priority).waiting] },
      Instance.wakeLoopIf (0 < (x.state.returnSlot grant.priority).waiting) ++
        [.task .disown]) := by
  have after (grant' : Grant) : (x.grants.set g grant')[g]? = some grant' :=
    getElem?_set_of_some here grant'
  simp [perform, Instance.dropLock, Instance.giveBack, here, last, after, locked, Instance.report]

end Task

/-! ## First sections of calls -/

namespace Instance

theorem request_of_admitted {x : Instance} {p : Nat} (room : p < x.state.lanes.length)
    (alive : x.state.killed = false) (fast : x.state.admitsAtOnce p = true) :
    x.request p = ({ x with
      state := x.state.takeSlot p
      owners := x.owners + 1
      grants := x.grants ++ [{ priority := p }]
      requests := x.requests ++
        [{ priority := p, progress := .settled (some (.granted x.grants.length)) }]
      log := x.log ++
        [.admitted p (x.state.takeSlot p).free ((x.state.takeSlot p).runnersAt p)] }, []) := by
  simp [request, Nat.not_le.mpr room, alive, fast, requestAdmitted, addGrant, report, addRequest]

/-- A request that finds no slot free queues and calls for nothing. -/
theorem request_of_full {x : Instance} {p : Nat} (room : p < x.state.lanes.length)
    (alive : x.state.killed = false) (full : x.state.free ≤ 0) :
    x.request p = ({ x with
      state := x.state.enqueue p x.channels.length
      channels := x.channels ++ [Handoff.empty]
      requests := x.requests ++
        [{ priority := p, progress := .queued x.state.nextTicket x.channels.length }]
      log := x.log ++
        [.queued p x.state.nextTicket (x.state.enqueue p x.channels.length).waiting
          (x.state.enqueue p x.channels.length).demand] }, []) := by
  have slow : x.state.admitsAtOnce p = false := by
    simp [LockState.admitsAtOnce, Int.not_lt.mpr full]
  have still : (x.state.enqueue p x.channels.length).free ≤ 0 := by
    rw [LockState.enqueue_eq]
    exact full
  simp [request, Nat.not_le.mpr room, alive, slow, requestQueued, report, addRequest, wakeLoopIf,
    Int.not_lt.mpr still]

theorem dropRequest_of_granted {x : Instance} {r g : Nat} {q : Request}
    (here : x.requests[r]? = some q) (settled : q.progress = .settled (some (.granted g))) :
    x.dropRequest r =
      ({ x with requests := x.requests.set r { q with progress := .dropped } },
        [.task (.dropLock g)]) := by
  simp [dropRequest, here, settled, setProgress, modify_eq_set_of_getElem? _ here]

/-- A poll of a request whose grant is in its channel takes the grant. -/
theorem poll_of_full {x : Instance} {r c g : Nat} {q : Request} {ticket : UInt64}
    {ch : Handoff Nat} (here : x.requests[r]? = some q) (queued : q.progress = .queued ticket c)
    (channel : x.channels[c]? = some ch) (full : ch.value = some g) (waker : Waker) :
    x.poll r waker = (.ok (some (.granted g)), { x with
      channels := x.channels.set c { ch with value := none, receiverGone := true, waker := none }
      requests := x.requests.set r { q with progress := .finished }
      log := x.log ++ [.received q.priority] }) := by
  simp [poll, here, queued, pollQueued, channel, Handoff.poll, full, Handoff.dropReceiver, report,
    setProgress, modify_eq_set_of_getElem? _ here]

end Instance

/-! ## Whole calls -/

section Calls
variable {x : Instance} {q : Nat} {e : Waiter} {s s' : LockState} {ch : Handoff Nat}

/-- Firing the event stores the permit. -/
theorem completes_wakeLoop (x : Instance) :
    Completes [.task .wakeLoop] x { x with wake := { permit := true, waker := none } } :=
  .work rfl (.callWaker x.wake.waker (.done _))

/-- An owner that goes and leaves others changes nothing else. -/
theorem completes_disown (others : x.owners - 1 ≠ 0) :
    Completes [.task .disown] x { x with owners := x.owners - 1 } :=
  .task (Task.disown_of_others others) (.done _)

/-- A sender that goes marks its channel. -/
theorem completes_closeSender (c : Nat) (x : Instance) :
    Completes [.task (.closeSender c)] x
      { x with channels := x.channels.modify c fun ch => ch.closeSender.1 } := by
  cases channel : x.channels[c]? with
  | none =>
      rw [List.modify_eq_self (List.getElem?_eq_none_iff.mp channel)]
      exact .task (a := []) (by simp [Task.perform, Instance.closeSender, channel]) (.done _)
  | some ch =>
      rw [modify_eq_set_of_getElem? _ channel]
      have outcome : (Task.closeSender c).perform x =
          ({ x with channels := x.channels.set c ch.closeSender.1 },
            FairShare.callWaker ch.closeSender.2) := by
        simp [Task.perform, Instance.closeSender, channel]
      have called := Completes.callWaker ch.closeSender.2
        (.done { x with channels := x.channels.set c ch.closeSender.1 })
      rw [List.append_nil] at called
      exact .task outcome called

/-- Senders that go mark their channels, and nothing else changes. -/
theorem completes_closeAll (waiters : List Waiter) (x : Instance) :
    ∃ channels, Completes (Instance.closeAll waiters) x { x with channels } := by
  induction waiters generalizing x with
  | nil => exact ⟨x.channels, .done x⟩
  | cons e waiters ih =>
      obtain ⟨channels, rest⟩ :=
        ih { x with channels := x.channels.modify e.channel fun ch => ch.closeSender.1 }
      exact ⟨channels, (completes_closeSender e.channel x).append rest⟩

/-- A poll of the loop with one grant to make makes it and waits for the next one. -/
theorem completes_drive (k : Waker) (owned : x.owners ≠ 0) (running : x.state.halted = false)
    (permit : x.wake.permit = true) (free : 0 < x.state.free) (waiting : x.state.waiting ≠ 0)
    (scan : x.state.nextInTurn? = (some q, s)) (first : s.grantFirst? q = some (e, s'))
    (channel : x.channels[e.channel]? = some ch) (receiver : ch.receiverGone = false)
    (running' : s'.halted = false) (idle : s'.free ≤ 0 ∨ s'.waiting = 0) :
    Completes [.task (.resume k)] { x with loop := { x.loop with polling := true } }
      { x with
        state := s'
        wake := { permit := false, waker := some k }
        owners := x.owners + 1
        grants := x.grants ++ [{ priority := q }]
        channels := x.channels.set e.channel
          { ch with value := some x.grants.length, senderGone := true, waker := none }
        loop := { x.loop with
          passes := x.loop.passes + 1
          grants := x.loop.grants + 1
          polling := false
          ended := false }
        log := x.log ++ [.granting q e.ticket s'.free s'.waiting] } := by
  have there (ch' : Handoff Nat) : (x.channels.set e.channel ch')[e.channel]? = some ch' :=
    getElem?_set_of_some channel ch'
  refine .work (Task.resume_of_permit owned running permit) ?_
  refine .work (Task.pass_of_first running free waiting scan first channel receiver) ?_
  rw [List.append_assoc]
  refine .callWaker ch.waker ?_
  refine .work (Task.closeSender_of_full (there _) rfl) ?_
  refine .work (Task.settle_of_others running' (by simp)) ?_
  refine .work (Task.pass_of_unserved running' idle) ?_
  refine .work (Task.disown_of_others (by simp)) ?_
  refine .work (Task.resume_of_calm (by simp) running' rfl) ?_
  refine .work rfl ?_
  rw [List.set_set]
  exact .done _

/-- The last clone of a lock takes its slot back and calls for the loop, if a request waits. -/
theorem completes_dropLock {g : Nat} {grant : Grant} (here : x.grants[g]? = some grant)
    (last : grant.clones = 1) (locked : grant.released = false)
    (back : x.state.returnSlot grant.priority = s) (waiting : 0 < s.waiting)
    (others : x.owners - 1 ≠ 0) :
    ∃ y a, (Task.dropLock g).perform x = (y, a) ∧ Completes a y { x with
      state := s
      wake := { permit := true, waker := none }
      owners := x.owners - 1
      grants := x.grants.set g { grant with clones := 0, released := true }
      log := x.log ++ [.released grant.priority s.free s.waiting] } := by
  subst back
  refine ⟨_, _, Task.dropLock_of_last here last locked, ?_⟩
  rw [Instance.wakeLoopIf, if_pos (decide_eq_true waiting)]
  refine .work rfl ?_
  refine .callWaker x.wake.waker ?_
  refine .work (Task.disown_of_others others) ?_
  exact .done _

end Calls

namespace World

/-- Between calls a poll of the loop with one slot to grant grants it. -/
theorem reaches_of_drive {w : World} {q : Nat} {e : Waiter} {s s' : LockState} {ch : Handoff Nat}
    (idle : w.layers = []) (loopHeld : w.inst.loop.dropped = false)
    (resting : w.inst.loop.polling = false) (owned : w.inst.owners ≠ 0)
    (running : w.inst.state.halted = false) (permit : w.inst.wake.permit = true)
    (free : 0 < w.inst.state.free) (waiting : w.inst.state.waiting ≠ 0)
    (scan : w.inst.state.nextInTurn? = (some q, s)) (first : s.grantFirst? q = some (e, s'))
    (channel : w.inst.channels[e.channel]? = some ch) (receiver : ch.receiverGone = false)
    (running' : s'.halted = false) (full : s'.free ≤ 0) :
    Reaches w
      { inst := { w.inst with
          state := s'
          wake := { permit := false, waker := some .silent }
          owners := w.inst.owners + 1
          grants := w.inst.grants ++ [{ priority := q }]
          channels := w.inst.channels.set e.channel
            { ch with value := some w.inst.grants.length, senderGone := true, waker := none }
          loop := { w.inst.loop with
            passes := w.inst.loop.passes + 1
            grants := w.inst.loop.grants + 1
            polling := false
            ended := false }
          log := w.inst.log ++ [.granting q e.ticket s'.free s'.waiting] }
        locks := w.locks } := by
  have completes := completes_drive .silent owned running permit free waiting scan first channel
    receiver running' (.inl full)
  have allowed : w.allows (.drive .silent) = true := by
    simp [allows, loopHeld, resting]
  exact Reaches.of_completes idle allowed rfl completes (fun p => by simp)

/-- Between calls a poll of a request whose grant is in its channel takes the lock. -/
theorem reaches_of_poll {w : World} {r g : Nat} {q : Request} {ticket : UInt64} {c : Nat}
    {ch : Handoff Nat} (idle : w.layers = []) (here : w.inst.requests[r]? = some q)
    (queued : q.progress = .queued ticket c) (channel : w.inst.channels[c]? = some ch)
    (full : ch.value = some g) :
    Reaches w
      { inst := { w.inst with
          channels := w.inst.channels.set c
            { ch with value := none, receiverGone := true, waker := none }
          requests := w.inst.requests.set r { q with progress := .finished }
          log := w.inst.log ++ [.received q.priority] }
        locks := g :: w.locks } := by
  have polled := Instance.poll_of_full here queued channel full .silent
  have allowed : w.allows (.poll r .silent) = true := by
    simp [allows, holdsRequest, here, queued, handsOver, idle]
  have outcome : (Call.poll r .silent).begin w.inst = (_, []) :=
    congrArg (fun answer => (answer.2, [])) polled
  have taken := Reaches.of_completes idle allowed outcome (.done _) (fun p => by simp)
  simp only [locksAfter, polled] at taken
  exact taken

/-- Between calls a user who holds the one clone of a lock lets it go, and a request that waits
calls for the loop. -/
theorem reaches_of_dropLock {w : World} {g : Nat} {grant : Grant} {s : LockState}
    (idle : w.layers = []) (held : g ∈ w.locks) (here : w.inst.grants[g]? = some grant)
    (last : grant.clones = 1) (locked : grant.released = false)
    (back : w.inst.state.returnSlot grant.priority = s) (waiting : 0 < s.waiting)
    (others : w.inst.owners - 1 ≠ 0) :
    Reaches w
      { inst := { w.inst with
          state := s
          wake := { permit := true, waker := none }
          owners := w.inst.owners - 1
          grants := w.inst.grants.set g { grant with clones := 0, released := true }
          log := w.inst.log ++ [.released grant.priority s.free s.waiting] }
        locks := w.locks.erase g } := by
  obtain ⟨y, a, outcome, completes⟩ := completes_dropLock here last locked back waiting others
  have allowed : w.allows (.dropLock g) = true := by
    simp [allows, lockInUse, idle, held]
  exact Reaches.of_completes idle allowed outcome completes (fun p => by simp)

/-- Between calls a caller lets a request go that holds its grant since it was made, and a request
that waits calls for the loop. -/
theorem reaches_of_dropRequest {w : World} {r g : Nat} {q : Request} {grant : Grant}
    {s : LockState} (idle : w.layers = []) (here : w.inst.requests[r]? = some q)
    (settled : q.progress = .settled (some (.granted g))) (there : w.inst.grants[g]? = some grant)
    (last : grant.clones = 1) (locked : grant.released = false)
    (back : w.inst.state.returnSlot grant.priority = s) (waiting : 0 < s.waiting)
    (others : w.inst.owners - 1 ≠ 0) :
    Reaches w
      { inst := { w.inst with
          state := s
          wake := { permit := true, waker := none }
          owners := w.inst.owners - 1
          grants := w.inst.grants.set g { grant with clones := 0, released := true }
          requests := w.inst.requests.set r { q with progress := .dropped }
          log := w.inst.log ++ [.released grant.priority s.free s.waiting] }
        locks := w.locks } := by
  obtain ⟨y, a, outcome, completes⟩ := completes_dropLock
    (x := { w.inst with requests := w.inst.requests.set r { q with progress := .dropped } })
    there last locked back waiting others
  have allowed : w.allows (.dropRequest r) = true := by
    simp [allows, holdsRequest, here, settled, handsOver, idle]
  refine Reaches.of_completes idle allowed (Instance.dropRequest_of_granted here settled) ?_
    (fun p => by simp)
  rw [← List.append_nil a] at completes
  exact .work outcome completes

end World

end FairShare
