import FairShare.Proofs.Halts
import FairShare.Proofs.Wakeups

/-!
# Answers of the grant loop

A poll of the grant loop has four ways out: it finds the instance gone, it finds it halted, it sees
after a delivery that only its own pass still owns it, or it parks. Between a section that decides
the answer and the return of the poll wakers may run, and for the third way the instance is still
there when the decision is made. What connects the answer with the instance that the poll leaves
behind is that the last owner leaves before anything else happens, and that a poll parks only when
nothing is on its way to it.
-/

namespace FairShare

namespace Instance

/-- The instance was halted, or nobody owns it any more. -/
def Stopped (x : Instance) : Prop :=
  x.state.halted = true ∨ x.owners = 0

/-- The instance is there, and neither a call nor anything to serve is there for its grant loop. -/
structure Parked (x : Instance) : Prop where
  alive : x.isAlive = true
  running : x.state.halted = false
  unserved : ¬x.state.CanServe
  uncalled : x.wake.permit = false

theorem isAlive_eq_false_iff {x : Instance} : x.isAlive = false ↔ x.owners = 0 := by
  simp [isAlive]

theorem Parked.not_stopped {x : Instance} (h : x.Parked) : ¬x.Stopped := by
  rintro (halted | gone)
  · cases h.running.symm.trans halted
  · cases h.alive.symm.trans (isAlive_eq_false_iff.mpr gone)

end Instance

/-- Besides a pending task of a poll, no other is pending. -/
theorem PollCount.not_isOfPoll_rest {x : Instance} {t : Task} {rest : List Task}
    (h : PollCount x (t :: rest)) (isPoll : t.isOfPoll = true) {t' : Task} (pending : t' ∈ rest) :
    t'.isOfPoll = false := by
  unfold PollCount at h
  rw [List.countP_cons_of_pos isPoll] at h
  have most := Bool.toNat_le x.loop.polling
  have none : rest.countP Task.isOfPoll = 0 := by omega
  simpa using List.countP_eq_zero.mp none t' pending

/-- The last task of a poll is one of its own. -/
theorem PollStage.isOfPoll_last {x : Instance} {waker : Waker} {t : Task}
    (stage : PollStage x waker [.task t]) : t.isOfPoll = true := by
  cases stage with
  | goesOn more =>
      obtain ⟨pre, t', goes, e⟩ := more
      obtain ⟨-, rfl⟩ : pre = [] ∧ t = t' := by
        cases pre with
        | nil => simpa using e
        | cons => simp at e
      cases goes <;> rfl
  | waits _ last =>
      cases last
      rfl
  | answered _ _ none => cases none

/-! ## What effects do to the answer -/

section Effects
variable {x x' : Instance} {L L' : List Nat} {sec : Section} {a : Agenda Task}

/-- What there is to do was there before, or a call of the grant loop comes next. -/
theorem Effect.canServe_next (effect : Effect x L sec x' a L') (h : x'.state.CanServe) :
    x.state.CanServe ∨ ∃ more, a = .task .wakeLoop :: more := by
  rcases effect.canServe h with before | called
  · exact .inl before
  obtain ⟨free, waiting⟩ := h
  cases effect with
  | queue =>
      right
      simp [Instance.wakeLoopIf, free]
  | halt | kill => exact .inr ⟨_, rfl⟩
  | release | letGoLast =>
      right
      simp [Instance.wakeLoopIf, waiting]
  | destroy _ alive => simp [LockState.kill, alive, LockState.drain] at waiting
  | withdraw _ _ _ found =>
      left
      have leaves := (LockState.leaves_of_withdraw? found).2
      rw [leaves.frame.2.2.2.1] at free
      rw [leaves.waiting_eq] at waiting
      exact ⟨free, Nat.lt_of_lt_of_le waiting (Nat.sub_le _ _)⟩
  | destroyKilled => exact .inl ⟨free, waiting⟩
  | _ => simp at called

/-- With its last owner the instance goes. -/
theorem Effect.dead_of_last (effect : Effect x L (.task .disown) x' a L') (last : x.owners = 1) :
    x'.owners = 0 := by
  cases effect with
  | disown others => omega
  | destroy | destroyKilled =>
      change x.owners - 1 = 0
      omega
  | letGoMissing lets | letGoClone lets | letGoLast lets => cases lets

/-- The answer of the grant loop is that of the last poll that has ended. -/
theorem Effect.ended_cases (effect : Effect x L sec x' a L') :
    x'.loop.ended = x.loop.ended ∨ sec = .task (.endPoll x'.loop.ended) := by
  cases effect with
  | endPoll => exact .inr rfl
  | _ => exact .inl rfl

/-- A poll is about to end for good when the instance is stopped, or when its last owner leaves
first. -/
theorem Effect.stopped_of_endPoll (effect : Effect x L sec x' a L')
    (ending : .endPoll true ∈ tasksOf a) :
    x'.Stopped ∨ (x'.owners = 1 ∧ ∃ more, a = .task .disown :: more) := by
  cases effect with
  | findGone gone => exact .inl (.inr gone)
  | findHalted _ halted => exact .inl (.inl halted)
  | passHalted halted => exact .inl (.inl halted)
  | tearDown stopped =>
      rcases stopped with halted | last
      · exact .inl (.inl halted)
      · exact .inr ⟨last, _, rfl⟩
  | _ => simp at ending

/-- A poll is about to park when it finds an instance that runs and was not called. -/
theorem Effect.park_of_endPoll (effect : Effect x L sec x' a L')
    (parking : .endPoll false ∈ tasksOf a) :
    (∃ waker, sec = .task (.resume waker)) ∧ a = [.task (.endPoll false)] ∧
      x'.isAlive = true ∧ x'.state = x.state ∧ x.state.halted = false ∧
      x.wake.permit = false ∧ x'.wake.permit = false := by
  cases effect with
  | park owned running permit =>
      refine ⟨⟨_, rfl⟩, rfl, ?_, rfl, running, permit, rfl⟩
      exact decide_eq_true (Nat.pos_of_ne_zero owned)
  | _ => simp at parking

/-- A section of a poll after which nothing is left of the poll gives its answer. -/
theorem Effect.endPoll_of_last {t : Task} (effect : Effect x L (.task t) x' a L')
    (isPoll : t.isOfPoll = true) (last : a = []) : t = .endPoll x'.loop.ended := by
  cases effect with
  | endPoll => rfl
  | findGone | findHalted | park | beginPass | passHalted | passIdle | passStalled | passEmpty
  | grantLost | grantReturned | tearDown | settle => cases last
  | grant => simp at last
  | letGoMissing lets | letGoClone lets | letGoLast lets => cases lets <;> cases isPoll
  | _ => cases isPoll

/-- A pass that is the last owner after a delivery leaves next. -/
theorem Effect.leaves_of_settle {waker : Waker}
    (effect : Effect x L (.task (.settle waker)) x' a L') (last : x.owners = 1) :
    x'.loop = x.loop ∧ x'.owners = 1 ∧ ∃ more, a = .task .disown :: more := by
  cases effect with
  | tearDown => exact ⟨rfl, last, _, rfl⟩
  | settle _ others => exact absurd last others
  | letGoMissing lets | letGoClone lets | letGoLast lets => cases lets

/-- Once the instance is halted, the grant loop leaves the lock alone. -/
theorem Effect.state_of_poll {t : Task} (effect : Effect x L (.task t) x' a L')
    (isPoll : t.isOfPoll = true) (halted : x.state.halted = true) : x'.state = x.state := by
  cases effect with
  | passStalled running | passEmpty running | grantLost running | grantReturned running
  | grant running => cases halted.symm.trans running
  | destroy => cases isPoll
  | letGoMissing lets | letGoClone lets | letGoLast lets => cases lets <;> cases isPoll
  | _ => rfl

end Effects

namespace World

/-- The last owner leaves before anything else happens. -/
def LastLeaves (w : World) : Prop :=
  w.inst.owners = 1 ∧ w.next? = some (.task .disown)

/-- What there is to do for the grant loop is on its way to it: a permit is stored, a pass is at
work, or a call of the loop comes next. Otherwise the last owner is leaving. -/
inductive Attended (w : World) : Prop where
  | permit (stored : w.inst.wake.permit = true)
  | called (first : w.next? = some (.task .wakeLoop))
  | passing {t : Task} (pending : t ∈ w.tasks) (isPass : t.isOfPass = true)
  | leaving (last : w.LastLeaves)

section Runs
variable {c : Config} {x : Instance} {ms ms' : List Move} {w v : World}

/-- A stopped instance stays so. -/
theorem stopped_of_run? (fresh : Instance.create c = .ok x) (run : (start x).run? ms = some w)
    (run' : w.run? ms' = some v) (stopped : w.inst.Stopped) : v.inst.Stopped := by
  rcases stopped with halted | gone
  · exact .inl (halted_of_run? run' halted)
  · exact .inr (dead_of_run? fresh run run' gone)

/-- When the last owner leaves, the instance is gone with the next move. -/
theorem LastLeaves.dead_of_step? {m : Move} (last : w.LastLeaves) (hstep : w.step? m = some v) :
    v.inst.owners = 0 := by
  obtain ⟨rest, a, -, -, effect⟩ := step?_effect hstep
  rw [sectionOf_of_next? hstep last.2] at effect
  exact effect.dead_of_last last.1

/-- An instance without owners has nothing to serve. -/
theorem not_canServe_of_dead (fresh : Instance.create c = .ok x)
    (run : (start x).run? ms = some w) (dead : w.inst.owners = 0) : ¬w.inst.state.CanServe := by
  intro serve
  have running := (next_of_canServe fresh run serve).1
  have halted := halted_of_killed fresh run (killed_of_dead fresh run dead)
  cases running.symm.trans halted

/-- A move keeps what there is to serve attended. -/
theorem Attended.step {m : Move} (h : w.Attended) (serve : w.inst.state.CanServe)
    (running : w.inst.state.halted = false)
    (next : ∃ p s, w.inst.state.nextInTurn? = (some p, s) ∧ w.inst.state.canGrant p = true)
    (hstep : w.step? m = some v) (owned : v.inst.owners ≠ 0) : v.Attended := by
  obtain ⟨rest, a, before, after, first, effect⟩ := step?_effect_first hstep
  cases h with
  | permit stored =>
      rcases effect.wake_cases with same | ⟨-, e⟩ | ⟨_, -, -, none, -⟩ | ⟨_, -, -, begun⟩
      · exact .permit (same ▸ stored)
      · exact .permit (by rw [e])
      · cases stored.symm.trans none
      · exact .passing (after ▸ List.mem_append_left _ begun) rfl
  | called here =>
      rw [sectionOf_of_next? hstep here] at effect
      exact .permit (by rw [effect.wake_of_wakeLoop])
  | passing pending isPass =>
      rw [before] at pending
      rcases List.mem_append.mp pending with now | later
      · rw [Section.mem_tasks_iff.mp now] at effect
        rcases effect.pass_continues isPass serve running next with
          ⟨t', follows, isPass'⟩ | ⟨last, same, more, e⟩
        · exact .passing (after ▸ List.mem_append_left _ follows) isPass'
        · apply Attended.leaving
          constructor
          · rw [same]
            exact last
          · exact first _ _ e
      · exact .passing (after ▸ List.mem_append_right _ later) isPass
  | leaving last => exact absurd (last.dead_of_step? hstep) owned

/-- Throughout a run, what there is to serve is attended. -/
theorem attended (fresh : Instance.create c = .ok x) (run : (start x).run? ms = some w)
    (serve : w.inst.state.CanServe) : w.Attended := by
  refine run?_induction (P := fun _ v => v.inst.state.CanServe → v.Attended) ?_ ?_ run serve
  · rw [eq_ofConfig_of_create fresh]
    rintro ⟨-, waiting⟩
    cases waiting
  · intro ms v m v' hv attends hstep serve'
    have hv' := run?_append_singleton_eq_some_iff.mpr ⟨v, hv, hstep⟩
    obtain ⟨rest, a, -, -, first, effect⟩ := step?_effect_first hstep
    rcases effect.canServe_next serve' with serve | ⟨more, e⟩
    · obtain ⟨running, next⟩ := next_of_canServe fresh hv serve
      apply (attends serve).step serve running next hstep
      intro dead
      exact not_canServe_of_dead fresh hv' dead serve'
    · exact .called (first _ _ e)

/-- A poll that finds no permit finds nothing to serve. -/
theorem not_canServe_of_resume (fresh : Instance.create c = .ok x)
    (run : (start x).run? ms = some w) {waker : Waker} {rest : List Task}
    (pending : w.tasks = .resume waker :: rest)
    (next : w.next? = some (.task (.resume waker))) (uncalled : w.inst.wake.permit = false) :
    ¬w.inst.state.CanServe := by
  intro serve
  cases attended fresh run serve with
  | permit stored => cases uncalled.symm.trans stored
  | called first => cases next.symm.trans first
  | passing pass isPass =>
      have count := pollCount fresh run
      rw [pending] at count pass
      rcases List.mem_cons.mp pass with rfl | later
      · cases isPass
      · have isPoll := Task.isOfPoll_of_isOfPass isPass
        cases isPoll.symm.trans (count.not_isOfPoll_rest rfl later)
  | leaving last => cases next.symm.trans last.2

/-- The answer that a poll gives or is about to give fits the instance. -/
structure Answers (w : World) : Prop where
  /-- The last poll that has ended for good has left a stopped instance. -/
  ended : w.inst.loop.ended = true → w.inst.Stopped
  /-- A poll that is about to end for good leaves a stopped instance. -/
  ending : .endPoll true ∈ w.tasks → w.inst.Stopped ∨ w.LastLeaves
  /-- A poll that is about to park does so next. -/
  parking : .endPoll false ∈ w.tasks →
    w.inst.Parked ∧ w.next? = some (.task (.endPoll false))
  /-- A poll that returns that it waits leaves a parked instance. -/
  parked : ∀ waker made below, w.layers = .call (.drive waker) [] made :: below →
    w.inst.loop.ended = false → w.inst.Parked

namespace Answers

theorem step_ended {m : Move} (h : w.Answers) (fresh : Instance.create c = .ok x)
    (run : (start x).run? ms = some w) (hstep : w.step? m = some v)
    (ended : v.inst.loop.ended = true) : v.inst.Stopped := by
  have run' := (run?_singleton w m).trans hstep
  obtain ⟨rest, a, before, -, effect⟩ := step?_effect hstep
  rcases effect.ended_cases with same | ends
  · exact stopped_of_run? fresh run run' (h.ended (same.symm.trans ended))
  · rw [ended] at ends
    rw [ends] at before
    have ending : .endPoll true ∈ w.tasks := before ▸ List.mem_cons_self
    rcases h.ending ending with stopped | last
    · exact stopped_of_run? fresh run run' stopped
    · exact .inr (last.dead_of_step? hstep)

theorem step_ending {m : Move} (h : w.Answers) (fresh : Instance.create c = .ok x)
    (run : (start x).run? ms = some w) (hstep : w.step? m = some v)
    (ending : .endPoll true ∈ v.tasks) : v.inst.Stopped ∨ v.LastLeaves := by
  have run' := (run?_singleton w m).trans hstep
  obtain ⟨rest, a, before, after, first, effect⟩ := step?_effect_first hstep
  rw [after] at ending
  rcases List.mem_append.mp ending with now | later
  · rcases effect.stopped_of_endPoll now with stopped | ⟨last, more, e⟩
    · exact .inl stopped
    · exact .inr ⟨last, first _ _ e⟩
  · left
    rcases h.ending (before ▸ List.mem_append_right _ later) with stopped | last
    · exact stopped_of_run? fresh run run' stopped
    · exact .inr (last.dead_of_step? hstep)

theorem step_parking {m : Move} (h : w.Answers) (fresh : Instance.create c = .ok x)
    (run : (start x).run? ms = some w) (hstep : w.step? m = some v)
    (parking : .endPoll false ∈ v.tasks) :
    v.inst.Parked ∧ v.next? = some (.task (.endPoll false)) := by
  obtain ⟨rest, a, before, after, first, effect⟩ := step?_effect_first hstep
  rw [after] at parking
  rcases List.mem_append.mp parking with now | later
  · obtain ⟨⟨waker, resumes⟩, e, alive, same, running, permit, uncalled⟩ :=
      effect.park_of_endPoll now
    rw [resumes] at before
    refine ⟨⟨alive, same ▸ running, ?_, uncalled⟩, first _ _ e⟩
    rw [same]
    exact not_canServe_of_resume fresh run before (next?_of_sectionOf resumes) permit
  · exfalso
    -- two tasks of a poll would be pending
    have next := (h.parking (before ▸ List.mem_append_right _ later)).2
    have count := pollCount fresh run
    rw [before, sectionOf_of_next? hstep next] at count
    cases count.not_isOfPoll_rest rfl later

theorem step_parked {m : Move} (h : w.Answers) (run : (start x).run? ms = some w)
    (hstep : w.step? m = some v) {waker : Waker} {made : Option Nat} {below : List Layer}
    (returns : v.layers = .call (.drive waker) [] made :: below)
    (waits : v.inst.loop.ended = false) : v.inst.Parked := by
  have stages := pollStages run
  have goesOn : ¬(Layer.call (.drive waker) [] made).GoesOn := by
    intro goes
    obtain ⟨pre, t, -, e⟩ := goes waker [] made rfl
    simp at e
  rcases step?_cases hstep with ⟨c, rfl, -, -, rfl⟩ | ⟨c, t, rest, made', under, rfl, hl, rfl⟩ |
    ⟨c, k, rest, made', under, rfl, hl, rfl⟩ | ⟨k, under, rfl, hl, rfl⟩ |
    ⟨c, made', under, rfl, hl, rfl⟩
  · cases returns
  · obtain ⟨e, rfl, -⟩ : (.call c ((t.perform w.inst).2 ++ rest) made' : Layer) =
        .call (.drive waker) [] made ∧ under = below ∧ True := by simpa using returns
    obtain ⟨rfl, none, -⟩ := Layer.call.inj e
    obtain ⟨last, rfl⟩ := List.append_eq_nil_iff.mp none
    have isPoll := (stages.innermost _ _ _ _ hl).isOfPoll_last
    have effect := t.effect_perform w.inst w.locks
    have answer := effect.endPoll_of_last isPoll last
    rw [waits] at answer
    subst answer
    have parking : .endPoll false ∈ w.tasks := by
      simp [tasks, hl, Layer.agenda]
    obtain ⟨parked, -⟩ := h.parking parking
    exact ⟨parked.alive, parked.running, parked.unserved, parked.uncalled⟩
  · cases returns
  · have below := stages.below
    rw [hl, List.tail_cons] at below
    rw [show under = _ from returns] at below
    exact absurd (below _ (.head _)) goesOn
  · have below := stages.below
    rw [hl, List.tail_cons] at below
    rw [show under = _ from returns] at below
    exact absurd (below _ (.head _)) goesOn

/-- Every move keeps the answers fitting. -/
theorem step {m : Move} (h : w.Answers) (fresh : Instance.create c = .ok x)
    (run : (start x).run? ms = some w) (hstep : w.step? m = some v) : v.Answers where
  ended := h.step_ended fresh run hstep
  ending := h.step_ending fresh run hstep
  parking := h.step_parking fresh run hstep
  parked _ _ _ returns := h.step_parked run hstep returns

end Answers

/-- The answers of polls fit the instance throughout a run. -/
theorem answers (fresh : Instance.create c = .ok x) (run : (start x).run? ms = some w) :
    w.Answers := by
  refine run?_induction (P := fun _ v => v.Answers) ?_ ?_ run
  · rw [eq_ofConfig_of_create fresh]
    constructor
    · intro ended
      cases ended
    · intro ending
      cases ending
    · intro parking
      cases parking
    · intro waker made below returns
      cases returns
  · intro ms v m v' hv fits hstep
    exact fits.step fresh hv hstep

/-- When a poll of the grant loop returns, it has answered that there is nothing left to do, ever,
exactly if the instance is stopped, and otherwise it is parked. -/
theorem ended_or_parked (fresh : Instance.create c = .ok x) (run : (start x).run? ms = some w)
    {waker : Waker} {made : Option Nat} {below : List Layer}
    (returns : w.layers = .call (.drive waker) [] made :: below) :
    w.inst.loop.ended = true ∧ w.inst.Stopped ∨
      w.inst.loop.ended = false ∧ w.inst.Parked ∧ w.inst.wake.waker = some waker := by
  have fits := answers fresh run
  cases answer : w.inst.loop.ended with
  | true => exact .inl ⟨rfl, fits.ended answer⟩
  | false =>
      right
      have waits : w.ReturnsWaiting waker := ⟨⟨made, below, returns⟩, answer⟩
      exact ⟨rfl, fits.parked _ _ _ returns answer, (waker_of_returnsWaiting run waits).1⟩

/-- A pass that is the last owner after a delivery ends its poll and takes the instance with it. -/
theorem dead_of_settle (fresh : Instance.create c = .ok x) (run : (start x).run? ms = some w)
    {waker : Waker} (next : w.next? = some (.task (.settle waker))) (last : w.inst.owners = 1)
    (run' : w.run? ms' = some v) (rests : v.inst.loop.polling = false) : v.inst.owners = 0 := by
  have polling : w.inst.loop.polling = true := by
    by_contra resting
    rw [Bool.not_eq_true] at resting
    cases (pollCount fresh run).not_isOfPoll resting (mem_tasks_of_next? next)
  have way : v.inst.owners = 0 ∨ v.inst.loop.polling = true ∧ (v = w ∨ v.LastLeaves) := by
    refine run?_induction (P := fun _ v => v.inst.owners = 0 ∨
      v.inst.loop.polling = true ∧ (v = w ∨ v.LastLeaves)) (.inr ⟨polling, .inl rfl⟩) ?_ run'
    rintro ms' u m u' hu (dead | ⟨polling, rfl | leaves⟩) hstep
    · exact .inl (dead_of_run? fresh (run?_trans run hu) ((run?_singleton u m).trans hstep) dead)
    · right
      obtain ⟨rest, a, -, -, first, effect⟩ := step?_effect_first hstep
      rw [sectionOf_of_next? hstep next] at effect
      obtain ⟨loop, owners, more, e⟩ := effect.leaves_of_settle last
      exact ⟨loop ▸ polling, .inr ⟨owners, first _ _ e⟩⟩
    · exact .inl (leaves.dead_of_step? hstep)
  rcases way with dead | ⟨polling, -⟩
  · exact dead
  · cases rests.symm.trans polling

/-- What the answer of a poll of the grant loop says of the instance that the poll leaves behind,
whatever wakers did meanwhile: there is nothing left to do, ever, or the poll waits with its waker
registered. So a loop that is polled on until it ends misses nothing. -/
theorem poll_answers (fresh : Instance.create c = .ok x) (run : (start x).run? ms = some w) :
    (∀ waker made below, w.layers = .call (.drive waker) [] made :: below →
      (w.inst.loop.ended = true ↔ w.inst.state.halted = true ∨ w.inst.isAlive = false) ∧
      (w.inst.loop.ended = true → ∀ ms' v waker' made' below', w.run? ms' = some v →
        v.layers = .call (.drive waker') [] made' :: below' → v.inst.loop.ended = true) ∧
      (w.inst.loop.ended = false → w.inst.isAlive = true ∧ w.inst.state.halted = false ∧
        (w.inst.state.free ≤ 0 ∨ w.inst.state.waiting = 0) ∧ w.inst.wake.permit = false ∧
        w.inst.wake.waker = some waker)) ∧
    (∀ waker, w.next? = some (.task (.settle waker)) → w.inst.owners = 1 →
      ∀ ms' v, w.run? ms' = some v → v.inst.loop.polling = false → v.inst.isAlive = false) ∧
    (w.inst.state.halted = true ∨ w.inst.state.killed = true → ∀ ms' v, w.run? ms' = some v →
      v.inst.grants.length = w.inst.grants.length ∧
      ∀ t v', v.next? = some (.task t) → t.isOfPoll = true → v.step? .work = some v' →
        v'.inst.state = v.inst.state) := by
  refine ⟨?_, ?_, ?_⟩
  · intro waker made below returns
    rcases ended_or_parked fresh run returns with ⟨ended, stopped⟩ | ⟨waits, parked, registered⟩
    · refine ⟨?_, ?_, ?_⟩
      · rw [Instance.isAlive_eq_false_iff]
        exact iff_of_true ended stopped
      · intro _ ms' v waker' made' below' run' returns'
        have stopped' := stopped_of_run? fresh run run' stopped
        rcases ended_or_parked fresh (run?_trans run run') returns' with
          ⟨ended', -⟩ | ⟨-, parked', -⟩
        · exact ended'
        · exact absurd stopped' parked'.not_stopped
      · intro waits
        cases ended.symm.trans waits
    · refine ⟨?_, ?_, ?_⟩
      · rw [Instance.isAlive_eq_false_iff]
        exact iff_of_false (by simp [waits]) parked.not_stopped
      · intro ended
        cases ended.symm.trans waits
      · intro _
        refine ⟨parked.alive, parked.running, ?_, parked.uncalled, registered⟩
        by_contra busy
        apply parked.unserved
        constructor <;> omega
  · intro waker next last ms' v run' rests
    exact Instance.isAlive_eq_false_iff.mpr (dead_of_settle fresh run next last run' rests)
  · intro stopped ms' v run'
    have halted : w.inst.state.halted = true :=
      stopped.elim id (halted_of_killed fresh run)
    refine ⟨(grants_of_halted fresh run halted run').1, ?_⟩
    intro t v' next isPoll hstep
    obtain ⟨rest, a, -, -, effect⟩ := step?_effect hstep
    rw [sectionOf_of_next? hstep next] at effect
    exact effect.state_of_poll isPoll (halted_of_run? run' halted)

/-- A poll that finds nothing to do and parks; a delivery whose waker takes the grant, gives it back
and lets the last handle go; and a poll of a halted lock. -/
theorem poll_answers_of_delivery :
    (∃ w, (start (.ofConfig { concurrency := 1, weights := [1] })).run?
        [.call (.request 0), .callEnds, .call (.drive .silent), .work, .work] = some w ∧
      w.inst.loop.ended = false ∧ w.inst.wake.waker = some .silent) ∧
    (∃ w v, (start (.ofConfig { concurrency := 1, weights := [1] })).run?
        [.call (.request 0), .callEnds, .call (.request 0), .callEnds, .call (.poll 0 .silent),
          .callEnds, .call (.poll 1 (.named "a")), .callEnds, .call (.dropLock 0), .work, .work,
          .callEnds, .call (.drive .silent), .work, .work, .wake (.named "a"),
          .call (.poll 1 .silent), .callEnds, .call (.dropLock 1), .work, .callEnds,
          .call .dropHandle, .work, .callEnds, .wakerEnds, .work] = some w ∧
      w.next? = some (.task (.settle .silent)) ∧ w.inst.owners = 1 ∧
      w.run? [.work, .work, .work, .work] = some v ∧ v.inst.isAlive = false) ∧
    ∃ w v, (start (.ofConfig { concurrency := 1, weights := [1] })).run?
        [.call (.request 0), .callEnds, .call .halt, .work, .callEnds, .call (.drive .silent)] =
          some w ∧
      w.inst.state.halted = true ∧ w.next? = some (.task (.resume .silent)) ∧
      w.step? .work = some v ∧ v.inst.state = w.inst.state := by
  have parks : (start (.ofConfig { concurrency := 1, weights := [1] })).run?
      [.call (.request 0), .callEnds, .call (.drive .silent), .work, .work] = some _ := rfl
  have delivers : (start (.ofConfig { concurrency := 1, weights := [1] })).run?
      [.call (.request 0), .callEnds, .call (.request 0), .callEnds, .call (.poll 0 .silent),
        .callEnds, .call (.poll 1 (.named "a")), .callEnds, .call (.dropLock 0), .work, .work,
        .callEnds, .call (.drive .silent), .work, .work, .wake (.named "a"),
        .call (.poll 1 .silent), .callEnds, .call (.dropLock 1), .work, .callEnds,
        .call .dropHandle, .work, .callEnds, .wakerEnds, .work] = some _ := rfl
  have halts : (start (.ofConfig { concurrency := 1, weights := [1] })).run?
      [.call (.request 0), .callEnds, .call .halt, .work, .callEnds, .call (.drive .silent)] =
        some _ := rfl
  obtain ⟨returned, -, -⟩ := poll_answers (c := { concurrency := 1, weights := [1] }) rfl parks
  obtain ⟨-, ended, -⟩ := poll_answers (c := { concurrency := 1, weights := [1] }) rfl delivers
  obtain ⟨-, -, stopped⟩ := poll_answers (c := { concurrency := 1, weights := [1] }) rfl halts
  refine ⟨⟨_, parks, rfl, ?_⟩, ⟨_, _, delivers, rfl, rfl, rfl, ?_⟩,
    ⟨_, _, halts, rfl, rfl, rfl, ?_⟩⟩
  · exact ((returned .silent _ _ rfl).2.2 rfl).2.2.2.2
  · exact ended .silent rfl rfl [.work, .work, .work, .work] _ rfl rfl
  · exact (stopped (.inl rfl) [] _ rfl).2 _ _ rfl rfl rfl

end Runs

end World

end FairShare
