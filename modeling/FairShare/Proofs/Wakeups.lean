import FairShare.Proofs.Polls
import FairShare.Proofs.Rounds

/-!
# Wakeups of the grant loop

The grant loop is called when there may be something for it to do: a free slot and a waiting
request at once, or its end. The call is a permit that the next poll takes, and the waker of a poll
that waits. Several calls may come to one, and they are made after the section that causes them, so
between the two the call is a pending task.
-/

namespace FairShare

/-- Whether the task belongs to a pass of the grant loop. -/
def Task.isOfPass : Task → Bool
  | pass _ | settle _ => true
  | _ => false

/-- There is something to do for the grant loop: to serve a request, or to end. -/
def Instance.CallsLoop (x : Instance) : Prop :=
  x.state.CanServe ∨ x.state.halted = true ∨ x.state.killed = true ∨ x.isAlive = false

/-- Nobody has a handle or holds a slot. -/
def Instance.Deserted (x : Instance) : Prop :=
  x.handles = 0 ∧ ∀ g ∈ x.grants, g.released = true

/-- A slot that can be given to a request is not overlooked: the grant loop was called, is about to
be called, or is at it, or nobody is left to hold the instance. -/
inductive OnCall (x : Instance) (tasks : List Task) : Prop where
  | permit (stored : x.wake.permit = true)
  | called (pending : .wakeLoop ∈ tasks)
  | passing {t : Task} (pending : t ∈ tasks) (isPass : t.isOfPass = true)
  | deserted (left : x.Deserted)

/-- What there is to do for the grant loop is on call. -/
structure WakeAccount (x : Instance) (tasks : List Task) : Prop where
  /-- A stored permit leaves no waker registered. -/
  single : x.wake.permit = true → x.wake.waker = none
  /-- A free slot and a waiting request are on call. -/
  served : x.state.CanServe → OnCall x tasks
  /-- A halt is on call. -/
  halted : x.state.halted = true → x.wake.waker ≠ none → .wakeLoop ∈ tasks

/-! ## What effects do to what there is to do -/

section Effects
variable {x x' : Instance} {L L' : List Nat} {sec : Section} {a : Agenda Task}

/-- A halt comes with a call of the grant loop. -/
theorem Effect.halts (effect : Effect x L sec x' a L') (h : x'.state.halted = true) :
    x.state.halted = true ∨ .wakeLoop ∈ tasksOf a := by
  cases effect with
  | halt | kill => exact .inr (.head _)
  | destroy =>
      right
      simp
  | queue =>
      rw [LockState.enqueue_eq] at h
      exact .inl h
  | withdraw _ _ _ found =>
      rw [(LockState.leaves_of_withdraw? found).2.frame.2.2.1] at h
      exact .inl h
  | passStalled _ _ _ scan | passEmpty _ _ _ scan =>
      obtain ⟨turn, rfl⟩ := LockState.eq_turn_of_nextInTurn? scan
      exact .inl h
  | grantLost _ _ _ scan first | grantReturned _ _ _ scan first | grant _ _ _ scan first =>
      obtain ⟨turn, s, rfl, leaves, rfl⟩ := LockState.turn_leaves_take scan first
      exact .inl (leaves.frame.2.2.1.symm.trans h)
  | _ => exact .inl h

/-- What there is to do was there before, or comes with a call of the grant loop. -/
theorem Effect.canServe (effect : Effect x L sec x' a L') (h : x'.state.CanServe) :
    x.state.CanServe ∨ .wakeLoop ∈ tasksOf a := by
  obtain ⟨free, waiting⟩ := h
  cases effect with
  | grantAtOnce =>
      left
      change 0 < x.state.free - 1 at free
      exact ⟨by omega, waiting⟩
  | queue =>
      right
      simp [free]
  | halt | kill => exact .inr (.head _)
  | destroy =>
      right
      simp
  | release | letGoLast =>
      right
      simp [waiting]
  | withdraw _ _ _ found =>
      left
      have leaves := (LockState.leaves_of_withdraw? found).2
      rw [leaves.frame.2.2.2.1] at free
      rw [leaves.waiting_eq] at waiting
      exact ⟨free, Nat.lt_of_lt_of_le waiting (Nat.sub_le _ _)⟩
  | passStalled _ _ _ scan | passEmpty _ _ _ scan =>
      obtain ⟨turn, rfl⟩ := LockState.eq_turn_of_nextInTurn? scan
      exact .inl ⟨free, waiting⟩
  | grantLost _ free' waiting' | grantReturned _ free' waiting' | grant _ free' waiting' =>
      exact .inl ⟨free', Nat.pos_of_ne_zero waiting'⟩
  | _ => exact .inl ⟨free, waiting⟩

/-- The wake event changes by a call of the grant loop, by a poll that waits, and by a poll that
begins a pass. -/
theorem Effect.wake_cases (effect : Effect x L sec x' a L') :
    x'.wake = x.wake ∨
    (sec = .task .wakeLoop ∧ x'.wake = { permit := true, waker := none }) ∨
    (∃ waker, sec = .task (.resume waker) ∧ x.state.halted = false ∧ x.wake.permit = false ∧
      x'.wake = { permit := false, waker := some waker }) ∨
    (∃ waker, sec = .task (.resume waker) ∧ x'.wake = { permit := false, waker := none } ∧
      .pass waker ∈ tasksOf a) := by
  cases effect with
  | wakeLoop => exact .inr (.inl ⟨rfl, rfl⟩)
  | park _ running permit => exact .inr (.inr (.inl ⟨_, rfl, running, permit, rfl⟩))
  | beginPass => exact .inr (.inr (.inr ⟨_, rfl, rfl, .head _⟩))
  | _ => exact .inl rfl

/-- A call of the grant loop leaves a permit and no waker. -/
theorem Effect.wake_of_wakeLoop (effect : Effect x L (.task .wakeLoop) x' a L') :
    x'.wake = { permit := true, waker := none } := by
  cases effect with
  | wakeLoop => rfl
  | letGoMissing lets | letGoClone lets | letGoLast lets => cases lets

/-- Without handles and held slots only a pass brings any back. -/
theorem Effect.deserted (effect : Effect x L sec x' a L')
    (unpassed : ∀ t ∈ sec.tasks, t.isOfPass = false) (h : x.Deserted) : x'.Deserted := by
  obtain ⟨none, released⟩ := h
  have replaced : ∀ {g : Nat} {grant grant' : Grant}, x.grants[g]? = some grant →
      (grant.released = true → grant'.released = true) →
      ∀ old ∈ x.grants.set g grant', old.released = true := by
    intro g grant grant' here kept old member
    rcases List.mem_or_eq_of_mem_set member with before | rfl
    · exact released old before
    · exact kept (released grant (List.mem_of_getElem? here))
  cases effect with
  | grantAtOnce handle | cloneHandle handle => exact absurd none (Nat.ne_of_gt handle)
  | dropHandle handle => exact absurd none (Nat.ne_of_gt handle)
  | release _ here => exact ⟨none, replaced here fun _ => rfl⟩
  | cloneLock _ here => exact ⟨none, replaced here fun kept => kept⟩
  | letGoClone _ here => exact ⟨none, replaced here fun kept => kept⟩
  | letGoLast _ here => exact ⟨none, replaced here fun _ => rfl⟩
  | grantLost | grantReturned | grant =>
      exact absurd (unpassed _ (.head _)) (by simp [Task.isOfPass])
  | _ => exact ⟨none, released⟩

/-- A pass that finds something to do goes on, unless it is the last owner, which then leaves at
once. -/
theorem Effect.pass_continues {t : Task} (effect : Effect x L (.task t) x' a L')
    (isPass : t.isOfPass = true) (serve : x.state.CanServe) (running : x.state.halted = false)
    (next : ∃ p s', x.state.nextInTurn? = (some p, s') ∧ x.state.canGrant p = true) :
    (∃ t' ∈ tasksOf a, t'.isOfPass = true) ∨
      (x.owners = 1 ∧ x' = { x with log := x'.log } ∧ ∃ more, a = .task .disown :: more) := by
  obtain ⟨p, s', found, able⟩ := next
  cases effect with
  | passHalted halted => cases running.symm.trans halted
  | passIdle _ idle =>
      obtain ⟨free, waiting⟩ := serve
      omega
  | passStalled _ _ _ scan => cases found.symm.trans scan
  | passEmpty _ _ _ scan empty =>
      cases found.symm.trans scan
      obtain ⟨turn, rfl⟩ := LockState.eq_turn_of_nextInTurn? scan
      have none := LockState.grantFirst?_eq_none_iff.mp empty
      change x.state.queueAt p = [] at none
      simp [LockState.canGrant, none] at able
  | @grantLost waker | @grantReturned waker | @grant waker =>
      exact .inl ⟨.settle waker, by simp, rfl⟩
  | settle => exact .inl ⟨_, .head _, rfl⟩
  | tearDown stopped =>
      rcases stopped with halted | last
      · cases running.symm.trans halted
      · exact .inr ⟨last, rfl, _, rfl⟩
  | letGoMissing lets | letGoClone lets | letGoLast lets => cases lets <;> cases isPass
  | _ => cases isPass

/-- A pass that finds something to do goes on, unless nobody else is left to hold the instance. -/
theorem Effect.pass_goesOn {t : Task} {rest : List Task} (effect : Effect x L (.task t) x' a L')
    (isPass : t.isOfPass = true) (serve : x.state.CanServe) (running : x.state.halted = false)
    (next : ∃ p s', x.state.nextInTurn? = (some p, s') ∧ x.state.canGrant p = true)
    (owners : OwnerCount x (t :: rest)) : OnCall x' (tasksOf a ++ rest) := by
  rcases effect.pass_continues isPass serve running next with ⟨t', pending, isPass'⟩ | ⟨last, e, -⟩
  · exact .passing (List.mem_append_left _ pending) isPass'
  · have isOwner : t.isOwner = true := by
      cases t with
      | pass | settle => rfl
      | _ => cases isPass
    unfold OwnerCount at owners
    rw [last, List.countP_cons_of_pos isOwner] at owners
    apply OnCall.deserted
    rw [e]
    constructor
    · change x.handles = 0
      omega
    · have none : x.grants.countP Grant.isOwner = 0 := by omega
      intro g member
      simpa [Grant.isOwner] using List.countP_eq_zero.mp none g member

/-- Outside of polls the wake event changes only by a call of the grant loop. -/
theorem Effect.wake_of_unpolled (effect : Effect x L sec x' a L')
    (unpolled : ∀ t ∈ sec.tasks, t.isOfPoll = false) :
    x'.wake = x.wake ∨ (sec = .task .wakeLoop ∧ x'.wake = { permit := true, waker := none }) := by
  rcases effect.wake_cases with same | called | ⟨_, rfl, -⟩ | ⟨_, rfl, -⟩
  · exact .inl same
  · exact .inr called
  · exact absurd (unpolled _ (.head _)) (by simp [Task.isOfPoll])
  · exact absurd (unpolled _ (.head _)) (by simp [Task.isOfPoll])

/-- A pass begins in a poll. -/
theorem Effect.passes_of_unpolled (effect : Effect x L sec x' a L')
    (unpolled : ∀ t ∈ sec.tasks, t.isOfPoll = false) : x'.loop.passes = x.loop.passes := by
  cases effect with
  | beginPass => exact absurd (unpolled _ (.head _)) (by simp [Task.isOfPoll])
  | _ => rfl

/-- A poll of a running instance that finds a permit begins a pass. -/
theorem Effect.passes_of_resume {waker : Waker}
    (effect : Effect x L (.task (.resume waker)) x' a L') (owned : x.owners ≠ 0)
    (running : x.state.halted = false) (permit : x.wake.permit = true) :
    x'.loop.passes = x.loop.passes + 1 := by
  cases effect with
  | findGone gone => exact absurd gone owned
  | findHalted _ halted => cases running.symm.trans halted
  | park _ _ none => cases permit.symm.trans none
  | beginPass => rfl
  | letGoMissing lets | letGoClone lets | letGoLast lets => cases lets

end Effects

namespace WakeAccount

variable {x x' : Instance} {L L' : List Nat} {sec : Section} {a : Agenda Task} {rest : List Task}

theorem keeps_single (effect : Effect x L sec x' a L')
    (h : x.wake.permit = true → x.wake.waker = none) (permit : x'.wake.permit = true) :
    x'.wake.waker = none := by
  rcases effect.wake_cases with same | ⟨-, e⟩ | ⟨_, -, -, -, e⟩ | ⟨_, -, e, -⟩
  · rw [same] at permit ⊢
    exact h permit
  · rw [e]
  · rw [e] at permit
    cases permit
  · rw [e]

/-- What was on call stays so while there is something to serve. -/
theorem keeps_onCall (effect : Effect x L sec x' a L') (serve : x.state.CanServe)
    (running : x.state.halted = false)
    (next : ∃ p s', x.state.nextInTurn? = (some p, s') ∧ x.state.canGrant p = true)
    (owners : OwnerCount x (sec.tasks ++ rest)) (h : OnCall x (sec.tasks ++ rest)) :
    OnCall x' (tasksOf a ++ rest) := by
  have passing : ∀ t ∈ sec.tasks, t.isOfPass = true → OnCall x' (tasksOf a ++ rest) := by
    intro t now isPass
    obtain rfl := Section.mem_tasks_iff.mp now
    exact effect.pass_goesOn isPass serve running next owners
  cases h with
  | permit stored =>
      rcases effect.wake_cases with same | ⟨-, e⟩ | ⟨_, -, -, none, -⟩ | ⟨_, -, -, begun⟩
      · exact .permit (same ▸ stored)
      · exact .permit (by rw [e])
      · cases stored.symm.trans none
      · exact .passing (List.mem_append_left _ begun) rfl
  | called pending =>
      rcases List.mem_append.mp pending with now | later
      · obtain rfl := Section.mem_tasks_iff.mp now
        exact .permit (by rw [effect.wake_of_wakeLoop])
      · exact .called (List.mem_append_right _ later)
  | passing pending isPass =>
      rcases List.mem_append.mp pending with now | later
      · exact passing _ now isPass
      · exact .passing (List.mem_append_right _ later) isPass
  | deserted left =>
      by_cases atPass : ∃ t ∈ sec.tasks, t.isOfPass = true
      · obtain ⟨t, now, isPass⟩ := atPass
        exact passing t now isPass
      · apply OnCall.deserted
        apply effect.deserted _ left
        intro t now
        by_contra isPass
        exact atPass ⟨t, now, by simpa using isPass⟩

theorem keeps_halted (effect : Effect x L sec x' a L')
    (h : x.state.halted = true → x.wake.waker ≠ none → .wakeLoop ∈ sec.tasks ++ rest)
    (halted' : x'.state.halted = true) (registered' : x'.wake.waker ≠ none) :
    .wakeLoop ∈ tasksOf a ++ rest := by
  rcases effect.halts halted' with halted | called
  · rcases effect.wake_cases with same | ⟨-, e⟩ | ⟨_, -, running, -⟩ | ⟨_, -, e, -⟩
    · rw [same] at registered'
      rcases List.mem_append.mp (h halted registered') with now | later
      · obtain rfl := Section.mem_tasks_iff.mp now
        rw [← same, effect.wake_of_wakeLoop] at registered'
        exact absurd rfl registered'
      · exact List.mem_append_right _ later
    · rw [e] at registered'
      exact absurd rfl registered'
    · cases running.symm.trans halted
    · rw [e] at registered'
      exact absurd rfl registered'
  · exact List.mem_append_left _ called

/-- Every effect keeps the account. -/
theorem keeps (effect : Effect x L sec x' a L')
    (next : x.state.CanServe → x.state.halted = false ∧
      ∃ p s', x.state.nextInTurn? = (some p, s') ∧ x.state.canGrant p = true)
    (owners : OwnerCount x (sec.tasks ++ rest)) (h : WakeAccount x (sec.tasks ++ rest)) :
    WakeAccount x' (tasksOf a ++ rest) := by
  constructor
  · exact keeps_single effect h.single
  · intro serve'
    rcases effect.canServe serve' with serve | called
    · obtain ⟨running, found⟩ := next serve
      exact keeps_onCall effect serve running found owners (h.served serve)
    · exact .called (List.mem_append_left _ called)
  · exact keeps_halted effect h.halted

end WakeAccount

/-- A task of a pass is one of a poll. -/
theorem Task.isOfPoll_of_isOfPass {t : Task} (h : t.isOfPass = true) : t.isOfPoll = true := by
  cases t with
  | pass | settle => rfl
  | _ => cases h

namespace World

/-- What there is to do for the grant loop is on call throughout a run. -/
theorem wakeAccount {c : Config} {x : Instance} {ms : List Move} {w : World}
    (fresh : Instance.create c = .ok x) (run : (start x).run? ms = some w) :
    WakeAccount w.inst w.tasks := by
  refine run?_induction (P := fun _ v => WakeAccount v.inst v.tasks) ?_ ?_ run
  · rw [eq_ofConfig_of_create fresh]
    constructor
    · intro permit
      cases permit
    · rintro ⟨-, waiting⟩
      cases waiting
    · intro halted
      cases halted
  · intro ms v m v' hv account hstep
    obtain ⟨rest, a, ht, ha, effect⟩ := step?_effect hstep
    have owners := ownerCount fresh hv
    rw [ht] at owners account
    rw [ha]
    exact account.keeps effect (next_of_canServe fresh hv) owners

/-- A call in progress is about to call the waker. -/
def Wakes (waker : Waker) (w : World) : Prop :=
  ∃ l ∈ w.layers, .waking waker ∈ l.agenda

/-- A waker that is about to be called stays so until it is called. -/
theorem Wakes.step {w w' : World} {m : Move} {waker : Waker} (h : w.Wakes waker)
    (hstep : w.step? m = some w') : w'.Wakes waker ∨ m = .wake waker := by
  obtain ⟨l, member, waking⟩ := h
  rcases step?_cases hstep with ⟨c, rfl, turn, hc, rfl⟩ | ⟨c, t, rest, made, below, rfl, hl, rfl⟩ |
    ⟨c, k, rest, made, below, rfl, hl, rfl⟩ | ⟨k, below, rfl, hl, rfl⟩ |
    ⟨c, made, below, rfl, hl, rfl⟩
  · exact .inl ⟨l, List.mem_cons_of_mem _ member, waking⟩
  all_goals
    rw [hl] at member
    rcases List.mem_cons.mp member with rfl | under
  · left
    refine ⟨_, .head _, List.mem_append_right _ ?_⟩
    rcases List.mem_cons.mp waking with now | later
    · cases now
    · exact later
  · exact .inl ⟨l, List.mem_cons_of_mem _ under, waking⟩
  · rcases List.mem_cons.mp waking with now | later
    · cases now
      exact .inr rfl
    · exact .inl ⟨_, List.mem_cons_of_mem _ (.head _), later⟩
  · exact .inl ⟨l, List.mem_cons_of_mem _ (List.mem_cons_of_mem _ under), waking⟩
  · cases waking
  · exact .inl ⟨l, under, waking⟩
  · cases waking
  · exact .inl ⟨l, under, waking⟩

/-- The waker was called in the moves, or it is about to be. -/
def Called (waker : Waker) (ms : List Move) (w : World) : Prop :=
  w.Wakes waker ∨ .wake waker ∈ ms

theorem Called.step {w w' : World} {ms : List Move} {m : Move} {waker : Waker}
    (h : Called waker ms w) (hstep : w.step? m = some w') : Called waker (ms ++ [m]) w' := by
  rcases h with waking | woken
  · rcases waking.step hstep with still | rfl
    · exact .inl still
    · exact .inr (List.mem_append_right _ (.head _))
  · exact .inr (List.mem_append_left _ woken)

/-- When the calls in progress have ended, the waker was called. -/
theorem Called.of_isIdle {w : World} {ms : List Move} {waker : Waker} (h : Called waker ms w)
    (idle : w.isIdle = true) : .wake waker ∈ ms := by
  rcases h with ⟨l, member, -⟩ | woken
  · rw [List.isEmpty_iff.mp idle] at member
    cases member
  · exact woken

theorem called_of_wakes {w w' : World} {ms : List Move} {waker : Waker} (h : w.Wakes waker)
    (run : w.run? ms = some w') : Called waker ms w' := by
  refine run?_induction (P := fun ms v => Called waker ms v) (.inl h) ?_ run
  intro ms v m v' _ called hstep
  exact called.step hstep

/-- Calling the grant loop is about to call its registered waker. -/
theorem wakes_of_wakeLoop {w w' : World} {m : Move} {waker : Waker} (hstep : w.step? m = some w')
    (calls : w.sectionOf m = .task .wakeLoop) (registered : w.inst.wake.waker = some waker) :
    w'.Wakes waker := by
  rcases step?_cases hstep with ⟨c, rfl, turn, hc, rfl⟩ | ⟨c, t, rest, made, below, rfl, hl, rfl⟩ |
    ⟨c, k, rest, made, below, rfl, hl, rfl⟩ | ⟨k, below, rfl, hl, rfl⟩ |
    ⟨c, made, below, rfl, hl, rfl⟩
  · cases calls
  · have same : t = .wakeLoop := by simpa [sectionOf, next?, hl] using calls
    subst same
    refine ⟨_, .head _, ?_⟩
    simp [Layer.agenda, Task.perform, Instance.wakeLoop, WakeEvent.fire, registered]
  all_goals cases calls

section Unpolled
variable {w w' : World} {ms : List Move}

/-- A stored permit stays until a poll, and no pass begins before. -/
theorem permit_of_unpolled (count : PollCount w.inst w.tasks)
    (resting : w.inst.loop.polling = false) (run : w.run? ms = some w')
    (unpolled : ∀ waker, .call (.drive waker) ∉ ms) (permit : w.inst.wake.permit = true) :
    w'.inst.wake.permit = true ∧ w'.inst.loop.passes = w.inst.loop.passes := by
  refine (run?_unpolled (P := fun _ v => v.inst.wake.permit = true ∧
    v.inst.loop.passes = w.inst.loop.passes) count resting ⟨permit, rfl⟩ ?_ run unpolled).2
  rintro _ v m v' others ⟨permit, passes⟩ hstep
  obtain ⟨rest, a, -, -, effect⟩ := step?_effect hstep
  constructor
  · rcases effect.wake_of_unpolled others with same | ⟨-, e⟩
    · rw [same]
      exact permit
    · rw [e]
  · rw [effect.passes_of_unpolled others]
    exact passes

/-- Without handles and held slots it stays so until a poll. -/
theorem deserted_of_unpolled (count : PollCount w.inst w.tasks)
    (resting : w.inst.loop.polling = false) (run : w.run? ms = some w')
    (unpolled : ∀ waker, .call (.drive waker) ∉ ms) (deserted : w.inst.Deserted) :
    w'.inst.Deserted := by
  refine (run?_unpolled (P := fun _ v => v.inst.Deserted) count resting deserted ?_ run unpolled).2
  intro _ v m v' others deserted hstep
  obtain ⟨rest, a, -, -, effect⟩ := step?_effect hstep
  apply effect.deserted _ deserted
  intro t now
  by_contra isPass
  have isPoll := Task.isOfPoll_of_isOfPass (by simpa using isPass)
  cases isPoll.symm.trans (others t now)

/-- A registered waker stays so until it is called, unless a poll comes first. -/
theorem registered_or_called (count : PollCount w.inst w.tasks)
    (resting : w.inst.loop.polling = false) (run : w.run? ms = some w')
    (unpolled : ∀ waker, .call (.drive waker) ∉ ms) {waker : Waker}
    (registered : w.inst.wake.waker = some waker) : w'.inst.loop.polling = false ∧
      (w'.inst.wake.waker = some waker ∨ Called waker ms w') := by
  refine run?_unpolled (P := fun ms v => v.inst.wake.waker = some waker ∨ Called waker ms v)
    count resting (.inl registered) ?_ run unpolled
  rintro ms v m v' others (registered | called) hstep
  · obtain ⟨rest, a, -, -, effect⟩ := step?_effect hstep
    rcases effect.wake_of_unpolled others with same | ⟨calls, -⟩
    · exact .inl (same ▸ registered)
    · exact .inr (.inl (wakes_of_wakeLoop hstep calls registered))
  · exact .inr (called.step hstep)

/-- A pending call of the grant loop reaches the registered waker before the calls in progress end,
unless a poll comes first. -/
theorem woken_of_wakeLoop (count : PollCount w.inst w.tasks)
    (resting : w.inst.loop.polling = false) (run : w.run? ms = some w')
    (unpolled : ∀ waker, .call (.drive waker) ∉ ms) {waker : Waker}
    (registered : w.inst.wake.waker = some waker) (pending : .wakeLoop ∈ w.tasks)
    (idle : w'.isIdle = true) : .wake waker ∈ ms := by
  have way : (w'.inst.wake.waker = some waker ∧ .wakeLoop ∈ w'.tasks) ∨ Called waker ms w' := by
    refine (run?_unpolled (P := fun ms v => (v.inst.wake.waker = some waker ∧
      .wakeLoop ∈ v.tasks) ∨ Called waker ms v) count resting (.inl ⟨registered, pending⟩) ?_ run
      unpolled).2
    rintro ms v m v' others (⟨registered, pending⟩ | called) hstep
    · obtain ⟨rest, a, ht, ha, effect⟩ := step?_effect hstep
      by_cases calls : v.sectionOf m = .task .wakeLoop
      · exact .inr (.inl (wakes_of_wakeLoop hstep calls registered))
      · left
        rw [ht] at pending
        constructor
        · rcases effect.wake_of_unpolled others with same | ⟨called, -⟩
          · rw [same]
            exact registered
          · exact absurd called calls
        · rw [ha]
          rcases List.mem_append.mp pending with now | later
          · exact absurd (Section.mem_tasks_iff.mp now) calls
          · exact List.mem_append_right _ later
    · exact .inr (called.step hstep)
  rcases way with ⟨-, still⟩ | called
  · rw [tasks_of_isIdle idle] at still
    cases still
  · exact called.of_isIdle idle

end Unpolled

/-! ## No call is lost -/

section Kept
variable {c : Config} {x : Instance} {ms : List Move} {w : World}

/-- Between calls a deserted instance is gone. -/
theorem owners_of_deserted (fresh : Instance.create c = .ok x)
    (run : (start x).run? ms = some w) (idle : w.isIdle = true) (deserted : w.inst.Deserted) :
    w.inst.owners = 0 := by
  have count := ownerCount fresh run
  obtain ⟨none, released⟩ := deserted
  have unheld : w.inst.grants.countP Grant.isOwner = 0 := by
    apply List.countP_eq_zero.mpr
    intro g member
    simp [Grant.isOwner, released g member]
  unfold OwnerCount at count
  rw [tasks_of_isIdle idle, none, unheld] at count
  exact count

/-- A killed instance is halted, and one without owners is killed. -/
theorem halted_of_stopped (fresh : Instance.create c = .ok x) (run : (start x).run? ms = some w)
    (stopped : w.inst.state.halted = true ∨ w.inst.state.killed = true ∨ w.inst.isAlive = false) :
    w.inst.state.halted = true := by
  rcases stopped with halted | killed | gone
  · exact halted
  · exact halted_of_killed fresh run killed
  · have none : w.inst.owners = 0 := by simpa [Instance.isAlive] using gone
    exact halted_of_killed fresh run (killed_of_dead fresh run none)

/-- Between calls, what there is to do for the grant loop of an instance that is there has left a
permit. -/
theorem permit_of_canServe (fresh : Instance.create c = .ok x)
    (run : (start x).run? ms = some w) (idle : w.isIdle = true) (alive : w.inst.isAlive = true)
    (serve : w.inst.state.CanServe) : w.inst.wake.permit = true := by
  have none := tasks_of_isIdle idle
  cases (wakeAccount fresh run).served serve with
  | permit stored => exact stored
  | called pending | passing pending =>
      rw [none] at pending
      cases pending
  | deserted left =>
      have gone := owners_of_deserted fresh run idle left
      simp [Instance.isAlive, gone] at alive

/-- Between calls a registered waker has nothing to be called for. -/
theorem live_of_registered (fresh : Instance.create c = .ok x)
    (run : (start x).run? ms = some w) (idle : w.isIdle = true) {waker : Waker}
    (registered : w.inst.wake.waker = some waker) :
    w.inst.isAlive = true ∧ w.inst.state.halted = false ∧ ¬w.inst.state.CanServe := by
  have account := wakeAccount fresh run
  have running : w.inst.state.halted = false := by
    by_contra halted
    have called := account.halted (by simpa using halted) (by simp [registered])
    rw [tasks_of_isIdle idle] at called
    cases called
  have alive : w.inst.isAlive = true := by
    by_contra gone
    have halted := halted_of_stopped fresh run (.inr (.inr (by simpa using gone)))
    cases running.symm.trans halted
  refine ⟨alive, running, ?_⟩
  intro serve
  have permit := permit_of_canServe fresh run idle alive serve
  cases registered.symm.trans (account.single permit)

/-- What calls for the grant loop after a poll that waits reaches the waker of that poll before the
calls in progress end. -/
theorem woken_of_callsLoop {ms' : List Move} {w' : World} (fresh : Instance.create c = .ok x)
    (run : (start x).run? ms = some w) (resting : w.inst.loop.polling = false)
    (run' : w.run? ms' = some w') (unpolled : ∀ k, .call (.drive k) ∉ ms') {waker : Waker}
    (registered : w.inst.wake.waker = some waker) (calls : w.inst.CallsLoop)
    (idle : w'.isIdle = true) : .wake waker ∈ ms' := by
  have account := wakeAccount fresh run
  have count := pollCount fresh run
  have pending : .wakeLoop ∈ w.tasks ∨ w.inst.Deserted := by
    rcases calls with serve | stopped
    · cases account.served serve with
      | permit stored => cases registered.symm.trans (account.single stored)
      | called pending => exact .inl pending
      | passing pending isPass =>
          have none := count.not_isOfPoll resting pending
          cases none.symm.trans (Task.isOfPoll_of_isOfPass isPass)
      | deserted left => exact .inr left
    · exact .inl (account.halted (halted_of_stopped fresh run stopped) (by simp [registered]))
  rcases pending with called | deserted
  · exact woken_of_wakeLoop count resting run' unpolled registered called idle
  · rcases (registered_or_called count resting run' unpolled registered).2 with still | called
    · have both := run?_trans run run'
      have left := deserted_of_unpolled count resting run' unpolled deserted
      have gone := owners_of_deserted fresh both idle left
      have alive := (live_of_registered fresh both idle still).1
      simp [Instance.isAlive, gone] at alive
    · exact called.of_isIdle idle

/-- What comes to call for the grant loop some time after a poll that waits reaches the waker of
that poll before the calls in progress end. -/
theorem woken_since {u w' : World} {ms₃ ms₄ : List Move} (fresh : Instance.create c = .ok x)
    (run : (start x).run? ms = some w) (resting : w.inst.loop.polling = false) {waker : Waker}
    (registered : w.inst.wake.waker = some waker) (run₃ : w.run? ms₃ = some u)
    (run₄ : u.run? ms₄ = some w') (unpolled : ∀ k, .call (.drive k) ∉ ms₃ ++ ms₄)
    (calls : u.inst.CallsLoop) (idle : w'.isIdle = true) : .wake waker ∈ ms₃ ++ ms₄ := by
  have unpolled₃ : ∀ k, .call (.drive k) ∉ ms₃ :=
    fun k before => unpolled k (List.mem_append_left _ before)
  have unpolled₄ : ∀ k, .call (.drive k) ∉ ms₄ :=
    fun k after => unpolled k (List.mem_append_right _ after)
  have reached := run?_trans run run₃
  obtain ⟨resting', still | waking | woken⟩ :=
    registered_or_called (pollCount fresh run) resting run₃ unpolled₃ registered
  · exact List.mem_append_right _
      (woken_of_callsLoop fresh reached resting' run₄ unpolled₄ still calls idle)
  · exact List.mem_append_right _ ((called_of_wakes waking run₄).of_isIdle idle)
  · exact List.mem_append_left _ woken

/-- A run that goes on after a call has ended goes on from the same instance. -/
theorem exists_of_callEnds {v : World} {ms₁ ms₂ : List Move}
    (hv : (start x).run? ms₁ = some v) (run : (start x).run? (ms₁ ++ .callEnds :: ms₂) = some w) :
    ∃ v', (start x).run? (ms₁ ++ [.callEnds]) = some v' ∧ v'.inst = v.inst ∧
      v'.run? ms₂ = some w := by
  rw [run?_append, hv, Option.bind_some, run?_cons] at run
  obtain ⟨v', hstep, run⟩ := Option.bind_eq_some_iff.mp run
  refine ⟨v', run?_append_singleton_eq_some_iff.mpr ⟨v, hv, hstep⟩, ?_, run⟩
  rcases step?_cases hstep with ⟨_, e, -⟩ | ⟨_, _, _, _, _, e, -⟩ | ⟨_, _, _, _, _, e, -⟩ |
    ⟨_, _, e, -⟩ | ⟨_, _, _, -, -, rfl⟩
  · cases e
  · cases e
  · cases e
  · cases e
  · rfl

/-- A poll of an instance that is there and runs begins a pass if a permit is stored. -/
theorem passes_of_drive {w₁ w₂ : World} {waker : Waker}
    (hstep : w.step? (.call (.drive waker)) = some w₁) (hwork : w₁.step? .work = some w₂)
    (alive : w.inst.isAlive = true) (running : w.inst.state.halted = false)
    (permit : w.inst.wake.permit = true) : w₂.inst.loop.passes = w.inst.loop.passes + 1 := by
  obtain ⟨rest, a, -, -, effect⟩ := step?_effect hwork
  rcases step?_cases hstep with ⟨c, e, -, -, rfl⟩ | ⟨_, _, _, _, _, e, -⟩ | ⟨_, _, _, _, _, e, -⟩ |
    ⟨_, _, e, -⟩ | ⟨_, _, _, e, -⟩
  · cases e
    change Effect _ _ (.task (.resume waker)) _ _ _ at effect
    apply effect.passes_of_resume _ running permit
    exact Nat.ne_of_gt (of_decide_eq_true alive)
  all_goals cases e

/-- No call of the grant loop is lost. Between calls, a free slot and a waiting request of an
instance that is there have left a permit, with which the next poll begins a pass. When the last
poll has returned that it waits, and since then there was something to do for the grant loop, its
waker has been called; a poll that waits and was not called has nothing to do. -/
theorem wakeups_kept (fresh : Instance.create c = .ok x) (run : (start x).run? ms = some w)
    (idle : w.isIdle = true) :
    (w.inst.isAlive = true → w.inst.state.halted = false → w.inst.state.CanServe →
      w.inst.wake.permit = true ∧
      ∀ ms' w' waker w₁ w₂, w.run? ms' = some w' → (∀ k, .call (.drive k) ∉ ms') →
        w'.inst.isAlive = true → w'.inst.state.halted = false →
        w'.step? (.call (.drive waker)) = some w₁ → w₁.step? .work = some w₂ →
        w₂.inst.loop.passes = w.inst.loop.passes + 1) ∧
    (∀ ms₁ v waker ms₂, (start x).run? ms₁ = some v → v.ReturnsWaiting waker →
      ms = ms₁ ++ .callEnds :: ms₂ → (∀ k, .call (.drive k) ∉ ms₂) →
      (∀ ms₃ u, ms₃ <+: ms₂ → (start x).run? (ms₁ ++ .callEnds :: ms₃) = some u →
        u.inst.CallsLoop → .wake waker ∈ ms₂) ∧
      (.wake waker ∉ ms₂ → w.inst.isAlive = true ∧ w.inst.state.halted = false ∧
        ¬w.inst.state.CanServe)) := by
  constructor
  · intro alive _ serve
    have permit := permit_of_canServe fresh run idle alive serve
    refine ⟨permit, ?_⟩
    intro ms' w' waker w₁ w₂ run' unpolled alive' running' hstep hwork
    have count := pollCount fresh run
    have resting : w.inst.loop.polling = false := by
      unfold PollCount at count
      rw [tasks_of_isIdle idle] at count
      simpa using count.symm
    obtain ⟨permit', passes⟩ := permit_of_unpolled count resting run' unpolled permit
    rw [passes_of_drive hstep hwork alive' running' permit', passes]
  · rintro ms₁ v waker ms₂ hv waits rfl unpolled
    obtain ⟨registered, resting⟩ := waker_of_returnsWaiting hv waits
    obtain ⟨v', hv', same, run₂⟩ := exists_of_callEnds hv run
    rw [← same] at registered resting
    constructor
    · rintro ms₃ u ⟨ms₄, rfl⟩ hu calls
      obtain ⟨v'', hv'', -, run₃⟩ := exists_of_callEnds hv hu
      cases hv'.symm.trans hv''
      rw [run?_append, run₃] at run₂
      exact woken_since fresh hv' resting registered run₃ run₂ unpolled calls idle
    · intro unwoken
      have count := pollCount fresh hv'
      rcases (registered_or_called count resting run₂ unpolled registered).2 with still | called
      · exact live_of_registered fresh run idle still
      · exact absurd (called.of_isIdle idle) unwoken

/-- A lock with one slot that is released while another request waits for it, after a poll of the
grant loop that waits. -/
theorem wakeups_kept_of_release :
    ∃ w, (start (.ofConfig { concurrency := 1, weights := [1] })).run?
        ([.call (.request 0), .callEnds, .call (.request 0), .callEnds, .call (.poll 0 .silent),
          .callEnds, .call (.drive .silent), .work, .work] ++ .callEnds ::
          [.call (.release 0), .work, .wake .silent, .wakerEnds, .work, .callEnds]) = some w ∧
      w.isIdle = true ∧ w.inst.state.CanServe ∧ w.inst.wake.permit = true ∧
      Move.wake .silent ∈ [Move.call (.release 0), .work, .wake .silent, .wakerEnds, .work,
        .callEnds] := by
  have polled : (start (.ofConfig { concurrency := 1, weights := [1] })).run?
      [.call (.request 0), .callEnds, .call (.request 0), .callEnds, .call (.poll 0 .silent),
        .callEnds, .call (.drive .silent), .work, .work] = some _ := rfl
  have run : (start (.ofConfig { concurrency := 1, weights := [1] })).run?
      ([.call (.request 0), .callEnds, .call (.request 0), .callEnds, .call (.poll 0 .silent),
        .callEnds, .call (.drive .silent), .work, .work] ++ .callEnds ::
        [.call (.release 0), .work, .wake .silent, .wakerEnds, .work, .callEnds]) = some _ := rfl
  have kept := wakeups_kept (c := { concurrency := 1, weights := [1] }) rfl run rfl
  have serve : (1 : Int) > 0 ∧ 1 > 0 := by decide
  refine ⟨_, run, rfl, serve, (kept.1 rfl rfl serve).1, ?_⟩
  have since := kept.2 _ _ .silent _ polled ⟨⟨_, _, rfl⟩, rfl⟩ rfl (by simp)
  exact since.1 _ _ List.prefix_rfl run (.inl serve)

end Kept

end World

end FairShare
