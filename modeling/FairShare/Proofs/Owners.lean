import FairShare.Proofs.Effect
import FairShare.Proofs.Views

/-!
# The owners of an instance

The owners are the handles, the grants that were not released, and the pending tasks that work on
the instance and have taken it for themselves. When the last one goes the instance is destroyed,
and with that it is killed; nobody can bring it back.
-/

namespace FairShare

/-- Whether the slot of the grant is still held. -/
def Grant.isOwner (g : Grant) : Bool :=
  !g.released

/-- Whether the task is an owner until it has run. -/
def Task.isOwner : Task → Bool
  | disown | pass _ | settle _ => true
  | _ => false

/-- The owners are handles, unreleased grants and tasks. -/
def OwnerCount (x : Instance) (tasks : List Task) : Prop :=
  x.owners = x.handles + x.grants.countP Grant.isOwner + tasks.countP Task.isOwner

namespace OwnerCount

theorem isOwner_comp_closeSender :
    (Task.isOwner ∘ fun w : Waiter => Task.closeSender w.channel) = fun _ => false := rfl

theorem isOwner_comp_dropLock : (Task.isOwner ∘ Task.dropLock) = fun _ => false := rfl

@[simp] theorem countP_ite_wakeLoop {P : Prop} [Decidable P] :
    (if P then [Task.wakeLoop] else []).countP Task.isOwner = 0 := by
  split <;> rfl

/-- Every effect keeps the count. -/
theorem keeps {x x' : Instance} {L L' : List Nat} {sec : Section} {a : Agenda Task}
    (effect : Effect x L sec x' a L') (rest : List Task) (h : OwnerCount x (sec.tasks ++ rest)) :
    OwnerCount x' (tasksOf a ++ rest) := by
  unfold OwnerCount at h ⊢
  rw [List.countP_append] at h ⊢
  cases effect with
  | grantAtOnce =>
      simp [Grant.isOwner] at h ⊢
      omega
  | queue | halt =>
      simp [Task.isOwner] at h ⊢
      exact h
  | kill =>
      simp [Task.isOwner, isOwner_comp_closeSender] at h ⊢
      exact h
  | @release g grant _ here locked =>
      have count := countP_set_add Grant.isOwner here { grant with released := true }
      simp [Task.isOwner, Grant.isOwner, locked] at h count ⊢
      omega
  | @cloneLock g grant _ here =>
      have count := countP_set_add Grant.isOwner here { grant with clones := grant.clones + 1 }
      simp [Grant.isOwner] at h count ⊢
      omega
  | letGoMissing lets =>
      cases lets <;> simpa [Task.isOwner] using h
  | @letGoClone g _ _ _ grant lets here =>
      have count := countP_set_add Grant.isOwner here { grant with clones := grant.clones - 1 }
      cases lets <;> simp [Task.isOwner, Grant.isOwner] at h count ⊢ <;> omega
  | @letGoLast g _ _ _ grant lets here _ locked =>
      have count := countP_set_add Grant.isOwner here { grant with clones := 0, released := true }
      cases lets <;> simp [Task.isOwner, Grant.isOwner, locked] at h count ⊢ <;> omega
  | dropReceiver =>
      simp [Task.isOwner, isOwner_comp_dropLock] at h ⊢
      exact h
  | destroy =>
      simp [Task.isOwner, isOwner_comp_closeSender] at h ⊢
      omega
  | grantLost | grantReturned | grant =>
      simp [Task.isOwner, Grant.isOwner, List.countP_cons] at h ⊢
      omega
  | _ =>
      simp [Task.isOwner, List.countP_cons] at h ⊢
      omega

/-- Without owners there are no handles and no unreleased grants, and no task works on the
instance. -/
theorem of_dead {x : Instance} {tasks : List Task} (h : OwnerCount x tasks) (dead : x.owners = 0) :
    x.handles = 0 ∧ (∀ g ∈ x.grants, g.released = true) ∧ ∀ t ∈ tasks, t.isOwner = false := by
  unfold OwnerCount at h
  refine ⟨by omega, ?_, ?_⟩
  · have none : x.grants.countP Grant.isOwner = 0 := by omega
    intro g hg
    simpa [Grant.isOwner] using List.countP_eq_zero.mp none g hg
  · have none : tasks.countP Task.isOwner = 0 := by omega
    intro t ht
    simpa using List.countP_eq_zero.mp none t ht

end OwnerCount

/-- A kill is for good. -/
theorem Effect.killed {x x' : Instance} {L L' : List Nat} {sec : Section} {a : Agenda Task}
    (effect : Effect x L sec x' a L') (h : x.state.killed = true) : x'.state.killed = true := by
  cases effect with
  | queue _ _ alive => cases alive.symm.trans h
  | halt =>
      unfold LockState.halt
      split <;> exact h
  | kill | destroy => exact LockState.killed_kill _
  | withdraw _ _ _ found =>
      obtain ⟨pre, post, -, rfl⟩ := (LockState.leaves_of_withdraw? found).2.split
      rw [LockState.leaveQueue_eq]
      exact h
  | passStalled _ _ _ scan | passEmpty _ _ _ scan =>
      obtain ⟨turn, rfl⟩ := LockState.eq_turn_of_nextInTurn? scan
      exact h
  | grantLost _ _ _ scan first | grantReturned _ _ _ scan first | grant _ _ _ scan first =>
      obtain ⟨turn, s₃, rfl, leaves, rfl⟩ := LockState.turn_leaves_take scan first
      obtain ⟨pre, post, -, rfl⟩ := leaves.split
      rw [LockState.leaveQueue_eq]
      exact h
  | _ => exact h

/-- What is not killed was not killed before. -/
theorem Effect.not_killed {x x' : Instance} {L L' : List Nat} {sec : Section} {a : Agenda Task}
    (effect : Effect x L sec x' a L') (h : x'.state.killed = false) : x.state.killed = false := by
  by_contra killed
  rw [Bool.not_eq_false] at killed
  cases h.symm.trans (effect.killed killed)

/-- A halt is for good. -/
theorem Effect.halted {x x' : Instance} {L L' : List Nat} {sec : Section} {a : Agenda Task}
    (effect : Effect x L sec x' a L') (h : x.state.halted = true) : x'.state.halted = true := by
  cases effect with
  | queue =>
      rw [LockState.enqueue_eq]
      exact h
  | halt => exact LockState.halted_halt _
  | kill _ alive | destroy _ alive => exact LockState.halted_kill alive
  | withdraw _ _ _ found =>
      rw [(LockState.leaves_of_withdraw? found).2.frame.2.2.1]
      exact h
  | passStalled running | passEmpty running | grantLost running | grantReturned running
  | grant running =>
      cases h.symm.trans running
  | _ => exact h

/-- With its last owner an instance is killed. -/
theorem Effect.killed_of_dead {x x' : Instance} {L L' : List Nat} {sec : Section}
    {a : Agenda Task} (effect : Effect x L sec x' a L')
    (h : x.owners = 0 → x.state.killed = true) (dead : x'.owners = 0) :
    x'.state.killed = true := by
  have stays := effect.killed
  cases effect with
  | destroy => exact LockState.killed_kill _
  | destroyKilled _ killed => exact killed
  | disown others => exact absurd dead others
  | grantAtOnce | cloneHandle | withdraw | beginPass | grantLost | grantReturned | grant =>
      exact absurd dead (Nat.succ_ne_zero _)
  | _ => exact stays (h dead)

/-- Only a call of kill and the loss of the last owner kill an instance. -/
theorem Effect.cause_of_killed {x x' : Instance} {L L' : List Nat} {sec : Section}
    {a : Agenda Task} (effect : Effect x L sec x' a L') (h : x'.state.killed = true) :
    x.state.killed = true ∨ sec = .call .kill ∨ x'.owners = 0 := by
  cases effect with
  | kill => exact .inr (.inl rfl)
  | destroy last => exact .inr (.inr last)
  | queue =>
      rw [LockState.enqueue_eq] at h
      exact .inl h
  | halt =>
      unfold LockState.halt at h
      split at h <;> exact .inl h
  | withdraw _ _ _ found =>
      obtain ⟨pre, post, -, rfl⟩ := (LockState.leaves_of_withdraw? found).2.split
      rw [LockState.leaveQueue_eq] at h
      exact .inl h
  | passStalled _ _ _ scan | passEmpty _ _ _ scan =>
      obtain ⟨turn, rfl⟩ := LockState.eq_turn_of_nextInTurn? scan
      exact .inl h
  | grantLost _ _ _ scan first | grantReturned _ _ _ scan first | grant _ _ _ scan first =>
      obtain ⟨turn, s₃, rfl, leaves, rfl⟩ := LockState.turn_leaves_take scan first
      obtain ⟨pre, post, -, rfl⟩ := leaves.split
      rw [LockState.leaveQueue_eq] at h
      exact .inl h
  | _ => exact .inl h

/-- Nobody brings an instance back that has no owner. -/
theorem Effect.dead {x x' : Instance} {L L' : List Nat} {sec : Section} {a : Agenda Task}
    (effect : Effect x L sec x' a L') {rest : List Task}
    (count : OwnerCount x (sec.tasks ++ rest)) (dead : x.owners = 0) : x'.owners = 0 := by
  obtain ⟨none, -, idle⟩ := count.of_dead dead
  cases effect with
  | grantAtOnce handle | cloneHandle handle => exact absurd none (Nat.ne_of_gt handle)
  | withdraw _ _ owned => exact absurd dead (Nat.ne_of_gt owned)
  | beginPass owned => exact absurd dead owned
  | grantLost | grantReturned | grant => exact absurd (idle _ (.head _)) (by simp [Task.isOwner])
  | disown | destroy | destroyKilled => exact absurd (idle _ (.head _)) (by simp [Task.isOwner])
  | _ => exact dead

namespace World

/-- A kill is for good. -/
theorem killed_of_run? {w w' : World} {ms : List Move} (run : w.run? ms = some w')
    (killed : w.inst.state.killed = true) : w'.inst.state.killed = true := by
  refine run?_invariant (I := fun x _ _ => x.state.killed = true) ?_ run killed
  intro x L sec x' a L' effect rest h
  exact effect.killed h

/-- A halt is for good. -/
theorem halted_of_run? {w w' : World} {ms : List Move} (run : w.run? ms = some w')
    (halted : w.inst.state.halted = true) : w'.inst.state.halted = true := by
  refine run?_invariant (I := fun x _ _ => x.state.halted = true) ?_ run halted
  intro x L sec x' a L' effect rest h
  exact effect.halted h

/-- The owners of a run are its handles, its unreleased grants, and the calls that work on the
instance. -/
theorem ownerCount {c : Config} {x : Instance} {ms : List Move} {w : World}
    (fresh : Instance.create c = .ok x) (run : (start x).run? ms = some w) :
    OwnerCount w.inst w.tasks := by
  refine run?_invariant (I := fun x tasks _ => OwnerCount x tasks) ?_ run ?_
  · intro x L sec x' a L' effect rest h
    exact h.keeps effect rest
  · rw [eq_ofConfig_of_create fresh]
    rfl

/-- An instance without owners is killed. -/
theorem killed_of_dead {c : Config} {x : Instance} {ms : List Move} {w : World}
    (fresh : Instance.create c = .ok x) (run : (start x).run? ms = some w)
    (dead : w.inst.owners = 0) : w.inst.state.killed = true := by
  refine run?_invariant (I := fun x _ _ => x.owners = 0 → x.state.killed = true) ?_ run ?_ dead
  · intro x L sec x' a L' effect rest h
    exact effect.killed_of_dead h
  · rw [eq_ofConfig_of_create fresh]
    intro dead
    cases dead

/-- Without owners it stays. -/
theorem dead_of_run? {c : Config} {x : Instance} {ms ms' : List Move} {w w' : World}
    (fresh : Instance.create c = .ok x) (run : (start x).run? ms = some w)
    (run' : w.run? ms' = some w') (dead : w.inst.owners = 0) : w'.inst.owners = 0 := by
  have both := run?_invariant (I := fun x tasks _ => OwnerCount x tasks ∧ x.owners = 0)
    (fun effect rest h => ⟨h.1.keeps effect rest, effect.dead h.1 h.2⟩) run'
    ⟨ownerCount fresh run, dead⟩
  exact both.2

/-- An instance that is killed was killed by a user or has lost its last owner. -/
theorem kill_or_dead_of_killed {c : Config} {x : Instance} {ms : List Move} {w : World}
    (fresh : Instance.create c = .ok x) (run : (start x).run? ms = some w)
    (killed : w.inst.state.killed = true) : .call .kill ∈ ms ∨ w.inst.owners = 0 := by
  refine run?_induction (P := fun ms v => v.inst.state.killed = true →
    .call .kill ∈ ms ∨ v.inst.owners = 0) ?_ ?_ run killed
  · rw [eq_ofConfig_of_create fresh]
    intro killed
    cases killed
  · intro ms v m v' hv past hstep killed
    obtain ⟨rest, a, -, -, effect⟩ := step?_effect hstep
    rcases effect.cause_of_killed killed with before | asked | dead
    · rcases past before with called | dead
      · exact .inl (List.mem_append_left _ called)
      · exact .inr (dead_of_run? fresh hv ((run?_singleton v m).trans hstep) dead)
    · exact .inl (mem_of_sectionOf asked)
    · exact .inr dead

end World

end FairShare
