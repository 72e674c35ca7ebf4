import FairShare.Proofs.Clones
import FairShare.Proofs.Slots
import FairShare.Proofs.Turns

/-!
# Conservation of slots in runs

The balance of slots holds throughout every run, and what it counts is what users see: grants are
those that the log reports, a grant is released when a user releases a clone or when its last clone
is gone, and its clones are with users, requests and channels.
-/

namespace FairShare

/-- Whether the event reports a grant at the priority, made at once or by the grant loop. -/
def Event.grantsAt (p : Nat) : Event → Bool
  | admitted q _ _ => decide (q = p)
  | granting q _ _ _ => decide (q = p)
  | _ => false

/-- The grants that were made are those that the log reports. -/
def GrantsLogged (grants : List Grant) (log : List Event) : Prop :=
  ∀ p, grants.countP (fun g => decide (g.priority = p)) = log.countP (Event.grantsAt p)

namespace GrantsLogged

variable {grants : List Grant} {log : List Event}

theorem report (h : GrantsLogged grants log) {e : Event} (other : ∀ p, e.grantsAt p = false) :
    GrantsLogged grants (log ++ [e]) := by
  intro p
  rw [countP_append_singleton, other, h p]
  rfl

theorem grant (h : GrantsLogged grants log) {p : Nat} {e : Event}
    (made : ∀ q, e.grantsAt q = decide (p = q)) :
    GrantsLogged (grants ++ [{ priority := p }]) (log ++ [e]) := by
  intro q
  rw [countP_append_singleton, countP_append_singleton, made, h q]

theorem set (h : GrantsLogged grants log) {g : Nat} {grant grant' : Grant}
    (here : grants[g]? = some grant) (same : grant'.priority = grant.priority) :
    GrantsLogged (grants.set g grant') log := by
  intro p
  have count := countP_set_add (fun g => decide (g.priority = p)) here grant'
  rw [same] at count
  rw [← h p]
  omega

theorem letsGo (h : GrantsLogged grants log) {g : Nat} {L L' : List Nat} {sec : Section}
    {es : List Event} (lets : LetsGo g L sec L' es) : GrantsLogged grants (log ++ es) := by
  cases lets with
  | user | undelivered => rwa [List.append_nil]
  | returned => exact h.report fun _ => rfl

/-- Every effect keeps grants and log in step. -/
theorem keeps {x x' : Instance} {L L' : List Nat} {sec : Section} {a : Agenda Task}
    (effect : Effect x L sec x' a L') (h : GrantsLogged x.grants x.log) :
    GrantsLogged x'.grants x'.log := by
  cases effect with
  | grantAtOnce | grantLost | grantReturned | grant => exact h.grant fun _ => rfl
  | refuse | queue | kill | receive | fail | withdraw | destroy | findGone | findHalted | passHalted
  | passStalled => exact h.report fun _ => rfl
  | tearDown => exact report (h.report fun _ => rfl) fun _ => rfl
  | halt =>
      cases halted : x.state.halted with
      | true => simpa [halted] using h
      | false => exact h.report fun _ => rfl
  | release _ here =>
      refine report (h.set here ?_) fun _ => ?_
      all_goals rfl
  | cloneLock _ here => exact h.set here rfl
  | letGoMissing lets => exact h.letsGo lets
  | letGoClone lets here =>
      refine letsGo (h.set here ?_) lets
      rfl
  | letGoLast lets here =>
      refine report (letsGo (h.set here ?_) lets) fun _ => ?_
      all_goals rfl
  | _ => exact h

end GrantsLogged

/-- What may become of a grant in a section: it is released by a user or with its last clone. -/
structure Grant.Becomes (sec : Section) (g : Nat) (grant grant' : Grant) : Prop where
  /-- A release is for good. -/
  kept : grant.released = true → grant'.released = true
  /-- A user can release it. -/
  asked : sec = .call (.release g) → grant'.released = true
  /-- Otherwise it is released with the last clone only. -/
  cause : grant'.released = true →
    sec = .call (.release g) ∨ grant'.clones = 0 ∨ grant.released = true
  /-- A lock without clones gets no new ones. -/
  gone : grant.clones = 0 → grant'.clones = 0

theorem Grant.Becomes.refl {sec : Section} {g : Nat} {grant : Grant}
    (asked : sec = .call (.release g) → grant.released = true) : grant.Becomes sec g grant where
  kept h := h
  asked := asked
  cause h := .inr (.inr h)
  gone h := h

/-- The one grant that changes becomes what it may become. -/
theorem Grant.exists_becomes_set {grants : List Grant} {sec : Section} {g k : Nat}
    {grant old new : Grant} (here : grants[g]? = some grant) (there : grants[k]? = some old)
    (becomes : old.Becomes sec k new) (other : k ≠ g → sec ≠ .call (.release g)) :
    ∃ grant', (grants.set k new)[g]? = some grant' ∧ grant.Becomes sec g grant' := by
  by_cases hk : k = g
  · subst hk
    cases here.symm.trans there
    exact ⟨new, getElem?_set_of_some here new, becomes⟩
  · refine ⟨grant, ?_, .refl fun asked => absurd asked (other hk)⟩
    rw [List.getElem?_set_ne hk]
    exact here

/-- Every effect leaves a grant or makes of it what it may become. -/
theorem Effect.grant_becomes {x x' : Instance} {L L' : List Nat} {sec : Section} {a : Agenda Task}
    (effect : Effect x L sec x' a L') {g : Nat} {grant : Grant} (here : x.grants[g]? = some grant)
    (held : ∀ k old, k ∈ L → x.grants[k]? = some old → old.clones ≠ 0) :
    ∃ grant', x'.grants[g]? = some grant' ∧ grant.Becomes sec g grant' := by
  cases effect with
  | releaseAgain _ released =>
      refine ⟨grant, here, .refl fun asked => ?_⟩
      cases asked
      exact released grant here
  | grantAtOnce | grantLost | grantReturned | grant =>
      exact ⟨grant, getElem?_append_of_some here _, .refl fun asked => by cases asked⟩
  | @release k old _ there locked =>
      refine Grant.exists_becomes_set here there
        ⟨fun _ => rfl, fun _ => rfl, fun _ => .inl rfl, id⟩ ?_
      intro hk asked
      cases asked
      exact hk rfl
  | @cloneLock k old user there =>
      refine Grant.exists_becomes_set here there ⟨id, ?_, fun h => .inr (.inr h), ?_⟩ ?_
      · intro asked
        cases asked
      · intro none
        exact absurd none (held k old user there)
      · intro _ asked
        cases asked
  | @letGoClone k _ _ _ old lets there =>
      refine Grant.exists_becomes_set here there ⟨id, ?_, fun h => .inr (.inr h), ?_⟩ ?_
      · intro asked
        cases asked
        cases lets
      · intro none
        exact (congrArg (· - 1) none).trans rfl
      · intro _ asked
        cases asked
        cases lets
  | @letGoLast k _ _ _ old lets there last =>
      refine Grant.exists_becomes_set here there
        ⟨fun _ => rfl, fun _ => rfl, fun _ => .inr (.inl rfl), fun _ => rfl⟩ ?_
      intro _ asked
      cases asked
      cases lets
  | letGoMissing lets =>
      refine ⟨grant, here, .refl ?_⟩
      intro asked
      cases asked
      cases lets
  | _ => exact ⟨grant, here, .refl fun asked => by cases asked⟩

/-- A grant stays at its priority. -/
theorem Effect.grant_priority {x x' : Instance} {L L' : List Nat} {sec : Section} {a : Agenda Task}
    (effect : Effect x L sec x' a L') {g : Nat} {grant : Grant} (here : x.grants[g]? = some grant) :
    ∃ grant', x'.grants[g]? = some grant' ∧ grant'.priority = grant.priority := by
  cases effect with
  | grantAtOnce | grantLost | grantReturned | grant =>
      exact ⟨grant, getElem?_append_of_some here _, rfl⟩
  | release _ there | cloneLock _ there | letGoClone _ there | letGoLast _ there =>
      refine exists_getElem?_set here rfl ?_
      rintro rfl
      cases here.symm.trans there
      rfl
  | _ => exact ⟨grant, here, rfl⟩

/-- Grants are never taken away. -/
theorem Effect.lt_length_grants {x x' : Instance} {L L' : List Nat} {sec : Section}
    {a : Agenda Task} (effect : Effect x L sec x' a L') {g : Nat} (old : g < x.grants.length) :
    g < x'.grants.length := by
  obtain ⟨grant', here', -⟩ := effect.grant_priority (List.getElem?_eq_getElem old)
  exact (List.getElem?_eq_some_iff.mp here').1

/-- A grant that was not there before is not released. -/
theorem Effect.grant_new {x x' : Instance} {L L' : List Nat} {sec : Section} {a : Agenda Task}
    (effect : Effect x L sec x' a L') {g : Nat} {grant' : Grant} (missing : x.grants[g]? = none)
    (here : x'.grants[g]? = some grant') : grant'.released = false := by
  have replaced : ∀ {k : Nat} {new : Grant}, (x.grants.set k new)[g]? ≠ some grant' := by
    intro k new there
    have hg := (List.getElem?_eq_some_iff.mp there).1
    rw [List.length_set] at hg
    exact absurd hg (Nat.not_lt.mpr (List.getElem?_eq_none_iff.mp missing))
  cases effect with
  | grantAtOnce | grantLost | grantReturned | grant =>
      rcases of_getElem?_append_singleton here with old | ⟨-, rfl⟩
      · cases missing.symm.trans old
      · rfl
  | release | cloneLock | letGoClone | letGoLast => exact absurd here replaced
  | _ => cases missing.symm.trans here

namespace World

/-- Users hold clones of grants that were made. -/
theorem exists_grant_of_held {c : Config} {x : Instance} {ms : List Move} {w : World}
    (fresh : Instance.create c = .ok x) (run : (start x).run? ms = some w) {g : Nat}
    (held : g ∈ w.locks) : ∃ grant, w.inst.grants[g]? = some grant ∧ 0 < grant.clones := by
  apply (cloneCount fresh run).exists_of_pos
  have pos := List.count_pos_iff.mpr held
  unfold lockPlaces
  omega

/-- What a run tells of its grants: those that a user released are released, and those that are
released were released by a user or have lost their last clone. -/
structure ReleaseHistory (ms : List Move) (grants : List Grant) : Prop where
  asked : ∀ g, .call (.release g) ∈ ms → ∃ grant, grants[g]? = some grant ∧ grant.released = true
  cause : ∀ (g : Nat) (grant : Grant), grants[g]? = some grant → grant.released = true →
    .call (.release g) ∈ ms ∨ grant.clones = 0

/-- A move keeps the history, as long as locks in the hands of users have clones. -/
theorem ReleaseHistory.step {w w' : World} {ms : List Move} {m : Move}
    (h : ReleaseHistory ms w.inst.grants) (hstep : w.step? m = some w')
    (held : ∀ g ∈ w.locks, ∃ grant, w.inst.grants[g]? = some grant ∧ 0 < grant.clones) :
    ReleaseHistory (ms ++ [m]) w'.inst.grants := by
  obtain ⟨rest, a, -, -, effect⟩ := step?_effect hstep
  have cloned : ∀ k old, k ∈ w.locks → w.inst.grants[k]? = some old → old.clones ≠ 0 := by
    intro k old user there
    obtain ⟨grant, here, pos⟩ := held k user
    cases there.symm.trans here
    exact Nat.ne_of_gt pos
  constructor
  · intro g called
    rcases List.mem_append.mp called with before | now
    · obtain ⟨grant, here, released⟩ := h.asked g before
      obtain ⟨grant', here', becomes⟩ := effect.grant_becomes here cloned
      exact ⟨grant', here', becomes.kept released⟩
    · obtain rfl := List.mem_singleton.mp now
      obtain ⟨grant, here, -⟩ := held g (of_decide_eq_true (allows_of_step? hstep))
      obtain ⟨grant', here', becomes⟩ := effect.grant_becomes here cloned
      exact ⟨grant', here', becomes.asked rfl⟩
  · intro g grant' here' released
    cases here : w.inst.grants[g]? with
    | none => cases released.symm.trans (effect.grant_new here here')
    | some grant =>
        obtain ⟨grant₁, here₁, becomes⟩ := effect.grant_becomes here cloned
        cases here'.symm.trans here₁
        rcases becomes.cause released with asked | none | before
        · exact .inl (mem_of_sectionOf asked)
        · exact .inr none
        · rcases h.cause g grant here before with called | none
          · exact .inl (List.mem_append_left _ called)
          · exact .inr (becomes.gone none)

/-- A grant is released exactly if a user released a clone or the last clone is gone. -/
theorem released_iff {c : Config} {x : Instance} {ms : List Move} {w : World}
    (fresh : Instance.create c = .ok x) (run : (start x).run? ms = some w) {g : Nat} {grant : Grant}
    (here : w.inst.grants[g]? = some grant) :
    grant.released = true ↔ .call (.release g) ∈ ms ∨ grant.clones = 0 := by
  have history : ReleaseHistory ms w.inst.grants := by
    refine run?_induction (P := fun ms v => ReleaseHistory ms v.inst.grants) ?_ ?_ run
    · rw [eq_ofConfig_of_create fresh]
      constructor
      · intro g called
        cases called
      · intro g grant none
        cases none
    · intro ms v m v' hv past hstep
      exact past.step hstep fun g user => exists_grant_of_held fresh hv user
  constructor
  · exact history.cause g grant here
  · rintro (called | none)
    · obtain ⟨grant', here', released⟩ := history.asked g called
      cases here.symm.trans here'
      exact released
    · exact (cloneCount fresh run).released g grant here none

/-- Every clone of a lock is with a user, with a request that was granted at once, or in a
channel, while users are at work. -/
theorem clones_eq_of_usersTurn {c : Config} {x : Instance} {ms : List Move} {w : World}
    (fresh : Instance.create c = .ok x) (run : (start x).run? ms = some w)
    (turn : w.usersTurn = true) {g : Nat} {grant : Grant}
    (here : w.inst.grants[g]? = some grant) :
    grant.clones = w.locks.count g + w.inst.requests.countP (Request.holds g) +
      w.inst.channels.countP (Handoff.carries g) := by
  have count := (cloneCount fresh run).clones g
  have free := lockFree_of_usersTurn fresh run turn g
  rw [clonesAt_of_getElem? here] at count
  unfold lockPlaces at count
  rw [List.count_eq_zero_of_not_mem free.1, List.count_eq_zero_of_not_mem free.2] at count
  exact count

/-- The balance of slots holds throughout a run. -/
theorem slotsBalance {c : Config} {x : Instance} {ms : List Move} {w : World}
    (fresh : Instance.create c = .ok x) (run : (start x).run? ms = some w) :
    SlotsBalance (min c.concurrency.toNat LockState.slotLimit) w.inst.state w.inst.grants := by
  refine run?_invariant (I := fun x _ _ =>
    SlotsBalance (min c.concurrency.toNat LockState.slotLimit) x.state x.grants) ?_ run ?_
  · intro x L sec x' a L' effect rest h
    exact h.keeps effect
  · rw [eq_ofConfig_of_create fresh]
    exact slotsBalance_ofConfig c

/-- The grants of a run are those that its log reports. -/
theorem grantsLogged {c : Config} {x : Instance} {ms : List Move} {w : World}
    (fresh : Instance.create c = .ok x) (run : (start x).run? ms = some w) :
    GrantsLogged w.inst.grants w.inst.log := by
  refine run?_invariant (I := fun x _ _ => GrantsLogged x.grants x.log) ?_ run ?_
  · intro x L sec x' a L' effect rest h
    exact h.keeps effect
  · rw [eq_ofConfig_of_create fresh]
    intro p
    rfl

/-- Slots are conserved in every run. At every priority the runners are the grants made there, at
once or by the grant loop, that were not released, and a grant is released exactly if a user
released a clone of its lock or no clone is left with users, requests and channels. Free slots and
runners add up to the slots, which are those of the configuration until a halt and none after. -/
theorem slots_conserved {c : Config} {x : Instance} {ms : List Move} {w : World}
    (fresh : Instance.create c = .ok x) (run : (start x).run? ms = some w) :
    (∀ p, w.inst.state.runnersAt p = w.inst.grants.countP (Grant.countsAt p)) ∧
    (∀ p, w.inst.grants.countP (fun g => decide (g.priority = p)) =
      w.inst.log.countP (Event.grantsAt p)) ∧
    (∀ g grant, w.inst.grants[g]? = some grant →
      (grant.released = true ↔ .call (.release g) ∈ ms ∨ grant.clones = 0) ∧
      (w.usersTurn = true →
        grant.clones = w.locks.count g + w.inst.requests.countP (Request.holds g) +
          w.inst.channels.countP (Handoff.carries g))) ∧
    w.inst.state.free + w.inst.state.runners.sum = w.inst.state.slots ∧
    w.inst.state.runners.sum ≤ min c.concurrency.toNat LockState.slotLimit ∧
    (w.inst.state.halted = false →
      w.inst.state.slots = (min c.concurrency.toNat LockState.slotLimit : Nat) ∧
        0 ≤ w.inst.state.free) ∧
    (w.inst.state.halted = true → w.inst.state.slots = 0 ∧ w.inst.state.free ≤ 0) := by
  have balance := slotsBalance fresh run
  refine ⟨balance.runners, grantsLogged fresh run, ?_, balance.balance, balance.bound,
    balance.running, ?_⟩
  · intro g grant here
    constructor
    · exact released_iff fresh run here
    · exact fun turn => clones_eq_of_usersTurn fresh run turn here
  · intro halted
    have none := balance.stopped halted
    have sum := balance.balance
    constructor
    · exact none
    · omega

/-- A lock with one slot that is granted to one request while another waits for it. -/
theorem slots_conserved_of_two_requests :
    ∃ w, (start (.ofConfig { concurrency := 1, weights := [1] })).run?
        [.call (.request 0), .callEnds, .call (.request 0), .callEnds] = some w ∧
      w.inst.state.runnersAt 0 = w.inst.grants.countP (Grant.countsAt 0) ∧
      w.inst.state.free = 0 := by
  have run : (start (.ofConfig { concurrency := 1, weights := [1] })).run?
      [.call (.request 0), .callEnds, .call (.request 0), .callEnds] = some _ := rfl
  have conserved := slots_conserved (c := { concurrency := 1, weights := [1] }) rfl run
  exact ⟨_, run, conserved.1 0, rfl⟩

end World

end FairShare
