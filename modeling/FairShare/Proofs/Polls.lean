import FairShare.Proofs.Owners

/-!
# Polls of the grant loop

A poll of the grant loop goes on through tasks of its own, one at a time, until it ends with an
answer. While it delivers a grant or gives its owner back, wakers may run, but not between the
section that registers its waker and its end. So a poll that answers that it waits leaves its waker
registered.
-/

namespace FairShare

/-- Whether the poll of the grant loop goes on with the task. -/
def Task.isOfPoll : Task → Bool
  | resume _ | pass _ | settle _ | endPoll _ => true
  | _ => false

/-- One task of the grant loop is pending while the loop is polled, and none otherwise. -/
def PollCount (x : Instance) (tasks : List Task) : Prop :=
  tasks.countP Task.isOfPoll = x.loop.polling.toNat

namespace PollCount

theorem isOfPoll_comp_closeSender :
    (Task.isOfPoll ∘ fun w : Waiter => Task.closeSender w.channel) = fun _ => false := rfl

theorem isOfPoll_comp_dropLock : (Task.isOfPoll ∘ Task.dropLock) = fun _ => false := rfl

theorem countP_ite_wakeLoop {P : Prop} [Decidable P] :
    (if P then [Task.wakeLoop] else []).countP Task.isOfPoll = 0 := by
  split <;> rfl

/-- Every effect keeps the count. -/
theorem keeps {x x' : Instance} {L L' : List Nat} {sec : Section} {a : Agenda Task}
    (effect : Effect x L sec x' a L') (rest : List Task) (h : PollCount x (sec.tasks ++ rest)) :
    PollCount x' (tasksOf a ++ rest) := by
  unfold PollCount at h ⊢
  rw [List.countP_append] at h ⊢
  cases effect with
  | letGoMissing lets | letGoClone lets | letGoLast lets =>
      cases lets <;> simpa [Task.isOfPoll, countP_ite_wakeLoop] using h
  | drive _ resting =>
      simp [Task.isOfPoll, resting] at h ⊢
      exact h
  | endPoll =>
      have most := Bool.toNat_le x.loop.polling
      change 1 + rest.countP Task.isOfPoll = _ at h
      change 0 + rest.countP Task.isOfPoll = 0
      omega
  | _ =>
      simp [Task.isOfPoll, List.countP_cons, isOfPoll_comp_closeSender, isOfPoll_comp_dropLock,
        countP_ite_wakeLoop] at h ⊢
      exact h

/-- While the loop is not polled, none of its tasks is pending. -/
theorem not_isOfPoll {x : Instance} {tasks : List Task} (h : PollCount x tasks)
    (resting : x.loop.polling = false) {t : Task} (pending : t ∈ tasks) : t.isOfPoll = false := by
  unfold PollCount at h
  rw [resting] at h
  simpa using List.countP_eq_zero.mp h t pending

end PollCount

/-- A loop that is not polled stays so without a poll. -/
theorem Effect.polling {x x' : Instance} {L L' : List Nat} {sec : Section} {a : Agenda Task}
    (effect : Effect x L sec x' a L') (unpolled : ∀ waker, sec ≠ .call (.drive waker))
    (resting : x.loop.polling = false) : x'.loop.polling = false := by
  cases effect with
  | drive => exact absurd rfl (unpolled _)
  | endPoll => rfl
  | _ => exact resting

/-- The tasks that a poll with the waker has yet to perform when something else comes first: its
last one, which does not answer that it waits. -/
inductive Task.GoesOn (waker : Waker) : Task → Prop where
  | resume : GoesOn waker (.resume waker)
  | pass : GoesOn waker (.pass waker)
  | settle : GoesOn waker (.settle waker)
  | ended : GoesOn waker (.endPoll true)

/-- What is left of a poll is something and then a task that goes on with it. -/
def GoesOn (waker : Waker) (a : Agenda Task) : Prop :=
  ∃ pre t, t.GoesOn waker ∧ a = pre ++ [.task t]

/-- The stages of a poll with the waker, as the innermost call. -/
inductive PollStage (x : Instance) (waker : Waker) (a : Agenda Task) : Prop where
  | goesOn (more : GoesOn waker a)
  | waits (registered : x.wake.waker = some waker) (last : a = [.task (.endPoll false)])
  | answered (resting : x.loop.polling = false)
      (registered : x.loop.ended = false → x.wake.waker = some waker) (none : a = [])

/-- A section of a poll that goes on brings it to a stage. -/
theorem PollStage.of_goesOn {x x' : Instance} {L L' : List Nat} {t : Task} {waker : Waker}
    {a rest : Agenda Task} (effect : Effect x L (.task t) x' a L')
    (more : GoesOn waker (.task t :: rest)) : PollStage x' waker (a ++ rest) := by
  obtain ⟨pre, t', goes, e⟩ := more
  cases pre with
  | cons first pre =>
      rw [List.cons_append] at e
      obtain ⟨-, rfl⟩ := List.cons.inj e
      refine .goesOn ⟨a ++ pre, t', goes, ?_⟩
      rw [List.append_assoc]
  | nil =>
      obtain ⟨rfl, rfl⟩ : t = t' ∧ rest = [] := by simpa using e
      rw [List.append_nil]
      cases effect with
      | findGone | findHalted => exact .goesOn ⟨[], _, .ended, rfl⟩
      | park =>
          cases goes
          exact .waits rfl rfl
      | beginPass =>
          cases goes
          exact .goesOn ⟨[], _, .pass, rfl⟩
      | passHalted | tearDown => exact .goesOn ⟨[.task .disown], _, .ended, rfl⟩
      | passIdle | passStalled | passEmpty =>
          cases goes
          exact .goesOn ⟨[.task .disown], _, .resume, rfl⟩
      | grantLost =>
          cases goes
          exact .goesOn ⟨[], _, .settle, rfl⟩
      | grantReturned =>
          cases goes
          exact .goesOn ⟨[_, _], _, .settle, rfl⟩
      | @grant waker _ _ _ w ch =>
          cases goes
          refine .goesOn ⟨callWaker ch.waker ++ [.task (.closeSender w.channel)], _, .settle, ?_⟩
          simp
      | settle =>
          cases goes
          exact .goesOn ⟨[], _, .pass, rfl⟩
      | endPoll =>
          cases goes
          exact .answered rfl (fun waits => by cases waits) rfl
      | letGoMissing lets | letGoClone lets | letGoLast lets => cases lets <;> cases goes
      | _ => cases goes

/-- A poll that is about to answer that it waits does so with its waker registered. -/
theorem PollStage.of_waits {x x' : Instance} {L L' : List Nat} {t : Task} {waker : Waker}
    {a rest : Agenda Task} (effect : Effect x L (.task t) x' a L')
    (registered : x.wake.waker = some waker)
    (last : Activity.task t :: rest = [.task (.endPoll false)]) :
    PollStage x' waker (a ++ rest) := by
  cases last
  cases effect with
  | endPoll => exact .answered rfl (fun _ => registered) rfl
  | letGoMissing lets | letGoClone lets | letGoLast lets => cases lets

/-- A waker is never the last thing on the agenda of a poll. -/
theorem PollStage.goesOn_of_waking {x : Instance} {waker k : Waker} {rest : Agenda Task}
    (stage : PollStage x waker (.waking k :: rest)) : GoesOn waker rest := by
  cases stage with
  | goesOn more =>
      obtain ⟨pre, t, goes, e⟩ := more
      cases pre with
      | nil => cases e
      | cons first pre =>
          rw [List.cons_append] at e
          exact ⟨pre, t, goes, (List.cons.inj e).2⟩
  | waits _ last => cases last
  | answered _ _ none => cases none

/-- If the layer is a poll of the grant loop, the poll goes on. -/
def Layer.GoesOn (l : Layer) : Prop :=
  ∀ k a made, l = .call (.drive k) a made → FairShare.GoesOn k a

namespace World

/-- The polls in progress: the innermost call may be one at any stage, those below it go on. -/
structure PollStages (w : World) : Prop where
  innermost : ∀ waker a made below, w.layers = .call (.drive waker) a made :: below →
    PollStage w.inst waker a
  below : ∀ l ∈ w.layers.tail, l.GoesOn

/-- Polls that all go on are at a stage. -/
theorem pollStages_of_goesOn {w : World} (h : ∀ l ∈ w.layers, l.GoesOn) : w.PollStages := by
  constructor
  · intro waker a made below hl
    rw [hl] at h
    exact .goesOn (h _ (.head _) waker a made rfl)
  · intro l hl
    exact h l (List.mem_of_mem_tail hl)

theorem PollStages.goesOn_of_usersTurn {w : World} (h : w.PollStages)
    (turn : w.usersTurn = true) : ∀ l ∈ w.layers, l.GoesOn := by
  intro l hl
  unfold usersTurn at turn
  split at turn
  · rename_i none
    rw [none] at hl
    cases hl
  · rename_i waker below hw
    rw [hw] at hl
    rcases List.mem_cons.mp hl with rfl | under
    · intro _ _ _ e
      cases e
    · apply h.below
      rw [hw]
      exact under
  · cases turn

/-- Every move keeps the polls at their stages. -/
theorem PollStages.step {w w' : World} {m : Move} (h : w.PollStages)
    (hstep : w.step? m = some w') : w'.PollStages := by
  rcases step?_cases hstep with ⟨c, rfl, turn, hc, rfl⟩ | ⟨c, t, rest, made, below, rfl, hl, rfl⟩ |
    ⟨c, waker, rest, made, below, rfl, hl, rfl⟩ | ⟨waker, below, rfl, hl, rfl⟩ |
    ⟨c, made, below, rfl, hl, rfl⟩
  · constructor
    · intro waker a made below hl
      cases hl
      exact .goesOn ⟨[], _, .resume, rfl⟩
    · exact h.goesOn_of_usersTurn turn
  · have under := h.below
    rw [hl] at under
    constructor
    · intro waker a made' below' hl'
      cases hl'
      have effect := t.effect_perform w.inst w.locks
      cases h.innermost waker _ made below hl with
      | goesOn more => exact .of_goesOn effect more
      | waits registered last => exact .of_waits effect registered last
      | answered _ _ none => cases none
    · exact under
  · apply pollStages_of_goesOn
    have under := h.below
    rw [hl] at under
    intro l member
    rcases List.mem_cons.mp member with rfl | member
    · intro _ _ _ e
      cases e
    · rcases List.mem_cons.mp member with rfl | deeper
      · intro k a made' e
        cases e
        exact (h.innermost k _ made below hl).goesOn_of_waking
      · exact under l deeper
  · apply pollStages_of_goesOn
    have under := h.below
    rw [hl] at under
    exact under
  · apply pollStages_of_goesOn
    have under := h.below
    rw [hl] at under
    exact under

/-- The polls of a run are at their stages. -/
theorem pollStages {x : Instance} {ms : List Move} {w : World}
    (run : (start x).run? ms = some w) : w.PollStages := by
  refine run?_induction (P := fun _ v => v.PollStages) ?_ ?_ run
  · apply pollStages_of_goesOn
    intro l member
    cases member
  · intro _ v m v' _ stages hstep
    exact stages.step hstep

/-- The tasks of the grant loop are pending throughout a run as its polls have it. -/
theorem pollCount {c : Config} {x : Instance} {ms : List Move} {w : World}
    (fresh : Instance.create c = .ok x) (run : (start x).run? ms = some w) :
    PollCount w.inst w.tasks := by
  refine run?_invariant (I := fun x tasks _ => PollCount x tasks) ?_ run ?_
  · intro x L sec x' a L' effect rest h
    exact h.keeps effect rest
  · rw [eq_ofConfig_of_create fresh]
    rfl

/-- A run without polls of the grant loop, from where none is in progress, runs no section of one:
what holds at its start and is kept by every other section holds after it, and still no poll is in
progress. -/
theorem run?_unpolled {w₀ : World} {P : List Move → World → Prop}
    (count : PollCount w₀.inst w₀.tasks) (resting : w₀.inst.loop.polling = false)
    (start : P [] w₀)
    (step : ∀ ms w m w', (∀ t ∈ (w.sectionOf m).tasks, t.isOfPoll = false) → P ms w →
      w.step? m = some w' → P (ms ++ [m]) w')
    {ms : List Move} {w : World} (run : w₀.run? ms = some w)
    (unpolled : ∀ waker, .call (.drive waker) ∉ ms) : w.inst.loop.polling = false ∧ P ms w := by
  have both := run?_induction (P := fun ms v => (∀ waker, .call (.drive waker) ∉ ms) →
    PollCount v.inst v.tasks ∧ v.inst.loop.polling = false ∧ P ms v) ?_ ?_ run unpolled
  · exact both.2
  · intro _
    exact ⟨count, resting, start⟩
  · intro ms v m v' _ past hstep unpolled
    obtain ⟨count, resting, holds⟩ := past fun waker before =>
      unpolled waker (List.mem_append_left _ before)
    obtain ⟨rest, a, ht, ha, effect⟩ := step?_effect hstep
    rw [ht] at count
    have others : ∀ t ∈ (v.sectionOf m).tasks, t.isOfPoll = false := by
      intro t now
      exact count.not_isOfPoll resting (List.mem_append_left _ now)
    refine ⟨?_, ?_, step ms v m v' others holds hstep⟩
    · rw [ha]
      exact count.keeps effect rest
    · apply effect.polling _ resting
      intro waker asked
      exact unpolled waker (mem_of_sectionOf asked)

/-- The innermost call is a poll of the grant loop with the waker, and it is about to return that
it waits. -/
def ReturnsWaiting (waker : Waker) (w : World) : Prop :=
  (∃ made below, w.layers = .call (.drive waker) [] made :: below) ∧ w.inst.loop.ended = false

/-- A poll that returns that it waits has its waker registered, and no other poll is in progress. -/
theorem waker_of_returnsWaiting {x : Instance} {ms : List Move} {w : World} {waker : Waker}
    (run : (start x).run? ms = some w) (waits : w.ReturnsWaiting waker) :
    w.inst.wake.waker = some waker ∧ w.inst.loop.polling = false := by
  obtain ⟨⟨made, below, hl⟩, ended⟩ := waits
  cases (pollStages run).innermost waker [] made below hl with
  | goesOn more =>
      obtain ⟨pre, t, -, e⟩ := more
      simp at e
  | waits _ last => cases last
  | answered resting registered => exact ⟨registered ended, resting⟩

end World

end FairShare
