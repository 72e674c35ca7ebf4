import FairShare.Proofs.Notices

/-!
# Calls of wakers

A poll that waits leaves its waker on the channel of its request. The waker is called when the
verdict comes, at once after a grant and in its turn after a kill, and it is not called before or
again. Letting the request go calls it as well, as the sender of the channel is let go before the
receiver.
-/

namespace FairShare

namespace World

/-! ## Who is not forgotten -/

/-- No poll of the request in the moves waits. -/
def NoneWaits (r : Nat) (w : World) (ms : List Move) : Prop :=
  ∀ ms₁ waker ms₂ u, ms = ms₁ ++ .call (.poll r waker) :: ms₂ → w.run? ms₁ = some u →
    (u.inst.poll r waker).1 ≠ .ok none

section NoneWaits
variable {r : Nat} {ms ms' : List Move} {w v : World}

theorem NoneWaits.left (h : NoneWaits r w (ms ++ ms')) : NoneWaits r w ms := by
  intro ms₁ waker ms₂ u e
  exact h ms₁ waker (ms₂ ++ ms') u (by rw [e, List.append_assoc, List.cons_append])

theorem NoneWaits.right (h : NoneWaits r w (ms ++ ms')) (run : w.run? ms = some v) :
    NoneWaits r v ms' := by
  intro ms₁ waker ms₂ u e run'
  exact h (ms ++ ms₁) waker ms₂ u (by rw [e, List.append_assoc]) (run?_trans run run')

theorem noneWaits_of_unpolled (unpolled : ∀ waker, .call (.poll r waker) ∉ ms) :
    NoneWaits r w ms := by
  intro ms₁ waker ms₂ u e
  subst e
  exact absurd (List.mem_append_right _ List.mem_cons_self) (unpolled waker)

end NoneWaits

section Registered
variable {c : Config} {x : Instance} {waker : Waker} {r d : Nat} {ms ms' : List Move} {w v : World}
  {m : Move}

/-- A waker that is registered on the channel of its request stays there until it is to be called,
unless a later poll takes its place or the request is let go. -/
theorem registered_of_step (fresh : Instance.create c = .ok x)
    (run : (start x).run? ms = some w) (hstep : w.step? m = some v)
    (awaits : w.inst.AwaitsOn r d) (registered : w.inst.Registered waker d)
    (none : NoneWaits r w [m]) (kept : m ≠ .call (.dropRequest r)) :
    (v.inst.AwaitsOn r d ∧ v.inst.Registered waker d) ∨ .waking waker ∈ v.agenda := by
  obtain ⟨done, rest, a, before, after, now, -, -, effect⟩ := step?_agenda hstep
  have waits := waitingEnds fresh run
  have awaits' := effect.awaits_kept (awaits.not_decided registered waits) awaits fun e =>
    kept (eq_call_of_sectionOf e)
  have ends := channelEnds fresh run
  obtain ⟨q, ticket, here, queued⟩ := awaits
  rcases effect.registered_kept waits registered with still | called | left | ⟨r', k, polled, taken⟩
  · exact .inl ⟨awaits', still⟩
  · right
    rw [after]
    exact List.mem_append_left _ called
  · obtain ⟨-, absent, -⟩ :=
      ends.receiver_of_awaits (c := d) here (by simp [Request.awaits, queued])
    exact absurd (mem_tasks_of_next? (next?_of_sectionOf left)) absent
  · obtain ⟨⟨q', ticket', here', queued'⟩, pending⟩ := taken
    cases QueueBook.sole ends here queued here' queued'
    obtain rfl := eq_call_of_sectionOf polled
    exact absurd pending (none [] k [] w rfl rfl)

/-- A waker that is to be called stays so until it is called. -/
theorem waking_of_step (hstep : w.step? m = some v) (called : .waking waker ∈ w.agenda)
    (other : m ≠ .wake waker) : .waking waker ∈ v.agenda := by
  obtain ⟨done, rest, a, before, after, -, calls, -⟩ := step?_agenda hstep
  rw [before, List.mem_append] at called
  rw [after]
  exact List.mem_append_right _ (called.resolve_left fun now => other (calls waker now))

/-- A waker that is registered on the channel of its request is called, is to be called, or stays
there, unless a later poll takes its place or the request is let go. -/
theorem registered_of_run? (fresh : Instance.create c = .ok x)
    (run : (start x).run? ms = some w) (run' : w.run? ms' = some v)
    (awaits : w.inst.AwaitsOn r d) (registered : w.inst.Registered waker d)
    (none : NoneWaits r w ms') (kept : .call (.dropRequest r) ∉ ms') :
    .wake waker ∈ ms' ∨ .waking waker ∈ v.agenda ∨
      v.inst.AwaitsOn r d ∧ v.inst.Registered waker d := by
  refine run?_induction (P := fun ms' v => NoneWaits r w ms' → .call (.dropRequest r) ∉ ms' →
    .wake waker ∈ ms' ∨ .waking waker ∈ v.agenda ∨
      v.inst.AwaitsOn r d ∧ v.inst.Registered waker d) ?_ ?_ run' none kept
  · intro _ _
    exact .inr (.inr ⟨awaits, registered⟩)
  · intro ms' u m u' hu past hstep none kept
    rw [List.mem_append, not_or, List.mem_singleton] at kept
    rcases past none.left kept.1 with called | waking | ⟨awaits, registered⟩
    · exact .inl (List.mem_append_left _ called)
    · by_cases now : m = .wake waker
      · exact .inl (List.mem_append_right _ (List.mem_singleton.mpr now.symm))
      · exact .inr (.inl (waking_of_step hstep waking now))
    · rcases registered_of_step fresh (run?_trans run hu) hstep awaits registered (none.right hu)
        (Ne.symm kept.2) with still | waking
      · exact .inr (.inr still)
      · exact .inr (.inl waking)

end Registered

/-! ## Within one call -/

section Calls
variable {c : Config} {x : Instance} {waker : Waker} {r d : Nat} {ms ms' : List Move}
  {w v u : World} {m : Move} {k : Call} {a : Agenda Task} {made : Option Nat} {below : List Layer}

/-- What lies below the innermost call after a move was there before it. -/
theorem suffix_of_step (hstep : w.step? m = some v) (top : v.layers = .call k a made :: below) :
    below <:+ w.layers := by
  rcases step?_cases hstep with ⟨c, -, -, -, rfl⟩ | ⟨c, t, rest, made', below', -, hl, rfl⟩ |
    ⟨c, waker, rest, made', below', -, hl, rfl⟩ | ⟨waker, below', -, hl, rfl⟩ |
    ⟨c, made', below', -, hl, rfl⟩
  · cases top
    exact List.suffix_refl _
  · cases top
    rw [hl]
    exact List.suffix_cons _ _
  · cases top
  · obtain rfl : below' = .call k a made :: below := top
    rw [hl]
    exact (List.suffix_cons _ _).trans (List.suffix_cons _ _)
  · obtain rfl : below' = .call k a made :: below := top
    rw [hl]
    exact (List.suffix_cons _ _).trans (List.suffix_cons _ _)

/-- A request leaves its queue in a section of the innermost call. -/
theorem call_of_leave (hstep : w.step? m = some v) (waits : w.inst.InQueue r)
    (left : ¬v.inst.InQueue r) : ∃ k a made below, v.layers = .call k a made :: below := by
  rcases step?_cases hstep with ⟨c, -, -, -, rfl⟩ | ⟨c, t, rest, made', below', -, -, rfl⟩ |
    ⟨c, waker, rest, made', below', -, -, rfl⟩ | ⟨waker, below', -, -, rfl⟩ |
    ⟨c, made', below', -, -, rfl⟩
  · exact ⟨_, _, _, _, rfl⟩
  · exact ⟨_, _, _, _, rfl⟩
  · exact absurd waits left
  · exact absurd waits left
  · exact absurd waits left

/-- The section of a task leaves the innermost call on top of the same layers. -/
theorem layers_of_task {t : Task} (hstep : w.step? m = some v) (next : w.next? = some (.task t))
    (top : w.layers = .call k a made :: below) : ∃ a', v.layers = .call k a' made :: below := by
  obtain rfl := eq_work_of_sectionOf (sectionOf_of_next? hstep next)
  rcases step?_cases hstep with ⟨_, e, -⟩ | ⟨_, _, _, _, _, -, hl, rfl⟩ | ⟨_, _, _, _, _, e, -⟩ |
    ⟨_, _, e, -⟩ | ⟨_, _, _, e, -⟩
  · cases e
  · cases top.symm.trans hl
    exact ⟨_, rfl⟩
  · cases e
  · cases e
  · cases e

/-- What is pending below is pending. -/
theorem agenda_subset (sub : v.layers <:+ w.layers) : v.agenda ⊆ w.agenda := by
  intro i pending
  obtain ⟨layer, member, own⟩ := List.mem_flatMap.mp pending
  exact List.mem_flatMap.mpr ⟨layer, sub.subset member, own⟩

/-- A request that was there before a run has an entry after it only if it had one before. -/
theorem inQueue_of_later (fresh : Instance.create c = .ok x) (run : (start x).run? ms = some w)
    (old : r < w.inst.requests.length) (run' : w.run? ms' = some v) (waits : v.inst.InQueue r) :
    w.inst.InQueue r := by
  have both : r < v.inst.requests.length ∧ (v.inst.InQueue r → w.inst.InQueue r) := by
    refine run?_induction (P := fun _ v => r < v.inst.requests.length ∧
      (v.inst.InQueue r → w.inst.InQueue r)) ⟨old, id⟩ ?_ run'
    rintro ms' u m u' hu ⟨made, past⟩ hstep
    obtain ⟨rest, a, -, -, effect⟩ := step?_effect hstep
    refine ⟨effect.lt_length_requests made, fun waits => past ?_⟩
    exact effect.inQueue_old (queueOrder fresh (run?_trans run hu)) made waits
  exact both.2 waits

/-- An instance that has a request in a queue has an owner. -/
theorem owners_of_inQueue (fresh : Instance.create c = .ok x)
    (run : (start x).run? ms = some w) (waits : w.inst.InQueue r) : w.inst.owners ≠ 0 := by
  intro gone
  obtain ⟨q, ticket, p, e, entry, -⟩ := waits
  rw [((demandAccounts fresh run).of_killed (killed_of_dead fresh run gone)).1 p] at entry
  cases entry

/-- While a waker is registered on the channel of a request, the request is in a queue, or a task is
about to let the sender of the channel go. -/
theorem inQueue_or_closing (fresh : Instance.create c = .ok x)
    (run : (start x).run? ms = some w) (awaits : w.inst.AwaitsOn r d)
    (registered : w.inst.Registered waker d) : w.inst.InQueue r ∨ .closeSender d ∈ w.tasks := by
  obtain ⟨ch, channel, registered⟩ := registered
  obtain ⟨q, ticket, here, queued⟩ := awaits
  obtain ⟨-, there⟩ :=
    waitingEnds fresh run ch (List.mem_of_getElem? channel) (by simp [registered])
  have sender := (channelEnds fresh run).senders d
  rw [goneAt_of_getElem? channel, there, Bool.toNat_false] at sender
  by_cases pending : .closeSender d ∈ w.tasks
  · exact .inr pending
  · left
    rw [List.count_eq_zero_of_not_mem pending] at sender
    have one : 0 < w.inst.state.waiters.countP (Waiter.sendsOn d) := by omega
    obtain ⟨e, entry, own⟩ := List.countP_pos_iff.mp one
    obtain ⟨p, entry⟩ := LockState.mem_waiters_iff.mp entry
    obtain rfl := of_decide_eq_true own
    exact ⟨q, ticket, p, e, entry, here, queued⟩

/-- A waker that was registered on the channel of its request was called when the request is not in
a queue and nothing is pending for it any more. -/
theorem called_of_settled (fresh : Instance.create c = .ok x) (run : (start x).run? ms = some w)
    (awaits : w.inst.AwaitsOn r d) (registered : w.inst.Registered waker d)
    (run' : w.run? ms' = some u) (none : NoneWaits r w ms')
    (kept : .call (.dropRequest r) ∉ ms') (unqueued : ¬u.inst.InQueue r)
    (uncalled : .waking waker ∉ u.agenda) (unclosed : .closeSender d ∉ u.tasks) :
    .wake waker ∈ ms' := by
  rcases registered_of_run? fresh run run' awaits registered none kept with
    called | waking | ⟨awaits', registered'⟩
  · exact called
  · exact absurd waking uncalled
  · rcases inQueue_or_closing fresh (run?_trans run run') awaits' registered' with waits | pending
    · exact absurd waits unqueued
    · exact absurd pending unclosed

/-- When a sender goes next that has sent nothing, the innermost call calls the waker that is
registered on the channel before it returns. -/
theorem called_of_next (waits : WaitingEnds w.inst.channels)
    (registered : w.inst.Registered waker d) (next : w.next? = some (.task (.closeSender d)))
    (top : w.layers = .call k a made :: below) (run' : w.run? ms' = some u)
    (returned : u.layers = below) : .wake waker ∈ ms' := by
  have not_over {v : World} {a' : Agenda Task} (top' : v.layers = .call k a' made :: below) :
      v ≠ u := by
    rintro rfl
    exact List.cons_ne_self _ _ (top'.symm.trans returned)
  -- the first move lets the sender go, and the second calls the waker
  cases ms' with
  | nil => exact absurd (Option.some.inj run') (not_over top)
  | cons m ms' =>
      obtain ⟨v, hstep, run'⟩ := Option.bind_eq_some_iff.mp run'
      obtain ⟨a', top'⟩ := layers_of_task hstep next top
      obtain ⟨rest, a₁, -, -, first, effect⟩ := step?_effect_first hstep
      rw [sectionOf_of_next? hstep next] at effect
      have called : .waking waker ∈ a₁ := by
        rcases effect.registered_kept waits registered with still | called | e | ⟨_, _, e, _⟩
        · exact absurd still (effect.unregistered_of_close waits)
        · exact called
        · cases e
        · cases e
      obtain ⟨⟨more, e, -⟩, -⟩ := effect.waking called
      cases ms' with
      | nil => exact absurd (Option.some.inj run') (not_over top')
      | cons m' ms' =>
          obtain ⟨v', hstep', -⟩ := Option.bind_eq_some_iff.mp run'
          obtain rfl := eq_wake_of_next? hstep' (first _ _ e)
          exact List.mem_cons_of_mem _ List.mem_cons_self

/-- A drop of a request in a queue calls the waker that is registered on its channel. -/
theorem called_by_drop (fresh : Instance.create c = .ok x) (run : (start x).run? ms = some w)
    (few : w.inst.channels.length ≤ 2 ^ 64) (waits : w.inst.InQueue r)
    (awaits : w.inst.AwaitsOn r d) (registered : w.inst.Registered waker d)
    (hstep : w.step? (.call (.dropRequest r)) = some v)
    (top : v.layers = .call k a made :: below) (run' : v.run? ms' = some u)
    (returned : u.layers = below) : .wake waker ∈ ms' := by
  have ends := channelEnds fresh run
  obtain ⟨rest, a₁, -, -, first, effect⟩ := step?_effect_first hstep
  obtain ⟨channels, -, d', more, awaits', e⟩ :=
    effect.drops_undecided (waits.not_decided ends) ends (queueBook fresh run few) few
  obtain rfl := awaits.unique awaits'
  have closing := e.resolve_right fun ⟨_, gone⟩ => owners_of_inQueue fresh run waits (gone waits)
  have registered' : v.inst.Registered waker d' := by
    unfold Instance.Registered
    rw [channels]
    exact registered
  have waitingEnds := waitingEnds fresh (run?_append_singleton_eq_some_iff.mpr ⟨w, run, hstep⟩)
  exact called_of_next waitingEnds registered' (first _ _ closing) top run' returned

/-- The call in which a request leaves its queue calls the waker that is registered on its channel
before it returns, unless the request is let go meanwhile. -/
theorem called_of_leave (fresh : Instance.create c = .ok x) (run : (start x).run? ms = some w)
    (few : w.inst.channels.length ≤ 2 ^ 64) (waits : w.inst.InQueue r)
    (awaits : w.inst.AwaitsOn r d) (registered : w.inst.Registered waker d)
    (uncalled : .waking waker ∉ w.agenda) (hstep : w.step? m = some v)
    (left : ¬v.inst.InQueue r) (top : v.layers = .call k a made :: below)
    (run' : v.run? ms' = some u) (returned : u.layers = below)
    (none : NoneWaits r w (m :: ms')) (kept : .call (.dropRequest r) ∉ ms') :
    .wake waker ∈ ms' := by
  by_cases dropped : m = .call (.dropRequest r)
  · subst dropped
    exact called_by_drop fresh run few waits awaits registered hstep top run' returned
  have run₁ : w.run? (m :: ms') = some u := by
    rw [run?_cons, hstep]
    exact run'
  have sub : u.layers <:+ w.layers := returned ▸ suffix_of_step hstep top
  have kept' : .call (.dropRequest r) ∉ m :: ms' := by
    rw [List.mem_cons, not_or]
    exact ⟨Ne.symm dropped, kept⟩
  have made' : r < v.inst.requests.length := by
    obtain ⟨rest, a', -, -, effect⟩ := step?_effect hstep
    exact effect.lt_length_requests awaits.lt
  have unqueued : ¬u.inst.InQueue r := fun waits' =>
    left (inQueue_of_later fresh (run?_append_singleton_eq_some_iff.mpr ⟨w, run, hstep⟩) made'
      run' waits')
  have unclosed : .closeSender d ∉ u.tasks := by
    intro pending
    apply waits.closeSender_not_mem (channelEnds fresh run) awaits
    rw [tasks_eq] at pending ⊢
    exact List.filterMap_subset _ (agenda_subset sub) pending
  have called := called_of_settled fresh run awaits registered run₁ none kept' unqueued
    (fun waking => uncalled (agenda_subset sub waking)) unclosed
  refine (List.mem_cons.mp called).resolve_left ?_
  rintro rfl
  apply uncalled
  rw [(step?_wake hstep).1]
  exact List.mem_cons_self

/-- While a waker is registered on the channel of a request that has left its queue, a call in
progress is about to let the sender of the channel go. Before it returns it calls the waker, unless
the request is let go meanwhile. -/
theorem called_by_closing (fresh : Instance.create c = .ok x) (run : (start x).run? ms = some w)
    (awaits : w.inst.AwaitsOn r d) (registered : w.inst.Registered waker d)
    (uncalled : .waking waker ∉ w.agenda) (unqueued : ¬w.inst.InQueue r) :
    ∃ above k a made below, w.layers = above ++ .call k a made :: below ∧
      .task (.closeSender d) ∈ a ∧ ∀ ms' u, w.run? ms' = some u → u.layers = below →
        NoneWaits r w ms' → .call (.dropRequest r) ∉ ms' → .wake waker ∈ ms' := by
  have closing := (inQueue_or_closing fresh run awaits registered).resolve_left unqueued
  obtain ⟨layer, member, pending⟩ := List.mem_flatMap.mp closing
  obtain ⟨above, below, e⟩ := List.append_of_mem member
  cases layer with
  | waker => cases pending
  | call k a made =>
      refine ⟨above, k, a, made, below, e, ?_, ?_⟩
      · obtain ⟨i, member, task⟩ := List.mem_filterMap.mp pending
        cases i with
        | waking => cases task
        | task t =>
            cases task
            exact member
      · intro ms' u run' returned none kept
        have sub : u.layers <:+ w.layers := by
          rw [returned, e]
          exact (List.suffix_cons _ _).trans (List.suffix_append _ _)
        refine called_of_settled fresh run awaits registered run' none kept ?_
          (fun waking => uncalled (agenda_subset sub waking)) ?_
        · exact fun waits => unqueued (inQueue_of_later fresh run awaits.lt run' waits)
        · -- the sender goes once
          intro later
          have sender := (channelEnds fresh run).senders d
          have first := List.count_pos_iff.mpr pending
          have second := List.count_pos_iff.mpr later
          unfold tasks at sender second
          rw [returned] at second
          rw [e, List.flatMap_append, List.flatMap_cons, List.count_append, List.count_append]
            at sender
          omega

end Calls

/-! ## The notice of a verdict -/

section Notified
variable {c : Config} {x : Instance} {waker : Waker} {r : Nat} {ms ms' : List Move}
  {w w₁ v : World}

/-- A poll that waits leaves its waker where its request waits. -/
theorem notice_of_poll (fresh : Instance.create c = .ok x) (run : (start x).run? ms = some w)
    (polled : w.step? (.call (.poll r waker)) = some w₁)
    (pending : (w.inst.poll r waker).1 = .ok none) (few : w₁.inst.channels.length ≤ 2 ^ 64)
    (only : OnlyPolls waker r (ms ++ [.call (.poll r waker)])) :
    Notice waker r [] w₁ ∧ ∃ d, w₁.inst.AwaitsOn r d ∧ w₁.inst.Registered waker d := by
  have run₁ := run?_append_singleton_eq_some_iff.mpr ⟨w, run, polled⟩
  obtain ⟨rest, a, -, -, effect⟩ := step?_effect polled
  have made : r < w.inst.requests.length := by
    obtain ⟨q, here, -⟩ := exists_of_holdsRequest (allows_of_step? polled)
    exact (List.getElem?_eq_some_iff.mp here).1
  obtain ⟨d, awaits, registered⟩ := effect.registers (channelEnds fresh run) made pending
  have undecided := awaits.not_decided registered (waitingEnds fresh run₁)
  exact ⟨notice_of_undecided fresh run₁ few only undecided, d, awaits, registered⟩

/-- As long as its request is in a queue, a waker that was registered there and has not been called
is registered there, as long as no later poll waits. -/
theorem registered_of_inQueue (fresh : Instance.create c = .ok x)
    (run : (start x).run? ms = some w) {d : Nat} (awaits : w.inst.AwaitsOn r d)
    (registered : w.inst.Registered waker d) (run' : w.run? ms' = some v)
    (stage : Notice waker r ms' v) (last : NoneWaits r w ms') (waits : v.inst.InQueue r) :
    v.inst.AwaitsOn r d ∧ v.inst.Registered waker d := by
  have undecided := waits.not_decided (channelEnds fresh (run?_trans run run'))
  obtain ⟨confined, uncalled⟩ := stage.confined undecided
  have kept : .call (.dropRequest r) ∉ ms' := fun dropped =>
    undecided (.inr (spent_of_dropped run' dropped))
  rcases registered_of_run? fresh run run' awaits registered last kept with
    called | waking | still
  · exact absurd called uncalled
  · exact absurd waking confined.uncalled
  · exact still

/-- The waker of a poll that waits is called once, in the call that decides the request, and only
the drop of the request itself calls it without a verdict. So a task that waits neither hangs nor is
called in vain. The tickets are bounded, as entries in queues are found by them. -/
theorem notified_once (fresh : Instance.create c = .ok x) (run : (start x).run? ms = some w)
    (polled : w.step? (.call (.poll r waker)) = some w₁)
    (pending : (w.inst.poll r waker).1 = .ok none) (run' : w₁.run? ms' = some v)
    (only : OnlyPolls waker r (ms ++ .call (.poll r waker) :: ms')) (last : NoneWaits r w₁ ms')
    (few : v.inst.channels.length ≤ 2 ^ 64) :
    ms'.count (.wake waker) ≤ 1 ∧
    (∀ ms₁ ms₂ u, ms' = ms₁ ++ ms₂ → w₁.run? ms₁ = some u → u.inst.InQueue r →
      .wake waker ∉ ms₁) ∧
    (∀ ms₁ ms₂ u, ms' = ms₁ ++ .wake waker :: ms₂ → w₁.run? ms₁ = some u →
      (∀ k, ∃ verdict, (u.inst.poll r k).1 = .ok (some verdict)) ∨
        ∃ ms₀, ms₁ = ms₀ ++ [.call (.dropRequest r), .work]) ∧
    (∀ ms₁ m ms₂ u u', ms' = ms₁ ++ m :: ms₂ → w₁.run? ms₁ = some u → u.step? m = some u' →
      u.inst.InQueue r → ¬u'.inst.InQueue r →
      ((∃ g, u'.inst.HoldsGrant r g) ∨ m = .call (.dropRequest r) ∨
        u'.inst.state.killed = true) ∧
      ∃ k a made below, u'.layers = .call k a made :: below ∧
        ∀ ms₃ ms₄ u'', ms₂ = ms₃ ++ ms₄ → u'.run? ms₃ = some u'' → u''.layers = below →
          .call (.dropRequest r) ∉ ms₃ → ms₃.count (.wake waker) = 1) ∧
    (w₁.inst.InQueue r ∨ ∃ d above k a made below, w₁.inst.AwaitsOn r d ∧
      w₁.layers = above ++ .call k a made :: below ∧ .task (.closeSender d) ∈ a ∧
      ∀ ms₁ ms₂ u, ms' = ms₁ ++ ms₂ → w₁.run? ms₁ = some u → u.layers = below →
        .call (.dropRequest r) ∉ ms₁ → ms₁.count (.wake waker) = 1) := by
  have run₁ := run?_append_singleton_eq_some_iff.mpr ⟨w, run, polled⟩
  have only' : OnlyPolls waker r ((ms ++ [.call (.poll r waker)]) ++ ms') := by
    rwa [List.append_assoc, List.singleton_append]
  obtain ⟨stage, d, awaits, registered⟩ := notice_of_poll fresh run polled pending
    (Nat.le_trans (length_channels_of_run? run') few) only'.left
  -- where the waker is at a point of the later run
  have stages {ms₁ ms₂ : List Move} {u : World} (e : ms' = ms₁ ++ ms₂)
      (run₂ : w₁.run? ms₁ = some u) : u.inst.channels.length ≤ 2 ^ 64 ∧ Notice waker r ms₁ u := by
    subst e
    have few' := Nat.le_trans (length_channels_of_run? (run?_rest run' run₂)) few
    exact ⟨few', notice_of_run? fresh run₁ stage run₂ few' only'.right.left⟩
  have once_of {ms₀ : List Move} (part : ms₀.Sublist ms') (called : .wake waker ∈ ms₀) :
      ms₀.count (.wake waker) = 1 := by
    have once := (notice_of_run? fresh run₁ stage run' few only'.right).once
    exact Nat.le_antisymm (Nat.le_trans (part.count_le _) once) (List.count_pos_iff.mpr called)
  refine ⟨(notice_of_run? fresh run₁ stage run' few only'.right).once, ?_, ?_, ?_, ?_⟩
  · intro ms₁ ms₂ u e run₂ waits
    have ends := channelEnds fresh (run?_trans run₁ run₂)
    exact ((stages e run₂).2.confined (waits.not_decided ends)).2
  · intro ms₁ ms₂ u e run₂
    have later := run?_rest (e ▸ run') run₂
    obtain ⟨u', hwake, -⟩ := Option.bind_eq_some_iff.mp later
    rcases (stages e run₂).2.cause hwake with ready | dropped
    · exact .inl fun k => (u.inst.isReady_iff_poll r k).mp (Instance.isReady_iff.mpr ready)
    · exact .inr dropped
  · intro ms₁ m ms₂ u u' e run₂ hstep waits left
    obtain ⟨few', stage'⟩ := stages e run₂
    have reached := run?_trans run₁ run₂
    constructor
    · rcases (step?_wait_ends fresh reached few' hstep waits).resolve_left left with holds | ended
      · exact .inl ⟨_, holds⟩
      · exact .inr ended
    · obtain ⟨k, a, made, below, top⟩ := call_of_leave hstep waits left
      refine ⟨k, a, made, below, top, ?_⟩
      rintro ms₃ ms₄ u'' rfl run₃ returned kept
      rw [← List.cons_append, ← List.append_assoc] at e
      have last' : NoneWaits r w₁ (ms₁ ++ m :: ms₃) := (e ▸ last).left
      obtain ⟨awaits', registered'⟩ :=
        registered_of_inQueue fresh run₁ awaits registered run₂ stage' last'.left waits
      have uncalled := (stage'.confined (waits.not_decided (channelEnds fresh reached))).1.uncalled
      have part : ms₃.Sublist ms' := by
        rw [e, List.append_assoc]
        exact ((List.sublist_append_left _ _).cons _).trans (List.sublist_append_right _ _)
      exact once_of part (called_of_leave fresh reached few' waits awaits' registered' uncalled
        hstep left top run₃ returned (last'.right run₂) kept)
  · refine or_iff_not_imp_left.mpr fun unqueued => ?_
    have undecided := awaits.not_decided registered (waitingEnds fresh run₁)
    obtain ⟨above, k, a, made, below, e, closing, calls⟩ := called_by_closing fresh run₁ awaits
      registered (stage.confined undecided).1.uncalled unqueued
    refine ⟨d, above, k, a, made, below, awaits, e, closing, ?_⟩
    rintro ms₁ ms₂ u rfl run₂ returned kept
    exact once_of (List.sublist_append_left _ _) (calls ms₁ u run₂ returned last.left kept)

/-- A lock with one slot, which one request has while another waits for it. The slot comes back, and
the poll of the grant loop that grants the other request calls its waker once. -/
theorem notified_once_of_two_requests :
    ∃ w w₁ u u' v, (start (.ofConfig { concurrency := 1, weights := [1] })).run?
        [.call (.request 0), .callEnds, .call (.request 0), .callEnds] = some w ∧
      (w.inst.poll 1 (.named "a")).1 = .ok none ∧
      w.step? (.call (.poll 1 (.named "a"))) = some w₁ ∧
      w₁.run? [.callEnds, .call (.poll 0 .silent), .callEnds, .call (.release 0), .work, .work,
        .callEnds, .call (.drive .silent), .work] = some u ∧ u.inst.InQueue 1 ∧
      u.step? .work = some u' ∧ u'.inst.HoldsGrant 1 1 ∧
      u'.run? [.wake (.named "a"), .wakerEnds, .work, .work, .work, .work, .work, .work,
        .callEnds] = some v ∧
      [.wake (.named "a"), .wakerEnds, .work, .work, .work, .work, .work, .work, .callEnds].count
        (Move.wake (.named "a")) = 1 := by
  have run : (start (.ofConfig { concurrency := 1, weights := [1] })).run?
      [.call (.request 0), .callEnds, .call (.request 0), .callEnds] = some _ := rfl
  obtain ⟨-, -, -, within, -⟩ := notified_once (c := { concurrency := 1, weights := [1] }) rfl run
    (rfl : step? _ (.call (.poll 1 (.named "a"))) = some _) rfl
    (rfl : run? _ [.callEnds, .call (.poll 0 .silent), .callEnds, .call (.release 0), .work, .work,
      .callEnds, .call (.drive .silent), .work, .work, .wake (.named "a"), .wakerEnds, .work, .work,
      .work, .work, .work, .work, .callEnds] = some _)
    (by simp [OnlyPolls]) (noneWaits_of_unpolled (by simp)) (by decide)
  refine ⟨_, _, _, _, _, run, rfl, rfl, rfl, ⟨_, _, 0, _, .head _, rfl, rfl⟩, rfl,
    .delivered rfl rfl rfl rfl, rfl, ?_⟩
  have granted := within
    [.callEnds, .call (.poll 0 .silent), .callEnds, .call (.release 0), .work, .work, .callEnds,
      .call (.drive .silent), .work] .work
    [.wake (.named "a"), .wakerEnds, .work, .work, .work, .work, .work, .work, .callEnds]
    _ _ rfl rfl rfl ⟨_, _, 0, _, .head _, rfl, rfl⟩
  obtain ⟨-, k, a, made, below, top, once⟩ := granted (by
    rintro ⟨q, ticket, p, e, entry, -⟩
    cases LockState.mem_waiters_iff.mpr ⟨p, entry⟩)
  cases top
  exact once _ [] _ rfl rfl rfl (by simp)

/-- A request that waits is let go, on a lock with one slot that another request has. The drop calls
its waker, though the request has no verdict: nothing was granted, and the lock was not killed and
has an owner. -/
theorem woken_by_own_drop :
    ∃ w w₁ u v, (start (.ofConfig { concurrency := 1, weights := [1] })).run?
        [.call (.request 0), .callEnds, .call (.request 0), .callEnds] = some w ∧
      (w.inst.poll 1 (.named "a")).1 = .ok none ∧
      w.step? (.call (.poll 1 (.named "a"))) = some w₁ ∧
      w₁.run? [.callEnds, .call (.dropRequest 1), .work] = some u ∧
      OnlyPolls (.named "a") 1 [.call (.request 0), .callEnds, .call (.request 0), .callEnds,
        .call (.poll 1 (.named "a")), .callEnds, .call (.dropRequest 1), .work] ∧
      u.step? (.wake (.named "a")) = some v ∧ u.inst.isReady 1 = false ∧
      u.inst.grants.length = w₁.inst.grants.length ∧ u.inst.state.killed = false ∧
      u.inst.isAlive = true :=
  ⟨_, _, _, _, rfl, rfl, rfl, rfl, by simp [OnlyPolls], rfl, rfl, rfl, rfl, rfl⟩

end Notified

end World

end FairShare
