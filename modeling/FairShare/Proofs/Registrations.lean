import FairShare.Proofs.Kills
import FairShare.Proofs.Queues
import FairShare.Proofs.Wakeups

/-!
# Registrations of wakers

A waker is registered by a poll that waits: on the channel of a request, or with the wake event by a
poll of the grant loop. It is taken out when it is called, so whoever calls it does so on behalf of
the place where it was. A waker that users keep for the polls of one request is nowhere but on the
channel of that request, and while the request is in a queue nobody takes it from there.
-/

namespace FairShare

/-- The waker of the poll of the grant loop that goes on with the task. -/
def Task.waker? : Task → Option Waker
  | resume w | pass w | settle w => some w
  | _ => none

/-- The wakers of the polls of the grant loop that go on with the tasks. -/
def pollers (tasks : List Task) : List Waker :=
  tasks.filterMap Task.waker?

@[simp] theorem pollers_nil : pollers [] = [] := rfl

@[simp] theorem pollers_cons (t : Task) (tasks : List Task) :
    pollers (t :: tasks) = t.waker?.toList ++ pollers tasks := by
  cases own : t.waker? <;> simp [pollers, own]

@[simp] theorem pollers_append (tasks tasks' : List Task) :
    pollers (tasks ++ tasks') = pollers tasks ++ pollers tasks' :=
  List.filterMap_append

@[simp] theorem pollers_ite_wakeLoop {P : Prop} [Decidable P] :
    pollers (if P then [.wakeLoop] else []) = [] := by
  split <;> rfl

theorem pollers_map {α : Type} (f : α → Task) (own : ∀ v, (f v).waker? = none)
    (l : List α) : pollers (l.map f) = [] := by
  induction l with
  | nil => rfl
  | cons v l ih => simp [own, ih]

@[simp] theorem pollers_closeSenders (waiters : List Waiter) :
    pollers (waiters.map fun w => .closeSender w.channel) = [] :=
  pollers_map _ (fun _ => rfl) waiters

@[simp] theorem pollers_dropLocks (grants : List Nat) : pollers (grants.map .dropLock) = [] :=
  pollers_map _ (fun _ => rfl) grants

theorem mem_pollers_resume {waker : Waker} {tasks : List Task} (h : .resume waker ∈ tasks) :
    waker ∈ pollers tasks :=
  List.mem_filterMap.mpr ⟨_, h, rfl⟩

namespace Instance

/-- The waker is registered on the channel. -/
def Registered (x : Instance) (waker : Waker) (c : Nat) : Prop :=
  ∃ ch, x.channels[c]? = some ch ∧ ch.waker = some waker

/-- The request awaits its verdict on the channel. -/
def AwaitsOn (x : Instance) (r c : Nat) : Prop :=
  ∃ q ticket, x.requests[r]? = some q ∧ q.progress = .queued ticket c

variable {x : Instance} {r c : Nat} {tasks : List Task}

theorem AwaitsOn.lt (h : x.AwaitsOn r c) : r < x.requests.length := by
  obtain ⟨q, ticket, here, -⟩ := h
  exact (List.getElem?_eq_some_iff.mp here).1

/-- A request awaits its verdict on one channel. -/
theorem AwaitsOn.unique {d : Nat} (h : x.AwaitsOn r c) (h' : x.AwaitsOn r d) : d = c := by
  obtain ⟨q, ticket, here, queued⟩ := h
  obtain ⟨q', ticket', here', queued'⟩ := h'
  cases here.symm.trans here'
  rw [queued] at queued'
  exact (Progress.queued.inj queued').2.symm

/-- A spent request awaits nothing. -/
theorem Spent.not_awaitsOn (h : x.Spent r) : ¬x.AwaitsOn r c := by
  rintro ⟨q, ticket, here, queued⟩
  obtain ⟨q', here', spent⟩ := h
  cases here.symm.trans here'
  rw [queued] at spent
  rcases spent with e | e | e <;> cases e

/-- A request in a queue awaits its verdict on the channel of its entry. -/
theorem InQueue.entry_of_awaitsOn (h : x.InQueue r) (awaits : x.AwaitsOn r c) :
    ∃ p, ∃ e ∈ x.state.queueAt p, e.channel = c := by
  obtain ⟨q, ticket, p, e, entry, here, queued⟩ := h
  obtain ⟨q', ticket', here', queued'⟩ := awaits
  cases here.symm.trans here'
  rw [queued] at queued'
  exact ⟨p, e, entry, (Progress.queued.inj queued').2⟩

/-- Nobody is about to let the sender of a request in a queue go. -/
theorem InQueue.closeSender_not_mem (h : x.InQueue r)
    (ends : ChannelEnds x.state.waiters x.requests x.channels tasks) (awaits : x.AwaitsOn r c) :
    .closeSender c ∉ tasks := by
  obtain ⟨p, e, entry, rfl⟩ := h.entry_of_awaitsOn awaits
  exact (ends.sender_of_mem (LockState.mem_waiters_iff.mpr ⟨p, entry⟩)).2.1

/-- The channel of a request in a queue has nothing in it, and both its ends are there. -/
theorem InQueue.ungranted (h : x.InQueue r)
    (ends : ChannelEnds x.state.waiters x.requests x.channels tasks) :
    ∃ c, x.AwaitsOn r c ∧ x.Ungranted r c ∧ goneAt Handoff.senderGone x.channels c = false := by
  obtain ⟨q, ticket, p, e, entry, here, queued⟩ := h
  have member := LockState.mem_waiters_iff.mpr ⟨p, entry⟩
  obtain ⟨-, -, ch, channel, sender⟩ := ends.sender_of_mem member
  have empty := ends.unsent e member ch channel
  refine ⟨e.channel, ⟨q, ticket, here, queued⟩, ⟨q, ticket, ch, here, queued, channel, empty⟩, ?_⟩
  rw [goneAt_of_getElem? channel, sender]

/-- A poll of a request waits while its channel is empty and the sender is there. -/
theorem poll_of_waiting {q : Request} {ticket : UInt64} {ch : Handoff Nat}
    (here : x.requests[r]? = some q) (queued : q.progress = .queued ticket c)
    (channel : x.channels[c]? = some ch) (empty : ch.value = none) (sender : ch.senderGone = false)
    (waker : Waker) : (x.poll r waker).1 = .ok none := by
  have ungranted : x.Ungranted r c := ⟨q, ticket, ch, here, queued, channel, empty⟩
  rw [ungranted.poll waker, goneAt_of_getElem? channel, sender]
  rfl

/-- A poll of a request in a queue waits. -/
theorem InQueue.poll (h : x.InQueue r)
    (ends : ChannelEnds x.state.waiters x.requests x.channels tasks) (waker : Waker) :
    (x.poll r waker).1 = .ok none := by
  obtain ⟨c, -, ungranted, there⟩ := h.ungranted ends
  rw [ungranted.poll waker, there]
  rfl

theorem InQueue.not_isReady (h : x.InQueue r)
    (ends : ChannelEnds x.state.waiters x.requests x.channels tasks) : x.isReady r = false := by
  by_contra ready
  rw [Bool.not_eq_false] at ready
  obtain ⟨v, answer⟩ := (isReady_iff_poll x r .silent).mp ready
  cases (h.poll ends .silent).symm.trans answer

end Instance

/-- Who has a waker registered on a channel waits: nothing was sent, and the sender is there. -/
def WaitingEnds (channels : List (Handoff Nat)) : Prop :=
  ∀ ch ∈ channels, ch.waker ≠ none → ch.value = none ∧ ch.senderGone = false

/-! ## What effects do to a registration -/

section Effects
variable {x x' : Instance} {L L' : List Nat} {sec : Section} {a : Agenda Task} {waker : Waker}
  {r c : Nat}

/-- A waker comes on a channel by a poll that waits for the verdict there. -/
theorem Effect.registered (effect : Effect x L sec x' a L') (h : x'.Registered waker c) :
    x.Registered waker c ∨
      ∃ r, sec = .call (.poll r waker) ∧ x.AwaitsOn r c ∧ (x.poll r waker).1 = .ok none := by
  obtain ⟨ch', channel', registered⟩ := h
  have cleared {d : Nat} {ch : Handoff Nat} (none : ch.waker = none)
      (there : (x.channels.set d ch)[c]? = some ch') : x.Registered waker c := by
    rcases of_getElem?_set there with ⟨-, rfl⟩ | ⟨-, old⟩
    · cases none.symm.trans registered
    · exact ⟨ch', old, registered⟩
  cases effect with
  | queue =>
      rcases of_getElem?_append_singleton channel' with old | ⟨-, rfl⟩
      · exact .inl ⟨ch', old, registered⟩
      · cases registered
  | wait here queued channel empty sender =>
      rcases of_getElem?_set channel' with ⟨rfl, rfl⟩ | ⟨-, old⟩
      · cases registered
        exact .inr ⟨_, rfl, ⟨_, _, here, queued⟩,
          Instance.poll_of_waiting here queued channel empty sender waker⟩
      · exact .inl ⟨ch', old, registered⟩
  | closeFull channel =>
      rcases of_getElem?_set channel' with ⟨rfl, rfl⟩ | ⟨-, old⟩
      · exact .inl ⟨_, channel, registered⟩
      · exact .inl ⟨ch', old, registered⟩
  | receive | fail | closeEmpty | dropReceiver | grant => exact .inl (cleared rfl channel')
  | _ => exact .inl ⟨ch', channel', registered⟩

/-- A waker stays on its channel until it is called, a later poll takes its place, or the receiver
goes. -/
theorem Effect.registered_kept (effect : Effect x L sec x' a L') (waits : WaitingEnds x.channels)
    (h : x.Registered waker c) :
    x'.Registered waker c ∨ .waking waker ∈ a ∨ sec = .task (.dropReceiver c) ∨
      ∃ r k, sec = .call (.poll r k) ∧ x.AwaitsOn r c ∧ (x.poll r k).1 = .ok none := by
  obtain ⟨ch, channel, registered⟩ := h
  obtain ⟨empty, sender⟩ := waits ch (List.mem_of_getElem? channel) (by simp [registered])
  have replaced {d : Nat} {ch' : Handoff Nat} (apart : d ≠ c) :
      ∃ ch₁, (x.channels.set d ch')[c]? = some ch₁ ∧ ch₁.waker = some waker :=
    ⟨ch, (List.getElem?_set_ne apart).trans channel, registered⟩
  cases effect with
  | queue => exact .inl ⟨ch, getElem?_append_of_some channel _, registered⟩
  | @wait k r q ticket d _ here queued channel' empty' sender' =>
      by_cases same : d = c
      · subst same
        exact .inr (.inr (.inr ⟨r, k, rfl, ⟨q, ticket, here, queued⟩,
          Instance.poll_of_waiting here queued channel' empty' sender' k⟩))
      · exact .inl (replaced same)
  | @receive k r q ticket d _ g here queued channel' full =>
      left
      apply replaced
      rintro rfl
      cases channel.symm.trans channel'
      cases empty.symm.trans full
  | @fail k r q ticket d _ here queued channel' _ gone =>
      left
      apply replaced
      rintro rfl
      cases channel.symm.trans channel'
      cases sender.symm.trans gone
  | @closeFull d g _ channel' full =>
      left
      apply replaced
      rintro rfl
      cases channel.symm.trans channel'
      cases empty.symm.trans full
  | @closeEmpty d _ channel' =>
      by_cases same : d = c
      · subst same
        cases channel.symm.trans channel'
        exact .inr (.inl (by simp [registered]))
      · exact .inl (replaced same)
  | @dropReceiver d =>
      by_cases same : d = c
      · subst same
        exact .inr (.inr (.inl rfl))
      · exact .inl (replaced same)
  | @grant _ _ _ _ e _ _ _ _ _ _ channel' =>
      by_cases same : e.channel = c
      · subst same
        cases channel.symm.trans channel'
        exact .inr (.inl (by simp [registered]))
      · exact .inl (replaced same)
  | _ => exact .inl ⟨ch, channel, registered⟩

/-- No waker is registered on a channel whose sender has just gone. -/
theorem Effect.unregistered_of_close (effect : Effect x L (.task (.closeSender c)) x' a L')
    (waits : WaitingEnds x.channels) : ¬x'.Registered waker c := by
  rintro ⟨ch', there, registered⟩
  cases effect with
  | closeFull channel full =>
      cases (getElem?_set_of_some channel _).symm.trans there
      have occupied := Option.ne_none_iff_exists'.mpr ⟨waker, registered⟩
      cases full.symm.trans (waits _ (List.mem_of_getElem? channel) occupied).1
  | closeEmpty channel =>
      cases (getElem?_set_of_some channel _).symm.trans there
      cases registered
  | closeMissing missing => cases missing.symm.trans there
  | letGoMissing lets | letGoClone lets | letGoLast lets => cases lets

/-- A receiver that goes takes the waker of its channel with it and calls none. -/
theorem Effect.unregistered_of_dropReceiver
    (effect : Effect x L (.task (.dropReceiver c)) x' a L') :
    ¬x'.Registered waker c ∧ .waking waker ∉ a := by
  cases effect with
  | dropReceiver channel =>
      refine ⟨?_, by simp⟩
      rintro ⟨ch', there, registered⟩
      cases (getElem?_set_of_some channel _).symm.trans there
      cases registered
  | dropReceiverMissing missing =>
      refine ⟨?_, List.not_mem_nil⟩
      rintro ⟨ch', there, -⟩
      cases missing.symm.trans there
  | letGoMissing lets | letGoClone lets | letGoLast lets => cases lets

/-- Every effect keeps those waiting who have a waker registered. -/
theorem WaitingEnds.keeps (effect : Effect x L sec x' a L') (h : WaitingEnds x.channels) :
    WaitingEnds x'.channels := by
  have replaced {d : Nat} {ch' : Handoff Nat}
      (waits : ch'.waker ≠ none → ch'.value = none ∧ ch'.senderGone = false) :
      WaitingEnds (x.channels.set d ch') := by
    intro ch member registered
    rcases List.mem_or_eq_of_mem_set member with old | rfl
    · exact h ch old registered
    · exact waits registered
  have cleared {d : Nat} {ch' : Handoff Nat} (none : ch'.waker = none) :
      WaitingEnds (x.channels.set d ch') :=
    replaced fun registered => absurd none registered
  cases effect with
  | queue =>
      intro ch member registered
      rcases List.mem_append.mp member with old | new
      · exact h ch old registered
      · rw [List.mem_singleton.mp new]
        exact ⟨rfl, rfl⟩
  | wait _ _ _ empty sender => exact replaced fun _ => ⟨empty, sender⟩
  | closeFull channel full =>
      apply replaced
      intro registered
      cases full.symm.trans (h _ (List.mem_of_getElem? channel) registered).1
  | receive | fail | closeEmpty | dropReceiver | grant => exact cleared rfl
  | _ => exact h

/-- A waker is called before anything else that follows, and once: by a call of the grant loop that
it is registered for, or from a channel on which a verdict has just come. -/
theorem Effect.waking (effect : Effect x L sec x' a L') (calls : .waking waker ∈ a) :
    (∃ more, a = .waking waker :: more ∧ .waking waker ∉ more) ∧
      ((sec = .task .wakeLoop ∧ x.wake.waker = some waker) ∨
        ∃ c, x.Registered waker c ∧
          ∃ ch, x'.channels[c]? = some ch ∧ (ch.isReady || ch.isClosed) = true) := by
  have of_callWaker {o : Option Waker} (called : .waking waker ∈ (callWaker o : Agenda Task)) :
      o = some waker := by
    cases o with
    | none => cases called
    | some k => simpa [eq_comm] using called
  cases effect with
  | wakeLoop =>
      have registered := of_callWaker calls
      exact ⟨⟨[], by rw [registered, callWaker_some], List.not_mem_nil⟩, .inl ⟨rfl, registered⟩⟩
  | closeEmpty channel empty =>
      have registered := of_callWaker calls
      refine ⟨⟨[], by rw [registered, callWaker_some], List.not_mem_nil⟩, .inr ⟨_, ⟨_, channel,
        registered⟩, _, getElem?_set_of_some channel _, by simp [Handoff.isClosed, empty]⟩⟩
  | grant _ _ _ _ _ channel =>
      rcases List.mem_append.mp calls with now | later
      · have registered := of_callWaker now
        refine ⟨⟨_, by rw [registered, callWaker_some, List.singleton_append], by simp⟩, .inr ⟨_,
          ⟨_, channel, registered⟩, _, getElem?_set_of_some channel _, rfl⟩⟩
      · simp at later
  | _ => simp [Instance.wakeLoopIf, Instance.closeAll] at calls

/-- The wake event gets a waker from a poll of the grant loop that finds the instance there. -/
theorem Effect.event_registered (effect : Effect x L sec x' a L')
    (h : x'.wake.waker = some waker) :
    x.wake.waker = some waker ∨ sec = .task (.resume waker) ∧ x.owners ≠ 0 := by
  cases effect with
  | park owned =>
      cases h
      exact .inr ⟨rfl, owned⟩
  | wakeLoop | beginPass => cases h
  | _ => exact .inl h

/-- A poll of the grant loop goes on with the waker that it was begun with. -/
theorem Effect.mem_pollers (effect : Effect x L sec x' a L')
    (follows : waker ∈ pollers (tasksOf a)) :
    sec = .call (.drive waker) ∨ waker ∈ pollers sec.tasks := by
  cases effect with
  | drive =>
      left
      simpa [Task.waker?, eq_comm] using follows
  | beginPass | passIdle | passStalled | passEmpty | grantLost | grantReturned | grant | settle =>
      right
      simpa [Task.waker?] using follows
  | _ => simp [Task.waker?] at follows

end Effects

namespace World

/-- The waker is on no agenda, is not used for the grant loop, and is registered on the channels
with the property only. -/
structure Confined (waker : Waker) (P : Nat → Prop) (w : World) : Prop where
  channels : ∀ c, w.inst.Registered waker c → P c
  event : w.inst.wake.waker ≠ some waker
  polls : waker ∉ pollers w.tasks
  uncalled : .waking waker ∉ w.agenda

/-- The waker is used for polls of the request, and for no other polls. -/
def OnlyPolls (waker : Waker) (r : Nat) (ms : List Move) : Prop :=
  (∀ r', .call (.poll r' waker) ∈ ms → r' = r) ∧ .call (.drive waker) ∉ ms

variable {waker : Waker} {r : Nat} {ms ms' : List Move} {m : Move} {w v : World}

theorem OnlyPolls.left (h : OnlyPolls waker r (ms ++ ms')) : OnlyPolls waker r ms :=
  ⟨fun r' polled => h.1 r' (List.mem_append_left _ polled),
    fun driven => h.2 (List.mem_append_left _ driven)⟩

theorem OnlyPolls.right (h : OnlyPolls waker r (ms ++ ms')) : OnlyPolls waker r ms' :=
  ⟨fun r' polled => h.1 r' (List.mem_append_right _ polled),
    fun driven => h.2 (List.mem_append_right _ driven)⟩

/-- A confined waker is not called. -/
theorem Confined.ne_wake {P : Nat → Prop} (h : w.Confined waker P) (hstep : w.step? m = some v) :
    m ≠ .wake waker := by
  rintro rfl
  apply h.uncalled
  rw [(step?_wake hstep).1]
  exact List.mem_cons_self

/-- Whatever a move does to a confined waker, it is not registered for the grant loop after it. -/
theorem Confined.unpolled {P : Nat → Prop} (h : w.Confined waker P)
    (only : OnlyPolls waker r [m]) (hstep : w.step? m = some v) :
    v.inst.wake.waker ≠ some waker ∧ waker ∉ pollers v.tasks := by
  obtain ⟨rest, a, before, after, effect⟩ := step?_effect hstep
  have polls := h.polls
  rw [before, pollers_append, List.mem_append, not_or] at polls
  constructor
  · intro registered
    rcases effect.event_registered registered with old | ⟨resumes, -⟩
    · exact h.event old
    · apply polls.1
      rw [resumes]
      exact mem_pollers_resume (.head _)
  · rw [after, pollers_append, List.mem_append]
    rintro (now | later)
    · rcases effect.mem_pollers now with driven | old
      · exact only.2 (List.mem_singleton.mpr (eq_call_of_sectionOf driven).symm)
      · exact polls.1 old
    · exact polls.2 later

/-- A confined waker is registered where it was, or by a poll of its request that waits. -/
theorem Confined.registered_of_step {P : Nat → Prop} (h : w.Confined waker P)
    (only : OnlyPolls waker r [m]) (hstep : w.step? m = some v) {c : Nat}
    (registered : v.inst.Registered waker c) :
    P c ∨ w.inst.AwaitsOn r c ∧ (w.inst.poll r waker).1 = .ok none := by
  obtain ⟨rest, a, -, -, effect⟩ := step?_effect hstep
  rcases effect.registered registered with old | ⟨r', polled, waits⟩
  · exact .inl (h.channels c old)
  · obtain rfl := only.1 r' (List.mem_singleton.mpr (eq_call_of_sectionOf polled).symm)
    exact .inr waits

/-- A confined waker that is about to be called is next, was registered on a channel on which a
verdict has just come, and is not to be called again. -/
theorem Confined.called_of_step {P : Nat → Prop} (h : w.Confined waker P)
    (hstep : w.step? m = some v) (called : .waking waker ∈ v.agenda) :
    v.next? = some (.waking waker) ∧ .waking waker ∉ v.agenda.tail ∧
      ∃ c, P c ∧ ∃ ch, v.inst.channels[c]? = some ch ∧ (ch.isReady || ch.isClosed) = true := by
  obtain ⟨done, rest, a, before, after, -, -, first, effect⟩ := step?_agenda hstep
  have uncalled : .waking waker ∉ rest := by
    intro later
    apply h.uncalled
    rw [before]
    exact List.mem_append_right _ later
  rw [after] at called
  obtain ⟨⟨more, e, others⟩, cause⟩ := effect.waking ((List.mem_append.mp called).resolve_right
    uncalled)
  refine ⟨first _ _ e, ?_, ?_⟩
  · rw [after, e, List.cons_append, List.tail_cons, List.mem_append, not_or]
    exact ⟨others, uncalled⟩
  · rcases cause with ⟨-, registered⟩ | ⟨c, registered, verdict⟩
    · exact absurd registered h.event
    · exact ⟨c, h.channels c registered, verdict⟩

/-- A waker that is called is confined to the channels where it is registered. -/
theorem confined_of_wake {P : Nat → Prop} (hwake : w.step? (.wake waker) = some v)
    (channels : ∀ c, w.inst.Registered waker c → P c) (event : w.inst.wake.waker ≠ some waker)
    (polls : waker ∉ pollers w.tasks) (once : .waking waker ∉ w.agenda.tail) :
    v.Confined waker P := by
  obtain ⟨calls, same, -⟩ := step?_wake hwake
  rw [calls, List.tail_cons] at once
  rw [tasks_eq, calls, tasksOf_waking, ← tasks_eq] at polls
  exact ⟨same ▸ channels, same ▸ event, polls, once⟩

section Runs
variable {c : Config} {x : Instance}

/-- Throughout a run, who has a waker registered on a channel waits. -/
theorem waitingEnds (fresh : Instance.create c = .ok x) (run : (start x).run? ms = some w) :
    WaitingEnds w.inst.channels := by
  refine run?_invariant (I := fun x _ _ => WaitingEnds x.channels) ?_ run ?_
  · intro x L sec x' a L' effect rest h
    exact h.keeps effect
  · rw [eq_ofConfig_of_create fresh]
    intro ch member
    cases member

end Runs

end World

end FairShare
