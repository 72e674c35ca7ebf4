import FairShare.Proofs.Order
import FairShare.Proofs.Registrations

/-!
# Notices of verdicts

The waker of the polls of a request is on the channel of the request until the verdict comes, or
the request is let go. Either takes it away from there, to be called next if it is the sender that
goes or sends, and after that it is nowhere: no poll of a request that is decided waits.
-/

namespace FairShare

namespace Instance

variable {x : Instance} {r c : Nat}

/-- The verdict of the request is there or was taken, or the request was let go. -/
def Decided (x : Instance) (r : Nat) : Prop :=
  x.Ready r ∨ x.Spent r

/-- A poll of a request that is decided does not wait. -/
theorem Decided.poll_ne (h : x.Decided r) (waker : Waker) : (x.poll r waker).1 ≠ .ok none := by
  intro pending
  rcases h with ready | spent
  · obtain ⟨v, answer⟩ := (isReady_iff_poll x r waker).mp (isReady_iff.mpr ready)
    cases pending.symm.trans answer
  · cases pending.symm.trans (spent.poll waker)

/-- A verdict on the channel that a request awaits decides it. -/
theorem AwaitsOn.ready (h : x.AwaitsOn r c) {ch : Handoff Nat} (channel : x.channels[c]? = some ch)
    (verdict : (ch.isReady || ch.isClosed) = true) : x.Ready r := by
  obtain ⟨q, ticket, here, queued⟩ := h
  exact .delivered here queued channel verdict

/-- A request is not decided while a waker is registered on the channel that it awaits. -/
theorem AwaitsOn.not_decided (h : x.AwaitsOn r c) {waker : Waker}
    (registered : x.Registered waker c) (waits : WaitingEnds x.channels) : ¬x.Decided r := by
  obtain ⟨q, ticket, here, queued⟩ := h
  obtain ⟨ch, channel, registered⟩ := registered
  obtain ⟨empty, sender⟩ := waits ch (List.mem_of_getElem? channel) (by simp [registered])
  intro decided
  exact decided.poll_ne waker (poll_of_waiting here queued channel empty sender waker)

/-- A request that is not decided awaits its verdict on some channel. -/
theorem exists_awaitsOn (made : r < x.requests.length) (undecided : ¬x.Decided r) :
    ∃ c, x.AwaitsOn r c := by
  have here := List.getElem?_eq_getElem made
  cases progress : x.requests[r].progress with
  | settled verdict =>
      cases verdict with
      | none => exact absurd (.inr ⟨_, here, .inl progress⟩) undecided
      | some v => exact absurd (.inl (.settled here progress)) undecided
  | queued ticket c => exact ⟨c, _, ticket, here, progress⟩
  | finished => exact absurd (.inr ⟨_, here, .inr (.inl progress)⟩) undecided
  | dropped => exact absurd (.inr ⟨_, here, .inr (.inr progress)⟩) undecided

/-- A request in a queue is not decided. -/
theorem InQueue.not_decided {tasks : List Task} (h : x.InQueue r)
    (ends : ChannelEnds x.state.waiters x.requests x.channels tasks) : ¬x.Decided r :=
  fun decided => decided.poll_ne .silent (h.poll ends .silent)

end Instance

section Effects
variable {x x' : Instance} {L L' : List Nat} {sec : Section} {a : Agenda Task} {r c : Nat}

/-- A request that is decided stays so. -/
theorem Effect.decided (effect : Effect x L sec x' a L') {rest : List Task}
    (ends : ChannelEnds x.state.waiters x.requests x.channels (sec.tasks ++ rest))
    (h : x.Decided r) : x'.Decided r := by
  rcases h with ready | spent
  · by_cases polled : ∃ waker, sec = .call (.poll r waker)
    · obtain ⟨waker, rfl⟩ := polled
      exact .inr (effect.spent_of_poll ready)
    by_cases dropped : sec = .call (.dropRequest r)
    · subst dropped
      exact .inr effect.spent_of_dropRequest
    exact .inl (effect.ready ends (fun waker e => polled ⟨waker, e⟩) dropped ready)
  · exact .inr (effect.spent spent)

/-- A poll of a request that is not decided leaves the request as it is, and its waker on the
channel that the request awaits. -/
theorem Effect.poll_undecided {waker : Waker} (effect : Effect x L (.call (.poll r waker)) x' a L')
    (undecided : ¬x.Decided r) :
    x'.requests = x.requests ∧ ∀ c ch, x.AwaitsOn r c → x.channels[c]? = some ch →
      x'.Registered waker c := by
  cases effect with
  | takeVerdict here settled => exact absurd (.inl (.settled here settled)) undecided
  | receive here queued channel full =>
      exact absurd (.inl (.delivered here queued channel (by simp [Handoff.isReady, full])))
        undecided
  | fail here queued channel empty sender =>
      exact absurd (.inl (.delivered here queued channel
        (by simp [Handoff.isClosed, empty, sender]))) undecided
  | pollAgain nothing =>
      refine ⟨rfl, ?_⟩
      rintro c ch ⟨q, ticket, here, queued⟩ channel
      rcases nothing q here with taken | finished | dropped | ⟨ticket', d, queued', missing⟩
      · cases queued.symm.trans taken
      · cases queued.symm.trans finished
      · cases queued.symm.trans dropped
      · cases queued.symm.trans queued'
        cases channel.symm.trans missing
  | wait here queued channel =>
      refine ⟨rfl, fun c ch awaits _ => ?_⟩
      obtain rfl := awaits.unique ⟨_, _, here, queued⟩
      exact ⟨_, getElem?_set_of_some channel _, rfl⟩
  | letGoMissing lets | letGoClone lets | letGoLast lets => cases lets

/-- A request that is not decided awaits its verdict until it is let go. -/
theorem Effect.awaits_kept (effect : Effect x L sec x' a L') (undecided : ¬x.Decided r)
    (awaits : x.AwaitsOn r c) (kept : sec ≠ .call (.dropRequest r)) : x'.AwaitsOn r c := by
  by_cases polled : ∃ waker, sec = .call (.poll r waker)
  · obtain ⟨waker, rfl⟩ := polled
    unfold Instance.AwaitsOn
    rw [(effect.poll_undecided undecided).1]
    exact awaits
  · obtain ⟨q, ticket, here, queued⟩ := awaits
    exact ⟨q, ticket, effect.request_kept (fun waker e => polled ⟨waker, e⟩) kept here, queued⟩

/-- A poll that waits leaves its waker on the channel of its request. -/
theorem Effect.registers {waker : Waker} (effect : Effect x L (.call (.poll r waker)) x' a L')
    {tasks : List Task} (ends : ChannelEnds x.state.waiters x.requests x.channels tasks)
    (made : r < x.requests.length) (pending : (x.poll r waker).1 = .ok none) :
    ∃ c, x'.AwaitsOn r c ∧ x'.Registered waker c := by
  have undecided : ¬x.Decided r := fun decided => decided.poll_ne waker pending
  obtain ⟨requests, registers⟩ := effect.poll_undecided undecided
  obtain ⟨c, awaits⟩ := Instance.exists_awaitsOn made undecided
  obtain ⟨q, ticket, here, queued⟩ := awaits
  obtain ⟨-, -, ch, channel, -⟩ :=
    ends.receiver_of_awaits (c := c) here (by simp [Request.awaits, queued])
  exact ⟨c, ⟨q, ticket, requests ▸ here, queued⟩, registers c ch ⟨q, ticket, here, queued⟩ channel⟩

/-- The drop of a request that is not decided lets the sender of its channel go next, or the
receiver, which for a request in a queue it does only if the instance is gone. It calls no waker
before. -/
theorem Effect.drops_undecided (effect : Effect x L (.call (.dropRequest r)) x' a L')
    {tasks : List Task} (undecided : ¬x.Decided r)
    (ends : ChannelEnds x.state.waiters x.requests x.channels tasks)
    (book : QueueBook x.state x.requests x.channels x.grants)
    (few : x.channels.length ≤ 2 ^ 64) :
    x'.channels = x.channels ∧ (∀ waker, .waking waker ∉ a) ∧
      ∃ c more, x.AwaitsOn r c ∧ (a = .task (.closeSender c) :: more ∨
        a = .task (.dropReceiver c) :: more ∧ (x.InQueue r → x.owners = 0)) := by
  cases effect with
  | dropGranted here settled => exact absurd (.inl (.settled here settled)) undecided
  | dropDone here done =>
      rcases done with failed | taken | finished
      · exact absurd (.inl (.settled here failed)) undecided
      · exact absurd (.inr ⟨_, here, .inl taken⟩) undecided
      · exact absurd (.inr ⟨_, here, .inr (.inl finished)⟩) undecided
  | dropUnqueued here queued unqueued =>
      refine ⟨rfl, by simp, _, _, ⟨_, _, here, queued⟩, .inr ⟨rfl, fun waits => ?_⟩⟩
      refine unqueued.resolve_right fun missing => ?_
      obtain ⟨p, e, entry, own⟩ := waits.entry_of_awaitsOn ⟨_, _, here, queued⟩
      exact book.apart_of_unqueued ends here queued missing entry own
  | withdraw here queued _ found =>
      obtain ⟨same, leaves⟩ := LockState.leaves_of_withdraw? found
      have channel := book.channel_of_ticket ends few here queued leaves.mem same
      subst channel
      refine ⟨rfl, ?_, _, _, ⟨_, _, here, queued⟩, .inl rfl⟩
      intro waker called
      simp [Instance.wakeLoopIf, Instance.closeAll] at called
  | letGoMissing lets | letGoClone lets | letGoLast lets => cases lets

end Effects

namespace World

/-! ## Who is called -/

/-- Where the waker of the polls of a request is, and how often it was called in the moves `ms`. -/
inductive Notice (waker : Waker) (r : Nat) (ms : List Move) (w : World) : Prop where
  /-- No verdict is there. -/
  | waits (undecided : ¬w.inst.Decided r) (confined : w.Confined waker (w.inst.AwaitsOn r))
      (uncalled : .wake waker ∉ ms)
  /-- The request was let go, and with it the sender of its channel goes now. -/
  | closing {ms₀ : List Move} {c : Nat} (spent : w.inst.Spent r)
      (moves : ms = ms₀ ++ [.call (.dropRequest r)])
      (next : w.next? = some (.task (.closeSender c))) (confined : w.Confined waker (· = c))
      (uncalled : .wake waker ∉ ms)
  /-- The request was let go, and the receiver of its channel goes now. -/
  | leaving {c : Nat} (spent : w.inst.Spent r)
      (next : w.next? = some (.task (.dropReceiver c))) (confined : w.Confined waker (· = c))
      (uncalled : .wake waker ∉ ms)
  /-- The waker is called now. -/
  | calling (decided : w.inst.Decided r)
      (cause : w.inst.Ready r ∨ ∃ ms₀, ms = ms₀ ++ [.call (.dropRequest r), .work])
      (next : w.next? = some (.waking waker))
      (after : ∀ v, w.step? (.wake waker) = some v → v.Confined waker fun _ => False)
      (uncalled : .wake waker ∉ ms)
  /-- The waker was called, or was nowhere when the verdict came. -/
  | done (decided : w.inst.Decided r) (confined : w.Confined waker fun _ => False)
      (once : ms.count (.wake waker) ≤ 1)

namespace Notice

variable {c : Config} {x : Instance} {waker : Waker} {r : Nat} {ms ms' : List Move} {w v : World}
  {m : Move}

theorem uncalled_append {P : Nat → Prop} (confined : w.Confined waker P)
    (hstep : w.step? m = some v) (uncalled : .wake waker ∉ ms) : .wake waker ∉ ms ++ [m] := by
  rw [List.mem_append, not_or, List.mem_singleton]
  exact ⟨uncalled, (confined.ne_wake hstep).symm⟩

/-- When its place is gone, the waker is called next or is nowhere. -/
theorem of_gone {P : Nat → Prop} (decided : v.inst.Decided r) (confined : w.Confined waker P)
    (only : OnlyPolls waker r [m]) (hstep : w.step? m = some v)
    (gone : ∀ d, ¬v.inst.Registered waker d) (uncalled : .wake waker ∉ ms)
    (cause : .waking waker ∈ v.agenda →
      v.inst.Ready r ∨ ∃ ms₀, ms ++ [m] = ms₀ ++ [.call (.dropRequest r), .work]) :
    Notice waker r (ms ++ [m]) v := by
  obtain ⟨event, polls⟩ := confined.unpolled only hstep
  have uncalled' := uncalled_append confined hstep uncalled
  by_cases called : .waking waker ∈ v.agenda
  · obtain ⟨next, once, -⟩ := confined.called_of_step hstep called
    refine .calling decided (cause called) next (fun u hwake => ?_) uncalled'
    exact confined_of_wake hwake (fun d registered => gone d registered) event polls once
  · refine .done decided ⟨fun d registered => gone d registered, event, polls, called⟩ ?_
    rw [List.count_eq_zero_of_not_mem uncalled']
    exact Nat.zero_le 1

/-- The drop of a request that is not decided is about to let the sender or the receiver of its
channel go. -/
theorem of_drop (fresh : Instance.create c = .ok x) (run : (start x).run? ms' = some w)
    (few : w.inst.channels.length ≤ 2 ^ 64) (undecided : ¬w.inst.Decided r)
    (confined : w.Confined waker (w.inst.AwaitsOn r)) (uncalled : .wake waker ∉ ms)
    (hstep : w.step? (.call (.dropRequest r)) = some v) :
    Notice waker r (ms ++ [.call (.dropRequest r)]) v := by
  obtain ⟨done, rest, a, before, after, -, -, first, effect⟩ := step?_agenda hstep
  have spent := effect.spent_of_dropRequest
  obtain ⟨channels, quiet, d, more, awaits, e⟩ :=
    effect.drops_undecided undecided (channelEnds fresh run) (queueBook fresh run few) few
  obtain ⟨event, polls⟩ := confined.unpolled (r := r) (by simp [OnlyPolls]) hstep
  have uncalled' := uncalled_append confined hstep uncalled
  have confined' : v.Confined waker (· = d) := by
    refine ⟨?_, event, polls, ?_⟩
    · rintro b ⟨ch', there, registered⟩
      rw [channels] at there
      exact awaits.unique (confined.channels b ⟨ch', there, registered⟩)
    · rw [after, List.mem_append]
      rintro (now | later)
      · exact quiet waker now
      · apply confined.uncalled
        rw [before]
        exact List.mem_append_right _ later
  rcases e with closing | ⟨leaving, -⟩
  · exact .closing spent rfl (first _ _ closing) confined' uncalled'
  · exact .leaving spent (first _ _ leaving) confined' uncalled'

/-- While no verdict is there, a move brings one, lets the request go, or changes nothing. -/
theorem of_waits (fresh : Instance.create c = .ok x) (run : (start x).run? ms' = some w)
    (hstep : w.step? m = some v) (few : w.inst.channels.length ≤ 2 ^ 64)
    (only : OnlyPolls waker r [m]) (undecided : ¬w.inst.Decided r)
    (confined : w.Confined waker (w.inst.AwaitsOn r)) (uncalled : .wake waker ∉ ms) :
    Notice waker r (ms ++ [m]) v := by
  by_cases dropped : m = .call (.dropRequest r)
  · subst dropped
    exact of_drop fresh run few undecided confined uncalled hstep
  obtain ⟨rest, a, -, -, effect⟩ := step?_effect hstep
  have waitingEnds := waitingEnds fresh (run?_append_singleton_eq_some_iff.mpr ⟨w, run, hstep⟩)
  have awaits_kept (d : Nat) (awaits : w.inst.AwaitsOn r d) : v.inst.AwaitsOn r d :=
    effect.awaits_kept undecided awaits fun e => dropped (eq_call_of_sectionOf e)
  have channels (d : Nat) (registered : v.inst.Registered waker d) : v.inst.AwaitsOn r d := by
    rcases confined.registered_of_step only hstep registered with awaits | ⟨awaits, -⟩
    · exact awaits_kept d awaits
    · exact awaits_kept d awaits
  by_cases decided : v.inst.Decided r
  · refine of_gone decided confined only hstep ?_ uncalled fun called => .inl ?_
    · exact fun d registered => (channels d registered).not_decided registered waitingEnds decided
    · obtain ⟨-, -, d, awaits, ch, channel, verdict⟩ := confined.called_of_step hstep called
      exact (awaits_kept d awaits).ready channel verdict
  · obtain ⟨event, polls⟩ := confined.unpolled only hstep
    refine .waits decided ⟨channels, event, polls, ?_⟩ (uncalled_append confined hstep uncalled)
    intro called
    obtain ⟨-, -, d, awaits, ch, channel, verdict⟩ := confined.called_of_step hstep called
    exact decided (.inl ((awaits_kept d awaits).ready channel verdict))

/-- When the sender of the channel of a request that was let go goes, the waker is called next if it
is registered. -/
theorem of_closing {ms₀ : List Move} {d : Nat} (fresh : Instance.create c = .ok x)
    (run : (start x).run? ms' = some w) (hstep : w.step? m = some v)
    (only : OnlyPolls waker r [m]) (spent : w.inst.Spent r)
    (next : w.next? = some (.task (.closeSender d))) (confined : w.Confined waker (· = d))
    (uncalled : .wake waker ∉ ms₀ ++ [.call (.dropRequest r)]) :
    Notice waker r (ms₀ ++ [.call (.dropRequest r)] ++ [m]) v := by
  have closes := sectionOf_of_next? hstep next
  obtain rfl := eq_work_of_sectionOf closes
  obtain ⟨rest, a, -, -, effect⟩ := step?_effect hstep
  refine of_gone (.inr (effect.spent spent)) confined only hstep ?_ uncalled fun _ =>
    .inr ⟨ms₀, List.append_assoc _ _ _⟩
  intro b registered
  rcases confined.registered_of_step only hstep registered with rfl | ⟨awaits, -⟩
  · rw [closes] at effect
    exact effect.unregistered_of_close (waitingEnds fresh run) registered
  · exact spent.not_awaitsOn awaits

/-- When the receiver of the channel of a request that was let go goes, the waker goes with it. -/
theorem of_leaving {d : Nat} (hstep : w.step? m = some v) (only : OnlyPolls waker r [m])
    (spent : w.inst.Spent r) (next : w.next? = some (.task (.dropReceiver d)))
    (confined : w.Confined waker (· = d)) (uncalled : .wake waker ∉ ms) :
    Notice waker r (ms ++ [m]) v := by
  have leaves := sectionOf_of_next? hstep next
  obtain ⟨done, rest, a, before, after, -, -, -, effect⟩ := step?_agenda hstep
  refine of_gone (.inr (effect.spent spent)) confined only hstep ?_ uncalled fun called => ?_
  · intro b registered
    rcases confined.registered_of_step only hstep registered with rfl | ⟨awaits, -⟩
    · rw [leaves] at effect
      exact effect.unregistered_of_dropReceiver.1 registered
    · exact spent.not_awaitsOn awaits
  · rw [leaves] at effect
    rw [after, List.mem_append] at called
    have later := called.resolve_left effect.unregistered_of_dropReceiver.2
    refine absurd ?_ confined.uncalled
    rw [before]
    exact List.mem_append_right _ later

/-- A waker that is nowhere stays so once its request is decided. -/
theorem of_done (hstep : w.step? m = some v) (only : OnlyPolls waker r [m])
    (decided : w.inst.Decided r) (decided' : v.inst.Decided r)
    (confined : w.Confined waker fun _ => False) (once : ms.count (.wake waker) ≤ 1) :
    Notice waker r (ms ++ [m]) v := by
  obtain ⟨event, polls⟩ := confined.unpolled only hstep
  refine .done decided' ⟨?_, event, polls, ?_⟩ ?_
  · intro b registered
    rcases confined.registered_of_step only hstep registered with none | ⟨-, pending⟩
    · exact none
    · exact decided.poll_ne waker pending
  · intro called
    obtain ⟨-, -, d, none, -⟩ := confined.called_of_step hstep called
    exact none
  · rw [List.count_append, List.count_eq_zero_of_not_mem (l := [m])]
    · exact once
    · rw [List.mem_singleton]
      exact (confined.ne_wake hstep).symm

/-- A move leads from stage to stage. -/
theorem step (fresh : Instance.create c = .ok x) (run : (start x).run? ms' = some w)
    (hstep : w.step? m = some v) (few : w.inst.channels.length ≤ 2 ^ 64)
    (only : OnlyPolls waker r [m]) (stage : Notice waker r ms w) :
    Notice waker r (ms ++ [m]) v := by
  have decided (h : w.inst.Decided r) : v.inst.Decided r := by
    obtain ⟨rest, a, pending, -, effect⟩ := step?_effect hstep
    have ends := channelEnds fresh run
    rw [pending] at ends
    exact effect.decided ends h
  cases stage with
  | waits undecided confined uncalled =>
      exact of_waits fresh run hstep few only undecided confined uncalled
  | closing spent moves next confined uncalled =>
      subst moves
      exact of_closing fresh run hstep only spent next confined uncalled
  | leaving spent next confined uncalled =>
      exact of_leaving hstep only spent next confined uncalled
  | calling before cause next after uncalled =>
      obtain rfl := eq_wake_of_next? hstep next
      refine .done (decided before) (after v hstep) ?_
      rw [List.count_append, List.count_eq_zero_of_not_mem uncalled]
      simp
  | done before confined once => exact of_done hstep only before (decided before) confined once

/-- A waker is called once at most. -/
theorem once (stage : Notice waker r ms w) : ms.count (.wake waker) ≤ 1 := by
  cases stage with
  | waits _ _ uncalled | closing _ _ _ _ uncalled | leaving _ _ _ uncalled
  | calling _ _ _ _ uncalled =>
      rw [List.count_eq_zero_of_not_mem uncalled]
      exact Nat.zero_le 1
  | done _ _ once => exact once

/-- A waker is called when a verdict is there, or by the drop of its request. -/
theorem cause (stage : Notice waker r ms w) (hwake : w.step? (.wake waker) = some v) :
    w.inst.Ready r ∨ ∃ ms₀, ms = ms₀ ++ [.call (.dropRequest r), .work] := by
  cases stage with
  | calling _ cause => exact cause
  | waits _ confined | closing _ _ _ confined | leaving _ _ confined | done _ confined =>
      exact absurd rfl (confined.ne_wake hwake)

/-- Before its request is decided, a waker is on the channel of the request only and was not
called. -/
theorem confined (stage : Notice waker r ms w) (undecided : ¬w.inst.Decided r) :
    w.Confined waker (w.inst.AwaitsOn r) ∧ .wake waker ∉ ms := by
  cases stage with
  | waits _ confined uncalled => exact ⟨confined, uncalled⟩
  | closing spent | leaving spent => exact absurd (.inr spent) undecided
  | calling decided | done decided => exact absurd decided undecided

end Notice

section Runs
variable {c : Config} {x : Instance} {waker : Waker} {r : Nat} {ms ms' : List Move} {w v : World}

/-- Where the waker of a request is in a run that begins where it is known. -/
theorem notice_of_run? (fresh : Instance.create c = .ok x) (run : (start x).run? ms = some w)
    (stage : Notice waker r [] w) (run' : w.run? ms' = some v)
    (few : v.inst.channels.length ≤ 2 ^ 64) (only : OnlyPolls waker r ms') :
    Notice waker r ms' v := by
  refine run?_induction (P := fun ms' v => v.inst.channels.length ≤ 2 ^ 64 →
    OnlyPolls waker r ms' → Notice waker r ms' v) (fun _ _ => stage) ?_ run' few only
  intro ms' u m u' hu past hstep few' only
  obtain ⟨rest, a, -, -, effect⟩ := step?_effect hstep
  have few := Nat.le_trans effect.length_channels few'
  exact (past few only.left).step fresh (run?_trans run hu) hstep few only.right

/-- Until its request is decided, a waker that is used for the polls of that request only waits with
it. -/
theorem notice_of_undecided (fresh : Instance.create c = .ok x)
    (run : (start x).run? ms = some w) (few : w.inst.channels.length ≤ 2 ^ 64)
    (only : OnlyPolls waker r ms) (undecided : ¬w.inst.Decided r) : Notice waker r [] w := by
  have stage : Notice waker r [] (start x) := by
    rw [eq_ofConfig_of_create fresh]
    refine .waits ?_ ⟨?_, ?_, List.not_mem_nil, List.not_mem_nil⟩ List.not_mem_nil
    · rintro (ready | ⟨q, here, -⟩)
      · cases ready with
        | settled here | delivered here => cases here
      · cases here
    · rintro d ⟨ch, channel, -⟩
      cases channel
    · intro registered
      cases registered
  obtain ⟨confined, -⟩ :=
    (notice_of_run? fresh (run?_nil _) stage run few only).confined undecided
  exact .waits undecided confined List.not_mem_nil

end Runs

end World

end FairShare
