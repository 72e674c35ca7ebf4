import FairShare.Proofs.Fates

/-!
# Verdicts of requests

Between calls a request that had to queue is in exactly one of three conditions: it waits, it has
been granted, or it has failed. What a poll of it answers is decided before the poll, and a verdict
is answered once.
-/

namespace FairShare

/-- Exactly one of three conditions holds. -/
def ExactlyOne (a b c : Prop) : Prop :=
  (a ∧ ¬b ∧ ¬c) ∨ (¬a ∧ b ∧ ¬c) ∨ (¬a ∧ ¬b ∧ c)

namespace Instance

/-- The request waits: its priority has one entry with its ticket, and the entry is linked to it by
the channel. -/
structure Waits (x : Instance) (r p : Nat) (ticket : UInt64) (c : Nat) : Prop where
  alive : x.isAlive = true
  notReady : x.isReady r = false
  single : (x.state.queueAt p).countP (fun w => decide (w.ticket = ticket)) = 1
  entry : ⟨ticket, c⟩ ∈ x.state.queueAt p
  connected : ∃ ch, x.channels[c]? = some ch ∧ ch.senderGone = false ∧ ch.receiverGone = false

/-- No queue has an entry with the ticket or the channel. -/
def Unqueued (x : Instance) (ticket : UInt64) (c : Nat) : Prop :=
  ∀ p, ∀ w ∈ x.state.queueAt p, w.ticket ≠ ticket ∧ w.channel ≠ c

/-- The grant of the request, made at its priority, is in its channel. -/
structure HasGrant (x : Instance) (p : Nat) (ticket : UInt64) (c : Nat) : Prop where
  unqueued : x.Unqueued ticket c
  delivered : ∃ ch g grant, x.channels[c]? = some ch ∧ ch.value = some g ∧
    x.grants[g]? = some grant ∧ grant.priority = p

/-- The channel of the request is closed. -/
structure HasFailed (x : Instance) (ticket : UInt64) (c : Nat) : Prop where
  unqueued : x.Unqueued ticket c
  closed : ∃ ch, x.channels[c]? = some ch ∧ ch.isClosed = true

/-- A request that waits has no grant and has not failed. -/
theorem Waits.not_unqueued {x : Instance} {r p : Nat} {ticket : UInt64} {c : Nat}
    (h : x.Waits r p ticket c) : ¬x.Unqueued ticket c := by
  intro none
  exact (none p _ h.entry).1 rfl

/-- A channel with a grant in it is not closed. -/
theorem HasGrant.not_hasFailed {x : Instance} {p : Nat} {ticket : UInt64} {c : Nat}
    (h : x.HasGrant p ticket c) : ¬x.HasFailed ticket c := by
  intro failed
  obtain ⟨ch, g, grant, channel, full, -⟩ := h.delivered
  obtain ⟨ch', channel', closed⟩ := failed.closed
  cases channel.symm.trans channel'
  simp [Handoff.isClosed, full] at closed

/-! ## What a poll answers -/

/-- The verdict of the request is there. -/
inductive Ready (x : Instance) (r : Nat) : Prop where
  | settled {q : Request} {v : Verdict} (here : x.requests[r]? = some q)
      (progress : q.progress = .settled (some v))
  | delivered {q : Request} {ticket : UInt64} {c : Nat} {ch : Handoff Nat}
      (here : x.requests[r]? = some q) (progress : q.progress = .queued ticket c)
      (channel : x.channels[c]? = some ch) (verdict : (ch.isReady || ch.isClosed) = true)

theorem isReady_iff {x : Instance} {r : Nat} : x.isReady r = true ↔ x.Ready r := by
  constructor
  · intro h
    unfold isReady at h
    split at h
    · cases h
    · rename_i q here
      split at h
      · rename_i verdict progress
        obtain ⟨v, rfl⟩ := Option.isSome_iff_exists.mp h
        exact .settled here progress
      · rename_i ticket c progress
        split at h
        · cases h
        · rename_i ch channel
          exact .delivered here progress channel h
      · cases h
      · cases h
  · intro h
    cases h with
    | settled here progress => simp [isReady, here, progress]
    | delivered here progress channel verdict =>
        simpa [isReady, here, progress, channel] using verdict

/-- A poll of a queued request takes a verdict exactly if one is in its channel. -/
theorem pollQueued_fst_isSome {x : Instance} {r p c : Nat} (waker : Waker) {ch : Handoff Nat}
    (channel : x.channels[c]? = some ch) :
    (x.pollQueued r p c waker).1.isSome = (ch.isReady || ch.isClosed) := by
  rcases ch with ⟨value, senderGone, receiverGone, old⟩
  cases value <;> cases senderGone <;>
    simp [pollQueued, channel, Handoff.poll, Handoff.isReady, Handoff.isClosed]

/-- A request is ready exactly if a poll of it takes a verdict. -/
theorem isReady_iff_poll (x : Instance) (r : Nat) (waker : Waker) :
    x.isReady r = true ↔ ∃ v, (x.poll r waker).1 = .ok (some v) := by
  cases here : x.requests[r]? with
  | none => simp [isReady, poll, here]
  | some q =>
      cases progress : q.progress with
      | settled verdict => cases verdict <;> simp [isReady, poll, here, progress]
      | queued ticket c =>
          cases channel : x.channels[c]? with
          | none => simp [isReady, poll, pollQueued, here, progress, channel]
          | some ch =>
              have answer := pollQueued_fst_isSome (r := r) (p := q.priority) waker channel
              simp only [isReady, poll, here, progress, channel, ← answer, Except.ok.injEq]
              exact Option.isSome_iff_exists
      | finished => simp [isReady, poll, here, progress]
      | dropped => simp [isReady, poll, here, progress]

/-- The request has had its verdict taken, or was let go. -/
def Spent (x : Instance) (r : Nat) : Prop :=
  ∃ q, x.requests[r]? = some q ∧
    (q.progress = .settled none ∨ q.progress = .finished ∨ q.progress = .dropped)

/-- A poll of a spent request is refused. -/
theorem Spent.poll {x : Instance} {r : Nat} (h : x.Spent r) (waker : Waker) :
    (x.poll r waker).1 = .error .polledAfterCompletion := by
  obtain ⟨q, here, spent⟩ := h
  unfold Instance.poll
  rw [here]
  rcases spent with taken | finished | dropped
  · simp [taken]
  · simp [finished]
  · simp [dropped]

end Instance

/-! ## What effects do to a verdict -/

section Effects
variable {x x' : Instance} {L L' : List Nat} {sec : Section} {a : Agenda Task} {r : Nat}

/-- A spent request stays spent. -/
theorem Effect.spent (effect : Effect x L sec x' a L') (h : x.Spent r) : x'.Spent r := by
  obtain ⟨q, here, spent⟩ := h
  have replaced : ∀ {k : Nat} {q' : Request}, (q'.progress = .settled none ∨
      q'.progress = .finished ∨ q'.progress = .dropped) → ∃ q₁,
      (x.requests.set k q')[r]? = some q₁ ∧ (q₁.progress = .settled none ∨
        q₁.progress = .finished ∨ q₁.progress = .dropped) := by
    intro k q' spent'
    by_cases same : k = r
    · subst same
      exact ⟨q', getElem?_set_of_some here q', spent'⟩
    · exact ⟨q, by rw [List.getElem?_set_ne same, here], spent⟩
  cases effect with
  | refuse | grantAtOnce | queue => exact ⟨q, getElem?_append_of_some here _, spent⟩
  | takeVerdict => exact replaced (.inl rfl)
  | receive | fail => exact replaced (.inr (.inl rfl))
  | dropGranted | dropDone | dropUnqueued | withdraw => exact replaced (.inr (.inr rfl))
  | _ => exact ⟨q, here, spent⟩

/-- A poll that answers a verdict leaves the request spent. -/
theorem Effect.spent_of_poll {waker : Waker} (effect : Effect x L (.call (.poll r waker)) x' a L')
    (ready : x.Ready r) : x'.Spent r := by
  cases effect with
  | takeVerdict here => exact ⟨_, getElem?_set_of_some here _, .inl rfl⟩
  | receive here | fail here => exact ⟨_, getElem?_set_of_some here _, .inr (.inl rfl)⟩
  | pollAgain nothing =>
      cases ready with
      | settled here progress =>
          rcases nothing _ here with none | done | gone | ⟨_, _, queued, _⟩
          · cases progress.symm.trans none
          · cases progress.symm.trans done
          · cases progress.symm.trans gone
          · cases progress.symm.trans queued
      | delivered here progress channel =>
          rcases nothing _ here with none | done | gone | ⟨_, _, queued, missing⟩
          · cases progress.symm.trans none
          · cases progress.symm.trans done
          · cases progress.symm.trans gone
          · cases progress.symm.trans queued
            cases missing.symm.trans channel
  | wait here queued channel empty sender =>
      cases ready with
      | settled here' progress =>
          cases here.symm.trans here'
          cases progress.symm.trans queued
      | delivered here' progress channel' verdict =>
          cases here.symm.trans here'
          cases progress.symm.trans queued
          cases channel.symm.trans channel'
          simp [Handoff.isReady, Handoff.isClosed, empty, sender] at verdict
  | letGoMissing lets | letGoClone lets | letGoLast lets => cases lets

/-- A request stays as it is while it is neither polled nor let go. -/
theorem Effect.request_kept (effect : Effect x L sec x' a L')
    (unpolled : ∀ waker, sec ≠ .call (.poll r waker)) (kept : sec ≠ .call (.dropRequest r))
    {q : Request} (here : x.requests[r]? = some q) : x'.requests[r]? = some q := by
  cases effect with
  | refuse | grantAtOnce | queue => exact getElem?_append_of_some here _
  | @takeVerdict waker k | @receive waker k | @fail waker k =>
      have other : k ≠ r := by
        rintro rfl
        exact unpolled waker rfl
      exact (List.getElem?_set_ne other).trans here
  | @dropGranted k | @dropDone k | @dropUnqueued k | @withdraw k =>
      have other : k ≠ r := by
        rintro rfl
        exact kept rfl
      exact (List.getElem?_set_ne other).trans here
  | _ => exact here

/-- A verdict in a channel stays there while the request that awaits it is not polled. -/
theorem Effect.verdict_kept (effect : Effect x L sec x' a L') {rest : List Task}
    (ends : ChannelEnds x.state.waiters x.requests x.channels (sec.tasks ++ rest))
    (unpolled : ∀ waker, sec ≠ .call (.poll r waker)) {q : Request} {ticket : UInt64} {c : Nat}
    {ch : Handoff Nat} (here : x.requests[r]? = some q) (queued : q.progress = .queued ticket c)
    (channel : x.channels[c]? = some ch) (verdict : (ch.isReady || ch.isClosed) = true) :
    ∃ ch', x'.channels[c]? = some ch' ∧ (ch'.isReady || ch'.isClosed) = true := by
  have replaced : ∀ {d : Nat} {ch' : Handoff Nat},
      (d = c → (ch'.isReady || ch'.isClosed) = true) →
      ∃ ch₁, (x.channels.set d ch')[c]? = some ch₁ ∧ (ch₁.isReady || ch₁.isClosed) = true := by
    intro d ch' there
    by_cases same : d = c
    · subst same
      exact ⟨ch', getElem?_set_of_some channel ch', there rfl⟩
    · exact ⟨ch, (List.getElem?_set_ne same).trans channel, verdict⟩
  cases effect with
  | queue => exact ⟨ch, getElem?_append_of_some channel _, verdict⟩
  | wait here' queued' | receive here' queued' | fail here' queued' =>
      apply replaced
      rintro rfl
      cases QueueBook.sole ends here queued here' queued'
      exact absurd rfl (unpolled _)
  | closeFull _ full =>
      apply replaced
      intro _
      simp [Handoff.isReady, full]
  | closeEmpty _ empty =>
      apply replaced
      intro _
      simp [Handoff.isClosed, empty]
  | dropReceiver =>
      apply replaced
      rintro rfl
      obtain ⟨-, absent, -⟩ :=
        ends.receiver_of_awaits here (by simp [Request.awaits, queued]; rfl)
      exact absurd (.head _) absent
  | grant =>
      apply replaced
      intro _
      rfl
  | _ => exact ⟨ch, channel, verdict⟩

/-- A verdict stays where it is while its request is neither polled nor let go. -/
theorem Effect.ready (effect : Effect x L sec x' a L') {rest : List Task}
    (ends : ChannelEnds x.state.waiters x.requests x.channels (sec.tasks ++ rest))
    (unpolled : ∀ waker, sec ≠ .call (.poll r waker)) (kept : sec ≠ .call (.dropRequest r))
    (h : x.Ready r) : x'.Ready r := by
  cases h with
  | settled here progress => exact .settled (effect.request_kept unpolled kept here) progress
  | delivered here progress channel verdict =>
      obtain ⟨ch', channel', verdict'⟩ :=
        effect.verdict_kept ends unpolled here progress channel verdict
      exact .delivered (effect.request_kept unpolled kept here) progress channel' verdict'

end Effects

/-! ## Fates between calls -/

section Fates
variable {x : Instance} {weights : List Nat}

/-- A request that has an entry waits. -/
theorem QueueBook.waits {tasks : List Task}
    (book : QueueBook x.state x.requests x.channels x.grants)
    (ends : ChannelEnds x.state.waiters x.requests x.channels tasks)
    (account : DemandAccounts weights x.state) (dead : x.owners = 0 → x.state.killed = true)
    (few : x.channels.length ≤ 2 ^ 64) {r p : Nat} {q : Request} {ticket : UInt64} {c : Nat}
    {w : Waiter} (here : x.requests[r]? = some q) (queued : q.progress = .queued ticket c)
    (entry : w ∈ x.state.queueAt p) (own : w.channel = c) : x.Waits r p ticket c := by
  subst own
  obtain ⟨ch, channel, empty, sender, receiver⟩ := book.channel_of_entry ends entry
  have same : w.ticket = ticket := by
    rw [(book.entries p w entry).1]
    exact (book.tickets r q ticket _ here queued).symm
  refine ⟨?_, ?_, ?_, ?_, ch, channel, sender, receiver⟩
  · apply decide_eq_true
    apply Nat.pos_of_ne_zero
    intro gone
    rw [(account.of_killed (dead gone)).1 p] at entry
    cases entry
  · simp [Instance.isReady, here, queued, channel, Handoff.isReady, Handoff.isClosed, empty, sender]
  · have one := (ends.sender_of_mem (LockState.mem_waiters_iff.mpr ⟨p, entry⟩)).1
    have most : (x.state.queueAt p).countP (fun w => decide (w.ticket = ticket)) ≤
        (x.state.queueAt p).countP (Waiter.sendsOn w.channel) := by
      apply List.countP_mono_left
      intro w' entry' same'
      have channel' := book.channel_of_ticket ends few here queued entry' (of_decide_eq_true same')
      exact decide_eq_true channel'
    have sublist := LockState.queueAt_sublist_waiters x.state p
    have part := sublist.countP_le (p := Waiter.sendsOn w.channel)
    have pos : 0 < (x.state.queueAt p).countP fun w => decide (w.ticket = ticket) :=
      List.countP_pos_iff.mpr ⟨w, entry, decide_eq_true same⟩
    omega
  · rw [← same]
    exact entry

/-- A request that awaits its verdict has exactly one fate while no sender is about to go. -/
theorem QueueBook.exactlyOne
    (book : QueueBook x.state x.requests x.channels x.grants)
    (ends : ChannelEnds x.state.waiters x.requests x.channels [])
    (account : DemandAccounts weights x.state) (dead : x.owners = 0 → x.state.killed = true)
    (few : x.channels.length ≤ 2 ^ 64) {r : Nat} {q : Request} {ticket : UInt64} {c : Nat}
    (here : x.requests[r]? = some q) (queued : q.progress = .queued ticket c) :
    ExactlyOne (x.Waits r q.priority ticket c) (x.HasGrant q.priority ticket c)
      (x.HasFailed ticket c) := by
  have unqueued : (∀ p, ∀ w ∈ x.state.queueAt p, w.channel ≠ c) → x.Unqueued ticket c := by
    intro none p w entry
    refine ⟨fun same => none p w entry ?_, none p w entry⟩
    exact book.channel_of_ticket ends few here queued entry same
  cases book.fates r q ticket c here queued with
  | waits entry own =>
      have waits := book.waits ends account dead few here queued entry own
      exact .inl ⟨waits, fun granted => waits.not_unqueued granted.unqueued,
        fun failed => waits.not_unqueued failed.unqueued⟩
  | @granted ch g grant channel full made priority =>
      have granted : x.HasGrant q.priority ticket c := by
        refine ⟨unqueued ?_, ch, g, grant, channel, full, made, priority⟩
        rintro p w entry rfl
        obtain ⟨ch', channel', empty, -⟩ := book.channel_of_entry ends entry
        cases channel.symm.trans channel'
        cases full.symm.trans empty
      exact .inr (.inl ⟨fun waits => waits.not_unqueued granted.unqueued, granted,
        granted.not_hasFailed⟩)
  | @failed ch killed channel empty =>
      have idle := (account.of_killed killed).1
      have failed : x.HasFailed ticket c := by
        refine ⟨unqueued ?_, ch, channel, ?_⟩
        · intro p w entry
          rw [idle p] at entry
          cases entry
        · have sender := ends.senders c
          rw [(account.killed killed).2, goneAt_of_getElem? channel] at sender
          cases gone : ch.senderGone with
          | false =>
              rw [gone] at sender
              cases sender
          | true => simp [Handoff.isClosed, gone, empty]
      exact .inr (.inr ⟨fun waits => waits.not_unqueued failed.unqueued,
        fun granted => granted.not_hasFailed failed, failed⟩)

/-- A channel is closed without a grant only by a kill. -/
theorem QueueBook.killed_of_hasFailed
    (book : QueueBook x.state x.requests x.channels x.grants) {r : Nat} {q : Request}
    {ticket : UInt64} {c : Nat} (here : x.requests[r]? = some q)
    (queued : q.progress = .queued ticket c) (failed : x.HasFailed ticket c) :
    x.state.killed = true := by
  cases book.fates r q ticket c here queued with
  | waits entry own => exact absurd own (failed.unqueued _ _ entry).2
  | granted channel full made priority =>
      obtain ⟨ch, channel', closed⟩ := failed.closed
      cases channel.symm.trans channel'
      simp [Handoff.isClosed, full] at closed
  | failed killed => exact killed

end Fates

namespace World

/-- A request that is ready stays ready until it is polled or let go. -/
theorem isReady_of_run? {c : Config} {x : Instance} {ms ms' : List Move} {w w' : World} {r : Nat}
    (fresh : Instance.create c = .ok x) (run : (start x).run? ms = some w)
    (run' : w.run? ms' = some w') (unpolled : ∀ waker, .call (.poll r waker) ∉ ms')
    (kept : .call (.dropRequest r) ∉ ms') (ready : w.inst.isReady r = true) :
    w'.inst.isReady r = true := by
  rw [Instance.isReady_iff] at ready ⊢
  refine run?_induction (P := fun ms' v => (∀ waker, .call (.poll r waker) ∉ ms') →
    .call (.dropRequest r) ∉ ms' → v.inst.Ready r) ?_ ?_ run' unpolled kept
  · intro _ _
    exact ready
  · intro ms' v m v' hv past hstep unpolled kept
    obtain ⟨rest, a, ht, -, effect⟩ := step?_effect hstep
    have ends := channelEnds fresh (run?_trans run hv)
    rw [ht] at ends
    refine effect.ready ends ?_ ?_ (past ?_ ?_)
    · intro waker asked
      exact unpolled waker (mem_of_sectionOf asked)
    · intro asked
      exact kept (mem_of_sectionOf asked)
    · intro waker before
      exact unpolled waker (List.mem_append_left _ before)
    · intro before
      exact kept (List.mem_append_left _ before)

/-- After a poll that answered a verdict every poll of the request is refused. -/
theorem poll_refused_of_run? {w w' w'' : World} {ms : List Move} {r : Nat} {waker : Waker}
    {v : Verdict} (hstep : w.step? (.call (.poll r waker)) = some w')
    (answer : (w.inst.poll r waker).1 = .ok (some v)) (run : w'.run? ms = some w'')
    (waker' : Waker) : (w''.inst.poll r waker').1 = .error .polledAfterCompletion := by
  apply Instance.Spent.poll
  obtain ⟨rest, a, -, -, effect⟩ := step?_effect hstep
  have ready := Instance.isReady_iff.mp ((w.inst.isReady_iff_poll r waker).mpr ⟨v, answer⟩)
  refine run?_invariant (I := fun x _ _ => x.Spent r) ?_ run (effect.spent_of_poll ready)
  intro x L sec x' a L' effect rest h
  exact effect.spent h

/-- An entry of a queue belongs to one request, which users hold or are about to get. -/
theorem owner_of_entry {c : Config} {x : Instance} {ms : List Move} {w : World} {p : Nat}
    {e : Waiter} (fresh : Instance.create c = .ok x) (run : (start x).run? ms = some w)
    (few : w.inst.channels.length ≤ 2 ^ 64) (entry : e ∈ w.inst.state.queueAt p) :
    (∃! r : Nat,
      w.inst.requests[r]? = some { priority := p, progress := .queued e.ticket e.channel } ∧
      w.inst.isReady r = false ∧ (w.holdsRequest r = true ∨ w.handsOver r = true)) ∧
    ∃ ch, w.inst.channels[e.channel]? = some ch ∧ ch.receiverGone = false := by
  have book := queueBook fresh run few
  have ends := channelEnds fresh run
  obtain ⟨ch, channel, empty, sender, receiver⟩ := book.channel_of_entry ends entry
  refine ⟨?_, ch, channel, receiver⟩
  obtain ⟨-, r, here⟩ := book.entries p e entry
  refine ⟨r, ⟨here, ?_, ?_⟩, ?_⟩
  · simp [Instance.isReady, here, channel, Handoff.isReady, Handoff.isClosed, empty, sender]
  · cases hands : w.handsOver r with
    | true => exact .inr rfl
    | false =>
        left
        simp [holdsRequest, here, hands]
  · rintro k ⟨there, -⟩
    exact QueueBook.sole ends there rfl here rfl

/-- Every request has one fate. Between calls a request that had to queue waits, has its grant, or
has failed with a kill; an entry of a queue belongs to one request that was not answered, whose
receiver is there, so that no grant is ever made in vain. A request is ready exactly if a poll of it
takes its verdict, it stays ready until then, and its verdict is taken once. -/
theorem one_fate {c : Config} {x : Instance} {ms : List Move} {w : World}
    (fresh : Instance.create c = .ok x) (run : (start x).run? ms = some w)
    (few : w.inst.channels.length ≤ 2 ^ 64) :
    (w.isIdle = true → ∀ (r p : Nat) ticket c,
      w.inst.requests[r]? = some { priority := p, progress := .queued ticket c } →
      ExactlyOne (w.inst.Waits r p ticket c) (w.inst.HasGrant p ticket c)
        (w.inst.HasFailed ticket c) ∧
      (w.inst.HasFailed ticket c → .call .kill ∈ ms ∨ w.inst.isAlive = false)) ∧
    (∀ p, ∀ e ∈ w.inst.state.queueAt p,
      (∃! r : Nat,
        w.inst.requests[r]? = some { priority := p, progress := .queued e.ticket e.channel } ∧
        w.inst.isReady r = false ∧ (w.holdsRequest r = true ∨ w.handsOver r = true)) ∧
      ∃ ch, w.inst.channels[e.channel]? = some ch ∧ ch.receiverGone = false) ∧
    ((∀ g, .takeBack g ∉ w.tasks) ∧ .recipientGone ∉ w.inst.log) ∧
    (∀ r waker, w.inst.isReady r = true ↔ ∃ v, (w.inst.poll r waker).1 = .ok (some v)) ∧
    (∀ r, w.inst.isReady r = true → ∀ ms' w', w.run? ms' = some w' →
      (∀ waker, .call (.poll r waker) ∉ ms') → .call (.dropRequest r) ∉ ms' →
      w'.inst.isReady r = true) ∧
    (∀ r waker w' v, w.step? (.call (.poll r waker)) = some w' →
      (w.inst.poll r waker).1 = .ok (some v) → ∀ ms' w'', w'.run? ms' = some w'' →
      ∀ waker', (w''.inst.poll r waker').1 = .error .polledAfterCompletion) := by
  have book := queueBook fresh run few
  have account := demandAccounts fresh run
  refine ⟨?_, ?_, recipient_there fresh run few, ?_, ?_, ?_⟩
  · intro idle r p ticket c here
    have ends := channelEnds fresh run
    rw [tasks_of_isIdle idle] at ends
    refine ⟨book.exactlyOne ends account (killed_of_dead fresh run) few here rfl, ?_⟩
    intro failed
    have killed := book.killed_of_hasFailed here rfl failed
    rcases kill_or_dead_of_killed fresh run killed with asked | dead
    · exact .inl asked
    · right
      simp [Instance.isAlive, dead]
  · intro p e entry
    exact owner_of_entry fresh run few entry
  · intro r waker
    exact w.inst.isReady_iff_poll r waker
  · intro r ready ms' w' run' unpolled kept
    exact isReady_of_run? fresh run run' unpolled kept ready
  · intro r waker w' v hstep answer ms' w'' run' waker'
    exact poll_refused_of_run? hstep answer run' waker'

/-- A lock with one slot that is granted to one request while another waits for it. -/
theorem one_fate_of_two_requests :
    ∃ w, (start (.ofConfig { concurrency := 1, weights := [1] })).run?
        [.call (.request 0), .callEnds, .call (.request 0), .callEnds] = some w ∧
      w.inst.channels.length ≤ 2 ^ 64 ∧ w.inst.Waits 1 0 0 0 := by
  have run : (start (.ofConfig { concurrency := 1, weights := [1] })).run?
      [.call (.request 0), .callEnds, .call (.request 0), .callEnds] = some _ := rfl
  have few : (1 : Nat) ≤ 2 ^ 64 := by decide
  have fates := one_fate (c := { concurrency := 1, weights := [1] }) rfl run few
  refine ⟨_, run, few, ?_⟩
  rcases (fates.1 rfl 1 0 0 0 rfl).1 with ⟨waits, -⟩ | ⟨-, granted, -⟩ | ⟨-, -, failed⟩
  · exact waits
  · obtain ⟨ch, g, grant, channel, full, -⟩ := granted.delivered
    cases channel
    cases full
  · obtain ⟨ch, channel, closed⟩ := failed.closed
    cases channel
    cases closed

end World

end FairShare
