import FairShare.Proofs.Deliveries

/-!
# The order of queues

A queue grows at its end, by requests at its priority, and otherwise only loses entries. Channels
are made in the order of requests, so along every queue the channels increase, and with them the
requests that the entries belong to.
-/

namespace FairShare

/-- An entry that leaves takes nothing else out of a queue. -/
theorem LockState.Leaves.queue_sublist {s s' : LockState} {p : Nat} {w : Waiter}
    (h : LockState.Leaves p w s s') (q : Nat) : (s'.queueAt q).Sublist (s.queueAt q) := by
  obtain ⟨before, after, queue, e⟩ := h.queueAt_eq q
  rw [e]
  split
  · rename_i same
    rw [same, queue]
    exact List.Sublist.append_left (List.sublist_cons_self _ _) _
  · exact List.Sublist.refl _

/-- No request begins to wait: queues keep some of their entries in their order, and whoever awaits
a verdict did so before. -/
structure Shrinks (x x' : Instance) : Prop where
  queues : ∀ p, (x'.state.queueAt p).Sublist (x.state.queueAt p)
  channels : x'.channels.length = x.channels.length
  awaits : ∀ (r : Nat) (q : Request) ticket c, x'.requests[r]? = some q →
    q.progress = .queued ticket c → x.requests[r]? = some q

/-- A request at the priority begins to wait, on a channel of its own. -/
structure Enqueues (p : Nat) (x x' : Instance) : Prop where
  room : p < x.state.lanes.length
  state : x'.state = x.state.enqueue p x.channels.length
  channels : x'.channels = x.channels ++ [Handoff.empty]
  requests : x'.requests = x.requests ++
    [{ priority := p, progress := .queued x.state.nextTicket x.channels.length }]

theorem Enqueues.queueAt {p : Nat} {x x' : Instance} (h : Enqueues p x x') (q : Nat) :
    x'.state.queueAt q =
      if q = p then x.state.queueAt p ++ [⟨x.state.nextTicket, x.channels.length⟩]
      else x.state.queueAt q := by
  rw [h.state]
  exact LockState.queueAt_enqueue x.channels.length h.room q

section Effects
variable {x x' : Instance} {L L' : List Nat} {sec : Section} {a : Agenda Task}

/-- Where no request begins to wait, queues lose entries at most. -/
theorem Effect.queue_sublist (effect : Effect x L sec x' a L')
    (same : x'.channels.length = x.channels.length) (p : Nat) :
    (x'.state.queueAt p).Sublist (x.state.queueAt p) := by
  have emptied : x.state.killed = false → (x.state.kill.queueAt p).Sublist (x.state.queueAt p) := by
    intro alive
    have sub := LockState.queueAt_sublist_waiters x.state.kill p
    rw [LockState.waiters_kill alive] at sub
    rw [List.sublist_nil.mp sub]
    exact List.nil_sublist _
  cases effect with
  | queue => simp at same
  | grantAtOnce => rw [LockState.queueAt_takeSlot]
  | halt => rw [LockState.queueAt_halt]
  | kill _ alive | destroy _ alive => exact emptied alive
  | withdraw _ _ _ found => exact (LockState.leaves_of_withdraw? found).2.queue_sublist p
  | release | letGoLast => rw [LockState.queueAt_returnSlot]
  | passStalled _ _ _ scan | passEmpty _ _ _ scan =>
      obtain ⟨turn, rfl⟩ := LockState.eq_turn_of_nextInTurn? scan
      exact List.Sublist.refl _
  | grantLost _ _ _ scan first | grantReturned _ _ _ scan first | grant _ _ _ scan first =>
      obtain ⟨turn, s₃, rfl, leaves, rfl⟩ := LockState.turn_leaves_take scan first
      rw [LockState.queueAt_takeSlot]
      exact leaves.queue_sublist p
  | _ => exact List.Sublist.refl _

/-- Where no request begins to wait, whoever awaits a verdict did so before. -/
theorem Effect.queued_old (effect : Effect x L sec x' a L')
    (same : x'.channels.length = x.channels.length) {r : Nat} {q : Request} {ticket : UInt64}
    {c : Nat} (here : x'.requests[r]? = some q) (queued : q.progress = .queued ticket c) :
    x.requests[r]? = some q := by
  have replaced : ∀ {k : Nat} {q' : Request}, (x.requests.set k q')[r]? = some q →
      (∀ ticket c, q'.progress ≠ .queued ticket c) → x.requests[r]? = some q := by
    intro k q' there idle
    rcases of_getElem?_set there with ⟨-, rfl⟩ | ⟨-, old⟩
    · exact absurd queued (idle ticket c)
    · exact old
  cases effect with
  | queue => simp at same
  | refuse | grantAtOnce =>
      rcases of_getElem?_append_singleton here with old | ⟨-, rfl⟩
      · exact old
      · cases queued
  | takeVerdict | receive | fail | dropGranted | dropDone | dropUnqueued | withdraw =>
      exact replaced here fun _ _ e => by cases e
  | _ => exact here

/-- Queues grow by requests that begin to wait, and by nothing else. -/
theorem Effect.queue_step (effect : Effect x L sec x' a L') :
    Shrinks x x' ∨ ∃ p, sec = .call (.request p) ∧ Enqueues p x x' := by
  by_cases same : x'.channels.length = x.channels.length
  · exact .inl ⟨effect.queue_sublist same, same, fun _ _ _ _ => effect.queued_old same⟩
  · right
    cases effect with
    | queue _ room => exact ⟨_, rfl, room, rfl, rfl, rfl⟩
    | _ => simp at same

end Effects

/-- Queues and requests are in the order of the channels, of which `made` were made. -/
structure QueueOrder (s : LockState) (requests : List Request) (made : Nat) : Prop where
  sorted : ∀ p, (s.queueAt p).Pairwise fun e e' => e.channel < e'.channel
  entries : ∀ p, ∀ e ∈ s.queueAt p, e.channel < made
  awaited : ∀ (r : Nat) (q : Request) ticket c, requests[r]? = some q →
    q.progress = .queued ticket c → c < made
  increasing : ∀ (r r' : Nat) (q q' : Request) ticket ticket' c c', requests[r]? = some q →
    q.progress = .queued ticket c → requests[r']? = some q' → q'.progress = .queued ticket' c' →
    r < r' → c < c'
  /-- An entry stands in the queue of the priority that its request asked for. -/
  own : ∀ p, ∀ e ∈ s.queueAt p, ∀ (r : Nat) (q : Request) ticket, requests[r]? = some q →
    q.progress = .queued ticket e.channel → q.priority = p

namespace QueueOrder

variable {x x' : Instance}

theorem shrink (h : QueueOrder x.state x.requests x.channels.length) (shrinks : Shrinks x x') :
    QueueOrder x'.state x'.requests x'.channels.length where
  sorted p := (h.sorted p).sublist (shrinks.queues p)
  entries p e entry := by
    rw [shrinks.channels]
    exact h.entries p e ((shrinks.queues p).subset entry)
  awaited r q ticket c here queued := by
    rw [shrinks.channels]
    exact h.awaited r q ticket c (shrinks.awaits r q ticket c here queued) queued
  increasing r r' q q' ticket ticket' c c' here queued here' queued' :=
    h.increasing r r' q q' ticket ticket' c c' (shrinks.awaits r q ticket c here queued) queued
      (shrinks.awaits r' q' ticket' c' here' queued') queued'
  own p e entry r q ticket here queued :=
    h.own p e ((shrinks.queues p).subset entry) r q ticket
      (shrinks.awaits r q ticket _ here queued) queued

/-- The request that begins to wait is the last one, and its channel the newest. -/
theorem enqueue {p : Nat} (h : QueueOrder x.state x.requests x.channels.length)
    (enqueues : Enqueues p x x') :
    QueueOrder x'.state x'.requests x'.channels.length := by
  have made : x'.channels.length = x.channels.length + 1 := by
    rw [enqueues.channels, List.length_append, List.length_singleton]
  have entry : ∀ {q : Nat} {e : Waiter}, e ∈ x'.state.queueAt q →
      e ∈ x.state.queueAt q ∨ q = p ∧ e = ⟨x.state.nextTicket, x.channels.length⟩ := by
    intro q e member
    rw [enqueues.queueAt] at member
    split at member
    · rename_i same
      subst same
      rcases List.mem_append.mp member with old | new
      · exact .inl old
      · exact .inr ⟨rfl, List.mem_singleton.mp new⟩
    · exact .inl member
  have request : ∀ {r : Nat} {q : Request}, x'.requests[r]? = some q → x.requests[r]? = some q ∨
      r = x.requests.length ∧
        q = { priority := p, progress := .queued x.state.nextTicket x.channels.length } := by
    intro r q here
    rw [enqueues.requests] at here
    exact of_getElem?_append_singleton here
  rw [made]
  refine ⟨?_, ?_, ?_, ?_, ?_⟩
  · intro q
    rw [enqueues.queueAt]
    split
    · apply List.pairwise_append.mpr
      refine ⟨h.sorted p, List.pairwise_singleton _ _, ?_⟩
      intro e member e' new
      rw [List.mem_singleton.mp new]
      exact h.entries p e member
    · exact h.sorted q
  · intro q e member
    rcases entry member with old | ⟨-, rfl⟩
    · exact Nat.lt_succ_of_lt (h.entries q e old)
    · exact Nat.lt_succ_self _
  · intro r q ticket c here queued
    rcases request here with old | ⟨-, rfl⟩
    · exact Nat.lt_succ_of_lt (h.awaited r q ticket c old queued)
    · cases queued
      exact Nat.lt_succ_self _
  · intro r r' q q' ticket ticket' c c' here queued here' queued' lt
    rcases request here' with old' | ⟨last', rfl⟩
    · rcases request here with old | ⟨last, -⟩
      · exact h.increasing r r' q q' ticket ticket' c c' old queued old' queued' lt
      · have := (List.getElem?_eq_some_iff.mp old').1
        omega
    · cases queued'
      rcases request here with old | ⟨last, -⟩
      · exact h.awaited r q ticket c old queued
      · omega
  · intro q e member r q₁ ticket here queued
    rcases entry member with old | ⟨rfl, rfl⟩
    · rcases request here with here | ⟨-, rfl⟩
      · exact h.own q e old r q₁ ticket here queued
      · -- the new channel has no entry yet
        have before := h.entries q e old
        have same : x.channels.length = e.channel := (Progress.queued.inj queued).2
        omega
    · rcases request here with here | ⟨-, rfl⟩
      · exact absurd (h.awaited r q₁ ticket _ here queued) (Nat.lt_irrefl _)
      · rfl

/-- Every effect keeps queues and requests in order. -/
theorem keeps {L L' : List Nat} {sec : Section} {a : Agenda Task}
    (effect : Effect x L sec x' a L') (h : QueueOrder x.state x.requests x.channels.length) :
    QueueOrder x'.state x'.requests x'.channels.length := by
  rcases effect.queue_step with shrinks | ⟨p, -, enqueues⟩
  · exact h.shrink shrinks
  · exact h.enqueue enqueues

end QueueOrder

/-! ## Who is granted -/

namespace Instance

/-- The request asked for a slot at the priority. -/
def Asks (x : Instance) (r p : Nat) : Prop :=
  ∃ q, x.requests[r]? = some q ∧ q.priority = p

/-- A queue has the entry of the request. -/
def InQueue (x : Instance) (r : Nat) : Prop :=
  ∃ q ticket p, ∃ e ∈ x.state.queueAt p, x.requests[r]? = some q ∧
    q.progress = .queued ticket e.channel

theorem Asks.lt {x : Instance} {r p : Nat} (h : x.Asks r p) : r < x.requests.length := by
  obtain ⟨q, here, -⟩ := h
  exact (List.getElem?_eq_some_iff.mp here).1

/-- The entry of a request stands in the queue of its priority. -/
theorem InQueue.entry {x : Instance} {r p : Nat} (h : x.InQueue r) (asks : x.Asks r p)
    (order : QueueOrder x.state x.requests x.channels.length) :
    ∃ e ∈ x.state.queueAt p, ∃ q ticket, x.requests[r]? = some q ∧
      q.progress = .queued ticket e.channel := by
  obtain ⟨q, ticket, p', e, entry, here, queued⟩ := h
  obtain ⟨q', here', rfl⟩ := asks
  cases here.symm.trans here'
  have same := order.own p' e entry r q ticket here queued
  exact ⟨e, same ▸ entry, q, ticket, here, queued⟩

end Instance

section Effects
variable {x x' : Instance} {L L' : List Nat} {sec : Section} {a : Agenda Task}

/-- A request stays at its priority. -/
theorem Effect.asks (effect : Effect x L sec x' a L') {r p : Nat} (h : x.Asks r p) :
    x'.Asks r p := by
  obtain ⟨q, here, priority⟩ := h
  cases effect with
  | refuse | grantAtOnce | queue => exact ⟨q, getElem?_append_of_some here _, priority⟩
  | takeVerdict there | receive there | fail there | dropGranted there | dropDone there
  | dropUnqueued there | withdraw there =>
      refine exists_getElem?_set here priority ?_
      rintro rfl
      cases here.symm.trans there
      exact priority
  | _ => exact ⟨q, here, priority⟩

/-- Requests stay. -/
theorem Effect.lt_length_requests (effect : Effect x L sec x' a L') {r : Nat}
    (made : r < x.requests.length) : r < x'.requests.length := by
  have asks : x.Asks r x.requests[r].priority := ⟨_, List.getElem?_eq_getElem made, rfl⟩
  exact (effect.asks asks).lt

/-- A request that was there before gets no entry. -/
theorem Effect.inQueue_old (effect : Effect x L sec x' a L')
    (order : QueueOrder x.state x.requests x.channels.length) {r : Nat}
    (old : r < x.requests.length) (h : x'.InQueue r) : x.InQueue r := by
  obtain ⟨q, ticket, p, e, entry, here, queued⟩ := h
  rcases effect.queue_step with shrinks | ⟨k, -, enqueues⟩
  · exact ⟨q, ticket, p, e, (shrinks.queues p).subset entry,
      shrinks.awaits r q ticket _ here queued, queued⟩
  · have before : x.requests[r]? = some q := by
      rw [enqueues.requests, List.getElem?_append_left old] at here
      exact here
    refine ⟨q, ticket, p, e, ?_, before, queued⟩
    have made := order.awaited r q ticket _ before queued
    rw [enqueues.queueAt] at entry
    split at entry
    · rename_i same
      rw [same]
      rcases List.mem_append.mp entry with there | new
      · exact there
      · rw [List.mem_singleton.mp new] at made
        exact absurd made (Nat.lt_irrefl _)
    · exact entry

end Effects

/-- A section makes a grant: at once, where nothing waits at the priority, or to the first entry of
a queue, on whose channel it is sent if somebody is there. -/
inductive GrantMade (x x' : Instance) : Section → Prop where
  | atOnce {p : Nat} (idle : x.state.queueAt p = []) (queues : x'.state.queueAt = x.state.queueAt)
      (requests : x'.requests = x.requests ++
        [{ priority := p, progress := .settled (some (.granted x.grants.length)) }])
      (channels : x'.channels = x.channels)
      (grants : x'.grants = x.grants ++ [{ priority := p }]) :
      GrantMade x x' (.call (.request p))
  | first {waker : Waker} {p : Nat} {e : Waiter} {rest : List Waiter}
      (queue : x.state.queueAt p = e :: rest)
      (queues : ∀ q, x'.state.queueAt q = if q = p then rest else x.state.queueAt q)
      (requests : x'.requests = x.requests)
      (channels : ∀ (c : Nat) (ch' : Handoff Nat), x'.channels[c]? = some ch' →
        x.channels[c]? = some ch' ∨ c = e.channel)
      (grants : x'.grants = x.grants ++ [{ priority := p }]) :
      GrantMade x x' (.task (.pass waker))

section Effects
variable {x x' : Instance} {L L' : List Nat} {sec : Section} {a : Agenda Task}

/-- There are two ways to make a grant. -/
theorem Effect.grantMade (effect : Effect x L sec x' a L')
    (more : x.grants.length < x'.grants.length) : GrantMade x x' sec := by
  cases effect with
  | grantAtOnce _ _ _ fast =>
      simp only [LockState.admitsAtOnce, Bool.and_eq_true, List.isEmpty_iff] at fast
      exact .atOnce fast.1.1 (funext (x.state.queueAt_takeSlot _)) rfl rfl rfl
  | grantLost _ _ _ scan first | grantReturned _ _ _ scan first =>
      obtain ⟨rest, queue, queues⟩ := LockState.queue_of_first scan first
      exact .first queue queues rfl (fun _ _ there => .inl there) rfl
  | grant _ _ _ scan first =>
      obtain ⟨rest, queue, queues⟩ := LockState.queue_of_first scan first
      refine .first queue queues rfl (fun c ch' there => ?_) rfl
      rcases of_getElem?_set there with ⟨same, -⟩ | ⟨-, old⟩
      · exact .inr same.symm
      · exact .inl old
  | release | cloneLock | letGoClone | letGoLast => simp at more
  | _ => exact absurd more (Nat.lt_irrefl _)

namespace GrantMade

variable {r r₁ r₂ p : Nat}

/-- The request that holds the new grant was made with it, or had the first entry of a queue. -/
theorem recipient (made : GrantMade x x' sec)
    (undelivered : Undelivered x.requests x.channels x.grants)
    (holds : x'.HoldsGrant r x.grants.length) :
    (r = x.requests.length ∧ ∃ p, x'.Asks r p ∧ x.state.queueAt p = [] ∧
      x'.state.queueAt = x.state.queueAt) ∨
    ∃ q ticket p e rest, x.requests[r]? = some q ∧ x'.requests[r]? = some q ∧
      q.progress = .queued ticket e.channel ∧ x.state.queueAt p = e :: rest ∧
      ∀ k, x'.state.queueAt k = if k = p then rest else x.state.queueAt k := by
  have unused : ¬Unshared x.grants x.grants.length := fun old => Nat.lt_irrefl _ old.lt
  cases made with
  | @atOnce p idle queues requests channels =>
      left
      cases holds with
      | settled here progress =>
          have there := here
          rw [requests] at there
          rcases of_getElem?_append_singleton there with old | ⟨last, rfl⟩
          · exact absurd (undelivered.settled _ (List.mem_of_getElem? old) _ progress) unused
          · exact ⟨last, p, ⟨_, here, rfl⟩, idle, queues⟩
      | delivered _ _ channel full =>
          rw [channels] at channel
          exact absurd (undelivered.sent _ (List.mem_of_getElem? channel) _ full) unused
  | @first waker p e rest queue queues requests channels =>
      right
      cases holds with
      | settled here progress =>
          rw [requests] at here
          exact absurd (undelivered.settled _ (List.mem_of_getElem? here) _ progress) unused
      | @delivered q ticket c ch here progress channel full =>
          rcases channels c ch channel with old | rfl
          · exact absurd (undelivered.sent _ (List.mem_of_getElem? old) _ full) unused
          · exact ⟨q, ticket, p, e, rest, requests ▸ here, here, progress, queue, queues⟩

/-- When a request is granted, no earlier request at its priority is in a queue. -/
theorem served_before (made : GrantMade x x' sec)
    (order : QueueOrder x.state x.requests x.channels.length)
    (undelivered : Undelivered x.requests x.channels x.grants)
    (holds : x'.HoldsGrant r₂ x.grants.length) (asks₁ : x.Asks r₁ p) (asks₂ : x'.Asks r₂ p)
    (before : r₁ < r₂) : ¬x.InQueue r₁ := by
  intro waits
  obtain ⟨e₁, entry₁, q₁, ticket₁, here₁, queued₁⟩ := waits.entry asks₁ order
  obtain ⟨q₂, here₂, priority₂⟩ := asks₂
  rcases made.recipient undelivered holds with ⟨-, p', ⟨q, here, priority⟩, idle, -⟩ |
    ⟨q, ticket, p', e, rest, here, here', queued, queue, -⟩
  · cases here.symm.trans here₂
    subst priority
    rw [← priority₂, idle] at entry₁
    cases entry₁
  · cases here'.symm.trans here₂
    have own := order.own p' e (queue ▸ List.mem_cons_self) r₂ q₂ ticket here queued
    have channels :=
      order.increasing r₁ r₂ q₁ q₂ ticket₁ ticket _ _ here₁ queued₁ here queued before
    have sorted := order.sorted p'
    rw [queue] at sorted
    rw [← priority₂, own, queue] at entry₁
    rcases List.mem_cons.mp entry₁ with rfl | later
    · exact Nat.lt_irrefl _ channels
    · have := (List.pairwise_cons.mp sorted).1 e₁ later
      omega

/-- A request that is granted is in no queue any more. -/
theorem leaves (made : GrantMade x x' sec)
    (order : QueueOrder x.state x.requests x.channels.length)
    (order' : QueueOrder x'.state x'.requests x'.channels.length)
    (undelivered : Undelivered x.requests x.channels x.grants)
    (holds : x'.HoldsGrant r x.grants.length) : ¬x'.InQueue r := by
  rintro ⟨q', ticket', p', e', entry, here', queued'⟩
  rcases made.recipient undelivered holds with ⟨last, p, asks, idle, queues⟩ |
    ⟨q, ticket, p, e, rest, here, there, queued, queue, queues⟩
  · obtain ⟨q, there, rfl⟩ := asks
    cases here'.symm.trans there
    have own := order'.own p' e' entry r q' ticket' there queued'
    rw [queues, ← own, idle] at entry
    cases entry
  · cases here'.symm.trans there
    have same : e.channel = e'.channel := by
      rw [queued] at queued'
      exact (Progress.queued.inj queued').2
    have own := order.own p e (queue ▸ List.mem_cons_self) r q' ticket here queued
    have own' := order'.own p' e' entry r q' ticket' there queued'
    have sorted := order.sorted p
    rw [queue] at sorted
    rw [queues, if_pos (own'.symm.trans own)] at entry
    have := (List.pairwise_cons.mp sorted).1 e' entry
    omega

end GrantMade

end Effects

namespace World

variable {c : Config} {x : Instance} {ms : List Move} {w : World}

/-- Queues and requests are in order throughout a run. -/
theorem queueOrder (fresh : Instance.create c = .ok x) (run : (start x).run? ms = some w) :
    QueueOrder w.inst.state w.inst.requests w.inst.channels.length := by
  refine run?_invariant (I := fun x _ _ =>
    QueueOrder x.state x.requests x.channels.length) ?_ run ?_
  · intro x L sec x' a L' effect rest h
    exact h.keeps effect
  · rw [eq_ofConfig_of_create fresh]
    refine ⟨?_, ?_, ?_, ?_, ?_⟩
    · intro p
      change ((LockState.ofConfig c).queueAt p).Pairwise _
      rw [LockState.queueAt_ofConfig]
      exact List.Pairwise.nil
    · intro p e entry
      change e ∈ (LockState.ofConfig c).queueAt p at entry
      rw [LockState.queueAt_ofConfig] at entry
      cases entry
    · intro r q ticket c here
      cases here
    · intro r r' q q' ticket ticket' c c' here
      cases here
    · intro p e _ r q ticket here
      cases here

end World

end FairShare
