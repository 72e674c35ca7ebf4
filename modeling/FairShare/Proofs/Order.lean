import FairShare.Proofs.Kills
import FairShare.Proofs.Queues
import FairShare.Proofs.Reuse

/-!
# Requests are served in their order

At each priority requests are granted in the order in which they were made, whether at once or by
the grant loop. When a request is granted, every earlier one at its priority has been granted
before, or was let go by its caller.
-/

namespace FairShare

section Effects
variable {x x' : Instance} {L L' : List Nat} {sec : Section} {a : Agenda Task} {r : Nat}

/-- A request that is granted was in a queue, unless it is new. -/
theorem GrantMade.waited (made : GrantMade x x' sec)
    (undelivered : Undelivered x.requests x.channels x.grants)
    (holds : x'.HoldsGrant r x.grants.length) : r = x.requests.length ∨ x.InQueue r := by
  rcases made.recipient undelivered holds with ⟨last, -⟩ |
    ⟨q, ticket, p, e, rest, here, -, queued, queue, -⟩
  · exact .inl last
  · exact .inr ⟨q, ticket, p, e, queue ▸ List.mem_cons_self, here, queued⟩

/-- A request that is granted was there before, or is the next one. -/
theorem GrantMade.le_length (made : GrantMade x x' sec)
    (undelivered : Undelivered x.requests x.channels x.grants)
    (holds : x'.HoldsGrant r x.grants.length) : r ≤ x.requests.length := by
  rcases made.waited undelivered holds with rfl | ⟨q, ticket, p, e, -, here, -⟩
  · exact Nat.le_refl _
  · exact Nat.le_of_lt (List.getElem?_eq_some_iff.mp here).1

/-- A request in a queue can be polled in vain only. -/
theorem Effect.inQueue_of_poll {waker : Waker} (effect : Effect x L (.call (.poll r waker)) x' a L')
    {tasks : List Task} (ends : ChannelEnds x.state.waiters x.requests x.channels tasks)
    (waits : x.InQueue r) : x'.InQueue r := by
  obtain ⟨q, ticket, p, e, entry, here, queued⟩ := waits
  have member := LockState.mem_waiters_iff.mpr ⟨p, entry⟩
  obtain ⟨-, -, ch, channel, sender⟩ := ends.sender_of_mem member
  have empty := ends.unsent e member ch channel
  cases effect with
  | takeVerdict here' settled =>
      cases here.symm.trans here'
      cases queued.symm.trans settled
  | pollAgain => exact ⟨q, ticket, p, e, entry, here, queued⟩
  | wait => exact ⟨q, ticket, p, e, entry, here, queued⟩
  | receive here' queued' channel' full =>
      cases here.symm.trans here'
      cases queued.symm.trans queued'
      cases channel.symm.trans channel'
      cases empty.symm.trans full
  | fail here' queued' channel' _ gone =>
      cases here.symm.trans here'
      cases queued.symm.trans queued'
      cases channel.symm.trans channel'
      cases sender.symm.trans gone
  | letGoMissing lets | letGoClone lets | letGoLast lets => cases lets

/-- The wait of a request ends with a grant, with its drop, or with a kill. -/
theorem Effect.wait_ends (effect : Effect x L sec x' a L') {tasks : List Task}
    (ends : ChannelEnds x.state.waiters x.requests x.channels tasks)
    (book : QueueBook x.state x.requests x.channels x.grants) (few : x.channels.length ≤ 2 ^ 64)
    (waits : x.InQueue r) :
    x'.InQueue r ∨ x'.HoldsGrant r x.grants.length ∨ sec = .call (.dropRequest r) ∨
      x'.state.killed = true := by
  by_cases polled : ∃ waker, sec = .call (.poll r waker)
  · obtain ⟨waker, rfl⟩ := polled
    exact .inl (effect.inQueue_of_poll ends waits)
  have unpolled : ∀ waker, sec ≠ .call (.poll r waker) := fun waker e => polled ⟨waker, e⟩
  by_cases dropped : sec = .call (.dropRequest r)
  · exact .inr (.inr (.inl dropped))
  obtain ⟨q, ticket, p, e, entry, here, queued⟩ := waits
  have there := effect.request_kept unpolled dropped here
  have stays : e ∈ x'.state.queueAt p → x'.InQueue r :=
    fun entry' => ⟨q, ticket, p, e, entry', there, queued⟩
  obtain ⟨-, -, ch₀, channel₀, receiver₀⟩ :=
    ends.receiver_of_awaits (c := e.channel) here (by simp [Request.awaits, queued])
  cases effect with
  | grantAtOnce => exact .inl (stays (by simpa using entry))
  | @queue k _ room =>
      left
      apply stays
      rw [LockState.queueAt_enqueue x.channels.length room]
      split
      · rename_i same
        subst same
        exact List.mem_append_left _ entry
      · exact entry
  | halt => exact .inl (stays (by simpa using entry))
  | kill | destroy => exact .inr (.inr (.inr (LockState.killed_kill _)))
  | @withdraw k q' ticket' c' w s here' queued' _ found =>
      obtain ⟨ticket_eq, leaves⟩ := LockState.leaves_of_withdraw? found
      rcases leaves.mem_or entry with entry' | rfl
      · exact .inl (stays entry')
      · -- the entry with the ticket of the dropped request has its channel too
        have channel := book.channel_of_ticket ends few here' queued' entry ticket_eq
        subst channel
        cases QueueBook.sole ends here queued here' queued'
        exact absurd rfl dropped
  | release | letGoLast =>
      exact .inl (stays (by simpa using entry))
  | passStalled _ _ _ scan | passEmpty _ _ _ scan =>
      obtain ⟨turn, rfl⟩ := LockState.eq_turn_of_nextInTurn? scan
      exact .inl (stays entry)
  | grantLost _ _ _ scan first missing =>
      obtain ⟨turn, s₃, rfl, leaves, rfl⟩ := LockState.turn_leaves_take scan first
      rcases leaves.mem_or entry with entry' | rfl
      · exact .inl (stays (by simpa using entry'))
      · cases channel₀.symm.trans missing
  | grantReturned _ _ _ scan first channel receiver =>
      obtain ⟨turn, s₃, rfl, leaves, rfl⟩ := LockState.turn_leaves_take scan first
      rcases leaves.mem_or entry with entry' | rfl
      · exact .inl (stays (by simpa using entry'))
      · cases channel₀.symm.trans channel
        cases receiver.symm.trans receiver₀
  | grant _ _ _ scan first channel =>
      obtain ⟨turn, s₃, rfl, leaves, rfl⟩ := LockState.turn_leaves_take scan first
      rcases leaves.mem_or entry with entry' | rfl
      · exact .inl (stays (by simpa using entry'))
      · exact .inr (.inl (.delivered there queued (getElem?_set_of_some channel _) rfl))
  | _ => exact .inl (stays entry)

/-- A new request waits or is granted, unless the lock was killed. -/
theorem Effect.new_request (effect : Effect x L sec x' a L') (new : x.requests.length ≤ r)
    (made : r < x'.requests.length) :
    x'.InQueue r ∨ x'.HoldsGrant r x.grants.length ∨ x'.state.killed = true := by
  cases effect with
  | refuse _ _ killed => exact .inr (.inr killed)
  | grantAtOnce =>
      rw [List.length_append, List.length_singleton] at made
      obtain rfl : r = x.requests.length := by omega
      exact .inr (.inl (.settled List.getElem?_concat_length rfl))
  | @queue k _ room =>
      rw [List.length_append, List.length_singleton] at made
      obtain rfl : r = x.requests.length := by omega
      left
      refine ⟨_, _, k, ⟨x.state.nextTicket, x.channels.length⟩, ?_, List.getElem?_concat_length,
        rfl⟩
      rw [LockState.queueAt_enqueue x.channels.length room, if_pos rfl]
      exact List.mem_append_right _ List.mem_cons_self
  | _ => exact absurd made (Nat.not_lt.mpr (by simpa using new))

/-- A grant is made for a request at its priority, as long as no ticket is given out twice. -/
theorem Effect.recipient (effect : Effect x L sec x' a L') {tasks : List Task}
    (ends : ChannelEnds x.state.waiters x.requests x.channels tasks)
    (book : QueueBook x.state x.requests x.channels x.grants)
    (more : x.grants.length < x'.grants.length) :
    ∃ r p, x'.HoldsGrant r x.grants.length ∧ x'.Asks r p ∧
      x'.grants = x.grants ++ [{ priority := p }] := by
  cases effect with
  | grantAtOnce =>
      exact ⟨_, _, .settled List.getElem?_concat_length rfl, ⟨_, List.getElem?_concat_length, rfl⟩,
        rfl⟩
  | grantLost _ _ _ scan first missing =>
      obtain ⟨ch, channel, -⟩ := book.receiver_of_first ends scan first
      cases channel.symm.trans missing
  | grantReturned _ _ _ scan first channel gone =>
      obtain ⟨ch, channel', receiver⟩ := book.receiver_of_first ends scan first
      cases channel.symm.trans channel'
      cases gone.symm.trans receiver
  | @grant _ p _ _ w _ _ _ _ scan first channel =>
      obtain ⟨rest, queue, -⟩ := LockState.queue_of_first scan first
      obtain ⟨-, r, here⟩ := book.entries p w (queue ▸ List.mem_cons_self)
      exact ⟨r, p, .delivered here rfl (getElem?_set_of_some channel _) rfl, ⟨_, here, rfl⟩, rfl⟩
  | release | cloneLock | letGoClone | letGoLast => simp at more
  | _ => exact absurd more (Nat.lt_irrefl _)

end Effects

namespace World

/-- The run grants the request: one of its moves makes the grant, which is there for the request
after that move. -/
def Granted (x : Instance) (ms : List Move) (r g : Nat) : Prop :=
  ∃ ms₁ m v v', ms₁ ++ [m] <+: ms ∧ (start x).run? ms₁ = some v ∧ v.step? m = some v' ∧
    v.inst.grants.length = g ∧ v'.inst.HoldsGrant r g

section Granted
variable {x : Instance} {ms : List Move} {m : Move} {v v' : World} {r g : Nat}

theorem granted_append_iff (run : (start x).run? ms = some v) (hstep : v.step? m = some v') :
    Granted x (ms ++ [m]) r g ↔
      Granted x ms r g ∨ v.inst.grants.length = g ∧ v'.inst.HoldsGrant r g := by
  constructor
  · rintro ⟨ms₁, m', u, u', sub, hu, hstep', rfl, holds⟩
    rcases List.prefix_concat_iff.mp sub with whole | sub
    · obtain ⟨rfl, e⟩ := List.append_inj' whole rfl
      cases e
      cases run.symm.trans hu
      cases hstep.symm.trans hstep'
      exact .inr ⟨rfl, holds⟩
    · exact .inl ⟨ms₁, m', u, u', sub, hu, hstep', rfl, holds⟩
  · rintro (⟨ms₁, m', u, u', sub, hu, hstep', made, holds⟩ | ⟨made, holds⟩)
    · exact ⟨ms₁, m', u, u', sub.trans (List.prefix_append _ _), hu, hstep', made, holds⟩
    · exact ⟨ms, m, v, v', List.prefix_rfl, run, hstep, made, holds⟩

theorem not_granted_nil : ¬Granted x [] r g := by
  rintro ⟨ms₁, m, -, -, sub, -⟩
  cases List.append_eq_nil_iff.mp (List.prefix_nil.mp sub) |>.2

end Granted

/-- The grants that a run has made, in the order of the requests that hold them. -/
structure ServiceHistory (x : Instance) (ms : List Move) (v : World) : Prop where
  made : ∀ r g, Granted x ms r g → r < v.inst.requests.length ∧ g < v.inst.grants.length
  /-- No request up to one that was granted is in a queue of its priority. -/
  left : ∀ r g, Granted x ms r g → ∀ r₁ ≤ r, ∀ p, v.inst.Asks r₁ p → v.inst.Asks r p →
    ¬v.inst.InQueue r₁
  order : ∀ r₁ g₁ r₂ g₂ p, Granted x ms r₁ g₁ → Granted x ms r₂ g₂ → v.inst.Asks r₁ p →
    v.inst.Asks r₂ p → r₁ < r₂ → g₁ < g₂
  once : ∀ r g₁ g₂, Granted x ms r g₁ → Granted x ms r g₂ → g₁ = g₂

/-- Of two requests that were granted at one priority, the earlier one has the earlier grant. -/
theorem ServiceHistory.lt_iff {x : Instance} {ms : List Move} {v : World}
    (history : ServiceHistory x ms v) {r₁ g₁ r₂ g₂ p : Nat} (granted₁ : Granted x ms r₁ g₁)
    (granted₂ : Granted x ms r₂ g₂) (asks₁ : v.inst.Asks r₁ p) (asks₂ : v.inst.Asks r₂ p) :
    r₁ < r₂ ↔ g₁ < g₂ := by
  have forward := history.order r₁ g₁ r₂ g₂ p granted₁ granted₂ asks₁ asks₂
  have backward := history.order r₂ g₂ r₁ g₁ p granted₂ granted₁ asks₂ asks₁
  rcases Nat.lt_trichotomy r₁ r₂ with lt | rfl | gt
  · exact ⟨forward, fun _ => lt⟩
  · rw [history.once r₁ g₁ g₂ granted₁ granted₂]
    simp
  · have := backward gt
    omega

section History
variable {c : Config} {x : Instance} {ms : List Move} {m : Move} {v v' : World}

/-- A move that leaves a request with a grant that was not there before has made it. -/
theorem grantMade_of_holdsGrant (fresh : Instance.create c = .ok x)
    (run : (start x).run? ms = some v) (hstep : v.step? m = some v') {r : Nat}
    (holds : v'.inst.HoldsGrant r v.inst.grants.length) :
    GrantMade v.inst v'.inst (v.sectionOf m) := by
  obtain ⟨rest, a, -, -, effect⟩ := step?_effect hstep
  have run' := run?_append_singleton_eq_some_iff.mpr ⟨v, run, hstep⟩
  exact effect.grantMade (unshared_of_holdsGrant fresh run' holds).lt

theorem asks_old (hstep : v.step? m = some v') {r p : Nat} (old : r < v.inst.requests.length)
    (asks : v'.inst.Asks r p) : v.inst.Asks r p := by
  obtain ⟨rest, a, -, -, effect⟩ := step?_effect hstep
  have before : v.inst.Asks r v.inst.requests[r].priority :=
    ⟨_, List.getElem?_eq_getElem old, rfl⟩
  obtain ⟨q, here, rfl⟩ := asks
  obtain ⟨q', here', priority⟩ := effect.asks before
  cases here.symm.trans here'
  exact priority ▸ before

/-- A move keeps the history. -/
theorem ServiceHistory.step (history : ServiceHistory x ms v) (fresh : Instance.create c = .ok x)
    (run : (start x).run? ms = some v) (hstep : v.step? m = some v') :
    ServiceHistory x (ms ++ [m]) v' := by
  obtain ⟨rest, a, -, -, effect⟩ := step?_effect hstep
  have run' := run?_append_singleton_eq_some_iff.mpr ⟨v, run, hstep⟩
  have undelivered := undelivered fresh run
  have order := queueOrder fresh run
  have made {r : Nat} (holds : v'.inst.HoldsGrant r v.inst.grants.length) :=
    grantMade_of_holdsGrant fresh run hstep holds
  have first {r g : Nat} (old : Granted x ms r g) :
      ¬v'.inst.HoldsGrant r v.inst.grants.length := by
    intro holds
    obtain ⟨hr, -⟩ := history.made r g old
    rcases (made holds).waited undelivered holds with rfl | waits
    · exact Nat.lt_irrefl _ hr
    · exact history.left r g old r (Nat.le_refl r) _ ⟨_, List.getElem?_eq_getElem hr, rfl⟩
        ⟨_, List.getElem?_eq_getElem hr, rfl⟩ waits
  refine ⟨?_, ?_, ?_, ?_⟩
  · intro r g granted
    rcases (granted_append_iff run hstep).mp granted with old | ⟨rfl, holds⟩
    · obtain ⟨hr, hg⟩ := history.made r g old
      have asks : v.inst.Asks r v.inst.requests[r].priority :=
        ⟨_, List.getElem?_eq_getElem hr, rfl⟩
      exact ⟨(effect.asks asks).lt, effect.lt_length_grants hg⟩
    · exact ⟨holds.lt, (unshared_of_holdsGrant fresh run' holds).lt⟩
  · intro r g granted r₁ le p asks₁ asks waits
    rcases (granted_append_iff run hstep).mp granted with old | ⟨rfl, holds⟩
    · obtain ⟨hr, -⟩ := history.made r g old
      have hr₁ := Nat.lt_of_le_of_lt le hr
      exact history.left r g old r₁ le p (asks_old hstep hr₁ asks₁) (asks_old hstep hr asks)
        (effect.inQueue_old order hr₁ waits)
    · rcases Nat.lt_or_eq_of_le le with lt | rfl
      · have hr₁ := Nat.lt_of_lt_of_le lt ((made holds).le_length undelivered holds)
        exact (made holds).served_before order undelivered holds (asks_old hstep hr₁ asks₁) asks lt
          (effect.inQueue_old order hr₁ waits)
      · exact (made holds).leaves order (queueOrder fresh run') undelivered holds waits
  · intro r₁ g₁ r₂ g₂ p granted₁ granted₂ asks₁ asks₂ lt
    rcases (granted_append_iff run hstep).mp granted₁ with old₁ | ⟨rfl, holds₁⟩
    · have hr₁ := (history.made r₁ g₁ old₁).1
      rcases (granted_append_iff run hstep).mp granted₂ with old₂ | ⟨rfl, -⟩
      · have hr₂ := (history.made r₂ g₂ old₂).1
        exact history.order r₁ g₁ r₂ g₂ p old₁ old₂ (asks_old hstep hr₁ asks₁)
          (asks_old hstep hr₂ asks₂) lt
      · exact (history.made r₁ g₁ old₁).2
    · -- the earlier request cannot be granted by this move, which finds it in no queue
      exfalso
      rcases (granted_append_iff run hstep).mp granted₂ with old₂ | ⟨rfl, holds₂⟩
      · have hr₂ := (history.made r₂ g₂ old₂).1
        have hr₁ := Nat.lt_trans lt hr₂
        rcases (made holds₁).waited undelivered holds₁ with rfl | waits
        · exact Nat.lt_irrefl _ hr₁
        · exact history.left r₂ g₂ old₂ r₁ (Nat.le_of_lt lt) p (asks_old hstep hr₁ asks₁)
            (asks_old hstep hr₂ asks₂) waits
      · have hr₁ := Nat.lt_of_lt_of_le lt ((made holds₂).le_length undelivered holds₂)
        rcases (made holds₁).waited undelivered holds₁ with rfl | waits
        · exact Nat.lt_irrefl _ hr₁
        · exact (made holds₂).served_before order undelivered holds₂ (asks_old hstep hr₁ asks₁)
            asks₂ lt waits
  · intro r g₁ g₂ granted₁ granted₂
    rcases (granted_append_iff run hstep).mp granted₁ with old₁ | ⟨rfl, holds₁⟩ <;>
      rcases (granted_append_iff run hstep).mp granted₂ with old₂ | ⟨rfl, holds₂⟩
    · exact history.once r g₁ g₂ old₁ old₂
    · exact absurd holds₂ (first old₁)
    · exact absurd holds₁ (first old₂)
    · rfl

/-- The grants of a run are in the order of the requests. -/
theorem serviceHistory (fresh : Instance.create c = .ok x) (run : (start x).run? ms = some v) :
    ServiceHistory x ms v := by
  refine run?_induction (P := fun ms v => ServiceHistory x ms v) ?_ ?_ run
  · refine ⟨?_, ?_, ?_, ?_⟩
    · intro r g granted
      exact absurd granted not_granted_nil
    · intro r g granted
      exact absurd granted not_granted_nil
    · intro r₁ g₁ r₂ g₂ p granted
      exact absurd granted not_granted_nil
    · intro r g₁ g₂ granted
      exact absurd granted not_granted_nil
  · intro ms v m v' hv history hstep
    exact history.step fresh hv hstep

/-- In a move the wait of a request ends with a grant, with its drop, or with a kill, as long as no
ticket was given out twice. -/
theorem step?_wait_ends (fresh : Instance.create c = .ok x)
    (run : (start x).run? ms = some v) (few : v.inst.channels.length ≤ 2 ^ 64)
    (hstep : v.step? m = some v') {r : Nat} (waits : v.inst.InQueue r) :
    v'.inst.InQueue r ∨ v'.inst.HoldsGrant r v.inst.grants.length ∨ m = .call (.dropRequest r) ∨
      v'.inst.state.killed = true := by
  obtain ⟨rest, a, -, -, effect⟩ := step?_effect hstep
  rcases effect.wait_ends (channelEnds fresh run) (queueBook fresh run few) few waits with
    still | holds | dropped | killed
  · exact .inl still
  · exact .inr (.inl holds)
  · exact .inr (.inr (.inl (eq_call_of_sectionOf dropped)))
  · exact .inr (.inr (.inr killed))

/-- A request waits, was granted, or was let go, unless the lock was killed, as long as no ticket
was given out twice. -/
theorem fate_of_request (fresh : Instance.create c = .ok x) (run : (start x).run? ms = some v)
    (few : v.inst.channels.length ≤ 2 ^ 64) {r : Nat} (here : r < v.inst.requests.length) :
    v.inst.InQueue r ∨ (∃ g, Granted x ms r g) ∨ .call (.dropRequest r) ∈ ms ∨
      v.inst.state.killed = true := by
  refine run?_induction (P := fun ms v => v.inst.channels.length ≤ 2 ^ 64 →
    r < v.inst.requests.length → v.inst.InQueue r ∨ (∃ g, Granted x ms r g) ∨
      .call (.dropRequest r) ∈ ms ∨ v.inst.state.killed = true) ?_ ?_ run few here
  · rw [eq_ofConfig_of_create fresh]
    intro _ none
    cases none
  · intro ms v m v' hv past hstep few' made
    obtain ⟨rest, a, -, -, effect⟩ := step?_effect hstep
    have few := Nat.le_trans effect.length_channels few'
    have granted (holds : v'.inst.HoldsGrant r v.inst.grants.length) :
        ∃ g, Granted x (ms ++ [m]) r g :=
      ⟨_, (granted_append_iff hv hstep).mpr (.inr ⟨rfl, holds⟩)⟩
    rcases Nat.lt_or_ge r v.inst.requests.length with old | new
    · rcases past few old with waits | ⟨g, before⟩ | dropped | killed
      · rcases step?_wait_ends fresh hv few hstep waits with still | holds | rfl | killed
        · exact .inl still
        · exact .inr (.inl (granted holds))
        · exact .inr (.inr (.inl (List.mem_append_right _ (.head _))))
        · exact .inr (.inr (.inr killed))
      · exact .inr (.inl ⟨g, (granted_append_iff hv hstep).mpr (.inl before)⟩)
      · exact .inr (.inr (.inl (List.mem_append_left _ dropped)))
      · exact .inr (.inr (.inr (effect.killed killed)))
    · rcases effect.new_request new made with waits | holds | killed
      · exact .inl waits
      · exact .inr (.inl (granted holds))
      · exact .inr (.inr (.inr killed))

/-- Every grant of a run was made for a request at its priority, as long as no ticket was given out
twice. -/
theorem recipient_of_grant (fresh : Instance.create c = .ok x)
    (run : (start x).run? ms = some v) (few : v.inst.channels.length ≤ 2 ^ 64) {g : Nat}
    {grant : Grant} (here : v.inst.grants[g]? = some grant) :
    ∃ r, Granted x ms r g ∧ v.inst.Asks r grant.priority := by
  refine run?_induction (P := fun ms v => v.inst.channels.length ≤ 2 ^ 64 →
    ∀ grant, v.inst.grants[g]? = some grant →
      ∃ r, Granted x ms r g ∧ v.inst.Asks r grant.priority) ?_ ?_ run few grant here
  · rw [eq_ofConfig_of_create fresh]
    intro _ grant none
    cases none
  · intro ms v m v' hv past hstep few' grant here
    obtain ⟨rest, a, -, -, effect⟩ := step?_effect hstep
    have few := Nat.le_trans effect.length_channels few'
    rcases Nat.lt_or_ge g v.inst.grants.length with old | new
    · obtain ⟨grant', here', priority⟩ := effect.grant_priority (List.getElem?_eq_getElem old)
      cases here.symm.trans here'
      obtain ⟨r, granted, asks⟩ := past few _ (List.getElem?_eq_getElem old)
      exact ⟨r, (granted_append_iff hv hstep).mpr (.inl granted), priority ▸ effect.asks asks⟩
    · have made := (List.getElem?_eq_some_iff.mp here).1
      obtain ⟨r, p, holds, asks, grants⟩ :=
        effect.recipient (channelEnds fresh hv) (queueBook fresh hv few) (by omega)
      rw [grants] at here
      rcases of_getElem?_append_singleton here with before | ⟨rfl, rfl⟩
      · exact absurd (List.getElem?_eq_some_iff.mp before).1 (by omega)
      · exact ⟨r, (granted_append_iff hv hstep).mpr (.inr ⟨rfl, holds⟩), asks⟩

/-- Requests at one priority are served in the order in which they were made, at once or from the
queue: when one is granted, every earlier one was granted before or let go. The history behind that
is complete as long as no ticket was given out twice. -/
theorem served_in_order (fresh : Instance.create c = .ok x) (run : (start x).run? ms = some w) :
    (∀ m w', w.step? m = some w' →
      (∀ r₁ r₂ p, w'.inst.HoldsGrant r₂ w.inst.grants.length → r₁ < r₂ → w'.inst.Asks r₁ p →
        w'.inst.Asks r₂ p → ¬w.inst.InQueue r₁ ∧ ¬w'.inst.InQueue r₁ ∧
          (w.inst.channels.length ≤ 2 ^ 64 →
            (∃ g₁ < w.inst.grants.length, Granted x ms r₁ g₁) ∨ .call (.dropRequest r₁) ∈ ms)) ∧
      (∀ p, m = .call (.request p) → w.inst.grants.length < w'.inst.grants.length →
        w.inst.state.queueAt p = []) ∧
      ∀ p, (w'.inst.state.queueAt p).Sublist (w.inst.state.queueAt p) ∨
        m = .call (.request p) ∧ ∃ e, w'.inst.state.queueAt p = w.inst.state.queueAt p ++ [e]) ∧
    (∀ r₁ g₁ r₂ g₂ p, Granted x ms r₁ g₁ → Granted x ms r₂ g₂ → w.inst.Asks r₁ p →
      w.inst.Asks r₂ p → (r₁ < r₂ ↔ g₁ < g₂)) ∧
    (w.inst.channels.length ≤ 2 ^ 64 →
      (∀ r < w.inst.requests.length, w.inst.InQueue r ∨ (∃ g, Granted x ms r g) ∨
        .call (.dropRequest r) ∈ ms ∨ w.inst.state.killed = true) ∧
      ∀ g grant, w.inst.grants[g]? = some grant →
        ∃ r, Granted x ms r g ∧ w.inst.Asks r grant.priority) := by
  refine ⟨?_, ?_, ?_⟩
  · intro m w' hstep
    obtain ⟨rest, a, -, -, effect⟩ := step?_effect hstep
    have order := queueOrder fresh run
    refine ⟨?_, ?_, ?_⟩
    · intro r₁ r₂ p holds lt asks₁ asks₂
      have made := grantMade_of_holdsGrant fresh run hstep holds
      have run' := run?_append_singleton_eq_some_iff.mpr ⟨w, run, hstep⟩
      have more := (unshared_of_holdsGrant fresh run' holds).lt
      have undelivered := undelivered fresh run
      have old := Nat.lt_of_lt_of_le lt (made.le_length undelivered holds)
      have served := made.served_before order undelivered holds (asks_old hstep old asks₁) asks₂ lt
      refine ⟨served, fun waits => served (effect.inQueue_old order old waits), ?_⟩
      intro few
      rcases fate_of_request fresh run few old with waits | ⟨g₁, granted⟩ | dropped | killed
      · exact absurd waits served
      · exact .inl ⟨g₁, ((serviceHistory fresh run).made r₁ g₁ granted).2, granted⟩
      · exact .inr dropped
      · have same := effect.length_grants_of_killed killed (halted_of_killed fresh run killed)
        omega
    · rintro p rfl more
      cases effect.grantMade more with
      | atOnce idle => exact idle
    · intro p
      rcases effect.queue_step with shrinks | ⟨k, request, enqueues⟩
      · exact .inl (shrinks.queues p)
      · by_cases same : p = k
        · subst same
          right
          exact ⟨eq_call_of_sectionOf request, _, (enqueues.queueAt p).trans (if_pos rfl)⟩
        · left
          rw [enqueues.queueAt, if_neg same]
  · intro r₁ g₁ r₂ g₂ p granted₁ granted₂ asks₁ asks₂
    exact (serviceHistory fresh run).lt_iff granted₁ granted₂ asks₁ asks₂
  · intro few
    refine ⟨fun r here => fate_of_request fresh run few here, fun g grant here => ?_⟩
    exact recipient_of_grant fresh run few here

/-- A lock with one slot and three requests. The first has the slot, the second is let go while it
waits, and the third is granted when the slot comes back. -/
theorem served_in_order_of_three_requests :
    ∃ ms w w', (start (.ofConfig { concurrency := 1, weights := [1] })).run? ms = some w ∧
      w.step? .work = some w' ∧ w.inst.InQueue 2 ∧ w'.inst.HoldsGrant 2 1 ∧
      ¬w.inst.InQueue 0 ∧ ¬w.inst.InQueue 1 ∧
      ∃ g < 1, Granted (.ofConfig { concurrency := 1, weights := [1] }) ms 0 g := by
  have run : (start (.ofConfig { concurrency := 1, weights := [1] })).run?
      [.call (.request 0), .callEnds, .call (.request 0), .callEnds, .call (.request 0), .callEnds,
        .call (.dropRequest 1), .work, .work, .work, .callEnds,
        .call (.poll 0 .silent), .callEnds, .call (.dropLock 0), .work, .work, .callEnds,
        .call (.drive .silent), .work] = some _ := rfl
  obtain ⟨moves, -, -⟩ := served_in_order (c := { concurrency := 1, weights := [1] }) rfl run
  obtain ⟨served, -, -⟩ := moves .work _ rfl
  obtain ⟨first, -, granted⟩ :=
    served 0 2 0 (.delivered rfl rfl rfl rfl) (by decide) ⟨_, rfl, rfl⟩ ⟨_, rfl, rfl⟩
  obtain ⟨second, -, -⟩ :=
    served 1 2 0 (.delivered rfl rfl rfl rfl) (by decide) ⟨_, rfl, rfl⟩ ⟨_, rfl, rfl⟩
  refine ⟨_, _, _, run, rfl, ⟨_, _, 0, _, .head _, rfl, rfl⟩, .delivered rfl rfl rfl rfl, first,
    second, ?_⟩
  rcases granted (by decide) with earlier | dropped
  · exact earlier
  · simp at dropped

/-- A slot is free, and request 2 is the first in its queue, while request 1 still takes itself to
be queued. -/
structure PassesOver (x : Instance) : Prop where
  free : x.state.free = 1
  waiting : x.state.waiting = 2
  one : x.state.lanes.length = 1
  queue : ∃ e, x.state.queueAt 0 = [⟨1, 1⟩, e]
  channel : x.channels[1]? = some .empty
  grants : x.grants.length = 1
  gone : x.requests[0]? = some ⟨0, .dropped⟩
  passed : x.requests[1]? = some ⟨0, .queued 0 0⟩
  next : x.requests[2]? = some ⟨0, .queued 1 1⟩

/-- Requests 1 and 2 wait behind request 0, which has the slot, until the ticket of request 1 is
given out again and the new request is let go. Then the slot comes back, and the loop begins a
pass. -/
def passingOver : List Move :=
  [.call (.request 0), .callEnds, .call (.request 0), .callEnds, .call (.request 0), .callEnds] ++
    (eviction 0 3 (2 ^ 64 - 2) none ++
      [.call (.dropRequest 0), .work, .work, .work, .callEnds, .call (.drive .silent), .work])

theorem run?_passingOver :
    ∃ (y : Instance) (made : Option Nat),
      (start (.ofConfig { concurrency := 1, weights := [1] })).run? passingOver =
        some { inst := y, layers := [.call (.drive .silent) [.task (.pass .silent)] made] } ∧
      PassesOver y := by
  obtain ⟨w, run⟩ : ∃ w, (start (.ofConfig { concurrency := 1, weights := [1] })).run?
      [.call (.request 0), .callEnds, .call (.request 0), .callEnds, .call (.request 0),
        .callEnds] = some w := ⟨_, rfl⟩
  have evicts : ∃ log, w.run? (eviction 0 3 (2 ^ 64 - 2) none) =
      some (w.evicted 0 (2 ^ 64 - 2) ⟨0, 0⟩ .empty log) := by
    obtain rfl := Option.some.inj run
    exact run?_eviction (c := { concurrency := 1, weights := [1] }) (p := 0) rfl run
      ⟨rfl, by decide, rfl, by decide, by decide⟩ .empty rfl (by decide) (by decide) rfl rfl
  -- how many have visited makes no difference from here on
  have resumes (n : Nat) (log : List Event) : ∃ (y : Instance) (made : Option Nat),
      (w.evicted 0 n ⟨0, 0⟩ .empty log).run? [.call (.dropRequest 0), .work, .work, .work,
          .callEnds, .call (.drive .silent), .work] =
        some { inst := y, layers := [.call (.drive .silent) [.task (.pass .silent)] made] } ∧
      PassesOver y := by
    obtain rfl := Option.some.inj run
    exact ⟨_, _, rfl, rfl, rfl, rfl, ⟨_, rfl⟩, rfl, rfl, rfl, rfl, rfl⟩
  obtain ⟨log, evicts⟩ := evicts
  obtain ⟨y, made, resumes, passes⟩ := resumes (2 ^ 64 - 2) log
  exact ⟨y, made, run?_trans run (run?_trans evicts resumes), passes⟩

/-- The first request is granted at once, and so has the first grant. -/
theorem granted_at_once (ms : List Move) :
    Granted (.ofConfig { concurrency := 1, weights := [1] }) (.call (.request 0) :: ms) 0 0 :=
  ⟨[], .call (.request 0), _, _, List.prefix_append _ ms, rfl, rfl, rfl, .settled rfl rfl⟩

theorem dropRequest_notMem_passingOver : .call (.dropRequest 1) ∉ passingOver := by
  intro dropped
  rcases List.mem_append.mp dropped with before | dropped
  · simp at before
  rcases List.mem_append.mp dropped with visits | after
  · exact dropRequest_notMem_eviction (by decide) _ _ _ visits
  · simp at after

/-- The bound on the tickets is needed. When the ticket of a request that waits is given out again
and the new request is let go, the one behind the old one is granted, though the old one was neither
granted nor let go. Who was granted is still marked as queued before a poll takes the grant. -/
theorem passed_over_after_reused_ticket :
    (∃ w v, (start (.ofConfig { concurrency := 1, weights := [1] })).run? passingOver = some w ∧
      w.step? .work = some v ∧ v.inst.HoldsGrant 2 w.inst.grants.length ∧
      v.inst.Asks 1 0 ∧ v.inst.Asks 2 0 ∧
      (∀ g, ¬Granted (.ofConfig { concurrency := 1, weights := [1] }) passingOver 1 g) ∧
      .call (.dropRequest 1) ∉ passingOver) ∧
    ∃ w v, (start (.ofConfig { concurrency := 2, weights := [1] })).run?
        [.call (.request 0), .callEnds, .call (.request 0), .callEnds, .call (.request 0),
          .callEnds, .call (.request 0), .callEnds, .call (.dropRequest 0), .work, .work, .work,
          .callEnds, .call (.dropRequest 1), .work, .work, .work, .callEnds,
          .call (.drive .silent), .work, .work, .work, .work] = some w ∧
      w.inst.HoldsGrant 2 2 ∧ w.step? .work = some v ∧ v.inst.HoldsGrant 3 3 ∧
      v.inst.isQueued 2 = true := by
  constructor
  · obtain ⟨y, made, run, passes⟩ := run?_passingOver
    have serve : y.state.CanServe := by
      simp [LockState.CanServe, passes.free, passes.waiting]
    obtain ⟨e, queue⟩ := passes.queue
    obtain ⟨running, s, s', scan, first⟩ :=
      first_of_one_lane (c := { concurrency := 1, weights := [1] }) rfl run serve passes.one queue
    have pass : step? { inst := y, layers := [.call (.drive .silent) [.task (.pass .silent)] made] }
        .work = some _ := step?_work_of_perform
      (Task.pass_of_first running serve.1 (Nat.ne_of_gt serve.2) scan first passes.channel rfl)
    refine ⟨_, _, run, pass, .delivered passes.next rfl (getElem?_set_of_some passes.channel _) rfl,
      ⟨_, passes.passed, rfl⟩, ⟨_, passes.next, rfl⟩, ?_, dropRequest_notMem_passingOver⟩
    -- the only grant so far is that of the first request
    intro g granted
    have history := serviceHistory (c := { concurrency := 1, weights := [1] }) rfl run
    have small := (history.made 1 g granted).2
    have later := (history.lt_iff (granted_at_once _) granted ⟨_, passes.gone, rfl⟩
      ⟨_, passes.passed, rfl⟩).mp Nat.one_pos
    rw [passes.grants] at small
    omega
  · exact ⟨_, _, rfl, .delivered rfl rfl rfl rfl, rfl, .delivered rfl rfl rfl rfl, rfl⟩

end History

end World

end FairShare
