import FairShare.Proofs.Halts
import FairShare.Proofs.Retreats

/-!
# Requests that are let go

A caller who lets a request go takes back what the request has brought about. If its entry is still
in a queue, that entry leaves, and nothing else changes but what counts it; so a request that queues
and is let go at once leaves nothing behind but its ticket. If the request holds a grant, its one
slot is returned. If it is over, nothing is left to take back.

The slot may have been the last thing that owned the instance, as the callers of the requests in the
queues own nothing. The instance is destroyed then, and with it the queues.
-/

namespace FairShare

/-! ## What the counters lose -/

/-- The entry leaves the queue of the priority, and nothing else changes but what counts it. -/
structure LockState.LosesEntry (p : Nat) (e : Waiter) (s s' : LockState) : Prop where
  /-- The others stay in their order, and the other queues stay. -/
  queue : ∃ before after, s.queueAt p = before ++ e :: after ∧
    ∀ q, s'.queueAt q = if q = p then before ++ after else s.queueAt q
  waiting : s'.waiting + 1 = s.waiting
  runners : s'.runners = s.runners
  weights : s'.weights = s.weights
  slots : s'.slots = s.slots
  free : s'.free = s.free
  halted : s'.halted = s.halted
  killed : s'.killed = s.killed
  nextTicket : s'.nextTicket = s.nextTicket
  /-- A member whose queue is empty then goes with its weight. The others stay in their order, and
  if it had the turn, the turn goes to the next one. -/
  struck : s'.queueAt p = [] → p ∈ s.rota.toList →
    s'.rota.toList = s.rota.toList.erase p ∧
      s'.rota.turn = (if s.rota.turn = some p then s.rota.after? p else s.rota.turn) ∧
      s'.demand + s.weightAt p = s.demand
  /-- Otherwise nobody goes. -/
  kept : ¬(s'.queueAt p = [] ∧ p ∈ s.rota.toList) → s'.rota = s.rota ∧ s'.demand = s.demand

/-- An entry that leaves its queue is lost exactly. -/
theorem DemandAccounts.losesEntry {weights : List Nat} {s s' : LockState} {p : Nat} {e : Waiter}
    (h : DemandAccounts weights s) (leaves : LockState.Leaves p e s s') :
    LockState.LosesEntry p e s s' := by
  have room := leaves.lt
  have exit := h.exact_leave leaves
  obtain ⟨nextTicket, killed, halted, free, slots⟩ := leaves.frame
  obtain ⟨before, after, queue, rfl⟩ := leaves.split
  have queueAt := LockState.queueAt_leaveQueue (before ++ after) room
  have left := queueAt p
  rw [if_pos rfl] at left
  refine ⟨⟨before, after, queue, queueAt⟩, exit.waiting, ?_, ?_, slots, free, halted, killed,
    nextTicket, ?_, ?_⟩
  · exact s.runners_leaveQueue p _
  · exact s.weights_leaveQueue p _
  · intro last member
    have demand := exit.demand
    rw [if_pos ⟨(h.spells.contains_iff p).mpr member, last⟩] at demand
    rw [left] at last
    rw [last] at demand ⊢
    have rota := (LockState.leaveQueue_of_last room).1
    rw [rota]
    exact ⟨(h.spells.strike p).toList_eq, h.spells.turn_strike p, demand⟩
  · intro other
    rw [left] at other
    by_cases last : before ++ after = []
    · have absent : p ∉ s.rota.toList := fun member => other ⟨last, member⟩
      have unlinked := h.spells.contains_eq_false absent
      obtain ⟨rota, demand⟩ := LockState.leaveQueue_of_last room
      rw [last, rota, demand, Rota.strike, unlinked]
      exact ⟨rfl, rfl⟩
    · exact LockState.leaveQueue_of_others room last

/-! ## The condition of a request -/

namespace Instance

variable {x : Instance} {r g : Nat}

/-- The grant of a request is the one that the next poll hands out. -/
theorem grantOf?_eq_some_iff : x.grantOf? r = some g ↔ x.HoldsGrant r g := by
  constructor
  · intro holds
    unfold grantOf? at holds
    split at holds
    · cases holds
    · rename_i q here
      split at holds
      · rename_i k progress
        cases holds
        exact .settled here progress
      · rename_i ticket c progress
        obtain ⟨ch, channel, full⟩ := Option.bind_eq_some_iff.mp holds
        exact .delivered here progress channel full
      · cases holds
  · intro holds
    cases holds with
    | settled here progress => simp [grantOf?, here, progress]
    | delivered here progress channel full => simp [grantOf?, here, progress, channel, full]

/-- A farewell takes the entry of a request that awaits its verdict out of its queue. -/
theorem state_farewell_of_queued {q : Request} {ticket : UInt64} {c : Nat}
    (here : x.requests[r]? = some q) (queued : q.progress = .queued ticket c) :
    (x.undergo (x.farewell r)).state = x.state.abandon q.priority ticket := by
  simp [farewell, here, queued, undergo, Retreat.apply, abandon, setProgress]

/-- A farewell to a request that had not to queue leaves the counters alone. -/
theorem state_farewell_of_unqueued (unqueued : ∀ c, ¬x.AwaitsOn r c) :
    (x.undergo (x.farewell r)).state = x.state := by
  cases here : x.requests[r]? with
  | none => simp [farewell, here, undergo]
  | some q =>
      rcases progress : q.progress with _ | ⟨ticket, c⟩ | _ | _
      case queued => exact absurd ⟨q, ticket, here, progress⟩ (unqueued c)
      all_goals simp [farewell, here, progress, undergo, Retreat.apply, setProgress]

end Instance

/-- A grant that was made at once is at the priority of its request. -/
theorem Effect.settled_priority {x x' : Instance} {L L' : List Nat} {sec : Section}
    {a : Agenda Task} (effect : Effect x L sec x' a L')
    (h : ∀ q ∈ x.requests, ∀ g, q.progress = .settled (some (.granted g)) →
      ∃ grant, x.grants[g]? = some grant ∧ grant.priority = q.priority) :
    ∀ q ∈ x'.requests, ∀ g, q.progress = .settled (some (.granted g)) →
      ∃ grant, x'.grants[g]? = some grant ∧ grant.priority = q.priority := by
  intro q member g settled
  have old (there : q ∈ x.requests) :
      ∃ grant, x'.grants[g]? = some grant ∧ grant.priority = q.priority := by
    obtain ⟨grant, here, priority⟩ := h q there g settled
    obtain ⟨grant', here', same⟩ := effect.grant_priority here
    exact ⟨grant', here', same.trans priority⟩
  cases effect with
  | refuse | queue =>
      rcases List.mem_append.mp member with there | new
      · exact old there
      · cases List.mem_singleton.mp new
        cases settled
  | grantAtOnce =>
      rcases List.mem_append.mp member with there | new
      · exact old there
      · cases List.mem_singleton.mp new
        cases settled
        exact ⟨_, List.getElem?_concat_length, rfl⟩
  | takeVerdict | receive | fail | dropGranted | dropDone | dropUnqueued | withdraw =>
      rcases List.mem_or_eq_of_mem_set member with there | rfl
      · exact old there
      · cases settled
  | _ => exact old member

/-- A request that holds a grant is in no queue. -/
theorem Instance.HoldsGrant.not_inQueue {x : Instance} {tasks : List Task} {r g : Nat}
    (h : x.HoldsGrant r g) (ends : ChannelEnds x.state.waiters x.requests x.channels tasks) :
    ¬x.InQueue r := by
  rintro ⟨q, ticket, p, e, entry, here, queued⟩
  have member := LockState.mem_waiters_iff.mpr ⟨p, entry⟩
  cases h with
  | settled here' progress =>
      cases here.symm.trans here'
      cases queued.symm.trans progress
  | delivered here' progress channel full =>
      cases here.symm.trans here'
      obtain ⟨-, rfl⟩ := Progress.queued.inj (queued.symm.trans progress)
      cases full.symm.trans (ends.unsent e member _ channel)

section Entries
variable {x : Instance} {tasks : List Task} {r c : Nat} {q : Request} {ticket : UInt64}

/-- The entry of a request in a queue is found by its ticket, as long as no ticket was given out
twice. -/
theorem QueueBook.waiter?_of_inQueue (book : QueueBook x.state x.requests x.channels x.grants)
    (ends : ChannelEnds x.state.waiters x.requests x.channels tasks)
    (few : x.channels.length ≤ 2 ^ 64) (here : x.requests[r]? = some q)
    (queued : q.progress = .queued ticket c) (waits : x.InQueue r) :
    ∃ e, x.state.waiter? q.priority ticket = some e ∧ e.channel = c := by
  obtain ⟨q', ticket', p, e, entry, here', queued'⟩ := waits
  cases here.symm.trans here'
  obtain ⟨rfl, rfl⟩ := Progress.queued.inj (queued.symm.trans queued')
  obtain ⟨own, k, there⟩ := book.entries p e entry
  cases QueueBook.sole ends here queued there rfl
  cases here.symm.trans there
  obtain rfl : e.ticket = ticket := (Progress.queued.inj queued).1
  cases found : x.state.waiter? p e.ticket with
  | none =>
      have absent := LockState.withdraw?_eq_none (LockState.withdraw?_of_absent found)
      exact absurd rfl (absent e entry)
  | some e' =>
      have leaves := LockState.leaves_of_withdraw? (LockState.withdraw?_of_entry found)
      exact ⟨e', rfl, book.channel_of_ticket ends few here queued leaves.2.mem leaves.1⟩

/-- A request that is in no queue has no entry. -/
theorem QueueBook.waiter?_of_not_inQueue
    (book : QueueBook x.state x.requests x.channels x.grants)
    (ends : ChannelEnds x.state.waiters x.requests x.channels tasks)
    (few : x.channels.length ≤ 2 ^ 64) (here : x.requests[r]? = some q)
    (queued : q.progress = .queued ticket c) (gone : ¬x.InQueue r) :
    x.state.waiter? q.priority ticket = none := by
  cases found : x.state.waiter? q.priority ticket with
  | none => rfl
  | some e =>
      have leaves := LockState.leaves_of_withdraw? (LockState.withdraw?_of_entry found)
      have own := book.channel_of_ticket ends few here queued leaves.2.mem leaves.1
      exact absurd ⟨q, ticket, q.priority, e, leaves.2.mem, here, own ▸ queued⟩ gone

end Entries

/-! ## The slot of the last owner -/

section Calls
variable {x : Instance}

/-- The last owner that goes kills the lock. -/
theorem completes_disown_of_last (last : x.owners = 1) :
    ∃ y, Completes [.task .disown] x y ∧ y.state = x.state.kill := by
  cases killed : x.state.killed with
  | true =>
      have outcome : Task.disown.perform x = ({ x with owners := 0 }, [.task .wakeLoop]) := by
        simp [Task.perform, Instance.disown, Instance.destroy, last, killed]
      exact ⟨_, .task outcome (completes_wakeLoop _), (LockState.kill_of_killed killed).symm⟩
  | false =>
      have outcome : Task.disown.perform x = ({ x with
          state := x.state.kill
          owners := 0
          log := x.log ++ [.disowned x.state.waiters.length] },
          Instance.closeAll x.state.waiters ++ [.task .wakeLoop]) := by
        simp [Task.perform, Instance.disown, Instance.destroy, last, killed, Instance.report]
      obtain ⟨channels, closes⟩ := completes_closeAll x.state.waiters { x with
        state := x.state.kill
        owners := 0
        log := x.log ++ [.disowned x.state.waiters.length] }
      exact ⟨_, .task outcome (closes.append (completes_wakeLoop _)), rfl⟩

/-- The one clone of a lock returns its slot, and if that was the last owner the lock is killed. -/
theorem completes_dropLock_of_unshared {g : Nat} {grant : Grant} (here : x.grants[g]? = some grant)
    (sole : grant.clones = 1) (locked : grant.released = false) (owned : x.owners ≠ 0) :
    ∃ y, Completes [.task (.dropLock g)] x y ∧ y.state =
      if x.owners = 1 then (x.state.returnSlot grant.priority).kill
      else x.state.returnSlot grant.priority := by
  have outcome := Task.dropLock_of_last here sole locked
  generalize x.state.returnSlot grant.priority = s at outcome ⊢
  by_cases last : x.owners = 1
  · obtain ⟨y, goes, state⟩ := completes_disown_of_last (x := { x with
      state := s
      wake := if decide (0 < s.waiting) then { permit := true, waker := none } else x.wake
      grants := x.grants.set g { grant with clones := 0, released := true }
      log := x.log ++ [.released grant.priority s.free s.waiting] }) last
    refine ⟨y, .task outcome ((completes_wakeLoopIf _ _).append goes), ?_⟩
    rw [if_pos last]
    exact state
  · have others : x.owners - 1 ≠ 0 := by omega
    refine ⟨_, .task outcome ((completes_wakeLoopIf _ _).append (completes_disown others)), ?_⟩
    rw [if_neg last]

end Calls

namespace World

variable {c : Config} {x : Instance} {ms : List Move} {w : World} {r p : Nat}

/-- A grant that a request holds is at the priority of the request, and its one clone has its
slot. -/
theorem grant_of_holdsGrant (fresh : Instance.create c = .ok x)
    (run : (start x).run? ms = some w) (few : w.inst.channels.length ≤ 2 ^ 64)
    (asks : w.inst.Asks r p) {g : Nat} (holds : w.inst.HoldsGrant r g) :
    ∃ grant, w.inst.grants[g]? = some grant ∧ grant.priority = p ∧ grant.clones = 1 ∧
      grant.released = false := by
  obtain ⟨grant, here, clones, locked⟩ := unshared_of_holdsGrant fresh run holds
  refine ⟨grant, here, ?_, clones, locked⟩
  obtain ⟨q, there, rfl⟩ := asks
  cases holds with
  | settled there' progress =>
      cases there.symm.trans there'
      have priorities := run?_invariant (I := fun x _ _ => ∀ q ∈ x.requests, ∀ g,
          q.progress = .settled (some (.granted g)) →
          ∃ grant, x.grants[g]? = some grant ∧ grant.priority = q.priority)
        (fun effect _ h => effect.settled_priority h) run ?_
      · obtain ⟨grant', here', priority⟩ := priorities q (List.mem_of_getElem? there) g progress
        cases here.symm.trans here'
        exact priority
      · rw [eq_ofConfig_of_create fresh]
        intro q member
        cases member
  | delivered there' progress channel full =>
      cases there.symm.trans there'
      cases (queueBook fresh run few).fates r q _ _ there progress with
      | waits entry own =>
          subst own
          have waits : w.inst.InQueue r := ⟨q, _, q.priority, _, entry, there, progress⟩
          have holds : w.inst.HoldsGrant r g := .delivered there progress channel full
          exact absurd waits (holds.not_inQueue (channelEnds fresh run))
      | granted channel' full' made priority =>
          cases channel.symm.trans channel'
          cases full.symm.trans full'
          cases here.symm.trans made
          exact priority
      | failed _ channel' empty =>
          cases channel.symm.trans channel'
          cases full.symm.trans empty

/-- A request that is let go leaves its queue, or its grant goes, or nothing is left to do. -/
theorem exists_performs_dropRequest (fresh : Instance.create c = .ok x)
    (run : (start x).run? ms = some w) (few : w.inst.channels.length ≤ 2 ^ 64)
    (turn : w.usersTurn = true) (held : w.holdsRequest r = true) (asks : w.inst.Asks r p) :
    ∃ v, w.Performs (.dropRequest r) v ∧
      (w.inst.InQueue r → ∃ e, w.inst.AwaitsOn r e.channel ∧
        LockState.Leaves p e w.inst.state v.inst.state) ∧
      (∀ g, w.inst.HoldsGrant r g → v.inst.state =
        if w.inst.owners = 1 then (w.inst.state.returnSlot p).kill
        else w.inst.state.returnSlot p) ∧
      (¬w.inst.InQueue r → (∀ g, ¬w.inst.HoldsGrant r g) → v.inst.state = w.inst.state) := by
  have ends := channelEnds fresh run
  have book := queueBook fresh run few
  obtain ⟨y, retires, goes⟩ :=
    completes_dropRequest r (demandAccounts fresh run) (killed_of_dead fresh run)
  have state : y.state = (w.inst.undergo (w.inst.farewell r)).state := by rw [retires.same]
  have performs {z : Instance} (completes : Completes
      ((w.inst.grantOf? r).toList.map fun g => .task (.dropLock g)) y z) :
      w.Performs (.dropRequest r) { inst := z, layers := w.layers, locks := w.locks } :=
    ⟨turn, held, z, goes z completes, rfl⟩
  -- nothing is found in the queues for a request that is in none of them
  have unfound (gone : ¬w.inst.InQueue r) : y.state = w.inst.state := by
    rw [state]
    by_cases awaits : ∃ d, w.inst.AwaitsOn r d
    · obtain ⟨d, q, ticket, here, queued⟩ := awaits
      rw [Instance.state_farewell_of_queued here queued]
      exact LockState.abandon_of_absent (book.waiter?_of_not_inQueue ends few here queued gone)
    · exact Instance.state_farewell_of_unqueued fun d awaits' => awaits ⟨d, awaits'⟩
  cases granted : w.inst.grantOf? r with
  | none =>
      have ungranted : ∀ g, ¬w.inst.HoldsGrant r g := by
        intro g holds
        cases granted.symm.trans (Instance.grantOf?_eq_some_iff.mpr holds)
      have completes : Completes ((w.inst.grantOf? r).toList.map fun g => .task (.dropLock g))
          y y := by
        rw [granted]
        exact .done y
      refine ⟨_, performs completes, ?_, fun g holds => absurd holds (ungranted g),
        fun gone _ => unfound gone⟩
      intro waits
      obtain ⟨q, here, rfl⟩ := asks
      obtain ⟨q', ticket, -, e', -, here', queued⟩ := id waits
      cases here.symm.trans here'
      obtain ⟨e, found, own⟩ := book.waiter?_of_inQueue ends few here queued waits
      refine ⟨e, ⟨q, ticket, here, own ▸ queued⟩, ?_⟩
      have leaves := LockState.leaves_abandon found
      rwa [← Instance.state_farewell_of_queued here queued, ← state] at leaves
  | some g =>
      have holds := Instance.grantOf?_eq_some_iff.mp granted
      have gone := holds.not_inQueue ends
      obtain ⟨grant, here, rfl, sole, locked⟩ := grant_of_holdsGrant fresh run few asks holds
      obtain ⟨grants, owners⟩ := w.inst.grants_farewell r
      have here' : y.grants[g]? = some grant := by
        rw [retires.same]
        exact (congrArg (fun l => l[g]?) grants).trans here
      have owners' : y.owners = w.inst.owners := by
        rw [retires.same]
        exact owners
      have owned : y.owners ≠ 0 := by
        intro none
        have released := ((ownerCount fresh run).of_dead (owners'.symm.trans none)).2.1
        cases locked.symm.trans (released grant (List.mem_of_getElem? here))
      obtain ⟨z, completes, left⟩ := completes_dropLock_of_unshared here' sole locked owned
      rw [unfound gone, owners'] at left
      refine ⟨_, performs (by rw [granted]; exact completes), fun waits => absurd waits gone, ?_,
        fun _ ungranted => absurd holds (ungranted g)⟩
      intro _ _
      exact left

/-- A call in progress hands over a request that was made. -/
theorem lt_of_handsOver (run : (start x).run? ms = some w)
    (hands : w.handsOver r = true) : r < w.inst.requests.length := by
  refine run?_induction (P := fun _ v => v.handsOver r = true → r < v.inst.requests.length)
    ?_ ?_ run hands
  · intro none
    cases none
  · intro ms v m v' hv past hstep hands
    obtain ⟨rest, a, -, -, effect⟩ := step?_effect hstep
    have old (before : v.handsOver r = true) : r < v'.inst.requests.length :=
      effect.lt_length_requests (past before)
    rcases step?_cases hstep with ⟨d, rfl, -, -, rfl⟩ | ⟨_, _, _, _, _, rfl, hl, rfl⟩ |
      ⟨_, _, _, _, _, rfl, hl, rfl⟩ | ⟨_, _, rfl, hl, rfl⟩ | ⟨_, _, _, rfl, hl, rfl⟩
    · simp only [handsOver, begin, List.any_cons, Bool.or_eq_true, decide_eq_true_eq] at hands
      rcases hands with made | before
      · unfold madeBy at made
        split at made
        · rename_i more
          cases made
          exact more
        · cases made
      · exact old before
    all_goals
      apply old
      simp only [handsOver, hl, List.any_cons, Bool.or_eq_true, decide_eq_true_eq] at hands ⊢
      tauto

/-- A request that stands in a queue when it is handed over has queued. -/
theorem Performs.enqueues {u : World} (h : w.Performs (.request p) u)
    (waits : u.inst.InQueue w.inst.requests.length) :
    p < w.inst.state.lanes.length ∧
      u.inst.state = w.inst.state.enqueue p w.inst.channels.length ∧
      u.inst.requests = w.inst.requests ++ [{
        priority := p, progress := .queued w.inst.state.nextTicket w.inst.channels.length }] := by
  obtain ⟨-, allowed, y, completes, rfl⟩ := h
  change y.InQueue _ at waits
  have effect := effect_begin allowed
  generalize (Call.request p).begin w.inst = o at completes effect
  obtain ⟨y₁, a⟩ := o
  -- a request that is settled at once is in no queue
  have settled {verdict : Option Verdict} {z : Instance} (done : Completes [] z y)
      (last : z.requests =
        w.inst.requests ++ [{ priority := p, progress := .settled verdict }]) : False := by
    cases done
    obtain ⟨q, ticket, k, e, -, here, queued⟩ := waits
    rw [last] at here
    cases List.getElem?_concat_length.symm.trans here
    cases queued
  cases effect with
  | outOfRange =>
      cases completes
      obtain ⟨q, ticket, k, e, -, here, -⟩ := waits
      exact absurd (List.getElem?_eq_some_iff.mp here).1 (Nat.lt_irrefl _)
  | refuse | grantAtOnce => exact (settled completes rfl).elim
  | queue _ room =>
      cases (completes_wakeLoopIf _ _).unique completes
      exact ⟨room, rfl, rfl⟩
  | letGoMissing lets | letGoClone lets | letGoLast lets => cases lets

/-- A request that queues and is let go at once leaves nothing but its ticket behind. -/
theorem state_of_request_dropRequest {u v : World} (fresh : Instance.create c = .ok x)
    (run : (start x).run? ms = some w) (requests : w.Performs (.request p) u)
    (waits : u.inst.InQueue w.inst.requests.length) {e : Waiter}
    (awaits : u.inst.AwaitsOn w.inst.requests.length e.channel)
    (leaves : LockState.Leaves p e u.inst.state v.inst.state) :
    v.inst.state = { w.inst.state with nextTicket := w.inst.state.nextTicket + 1 } := by
  have account := demandAccounts fresh run
  have order := queueOrder fresh run
  obtain ⟨room, state, made⟩ := requests.enqueues waits
  have own : e.channel = w.inst.channels.length := by
    obtain ⟨q, ticket, here, queued⟩ := awaits
    rw [made] at here
    cases List.getElem?_concat_length.symm.trans here
    exact (Progress.queued.inj queued).2.symm
  obtain ⟨before, after, queue, left⟩ := leaves.split
  -- the entry that leaves is the one that came last
  have rest : before ++ after = w.inst.state.queueAt p := by
    rw [state, LockState.queueAt_enqueue _ room, if_pos rfl] at queue
    rcases List.eq_nil_or_concat after with rfl | ⟨after, e', rfl⟩
    · rw [List.append_nil]
      exact (List.append_inj' queue rfl).1.symm
    · rw [List.concat_eq_append, ← List.cons_append, ← List.append_assoc] at queue
      have entry : e ∈ w.inst.state.queueAt p := by
        rw [(List.append_inj' queue rfl).1]
        exact List.mem_append_right _ List.mem_cons_self
      exact absurd (order.entries p e entry) (by omega)
  rw [left, rest, state]
  exact account.leaveQueue_enqueue_of_turn room w.inst.channels.length

/-- A caller who lets a request go takes back what the request has brought about, and nothing else:
its entry in the queue, or the slot of a grant that no poll has taken. A ticket is all that stays of
a request that queues and is let go at once. -/
theorem withdrawal_undoes (fresh : Instance.create c = .ok x) (run : (start x).run? ms = some w)
    (few : w.inst.channels.length ≤ 2 ^ 64) (turn : w.usersTurn = true) :
    (∀ r p, w.holdsRequest r = true → w.inst.Asks r p →
      ∃ v, w.Performs (.dropRequest r) v ∧ v.inst.Spent r ∧
        (w.inst.InQueue r → ∃ e, w.inst.AwaitsOn r e.channel ∧
          LockState.LosesEntry p e w.inst.state v.inst.state) ∧
        (∀ g, w.inst.HoldsGrant r g → 0 < w.inst.state.runnersAt p ∧
          (w.inst.owners ≠ 1 → v.inst.state = w.inst.state.returnSlot p) ∧
          (w.inst.owners = 1 → v.inst.state = (w.inst.state.returnSlot p).kill)) ∧
        (¬w.inst.InQueue r → (∀ g, ¬w.inst.HoldsGrant r g) → v.inst.state = w.inst.state)) ∧
    ∀ p u, w.Performs (.request p) u → u.inst.InQueue w.inst.requests.length →
      u.inst.channels.length ≤ 2 ^ 64 →
      ∃ v, u.Performs (.dropRequest w.inst.requests.length) v ∧
        v.inst.state = { w.inst.state with nextTicket := w.inst.state.nextTicket + 1 } := by
  constructor
  · intro r p held asks
    obtain ⟨v, performs, left, returned, spent⟩ :=
      exists_performs_dropRequest fresh run few turn held asks
    refine ⟨v, performs, ?_, ?_, ?_, spent⟩
    · obtain ⟨ms', run', -⟩ := performs.exists_run
      exact spent_of_dropped run' (.head _)
    · intro waits
      obtain ⟨e, awaits, leaves⟩ := left waits
      exact ⟨e, awaits, (demandAccounts fresh run).losesEntry leaves⟩
    · intro g holds
      have state := returned g holds
      refine ⟨?_, fun others => ?_, fun last => ?_⟩
      · obtain ⟨grant, here, rfl, -, locked⟩ := grant_of_holdsGrant fresh run few asks holds
        rw [(slotsBalance fresh run).runners grant.priority]
        exact List.countP_pos_iff.mpr ⟨grant, List.mem_of_getElem? here, by simp [locked]⟩
      · rwa [if_neg others] at state
      · rwa [if_pos last] at state
  · intro p u requests waits few'
    obtain ⟨ms', run', -⟩ := requests.exists_run
    have reached := run?_trans run run'
    obtain ⟨-, -, made⟩ := requests.enqueues waits
    have here : u.inst.requests[w.inst.requests.length]? = some _ :=
      (congrArg (fun l => l[w.inst.requests.length]?) made).trans List.getElem?_concat_length
    obtain ⟨turn', held⟩ : u.usersTurn = true ∧ u.holdsRequest w.inst.requests.length = true := by
      have unheld : w.handsOver w.inst.requests.length = false := by
        by_contra hands
        exact Nat.lt_irrefl _ (lt_of_handsOver run (by simpa using hands))
      obtain ⟨-, -, y, -, rfl⟩ := requests
      refine ⟨turn, ?_⟩
      unfold holdsRequest
      rw [here]
      exact congrArg not unheld
    obtain ⟨v, performs, left, -⟩ :=
      exists_performs_dropRequest fresh reached few' turn' held ⟨_, here, rfl⟩
    obtain ⟨e, awaits, leaves⟩ := left waits
    exact ⟨v, performs, state_of_request_dropRequest fresh run requests waits awaits leaves⟩

/-- A lock with one slot that one request holds while another waits for it. Either may be let go,
and so may a third one that queues behind them. -/
theorem withdrawal_undoes_of_two_requests :
    ∃ w u v₀ v₁ v₂, (start (.ofConfig { concurrency := 1, weights := [1] })).run?
        [.call (.request 0), .callEnds, .call (.request 0), .callEnds] = some w ∧
      w.inst.channels.length ≤ 2 ^ 64 ∧ w.usersTurn = true ∧
      w.inst.HoldsGrant 0 0 ∧ w.inst.InQueue 1 ∧
      w.Performs (.dropRequest 0) v₀ ∧ v₀.inst.state = w.inst.state.returnSlot 0 ∧
      w.Performs (.dropRequest 1) v₁ ∧
      (∃ e, LockState.LosesEntry 0 e w.inst.state v₁.inst.state) ∧
      w.Performs (.request 0) u ∧ u.Performs (.dropRequest 2) v₂ ∧
      v₂.inst.state = { w.inst.state with nextTicket := w.inst.state.nextTicket + 1 } := by
  have run : (start (.ofConfig { concurrency := 1, weights := [1] })).run?
      [.call (.request 0), .callEnds, .call (.request 0), .callEnds] = some _ := rfl
  obtain ⟨drops, undoes⟩ := withdrawal_undoes (c := { concurrency := 1, weights := [1] }) rfl run
    (by decide) rfl
  obtain ⟨v₀, performs₀, -, -, returned, -⟩ := drops 0 0 rfl ⟨_, rfl, rfl⟩
  obtain ⟨v₁, performs₁, -, left, -, -⟩ := drops 1 0 rfl ⟨_, rfl, rfl⟩
  obtain ⟨-, state₀, -⟩ := returned 0 (.settled rfl rfl)
  obtain ⟨e, -, loses⟩ := left ⟨_, _, 0, _, .head _, rfl, rfl⟩
  obtain ⟨v₂, performs₂, state₂⟩ := undoes 0 _ ⟨rfl, rfl, _, .done _, rfl⟩
    ⟨_, _, 0, ⟨1, 1⟩, .tail _ (.head _), rfl, rfl⟩ (by decide)
  exact ⟨_, _, v₀, v₁, v₂, run, by decide, rfl, .settled rfl rfl, ⟨_, _, 0, _, .head _, rfl, rfl⟩,
    performs₀, state₀ (by decide), performs₁, ⟨e, loses⟩, ⟨rfl, rfl, _, .done _, rfl⟩, performs₂,
    state₂⟩

/-- The queues are not safe from a caller who lets a grant go. Where the only handle is gone, the
grant that a request holds is the last owner, and with it goes the request that waits. -/
theorem queue_lost_with_last_grant :
    ∃ w v, (start (.ofConfig { concurrency := 1, weights := [1] })).run?
        [.call (.request 0), .callEnds, .call (.request 0), .callEnds, .call .dropHandle, .work,
          .callEnds] = some w ∧
      w.isIdle = true ∧ w.inst.HoldsGrant 0 0 ∧ w.inst.InQueue 1 ∧
      w.Performs (.dropRequest 0) v ∧ ¬v.inst.InQueue 1 ∧
      v.inst.state.queueAt 0 ≠ w.inst.state.queueAt 0 := by
  have run : (start (.ofConfig { concurrency := 1, weights := [1] })).run?
      [.call (.request 0), .callEnds, .call (.request 0), .callEnds, .call .dropHandle, .work,
        .callEnds] = some _ := rfl
  obtain ⟨v, performs, -, returned, -⟩ := exists_performs_dropRequest (r := 0) (p := 0)
    (c := { concurrency := 1, weights := [1] }) rfl run (by decide) rfl rfl ⟨_, rfl, rfl⟩
  have state := (returned 0 (.settled rfl rfl)).trans (if_pos rfl)
  refine ⟨_, v, run, rfl, .settled rfl rfl, ⟨_, _, 0, _, .head _, rfl, rfl⟩, performs, ?_, ?_⟩
  · rintro ⟨q, ticket, p, e, entry, -⟩
    have waits := LockState.mem_waiters_iff.mpr ⟨p, entry⟩
    rw [state] at waits
    cases waits
  · rw [state]
    decide

end World

end FairShare
