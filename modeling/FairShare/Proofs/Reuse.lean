import FairShare.Proofs.Departures
import FairShare.Proofs.Passes
import FairShare.Proofs.Queues
import FairShare.Proofs.Undisturbed

/-!
# Tickets that are given out again

Tickets are counted in 64 bits, and a caller who gives a request up looks for it by its ticket. So
when the ticket of a request that still waits is given out again, and the request that has got it is
let go, it is the old request that leaves the queue. The shortest way there are visits: requests
that are let go as soon as they have queued, and leave nothing but their tickets behind.
-/

namespace FairShare

/-! ## Tickets -/

namespace LockState

/-- How many requests have yet to queue before the ticket is given out. -/
def lapse (s : LockState) (ticket : UInt64) : Nat :=
  (ticket - s.nextTicket).toNat

variable {s : LockState} {p : Nat} {ticket : UInt64}

/-- The ticket is the next one when as many requests have queued. -/
theorem add_lapse (s : LockState) (ticket : UInt64) :
    s.nextTicket + .ofNat (s.lapse ticket) = ticket := by
  rw [lapse, UInt64.ofNat_toNat, UInt64.add_comm, UInt64.sub_add_cancel]

/-- The ticket is not the next one before. -/
theorem ne_add_of_lt_lapse {n : Nat} (rare : n < s.lapse ticket) :
    ticket ≠ s.nextTicket + .ofNat n := by
  rintro rfl
  have small : n < 2 ^ 64 := rare.trans (UInt64.toNat_lt _)
  have back : s.nextTicket + .ofNat n - s.nextTicket = .ofNat n := by
    rw [UInt64.add_comm, UInt64.add_sub_cancel]
  rw [lapse, back, UInt64.toNat_ofNat_of_lt' small] at rare
  exact Nat.lt_irrefl n rare

section Taken
variable {e : Waiter} (taken : s.waiter? p ticket = some e) (c : Nat)
include taken

theorem queueAt_ne_nil_of_taken : s.queueAt p ≠ [] :=
  List.ne_nil_of_mem (List.mem_of_find?_eq_some taken)

/-- A request that waits is found by its ticket before those that queue behind it. -/
theorem waiter?_enqueue_of_taken : (s.enqueue p c).waiter? p ticket = some e := by
  have room := lt_of_queueAt_ne_nil (queueAt_ne_nil_of_taken taken)
  unfold waiter? at taken ⊢
  rw [queueAt_enqueue c room, if_pos rfl, List.find?_append, taken]
  rfl

end Taken

/-- When a request queues with the ticket of one that waits, and is given up, it is the old entry
that leaves and the new one that stays. -/
theorem abandon_enqueue_of_taken {e : Waiter} (taken : s.waiter? p s.nextTicket = some e)
    (c : Nat) :
    (s.enqueue p c).abandon p s.nextTicket =
      { s.modifyLane p fun lane => { lane with
          queue := (s.queueAt p).eraseP (·.ticket = s.nextTicket) ++ [⟨s.nextTicket, c⟩] } with
        nextTicket := s.nextTicket + 1 } := by
  have waits := queueAt_ne_nil_of_taken taken
  have room := lt_of_queueAt_ne_nil waits
  have room' : p < (s.enqueue p c).lanes.length := by simpa [lanes_enqueue] using room
  have left : ((s.enqueue p c).queueAt p).eraseP (·.ticket = s.nextTicket) =
      (s.queueAt p).eraseP (·.ticket = s.nextTicket) ++ [⟨s.nextTicket, c⟩] := by
    rw [queueAt_enqueue c room, if_pos rfl]
    exact List.eraseP_append_left (List.find?_some taken) _ (List.mem_of_find?_eq_some taken)
  rw [abandon_of_entry (waiter?_enqueue_of_taken taken c), left]
  generalize (s.queueAt p).eraseP (·.ticket = s.nextTicket) = rest
  obtain ⟨rota, demand⟩ := leaveQueue_of_others room'
    (List.append_ne_nil_of_right_ne_nil rest (List.cons_ne_nil ⟨s.nextTicket, c⟩ []))
  rw [leaveQueue_eq, rota, demand, lanes_leaveQueue, lanes_enqueue, List.modify_modify_eq,
    enqueue_eq, DemandAccounts.raiseDemand_of_busy waits]
  rfl

end LockState

/-! ## One visit -/

section Sections
variable {x : Instance} {c : Nat} {ch : Handoff Nat}

/-- Whoever gives a queued request up while no slot is free calls for nothing. -/
theorem Instance.dropRequest_of_full {r : Nat} {q : Request} {ticket : UInt64} {e : Waiter}
    (here : x.requests[r]? = some q) (queued : q.progress = .queued ticket c)
    (owned : x.owners ≠ 0) (full : x.state.free ≤ 0)
    (found : x.state.waiter? q.priority ticket = some e) :
    x.dropRequest r = ({ x with
      state := x.state.abandon q.priority ticket
      owners := x.owners + 1
      requests := x.requests.set r { q with progress := .dropped }
      log := x.log ++
        [.withdrawn q.priority ticket (x.state.abandon q.priority ticket).waiting] },
      [.task (.closeSender e.channel), .task .disown, .task (.dropReceiver c)]) := by
  have still : (x.state.abandon q.priority ticket).free ≤ 0 := by
    rw [(x.state.frame_abandon q.priority ticket).2.1]
    exact full
  simp [dropRequest, here, queued, setProgress, modify_eq_set_of_getElem? _ here, withdraw,
    isAlive, Nat.pos_of_ne_zero owned, LockState.withdraw?_of_entry found, report, closeAll,
    wakeLoopIf, Int.not_lt.mpr still]

/-- A sender that goes unsent closes its channel and calls the waker that is registered there. -/
theorem Task.closeSender_of_unsent (channel : x.channels[c]? = some ch) (unsent : ch.value = none) :
    (closeSender c).perform x = ({ x with
      channels := x.channels.set c { ch with senderGone := true, waker := none } },
      callWaker ch.waker) := by
  simp [perform, Instance.closeSender, channel, Handoff.closeSender, unsent]

theorem Task.dropReceiver_of_unsent (channel : x.channels[c]? = some ch)
    (unsent : ch.value = none) :
    (dropReceiver c).perform x = ({ x with
      channels := x.channels.set c { ch with receiverGone := true, waker := none } }, []) := by
  simp [perform, Instance.dropReceiver, channel, Handoff.dropReceiver, unsent]

end Sections

namespace World

/-- The waker is called, and its code does nothing. -/
def ignored : Option Waker → List Move
  | none => []
  | some waker => [.wake waker, .wakerEnds]

/-- A request that has queued is let go, and with it the sender of a channel on which the waker is
registered. -/
def giveUp (r : Nat) (woken : Option Waker) : List Move :=
  .call (.dropRequest r) :: .work :: (ignored woken ++ [.work, .work, .callEnds])

/-- A request at the priority, the request `r`, is let go as soon as it has queued. -/
def visit (p r : Nat) (woken : Option Waker) : List Move :=
  .call (.request p) :: .callEnds :: giveUp r woken

/-- Visits that call no waker, one after the other, the first one by the request `r`. -/
def visits (p r : Nat) : Nat → List Move
  | 0 => []
  | n + 1 => visits p r n ++ visit p (r + n) none

/-- The world with `n` tickets given out, to requests that are over with their channels. -/
def visited (p n : Nat) (log : List Event) (w : World) : World :=
  { w with inst := { w.inst with
      state := { w.inst.state with nextTicket := w.inst.state.nextTicket + .ofNat n }
      channels := w.inst.channels ++ List.replicate n { senderGone := true, receiverGone := true }
      requests := w.inst.requests ++ List.replicate n { priority := p, progress := .dropped }
      log } }

/-- So many visits that the last one is by a request with the ticket of one that waits. -/
def eviction (p r n : Nat) (woken : Option Waker) : List Move :=
  visits p r n ++ visit p (r + n) woken

/-- The world after that, with the entry of the last visitor in the queue and that of the request
that waited gone, with the sender of its channel. -/
def evicted (p n : Nat) (e : Waiter) (ch : Handoff Nat) (log : List Event) (w : World) : World :=
  { w with inst := { w.inst with
      state := { w.inst.state.modifyLane p fun lane => { lane with
          queue := (w.inst.state.queueAt p).eraseP (·.ticket = e.ticket) ++
            [⟨e.ticket, w.inst.channels.length + n⟩] } with
        nextTicket := e.ticket + 1 }
      channels := w.inst.channels.set e.channel { ch with senderGone := true, waker := none } ++
        List.replicate n { senderGone := true, receiverGone := true } ++ [{ receiverGone := true }]
      requests := w.inst.requests ++ List.replicate (n + 1) { priority := p, progress := .dropped }
      log } }

/-- No call is in progress, and a request at the priority has to queue. -/
structure Crowded (p : Nat) (w : World) : Prop where
  idle : w.layers = []
  handle : 0 < w.inst.handles
  alive : w.inst.state.killed = false
  room : p < w.inst.state.lanes.length
  full : w.inst.state.free ≤ 0

section Moves
variable {w : World} {x y : Instance} {d : Call} {a rest : Agenda Task} {made : Option Nat}
  {below : List Layer} {locks : List Nat}

theorem run?_cons_of_step? {w' v : World} {m : Move} {ms : List Move} (step : w.step? m = some v)
    (run : v.run? ms = some w') : w.run? (m :: ms) = some w' := by
  rw [run?_cons, step]
  exact run

theorem step?_call_of_idle (idle : w.layers = []) (allowed : w.allows d = true)
    (outcome : d.begin w.inst = (y, a)) :
    w.step? (.call d) =
      some { inst := y, layers := [.call d a (w.madeBy d)], locks := w.locksAfter d } := by
  simp [step?, usersTurn, idle, allowed, begin, outcome]

theorem run?_call_of_begin (idle : w.layers = []) (allowed : w.allows d = true)
    (outcome : d.begin w.inst = (y, [])) :
    w.run? [.call d, .callEnds] = some { inst := y, locks := w.locksAfter d } :=
  run?_cons_of_step? (step?_call_of_idle idle allowed outcome) rfl

theorem run?_ignored (o : Option Waker) :
    run? { inst := x, layers := .call d (callWaker o ++ rest) made :: below, locks } (ignored o) =
      some { inst := x, layers := .call d rest made :: below, locks } := by
  cases o with
  | none => rfl
  | some waker => simp [ignored, run?_cons, step?]

end Moves

section Visit
variable {w : World} {p r c : Nat} {q : Request} {ticket : UInt64} {e : Waiter}
  {ch : Handoff Nat}

/-- While no slot is free, giving a queued request up takes the first entry with its ticket out of
the queue, and lets the sender in it go. -/
theorem run?_giveUp (idle : w.layers = []) (here : w.inst.requests[r]? = some q)
    (queued : q.progress = .queued ticket c) (owned : w.inst.owners ≠ 0)
    (full : w.inst.state.free ≤ 0) (found : w.inst.state.waiter? q.priority ticket = some e)
    (channel : w.inst.channels[e.channel]? = some ch) (unsent : ch.value = none)
    {own : Handoff Nat} (receiver : w.inst.channels[c]? = some own) (empty : own.value = none) :
    w.run? (giveUp r ch.waker) = some
      { inst := { w.inst with
          state := w.inst.state.abandon q.priority ticket
          channels := (w.inst.channels.set e.channel
            { ch with senderGone := true, waker := none }).modify c
              fun ch => { ch with receiverGone := true, waker := none }
          requests := w.inst.requests.set r { q with progress := .dropped }
          log := w.inst.log ++ [.withdrawn q.priority ticket
            (w.inst.state.abandon q.priority ticket).waiting] }
        locks := w.locks } := by
  have allowed : w.allows (.dropRequest r) = true := by
    simp [allows, holdsRequest, here, queued, handsOver, idle]
  have outcome := Instance.dropRequest_of_full here queued owned full found
  -- the sender and the receiver that go may be those of one channel
  obtain ⟨ch', channel', unsent'⟩ : ∃ ch', (w.inst.channels.set e.channel
      { ch with senderGone := true, waker := none })[c]? = some ch' ∧ ch'.value = none := by
    by_cases same : e.channel = c
    · subst same
      exact ⟨_, getElem?_set_of_some channel _, unsent⟩
    · exact ⟨_, (List.getElem?_set_ne same).trans receiver, empty⟩
  rw [modify_eq_set_of_getElem? _ channel']
  refine run?_cons_of_step? (step?_call_of_idle idle allowed outcome) ?_
  refine run?_cons_of_step? (step?_work_of_perform (Task.closeSender_of_unsent channel unsent)) ?_
  refine run?_trans (run?_ignored ch.waker) ?_
  refine run?_cons_of_step? (step?_work_of_perform (Task.disown_of_others ?_)) ?_
  · simpa using owned
  refine run?_cons_of_step?
    (step?_work_of_perform (Task.dropReceiver_of_unsent channel' unsent')) ?_
  rfl

/-- A visit takes the first entry with the ticket of the visitor out of the queue, and lets the
sender in it go. -/
theorem run?_visit (crowded : w.Crowded p) (owned : w.inst.owners ≠ 0)
    (found : (w.inst.state.enqueue p w.inst.channels.length).waiter? p w.inst.state.nextTicket =
      some e)
    (channel : (w.inst.channels ++ [Handoff.empty])[e.channel]? = some ch)
    (unsent : ch.value = none) :
    ∃ log, w.run? (visit p w.inst.requests.length ch.waker) = some
      { inst := { w.inst with
          state := (w.inst.state.enqueue p w.inst.channels.length).abandon p w.inst.state.nextTicket
          channels := ((w.inst.channels ++ [Handoff.empty]).set e.channel
            { ch with senderGone := true, waker := none }).modify w.inst.channels.length
              fun ch => { ch with receiverGone := true, waker := none }
          requests := w.inst.requests ++ [{ priority := p, progress := .dropped }]
          log }
        locks := w.locks } := by
  have allowed : w.allows (.request p) = true := by simp [allows, crowded.handle]
  have outcome := Instance.request_of_full crowded.room crowded.alive crowded.full
  have full : (w.inst.state.enqueue p w.inst.channels.length).free ≤ 0 := by
    rw [LockState.enqueue_eq]
    exact crowded.full
  have asks := run?_call_of_begin crowded.idle allowed outcome
  have visits := run?_trans asks (run?_giveUp rfl List.getElem?_concat_length rfl owned full found
    channel unsent List.getElem?_concat_length rfl)
  simp only [List.set_append_right _ _ (Nat.le_refl _), Nat.sub_self, List.set_cons_zero] at visits
  exact ⟨_, visits⟩

/-- A visit by a request with a new ticket leaves nothing but the ticket behind. -/
theorem run?_visit_of_new {weights : List Nat} (account : DemandAccounts weights w.inst.state)
    (crowded : w.Crowded p) (owned : w.inst.owners ≠ 0)
    (new : ∀ e ∈ w.inst.state.queueAt p, e.ticket ≠ w.inst.state.nextTicket) :
    ∃ log, w.run? (visit p w.inst.requests.length none) = some (w.visited p 1 log) := by
  have queue := LockState.queueAt_enqueue w.inst.channels.length crowded.room p
  rw [if_pos rfl] at queue
  have absent : ∀ e ∈ w.inst.state.queueAt p, ¬decide (e.ticket = w.inst.state.nextTicket) = true :=
    fun e entry => by simpa using new e entry
  have found : (w.inst.state.enqueue p w.inst.channels.length).waiter? p
      w.inst.state.nextTicket = some ⟨w.inst.state.nextTicket, w.inst.channels.length⟩ := by
    unfold LockState.waiter?
    rw [queue, List.find?_append, List.find?_eq_none.mpr absent]
    simp
  obtain ⟨log, visits⟩ := run?_visit crowded owned found List.getElem?_concat_length rfl
  refine ⟨log, visits.trans ?_⟩
  rw [LockState.abandon_of_entry found, queue, List.eraseP_append_right _ absent,
    List.eraseP_cons_of_pos (by simp), List.append_nil]
  have closed : ((w.inst.channels ++ [Handoff.empty]).set w.inst.channels.length
      { Handoff.empty with senderGone := true, waker := none }).modify w.inst.channels.length
        (fun ch => { ch with receiverGone := true, waker := none }) =
      w.inst.channels ++ [{ senderGone := true, receiverGone := true }] := by
    rw [List.set_append_right _ _ (Nat.le_refl _), Nat.sub_self, List.set_cons_zero,
      modify_append_singleton]
    rfl
  rw [closed, account.leaveQueue_enqueue_of_turn crowded.room, visited, crowded.idle]
  rfl

end Visit

section Visits
variable {c : Config} {x : Instance} {ms : List Move} {w : World} {p : Nat}

theorem Crowded.visited (crowded : w.Crowded p) (n : Nat) (log : List Event) :
    (w.visited p n log).Crowded p :=
  ⟨crowded.idle, crowded.handle, crowded.alive, crowded.room, crowded.full⟩

theorem Crowded.owned (crowded : w.Crowded p) (fresh : Instance.create c = .ok x)
    (run : (start x).run? ms = some w) : w.inst.owners ≠ 0 := by
  intro dead
  cases crowded.alive.symm.trans (killed_of_dead fresh run dead)

theorem visited_visited (n k : Nat) (log log' : List Event) (w : World) :
    (w.visited p n log).visited p k log' = w.visited p (n + k) log' := by
  simp [visited, List.append_assoc, UInt64.ofNat_add, UInt64.add_assoc]

@[simp] theorem length_requests_visited (w : World) (p n : Nat) (log : List Event) :
    (w.visited p n log).inst.requests.length = w.inst.requests.length + n := by
  simp [visited]

@[simp] theorem length_channels_visited (w : World) (p n : Nat) (log : List Event) :
    (w.visited p n log).inst.channels.length = w.inst.channels.length + n := by
  simp [visited]

theorem set_channels_visited {i : Nat} (placed : i < w.inst.channels.length) (p n : Nat)
    (ch : Handoff Nat) (log : List Event) :
    (w.visited p n log).inst.channels.set i ch =
      w.inst.channels.set i ch ++
        List.replicate n { senderGone := true, receiverGone := true } :=
  List.set_append_left _ _ placed

/-- Any number of visits leave nothing but their tickets behind, as long as none of the tickets is
that of a request that waits. -/
theorem run?_visits (fresh : Instance.create c = .ok x) (run : (start x).run? ms = some w)
    (crowded : w.Crowded p) (n : Nat)
    (rare : ∀ e ∈ w.inst.state.queueAt p, n ≤ w.inst.state.lapse e.ticket) :
    ∃ log, w.run? (visits p w.inst.requests.length n) = some (w.visited p n log) := by
  induction n with
  | zero => exact ⟨w.inst.log, by simp [visits, visited]⟩
  | succ n ih =>
      obtain ⟨log, run'⟩ := ih fun e entry => (Nat.le_succ n).trans (rare e entry)
      have new : ∀ e ∈ w.inst.state.queueAt p, e.ticket ≠ w.inst.state.nextTicket + .ofNat n :=
        fun e entry => LockState.ne_add_of_lt_lapse (rare e entry)
      obtain ⟨log', last⟩ := run?_visit_of_new (demandAccounts fresh (run?_trans run run'))
        (crowded.visited n log) (crowded.owned fresh run) new
      rw [visited_visited, length_requests_visited] at last
      exact ⟨log', run?_trans run' last⟩

/-- The visitor that has got the ticket of a request that waits puts that request out. -/
theorem run?_eviction (fresh : Instance.create c = .ok x) (run : (start x).run? ms = some w)
    (crowded : w.Crowded p) {n : Nat} {e : Waiter} (ch : Handoff Nat)
    (taken : w.inst.state.waiter? p e.ticket = some e)
    (due : w.inst.state.lapse e.ticket = n)
    (rare : ∀ e' ∈ w.inst.state.queueAt p, n ≤ w.inst.state.lapse e'.ticket)
    (channel : w.inst.channels[e.channel]? = some ch) (unsent : ch.value = none) :
    ∃ log, w.run? (eviction p w.inst.requests.length n ch.waker) =
      some (w.evicted p n e ch log) := by
  obtain ⟨log, run'⟩ := run?_visits fresh run crowded n rare
  have next : (w.visited p n log).inst.state.nextTicket = e.ticket := by
    rw [← due]
    exact w.inst.state.add_lapse e.ticket
  have taken' : (w.visited p n log).inst.state.waiter? p
      (w.visited p n log).inst.state.nextTicket = some e := by
    rw [next]
    exact taken
  have channel' : ((w.visited p n log).inst.channels ++ [Handoff.empty])[e.channel]? = some ch :=
    getElem?_append_of_some (getElem?_append_of_some channel _) _
  obtain ⟨log', last⟩ := run?_visit (crowded.visited n log) (crowded.owned fresh run)
    (LockState.waiter?_enqueue_of_taken taken' _) channel' unsent
  have placed := (List.getElem?_eq_some_iff.mp channel).1
  have placed' : e.channel < (w.visited p n log).inst.channels.length := by
    rw [length_channels_visited]
    omega
  have requests : (w.visited p n log).inst.requests ++ [{ priority := p, progress := .dropped }] =
      w.inst.requests ++ List.replicate (n + 1) { priority := p, progress := .dropped } := by
    rw [List.replicate_succ', ← List.append_assoc]
    rfl
  -- the channel of the visitor is behind that of the request
  have modified (ch' : Handoff Nat) (f : Handoff Nat → Handoff Nat) :
      (((w.visited p n log).inst.channels ++ [Handoff.empty]).set e.channel ch').modify
          (w.inst.channels.length + n) f =
        (w.visited p n log).inst.channels.set e.channel ch' ++ [f Handoff.empty] := by
    rw [List.set_append_left _ _ placed', ← modify_append_singleton, List.length_set,
      length_channels_visited]
  rw [LockState.abandon_enqueue_of_taken taken', next, length_requests_visited,
    length_channels_visited, modified, set_channels_visited placed, requests] at last
  refine ⟨log', (run?_trans run' last).trans ?_⟩
  rw [evicted, crowded.idle]
  rfl

/-- A request that waits can be put out by others, which are let go as soon as they have queued: its
entry is gone and its next poll fails, though the lock was not killed and the request was not let
go. -/
theorem put_out (fresh : Instance.create c = .ok x) (run : (start x).run? ms = some w)
    (crowded : w.Crowded p) {n r : Nat} {q : Request} {e : Waiter}
    (here : w.inst.requests[r]? = some q) (queued : q.progress = .queued e.ticket e.channel)
    (taken : w.inst.state.waiter? p e.ticket = some e)
    (due : w.inst.state.lapse e.ticket = n)
    (rare : ∀ e' ∈ w.inst.state.queueAt p, n ≤ w.inst.state.lapse e'.ticket) :
    ∃ ch v, w.inst.channels[e.channel]? = some ch ∧
      w.run? (eviction p w.inst.requests.length n ch.waker) = some v ∧
      v.inst.state.killed = false ∧ v.inst.owners = w.inst.owners ∧
      v.inst.grants = w.inst.grants ∧ ¬v.inst.InQueue r ∧
      ∀ k, (v.inst.poll r k).1 = .ok (some .killed) := by
  have ends := channelEnds fresh run
  have member := LockState.mem_waiters_iff.mpr ⟨p, List.mem_of_find?_eq_some taken⟩
  obtain ⟨-, -, ch, channel, -⟩ := ends.sender_of_mem member
  have unsent := ends.unsent e member ch channel
  obtain ⟨log, run'⟩ := run?_eviction fresh run crowded ch taken due rare channel unsent
  have ends' := channelEnds fresh (run?_trans run run')
  have here' : (w.evicted p n e ch log).inst.requests[r]? = some q :=
    getElem?_append_of_some here _
  have channel' : (w.evicted p n e ch log).inst.channels[e.channel]? =
      some { ch with senderGone := true, waker := none } :=
    getElem?_append_of_some (getElem?_append_of_some (getElem?_set_of_some channel _) _) _
  refine ⟨ch, _, channel, run', crowded.alive, rfl, rfl, ?_, ?_⟩
  · rintro ⟨q', ticket, p', e', entry, there, queued'⟩
    cases here'.symm.trans there
    obtain ⟨-, own⟩ := Progress.queued.inj (queued.symm.trans queued')
    obtain ⟨-, -, ch', channel'', sender⟩ :=
      ends'.sender_of_mem (LockState.mem_waiters_iff.mpr ⟨p', entry⟩)
    rw [← own] at channel''
    cases channel'.symm.trans channel''
    cases sender
  · intro k
    simp [Instance.poll, here', queued, Instance.pollQueued, channel', Handoff.poll, unsent]

theorem call_of_mem_visit {d : Call} {r : Nat} {woken : Option Waker}
    (made : .call d ∈ visit p r woken) : d = .request p ∨ d = .dropRequest r := by
  cases woken <;> simpa [visit, giveUp, ignored] using made

theorem call_of_mem_visits {d : Call} {r n : Nat} (made : .call d ∈ visits p r n) :
    d = .request p ∨ ∃ k, r ≤ k ∧ d = .dropRequest k := by
  induction n with
  | zero => cases made
  | succ n ih =>
      rcases List.mem_append.mp made with before | last
      · exact ih before
      · exact (call_of_mem_visit last).imp_right fun e => ⟨_, Nat.le_add_right r n, e⟩

/-- The calls of an eviction are requests at the priority and drops of the requests that were made
by them. -/
theorem call_of_mem_eviction {d : Call} {r n : Nat} {woken : Option Waker}
    (made : .call d ∈ eviction p r n woken) :
    d = .request p ∨ ∃ k, r ≤ k ∧ d = .dropRequest k := by
  rcases List.mem_append.mp made with before | last
  · exact call_of_mem_visits before
  · exact (call_of_mem_visit last).imp_right fun e => ⟨_, Nat.le_add_right r n, e⟩

/-- Nobody who was there before is let go by an eviction. -/
theorem dropRequest_notMem_eviction {k r : Nat} (old : k < r) (p n : Nat) (woken : Option Waker) :
    .call (.dropRequest k) ∉ eviction p r n woken := by
  intro dropped
  rcases call_of_mem_eviction dropped with e | ⟨k', later, e⟩
  · cases e
  · cases e
    exact absurd later (Nat.not_le.mpr old)

end Visits

end World

end FairShare
