import FairShare.Proofs.Tally
import FairShare.Proofs.World

/-!
# What one section does

Every section of a call has one of the effects listed in `Effect`: each constructor gives the
guard under which the section does it, the instance after it, the agenda that follows, and the
locks in the hands of users. Invariants of runs are proved by cases on the effects, so that no
other proof opens a call or a task.
-/

namespace FairShare

open Instance

/-- What runs in a move: the first section of a call, the section of a task, or nothing. -/
inductive Section where
  | call (c : Call)
  | task (t : Task)
  | idle

/-- The task that a section takes off the agenda. -/
def Section.tasks : Section → List Task
  | task t => [t]
  | _ => []

@[simp] theorem Section.tasks_call (c : Call) : (call c).tasks = [] := rfl

@[simp] theorem Section.tasks_task (t : Task) : (task t).tasks = [t] := rfl

@[simp] theorem Section.tasks_idle : idle.tasks = [] := rfl

/-- A section takes a task off the agenda only if it is the section of that task. -/
theorem Section.mem_tasks_iff {sec : Section} {t : Task} : t ∈ sec.tasks ↔ sec = task t := by
  cases sec with
  | task t' =>
      rw [tasks_task, List.mem_singleton, Section.task.injEq]
      exact eq_comm
  | _ => simp

/-- Letting one clone of a lock go: by a user, with a channel, or after a delivery to nobody. -/
inductive LetsGo (g : Nat) (L : List Nat) : Section → List Nat → List Event → Prop where
  | user (held : g ∈ L) : LetsGo g L (.call (.dropLock g)) (L.erase g) []
  | undelivered : LetsGo g L (.task (.dropLock g)) L []
  | returned : LetsGo g L (.task (.takeBack g)) L [.recipientGone]

/-- The effects of sections on the instance `x` while users hold the locks `L`: the section, then
the instance after it, the agenda that follows, and the locks that users hold then. -/
inductive Effect (x : Instance) (L : List Nat) :
    Section → Instance → Agenda Task → List Nat → Prop where
  | idle : Effect x L .idle x [] L
  | outOfRange {p : Nat} (room : x.state.lanes.length ≤ p) : Effect x L (.call (.request p)) x [] L
  | refuse {p : Nat} (handle : 0 < x.handles) (room : p < x.state.lanes.length)
      (killed : x.state.killed = true) :
      Effect x L (.call (.request p))
        { x with
          requests := x.requests ++ [{ priority := p, progress := .settled (some .killed) }]
          log := x.log ++ [.refused p] } [] L
  | grantAtOnce {p : Nat} (handle : 0 < x.handles) (room : p < x.state.lanes.length)
      (alive : x.state.killed = false) (fast : x.state.admitsAtOnce p = true) :
      Effect x L (.call (.request p))
        { x with
          state := x.state.takeSlot p
          owners := x.owners + 1
          grants := x.grants ++ [{ priority := p }]
          requests := x.requests ++
            [{ priority := p, progress := .settled (some (.granted x.grants.length)) }]
          log := x.log ++
            [.admitted p (x.state.takeSlot p).free ((x.state.takeSlot p).runnersAt p)] } [] L
  | queue {p : Nat} (handle : 0 < x.handles) (room : p < x.state.lanes.length)
      (alive : x.state.killed = false) (slow : x.state.admitsAtOnce p = false) :
      Effect x L (.call (.request p))
        { x with
          state := x.state.enqueue p x.channels.length
          channels := x.channels ++ [Handoff.empty]
          requests := x.requests ++
            [{ priority := p, progress := .queued x.state.nextTicket x.channels.length }]
          log := x.log ++
            [.queued p x.state.nextTicket (x.state.enqueue p x.channels.length).waiting
              (x.state.enqueue p x.channels.length).demand] }
        (wakeLoopIf (0 < (x.state.enqueue p x.channels.length).free)) L
  | halt (handle : 0 < x.handles) :
      Effect x L (.call .halt)
        { x with
          state := x.state.halt
          log := x.log ++ if x.state.halted then [] else [.halted] } [.task .wakeLoop] L
  | kill (handle : 0 < x.handles) (alive : x.state.killed = false) :
      Effect x L (.call .kill)
        { x with
          state := x.state.kill
          log := x.log ++ [.killed x.state.waiters.length] }
        (.task .wakeLoop :: closeAll x.state.waiters) L
  | killAgain (killed : x.state.killed = true) : Effect x L (.call .kill) x [] L
  | cloneHandle (handle : 0 < x.handles) :
      Effect x L (.call .cloneHandle)
        { x with handles := x.handles + 1, owners := x.owners + 1 } [] L
  | dropHandle (handle : 0 < x.handles) :
      Effect x L (.call .dropHandle) { x with handles := x.handles - 1 } [.task .disown] L
  | takeVerdict {waker : Waker} {r : Nat} {q : Request} {v : Verdict}
      (here : x.requests[r]? = some q) (settled : q.progress = .settled (some v)) :
      Effect x L (.call (.poll r waker))
        { x with requests := x.requests.set r { q with progress := .settled none } } []
        (v.locks ++ L)
  | pollAgain {r : Nat} {waker : Waker}
      (nothing : ∀ q, x.requests[r]? = some q → q.progress = .settled none ∨
        q.progress = .finished ∨ q.progress = .dropped ∨
        ∃ ticket c, q.progress = .queued ticket c ∧ x.channels[c]? = none) :
      Effect x L (.call (.poll r waker)) x [] L
  | wait {waker : Waker} {r : Nat} {q : Request} {ticket : UInt64} {c : Nat} {ch : Handoff Nat}
      (here : x.requests[r]? = some q) (queued : q.progress = .queued ticket c)
      (channel : x.channels[c]? = some ch) (empty : ch.value = none)
      (sender : ch.senderGone = false) :
      Effect x L (.call (.poll r waker))
        { x with channels := x.channels.set c { ch with waker := some waker } } [] L
  | receive {waker : Waker} {r : Nat} {q : Request} {ticket : UInt64} {c : Nat}
      {ch : Handoff Nat} {g : Nat}
      (here : x.requests[r]? = some q) (queued : q.progress = .queued ticket c)
      (channel : x.channels[c]? = some ch) (full : ch.value = some g) :
      Effect x L (.call (.poll r waker))
        { x with
          channels := x.channels.set c
            { ch with value := none, receiverGone := true, waker := none }
          requests := x.requests.set r { q with progress := .finished }
          log := x.log ++ [.received q.priority] } [] (g :: L)
  | fail {waker : Waker} {r : Nat} {q : Request} {ticket : UInt64} {c : Nat} {ch : Handoff Nat}
      (here : x.requests[r]? = some q) (queued : q.progress = .queued ticket c)
      (channel : x.channels[c]? = some ch) (empty : ch.value = none)
      (sender : ch.senderGone = true) :
      Effect x L (.call (.poll r waker))
        { x with
          channels := x.channels.set c
            { ch with value := none, receiverGone := true, waker := none }
          requests := x.requests.set r { q with progress := .finished }
          log := x.log ++ [.failed q.priority] } [] L
  | dropGranted {r : Nat} {q : Request} {g : Nat} (here : x.requests[r]? = some q)
      (settled : q.progress = .settled (some (.granted g))) :
      Effect x L (.call (.dropRequest r))
        { x with requests := x.requests.set r { q with progress := .dropped } }
        [.task (.dropLock g)] L
  | dropDone {r : Nat} {q : Request} (here : x.requests[r]? = some q)
      (done : q.progress = .settled (some .killed) ∨ q.progress = .settled none ∨
        q.progress = .finished) :
      Effect x L (.call (.dropRequest r))
        { x with requests := x.requests.set r { q with progress := .dropped } } [] L
  | dropUnqueued {r : Nat} {q : Request} {ticket : UInt64} {c : Nat}
      (here : x.requests[r]? = some q) (queued : q.progress = .queued ticket c)
      (unqueued : x.owners = 0 ∨ x.state.withdraw? q.priority ticket = none) :
      Effect x L (.call (.dropRequest r))
        { x with requests := x.requests.set r { q with progress := .dropped } }
        [.task (.dropReceiver c)] L
  | withdraw {r : Nat} {q : Request} {ticket : UInt64} {c : Nat} {w : Waiter} {s : LockState}
      (here : x.requests[r]? = some q) (queued : q.progress = .queued ticket c)
      (owned : 0 < x.owners) (found : x.state.withdraw? q.priority ticket = some (w, s)) :
      Effect x L (.call (.dropRequest r))
        { x with
          state := s
          owners := x.owners + 1
          requests := x.requests.set r { q with progress := .dropped }
          log := x.log ++ [.withdrawn q.priority ticket s.waiting] }
        (closeAll [w] ++
          wakeLoopIf (!s.halted && decide (0 < s.free) && decide (0 < s.waiting)) ++
          [.task .disown, .task (.dropReceiver c)]) L
  | release {g : Nat} {grant : Grant} (held : g ∈ L) (here : x.grants[g]? = some grant)
      (locked : grant.released = false) :
      Effect x L (.call (.release g))
        { x with
          state := x.state.returnSlot grant.priority
          grants := x.grants.set g { grant with released := true }
          log := x.log ++ [.released grant.priority (x.state.returnSlot grant.priority).free
            (x.state.returnSlot grant.priority).waiting] }
        (wakeLoopIf (0 < (x.state.returnSlot grant.priority).waiting) ++ [.task .disown]) L
  | releaseAgain {g : Nat} (held : g ∈ L)
      (released : ∀ grant, x.grants[g]? = some grant → grant.released = true) :
      Effect x L (.call (.release g)) x [] L
  | cloneLock {g : Nat} {grant : Grant} (held : g ∈ L) (here : x.grants[g]? = some grant) :
      Effect x L (.call (.cloneLock g))
        { x with grants := x.grants.set g { grant with clones := grant.clones + 1 } } [] (g :: L)
  | cloneMissing {g : Nat} (held : g ∈ L) (missing : x.grants[g]? = none) :
      Effect x L (.call (.cloneLock g)) x [] (g :: L)
  | letGoMissing {g : Nat} {sec : Section} {L' : List Nat} {es : List Event}
      (lets : LetsGo g L sec L' es) (missing : x.grants[g]? = none) :
      Effect x L sec { x with log := x.log ++ es } [] L'
  | letGoClone {g : Nat} {sec : Section} {L' : List Nat} {es : List Event} {grant : Grant}
      (lets : LetsGo g L sec L' es) (here : x.grants[g]? = some grant)
      (kept : grant.clones - 1 ≠ 0 ∨ grant.released = true) :
      Effect x L sec
        { x with
          grants := x.grants.set g { grant with clones := grant.clones - 1 }
          log := x.log ++ es } [] L'
  | letGoLast {g : Nat} {sec : Section} {L' : List Nat} {es : List Event} {grant : Grant}
      (lets : LetsGo g L sec L' es) (here : x.grants[g]? = some grant)
      (last : grant.clones - 1 = 0) (locked : grant.released = false) :
      Effect x L sec
        { x with
          state := x.state.returnSlot grant.priority
          grants := x.grants.set g { grant with clones := 0, released := true }
          log := x.log ++ es ++ [.released grant.priority (x.state.returnSlot grant.priority).free
            (x.state.returnSlot grant.priority).waiting] }
        (wakeLoopIf (0 < (x.state.returnSlot grant.priority).waiting) ++ [.task .disown]) L'
  | drive {waker : Waker} (loopHeld : x.loop.dropped = false) (resting : x.loop.polling = false) :
      Effect x L (.call (.drive waker)) { x with loop := { x.loop with polling := true } }
        [.task (.resume waker)] L
  | dropLoop (loopHeld : x.loop.dropped = false) (resting : x.loop.polling = false) :
      Effect x L (.call .dropLoop) { x with loop := { x.loop with dropped := true } } [] L
  | wakeLoop :
      Effect x L (.task .wakeLoop) { x with wake := { permit := true, waker := none } }
        (callWaker x.wake.waker) L
  | closeFull {c g : Nat} {ch : Handoff Nat} (channel : x.channels[c]? = some ch)
      (full : ch.value = some g) :
      Effect x L (.task (.closeSender c))
        { x with channels := x.channels.set c { ch with senderGone := true } } [] L
  | closeEmpty {c : Nat} {ch : Handoff Nat} (channel : x.channels[c]? = some ch)
      (empty : ch.value = none) :
      Effect x L (.task (.closeSender c))
        { x with channels := x.channels.set c { ch with senderGone := true, waker := none } }
        (callWaker ch.waker) L
  | closeMissing {c : Nat} (missing : x.channels[c]? = none) :
      Effect x L (.task (.closeSender c)) x [] L
  | dropReceiver {c : Nat} {ch : Handoff Nat} (channel : x.channels[c]? = some ch) :
      Effect x L (.task (.dropReceiver c))
        { x with
          channels := x.channels.set c
            { ch with value := none, receiverGone := true, waker := none } }
        (ch.value.toList.map fun g => .task (.dropLock g)) L
  | dropReceiverMissing {c : Nat} (missing : x.channels[c]? = none) :
      Effect x L (.task (.dropReceiver c)) x [] L
  | disown (others : x.owners - 1 ≠ 0) :
      Effect x L (.task .disown) { x with owners := x.owners - 1 } [] L
  | destroy (last : x.owners - 1 = 0) (alive : x.state.killed = false) :
      Effect x L (.task .disown)
        { x with
          owners := x.owners - 1
          state := x.state.kill
          log := x.log ++ [.disowned x.state.waiters.length] }
        (closeAll x.state.waiters ++ [.task .wakeLoop]) L
  | destroyKilled (last : x.owners - 1 = 0) (killed : x.state.killed = true) :
      Effect x L (.task .disown) { x with owners := x.owners - 1 } [.task .wakeLoop] L
  | findGone {waker : Waker} (gone : x.owners = 0) :
      Effect x L (.task (.resume waker))
        { x with log := x.log ++ [.loopFoundDropped x.loop.grants] } [.task (.endPoll true)] L
  | findHalted {waker : Waker} (owned : x.owners ≠ 0) (halted : x.state.halted = true) :
      Effect x L (.task (.resume waker))
        { x with log := x.log ++ [.loopFoundHalted x.loop.grants] } [.task (.endPoll true)] L
  | park {waker : Waker} (owned : x.owners ≠ 0) (running : x.state.halted = false)
      (permit : x.wake.permit = false) :
      Effect x L (.task (.resume waker))
        { x with wake := { permit := false, waker := some waker } } [.task (.endPoll false)] L
  | beginPass {waker : Waker} (owned : x.owners ≠ 0) (running : x.state.halted = false)
      (permit : x.wake.permit = true) :
      Effect x L (.task (.resume waker))
        { x with
          wake := { permit := false, waker := none }
          owners := x.owners + 1
          loop := { x.loop with passes := x.loop.passes + 1 } } [.task (.pass waker)] L
  | passHalted {waker : Waker} (halted : x.state.halted = true) :
      Effect x L (.task (.pass waker))
        { x with log := x.log ++ [.loopEnded x.loop.grants x.loop.passes] }
        [.task .disown, .task (.endPoll true)] L
  | passIdle {waker : Waker} (running : x.state.halted = false)
      (idle : x.state.free ≤ 0 ∨ x.state.waiting = 0) :
      Effect x L (.task (.pass waker)) x [.task .disown, .task (.resume waker)] L
  | passStalled {waker : Waker} {s : LockState} (running : x.state.halted = false)
      (free : 0 < x.state.free) (waiting : x.state.waiting ≠ 0)
      (scan : x.state.nextInTurn? = (none, s)) :
      Effect x L (.task (.pass waker))
        { x with state := s, log := x.log ++ [.stalled s.free s.waiting s.demand] }
        [.task .disown, .task (.resume waker)] L
  | passEmpty {waker : Waker} {p : Nat} {s : LockState} (running : x.state.halted = false)
      (free : 0 < x.state.free) (waiting : x.state.waiting ≠ 0)
      (scan : x.state.nextInTurn? = (some p, s)) (empty : s.grantFirst? p = none) :
      Effect x L (.task (.pass waker)) { x with state := s }
        [.task .disown, .task (.resume waker)] L
  | grantLost {waker : Waker} {p : Nat} {s s' : LockState} {w : Waiter}
      (running : x.state.halted = false) (free : 0 < x.state.free)
      (waiting : x.state.waiting ≠ 0) (scan : x.state.nextInTurn? = (some p, s))
      (first : s.grantFirst? p = some (w, s')) (missing : x.channels[w.channel]? = none) :
      Effect x L (.task (.pass waker))
        { x with
          state := s'
          owners := x.owners + 1
          grants := x.grants ++ [{ priority := p }]
          loop := { x.loop with grants := x.loop.grants + 1 }
          log := x.log ++ [.granting p w.ticket s'.free s'.waiting] }
        [.task (.settle waker)] L
  | grantReturned {waker : Waker} {p : Nat} {s s' : LockState} {w : Waiter} {ch : Handoff Nat}
      (running : x.state.halted = false) (free : 0 < x.state.free)
      (waiting : x.state.waiting ≠ 0) (scan : x.state.nextInTurn? = (some p, s))
      (first : s.grantFirst? p = some (w, s')) (channel : x.channels[w.channel]? = some ch)
      (receiver : ch.receiverGone = true) :
      Effect x L (.task (.pass waker))
        { x with
          state := s'
          owners := x.owners + 1
          grants := x.grants ++ [{ priority := p }]
          loop := { x.loop with grants := x.loop.grants + 1 }
          log := x.log ++ [.granting p w.ticket s'.free s'.waiting] }
        [.task (.closeSender w.channel), .task (.takeBack x.grants.length),
          .task (.settle waker)] L
  | grant {waker : Waker} {p : Nat} {s s' : LockState} {w : Waiter} {ch : Handoff Nat}
      (running : x.state.halted = false) (free : 0 < x.state.free)
      (waiting : x.state.waiting ≠ 0) (scan : x.state.nextInTurn? = (some p, s))
      (first : s.grantFirst? p = some (w, s')) (channel : x.channels[w.channel]? = some ch)
      (receiver : ch.receiverGone = false) :
      Effect x L (.task (.pass waker))
        { x with
          state := s'
          owners := x.owners + 1
          grants := x.grants ++ [{ priority := p }]
          channels := x.channels.set w.channel
            { ch with value := some x.grants.length, waker := none }
          loop := { x.loop with grants := x.loop.grants + 1 }
          log := x.log ++ [.granting p w.ticket s'.free s'.waiting] }
        (callWaker ch.waker ++ [.task (.closeSender w.channel), .task (.settle waker)]) L
  | tearDown {waker : Waker} (stopped : x.state.halted = true ∨ x.owners = 1) :
      Effect x L (.task (.settle waker))
        { x with log := x.log ++ [.tornDown] ++ [.loopEnded x.loop.grants x.loop.passes] }
        [.task .disown, .task (.endPoll true)] L
  | settle {waker : Waker} (running : x.state.halted = false) (others : x.owners ≠ 1) :
      Effect x L (.task (.settle waker)) x [.task (.pass waker)] L
  | endPoll {ended : Bool} :
      Effect x L (.task (.endPoll ended))
        { x with loop := { x.loop with polling := false, ended } } [] L

/-! ## The effects of tasks -/

section Tasks
variable {x : Instance} {L : List Nat}

/-- An outcome that is known to be one of an effect has that effect. -/
theorem Effect.of_eq {sec : Section} {x' : Instance} {a : Agenda Task} {L' : List Nat}
    (h : Effect x L sec x' a L') {o : Outcome} (he : o = (x', a)) : Effect x L sec o.1 o.2 L' := by
  subst he
  exact h

/-- Letting a clone go has the effect that fits the grant. -/
theorem LetsGo.effect {g : Nat} {L' : List Nat} {sec : Section} {es : List Event}
    (lets : LetsGo g L sec L' es) :
    Effect x L sec ({ x with log := x.log ++ es }.dropLock g).1
      ({ x with log := x.log ++ es }.dropLock g).2 L' := by
  cases here : x.grants[g]? with
  | none => exact (Effect.letGoMissing lets here).of_eq (by simp [Instance.dropLock, here])
  | some grant =>
      have after (grant' : Grant) : (x.grants.set g grant')[g]? = some grant' :=
        getElem?_set_of_some here grant'
      by_cases last : grant.clones - 1 = 0
      · cases locked : grant.released with
        | true =>
            exact (Effect.letGoClone lets here (.inr locked)).of_eq
              (by simp [Instance.dropLock, giveBack, here, last, after, locked])
        | false =>
            exact (Effect.letGoLast lets here last locked).of_eq
              (by simp [Instance.dropLock, giveBack, here, last, after, locked, report])
      · exact (Effect.letGoClone lets here (.inl last)).of_eq
          (by simp [Instance.dropLock, here, last])

/-- Giving a slot back on the word of a user has the effect that fits the grant. -/
theorem effect_giveBack {g : Nat} (held : g ∈ L) :
    Effect x L (.call (.release g)) (x.giveBack g).1 (x.giveBack g).2 L := by
  cases here : x.grants[g]? with
  | none => exact (Effect.releaseAgain held (by simp [here])).of_eq (by simp [giveBack, here])
  | some grant =>
      cases locked : grant.released with
      | true =>
          exact (Effect.releaseAgain held (by simp [here, locked])).of_eq
            (by simp [giveBack, here, locked])
      | false =>
          exact (Effect.release held here locked).of_eq
            (by simp [giveBack, here, locked, report])

theorem effect_grantTo {waker : Waker} {p : Nat} {s : LockState}
    (running : x.state.halted = false) (free : 0 < x.state.free)
    (waiting : x.state.waiting ≠ 0) (scan : x.state.nextInTurn? = (some p, s)) :
    Effect x L (.task (.pass waker)) ({ x with state := s }.grantTo waker p).1
      ({ x with state := s }.grantTo waker p).2 L := by
  cases first : s.grantFirst? p with
  | none =>
      exact (Effect.passEmpty running free waiting scan first).of_eq
        (by simp [grantTo, first, endPass])
  | some found =>
      obtain ⟨w, s'⟩ := found
      cases channel : x.channels[w.channel]? with
      | none =>
          exact (Effect.grantLost running free waiting scan first channel).of_eq
            (by simp [grantTo, first, deliver, channel, addGrant, report, modifyLoop])
      | some ch =>
          cases receiver : ch.receiverGone with
          | true =>
              exact (Effect.grantReturned running free waiting scan first channel receiver).of_eq
                (by simp [grantTo, first, deliver, channel, receiver, addGrant, report, modifyLoop])
          | false =>
              exact (Effect.grant running free waiting scan first channel receiver).of_eq
                (by simp [grantTo, first, deliver, channel, receiver, addGrant, report,
                  modifyLoop, Handoff.store])

theorem effect_pass (waker : Waker) :
    Effect x L (.task (.pass waker)) (x.pass waker).1 (x.pass waker).2 L := by
  cases running : x.state.halted with
  | true =>
      exact (Effect.passHalted running).of_eq
        (by simp [Instance.pass, running, endLoop, report])
  | false =>
      by_cases idle : x.state.free ≤ 0 ∨ x.state.waiting = 0
      · exact (Effect.passIdle running idle).of_eq (by simp [Instance.pass, running, idle, endPass])
      · have ⟨free, waiting⟩ := not_or.mp idle
        rcases scan : x.state.nextInTurn? with ⟨_ | p, s⟩
        · exact (Effect.passStalled running (Int.not_le.mp free) waiting scan).of_eq
            (by simp [Instance.pass, running, idle, scan, endPass, report])
        · have e : x.pass waker = { x with state := s }.grantTo waker p := by
            simp [Instance.pass, running, idle, scan]
          rw [e]
          exact effect_grantTo running (Int.not_le.mp free) waiting scan

theorem effect_resume (waker : Waker) :
    Effect x L (.task (.resume waker)) (x.resume waker).1 (x.resume waker).2 L := by
  by_cases gone : x.owners = 0
  · exact (Effect.findGone gone).of_eq (by simp [resume, gone, report])
  · cases halted : x.state.halted with
    | true => exact (Effect.findHalted gone halted).of_eq (by simp [resume, gone, halted, report])
    | false =>
        cases permit : x.wake.permit with
        | true =>
            exact (Effect.beginPass gone halted permit).of_eq
              (by simp [resume, gone, halted, WakeEvent.poll, permit, modifyLoop])
        | false =>
            exact (Effect.park gone halted permit).of_eq
              (by simp [resume, gone, halted, WakeEvent.poll, permit])

theorem effect_disown : Effect x L (.task .disown) x.disown.1 x.disown.2 L := by
  by_cases last : x.owners - 1 = 0
  · cases killed : x.state.killed with
    | true =>
        exact (Effect.destroyKilled last killed).of_eq
          (by simp [Instance.disown, last, Instance.destroy, killed])
    | false =>
        exact (Effect.destroy last killed).of_eq
          (by simp [Instance.disown, last, Instance.destroy, killed, report])
  · exact (Effect.disown last).of_eq (by simp [Instance.disown, last])

theorem effect_closeSender (c : Nat) :
    Effect x L (.task (.closeSender c)) (x.closeSender c).1 (x.closeSender c).2 L := by
  cases channel : x.channels[c]? with
  | none =>
      exact (Effect.closeMissing channel).of_eq (by simp [Instance.closeSender, channel])
  | some ch =>
      cases value : ch.value with
      | none =>
          exact (Effect.closeEmpty channel value).of_eq
            (by simp [Instance.closeSender, channel, Handoff.closeSender, value])
      | some g =>
          exact (Effect.closeFull channel value).of_eq
            (by simp [Instance.closeSender, channel, Handoff.closeSender, value])

theorem effect_dropReceiver (c : Nat) :
    Effect x L (.task (.dropReceiver c)) (x.dropReceiver c).1 (x.dropReceiver c).2 L := by
  cases channel : x.channels[c]? with
  | none =>
      exact (Effect.dropReceiverMissing channel).of_eq (by simp [Instance.dropReceiver, channel])
  | some ch =>
      exact (Effect.dropReceiver channel).of_eq
        (by simp [Instance.dropReceiver, channel, Handoff.dropReceiver])

theorem effect_settle (waker : Waker) :
    Effect x L (.task (.settle waker)) (x.settle waker).1 (x.settle waker).2 L := by
  by_cases stopped : x.state.halted = true ∨ x.owners = 1
  · exact (Effect.tearDown stopped).of_eq (by simp [Instance.settle, stopped, endLoop, report])
  · have ⟨running, others⟩ := not_or.mp stopped
    exact (Effect.settle (Bool.eq_false_iff.mpr running) others).of_eq
      (by simp [Instance.settle, stopped])

end Tasks

/-- Every task has an effect. -/
theorem Task.effect_perform (t : Task) (x : Instance) (L : List Nat) :
    Effect x L (.task t) (t.perform x).1 (t.perform x).2 L := by
  cases t with
  | wakeLoop => exact Effect.wakeLoop.of_eq rfl
  | closeSender c => exact effect_closeSender c
  | dropReceiver c => exact effect_dropReceiver c
  | dropLock g =>
      have h := (LetsGo.undelivered (g := g) (L := L)).effect (x := x)
      rwa [List.append_nil] at h
  | takeBack g => exact LetsGo.returned.effect
  | disown => exact effect_disown
  | resume w => exact effect_resume w
  | pass w => exact effect_pass w
  | settle w => exact effect_settle w
  | endPoll ended => exact Effect.endPoll.of_eq rfl

/-! ## The effects of calls -/

section Calls
variable {x : Instance} {L : List Nat}

theorem effect_request {p : Nat} (handle : 0 < x.handles) :
    Effect x L (.call (.request p)) (x.request p).1 (x.request p).2 L := by
  by_cases room : p < x.state.lanes.length
  · have room' : ¬ x.state.lanes.length ≤ p := Nat.not_le.mpr room
    cases killed : x.state.killed with
    | true =>
        exact (Effect.refuse handle room killed).of_eq
          (by simp [request, room', killed, requestRefused, report, addRequest])
    | false =>
        cases fast : x.state.admitsAtOnce p with
        | true =>
            exact (Effect.grantAtOnce handle room killed fast).of_eq
              (by
                simp [request, room', killed, fast, requestAdmitted, report, addRequest, addGrant])
        | false =>
            exact (Effect.queue handle room killed fast).of_eq
              (by simp [request, room', killed, fast, requestQueued, report, addRequest])
  · exact (Effect.outOfRange (Nat.not_lt.mp room)).of_eq (by simp [request, Nat.not_lt.mp room])

theorem effect_poll {r : Nat} (waker : Waker) :
    Effect x L (.call (.poll r waker)) (x.poll r waker).2 []
      (answerLocks (x.poll r waker).1 ++ L) := by
  cases here : x.requests[r]? with
  | none => simpa [poll, here, answerLocks] using Effect.pollAgain (by simp [here])
  | some q =>
      rcases progress : q.progress with (_ | v) | ⟨ticket, c⟩ | _ | _
      · simpa [poll, here, progress, answerLocks] using Effect.pollAgain (by simp [here, progress])
      · simpa [poll, here, progress, answerLocks, setProgress, modify_eq_set_of_getElem? _ here]
          using Effect.takeVerdict here progress
      · cases channel : x.channels[c]? with
        | none =>
            simpa [poll, here, progress, pollQueued, channel, answerLocks] using
              Effect.pollAgain (by simpa [here, progress] using channel)
        | some ch =>
            cases value : ch.value with
            | some g =>
                simpa [poll, here, progress, pollQueued, channel, Handoff.poll, value, answerLocks,
                  Verdict.locks, Handoff.dropReceiver, report, setProgress,
                  modify_eq_set_of_getElem? _ here]
                  using Effect.receive here progress channel value
            | none =>
                cases sender : ch.senderGone with
                | true =>
                    simpa [poll, here, progress, pollQueued, channel, Handoff.poll, value, sender,
                      answerLocks, Verdict.locks, Handoff.dropReceiver, report, setProgress,
                      modify_eq_set_of_getElem? _ here]
                      using Effect.fail here progress channel value sender
                | false =>
                    simpa [poll, here, progress, pollQueued, channel, Handoff.poll, value, sender,
                      answerLocks]
                      using Effect.wait here progress channel value sender
      · simpa [poll, here, progress, answerLocks] using Effect.pollAgain (by simp [here, progress])
      · simpa [poll, here, progress, answerLocks] using Effect.pollAgain (by simp [here, progress])

theorem effect_dropRequest {r : Nat} {q : Request} (here : x.requests[r]? = some q)
    (live : q.progress ≠ .dropped) :
    Effect x L (.call (.dropRequest r)) (x.dropRequest r).1 (x.dropRequest r).2 L := by
  have set (progress : Progress) :
      x.requests.modify r (fun q => { q with progress }) =
        x.requests.set r { q with progress } := modify_eq_set_of_getElem? _ here
  rcases progress : q.progress with (_ | _ | g) | ⟨ticket, c⟩ | _ | _
  · exact (Effect.dropDone here (.inr (.inl progress))).of_eq
      (by simp [dropRequest, here, progress, setProgress, set])
  · exact (Effect.dropGranted here progress).of_eq
      (by simp [dropRequest, here, progress, setProgress, set])
  · exact (Effect.dropDone here (.inl progress)).of_eq
      (by simp [dropRequest, here, progress, setProgress, set])
  · by_cases owned : 0 < x.owners
    · cases found : x.state.withdraw? q.priority ticket with
      | none =>
          exact (Effect.dropUnqueued here progress (.inr found)).of_eq
            (by simp [dropRequest, here, progress, setProgress, set, Instance.withdraw, isAlive,
              owned, found])
      | some taken =>
          obtain ⟨w, s⟩ := taken
          exact (Effect.withdraw here progress owned found).of_eq
            (by simp [dropRequest, here, progress, setProgress, set, Instance.withdraw, isAlive,
              owned, found, report])
    · exact (Effect.dropUnqueued here progress (.inl (Nat.eq_zero_of_not_pos owned))).of_eq
        (by simp [dropRequest, here, progress, setProgress, set, Instance.withdraw, isAlive, owned])
  · exact (Effect.dropDone here (.inr (.inr progress))).of_eq
      (by simp [dropRequest, here, progress, setProgress, set])
  · exact absurd progress live

theorem effect_cloneLock {g : Nat} (held : g ∈ L) :
    Effect x L (.call (.cloneLock g)) (x.cloneLock g) [] (g :: L) := by
  cases here : x.grants[g]? with
  | none =>
      have hg : x.grants.length ≤ g := List.getElem?_eq_none_iff.mp here
      simpa [cloneLock, List.modify_eq_self hg] using Effect.cloneMissing held here
  | some grant =>
      simpa [cloneLock, modify_eq_set_of_getElem? _ here] using Effect.cloneLock held here

end Calls

namespace World

/-- A held request is there and was not let go. -/
theorem exists_of_holdsRequest {w : World} {r : Nat} (h : w.holdsRequest r = true) :
    ∃ q, w.inst.requests[r]? = some q ∧ q.progress ≠ .dropped ∧ w.handsOver r = false := by
  unfold holdsRequest at h
  split at h
  · cases h
  · rename_i q here
    simp only [Bool.and_eq_true, Bool.not_eq_true', decide_eq_false_iff_not] at h
    exact ⟨q, here, h.1, h.2⟩

/-- Every call that is allowed has an effect. -/
theorem effect_begin {w : World} {c : Call} (h : w.allows c = true) :
    Effect w.inst w.locks (.call c) (c.begin w.inst).1 (c.begin w.inst).2 (w.locksAfter c) := by
  cases c with
  | request p => exact effect_request (of_decide_eq_true h)
  | halt =>
      refine (Effect.halt (of_decide_eq_true h)).of_eq ?_
      cases halted : w.inst.state.halted <;> simp [Call.begin, Instance.halt, halted, report]
  | kill =>
      cases killed : w.inst.state.killed with
      | true =>
          exact (Effect.killAgain killed).of_eq (by simp [Call.begin, Instance.kill, killed])
      | false =>
          exact (Effect.kill (of_decide_eq_true h) killed).of_eq
            (by simp [Call.begin, Instance.kill, killed, report])
  | cloneHandle => exact Effect.cloneHandle (of_decide_eq_true h)
  | dropHandle =>
      have handle : w.handleInUse.toNat < w.inst.handles := of_decide_eq_true h
      exact Effect.dropHandle (by omega)
  | poll r waker => exact effect_poll waker
  | dropRequest r =>
      obtain ⟨q, here, live, _⟩ := exists_of_holdsRequest h
      exact effect_dropRequest here live
  | release g => exact effect_giveBack (of_decide_eq_true h)
  | cloneLock g => exact effect_cloneLock (of_decide_eq_true h)
  | dropLock g =>
      have held : (w.lockInUse g).toNat < w.locks.count g := of_decide_eq_true h
      have lets : LetsGo g w.locks (.call (.dropLock g)) (w.locks.erase g) [] :=
        .user (List.count_pos_iff.mp (by omega))
      have effect := lets.effect (x := w.inst)
      rwa [List.append_nil] at effect
  | drive waker =>
      have hl := Bool.and_eq_true_iff.mp h
      exact Effect.drive (by simpa using hl.1) (by simpa using hl.2)
  | dropLoop =>
      have hl := Bool.and_eq_true_iff.mp h
      exact Effect.dropLoop (by simpa using hl.1) (by simpa using hl.2)

theorem tasks_begin (c : Call) (w : World) :
    (w.begin c).tasks = tasksOf (c.begin w.inst).2 ++ w.tasks := by
  simp [tasks, begin, Layer.agenda]

/-- The section that runs in a move. -/
def sectionOf (w : World) : Move → Section
  | .call c => .call c
  | .work =>
    match w.next? with
    | some (.task t) => .task t
    | _ => .idle
  | _ => .idle

/-- A call that a user makes is one that ownership allows. -/
theorem allows_of_step? {w w' : World} {c : Call} (h : w.step? (.call c) = some w') :
    w.allows c = true := by
  rcases step?_cases h with ⟨c', e, -, hc, -⟩ | ⟨_, _, _, _, _, e, -⟩ | ⟨_, _, _, _, _, e, -⟩ |
    ⟨_, _, e, -⟩ | ⟨_, _, _, e, -⟩
  · cases e
    exact hc
  all_goals cases e

/-- The section of a move is a call only if the move is that call. -/
theorem eq_call_of_sectionOf {w : World} {m : Move} {c : Call} (h : w.sectionOf m = .call c) :
    m = .call c := by
  cases m with
  | call c' =>
      cases h
      rfl
  | work =>
      simp only [sectionOf] at h
      split at h <;> cases h
  | _ => cases h

theorem mem_of_sectionOf {w : World} {ms : List Move} {m : Move} {c : Call}
    (h : w.sectionOf m = .call c) : .call c ∈ ms ++ [m] := by
  rw [eq_call_of_sectionOf h]
  exact List.mem_append_right _ (.head _)

/-- Every move does something of the agenda, which is the task of its section or the calling of a
waker, and has the effect of its section. What follows from the section comes first after it. -/
theorem step?_agenda {w w' : World} {m : Move} (h : w.step? m = some w') :
    ∃ done rest a, w.agenda = done ++ rest ∧ w'.agenda = a ++ rest ∧
      tasksOf done = (w.sectionOf m).tasks ∧ (∀ waker, .waking waker ∈ done → m = .wake waker) ∧
      (∀ first more, a = first :: more → w'.next? = some first) ∧
      Effect w.inst w.locks (w.sectionOf m) w'.inst a w'.locks := by
  have nothing : ∀ first more, ([] : Agenda Task) = first :: more → w'.next? = some first := by
    intro first more e
    cases e
  rcases step?_cases h with ⟨c, rfl, -, hc, rfl⟩ | ⟨c, t, rest, made, below, rfl, hl, rfl⟩ |
    ⟨c, waker, rest, made, below, rfl, hl, rfl⟩ | ⟨waker, below, rfl, hl, rfl⟩ |
    ⟨c, made, below, rfl, hl, rfl⟩
  · refine ⟨[], w.agenda, (c.begin w.inst).2, rfl, rfl, rfl, ?_, ?_, effect_begin hc⟩
    · intro waker called
      cases called
    · intro first more e
      simp [next?, begin, e]
  · have hs : w.sectionOf .work = .task t := by simp [sectionOf, next?, hl]
    rw [hs]
    refine ⟨[.task t], rest ++ below.flatMap Layer.agenda, _, ?_, ?_, rfl, ?_, ?_,
      t.effect_perform w.inst w.locks⟩
    · simp [agenda, hl, Layer.agenda]
    · simp [agenda, Layer.agenda]
    · intro waker called
      simp at called
    · intro first more e
      simp [next?, e]
  · refine ⟨[.waking waker], rest ++ below.flatMap Layer.agenda, [], ?_, ?_, rfl, ?_,
      nothing, .idle⟩
    · simp [agenda, hl, Layer.agenda]
    · simp [agenda, Layer.agenda]
    · intro waker' called
      simpa [eq_comm] using called
  all_goals
    refine ⟨[], below.flatMap Layer.agenda, [], ?_, rfl, rfl, ?_, nothing, .idle⟩
    · simp [agenda, hl, Layer.agenda]
    · intro waker called
      cases called

/-- Calling a waker takes it off the agenda and does nothing else. -/
theorem step?_wake {w w' : World} {waker : Waker} (h : w.step? (.wake waker) = some w') :
    w.agenda = .waking waker :: w'.agenda ∧ w'.inst = w.inst ∧ w'.locks = w.locks := by
  rcases step?_cases h with ⟨_, e, -⟩ | ⟨_, _, _, _, _, e, -⟩ |
    ⟨c, k, rest, made, below, e, hl, rfl⟩ | ⟨_, _, e, -⟩ | ⟨_, _, _, e, -⟩
  · cases e
  · cases e
  · cases e
    refine ⟨?_, rfl, rfl⟩
    simp [agenda, hl, Layer.agenda]
  · cases e
  · cases e

/-- Every move has the effect of its section, on the tasks that are pending before it; what follows
from the section comes first after the move. -/
theorem step?_effect_first {w w' : World} {m : Move} (h : w.step? m = some w') :
    ∃ rest a, w.tasks = (w.sectionOf m).tasks ++ rest ∧ w'.tasks = tasksOf a ++ rest ∧
      (∀ first more, a = first :: more → w'.next? = some first) ∧
      Effect w.inst w.locks (w.sectionOf m) w'.inst a w'.locks := by
  obtain ⟨done, rest, a, before, after, now, -, first, effect⟩ := step?_agenda h
  refine ⟨tasksOf rest, a, ?_, ?_, first, effect⟩
  · rw [tasks_eq, before, tasksOf_append, now]
  · rw [tasks_eq, after, tasksOf_append]

/-- Every move has the effect of its section, on the tasks that are pending before it. -/
theorem step?_effect {w w' : World} {m : Move} (h : w.step? m = some w') :
    ∃ rest a, w.tasks = (w.sectionOf m).tasks ++ rest ∧ w'.tasks = tasksOf a ++ rest ∧
      Effect w.inst w.locks (w.sectionOf m) w'.inst a w'.locks := by
  obtain ⟨rest, a, before, after, -, effect⟩ := step?_effect_first h
  exact ⟨rest, a, before, after, effect⟩

/-- The section of a task runs in a move that works on the innermost call. -/
theorem eq_work_of_sectionOf {w : World} {m : Move} {t : Task} (h : w.sectionOf m = .task t) :
    m = .work := by
  cases m with
  | work => rfl
  | _ => cases h

/-- The section of a task runs when that task is next. -/
theorem next?_of_sectionOf {w : World} {m : Move} {t : Task} (h : w.sectionOf m = .task t) :
    w.next? = some (.task t) := by
  cases m with
  | work =>
      simp only [sectionOf] at h
      split at h
      · rename_i t' next
        cases h
        exact next
      · cases h
  | _ => cases h

/-- While a waker is next, every move calls it. -/
theorem eq_wake_of_next? {w w' : World} {m : Move} {waker : Waker} (h : w.step? m = some w')
    (next : w.next? = some (.waking waker)) : m = .wake waker := by
  rcases step?_cases h with ⟨c, rfl, turn, -, -⟩ | ⟨c, t', rest, made, below, rfl, hl, -⟩ |
    ⟨c, k, rest, made, below, rfl, hl, -⟩ | ⟨k, below, rfl, hl, -⟩ |
    ⟨c, made, below, rfl, hl, -⟩
  · unfold next? at next
    unfold usersTurn at turn
    split at turn <;> simp_all
  · simp [next?, hl] at next
  · simpa [next?, hl] using next
  · simp [next?, hl] at next
  · simp [next?, hl] at next

/-- While a task is next, every move runs its section. -/
theorem sectionOf_of_next? {w w' : World} {m : Move} {t : Task} (h : w.step? m = some w')
    (next : w.next? = some (.task t)) : w.sectionOf m = .task t := by
  rcases step?_cases h with ⟨c, rfl, turn, -, -⟩ | ⟨c, t', rest, made, below, rfl, hl, -⟩ |
    ⟨c, waker, rest, made, below, rfl, hl, -⟩ | ⟨waker, below, rfl, hl, -⟩ |
    ⟨c, made, below, rfl, hl, -⟩
  · unfold next? at next
    unfold usersTurn at turn
    split at turn <;> simp_all
  · simp only [sectionOf, next]
  all_goals
    unfold next? at next
    rw [hl] at next
    cases next

/-- What every effect keeps, for the instance, the pending tasks and the locks of users, holds
after every run. -/
theorem run?_invariant {I : Instance → List Task → List Nat → Prop}
    (keeps : ∀ {x L sec x' a L'}, Effect x L sec x' a L' →
      ∀ rest, I x (sec.tasks ++ rest) L → I x' (tasksOf a ++ rest) L')
    {w w' : World} {ms : List Move} (run : w.run? ms = some w')
    (start : I w.inst w.tasks w.locks) : I w'.inst w'.tasks w'.locks := by
  refine run?_induction (P := fun _ v => I v.inst v.tasks v.locks) start ?_ run
  intro _ v m v' _ hv hstep
  obtain ⟨rest, a, ht, ha, effect⟩ := step?_effect hstep
  rw [ht] at hv
  rw [ha]
  exact keeps effect rest hv

end World

end FairShare
