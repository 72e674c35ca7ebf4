import FairShare.Script.Lock.Session
import FairShare.Script.Play

/-!
# Scripts on a lock

The steps of a script on a lock, their replies, and how each step begins. A step that means
something the session does not have is answered with `missing`, one that would drop what a call
in progress works on with `busy`, and one that would give a name twice with `nameTaken`.
-/

namespace FairShare.LockScript

/-- A step on a session. -/
inductive Step where
  /-- Request a slot and keep the request under a name. -/
  | request (handle : String) (priority : Nat) (as : String)
  | halt (handle : String)
  | kill (handle : String)
  | info (handle : String)
  /-- Read the counters of one priority. -/
  | countsAt (handle : String) (priority : Nat)
  | snapshot (handle : String)
  | handleForm (handle : String)
  | cloneHandle (handle : String) (as : String)
  | dropHandle (handle : String)
  | status
  /-- Poll a request and keep its lock under a name, its own by default. -/
  | poll (request : Pick) (w : Waker) (as : Option String)
  | requestInfo (request : Pick)
  | dropRequest (request : Pick)
  | pollAll (w : Waker)
  | release (lock : Pick)
  | lockInfo (lock : Pick)
  | cloneLock (lock : Pick) (as : String)
  | dropLock (lock : Pick)
  /-- Poll the grant loop. -/
  | drive (w : Waker)
  | loopForm
  | dropLoop
deriving DecidableEq, Repr

/-- The reply of a step. -/
inductive Reply where
  | missing
  | busy
  | nameTaken
  | refused (cause : Refusal)
  /-- The request was made; whether a poll would resolve it, and whether it had to queue. -/
  | requested (ready queued : Bool)
  | halted
  | killed
  | info (killed halted : Bool) (largestPriority runners waiters : Nat)
  /-- The runners and the waiters of a priority, if there is such a priority. -/
  | counts (runners waiters : Except Refusal Nat)
  | snapshot (s : Snapshot)
  | form (text : String)
  | cloned
  | dropped
  | status (s : Status)
  | polled (p : Polled)
  | polledAll (answers : List (String × Polled))
  | requestInfo (ready queued : Bool) (form : Option String)
  /-- Whether the lock was held before and after the release. -/
  | released (before after : Bool)
  | lockInfo (priority : Nat) (locked : Bool) (form : String)
  | driven (ended : Bool) (grants : Nat)
  | loopForm (grants : Nat) (form : String)

namespace Session

/-- A step with one call on the instance, with the reply read off when the call is over. -/
def calling (call : Call) (reply : Session → Reply) (s : Session) : Begun Session Task Reply :=
  let (inst, agenda) := call.begin s.inst
  { state := { s with inst }
    agenda
    conclude := fun s => (s, [], reply s) }

/-- A step with one call that works on something which must not be dropped meanwhile. -/
def callingOn (what : Held) (call : Call) (reply : Session → Reply) (s : Session) :
    Begun Session Task Reply :=
  let (inst, agenda) := call.begin s.inst
  { state := { s with inst }.use what
    agenda
    conclude := fun s => (s.unuse, [], reply s) }

/-- Goes on with a handle, if it is there. -/
def onHandle (h : String) (s : Session) (step : Begun Session Task Reply) :
    Begun Session Task Reply :=
  if s.handles.has h then step else .atOnce s .missing

/-- Goes on with a request, if it is there. -/
def onRequest (pick : Pick) (s : Session) (step : String → Nat → Begun Session Task Reply) :
    Begun Session Task Reply :=
  match s.requests.pick? pick with
  | none => .atOnce s .missing
  | some (name, r) => step name r

/-- Goes on with a lock, if it is there. -/
def onLock (pick : Pick) (s : Session) (step : String → Nat → Begun Session Task Reply) :
    Begun Session Task Reply :=
  match s.locks.pick? pick with
  | none => .atOnce s .missing
  | some (name, g) => step name g

/-- Goes on with the grant loop, if it is there and no poll of it is in progress. -/
def onLoop (s : Session) (step : Begun Session Task Reply) : Begun Session Task Reply :=
  if s.inst.loop.dropped then .atOnce s .missing
  else if s.inst.loop.polling then .atOnce s .busy
  else step

/-- Names a request whose call is over. If a waker took the name during the call, the request is
dropped instead. -/
def nameRequest (as : String) (r : Nat) (s : Session) : Session × Agenda Task × Reply :=
  if s.requests.has as then
    let (inst, agenda) := (Call.dropRequest r).begin s.inst
    ({ s with inst }, agenda, .nameTaken)
  else
    ({ s with requests := s.requests.insert as r }, [],
      .requested (s.inst.isReady r) (s.inst.isQueued r))

/-- Begins to request a slot. -/
def beginRequest (h : String) (p : Nat) (as : String) (s : Session) :
    Begun Session Task Reply :=
  if s.requests.has as then .atOnce s .nameTaken
  else
    match s.inst.state.laneAt? p with
    | .error cause => .atOnce s (.refused cause)
    | .ok _ =>
      let r := s.inst.requests.length
      let (inst, agenda) := (Call.request p).begin s.inst
      { state := { s with inst }.use (.handle h)
        agenda
        conclude := fun s => s.unuse.nameRequest as r }

/-- Begins to poll a request. -/
def beginPoll (name : String) (r : Nat) (w : Waker) (as : Option String) (s : Session) :
    Begun Session Task Reply :=
  let as := as.getD name
  if s.locks.has as then .atOnce s .nameTaken
  else
    let (answer, s) := s.poll r w as
    .atOnce s (.polled answer)

/-- What a request shows of itself. -/
def requestInfo (r : Nat) (s : Session) : Reply :=
  .requestInfo (s.inst.isReady r) (s.inst.isQueued r) (s.inst.requestForm? r)

/-- What the handles show of the lock. -/
def info (s : Session) : Reply :=
  let state := s.inst.state
  .info state.killed state.halted state.largestPriority state.held.toNat state.waiting

/-- The counters of one priority. -/
def countsAt (p : Nat) (s : Session) : Reply :=
  let c := s.inst.state.laneAt? p
  .counts (c.map Lane.runners) (c.map fun c => c.queue.length)

end Session

open Session

/-- Begins a step. -/
def Step.begin (step : Step) (s : Session) : Begun Session Task Reply :=
  match step with
  | request h p as => s.onHandle h (s.beginRequest h p as)
  | halt h => s.onHandle h (s.callingOn (.handle h) .halt fun _ => .halted)
  | kill h => s.onHandle h (s.callingOn (.handle h) .kill fun _ => .killed)
  | info h => s.onHandle h (.atOnce s s.info)
  | countsAt h p => s.onHandle h (.atOnce s (s.countsAt p))
  | snapshot h => s.onHandle h (.atOnce s (.snapshot s.inst.state.snapshot))
  | handleForm h => s.onHandle h (.atOnce s (.form s.inst.handleForm))
  | cloneHandle h as =>
    s.onHandle h <|
      if s.handles.has as then .atOnce s .nameTaken
      else
        { s with handles := s.handles.insert as () }.calling .cloneHandle fun _ => .cloned
  | dropHandle h =>
    s.onHandle h <|
      if s.inUse.contains (.handle h) then .atOnce s .busy
      else
        { s with handles := s.handles.erase h }.calling .dropHandle fun _ => .dropped
  | status => .atOnce s (.status s.status)
  | poll pick w as => s.onRequest pick fun name r => s.beginPoll name r w as
  | requestInfo pick => s.onRequest pick fun _ r => .atOnce s (s.requestInfo r)
  | dropRequest pick =>
    s.onRequest pick fun name r =>
      { s with requests := s.requests.erase name }.calling (.dropRequest r) fun _ => .dropped
  | pollAll w =>
    let (answers, s) := s.pollAll w s.requests
    .atOnce s (.polledAll answers)
  | release pick =>
    s.onLock pick fun name g =>
      let before := s.inst.isLocked g
      s.callingOn (.lock name) (.release g) fun s =>
        .released before (s.inst.isLocked g)
  | lockInfo pick =>
    s.onLock pick fun _ g =>
      .atOnce s (.lockInfo (s.inst.grantPriority g) (s.inst.isLocked g) (s.inst.lockForm g))
  | cloneLock pick as =>
    s.onLock pick fun _ g =>
      if s.locks.has as then .atOnce s .nameTaken
      else { s with locks := s.locks.insert as g }.calling (.cloneLock g) fun _ => .cloned
  | dropLock pick =>
    s.onLock pick fun name g =>
      if s.inUse.contains (.lock name) then .atOnce s .busy
      else
        { s with locks := s.locks.erase name }.calling (.dropLock g) fun _ => .dropped
  | drive w =>
    s.onLoop (s.calling (.drive w) fun s => .driven s.inst.loop.ended s.inst.loop.grants)
  | loopForm => s.onLoop (.atOnce s (.loopForm s.inst.loop.grants s.inst.loopForm))
  | dropLoop => s.onLoop (s.calling .dropLoop fun _ => .dropped)

/-- Runs a task on the instance of a session. -/
def perform (t : Task) (s : Session) : Session × Agenda Task :=
  let (inst, agenda) := t.perform s.inst
  ({ s with inst }, agenda)

/-- A session as the subject of scripts. -/
def subject : Subject Session Task Step Reply where
  begin := Step.begin
  perform

/-- What is observed around a step: the status after it and the events in it. -/
structure Observation where
  /-- The status after the step. -/
  status : Status
  /-- The events in the step. -/
  events : List Event

/-- Observes the states before and after a step. -/
def observe (before after : Session) : Observation where
  status := after.status
  events := after.inst.log.drop before.inst.log.length

/-- The answer to a script: the lock at its start and the record of each step. -/
structure Transcript where
  /-- The largest priority. -/
  largestPriority : Nat
  /-- What is observed at the start. -/
  start : Observation
  /-- The record of each step with what is observed around it. -/
  steps : List (Record Reply × Observation)

/-- Plays a script on a fresh instance. -/
def play (inst : Instance) (programs : List (String × Program Step)) (steps : List Step) :
    Transcript :=
  let session := Session.start inst
  { largestPriority := inst.state.largestPriority
    start := { status := session.status, events := inst.log }
    steps := subject.play observe { state := session, programs } steps }

end FairShare.LockScript
