import FairShare.Script.Play
import FairShare.Wake.Event

/-!
# Scripts on a wake event
-/

namespace FairShare.WakeEventScript

/-- A step on a wake event. -/
inductive Step where
  | fire
  | poll (w : Waker)
deriving DecidableEq, Repr

/-- The reply of a step. -/
inductive Reply where
  | fired
  | ready
  | pending
deriving DecidableEq, Repr

/-- Begins a step. -/
def begin : Step → WakeEvent → Begun WakeEvent Empty Reply
  | .fire, e =>
    let (e, w) := e.fire
    { state := e, agenda := callWaker w, conclude := fun e => (e, [], .fired) }
  | .poll w, e =>
    let (permit, e) := e.poll w
    .atOnce e (if permit then .ready else .pending)

/-- A wake event as the subject of scripts. -/
def subject : Subject WakeEvent Empty Step Reply where
  begin
  perform t _ := nomatch t

/-- Plays a script on a fresh wake event. -/
def play (programs : List (String × Program Step)) (steps : List Step) : List (Record Reply) :=
  (subject.play (fun _ _ => ()) { state := {}, programs } steps).map Prod.fst

end FairShare.WakeEventScript
