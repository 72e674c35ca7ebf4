import FairShare.Script.Play
import FairShare.Wake.Exchange

/-!
# Scripts on a channel of integers
-/

namespace FairShare.ExchangeScript

/-- A step on a channel. -/
inductive Step where
  | send (v : Int)
  | dropSender
  | dropReceiver
  | poll (w : Waker)
  | info
deriving DecidableEq, Repr

/-- The reply of a step. -/
inductive Reply where
  /-- The end that the step needs is gone. -/
  | missing
  | sent
  /-- The receiver was gone; the value came back. -/
  | disconnected (v : Int)
  | dropped
  | received (r : Received Int)
  | info (ready closed : Bool)
deriving DecidableEq, Repr

/-- The sentence that reports a send without a receiver. -/
def disconnectedMessage : String := "sending on a closed oneshot channel"

/-- A send without a receiver in named form. -/
def disconnectedForm (v : Int) : String := s!"Disconnected(Parcel({v}))"

/-- The sentence that reports a poll after the sender went without sending. -/
def closedMessage : String := "receiving on a closed oneshot channel"

/-- The event that reports a destroyed value. -/
def destroyedLine (v : Int) : String := s!"drop {v}"

/-- Begins a step. -/
def begin (step : Step) (x : Exchange Int) : Begun (Exchange Int) Exchange.Task Reply :=
  match step with
  | .send v =>
    if x.senderHeld then
      let (delivered, x, agenda) := x.send v
      let reply : Reply := if delivered then .sent else .disconnected v
      { state := x, agenda, conclude := fun x => (x, [], reply) }
    else .atOnce x .missing
  | .dropSender =>
    if x.senderHeld then
      let (x, agenda) := x.dropSender
      { state := x, agenda, conclude := fun x => (x, [], .dropped) }
    else .atOnce x .missing
  | .dropReceiver =>
    if x.receiverHeld then .atOnce x.dropReceiver .dropped else .atOnce x .missing
  | .poll w =>
    if x.receiverHeld then
      let (received, x) := x.poll w
      .atOnce x (.received received)
    else .atOnce x .missing
  | .info =>
    if x.receiverHeld then .atOnce x (.info x.channel.isReady x.channel.isClosed)
    else .atOnce x .missing

/-- An exchange as the subject of scripts. -/
def subject : Subject (Exchange Int) Exchange.Task Step Reply where
  begin
  perform := Exchange.perform

/-- The values destroyed between two states of an exchange. -/
def destroyedBetween (before after : Exchange Int) : List Int :=
  after.destroyed.drop before.destroyed.length

/-- Plays a script on a fresh exchange: the record of each step and the values destroyed in it. -/
def play (programs : List (String × Program Step)) (steps : List Step) :
    List (Record Reply × List Int) :=
  subject.play destroyedBetween { state := {}, programs } steps

end FairShare.ExchangeScript
