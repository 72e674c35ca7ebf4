import FairShare.Wake.Handoff

/-!
# Exchanges

An exchange is a one-shot channel together with the two ends that users hold, and the values that
came to their end: those that a user got hold of and destroyed, and those that went with the
receiver. Sending uses the sender up, before the receiver's waker runs.
-/

namespace FairShare

/-- A channel, its ends in the hands of users, and the destroyed values in order. -/
structure Exchange (α : Type) where
  /-- The channel. -/
  channel : Handoff α := {}
  /-- Whether a user holds the sender. -/
  senderHeld : Bool := true
  /-- Whether a user holds the receiver. -/
  receiverHeld : Bool := true
  /-- The values that were destroyed. -/
  destroyed : List α := []
deriving DecidableEq, Repr

namespace Exchange

variable {α : Type}

/-- What remains of sending when the receiver's waker has run. -/
inductive Task where
  /-- Let the sender go. -/
  | closeSender
deriving DecidableEq, Repr

/-- Destroys a value. -/
def destroy (v : α) (x : Exchange α) : Exchange α :=
  { x with destroyed := x.destroyed ++ [v] }

/-- Lets the sender go. -/
def closeSender (x : Exchange α) : Exchange α × Agenda Task :=
  let (channel, w) := x.channel.closeSender
  ({ x with channel }, callWaker w)

/-- Sends a value with the sender in hand. The value comes back if the receiver is gone, and is
destroyed then. -/
def send (v : α) (x : Exchange α) : Bool × Exchange α × Agenda Task :=
  let x := { x with senderHeld := false }
  if x.channel.receiverGone then (false, x.destroy v, [.task .closeSender])
  else
    let (channel, w) := x.channel.store v
    (true, { x with channel }, callWaker w ++ [.task .closeSender])

/-- Drops the sender in hand. -/
def dropSender (x : Exchange α) : Exchange α × Agenda Task :=
  { x with senderHeld := false }.closeSender

/-- Polls the receiver in hand, and destroys a value that it yields. -/
def poll (w : Waker) (x : Exchange α) : Received α × Exchange α :=
  let (received, channel) := x.channel.poll w
  let x := { x with channel }
  match received with
  | .value v => (received, x.destroy v)
  | _ => (received, x)

/-- Drops the receiver in hand, and destroys a value that it had not yielded. -/
def dropReceiver (x : Exchange α) : Exchange α :=
  let (value, channel) := x.channel.dropReceiver
  let x := { x with channel, receiverHeld := false }
  match value with
  | none => x
  | some v => x.destroy v

/-- Runs the section of a task. -/
def perform : Task → Exchange α → Exchange α × Agenda Task
  | .closeSender, x => x.closeSender

end Exchange

end FairShare
