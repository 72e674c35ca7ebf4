import FairShare.Wake.Agenda

/-!
# One-shot channels

A channel carries at most one value from a sender to a receiver. Sending is three sections: the
value is stored and the registered waker taken out, the waker is called, and the sender is marked
as gone. A sender may also go without sending, which closes the channel. A receiver that goes
takes a value that nobody received with it.
-/

namespace FairShare

/-- A channel for one value of type `α`. -/
structure Handoff (α : Type) where
  /-- The value that was sent and not received yet. -/
  value : Option α := none
  /-- Whether the sender is gone. -/
  senderGone : Bool := false
  /-- Whether the receiver is gone. -/
  receiverGone : Bool := false
  /-- The waker to call when the receiver has something to see. -/
  waker : Option Waker := none
deriving DecidableEq, Repr

/-- What a poll of a receiver finds. -/
inductive Received (α : Type) where
  /-- Nothing yet; the waker of the poll is registered. -/
  | pending
  /-- The value that was sent. -/
  | value (v : α)
  /-- The sender went without sending. -/
  | closed
deriving DecidableEq, Repr

namespace Handoff

variable {α : Type}

/-- A channel with both ends there and nothing sent. -/
def empty : Handoff α := {}

/-- Whether a value waits for the receiver. -/
def isReady (c : Handoff α) : Bool :=
  c.value.isSome

/-- Whether the sender is gone and no value waits. -/
def isClosed (c : Handoff α) : Bool :=
  c.senderGone && c.value.isNone

/-- Stores a value for a receiver that is still there and takes the registered waker out. -/
def store (v : α) (c : Handoff α) : Handoff α × Option Waker :=
  ({ c with value := some v, waker := none }, c.waker)

/-- Marks the sender as gone. The registered waker is taken out unless a value waits. -/
def closeSender (c : Handoff α) : Handoff α × Option Waker :=
  if c.value.isSome then ({ c with senderGone := true }, none)
  else ({ c with senderGone := true, waker := none }, c.waker)

/-- Takes the value out, sees that the channel is closed, or registers the waker. -/
def poll (w : Waker) (c : Handoff α) : Received α × Handoff α :=
  match c.value with
  | some v => (.value v, { c with value := none })
  | none => if c.senderGone then (.closed, c) else (.pending, { c with waker := some w })

/-- Marks the receiver as gone and hands back the value that it had not received. -/
def dropReceiver (c : Handoff α) : Option α × Handoff α :=
  (c.value, { c with value := none, receiverGone := true, waker := none })

/-- A poll has an answer exactly if a value waits or the channel is closed. -/
theorem poll_fst_eq_pending_iff (w : Waker) (c : Handoff α) :
    (c.poll w).1 = .pending ↔ c.isReady = false ∧ c.isClosed = false := by
  unfold poll isReady isClosed
  cases c.value <;> cases c.senderGone <;> simp

end Handoff

end FairShare
