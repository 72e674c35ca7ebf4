/-!
# Agendas

A call runs as short sections, in which nothing else happens, with calls of wakers between them.
What is left to do after a section is an agenda: tasks that each run one section, and wakers that
are about to be called. Whoever answers a waker may begin further calls before the agenda goes on,
so the agendas of nested calls lie on one another like a stack.
-/

namespace FairShare

/-- The identity of a waker: one that nobody answers, or one with a name. -/
inductive Waker where
  | silent
  | named (name : String)
deriving DecidableEq, Repr

/-- An item of an agenda, for tasks of type `τ`. -/
inductive Activity (τ : Type) where
  /-- Run the section of this task. -/
  | task (t : τ)
  /-- Call this waker. -/
  | waking (w : Waker)
deriving DecidableEq, Repr

/-- What is left to do, next item first. -/
abbrev Agenda (τ : Type) := List (Activity τ)

/-- The agenda that calls the waker, if there is one. -/
def callWaker {τ : Type} : Option Waker → Agenda τ
  | none => []
  | some w => [.waking w]

@[simp] theorem callWaker_none {τ : Type} : (callWaker none : Agenda τ) = [] := rfl

@[simp] theorem callWaker_some {τ : Type} (w : Waker) :
    (callWaker (some w) : Agenda τ) = [.waking w] := rfl

end FairShare
