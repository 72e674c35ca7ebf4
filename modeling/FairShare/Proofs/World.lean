import FairShare.Lock.Call
import Mathlib.Data.List.Induction

/-!
# Runs of an instance in the hands of users

A world is an instance together with the calls in progress and the locks that users hold. While no
call is in progress, and while the code of a woken waker runs, users may make every call that
ownership lets them make. A run is a sequence of moves: calls, the sections of the innermost call
one by one, the calling of wakers, and the ends of wakers and of calls.
-/

namespace FairShare

/-- A layer of what is in progress. -/
inductive Layer where
  /-- A call with what is left of it, and the request that it hands over at its end. -/
  | call (c : Call) (agenda : Agenda Task) (made : Option Nat)
  /-- The code of a waker. -/
  | waker (w : Waker)
deriving DecidableEq, Repr

/-- An instance, what is in progress on it, innermost first, and what users hold of it. -/
structure World where
  /-- The instance. -/
  inst : Instance
  /-- The calls in progress, with the wakers between them whose code runs. -/
  layers : List Layer := []
  /-- The locks in the hands of users, once for each clone. -/
  locks : List Nat := []
deriving DecidableEq, Repr

/-- The moves of a run. -/
inductive Move where
  /-- A user makes a call, which runs its first section. -/
  | call (c : Call)
  /-- The innermost call runs its next section. -/
  | work
  /-- The innermost call calls a waker, whose code begins. -/
  | wake (w : Waker)
  /-- The code of the innermost waker ends. -/
  | wakerEnds
  /-- The innermost call returns. -/
  | callEnds
deriving DecidableEq, Repr

/-- The task in an activity, if it is one. -/
def Activity.task? {τ : Type} : Activity τ → Option τ
  | task t => some t
  | waking _ => none

/-- The tasks on an agenda, without the wakings. -/
def tasksOf (a : Agenda Task) : List Task :=
  a.filterMap Activity.task?

@[simp] theorem tasksOf_nil : tasksOf [] = [] := rfl

@[simp] theorem tasksOf_task (t : Task) (a : Agenda Task) :
    tasksOf (.task t :: a) = t :: tasksOf a := rfl

@[simp] theorem tasksOf_waking (w : Waker) (a : Agenda Task) :
    tasksOf (.waking w :: a) = tasksOf a := rfl

@[simp] theorem tasksOf_append (a b : Agenda Task) :
    tasksOf (a ++ b) = tasksOf a ++ tasksOf b := by
  simp [tasksOf]

@[simp] theorem tasksOf_callWaker (o : Option Waker) : tasksOf (callWaker o) = [] := by
  cases o <;> rfl

@[simp] theorem tasksOf_wakeLoopIf (b : Bool) :
    tasksOf (Instance.wakeLoopIf b) = if b then [.wakeLoop] else [] := by
  cases b <;> rfl

@[simp] theorem count_ite_wakeLoop {P : Prop} [Decidable P] {t : Task} (h : t ≠ .wakeLoop) :
    (if P then [Task.wakeLoop] else []).count t = 0 := by
  split <;> simp [Ne.symm h]

@[simp] theorem tasksOf_map_task {α : Type} (f : α → Task) (l : List α) :
    tasksOf (l.map fun a => .task (f a)) = l.map f := by
  simp [tasksOf, List.filterMap_map, Function.comp_def, Activity.task?]

@[simp] theorem tasksOf_closeAll (waiters : List Waiter) :
    tasksOf (Instance.closeAll waiters) = waiters.map fun w => .closeSender w.channel :=
  tasksOf_map_task _ _

/-- What is left of a call; the code of a waker is not on any agenda. -/
def Layer.agenda : Layer → Agenda Task
  | call _ agenda _ => agenda
  | waker _ => []

/-- Whether the call works on a handle. -/
def Call.usesHandle : Call → Bool
  | request _ | halt | kill | cloneHandle => true
  | _ => false

/-- The locks that come to a user with a verdict. -/
def Verdict.locks : Verdict → List Nat
  | granted g => [g]
  | killed => []

/-- The locks that come to a user with the answer of a poll. -/
def answerLocks : Except Refusal (Option Verdict) → List Nat
  | .ok (some v) => v.locks
  | _ => []

namespace World

/-- A fresh instance in the hands of users. -/
def start (inst : Instance) : World := { inst }

/-- An instance that was made of a configuration is the fresh one. -/
theorem eq_ofConfig_of_create {c : Config} {x : Instance} (h : Instance.create c = .ok x) :
    x = .ofConfig c := by
  unfold Instance.create Config.check at h
  split at h
  · cases h
  · rename_i c' checked
    split at checked
    · cases checked
    · cases checked
      cases h
      rfl

/-- The tasks that calls in progress still have to perform, innermost call first. -/
def tasks (w : World) : List Task :=
  w.layers.flatMap fun layer => tasksOf layer.agenda

/-- What is left of the calls in progress, innermost call first. -/
def agenda (w : World) : Agenda Task :=
  w.layers.flatMap Layer.agenda

/-- The next activity of the innermost call; none while users are at work. -/
def next? (w : World) : Option (Activity Task) :=
  match w.layers with
  | .call _ (a :: _) _ :: _ => some a
  | _ => none

/-- Whether no call is in progress. -/
def isIdle (w : World) : Bool :=
  w.layers.isEmpty

/-- Whether users may make calls now: no call is in progress, or the code of a waker runs. -/
def usersTurn (w : World) : Bool :=
  match w.layers with
  | [] => true
  | .waker _ :: _ => true
  | .call _ _ _ :: _ => false

/-- Whether a call in progress works on a handle. -/
def handleInUse (w : World) : Bool :=
  w.layers.any fun
    | .call c _ _ => c.usesHandle
    | .waker _ => false

/-- Whether a call in progress works on the lock. -/
def lockInUse (g : Nat) (w : World) : Bool :=
  w.layers.any fun
    | .call c _ _ => decide (c = .release g)
    | .waker _ => false

/-- Whether a call in progress is about to hand the request over. -/
def handsOver (r : Nat) (w : World) : Bool :=
  w.layers.any fun
    | .call _ _ made => decide (made = some r)
    | .waker _ => false

/-- Whether users hold the request. -/
def holdsRequest (r : Nat) (w : World) : Bool :=
  match w.inst.requests[r]? with
  | none => false
  | some q => !decide (q.progress = .dropped) && !w.handsOver r

/-- Whether users hold what the call works on. What a call in progress works on cannot be let go;
the calls in progress on handles may all be on one handle. -/
def allows (w : World) : Call → Bool
  | .request _ | .halt | .kill | .cloneHandle => decide (0 < w.inst.handles)
  | .dropHandle => decide (w.handleInUse.toNat < w.inst.handles)
  | .poll r _ | .dropRequest r => w.holdsRequest r
  | .release g | .cloneLock g => decide (g ∈ w.locks)
  | .dropLock g => decide ((w.lockInUse g).toNat < w.locks.count g)
  | .drive _ | .dropLoop => !w.inst.loop.dropped && !w.inst.loop.polling

/-- The locks in the hands of users after the first section of a call. -/
def locksAfter (w : World) : Call → List Nat
  | .poll r waker => answerLocks (w.inst.poll r waker).1 ++ w.locks
  | .cloneLock g => g :: w.locks
  | .dropLock g => w.locks.erase g
  | _ => w.locks

/-- The request that a call has made in its first section. -/
def madeBy (c : Call) (w : World) : Option Nat :=
  if w.inst.requests.length < (c.begin w.inst).1.requests.length then
    some w.inst.requests.length
  else none

/-- Begins a call. -/
def begin (c : Call) (w : World) : World where
  inst := (c.begin w.inst).1
  layers := .call c (c.begin w.inst).2 (w.madeBy c) :: w.layers
  locks := w.locksAfter c

/-- Makes a move, if it is one that can be made now. -/
def step? (w : World) : Move → Option World
  | .call c => if w.usersTurn && w.allows c then some (w.begin c) else none
  | .work =>
    match w.layers with
    | .call c (.task t :: rest) made :: below =>
      some { w with
        inst := (t.perform w.inst).1
        layers := .call c ((t.perform w.inst).2 ++ rest) made :: below }
    | _ => none
  | .wake waker =>
    match w.layers with
    | .call c (.waking waker' :: rest) made :: below =>
      if waker' = waker then some { w with layers := .waker waker :: .call c rest made :: below }
      else none
    | _ => none
  | .wakerEnds =>
    match w.layers with
    | .waker _ :: below => some { w with layers := below }
    | _ => none
  | .callEnds =>
    match w.layers with
    | .call _ [] _ :: below => some { w with layers := below }
    | _ => none

/-- The pending tasks are those on the agenda. -/
theorem tasks_eq (w : World) : w.tasks = tasksOf w.agenda := by
  simp [tasks, agenda, tasksOf, List.filterMap_flatMap]

/-- What is next is first on the agenda. -/
theorem agenda_of_next? {w : World} {i : Activity Task} (next : w.next? = some i) :
    ∃ more, w.agenda = i :: more := by
  unfold next? at next
  split at next
  · rename_i hl
    cases next
    exact ⟨_, by rw [agenda, hl]; rfl⟩
  · cases next

/-- A task that is next is pending. -/
theorem mem_tasks_of_next? {w : World} {t : Task} (next : w.next? = some (.task t)) :
    t ∈ w.tasks := by
  obtain ⟨more, e⟩ := agenda_of_next? next
  rw [tasks_eq, e]
  exact List.mem_cons_self

/-- Between calls nothing is pending. -/
theorem tasks_of_isIdle {w : World} (idle : w.isIdle = true) : w.tasks = [] := by
  unfold tasks
  rw [List.isEmpty_iff.mp idle]
  rfl

/-- Makes moves in order, if each of them can be made when its time has come. -/
def run? (w : World) : List Move → Option World
  | [] => some w
  | m :: ms => (w.step? m).bind fun w' => w'.run? ms

@[simp] theorem run?_nil (w : World) : w.run? [] = some w := rfl

theorem run?_cons (w : World) (m : Move) (ms : List Move) :
    w.run? (m :: ms) = (w.step? m).bind fun w' => w'.run? ms := rfl

@[simp] theorem run?_singleton (w : World) (m : Move) : w.run? [m] = w.step? m := by
  simp [run?_cons]

theorem run?_append (w : World) (ms ms' : List Move) :
    w.run? (ms ++ ms') = (w.run? ms).bind fun w' => w'.run? ms' := by
  induction ms generalizing w with
  | nil => rfl
  | cons m ms ih =>
      rw [List.cons_append, run?_cons, run?_cons, Option.bind_assoc]
      exact Option.bind_congr fun w' _ => ih w'

/-- A run that goes on is a run. -/
theorem run?_trans {w v w' : World} {ms ms' : List Move} (run : w.run? ms = some v)
    (run' : v.run? ms' = some w') : w.run? (ms ++ ms') = some w' := by
  rw [run?_append, run]
  exact run'

/-- What is left of a run after its first part is a run. -/
theorem run?_rest {w v w' : World} {ms ms' : List Move} (run : w.run? (ms ++ ms') = some w')
    (first : w.run? ms = some v) : v.run? ms' = some w' := by
  rwa [run?_append, first] at run

theorem run?_append_singleton_eq_some_iff {w w' : World} {ms : List Move} {m : Move} :
    w.run? (ms ++ [m]) = some w' ↔ ∃ v, w.run? ms = some v ∧ v.step? m = some w' := by
  simp [run?_append, run?_cons, Option.bind_eq_some_iff]

/-- What holds at the start and is kept by every move that follows a run holds after every run. -/
theorem run?_induction {w₀ : World} {P : List Move → World → Prop} (start : P [] w₀)
    (step : ∀ ms w m w', w₀.run? ms = some w → P ms w → w.step? m = some w' → P (ms ++ [m]) w')
    {ms : List Move} {w : World} (run : w₀.run? ms = some w) : P ms w := by
  induction ms using List.reverseRecOn generalizing w with
  | nil =>
      obtain rfl : w₀ = w := by simpa using run
      exact start
  | append_singleton ms m ih =>
      obtain ⟨v, hv, hstep⟩ := run?_append_singleton_eq_some_iff.mp run
      exact step ms v m w hv (ih hv) hstep

/-- What a move can be: a call, a section, the calling of a waker, or an end. -/
theorem step?_cases {w w' : World} {m : Move} (h : w.step? m = some w') :
    (∃ c, m = .call c ∧ w.usersTurn = true ∧ w.allows c = true ∧ w' = w.begin c) ∨
    (∃ c t rest made below, m = .work ∧ w.layers = .call c (.task t :: rest) made :: below ∧
      w' = { w with
        inst := (t.perform w.inst).1
        layers := .call c ((t.perform w.inst).2 ++ rest) made :: below }) ∨
    (∃ c waker rest made below, m = .wake waker ∧
      w.layers = .call c (.waking waker :: rest) made :: below ∧
      w' = { w with layers := .waker waker :: .call c rest made :: below }) ∨
    (∃ waker below, m = .wakerEnds ∧ w.layers = .waker waker :: below ∧
      w' = { w with layers := below }) ∨
    (∃ c made below, m = .callEnds ∧ w.layers = .call c [] made :: below ∧
      w' = { w with layers := below }) := by
  cases m with
  | call c =>
      simp only [step?] at h
      split at h
      · rename_i hc
        simp only [Bool.and_eq_true] at hc
        exact .inl ⟨c, rfl, hc.1, hc.2, (Option.some.inj h).symm⟩
      · cases h
  | work =>
      simp only [step?] at h
      split at h
      · rename_i c t rest made below hl
        exact .inr (.inl ⟨c, t, rest, made, below, rfl, hl, (Option.some.inj h).symm⟩)
      · cases h
  | wake waker =>
      simp only [step?] at h
      split at h
      · rename_i c waker' rest made below hl
        split at h
        · rename_i hw
          subst hw
          exact .inr (.inr (.inl ⟨c, waker', rest, made, below, rfl, hl, (Option.some.inj h).symm⟩))
        · cases h
      · cases h
  | wakerEnds =>
      simp only [step?] at h
      split at h
      · rename_i waker below hl
        exact .inr (.inr (.inr (.inl ⟨waker, below, rfl, hl, (Option.some.inj h).symm⟩)))
      · cases h
  | callEnds =>
      simp only [step?] at h
      split at h
      · rename_i c made below hl
        exact .inr (.inr (.inr (.inr ⟨c, made, below, rfl, hl, (Option.some.inj h).symm⟩)))
      · cases h

end World

end FairShare
