import FairShare.Wake.Agenda
import Mathlib.Data.List.Induction

/-!
# Scenes of a service

A service is what users can call: a call runs its first section and leaves an agenda, and each task
on an agenda runs a section of its own. Between sections wakers are called, and their code may make
any further calls. A scene is the state of a service with what is going on in it and the history of
all sections and wakings so far. What a theorem says of every scene of a run it says of every order
of calls and of all code that wakers may have.
-/

namespace FairShare

/-- What users can call. -/
structure Service (σ τ κ ρ : Type) where
  /-- Whether users hold what the call works on. -/
  allows : κ → σ → Bool
  /-- The first section of a call: its answer, the state after it, and what remains to be done. -/
  begin : κ → σ → ρ × σ × Agenda τ
  /-- The section of a task. -/
  perform : τ → σ → σ × Agenda τ

/-- What is going on: a call with what is left of it, or the code of a waker. -/
inductive Ongoing (τ : Type) where
  | call (agenda : Agenda τ)
  | waker (w : Waker)

/-- What can have happened. -/
inductive Moment (τ κ ρ : Type) where
  /-- A call was made, and its first section has decided on this answer. -/
  | made (call : κ) (answer : ρ)
  /-- The section of a task ran. -/
  | worked (task : τ)
  /-- A waker was called. -/
  | woke (w : Waker)

/-- A state, what is going on, innermost first, and what has happened so far. -/
structure Scene (σ τ κ ρ : Type) where
  /-- The state of the service. -/
  state : σ
  /-- The calls in progress, with the wakers between them whose code runs. -/
  ongoing : List (Ongoing τ) := []
  /-- All sections and wakings so far. -/
  past : List (Moment τ κ ρ) := []

/-- The waker in an activity, if it is one. -/
def Activity.waker? {τ : Type} : Activity τ → Option Waker
  | task _ => none
  | waking w => some w

/-- The wakers on an agenda, without the tasks. -/
def wakersOf {τ : Type} (a : Agenda τ) : List Waker :=
  a.filterMap Activity.waker?

section Agendas
variable {τ : Type}

@[simp] theorem wakersOf_nil : wakersOf ([] : Agenda τ) = [] := rfl

@[simp] theorem wakersOf_task (t : τ) (a : Agenda τ) : wakersOf (.task t :: a) = wakersOf a := rfl

@[simp] theorem wakersOf_waking (w : Waker) (a : Agenda τ) :
    wakersOf (.waking w :: a) = w :: wakersOf a := rfl

@[simp] theorem wakersOf_append (a b : Agenda τ) :
    wakersOf (a ++ b) = wakersOf a ++ wakersOf b :=
  List.filterMap_append

@[simp] theorem wakersOf_callWaker (o : Option Waker) :
    wakersOf (callWaker o : Agenda τ) = o.toList := by
  cases o <;> rfl

@[simp] theorem wakersOf_map_task (tasks : List τ) : wakersOf (tasks.map .task) = [] := by
  induction tasks with
  | nil => rfl
  | cons t tasks ih => exact ih

theorem wakersOf_tail {a : Agenda τ} (none : wakersOf a = []) : wakersOf a.tail = [] :=
  List.filterMap_eq_nil_iff.mpr fun i member =>
    List.filterMap_eq_nil_iff.mp none i (List.mem_of_mem_tail member)

end Agendas

theorem filterMap_append_singleton {α β : Type} (f : α → Option β) (l : List α) (a : α) :
    (l ++ [a]).filterMap f = l.filterMap f ++ (f a).toList := by
  rw [List.filterMap_append, List.filterMap_cons]
  cases f a <;> rfl

/-- The waker that was called at a moment, if one was. -/
def Moment.waker? {τ κ ρ : Type} : Moment τ κ ρ → Option Waker
  | woke w => some w
  | _ => none

/-- The wakers that were called in a history, in order. -/
def wakings {τ κ ρ : Type} (past : List (Moment τ κ ρ)) : List Waker :=
  past.filterMap Moment.waker?

@[simp] theorem wakings_nil {τ κ ρ : Type} : wakings ([] : List (Moment τ κ ρ)) = [] := rfl

@[simp] theorem wakings_append_singleton {τ κ ρ : Type} (past : List (Moment τ κ ρ))
    (m : Moment τ κ ρ) : wakings (past ++ [m]) = wakings past ++ m.waker?.toList :=
  filterMap_append_singleton ..

/-- What is left of a call; the code of a waker is not on any agenda. -/
def Ongoing.agenda {τ : Type} : Ongoing τ → Agenda τ
  | call agenda => agenda
  | waker _ => []

namespace Scene

variable {σ τ κ ρ : Type}

/-- Whether users may make calls now: no call is in progress, or the code of a waker runs. -/
def usersTurn (s : Scene σ τ κ ρ) : Bool :=
  match s.ongoing with
  | .call _ :: _ => false
  | _ => true

/-- The wakers that calls in progress are about to call. -/
def pending (s : Scene σ τ κ ρ) : List Waker :=
  s.ongoing.flatMap fun o => wakersOf o.agenda

/-- A waker is only ever first on the agenda of the innermost call. -/
def Quiet (s : Scene σ τ κ ρ) : Prop :=
  ∀ o below, s.ongoing = o :: below →
    wakersOf o.agenda.tail = [] ∧ ∀ o' ∈ below, wakersOf o'.agenda = []

theorem Quiet.pending_of_usersTurn {s : Scene σ τ κ ρ} (quiet : s.Quiet)
    (turn : s.usersTurn = true) : s.pending = [] := by
  unfold usersTurn at turn
  unfold pending
  split at turn
  · cases turn
  · rename_i users
    cases going : s.ongoing with
    | nil => rfl
    | cons o below =>
        cases o with
        | call agenda => exact absurd going (users agenda below)
        | waker w =>
            have rest := (quiet _ _ going).2
            simpa [Ongoing.agenda] using rest

/-- When one waker is about to be called, it is next. -/
theorem Quiet.next_of_pending {s : Scene σ τ κ ρ} {w : Waker} (quiet : s.Quiet)
    (pending : s.pending = [w]) :
    ∃ rest below, s.ongoing = .call (.waking w :: rest) :: below ∧ wakersOf rest = [] := by
  unfold Scene.pending at pending
  cases going : s.ongoing with
  | nil => simp [going] at pending
  | cons o below =>
      obtain ⟨tail, others⟩ := quiet _ _ going
      have none : below.flatMap (fun o => wakersOf o.agenda) = [] :=
        List.flatMap_eq_nil_iff.mpr others
      rw [going, List.flatMap_cons, none, List.append_nil] at pending
      cases o with
      | waker w' => cases pending
      | call agenda =>
          cases agenda with
          | nil => cases pending
          | cons a rest =>
              change wakersOf rest = [] at tail
              cases a with
              | task t =>
                  change wakersOf rest = [w] at pending
                  cases tail.symm.trans pending
              | waking w' =>
                  obtain ⟨rfl, -⟩ := List.cons.inj pending
                  exact ⟨rest, below, rfl, tail⟩

end Scene

namespace Service

variable {σ τ κ ρ : Type} {svc : Service σ τ κ ρ}

/-- The moves on a service. -/
inductive Step (svc : Service σ τ κ ρ) : Scene σ τ κ ρ → Scene σ τ κ ρ → Prop
  /-- A user makes a call, which runs its first section. -/
  | call {s : Scene σ τ κ ρ} (k : κ) (turn : s.usersTurn = true)
      (allowed : svc.allows k s.state = true) :
      Step svc s
        { state := (svc.begin k s.state).2.1
          ongoing := .call (svc.begin k s.state).2.2 :: s.ongoing
          past := s.past ++ [.made k (svc.begin k s.state).1] }
  /-- The innermost call runs its next section. -/
  | work {x : σ} {t : τ} {rest : Agenda τ} {below : List (Ongoing τ)}
      {past : List (Moment τ κ ρ)} :
      Step svc { state := x, ongoing := .call (.task t :: rest) :: below, past }
        { state := (svc.perform t x).1
          ongoing := .call ((svc.perform t x).2 ++ rest) :: below
          past := past ++ [.worked t] }
  /-- The innermost call calls a waker, whose code begins. -/
  | wake {x : σ} {w : Waker} {rest : Agenda τ} {below : List (Ongoing τ)}
      {past : List (Moment τ κ ρ)} :
      Step svc { state := x, ongoing := .call (.waking w :: rest) :: below, past }
        { state := x, ongoing := .waker w :: .call rest :: below, past := past ++ [.woke w] }
  /-- The code of the innermost waker ends. -/
  | wakerEnds {x : σ} {w : Waker} {below : List (Ongoing τ)} {past : List (Moment τ κ ρ)} :
      Step svc { state := x, ongoing := .waker w :: below, past }
        { state := x, ongoing := below, past }
  /-- The innermost call returns. -/
  | callEnds {x : σ} {below : List (Ongoing τ)} {past : List (Moment τ κ ρ)} :
      Step svc { state := x, ongoing := .call [] :: below, past }
        { state := x, ongoing := below, past }

/-- The scenes that moves lead to, from the state `x` with nothing going on and no history. -/
inductive Run (svc : Service σ τ κ ρ) (x : σ) : Scene σ τ κ ρ → Prop
  | start : Run svc x { state := x }
  | step {s s' : Scene σ τ κ ρ} (run : Run svc x s) (move : svc.Step s s') : Run svc x s'

/-- A move leaves the history as it is or adds one moment to it. -/
theorem Step.past_eq {s s' : Scene σ τ κ ρ} (move : svc.Step s s') :
    s'.past = s.past ∨ ∃ m, s'.past = s.past ++ [m] := by
  cases move with
  | call k => exact .inr ⟨_, rfl⟩
  | work => exact .inr ⟨_, rfl⟩
  | wake => exact .inr ⟨_, rfl⟩
  | wakerEnds => exact .inl rfl
  | callEnds => exact .inl rfl

/-- A waker that is next is called before anything else happens. -/
theorem Step.of_waking {s s' : Scene σ τ κ ρ} {w : Waker} {rest : Agenda τ}
    {below : List (Ongoing τ)} (move : svc.Step s s')
    (going : s.ongoing = .call (.waking w :: rest) :: below) :
    s' = { state := s.state, ongoing := .waker w :: .call rest :: below,
           past := s.past ++ [.woke w] } := by
  cases move with
  | call k turn => simp [Scene.usersTurn, going] at turn
  | work => cases going
  | wake =>
      cases going
      rfl
  | wakerEnds => cases going
  | callEnds => cases going

namespace Run

variable {x : σ} {s : Scene σ τ κ ρ} {before after : List (Moment τ κ ρ)}

/-- Each moment of the history was added by a move, to the history before it. -/
theorem exists_step {m : Moment τ κ ρ} (run : svc.Run x s)
    (split : s.past = before ++ m :: after) :
    ∃ v v', svc.Run x v ∧ v.past = before ∧ svc.Step v v' ∧ v'.past = before ++ [m] := by
  induction run generalizing after with
  | start => simp at split
  | @step v v' run move ih =>
      rcases move.past_eq with same | ⟨m', added⟩
      · exact ih (same ▸ split)
      · rcases List.eq_nil_or_concat after with rfl | ⟨after, last, rfl⟩
        · obtain ⟨old, new⟩ := List.append_inj' (added.symm.trans split) rfl
          exact ⟨v, v', run, old, move, by rw [added, old, new]⟩
        · rw [added, List.concat_eq_append, ← List.cons_append, ← List.append_assoc] at split
          exact ih (List.append_inj' split rfl).1

/-- A call in the history was made when users had their turn and held what it works on, and its
answer is the one of its first section. -/
theorem made {k : κ} {a : ρ} (run : svc.Run x s) (split : s.past = before ++ .made k a :: after) :
    ∃ v, svc.Run x v ∧ v.past = before ∧ v.usersTurn = true ∧ svc.allows k v.state = true ∧
      a = (svc.begin k v.state).1 := by
  obtain ⟨v, v', run', old, move, new⟩ := run.exists_step split
  subst old
  cases move with
  | call k' turn allowed =>
      cases List.append_cancel_left new
      exact ⟨v, run', rfl, turn, allowed, rfl⟩
  | work => cases List.append_cancel_left new
  | wake => cases List.append_cancel_left new
  | wakerEnds => simp at new
  | callEnds => simp at new

/-- A waker in the history was next on the agenda of the innermost call. -/
theorem woke {w : Waker} (run : svc.Run x s) (split : s.past = before ++ .woke w :: after) :
    ∃ v rest below, svc.Run x v ∧ v.past = before ∧
      v.ongoing = .call (.waking w :: rest) :: below := by
  obtain ⟨v, v', run', old, move, new⟩ := run.exists_step split
  subst old
  cases move with
  | call k' turn allowed => cases List.append_cancel_left new
  | work => cases List.append_cancel_left new
  | wake =>
      cases List.append_cancel_left new
      exact ⟨_, _, _, run', rfl, rfl⟩
  | wakerEnds => simp at new
  | callEnds => simp at new

/-- When every section calls a waker first if at all, a waker is about to be called only by the
innermost call. -/
theorem quiet (begins : ∀ k y, wakersOf (svc.begin k y).2.2.tail = [])
    (performs : ∀ t y, wakersOf (svc.perform t y).2.tail = []) (run : svc.Run x s) : s.Quiet := by
  induction run with
  | start => rintro o below ⟨⟩
  | @step v v' run move ih =>
      cases move with
      | call k turn allowed =>
          rintro o below ⟨⟩
          refine ⟨begins k v.state, fun o' member => ?_⟩
          have none := ih.pending_of_usersTurn turn
          exact List.flatMap_eq_nil_iff.mp none o' member
      | @work y t rest below =>
          rintro o below ⟨⟩
          obtain ⟨first, others⟩ := ih _ _ rfl
          refine ⟨?_, others⟩
          have tail := performs t y
          change wakersOf ((svc.perform t y).2 ++ rest).tail = []
          change wakersOf rest = [] at first
          cases more : (svc.perform t y).2 with
          | nil => exact wakersOf_tail first
          | cons a more' =>
              rw [more] at tail
              rw [List.cons_append, List.tail_cons, wakersOf_append, first, List.append_nil]
              exact tail
      | wake =>
          rintro o below ⟨⟩
          obtain ⟨first, others⟩ := ih _ _ rfl
          refine ⟨rfl, ?_⟩
          rintro o' (_ | ⟨_, member⟩)
          · exact first
          · exact others o' member
      | wakerEnds =>
          rintro o below ⟨⟩
          obtain ⟨-, others⟩ := ih _ _ rfl
          exact ⟨wakersOf_tail (others o List.mem_cons_self),
            fun o' member => others o' (List.mem_cons_of_mem _ member)⟩
      | callEnds =>
          rintro o below ⟨⟩
          obtain ⟨-, others⟩ := ih _ _ rfl
          exact ⟨wakersOf_tail (others o List.mem_cons_self),
            fun o' member => others o' (List.mem_cons_of_mem _ member)⟩

end Run

end Service

end FairShare
