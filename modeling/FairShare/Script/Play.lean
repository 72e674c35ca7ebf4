import FairShare.Wake.Agenda

/-!
# Scripts

A script is a sequence of steps on some subject, together with programs for named wakers. Whenever
a named waker is called, it runs the steps of its program at once, inside the call that woke it,
for as many wakings as the program allows. Playing a script records the reply of each step and,
below it, the wakings that happened while it ran.
-/

namespace FairShare

/-- A step that has begun: the state after its first section, what remains to be done, and how
the reply is found when that is done. Finding the reply may leave something more to do. -/
structure Begun (σ τ ρ : Type) where
  /-- The state after the first section. -/
  state : σ
  /-- What remains to be done. -/
  agenda : Agenda τ := []
  /-- The last section of the step, with what it leaves to do and the reply. -/
  conclude : σ → σ × Agenda τ × ρ

/-- A step that is over with its first section. -/
def Begun.atOnce {σ τ ρ : Type} (state : σ) (reply : ρ) : Begun σ τ ρ where
  state
  conclude s := (s, [], reply)

/-- What scripts are played on: states `σ`, tasks `τ`, steps `κ` and replies `ρ`. -/
structure Subject (σ τ κ ρ : Type) where
  /-- Begins a step. -/
  begin : κ → σ → Begun σ τ ρ
  /-- Runs the section of a task. -/
  perform : τ → σ → σ × Agenda τ

/-- What a named waker does when it is called. -/
structure Program (κ : Type) where
  /-- The steps of one waking. -/
  steps : List κ
  /-- The wakings that still run the steps. -/
  wakings : Nat := 1

/-- The reply of a step and the wakings below it, each with the records of its steps. -/
inductive Record (ρ : Type) where
  | mk (reply : ρ) (wakings : List (String × List (Record ρ)))

/-- A state together with the programs of the wakers. -/
structure Stage (σ κ : Type) where
  /-- The state of the subject. -/
  state : σ
  /-- The programs by the names of their wakers. -/
  programs : List (String × Program κ)

namespace Stage

variable {σ κ : Type}

/-- The steps that a waking of this waker runs. -/
def stepsFor (name : String) (st : Stage σ κ) : List κ :=
  match st.programs.lookup name with
  | none => []
  | some program => if program.wakings = 0 then [] else program.steps

/-- Counts one waking of this waker. -/
def countWaking (name : String) (st : Stage σ κ) : Stage σ κ :=
  { st with
    programs := st.programs.map fun (n, program) =>
      (n, if n = name then { program with wakings := program.wakings - 1 } else program) }

/-- The largest number of steps that the programs can still run. -/
def stepsLeft (st : Stage σ κ) : Nat :=
  (st.programs.map fun (_, program) => program.wakings * program.steps.length).foldl (· + ·) 0

end Stage

namespace Subject

variable {σ τ κ ρ : Type} (subject : Subject σ τ κ ρ)

mutual

/-- Works an agenda off. The number bounds the steps and activities that lie on one another. -/
def runAgenda : Nat → Stage σ κ → Agenda τ → Stage σ κ × List (String × List (Record ρ))
  | 0, st, _ => (st, [])
  | _ + 1, st, [] => (st, [])
  | n + 1, st, .task t :: rest =>
    let (state, more) := subject.perform t st.state
    runAgenda n { st with state } (more ++ rest)
  | n + 1, st, .waking .silent :: rest => runAgenda n st rest
  | n + 1, st, .waking (.named name) :: rest =>
    let (st', records) := runSteps n (st.countWaking name) (st.stepsFor name)
    let (st', wakings) := runAgenda n st' rest
    (st', (name, records) :: wakings)

/-- Runs one step to its end. -/
def runStep : Nat → Stage σ κ → κ → Stage σ κ × Record ρ
  | 0, st, k =>
    let begun := subject.begin k st.state
    let (state, _, reply) := begun.conclude begun.state
    ({ st with state }, .mk reply [])
  | n + 1, st, k =>
    let begun := subject.begin k st.state
    let (st, wakings) := runAgenda n { st with state := begun.state } begun.agenda
    let (state, agenda, reply) := begun.conclude st.state
    let (st, moreWakings) := runAgenda n { st with state } agenda
    (st, .mk reply (wakings ++ moreWakings))

/-- Runs steps in order. -/
def runSteps : Nat → Stage σ κ → List κ → Stage σ κ × List (Record ρ)
  | 0, st, _ => (st, [])
  | _ + 1, st, [] => (st, [])
  | n + 1, st, k :: rest =>
    let (st, record) := runStep n st k
    let (st, records) := runSteps n st rest
    (st, record :: records)

end

/-- Plays the steps with this bound, and observes the states before and after each. -/
def playWith {ω : Type} (bound : Nat) (observe : σ → σ → ω) :
    Stage σ κ → List κ → List (Record ρ × ω)
  | _, [] => []
  | st, k :: rest =>
    let (st', record) := subject.runStep bound st k
    (record, observe st.state st'.state) :: playWith bound observe st' rest

/-- Plays the steps, and observes the states before and after each. A step works off no more than
a hundred activities for each step that the script and its programs can run, so the bound, which
allows that many to each of those steps, is never reached. -/
def play {ω : Type} (observe : σ → σ → ω) (st : Stage σ κ) (steps : List κ) :
    List (Record ρ × ω) :=
  let mostSteps := steps.length + st.stepsLeft + 1
  subject.playWith (100 * mostSteps * mostSteps) observe st steps

end Subject

end FairShare
