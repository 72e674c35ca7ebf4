import FairShare.Proofs.Sequence
import FairShare.Script.Rota

/-!
# Rotas refine sequences with a turn

Whatever is done to a rota, it stands for a sequence of distinct ids and a turn that is with one of
them or with nobody, and every step acts on these two in the plain way. The links can be followed
from either end, and a walk along them ends where the sequence ends.
-/

namespace FairShare

open RotaScript

/-! ## Lineups -/

/-- What a rota stands for: a sequence of ids, and the id whose turn it is. -/
structure Lineup where
  /-- The ids in their order. -/
  ids : List Nat := []
  /-- The id whose turn it is, or none when a round is over. -/
  turn : Option Nat := none
deriving DecidableEq, Repr

/-- The id after this one. -/
def Lineup.after? (s : Lineup) (id : Nat) : Option Nat :=
  s.ids[s.ids.idxOf id + 1]?

namespace RotaScript

/-- What a step does to a lineup with room for the ids below `n`. -/
def Step.act (n : Nat) (step : Step) (s : Lineup) : Reply × Lineup :=
  match step with
  | enrol id =>
    if n ≤ id then (.refused (.slotOutOfRange id), s)
    else if id ∈ s.ids then (.truth false, s)
    else (.truth true, { s with ids := s.ids ++ [id] })
  | strike id =>
    if id ∈ s.ids then
      (.id (s.after? id),
        { ids := s.ids.erase id
          turn := if s.turn = some id then s.after? id else s.turn })
    else (.id none, s)
  | contains id => (.truth (decide (id ∈ s.ids)), s)
  | after id => (.id (s.after? id), s)
  | openRound => (.id (s.turn.or s.ids.head?), { s with turn := s.turn.or s.ids.head? })
  | passTurn => (.done, { s with turn := s.turn.bind s.after? })
  | clear => (.done, {})

/-- Runs steps in order: their replies, and what they lead to. -/
def runSteps {σ : Type} (run : Step → σ → Reply × σ) : List Step → σ → List Reply × σ
  | [], s => ([], s)
  | step :: rest, s =>
    let (reply, s) := run step s
    let (replies, s) := runSteps run rest s
    (reply :: replies, s)

/-- A script on a rota replies what its steps reply. -/
theorem replies_play (steps : List Step) (l : Rota) :
    (play l steps).map Observation.reply = (runSteps Step.run steps l).1 := by
  induction steps generalizing l with
  | nil => rfl
  | cons step rest ih =>
      simp only [play, runSteps, List.map_cons, ih]
      rfl

end RotaScript

namespace Rota

/-- A rota with room for the ids below `n` stands for the lineup. -/
structure Stands (n : Nat) (l : Rota) (s : Lineup) : Prop where
  room : l.links.length = n
  spells : l.Spells s.ids
  turn : l.turn = s.turn

namespace Stands

variable {n : Nat} {l : Rota} {s : Lineup}

theorem after?_eq (h : l.Stands n s) (id : Nat) : l.after? id = s.after? id :=
  h.spells.after?_eq_getElem? id

theorem contains_eq (h : l.Stands n s) (id : Nat) : l.contains id = decide (id ∈ s.ids) := by
  rw [Bool.eq_iff_iff, decide_eq_true_iff]
  exact h.spells.contains_iff id

theorem enrol (h : l.Stands n s) {id : Nat} (room : id < n) :
    (l.enrol id).Stands n { s with ids := if id ∈ s.ids then s.ids else s.ids ++ [id] } where
  room := by rw [length_links_enrol, h.room]
  spells := h.spells.enrol (h.room ▸ room)
  turn := by
    rw [← h.turn]
    unfold Rota.enrol
    split <;> rfl

theorem strike (h : l.Stands n s) {id : Nat} (member : id ∈ s.ids) :
    (l.strike id).Stands n
      { ids := s.ids.erase id
        turn := if s.turn = some id then s.after? id else s.turn } where
  room := by rw [length_links_strike, h.room]
  spells := h.spells.strike id
  turn := by
    rw [← h.turn, ← h.after?_eq, Rota.strike, if_pos ((h.spells.contains_iff id).mpr member)]
    rfl

theorem openRound (h : l.Stands n s) :
    l.openRound.Stands n { s with turn := s.turn.or s.ids.head? } where
  room := by
    rw [← h.room]
    unfold Rota.openRound
    split <;> rfl
  spells := h.spells.openRound
  turn := by rw [turn_openRound, h.turn, h.spells.first]

theorem passTurn (h : l.Stands n s) :
    l.passTurn.Stands n { s with turn := s.turn.bind s.after? } where
  room := h.room
  spells := h.spells.passTurn
  turn := by
    rw [turn_passTurn, h.turn]
    exact Option.bind_congr fun id _ => h.after?_eq id

theorem clear (h : l.Stands n s) : l.clear.Stands n {} where
  room := by rw [length_links_clear, h.room]
  spells := .clear l
  turn := rfl

/-- One step on a rota is the same step on what it stands for. -/
theorem step (h : l.Stands n s) (step : Step) :
    (step.run l).1 = (step.act n s).1 ∧ (step.run l).2.Stands n (step.act n s).2 := by
  cases step with
  | enrol id =>
      by_cases room : id < n
      · have fits : id < l.links.length := h.room ▸ room
        have added := h.enrol room
        simp only [Step.run, Step.act, enrol?, if_pos fits, if_neg (Nat.not_le.mpr room),
          h.contains_eq]
        by_cases member : id ∈ s.ids
        · rw [if_pos member] at added
          rw [if_pos member, decide_eq_true member]
          exact ⟨rfl, added⟩
        · rw [if_neg member] at added
          rw [if_neg member, decide_eq_false member]
          exact ⟨rfl, added⟩
      · simp only [Step.run, Step.act, enrol?, h.room, if_neg room, if_pos (Nat.le_of_not_lt room)]
        exact ⟨trivial, h⟩
  | strike id =>
      by_cases member : id ∈ s.ids
      · have linked := (h.spells.contains_iff id).mpr member
        rw [Step.run, Step.act, if_pos linked, if_pos member, h.after?_eq]
        exact ⟨rfl, h.strike member⟩
      · have absent : ¬l.contains id = true := by simp [h.spells.contains_eq_false member]
        rw [Step.run, Step.act, if_neg absent, if_neg member, Rota.strike, if_neg absent]
        exact ⟨rfl, h⟩
  | contains id => exact ⟨congrArg _ (h.contains_eq id), h⟩
  | after id => exact ⟨congrArg _ (h.after?_eq id), h⟩
  | openRound => exact ⟨congrArg _ h.openRound.turn, h.openRound⟩
  | passTurn => exact ⟨rfl, h.passTurn⟩
  | clear => exact ⟨rfl, h.clear⟩

/-- All steps on a rota are the same steps on what it stands for. -/
theorem runSteps (h : l.Stands n s) (steps : List Step) :
    (RotaScript.runSteps Step.run steps l).1 = (RotaScript.runSteps (Step.act n) steps s).1 ∧
      (RotaScript.runSteps Step.run steps l).2.Stands n
        (RotaScript.runSteps (Step.act n) steps s).2 := by
  induction steps generalizing l s with
  | nil => exact ⟨rfl, h⟩
  | cons step rest ih =>
      obtain ⟨reply, stands⟩ := h.step step
      obtain ⟨replies, stands'⟩ := ih stands
      exact ⟨congrArg₂ List.cons reply replies, stands'⟩

end Stands

/-- The empty rota stands for the empty lineup. -/
theorem stands_ofSize (n : Nat) : (ofSize n).Stands n {} where
  room := List.length_replicate
  spells := spells_ofSize n
  turn := rfl

/-- What the table of a rota shows of a lineup. -/
structure Shows (l : Rota) (s : Lineup) : Prop where
  /-- The ids are distinct, and there is a link for each. -/
  nodup : s.ids.Nodup
  room : ∀ id ∈ s.ids, id < l.links.length
  /-- From the first id on, the links lead through the sequence and then to nobody. -/
  forward : ∀ k, walk l.after? k l.first = s.ids.take k
  /-- From the last id back, they lead through its reverse and then to nobody. -/
  backward : ∀ k, walk l.before? k l.last = s.ids.reverse.take k
  size : l.size = s.ids.length
  contains : ∀ id, l.contains id = decide (id ∈ s.ids)
  /-- An id has the next one of the sequence after it, and nobody if it is last or no member. -/
  after : ∀ id, l.after? id = s.after? id
  unlinked : ∀ id, id ∉ s.ids → l.link id = {}
  turn : l.turn = s.turn
  /-- The turn is with a member or with nobody. -/
  member : ∀ id, s.turn = some id → id ∈ s.ids

theorem Stands.shows {n : Nat} {l : Rota} {s : Lineup} (h : l.Stands n s) : l.Shows s where
  nodup := h.spells.nodup
  room := h.spells.room
  forward k := by
    rw [h.spells.first]
    exact h.spells.walk_forward k [] s.ids rfl
  backward k := by
    rw [h.spells.last]
    exact h.spells.walk_backward k s.ids [] (List.append_nil _).symm
  size := h.spells.size
  contains := h.contains_eq
  after := h.after?_eq
  unlinked := h.spells.unlinked
  turn := h.turn
  member id turn := h.spells.turn id (h.turn.trans turn)

/-- A rota refines a sequence of distinct ids with a turn. Whatever steps are made, in any order and
number, each replies what it replies on the lineup, and after them the table shows the lineup that
the steps lead to. -/
theorem refines_lineup (n : Nat) (steps : List Step) :
    (runSteps Step.run steps (ofSize n)).1 = (runSteps (Step.act n) steps {}).1 ∧
      (runSteps Step.run steps (ofSize n)).2.links.length = n ∧
      (runSteps Step.run steps (ofSize n)).2.Shows (runSteps (Step.act n) steps {}).2 := by
  obtain ⟨replies, stands⟩ := (stands_ofSize n).runSteps steps
  exact ⟨replies, stands.room, stands.shows⟩

end Rota

end FairShare
