import FairShare.Lock.Snapshot
import FairShare.Text.Decimal
import Mathlib

/-!
# What a display shows

The display form of a snapshot leaves out the active flags, and the halted flag of a lock that was
killed. Everything else can be told from it: two snapshots have one display exactly when they agree
on all that is shown. Every number is followed by a character that no number contains, so a display
is taken apart from the front, one number after the other and then one priority after the other.
-/

namespace FairShare

namespace Text

variable {d : Char} {a b l k : List Char}

/-- A text ends at the first place of a character that it does not contain. -/
theorem append_cons_inj_of_notMem (ha : d ∉ a) (hb : d ∉ b) :
    a ++ d :: l = b ++ d :: k ↔ a = b ∧ l = k := by
  constructor
  · intro h
    have before : a = b := by
      have cut := congrArg (List.takeWhile (· ≠ d)) h
      rwa [List.takeWhile_append_of_pos (by simpa using fun c hc => ne_of_mem_of_not_mem hc ha),
        List.takeWhile_append_of_pos (by simpa using fun c hc => ne_of_mem_of_not_mem hc hb),
        List.takeWhile_cons_of_neg (by simp), List.takeWhile_cons_of_neg (by simp),
        List.append_nil, List.append_nil] at cut
    subst before
    exact ⟨rfl, by simpa using h⟩
  · rintro ⟨rfl, rfl⟩
    rfl

theorem notMem_repr (hd : d.isDigit = false) (sign : d ≠ '-') (z : Int) : d ∉ z.repr.toList := by
  rw [Int.repr_eq_if]
  split
  · simpa using notMem_toDigits hd _
  · simpa [sign] using notMem_toDigits hd _

/-- A natural number is told from the text that follows it, unless that goes on with a digit. -/
@[simp] theorem toDigits_append_cons_inj (hd : d.isDigit = false) (m n : Nat) :
    Nat.toDigits 10 m ++ d :: l = Nat.toDigits 10 n ++ d :: k ↔ m = n ∧ l = k := by
  rw [append_cons_inj_of_notMem (notMem_toDigits hd m) (notMem_toDigits hd n),
    ← Nat.toList_repr, ← Nat.toList_repr, String.toList_inj, Nat.repr_inj]

/-- An integer is told from the text that follows it in the same way. -/
@[simp] theorem repr_append_cons_inj (hd : d.isDigit = false) (sign : d ≠ '-') (y z : Int) :
    y.repr.toList ++ d :: l = z.repr.toList ++ d :: k ↔ y = z ∧ l = k := by
  rw [append_cons_inj_of_notMem (notMem_repr hd sign y) (notMem_repr hd sign z),
    String.toList_inj, Int.repr_inj]

end Text

open Text

namespace LaneSnapshot

/-- The two agree on all that their displays show, which leaves out the active flag. -/
@[mk_iff]
structure ShowsAs (p q : LaneSnapshot) : Prop where
  priority : p.priority = q.priority
  weight : p.weight = q.weight
  runners : p.runners = q.runners
  waiters : p.waiters = q.waiters
  capacity : p.capacity = q.capacity

/-- The display of a priority before any other text determines the counters and that text. -/
theorem display_append_inj (p q : LaneSnapshot) (l k : List Char) :
    p.display.toList ++ l = q.display.toList ++ k ↔ p.ShowsAs q ∧ l = k := by
  simp [display, showsAs_iff, toString, and_assoc]

/-- The display of a priority begins with a brace. -/
theorem display_eq_cons (p : LaneSnapshot) : ∃ l, p.display.toList = '\x7b' :: l := by
  simp [display]

end LaneSnapshot

namespace Snapshot

/-- The two agree on all that their displays show: the counters, the word for how the lock was
stopped, which is that of the kill where both happened, and the priorities in their order. -/
@[mk_iff]
structure ShowsAs (s t : Snapshot) : Prop where
  concurrency : s.concurrency = t.concurrency
  available : s.available = t.available
  running : s.running = t.running
  waiting : s.waiting = t.waiting
  pendingWeights : s.pendingWeights = t.pendingWeights
  killed : s.killed = t.killed
  halted : s.killed = false → s.halted = t.halted
  priorities : List.Forall₂ LaneSnapshot.ShowsAs s.priorities t.priorities

/-- The last part of a display: the priorities and the closing brace. -/
def lanesText (lanes : List LaneSnapshot) : List Char :=
  lanes.flatMap (fun p => p.display.toList ++ [' ']) ++ ['\x7d']

@[simp] theorem lanesText_nil : lanesText [] = ['\x7d'] := rfl

@[simp] theorem lanesText_cons (p : LaneSnapshot) (lanes : List LaneSnapshot) :
    lanesText (p :: lanes) = p.display.toList ++ ' ' :: lanesText lanes := by
  simp [lanesText]

/-- The last part of a display begins with a brace, so it is no word. -/
theorem lanesText_ne_cons {c : Char} (opening : c ≠ '\x7b') (closing : c ≠ '\x7d')
    (lanes : List LaneSnapshot) (l : List Char) : lanesText lanes ≠ c :: l := by
  cases lanes with
  | nil => simp [closing.symm]
  | cons p lanes =>
    obtain ⟨m, hm⟩ := p.display_eq_cons
    simp [hm, opening.symm]

/-- By induction on the priorities of both: the closing brace tells where the first list ends. -/
theorem lanesText_inj (ps qs : List LaneSnapshot) :
    lanesText ps = lanesText qs ↔ List.Forall₂ LaneSnapshot.ShowsAs ps qs := by
  induction ps generalizing qs with
  | nil =>
    cases qs with
    | nil => simp
    | cons q qs =>
      obtain ⟨l, hl⟩ := q.display_eq_cons
      simp [hl]
  | cons p ps ih =>
    cases qs with
    | nil =>
      obtain ⟨l, hl⟩ := p.display_eq_cons
      simp [hl]
    | cons q qs =>
      calc lanesText (p :: ps) = lanesText (q :: qs)
          ↔ p.display.toList ++ ' ' :: lanesText ps = q.display.toList ++ ' ' :: lanesText qs := by
            rw [lanesText_cons, lanesText_cons]
        _ ↔ p.ShowsAs q ∧ lanesText ps = lanesText qs := by
            rw [LaneSnapshot.display_append_inj, List.cons_inj_right]
        _ ↔ p.ShowsAs q ∧ List.Forall₂ LaneSnapshot.ShowsAs ps qs := by rw [ih]
        _ ↔ List.Forall₂ LaneSnapshot.ShowsAs (p :: ps) (q :: qs) := List.forall₂_cons.symm

/-- The word of the stop is told from the priorities, which begin with a brace, and shows the kill
and, unless the lock was killed, the halt. -/
theorem stopWord_append_inj (s t : Snapshot) (ps qs : List LaneSnapshot) :
    s.stopWord.toList ++ lanesText ps = t.stopWord.toList ++ lanesText qs ↔
      s.killed = t.killed ∧ (s.killed = false → s.halted = t.halted) ∧
        lanesText ps = lanesText qs := by
  have word : ∀ (c : Char) (l : List Char) (lanes : List LaneSnapshot), c = 'k' ∨ c = 'h' →
      lanesText lanes ≠ c :: l := by
    rintro c l lanes (rfl | rfl) <;> exact lanesText_ne_cons (by decide) (by decide) lanes l
  cases hs : s.killed <;> cases ht : t.killed <;> cases hs' : s.halted <;> cases ht' : t.halted <;>
    simp [stopWord, hs, ht, hs', ht', word, (word _ _ _ _).symm]

/-- The display cut after the last of its five leading counters. -/
theorem toList_display (s : Snapshot) :
    s.display.toList =
      "\x7b concurrency=".toList ++ (s.concurrency.repr.toList ++ ' ' ::
      ("available=".toList ++ (s.available.repr.toList ++ ' ' ::
      ("running=".toList ++ (s.running.repr.toList ++ ' ' ::
      ("waiting=".toList ++ (Nat.toDigits 10 s.waiting ++ ' ' ::
      ("pending_weights=".toList ++ (Nat.toDigits 10 s.pendingWeights ++ ' ' ::
      (s.stopWord.toList ++ lanesText s.priorities)))))))))) := by
  simp [display, lanesText, toString, List.flatMap_map]

/-- The display shows the counters, how the lock was stopped and the counters of each priority,
and nothing else: it leaves out the active flags, and the halted flag of a lock that was killed. -/
theorem display_eq_iff (s t : Snapshot) : s.display = t.display ↔ s.ShowsAs t := by
  calc s.display = t.display
      ↔ s.display.toList = t.display.toList := String.toList_inj.symm
    _ ↔ s.concurrency = t.concurrency ∧ s.available = t.available ∧ s.running = t.running ∧
          s.waiting = t.waiting ∧ s.pendingWeights = t.pendingWeights ∧
          s.stopWord.toList ++ lanesText s.priorities =
            t.stopWord.toList ++ lanesText t.priorities := by
        simp [toList_display]
    _ ↔ s.ShowsAs t := by
        rw [stopWord_append_inj, lanesText_inj, showsAs_iff]

end Snapshot

end FairShare
