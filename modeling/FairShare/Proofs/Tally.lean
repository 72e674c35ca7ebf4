import Mathlib.Algebra.BigOperators.Group.List.Basic
import Mathlib.Algebra.Order.BigOperators.Group.List
import Mathlib.Algebra.Order.Ring.Nat
import Mathlib.Data.List.Perm.Basic

/-!
# Tallies of lists that change in one place

Grants, channels, requests and lanes are lists whose entries change one at a time. The lemmas here
say what such a change does to what is counted or added up over the list.
-/

namespace FairShare

/-- A change of an entry that is known puts a known entry in its place. -/
theorem modify_eq_set_of_getElem? {α : Type} {l : List α} {i : Nat} {a : α} (f : α → α)
    (h : l[i]? = some a) : l.modify i f = l.set i (f a) := by
  obtain ⟨hi, rfl⟩ := List.getElem?_eq_some_iff.mp h
  rw [List.modify_eq_take_cons_drop hi, List.set_eq_take_append_cons_drop, if_pos hi]

/-- A change of the last entry. -/
theorem modify_append_singleton {α : Type} (f : α → α) (l : List α) (a : α) :
    (l ++ [a]).modify l.length f = l ++ [f a] := by
  rw [modify_eq_set_of_getElem? f List.getElem?_concat_length]
  simp

/-- What is read from a list with one entry replaced. -/
theorem of_getElem?_set {α : Type} {l : List α} {i j : Nat} {a b : α}
    (h : (l.set i a)[j]? = some b) : i = j ∧ b = a ∨ i ≠ j ∧ l[j]? = some b := by
  by_cases hij : i = j
  · subst hij
    have hi := (List.getElem?_eq_some_iff.mp h).1
    rw [List.length_set] at hi
    rw [List.getElem?_set_self hi] at h
    exact .inl ⟨rfl, (Option.some.inj h).symm⟩
  · rw [List.getElem?_set_ne hij] at h
    exact .inr ⟨hij, h⟩

theorem getElem?_set_of_some {α : Type} {l : List α} {i : Nat} {a : α} (h : l[i]? = some a)
    (b : α) : (l.set i b)[i]? = some b :=
  List.getElem?_set_self (List.getElem?_eq_some_iff.mp h).1

/-- What holds of an entry holds after one is replaced, if it holds of what comes in its place. -/
theorem exists_getElem?_set {α : Type} {l : List α} {i j : Nat} {a b : α} {P : α → Prop}
    (h : l[i]? = some a) (old : P a) (new : j = i → P b) :
    ∃ a', (l.set j b)[i]? = some a' ∧ P a' := by
  by_cases same : j = i
  · subst same
    exact ⟨b, getElem?_set_of_some h b, new rfl⟩
  · exact ⟨a, (List.getElem?_set_ne same).trans h, old⟩

/-- What is read from a list with one entry added. -/
theorem of_getElem?_append_singleton {α : Type} {l : List α} {j : Nat} {a b : α}
    (h : (l ++ [a])[j]? = some b) : l[j]? = some b ∨ j = l.length ∧ b = a := by
  rcases Nat.lt_or_ge j l.length with hlt | hge
  · rw [List.getElem?_append_left hlt] at h
    exact .inl h
  · rw [List.getElem?_append_right hge, List.getElem?_singleton] at h
    split at h
    · exact .inr ⟨by omega, (Option.some.inj h).symm⟩
    · cases h

theorem getElem?_append_of_some {α : Type} {l : List α} {i : Nat} {a : α} (h : l[i]? = some a)
    (l' : List α) : (l ++ l')[i]? = some a := by
  rw [List.getElem?_append_left (List.getElem?_eq_some_iff.mp h).1]
  exact h

/-- What is said of an entry, with a default where there is none, when one entry is replaced. -/
theorem elim_getElem?_set {α β : Type} {l : List α} {i : Nat} {a : α} (h : l[i]? = some a)
    (d : β) (f : α → β) (b : α) (j : Nat) :
    (l.set i b)[j]?.elim d f = if j = i then f b else l[j]?.elim d f := by
  by_cases hj : j = i
  · subst hj
    rw [if_pos rfl, getElem?_set_of_some h]
    rfl
  · rw [if_neg hj, List.getElem?_set_ne (Ne.symm hj)]

/-- What is said of an entry, with a default where there is none, when one entry is added. -/
theorem elim_getElem?_append_singleton {α β : Type} (l : List α) (d : β) (f : α → β) (a : α)
    (j : Nat) :
    (l ++ [a])[j]?.elim d f = if j = l.length then f a else l[j]?.elim d f := by
  by_cases hj : j = l.length
  · subst hj
    rw [if_pos rfl, List.getElem?_concat_length]
    rfl
  · rw [if_neg hj]
    rcases Nat.lt_or_gt_of_ne hj with hlt | hgt
    · rw [List.getElem?_append_left hlt]
    · rw [List.getElem?_eq_none (Nat.le_of_lt hgt), List.getElem?_eq_none (by simp; omega)]

/-- Mapping after a change in one place is a change in one place after mapping. -/
theorem map_modify {α β : Type} {f : α → β} {g : α → α} {h : β → β}
    (e : ∀ a, f (g a) = h (f a)) (l : List α) (i : Nat) :
    (l.modify i g).map f = (l.map f).modify i h := by
  induction l generalizing i with
  | nil => simp
  | cons a l ih =>
      cases i with
      | zero => simp [e]
      | succ i => simp [ih]

/-- Changes of entries that commute may be made in any order. -/
theorem modify_comm {α : Type} {f g : α → α} {i j : Nat} (h : i = j → ∀ a, f (g a) = g (f a))
    (l : List α) : (l.modify i f).modify j g = (l.modify j g).modify i f := by
  by_cases same : i = j
  · subst same
    rw [List.modify_modify_eq, List.modify_modify_eq]
    congr 1
    funext a
    exact (h rfl a).symm
  · exact List.modify_modify_ne _ _ l same

/-- Taking out the first entry of another kind does not matter for what is found. -/
theorem find?_eraseP {α : Type} {p q : α → Bool} (apart : ∀ a, p a = true → q a = false)
    (l : List α) : (l.eraseP q).find? p = l.find? p := by
  induction l with
  | nil => rfl
  | cons a l ih =>
      cases found : q a with
      | false =>
          rw [List.eraseP_cons_of_neg (by simp [found]), List.find?_cons, List.find?_cons, ih]
      | true =>
          have other : p a = false := by
            by_contra both
            cases found.symm.trans (apart a (by simpa using both))
          rw [List.eraseP_cons_of_pos found, List.find?_cons, other]

/-- The sum over a list that is changed in one place. -/
theorem sum_modify (g : Nat → Nat) {l : List Nat} {i : Nat} (h : i < l.length) :
    (l.modify i g).sum + l[i] = l.sum + g l[i] := by
  induction l generalizing i with
  | nil => simp at h
  | cons a l ih =>
      cases i with
      | zero => simp; omega
      | succ i =>
          have rest := ih (Nat.lt_of_succ_lt_succ h)
          simp only [List.modify_succ_cons, List.sum_cons, List.getElem_cons_succ]
          omega

/-- The concatenation of lists of which one is changed. -/
theorem flatten_modify {α : Type} {l : List (List α)} {i : Nat} {a : List α}
    (h : l[i]? = some a) (g : List α → List α) :
    ∃ b c, l.flatten = b ++ a ++ c ∧ (l.modify i g).flatten = b ++ g a ++ c := by
  obtain ⟨hi, rfl⟩ := List.getElem?_eq_some_iff.mp h
  refine ⟨(l.take i).flatten, (l.drop (i + 1)).flatten, ?_, ?_⟩
  · have e : l = l.take i ++ l[i] :: l.drop (i + 1) := by
      rw [← List.drop_eq_getElem_cons hi, List.take_append_drop]
    calc l.flatten = (l.take i ++ l[i] :: l.drop (i + 1)).flatten := congrArg List.flatten e
      _ = (l.take i).flatten ++ l[i] ++ (l.drop (i + 1)).flatten := by
        rw [List.flatten_append, List.flatten_cons, List.append_assoc]
  · rw [List.modify_eq_take_cons_drop hi]
    simp

/-- An entry that counts makes the count positive. -/
theorem toNat_le_countP {α : Type} (f : α → Bool) {l : List α} {i : Nat} {b : α}
    (h : l[i]? = some b) : (f b).toNat ≤ l.countP f := by
  cases hb : f b with
  | false => exact Nat.zero_le _
  | true => exact List.countP_pos_iff.mpr ⟨b, List.mem_of_getElem? h, hb⟩

theorem count_cons_add {α : Type} [DecidableEq α] (a b : α) (l : List α) :
    (b :: l).count a = l.count a + (decide (b = a)).toNat := by
  rw [List.count_cons]
  by_cases h : b = a <;> simp [h]

theorem countP_append_singleton {α : Type} (f : α → Bool) (l : List α) (a : α) :
    (l ++ [a]).countP f = l.countP f + (f a).toNat := by
  rw [List.countP_append, List.countP_singleton]
  cases f a <;> rfl

/-- A count over a list with one entry replaced. -/
theorem countP_set_add {α : Type} (f : α → Bool) {l : List α} {i : Nat} {b : α}
    (h : l[i]? = some b) (a : α) :
    (l.set i a).countP f + (f b).toNat = l.countP f + (f a).toNat := by
  have hle := toNat_le_countP f h
  obtain ⟨hi, rfl⟩ := List.getElem?_eq_some_iff.mp h
  rw [List.countP_set hi]
  cases hb : f l[i] <;> cases ha : f a <;>
    simp only [hb, Bool.toNat_true, Bool.toNat_false, if_true, Bool.false_eq_true, if_false]
      at hle ⊢ <;> omega

/-- An entry that is counted alone is in one place. -/
theorem eq_of_countP_eq_one {α : Type} {f : α → Bool} {l : List α} (one : l.countP f = 1)
    {i j : Nat} {a b : α} (ha : l[i]? = some a) (fa : f a = true) (hb : l[j]? = some b)
    (fb : f b = true) : i = j := by
  by_contra apart
  obtain ⟨hi, rfl⟩ := List.getElem?_eq_some_iff.mp ha
  have split : l = l.take i ++ l[i] :: l.drop (i + 1) := by
    rw [← List.drop_eq_getElem_cons hi, List.take_append_drop]
  have count : l.countP f = (l.take i).countP f + ((l.drop (i + 1)).countP f + 1) := by
    conv_lhs => rw [split]
    rw [List.countP_append, List.countP_cons_of_pos fa]
  have other : 0 < (l.take i).countP f + (l.drop (i + 1)).countP f := by
    rcases Nat.lt_or_gt_of_ne apart with hlt | hgt
    · have mem : b ∈ l.drop (i + 1) := by
        apply List.mem_of_getElem? (i := j - (i + 1))
        rw [List.getElem?_drop, Nat.add_sub_cancel' hlt]
        exact hb
      have pos := List.countP_pos_iff.mpr ⟨b, mem, fb⟩
      omega
    · have mem : b ∈ l.take i := by
        apply List.mem_of_getElem? (i := j)
        rw [List.getElem?_take_of_lt hgt]
        exact hb
      have pos := List.countP_pos_iff.mpr ⟨b, mem, fb⟩
      omega
  omega

end FairShare
