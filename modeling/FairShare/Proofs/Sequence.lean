import FairShare.Rota.Basic
import Mathlib.Data.List.Basic

/-!
# Rotas as sequences

The table of links of a rota stands for a sequence of distinct ids. Every operation on the table
acts on that sequence in the plain way, so that later proofs speak of members and their order and
never of links.
-/

namespace FairShare

namespace Rota

/-- The rota stands for the sequence: its links lead from each member to its neighbours. -/
structure Spells (l : Rota) (ids : List Nat) : Prop where
  nodup : ids.Nodup
  room : ∀ i ∈ ids, i < l.links.length
  size : l.size = ids.length
  first : l.first = ids.head?
  last : l.last = ids.getLast?
  linked : ∀ pre i post, ids = pre ++ i :: post →
    l.link i = { before := pre.getLast?, after := post.head?, linked := true }
  unlinked : ∀ i, i ∉ ids → l.link i = {}
  turn : ∀ i, l.turn = some i → i ∈ ids

/-! ## Links that change -/

section Links
variable {links : List Link} (i : Nat)

theorem getD_set {j : Nat} (room : j < links.length) (link : Link) :
    (links.set j link).getD i {} = if j = i then link else links.getD i {} := by
  rw [List.getD_eq_getElem?_getD, List.getD_eq_getElem?_getD, List.getElem?_set]
  split
  · rename_i h
    subst h
    simp
  · rfl

theorem getD_setAfter {o : Option Nat} (room : ∀ j, o = some j → j < links.length)
    (after : Option Nat) :
    (setAfter o after links).getD i {} =
      if o = some i then { links.getD i {} with after } else links.getD i {} := by
  cases o with
  | none => rfl
  | some j =>
      have hj := room j rfl
      rw [setAfter, List.getD_eq_getElem?_getD, List.getD_eq_getElem?_getD, List.getElem?_modify]
      by_cases h : j = i
      · subst h
        simp [hj]
      · simp [h]

theorem getD_setBefore {o : Option Nat} (room : ∀ j, o = some j → j < links.length)
    (before : Option Nat) :
    (setBefore o before links).getD i {} =
      if o = some i then { links.getD i {} with before } else links.getD i {} := by
  cases o with
  | none => rfl
  | some j =>
      have hj := room j rfl
      rw [setBefore, List.getD_eq_getElem?_getD, List.getD_eq_getElem?_getD, List.getElem?_modify]
      by_cases h : j = i
      · subst h
        simp [hj]
      · simp [h]

@[simp] theorem length_setAfter (o after : Option Nat) :
    (setAfter o after links).length = links.length := by
  cases o <;> simp [setAfter]

@[simp] theorem length_setBefore (o before : Option Nat) :
    (setBefore o before links).length = links.length := by
  cases o <;> simp [setBefore]

end Links

@[simp] theorem length_links_enrol (l : Rota) (i : Nat) :
    (l.enrol i).links.length = l.links.length := by
  unfold enrol append
  split <;> simp

@[simp] theorem length_links_strike (l : Rota) (i : Nat) :
    (l.strike i).links.length = l.links.length := by
  unfold strike unlink
  split <;> simp

/-- The empty rota stands for the empty sequence. -/
theorem spells_ofSize (n : Nat) : (ofSize n).Spells [] := by
  refine ⟨List.nodup_nil, ?_, rfl, rfl, rfl, ?_, ?_, ?_⟩
  · intro i hi
    cases hi
  · intro pre i post h
    simp at h
  · intro i _
    simp only [link, ofSize, List.getD_eq_getElem?_getD, List.getElem?_replicate]
    split <;> rfl
  · intro i h
    cases h

namespace Spells

variable {l : Rota} {ids : List Nat}

/-- The linked ids are the members. -/
theorem contains_iff (h : l.Spells ids) (i : Nat) : l.contains i = true ↔ i ∈ ids := by
  constructor
  · intro linked
    by_contra hi
    rw [contains, h.unlinked i hi] at linked
    cases linked
  · intro hi
    obtain ⟨pre, post, e⟩ := List.append_of_mem hi
    rw [contains, h.linked pre i post e]

theorem contains_eq_false (h : l.Spells ids) {i : Nat} (hi : i ∉ ids) : l.contains i = false := by
  rw [Bool.eq_false_iff]
  exact fun linked => hi ((h.contains_iff i).mp linked)

/-- A member is not among those before it. -/
theorem not_mem_before (h : l.Spells ids) {pre post : List Nat} {i : Nat}
    (e : ids = pre ++ i :: post) : i ∉ pre := by
  intro before
  have nodup := h.nodup
  rw [e, List.nodup_append] at nodup
  exact nodup.2.2 i before i List.mem_cons_self rfl

/-- The turn does not matter for the sequence. -/
theorem withTurn (h : l.Spells ids) {turn : Option Nat} (member : ∀ i, turn = some i → i ∈ ids) :
    ({ l with turn } : Rota).Spells ids :=
  ⟨h.nodup, h.room, h.size, h.first, h.last, h.linked, h.unlinked, member⟩

theorem openRound (h : l.Spells ids) : l.openRound.Spells ids := by
  unfold Rota.openRound
  split
  · apply h.withTurn
    intro i hi
    rw [h.first] at hi
    exact List.mem_of_mem_head? hi
  · exact h

/-- The id after a member is the next one. -/
theorem after?_eq (h : l.Spells ids) {pre post : List Nat} {i : Nat} (e : ids = pre ++ i :: post) :
    l.after? i = post.head? := by
  rw [after?, h.linked pre i post e]

theorem before?_eq (h : l.Spells ids) {pre post : List Nat} {i : Nat} (e : ids = pre ++ i :: post) :
    l.before? i = pre.getLast? := by
  rw [before?, h.linked pre i post e]

/-- A walk from any member on lists the rest of the sequence and ends there. -/
theorem walk_forward (h : l.Spells ids) (k : Nat) (pre post : List Nat) (e : ids = pre ++ post) :
    walk l.after? k post.head? = post.take k := by
  induction k generalizing pre post with
  | zero => rfl
  | succ k ih =>
      cases post with
      | nil => rfl
      | cons i post =>
          have rest := ih (pre ++ [i]) post (by simp [e])
          rw [List.head?_cons, walk, h.after?_eq e, rest, List.take_succ_cons]

/-- A walk from any member back lists the members before it in reverse and ends there. -/
theorem walk_backward (h : l.Spells ids) (k : Nat) (pre post : List Nat) (e : ids = pre ++ post) :
    walk l.before? k pre.getLast? = pre.reverse.take k := by
  induction k generalizing pre post with
  | zero => rfl
  | succ k ih =>
      rcases List.eq_nil_or_concat pre with rfl | ⟨pre, i, rfl⟩
      · rfl
      · rw [List.concat_eq_append, List.append_assoc] at e
        have rest := ih pre (i :: post) e
        rw [List.concat_eq_append, List.getLast?_concat, walk, h.before?_eq e, rest,
          List.reverse_concat, List.take_succ_cons]

/-- The links list the sequence. -/
theorem toList_eq (h : l.Spells ids) : l.toList = ids := by
  rw [toList, h.size, h.first, h.walk_forward ids.length [] ids rfl, List.take_length]

/-- From the last id back they list its reverse. -/
theorem toListBackward_eq (h : l.Spells ids) : l.toListBackward = ids.reverse := by
  rw [toListBackward, h.size, h.last, h.walk_backward ids.length ids [] (List.append_nil _).symm,
    List.take_of_length_le (Nat.le_of_eq List.length_reverse)]

/-- The id after any id is the one at the next place of the sequence, if there is one. -/
theorem after?_eq_getElem? (h : l.Spells ids) (i : Nat) : l.after? i = ids[ids.idxOf i + 1]? := by
  by_cases member : i ∈ ids
  · obtain ⟨pre, post, e⟩ := List.append_of_mem member
    rw [h.after?_eq e, e, List.idxOf_append_of_notMem (h.not_mem_before e), List.idxOf_cons_self,
      List.head?_eq_getElem?, List.getElem?_append_right (by omega)]
    simp
  · rw [after?, h.unlinked i member, List.idxOf_eq_length member,
      List.getElem?_eq_none (Nat.le_succ _)]

theorem passTurn (h : l.Spells ids) : l.passTurn.Spells ids := by
  apply h.withTurn
  intro i hi
  obtain ⟨j, hj, hi⟩ := Option.bind_eq_some_iff.mp hi
  obtain ⟨pre, post, e⟩ := List.append_of_mem (h.turn j hj)
  rw [h.after?_eq e] at hi
  rw [e]
  exact List.mem_append_right _ (List.mem_cons_of_mem _ (List.mem_of_mem_head? hi))

/-- Taking every id out leaves the empty sequence. -/
theorem clear (l : Rota) : l.clear.Spells [] :=
  spells_ofSize _

/-! ## Enrolment -/

theorem link_append (h : l.Spells ids) {i : Nat} (room : i < l.links.length) (hi : i ∉ ids)
    (j : Nat) :
    (l.append i).link j =
      if i = j then { before := ids.getLast?, after := none, linked := true }
      else if ids.getLast? = some j then { l.link j with after := some i } else l.link j := by
  have last : ∀ k, l.last = some k →
      k < (l.links.set i { before := l.last, linked := true }).length := by
    intro k hk
    rw [List.length_set]
    rw [h.last] at hk
    exact h.room k (List.mem_of_getLast? hk)
  have apart : ids.getLast? ≠ some i := fun e => hi (List.mem_of_getLast? e)
  rw [link, Rota.append, getD_setAfter j last, getD_set j room, h.last]
  by_cases hij : i = j
  · subst hij
    rw [if_neg apart, if_pos rfl, if_pos rfl]
  · rw [if_neg hij, if_neg hij]
    rfl

/-- A member that has others after it is not the last one. -/
theorem getLast?_ne {pre post : List Nat} {i : Nat} (h : (pre ++ i :: post).Nodup)
    (others : post ≠ []) : (pre ++ i :: post).getLast? ≠ some i := by
  intro last
  rw [List.getLast?_append_of_ne_nil _ (List.cons_ne_nil _ _), List.getLast?_cons_of_ne_nil others]
    at last
  have twice := (List.nodup_cons.mp (List.nodup_append.mp h).2.1).1
  exact twice (List.mem_of_getLast? last)

/-- A member that has others before it is not the first one. -/
theorem head?_ne {pre post : List Nat} {i : Nat} (h : (pre ++ i :: post).Nodup)
    (others : pre ≠ []) : (pre ++ i :: post).head? ≠ some i := by
  intro first
  rw [List.head?_append_of_ne_nil _ others] at first
  have apart := (List.nodup_append.mp h).2.2
  exact apart i (List.mem_of_mem_head? first) i (List.mem_cons_self) rfl

/-- An id that is put at the end is the last member. -/
theorem append (h : l.Spells ids) {i : Nat} (room : i < l.links.length) (hi : i ∉ ids) :
    (l.append i).Spells (ids ++ [i]) := by
  constructor
  · rw [List.nodup_append]
    refine ⟨h.nodup, by simp, ?_⟩
    intro j hj k hk e
    rw [List.mem_singleton] at hk
    exact hi (hk ▸ e ▸ hj)
  · intro j hj
    have length : (l.append i).links.length = l.links.length := by simp [Rota.append]
    rw [length]
    rcases List.mem_append.mp hj with old | new
    · exact h.room j old
    · rw [List.mem_singleton.mp new]
      exact room
  · simp [Rota.append, h.size]
  · simp only [Rota.append, h.last, h.first]
    cases ids <;> simp
  · simp [Rota.append]
  · intro pre j post e
    rw [h.link_append room hi]
    rcases List.eq_nil_or_concat post with rfl | ⟨post, k, rfl⟩
    · obtain ⟨rfl, tail⟩ := List.append_inj' e rfl
      rw [if_pos (List.cons.inj tail).1]
      rfl
    · have e' : ids ++ [i] = (pre ++ j :: post) ++ [k] := by simp [e]
      obtain ⟨rfl, tail⟩ := List.append_inj' e' rfl
      have hij : i ≠ j := by
        rintro rfl
        exact hi (List.mem_append_right _ List.mem_cons_self)
      rw [if_neg hij, h.linked pre j post rfl, ← (List.cons.inj tail).1]
      by_cases others : post = []
      · subst others
        simp
      · rw [if_neg (getLast?_ne h.nodup others), List.concat_eq_append,
          List.head?_append_of_ne_nil _ others]
  · intro j hj
    rw [List.mem_append, not_or, List.mem_singleton] at hj
    have apart : ids.getLast? ≠ some j := fun e => hj.1 (List.mem_of_getLast? e)
    rw [h.link_append room hi, if_neg (Ne.symm hj.2), if_neg apart]
    exact h.unlinked j hj.1
  · intro j turn
    exact List.mem_append_left _ (h.turn j turn)

/-- Enrolling an id that has room adds it at the end, unless it is a member already. -/
theorem enrol (h : l.Spells ids) {i : Nat} (room : i < l.links.length) :
    (l.enrol i).Spells (if i ∈ ids then ids else ids ++ [i]) := by
  unfold Rota.enrol
  by_cases hi : i ∈ ids
  · rw [if_pos hi, if_pos ((h.contains_iff i).mpr hi)]
    exact h
  · rw [if_neg hi, if_neg (by simp [h.contains_eq_false hi])]
    exact h.append room hi

/-! ## Striking off -/

theorem link_unlink (h : l.Spells ids) {pre post : List Nat} {i : Nat} (e : ids = pre ++ i :: post)
    (j : Nat) :
    (l.unlink i).link j =
      if i = j then {}
      else if post.head? = some j then { l.link j with before := pre.getLast? }
      else if pre.getLast? = some j then { l.link j with after := post.head? }
      else l.link j := by
  have before : ∀ k, pre.getLast? = some k → k < l.links.length := by
    intro k hk
    apply h.room
    rw [e]
    exact List.mem_append_left _ (List.mem_of_getLast? hk)
  have after : ∀ k, post.head? = some k →
      k < (setAfter pre.getLast? post.head? l.links).length := by
    intro k hk
    rw [length_setAfter]
    apply h.room
    rw [e]
    exact List.mem_append_right _ (List.mem_cons_of_mem _ (List.mem_of_mem_head? hk))
  have room : i < (setBefore post.head? pre.getLast?
      (setAfter pre.getLast? post.head? l.links)).length := by
    rw [length_setBefore, length_setAfter]
    apply h.room
    rw [e]
    exact List.mem_append_right _ List.mem_cons_self
  rw [link, Rota.unlink, h.before?_eq e, h.after?_eq e, getD_set j room, getD_setBefore j after,
    getD_setAfter j before]
  by_cases hij : i = j
  · rw [if_pos hij, if_pos hij]
  · rw [if_neg hij, if_neg hij]
    by_cases hj : post.head? = some j
    · have apart : pre.getLast? ≠ some j := by
        intro hk
        have nodup := h.nodup
        rw [e, List.nodup_append] at nodup
        exact nodup.2.2 j (List.mem_of_getLast? hk) j
          (List.mem_cons_of_mem _ (List.mem_of_mem_head? hj)) rfl
      rw [if_pos hj, if_pos hj, if_neg apart]
      rfl
    · rw [if_neg hj, if_neg hj]
      rfl

/-- The members after the one that is taken out keep their neighbours but for that one. -/
theorem link_unlink_after (h : l.Spells ids) {pre mid after : List Nat} {i j : Nat}
    (e : ids = pre ++ i :: (mid ++ j :: after)) :
    (l.unlink i).link j =
      { before := (pre ++ mid).getLast?, after := after.head?, linked := true } := by
  have e' : ids = (pre ++ i :: mid) ++ j :: after := by simp [e]
  have nodup := h.nodup
  rw [e, List.nodup_append] at nodup
  have apart := nodup.2.2
  have ends := List.nodup_cons.mp nodup.2.1
  have hij : i ≠ j := by
    rintro rfl
    exact ends.1 (List.mem_append_right _ List.mem_cons_self)
  have last : pre.getLast? ≠ some j := by
    intro hk
    exact apart j (List.mem_of_getLast? hk) j (by simp) rfl
  rw [h.link_unlink e, if_neg hij, h.linked _ j after e']
  by_cases others : mid = []
  · subst others
    simp
  · rw [if_neg (head?_ne ends.2 others), if_neg last,
      List.getLast?_append_of_ne_nil _ (List.cons_ne_nil _ _),
      List.getLast?_cons_of_ne_nil others, List.getLast?_append_of_ne_nil _ others]

/-- So do the members before it. -/
theorem link_unlink_before (h : l.Spells ids) {before mid post : List Nat} {i j : Nat}
    (e : ids = (before ++ j :: mid) ++ i :: post) :
    (l.unlink i).link j =
      { before := before.getLast?, after := (mid ++ post).head?, linked := true } := by
  have e' : ids = before ++ j :: (mid ++ i :: post) := by simp [e]
  have nodup := h.nodup
  rw [e, List.nodup_append] at nodup
  have apart := nodup.2.2
  have hij : i ≠ j := by
    rintro rfl
    exact apart i (by simp) i List.mem_cons_self rfl
  have head : post.head? ≠ some j := by
    intro hk
    exact apart j (by simp) j (List.mem_cons_of_mem _ (List.mem_of_mem_head? hk)) rfl
  rw [h.link_unlink e, if_neg hij, if_neg head, h.linked _ j _ e']
  by_cases others : mid = []
  · subst others
    simp
  · rw [if_neg (getLast?_ne nodup.1 others), List.head?_append_of_ne_nil _ others,
      List.head?_append_of_ne_nil _ others]

/-- A member that is taken out leaves the others in their order. -/
theorem unlink (h : l.Spells ids) {pre post : List Nat} {i : Nat} (e : ids = pre ++ i :: post) :
    (l.unlink i).Spells (pre ++ post) := by
  have nodup := h.nodup
  rw [e] at nodup
  have apart := (List.nodup_append.mp nodup).2.2
  have ends := List.nodup_cons.mp (List.nodup_append.mp nodup).2.1
  have sub : ∀ j, j ∈ pre ++ post → j ∈ ids := by
    intro j hj
    rw [e]
    rcases List.mem_append.mp hj with hj | hj
    · exact List.mem_append_left _ hj
    · exact List.mem_append_right _ (List.mem_cons_of_mem _ hj)
  have hi : i ∉ pre ++ post := by
    rw [List.mem_append, not_or]
    exact ⟨fun hi => apart i hi i List.mem_cons_self rfl, ends.1⟩
  constructor
  · rw [List.nodup_append]
    exact ⟨(List.nodup_append.mp nodup).1, ends.2,
      fun j hj k hk => apart j hj k (List.mem_cons_of_mem _ hk)⟩
  · intro j hj
    have length : (l.unlink i).links.length = l.links.length := by simp [Rota.unlink]
    rw [length]
    exact h.room j (sub j hj)
  · simp only [Rota.unlink, h.size, e, List.length_append, List.length_cons]
    omega
  · simp only [Rota.unlink, h.before?_eq e, h.after?_eq e, h.first, e]
    cases pre <;> simp
  · simp only [Rota.unlink, h.before?_eq e, h.after?_eq e, h.last, e]
    cases post <;> simp
  · intro before j after hj
    rcases List.append_eq_append_iff.mp hj with ⟨mid, rfl, rfl⟩ | ⟨mid, rfl, hp⟩
    · exact h.link_unlink_after e
    · cases mid with
      | nil =>
          obtain rfl := hp
          have e' : ids = before ++ i :: ([] ++ j :: after) := by simpa using e
          simpa using h.link_unlink_after e'
      | cons k mid =>
          obtain ⟨rfl, rfl⟩ := List.cons.inj hp
          exact h.link_unlink_before (by simpa using e)
  · intro j hj
    rw [h.link_unlink e]
    by_cases hij : i = j
    · rw [if_pos hij]
    · rw [List.mem_append, not_or] at hj
      have head : post.head? ≠ some j := fun hk => hj.2 (List.mem_of_mem_head? hk)
      have last : pre.getLast? ≠ some j := fun hk => hj.1 (List.mem_of_getLast? hk)
      rw [if_neg hij, if_neg head, if_neg last]
      apply h.unlinked
      rw [e, List.mem_append, List.mem_cons, not_or, not_or]
      exact ⟨hj.1, Ne.symm hij, hj.2⟩
  · intro j turn
    simp only [Rota.unlink, h.after?_eq e] at turn
    split at turn
    · exact List.mem_append_right _ (List.mem_of_mem_head? turn)
    · rename_i other
      have member := h.turn j turn
      rw [e, List.mem_append, List.mem_cons] at member
      rcases member with hj | rfl | hj
      · exact List.mem_append_left _ hj
      · exact absurd turn other
      · exact List.mem_append_right _ hj

/-- Striking an id off takes it out of the sequence, if it is a member. -/
theorem strike (h : l.Spells ids) (i : Nat) : (l.strike i).Spells (ids.erase i) := by
  unfold Rota.strike
  by_cases hi : i ∈ ids
  · obtain ⟨pre, post, e⟩ := List.append_of_mem hi
    rw [if_pos ((h.contains_iff i).mpr hi), e, List.erase_append_right _ (h.not_mem_before e),
      List.erase_cons_head]
    exact h.unlink e
  · rw [if_neg (by simp [h.contains_eq_false hi]), List.erase_of_not_mem hi]
    exact h

/-- An id that was struck off is struck off once. -/
theorem strike_strike (h : l.Spells ids) (i : Nat) : (l.strike i).strike i = l.strike i := by
  have absent : i ∉ ids.erase i := fun member => (h.nodup.mem_erase_iff.mp member).1 rfl
  conv_lhs => rw [Rota.strike, (h.strike i).contains_eq_false absent]
  rfl

/-- Striking off the id whose turn it is passes the turn to the id after it. -/
theorem turn_strike (h : l.Spells ids) (i : Nat) :
    (l.strike i).turn = if l.turn = some i then l.after? i else l.turn := by
  unfold Rota.strike
  split
  · rfl
  · rename_i absent
    have apart : l.turn ≠ some i := fun turn => absent ((h.contains_iff i).mpr (h.turn i turn))
    rw [if_neg apart]

/-- Striking an id off closes the gap before it. -/
theorem after?_strike (h : l.Spells ids) {i j : Nat} (apart : i ≠ j) :
    (l.strike i).after? j = if l.after? j = some i then l.after? i else l.after? j := by
  have struck := h.strike i
  by_cases member : j ∈ ids
  · obtain ⟨pre, post, e⟩ := List.append_of_mem member
    have nodup := h.nodup
    rw [e, List.nodup_append] at nodup
    rw [h.after?_eq e]
    by_cases before : i ∈ pre
    · have absent : post.head? ≠ some i := fun head =>
        nodup.2.2 i before i (List.mem_cons_of_mem _ (List.mem_of_mem_head? head)) rfl
      have erased : ids.erase i = pre.erase i ++ j :: post := by
        rw [e, List.erase_append_left _ before]
      rw [if_neg absent]
      exact struck.after?_eq erased
    · have erased : ids.erase i = pre ++ j :: post.erase i := by
        rw [e, List.erase_append_right _ before, List.erase_cons_tail (by simpa using apart.symm)]
      rw [struck.after?_eq erased]
      cases post with
      | nil => rfl
      | cons k post =>
          by_cases next : k = i
          · subst next
            have e' : ids = (pre ++ [j]) ++ k :: post := by simp [e]
            rw [List.erase_cons_head, List.head?_cons, if_pos rfl, h.after?_eq e']
          · rw [List.erase_cons_tail (by simpa using next), List.head?_cons, List.head?_cons,
              if_neg fun same => next (Option.some.inj same)]
  · have absent : j ∉ ids.erase i := fun there => member (List.mem_of_mem_erase there)
    have old : l.after? j = none := by rw [after?, h.unlinked j member]
    have new : (l.strike i).after? j = none := by rw [after?, struck.unlinked j absent]
    rw [old, new]
    rfl

/-- No two ids come after each other. -/
theorem after?_asymm (h : l.Spells ids) {i j : Nat} (next : l.after? i = some j) :
    l.after? j ≠ some i := by
  have member : i ∈ ids := by
    by_contra absent
    rw [after?, h.unlinked i absent] at next
    cases next
  obtain ⟨pre, post, e⟩ := List.append_of_mem member
  rw [h.after?_eq e] at next
  obtain ⟨rest, rfl⟩ : ∃ rest, post = j :: rest := List.head?_eq_some_iff.mp next
  have e' : ids = (pre ++ [i]) ++ j :: rest := by simp [e]
  rw [h.after?_eq e']
  intro back
  have nodup := h.nodup
  rw [e, List.nodup_append] at nodup
  exact (List.nodup_cons.mp nodup.2.1).1 (List.mem_cons_of_mem _ (List.mem_of_mem_head? back))

/-! ## One table for each sequence -/

/-- A sequence and a turn have one table of a given size. -/
theorem ext {l' : Rota} (h : l.Spells ids) (h' : l'.Spells ids)
    (room : l.links.length = l'.links.length) (turn : l.turn = l'.turn) : l = l' := by
  have link : ∀ i, l.link i = l'.link i := by
    intro i
    by_cases member : i ∈ ids
    · obtain ⟨pre, post, e⟩ := List.append_of_mem member
      rw [h.linked pre i post e, h'.linked pre i post e]
    · rw [h.unlinked i member, h'.unlinked i member]
  have links : l.links = l'.links := by
    apply List.ext_getElem room
    intro i hi hi'
    have same := link i
    simpa [Rota.link, List.getD_eq_getElem?_getD, hi, hi'] using same
  have first := h.first.trans h'.first.symm
  have last := h.last.trans h'.last.symm
  have size := h.size.trans h'.size.symm
  cases l
  cases l'
  simp_all

/-- An id that was put at the end and is struck off again leaves the table as it was. A turn that it
had is over. -/
theorem strike_enrol (h : l.Spells ids) {i : Nat} (room : i < l.links.length) (new : i ∉ ids)
    {turn : Option Nat} (member : ∀ j, turn = some j → j ∈ ids ∨ j = i) :
    ({ l.enrol i with turn } : Rota).strike i =
      { l with turn := if turn = some i then none else turn } := by
  have enrolled : ({ l.enrol i with turn } : Rota).Spells (ids ++ [i]) := by
    have at_end := h.enrol room
    rw [if_neg new] at at_end
    apply at_end.withTurn
    intro j hj
    simpa using member j hj
  have struck := enrolled.strike i
  rw [List.erase_append_right _ new, List.erase_cons_head, List.append_nil] at struck
  apply struck.ext
  · apply h.withTurn
    intro j hj
    split at hj
    · cases hj
    · rename_i other
      rcases member j hj with old | rfl
      · exact old
      · exact absurd hj other
  · simp
  · rw [enrolled.turn_strike, enrolled.after?_eq rfl]
    rfl

/-- The order in which ids are struck off does not matter, not even for the turn. -/
theorem strike_comm (h : l.Spells ids) (i j : Nat) :
    (l.strike i).strike j = (l.strike j).strike i := by
  by_cases same : i = j
  · rw [same]
  · apply ((h.strike i).strike j).ext
    · rw [List.erase_comm]
      exact (h.strike j).strike i
    · simp
    · rw [(h.strike i).turn_strike, (h.strike j).turn_strike, h.turn_strike, h.turn_strike,
        h.after?_strike same, h.after?_strike (Ne.symm same)]
      by_cases atFirst : l.turn = some i
      · simp only [atFirst, if_true, Option.some.injEq, same, if_false]
        split
        · rename_i next
          rw [if_neg (h.after?_asymm next)]
        · rfl
      · by_cases atSecond : l.turn = some j
        · simp only [atSecond, if_true, Option.some.injEq, Ne.symm same, if_false]
          split
          · rename_i next
            rw [if_neg (h.after?_asymm next)]
          · rfl
        · simp [atFirst, atSecond]

end Spells

end Rota

end FairShare
