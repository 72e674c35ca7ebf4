import FairShare.Proofs.Scenes

/-!
# Listeners

A service keeps a listener when it has room for one registered waker: some calls settle who is
registered, and every other section either leaves the registered waker where it is or takes it out
and calls it before anything else. Then the history tells who is registered, and a waker that is
called is the one that was registered last.
-/

namespace FairShare

variable {σ τ κ ρ : Type} {svc : Service σ τ κ ρ}

/-- What a section does with the registered waker that it finds, if that is not settled anew. -/
inductive Hears (o : Option Waker) : Option Waker → Agenda τ → Prop
  /-- It stays registered. -/
  | leaves (tasks : List τ) : Hears o o (tasks.map .task)
  /-- It is taken out and called before anything else. -/
  | calls (tasks : List τ) : Hears o none (callWaker o ++ tasks.map .task)

theorem Hears.account {o o' : Option Waker} {a : Agenda τ} (hears : Hears o o' a) :
    wakersOf a ++ o'.toList = o.toList := by
  cases hears with
  | leaves => simp
  | calls => simp

theorem Hears.tail {o o' : Option Waker} {a : Agenda τ} (hears : Hears o o' a) :
    wakersOf a.tail = [] := by
  cases hears with
  | leaves tasks => exact wakersOf_tail (wakersOf_map_task tasks)
  | calls tasks =>
      cases o with
      | none => exact wakersOf_tail (wakersOf_map_task tasks)
      | some w => exact wakersOf_map_task tasks

/-- A service with room for one registered waker. -/
structure Listener (svc : Service σ τ κ ρ) where
  /-- The registered waker. -/
  waker : σ → Option Waker
  /-- Who is registered after a call with this answer, if the call settles that. -/
  settles : κ → ρ → Option (Option Waker)
  /-- A call that settles who is registered calls nobody. -/
  begin_settled : ∀ k x o, settles k (svc.begin k x).1 = some o →
    waker (svc.begin k x).2.1 = o ∧ ∃ tasks : List τ, (svc.begin k x).2.2 = tasks.map .task
  begin_hears : ∀ k x, settles k (svc.begin k x).1 = none →
    Hears (waker x) (waker (svc.begin k x).2.1) (svc.begin k x).2.2
  perform_hears : ∀ t x, Hears (waker x) (waker (svc.perform t x).1) (svc.perform t x).2

namespace Listener

variable {L : Listener svc} {x : σ} {s : Scene σ τ κ ρ} {past before after : List (Moment τ κ ρ)}
  {w : Waker}

/-- Who stands registered after a moment, when `o` did before it. -/
def next (L : Listener svc) (o : Option Waker) : Moment τ κ ρ → Option Waker
  | .made k a => (L.settles k a).getD o
  | .worked _ => o
  | .woke _ => none

/-- Who stands registered by the history: a waker that is called does not any more. -/
def standing (L : Listener svc) (past : List (Moment τ κ ρ)) : Option Waker :=
  past.foldl L.next none

@[simp] theorem standing_nil : L.standing [] = none := rfl

@[simp] theorem standing_append_singleton (m : Moment τ κ ρ) :
    L.standing (past ++ [m]) = L.next (L.standing past) m := by
  simp [standing]

/-- Whoever stands registered was registered by a call, and since then no call has settled that anew
and nobody was called. -/
theorem exists_of_standing (stands : L.standing past = some w) :
    ∃ before k a after, past = before ++ .made k a :: after ∧ L.settles k a = some (some w) ∧
      (∀ k' a', .made k' a' ∈ after → L.settles k' a' = none) ∧ wakings after = [] := by
  induction past using List.reverseRecOn with
  | nil => cases stands
  | append_singleton past m ih =>
      have older (stood : L.standing past = some w)
          (kept : ∀ k a, m = .made k a → L.settles k a = none) (calls : m.waker? = none) :
          ∃ before k a after, past ++ [m] = before ++ .made k a :: after ∧
            L.settles k a = some (some w) ∧
            (∀ k' a', .made k' a' ∈ after → L.settles k' a' = none) ∧ wakings after = [] := by
        obtain ⟨before, k, a, after, e, settled, unsettled, uncalled⟩ := ih stood
        refine ⟨before, k, a, after ++ [m], by simp [e], settled, ?_, by simp [uncalled, calls]⟩
        intro k' a' member
        rcases List.mem_append.mp member with old | new
        · exact unsettled k' a' old
        · exact kept k' a' (List.mem_singleton.mp new).symm
      rw [standing_append_singleton] at stands
      cases m with
      | made k a =>
          cases settled : L.settles k a with
          | none =>
              refine older (by simpa [next, settled] using stands) ?_ rfl
              rintro k' a' ⟨⟩
              exact settled
          | some o =>
              obtain rfl : o = some w := by simpa [next, settled] using stands
              exact ⟨past, k, a, [], rfl, settled, by simp, rfl⟩
      | worked t => exact older stands (fun k a e => by cases e) rfl
      | woke w' => cases stands

/-- A waker that does not stand registered does so only after a call has registered it. -/
theorem standing_ne (stood : L.standing before ≠ some w)
    (never : ∀ k a, .made k a ∈ after → L.settles k a ≠ some (some w)) :
    L.standing (before ++ after) ≠ some w := by
  induction after using List.reverseRecOn with
  | nil => rwa [List.append_nil]
  | append_singleton after m ih =>
      have past := ih fun k a member => never k a (List.mem_append_left _ member)
      rw [← List.append_assoc, standing_append_singleton]
      cases m with
      | made k a =>
          have other := never k a (by simp)
          cases settled : L.settles k a with
          | none => simpa [next, settled] using past
          | some o => simpa [next, settled] using other
      | worked t => exact past
      | woke w' => simp [next]

/-- A waker is about to be called only by the innermost call. -/
theorem quiet (L : Listener svc) (run : svc.Run x s) : s.Quiet := by
  refine run.quiet (fun k y => ?_) fun t y => (L.perform_hears t y).tail
  cases settled : L.settles k (svc.begin k y).1 with
  | none => exact (L.begin_hears k y settled).tail
  | some o =>
      obtain ⟨-, tasks, e⟩ := L.begin_settled k y o settled
      rw [e]
      exact wakersOf_tail (wakersOf_map_task tasks)

/-- The waker that stands registered in the history is registered, or is about to be called. -/
theorem account (L : Listener svc) (free : L.waker x = none) (run : svc.Run x s) :
    s.pending ++ (L.waker s.state).toList = (L.standing s.past).toList := by
  induction run with
  | start => simp [Scene.pending, free]
  | @step v v' run move ih =>
      have quiet := L.quiet run
      cases move with
      | call k turn allowed =>
          have none := quiet.pending_of_usersTurn turn
          rw [none, List.nil_append] at ih
          change wakersOf (svc.begin k v.state).2.2 ++ v.pending ++ _ = _
          rw [none, List.append_nil, standing_append_singleton, next]
          cases settled : L.settles k (svc.begin k v.state).1 with
          | none => exact (L.begin_hears k v.state settled).account.trans ih
          | some o =>
              obtain ⟨registered, tasks, e⟩ := L.begin_settled k v.state o settled
              rw [e, wakersOf_map_task, registered]
              rfl
      | @work y t rest below past =>
          obtain ⟨first, others⟩ := quiet _ _ rfl
          have none : below.flatMap (fun o => wakersOf o.agenda) = [] :=
            List.flatMap_eq_nil_iff.mpr others
          change wakersOf rest = [] at first
          change wakersOf rest ++ below.flatMap _ ++ _ = _ at ih
          change wakersOf ((svc.perform t y).2 ++ rest) ++ below.flatMap _ ++ _ = _
          rw [first, none, List.append_nil, List.nil_append] at ih
          rw [none, List.append_nil, wakersOf_append, first, List.append_nil,
            standing_append_singleton]
          exact (L.perform_hears t y).account.trans ih
      | @wake y w rest below past =>
          change w :: (wakersOf rest ++ below.flatMap _ ++ _) = _ at ih
          change wakersOf rest ++ below.flatMap _ ++ _ = _
          rw [standing_append_singleton]
          cases stands : L.standing past with
          | none =>
              rw [stands] at ih
              cases ih
          | some w' =>
              rw [stands] at ih
              exact (List.cons.inj ih).2
      | wakerEnds => exact ih
      | callEnds => exact ih

/-- A waker that is called stood registered. -/
theorem standing_of_woke (L : Listener svc) (free : L.waker x = none) (run : svc.Run x s)
    (split : s.past = before ++ .woke w :: after) : L.standing before = some w := by
  obtain ⟨v, rest, below, run', rfl, going⟩ := run.woke split
  have account := L.account free run'
  cases stands : L.standing v.past with
  | none => simp [Scene.pending, going, stands, Ongoing.agenda] at account
  | some w' =>
      simp [Scene.pending, going, stands, Ongoing.agenda] at account
      rw [account.1]

/-- A waker that does not stand registered is not called before a call has registered it. -/
theorem not_woke (L : Listener svc) (free : L.waker x = none) (run : svc.Run x s)
    (split : s.past = before ++ after) (stood : L.standing before ≠ some w)
    (never : ∀ k a, .made k a ∈ after → L.settles k a ≠ some (some w)) : .woke w ∉ after := by
  intro member
  obtain ⟨mid, rest, rfl⟩ := List.append_of_mem member
  have called : s.past = (before ++ mid) ++ .woke w :: rest := by simp [split]
  have stands := L.standing_of_woke free run called
  exact standing_ne stood (fun k a made => never k a (List.mem_append_left _ made)) stands

/-- A waker that was called is not called again before a call has registered it. -/
theorem not_woke_again (L : Listener svc) (free : L.waker x = none) (run : svc.Run x s)
    (split : s.past = before ++ .woke w :: after)
    (never : ∀ k a, .made k a ∈ after → L.settles k a ≠ some (some w)) : .woke w ∉ after := by
  have called : s.past = (before ++ [.woke w]) ++ after := by simp [split]
  exact L.not_woke free run called (by simp [next]) never

/-- A waker is not called after a call that settles otherwise, before a call has registered it. -/
theorem not_woke_of_settled {k : κ} {a : ρ} {o : Option Waker} (L : Listener svc)
    (free : L.waker x = none) (run : svc.Run x s) (split : s.past = before ++ .made k a :: after)
    (settled : L.settles k a = some o) (other : o ≠ some w)
    (never : ∀ k a, .made k a ∈ after → L.settles k a ≠ some (some w)) : .woke w ∉ after := by
  have made : s.past = (before ++ [.made k a]) ++ after := by simp [split]
  refine L.not_woke free run made ?_ never
  rwa [standing_append_singleton, next, settled]

/-- From the call that registers it on, and until a call settles anew who is registered, a waker is
in one of three places: called once, about to be called, or registered. -/
theorem account_of_registered {k : κ} {a : ρ} (L : Listener svc) (free : L.waker x = none)
    (run : svc.Run x s) (split : s.past = before ++ .made k a :: after)
    (settled : L.settles k a = some (some w))
    (kept : ∀ k' a', .made k' a' ∈ after → L.settles k' a' = none) :
    wakings after ++ s.pending ++ (L.waker s.state).toList = [w] := by
  -- a waking in the stretch is of the waker that stands, and leaves nobody standing
  have stretch : ∀ mid rest, after = mid ++ rest →
      wakings mid ++ (L.standing (before ++ [.made k a] ++ mid)).toList = [w] := by
    intro mid
    induction mid using List.reverseRecOn with
    | nil =>
        intro rest _
        rw [List.append_nil, standing_append_singleton, next, settled]
        rfl
    | append_singleton mid m ih =>
        intro rest e
        rw [List.append_assoc] at e
        have past := ih _ e
        have member : m ∈ after := by simp [e]
        rw [← List.append_assoc, standing_append_singleton, wakings_append_singleton]
        cases m with
        | made k' a' =>
            rw [next, kept k' a' member]
            simpa [Moment.waker?] using past
        | worked t => simpa [Moment.waker?, next] using past
        | woke w' =>
            have called : s.past = (before ++ [.made k a] ++ mid) ++ .woke w' :: rest := by
              simp [split, e]
            rw [L.standing_of_woke free run called] at past
            simpa [Moment.waker?, next] using past
  have all := stretch after [] (List.append_nil _).symm
  have account := L.account free run
  rw [split, ← List.singleton_append, ← List.append_assoc] at account
  rw [List.append_assoc, account]
  exact all

end Listener

end FairShare
