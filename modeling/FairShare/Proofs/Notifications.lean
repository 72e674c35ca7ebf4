import FairShare.Proofs.Listeners
import FairShare.Script.WakeEvent

/-!
# Notifications are neither lost nor doubled

A wake event keeps at most one thing for its listener: the permit of a firing that no poll has seen,
or the waker of a poll that found no permit. The history of a run tells which, whatever the code of
woken wakers fires and polls.
-/

namespace FairShare

namespace WakeEvent

open WakeEventScript (Step Reply)

/-- A wake event as a service, which everybody may call. -/
def service : Service WakeEvent Empty Step Reply where
  allows _ _ := true
  begin
    | .fire, e => (.fired, e.fire.1, callWaker e.fire.2)
    | .poll w, e => (if (e.poll w).1 then .ready else .pending, (e.poll w).2, [])
  perform t _ := nomatch t

@[simp] theorem begin_fire (e : WakeEvent) :
    service.begin .fire e = (.fired, { permit := true, waker := none }, callWaker e.waker) := rfl

theorem begin_poll_of_permit {e : WakeEvent} (permit : e.permit = true) (w : Waker) :
    service.begin (.poll w) e = (.ready, { permit := false, waker := none }, []) := by
  simp [service, poll, permit]

theorem begin_poll_of_none {e : WakeEvent} (absent : e.permit = false) (w : Waker) :
    service.begin (.poll w) e = (.pending, { e with waker := some w }, []) := by
  simp [service, poll, absent]

/-- Scripts on a wake event begin their steps as the service begins its calls. -/
theorem begin_eq (k : Step) (e : WakeEvent) :
    WakeEventScript.begin k e =
      { state := (service.begin k e).2.1
        agenda := (service.begin k e).2.2
        conclude := fun e' => (e', [], (service.begin k e).1) } := by
  cases k <;> rfl

/-- The history of a wake event. -/
abbrev History := List (Moment Empty Step Reply)

variable {s : Scene WakeEvent Empty Step Reply} {past before between after : History}

/-- The event was fired, and no poll has seen that yet. -/
def Unseen (past : History) : Prop :=
  ∃ before after, past = before ++ .made .fire .fired :: after ∧
    ∀ w, .made (.poll w) .ready ∉ after

theorem not_unseen_nil : ¬Unseen [] := by
  rintro ⟨before, after, e, -⟩
  simp at e

/-- A firing is unseen at first, and until a poll sees it. -/
theorem unseen_append_singleton_iff {m : Moment Empty Step Reply} :
    Unseen (past ++ [m]) ↔
      m = .made .fire .fired ∨ Unseen past ∧ ∀ w, m ≠ .made (.poll w) .ready := by
  constructor
  · rintro ⟨before, after, e, unseen⟩
    rcases List.eq_nil_or_concat after with rfl | ⟨after, last, rfl⟩
    · left
      exact List.singleton_inj.mp (List.append_inj' e rfl).2
    · right
      rw [List.concat_eq_append, ← List.cons_append, ← List.append_assoc] at e
      obtain ⟨old, new⟩ := List.append_inj' e rfl
      obtain rfl := List.singleton_inj.mp new
      refine ⟨⟨before, after, old, fun w member => ?_⟩, fun w seen => ?_⟩
      · exact unseen w (by simp [member])
      · exact unseen w (by simp [seen])
  · rintro (rfl | ⟨⟨before, after, rfl, unseen⟩, blind⟩)
    · exact ⟨past, [], rfl, by simp⟩
    · refine ⟨before, after ++ [m], by simp, fun w member => ?_⟩
      rcases List.mem_append.mp member with old | new
      · exact unseen w old
      · exact blind w (List.mem_singleton.mp new).symm

/-- The permit is stored exactly while a firing is unseen. -/
theorem permit_iff (run : service.Run {} s) : s.state.permit = true ↔ Unseen s.past := by
  induction run with
  | start => simp [not_unseen_nil]
  | @step v v' run move ih =>
      cases move with
      | call k =>
          rw [unseen_append_singleton_iff, ← ih]
          cases k with
          | fire => simp
          | poll w =>
              cases permit : v.state.permit with
              | true => simp [begin_poll_of_permit permit]
              | false => simp [begin_poll_of_none permit, permit]
      | @work e t => cases t
      | wake => simpa [unseen_append_singleton_iff] using ih
      | wakerEnds => exact ih
      | callEnds => exact ih

/-- While the permit is stored nobody is registered. -/
theorem waker_eq_none (run : service.Run {} s) (permit : s.state.permit = true) :
    s.state.waker = none := by
  induction run with
  | start => rfl
  | @step v v' run move ih =>
      cases move with
      | call k =>
          cases k with
          | fire => rfl
          | poll w =>
              cases stored : v.state.permit with
              | true => simp [begin_poll_of_permit stored]
              | false =>
                  simp only [begin_poll_of_none stored] at permit
                  cases stored.symm.trans permit
      | @work e t => cases t
      | wake => exact ih permit
      | wakerEnds => exact ih permit
      | callEnds => exact ih permit

/-- Who is registered after a poll with this reply; a firing settles nothing. -/
def settled : Step → Reply → Option (Option Waker)
  | .poll w, .pending => some (some w)
  | .poll _, _ => some none
  | .fire, _ => none

theorem settled_eq_some_some_iff {k : Step} {a : Reply} {w : Waker} :
    settled k a = some (some w) ↔ k = .poll w ∧ a = .pending := by
  cases k <;> cases a <;> simp [settled]

/-- A wake event keeps one listener: a poll settles who it is, and a firing calls it. -/
def listener : Listener service where
  waker := WakeEvent.waker
  settles := settled
  begin_settled k e o settles := by
    cases k with
    | fire => cases settles
    | poll w =>
        cases permit : e.permit with
        | true =>
            rw [begin_poll_of_permit permit] at settles ⊢
            exact ⟨Option.some.inj settles, [], rfl⟩
        | false =>
            rw [begin_poll_of_none permit] at settles ⊢
            exact ⟨Option.some.inj settles, [], rfl⟩
  begin_hears k e unsettled := by
    cases k with
    | fire =>
        rw [begin_fire, ← List.append_nil (callWaker e.waker)]
        exact .calls []
    | poll w =>
        cases permit : e.permit with
        | true =>
            rw [begin_poll_of_permit permit] at unsettled
            cases unsettled
        | false =>
            rw [begin_poll_of_none permit] at unsettled
            cases unsettled
  perform_hears t := nomatch t

/-! ## Who is called, and when -/

/-- Nobody has polled in this stretch of the history. -/
def Unpolled (past : History) : Prop :=
  ∀ w a, .made (.poll w) a ∉ past

theorem Unpolled.append_fire (unpolled : Unpolled between) (unpolled' : Unpolled after) :
    Unpolled (between ++ .made .fire .fired :: after) := by
  intro w a
  simp [unpolled w a, unpolled' w a]

/-- While nobody polls, who is registered is not settled anew. -/
theorem Unpolled.settled (unpolled : Unpolled past) :
    ∀ k a, .made k a ∈ past → settled k a = none := by
  intro k a member
  cases k with
  | fire => rfl
  | poll w => exact absurd member (unpolled w a)

/-- While nobody polls, a firing is unseen if it was so before or the event is fired now. -/
theorem unseen_append_iff (unpolled : Unpolled after) :
    Unseen (past ++ after) ↔ Unseen past ∨ .made .fire .fired ∈ after := by
  induction after using List.reverseRecOn with
  | nil => simp
  | append_singleton after m ih =>
      have blind (w : Waker) : m ≠ .made (.poll w) .ready := by
        rintro rfl
        exact unpolled w .ready (by simp)
      have unpolled' : Unpolled after := fun w a member =>
        unpolled w a (List.mem_append_left _ member)
      rw [← List.append_assoc, unseen_append_singleton_iff, ih unpolled', List.mem_append,
        List.mem_singleton]
      constructor
      · rintro (rfl | ⟨seen | fired, -⟩)
        · exact .inr (.inr rfl)
        · exact .inl seen
        · exact .inr (.inl fired)
      · rintro (seen | fired | rfl)
        · exact .inr ⟨.inl seen, blind⟩
        · exact .inr ⟨.inr fired, blind⟩
        · exact .inl rfl

/-- A poll is answered by whether a firing is unseen. -/
theorem poll_answer {w : Waker} {a : Reply} (run : service.Run {} s)
    (split : s.past = before ++ .made (.poll w) a :: after) :
    (a = .ready ∧ Unseen before) ∨ (a = .pending ∧ ¬Unseen before) := by
  obtain ⟨v, run', rfl, -, -, answer⟩ := run.made split
  rw [← permit_iff run', answer]
  cases permit : v.state.permit with
  | true => simp [begin_poll_of_permit permit]
  | false => simp [begin_poll_of_none permit]

/-- After a poll no firing is unseen, whatever the poll has found. -/
theorem seen_of_poll {w : Waker} {a : Reply} (run : service.Run {} s)
    (split : s.past = before ++ .made (.poll w) a :: after) :
    ¬Unseen (before ++ [.made (.poll w) a]) := by
  rw [unseen_append_singleton_iff]
  rcases poll_answer run split with ⟨rfl, -⟩ | ⟨rfl, seen⟩
  · simp
  · simp [seen]

/-- A waker is about to be called only right after a firing. -/
theorem exists_of_pending (run : service.Run {} s) (calling : s.pending ≠ []) :
    ∃ past, s.past = past ++ [.made .fire .fired] := by
  induction run with
  | start => exact absurd rfl calling
  | @step v v' run move ih =>
      have quiet := listener.quiet run
      cases move with
      | call k turn =>
          cases k with
          | fire => exact ⟨v.past, rfl⟩
          | poll w =>
              refine absurd ?_ calling
              change wakersOf [] ++ v.pending = []
              exact quiet.pending_of_usersTurn turn
      | @work e t => cases t
      | @wake e w rest below past =>
          obtain ⟨first, others⟩ := quiet _ _ rfl
          refine absurd ?_ calling
          change wakersOf rest ++ below.flatMap _ = []
          rw [show wakersOf rest = [] from first, List.flatMap_eq_nil_iff.mpr others]
          rfl
      | wakerEnds => exact ih calling
      | callEnds => exact ih calling

/-- In a stretch that follows a poll and has no firing nobody is called. -/
theorem wakings_of_unfired {w : Waker} {a : Reply} (run : service.Run {} s)
    (split : s.past = before ++ .made (.poll w) a :: (between ++ after))
    (unfired : .made .fire .fired ∉ between) : wakings between = [] := by
  apply List.filterMap_eq_nil_iff.mpr
  intro m member
  cases m with
  | made => rfl
  | worked => rfl
  | woke w' =>
      obtain ⟨mid, rest, rfl⟩ := List.append_of_mem member
      have split' : s.past =
          (before ++ .made (.poll w) a :: mid) ++ .woke w' :: (rest ++ after) := by
        simp [split]
      obtain ⟨v, agenda, below, run', past, going⟩ := run.woke split'
      obtain ⟨earlier, fired⟩ := exists_of_pending run' (by simp [Scene.pending, going,
        Ongoing.agenda])
      rw [past] at fired
      rcases List.eq_nil_or_concat mid with rfl | ⟨mid, last, rfl⟩
      · cases (List.append_inj' fired rfl).2
      · rw [List.concat_eq_append, ← List.cons_append, ← List.append_assoc] at fired
        obtain rfl := List.singleton_inj.mp (List.append_inj' fired rfl).2
        exact absurd (by simp) unfired

/-- The next firing after a poll that waits is about to call the waker of that poll. -/
theorem next_of_fire {w : Waker} (run : service.Run {} s)
    (split : s.past = before ++ .made (.poll w) .pending :: (between ++ [.made .fire .fired]))
    (unpolled : Unpolled between) (unfired : .made .fire .fired ∉ between) :
    ∃ below, s.ongoing = .call [.waking w] :: below := by
  have kept : Unpolled (between ++ [.made .fire .fired]) :=
    unpolled.append_fire fun _ _ => List.not_mem_nil
  have account := listener.account_of_registered rfl run split rfl kept.settled
  have permit : s.state.permit = true := by
    rw [permit_iff run, split, ← List.cons_append, ← List.append_assoc,
      unseen_append_singleton_iff]
    exact .inl rfl
  change _ ++ s.pending ++ s.state.waker.toList = [w] at account
  rw [waker_eq_none run permit, wakings_append_singleton,
    wakings_of_unfired run split unfired] at account
  have pending : s.pending = [w] := by simpa [Moment.waker?] using account
  obtain ⟨rest, below, going, none⟩ := (listener.quiet run).next_of_pending pending
  cases rest with
  | nil => exact ⟨below, going⟩
  | cons item rest =>
      cases item with
      | task t => cases t
      | waking w' => cases none

/-- Of two successive polls the later one finds a permit exactly if the event was fired between
them. -/
theorem poll_answer_of_fired {w w' : Waker} {a a' : Reply} (run : service.Run {} s)
    (split : s.past =
      before ++ .made (.poll w) a :: (between ++ .made (.poll w') a' :: after))
    (unpolled : Unpolled between) : a' = .ready ↔ .made .fire .fired ∈ between := by
  have seen := seen_of_poll run split
  have later : s.past = (before ++ [.made (.poll w) a] ++ between) ++
      .made (.poll w') a' :: after := by simp [split]
  have answer := poll_answer run later
  rw [unseen_append_iff unpolled] at answer
  rcases answer with ⟨rfl, unseen | fired⟩ | ⟨rfl, none⟩
  · exact absurd unseen seen
  · simp [fired]
  · simpa using fun fired => none (.inr fired)

/-- Nothing happens between a firing and the waking in it. -/
theorem woke_of_fire {w : Waker} {m : Moment Empty Step Reply} (run : service.Run {} s)
    (split : s.past =
      before ++ .made (.poll w) .pending :: (between ++ .made .fire .fired :: m :: after))
    (unpolled : Unpolled between) (unfired : .made .fire .fired ∉ between) : m = .woke w := by
  have fired : s.past =
      (before ++ .made (.poll w) .pending :: (between ++ [.made .fire .fired])) ++
        m :: after := by simp [split]
  obtain ⟨v, v', run', past, move, past'⟩ := run.exists_step fired
  obtain ⟨below, going⟩ := next_of_fire run' past unpolled unfired
  rw [move.of_waking going, past] at past'
  exact (List.singleton_inj.mp (List.append_cancel_left past')).symm

/-- After a firing the permit is stored until the next poll, and up to then the waker of the poll
that waited is the only one that is called. -/
theorem wakings_of_fire {w : Waker} (run : service.Run {} s)
    (split : s.past =
      before ++ .made (.poll w) .pending :: (between ++ .made .fire .fired :: after))
    (unpolled : Unpolled between) (unfired : .made .fire .fired ∉ between)
    (unpolled' : Unpolled after) :
    s.state.permit = true ∧ wakings after ++ s.pending = [w] := by
  have permit : s.state.permit = true := by
    rw [permit_iff run]
    exact ⟨before ++ .made (.poll w) .pending :: between, after, by simp [split],
      fun w' => unpolled' w' .ready⟩
  have later : wakings (between ++ .made .fire .fired :: after) = wakings after := by
    have none := wakings_of_unfired run split unfired
    unfold wakings at none ⊢
    rw [List.filterMap_append, none]
    rfl
  have account := listener.account_of_registered rfl run split rfl
    (unpolled.append_fire unpolled').settled
  change _ ++ s.pending ++ s.state.waker.toList = [w] at account
  rw [waker_eq_none run permit, later] at account
  exact ⟨permit, by simpa using account⟩

/-- No call in the stretch registers the waker. -/
theorem never_registers {w : Waker} (unasked : .made (.poll w) .pending ∉ after) :
    ∀ k a, .made k a ∈ after → settled k a ≠ some (some w) := by
  intro k a member settles
  obtain ⟨rfl, rfl⟩ := settled_eq_some_some_iff.mp settles
  exact unasked member

/-- A waker that is called is the one of the latest poll, which waits and has not called it yet. -/
theorem exists_of_woke {w : Waker} (run : service.Run {} s)
    (split : s.past = before ++ .woke w :: after) :
    ∃ earlier since, before = earlier ++ .made (.poll w) .pending :: since ∧ Unpolled since ∧
      wakings since = [] := by
  obtain ⟨earlier, k, a, since, e, settles, kept, uncalled⟩ :=
    Listener.exists_of_standing (listener.standing_of_woke rfl run split)
  obtain ⟨rfl, rfl⟩ := settled_eq_some_some_iff.mp settles
  refine ⟨earlier, since, e, fun w' a member => ?_, uncalled⟩
  have none := kept _ _ member
  cases a <;> cases none

/-- A wake event neither loses nor doubles a notification, whatever the code of woken wakers does. A
poll finds whether anything was fired since the last time, and a firing calls the waker that waits
once. -/
theorem notifies_once (run : service.Run {} s) :
    (∀ before w a after, s.past = before ++ .made (.poll w) a :: after →
      (a = .ready ↔ Unseen before) ∧ (a = .pending ↔ ¬Unseen before)) ∧
    (∀ before w a between w' a' after,
      s.past = before ++ .made (.poll w) a :: (between ++ .made (.poll w') a' :: after) →
      Unpolled between → (a' = .ready ↔ .made .fire .fired ∈ between)) ∧
    ¬(s.state.permit = true ∧ s.state.waker.isSome = true) ∧
    (∀ before w between after,
      s.past = before ++ .made (.poll w) .pending :: (between ++ .made .fire .fired :: after) →
      Unpolled between → .made .fire .fired ∉ between →
      wakings between = [] ∧
      (after = [] → ∃ below, s.ongoing = .call [.waking w] :: below) ∧
      (∀ m later, after = m :: later → m = .woke w) ∧
      (Unpolled after → s.state.permit = true ∧ wakings after ++ s.pending = [w] ∧
        (s.usersTurn = true → wakings after = [w]))) ∧
    (∀ before w after, s.past = before ++ .woke w :: after →
      (∃ earlier since, before = earlier ++ .made (.poll w) .pending :: since ∧ Unpolled since ∧
        wakings since = []) ∧
      (.made (.poll w) .pending ∉ after → .woke w ∉ after)) ∧
    (∀ before w between w' after,
      s.past = before ++ .made (.poll w) .pending ::
        (between ++ .made (.poll w') .pending :: after) →
      w' ≠ w → .made (.poll w) .pending ∉ after → .woke w ∉ after) := by
  refine ⟨?_, ?_, ?_, ?_, ?_, ?_⟩
  · intro before w a after split
    rcases poll_answer run split with ⟨rfl, unseen⟩ | ⟨rfl, seen⟩
    · simp [unseen]
    · simp [seen]
  · intro before w a between w' a' after split unpolled
    exact poll_answer_of_fired run split unpolled
  · rintro ⟨permit, registered⟩
    rw [waker_eq_none run permit] at registered
    cases registered
  · intro before w between after split unpolled unfired
    refine ⟨wakings_of_unfired run split unfired, ?_, ?_, ?_⟩
    · rintro rfl
      exact next_of_fire run split unpolled unfired
    · rintro m later rfl
      exact woke_of_fire run split unpolled unfired
    · intro unpolled'
      obtain ⟨permit, once⟩ := wakings_of_fire run split unpolled unfired unpolled'
      refine ⟨permit, once, fun turn => ?_⟩
      rwa [(listener.quiet run).pending_of_usersTurn turn, List.append_nil] at once
  · intro before w after split
    exact ⟨exists_of_woke run split, fun unasked =>
      listener.not_woke_again rfl run split (never_registers unasked)⟩
  · intro before w between w' after split other unasked
    rw [← List.cons_append, ← List.append_assoc] at split
    exact listener.not_woke_of_settled rfl run split rfl (fun e => other (Option.some.inj e))
      (never_registers unasked)

/-- A firing whose woken code polls, waits again with another waker, and fires. -/
theorem notifies_once_of_nested_firing :
    ∃ s : Scene WakeEvent Empty Step Reply, service.Run {} s ∧
      s.past =
        [.made (.poll (.named "a")) .pending, .made .fire .fired, .woke (.named "a"),
          .made (.poll (.named "b")) .ready, .made (.poll (.named "b")) .pending,
          .made .fire .fired, .woke (.named "b")] ∧
      s.state.permit = true ∧ s.usersTurn = true ∧
      Unseen [.made (.poll (.named "a")) .pending, .made .fire .fired, .woke (.named "a")] := by
  have fresh : service.Run {} { state := {} } := .start
  have polled := fresh.step (.call (.poll (.named "a")) rfl rfl)
  have fired := (polled.step .callEnds).step (.call .fire rfl rfl)
  have seen := (fired.step .wake).step (.call (.poll (.named "b")) rfl rfl)
  have parked := (seen.step .callEnds).step (.call (.poll (.named "b")) rfl rfl)
  have again := (parked.step .callEnds).step (.call .fire rfl rfl)
  have run := again.step .wake
  obtain ⟨answers, -, -, next, -⟩ := notifies_once run
  have seen_a := (answers [.made (.poll (.named "a")) .pending, .made .fire .fired,
    .woke (.named "a")] (.named "b") .ready _ rfl).1.mp rfl
  have wakes := next [.made (.poll (.named "a")) .pending, .made .fire .fired,
    .woke (.named "a"), .made (.poll (.named "b")) .ready] (.named "b") [] _ rfl
    (by simp [Unpolled]) (by simp)
  exact ⟨_, run, rfl, (wakes.2.2.2 (by simp [Unpolled])).1, rfl, seen_a⟩

end WakeEvent

end FairShare
