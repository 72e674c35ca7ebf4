import FairShare.Proofs.Exchanges
import FairShare.Proofs.Listeners

/-!
# A waiting receiver is woken once

A poll that finds nothing registers its waker. Storing a value, letting the sender go and dropping
the receiver each end that registration, and a poll can make a new one between the first two. The
invariant that makes this work is that nobody is registered while there is something to see.
-/

namespace FairShare

namespace Exchange

variable {α : Type} {s : Scene (Exchange α) Task (Call α) (Answer α)}
  {before between after : History α}

/-- Letting the sender go calls the registered waker, unless a value waits. -/
theorem hears_closeSender (c : Handoff α) :
    Hears c.waker c.closeSender.1.waker (callWaker c.closeSender.2 : Agenda Task) := by
  unfold Handoff.closeSender
  split
  · exact .leaves []
  · rw [← List.append_nil (callWaker _)]
    exact .calls []

/-- Who is registered after a call with this answer: a poll that waits registers its waker, and
dropping the receiver ends every registration. -/
def settled : Call α → Answer α → Option (Option Waker)
  | .poll w, .received .pending => some (some w)
  | .dropReceiver, _ => some none
  | _, _ => none

theorem settled_eq_some_some_iff {k : Call α} {a : Answer α} {w : Waker} :
    settled k a = some (some w) ↔ k = .poll w ∧ a = .received .pending := by
  unfold settled
  split <;> grind

/-- A channel keeps one listener. -/
def listener : Listener (service (α := α)) where
  waker x := x.channel.waker
  settles := settled
  begin_settled k x o settles := by
    have sec := begins k x
    generalize service.begin k x = r at sec settles ⊢
    cases sec with
    | waits w => exact ⟨Option.some.inj settles, [], rfl⟩
    | dropReceiver => exact ⟨Option.some.inj settles, [], rfl⟩
    | _ => cases settles
  begin_hears k x unsettled := by
    have sec := begins k x
    generalize service.begin k x = r at sec unsettled ⊢
    cases sec with
    | returned => exact .leaves [Task.closeSender]
    | sent => exact .calls [Task.closeSender]
    | dropSender => exact hears_closeSender x.channel
    | yields => exact .leaves []
    | closed => exact .leaves []
    | look => exact .leaves []
    | _ => cases unsettled
  perform_hears t x := by
    cases t
    exact hears_closeSender x.channel

/-- Nobody is registered while there is something to see, or nobody to see it. -/
def Watched (c : Handoff α) : Prop :=
  ∀ w, c.waker = some w → c.value = none ∧ c.senderGone = false ∧ c.receiverGone = false

/-- Letting the sender go leaves nobody registered, also where it calls nobody. -/
theorem Watched.closeSender {c : Handoff α} (watched : Watched c) :
    c.closeSender.1.waker = none := by
  unfold Handoff.closeSender
  split
  · rename_i ready
    change c.waker = none
    cases registered : c.waker with
    | none => rfl
    | some w => simp [(watched w registered).1] at ready
  · rfl

theorem watched (run : service.Run {} s) : Watched s.state.channel := by
  induction run with
  | start =>
      intro w registered
      cases registered
  | @step v v' run move ih =>
      cases move with
      | call k turn allowed =>
          have held := (accounted run).1.held
          have sec := begins k v.state
          generalize service.begin k v.state = r at sec ⊢
          intro w registered
          cases sec with
          | returned => exact ih w registered
          | sent => cases registered
          | dropSender => cases ih.closeSender.symm.trans registered
          | yields w' stored => cases (ih w registered).1.symm.trans stored
          | closed => exact ih w registered
          | waits w' empty there =>
              rw [show v.state.receiverHeld = true from allowed] at held
              exact ⟨empty, there, by simpa using held.symm⟩
          | look => exact ih w registered
          | dropReceiver => cases registered
      | @work x t =>
          cases t
          intro w registered
          cases ih.closeSender.symm.trans registered
      | wake => exact ih
      | wakerEnds => exact ih
      | callEnds => exact ih

/-- No poll has begun to wait in this stretch of the history, and the receiver was not dropped. -/
def Unsettled (past : History α) : Prop :=
  (∀ w, .made (.poll w) (.received .pending) ∉ past) ∧ ¬ReceiverLeft past

theorem unsettled_iff : Unsettled after ↔ ∀ k a, .made k a ∈ after → settled k a = none := by
  constructor
  · rintro ⟨unasked, there⟩ k a member
    unfold settled
    split
    · exact absurd member (unasked _)
    · exact absurd ⟨a, member⟩ there
    · rfl
  · intro kept
    refine ⟨fun w member => ?_, fun ⟨a, member⟩ => ?_⟩
    · cases kept _ _ member
    · cases kept _ _ member

/-- No call in the stretch registers the waker. -/
theorem never_registers {w : Waker} (unasked : .made (.poll w) (.received .pending) ∉ after) :
    ∀ k a, .made k a ∈ after → settled k a ≠ some (some w) := by
  intro k a member settles
  obtain ⟨rfl, rfl⟩ := settled_eq_some_some_iff.mp settles
  exact unasked member

/-- A waker that is called is the one of the latest poll that waits, and was not called since. -/
theorem exists_of_woke {w : Waker} (run : service.Run {} s)
    (split : s.past = before ++ .woke w :: after) :
    ∃ earlier since, before = earlier ++ .made (.poll w) (.received .pending) :: since ∧
      Unsettled since ∧ wakings since = [] := by
  obtain ⟨earlier, k, a, since, e, settles, kept, uncalled⟩ :=
    Listener.exists_of_standing (listener.standing_of_woke rfl run split)
  obtain ⟨rfl, rfl⟩ := settled_eq_some_some_iff.mp settles
  exact ⟨earlier, since, e, unsettled_iff.mpr kept, uncalled⟩

/-- When there is something to see, the waker of the poll that waited last was called or is called
next. -/
theorem woken_of_ready {w : Waker} (run : service.Run {} s)
    (split : s.past = before ++ .made (.poll w) (.received .pending) :: after)
    (unsettled : Unsettled after)
    (ready : (s.state.channel.isReady || s.state.channel.isClosed) = true) :
    s.state.channel.waker = none ∧ wakings after ++ s.pending = [w] := by
  have account := listener.account_of_registered rfl run split rfl (unsettled_iff.mp unsettled)
  have none : s.state.channel.waker = none := by
    cases registered : s.state.channel.waker with
    | none => rfl
    | some w' =>
        obtain ⟨empty, there, -⟩ := watched run w' registered
        simp [Handoff.isReady, Handoff.isClosed, empty, there] at ready
  change _ ++ s.state.channel.waker.toList = [w] at account
  exact ⟨none, by simpa [none] using account⟩

/-- A receiver that waits is woken exactly once when there is something to see, whatever the code of
woken wakers does. So nobody sleeps on a channel that is ready or closed, and nobody is called for a
registration that another poll has replaced. -/
theorem wakes_receiver_once (run : service.Run {} s) :
    (∀ w, s.state.channel.waker = some w → s.state.channel.value = none ∧
      s.state.channel.senderGone = false ∧ s.state.channel.receiverGone = false) ∧
    (SenderLeft s.past → s.state.channel.waker = none) ∧
    (s.state.channel.isReady = true → s.state.channel.closeSender.2 = none ∧
      s.state.channel.closeSender.1.waker = none) ∧
    (∀ before w after, s.past = before ++ .made (.poll w) (.received .pending) :: after →
      Unsettled after →
      wakings after ++ s.pending ++ s.state.channel.waker.toList = [w] ∧
      ((s.state.channel.isReady || s.state.channel.isClosed) = true →
        s.state.channel.waker = none ∧ wakings after ++ s.pending = [w] ∧
        (s.usersTurn = true → wakings after = [w]) ∧
        (wakings after ≠ [w] →
          ∃ rest below, s.ongoing = .call (.waking w :: rest) :: below))) ∧
    (∀ before w after, s.past = before ++ .woke w :: after →
      (∃ earlier since, before = earlier ++ .made (.poll w) (.received .pending) :: since ∧
        Unsettled since ∧ wakings since = []) ∧
      (.made (.poll w) (.received .pending) ∉ after → .woke w ∉ after)) ∧
    (∀ before w between w' after,
      s.past = before ++ .made (.poll w) (.received .pending) ::
        (between ++ .made (.poll w') (.received .pending) :: after) →
      w' ≠ w → .made (.poll w) (.received .pending) ∉ after → .woke w ∉ after) := by
  have watched := watched run
  refine ⟨watched, ?_, ?_, ?_, ?_, ?_⟩
  · intro left
    cases registered : s.state.channel.waker with
    | none => rfl
    | some w =>
        have gone := (accounted run).1.sender.mpr left
        cases (watched w registered).2.1.symm.trans gone
  · intro ready
    refine ⟨?_, watched.closeSender⟩
    simp [Handoff.closeSender, show s.state.channel.value.isSome = true from ready]
  · intro before w after split unsettled
    refine ⟨listener.account_of_registered rfl run split rfl (unsettled_iff.mp unsettled),
      fun ready => ?_⟩
    obtain ⟨none, once⟩ := woken_of_ready run split unsettled ready
    have quiet := listener.quiet run
    refine ⟨none, once, fun turn => ?_, fun uncalled => ?_⟩
    · rwa [quiet.pending_of_usersTurn turn, List.append_nil] at once
    · rcases List.append_eq_singleton_iff.mp once with ⟨-, pending⟩ | ⟨called, -⟩
      · obtain ⟨rest, below, going, -⟩ := quiet.next_of_pending pending
        exact ⟨rest, below, going⟩
      · exact absurd called uncalled
  · intro before w after split
    exact ⟨exists_of_woke run split, fun unasked =>
      listener.not_woke_again rfl run split (never_registers unasked)⟩
  · intro before w between w' after split other unasked
    rw [← List.cons_append, ← List.append_assoc] at split
    exact listener.not_woke_of_settled rfl run split rfl (fun e => other (Option.some.inj e))
      (never_registers unasked)

/-- A waker that waits again inside a send, and is called when the sender leaves. -/
theorem wakes_receiver_once_of_waiting_again :
    ∃ s : Scene (Exchange Int) Task (Call Int) (Answer Int), service.Run {} s ∧
      s.past =
        [.made (.poll (.named "a")) (.received .pending), .made (.send 7) .sent,
          .woke (.named "a"), .made (.poll (.named "b")) (.received (.value 7)),
          .made (.poll (.named "b")) (.received .pending), .worked .closeSender,
          .woke (.named "b")] ∧
      (s.state.channel.isReady || s.state.channel.isClosed) = true ∧
      Unsettled (α := Int) [.worked .closeSender, .woke (.named "b")] ∧
      s.state.channel.waker = none := by
  have fresh : (service (α := Int)).Run {} { state := {} } := .start
  have polled := fresh.step (.call (.poll (.named "a")) rfl rfl)
  have sending := (polled.step .callEnds).step (.call (.send 7) rfl rfl)
  have yielding := (sending.step .wake).step (.call (.poll (.named "b")) rfl rfl)
  have waiting := (yielding.step .callEnds).step (.call (.poll (.named "b")) rfl rfl)
  have leaving := ((waiting.step .callEnds).step .wakerEnds).step .work
  have run := leaving.step .wake
  have unsettled : Unsettled (α := Int) [.worked .closeSender, .woke (.named "b")] := by
    simp [Unsettled, ReceiverLeft]
  obtain ⟨-, -, -, registered, -⟩ := wakes_receiver_once run
  have closed := (registered [.made (.poll (.named "a")) (.received .pending),
    .made (.send 7) .sent, .woke (.named "a"), .made (.poll (.named "b")) (.received (.value 7))]
    (.named "b") [.worked .closeSender, .woke (.named "b")] rfl unsettled).2 rfl
  exact ⟨_, run, rfl, rfl, unsettled, closed.1⟩

end Exchange

end FairShare
