import FairShare.Proofs.Scenes
import FairShare.Script.Exchange

/-!
# A value on a channel is in one place

Sending stores the value, calls the receiver's waker, and only then marks the sender as gone.
Between these sections the code of the waker may poll, wait again, or drop the receiver. The history
of a run tells where the value is at every time, whatever that code does.
-/

namespace FairShare

namespace Exchange

variable {α : Type}

/-- A call on one of the ends. -/
inductive Call (α : Type) where
  | send (v : α)
  | dropSender
  | poll (w : Waker)
  /-- Asks whether a value waits, and whether the channel is closed. -/
  | look
  | dropReceiver

/-- The answer of a call. -/
inductive Answer (α : Type) where
  | sent
  /-- The receiver was gone; the value came back. -/
  | returned (v : α)
  | dropped
  | received (r : Received α)
  | seen (ready closed : Bool)
  /-- The receiver went, with the value that it had not yielded. -/
  | left (value : Option α)

/-- A channel as a service for whoever holds its ends. -/
def service : Service (Exchange α) Task (Call α) (Answer α) where
  allows
    | .send _, x | .dropSender, x => x.senderHeld
    | .poll _, x | .look, x | .dropReceiver, x => x.receiverHeld
  begin
    | .send v, x => (if (x.send v).1 then .sent else .returned v, (x.send v).2)
    | .dropSender, x => (.dropped, x.dropSender)
    | .poll w, x => (.received (x.poll w).1, (x.poll w).2, [])
    | .look, x => (.seen x.channel.isReady x.channel.isClosed, x, [])
    | .dropReceiver, x => (.left x.channel.dropReceiver.1, x.dropReceiver, [])
  perform := Exchange.perform

/-! ## Scripts -/

/-- The call that a step of a script makes. -/
def callOf : ExchangeScript.Step → Call Int
  | .send v => .send v
  | .dropSender => .dropSender
  | .dropReceiver => .dropReceiver
  | .poll w => .poll w
  | .info => .look

/-- The reply of a script to an answer. -/
def replyOf : Answer Int → ExchangeScript.Reply
  | .sent => .sent
  | .returned v => .disconnected v
  | .dropped => .dropped
  | .received r => .received r
  | .seen ready closed => .info ready closed
  | .left _ => .dropped

/-- Scripts on a channel begin their steps as the service begins its calls. -/
theorem begin_eq (k : ExchangeScript.Step) (x : Exchange Int) :
    ExchangeScript.begin k x =
      if service.allows (callOf k) x then
        { state := (service.begin (callOf k) x).2.1
          agenda := (service.begin (callOf k) x).2.2
          conclude := fun x' => (x', [], replyOf (service.begin (callOf k) x).1) }
      else .atOnce x .missing := by
  cases k with
  | send v =>
      cases delivered : (x.send v).1 <;>
        simp [ExchangeScript.begin, service, callOf, replyOf, delivered]
  | dropSender => rfl
  | dropReceiver => rfl
  | poll w => rfl
  | info => rfl

/-! ## What the sections do -/

/-- What the first section of a call can do, with its answer, the state after it, and its agenda. -/
inductive Begins : Call α → Exchange α → Answer α × Exchange α × Agenda Task → Prop
  | returned {x : Exchange α} (v : α) (gone : x.channel.receiverGone = true) :
      Begins (.send v) x
        (.returned v, { x with senderHeld := false, destroyed := x.destroyed ++ [v] },
          [.task .closeSender])
  | sent {x : Exchange α} (v : α) (there : x.channel.receiverGone = false) :
      Begins (.send v) x
        (.sent,
          { x with
            channel := { x.channel with value := some v, waker := none }
            senderHeld := false },
          callWaker x.channel.waker ++ [.task .closeSender])
  | dropSender {x : Exchange α} :
      Begins .dropSender x
        (.dropped, { x with channel := x.channel.closeSender.1, senderHeld := false },
          callWaker x.channel.closeSender.2)
  | yields {x : Exchange α} {v : α} (w : Waker) (stored : x.channel.value = some v) :
      Begins (.poll w) x
        (.received (.value v),
          { x with
            channel := { x.channel with value := none }
            destroyed := x.destroyed ++ [v] },
          [])
  | closed {x : Exchange α} (w : Waker) (empty : x.channel.value = none)
      (gone : x.channel.senderGone = true) :
      Begins (.poll w) x (.received .closed, x, [])
  | waits {x : Exchange α} (w : Waker) (empty : x.channel.value = none)
      (there : x.channel.senderGone = false) :
      Begins (.poll w) x
        (.received .pending, { x with channel := { x.channel with waker := some w } }, [])
  | look {x : Exchange α} :
      Begins .look x (.seen x.channel.isReady x.channel.isClosed, x, [])
  | dropReceiver {x : Exchange α} :
      Begins .dropReceiver x
        (.left x.channel.value,
          { x with
            channel := { x.channel with value := none, receiverGone := true, waker := none }
            receiverHeld := false
            destroyed := x.destroyed ++ x.channel.value.toList },
          [])

theorem begins (k : Call α) (x : Exchange α) : Begins k x (service.begin k x) := by
  cases k with
  | send v =>
      cases receiver : x.channel.receiverGone with
      | true => simpa [service, send, destroy, receiver] using Begins.returned v receiver
      | false => simpa [service, send, Handoff.store, receiver] using Begins.sent v receiver
  | dropSender => exact .dropSender
  | poll w =>
      cases stored : x.channel.value with
      | some v =>
          simpa [service, poll, Handoff.poll, destroy, stored] using Begins.yields w stored
      | none =>
          cases sender : x.channel.senderGone with
          | true =>
              simpa [service, poll, Handoff.poll, stored, sender]
                using Begins.closed w stored sender
          | false =>
              simpa [service, poll, Handoff.poll, stored, sender]
                using Begins.waits w stored sender
  | look => exact .look
  | dropReceiver =>
      have drop := Begins.dropReceiver (x := x)
      cases stored : x.channel.value <;>
        simpa [service, dropReceiver, Handoff.dropReceiver, destroy, stored] using drop

theorem perform_closeSender (x : Exchange α) :
    service.perform .closeSender x =
      ({ x with channel := x.channel.closeSender.1 }, callWaker x.channel.closeSender.2) := rfl

section Closing
variable (c : Handoff α)

@[simp] theorem closeSender_value : c.closeSender.1.value = c.value := by
  unfold Handoff.closeSender
  split <;> rfl

@[simp] theorem closeSender_senderGone : c.closeSender.1.senderGone = true := by
  unfold Handoff.closeSender
  split <;> rfl

@[simp] theorem closeSender_receiverGone : c.closeSender.1.receiverGone = c.receiverGone := by
  unfold Handoff.closeSender
  split <;> rfl

end Closing

/-! ## What the history says -/

/-- The history of a channel. -/
abbrev History (α : Type) := List (Moment Task (Call α) (Answer α))

/-- The value that was passed to a send at a moment. -/
@[simp] def passedAt : Moment Task (Call α) (Answer α) → Option α
  | .made (.send v) _ => some v
  | _ => none

/-- The value that came back from a send. -/
@[simp] def returnedAt : Moment Task (Call α) (Answer α) → Option α
  | .made (.send _) (.returned v) => some v
  | _ => none

/-- The value that a poll yielded. -/
@[simp] def yieldedAt : Moment Task (Call α) (Answer α) → Option α
  | .made (.poll _) (.received (.value v)) => some v
  | _ => none

/-- The value that went with the receiver. -/
@[simp] def lostAt : Moment Task (Call α) (Answer α) → Option α
  | .made .dropReceiver (.left value) => value
  | _ => none

/-- The values that were passed to a send. -/
def passed (past : History α) : List α := past.filterMap passedAt

/-- The values that came back from a send. -/
def returned (past : History α) : List α := past.filterMap returnedAt

/-- The values that polls yielded. -/
def yielded (past : History α) : List α := past.filterMap yieldedAt

/-- The values that went with the receiver. -/
def lost (past : History α) : List α := past.filterMap lostAt

/-- The sender was dropped, or let go after a send and the waking in it. -/
def SenderLeft (past : History α) : Prop :=
  (∃ a, .made .dropSender a ∈ past) ∨ .worked .closeSender ∈ past

/-- The receiver was dropped. -/
def ReceiverLeft (past : History α) : Prop :=
  ∃ a, .made .dropReceiver a ∈ past

/-- A value was passed to a send and has not come out of the channel since. -/
def Stored (past : History α) (v : α) : Prop :=
  passed past = [v] ∧ returned past = [] ∧ yielded past = [] ∧ lost past = []

section Moments
variable {past : History α} {m : Moment Task (Call α) (Answer α)}

@[simp] theorem passed_append_singleton :
    passed (past ++ [m]) = passed past ++ (passedAt m).toList :=
  filterMap_append_singleton ..

@[simp] theorem returned_append_singleton :
    returned (past ++ [m]) = returned past ++ (returnedAt m).toList :=
  filterMap_append_singleton ..

@[simp] theorem yielded_append_singleton :
    yielded (past ++ [m]) = yielded past ++ (yieldedAt m).toList :=
  filterMap_append_singleton ..

@[simp] theorem lost_append_singleton :
    lost (past ++ [m]) = lost past ++ (lostAt m).toList :=
  filterMap_append_singleton ..

theorem senderLeft_append_singleton_iff :
    SenderLeft (past ++ [m]) ↔
      SenderLeft past ∨ (∃ a, m = .made .dropSender a) ∨ m = .worked .closeSender := by
  simp only [SenderLeft, List.mem_append, List.mem_singleton]
  grind

theorem receiverLeft_append_singleton_iff :
    ReceiverLeft (past ++ [m]) ↔ ReceiverLeft past ∨ ∃ a, m = .made .dropReceiver a := by
  simp only [ReceiverLeft, List.mem_append, List.mem_singleton]
  grind

end Moments

/-- The history tells which ends are gone. -/
structure Attended (x : Exchange α) (past : History α) : Prop where
  sender : x.channel.senderGone = true ↔ SenderLeft past
  receiver : x.channel.receiverGone = true ↔ ReceiverLeft past
  held : x.receiverHeld = !x.channel.receiverGone

/-- The history tells where a value is. -/
structure Accounted (x : Exchange α) (past : History α) : Prop where
  /-- Whoever holds the sender has not used it. -/
  unused : x.senderHeld = true → passed past = [] ∧ x.channel.senderGone = false
  once : (passed past).length ≤ 1
  /-- A value that was passed to a send came back, is in the channel, was yielded or was lost. -/
  places : passed past =
    returned past ++ x.channel.value.toList ++ yielded past ++ lost past
  /-- Users destroy what they get, and what the receiver takes with it is destroyed. -/
  destroyed : passed past = x.destroyed ++ x.channel.value.toList
  /-- A channel holds no value without its receiver. -/
  empty : x.channel.receiverGone = true → x.channel.value = none
  /-- Values come back and are lost only without the receiver. -/
  kept : x.channel.receiverGone = false → returned past = [] ∧ lost past = []

section Accounts
variable {x : Exchange α} {past : History α} {v : α}

theorem Attended.begin (att : Attended x past) (k : Call α) :
    Attended (service.begin k x).2.1 (past ++ [.made k (service.begin k x).1]) := by
  have sec := begins k x
  generalize service.begin k x = r at sec ⊢
  -- only the calls that drop an end change which ends are there
  cases sec <;> constructor <;>
    simp [senderLeft_append_singleton_iff, receiverLeft_append_singleton_iff, att.sender,
      att.receiver, att.held]

theorem Attended.perform (att : Attended x past) (t : Task) :
    Attended (service.perform t x).1 (past ++ [.worked t]) := by
  cases t
  rw [perform_closeSender]
  constructor <;> simp [senderLeft_append_singleton_iff, receiverLeft_append_singleton_iff,
    att.receiver, att.held]

theorem Attended.woke (att : Attended x past) (w : Waker) :
    Attended x (past ++ [.woke w]) := by
  constructor <;> simp [senderLeft_append_singleton_iff, receiverLeft_append_singleton_iff,
    att.sender, att.receiver, att.held]

/-- While nothing was passed to a send, nothing is anywhere. -/
theorem Accounted.of_passed_eq_nil (acc : Accounted x past) (none : passed past = []) :
    returned past = [] ∧ x.channel.value = .none ∧ yielded past = [] ∧ lost past = [] ∧
      x.destroyed = [] := by
  have places := acc.places
  have destroyed := acc.destroyed
  rw [none] at places destroyed
  simp at places destroyed
  exact ⟨places.1, places.2.1, places.2.2.1, places.2.2.2, destroyed.1⟩

/-- A value in the channel is nowhere else. -/
theorem Accounted.stored_iff (acc : Accounted x past) :
    x.channel.value = some v ↔ Stored past v := by
  have places := acc.places
  constructor
  · intro stored
    have once := acc.once
    rw [places, stored] at once
    simp only [List.length_append, Option.toList_some, List.length_singleton] at once
    have returned : returned past = [] := List.eq_nil_of_length_eq_zero (by omega)
    have yielded : yielded past = [] := List.eq_nil_of_length_eq_zero (by omega)
    have lost : lost past = [] := List.eq_nil_of_length_eq_zero (by omega)
    exact ⟨by simp [places, stored, returned, yielded, lost], returned, yielded, lost⟩
  · rintro ⟨passed, returned, yielded, lost⟩
    rw [passed, returned, yielded, lost] at places
    cases stored : x.channel.value <;> simp_all

/-- What moves no value keeps the account. -/
theorem Accounted.still {x' : Exchange α} {past' : History α} (acc : Accounted x past)
    (value : x'.channel.value = x.channel.value) (destroyed : x'.destroyed = x.destroyed)
    (receiver : x'.channel.receiverGone = x.channel.receiverGone)
    (sender : x'.senderHeld = true → x.senderHeld = true ∧
      x'.channel.senderGone = x.channel.senderGone)
    (same : passed past' = passed past ∧ returned past' = returned past ∧
      yielded past' = yielded past ∧ lost past' = lost past) : Accounted x' past' := by
  obtain ⟨passed, returned, yielded, lost⟩ := same
  constructor
  · intro held
    obtain ⟨before, there⟩ := sender held
    rw [passed, there]
    exact acc.unused before
  · rw [passed]
    exact acc.once
  · rw [passed, returned, yielded, lost, value]
    exact acc.places
  · rw [passed, value, destroyed]
    exact acc.destroyed
  · rw [value, receiver]
    exact acc.empty
  · rw [returned, lost, receiver]
    exact acc.kept

theorem Accounted.begin (acc : Accounted x past) (k : Call α)
    (allowed : service.allows k x = true) (held : x.receiverHeld = !x.channel.receiverGone) :
    Accounted (service.begin k x).2.1 (past ++ [.made k (service.begin k x).1]) := by
  have sec := begins k x
  generalize service.begin k x = r at sec ⊢
  cases sec with
  | returned v gone =>
      obtain ⟨none, -⟩ := acc.unused allowed
      obtain ⟨returned, value, yielded, lost, destroyed⟩ := acc.of_passed_eq_nil none
      constructor <;> simp [none, returned, value, yielded, lost, destroyed, gone]
  | sent v there =>
      obtain ⟨none, -⟩ := acc.unused allowed
      obtain ⟨returned, -, yielded, lost, destroyed⟩ := acc.of_passed_eq_nil none
      constructor <;> simp [none, returned, yielded, lost, destroyed, there]
  | dropSender => exact acc.still (by simp) rfl (by simp) (by simp) (by simp)
  | yields w stored =>
      obtain ⟨passed, returned, yielded, lost⟩ := acc.stored_iff.mp stored
      have destroyed : x.destroyed = [] := by simpa [passed, stored] using acc.destroyed
      have used : x.senderHeld = false := by
        by_contra unused
        simpa [passed] using (acc.unused (by simpa using unused)).1
      constructor <;> simp [passed, returned, yielded, lost, destroyed, used]
  | closed => exact acc.still rfl rfl rfl (fun held => ⟨held, rfl⟩) (by simp)
  | waits => exact acc.still rfl rfl rfl (fun held => ⟨held, rfl⟩) (by simp)
  | look => exact acc.still rfl rfl rfl (fun held => ⟨held, rfl⟩) (by simp)
  | dropReceiver =>
      have there : x.channel.receiverGone = false := by
        rw [show x.receiverHeld = true from allowed] at held
        simpa using held.symm
      obtain ⟨returned, lost⟩ := acc.kept there
      have places := acc.places
      have yielded : x.channel.value = none ∨ yielded past = [] := by
        cases stored : x.channel.value with
        | none => exact .inl rfl
        | some v => exact .inr (acc.stored_iff.mp stored).2.2.1
      constructor
      · simpa using acc.unused
      · simpa using acc.once
      · rw [returned, lost] at places
        rcases yielded with none | none <;> simp [returned, lost, places, none]
      · simpa using acc.destroyed
      · simp
      · simp

theorem Accounted.perform (acc : Accounted x past) (unheld : x.senderHeld = false) (t : Task) :
    Accounted (service.perform t x).1 (past ++ [.worked t]) := by
  cases t
  exact acc.still (by simp [perform_closeSender]) rfl (by simp [perform_closeSender])
    (fun held => absurd held (by simp [perform_closeSender, unheld])) (by simp)

theorem Accounted.woke (acc : Accounted x past) (w : Waker) : Accounted x (past ++ [.woke w]) :=
  acc.still rfl rfl rfl (fun held => ⟨held, rfl⟩) (by simp)

end Accounts

/-! ## Every run -/

variable {s : Scene (Exchange α) Task (Call α) (Answer α)} {past before after : History α}

/-- A sender that is about to be let go is in nobody's hands. -/
theorem senderHeld_of_task (run : service.Run {} s) {o : Ongoing Task} (going : o ∈ s.ongoing)
    (task : .task .closeSender ∈ o.agenda) : s.state.senderHeld = false := by
  induction run generalizing o with
  | start => cases going
  | @step v v' run move ih =>
      cases move with
      | call k turn allowed =>
          have sec := begins k v.state
          generalize service.begin k v.state = r at sec going ⊢
          rcases List.mem_cons.mp going with rfl | older
          · cases sec <;> simp_all [Ongoing.agenda]
          · have used := ih older task
            cases sec <;> simp [used]
      | @work x t rest below =>
          have used : x.senderHeld = false := ih List.mem_cons_self (by cases t; exact .head _)
          exact used
      | wake =>
          rcases List.mem_cons.mp going with rfl | older
          · cases task
          · rcases List.mem_cons.mp older with rfl | older
            · exact ih List.mem_cons_self (List.mem_cons_of_mem _ task)
            · exact ih (List.mem_cons_of_mem _ older) task
      | wakerEnds => exact ih (List.mem_cons_of_mem _ going) task
      | callEnds => exact ih (List.mem_cons_of_mem _ going) task

/-- The history of a run accounts for the channel. -/
theorem accounted (run : service.Run {} s) :
    Attended s.state s.past ∧ Accounted s.state s.past := by
  induction run with
  | start =>
      constructor
      · constructor <;> simp [SenderLeft, ReceiverLeft]
      · constructor <;> simp [passed, returned, yielded, lost]
  | @step v v' run move ih =>
      obtain ⟨att, acc⟩ := ih
      cases move with
      | call k turn allowed => exact ⟨att.begin k, acc.begin k allowed att.held⟩
      | @work x t rest below =>
          have unheld : x.senderHeld = false :=
            senderHeld_of_task run List.mem_cons_self (by cases t; exact .head _)
          exact ⟨att.perform t, acc.perform unheld t⟩
      | @wake x w rest below => exact ⟨att.woke w, acc.woke w⟩
      | wakerEnds => exact ⟨att, acc⟩
      | callEnds => exact ⟨att, acc⟩

/-- A value on a channel is in exactly one place at every time, whatever the code of woken wakers
does. So it is neither lost nor received twice, and no poll finds the channel closed before the
value has come out of it, although a poll can come in the middle of a send. -/
theorem keeps_each_value_once (run : service.Run {} s) :
    (passed s.past).length ≤ 1 ∧
    passed s.past =
      returned s.past ++ s.state.channel.value.toList ++ yielded s.past ++ lost s.past ∧
    passed s.past = s.state.destroyed ++ s.state.channel.value.toList ∧
    (∀ v, s.state.channel.value = some v ↔ Stored s.past v) ∧
    (s.state.channel.senderGone = true ↔ SenderLeft s.past) ∧
    (ReceiverLeft s.past → s.state.channel.value = none) ∧
    (∀ before v a after, s.past = before ++ .made (.send v) a :: after →
      (a = .returned v ↔ ReceiverLeft before) ∧ (a = .sent ↔ ¬ReceiverLeft before) ∧
      ¬SenderLeft before) ∧
    (∀ before w a after, s.past = before ++ .made (.poll w) a :: after →
      (∀ v, a = .received (.value v) ↔ Stored before v) ∧
      (a = .received .closed ↔ (∀ v, ¬Stored before v) ∧ SenderLeft before) ∧
      (a = .received .pending ↔ (∀ v, ¬Stored before v) ∧ ¬SenderLeft before) ∧
      (a = .received .closed → passed before = yielded before)) ∧
    (∀ before a after, s.past = before ++ .made .look a :: after →
      ∃ ready closed, a = .seen ready closed ∧ (ready = true ↔ ∃ v, Stored before v) ∧
        (closed = true ↔ (∀ v, ¬Stored before v) ∧ SenderLeft before)) := by
  obtain ⟨att, acc⟩ := accounted run
  refine ⟨acc.once, acc.places, acc.destroyed, fun v => acc.stored_iff, att.sender,
    fun left => acc.empty (att.receiver.mpr left), ?_, ?_, ?_⟩
  · intro before v a after split
    obtain ⟨u, run', rfl, -, allowed, rfl⟩ := run.made split
    obtain ⟨att', acc'⟩ := accounted run'
    rw [← att'.receiver, ← att'.sender, (acc'.unused allowed).2]
    have sec := begins (.send v) u.state
    generalize service.begin (.send v) u.state = r at sec ⊢
    cases sec with
    | returned _ gone => simp [gone]
    | sent _ there => simp [there]
  · intro before w a after split
    obtain ⟨u, run', rfl, -, allowed, rfl⟩ := run.made split
    obtain ⟨att', acc'⟩ := accounted run'
    simp only [← acc'.stored_iff, ← att'.sender]
    have sec := begins (.poll w) u.state
    generalize service.begin (.poll w) u.state = r at sec ⊢
    cases sec with
    | yields _ stored => simp [stored]
    | closed _ empty gone =>
        have there : u.state.channel.receiverGone = false := by
          simpa [show u.state.receiverHeld = true from allowed] using att'.held
        obtain ⟨returned, lost⟩ := acc'.kept there
        have places := acc'.places
        simpa [empty, gone, returned, lost] using places
    | waits _ empty there => simp [empty, there]
  · intro before a after split
    obtain ⟨u, run', rfl, -, -, rfl⟩ := run.made split
    obtain ⟨att', acc'⟩ := accounted run'
    refine ⟨_, _, rfl, ?_, ?_⟩
    · simp [Handoff.isReady, Option.isSome_iff_exists, acc'.stored_iff]
    · simp [Handoff.isClosed, ← acc'.stored_iff, ← att'.sender, and_comm,
        Option.eq_none_iff_forall_ne_some]

/-- A send whose woken code polls twice, and polls once more when the sender has left. -/
theorem keeps_each_value_once_of_reentrant_poll :
    ∃ s : Scene (Exchange Int) Task (Call Int) (Answer Int), service.Run {} s ∧
      s.past =
        [.made (.poll (.named "a")) (.received .pending), .made (.send 7) .sent,
          .woke (.named "a"), .made (.poll (.named "b")) (.received (.value 7)),
          .made (.poll (.named "b")) (.received .pending), .worked .closeSender,
          .woke (.named "b"), .made (.poll (.named "b")) (.received .closed)] ∧
      s.state.destroyed = [7] ∧ yielded s.past = [7] ∧
      Stored [.made (.poll (.named "a")) (.received .pending), .made (.send (7 : Int)) .sent,
        .woke (.named "a")] 7 := by
  have fresh : (service (α := Int)).Run {} { state := {} } := .start
  have polled := fresh.step (.call (.poll (.named "a")) rfl rfl)
  have sending := (polled.step .callEnds).step (.call (.send 7) rfl rfl)
  have yielding := (sending.step .wake).step (.call (.poll (.named "b")) rfl rfl)
  have waiting := (yielding.step .callEnds).step (.call (.poll (.named "b")) rfl rfl)
  have leaving := ((waiting.step .callEnds).step .wakerEnds).step .work
  have run := (leaving.step .wake).step (.call (.poll (.named "b")) rfl rfl)
  obtain ⟨-, -, -, -, -, -, -, polls, -⟩ := keeps_each_value_once run
  have stored := ((polls [.made (.poll (.named "a")) (.received .pending), .made (.send 7) .sent,
    .woke (.named "a")] (.named "b") _ _ rfl).1 7).mp rfl
  exact ⟨_, run, rfl, rfl, rfl, stored⟩

end Exchange

end FairShare
