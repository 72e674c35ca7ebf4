import FairShare.Proofs.Departures
import FairShare.Proofs.Rounds
import FairShare.Proofs.Undisturbed

/-!
# Ways out

Users let go of what they have got by three calls: they release a lock, let a clone of it go, or
let a request go. Such a call makes a few retreats, which are small changes of the instance, and
calls for the grant loop if it leaves something to do for it. What a call retreats from is read off
the instance when the call is made.
-/

namespace FairShare

namespace Grant

/-- The grant after its slot was given back. -/
def giveBack (grant : Grant) : Grant :=
  { grant with released := true }

/-- The grant with one clone less; with the last one its slot is given back. -/
def letGo (grant : Grant) : Grant :=
  { grant with
    clones := grant.clones - 1
    released := grant.released || decide (grant.clones - 1 = 0) }

end Grant

/-- Changes a grant. If its slot was held before and is not after, the slot is returned, and the
grant is no owner any more. -/
def Instance.regrant (f : Grant → Grant) (g : Nat) (x : Instance) : Instance :=
  match x.grants[g]? with
  | none => x
  | some grant =>
    if !grant.released && (f grant).released then
      { x with
        state := x.state.returnSlot grant.priority
        owners := x.owners - 1
        grants := x.grants.set g (f grant) }
    else { x with grants := x.grants.set g (f grant) }

/-- Takes the first request with the ticket out of the queue of the priority, and lets the sender of
its channel go. -/
def Instance.abandon (p : Nat) (ticket : UInt64) (x : Instance) : Instance :=
  { x with
    state := x.state.abandon p ticket
    channels :=
      match x.state.waiter? p ticket with
      | none => x.channels
      | some e => x.channels.modify e.channel fun ch => ch.closeSender.1 }

/-- A change that a user who lets something go makes to an instance. -/
inductive Retreat where
  /-- The slot of a grant is given back. -/
  | giveBack (grant : Nat)
  /-- One clone of the lock of a grant goes. -/
  | letGo (grant : Nat)
  /-- A request leaves its queue, and with it the sender of its channel goes. -/
  | abandon (priority : Nat) (ticket : UInt64)
  /-- The receiver of a channel goes. -/
  | hangUp (channel : Nat)
  /-- A request is marked as let go. -/
  | forget (request : Nat)

/-- Makes a retreat. -/
def Retreat.apply : Retreat → Instance → Instance
  | giveBack g, x => x.regrant Grant.giveBack g
  | letGo g, x => x.regrant Grant.letGo g
  | abandon p ticket, x => x.abandon p ticket
  | hangUp c, x => { x with channels := x.channels.modify c fun ch => ch.dropReceiver.2 }
  | forget r, x => x.setProgress r .dropped

namespace Instance

/-- Makes retreats in order. -/
def undergo (rs : List Retreat) (x : Instance) : Instance :=
  rs.foldl (fun x r => r.apply x) x

/-- The grant that is there for the next poll of the request. -/
def grantOf? (r : Nat) (x : Instance) : Option Nat :=
  match x.requests[r]? with
  | none => none
  | some q =>
    match q.progress with
    | .settled (some (.granted g)) => some g
    | .queued _ c => (x.channels[c]?).bind Handoff.value
    | _ => none

/-- What a caller retreats from with a request, apart from the grant that it holds. -/
def farewell (r : Nat) (x : Instance) : List Retreat :=
  match x.requests[r]? with
  | none => []
  | some q =>
    match q.progress with
    | .queued ticket c => [.forget r, .abandon q.priority ticket, .hangUp c]
    | _ => [.forget r]

/-- What a caller retreats from with a request. -/
def forsakes (r : Nat) (x : Instance) : List Retreat :=
  x.farewell r ++ (x.grantOf? r).toList.map .letGo

end Instance

/-- What a call that lets something go retreats from. -/
def Call.retreats (x : Instance) : Call → List Retreat
  | release g => [.giveBack g]
  | dropLock g => [.letGo g]
  | dropRequest r => x.forsakes r
  | _ => []

namespace Instance

variable {x y z : Instance} {rs rs' : List Retreat}

/-- Nothing has changed for the grant loop, or a slot has come free or a request has left, and the
wake event was fired if a free slot and a waiting request are left. -/
def Stirs (x y : Instance) : Prop :=
  (y.state = x.state ∧ y.wake = x.wake) ∨
  (x.state.free - x.state.waiting < y.state.free - y.state.waiting ∧
    (y.state.halted = false → y.state.CanServe → y.wake = { permit := true, waker := none }))

theorem Stirs.trans (h : Stirs x y) (h' : Stirs y z) : Stirs x z := by
  rcases h' with ⟨state', wake'⟩ | ⟨less', fired'⟩
  · unfold Stirs
    rw [state', wake']
    exact h
  · rcases h with ⟨state, -⟩ | ⟨less, -⟩
    · rw [state] at less'
      exact .inr ⟨less', fired'⟩
    · exact .inr ⟨less.trans less', fired'⟩

/-- The instance that is left was retreated from, and the grant loop was called as it has to be. -/
structure Retires (rs : List Retreat) (x y : Instance) : Prop where
  same : y = { x.undergo rs with wake := y.wake, log := y.log }
  stirs : Stirs x y

end Instance

/-- Retreats neither read nor change the wake event and the log. -/
theorem Retreat.apply_congr (r : Retreat) (x : Instance) (wake : WakeEvent) (log : List Event) :
    r.apply { x with wake, log } = { r.apply x with wake, log } := by
  cases r with
  | giveBack g | letGo g =>
      simp only [apply, Instance.regrant]
      split
      · rfl
      · split <;> rfl
  | abandon p ticket => rfl
  | hangUp c => rfl
  | forget r => rfl

namespace Instance

variable {x y z : Instance} {rs rs' : List Retreat}

theorem undergo_append (rs rs' : List Retreat) (x : Instance) :
    x.undergo (rs ++ rs') = (x.undergo rs).undergo rs' :=
  List.foldl_append

theorem undergo_congr (rs : List Retreat) (x : Instance) (wake : WakeEvent) (log : List Event) :
    ({ x with wake, log } : Instance).undergo rs = { x.undergo rs with wake, log } := by
  induction rs generalizing x with
  | nil => rfl
  | cons r rs ih =>
      have first := ih (r.apply x)
      rw [← r.apply_congr] at first
      exact first

theorem Retires.refl (x : Instance) : Retires [] x x :=
  ⟨rfl, .inl ⟨rfl, rfl⟩⟩

theorem Retires.trans (h : Retires rs x y) (h' : Retires rs' y z) : Retires (rs ++ rs') x z := by
  constructor
  · have same := h'.same
    rw [h.same, undergo_congr] at same
    rw [undergo_append]
    exact same
  · exact h.stirs.trans h'.stirs

end Instance

namespace Instance

/-- Somebody owns the instance besides the grants. -/
def Backed (x : Instance) : Prop :=
  x.grants.countP Grant.isOwner < x.owners

variable {x : Instance} {g : Nat}

/-- With a slot that is held there are two owners. -/
theorem Backed.others (h : x.Backed) {grant : Grant} (here : x.grants[g]? = some grant)
    (locked : grant.released = false) : x.owners - 1 ≠ 0 := by
  have counted := toNat_le_countP Grant.isOwner here
  have owner : grant.isOwner = true := by simp [Grant.isOwner, locked]
  rw [owner, Bool.toNat_true] at counted
  unfold Backed at h
  omega

/-- What has no slot to give back stays as it is. -/
theorem giveBack_of_unlocked
    (unlocked : ∀ grant, x.grants[g]? = some grant → grant.released = true) :
    x.giveBack g = (x, []) ∧ x.regrant Grant.giveBack g = x := by
  cases here : x.grants[g]? with
  | none => simp [giveBack, regrant, here]
  | some grant =>
      have released := unlocked grant here
      have same : grant.giveBack = grant := by
        cases grant
        simp_all [Grant.giveBack]
      obtain ⟨hg, e⟩ := List.getElem?_eq_some_iff.mp here
      have kept : x.grants.set g grant = x.grants := by
        rw [← e]
        exact List.set_getElem_self hg
      simp [giveBack, regrant, here, released, same, kept]

end Instance

/-! ## What a retreat leaves alone -/

namespace Retreat

variable {r : Retreat} {c k : Nat}

/-- What is in a channel stays there until its receiver goes. -/
theorem value_apply (other : r ≠ .hangUp c) (x : Instance) :
    ((r.apply x).channels[c]?).bind Handoff.value = (x.channels[c]?).bind Handoff.value := by
  cases r with
  | giveBack g | letGo g =>
      simp only [apply, Instance.regrant]
      split
      · rfl
      · split <;> rfl
  | abandon p ticket =>
      simp only [apply, Instance.abandon]
      split
      · rfl
      · have kept (ch : Handoff Nat) : ch.closeSender.1.value = ch.value := by
          unfold Handoff.closeSender
          split <;> rfl
        simp only [List.getElem?_modify]
        cases x.channels[c]? with
        | none => rfl
        | some ch =>
            simp only [Option.map_eq_map, Option.map_some, Option.bind_some]
            split
            · exact kept ch
            · rfl
  | hangUp d =>
      have apart : d ≠ c := by
        rintro rfl
        exact other rfl
      simp only [apply, List.getElem?_modify_ne _ _ apart]
  | forget r => rfl

/-- A request stays as it is until it is marked. -/
theorem request_apply (other : r ≠ .forget k) (x : Instance) :
    (r.apply x).requests[k]? = x.requests[k]? := by
  cases r with
  | giveBack g | letGo g =>
      simp only [apply, Instance.regrant]
      split
      · rfl
      · split <;> rfl
  | abandon p ticket => rfl
  | hangUp d => rfl
  | forget r =>
      have apart : r ≠ k := by
        rintro rfl
        exact other rfl
      simp only [apply, Instance.setProgress, List.getElem?_modify_ne _ _ apart]

end Retreat

namespace Instance

variable {x y : Instance} {rs : List Retreat} {c r : Nat}

theorem value_undergo (kept : .hangUp c ∉ rs) (x : Instance) :
    ((x.undergo rs).channels[c]?).bind Handoff.value = (x.channels[c]?).bind Handoff.value := by
  induction rs generalizing x with
  | nil => rfl
  | cons r rs ih =>
      rw [List.mem_cons, not_or] at kept
      exact (ih kept.2 (r.apply x)).trans (Retreat.value_apply (Ne.symm kept.1) x)

theorem request_undergo (kept : .forget r ∉ rs) (x : Instance) :
    (x.undergo rs).requests[r]? = x.requests[r]? := by
  induction rs generalizing x with
  | nil => rfl
  | cons r' rs ih =>
      rw [List.mem_cons, not_or] at kept
      exact (ih kept.2 (r'.apply x)).trans (Retreat.request_apply (Ne.symm kept.1) x)

/-- A farewell does not touch the grants and their owners. -/
theorem grants_farewell (x : Instance) (r : Nat) :
    (x.undergo (x.farewell r)).grants = x.grants ∧
      (x.undergo (x.farewell r)).owners = x.owners := by
  unfold farewell
  split
  · exact ⟨rfl, rfl⟩
  · split <;> exact ⟨rfl, rfl⟩

end Instance

section Calls
variable {x y : Instance}

/-- The wake event is fired, if it is to be fired. -/
theorem completes_wakeLoopIf (b : Bool) (x : Instance) :
    Completes (Instance.wakeLoopIf b) x
      { x with wake := if b then { permit := true, waker := none } else x.wake } := by
  cases b with
  | false => exact .done x
  | true => exact completes_wakeLoop x

/-- A slot that is given back is returned, and the loop is called if a request waits. -/
theorem completes_giveBack (g : Nat) (backed : x.Backed) :
    ∃ y, Completes (x.giveBack g).2 (x.giveBack g).1 y ∧ x.Retires [.giveBack g] y := by
  by_cases held : ∃ grant, x.grants[g]? = some grant ∧ grant.released = false
  · obtain ⟨grant, here, locked⟩ := held
    generalize next : x.state.returnSlot grant.priority = s
    have outcome : x.giveBack g = ({ x with
        state := s
        grants := x.grants.set g grant.giveBack
        log := x.log ++ [.released grant.priority s.free s.waiting] },
        Instance.wakeLoopIf (0 < s.waiting) ++ [.task .disown]) := by
      simp [Instance.giveBack, here, locked, next, Instance.report, Grant.giveBack]
    rw [outcome]
    have others := backed.others here locked
    refine ⟨_, (completes_wakeLoopIf _ _).append (completes_disown others), ?_, ?_⟩
    · simp [Instance.undergo, Retreat.apply, Instance.regrant, here, locked, Grant.giveBack, next]
    · subst next
      refine .inr ⟨?_, ?_⟩
      · simp [LockState.returnSlot, LockState.modifyLane]
      · intro _ serve
        simp [serve.2]
  · have unlocked : ∀ grant, x.grants[g]? = some grant → grant.released = true :=
      fun grant here => by
        by_contra locked
        exact held ⟨grant, here, by simpa using locked⟩
    obtain ⟨outcome, nothing⟩ := Instance.giveBack_of_unlocked unlocked
    rw [outcome]
    exact ⟨x, .done x, by simp [Instance.undergo, Retreat.apply, nothing], .inl ⟨rfl, rfl⟩⟩

/-- A clone that goes takes its slot back with it if it was the last one. -/
theorem completes_letGo (g : Nat) (backed : x.Backed) :
    ∃ y, Completes (x.dropLock g).2 (x.dropLock g).1 y ∧ x.Retires [.letGo g] y := by
  cases here : x.grants[g]? with
  | none =>
      have outcome : x.dropLock g = (x, []) := by simp [Instance.dropLock, here]
      rw [outcome]
      refine ⟨x, .done x, ?_, .inl ⟨rfl, rfl⟩⟩
      simp [Instance.undergo, Retreat.apply, Instance.regrant, here]
  | some grant =>
      generalize less : ({ grant with clones := grant.clones - 1 } : Grant) = grant'
      by_cases last : grant.clones - 1 = 0
      · have outcome : x.dropLock g = ({ x with grants := x.grants.set g grant' }).giveBack g := by
          simp [Instance.dropLock, here, last, ← less]
        have backed' : ({ x with grants := x.grants.set g grant' }).Backed := by
          have count := countP_set_add Grant.isOwner here grant'
          rw [← less] at count ⊢
          unfold Instance.Backed at backed ⊢
          simp [Grant.isOwner] at count
          simpa [count] using backed
        obtain ⟨y, completes, same, stirs⟩ := completes_giveBack g backed'
        rw [outcome]
        refine ⟨y, completes, ?_, stirs⟩
        have both : ({ x with grants := x.grants.set g grant' }).undergo [.giveBack g] =
            x.undergo [.letGo g] := by
          have there (b : Grant) : (x.grants.set g b)[g]? = some b := getElem?_set_of_some here b
          cases locked : grant.released <;>
            simp [Instance.undergo, Retreat.apply, Instance.regrant, here, there, Grant.giveBack,
              Grant.letGo, last, ← less, locked]
        rw [← both]
        exact same
      · have outcome : x.dropLock g = ({ x with grants := x.grants.set g grant' }, []) := by
          simp [Instance.dropLock, here, last, ← less]
        rw [outcome]
        refine ⟨_, .done _, ?_, .inl ⟨rfl, rfl⟩⟩
        simp [Instance.undergo, Retreat.apply, Instance.regrant, here, Grant.letGo, last, ← less]

/-- The receiver of a channel goes, and the locks that were in the channel go after it. -/
theorem completes_dropReceiver (c : Nat)
    (completes : Completes (((x.channels[c]?).bind Handoff.value).toList.map fun g =>
      .task (.dropLock g)) (x.undergo [.hangUp c]) y) :
    Completes [.task (.dropReceiver c)] x y := by
  cases channel : x.channels[c]? with
  | none =>
      have outcome : (Task.dropReceiver c).perform x = (x, []) := by
        simp [Task.perform, Instance.dropReceiver, channel]
      have nothing : x.undergo [.hangUp c] = x := by
        have out := List.getElem?_eq_none_iff.mp channel
        simp [Instance.undergo, Retreat.apply, List.modify_eq_self out]
      rw [channel, nothing] at completes
      exact .task outcome completes
  | some ch =>
      have outcome : (Task.dropReceiver c).perform x = (x.undergo [.hangUp c],
          ch.value.toList.map fun g => .task (.dropLock g)) := by
        simp [Task.perform, Instance.dropReceiver, channel, Instance.undergo, Retreat.apply,
          modify_eq_set_of_getElem? _ channel, Handoff.dropReceiver]
      rw [channel] at completes
      exact .task outcome completes

/-- A caller who gives a queued request up takes it out of its queue, if it is there, and lets the
receiver go. -/
theorem completes_withdraw {weights : List Nat} (p : Nat) (ticket : UInt64) (c : Nat)
    (account : DemandAccounts weights x.state) (dead : x.owners = 0 → x.state.killed = true) :
    ∃ y, x.Retires [.abandon p ticket] y ∧
      ∀ z, Completes [.task (.dropReceiver c)] y z →
        Completes (x.withdraw p ticket c).2 (x.withdraw p ticket c).1 z := by
  cases found : x.state.waiter? p ticket with
  | none =>
      have outcome : x.withdraw p ticket c = (x, [.task (.dropReceiver c)]) := by
        simp [Instance.withdraw, LockState.withdraw?_of_absent found]
      have nothing : x.undergo [.abandon p ticket] = x := by
        simp [Instance.undergo, Retreat.apply, Instance.abandon, found,
          LockState.abandon_of_absent found]
      refine ⟨x, ⟨by rw [nothing], .inl ⟨rfl, rfl⟩⟩, fun z completes => ?_⟩
      rw [outcome]
      exact completes
  | some e =>
      have leaves := LockState.leaves_abandon found
      have exit := account.exact_leave leaves
      generalize next : x.state.abandon p ticket = s at leaves exit
      have owned : x.owners ≠ 0 := by
        intro gone
        have idle := (account.of_killed (dead gone)).1 p
        exact absurd leaves.mem (by rw [idle]; exact List.not_mem_nil)
      let b := !s.halted && decide (0 < s.free) && decide (0 < s.waiting)
      have outcome : x.withdraw p ticket c =
          ({ x with
            state := s
            owners := x.owners + 1
            log := x.log ++ [.withdrawn p ticket s.waiting] },
          Instance.closeAll [e] ++ Instance.wakeLoopIf b ++
            [.task .disown, .task (.dropReceiver c)]) := by
        simp [Instance.withdraw, Instance.isAlive, Nat.pos_of_ne_zero owned,
          LockState.withdraw?_of_entry found, next, Instance.report, b]
      rw [outcome]
      refine ⟨{ x with
        state := s
        wake := if b then { permit := true, waker := none } else x.wake
        channels := x.channels.modify e.channel fun ch => ch.closeSender.1
        log := x.log ++ [.withdrawn p ticket s.waiting] }, ⟨?_, .inr ⟨?_, ?_⟩⟩, ?_⟩
      · simp [Instance.undergo, Retreat.apply, Instance.abandon, found, next]
      · have free := leaves.frame.2.2.2.1
        have less := exit.waiting
        simp only
        omega
      · intro running serve
        have running : s.halted = false := running
        simp [b, running, serve.1, serve.2]
      · intro z completes
        rw [List.append_assoc]
        refine (completes_closeSender e.channel _).append ?_
        refine (completes_wakeLoopIf b _).append ?_
        exact (completes_disown (by simpa using owned)).append completes

/-- A caller who lets a request go bids it farewell, and lets go of the lock that it holds. -/
theorem completes_dropRequest {weights : List Nat} (r : Nat)
    (account : DemandAccounts weights x.state) (dead : x.owners = 0 → x.state.killed = true) :
    ∃ y, x.Retires (x.farewell r) y ∧
      ∀ z, Completes ((x.grantOf? r).toList.map fun g => .task (.dropLock g)) y z →
        Completes (x.dropRequest r).2 (x.dropRequest r).1 z := by
  cases here : x.requests[r]? with
  | none =>
      have farewell : x.farewell r = [] := by simp [Instance.farewell, here]
      have none : x.grantOf? r = none := by simp [Instance.grantOf?, here]
      refine ⟨x, farewell ▸ .refl x, fun z completes => ?_⟩
      rw [none] at completes
      simpa [Instance.dropRequest, here] using completes
  | some q =>
      generalize forgotten : x.setProgress r .dropped = x₁
      have forgets : x.Retires [.forget r] x₁ := by
        subst forgotten
        exact ⟨rfl, .inl ⟨rfl, rfl⟩⟩
      rcases progress : q.progress with (_ | _ | g) | ⟨ticket, c⟩ | _ | _
      case queued =>
        have farewell : x.farewell r =
            [.forget r] ++ ([.abandon q.priority ticket] ++ [.hangUp c]) := by
          simp [Instance.farewell, here, progress]
        have grant : x.grantOf? r = (x.channels[c]?).bind Handoff.value := by
          simp [Instance.grantOf?, here, progress]
        have account₁ : DemandAccounts weights x₁.state := by rwa [← forgotten]
        have dead₁ : x₁.owners = 0 → x₁.state.killed = true := by rwa [← forgotten]
        obtain ⟨y, abandons, leads⟩ := completes_withdraw q.priority ticket c account₁ dead₁
        have hangsUp : y.Retires [.hangUp c] (y.undergo [.hangUp c]) := ⟨rfl, .inl ⟨rfl, rfl⟩⟩
        refine ⟨_, farewell ▸ forgets.trans (abandons.trans hangsUp), fun z completes => ?_⟩
        have value : (y.channels[c]?).bind Handoff.value = x.grantOf? r := by
          have other : Retreat.hangUp c ∉ [.abandon q.priority ticket] := by simp
          have kept := Instance.value_undergo other x₁
          rw [abandons.same, grant]
          exact kept.trans (by rw [← forgotten]; rfl)
        rw [← value] at completes
        have left := leads z (completes_dropReceiver c completes)
        rw [Instance.dropRequest, here, forgotten]
        simpa [progress] using left
      all_goals
        have farewell : x.farewell r = [.forget r] := by simp [Instance.farewell, here, progress]
        refine ⟨x₁, farewell ▸ forgets, fun z completes => ?_⟩
        simpa [Instance.dropRequest, here, progress, Instance.grantOf?, forgotten] using completes

end Calls

end FairShare
