import FairShare.Proofs.Conservation
import FairShare.Proofs.Verdicts

/-!
# Grants on their way to their requests

A grant that was made for a request stays with it, as its verdict or in its channel, until a poll
takes it or the request is let go. As long as no user has had it, its lock has one clone, so that
nobody can release it, clone it or let it go.
-/

namespace FairShare

namespace Instance

/-- The grant is there for the next poll of the request. -/
inductive HoldsGrant (x : Instance) (r g : Nat) : Prop where
  | settled {q : Request} (here : x.requests[r]? = some q)
      (progress : q.progress = .settled (some (.granted g)))
  | delivered {q : Request} {ticket : UInt64} {c : Nat} {ch : Handoff Nat}
      (here : x.requests[r]? = some q) (progress : q.progress = .queued ticket c)
      (channel : x.channels[c]? = some ch) (full : ch.value = some g)

/-- A poll of a request that holds its grant answers the grant. -/
theorem HoldsGrant.poll {x : Instance} {r g : Nat} (h : x.HoldsGrant r g) (waker : Waker) :
    (x.poll r waker).1 = .ok (some (.granted g)) := by
  cases h with
  | settled here progress => simp [Instance.poll, here, progress]
  | delivered here progress channel full =>
      simp [Instance.poll, here, progress, pollQueued, channel, Handoff.poll, full]

theorem HoldsGrant.lt {x : Instance} {r g : Nat} (h : x.HoldsGrant r g) :
    r < x.requests.length := by
  cases h with
  | settled here | delivered here => exact (List.getElem?_eq_some_iff.mp here).1

theorem HoldsGrant.ready {x : Instance} {r g : Nat} (h : x.HoldsGrant r g) : x.Ready r := by
  cases h with
  | settled here progress => exact .settled here progress
  | delivered here progress channel full =>
      exact .delivered here progress channel (by simp [Handoff.isReady, full])

end Instance

section Effects
variable {x x' : Instance} {L L' : List Nat} {sec : Section} {a : Agenda Task} {r : Nat}

/-- A request that is let go is spent. -/
theorem Effect.spent_of_dropRequest (effect : Effect x L (.call (.dropRequest r)) x' a L') :
    x'.Spent r := by
  cases effect with
  | dropGranted here | dropDone here | dropUnqueued here | withdraw here =>
      exact ⟨_, getElem?_set_of_some here _, .inr (.inr rfl)⟩
  | letGoMissing lets | letGoClone lets | letGoLast lets => cases lets

/-- A grant in a channel stays there while the request that awaits it is not polled. -/
theorem Effect.value_kept (effect : Effect x L sec x' a L') {rest : List Task}
    (ends : ChannelEnds x.state.waiters x.requests x.channels (sec.tasks ++ rest))
    (unpolled : ∀ waker, sec ≠ .call (.poll r waker)) {q : Request} {ticket : UInt64} {c g : Nat}
    {ch : Handoff Nat} (here : x.requests[r]? = some q) (queued : q.progress = .queued ticket c)
    (channel : x.channels[c]? = some ch) (full : ch.value = some g) :
    ∃ ch', x'.channels[c]? = some ch' ∧ ch'.value = some g := by
  cases effect with
  | queue => exact ⟨ch, getElem?_append_of_some channel _, full⟩
  | wait here' queued' | receive here' queued' | fail here' queued' =>
      refine exists_getElem?_set channel full ?_
      rintro rfl
      cases QueueBook.sole ends here queued here' queued'
      exact absurd rfl (unpolled _)
  | closeFull channel' full' =>
      refine exists_getElem?_set channel full ?_
      rintro rfl
      cases channel.symm.trans channel'
      exact full
  | closeEmpty channel' empty =>
      refine exists_getElem?_set channel full ?_
      rintro rfl
      cases channel.symm.trans channel'
      cases full.symm.trans empty
  | dropReceiver =>
      refine exists_getElem?_set channel full ?_
      rintro rfl
      obtain ⟨-, absent, -⟩ :=
        ends.receiver_of_awaits here (by simp [Request.awaits, queued]; rfl)
      exact absurd (.head _) absent
  | grant _ _ _ scan first channel' =>
      refine exists_getElem?_set channel full ?_
      rintro rfl
      -- nothing was sent yet on the channel of a request in a queue
      cases channel.symm.trans channel'
      have empty := (ends.grantFirst scan first).unsent _ List.mem_cons_self _ channel
      cases full.symm.trans empty
  | _ => exact ⟨ch, channel, full⟩

/-- A request keeps its grant until a poll takes it or the request is let go. -/
theorem Effect.holdsGrant {g : Nat} (effect : Effect x L sec x' a L') {rest : List Task}
    (ends : ChannelEnds x.state.waiters x.requests x.channels (sec.tasks ++ rest))
    (h : x.HoldsGrant r g) : x'.HoldsGrant r g ∨ x'.Spent r := by
  by_cases polled : ∃ waker, sec = .call (.poll r waker)
  · obtain ⟨waker, rfl⟩ := polled
    exact .inr (effect.spent_of_poll h.ready)
  have unpolled : ∀ waker, sec ≠ .call (.poll r waker) := fun waker e => polled ⟨waker, e⟩
  by_cases dropped : sec = .call (.dropRequest r)
  · subst dropped
    exact .inr effect.spent_of_dropRequest
  left
  cases h with
  | settled here progress => exact .settled (effect.request_kept unpolled dropped here) progress
  | delivered here progress channel full =>
      obtain ⟨ch', channel', full'⟩ :=
        effect.value_kept ends unpolled here progress channel full
      exact .delivered (effect.request_kept unpolled dropped here) progress channel' full'

end Effects

/-! ## Locks that no user has had -/

/-- The lock has one clone, and its slot is held. -/
def Unshared (grants : List Grant) (g : Nat) : Prop :=
  ∃ grant, grants[g]? = some grant ∧ grant.clones = 1 ∧ grant.released = false

/-- A lock that is still with a request or in a channel is unshared. -/
structure Undelivered (requests : List Request) (channels : List (Handoff Nat))
    (grants : List Grant) : Prop where
  settled : ∀ q ∈ requests, ∀ g, q.progress = .settled (some (.granted g)) → Unshared grants g
  sent : ∀ ch ∈ channels, ∀ g, ch.value = some g → Unshared grants g

theorem Unshared.lt {grants : List Grant} {g : Nat} (h : Unshared grants g) :
    g < grants.length := by
  obtain ⟨grant, here, -⟩ := h
  exact (List.getElem?_eq_some_iff.mp here).1

theorem Unshared.append {grants : List Grant} {g : Nat} (h : Unshared grants g) (grant : Grant) :
    Unshared (grants ++ [grant]) g := by
  obtain ⟨old, here, alone⟩ := h
  exact ⟨old, getElem?_append_of_some here _, alone⟩

theorem unshared_new (grants : List Grant) (p : Nat) :
    Unshared (grants ++ [{ priority := p }]) grants.length :=
  ⟨_, List.getElem?_concat_length, rfl, rfl⟩

namespace Undelivered

variable {requests : List Request} {channels : List (Handoff Nat)} {grants : List Grant}

theorem append_grant (h : Undelivered requests channels grants) (grant : Grant) :
    Undelivered requests channels (grants ++ [grant]) where
  settled q member g progress := (h.settled q member g progress).append grant
  sent ch member g full := (h.sent ch member g full).append grant

theorem append_request (h : Undelivered requests channels grants) {q : Request}
    (unshared : ∀ g, q.progress = .settled (some (.granted g)) → Unshared grants g) :
    Undelivered (requests ++ [q]) channels grants where
  settled q' member := by
    rcases List.mem_append.mp member with old | new
    · exact h.settled q' old
    · rw [List.mem_singleton.mp new]
      exact unshared
  sent := h.sent

theorem append_channel (h : Undelivered requests channels grants) :
    Undelivered requests (channels ++ [Handoff.empty]) grants where
  settled := h.settled
  sent ch member g full := by
    rcases List.mem_append.mp member with old | new
    · exact h.sent ch old g full
    · rw [List.mem_singleton.mp new] at full
      cases full

theorem set_request (h : Undelivered requests channels grants) {r : Nat} {q : Request}
    (idle : ∀ g, q.progress ≠ .settled (some (.granted g))) :
    Undelivered (requests.set r q) channels grants where
  settled q' member g progress := by
    rcases List.mem_or_eq_of_mem_set member with old | rfl
    · exact h.settled q' old g progress
    · exact absurd progress (idle g)
  sent := h.sent

theorem set_channel (h : Undelivered requests channels grants) {c : Nat} {ch : Handoff Nat}
    (unshared : ∀ g, ch.value = some g → Unshared grants g) :
    Undelivered requests (channels.set c ch) grants where
  settled := h.settled
  sent ch' member g full := by
    rcases List.mem_or_eq_of_mem_set member with old | rfl
    · exact h.sent ch' old g full
    · exact unshared g full

/-- A lock with a clone elsewhere is no longer on its way. -/
theorem not_elsewhere (h : Undelivered requests channels grants) {tasks : List Task}
    {L : List Nat} (count : CloneCount grants (lockPlaces requests channels tasks L)) {g : Nat}
    (elsewhere : g ∈ L ∨ .dropLock g ∈ tasks ∨ .takeBack g ∈ tasks) :
    (∀ q ∈ requests, q.progress ≠ .settled (some (.granted g))) ∧
      ∀ ch ∈ channels, ch.value ≠ some g := by
  have other : 0 < L.count g + tasks.count (.dropLock g) + tasks.count (.takeBack g) := by
    rcases elsewhere with held | dropping | taking
    · have := List.count_pos_iff.mpr held
      omega
    · have := List.count_pos_iff.mpr dropping
      omega
    · have := List.count_pos_iff.mpr taking
      omega
  have shared : Unshared grants g →
      requests.countP (Request.holds g) + channels.countP (Handoff.carries g) = 0 := by
    rintro ⟨grant, here, one, -⟩
    have places := count.clones g
    rw [clonesAt_of_getElem? here, one] at places
    unfold lockPlaces at places
    omega
  constructor
  · intro q member progress
    have none := shared (h.settled q member g progress)
    have pos : 0 < requests.countP (Request.holds g) :=
      List.countP_pos_iff.mpr ⟨q, member, by simp [Request.holds, progress]⟩
    omega
  · intro ch member full
    have none := shared (h.sent ch member g full)
    have pos : 0 < channels.countP (Handoff.carries g) :=
      List.countP_pos_iff.mpr ⟨ch, member, by simp [Handoff.carries, full]⟩
    omega

/-- The grant of a lock with a clone elsewhere may change. -/
theorem set_grant (h : Undelivered requests channels grants) {tasks : List Task} {L : List Nat}
    (count : CloneCount grants (lockPlaces requests channels tasks L)) {k : Nat}
    (elsewhere : k ∈ L ∨ .dropLock k ∈ tasks ∨ .takeBack k ∈ tasks) (grant : Grant) :
    Undelivered requests channels (grants.set k grant) := by
  obtain ⟨noRequest, noChannel⟩ := h.not_elsewhere count elsewhere
  have kept : ∀ {g : Nat}, k ≠ g → Unshared grants g → Unshared (grants.set k grant) g := by
    rintro g other ⟨old, here, alone⟩
    exact ⟨old, (List.getElem?_set_ne other).trans here, alone⟩
  constructor
  · intro q member g progress
    have other : k ≠ g := by
      rintro rfl
      exact noRequest q member progress
    exact kept other (h.settled q member g progress)
  · intro ch member g full
    have other : k ≠ g := by
      rintro rfl
      exact noChannel ch member full
    exact kept other (h.sent ch member g full)

/-- A clone that is let go was with a user or with a task. -/
theorem elsewhere_of_letsGo {g : Nat} {L L' : List Nat} {sec : Section} {es : List Event}
    (lets : LetsGo g L sec L' es) (rest : List Task) :
    g ∈ L ∨ .dropLock g ∈ sec.tasks ++ rest ∨ .takeBack g ∈ sec.tasks ++ rest := by
  cases lets with
  | user held => exact .inl held
  | undelivered => exact .inr (.inl (.head _))
  | returned => exact .inr (.inr (.head _))

/-- Every effect keeps locks on their way unshared. -/
theorem keeps {x x' : Instance} {L L' : List Nat} {sec : Section} {a : Agenda Task}
    (effect : Effect x L sec x' a L') (rest : List Task)
    (count : CloneCount x.grants (lockPlaces x.requests x.channels (sec.tasks ++ rest) L))
    (h : Undelivered x.requests x.channels x.grants) :
    Undelivered x'.requests x'.channels x'.grants := by
  cases effect with
  | refuse => exact h.append_request fun _ e => by cases e
  | grantAtOnce =>
      apply (h.append_grant _).append_request
      intro g e
      cases e
      exact unshared_new _ _
  | queue => exact h.append_channel.append_request fun _ e => by cases e
  | takeVerdict | dropGranted | dropDone | dropUnqueued | withdraw =>
      exact h.set_request fun _ e => by cases e
  | receive | fail => exact (h.set_channel fun _ e => by cases e).set_request fun _ e => by cases e
  | wait _ _ channel | closeFull channel | closeEmpty channel =>
      have unshared := h.sent _ (List.mem_of_getElem? channel)
      exact h.set_channel unshared
  | dropReceiver => exact h.set_channel fun _ e => by cases e
  | release held | cloneLock held => exact h.set_grant count (.inl held) _
  | letGoClone lets | letGoLast lets => exact h.set_grant count (elsewhere_of_letsGo lets rest) _
  | grantLost | grantReturned => exact h.append_grant _
  | grant =>
      apply (h.append_grant _).set_channel
      intro g e
      cases e
      exact unshared_new _ _
  | _ => exact h

end Undelivered

namespace World

variable {c : Config} {x : Instance} {ms : List Move} {w : World}

/-- Locks on their way are unshared throughout a run. -/
theorem undelivered (fresh : Instance.create c = .ok x) (run : (start x).run? ms = some w) :
    Undelivered w.inst.requests w.inst.channels w.inst.grants := by
  refine run?_induction (P := fun _ v =>
    Undelivered v.inst.requests v.inst.channels v.inst.grants) ?_ ?_ run
  · rw [eq_ofConfig_of_create fresh]
    constructor
    · intro q member
      cases member
    · intro ch member
      cases member
  · intro ms v m v' hv past hstep
    obtain ⟨rest, a, ht, -, effect⟩ := step?_effect hstep
    have count := cloneCount fresh hv
    rw [ht] at count
    exact past.keeps effect rest count

/-- The slot of a grant that no user has had is held, by one clone of its lock. -/
theorem unshared_of_holdsGrant (fresh : Instance.create c = .ok x)
    (run : (start x).run? ms = some w) {r g : Nat} (h : w.inst.HoldsGrant r g) :
    Unshared w.inst.grants g := by
  have undelivered := undelivered fresh run
  cases h with
  | settled here progress => exact undelivered.settled _ (List.mem_of_getElem? here) g progress
  | delivered _ _ channel full => exact undelivered.sent _ (List.mem_of_getElem? channel) g full

/-- A request keeps its grant, with its slot, until a poll takes it or the request is let go. -/
theorem holdsGrant_of_run? {ms' : List Move} {v : World} {r g : Nat}
    (fresh : Instance.create c = .ok x) (run : (start x).run? ms = some w)
    (run' : w.run? ms' = some v) (h : w.inst.HoldsGrant r g) :
    v.inst.HoldsGrant r g ∨ v.inst.Spent r := by
  refine run?_induction (P := fun _ v => v.inst.HoldsGrant r g ∨ v.inst.Spent r) (.inl h) ?_ run'
  intro ms' u m u' hu past hstep
  obtain ⟨rest, a, ht, -, effect⟩ := step?_effect hstep
  rcases past with holds | spent
  · have ends := channelEnds fresh (run?_trans run hu)
    rw [ht] at ends
    exact effect.holdsGrant ends holds
  · exact .inr (effect.spent spent)

end World

end FairShare
