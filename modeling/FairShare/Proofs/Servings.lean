import FairShare.Proofs.Admissions
import FairShare.Proofs.Passes
import FairShare.Proofs.Polls
import FairShare.Proofs.Registrations
import FairShare.Proofs.Reuse
import FairShare.Proofs.Undisturbed

/-!
# What one poll of the grant loop serves

A poll that finds the permit runs a pass, and a pass grants as long as a slot is free and a request
waits. The shares change with every grant, since runners grow and priorities leave the demand, but
the scan finds a priority each time. So if the wakers that are called do nothing, one poll serves as
many requests as there are free slots, or all that wait, and each queue loses requests from its
front only.
-/

namespace FairShare

/-- The requests of the priority among those that were served, in order. -/
def servedAt (p : Nat) (served : List (Nat × Waiter)) : List Waiter :=
  (served.filter fun e => decide (e.1 = p)).map Prod.snd

theorem servedAt_append (p : Nat) (served more : List (Nat × Waiter)) :
    servedAt p (served ++ more) = servedAt p served ++ servedAt p more := by
  simp [servedAt]

/-- What serving these requests in this order, each given with its priority, makes of an instance.
Each gets a grant of its own, which lies in its channel. -/
structure Serves (served : List (Nat × Waiter)) (x y : Instance) : Prop where
  free : y.state.free = x.state.free - served.length
  waiting : x.state.waiting = y.state.waiting + served.length
  halted : y.state.halted = x.state.halted
  owners : y.owners = x.owners + served.length
  grants : y.grants = x.grants ++ served.map fun e => { priority := e.1 }
  counted : y.loop.grants = x.loop.grants + served.length
  requests : y.requests = x.requests
  room : y.channels.length = x.channels.length
  queues : ∀ p, x.state.queueAt p = servedAt p served ++ y.state.queueAt p
  runners : ∀ p, y.state.runnersAt p = x.state.runnersAt p + (servedAt p served).length
  /-- The grant of a request lies in its channel. -/
  sent : ∀ i e, served[i]? = some e → ∃ ch, y.channels[e.2.channel]? = some ch ∧
    ch.value = some (x.grants.length + i)
  /-- The other channels are as before. -/
  others : ∀ c, (∀ e ∈ served, e.2.channel ≠ c) → y.channels[c]? = x.channels[c]?

namespace Serves

variable {served more : List (Nat × Waiter)} {x y z : Instance}

theorem nil (x : Instance) : Serves [] x x where
  free := (Int.sub_zero _).symm
  waiting := rfl
  halted := rfl
  owners := rfl
  grants := (List.append_nil _).symm
  counted := rfl
  requests := rfl
  room := rfl
  queues _ := rfl
  runners _ := rfl
  sent i e here := by simp at here
  others _ _ := rfl

/-- Serving some and then others is serving all of them, if nothing was sent to the others yet. -/
theorem trans (h : Serves served x y) (h' : Serves more y z)
    (unsent : ∀ e ∈ more, ∀ ch, y.channels[e.2.channel]? = some ch → ch.value = none) :
    Serves (served ++ more) x z where
  free := by
    rw [h'.free, h.free, List.length_append]
    omega
  waiting := by
    rw [h.waiting, h'.waiting, List.length_append]
    omega
  halted := h'.halted.trans h.halted
  owners := by rw [h'.owners, h.owners, List.length_append, Nat.add_assoc]
  grants := by rw [h'.grants, h.grants, List.map_append, List.append_assoc]
  counted := by rw [h'.counted, h.counted, List.length_append, Nat.add_assoc]
  requests := h'.requests.trans h.requests
  room := h'.room.trans h.room
  queues p := by rw [h.queues, h'.queues, servedAt_append, List.append_assoc]
  runners p := by rw [h'.runners, h.runners, servedAt_append, List.length_append, Nat.add_assoc]
  sent i e here := by
    rcases Nat.lt_or_ge i served.length with early | late
    · rw [List.getElem?_append_left early] at here
      obtain ⟨ch, channel, full⟩ := h.sent i e here
      have apart : ∀ e' ∈ more, e'.2.channel ≠ e.2.channel := by
        intro e' member same
        cases full.symm.trans (unsent e' member ch (same ▸ channel))
      exact ⟨ch, (h'.others _ apart).trans channel, full⟩
    · rw [List.getElem?_append_right late] at here
      obtain ⟨ch, channel, full⟩ := h'.sent _ e here
      refine ⟨ch, channel, full.trans ?_⟩
      rw [h.grants, List.length_append, List.length_map]
      congr 1
      omega
  others c apart := by
    rw [h'.others c fun e member => apart e (List.mem_append_right _ member),
      h.others c fun e member => apart e (List.mem_append_left _ member)]

end Serves

namespace World

section Runs
variable {c : Config} {x : Instance} {ms : List Move} {w : World}

/-- A poll of the grant loop that begins between calls, and during which wakers make no calls, ends
in `v`. -/
def DriveEnds (k : Waker) (w v : World) : Prop :=
  ∃ u, w.step? (.call (.drive k)) = some u ∧ Unfolds u v ∧ v.isIdle = true

/-- The poll ends in one way only. -/
theorem DriveEnds.unique {k : Waker} {v v' : World} (h : w.DriveEnds k v) (h' : w.DriveEnds k v') :
    v' = v := by
  obtain ⟨u, step, unfolds, idle⟩ := h
  obtain ⟨u', step', unfolds', idle'⟩ := h'
  obtain rfl := Option.some.inj (step.symm.trans step')
  exact unfolds'.unique unfolds idle' idle

theorem DriveEnds.exists_run {k : Waker} {v : World} (h : w.DriveEnds k v) :
    ∃ ms, w.run? (.call (.drive k) :: ms) = some v := by
  obtain ⟨u, step, ⟨ms, run, -⟩, -⟩ := h
  refine ⟨ms, ?_⟩
  rw [run?_cons, step]
  exact run

end Runs

end World

end FairShare
