import FairShare.Proofs.Effect
import FairShare.Proofs.Views

/-!
# The ends of channels

Every channel has one sender and one receiver. The sender is with a request in a queue, with a
task that is about to let it go, or gone; the receiver is with a request that awaits its verdict,
with a task that is about to let it go, or gone. A value is in a channel only when the sender has
left the queue.
-/

namespace FairShare

/-- Whether the grant of the request goes to the channel. -/
def Waiter.sendsOn (c : Nat) (w : Waiter) : Bool :=
  decide (w.channel = c)

/-- Whether the verdict of the request comes on the channel. -/
def Request.awaits (c : Nat) (q : Request) : Bool :=
  match q.progress with
  | .queued _ c' => decide (c' = c)
  | _ => false

/-- Whether one end of a channel is gone; a channel that was not made yet has no ends. -/
def goneAt (gone : Handoff Nat → Bool) (channels : List (Handoff Nat)) (c : Nat) : Bool :=
  channels[c]?.elim true gone

section GoneAt
variable {gone : Handoff Nat → Bool} {channels : List (Handoff Nat)} {c : Nat} {ch : Handoff Nat}

theorem goneAt_of_getElem? (h : channels[c]? = some ch) : goneAt gone channels c = gone ch := by
  simp [goneAt, h]

theorem goneAt_of_missing (h : channels[c]? = none) : goneAt gone channels c = true := by
  simp [goneAt, h]

theorem goneAt_set (h : channels[c]? = some ch) (ch' : Handoff Nat) (d : Nat) :
    goneAt gone (channels.set c ch') d = if d = c then gone ch' else goneAt gone channels d :=
  elim_getElem?_set h true gone ch' d

/-- A change that leaves the end where it is does not show. -/
theorem goneAt_set_eq (h : channels[c]? = some ch) {ch' : Handoff Nat} (e : gone ch' = gone ch)
    (d : Nat) : goneAt gone (channels.set c ch') d = goneAt gone channels d := by
  rw [goneAt_set h]
  split
  · rename_i hd
    rw [hd, e, goneAt_of_getElem? h]
  · rfl

theorem goneAt_append_empty (e : gone Handoff.empty = false) (d : Nat) :
    goneAt gone (channels ++ [Handoff.empty]) d =
      if d = channels.length then false else goneAt gone channels d := by
  rw [← e]
  exact elim_getElem?_append_singleton channels true gone Handoff.empty d

end GoneAt

/-- The places of the senders and the receivers of all channels. -/
structure ChannelEnds (waiters : List Waiter) (requests : List Request)
    (channels : List (Handoff Nat)) (tasks : List Task) : Prop where
  /-- A sender is in a queue, with a task, or gone. -/
  senders : ∀ c, waiters.countP (Waiter.sendsOn c) + tasks.count (.closeSender c) +
    (goneAt Handoff.senderGone channels c).toNat = 1
  /-- A receiver is with a request, with a task, or gone. -/
  receivers : ∀ c, requests.countP (Request.awaits c) + tasks.count (.dropReceiver c) +
    (goneAt Handoff.receiverGone channels c).toNat = 1
  /-- Nothing was sent on a channel whose sender is in a queue. -/
  unsent : ∀ w ∈ waiters, ∀ ch, channels[w.channel]? = some ch → ch.value = none

/-- A fresh instance has no channels. -/
theorem channelEnds_nil : ChannelEnds [] [] [] [] := by
  refine ⟨fun c => ?_, fun c => ?_, fun w hw => ?_⟩
  · rfl
  · rfl
  · cases hw

namespace ChannelEnds

variable {waiters waiters' : List Waiter} {requests : List Request}
  {channels : List (Handoff Nat)} {tasks tasks' : List Task}

/-- The channel of a request in a queue was made, and its sender is not gone. -/
theorem sender_of_mem (h : ChannelEnds waiters requests channels tasks) {w : Waiter}
    (hw : w ∈ waiters) :
    waiters.countP (Waiter.sendsOn w.channel) = 1 ∧ .closeSender w.channel ∉ tasks ∧
      ∃ ch, channels[w.channel]? = some ch ∧ ch.senderGone = false := by
  have hpos : 0 < waiters.countP (Waiter.sendsOn w.channel) :=
    List.countP_pos_iff.mpr ⟨w, hw, by simp [Waiter.sendsOn]⟩
  have hone := h.senders w.channel
  refine ⟨by omega, fun hmem => ?_, ?_⟩
  · have := List.count_pos_iff.mpr hmem
    omega
  · cases channel : channels[w.channel]? with
    | none =>
        rw [goneAt_of_missing channel, Bool.toNat_true] at hone
        omega
    | some ch =>
        rw [goneAt_of_getElem? channel] at hone
        cases gone : ch.senderGone with
        | true =>
            rw [gone, Bool.toNat_true] at hone
            omega
        | false => exact ⟨ch, rfl, gone⟩

/-- The channel of a request that awaits its verdict was made, and its receiver is not gone. -/
theorem receiver_of_awaits (h : ChannelEnds waiters requests channels tasks) {r c : Nat}
    {q : Request} (here : requests[r]? = some q) (hq : q.awaits c = true) :
    requests.countP (Request.awaits c) = 1 ∧ .dropReceiver c ∉ tasks ∧
      ∃ ch, channels[c]? = some ch ∧ ch.receiverGone = false := by
  have hpos : 0 < requests.countP (Request.awaits c) :=
    List.countP_pos_iff.mpr ⟨q, List.mem_of_getElem? here, hq⟩
  have hone := h.receivers c
  refine ⟨by omega, fun hmem => ?_, ?_⟩
  · have := List.count_pos_iff.mpr hmem
    omega
  · cases channel : channels[c]? with
    | none =>
        rw [goneAt_of_missing channel, Bool.toNat_true] at hone
        omega
    | some ch =>
        rw [goneAt_of_getElem? channel] at hone
        cases gone : ch.receiverGone with
        | true =>
            rw [gone, Bool.toNat_true] at hone
            omega
        | false => exact ⟨ch, rfl, gone⟩

/-- Only the tasks that let ends go count. -/
theorem retask (h : ChannelEnds waiters requests channels tasks)
    (closing : ∀ c, tasks'.count (.closeSender c) = tasks.count (.closeSender c))
    (dropping : ∀ c, tasks'.count (.dropReceiver c) = tasks.count (.dropReceiver c)) :
    ChannelEnds waiters requests channels tasks' where
  senders c := by rw [closing]; exact h.senders c
  receivers c := by rw [dropping]; exact h.receivers c
  unsent := h.unsent

/-- The order of the queued requests does not count. -/
theorem perm (h : ChannelEnds waiters requests channels tasks) (p : waiters.Perm waiters') :
    ChannelEnds waiters' requests channels tasks where
  senders c := by rw [← p.countP_eq]; exact h.senders c
  receivers := h.receivers
  unsent w hw := h.unsent w (p.mem_iff.mpr hw)

/-- A request that never awaited anything and still does not. -/
theorem append_request (h : ChannelEnds waiters requests channels tasks) {q : Request}
    (hq : ∀ c, q.awaits c = false) : ChannelEnds waiters (requests ++ [q]) channels tasks where
  senders := h.senders
  receivers c := by
    have hone := h.receivers c
    simpa [List.countP_append, hq c] using hone
  unsent := h.unsent

theorem set_request (h : ChannelEnds waiters requests channels tasks) {r : Nat} {q q' : Request}
    (here : requests[r]? = some q) (same : ∀ c, q'.awaits c = q.awaits c) :
    ChannelEnds waiters (requests.set r q') channels tasks where
  senders := h.senders
  receivers c := by
    have count := countP_set_add (Request.awaits c) here q'
    rw [same] at count
    have hone := h.receivers c
    omega
  unsent := h.unsent

/-- A channel that changes without a loss of an end and gets no value. -/
theorem set_channel (h : ChannelEnds waiters requests channels tasks) {c : Nat}
    {ch ch' : Handoff Nat} (channel : channels[c]? = some ch)
    (sender : ch'.senderGone = ch.senderGone) (receiver : ch'.receiverGone = ch.receiverGone)
    (value : ch.value = none → ch'.value = none) :
    ChannelEnds waiters requests (channels.set c ch') tasks where
  senders d := by rw [goneAt_set_eq channel sender]; exact h.senders d
  receivers d := by rw [goneAt_set_eq channel receiver]; exact h.receivers d
  unsent w hw ch₀ hch := by
    rcases of_getElem?_set hch with ⟨rfl, rfl⟩ | ⟨-, hch⟩
    · exact value (h.unsent w hw ch channel)
    · exact h.unsent w hw ch₀ hch

/-- A request that queues comes with a channel of its own. -/
theorem enqueue (h : ChannelEnds waiters requests channels tasks) (p : Nat) (ticket : UInt64) :
    ChannelEnds (⟨ticket, channels.length⟩ :: waiters)
      (requests ++ [{ priority := p, progress := .queued ticket channels.length }])
      (channels ++ [Handoff.empty]) tasks := by
  have missing : channels[channels.length]? = none := List.getElem?_eq_none (Nat.le_refl _)
  have sender := h.senders channels.length
  have receiver := h.receivers channels.length
  rw [goneAt_of_missing missing, Bool.toNat_true] at sender receiver
  refine ⟨fun c => ?_, fun c => ?_, fun w hw ch hch => ?_⟩
  · rw [goneAt_append_empty rfl, List.countP_cons]
    by_cases hc : c = channels.length
    · subst hc
      simp only [Waiter.sendsOn, decide_true, if_true, Bool.toNat_false] at sender ⊢
      omega
    · have hone := h.senders c
      simp only [Waiter.sendsOn, decide_eq_true_eq, if_neg hc, if_neg (Ne.symm hc)] at hone ⊢
      exact hone
  · rw [goneAt_append_empty rfl, List.countP_append, List.countP_singleton]
    by_cases hc : c = channels.length
    · subst hc
      simp only [Request.awaits, decide_true, if_true, Bool.toNat_false] at receiver ⊢
      omega
    · have hone := h.receivers c
      simp only [Request.awaits, decide_eq_true_eq, if_neg hc, if_neg (Ne.symm hc)] at hone ⊢
      exact hone
  · rcases List.mem_cons.mp hw with rfl | hw
    · cases List.getElem?_concat_length.symm.trans hch
      rfl
    · obtain ⟨-, -, ch₀, channel, -⟩ := h.sender_of_mem hw
      cases (getElem?_append_of_some channel _).symm.trans hch
      exact h.unsent w hw ch channel

theorem count_closeSender_map (waiters : List Waiter) (c : Nat) :
    (waiters.map fun w => Task.closeSender w.channel).count (.closeSender c) =
      waiters.countP (Waiter.sendsOn c) := by
  rw [List.count, List.countP_map]
  refine List.countP_congr fun w _ => ?_
  simp [Waiter.sendsOn]

/-- When all queues are emptied, the senders go over to tasks. -/
theorem drain (h : ChannelEnds waiters requests channels tasks) :
    ChannelEnds [] requests channels
      ((waiters.map fun w => .closeSender w.channel) ++ tasks) where
  senders c := by
    have hone := h.senders c
    rw [List.count_append, count_closeSender_map, List.countP_nil]
    omega
  receivers c := by
    have hone := h.receivers c
    have none : (waiters.map fun w => Task.closeSender w.channel).count (.dropReceiver c) = 0 := by
      simp [List.count_eq_zero]
    rw [List.count_append, none]
    omega
  unsent w hw := absurd hw (List.not_mem_nil)

/-- When one request leaves its queue, its sender goes over to a task. -/
theorem leave {w : Waiter} (h : ChannelEnds (w :: waiters) requests channels tasks) :
    ChannelEnds waiters requests channels (.closeSender w.channel :: tasks) where
  senders c := by
    have hone := h.senders c
    rw [List.countP_cons] at hone
    rw [List.count_cons]
    by_cases hc : w.channel = c
    · simp only [Waiter.sendsOn, hc, decide_true, if_true, beq_self_eq_true] at hone ⊢
      omega
    · simpa [Waiter.sendsOn, hc] using hone
  receivers c := by simpa using h.receivers c
  unsent w' hw' := h.unsent w' (List.mem_cons_of_mem w hw')

/-- The channel of a request that left its queue takes its grant. -/
theorem deliver {w : Waiter} (h : ChannelEnds (w :: waiters) requests channels tasks)
    {ch ch' : Handoff Nat} (channel : channels[w.channel]? = some ch)
    (sender : ch'.senderGone = ch.senderGone) (receiver : ch'.receiverGone = ch.receiverGone) :
    ChannelEnds waiters requests (channels.set w.channel ch')
      (.closeSender w.channel :: tasks) where
  senders c := by rw [goneAt_set_eq channel sender]; exact h.leave.senders c
  receivers c := by rw [goneAt_set_eq channel receiver]; exact h.leave.receivers c
  unsent w' hw' ch₀ hch := by
    have apart : w.channel ≠ w'.channel := by
      intro e
      have hone := (h.sender_of_mem List.mem_cons_self).1
      have hpos : 0 < waiters.countP (Waiter.sendsOn w.channel) :=
        List.countP_pos_iff.mpr ⟨w', hw', by simp [Waiter.sendsOn, e]⟩
      rw [List.countP_cons_of_pos (by simp [Waiter.sendsOn])] at hone
      omega
    rw [List.getElem?_set_ne apart] at hch
    exact h.unsent w' (List.mem_cons_of_mem w hw') ch₀ hch

/-- A task lets the sender go. -/
theorem close {c : Nat} (h : ChannelEnds waiters requests channels (.closeSender c :: tasks))
    {ch ch' : Handoff Nat} (channel : channels[c]? = some ch) (sender : ch'.senderGone = true)
    (receiver : ch'.receiverGone = ch.receiverGone) (value : ch'.value = ch.value) :
    ChannelEnds waiters requests (channels.set c ch') tasks where
  senders d := by
    have hone := h.senders d
    rw [goneAt_set channel]
    by_cases hd : d = c
    · subst hd
      rw [if_pos rfl, sender, Bool.toNat_true]
      rw [List.count_cons_self] at hone
      omega
    · rw [if_neg hd]
      rwa [List.count_cons_of_ne (by simpa using Ne.symm hd)] at hone
  receivers d := by
    rw [goneAt_set_eq channel receiver]
    simpa using h.receivers d
  unsent w hw ch₀ hch := by
    rcases of_getElem?_set hch with ⟨rfl, rfl⟩ | ⟨-, hch⟩
    · rw [value]
      exact h.unsent w hw ch channel
    · exact h.unsent w hw ch₀ hch

/-- A request stops awaiting its verdict, and its receiver goes over to a task. -/
theorem abandon (h : ChannelEnds waiters requests channels tasks) {r c : Nat} {q q' : Request}
    (here : requests[r]? = some q) (awaits : ∀ d, q.awaits d = decide (c = d))
    (after : ∀ d, q'.awaits d = false) :
    ChannelEnds waiters (requests.set r q') channels (.dropReceiver c :: tasks) where
  senders d := by simpa using h.senders d
  receivers d := by
    have hone := h.receivers d
    have count := countP_set_add (Request.awaits d) here q'
    rw [after, awaits] at count
    rw [List.count_cons]
    by_cases hd : c = d
    · subst hd
      simp only [decide_true, Bool.toNat_true, Bool.toNat_false, beq_self_eq_true, if_true]
        at count ⊢
      omega
    · simp only [hd, decide_false, Bool.toNat_false] at count
      simp only [beq_iff_eq, Task.dropReceiver.injEq, hd, if_false]
      omega
  unsent := h.unsent

/-- A task lets the receiver go. -/
theorem dropReceiver {c : Nat}
    (h : ChannelEnds waiters requests channels (.dropReceiver c :: tasks)) {ch ch' : Handoff Nat}
    (channel : channels[c]? = some ch) (sender : ch'.senderGone = ch.senderGone)
    (receiver : ch'.receiverGone = true) (value : ch'.value = none) :
    ChannelEnds waiters requests (channels.set c ch') tasks where
  senders d := by
    rw [goneAt_set_eq channel sender]
    simpa using h.senders d
  receivers d := by
    have hone := h.receivers d
    rw [goneAt_set channel]
    by_cases hd : d = c
    · subst hd
      rw [if_pos rfl, receiver, Bool.toNat_true]
      rw [List.count_cons_self] at hone
      omega
    · rw [if_neg hd]
      rwa [List.count_cons_of_ne (by simpa using Ne.symm hd)] at hone
  unsent w hw ch₀ hch := by
    rcases of_getElem?_set hch with ⟨-, rfl⟩ | ⟨-, hch⟩
    · exact value
    · exact h.unsent w hw ch₀ hch

/-- A poll takes the verdict off the channel, and the receiver goes with it. -/
theorem finish (h : ChannelEnds waiters requests channels tasks) {r c : Nat} {q q' : Request}
    (here : requests[r]? = some q) (awaits : ∀ d, q.awaits d = decide (c = d))
    (after : ∀ d, q'.awaits d = false) {ch ch' : Handoff Nat} (channel : channels[c]? = some ch)
    (sender : ch'.senderGone = ch.senderGone) (receiver : ch'.receiverGone = true)
    (value : ch'.value = none) :
    ChannelEnds waiters (requests.set r q') (channels.set c ch') tasks :=
  (h.abandon here awaits after).dropReceiver channel sender receiver value

/-- The first request in turn takes its sender to a task. -/
theorem grantFirst {s s₁ s₂ : LockState} {p : Nat} {w : Waiter} {o : Option Nat}
    (h : ChannelEnds s.waiters requests channels tasks) (scan : s.nextInTurn? = (o, s₁))
    (first : s₁.grantFirst? p = some (w, s₂)) :
    ChannelEnds (w :: s₂.waiters) requests channels tasks := by
  obtain ⟨turn, s₃, rfl, leaves, rfl⟩ := LockState.turn_leaves_take scan first
  rw [LockState.waiters_takeSlot]
  exact h.perm leaves.waiters_perm

/-- Every effect keeps the counts. -/
theorem keeps {x x' : Instance} {L L' : List Nat} {sec : Section} {a : Agenda Task}
    (effect : Effect x L sec x' a L') (rest : List Task)
    (h : ChannelEnds x.state.waiters x.requests x.channels (sec.tasks ++ rest)) :
    ChannelEnds x'.state.waiters x'.requests x'.channels (tasksOf a ++ rest) := by
  cases effect with
  | idle | outOfRange | killAgain | pollAgain | releaseAgain | cloneHandle | cloneLock
  | cloneMissing | dropLoop => exact h
  | refuse => exact h.append_request fun _ => rfl
  | grantAtOnce =>
      rw [LockState.waiters_takeSlot]
      exact h.append_request fun _ => rfl
  | queue _ room =>
      refine ((h.enqueue _ _).perm (LockState.waiters_enqueue_perm _ room).symm).retask ?_ ?_
      all_goals simp
  | halt =>
      rw [LockState.waiters_halt]
      exact h.retask (by simp) (by simp)
  | kill _ alive =>
      rw [LockState.waiters_kill alive]
      exact h.drain.retask (by simp) (by simp)
  | destroy _ alive =>
      rw [LockState.waiters_kill alive]
      exact h.drain.retask (by simp) (by simp)
  | takeVerdict here settled => exact h.set_request here (by simp [Request.awaits, settled])
  | wait here queued channel empty =>
      exact h.set_channel channel rfl rfl fun _ => empty
  | receive here queued channel | fail here queued channel =>
      exact h.finish here (by simp [Request.awaits, queued]) (fun _ => rfl) channel rfl rfl rfl
  | dropGranted here settled =>
      exact retask (h.set_request here (by simp [Request.awaits, settled])) (by simp) (by simp)
  | dropDone here done =>
      refine h.set_request here fun c => ?_
      rcases done with done | done | done <;> simp [Request.awaits, done]
  | dropUnqueued here queued =>
      exact h.abandon here (by simp [Request.awaits, queued]) fun _ => rfl
  | withdraw here queued _ found =>
      have left := (h.perm (LockState.leaves_of_withdraw? found).2.waiters_perm).leave
      exact retask (left.abandon here (by simp [Request.awaits, queued]; rfl) fun _ => rfl)
        (by simp [List.count_cons]) (by simp [List.count_cons])
  | release =>
      rw [LockState.waiters_returnSlot]
      exact h.retask (by simp) (by simp)
  | letGoMissing lets => cases lets <;> exact h.retask (by simp) (by simp)
  | letGoClone lets => cases lets <;> exact h.retask (by simp) (by simp)
  | letGoLast lets =>
      rw [LockState.waiters_returnSlot]
      cases lets <;> exact h.retask (by simp) (by simp)
  | closeFull channel => exact h.close channel rfl rfl rfl
  | closeEmpty channel => exact retask (h.close channel rfl rfl rfl) (by simp) (by simp)
  | @closeMissing c missing =>
      -- the sender of a channel that was never made is with nobody
      have hone := h.senders c
      simp [goneAt_of_missing missing] at hone
  | dropReceiver channel =>
      refine retask (h.dropReceiver channel rfl rfl rfl) ?_ ?_
      all_goals simp [List.count_eq_zero]
  | @dropReceiverMissing c missing =>
      have hone := h.receivers c
      simp [goneAt_of_missing missing] at hone
  | passStalled _ _ _ scan | passEmpty _ _ _ scan =>
      obtain ⟨turn, rfl⟩ := LockState.eq_turn_of_nextInTurn? scan
      exact h.retask (by simp) (by simp)
  | grantLost _ _ _ scan first missing =>
      obtain ⟨-, -, ch, channel, -⟩ := (h.grantFirst scan first).sender_of_mem List.mem_cons_self
      cases missing.symm.trans channel
  | grantReturned _ _ _ scan first =>
      exact (h.grantFirst scan first).leave.retask (by simp [List.count_cons]) (by simp)
  | grant _ _ _ scan first channel =>
      exact retask ((h.grantFirst scan first).deliver channel rfl rfl) (by simp [List.count_cons])
        (by simp)
  | _ => exact h.retask (by simp) (by simp)

end ChannelEnds

/-- The channels of a run have their ends in place. -/
theorem World.channelEnds {c : Config} {x : Instance} {ms : List Move} {w : World}
    (fresh : Instance.create c = .ok x) (run : (World.start x).run? ms = some w) :
    ChannelEnds w.inst.state.waiters w.inst.requests w.inst.channels w.tasks := by
  refine World.run?_invariant
    (I := fun x tasks _ => ChannelEnds x.state.waiters x.requests x.channels tasks) ?_ run ?_
  · intro x L sec x' a L' effect rest h
    exact h.keeps effect rest
  · rw [eq_ofConfig_of_create fresh]
    change ChannelEnds (LockState.ofConfig c).waiters [] [] []
    rw [LockState.waiters_ofConfig]
    exact channelEnds_nil

end FairShare
