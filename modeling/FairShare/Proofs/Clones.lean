import FairShare.Proofs.Channels

/-!
# The places of locks

All clones of a lock share one grant, which counts them. A clone is in the hands of a user, with a
request whose verdict was not taken yet, in a channel, or with a task that is about to let it go.
The grant is released at the latest when the last clone is gone.
-/

namespace FairShare

/-- Whether the request was granted at once and the lock is still with it. -/
def Request.holds (g : Nat) (q : Request) : Bool :=
  decide (q.progress = .settled (some (.granted g)))

/-- Whether the lock is in the channel. -/
def Handoff.carries (g : Nat) (ch : Handoff Nat) : Bool :=
  decide (ch.value = some g)

theorem Request.holds_of_granted {q : Request} {k : Nat}
    (h : q.progress = .settled (some (.granted k))) (g : Nat) : q.holds g = decide (k = g) := by
  simp [Request.holds, h]

theorem Request.holds_of_queued {q : Request} {ticket : UInt64} {c : Nat}
    (h : q.progress = .queued ticket c) (g : Nat) : q.holds g = false := by
  simp [Request.holds, h]

theorem Handoff.carries_of_full {ch : Handoff Nat} {k : Nat} (h : ch.value = some k) (g : Nat) :
    ch.carries g = decide (k = g) := by
  simp [Handoff.carries, h]

theorem Handoff.carries_of_empty {ch : Handoff Nat} (h : ch.value = none) (g : Nat) :
    ch.carries g = false := by
  simp [Handoff.carries, h]

/-- The clones of a lock that are somewhere: with users, requests, channels and tasks. -/
def lockPlaces (requests : List Request) (channels : List (Handoff Nat)) (tasks : List Task)
    (L : List Nat) (g : Nat) : Nat :=
  L.count g + requests.countP (Request.holds g) + channels.countP (Handoff.carries g) +
    tasks.count (.dropLock g) + tasks.count (.takeBack g)

section LockPlaces
variable {requests : List Request} {channels : List (Handoff Nat)} {tasks tasks' : List Task}
  {L L' : List Nat} (g : Nat)

theorem lockPlaces_lock (k : Nat) :
    lockPlaces requests channels tasks (k :: L) g =
      lockPlaces requests channels tasks L g + (decide (k = g)).toNat := by
  unfold lockPlaces
  rw [count_cons_add]
  omega

theorem lockPlaces_dropLock (k : Nat) :
    lockPlaces requests channels (.dropLock k :: tasks) L g =
      lockPlaces requests channels tasks L g + (decide (k = g)).toNat := by
  unfold lockPlaces
  rw [count_cons_add, count_cons_add]
  simp
  omega

theorem lockPlaces_takeBack (k : Nat) :
    lockPlaces requests channels (.takeBack k :: tasks) L g =
      lockPlaces requests channels tasks L g + (decide (k = g)).toNat := by
  unfold lockPlaces
  rw [count_cons_add, count_cons_add]
  simp
  omega

/-- Only the tasks that let locks go count. -/
theorem lockPlaces_retask (dropping : tasks'.count (.dropLock g) = tasks.count (.dropLock g))
    (taking : tasks'.count (.takeBack g) = tasks.count (.takeBack g)) :
    lockPlaces requests channels tasks' L g = lockPlaces requests channels tasks L g := by
  simp [lockPlaces, dropping, taking]

theorem lockPlaces_append_request (q : Request) :
    lockPlaces (requests ++ [q]) channels tasks L g =
      lockPlaces requests channels tasks L g + (q.holds g).toNat := by
  unfold lockPlaces
  rw [countP_append_singleton]
  omega

theorem lockPlaces_append_channel (ch : Handoff Nat) :
    lockPlaces requests (channels ++ [ch]) tasks L g =
      lockPlaces requests channels tasks L g + (ch.carries g).toNat := by
  unfold lockPlaces
  rw [countP_append_singleton]
  omega

variable (channels tasks L) in
theorem lockPlaces_set_request {r : Nat} {q : Request} (here : requests[r]? = some q)
    (q' : Request) :
    lockPlaces (requests.set r q') channels tasks L g + (q.holds g).toNat =
      lockPlaces requests channels tasks L g + (q'.holds g).toNat := by
  have count := countP_set_add (Request.holds g) here q'
  unfold lockPlaces
  omega

variable (requests tasks L) in
theorem lockPlaces_set_channel {c : Nat} {ch : Handoff Nat} (channel : channels[c]? = some ch)
    (ch' : Handoff Nat) :
    lockPlaces requests (channels.set c ch') tasks L g + (ch.carries g).toNat =
      lockPlaces requests channels tasks L g + (ch'.carries g).toNat := by
  have count := countP_set_add (Handoff.carries g) channel ch'
  unfold lockPlaces
  omega

/-- A request that changes without a change of what it holds. -/
theorem lockPlaces_same_request {r : Nat} {q q' : Request} (here : requests[r]? = some q)
    (same : q'.holds g = q.holds g) :
    lockPlaces (requests.set r q') channels tasks L g = lockPlaces requests channels tasks L g := by
  have count := lockPlaces_set_request channels tasks L g here q'
  rw [same] at count
  omega

/-- A channel that changes without a change of its value. -/
theorem lockPlaces_same_channel {c : Nat} {ch ch' : Handoff Nat} (channel : channels[c]? = some ch)
    (same : ch'.value = ch.value) :
    lockPlaces requests (channels.set c ch') tasks L g =
      lockPlaces requests channels tasks L g := by
  have count := lockPlaces_set_channel requests tasks L g channel ch'
  unfold Handoff.carries at count
  rw [same] at count
  omega

/-- A poll takes a verdict that was there from the start, with its lock. -/
theorem lockPlaces_takeVerdict {r : Nat} {q q' : Request} {v : Verdict}
    (here : requests[r]? = some q) (settled : q.progress = .settled (some v))
    (taken : q'.progress = .settled none) :
    lockPlaces (requests.set r q') channels tasks (v.locks ++ L) g =
      lockPlaces requests channels tasks L g := by
  have after : q'.holds g = false := by simp [Request.holds, taken]
  cases v with
  | granted k =>
      have count := lockPlaces_set_request channels tasks L g here q'
      rw [after, Request.holds_of_granted settled] at count
      rw [Verdict.locks, List.singleton_append, lockPlaces_lock]
      exact count
  | killed =>
      have before : q.holds g = false := by simp [Request.holds, settled]
      exact lockPlaces_same_request g here (after.trans before.symm)

/-- A channel gives its lock to a user. -/
theorem lockPlaces_receive {c k : Nat} {ch ch' : Handoff Nat} (channel : channels[c]? = some ch)
    (full : ch.value = some k) (empty : ch'.value = none) :
    lockPlaces requests (channels.set c ch') tasks (k :: L) g =
      lockPlaces requests channels tasks L g := by
  have count := lockPlaces_set_channel requests tasks L g channel ch'
  rw [Handoff.carries_of_full full, Handoff.carries_of_empty empty] at count
  rw [lockPlaces_lock]
  exact count

/-- A channel takes a lock that is new. -/
theorem lockPlaces_fill {c k : Nat} {ch ch' : Handoff Nat} (channel : channels[c]? = some ch)
    (empty : ch.value = none) (full : ch'.value = some k) :
    lockPlaces requests (channels.set c ch') tasks L g =
      lockPlaces requests channels tasks L g + (decide (k = g)).toNat := by
  have count := lockPlaces_set_channel requests tasks L g channel ch'
  rw [Handoff.carries_of_full full, Handoff.carries_of_empty empty] at count
  exact count

/-- The lock in a channel that loses its receiver goes to a task. -/
theorem lockPlaces_dropReceiver {c : Nat} {ch ch' : Handoff Nat}
    (channel : channels[c]? = some ch) (empty : ch'.value = none) :
    lockPlaces requests (channels.set c ch') (ch.value.toList.map .dropLock ++ tasks) L g =
      lockPlaces requests channels tasks L g := by
  cases value : ch.value with
  | none => exact lockPlaces_same_channel g channel (empty.trans value.symm)
  | some k =>
      have count := lockPlaces_set_channel requests tasks L g channel ch'
      rw [Handoff.carries_of_full value, Handoff.carries_of_empty empty] at count
      refine (lockPlaces_dropLock g k).trans ?_
      exact count

/-- The lock of a request that is let go goes to a task. -/
theorem lockPlaces_dropGranted {r k : Nat} {q q' : Request} (here : requests[r]? = some q)
    (settled : q.progress = .settled (some (.granted k))) (dropped : q'.progress = .dropped) :
    lockPlaces (requests.set r q') channels (.dropLock k :: tasks) L g =
      lockPlaces requests channels tasks L g := by
  have count := lockPlaces_set_request channels tasks L g here q'
  have after : q'.holds g = false := by simp [Request.holds, dropped]
  rw [after, Request.holds_of_granted settled] at count
  rw [lockPlaces_dropLock]
  exact count

/-- Letting a clone go takes it from its place. -/
theorem lockPlaces_letsGo {k : Nat} {sec : Section} {es : List Event}
    (lets : LetsGo k L sec L' es) :
    lockPlaces requests channels (sec.tasks ++ tasks) L g =
      lockPlaces requests channels tasks L' g + (decide (k = g)).toNat := by
  cases lets with
  | user held =>
      rw [← lockPlaces_lock]
      have same := (List.perm_cons_erase held).count_eq g
      simp [lockPlaces, same]
  | undelivered => exact lockPlaces_dropLock g k
  | returned => exact lockPlaces_takeBack g k

end LockPlaces

/-- The clones that a grant counts. -/
def clonesAt (grants : List Grant) (g : Nat) : Nat :=
  grants[g]?.elim 0 Grant.clones

section ClonesAt
variable {grants : List Grant} {g : Nat} {grant : Grant}

theorem clonesAt_of_getElem? (h : grants[g]? = some grant) : clonesAt grants g = grant.clones := by
  simp [clonesAt, h]

theorem clonesAt_of_missing (h : grants[g]? = none) : clonesAt grants g = 0 := by
  simp [clonesAt, h]

theorem clonesAt_set (h : grants[g]? = some grant) (grant' : Grant) (k : Nat) :
    clonesAt (grants.set g grant') k = if k = g then grant'.clones else clonesAt grants k :=
  elim_getElem?_set h 0 Grant.clones grant' k

theorem clonesAt_append (grants : List Grant) (grant : Grant) (k : Nat) :
    clonesAt (grants ++ [grant]) k =
      if k = grants.length then grant.clones else clonesAt grants k :=
  elim_getElem?_append_singleton grants 0 Grant.clones grant k

end ClonesAt

/-- The grants count the clones in all places, and one without clones is released. -/
structure CloneCount (grants : List Grant) (places : Nat → Nat) : Prop where
  clones : ∀ g, clonesAt grants g = places g
  /-- With the last clone the slot is given back. -/
  released : ∀ (g : Nat) (grant : Grant), grants[g]? = some grant → grant.clones = 0 →
    grant.released = true

namespace CloneCount

variable {grants : List Grant} {places places' : Nat → Nat}

/-- A lock that is somewhere belongs to a grant that was made. -/
theorem exists_of_pos {g : Nat} (h : CloneCount grants places) (pos : 0 < places g) :
    ∃ grant, grants[g]? = some grant ∧ 0 < grant.clones := by
  rw [← h.clones] at pos
  cases here : grants[g]? with
  | none =>
      rw [clonesAt_of_missing here] at pos
      exact absurd pos (Nat.lt_irrefl 0)
  | some grant =>
      rw [clonesAt_of_getElem? here] at pos
      exact ⟨grant, rfl, pos⟩

/-- Locks that change places stay counted. -/
theorem move (h : CloneCount grants places) (same : ∀ g, places' g = places g) :
    CloneCount grants places' where
  clones g := by rw [same, h.clones]
  released := h.released

/-- A grant that changes together with the places of its own lock. -/
theorem set_grant {g : Nat} {grant grant' : Grant} (h : CloneCount grants places)
    (here : grants[g]? = some grant) (clones : grant'.clones = places' g)
    (others : ∀ k, k ≠ g → places' k = places k)
    (released : grant'.clones = 0 → grant'.released = true) :
    CloneCount (grants.set g grant') places' where
  clones k := by
    rw [clonesAt_set here]
    split
    · rename_i hk
      rw [hk, clones]
    · rename_i hk
      rw [others k hk, h.clones]
  released k grant₁ hk := by
    rcases of_getElem?_set hk with ⟨-, rfl⟩ | ⟨-, hk⟩
    · exact released
    · exact h.released k grant₁ hk

/-- A grant that is released keeps its clones. -/
theorem release {g : Nat} {grant grant' : Grant} (h : CloneCount grants places)
    (here : grants[g]? = some grant) (clones : grant'.clones = grant.clones)
    (released : grant'.released = true) (same : ∀ k, places' k = places k) :
    CloneCount (grants.set g grant') places' := by
  have count := h.clones g
  rw [clonesAt_of_getElem? here] at count
  apply h.set_grant here
  · rw [clones, count, same]
  · exact fun k _ => same k
  · exact fun _ => released

/-- A clone that is added has a place. -/
theorem clone {g : Nat} {grant grant' : Grant} (h : CloneCount grants places)
    (here : grants[g]? = some grant) (clones : grant'.clones = grant.clones + 1)
    (added : ∀ k, places' k = places k + (decide (g = k)).toNat) :
    CloneCount (grants.set g grant') places' := by
  have count := h.clones g
  rw [clonesAt_of_getElem? here] at count
  apply h.set_grant here
  · rw [added, clones, count, decide_eq_true rfl]
    rfl
  · intro k hk
    rw [added, decide_eq_false (Ne.symm hk)]
    rfl
  · intro none
    exact absurd (clones.symm.trans none) (Nat.succ_ne_zero _)

/-- A clone that goes leaves its place. -/
theorem letGo {g : Nat} {grant grant' : Grant} (h : CloneCount grants places)
    (here : grants[g]? = some grant) (clones : grant'.clones = grant.clones - 1)
    (left : ∀ k, places k = places' k + (decide (g = k)).toNat)
    (released : grant'.clones = 0 → grant'.released = true) :
    CloneCount (grants.set g grant') places' := by
  have count := h.clones g
  rw [clonesAt_of_getElem? here, left, decide_eq_true rfl, Bool.toNat_true] at count
  apply h.set_grant here
  · omega
  · intro k hk
    rw [left k, decide_eq_false (Ne.symm hk)]
    rfl
  · exact released

/-- A lock that is let go belongs to a grant that was made. -/
theorem not_missing {g : Nat} (h : CloneCount grants places)
    (left : ∀ k, places k = places' k + (decide (g = k)).toNat) : grants[g]? ≠ none := by
  intro missing
  have pos : 0 < places g := by
    rw [left, decide_eq_true rfl]
    exact Nat.succ_pos _
  obtain ⟨grant, here, -⟩ := h.exists_of_pos pos
  cases missing.symm.trans here

/-- A grant that is made comes with one clone. -/
theorem append_grant {p : Nat} (h : CloneCount grants places)
    (added : ∀ k, places' k = places k + (decide (grants.length = k)).toNat) :
    CloneCount (grants ++ [{ priority := p }]) places' where
  clones k := by
    have count := h.clones k
    rw [clonesAt_append, added]
    split
    · rename_i hk
      subst hk
      rw [clonesAt_of_missing (List.getElem?_eq_none (Nat.le_refl _))] at count
      simp [← count]
    · rename_i hk
      simp [count, Ne.symm hk]
  released k grant₁ hk none := by
    rcases of_getElem?_append_singleton hk with hk | ⟨-, rfl⟩
    · exact h.released k grant₁ hk none
    · cases none

/-- Every effect keeps the counts. -/
theorem keeps {x x' : Instance} {L L' : List Nat} {sec : Section} {a : Agenda Task}
    (effect : Effect x L sec x' a L') (rest : List Task)
    (ends : ChannelEnds x.state.waiters x.requests x.channels (sec.tasks ++ rest))
    (h : CloneCount x.grants (lockPlaces x.requests x.channels (sec.tasks ++ rest) L)) :
    CloneCount x'.grants (lockPlaces x'.requests x'.channels (tasksOf a ++ rest) L') := by
  cases effect with
  | idle | outOfRange | killAgain | pollAgain | releaseAgain | cloneHandle | dropLoop => exact h
  | refuse => exact h.move fun g => lockPlaces_append_request g _
  | grantAtOnce =>
      apply h.append_grant
      intro g
      refine (lockPlaces_append_request g _).trans ?_
      rw [Request.holds_of_granted rfl]
      rfl
  | queue =>
      apply h.move
      intro g
      refine (lockPlaces_append_request g _).trans ((lockPlaces_append_channel g _).trans ?_)
      exact lockPlaces_retask g (by simp) (by simp)
  | takeVerdict here settled => exact h.move fun g => lockPlaces_takeVerdict g here settled rfl
  | wait _ _ channel =>
      exact h.move fun g => lockPlaces_same_channel g channel rfl
  | receive here queued channel full =>
      apply h.move
      intro g
      refine (lockPlaces_same_request g here ?_).trans (lockPlaces_receive g channel full rfl)
      rw [Request.holds_of_queued queued]
      rfl
  | fail here queued channel empty =>
      apply h.move
      intro g
      refine (lockPlaces_same_request g here ?_).trans (lockPlaces_same_channel g channel ?_)
      · rw [Request.holds_of_queued queued]
        rfl
      · rw [empty]
  | dropGranted here settled => exact h.move fun g => lockPlaces_dropGranted g here settled rfl
  | dropDone here done =>
      apply h.move
      intro g
      apply lockPlaces_same_request g here
      rcases done with done | done | done <;> simp [Request.holds, done]
  | dropUnqueued here queued =>
      apply h.move
      intro g
      refine (lockPlaces_same_request g here ?_).trans (lockPlaces_retask g (by simp) (by simp))
      rw [Request.holds_of_queued queued]
      rfl
  | withdraw here queued =>
      apply h.move
      intro g
      refine (lockPlaces_same_request g here ?_).trans (lockPlaces_retask g (by simp) (by simp))
      rw [Request.holds_of_queued queued]
      rfl
  | release _ here =>
      refine h.release here rfl rfl fun k => ?_
      exact lockPlaces_retask k (by simp) (by simp)
  | @cloneLock g _ _ here => exact h.clone here rfl fun k => lockPlaces_lock k g
  | @cloneMissing g held missing =>
      have pos : 0 < lockPlaces x.requests x.channels rest L g := by
        have := List.count_pos_iff.mpr held
        unfold lockPlaces
        omega
      obtain ⟨_, here, -⟩ := h.exists_of_pos pos
      cases missing.symm.trans here
  | letGoMissing lets missing =>
      exact absurd missing (h.not_missing fun k => lockPlaces_letsGo k lets)
  | letGoClone lets here kept =>
      refine h.letGo here rfl (fun k => lockPlaces_letsGo k lets) fun none => ?_
      exact kept.resolve_left (fun left => left none)
  | letGoLast lets here last =>
      refine h.letGo here last.symm (fun k => ?_) fun _ => rfl
      refine (lockPlaces_letsGo k lets).trans (congrArg (· + _) ?_)
      exact lockPlaces_retask k (by simp) (by simp)
  | dropReceiver channel =>
      apply h.move
      intro g
      rw [tasksOf_map_task]
      exact lockPlaces_dropReceiver g channel rfl
  | closeFull channel | closeEmpty channel =>
      apply h.move
      intro g
      refine (lockPlaces_same_channel g channel ?_).trans (lockPlaces_retask g (by simp) (by simp))
      rfl
  | kill | destroy =>
      exact h.move fun g =>
        lockPlaces_retask g (by simp [List.count_eq_zero]) (by simp [List.count_eq_zero])
  | grantLost _ _ _ scan first missing =>
      obtain ⟨-, -, _, channel, -⟩ := (ends.grantFirst scan first).sender_of_mem List.mem_cons_self
      cases missing.symm.trans channel
  | grantReturned _ _ _ scan first =>
      apply h.append_grant
      intro g
      refine Eq.trans ?_ (lockPlaces_takeBack g _)
      exact lockPlaces_retask g (by simp) (by simp [List.count_cons])
  | grant _ _ _ scan first channel =>
      have empty := (ends.grantFirst scan first).unsent _ List.mem_cons_self _ channel
      apply h.append_grant
      intro g
      refine (lockPlaces_fill g channel empty rfl).trans (congrArg (· + _) ?_)
      exact lockPlaces_retask g (by simp) (by simp)
  | _ => exact h.move fun g => lockPlaces_retask g (by simp) (by simp)

end CloneCount

/-- The grants of a run count their clones. -/
theorem World.cloneCount {c : Config} {x : Instance} {ms : List Move} {w : World}
    (fresh : Instance.create c = .ok x) (run : (World.start x).run? ms = some w) :
    CloneCount w.inst.grants (lockPlaces w.inst.requests w.inst.channels w.tasks w.locks) := by
  refine World.run?_induction (P := fun _ v =>
    CloneCount v.inst.grants (lockPlaces v.inst.requests v.inst.channels v.tasks v.locks)) ?_ ?_ run
  · rw [eq_ofConfig_of_create fresh]
    constructor
    · intro g
      rfl
    · intro g grant here
      cases here
  · intro ms v m v' hv count hstep
    obtain ⟨rest, a, ht, ha, effect⟩ := World.step?_effect hstep
    have ends := World.channelEnds fresh hv
    rw [ht] at ends count
    rw [ha]
    exact count.keeps effect rest ends

end FairShare
