import FairShare.Proofs.Admissions
import FairShare.Proofs.Notices
import FairShare.Proofs.Reuse

/-!
# What a halt does

A halt takes all slots away at once, so that nothing is free any more, however many locks come
back, and nothing is admitted. The queues stay as they are: who waits there goes on waiting until it
gives up, or until the lock is killed, and its waker is left alone.
-/

namespace FairShare

namespace World

section Slots
variable {c : Config} {x : Instance} {ms ms' : List Move} {w v : World}

/-- After a halt there is free what is held, with the sign turned. -/
theorem free_of_halted (fresh : Instance.create c = .ok x) (run : (start x).run? ms = some w)
    (halted : w.inst.state.halted = true) :
    w.inst.state.free = -(w.inst.state.runners.sum : Int) := by
  have balance := slotsBalance fresh run
  have slots := balance.stopped halted
  have held := balance.balance
  omega

/-- After a halt no slot is free. -/
theorem free_le_of_halted (fresh : Instance.create c = .ok x) (run : (start x).run? ms = some w)
    (halted : w.inst.state.halted = true) : w.inst.state.free ≤ 0 := by
  have free := free_of_halted fresh run halted
  omega

/-- After a halt what is free comes back to zero when no slot is held. -/
theorem free_eq_zero_iff (fresh : Instance.create c = .ok x) (run : (start x).run? ms = some w)
    (halted : w.inst.state.halted = true) :
    w.inst.state.free = 0 ↔ ∀ grant ∈ w.inst.grants, grant.released = true := by
  have runners := (slotsBalance fresh run).runners
  rw [free_of_halted fresh run halted, LockState.runners_eq_map_range]
  rw [Int.neg_eq_zero, Int.natCast_eq_zero, List.sum_eq_zero_iff]
  constructor
  · intro none grant member
    by_contra locked
    rw [Bool.not_eq_true] at locked
    have held : 0 < w.inst.state.runnersAt grant.priority := by
      rw [runners]
      exact List.countP_pos_iff.mpr ⟨grant, member, by simp [locked]⟩
    have room := LockState.lt_of_runnersAt_pos held
    have unheld := none _ (List.mem_map_of_mem (List.mem_range.mpr room))
    omega
  · intro released n member
    obtain ⟨p, -, rfl⟩ := List.mem_map.mp member
    rw [runners, List.countP_eq_zero]
    intro grant member'
    simp [released grant member']

/-- After a halt no move makes a grant or takes a slot. -/
theorem step?_of_halted {m : Move} (fresh : Instance.create c = .ok x)
    (run : (start x).run? ms = some w) (halted : w.inst.state.halted = true)
    (hstep : w.step? m = some v) :
    v.inst.grants.length = w.inst.grants.length ∧ v.inst.loop.grants = w.inst.loop.grants ∧
      ∀ p, v.inst.state.runnersAt p ≤ w.inst.state.runnersAt p := by
  obtain ⟨rest, a, -, -, effect⟩ := step?_effect hstep
  rcases effect.slots_step with none | ⟨p, admits, -⟩
  · exact none
  · exact absurd admits (Admits.not_of_halted halted (free_le_of_halted fresh run halted))

/-- After a halt no grant is made and no slot is taken. -/
theorem grants_of_halted (fresh : Instance.create c = .ok x) (run : (start x).run? ms = some w)
    (halted : w.inst.state.halted = true) (run' : w.run? ms' = some v) :
    v.inst.grants.length = w.inst.grants.length ∧ v.inst.loop.grants = w.inst.loop.grants ∧
      ∀ p, v.inst.state.runnersAt p ≤ w.inst.state.runnersAt p := by
  refine run?_induction (P := fun _ v => v.inst.grants.length = w.inst.grants.length ∧
    v.inst.loop.grants = w.inst.loop.grants ∧
    ∀ p, v.inst.state.runnersAt p ≤ w.inst.state.runnersAt p) ?_ ?_ run'
  · exact ⟨rfl, rfl, fun p => Nat.le_refl _⟩
  · rintro ms' u m u' hu ⟨grants, loop, runners⟩ hstep
    obtain ⟨grants', loop', runners'⟩ :=
      step?_of_halted fresh (run?_trans run hu) (halted_of_run? hu halted) hstep
    exact ⟨grants'.trans grants, loop'.trans loop,
      fun p => Nat.le_trans (runners' p) (runners p)⟩

/-- After a halt no request is granted. -/
theorem granted_iff_of_halted (fresh : Instance.create c = .ok x)
    (run : (start x).run? ms = some w) (halted : w.inst.state.halted = true)
    (run' : w.run? ms' = some v) (r g : Nat) :
    Granted x (ms ++ ms') r g ↔ Granted x ms r g := by
  refine run?_induction (P := fun ms' _ => Granted x (ms ++ ms') r g ↔ Granted x ms r g)
    ?_ ?_ run'
  · rw [List.append_nil]
  · intro ms' u m u' hu same hstep
    have reached := run?_trans run hu
    rw [← List.append_assoc, granted_append_iff reached hstep, same]
    apply or_iff_left
    rintro ⟨rfl, holds⟩
    have reached' := run?_append_singleton_eq_some_iff.mpr ⟨u, reached, hstep⟩
    have made := (unshared_of_holdsGrant fresh reached' holds).lt
    have none := (step?_of_halted fresh reached (halted_of_run? hu halted) hstep).1
    omega

/-- After a halt what is free does not go down. -/
theorem free_le_free_of_halted (fresh : Instance.create c = .ok x)
    (run : (start x).run? ms = some w) (halted : w.inst.state.halted = true)
    (run' : w.run? ms' = some v) : w.inst.state.free ≤ v.inst.state.free := by
  have reached := run?_trans run run'
  have fewer : v.inst.state.runners.sum ≤ w.inst.state.runners.sum := by
    rw [LockState.runners_eq_map_range, LockState.runners_eq_map_range,
      length_lanes fresh reached, length_lanes fresh run]
    apply List.sum_le_sum
    intro p _
    exact (grants_of_halted fresh run halted run').2.2 p
  rw [free_of_halted fresh run halted, free_of_halted fresh reached (halted_of_run? run' halted)]
  omega

end Slots

/-! ## Waiting requests -/

/-- After a halt a request leaves its queue by its drop or by a kill, as long as no ticket was given
out twice. -/
theorem step?_inQueue_of_halted {c : Config} {x : Instance} {ms : List Move} {w v : World}
    {m : Move} {r : Nat} (fresh : Instance.create c = .ok x) (run : (start x).run? ms = some w)
    (halted : w.inst.state.halted = true) (hstep : w.step? m = some v)
    (few : w.inst.channels.length ≤ 2 ^ 64) (alive : v.inst.state.killed = false)
    (undropped : m ≠ .call (.dropRequest r)) (waits : w.inst.InQueue r) : v.inst.InQueue r := by
  rcases step?_wait_ends fresh run few hstep waits with still | holds | dropped | killed
  · exact still
  · have run' := run?_append_singleton_eq_some_iff.mpr ⟨w, run, hstep⟩
    have made := (unshared_of_holdsGrant fresh run' holds).lt
    have none := (step?_of_halted fresh run halted hstep).1
    omega
  · exact absurd dropped undropped
  · cases alive.symm.trans killed

/-! ## The waker of a request -/

/-- The waker is called only by a drop of the request, in the section that follows the drop. -/
def WokenByDrop (waker : Waker) (r : Nat) (ms : List Move) : Prop :=
  ∀ ms₁ ms₂, ms = ms₁ ++ .wake waker :: ms₂ →
    ∃ ms₀, ms₁ = ms₀ ++ [.call (.dropRequest r), .work]

section Halted
variable {c : Config} {x : Instance} {ms ms' : List Move} {w v : World} {r : Nat}

/-- After a halt a request that is in a queue stays there until its drop or a kill, as long as no
ticket was given out twice. -/
theorem inQueue_of_halted (fresh : Instance.create c = .ok x) (run : (start x).run? ms = some w)
    (halted : w.inst.state.halted = true) (run' : w.run? ms' = some v)
    (alive : v.inst.state.killed = false) (few : v.inst.channels.length ≤ 2 ^ 64)
    (waits : w.inst.InQueue r) (undropped : .call (.dropRequest r) ∉ ms') : v.inst.InQueue r := by
  refine run?_induction (P := fun ms' v => v.inst.state.killed = false →
    v.inst.channels.length ≤ 2 ^ 64 → .call (.dropRequest r) ∉ ms' → v.inst.InQueue r) ?_ ?_ run'
    alive few undropped
  · intro _ _ _
    exact waits
  · intro ms' u m u' hu past hstep alive' few' undropped
    obtain ⟨rest, a, -, -, effect⟩ := step?_effect hstep
    rw [List.mem_append, not_or, List.mem_singleton] at undropped
    have few := Nat.le_trans effect.length_channels few'
    have alive := effect.not_killed alive'
    exact step?_inQueue_of_halted fresh (run?_trans run hu) (halted_of_run? hu halted) hstep few
      alive' (Ne.symm undropped.2) (past alive few undropped.1)

/-- After a halt a waker that is used for the polls of one request only is called by nothing but a
drop of that request, as long as the lock is not killed and no ticket was given out twice. -/
theorem wokenByDrop_of_halted {waker : Waker} (fresh : Instance.create c = .ok x)
    (run : (start x).run? ms = some w) (halted : w.inst.state.halted = true)
    (run' : w.run? ms' = some v) (alive : v.inst.state.killed = false)
    (few : v.inst.channels.length ≤ 2 ^ 64) (waits : w.inst.InQueue r)
    (only : OnlyPolls waker r (ms ++ ms')) : WokenByDrop waker r ms' := by
  intro ms₁ ms₂ e
  subst e
  obtain ⟨u, run₁, later⟩ := Option.bind_eq_some_iff.mp ((run?_append _ _ _).symm.trans run')
  obtain ⟨u', hwake, -⟩ := Option.bind_eq_some_iff.mp later
  have alive' : u.inst.state.killed = false := by
    by_contra killed
    cases alive.symm.trans (killed_of_run? later (by simpa using killed))
  have few' := Nat.le_trans (length_channels_of_run? later) few
  have stage := notice_of_undecided fresh run (Nat.le_trans (length_channels_of_run? run₁) few')
    only.left (waits.not_decided (channelEnds fresh run))
  rcases (notice_of_run? fresh run stage run₁ few' only.right.left).cause hwake with ready | dropped
  · -- no verdict comes after a halt
    exfalso
    have answer := (u.inst.isReady_iff_poll r waker).mp (Instance.isReady_iff.mpr ready)
    obtain ⟨verdict, answer⟩ := answer
    by_cases dropped : .call (.dropRequest r) ∈ ms₁
    · cases answer.symm.trans ((spent_of_dropped run₁ dropped).poll waker)
    · have waits' := inQueue_of_halted fresh run halted run₁ alive' few' waits dropped
      cases answer.symm.trans (waits'.poll (channelEnds fresh (run?_trans run run₁)) waker)
  · exact dropped

/-- A halt stops all grants and strands whoever waits: what is free only goes up to zero as locks
come back, and as long as no ticket was given out twice, a request that is in a queue stays there,
with its waker left alone, until it is dropped or the lock is killed. -/
theorem halt_strands (fresh : Instance.create c = .ok x) (run : (start x).run? ms = some w)
    (halted : w.inst.state.halted = true) (run' : w.run? ms' = some v) :
    (v.inst.grants.length = w.inst.grants.length ∧ v.inst.loop.grants = w.inst.loop.grants ∧
      ∀ r g, Granted x (ms ++ ms') r g ↔ Granted x ms r g) ∧
    (∀ p, v.inst.state.runnersAt p ≤ w.inst.state.runnersAt p) ∧
    (w.inst.state.free ≤ v.inst.state.free ∧ v.inst.state.free ≤ 0 ∧
      (v.inst.state.free = 0 ↔ ∀ grant ∈ v.inst.grants, grant.released = true)) ∧
    (v.inst.state.killed = false → v.inst.channels.length ≤ 2 ^ 64 → ∀ r, w.inst.InQueue r →
      (.call (.dropRequest r) ∉ ms' → v.inst.InQueue r ∧ v.inst.isReady r = false ∧
        ∀ waker, (v.inst.poll r waker).1 = .ok none) ∧
      ∀ waker, OnlyPolls waker r (ms ++ ms') → ∀ ms₁ ms₂, ms' = ms₁ ++ .wake waker :: ms₂ →
        ∃ ms₀, ms₁ = ms₀ ++ [.call (.dropRequest r), .work]) := by
  obtain ⟨grants, loop, runners⟩ := grants_of_halted fresh run halted run'
  have reached := run?_trans run run'
  have halted' := halted_of_run? run' halted
  refine ⟨⟨grants, loop, ?_⟩, runners, ⟨?_, ?_, ?_⟩, ?_⟩
  · exact granted_iff_of_halted fresh run halted run'
  · exact free_le_free_of_halted fresh run halted run'
  · exact free_le_of_halted fresh reached halted'
  · exact free_eq_zero_iff fresh reached halted'
  · intro alive few r waits
    constructor
    · intro undropped
      have waits' := inQueue_of_halted fresh run halted run' alive few waits undropped
      have ends := channelEnds fresh reached
      exact ⟨waits', waits'.not_isReady ends, waits'.poll ends⟩
    · intro waker only
      exact wokenByDrop_of_halted fresh run halted run' alive few waits only

/-- A lock with one slot that is granted to one request while another waits for it, and halted. The
slot comes back and the other request still waits; its waker is called when it is dropped. -/
theorem halt_strands_of_two_requests :
    ∃ w v u, (start (.ofConfig { concurrency := 1, weights := [1] })).run?
        [.call (.request 0), .callEnds, .call (.request 0), .callEnds,
          .call (.poll 1 (.named "a")), .callEnds, .call .halt, .work, .callEnds] = some w ∧
      w.inst.state.halted = true ∧ w.inst.state.free = -1 ∧ w.inst.InQueue 1 ∧
      w.run? [.call (.poll 0 .silent), .callEnds, .call (.release 0), .work, .work, .callEnds] =
        some v ∧ v.inst.state.free = 0 ∧ (∀ waker, (v.inst.poll 1 waker).1 = .ok none) ∧
      w.run? [.call (.dropRequest 1), .work, .wake (.named "a")] = some u ∧
      WokenByDrop (.named "a") 1 [.call (.dropRequest 1), .work, .wake (.named "a")] := by
  have run : (start (.ofConfig { concurrency := 1, weights := [1] })).run?
      [.call (.request 0), .callEnds, .call (.request 0), .callEnds,
        .call (.poll 1 (.named "a")), .callEnds, .call .halt, .work, .callEnds] = some _ := rfl
  obtain ⟨-, -, ⟨-, -, free⟩, stays⟩ := halt_strands (c := { concurrency := 1, weights := [1] })
    rfl run rfl
    (rfl : run? _ [.call (.poll 0 .silent), .callEnds, .call (.release 0), .work, .work,
      .callEnds] = some _)
  obtain ⟨-, -, -, woken⟩ := halt_strands (c := { concurrency := 1, weights := [1] }) rfl run rfl
    (rfl : run? _ [.call (.dropRequest 1), .work, .wake (.named "a")] = some _)
  refine ⟨_, _, _, run, rfl, rfl, ⟨_, _, 0, _, .head _, rfl, rfl⟩, rfl, free.mpr ?_, ?_, rfl, ?_⟩
  · intro grant member
    obtain rfl := List.mem_singleton.mp member
    rfl
  · obtain ⟨waits, -⟩ := stays rfl (by decide) 1 ⟨_, _, 0, _, .head _, rfl, rfl⟩
    exact (waits (by simp)).2.2
  · obtain ⟨-, called⟩ := woken rfl (by decide) 1 ⟨_, _, 0, _, .head _, rfl, rfl⟩
    exact called _ (by simp [OnlyPolls])

/-- The bound on the tickets and the waker of its own are needed. A request that a halt has stranded
fails when its ticket is given out again and the new request is let go, and its waker is called
then. A waker that is used for the grant loop as well is called by the halt. -/
theorem stranded_lost_to_reused_ticket :
    (∃ ms w v, ms = [.call (.request 0), .callEnds, .call (.request 0), .callEnds,
        .call (.poll 1 (.named "a")), .callEnds, .call .halt, .work, .callEnds] ∧
      (start (.ofConfig { concurrency := 1, weights := [1] })).run? ms = some w ∧
      w.inst.state.halted = true ∧ w.inst.InQueue 1 ∧
      w.run? (eviction 0 2 (2 ^ 64 - 1) (some (.named "a"))) = some v ∧
      v.inst.state.killed = false ∧ v.inst.owners ≠ 0 ∧
      .call (.dropRequest 1) ∉ eviction 0 2 (2 ^ 64 - 1) (some (.named "a")) ∧
      OnlyPolls (.named "a") 1 (ms ++ eviction 0 2 (2 ^ 64 - 1) (some (.named "a"))) ∧
      ¬v.inst.InQueue 1 ∧ (∀ k, (v.inst.poll 1 k).1 = .ok (some .killed)) ∧
      .wake (.named "a") ∈ eviction 0 2 (2 ^ 64 - 1) (some (.named "a"))) ∧
    ∃ w v, (start (.ofConfig { concurrency := 1, weights := [1] })).run?
        [.call (.request 0), .callEnds, .call (.request 0), .callEnds,
          .call (.poll 1 (.named "a")), .callEnds, .call (.drive (.named "a")), .work, .work,
          .callEnds, .call .halt] = some w ∧
      w.inst.state.halted = true ∧ w.inst.InQueue 1 ∧
      w.run? [.work, .wake (.named "a")] = some v := by
  constructor
  · have run : (start (.ofConfig { concurrency := 1, weights := [1] })).run?
        [.call (.request 0), .callEnds, .call (.request 0), .callEnds,
          .call (.poll 1 (.named "a")), .callEnds, .call .halt, .work, .callEnds] = some _ := rfl
    obtain ⟨ch, v, channel, run', alive, owners, -, gone, failed⟩ :=
      put_out (c := { concurrency := 1, weights := [1] }) (p := 0) (n := 2 ^ 64 - 1) (r := 1)
        (e := ⟨0, 0⟩) rfl run ⟨rfl, by decide, rfl, by decide, by decide⟩ rfl rfl rfl (by decide)
        (by decide)
    obtain rfl := Option.some.inj channel
    refine ⟨_, _, v, rfl, run, rfl, ⟨_, _, 0, _, .head _, rfl, rfl⟩, run', alive, ?_,
      dropRequest_notMem_eviction (by decide) _ _ _, ⟨?_, ?_⟩, gone, failed, ?_⟩
    · rw [owners]
      decide
    · intro r polled
      rcases List.mem_append.mp polled with before | later
      · simpa using before
      · rcases call_of_mem_eviction later with e | ⟨k, -, e⟩ <;> cases e
    · intro driven
      rcases List.mem_append.mp driven with before | later
      · simp at before
      · rcases call_of_mem_eviction later with e | ⟨k, -, e⟩ <;> cases e
    · exact List.mem_append_right _ (by simp [visit, giveUp, ignored])
  · exact ⟨_, _, rfl, rfl, ⟨_, _, 0, _, .head _, rfl, rfl⟩, rfl⟩

end Halted

end World

end FairShare
