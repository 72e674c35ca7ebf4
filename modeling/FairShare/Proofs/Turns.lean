import FairShare.Proofs.Channels

/-!
# What is pending while users are at work

A lock that is let go with a channel, or after a delivery to nobody, is let go at once: no waker is
called in between. So while users are at work, every lock is with a user, a request or a channel.
-/

namespace FairShare

/-- No task of the list lets a lock go. -/
def LockFree (tasks : List Task) : Prop :=
  ∀ g, .dropLock g ∉ tasks ∧ .takeBack g ∉ tasks

namespace LockFree

variable {tasks tasks' : List Task}

theorem append (h : LockFree tasks) (h' : LockFree tasks') : LockFree (tasks ++ tasks') := by
  intro g
  constructor
  · rw [List.mem_append, not_or]
    exact ⟨(h g).1, (h' g).1⟩
  · rw [List.mem_append, not_or]
    exact ⟨(h g).2, (h' g).2⟩

theorem left (h : LockFree (tasks ++ tasks')) : LockFree tasks := by
  intro g
  exact ⟨fun m => (h g).1 (List.mem_append_left _ m), fun m => (h g).2 (List.mem_append_left _ m)⟩

theorem right (h : LockFree (tasks ++ tasks')) : LockFree tasks' := by
  intro g
  exact ⟨fun m => (h g).1 (List.mem_append_right _ m), fun m => (h g).2 (List.mem_append_right _ m)⟩

theorem tail {t : Task} (h : LockFree (t :: tasks)) : LockFree tasks :=
  fun g => ⟨fun m => (h g).1 (.tail _ m), fun m => (h g).2 (.tail _ m)⟩

end LockFree

/-- A task that lets a lock go comes on an agenda alone, or after the end of a channel whose
receiver is gone. -/
theorem Effect.lock_tasks {x x' : Instance} {L L' : List Nat} {sec : Section} {a : Agenda Task}
    (effect : Effect x L sec x' a L') :
    LockFree (tasksOf a) ∨ (∃ g, a = [.task (.dropLock g)]) ∨
    ∃ c ch g waker, x'.channels[c]? = some ch ∧ ch.receiverGone = true ∧
      a = [.task (.closeSender c), .task (.takeBack g), .task (.settle waker)] := by
  cases effect with
  | dropGranted => exact .inr (.inl ⟨_, rfl⟩)
  | @dropReceiver c ch channel =>
      cases value : ch.value with
      | none =>
          left
          intro g
          simp
      | some g => exact .inr (.inl ⟨g, rfl⟩)
  | grantReturned _ _ _ _ _ channel receiver =>
      exact .inr (.inr ⟨_, _, _, _, channel, receiver, rfl⟩)
  | _ =>
      left
      intro g
      simp

/-- No waker waits on a channel whose receiver is gone. -/
def QuietEnds (channels : List (Handoff Nat)) : Prop :=
  ∀ ch ∈ channels, ch.receiverGone = true → ch.waker = none

namespace QuietEnds

variable {channels : List (Handoff Nat)}

theorem append_empty (h : QuietEnds channels) : QuietEnds (channels ++ [Handoff.empty]) := by
  intro ch hch gone
  rcases List.mem_append.mp hch with old | new
  · exact h ch old gone
  · rw [List.mem_singleton.mp new]
    rfl

theorem set {c : Nat} {ch' : Handoff Nat} (h : QuietEnds channels)
    (quiet : ch'.receiverGone = true → ch'.waker = none) : QuietEnds (channels.set c ch') := by
  intro ch hch gone
  rcases List.mem_or_eq_of_mem_set hch with old | new
  · exact h ch old gone
  · subst new
    exact quiet gone

/-- Every effect keeps the ends quiet. -/
theorem keeps {x x' : Instance} {L L' : List Nat} {sec : Section} {a : Agenda Task}
    (effect : Effect x L sec x' a L') (rest : List Task)
    (ends : ChannelEnds x.state.waiters x.requests x.channels (sec.tasks ++ rest))
    (h : QuietEnds x.channels) : QuietEnds x'.channels := by
  cases effect with
  | queue => exact h.append_empty
  | wait here queued channel =>
      apply h.set
      intro gone
      -- the receiver is with the request that was polled
      obtain ⟨-, -, ch, channel', receiver⟩ :=
        ends.receiver_of_awaits here (by simp [Request.awaits, queued]; rfl)
      cases channel.symm.trans channel'
      cases gone.symm.trans receiver
  | receive | fail | dropReceiver | closeEmpty | grant => exact h.set fun _ => rfl
  | @closeFull c g ch channel => exact h.set (h ch (List.mem_of_getElem? channel))
  | _ => exact h

end QuietEnds

/-- The ends are quiet throughout a run. -/
theorem World.quietEnds {c : Config} {x : Instance} {ms : List Move} {w : World}
    (fresh : Instance.create c = .ok x) (run : (World.start x).run? ms = some w) :
    QuietEnds w.inst.channels := by
  refine World.run?_induction (P := fun _ v => QuietEnds v.inst.channels) ?_ ?_ run
  · rw [eq_ofConfig_of_create fresh]
    intro ch hch
    cases hch
  · intro ms v m v' hv quiet hstep
    obtain ⟨rest, a, ht, -, effect⟩ := World.step?_effect hstep
    have ends := World.channelEnds fresh hv
    rw [ht] at ends
    exact quiet.keeps effect rest ends

/-- How a task that lets a lock go stands on the agenda of the innermost call: first, or after the
end of a channel with nobody to wake. -/
inductive LockTaskFirst (channels : List (Handoff Nat)) : Agenda Task → Prop where
  | absent {a : Agenda Task} (free : LockFree (tasksOf a)) : LockTaskFirst channels a
  | dropLock {g : Nat} {a : Agenda Task} (free : LockFree (tasksOf a)) :
      LockTaskFirst channels (.task (.dropLock g) :: a)
  | takeBack {g : Nat} {a : Agenda Task} (free : LockFree (tasksOf a)) :
      LockTaskFirst channels (.task (.takeBack g) :: a)
  | closing {c g : Nat} {ch : Handoff Nat} {a : Agenda Task} (channel : channels[c]? = some ch)
      (gone : ch.receiverGone = true) (free : LockFree (tasksOf a)) :
      LockTaskFirst channels (.task (.closeSender c) :: .task (.takeBack g) :: a)

namespace LockTaskFirst

variable {x x' : Instance} {L L' : List Nat} {sec : Section} {a rest : Agenda Task}

/-- What follows from a section comes before tasks that let no lock go. -/
theorem of_effect (effect : Effect x L sec x' a L') (free : LockFree (tasksOf rest)) :
    LockTaskFirst x'.channels (a ++ rest) := by
  rcases effect.lock_tasks with none | ⟨g, rfl⟩ | ⟨c, ch, g, waker, channel, gone, rfl⟩
  · apply LockTaskFirst.absent
    rw [tasksOf_append]
    exact none.append free
  · exact .dropLock free
  · refine .closing channel gone ?_
    intro k
    simpa using free k

/-- Performing the first task leaves the others in order. -/
theorem perform {t : Task} (effect : Effect x L (.task t) x' a L') (quiet : QuietEnds x.channels)
    (h : LockTaskFirst x.channels (.task t :: rest)) : LockTaskFirst x'.channels (a ++ rest) := by
  cases h with
  | absent free => exact of_effect effect free.tail
  | dropLock free | takeBack free => exact of_effect effect free
  | closing channel gone free =>
      cases effect with
      | closeFull => exact .takeBack free
      | closeEmpty channel' =>
          cases channel.symm.trans channel'
          rw [quiet _ (List.mem_of_getElem? channel) gone]
          exact .takeBack free
      | closeMissing missing => cases missing.symm.trans channel
      | letGoMissing lets | letGoClone lets | letGoLast lets => cases lets

end LockTaskFirst

namespace World

/-- Tasks that let locks go are pending in the innermost call only, where they stand first. -/
def lockTaskFirst (w : World) : Prop :=
  match w.layers with
  | .call _ a _ :: below =>
    LockTaskFirst w.inst.channels a ∧ LockFree (below.flatMap fun layer => tasksOf layer.agenda)
  | layers => LockFree (layers.flatMap fun layer => tasksOf layer.agenda)

theorem lockFree_of_lockTaskFirst {w : World} (h : w.lockTaskFirst) (turn : w.usersTurn = true) :
    LockFree w.tasks := by
  unfold lockTaskFirst at h
  unfold usersTurn at turn
  split at h
  · rename_i hl
    rw [hl] at turn
    cases turn
  · exact h

/-- What is pending below the innermost call lets no lock go if nothing above it does. -/
theorem lockTaskFirst_of_lockFree {w : World} (h : LockFree w.tasks) : w.lockTaskFirst := by
  unfold lockTaskFirst
  unfold tasks at h
  split
  · rename_i hl
    rw [hl, List.flatMap_cons] at h
    exact ⟨.absent h.left, h.right⟩
  · exact h

theorem step?_lockTaskFirst {w w' : World} {m : Move} (h : w.step? m = some w')
    (quiet : QuietEnds w.inst.channels) (first : w.lockTaskFirst) : w'.lockTaskFirst := by
  rcases step?_cases h with ⟨c, rfl, turn, hc, rfl⟩ | ⟨c, t, rest, made, below, rfl, hl, rfl⟩ |
    ⟨c, waker, rest, made, below, rfl, hl, rfl⟩ | ⟨waker, below, rfl, hl, rfl⟩ |
    ⟨c, made, below, rfl, hl, rfl⟩
  · refine ⟨?_, lockFree_of_lockTaskFirst first turn⟩
    have none : LockFree (tasksOf []) := fun g => by simp
    have agenda := LockTaskFirst.of_effect (effect_begin hc) none
    rwa [List.append_nil] at agenda
  · simp only [lockTaskFirst, hl] at first ⊢
    exact ⟨first.1.perform (t.effect_perform w.inst w.locks) quiet, first.2⟩
  · apply lockTaskFirst_of_lockFree
    simp only [lockTaskFirst, hl] at first
    obtain ⟨head, free⟩ := first
    cases head with
    | absent none => exact none.append free
  · apply lockTaskFirst_of_lockFree
    simp only [lockTaskFirst, hl] at first
    exact first
  · apply lockTaskFirst_of_lockFree
    simp only [lockTaskFirst, hl] at first
    exact first.2

/-- While users are at work, no lock is about to be let go. -/
theorem lockFree_of_usersTurn {c : Config} {x : Instance} {ms : List Move} {w : World}
    (fresh : Instance.create c = .ok x) (run : (start x).run? ms = some w)
    (turn : w.usersTurn = true) : LockFree w.tasks := by
  apply lockFree_of_lockTaskFirst _ turn
  refine run?_induction (P := fun _ v => v.lockTaskFirst) ?_ ?_ run
  · apply lockTaskFirst_of_lockFree
    intro g
    exact ⟨List.not_mem_nil, List.not_mem_nil⟩
  · intro ms v m v' hv first hstep
    exact step?_lockTaskFirst hstep (quietEnds fresh hv) first

end World

end FairShare
