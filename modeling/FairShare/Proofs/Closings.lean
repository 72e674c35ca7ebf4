import FairShare.Proofs.Deliveries

/-!
# Senders that are about to go

Until a kill, a sender goes for one of three reasons: its grant was sent, nobody is there to take
one, or its request is let go. In the last case it goes at once, with no waker called in between.
So while users are at work, no request waits on a sender that is about to go.
-/

namespace FairShare

/-- The channel has had its value, or nobody is there to take one. -/
def Handoff.Served (ch : Handoff Nat) : Prop :=
  ch.value ≠ none ∨ ch.receiverGone = true

/-- The senders that the tasks let go have served their channels, unless the lock was killed. -/
def ClosesServed (x : Instance) (tasks : List Task) : Prop :=
  x.state.killed = true ∨
    ∀ c ch, .closeSender c ∈ tasks → x.channels[c]? = some ch → ch.Served

namespace ClosesServed

variable {x : Instance} {tasks tasks' : List Task}

theorem mono (h : ClosesServed x tasks) (sub : ∀ t ∈ tasks', t ∈ tasks) :
    ClosesServed x tasks' := by
  rcases h with killed | served
  · exact .inl killed
  · exact .inr fun c ch pending => served c ch (sub _ pending)

theorem append (h : ClosesServed x tasks) (h' : ClosesServed x tasks') :
    ClosesServed x (tasks ++ tasks') := by
  rcases h with killed | served
  · exact .inl killed
  rcases h' with killed | served'
  · exact .inl killed
  right
  intro c ch pending
  rcases List.mem_append.mp pending with first | second
  · exact served c ch first
  · exact served' c ch second

end ClosesServed

section Effects
variable {x x' : Instance} {L L' : List Nat} {sec : Section} {a : Agenda Task}

/-- A channel that was served stays so. -/
theorem Effect.served (effect : Effect x L sec x' a L') {c : Nat} {ch ch' : Handoff Nat}
    (channel : x.channels[c]? = some ch) (served : ch.Served)
    (channel' : x'.channels[c]? = some ch') : ch'.Served := by
  have replaced : ∀ {d : Nat} {new : Handoff Nat}, (x.channels.set d new)[c]? = some ch' →
      (x.channels[d]? = some ch → new.Served) → ch'.Served := by
    intro d new there change
    rcases of_getElem?_set there with ⟨rfl, rfl⟩ | ⟨-, same⟩
    · exact change channel
    · cases channel.symm.trans same
      exact served
  cases effect with
  | queue =>
      cases (getElem?_append_of_some channel _).symm.trans channel'
      exact served
  | receive | fail | dropReceiver => exact replaced channel' fun _ => .inr rfl
  | wait _ _ here | closeFull here | closeEmpty here =>
      apply replaced channel'
      intro same
      cases here.symm.trans same
      exact served
  | grant => exact replaced channel' fun _ => .inl (Option.some_ne_none _)
  | _ =>
      cases channel.symm.trans channel'
      exact served

/-- Tasks whose channels were served have served channels after any section. -/
theorem ClosesServed.step {rest : List Task} (h : ClosesServed x rest)
    (effect : Effect x L sec x' a L')
    (made : ∀ c, .closeSender c ∈ rest → ∃ ch, x.channels[c]? = some ch) :
    ClosesServed x' rest := by
  rcases h with killed | served
  · exact .inl (effect.killed killed)
  right
  intro c ch' pending channel'
  obtain ⟨ch, channel⟩ := made c pending
  exact effect.served channel (served c ch pending channel) channel'

/-- A section lets a sender go whose channel was served, or the lock is killed, or it is that of a
request that is let go, which comes first. -/
theorem Effect.closings (effect : Effect x L sec x' a L') :
    ClosesServed x' (tasksOf a) ∨
      (∃ r, sec = .call (.dropRequest r)) ∧ ∃ c a', a = .task (.closeSender c) :: a' ∧
        ∀ d, .closeSender d ∉ tasksOf a' := by
  cases effect with
  | kill | destroy => exact .inl (.inl (LockState.killed_kill _))
  | @withdraw r q ticket c w s =>
      right
      refine ⟨⟨r, rfl⟩, w.channel, _, rfl, ?_⟩
      intro d
      simp
  | grantLost _ _ _ _ _ missing =>
      left
      right
      intro c ch pending
      simp at pending
  | grantReturned _ _ _ _ _ channel receiver =>
      left
      right
      intro c ch pending channel'
      obtain rfl : c = _ := by simpa using pending
      cases channel.symm.trans channel'
      exact .inr receiver
  | grant _ _ _ _ _ channel =>
      left
      right
      intro c ch pending channel'
      obtain rfl : c = _ := by simpa using pending
      cases (getElem?_set_of_some channel _).symm.trans channel'
      exact .inl (Option.some_ne_none _)
  | _ =>
      left
      right
      intro c ch pending
      simp at pending

end Effects

namespace World

/-- All senders that are about to go have served their channels, but for the one that the innermost
call lets go next. -/
def closesFirst (w : World) : Prop :=
  match w.layers with
  | .call _ (.task (.closeSender _) :: a) _ :: below =>
    ClosesServed w.inst (tasksOf a ++ below.flatMap fun layer => tasksOf layer.agenda)
  | layers => ClosesServed w.inst (layers.flatMap fun layer => tasksOf layer.agenda)

theorem closesFirst_of_served {w : World} (h : ClosesServed w.inst w.tasks) : w.closesFirst := by
  unfold closesFirst
  unfold tasks at h
  split
  · rename_i hl
    rw [hl] at h
    exact h.mono fun t member => List.mem_cons_of_mem _ member
  · exact h

theorem served_of_closesFirst {w : World} (h : w.closesFirst) (turn : w.usersTurn = true) :
    ClosesServed w.inst w.tasks := by
  unfold closesFirst at h
  unfold usersTurn at turn
  split at h
  · rename_i hl
    rw [hl] at turn
    cases turn
  · exact h

/-- Whatever the innermost call does next, the tasks after it have served their channels. -/
theorem served_rest {w : World} {c : Call} {t : Task} {rest : Agenda Task} {made : Option Nat}
    {below : List Layer} (h : w.closesFirst)
    (hl : w.layers = .call c (.task t :: rest) made :: below) :
    ClosesServed w.inst (tasksOf rest ++ below.flatMap fun layer => tasksOf layer.agenda) := by
  simp only [closesFirst, hl] at h
  split at h
  · rename_i e
    cases e
    exact h
  · exact h.mono fun t' member => List.mem_cons_of_mem _ member

theorem step?_closesFirst {w w' : World} {m : Move} (h : w.step? m = some w')
    (ends : ChannelEnds w.inst.state.waiters w.inst.requests w.inst.channels w.tasks)
    (first : w.closesFirst) : w'.closesFirst := by
  have made : ∀ c, .closeSender c ∈ w.tasks → ∃ ch, w.inst.channels[c]? = some ch := by
    intro c pending
    have sender := ends.senders c
    have pos := List.count_pos_iff.mpr pending
    cases channel : w.inst.channels[c]? with
    | some ch => exact ⟨ch, rfl⟩
    | none =>
        rw [goneAt_of_missing channel, Bool.toNat_true] at sender
        omega
  rcases step?_cases h with ⟨c, rfl, turn, hc, rfl⟩ | ⟨c, t, rest, made', below, rfl, hl, rfl⟩ |
    ⟨c, waker, rest, made', below, rfl, hl, rfl⟩ | ⟨waker, below, rfl, hl, rfl⟩ |
    ⟨c, made', below, rfl, hl, rfl⟩
  · have effect := effect_begin hc
    have old : ClosesServed (w.begin c).inst w.tasks :=
      (served_of_closesFirst first turn).step effect made
    rcases effect.closings with served | ⟨-, d, a, ha, none⟩
    · apply closesFirst_of_served
      rw [tasks_begin]
      exact served.append old
    · have layers : (w.begin c).layers =
          .call c (.task (.closeSender d) :: a) (w.madeBy c) :: w.layers := by
        rw [← ha]
        rfl
      simp only [closesFirst, layers]
      apply ClosesServed.append _ old
      exact .inr fun e ch pending => absurd pending (none e)
  · have effect := t.effect_perform w.inst w.locks
    have pending : w.tasks = t :: (tasksOf rest ++ below.flatMap fun layer =>
        tasksOf layer.agenda) := by
      simp [tasks, hl, Layer.agenda]
    have old := (served_rest first hl).step effect fun c later =>
      made c (pending ▸ List.mem_cons_of_mem _ later)
    apply closesFirst_of_served
    rcases effect.closings with served | ⟨⟨r, e⟩, -⟩
    · have new := served.append old
      simpa [tasks, Layer.agenda] using new
    · cases e
  all_goals
    apply closesFirst_of_served
    simp only [closesFirst, hl] at first
    simpa [tasks, Layer.agenda] using first

/-- While users are at work, senders that are about to go have served their channels. -/
theorem served_of_usersTurn {c : Config} {x : Instance} {ms : List Move} {w : World}
    (fresh : Instance.create c = .ok x) (run : (start x).run? ms = some w)
    (turn : w.usersTurn = true) : ClosesServed w.inst w.tasks := by
  apply served_of_closesFirst _ turn
  refine run?_induction (P := fun _ v => v.closesFirst) ?_ ?_ run
  · apply closesFirst_of_served
    exact .inr fun c ch pending => by cases pending
  · intro ms v m v' hv first hstep
    exact step?_closesFirst hstep (channelEnds fresh hv) first

end World

end FairShare
