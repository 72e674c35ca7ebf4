import FairShare.Proofs.Retreats
import FairShare.Proofs.Termination
import FairShare.Proofs.Fates

/-!
# The order of ways out

Users who let several things go may do so in any order. The retreats that their calls make commute,
and what a call retreats from does not depend on the other calls, as they are on other things. So
the instance that is left is the same but for its log and for calls of the grant loop, and those
agree as well whenever there is something to do for the loop.
-/

namespace FairShare

/-! ## Retreats in another order -/

namespace Grant

/-- A change of grants that leaves the priority and does not take a slot again. -/
structure Lessens (f : Grant → Grant) : Prop where
  priority : ∀ grant, (f grant).priority = grant.priority
  released : ∀ grant, grant.released = true → (f grant).released = true

theorem lessens_giveBack : Lessens giveBack :=
  ⟨fun _ => rfl, fun _ _ => rfl⟩

theorem lessens_letGo : Lessens letGo :=
  ⟨fun _ => rfl, fun grant released => by simp [letGo, released]⟩

/-- The two ways to lessen a grant may be gone in any order. -/
theorem giveBack_letGo_comm {f f' : Grant → Grant} (hf : f = giveBack ∨ f = letGo)
    (hf' : f' = giveBack ∨ f' = letGo) : f' ∘ f = f ∘ f' := by
  funext grant
  rcases hf with rfl | rfl <;> rcases hf' with rfl | rfl <;> simp [giveBack, letGo]

end Grant

namespace Instance

variable {x : Instance} {f f' : Grant → Grant} {g k : Nat}

/-- Two changes of one grant are one change. -/
theorem regrant_regrant (lessens : Grant.Lessens f) (lessens' : Grant.Lessens f') (g : Nat)
    (x : Instance) : (x.regrant f g).regrant f' g = x.regrant (f' ∘ f) g := by
  cases here : x.grants[g]? with
  | none => simp [regrant, here]
  | some grant =>
      have there (grant' : Grant) : (x.grants.set g grant')[g]? = some grant' :=
        getElem?_set_of_some here grant'
      cases locked : grant.released with
      | true =>
          have released := lessens.released grant locked
          simp [regrant, here, there, locked, released]
      | false =>
          cases freed : (f grant).released with
          | true =>
              have released := lessens'.released (f grant) freed
              simp [regrant, here, there, locked, freed, released]
          | false =>
              cases freed' : (f' (f grant)).released <;>
                simp [regrant, here, there, locked, freed, freed', lessens.priority]

/-- Changes of different grants may be made in any order. -/
theorem regrant_comm_of_ne (apart : g ≠ k) (x : Instance) :
    (x.regrant f g).regrant f' k = (x.regrant f' k).regrant f g := by
  have kept (grant : Grant) : (x.grants.set g grant)[k]? = x.grants[k]? :=
    List.getElem?_set_ne apart
  have kept' (grant : Grant) : (x.grants.set k grant)[g]? = x.grants[g]? :=
    List.getElem?_set_ne apart.symm
  have swapped (grant grant' : Grant) := List.set_comm grant grant' apart (l := x.grants)
  cases here : x.grants[g]? with
  | none =>
      cases there : x.grants[k]? with
      | none => simp [regrant, here, there]
      | some grant' =>
        cases freed' : !grant'.released && (f' grant').released <;>
          simp [regrant, here, there, kept', freed']
  | some grant =>
      cases freed : !grant.released && (f grant).released <;>
        cases there : x.grants[k]? with
        | none => simp [regrant, here, there, kept, freed]
        | some grant' =>
          cases freed' : !grant'.released && (f' grant').released <;>
            simp [regrant, here, there, kept, kept', freed, freed', swapped,
              LockState.returnSlot_comm x.state grant.priority grant'.priority]

end Instance

namespace Handoff

/-- It does not matter which end of a channel goes first. -/
theorem closeSender_dropReceiver {α : Type} (ch : Handoff α) :
    ch.dropReceiver.2.closeSender.1 = ch.closeSender.1.dropReceiver.2 := by
  cases value : ch.value <;> simp [closeSender, dropReceiver, value]

end Handoff

namespace Instance

variable {x : Instance} {weights : List Nat}

/-- Changing a grant leaves the requests and the queues alone. -/
theorem regrant_abandon (account : DemandAccounts weights x.state) (f : Grant → Grant) (g p : Nat)
    (ticket : UInt64) : (x.abandon p ticket).regrant f g = (x.regrant f g).abandon p ticket := by
  cases here : x.grants[g]? with
  | none => simp [regrant, abandon, here]
  | some grant =>
      have found : (x.state.returnSlot grant.priority).waiter? p ticket =
          x.state.waiter? p ticket := by
        simp [LockState.waiter?]
      cases freed : !grant.released && (f grant).released <;>
        simp [regrant, abandon, here, freed, found, account.abandon_returnSlot]

theorem abandon_comm (account : DemandAccounts weights x.state) (p q : Nat)
    (ticket ticket' : UInt64) :
    (x.abandon p ticket).abandon q ticket' = (x.abandon q ticket').abandon p ticket := by
  by_cases same : p = q ∧ ticket = ticket'
  · rw [same.1, same.2]
  · have found : (x.state.abandon q ticket').waiter? p ticket = x.state.waiter? p ticket :=
      LockState.waiter?_abandon fun e e' => same ⟨e, e'⟩
    have found' : (x.state.abandon p ticket).waiter? q ticket' = x.state.waiter? q ticket' :=
      LockState.waiter?_abandon fun e e' => same ⟨e.symm, e'.symm⟩
    cases here : x.state.waiter? p ticket <;> cases there : x.state.waiter? q ticket' <;>
      simp [abandon, found, found', here, there, account.abandon_comm p q]
    apply modify_comm
    intro _ ch
    rfl

end Instance

namespace Retreat

variable {x : Instance} {weights : List Nat}

/-- Retreats keep the account of the demand. -/
theorem account_apply (account : DemandAccounts weights x.state) (r : Retreat) :
    DemandAccounts weights (r.apply x).state := by
  cases r with
  | giveBack g | letGo g =>
      simp only [apply, Instance.regrant]
      split
      · exact account
      · split
        · exact account.returnSlot _
        · exact account
  | abandon p ticket => exact account.abandon p ticket
  | hangUp c => exact account
  | forget r => exact account

/-- Two changes of grants may be made in any order. -/
theorem regrant_comm {f f' : Grant → Grant} (hf : f = Grant.giveBack ∨ f = Grant.letGo)
    (hf' : f' = Grant.giveBack ∨ f' = Grant.letGo) (g k : Nat) (x : Instance) :
    (x.regrant f g).regrant f' k = (x.regrant f' k).regrant f g := by
  have lessens : ∀ {f : Grant → Grant}, f = Grant.giveBack ∨ f = Grant.letGo → Grant.Lessens f := by
    rintro f (rfl | rfl)
    · exact Grant.lessens_giveBack
    · exact Grant.lessens_letGo
  by_cases same : g = k
  · subst same
    rw [Instance.regrant_regrant (lessens hf) (lessens hf'),
      Instance.regrant_regrant (lessens hf') (lessens hf), Grant.giveBack_letGo_comm hf hf']
  · exact Instance.regrant_comm_of_ne same x

/-- A change of a grant and another retreat do not meet. -/
theorem apply_regrant (account : DemandAccounts weights x.state) (f : Grant → Grant) (g : Nat)
    {r : Retreat} (other : ∀ k, r ≠ .giveBack k ∧ r ≠ .letGo k) :
    r.apply (x.regrant f g) = (r.apply x).regrant f g := by
  cases r with
  | giveBack k => exact absurd rfl (other k).1
  | letGo k => exact absurd rfl (other k).2
  | abandon p ticket => exact (x.regrant_abandon account f g p ticket).symm
  | hangUp c | forget r =>
      cases here : x.grants[g]? with
      | none => simp [apply, Instance.regrant, Instance.setProgress, here]
      | some grant =>
          cases freed : !grant.released && (f grant).released <;>
            simp [apply, Instance.regrant, Instance.setProgress, here, freed]

/-- The receiver of a channel may go before or after a request leaves its queue. -/
theorem hangUp_abandon (c p : Nat) (ticket : UInt64) (x : Instance) :
    (hangUp c).apply (x.abandon p ticket) = ((hangUp c).apply x).abandon p ticket := by
  cases found : x.state.waiter? p ticket with
  | none => simp [apply, Instance.abandon, found]
  | some e =>
      have swapped : (x.channels.modify e.channel fun ch => ch.closeSender.1).modify c
          (fun ch => ch.dropReceiver.2) =
          (x.channels.modify c fun ch => ch.dropReceiver.2).modify e.channel
            fun ch => ch.closeSender.1 :=
        modify_comm (fun _ ch => ch.closeSender_dropReceiver) x.channels
      simp [apply, Instance.abandon, found, swapped]

/-- Two retreats may be made in any order. -/
theorem apply_comm (account : DemandAccounts weights x.state) (r r' : Retreat) :
    r'.apply (r.apply x) = r.apply (r'.apply x) := by
  cases r with
  | giveBack g =>
      cases r' with
      | giveBack k => exact regrant_comm (.inl rfl) (.inl rfl) g k x
      | letGo k => exact regrant_comm (.inl rfl) (.inr rfl) g k x
      | _ => exact apply_regrant account _ g (by simp)
  | letGo g =>
      cases r' with
      | giveBack k => exact regrant_comm (.inr rfl) (.inl rfl) g k x
      | letGo k => exact regrant_comm (.inr rfl) (.inr rfl) g k x
      | _ => exact apply_regrant account _ g (by simp)
  | abandon p ticket =>
      cases r' with
      | giveBack k | letGo k => exact (apply_regrant account _ k (by simp)).symm
      | abandon q ticket' => exact x.abandon_comm account p q ticket ticket'
      | hangUp c => exact hangUp_abandon c p ticket x
      | forget r => rfl
  | hangUp c =>
      cases r' with
      | giveBack k | letGo k => exact (apply_regrant account _ k (by simp)).symm
      | abandon q ticket => exact (hangUp_abandon c q ticket x).symm
      | hangUp d => simp [apply, modify_comm]
      | forget r => rfl
  | forget r =>
      cases r' with
      | giveBack k | letGo k => exact (apply_regrant account _ k (by simp)).symm
      | forget r' => simp [apply, Instance.setProgress, modify_comm]
      | _ => rfl

end Retreat

namespace Instance

variable {weights : List Nat} {rs rs' : List Retreat}

/-- Retreats may be made in any order. -/
theorem undergo_perm (perm : rs.Perm rs') {x : Instance}
    (account : DemandAccounts weights x.state) : x.undergo rs = x.undergo rs' := by
  induction perm generalizing x with
  | nil => rfl
  | cons r _ ih => exact ih (r.account_apply account)
  | swap r r' rs => exact congrArg (undergo rs) (Retreat.apply_comm account r' r)
  | trans _ _ ih ih' => exact (ih account).trans (ih' account)

end Instance

/-! ## Batches of calls -/

namespace World

variable {w u v v' : World} {c : Call} {cs cs' : List Call}

/-- The calls are made one after the other, each when the one before has run to its end. -/
inductive PerformsAll : List Call → World → World → Prop where
  | nil (w : World) : PerformsAll [] w w
  | cons {c : Call} {cs : List Call} {w u v : World} (first : w.Performs c u)
      (rest : PerformsAll cs u v) : PerformsAll (c :: cs) w v

/-- Calls are made one after the other in one way only. -/
theorem PerformsAll.unique (h : w.PerformsAll cs v) (h' : w.PerformsAll cs v') : v' = v := by
  induction h with
  | nil =>
      cases h'
      rfl
  | cons first _ ih =>
      cases h' with
      | cons first' rest' =>
          cases first.unique first'
          exact ih rest'

/-- Calls that are made one after the other are a run. -/
theorem PerformsAll.exists_run (h : w.PerformsAll cs v) : ∃ ms, w.run? ms = some v := by
  induction h with
  | nil w => exact ⟨[], rfl⟩
  | cons first _ ih =>
      obtain ⟨ms, run, -⟩ := first.exists_run
      obtain ⟨ms', run'⟩ := ih
      exact ⟨_, run?_trans run run'⟩

/-- After calls that are made one after the other the layers are those before. -/
theorem PerformsAll.layers_eq (h : w.PerformsAll cs v) : v.layers = w.layers := by
  induction h with
  | nil => rfl
  | cons first _ ih => exact ih.trans first.layers_eq

/-- After calls that are made one after the other it is the turn of users again. -/
theorem PerformsAll.usersTurn (h : w.PerformsAll cs v) (turn : w.usersTurn = true) :
    v.usersTurn = true := by
  unfold World.usersTurn at turn ⊢
  rwa [h.layers_eq]

/-- The calls let different things go that users hold: locks, by a release or a drop of a clone,
each of a clone of its own, and requests, each once. -/
structure Batch (w : World) (cs : List Call) : Prop where
  kinds : ∀ c ∈ cs, (∃ g, c = .release g) ∨ (∃ g, c = .dropLock g) ∨ ∃ r, c = .dropRequest r
  clones : ∀ g, cs.count (.release g) + cs.count (.dropLock g) ≤ w.locks.count g
  /-- A clone on which a call in progress works is not let go. -/
  unused : ∀ g, .dropLock g ∈ cs →
    (w.lockInUse g).toNat + cs.count (.dropLock g) ≤ w.locks.count g
  requests : ∀ r, cs.count (.dropRequest r) ≤ (w.holdsRequest r).toNat

/-- The order of a batch does not matter for what it is. -/
theorem Batch.perm (h : w.Batch cs) (perm : cs.Perm cs') : w.Batch cs' where
  kinds c member := h.kinds c (perm.mem_iff.mpr member)
  clones g := by
    rw [← perm.count_eq, ← perm.count_eq]
    exact h.clones g
  unused g member := by
    rw [← perm.count_eq]
    exact h.unused g (perm.mem_iff.mpr member)
  requests r := by
    rw [← perm.count_eq]
    exact h.requests r

/-- Every call of a batch is allowed. -/
theorem Batch.allows (h : w.Batch (c :: cs)) : w.allows c = true := by
  rcases h.kinds c (.head _) with ⟨g, rfl⟩ | ⟨g, rfl⟩ | ⟨r, rfl⟩
  · have clones := h.clones g
    rw [List.count_cons_self] at clones
    exact decide_eq_true (List.count_pos_iff.mp (by omega))
  · have unused := h.unused g (.head _)
    rw [List.count_cons_self] at unused
    exact decide_eq_true (by omega)
  · have once := h.requests r
    rw [List.count_cons_self] at once
    cases held : w.holdsRequest r with
    | true => exact held
    | false =>
        rw [held] at once
        exact absurd once (Nat.not_succ_le_zero _)

end World

namespace Instance

variable {x : Instance} {r k d : Nat}

/-- No handle goes with a retreat. -/
theorem handles_undergo (rs : List Retreat) (x : Instance) :
    (x.undergo rs).handles = x.handles := by
  induction rs generalizing x with
  | nil => rfl
  | cons r rs ih =>
      refine (ih (r.apply x)).trans ?_
      cases r with
      | giveBack g | letGo g =>
          simp only [Retreat.apply, regrant]
          split
          · rfl
          · split <;> rfl
      | _ => rfl

/-- A caller marks no other request. -/
theorem eq_of_forget_mem_forsakes (member : .forget k ∈ x.forsakes r) : k = r := by
  rcases List.mem_append.mp member with own | lets
  · unfold farewell at own
    split at own
    · cases own
    · split at own <;> simpa using own
  · simp at lets

/-- A caller lets the receiver go that the request has. -/
theorem exists_of_hangUp_mem_forsakes (member : .hangUp d ∈ x.forsakes r) :
    ∃ (q : Request) (ticket : UInt64), x.requests[r]? = some q ∧
      q.progress = .queued ticket d := by
  rcases List.mem_append.mp member with own | lets
  · unfold farewell at own
    split at own
    · cases own
    · rename_i q here
      split at own
      · rename_i ticket c queued
        obtain rfl : d = c := by simpa using own
        exact ⟨q, ticket, here, queued⟩
      · simp at own
  · simp at lets

/-- What a caller retreats from with a request is read off the request and its channel. -/
theorem forsakes_congr {y : Instance} (request : y.requests[r]? = x.requests[r]?)
    (value : ∀ (q : Request) (ticket : UInt64) (c : Nat), x.requests[r]? = some q →
      q.progress = .queued ticket c →
      (y.channels[c]?).bind Handoff.value = (x.channels[c]?).bind Handoff.value) :
    y.forsakes r = x.forsakes r := by
  unfold forsakes farewell grantOf?
  rw [request]
  cases here : x.requests[r]? with
  | none => rfl
  | some q =>
      rcases progress : q.progress with (_ | _ | g) | ⟨ticket, c⟩ | _ | _
      case queued => simp only [progress, value q ticket c here progress]
      all_goals simp only [progress]

end Instance

/-- A call marks a request only if it lets it go. -/
theorem Call.eq_of_forget_mem_retreats {x : Instance} {c : Call} {r : Nat}
    (member : .forget r ∈ c.retreats x) : c = .dropRequest r := by
  cases c with
  | dropRequest k => rw [Instance.eq_of_forget_mem_forsakes member]
  | _ => simp [retreats] at member

/-- What a caller retreats from with a request does not depend on a call for another thing. -/
theorem Call.forsakes_of_retreats {x : Instance} {c : Call} {r : Nat} {tasks : List Task}
    (ends : ChannelEnds x.state.waiters x.requests x.channels tasks)
    (apart : c ≠ .dropRequest r) : (x.undergo (c.retreats x)).forsakes r = x.forsakes r := by
  apply Instance.forsakes_congr
  · exact Instance.request_undergo (fun member => apart (eq_of_forget_mem_retreats member)) x
  · intro q ticket d here queued
    apply Instance.value_undergo
    intro member
    cases c with
    | dropRequest k =>
        obtain ⟨q', ticket', here', queued'⟩ := Instance.exists_of_hangUp_mem_forsakes member
        exact apart (congrArg Call.dropRequest (QueueBook.sole ends here' queued' here queued))
    | _ => simp [retreats] at member

namespace World

variable {c : Config} {x : Instance} {ms : List Move} {w u : World} {d : Call} {cs : List Call}

/-- A request that a call does not let go stays with its caller. -/
theorem holdsRequest_of_retires {r : Nat} (layers : u.layers = w.layers)
    (retires : w.inst.Retires (d.retreats w.inst) u.inst) (other : d ≠ .dropRequest r) :
    u.holdsRequest r = w.holdsRequest r := by
  have request : u.inst.requests[r]? = w.inst.requests[r]? := by
    rw [retires.same]
    exact Instance.request_undergo
      (fun member => other (Call.eq_of_forget_mem_retreats member)) w.inst
  unfold holdsRequest handsOver
  rw [request, layers]

/-- A call of a batch takes at most the one clone that it lets go of from its user. -/
theorem Batch.count_locksAfter (batch : w.Batch (d :: cs)) (g : Nat) :
    (w.locksAfter d).count g = w.locks.count g - (decide (d = .dropLock g)).toNat := by
  rcases batch.kinds d (.head _) with ⟨k, rfl⟩ | ⟨k, rfl⟩ | ⟨r, rfl⟩
  · simp [locksAfter]
  · rw [locksAfter, List.count_erase]
    by_cases same : k = g <;> simp [same]
  · simp [locksAfter]

/-- What is left of a batch after its first call is a batch. -/
theorem Batch.tail (batch : w.Batch (d :: cs)) (first : w.Performs d u)
    (retires : w.inst.Retires (d.retreats w.inst) u.inst) : u.Batch cs := by
  have layers := first.layers_eq
  have locks := first.locks_eq
  have kept (c : Call) := count_cons_add c d cs
  refine ⟨fun c member => batch.kinds c (.tail _ member), ?_, ?_, ?_⟩
  · intro g
    have clones := batch.clones g
    rw [kept, kept] at clones
    rw [locks, batch.count_locksAfter]
    omega
  · intro g member
    have unused := batch.unused g (.tail _ member)
    have inUse : u.lockInUse g = w.lockInUse g := by
      unfold lockInUse
      rw [layers]
    rw [kept] at unused
    rw [inUse, locks, batch.count_locksAfter]
    omega
  · intro r
    have once := batch.requests r
    rw [kept] at once
    by_cases own : d = .dropRequest r
    · have most := Bool.toNat_le (w.holdsRequest r)
      rw [decide_eq_true own, Bool.toNat_true] at once
      omega
    · rw [holdsRequest_of_retires layers retires own]
      omega

/-- While there is a handle, somebody owns the instance besides the grants. -/
theorem backed_of_handles (fresh : Instance.create c = .ok x) (run : (start x).run? ms = some w)
    (handle : 0 < w.inst.handles) : w.inst.Backed := by
  have count := ownerCount fresh run
  unfold OwnerCount at count
  unfold Instance.Backed
  omega

/-- A call of a batch makes its retreats, while there is a handle. -/
theorem exists_performs_retreats (fresh : Instance.create c = .ok x)
    (run : (start x).run? ms = some w) (turn : w.usersTurn = true) (handle : 0 < w.inst.handles)
    {d : Call} {cs : List Call} (batch : w.Batch (d :: cs)) :
    ∃ u, w.Performs d u ∧ w.inst.Retires (d.retreats w.inst) u.inst := by
  have backed := backed_of_handles fresh run handle
  have performs {y : Instance} (completes : Completes (d.begin w.inst).2 (d.begin w.inst).1 y)
      (retires : w.inst.Retires (d.retreats w.inst) y) :
      ∃ u, w.Performs d u ∧ w.inst.Retires (d.retreats w.inst) u.inst :=
    ⟨_, ⟨turn, batch.allows, y, completes, rfl⟩, retires⟩
  rcases batch.kinds d (.head _) with ⟨g, rfl⟩ | ⟨g, rfl⟩ | ⟨r, rfl⟩
  · obtain ⟨y, completes, retires⟩ := completes_giveBack g backed
    exact performs completes retires
  · obtain ⟨y, completes, retires⟩ := completes_letGo g backed
    exact performs completes retires
  · obtain ⟨y, retires, goes⟩ :=
      completes_dropRequest r (demandAccounts fresh run) (killed_of_dead fresh run)
    cases granted : w.inst.grantOf? r with
    | none =>
        have completes := goes y (by rw [granted]; exact .done y)
        refine performs completes ?_
        have nothing : (Call.dropRequest r).retreats w.inst = w.inst.farewell r := by
          simp [Call.retreats, Instance.forsakes, granted]
        rwa [nothing]
    | some g =>
        have backed' : y.Backed := by
          obtain ⟨grants, owners⟩ := w.inst.grants_farewell r
          unfold Instance.Backed
          rw [retires.same]
          simp only [grants, owners]
          exact backed
        obtain ⟨z, lets, retires'⟩ := completes_letGo g backed'
        have completes := goes z (by rw [granted]; exact .task rfl lets)
        refine performs completes ?_
        have all : (Call.dropRequest r).retreats w.inst = w.inst.farewell r ++ [.letGo g] := by
          simp [Call.retreats, Instance.forsakes, granted]
        rw [all]
        exact retires.trans retires'

/-- What a call of a batch retreats from does not depend on the one before it. -/
theorem Batch.retreats_eq (batch : w.Batch (d :: cs)) {tasks : List Task}
    (ends : ChannelEnds w.inst.state.waiters w.inst.requests w.inst.channels tasks)
    (retires : w.inst.Retires (d.retreats w.inst) u.inst) {c : Call} (member : c ∈ cs) :
    c.retreats u.inst = c.retreats w.inst := by
  rcases batch.kinds c (.tail _ member) with ⟨g, rfl⟩ | ⟨g, rfl⟩ | ⟨r, rfl⟩
  · rfl
  · rfl
  · have apart : d ≠ .dropRequest r := by
      rintro rfl
      have once := batch.requests r
      have most := Bool.toNat_le (w.holdsRequest r)
      have pos := List.count_pos_iff.mpr member
      rw [List.count_cons_self] at once
      omega
    change u.inst.forsakes r = w.inst.forsakes r
    rw [retires.same]
    exact Call.forsakes_of_retreats ends apart

/-- A batch of calls makes the retreats of its calls. -/
theorem exists_performsAll (fresh : Instance.create c = .ok x)
    (run : (start x).run? ms = some w) (turn : w.usersTurn = true) (handle : 0 < w.inst.handles)
    (batch : w.Batch cs) :
    ∃ v, w.PerformsAll cs v ∧ w.inst.Retires (cs.flatMap (Call.retreats w.inst)) v.inst := by
  induction cs generalizing w ms with
  | nil => exact ⟨w, .nil w, .refl w.inst⟩
  | cons d cs ih =>
      obtain ⟨u, first, retires⟩ := exists_performs_retreats fresh run turn handle batch
      obtain ⟨ms', run', -⟩ := first.exists_run
      have handles : 0 < u.inst.handles := by
        rw [retires.same]
        exact Nat.lt_of_lt_of_eq handle (Instance.handles_undergo _ _).symm
      obtain ⟨v, rest, retires'⟩ :=
        ih (run?_trans run run') first.usersTurn handles (batch.tail first retires)
      refine ⟨v, .cons first rest, ?_⟩
      have same : cs.flatMap (Call.retreats u.inst) = cs.flatMap (Call.retreats w.inst) :=
        List.flatMap_congr fun c member =>
          batch.retreats_eq (channelEnds fresh run) retires member
      rw [List.flatMap_cons, ← same]
      exact retires.trans retires'

end World

/-! ## The next poll of the grant loop -/

namespace World

variable {c : Config} {x : Instance} {ms : List Move} {w u v v' : World} {cs cs' : List Call}

/-- A poll of the grant loop runs to its end, if the wakers do nothing. -/
theorem exists_performs_drive (fresh : Instance.create c = .ok x)
    (run : (start x).run? ms = some w) (turn : w.usersTurn = true) {k : Waker}
    (allowed : w.allows (.drive k) = true) : ∃ u, w.Performs (.drive k) u := by
  have step : w.step? (.call (.drive k)) = some (w.begin (.drive k)) := by
    simp [step?, turn, allowed]
  have begun := run?_append_singleton_eq_some_iff.mpr ⟨w, run, step⟩
  obtain ⟨y, completes⟩ := exists_completes fresh begun rfl
  exact ⟨_, turn, allowed, y, completes, rfl⟩

end World

namespace Instance

variable {x y z : Instance} {rs rs' : List Retreat} {weights : List Nat}

/-- Retreats in another order leave the same instance, apart from the wake event and the log. -/
theorem Retires.perm (h : x.Retires rs y) (h' : x.Retires rs' z) (perm : rs.Perm rs')
    (account : DemandAccounts weights x.state) : z = { y with wake := z.wake, log := z.log } := by
  rw [h'.same, ← undergo_perm perm account, h.same]

/-- If there is something to do for the grant loop, the wake event is the same as well. -/
theorem Stirs.wake_eq (h : x.Stirs y) (h' : x.Stirs z) (same : z.state = y.state)
    (running : y.state.halted = false) (serve : y.state.CanServe) : z.wake = y.wake := by
  rcases h with ⟨state, wake⟩ | ⟨less, fired⟩ <;> rcases h' with ⟨state', wake'⟩ | ⟨less', fired'⟩
  · exact wake'.trans wake.symm
  · rw [same, state] at less'
    exact absurd less' (lt_irrefl _)
  · rw [← same, state'] at less
    exact absurd less (lt_irrefl _)
  · rw [same] at fired'
    exact (fired' running serve).trans (fired running serve).symm

end Instance

namespace World

variable {c : Config} {x : Instance} {ms : List Move} {w u v v' : World} {cs cs' : List Call}

/-- Two polls of the grant loop do the same, if they begin with instances that differ in nothing but
their logs. -/
theorem Performs.drive_of_log {k : Waker} (h : v.Performs (.drive k) u)
    (layers : v'.layers = v.layers) (same : v'.inst = { v.inst with log := v'.inst.log }) :
    ∃ u' news, v'.Performs (.drive k) u' ∧ u.inst.log = v.inst.log ++ news ∧
      u'.inst = { u.inst with log := v'.inst.log ++ news } := by
  obtain ⟨turn, allowed, z, completes, rfl⟩ := h
  -- both begin with the instance that has not logged anything yet
  generalize blank : ({ v.inst with log := [] } : Instance) = y
  have here : v.inst = y.withPast v.inst.log := by simp [← blank, Instance.withPast]
  have there : v'.inst = y.withPast v'.inst.log := by
    rw [← blank]
    exact same.trans (by simp [Instance.withPast])
  have begins : (Call.drive k).begin v.inst =
      ((y.drive k).1.withPast v.inst.log, (y.drive k).2) := congrArg (Call.drive k).begin here
  have begins' : (Call.drive k).begin v'.inst =
      ((y.drive k).1.withPast v'.inst.log, (y.drive k).2) := congrArg (Call.drive k).begin there
  rw [begins] at completes
  obtain ⟨z', rfl, does⟩ := completes.of_withPast
  have turn' : v'.usersTurn = true := by
    unfold World.usersTurn at turn ⊢
    rwa [layers]
  have allowed' : v'.allows (.drive k) = true := by
    unfold allows at allowed ⊢
    rwa [same]
  exact ⟨_, z'.log, ⟨turn', allowed', z'.withPast v'.inst.log, begins' ▸ does.withPast, rfl⟩,
    rfl, rfl⟩

/-- Users who let several things go need not mind the order. What is left is the same but for the
wake event and the log, and the next poll of the grant loop goes on in the same way. -/
theorem batch_order_irrelevant (fresh : Instance.create c = .ok x)
    (run : (start x).run? ms = some w) (turn : w.usersTurn = true) (handle : 0 < w.inst.handles)
    (batch : w.Batch cs) :
    (∀ cs', cs.Perm cs' → ∃ v, w.PerformsAll cs' v) ∧
    ∀ cs' v v', cs.Perm cs' → w.PerformsAll cs v → w.PerformsAll cs' v' →
      v'.inst = { v.inst with wake := v'.inst.wake, log := v'.inst.log } ∧
      (0 < v.inst.state.free → 0 < v.inst.state.waiting →
        ∀ k, v.allows (.drive k) = true →
          ∃ u u' news, v.Performs (.drive k) u ∧ v'.Performs (.drive k) u' ∧
            u.inst.log = v.inst.log ++ news ∧
            u'.inst = { u.inst with log := v'.inst.log ++ news }) := by
  have made (cs' : List Call) (perm : cs.Perm cs') :=
    exists_performsAll fresh run turn handle (batch.perm perm)
  refine ⟨fun cs' perm => (made cs' perm).imp fun _ => And.left, ?_⟩
  intro cs' v v' perm performs performs'
  obtain ⟨_, first, retires⟩ := made cs (.refl cs)
  obtain ⟨_, first', retires'⟩ := made cs' perm
  cases performs.unique first
  cases performs'.unique first'
  have same := retires.perm retires' (perm.flatMap_right _) (demandAccounts fresh run)
  refine ⟨same, fun free waiting k allowed => ?_⟩
  -- with work for the loop, the wake events agree as well
  obtain ⟨ms', run'⟩ := performs.exists_run
  have reached := run?_trans run run'
  have serve : v.inst.state.CanServe := ⟨free, waiting⟩
  have running := serve.running (slotsBalance fresh reached)
  have state : v'.inst.state = v.inst.state := by rw [same]
  rw [retires.stirs.wake_eq retires'.stirs state running serve] at same
  obtain ⟨u, drives⟩ := exists_performs_drive fresh reached (performs.usersTurn turn) allowed
  obtain ⟨u', news, drives', log, same'⟩ :=
    drives.drive_of_log (performs'.layers_eq.trans performs.layers_eq.symm) same
  exact ⟨u, u', news, drives, drives', log, same'⟩

/-- Both slots are held, and three requests wait. One lock is released, and two requests are let go,
of which one holds the other grant and one waits. In the opposite order that leads to the same. -/
theorem batch_order_irrelevant_of_three_calls :
    ∃ w v v' u u' news, (start (.ofConfig { concurrency := 2, weights := [1, 1] })).run?
        [.call (.request 0), .callEnds, .call (.poll 0 .silent), .callEnds, .call (.request 1),
          .callEnds, .call (.request 0), .callEnds, .call (.request 1), .callEnds,
          .call (.request 0), .callEnds] = some w ∧
      w.PerformsAll [.release 0, .dropRequest 1, .dropRequest 2] v ∧
      w.PerformsAll [.dropRequest 2, .dropRequest 1, .release 0] v' ∧
      v'.inst.log ≠ v.inst.log ∧ v'.inst.state = v.inst.state ∧
      v.Performs (.drive .silent) u ∧ v'.Performs (.drive .silent) u' ∧
      u.inst.log = v.inst.log ++ news ∧ u'.inst = { u.inst with log := v'.inst.log ++ news } := by
  obtain ⟨w, v, v', run, turn, handle, batch, first, first', free, waiting, allowed, logs⟩ :
      ∃ w v v', (start (.ofConfig { concurrency := 2, weights := [1, 1] })).run?
          [.call (.request 0), .callEnds, .call (.poll 0 .silent), .callEnds, .call (.request 1),
            .callEnds, .call (.request 0), .callEnds, .call (.request 1), .callEnds,
            .call (.request 0), .callEnds] = some w ∧
        w.usersTurn = true ∧ 0 < w.inst.handles ∧
        w.Batch [.release 0, .dropRequest 1, .dropRequest 2] ∧
        w.PerformsAll [.release 0, .dropRequest 1, .dropRequest 2] v ∧
        w.PerformsAll [.dropRequest 2, .dropRequest 1, .release 0] v' ∧
        0 < v.inst.state.free ∧ 0 < v.inst.state.waiting ∧ v.allows (.drive .silent) = true ∧
        v'.inst.log ≠ v.inst.log := by
    refine ⟨_, _, _, rfl, rfl, by decide, ⟨by simp, ?_, by simp, ?_⟩,
      .cons ⟨rfl, rfl, _, .work rfl (.work rfl (.done _)), rfl⟩
        (.cons ⟨rfl, rfl, _, .work rfl (.work rfl (.work rfl (.done _))), rfl⟩
          (.cons ⟨rfl, rfl, _, .work rfl (.work rfl (.work rfl (.work rfl (.done _)))), rfl⟩
            (.nil _))),
      .cons ⟨rfl, rfl, _, .work rfl (.work rfl (.work rfl (.done _))), rfl⟩
        (.cons ⟨rfl, rfl, _, .work rfl (.work rfl (.work rfl (.done _))), rfl⟩
          (.cons ⟨rfl, rfl, _, .work rfl (.work rfl (.done _)), rfl⟩ (.nil _))),
      by decide, by decide, rfl, by decide⟩
    · rintro (_ | g)
      · decide
      · simp
    · rintro (_ | _ | _ | r)
      · decide
      · decide
      · decide
      · simp
  obtain ⟨-, agree⟩ := batch_order_irrelevant (c := { concurrency := 2, weights := [1, 1] }) rfl run
    turn handle batch
  obtain ⟨same, next⟩ := agree _ v v' (by decide) first first'
  obtain ⟨u, u', news, drives, drives', log, same'⟩ := next free waiting .silent allowed
  exact ⟨w, v, v', u, u', news, run, first, first', logs, by rw [same], drives, drives', log, same'⟩

end World

end FairShare
