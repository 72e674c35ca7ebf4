import FairShare.Proofs.Channels
import FairShare.Proofs.Demand

/-!
# The fates of queued requests

A request that had to queue and was not let go waits in its queue, or its grant has come, or it has
failed with a kill. It is linked to its entry in the queue by a ticket and by a channel; both are
its own as long as no ticket was given out twice, which is to say for fewer than `2 ^ 64` queued
requests.
-/

namespace FairShare

/-- What has become of a request at the priority that awaits its verdict on the channel. -/
inductive Fate (s : LockState) (channels : List (Handoff Nat)) (grants : List Grant) (p c : Nat) :
    Prop where
  | waits {w : Waiter} (entry : w ∈ s.queueAt p) (own : w.channel = c)
  | granted {ch : Handoff Nat} {g : Nat} {grant : Grant} (channel : channels[c]? = some ch)
      (full : ch.value = some g) (made : grants[g]? = some grant) (priority : grant.priority = p)
  | failed {ch : Handoff Nat} (killed : s.killed = true) (channel : channels[c]? = some ch)
      (empty : ch.value = none)

/-- Entries of queues and requests that await their verdicts belong together. -/
structure QueueBook (s : LockState) (requests : List Request) (channels : List (Handoff Nat))
    (grants : List Grant) : Prop where
  next : s.nextTicket = UInt64.ofNat channels.length
  /-- An entry is of a request that awaits its verdict. -/
  entries : ∀ p, ∀ w ∈ s.queueAt p, w.ticket = UInt64.ofNat w.channel ∧
    ∃ r : Nat, requests[r]? = some { priority := p, progress := .queued w.ticket w.channel }
  tickets : ∀ (r : Nat) (q : Request) ticket c, requests[r]? = some q →
    q.progress = .queued ticket c → ticket = UInt64.ofNat c
  /-- A request that awaits its verdict has a fate. -/
  fates : ∀ (r : Nat) (q : Request) ticket c, requests[r]? = some q →
    q.progress = .queued ticket c → Fate s channels grants q.priority c

namespace QueueBook

variable {s s' : LockState} {requests : List Request} {channels : List (Handoff Nat)}
  {grants : List Grant}

/-- The book reads nothing of the counters but queues, the next ticket and the kill. -/
theorem congr (h : QueueBook s requests channels grants) (queues : s'.queues = s.queues)
    (next : s'.nextTicket = s.nextTicket) (killed : s'.killed = s.killed) :
    QueueBook s' requests channels grants := by
  have queueAt := LockState.queueAt_congr queues
  refine ⟨next.trans h.next, ?_, h.tickets, ?_⟩
  · rw [queueAt]
    exact h.entries
  · intro r q ticket c here queued
    cases h.fates r q ticket c here queued with
    | waits entry own => exact .waits (queueAt ▸ entry) own
    | granted channel full made priority => exact .granted channel full made priority
    | failed dead channel empty => exact .failed (killed.trans dead) channel empty

theorem takeSlot (h : QueueBook s requests channels grants) (p : Nat) :
    QueueBook (s.takeSlot p) requests channels grants :=
  h.congr (s.queues_takeSlot p) rfl rfl

theorem returnSlot (h : QueueBook s requests channels grants) (p : Nat) :
    QueueBook (s.returnSlot p) requests channels grants :=
  h.congr (s.queues_returnSlot p) rfl rfl

/-- A request that does not queue. -/
theorem append_request {q : Request} (h : QueueBook s requests channels grants)
    (idle : ∀ ticket c, q.progress ≠ .queued ticket c) :
    QueueBook s (requests ++ [q]) channels grants := by
  have old : ∀ (r : Nat) (q' : Request) ticket c, (requests ++ [q])[r]? = some q' →
      q'.progress = .queued ticket c → requests[r]? = some q' := by
    intro r q' ticket c here queued
    rcases of_getElem?_append_singleton here with old | ⟨-, rfl⟩
    · exact old
    · exact absurd queued (idle ticket c)
  refine ⟨h.next, ?_, ?_, ?_⟩
  · intro p w entry
    obtain ⟨ticket, r, here⟩ := h.entries p w entry
    exact ⟨ticket, r, getElem?_append_of_some here _⟩
  · intro r q' ticket c here queued
    exact h.tickets r q' ticket c (old r q' ticket c here queued) queued
  · intro r q' ticket c here queued
    exact h.fates r q' ticket c (old r q' ticket c here queued) queued

/-- A request that awaits nothing any more, and has no entry. -/
theorem set_request {r : Nat} {q q' : Request} (h : QueueBook s requests channels grants)
    (here : requests[r]? = some q) (idle : ∀ ticket c, q'.progress ≠ .queued ticket c)
    (apart : ∀ ticket c, q.progress = .queued ticket c →
      ∀ p, ∀ w ∈ s.queueAt p, w.channel ≠ c) :
    QueueBook s (requests.set r q') channels grants := by
  have old : ∀ (k : Nat) (q₁ : Request) ticket c, (requests.set r q')[k]? = some q₁ →
      q₁.progress = .queued ticket c → requests[k]? = some q₁ := by
    intro k q₁ ticket c there queued
    rcases of_getElem?_set there with ⟨-, rfl⟩ | ⟨-, there⟩
    · exact absurd queued (idle ticket c)
    · exact there
  refine ⟨h.next, ?_, ?_, ?_⟩
  · intro p w entry
    obtain ⟨ticket, k, there⟩ := h.entries p w entry
    refine ⟨ticket, k, ?_⟩
    have other : r ≠ k := by
      rintro rfl
      cases here.symm.trans there
      exact apart _ _ rfl p w entry rfl
    rw [List.getElem?_set_ne other]
    exact there
  · intro k q₁ ticket c there queued
    exact h.tickets k q₁ ticket c (old k q₁ ticket c there queued) queued
  · intro k q₁ ticket c there queued
    exact h.fates k q₁ ticket c (old k q₁ ticket c there queued) queued

/-- A channel that changes without a change of its value. -/
theorem set_channel {c : Nat} {ch ch' : Handoff Nat} (h : QueueBook s requests channels grants)
    (channel : channels[c]? = some ch) (same : ch'.value = ch.value) :
    QueueBook s requests (channels.set c ch') grants := by
  have value : ∀ (d : Nat) (ch₀ : Handoff Nat), channels[d]? = some ch₀ →
      ∃ ch₁ : Handoff Nat, (channels.set c ch')[d]? = some ch₁ ∧ ch₁.value = ch₀.value := by
    intro d ch₀ hd
    by_cases hcd : c = d
    · subst hcd
      cases channel.symm.trans hd
      exact ⟨ch', getElem?_set_of_some channel ch', same⟩
    · exact ⟨ch₀, by rw [List.getElem?_set_ne hcd, hd], rfl⟩
  refine ⟨by rw [List.length_set, h.next], h.entries, h.tickets, ?_⟩
  intro r q ticket d here queued
  cases h.fates r q ticket d here queued with
  | waits entry own => exact .waits entry own
  | granted hd full made priority =>
      obtain ⟨ch₁, hd', same'⟩ := value d _ hd
      exact .granted hd' (same'.trans full) made priority
  | failed dead hd empty =>
      obtain ⟨ch₁, hd', same'⟩ := value d _ hd
      exact .failed dead hd' (same'.trans empty)

/-- A channel on which nobody awaits a verdict. -/
theorem set_unawaited {c : Nat} {ch' : Handoff Nat} (h : QueueBook s requests channels grants)
    (nobody : ∀ (r : Nat) (q : Request) ticket, requests[r]? = some q →
      q.progress ≠ .queued ticket c) : QueueBook s requests (channels.set c ch') grants := by
  refine ⟨by rw [List.length_set, h.next], h.entries, h.tickets, ?_⟩
  intro r q ticket d here queued
  have other : c ≠ d := by
    rintro rfl
    exact nobody r q ticket here queued
  cases h.fates r q ticket d here queued with
  | waits entry own => exact .waits entry own
  | granted hd full made priority =>
      exact .granted (by rw [List.getElem?_set_ne other, hd]) full made priority
  | failed dead hd empty => exact .failed dead (by rw [List.getElem?_set_ne other, hd]) empty

/-- Grants that stay at their priorities. -/
theorem regrant {grants' : List Grant} (h : QueueBook s requests channels grants)
    (same : ∀ (g : Nat) (grant : Grant), grants[g]? = some grant →
      ∃ grant' : Grant, grants'[g]? = some grant' ∧ grant'.priority = grant.priority) :
    QueueBook s requests channels grants' := by
  refine ⟨h.next, h.entries, h.tickets, ?_⟩
  intro r q ticket c here queued
  cases h.fates r q ticket c here queued with
  | waits entry own => exact .waits entry own
  | granted channel full made priority =>
      obtain ⟨grant', made', same'⟩ := same _ _ made
      exact .granted channel full made' (same'.trans priority)
  | failed dead channel empty => exact .failed dead channel empty

theorem append_grant (h : QueueBook s requests channels grants) (grant : Grant) :
    QueueBook s requests channels (grants ++ [grant]) := by
  apply h.regrant
  intro g old made
  exact ⟨old, getElem?_append_of_some made _, rfl⟩

theorem set_grant {g : Nat} {grant grant' : Grant} (h : QueueBook s requests channels grants)
    (here : grants[g]? = some grant) (same : grant'.priority = grant.priority) :
    QueueBook s requests channels (grants.set g grant') := by
  apply h.regrant
  intro k old made
  by_cases hk : g = k
  · subst hk
    cases here.symm.trans made
    exact ⟨grant', getElem?_set_of_some here grant', same⟩
  · exact ⟨old, by rw [List.getElem?_set_ne hk, made], rfl⟩

/-- A request that queues has the last entry of its queue. -/
theorem enqueue {p : Nat} (h : QueueBook s requests channels grants) (room : p < s.lanes.length) :
    QueueBook (s.enqueue p channels.length)
      (requests ++ [{ priority := p, progress := .queued s.nextTicket channels.length }])
      (channels ++ [Handoff.empty]) grants := by
  have e := s.enqueue_eq p channels.length
  have queueAt := LockState.queueAt_enqueue channels.length room
  have next : (s.enqueue p channels.length).nextTicket = s.nextTicket + 1 := by rw [e]
  have killed : (s.enqueue p channels.length).killed = s.killed := by rw [e]
  have grows : ∀ q, ∀ w ∈ s.queueAt q, w ∈ (s.enqueue p channels.length).queueAt q := by
    intro q w entry
    rw [queueAt]
    split
    · rename_i same
      rw [same] at entry
      exact List.mem_append_left _ entry
    · exact entry
  constructor
  · rw [next, h.next, List.length_append, List.length_singleton, UInt64.ofNat_add]
    rfl
  · intro q w entry
    rw [queueAt] at entry
    have old : w ∈ s.queueAt q → w.ticket = UInt64.ofNat w.channel ∧ ∃ r : Nat,
        (requests ++ [{ priority := p, progress := .queued s.nextTicket channels.length }])[r]? =
          some { priority := q, progress := .queued w.ticket w.channel } := by
      intro entry
      obtain ⟨ticket, r, here⟩ := h.entries q w entry
      exact ⟨ticket, r, getElem?_append_of_some here _⟩
    split at entry
    · rename_i same
      subst same
      rcases List.mem_append.mp entry with entry | new
      · exact old entry
      · obtain rfl := List.mem_singleton.mp new
        exact ⟨h.next, requests.length, List.getElem?_concat_length⟩
    · exact old entry
  · intro r q ticket c here queued
    rcases of_getElem?_append_singleton here with here | ⟨-, rfl⟩
    · exact h.tickets r q ticket c here queued
    · cases queued
      exact h.next
  · intro r q ticket c here queued
    rcases of_getElem?_append_singleton here with here | ⟨-, rfl⟩
    · cases h.fates r q ticket c here queued with
      | waits entry own => exact .waits (grows _ _ entry) own
      | granted channel full made priority =>
          exact .granted (getElem?_append_of_some channel _) full made priority
      | failed dead channel empty =>
          exact .failed (killed.trans dead) (getElem?_append_of_some channel _) empty
    · cases queued
      refine .waits (w := ⟨s.nextTicket, channels.length⟩) ?_ rfl
      rw [queueAt, if_pos rfl]
      exact List.mem_append_right _ List.mem_cons_self

/-- A fate that is not tied to the entry that leaves stays. -/
theorem fate_of_leaves {p q c : Nat} {w : Waiter} (leaves : LockState.Leaves p w s s')
    (other : w.channel ≠ c) (fate : Fate s channels grants q c) : Fate s' channels grants q c := by
  cases fate with
  | waits entry own =>
      rcases leaves.mem_or entry with stays | rfl
      · exact .waits stays own
      · exact absurd own other
  | granted channel full made priority => exact .granted channel full made priority
  | failed dead channel empty => exact .failed (leaves.frame.2.1.trans dead) channel empty

/-- A request that is let go while it waits takes its entry with it. -/
theorem withdraw {p r : Nat} {w : Waiter} {q q' : Request} {ticket : UInt64}
    (h : QueueBook s requests channels grants) (leaves : LockState.Leaves p w s s')
    (here : requests[r]? = some q) (queued : q.progress = .queued ticket w.channel)
    (idle : ∀ ticket c, q'.progress ≠ .queued ticket c)
    (alone : ∀ q, ∀ w' ∈ s'.queueAt q, w'.channel ≠ w.channel)
    (sole : ∀ (k : Nat) (q₁ : Request) t, requests[k]? = some q₁ →
      q₁.progress = .queued t w.channel → k = r) :
    QueueBook s' (requests.set r q') channels grants := by
  have old : ∀ (k : Nat) (q₁ : Request) t c, (requests.set r q')[k]? = some q₁ →
      q₁.progress = .queued t c → requests[k]? = some q₁ ∧ w.channel ≠ c := by
    intro k q₁ t c there queued'
    rcases of_getElem?_set there with ⟨-, rfl⟩ | ⟨apart, there⟩
    · exact absurd queued' (idle t c)
    · refine ⟨there, ?_⟩
      rintro rfl
      exact apart (sole k q₁ t there queued').symm
  refine ⟨leaves.frame.1.trans h.next, ?_, ?_, ?_⟩
  · intro q₁ w' entry
    obtain ⟨ticket', k, there⟩ := h.entries q₁ w' (leaves.mem_of_mem entry)
    refine ⟨ticket', k, ?_⟩
    have other : r ≠ k := by
      rintro rfl
      cases here.symm.trans there
      exact alone q₁ w' entry (Progress.queued.inj queued).2
    rw [List.getElem?_set_ne other]
    exact there
  · intro k q₁ t c there queued'
    exact h.tickets k q₁ t c (old k q₁ t c there queued').1 queued'
  · intro k q₁ t c there queued'
    obtain ⟨there, other⟩ := old k q₁ t c there queued'
    exact fate_of_leaves leaves other (h.fates k q₁ t c there queued')

/-- A request that is granted gives up its entry for the grant in its channel. -/
theorem deliver {p : Nat} {w : Waiter} {ch ch' : Handoff Nat}
    (h : QueueBook s requests channels grants) (leaves : LockState.Leaves p w s s')
    (channel : channels[w.channel]? = some ch) (full : ch'.value = some grants.length)
    (sole : ∀ (k l : Nat) (q₁ q₂ : Request) t u, requests[k]? = some q₁ →
      q₁.progress = .queued t w.channel → requests[l]? = some q₂ →
      q₂.progress = .queued u w.channel → k = l) :
    QueueBook s' requests (channels.set w.channel ch') (grants ++ [{ priority := p }]) := by
  refine ⟨?_, ?_, h.tickets, ?_⟩
  · rw [List.length_set, leaves.frame.1]
    exact h.next
  · intro q w' entry
    exact h.entries q w' (leaves.mem_of_mem entry)
  · intro k q t c there queued
    by_cases own : w.channel = c
    · subst own
      -- the entry that leaves is of this request, so the grant is at its priority
      obtain ⟨-, r, here⟩ := h.entries p w leaves.mem
      cases sole r k _ q w.ticket t here rfl there queued
      cases here.symm.trans there
      exact .granted (getElem?_set_of_some channel ch') full List.getElem?_concat_length rfl
    · cases fate_of_leaves leaves own (h.fates k q t c there queued) with
      | waits entry own' => exact .waits entry own'
      | granted channel' full' made priority =>
          exact .granted (by rw [List.getElem?_set_ne own, channel']) full'
            (getElem?_append_of_some made _) priority
      | failed dead channel' empty =>
          exact .failed dead (by rw [List.getElem?_set_ne own, channel']) empty

/-- A kill fails the requests that wait. -/
theorem kill {tasks : List Task} (h : QueueBook s requests channels grants)
    (ends : ChannelEnds s.waiters requests channels tasks) (alive : s.killed = false) :
    QueueBook s.kill requests channels grants := by
  have idle : ∀ p, s.kill.queueAt p = [] := by
    intro p
    by_contra busy
    obtain ⟨w, hw⟩ := List.exists_mem_of_ne_nil _ busy
    have member := LockState.mem_waiters_iff.mpr ⟨p, hw⟩
    rw [LockState.waiters_kill alive] at member
    cases member
  refine ⟨(LockState.nextTicket_kill s).trans h.next, ?_, h.tickets, ?_⟩
  · intro p w entry
    rw [idle p] at entry
    cases entry
  · intro r q ticket c here queued
    cases h.fates r q ticket c here queued with
    | waits entry own =>
        subst own
        have member := LockState.mem_waiters_iff.mpr ⟨_, entry⟩
        obtain ⟨-, -, ch, channel, -⟩ := ends.sender_of_mem member
        exact .failed (LockState.killed_kill s) channel (ends.unsent _ member ch channel)
    | granted channel full made priority => exact .granted channel full made priority
    | failed dead channel empty => exact .failed (LockState.killed_kill s) channel empty

/-! ## What the ends of channels tell -/

section Ends
variable {tasks : List Task}

/-- A channel is awaited by one request at most. -/
theorem sole (ends : ChannelEnds s.waiters requests channels tasks) {k l c : Nat}
    {q₁ q₂ : Request} {t u : UInt64} (hk : requests[k]? = some q₁)
    (queued₁ : q₁.progress = .queued t c) (hl : requests[l]? = some q₂)
    (queued₂ : q₂.progress = .queued u c) : k = l := by
  have awaits₁ : q₁.awaits c = true := by simp [Request.awaits, queued₁]
  have awaits₂ : q₂.awaits c = true := by simp [Request.awaits, queued₂]
  exact eq_of_countP_eq_one (ends.receiver_of_awaits hk awaits₁).1 hk awaits₁ hl awaits₂

/-- The entry that leaves was the only one with its channel. -/
theorem alone {p q : Nat} {w w' : Waiter} (ends : ChannelEnds s.waiters requests channels tasks)
    (leaves : LockState.Leaves p w s s') (entry : w' ∈ s'.queueAt q) : w'.channel ≠ w.channel := by
  intro own
  have one := (ends.sender_of_mem (LockState.mem_waiters_iff.mpr ⟨p, leaves.mem⟩)).1
  have member := LockState.mem_waiters_iff.mpr ⟨q, entry⟩
  have pos : 0 < s'.waiters.countP (Waiter.sendsOn w.channel) :=
    List.countP_pos_iff.mpr ⟨w', member, by simp [Waiter.sendsOn, own]⟩
  rw [leaves.waiters_perm.countP_eq, List.countP_cons_of_pos (by simp [Waiter.sendsOn])] at one
  omega

/-- An entry of a queue has a channel with nothing in it and with both ends there. -/
theorem channel_of_entry (h : QueueBook s requests channels grants)
    (ends : ChannelEnds s.waiters requests channels tasks) {p : Nat} {w : Waiter}
    (entry : w ∈ s.queueAt p) :
    ∃ ch, channels[w.channel]? = some ch ∧ ch.value = none ∧ ch.senderGone = false ∧
      ch.receiverGone = false := by
  have member := LockState.mem_waiters_iff.mpr ⟨p, entry⟩
  obtain ⟨-, -, ch, channel, sender⟩ := ends.sender_of_mem member
  obtain ⟨-, r, here⟩ := h.entries p w entry
  obtain ⟨-, -, ch', channel', receiver⟩ :=
    ends.receiver_of_awaits (c := w.channel) here (by simp [Request.awaits])
  cases channel.symm.trans channel'
  exact ⟨ch, channel, ends.unsent w member ch channel, sender, receiver⟩

/-- Tickets that belong to different channels are different. -/
theorem channel_eq_of_ticket {c d : Nat} (hc : c < 2 ^ 64) (hd : d < 2 ^ 64)
    (same : UInt64.ofNat c = UInt64.ofNat d) : c = d := by
  have toNat := congrArg UInt64.toNat same
  rwa [UInt64.toNat_ofNat', UInt64.toNat_ofNat', Nat.mod_eq_of_lt hc, Nat.mod_eq_of_lt hd] at toNat

end Ends

/-- A verdict that a poll takes off a channel leaves nobody who awaits one there. -/
theorem finish {tasks : List Task} {r c : Nat} {q : Request} {ticket : UInt64}
    {ch ch' : Handoff Nat} (h : QueueBook s requests channels grants)
    (ends : ChannelEnds s.waiters requests channels tasks) (here : requests[r]? = some q)
    (queued : q.progress = .queued ticket c) (channel : channels[c]? = some ch)
    (done : ch.value ≠ none ∨ ch.senderGone = true) :
    QueueBook s (requests.set r { q with progress := .finished }) (channels.set c ch') grants := by
  have finished :
      QueueBook s (requests.set r { q with progress := .finished }) channels grants := by
    apply h.set_request here
    · intro t d e
      cases e
    · rintro t d e p w entry rfl
      cases queued.symm.trans e
      obtain ⟨ch₀, channel₀, empty, sender, -⟩ := h.channel_of_entry ends entry
      cases channel.symm.trans channel₀
      rcases done with full | gone
      · exact full empty
      · cases gone.symm.trans sender
  apply finished.set_unawaited
  intro k q₁ t there awaits
  rcases of_getElem?_set there with ⟨-, rfl⟩ | ⟨apart, there⟩
  · cases awaits
  · exact apart (sole ends here queued there awaits)

/-- A request whose entry cannot be found in its queue has none. -/
theorem apart_of_unqueued {tasks : List Task} {r c : Nat} {q : Request} {ticket : UInt64}
    (h : QueueBook s requests channels grants)
    (ends : ChannelEnds s.waiters requests channels tasks) (here : requests[r]? = some q)
    (queued : q.progress = .queued ticket c) (missing : s.withdraw? q.priority ticket = none)
    {p : Nat} {w : Waiter} (entry : w ∈ s.queueAt p) : w.channel ≠ c := by
  rintro rfl
  obtain ⟨-, k, there⟩ := h.entries p w entry
  cases sole ends here queued there rfl
  cases here.symm.trans there
  cases (Progress.queued.inj queued).1
  exact LockState.withdraw?_eq_none missing w entry rfl

/-- An entry with the ticket of a request has the channel of that request. -/
theorem channel_of_ticket {tasks : List Task} {r c p : Nat} {q : Request} {ticket : UInt64}
    {w : Waiter} (h : QueueBook s requests channels grants)
    (ends : ChannelEnds s.waiters requests channels tasks) (few : channels.length ≤ 2 ^ 64)
    (here : requests[r]? = some q) (queued : q.progress = .queued ticket c)
    (entry : w ∈ s.queueAt p) (same : w.ticket = ticket) : w.channel = c := by
  obtain ⟨ch, channel, -⟩ := h.channel_of_entry ends entry
  obtain ⟨-, -, ch', channel', -⟩ :=
    ends.receiver_of_awaits (c := c) here (by simp [Request.awaits, queued])
  have hw := (List.getElem?_eq_some_iff.mp channel).1
  have hc := (List.getElem?_eq_some_iff.mp channel').1
  apply channel_eq_of_ticket (by omega) (by omega)
  rw [← (h.entries p w entry).1, same]
  exact h.tickets r q ticket c here queued

/-- The turn passes, and the first request in turn leaves its queue. -/
theorem turn {t : Option Nat} (h : QueueBook s requests channels grants) :
    QueueBook { s with rota := { s.rota with turn := t } } requests channels grants :=
  h.congr rfl rfl rfl

/-- The receiver of the first request in turn is there. -/
theorem receiver_of_first {tasks : List Task} {o : Option Nat} {p : Nat} {s₁ s₂ : LockState}
    {w : Waiter} (h : QueueBook s requests channels grants)
    (ends : ChannelEnds s.waiters requests channels tasks) (scan : s.nextInTurn? = (o, s₁))
    (first : s₁.grantFirst? p = some (w, s₂)) :
    ∃ ch, channels[w.channel]? = some ch ∧ ch.receiverGone = false := by
  obtain ⟨t, s₃, rfl, leaves, rfl⟩ := LockState.turn_leaves_take scan first
  obtain ⟨ch, channel, -, -, receiver⟩ := h.turn.channel_of_entry ends leaves.mem
  exact ⟨ch, channel, receiver⟩

/-- Every effect keeps the book, as long as no ticket is given out twice. -/
theorem keeps {x x' : Instance} {L L' : List Nat} {sec : Section} {a : Agenda Task}
    {weights : List Nat} (effect : Effect x L sec x' a L') (rest : List Task)
    (ends : ChannelEnds x.state.waiters x.requests x.channels (sec.tasks ++ rest))
    (account : DemandAccounts weights x.state) (dead : x.owners = 0 → x.state.killed = true)
    (few : x.channels.length ≤ 2 ^ 64)
    (h : QueueBook x.state x.requests x.channels x.grants) :
    QueueBook x'.state x'.requests x'.channels x'.grants := by
  cases effect with
  | refuse => exact h.append_request fun _ _ e => by cases e
  | grantAtOnce =>
      exact ((h.takeSlot _).append_request fun _ _ e => by cases e).append_grant _
  | queue _ room => exact h.enqueue room
  | halt =>
      have queues : x.state.halt.queues = x.state.queues := by simp [LockState.queues]
      exact h.congr queues (LockState.nextTicket_halt _) (LockState.killed_halt _)
  | kill _ alive => exact h.kill ends alive
  | destroy _ alive => exact h.kill ends alive
  | takeVerdict here settled =>
      exact h.set_request here (fun _ _ e => by cases e) fun _ _ e => by cases settled.symm.trans e
  | wait here queued channel => exact h.set_channel channel rfl
  | receive here queued channel full =>
      exact h.finish ends here queued channel (.inl (by simp [full]))
  | fail here queued channel empty sender => exact h.finish ends here queued channel (.inr sender)
  | dropGranted here settled =>
      exact h.set_request here (fun _ _ e => by cases e) fun _ _ e => by cases settled.symm.trans e
  | dropDone here done =>
      refine h.set_request here (fun _ _ e => by cases e) fun _ _ e => ?_
      rcases done with done | done | done <;> cases done.symm.trans e
  | dropUnqueued here queued unqueued =>
      refine h.set_request here (fun _ _ e => by cases e) fun t d e p w entry => ?_
      cases queued.symm.trans e
      rcases unqueued with gone | missing
      · rw [(account.of_killed (dead gone)).1 p] at entry
        cases entry
      · exact h.apart_of_unqueued ends here queued missing entry
  | @withdraw r q ticket c w s here queued _ found =>
      obtain ⟨ticket', leaves⟩ := LockState.leaves_of_withdraw? found
      obtain rfl := h.channel_of_ticket ends few here queued leaves.mem ticket'
      exact h.withdraw leaves here queued (fun _ _ e => by cases e)
        (fun _ _ entry => alone ends leaves entry)
        fun k q₁ t there awaits => (sole ends here queued there awaits).symm
  | release _ here | letGoLast _ here =>
      refine (h.returnSlot _).set_grant here ?_
      rfl
  | cloneLock _ here | letGoClone _ here =>
      refine h.set_grant here ?_
      rfl
  | closeFull channel | closeEmpty channel => exact h.set_channel channel rfl
  | dropReceiver =>
      apply h.set_unawaited
      intro r q t here queued
      obtain ⟨-, absent, -⟩ :=
        ends.receiver_of_awaits here (by simp [Request.awaits, queued]; rfl)
      exact absent (.head _)
  | passStalled _ _ _ scan | passEmpty _ _ _ scan =>
      obtain ⟨t, rfl⟩ := LockState.eq_turn_of_nextInTurn? scan
      exact h.turn
  | grantLost _ _ _ scan first missing =>
      obtain ⟨ch, channel, -⟩ := h.receiver_of_first ends scan first
      cases missing.symm.trans channel
  | grantReturned _ _ _ scan first channel receiver =>
      obtain ⟨ch, channel', receiver'⟩ := h.receiver_of_first ends scan first
      cases channel.symm.trans channel'
      cases receiver.symm.trans receiver'
  | grant _ _ _ scan first channel =>
      obtain ⟨t, s₃, rfl, leaves, rfl⟩ := LockState.turn_leaves_take scan first
      refine (h.turn.deliver leaves channel ?_ ?_).takeSlot _
      · rfl
      · exact fun _ _ _ _ _ _ hk queued₁ hl queued₂ => sole ends hk queued₁ hl queued₂
  | _ => exact h

/-- No grant is taken back for want of a receiver. -/
theorem not_takeBack {x x' : Instance} {L L' : List Nat} {sec : Section} {a : Agenda Task}
    (effect : Effect x L sec x' a L') (rest : List Task)
    (ends : ChannelEnds x.state.waiters x.requests x.channels (sec.tasks ++ rest))
    (h : QueueBook x.state x.requests x.channels x.grants) (g : Nat) :
    .takeBack g ∉ tasksOf a := by
  cases effect with
  | grantReturned _ _ _ scan first channel receiver =>
      obtain ⟨ch, channel', receiver'⟩ := h.receiver_of_first ends scan first
      cases channel.symm.trans channel'
      cases receiver.symm.trans receiver'
  | _ => simp

end QueueBook

/-- Nobody was there to take a grant only if a task takes a grant back. -/
theorem Effect.log_recipientGone {x x' : Instance} {L L' : List Nat} {sec : Section}
    {a : Agenda Task} (effect : Effect x L sec x' a L') (h : .recipientGone ∈ x'.log) :
    .recipientGone ∈ x.log ∨ ∃ g, sec = .task (.takeBack g) := by
  cases effect with
  | letGoMissing lets | letGoClone lets | letGoLast lets =>
      cases lets with
      | returned => exact .inr ⟨_, rfl⟩
      | _ =>
          left
          simpa using h
  | halt =>
      left
      split at h <;> simpa using h
  | _ =>
      left
      simpa using h

/-- Channels are never taken away. -/
theorem Effect.length_channels {x x' : Instance} {L L' : List Nat} {sec : Section}
    {a : Agenda Task} (effect : Effect x L sec x' a L') :
    x.channels.length ≤ x'.channels.length := by
  cases effect <;> simp

namespace World

/-- Channels are never taken away. -/
theorem length_channels_of_run? {ms : List Move} {w v : World} (run : w.run? ms = some v) :
    w.inst.channels.length ≤ v.inst.channels.length := by
  refine run?_induction (P := fun _ v => w.inst.channels.length ≤ v.inst.channels.length)
    (Nat.le_refl _) ?_ run
  intro ms u m u' hu past hstep
  obtain ⟨rest, a, -, -, effect⟩ := step?_effect hstep
  exact Nat.le_trans past effect.length_channels

/-- Entries and requests belong together throughout a run with fewer than `2 ^ 64` queued
requests. -/
theorem queueBook {c : Config} {x : Instance} {ms : List Move} {w : World}
    (fresh : Instance.create c = .ok x) (run : (start x).run? ms = some w)
    (few : w.inst.channels.length ≤ 2 ^ 64) :
    QueueBook w.inst.state w.inst.requests w.inst.channels w.inst.grants := by
  refine run?_induction (P := fun _ v => v.inst.channels.length ≤ 2 ^ 64 →
    QueueBook v.inst.state v.inst.requests v.inst.channels v.inst.grants) ?_ ?_ run few
  · rw [eq_ofConfig_of_create fresh]
    intro _
    refine ⟨rfl, ?_, ?_, ?_⟩
    · intro p w entry
      change w ∈ (LockState.ofConfig c).queueAt p at entry
      rw [LockState.queueAt_ofConfig] at entry
      cases entry
    · intro r q ticket c here
      cases here
    · intro r q ticket c here
      cases here
  · intro ms v m v' hv book hstep few'
    obtain ⟨rest, a, ht, -, effect⟩ := step?_effect hstep
    have ends := channelEnds fresh hv
    have before := Nat.le_trans effect.length_channels few'
    rw [ht] at ends
    exact (book before).keeps effect rest ends (demandAccounts fresh hv)
      (killed_of_dead fresh hv) before

/-- Every grant of the loop finds its recipient. -/
theorem recipient_there {c : Config} {x : Instance} {ms : List Move} {w : World}
    (fresh : Instance.create c = .ok x) (run : (start x).run? ms = some w)
    (few : w.inst.channels.length ≤ 2 ^ 64) :
    (∀ g, .takeBack g ∉ w.tasks) ∧ .recipientGone ∉ w.inst.log := by
  refine run?_induction (P := fun _ v => v.inst.channels.length ≤ 2 ^ 64 →
    (∀ g, .takeBack g ∉ v.tasks) ∧ .recipientGone ∉ v.inst.log) ?_ ?_ run few
  · rw [eq_ofConfig_of_create fresh]
    intro _
    constructor
    · intro g pending
      cases pending
    · intro gone
      cases gone
      rename_i rest
      cases rest
  · intro ms v m v' hv past hstep few'
    obtain ⟨rest, a, ht, ha, effect⟩ := step?_effect hstep
    have ends := channelEnds fresh hv
    have before := Nat.le_trans effect.length_channels few'
    obtain ⟨pending, gone⟩ := past before
    rw [ht] at ends pending
    constructor
    · intro g
      rw [ha, List.mem_append, not_or]
      exact ⟨(queueBook fresh hv before).not_takeBack effect rest ends g,
        fun later => pending g (List.mem_append_right _ later)⟩
    · intro gone'
      rcases effect.log_recipientGone gone' with old | ⟨g, taken⟩
      · exact gone old
      · rw [taken] at pending
        exact pending g (.head _)

end World

end FairShare
