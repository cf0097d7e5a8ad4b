import Confluence.Network.Basic

namespace Confluence.Network
variable {μ : Type}

def earlier (least : Option UInt64) (tick : UInt64) : Option UInt64 :=
  match least with
  | some t => some (if t ≤ tick then t else tick)
  | none => some tick

def nextHeal? (net : Network μ) : Option UInt64 :=
  (net.partitions.filterMap (·.healsAt)).foldl earlier none

/-- Moves the clock to a tick, unless it is there already. -/
def reach (net : Network μ) (tick : UInt64) : Network μ :=
  { net with now := if net.now ≤ tick then tick else net.now }

inductive Event (μ : Type)
  | heal (tick : UInt64)
  | arrive (due : Due) (e : Envelope μ) (rest : OrderedMap Due (Envelope μ))
  | nothing

/-- The next event: partitions heal before messages of the same tick arrive. -/
def nextEvent (net : Network μ) : Event μ :=
  match net.queue.popFirst?, net.nextHeal? with
  | some ((due, e), rest), some tick => if tick ≤ due.tick then .heal tick else .arrive due e rest
  | some ((due, e), rest), none => .arrive due e rest
  | none, some tick => .heal tick
  | none, none => .nothing

def timedPartitions (net : Network μ) : Nat := net.partitions.countP (·.healsAt.isSome)

theorem mem_of_nextHeal? {net : Network μ} {tick : UInt64} (h : net.nextHeal? = some tick) :
    ∃ p ∈ net.partitions, p.healsAt = some tick := by
  have key : ∀ (l : List UInt64) (least : Option UInt64),
      l.foldl earlier least = some tick → tick ∈ l ∨ least = some tick := by
    intro l
    induction l with
    | nil => exact fun least h => .inr h
    | cons t l ih =>
      intro least h
      rcases ih _ h with h | h
      · exact .inl (List.mem_cons_of_mem _ h)
      · unfold earlier at h
        split at h
        · split at h
          · exact .inr h
          · cases h
            exact .inl List.mem_cons_self
        · cases h
          exact .inl List.mem_cons_self
  rcases key _ _ h with h | h
  · obtain ⟨p, hp, h⟩ := List.mem_filterMap.1 h
    exact ⟨p, hp, h⟩
  · cases h

def messages (net : Network μ) : Nat := net.queue.size + net.parked.length

theorem schedule_eq_ok {net net' : Network μ} {e : Envelope μ} (h : net.schedule e = .ok net') :
    net'.partitions = net.partitions ∧ net'.messages ≤ net.messages + 1 := by
  unfold schedule at h
  cases hd : net.drawDue (net.linkDelay e.source e.target) with
  | error f =>
    rw [hd] at h
    cases h
  | ok d =>
    rw [hd] at h
    cases h
    refine ⟨rfl, ?_⟩
    have := net.queue.size_insert_le ⟨d.1, net.nextSequence⟩ e
    unfold messages
    dsimp only
    omega

theorem release_eq_ok {net net' : Network μ} {e : Envelope μ} (h : net.release e = .ok net') :
    net'.partitions = net.partitions ∧ net'.messages ≤ net.messages + 1 := by
  unfold release at h
  split at h
  · cases h
    refine ⟨rfl, ?_⟩
    unfold messages
    rw [List.length_append]
    exact Nat.le_refl _
  · exact schedule_eq_ok h

theorem releaseAll_eq_ok {net net' : Network μ} (h : net.releaseAll = .ok net') :
    net'.partitions = net.partitions ∧ net'.messages ≤ net.messages := by
  have key : ∀ (l : List (Envelope μ)) (a b : Network μ), l.foldlM release a = .ok b →
      b.partitions = a.partitions ∧ b.messages ≤ a.messages + l.length := by
    intro l
    induction l with
    | nil =>
      intro a b h
      cases h
      exact ⟨rfl, Nat.le_refl _⟩
    | cons e l ih =>
      intro a b h
      rw [List.foldlM_cons] at h
      cases hr : a.release e with
      | error f =>
        rw [hr] at h
        cases h
      | ok c =>
        rw [hr] at h
        obtain ⟨hp, hm⟩ := release_eq_ok hr
        obtain ⟨hp', hm'⟩ := ih c b h
        refine ⟨hp'.trans hp, ?_⟩
        rw [List.length_cons]
        omega
  obtain ⟨hp, hm⟩ := key net.parked { net with parked := [] } net' h
  refine ⟨hp, Nat.le_trans hm ?_⟩
  unfold messages
  exact Nat.le_refl _

theorem messages_healExpired {net net' : Network μ} (h : net.healExpired = .ok net') :
    net'.messages ≤ net.messages := by
  unfold healExpired at h
  dsimp only at h
  split at h
  · cases h
    exact Nat.le_refl _
  · exact (releaseAll_eq_ok h).2

theorem timedPartitions_healExpired {net net' : Network μ} {p : Partition}
    (hp : p ∈ net.partitions) (ht : p.healsAt.isSome) (hn : p.isHealedBy net.now)
    (h : net.healExpired = .ok net') : net'.timedPartitions < net.timedPartitions := by
  unfold healExpired at h
  dsimp only at h
  have hlt : (net.partitions.filter fun p => !p.isHealedBy net.now).length
      < net.partitions.length :=
    List.length_filter_lt_length_iff_exists.2 ⟨p, hp, by simp [hn]⟩
  rw [if_neg (Nat.ne_of_lt hlt)] at h
  have he := (releaseAll_eq_ok h).1
  dsimp only at he
  unfold timedPartitions
  rw [he]
  clear he h hlt
  generalize net.partitions = l at hp
  induction l with
  | nil => cases hp
  | cons q l ih =>
    have hle : (l.filter fun p => !p.isHealedBy net.now).countP (·.healsAt.isSome)
        ≤ l.countP (·.healsAt.isSome) := List.filter_sublist.countP_le
    rcases List.mem_cons.1 hp with rfl | hp
    · rw [List.filter_cons_of_neg (by simp [hn])]
      refine Nat.lt_of_le_of_lt hle ?_
      rw [List.countP_cons, if_pos ht]
      exact Nat.lt_succ_self _
    · have := ih hp
      rw [List.filter_cons, List.countP_cons]
      split
      · rw [List.countP_cons]
        omega
      · omega

theorem nextEvent_heal {net : Network μ} {tick : UInt64} (h : net.nextEvent = .heal tick) :
    net.nextHeal? = some tick := by
  unfold nextEvent at h
  split at h
  · split at h
    · cases h
      assumption
    · cases h
  · cases h
  · cases h
    assumption
  · cases h

theorem nextEvent_arrive {net : Network μ} {due : Due} {e : Envelope μ}
    {rest : OrderedMap Due (Envelope μ)} (h : net.nextEvent = .arrive due e rest) :
    net.queue.popFirst? = some ((due, e), rest) := by
  unfold nextEvent at h
  split at h
  · split at h
    · cases h
    · cases h
      assumption
  · cases h
    assumption
  · cases h
  · cases h

/-- A bound on the number of events before a message is delivered: each healing partition may put
all messages back into the queue. -/
def pendingEvents (net : Network μ) : Nat :=
  net.timedPartitions * (net.messages + 1) + net.queue.size

theorem pendingEvents_heal {net healed : Network μ} {tick : UInt64}
    (he : net.nextEvent = .heal tick) (h : (net.reach tick).healExpired = .ok healed) :
    healed.pendingEvents < net.pendingEvents := by
  have hm : healed.messages ≤ (net.reach tick).messages := messages_healExpired h
  change healed.messages ≤ net.messages at hm
  have ht : healed.timedPartitions < net.timedPartitions := by
    obtain ⟨p, hp, ht⟩ := mem_of_nextHeal? (nextEvent_heal he)
    refine @timedPartitions_healExpired _ (net.reach tick) _ _ hp (by rw [ht]; rfl) ?_ h
    unfold Partition.isHealedBy
    rw [ht]
    unfold reach
    dsimp only
    split
    · exact decide_eq_true (UInt64.le_refl _)
    · next h => exact decide_eq_true (UInt64.le_of_lt (UInt64.not_le.1 h))
  have hq : healed.queue.size ≤ healed.messages := Nat.le_add_right ..
  have h1 := Nat.mul_le_mul_right (net.messages + 1) ht
  have h2 := Nat.mul_le_mul_left healed.timedPartitions (Nat.add_le_add_right hm 1)
  rw [Nat.succ_mul] at h1
  unfold pendingEvents
  omega

theorem pendingEvents_park {net : Network μ} {due : Due} {e : Envelope μ}
    {rest : OrderedMap Due (Envelope μ)} (he : net.nextEvent = .arrive due e rest) :
    ({ net.reach due.tick with queue := rest }.park e).pendingEvents < net.pendingEvents := by
  have hs := OrderedMap.size_popFirst? (nextEvent_arrive he)
  have hm : ({ net.reach due.tick with queue := rest }.park e).messages = net.messages := by
    change rest.size + (net.parked ++ [e]).length = net.queue.size + net.parked.length
    rw [List.length_append, List.length_singleton]
    omega
  unfold pendingEvents
  rw [hm]
  change net.timedPartitions * (net.messages + 1) + rest.size < _
  omega

/-- Delivers the next message, if any can be delivered. Time moves on to the tick at which it is
due; partitions heal on the way, and messages over cut links are parked. -/
def nextDelivery (net : Network μ) : Except Fault (Option (Envelope μ) × Network μ) :=
  match he : net.nextEvent with
  | .heal tick =>
    match h : (net.reach tick).healExpired with
    | .error fault => .error fault
    | .ok healed =>
      have : healed.pendingEvents < net.pendingEvents := pendingEvents_heal he h
      healed.nextDelivery
  | .arrive due e rest =>
    have := pendingEvents_park he
    let net := { net.reach due.tick with queue := rest }
    if net.isCut e.source e.target then (net.park e).nextDelivery
    else
      .ok (some e, { net with
        stats := { net.stats with delivered := net.stats.delivered + 1 } })
  | .nothing => .ok (none, net)
termination_by net.pendingEvents

/-- Delivers up to `budget` messages; lists them with the ticks at which they arrived. -/
def deliverUpTo (net : Network μ) (budget : Nat) :
    Except Fault (List (UInt64 × Envelope μ) × Network μ) :=
  match budget with
  | 0 => .ok ([], net)
  | budget + 1 => do
    match ← net.nextDelivery with
    | (none, net) => pure ([], net)
    | (some e, net) =>
      let (rest, final) ← net.deliverUpTo budget
      pure ((net.now, e) :: rest, final)

/-- Delivers all messages that can be delivered. Every delivery takes one message away, so of one
attempt more than there are messages the last finds none. -/
def deliverAll (net : Network μ) : Except Fault (List (UInt64 × Envelope μ) × Network μ) :=
  net.deliverUpTo (net.messages + 1)

end Confluence.Network
