import Confluence.Proofs.Cluster.Addressing

namespace Confluence.Cluster
variable {c c' : Cluster} {e : Envelope Message}

theorem step_some {outcome : ReceiveOutcome} (hn : c.network.Numbered)
    (h : c.step = .ok (some outcome, c')) :
    c'.names = c.names ∧ ∃ e, ¬ c.Astray e ∧ c.network.transit.Perm (e :: c'.network.transit) := by
  cases step_eq_ok h with
  | @arrive e network i n hd hi hnode =>
    have hid : n.id = e.target := indexOf?_eq_some hi hnode
    have hmem : e.target ∈ c.names := hid ▸ List.mem_map_of_mem (List.mem_of_getElem? hnode)
    exact ⟨map_id_set hnode (n.receive_rest e.message).1, e, not_not.2 hmem,
      (Network.nextDelivery_transit hn hd).2⟩

theorem step_none (hs : c.network.Sound) (h : c.step = .ok (none, c')) :
    (c'.network.Exhausted ∧ c.network.transit.Perm c'.network.transit) ∨
      ∃ e, c.Astray e ∧ c.network.transit.Perm (e :: c'.network.transit) := by
  cases step_eq_ok h with
  | nothing hd => exact .inl ⟨hs.exhausted hd, (Network.nextDelivery_transit hs.numbered hd).2⟩
  | @stray e network hd hi =>
    refine .inr ⟨e, fun hmem => ?_, (Network.nextDelivery_transit hs.numbered hd).2⟩
    obtain ⟨n, hnode, hid⟩ := List.mem_map.1 hmem
    exact indexOf?_eq_none hi n hnode hid

/-- How deliveries end that have taken some messages: the budget is spent, nothing can be delivered any
more, or another message was taken, which is for no node. -/
inductive Ends (c c' : Cluster) (budget : Nat) (taken : List (Envelope Message)) : Prop
  | spent : taken.length = budget → c.network.transit.Perm (taken ++ c'.network.transit) →
    Ends c c' budget taken
  | exhausted : c'.network.Exhausted → c.network.transit.Perm (taken ++ c'.network.transit) →
    Ends c c' budget taken
  | astray (e : Envelope Message) : c.Astray e →
    c.network.transit.Perm (taken ++ e :: c'.network.transit) → Ends c c' budget taken

theorem Ends.cons {d : Cluster} {budget : Nat} {taken : List (Envelope Message)}
    (hnames : d.names = c.names) (hp : c.network.transit.Perm (e :: d.network.transit))
    (h : d.Ends c' budget taken) : c.Ends c' (budget + 1) (e :: taken) := by
  cases h with
  | spent hlength hrest => exact .spent (congrArg (· + 1) hlength) (hp.trans (hrest.cons e))
  | exhausted hend hrest => exact .exhausted hend (hp.trans (hrest.cons e))
  | astray x hx hrest =>
    rw [Astray, hnames] at hx
    exact .astray x hx (hp.trans (hrest.cons e))

theorem deliver_ends {budget steps duplicates : Nat} {counts : Nat × Nat}
    (hs : c.network.Sound) (h : c.deliver budget steps duplicates = .ok (counts.1, counts.2, c')) :
    ∃ taken, counts.1 = steps + taken.length ∧ (∀ e ∈ taken, ¬ c.Astray e) ∧
      c.Ends c' budget taken := by
  induction budget generalizing c steps duplicates with
  | zero =>
    cases h
    exact ⟨[], rfl, by simp, .spent rfl (.refl _)⟩
  | succ budget ih =>
    rw [deliver] at h
    obtain ⟨⟨outcome, d⟩, hd, h⟩ := bind_eq_ok h
    cases outcome with
    | none =>
      cases h
      refine ⟨[], rfl, by simp, ?_⟩
      rcases step_none hs hd with ⟨hend, hp⟩ | ⟨e, he, hp⟩
      · exact .exhausted hend hp
      · exact .astray e he hp
    | some outcome =>
      obtain ⟨hnames, e, he, hp⟩ := step_some hs.numbered hd
      obtain ⟨taken, hcount, htaken, hends⟩ := ih (hs.reaches (step_reaches hd)) h
      refine ⟨e :: taken, ?_, ?_, hends.cons hnames hp⟩
      · rw [hcount, List.length_cons]
        omega
      · intro x hx
        rcases List.mem_cons.1 hx with rfl | hx
        · exact he
        · have hx := htaken x hx
          rwa [Astray, hnames] at hx

theorem Ends.of_addressed {budget : Nat} {taken : List (Envelope Message)}
    (h : c.Ends c' budget taken) (ha : ∀ e ∈ c.network.transit, ¬ c.Astray e) :
    taken.length = budget ∨ c'.network.Exhausted := by
  cases h with
  | spent hlength _ => exact .inl hlength
  | exhausted hend _ => exact .inr hend
  | astray e he hp => exact absurd he (ha e (hp.mem_iff.2 (by simp)))

/-- However a cluster was used, a run delivers messages to nodes, each of them once, until its budget is
spent, nothing can be delivered any more, or it has taken a message that is for no node. Where no such
message is on its way it ends in one of the first two ways, and there is none unless one was sent behind
the back of the cluster. The run is reported as quiescent if nothing is scheduled and nothing is parked. -/
theorem run_ends_of_accessAll {config : ClusterConfig} {classifier : Classifier} {ids : IdSupply}
    {accesses : List Access} {report : RunReport}
    (ha : (new config classifier ids).accessAll accesses = .ok c)
    (h : c.runUntilQuiescent = .ok (report, c')) :
    (∃ taken, taken.length = report.steps ∧ (∀ e ∈ taken, ¬ c.Astray e) ∧
        c.Ends c' c.config.maxSteps taken) ∧
      ((∀ e ∈ c.network.transit, ¬ c.Astray e) →
        report.steps = c.config.maxSteps ∨ c'.network.Exhausted) ∧
      ((∀ access ∈ accesses, access.StaysWithin (new config classifier ids).names) →
        ∀ e ∈ c.network.transit, ¬ c.Astray e) ∧
      (report.isQuiescent = true ↔ c'.network.queue = .empty ∧ c'.network.parked = []) := by
  obtain ⟨⟨steps, duplicates, d⟩, hd, he⟩ := map_eq_ok h
  obtain ⟨taken, hcount, htaken, hends⟩ :=
    @deliver_ends _ _ _ _ _ (steps, duplicates) (sound_network ha) hd
  rw [Nat.zero_add] at hcount
  cases he
  refine ⟨⟨taken, hcount.symm, htaken, hends⟩, fun haddressed => ?_, fun hwithin e he => ?_,
    Network.isQuiescent_iff⟩
  · exact (hends.of_addressed haddressed).imp_left hcount.trans
  · exact not_not.2 (((tends_new config classifier ids).accessAll hwithin ha).addressed e he)

/-- All messages are for nodes, one of which is cut off for good: the run delivers the others, and is not
quiescent. -/
theorem run_ends_of_accessAll_parked :
    ∃ c c' report, (new .default .standard (.ofStream Uuid.ofNat)).accessAll
        [.command (.cutOff [2] none), .command (.submit 0 [.increment "score" 2]),
          .network (.send "node-1" "node-0" (.join "x"))] = .ok c ∧
      c.runUntilQuiescent = .ok (report, c') ∧ report.steps = 2 ∧ c'.network.Exhausted ∧
      ¬ report.isQuiescent ∧ c'.network.parked ≠ [] := by
  obtain ⟨c, ha, hc⟩ := @exists_of_endsWith _ _ ((new .default .standard
      (.ofStream Uuid.ofNat)).accessAll
        [.command (.cutOff [2] none), .command (.submit 0 [.increment "score" 2]),
          .network (.send "node-1" "node-0" (.join "x"))])
    (fun c => c.config.maxSteps = 100000 ∧ endsWith c.runUntilQuiescent fun r =>
      r.1.steps = 2 ∧ ¬ r.1.isQuiescent)
    (by decide +kernel)
  obtain ⟨hbudget, hrun⟩ := of_decide_eq_true hc
  obtain ⟨⟨report, c'⟩, hrun, hend⟩ := exists_of_endsWith hrun
  obtain ⟨hsteps, hrest⟩ := of_decide_eq_true hend
  have hsteps : report.steps = 2 := hsteps
  obtain ⟨_, hends, hwithin, hquiescent⟩ := run_ends_of_accessAll ha hrun
  have haddressed := hwithin (by
    intro access hmem
    simp only [List.mem_cons, List.not_mem_nil, or_false] at hmem
    rcases hmem with rfl | rfl | rfl
    · trivial
    · trivial
    · exact (by decide +kernel :
        "node-0" ∈ (new .default .standard (.ofStream Uuid.ofNat)).names))
  have hexhausted : c'.network.Exhausted := by
    refine (hends haddressed).resolve_left fun hspent => ?_
    rw [hsteps, hbudget] at hspent
    cases hspent
  refine ⟨c, c', report, ha, hrun, hsteps, hexhausted, hrest, fun hparked => ?_⟩
  exact hrest (hquiescent.2 ⟨hexhausted.queue, hparked⟩)

/-- The message that comes first is for no node: the run ends at once, although another message is
scheduled and could be delivered. -/
theorem not_exhausted_of_stray :
    ∃ c c' report, (new .default .standard (.ofStream Uuid.ofNat)).accessAll
        [.network (.send "node-0" "ghost" (.join "q")),
          .network (.send "node-0" "node-1" (.join "q"))] = .ok c ∧
      c.runUntilQuiescent = .ok (report, c') ∧ report.steps = 0 ∧ c.config.maxSteps = 100000 ∧
      c'.network.queue.values = [⟨"node-0", "node-1", .join "q"⟩] ∧ ¬ c'.network.Exhausted := by
  obtain ⟨c, ha, hc⟩ := @exists_of_endsWith _ _ ((new .default .standard
      (.ofStream Uuid.ofNat)).accessAll
        [.network (.send "node-0" "ghost" (.join "q")),
          .network (.send "node-0" "node-1" (.join "q"))])
    (fun c => c.config.maxSteps = 100000 ∧ endsWith c.runUntilQuiescent fun r =>
      r.1.steps = 0 ∧ r.2.network.queue.values = [⟨"node-0", "node-1", .join "q"⟩])
    (by decide +kernel)
  obtain ⟨hbudget, hrun⟩ := of_decide_eq_true hc
  obtain ⟨⟨report, c'⟩, hrun, hend⟩ := exists_of_endsWith hrun
  obtain ⟨hsteps, hqueue⟩ := of_decide_eq_true hend
  refine ⟨c, c', report, ha, hrun, hsteps, hbudget, hqueue, fun hexhausted => ?_⟩
  have hqueue : c'.network.queue.values = [⟨"node-0", "node-1", .join "q"⟩] := hqueue
  rw [hexhausted.queue] at hqueue
  cases hqueue

end Confluence.Cluster
