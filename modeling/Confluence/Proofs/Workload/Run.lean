import Confluence.Proofs.Cluster.Moments
import Confluence.Workload.Run

namespace Confluence

/-- The duplicates that were delivered when the cluster settled. -/
def Cluster.Record.duplicates (r : Cluster.Record) : Nat :=
  match r.command, r.reply with
  | .settle, .ran report => report.duplicates
  | _, _ => 0

namespace Workload

/-- What is done about a submission. -/
def commandsFor (batch : Nat) (x : (Nat × Transaction) × Nat) : List Cluster.Command :=
  .submit x.1.1 x.1.2 :: if (x.2 + 1) % max batch 1 = 0 then [.settle] else []

/-- All that a run does to its cluster. -/
def commands (w : WorkloadConfig) : List Cluster.Command :=
  (submissions w).zipIdx.flatMap (commandsFor w.batch) ++
    [.settle, .announceFrontiers, .run, .collectGarbage]

def perform (w : WorkloadConfig) (policy : EscalationPolicy) (ids : IdSupply) :
    Except Fault Chronicle :=
  (Chronicle.new (clusterConfig w policy) .standard ids).performAll (commands w)

/-- What a run keeps track of: how many duplicates arrived, how many updates were collected, and the
cluster. -/
structure Account where
  duplicates : Nat
  collected : Nat
  cluster : Cluster

def account (h : Chronicle) : Account :=
  ⟨(h.past.map (·.duplicates)).sum, (h.past.map (·.removed)).sum, h.cluster⟩

/-- The statistics of a run. -/
def Account.stats (policy : EscalationPolicy) (a : Account) : WorkloadStats where
  policy
  nodes := a.cluster.size
  transactions := a.cluster.stats.transactions
  operations := a.cluster.stats.operations
  liftingFraction := a.cluster.stats.liftingFraction
  proposals := a.cluster.stats.proposals
  failed := a.cluster.stats.failed
  deliveries := a.cluster.network.stats.delivered
  duplicates := a.duplicates
  collected := a.collected
  isConverged := a.cluster.isConverged

theorem account_concat (c c' : Cluster) (past : List Cluster.Record) (r : Cluster.Record) :
    account ⟨c', past ++ [r]⟩ =
      ⟨(account ⟨c, past⟩).duplicates + r.duplicates,
        (account ⟨c, past⟩).collected + r.removed, c'⟩ := by
  unfold account
  simp only [List.map_append, List.sum_append, List.map_singleton, List.sum_singleton]

/-- A submission and what is done about it. -/
theorem submit_eq (batch : Nat) (h : Chronicle) (origin : Nat) (x : Transaction) (done : Nat) :
    (submit batch h.cluster origin x done).map (fun r =>
        ⟨(account h).duplicates + r.1, (account h).collected, r.2⟩) =
      (h.performAll (commandsFor batch ((origin, x), done))).map account := by
  unfold submit commandsFor
  rw [Chronicle.performAll_cons]
  simp only [Cluster.Command.perform]
  cases h.cluster.submit origin x with
  | error e => rfl
  | ok r =>
    obtain ⟨s, c⟩ := r
    have htaken := account_concat h.cluster c h.past ⟨h.cluster, .submit origin x, .submitted s⟩
    simp only [map_ok, ok_bind]
    by_cases hb : (done + 1) % max batch 1 = 0
    · simp only [if_pos hb, Chronicle.performAll_cons, Cluster.Command.perform]
      cases c.settle with
      | error e => rfl
      | ok r =>
        have hsettled := account_concat c r.2
          (h.past ++ [⟨h.cluster, .submit origin x, .submitted s⟩]) ⟨c, .settle, .ran r.1⟩
        rw [htaken] at hsettled
        exact (congrArg Except.ok hsettled).symm
    · simp only [if_neg hb]
      exact (congrArg Except.ok htaken).symm

theorem submitAll_eq (batch : Nat) (xs : List ((Nat × Transaction) × Nat)) (h : Chronicle) :
    (xs.foldlM (fun (r : Nat × Cluster) x => (submit batch r.2 x.1.1 x.1.2 x.2).map fun more =>
        (r.1 + more.1, more.2)) ((account h).duplicates, h.cluster)).map (fun r =>
          ⟨r.1, (account h).collected, r.2⟩) =
      (h.performAll (xs.flatMap (commandsFor batch))).map account := by
  induction xs generalizing h with
  | nil => rfl
  | cons a xs ih =>
    obtain ⟨⟨origin, x⟩, done⟩ := a
    rw [List.foldlM_cons, List.flatMap_cons, Chronicle.performAll_append]
    rcases map_eq_map (submit_eq batch h origin x done) with ⟨e, hs, hp⟩ | ⟨r, h', hs, hp, he⟩
    · simp only [hs, hp]
      rfl
    · have hd : (account h).duplicates + r.1 = (account h').duplicates := by rw [← he]
      have hcollected : (account h).collected = (account h').collected := by rw [← he]
      have hc : r.2 = h'.cluster := congrArg Account.cluster he
      simp only [hs, hp, map_ok, ok_bind]
      rw [hd, hcollected, hc]
      exact ih h'

theorem account_finish (h : Chronicle) (settled announced ran : Cluster) (report report' : RunReport)
    (last : Nat × Cluster) :
    account ⟨last.2, h.past ++ [⟨h.cluster, .settle, .ran report⟩] ++
        [⟨settled, .announceFrontiers, .done⟩] ++ [⟨announced, .run, .ran report'⟩] ++
        [⟨ran, .collectGarbage, .collected last.1⟩]⟩ =
      ⟨(account h).duplicates + report.duplicates, (account h).collected + last.1, last.2⟩ := by
  rw [account_concat ran, account_concat announced, account_concat settled,
    account_concat h.cluster]
  rfl

/-- A run is the chronicle of its commands, read as statistics. -/
theorem run_eq (w : WorkloadConfig) (policy : EscalationPolicy) (ids : IdSupply) :
    run w policy ids =
      (perform w policy ids).map fun h => ((account h).stats policy, h.cluster.ids) := by
  unfold run perform commands
  rw [Chronicle.performAll_append]
  have hall := submitAll_eq w.batch (submissions w).zipIdx
    (Chronicle.new (clusterConfig w policy) .standard ids)
  change (submitAll w.batch (.new (clusterConfig w policy) .standard ids) (submissions w)).map _ =
    _ at hall
  rcases map_eq_map hall with ⟨e, hs, hp⟩ | ⟨r, h, hs, hp, he⟩
  · simp only [hs, hp]
    rfl
  · have hd : r.1 = (account h).duplicates := congrArg Account.duplicates he
    have hcollected : 0 = (account h).collected := congrArg Account.collected he
    have hc : r.2 = h.cluster := congrArg Account.cluster he
    simp only [hs, hp, ok_bind, hd, hc, Chronicle.performAll_cons, Cluster.Command.perform]
    cases h.cluster.settle with
    | error e => rfl
    | ok settled =>
      simp only [map_ok, ok_bind]
      cases settled.2.announceFrontiers with
      | error e => rfl
      | ok announced =>
        simp only [map_ok, ok_bind]
        cases announced.runUntilQuiescent with
        | error e => rfl
        | ok ran =>
          have ha := account_finish h settled.2 announced ran.2 settled.1 ran.1
            ran.2.collectGarbage
          rw [← hcollected, Nat.zero_add] at ha
          exact congrArg (fun a : Account => Except.ok (a.stats policy, a.cluster.ids)) ha.symm

end Workload
end Confluence
