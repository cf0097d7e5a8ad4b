import Confluence.Proofs.Cluster.Policies

namespace Confluence

namespace Cluster
variable {c c' : Cluster} {command : Command} {reply : Reply}

/-- What a command submits, and where. -/
def Command.request? : Command → Option (Nat × Transaction)
  | submit i x => some (i, x)
  | _ => none

def Record.request? (r : Record) : Option (Nat × Transaction) :=
  match r.command, r.reply with
  | .submit i x, .submitted _ => some (i, x)
  | _, _ => none

theorem Record.request?_snd (r : Record) :
    r.request?.map (·.2) = r.submitted?.map (·.transaction) := by
  obtain ⟨before, command, reply⟩ := r
  cases command with
  | submit i x => cases reply <;> rfl
  | _ => rfl

theorem Record.request?_of_perform {r : Record} (h : r.command.perform r.before = .ok (r.reply, c)) :
    r.request? = r.command.request? := by
  obtain ⟨before, command, reply⟩ := r
  cases command with
  | submit i x =>
    obtain ⟨⟨s, d⟩, hd, he⟩ := map_eq_ok h
    cases he
    rfl
  | _ => rfl

theorem resolve_length {results : List (ProposalId × CommitResult)} (hc : c.Sound)
    (h : c.resolve = .ok (results, c')) : c'.nodes.length = c.nodes.length := by
  unfold resolve at h
  obtain ⟨⟨outcomes, d⟩, hd, h⟩ := bind_eq_ok h
  have hds := (@drive_steps c d .empty outcomes hc hd).1
  rw [(completeAll_keeps hds h).length]
  unfold drive at hd
  obtain ⟨⟨results, sequencer⟩, _, hd⟩ := bind_eq_ok hd
  obtain ⟨d, hcatch, hd⟩ := bind_eq_ok hd
  cases hd
  rw [(catchUp_sends (by exact hc.numbered) hcatch).nodes]
  rfl

theorem Command.perform_length (hc : c.Sound) (h : command.perform c = .ok (reply, c'))
    (hjoin : command ≠ .addNode) : c'.nodes.length = c.nodes.length := by
  by_cases hresolve : command = .resolve
  · subst hresolve
    obtain ⟨⟨results, d⟩, hd, he⟩ := map_eq_ok h
    cases he
    exact resolve_length hc hd
  by_cases hsettle : command = .settle
  · subst hsettle
    obtain ⟨⟨report, d⟩, hd, he⟩ := map_eq_ok h
    cases he
    unfold Cluster.settle at hd
    obtain ⟨⟨results, e⟩, hd, hrun⟩ := bind_eq_ok hd
    exact (run_keeps hrun).length.trans (resolve_length hc hd)
  by_cases hsubmit : ∃ i x, command = .submit i x
  · obtain ⟨i, x, rfl⟩ := hsubmit
    obtain ⟨⟨s, d⟩, hd, he⟩ := map_eq_ok h
    cases he
    obtain ⟨n, n', ids, _, _, d, hsends, rfl⟩ := submit_eq_ok hc.numbered hd
    exact hsends.keeps.length.trans List.length_set
  · exact (perform_keeps hc h (fun i x he => hsubmit ⟨i, x, he⟩) hresolve hsettle hjoin).length

end Cluster

namespace Chronicle
variable {config : ClusterConfig} {classifier : Classifier} {ids : IdSupply}
  {commands : List Cluster.Command} {h h' mid : Chronicle} {i : Nat} {x : Transaction}
  {s : Submission}

/-- What was submitted, and at which nodes. -/
def requests (h : Chronicle) : List (Nat × Transaction) := h.past.filterMap (·.request?)

/-- All operations that were submitted. -/
def operations (h : Chronicle) : List Operation := h.submissions.flatMap (·.transaction)

/-- The chronicle has gone on from a moment with a submission. -/
def Submits (h mid : Chronicle) (i : Nat) (x : Transaction) (s : Submission) : Prop :=
  mid.past ++ [⟨mid.cluster, .submit i x, .submitted s⟩] <+: h.past

theorem commands_performAll (hp : h.performAll commands = .ok h') :
    h'.past.map (·.command) = h.past.map (·.command) ++ commands := by
  induction commands generalizing h with
  | nil =>
    cases hp
    exact (List.append_nil _).symm
  | cons command commands ih =>
    obtain ⟨mid, hm, hp⟩ := bind_eq_ok hp
    obtain ⟨reply, _, hpast⟩ := perform_eq_ok hm
    rw [ih hp, hpast, List.map_append, List.append_assoc]
    rfl

theorem length_performAll (hc : h.cluster.Sound) (hp : h.performAll commands = .ok h')
    (hjoin : .addNode ∉ commands) : h'.cluster.size = h.cluster.size := by
  induction commands generalizing h with
  | nil =>
    cases hp
    rfl
  | cons command commands ih =>
    obtain ⟨mid, hm, hp⟩ := bind_eq_ok hp
    obtain ⟨reply, hr, _⟩ := perform_eq_ok hm
    obtain ⟨hne, hjoin⟩ := not_or.1 (mt List.mem_cons.2 hjoin)
    exact (ih (perform_steps hc hm).1 hp hjoin).trans
      (Cluster.Command.perform_length hc hr (Ne.symm hne))

theorem exists_prefix_of_mem {r : Cluster.Record} (hr : r ∈ h.past) :
    ∃ past, past ++ [r] <+: h.past := by
  obtain ⟨past, later, hpast⟩ := List.append_of_mem hr
  refine ⟨past, later, ?_⟩
  rw [hpast, List.append_assoc]
  rfl

theorem exists_performAll {past : List Cluster.Record} {r : Cluster.Record}
    (hp : (new config classifier ids).performAll commands = .ok h)
    (hr : past ++ [r] <+: h.past) :
    ∃ before, before ++ [r.command] <+: commands ∧
      (new config classifier ids).performAll before = .ok ⟨r.before, past⟩ ∧
      ∃ c, r.command.perform r.before = .ok (r.reply, c) := by
  induction commands using List.reverseRecOn generalizing h with
  | nil =>
    cases hp
    cases List.append_eq_nil_iff.1 (List.prefix_nil.1 hr) |>.2
  | append_singleton commands command ih =>
    obtain ⟨last, hl, hperform⟩ := performAll_concat hp
    obtain ⟨reply, hreply, hpast⟩ := perform_eq_ok hperform
    rw [hpast] at hr
    rcases List.prefix_concat_iff.1 hr with he | hr
    · obtain ⟨rfl, hlast⟩ := List.append_inj' he rfl
      obtain rfl := List.singleton_inj.1 hlast
      exact ⟨commands, List.prefix_rfl, hl, h.cluster, hreply⟩
    · obtain ⟨before, hb, hrest⟩ := ih hl hr
      exact ⟨before, hb.trans (List.prefix_append _ _), hrest⟩

theorem submissions_of_past (hm : mid.past <+: h.past) : mid.submissions <+: h.submissions :=
  hm.filterMap _

theorem nodup_ids_of_past (hm : mid.past <+: h.past) (hids : h.ids.Nodup) : mid.ids.Nodup := by
  obtain ⟨rest, hr⟩ := submissions_of_past hm
  unfold Chronicle.ids at hids ⊢
  rw [← hr, List.flatMap_append] at hids
  exact hids.of_append_left

theorem Submits.past (hs : h.Submits mid i x s) : mid.past <+: h.past :=
  (List.prefix_append _ _).trans hs

theorem Submits.mem_submissions (hs : h.Submits mid i x s) : ⟨x, s⟩ ∈ h.submissions := by
  apply List.mem_filterMap.2
  exact ⟨_, hs.subset (List.mem_append_right _ (List.mem_singleton_self _)), rfl⟩

theorem Submits.exists_node (hs : h.Submits mid i x s)
    (hp : (new config classifier ids).performAll commands = .ok h) (hids : h.ids.Nodup) :
    ∃ before, before ++ [.submit i x] <+: commands ∧
      (new config classifier ids).performAll before = .ok mid ∧
      mid.Run config.node.escalation classifier ∧
      ∃ n n' rest, mid.cluster.nodes[i]? = some n ∧
        n.submit x mid.cluster.ids = .ok (s, n', rest) := by
  obtain ⟨before, hb, hmid, c, hc⟩ := exists_performAll hp hs
  have hrun := run hmid (nodup_ids_of_past hs.past hids)
  obtain ⟨⟨s', d⟩, hd, he⟩ := map_eq_ok hc
  cases he
  obtain ⟨n, n', rest, hi, hsub, _⟩ := Cluster.submit_eq_ok hrun.sound.numbered hd
  exact ⟨before, hb, hmid, hrun, n, n', rest, hi, hsub⟩

theorem exists_submits {y : Submitted} (hy : y ∈ h.submissions) :
    ∃ mid i, h.Submits mid i y.transaction y.submission := by
  obtain ⟨r, hr, hy⟩ := List.mem_filterMap.1 hy
  obtain ⟨past, hpre⟩ := exists_prefix_of_mem hr
  obtain ⟨before, command, reply⟩ := r
  unfold Cluster.Record.submitted? at hy
  split at hy
  · next i x s hcommand hreply =>
    cases hy
    obtain rfl : command = .submit i x := hcommand
    obtain rfl : reply = .submitted s := hreply
    exact ⟨⟨before, past⟩, i, hpre⟩
  · cases hy

theorem requests_performAll (hp : (new config classifier ids).performAll commands = .ok h) :
    h.requests = commands.filterMap (·.request?) := by
  have hc : h.past.map (·.command) = commands := commands_performAll hp
  rw [← hc, List.filterMap_map]
  apply List.filterMap_congr
  intro r hr
  obtain ⟨past, hpre⟩ := exists_prefix_of_mem hr
  obtain ⟨_, _, _, c, hc⟩ := exists_performAll hp hpre
  exact Cluster.Record.request?_of_perform hc

theorem operations_eq (h : Chronicle) : h.operations = h.requests.flatMap (·.2) := by
  have hmap : h.submissions.map (·.transaction) = h.requests.map (·.2) := by
    unfold submissions requests
    rw [List.map_filterMap, List.map_filterMap]
    exact List.filterMap_congr fun r _ => r.request?_snd.symm
  unfold operations
  rw [List.flatMap_def, hmap, ← List.flatMap_def]

end Chronicle
end Confluence
