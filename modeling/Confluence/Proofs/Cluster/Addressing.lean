import Confluence.Proofs.Cluster.Simulation
import Confluence.Proofs.Cluster.Usage

namespace Confluence

namespace World
variable {w w' : World} {n : Node} {e : Envelope Message} {m : Message} {leader : NodeId}
  {t new : List (Envelope Message)}

def names (w : World) : List NodeId := w.nodes.map Node.id

/-- Every message on its way is for a node. -/
def Addressed (w : World) : Prop := ∀ e ∈ w.transit, e.target ∈ w.names

theorem names_prefix_of_set {i : Nat} {n' : Node} (hi : w.nodes[i]? = some n) (hid : n'.id = n.id) :
    w.names <+: (w.nodes.set i n').map Node.id := by
  rw [Cluster.map_id_set hi hid]
  exact List.prefix_rfl

theorem Step.names (hs : Step w w') : w.names <+: w'.names := by
  cases hs with
  | @deliver i n e t hi _ _ => exact names_prefix_of_set hi (n.receive_rest e.message).1
  | submit hi hsub _ => exact names_prefix_of_set hi (Node.submit_eq_ok hsub).kept.1
  | complete _ hi hc _ => exact names_prefix_of_set hi (Node.complete_rest hc).1
  | collect =>
    have hid : (w.nodes.map fun n => n.collectGarbage.2).map Node.id = w.names := List.map_map
    exact hid ▸ List.prefix_rfl
  | join _ =>
    have happend : (w.nodes ++ [w.newcomer]).map Node.id = w.names ++ [w.newcomer.id] :=
      List.map_append
    exact ⟨[w.newcomer.id], happend.symm⟩
  | _ => exact List.prefix_rfl

theorem mem_names_of_toOthers (h : e ∈ w.toOthers n m) : e.target ∈ w.names := by
  obtain ⟨x, hx, rfl⟩ := List.mem_map.1 h
  exact (List.mem_filter.1 hx).1

theorem mem_names_of_welcome (h : e ∈ w.welcome leader n) : e.target ∈ w.names ∨ e.target = n.id := by
  rcases List.mem_append.1 h with h | h
  · rcases List.mem_append.1 h with h | h
    · exact .inl (mem_names_of_toOthers h)
    · obtain ⟨_, _, rfl⟩ := List.mem_map.1 h
      exact .inr rfl
  · obtain ⟨_, _, rfl⟩ := List.mem_map.1 h
    exact .inr rfl

theorem Addressed.of_carries (h : w.Addressed) (ht : Carries t new w.transit)
    (hnew : ∀ e ∈ new, e.target ∈ w.names) : ∀ e ∈ t, e.target ∈ w.names := by
  intro e he
  rcases (ht e).1 he with he | he
  · exact hnew e he
  · exact h e he

theorem Addressed.step (h : w.Addressed) (hs : Step w w') : w'.Addressed := by
  have hnames := hs.names.subset
  suffices ht : ∀ e ∈ w'.transit, e.target ∈ w.names ∨ e.target ∈ w'.names from
    fun e he => (ht e he).elim (fun hm => hnames hm) id
  cases hs with
  | send hnew ht =>
    refine fun e he => .inl (h.of_carries ht (fun x hx => ?_) e he)
    obtain ⟨n, hn, hid⟩ := (hnew x hx).1
    exact List.mem_map.2 ⟨n, hn, hid⟩
  | discard _ ht => exact fun e he => .inl (h e ((ht e).2 (.inr he)))
  | deliver _ _ ht => exact fun e he => .inl (h e ((ht e).2 (.inr he)))
  | submit _ _ ht =>
    refine fun e he => .inl (h.of_carries ht (fun x hx => ?_) e he)
    obtain ⟨u, _, hx⟩ := List.mem_flatMap.1 hx
    exact mem_names_of_toOthers hx
  | @complete q outcome _ n _ _ _ _ _ _ ht =>
    refine fun e he => .inl (h.of_carries ht (fun x hx => ?_) e he)
    cases outcome with
    | ok d => exact mem_names_of_toOthers hx
    | error reason => cases hx
  | join ht =>
    intro e he
    rcases (ht e).1 he with he | he
    · rcases mem_names_of_welcome he with hm | hm
      · exact .inl hm
      · right
        rw [hm]
        exact List.mem_map_of_mem (List.mem_append_right _ (List.mem_singleton_self _))
    · exact .inl (h e he)
  | _ => exact fun e he => .inl (h e he)

theorem Addressed.steps (h : w.Addressed) (hs : Steps w w') :
    w'.Addressed ∧ w.names <+: w'.names := by
  induction hs with
  | refl => exact ⟨h, List.prefix_rfl⟩
  | tail _ hstep ih => exact ⟨ih.1.step hstep, ih.2.trans hstep.names⟩

end World

namespace Cluster
variable {c c' : Cluster} {access : Access} {accesses : List Access}

def names (c : Cluster) : List NodeId := c.nodes.map Node.id

/-- The message is for no node of the cluster. -/
def Astray (c : Cluster) (e : Envelope Message) : Prop := e.target ∉ c.names

instance (c : Cluster) (e : Envelope Message) : Decidable (c.Astray e) :=
  inferInstanceAs (Decidable (e.target ∉ c.names))

/-- No more is sent behind the back of a cluster than messages for some of the nodes. -/
def Access.StaysWithin (names : List NodeId) : Access → Prop
  | .network (.send _ target _) => target ∈ names
  | _ => True

/-- All messages are for nodes, and some nodes are known to be there. -/
structure Tends (c : Cluster) (names : List NodeId) : Prop where
  sound : c.Sound
  addressed : ∀ e ∈ c.network.transit, e.target ∈ c.names
  names : names ⊆ c.names

variable {names : List NodeId}

theorem Command.perform_tends {command : Command} {reply : Reply} (h : c.Tends names)
    (hp : command.perform c = .ok (reply, c')) : c'.Tends names := by
  obtain ⟨hs, hsteps⟩ := Chronicle.record_steps h.sound hp .empty
  obtain ⟨ha, hnames⟩ := World.Addressed.steps (w := c.world [] .empty) h.addressed hsteps
  exact ⟨hs, ha, List.Subset.trans h.names hnames.subset⟩

theorem broadcast_tends {i : Nat} {m : Message} (h : c.Tends names)
    (hb : c.broadcast i m = .ok c') : c'.Tends names := by
  obtain ⟨n, hi, _⟩ := bind_eq_ok hb
  have hsends := broadcast_sends h.sound.numbered (node_eq_ok hi) hb
  have hnames : c'.names = c.names := by rw [Cluster.names, hsends.nodes, Cluster.names]
  refine ⟨hsends.sound h.sound, fun e he => ?_, hnames ▸ h.names⟩
  rw [hnames]
  rcases (hsends.transit e).1 he with he | he
  · exact World.mem_names_of_toOthers (w := c.world [] .empty) he
  · exact h.addressed e he

theorem network_tends {call : Network.Call Message} {delivered : Option (Envelope Message)}
    {network : Network Message} (h : c.Tends names) (ha : (Access.network call).StaysWithin names)
    (hp : call.perform c.network = .ok (delivered, network)) : { c with network }.Tends names := by
  have hb := Network.Call.perform_balanced h.sound.numbered hp
  refine ⟨⟨hb.numbered, h.sound.sequencer⟩, fun e he => ?_, h.names⟩
  have hmem := hb.transit.mem_iff.2 (List.mem_append_right _ he)
  rw [List.mem_append] at hmem
  rcases hmem with hmem | hmem
  · have hsent : (⟨c.network, call, delivered, network⟩ : Network.Record Message).sent? = some e := by
      rcases List.mem_append.1 hmem with hmem | hmem
      · exact Option.mem_toList.1 hmem
      · rw [Network.Record.copied?] at hmem
        split at hmem
        · exact Option.mem_toList.1 hmem
        · cases hmem
    cases call with
    | send source target m =>
      cases hsent
      exact h.names ha
    | _ => cases hsent
  · exact h.addressed e hmem

theorem Access.perform_tends (h : c.Tends names) (ha : access.StaysWithin names)
    (hp : access.perform c = .ok c') : c'.Tends names := by
  cases access with
  | command x =>
    obtain ⟨⟨reply, d⟩, hd, rfl⟩ := map_eq_ok hp
    exact Command.perform_tends h hd
  | broadcast source m => exact broadcast_tends h hp
  | network call =>
    obtain ⟨⟨delivered, network⟩, hd, rfl⟩ := map_eq_ok hp
    exact network_tends h ha hd
  | sequencer call =>
    obtain ⟨_, hd, rfl⟩ := map_eq_ok hp
    exact ⟨⟨h.sound.numbered, (Sequencer.Call.perform_valid h.sound.sequencer hd).sound⟩,
      h.addressed, h.names⟩

theorem tends_new (config : ClusterConfig) (classifier : Classifier) (ids : IdSupply) :
    (new config classifier ids).Tends (new config classifier ids).names where
  sound := Chronicle.sound_new config classifier ids
  addressed e he := by cases he
  names := List.Subset.refl _

theorem Tends.accessAll (h : c.Tends names) (ha : ∀ access ∈ accesses, access.StaysWithin names)
    (hp : c.accessAll accesses = .ok c') : c'.Tends names := by
  induction accesses generalizing c with
  | nil =>
    cases hp
    exact h
  | cons access accesses ih =>
    obtain ⟨mid, hm, hp⟩ := bind_eq_ok hp
    exact ih (Access.perform_tends h (ha access List.mem_cons_self) hm)
      (fun x hx => ha x (List.mem_cons_of_mem _ hx)) hp

end Cluster
end Confluence
