import Confluence.Proofs.State.Absorption

namespace Confluence

namespace Classifier

/-- A call to register a kind. -/
structure Call where
  kind : Kind
  spec : KindSpec

/-- Makes a call and tells why if it is refused; then the table stays as it is. -/
def Call.perform (c : Classifier) (call : Call) : Option ClassifierError × Classifier :=
  match c.register call.kind call.spec.shape call.spec.signature with
  | .ok c' => (none, c')
  | .error e => (some e, c)

/-- A call that was made, why it was refused if it was, and the table before and after it. -/
structure Record where
  before : Classifier
  call : Call
  refusal : Option ClassifierError
  after : Classifier

/-- Makes a call and records it. -/
def Call.record (c : Classifier) (call : Call) : Record :=
  ⟨c, call, (call.perform c).1, (call.perform c).2⟩

/-- The call was accepted as a registration of the kind. -/
def Record.registers (r : Record) (kind : Kind) : Bool := r.call.kind = kind && r.refusal.isNone

/-- A table and all calls that were made on it, the first one first. -/
structure Transcript where
  classifier : Classifier
  past : List Record

namespace Transcript

def new (c : Classifier) : Transcript := ⟨c, []⟩

def perform (t : Transcript) (call : Call) : Transcript :=
  let r := call.record t.classifier
  ⟨r.after, t.past ++ [r]⟩

def performAll (t : Transcript) (calls : List Call) : Transcript := calls.foldl perform t

/-- The first accepted registration of a kind. -/
def first? (t : Transcript) (kind : Kind) : Option KindSpec :=
  (t.past.find? fun r => r.registers kind).map (·.call.spec)

end Transcript

/-- All that a call does to the table. -/
structure Record.Valid (r : Record) : Prop where
  /-- A call is refused if the shape does not allow the signature or the kind has another entry. -/
  refused : r.refusal ≠ none ↔ r.call.spec.signature.admissibleFor r.call.spec.shape = false ∨
    ∃ existing, r.before.lookup r.call.kind = some existing ∧ existing ≠ r.call.spec
  unchanged : r.refusal ≠ none → r.after = r.before
  lookup : ∀ kind, r.after.lookup kind =
    (r.before.lookup kind).or (if r.registers kind then some r.call.spec else none)

theorem Call.perform_cases (c : Classifier) (call : Call) :
    (call.spec.signature.admissibleFor call.spec.shape = true ∧ c.lookup call.kind = none ∧
        call.perform c = (none, ⟨c.table.insert call.kind call.spec⟩)) ∨
      (call.spec.signature.admissibleFor call.spec.shape = true ∧
        c.lookup call.kind = some call.spec ∧ call.perform c = (none, c)) ∨
      ∃ e, call.perform c = (some e, c) ∧
        (call.spec.signature.admissibleFor call.spec.shape = false ∨
          ∃ existing, c.lookup call.kind = some existing ∧ existing ≠ call.spec) := by
  obtain ⟨kind, shape, signature⟩ := call
  unfold perform register
  by_cases ha : signature.admissibleFor shape = true
  · cases hk : c.lookup kind with
    | none => simp [ha]
    | some existing =>
      by_cases he : existing = ⟨shape, signature⟩
      · simp [ha, he]
      · simp [ha, he]
  · simp [ha]

theorem Call.record_valid (c : Classifier) (call : Call) : (call.record c).Valid := by
  unfold record
  rcases call.perform_cases c with ⟨ha, hk, hp⟩ | ⟨ha, hk, hp⟩ | ⟨e, hp, hr⟩
  · rw [hp]
    constructor
    · simp [ha, hk]
    · simp
    · intro kind
      change (c.table.insert call.kind call.spec).find? kind = _
      rw [OrderedMap.find?_insert]
      by_cases h : kind = call.kind
      · subst h
        simp [hk, Record.registers]
      · simp [h, Ne.symm h, Record.registers, lookup]
  · rw [hp]
    constructor
    · simp [ha, hk]
    · simp
    · intro kind
      by_cases h : kind = call.kind
      · subst h
        simp [hk]
      · simp [Record.registers, Ne.symm h]
  · rw [hp]
    constructor
    · simp [hr]
    · simp
    · simp [Record.registers]

theorem Call.record_registered {c : Classifier} (h : c.Registered) (call : Call) :
    (call.record c).after.Registered := by
  unfold record perform
  split
  · next c' hr => exact h.register hr
  · exact h

namespace Transcript
variable {start : Classifier} {t : Transcript}

/-- Every call so far is accounted for, and the table has the first accepted entries. -/
structure Valid (t : Transcript) (start : Classifier) : Prop where
  registered : t.classifier.Registered
  records : ∀ r ∈ t.past, r.Valid
  lookup : ∀ kind, t.classifier.lookup kind = (start.lookup kind).or (t.first? kind)

theorem valid_new (h : start.Registered) : (new start).Valid start where
  registered := h
  records := by simp [new]
  lookup kind := by simp [new, first?]

theorem Valid.perform (h : t.Valid start) (call : Call) : (t.perform call).Valid start := by
  have hr := call.record_valid t.classifier
  constructor
  · exact call.record_registered h.registered
  · intro r hm
    rcases List.mem_append.1 hm with hm | hm
    · exact h.records r hm
    · exact List.mem_singleton.1 hm ▸ hr
  · intro kind
    have hfirst : (t.perform call).first? kind = (t.first? kind).or
        (if (call.record t.classifier).registers kind then some call.spec else none) := by
      unfold first? Transcript.perform
      rw [List.find?_append, Option.map_or, List.find?_singleton]
      split <;> rfl
    rw [hfirst, ← Option.or_assoc, ← h.lookup kind]
    exact hr.lookup kind

theorem Valid.performAll (h : t.Valid start) (calls : List Call) :
    (t.performAll calls).Valid start := by
  induction calls generalizing t with
  | nil => exact h
  | cons call calls ih => exact ih (h.perform call)

end Transcript

variable {c : Classifier} {ops ops' : List Operation}

theorem ne_generic_of_pairwise {a b : Operation} (h : (a :: b :: ops).Pairwise fun a b =>
      (c.classifyOperation a).commutesWith (c.classifyOperation b) = true) :
    ∀ op ∈ a :: b :: ops, c.classifyOperation op ≠ .generic := by
  have hfirst := (List.pairwise_cons.1 h).1
  intro op hop hg
  rcases List.mem_cons.1 hop with rfl | hop
  · have hc := hfirst b List.mem_cons_self
    simp [hg, Signature.commutesWith, Signature.isLiftable] at hc
  · have hc := hfirst op hop
    cases ha : c.classifyOperation a <;>
      simp [ha, hg, Signature.commutesWith, Signature.isLiftable] at hc

theorem Registered.foldl_apply_perm (h : c.Registered) (hperm : ops.Perm ops')
    (hops : ops.Pairwise fun a b =>
      (c.classifyOperation a).commutesWith (c.classifyOperation b) = true) (s : KeyState) :
    (ops.map (·.payload)).foldl .apply s = (ops'.map (·.payload)).foldl .apply s := by
  apply KeyState.foldl_apply_perm (hperm.map _)
  match ops, hops with
  | [], _ => rw [List.nil_perm.1 hperm]
  | [op], _ => rw [List.singleton_perm.1 hperm]
  | a :: b :: rest, hops =>
    have hnone (l : List Operation) (hl : ∀ op ∈ l, op ∈ a :: b :: rest) :
        (l.map (·.payload)).filterMap Payload.value? = [] := by
      apply List.filterMap_eq_nil_iff.2
      intro p hp
      obtain ⟨op, hop, rfl⟩ := List.mem_map.1 hp
      exact h.value?_eq_none (ne_generic_of_pairwise hops op (hl op hop))
    rw [hnone _ fun _ => id, hnone _ fun _ => hperm.mem_iff.2]

theorem Registered.apply_again (h : c.Registered) {op : Operation}
    (hop : (c.classifyOperation op).isIdempotent = true) (s : KeyState) (later : List Payload) :
    (later.foldl .apply (s.apply op.payload)).apply op.payload =
      later.foldl .apply (s.apply op.payload) := by
  have hj : c.classifyOperation op = .semilattice := of_decide_eq_true hop
  have hg : c.classifyOperation op ≠ .generic := by simp [hj]
  have hn := h.eq_naturalFor hg
  rw [hj] at hn
  exact KeyState.apply_foldl_of_apply later (h.value?_eq_none hg) (KeyState.apply_apply s hn.symm)

namespace Transcript
variable {start : Classifier}

/-- Classification is sound for the merge rules. Whatever calls were made on the empty or the
standard table, accepted or refused: operations on one key whose signatures commute pairwise make
the same state in every order; an idempotent one applied again, after whatever others, changes
nothing; and an assignment is never liftable. The table has the first accepted entry of every kind,
with a signature that its shape allows, and a refused call has left it as it was. -/
theorem sound_of_performAll (hstart : start = .empty ∨ start = .standard) (calls : List Call) :
    let t := (new start).performAll calls
    let c := t.classifier
    (∀ ops ops' : List Operation, ops.Perm ops' →
      (ops.Pairwise fun a b =>
        (c.classifyOperation a).commutesWith (c.classifyOperation b) = true) →
      ∀ s : KeyState, (ops.map (·.payload)).foldl .apply s = (ops'.map (·.payload)).foldl .apply s) ∧
      (∀ op, (c.classifyOperation op).isIdempotent = true → ∀ (s : KeyState) (later : List Payload),
        (later.foldl .apply (s.apply op.payload)).apply op.payload =
          later.foldl .apply (s.apply op.payload)) ∧
      (∀ op value, op.payload = .assign value → (c.classifyOperation op).isLiftable = false) ∧
      (∀ kind, c.lookup kind = (start.lookup kind).or (t.first? kind)) ∧
      (∀ kind spec, c.lookup kind = some spec →
        spec.signature = .generic ∨ spec.signature = .naturalFor spec.shape) ∧
      ∀ r ∈ t.past, r.Valid := by
  intro t c
  have hregistered : start.Registered := by
    rcases hstart with rfl | rfl
    · exact .empty
    · exact .standard
  have ht : t.Valid start := (valid_new hregistered).performAll calls
  have hc : c.Registered := ht.registered
  refine ⟨fun _ _ hperm hops => hc.foldl_apply_perm hperm hops, fun _ => hc.apply_again, ?_,
    ht.lookup, ?_, ht.records⟩
  · intro op value hv
    by_contra hl
    have hg : c.classifyOperation op ≠ .generic := by simpa [Signature.isLiftable] using hl
    have hnone := hc.value?_eq_none hg
    rw [hv] at hnone
    cases hnone
  · intro kind spec hk
    simpa [Signature.admissibleFor] using hc.admissible hk

/-- The standard table keeps its entries, a new kind is registered once, and a register refuses to be
algebraic. -/
theorem sound_of_performAll_refused :
    let t := (new .standard).performAll
      [⟨"increment", ⟨.counter, .generic⟩⟩, ⟨"label", ⟨.set, .semilattice⟩⟩,
        ⟨"label", ⟨.set, .generic⟩⟩, ⟨"rename", ⟨.register, .semilattice⟩⟩,
        ⟨"label", ⟨.set, .semilattice⟩⟩]
    let ops : List Operation :=
      [.maximum "score" 3, ⟨"score", "label", .insert "new"⟩, .maximum "score" 5]
    t.past.map (·.refusal.isSome) = [true, false, true, true, false] ∧
      t.first? "label" = some ⟨.set, .semilattice⟩ ∧
      t.classifier.lookup "label" = (Classifier.standard.lookup "label").or (t.first? "label") ∧
      ∀ s : KeyState, (ops.map (·.payload)).foldl .apply s =
        (ops.reverse.map (·.payload)).foldl .apply s := by
  intro t ops
  obtain ⟨hperm, _, _, hlookup, _⟩ := sound_of_performAll (.inr rfl)
    [⟨"increment", ⟨.counter, .generic⟩⟩, ⟨"label", ⟨.set, .semilattice⟩⟩,
      ⟨"label", ⟨.set, .generic⟩⟩, ⟨"rename", ⟨.register, .semilattice⟩⟩,
      ⟨"label", ⟨.set, .semilattice⟩⟩]
  exact ⟨by decide +kernel, by decide +kernel, hlookup "label",
    hperm ops ops.reverse (List.reverse_perm ops).symm (by decide +kernel)⟩

end Transcript

end Classifier
end Confluence
