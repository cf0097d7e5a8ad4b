import Mathlib.Data.List.Induction
import Confluence.Proofs.Ordered
import Confluence.State

namespace Confluence

def Payload.delta? : Payload → Option Int64
  | .delta amount => some amount
  | _ => none

def Payload.candidate? : Payload → Option Int64
  | .maximum candidate => some candidate
  | _ => none

def Payload.member? : Payload → Option String
  | .insert member => some member
  | _ => none

def Payload.value? : Payload → Option String
  | .assign value => some value
  | _ => none

theorem Payload.mem_filterMap_member? {member : String} {ps : List Payload} :
    member ∈ ps.filterMap Payload.member? ↔ .insert member ∈ ps := by
  rw [List.mem_filterMap]
  constructor
  · rintro ⟨p, hp, hm⟩
    cases p <;> cases hm
    exact hp
  · intro h
    exact ⟨_, h, rfl⟩

inductive Effect
  | write (p : Payload)
  | stamp (id : UpdateId)
  deriving DecidableEq

namespace Effect

def payload? : Effect → Option Payload
  | .write p => some p
  | .stamp _ => none

def stamp? : Effect → Option UpdateId
  | .write _ => none
  | .stamp id => some id

def payloads (es : List Effect) : List Payload := es.filterMap payload?

def stamps (es : List Effect) : List UpdateId := es.filterMap stamp?

theorem payloads_map_write (ps : List Payload) : payloads (ps.map .write) = ps := by
  unfold payloads
  rw [List.filterMap_map]
  exact List.filterMap_some

end Effect

/-- The sum of some deltas on top of a counter, unset if there is nothing to add. -/
def addDeltas (counter : Option Int64) (deltas : List Int64) : Option Int64 :=
  deltas.foldl (fun c d => some (c.getD 0 + d)) counter

/-- The last of some values, or the present one if there are none. -/
def lastValue (register : Option String) (values : List String) : Option String :=
  values.foldl (fun _ v => some v) register

namespace Maximum

def raise (m : Maximum) (candidates : List Int64) : Maximum :=
  candidates.foldl (fun m c => m.join (.of c)) m

/-- The register holds the largest of some candidates, and nothing if there are none. -/
def IsLargest (m : Maximum) (candidates : List Int64) : Prop :=
  match m.value with
  | none => candidates = []
  | some v => v ∈ candidates ∧ ∀ c ∈ candidates, c ≤ v

theorem IsLargest.join {m : Maximum} {l : List Int64} (h : m.IsLargest l) (c : Int64) :
    (m.join (.of c)).IsLargest (l ++ [c]) := by
  obtain ⟨v⟩ := m
  cases v with
  | none =>
    change l = [] at h
    subst h
    exact ⟨List.mem_singleton_self c, by simp⟩
  | some v =>
    obtain ⟨hv, hl⟩ := h
    by_cases hc : v ≤ c
    · have he : Maximum.join ⟨some v⟩ (.of c) = ⟨some c⟩ := if_pos hc
      rw [he]
      show c ∈ l ++ [c] ∧ ∀ x ∈ l ++ [c], x ≤ c
      refine ⟨by simp, ?_⟩
      intro x hx
      rcases List.mem_append.1 hx with hx | hx
      · exact Int64.le_trans (hl x hx) hc
      · rw [List.mem_singleton.1 hx]
        exact Int64.le_refl c
    · have he : Maximum.join ⟨some v⟩ (.of c) = ⟨some v⟩ := if_neg hc
      rw [he]
      show v ∈ l ++ [c] ∧ ∀ x ∈ l ++ [c], x ≤ v
      refine ⟨List.mem_append_left _ hv, ?_⟩
      intro x hx
      rcases List.mem_append.1 hx with hx | hx
      · exact hl x hx
      · rw [List.mem_singleton.1 hx]
        exact Int64.le_of_lt (Int64.not_le.1 hc)

theorem IsLargest.congr {m : Maximum} {k l : List Int64} (h : m.IsLargest k)
    (hl : ∀ c, c ∈ k ↔ c ∈ l) : m.IsLargest l := by
  obtain ⟨v⟩ := m
  cases v with
  | none =>
    change k = [] at h
    subst h
    exact List.eq_nil_iff_forall_not_mem.2 fun c hc => by simpa using (hl c).2 hc
  | some v => exact ⟨(hl v).1 h.1, fun c hc => h.2 c ((hl c).2 hc)⟩

theorem IsLargest.raise {m : Maximum} {l : List Int64} (h : m.IsLargest l) (cs : List Int64) :
    (m.raise cs).IsLargest (l ++ cs) := by
  induction cs generalizing m l with
  | nil =>
    rw [List.append_nil]
    exact h
  | cons c cs ih =>
    rw [List.append_cons]
    exact ih (h.join c)

/-- Two registers with the largest of the same candidates are the same. -/
theorem IsLargest.unique {m n : Maximum} {k l : List Int64} (hm : m.IsLargest k)
    (hn : n.IsLargest l) (h : ∀ c, c ∈ k ↔ c ∈ l) : m = n := by
  obtain ⟨v⟩ := m
  obtain ⟨w⟩ := n
  cases v with
  | none =>
    change k = [] at hm
    subst hm
    cases w with
    | none => rfl
    | some w => cases (h w).2 hn.1
  | some v =>
    cases w with
    | none =>
      change l = [] at hn
      subst hn
      cases (h v).1 hm.1
    | some w =>
      have hvw := hn.2 v ((h v).1 hm.1)
      have hwv := hm.2 w ((h w).2 hn.1)
      rw [Int64.le_antisymm hvw hwv]

theorem isLargest_value (m : Maximum) : m.IsLargest m.value.toList := by
  obtain ⟨v⟩ := m
  cases v with
  | none => rfl
  | some v => exact ⟨List.mem_singleton_self v, by simp⟩

end Maximum

namespace KeyState

def perform (s : KeyState) : Effect → KeyState
  | .write p => s.apply p
  | .stamp id => s.stamp id

def performAll (s : KeyState) (es : List Effect) : KeyState := es.foldl perform s

theorem performAll_eq (s : KeyState) (es : List Effect) :
    s.performAll es =
      { counter := addDeltas s.counter ((Effect.payloads es).filterMap Payload.delta?)
        maximum := s.maximum.raise ((Effect.payloads es).filterMap Payload.candidate?)
        members := ((Effect.payloads es).filterMap Payload.member?).foldl .insert s.members
        register := lastValue s.register ((Effect.payloads es).filterMap Payload.value?)
        applied := (Effect.stamps es).foldl .insert s.applied } := by
  induction es generalizing s with
  | nil => rfl
  | cons e es ih =>
    change (s.perform e).performAll es = _
    rw [ih]
    cases e with
    | write p => cases p <;> rfl
    | stamp id => rfl

theorem performAll_append (s : KeyState) (es fs : List Effect) :
    s.performAll (es ++ fs) = (s.performAll es).performAll fs := List.foldl_append

theorem performAll_writes (s : KeyState) (ps : List Payload) :
    s.performAll (ps.map .write) = ps.foldl apply s :=
  List.foldl_map

theorem addDeltas_some (a : Int64) (l : List Int64) : addDeltas (some a) l = some (a + l.sum) := by
  induction l generalizing a with
  | nil => exact congrArg some (Int64.add_zero a).symm
  | cons d l ih =>
    rw [List.sum_cons, ← Int64.add_assoc]
    exact ih (a + d)

theorem addDeltas_none (l : List Int64) :
    addDeltas none l = if l = [] then none else some l.sum := by
  cases l with
  | nil => rfl
  | cons d l =>
    rw [if_neg (List.cons_ne_nil d l), List.sum_cons]
    apply (addDeltas_some (0 + d) l).trans
    rw [Int64.zero_add]

theorem lastValue_none (values : List String) : lastValue none values = values.getLast? := by
  induction values using List.reverseRecOn with
  | nil => rfl
  | append_singleton values v _ =>
    unfold lastValue
    rw [List.foldl_append, List.getLast?_concat]
    rfl

theorem addDeltas_perm {c : Option Int64} {k l : List Int64} (h : k.Perm l) :
    addDeltas c k = addDeltas c l := by
  refine h.foldl_eq' ?_ c
  intro x _ y _ z
  rw [Option.getD_some, Option.getD_some, Int64.add_assoc, Int64.add_comm x, ← Int64.add_assoc]

theorem raise_eq_of_mem {m : Maximum} {k l : List Int64} (h : ∀ c, c ∈ k ↔ c ∈ l) :
    m.raise k = m.raise l :=
  (m.isLargest_value.raise k).unique (m.isLargest_value.raise l) (by simp [h])

theorem foldl_insert_eq_of_mem {α : Type} [Ord α] [Std.TransOrd α] [Std.LawfulEqOrd α]
    {s : OrderedSet α} {k l : List α} (h : ∀ x, x ∈ k ↔ x ∈ l) :
    k.foldl .insert s = l.foldl .insert s := by
  apply OrderedSet.ext_contains
  intro x
  rw [Bool.eq_iff_iff, OrderedSet.contains_foldl_insert, OrderedSet.contains_foldl_insert, h]

/-- What some payloads, in order, make of a key that nothing had written: the sum of the deltas, the
largest candidate, the members that were inserted and the value that was assigned last. -/
structure Reflects (s : KeyState) (ps : List Payload) : Prop where
  counter : s.counter =
    if ps.filterMap Payload.delta? = [] then none else some (ps.filterMap Payload.delta?).sum
  maximum : s.maximum.IsLargest (ps.filterMap Payload.candidate?)
  members (member : String) : s.members.contains member = true ↔ .insert member ∈ ps
  register : s.register = (ps.filterMap Payload.value?).getLast?

theorem reflects_performAll (es : List Effect) :
    (empty.performAll es).Reflects (Effect.payloads es) := by
  rw [performAll_eq]
  refine ⟨addDeltas_none _, (show Maximum.empty.IsLargest [] from rfl).raise _, fun member => ?_,
    lastValue_none _⟩
  rw [OrderedSet.contains_foldl_insert, Payload.mem_filterMap_member?]
  exact or_iff_left fun h => by cases h

theorem performAll_perm {s : KeyState} {es fs : List Effect} (h : es.Perm fs)
    (hv : (Effect.payloads es).filterMap Payload.value? =
      (Effect.payloads fs).filterMap Payload.value?) : s.performAll es = s.performAll fs := by
  have hp : (Effect.payloads es).Perm (Effect.payloads fs) := h.filterMap _
  have hs : (Effect.stamps es).Perm (Effect.stamps fs) := h.filterMap _
  rw [performAll_eq, performAll_eq, hv, addDeltas_perm (hp.filterMap _),
    raise_eq_of_mem fun c => (hp.filterMap Payload.candidate?).mem_iff,
    foldl_insert_eq_of_mem fun m => (hp.filterMap Payload.member?).mem_iff,
    foldl_insert_eq_of_mem fun id => hs.mem_iff]

end KeyState
end Confluence
