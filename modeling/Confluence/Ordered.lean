namespace Confluence

/-- A finite map whose entries are listed by strictly increasing key, so two maps with the same entries
are the same value and what is printed or hashed from a map depends on its contents alone. -/
structure OrderedMap (α β : Type) [Ord α] where
  entries : List (α × β)
  sorted : entries.Pairwise fun x y => compare x.1 y.1 = .lt

namespace OrderedMap
variable {α β γ : Type} [Ord α]

@[ext] theorem ext {m n : OrderedMap α β} (h : m.entries = n.entries) : m = n := by
  cases m
  cases n
  cases h
  rfl

instance [DecidableEq α] [DecidableEq β] : DecidableEq (OrderedMap α β) := fun m n =>
  decidable_of_iff (m.entries = n.entries) ⟨ext, congrArg entries⟩

def empty : OrderedMap α β := ⟨[], .nil⟩

instance : Inhabited (OrderedMap α β) := ⟨empty⟩

def keys (m : OrderedMap α β) : List α := m.entries.map (·.1)

def values (m : OrderedMap α β) : List β := m.entries.map (·.2)

def size (m : OrderedMap α β) : Nat := m.entries.length

def isEmpty (m : OrderedMap α β) : Bool := m.entries.isEmpty

def find? (m : OrderedMap α β) (k : α) : Option β :=
  (m.entries.find? fun e => compare k e.1 == .eq).map (·.2)

def contains (m : OrderedMap α β) (k : α) : Bool := (m.find? k).isSome

def alterEntries (k : α) (f : Option β → β) : List (α × β) → List (α × β)
  | [] => [(k, f none)]
  | (k', v) :: rest =>
    match compare k k' with
    | .lt => (k, f none) :: (k', v) :: rest
    | .eq => (k', f (some v)) :: rest
    | .gt => (k', v) :: alterEntries k f rest

theorem mem_alterEntries {k : α} {f : Option β → β} {l : List (α × β)} {e : α × β}
    (h : e ∈ alterEntries k f l) : e.1 = k ∨ ∃ e' ∈ l, e.1 = e'.1 := by
  induction l with
  | nil =>
    rw [alterEntries, List.mem_singleton] at h
    exact .inl (by rw [h])
  | cons x rest ih =>
    obtain ⟨k', v⟩ := x
    rw [alterEntries] at h
    split at h
    · rcases List.mem_cons.1 h with h | h
      · exact .inl (by rw [h])
      · exact .inr ⟨e, h, rfl⟩
    · rcases List.mem_cons.1 h with h | h
      · exact .inr ⟨(k', v), List.mem_cons_self, by rw [h]⟩
      · exact .inr ⟨e, List.mem_cons_of_mem _ h, rfl⟩
    · rcases List.mem_cons.1 h with h | h
      · exact .inr ⟨(k', v), List.mem_cons_self, by rw [h]⟩
      · rcases ih h with h | ⟨e', he', h⟩
        · exact .inl h
        · exact .inr ⟨e', List.mem_cons_of_mem _ he', h⟩

variable [Std.TransOrd α]

theorem sorted_alterEntries {k : α} {f : Option β → β} {l : List (α × β)}
    (h : l.Pairwise fun x y => compare x.1 y.1 = .lt) :
    (alterEntries k f l).Pairwise fun x y => compare x.1 y.1 = .lt := by
  induction l with
  | nil => exact List.pairwise_singleton ..
  | cons x rest ih =>
    obtain ⟨k', v⟩ := x
    obtain ⟨hx, hrest⟩ := List.pairwise_cons.1 h
    rw [alterEntries]
    split
    · next hlt =>
      refine List.pairwise_cons.2 ⟨?_, h⟩
      intro e he
      rcases List.mem_cons.1 he with rfl | he
      · exact hlt
      · exact Std.TransCmp.lt_trans hlt (hx e he)
    · exact List.pairwise_cons.2 ⟨hx, hrest⟩
    · next hgt =>
      refine List.pairwise_cons.2 ⟨?_, ih hrest⟩
      intro e he
      rcases mem_alterEntries he with he | ⟨e', he', he⟩
      · rw [he]
        exact Std.OrientedCmp.gt_iff_lt.1 hgt
      · rw [he]
        exact hx e' he'

/-- Replaces what is stored under a key by a function of it. -/
def alter (m : OrderedMap α β) (k : α) (f : Option β → β) : OrderedMap α β :=
  ⟨alterEntries k f m.entries, sorted_alterEntries m.sorted⟩

def insert (m : OrderedMap α β) (k : α) (v : β) : OrderedMap α β := m.alter k fun _ => v

/-- Updates the value under a key, which is `default` where nothing is stored yet. -/
def modify (m : OrderedMap α β) (k : α) (default : β) (f : β → β) : OrderedMap α β :=
  m.alter k fun v => f (v.getD default)

/-- The map of a list of entries; of several entries with one key the last counts. -/
def ofList (l : List (α × β)) : OrderedMap α β := l.foldl (fun m e => m.insert e.1 e.2) empty

omit [Std.TransOrd α] in
def filter (m : OrderedMap α β) (p : α → β → Bool) : OrderedMap α β :=
  ⟨m.entries.filter fun e => p e.1 e.2, m.sorted.filter _⟩

omit [Std.TransOrd α] in
def erase (m : OrderedMap α β) (k : α) : OrderedMap α β := m.filter fun k' _ => compare k k' != .eq

omit [Std.TransOrd α] in
/-- Applies a partial function to every value and drops the entries where it has no result. -/
def filterMap (m : OrderedMap α β) (f : α → β → Option γ) : OrderedMap α γ :=
  ⟨m.entries.filterMap fun e => (f e.1 e.2).map (e.1, ·), by
    refine List.pairwise_filterMap.2 (m.sorted.imp ?_)
    intro x y h x' hx y' hy
    obtain ⟨_, _, rfl⟩ := Option.map_eq_some_iff.1 hx
    obtain ⟨_, _, rfl⟩ := Option.map_eq_some_iff.1 hy
    exact h⟩

omit [Std.TransOrd α] in
/-- The entry with the least key and the map without it. -/
def popFirst? (m : OrderedMap α β) : Option ((α × β) × OrderedMap α β) :=
  match m with
  | ⟨[], _⟩ => none
  | ⟨e :: rest, h⟩ => some (e, ⟨rest, (List.pairwise_cons.1 h).2⟩)

omit [Std.TransOrd α] in
theorem length_alterEntries_le (k : α) (f : Option β → β) (l : List (α × β)) :
    (alterEntries k f l).length ≤ l.length + 1 := by
  induction l with
  | nil => exact Nat.le_refl _
  | cons x rest ih =>
    rw [alterEntries]
    split
    · exact Nat.le_refl _
    · exact Nat.le_succ _
    · exact Nat.succ_le_succ ih

theorem size_insert_le (m : OrderedMap α β) (k : α) (v : β) : (m.insert k v).size ≤ m.size + 1 :=
  length_alterEntries_le ..

omit [Std.TransOrd α] in
theorem size_popFirst? {m rest : OrderedMap α β} {e : α × β}
    (h : m.popFirst? = some (e, rest)) : rest.size + 1 = m.size := by
  unfold popFirst? at h
  split at h
  · cases h
  · cases h
    rfl

end OrderedMap

/-- A finite set whose members are listed in strictly increasing order. -/
structure OrderedSet (α : Type) [Ord α] where
  table : OrderedMap α Unit

namespace OrderedSet
variable {α : Type} [Ord α]

instance [DecidableEq α] : DecidableEq (OrderedSet α) := fun s t =>
  decidable_of_iff (s.table = t.table) ⟨fun h => by cases s; cases t; cases h; rfl, congrArg table⟩

def empty : OrderedSet α := ⟨.empty⟩

instance : Inhabited (OrderedSet α) := ⟨empty⟩

def toList (s : OrderedSet α) : List α := s.table.keys

def size (s : OrderedSet α) : Nat := s.table.size

def isEmpty (s : OrderedSet α) : Bool := s.table.isEmpty

def contains (s : OrderedSet α) (x : α) : Bool := s.table.contains x

variable [Std.TransOrd α]

def insert (s : OrderedSet α) (x : α) : OrderedSet α := ⟨s.table.insert x ()⟩

def singleton (x : α) : OrderedSet α := empty.insert x

def ofList (l : List α) : OrderedSet α := l.foldl insert empty

def union (s t : OrderedSet α) : OrderedSet α := t.toList.foldl insert s

omit [Std.TransOrd α] in
def erase (s : OrderedSet α) (x : α) : OrderedSet α := ⟨s.table.erase x⟩

end OrderedSet
end Confluence
