import Mathlib.Algebra.GroupWithZero.Nat
import Confluence.Uuid

namespace Confluence

namespace Hex

theorem value?_digit (n : Nat) : value? (digit n) = some (n % 16) := by
  have h : ∀ k < 16, value? (Nat.digitChar k) = some k := by decide
  exact h _ (Nat.mod_lt _ (by decide))

theorem digit_ne_hyphen (n : Nat) : digit n ≠ '-' := by
  have h : ∀ k < 16, Nat.digitChar k ≠ '-' := by decide
  exact h _ (Nat.mod_lt _ (by decide))

theorem length_digits (count n : Nat) : (digits count n).length = count := by
  induction count generalizing n with
  | zero => rfl
  | succ count ih =>
    rw [digits, List.length_append, ih]
    rfl

theorem ne_hyphen_of_mem_digits {count n : Nat} {c : Char} (h : c ∈ digits count n) : c ≠ '-' := by
  induction count generalizing n with
  | zero => cases h
  | succ count ih =>
    rw [digits] at h
    rcases List.mem_append.1 h with h | h
    · exact ih h
    · rw [List.mem_singleton.1 h]
      exact digit_ne_hyphen n

theorem number?_digits (count n : Nat) : number? (digits count n) = some (n % 16 ^ count) := by
  induction count generalizing n with
  | zero =>
    rw [Nat.pow_zero, Nat.mod_one]
    rfl
  | succ count ih =>
    have hn := ih (n / 16)
    unfold number? at hn ⊢
    rw [digits, List.foldlM_append, hn]
    change ((value? (digit n)).map _).bind some = _
    rw [value?_digit, Nat.pow_succ', Nat.mod_mul]
    exact congrArg some (Nat.add_comm _ _)

end Hex

namespace Uuid

theorem filter_hyphenated {ds : List Char} (h : ∀ c ∈ ds, c ≠ '-') :
    (hyphenated ds).filter (· ≠ '-') = ds := by
  have hpart {l : List Char} (hl : l ⊆ ds) : l.filter (· ≠ '-') = l :=
    List.filter_eq_self.2 fun c hc => decide_eq_true (h c (hl hc))
  have hdrop (i : Nat) : ds.drop i ⊆ ds := List.drop_subset i ds
  have htake (i j : Nat) : (ds.drop i).take j ⊆ ds :=
    List.Subset.trans (List.take_subset j _) (hdrop i)
  have hjoin (i : Nat) : (ds.drop i).take 4 ++ ds.drop (i + 4) = ds.drop i := by
    rw [← List.drop_drop]
    exact List.take_append_drop 4 _
  have hhyphen (l : List Char) : ('-' :: l).filter (· ≠ '-') = l.filter (· ≠ '-') :=
    List.filter_cons_of_neg (by simp)
  unfold hyphenated
  rw [List.append_assoc, List.append_assoc, List.append_assoc]
  simp only [List.filter_append, List.cons_append, hhyphen, hpart (htake _ _), hpart (hdrop _),
    hpart (List.take_subset 8 ds)]
  rw [hjoin 16, hjoin 12, hjoin 8, List.take_append_drop]

theorem length_hyphenated {ds : List Char} (h : ds.length = 32) : (hyphenated ds).length = 36 := by
  unfold hyphenated
  simp [h]

theorem parse?_toString (id : Uuid) : parse? id.toString = some id := by
  let ds := Hex.digits 32 id.bits.toNat
  have hlen : ds.length = 32 := Hex.length_digits 32 _
  have hfilter : (hyphenated ds).filter (· ≠ '-') = ds :=
    filter_hyphenated fun c => Hex.ne_hyphen_of_mem_digits
  have hlt : id.bits.toNat < 16 ^ 32 := id.bits.isLt
  have hnumber : ofDigits? ds = some id := by
    unfold ofDigits?
    rw [if_pos hlen, Hex.number?_digits, Nat.mod_eq_of_lt hlt]
    exact congrArg some (congrArg Uuid.mk (BitVec.ofNat_toNat ..))
  have hread : ofHyphenated? (hyphenated ds) = some id := by
    unfold ofHyphenated?
    rw [hfilter]
    exact (if_pos ⟨hlen, rfl⟩).trans hnumber
  unfold parse? toString
  rw [String.toList_ofList]
  dsimp only
  rw [length_hyphenated hlen]
  exact hread

end Uuid
end Confluence
