import Mathlib.Algebra.GroupWithZero.Nat
import Confluence.Json.Basic

namespace Confluence

open Float.Model (UnpackedFloat)
open Float.Model.Format (binary64)

namespace Binary64

/-- A number that is neither infinite nor undefined, with an exponent of at most `E`. -/
def IsBelow (E : Int) : UnpackedFloat → Prop
  | .zero _ => True
  | .finite _ _ e _ => e ≤ E
  | _ => False

instance (E : Int) : DecidablePred (IsBelow E)
  | .zero _ => .isTrue trivial
  | .finite _ _ e _ => inferInstanceAs (Decidable (e ≤ E))
  | .infinity _ | .notANumber => .isFalse id

theorem log2_le {m a : Nat} (h : m ≤ 2 ^ a) : m.log2 ≤ a := by
  rcases Nat.eq_zero_or_pos m with rfl | hm
  · rw [Nat.log2_zero]
    exact Nat.zero_le _
  · have hlt : m < 2 ^ (a + 1) := Nat.lt_of_le_of_lt h (Nat.pow_lt_pow_succ (by decide))
    exact Nat.le_of_lt_succ ((Nat.log2_lt (Nat.ne_of_gt hm)).2 hlt)

theorem mantissa_shiftRight_le (em : UnpackedFloat.ExtendedMantissa) (n : Nat) :
    (em >>> n).mantissa ≤ em.mantissa := by
  induction n with
  | zero => exact Nat.le_refl _
  | succ n ih => exact Nat.le_trans (Nat.div_le_self _ 2) ih

theorem mantissa_ofMantissaAndAccuracy (m : Nat) (accuracy : UnpackedFloat.Accuracy) :
    (UnpackedFloat.ExtendedMantissa.ofMantissaAndAccuracy m accuracy).mantissa = m := by
  fun_cases UnpackedFloat.ExtendedMantissa.ofMantissaAndAccuracy <;> rfl

theorem roundedMantissa_le (em : UnpackedFloat.ExtendedMantissa) :
    em.roundedMantissa ≤ em.mantissa + 1 := by
  change em.accuracy.roundToNearestEven em.mantissa ≤ em.mantissa + 1
  generalize em.accuracy = accuracy
  fun_cases UnpackedFloat.Accuracy.roundToNearestEven em.mantissa accuracy <;> omega

theorem shiftToTargetExponent_le {m a : Nat} {e E : Int} (accuracy : UnpackedFloat.Accuracy)
    (hm : m ≤ 2 ^ a) (he : e ≤ E) (hE : -1074 ≤ E) :
    (UnpackedFloat.shiftToTargetExponent binary64 m e accuracy).1.mantissa ≤ m ∧
      (UnpackedFloat.shiftToTargetExponent binary64 m e accuracy).2 ≤ E + a := by
  have hlog := log2_le hm
  constructor
  · apply Nat.le_trans (mantissa_shiftRight_le _ _)
    exact Nat.le_of_eq (mantissa_ofMantissaAndAccuracy m accuracy)
  · have hbits : (binary64.mantissaBits : Int) = 53 := rfl
    have hmin : binary64.minExponent = -1074 := rfl
    simp only [UnpackedFloat.shiftToTargetExponent, UnpackedFloat.shiftToExponent,
      Float.Model.Format.targetExponent, Float.Model.totalExponent, hbits, hmin]
    omega

theorem isBelow_roundWithAccuracy {m a : Nat} {e E : Int} (sign : UnpackedFloat.Sign)
    (accuracy : UnpackedFloat.Accuracy) (hm : m < 2 ^ a) (he : e ≤ E) (hE : -1074 ≤ E) :
    IsBelow (E + 2 * a) (UnpackedFloat.roundWithAccuracy binary64 sign m e accuracy) := by
  obtain ⟨hm₁, he₁⟩ := shiftToTargetExponent_le accuracy (Nat.le_of_lt hm) he hE
  have hround := roundedMantissa_le (UnpackedFloat.shiftToTargetExponent binary64 m e accuracy).1
  have hm₂ : (UnpackedFloat.shiftToTargetExponent binary64 m e accuracy).1.roundedMantissa ≤
      2 ^ a := by omega
  obtain ⟨-, he₂⟩ := shiftToTargetExponent_le .exact hm₂ he₁ (by omega)
  unfold UnpackedFloat.roundWithAccuracy
  dsimp only
  generalize UnpackedFloat.shiftToTargetExponent binary64 _ _ .exact = shifted at he₂ ⊢
  by_cases hzero : shifted.1.mantissa = 0
  · rw [dif_pos hzero]
    trivial
  · rw [dif_neg hzero]
    exact Int.le_trans he₂ (by omega)

theorem isBelow_ofNat {n : Nat} (h : n < 2 ^ 64) : IsBelow 232 (UnpackedFloat.ofNat binary64 n) := by
  have hlog : n.log2 ≤ 64 := log2_le (Nat.le_of_lt h)
  unfold UnpackedFloat.ofNat UnpackedFloat.ofInt UnpackedFloat.normalize
  split
  · next hn =>
    exact absurd (Int.compare_eq_lt.1 hn) (by omega)
  · trivial
  · unfold UnpackedFloat.round UnpackedFloat.decreaseExponent
    dsimp only
    rw [Int.toNat_natCast]
    have hshift : (0 - binary64.targetExponent (Float.Model.totalExponent n 0)).toNat ≤ 52 := by
      have hbits : (binary64.mantissaBits : Int) = 53 := rfl
      have hmin : binary64.minExponent = -1074 := rfl
      simp only [Float.Model.Format.targetExponent, Float.Model.totalExponent, hbits, hmin]
      omega
    -- Shifted to 53 bits or left alone, the mantissa keeps within 116 bits.
    have hm : n <<< (0 - binary64.targetExponent (Float.Model.totalExponent n 0)).toNat <
        2 ^ 116 := by
      rw [Nat.shiftLeft_eq]
      calc n * 2 ^ _ < 2 ^ 64 * 2 ^ _ := Nat.mul_lt_mul_of_pos_right h (Nat.two_pow_pos _)
        _ ≤ 2 ^ 64 * 2 ^ 52 := Nat.mul_le_mul_left _ (Nat.pow_le_pow_right (by decide) hshift)
        _ = 2 ^ 116 := by rw [← Nat.pow_add]
    exact isBelow_roundWithAccuracy .positive .exact hm (E := 0) (by omega) (by decide)

/-- Every number of the format has a mantissa of 53 bits. -/
theorem mantissa_unpack_lt {b : BitVec binary64.numBits} {s : UnpackedFloat.Sign} {m : Nat}
    {e : Int} {h : 0 < m} (hb : UnpackedFloat.unpack binary64 b = .finite s m e h) : m < 2 ^ 53 := by
  unfold UnpackedFloat.unpack at hb
  dsimp only at hb
  by_cases hones : UnpackedFloat.unpackExponent b = -1#11
  · rw [if_pos hones] at hb
    by_cases hzero : UnpackedFloat.unpackMantissa b = 0#52
    · rw [if_pos hzero] at hb
      cases hb
    · rw [if_neg hzero] at hb
      cases hb
  · rw [if_neg hones] at hb
    by_cases hnone : UnpackedFloat.unpackExponent b = 0#11
    · rw [if_pos hnone] at hb
      by_cases hzero : UnpackedFloat.unpackMantissa b = 0#52
      · rw [dif_pos hzero] at hb
        cases hb
      · rw [dif_neg hzero] at hb
        cases hb
        exact Nat.lt_trans (BitVec.isLt _) (by decide)
    · rw [if_neg hnone] at hb
      cases hb
      exact BitVec.isLt _

theorem isBelow_unpack_packComponents {E : Int} (s : UnpackedFloat.Sign) {x : BitVec 11}
    (y : BitVec 52) (hx : (x.toNat : Int) ≤ E + 1075) (hmin : -1074 ≤ E) (hmax : E ≤ 970) :
    IsBelow E (UnpackedFloat.unpack binary64 (UnpackedFloat.packComponents binary64 s x y)) := by
  have hbias : (binary64.exponentBias : Int) = 1023 := rfl
  have hbits : (binary64.mantissaBitsWithoutImplicit : Int) = 52 := rfl
  have hne : x ≠ -1#11 := by
    rintro rfl
    have hones : (-1#11).toNat = 2047 := rfl
    omega
  unfold UnpackedFloat.unpack
  dsimp only
  rw [UnpackedFloat.unpackExponent_packComponents, if_neg hne]
  by_cases hnone : x = 0#11
  · rw [if_pos hnone]
    by_cases hzero : UnpackedFloat.unpackMantissa
        (UnpackedFloat.packComponents binary64 s x y) = 0#52
    · rw [dif_pos hzero]
      trivial
    · have hnat : x.toNat = 0 := congrArg BitVec.toNat hnone
      rw [dif_neg hzero]
      show (x.toNat : Int) - _ + 1 ≤ E
      omega
  · rw [if_neg hnone]
    show (x.toNat : Int) - _ ≤ E
    omega

/-- A number with a small exponent keeps it in the format. -/
theorem isBelow_unpack_pack {f : UnpackedFloat} {E : Int} (hf : IsBelow E f) (hmin : -1074 ≤ E)
    (hmax : E ≤ 970) : IsBelow E (UnpackedFloat.unpack binary64 (UnpackedFloat.pack binary64 f)) := by
  have hbias : (binary64.exponentBias : Int) = 1023 := rfl
  have hbits : (binary64.mantissaBitsWithoutImplicit : Int) = 52 := rfl
  have hexp : 2 ^ binary64.exponentBits = 2048 := rfl
  have hzero : ((0#11).toNat : Int) ≤ E + 1075 := by
    rw [BitVec.toNat_zero]
    omega
  cases f with
  | notANumber => exact hf.elim
  | infinity s => exact hf.elim
  | zero s => exact isBelow_unpack_packComponents s _ hzero hmin hmax
  | finite s m e h =>
    have he : e ≤ E := hf
    unfold UnpackedFloat.pack
    dsimp only
    rw [if_neg (by omega)]
    split
    · refine isBelow_unpack_packComponents s _ ?_ hmin hmax
      rw [BitVec.toNat_ofNat, Nat.mod_eq_of_lt (by omega)]
      omega
    · exact isBelow_unpack_packComponents s _ hzero hmin hmax

/-- A product of two numbers of the format: the mantissas have 53 bits each. -/
theorem isBelow_mul {x y : Float.Model} {E F : Int} (hx : IsBelow E x.unpack)
    (hy : IsBelow F y.unpack) (hmin : -1074 ≤ E + F) :
    IsBelow (E + F + 212) (UnpackedFloat.mul binary64 x.unpack y.unpack) := by
  cases hu : x.unpack with
  | notANumber | infinity =>
    rw [hu] at hx
    exact hx.elim
  | zero =>
    cases hv : y.unpack with
    | notANumber | infinity =>
      rw [hv] at hy
      exact hy.elim
    | zero | finite => trivial
  | finite s m e _ =>
    cases hv : y.unpack with
    | notANumber | infinity =>
      rw [hv] at hy
      exact hy.elim
    | zero => trivial
    | finite t n f _ =>
      rw [hu] at hx
      rw [hv] at hy
      have hmn : m * n < 2 ^ 106 := by
        rw [show (106 : Nat) = 53 + 53 from rfl, Nat.pow_add]
        exact Nat.mul_lt_mul'' (mantissa_unpack_lt hu) (mantissa_unpack_lt hv)
      exact isBelow_roundWithAccuracy (s * t) .exact hmn (Int.add_le_add hx hy) hmin

theorem isBelow_powerOfTen_zero : IsBelow 0 (Numeral.powerOfTen 0).toModel.unpack := by
  decide +kernel

theorem isInf_eq_false {f : UnpackedFloat} {E : Int} (h : IsBelow E f) : f.isInf = false := by
  cases f with
  | notANumber | zero | finite => rfl
  | infinity => exact h.elim

end Binary64

namespace Numeral

theorem gather_le (significand : Nat) (ds : List Nat) :
    significand ≤ ds.foldl (fun n d => 10 * n + d) significand := by
  induction ds generalizing significand with
  | nil => exact Nat.le_refl _
  | cons d ds ih => exact Nat.le_trans (by omega) (ih (10 * significand + d))

theorem gather_eq {significand : Nat} {ds : List Nat}
    (h : ds.foldl (fun n d => 10 * n + d) significand < UInt64.size) :
    gather significand ds = (ds.foldl (fun n d => 10 * n + d) significand, 0) := by
  induction ds generalizing significand with
  | nil => rfl
  | cons d ds ih =>
    have hd : 10 * significand + d < UInt64.size :=
      Nat.lt_of_le_of_lt (gather_le (10 * significand + d) ds) h
    rw [gather, if_pos hd]
    exact ih h

theorem gather_wholeDigits {n : Nat} (h : n < UInt64.size) : gather 0 (wholeDigits n) = (n, 0) := by
  have hn : (wholeDigits n).foldl (fun n d => 10 * n + d) 0 = n := by
    unfold wholeDigits
    rw [List.foldl_map]
    exact Nat.ofDigitChars_eq_foldl.symm.trans Nat.ofDigitChars_ten_toDigits
  rw [gather_eq (by rwa [hn]), hn]

theorem isSome_scale_zero (n : UInt64) : (scale n.toFloat 0).isSome := by
  have hn : Binary64.IsBelow 232 n.toFloat.toModel.unpack :=
    Binary64.isBelow_unpack_pack (Binary64.isBelow_ofNat n.toNat_lt) (by decide) (by decide)
  have hy : (n.toFloat * powerOfTen 0).isInf = false :=
    Binary64.isInf_eq_false (Binary64.isBelow_unpack_pack
      (Binary64.isBelow_mul hn Binary64.isBelow_powerOfTen_zero (by decide)) (by decide) (by decide))
  unfold scale
  rw [if_pos (by decide), if_pos (by decide)]
  simp only [Int.natAbs_zero, hy]
  rfl

theorem isSome_float?_ofInt {n : Int} (h : n.natAbs < UInt64.size) : (ofInt n).float?.isSome := by
  unfold float? ofInt
  simp only [gather_wholeDigits h, Option.getD_none, gather, List.length_nil, Option.isSome_map]
  exact isSome_scale_zero _

theorem integer?_ofInt (n : Int) : (ofInt n).integer? = some n := by
  unfold integer? ofInt
  dsimp only
  split
  · next hn =>
    have hneg : n < 0 := of_decide_eq_true hn
    rw [if_neg (by omega)]
    exact congrArg some (by omega)
  · next hn =>
    have hneg : ¬ n < 0 := of_decide_eq_false (Bool.eq_false_iff.2 hn)
    exact congrArg some (by omega)

end Numeral
end Confluence
