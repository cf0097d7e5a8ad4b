import Mathlib.Data.List.Basic
import Confluence.Json.Token
import Confluence.Proofs.Uuid

namespace Confluence.Json.Token

theorem scanText?_escape {e c : Char} (he : e ≠ 'u') (hc : unescape? e = some c) (cs : List Char) :
    scanText? ('\\' :: e :: cs) = (scanText? cs).map fun r => (Piece.char c :: r.1, r.2) := by
  rw [scanText?, hc]
  · cases scanText? cs <;> rfl
  · intro _ _ _ _ _ h
    cases h
    exact absurd rfl he

theorem scanText?_number {ds : List Char} {n : Nat} (hlen : ds.length = 4)
    (hn : Hex.number? ds = some n) (cs : List Char) :
    scanText? ('\\' :: 'u' :: ds ++ cs) =
      (scanText? cs).map fun r => (Piece.unit n :: r.1, r.2) := by
  obtain ⟨a, b, c, d, rfl⟩ := List.length_eq_four.1 hlen
  show scanText? ('\\' :: 'u' :: a :: b :: c :: d :: cs) = _
  rw [scanText?, hn]
  cases scanText? cs <;> rfl

theorem scanText?_plain {c : Char} (hquote : c ≠ '"') (hescape : c ≠ '\\') (hc : ¬ c.toNat < 0x20)
    (cs : List Char) :
    scanText? (c :: cs) = (scanText? cs).map fun r => (Piece.char c :: r.1, r.2) := by
  rw [scanText?, if_neg (not_or.2 ⟨hc, hescape⟩)]
  · cases scanText? cs <;> rfl
  · intro h
    exact absurd h hquote
  · intro _ _ _ _ _ h
    exact absurd h hescape
  · intro _ _ h
    exact absurd h hescape

theorem scanText?_spellChar (c : Char) : ∃ p : Piece,
    (∀ cs, scanText? (spellChar c ++ cs) = (scanText? cs).map fun r => (p :: r.1, r.2)) ∧
      ∀ ps, Piece.join (p :: ps) = (Piece.join ps).map (c :: ·) := by
  fun_cases spellChar c with
  | case1 | case2 | case3 | case4 | case5 | case6 | case7 =>
    exact ⟨.char _, scanText?_escape (by decide) rfl, fun _ => rfl⟩
  | case8 _ _ _ _ _ _ _ _ hc =>
    have hn : Hex.number? (Hex.digits 4 c.toNat) = some c.toNat := by
      rw [Hex.number?_digits, Nat.mod_eq_of_lt (by omega)]
    refine ⟨.unit c.toNat, scanText?_number (Hex.length_digits 4 _) hn, ?_⟩
    intro ps
    rw [Piece.join.eq_def]
    dsimp only
    rw [if_pos (.inl (by omega)), Char.ofNat_toNat]
  | case9 _ hquote hescape _ _ _ _ _ hc =>
    exact ⟨.char c, scanText?_plain hquote hescape hc, fun _ => rfl⟩

theorem scanText?_spellChars (s rest : List Char) : ∃ ps,
    scanText? (s.flatMap spellChar ++ '"' :: rest) = some (ps, rest) ∧ Piece.join ps = some s := by
  induction s with
  | nil => exact ⟨[], rfl, rfl⟩
  | cons c s ih =>
    obtain ⟨ps, hscan, hjoin⟩ := ih
    obtain ⟨p, hpiece, hcons⟩ := scanText?_spellChar c
    refine ⟨p :: ps, ?_, ?_⟩
    · rw [List.flatMap_cons, List.append_assoc, hpiece, hscan]
      rfl
    · rw [hcons, hjoin]
      rfl

/-- What may follow a number: a text that does not continue it. -/
def EndsNumber (cs : List Char) : Prop :=
  ∀ c, cs.head? = some c → c.isDigit = false ∧ c ≠ '.' ∧ c ≠ 'e' ∧ c ≠ 'E'

theorem head?_toDigits_ne {n : Nat} (hn : 0 < n) : (Nat.toDigits 10 n).head? ≠ some '0' := by
  induction n using Nat.strongRecOn with
  | ind n ih =>
    by_cases hlt : n < 10
    · have hdigit : ∀ k < 10, 0 < k → Nat.digitChar k ≠ '0' := by decide
      rw [Nat.toDigits_of_lt_base hlt]
      intro h
      exact hdigit n hlt hn (Option.some.inj h)
    · rw [Nat.toDigits_of_base_le (by decide) (by omega), List.head?_append]
      have hrest := ih (n / 10) (by omega) (by omega)
      cases hds : (Nat.toDigits 10 (n / 10)).head? with
      | none => exact absurd (List.head?_eq_none_iff.1 hds) Nat.toDigits_ne_nil
      | some c =>
        rw [hds] at hrest
        exact hrest

/-- A numeral without point and exponent is scanned from its digits. -/
theorem scanNumber?_toDigits (negative : Bool) (n : Nat) {cs : List Char} (h : EndsNumber cs) :
    scanNumber? negative (Nat.toDigits 10 n ++ cs) = some (⟨negative, n, none, none⟩, cs) := by
  have hds : ∀ c ∈ Nat.toDigits 10 n, c.isDigit = true := fun c hc =>
    Nat.isDigit_of_mem_toDigits (by decide) (by decide) hc
  have htake : cs.takeWhile Char.isDigit = [] := by
    cases cs with
    | nil => rfl
    | cons c cs => exact List.takeWhile_cons_of_neg (by simp [(h c rfl).1])
  have hdrop : cs.dropWhile Char.isDigit = cs := by
    cases cs with
    | nil => rfl
    | cons c cs => exact List.dropWhile_cons_of_neg (by simp [(h c rfl).1])
  have hzero : ¬((Nat.toDigits 10 n).head? = some '0' ∧ 1 < (Nat.toDigits 10 n).length) := by
    rintro ⟨hhead, hlen⟩
    rcases Nat.eq_zero_or_pos n with rfl | hn
    · exact absurd hlen (by decide)
    · exact head?_toDigits_ne hn hhead
  have hfraction : scanFraction? cs = some (none, cs) := by
    cases cs with
    | nil => rfl
    | cons c cs =>
      rw [scanFraction?]
      intro rest hc
      cases hc
      exact (h '.' rfl).2.1 rfl
  have hexponent : scanExponent? cs = some (none, cs) := by
    cases cs with
    | nil => rfl
    | cons c cs => exact if_neg (not_or.2 (h c rfl).2.2)
  have hdecimal : decimal (Nat.toDigits 10 n) = n :=
    Nat.ofDigitChars_eq_foldl.symm.trans Nat.ofDigitChars_ten_toDigits
  unfold scanNumber?
  dsimp only
  rw [List.takeWhile_append_of_pos hds, htake, List.append_nil, List.dropWhile_append_of_pos hds,
    hdrop, if_neg (not_or.2 ⟨Nat.toDigits_ne_nil, hzero⟩), hfraction, hdecimal]
  show (scanExponent? cs).bind _ = _
  rw [hexponent]
  rfl

theorem scanOne?_digit {c : Char} (hc : c.isDigit = true) (cs : List Char) :
    scanOne? (c :: cs) = (scanNumber? false (c :: cs)).map fun r => (.number r.1, r.2) := by
  unfold scanOne?
  split
  case h_12 h =>
    cases h
    exact if_pos hc
  case h_13 h => cases h
  all_goals
    next h =>
    cases h
    exact absurd hc (by decide)

theorem scanOne?_blank {c : Char} (hc : isBlank c = true) (cs : List Char) :
    scanOne? (c :: cs) = none := by
  unfold isBlank at hc
  simp only [Bool.or_eq_true, decide_eq_true_eq] at hc
  rcases hc with ((rfl | rfl) | rfl) | rfl <;> rfl

theorem scan?_of_scanOne? {cs rest : List Char} {t : Token} (h : scanOne? cs = some (t, rest)) :
    scan? cs = (scan? rest).map (t :: ·) := by
  cases cs with
  | nil => cases h
  | cons c cs =>
    have hblank : ¬ isBlank c = true := by
      intro hc
      rw [scanOne?_blank hc] at h
      cases h
    rw [scan?, if_neg hblank]
    split
    · next ht =>
      cases h.symm.trans ht
      rfl
    · next ht => cases h.symm.trans ht

/-- The tokens that are written for documents with a meaning. -/
def IsPlain : Token → Prop
  | .number n => n.fraction = none ∧ n.exponent = none
  | .text s => s.isSome
  | _ => True

theorem scanOne?_number {n : Numeral} (hf : n.fraction = none) (he : n.exponent = none)
    {cs : List Char} (h : EndsNumber cs) :
    scanOne? (spellNumber n ++ cs) = some (.number n, cs) := by
  obtain ⟨negative, whole, fraction, exponent⟩ := n
  obtain rfl : fraction = none := hf
  obtain rfl : exponent = none := he
  unfold spellNumber
  dsimp only
  rw [List.append_nil, List.append_nil]
  cases negative with
  | true =>
    show (scanNumber? true (Nat.toDigits 10 whole ++ cs)).map _ = _
    rw [scanNumber?_toDigits true whole h]
    rfl
  | false =>
    show scanOne? (Nat.toDigits 10 whole ++ cs) = _
    obtain ⟨d, ds, hds⟩ := List.exists_cons_of_ne_nil (Nat.toDigits_ne_nil (n := whole) (b := 10))
    have hd : d.isDigit = true :=
      Nat.isDigit_of_mem_toDigits (b := 10) (n := whole) (by decide) (by decide)
        (hds ▸ List.mem_cons_self)
    rw [hds, List.cons_append, scanOne?_digit hd, ← List.cons_append, ← hds,
      scanNumber?_toDigits false whole h]
    rfl

theorem scanOne?_spell {t : Token} (ht : t.IsPlain) {cs : List Char}
    (h : ∀ n, t = .number n → EndsNumber cs) : scanOne? (t.spell ++ cs) = some (t, cs) := by
  cases t with
  | openBrace | closeBrace | openBracket | closeBracket | colon | comma | null => rfl
  | bool b => cases b <;> rfl
  | number n => exact scanOne?_number ht.1 ht.2 (h n rfl)
  | text s =>
    obtain ⟨s, rfl⟩ := Option.isSome_iff_exists.1 ht
    obtain ⟨ps, hscan, hjoin⟩ := scanText?_spellChars s.toList cs
    show (scanText? (s.toList.flatMap spellChar ++ ['"'] ++ cs)).map _ = _
    rw [List.append_assoc, List.singleton_append, hscan, Option.map_some]
    dsimp only
    rw [hjoin, Option.map_some, String.ofList_toList]

theorem scan?_spell {t : Token} (ht : t.IsPlain) {cs : List Char}
    (h : ∀ n, t = .number n → EndsNumber cs) :
    scan? (t.spell ++ cs) = (scan? cs).map (t :: ·) :=
  scan?_of_scanOne? (scanOne?_spell ht h)

end Confluence.Json.Token
