import Confluence.Json.Basic
import Confluence.Text

namespace Confluence.Json

/-- The smallest parts of a JSON text. A string whose escapes spell no Unicode text has no value. -/
inductive Token
  | openBrace
  | closeBrace
  | openBracket
  | closeBracket
  | colon
  | comma
  | null
  | bool (value : Bool)
  | number (value : Numeral)
  | text (value : Option String)
  deriving DecidableEq

/-- A part of a string: a character, or a 16-bit unit that was escaped by its number. -/
inductive Piece
  | char (c : Char)
  | unit (n : Nat)

/-- The text of a list of pieces: a high surrogate needs a low one after it, and a low one a high
one before it. -/
def Piece.join : List Piece → Option (List Char)
  | [] => some []
  | .char c :: rest => (join rest).map (c :: ·)
  | .unit n :: rest =>
    if n < 0xD800 ∨ 0xDFFF < n then (join rest).map (Char.ofNat n :: ·)
    else if 0xDC00 ≤ n then none
    else
      match rest with
      | .unit m :: rest =>
        if 0xDC00 ≤ m ∧ m ≤ 0xDFFF then
          (join rest).map (Char.ofNat (0x10000 + (n - 0xD800) * 0x400 + (m - 0xDC00)) :: ·)
        else none
      | _ => none

namespace Token

def unescape? : Char → Option Char
  | '"' => some '"'
  | '\\' => some '\\'
  | '/' => some '/'
  | 'b' => some '\x08'
  | 'f' => some '\x0c'
  | 'n' => some '\n'
  | 'r' => some '\r'
  | 't' => some '\t'
  | _ => none

/-- The pieces of a string up to its closing quotation mark, and what follows. -/
def scanText? : List Char → Option (List Piece × List Char)
  | '"' :: rest => some ([], rest)
  | '\\' :: 'u' :: a :: b :: c :: d :: rest => do
    let n ← Hex.number? [a, b, c, d]
    let (pieces, rest) ← scanText? rest
    some (.unit n :: pieces, rest)
  | '\\' :: e :: rest => do
    let c ← unescape? e
    let (pieces, rest) ← scanText? rest
    some (.char c :: pieces, rest)
  | c :: rest =>
    if c.toNat < 0x20 ∨ c = '\\' then none
    else do
      let (pieces, rest) ← scanText? rest
      some (.char c :: pieces, rest)
  | [] => none

def digitValue (c : Char) : Nat := c.toNat - '0'.toNat

/-- The number that a list of decimal digits spells. -/
def decimal (ds : List Char) : Nat := ds.foldl (fun n c => 10 * n + digitValue c) 0

/-- The digits after a point, if there is a point; a point needs a digit after it. -/
def scanFraction? : List Char → Option (Option (List Nat) × List Char)
  | '.' :: rest =>
    match rest.takeWhile Char.isDigit with
    | [] => none
    | ds => some (some (ds.map digitValue), rest.dropWhile Char.isDigit)
  | rest => some (none, rest)

/-- The exponent after an `e` in either case, if there is one; it needs a digit. -/
def scanExponent? : List Char → Option (Option Int × List Char)
  | c :: rest =>
    if c = 'e' ∨ c = 'E' then
      let (negative, rest) := match rest with
        | '-' :: rest => (true, rest)
        | '+' :: rest => (false, rest)
        | rest => (false, rest)
      match rest.takeWhile Char.isDigit with
      | [] => none
      | ds =>
        let n : Int := decimal ds
        some (some (if negative then -n else n), rest.dropWhile Char.isDigit)
    else some (none, c :: rest)
  | [] => some (none, [])

/-- A numeral without its sign: the whole digits have no leading zero. -/
def scanNumber? (negative : Bool) (cs : List Char) : Option (Numeral × List Char) := do
  let ds := cs.takeWhile Char.isDigit
  if ds = [] ∨ (ds.head? = some '0' ∧ 1 < ds.length) then none
  else
    let (fraction, rest) ← scanFraction? (cs.dropWhile Char.isDigit)
    let (exponent, rest) ← scanExponent? rest
    some (⟨negative, decimal ds, fraction, exponent⟩, rest)

/-- The first token of a text that starts with one, and what follows. -/
def scanOne? : List Char → Option (Token × List Char)
  | '\x7b' :: rest => some (.openBrace, rest)
  | '\x7d' :: rest => some (.closeBrace, rest)
  | '[' :: rest => some (.openBracket, rest)
  | ']' :: rest => some (.closeBracket, rest)
  | ':' :: rest => some (.colon, rest)
  | ',' :: rest => some (.comma, rest)
  | 'n' :: 'u' :: 'l' :: 'l' :: rest => some (.null, rest)
  | 't' :: 'r' :: 'u' :: 'e' :: rest => some (.bool true, rest)
  | 'f' :: 'a' :: 'l' :: 's' :: 'e' :: rest => some (.bool false, rest)
  | '"' :: rest =>
    (scanText? rest).map fun (pieces, rest) =>
      (.text ((Piece.join pieces).map String.ofList), rest)
  | '-' :: rest => (scanNumber? true rest).map fun (n, rest) => (.number n, rest)
  | c :: rest =>
    if c.isDigit then (scanNumber? false (c :: rest)).map fun (n, rest) => (.number n, rest)
    else none
  | [] => none

def isBlank (c : Char) : Bool := c = ' ' || c = '\t' || c = '\n' || c = '\r'

theorem length_scanText? {cs : List Char} {r : List Piece × List Char}
    (h : scanText? cs = some r) : r.2.length < cs.length := by
  fun_induction scanText? cs generalizing r with
  | case1 rest =>
    cases h
    simp
  | case2 a b c d rest ih =>
    obtain ⟨n, _, h⟩ := Option.bind_eq_some_iff.1 h
    obtain ⟨q, hq, h⟩ := Option.bind_eq_some_iff.1 h
    cases h
    have := ih hq
    simp only [List.length_cons]
    omega
  | case3 e rest _ ih =>
    obtain ⟨n, _, h⟩ := Option.bind_eq_some_iff.1 h
    obtain ⟨q, hq, h⟩ := Option.bind_eq_some_iff.1 h
    cases h
    have := ih hq
    simp only [List.length_cons]
    omega
  | case4 => cases h
  | case5 c rest _ _ _ _ ih =>
    obtain ⟨q, hq, h⟩ := Option.bind_eq_some_iff.1 h
    cases h
    have := ih hq
    simp only [List.length_cons]
    omega
  | case6 => cases h

theorem length_dropDigits (cs : List Char) :
    (cs.dropWhile Char.isDigit).length ≤ cs.length :=
  (List.dropWhile_suffix _).length_le

theorem length_scanFraction? {cs : List Char} {r : Option (List Nat) × List Char}
    (h : scanFraction? cs = some r) : r.2.length ≤ cs.length := by
  unfold scanFraction? at h
  split at h
  · next rest =>
    split at h
    · cases h
    · cases h
      have := length_dropDigits rest
      simp only [List.length_cons]
      omega
  · cases h
    exact Nat.le_refl _

theorem length_scanExponent? {cs : List Char} {r : Option Int × List Char}
    (h : scanExponent? cs = some r) : r.2.length ≤ cs.length := by
  unfold scanExponent? at h
  split at h
  · next c rest =>
    split at h
    · dsimp only at h
      split at h
      · cases h
      · cases h
        refine Nat.le_trans (length_dropDigits _) ?_
        split <;> simp only [List.length_cons] <;> omega
    · cases h
      exact Nat.le_refl _
  · cases h
    exact Nat.le_refl _

theorem length_scanNumber? {negative : Bool} {cs : List Char} {r : Numeral × List Char}
    (h : scanNumber? negative cs = some r) : r.2.length < cs.length := by
  unfold scanNumber? at h
  dsimp only at h
  split at h
  · cases h
  · next hds =>
    obtain ⟨f, hf, h⟩ := Option.bind_eq_some_iff.1 h
    obtain ⟨e, he, h⟩ := Option.bind_eq_some_iff.1 h
    cases h
    refine Nat.lt_of_le_of_lt (Nat.le_trans (length_scanExponent? he) (length_scanFraction? hf)) ?_
    cases cs with
    | nil => exact absurd rfl (not_or.1 hds).1
    | cons c cs =>
      have hc : c.isDigit := by
        by_cases hc : c.isDigit
        · exact hc
        · exact absurd (by simp [hc]) (not_or.1 hds).1
      rw [List.dropWhile_cons_of_pos hc]
      exact Nat.lt_of_le_of_lt (length_dropDigits _) (Nat.lt_succ_self _)

theorem length_scanOne? {cs : List Char} {r : Token × List Char} (h : scanOne? cs = some r) :
    r.2.length < cs.length := by
  unfold scanOne? at h
  split at h
  case h_10 rest =>
    obtain ⟨q, hq, rfl⟩ := Option.map_eq_some_iff.1 h
    have := length_scanText? hq
    simp only [List.length_cons]
    omega
  case h_11 rest =>
    obtain ⟨q, hq, rfl⟩ := Option.map_eq_some_iff.1 h
    have := length_scanNumber? hq
    simp only [List.length_cons]
    omega
  case h_12 c rest _ _ _ _ _ _ _ _ _ _ _ =>
    split at h
    · obtain ⟨q, hq, rfl⟩ := Option.map_eq_some_iff.1 h
      exact length_scanNumber? hq
    · cases h
  case h_13 => cases h
  all_goals
    cases h
    simp only [List.length_cons]
    omega

/-- Cuts a text into its tokens; blanks may stand between them. -/
def scan? (cs : List Char) : Option (List Token) :=
  match cs with
  | [] => some []
  | c :: rest =>
    if isBlank c then scan? rest
    else
      match h : scanOne? (c :: rest) with
      | some (t, after) =>
        have : after.length < (c :: rest).length := length_scanOne? h
        (scan? after).map (t :: ·)
      | none => none
termination_by cs.length
decreasing_by
  · exact Nat.lt_succ_self _
  · exact this

def spellChar (c : Char) : List Char :=
  match c with
  | '"' => ['\\', '"']
  | '\\' => ['\\', '\\']
  | '\x08' => ['\\', 'b']
  | '\x0c' => ['\\', 'f']
  | '\n' => ['\\', 'n']
  | '\r' => ['\\', 'r']
  | '\t' => ['\\', 't']
  | c => if c.toNat < 0x20 then '\\' :: 'u' :: Hex.digits 4 c.toNat else [c]

def spellText (s : String) : List Char := '"' :: s.toList.flatMap spellChar ++ ['"']

def spellNumber (n : Numeral) : List Char :=
  (if n.negative then ['-'] else []) ++ Nat.toDigits 10 n.whole ++
    (match n.fraction with
      | none => []
      | some ds => '.' :: ds.map Nat.digitChar) ++
    (match n.exponent with
      | none => []
      | some e => 'e' :: (if e < 0 then ['-'] else []) ++ Nat.toDigits 10 e.natAbs)

def spell : Token → List Char
  | .openBrace => ['\x7b']
  | .closeBrace => ['\x7d']
  | .openBracket => ['[']
  | .closeBracket => [']']
  | .colon => [':']
  | .comma => [',']
  | .null => ['n', 'u', 'l', 'l']
  | .bool true => ['t', 'r', 'u', 'e']
  | .bool false => ['f', 'a', 'l', 's', 'e']
  | .number n => spellNumber n
  | .text s => spellText (s.getD "")

end Token
end Confluence.Json
