import Confluence.Text

namespace Confluence

/-- A universally unique identifier, ordered by value. -/
structure Uuid where
  bits : BitVec 128
  deriving DecidableEq

namespace Uuid

instance : Ord Uuid := ⟨compareOn fun id => id.bits.toNat⟩

instance : Std.TransOrd Uuid :=
  inferInstanceAs (Std.TransCmp (compareOn fun id : Uuid => id.bits.toNat))

instance : Std.LawfulEqOrd Uuid where
  eq_of_compare {a b} h := by
    have h := BitVec.eq_of_toNat_eq (Nat.compare_eq_eq.1 h)
    cases a
    cases b
    cases h
    rfl

def ofNat (n : Nat) : Uuid := ⟨.ofNat 128 n⟩

/-- The random identifier (version 4) that carries the given bits. -/
def version4 (n : BitVec 128) : Uuid :=
  ⟨(n &&& 0xFFFFFFFFFFFF4FFFBFFFFFFFFFFFFFFF#128) ||| 0x40008000000000000000#128⟩

/-- The sixteen bytes, the most significant first. -/
def bytes (id : Uuid) : List UInt8 :=
  (List.range 16).map fun i => (id.bits.toNat >>> (8 * (15 - i))).toUInt8

/-- The 32 digits in groups of 8, 4, 4, 4 and 12, with hyphens between. -/
def hyphenated (digits : List Char) : List Char :=
  digits.take 8 ++ '-' :: (digits.drop 8).take 4 ++ '-' :: (digits.drop 12).take 4 ++
    '-' :: (digits.drop 16).take 4 ++ '-' :: digits.drop 20

def toString (id : Uuid) : String :=
  String.ofList (hyphenated (Hex.digits 32 id.bits.toNat))

instance : ToString Uuid := ⟨toString⟩

/-- The identifier of 32 digits without hyphens. -/
def ofDigits? (cs : List Char) : Option Uuid :=
  if cs.length = 32 then (Hex.number? cs).map ofNat else none

/-- The identifier of 32 digits in hyphenated groups. -/
def ofHyphenated? (cs : List Char) : Option Uuid :=
  let digits := cs.filter (· ≠ '-')
  if digits.length = 32 ∧ cs = hyphenated digits then ofDigits? digits else none

/-- Reads 32 digits, plain or hyphenated; the hyphenated form may stand in braces or after
`urn:uuid:` in either case. -/
def parse? (s : String) : Option Uuid :=
  let cs := s.toList
  match cs.length with
  | 32 => ofDigits? cs
  | 36 => ofHyphenated? cs
  | 38 =>
    if cs.head? = some '\x7b' ∧ cs.getLast? = some '\x7d' then
      ofHyphenated? ((cs.drop 1).take 36)
    else none
  | 45 =>
    if (cs.take 9).map Char.toLower = "urn:uuid:".toList then ofHyphenated? (cs.drop 9) else none
  | _ => none

end Uuid
end Confluence
