namespace Confluence

/-- A number as it is written: a sign, whole digits, digits after the point, an exponent. -/
structure Numeral where
  negative : Bool
  whole : Nat
  fraction : Option (List Nat)
  exponent : Option Int
  deriving DecidableEq

/-- A document. A number keeps the digits it was written with, since what it means depends on the type
that reads it; a text or an object that has no meaning as Unicode is kept as garbled, since it may
stand where nobody looks. -/
inductive Json
  | null
  | bool (value : Bool)
  | number (value : Numeral)
  | string (value : String)
  | array (items : List Json)
  | object (fields : List (String × Json))
  | garbled

def Numeral.ofInt (n : Int) : Numeral := ⟨n < 0, n.natAbs, none, none⟩

/-- The integer that a numeral without point and exponent denotes; minus zero is no integer. -/
def Numeral.integer? (n : Numeral) : Option Int :=
  match n.fraction, n.exponent with
  | none, none =>
    if n.negative then if n.whole = 0 then none else some (-n.whole) else some n.whole
  | _, _ => none

namespace Json

def ofInt (n : Int) : Json := .number (.ofInt n)

def ofNat (n : Nat) : Json := ofInt n

mutual

def depth : Json → Nat
  | .array items => 1 + itemsDepth items
  | .object fields => 1 + fieldsDepth fields
  | _ => 0

def itemsDepth : List Json → Nat
  | [] => 0
  | j :: rest => max j.depth (itemsDepth rest)

def fieldsDepth : List (String × Json) → Nat
  | [] => 0
  | (_, j) :: rest => max j.depth (fieldsDepth rest)

end

end Json
end Confluence

namespace Confluence.Numeral

/-- Appends digits to a significand while it fits in 64 bits, and counts the digits left over. -/
def gather (significand : Nat) : List Nat → Nat × Nat
  | [] => (significand, 0)
  | d :: rest =>
    if 10 * significand + d < UInt64.size then gather (10 * significand + d) rest
    else (significand, rest.length + 1)

def powerOfTen (n : Nat) : Float := .ofScientific 1 false n

/-- Multiplies by a power of ten, downwards in steps of at most 308 places. -/
def scale (x : Float) (exponent : Int) : Option Float :=
  if exponent.natAbs ≤ 308 then
    if 0 ≤ exponent then
      let y := x * powerOfTen exponent.natAbs
      if y.isInf then none else some y
    else some (x / powerOfTen exponent.natAbs)
  else if x == 0 then some x
  else if 0 ≤ exponent then none
  else scale (x / powerOfTen 308) (exponent + 308)
termination_by exponent.natAbs
decreasing_by omega

/-- The digits of a whole number, the most significant first. -/
def wholeDigits (n : Nat) : List Nat := (Nat.toDigits 10 n).map fun c => c.toNat - '0'.toNat

/-- The floating-point value of a numeral. Whole digits beyond the significand count as zeros,
decimals beyond it are dropped. -/
def float? (n : Numeral) : Option Float :=
  let decimals := n.fraction.getD []
  let (whole, zeros) := gather 0 (wholeDigits n.whole)
  let (significand, dropped) := gather whole decimals
  let places : Int := decimals.length - dropped
  let magnitude := scale significand.toUInt64.toFloat (zeros - places + n.exponent.getD 0)
  magnitude.map fun x => if n.negative then -x else x

end Confluence.Numeral
