namespace Confluence

/-- A generator enciphers a counter with ChaCha of twelve rounds and hands out the words of the blocks in
order: its key, the number of the next block, and the words of the current block that are left. -/
structure Generator where
  key : Vector UInt32 8
  counter : UInt64
  pending : List UInt32

namespace ChaCha

def rotl (x : UInt32) (n : UInt32) : UInt32 := (x <<< n) ||| (x >>> (32 - n))

def quarter (s : Vector UInt32 16) (a b c d : Fin 16) : Vector UInt32 16 :=
  let s := s.set a (s[a] + s[b])
  let s := s.set d (rotl (s[d] ^^^ s[a]) 16)
  let s := s.set c (s[c] + s[d])
  let s := s.set b (rotl (s[b] ^^^ s[c]) 12)
  let s := s.set a (s[a] + s[b])
  let s := s.set d (rotl (s[d] ^^^ s[a]) 8)
  let s := s.set c (s[c] + s[d])
  s.set b (rotl (s[b] ^^^ s[c]) 7)

/-- One round on the columns and one on the diagonals. -/
def doubleRound (s : Vector UInt32 16) : Vector UInt32 16 :=
  let s := quarter (quarter (quarter (quarter s 0 4 8 12) 1 5 9 13) 2 6 10 14) 3 7 11 15
  quarter (quarter (quarter (quarter s 0 5 10 15) 1 6 11 12) 2 7 8 13) 3 4 9 14

def block (key : Vector UInt32 8) (counter : UInt64) : Vector UInt32 16 :=
  let start : Vector UInt32 16 := #v[
    0x61707865, 0x3320646e, 0x79622d32, 0x6b206574,
    key[0], key[1], key[2], key[3], key[4], key[5], key[6], key[7],
    counter.toUInt32, (counter >>> 32).toUInt32, 0, 0]
  .zipWith (· + ·) (Nat.repeat doubleRound 6 start) start

end ChaCha

namespace Generator

/-- Expands a seed to a key, word by word, by a linear congruence whose states are permuted. -/
def expand : Nat → UInt64 → List UInt32
  | 0, _ => []
  | count + 1, s =>
    let s := s * 6364136223846793005 + 11634580027462260723
    let x := (((s >>> 18) ^^^ s) >>> 27).toUInt32
    let n := (s >>> 59).toUInt32
    ((x >>> n) ||| (x <<< ((32 - n) % 32))) :: expand count s

def ofSeed (seed : UInt64) : Generator :=
  let words := (expand 8 seed).toArray
  ⟨.ofFn fun i => words.getD i 0, 0, []⟩

def word (g : Generator) : UInt32 × Generator :=
  match g.pending with
  | w :: rest => (w, { g with pending := rest })
  | [] =>
    let b := ChaCha.block g.key g.counter
    (b[0], ⟨g.key, g.counter + 1, b.toList.tail⟩)

/-- Two words, the low half first. -/
def word64 (g : Generator) : UInt64 × Generator :=
  let (low, g) := g.word
  let (high, g) := g.word
  (low.toUInt64 ||| (high.toUInt64 <<< 32), g)

/-- A number from zero up to but not including one, in steps of 2 ^ -53. -/
def unit (g : Generator) : Float × Generator :=
  let (x, g) := g.word64
  ((x >>> 11).toFloat / 9007199254740992, g)

end Generator
end Confluence

namespace Confluence.Generator

/-- How often a word is drawn before any word is taken. At least half of all words serve, so this bound
is never met in practice. -/
def maxDraws : Nat := 4096

/-- The number of leading zero bits of a number below `2 ^ width`. -/
def leadingZeros (width n : Nat) : Nat := if n = 0 then width else width - 1 - n.log2

/-- An offset below `size`, from words of `width` bits: a word is widened by the size, and the high half
is the offset. A word is drawn again where the low half shows that it would favour some offsets. -/
def offset (width : Nat) (next : Generator → Nat × Generator) (size : Nat) :
    Nat → Generator → Nat × Generator
  | 0, g => (0, g)
  | draws + 1, g =>
    let (w, g) := next g
    let words := Nat.pow 2 width
    let zone := size <<< leadingZeros width size - 1
    if w * size % words ≤ zone then (w * size / words, g)
    else offset width next size draws g

def nextWord64 (g : Generator) : Nat × Generator :=
  let (w, g) := g.word64
  (w.toNat, g)

def nextWord32 (g : Generator) : Nat × Generator :=
  let (w, g) := g.word
  (w.toNat, g)

/-- An offset from zero up to `last`, from words of 64 bits; all of them serve if every word is in
the range. -/
def upTo64 (g : Generator) (last : UInt64) : UInt64 × Generator :=
  if last.toNat + 1 = UInt64.size then g.word64
  else
    let (n, g) := offset 64 nextWord64 (last.toNat + 1) maxDraws g
    (n.toUInt64, g)

/-- An offset below a positive size, from words of 64 bits. -/
def below64 (g : Generator) (size : Nat) : Nat × Generator := offset 64 nextWord64 size maxDraws g

/-- An offset below a positive size, from words of 32 bits. -/
def below32 (g : Generator) (size : Nat) : Nat × Generator := offset 32 nextWord32 size maxDraws g

theorem offset_lt {width size : Nat} {next : Generator → Nat × Generator} (hs : 0 < size)
    (hn : ∀ g, (next g).1 < Nat.pow 2 width) (draws : Nat) (g : Generator) :
    (offset width next size draws g).1 < size := by
  induction draws generalizing g with
  | zero => exact hs
  | succ draws ih =>
    unfold offset
    dsimp only
    split
    · exact Nat.div_lt_of_lt_mul (Nat.mul_lt_mul_of_pos_right (hn g) hs)
    · exact ih _

theorem below64_lt {size : Nat} (hs : 0 < size) (g : Generator) : (g.below64 size).1 < size :=
  offset_lt hs (fun g => g.word64.1.toNat_lt) _ g

theorem upTo64_le (g : Generator) (last : UInt64) : (g.upTo64 last).1 ≤ last := by
  rw [UInt64.le_iff_toNat_le, upTo64]
  split
  · next hall =>
    have hword := g.word64.1.toNat_lt
    have hsize : UInt64.size = 2 ^ 64 := rfl
    omega
  · have hlt : (offset 64 nextWord64 (last.toNat + 1) maxDraws g).1 < last.toNat + 1 :=
      offset_lt (Nat.succ_pos _) (fun g => g.word64.1.toNat_lt) _ g
    calc (offset 64 nextWord64 (last.toNat + 1) maxDraws g).1.toUInt64.toNat
      _ ≤ (offset 64 nextWord64 (last.toNat + 1) maxDraws g).1 := Nat.mod_le _ _
      _ ≤ last.toNat := Nat.le_of_lt_succ hlt

end Confluence.Generator
