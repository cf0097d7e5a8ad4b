import Confluence.Json.Token

namespace Confluence.Json

/-- An array or object that is still open: the parts read so far, the newest first, and in an
object the key whose value comes next. -/
inductive Frame
  | array (done : List Json)
  | object (done : List (Option String × Json)) (key : Option String)

/-- The place in a document where the next token is read, and what is still open around it. -/
inductive Reading
  | value (frames : List Frame)
  | first (frames : List Frame)
  | firstKey (frames : List Frame)
  | key (done : List (Option String × Json)) (frames : List Frame)
  | colon (done : List (Option String × Json)) (key : Option String) (frames : List Frame)
  | after (value : Json) (frames : List Frame)

/-- An object from its fields, the newest first; without meaning if a key is. -/
def close (done : List (Option String × Json)) : Json :=
  match done.reverse.mapM fun f => f.1.map (·, f.2) with
  | some fields => .object fields
  | none => .garbled

namespace Reading

def start (frames : List Frame) : Token → Option Reading
  | .openBrace => some (.firstKey frames)
  | .openBracket => some (.first frames)
  | .null => some (.after .null frames)
  | .bool b => some (.after (.bool b) frames)
  | .number n => some (.after (.number n) frames)
  | .text (some s) => some (.after (.string s) frames)
  | .text none => some (.after .garbled frames)
  | _ => none

def step : Reading → Token → Option Reading
  | .value frames, t => start frames t
  | .first frames, .closeBracket => some (.after (.array []) frames)
  | .first frames, t => start (.array [] :: frames) t
  | .firstKey frames, .closeBrace => some (.after (.object []) frames)
  | .firstKey frames, .text k => some (.colon [] k frames)
  | .key done frames, .text k => some (.colon done k frames)
  | .colon done k frames, .colon => some (.value (.object done k :: frames))
  | .after v (.array done :: frames), .comma => some (.value (.array (v :: done) :: frames))
  | .after v (.array done :: frames), .closeBracket =>
    some (.after (.array (v :: done).reverse) frames)
  | .after v (.object done k :: frames), .comma => some (.key ((k, v) :: done) frames)
  | .after v (.object done k :: frames), .closeBrace => some (.after (close ((k, v) :: done)) frames)
  | _, _ => none

def result? : Reading → Option Json
  | .after v [] => some v
  | _ => none

end Reading

/-- Reads a document; nothing but blanks may stand around it. -/
def parseChars? (cs : List Char) : Option Json := do
  let tokens ← Token.scan? cs
  let reading ← tokens.foldlM Reading.step (.value [])
  reading.result?

def parse? (text : String) : Option Json := parseChars? text.toList

mutual

def tokens : Json → List Token
  | .null => [.null]
  | .bool b => [.bool b]
  | .number n => [.number n]
  | .string s => [.text (some s)]
  | .array [] => [.openBracket, .closeBracket]
  | .array (j :: rest) => .openBracket :: tokens j ++ itemTokens rest
  | .object [] => [.openBrace, .closeBrace]
  | .object ((k, j) :: rest) => .openBrace :: .text (some k) :: .colon :: tokens j ++ fieldTokens rest
  | .garbled => [.null]

/-- The tokens that follow the first item of an array. -/
def itemTokens : List Json → List Token
  | [] => [.closeBracket]
  | j :: rest => .comma :: tokens j ++ itemTokens rest

/-- The tokens that follow the first field of an object. -/
def fieldTokens : List (String × Json) → List Token
  | [] => [.closeBrace]
  | (k, j) :: rest => .comma :: .text (some k) :: .colon :: tokens j ++ fieldTokens rest

end

def render (j : Json) : String := String.ofList (j.tokens.flatMap Token.spell)

/-- What a byte that belongs to no character is read as: a character that starts no token and
follows no backslash, and a lone surrogate, which has no value. -/
def strayByte : List Char := ['\ufffd', '\\', 'u', 'd', 'f', 'f', 'f']

/-- The characters that the bytes from a position on encode in UTF-8. -/
def charsFrom (bytes : ByteArray) (i : Nat) : List Char :=
  if i < bytes.size then
    match bytes.utf8DecodeChar? i with
    | some c => c :: charsFrom bytes (i + c.utf8Size)
    | none => strayByte ++ charsFrom bytes (i + 1)
  else []
termination_by bytes.size - i
decreasing_by
  · have := Char.utf8Size_pos c
    omega
  · omega

def parseBytes? (bytes : ByteArray) : Option Json := parseChars? (charsFrom bytes 0)

end Confluence.Json
