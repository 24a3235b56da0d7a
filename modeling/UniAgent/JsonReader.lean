-- The reader of JSON texts, as `json.loads` works: a value is read off the front of a list of
-- characters, and the whole text must be one value between spaces. A string with a lone
-- surrogate is no string of characters here, and is not read.
import UniAgent.Json

namespace uni_agent.Json

def isSpace (c : Char) : Bool := c == ' ' || c == '\t' || c == '\n' || c == '\r'

def skipSpace (cs : List Char) : List Char := cs.dropWhile isSpace

/-! ## Strings -/

def hexDigits : List Char := "0123456789abcdef".toList

/-- The value of one hexadecimal digit, of either case. -/
def hexValue? (c : Char) : Option Nat := hexDigits.findIdx? (fun d => d == c.toLower)

def readHex4 : List Char → Option (Nat × List Char)
  | a :: b :: c :: d :: rest => do
    return ((((← hexValue? a) * 16 + (← hexValue? b)) * 16 + (← hexValue? c)) * 16 +
      (← hexValue? d), rest)
  | _ => none

/-- What stands behind `\u`: one code unit, or a surrogate with its second half. -/
def readUnicode (cs : List Char) : Option (Char × List Char) := do
  let (code, rest) ← readHex4 cs
  if 0xd800 ≤ code ∧ code < 0xdc00 then
    match rest with
    | '\\' :: 'u' :: more => do
      let (low, rest) ← readHex4 more
      if 0xdc00 ≤ low ∧ low < 0xe000 then
        return (Char.ofNat (0x10000 + (code - 0xd800) * 0x400 + (low - 0xdc00)), rest)
      else none
    | _ => none
  else if 0xdc00 ≤ code ∧ code < 0xe000 then none
  else return (Char.ofNat code, rest)

def simpleEscapes : List (Char × Char) :=
  [('"', '"'), ('\\', '\\'), ('/', '/'), ('b', Char.ofNat 8), ('f', Char.ofNat 12), ('n', '\n'),
    ('r', '\r'), ('t', '\t')]

/-- What stands behind a backslash. -/
def readEscape : List Char → Option (Char × List Char)
  | [] => none
  | 'u' :: rest => readUnicode rest
  | e :: rest => (simpleEscapes.lookup e).map (fun c => (c, rest))

/-- The rest of a string, behind its first quotation mark. -/
def readString : Nat → List Char → Option (List Char × List Char)
  | 0, _ => none
  | _ + 1, [] => none
  | fuel + 1, c :: rest =>
    if c = '"' then some ([], rest)
    else if c = '\\' then do
      let (c, rest) ← readEscape rest
      let (text, rest) ← readString fuel rest
      return (c :: text, rest)
    else if c.toNat < 32 then none
    else do
      let (text, rest) ← readString fuel rest
      return (c :: text, rest)

/-! ## Numbers -/

def readDigits (cs : List Char) : List Char × List Char :=
  (cs.takeWhile Char.isDigit, cs.dropWhile Char.isDigit)

def readSign : List Char → List Char × List Char
  | '-' :: rest => (['-'], rest)
  | cs => ([], cs)

/-- `0`, or digits that start with another one. -/
def readWhole : List Char → List Char × List Char
  | '0' :: rest => (['0'], rest)
  | cs => readDigits cs

/-- A point and at least one digit, or nothing. -/
def readFraction : List Char → List Char × List Char
  | '.' :: rest =>
    let (digits, after) := readDigits rest
    if digits.isEmpty then ([], '.' :: rest) else ('.' :: digits, after)
  | cs => ([], cs)

def readExponentSign : List Char → List Char × List Char
  | '+' :: rest => (['+'], rest)
  | cs => readSign cs

def readExponent : List Char → List Char × List Char
  | [] => ([], [])
  | e :: rest =>
    if e = 'e' ∨ e = 'E' then
      let (sign, afterSign) := readExponentSign rest
      let (digits, after) := readDigits afterSign
      if digits.isEmpty then ([], e :: rest) else (e :: sign ++ digits, after)
    else ([], e :: rest)

def intOf (sign digits : List Char) : Int :=
  let n : Int := Nat.ofDigitChars 10 digits 0
  if sign.isEmpty then n else -n

/-- A number. Without a fraction and an exponent it is an `int`. -/
def readNumber (floatOf : String → PyFloat) (cs : List Char) : Option (Json × List Char) :=
  let (sign, afterSign) := readSign cs
  let (whole, afterWhole) := readWhole afterSign
  let (fraction, afterFraction) := readFraction afterWhole
  let (exponent, rest) := readExponent afterFraction
  if whole.isEmpty then none
  else if fraction.isEmpty && exponent.isEmpty then some (.int (intOf sign whole), rest)
  else some (.float (floatOf (String.ofList (sign ++ whole ++ fraction ++ exponent))), rest)

/-! ## Values -/

def nan : PyFloat := 0x7ff8000000000000

def infinity (isNegative : Bool) : PyFloat :=
  if isNegative then 0xfff0000000000000 else 0x7ff0000000000000

def words : List (String × Json) :=
  [("null", .null), ("true", .bool true), ("false", .bool false), ("NaN", .float nan),
    ("Infinity", .float (infinity false)), ("-Infinity", .float (infinity true))]

def readWord (cs : List Char) : Option (Json × List Char) :=
  words.findSome? (fun word =>
    if word.1.toList.isPrefixOf cs then some (word.2, cs.drop word.1.length) else none)

mutual

/-- One value. The dicts hold every pair that was read, in order. -/
def readValue (floatOf : String → PyFloat) : Nat → List Char → Option (Json × List Char)
  | 0, _ => none
  | fuel + 1, cs =>
    match skipSpace cs with
    | '"' :: rest => (readString fuel rest).map (fun read => (.str (String.ofList read.1), read.2))
    | '[' :: rest =>
      match skipSpace rest with
      | ']' :: rest => some (.arr [], rest)
      | rest => (readItems floatOf fuel rest).map (fun read => (.arr read.1, read.2))
    | '\x7b' :: rest =>
      match skipSpace rest with
      | '\x7d' :: rest => some (.obj [], rest)
      | rest => (readFields floatOf fuel rest).map (fun read => (.obj read.1, read.2))
    | rest => (readNumber floatOf rest).or (readWord rest)

/-- The rest of an array that is not empty. -/
def readItems (floatOf : String → PyFloat) : Nat → List Char → Option (List Json × List Char)
  | 0, _ => none
  | fuel + 1, cs => do
    let (value, rest) ← readValue floatOf fuel cs
    match skipSpace rest with
    | ']' :: rest => return ([value], rest)
    | ',' :: rest => do
      let (values, rest) ← readItems floatOf fuel rest
      return (value :: values, rest)
    | _ => none

/-- The rest of an object that is not empty. -/
def readFields (floatOf : String → PyFloat) : Nat → List Char → Option (Dict × List Char)
  | 0, _ => none
  | fuel + 1, cs => do
    match skipSpace cs with
    | '"' :: rest => do
      let (key, rest) ← readString fuel rest
      match skipSpace rest with
      | ':' :: rest => do
        let (value, rest) ← readValue floatOf fuel rest
        match skipSpace rest with
        | '\x7d' :: rest => return ([(String.ofList key, value)], rest)
        | ',' :: rest => do
          let (fields, rest) ← readFields floatOf fuel rest
          return ((String.ofList key, value) :: fields, rest)
        | _ => none
      | _ => none
    | _ => none

end

/-- A text that is one value, with enough fuel for its length. -/
def read (floatOf : String → PyFloat) (text : String) : Option Json :=
  match readValue floatOf (2 * text.length + 2) text.toList with
  | some (value, rest) => if (skipSpace rest).isEmpty then some value else none
  | none => none

mutual

/-- Of the pairs with one key a dict keeps the first place and the last value. -/
def lastWins : Json → Json
  | .arr xs => .arr (lastWinsList xs)
  | .obj fields => .obj
      ((lastWinsFields fields).foldl (fun d field => Dict.set d field.1 field.2) [])
  | value => value

def lastWinsList : List Json → List Json
  | [] => []
  | x :: rest => lastWins x :: lastWinsList rest

def lastWinsFields : Dict → Dict
  | [] => []
  | (key, x) :: rest => (key, lastWins x) :: lastWinsFields rest

end

/-- `json.loads(text)`, with `none` for a `JSONDecodeError`. `floatOf` is Python's `float` on the
text of a number. -/
def loads (floatOf : String → PyFloat) (text : String) : Option Json :=
  (read floatOf text).map lastWins

end uni_agent.Json
