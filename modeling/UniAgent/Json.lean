-- JSON values as the gateway holds them in memory: dictionaries with their key order, the
-- equality that Python's `==` decides on them, and the text that `json.dumps` writes.
import Mathlib.Algebra.Group.Int.Defs
import Mathlib.Algebra.GroupWithZero.Nat
import Mathlib.Data.List.Sort

namespace uni_agent

/-- A Python float, as the 64 bits of its double. -/
abbrev PyFloat := UInt64

/-- A value that `json.loads` can build. -/
inductive Json where
  | null
  | bool (b : Bool)
  | int (i : Int)
  | float (x : PyFloat)
  | str (s : String)
  | arr (xs : List Json)
  | obj (fields : List (String × Json))

/-- A Python dict with string keys, in insertion order. -/
abbrev Dict := List (String × Json)

namespace Dict

/-- `d.get(key)` -/
def get? (d : Dict) (key : String) : Option Json := d.lookup key

/-- `d.pop(key, None)`, for its effect on `d`. -/
def pop (d : Dict) (key : String) : Dict := d.filter (fun field => field.1 != key)

/-- `d[key] = value`: a key that is there keeps its place, a new key goes to the end. -/
def set (d : Dict) (key : String) (value : Json) : Dict :=
  if d.any (fun field => field.1 == key) then
    d.map (fun field => if field.1 == key then (key, value) else field)
  else d ++ [(key, value)]

end Dict

/-! ## Python's `==` -/

namespace PyFloat

def exponent (x : PyFloat) : Nat := (x >>> 52).toNat % 2048

def mantissa (x : PyFloat) : Nat := x.toNat % 2 ^ 52

def isNegative (x : PyFloat) : Bool := 2 ^ 63 ≤ x.toNat

def isFinite (x : PyFloat) : Bool := x.exponent != 2047

def isNan (x : PyFloat) : Bool := !x.isFinite && x.mantissa != 0

/-- The value of a finite double as a multiple of the least one, `2 ^ -1074`. -/
def scaled (x : PyFloat) : Int :=
  let magnitude : Nat :=
    if x.exponent = 0 then x.mantissa else (2 ^ 52 + x.mantissa) * 2 ^ (x.exponent - 1)
  if x.isNegative then -magnitude else magnitude

def eq (x y : PyFloat) : Bool :=
  if x.isFinite && y.isFinite then x.scaled == y.scaled else !x.isNan && x == y

def eqInt (x : PyFloat) (i : Int) : Bool := x.isFinite && x.scaled == i * 2 ^ 1074

end PyFloat

namespace Json

/-- A number as Python compares it: `True` and `False` are the integers 1 and 0. -/
def asNumber? : Json → Option (Int ⊕ PyFloat)
  | .bool b => some (.inl (if b then 1 else 0))
  | .int i => some (.inl i)
  | .float x => some (.inr x)
  | _ => none

def numberEq : Option (Int ⊕ PyFloat) → Option (Int ⊕ PyFloat) → Bool
  | some (.inl i), some (.inl j) => i == j
  | some (.inl i), some (.inr y) => y.eqInt i
  | some (.inr x), some (.inl j) => x.eqInt j
  | some (.inr x), some (.inr y) => x.eq y
  | _, _ => false

mutual

/-- `x == y` on JSON values: the key order of a dict does not count, and `1 == 1.0 == True`. -/
def pyEq : Json → Json → Bool
  | .null, .null => true
  | .str s, .str t => s == t
  | .arr xs, .arr ys => pyEqList xs ys
  | .obj fields, .obj others => fields.length == others.length && pyEqFields fields others
  | x, y => numberEq x.asNumber? y.asNumber?

def pyEqList : List Json → List Json → Bool
  | [], [] => true
  | x :: xs, y :: ys => pyEq x y && pyEqList xs ys
  | _, _ => false

def pyEqFields : List (String × Json) → List (String × Json) → Bool
  | [], _ => true
  | (key, x) :: rest, others =>
    (match others.lookup key with
      | some y => pyEq x y
      | none => false) && pyEqFields rest others

end

/-! ## `json.dumps` -/

def hexDigit (n : Nat) : Char := "0123456789abcdef".toList.getD n '0'

/-- The escape of one character in a JSON string, with `ensure_ascii=False`. -/
def escapeChar (c : Char) : List Char :=
  if c = '"' then ['\\', '"']
  else if c = '\\' then ['\\', '\\']
  else if c = '\n' then ['\\', 'n']
  else if c = '\r' then ['\\', 'r']
  else if c = '\t' then ['\\', 't']
  else if c.toNat = 8 then ['\\', 'b']
  else if c.toNat = 12 then ['\\', 'f']
  else if c.toNat < 32 then
    ['\\', 'u', '0', '0', hexDigit (c.toNat / 16), hexDigit (c.toNat % 16)]
  else [c]

def quoted (s : String) : String :=
  "\"" ++ String.ofList (s.toList.flatMap escapeChar) ++ "\""

mutual

/-- `json.dumps(value, sort_keys=True, separators=(",", ":"), ensure_ascii=False)`. Python's
text of a float is a parameter. -/
def dumps (floatRepr : PyFloat → String) : Json → String
  | .null => "null"
  | .bool true => "true"
  | .bool false => "false"
  | .int i => toString i
  | .float x => floatRepr x
  | .str s => quoted s
  | .arr xs => "[" ++ ",".intercalate (dumpsList floatRepr xs) ++ "]"
  | .obj fields =>
    "\x7b" ++ ",".intercalate (((dumpsFields floatRepr fields).insertionSort
      (fun x y => x.1 ≤ y.1)).map (fun field => quoted field.1 ++ ":" ++ field.2)) ++ "\x7d"

def dumpsList (floatRepr : PyFloat → String) : List Json → List String
  | [] => []
  | x :: xs => dumps floatRepr x :: dumpsList floatRepr xs

def dumpsFields (floatRepr : PyFloat → String) : List (String × Json) → List (String × String)
  | [] => []
  | (key, x) :: rest => (key, dumps floatRepr x) :: dumpsFields floatRepr rest

end

example : dumps (fun _ => "") (.obj [("b", .arr [.int 1, .null]), ("a", .str "x\"\n")]) =
    "\x7b\"a\":\"x\\\"\\n\",\"b\":[1,null]\x7d" := by decide +kernel

end Json

end uni_agent
