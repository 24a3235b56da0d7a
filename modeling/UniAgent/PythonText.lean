-- What the provider adapters use of Python: the truth of a value, names of types, white space,
-- and the functions of its library that are left open.
import Mathlib.Data.List.DropRight
import UniAgent.Codec
import UniAgent.JsonRoundTrip

namespace uni_agent

/-! ## Dicts -/

theorem Dict.get?_append (d e : Dict) (key : String) :
    Dict.get? (d ++ e) key = (d.get? key).or (e.get? key) := by
  unfold Dict.get?
  induction d with
  | nil => rfl
  | cons field d ih =>
    rw [List.cons_append, List.lookup_cons, List.lookup_cons, ih]
    cases key == field.1 <;> rfl

theorem Dict.get?_set_self (d : Dict) (key : String) (value : Json) :
    (d.set key value).get? key = some value := by
  unfold Dict.set
  by_cases hany : d.any (fun field => field.1 == key) = true
  · rw [if_pos hany]
    unfold Dict.get?
    induction d with
    | nil => simp at hany
    | cons field d ih =>
      by_cases hfield : field.1 = key
      · simp [hfield]
      · have hkey : (key == field.1) = false := beq_eq_false_iff_ne.mpr (Ne.symm hfield)
        rw [List.any_cons, beq_eq_false_iff_ne.mpr hfield, Bool.false_or] at hany
        rw [List.map_cons, beq_eq_false_iff_ne.mpr hfield, if_neg (by simp), List.lookup_cons,
          hkey]
        exact ih hany
  · rw [if_neg hany, Dict.get?_append]
    have hnone : d.get? key = none := by
      unfold Dict.get?
      rw [List.lookup_eq_none_iff]
      intro field hfield
      rw [bne_iff_ne]
      rintro rfl
      exact hany (List.any_eq_true.mpr ⟨field, hfield, by simp⟩)
    rw [hnone]
    simp [Dict.get?]

theorem Dict.get?_set_ne (d : Dict) {key k : String} (hk : k ≠ key) (value : Json) :
    (d.set key value).get? k = d.get? k := by
  have hne : (k == key) = false := beq_eq_false_iff_ne.mpr hk
  unfold Dict.set
  split
  · rename_i hany
    clear hany
    unfold Dict.get?
    induction d with
    | nil => rfl
    | cons field d ih =>
      rw [List.map_cons, List.lookup_cons, List.lookup_cons, ih]
      by_cases hfield : field.1 = key
      · simp [hfield, hne]
      · simp [hfield]
  · rw [Dict.get?_append]
    simp [Dict.get?, List.lookup_cons, hne]

/-! ## Errors and the library -/

/-- `MalformedRequestError` -/
def malformedRequest (message : String) : PyError :=
  .otherException "MalformedRequestError" message

def PyError.isMalformedRequest : PyError → Bool
  | .otherException className _ => className == "MalformedRequestError"
  | _ => false

@[simp] theorem isMalformedRequest_malformedRequest (message : String) :
    (malformedRequest message).isMalformedRequest = true := by
  simp [malformedRequest, PyError.isMalformedRequest]

/-- How a call of `json.loads` ends. The third way is every exception that is no
`JSONDecodeError`, such as the plain `ValueError` for an integer of too many digits. -/
inductive Loaded where
  | value (v : Json)
  | decodeError
  | raised (e : PyError)

/-- `json.loads`, `repr` of a value that is no string, `copy.deepcopy`, and the random part of
an id of a tool use. -/
structure PythonLibrary where
  jsonLoads : String → Loaded
  repr : Json → String
  deepcopy : Json → Except PyError Json
  tokenHex : Nat → String

/-- `str(value)` -/
def PythonLibrary.str (py : PythonLibrary) : Json → String
  | .str text => text
  | value => py.repr value

namespace Json

/-- `bool(value)` -/
def truthy : Json → Bool
  | .null => false
  | .bool b => b
  | .int i => i != 0
  | .float x => !x.eqInt 0
  | .str text => text != ""
  | .arr items => !items.isEmpty
  | .obj fields => !fields.isEmpty

/-- `type(value).__name__` -/
def typeName : Json → String
  | .null => "NoneType"
  | .bool _ => "bool"
  | .int _ => "int"
  | .float _ => "float"
  | .str _ => "str"
  | .arr _ => "list"
  | .obj _ => "dict"

/-- `value is text`, for a value that may be no string. -/
def isText (value : Json) (text : String) : Bool :=
  match value with
  | .str s => s == text
  | _ => false

end Json

/-- `isinstance(entry, dict) and entry.get(key) == text` -/
def hasField (entry : Json) (key text : String) : Bool :=
  match entry with
  | .obj fields => (Dict.get? fields key).any (fun value => value.isText text)
  | _ => false

/-! ## White space -/

/-- `c.isspace()`, which is also `\s` in a pattern. -/
def isPySpace (c : Char) : Bool :=
  let n := c.toNat
  (9 ≤ n && n ≤ 13) || (28 ≤ n && n ≤ 32) || n == 133 || n == 160 || n == 5760 ||
    (8192 ≤ n && n ≤ 8202) || n == 8232 || n == 8233 || n == 8239 || n == 8287 || n == 12288

/-- `text.strip()` -/
def pyStrip (text : String) : String :=
  String.ofList ((text.toList.dropWhile isPySpace).rdropWhile isPySpace)

/-! ## A library -/

/-- The reader and the writer of JSON as the library, with a text for each float. -/
def plainPython : PythonLibrary where
  jsonLoads text := (Json.loads Json.floatOfBits text).elim .decodeError .value
  repr := Json.write ⟨", ", ": "⟩ Json.bitsText
  deepcopy := .ok
  tokenHex index := toString index

end uni_agent
