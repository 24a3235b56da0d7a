-- The schemas of the tools: `_normalize_json_schema` brings what pydantic emits into the shape
-- that tool runtimes expect, and the toolbox checks the arguments of a call against it.
import UniAgent.PythonText

namespace uni_agent.tools

/-! ## The variants of an `anyOf` -/

/-- What `for item in value` goes through. -/
def iterate : Json → Except PyError (List Json)
  | .arr xs => .ok xs
  | .obj fields => .ok (fields.map (fun field => .str field.1))
  | .str s => .ok (s.toList.map (fun c => .str (String.singleton c)))
  | .null => .error (.typeError "'NoneType' object is not iterable")
  | .bool _ => .error (.typeError "'bool' object is not iterable")
  | .int _ => .error (.typeError "'int' object is not iterable")
  | .float _ => .error (.typeError "'float' object is not iterable")

/-- `len(value)`, of a dict. -/
def dictLength : Json → Nat
  | .obj fields => fields.length
  | _ => 0

/-- `isinstance(item, dict) and item.get("type") == "null" and len(item) == 1` -/
def isNullVariant (item : Json) : Bool := hasField item "type" "null" && dictLength item == 1

/-- The variant, with everything that stands beside the `anyOf`. -/
def mergeVariant (variant normalized : Dict) : Dict :=
  (normalized.filter (fun field => field.1 != "anyOf")).foldl
    (fun merged field => merged.set field.1 field.2) variant

/-- An `anyOf` with one variant that is not null is that variant. -/
def collapseVariants (variants : List Json) (normalized : Dict) : Dict :=
  match variants.filter (fun item => !isNullVariant item) with
  | [.obj variant] => mergeVariant variant normalized
  | _ => normalized

def collapse (normalized : Dict) : Except PyError Dict :=
  match normalized.get? "anyOf" with
  | none => .ok normalized
  | some value => (iterate value).map (fun variants => collapseVariants variants normalized)

/-! ## The order of the keys -/

def preferredOrder : List String :=
  ["type", "description", "enum", "default", "items", "properties", "required"]

/-- The preferred keys in their order, and then the other keys as they come. -/
def ordered (normalized : Dict) : Dict :=
  preferredOrder.filterMap (fun key => (normalized.get? key).map (fun value => (key, value))) ++
    normalized.filter (fun field => !preferredOrder.contains field.1)

/-! ## The normalization -/

/-- `item is None` -/
def isNone : Json → Bool
  | .null => true
  | _ => false

mutual

/-- `_normalize_json_schema` -/
def normalizeJsonSchema : Json → Except PyError Json
  | .arr xs => do
    let items ← normalizeList xs
    return .arr items
  | .obj fields => do
    let normalized ← normalizeFields fields
    let normalized ← collapse normalized
    return .obj (ordered normalized)
  | value => .ok value

def normalizeList : List Json → Except PyError (List Json)
  | [] => .ok []
  | x :: xs => do
    let item ← normalizeJsonSchema x
    let items ← normalizeList xs
    return item :: items

def normalizeFields : Dict → Except PyError Dict
  | [] => .ok []
  | (key, value) :: fields =>
    if key = "title" then normalizeFields fields
    else do
      let item ← normalizeJsonSchema value
      let rest ← normalizeFields fields
      return if key = "default" ∧ isNone item then rest else (key, item) :: rest

end

/-- `build_function_schema`, of the schema of the model. -/
def buildFunctionSchema (name description : String) (modelSchema : Json) : Except PyError Dict := do
  let parameters ← normalizeJsonSchema modelSchema
  return [("type", .str "function"), ("function", .obj [("name", .str name),
    ("description", .str description), ("parameters", parameters)])]

/-! ## The arguments of a call -/

/-- `schema.get("properties", {})`, for the names in it. -/
def propertyNames (schema : Dict) : List String :=
  match schema.get? "properties" with
  | some (.obj members) => members.map Prod.fst
  | _ => []

def toolCallFormatError (message : String) : PyError :=
  .otherException "ToolCallFormatError" message

/-- `_validate_arguments`. The checks of the values, by the model and by the validator of the
schema, are a parameter. -/
def validateArguments (py : PythonLibrary) (toolName : String) (parameterSchema : Dict)
    (checkValues : Dict → Except PyError Dict) (arguments : Dict) : Except PyError Dict :=
  let allowed := propertyNames parameterSchema
  let unknown := (arguments.map Prod.fst).filter (fun name => !allowed.contains name)
  if unknown ≠ [] then
    .error (toolCallFormatError ("Invalid action: parameters " ++
      py.repr (.arr ((unknown.insertionSort (· ≤ ·)).map .str)) ++
      " are not defined for function " ++ py.repr (.str toolName) ++
      ".\nAllowed parameters should be one of: " ++
      py.repr (.arr ((allowed.insertionSort (· ≤ ·)).map .str)) ++ "."))
  else checkValues arguments

end uni_agent.tools
