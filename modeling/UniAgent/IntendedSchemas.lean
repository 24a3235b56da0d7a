-- What normalization is meant to do to a schema that pydantic emits, and when it does just that: a
-- keyword, the name of a parameter and a key in a default value are all keys of a dict to it.
import UniAgent.NormalSchemas

namespace uni_agent.tools

variable {fields variant : Dict} {key : String} {value j : Json}

/-! ## The roles of the values in a schema -/

/-- A schema, a dict of schemas by name, a list of schemas, or a value that is no schema. -/
inductive Role where
  | schema
  | members
  | variants
  | data
  deriving DecidableEq

/-- The role of what stands under a keyword. -/
def roleOf (key : String) : Role :=
  if ["properties", "$defs", "patternProperties"].contains key then .members
  else if ["items", "additionalProperties"].contains key then .schema
  else if ["anyOf", "oneOf", "allOf", "prefixItems"].contains key then .variants
  else .data

def childRole : Role → String → Role
  | .schema, key => roleOf key
  | .members, _ => .schema
  | .variants, _ | .data, _ => .data

def itemRole : Role → Role
  | .variants => .schema
  | .schema | .members | .data => .data

/-- What stays in a schema: a title is an annotation there, and a null default says nothing. -/
def staysInSchema (field : String × Json) : Bool :=
  field.1 != "title" && !(field.1 == "default" && isNone field.2)

/-- A schema with its optional `anyOf` collapsed. -/
def collapsed (fields : Dict) : Dict :=
  match fields.get? "anyOf" with
  | some (.arr variants) => collapseVariants variants fields
  | _ => fields

mutual

/-- What normalization is for: in a schema the title and a null default are dropped and an
optional `anyOf` is collapsed. The names of a dict of schemas stay, and so does every key of a
value that is no schema. The keys are ordered everywhere. -/
def intended : Role → Json → Json
  | role, .arr xs => .arr (intendedList (itemRole role) xs)
  | .schema, .obj fields =>
    .obj (ordered (collapsed ((intendedFields .schema fields).filter staysInSchema)))
  | role, .obj fields => .obj (ordered (intendedFields role fields))
  | _, value => value

def intendedList (role : Role) : List Json → List Json
  | [] => []
  | x :: xs => intended role x :: intendedList role xs

def intendedFields (role : Role) : Dict → Dict
  | [] => []
  | (key, value) :: fields =>
    (key, intended (childRole role key) value) :: intendedFields role fields

end

/-! ## The schemas that pydantic emits -/

/-- Every name that a schema requires is one of its properties. -/
def RequiredPresent (fields : Dict) : Prop :=
  ∀ names, fields.get? "required" = some (.arr names) →
    ∀ name ∈ names, ∃ text ∈ propertyNames fields, name = .str text

/-- One schema of those that pydantic emits: its title is a text, and what it requires is there.
Beside an `anyOf` stand only annotations, and what a variant has under one of their keys too is a
plain value. -/
structure EmittedNode (fields : Dict) : Prop where
  nodup : (fields.map Prod.fst).Nodup
  title : ∀ value, fields.get? "title" = some value → ∃ text, value = .str text
  data : ∀ field ∈ fields, roleOf field.1 = .data → UniqueKeys field.2
  members : ∀ field ∈ fields, roleOf field.1 = .members → ∃ members, field.2 = .obj members ∧
    (members.map Prod.fst).Nodup ∧ ∀ member ∈ members, ∃ inner, member.2 = .obj inner
  variants : ∀ field ∈ fields, roleOf field.1 = .variants → ∃ variants, field.2 = .arr variants
  required : RequiredPresent fields
  alone : ∀ value, fields.get? "anyOf" = some value → ∀ key ∈ fields.map Prod.fst,
    key ≠ "anyOf" → roleOf key = .data ∧ key ≠ "required"
  beside : ∀ variants, fields.get? "anyOf" = some (.arr variants) → ∀ variant ∈ variants,
    ∀ inner, intended .schema variant = .obj inner → ∀ field ∈ inner,
      field.1 ∈ fields.map Prod.fst → field.1 ≠ "anyOf" → Normal field.2

/-- The schemas that pydantic emits, of any names and any nesting. -/
inductive Emitted : Json → Prop
  | bool (b : Bool) : Emitted (.bool b)
  | node {fields : Dict} (hnode : EmittedNode fields)
      (hchildren : ∀ field ∈ fields, roleOf field.1 = .schema → Emitted field.2)
      (hmembers : ∀ field ∈ fields, roleOf field.1 = .members → ∀ members, field.2 = .obj members →
        ∀ member ∈ members, Emitted member.2)
      (hvariants : ∀ field ∈ fields, roleOf field.1 = .variants → ∀ variants,
        field.2 = .arr variants → ∀ variant ∈ variants, Emitted variant) :
      Emitted (.obj fields)

/-- A value that is no schema, and that normalization takes for none: no dict in it has a title, a
null default, or an `anyOf` that would be collapsed or refused. -/
inductive Plain : Json → Prop
  | null : Plain .null
  | bool (b : Bool) : Plain (.bool b)
  | int (i : Int) : Plain (.int i)
  | float (x : PyFloat) : Plain (.float x)
  | str (s : String) : Plain (.str s)
  | arr {xs : List Json} (h : ∀ x ∈ xs, Plain x) : Plain (.arr xs)
  | obj {fields : Dict} (htitle : fields.get? "title" = none)
      (hdefault : fields.get? "default" ≠ some .null) (hsettled : Settled fields)
      (h : ∀ field ∈ fields, Plain field.2) : Plain (.obj fields)

/-- No property at any level is named `title`, and every value that is no schema is plain. -/
inductive NamesKept : Json → Prop
  | bool (b : Bool) : NamesKept (.bool b)
  | node {fields : Dict}
      (hdata : ∀ field ∈ fields, roleOf field.1 = .data → Plain field.2)
      (hnames : ∀ field ∈ fields, roleOf field.1 = .members → ∀ members, field.2 = .obj members →
        Dict.get? members "title" = none)
      (hchildren : ∀ field ∈ fields, roleOf field.1 = .schema → NamesKept field.2)
      (hmembers : ∀ field ∈ fields, roleOf field.1 = .members → ∀ members, field.2 = .obj members →
        ∀ member ∈ members, NamesKept member.2)
      (hvariants : ∀ field ∈ fields, roleOf field.1 = .variants → ∀ variants,
        field.2 = .arr variants → ∀ variant ∈ variants, NamesKept variant) :
      NamesKept (.obj fields)

/-! ## Equations -/

theorem intendedList_eq (role : Role) (xs : List Json) :
    intendedList role xs = xs.map (intended role) := by
  induction xs with
  | nil => rfl
  | cons x xs ih => rw [intendedList, ih, List.map_cons]

theorem intendedFields_eq (role : Role) (fields : Dict) : intendedFields role fields =
    fields.map (fun field => (field.1, intended (childRole role field.1) field.2)) := by
  induction fields with
  | nil => rfl
  | cons field fields ih => rw [intendedFields, ih, List.map_cons]

theorem intended_arr (role : Role) (xs : List Json) :
    intended role (.arr xs) = .arr (xs.map (intended (itemRole role))) := by
  rw [intended, intendedList_eq]

theorem intended_obj {role : Role} (hrole : role ≠ .schema) (fields : Dict) :
    intended role (.obj fields) = .obj (ordered (intendedFields role fields)) := by
  cases role with
  | schema => exact absurd rfl hrole
  | members => rw [intended]; simp
  | variants => rw [intended]; simp
  | data => rw [intended]; simp

theorem keys_intendedFields (role : Role) (fields : Dict) :
    (intendedFields role fields).map Prod.fst = fields.map Prod.fst := by
  rw [intendedFields_eq, List.map_map]
  rfl

theorem get?_intendedFields (role : Role) (fields : Dict) (key : String) :
    Dict.get? (intendedFields role fields) key =
      (fields.get? key).map (intended (childRole role key)) := by
  unfold Dict.get?
  induction fields with
  | nil => rfl
  | cons field fields ih =>
    rw [intendedFields, List.lookup_cons, List.lookup_cons, ih]
    cases hkey : key == field.1 with
    | false => rfl
    | true =>
      rw [beq_iff_eq.mp hkey]
      rfl

theorem mem_intendedFields {role : Role} (h : (key, value) ∈ fields) :
    (key, intended (childRole role key) value) ∈ intendedFields role fields := by
  rw [intendedFields_eq]
  exact List.mem_map.mpr ⟨_, h, rfl⟩

/-- What is meant for a value has the same shape. -/
theorem intended_eq_null_iff (role : Role) : intended role value = .null ↔ value = .null := by
  cases value with
  | obj fields =>
    by_cases hrole : role = .schema
    · subst hrole
      simp [intended]
    · simp [intended_obj hrole]
  | _ => simp [intended]

theorem isNone_intended (role : Role) (value : Json) :
    isNone (intended role value) = isNone value := by
  rw [Bool.eq_iff_iff, isNone_iff, isNone_iff, intended_eq_null_iff]

/-! ## Values that are no schemas -/

theorem mem_ordered_intendedFields {role : Role} (hnodup : (fields.map Prod.fst).Nodup)
    (h : (key, value) ∈ fields) :
    (key, intended (childRole role key) value) ∈ ordered (intendedFields role fields) := by
  rw [mem_ordered (by rw [keys_intendedFields]; exact hnodup)]
  exact mem_intendedFields h

theorem dictLength_intended (hunique : UniqueKeys value) :
    dictLength (intended .data value) = dictLength value := by
  cases hunique with
  | obj hnodup _ =>
    rw [intended_obj (by decide)]
    have hkeys := keys_intendedFields .data
    have hperm := ordered_perm (hkeys _ ▸ hnodup)
    calc (ordered (intendedFields .data _)).length
        = (intendedFields .data _).length := hperm.length_eq
      _ = _ := by rw [intendedFields_eq, List.length_map]; rfl
  | _ => rfl

theorem isText_intended (value : Json) (text : String) :
    (intended .data value).isText text = value.isText text := by
  cases value with
  | obj fields =>
    rw [intended_obj (by decide)]
    rfl
  | _ => rfl

theorem isNullVariant_intended (hunique : UniqueKeys value) :
    isNullVariant (intended .data value) = isNullVariant value := by
  have hfield : hasField (intended .data value) "type" "null" = hasField value "type" "null" := by
    cases value with
    | obj fields =>
      rw [intended_obj (by decide)]
      unfold hasField
      dsimp only
      rw [get?_ordered, get?_intendedFields]
      cases Dict.get? fields "type" with
      | none => rfl
      | some type => exact isText_intended type "null"
    | _ => rfl
  rw [isNullVariant, isNullVariant, hfield, dictLength_intended hunique]

theorem intended_eq_obj (h : intended .data value = .obj variant) :
    ∃ inner, value = .obj inner := by
  cases value with
  | obj fields => exact ⟨fields, rfl⟩
  | _ => cases h

theorem filter_intended {xs : List Json} (hunique : ∀ x ∈ xs, UniqueKeys x) :
    (xs.map (intended .data)).filter (fun item => !isNullVariant item) =
      (xs.filter (fun item => !isNullVariant item)).map (intended .data) := by
  rw [List.filter_map]
  congr 1
  apply List.filter_congr
  intro x hx
  rw [Function.comp_apply, isNullVariant_intended (hunique x hx)]

theorem settled_intendedFields (hunique : ∀ field ∈ fields, UniqueKeys field.2) :
    Settled (intendedFields .data fields) ↔ Settled fields := by
  unfold Settled
  rw [get?_intendedFields]
  cases hget : fields.get? "anyOf" with
  | none => rfl
  | some value =>
    cases value with
    | arr xs =>
      have hxs : ∀ x ∈ xs, UniqueKeys x := by
        have harr := hunique _ (mem_of_get? hget)
        cases harr with
        | arr h => exact h
      rw [Option.map_some, intended_arr]
      dsimp only [childRole, itemRole]
      rw [filter_intended hxs]
      refine ⟨?_, ?_⟩
      · intro h inner hsingle
        rw [hsingle, List.map_singleton, intended_obj (by decide)] at h
        exact h _ rfl
      · intro h inner hsingle
        obtain ⟨value, hvalue, hinner⟩ := List.map_eq_singleton_iff.mp hsingle
        obtain ⟨old, rfl⟩ := intended_eq_obj hinner
        exact h old hvalue
    | obj members =>
      rw [Option.map_some, intended_obj (by decide)]
    | _ => rfl

/-- A plain value keeps everything, in the order of its keys. -/
theorem normalize_of_plain (hunique : UniqueKeys j) (hplain : Plain j) :
    normalizeJsonSchema j = .ok (intended .data j) := by
  induction hunique with
  | null => rfl
  | bool b => rfl
  | int i => rfl
  | float x => rfl
  | str s => rfl
  | @arr xs _ ih =>
    cases hplain with
    | arr hplain =>
      rw [normalizeJsonSchema,
        normalizeList_eq_ok (fun x hx => ih x hx (hplain x hx)), intended_arr]
      rfl
  | @obj fields hnodup hvalues ih =>
    cases hplain with
    | obj htitle hdefault hsettled hplain =>
      have hnormalized : normalizeFields fields = .ok (intendedFields .data fields) := by
        rw [intendedFields_eq]
        apply normalizeFields_of_kept hnodup htitle
        · intro value hget
          rw [isNone_intended]
          exact isNone_of_get?_ne hdefault hget
        · intro field hfield
          exact ih field hfield (hplain field hfield)
      rw [normalizeJsonSchema, hnormalized, intended_obj (by decide)]
      dsimp only [bind, Except.bind]
      rw [collapse_of_settled ((settled_intendedFields hvalues).mpr hsettled)]
      rfl

/-- A value that has the form of a normal one once its keys are ordered is plain. -/
theorem plain_of_normal (hunique : UniqueKeys j) (h : Normal (intended .data j)) : Plain j := by
  induction hunique with
  | null => exact .null
  | bool b => exact .bool b
  | int i => exact .int i
  | float x => exact .float x
  | str s => exact .str s
  | arr _ ih =>
    rw [intended_arr] at h
    apply Plain.arr
    intro x hx
    exact ih x hx (normal_of_mem_arr h _ (List.mem_map_of_mem hx))
  | @obj fields hnodup hvalues ih =>
    rw [intended_obj (by decide)] at h
    cases h with
    | obj hdict _ hnormal =>
      have htitle := hdict.title
      have hdefault := hdict.default
      have hsettled := hdict.settled
      rw [get?_ordered, get?_intendedFields, Option.map_eq_none_iff] at htitle
      rw [get?_ordered, get?_intendedFields] at hdefault
      rw [settled_congr (get?_ordered _ _), settled_intendedFields hvalues] at hsettled
      refine .obj htitle ?_ hsettled ?_
      · intro hnull
        rw [hnull] at hdefault
        exact hdefault rfl
      · rintro ⟨key, value⟩ hfield
        exact ih _ hfield (hnormal _ (mem_ordered_intendedFields hnodup hfield))

/-! ## Schemas -/

theorem roleOf_anyOf : roleOf "anyOf" = .variants := by decide

/-- The fields of a schema as they are meant, before its `anyOf` is collapsed. -/
def intendedNode (fields : Dict) : Dict := (intendedFields .schema fields).filter staysInSchema

theorem intended_schema (fields : Dict) :
    intended .schema (.obj fields) = .obj (ordered (collapsed (intendedNode fields))) := by
  rw [intended]
  rfl

theorem nodup_keys_intendedNode (h : (fields.map Prod.fst).Nodup) :
    ((intendedNode fields).map Prod.fst).Nodup :=
  nodup_keys_filter _ (keys_intendedFields .schema fields ▸ h)

theorem mem_intendedNode {item : Json} (h : (key, item) ∈ intendedNode fields) :
    staysInSchema (key, item) = true ∧
      ∃ value, (key, value) ∈ fields ∧ item = intended (roleOf key) value := by
  obtain ⟨hmem, hstays⟩ := List.mem_filter.mp h
  rw [intendedFields_eq] at hmem
  obtain ⟨⟨other, value⟩, hfield, hpair⟩ := List.mem_map.mp hmem
  obtain ⟨rfl, rfl⟩ := Prod.mk.inj hpair
  exact ⟨hstays, value, hfield, rfl⟩

theorem mem_intendedNode_of_mem (h : (key, value) ∈ fields)
    (hstays : staysInSchema (key, intended (roleOf key) value) = true) :
    (key, intended (roleOf key) value) ∈ intendedNode fields :=
  List.mem_filter.mpr ⟨mem_intendedFields h, hstays⟩

theorem staysInSchema_of_ne (htitle : key ≠ "title") (hdefault : key ≠ "default") (item : Json) :
    staysInSchema (key, item) = true := by
  rw [staysInSchema, Bool.and_eq_true, bne_iff_ne, Bool.not_eq_true', Bool.and_eq_false_iff]
  exact ⟨htitle, .inl (beq_eq_false_iff_ne.mpr hdefault)⟩

/-- A keyword that is neither `title` nor `default` is there as meant. -/
theorem get?_intendedNode (hnodup : (fields.map Prod.fst).Nodup) (htitle : key ≠ "title")
    (hdefault : key ≠ "default") :
    Dict.get? (intendedNode fields) key = (fields.get? key).map (intended (roleOf key)) := by
  cases hget : fields.get? key with
  | none =>
    rw [Option.map_none, get?_eq_none_iff]
    intro hmem
    obtain ⟨⟨other, item⟩, hitem, rfl⟩ := List.mem_map.mp hmem
    obtain ⟨-, value, hvalue, -⟩ := mem_intendedNode hitem
    rw [get?_of_mem hnodup hvalue] at hget
    cases hget
  | some value =>
    exact get?_of_mem (nodup_keys_intendedNode hnodup)
      (mem_intendedNode_of_mem (mem_of_get? hget) (staysInSchema_of_ne htitle hdefault _))

theorem get?_title_intendedNode (fields : Dict) :
    Dict.get? (intendedNode fields) "title" = none := by
  rw [get?_eq_none_iff]
  intro hmem
  obtain ⟨⟨key, item⟩, hitem, hkey⟩ := List.mem_map.mp hmem
  have hstays := (mem_intendedNode hitem).1
  rw [show key = "title" from hkey] at hstays
  cases hstays

theorem get?_default_intendedNode (fields : Dict) :
    Dict.get? (intendedNode fields) "default" ≠ some .null := by
  intro hget
  have hstays := (mem_intendedNode (mem_of_get? hget)).1
  cases hstays

/-- The `anyOf` of an emitted schema is a list, as meant too. -/
theorem anyOf_intendedNode (h : EmittedNode fields) {item : Json}
    (hget : Dict.get? (intendedNode fields) "anyOf" = some item) :
    ∃ variants, fields.get? "anyOf" = some (.arr variants) ∧
      item = .arr (variants.map (intended .schema)) := by
  rw [get?_intendedNode h.nodup (by decide) (by decide)] at hget
  obtain ⟨value, hvalue, rfl⟩ := Option.map_eq_some_iff.mp hget
  obtain ⟨variants, rfl⟩ := h.variants _ (mem_of_get? hvalue) roleOf_anyOf
  exact ⟨variants, hvalue, intended_arr _ _⟩

/-- The collapse of an emitted schema: its fields stay, or one variant takes the `anyOf`'s place. -/
theorem collapsed_cases (h : EmittedNode fields) :
    (Settled (intendedNode fields) ∧ collapsed (intendedNode fields) = intendedNode fields) ∨
      ∃ variants inner, fields.get? "anyOf" = some (.arr variants) ∧
        (variants.map (intended .schema)).filter (fun item => !isNullVariant item) = [.obj inner] ∧
        collapsed (intendedNode fields) = mergeVariant inner (intendedNode fields) := by
  unfold collapsed
  cases hget : Dict.get? (intendedNode fields) "anyOf" with
  | none =>
    refine .inl ⟨?_, rfl⟩
    unfold Settled
    rw [hget]
    trivial
  | some item =>
    obtain ⟨variants, hvariants, rfl⟩ := anyOf_intendedNode h hget
    by_cases hsingle : ∃ inner, (variants.map (intended .schema)).filter
        (fun item => !isNullVariant item) = [.obj inner]
    · obtain ⟨inner, hinner⟩ := hsingle
      exact .inr ⟨variants, inner, hvariants, hinner, collapseVariants_of_single hinner⟩
    · have hmany := not_exists.mp hsingle
      refine .inl ⟨?_, collapseVariants_of_ne hmany⟩
      unfold Settled
      rw [hget]
      exact hmany

theorem collapse_intendedNode (h : EmittedNode fields) :
    collapse (intendedNode fields) = .ok (collapsed (intendedNode fields)) := by
  unfold collapse collapsed
  cases hget : Dict.get? (intendedNode fields) "anyOf" with
  | none => rfl
  | some item =>
    obtain ⟨variants, -, rfl⟩ := anyOf_intendedNode h hget
    rfl

/-- The variant of a collapse comes from one of the variants. -/
theorem mem_of_collapse {variants : List Json} {inner : Dict}
    (h : (variants.map (intended .schema)).filter
        (fun item => !isNullVariant item) = [.obj inner]) :
    ∃ x ∈ variants, intended .schema x = .obj inner := by
  have hmem : Json.obj inner ∈
      (variants.map (intended .schema)).filter (fun item => !isNullVariant item) := by
    rw [h]
    exact List.mem_cons_self
  obtain ⟨x, hx, hinner⟩ := List.mem_map.mp (List.mem_filter.mp hmem).1
  exact ⟨x, hx, hinner⟩

/-- What is meant for a schema is a dict to leave as it is, but for its values. -/
theorem normalDict_intended (h : Emitted j) {result : Dict}
    (hresult : intended .schema j = .obj result) : NormalDict result ∧ ordered result = result := by
  induction h generalizing result with
  | bool b => cases hresult
  | @node fields hnode _ _ _ _ _ ihvariants =>
    rw [intended_schema] at hresult
    cases hresult
    refine ⟨?_, ordered_ordered _⟩
    apply normalDict_ordered
    have hnodup := nodup_keys_intendedNode hnode.nodup
    rcases collapsed_cases hnode with ⟨hsettled, hsame⟩ | ⟨variants, inner, hget, hsingle, hmerge⟩
    · rw [hsame]
      exact ⟨hnodup, get?_title_intendedNode fields, get?_default_intendedNode fields, hsettled⟩
    · rw [hmerge]
      obtain ⟨x, hx, hinner⟩ := mem_of_collapse hsingle
      apply normalDict_mergeVariant hnodup (get?_title_intendedNode fields)
        (get?_default_intendedNode fields)
      exact (ihvariants _ (mem_of_get? hget) roleOf_anyOf variants rfl x hx hinner).1

/-! ## When normalization does what is meant -/

/-- The names of a dict of schemas stay when none of them is `title`. -/
theorem normalize_members {members : Dict} (hnodup : (members.map Prod.fst).Nodup)
    (hobjects : ∀ member ∈ members, ∃ inner, member.2 = .obj inner)
    (htitle : members.get? "title" = none)
    (h : ∀ member ∈ members, normalizeJsonSchema member.2 = .ok (intended .schema member.2)) :
    normalizeJsonSchema (.obj members) = .ok (intended .members (.obj members)) := by
  have hobject : ∀ member ∈ members, ∃ inner, intended .schema member.2 = .obj inner := by
    intro member hmember
    obtain ⟨inner, hinner⟩ := hobjects member hmember
    rw [hinner, intended_schema]
    exact ⟨_, rfl⟩
  have hfields : normalizeFields members = .ok (intendedFields .members members) := by
    rw [intendedFields_eq]
    apply normalizeFields_of_kept hnodup htitle
    · intro value hget
      obtain ⟨inner, hinner⟩ := hobject _ (mem_of_get? hget)
      rw [show intended (childRole .members "default") value = .obj inner from hinner]
      rfl
    · exact h
  have hsettled : Settled (intendedFields .members members) := by
    unfold Settled
    rw [get?_intendedFields]
    cases hget : members.get? "anyOf" with
    | none => trivial
    | some value =>
      obtain ⟨inner, hinner⟩ := hobject _ (mem_of_get? hget)
      rw [Option.map_some]
      rw [show intended (childRole .members "anyOf") value = .obj inner from hinner]
      trivial
  rw [normalizeJsonSchema, hfields, intended_obj (by decide)]
  dsimp only [bind, Except.bind]
  rw [collapse_of_settled hsettled]
  rfl

/-- A schema that keeps its names is normalized as meant. -/
theorem normalize_of_namesKept (h : Emitted j) (hkept : NamesKept j) :
    normalizeJsonSchema j = .ok (intended .schema j) := by
  induction h with
  | bool b => rfl
  | @node fields hnode _ _ _ ihchildren ihmembers ihvariants =>
    cases hkept with
    | node hdata hnames hchildren hmembers hvariants =>
      have hvalues : ∀ field ∈ fields, normalizeJsonSchema field.2 =
          .ok (intended (roleOf field.1) field.2) := by
        rintro field hfield
        cases hrole : roleOf field.1 with
        | data =>
          exact normalize_of_plain (hnode.data field hfield hrole) (hdata field hfield hrole)
        | schema => exact ihchildren field hfield hrole (hchildren field hfield hrole)
        | members =>
          obtain ⟨members, hvalue, hnodup, hobjects⟩ := hnode.members field hfield hrole
          rw [hvalue]
          apply normalize_members hnodup hobjects (hnames field hfield hrole members hvalue)
          intro member hmember
          exact ihmembers field hfield hrole members hvalue member hmember
            (hmembers field hfield hrole members hvalue member hmember)
        | variants =>
          obtain ⟨variants, hvalue⟩ := hnode.variants field hfield hrole
          rw [hvalue, intended_arr, normalizeJsonSchema]
          have hlist : normalizeList variants = .ok (variants.map (intended .schema)) := by
            apply normalizeList_eq_ok
            intro x hx
            exact ihvariants field hfield hrole variants hvalue x hx
              (hvariants field hfield hrole variants hvalue x hx)
          rw [hlist]
          rfl
      have hfields : normalizeFields fields = .ok (intendedNode fields) := by
        rw [normalizeFields_eq_ok (fun field hfield _ => hvalues field hfield), intendedNode,
          intendedFields_eq, List.filter_map]
        rfl
      rw [normalizeJsonSchema, hfields, intended_schema]
      dsimp only [bind, Except.bind]
      rw [collapse_intendedNode hnode]
      rfl

/-! ## When what is meant is normal -/

theorem eq_of_isNullVariant {x : Json} (h : isNullVariant x = true) :
    x = .obj [("type", .str "null")] := by
  rw [isNullVariant, Bool.and_eq_true, beq_iff_eq] at h
  obtain ⟨htype, hlength⟩ := h
  cases x with
  | obj fields =>
    obtain ⟨⟨key, value⟩, rfl⟩ := List.length_eq_one_iff.mp hlength
    unfold hasField Dict.get? at htype
    dsimp only at htype
    rw [List.lookup_cons] at htype
    cases hkey : "type" == key with
    | false => rw [hkey] at htype; cases htype
    | true =>
      rw [hkey] at htype
      cases value with
      | str s => rw [← beq_iff_eq.mp hkey, show s = "null" from beq_iff_eq.mp htype]
      | _ => cases htype
  | _ => cases htype

theorem get?_nullVariant (h : key ≠ "type") : Dict.get? [("type", Json.str "null")] key = none := by
  rw [get?_eq_none_iff]
  simpa using h

theorem normal_of_isNullVariant {x : Json} (h : isNullVariant x = true) : Normal x := by
  rw [eq_of_isNullVariant h]
  refine .obj ⟨by simp, get?_nullVariant (by decide), ?_, ?_⟩ rfl ?_
  · rw [get?_nullVariant (by decide)]
    simp
  · unfold Settled
    rw [get?_nullVariant (by decide)]
    trivial
  · intro field hfield
    rw [List.mem_singleton.mp hfield]
    exact .str _

/-- The values of a schema that is normal as meant are normal as meant, also those that a collapse
leaves out. -/
theorem normal_of_normal_collapsed (hnode : EmittedNode fields)
    (hvariants : ∀ field ∈ fields, roleOf field.1 = .variants → ∀ variants,
      field.2 = .arr variants → ∀ variant ∈ variants, Emitted variant)
    (h : Normal (.obj (ordered (collapsed (intendedNode fields))))) :
    ∀ field ∈ intendedNode fields, Normal field.2 := by
  have hnodup := nodup_keys_intendedNode hnode.nodup
  cases h with
  | obj hdict _ hvalues =>
    have hat : ∀ key item, Dict.get? (collapsed (intendedNode fields)) key = some item →
        Normal item := by
      intro key item hget
      rw [← get?_ordered] at hget
      exact hvalues _ (mem_of_get? hget)
    rcases collapsed_cases hnode with ⟨-, hsame⟩ | ⟨variants, inner, hget, hsingle, hmerge⟩
    · rintro ⟨key, item⟩ hfield
      rw [hsame] at hat
      exact hat key item (get?_of_mem hnodup hfield)
    · rw [hmerge] at hat
      obtain ⟨x, hx, hinner⟩ := mem_of_collapse hsingle
      have hemitted := hvariants _ (mem_of_get? hget) roleOf_anyOf variants rfl x hx
      obtain ⟨hinnerDict, hinnerOrdered⟩ := normalDict_intended hemitted hinner
      have hchosen : Normal (.obj inner) := by
        apply Normal.obj hinnerDict hinnerOrdered
        rintro ⟨key, item⟩ hfield
        have hinnerGet := get?_of_mem hinnerDict.nodup hfield
        by_cases hanyOf : key = "anyOf"
        · subst hanyOf
          exact hat _ _ ((get?_mergeVariant_anyOf hnodup).trans hinnerGet)
        · by_cases hbeside : key ∈ fields.map Prod.fst
          · exact hnode.beside variants hget x hx inner hinner _ hfield hbeside hanyOf
          · have hnone : Dict.get? (intendedNode fields) key = none := by
              rw [get?_eq_none_iff]
              intro hmem
              obtain ⟨⟨other, old⟩, hold, rfl⟩ := List.mem_map.mp hmem
              obtain ⟨-, value, hvalue, -⟩ := mem_intendedNode hold
              exact hbeside (List.mem_map.mpr ⟨_, hvalue, rfl⟩)
            apply hat key
            rw [get?_mergeVariant hnodup hanyOf, hnone, Option.none_or]
            exact hinnerGet
      rintro ⟨key, item⟩ hfield
      have hfieldGet := get?_of_mem hnodup hfield
      by_cases hanyOf : key = "anyOf"
      · subst hanyOf
        obtain ⟨variants', hvariants', rfl⟩ := anyOf_intendedNode hnode hfieldGet
        rw [hget] at hvariants'
        cases hvariants'
        apply Normal.arr
        intro y hy
        by_cases hnull : isNullVariant y = true
        · exact normal_of_isNullVariant hnull
        · have hkept : y ∈ (variants.map (intended .schema)).filter
              (fun item => !isNullVariant item) := List.mem_filter.mpr ⟨hy, by simpa using hnull⟩
          rw [hsingle, List.mem_singleton] at hkept
          rw [hkept]
          exact hchosen
      · apply hat key
        rw [get?_mergeVariant hnodup hanyOf, hfieldGet]
        rfl

/-- A schema that is normal as meant keeps its names. -/
theorem namesKept_of_normal (h : Emitted j) (hnormal : Normal (intended .schema j)) :
    NamesKept j := by
  induction h with
  | bool b => exact .bool b
  | @node fields hnode _ _ hemitted ihchildren ihmembers ihvariants =>
    rw [intended_schema] at hnormal
    have hnodes := normal_of_normal_collapsed hnode hemitted hnormal
    have hvalue : ∀ field ∈ fields, field.1 ≠ "title" → field.1 ≠ "default" →
        Normal (intended (roleOf field.1) field.2) := by
      rintro ⟨key, value⟩ hfield htitle hdefault
      exact hnodes _ (mem_intendedNode_of_mem hfield (staysInSchema_of_ne htitle hdefault _))
    have hrole : ∀ field ∈ fields, roleOf field.1 ≠ .data →
        Normal (intended (roleOf field.1) field.2) := by
      intro field hfield hrole
      apply hvalue field hfield
      · intro htitle
        rw [htitle] at hrole
        exact hrole (by decide)
      · intro hdefault
        rw [hdefault] at hrole
        exact hrole (by decide)
    have hmembers : ∀ field ∈ fields, roleOf field.1 = .members → ∀ members,
        field.2 = .obj members → NormalDict (ordered (intendedFields .members members)) ∧
          ∀ member ∈ members, Normal (intended .schema member.2) := by
      intro field hfield hmember members hobj
      have hfieldNormal := hrole field hfield (by rw [hmember]; decide)
      obtain ⟨members', hobj', hnodup, -⟩ := hnode.members field hfield hmember
      rw [hobj] at hobj'
      cases hobj'
      rw [hmember, hobj, intended_obj (by decide)] at hfieldNormal
      cases hfieldNormal with
      | obj hdict _ hvalues =>
        refine ⟨hdict, ?_⟩
        rintro ⟨name, member⟩ hmem
        exact hvalues _ (mem_ordered_intendedFields hnodup hmem)
    refine .node ?_ ?_ ?_ ?_ ?_
    · rintro ⟨key, value⟩ hfield hdata
      have hunique := hnode.data _ hfield hdata
      by_cases htitle : key = "title"
      · obtain ⟨text, htext⟩ := hnode.title value (htitle ▸ get?_of_mem hnode.nodup hfield)
        rw [htext]
        exact .str text
      · by_cases hstays : staysInSchema (key, intended (roleOf key) value) = true
        · have hitem := hnodes _ (mem_intendedNode_of_mem hfield hstays)
          rw [hdata] at hitem
          exact plain_of_normal hunique hitem
        · rw [staysInSchema, isNone_intended, Bool.and_eq_true, not_and_or] at hstays
          rcases hstays with hstays | hstays
          · exact absurd (bne_iff_ne.mpr htitle) hstays
          · simp only [Bool.not_eq_true', Bool.not_eq_false, Bool.and_eq_true] at hstays
            rw [isNone_iff.mp hstays.2]
            exact .null
    · intro field hfield hmember members hobj
      have htitle := (hmembers field hfield hmember members hobj).1.title
      rw [get?_ordered, get?_intendedFields, Option.map_eq_none_iff] at htitle
      exact htitle
    · intro field hfield hschema
      have hitem := hrole field hfield (by rw [hschema]; decide)
      rw [hschema] at hitem
      exact ihchildren field hfield hschema hitem
    · intro field hfield hmember members hobj member hmem
      exact ihmembers field hfield hmember members hobj member hmem
        ((hmembers field hfield hmember members hobj).2 member hmem)
    · intro field hfield hvariant variants hobj x hx
      have hitem := hrole field hfield (by rw [hvariant]; decide)
      rw [hvariant, hobj, intended_arr] at hitem
      exact ihvariants field hfield hvariant variants hobj x hx
        (normal_of_mem_arr hitem _ (List.mem_map_of_mem hx))

end uni_agent.tools
