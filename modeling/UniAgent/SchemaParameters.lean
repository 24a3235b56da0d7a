-- The parameters that a schema declares, at every level of its nesting, and when normalization
-- keeps all of them.
import UniAgent.IntendedSchemas

namespace uni_agent.tools

variable {fields variant node node' : Dict} {key name : String} {value j : Json}

/-! ## The places in a schema -/

/-- A step from a schema to one inside it. -/
inductive Step where
  | member (key name : String)
  | inside (key : String)

/-- The variants of an `anyOf` stand at the place of the schema itself. -/
def pathThrough (key : String) (path : List Step) : List Step :=
  if key = "anyOf" then path else .inside key :: path

/-- A schema has some keywords at a place. -/
inductive Reaches : Json → List Step → Dict → Prop
  | here (fields : Dict) : Reaches (.obj fields) [] fields
  | member {fields members node : Dict} {key name : String} {schema : Json} {path : List Step}
      (hrole : roleOf key = .members) (hmembers : fields.get? key = some (.obj members))
      (hschema : members.get? name = some schema) (h : Reaches schema path node) :
      Reaches (.obj fields) (.member key name :: path) node
  | child {fields node : Dict} {key : String} {schema : Json} {path : List Step}
      (hrole : roleOf key = .schema) (hschema : fields.get? key = some schema)
      (h : Reaches schema path node) : Reaches (.obj fields) (.inside key :: path) node
  | variant {fields node : Dict} {key : String} {variants : List Json} {x : Json}
      {path place : List Step} (hrole : roleOf key = .variants)
      (hvariants : fields.get? key = some (.arr variants)) (hx : x ∈ variants)
      (h : Reaches x path node) (hplace : place = pathThrough key path) :
      Reaches (.obj fields) place node

/-- A schema declares a property at a place. -/
def Declares (schema : Json) (path : List Step) (name : String) : Prop :=
  ∃ node, Reaches schema path node ∧ name ∈ propertyNames node

/-- Two sets of keywords say the same of their properties. -/
structure SameProperties (node node' : Dict) : Prop where
  names : ∀ name, name ∈ propertyNames node' ↔ name ∈ propertyNames node
  required : node'.get? "required" = (node.get? "required").map (intended .data)

theorem requiredPresent_of_same (h : SameProperties node node') (hpresent : RequiredPresent node) :
    RequiredPresent node' := by
  intro names hget name hname
  rw [h.required] at hget
  obtain ⟨value, hvalue, hmeant⟩ := Option.map_eq_some_iff.mp hget
  cases value with
  | arr old =>
    rw [intended_arr] at hmeant
    cases hmeant
    obtain ⟨item, hitem, rfl⟩ := List.mem_map.mp hname
    obtain ⟨text, htext, rfl⟩ := hpresent old hvalue item hitem
    exact ⟨text, (h.names text).mpr htext, rfl⟩
  | obj inner => rw [intended_obj (by decide)] at hmeant; cases hmeant
  | _ => cases hmeant

/-! ## A schema that does not collapse -/

theorem mem_propertyNames : name ∈ propertyNames fields ↔
    ∃ members, fields.get? "properties" = some (.obj members) ∧ name ∈ members.map Prod.fst := by
  unfold propertyNames
  refine ⟨?_, ?_⟩
  · intro h
    split at h
    · rename_i members hget
      exact ⟨members, hget, h⟩
    · cases h
  · rintro ⟨members, hget, hname⟩
    rw [hget]
    exact hname

theorem keys_ordered_intendedFields {members : Dict} (hnodup : (members.map Prod.fst).Nodup) :
    name ∈ (ordered (intendedFields .members members)).map Prod.fst ↔
      name ∈ members.map Prod.fst := by
  have hkeys := keys_intendedFields .members members
  rw [← hkeys] at hnodup ⊢
  exact ((ordered_perm hnodup).map Prod.fst).mem_iff

/-- Keywords under which stands what is meant for the old ones say the same. -/
theorem sameProperties_of_get? (hnode : EmittedNode fields) {result : Dict}
    (hproperties : result.get? "properties" = (fields.get? "properties").map (intended .members))
    (hrequired : result.get? "required" = (fields.get? "required").map (intended .data)) :
    SameProperties fields result where
  names := by
    intro name
    rw [mem_propertyNames, mem_propertyNames, hproperties]
    cases hget : fields.get? "properties" with
    | none => simp
    | some value =>
      obtain ⟨members, hmembers, hnodup, -⟩ := hnode.members _ (mem_of_get? hget)
        (show roleOf "properties" = .members by decide)
      have hvalue : value = .obj members := hmembers
      subst hvalue
      rw [Option.map_some, intended_obj (by decide)]
      simp only [Option.some.injEq, Json.obj.injEq, exists_eq_left']
      exact keys_ordered_intendedFields hnodup
  required := hrequired

/-! ## The places of what is meant -/

/-- The keywords that say where properties are, and which of them are required. -/
def Structural (key : String) : Prop := roleOf key ≠ .data ∨ key = "required"

theorem structural_of_role {role : Role} (hrole : roleOf key = role) (h : role ≠ .data) :
    Structural key := .inl (by rw [hrole]; exact h)

theorem ne_of_structural (h : Structural key) : key ≠ "title" ∧ key ≠ "default" := by
  refine ⟨?_, ?_⟩
  · rintro rfl
    rcases h with h | h
    · exact h (by decide)
    · exact absurd h (by decide)
  · rintro rfl
    rcases h with h | h
    · exact h (by decide)
    · exact absurd h (by decide)

/-- Without a collapse such a keyword has what is meant for its old value. -/
theorem get?_of_settled (hnode : EmittedNode fields)
    (hsame : collapsed (intendedNode fields) = intendedNode fields) (hkey : Structural key) :
    Dict.get? (ordered (collapsed (intendedNode fields))) key =
      (fields.get? key).map (intended (roleOf key)) := by
  obtain ⟨htitle, hdefault⟩ := ne_of_structural hkey
  rw [get?_ordered, hsame, get?_intendedNode hnode.nodup htitle hdefault]

/-- After a collapse such a keyword comes from the variant alone. -/
theorem get?_of_collapse (hnode : EmittedNode fields) {item : Json}
    (hanyOf : fields.get? "anyOf" = some item) (inner : Dict) (key : String)
    (hkey : Structural key) :
    Dict.get? (ordered (mergeVariant inner (intendedNode fields))) key = inner.get? key := by
  have hnodup := nodup_keys_intendedNode hnode.nodup
  rw [get?_ordered]
  by_cases hkeyAnyOf : key = "anyOf"
  · subst hkeyAnyOf
    exact get?_mergeVariant_anyOf hnodup
  · have habsent : Dict.get? (intendedNode fields) key = none := by
      rw [get?_eq_none_iff]
      intro hmem
      obtain ⟨⟨other, old⟩, hold, rfl⟩ := List.mem_map.mp hmem
      obtain ⟨-, value, hvalue, -⟩ := mem_intendedNode hold
      have halone := hnode.alone item hanyOf _ (List.mem_map.mpr ⟨_, hvalue, rfl⟩) hkeyAnyOf
      rcases hkey with hkey | hkey
      · exact hkey halone.1
      · exact halone.2 hkey
    rw [get?_mergeVariant hnodup hkeyAnyOf, habsent, Option.none_or]

/-- Keywords that take the same schemas reach the same places. -/
theorem reaches_congr {other : Dict} {path : List Step}
    (hget : ∀ key, roleOf key ≠ .data → fields.get? key = other.get? key)
    (h : Reaches (.obj fields) path node) :
    (path = [] ∧ node = fields) ∨ Reaches (.obj other) path node := by
  cases h with
  | here => exact .inl ⟨rfl, rfl⟩
  | member hrole hmembers hschema h =>
    rw [hget _ (by rw [hrole]; decide)] at hmembers
    exact .inr (.member hrole hmembers hschema h)
  | child hrole hschema h =>
    rw [hget _ (by rw [hrole]; decide)] at hschema
    exact .inr (.child hrole hschema h)
  | variant hrole hvariants hx h hplace =>
    rw [hget _ (by rw [hrole]; decide)] at hvariants
    exact .inr (.variant hrole hvariants hx h hplace)

theorem intended_members_eq {members result : Dict}
    (h : intended .members (.obj members) = .obj result) (name : String) :
    result.get? name = (members.get? name).map (intended .schema) := by
  rw [intended_obj (by decide)] at h
  cases h
  rw [get?_ordered, get?_intendedFields]
  rfl

/-- Every place of what is meant for a schema is a place of the schema, with the same properties. -/
theorem reaches_of_intended (h : Emitted j) {path : List Step}
    (hreaches : Reaches (intended .schema j) path node') :
    ∃ node, Reaches j path node ∧ EmittedNode node ∧ SameProperties node node' := by
  induction h generalizing path node' with
  | bool b => cases hreaches
  | @node fields hnode _ _ _ ihchildren ihmembers ihvariants =>
    rw [intended_schema] at hreaches
    rcases collapsed_cases hnode with ⟨-, hsame⟩ | ⟨variants, inner, hget, hsingle, hmerge⟩
    · cases hreaches with
      | here =>
        refine ⟨fields, .here fields, hnode, ?_⟩
        exact sameProperties_of_get? hnode (get?_of_settled hnode hsame (.inl (by decide)))
          (get?_of_settled hnode hsame (.inr rfl))
      | @member _ members' _ key name schema path hrole hmembers hschema h =>
        rw [get?_of_settled hnode hsame (structural_of_role hrole (by decide))] at hmembers
        obtain ⟨value, hvalue, hmeant⟩ := Option.map_eq_some_iff.mp hmembers
        obtain ⟨members, rfl, -⟩ := hnode.members _ (mem_of_get? hvalue) hrole
        rw [hrole] at hmeant
        rw [intended_members_eq hmeant] at hschema
        obtain ⟨old, hold, rfl⟩ := Option.map_eq_some_iff.mp hschema
        obtain ⟨node, hnodeReached, hemitted, hproperties⟩ :=
          ihmembers _ (mem_of_get? hvalue) hrole members rfl _ (mem_of_get? hold) h
        exact ⟨node, .member hrole hvalue hold hnodeReached, hemitted, hproperties⟩
      | @child _ _ key schema path hrole hschema h =>
        rw [get?_of_settled hnode hsame (structural_of_role hrole (by decide))] at hschema
        obtain ⟨old, hold, rfl⟩ := Option.map_eq_some_iff.mp hschema
        rw [hrole] at h
        obtain ⟨node, hnodeReached, hemitted, hproperties⟩ :=
          ihchildren _ (mem_of_get? hold) hrole h
        exact ⟨node, .child hrole hold hnodeReached, hemitted, hproperties⟩
      | @variant _ _ key variants' x path _ hrole hvariants hx h hplace =>
        rw [get?_of_settled hnode hsame (structural_of_role hrole (by decide))] at hvariants
        obtain ⟨value, hvalue, hmeant⟩ := Option.map_eq_some_iff.mp hvariants
        obtain ⟨variants, rfl⟩ := hnode.variants _ (mem_of_get? hvalue) hrole
        rw [hrole, intended_arr] at hmeant
        cases hmeant
        obtain ⟨old, hold, rfl⟩ := List.mem_map.mp hx
        obtain ⟨node, hnodeReached, hemitted, hproperties⟩ :=
          ihvariants _ (mem_of_get? hvalue) hrole variants rfl old hold h
        exact ⟨node, .variant hrole hvalue hold hnodeReached hplace, hemitted, hproperties⟩
    · have hat := get?_of_collapse hnode hget inner
      obtain ⟨x, hx, hinner⟩ := mem_of_collapse hsingle
      have hx' : ∀ path node', Reaches (.obj inner) path node' →
          ∃ node, Reaches x path node ∧ EmittedNode node ∧ SameProperties node node' := by
        intro path node' hreached
        rw [← hinner] at hreached
        exact ihvariants _ (mem_of_get? hget) roleOf_anyOf variants rfl x hx hreached
      rw [hmerge] at hreaches
      rcases reaches_congr (fun key hkey => hat key (.inl hkey)) hreaches with
        ⟨rfl, rfl⟩ | hreached
      · obtain ⟨node, hnodeReached, hemitted, hproperties⟩ := hx' _ _ (.here inner)
        refine ⟨node, .variant roleOf_anyOf hget hx hnodeReached rfl, hemitted, ?_, ?_⟩
        · intro name
          rw [← hproperties.names name, mem_propertyNames, mem_propertyNames,
            hat "properties" (.inl (by decide))]
        · rw [hat "required" (.inr rfl)]
          exact hproperties.required
      · obtain ⟨node, hnodeReached, hemitted, hproperties⟩ := hx' _ _ hreached
        exact ⟨node, .variant roleOf_anyOf hget hx hnodeReached rfl, hemitted, hproperties⟩

theorem not_mem_of_isNullVariant {x : Json} (hnull : isNullVariant x = true) {path : List Step}
    (h : Reaches x path node) : name ∉ propertyNames node := by
  rw [eq_of_isNullVariant hnull] at h
  have hnone : ∀ key, roleOf key ≠ .data → Dict.get? [("type", Json.str "null")] key = none := by
    intro key hkey
    apply get?_nullVariant
    rintro rfl
    exact hkey (by decide)
  cases h with
  | here =>
    rw [mem_propertyNames]
    rintro ⟨members, hget, -⟩
    rw [hnone "properties" (by decide)] at hget
    cases hget
  | member hrole hmembers _ _ =>
    rw [hnone _ (by rw [hrole]; decide)] at hmembers
    cases hmembers
  | child hrole hschema _ =>
    rw [hnone _ (by rw [hrole]; decide)] at hschema
    cases hschema
  | variant hrole hvariants _ _ _ =>
    rw [hnone _ (by rw [hrole]; decide)] at hvariants
    cases hvariants

/-- Every property of a schema is at the same place in what is meant for it. -/
theorem declares_intended (h : Emitted j) {path : List Step} (hreaches : Reaches j path node)
    (hname : name ∈ propertyNames node) : Declares (intended .schema j) path name := by
  induction h generalizing path node with
  | bool b => cases hreaches
  | @node fields hnode _ _ _ ihchildren ihmembers ihvariants =>
    rw [intended_schema]
    rcases collapsed_cases hnode with ⟨-, hsame⟩ | ⟨variants, inner, hget, hsingle, hmerge⟩
    · cases hreaches with
      | here =>
        refine ⟨_, .here _, ?_⟩
        have hproperties := sameProperties_of_get? hnode
          (get?_of_settled hnode hsame (.inl (by decide)))
          (get?_of_settled hnode hsame (.inr rfl))
        exact (hproperties.names name).mpr hname
      | @member _ members _ key step schema path hrole hmembers hschema h =>
        obtain ⟨node', hreached, hname'⟩ :=
          ihmembers _ (mem_of_get? hmembers) hrole members rfl _ (mem_of_get? hschema) h hname
        have hmeant := get?_of_settled hnode hsame (structural_of_role hrole (by decide))
        rw [hmembers, Option.map_some, hrole, intended_obj (by decide)] at hmeant
        refine ⟨node', .member hrole hmeant ?_ hreached, hname'⟩
        rw [get?_ordered, get?_intendedFields, hschema]
        rfl
      | @child _ _ key schema path hrole hschema h =>
        obtain ⟨node', hreached, hname'⟩ := ihchildren _ (mem_of_get? hschema) hrole h hname
        have hmeant := get?_of_settled hnode hsame (structural_of_role hrole (by decide))
        rw [hschema, Option.map_some, hrole] at hmeant
        exact ⟨node', .child hrole hmeant hreached, hname'⟩
      | @variant _ _ key variants x path _ hrole hvariants hx h hplace =>
        obtain ⟨node', hreached, hname'⟩ :=
          ihvariants _ (mem_of_get? hvariants) hrole variants rfl x hx h hname
        have hmeant := get?_of_settled hnode hsame (structural_of_role hrole (by decide))
        rw [hvariants, Option.map_some, hrole, intended_arr] at hmeant
        exact ⟨node', .variant hrole hmeant (List.mem_map_of_mem hx) hreached hplace, hname'⟩
    · -- beside an `anyOf` no keyword takes schemas, so the place is in a variant
      have halone : ∀ key item, fields.get? key = some item → roleOf key ≠ .data →
          key = "anyOf" := by
        intro key item hitem hrole
        by_contra hkey
        exact hrole (hnode.alone _ hget key
          (List.mem_map.mpr ⟨_, mem_of_get? hitem, rfl⟩) hkey).1
      have hat := get?_of_collapse hnode hget inner
      rw [hmerge]
      cases hreaches with
      | here =>
        obtain ⟨members, hmembers, -⟩ := mem_propertyNames.mp hname
        exact absurd (halone _ _ hmembers (by decide)) (by decide)
      | member hrole hmembers _ _ =>
        have hkey := halone _ _ hmembers (by rw [hrole]; decide)
        rw [hkey, roleOf_anyOf] at hrole
        cases hrole
      | child hrole hschema _ =>
        have hkey := halone _ _ hschema (by rw [hrole]; decide)
        rw [hkey, roleOf_anyOf] at hrole
        cases hrole
      | @variant _ _ key variants' x path _ hrole hvariants hx h hplace =>
        have hkey := halone _ _ hvariants (by rw [hrole]; decide)
        subst hkey
        rw [hget] at hvariants
        cases hvariants
        have hplace' : _ = path := hplace
        rw [hplace']
        obtain ⟨node', hreached, hname'⟩ :=
          ihvariants _ (mem_of_get? hget) roleOf_anyOf variants rfl x hx h hname
        by_cases hnull : isNullVariant (intended .schema x) = true
        · exact absurd hname' (not_mem_of_isNullVariant hnull hreached)
        · have hkept : intended .schema x ∈ (variants.map (intended .schema)).filter
              (fun item => !isNullVariant item) :=
            List.mem_filter.mpr ⟨List.mem_map_of_mem hx, by simpa using hnull⟩
          rw [hsingle, List.mem_singleton] at hkept
          rw [hkept] at hreached
          rcases reaches_congr (fun key hkey => (hat key (.inl hkey)).symm) hreached with
            ⟨rfl, rfl⟩ | hreached
          · refine ⟨_, .here _, ?_⟩
            rw [mem_propertyNames, hat "properties" (.inl (by decide)), ← mem_propertyNames]
            exact hname'
          · exact ⟨node', hreached, hname'⟩

/-! ## The law -/

theorem uniqueKeys_of_emitted (h : Emitted j) : UniqueKeys j := by
  induction h with
  | bool b => exact .bool b
  | @node fields hnode _ _ _ ihchildren ihmembers ihvariants =>
    apply UniqueKeys.obj hnode.nodup
    intro field hfield
    cases hrole : roleOf field.1 with
    | data => exact hnode.data field hfield hrole
    | schema => exact ihchildren field hfield hrole
    | members =>
      obtain ⟨members, hvalue, hnodup, -⟩ := hnode.members field hfield hrole
      rw [hvalue]
      exact .obj hnodup (ihmembers field hfield hrole members hvalue)
    | variants =>
      obtain ⟨variants, hvalue⟩ := hnode.variants field hfield hrole
      rw [hvalue]
      exact .arr (ihvariants field hfield hrole variants hvalue)

/-- What a normalized schema keeps of an object model: it differs only as meant, it declares the
same properties at every place, each schema in it has what it requires, no argument under a
declared name is unknown, and to normalize it again changes nothing. -/
structure KeepsParameters (fields result : Dict) : Prop where
  meant : .obj result = intended .schema (.obj fields)
  names : ∀ path name, Declares (.obj result) path name ↔ Declares (.obj fields) path name
  required : ∀ path node, Reaches (.obj result) path node → RequiredPresent node
  arguments : ∀ py toolName checkValues arguments,
    (∀ argument ∈ arguments, argument.1 ∈ propertyNames fields) →
      validateArguments py toolName result checkValues arguments = checkValues arguments
  again : normalizeJsonSchema (.obj result) = .ok (.obj result)

theorem validateArguments_of_known {result arguments : Dict} (py : PythonLibrary)
    (toolName : String) (checkValues : Dict → Except PyError Dict)
    (h : ∀ argument ∈ arguments, argument.1 ∈ propertyNames result) :
    validateArguments py toolName result checkValues arguments = checkValues arguments := by
  have hknown : (arguments.map Prod.fst).filter
      (fun name => !(propertyNames result).contains name) = [] := by
    rw [List.filter_eq_nil_iff]
    intro name hname
    obtain ⟨argument, hargument, rfl⟩ := List.mem_map.mp hname
    simp [h argument hargument]
  unfold validateArguments
  dsimp only
  rw [hknown]
  exact if_neg (fun hne => hne rfl)

/-- The properties of an object model are those of what is meant for it. -/
theorem propertyNames_intended (h : Emitted (.obj fields)) {members : Dict}
    (hobject : fields.get? "properties" = some (.obj members)) {result : Dict}
    (hresult : .obj result = intended .schema (.obj fields)) (name : String) :
    name ∈ propertyNames result ↔ name ∈ propertyNames fields := by
  cases h with
  | node hnode _ _ _ =>
    rw [intended_schema, Json.obj.injEq] at hresult
    rcases collapsed_cases hnode with ⟨-, hsame⟩ | ⟨variants, inner, hget, -, -⟩
    · subst hresult
      exact (sameProperties_of_get? hnode (get?_of_settled hnode hsame (.inl (by decide)))
        (get?_of_settled hnode hsame (.inr rfl))).names name
    · have halone := hnode.alone _ hget "properties"
        (List.mem_map.mpr ⟨_, mem_of_get? hobject, rfl⟩) (by decide)
      exact absurd halone.1 (by decide)

/-- What is meant for an object model keeps its parameters, when normalization gives it. -/
theorem keepsParameters_of_meant (h : Emitted (.obj fields)) {members result : Dict}
    (hobject : fields.get? "properties" = some (.obj members))
    (hresult : .obj result = intended .schema (.obj fields))
    (hnormalized : normalizeJsonSchema (.obj fields) = .ok (.obj result)) :
    KeepsParameters fields result where
  meant := hresult
  names := by
    intro path name
    refine ⟨?_, ?_⟩
    · rintro ⟨node', hreached, hname⟩
      obtain ⟨node, hnode, -, hsame⟩ := reaches_of_intended h (hresult ▸ hreached)
      exact ⟨node, hnode, (hsame.names name).mp hname⟩
    · rintro ⟨node, hreached, hname⟩
      rw [hresult]
      exact declares_intended h hreached hname
  required := by
    intro path node' hreached
    obtain ⟨node, -, hemitted, hsame⟩ := reaches_of_intended h (hresult ▸ hreached)
    exact requiredPresent_of_same hsame hemitted.required
  arguments := by
    intro py toolName checkValues arguments hknown
    apply validateArguments_of_known
    intro argument hargument
    exact (propertyNames_intended h hobject hresult argument.1).mpr (hknown argument hargument)
  again := normalize_idempotent (uniqueKeys_of_emitted h) hnormalized

theorem keepsParameters_of_namesKept (h : Emitted (.obj fields)) {members : Dict}
    (hobject : fields.get? "properties" = some (.obj members)) (hkept : NamesKept (.obj fields)) :
    ∃ result, normalizeJsonSchema (.obj fields) = .ok (.obj result) ∧
      KeepsParameters fields result := by
  have hnormalized := normalize_of_namesKept h hkept
  obtain ⟨result, hresult⟩ : ∃ result, intended .schema (.obj fields) = .obj result := by
    rw [intended_schema]
    exact ⟨_, rfl⟩
  rw [hresult] at hnormalized
  exact ⟨result, hnormalized, keepsParameters_of_meant h hobject hresult.symm hnormalized⟩

/-- The published schema of such a tool has the parameters of its model. -/
theorem buildFunctionSchema_of_namesKept (h : Emitted (.obj fields)) {members : Dict}
    (hobject : fields.get? "properties" = some (.obj members)) (hkept : NamesKept (.obj fields))
    (name description : String) :
    ∃ parameters, buildFunctionSchema name description (.obj fields) =
        .ok [("type", .str "function"), ("function", .obj [("name", .str name),
          ("description", .str description), ("parameters", .obj parameters)])] ∧
      KeepsParameters fields parameters := by
  obtain ⟨parameters, hnormalized, hkeeps⟩ := keepsParameters_of_namesKept h hobject hkept
  refine ⟨parameters, ?_, hkeeps⟩
  unfold buildFunctionSchema
  rw [hnormalized]
  rfl

/-- Normalization keeps every parameter of an object model exactly when no property at any level
is named `title` and no other value in it is taken for a schema. -/
theorem normalization_keeps_parameters_iff {members : Dict} (h : Emitted (.obj fields))
    (hobject : fields.get? "properties" = some (.obj members)) :
    (∃ result, normalizeJsonSchema (.obj fields) = .ok (.obj result) ∧
      KeepsParameters fields result) ↔ NamesKept (.obj fields) := by
  refine ⟨?_, ?_⟩
  · rintro ⟨result, hnormalized, hkeeps⟩
    apply namesKept_of_normal h
    rw [← hkeeps.meant]
    exact normal_of_normalize (uniqueKeys_of_emitted h) hnormalized
  · intro hkept
    exact keepsParameters_of_namesKept h hobject hkept

/-! ## Two models -/

/-- A schema with no schema inside it. -/
theorem emitted_of_data (hnodup : (fields.map Prod.fst).Nodup)
    (htitle : ∀ value, fields.get? "title" = some value → ∃ text, value = .str text)
    (hrequired : fields.get? "required" = none)
    (hdata : ∀ field ∈ fields, roleOf field.1 = .data ∧ UniqueKeys field.2) :
    Emitted (.obj fields) := by
  have hrole : ∀ field ∈ fields, ∀ role, roleOf field.1 = role → role ≠ .data → False := by
    intro field hfield role hfieldRole hne
    exact hne (hfieldRole.symm.trans (hdata field hfield).1)
  have hanyOf : fields.get? "anyOf" = none := by
    rw [get?_eq_none_iff]
    intro hmem
    obtain ⟨field, hfield, hkey⟩ := List.mem_map.mp hmem
    exact hrole field hfield .variants (by rw [hkey]; exact roleOf_anyOf) (by decide)
  refine .node ⟨hnodup, htitle, fun field hfield _ => (hdata field hfield).2, ?_, ?_, ?_, ?_, ?_⟩
    ?_ ?_ ?_
  · intro field hfield hmembers
    exact (hrole field hfield _ hmembers (by decide)).elim
  · intro field hfield hvariants
    exact (hrole field hfield _ hvariants (by decide)).elim
  · intro names hget
    rw [hrequired] at hget
    cases hget
  · intro value hget
    rw [hanyOf] at hget
    cases hget
  · intro variants hget
    rw [hanyOf] at hget
    cases hget
  · intro field hfield hschema
    exact (hrole field hfield _ hschema (by decide)).elim
  · intro field hfield hmembers
    exact (hrole field hfield _ hmembers (by decide)).elim
  · intro field hfield hvariants
    exact (hrole field hfield _ hvariants (by decide)).elim

/-- The schema of a text parameter, as pydantic titles it. -/
def textParameter (title : String) : Json := .obj [("title", .str title), ("type", .str "string")]

theorem emitted_textParameter (title : String) : Emitted (textParameter title) := by
  apply emitted_of_data
  · simp
  · intro value hget
    cases hget
    exact ⟨title, rfl⟩
  · rfl
  · intro field hfield
    rcases List.mem_cons.mp hfield with rfl | hfield
    · exact ⟨show roleOf "title" = .data by decide, .str _⟩
    · rw [List.mem_singleton.mp hfield]
      exact ⟨show roleOf "type" = .data by decide, .str _⟩

/-- The schema of a model with some text parameters, which are required, under their titles. -/
def textModel (params : List (String × String)) : Dict :=
  [("properties", .obj (params.map (fun param => (param.1, textParameter param.2)))),
    ("required", .arr (params.map (fun param => .str param.1))), ("type", .str "object")]

theorem mem_textModel {params : List (String × String)} {field : String × Json}
    (h : field ∈ textModel params) :
    field = ("properties", .obj (params.map (fun param => (param.1, textParameter param.2)))) ∨
      field = ("required", .arr (params.map (fun param => .str param.1))) ∨
        field = ("type", .str "object") := by
  simpa [textModel] using h

theorem emitted_textModel {params : List (String × String)}
    (hnames : (params.map Prod.fst).Nodup) : Emitted (.obj (textModel params)) := by
  have hproperties : roleOf "properties" = .members := by decide
  have hrequired : roleOf "required" = .data := by decide
  have htype : roleOf "type" = .data := by decide
  have hkeys : ((params.map (fun param => (param.1, textParameter param.2))).map
      Prod.fst).Nodup := by
    rwa [List.map_map]
  have hrole : ∀ field ∈ textModel params,
      field = ("properties", .obj (params.map (fun param => (param.1, textParameter param.2)))) ∨
        roleOf field.1 = .data := by
    intro field hfield
    rcases mem_textModel hfield with rfl | rfl | rfl
    · exact .inl rfl
    · exact .inr hrequired
    · exact .inr htype
  have hnot : ∀ role, role ≠ .members → role ≠ .data → ∀ field ∈ textModel params,
      roleOf field.1 ≠ role := by
    intro role hmembers hdata field hfield
    rcases hrole field hfield with rfl | hfielddata
    · exact hproperties.trans_ne hmembers.symm
    · exact hfielddata.trans_ne hdata.symm
  have hanyOf : Dict.get? (textModel params) "anyOf" = none := rfl
  refine .node ⟨by simp [textModel], ?_, ?_, ?_, ?_, ?_, ?_, ?_⟩ ?_ ?_ ?_
  · intro value hget
    cases hget
  · intro field hfield _
    rcases mem_textModel hfield with rfl | rfl | rfl
    · refine .obj hkeys ?_
      intro member hmember
      obtain ⟨param, _, rfl⟩ := List.mem_map.mp hmember
      exact uniqueKeys_of_emitted (emitted_textParameter param.2)
    · refine .arr ?_
      intro item hitem
      obtain ⟨param, _, rfl⟩ := List.mem_map.mp hitem
      exact .str param.1
    · exact .str _
  · intro field hfield hmembers
    rcases hrole field hfield with rfl | hdata
    · refine ⟨_, rfl, hkeys, ?_⟩
      intro member hmember
      obtain ⟨param, _, rfl⟩ := List.mem_map.mp hmember
      exact ⟨_, rfl⟩
    · rw [hdata] at hmembers
      cases hmembers
  · intro field hfield hvariants
    exact absurd hvariants (hnot .variants (by decide) (by decide) field hfield)
  · intro names hget item hitem
    cases hget
    obtain ⟨param, hparam, rfl⟩ := List.mem_map.mp hitem
    have hnamed : param.1 ∈ (params.map (fun param => (param.1, textParameter param.2))).map
        Prod.fst := by
      rw [List.map_map]
      exact List.mem_map_of_mem hparam
    exact ⟨param.1, hnamed, rfl⟩
  · intro value hget
    rw [hanyOf] at hget
    cases hget
  · intro variants hget
    rw [hanyOf] at hget
    cases hget
  · intro field hfield hschema
    exact absurd hschema (hnot .schema (by decide) (by decide) field hfield)
  · intro field hfield hmembers members hvalue member hmember
    rcases hrole field hfield with rfl | hdata
    · cases hvalue
      obtain ⟨param, _, rfl⟩ := List.mem_map.mp hmember
      exact emitted_textParameter param.2
    · rw [hdata] at hmembers
      cases hmembers
  · intro field hfield hvariants
    exact absurd hvariants (hnot .variants (by decide) (by decide) field hfield)

def pathAndPattern : Dict := textModel [("path", "Path"), ("pattern", "Pattern")]

def pathAndTitle : Dict := textModel [("path", "Path"), ("title", "Title")]

theorem normalization_keeps_parameters_iff_twoParameters :
    ((∃ result, normalizeJsonSchema (.obj pathAndPattern) = .ok (.obj result) ∧
      KeepsParameters pathAndPattern result) ↔ NamesKept (.obj pathAndPattern)) ∧
      ((∃ result, normalizeJsonSchema (.obj pathAndTitle) = .ok (.obj result) ∧
        KeepsParameters pathAndTitle result) ↔ NamesKept (.obj pathAndTitle)) :=
  ⟨normalization_keeps_parameters_iff (emitted_textModel (by decide)) rfl,
    normalization_keeps_parameters_iff (emitted_textModel (by decide)) rfl⟩

/-- The parameter `title` of a model is lost: it is required, and an argument for it is refused. -/
theorem a_parameter_named_title_is_lost :
    Emitted (.obj (textModel [("title", "Title")])) ∧
      normalizeJsonSchema (.obj (textModel [("title", "Title")])) =
        .ok (.obj [("type", .str "object"), ("properties", .obj []),
          ("required", .arr [.str "title"])]) ∧
      ¬ ∃ result, normalizeJsonSchema (.obj (textModel [("title", "Title")])) = .ok (.obj result) ∧
        KeepsParameters (textModel [("title", "Title")]) result := by
  have hnormalized : normalizeJsonSchema (.obj (textModel [("title", "Title")])) =
      .ok (.obj [("type", .str "object"), ("properties", .obj []),
        ("required", .arr [.str "title"])]) := rfl
  refine ⟨emitted_textModel (by decide), hnormalized, ?_⟩
  rintro ⟨result, hresult, hkeeps⟩
  rw [hnormalized] at hresult
  cases hresult
  have harguments := hkeeps.arguments plainPython "search" .ok [("title", .str "x")] (by
    intro argument hargument
    rw [List.mem_singleton.mp hargument]
    exact List.mem_cons_self)
  cases harguments

end uni_agent.tools
