-- What normalization arrives at: no `title`, no null `default`, no `anyOf` left to collapse and the
-- keys in their order. To normalize such a value again changes nothing.
import UniAgent.LoadedJson
import UniAgent.SchemaNormalization

namespace uni_agent.tools

variable {fields variant normalized : Dict} {key : String} {value t : Json}

/-! ## Dicts with unique keys -/

theorem mem_of_get? (h : fields.get? key = some value) : (key, value) ∈ fields := by
  unfold Dict.get? at h
  induction fields with
  | nil => cases h
  | cons field fields ih =>
    rw [List.lookup_cons] at h
    split at h
    · rename_i hkey
      rw [beq_iff_eq.mp hkey, ← Option.some.inj h]
      exact List.mem_cons_self
    · exact List.mem_cons_of_mem _ (ih h)

theorem get?_of_mem (hnodup : (fields.map Prod.fst).Nodup) (h : (key, value) ∈ fields) :
    fields.get? key = some value := by
  unfold Dict.get?
  induction fields with
  | nil => cases h
  | cons field fields ih =>
    rw [List.map_cons, List.nodup_cons] at hnodup
    rw [List.lookup_cons]
    rcases List.mem_cons.mp h with rfl | h
    · simp
    · have hne : key ≠ field.1 := by
        rintro rfl
        exact hnodup.1 (List.mem_map.mpr ⟨_, h, rfl⟩)
      rw [beq_eq_false_iff_ne.mpr hne]
      exact ih hnodup.2 h

theorem get?_filter (p : String → Bool) (hp : p key = true) :
    Dict.get? (fields.filter (fun field => p field.1)) key = fields.get? key := by
  unfold Dict.get?
  induction fields with
  | nil => rfl
  | cons field fields ih =>
    rw [List.filter_cons, List.lookup_cons]
    by_cases hkey : key = field.1
    · subst hkey
      rw [if_pos hp, List.lookup_cons]
      simp
    · rw [beq_eq_false_iff_ne.mpr hkey]
      split
      · rw [List.lookup_cons, beq_eq_false_iff_ne.mpr hkey]
        exact ih
      · exact ih

theorem get?_eq_none_iff : fields.get? key = none ↔ key ∉ fields.map Prod.fst := by
  unfold Dict.get?
  rw [List.lookup_eq_none_iff]
  simp only [List.mem_map, not_exists, not_and, bne_iff_ne, ne_eq]
  refine ⟨?_, ?_⟩
  · intro h field hfield heq
    exact h field hfield heq.symm
  · intro h field hfield heq
    exact h field hfield heq.symm

theorem get?_filter_of_neg (p : String → Bool) (hp : p key = false) :
    Dict.get? (fields.filter (fun field => p field.1)) key = none := by
  rw [get?_eq_none_iff]
  intro h
  obtain ⟨field, hfield, rfl⟩ := List.mem_map.mp h
  have hkept := (List.mem_filter.mp hfield).2
  rw [hp] at hkept
  cases hkept

/-! ## The order of the keys -/

def preferredPart (normalized : Dict) (keys : List String) : Dict :=
  keys.filterMap (fun key => (normalized.get? key).map (fun value => (key, value)))

theorem mem_preferredPart {keys : List String} :
    (key, value) ∈ preferredPart normalized keys ↔
      key ∈ keys ∧ normalized.get? key = some value := by
  unfold preferredPart
  rw [List.mem_filterMap]
  refine ⟨?_, ?_⟩
  · rintro ⟨other, hother, hvalue⟩
    obtain ⟨found, hfound, hpair⟩ := Option.map_eq_some_iff.mp hvalue
    obtain ⟨rfl, rfl⟩ := Prod.mk.inj hpair
    exact ⟨hother, hfound⟩
  · rintro ⟨hkey, hfound⟩
    exact ⟨key, hkey, by rw [hfound]; rfl⟩

theorem keys_preferredPart_sublist (keys : List String) :
    ((preferredPart normalized keys).map Prod.fst).Sublist keys := by
  unfold preferredPart
  induction keys with
  | nil => exact List.Sublist.refl _
  | cons key keys ih =>
    rw [List.filterMap_cons]
    cases normalized.get? key with
    | none => exact ih.cons key
    | some value => exact ih.cons_cons key

theorem get?_preferredPart (keys : List String) :
    Dict.get? (preferredPart normalized keys) key =
      if key ∈ keys then normalized.get? key else none := by
  unfold preferredPart Dict.get?
  induction keys with
  | nil => rfl
  | cons other keys ih =>
    rw [List.filterMap_cons]
    by_cases hkey : key = other
    · subst hkey
      rw [if_pos List.mem_cons_self]
      cases hfound : List.lookup key normalized with
      | none =>
        rw [Option.map_none]
        dsimp only
        rw [ih, hfound, ite_self]
      | some value =>
        rw [Option.map_some]
        dsimp only
        rw [List.lookup_cons, beq_self_eq_true]
    · have hmem : key ∈ other :: keys ↔ key ∈ keys := by
        rw [List.mem_cons, or_iff_right hkey]
      rw [if_congr hmem rfl rfl, ← ih]
      cases List.lookup other normalized with
      | none => rfl
      | some value =>
        rw [Option.map_some]
        dsimp only
        rw [List.lookup_cons, beq_eq_false_iff_ne.mpr hkey]

theorem ordered_eq (normalized : Dict) : ordered normalized =
    preferredPart normalized preferredOrder ++
      normalized.filter (fun field => !preferredOrder.contains field.1) := rfl

@[simp] theorem get?_ordered (normalized : Dict) (key : String) :
    Dict.get? (ordered normalized) key = normalized.get? key := by
  rw [ordered_eq, Dict.get?_append, get?_preferredPart]
  by_cases hkey : key ∈ preferredOrder
  · rw [if_pos hkey, get?_filter_of_neg (fun key => !preferredOrder.contains key) (by simp [hkey]),
      Option.or_none]
  · rw [if_neg hkey, get?_filter (fun key => !preferredOrder.contains key) (by simp [hkey]),
      Option.none_or]

theorem ordered_ordered (normalized : Dict) :
    ordered (ordered normalized) = ordered normalized := by
  have hpart : preferredPart (ordered normalized) preferredOrder =
      preferredPart normalized preferredOrder := by
    unfold preferredPart
    apply List.filterMap_congr
    intro key _
    rw [get?_ordered]
  have hnone : (preferredPart normalized preferredOrder).filter
      (fun field => !preferredOrder.contains field.1) = [] := by
    rw [List.filter_eq_nil_iff]
    rintro ⟨key, value⟩ hfield
    simp [(mem_preferredPart.mp hfield).1]
  rw [ordered_eq (ordered normalized), hpart, ordered_eq normalized, List.filter_append, hnone,
    List.nil_append, List.filter_filter]
  simp

theorem nodup_keys_ordered (h : (normalized.map Prod.fst).Nodup) :
    ((ordered normalized).map Prod.fst).Nodup := by
  rw [ordered_eq, List.map_append, List.nodup_append]
  refine ⟨?_, ?_, ?_⟩
  · exact (keys_preferredPart_sublist preferredOrder).nodup (by decide)
  · exact (List.filter_sublist.map Prod.fst).nodup h
  · rintro one hone other hother rfl
    have hpreferred := (keys_preferredPart_sublist preferredOrder).subset hone
    obtain ⟨field, hfield, rfl⟩ := List.mem_map.mp hother
    have hkept := (List.mem_filter.mp hfield).2
    simp [hpreferred] at hkept

theorem mem_ordered (h : (normalized.map Prod.fst).Nodup) {field : String × Json} :
    field ∈ ordered normalized ↔ field ∈ normalized := by
  obtain ⟨key, value⟩ := field
  refine ⟨?_, ?_⟩
  · intro hfield
    have hget := get?_of_mem (nodup_keys_ordered h) hfield
    rw [get?_ordered] at hget
    exact mem_of_get? hget
  · intro hfield
    have hget := get?_of_mem h hfield
    rw [← get?_ordered] at hget
    exact mem_of_get? hget

theorem ordered_perm (h : (normalized.map Prod.fst).Nodup) :
    (ordered normalized).Perm normalized := by
  rw [List.perm_ext_iff_of_nodup (List.Nodup.of_map _ (nodup_keys_ordered h))
    (List.Nodup.of_map _ h)]
  intro field
  exact mem_ordered h

/-! ## The merge with a variant -/

theorem get?_dictOf {acc : Dict} (h : (fields.map Prod.fst).Nodup) (key : String) :
    Dict.get? (Json.dictOf acc fields) key = (fields.get? key).or (acc.get? key) := by
  induction fields generalizing acc with
  | nil => rfl
  | cons field fields ih =>
    rw [List.map_cons, List.nodup_cons] at h
    have hstep : Json.dictOf acc (field :: fields) =
        Json.dictOf (acc.set field.1 field.2) fields := rfl
    rw [hstep, ih h.2]
    by_cases hkey : key = field.1
    · subst hkey
      have hnone : Dict.get? fields field.1 = none := get?_eq_none_iff.mpr h.1
      rw [hnone, Dict.get?_set_self, Option.none_or]
      unfold Dict.get?
      rw [List.lookup_cons, beq_self_eq_true]
      rfl
    · rw [Dict.get?_set_ne _ hkey]
      unfold Dict.get?
      rw [List.lookup_cons, beq_eq_false_iff_ne.mpr hkey]

theorem mergeVariant_eq (variant normalized : Dict) : mergeVariant variant normalized =
    Json.dictOf variant (normalized.filter (fun field => field.1 != "anyOf")) := rfl

theorem nodup_keys_filter (p : String × Json → Bool) (h : (normalized.map Prod.fst).Nodup) :
    ((normalized.filter p).map Prod.fst).Nodup := (List.filter_sublist.map Prod.fst).nodup h

/-- What stands beside the `anyOf` comes before what the variant has. -/
theorem get?_mergeVariant (h : (normalized.map Prod.fst).Nodup) (hkey : key ≠ "anyOf") :
    Dict.get? (mergeVariant variant normalized) key =
      (normalized.get? key).or (variant.get? key) := by
  rw [mergeVariant_eq, get?_dictOf (nodup_keys_filter _ h)]
  rw [get?_filter (fun key => key != "anyOf") (bne_iff_ne.mpr hkey)]

theorem get?_mergeVariant_anyOf (h : (normalized.map Prod.fst).Nodup) :
    Dict.get? (mergeVariant variant normalized) "anyOf" = variant.get? "anyOf" := by
  rw [mergeVariant_eq, get?_dictOf (nodup_keys_filter _ h),
    get?_filter_of_neg (fun key => key != "anyOf") (by decide), Option.none_or]

theorem mem_mergeVariant {field : String × Json} (h : field ∈ mergeVariant variant normalized) :
    field ∈ variant ∨ field ∈ normalized := by
  rcases Json.mem_dictOf (mergeVariant_eq variant normalized ▸ h) with hvariant | hbeside
  · exact .inl hvariant
  · exact .inr (List.mem_filter.mp hbeside).1

theorem nodup_keys_mergeVariant (h : (variant.map Prod.fst).Nodup) (normalized : Dict) :
    ((mergeVariant variant normalized).map Prod.fst).Nodup := by
  rw [mergeVariant_eq]
  exact Json.nodup_keys_dictOf h _

/-! ## An `anyOf` that stays -/

/-- The `anyOf` of a dict, if it has one, is neither collapsed nor refused. -/
def Settled (fields : Dict) : Prop :=
  match fields.get? "anyOf" with
  | some (.arr variants) =>
    ∀ variant, variants.filter (fun item => !isNullVariant item) ≠ [.obj variant]
  | some (.obj _) | some (.str _) | none => True
  | some .null | some (.bool _) | some (.int _) | some (.float _) => False

theorem settled_congr {other : Dict} (h : fields.get? "anyOf" = other.get? "anyOf") :
    Settled fields ↔ Settled other := by
  unfold Settled
  rw [h]

/-- The `anyOf` of a dict collapses to a variant. -/
def CollapsesTo (fields variant : Dict) : Prop :=
  ∃ variants, fields.get? "anyOf" = some (.arr variants) ∧
    variants.filter (fun item => !isNullVariant item) = [.obj variant]

theorem collapseVariants_of_single {variants : List Json}
    (h : variants.filter (fun item => !isNullVariant item) = [.obj variant]) :
    collapseVariants variants normalized = mergeVariant variant normalized := by
  unfold collapseVariants
  rw [h]

theorem collapseVariants_of_ne {variants : List Json}
    (h : ∀ variant, variants.filter (fun item => !isNullVariant item) ≠ [.obj variant]) :
    collapseVariants variants normalized = normalized := by
  unfold collapseVariants
  split
  · rename_i variant hsingle
    exact absurd hsingle (h variant)
  · rfl

theorem filter_strings_ne (names : List String) (variant : Dict) :
    (names.map Json.str).filter (fun item => !isNullVariant item) ≠ [.obj variant] := by
  intro h
  have hmem : Json.obj variant ∈ (names.map Json.str).filter (fun item => !isNullVariant item) := by
    rw [h]
    exact List.mem_cons_self
  obtain ⟨name, _, hname⟩ := List.mem_map.mp (List.mem_filter.mp hmem).1
  cases hname

theorem collapse_of_settled (h : Settled fields) : collapse fields = .ok fields := by
  unfold Settled at h
  unfold collapse
  split at h
  · rename_i variants hget
    rw [hget]
    exact congrArg Except.ok (collapseVariants_of_ne h)
  · rename_i members hget
    rw [hget]
    have hnames : members.map (fun field => Json.str field.1) =
        (members.map Prod.fst).map Json.str := by rw [List.map_map]; rfl
    dsimp only [iterate, Except.map]
    rw [hnames, collapseVariants_of_ne (filter_strings_ne _)]
  · rename_i s hget
    rw [hget]
    have hnames : s.toList.map (fun c => Json.str (String.singleton c)) =
        (s.toList.map String.singleton).map Json.str := by rw [List.map_map]; rfl
    dsimp only [iterate, Except.map]
    rw [hnames, collapseVariants_of_ne (filter_strings_ne _)]
  · rename_i hget
    rw [hget]
  all_goals exact h.elim

theorem collapse_of_collapsesTo (h : CollapsesTo fields variant) :
    collapse fields = .ok (mergeVariant variant fields) := by
  obtain ⟨variants, hget, hsingle⟩ := h
  unfold collapse
  rw [hget]
  exact congrArg Except.ok (collapseVariants_of_single hsingle)

/-- What the collapse of a dict can be. -/
theorem collapse_cases {result : Dict} (h : collapse fields = .ok result) :
    (Settled fields ∧ result = fields) ∨
      ∃ variant, CollapsesTo fields variant ∧ result = mergeVariant variant fields := by
  by_cases hsettled : Settled fields
  · rw [collapse_of_settled hsettled] at h
    exact .inl ⟨hsettled, (Except.ok.inj h).symm⟩
  · unfold Settled at hsettled
    split at hsettled
    · rename_i variants hget
      simp only [not_forall, not_not] at hsettled
      obtain ⟨variant, hsingle⟩ := hsettled
      rw [collapse_of_collapsesTo ⟨variants, hget, hsingle⟩] at h
      exact .inr ⟨variant, ⟨variants, hget, hsingle⟩, (Except.ok.inj h).symm⟩
    · exact absurd trivial hsettled
    · exact absurd trivial hsettled
    · exact absurd trivial hsettled
    all_goals
      rename_i hget
      unfold collapse at h
      rw [hget] at h
      cases h

/-! ## Normal values -/

/-- A value in whose dicts no key stands twice, as in Python. -/
inductive UniqueKeys : Json → Prop
  | null : UniqueKeys .null
  | bool (b : Bool) : UniqueKeys (.bool b)
  | int (i : Int) : UniqueKeys (.int i)
  | float (x : PyFloat) : UniqueKeys (.float x)
  | str (s : String) : UniqueKeys (.str s)
  | arr {xs : List Json} (h : ∀ x ∈ xs, UniqueKeys x) : UniqueKeys (.arr xs)
  | obj {fields : Dict} (hnodup : (fields.map Prod.fst).Nodup)
      (h : ∀ field ∈ fields, UniqueKeys field.2) : UniqueKeys (.obj fields)

/-- A dict that normalization leaves as it is, but for its values. -/
structure NormalDict (fields : Dict) : Prop where
  nodup : (fields.map Prod.fst).Nodup
  title : fields.get? "title" = none
  default : fields.get? "default" ≠ some .null
  settled : Settled fields

inductive Normal : Json → Prop
  | null : Normal .null
  | bool (b : Bool) : Normal (.bool b)
  | int (i : Int) : Normal (.int i)
  | float (x : PyFloat) : Normal (.float x)
  | str (s : String) : Normal (.str s)
  | arr {xs : List Json} (h : ∀ x ∈ xs, Normal x) : Normal (.arr xs)
  | obj {fields : Dict} (hdict : NormalDict fields) (hordered : ordered fields = fields)
      (h : ∀ field ∈ fields, Normal field.2) : Normal (.obj fields)

theorem normalizeList_eq_ok {f : Json → Json} {xs : List Json}
    (h : ∀ x ∈ xs, normalizeJsonSchema x = .ok (f x)) : normalizeList xs = .ok (xs.map f) := by
  induction xs with
  | nil => rfl
  | cons x xs ih =>
    rw [normalizeList, h x List.mem_cons_self]
    rw [ih (fun y hy => h y (List.mem_cons_of_mem _ hy))]
    rfl

/-- The fields that are kept, under the value that each of them gets. -/
def isKept (f : String × Json → Json) (field : String × Json) : Bool :=
  field.1 != "title" && !(field.1 == "default" && isNone (f field))

theorem isKept_iff {f : String × Json → Json} {field : String × Json} : isKept f field = true ↔
    field.1 ≠ "title" ∧ ¬ (field.1 = "default" ∧ isNone (f field) = true) := by
  unfold isKept
  rw [Bool.and_eq_true, bne_iff_ne, Bool.not_eq_true', ← Bool.not_eq_true, Bool.and_eq_true,
    beq_iff_eq]

theorem normalizeFields_eq_ok {f : String × Json → Json}
    (h : ∀ field ∈ fields, field.1 ≠ "title" → normalizeJsonSchema field.2 = .ok (f field)) :
    normalizeFields fields =
      .ok ((fields.filter (isKept f)).map (fun field => (field.1, f field))) := by
  induction fields with
  | nil => rfl
  | cons field fields ih =>
    obtain ⟨key, value⟩ := field
    have hrest := ih (fun other hother => h other (List.mem_cons_of_mem _ hother))
    rw [normalizeFields, List.filter_cons]
    by_cases htitle : key = "title"
    · rw [if_pos htitle, hrest, if_neg (fun hkept => (isKept_iff.mp hkept).1 htitle)]
    · rw [if_neg htitle, h (key, value) List.mem_cons_self htitle, hrest]
      by_cases hdefault : key = "default" ∧ isNone (f (key, value)) = true
      · rw [if_neg (fun hkept => (isKept_iff.mp hkept).2 hdefault)]
        exact congrArg Except.ok (if_pos hdefault)
      · rw [if_pos (isKept_iff.mpr ⟨htitle, hdefault⟩)]
        exact congrArg Except.ok (if_neg hdefault)

/-- Without a title and a null default every field is kept. -/
theorem normalizeFields_of_kept {f : String × Json → Json} (hnodup : (fields.map Prod.fst).Nodup)
    (htitle : fields.get? "title" = none)
    (hdefault : ∀ value, fields.get? "default" = some value → isNone (f ("default", value)) = false)
    (h : ∀ field ∈ fields, normalizeJsonSchema field.2 = .ok (f field)) :
    normalizeFields fields = .ok (fields.map (fun field => (field.1, f field))) := by
  rw [normalizeFields_eq_ok (fun field hfield _ => h field hfield), List.filter_eq_self.mpr]
  rintro ⟨key, value⟩ hfield
  have hget := get?_of_mem hnodup hfield
  apply isKept_iff.mpr
  refine ⟨?_, ?_⟩
  · rintro rfl
    rw [htitle] at hget
    cases hget
  · rintro ⟨rfl, hnone⟩
    rw [hdefault value hget] at hnone
    cases hnone

theorem isNone_iff {value : Json} : isNone value = true ↔ value = .null := by
  cases value <;> simp [isNone]

theorem isNone_of_get?_ne (h : fields.get? key ≠ some .null) (hget : fields.get? key = some value) :
    isNone value = false := by
  rw [Bool.eq_false_iff]
  intro hnone
  rw [isNone_iff.mp hnone] at hget
  exact h hget

/-- A normal value is normalized to itself. -/
theorem normalize_of_normal {j : Json} (h : Normal j) : normalizeJsonSchema j = .ok j := by
  induction h with
  | null => rfl
  | bool b => rfl
  | int i => rfl
  | float x => rfl
  | str s => rfl
  | @arr xs _ ih =>
    rw [normalizeJsonSchema, normalizeList_eq_ok ih, List.map_id']
    rfl
  | @obj fields hdict hordered _ ih =>
    have hfields : normalizeFields fields = .ok fields := by
      rw [normalizeFields_of_kept hdict.nodup hdict.title
        (fun _ hget => isNone_of_get?_ne hdict.default hget) ih]
      exact congrArg Except.ok (List.map_id' fields)
    rw [normalizeJsonSchema, hfields]
    dsimp only [bind, Except.bind]
    rw [collapse_of_settled hdict.settled]
    dsimp only
    rw [hordered]
    rfl

/-! ## The result of a normalization -/

theorem mem_of_normalizeList {xs ys : List Json} (h : normalizeList xs = .ok ys) {y : Json}
    (hy : y ∈ ys) : ∃ x ∈ xs, normalizeJsonSchema x = .ok y := by
  induction xs generalizing ys with
  | nil =>
    cases h
    cases hy
  | cons x xs ih =>
    rw [normalizeList] at h
    obtain ⟨item, hitem, h⟩ := bind_eq_ok.mp h
    obtain ⟨items, hitems, h⟩ := bind_eq_ok.mp h
    cases h
    rcases List.mem_cons.mp hy with rfl | hy
    · exact ⟨x, List.mem_cons_self, hitem⟩
    · obtain ⟨other, hother, hnormal⟩ := ih hitems hy
      exact ⟨other, List.mem_cons_of_mem _ hother, hnormal⟩

/-- Every field of the result comes from a field under the same key, in the order of these. -/
theorem normalizeFields_spec {result : Dict} (h : normalizeFields fields = .ok result) :
    (result.map Prod.fst).Sublist (fields.map Prod.fst) ∧
      ∀ key item, (key, item) ∈ result → key ≠ "title" ∧ ¬ (key = "default" ∧ item = .null) ∧
        ∃ value, (key, value) ∈ fields ∧ normalizeJsonSchema value = .ok item := by
  induction fields generalizing result with
  | nil =>
    cases h
    refine ⟨List.Sublist.refl _, ?_⟩
    intro key item hmem
    cases hmem
  | cons field fields ih =>
    obtain ⟨key, value⟩ := field
    rw [normalizeFields] at h
    by_cases htitle : key = "title"
    · rw [if_pos htitle] at h
      obtain ⟨hkeys, hfields⟩ := ih h
      refine ⟨hkeys.cons key, ?_⟩
      intro other item hmem
      obtain ⟨hother, hkept, old, hold, hnormal⟩ := hfields other item hmem
      exact ⟨hother, hkept, old, List.mem_cons_of_mem _ hold, hnormal⟩
    · rw [if_neg htitle] at h
      obtain ⟨new, hnew, h⟩ := bind_eq_ok.mp h
      obtain ⟨rest, hrest, h⟩ := bind_eq_ok.mp h
      obtain ⟨hkeys, hfields⟩ := ih hrest
      have hlater : ∀ other item, (other, item) ∈ rest → other ≠ "title" ∧
          ¬ (other = "default" ∧ item = .null) ∧
          ∃ value', (other, value') ∈ (key, value) :: fields ∧
            normalizeJsonSchema value' = .ok item := by
        intro other item hmem
        obtain ⟨hother, hkept, old, hold, hnormal⟩ := hfields other item hmem
        exact ⟨hother, hkept, old, List.mem_cons_of_mem _ hold, hnormal⟩
      by_cases hdefault : key = "default" ∧ isNone new = true
      · rw [if_pos hdefault] at h
        cases h
        exact ⟨hkeys.cons key, hlater⟩
      · rw [if_neg hdefault] at h
        cases h
        refine ⟨hkeys.cons_cons key, ?_⟩
        intro other item hmem
        rcases List.mem_cons.mp hmem with hfirst | hmem
        · obtain ⟨rfl, rfl⟩ := Prod.mk.inj hfirst
          refine ⟨htitle, ?_, value, List.mem_cons_self, hnew⟩
          rintro ⟨rfl, rfl⟩
          exact hdefault ⟨rfl, rfl⟩
        · exact hlater other item hmem

/-- The merge of a dict with a variant is a dict to leave as it is when both are. -/
theorem normalDict_mergeVariant (hnodup : (normalized.map Prod.fst).Nodup)
    (htitle : normalized.get? "title" = none) (hdefault : normalized.get? "default" ≠ some .null)
    (hvariant : NormalDict variant) : NormalDict (mergeVariant variant normalized) where
  nodup := nodup_keys_mergeVariant hvariant.nodup normalized
  title := by
    rw [get?_mergeVariant hnodup (by decide), htitle, Option.none_or]
    exact hvariant.title
  default := by
    rw [get?_mergeVariant hnodup (by decide)]
    cases hget : normalized.get? "default" with
    | none =>
      rw [Option.none_or]
      exact hvariant.default
    | some value =>
      rw [← hget]
      rw [Option.or_of_isSome (by rw [hget]; rfl)]
      exact hdefault
  settled := by
    rw [settled_congr (get?_mergeVariant_anyOf hnodup)]
    exact hvariant.settled

theorem normalDict_ordered (h : NormalDict normalized) : NormalDict (ordered normalized) where
  nodup := nodup_keys_ordered h.nodup
  title := by
    rw [get?_ordered]
    exact h.title
  default := by
    rw [get?_ordered]
    exact h.default
  settled := by
    rw [settled_congr (get?_ordered normalized "anyOf")]
    exact h.settled

theorem normal_ordered (hdict : NormalDict normalized) (h : ∀ field ∈ normalized, Normal field.2) :
    Normal (.obj (ordered normalized)) := by
  apply Normal.obj (normalDict_ordered hdict) (ordered_ordered normalized)
  intro field hfield
  exact h field ((mem_ordered hdict.nodup).mp hfield)

theorem normal_of_mem_arr {xs : List Json} (h : Normal (.arr xs)) : ∀ x ∈ xs, Normal x := by
  cases h with
  | arr h => exact h

/-- Every value is normalized to a normal one. -/
theorem normal_of_normalize {j : Json} (hunique : UniqueKeys j)
    (h : normalizeJsonSchema j = .ok t) : Normal t := by
  induction hunique generalizing t with
  | null => cases h; exact .null
  | bool b => cases h; exact .bool b
  | int i => cases h; exact .int i
  | float x => cases h; exact .float x
  | str s => cases h; exact .str s
  | arr _ ih =>
    rw [normalizeJsonSchema] at h
    obtain ⟨items, hitems, h⟩ := bind_eq_ok.mp h
    cases h
    apply Normal.arr
    intro item hitem
    obtain ⟨x, hx, hnormal⟩ := mem_of_normalizeList hitems hitem
    exact ih x hx hnormal
  | @obj fields hnodup _ ih =>
    rw [normalizeJsonSchema] at h
    obtain ⟨normalized, hnormalized, h⟩ := bind_eq_ok.mp h
    obtain ⟨result, hresult, h⟩ := bind_eq_ok.mp h
    cases h
    obtain ⟨hkeys, hfields⟩ := normalizeFields_spec hnormalized
    have hnodup' := hkeys.nodup hnodup
    have htitle : normalized.get? "title" = none := by
      rw [get?_eq_none_iff]
      intro hmem
      obtain ⟨⟨key, item⟩, hitem, rfl⟩ := List.mem_map.mp hmem
      exact (hfields _ _ hitem).1 rfl
    have hdefault : normalized.get? "default" ≠ some .null := by
      intro hget
      exact (hfields _ _ (mem_of_get? hget)).2.1 ⟨rfl, rfl⟩
    have hvalues : ∀ field ∈ normalized, Normal field.2 := by
      rintro ⟨key, item⟩ hitem
      obtain ⟨-, -, value, hvalue, hnormal⟩ := hfields _ _ hitem
      exact ih (key, value) hvalue hnormal
    rcases collapse_cases hresult with ⟨hsettled, rfl⟩ | ⟨variant, ⟨variants, hget, hsingle⟩, rfl⟩
    · exact normal_ordered ⟨hnodup', htitle, hdefault, hsettled⟩ hvalues
    · have hmem : Json.obj variant ∈ variants := by
        apply (List.mem_filter.mp _).1
        · exact fun item => !isNullVariant item
        · rw [hsingle]
          exact List.mem_cons_self
      have hvariant := normal_of_mem_arr (hvalues _ (mem_of_get? hget)) _ hmem
      cases hvariant with
      | obj hdict _ hvariantValues =>
        apply normal_ordered (normalDict_mergeVariant hnodup' htitle hdefault hdict)
        intro field hfield
        rcases mem_mergeVariant hfield with hfield | hfield
        · exact hvariantValues field hfield
        · exact hvalues field hfield

/-- To normalize twice is to normalize once. -/
theorem normalize_idempotent {j : Json} (hunique : UniqueKeys j)
    (h : normalizeJsonSchema j = .ok t) : normalizeJsonSchema t = .ok t :=
  normalize_of_normal (normal_of_normalize hunique h)

end uni_agent.tools
