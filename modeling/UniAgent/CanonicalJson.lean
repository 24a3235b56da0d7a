-- JSON values up to the order of their keys. Two values have the same sorted text exactly when
-- they are equal in this sense, and equality can be read off key by key, without any order.
import UniAgent.JsonRoundTrip

namespace uni_agent.Json

variable {floatRepr : PyFloat → String} {floatOf : String → PyFloat} {sep : Separators}

mutual

/-- The value with the keys of every dict in order, and with one NaN. Two values are canonically
equal when they differ only in the order of their keys. -/
def canonical : Json → Json
  | .float x => .float (if x.isNan then nan else x)
  | .arr xs => .arr (canonicalList xs)
  | .obj fields => .obj ((canonicalFields fields).insertionSort (fun x y => x.1 ≤ y.1))
  | value => value

def canonicalList : List Json → List Json
  | [] => []
  | x :: rest => canonical x :: canonicalList rest

def canonicalFields : Dict → Dict
  | [] => []
  | (key, x) :: rest => (key, canonical x) :: canonicalFields rest

end

section Maps

theorem canonicalList_eq (xs : List Json) : canonicalList xs = xs.map canonical := by
  induction xs with
  | nil => rw [canonicalList, List.map_nil]
  | cons x xs ih => rw [canonicalList, ih, List.map_cons]

theorem canonicalFields_eq (fields : Dict) :
    canonicalFields fields = fields.map (fun field => (field.1, canonical field.2)) := by
  induction fields with
  | nil => rw [canonicalFields, List.map_nil]
  | cons field fields ih => rw [canonicalFields, ih, List.map_cons]

theorem unifyNanList_eq (xs : List Json) : unifyNanList xs = xs.map unifyNan := by
  induction xs with
  | nil => rw [unifyNanList, List.map_nil]
  | cons x xs ih => rw [unifyNanList, ih, List.map_cons]

theorem unifyNanFields_eq (fields : Dict) :
    unifyNanFields fields = fields.map (fun field => (field.1, unifyNan field.2)) := by
  induction fields with
  | nil => rw [unifyNanFields, List.map_nil]
  | cons field fields ih => rw [unifyNanFields, ih, List.map_cons]

theorem dumpsList_eq (xs : List Json) : dumpsList floatRepr xs = xs.map (dumps floatRepr) := by
  induction xs with
  | nil => rw [dumpsList, List.map_nil]
  | cons x xs ih => rw [dumpsList, ih, List.map_cons]

theorem dumpsFields_eq (fields : Dict) :
    dumpsFields floatRepr fields = fields.map
        (fun field => (field.1, dumps floatRepr field.2)) := by
  induction fields with
  | nil => rw [dumpsFields, List.map_nil]
  | cons field fields ih => rw [dumpsFields, ih, List.map_cons]

theorem writeList_eq (xs : List Json) :
    writeList sep floatRepr xs = xs.map (write sep floatRepr) := by
  induction xs with
  | nil => rw [writeList, List.map_nil]
  | cons x xs ih => rw [writeList, ih, List.map_cons]

theorem writeFields_eq (fields : Dict) : writeFields sep floatRepr fields =
    fields.map (fun field => quoted field.1 ++ sep.key ++ write sep floatRepr field.2) := by
  induction fields with
  | nil => rw [writeFields, List.map_nil]
  | cons field fields ih => rw [writeFields, ih, List.map_cons]

end Maps

/-- Changing the values of a dict leaves the order of its keys. -/
theorem insertionSort_map_values {β : Type} (g : Json → β) (fields : Dict) :
    (fields.map (fun field => (field.1, g field.2))).insertionSort (fun x y => x.1 ≤ y.1) =
      (fields.insertionSort (fun x y => x.1 ≤ y.1)).map (fun field => (field.1, g field.2)) :=
  (List.map_insertionSort (fun x y : String × Json => x.1 ≤ y.1)
    (fun x y : String × β => x.1 ≤ y.1) (fun field => (field.1, g field.2)) fields
    (fun _ _ _ _ => Iff.rfl)).symm

theorem canonical_obj (fields : Dict) : canonical (.obj fields) = .obj
    ((fields.insertionSort (fun x y => x.1 ≤ y.1)).map
      (fun field => (field.1, canonical field.2))) := by
  rw [canonical, canonicalFields_eq, insertionSort_map_values]

/-- `sort_keys=True` writes the canonical value as it stands. -/
theorem dumps_eq_write (hfloats : FloatText floatRepr floatOf) (value : Json) :
    dumps floatRepr value = write compact floatRepr value.canonical := by
  induction value using induct with
  | null => simp [dumps, canonical, write]
  | bool b => cases b <;> simp [dumps, canonical, write]
  | int i => simp [dumps, canonical, write]
  | float x =>
    cases hnan : x.isNan with
    | false => simp [dumps, canonical, write, hnan]
    | true =>
      have hfinite : x.isFinite = false := by
        simp only [PyFloat.isNan, Bool.and_eq_true, Bool.not_eq_true'] at hnan
        exact hnan.1
      simp [dumps, canonical, write, hnan, hfloats.special x hfinite,
        hfloats.special nan (by decide), show nan.isNan = true by decide]
  | str s => simp [dumps, canonical, write]
  | arr xs ih =>
    simp only [dumps, canonical, write, dumpsList_eq, canonicalList_eq, writeList_eq, List.map_map]
    rw [List.map_congr_left ih]
    rfl
  | obj fields ih =>
    rw [canonical_obj, dumps, write, dumpsFields_eq, writeFields_eq, insertionSort_map_values,
      List.map_map, List.map_map]
    congr 3
    apply List.map_congr_left
    intro field hfield
    simp only [Function.comp, ih field ((List.mem_insertionSort _).mp hfield)]
    rfl

theorem unifyNan_canonical (value : Json) : value.canonical.unifyNan = value.canonical := by
  induction value using induct with
  | float x =>
    cases hnan : x.isNan with
    | false => simp [canonical, unifyNan, hnan]
    | true => simp [canonical, unifyNan, hnan]
  | arr xs ih =>
    rw [canonical, unifyNan, canonicalList_eq, unifyNanList_eq, List.map_map]
    exact congrArg Json.arr (List.map_congr_left ih)
  | obj fields ih =>
    rw [canonical_obj, unifyNan, unifyNanFields_eq, List.map_map]
    apply congrArg Json.obj
    apply List.map_congr_left
    intro field hfield
    simp only [Function.comp, ih field ((List.mem_insertionSort _).mp hfield)]
  | _ => simp [canonical, unifyNan]

/-- Two values have the same text exactly when they differ only in the order of their keys. -/
theorem dumps_eq_iff (hfloats : FloatText floatRepr floatOf) (v w : Json) :
    dumps floatRepr v = dumps floatRepr w ↔ v.canonical = w.canonical := by
  rw [dumps_eq_write hfloats, dumps_eq_write hfloats]
  refine ⟨?_, ?_⟩
  · intro h
    have hread := congrArg (read floatOf) h
    rw [read_write hfloats compact_readable, read_write hfloats compact_readable,
      unifyNan_canonical, unifyNan_canonical] at hread
    exact Option.some.inj hread
  · intro h
    rw [h]

/-- The order of the keys of a dict does not count, and nothing else is left out. -/
theorem canonical_obj_eq_iff {fields others : Dict} (hkeys : (fields.map Prod.fst).Nodup) :
    canonical (.obj fields) = canonical (.obj others) ↔
      (fields.map (fun field => (field.1, canonical field.2))).Perm
        (others.map (fun field => (field.1, canonical field.2))) := by
  have hsort : ∀ d : Dict, ((d.insertionSort (fun x y => x.1 ≤ y.1)).map
      (fun field => (field.1, canonical field.2))).Perm
        (d.map (fun field => (field.1, canonical field.2))) :=
    fun d => (List.perm_insertionSort _ d).map _
  rw [canonical_obj, canonical_obj, Json.obj.injEq]
  refine ⟨?_, ?_⟩
  · intro h
    exact (hsort fields).symm.trans ((List.Perm.of_eq h).trans (hsort others))
  · intro h
    have hperm := (hsort fields).trans (h.trans (hsort others).symm)
    have hnodup : (((fields.insertionSort (fun x y => x.1 ≤ y.1)).map
        (fun field => (field.1, canonical field.2))).map Prod.fst).Nodup := by
      rw [((hsort fields).map Prod.fst).nodup_iff, List.map_map]
      exact hkeys
    have hsorted : ∀ d : Dict, ((d.insertionSort (fun x y => x.1 ≤ y.1)).map
        (fun field => (field.1, canonical field.2))).Pairwise (fun x y => x.1 ≤ y.1) := by
      intro d
      rw [← insertionSort_map_values]
      exact List.pairwise_insertionSort _ _
    apply hperm.eq_of_pairwise ?_ (hsorted fields) (hsorted others)
    intro a b ha hb hab hba
    exact List.inj_on_of_nodup_map hnodup ha (hperm.mem_iff.mpr hb) (String.le_antisymm hab hba)

/-- Sorting leaves the first value of each key. -/
theorem get?_insertionSort (d : Dict) (key : String) :
    Dict.get? (d.insertionSort (fun x y => x.1 ≤ y.1)) key = d.get? key := by
  unfold Dict.get?
  induction d with
  | nil => rfl
  | cons field d ih =>
    rw [List.insertionSort_cons]
    have hinsert : ∀ sorted : Dict, List.lookup key
        (List.orderedInsert (fun x y => x.1 ≤ y.1) field sorted) =
          List.lookup key (field :: sorted) := by
      intro sorted
      induction sorted with
      | nil => rfl
      | cons other sorted ih =>
        rw [List.orderedInsert_cons]
        by_cases hle : field.1 ≤ other.1
        · rw [if_pos hle]
        · rw [if_neg hle, List.lookup_cons, ih, List.lookup_cons, List.lookup_cons,
            List.lookup_cons]
          cases hother : key == other.1 with
          | false => rfl
          | true =>
            have hfield : (key == field.1) = false := by
              apply beq_eq_false_iff_ne.mpr
              intro hkey
              have hsame : other.1 = field.1 := (beq_iff_eq.mp hother).symm.trans hkey
              exact hle (hsame ▸ String.le_refl _)
            rw [hfield]
    rw [hinsert, List.lookup_cons, List.lookup_cons, ih]

/-- The values of a canonical dict are the canonical values. -/
theorem get?_canonical (d : Dict) (key : String) :
    Dict.get? ((d.insertionSort (fun x y => x.1 ≤ y.1)).map
      (fun field => (field.1, canonical field.2))) key = (d.get? key).map canonical := by
  rw [← get?_insertionSort d key]
  unfold Dict.get?
  induction d.insertionSort (fun x y => x.1 ≤ y.1) with
  | nil => rfl
  | cons field rest ih =>
    rw [List.map_cons, List.lookup_cons, List.lookup_cons, ih]
    cases key == field.1 <;> rfl

/-- Dicts that are equal in canonical form are so at each key. -/
theorem get?_of_canonical_eq {d e : Dict} (h : canonical (.obj d) = canonical (.obj e))
    (key : String) : (d.get? key).map canonical = (e.get? key).map canonical := by
  rw [canonical_obj, canonical_obj, Json.obj.injEq] at h
  rw [← get?_canonical, ← get?_canonical, h]

theorem canonical_obj_congr {d e : Dict}
    (h : d.map (fun field => (field.1, canonical field.2)) =
      e.map (fun field => (field.1, canonical field.2))) :
    canonical (.obj d) = canonical (.obj e) := by
  rw [canonical_obj, canonical_obj, ← insertionSort_map_values, ← insertionSort_map_values, h]

theorem canonical_arr (xs : List Json) : canonical (.arr xs) = .arr (xs.map canonical) := by
  rw [canonical, canonicalList_eq]

/-! ## Equality without an order of keys -/

/-- The values under a key: at most one in a Python dict. -/
def valuesAt (d : Dict) (key : String) : List Json :=
  (d.filter (fun field => field.1 == key)).map Prod.snd

/-- Two values that differ at most in the order of their keys, at any depth, and in how a NaN is
stored. -/
inductive Same : Json → Json → Prop
  | null : Same .null .null
  | bool (b : Bool) : Same (.bool b) (.bool b)
  | int (i : Int) : Same (.int i) (.int i)
  | float (x : PyFloat) : Same (.float x) (.float x)
  | nan (x y : PyFloat) (hx : x.isNan = true) (hy : y.isNan = true) : Same (.float x) (.float y)
  | str (s : String) : Same (.str s) (.str s)
  | arr (xs ys : List Json) (h : List.Forall₂ Same xs ys) : Same (.arr xs) (.arr ys)
  | obj (fields others : Dict)
      (h : ∀ key, List.Forall₂ Same (valuesAt fields key) (valuesAt others key)) :
      Same (.obj fields) (.obj others)

@[simp] theorem valuesAt_nil (key : String) : valuesAt [] key = [] := rfl

theorem valuesAt_cons (field : String × Json) (d : Dict) (key : String) :
    valuesAt (field :: d) key =
      if field.1 = key then field.2 :: valuesAt d key else valuesAt d key := by
  unfold valuesAt
  by_cases h : field.1 = key
  · simp [h]
  · simp [h]

@[simp] theorem valuesAt_append (d e : Dict) (key : String) :
    valuesAt (d ++ e) key = valuesAt d key ++ valuesAt e key := by
  simp [valuesAt]

/-- The first value under a key is the one that `get` finds. -/
theorem head?_valuesAt (d : Dict) (key : String) : (valuesAt d key).head? = d.get? key := by
  unfold Dict.get?
  induction d with
  | nil => rfl
  | cons field d ih =>
    rw [valuesAt_cons, List.lookup_cons]
    by_cases h : field.1 = key
    · rw [if_pos h, beq_iff_eq.mpr h.symm]
      rfl
    · rw [if_neg h, beq_eq_false_iff_ne.mpr (Ne.symm h), ih]

theorem valuesAt_eq_nil {d : Dict} {key : String} (h : key ∉ d.map Prod.fst) :
    valuesAt d key = [] := by
  unfold valuesAt
  rw [List.map_eq_nil_iff, List.filter_eq_nil_iff]
  intro field hfield heq
  exact h (List.mem_map.mpr ⟨field, hfield, beq_iff_eq.mp heq⟩)

/-- A dict has at most one value under a key. -/
theorem valuesAt_of_nodup {d : Dict} (h : (d.map Prod.fst).Nodup) (key : String) :
    valuesAt d key = (d.get? key).toList := by
  rw [← head?_valuesAt]
  induction d with
  | nil => rfl
  | cons field d ih =>
    rw [List.map_cons, List.nodup_cons] at h
    rw [valuesAt_cons]
    by_cases hkey : field.1 = key
    · subst hkey
      rw [if_pos rfl, valuesAt_eq_nil h.1]
      rfl
    · rw [if_neg hkey]
      exact ih h.2

theorem valuesAt_map_canonical (d : Dict) (key : String) :
    valuesAt (d.map (fun field => (field.1, canonical field.2))) key =
      (valuesAt d key).map canonical := by
  induction d with
  | nil => rfl
  | cons field d ih =>
    rw [List.map_cons, valuesAt_cons, valuesAt_cons, ih]
    split <;> rfl

theorem valuesAt_orderedInsert (field : String × Json) (d : Dict) (key : String) :
    valuesAt (List.orderedInsert (fun x y => x.1 ≤ y.1) field d) key =
      valuesAt (field :: d) key := by
  induction d with
  | nil => rfl
  | cons other d ih =>
    rw [List.orderedInsert_cons]
    by_cases hle : field.1 ≤ other.1
    · rw [if_pos hle]
    · have hne : other.1 ≠ field.1 := fun heq => hle (heq ▸ String.le_refl _)
      rw [if_neg hle, valuesAt_cons, ih, valuesAt_cons, valuesAt_cons, valuesAt_cons]
      by_cases hkey : field.1 = key
      · have hother : other.1 ≠ key := hkey ▸ hne
        rw [if_pos hkey, if_pos hkey, if_neg hother, if_neg hother]
      · rw [if_neg hkey, if_neg hkey]

/-- Sorting is stable. -/
theorem valuesAt_insertionSort (d : Dict) (key : String) :
    valuesAt (d.insertionSort (fun x y => x.1 ≤ y.1)) key = valuesAt d key := by
  induction d with
  | nil => rfl
  | cons field d ih =>
    rw [List.insertionSort_cons, valuesAt_orderedInsert, valuesAt_cons, valuesAt_cons, ih]

/-- The first key of a sorted dict is no greater than any key with a value. -/
theorem key_le_of_valuesAt {field : String × Json} {d : Dict} {key : String}
    (h : (field :: d).Pairwise (fun x y => x.1 ≤ y.1)) (hvalues : valuesAt (field :: d) key ≠ []) :
    field.1 ≤ key := by
  by_contra hlt
  apply hvalues
  apply valuesAt_eq_nil
  rw [List.map_cons, List.mem_cons, List.mem_map]
  rintro (heq | ⟨other, hother, heq⟩)
  · exact hlt (heq ▸ String.le_refl _)
  · exact hlt (heq ▸ List.rel_of_pairwise_cons h hother)

/-- Sorted dicts with the same values under each key are equal. -/
theorem eq_of_valuesAt {d e : Dict} (hd : d.Pairwise (fun x y => x.1 ≤ y.1))
    (he : e.Pairwise (fun x y => x.1 ≤ y.1)) (h : ∀ key, valuesAt d key = valuesAt e key) :
    d = e := by
  induction d generalizing e with
  | nil =>
    cases e with
    | nil => rfl
    | cons other e =>
      have hother := h other.1
      rw [valuesAt_cons, if_pos rfl] at hother
      cases hother
  | cons field d ih =>
    cases e with
    | nil =>
      have hfield := h field.1
      rw [valuesAt_cons, if_pos rfl] at hfield
      cases hfield
    | cons other e =>
      have hkey : field.1 = other.1 := by
        apply String.le_antisymm
        · apply key_le_of_valuesAt hd
          rw [h other.1, valuesAt_cons, if_pos rfl]
          exact List.cons_ne_nil _ _
        · apply key_le_of_valuesAt he
          rw [← h field.1, valuesAt_cons, if_pos rfl]
          exact List.cons_ne_nil _ _
      have hfirst := h field.1
      rw [valuesAt_cons, valuesAt_cons, if_pos rfl, if_pos hkey.symm, List.cons.injEq] at hfirst
      obtain rfl : field = other := Prod.ext hkey hfirst.1
      rw [ih hd.of_cons he.of_cons]
      intro key
      have hrest := h key
      rw [valuesAt_cons, valuesAt_cons] at hrest
      split at hrest
      · exact (List.cons.inj hrest).2
      · exact hrest

theorem canonical_obj_eq_iff_valuesAt {fields others : Dict} :
    canonical (.obj fields) = canonical (.obj others) ↔
      ∀ key, (valuesAt fields key).map canonical = (valuesAt others key).map canonical := by
  have hvalues : ∀ (d : Dict) (key : String), valuesAt ((d.insertionSort (fun x y => x.1 ≤ y.1)).map
      (fun field => (field.1, canonical field.2))) key = (valuesAt d key).map canonical := by
    intro d key
    rw [valuesAt_map_canonical, valuesAt_insertionSort]
  have hsorted : ∀ d : Dict, ((d.insertionSort (fun x y => x.1 ≤ y.1)).map
      (fun field => (field.1, canonical field.2))).Pairwise (fun x y => x.1 ≤ y.1) := by
    intro d
    rw [← insertionSort_map_values]
    exact List.pairwise_insertionSort _ _
  rw [canonical_obj, canonical_obj, Json.obj.injEq]
  refine ⟨?_, ?_⟩
  · intro h key
    rw [← hvalues, ← hvalues, h]
  · intro h
    apply eq_of_valuesAt (hsorted _) (hsorted _)
    intro key
    rw [hvalues, hvalues, h key]

theorem forall₂_same_iff {vs ws : List Json}
    (h : ∀ v ∈ vs, ∀ w, Same v w ↔ v.canonical = w.canonical) :
    List.Forall₂ Same vs ws ↔ vs.map canonical = ws.map canonical := by
  induction vs generalizing ws with
  | nil => cases ws <;> simp
  | cons v vs ih =>
    cases ws with
    | nil => simp
    | cons w ws =>
      rw [List.forall₂_cons, List.map_cons, List.map_cons, List.cons.injEq, h v (by simp) w,
        ih (fun v hv => h v (List.mem_cons_of_mem _ hv))]

/-- The canonical value says exactly what two values have in common but for the order of keys. -/
theorem same_iff (v w : Json) : Same v w ↔ v.canonical = w.canonical := by
  induction v using induct generalizing w with
  | null =>
    refine ⟨fun h => by cases h; rfl, fun h => ?_⟩
    cases w <;> simp [canonical] at h
    exact .null
  | bool b =>
    refine ⟨fun h => by cases h; rfl, fun h => ?_⟩
    cases w <;> simp [canonical] at h
    exact h ▸ .bool b
  | int i =>
    refine ⟨fun h => by cases h; rfl, fun h => ?_⟩
    cases w <;> simp [canonical] at h
    exact h ▸ .int i
  | str s =>
    refine ⟨fun h => by cases h; rfl, fun h => ?_⟩
    cases w <;> simp [canonical] at h
    exact h ▸ .str s
  | float x =>
    refine ⟨?_, ?_⟩
    · intro h
      cases h with
      | float => rfl
      | nan _ y hx hy => simp [canonical, hx, hy]
    · intro h
      cases w with
      | float y =>
        have hnan : nan.isNan = true := by decide
        simp only [canonical, Json.float.injEq] at h
        by_cases hx : x.isNan = true
        · by_cases hy : y.isNan = true
          · exact .nan x y hx hy
          · rw [if_pos hx, if_neg hy] at h
            exact absurd (h ▸ hnan) hy
        · by_cases hy : y.isNan = true
          · rw [if_neg hx, if_pos hy] at h
            exact absurd (h ▸ hnan) hx
          · rw [if_neg hx, if_neg hy] at h
            exact h ▸ .float x
      | _ => simp [canonical] at h
  | arr xs ih =>
    refine ⟨?_, ?_⟩
    · intro h
      cases h with
      | arr _ ys h => rw [canonical_arr, canonical_arr, (forall₂_same_iff ih).mp h]
    · intro h
      cases w with
      | arr ys =>
        rw [canonical_arr, canonical_arr, Json.arr.injEq] at h
        exact .arr xs ys ((forall₂_same_iff ih).mpr h)
      | _ => simp [canonical] at h
  | obj fields ih =>
    have hvalues : ∀ key, ∀ v ∈ valuesAt fields key, ∀ w, Same v w ↔ v.canonical = w.canonical := by
      intro key v hv
      obtain ⟨field, hfield, rfl⟩ := List.mem_map.mp hv
      exact ih field (List.mem_filter.mp hfield).1
    refine ⟨?_, ?_⟩
    · intro h
      cases h with
      | obj _ others h =>
        rw [canonical_obj_eq_iff_valuesAt]
        exact fun key => (forall₂_same_iff (hvalues key)).mp (h key)
    · intro h
      cases w with
      | obj others =>
        rw [canonical_obj_eq_iff_valuesAt] at h
        exact .obj fields others (fun key => (forall₂_same_iff (hvalues key)).mpr (h key))
      | _ => simp [canonical] at h

end uni_agent.Json
