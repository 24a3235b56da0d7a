-- What `json.loads` returns: a string shorter than its text, dicts without a key twice, one NaN.
-- So a value that was read is read again from what `json.dumps` writes of it.
import UniAgent.CanonicalJson

namespace uni_agent.Json

variable {floatRepr : PyFloat → String} {floatOf : String → PyFloat}

/-! ## Strings -/

theorem readHex4_length {cs rest : List Char} {code : Nat} (h : readHex4 cs = some (code, rest)) :
    rest.length < cs.length := by
  unfold readHex4 at h
  split at h
  · simp only [Option.bind_eq_bind, Option.bind_eq_some_iff, pure, Option.some.injEq,
      Prod.mk.injEq] at h
    obtain ⟨_, _, _, _, _, _, _, _, _, rfl⟩ := h
    simp only [List.length_cons]
    omega
  · cases h

theorem readUnicode_length {cs rest : List Char} {c : Char} (h : readUnicode cs = some (c, rest)) :
    rest.length < cs.length := by
  unfold readUnicode at h
  simp only [Option.bind_eq_bind, Option.bind_eq_some_iff, Prod.exists] at h
  obtain ⟨code, after, hcode, h⟩ := h
  have hfirst := readHex4_length hcode
  split at h
  · split at h
    · simp only [Option.bind_eq_some_iff, Prod.exists] at h
      obtain ⟨low, last, hlow, h⟩ := h
      have hsecond := readHex4_length hlow
      split at h
      · simp only [pure, Option.some.injEq, Prod.mk.injEq] at h
        obtain ⟨_, rfl⟩ := h
        simp only [List.length_cons] at hfirst
        omega
      · cases h
    · cases h
  · split at h
    · cases h
    · simp only [pure, Option.some.injEq, Prod.mk.injEq] at h
      obtain ⟨_, rfl⟩ := h
      exact hfirst

theorem readEscape_length {cs rest : List Char} {c : Char} (h : readEscape cs = some (c, rest)) :
    rest.length < cs.length := by
  unfold readEscape at h
  split at h
  · cases h
  · have hrest := readUnicode_length h
    simp only [List.length_cons]
    omega
  · simp only [Option.map_eq_some_iff, Prod.mk.injEq] at h
    obtain ⟨_, _, _, rfl⟩ := h
    simp

/-- The quotation mark at the end is read too. -/
theorem readString_length {fuel : Nat} {cs text rest : List Char}
    (h : readString fuel cs = some (text, rest)) : text.length + rest.length < cs.length := by
  induction fuel generalizing cs text with
  | zero => simp [readString] at h
  | succ fuel ih =>
    cases cs with
    | nil => simp [readString] at h
    | cons c cs =>
      rw [readString] at h
      split at h
      · cases h
        simp
      · split at h
        · simp only [Option.bind_eq_bind, Option.bind_eq_some_iff, Prod.exists] at h
          obtain ⟨c', after, hescape, more, last, hmore, h⟩ := h
          cases h
          have hlength := readEscape_length hescape
          have hrest := ih hmore
          simp only [List.length_cons]
          omega
        · split at h
          · cases h
          · simp only [Option.bind_eq_bind, Option.bind_eq_some_iff, Prod.exists] at h
            obtain ⟨more, last, hmore, h⟩ := h
            cases h
            have hrest := ih hmore
            simp only [List.length_cons]
            omega

theorem readNumber_ne_str {cs rest : List Char} {text : String} :
    readNumber floatOf cs ≠ some (.str text, rest) := by
  unfold readNumber
  intro h
  repeat' split at h
  all_goals simp at h

theorem readWord_mem {cs rest : List Char} {value : Json} (h : readWord cs = some (value, rest)) :
    ∃ word ∈ words, word.2 = value := by
  unfold readWord at h
  obtain ⟨word, hword, h⟩ := List.exists_of_findSome?_eq_some h
  split at h
  · cases h
    exact ⟨word, hword, rfl⟩
  · cases h

theorem words_ne_str {word : String × Json} (hword : word ∈ words) (text : String) :
    word.2 ≠ .str text := by
  simp only [words, List.mem_cons, List.not_mem_nil, or_false] at hword
  rcases hword with rfl | rfl | rfl | rfl | rfl | rfl <;> simp

/-- A string that was read is shorter than the text in front of it. -/
theorem readValue_str_length {fuel : Nat} {cs rest : List Char} {text : String}
    (h : readValue floatOf fuel cs = some (.str text, rest)) : text.length < cs.length := by
  cases fuel with
  | zero => simp [readValue] at h
  | succ fuel =>
    have hskip : (skipSpace cs).length ≤ cs.length := List.length_dropWhile_le _ _
    rw [readValue] at h
    split at h
    · rename_i after hcs
      simp only [Option.map_eq_some_iff, Prod.mk.injEq, str.injEq, Prod.exists] at h
      obtain ⟨chars, last, hread, rfl, rfl⟩ := h
      have hlength := readString_length hread
      rw [hcs, List.length_cons] at hskip
      rw [String.length_ofList]
      omega
    · split at h
      · simp at h
      · simp at h
    · split at h
      · simp at h
      · simp at h
    · rw [Option.or_eq_some_iff] at h
      rcases h with hnumber | ⟨_, hword⟩
      · exact absurd hnumber readNumber_ne_str
      · obtain ⟨word, hmem, hvalue⟩ := readWord_mem hword
        exact absurd hvalue (words_ne_str hmem text)

/-- No text is read as itself. -/
theorem loads_ne_self (floatOf : String → PyFloat) (text : String) :
    loads floatOf text ≠ some (.str text) := by
  intro h
  unfold loads at h
  obtain ⟨value, hread, hlast⟩ := Option.map_eq_some_iff.mp h
  cases value with
  | str s =>
    simp only [lastWins, str.injEq] at hlast
    subst hlast
    unfold read at hread
    split at hread
    · rename_i value rest hvalue
      split at hread
      · cases hread
        have hlength := readValue_str_length hvalue
        rw [String.length_toList] at hlength
        omega
      · cases hread
    · cases hread
  | _ => simp [lastWins] at hlast

/-! ## Dicts that were read -/

/-- The dict of some pairs, in which the last value of each key wins. -/
def dictOf (acc fields : Dict) : Dict :=
  fields.foldl (fun d field => Dict.set d field.1 field.2) acc

theorem lastWinsList_eq (xs : List Json) : lastWinsList xs = xs.map lastWins := by
  induction xs with
  | nil => rw [lastWinsList, List.map_nil]
  | cons x xs ih => rw [lastWinsList, ih, List.map_cons]

theorem lastWinsFields_eq (fields : Dict) :
    lastWinsFields fields = fields.map (fun field => (field.1, lastWins field.2)) := by
  induction fields with
  | nil => rw [lastWinsFields, List.map_nil]
  | cons field fields ih => rw [lastWinsFields, ih, List.map_cons]

theorem lastWins_obj (fields : Dict) : lastWins (.obj fields) =
    .obj (dictOf [] (fields.map (fun field => (field.1, lastWins field.2)))) := by
  rw [lastWins, lastWinsFields_eq]
  rfl

theorem keys_set (d : Dict) (key : String) (value : Json) :
    (d.set key value).map Prod.fst =
      if key ∈ d.map Prod.fst then d.map Prod.fst else d.map Prod.fst ++ [key] := by
  have hany : d.any (fun field => field.1 == key) = true ↔ key ∈ d.map Prod.fst := by
    simp [List.any_eq_true]
  unfold Dict.set
  by_cases hkey : key ∈ d.map Prod.fst
  · rw [if_pos (hany.mpr hkey), if_pos hkey, List.map_map]
    apply List.map_congr_left
    intro field _
    by_cases hfield : field.1 = key <;> simp [hfield]
  · rw [if_neg (mt hany.mp hkey), if_neg hkey]
    simp

theorem nodup_keys_set {d : Dict} (h : (d.map Prod.fst).Nodup) (key : String) (value : Json) :
    ((d.set key value).map Prod.fst).Nodup := by
  rw [keys_set]
  split
  · exact h
  · rename_i hkey
    rw [List.nodup_append]
    refine ⟨h, by simp, ?_⟩
    rintro a ha b hb rfl
    exact hkey (by simpa [List.mem_singleton.mp hb] using ha)

theorem nodup_keys_dictOf {acc : Dict} (h : (acc.map Prod.fst).Nodup) (fields : Dict) :
    ((dictOf acc fields).map Prod.fst).Nodup := by
  unfold dictOf
  induction fields generalizing acc with
  | nil => exact h
  | cons field fields ih => exact ih (nodup_keys_set h field.1 field.2)

/-- Pairs without a key twice are a dict as they stand. -/
theorem dictOf_of_nodup {acc fields : Dict} (h : ((acc ++ fields).map Prod.fst).Nodup) :
    dictOf acc fields = acc ++ fields := by
  induction fields generalizing acc with
  | nil => simp [dictOf]
  | cons field fields ih =>
    have hkey : acc.any (fun f => f.1 == field.1) = false := by
      rw [List.map_append, List.nodup_append] at h
      rw [List.any_eq_false]
      intro f hf heq
      exact h.2.2 f.1 (List.mem_map_of_mem hf) field.1 (by simp) (by simpa using heq)
    have hset : Dict.set acc field.1 field.2 = acc ++ [field] := by simp [Dict.set, hkey]
    change dictOf (Dict.set acc field.1 field.2) fields = _
    rw [hset, ih (by simpa using h)]
    simp

theorem mem_dictOf {acc fields : Dict} {field : String × Json} (h : field ∈ dictOf acc fields) :
    field ∈ acc ∨ field ∈ fields := by
  induction fields generalizing acc with
  | nil => exact Or.inl h
  | cons first fields ih =>
    rcases ih h with hacc | hfields
    · change field ∈ Dict.set acc first.1 first.2 at hacc
      unfold Dict.set at hacc
      split at hacc
      · obtain ⟨old, hold, rfl⟩ := List.mem_map.mp hacc
        split
        · exact Or.inr (by simp)
        · exact Or.inl hold
      · rcases List.mem_append.mp hacc with hacc | hnew
        · exact Or.inl hacc
        · exact Or.inr (by simpa using Or.inl (List.mem_singleton.mp hnew))
    · exact Or.inr (List.mem_cons_of_mem _ hfields)

theorem map_dictOf (g : Json → Json) (acc fields : Dict) :
    (dictOf acc fields).map (fun field => (field.1, g field.2)) =
      dictOf (acc.map (fun field => (field.1, g field.2)))
        (fields.map (fun field => (field.1, g field.2))) := by
  induction fields generalizing acc with
  | nil => rfl
  | cons field fields ih =>
    have hset : (Dict.set acc field.1 field.2).map (fun f => (f.1, g f.2)) =
        Dict.set (acc.map (fun f => (f.1, g f.2))) field.1 (g field.2) := by
      unfold Dict.set
      rw [List.any_map]
      simp only [Function.comp_def]
      split
      · rw [List.map_map, List.map_map]
        apply List.map_congr_left
        intro f _
        by_cases hf : f.1 = field.1 <;> simp [hf]
      · simp
    rw [List.map_cons]
    change (dictOf (Dict.set acc field.1 field.2) fields).map _ = dictOf (Dict.set _ _ _) _
    rw [ih, hset]

/-- A dict that was read is a dict already. -/
theorem lastWins_lastWins (value : Json) : lastWins (lastWins value) = lastWins value := by
  induction value using induct with
  | arr xs ih =>
    simp only [lastWins, lastWinsList_eq, List.map_map]
    exact congrArg Json.arr (List.map_congr_left ih)
  | obj fields ih =>
    rw [lastWins_obj, lastWins_obj]
    apply congrArg Json.obj
    have hfixed : ∀ field ∈ dictOf [] (fields.map (fun field => (field.1, lastWins field.2))),
        (field.1, lastWins field.2) = field := by
      intro field hfield
      rcases mem_dictOf hfield with hnil | hmem
      · cases hnil
      · obtain ⟨old, hold, rfl⟩ := List.mem_map.mp hmem
        rw [ih old hold]
    rw [List.map_congr_left hfixed, List.map_id', dictOf_of_nodup]
    · rfl
    · simpa using nodup_keys_dictOf (by simp) _
  | _ => simp [lastWins]

theorem unifyNan_lastWins (value : Json) : (lastWins value).unifyNan = lastWins value.unifyNan := by
  induction value using induct with
  | arr xs ih =>
    simp only [lastWins, unifyNan, lastWinsList_eq, unifyNanList_eq, List.map_map]
    exact congrArg Json.arr (List.map_congr_left ih)
  | obj fields ih =>
    rw [lastWins_obj, unifyNan, unifyNanFields_eq, map_dictOf, unifyNan, unifyNanFields_eq,
      lastWins_obj, List.map_map, List.map_map]
    apply congrArg Json.obj
    apply congrArg (dictOf [])
    apply List.map_congr_left
    intro field hfield
    simp only [Function.comp, ih field hfield]
  | _ => simp [lastWins, unifyNan]

/-! ## Floats that were read -/

theorem unifyNan_readNumber (hfloats : FloatText floatRepr floatOf) {cs rest : List Char}
    {value : Json} (h : readNumber floatOf cs = some (value, rest)) : value.unifyNan = value := by
  unfold readNumber at h
  repeat' split at h
  all_goals simp only [Option.some.injEq, Prod.mk.injEq, reduceCtorEq] at h
  · simp [← h.1, unifyNan]
  · simp [← h.1, unifyNan, hfloats.number]

theorem unifyNan_words {word : String × Json} (hword : word ∈ words) :
    word.2.unifyNan = word.2 := by
  simp only [words, List.mem_cons, List.not_mem_nil, or_false] at hword
  have hinfinity : ∀ isNegative, (infinity isNegative).isNan = false := by decide
  rcases hword with rfl | rfl | rfl | rfl | rfl | rfl <;> simp [unifyNan, hinfinity]

/-- A value that was read has no NaN but one. -/
theorem unifyNan_read (hfloats : FloatText floatRepr floatOf) (fuel : Nat) :
    (∀ cs value rest, readValue floatOf fuel cs = some (value, rest) → value.unifyNan = value) ∧
    (∀ cs values rest, readItems floatOf fuel cs = some (values, rest) →
      unifyNanList values = values) ∧
    (∀ cs fields rest, readFields floatOf fuel cs = some (fields, rest) →
      unifyNanFields fields = fields) := by
  induction fuel with
  | zero => simp [readValue, readItems, readFields]
  | succ fuel ih =>
    obtain ⟨hvalue, hitems, hfields⟩ := ih
    refine ⟨?_, ?_, ?_⟩
    · intro cs value rest h
      rw [readValue] at h
      split at h
      · simp only [Option.map_eq_some_iff, Prod.mk.injEq, Prod.exists] at h
        obtain ⟨_, _, _, rfl, _⟩ := h
        simp [unifyNan]
      · split at h
        · cases h
          rw [unifyNan, unifyNanList]
        · simp only [Option.map_eq_some_iff, Prod.mk.injEq, Prod.exists] at h
          obtain ⟨values, _, hread, rfl, _⟩ := h
          rw [unifyNan, hitems _ _ _ hread]
      · split at h
        · cases h
          rw [unifyNan, unifyNanFields]
        · simp only [Option.map_eq_some_iff, Prod.mk.injEq, Prod.exists] at h
          obtain ⟨fields, _, hread, rfl, _⟩ := h
          rw [unifyNan, hfields _ _ _ hread]
      · rw [Option.or_eq_some_iff] at h
        rcases h with hnumber | ⟨_, hword⟩
        · exact unifyNan_readNumber hfloats hnumber
        · obtain ⟨word, hmem, rfl⟩ := readWord_mem hword
          exact unifyNan_words hmem
    · intro cs values rest h
      rw [readItems] at h
      simp only [Option.bind_eq_bind, Option.bind_eq_some_iff, Prod.exists] at h
      obtain ⟨value, after, hread, h⟩ := h
      have hfirst := hvalue _ _ _ hread
      split at h
      · cases h
        rw [unifyNanList, hfirst, unifyNanList]
      · simp only [Option.bind_eq_some_iff, Prod.exists] at h
        obtain ⟨more, last, hmore, h⟩ := h
        cases h
        rw [unifyNanList, hfirst, hitems _ _ _ hmore]
      · cases h
    · intro cs fields rest h
      rw [readFields] at h
      split at h
      · simp only [Option.bind_eq_bind, Option.bind_eq_some_iff, Prod.exists] at h
        obtain ⟨key, after, _, h⟩ := h
        split at h
        · simp only [Option.bind_eq_some_iff, Prod.exists] at h
          obtain ⟨value, last, hread, h⟩ := h
          have hfirst := hvalue _ _ _ hread
          split at h
          · cases h
            rw [unifyNanFields, hfirst, unifyNanFields]
          · simp only [Option.bind_eq_some_iff, Prod.exists] at h
            obtain ⟨more, last, hmore, h⟩ := h
            cases h
            rw [unifyNanFields, hfirst, hfields _ _ _ hmore]
          · cases h
        · cases h
      · cases h

/-- What was read is read again from its text, with any separators. -/
theorem loads_write (hfloats : FloatText floatRepr floatOf) {sep : Separators}
    (hsep : sep.Readable) {text : String} {value : Json} (h : loads floatOf text = some value) :
    loads floatOf (write sep floatRepr value) = some value := by
  unfold loads at h ⊢
  obtain ⟨pairs, hread, rfl⟩ := Option.map_eq_some_iff.mp h
  have hnan : pairs.unifyNan = pairs := by
    unfold read at hread
    split at hread
    · rename_i value rest hvalue
      split at hread
      · cases hread
        exact (unifyNan_read hfloats _).1 _ _ _ hvalue
      · cases hread
    · cases hread
  rw [read_write hfloats hsep, Option.map_some, unifyNan_lastWins, hnan, lastWins_lastWins]

end uni_agent.Json
