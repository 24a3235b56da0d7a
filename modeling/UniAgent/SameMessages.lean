-- When two messages count as the same. The canonical form of the code is compared with an equality
-- that says part by part what counts: the ids of tool calls do not, nor does the order of keys, and
-- arguments count by the value that they stand for.
import UniAgent.CanonicalJson
import UniAgent.Codec

namespace uni_agent

open Json (Same valuesAt valuesAt_cons valuesAt_of_nodup)

variable {C : MessageCodec}

/-! ## What counts -/

/-- The arguments of a call stand for a value: a text that is JSON for what it says, a dict and a
list for themselves. -/
inductive MessageCodec.StandsFor (C : MessageCodec) : Json → Json → Prop
  | text (text : String) (value : Json) (h : C.jsonLoads text = some value) :
      C.StandsFor (.str text) value
  | dict (fields : Dict) : C.StandsFor (.obj fields) (.obj fields)
  | list (items : List Json) : C.StandsFor (.arr items) (.arr items)

/-- Two arguments stand for the same value, or neither stands for one and they are the same. -/
inductive MessageCodec.SameArguments (C : MessageCodec) : Json → Json → Prop
  | values (x y v w : Json) (hx : C.StandsFor x v) (hy : C.StandsFor y w) (h : Same v w) :
      C.SameArguments x y
  | raw (x y : Json) (hx : ∀ v, ¬ C.StandsFor x v) (hy : ∀ w, ¬ C.StandsFor y w) (h : Same x y) :
      C.SameArguments x y

/-- Two functions of calls are dicts with the same arguments and else the same fields, or they are
no dicts and the same. -/
inductive MessageCodec.SameFunction (C : MessageCodec) : Json → Json → Prop
  | dicts (fields others : Dict)
      (harguments : Option.Rel C.SameArguments (fields.get? "arguments") (others.get? "arguments"))
      (hfields : ∀ key, key ≠ "arguments" → Option.Rel Same (fields.get? key) (others.get? key)) :
      C.SameFunction (.obj fields) (.obj others)
  | other (x y : Json) (hx : ∀ fields, x ≠ .obj fields) (h : Same x y) : C.SameFunction x y

/-- Two tool calls are the same but for their ids. -/
structure MessageCodec.SameCall (C : MessageCodec) (call call' : Dict) : Prop where
  function : Option.Rel C.SameFunction (call.get? "function") (call'.get? "function")
  fields : ∀ key, key ≠ "id" → key ≠ "function" → Option.Rel Same (call.get? key) (call'.get? key)

/-- Two messages are the same but for ids: `toolCallId` does not count. -/
structure MessageCodec.SameMessage (C : MessageCodec) (m m' : Message) : Prop where
  role : m.role = m'.role
  content : Same m.content m'.content
  name : m.name = m'.name
  toolCalls : Option.Rel (List.Forall₂ C.SameCall) m.toolCalls m'.toolCalls
  reasoningContent : m.reasoningContent = m'.reasoningContent

/-- The keys of a Python dict are distinct, here those of the calls and of their functions. -/
def Message.HasDicts (m : Message) : Prop :=
  ∀ calls, m.toolCalls = some calls → ∀ call ∈ calls, (call.map Prod.fst).Nodup ∧
    ∀ fields, Dict.get? call "function" = some (.obj fields) → (fields.map Prod.fst).Nodup

/-- A message as it counts in comparisons: its canonical form, less the order of keys. -/
def MessageCodec.canonicalForm (C : MessageCodec) (m : Message) : Json :=
  (Json.obj (C.canonicalizeMessage m)).canonical

/-! ## Dicts by their values -/

theorem valuesAt_pop (d : Dict) (key key' : String) :
    valuesAt (d.pop key) key' = if key' = key then [] else valuesAt d key' := by
  unfold Dict.pop
  induction d with
  | nil => simp
  | cons field d ih =>
    rw [List.filter_cons, valuesAt_cons]
    by_cases hkey : field.1 = key
    · rw [if_neg (by simpa using hkey), ih]
      by_cases hkey' : key' = key
      · rw [if_pos hkey', if_pos hkey']
      · rw [if_neg hkey', if_neg hkey', if_neg (fun heq => hkey' (heq.symm.trans hkey))]
    · rw [if_pos (by simpa using hkey), valuesAt_cons, ih]
      by_cases hkey' : key' = key
      · rw [if_pos hkey', if_pos hkey', if_neg (fun heq => hkey (heq.trans hkey'))]
      · rw [if_neg hkey', if_neg hkey']

/-- A key that is set has one value, and no other key loses or gains one. -/
theorem valuesAt_set {d : Dict} (h : (d.map Prod.fst).Nodup) (key : String) (value : Json)
    (key' : String) :
    valuesAt (d.set key value) key' = if key' = key then [value] else valuesAt d key' := by
  have hmap : valuesAt (d.map (fun field => if field.1 == key then (key, value) else field)) key' =
      if key' = key then (valuesAt d key').map (fun _ => value) else valuesAt d key' := by
    clear h
    induction d with
    | nil => simp
    | cons field d ih =>
      rw [List.map_cons, valuesAt_cons, ih, valuesAt_cons]
      by_cases hfield : field.1 = key
      · rw [if_pos (beq_iff_eq.mpr hfield)]
        by_cases hkey' : key' = key
        · rw [if_pos hkey', if_pos hkey', if_pos hkey'.symm, if_pos (hfield.trans hkey'.symm)]
          rfl
        · rw [if_neg hkey', if_neg hkey', if_neg (Ne.symm hkey'),
            if_neg (fun heq => hkey' (heq.symm.trans hfield))]
      · have hother : (if field.1 == key then (key, value) else field) = field :=
          if_neg (by simpa using hfield)
        rw [hother]
        by_cases hkey' : key' = key
        · have hne : field.1 ≠ key' := fun heq => hfield (heq.trans hkey')
          rw [if_pos hkey', if_pos hkey', if_neg hne, if_neg hne]
        · rw [if_neg hkey', if_neg hkey']
  unfold Dict.set
  by_cases hany : d.any (fun field => field.1 == key) = true
  · rw [if_pos hany, hmap]
    by_cases hkey' : key' = key
    · subst hkey'
      obtain ⟨field, hfield, heq⟩ := List.any_eq_true.mp hany
      have hvalue : field.2 ∈ valuesAt d key' :=
        List.mem_map.mpr ⟨field, List.mem_filter.mpr ⟨hfield, heq⟩, rfl⟩
      rw [valuesAt_of_nodup h] at hvalue ⊢
      cases hget : d.get? key' with
      | none => simp [hget] at hvalue
      | some found => simp
    · rw [if_neg hkey', if_neg hkey']
  · have hnone : valuesAt d key = [] := by
      apply Json.valuesAt_eq_nil
      intro hmem
      obtain ⟨field, hfield, heq⟩ := List.mem_map.mp hmem
      exact hany (List.any_eq_true.mpr ⟨field, hfield, beq_iff_eq.mpr heq⟩)
    rw [if_neg hany, Json.valuesAt_append, valuesAt_cons, Json.valuesAt_nil]
    by_cases hkey' : key' = key
    · rw [if_pos hkey', if_pos hkey'.symm, hkey', hnone]
      rfl
    · rw [if_neg hkey', if_neg (Ne.symm hkey'), List.append_nil]

theorem nodup_keys_pop {d : Dict} (h : (d.map Prod.fst).Nodup) (key : String) :
    ((d.pop key).map Prod.fst).Nodup :=
  (List.filter_sublist.map Prod.fst).nodup h

theorem get?_pop (d : Dict) {key key' : String} (hne : key' ≠ key) :
    (d.pop key).get? key' = d.get? key' := by
  rw [← Json.head?_valuesAt, ← Json.head?_valuesAt, valuesAt_pop, if_neg hne]

theorem forall₂_toList {α β : Type} {R : α → β → Prop} {x : Option α} {y : Option β} :
    List.Forall₂ R x.toList y.toList ↔ Option.Rel R x y := by
  cases x with
  | none => cases y <;> simp
  | some a => cases y <;> simp

theorem forall₂_map_toList {α β : Type} {R : β → β → Prop} {f : α → β} {x y : Option α} :
    List.Forall₂ R (x.toList.map f) (y.toList.map f) ↔
    Option.Rel (fun a b => R (f a) (f b)) x y := by
  rw [List.forall₂_map_left_iff, List.forall₂_map_right_iff, forall₂_toList]

/-! ## Arguments -/

theorem MessageCodec.StandsFor.unique {x v w : Json} (hv : C.StandsFor x v)
    (hw : C.StandsFor x w) : v = w := by
  cases hv with
  | text text value h =>
    cases hw with
    | text _ _ h' => exact Option.some.inj (h.symm.trans h')
  | dict fields => cases hw; rfl
  | list items => cases hw; rfl

/-- The canonical arguments say whether there is a value, and which. -/
theorem MessageCodec.canonicalizeToolArguments_cases (C : MessageCodec) (x : Json) :
    (∃ v, C.StandsFor x v ∧ C.canonicalizeToolArguments x = .arr [.str "json", v]) ∨
      ((∀ v, ¬ C.StandsFor x v) ∧ C.canonicalizeToolArguments x = .arr [.str "raw", x]) := by
  unfold MessageCodec.canonicalizeToolArguments
  cases x with
  | str text =>
    cases hloads : C.jsonLoads text with
    | some value => exact Or.inl ⟨value, .text text value hloads, by simp [hloads]⟩
    | none =>
      refine Or.inr ⟨?_, by simp [hloads]⟩
      rintro v ⟨_, _, h⟩
      simp [hloads] at h
  | obj fields => exact Or.inl ⟨_, .dict fields, rfl⟩
  | arr items => exact Or.inl ⟨_, .list items, rfl⟩
  | null => exact Or.inr ⟨fun v h => (nomatch h), rfl⟩
  | bool b => exact Or.inr ⟨fun v h => (nomatch h), rfl⟩
  | int i => exact Or.inr ⟨fun v h => (nomatch h), rfl⟩
  | float x => exact Or.inr ⟨fun v h => (nomatch h), rfl⟩

theorem same_tagged {tag tag' : String} {v w : Json} :
    Same (.arr [.str tag, v]) (.arr [.str tag', w]) ↔ tag = tag' ∧ Same v w := by
  refine ⟨?_, ?_⟩
  · intro h
    cases h with
    | arr _ _ h =>
      simp only [List.forall₂_cons, List.forall₂_nil_left_iff, and_true] at h
      obtain ⟨htag, hvalue⟩ := h
      cases htag
      exact ⟨rfl, hvalue⟩
  · rintro ⟨rfl, h⟩
    exact .arr _ _ (.cons (.str tag) (.cons h .nil))

theorem MessageCodec.sameArguments_iff {x y : Json} :
    Same (C.canonicalizeToolArguments x) (C.canonicalizeToolArguments y) ↔
      C.SameArguments x y := by
  rcases C.canonicalizeToolArguments_cases x with ⟨v, hv, hx⟩ | ⟨hnone, hx⟩
  · rcases C.canonicalizeToolArguments_cases y with ⟨w, hw, hy⟩ | ⟨hnone', hy⟩
    · rw [hx, hy, same_tagged]
      refine ⟨fun h => .values x y v w hv hw h.2, ?_⟩
      intro h
      cases h with
      | values v' w' hv' hw' h => exact ⟨rfl, hv.unique hv' ▸ hw.unique hw' ▸ h⟩
      | raw hnone _ _ => exact absurd hv (hnone v)
    · rw [hx, hy, same_tagged]
      refine ⟨fun h => absurd h.1 (by decide), ?_⟩
      intro h
      cases h with
      | values v' w' _ hw' _ => exact absurd hw' (hnone' w')
      | raw hnone _ _ => exact absurd hv (hnone v)
  · rcases C.canonicalizeToolArguments_cases y with ⟨w, hw, hy⟩ | ⟨hnone', hy⟩
    · rw [hx, hy, same_tagged]
      refine ⟨fun h => absurd h.1 (by decide), ?_⟩
      intro h
      cases h with
      | values v' w' hv' _ _ => exact absurd hv' (hnone v')
      | raw _ hnone' _ => exact absurd hw (hnone' w)
    · rw [hx, hy, same_tagged]
      refine ⟨fun h => .raw x y hnone hnone' h.2, ?_⟩
      intro h
      cases h with
      | values v' w' hv' _ _ => exact absurd hv' (hnone v')
      | raw _ _ h => exact ⟨rfl, h⟩

/-! ## Calls -/

/-- The function of a call in canonical form. -/
def MessageCodec.canonicalFunction (C : MessageCodec) : Json → Json
  | .obj function =>
    match Dict.get? function "arguments" with
    | some arguments =>
      .obj (Dict.set function "arguments" (C.canonicalizeToolArguments arguments))
    | none => .obj function
  | other => other

theorem valuesAt_canonicalFunction {fields : Dict} (h : (fields.map Prod.fst).Nodup) :
    ∃ canonical, C.canonicalFunction (.obj fields) = .obj canonical ∧ ∀ key,
      valuesAt canonical key =
        if key = "arguments" then
          (fields.get? "arguments").toList.map C.canonicalizeToolArguments
        else (fields.get? key).toList := by
  unfold MessageCodec.canonicalFunction
  cases harguments : Dict.get? fields "arguments" with
  | none =>
    refine ⟨fields, by simp [harguments], ?_⟩
    intro key
    rw [valuesAt_of_nodup h]
    split
    · next hkey => simp [hkey, harguments]
    · rfl
  | some arguments =>
    refine ⟨Dict.set fields "arguments" (C.canonicalizeToolArguments arguments),
      by simp only [harguments], ?_⟩
    intro key
    rw [valuesAt_set h, valuesAt_of_nodup h]
    rfl

theorem same_obj_iff {fields others : Dict} : Same (.obj fields) (.obj others) ↔
    ∀ key, List.Forall₂ Same (valuesAt fields key) (valuesAt others key) := by
  refine ⟨?_, fun h => .obj fields others h⟩
  intro h
  cases h with
  | obj _ _ h => exact h

/-- The functions of calls in canonical form are the same exactly when the functions are. -/
theorem MessageCodec.sameFunction_iff {x y : Json}
    (hx : ∀ fields, x = .obj fields → (fields.map Prod.fst).Nodup)
    (hy : ∀ fields, y = .obj fields → (fields.map Prod.fst).Nodup) :
    Same (C.canonicalFunction x) (C.canonicalFunction y) ↔ C.SameFunction x y := by
  by_cases hdict : ∃ fields, x = .obj fields
  · obtain ⟨fields, rfl⟩ := hdict
    obtain ⟨canonical, hcanonical, hvalues⟩ := valuesAt_canonicalFunction (C := C) (hx fields rfl)
    by_cases hdict' : ∃ others, y = .obj others
    · obtain ⟨others, rfl⟩ := hdict'
      obtain ⟨canonical', hcanonical', hvalues'⟩ :=
        valuesAt_canonicalFunction (C := C) (hy others rfl)
      rw [hcanonical, hcanonical', same_obj_iff]
      simp only [hvalues, hvalues']
      refine ⟨?_, ?_⟩
      · intro h
        refine .dicts fields others ?_ ?_
        · have harguments := h "arguments"
          rw [if_pos rfl, if_pos rfl, forall₂_map_toList] at harguments
          simpa only [C.sameArguments_iff] using harguments
        · intro key hkey
          have hvalue := h key
          rwa [if_neg hkey, if_neg hkey, forall₂_toList] at hvalue
      · intro h key
        cases h with
        | other _ _ hnot _ => exact absurd rfl (hnot fields)
        | dicts _ _ harguments hfields =>
          by_cases hkey : key = "arguments"
          · rw [if_pos hkey, if_pos hkey, forall₂_map_toList]
            simpa only [C.sameArguments_iff] using harguments
          · rw [if_neg hkey, if_neg hkey, forall₂_toList]
            exact hfields key hkey
    · refine ⟨?_, ?_⟩
      · intro h
        rw [hcanonical] at h
        cases y with
        | obj others => exact absurd ⟨others, rfl⟩ hdict'
        | _ => cases h
      · intro h
        cases h with
        | dicts _ others _ _ => exact absurd ⟨others, rfl⟩ hdict'
        | other _ _ hnot _ => exact absurd rfl (hnot fields)
  · have hsame : C.canonicalFunction x = x := by
      cases x with
      | obj fields => exact absurd ⟨fields, rfl⟩ hdict
      | _ => rfl
    rw [hsame]
    refine ⟨?_, ?_⟩
    · intro h
      refine .other x y (fun fields heq => hdict ⟨fields, heq⟩) ?_
      cases y with
      | obj others =>
        obtain ⟨canonical', hcanonical', _⟩ :=
          valuesAt_canonicalFunction (C := C) (hy others rfl)
        rw [hcanonical'] at h
        cases h with
        | obj fields _ _ => exact absurd ⟨fields, rfl⟩ hdict
      | _ => exact h
    · intro h
      cases h with
      | dicts fields _ _ _ => exact absurd ⟨fields, rfl⟩ hdict
      | other _ _ _ h =>
        cases y with
        | obj others =>
          cases h with
          | obj fields _ _ => exact absurd ⟨fields, rfl⟩ hdict
        | _ => exact h

theorem valuesAt_canonicalizeToolCall {call : Dict} (h : (call.map Prod.fst).Nodup) (key : String) :
    valuesAt (C.canonicalizeToolCall call) key =
      if key = "id" then []
      else if key = "function" then (call.get? "function").toList.map C.canonicalFunction
      else (call.get? key).toList := by
  have hpop : ∀ key, valuesAt (call.pop "id") key =
      if key = "id" then [] else (call.get? key).toList := by
    intro key
    rw [valuesAt_pop, valuesAt_of_nodup h]
  have hget : (call.pop "id").get? "function" = call.get? "function" := get?_pop call (by decide)
  unfold MessageCodec.canonicalizeToolCall MessageCodec.canonicalFunction
  simp only [hget]
  cases hfunction : Dict.get? call "function" with
  | none =>
    simp only [hpop]
    by_cases hkey : key = "function"
    · simp [hkey, hfunction]
    · rw [if_neg hkey]
  | some function =>
    cases function with
    | obj fields =>
      cases harguments : Dict.get? fields "arguments" with
      | none =>
        simp only [hpop, harguments]
        by_cases hkey : key = "function"
        · simp [hkey, hfunction, harguments]
        · rw [if_neg hkey]
      | some arguments =>
        simp only [harguments, valuesAt_set (nodup_keys_pop h "id"), hpop]
        by_cases hkey : key = "function"
        · simp [hkey, harguments]
        · rw [if_neg hkey, if_neg hkey]
    | _ =>
      simp only [hpop]
      by_cases hkey : key = "function"
      · simp [hkey, hfunction]
      · rw [if_neg hkey]

/-- Calls in canonical form are the same exactly when the calls are the same but for their ids. -/
theorem MessageCodec.sameCall_iff {call call' : Dict}
    (hcall : (call.map Prod.fst).Nodup ∧
      ∀ fields, Dict.get? call "function" = some (.obj fields) → (fields.map Prod.fst).Nodup)
    (hcall' : (call'.map Prod.fst).Nodup ∧
      ∀ fields, Dict.get? call' "function" = some (.obj fields) → (fields.map Prod.fst).Nodup) :
    Same (.obj (C.canonicalizeToolCall call)) (.obj (C.canonicalizeToolCall call')) ↔
      C.SameCall call call' := by
  have hfunction : ∀ {x y : Json}, call.get? "function" = some x → call'.get? "function" = some y →
      (Same (C.canonicalFunction x) (C.canonicalFunction y) ↔ C.SameFunction x y) := by
    intro x y hx hy
    apply C.sameFunction_iff
    · rintro fields rfl
      exact hcall.2 fields hx
    · rintro fields rfl
      exact hcall'.2 fields hy
  have hrel : Option.Rel (fun x y => Same (C.canonicalFunction x) (C.canonicalFunction y))
      (call.get? "function") (call'.get? "function") ↔
        Option.Rel C.SameFunction (call.get? "function") (call'.get? "function") := by
    cases hx : Dict.get? call "function" with
    | none => cases hy : Dict.get? call' "function" <;> simp
    | some x =>
      cases hy : Dict.get? call' "function" with
      | none => simp
      | some y =>
        rw [Option.rel_some_some, Option.rel_some_some]
        exact hfunction hx hy
  rw [same_obj_iff]
  simp only [valuesAt_canonicalizeToolCall hcall.1, valuesAt_canonicalizeToolCall hcall'.1]
  refine ⟨?_, ?_⟩
  · intro h
    constructor
    · have hvalue := h "function"
      have hid : "function" ≠ "id" := by decide
      rw [if_neg hid, if_neg hid, if_pos rfl, if_pos rfl, forall₂_map_toList] at hvalue
      exact hrel.mp hvalue
    · intro key hid hkey
      have hvalue := h key
      rwa [if_neg hid, if_neg hid, if_neg hkey, if_neg hkey, forall₂_toList] at hvalue
  · intro h key
    by_cases hid : key = "id"
    · rw [if_pos hid, if_pos hid]
      exact .nil
    · rw [if_neg hid, if_neg hid]
      by_cases hkey : key = "function"
      · rw [if_pos hkey, if_pos hkey, forall₂_map_toList]
        exact hrel.mpr h.function
      · rw [if_neg hkey, if_neg hkey, forall₂_toList]
        exact h.fields key hid hkey

/-! ## Messages -/

/-- The canonical form has all fields of the message but `tool_call_id`, with canonical calls. -/
theorem MessageCodec.canonicalizeMessage_eq (C : MessageCodec) (m : Message) :
    C.canonicalizeMessage m = [("role", .str m.role), ("content", m.content)] ++
      optionalField "name" .str m.name ++
      optionalField "tool_calls"
        (fun calls => .arr (calls.map (fun call => .obj (C.canonicalizeToolCall call))))
        m.toolCalls ++
      optionalField "reasoning_content" (fun text => text.elim .null .str) m.reasoningContent := by
  obtain ⟨role, content, name, toolCalls, toolCallId, reasoning⟩ := m
  unfold MessageCodec.canonicalizeMessage Message.toDict
  cases name <;> cases toolCalls <;> cases toolCallId <;> cases reasoning <;> rfl

theorem valuesAt_optionalField {α : Type} (name : String) (toJson : α → Json) (x : Option α)
    (key : String) :
    valuesAt (optionalField name toJson x) key =
      if name = key then x.toList.map toJson else [] := by
  unfold optionalField
  cases x with
  | none => simp
  | some a =>
    rw [valuesAt_cons, Json.valuesAt_nil]
    rfl

/-- The values of the canonical form under each key. -/
theorem MessageCodec.valuesAt_canonicalizeMessage (C : MessageCodec) (m : Message) (key : String) :
    valuesAt (C.canonicalizeMessage m) key =
      (if "role" = key then [.str m.role] else []) ++
      (if "content" = key then [m.content] else []) ++
      (if "name" = key then m.name.toList.map .str else []) ++
      (if "tool_calls" = key then m.toolCalls.toList.map
        (fun calls => .arr (calls.map (fun call => .obj (C.canonicalizeToolCall call)))) else []) ++
      (if "reasoning_content" = key then
        m.reasoningContent.toList.map (fun text => text.elim .null .str) else []) := by
  rw [C.canonicalizeMessage_eq]
  simp only [Json.valuesAt_append, valuesAt_optionalField, valuesAt_cons, Json.valuesAt_nil]
  congr 3
  by_cases hrole : "role" = key
  · subst hrole
    simp
  · simp [hrole]

theorem same_str_iff {s t : String} : Same (.str s) (.str t) ↔ s = t := by
  refine ⟨?_, ?_⟩
  · intro h
    cases h
    rfl
  · rintro rfl
    exact .str s

theorem rel_same_str {x y : Option String} :
    Option.Rel (fun s t => Same (.str s) (.str t)) x y ↔ x = y := by
  cases x <;> cases y <;> simp [same_str_iff]

theorem rel_same_reasoning {x y : Option (Option String)} :
    Option.Rel (fun s t : Option String =>
      Same (s.elim .null .str) (t.elim .null .str)) x y ↔ x = y := by
  have hiff : ∀ s t : Option String, Same (s.elim .null .str) (t.elim .null .str) ↔ s = t := by
    intro s t
    cases s with
    | none =>
      cases t with
      | none => exact ⟨fun _ => rfl, fun _ => .null⟩
      | some t => exact ⟨fun h => (nomatch h), fun h => (nomatch h)⟩
    | some s =>
      cases t with
      | none => exact ⟨fun h => (nomatch h), fun h => (nomatch h)⟩
      | some t =>
        rw [Option.some.injEq]
        exact same_str_iff
  cases x <;> cases y <;> simp [hiff]

theorem same_arr_iff {xs ys : List Json} :
    Same (.arr xs) (.arr ys) ↔ List.Forall₂ Same xs ys := by
  refine ⟨?_, fun h => .arr xs ys h⟩
  intro h
  cases h with
  | arr _ _ h => exact h

/-- Lists of calls in canonical form are the same exactly when the calls are. -/
theorem MessageCodec.sameCalls_iff {m m' : Message} (hm : m.HasDicts) (hm' : m'.HasDicts) :
    Option.Rel (fun calls calls' : List Dict =>
      Same (.arr (calls.map (fun call => .obj (C.canonicalizeToolCall call))))
        (.arr (calls'.map (fun call => .obj (C.canonicalizeToolCall call)))))
      m.toolCalls m'.toolCalls ↔
    Option.Rel (List.Forall₂ C.SameCall) m.toolCalls m'.toolCalls := by
  cases hcalls : m.toolCalls with
  | none => cases hcalls' : m'.toolCalls <;> simp
  | some calls =>
    cases hcalls' : m'.toolCalls with
    | none => simp
    | some calls' =>
      have hdicts := hm calls hcalls
      have hdicts' := hm' calls' hcalls'
      clear hcalls hcalls'
      rw [Option.rel_some_some, Option.rel_some_some, same_arr_iff, List.forall₂_map_left_iff,
        List.forall₂_map_right_iff]
      induction calls generalizing calls' with
      | nil => cases calls' <;> simp
      | cons call calls ih =>
        cases calls' with
        | nil => simp
        | cons call' calls' =>
          have hfirst := C.sameCall_iff (hdicts call (by simp)) (hdicts' call' (by simp))
          have hrest := ih calls' (fun c hc => hdicts c (List.mem_cons_of_mem _ hc))
            (fun c hc => hdicts' c (List.mem_cons_of_mem _ hc))
          rw [List.forall₂_cons, List.forall₂_cons]
          exact and_congr hfirst hrest

/-- Two messages have one canonical form exactly when they are the same but for their ids. -/
theorem MessageCodec.canonicalForm_eq_iff {m m' : Message} (hm : m.HasDicts) (hm' : m'.HasDicts) :
    C.canonicalForm m = C.canonicalForm m' ↔ C.SameMessage m m' := by
  unfold MessageCodec.canonicalForm
  rw [← Json.same_iff, same_obj_iff]
  simp only [C.valuesAt_canonicalizeMessage]
  refine ⟨?_, ?_⟩
  · intro h
    constructor
    · have hrole := h "role"
      simpa [same_str_iff] using hrole
    · have hcontent := h "content"
      simpa using hcontent
    · have hname := h "name"
      simp only [reduceIte, String.reduceEq, List.nil_append, List.append_nil] at hname
      exact rel_same_str.mp (forall₂_map_toList.mp hname)
    · have hcalls := h "tool_calls"
      simp only [reduceIte, String.reduceEq, List.nil_append, List.append_nil] at hcalls
      exact (C.sameCalls_iff hm hm').mp (forall₂_map_toList.mp hcalls)
    · have hreasoning := h "reasoning_content"
      simp only [reduceIte, String.reduceEq, List.nil_append] at hreasoning
      exact rel_same_reasoning.mp (forall₂_map_toList.mp hreasoning)
  · intro h key
    have hpiece : ∀ {name : String} {vs ws : List Json}, List.Forall₂ Same vs ws →
        List.Forall₂ Same (if name = key then vs else []) (if name = key then ws else []) := by
      intro name vs ws hsame
      split
      · exact hsame
      · exact .nil
    refine List.rel_append (List.rel_append (List.rel_append (List.rel_append ?_ ?_) ?_) ?_) ?_
    · exact hpiece (.cons (same_str_iff.mpr h.role) .nil)
    · exact hpiece (.cons h.content .nil)
    · exact hpiece (forall₂_map_toList.mpr (rel_same_str.mpr h.name))
    · exact hpiece (forall₂_map_toList.mpr ((C.sameCalls_iff hm hm').mpr h.toolCalls))
    · exact hpiece (forall₂_map_toList.mpr (rel_same_reasoning.mpr h.reasoningContent))

end uni_agent
