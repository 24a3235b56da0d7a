-- Replies that a client sends back as they are. The adapters parse the arguments of tool calls,
-- and the comparison parses them too, so an echo is recognised only for arguments on which the
-- two agree.
import UniAgent.CanonicalPrefixes
import UniAgent.LoadedJson
import UniAgent.PrefixStability

namespace uni_agent

open anthropic (toolCallOf)

variable {C : MessageCodec} {py : PythonLibrary} {floatOf : String → PyFloat}

/-- `json.loads` of the codec, as the adapters see it. -/
def MessageCodec.loaded (C : MessageCodec) (text : String) : Loaded :=
  (C.jsonLoads text).elim .decodeError .value

/-- The codec and the adapters use one library, which reads JSON and writes floats as Python
does. -/
structure SharedLibrary (C : MessageCodec) (py : PythonLibrary) (floatOf : String → PyFloat) :
    Prop where
  loads : C.jsonLoads = Json.loads floatOf
  shared : py.jsonLoads = C.loaded
  floats : Json.FloatText C.floatRepr floatOf

/-! ## Replies -/

def assistantReply (content : String) (toolCalls : Option (List Dict)) : Message :=
  { role := "assistant", content := .str content, toolCalls }

/-- The tool calls of a reply. -/
def decodedCalls (callIds : Nat → String) (calls : List FunctionCall) : Option (List Dict) :=
  if calls.isEmpty then none
  else some (calls.zipIdx.map (fun call =>
    toolCallOf (callIds call.2) call.1.name (.str call.1.arguments)))

/-- The argument text of a tool call. -/
def argumentText? (toolCall : Dict) : Option String :=
  match toolCall.get? "function" with
  | some (.obj function) =>
    match Dict.get? function "arguments" with
    | some (.str text) => some text
    | _ => none
  | _ => none

def argumentTexts (m : Message) : List String := (m.toolCalls.getD []).filterMap argumentText?

/-- A reply is a text with tool calls. -/
theorem decodeResponse_eq_ok {responseIds : List Token} {tools : Option (List Json)}
    {stopReason : Option String} {callIds : Nat → String} {m : Message} {finishReason : String}
    (h : C.decodeResponse responseIds tools stopReason callIds = .ok (m, finishReason)) :
    ∃ content calls, m = assistantReply content (decodedCalls callIds calls) := by
  unfold MessageCodec.decodeResponse at h
  split at h
  · split at h
    · cases h
    · rename_i content calls _
      split at h
      · cases h
        exact ⟨_, [], rfl⟩
      · rename_i hcalls
        cases h
        refine ⟨content, calls, ?_⟩
        simp only [decodedCalls, hcalls]
        rfl
  · cases h
    exact ⟨_, [], rfl⟩

theorem forall_zipIdx {α : Type} {P : α → Prop} (xs : List α) :
    (∀ x ∈ xs.zipIdx, P x.1) ↔ ∀ x ∈ xs, P x := by
  conv => rhs; rw [← List.zipIdx_map_fst 0 xs]
  simp only [List.mem_map, forall_exists_index, and_imp, forall_apply_eq_imp_iff₂]

theorem forall_argumentTexts {P : String → Prop} (content : String) (callIds : Nat → String)
    (calls : List FunctionCall) :
    (∀ text ∈ argumentTexts (assistantReply content (decodedCalls callIds calls)), P text) ↔
      ∀ call ∈ calls, P call.arguments := by
  rw [← forall_zipIdx (P := fun call : FunctionCall => P call.arguments) calls]
  have htext : ∀ call : FunctionCall × Nat, argumentText?
      (toolCallOf (callIds call.2) call.1.name (.str call.1.arguments)) = some call.1.arguments :=
    fun _ => rfl
  unfold argumentTexts assistantReply decodedCalls
  cases calls with
  | nil => simp
  | cons call calls =>
    rw [List.isEmpty_cons, if_neg (by simp), Option.getD_some, List.filterMap_map]
    simp only [List.mem_filterMap, Function.comp, htext, Option.some.injEq, forall_exists_index,
      and_imp, forall_apply_eq_imp_iff₂]

/-! ## The form of a reply -/

theorem canonicalizeToolCall_toolCallOf (id name : String) (arguments : Json) :
    C.canonicalizeToolCall (toolCallOf id name arguments) = [("type", .str "function"),
      ("function", .obj [("name", .str name),
        ("arguments", C.canonicalizeToolArguments arguments)])] := by
  rfl

theorem canonicalizeMessage_reply (content : String) (toolCalls : List Dict) :
    C.canonicalizeMessage (assistantReply content (some toolCalls)) =
      [("role", .str "assistant"), ("content", .str content),
        ("tool_calls", .arr (toolCalls.map (fun call => .obj (C.canonicalizeToolCall call))))] := by
  rfl

/-- Two replies with the same text and the same names count as equal when their arguments do. -/
theorem canonicalForm_reply_iff {α : Type} (content : String) (xs : List α)
    (id id' name : α → String) (arguments arguments' : α → Json) :
    C.canonicalForm (assistantReply content
        (some (xs.map (fun x => toolCallOf (id' x) (name x) (arguments' x))))) =
      C.canonicalForm (assistantReply content
        (some (xs.map (fun x => toolCallOf (id x) (name x) (arguments x))))) ↔
      ∀ x ∈ xs, (C.canonicalizeToolArguments (arguments' x)).canonical =
        (C.canonicalizeToolArguments (arguments x)).canonical := by
  unfold MessageCodec.canonicalForm
  simp only [canonicalizeMessage_reply, List.map_map, Function.comp_def,
    canonicalizeToolCall_toolCallOf]
  refine ⟨?_, ?_⟩
  · intro h x hx
    have hcalls := Json.get?_of_canonical_eq h "tool_calls"
    simp only [Dict.get?, List.lookup_cons, show ("tool_calls" == "role") = false by decide,
      show ("tool_calls" == "content") = false by decide, beq_self_eq_true, Option.map_some,
      Option.some.injEq, Json.canonical_arr, Json.arr.injEq, List.map_map] at hcalls
    have hcall := List.map_inj_left.mp hcalls x hx
    have hfunction := Json.get?_of_canonical_eq hcall "function"
    simp only [Dict.get?, List.lookup_cons, show ("function" == "type") = false by decide,
      beq_self_eq_true, Option.map_some, Option.some.injEq] at hfunction
    have harguments := Json.get?_of_canonical_eq hfunction "arguments"
    simpa only [Dict.get?, List.lookup_cons, show ("arguments" == "name") = false by decide,
      beq_self_eq_true, Option.map_some, Option.some.injEq] using harguments
  · intro h
    apply Json.canonical_obj_congr
    simp only [List.map_cons, List.map_nil, Json.canonical_arr, List.map_map, Function.comp_def]
    have hcalls : ∀ x ∈ xs, Json.canonical (.obj [("type", .str "function"),
          ("function", .obj [("name", .str (name x)),
            ("arguments", C.canonicalizeToolArguments (arguments' x))])]) =
        Json.canonical (.obj [("type", .str "function"),
          ("function", .obj [("name", .str (name x)),
            ("arguments", C.canonicalizeToolArguments (arguments x))])]) := by
      intro x hx
      apply Json.canonical_obj_congr
      have hfunction := Json.canonical_obj_congr
        (d := [("name", .str (name x)), ("arguments", C.canonicalizeToolArguments (arguments' x))])
        (e := [("name", .str (name x)), ("arguments", C.canonicalizeToolArguments (arguments x))])
        (by simp only [List.map_cons, List.map_nil, h x hx])
      simp only [List.map_cons, List.map_nil, hfunction]
    rw [List.map_congr_left hcalls]

theorem canonical_str_iff {value : Json} {text : String} :
    value.canonical = .str text ↔ value = .str text := by
  cases value <;> simp [Json.canonical]

theorem canonical_tagged {tag tag' : String} {value value' : Json} :
    Json.canonical (.arr [.str tag, value]) = Json.canonical (.arr [.str tag', value']) ↔
      tag = tag' ∧ value.canonical = value'.canonical := by
  rw [Json.canonical_arr, Json.canonical_arr]
  simp [Json.canonical]

/-- Messages with one form have one hash. -/
theorem computeMessageHash_congr {m m' : Message} (hfloats : Json.FloatText C.floatRepr floatOf)
    (h : C.canonicalForm m' = C.canonicalForm m) :
    C.computeMessageHash m' = C.computeMessageHash m := by
  unfold MessageCodec.computeMessageHash
  rw [(C.canonicalJson_eq_iff hfloats m' m).mpr h]

theorem mapM_map_eq_ok {α β γ ε : Type} {f : β → Except ε γ} {g : α → β} {h : α → γ} {xs : List α}
    (hf : ∀ x ∈ xs, f (g x) = .ok (h x)) : (xs.map g).mapM f = .ok (xs.map h) := by
  induction xs with
  | nil => rfl
  | cons x xs ih =>
    rw [List.map_cons, List.mapM_cons, hf x (by simp),
      ih (fun y hy => hf y (List.mem_cons_of_mem _ hy))]
    rfl

/-! ## OpenAI echoes -/

/-- `choices[0].message` of a response. -/
def choiceMessage (response : Dict) : Option Json :=
  match response.get? "choices" with
  | some (.arr (.obj choice :: _)) => Dict.get? choice "message"
  | _ => none

/-- The argument texts on which the adapter and the comparison agree: those that are not JSON,
and those of objects and arrays. -/
def KeptByOpenAI (C : MessageCodec) (text : String) : Prop :=
  C.jsonLoads text = none ∨ (∃ fields, C.jsonLoads text = some (.obj fields)) ∨
    ∃ items, C.jsonLoads text = some (.arr items)

theorem canonicalizeToolArguments_parsed_iff (hlib : SharedLibrary C py floatOf) (text : String) :
    (C.canonicalizeToolArguments ((C.jsonLoads text).getD (.str text))).canonical =
      (C.canonicalizeToolArguments (.str text)).canonical ↔ KeptByOpenAI C text := by
  have hself : C.jsonLoads text ≠ some (.str text) := by
    rw [hlib.loads]
    exact Json.loads_ne_self floatOf text
  unfold KeptByOpenAI
  cases hloads : C.jsonLoads text with
  | none => simp [MessageCodec.canonicalizeToolArguments, hloads]
  | some value =>
    cases value with
    | obj fields => simp [MessageCodec.canonicalizeToolArguments, hloads]
    | arr items => simp [MessageCodec.canonicalizeToolArguments, hloads]
    | str inner =>
      simp only [MessageCodec.canonicalizeToolArguments, hloads, Option.getD_some, reduceCtorEq,
        Option.some.injEq, exists_false, or_self, iff_false]
      cases hinner : C.jsonLoads inner with
      | none => simp [canonical_tagged]
      | some value =>
        simp only [canonical_tagged, true_and]
        intro heq
        rw [show (Json.str inner).canonical = .str inner by simp [Json.canonical],
          canonical_str_iff] at heq
        rw [heq, hlib.loads] at hinner
        exact Json.loads_ne_self floatOf inner hinner
    | _ => simp [MessageCodec.canonicalizeToolArguments, hloads, canonical_tagged]

theorem normalizeToolCall_toolCallOf (hshared : py.jsonLoads = C.loaded) (id name text : String) :
    openai.normalizeToolCall py (.obj (toolCallOf id name (.str text))) =
      .ok (toolCallOf id name ((C.jsonLoads text).getD (.str text))) := by
  have hparse : openai.parseArguments py [("name", .str name), ("arguments", .str text)] =
      .ok [("name", .str name), ("arguments", (C.jsonLoads text).getD (.str text))] := by
    have hget : Dict.get? [("name", .str name), ("arguments", .str text)] "arguments" =
        some (.str text) := rfl
    unfold openai.parseArguments
    simp only [hget, hshared, MessageCodec.loaded]
    cases C.jsonLoads text with
    | none => rfl
    | some value => rfl
  have hget : Dict.get? (toolCallOf id name (.str text)) "function" =
      some (.obj [("name", .str name), ("arguments", .str text)]) := rfl
  simp only [openai.normalizeToolCall, hget, hparse]
  rfl

/-- What a reply is normalized to, when it comes back. -/
theorem normalizeMessage_reply (hshared : py.jsonLoads = C.loaded) (content : String)
    (callIds : Nat → String) (calls : List FunctionCall) :
    openai.normalizeMessage py
        (.obj (assistantReply content (decodedCalls callIds calls)).toDict) =
      .ok (assistantReply content (if calls.isEmpty then none
        else some (calls.zipIdx.map (fun call => toolCallOf (callIds call.2) call.1.name
          ((C.jsonLoads call.1.arguments).getD (.str call.1.arguments)))))) := by
  cases calls with
  | nil => rfl
  | cons call calls =>
    have hcalls : openai.normalizeToolCalls py (.arr (((call :: calls).zipIdx.map (fun call =>
          toolCallOf (callIds call.2) call.1.name (.str call.1.arguments))).map .obj)) =
        .ok ((call :: calls).zipIdx.map (fun call => toolCallOf (callIds call.2) call.1.name
          ((C.jsonLoads call.1.arguments).getD (.str call.1.arguments)))) := by
      unfold openai.normalizeToolCalls
      rw [List.map_map]
      exact mapM_map_eq_ok (fun call _ => normalizeToolCall_toolCallOf hshared _ _ _)
    simp only [decodedCalls, List.isEmpty_cons, Bool.false_eq_true, if_false]
    unfold openai.normalizeMessage
    have htool : openai.messageToolCalls py (assistantReply content (some
        ((call :: calls).zipIdx.map (fun call =>
          toolCallOf (callIds call.2) call.1.name (.str call.1.arguments))))).toDict =
        .ok (some ((call :: calls).zipIdx.map (fun call => toolCallOf (callIds call.2) call.1.name
          ((C.jsonLoads call.1.arguments).getD (.str call.1.arguments))))) := by
      have hget : Dict.get? (assistantReply content (some ((call :: calls).zipIdx.map (fun call =>
          toolCallOf (callIds call.2) call.1.name (.str call.1.arguments))))).toDict
          "tool_calls" = some (.arr (((call :: calls).zipIdx.map (fun call =>
            toolCallOf (callIds call.2) call.1.name (.str call.1.arguments))).map .obj)) := rfl
      simp only [openai.messageToolCalls, hget, hcalls]
      rfl
    simp only [htool]
    rfl

/-- The message at one place of a request is lowered to the message at that place. -/
theorem openaiToInternal_getElem? {base : Dict} {allowed : List String} {payload : Dict}
    {request : LoweredRequest} {before after : List Json} {message : Json} {m : Message}
    (hmessages : payload.get? "messages" = some (.arr (before ++ message :: after)))
    (hm : openai.normalizeMessage py message = .ok m)
    (h : openai.openaiToInternal py base allowed (.obj payload) = .ok request) :
    request.messages[before.length]? = some m := by
  simp only [openai.openaiToInternal, bind_eq_ok] at h
  obtain ⟨_, _, _, _, messages, hget, _, _, lowered, hlowered, h⟩ := h
  cases h
  have heq : messages = before ++ message :: after := by
    unfold openai.messagesOf at hget
    rw [hmessages] at hget
    split at hget
    · rename_i hcons
      cases hget
      simpa using hcons.symm
    · cases hget
  rw [heq, List.mapM_append] at hlowered
  simp only [List.mapM_cons, hm, bind_eq_ok] at hlowered
  obtain ⟨front, hfront, back, ⟨_, hfirst, rest, _, hback⟩, hlowered⟩ := hlowered
  cases hfirst
  cases hback
  cases hlowered
  have hlength : front.length = before.length := by
    clear heq hget hmessages
    induction before generalizing front with
    | nil =>
      cases hfront
      rfl
    | cons x before ih =>
      simp only [List.mapM_cons, bind_eq_ok] at hfront
      obtain ⟨y, _, ys, hys, hfront⟩ := hfront
      cases hfront
      simp [ih ys hys]
  simp [← hlength]

section OpenAI

variable {responseIds : List Token} {tools : Option (List Json)} {stopReason : Option String}
  {callIds : Nat → String} {outcome : session.GenerationOutcome} {base : Dict}
  {allowed : List String} {payload : Dict} {request : LoweredRequest} {before after : List Json}

theorem canonicalForm_openaiEcho_iff (hlib : SharedLibrary C py floatOf) (content : String)
    (calls : List FunctionCall) :
    C.canonicalForm (assistantReply content (if calls.isEmpty then none
        else some (calls.zipIdx.map (fun call => toolCallOf (callIds call.2) call.1.name
          ((C.jsonLoads call.1.arguments).getD (.str call.1.arguments)))))) =
      C.canonicalForm (assistantReply content (decodedCalls callIds calls)) ↔
      ∀ call ∈ calls, KeptByOpenAI C call.arguments := by
  cases calls with
  | nil => simp [decodedCalls]
  | cons call calls =>
    rw [← forall_zipIdx (P := fun call : FunctionCall => KeptByOpenAI C call.arguments),
      decodedCalls, List.isEmpty_cons, if_neg (by simp), if_neg (by simp),
      canonicalForm_reply_iff]
    apply forall₂_congr
    intro call _
    exact canonicalizeToolArguments_parsed_iff hlib call.1.arguments

/-- An echoed reply is the stored reply again exactly when its arguments are kept. -/
theorem openai_echo_is_recognised_iff {envelope : openai.Envelope} {echo : Json}
    (hlib : SharedLibrary C py floatOf)
    (hdecode : C.decodeResponse responseIds tools stopReason callIds =
      .ok (outcome.assistantMsg, outcome.finishReason))
    (hecho : choiceMessage (openai.openaiBuildResponse envelope outcome) = some echo)
    (hmessages : payload.get? "messages" = some (.arr (before ++ echo :: after)))
    (h : openai.openaiToInternal py base allowed (.obj payload) = .ok request) :
    ∃ m, request.messages[before.length]? = some m ∧
      (C.canonicalForm m = C.canonicalForm outcome.assistantMsg ∧
          C.computeMessageHash m = C.computeMessageHash outcome.assistantMsg ↔
        ∀ text ∈ argumentTexts outcome.assistantMsg, KeptByOpenAI C text) := by
  obtain ⟨content, calls, hreply⟩ := decodeResponse_eq_ok hdecode
  have hget : echo = .obj outcome.assistantMsg.toDict := by
    change some (Json.obj outcome.assistantMsg.toDict) = some echo at hecho
    exact (Option.some.inj hecho).symm
  subst hget
  have hnormal := normalizeMessage_reply hlib.shared content callIds calls
  rw [← hreply] at hnormal
  refine ⟨_, openaiToInternal_getElem? hmessages hnormal h, ?_⟩
  rw [hreply, forall_argumentTexts, ← canonicalForm_openaiEcho_iff hlib content calls]
  exact and_iff_left_of_imp (computeMessageHash_congr hlib.floats)

end OpenAI

/-- A codec whose tool parser finds one call with some arguments in every output. -/
def callingCodec (arguments : String) : MessageCodec :=
  { session.tellingCodec with
    jsonLoads := Json.loads Json.floatOfBits
    toolParserName := some "parser"
    extractToolCalls := fun _ _ _ => .ok ("", [⟨"f", arguments⟩]) }

theorem sharedLibrary_callingCodec (arguments : String) :
    SharedLibrary (callingCodec arguments) plainPython Json.floatOfBits :=
  ⟨rfl, rfl, Json.floatText_bitsText⟩

/-- The outcome of a generation with this codec. -/
def callingOutcome (arguments : String) : session.GenerationOutcome :=
  { assistantMsg := assistantReply "" (decodedCalls (fun _ => "call") [⟨"f", arguments⟩])
    finishReason := "tool_calls"
    promptTokens := 1
    completionTokens := 1 }

theorem decodeResponse_callingCodec (arguments : String) :
    (callingCodec arguments).decodeResponse [] (some [.null]) none (fun _ => "call") =
      .ok ((callingOutcome arguments).assistantMsg, (callingOutcome arguments).finishReason) := rfl

theorem exists_ok_of_test {ε α : Type} {x : Except ε α} (h : x.toOption.isSome = true) :
    ∃ a, x = .ok a := by
  cases x with
  | error e => simp [Except.toOption] at h
  | ok a => exact ⟨a, rfl⟩

/-- A request that echoes the outcome on the OpenAI route. -/
def openaiEcho (arguments : String) : Dict :=
  [("messages", .arr ([] ++ [.obj (callingOutcome arguments).assistantMsg.toDict]))]

theorem openai_echo_is_recognised_iff_emptyObject : ∃ request m,
    openai.openaiToInternal plainPython [] [] (.obj (openaiEcho "\x7b\x7d")) = .ok request ∧
      request.messages[0]? = some m ∧
      (callingCodec "\x7b\x7d").canonicalForm m =
        (callingCodec "\x7b\x7d").canonicalForm (callingOutcome "\x7b\x7d").assistantMsg := by
  have haccepted : (openai.openaiToInternal plainPython [] []
      (.obj (openaiEcho "\x7b\x7d"))).toOption.isSome = true := by decide +kernel
  obtain ⟨request, h⟩ := exists_ok_of_test haccepted
  have hecho : choiceMessage (openai.openaiBuildResponse ⟨"", 0, ""⟩
      (callingOutcome "\x7b\x7d")) =
    some (.obj (callingOutcome "\x7b\x7d").assistantMsg.toDict) := rfl
  obtain ⟨m, hm, hiff⟩ := openai_echo_is_recognised_iff
    (sharedLibrary_callingCodec "\x7b\x7d") (decodeResponse_callingCodec "\x7b\x7d") hecho rfl h
  refine ⟨request, m, h, hm, (hiff.mpr ?_).1⟩
  rw [callingOutcome, forall_argumentTexts]
  intro call hcall
  cases List.mem_singleton.mp hcall
  exact Or.inr (Or.inl ⟨[], rfl⟩)

/-- Arguments that are a number are parsed once too often. -/
theorem a_number_is_not_recognised : ∃ request m,
    (callingCodec "5").decodeResponse [] (some [.null]) none (fun _ => "call") =
      .ok ((callingOutcome "5").assistantMsg, "tool_calls") ∧
    openai.openaiToInternal plainPython [] [] (.obj (openaiEcho "5")) = .ok request ∧
    request.messages[0]? = some m ∧
    (callingCodec "5").canonicalForm m ≠
      (callingCodec "5").canonicalForm (callingOutcome "5").assistantMsg := by
  have haccepted : (openai.openaiToInternal plainPython [] []
      (.obj (openaiEcho "5"))).toOption.isSome = true := by decide +kernel
  obtain ⟨request, h⟩ := exists_ok_of_test haccepted
  have hshared : plainPython.jsonLoads = (callingCodec "5").loaded := rfl
  have hnormal := normalizeMessage_reply hshared ""
    (fun _ => "call") [⟨"f", "5"⟩]
  have hmessages : (openaiEcho "5").get? "messages" =
    some (.arr ([] ++ [.obj (callingOutcome "5").assistantMsg.toDict])) := rfl
  refine ⟨request, _, rfl, h, openaiToInternal_getElem? hmessages hnormal h, ?_⟩
  intro hform
  have hkept := (canonicalForm_openaiEcho_iff (sharedLibrary_callingCodec "5") ""
    [⟨"f", "5"⟩]).mp hform
  have hloads : (callingCodec "5").jsonLoads "5" = some (.int 5) := rfl
  rcases hkept ⟨"f", "5"⟩ (by simp) with hnone | ⟨_, hobj⟩ | ⟨_, harr⟩
  · rw [hloads] at hnone
    cases hnone
  · rw [hloads] at hobj
    cases hobj
  · rw [hloads] at harr
    cases harr

/-! ## Anthropic echoes -/

namespace anthropic

/-- The input of a call: its arguments, when they are an object. -/
def inputOf (C : MessageCodec) (text : String) : Dict :=
  match C.jsonLoads text with
  | some (.obj fields) => fields
  | _ => []

/-- The id of a call, or a random one in place of an empty one. -/
def usedId (py : PythonLibrary) (index : Nat) (id : String) : String :=
  if id = "" then "toolu_" ++ py.tokenHex index else id

theorem usedId_ne_empty (index : Nat) (id : String) : usedId py index id ≠ "" := by
  unfold usedId
  split
  · intro h
    have htext := congrArg String.toList h
    simp [String.toList_append] at htext
  · assumption

theorem toolCallInput_str (hshared : py.jsonLoads = C.loaded) (text : String) :
    toolCallInput py (.str text) = .ok (inputOf C text) := by
  simp only [toolCallInput, hshared, MessageCodec.loaded, inputOf]
  cases C.jsonLoads text with
  | none => rfl
  | some value => cases value <;> rfl

theorem blockOfToolCall_toolCallOf (hshared : py.jsonLoads = C.loaded) (index : Nat)
    (id name text : String) : blockOfToolCall py index (toolCallOf id name (.str text)) =
      .ok (toolUseBlock (.str (usedId py index id)) (.str name) (.obj (inputOf C text))) := by
  have hget : Dict.get? (toolCallOf id name (.str text)) "function" =
      some (.obj [("name", .str name), ("arguments", .str text)]) := rfl
  have hid : Dict.get? (toolCallOf id name (.str text)) "id" = some (.str id) := rfl
  have harguments : Dict.get? [("name", .str name), ("arguments", .str text)] "arguments" =
      some (.str text) := rfl
  simp only [blockOfToolCall, hget, hid, harguments, Option.getD_some, toolCallInput_str hshared]
  unfold usedId
  by_cases hempty : id = ""
  · subst hempty
    rfl
  · simp only [Json.truthy, bne_iff_ne, ne_eq, hempty, not_false_eq_true, if_true, if_false]
    rfl

theorem zipIdx_map_zipIdx {α β : Type} (f : α × Nat → β) (xs : List α) (n : Nat) :
    ((xs.zipIdx n).map f).zipIdx n = (xs.zipIdx n).map (fun x => (f x, x.2)) := by
  induction xs generalizing n with
  | nil => rfl
  | cons x xs ih => simp [List.zipIdx_cons, ih]

/-- The calls of a reply as blocks. -/
def toolUses (C : MessageCodec) (py : PythonLibrary) (callIds : Nat → String)
    (calls : List FunctionCall) : List Dict :=
  calls.zipIdx.map (fun call => toolUseBlock (.str (usedId py call.2 (callIds call.2)))
    (.str call.1.name) (.obj (inputOf C call.1.arguments)))

def textBlocks (content : String) : List Dict := if content = "" then [] else [textBlock content]

/-- The blocks of a reply. -/
def replyBlocks (C : MessageCodec) (py : PythonLibrary) (callIds : Nat → String) (content : String)
    (calls : List FunctionCall) : List Dict :=
  if (textBlocks content ++ toolUses C py callIds calls).isEmpty then [textBlock ""]
  else textBlocks content ++ toolUses C py callIds calls

theorem outcomeToBlocks_reply (hshared : py.jsonLoads = C.loaded) (content : String)
    (callIds : Nat → String) (calls : List FunctionCall) :
    outcomeToBlocks py (assistantReply content (decodedCalls callIds calls)) =
      .ok (replyBlocks C py callIds content calls) := by
  have hcalls : ((decodedCalls callIds calls).getD []).zipIdx.mapM
      (fun call => blockOfToolCall py call.2 call.1) = .ok (toolUses C py callIds calls) := by
    cases calls with
    | nil => rfl
    | cons call calls =>
      rw [decodedCalls, List.isEmpty_cons, if_neg (by simp), Option.getD_some, zipIdx_map_zipIdx]
      exact mapM_map_eq_ok (fun call _ => blockOfToolCall_toolCallOf hshared _ _ _ _)
  unfold outcomeToBlocks
  simp only [assistantReply, hcalls]
  rfl

/-- The entry that a client sends to echo some blocks. -/
def echoEntry (blocks : List Dict) : Json :=
  .obj [("role", .str "assistant"), ("content", .arr (blocks.map .obj))]

theorem assistantBlock_toolUseBlock (l : AssistantLocals) {id : String} (hid : id ≠ "")
    (name : String) (input : Dict) :
    assistantBlock py l (.obj (toolUseBlock (.str id) (.str name) (.obj input))) =
      .ok { l with toolCalls := l.toolCalls ++ [toolCallOf id name (.obj input)] } := by
  have htext : hasField (.obj (toolUseBlock (.str id) (.str name) (.obj input))) "type" "text" =
      false := rfl
  have huse : hasField (.obj (toolUseBlock (.str id) (.str name) (.obj input))) "type" "tool_use" =
      true := rfl
  have hget : toolUseId (toolUseBlock (.str id) (.str name) (.obj input)) = .ok id := by
    have hfield : Dict.get? (toolUseBlock (.str id) (.str name) (.obj input)) "id" =
        some (.str id) := rfl
    simp [toolUseId, hfield, hid]
  simp only [assistantBlock, htext, huse, hget]
  rfl

/-- The calls of an echo. -/
def echoedCalls (C : MessageCodec) (py : PythonLibrary) (callIds : Nat → String)
    (calls : List FunctionCall) : List Dict :=
  calls.zipIdx.map (fun call => toolCallOf (usedId py call.2 (callIds call.2)) call.1.name
    (.obj (inputOf C call.1.arguments)))

theorem assistantBlocks_toolUses (callIds : Nat → String) (calls : List FunctionCall)
    (l : AssistantLocals) :
    ((toolUses C py callIds calls).map Json.obj).foldlM (assistantBlock py) l =
      .ok { l with toolCalls := l.toolCalls ++ echoedCalls C py callIds calls } := by
  unfold toolUses echoedCalls
  generalize calls.zipIdx = indexed
  induction indexed generalizing l with
  | nil => simp [pure, Except.pure]
  | cons call indexed ih =>
    rw [List.map_cons, List.map_cons, List.foldlM_cons,
      assistantBlock_toolUseBlock l (usedId_ne_empty _ _)]
    have hrest := ih { l with toolCalls := l.toolCalls ++
      [toolCallOf (usedId py call.2 (callIds call.2)) call.1.name
        (.obj (inputOf C call.1.arguments))] }
    simp only [List.append_assoc] at hrest
    exact hrest

theorem assistantMessageFromContent_of_run {blocks : List Json} {l : AssistantLocals}
    (h : blocks.foldlM (assistantBlock py) {} = .ok l) :
    assistantMessageFromContent py (.arr blocks) = .ok (assistantReply ("\n".intercalate l.texts)
      (if l.toolCalls.isEmpty then none else some l.toolCalls)) := by
  simp only [assistantMessageFromContent, h]
  rfl

/-- The loop over the blocks of a reply. -/
theorem assistantBlocks_reply (C : MessageCodec) (py : PythonLibrary) (content : String)
    (callIds : Nat → String) (calls : List FunctionCall) : ∃ texts,
      ((replyBlocks C py callIds content calls).map Json.obj).foldlM (assistantBlock py) {} =
        .ok ⟨texts, echoedCalls C py callIds calls⟩ ∧ "\n".intercalate texts = content := by
  unfold replyBlocks textBlocks
  by_cases htext : content = ""
  · subst htext
    cases calls with
    | nil => exact ⟨[""], rfl, rfl⟩
    | cons call calls =>
      refine ⟨[], ?_, rfl⟩
      rw [if_pos rfl, List.nil_append, if_neg (by simp [toolUses]), assistantBlocks_toolUses]
      rfl
  · refine ⟨[content], ?_, String.intercalate_singleton⟩
    rw [if_neg htext, if_neg (by simp), List.map_append, List.foldlM_append]
    exact assistantBlocks_toolUses callIds calls { texts := [content] }

/-- What the blocks of a reply are lowered to, when they come back. -/
theorem messageToInternal_echo (C : MessageCodec) (py : PythonLibrary) (content : String)
    (callIds : Nat → String) (calls : List FunctionCall) :
    messageToInternal py (echoEntry (replyBlocks C py callIds content calls)) =
      .ok [assistantReply content
        (if calls.isEmpty then none else some (echoedCalls C py callIds calls))] := by
  have hcontent : contentOf (echoEntry (replyBlocks C py callIds content calls)) =
      .arr ((replyBlocks C py callIds content calls).map .obj) := rfl
  have hempty : (echoedCalls C py callIds calls).isEmpty = calls.isEmpty := by
    cases calls <;> rfl
  obtain ⟨texts, hrun, htexts⟩ := assistantBlocks_reply C py content callIds calls
  rw [messageToInternal_assistant (by rfl), hcontent, assistantMessageFromContent_of_run hrun]
  simp only [htexts, hempty]
  rfl

/-! ### The entry inside its list -/

/-- An entry that is neither a user's nor the system's stays in the list. -/
theorem Folded.mem_out {l l' : FoldLocals} {message entry : Json} (h : Folded py l message l')
    (hentry : isUserEntry entry = false) (hmem : entry ∈ l.out) : entry ∈ l'.out := by
  cases h with
  | silent _ _ => exact hmem
  | appended reminder out _ _ hout =>
    obtain ⟨front, user, back, hl, huser, _, rfl⟩ := foldIntoLastUser_eq_some hout
    rw [hl] at hmem
    simp only [List.mem_append, List.mem_cons] at hmem ⊢
    rcases hmem with hfront | rfl | hback
    · exact Or.inl hfront
    · rw [huser] at hentry
      cases hentry
    · exact Or.inr (Or.inr hback)
  | delayed _ _ _ _ => exact hmem
  | prepended _ _ _ => exact List.mem_append_left _ hmem
  | kept _ _ => exact List.mem_append_left _ hmem

/-- Such an entry is lowered by itself. -/
theorem anthropicToInternal_mem {base : Dict} {allowed : List String} {payload : Dict}
    {request : LoweredRequest} {before after : List Json} {entry : Json} {m : Message}
    (hentries : payload.get? "messages" = some (.arr (before ++ entry :: after)))
    (huser : isUserEntry entry = false) (hsystem : isSystemEntry entry = false)
    (hm : messageToInternal py entry = .ok [m])
    (h : anthropicToInternal py base allowed (.obj payload) = .ok request) :
    ∃ front back, request.messages = front ++ m :: back := by
  obtain ⟨l, messages, systemText, hl, _, hmessages, _, hrequest⟩ :=
    anthropicToInternal_eq_ok hentries h
  rw [List.foldlM_append, bind_eq_ok] at hl
  obtain ⟨l1, _, hl⟩ := hl
  rw [List.foldlM_cons, bind_eq_ok] at hl
  obtain ⟨l2, hstep, hl⟩ := hl
  have hkept : entry ∈ l2.out := by
    cases folded_of_foldEntry hstep with
    | silent hsys _ => simp [hsys] at hsystem
    | appended _ _ hsys _ _ => simp [hsys] at hsystem
    | delayed _ hsys _ _ => simp [hsys] at hsystem
    | prepended _ _ hown => simp [hown] at huser
    | kept _ _ => exact List.mem_append_right _ (List.mem_singleton.mpr rfl)
  have hmem : entry ∈ l.finish := by
    obtain ⟨rest, hrest⟩ := finish_eq_append l
    rw [hrest]
    apply List.mem_append_left
    exact fold_keeps (P := fun l => entry ∈ l.out)
      (fun _ _ _ hfold => hfold.mem_out huser) hl hkept
  obtain ⟨front, back, hsplit⟩ := List.append_of_mem hmem
  rw [hsplit] at hmessages
  obtain ⟨ofFront, _, _, hrest, rfl⟩ := lowered_append.mp hmessages
  obtain ⟨ofEntry, ofBack, hofEntry, _, rfl⟩ := lowered_cons.mp hrest
  rw [hm] at hofEntry
  cases hofEntry
  rw [hrequest]
  split
  · exact ⟨ofFront, ofBack, rfl⟩
  · exact ⟨_ :: ofFront, ofBack, rfl⟩

section Echo

variable {responseIds : List Token} {tools : Option (List Json)} {stopReason : Option String}
  {callIds : Nat → String} {outcome : session.GenerationOutcome} {base : Dict}
  {allowed : List String} {payload : Dict} {request : LoweredRequest} {before after : List Json}

/-- The argument texts that an Anthropic block can carry: those of objects. -/
def KeptByAnthropic (C : MessageCodec) (text : String) : Prop :=
  ∃ fields, C.jsonLoads text = some (.obj fields)

theorem canonicalizeToolArguments_input_iff (text : String) :
    (C.canonicalizeToolArguments (.obj (inputOf C text))).canonical =
      (C.canonicalizeToolArguments (.str text)).canonical ↔ KeptByAnthropic C text := by
  have hobj : ∀ (fields : Dict) (value : Json), (Json.obj fields).canonical = value.canonical →
      ∃ others, value = .obj others := by
    intro fields value hvalue
    cases value with
    | obj others => exact ⟨others, rfl⟩
    | _ => simp [Json.canonical] at hvalue
  unfold KeptByAnthropic inputOf
  cases hloads : C.jsonLoads text with
  | none => simp [MessageCodec.canonicalizeToolArguments, hloads, canonical_tagged]
  | some value =>
    cases value with
    | obj fields => simp [MessageCodec.canonicalizeToolArguments, hloads]
    | _ =>
      simp only [MessageCodec.canonicalizeToolArguments, hloads, canonical_tagged, true_and,
        Option.some.injEq, reduceCtorEq, exists_false, iff_false]
      intro heq
      obtain ⟨others, hothers⟩ := hobj _ _ heq
      cases hothers

theorem canonicalForm_anthropicEcho_iff (C : MessageCodec) (py : PythonLibrary) (content : String)
    (calls : List FunctionCall) :
    C.canonicalForm (assistantReply content
        (if calls.isEmpty then none else some (echoedCalls C py callIds calls))) =
      C.canonicalForm (assistantReply content (decodedCalls callIds calls)) ↔
      ∀ call ∈ calls, KeptByAnthropic C call.arguments := by
  cases calls with
  | nil => simp [decodedCalls]
  | cons call calls =>
    rw [← forall_zipIdx (P := fun call : FunctionCall => KeptByAnthropic C call.arguments),
      decodedCalls, echoedCalls, List.isEmpty_cons, if_neg (by simp), if_neg (by simp),
      canonicalForm_reply_iff]
    apply forall₂_congr
    intro call _
    exact canonicalizeToolArguments_input_iff call.1.arguments

/-- The content blocks of a response. -/
def responseBlocks (response : Dict) : Option Json := response.get? "content"

/-- Echoed blocks are the stored reply again exactly when its arguments are objects. -/
theorem anthropic_echo_is_recognised_iff {messageId model : String} {response : Dict}
    {content : Json} (hlib : SharedLibrary C py floatOf)
    (hdecode : C.decodeResponse responseIds tools stopReason callIds =
      .ok (outcome.assistantMsg, outcome.finishReason))
    (hresponse : anthropicBuildResponse py messageId model outcome = .ok response)
    (hecho : responseBlocks response = some content)
    (hmessages : payload.get? "messages" = some (.arr (before ++
      .obj [("role", .str "assistant"), ("content", content)] :: after)))
    (h : anthropicToInternal py base allowed (.obj payload) = .ok request) :
    ∃ m front back, messageToInternal py
        (.obj [("role", .str "assistant"), ("content", content)]) = .ok [m] ∧
      request.messages = front ++ m :: back ∧
      (C.canonicalForm m = C.canonicalForm outcome.assistantMsg ∧
          C.computeMessageHash m = C.computeMessageHash outcome.assistantMsg ↔
        ∀ text ∈ argumentTexts outcome.assistantMsg, KeptByAnthropic C text) := by
  obtain ⟨text, calls, hreply⟩ := decodeResponse_eq_ok hdecode
  have hcontent : content = .arr ((replyBlocks C py callIds text calls).map .obj) := by
    simp only [anthropicBuildResponse, hreply, outcomeToBlocks_reply hlib.shared] at hresponse
    cases hresponse
    exact (Option.some.inj hecho).symm
  subst hcontent
  have hlower := messageToInternal_echo C py text callIds calls
  obtain ⟨front, back, hplace⟩ := anthropicToInternal_mem hmessages rfl rfl hlower h
  refine ⟨_, front, back, hlower, hplace, ?_⟩
  rw [hreply, forall_argumentTexts, ← canonicalForm_anthropicEcho_iff C py text calls]
  exact and_iff_left_of_imp (computeMessageHash_congr hlib.floats)

end Echo

/-- A request that echoes the outcome on the Anthropic route. -/
def anthropicEcho (arguments : String) : Dict :=
  [("messages", .arr ([] ++ .obj [("role", .str "assistant"), ("content",
    .arr ((replyBlocks (callingCodec arguments) plainPython (fun _ => "call") ""
      [⟨"f", arguments⟩]).map .obj))] :: []))]

theorem anthropicBuildResponse_callingOutcome (arguments : String) :
    anthropicBuildResponse plainPython "" "" (callingOutcome arguments) =
      .ok (messageBody "" "" (replyBlocks (callingCodec arguments) plainPython (fun _ => "call") ""
        [⟨"f", arguments⟩]) (.str (stopReasonOf "tool_calls")) (usage 1 1)) := by
  have hshared : plainPython.jsonLoads = (callingCodec arguments).loaded := rfl
  simp only [anthropicBuildResponse, callingOutcome, outcomeToBlocks_reply hshared]
  rfl

theorem anthropic_echo_is_recognised_iff_emptyObject : ∃ request m front back,
    anthropicToInternal plainPython [] [] (.obj (anthropicEcho "\x7b\x7d")) = .ok request ∧
      request.messages = front ++ m :: back ∧
      (callingCodec "\x7b\x7d").canonicalForm m =
        (callingCodec "\x7b\x7d").canonicalForm (callingOutcome "\x7b\x7d").assistantMsg := by
  have haccepted : (anthropicToInternal plainPython [] []
      (.obj (anthropicEcho "\x7b\x7d"))).toOption.isSome = true := by decide +kernel
  obtain ⟨request, h⟩ := exists_ok_of_test haccepted
  obtain ⟨m, front, back, _, hplace, hiff⟩ := anthropic_echo_is_recognised_iff
    (sharedLibrary_callingCodec "\x7b\x7d") (decodeResponse_callingCodec "\x7b\x7d")
    (anthropicBuildResponse_callingOutcome "\x7b\x7d") rfl rfl h
  refine ⟨request, m, front, back, h, hplace, (hiff.mpr ?_).1⟩
  rw [callingOutcome, forall_argumentTexts]
  intro call hcall
  cases List.mem_singleton.mp hcall
  exact ⟨[], rfl⟩

/-- Arguments that are no JSON come back as an empty object. -/
theorem a_malformed_text_is_not_recognised : ∃ request m front back,
    (callingCodec "x").decodeResponse [] (some [.null]) none (fun _ => "call") =
      .ok ((callingOutcome "x").assistantMsg, "tool_calls") ∧
    (∃ response, anthropicBuildResponse plainPython "" "" (callingOutcome "x") = .ok response ∧
      (anthropicEcho "x").get? "messages" = (responseBlocks response).map (fun content =>
        .arr [.obj [("role", .str "assistant"), ("content", content)]])) ∧
    anthropicToInternal plainPython [] [] (.obj (anthropicEcho "x")) = .ok request ∧
    request.messages = front ++ m :: back ∧
    (callingCodec "x").canonicalForm m ≠
      (callingCodec "x").canonicalForm (callingOutcome "x").assistantMsg := by
  have haccepted : (anthropicToInternal plainPython [] []
      (.obj (anthropicEcho "x"))).toOption.isSome = true := by decide +kernel
  obtain ⟨request, h⟩ := exists_ok_of_test haccepted
  have hlower := messageToInternal_echo (callingCodec "x") plainPython ""
    (fun _ => "call") [⟨"f", "x"⟩]
  have hentries : (anthropicEcho "x").get? "messages" = some (.arr ([] ++ echoEntry
    (replyBlocks (callingCodec "x") plainPython (fun _ => "call") "" [⟨"f", "x"⟩]) :: [])) := rfl
  obtain ⟨front, back, hplace⟩ := anthropicToInternal_mem hentries rfl rfl hlower h
  refine ⟨request, _, front, back, rfl,
    ⟨_, anthropicBuildResponse_callingOutcome "x", rfl⟩, h, hplace, ?_⟩
  intro hform
  have hkept := (canonicalForm_anthropicEcho_iff (callingCodec "x") plainPython ""
    [⟨"f", "x"⟩]).mp hform
  obtain ⟨fields, hfields⟩ := hkept ⟨"f", "x"⟩ (by simp)
  have hloads : (callingCodec "x").jsonLoads "x" = none := rfl
  rw [hloads] at hfields
  cases hfields

end anthropic

end uni_agent
