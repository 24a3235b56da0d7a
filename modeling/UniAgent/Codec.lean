-- The message codec of the gateway: messages, the chat template around the tokenizer, the
-- media extractor, the decoding of an output, and the form in which two messages compare.
-- Tokenizer, template, tool parser and media extractor come from other packages, and are
-- fields of the codec.
import UniAgent.Json
import UniAgent.PrefixDigests

namespace uni_agent

abbrev Token := Nat

/-- One image or video payload. The gateway only moves payloads, so a name stands for one. -/
abbrev Media := String

/-- The two lists of the media extractor: images and videos, each `None` or a list. -/
abbrev MediaLists := Option (List Media) × Option (List Media)

inductive PyError where
  | httpException (statusCode : Nat) (detail : String)
  | valueError (message : String)
  | runtimeError (message : String)
  | assertionError (message : String)
  | indexError (message : String)
  | typeError (message : String)
  | cancelledError
  | otherException (className message : String)
  deriving DecidableEq, Repr

/-- `assert condition, message` -/
def pyAssert (condition : Bool) (message : String) : Except PyError Unit :=
  if condition then .ok () else .error (.assertionError message)

theorem pyAssert_eq_ok {condition : Bool} {message : String} {u : Unit} :
    pyAssert condition message = .ok u ↔ condition = true := by
  unfold pyAssert
  cases condition <;> simp

theorem bind_eq_ok {ε α β : Type} {x : Except ε α} {f : α → Except ε β} {b : β} :
    (x >>= f) = .ok b ↔ ∃ a, x = .ok a ∧ f a = .ok b := by
  cases x with
  | error e => simp [bind, Except.bind]
  | ok a => simp [bind, Except.bind]

/-- The last step of a loop that raises nothing. -/
theorem foldlM_concat_eq_ok {ε σ α : Type} {f : σ → α → Except ε σ} {items : List α} {last : α}
    {s t : σ} :
    (items ++ [last]).foldlM f s = .ok t ↔
      ∃ before, items.foldlM f s = .ok before ∧ f before last = .ok t := by
  rw [List.foldlM_append, bind_eq_ok]
  simp only [List.foldlM_cons, List.foldlM_nil, bind_pure]

/-! ## Messages -/

/-- A message as the provider adapters lower it: a dict with exactly these keys, the optional
ones only when they are there. Each tool call is a dict. -/
structure Message where
  role : String
  content : Json
  name : Option String := none
  toolCalls : Option (List Dict) := none
  toolCallId : Option String := none
  reasoningContent : Option (Option String) := none

def optionalField {α : Type} (key : String) (toJson : α → Json) : Option α → Dict
  | none => []
  | some x => [(key, toJson x)]

def Message.toDict (m : Message) : Dict :=
  [("role", .str m.role), ("content", m.content)] ++
    optionalField "name" .str m.name ++
    optionalField "tool_calls" (fun calls => .arr (calls.map .obj)) m.toolCalls ++
    optionalField "tool_call_id" .str m.toolCallId ++
    optionalField "reasoning_content" (fun text => text.elim .null .str) m.reasoningContent

def Message.isAssistant (m : Message) : Bool := m.role == "assistant"

/-- A function call that a tool parser found in an output. -/
structure FunctionCall where
  name : String
  arguments : String

/-! ## The codec -/

abbrev Processor :=
  String → Option (List Media) → Option (List Media) → Except PyError (List Token)

/-- `MessageCodec`. The first three fields are functions of Python's library: `json.loads`
(`none` for a `JSONDecodeError`), the text of a float, and `hashlib.sha256(..).hexdigest()`.
The others are the tokenizer with the ids of its closing tokens, the processor, the extractor,
the template with the token sequences that `create` reads off it, and the tool parser. -/
structure MessageCodec where
  jsonLoads : String → Option Json
  floatRepr : PyFloat → String
  sha256 : String → String
  tokenizerEncode : String → List Token
  tokenizerDecode : List Token → (skipSpecialTokens : Bool) → String
  eosTokenIds : List Token
  processor : Option Processor
  visionInfoExtractor : List Message → Except PyError MediaLists
  applyChatTemplate :
    List Message → Option (List Json) → (addGenerationPrompt : Bool) → Except PyError String
  turnSeparator : List Token
  generationPrompt : List Token
  toolParserName : Option String
  extractToolCalls : List Token → List Json → String → Except PyError (String × List FunctionCall)

/-- What a rewrite takes back before it encodes the new suffix. -/
def MessageCodec.assistantPrefix (C : MessageCodec) : List Token :=
  C.turnSeparator ++ C.generationPrompt

def startsWith (text start : String) : Bool := start.toList.isPrefixOf text.toList

def endsWith (text ending : String) : Bool := ending.toList.isSuffixOf text.toList

def takeChars (n : Nat) (text : String) : String := String.ofList (text.toList.take n)

def dropChars (n : Nat) (text : String) : String := String.ofList (text.toList.drop n)

/-- `initialize_generation_prompt`: the tokens that `add_generation_prompt=True` adds. -/
def MessageCodec.initializeGenerationPrompt (C : MessageCodec) : Except PyError (List Token) := do
  let anchor : List Message := [{ role := "user", content := .str "" }]
  let without := C.tokenizerEncode (← C.applyChatTemplate anchor none false)
  let withPrompt := C.tokenizerEncode (← C.applyChatTemplate anchor none true)
  if withPrompt.take without.length ≠ without then
    throw (.valueError "Generation prompt is not a stable token suffix")
  return withPrompt.drop without.length

/-- The longest tail of two token sequences. -/
def commonTail (xs ys : List Token) : List Token :=
  (((xs.reverse.zip ys.reverse).takeWhile (fun pair => pair.1 == pair.2)).map Prod.fst).reverse

/-- What stands behind the last closing token, or behind the first token when none closes. -/
def behindClose (eosTokenIds suffix : List Token) : List Token :=
  if suffix.any eosTokenIds.contains then
    (suffix.reverse.takeWhile (fun id => !eosTokenIds.contains id)).reverse
  else suffix.drop 1

/-- Two user turns that differ only in their text. -/
def MessageCodec.probeTurns (C : MessageCodec) (content : String → Json) :
    Except PyError (List Token × List Token) := do
  let turn (text : String) : List Message := [{ role := "user", content := content text }]
  let empty := C.tokenizerEncode (← C.applyChatTemplate (turn "") none false)
  let filled := C.tokenizerEncode (← C.applyChatTemplate (turn "x") none false)
  return (empty, filled)

/-- The content of a probe for templates that take a list of parts only. -/
def textParts (text : String) : Json := .arr [.obj [("type", .str "text"), ("text", .str text)]]

/-- `initialize_turn_separator`: the tokens between the close of a message and the next turn. -/
def MessageCodec.initializeTurnSeparator (C : MessageCodec) : List Token :=
  let probes := match C.probeTurns .str with
    | .ok probes => some probes
    | .error _ => (C.probeTurns textParts).toOption
  match probes with
  | none => []
  | some (empty, filled) => behindClose C.eosTokenIds (commonTail empty filled)

/-- `MessageCodec(..)`: both token sequences are read off the template. -/
def MessageCodec.create (C : MessageCodec) : Except PyError MessageCodec := do
  let generationPrompt ← C.initializeGenerationPrompt
  return { C with generationPrompt, turnSeparator := C.initializeTurnSeparator }

theorem MessageCodec.create_eq_self {C : MessageCodec}
    (hprompt : C.initializeGenerationPrompt = .ok C.generationPrompt)
    (hseparator : C.initializeTurnSeparator = C.turnSeparator) : C.create = .ok C := by
  unfold MessageCodec.create
  rw [hprompt, hseparator]
  rfl

theorem commonTail_append (xs ys zs : List Token) :
    commonTail (xs ++ zs) (ys ++ zs) = commonTail xs ys ++ zs := by
  have hsame : ∀ pair ∈ zs.reverse.zip zs.reverse, (pair.1 == pair.2) = true := by
    intro pair hpair
    rw [List.zip_eq_zipWith, List.zipWith_self, List.mem_map] at hpair
    obtain ⟨z, _, rfl⟩ := hpair
    exact beq_self_eq_true z
  unfold commonTail
  rw [List.reverse_append, List.reverse_append, List.zip_append rfl,
    List.takeWhile_append_of_pos hsame, List.map_append, List.reverse_append,
    List.map_fst_zip (Nat.le_refl _), List.reverse_reverse]

/-- The separator is what follows the closing token. -/
theorem behindClose_append {eosTokenIds front separator : List Token} {close : Token}
    (hclose : close ∈ eosTokenIds) (hseparator : ∀ id ∈ separator, id ∉ eosTokenIds) :
    behindClose eosTokenIds (front ++ close :: separator) = separator := by
  have hany : (front ++ close :: separator).any eosTokenIds.contains = true :=
    List.any_eq_true.mpr ⟨close, by simp, by simpa using hclose⟩
  have hopen : ∀ id ∈ separator.reverse, (!eosTokenIds.contains id) = true := by
    intro id hid
    simpa using hseparator id (List.mem_reverse.mp hid)
  unfold behindClose
  rw [if_pos hany, List.reverse_append, List.reverse_cons, List.append_assoc,
    List.takeWhile_append_of_pos hopen, List.singleton_append, List.takeWhile_cons]
  simp [hclose]

/-! ## Media -/

def isMediaBlock : Json → Bool
  | .obj part =>
    match Dict.get? part "type" with
    | some (.str kind) => ["image", "image_url", "video", "video_url"].contains kind
    | _ => false
  | _ => false

def Message.hasMediaBlock (m : Message) : Bool :=
  match m.content with
  | .arr parts => parts.any isMediaBlock
  | _ => false

def MessageCodec.extractMultiModalData (C : MessageCodec) (messages : List Message) :
    Except PyError MediaLists :=
  if C.processor.isNone then .ok (none, none)
  else if !messages.any Message.hasMediaBlock then .ok (none, none)
  else C.visionInfoExtractor messages

/-! ## Encoding -/

def MessageCodec.encodePromptText (C : MessageCodec) (prompt : String)
    (imageData videoData : Option (List Media)) : Except PyError (List Token) :=
  match C.processor with
  | none => .ok (C.tokenizerEncode prompt)
  | some processor => processor prompt imageData videoData

def MessageCodec.encodeFull (C : MessageCodec) (messages : List Message)
    (tools : Option (List Json)) (imageData videoData : Option (List Media)) :
    Except PyError (List Token) := do
  let rawPrompt ← C.applyChatTemplate messages tools true
  C.encodePromptText rawPrompt imageData videoData

/-- The empty user turn that stands for the history in front of a continuation. -/
def MessageCodec.anchor (C : MessageCodec) : Message :=
  { role := "user"
    content := if C.processor.isSome then
        .arr [.obj [("type", .str "text"), ("text", .str "")]]
      else .str "" }

/-- The part of the anchor's text that comes before its turn separator. -/
def MessageCodec.anchorPrompt (C : MessageCodec) : Except PyError String := do
  let anchorPrompt ← C.applyChatTemplate [C.anchor] none false
  if C.turnSeparator.isEmpty then
    return anchorPrompt
  let separatorText := C.tokenizerDecode C.turnSeparator false
  if separatorText.isEmpty || !endsWith anchorPrompt separatorText then
    throw (.valueError "Turn separator is not a stable text suffix")
  return takeChars (anchorPrompt.length - separatorText.length) anchorPrompt

def MessageCodec.encodeIncremental (C : MessageCodec) (messages : List Message)
    (imageData videoData : Option (List Media)) : Except PyError (List Token) := do
  if messages.isEmpty then
    return []
  if (messages.drop 1).any Message.isAssistant then
    throw (.valueError "An incremental assistant message may only appear first")
  let prefixPrompt ← C.anchorPrompt
  let fullPrompt ← C.applyChatTemplate (C.anchor :: messages) none true
  if !startsWith fullPrompt prefixPrompt then
    throw (.valueError "Incremental chat template is not prefix-stable")
  C.encodePromptText (dropChars prefixPrompt.length fullPrompt) imageData videoData

theorem MessageCodec.encodeIncremental_later_assistant (C : MessageCodec) {messages : List Message}
    (h : (messages.drop 1).any Message.isAssistant = true)
    (imageData videoData : Option (List Media)) :
    C.encodeIncremental messages imageData videoData =
      .error (.valueError "An incremental assistant message may only appear first") := by
  have hempty : messages.isEmpty = false := by
    cases messages with
    | nil => simp at h
    | cons m rest => rfl
  unfold MessageCodec.encodeIncremental
  simp only [hempty, h]
  rfl

/-! ## Decoding -/

def finishReasonMap : List (String × String) :=
  [("completed", "stop"), ("stop", "stop"), ("matched_stop", "stop"), ("eos", "stop"),
    ("length", "length"), ("max_tokens", "length"), ("aborted", "stop"), ("abort", "stop")]

def finishReasonOf : Option String → String
  | none => "stop"
  | some "" => "stop"
  | some reason => (finishReasonMap.lookup reason).getD reason

/-- One entry of `tool_calls`. `callId` is the text of the random id. -/
def toolCallDict (callId : String) (call : FunctionCall) : Dict :=
  [("id", .str callId), ("type", .str "function"),
    ("function", .obj [("name", .str call.name), ("arguments", .str call.arguments)])]

def MessageCodec.decodeText (C : MessageCodec) (responseIds : List Token)
    (stopReason : Option String) : Message × String :=
  ({ role := "assistant", content := .str (C.tokenizerDecode responseIds true) },
    finishReasonOf stopReason)

/-- `decode_response`. `callIds` gives the random id of the call at each place. -/
def MessageCodec.decodeResponse (C : MessageCodec) (responseIds : List Token)
    (tools : Option (List Json)) (stopReason : Option String) (callIds : Nat → String) :
    Except PyError (Message × String) :=
  match C.toolParserName, tools with
  | some parserName, some (tool :: rest) =>
    match C.extractToolCalls responseIds (tool :: rest) parserName with
    | .error _ => .error (.runtimeError ("tool parser '" ++ parserName ++ "' failed"))
    | .ok (content, calls) =>
      if calls.isEmpty then .ok (C.decodeText responseIds stopReason)
      else
        let toolCalls := calls.zipIdx.map (fun call => toolCallDict (callIds call.2) call.1)
        .ok ({ role := "assistant", content := .str content, toolCalls := some toolCalls },
          "tool_calls")
  | _, _ => .ok (C.decodeText responseIds stopReason)

/-! ## The form in which messages compare -/

/-- `_canonicalize_tool_arguments_for_comparison`: the pair is a two-element JSON array. -/
def MessageCodec.canonicalizeToolArguments (C : MessageCodec) : Json → Json
  | .str text =>
    match C.jsonLoads text with
    | some value => .arr [.str "json", value]
    | none => .arr [.str "raw", .str text]
  | .obj fields => .arr [.str "json", .obj fields]
  | .arr items => .arr [.str "json", .arr items]
  | other => .arr [.str "raw", other]

def MessageCodec.canonicalizeToolCall (C : MessageCodec) (toolCall : Dict) : Dict :=
  let normalized := toolCall.pop "id"
  match normalized.get? "function" with
  | some (.obj function) =>
    match Dict.get? function "arguments" with
    | some arguments =>
      normalized.set "function"
        (.obj (Dict.set function "arguments" (C.canonicalizeToolArguments arguments)))
    | none => normalized
  | _ => normalized

def MessageCodec.canonicalizeMessage (C : MessageCodec) (m : Message) : Dict :=
  let normalized := m.toDict.pop "tool_call_id"
  match m.toolCalls with
  | none => normalized
  | some toolCalls =>
    normalized.set "tool_calls"
      (.arr (toolCalls.map (fun call => .obj (C.canonicalizeToolCall call))))

/-- The text that stands for the canonical form of a message in its hash. -/
def MessageCodec.canonicalJson (C : MessageCodec) (m : Message) : String :=
  (Json.obj (C.canonicalizeMessage m)).dumps C.floatRepr

/-! ## Prefix hashes -/

def MessageCodec.emptyPrefixHash (C : MessageCodec) : String :=
  C.sha256 "uni-agent-prefix-v1\x00empty"

/-- `_compute_message_hash` -/
def MessageCodec.computeMessageHash (C : MessageCodec) (m : Message) : String :=
  C.sha256 ("uni-agent-message-v1\x00" ++ C.canonicalJson m)

/-- The hash of a history that is one message longer. -/
def MessageCodec.nextPrefixHash (C : MessageCodec) (previous : String) (m : Message) : String :=
  C.sha256 ("uni-agent-prefix-v1\x00" ++ previous ++ "\x00" ++ C.computeMessageHash m)

/-- `_extend_message_prefix_hashes` -/
def MessageCodec.extendMessagePrefixHashes (C : MessageCodec) (existing : List String) :
    List Message → List String
  | [] => existing
  | m :: rest =>
    let previous := existing.getLastD C.emptyPrefixHash
    C.extendMessagePrefixHashes (existing ++ [C.nextPrefixHash previous m]) rest

/-- The prefix hash of a whole history. -/
def MessageCodec.prefixHash (C : MessageCodec) (messages : List Message) : String :=
  prefix_digests.digest C.nextPrefixHash C.emptyPrefixHash messages

/-- The loop builds the digest chain of the library. -/
theorem MessageCodec.extendMessagePrefixHashes_eq (C : MessageCodec) (existing : List String)
    (messages : List Message) : C.extendMessagePrefixHashes existing messages =
      prefix_digests.extend C.nextPrefixHash C.emptyPrefixHash existing messages := by
  induction messages generalizing existing with
  | nil => rfl
  | cons m rest ih => exact ih _

/-- Histories that agree message by message in canonical form have the same hash. -/
theorem MessageCodec.prefixHash_congr (C : MessageCodec) {xs ys : List Message}
    (h : xs.map C.canonicalJson = ys.map C.canonicalJson) : C.prefixHash xs = C.prefixHash ys := by
  refine prefix_digests.digest_congr ?_ h
  intro d x y hxy
  simp [MessageCodec.nextPrefixHash, MessageCodec.computeMessageHash, hxy]

/-- Histories with one hash agree message by message in canonical form. -/
def MessageCodec.PrefixHashCollisionFree (C : MessageCodec) : Prop :=
  ∀ xs ys, C.prefixHash xs = C.prefixHash ys → xs.map C.canonicalJson = ys.map C.canonicalJson

/-- Two lists that are equal up to and after their last `z`. -/
theorem append_cons_inj_of_last {α : Type} {xs ys us vs : List α} {z : α} (hus : z ∉ us)
    (hvs : z ∉ vs) (h : xs ++ z :: us = ys ++ z :: vs) : xs = ys ∧ us = vs := by
  rcases List.append_eq_append_iff.mp h with ⟨mid, rfl, hmid⟩ | ⟨mid, rfl, hmid⟩
  · cases mid with
    | nil => simpa using hmid
    | cons m rest =>
      simp only [List.cons_append, List.cons.injEq] at hmid
      exact absurd (by simp [hmid.2]) hus
  · cases mid with
    | nil => simpa using hmid.symm
    | cons m rest =>
      simp only [List.cons_append, List.cons.injEq] at hmid
      exact absurd (by simp [hmid.2]) hvs

/-- The text that is hashed for a message. -/
def MessageCodec.messageText (C : MessageCodec) (m : Message) : String :=
  "uni-agent-message-v1\x00" ++ C.canonicalJson m

/-- The text that is hashed for a history that is one message longer. -/
def MessageCodec.prefixText (C : MessageCodec) (previous : String) (m : Message) : String :=
  "uni-agent-prefix-v1\x00" ++ previous ++ "\x00" ++ C.computeMessageHash m

/-- The texts that are hashed for a history. -/
inductive MessageCodec.Hashed (C : MessageCodec) (messages : List Message) : String → Prop
  | empty : C.Hashed messages "uni-agent-prefix-v1\x00empty"
  | message (before : List Message) (m : Message) (h : before ++ [m] <+: messages) :
      C.Hashed messages (C.messageText m)
  | history (before : List Message) (m : Message) (h : before ++ [m] <+: messages) :
      C.Hashed messages (C.prefixText (C.prefixHash before) m)

/-- The digest has no collisions on some texts. -/
def MessageCodec.CollisionFreeOn (C : MessageCodec) (P : String → Prop) : Prop :=
  ∀ s t, P s → P t → C.sha256 s = C.sha256 t → s = t

/-- The text of the empty history has no NUL behind its first word. -/
theorem MessageCodec.prefixText_ne_empty (C : MessageCodec) (previous : String) (m : Message) :
    C.prefixText previous m ≠ "uni-agent-prefix-v1\x00empty" := by
  intro h
  unfold MessageCodec.prefixText at h
  have hsep : "\x00".toList = ['\x00'] := by decide
  have htext := congrArg String.toList h
  have hmem : '\x00' ∈ ['e', 'm', 'p', 't', 'y'] := by
    rw [show ("uni-agent-prefix-v1\x00empty" : String) = "uni-agent-prefix-v1\x00" ++ "empty"
      from rfl] at htext
    simp only [String.toList_append, List.append_assoc] at htext
    have hrest := List.append_cancel_left htext
    change '\x00' ∈ "empty".toList
    rw [← hrest, hsep]
    simp
  simp at hmem

/-- Without NUL characters in digests, the last NUL of the hashed text stands in front of the
message hash. -/
theorem MessageCodec.prefixText_inj {C : MessageCodec}
    (hnul : ∀ s, '\x00' ∉ (C.sha256 s).toList) {before after : List Message} {m m' : Message}
    (h : C.prefixText (C.prefixHash before) m = C.prefixText (C.prefixHash after) m') :
    C.prefixHash before = C.prefixHash after ∧ C.computeMessageHash m =
        C.computeMessageHash m' := by
  unfold MessageCodec.prefixText at h
  have hsep : "\x00".toList = ['\x00'] := by decide
  have htext := congrArg String.toList h
  simp only [String.toList_append, hsep, List.append_assoc, List.singleton_append] at htext
  rw [← List.append_assoc, ← List.append_assoc] at htext
  obtain ⟨hbefore, hmessage⟩ := append_cons_inj_of_last (hnul _) (hnul _) htext
  exact ⟨String.ext (List.append_cancel_left hbefore), String.ext hmessage⟩

theorem MessageCodec.messageText_inj (C : MessageCodec) {m m' : Message}
    (h : C.messageText m = C.messageText m') : C.canonicalJson m = C.canonicalJson m' := by
  unfold MessageCodec.messageText at h
  have htext := congrArg String.toList h
  simp only [String.toList_append] at htext
  exact String.ext (List.append_cancel_left htext)

/-- A digest without NUL characters, and without collisions on the texts of two histories, tells
the two apart, message by message in canonical form. -/
theorem MessageCodec.canonicalJson_eq_of_prefixHash_eq {C : MessageCodec} {xs ys : List Message}
    (hnul : ∀ s, '\x00' ∉ (C.sha256 s).toList)
    (hfree : C.CollisionFreeOn (fun text => C.Hashed xs text ∨ C.Hashed ys text))
    (h : C.prefixHash xs = C.prefixHash ys) : xs.map C.canonicalJson = ys.map C.canonicalJson := by
  apply prefix_digests.keys_eq_of_prefixes ?_ ?_ ?_ h
  · intro us x vs y hus hvs heq
    have htext := hfree _ _ (Or.inl (.history us x hus)) (Or.inr (.history vs y hvs)) heq
    obtain ⟨hbefore, hmessage⟩ := C.prefixText_inj hnul htext
    refine ⟨hbefore, C.messageText_inj ?_⟩
    exact hfree _ _ (Or.inl (.message us x hus)) (Or.inr (.message vs y hvs)) hmessage
  · intro us x hus heq
    exact C.prefixText_ne_empty _ _ (hfree _ _ (Or.inl (.history us x hus)) (Or.inl .empty) heq)
  · intro vs y hvs heq
    exact C.prefixText_ne_empty _ _ (hfree _ _ (Or.inr (.history vs y hvs)) (Or.inr .empty) heq)

/-- A digest without collisions and without NUL characters makes prefix hashes without
collisions. -/
theorem MessageCodec.prefixHashCollisionFree_of_injective {C : MessageCodec}
    (hinj : ∀ s t, C.sha256 s = C.sha256 t → s = t)
    (hnul : ∀ s, '\x00' ∉ (C.sha256 s).toList) : C.PrefixHashCollisionFree := by
  intro xs ys h
  exact C.canonicalJson_eq_of_prefixHash_eq hnul (fun s t _ _ => hinj s t) h

end uni_agent
