-- A conversation that both protocols can say is lowered to one list of messages, so a session
-- goes on with the same chain for either form.
import UniAgent.Echoes
import UniAgent.FoldedEntries
import UniAgent.GatewayRoutes

namespace uni_agent

open session (GatewaySession InternalGenerationRequest SamplingParams toolsEq)

/-! ## Conversations -/

/-- A tool call with its arguments in both forms: a text, and the object that it says. -/
structure SharedCall (py : PythonLibrary) where
  id : String
  name : String
  arguments : String
  input : Dict
  id_ne : id ≠ ""
  loads : py.jsonLoads arguments = .value (.obj input)

structure SharedResult where
  toolCallId : String
  content : String
  toolCallId_ne : toolCallId ≠ ""

/-- One turn: a user's text, an assistant's text and calls, or some tool results. -/
inductive Turn (py : PythonLibrary) where
  | user (text : String)
  | assistant (text : Option String) (calls : List (SharedCall py))
  | toolResults (first : SharedResult) (rest : List SharedResult)

structure SharedTool (py : PythonLibrary) where
  name : String
  description : Option String
  schema : Json
  copies : py.deepcopy schema = .ok schema

/-- No line of a text starts with a billing header. -/
def NoBillingHeader (text : String) : Prop :=
  ∀ front back, text.toList = front ++ back → (front = [] ∨ front.getLast? = some '\n') →
    anthropic.afterBillingHeader back = none

/-- A system text that both routes leave as it is. -/
structure SystemText where
  text : String
  ne : text ≠ ""
  stripped : pyStrip text = text
  noHeader : NoBillingHeader text

structure Conversation (py : PythonLibrary) where
  system : Option SystemText
  first : Turn py
  rest : List (Turn py)
  tools : Option (List (SharedTool py))

namespace Conversation

variable {py : PythonLibrary}

def turns (c : Conversation py) : List (Turn py) := c.first :: c.rest

end Conversation

/-! ## The OpenAI form -/

namespace openai

variable {py : PythonLibrary}

def callForm (call : SharedCall py) : Json :=
  .obj [("id", .str call.id), ("type", .str "function"),
    ("function", .obj [("name", .str call.name), ("arguments", .str call.arguments)])]

def resultForm (result : SharedResult) : Json :=
  .obj [("role", .str "tool"), ("tool_call_id", .str result.toolCallId),
    ("content", .str result.content)]

/-- The messages of one turn. Without a text the content is null, and without calls there is no
list of them. -/
def turnForm : Turn py → List Json
  | .user text => [.obj [("role", .str "user"), ("content", .str text)]]
  | .assistant text calls =>
      [.obj ([("role", .str "assistant"), ("content", text.elim .null .str)] ++
      if calls.isEmpty then [] else [("tool_calls", .arr (calls.map callForm))])]
  | .toolResults first rest => (first :: rest).map resultForm

def toolForm (tool : SharedTool py) : Json :=
  .obj [("type", .str "function"), ("function", .obj ([("name", .str tool.name)] ++
    optionalField "description" .str tool.description ++ [("parameters", tool.schema)]))]

def payloadForm (c : Conversation py) : Dict :=
  [("messages", .arr (c.system.toList.map (fun s =>
      .obj [("role", .str "system"), ("content", .str s.text)]) ++ c.turns.flatMap turnForm))] ++
    optionalField "tools" (fun tools => .arr (tools.map toolForm)) c.tools

end openai

/-! ## The Anthropic form -/

namespace anthropic

variable {py : PythonLibrary}

def callForm (call : SharedCall py) : Json :=
  .obj (toolUseBlock (.str call.id) (.str call.name) (.obj call.input))

def resultForm (result : SharedResult) : Json :=
  .obj [("type", .str "tool_result"), ("tool_use_id", .str result.toolCallId),
    ("content", .str result.content)]

/-- The message of one turn. All tool results of a turn are in one message of the user. -/
def turnForm : Turn py → Json
  | .user text => .obj [("role", .str "user"), ("content", .str text)]
  | .assistant text calls => .obj [("role", .str "assistant"),
      ("content", .arr (text.toList.map (fun text => .obj (textBlock text)) ++ calls.map callForm))]
  | .toolResults first rest => .obj [("role", .str "user"),
      ("content", .arr ((first :: rest).map resultForm))]

def toolForm (tool : SharedTool py) : Json :=
  .obj ([("name", .str tool.name)] ++ optionalField "description" .str tool.description ++
    [("input_schema", tool.schema)])

def payloadForm (c : Conversation py) : Dict :=
  optionalField "system" (fun s : SystemText => .str s.text) c.system ++
    [("messages", .arr (c.turns.map turnForm))] ++
    optionalField "tools" (fun tools => .arr (tools.map toolForm)) c.tools

end anthropic

/-! ## The messages of a conversation -/

section Messages

variable {py : PythonLibrary}

def SharedCall.toDict (call : SharedCall py) : Dict :=
  anthropic.toolCallOf call.id call.name (.obj call.input)

/-- What the Anthropic route makes of a tool. -/
def SharedTool.converted (tool : SharedTool py) : Json :=
  .obj [("type", .str "function"), ("function", .obj ([("name", .str tool.name),
    ("parameters", tool.schema)] ++ optionalField "description" .str tool.description))]

/-- What both routes make of a turn. -/
def Turn.messages : Turn py → List Message
  | .user text => [{ role := "user", content := .str text }]
  | .assistant text calls => [assistantReply (text.getD "")
      (if calls.isEmpty then none else some (calls.map SharedCall.toDict))]
  | .toolResults first rest => (first :: rest).map
      (fun result => anthropic.toolMessage result.toolCallId result.content)

def Conversation.messages (c : Conversation py) : List Message :=
  c.system.toList.map (fun s => { role := "system", content := .str s.text }) ++
    c.turns.flatMap Turn.messages

theorem mapM_flatMap_eq_ok {ε α β γ : Type} {f : β → Except ε γ} {g : α → List β} {h : α → List γ}
    (hf : ∀ a, (g a).mapM f = .ok (h a)) (xs : List α) :
    (xs.flatMap g).mapM f = .ok (xs.flatMap h) := by
  induction xs with
  | nil => rfl
  | cons x xs ih =>
    rw [List.flatMap_cons, List.mapM_append, hf, ih]
    rfl

theorem normalizeToolCall_callForm (call : SharedCall py) :
    openai.normalizeToolCall py (openai.callForm call) = .ok call.toDict := by
  have hparse : openai.parseArguments py [("name", .str call.name),
      ("arguments", .str call.arguments)] =
        .ok [("name", .str call.name), ("arguments", .obj call.input)] := by
    have hget : Dict.get? [("name", .str call.name), ("arguments", .str call.arguments)]
        "arguments" = some (.str call.arguments) := rfl
    unfold openai.parseArguments
    simp only [hget, call.loads]
    rfl
  have hfunction : openai.normalizeToolCall py (openai.callForm call) =
      (openai.parseArguments py [("name", .str call.name), ("arguments", .str call.arguments)] >>=
        fun function => pure (Dict.set [("id", .str call.id), ("type", .str "function"),
          ("function", .obj [("name", .str call.name), ("arguments", .str call.arguments)])]
            "function" (.obj function))) := rfl
  rw [hfunction, hparse]
  rfl

theorem normalizeMessage_turnForm (turn : Turn py) :
    (openai.turnForm turn).mapM (openai.normalizeMessage py) = .ok turn.messages := by
  cases turn with
  | user text => rfl
  | assistant text calls =>
    have hcalls : (calls.map openai.callForm).mapM (openai.normalizeToolCall py) =
        .ok (calls.map SharedCall.toDict) :=
      mapM_map_eq_ok (fun call _ => normalizeToolCall_callForm call)
    cases calls with
    | nil => cases text <;> rfl
    | cons call calls =>
      have htoolCalls : ∀ content, openai.messageToolCalls py [("role", .str "assistant"),
          ("content", content), ("tool_calls", .arr ((call :: calls).map openai.callForm))] =
            .ok (some ((call :: calls).map SharedCall.toDict)) := by
        intro content
        have hget : Dict.get? [("role", .str "assistant"), ("content", content),
          ("tool_calls", .arr ((call :: calls).map openai.callForm))] "tool_calls" =
            some (.arr ((call :: calls).map openai.callForm)) := rfl
        unfold openai.messageToolCalls
        rw [hget]
        simp only [openai.normalizeToolCalls, hcalls]
        rfl
      have hmessage : ∀ content text,
          openai.normalizeMessageContent content = .ok (.str text) →
            openai.normalizeMessage py (.obj [("role", .str "assistant"), ("content", content),
              ("tool_calls", .arr ((call :: calls).map openai.callForm))]) =
                .ok (assistantReply text (some ((call :: calls).map SharedCall.toDict))) := by
        intro content text hcontent
        have hget : (Dict.get? [("role", .str "assistant"), ("content", content),
            ("tool_calls", .arr ((call :: calls).map openai.callForm))] "content").getD (.str "") =
              content := rfl
        have hrole : openai.messageRole [("role", .str "assistant"), ("content", content),
            ("tool_calls", .arr ((call :: calls).map openai.callForm))] = .ok "assistant" := rfl
        simp only [openai.normalizeMessage, hget, hrole, hcontent, htoolCalls]
        rfl
      have hform : openai.turnForm (.assistant text (call :: calls)) =
          [.obj [("role", .str "assistant"), ("content", text.elim .null .str),
            ("tool_calls", .arr ((call :: calls).map openai.callForm))]] := rfl
      have hcontent : openai.normalizeMessageContent (text.elim .null .str) =
          .ok (.str (text.getD "")) := by
        cases text <;> rfl
      rw [hform, List.mapM_cons, hmessage _ _ hcontent]
      rfl
  | toolResults first rest =>
    have hresult : ∀ result ∈ first :: rest, openai.normalizeMessage py (openai.resultForm result) =
        .ok (anthropic.toolMessage result.toolCallId result.content) := fun _ _ => rfl
    exact mapM_map_eq_ok hresult

/-- The calls of an assistant, one behind the other. -/
theorem assistantBlocks_calls (calls : List (SharedCall py)) (l : anthropic.AssistantLocals) :
    (calls.map anthropic.callForm).foldlM (anthropic.assistantBlock py) l =
      .ok { l with toolCalls := l.toolCalls ++ calls.map SharedCall.toDict } := by
  induction calls generalizing l with
  | nil => simp [pure, Except.pure]
  | cons call calls ih =>
    have hstep : anthropic.assistantBlock py l (anthropic.callForm call) =
        .ok { l with toolCalls := l.toolCalls ++ [call.toDict] } := by
      have hid : anthropic.toolUseId (anthropic.toolUseBlock (.str call.id) (.str call.name)
          (.obj call.input)) = .ok call.id := by
        have hget : Dict.get? (anthropic.toolUseBlock (.str call.id) (.str call.name)
          (.obj call.input)) "id" = some (.str call.id) := rfl
        unfold anthropic.toolUseId
        simp only [hget, if_neg call.id_ne]
      have hblock : anthropic.assistantBlock py l (anthropic.callForm call) =
          (anthropic.toolUseId (anthropic.toolUseBlock (.str call.id) (.str call.name)
            (.obj call.input)) >>= fun id => pure { l with toolCalls :=
              l.toolCalls ++ [anthropic.toolCallOf id call.name (.obj call.input)] }) := rfl
      rw [hblock, hid]
      rfl
    rw [List.map_cons, List.foldlM_cons, hstep]
    have hrest := ih { l with toolCalls := l.toolCalls ++ [call.toDict] }
    rw [List.append_assoc] at hrest
    exact hrest

/-- The results of one message, one behind the other. -/
theorem userBlocks_results (py : PythonLibrary) (results : List SharedResult)
    (messages : List Message) :
    (results.map anthropic.resultForm).foldlM (anthropic.userBlock py) ⟨messages, []⟩ =
      .ok ⟨messages ++ results.map (fun result =>
        anthropic.toolMessage result.toolCallId result.content), []⟩ := by
  induction results generalizing messages with
  | nil => simp [pure, Except.pure]
  | cons result results ih =>
    have hstep : anthropic.userBlock py ⟨messages, []⟩ (anthropic.resultForm result) =
        .ok ⟨messages ++ [anthropic.toolMessage result.toolCallId result.content], []⟩ := by
      have hid : anthropic.userBlock py ⟨messages, []⟩ (anthropic.resultForm result) =
          (if result.toolCallId = "" then .error (malformedRequest
              "tool_result.tool_use_id must be a non-empty string")
            else .ok
              ⟨messages ++ [anthropic.toolMessage result.toolCallId result.content], []⟩) := by
        rfl
      rw [hid, if_neg result.toolCallId_ne]
    rw [List.map_cons, List.foldlM_cons, hstep]
    have hrest := ih (messages ++ [anthropic.toolMessage result.toolCallId result.content])
    rw [List.append_assoc] at hrest
    exact hrest

theorem messageToInternal_turnForm (turn : Turn py) :
    anthropic.messageToInternal py (anthropic.turnForm turn) = .ok turn.messages := by
  cases turn with
  | user text => rfl
  | assistant text calls =>
    have hcontent : anthropic.assistantMessageFromContent py (.arr
        (text.toList.map (fun text => .obj (anthropic.textBlock text)) ++
          calls.map anthropic.callForm)) = .ok (assistantReply (text.getD "")
            (if calls.isEmpty then none else some (calls.map SharedCall.toDict))) := by
      have htexts : (text.toList.map (fun text => Json.obj (anthropic.textBlock text))).foldlM
          (anthropic.assistantBlock py) {} = .ok { texts := text.toList } := by
        cases text <;> rfl
      have hblocks : (text.toList.map (fun text => Json.obj (anthropic.textBlock text)) ++
          calls.map anthropic.callForm).foldlM (anthropic.assistantBlock py) {} =
            .ok ⟨text.toList, calls.map SharedCall.toDict⟩ := by
        rw [List.foldlM_append, htexts]
        exact assistantBlocks_calls calls ⟨text.toList, []⟩
      have hjoined : "\n".intercalate text.toList = text.getD "" := by
        cases text <;> simp
      simp only [anthropic.assistantMessageFromContent, hblocks]
      rw [← hjoined]
      cases calls <;> rfl
    have hform : anthropic.messageToInternal py (anthropic.turnForm (.assistant text calls)) =
        (anthropic.assistantMessageFromContent py (.arr
          (text.toList.map (fun text => .obj (anthropic.textBlock text)) ++
            calls.map anthropic.callForm)) >>= fun m => pure [m]) := rfl
    rw [hform, hcontent]
    rfl
  | toolResults first rest =>
    have hblocks := userBlocks_results py (first :: rest) []
    have hform : anthropic.messageToInternal py
        (anthropic.turnForm (.toolResults first rest : Turn py)) =
        (((first :: rest).map anthropic.resultForm).foldlM (anthropic.userBlock py) {} >>=
          fun l => pure l.flushUser.messages) := rfl
    rw [hform, hblocks]
    rfl

end Messages

/-! ## The lowered requests -/

section Requests

variable {py : PythonLibrary}

/-- A system text loses nothing to the pattern of the billing header. -/
theorem subBillingHeaders_eq {text : String} (h : NoBillingHeader text) (fuel : Nat)
    (front back : List Char) (htext : text.toList = front ++ back) (lineStarts : Bool)
    (hstarts : lineStarts = true → front = [] ∨ front.getLast? = some '\n') :
    anthropic.subBillingHeaders fuel lineStarts back = back := by
  induction fuel generalizing front back lineStarts with
  | zero => rfl
  | succ fuel ih =>
    cases back with
    | nil => rfl
    | cons c cs =>
      have hnone : (if lineStarts then anthropic.afterBillingHeader (c :: cs) else
        none) = none := by
        cases hline : lineStarts with
        | true => simpa using h front (c :: cs) htext (hstarts hline)
        | false => rfl
      have hrest := ih (front ++ [c]) cs (by simp [htext]) (c == '\n') (by simp)
      simp only [anthropic.subBillingHeaders, hnone, hrest]

theorem systemToText_shared (s : SystemText) :
    anthropic.systemToText py (.str s.text) = .ok s.text := by
  have hsub := subBillingHeaders_eq s.noHeader s.text.length [] s.text.toList rfl true (by simp)
  simp only [anthropic.systemToText, anthropic.stripBillingHeader, hsub, String.ofList_toList,
    s.stripped]

theorem messagesOf_of_ne {payload : Dict} {messages : List Json}
    (h : payload.get? "messages" = some (.arr messages)) (hne : messages ≠ []) :
    openai.messagesOf payload = .ok messages := by
  obtain ⟨message, rest, rfl⟩ := List.exists_cons_of_ne_nil hne
  unfold openai.messagesOf
  rw [h]

theorem turnForm_ne_nil (turn : Turn py) : openai.turnForm turn ≠ [] := by
  cases turn <;> simp [openai.turnForm]

/-- What the OpenAI route makes of a conversation. -/
theorem openaiToInternal_payloadForm (c : Conversation py) (base : Dict) (allowed : List String) :
    ∃ params, openai.openaiToInternal py base allowed (.obj (openai.payloadForm c)) =
      .ok ⟨c.messages, c.tools.map (fun tools => tools.map openai.toolForm), params⟩ := by
  obtain ⟨system, first, rest, tools⟩ := c
  generalize hpayload : openai.payloadForm ⟨system, first, rest, tools⟩ = payload
  have hmessages : payload.get? "messages" = some (.arr (system.toList.map (fun s =>
      .obj [("role", .str "system"), ("content", .str s.text)]) ++
        (first :: rest).flatMap openai.turnForm)) := by
    rw [← hpayload]
    rfl
  have hgates : openai.checkGates py payload = .ok () := by
    rw [← hpayload]
    cases tools <;> rfl
  have hchoice : openai.toolChoiceOf payload = .ok "auto" := by
    rw [← hpayload]
    cases tools <;> rfl
  have htools : openai.toolsOf payload =
      .ok (tools.map (fun tools => tools.map openai.toolForm)) := by
    rw [← hpayload]
    cases tools <;> rfl
  have hget := messagesOf_of_ne hmessages (by simp [turnForm_ne_nil])
  have hsystem : (system.toList.map (fun s =>
      Json.obj [("role", Json.str "system"), ("content", Json.str s.text)])).mapM
        (openai.normalizeMessage py) = .ok (system.toList.map
          (fun s => { role := "system", content := .str s.text })) :=
    mapM_map_eq_ok (fun _ _ => rfl)
  have hnormalized : (system.toList.map (fun s =>
      Json.obj [("role", Json.str "system"), ("content", Json.str s.text)]) ++
        (first :: rest).flatMap openai.turnForm).mapM (openai.normalizeMessage py) =
          .ok (Conversation.messages ⟨system, first, rest, tools⟩) := by
    rw [List.mapM_append, hsystem, mapM_flatMap_eq_ok normalizeMessage_turnForm]
    rfl
  refine ⟨mergeSamplingParams base payload allowed, ?_⟩
  have hform : openai.openaiToInternal py base allowed (.obj payload) =
      ((system.toList.map (fun s =>
        Json.obj [("role", Json.str "system"), ("content", Json.str s.text)]) ++
          (first :: rest).flatMap openai.turnForm).mapM (openai.normalizeMessage py) >>=
            fun messages => pure ⟨messages, tools.map (fun tools => tools.map openai.toolForm),
              mergeSamplingParams base payload allowed⟩) := by
    simp only [openai.openaiToInternal, hgates, hchoice, hget, htools]
    rfl
  rw [hform, hnormalized]
  rfl

theorem convertTool_toolForm (tool : SharedTool py) :
    anthropic.convertTool py (anthropic.toolForm tool) = .ok tool.converted := by
  obtain ⟨name, description, schema, copies⟩ := tool
  cases description with
  | none =>
    have hform : anthropic.convertTool py (anthropic.toolForm ⟨name, none, schema, copies⟩) =
        (py.deepcopy schema >>= fun inputSchema => pure (.obj [("type", .str "function"),
          ("function", .obj [("name", .str name), ("parameters", inputSchema)])])) := rfl
    rw [hform, copies]
    rfl
  | some description =>
    have hform : anthropic.convertTool py
        (anthropic.toolForm ⟨name, some description, schema, copies⟩) =
          (py.deepcopy schema >>= fun inputSchema => pure (.obj [("type", .str "function"),
            ("function", .obj [("name", .str name), ("parameters", inputSchema),
              ("description", .str description)])])) := rfl
    rw [hform, copies]
    rfl

/-- What the Anthropic route makes of a conversation. -/
theorem anthropicToInternal_payloadForm (c : Conversation py) (base : Dict)
    (allowed : List String) : ∃ params,
      anthropic.anthropicToInternal py base allowed (.obj (anthropic.payloadForm c)) =
        .ok ⟨c.messages, c.tools.map (fun tools => tools.map SharedTool.converted), params⟩ := by
  obtain ⟨system, first, rest, tools⟩ := c
  generalize hpayload : anthropic.payloadForm ⟨system, first, rest, tools⟩ = payload
  have hmessages : payload.get? "messages" =
    some (.arr ((first :: rest).map anthropic.turnForm)) := by
    rw [← hpayload]
    cases system <;> rfl
  have hfold : anthropic.foldMidListSystemIntoUser py
    (.arr ((first :: rest).map anthropic.turnForm)) =
      .ok (.arr ((first :: rest).map anthropic.turnForm)) := by
    have hnone : ((first :: rest).map anthropic.turnForm).any anthropic.isSystemEntry = false := by
      rw [List.any_eq_false]
      intro entry hentry
      obtain ⟨turn, _, rfl⟩ := List.mem_map.mp hentry
      cases turn <;> simp [anthropic.turnForm, anthropic.isSystemEntry, hasField,
        Dict.get?, Json.isText]
    simp only [anthropic.foldMidListSystemIntoUser, hnone]
    rfl
  have hlowered : anthropic.messagesToInternal py (.arr ((first :: rest).map anthropic.turnForm)) =
      .ok ((first :: rest).flatMap Turn.messages) := by
    rw [anthropic.messagesToInternal_eq_ok]
    refine ⟨by simp, (first :: rest).map Turn.messages, ?_, ?_⟩
    · exact mapM_map_eq_ok (fun turn _ => messageToInternal_turnForm turn)
    · rw [List.flatMap_def]
  have hsystem : anthropic.systemToText py ((payload.get? "system").getD .null) =
      .ok ((system.map SystemText.text).getD "") := by
    rw [← hpayload]
    cases system with
    | none => cases tools <;> rfl
    | some s => exact systemToText_shared s
  have htools : anthropic.convertTools py ((payload.get? "tools").getD .null) =
      .ok (tools.map (fun tools => tools.map SharedTool.converted)) := by
    have hget : (payload.get? "tools").getD .null =
        (tools.map fun tools => Json.arr (tools.map anthropic.toolForm)).getD .null := by
      rw [← hpayload]
      cases system <;> cases tools <;> rfl
    rw [hget]
    cases tools with
    | none => rfl
    | some tools =>
      have hconverted : (tools.map anthropic.toolForm).mapM (anthropic.convertTool py) =
          .ok (tools.map SharedTool.converted) :=
        mapM_map_eq_ok (fun tool _ => convertTool_toolForm tool)
      simp only [Option.map_some, Option.getD_some, anthropic.convertTools, hconverted]
      rfl
  have hchoice : ∀ tools, anthropic.applyToolChoice py payload tools = .ok tools := by
    intro tools'
    rw [← hpayload]
    cases system <;> cases tools <;> rfl
  refine ⟨anthropic.samplingParamsOf base payload allowed, ?_⟩
  have hlifted : anthropic.anthropicToInternal py base allowed (.obj payload) =
      .ok ⟨if (system.map SystemText.text).getD "" = "" then (first :: rest).flatMap Turn.messages
        else { role := "system", content := .str ((system.map SystemText.text).getD "") } ::
          (first :: rest).flatMap Turn.messages,
        tools.map (fun tools => tools.map SharedTool.converted),
        anthropic.samplingParamsOf base payload allowed⟩ := by
    have hform : anthropic.anthropicToInternal py base allowed (.obj payload) =
        (anthropic.messagesToInternal py (.arr ((first :: rest).map anthropic.turnForm)) >>=
          fun messages => pure ⟨if (system.map SystemText.text).getD "" = "" then messages
            else { role := "system", content := .str ((system.map SystemText.text).getD "") } ::
              messages,
            tools.map (fun tools => tools.map SharedTool.converted),
            anthropic.samplingParamsOf base payload allowed⟩) := by
      simp only [anthropic.anthropicToInternal, hmessages, Option.getD_some, hfold, hsystem, htools,
        hchoice]
      rfl
    rw [hform, hlowered]
    rfl
  rw [hlifted]
  cases system with
  | none => rfl
  | some s =>
    simp only [Option.map_some, Option.getD_some, if_neg s.ne]
    rfl

end Requests

/-! ## The tools -/

section Tools

/-- No value is equal to one of the two and not to the other. -/
def Indistinct (v w : Json) : Prop := ∀ t : Json, t.pyEq v = t.pyEq w

theorem indistinct_obj {fields others : Dict} (hlength : fields.length = others.length)
    (hget : ∀ key, Option.Rel Indistinct (fields.get? key) (others.get? key)) :
    Indistinct (.obj fields) (.obj others) := by
  have hfields : ∀ d : Dict, Json.pyEqFields d fields = Json.pyEqFields d others := by
    intro d
    induction d with
    | nil => rfl
    | cons field d ih =>
      obtain ⟨key, x⟩ := field
      have hkey := hget key
      unfold Dict.get? at hkey
      rw [Json.pyEqFields, Json.pyEqFields, ih]
      cases hfound : List.lookup key fields with
      | none =>
        rw [hfound] at hkey
        cases hother : List.lookup key others with
        | none => rfl
        | some w => rw [hother] at hkey; cases hkey
      | some v =>
        rw [hfound] at hkey
        cases hother : List.lookup key others with
        | none => rw [hother] at hkey; cases hkey
        | some w =>
          rw [hother] at hkey
          cases hkey with
          | some h => simp only [h x]
  intro t
  cases t with
  | obj d => rw [Json.pyEq, Json.pyEq, hlength, hfields]
  | _ => rfl

theorem pyEqList_congr {vs ws : List Json} (h : List.Forall₂ Indistinct vs ws) (ts : List Json) :
    Json.pyEqList ts vs = Json.pyEqList ts ws := by
  induction h generalizing ts with
  | nil => rfl
  | cons hhead _ ih =>
    cases ts with
    | nil => rfl
    | cons t ts => rw [Json.pyEqList, Json.pyEqList, hhead t, ih]

variable {py : PythonLibrary}

/-- The function of a tool with a description, its keys in the order of either route. -/
theorem function_get? (name description : String) (schema : Json) (key : String) :
    Dict.get? [("name", .str name), ("description", .str description), ("parameters", schema)] key =
      Dict.get? [("name", .str name), ("parameters", schema), ("description", .str description)]
        key := by
  unfold Dict.get?
  by_cases hdescription : key = "description"
  · subst hdescription
    rfl
  · have hne : (key == "description") = false := beq_eq_false_iff_ne.mpr hdescription
    simp only [List.lookup_cons, hne, List.lookup_nil]

theorem indistinct_tool {function function' : Json} (h : Indistinct function function') :
    Indistinct (.obj [("type", .str "function"), ("function", function)])
      (.obj [("type", .str "function"), ("function", function')]) := by
  refine indistinct_obj (by rfl) (fun key => ?_)
  unfold Dict.get?
  simp only [List.lookup_cons, List.lookup_nil]
  cases key == "type" with
  | true => exact .some (fun _ => rfl)
  | false =>
    cases key == "function" with
    | true => exact .some h
    | false => exact .none

/-- The two forms of a tool differ in the order of their keys alone. -/
theorem toolForm_indistinct (tool : SharedTool py) :
    Indistinct (openai.toolForm tool) tool.converted := by
  obtain ⟨name, description, schema, copies⟩ := tool
  cases description with
  | none => exact fun _ => rfl
  | some description =>
    have hfunction : Indistinct
        (.obj [("name", .str name), ("description", .str description), ("parameters", schema)])
        (.obj [("name", .str name), ("parameters", schema),
          ("description", .str description)]) := by
      refine indistinct_obj (by rfl) (fun key => ?_)
      rw [function_get?]
      cases Dict.get? [("name", .str name), ("parameters", schema),
          ("description", .str description)] key with
      | none => exact .none
      | some value => exact .some (fun _ => rfl)
    exact indistinct_tool hfunction

theorem toolForm_canonical (tool : SharedTool py) :
    (openai.toolForm tool).canonical = tool.converted.canonical := by
  obtain ⟨name, description, schema, copies⟩ := tool
  cases description with
  | none => rfl
  | some description =>
    have hfunction : Json.canonical
        (.obj [("name", .str name), ("description", .str description), ("parameters", schema)]) =
        Json.canonical
          (.obj [("name", .str name), ("parameters", schema),
            ("description", .str description)]) := by
      apply (Json.canonical_obj_eq_iff (by simp)).mpr
      exact .cons _ (.swap _ _ _)
    apply Json.canonical_obj_congr
    exact congrArg (fun function => [("type", Json.str "function"), ("function", function)])
      hfunction

/-- A chain is selected by what the tools are equal to. -/
theorem selectChain_congr {tools tools' : Option (List Json)}
    (h : ∀ chainTools, toolsEq chainTools tools = toolsEq chainTools tools') (s : GatewaySession)
    (hashes : List String) : s.selectChain tools hashes = s.selectChain tools' hashes := by
  have hconsider : s.considerChain tools hashes = s.considerChain tools' hashes := by
    funext l chain
    simp only [GatewaySession.considerChain, GatewaySession.isEligible, h]
  unfold GatewaySession.selectChain
  rw [hconsider]

end Tools

/-- Both routes lower a conversation. The messages are equal one by one in canonical form, and the
tools up to the order of their keys. A session of any state then selects the same chain for either
request, with or without a rollback. -/
theorem routes_agree (c : Conversation py) (base : Dict) (openaiKeys anthropicKeys : List String) :
    ∃ lowered lowered' : LoweredRequest,
      openai.openaiToInternal py base openaiKeys (.obj (openai.payloadForm c)) = .ok lowered ∧
      anthropic.anthropicToInternal py base anthropicKeys (.obj (anthropic.payloadForm c)) =
        .ok lowered' ∧
      (∀ C : MessageCodec, lowered.messages.map C.canonicalForm =
        lowered'.messages.map C.canonicalForm) ∧
      lowered.tools.map (List.map Json.canonical) = lowered'.tools.map (List.map Json.canonical) ∧
      (∀ chainTools, toolsEq chainTools lowered.tools = toolsEq chainTools lowered'.tools) ∧
      ∀ (C : MessageCodec) (s : GatewaySession),
        s.selectionFor C lowered.toRequest = s.selectionFor C lowered'.toRequest := by
  obtain ⟨samplingParams, hopenai⟩ := openaiToInternal_payloadForm c base openaiKeys
  obtain ⟨samplingParams', hanthropic⟩ := anthropicToInternal_payloadForm c base anthropicKeys
  have htools : ∀ chainTools,
      toolsEq chainTools (c.tools.map (fun tools => tools.map openai.toolForm)) =
        toolsEq chainTools (c.tools.map (fun tools => tools.map SharedTool.converted)) := by
    intro chainTools
    cases c.tools with
    | none => rfl
    | some tools =>
      have hall : List.Forall₂ Indistinct (tools.map openai.toolForm)
          (tools.map SharedTool.converted) := by
        rw [List.forall₂_map_left_iff, List.forall₂_map_right_iff, List.forall₂_same]
        exact fun tool _ => toolForm_indistinct tool
      cases chainTools with
      | none => rfl
      | some chainTools => exact pyEqList_congr hall chainTools
  refine ⟨_, _, hopenai, hanthropic, fun _ => rfl, ?_, htools, ?_⟩
  · cases c.tools with
    | none => rfl
    | some tools =>
      simp only [Option.map_some, List.map_map, Option.some.injEq]
      exact List.map_congr_left (fun tool _ => toolForm_canonical tool)
  · intro C s
    exact selectChain_congr htools s _

/-- A system text, a question, a call of a tool, and its result. -/
def askedTool : Conversation plainPython where
  system := some {
    text := "s"
    ne := by decide
    stripped := by decide
    noHeader := by
      rintro (_ | ⟨c, front⟩) back htext _
      · obtain rfl : ['s'] = back := htext
        rfl
      · have hback : front ++ back = [] := (List.cons.inj htext).2.symm
        rw [(List.append_eq_nil_iff.mp hback).2]
        rfl }
  first := .user "q"
  rest := [
    .assistant none [⟨"a", "f", "{}", [], by decide, by rfl⟩],
    .toolResults ⟨"a", "r", by decide⟩ []]
  tools := some [⟨"f", some "d", .obj [("type", .str "object")], rfl⟩]

theorem routes_agree_askedTool : ∃ lowered lowered' : LoweredRequest,
    openai.openaiToInternal plainPython [] [] (.obj (openai.payloadForm askedTool)) = .ok lowered ∧
    anthropic.anthropicToInternal plainPython [] [] (.obj (anthropic.payloadForm askedTool)) =
      .ok lowered' ∧
    (∀ C : MessageCodec, lowered.messages.map C.canonicalForm =
      lowered'.messages.map C.canonicalForm) ∧
    lowered.messages.map Message.role = ["system", "user", "assistant", "tool"] := by
  have hroles : (openai.openaiToInternal plainPython [] []
      (.obj (openai.payloadForm askedTool))).toOption.any (fun lowered =>
        lowered.messages.map Message.role == ["system", "user", "assistant", "tool"]) = true := by
    decide +kernel
  obtain ⟨lowered, lowered', hopenai, hanthropic, hmessages, _⟩ := routes_agree askedTool [] [] []
  rw [hopenai] at hroles
  exact ⟨lowered, lowered', hopenai, hanthropic, hmessages, beq_iff_eq.mp hroles⟩

end uni_agent
