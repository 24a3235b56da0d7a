-- The OpenAI route: how a chat-completions request is lowered to messages, and how the outcome
-- of a generation is sent, as one response or as a stream of chunks.
import UniAgent.PythonText
import UniAgent.SessionState

namespace uni_agent

/-- What an adapter lowers a request to. -/
structure LoweredRequest where
  messages : List Message
  tools : Option (List Json)
  samplingParams : Dict

/-- `sampling_params[key] = payload[key]` for each of some keys that are there. -/
def mergeSamplingParams (base payload : Dict) (keys : List String) : Dict :=
  keys.foldl (fun params key =>
    match payload.get? key with
    | some value => params.set key value
    | none => params) base

namespace openai

/-! ## Requests -/

/-- `_normalize_message_content` -/
def normalizeMessageContent : Json → Except PyError Json
  | .arr items => .ok (.arr items)
  | .obj fields => .ok (.obj fields)
  | .str text => .ok (.str text)
  | .null => .ok (.str "")
  | content => .error (malformedRequest ("Unsupported content type: " ++ content.typeName))

/-- The part of `_normalize_tool_calls` that parses the arguments of one function. -/
def parseArguments (py : PythonLibrary) (function : Dict) : Except PyError Dict :=
  match function.get? "arguments" with
  | some (.str arguments) =>
    match py.jsonLoads arguments with
    | .value parsed => .ok (function.set "arguments" parsed)
    | .decodeError => .ok function
    | .raised (.typeError _) => .ok function
    | .raised e => .error e
  | _ => .ok function

/-- One turn of the loop in `_normalize_tool_calls`. -/
def normalizeToolCall (py : PythonLibrary) : Json → Except PyError Dict
  | .obj toolCall =>
    match Dict.get? toolCall "function" with
    | some (.obj function) => do
      let normalizedFunction ← parseArguments py function
      return Dict.set toolCall "function" (.obj normalizedFunction)
    | _ => .error (malformedRequest "tool_call.function must be an object")
  | _ => .error (malformedRequest "tool_calls entries must be objects")

/-- `_normalize_tool_calls` -/
def normalizeToolCalls (py : PythonLibrary) : Json → Except PyError (List Dict)
  | .arr toolCalls => toolCalls.mapM (normalizeToolCall py)
  | _ => .error (malformedRequest "tool_calls must be a list")

def messageRole (message : Dict) : Except PyError String :=
  match message.get? "role" with
  | some (.str role) =>
    if role = "" then .error (malformedRequest "message.role must be a non-empty string")
    else .ok role
  | _ => .error (malformedRequest "message.role must be a non-empty string")

def messageName (message : Dict) : Except PyError (Option String) :=
  match message.get? "name" with
  | none => .ok none
  | some (.str name) => .ok (some name)
  | some _ => .error (malformedRequest "message.name must be a string")

def messageToolCalls (py : PythonLibrary) (message : Dict) : Except PyError (Option (List Dict)) :=
  match message.get? "tool_calls" with
  | none => .ok none
  | some toolCalls => do return some (← normalizeToolCalls py toolCalls)

def messageReasoning (message : Dict) : Except PyError (Option (Option String)) :=
  match message.get? "reasoning_content" with
  | none => .ok none
  | some .null => .ok (some none)
  | some (.str text) => .ok (some (some text))
  | some _ => .error (malformedRequest "message.reasoning_content must be a string or null")

/-- `_normalize_message` -/
def normalizeMessage (py : PythonLibrary) : Json → Except PyError Message
  | .obj message => do
    let role ← messageRole message
    let content ← normalizeMessageContent ((Dict.get? message "content").getD (.str ""))
    let name ← messageName message
    let toolCalls ← messageToolCalls py message
    let toolCallId := (Dict.get? message "tool_call_id").map py.str
    let reasoningContent ← messageReasoning message
    return { role, content, name, toolCalls, toolCallId, reasoningContent }
  | _ => .error (malformedRequest "messages entries must be objects")

/-- `text.lower()`, for a comparison with the letters of ASCII. -/
def lowerAscii (text : String) : String := String.ofList (text.toList.map Char.toLower)

def toolChoiceOf (payload : Dict) : Except PyError String :=
  match (payload.get? "tool_choice").getD (.str "auto") with
  | .str choice =>
    let toolChoice := lowerAscii choice
    if toolChoice = "auto" ∨ toolChoice = "none" then .ok toolChoice
    else .error (malformedRequest ("tool_choice=\"" ++ choice ++
      "\" is not supported (only \"auto\" / \"none\" are supported)"))
  | .obj _ => .error (malformedRequest ("tool_choice with a specific function is not supported " ++
      "(only \"auto\" / \"none\" are supported)"))
  | _ => .error (malformedRequest "tool_choice must be a string or object")

/-- The gates for features of OpenAI requests that the gateway has not. -/
def checkGates (py : PythonLibrary) (payload : Dict) : Except PyError Unit := do
  let n := (payload.get? "n").getD (.int 1)
  if !n.pyEq (.int 1) then
    throw (malformedRequest ("n=" ++ py.str n ++ " is not supported (only n=1)"))
  match payload.get? "response_format" with
  | none => pure ()
  | some .null => pure ()
  | some _ => throw (malformedRequest "response_format is not supported")

def messagesOf (payload : Dict) : Except PyError (List Json) :=
  match payload.get? "messages" with
  | some (.arr (message :: rest)) => .ok (message :: rest)
  | _ => .error (malformedRequest "messages must be non-empty")

def toolsOf (payload : Dict) : Except PyError (Option (List Json)) :=
  match payload.get? "tools" with
  | none => .ok none
  | some .null => .ok none
  | some (.arr tools) => .ok (some tools)
  | some _ => .error (malformedRequest "tools must be a list")

/-- `openai_to_internal` -/
def openaiToInternal (py : PythonLibrary) (baseSamplingParams : Dict)
    (allowedSamplingKeys : List String) : Json → Except PyError LoweredRequest
  | .obj payload => do
    checkGates py payload
    let toolChoice ← toolChoiceOf payload
    let messages ← messagesOf payload
    let tools ← toolsOf payload
    let messages ← messages.mapM (normalizeMessage py)
    return {
      messages
      tools := if toolChoice = "none" then none else tools
      samplingParams := mergeSamplingParams baseSamplingParams payload allowedSamplingKeys }
  | payload => .error (.otherException "AttributeError"
      ("'" ++ payload.typeName ++ "' object has no attribute 'get'"))

/-! ## Responses -/

open session (GenerationOutcome)

def usage (outcome : GenerationOutcome) : Json :=
  .obj [("prompt_tokens", .int outcome.promptTokens),
    ("completion_tokens", .int outcome.completionTokens),
    ("total_tokens", .int (outcome.promptTokens + outcome.completionTokens))]

/-- The fields that name a response: its random id, its time and its model. -/
structure Envelope where
  id : String
  created : Int
  model : String

/-- `openai_build_response` -/
def openaiBuildResponse (envelope : Envelope) (outcome : GenerationOutcome) : Dict :=
  [("id", .str ("chatcmpl-" ++ envelope.id)),
    ("object", .str "chat.completion"),
    ("created", .int envelope.created),
    ("model", .str envelope.model),
    ("choices", .arr [.obj [("index", .int 0), ("message", .obj outcome.assistantMsg.toDict),
      ("finish_reason", .str outcome.finishReason)]]),
    ("usage", usage outcome)]

/-- `_chunk` -/
def chunk (envelope : Envelope) (delta : Dict) (finish : Option String) (usage : Option Json) :
    Dict :=
  [("id", .str ("chatcmpl-" ++ envelope.id)),
    ("object", .str "chat.completion.chunk"),
    ("created", .int envelope.created),
    ("model", .str envelope.model),
    ("choices", .arr [.obj [("index", .int 0), ("delta", .obj delta),
      ("finish_reason", finish.elim .null .str)]])] ++
    optionalField "usage" (fun usage => usage) usage

/-- The chunk of a text, when there is one. -/
def textChunk (envelope : Envelope) (key : String) : Json → List Dict
  | .str text => if text = "" then [] else [chunk envelope [(key, .str text)] none none]
  | _ => []

def toolCallsChunk (envelope : Envelope) : List Dict → List Dict
  | [] => []
  | toolCalls =>
    let indexed := toolCalls.zipIdx.map (fun call => .obj (Dict.set call.1 "index" (.int call.2)))
    [chunk envelope [("tool_calls", .arr indexed)] none none]

/-- `openai_stream_response`: the bodies of the events in front of `[DONE]`. -/
def openaiStreamResponse (envelope : Envelope) (outcome : GenerationOutcome) : List Dict :=
  let msg := outcome.assistantMsg
  [chunk envelope [("role", .str "assistant")] none none] ++
    textChunk envelope "reasoning_content"
      (msg.reasoningContent.elim .null (fun text => text.elim .null .str)) ++
    textChunk envelope "content" msg.content ++
    toolCallsChunk envelope (msg.toolCalls.getD []) ++
    [chunk envelope [] (some outcome.finishReason) (some (usage outcome))]

end openai

end uni_agent
