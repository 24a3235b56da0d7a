-- The Anthropic route: how a Messages request is lowered to messages, and how the outcome of a
-- generation is sent, as one response or as a stream of events.
import UniAgent.OpenAIAdapter

namespace uni_agent.anthropic

/-! ## Replies -/

open session (GenerationOutcome)

def stopReasonMap : List (String × String) :=
  [("stop", "end_turn"), ("length", "max_tokens"), ("tool_calls", "tool_use"),
    ("function_call", "tool_use"), ("content_filter", "refusal")]

def stopReasonOf (finishReason : String) : String :=
  (stopReasonMap.lookup finishReason).getD "end_turn"

/-- `_tool_call_input`: anything but an object counts as an empty input. -/
def toolCallInput (py : PythonLibrary) : Json → Except PyError Dict
  | .obj arguments => .ok arguments
  | .str arguments =>
    match py.jsonLoads arguments with
    | .value (.obj parsed) => .ok parsed
    | .value _ => .ok []
    | .decodeError => .ok []
    | .raised e => .error e
  | _ => .ok []

def textBlock (text : String) : Dict := [("type", .str "text"), ("text", .str text)]

def toolUseBlock (id name input : Json) : Dict :=
  [("type", .str "tool_use"), ("id", id), ("name", name), ("input", input)]

/-- One turn of the loop over tool calls in `_outcome_to_blocks`. -/
def blockOfToolCall (py : PythonLibrary) (index : Nat) (toolCall : Dict) : Except PyError Dict := do
  let function : Dict := match toolCall.get? "function" with
    | some (.obj function) => function
    | _ => []
  let id := (toolCall.get? "id").getD .null
  let input ← toolCallInput py ((function.get? "arguments").getD .null)
  return toolUseBlock (if id.truthy then id else .str ("toolu_" ++ py.tokenHex index))
    ((function.get? "name").getD (.str "tool")) (.obj input)

/-- `_outcome_to_blocks` -/
def outcomeToBlocks (py : PythonLibrary) (assistantMsg : Message) : Except PyError (List Dict) := do
  let texts := match assistantMsg.content with
    | .str content => if content = "" then [] else [textBlock content]
    | _ => []
  let toolUses ← (assistantMsg.toolCalls.getD []).zipIdx.mapM
    (fun call => blockOfToolCall py call.2 call.1)
  let blocks := texts ++ toolUses
  return if blocks.isEmpty then [textBlock ""] else blocks

def usage (inputTokens outputTokens : Nat) : Json :=
  .obj [("input_tokens", .int inputTokens), ("output_tokens", .int outputTokens)]

/-- The dict of a message: the whole reply, or its start with nothing in it. -/
def messageBody (messageId model : String) (content : List Dict) (stopReason usage : Json) : Dict :=
  [("id", .str ("msg_" ++ messageId)), ("type", .str "message"), ("role", .str "assistant"),
    ("model", .str model), ("content", .arr (content.map .obj)), ("stop_reason", stopReason),
    ("stop_sequence", .null), ("usage", usage)]

/-- `anthropic_build_response` -/
def anthropicBuildResponse (py : PythonLibrary) (messageId model : String)
    (outcome : GenerationOutcome) : Except PyError Dict := do
  let blocks ← outcomeToBlocks py outcome.assistantMsg
  return messageBody messageId model blocks (.str (stopReasonOf outcome.finishReason))
    (usage outcome.promptTokens outcome.completionTokens)

/-- The start of a block, with the text or the input left out. -/
def blockStart (block : Dict) : Dict :=
  if (block.get? "type").any (·.isText "text") then textBlock ""
  else toolUseBlock ((block.get? "id").getD .null) ((block.get? "name").getD .null) (.obj [])

/-- The text or the input of a block. `dumps` is `json.dumps(value, ensure_ascii=False)`. -/
def blockDelta (dumps : Json → String) (block : Dict) : Dict :=
  if (block.get? "type").any (·.isText "text") then
    [("type", .str "text_delta"), ("text", (block.get? "text").getD .null)]
  else [("type", .str "input_json_delta"),
    ("partial_json", .str (dumps ((block.get? "input").getD .null)))]

/-- The three events of one block. -/
def blockEvents (dumps : Json → String) (index : Nat) (block : Dict) : List Dict :=
  [[("type", .str "content_block_start"), ("index", .int index),
      ("content_block", .obj (blockStart block))],
    [("type", .str "content_block_delta"), ("index", .int index),
      ("delta", .obj (blockDelta dumps block))],
    [("type", .str "content_block_stop"), ("index", .int index)]]

/-- `anthropic_stream_response`: the data of the events. The name of each is its `type`. -/
def anthropicStreamResponse (py : PythonLibrary) (dumps : Json → String)
    (messageId model : String) (outcome : GenerationOutcome) : Except PyError (List Dict) := do
  let blocks ← outcomeToBlocks py outcome.assistantMsg
  return [[("type", .str "message_start"),
      ("message", .obj (messageBody messageId model [] .null (usage outcome.promptTokens 0)))]] ++
    blocks.zipIdx.flatMap (fun block => blockEvents dumps block.2 block.1) ++
    [[("type", .str "message_delta"),
        ("delta", .obj [("stop_reason", .str (stopReasonOf outcome.finishReason)),
          ("stop_sequence", .null)]),
        ("usage", usage outcome.promptTokens outcome.completionTokens)],
      [("type", .str "message_stop")]]

/-! ## System text -/

def billingHeader : List Char := "x-anthropic-billing-header:".toList

/-- A character matches a letter of the pattern without regard to case. Two letters outside ASCII
have the lower case `i`. -/
def matchesIgnoringCase (letter c : Char) : Bool :=
  c.toLower == letter || letter == 'i' && (c.toNat == 304 || c.toNat == 305)

/-- What follows the letters of the header. -/
def afterLetters : List Char → List Char → Option (List Char)
  | [], cs => some cs
  | letter :: letters, c :: cs =>
    if matchesIgnoringCase letter c then afterLetters letters cs else none
  | _ :: _, [] => none

/-- What follows a match of `_BILLING_HEADER_RE` at a place where a line starts. -/
def afterBillingHeader (cs : List Char) : Option (List Char) :=
  (afterLetters billingHeader (cs.dropWhile isPySpace)).map
    (fun rest => (rest.dropWhile (· != '\n')).drop 1)

/-- `_BILLING_HEADER_RE.sub("", ..)`, with as much fuel as there are characters. -/
def subBillingHeaders : Nat → (lineStarts : Bool) → List Char → List Char
  | 0, _, cs => cs
  | _ + 1, _, [] => []
  | fuel + 1, lineStarts, c :: cs =>
    match if lineStarts then afterBillingHeader (c :: cs) else none with
    | some rest => subBillingHeaders fuel true rest
    | none => c :: subBillingHeaders fuel (c == '\n') cs

/-- `_strip_billing_header` -/
def stripBillingHeader (text : String) : String :=
  pyStrip (String.ofList (subBillingHeaders text.length true text.toList))

/-- `entry.get("text", "")`, which must be a string. -/
def blockText (block : Dict) (message : String) : Except PyError String :=
  match (block.get? "text").getD (.str "") with
  | .str text => .ok text
  | _ => .error (malformedRequest message)

def systemBlockText (py : PythonLibrary) : Json → Except PyError String
  | .obj block =>
    if hasField (.obj block) "type" "text" then blockText block "system text must be a string"
    else .error (malformedRequest
      ("Unsupported system block type: " ++ py.str ((Dict.get? block "type").getD .null)))
  | _ => .error (malformedRequest "system blocks must be objects")

/-- `_system_to_text` -/
def systemToText (py : PythonLibrary) : Json → Except PyError String
  | .null => .ok ""
  | .str text => .ok (stripBillingHeader text)
  | .arr blocks => do
    let parts ← blocks.mapM (systemBlockText py)
    return stripBillingHeader ("\n".intercalate (parts.filter (· != "")))
  | _ => .error (malformedRequest "system must be a string or text block list")

/-! ## User messages -/

/-- A part of the content of a message: a text, or an image under its address. -/
inductive UserPart where
  | text (content : String)
  | image (url : String)

def UserPart.toDict : UserPart → Dict
  | .text content => textBlock content
  | .image url => [("type", .str "image_url"), ("image_url", .obj [("url", .str url)])]

def UserPart.text? : UserPart → Option String
  | .text content => some content
  | .image _ => none

/-- `_image_block_to_openai_part` -/
def imageBlockToOpenaiPart (py : PythonLibrary) (block : Dict) : Except PyError UserPart :=
  match block.get? "source" with
  | some (.obj source) =>
    if hasField (.obj source) "type" "base64" then
      match Dict.get? source "media_type", Dict.get? source "data" with
      | some (.str mediaType), some (.str data) =>
        .ok (.image ("data:" ++ mediaType ++ ";base64," ++ data))
      | _, _ => .error (malformedRequest "base64 image source requires media_type and data")
    else if hasField (.obj source) "type" "url" then
      match Dict.get? source "url" with
      | some (.str url) => .ok (.image url)
      | _ => .error (malformedRequest "url image source requires url")
    else .error (malformedRequest
      ("Unsupported image source type: " ++ py.str ((Dict.get? source "type").getD .null)))
  | _ => .error (malformedRequest "image.source must be an object")

def toolMessage (toolCallId content : String) : Message :=
  { role := "tool", content := .str content, toolCallId := some toolCallId }

/-- The locals of the loop in `_tool_result_messages`. -/
structure ToolResultLocals where
  messages : List Message := []
  texts : List String := []
  emittedToolMessage : Bool := false

def ToolResultLocals.flushText (l : ToolResultLocals) (toolCallId : String) : ToolResultLocals :=
  if l.texts.isEmpty then l
  else
    { messages := l.messages ++ [toolMessage toolCallId ("\n".intercalate l.texts)]
      texts := []
      emittedToolMessage := true }

/-- One turn of the loop in `_tool_result_messages`. -/
def toolResultBlock (py : PythonLibrary) (toolCallId : String) (l : ToolResultLocals) :
    Json → Except PyError ToolResultLocals
  | .obj block =>
    if hasField (.obj block) "type" "text" then do
      let text ← blockText block "tool_result text must be a string"
      return { l with texts := l.texts ++ [text] }
    else if hasField (.obj block) "type" "image" then do
      let l := if l.texts.isEmpty && !l.emittedToolMessage then
          { l with
            messages := l.messages ++ [toolMessage toolCallId ""]
            emittedToolMessage := true }
        else l
      let l := l.flushText toolCallId
      let part ← imageBlockToOpenaiPart py block
      return { l with
        messages := l.messages ++ [{ role := "user", content := .arr [.obj part.toDict] }] }
    else .error (malformedRequest
      ("Unsupported tool_result block type: " ++ py.str ((Dict.get? block "type").getD .null)))
  | _ => .error (malformedRequest "tool_result content blocks must be objects")

/-- `_tool_result_messages` -/
def toolResultMessages (py : PythonLibrary) (toolCallId : String) :
    Json → Except PyError (List Message)
  | .str content => .ok [toolMessage toolCallId content]
  | .null => .ok [toolMessage toolCallId ""]
  | .arr blocks => do
    let l ← blocks.foldlM (toolResultBlock py toolCallId) {}
    let messages := (l.flushText toolCallId).messages
    return if messages.isEmpty then [toolMessage toolCallId ""] else messages
  | _ => .error (malformedRequest "tool_result.content must be a string or block list")

/-- The content of the message that `flush_user` makes of some parts: one text, unless there is
an image. -/
def partsContent (parts : List UserPart) : Json :=
  if parts.any (fun part => part.text?.isNone) then .arr (parts.map (fun part => .obj part.toDict))
  else .str ("\n".intercalate (parts.filterMap UserPart.text?))

/-- The locals of the loop in `_user_messages_from_content`. -/
structure UserLocals where
  messages : List Message := []
  parts : List UserPart := []

def UserLocals.flushUser (l : UserLocals) : UserLocals :=
  if l.parts.isEmpty then l
  else { messages := l.messages ++ [{ role := "user", content := partsContent l.parts }] }

/-- One turn of the loop in `_user_messages_from_content`. -/
def userBlock (py : PythonLibrary) (l : UserLocals) : Json → Except PyError UserLocals
  | .obj block =>
    if hasField (.obj block) "type" "text" then do
      let text ← blockText block "user text must be a string"
      return { l with parts := l.parts ++ [.text text] }
    else if hasField (.obj block) "type" "image" then do
      let part ← imageBlockToOpenaiPart py block
      return { l with parts := l.parts ++ [part] }
    else if hasField (.obj block) "type" "tool_result" then do
      let l := l.flushUser
      match Dict.get? block "tool_use_id" with
      | some (.str toolCallId) =>
        if toolCallId = "" then
          throw (malformedRequest "tool_result.tool_use_id must be a non-empty string")
        let messages ← toolResultMessages py toolCallId
          ((Dict.get? block "content").getD (.str ""))
        return { l with messages := l.messages ++ messages }
      | _ => throw (malformedRequest "tool_result.tool_use_id must be a non-empty string")
    else .error (malformedRequest
      ("Unsupported user block type: " ++ py.str ((Dict.get? block "type").getD .null)))
  | _ => .error (malformedRequest "user content blocks must be objects")

/-- `_user_messages_from_content` -/
def userMessagesFromContent (py : PythonLibrary) : Json → Except PyError (List Message)
  | .str content => .ok [{ role := "user", content := .str content }]
  | .arr blocks => do
    let l ← blocks.foldlM (userBlock py) {}
    return l.flushUser.messages
  | _ => .error (malformedRequest "user content must be a string or block list")

/-! ## Assistant messages -/

/-- The locals of the loop in `_assistant_message_from_content`. -/
structure AssistantLocals where
  texts : List String := []
  toolCalls : List Dict := []

def toolCallOf (id name : String) (arguments : Json) : Dict :=
  [("id", .str id), ("type", .str "function"),
    ("function", .obj [("name", .str name), ("arguments", arguments)])]

def toolUseId (block : Dict) : Except PyError String :=
  match block.get? "id" with
  | some (.str id) =>
    if id = "" then .error (malformedRequest "tool_use.id must be a non-empty string") else .ok id
  | _ => .error (malformedRequest "tool_use.id must be a non-empty string")

def toolUseName (block : Dict) : Except PyError String :=
  match block.get? "name" with
  | some (.str name) => .ok name
  | _ => .error (malformedRequest "tool_use.name must be a string")

def toolUseInput (block : Dict) : Except PyError Dict :=
  match (block.get? "input").getD (.obj []) with
  | .obj arguments => .ok arguments
  | _ => .error (malformedRequest "tool_use.input must be an object")

/-- One turn of the loop in `_assistant_message_from_content`. -/
def assistantBlock (py : PythonLibrary) (l : AssistantLocals) :
    Json → Except PyError AssistantLocals
  | .obj block =>
    if hasField (.obj block) "type" "text" then do
      let text ← blockText block "assistant text must be a string"
      return { l with texts := l.texts ++ [text] }
    else if hasField (.obj block) "type" "tool_use" then do
      let id ← toolUseId block
      let name ← toolUseName block
      let arguments ← toolUseInput block
      return { l with toolCalls := l.toolCalls ++ [toolCallOf id name (.obj arguments)] }
    else if hasField (.obj block) "type" "thinking" then .ok l
    else if hasField (.obj block) "type" "redacted_thinking" then
      .error (malformedRequest "redacted_thinking blocks are not supported")
    else .error (malformedRequest
      ("Unsupported assistant block type: " ++ py.str ((Dict.get? block "type").getD .null)))
  | _ => .error (malformedRequest "assistant content blocks must be objects")

/-- `_assistant_message_from_content` -/
def assistantMessageFromContent (py : PythonLibrary) : Json → Except PyError Message
  | .str content => .ok { role := "assistant", content := .str content }
  | .arr blocks => do
    let l ← blocks.foldlM (assistantBlock py) {}
    return {
      role := "assistant"
      content := .str ("\n".intercalate l.texts)
      toolCalls := if l.toolCalls.isEmpty then none else some l.toolCalls }
  | _ => .error (malformedRequest "assistant content must be a string or block list")

/-! ## System entries inside the list -/

/-- `_fold_reminder_into_user` -/
def foldReminderIntoUser (py : PythonLibrary) (message : Dict) (text : String)
    (prepend : Bool) : Dict :=
  match (message.get? "content").getD (.str "") with
  | .arr content =>
    let part : Json := .obj (textBlock text)
    message.set "content" (.arr (if prepend then part :: content else content ++ [part]))
  | content =>
    if !content.truthy then message.set "content" (.str text)
    else if prepend then message.set "content" (.str (text ++ "\n" ++ py.str content))
    else message.set "content" (.str (py.str content ++ "\n" ++ text))

def foldReminder (py : PythonLibrary) (text : String) (prepend : Bool) : Json → Json
  | .obj message => .obj (foldReminderIntoUser py message text prepend)
  | message => message

def isSystemEntry (message : Json) : Bool := hasField message "role" "system"

def isUserEntry (message : Json) : Bool := hasField message "role" "user"

/-- Folds a reminder into the last user entry, when there is one. -/
def foldIntoLastUser (py : PythonLibrary) (reminder : String) : List Json → Option (List Json)
  | [] => none
  | message :: rest =>
    match foldIntoLastUser py reminder rest with
    | some folded => some (message :: folded)
    | none =>
      if isUserEntry message then some (foldReminder py reminder false message :: rest) else none

def reminderOf (systemText : String) : String :=
  "<system-reminder>\n" ++ systemText ++ "\n</system-reminder>"

def contentOf : Json → Json
  | .obj message => (Dict.get? message "content").getD (.str "")
  | _ => .str ""

/-- The locals of the loop in `_fold_mid_list_system_into_user`. -/
structure FoldLocals where
  out : List Json := []
  pending : String := ""

/-- One turn of the loop in `_fold_mid_list_system_into_user`. -/
def foldEntry (py : PythonLibrary) (l : FoldLocals) (message : Json) : Except PyError FoldLocals :=
  if isSystemEntry message then do
    let systemText ← systemToText py (contentOf message)
    if systemText = "" then
      return l
    let reminder := reminderOf systemText
    match foldIntoLastUser py reminder l.out with
    | some out => return { l with out }
    | none => return { l with
        pending := if l.pending = "" then reminder else l.pending ++ "\n" ++ reminder }
  else if l.pending ≠ "" ∧ isUserEntry message then
    .ok { out := l.out ++ [foldReminder py l.pending true message] }
  else .ok { l with out := l.out ++ [message] }

/-- What the loop leaves, with the reminders that found no user entry in one of their own. -/
def FoldLocals.finish (l : FoldLocals) : List Json :=
  if l.pending = "" then l.out
  else l.out ++ [.obj [("role", .str "user"), ("content", .str l.pending)]]

/-- `_fold_mid_list_system_into_user` -/
def foldMidListSystemIntoUser (py : PythonLibrary) : Json → Except PyError Json
  | .arr messages =>
    if !messages.any isSystemEntry then .ok (.arr messages)
    else do
      let l ← messages.foldlM (foldEntry py) {}
      return .arr l.finish
  | messages => .ok messages

/-! ## Requests -/

/-- One turn of the loop in `_messages_to_internal`. -/
def messageToInternal (py : PythonLibrary) : Json → Except PyError (List Message)
  | .obj message =>
    let content := (Dict.get? message "content").getD (.str "")
    if hasField (.obj message) "role" "user" then userMessagesFromContent py content
    else if hasField (.obj message) "role" "assistant" then do
      return [← assistantMessageFromContent py content]
    else .error (malformedRequest
      ("Unsupported message role: " ++ py.str ((Dict.get? message "role").getD .null)))
  | _ => .error (malformedRequest "messages entries must be objects")

/-- `_messages_to_internal` -/
def messagesToInternal (py : PythonLibrary) : Json → Except PyError (List Message)
  | .arr (message :: rest) => do
    let lowered ← (message :: rest).mapM (messageToInternal py)
    return lowered.flatten
  | _ => .error (malformedRequest "messages must be non-empty")

def toolDescription (tool : Dict) : Dict :=
  match tool.get? "description" with
  | some (.str description) => [("description", .str description)]
  | _ => []

def convertTool (py : PythonLibrary) : Json → Except PyError Json
  | .obj tool =>
    match Dict.get? tool "name" with
    | some (.str name) => do
      let inputSchema ← py.deepcopy ((Dict.get? tool "input_schema").getD (.obj []))
      return .obj [("type", .str "function"),
        ("function", .obj ([("name", .str name), ("parameters", inputSchema)] ++
          toolDescription tool))]
    | _ => .error (malformedRequest "tool.name must be a string")
  | _ => .error (malformedRequest "tools entries must be objects")

/-- `_convert_tools` -/
def convertTools (py : PythonLibrary) : Json → Except PyError (Option (List Json))
  | .null => .ok none
  | .arr tools => do return some (← tools.mapM (convertTool py))
  | _ => .error (malformedRequest "tools must be a list")

/-- `_apply_tool_choice` -/
def applyToolChoice (py : PythonLibrary) (payload : Dict) (tools : Option (List Json)) :
    Except PyError (Option (List Json)) :=
  match (payload.get? "tool_choice").getD (.str "auto") with
  | .str choice =>
    if choice = "auto" then .ok tools
    else if choice = "none" then .ok none
    else .error (malformedRequest ("Unsupported tool_choice: " ++ choice))
  | .obj choice =>
    if hasField (.obj choice) "type" "auto" then .ok tools
    else if hasField (.obj choice) "type" "none" then .ok none
    else .error (malformedRequest
      ("Unsupported tool_choice type: " ++ py.str ((Dict.get? choice "type").getD .null)))
  | _ => .error (malformedRequest "tool_choice must be a string or object")

/-- The merge of sampling parameters: four keys under their own names, and one renamed. -/
def samplingParamsOf (base payload : Dict) (allowedSamplingKeys : List String) : Dict :=
  let params := mergeSamplingParams base payload
    (["max_tokens", "temperature", "top_p", "top_k"].filter (allowedSamplingKeys.contains ·))
  match payload.get? "stop_sequences" with
  | some stop => if allowedSamplingKeys.contains "stop" then params.set "stop" stop else params
  | none => params

/-- `anthropic_to_internal` -/
def anthropicToInternal (py : PythonLibrary) (baseSamplingParams : Dict)
    (allowedSamplingKeys : List String) : Json → Except PyError LoweredRequest
  | .obj payload => do
    let messages ← messagesToInternal py
      (← foldMidListSystemIntoUser py ((Dict.get? payload "messages").getD .null))
    let systemText ← systemToText py ((Dict.get? payload "system").getD .null)
    let messages :=
      if systemText = "" then messages
      else { role := "system", content := .str systemText } :: messages
    let tools ← applyToolChoice py payload
      (← convertTools py ((Dict.get? payload "tools").getD .null))
    return {
      messages, tools
      samplingParams := samplingParamsOf baseSamplingParams payload allowedSamplingKeys }
  | _ => .error (malformedRequest "payload must be an object")

end uni_agent.anthropic
