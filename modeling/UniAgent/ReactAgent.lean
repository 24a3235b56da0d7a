-- The ReAct agent: a loop that queries the policy, records its message, dispatches its tool calls
-- to the toolbox and records their results, until the episode ends.
import UniAgent.BatchRollouts
import UniAgent.SchemaNormalization

namespace uni_agent

/-! ## The toolbox -/

namespace tools

inductive ToolStatus where
  | ok
  | formatError
  | error
  | timeout
  deriving DecidableEq

structure ToolResult where
  text : Option String := none
  status : ToolStatus := .ok

/-- `to_observation`, with the default `max_length`. -/
def ToolResult.toObservation (result : ToolResult) : String :=
  let maxLength := 100000
  let text := result.text.getD ""
  let shown :=
    if text.length > maxLength then
      String.ofList (text.toList.take maxLength) ++ "\n<response clipped>\n" ++
        "<NOTE>The observation exceeded " ++ toString maxLength ++ " characters, so " ++
        toString (text.length - maxLength) ++ " were elided. " ++
        "Retry with something that yields less output (e.g. head/tail/grep, or redirect to " ++
        "a file); do not use interactive pagers.</NOTE>"
    else text
  "Observation:\n" ++ shown

/-- What a tool returns: a result, or another value with its text. -/
inductive Returned where
  | result (r : ToolResult)
  | other (text : String)

/-- A tool: its name, and for one with a model of its arguments the published schema and the
checks of the values. -/
structure Tool where
  name : String
  argsModel : Option (Dict × (Dict → Except PyError Dict))

/-- The tools under their names, and the text of a `JSONDecodeError`. -/
structure Toolbox where
  byName : List (String × Tool)
  decodeError : String → String

namespace Toolbox

/-- `self._tools.get(name)`, or the error for a name that is unknown or no key. -/
def find (t : Toolbox) (py : PythonLibrary) (name : Json) : Except PyError Tool :=
  let unknown := toolCallFormatError ("Invalid action: function " ++ py.repr name ++
    " is not defined in the tools list.\nAllowed functions should be one of: " ++
    py.repr (.arr (t.byName.map (fun tool => .str tool.1))) ++ ".")
  match name with
  | .arr _ => .error (.typeError "unhashable type: 'list'")
  | .obj _ => .error (.typeError "unhashable type: 'dict'")
  | .str text =>
    match t.byName.lookup text with
    | some tool => .ok tool
    | none => .error unknown
  | .null | .bool _ | .int _ | .float _ => .error unknown

/-- `_parse_arguments` -/
def parseArguments (t : Toolbox) (py : PythonLibrary) (name rawArguments : Json) :
    Except PyError Dict :=
  let asObject (parsed : Json) : Except PyError Dict :=
    match parsed with
    | .obj fields => .ok fields
    | parsed => .error (toolCallFormatError ("Invalid action: arguments for " ++ py.repr name ++
        " must be a JSON object, got " ++ parsed.typeName ++ "."))
  match rawArguments with
  | .null => .ok []
  | .obj fields => .ok fields
  | .str raw =>
    let text := pyStrip raw
    if text = "" then .ok []
    else
      match py.jsonLoads text with
      | .value parsed => asObject parsed
      | .decodeError => .error
          (toolCallFormatError ("Invalid action: could not parse arguments for " ++
          py.repr name ++ " as JSON (" ++ t.decodeError text ++ ")."))
      | .raised e => .error e
  | parsed => asObject parsed

/-- `Toolbox.call`. What the tool itself does is given with the call. -/
def call (t : Toolbox) (py : PythonLibrary) (run : Tool → Dict → Except PyError Returned)
    (name rawArguments : Json) : Except PyError ToolResult :=
  let outcome := do
    let tool ← t.find py name
    let parsed ← t.parseArguments py name rawArguments
    let validated ←
      match tool.argsModel with
      | none => pure parsed
      | some (schema, checkValues) => validateArguments py tool.name schema checkValues parsed
    run tool validated
  match outcome with
  | .ok (.result result) => .ok result
  | .ok (.other text) => .ok { text := some text }
  | .error (.otherException "ToolCallFormatError" message) =>
    .ok { text := some message, status := .formatError }
  | .error (.otherException "ToolError" message) =>
    .ok { text := some ("Error: " ++ message), status := .error }
  | .error e => .error e

end Toolbox

end tools

/-! ## The agent -/

namespace agents

open tools

/-- A tool call as `query` serializes it. -/
structure ToolCall where
  id : Json
  type : Json
  name : Json
  arguments : Json

def ToolCall.toDict (call : ToolCall) : Dict :=
  [("id", call.id), ("type", call.type),
    ("function", .obj [("name", call.name), ("arguments", call.arguments)])]

/-- The sum of the prompt and the completion tokens: an int, or what a server reports that cannot be
compared with one. -/
inductive TokenTotal where
  | number (n : Int)
  | other (typeName : String)

/-- What `query` returns, with the sum of its tokens. -/
structure PolicyReply where
  content : Json
  toolCalls : List ToolCall
  totalTokens : Except PyError TokenTotal
  finishReason : Json

structure ReActConfig where
  baseUrl : Option String
  maxSteps : Int := 50
  timeoutBudget : Int := 3
  maxTotalTokens : Option Int := none
  maxTokensPerTurn : Option Int := none

inductive StopReason where
  | completed
  | finished
  | tokenLimit
  | timeoutLimit
  | maxSteps
  | unknownError
  deriving DecidableEq

/-- What is decided outside, in each step and for each call in it: the policy and the tools. And
what is raised when the toolbox is built, entered or left, and when the model is closed. -/
structure Surroundings where
  py : PythonLibrary
  toolbox : Toolbox
  query : Nat → List Dict → Option Int → Except PyError PolicyReply
  runTool : Nat → Nat → Tool → Dict → Except PyError Returned
  build : Option PyError := none
  enter : Option PyError := none
  leave : Option PyError := none
  aclose : Option PyError := none

structure TrajectoryInfo where
  steps : Nat := 0
  numToolCalls : Nat := 0
  timeouts : Nat := 0
  errors : Nat := 0
  totalTokens : TokenTotal := .number 0
  error : Option String := none

/-- The state of an episode, with a record of the transcripts that were passed to `query` and of
what the toolbox did with every call. -/
structure Episode where
  transcript : List Dict
  info : TrajectoryInfo := {}
  queried : List (List Dict) := []
  dispatched : List (Except PyError ToolResult) := []

/-- The message of the policy: with its tool calls, when there are any. -/
def assistantMessage (content : Json) (toolCalls : List ToolCall) : Dict :=
  [("role", .str "assistant"), ("content", content)] ++
    if toolCalls = [] then []
    else [("tool_calls", .arr (toolCalls.map (fun call => .obj call.toDict)))]

def toolMessage (call : ToolCall) (content : String) : Dict :=
  [("role", .str "tool"), ("tool_call_id", call.id), ("name", call.name), ("content", .str content)]

def finishTools : List String := ["submit", "finish"]

namespace ReActAgent

/-- The result of one call: its counters and its message. -/
def record (s : Episode) (call : ToolCall) (result : ToolResult) : Episode :=
  { s with
    transcript := s.transcript ++ [toolMessage call result.toObservation]
    info := { s.info with
      numToolCalls := s.info.numToolCalls + 1
      timeouts := if result.status = .timeout then s.info.timeouts + 1 else s.info.timeouts
      errors :=
        if result.status = .timeout ∨ result.status = .ok then s.info.errors
        else s.info.errors + 1 } }

def skippedMessage (call : ToolCall) : Dict := toolMessage call "Skipped: timeout budget exhausted."

def isFinishTool (name : Json) : Bool := finishTools.any (fun tool => name.isText tool)

/-- The calls of a turn, from one of them on. -/
def dispatch (cfg : ReActConfig) (around : Surroundings) (step : Nat) :
    Nat → List ToolCall → Bool → Episode → Except PyError StopReason × Episode
  | _, [], sawFinish, s => (.ok (if sawFinish then .finished else .completed), s)
  | idx, call :: rest, sawFinish, s =>
    let outcome := around.toolbox.call around.py (around.runTool step idx) call.name call.arguments
    let s := { s with dispatched := s.dispatched ++ [outcome] }
    match outcome with
    | .error e => (.error e, s)
    | .ok result =>
      let s := record s call result
      if cfg.timeoutBudget < s.info.timeouts then
        (.ok .timeoutLimit, { s with transcript := s.transcript ++ rest.map skippedMessage })
      else
        dispatch cfg around step (idx + 1) rest
          (sawFinish || (isFinishTool call.name && result.status == .ok)) s

/-- `max_total_tokens - total_tokens` -/
def remainingTokens (maxTotalTokens : Int) : TokenTotal → Except PyError Int
  | .number total => .ok (maxTotalTokens - total)
  | .other typeName => .error (.typeError
      ("unsupported operand type(s) for -: 'int' and '" ++ typeName ++ "'"))

/-- `max_total_tokens is not None and total_tokens >= max_total_tokens` -/
def budgetReached (maxTotalTokens : Option Int) (total : TokenTotal) : Except PyError Bool :=
  match maxTotalTokens, total with
  | none, _ => .ok false
  | some maxTotal, .number total => .ok (maxTotal ≤ total)
  | some _, .other typeName => .error (.typeError
      ("'>=' not supported between instances of '" ++ typeName ++ "' and 'int'"))

/-- The cap of one turn, `None` when no budget is set. -/
def maxTokens (cfg : ReActConfig) (remaining : Option Int) : Option Int :=
  let cap :=
    match cfg.maxTokensPerTurn with
    | some cap => if cap = 0 then cfg.maxTotalTokens else some cap
    | none => cfg.maxTotalTokens
  match cap, remaining with
  | some cap, some remaining => some (min cap remaining)
  | cap, _ => cap

/-- A turn after the answer of the policy. -/
def answered (cfg : ReActConfig) (around : Surroundings) (step : Nat) (reply : PolicyReply)
    (s : Episode) : Except PyError StopReason × Episode :=
  match reply.totalTokens with
  | .error e => (.error e, s)
  | .ok total =>
    let s := { s with
      transcript := s.transcript ++ [assistantMessage reply.content reply.toolCalls]
      info := { s.info with totalTokens := total } }
    match budgetReached cfg.maxTotalTokens total with
    | .error e => (.error e, s)
    | .ok true => (.ok .tokenLimit, s)
    | .ok false =>
      if reply.finishReason.isText "length" then (.ok .tokenLimit, s)
      else if reply.toolCalls = [] then (.ok .finished, s)
      else dispatch cfg around step 0 reply.toolCalls false s

/-- The query of a turn, and what follows it. -/
def queryPolicy (cfg : ReActConfig) (around : Surroundings) (step : Nat) (remaining : Option Int)
    (s : Episode) : Except PyError StopReason × Episode :=
  let queried := { s with queried := s.queried ++ [s.transcript] }
  match around.query step s.transcript (maxTokens cfg remaining) with
  | .error e => (.error e, queried)
  | .ok reply => answered cfg around step reply queried

/-- `step` -/
def step (cfg : ReActConfig) (around : Surroundings) (stepIdx : Nat) (s : Episode) :
    Except PyError StopReason × Episode :=
  match cfg.maxTotalTokens with
  | none => queryPolicy cfg around stepIdx none s
  | some maxTotal =>
    match remainingTokens maxTotal s.info.totalTokens with
    | .error e => (.error e, s)
    | .ok remaining =>
      if remaining ≤ 0 then (.ok .tokenLimit, s)
      else queryPolicy cfg around stepIdx (some remaining) s

/-- The loop over the steps that are left. -/
def steps (cfg : ReActConfig) (around : Surroundings) :
    Nat → Nat → Episode → Except PyError StopReason × Episode
  | 0, _, s => (.ok .maxSteps, s)
  | left + 1, stepIdx, s =>
    match step cfg around stepIdx { s with info := { s.info with steps := stepIdx } } with
    | (.ok .completed, s) => steps cfg around left (stepIdx + 1) s
    | (outcome, s) => (outcome, s)

/-- The loop, once the toolbox is entered. -/
def loop (cfg : ReActConfig) (around : Surroundings) (s : Episode) :
    Except PyError StopReason × Episode :=
  match around.enter with
  | some e => (.error e, s)
  | none => steps cfg around cfg.maxSteps.toNat 1 s

/-- `async with toolbox.entered(...)`. What is raised in leaving it replaces what the loop did, but
an exception of a tool that is closed is swallowed. -/
def within (cfg : ReActConfig) (around : Surroundings) (s : Episode) :
    Except PyError StopReason × Episode :=
  match around.leave with
  | none => loop cfg around s
  | some e => if e.isException then loop cfg around s else (.error e, (loop cfg around s).2)

structure AgentResult where
  transcript : List Dict
  info : TrajectoryInfo
  finished : Bool

/-- How a run ends: with a result and a termination reason, or with what it raises. -/
structure Run where
  episode : Episode
  outcome : Except PyError (StopReason × AgentResult)

def resultOf (reason : StopReason) (s : Episode) : StopReason × AgentResult :=
  (reason, { transcript := s.transcript, info := s.info, finished := reason == .finished })

/-- `except Exception`: the transcript is kept, and the episode ends as a failed one. -/
def caught (s : Episode) : Except PyError StopReason → Except PyError (StopReason × Episode)
  | .ok reason => .ok (reason, s)
  | .error e =>
    if e.isException then .ok (.unknownError, { s with
      info := { s.info with error := some (e.className ++ ": " ++ e.str) } })
    else .error e

/-- `run`. The model is closed in any case, and what that raises replaces the rest. -/
def run (cfg : ReActConfig) (around : Surroundings) (messages : List Dict) : Run :=
  let start : Episode := { transcript := messages }
  if cfg.baseUrl.isNone then
    { episode := start, outcome := .error (.valueError
        "react: config.model.base_url is not set (the endpoint the policy calls)") }
  else
    match around.build with
    | some e => { episode := start, outcome := .error e }
    | none =>
      let ended := within cfg around start
      match around.aclose, caught ended.2 ended.1 with
      | some e, _ => { episode := ended.2, outcome := .error e }
      | none, .error e => { episode := ended.2, outcome := .error e }
      | none, .ok (reason, s) => { episode := s, outcome := .ok (resultOf reason s) }

end ReActAgent

end agents

end uni_agent
