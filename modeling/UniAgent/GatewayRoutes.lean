-- The two routes of a gateway actor for generations, up to the session: a body is lowered and its
-- sampling parameters are checked, and one that fails is answered without the session.
import UniAgent.AnthropicAdapter
import UniAgent.Interleaving

namespace uni_agent

open session (InternalGenerationRequest SamplingParams System)

/-- `str(exc)` -/
def PyError.str : PyError → String
  | .httpException statusCode detail => toString statusCode ++ ": " ++ detail
  | .valueError message => message
  | .runtimeError message => message
  | .assertionError message => message
  | .indexError message => message
  | .typeError message => message
  | .cancelledError => ""
  | .otherException _ message => message

/-- `_validate_sampling_params` -/
def validateSamplingParams (samplingParams : Dict) : Except PyError Unit :=
  match samplingParams.get? "max_tokens" with
  | none => .ok ()
  | some (.int maxTokens) =>
    if maxTokens ≤ 0 then .error (malformedRequest "max_tokens must be a positive integer")
    else .ok ()
  | some _ => .error (malformedRequest "max_tokens must be a positive integer")

/-- The request as the session reads it, once its sampling parameters are checked. -/
def LoweredRequest.toRequest (r : LoweredRequest) : InternalGenerationRequest :=
  { messages := r.messages
    tools := r.tools
    samplingParams := {
      maxTokens := match r.samplingParams.get? "max_tokens" with
        | some (.int maxTokens) => some maxTokens
        | _ => none
      logprobs := ((r.samplingParams.get? "logprobs").getD (.bool false)).truthy
      others := List.filter (fun field => field.1 != "max_tokens" && field.1 != "logprobs")
        r.samplingParams } }

/-! ## Errors of a provider -/

def openai.errorTypeByStatus : List (Nat × String) :=
  [(400, "invalid_request_error"), (409, "conflict_error")]

/-- `openai_error_body` -/
def openai.errorBody (statusCode : Nat) (message : String) : Json :=
  let errorType := (openai.errorTypeByStatus.lookup statusCode).getD
    (if 400 ≤ statusCode ∧ statusCode < 500 then "invalid_request_error" else
      "internal_server_error")
  .obj [("error", .obj [("message", .str message), ("type", .str errorType), ("code", .null),
    ("param", .null)])]

def anthropic.errorTypeByStatus : List (Nat × String) :=
  [(400, "invalid_request_error"), (409, "invalid_request_error"), (500, "api_error")]

/-- `anthropic_error_body` -/
def anthropic.errorBody (statusCode : Nat) (message : String) : Json :=
  .obj [("type", .str "error"), ("error", .obj [
    ("type", .str ((anthropic.errorTypeByStatus.lookup statusCode).getD "api_error")),
    ("message", .str message)])]

/-! ## Routes -/

inductive Route where
  | openai
  | anthropic
  deriving DecidableEq, Repr

namespace Route

def toInternal (py : PythonLibrary) (base : Dict) (allowed : List String) :
    Route → Json → Except PyError LoweredRequest
  | .openai => openai.openaiToInternal py base allowed
  | .anthropic => anthropic.anthropicToInternal py base allowed

/-- `_error_body_for_path` -/
def errorBody : Route → Nat → String → Json
  | .openai => openai.errorBody
  | .anthropic => anthropic.errorBody

end Route

structure Answer where
  statusCode : Nat
  body : Json

/-- The start of `_handle_openai_chat_completions` and `_handle_anthropic_messages` for a session
that the actor holds, with the exception handlers of the app: the request enters the session, or
it is answered. -/
def receive (C : MessageCodec) (py : PythonLibrary) (route : Route) (base : Dict)
    (allowed : List String) (sys : System) (payload : Json) : System × Option Answer :=
  let lowered : Except PyError LoweredRequest := do
    let internal ← route.toInternal py base allowed payload
    validateSamplingParams internal.samplingParams
    return internal
  match lowered with
  | .ok internal => (sys.beginRequest C internal.toRequest, none)
  | .error e =>
    if e.isMalformedRequest then (sys, some ⟨400, route.errorBody 400 e.str⟩)
    else (sys, some ⟨500, route.errorBody 500 "Internal server error"⟩)

/-- A body that is rejected is answered, and the session stays as it is. -/
theorem receive_of_rejected {C : MessageCodec} {py : PythonLibrary} {route : Route} {base : Dict}
    {allowed : List String} {payload : Json} {e : PyError}
    (h : route.toInternal py base allowed payload = .error e) (he : e.isMalformedRequest = true)
    (sys : System) : receive C py route base allowed sys payload =
      (sys, some ⟨400, route.errorBody 400 e.str⟩) := by
  unfold receive
  simp [h, he, bind, Except.bind]

end uni_agent
