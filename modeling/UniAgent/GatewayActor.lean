-- The gateway actor: the sessions that it holds under their ids, and the calls of its routes and
-- methods. A call reads the table of sessions in one step and has the lock of its session in
-- another one, so that any number of calls of any number of sessions are under way at once.
import Mathlib.Logic.Function.Basic
import UniAgent.BatchRollouts

namespace uni_agent.gateway

open session (GatewaySession GenerationOutcome InternalGenerationRequest System TokenOutput
  Trajectory)

/-! ## Bodies and replies -/

/-- A body as the session reads it: lowered by its route, with its sampling parameters checked. -/
def lowerPayload (py : PythonLibrary) (route : Route) (base : Dict) (allowed : List String)
    (payload : Json) : Except PyError InternalGenerationRequest := do
  let internal ← route.toInternal py base allowed payload
  validateSamplingParams internal.samplingParams
  return internal.toRequest

/-- How the reply to a request is built. -/
structure ReplyForm where
  route : Route
  model : String
  stream : Bool

def fieldsOf : Json → Dict
  | .obj fields => fields
  | _ => []

/-- `payload.get("model") or "unknown"` as a text, and `payload.get("stream") is True`. -/
def replyForm (py : PythonLibrary) (route : Route) (payload : Json) : ReplyForm :=
  let fields := fieldsOf payload
  { route
    model := match fields.get? "model" with
      | some model => if model.truthy then py.str model else "unknown"
      | none => "unknown"
    stream := match fields.get? "stream" with
      | some (.bool stream) => stream
      | _ => false }

structure SessionHandle where
  sessionId : String
  baseUrl : String
  rewardInfoUrl : String

/-- What a call of the actor ends with. A stream is given by the bodies of its events. -/
inductive Reply where
  | answer (answer : Answer)
  | stream (events : List Dict)
  | handle (handle : SessionHandle)
  | trajectories (trajectories : List Trajectory)
  | done
  | raised (error : PyError)

/-- The handlers of the app for what a route raises. A cancelled request is not answered. -/
def errorReply (route : Route) : PyError → Reply
  | .httpException statusCode detail => .answer ⟨statusCode, route.errorBody statusCode detail⟩
  | .cancelledError => .raised .cancelledError
  | e =>
    if e.isMalformedRequest then .answer ⟨400, route.errorBody 400 e.str⟩
    else .answer ⟨500, route.errorBody 500 "Internal server error"⟩

/-- What `__init__` stores, and the library. -/
structure ActorSettings where
  codec : MessageCodec
  py : PythonLibrary
  dumps : Json → String
  allowedRequestSamplingParamKeys : List String :=
    ["temperature", "top_p", "top_k", "max_tokens", "stop"]
  promptLength : Option Int := none
  responseLength : Option Int := none
  enableLastAssistantRollback : Bool := true

/-- The reply to a generation that came to its end, with the random id and the time of it. -/
def buildReply (cfg : ActorSettings) (id : String) (created : Int) (form : ReplyForm)
    (outcome : GenerationOutcome) : Except PyError Reply := do
  match form.route with
  | .openai =>
    if form.stream then
      return .stream (openai.openaiStreamResponse ⟨id, created, form.model⟩ outcome)
    return .answer ⟨200, .obj (openai.openaiBuildResponse ⟨id, created, form.model⟩ outcome)⟩
  | .anthropic =>
    if form.stream then
      return .stream (← anthropic.anthropicStreamResponse cfg.py cfg.dumps id form.model outcome)
    return .answer ⟨200, .obj (← anthropic.anthropicBuildResponse cfg.py id form.model outcome)⟩

def generationReply (cfg : ActorSettings) (id : String) (created : Int) (form : ReplyForm)
    (result : Except PyError GenerationOutcome) : Reply :=
  match result.bind (buildReply cfg id created form) with
  | .ok reply => reply
  | .error e => errorReply form.route e

/-! ## The actor -/

/-- A call, and the session id that it is for. -/
structure CallName where
  sessionId : String
  number : Nat
  deriving DecidableEq, Repr

/-- A `GatewaySession`, the defaults that it was built with, and the requests in it. -/
structure SessionObject where
  samplingParams : Dict
  system : System

/-- What a call does under the lock of its session. -/
inductive Work where
  | generate (request : InternalGenerationRequest) (form : ReplyForm)
  | setRewardInfo (rewardInfo : Option Dict)
  | finalize
  | abort

/-- How far a call is: it waits for the lock of the session object that it looked up, its request
is past the first section of `run_generation`, or it is over. -/
inductive CallState where
  | waiting (object : CallName) (work : Work)
  | serving (object : CallName) (requestId : Nat) (form : ReplyForm)
  | answered (reply : Reply)

/-- A method that looks its session up, and then takes its lock. -/
inductive Method where
  | setRewardInfo (rewardInfo : Option Dict)
  | finalizeSession
  | abortSession

/-- A later step of a request that is being served. -/
inductive Progress where
  | backendReturns (output : TokenOutput)
  | backendRaises (error : PyError)
  | commit (callIds : Nat → String)
  | cancel
  | release

inductive ActorAction where
  | start (serverBaseUrl : String)
  | shutdown
  | createSession (name : CallName) (samplingParams : Option Dict)
  /-- A request for a generation. A body that is no JSON is `none`. -/
  | post (name : CallName) (route : Route) (payload : Option Json)
  | callMethod (name : CallName) (method : Method)
  /-- A call that waits has the lock. -/
  | enter (name : CallName)
  /-- A call that waits is cancelled. -/
  | giveUp (name : CallName)
  | proceed (name : CallName) (progress : Progress)
  | respond (name : CallName) (id : String) (created : Int)

/-- The session id that an action is for. -/
def ActorAction.sessionId? : ActorAction → Option String
  | .start _ | .shutdown => none
  | .createSession name _ | .post name _ _ | .callMethod name _ | .enter name | .giveUp name
  | .proceed name _ | .respond name _ _ => some name.sessionId

/-- The table of sessions, the session objects under the calls that built them, and the calls. -/
structure GatewayActor where
  serverBaseUrl : Option String := none
  sessions : String → Option CallName := fun _ => none
  objects : CallName → Option SessionObject := fun _ => none
  calls : CallName → Option CallState := fun _ => none

def Progress.action (requestId : Nat) : Progress → session.Action
  | .backendReturns output => .backendReturns requestId output
  | .backendRaises error => .backendRaises requestId error
  | .commit callIds => .commit requestId callIds
  | .cancel => .cancel requestId
  | .release => .release requestId

/-- What the work of a call does to its session. -/
def Work.action : Work → session.Action
  | .generate request _ => .request request
  | .setRewardInfo rewardInfo => .setRewardInfo rewardInfo
  | .finalize => .finalize
  | .abort => .abort

/-- A request that is cancelled before it has the lock is known to its session. -/
def Work.cancelled : Work → List session.Action
  | .generate _ _ => [.cancelEarly]
  | _ => []

def Method.work : Method → Work
  | .setRewardInfo rewardInfo => .setRewardInfo rewardInfo
  | .finalizeSession => .finalize
  | .abortSession => .abort

namespace GatewayActor

def setCall (m : GatewayActor) (name : CallName) (call : CallState) : GatewayActor :=
  { m with calls := Function.update m.calls name (some call) }

/-- The call is over. -/
def reply (m : GatewayActor) (name : CallName) (reply : Reply) : GatewayActor :=
  m.setCall name (.answered reply)

def setObject (m : GatewayActor) (object : CallName) (o : SessionObject) : GatewayActor :=
  { m with objects := Function.update m.objects object (some o) }

/-- `self._sessions[session_id] = GatewaySession(...)` -/
def register (m : GatewayActor) (name : CallName) (o : SessionObject) : GatewayActor :=
  { m.setObject name o with
    sessions := Function.update m.sessions name.sessionId (some name) }

/-- `self._sessions.pop(session_id, None)` -/
def pop (m : GatewayActor) (sessionId : String) : GatewayActor :=
  { m with sessions := Function.update m.sessions sessionId none }

/-- `self._sessions.get(session_id)` -/
def get (m : GatewayActor) (sessionId : String) : Option (CallName × SessionObject) :=
  (m.sessions sessionId).bind (fun object => (m.objects object).map (fun o => (object, o)))

def unknownSession (sessionId : String) : String := "Unknown session_id: " ++ sessionId

/-- `create_session` -/
def createSession (cfg : ActorSettings) (m : GatewayActor) (name : CallName)
    (samplingParams : Option Dict) : GatewayActor :=
  match m.serverBaseUrl with
  | none => m.reply name (.raised (.runtimeError
      "GatewayActor.start() must be called before session creation"))
  | some url =>
    match m.sessions name.sessionId with
    | some _ => m.reply name (.raised (.runtimeError
        ("Session " ++ name.sessionId ++ " already exists")))
    | none =>
      match GatewaySession.create name.sessionId cfg.promptLength cfg.responseLength
          cfg.enableLastAssistantRollback with
      | .error e => m.reply name (.raised e)
      | .ok session =>
        let m := m.register name ⟨samplingParams.getD [], System.initial session⟩
        m.reply name (.handle {
          sessionId := name.sessionId
          baseUrl := url ++ "/sessions/" ++ name.sessionId ++ "/v1"
          rewardInfoUrl := url ++ "/sessions/" ++ name.sessionId ++ "/reward_info" })

/-- `_handle_openai_chat_completions` and `_handle_anthropic_messages`, up to the lock. -/
def post (cfg : ActorSettings) (m : GatewayActor) (name : CallName) (route : Route) :
    Option Json → GatewayActor
  | none => m.reply name (.answer ⟨400, route.errorBody 400 "Invalid JSON body"⟩)
  | some payload =>
    match m.get name.sessionId with
    | none =>
      m.reply name (.answer ⟨404, route.errorBody 404 (unknownSession name.sessionId)⟩)
    | some (object, o) =>
      match lowerPayload cfg.py route o.samplingParams cfg.allowedRequestSamplingParamKeys
          payload with
      | .error e => m.reply name (errorReply route e)
      | .ok request =>
        m.setCall name (.waiting object (.generate request (replyForm cfg.py route payload)))

/-- `set_reward_info`, `finalize_session` and `abort_session`, up to the lock. A session that is
gone is as good as aborted. -/
def callMethod (cfg : ActorSettings) (m : GatewayActor) (name : CallName) (method : Method) :
    GatewayActor :=
  match m.get name.sessionId, method with
  | none, .abortSession => m.reply name .done
  | none, _ => m.reply name (.raised (.otherException "KeyError"
      (cfg.py.repr (.str (unknownSession name.sessionId)))))
  | some (object, _), method => m.setCall name (.waiting object method.work)

/-- What a call is after its section under the lock. The table is read and changed before another
step is taken. -/
def afterSection (m : GatewayActor) (name object : CallName) (before : System) :
    Work → GatewayActor
  | .generate _ form => m.setCall name (.serving object before.nextRequestId form)
  | .setRewardInfo rewardInfo =>
    match (before.session.setRewardInfo rewardInfo).1 with
    | .ok () => m.reply name .done
    | .error e => m.reply name (.raised e)
  | .finalize =>
    match before.session.finalize.1 with
    | .ok trajectories => (m.pop name.sessionId).reply name (.trajectories trajectories)
    | .error e => m.reply name (.raised e)
  | .abort =>
    match before.session.abort.1 with
    | .ok () => (m.pop name.sessionId).reply name .done
    | .error e => m.reply name (.raised e)

/-- A step of the session object. -/
def stepObject (cfg : ActorSettings) (m : GatewayActor) (object : CallName) (o : SessionObject)
    (a : session.Action) : Option GatewayActor :=
  (System.step cfg.codec o.system a).map (fun system => m.setObject object { o with system })

def enter (cfg : ActorSettings) (m : GatewayActor) (name object : CallName) (work : Work) :
    Option GatewayActor := do
  let o ← m.objects object
  let m ← m.stepObject cfg object o work.action
  return m.afterSection name object o.system work

def giveUp (cfg : ActorSettings) (m : GatewayActor) (name object : CallName) (work : Work) :
    Option GatewayActor := do
  let o ← m.objects object
  let m ← match work with
    | .generate _ _ => m.stepObject cfg object o .cancelEarly
    | _ => some m
  return m.reply name (.raised .cancelledError)

def proceed (cfg : ActorSettings) (m : GatewayActor) (object : CallName) (requestId : Nat)
    (progress : Progress) : Option GatewayActor := do
  let o ← m.objects object
  m.stepObject cfg object o (progress.action requestId)

def respond (cfg : ActorSettings) (m : GatewayActor) (name object : CallName) (requestId : Nat)
    (form : ReplyForm) (id : String) (created : Int) : Option GatewayActor := do
  let o ← m.objects object
  let result ← o.system.finished.lookup requestId
  return m.reply name (generationReply cfg id created form result)

/-- A call begins under a name of its own. -/
def begin (m : GatewayActor) (name : CallName) (next : GatewayActor) : Option GatewayActor :=
  match m.calls name with
  | none => some next
  | some _ => none

/-- One action, when it is enabled. -/
def step (cfg : ActorSettings) (m : GatewayActor) : ActorAction → Option GatewayActor
  | .start serverBaseUrl =>
    some { m with serverBaseUrl := some (m.serverBaseUrl.getD serverBaseUrl) }
  | .shutdown => some { m with serverBaseUrl := none }
  | .createSession name samplingParams => m.begin name (m.createSession cfg name samplingParams)
  | .post name route payload => m.begin name (m.post cfg name route payload)
  | .callMethod name method => m.begin name (m.callMethod cfg name method)
  | .enter name =>
    match m.calls name with
    | some (.waiting object work) => m.enter cfg name object work
    | _ => none
  | .giveUp name =>
    match m.calls name with
    | some (.waiting object work) => m.giveUp cfg name object work
    | _ => none
  | .proceed name progress =>
    match m.calls name with
    | some (.serving object requestId _) => m.proceed cfg object requestId progress
    | _ => none
  | .respond name id created =>
    match m.calls name with
    | some (.serving object requestId form) => m.respond cfg name object requestId form id created
    | _ => none

end GatewayActor

/-- A run of an actor that is not started yet. -/
abbrev actorRun (cfg : ActorSettings) (actions : List ActorAction) : Option GatewayActor :=
  runs.run (GatewayActor.step cfg) {} actions

end uni_agent.gateway
