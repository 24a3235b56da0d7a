-- The gateway manager: which gateway each session is routed to, and how many sessions each
-- gateway has. A call is routed in one step, is carried out by an actor, and does its
-- bookkeeping in another step, and any number of calls are under way at once.
import Mathlib.Data.List.Basic
import UniAgent.Runs

namespace uni_agent.gateway

/-! ## Calls -/

inductive Operation where
  | create
  | finalize
  | abort
  deriving DecidableEq, Repr

/-- How far the actor is with a call. -/
inductive Remote where
  | sent
  /-- The actor awaits `session.finalize()` or `session.abort()`. -/
  | running
  | replied (ok : Bool)
  deriving DecidableEq, Repr

/-- One call of a method of the manager, from its first step on. `returned` says how it ended,
once it is over: with a value, or with an exception. -/
structure Call where
  operation : Operation
  sessionId : String
  gatewayIndex : Nat
  remote : Remote := .sent
  returned : Option Bool := none
  deriving Repr

/-- What a call is about, from its first step to its last. -/
def Call.place (call : Call) : Operation × String × Nat :=
  (call.operation, call.sessionId, call.gatewayIndex)

/-! ## The manager and its actors -/

/-- The manager, the session tables of its actors, and the calls so far in their order. -/
structure GatewayManager where
  activeSessionsPerGateway : List Int
  sessionToGatewayIndex : List (String × Nat)
  actors : List (List String)
  calls : List Call

/-- One atomic step. The calls are named by their position. -/
inductive Action where
  | createSession (sessionId : String)
  | finalizeSession (sessionId : String)
  | abortSession (sessionId : String)
  /-- The actor takes up a call. A new session may fail to be built. -/
  | start (i : Nat) (ok : Bool)
  /-- What the actor awaits in a call ends. -/
  | finish (i : Nat) (ok : Bool)
  /-- The reply of the actor reaches the manager. -/
  | reply (i : Nat)
  /-- The await of a call raises otherwise: its task is cancelled, or the actor is lost. The
  actor may still carry the call out. -/
  | interrupt (i : Nat)

namespace GatewayManager

/-- A manager with as many running gateways. -/
def running (gatewayCount : Nat) : GatewayManager where
  activeSessionsPerGateway := List.replicate gatewayCount 0
  sessionToGatewayIndex := []
  actors := List.replicate gatewayCount []
  calls := []

/-- `self._session_to_gateway_index.get(session_id)` -/
def route (m : GatewayManager) (sessionId : String) : Option Nat :=
  m.sessionToGatewayIndex.lookup sessionId

/-- `min(indices, key=active.__getitem__)`: the first of those with the least sessions. -/
def leastLoaded (active : List Int) : List Nat → Option Nat
  | [] => none
  | index :: rest =>
    match leastLoaded active rest with
    | none => some index
    | some best => if active.getD best 0 < active.getD index 0 then some best else some index

/-- `_select_gateway_index` -/
def selectGatewayIndex (m : GatewayManager) : Option Nat :=
  leastLoaded m.activeSessionsPerGateway (List.range m.activeSessionsPerGateway.length)

/-- `self._session_to_gateway_index.pop(session_id, None)` -/
def popRoute (routes : List (String × Nat)) (sessionId : String) : List (String × Nat) :=
  routes.filter (fun r => r.1 != sessionId)

/-- `self._session_to_gateway_index[session_id] = gateway_index`. Nothing reads the order of the
routes. -/
def setRoute (routes : List (String × Nat)) (sessionId : String) (gatewayIndex : Nat) :
    List (String × Nat) :=
  popRoute routes sessionId ++ [(sessionId, gatewayIndex)]

/-- `self.active_sessions_per_gateway[gateway_index] += change` -/
def addActive (active : List Int) (gatewayIndex : Nat) (change : Int) : List Int :=
  active.modify gatewayIndex (· + change)

/-- A session loses its route and its place in the counter. -/
def release (m : GatewayManager) (sessionId : String) (gatewayIndex : Nat) : GatewayManager :=
  { m with
    sessionToGatewayIndex := popRoute m.sessionToGatewayIndex sessionId
    activeSessionsPerGateway := addActive m.activeSessionsPerGateway gatewayIndex (-1) }

/-- The slot of a new session is taken before its remote call. -/
def reserve (m : GatewayManager) (sessionId : String) (gatewayIndex : Nat) : GatewayManager :=
  { m with
    sessionToGatewayIndex := setRoute m.sessionToGatewayIndex sessionId gatewayIndex
    activeSessionsPerGateway := addActive m.activeSessionsPerGateway gatewayIndex 1
    calls := m.calls ++ [⟨.create, sessionId, gatewayIndex, .sent, none⟩] }

/-- The first step of `create_session`. -/
def createSession (m : GatewayManager) (sessionId : String) : Option GatewayManager :=
  m.selectGatewayIndex.map (m.reserve sessionId)

/-- The first step of `finalize_session` and `abort_session`. For a session without a route it
raises `KeyError`, and that is all. -/
def routeCall (m : GatewayManager) (operation : Operation) (sessionId : String) : GatewayManager :=
  match m.route sessionId with
  | none => m
  | some gatewayIndex =>
    { m with calls := m.calls ++ [⟨operation, sessionId, gatewayIndex, .sent, none⟩] }

/-- The last step of a call. -/
def endCall (m : GatewayManager) (i : Nat) (call : Call) (ok : Bool) : GatewayManager :=
  let m := { m with calls := m.calls.set i { call with returned := some ok } }
  match call.operation, ok with
  | .create, true => m
  | .create, false => m.release call.sessionId call.gatewayIndex
  | _, true => m.release call.sessionId call.gatewayIndex
  | _, false => m

/-- An actor's table changes, and it is so far with the call. -/
def carryOut (m : GatewayManager) (i : Nat) (call : Call) (sessions : List String)
    (remote : Remote) : GatewayManager :=
  { m with
    actors := m.actors.set call.gatewayIndex sessions
    calls := m.calls.set i { call with remote } }

def sessionsOf (m : GatewayManager) (gatewayIndex : Nat) : List String :=
  m.actors.getD gatewayIndex []

/-- The actor takes up a call. A session that it holds is not created again. A session that it
does not hold cannot be finalized, and is as good as aborted. -/
def startCall (m : GatewayManager) (i : Nat) (call : Call) (ok : Bool) : GatewayManager :=
  let sessions := m.sessionsOf call.gatewayIndex
  let held := sessions.contains call.sessionId
  match call.operation with
  | .create =>
    if held || !ok then m.carryOut i call sessions (.replied false)
    else m.carryOut i call (sessions ++ [call.sessionId]) (.replied true)
  | .finalize => m.carryOut i call sessions (if held then .running else .replied false)
  | .abort => m.carryOut i call sessions (if held then .running else .replied true)

/-- `self._sessions.pop(session_id, None)`, unless `session.finalize()` or `session.abort()`
raised. -/
def finishCall (m : GatewayManager) (i : Nat) (call : Call) (ok : Bool) : GatewayManager :=
  let sessions := m.sessionsOf call.gatewayIndex
  m.carryOut i call (if ok then sessions.filter (· != call.sessionId) else sessions) (.replied ok)

/-- One action, when it is enabled. -/
def step (m : GatewayManager) : Action → Option GatewayManager
  | .createSession sessionId => m.createSession sessionId
  | .finalizeSession sessionId => some (m.routeCall .finalize sessionId)
  | .abortSession sessionId => some (m.routeCall .abort sessionId)
  | .start i ok =>
    match m.calls[i]? with
    | some call => if call.remote = .sent then some (m.startCall i call ok) else none
    | none => none
  | .finish i ok =>
    match m.calls[i]? with
    | some call => if call.remote = .running then some (m.finishCall i call ok) else none
    | none => none
  | .reply i =>
    match m.calls[i]? with
    | some call =>
      match call.returned, call.remote with
      | none, .replied ok => some (m.endCall i call ok)
      | _, _ => none
    | none => none
  | .interrupt i =>
    match m.calls[i]? with
    | some call => if call.returned = none then some (m.endCall i call false) else none
    | none => none

/-- How many sessions are routed to a gateway. -/
def routedTo (m : GatewayManager) (gatewayIndex : Nat) : Nat :=
  m.sessionToGatewayIndex.countP (fun r => r.2 == gatewayIndex)

end GatewayManager

end uni_agent.gateway
