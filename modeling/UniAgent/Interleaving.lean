-- A session with any number of requests in flight. Each action is one atomic step: a section
-- of `run_generation` under the request lock, the return of a backend call, a cancellation,
-- the release of a reservation, or a lifecycle call. Beside the session stand the backend
-- calls, the results, and a ledger of what happened to each committed generation.
import Mathlib.Logic.Function.Basic
import UniAgent.Runs
import UniAgent.SessionLifecycle

namespace uni_agent.session

/-! ## The ledger -/

/-- One backend call whose output was committed. -/
structure Generation where
  requestId : Nat
  contextIds : List Token
  output : TokenOutput

/-- What happened so far. `surviving` gives the generations that each chain still holds, in
order; `dropped` has one entry for each recorded rollback; `closed` names the chain of each
materialized trajectory; `touched` names the chain of each order number, from 1 on. -/
structure Ledger where
  commits : List Generation := []
  surviving : Nat → List Generation := fun _ => []
  dropped : List (List Generation) := []
  closed : List Nat := []
  touched : List Nat := []

namespace Ledger

/-- A rollback takes the last generation of a chain away. -/
def rollBack (l : Ledger) (chainId : Nat) : Ledger :=
  { l with
    surviving := Function.update l.surviving chainId (l.surviving chainId).dropLast
    dropped := l.dropped ++ [(l.surviving chainId).getLast?.toList] }

def commit (l : Ledger) (chainId : Nat) (rolledBack : Bool) (g : Generation) : Ledger :=
  let l := if rolledBack then l.rollBack chainId else l
  { l with
    commits := l.commits ++ [g]
    surviving := Function.update l.surviving chainId (l.surviving chainId ++ [g])
    touched := l.touched ++ [chainId] }

def close (l : Ledger) (chainId : Nat) (rolledBack : Bool) : Ledger :=
  let l := if rolledBack then l.rollBack chainId else l
  { l with closed := l.closed ++ [chainId], touched := l.touched ++ [chainId] }

/-- A chain that is deleted loses all that it held to one rollback. -/
def delete (l : Ledger) (chainId : Nat) : Ledger :=
  { l with
    surviving := Function.update l.surviving chainId []
    dropped := l.dropped ++ [l.surviving chainId] }

def closeAll (l : Ledger) (chainIds : List Nat) : Ledger :=
  { l with closed := l.closed ++ chainIds }

end Ledger

/-! ## The system -/

inductive Stage where
  | generating
  | generated (output : TokenOutput)
  | releasing (error : PyError)

/-- A request between its first section and its end. `preparedChain` is the chain it selected,
as it was then. -/
structure InFlight where
  requestId : Nat
  request : InternalGenerationRequest
  encoded : EncodedData
  preparedChain : Option ChainState
  stage : Stage

/-- One call of `backend.generate`. -/
structure BackendCall where
  requestId : Nat
  request : InternalGenerationRequest
  contextIds : List Token
  samplingParams : SamplingParams
  imageData : Option (List Media)
  videoData : Option (List Media)

set_option linter.dupNamespace false in
structure System where
  session : GatewaySession
  nextRequestId : Nat := 0
  inFlight : List InFlight := []
  calls : List BackendCall := []
  finished : List (Nat × Except PyError GenerationOutcome) := []
  ledger : Ledger := {}

inductive Action where
  /-- A request enters its first locked section and leaves it. -/
  | request (request : InternalGenerationRequest)
  /-- A request is cancelled before it is through its first section. -/
  | cancelEarly
  | backendReturns (requestId : Nat) (output : TokenOutput)
  | backendRaises (requestId : Nat) (error : PyError)
  /-- A request enters its second locked section and leaves it. -/
  | commit (requestId : Nat) (callIds : Nat → String)
  /-- A request is cancelled while it generates, waits for the lock, or decodes. -/
  | cancel (requestId : Nat)
  | release (requestId : Nat)
  | setRewardInfo (rewardInfo : Option Dict)
  | finalize
  | abort

namespace System

def initial (session : GatewaySession) : System := { session }

def find (sys : System) (requestId : Nat) : Option InFlight :=
  sys.inFlight.find? (fun f => f.requestId == requestId)

def update (sys : System) (f : InFlight) : System :=
  { sys with inFlight := sys.inFlight.map (fun g => if g.requestId = f.requestId then f else g) }

/-- The request leaves `run_generation` with a result. -/
def finish (sys : System) (requestId : Nat) (result : Except PyError GenerationOutcome) : System :=
  { sys with
    inFlight := sys.inFlight.filter (fun f => f.requestId != requestId)
    finished := sys.finished ++ [(requestId, result)] }

/-- The `finally` of `run_generation` after an error: with a reservation the request has
still to take the lock and release it. -/
def fail (sys : System) (f : InFlight) (error : PyError) : System :=
  match f.encoded.chainId with
  | none => sys.finish f.requestId (.error error)
  | some _ => sys.update { f with stage := .releasing error }

/-- The ledger after a closure, which deleted the chain when it materialized nothing. -/
def closureLedger (sys : System) (encoded : EncodedData) (s : GatewaySession) : Ledger :=
  match encoded.chainId with
  | none => sys.ledger
  | some chainId =>
    if s.materializedChains.length = sys.session.materializedChains.length then
      sys.ledger.delete chainId
    else sys.ledger.close chainId encoded.rollbackApplied

def beginRequest (C : MessageCodec) (sys : System) (request : InternalGenerationRequest) :
    System :=
  let requestId := sys.nextRequestId
  let next : System := { sys with nextRequestId := requestId + 1 }
  match sys.session.firstSection C request with
  | (.error e, s) => { next with session := s }.finish requestId (.error e)
  | (.ok (.exhausted encoded outcome), s) =>
    { next with session := s, ledger := sys.closureLedger encoded s }.finish requestId (.ok outcome)
  | (.ok (.generating encoded), s) =>
    let preparedChain := encoded.chainId.bind (fun chainId =>
      sys.session.activeChains.find? (fun chain => chain.chainId == chainId))
    { next with
      session := s
      inFlight := sys.inFlight ++ [⟨requestId, request, encoded, preparedChain, .generating⟩]
      calls := sys.calls ++ [⟨requestId, request, encoded.contextIds, encoded.samplingParams,
        encoded.imageData, encoded.videoData⟩] }

def commitRequest (C : MessageCodec) (sys : System) (f : InFlight) (output : TokenOutput)
    (callIds : Nat → String) : System :=
  match sys.session.secondSection C f.encoded output callIds with
  | (.error e, s) => { sys with session := s }.fail f e
  | (.ok outcome, s) =>
    let chainId := f.encoded.chainId.getD sys.session.nextChainId
    let generation : Generation := ⟨f.requestId, f.encoded.contextIds, output⟩
    { sys with
      session := s
      ledger := sys.ledger.commit chainId f.encoded.rollbackApplied generation }.finish
      f.requestId (.ok outcome)

/-- One action, when it is enabled. -/
def step (C : MessageCodec) (sys : System) : Action → Option System
  | .request request => some (sys.beginRequest C request)
  | .cancelEarly =>
    some ({ sys with nextRequestId := sys.nextRequestId + 1 }.finish sys.nextRequestId
      (.error .cancelledError))
  | .backendReturns requestId output =>
    match sys.find requestId with
    | some ⟨_, request, encoded, preparedChain, .generating⟩ =>
      match absorbOutput encoded output with
      | .error e => some (sys.fail ⟨requestId, request, encoded, preparedChain, .generating⟩ e)
      | .ok encoded =>
        some (sys.update ⟨requestId, request, encoded, preparedChain, .generated output⟩)
    | _ => none
  | .backendRaises requestId error =>
    match sys.find requestId with
    | some ⟨_, request, encoded, preparedChain, .generating⟩ =>
      some (sys.fail ⟨requestId, request, encoded, preparedChain, .generating⟩ (backendError error))
    | _ => none
  | .commit requestId callIds =>
    match sys.find requestId with
    | some ⟨_, request, encoded, preparedChain, .generated output⟩ =>
      some (sys.commitRequest C ⟨requestId, request, encoded, preparedChain, .generated output⟩
        output callIds)
    | _ => none
  | .cancel requestId =>
    match sys.find requestId with
    | some f =>
      match f.stage with
      | .releasing _ => none
      | _ => some (sys.fail f .cancelledError)
    | none => none
  | .release requestId =>
    match sys.find requestId with
    | some ⟨_, _, encoded, _, .releasing error⟩ =>
      match encoded.chainId with
      | some chainId =>
        some ({ sys with session := sys.session.releaseChainReservation chainId }.finish requestId
          (.error error))
      | none => none
    | _ => none
  | .setRewardInfo rewardInfo =>
    some { sys with session := (sys.session.setRewardInfo rewardInfo).2 }
  | .finalize =>
    match sys.session.finalize with
    | (.ok _, s) =>
      some { sys with
        session := s
        ledger := sys.ledger.closeAll (sys.session.activeChains.map ChainState.chainId) }
    | (.error _, s) => some { sys with session := s }
  | .abort => some { sys with session := sys.session.abort.2 }

end System

/-- A run of the system from a new session. -/
abbrev runFrom (C : MessageCodec) (session : GatewaySession) (actions : List Action) :
    Option System :=
  runs.run (System.step C) (System.initial session) actions

end uni_agent.session
