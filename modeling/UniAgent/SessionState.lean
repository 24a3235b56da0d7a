-- The state of one gateway session, and the functions of `session.py` that read it: which
-- chain a request continues, and the inputs that are prepared for the backend.
import Mathlib.Data.List.MinMax
import Mathlib.Data.Prod.Lex
import UniAgent.Codec

namespace uni_agent.session

/-! ## The state -/

inductive SessionPhase where
  | active
  | finalized
  | aborted
  deriving DecidableEq, Repr

/-- `phase.value.lower()` -/
def SessionPhase.lower : SessionPhase → String
  | .active => "active"
  | .finalized => "finalized"
  | .aborted => "aborted"

/-- The rows of one expert-routing tensor: `rows` has one `layers` by `topk` table for each
token when `dim` is 3. -/
structure RoutedExperts where
  dim : Nat
  layers : Nat
  topk : Nat
  rows : List (List (List Nat))
  deriving DecidableEq

/-- One `(min_global_steps, max_global_steps)` mark. -/
abbrev VersionMark := Option Int × Option Int

structure TrajectoryBuffer where
  promptIds : List Token
  responseIds : List Token := []
  responseMask : List Nat := []
  responseLogprobs : List PyFloat := []
  routedExperts : Option RoutedExperts := none
  generationVersions : List VersionMark := []

structure LastAssistantStart where
  responseIdsLen : Nat
  messageHistoryLen : Nat
  imageDataLen : Nat
  videoDataLen : Nat
  tipHash : String

structure ChainState where
  chainId : Nat
  messageHistory : List Message
  messageTipHash : String
  activeToolSchemas : Option (List Json)
  buffer : TrajectoryBuffer
  imageData : Option (List Media)
  videoData : Option (List Media)
  lastAssistantStart : LastAssistantStart
  updatedSeq : Nat

/-- The keys that the session puts into `extra_fields`. -/
structure TrajectoryExtraFields where
  versionSpan : Option (Int × Option Int) := none
  materializationReason : Option String := none
  deriving DecidableEq

structure Trajectory where
  promptIds : List Token
  responseIds : List Token
  responseMask : List Nat
  responseLogprobs : Option (List PyFloat)
  rewardInfo : Dict
  numTurns : Nat
  routedExperts : Option RoutedExperts
  multiModalData : Option MediaLists
  extraFields : TrajectoryExtraFields

structure MaterializedChain where
  trajectory : Trajectory
  orderSeq : Nat

/-- Sampling parameters: the two keys that the session reads, and the others. -/
structure SamplingParams where
  maxTokens : Option Int := none
  logprobs : Bool := false
  others : Dict := []

structure InternalGenerationRequest where
  messages : List Message
  tools : Option (List Json) := none
  samplingParams : SamplingParams := {}

structure EncodedData where
  buffer : TrajectoryBuffer
  contextIds : List Token
  samplingParams : SamplingParams
  messages : List Message
  tools : Option (List Json)
  imageData : Option (List Media)
  videoData : Option (List Media)
  capacityExhausted : Bool
  chainId : Option Nat
  incomingMessagePrefixHashes : List String
  lastAssistantStart : Option LastAssistantStart := none
  rollbackApplied : Bool := false
  rollbackDroppedTrainableTokens : Nat := 0

structure GenerationOutcome where
  assistantMsg : Message
  finishReason : String
  promptTokens : Nat
  completionTokens : Nat

/-- What the backend returns for one call. -/
structure TokenOutput where
  tokenIds : List Token
  logProbs : Option (List PyFloat) := none
  stopReason : Option String := none
  minGlobalSteps : Option Int := none
  maxGlobalSteps : Option Int := none
  routedExperts : Option RoutedExperts := none

/-- `GatewaySession`, less its timestamps. `reserved_chain_ids` is a list without order. -/
structure GatewaySession where
  sessionId : String
  trajectoryCapacity : Option Nat
  enableLastAssistantRollback : Bool
  activeChains : List ChainState := []
  materializedChains : List MaterializedChain := []
  reservedChainIds : List Nat := []
  nextChainId : Nat := 1
  orderSeq : Nat := 0
  rollbackCount : Nat := 0
  rollbackDroppedTrainableTokensTotal : Nat := 0
  rewardInfo : Dict := []
  phase : SessionPhase := .active

/-- `GatewaySession.__init__` -/
def GatewaySession.create (sessionId : String) (promptLength responseLength : Option Int)
    (enableLastAssistantRollback : Bool) : Except PyError GatewaySession := do
  if let some n := promptLength then
    if n ≤ 0 then
      throw (.valueError s!"prompt_length must be positive when set, got {n}")
  if let some n := responseLength then
    if n ≤ 0 then
      throw (.valueError s!"response_length must be positive when set, got {n}")
  let trajectoryCapacity := match promptLength, responseLength with
    | some p, some r => some (p + r).toNat
    | _, _ => none
  return { sessionId, trajectoryCapacity, enableLastAssistantRollback }

/-! ## Chain selection -/

/-- Python's `==` on two values of `tools`. -/
def toolsEq : Option (List Json) → Option (List Json) → Bool
  | none, none => true
  | some xs, some ys => Json.pyEqList xs ys
  | _, _ => false

/-- `xs[i]` with Python's negative indices. -/
def pyIndex {α : Type} (xs : List α) (i : Int) : Option α :=
  if i < 0 then xs[(xs.length + i).toNat]? else xs[i.toNat]?

def isChainPrefixHashMatch (chain : ChainState) (hashes : List String) : Bool :=
  let historyLen := chain.messageHistory.length
  if historyLen > hashes.length then false
  else if historyLen = 0 then true
  else some chain.messageTipHash == hashes[historyLen - 1]?

/-- The checks of the loop in `_select_chain` that a chain must pass to be a candidate. -/
def GatewaySession.isEligible (s : GatewaySession) (tools : Option (List Json))
    (hashes : List String) (chain : ChainState) : Bool :=
  let start := chain.lastAssistantStart
  !s.reservedChainIds.contains chain.chainId && toolsEq chain.activeToolSchemas tools &&
    start.messageHistoryLen < hashes.length &&
    pyIndex hashes ((start.messageHistoryLen : Int) - 1) == some start.tipHash

/-- A ranked candidate: the chain, its depth, and whether its whole history matches. -/
structure Candidate where
  chain : ChainState
  depth : Int
  exact : Bool

/-- The locals of the loop in `_select_chain`. -/
structure SelectionLocals where
  rankedCandidates : List Candidate := []
  deepestRollbackCandidates : List ChainState := []
  deepestRollbackServiceValue : Int := -1

/-- One turn of the loop in `_select_chain`. -/
def GatewaySession.considerChain (s : GatewaySession) (tools : Option (List Json))
    (hashes : List String) (l : SelectionLocals) (chain : ChainState) : SelectionLocals :=
  if !s.isEligible tools hashes chain then l
  else if isChainPrefixHashMatch chain hashes then
    { l with rankedCandidates :=
        l.rankedCandidates ++ [⟨chain, chain.messageHistory.length, true⟩] }
  else if s.enableLastAssistantRollback then
    let startLen : Int := chain.lastAssistantStart.messageHistoryLen
    if startLen > l.deepestRollbackServiceValue then
      { l with deepestRollbackCandidates := [chain], deepestRollbackServiceValue := startLen }
    else if startLen = l.deepestRollbackServiceValue then
      { l with deepestRollbackCandidates := l.deepestRollbackCandidates ++ [chain] }
    else l
  else l

/-- The key of the final `max` in `_select_chain`: a tuple, in lexicographic order. -/
def CandidateKey : Type := Int ×ₗ Bool ×ₗ Nat ×ₗ Nat

instance : LinearOrder CandidateKey := inferInstanceAs (LinearOrder (Int ×ₗ Bool ×ₗ Nat ×ₗ Nat))

def Candidate.rank (c : Candidate) : CandidateKey :=
  toLex (c.depth, toLex (c.exact, toLex (c.chain.updatedSeq, c.chain.chainId)))

/-- What `_select_chain` does after its loop. -/
def SelectionLocals.pick (l : SelectionLocals) : Option (ChainState × Bool) :=
  let best (candidates : List Candidate) : Option (ChainState × Bool) :=
    (candidates.argmax Candidate.rank).map (fun c => (c.chain, !c.exact))
  match l.deepestRollbackCandidates with
  | [chain] => best (l.rankedCandidates ++ [⟨chain, l.deepestRollbackServiceValue, false⟩])
  | [] => best l.rankedCandidates
  | _ =>
    if l.deepestRollbackServiceValue > (l.rankedCandidates.map Candidate.depth).foldl max (-1) then
      none
    else best l.rankedCandidates

/-- `_select_chain`: the chain, and whether its last assistant is to be rolled back. -/
def GatewaySession.selectChain (s : GatewaySession) (tools : Option (List Json))
    (hashes : List String) : Option (ChainState × Bool) :=
  (s.activeChains.foldl (s.considerChain tools hashes) {}).pick

/-! ## Preparation -/

/-- Where Python's `xs[i:]` starts in a list of length `n`. -/
def sliceStart (n : Nat) (i : Int) : Nat := if i < 0 then (n + i).toNat else min i.toNat n

/-- `xs[i:]` -/
def sliceFrom {α : Type} (xs : List α) (i : Int) : List α := xs.drop (sliceStart xs.length i)

/-- What `del xs[i:]` leaves of `xs`. -/
def delFrom {α : Type} (xs : List α) (i : Int) : List α := xs.take (sliceStart xs.length i)

/-- `self._trajectory_capacity is not None and length >= self._trajectory_capacity` -/
def capacityReached (capacity : Option Nat) (length : Nat) : Bool :=
  match capacity with
  | none => false
  | some c => c ≤ length

def alignmentMessage : String := "response_logprobs must be empty or aligned with response_ids"

def assertResponseLogprobAlignment (buffer : TrajectoryBuffer) : Except PyError Unit :=
  pyAssert (buffer.responseLogprobs.length == 0 ||
    buffer.responseLogprobs.length == buffer.responseIds.length) alignmentMessage

/-- `media[:n] or None`, after the check that the stored length is there. -/
def truncateMedia (media : Option (List Media)) (n : Nat) : Except PyError (Option (List Media)) :=
  match media with
  | none => .ok none
  | some items => do
    pyAssert (n ≤ items.length) ""
    let kept := items.take n
    return if kept.isEmpty then none else some kept

/-- New media go to the end; no new media leave the list as it is. -/
def extendMedia (media : Option (List Media)) : Option (List Media) → Option (List Media)
  | none => media
  | some [] => media
  | some new => some (media.getD [] ++ new)

/-- The locals of `_prepare_generation_inputs` from which `EncodedData` is built. -/
structure WorkingInputs where
  buffer : TrajectoryBuffer
  imageData : Option (List Media)
  videoData : Option (List Media)
  chainId : Option Nat
  capacityExhausted : Bool := false
  rollbackApplied : Bool := false
  rollbackDroppedTrainableTokens : Nat := 0

/-- The branch without a selected chain. -/
def freshInputs (C : MessageCodec) (capacity : Option Nat) (messages : List Message)
    (tools : Option (List Json)) : Except PyError WorkingInputs := do
  let (imageData, videoData) ← C.extractMultiModalData messages
  let promptIds ← C.encodeFull messages tools imageData videoData
  return {
    buffer := { promptIds }
    imageData, videoData
    chainId := none
    capacityExhausted := capacityReached capacity promptIds.length }

/-- The copy of a chain's buffer without its last assistant and without the assistant prefix
in front of it. -/
def rollbackBuffer (C : MessageCodec) (chain : ChainState) : Except PyError TrajectoryBuffer := do
  let buffer := chain.buffer
  let responseLen := chain.lastAssistantStart.responseIdsLen
  let responseIds := buffer.responseIds.take responseLen
  let responseMask := buffer.responseMask.take responseLen
  let responseLogprobs := buffer.responseLogprobs.take responseLen
  let storedIds := if responseLen = 0 then buffer.promptIds else responseIds
  let prefixStart : Int := storedIds.length - C.assistantPrefix.length
  if sliceFrom storedIds prefixStart ≠ C.assistantPrefix then
    throw (.valueError "Stored trajectory does not end with the assistant prefix")
  let truncated : TrajectoryBuffer :=
    if responseLen = 0 then
      { buffer with
        promptIds := delFrom storedIds prefixStart
        responseIds, responseMask, responseLogprobs
        generationVersions := buffer.generationVersions.dropLast }
    else
      { buffer with
        responseIds := delFrom storedIds prefixStart
        responseMask := delFrom responseMask prefixStart
        responseLogprobs := delFrom responseLogprobs prefixStart
        generationVersions := buffer.generationVersions.dropLast }
  assertResponseLogprobAlignment truncated
  return truncated

/-- The working copy of a selected chain, before new messages are encoded. -/
def reusedInputs (C : MessageCodec) (chain : ChainState) (rollback : Bool) :
    Except PyError WorkingInputs := do
  assertResponseLogprobAlignment chain.buffer
  if rollback then
    let start := chain.lastAssistantStart
    pyAssert (start.responseIdsLen ≤ chain.buffer.responseIds.length) ""
    let imageData ← truncateMedia chain.imageData start.imageDataLen
    let videoData ← truncateMedia chain.videoData start.videoDataLen
    let buffer ← rollbackBuffer C chain
    return {
      buffer, imageData, videoData
      chainId := some chain.chainId
      rollbackApplied := true
      rollbackDroppedTrainableTokens := (chain.buffer.responseMask.drop start.responseIdsLen).sum }
  else
    return {
      buffer := chain.buffer
      imageData := chain.imageData
      videoData := chain.videoData
      chainId := some chain.chainId }

/-- How many messages of a request a selected chain stands for. -/
def reusedHistoryLen (chain : ChainState) (rollback : Bool) : Nat :=
  if rollback then chain.lastAssistantStart.messageHistoryLen else chain.messageHistory.length

/-- The new messages, encoded when the working copy has room for them. -/
def encodeSuffix (C : MessageCodec) (capacity : Option Nat) (suffix : List Message)
    (currentLength : Nat) : Except PyError (Bool × List Token × MediaLists) :=
  if suffix.isEmpty || capacityReached capacity currentLength then
    .ok (capacityReached capacity currentLength, [], none, none)
  else do
    let (newImageData, newVideoData) ← C.extractMultiModalData suffix
    let incrementalIds ← C.encodeIncremental suffix newImageData newVideoData
    return (capacityReached capacity (currentLength + incrementalIds.length), incrementalIds,
      newImageData, newVideoData)

/-- Context tokens put at the end of a buffer. -/
def appendContext (logprobs : Bool) (buffer : TrajectoryBuffer) (ids : List Token) :
    TrajectoryBuffer :=
  { buffer with
    responseIds := buffer.responseIds ++ ids
    responseMask := buffer.responseMask ++ List.replicate ids.length 0
    responseLogprobs :=
      if logprobs then buffer.responseLogprobs ++ List.replicate ids.length 0
      else buffer.responseLogprobs }

/-- The branch with a selected chain. -/
def continuedInputs (C : MessageCodec) (capacity : Option Nat)
    (request : InternalGenerationRequest) (chain : ChainState) (rollback : Bool) :
    Except PyError WorkingInputs := do
  let working ← reusedInputs C chain rollback
  let suffix := request.messages.drop (reusedHistoryLen chain rollback)
  let currentLength := working.buffer.promptIds.length + working.buffer.responseIds.length
  let (exhausted, ids, newImageData, newVideoData) ← encodeSuffix C capacity suffix currentLength
  if exhausted then
    return { working with capacityExhausted := true }
  let buffer := appendContext request.samplingParams.logprobs working.buffer ids
  assertResponseLogprobAlignment buffer
  return { working with
    buffer
    imageData := extendMedia working.imageData newImageData
    videoData := extendMedia working.videoData newVideoData }

def snapshotLastAssistantStart (buffer : TrajectoryBuffer) (messageHistoryLen : Nat)
    (imageData videoData : Option (List Media)) (tipHash : String) : LastAssistantStart :=
  { responseIdsLen := buffer.responseIds.length
    messageHistoryLen
    imageDataLen := (imageData.getD []).length
    videoDataLen := (videoData.getD []).length
    tipHash }

/-- `max_tokens`, cut down to the capacity that is left. -/
def clampMaxTokens (capacity : Option Nat) (contextLength : Nat) (params : SamplingParams) :
    SamplingParams :=
  match capacity with
  | none => params
  | some c =>
    let remaining : Int := c - contextLength
    { params with maxTokens := some (min (params.maxTokens.getD remaining) remaining) }

/-- The end of `_prepare_generation_inputs`, where both branches meet. -/
def finishPreparation (capacity : Option Nat) (request : InternalGenerationRequest)
    (hashes : List String) (working : WorkingInputs) : Except PyError EncodedData :=
  let contextIds := working.buffer.promptIds ++ working.buffer.responseIds
  let encoded : EncodedData :=
    { buffer := working.buffer
      contextIds
      samplingParams := {}
      messages := request.messages
      tools := request.tools
      imageData := working.imageData
      videoData := working.videoData
      capacityExhausted := true
      chainId := working.chainId
      incomingMessagePrefixHashes := hashes
      rollbackApplied := working.rollbackApplied
      rollbackDroppedTrainableTokens := working.rollbackDroppedTrainableTokens }
  if working.capacityExhausted then .ok encoded
  else
    match hashes.getLast? with
    | none => .error (.indexError "list index out of range")
    | some tipHash =>
      .ok { encoded with
        samplingParams := clampMaxTokens capacity contextIds.length request.samplingParams
        capacityExhausted := false
        lastAssistantStart := some (snapshotLastAssistantStart working.buffer
          request.messages.length working.imageData working.videoData tipHash) }

/-- `_prepare_generation_inputs` -/
def GatewaySession.prepareGenerationInputs (C : MessageCodec) (s : GatewaySession)
    (request : InternalGenerationRequest) : Except PyError EncodedData := do
  let hashes := C.extendMessagePrefixHashes [] request.messages
  let working ← match s.selectChain request.tools hashes with
    | none => freshInputs C s.trajectoryCapacity request.messages request.tools
    | some (chain, rollback) =>
      continuedInputs C s.trajectoryCapacity request chain rollback
  finishPreparation s.trajectoryCapacity request hashes working

end uni_agent.session
