-- The functions of `session.py` that change a session: commit, length closure, finalize and
-- abort, and the two locked sections of `run_generation`. Each gives its result next to the
-- state that it leaves, also when it raises.
import Mathlib.Data.List.Sort
import UniAgent.SessionState

namespace uni_agent.session

/-! ## Trajectories -/

def countChatTurns (history : List Message) : Nat :=
  (history.filter (fun m => m.role == "user" || m.role == "assistant")).length + 1

def buildMultiModalTrajectoryData (imageData videoData : Option (List Media)) :
    Option MediaLists :=
  let present (media : Option (List Media)) := media.filter (fun items => !items.isEmpty)
  match present imageData, present videoData with
  | none, none => none
  | images, videos => some (images, videos)

def minOf (first : Int) (rest : List Int) : Int := rest.foldl min first

/-- `max` over the second entries of the marks. Python cannot compare `None`. -/
def maxOf (first : Option Int) (rest : List (Option Int)) : Except PyError (Option Int) :=
  rest.foldlM (fun best x =>
    match best, x with
    | some b, some y => .ok (some (max b y))
    | _, _ => .error (.typeError "'>' not supported between instances of 'int' and 'NoneType'"))
    first

/-- The span over the marks whose first entry is there, if there is one. -/
def versionSpanOf (marks : List VersionMark) : Except PyError (Option (Int × Option Int)) :=
  match marks.filterMap (fun mark => mark.1.map (fun low => (low, mark.2))) with
  | [] => .ok none
  | first :: rest => do
    let high ← maxOf first.2 (rest.map Prod.snd)
    return some (minOf first.1 (rest.map Prod.fst), high)

/-- `_build_materialized_trajectory` -/
def buildMaterializedTrajectory (chain : ChainState) (materializationReason : Option String) :
    Except PyError Trajectory := do
  assertResponseLogprobAlignment chain.buffer
  let versionSpan ← versionSpanOf chain.buffer.generationVersions
  return {
    promptIds := chain.buffer.promptIds
    responseIds := chain.buffer.responseIds
    responseMask := chain.buffer.responseMask
    responseLogprobs :=
      if chain.buffer.responseLogprobs.isEmpty then none else some chain.buffer.responseLogprobs
    rewardInfo := []
    numTurns := countChatTurns chain.messageHistory
    routedExperts := chain.buffer.routedExperts
    multiModalData := buildMultiModalTrajectoryData chain.imageData chain.videoData
    extraFields := { versionSpan, materializationReason } }

/-! ## Commit and length closure -/

namespace GatewaySession

def recordRollbackStats (s : GatewaySession) (encoded : EncodedData) : GatewaySession :=
  if !encoded.rollbackApplied then s
  else
    { s with
      rollbackCount := s.rollbackCount + 1
      rollbackDroppedTrainableTokensTotal :=
        s.rollbackDroppedTrainableTokensTotal + encoded.rollbackDroppedTrainableTokens }

/-- `_find_active_chain`: the first chain with the id, and its place. -/
def findActiveChain (s : GatewaySession) (chainId : Nat) : Except PyError (Nat × ChainState) :=
  match s.activeChains.zipIdx.find? (fun entry => entry.1.chainId == chainId) with
  | some (chain, index) => .ok (index, chain)
  | none => .error (.runtimeError s!"active chain {chainId} not found")

/-- The chain that a commit stores. -/
def committedChain (C : MessageCodec) (encoded : EncodedData) (assistantMsg : Message)
    (start : LastAssistantStart) (chainId orderSeq : Nat) : ChainState :=
  { chainId
    messageHistory := encoded.messages ++ [assistantMsg]
    messageTipHash := (C.extendMessagePrefixHashes encoded.incomingMessagePrefixHashes
      [assistantMsg]).getLastD C.emptyPrefixHash
    activeToolSchemas := encoded.tools
    buffer := encoded.buffer
    imageData := encoded.imageData
    videoData := encoded.videoData
    lastAssistantStart := start
    updatedSeq := orderSeq }

/-- `_commit_generation_to_chain` -/
def commitGenerationToChain (C : MessageCodec) (s : GatewaySession) (encoded : EncodedData)
    (assistantMsg : Message) : Except PyError Unit × GatewaySession :=
  let hashes := C.extendMessagePrefixHashes encoded.incomingMessagePrefixHashes [assistantMsg]
  if hashes.length ≠ (encoded.messages ++ [assistantMsg]).length then
    (.error (.assertionError ""), s)
  else
    match encoded.lastAssistantStart with
    | none => (.error (.runtimeError "last assistant start is missing"), s)
    | some start =>
      let s := s.recordRollbackStats encoded
      match encoded.chainId with
      | none =>
        let chain := committedChain C encoded assistantMsg start s.nextChainId (s.orderSeq + 1)
        (.ok (), { s with
          orderSeq := s.orderSeq + 1
          nextChainId := s.nextChainId + 1
          activeChains := s.activeChains ++ [chain] })
      | some chainId =>
        match s.findActiveChain chainId with
        | .error e => (.error e, s)
        | .ok (index, previous) =>
          let chain :=
            committedChain C encoded assistantMsg start previous.chainId (s.orderSeq + 1)
          (.ok (), { s with
            orderSeq := s.orderSeq + 1
            activeChains := s.activeChains.set index chain })

/-- The chain as `_close_length_exhausted_chain` materializes it. -/
def chainToMaterialize (chain : ChainState) (encoded : EncodedData) : ChainState :=
  if encoded.rollbackApplied then
    let historyLen := chain.lastAssistantStart.messageHistoryLen
    { chain with
      messageHistory := encoded.messages.take historyLen
      messageTipHash :=
        (pyIndex encoded.incomingMessagePrefixHashes ((historyLen : Int) - 1)).getD ""
      buffer := encoded.buffer
      imageData := encoded.imageData
      videoData := encoded.videoData }
  else chain

/-- `_close_length_exhausted_chain` -/
def closeLengthExhaustedChain (s : GatewaySession) (encoded : EncodedData) :
    Except PyError Unit × GatewaySession :=
  match encoded.chainId with
  | none => (.error (.runtimeError "length-exhausted chain id is missing"), s)
  | some chainId =>
    match s.findActiveChain chainId with
    | .error e => (.error e, s)
    | .ok (index, chain) =>
      if encoded.rollbackApplied && chain.lastAssistantStart.responseIdsLen == 0 then
        let s := s.recordRollbackStats encoded
        (.ok (), { s with activeChains := s.activeChains.eraseIdx index })
      else
        let s : GatewaySession := { s with orderSeq := s.orderSeq + 1 }
        match buildMaterializedTrajectory (chainToMaterialize chain encoded)
            (some "max_trajectory_length") with
        | .error e => (.error e, s)
        | .ok trajectory =>
          let s : GatewaySession := { s with
            materializedChains := s.materializedChains ++ [⟨trajectory, s.orderSeq⟩] }
          let s := s.recordRollbackStats encoded
          (.ok (), { s with activeChains := s.activeChains.eraseIdx index })

/-- `_release_chain_reservation` -/
def releaseChainReservation (s : GatewaySession) (chainId : Nat) : GatewaySession :=
  { s with reservedChainIds := s.reservedChainIds.filter (· != chainId) }

/-- `reserved_chain_ids.add` -/
def reserveChain (s : GatewaySession) (chainId : Nat) : GatewaySession :=
  if s.reservedChainIds.contains chainId then s
  else { s with reservedChainIds := s.reservedChainIds ++ [chainId] }

/-! ## Finalize and abort -/

/-- The loop of `_materialize_active_chains`. A chain that raises ends it, with the chains
before it already materialized. -/
def materializeEach : List ChainState → List MaterializedChain →
    Except PyError Unit × List MaterializedChain
  | [], materialized => (.ok (), materialized)
  | chain :: rest, materialized =>
    match buildMaterializedTrajectory chain none with
    | .error e => (.error e, materialized)
    | .ok trajectory => materializeEach rest (materialized ++ [⟨trajectory, chain.updatedSeq⟩])

/-- `_materialize_active_chains` -/
def materializeActiveChains (s : GatewaySession) : Except PyError Unit × GatewaySession :=
  match materializeEach s.activeChains s.materializedChains with
  | (.error e, materialized) => (.error e, { s with materializedChains := materialized })
  | (.ok (), materialized) =>
    (.ok (), { s with materializedChains := materialized, activeChains := [] })

/-- `sorted(self.materialized_chains, key=lambda chain: chain.order_seq)` -/
def orderedMaterialized (s : GatewaySession) : List MaterializedChain :=
  s.materializedChains.insertionSort (fun x y => x.orderSeq ≤ y.orderSeq)

def phaseMessage (s : GatewaySession) : String := s!"Session {s.sessionId} is {s.phase.lower}"

/-- `finalize` -/
def finalize (s : GatewaySession) : Except PyError (List Trajectory) × GatewaySession :=
  if s.phase = .aborted then (.error (.runtimeError s.phaseMessage), s)
  else if s.phase = .finalized then (.error (.runtimeError s.phaseMessage), s)
  else
    match s.materializeActiveChains with
    | (.error e, s) => (.error e, s)
    | (.ok (), s) =>
      let s := { s with reservedChainIds := [], phase := .finalized }
      (.ok (s.orderedMaterialized.map
        (fun chain => { chain.trajectory with rewardInfo := s.rewardInfo })), s)

/-- `abort` -/
def abort (s : GatewaySession) : Except PyError Unit × GatewaySession :=
  if s.phase = .aborted then (.ok (), s)
  else if s.phase = .finalized then (.error (.runtimeError s.phaseMessage), s)
  else
    (.ok (), { s with
      phase := .aborted
      activeChains := []
      materializedChains := []
      reservedChainIds := [] })

/-- `set_reward_info` -/
def setRewardInfo (s : GatewaySession) (rewardInfo : Option Dict) :
    Except PyError Unit × GatewaySession :=
  if s.phase ≠ .active then (.error (.runtimeError s.phaseMessage), s)
  else
    match rewardInfo with
    | none => (.ok (), s)
    | some info => (.ok (), { s with rewardInfo := info })

/-! ## The sections of `run_generation` -/

/-- How the first locked section can end without an error. -/
inductive FirstSection where
  | exhausted (encoded : EncodedData) (outcome : GenerationOutcome)
  | generating (encoded : EncodedData)

def lengthOutcome (encoded : EncodedData) : GenerationOutcome :=
  { assistantMsg := { role := "assistant", content := .str "" }
    finishReason := "length"
    promptTokens := encoded.contextIds.length
    completionTokens := 0 }

/-- The first `async with self.request_lock` block. -/
def firstSection (C : MessageCodec) (s : GatewaySession) (request : InternalGenerationRequest) :
    Except PyError FirstSection × GatewaySession :=
  if s.phase ≠ .active then (.error (.httpException 409 s.phaseMessage), s)
  else
    match s.prepareGenerationInputs C request with
    | .error e => (.error e, s)
    | .ok encoded =>
      match encoded.capacityExhausted, encoded.chainId with
      | true, none => (.ok (.exhausted encoded (lengthOutcome encoded)), s)
      | true, some _ =>
        match s.closeLengthExhaustedChain encoded with
        | (.error e, s) => (.error e, s)
        | (.ok (), s) => (.ok (.exhausted encoded (lengthOutcome encoded)), s)
      | false, none => (.ok (.generating encoded), s)
      | false, some chainId => (.ok (.generating encoded), s.reserveChain chainId)

end GatewaySession

/-- What `run_generation` raises when `backend.generate` raises. -/
def backendError : PyError → PyError
  | .valueError message => .httpException 400 message
  | .cancelledError => .cancelledError
  | .httpException status detail => .httpException 500 s!"HTTPException: {status}: {detail}"
  | .runtimeError message => .httpException 500 s!"RuntimeError: {message}"
  | .assertionError message => .httpException 500 s!"AssertionError: {message}"
  | .indexError message => .httpException 500 s!"IndexError: {message}"
  | .typeError message => .httpException 500 s!"TypeError: {message}"
  | .otherException className message => .httpException 500 s!"{className}: {message}"

/-- The output of the backend, put into the working buffer. The buffer is private to the
request, so this runs outside the lock. -/
def absorbOutput (encoded : EncodedData) (output : TokenOutput) : Except PyError EncodedData := do
  let buffer := encoded.buffer
  let logProbs ←
    if !encoded.samplingParams.logprobs then pure []
    else match output.logProbs with
      | none => throw (.runtimeError "backend omitted logprobs when requested")
      | some logProbs =>
        if logProbs.length ≠ output.tokenIds.length then
          throw (.runtimeError ("backend logprobs must align with token_ids: " ++
            s!"got {logProbs.length} logprobs for {output.tokenIds.length} tokens"))
        else pure logProbs
  let buffer : TrajectoryBuffer :=
    { buffer with
      generationVersions :=
        buffer.generationVersions ++ [(output.minGlobalSteps, output.maxGlobalSteps)]
      responseIds := buffer.responseIds ++ output.tokenIds
      responseMask := buffer.responseMask ++ List.replicate output.tokenIds.length 1
      responseLogprobs := buffer.responseLogprobs ++ logProbs }
  assertResponseLogprobAlignment buffer
  return { encoded with
    buffer := { buffer with routedExperts := output.routedExperts.or buffer.routedExperts } }

/-- The second `async with self.request_lock` block. -/
def GatewaySession.secondSection (C : MessageCodec) (s : GatewaySession) (encoded : EncodedData)
    (output : TokenOutput) (callIds : Nat → String) :
    Except PyError GenerationOutcome × GatewaySession :=
  if s.phase ≠ .active then (.error (.httpException 409 s.phaseMessage), s)
  else
    match C.decodeResponse output.tokenIds encoded.tools output.stopReason callIds with
    | .error e => (.error e, s)
    | .ok (assistantMsg, finishReason) =>
      match s.commitGenerationToChain C encoded assistantMsg with
      | (.error e, s) => (.error e, s)
      | (.ok (), s) =>
        let s := match encoded.chainId with
          | none => s
          | some chainId => s.releaseChainReservation chainId
        (.ok { assistantMsg, finishReason
               promptTokens := encoded.contextIds.length
               completionTokens := output.tokenIds.length }, s)

end uni_agent.session
