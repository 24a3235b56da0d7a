-- The shape of chains. The mask of a chain has one entry for each response token, the saved
-- boundary is the point where its last assistant began, its hashes are those of its history,
-- and it has one version mark for each generation that it holds.
import UniAgent.ChainRules

namespace uni_agent.session

variable {C : MessageCodec} {s : GatewaySession} {request : InternalGenerationRequest}
  {encoded : EncodedData} {chain : ChainState}

/-! ## What a request is prepared to -/

/-- What every prepared request hands to the backend and saves for its commit. -/
structure Opened (C : MessageCodec) (request : InternalGenerationRequest)
    (encoded : EncodedData) : Prop where
  contextIds : encoded.contextIds = encoded.buffer.promptIds ++ encoded.buffer.responseIds
  messages : encoded.messages = request.messages
  tools : encoded.tools = request.tools
  nonempty : request.messages ≠ []
  start : encoded.lastAssistantStart = some (snapshotLastAssistantStart encoded.buffer
    request.messages.length encoded.imageData encoded.videoData (C.prefixHash request.messages))
  logprobs : encoded.samplingParams.logprobs = request.samplingParams.logprobs

theorem clampMaxTokens_logprobs (capacity : Option Nat) (length : Nat) (params : SamplingParams) :
    (clampMaxTokens capacity length params).logprobs = params.logprobs := by
  unfold clampMaxTokens
  cases capacity <;> rfl

theorem opened_of_prepare (hprep : s.prepareGenerationInputs C request = .ok encoded)
    (hroom : encoded.capacityExhausted = false) : Opened C request encoded := by
  obtain ⟨w, _, hpacked⟩ := prepare_eq_ok hprep
  have hexhausted : w.capacityExhausted = false := hpacked.exhausted.symm.trans hroom
  constructor
  · rw [hpacked.contextIds, hpacked.buffer]
  · exact hpacked.messages
  · exact hpacked.tools
  · exact hpacked.messages_ne hexhausted
  · rw [hpacked.start hexhausted, hpacked.buffer, hpacked.imageData, hpacked.videoData]
  · rw [hpacked.params hexhausted, clampMaxTokens_logprobs]

/-- The inputs of a request that starts a new chain. -/
theorem prepare_fresh (hprep : s.prepareGenerationInputs C request = .ok encoded)
    (hselect : s.selectionFor C request = none) :
    ∃ promptIds,
      C.extractMultiModalData request.messages = .ok (encoded.imageData, encoded.videoData) ∧
      C.encodeFull request.messages request.tools encoded.imageData encoded.videoData =
        .ok promptIds ∧
      encoded.buffer = { promptIds } ∧
      encoded.capacityExhausted = capacityReached s.trajectoryCapacity promptIds.length := by
  obtain ⟨w, hworks, hpacked⟩ := prepare_eq_ok hprep
  cases hworks with
  | fresh images videos promptIds _ hmedia hfull =>
    refine ⟨promptIds, ?_, ?_, hpacked.buffer, hpacked.exhausted⟩
    · rw [hpacked.imageData, hpacked.videoData]
      exact hmedia
    · rw [hpacked.imageData, hpacked.videoData]
      exact hfull
  | exhausted chain rollback w ids hselect' _ _ => simp [hselect] at hselect'
  | extended chain rollback w ids images videos hselect' _ _ _ _ => simp [hselect] at hselect'

/-- The inputs of a request that goes on with a chain, when there is room. -/
structure Extends (C : MessageCodec) (request : InternalGenerationRequest) (chain : ChainState)
    (encoded : EncodedData) (w : WorkingInputs) (ids : List Token)
    (images videos : Option (List Media)) : Prop where
  reused : Reused C chain encoded.rollbackApplied w
  suffix : SuffixEncoded C
    (request.messages.drop (reusedHistoryLen chain encoded.rollbackApplied)) ids (images, videos)
  buffer : encoded.buffer = appendContext request.samplingParams.logprobs w.buffer ids
  aligned : encoded.buffer.Aligned
  imageData : encoded.imageData = extendMedia w.imageData images
  videoData : encoded.videoData = extendMedia w.videoData videos
  dropped : encoded.rollbackDroppedTrainableTokens = w.rollbackDroppedTrainableTokens

theorem Reuses.extends (h : Reuses C s request encoded chain)
    (hroom : encoded.capacityExhausted = false) :
    ∃ w ids images videos, Extends C request chain encoded w ids images videos ∧
      capacityReached s.trajectoryCapacity (w.buffer.length + ids.length) = false := by
  obtain ⟨w, hworks, hpacked⟩ := prepare_eq_ok h.prepared
  cases hworks with
  | fresh images videos promptIds hselect _ _ => simp [h.select] at hselect
  | exhausted chain' rollback w ids _ _ _ => simp [hpacked.exhausted] at hroom
  | extended chain' rollback w ids images videos hselect hreused hsuffix hcap haligned =>
    rw [h.select, Option.some.injEq, Prod.mk.injEq] at hselect
    obtain ⟨rfl, rfl⟩ := hselect
    refine ⟨w, ids, images, videos, ⟨hreused, hsuffix, hpacked.buffer, ?_, hpacked.imageData,
      hpacked.videoData, hpacked.dropped⟩, hcap⟩
    rw [hpacked.buffer]
    exact haligned

/-- The inputs of a request whose chain has no room: the working copy as it was reused. -/
theorem Reuses.exhausted (h : Reuses C s request encoded chain)
    (hfull : encoded.capacityExhausted = true) :
    ∃ w, Reused C chain encoded.rollbackApplied w ∧ encoded.buffer = w.buffer ∧
      encoded.imageData = w.imageData ∧ encoded.videoData = w.videoData ∧
      encoded.messages = request.messages ∧
      encoded.incomingMessagePrefixHashes = C.extendMessagePrefixHashes [] request.messages ∧
      encoded.rollbackDroppedTrainableTokens = w.rollbackDroppedTrainableTokens := by
  obtain ⟨w, hworks, hpacked⟩ := prepare_eq_ok h.prepared
  cases hworks with
  | fresh images videos promptIds hselect _ _ => simp [h.select] at hselect
  | exhausted chain' rollback w ids hselect hreused _ =>
    rw [h.select, Option.some.injEq, Prod.mk.injEq] at hselect
    obtain ⟨rfl, rfl⟩ := hselect
    exact ⟨w, hreused, hpacked.buffer, hpacked.imageData, hpacked.videoData, hpacked.messages,
      hpacked.hashes, hpacked.dropped⟩
  | extended chain' rollback w ids images videos _ hreused _ _ _ =>
    rw [hpacked.exhausted] at hfull
    exact absurd (hreused.not_exhausted.symm.trans hfull) (by simp)

/-- A request that rolls its chain back has new messages. -/
theorem suffix_ne_of_rollback (h : s.selectionFor C request = some (chain, true)) :
    request.messages.drop chain.lastAssistantStart.messageHistoryLen ≠ [] := by
  have heligible := (eligible_of_selectChain h).2.1
  unfold GatewaySession.isEligible at heligible
  simp only [Bool.and_eq_true, decide_eq_true_eq] at heligible
  have hlt := heligible.1.2
  rw [C.extendMessagePrefixHashes_eq] at hlt
  simp only [prefix_digests.length_extend, List.length_nil, Nat.zero_add] at hlt
  intro hnil
  rw [List.drop_eq_nil_iff] at hnil
  omega

/-- The action is no request, or one that has the flag. -/
def AsksFor (flag : Bool) (a : Action) : Prop :=
  ∀ request, a = .request request → request.samplingParams.logprobs = flag

theorem asksFor_of_test {flag : Bool} {actions : List Action}
    (h : actions.all (fun a => match a with
      | .request request => request.samplingParams.logprobs == flag
      | _ => true) = true) : ∀ a ∈ actions, AsksFor flag a := by
  rintro a ha request rfl
  simpa using List.all_eq_true.mp h _ ha

/-! ## The law -/

def Generation.mark (g : Generation) : VersionMark :=
  (g.output.minGlobalSteps, g.output.maxGlobalSteps)

/-- One mask entry for each response token, logprobs for all of them or for none, and one
version mark for each generation. -/
structure BufferShape (buffer : TrajectoryBuffer) (gens : List Generation) : Prop where
  mask : buffer.responseMask.length = buffer.responseIds.length
  aligned : buffer.Aligned
  versions : buffer.generationVersions = gens.map Generation.mark

/-- A boundary is where the last assistant of a history began. -/
structure BoundaryShape (C : MessageCodec) (start : LastAssistantStart) (buffer : TrajectoryBuffer)
    (before : List Message) (imageData videoData : Option (List Media)) : Prop where
  responseIdsLen : start.responseIdsLen ≤ buffer.responseIds.length
  messageHistoryLen : start.messageHistoryLen = before.length
  nonempty : before ≠ []
  tipHash : start.tipHash = C.prefixHash before
  imageDataLen : start.imageDataLen = (imageData.getD []).length
  videoDataLen : start.videoDataLen = (videoData.getD []).length

/-- The shape of a chain: its history is the history before its last assistant, and that
assistant. -/
structure ChainShape (C : MessageCodec) (chain : ChainState) (gens : List Generation) : Prop where
  buffer : BufferShape chain.buffer gens
  history : ∃ before last, chain.messageHistory = before ++ [last] ∧
    BoundaryShape C chain.lastAssistantStart chain.buffer before chain.imageData chain.videoData
  tipHash : chain.messageTipHash = C.prefixHash chain.messageHistory
  gens_ne : gens ≠ []

def shapeRule (C : MessageCodec) : ChainRule where
  chain := ChainShape C
  ready := fun f gens => Opened C f.request f.encoded ∧ BufferShape f.encoded.buffer gens
  full := fun f gens =>
    BufferShape f.encoded.buffer gens ∧
      ∀ start, f.encoded.lastAssistantStart = some start →
        BoundaryShape C start f.encoded.buffer f.request.messages f.encoded.imageData
          f.encoded.videoData
  closed := fun trajectory _ =>
    trajectory.responseMask.length = trajectory.responseIds.length ∧
      ∀ logprobs, trajectory.responseLogprobs = some logprobs →
        logprobs.length = trajectory.responseIds.length

/-! ## What each operation keeps -/

theorem BufferShape.appendContext {buffer : TrajectoryBuffer} {gens : List Generation}
    (h : BufferShape buffer gens) {logprobs : Bool} {ids : List Token}
    (haligned : (appendContext logprobs buffer ids).Aligned) :
    BufferShape (appendContext logprobs buffer ids) gens := by
  refine ⟨?_, haligned, h.versions⟩
  simp [uni_agent.session.appendContext, h.mask]

theorem RolledBack.shape {b : TrajectoryBuffer} (h : RolledBack C chain b)
    (haligned : b.Aligned) {gens : List Generation} (hshape : BufferShape chain.buffer gens) :
    BufferShape b gens.dropLast := by
  cases h with
  | intoPrompt promptIds hstart hprompt =>
    exact ⟨rfl, haligned, by simp [hshape.versions, List.map_dropLast]⟩
  | intoResponse responseIds hstart hresponse =>
    refine ⟨?_, haligned, by simp [hshape.versions, List.map_dropLast]⟩
    have hlen := congrArg List.length hresponse
    simp only [List.length_take, List.length_append] at hlen
    simp only [List.length_take, hshape.mask]
    omega

theorem Reused.shape {rollback : Bool} {w : WorkingInputs} (h : Reused C chain rollback w)
    {gens : List Generation} (hshape : BufferShape chain.buffer gens) :
    BufferShape w.buffer (keptOf rollback gens) := by
  cases h with
  | whole _ => exact hshape
  | rolledBack buffer images videos hbuffer haligned _ _ _ _ => exact hbuffer.shape haligned hshape

/-- A materialized trajectory has the buffer of its chain. -/
theorem build_eq_ok {reason : Option String} {trajectory : Trajectory}
    (hbuild : buildMaterializedTrajectory chain reason = .ok trajectory) :
    chain.buffer.Aligned ∧ ∃ versionSpan,
      versionSpanOf chain.buffer.generationVersions = .ok versionSpan ∧
      trajectory =
        { promptIds := chain.buffer.promptIds
          responseIds := chain.buffer.responseIds
          responseMask := chain.buffer.responseMask
          responseLogprobs := if chain.buffer.responseLogprobs.isEmpty then none
            else some chain.buffer.responseLogprobs
          rewardInfo := []
          numTurns := countChatTurns chain.messageHistory
          routedExperts := chain.buffer.routedExperts
          multiModalData := buildMultiModalTrajectoryData chain.imageData chain.videoData
          extraFields := { versionSpan, materializationReason := reason } } := by
  unfold buildMaterializedTrajectory at hbuild
  simp only [bind_eq_ok, assertResponseLogprobAlignment_eq_ok] at hbuild
  obtain ⟨_, haligned, span, hspan, hbuild⟩ := hbuild
  cases hbuild
  exact ⟨haligned, span, hspan, rfl⟩

theorem BufferShape.trajectory {gens : List Generation} {reason : Option String}
    {trajectory : Trajectory} (h : BufferShape chain.buffer gens)
    (hbuild : buildMaterializedTrajectory chain reason = .ok trajectory) :
    trajectory.responseMask.length = trajectory.responseIds.length ∧
      ∀ logprobs, trajectory.responseLogprobs = some logprobs →
        logprobs.length = trajectory.responseIds.length := by
  obtain ⟨haligned, span, _, rfl⟩ := build_eq_ok hbuild
  refine ⟨h.mask, ?_⟩
  intro logprobs hlog
  by_cases hempty : chain.buffer.responseLogprobs.isEmpty = true
  · simp [hempty] at hlog
  · simp only [hempty] at hlog
    cases hlog
    rcases haligned with hzero | hlen
    · simp [List.length_eq_zero_iff.mp hzero] at hempty
    · exact hlen

/-- The buffer that a closure materializes: the working copy of the chain. -/
theorem closing_buffer {w : WorkingInputs} (hreused : Reused C chain encoded.rollbackApplied w)
    (hbuffer : encoded.buffer = w.buffer) :
    (GatewaySession.chainToMaterialize chain encoded).buffer = w.buffer := by
  unfold GatewaySession.chainToMaterialize
  cases hrollback : encoded.rollbackApplied with
  | false =>
    rw [hrollback] at hreused
    cases hreused
    rfl
  | true => simpa using hbuffer

theorem shapeRule_kept : (shapeRule C).Kept C (fun _ _ => True) := by
  constructor
  · intro sys request encoded _ _ hprep hselect hroom
    obtain ⟨promptIds, _, _, hbuffer, _⟩ := prepare_fresh hprep hselect
    refine ⟨opened_of_prepare hprep hroom, ?_⟩
    rw [hbuffer]
    exact ⟨rfl, Or.inl rfl, rfl⟩
  · intro sys request encoded chain gens _ hreuse hroom hchain
    obtain ⟨w, ids, images, videos, hextends, _⟩ := hreuse.extends hroom
    refine ⟨opened_of_prepare hreuse.prepared hroom, ?_⟩
    have haligned := hextends.aligned
    rw [hextends.buffer] at haligned ⊢
    exact (hextends.reused.shape hchain.buffer).appendContext haligned
  · intro sys f output encoded gens _ _ hready habsorb
    obtain ⟨hopened, hshape⟩ := hready
    obtain ⟨logProbs, rfl, haligned, _⟩ := absorbOutput_eq_ok habsorb
    refine ⟨⟨?_, haligned, ?_⟩, ?_⟩
    · simp [hshape.mask]
    · simp [hshape.versions, Generation.mark, InFlight.generation]
    · intro start hstart
      rw [hopened.start] at hstart
      cases hstart
      constructor <;> simp [snapshotLastAssistantStart, hopened.nonempty]
  · intro sys f output callIds assistantMsg start chainId orderSeq gens _ hcommits hsound hfull
    obtain ⟨hshape, hboundary⟩ := hfull
    refine ⟨hshape, ⟨f.encoded.messages, assistantMsg, rfl, ?_⟩, ?_, by simp⟩
    · rw [hsound.messages]
      exact hboundary start hcommits.start
    · simp only [GatewaySession.committedChain]
      rw [hsound.hashes, C.extendMessagePrefixHashes_eq, C.extendMessagePrefixHashes_eq,
        prefix_digests.extend_extend, prefix_digests.getLastD_extend]
      rfl
  · intro sys request encoded chain gens trajectory _ hreuse hfull _ hbuild hchain
    obtain ⟨w, hreused, hbuffer, _⟩ := hreuse.exhausted hfull
    have hshape := hreused.shape hchain.buffer
    rw [← closing_buffer hreused hbuffer] at hshape
    exact hshape.trajectory hbuild
  · intro chain gens trajectory hchain hbuild
    exact hchain.buffer.trajectory hbuild

/-- Every run keeps the shape of chains. -/
theorem shape_run {sys : System} {sessionId : String} {promptLength responseLength : Option Int}
    {enable : Bool} {s : GatewaySession} {actions : List Action}
    (hnew : GatewaySession.create sessionId promptLength responseLength enable = .ok s)
    (hrun : runFrom C s actions = some sys) : (shapeRule C).Holds sys :=
  shapeRule_kept.run hnew hrun (runs.meets_of_forall (fun _ _ => trivial))

end uni_agent.session
