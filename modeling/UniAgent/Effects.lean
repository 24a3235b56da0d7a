-- What each action can do to the system. `Coherent` says that reservations, chains and the
-- requests in flight fit together. From a coherent system, `step_effect` lists the changes an
-- action can make, and every law about runs is proved from that list.
import UniAgent.Preparation
import UniAgent.Interleaving

namespace uni_agent.session

/-! ## The specs of the session functions -/

namespace GatewaySession

section Fields

variable (s : GatewaySession) (encoded : EncodedData) (chainId : Nat)

@[simp] theorem recordRollbackStats_sessionId :
    (s.recordRollbackStats encoded).sessionId = s.sessionId := by
  unfold recordRollbackStats; split <;> rfl

@[simp] theorem recordRollbackStats_capacity :
    (s.recordRollbackStats encoded).trajectoryCapacity = s.trajectoryCapacity := by
  unfold recordRollbackStats; split <;> rfl

@[simp] theorem recordRollbackStats_enable :
    (s.recordRollbackStats encoded).enableLastAssistantRollback =
      s.enableLastAssistantRollback := by
  unfold recordRollbackStats; split <;> rfl

@[simp] theorem recordRollbackStats_active :
    (s.recordRollbackStats encoded).activeChains = s.activeChains := by
  unfold recordRollbackStats; split <;> rfl

@[simp] theorem recordRollbackStats_materialized :
    (s.recordRollbackStats encoded).materializedChains = s.materializedChains := by
  unfold recordRollbackStats; split <;> rfl

@[simp] theorem recordRollbackStats_reserved :
    (s.recordRollbackStats encoded).reservedChainIds = s.reservedChainIds := by
  unfold recordRollbackStats; split <;> rfl

@[simp] theorem recordRollbackStats_nextChainId :
    (s.recordRollbackStats encoded).nextChainId = s.nextChainId := by
  unfold recordRollbackStats; split <;> rfl

@[simp] theorem recordRollbackStats_orderSeq :
    (s.recordRollbackStats encoded).orderSeq = s.orderSeq := by
  unfold recordRollbackStats; split <;> rfl

@[simp] theorem recordRollbackStats_phase :
    (s.recordRollbackStats encoded).phase = s.phase := by
  unfold recordRollbackStats; split <;> rfl

end Fields

/-- With distinct ids, the chain with an id is found where it is. -/
theorem findActiveChain_split {s : GatewaySession} {chain : ChainState}
    (hnodup : (s.activeChains.map ChainState.chainId).Nodup) (h : chain ∈ s.activeChains) :
    ∃ before after, s.activeChains = before ++ chain :: after ∧
      s.findActiveChain chain.chainId = .ok (before.length, chain) := by
  obtain ⟨before, after, hsplit⟩ := List.append_of_mem h
  refine ⟨before, after, hsplit, ?_⟩
  unfold findActiveChain
  have hfind : (s.activeChains.zipIdx.find? (fun entry => entry.1.chainId == chain.chainId)) =
      some (chain, before.length) := by
    rw [List.find?_eq_some_iff_append]
    refine ⟨by simp, before.zipIdx, after.zipIdx (before.length + 1), ?_, ?_⟩
    · rw [hsplit, List.zipIdx_append, List.zipIdx_cons, Nat.zero_add]
    · rintro ⟨c, i⟩ hc
      have hmem : c ∈ before := List.fst_mem_of_mem_zipIdx hc
      simp only [Bool.not_eq_true', beq_eq_false_iff_ne]
      intro heq
      rw [hsplit, List.map_append, List.nodup_append] at hnodup
      exact hnodup.2.2 _ (List.mem_map_of_mem hmem) chain.chainId (by simp) heq
  rw [hfind]

/-- What is left of a session without one of its chains. -/
theorem eraseIdx_split {before after : List ChainState} {chain : ChainState} :
    (before ++ chain :: after).eraseIdx before.length = before ++ after := by
  rw [List.eraseIdx_append_of_length_le (Nat.le_refl _)]
  simp

section Closure

variable {s : GatewaySession} {encoded : EncodedData} {chain : ChainState}
  {before after : List ChainState}

/-- A rollback of the first assistant leaves nothing to materialize. -/
theorem closeLengthExhaustedChain_drop (hchain : encoded.chainId = some chain.chainId)
    (hsplit : s.activeChains = before ++ chain :: after)
    (hfind : s.findActiveChain chain.chainId = .ok (before.length, chain))
    (hrollback : encoded.rollbackApplied = true)
    (hstart : chain.lastAssistantStart.responseIdsLen = 0) :
    s.closeLengthExhaustedChain encoded =
      (.ok (), { s.recordRollbackStats encoded with activeChains := before ++ after }) := by
  unfold closeLengthExhaustedChain
  simp only [hchain, hfind, hrollback, hstart, beq_self_eq_true, Bool.and_self, if_true,
    recordRollbackStats_active, hsplit, eraseIdx_split]

theorem closeLengthExhaustedChain_close (hchain : encoded.chainId = some chain.chainId)
    (hsplit : s.activeChains = before ++ chain :: after)
    (hfind : s.findActiveChain chain.chainId = .ok (before.length, chain))
    (hstart : encoded.rollbackApplied = true → chain.lastAssistantStart.responseIdsLen ≠ 0)
    {trajectory : Trajectory}
    (hbuild : buildMaterializedTrajectory (chainToMaterialize chain encoded)
      (some "max_trajectory_length") = .ok trajectory) :
    s.closeLengthExhaustedChain encoded =
      (.ok (), { s.recordRollbackStats encoded with
        orderSeq := s.orderSeq + 1
        materializedChains := s.materializedChains ++ [⟨trajectory, s.orderSeq + 1⟩]
        activeChains := before ++ after }) := by
  have hcond : (encoded.rollbackApplied &&
      chain.lastAssistantStart.responseIdsLen == 0) = false := by
    simpa using hstart
  unfold closeLengthExhaustedChain
  simp only [hchain, hfind, hcond, Bool.false_eq_true, if_false, hbuild,
    recordRollbackStats_active, hsplit, eraseIdx_split]
  unfold recordRollbackStats
  split <;> rfl

theorem closeLengthExhaustedChain_fail (hchain : encoded.chainId = some chain.chainId)
    (hfind : s.findActiveChain chain.chainId = .ok (before.length, chain))
    (hstart : encoded.rollbackApplied = true → chain.lastAssistantStart.responseIdsLen ≠ 0)
    {error : PyError}
    (hbuild : buildMaterializedTrajectory (chainToMaterialize chain encoded)
      (some "max_trajectory_length") = .error error) :
    s.closeLengthExhaustedChain encoded =
      (.error error, { s with orderSeq := s.orderSeq + 1 }) := by
  have hcond : (encoded.rollbackApplied &&
      chain.lastAssistantStart.responseIdsLen == 0) = false := by
    simpa using hstart
  unfold closeLengthExhaustedChain
  simp only [hchain, hfind, hcond, Bool.false_eq_true, if_false, hbuild]

end Closure

/-- The loop that materializes: either every chain, or the ones before the first that
raises. -/
theorem materializeEach_spec (chains : List ChainState) (materialized : List MaterializedChain) :
    ∃ front built, (materializeEach chains materialized).2 = materialized ++ built ∧
      List.Forall₂ (fun chain m => buildMaterializedTrajectory chain none = .ok m.trajectory ∧
        m.orderSeq = chain.updatedSeq) front built ∧
      (((materializeEach chains materialized).1 = .ok () ∧ chains = front) ∨
        ∃ e chain back, (materializeEach chains materialized).1 = .error e ∧
          chains = front ++ chain :: back ∧ buildMaterializedTrajectory chain none = .error e) := by
  induction chains generalizing materialized with
  | nil => exact ⟨[], [], by simp [materializeEach], .nil, Or.inl ⟨rfl, rfl⟩⟩
  | cons chain rest ih =>
    unfold materializeEach
    cases hbuild : buildMaterializedTrajectory chain none with
    | error e =>
      exact ⟨[], [], by simp, .nil, Or.inr ⟨e, chain, rest, rfl, rfl, hbuild⟩⟩
    | ok trajectory =>
      obtain ⟨front, built, hmat, hall, hend⟩ :=
        ih (materialized ++ [⟨trajectory, chain.updatedSeq⟩])
      refine ⟨chain :: front, ⟨trajectory, chain.updatedSeq⟩ :: built, ?_,
        .cons ⟨hbuild, rfl⟩ hall, ?_⟩
      · simp [hmat]
      · rcases hend with ⟨hok, rfl⟩ | ⟨e, c, back, herr, rfl, hc⟩
        · exact Or.inl ⟨hok, rfl⟩
        · exact Or.inr ⟨e, c, back, herr, rfl, hc⟩

/-- What `finalize` returns: a trajectory for each chain that was closed before and for each
active chain, in the order of their order numbers. -/
theorem finalize_eq_ok {s s' : GatewaySession} {trajectories : List Trajectory}
    (h : s.finalize = (.ok trajectories, s')) :
    s.phase = .active ∧ ∃ built : List MaterializedChain,
      List.Forall₂ (fun chain m => buildMaterializedTrajectory chain none = .ok m.trajectory ∧
        m.orderSeq = chain.updatedSeq) s.activeChains built ∧
      trajectories = ((s.materializedChains ++ built).insertionSort
        (fun x y => x.orderSeq ≤ y.orderSeq)).map
          (fun m => { m.trajectory with rewardInfo := s.rewardInfo }) := by
  unfold finalize at h
  cases hphase : s.phase with
  | aborted => simp [hphase] at h
  | finalized => simp [hphase] at h
  | active =>
    refine ⟨rfl, ?_⟩
    simp only [hphase, reduceCtorEq, if_false] at h
    obtain ⟨front, built, hmat, hbuilt, hend⟩ :=
      materializeEach_spec s.activeChains s.materializedChains
    unfold materializeActiveChains at h
    rcases hres : materializeEach s.activeChains s.materializedChains with ⟨result, materialized⟩
    rw [hres] at hmat hend
    simp only at hmat hend
    subst hmat
    rcases hend with ⟨rfl, rfl⟩ | ⟨e, chain, back, rfl, _, _⟩
    · simp only [hres, Prod.mk.injEq, Except.ok.injEq] at h
      exact ⟨built, hbuilt, h.1.symm⟩
    · simp [hres] at h

end GatewaySession

/-! ## A coherent system -/

/-- The chain of a request in flight is the one that it selected. -/
inductive Chosen (C : MessageCodec) (s : GatewaySession) (request : InternalGenerationRequest)
    (encoded : EncodedData) : Option ChainState → Prop
  | fresh (hselect : s.selectionFor C request = none) (hchain : encoded.chainId = none)
      (hrollback : encoded.rollbackApplied = false) : Chosen C s request encoded none
  | reused (chain : ChainState) (rollback : Bool)
      (hselect : s.selectionFor C request = some (chain, rollback))
      (hchain : encoded.chainId = some chain.chainId)
      (hrollback : encoded.rollbackApplied = rollback) : Chosen C s request encoded (some chain)

theorem prepare_chosen {C : MessageCodec} {s : GatewaySession}
    {request : InternalGenerationRequest} {encoded : EncodedData}
    (h : s.prepareGenerationInputs C request = .ok encoded) :
    ∃ chosen, Chosen C s request encoded chosen := by
  obtain ⟨w, hworks, hpacked⟩ := prepare_eq_ok h
  cases hworks with
  | fresh images videos promptIds hselect hmedia hfull =>
    exact ⟨none, .fresh hselect hpacked.chainId hpacked.rollbackApplied⟩
  | exhausted chain rollback w ids hselect hreused hfull =>
    exact ⟨some chain, .reused chain rollback hselect (hpacked.chainId.trans hreused.chainId_eq)
      (hpacked.rollbackApplied.trans hreused.rollbackApplied_eq)⟩
  | extended chain rollback w ids images videos hselect hreused hsuffix hroom haligned =>
    exact ⟨some chain, .reused chain rollback hselect (hpacked.chainId.trans hreused.chainId_eq)
      (hpacked.rollbackApplied.trans hreused.rollbackApplied_eq)⟩

/-- What the second section reads of a request in flight, as preparation left it. -/
structure InFlight.Sound (C : MessageCodec) (f : InFlight) : Prop where
  chainId : f.encoded.chainId = f.preparedChain.map ChainState.chainId
  rollback : f.preparedChain = none → f.encoded.rollbackApplied = false
  messages : f.encoded.messages = f.request.messages
  tools : f.encoded.tools = f.request.tools
  hashes : f.encoded.incomingMessagePrefixHashes =
    C.extendMessagePrefixHashes [] f.encoded.messages
  start : f.encoded.lastAssistantStart.isSome

structure Coherent (C : MessageCodec) (sys : System) : Prop where
  chainIds_nodup : (sys.session.activeChains.map ChainState.chainId).Nodup
  chainIds_lt : ∀ chain ∈ sys.session.activeChains, chain.chainId < sys.session.nextChainId
  requestIds_nodup : (sys.inFlight.map InFlight.requestId).Nodup
  requestIds_lt : ∀ f ∈ sys.inFlight, f.requestId < sys.nextRequestId
  held_nodup : (sys.inFlight.filterMap (fun f => f.encoded.chainId)).Nodup
  held_lt : ∀ f ∈ sys.inFlight, ∀ id, f.encoded.chainId = some id → id < sys.session.nextChainId
  sound : ∀ f ∈ sys.inFlight, f.Sound C
  reserved : sys.session.phase = .active → ∀ f ∈ sys.inFlight, ∀ chain,
    f.preparedChain = some chain →
      chain.chainId ∈ sys.session.reservedChainIds ∧ chain ∈ sys.session.activeChains
  held : ∀ id ∈ sys.session.reservedChainIds, ∃ f ∈ sys.inFlight, f.encoded.chainId = some id
  closed : sys.session.phase ≠ .active →
    sys.session.activeChains = [] ∧ sys.session.reservedChainIds = []

/-! ## The effect of an action -/

/-- A session whose chains, counters and phase are the same. -/
structure Untouched (s t : GatewaySession) : Prop where
  activeChains : t.activeChains = s.activeChains
  materializedChains : t.materializedChains = s.materializedChains
  nextChainId : t.nextChainId = s.nextChainId
  orderSeq : t.orderSeq = s.orderSeq
  rollbackCount : t.rollbackCount = s.rollbackCount
  dropped : t.rollbackDroppedTrainableTokensTotal = s.rollbackDroppedTrainableTokensTotal
  phase : t.phase = s.phase
  capacity : t.trajectoryCapacity = s.trajectoryCapacity
  enable : t.enableLastAssistantRollback = s.enableLastAssistantRollback

theorem Untouched.refl (s : GatewaySession) : Untouched s s := by
  constructor <;> rfl

/-- A request that is prepared from a chain of an active session. -/
structure Reuses (C : MessageCodec) (s : GatewaySession) (request : InternalGenerationRequest)
    (encoded : EncodedData) (chain : ChainState) : Prop where
  active : s.phase = .active
  prepared : s.prepareGenerationInputs C request = .ok encoded
  select : s.selectionFor C request = some (chain, encoded.rollbackApplied)
  chainId : encoded.chainId = some chain.chainId

/-- A request in flight whose output is committed. -/
structure Commits (C : MessageCodec) (sys : System) (f : InFlight) (output : TokenOutput)
    (callIds : Nat → String) (assistantMsg : Message) (start : LastAssistantStart) : Prop where
  active : sys.session.phase = .active
  mem : f ∈ sys.inFlight
  stage : f.stage = .generated output
  decode : ∃ reason, C.decodeResponse output.tokenIds f.encoded.tools output.stopReason callIds =
    .ok (assistantMsg, reason)
  start : f.encoded.lastAssistantStart = some start

def InFlight.generation (f : InFlight) (output : TokenOutput) : Generation :=
  ⟨f.requestId, f.encoded.contextIds, output⟩

/-- Everything that an action can do to a coherent system. -/
inductive Effect (C : MessageCodec) (sys : System) : Action → System → Prop
  /-- At most the reward info, and the result of a request that was never in flight. -/
  | idle (a : Action) (session : GatewaySession) (next : Nat)
      (finished : List (Nat × Except PyError GenerationOutcome))
      (hsession : Untouched sys.session session)
      (hreserved : session.reservedChainIds = sys.session.reservedChainIds)
      (hnext : sys.nextRequestId ≤ next) :
      Effect C sys a { sys with session, nextRequestId := next, finished }
  /-- A request without a reservation fails. -/
  | left (a : Action) (f : InFlight) (error : PyError) (hmem : f ∈ sys.inFlight)
      (hchain : f.encoded.chainId = none) :
      Effect C sys a (sys.finish f.requestId (.error error))
  /-- A request with a reservation fails. -/
  | failed (a : Action) (f : InFlight) (error : PyError) (hmem : f ∈ sys.inFlight)
      (hchain : f.encoded.chainId ≠ none) :
      Effect C sys a (sys.update { f with stage := .releasing error })
  | released (f : InFlight) (error : PyError) (id : Nat) (hmem : f ∈ sys.inFlight)
      (hstage : f.stage = .releasing error) (hchain : f.encoded.chainId = some id) :
      Effect C sys (.release f.requestId)
        ({ sys with session := sys.session.releaseChainReservation id }.finish f.requestId
          (.error error))
  | preparedFresh (request : InternalGenerationRequest) (encoded : EncodedData)
      (hactive : sys.session.phase = .active)
      (hprep : sys.session.prepareGenerationInputs C request = .ok encoded)
      (hselect : sys.session.selectionFor C request = none)
      (hchain : encoded.chainId = none) (hrollback : encoded.rollbackApplied = false)
      (hroom : encoded.capacityExhausted = false) :
      Effect C sys (.request request)
        { sys with
          nextRequestId := sys.nextRequestId + 1
          inFlight := sys.inFlight ++ [⟨sys.nextRequestId, request, encoded, none, .generating⟩]
          calls := sys.calls ++ [⟨sys.nextRequestId, request, encoded.contextIds,
            encoded.samplingParams, encoded.imageData, encoded.videoData⟩] }
  | preparedReuse (request : InternalGenerationRequest) (encoded : EncodedData)
      (chain : ChainState) (hreuse : Reuses C sys.session request encoded chain)
      (hroom : encoded.capacityExhausted = false) :
      Effect C sys (.request request)
        { sys with
          session := sys.session.reserveChain chain.chainId
          nextRequestId := sys.nextRequestId + 1
          inFlight := sys.inFlight ++
            [⟨sys.nextRequestId, request, encoded, some chain, .generating⟩]
          calls := sys.calls ++ [⟨sys.nextRequestId, request, encoded.contextIds,
            encoded.samplingParams, encoded.imageData, encoded.videoData⟩] }
  | absorbed (f : InFlight) (output : TokenOutput) (encoded : EncodedData)
      (hmem : f ∈ sys.inFlight) (hstage : f.stage = .generating)
      (habsorb : absorbOutput f.encoded output = .ok encoded) :
      Effect C sys (.backendReturns f.requestId output)
        (sys.update { f with encoded, stage := .generated output })
  | committedNew (f : InFlight) (output : TokenOutput) (callIds : Nat → String)
      (assistantMsg : Message) (start : LastAssistantStart) (outcome : GenerationOutcome)
      (hcommits : Commits C sys f output callIds assistantMsg start)
      (hchosen : f.preparedChain = none) :
      Effect C sys (.commit f.requestId callIds)
        ({ sys with
          session := { sys.session with
            orderSeq := sys.session.orderSeq + 1
            nextChainId := sys.session.nextChainId + 1
            activeChains := sys.session.activeChains ++
              [GatewaySession.committedChain C f.encoded assistantMsg start
                sys.session.nextChainId (sys.session.orderSeq + 1)] }
          ledger := sys.ledger.commit sys.session.nextChainId false (f.generation output)
          }.finish f.requestId (.ok outcome))
  | committedReuse (f : InFlight) (output : TokenOutput) (callIds : Nat → String)
      (assistantMsg : Message) (start : LastAssistantStart) (outcome : GenerationOutcome)
      (before after : List ChainState) (chain : ChainState)
      (hcommits : Commits C sys f output callIds assistantMsg start)
      (hchosen : f.preparedChain = some chain)
      (hsplit : sys.session.activeChains = before ++ chain :: after) :
      Effect C sys (.commit f.requestId callIds)
        ({ sys with
          session := { sys.session.recordRollbackStats f.encoded with
            orderSeq := sys.session.orderSeq + 1
            reservedChainIds := sys.session.reservedChainIds.filter (· != chain.chainId)
            activeChains := before ++ GatewaySession.committedChain C f.encoded assistantMsg start
              chain.chainId (sys.session.orderSeq + 1) :: after }
          ledger := sys.ledger.commit chain.chainId f.encoded.rollbackApplied
            (f.generation output) }.finish f.requestId (.ok outcome))
  | dropped (request : InternalGenerationRequest) (encoded : EncodedData) (chain : ChainState)
      (before after : List ChainState) (outcome : GenerationOutcome)
      (hreuse : Reuses C sys.session request encoded chain)
      (hfull : encoded.capacityExhausted = true)
      (hsplit : sys.session.activeChains = before ++ chain :: after)
      (hrollback : encoded.rollbackApplied = true)
      (hstart : chain.lastAssistantStart.responseIdsLen = 0) :
      Effect C sys (.request request)
        { sys with
          session := { sys.session.recordRollbackStats encoded with
            activeChains := before ++ after }
          nextRequestId := sys.nextRequestId + 1
          ledger := sys.ledger.delete chain.chainId
          finished := sys.finished ++ [(sys.nextRequestId, .ok outcome)] }
  | closed (request : InternalGenerationRequest) (encoded : EncodedData) (chain : ChainState)
      (before after : List ChainState) (outcome : GenerationOutcome) (trajectory : Trajectory)
      (hreuse : Reuses C sys.session request encoded chain)
      (hfull : encoded.capacityExhausted = true)
      (hsplit : sys.session.activeChains = before ++ chain :: after)
      (hstart : encoded.rollbackApplied = true → chain.lastAssistantStart.responseIdsLen ≠ 0)
      (hbuild : buildMaterializedTrajectory (GatewaySession.chainToMaterialize chain encoded)
        (some "max_trajectory_length") = .ok trajectory) :
      Effect C sys (.request request)
        { sys with
          session := { sys.session.recordRollbackStats encoded with
            orderSeq := sys.session.orderSeq + 1
            materializedChains := sys.session.materializedChains ++
              [⟨trajectory, sys.session.orderSeq + 1⟩]
            activeChains := before ++ after }
          nextRequestId := sys.nextRequestId + 1
          ledger := sys.ledger.close chain.chainId encoded.rollbackApplied
          finished := sys.finished ++ [(sys.nextRequestId, .ok outcome)] }
  | closeFailed (request : InternalGenerationRequest) (encoded : EncodedData) (chain : ChainState)
      (error : PyError) (hreuse : Reuses C sys.session request encoded chain)
      (hfull : encoded.capacityExhausted = true)
      (hstart : encoded.rollbackApplied = true → chain.lastAssistantStart.responseIdsLen ≠ 0)
      (hbuild : buildMaterializedTrajectory (GatewaySession.chainToMaterialize chain encoded)
        (some "max_trajectory_length") = .error error) :
      Effect C sys (.request request)
        { sys with
          session := { sys.session with orderSeq := sys.session.orderSeq + 1 }
          nextRequestId := sys.nextRequestId + 1
          finished := sys.finished ++ [(sys.nextRequestId, .error error)] }
  | finalized (built : List MaterializedChain) (hactive : sys.session.phase = .active)
      (hbuilt : List.Forall₂ (fun chain m =>
        buildMaterializedTrajectory chain none = .ok m.trajectory ∧
          m.orderSeq = chain.updatedSeq) sys.session.activeChains built) :
      Effect C sys .finalize
        { sys with
          session := { sys.session with
            materializedChains := sys.session.materializedChains ++ built
            activeChains := []
            reservedChainIds := []
            phase := .finalized }
          ledger := sys.ledger.closeAll (sys.session.activeChains.map ChainState.chainId) }
  | finalizeFailed (front back : List ChainState) (chain : ChainState) (error : PyError)
      (built : List MaterializedChain) (hactive : sys.session.phase = .active)
      (hsplit : sys.session.activeChains = front ++ chain :: back)
      (hbuilt : List.Forall₂ (fun chain m =>
        buildMaterializedTrajectory chain none = .ok m.trajectory ∧
          m.orderSeq = chain.updatedSeq) front built)
      (hbuild : buildMaterializedTrajectory chain none = .error error) :
      Effect C sys .finalize
        { sys with session := { sys.session with
            materializedChains := sys.session.materializedChains ++ built } }
  | aborted (hactive : sys.session.phase = .active) :
      Effect C sys .abort
        { sys with session := { sys.session with
            phase := .aborted
            activeChains := []
            materializedChains := []
            reservedChainIds := [] } }

/-! ## Each action has one of the effects -/

section StepEffect

variable {C : MessageCodec} {sys : System}

/-- A request that was never in flight leaves only its result. -/
theorem finish_new (hco : Coherent C sys) :
    sys.inFlight.filter (fun f => f.requestId != sys.nextRequestId) = sys.inFlight := by
  rw [List.filter_eq_self]
  intro f hf
  have := hco.requestIds_lt f hf
  simp only [bne_iff_ne, ne_eq]
  omega

theorem mem_of_find {requestId : Nat} {f : InFlight} (h : sys.find requestId = some f) :
    f ∈ sys.inFlight ∧ f.requestId = requestId := by
  unfold System.find at h
  exact ⟨List.mem_of_find?_eq_some h, by simpa using List.find?_some h⟩

theorem find_active (hco : Coherent C sys) {chain : ChainState}
    (h : chain ∈ sys.session.activeChains) :
    sys.session.activeChains.find? (fun c => c.chainId == chain.chainId) = some chain := by
  obtain ⟨before, after, hsplit⟩ := List.append_of_mem h
  rw [List.find?_eq_some_iff_append]
  refine ⟨by simp, before, after, hsplit, ?_⟩
  intro c hc
  have hnodup := hco.chainIds_nodup
  rw [hsplit, List.map_append, List.nodup_append] at hnodup
  simp only [Bool.not_eq_true', beq_eq_false_iff_ne]
  intro heq
  exact hnodup.2.2 _ (List.mem_map_of_mem hc) chain.chainId (by simp) heq

theorem closure_effect (hco : Coherent C sys) {request : InternalGenerationRequest}
    {encoded : EncodedData} {chain : ChainState}
    (hreuse : Reuses C sys.session request encoded chain)
    (hfull : encoded.capacityExhausted = true) :
    Effect C sys (.request request) (sys.beginRequest C request) := by
  have hmem := (eligible_of_selectChain hreuse.select).1
  obtain ⟨before, after, hsplit, hfind⟩ :=
    GatewaySession.findActiveChain_split hco.chainIds_nodup hmem
  unfold System.beginRequest GatewaySession.firstSection
  simp only [hreuse.active, ne_eq, not_true_eq_false, if_false, hreuse.prepared, hfull,
    hreuse.chainId]
  by_cases hdrop : encoded.rollbackApplied = true ∧ chain.lastAssistantStart.responseIdsLen = 0
  · obtain ⟨hrollback, hstart⟩ := hdrop
    rw [GatewaySession.closeLengthExhaustedChain_drop hreuse.chainId hsplit hfind hrollback hstart]
    simp only [System.finish, System.closureLedger, hreuse.chainId, finish_new hco]
    rw [if_pos (congrArg List.length (GatewaySession.recordRollbackStats_materialized _ _))]
    exact .dropped request encoded chain before after _ hreuse hfull hsplit hrollback hstart
  · have hstart : encoded.rollbackApplied = true →
        chain.lastAssistantStart.responseIdsLen ≠ 0 := fun h h' => hdrop ⟨h, h'⟩
    cases hbuild : buildMaterializedTrajectory
        (GatewaySession.chainToMaterialize chain encoded) (some "max_trajectory_length") with
    | error e =>
      rw [GatewaySession.closeLengthExhaustedChain_fail hreuse.chainId hfind hstart hbuild]
      simp only [System.finish, finish_new hco]
      exact .closeFailed request encoded chain e hreuse hfull hstart hbuild
    | ok trajectory =>
      rw [GatewaySession.closeLengthExhaustedChain_close hreuse.chainId hsplit hfind hstart hbuild]
      simp only [System.finish, System.closureLedger, hreuse.chainId, List.length_append,
        List.length_cons, List.length_nil, finish_new hco]
      rw [if_neg (by omega)]
      exact .closed request encoded chain before after _ trajectory hreuse hfull hsplit hstart
        hbuild

theorem request_effect (hco : Coherent C sys) (request : InternalGenerationRequest) :
    Effect C sys (.request request) (sys.beginRequest C request) := by
  by_cases hactive : sys.session.phase = .active
  · cases hprep : sys.session.prepareGenerationInputs C request with
    | error e =>
      unfold System.beginRequest GatewaySession.firstSection
      simp only [hactive, ne_eq, not_true_eq_false, if_false, hprep, System.finish, finish_new hco]
      exact .idle _ _ _ _ (.refl _) rfl (Nat.le_succ _)
    | ok encoded =>
      obtain ⟨chosen, hchosen⟩ := prepare_chosen hprep
      cases hchosen with
      | fresh hselect hchain hrollback =>
        unfold System.beginRequest GatewaySession.firstSection
        simp only [hactive, ne_eq, not_true_eq_false, if_false, hprep, hchain]
        cases hroom : encoded.capacityExhausted with
        | true =>
          simp only [System.finish, System.closureLedger, hchain, finish_new hco]
          exact .idle _ _ _ _ (.refl _) rfl (Nat.le_succ _)
        | false =>
          simp only [hchain, Option.bind_none]
          exact .preparedFresh request encoded hactive hprep hselect hchain hrollback hroom
      | reused chain rollback hselect hchain hrollback =>
        have hreuse : Reuses C sys.session request encoded chain :=
          ⟨hactive, hprep, hrollback ▸ hselect, hchain⟩
        cases hroom : encoded.capacityExhausted with
        | true => exact closure_effect hco hreuse hroom
        | false =>
          unfold System.beginRequest GatewaySession.firstSection
          simp only [hactive, ne_eq, not_true_eq_false, if_false, hprep, hchain, hroom,
            Option.bind_some, find_active hco (eligible_of_selectChain hselect).1]
          exact .preparedReuse request encoded chain hreuse hroom
  · unfold System.beginRequest GatewaySession.firstSection
    simp only [ne_eq, hactive, not_false_eq_true, if_true, System.finish, finish_new hco]
    exact .idle _ _ _ _ (.refl _) rfl (Nat.le_succ _)

theorem fail_effect {f : InFlight} (hmem : f ∈ sys.inFlight) (a : Action) (error : PyError) :
    Effect C sys a (sys.fail f error) := by
  unfold System.fail
  cases hchain : f.encoded.chainId with
  | none => exact .left a f error hmem hchain
  | some id => exact .failed a f error hmem (by simp [hchain])

/-- How the second section can end for a request in flight: it raises and changes nothing, or
it commits to a new chain, or it commits to the chain that the request reserved, which is
found. -/
inductive SecondSection (C : MessageCodec) (sys : System) (f : InFlight) (output : TokenOutput)
    (callIds : Nat → String) : Except PyError GenerationOutcome × GatewaySession → Prop
  | raised (error : PyError) : SecondSection C sys f output callIds (.error error, sys.session)
  | committedNew (assistantMsg : Message) (start : LastAssistantStart)
      (outcome : GenerationOutcome) (hcommits : Commits C sys f output callIds assistantMsg start)
      (hchosen : f.preparedChain = none) (hchain : f.encoded.chainId = none)
      (hrollback : f.encoded.rollbackApplied = false) :
      SecondSection C sys f output callIds (.ok outcome, { sys.session with
        orderSeq := sys.session.orderSeq + 1
        nextChainId := sys.session.nextChainId + 1
        activeChains := sys.session.activeChains ++
          [GatewaySession.committedChain C f.encoded assistantMsg start sys.session.nextChainId
            (sys.session.orderSeq + 1)] })
  | committedReuse (assistantMsg : Message) (start : LastAssistantStart)
      (outcome : GenerationOutcome) (before after : List ChainState) (chain : ChainState)
      (hcommits : Commits C sys f output callIds assistantMsg start)
      (hchosen : f.preparedChain = some chain)
      (hchain : f.encoded.chainId = some chain.chainId)
      (hsplit : sys.session.activeChains = before ++ chain :: after) :
      SecondSection C sys f output callIds
        (.ok outcome, { sys.session.recordRollbackStats f.encoded with
          orderSeq := sys.session.orderSeq + 1
          reservedChainIds := sys.session.reservedChainIds.filter (· != chain.chainId)
          activeChains := before ++ GatewaySession.committedChain C f.encoded assistantMsg start
            chain.chainId (sys.session.orderSeq + 1) :: after })

theorem secondSection_spec (hco : Coherent C sys) {f : InFlight} {output : TokenOutput}
    (hmem : f ∈ sys.inFlight) (hstage : f.stage = .generated output) (callIds : Nat → String) :
    SecondSection C sys f output callIds
      (sys.session.secondSection C f.encoded output callIds) := by
  have hsound := hco.sound f hmem
  unfold GatewaySession.secondSection
  by_cases hactive : sys.session.phase = .active
  · simp only [hactive, ne_eq, not_true_eq_false, if_false]
    cases hdecode : C.decodeResponse output.tokenIds f.encoded.tools output.stopReason callIds with
    | error e => exact .raised e
    | ok decoded =>
      obtain ⟨assistantMsg, reason⟩ := decoded
      obtain ⟨start, hstart⟩ := Option.isSome_iff_exists.mp hsound.start
      have hcommits : Commits C sys f output callIds assistantMsg start :=
        ⟨hactive, hmem, hstage, ⟨reason, hdecode⟩, hstart⟩
      have hlen : (C.extendMessagePrefixHashes f.encoded.incomingMessagePrefixHashes
          [assistantMsg]).length = (f.encoded.messages ++ [assistantMsg]).length := by
        rw [hsound.hashes, C.extendMessagePrefixHashes_eq, C.extendMessagePrefixHashes_eq]
        simp
      unfold GatewaySession.commitGenerationToChain
      simp only [hlen, ne_eq, not_true_eq_false, if_false, hstart]
      cases hchosen : f.preparedChain with
      | none =>
        have hchain : f.encoded.chainId = none := by
          rw [hsound.chainId, hchosen]
          rfl
        have hroll := hsound.rollback hchosen
        have hrecord : sys.session.recordRollbackStats f.encoded = sys.session := by
          unfold GatewaySession.recordRollbackStats
          simp [hroll]
        simp only [hchain, hrecord]
        exact .committedNew assistantMsg start _ hcommits hchosen hchain hroll
      | some chain =>
        have hchain : f.encoded.chainId = some chain.chainId := by
          rw [hsound.chainId, hchosen]
          rfl
        obtain ⟨before, after, hsplit, hfind⟩ := GatewaySession.findActiveChain_split
          hco.chainIds_nodup (hco.reserved hactive f hmem chain hchosen).2
        have hfind' : (sys.session.recordRollbackStats f.encoded).findActiveChain chain.chainId =
            .ok (before.length, chain) := by
          unfold GatewaySession.findActiveChain at hfind ⊢
          simpa using hfind
        simp only [hchain, hfind', GatewaySession.releaseChainReservation,
          GatewaySession.recordRollbackStats_active, GatewaySession.recordRollbackStats_reserved,
          GatewaySession.recordRollbackStats_orderSeq, hsplit,
          List.set_append_right _ _ (Nat.le_refl _), Nat.sub_self, List.set_cons_zero]
        exact .committedReuse assistantMsg start _ before after chain hcommits hchosen hchain
          hsplit
  · simp only [ne_eq, hactive, not_false_eq_true, if_true]
    exact .raised _

theorem commit_effect (hco : Coherent C sys) {f : InFlight} {output : TokenOutput}
    (hmem : f ∈ sys.inFlight) (hstage : f.stage = .generated output) (callIds : Nat → String) :
    Effect C sys (.commit f.requestId callIds) (sys.commitRequest C f output callIds) := by
  have hspec := secondSection_spec hco hmem hstage callIds
  unfold System.commitRequest
  revert hspec
  generalize sys.session.secondSection C f.encoded output callIds = result
  intro hspec
  cases hspec with
  | raised error => exact fail_effect hmem _ error
  | committedNew assistantMsg start outcome hcommits hchosen hchain hrollback =>
    simp only [hchain, Option.getD_none, hrollback]
    exact .committedNew f output callIds assistantMsg start outcome hcommits hchosen
  | committedReuse assistantMsg start outcome before after chain hcommits hchosen hchain hsplit =>
    simp only [hchain, Option.getD_some]
    exact .committedReuse f output callIds assistantMsg start outcome before after chain hcommits
      hchosen hsplit

theorem finalize_effect {t : System}
    (h : sys.step C .finalize = some t) : Effect C sys .finalize t := by
  unfold System.step GatewaySession.finalize at h
  cases hphase : sys.session.phase with
  | aborted =>
    simp only [hphase, if_true] at h
    cases h
    exact .idle _ _ _ _ (.refl _) rfl (Nat.le_refl _)
  | finalized =>
    simp only [hphase, reduceCtorEq, if_false, if_true] at h
    cases h
    exact .idle _ _ _ _ (.refl _) rfl (Nat.le_refl _)
  | active =>
    simp only [hphase, reduceCtorEq, if_false] at h
    obtain ⟨front, built, hmat, hbuilt, hend⟩ := GatewaySession.materializeEach_spec
      sys.session.activeChains sys.session.materializedChains
    unfold GatewaySession.materializeActiveChains at h
    rcases hres : GatewaySession.materializeEach sys.session.activeChains
      sys.session.materializedChains with ⟨result, materialized⟩
    rw [hres] at hmat hend
    simp only at hmat hend
    subst hmat
    rcases hend with ⟨rfl, rfl⟩ | ⟨e, chain, back, rfl, hsplit, hbuild⟩
    · simp only [hres] at h
      cases h
      exact .finalized built hphase hbuilt
    · simp only [hres] at h
      cases h
      exact .finalizeFailed front back chain e built hphase hsplit hbuilt hbuild

/-- Every action that is enabled has one of the listed effects. -/
theorem step_effect (hco : Coherent C sys) {a : Action} {t : System}
    (h : sys.step C a = some t) : Effect C sys a t := by
  cases a with
  | request request =>
    cases h
    exact request_effect hco request
  | cancelEarly =>
    simp only [System.step, System.finish, finish_new hco, Option.some.injEq] at h
    subst h
    exact .idle _ _ _ _ (.refl _) rfl (Nat.le_succ _)
  | backendReturns requestId output =>
    simp only [System.step] at h
    split at h
    · rename_i id request encoded chosen hfind
      obtain ⟨hmem, rfl⟩ := mem_of_find hfind
      split at h
      · cases h
        exact fail_effect hmem _ _
      · rename_i absorbed habsorb
        cases h
        exact .absorbed _ output absorbed hmem rfl habsorb
    · cases h
  | backendRaises requestId error =>
    simp only [System.step] at h
    split at h
    · rename_i id request encoded chosen hfind
      obtain ⟨hmem, rfl⟩ := mem_of_find hfind
      cases h
      exact fail_effect hmem _ _
    · cases h
  | commit requestId callIds =>
    simp only [System.step] at h
    split at h
    · rename_i id request encoded chosen output hfind
      obtain ⟨hmem, rfl⟩ := mem_of_find hfind
      cases h
      exact commit_effect hco hmem rfl callIds
    · cases h
  | cancel requestId =>
    simp only [System.step] at h
    split at h
    · rename_i f hfind
      split at h
      · cases h
      · cases h
        exact fail_effect (mem_of_find hfind).1 _ _
    · cases h
  | release requestId =>
    simp only [System.step] at h
    split at h
    · rename_i id request encoded chosen error hfind
      obtain ⟨hmem, rfl⟩ := mem_of_find hfind
      split at h
      · rename_i chainId hchain
        cases h
        exact .released _ error chainId hmem rfl hchain
      · cases h
    · cases h
  | setRewardInfo rewardInfo =>
    cases h
    refine .idle _ _ _ _ ?_ ?_ (Nat.le_refl _)
    · unfold GatewaySession.setRewardInfo
      split
      · exact .refl _
      · cases rewardInfo
        · exact .refl _
        · constructor <;> rfl
    · unfold GatewaySession.setRewardInfo
      split
      · rfl
      · cases rewardInfo <;> rfl
  | finalize => exact finalize_effect h
  | abort =>
    cases h
    unfold GatewaySession.abort
    cases hphase : sys.session.phase with
    | aborted => exact .idle _ _ _ _ (.refl _) rfl (Nat.le_refl _)
    | finalized => exact .idle _ _ _ _ (.refl _) rfl (Nat.le_refl _)
    | active => exact .aborted hphase

end StepEffect

end uni_agent.session
