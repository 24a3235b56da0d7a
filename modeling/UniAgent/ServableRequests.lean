-- Which requests can be prepared. Over a codec that encodes every history, a request that starts
-- a chain always can. A request for which a chain is selected can not when the stored tokens of
-- the chain miss the assistant prefix that a rollback takes away, or when its new messages have
-- an assistant behind the first: the selection of a chain looks at neither.
import UniAgent.GenerationPrompts

namespace uni_agent.session

variable {C : MessageCodec} {s : GatewaySession} {request : InternalGenerationRequest}
  {chain : ChainState} {gens : List Generation} {flag : Bool}

/-! ## The logprobs of a session -/

/-- A session that asks for logprobs stores one for each response token, and else none. -/
def Recorded (flag : Bool) (buffer : TrajectoryBuffer) : Prop :=
  buffer.responseLogprobs.length = if flag then buffer.responseIds.length else 0

def recordedRule (flag : Bool) : ChainRule where
  chain := fun chain _ => Recorded flag chain.buffer
  ready := fun f _ => f.encoded.samplingParams.logprobs = flag ∧ Recorded flag f.encoded.buffer
  full := fun f _ => Recorded flag f.encoded.buffer
  closed := fun _ _ => True

theorem Recorded.aligned {buffer : TrajectoryBuffer} (h : Recorded flag buffer) :
    buffer.Aligned := by
  unfold Recorded at h
  cases flag with
  | false => exact Or.inl h
  | true => exact Or.inr h

theorem Recorded.appendContext {buffer : TrajectoryBuffer} (h : Recorded flag buffer)
    (ids : List Token) : Recorded flag (appendContext flag buffer ids) := by
  unfold Recorded at h ⊢
  cases flag with
  | false => simpa [uni_agent.session.appendContext] using h
  | true => simpa [uni_agent.session.appendContext] using h

theorem RolledBack.recorded {b : TrajectoryBuffer} (h : RolledBack C chain b)
    (hrecorded : Recorded flag chain.buffer) : Recorded flag b := by
  unfold Recorded at hrecorded ⊢
  cases h with
  | intoPrompt promptIds _ _ => simp
  | intoResponse responseIds _ hresponse =>
    have hlength := congrArg List.length hresponse
    rw [List.length_take, List.length_append] at hlength
    cases flag with
    | false => simp [List.length_eq_zero_iff.mp hrecorded]
    | true =>
      simp only [if_true] at hrecorded ⊢
      rw [List.length_take, hrecorded]
      omega

theorem Reused.recorded {rollback : Bool} {w : WorkingInputs} (h : Reused C chain rollback w)
    (hrecorded : Recorded flag chain.buffer) : Recorded flag w.buffer := by
  cases h with
  | whole _ => exact hrecorded
  | rolledBack buffer images videos hb _ _ _ _ _ => exact hb.recorded hrecorded

theorem recordedRule_kept : (recordedRule flag).Kept C (fun _ a => AsksFor flag a) := by
  constructor
  · intro sys request encoded hq _ hprep hselect hroom
    obtain ⟨promptIds, _, _, hbuffer, _⟩ := prepare_fresh hprep hselect
    refine ⟨(opened_of_prepare hprep hroom).logprobs.trans (hq request rfl), ?_⟩
    simp [Recorded, hbuffer]
  · intro sys request encoded chain gens hq hreuse hroom hchain
    obtain ⟨w, ids, images, videos, hextends, _⟩ := hreuse.extends hroom
    refine ⟨(opened_of_prepare hreuse.prepared hroom).logprobs.trans (hq request rfl), ?_⟩
    simp only [hextends.buffer, hq request rfl]
    exact (hextends.reused.recorded hchain).appendContext ids
  · intro sys f output encoded gens _ _ hready habsorb
    obtain ⟨hflag, hrecorded⟩ := hready
    obtain ⟨logProbs, rfl, _, hlog⟩ := absorbOutput_eq_ok habsorb
    change Recorded flag _
    unfold Recorded at hrecorded ⊢
    rw [hflag] at hlog
    rcases hlog with ⟨rfl, rfl⟩ | ⟨rfl, _, hlen⟩
    · simpa using hrecorded
    · simpa [hlen] using hrecorded
  · intro sys f output callIds assistantMsg start chainId orderSeq gens _ _ _ hfull
    exact hfull
  · intros
    trivial
  · intros
    trivial

/-! ## Codecs that encode what they can -/

/-- Every history can be encoded, new messages can unless an assistant stands behind the first
of them, and media can be taken out of all messages. -/
structure ReliableCodec (C : MessageCodec) : Prop where
  full : ∀ messages tools images videos, messages ≠ [] →
    ∃ ids, C.encodeFull messages tools images videos = .ok ids
  incremental : ∀ messages images videos, messages ≠ [] →
    (messages.drop 1).any Message.isAssistant = false →
      ∃ ids, C.encodeIncremental messages images videos = .ok ids
  media : ∀ messages, ∃ media, C.extractMultiModalData messages = .ok media

/-- What a request needs of the chain that is selected for it. -/
def GatewaySession.CanContinue (C : MessageCodec) (s : GatewaySession)
    (request : InternalGenerationRequest) : Prop :=
  ∀ chain rollback, s.selectionFor C request = some (chain, rollback) →
    (rollback = true → C.assistantPrefix <:+ chain.storedIds) ∧
    (capacityReached s.trajectoryCapacity (chain.keptTokens C rollback).length = true ∨
      ((request.messages.drop (reusedHistoryLen chain rollback)).drop 1).any
        Message.isAssistant = false)

/-- A chain can be reused as a whole, and rolled back where the assistant prefix is there. -/
theorem exists_reused (hshape : ChainShape C chain gens) (hrecorded : Recorded flag chain.buffer)
    (rollback : Bool) : (∃ w, Reused C chain rollback w) ↔
      (rollback = true → C.assistantPrefix <:+ chain.storedIds) := by
  cases rollback with
  | false => simpa using ⟨_, Reused.whole hrecorded.aligned⟩
  | true =>
    simp only [forall_const]
    refine ⟨?_, ?_⟩
    · rintro ⟨w, hreused⟩
      cases hreused with
      | rolledBack buffer images videos hb _ _ _ _ _ => exact hb.suffix
    · intro hsuffix
      obtain ⟨before, last, _, hboundary⟩ := hshape.history
      obtain ⟨b, hb⟩ := exists_rolledBack hsuffix
      obtain ⟨images, himages⟩ := exists_truncateMedia (le_of_eq hboundary.imageDataLen)
      obtain ⟨videos, hvideos⟩ := exists_truncateMedia (le_of_eq hboundary.videoDataLen)
      exact ⟨_, .rolledBack b images videos hb (hb.recorded hrecorded).aligned hrecorded.aligned
        hboundary.responseIdsLen himages hvideos⟩

/-- New messages are encoded unless an assistant stands behind the first, or there is no room
for them anyway. -/
theorem exists_encodeSuffix (hcodec : ReliableCodec C) (capacity : Option Nat)
    (suffix : List Message) (length : Nat) :
    (∃ r, encodeSuffix C capacity suffix length = .ok r) ↔
      (capacityReached capacity length = true ∨
        (suffix.drop 1).any Message.isAssistant = false) := by
  unfold encodeSuffix
  by_cases hempty : suffix = []
  · simp [hempty]
  · cases hfull : capacityReached capacity length with
    | true => simp
    | false =>
      rw [if_neg (by simpa using hempty)]
      obtain ⟨⟨images, videos⟩, hmedia⟩ := hcodec.media suffix
      simp only [Bool.false_eq_true, false_or, bind_eq_ok, hmedia]
      refine ⟨?_, ?_⟩
      · rintro ⟨r, media, hmedia', ids, hids, _⟩
        by_contra hlater
        rw [Bool.not_eq_false] at hlater
        rw [C.encodeIncremental_later_assistant hlater] at hids
        cases hids
      · intro hfirst
        obtain ⟨ids, hids⟩ := hcodec.incremental suffix images videos hempty hfirst
        exact ⟨_, _, rfl, ids, hids, rfl⟩

theorem exists_continuedInputs (hcodec : ReliableCodec C) (hshape : ChainShape C chain gens)
    (hrecorded : Recorded request.samplingParams.logprobs chain.buffer) (capacity : Option Nat)
    (rollback : Bool) : (∃ w, continuedInputs C capacity request chain rollback = .ok w) ↔
      (rollback = true → C.assistantPrefix <:+ chain.storedIds) ∧
      (capacityReached capacity (chain.keptTokens C rollback).length = true ∨
        ((request.messages.drop (reusedHistoryLen chain rollback)).drop 1).any
          Message.isAssistant = false) := by
  rw [← exists_reused hshape hrecorded rollback,
    ← exists_encodeSuffix hcodec capacity _ (chain.keptTokens C rollback).length]
  unfold continuedInputs
  simp only [bind_eq_ok, reusedInputs_eq_ok]
  refine ⟨?_, ?_⟩
  · rintro ⟨w', w, hreused, r, hsuffix, _⟩
    refine ⟨⟨w, hreused⟩, r, ?_⟩
    rw [← hreused.tokens, w.buffer.length_tokens]
    exact hsuffix
  · rintro ⟨⟨w, hreused⟩, ⟨exhausted, ids, images, videos⟩, hsuffix⟩
    rw [← hreused.tokens, w.buffer.length_tokens] at hsuffix
    cases exhausted with
    | true => exact ⟨_, w, hreused, _, hsuffix, rfl⟩
    | false =>
      have haligned := ((hreused.recorded hrecorded).appendContext ids).aligned
      exact ⟨_, w, hreused, _, hsuffix, bind_eq_ok.mpr
        ⟨(), assertResponseLogprobAlignment_eq_ok.mpr haligned, rfl⟩⟩

theorem exists_finishPreparation (capacity : Option Nat) (hne : request.messages ≠ [])
    (w : WorkingInputs) : ∃ encoded, finishPreparation capacity request
      (C.extendMessagePrefixHashes [] request.messages) w = .ok encoded := by
  unfold finishPreparation
  by_cases hexhausted : w.capacityExhausted = true
  · exact ⟨_, if_pos hexhausted⟩
  · rw [getLast?_prefixHashes.mpr ⟨hne, rfl⟩]
    exact ⟨_, if_neg hexhausted⟩

/-- Whatever inputs there are, they can be packed. -/
theorem exists_packed (capacity : Option Nat) (hne : request.messages ≠ [])
    (inputs : Except PyError WorkingInputs) :
    (∃ encoded, (inputs >>= finishPreparation capacity request
      (C.extendMessagePrefixHashes [] request.messages)) = .ok encoded) ↔
        ∃ w, inputs = .ok w := by
  simp only [bind_eq_ok]
  refine ⟨?_, ?_⟩
  · rintro ⟨encoded, w, hw, _⟩
    exact ⟨w, hw⟩
  · rintro ⟨w, hw⟩
    obtain ⟨encoded, hencoded⟩ := exists_finishPreparation capacity hne w
    exact ⟨encoded, w, hw, hencoded⟩

theorem exists_freshInputs (hcodec : ReliableCodec C) (capacity : Option Nat)
    {messages : List Message} (hne : messages ≠ []) (tools : Option (List Json)) :
    ∃ w, freshInputs C capacity messages tools = .ok w := by
  obtain ⟨⟨images, videos⟩, hmedia⟩ := hcodec.media messages
  obtain ⟨ids, hids⟩ := hcodec.full messages tools images videos hne
  unfold freshInputs
  simp only [hmedia, bind, Except.bind, hids]
  exact ⟨_, rfl⟩

/-! ## The law -/

/-- A request of a reachable session is prepared exactly when the chain that is selected for it,
if one is, can be continued. -/
theorem prepares_iff_can_continue (hcodec : ReliableCodec C) {sys : System} {sessionId : String}
    {promptLength responseLength : Option Int} {enable : Bool} {actions : List Action}
    (hnew : GatewaySession.create sessionId promptLength responseLength enable = .ok s)
    (hrun : runFrom C s actions = some sys) (hflags : ∀ a ∈ actions, AsksFor flag a)
    (hflag : request.samplingParams.logprobs = flag) (hne : request.messages ≠ []) :
    (∃ encoded, sys.session.prepareGenerationInputs C request = .ok encoded) ↔
      sys.session.CanContinue C request := by
  have hshapes := shape_run hnew hrun
  have hkept : (recordedRule flag).Kept C (fun _ a => AsksFor flag a) := recordedRule_kept
  have hrecorded := hkept.run hnew hrun (runs.meets_of_forall hflags)
  unfold GatewaySession.CanContinue GatewaySession.prepareGenerationInputs
  cases hselect : sys.session.selectionFor C request with
  | none =>
    have hselect' := hselect
    unfold GatewaySession.selectionFor at hselect'
    simp only [hselect']
    rw [exists_packed _ hne]
    simpa using exists_freshInputs hcodec _ hne _
  | some selected =>
    obtain ⟨chain, rollback⟩ := selected
    have hactive := (eligible_of_selectChain hselect).1
    have hchain := hrecorded.chains chain hactive
    rw [← hflag] at hchain
    have hselect' := hselect
    unfold GatewaySession.selectionFor at hselect'
    simp only [hselect']
    rw [exists_packed _ hne, exists_continuedInputs hcodec (hshapes.chains chain hactive) hchain]
    refine ⟨?_, ?_⟩
    · intro h c r heq
      cases heq
      exact h
    · intro h
      exact h chain rollback rfl

/-! ## Chains that can be rolled back -/

/-- Every request that continues a chain has new tokens. -/
def SendsNewTokens (C : MessageCodec) (sys : System) (a : Action) : Prop :=
  ∀ request chain rollback, a = .request request →
    sys.session.selectionFor C request = some (chain, rollback) →
      newTokens C (request.messages.drop (reusedHistoryLen chain rollback)) ≠ []

def prefixedRule (C : MessageCodec) : ChainRule where
  chain := fun chain _ => C.assistantPrefix <:+ chain.storedIds
  ready := fun f _ => Opened C f.request f.encoded ∧
    C.assistantPrefix <:+ f.encoded.buffer.storedIds f.encoded.buffer.responseIds.length
  full := fun f _ => ∀ start, f.encoded.lastAssistantStart = some start →
    C.assistantPrefix <:+ f.encoded.buffer.storedIds start.responseIdsLen
  closed := fun _ _ => True

theorem prefixedRule_kept (hends : EncodesTo C C.assistantPrefix) :
    (prefixedRule C).Kept C (SendsNewTokens C) := by
  constructor
  · intro sys request encoded _ _ hprep hselect hroom
    obtain ⟨promptIds, _, hfull, hbuffer, _⟩ := prepare_fresh hprep hselect
    have hopened := opened_of_prepare hprep hroom
    refine ⟨hopened, ?_⟩
    simpa [hbuffer, TrajectoryBuffer.storedIds] using
      hends.full _ _ _ _ _ hopened.nonempty hfull
  · intro sys request encoded chain gens hq hreuse hroom _
    obtain ⟨w, ids, images, videos, hextends, _⟩ := hreuse.extends hroom
    refine ⟨opened_of_prepare hreuse.prepared hroom, ?_⟩
    have hnew := hq request chain encoded.rollbackApplied rfl hreuse.select
    rw [hextends.suffix.newTokens_eq] at hnew
    have hpos : w.buffer.responseIds.length + ids.length ≠ 0 := by
      have := List.length_pos_iff.mpr hnew
      omega
    simp only [hextends.buffer, TrajectoryBuffer.storedIds, appendContext, List.length_append,
      if_neg hpos]
    rw [← List.length_append, List.take_length]
    exact (hextends.suffix.ends hends hnew).trans (List.suffix_append _ _)
  · intro sys f output encoded gens _ _ hready habsorb
    obtain ⟨hopened, hsuffix⟩ := hready
    obtain ⟨logProbs, rfl, _⟩ := absorbOutput_eq_ok habsorb
    intro start hstart
    rw [hopened.start] at hstart
    cases hstart
    simpa [TrajectoryBuffer.storedIds, snapshotLastAssistantStart] using hsuffix
  · intro sys f output callIds assistantMsg start chainId orderSeq gens _ hcommits _ hfull
    exact hfull start hcommits.start
  · intros
    trivial
  · intros
    trivial

/-- As long as no request repeats its chain without new tokens, every chain can be rolled
back. -/
theorem stored_ids_end_with_the_assistant_prefix (hends : EncodesTo C C.assistantPrefix)
    {sys : System} {sessionId : String} {promptLength responseLength : Option Int} {enable : Bool}
    {actions : List Action}
    (hnew : GatewaySession.create sessionId promptLength responseLength enable = .ok s)
    (hrun : runFrom C s actions = some sys)
    (hsends : runs.Meets (System.step C) (SendsNewTokens C) (System.initial s) actions) :
    ∀ chain ∈ sys.session.activeChains, C.assistantPrefix <:+ chain.storedIds :=
  ((prefixedRule_kept hends).run hnew hrun hsends).chains

/-! ## Two requests that a new chain could serve -/

theorem reliable_lineCodec : ReliableCodec lineCodec := by
  constructor
  · intro messages tools images videos _
    exact ⟨_, encodeFull_messageWise messages tools images videos⟩
  · intro messages images videos hne hfirst
    have hanchor : closedLine (contentText textAnchor.content) = "" ++ closeMark ++ "\n" := rfl
    exact ⟨_, encodeIncremental_messageWise hanchor (by decide) hne hfirst images videos⟩
  · intro messages
    exact ⟨_, ChatTemplate.extractMultiModalData_codec messages⟩

theorem prepares_iff_can_continue_afterReply :
    ∃ sys, runFrom lineCodec (openSession none) oneReply = some sys ∧
      (∃ encoded, sys.session.prepareGenerationInputs lineCodec (afterReply [say "user" "r"]) =
        .ok encoded) ∧
      sys.session.CanContinue lineCodec (afterReply [say "user" "r"]) := by
  have hfacts : (runFrom lineCodec (openSession none) oneReply).any (fun sys =>
      (sys.session.prepareGenerationInputs lineCodec
        (afterReply [say "user" "r"])).toOption.isSome) = true := by decide +kernel
  obtain ⟨sys, hrun, hfacts⟩ := (Option.any_eq_true _ _).mp hfacts
  have hprep : ∃ encoded, sys.session.prepareGenerationInputs lineCodec
      (afterReply [say "user" "r"]) = .ok encoded := by
    cases hp : sys.session.prepareGenerationInputs lineCodec (afterReply [say "user" "r"]) with
    | error e => simp [hp, Except.toOption] at hfacts
    | ok encoded => exact ⟨encoded, rfl⟩
  have hflags : ∀ a ∈ oneReply, AsksFor false a := asksFor_of_test (by decide)
  exact ⟨sys, hrun, hprep, (prepares_iff_can_continue reliable_lineCodec openSession_eq hrun
    hflags rfl (by simp [afterReply])).mp hprep⟩

/-- The reply to a repeated history, committed to its chain. -/
def repeatedReply : List Action :=
  oneReply ++ [.request (afterReply []), .backendReturns 1 { tokenIds := tokensOf "x" },
    .commit 1 (fun _ => "")]

/-- The message of the `ValueError` that preparation raises, if it raises one. -/
def preparationError (s : GatewaySession) (request : InternalGenerationRequest) : Option String :=
  match s.prepareGenerationInputs lineCodec request with
  | .error (.valueError message) => some message
  | _ => none

/-- The chain of a repeated history cannot be rolled back, and a chain cannot be continued over
a second assistant. -/
theorem reused_chain_rejects_servable_requests :
    (ReliableCodec lineCodec ∧ EncodesTo lineCodec lineCodec.assistantPrefix) ∧
    (∃ sys, runFrom lineCodec (openSession none) repeatedReply = some sys ∧
      preparationError sys.session (afterReply [say "assistant" "y", say "user" "r"]) =
        some "Stored trajectory does not end with the assistant prefix") ∧
    ∃ sys, runFrom lineCodec (openSession none) oneReply = some sys ∧
      preparationError sys.session
          (afterReply [say "user" "r", say "assistant" "y", say "user" "t"]) =
        some "An incremental assistant message may only appear first" := by
  refine ⟨⟨reliable_lineCodec, encodesTo_lineCodec⟩, ?_, ?_⟩
  · have hfacts : (runFrom lineCodec (openSession none) repeatedReply).any (fun sys =>
        preparationError sys.session (afterReply [say "assistant" "y", say "user" "r"]) ==
          some "Stored trajectory does not end with the assistant prefix") = true := by
      decide +kernel
    obtain ⟨sys, hrun, hfacts⟩ := (Option.any_eq_true _ _).mp hfacts
    exact ⟨sys, hrun, beq_iff_eq.mp hfacts⟩
  · have hfacts : (runFrom lineCodec (openSession none) oneReply).any (fun sys =>
        preparationError sys.session
            (afterReply [say "user" "r", say "assistant" "y", say "user" "t"]) ==
          some "An incremental assistant message may only appear first") = true := by
      decide +kernel
    obtain ⟨sys, hrun, hfacts⟩ := (Option.any_eq_true _ _).mp hfacts
    exact ⟨sys, hrun, beq_iff_eq.mp hfacts⟩

end uni_agent.session
