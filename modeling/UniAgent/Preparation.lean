-- What `_prepare_generation_inputs` gives when it returns. The inputs are those of a new
-- chain, of a whole chain with the new messages behind it, or of a chain without its last
-- assistant with the new messages behind what is left.
import UniAgent.Selection

namespace uni_agent.session

/-! ## Results that are there -/

/-- No stored logprobs, or one for each response token. -/
def TrajectoryBuffer.Aligned (buffer : TrajectoryBuffer) : Prop :=
  buffer.responseLogprobs.length = 0 ∨
    buffer.responseLogprobs.length = buffer.responseIds.length

theorem assertResponseLogprobAlignment_eq_ok {buffer : TrajectoryBuffer} {u : Unit} :
    assertResponseLogprobAlignment buffer = .ok u ↔ buffer.Aligned := by
  unfold assertResponseLogprobAlignment TrajectoryBuffer.Aligned
  rw [pyAssert_eq_ok]
  simp

/-! ## Slices -/

section Slices

variable {α : Type}

theorem sliceFrom_eq_iff {xs ending : List α} :
    sliceFrom xs ((xs.length : Int) - ending.length) = ending ↔ ending <:+ xs := by
  unfold sliceFrom sliceStart
  by_cases hlen : ending.length ≤ xs.length
  · rw [if_neg (by omega), List.suffix_iff_eq_drop,
      show min ((xs.length : Int) - ending.length).toNat xs.length = xs.length - ending.length by
        omega]
    exact eq_comm
  · refine ⟨?_, ?_⟩
    · intro h
      rw [← h]
      exact List.drop_suffix _ _
    · intro h
      exact absurd h.length_le hlen

theorem delFrom_append (xs ending : List α) :
    delFrom (xs ++ ending) (((xs ++ ending).length : Int) - ending.length) = xs := by
  unfold delFrom sliceStart
  rw [if_neg (by simp), List.length_append]
  rw [show min ((xs.length + ending.length : Nat) - (ending.length : Int)).toNat
    (xs.length + ending.length) = xs.length by omega]
  exact List.take_left

theorem delFrom_eq_take (xs : List α) (n : Nat) : delFrom xs n = xs.take n := by
  unfold delFrom sliceStart
  rw [if_neg (by omega), Int.toNat_natCast, ← List.take_take, List.take_length]

end Slices

/-! ## The rollback of a buffer -/

/-- What a rollback leaves of a chain's buffer. The assistant prefix goes from the end of the
prompt when the last assistant was the first, and from the end of the response otherwise. -/
inductive RolledBack (C : MessageCodec) (chain : ChainState) : TrajectoryBuffer → Prop
  | intoPrompt (promptIds : List Token) (hstart : chain.lastAssistantStart.responseIdsLen = 0)
      (hprompt : chain.buffer.promptIds = promptIds ++ C.assistantPrefix) :
      RolledBack C chain
        { chain.buffer with
          promptIds
          responseIds := []
          responseMask := []
          responseLogprobs := []
          generationVersions := chain.buffer.generationVersions.dropLast }
  | intoResponse (responseIds : List Token)
      (hstart : chain.lastAssistantStart.responseIdsLen ≠ 0)
      (hresponse : chain.buffer.responseIds.take chain.lastAssistantStart.responseIdsLen =
        responseIds ++ C.assistantPrefix) :
      RolledBack C chain
        { chain.buffer with
          responseIds
          responseMask := chain.buffer.responseMask.take responseIds.length
          responseLogprobs := chain.buffer.responseLogprobs.take responseIds.length
          generationVersions := chain.buffer.generationVersions.dropLast }

/-- The tokens that a rollback looks at, when the response before the last assistant has the
given length. -/
def TrajectoryBuffer.storedIds (buffer : TrajectoryBuffer) (responseIdsLen : Nat) : List Token :=
  if responseIdsLen = 0 then buffer.promptIds else buffer.responseIds.take responseIdsLen

/-- The tokens before the last assistant. -/
def ChainState.storedIds (chain : ChainState) : List Token :=
  chain.buffer.storedIds chain.lastAssistantStart.responseIdsLen

/-- A rollback goes through exactly when the tokens before the last assistant end with the
assistant prefix, up to the alignment of the logprobs. -/
theorem rollbackBuffer_eq_ok {C : MessageCodec} {chain : ChainState} {b : TrajectoryBuffer} :
    rollbackBuffer C chain = .ok b ↔ RolledBack C chain b ∧ b.Aligned := by
  unfold rollbackBuffer
  by_cases hstart : chain.lastAssistantStart.responseIdsLen = 0
  · simp only [hstart, if_true, List.take_zero]
    by_cases hends : C.assistantPrefix <:+ chain.buffer.promptIds
    · obtain ⟨rest, hrest⟩ := hends
      rw [if_neg (by rw [not_not, sliceFrom_eq_iff, ← hrest]; exact List.suffix_append _ _)]
      simp only [bind_eq_ok, assertResponseLogprobAlignment_eq_ok, ← hrest, delFrom_append]
      refine ⟨?_, ?_⟩
      · rintro ⟨a, ha, hb⟩
        cases hb
        exact ⟨.intoPrompt rest hstart hrest.symm, ha⟩
      · rintro ⟨h, hal⟩
        cases h with
        | intoPrompt promptIds _ hprompt =>
          obtain rfl : rest = promptIds := List.append_cancel_right (hrest.trans hprompt)
          exact ⟨(), hal, rfl⟩
        | intoResponse _ hne _ => exact absurd hstart hne
    · rw [if_pos (by rw [ne_eq, sliceFrom_eq_iff]; exact hends)]
      refine ⟨?_, ?_⟩
      · intro h
        cases h
      · rintro ⟨h, _⟩
        cases h with
        | intoPrompt promptIds _ hprompt =>
          exact absurd ⟨promptIds, hprompt.symm⟩ hends
        | intoResponse _ hne _ => exact absurd hstart hne
  · simp only [hstart, if_false]
    generalize hstored :
      chain.buffer.responseIds.take chain.lastAssistantStart.responseIdsLen = stored
    by_cases hends : C.assistantPrefix <:+ stored
    · obtain ⟨rest, hrest⟩ := hends
      have hle : rest.length ≤ chain.lastAssistantStart.responseIdsLen := by
        have hlen := congrArg List.length (hrest.trans hstored.symm)
        simp only [List.length_append, List.length_take] at hlen
        omega
      have hcut : ((stored.length : Int) - C.assistantPrefix.length) = rest.length := by
        rw [← hrest]
        simp
      rw [if_neg (by rw [not_not, sliceFrom_eq_iff, ← hrest]; exact List.suffix_append _ _), hcut]
      simp only [bind_eq_ok, assertResponseLogprobAlignment_eq_ok, delFrom_eq_take, List.take_take,
        min_eq_left hle]
      rw [show stored.take rest.length = rest by rw [← hrest]; exact List.take_left]
      refine ⟨?_, ?_⟩
      · rintro ⟨a, ha, hb⟩
        cases hb
        exact ⟨.intoResponse rest hstart (hstored.trans hrest.symm), ha⟩
      · rintro ⟨h, hal⟩
        cases h with
        | intoPrompt _ hz _ => exact absurd hz hstart
        | intoResponse responseIds _ hresponse =>
          obtain rfl : rest = responseIds :=
            List.append_cancel_right ((hrest.trans hstored.symm).trans hresponse)
          exact ⟨(), hal, rfl⟩
    · rw [if_pos (by rw [ne_eq, sliceFrom_eq_iff]; exact hends)]
      refine ⟨?_, ?_⟩
      · intro h
        cases h
      · rintro ⟨h, _⟩
        cases h with
        | intoPrompt _ hz _ => exact absurd hz hstart
        | intoResponse responseIds _ hresponse =>
          exact absurd ⟨responseIds, (hstored.symm.trans hresponse).symm⟩ hends

theorem RolledBack.suffix {C : MessageCodec} {chain : ChainState} {b : TrajectoryBuffer}
    (h : RolledBack C chain b) : C.assistantPrefix <:+ chain.storedIds := by
  unfold ChainState.storedIds TrajectoryBuffer.storedIds
  cases h with
  | intoPrompt promptIds hstart hprompt =>
    rw [if_pos hstart, hprompt]
    exact List.suffix_append _ _
  | intoResponse responseIds hstart hresponse =>
    rw [if_neg hstart, hresponse]
    exact List.suffix_append _ _

theorem exists_rolledBack {C : MessageCodec} {chain : ChainState}
    (h : C.assistantPrefix <:+ chain.storedIds) : ∃ b, RolledBack C chain b := by
  unfold ChainState.storedIds TrajectoryBuffer.storedIds at h
  obtain ⟨rest, hrest⟩ := h
  by_cases hstart : chain.lastAssistantStart.responseIdsLen = 0
  · rw [if_pos hstart] at hrest
    exact ⟨_, .intoPrompt rest hstart hrest.symm⟩
  · rw [if_neg hstart] at hrest
    exact ⟨_, .intoResponse rest hstart hrest.symm⟩

/-! ## The working copy of a chain -/

theorem truncateMedia_eq_ok {media kept : Option (List Media)} {n : Nat}
    (h : truncateMedia media n = .ok kept) : kept.getD [] = (media.getD []).take n := by
  unfold truncateMedia at h
  cases media with
  | none =>
    cases h
    simp
  | some items =>
    obtain ⟨_, _, h⟩ := bind_eq_ok.mp h
    by_cases hempty : (items.take n).isEmpty = true
    · simp only [hempty, if_true] at h
      cases h
      exact (List.isEmpty_iff.mp hempty).symm
    · simp only [hempty] at h
      cases h
      rfl

theorem exists_truncateMedia {media : Option (List Media)} {n : Nat}
    (h : n ≤ (media.getD []).length) : ∃ kept, truncateMedia media n = .ok kept := by
  unfold truncateMedia
  cases media with
  | none => exact ⟨none, rfl⟩
  | some items =>
    simp only [Option.getD_some] at h
    exact ⟨_, bind_eq_ok.mpr ⟨(), pyAssert_eq_ok.mpr (by simpa using h), rfl⟩⟩

/-- The working copy of a selected chain: the whole chain, or what a rollback leaves of it. -/
inductive Reused (C : MessageCodec) (chain : ChainState) : Bool → WorkingInputs → Prop
  | whole (haligned : chain.buffer.Aligned) :
      Reused C chain false
        { buffer := chain.buffer
          imageData := chain.imageData
          videoData := chain.videoData
          chainId := some chain.chainId }
  | rolledBack (buffer : TrajectoryBuffer) (imageData videoData : Option (List Media))
      (hbuffer : RolledBack C chain buffer) (haligned : buffer.Aligned)
      (haligned' : chain.buffer.Aligned)
      (hlen : chain.lastAssistantStart.responseIdsLen ≤ chain.buffer.responseIds.length)
      (himage : truncateMedia chain.imageData chain.lastAssistantStart.imageDataLen =
        .ok imageData)
      (hvideo : truncateMedia chain.videoData chain.lastAssistantStart.videoDataLen =
        .ok videoData) :
      Reused C chain true
        { buffer, imageData, videoData
          chainId := some chain.chainId
          rollbackApplied := true
          rollbackDroppedTrainableTokens :=
            (chain.buffer.responseMask.drop chain.lastAssistantStart.responseIdsLen).sum }

theorem reusedInputs_eq_ok {C : MessageCodec} {chain : ChainState} {rollback : Bool}
    {w : WorkingInputs} : reusedInputs C chain rollback = .ok w ↔ Reused C chain rollback w := by
  unfold reusedInputs
  cases rollback with
  | false =>
    simp only [bind_eq_ok, assertResponseLogprobAlignment_eq_ok, Bool.false_eq_true, if_false]
    refine ⟨?_, ?_⟩
    · rintro ⟨_, haligned, h⟩
      cases h
      exact .whole haligned
    · intro h
      cases h with
      | whole haligned => exact ⟨(), haligned, rfl⟩
  | true =>
    simp only [bind_eq_ok, assertResponseLogprobAlignment_eq_ok, pyAssert_eq_ok, if_true,
      rollbackBuffer_eq_ok]
    refine ⟨?_, ?_⟩
    · rintro ⟨_, haligned', _, hlen, images, himage, videos, hvideo, buffer, ⟨hb, haligned⟩, h⟩
      cases h
      exact .rolledBack buffer images videos hb haligned haligned' (by simpa using hlen) himage
        hvideo
    · intro h
      cases h with
      | rolledBack buffer images videos hb haligned haligned' hlen himage hvideo =>
        exact ⟨(), haligned', (), by simpa using hlen, images, himage, videos, hvideo, buffer,
          ⟨hb, haligned⟩, rfl⟩

theorem Reused.chainId_eq {C : MessageCodec} {chain : ChainState} {rollback : Bool}
    {w : WorkingInputs} (h : Reused C chain rollback w) : w.chainId = some chain.chainId := by
  cases h <;> rfl

theorem Reused.rollbackApplied_eq {C : MessageCodec} {chain : ChainState} {rollback : Bool}
    {w : WorkingInputs} (h : Reused C chain rollback w) : w.rollbackApplied = rollback := by
  cases h <;> rfl

theorem Reused.not_exhausted {C : MessageCodec} {chain : ChainState} {rollback : Bool}
    {w : WorkingInputs} (h : Reused C chain rollback w) : w.capacityExhausted = false := by
  cases h <;> rfl

/-! ## The new messages -/

/-- The tokens and the media of the new messages, when there is room to encode them. -/
inductive SuffixEncoded (C : MessageCodec) (suffix : List Message) :
    List Token → MediaLists → Prop
  | empty (hempty : suffix = []) : SuffixEncoded C suffix [] (none, none)
  | encoded (ids : List Token) (images videos : Option (List Media)) (hne : suffix ≠ [])
      (hmedia : C.extractMultiModalData suffix = .ok (images, videos))
      (hids : C.encodeIncremental suffix images videos = .ok ids) :
      SuffixEncoded C suffix ids (images, videos)

/-- The encoded suffix decides whether the capacity is reached. With room left, it is the
suffix of the request that was encoded. -/
theorem encodeSuffix_eq_ok {C : MessageCodec} {capacity : Option Nat} {suffix : List Message}
    {length : Nat} {exhausted : Bool} {ids : List Token} {images videos : Option (List Media)}
    (h : encodeSuffix C capacity suffix length = .ok (exhausted, ids, images, videos)) :
    exhausted = capacityReached capacity (length + ids.length) ∧
      ((ids = [] ∧ capacityReached capacity length = true) ∨
        SuffixEncoded C suffix ids (images, videos)) := by
  unfold encodeSuffix at h
  by_cases hskip : (suffix.isEmpty || capacityReached capacity length) = true
  · rw [if_pos hskip] at h
    simp only [Except.ok.injEq, Prod.mk.injEq] at h
    obtain ⟨hroom, rfl, rfl, rfl⟩ := h
    refine ⟨hroom.symm, ?_⟩
    rcases Bool.or_eq_true_iff.mp hskip with hempty | hfull
    · exact Or.inr (.empty (by simpa using hempty))
    · exact Or.inl ⟨rfl, hfull⟩
  · rw [if_neg hskip] at h
    simp only [bind_eq_ok] at h
    obtain ⟨⟨newImages, newVideos⟩, hmedia, newIds, hids, h⟩ := h
    simp only [pure, Except.pure, Except.ok.injEq, Prod.mk.injEq] at h
    obtain ⟨hroom, rfl, rfl, rfl⟩ := h
    refine ⟨hroom.symm, Or.inr (.encoded newIds newImages newVideos ?_ hmedia hids)⟩
    intro hnil
    simp [hnil] at hskip

/-! ## The prepared inputs -/

/-- The chain that a request selects, and whether its last assistant is rolled back. -/
def GatewaySession.selectionFor (C : MessageCodec) (s : GatewaySession)
    (request : InternalGenerationRequest) : Option (ChainState × Bool) :=
  s.selectChain request.tools (C.extendMessagePrefixHashes [] request.messages)

def TrajectoryBuffer.length (buffer : TrajectoryBuffer) : Nat :=
  buffer.promptIds.length + buffer.responseIds.length

def TrajectoryBuffer.tokens (buffer : TrajectoryBuffer) : List Token :=
  buffer.promptIds ++ buffer.responseIds

theorem TrajectoryBuffer.length_tokens (buffer : TrajectoryBuffer) :
    buffer.tokens.length = buffer.length := List.length_append

/-- The inputs of a request by the chain it selected. -/
inductive Works (C : MessageCodec) (s : GatewaySession) (request : InternalGenerationRequest) :
    WorkingInputs → Prop
  | fresh (images videos : Option (List Media)) (promptIds : List Token)
      (hselect : s.selectionFor C request = none)
      (hmedia : C.extractMultiModalData request.messages = .ok (images, videos))
      (hfull : C.encodeFull request.messages request.tools images videos = .ok promptIds) :
      Works C s request
        { buffer := { promptIds }
          imageData := images
          videoData := videos
          chainId := none
          capacityExhausted := capacityReached s.trajectoryCapacity promptIds.length }
  | exhausted (chain : ChainState) (rollback : Bool) (w : WorkingInputs) (ids : List Token)
      (hselect : s.selectionFor C request = some (chain, rollback))
      (hreused : Reused C chain rollback w)
      (hfull : capacityReached s.trajectoryCapacity (w.buffer.length + ids.length) = true) :
      Works C s request { w with capacityExhausted := true }
  | extended (chain : ChainState) (rollback : Bool) (w : WorkingInputs) (ids : List Token)
      (images videos : Option (List Media))
      (hselect : s.selectionFor C request = some (chain, rollback))
      (hreused : Reused C chain rollback w)
      (hsuffix : SuffixEncoded C (request.messages.drop (reusedHistoryLen chain rollback)) ids
        (images, videos))
      (hroom : capacityReached s.trajectoryCapacity (w.buffer.length + ids.length) = false)
      (haligned : (appendContext request.samplingParams.logprobs w.buffer ids).Aligned) :
      Works C s request
        { w with
          buffer := appendContext request.samplingParams.logprobs w.buffer ids
          imageData := extendMedia w.imageData images
          videoData := extendMedia w.videoData videos }

/-- The fields of the encoded data, from the working inputs. -/
structure PackedFrom (C : MessageCodec) (capacity : Option Nat)
    (request : InternalGenerationRequest) (w : WorkingInputs) (encoded : EncodedData) : Prop where
  buffer : encoded.buffer = w.buffer
  contextIds : encoded.contextIds = w.buffer.promptIds ++ w.buffer.responseIds
  messages : encoded.messages = request.messages
  tools : encoded.tools = request.tools
  imageData : encoded.imageData = w.imageData
  videoData : encoded.videoData = w.videoData
  exhausted : encoded.capacityExhausted = w.capacityExhausted
  chainId : encoded.chainId = w.chainId
  hashes : encoded.incomingMessagePrefixHashes = C.extendMessagePrefixHashes [] request.messages
  rollbackApplied : encoded.rollbackApplied = w.rollbackApplied
  dropped : encoded.rollbackDroppedTrainableTokens = w.rollbackDroppedTrainableTokens
  params : w.capacityExhausted = false → encoded.samplingParams =
    clampMaxTokens capacity encoded.contextIds.length request.samplingParams
  messages_ne : w.capacityExhausted = false → request.messages ≠ []
  start : w.capacityExhausted = false → encoded.lastAssistantStart =
    some (snapshotLastAssistantStart w.buffer request.messages.length w.imageData w.videoData
      (C.prefixHash request.messages))

theorem getLast?_prefixHashes {C : MessageCodec} {messages : List Message} {tipHash : String} :
    (C.extendMessagePrefixHashes [] messages).getLast? = some tipHash ↔
      messages ≠ [] ∧ tipHash = C.prefixHash messages := by
  rw [C.extendMessagePrefixHashes_eq]
  by_cases hne : messages = []
  · simp [hne, prefix_digests.extend]
  · rw [prefix_digests.getLast?_extend _ hne]
    simp only [hne, Option.some.injEq, ne_eq, not_false_eq_true, true_and]
    exact eq_comm

theorem finishPreparation_eq_ok {C : MessageCodec} {capacity : Option Nat}
    {request : InternalGenerationRequest} {w : WorkingInputs} {encoded : EncodedData}
    (h : finishPreparation capacity request (C.extendMessagePrefixHashes [] request.messages) w =
      .ok encoded) : PackedFrom C capacity request w encoded := by
  unfold finishPreparation at h
  by_cases hexhausted : w.capacityExhausted = true
  · simp only [hexhausted, if_true] at h
    cases h
    constructor <;> simp [hexhausted]
  · simp only [hexhausted, Bool.false_eq_true, if_false] at h
    cases hlast : (C.extendMessagePrefixHashes [] request.messages).getLast? with
    | none =>
      rw [hlast] at h
      cases h
    | some tipHash =>
      rw [hlast] at h
      cases h
      obtain ⟨hne, rfl⟩ := getLast?_prefixHashes.mp hlast
      constructor <;> simp_all

/-- The spec of `_prepare_generation_inputs` when it returns. -/
theorem prepare_eq_ok {C : MessageCodec} {s : GatewaySession} {request : InternalGenerationRequest}
    {encoded : EncodedData} (h : s.prepareGenerationInputs C request = .ok encoded) :
    ∃ w, Works C s request w ∧ PackedFrom C s.trajectoryCapacity request w encoded := by
  unfold GatewaySession.prepareGenerationInputs at h
  cases hselect : s.selectionFor C request with
  | none =>
    unfold GatewaySession.selectionFor at hselect
    simp only [hselect] at h
    obtain ⟨w, hw, h⟩ := bind_eq_ok.mp h
    refine ⟨w, ?_, finishPreparation_eq_ok h⟩
    unfold freshInputs at hw
    simp only [bind_eq_ok] at hw
    obtain ⟨⟨images, videos⟩, hmedia, promptIds, hfull, hw⟩ := hw
    cases hw
    exact .fresh images videos promptIds hselect hmedia hfull
  | some selected =>
    obtain ⟨chain, rollback⟩ := selected
    have hselect' := hselect
    unfold GatewaySession.selectionFor at hselect
    simp only [hselect] at h
    obtain ⟨w, hw, h⟩ := bind_eq_ok.mp h
    refine ⟨w, ?_, finishPreparation_eq_ok h⟩
    unfold continuedInputs at hw
    simp only [bind_eq_ok, reusedInputs_eq_ok] at hw
    obtain ⟨w', hreused, ⟨exhausted, ids, images, videos⟩, hsuffix, hw⟩ := hw
    obtain ⟨hexhausted, hcases⟩ := encodeSuffix_eq_ok hsuffix
    cases exhausted with
    | true =>
      simp only [if_true] at hw
      cases hw
      exact .exhausted chain rollback w' ids hselect' hreused hexhausted.symm
    | false =>
      simp only [Bool.false_eq_true, if_false, bind_eq_ok,
        assertResponseLogprobAlignment_eq_ok] at hw
      obtain ⟨_, haligned, hw⟩ := hw
      cases hw
      rcases hcases with ⟨rfl, hfull⟩ | hsuffix
      · exact absurd (hexhausted.trans hfull) (by simp)
      · exact .extended chain rollback w' ids images videos hselect' hreused hsuffix
          hexhausted.symm haligned

end uni_agent.session
