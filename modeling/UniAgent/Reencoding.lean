-- The incremental path and the encoding of whole requests. A chain keeps the tokens that it was
-- given and that were generated, puts separators between them, and takes the assistant prefix
-- back on a rollback. Over a template that works message by message, what reaches the backend is
-- the encoding of the whole request all the same.
import UniAgent.CanonicalCodec
import UniAgent.GenerationPrompts
import UniAgent.SiblingRollback
import UniAgent.TokenTruth

namespace uni_agent.session

/-! ## Message by message -/

/-- The parts of a template that works message by message: a head for the tools, and of each
message its tokens, whether its media can be read, and these media. -/
structure TemplateParts where
  head : Option (List Json) → List Token
  segment : Message → List Token
  readable : Message → Prop
  images : Message → List Media
  videos : Message → List Media

variable {C : MessageCodec} {T : TemplateParts} {s : GatewaySession}
  {request : InternalGenerationRequest} {chain : ChainState} {gens : List Generation}

/-- The codec encodes and extracts message by message. -/
structure MessageWise (C : MessageCodec) (T : TemplateParts) : Prop where
  full : ∀ messages tools images videos, messages ≠ [] →
    C.extractMultiModalData messages = .ok (images, videos) →
      C.encodeFull messages tools images videos =
        .ok (T.head tools ++ messages.flatMap T.segment ++ C.generationPrompt)
  incremental : ∀ messages images videos ids, messages ≠ [] →
    C.extractMultiModalData messages = .ok (images, videos) →
      C.encodeIncremental messages images videos = .ok ids →
        ids = C.turnSeparator ++ messages.flatMap T.segment ++ C.generationPrompt
  ends : ∀ m, C.turnSeparator <:+ T.segment m
  canonical : ∀ m m', C.canonicalJson m = C.canonicalJson m' → T.segment m = T.segment m'
  media : ∀ messages, (∀ m ∈ messages, T.readable m) → ∃ images videos,
    C.extractMultiModalData messages = .ok (images, videos) ∧
      images.getD [] = messages.flatMap T.images ∧ videos.getD [] = messages.flatMap T.videos
  readable : ∀ messages images videos,
    C.extractMultiModalData messages = .ok (images, videos) → ∀ m ∈ messages, T.readable m

/-- The session takes a message for another one with the same canonical form, and tools for
other ones that are equal to Python. The head and the media do not tell them apart either. -/
structure CanonicalParts (C : MessageCodec) (T : TemplateParts) : Prop where
  head : ∀ tools tools', toolsEq tools tools' = true → T.head tools = T.head tools'
  readable : ∀ m m', C.canonicalJson m = C.canonicalJson m' → T.readable m → T.readable m'
  images : ∀ m m', C.canonicalJson m = C.canonicalJson m' → T.images m = T.images m'
  videos : ∀ m m', C.canonicalJson m = C.canonicalJson m' → T.videos m = T.videos m'

/-- What an output is decoded to has the output as its tokens, between the generation prompt and
the separator. -/
def Decodes (C : MessageCodec) (T : TemplateParts) (output : TokenOutput) : Prop :=
  ∀ tools callIds m reason,
    C.decodeResponse output.tokenIds tools output.stopReason callIds = .ok (m, reason) →
      C.generationPrompt ++ output.tokenIds ++ C.turnSeparator = T.segment m

theorem MessageWise.extracted (hwise : MessageWise C T) {messages : List Message}
    {images videos : Option (List Media)}
    (h : C.extractMultiModalData messages = .ok (images, videos)) :
    (∀ m ∈ messages, T.readable m) ∧ images.getD [] = messages.flatMap T.images ∧
      videos.getD [] = messages.flatMap T.videos := by
  have hreadable := hwise.readable messages images videos h
  obtain ⟨images', videos', h', himages, hvideos⟩ := hwise.media messages hreadable
  rw [h] at h'
  cases h'
  exact ⟨hreadable, himages, hvideos⟩

/-- A reply has no media: its content is a text. -/
theorem extract_decoded {output : TokenOutput} {tools : Option (List Json)}
    {callIds : Nat → String} {m : Message} {reason : String}
    (h : C.decodeResponse output.tokenIds tools output.stopReason callIds = .ok (m, reason)) :
    C.extractMultiModalData [m] = .ok (none, none) := by
  have hcontent : ∃ text, m.content = .str text := by
    have htext : C.decodeText output.tokenIds output.stopReason = (m, reason) →
        ∃ text, m.content = .str text := by
      intro heq
      cases heq
      exact ⟨_, rfl⟩
    unfold MessageCodec.decodeResponse at h
    split at h
    · split at h
      · cases h
      · split at h
        · exact htext (Except.ok.inj h)
        · cases h
          exact ⟨_, rfl⟩
    · exact htext (Except.ok.inj h)
  obtain ⟨text, hcontent⟩ := hcontent
  unfold MessageCodec.extractMultiModalData Message.hasMediaBlock
  simp [hcontent]

/-! ## Tokens and media of a history -/

/-- Tokens and media of a history, as the template makes them. -/
structure Encodes (T : TemplateParts) (tools : Option (List Json)) (messages : List Message)
    (ids : List Token) (images videos : Option (List Media)) : Prop where
  ids : ids = T.head tools ++ messages.flatMap T.segment
  images : images.getD [] = messages.flatMap T.images
  videos : videos.getD [] = messages.flatMap T.videos
  readable : ∀ m ∈ messages, T.readable m

/-- The same with the generation prompt behind it. -/
def Prompted (C : MessageCodec) (T : TemplateParts) (tools : Option (List Json))
    (messages : List Message) (ids : List Token) (images videos : Option (List Media)) : Prop :=
  ∃ body, ids = body ++ C.generationPrompt ∧ Encodes T tools messages body images videos

theorem flatMap_eq_of_map_eq {α β κ : Type} {f : α → List β} {key : α → κ}
    (hf : ∀ x y, key x = key y → f x = f y) {xs ys : List α} (h : xs.map key = ys.map key) :
    xs.flatMap f = ys.flatMap f := by
  have hpairs := prefix_digests.forall₂_of_map_eq h
  clear h
  induction hpairs with
  | nil => rfl
  | cons hkey _ ih => rw [List.flatMap_cons, List.flatMap_cons, hf _ _ hkey, ih]

section Encodes

variable {tools tools' : Option (List Json)} {messages messages' : List Message}
  {ids : List Token} {images videos : Option (List Media)}

/-- A history that the session takes for another one has the same tokens and media. -/
theorem Encodes.congr (h : Encodes T tools messages ids images videos) (hwise : MessageWise C T)
    (hparts : CanonicalParts C T) (htools : toolsEq tools tools' = true)
    (hmessages : messages.map C.canonicalJson = messages'.map C.canonicalJson) :
    Encodes T tools' messages' ids images videos := by
  constructor
  · rw [h.ids, hparts.head _ _ htools, flatMap_eq_of_map_eq hwise.canonical hmessages]
  · rw [h.images, flatMap_eq_of_map_eq hparts.images hmessages]
  · rw [h.videos, flatMap_eq_of_map_eq hparts.videos hmessages]
  · intro m' hm'
    have hmem : C.canonicalJson m' ∈ messages.map C.canonicalJson := by
      rw [hmessages]
      exact List.mem_map_of_mem hm'
    obtain ⟨m, hm, heq⟩ := List.mem_map.mp hmem
    exact hparts.readable m m' heq (h.readable m hm)

theorem getD_extendMedia (media new : Option (List Media)) :
    (extendMedia media new).getD [] = media.getD [] ++ new.getD [] := by
  cases new with
  | none => simp [extendMedia]
  | some items =>
    cases items with
    | nil => simp [extendMedia]
    | cons x rest => simp [extendMedia]

theorem Encodes.append (h : Encodes T tools messages ids images videos)
    (hwise : MessageWise C T) {suffix : List Message} {images' videos' : Option (List Media)}
    (hmedia : C.extractMultiModalData suffix = .ok (images', videos')) :
    Encodes T tools (messages ++ suffix) (ids ++ suffix.flatMap T.segment)
      (extendMedia images images') (extendMedia videos videos') := by
  obtain ⟨hreadable, himages, hvideos⟩ := hwise.extracted hmedia
  constructor
  · rw [h.ids, List.flatMap_append, List.append_assoc]
  · rw [getD_extendMedia, h.images, himages, List.flatMap_append]
  · rw [getD_extendMedia, h.videos, hvideos, List.flatMap_append]
  · intro m hm
    rcases List.mem_append.mp hm with hm | hm
    · exact h.readable m hm
    · exact hreadable m hm

/-- A reply adds its tokens and no media. -/
theorem Encodes.reply (h : Encodes T tools messages ids images videos) (hwise : MessageWise C T)
    {output : TokenOutput} (hdecodes : Decodes C T output) {tools'' : Option (List Json)}
    {callIds : Nat → String} {m : Message} {reason : String}
    (hdecode : C.decodeResponse output.tokenIds tools'' output.stopReason callIds =
      .ok (m, reason)) :
    Encodes T tools (messages ++ [m])
      (ids ++ (C.generationPrompt ++ output.tokenIds ++ C.turnSeparator)) images videos := by
  have happend := h.append hwise (extract_decoded hdecode)
  rw [hdecodes tools'' callIds m reason hdecode]
  simpa [extendMedia] using happend

theorem Encodes.full (h : Encodes T tools messages ids images videos) (hwise : MessageWise C T)
    (hne : messages ≠ []) : ∃ images' videos',
      C.extractMultiModalData messages = .ok (images', videos') ∧
      C.encodeFull messages tools images' videos' = .ok (ids ++ C.generationPrompt) ∧
      images.getD [] = images'.getD [] ∧ videos.getD [] = videos'.getD [] := by
  obtain ⟨images', videos', hmedia, himages, hvideos⟩ := hwise.media messages h.readable
  refine ⟨images', videos', hmedia, ?_, ?_, ?_⟩
  · rw [hwise.full messages tools images' videos' hne hmedia, h.ids]
  · rw [h.images, himages]
  · rw [h.videos, hvideos]

end Encodes

/-! ## The history that a request reuses -/

/-- Without collisions of prefix hashes, the messages of a request that a selected chain stands
for are those of the chain, in canonical form. -/
theorem canonical_of_select (hshape : ChainShape C chain gens) (hfree : C.PrefixHashCollisionFree)
    {rollback : Bool} (hselect : s.selectionFor C request = some (chain, rollback)) :
    toolsEq chain.activeToolSchemas request.tools = true ∧
      reusedHistoryLen chain rollback ≤ request.messages.length ∧
      (chain.messageHistory.take (reusedHistoryLen chain rollback)).map C.canonicalJson =
        (request.messages.take (reusedHistoryLen chain rollback)).map C.canonicalJson := by
  obtain ⟨_, heligible, hmatch⟩ := eligible_of_selectChain hselect
  obtain ⟨before, last, hhistory, hboundary⟩ := hshape.history
  have hpos := List.length_pos_iff.mpr hboundary.nonempty
  have hmhl := hboundary.messageHistoryLen
  unfold GatewaySession.isEligible at heligible
  simp only [Bool.and_eq_true, decide_eq_true_eq, beq_iff_eq, length_prefixHashes] at heligible
  obtain ⟨⟨⟨_, htools⟩, hlt⟩, hindex⟩ := heligible
  refine ⟨htools, ?_⟩
  cases rollback with
  | true =>
    unfold pyIndex at hindex
    rw [if_neg (by omega), show ((chain.lastAssistantStart.messageHistoryLen : Int) - 1).toNat =
      chain.lastAssistantStart.messageHistoryLen - 1 by omega,
      getElem?_prefixHashes _ (by omega), Nat.sub_add_cancel (by omega), Option.some.injEq,
      hboundary.tipHash] at hindex
    refine ⟨hlt.le, ?_⟩
    change (chain.messageHistory.take chain.lastAssistantStart.messageHistoryLen).map _ =
      (request.messages.take chain.lastAssistantStart.messageHistoryLen).map _
    rw [hfree _ _ hindex, hhistory, hmhl, List.take_left]
  | false =>
    have hlength : 0 < chain.messageHistory.length := by
      rw [hhistory]
      simp
    unfold isChainPrefixHashMatch at hmatch
    simp only [length_prefixHashes] at hmatch
    by_cases hlong : chain.messageHistory.length > request.messages.length
    · simp [hlong] at hmatch
    · rw [if_neg hlong, if_neg (by omega), getElem?_prefixHashes _ (by omega),
        Nat.sub_add_cancel (by omega), hshape.tipHash] at hmatch
      simp only [Bool.not_false, beq_iff_eq, Option.some.injEq] at hmatch
      refine ⟨by simpa [reusedHistoryLen] using hlong, ?_⟩
      change (chain.messageHistory.take chain.messageHistory.length).map _ =
        (request.messages.take chain.messageHistory.length).map _
      rw [List.take_length, hfree _ _ hmatch]

/-! ## The law of a chain -/

/-- The stored tokens, with a separator behind them, are those of the history, and the tokens
before the last assistant are those of the history before it, behind which the reply was asked
for. The last assistant has no media. -/
structure Stored (C : MessageCodec) (T : TemplateParts) (chain : ChainState) : Prop where
  whole : Encodes T chain.activeToolSchemas chain.messageHistory
    (chain.buffer.tokens ++ C.turnSeparator) chain.imageData chain.videoData
  before : Prompted C T chain.activeToolSchemas
    (chain.messageHistory.take chain.lastAssistantStart.messageHistoryLen)
    (chain.buffer.promptIds ++
      chain.buffer.responseIds.take chain.lastAssistantStart.responseIdsLen)
    chain.imageData chain.videoData

/-- A rollback leaves the tokens before the last assistant, without the assistant prefix. -/
theorem RolledBack.tokens_append {b : TrajectoryBuffer} (h : RolledBack C chain b) :
    b.tokens ++ C.assistantPrefix = chain.buffer.promptIds ++
      chain.buffer.responseIds.take chain.lastAssistantStart.responseIdsLen := by
  cases h with
  | intoPrompt promptIds hstart hprompt =>
    simp [hstart, hprompt, TrajectoryBuffer.tokens]
  | intoResponse responseIds hstart hresponse =>
    simp [hresponse, TrajectoryBuffer.tokens]

/-- The working copy of a chain has the tokens and the media of the messages that it stands
for. -/
theorem Reused.encodes {rollback : Bool} {w : WorkingInputs} (h : Reused C chain rollback w)
    (hshape : ChainShape C chain gens) (hstored : Stored C T chain) :
    Encodes T chain.activeToolSchemas
      (chain.messageHistory.take (reusedHistoryLen chain rollback))
      (w.buffer.tokens ++ C.turnSeparator) w.imageData w.videoData := by
  cases h with
  | whole _ =>
    change Encodes T _ (chain.messageHistory.take chain.messageHistory.length) _ _ _
    rw [List.take_length]
    exact hstored.whole
  | rolledBack buffer images videos hb _ _ _ himages hvideos =>
    obtain ⟨body, hbody, hencodes⟩ := hstored.before
    obtain ⟨_, _, _, hboundary⟩ := hshape.history
    have htokens : buffer.tokens ++ C.turnSeparator = body := by
      have happend := hb.tokens_append
      rw [hbody, MessageCodec.assistantPrefix, ← List.append_assoc] at happend
      exact List.append_cancel_right happend
    constructor
    · rw [htokens]
      exact hencodes.ids
    · rw [truncateMedia_eq_ok himages, hboundary.imageDataLen, List.take_length]
      exact hencodes.images
    · rw [truncateMedia_eq_ok hvideos, hboundary.videoDataLen, List.take_length]
      exact hencodes.videos
    · exact hencodes.readable

/-- The context of a request that goes on with a chain. -/
theorem Extends.prompted {encoded : EncodedData} {w : WorkingInputs} {ids : List Token}
    {images videos : Option (List Media)} (h : Extends C request chain encoded w ids images videos)
    (hselect : s.selectionFor C request = some (chain, encoded.rollbackApplied))
    (hopened : Opened C request encoded) (hwise : MessageWise C T) (hparts : CanonicalParts C T)
    (hfree : C.PrefixHashCollisionFree) (hshape : ChainShape C chain gens)
    (hstored : Stored C T chain)
    (hnews : request.messages.drop (reusedHistoryLen chain encoded.rollbackApplied) ≠ []) :
    Prompted C T request.tools request.messages encoded.contextIds encoded.imageData
      encoded.videoData := by
  obtain ⟨htools, _, hcanonical⟩ := canonical_of_select hshape hfree hselect
  have hkept := (h.reused.encodes hshape hstored).congr hwise hparts htools hcanonical
  cases h.suffix with
  | empty hempty => exact absurd hempty hnews
  | encoded _ _ _ _ hmedia hids =>
    have hincremental := hwise.incremental _ _ _ _ hnews hmedia hids
    have happend := hkept.append hwise hmedia
    rw [List.take_append_drop] at happend
    refine ⟨_, ?_, by rw [h.imageData, h.videoData]; exact happend⟩
    rw [h.contextIds hopened, ← h.reused.tokens, hincremental]
    simp

/-- No request repeats the whole history of the chain that is selected for it, and nothing
else. -/
def RepeatsNoChain (C : MessageCodec) (sys : System) (a : Action) : Prop :=
  ∀ request chain, a = .request request →
    sys.session.selectionFor C request = some (chain, false) →
      request.messages.length ≠ chain.messageHistory.length

/-- A request that repeats no chain has new messages. -/
theorem news_of_select {sys : System} (hrepeats : RepeatsNoChain C sys (.request request))
    (hshape : ChainShape C chain gens) (hfree : C.PrefixHashCollisionFree) {rollback : Bool}
    (hselect : sys.session.selectionFor C request = some (chain, rollback)) :
    request.messages.drop (reusedHistoryLen chain rollback) ≠ [] := by
  obtain ⟨_, hlen, _⟩ := canonical_of_select hshape hfree hselect
  cases rollback with
  | true => exact suffix_ne_of_rollback hselect
  | false =>
    intro hnil
    rw [List.drop_eq_nil_iff] at hnil
    exact hrepeats request chain rfl hselect (Nat.le_antisymm hnil hlen)

def reencodingRule (C : MessageCodec) (T : TemplateParts) : ChainRule where
  chain := fun chain gens => ChainShape C chain gens ∧ Stored C T chain
  ready := fun f gens => (shapeRule C).ready f gens ∧
    Prompted C T f.request.tools f.request.messages f.encoded.contextIds f.encoded.imageData
      f.encoded.videoData
  full := fun f gens => (shapeRule C).full f gens ∧
    ∀ start output, f.encoded.lastAssistantStart = some start → f.stage = .generated output →
      Decodes C T output ∧
      f.encoded.buffer.tokens = f.encoded.buffer.promptIds ++
        f.encoded.buffer.responseIds.take start.responseIdsLen ++ output.tokenIds ∧
      Prompted C T f.request.tools f.request.messages
        (f.encoded.buffer.promptIds ++ f.encoded.buffer.responseIds.take start.responseIdsLen)
        f.encoded.imageData f.encoded.videoData
  closed := (shapeRule C).closed

/-- Each step repeats no chain, and each call that returns in it can be decoded. -/
structure ReencodingStep (C : MessageCodec) (T : TemplateParts) (sys : System) (a : Action) :
    Prop where
  repeats : RepeatsNoChain C sys a
  decodes : ∀ g ∈ sys.returned a, Decodes C T g.output

theorem reencodingRule_kept (hwise : MessageWise C T) (hparts : CanonicalParts C T)
    (hfree : C.PrefixHashCollisionFree) :
    (reencodingRule C T).Kept C (ReencodingStep C T) := by
  constructor
  · intro sys request encoded _ hactive hprep hselect hroom
    refine ⟨shapeRule_kept.fresh sys request encoded trivial hactive hprep hselect hroom, ?_⟩
    obtain ⟨promptIds, hmedia, hfull, hbuffer, _⟩ := prepare_fresh hprep hselect
    have hopened := opened_of_prepare hprep hroom
    obtain ⟨hreadable, himages, hvideos⟩ := hwise.extracted hmedia
    rw [hwise.full _ _ _ _ hopened.nonempty hmedia] at hfull
    cases hfull
    exact ⟨_, by simp [hopened.contextIds, hbuffer], rfl, himages, hvideos, hreadable⟩
  · intro sys request encoded chain gens hq hreuse hroom hchain
    refine ⟨shapeRule_kept.reuse sys request encoded chain gens trivial hreuse hroom hchain.1, ?_⟩
    obtain ⟨w, ids, images, videos, hextends, _⟩ := hreuse.extends hroom
    exact hextends.prompted hreuse.select (opened_of_prepare hreuse.prepared hroom) hwise hparts
      hfree hchain.1 hchain.2 (news_of_select hq.repeats hchain.1 hfree hreuse.select)
  · intro sys f output encoded gens hq hmem hready habsorb
    refine ⟨shapeRule_kept.absorb sys f output encoded gens trivial hmem hready.1 habsorb, ?_⟩
    obtain ⟨⟨hopened, _⟩, hprompted⟩ := hready
    obtain ⟨logProbs, rfl, _⟩ := absorbOutput_eq_ok habsorb
    intro start output' hstart hstage
    cases hstage
    rw [hopened.start] at hstart
    cases hstart
    refine ⟨hq.decodes _ (mem_returned hmem output), ?_, ?_⟩
    · simp [TrajectoryBuffer.tokens, snapshotLastAssistantStart]
    · rw [hopened.contextIds] at hprompted
      simpa [snapshotLastAssistantStart] using hprompted
  · intro sys f output callIds assistantMsg start chainId orderSeq gens _ hcommits hsound hfull
    refine ⟨shapeRule_kept.commit sys f output callIds assistantMsg start chainId orderSeq gens
      trivial hcommits hsound hfull.1, ?_⟩
    obtain ⟨hdecodes, htokens, hprompted⟩ := hfull.2 start output hcommits.start hcommits.stage
    have hmhl : start.messageHistoryLen = f.request.messages.length :=
      (hfull.1.2 start hcommits.start).messageHistoryLen
    obtain ⟨reason, hdecode⟩ := hcommits.decode
    refine ⟨?_, ?_⟩
    · obtain ⟨body, hbody, hencodes⟩ := hprompted
      have hreply := hencodes.reply hwise hdecodes hdecode
      simp only [GatewaySession.committedChain, hsound.messages, hsound.tools, htokens, hbody]
      simpa using hreply
    · simp only [GatewaySession.committedChain, hsound.messages, hsound.tools, hmhl,
        List.take_left]
      exact hprompted
  · intro sys request encoded chain gens trajectory _ hreuse hfull hstart hbuild hchain
    exact shapeRule_kept.close sys request encoded chain gens trajectory trivial hreuse hfull
      hstart hbuild hchain.1
  · intro chain gens trajectory hchain hbuild
    exact shapeRule_kept.finalize chain gens trajectory hchain.1 hbuild

/-! ## The calls of the backend -/

/-- The call has the encoding of the whole request as its context, and the media of the whole
request. -/
def Reencoded (C : MessageCodec) (call : BackendCall) : Prop :=
  ∃ images videos, C.extractMultiModalData call.request.messages = .ok (images, videos) ∧
    C.encodeFull call.request.messages call.request.tools images videos = .ok call.contextIds ∧
    call.imageData.getD [] = images.getD [] ∧ call.videoData.getD [] = videos.getD []

theorem reencoded_of_ready (hwise : MessageWise C T) {f : InFlight}
    (h : (reencodingRule C T).ready f gens) : Reencoded C f.call := by
  obtain ⟨⟨hopened, _⟩, body, hbody, hencodes⟩ := h
  unfold Reencoded InFlight.call
  rw [hbody]
  exact hencodes.full hwise hopened.nonempty

/-- Over a template that works message by message, every call has the encoding of the whole
request as its context, as long as no request repeats its chain. -/
theorem contexts_are_full_encodings (hwise : MessageWise C T) (hparts : CanonicalParts C T)
    (hfree : C.PrefixHashCollisionFree) {sys : System} {sessionId : String}
    {promptLength responseLength : Option Int} {enable : Bool} {actions : List Action}
    (hnew : GatewaySession.create sessionId promptLength responseLength enable = .ok s)
    (hrun : runFrom C s actions = some sys)
    (hrepeats : runs.Meets (System.step C) (RepeatsNoChain C) (System.initial s) actions)
    (houtputs : ∀ g ∈ callsOf C s actions, Decodes C T g.output) :
    ∀ call ∈ sys.calls, Reencoded C call := by
  have hmeets : runs.Meets (System.step C) (ReencodingStep C T) (System.initial s) actions := by
    apply (hrepeats.and (runs.meets_collect System.returned _ _)).imp
    rintro u a ⟨hrepeats, hcalls⟩
    exact ⟨hrepeats, fun g hg => houtputs g (hcalls g hg)⟩
  exact (reencodingRule_kept hwise hparts hfree).calls_run hnew hrun hmeets
    (fun f gens hready => reencoded_of_ready hwise hready)

/-! ## A continuation and a rollback -/

section Canonical

variable {head : Option (List Json) → String}

/-- The parts of the canonical template, with the given images. -/
def canonicalParts (head : Option (List Json) → String) (images : Message → List Media) :
    TemplateParts where
  head := fun tools => tokensOf (head tools)
  segment := segmentTokens (fun m => closedLine (canonicalLine (lineCodec.canonicalJson m)))
  readable := fun _ => True
  images := images
  videos := fun _ => []

/-- The canonical form depends on two functions of the codec. -/
theorem canonicalJson_congr {C D : MessageCodec} (hloads : C.jsonLoads = D.jsonLoads)
    (hrepr : C.floatRepr = D.floatRepr) : C.canonicalJson = D.canonicalJson := by
  have harguments : C.canonicalizeToolArguments = D.canonicalizeToolArguments := by
    funext arguments
    unfold MessageCodec.canonicalizeToolArguments
    rw [hloads]
  have hcall : C.canonicalizeToolCall = D.canonicalizeToolCall := by
    funext call
    unfold MessageCodec.canonicalizeToolCall
    rw [harguments]
  funext m
  unfold MessageCodec.canonicalJson MessageCodec.canonicalizeMessage
  rw [hcall, hrepr]

theorem messageWise_of_renders (hrenders : Renders C (canonicalTemplate head))
    (hjson : C.canonicalJson = lineCodec.canonicalJson) {images : Message → List Media}
    (hmedia : ∀ messages, ∃ extracted,
      C.extractMultiModalData messages = .ok (extracted, none) ∧
        extracted.getD [] = messages.flatMap images) :
    MessageWise C (canonicalParts head images) := by
  constructor
  · intro messages tools _ _ _ _
    rw [hrenders.encodeFull, hrenders.prompt]
    simp only [canonicalParts, canonicalTemplate, messageWise]
  · intro messages _ _ ids hne _ hids
    have hanchor : closedLine (canonicalLine (lineCodec.canonicalJson C.anchor)) =
        canonicalLine (lineCodec.canonicalJson C.anchor) ++ closeMark ++ "\n" := rfl
    rcases hrenders.encodeIncremental_cases hanchor (by decide) hids with ⟨hnil, _⟩ | ⟨_, rfl⟩
    · exact absurd hnil hne
    · rw [hrenders.separator, hrenders.prompt]
      simp only [canonicalParts, canonicalTemplate, messageWise]
  · intro m
    rw [hrenders.separator]
    refine ⟨tokensOf (canonicalLine (lineCodec.canonicalJson m) ++ closeMark), ?_⟩
    simp only [canonicalParts, canonicalTemplate, messageWise, segmentTokens, closedLine,
      tokensOf_append]
  · intro m m' heq
    rw [hjson] at heq
    simp only [canonicalParts, segmentTokens, heq]
  · intro messages _
    obtain ⟨extracted, hextract, himages⟩ := hmedia messages
    refine ⟨extracted, none, hextract, himages, ?_⟩
    simp [canonicalParts]
  · intro messages _ _ _ m _
    trivial

theorem messageWise_canonicalCodec :
    MessageWise (canonicalCodec head) (canonicalParts head (fun _ => [])) := by
  have hrenders : Renders (canonicalCodec head) (canonicalTemplate head) := renders_codec _ _
  have hjson : (canonicalCodec head).canonicalJson = lineCodec.canonicalJson :=
    canonicalJson_congr rfl rfl
  apply messageWise_of_renders hrenders hjson
  intro messages
  exact ⟨none, rfl, by simp⟩

theorem messageWise_blockKeyCodec :
    MessageWise (blockKeyCodec head) (canonicalParts head blockKeys) := by
  have hjson : (blockKeyCodec head).canonicalJson = lineCodec.canonicalJson :=
    canonicalJson_congr rfl rfl
  exact messageWise_of_renders (renders_blockKeyCodec head) hjson
    (extractMultiModalData_blockKeyCodec head)

/-- Without a tool parser, an output has only its text to be decoded to. -/
theorem decodes_of_test {images : Message → List Media} {calls : List Generation}
    (hparser : C.toolParserName = none)
    (h : calls.all (fun g => C.generationPrompt ++ g.output.tokenIds ++ C.turnSeparator ==
      (canonicalParts head images).segment
        (C.decodeText g.output.tokenIds g.output.stopReason).1) = true) :
    ∀ g ∈ calls, Decodes C (canonicalParts head images) g.output := by
  intro g hg tools callIds m reason hdecode
  have htest := beq_iff_eq.mp (List.all_eq_true.mp h g hg)
  unfold MessageCodec.decodeResponse at hdecode
  simp only [hparser] at hdecode
  have hdecoded : C.decodeText g.output.tokenIds g.output.stopReason = (m, reason) :=
    Except.ok.inj hdecode
  rw [hdecoded] at htest
  exact htest

end Canonical

def repeatsNoChainTest (C : MessageCodec) (sys : System) : Action → Bool
  | .request request =>
    match sys.session.selectionFor C request with
    | some (chain, false) => request.messages.length != chain.messageHistory.length
    | _ => true
  | _ => true

theorem repeatsNoChain_of_test {sys : System} {a : Action}
    (h : repeatsNoChainTest C sys a = true) : RepeatsNoChain C sys a := by
  rintro request chain rfl hselect
  simpa [repeatsNoChainTest, hselect] using h

instance (call : BackendCall) : Decidable (Reencoded C call) :=
  match h : C.extractMultiModalData call.request.messages with
  | .error e => .isFalse (by
      rintro ⟨images, videos, hmedia, _⟩
      rw [h] at hmedia
      cases hmedia)
  | .ok (images, videos) =>
    decidable_of_iff
      ((C.encodeFull call.request.messages call.request.tools images videos).toOption =
          some call.contextIds ∧
        call.imageData.getD [] = images.getD [] ∧ call.videoData.getD [] = videos.getD []) (by
      have hfull : (C.encodeFull call.request.messages call.request.tools images videos).toOption =
          some call.contextIds ↔
            C.encodeFull call.request.messages call.request.tools images videos =
              .ok call.contextIds := by
        cases C.encodeFull call.request.messages call.request.tools images videos <;>
          simp [Except.toOption]
      rw [hfull]
      refine ⟨?_, ?_⟩
      · rintro ⟨hids, himages, hvideos⟩
        exact ⟨images, videos, h, hids, himages, hvideos⟩
      · rintro ⟨images', videos', hmedia, hids, himages, hvideos⟩
        rw [h] at hmedia
        cases hmedia
        exact ⟨hids, himages, hvideos⟩)

/-- A reply, and a request that rewrites it. -/
def rewrittenOnce : List Action :=
  [.request { messages := [say "user" "q"] }, .backendReturns 0 { tokenIds := tokensOf "a$" },
    .commit 0 (fun _ => ""),
    .request { messages := [say "user" "q", say "assistant" "c", say "user" "r"] }]

theorem contexts_are_full_encodings_rewrittenOnce :
    (canonicalCodec (fun _ => "")).create = .ok (canonicalCodec (fun _ => "")) ∧
    ∃ sys, runFrom (canonicalCodec (fun _ => "")) (openSession none) rewrittenOnce = some sys ∧
      sys.calls.length = 2 ∧ (∃ f ∈ sys.inFlight, f.encoded.rollbackApplied = true) ∧
      ∀ call ∈ sys.calls, Reencoded (canonicalCodec (fun _ => "")) call := by
  have hfacts : (runFrom (canonicalCodec (fun _ => "")) (openSession none) rewrittenOnce).any
      (fun sys => sys.calls.length == 2 && sys.inFlight.any (fun f => f.encoded.rollbackApplied)) =
        true := by decide +kernel
  have hrepeats : runs.checks (System.step (canonicalCodec (fun _ => "")))
      (repeatsNoChainTest (canonicalCodec (fun _ => ""))) (System.initial (openSession none))
      rewrittenOnce = true := by decide +kernel
  have houtputs : (callsOf (canonicalCodec (fun _ => "")) (openSession none) rewrittenOnce).all
      (fun g => (canonicalCodec (fun _ => "")).generationPrompt ++ g.output.tokenIds ++
        (canonicalCodec (fun _ => "")).turnSeparator ==
          (canonicalParts (fun _ => "") (fun _ => [])).segment
            ((canonicalCodec (fun _ => "")).decodeText g.output.tokenIds g.output.stopReason).1) =
        true := by decide +kernel
  have hparts : CanonicalParts (canonicalCodec (fun _ => ""))
      (canonicalParts (fun _ => "") (fun _ => [])) :=
    ⟨fun _ _ _ => rfl, fun _ _ _ h => h, fun _ _ _ => rfl, fun _ _ _ => rfl⟩
  obtain ⟨sys, hrun, hfacts⟩ := (Option.any_eq_true _ _).mp hfacts
  simp only [Bool.and_eq_true, beq_iff_eq, List.any_eq_true] at hfacts
  refine ⟨create_canonicalCodec _, sys, hrun, hfacts.1, hfacts.2, ?_⟩
  exact contexts_are_full_encodings messageWise_canonicalCodec hparts
    (prefixHashCollisionFree_of_shiftBytes rfl) openSession_eq hrun
    (runs.meets_of_checks (fun _ _ h => repeatsNoChain_of_test h) hrepeats)
    (decodes_of_test rfl houtputs)

/-! ## Key orders that the session does not see -/

/-- A request and its continuation, with the keys of the tool in another order. -/
def reorderedTools : List Action :=
  [.request { messages := [say "user" "q"], tools := some [.obj [("a", .null), ("b", .null)]] },
    .backendReturns 0 { tokenIds := tokensOf "x$" }, .commit 0 (fun _ => ""),
    .request {
      messages := [say "user" "q", say "assistant" "x", say "user" "r"]
      tools := some [.obj [("b", .null), ("a", .null)]] }]

/-- A message with one image block. -/
def showImage (fields : Dict) : Message := { role := "user", content := .arr [.obj fields] }

/-- A request and its continuation, with the keys of an image block in another order. -/
def reorderedBlock : List Action :=
  [.request { messages := [showImage [("type", .str "image"), ("image", .str "i")]] },
    .backendReturns 0 { tokenIds := tokensOf "x$" }, .commit 0 (fun _ => ""),
    .request { messages := [showImage [("image", .str "i"), ("type", .str "image")],
      say "assistant" "x", say "user" "r"] }]

/-- The session continues its chain over tools and messages whose keys have another order, and
the template or the extractor can tell them apart. -/
theorem key_orders_are_not_compared :
    (blockKeyCodec toolKeys).create = .ok (blockKeyCodec toolKeys) ∧
    MessageWise (blockKeyCodec toolKeys) (canonicalParts toolKeys blockKeys) ∧
    (blockKeyCodec toolKeys).PrefixHashCollisionFree ∧
    ∀ actions ∈ [reorderedTools, reorderedBlock],
      runs.Meets (System.step (blockKeyCodec toolKeys)) (RepeatsNoChain (blockKeyCodec toolKeys))
        (System.initial (openSession none)) actions ∧
      (∀ g ∈ callsOf (blockKeyCodec toolKeys) (openSession none) actions,
        Decodes (blockKeyCodec toolKeys) (canonicalParts toolKeys blockKeys) g.output) ∧
      ∃ sys, runFrom (blockKeyCodec toolKeys) (openSession none) actions = some sys ∧
        ∃ call ∈ sys.calls, ¬ Reencoded (blockKeyCodec toolKeys) call := by
  refine ⟨create_blockKeyCodec _, messageWise_blockKeyCodec,
    prefixHashCollisionFree_of_shiftBytes rfl, ?_⟩
  intro actions hactions
  have hfacts : [reorderedTools, reorderedBlock].all (fun actions =>
      runs.checks (System.step (blockKeyCodec toolKeys))
        (repeatsNoChainTest (blockKeyCodec toolKeys)) (System.initial (openSession none))
        actions &&
      (callsOf (blockKeyCodec toolKeys) (openSession none) actions).all (fun g =>
        (blockKeyCodec toolKeys).generationPrompt ++ g.output.tokenIds ++
          (blockKeyCodec toolKeys).turnSeparator ==
            (canonicalParts toolKeys blockKeys).segment
              ((blockKeyCodec toolKeys).decodeText g.output.tokenIds g.output.stopReason).1) &&
      (runFrom (blockKeyCodec toolKeys) (openSession none) actions).any (fun sys =>
        sys.calls.any (fun call => !decide (Reencoded (blockKeyCodec toolKeys) call)))) = true := by
    decide +kernel
  have hactions := List.all_eq_true.mp hfacts actions hactions
  simp only [Bool.and_eq_true] at hactions
  obtain ⟨⟨hrepeats, houtputs⟩, hcall⟩ := hactions
  obtain ⟨sys, hrun, hcall⟩ := (Option.any_eq_true _ _).mp hcall
  obtain ⟨call, hmem, hcall⟩ := List.any_eq_true.mp hcall
  refine ⟨runs.meets_of_checks (fun _ _ h => repeatsNoChain_of_test h) hrepeats,
    decodes_of_test rfl houtputs, sys, hrun, call, hmem, ?_⟩
  simpa using hcall

end uni_agent.session
