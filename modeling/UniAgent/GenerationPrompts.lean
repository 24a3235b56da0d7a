-- Where the context of a call ends. A request that starts a chain ends with the generation
-- prompt, and so does one whose new messages are encoded behind a chain. A request that repeats
-- a chain without new messages sends the stored tokens as they are, with the last reply at
-- their end.
import UniAgent.ChainShape

namespace uni_agent.session

variable {C : MessageCodec} {s : GatewaySession} {request : InternalGenerationRequest}
  {chain : ChainState}

/-! ## What is kept and what is new -/

/-- The tokens of a selected chain that a request builds on. -/
def ChainState.keptTokens (C : MessageCodec) (chain : ChainState) (rollback : Bool) : List Token :=
  let buffer := chain.buffer
  let start := chain.lastAssistantStart.responseIdsLen
  if !rollback then buffer.tokens
  else if start = 0 then
    buffer.promptIds.take (buffer.promptIds.length - C.assistantPrefix.length)
  else buffer.promptIds ++ buffer.responseIds.take (start - C.assistantPrefix.length)

theorem RolledBack.tokens {b : TrajectoryBuffer} (h : RolledBack C chain b)
    (hlen : chain.lastAssistantStart.responseIdsLen ≤ chain.buffer.responseIds.length) :
    b.tokens = chain.keptTokens C true := by
  unfold ChainState.keptTokens
  cases h with
  | intoPrompt promptIds hstart hprompt =>
    simp [hstart, hprompt, TrajectoryBuffer.tokens]
  | intoResponse responseIds hstart hresponse =>
    have hlength := congrArg List.length hresponse
    rw [List.length_take, min_eq_left hlen, List.length_append] at hlength
    have hkept : chain.buffer.responseIds.take responseIds.length = responseIds := by
      have htake := congrArg (List.take responseIds.length) hresponse
      rwa [List.take_take, List.take_left, min_eq_left (by omega)] at htake
    rw [Bool.not_true, if_neg Bool.false_ne_true, if_neg hstart, hlength, Nat.add_sub_cancel, hkept]
    rfl

theorem Reused.tokens {rollback : Bool} {w : WorkingInputs} (h : Reused C chain rollback w) :
    w.buffer.tokens = chain.keptTokens C rollback := by
  cases h with
  | whole _ => rfl
  | rolledBack buffer images videos hb _ _ hlen _ _ => exact hb.tokens hlen

/-- The tokens of new messages, and none where they cannot be encoded. -/
def newTokens (C : MessageCodec) (suffix : List Message) : List Token :=
  match C.extractMultiModalData suffix with
  | .error _ => []
  | .ok (images, videos) => (C.encodeIncremental suffix images videos).toOption.getD []

theorem SuffixEncoded.newTokens_eq {suffix : List Message} {ids : List Token}
    {media : MediaLists} (h : SuffixEncoded C suffix ids media) : newTokens C suffix = ids := by
  unfold newTokens
  cases h with
  | empty hempty =>
    subst hempty
    cases C.extractMultiModalData [] with
    | error e => rfl
    | ok media => rfl
  | encoded ids images videos hne hmedia hids =>
    simp [hmedia, hids, Except.toOption]

/-! ## The end of a context -/

/-- Histories, and new messages that have tokens at all, are encoded with `ending` behind
them. -/
structure EncodesTo (C : MessageCodec) (ending : List Token) : Prop where
  full : ∀ messages tools images videos ids, messages ≠ [] →
    C.encodeFull messages tools images videos = .ok ids → ending <:+ ids
  incremental : ∀ messages images videos ids,
    C.encodeIncremental messages images videos = .ok ids → ids ≠ [] → ending <:+ ids

/-- The request opens a new turn: it starts a chain, or its new messages have tokens, or what it
keeps of a chain ends as an opened turn does. -/
def GatewaySession.OpensTurn (C : MessageCodec) (s : GatewaySession)
    (request : InternalGenerationRequest) : Prop :=
  ∀ chain rollback, s.selectionFor C request = some (chain, rollback) →
    newTokens C (request.messages.drop (reusedHistoryLen chain rollback)) ≠ [] ∨
      C.generationPrompt <:+ chain.keptTokens C rollback

theorem EncodesTo.shorten {ending ending' : List Token} (h : EncodesTo C ending)
    (hsuffix : ending' <:+ ending) : EncodesTo C ending' := by
  refine ⟨?_, ?_⟩
  · intro messages tools images videos ids hne hids
    exact hsuffix.trans (h.full messages tools images videos ids hne hids)
  · intro messages images videos ids hids hne
    exact hsuffix.trans (h.incremental messages images videos ids hids hne)

/-- A template whose segments all end with its separator. -/
theorem encodesTo_messageWise {head : Option (List Json) → String} {segment : Message → String}
    {separator prompt : String} {sha256 : String → String} (hsep : separator ≠ "")
    (hsegment : ∀ m, ∃ body, segment m = body ++ separator) :
    EncodesTo ((messageWise head segment separator prompt).codec sha256)
      ((messageWise head segment separator prompt).codec sha256).assistantPrefix := by
  have hends : ∀ (messages : List Message) (start : List Token), messages ≠ [] →
      tokensOf separator ++ tokensOf prompt <:+
        start ++ messages.flatMap (segmentTokens segment) ++ tokensOf prompt := by
    intro messages start hne
    obtain ⟨before, last, rfl⟩ := List.eq_nil_or_concat' messages |>.resolve_left hne
    obtain ⟨body, hbody⟩ := hsegment last
    refine ⟨start ++ before.flatMap (segmentTokens segment) ++ tokensOf body, ?_⟩
    simp [segmentTokens, hbody]
  refine ⟨?_, ?_⟩
  · intro messages tools images videos ids hne hids
    rw [encodeFull_messageWise] at hids
    cases hids
    exact hends messages _ hne
  · intro messages images videos ids hids hne
    obtain ⟨body, hbody⟩ := hsegment textAnchor
    rcases encodeIncremental_messageWise_cases hbody hsep hids with ⟨_, hempty⟩ | ⟨hmessages, rfl⟩
    · exact absurd hempty hne
    · exact hends messages _ hmessages

theorem encodesTo_lineCodec : EncodesTo lineCodec lineCodec.assistantPrefix :=
  encodesTo_messageWise (by decide) (fun m => ⟨_, rfl⟩)

theorem SuffixEncoded.ends {suffix : List Message} {ids ending : List Token} {media : MediaLists}
    (hends : EncodesTo C ending) (h : SuffixEncoded C suffix ids media) (hne : ids ≠ []) :
    ending <:+ ids := by
  cases h with
  | empty _ => exact absurd rfl hne
  | encoded ids images videos _ _ hids => exact hends.incremental suffix images videos ids hids hne

/-- The context of a prepared request: the kept tokens, and then the new ones. -/
theorem Extends.contextIds {encoded : EncodedData} {w : WorkingInputs} {ids : List Token}
    {images videos : Option (List Media)} (h : Extends C request chain encoded w ids images videos)
    (hopened : Opened C request encoded) :
    encoded.contextIds = chain.keptTokens C encoded.rollbackApplied ++ ids := by
  rw [hopened.contextIds, h.buffer, ← h.reused.tokens]
  simp [appendContext, TrajectoryBuffer.tokens]

theorem reuses_of_prepare {encoded : EncodedData} {rollback : Bool} (hactive : s.phase = .active)
    (hprep : s.prepareGenerationInputs C request = .ok encoded)
    (hselect : s.selectionFor C request = some (chain, rollback)) :
    encoded.rollbackApplied = rollback ∧ Reuses C s request encoded chain := by
  obtain ⟨chosen, hchosen⟩ := prepare_chosen hprep
  cases hchosen with
  | fresh hnone _ _ => simp [hnone] at hselect
  | reused chain' rollback' hselect' hchain hrollback =>
    rw [hselect, Option.some.injEq, Prod.mk.injEq] at hselect'
    obtain ⟨rfl, rfl⟩ := hselect'
    exact ⟨hrollback, hactive, hprep, by rw [hselect, hrollback], hchain⟩

theorem firstSection_generating {encoded : EncodedData} {s' : GatewaySession}
    (h : s.firstSection C request = (.ok (.generating encoded), s')) :
    s.phase = .active ∧ s.prepareGenerationInputs C request = .ok encoded ∧
      encoded.capacityExhausted = false := by
  unfold GatewaySession.firstSection at h
  by_cases hactive : s.phase = .active
  · rw [if_neg (by simpa using hactive)] at h
    cases hprep : s.prepareGenerationInputs C request with
    | error e => simp [hprep] at h
    | ok prepared =>
      simp only [hprep] at h
      cases hfull : prepared.capacityExhausted with
      | true =>
        cases hchain : prepared.chainId with
        | none => simp [hfull, hchain] at h
        | some id =>
          simp only [hfull, hchain] at h
          split at h <;> simp at h
      | false =>
        cases hchain : prepared.chainId with
        | none =>
          simp only [hfull, hchain, Prod.mk.injEq, Except.ok.injEq,
            GatewaySession.FirstSection.generating.injEq] at h
          obtain ⟨rfl, _⟩ := h
          exact ⟨hactive, rfl, hfull⟩
        | some id =>
          simp only [hfull, hchain, Prod.mk.injEq, Except.ok.injEq,
            GatewaySession.FirstSection.generating.injEq] at h
          obtain ⟨rfl, _⟩ := h
          exact ⟨hactive, rfl, hfull⟩
  · rw [if_pos hactive] at h
    simp at h

/-- A request that calls the backend was prepared in an active session. -/
theorem prepared_of_call {sys t : System} (hstep : sys.step C (.request request) = some t)
    {call : BackendCall} (hcall : t.calls = sys.calls ++ [call]) :
    ∃ encoded, sys.session.phase = .active ∧
      sys.session.prepareGenerationInputs C request = .ok encoded ∧
      encoded.capacityExhausted = false ∧
      call = ⟨sys.nextRequestId, request, encoded.contextIds, encoded.samplingParams,
        encoded.imageData, encoded.videoData⟩ := by
  obtain rfl : sys.beginRequest C request = t := by simpa [System.step] using hstep
  unfold System.beginRequest at hcall
  rcases hsection : sys.session.firstSection C request with ⟨e | ⟨encoded, outcome⟩ | encoded, s'⟩
  · simp [hsection, System.finish] at hcall
  · simp [hsection, System.finish] at hcall
  · obtain ⟨hactive, hprep, hroom⟩ := firstSection_generating hsection
    simp only [hsection, List.append_cancel_left_eq, List.cons.injEq, and_true] at hcall
    exact ⟨encoded, hactive, hprep, hroom, hcall.symm⟩

/-- A context ends with the generation prompt exactly when the request opens a turn. -/
theorem context_ends_with_the_generation_prompt_iff (hends : EncodesTo C C.generationPrompt)
    {sys t : System} (hstep : sys.step C (.request request) = some t) {call : BackendCall}
    (hcall : t.calls = sys.calls ++ [call]) :
    C.generationPrompt <:+ call.contextIds ↔ sys.session.OpensTurn C request := by
  obtain ⟨encoded, hactive, hprep, hroom, rfl⟩ := prepared_of_call hstep hcall
  have hopened := opened_of_prepare hprep hroom
  unfold GatewaySession.OpensTurn
  cases hselect : sys.session.selectionFor C request with
  | none =>
    obtain ⟨promptIds, _, hfull, hbuffer, _⟩ := prepare_fresh hprep hselect
    simp only [reduceCtorEq, IsEmpty.forall_iff, implies_true, iff_true]
    rw [hopened.contextIds, hbuffer]
    simpa using hends.full _ _ _ _ _ hopened.nonempty hfull
  | some selected =>
    obtain ⟨chain, rollback⟩ := selected
    obtain ⟨rfl, hreuse⟩ := reuses_of_prepare hactive hprep hselect
    obtain ⟨w, ids, images, videos, hextends, _⟩ := hreuse.extends hroom
    have hcontext := hextends.contextIds hopened
    simp only [hcontext, Option.some.injEq, Prod.mk.injEq]
    refine ⟨?_, ?_⟩
    · rintro hsuffix _ _ ⟨rfl, rfl⟩
      rw [hextends.suffix.newTokens_eq]
      by_cases hids : ids = []
      · exact Or.inr (by simpa [hids] using hsuffix)
      · exact Or.inl hids
    · intro hopens
      rcases hopens chain _ ⟨rfl, rfl⟩ with hnew | hkept
      · rw [hextends.suffix.newTokens_eq] at hnew
        exact (hextends.suffix.ends hends hnew).trans (List.suffix_append _ _)
      · by_cases hids : ids = []
        · simpa [hids] using hkept
        · exact (hextends.suffix.ends hends hids).trans (List.suffix_append _ _)

/-! ## A request that repeats its chain -/

/-- One reply to `q`. -/
def oneReply : List Action :=
  [.request { messages := [say "user" "q"] }, .backendReturns 0 { tokenIds := tokensOf "a" },
    .commit 0 (fun _ => "")]

/-- The history of the chain and new messages. -/
def afterReply (messages : List Message) : InternalGenerationRequest :=
  { messages := [say "user" "q", say "assistant" "a"] ++ messages }

/-- A request adds one call to the calls, or none. -/
theorem call_of_test {sys t : System} (hstep : sys.step C (.request request) = some t)
    {test : BackendCall → Bool} (h : (t.calls.drop sys.calls.length).any test = true) :
    ∃ call, t.calls = sys.calls ++ [call] ∧ test call = true := by
  obtain rfl : sys.beginRequest C request = t := by simpa [System.step] using hstep
  unfold System.beginRequest at h ⊢
  rcases hsection : sys.session.firstSection C request with ⟨e | ⟨encoded, outcome⟩ | encoded, s'⟩
  · simp [hsection, System.finish] at h
  · simp [hsection, System.finish] at h
  · simp only [hsection, List.drop_left, List.any_cons, List.any_nil, Bool.or_false] at h
    exact ⟨_, rfl, h⟩

theorem context_ends_with_the_generation_prompt_iff_afterReply :
    ∃ sys t call, runFrom lineCodec (openSession none) oneReply = some sys ∧
      sys.step lineCodec (.request (afterReply [say "user" "r"])) = some t ∧
      t.calls = sys.calls ++ [call] ∧ lineCodec.generationPrompt <:+ call.contextIds ∧
      sys.session.OpensTurn lineCodec (afterReply [say "user" "r"]) := by
  have hfacts : (runFrom lineCodec (openSession none) oneReply).any (fun sys =>
      (sys.step lineCodec (.request (afterReply [say "user" "r"]))).any (fun t =>
        (t.calls.drop sys.calls.length).any (fun call =>
          decide (lineCodec.generationPrompt <:+ call.contextIds)))) = true := by decide +kernel
  obtain ⟨sys, hrun, hfacts⟩ := (Option.any_eq_true _ _).mp hfacts
  obtain ⟨t, hstep, hfacts⟩ := (Option.any_eq_true _ _).mp hfacts
  obtain ⟨call, hcall, hends⟩ := call_of_test hstep hfacts
  refine ⟨sys, t, call, hrun, hstep, hcall, of_decide_eq_true hends, ?_⟩
  exact (context_ends_with_the_generation_prompt_iff
    (encodesTo_lineCodec.shorten (List.suffix_append _ _)) hstep hcall).mp (of_decide_eq_true hends)


/-- The history of the chain again, without a new message: the context ends with the reply. -/
theorem repeated_history_opens_no_turn :
    EncodesTo lineCodec lineCodec.generationPrompt ∧
    ∃ sys t call, runFrom lineCodec (openSession none) oneReply = some sys ∧
      (afterReply []).messages ≠ [] ∧
      sys.step lineCodec (.request (afterReply [])) = some t ∧
      t.calls = sys.calls ++ [call] ∧ ¬ lineCodec.generationPrompt <:+ call.contextIds := by
  refine ⟨encodesTo_lineCodec.shorten (List.suffix_append _ _), ?_⟩
  have hfacts : (runFrom lineCodec (openSession none) oneReply).any (fun sys =>
      (sys.step lineCodec (.request (afterReply []))).any (fun t =>
        (t.calls.drop sys.calls.length).any (fun call =>
          decide (¬ lineCodec.generationPrompt <:+ call.contextIds)))) = true := by decide +kernel
  obtain ⟨sys, hrun, hfacts⟩ := (Option.any_eq_true _ _).mp hfacts
  obtain ⟨t, hstep, hfacts⟩ := (Option.any_eq_true _ _).mp hfacts
  obtain ⟨call, hcall, hends⟩ := call_of_test hstep hfacts
  exact ⟨sys, t, call, hrun, by simp [afterReply], hstep, hcall, of_decide_eq_true hends⟩

end uni_agent.session
