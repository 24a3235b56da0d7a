-- What becomes of a request, told by its id: which commit or which lack of room stands behind the
-- outcome that it returns, whatever other requests take their steps in between.
import UniAgent.TokenTruth

namespace uni_agent.session

variable {C : MessageCodec} {sys t : System} {request : InternalGenerationRequest}
  {requestId : Nat}

/-! ## The results of a step -/

/-- What a step adds to the results of requests. -/
inductive Results (C : MessageCodec) (sys : System) : Action → System → Prop
  | same (a : Action) (t : System) (h : t.finished = sys.finished) : Results C sys a t
  | failed (a : Action) (t : System) (id : Nat) (error : PyError) (hid : id < t.nextRequestId)
      (h : t.finished = sys.finished ++ [(id, .error error)]) : Results C sys a t
  | exhausted (request : InternalGenerationRequest) (encoded : EncodedData) (t : System)
      (hprep : sys.session.prepareGenerationInputs C request = .ok encoded)
      (hfull : encoded.capacityExhausted = true)
      (hnext : sys.nextRequestId < t.nextRequestId)
      (h : t.finished =
        sys.finished ++ [(sys.nextRequestId, .ok (GatewaySession.lengthOutcome encoded))]) :
      Results C sys (.request request) t
  | committed (f : InFlight) (output : TokenOutput) (callIds : Nat → String)
      (outcome : GenerationOutcome) (t : System) (hmem : f ∈ sys.inFlight)
      (hdecode : C.decodeResponse output.tokenIds f.encoded.tools output.stopReason callIds =
        .ok (outcome.assistantMsg, outcome.finishReason))
      (hprompt : outcome.promptTokens = f.encoded.contextIds.length)
      (hcompletion : outcome.completionTokens = output.tokenIds.length)
      (hcommits : t.ledger.commits = sys.ledger.commits ++ [f.generation output])
      (h : t.finished = sys.finished ++ [(f.requestId, .ok outcome)]) :
      Results C sys (.commit f.requestId callIds) t

theorem fail_results {u : System} (hfinished : u.finished = sys.finished) (a : Action)
    {f : InFlight} (hid : f.requestId < u.nextRequestId) (error : PyError) :
    Results C sys a (u.fail f error) := by
  unfold System.fail
  split
  · exact .failed _ _ f.requestId error hid (by simp [System.finish, hfinished])
  · exact .same _ _ hfinished

theorem request_results (request : InternalGenerationRequest) :
    Results C sys (.request request) (sys.beginRequest C request) := by
  unfold System.beginRequest GatewaySession.firstSection
  by_cases hactive : sys.session.phase = .active
  · simp only [hactive, ne_eq, not_true_eq_false, if_false]
    cases hprep : sys.session.prepareGenerationInputs C request with
    | error e => exact .failed _ _ _ e (Nat.lt_succ_self _) rfl
    | ok encoded =>
      cases hfull : encoded.capacityExhausted with
      | false =>
        cases hchain : encoded.chainId <;> simp only [hfull, hchain] <;> exact .same _ _ rfl
      | true =>
        cases hchain : encoded.chainId with
        | none =>
          simp only [hfull, hchain]
          exact .exhausted request encoded _ hprep hfull (Nat.lt_succ_self _) rfl
        | some chainId =>
          simp only [hfull, hchain]
          rcases sys.session.closeLengthExhaustedChain encoded with ⟨e | _, s⟩
          · exact .failed _ _ _ e (Nat.lt_succ_self _) rfl
          · exact .exhausted request encoded _ hprep hfull (Nat.lt_succ_self _) rfl
  · simp only [hactive, ne_eq, not_false_eq_true, if_true]
    exact .failed _ _ _ _ (Nat.lt_succ_self _) rfl

theorem secondSection_eq_ok {s s' : GatewaySession} {encoded : EncodedData} {output : TokenOutput}
    {callIds : Nat → String} {outcome : GenerationOutcome}
    (h : s.secondSection C encoded output callIds = (.ok outcome, s')) :
    C.decodeResponse output.tokenIds encoded.tools output.stopReason callIds =
        .ok (outcome.assistantMsg, outcome.finishReason) ∧
      outcome.promptTokens = encoded.contextIds.length ∧
      outcome.completionTokens = output.tokenIds.length := by
  unfold GatewaySession.secondSection at h
  split at h
  · cases h
  · cases hdecode : C.decodeResponse output.tokenIds encoded.tools output.stopReason callIds with
    | error e => simp [hdecode] at h
    | ok decoded =>
      obtain ⟨assistantMsg, finishReason⟩ := decoded
      simp only [hdecode] at h
      rcases hcommit : s.commitGenerationToChain C encoded assistantMsg with ⟨e | _, s''⟩
      · simp [hcommit] at h
      · simp only [hcommit, Prod.mk.injEq, Except.ok.injEq] at h
        obtain ⟨rfl, _⟩ := h
        exact ⟨rfl, rfl, rfl⟩

theorem commit_results (hco : Coherent C sys) {f : InFlight} {output : TokenOutput}
    (hmem : f ∈ sys.inFlight) (callIds : Nat → String) :
    Results C sys (.commit f.requestId callIds) (sys.commitRequest C f output callIds) := by
  unfold System.commitRequest
  rcases hsection : sys.session.secondSection C f.encoded output callIds with ⟨e | outcome, s⟩
  · have hlt : f.requestId < ({ sys with session := s } : System).nextRequestId :=
      hco.requestIds_lt f hmem
    have hsame : ({ sys with session := s } : System).finished = sys.finished := rfl
    exact fail_results hsame _ hlt e
  · obtain ⟨hdecode, hprompt, hcompletion⟩ := secondSection_eq_ok hsection
    exact .committed f output callIds outcome _ hmem hdecode hprompt hcompletion
      (Ledger.commits_commit _ _ _ _) rfl

theorem step_results (hco : Coherent C sys) {a : Action} (h : sys.step C a = some t) :
    Results C sys a t := by
  cases a with
  | request request =>
    cases h
    exact request_results request
  | cancelEarly =>
    cases h
    exact .failed _ _ _ _ (Nat.lt_succ_self _) rfl
  | backendReturns requestId output =>
    simp only [System.step] at h
    split at h
    · next hfind =>
      obtain ⟨hmem, rfl⟩ := mem_of_find hfind
      split at h
      · cases h
        exact fail_results rfl _ (hco.requestIds_lt _ hmem) _
      · cases h
        exact .same _ _ rfl
    · cases h
  | backendRaises requestId error =>
    simp only [System.step] at h
    split at h
    · next hfind =>
      obtain ⟨hmem, rfl⟩ := mem_of_find hfind
      cases h
      exact fail_results rfl _ (hco.requestIds_lt _ hmem) _
    · cases h
  | commit requestId callIds =>
    simp only [System.step] at h
    split at h
    · next hfind =>
      obtain ⟨hmem, rfl⟩ := mem_of_find hfind
      cases h
      exact commit_results hco hmem callIds
    · cases h
  | cancel requestId =>
    simp only [System.step] at h
    split at h
    · next f hfind =>
      split at h
      · cases h
      · cases h
        exact fail_results rfl _ (hco.requestIds_lt f (mem_of_find hfind).1) _
    · cases h
  | release requestId =>
    simp only [System.step] at h
    split at h
    · next hfind =>
      obtain ⟨hmem, rfl⟩ := mem_of_find hfind
      split at h
      · cases h
        exact .failed _ _ _ _ (hco.requestIds_lt _ hmem) rfl
      · cases h
    · cases h
  | setRewardInfo rewardInfo =>
    cases h
    exact .same _ _ rfl
  | finalize =>
    simp only [System.step] at h
    split at h <;> cases h <;> exact .same _ _ rfl
  | abort =>
    cases h
    exact .same _ _ rfl

/-! ## Requests in flight -/

/-- The backend was called for a request, under its id. -/
def Called (sys : System) (requestId : Nat) (request : InternalGenerationRequest) : Prop :=
  ∃ call ∈ sys.calls, call.requestId = requestId ∧ call.request = request

/-- A request in flight keeps its context and its tools until it leaves. -/
theorem inFlight_effect {a : Action} (h : Effect C sys a t) {g : InFlight} (hg : g ∈ t.inFlight) :
    (∃ f ∈ sys.inFlight, f.requestId = g.requestId ∧ f.request = g.request ∧
      f.encoded.contextIds = g.encoded.contextIds) ∨
    ∃ request, a = .request request ∧ g.requestId = sys.nextRequestId ∧ g.request = request ∧
      sys.session.prepareGenerationInputs C request = .ok g.encoded ∧
      g.encoded.capacityExhausted = false ∧ Called t g.requestId request := by
  have hleft : ∀ id, g ∈ sys.inFlight.filter (fun f => f.requestId != id) →
      ∃ f ∈ sys.inFlight, f.requestId = g.requestId ∧ f.request = g.request ∧
        f.encoded.contextIds = g.encoded.contextIds :=
    fun id hg => ⟨g, (mem_finish.mp hg).1, rfl, rfl, rfl⟩
  cases h with
  | idle _ session next finished _ _ _ => exact Or.inl ⟨g, hg, rfl, rfl, rfl⟩
  | left _ f error _ _ => exact Or.inl (hleft _ hg)
  | failed _ f error hmem _ =>
    rcases mem_update hg with rfl | ⟨hg, _⟩
    · exact Or.inl ⟨f, hmem, rfl, rfl, rfl⟩
    · exact Or.inl ⟨g, hg, rfl, rfl, rfl⟩
  | released f error id _ _ _ => exact Or.inl (hleft _ hg)
  | preparedFresh request encoded _ hprep _ _ _ hroom =>
    rcases List.mem_append.mp hg with hg | hg
    · exact Or.inl ⟨g, hg, rfl, rfl, rfl⟩
    · cases List.mem_singleton.mp hg
      exact Or.inr ⟨request, rfl, rfl, rfl, hprep, hroom, _,
        List.mem_append_right _ (List.mem_singleton_self _), rfl, rfl⟩
  | preparedReuse request encoded chain hreuse hroom =>
    rcases List.mem_append.mp hg with hg | hg
    · exact Or.inl ⟨g, hg, rfl, rfl, rfl⟩
    · cases List.mem_singleton.mp hg
      exact Or.inr ⟨request, rfl, rfl, rfl, hreuse.prepared, hroom, _,
        List.mem_append_right _ (List.mem_singleton_self _), rfl, rfl⟩
  | absorbed f output encoded hmem _ habsorb =>
    obtain ⟨_, rfl, _⟩ := absorbOutput_eq_ok habsorb
    rcases mem_update hg with rfl | ⟨hg, _⟩
    · exact Or.inl ⟨f, hmem, rfl, rfl, rfl⟩
    · exact Or.inl ⟨g, hg, rfl, rfl, rfl⟩
  | committedNew f output callIds assistantMsg start outcome _ _ => exact Or.inl (hleft _ hg)
  | committedReuse f output callIds assistantMsg start outcome before after chain _ _ _ =>
    exact Or.inl (hleft _ hg)
  | dropped request encoded chain before after outcome _ _ _ _ _ =>
    exact Or.inl ⟨g, hg, rfl, rfl, rfl⟩
  | closed request encoded chain before after outcome trajectory _ _ _ _ _ =>
    exact Or.inl ⟨g, hg, rfl, rfl, rfl⟩
  | closeFailed request encoded chain error _ _ _ _ => exact Or.inl ⟨g, hg, rfl, rfl, rfl⟩
  | finalized built _ _ => exact Or.inl ⟨g, hg, rfl, rfl, rfl⟩
  | finalizeFailed front back chain error built _ _ _ _ => exact Or.inl ⟨g, hg, rfl, rfl, rfl⟩
  | aborted _ => exact Or.inl ⟨g, hg, rfl, rfl, rfl⟩

/-- What a later state of a session still has of an earlier one. -/
structure Later (sys t : System) : Prop where
  commits : sys.ledger.commits <+: t.ledger.commits
  calls : sys.calls <+: t.calls
  next : sys.nextRequestId ≤ t.nextRequestId

theorem Later.refl (sys : System) : Later sys sys :=
  ⟨List.prefix_refl _, List.prefix_refl _, Nat.le_refl _⟩

theorem Later.trans {u : System} (h : Later sys t) (h' : Later t u) : Later sys u :=
  ⟨h.commits.trans h'.commits, h.calls.trans h'.calls, h.next.trans h'.next⟩

/-- Commits and calls of a step stand behind those before it. -/
theorem later_effect {a : Action} (h : Effect C sys a t) : Later sys t := by
  cases h with
  | idle _ session next finished _ _ hnext => exact ⟨List.prefix_refl _, List.prefix_refl _, hnext⟩
  | committedNew f output callIds assistantMsg start outcome _ _ =>
    exact ⟨⟨_, (Ledger.commits_commit _ _ _ _).symm⟩, List.prefix_refl _, Nat.le_refl _⟩
  | committedReuse f output callIds assistantMsg start outcome before after chain _ _ _ =>
    exact ⟨⟨_, (Ledger.commits_commit _ _ _ _).symm⟩, List.prefix_refl _, Nat.le_refl _⟩
  | preparedFresh | preparedReuse =>
    exact ⟨List.prefix_refl _, List.prefix_append _ _, Nat.le_succ _⟩
  | closed request encoded chain before after outcome trajectory _ _ _ _ _ =>
    exact ⟨⟨[], by simp [Ledger.commits_close]⟩, List.prefix_refl _, Nat.le_succ _⟩
  | dropped | closeFailed => exact ⟨List.prefix_refl _, List.prefix_refl _, Nat.le_succ _⟩
  | _ => exact ⟨List.prefix_refl _, List.prefix_refl _, Nat.le_refl _⟩

/-- Results are those of requests that came before. -/
def Dated (sys : System) : Prop := ∀ entry ∈ sys.finished, entry.1 < sys.nextRequestId

theorem dated_step (hco : Coherent C sys) (h : Dated sys) {a : Action}
    (hstep : sys.step C a = some t) : Dated t := by
  have hnext := (later_effect (step_effect hco hstep)).next
  have hold : ∀ entry ∈ sys.finished, entry.1 < t.nextRequestId :=
    fun entry hentry => (h entry hentry).trans_le hnext
  intro entry hentry
  cases step_results hco hstep with
  | same _ _ hfinished =>
    rw [hfinished] at hentry
    exact hold entry hentry
  | failed _ _ id error hid hfinished =>
    rw [hfinished] at hentry
    rcases List.mem_append.mp hentry with hentry | hentry
    · exact hold entry hentry
    · rw [List.mem_singleton.mp hentry]
      exact hid
  | exhausted request encoded _ _ _ hlt hfinished =>
    rw [hfinished] at hentry
    rcases List.mem_append.mp hentry with hentry | hentry
    · exact hold entry hentry
    · rw [List.mem_singleton.mp hentry]
      exact hlt
  | committed f output callIds outcome _ hmem _ _ _ _ hfinished =>
    rw [hfinished] at hentry
    rcases List.mem_append.mp hentry with hentry | hentry
    · exact hold entry hentry
    · rw [List.mem_singleton.mp hentry]
      exact (hco.requestIds_lt f hmem).trans_le hnext

/-! ## From a request to its outcome -/

section Served

variable {given full : InternalGenerationRequest → List Token → Prop}

theorem Called.later (h : Called sys requestId request) (hlater : Later sys t) :
    Called t requestId request := by
  obtain ⟨call, hmem, heq⟩ := h
  exact ⟨call, hlater.calls.subset hmem, heq⟩

/-- What stands behind the outcome of a request: a context for which there was no room, or a commit
of its own. `given` and `full` tell which contexts a request can have. -/
inductive Answered (C : MessageCodec) (given full : InternalGenerationRequest → List Token → Prop)
    (sys : System) (requestId : Nat) (request : InternalGenerationRequest) :
    GenerationOutcome → Prop
  | full (encoded : EncodedData) (hfull : full request encoded.contextIds) :
      Answered C given full sys requestId request (GatewaySession.lengthOutcome encoded)
  | generated (g : Generation) (outcome : GenerationOutcome) (callIds : Nat → String)
      (hmem : g ∈ sys.ledger.commits) (hid : g.requestId = requestId)
      (hcalled : Called sys requestId request) (hgiven : given request g.contextIds)
      (hdecode : C.decodeResponse g.output.tokenIds request.tools g.output.stopReason callIds =
        .ok (outcome.assistantMsg, outcome.finishReason))
      (hprompt : outcome.promptTokens = g.contextIds.length)
      (hcompletion : outcome.completionTokens = g.output.tokenIds.length) :
      Answered C given full sys requestId request outcome

theorem Answered.later {outcome : GenerationOutcome}
    (h : Answered C given full sys requestId request outcome) (hlater : Later sys t) :
    Answered C given full t requestId request outcome := by
  cases h with
  | full encoded hfull => exact .full encoded hfull
  | generated g _ callIds hmem hid hcalled hgiven hdecode hprompt hcompletion =>
    exact .generated g _ callIds (hlater.commits.subset hmem) hid (hcalled.later hlater) hgiven
      hdecode hprompt hcompletion

/-- The id is that of a request, and its outcome is an answer to it. -/
structure Served (C : MessageCodec) (given full : InternalGenerationRequest → List Token → Prop)
    (sys : System) (requestId : Nat) (request : InternalGenerationRequest) : Prop where
  lt : requestId < sys.nextRequestId
  flight : ∀ f ∈ sys.inFlight, f.requestId = requestId →
    f.request = request ∧ given request f.encoded.contextIds ∧ Called sys requestId request
  answered : ∀ outcome, (requestId, .ok outcome) ∈ sys.finished →
    Answered C given full sys requestId request outcome

/-- The request that enters is the one of the next id. -/
theorem served_request (hco : Coherent C sys) (hdated : Dated sys)
    (hgiven : ∀ encoded, sys.session.prepareGenerationInputs C request = .ok encoded →
      encoded.capacityExhausted = false → given request encoded.contextIds)
    (hfull : ∀ encoded, sys.session.prepareGenerationInputs C request = .ok encoded →
      encoded.capacityExhausted = true → full request encoded.contextIds)
    (hstep : sys.step C (.request request) = some t) :
    Served C given full t sys.nextRequestId request := by
  have hfresh : ∀ result, (sys.nextRequestId, result) ∉ sys.finished :=
    fun result hmem => Nat.lt_irrefl _ (hdated _ hmem)
  constructor
  · cases hstep
    unfold System.beginRequest
    split <;> exact Nat.lt_succ_self _
  · intro g hg hid
    rcases inFlight_effect (step_effect hco hstep) hg with ⟨f, hf, hsame, _⟩ |
      ⟨_, ⟨⟩, _, heq, hprep, hroom, hcalled⟩
    · have := hco.requestIds_lt f hf
      omega
    · exact ⟨heq, hgiven g.encoded hprep hroom, hid ▸ hcalled⟩
  · intro outcome hmem
    cases step_results hco hstep with
    | same _ _ hfinished =>
      rw [hfinished] at hmem
      exact absurd hmem (hfresh _)
    | failed _ _ id error _ hfinished =>
      rw [hfinished] at hmem
      rcases List.mem_append.mp hmem with hmem | hmem
      · exact absurd hmem (hfresh _)
      · simp at hmem
    | exhausted _ encoded _ hprep hexhausted _ hfinished =>
      rw [hfinished] at hmem
      rcases List.mem_append.mp hmem with hmem | hmem
      · exact absurd hmem (hfresh _)
      · cases List.mem_singleton.mp hmem
        exact .full encoded (hfull encoded hprep hexhausted)

theorem Served.step (hco : Coherent C sys) (h : Served C given full sys requestId request)
    {a : Action} (hstep : sys.step C a = some t) : Served C given full t requestId request := by
  have heffect := step_effect hco hstep
  have hlater := later_effect heffect
  constructor
  · exact h.lt.trans_le hlater.next
  · intro g hg hid
    rcases inFlight_effect heffect hg with ⟨f, hf, hsame, heq, hcontext⟩ | ⟨_, _, hnew, _⟩
    · rw [← heq, ← hcontext]
      obtain ⟨hrequest, hgiven, hcalled⟩ := h.flight f hf (hsame.trans hid)
      exact ⟨hrequest, hgiven, hcalled.later hlater⟩
    · have := h.lt
      omega
  · intro outcome hmem
    cases step_results hco hstep with
    | same _ _ hfinished =>
      rw [hfinished] at hmem
      exact (h.answered outcome hmem).later hlater
    | failed _ _ id error _ hfinished =>
      rw [hfinished] at hmem
      rcases List.mem_append.mp hmem with hmem | hmem
      · exact (h.answered outcome hmem).later hlater
      · simp at hmem
    | exhausted _ encoded _ _ _ _ hfinished =>
      rw [hfinished] at hmem
      rcases List.mem_append.mp hmem with hmem | hmem
      · exact (h.answered outcome hmem).later hlater
      · have hlt := h.lt
        simp only [List.mem_singleton, Prod.mk.injEq] at hmem
        omega
    | committed f output callIds _ _ hin hdecode hprompt hcompletion hledger hfinished =>
      rw [hfinished] at hmem
      rcases List.mem_append.mp hmem with hmem | hmem
      · exact (h.answered outcome hmem).later hlater
      · simp only [List.mem_singleton, Prod.mk.injEq, Except.ok.injEq] at hmem
        obtain ⟨rfl, rfl⟩ := hmem
        obtain ⟨hrequest, hgiven, hcalled⟩ := h.flight f hin rfl
        rw [(hco.sound f hin).tools, hrequest] at hdecode
        exact .generated (f.generation output) _ callIds (by simp [hledger]) rfl
          (hcalled.later hlater) hgiven hdecode hprompt hcompletion

end Served

end uni_agent.session
