-- A request that ends in an error leaves no trace. It worked on private copies, and its
-- reservation is released, so the same request sent again is prepared the same way. Only a
-- length closure that fails has taken an order number before.
import UniAgent.ChainShape

namespace uni_agent.session

variable {C : MessageCodec} {sys u t : System} {closing : Prop}

/-! ## Closures that fail -/

/-- Python cannot compare `None`: `max` raises when there is one beside another entry. -/
theorem maxOf_error_iff {first : Option Int} {rest : List (Option Int)} :
    (∃ error, maxOf first rest = .error error) ↔ rest ≠ [] ∧ none ∈ first :: rest := by
  unfold maxOf
  induction rest generalizing first with
  | nil => simp [pure, Except.pure]
  | cons x rest ih =>
    rw [List.foldlM_cons]
    cases first with
    | none => simp [bind, Except.bind]
    | some b =>
      cases x with
      | none => simp [bind, Except.bind]
      | some y =>
        simp only [bind, Except.bind]
        rw [ih]
        cases rest with
        | nil => simp
        | cons z rest => simp

/-- Two calls report a first step, and one of them without its last step. -/
def LacksLastStep (marks : List VersionMark) : Prop :=
  2 ≤ (marks.filter (fun mark => mark.1.isSome)).length ∧
    ∃ mark ∈ marks, mark.1.isSome = true ∧ mark.2 = none

theorem versionSpanOf_error_iff {marks : List VersionMark} :
    (∃ error, versionSpanOf marks = .error error) ↔ LacksLastStep marks := by
  have hentries : ∀ marks : List VersionMark,
      (marks.filterMap (fun mark => mark.1.map (fun low => (low, mark.2)))).map Prod.snd =
        (marks.filter (fun mark => mark.1.isSome)).map Prod.snd := by
    intro marks
    induction marks with
    | nil => rfl
    | cons mark marks ih =>
      obtain ⟨low, high⟩ := mark
      cases low with
      | none => simpa using ih
      | some low => simpa using ih
  have hnone : none ∈ (marks.filter (fun mark => mark.1.isSome)).map Prod.snd ↔
      ∃ mark ∈ marks, mark.1.isSome = true ∧ mark.2 = none := by
    simp [and_assoc]
  unfold versionSpanOf LacksLastStep
  rw [← hnone, ← hentries, ← List.length_map (f := Prod.snd), ← hentries]
  cases hfirst : marks.filterMap (fun mark => mark.1.map (fun low => (low, mark.2))) with
  | nil => simp
  | cons first rest =>
    have hmax : (∃ error, maxOf first.2 (rest.map Prod.snd) = .error error) ↔
        rest.map Prod.snd ≠ [] ∧ none ∈ first.2 :: rest.map Prod.snd := maxOf_error_iff
    rw [List.map_cons, List.length_cons, List.length_map]
    dsimp only
    have hpos : 2 ≤ rest.length + 1 ↔ rest.map Prod.snd ≠ [] := by
      cases rest <;> simp
    rw [hpos, ← hmax]
    cases maxOf first.2 (rest.map Prod.snd) with
    | error e => simp [bind, Except.bind]
    | ok high => simp [bind, Except.bind, pure, Except.pure]

/-- An aligned chain cannot be materialized exactly when its marks cannot be compared. -/
theorem build_error_iff {chain : ChainState} {reason : Option String}
    (haligned : chain.buffer.Aligned) :
    (∃ error, buildMaterializedTrajectory chain reason = .error error) ↔
      LacksLastStep chain.buffer.generationVersions := by
  have hassert := assertResponseLogprobAlignment_eq_ok (u := ()).mpr haligned
  unfold buildMaterializedTrajectory
  rw [← versionSpanOf_error_iff, hassert]
  cases versionSpanOf chain.buffer.generationVersions with
  | error e => simp [bind, Except.bind]
  | ok span => simp [bind, Except.bind, pure, Except.pure]

/-- The request finds its chain at the capacity, and what it is to close of it lacks a last
step. -/
def GatewaySession.FailsToClose (C : MessageCodec) (s : GatewaySession) : Action → Prop
  | .request request => ∃ encoded chain, Reuses C s request encoded chain ∧
      encoded.capacityExhausted = true ∧
      (encoded.rollbackApplied = true → chain.lastAssistantStart.responseIdsLen ≠ 0) ∧
      LacksLastStep (GatewaySession.chainToMaterialize chain encoded).buffer.generationVersions
  | _ => False

/-- What is closed of a chain is aligned: preparation has checked it. -/
theorem Reuses.aligned {s : GatewaySession} {request : InternalGenerationRequest}
    {encoded : EncodedData} {chain : ChainState} (h : Reuses C s request encoded chain)
    (hfull : encoded.capacityExhausted = true) :
    (GatewaySession.chainToMaterialize chain encoded).buffer.Aligned := by
  obtain ⟨w, hreused, hbuffer, _⟩ := h.exhausted hfull
  unfold GatewaySession.chainToMaterialize
  generalize encoded.rollbackApplied = rollback at hreused
  cases hreused with
  | whole haligned => exact haligned
  | rolledBack buffer images videos hb haligned _ _ _ _ =>
    simp only [if_true, hbuffer]
    exact haligned

/-! ## The steps of one request -/

/-- The action is a step of the request, or sets the reward info. -/
def Action.ownedBy (requestId : Nat) : Action → Bool
  | .backendReturns id _ => id == requestId
  | .backendRaises id _ => id == requestId
  | .commit id _ => id == requestId
  | .cancel id => id == requestId
  | .release id => id == requestId
  | .setRewardInfo _ => true
  | _ => false

/-- The session with the reservation that a request takes. -/
def GatewaySession.reserveFor (s : GatewaySession) : Option Nat → GatewaySession
  | none => s
  | some chainId => s.reserveChain chainId

theorem release_reserveChain {s : GatewaySession} {id : Nat} (h : id ∉ s.reservedChainIds) :
    (s.reserveChain id).releaseChainReservation id = s := by
  unfold GatewaySession.reserveChain GatewaySession.releaseChainReservation
  have hfilter : s.reservedChainIds.filter (· != id) = s.reservedChainIds := by
    rw [List.filter_eq_self]
    intro i hi
    simp only [bne_iff_ne, ne_eq]
    rintro rfl
    exact h hi
  rw [if_neg (by simpa using h)]
  simp [List.filter_append, hfilter]

/-- A session that differs in its reward only does so under another reward. -/
theorem setRewardInfo_of_eq {s r : GatewaySession} (h : s = { r with rewardInfo := s.rewardInfo })
    (info : Option Dict) : (s.setRewardInfo info).2 =
      { r with rewardInfo := (s.setRewardInfo info).2.rewardInfo } := by
  unfold GatewaySession.setRewardInfo
  split
  · exact h
  · cases info with
    | none => exact h
    | some info =>
      simp only
      rw [h]

/-- What a failed request leaves of a session: all but reward info that was set meanwhile, and an
order number when it failed to close a chain. -/
structure LeftBy (closing : Prop) (s t : GatewaySession) : Prop where
  same : t = { s with orderSeq := t.orderSeq, rewardInfo := t.rewardInfo }
  taken : closing → t.orderSeq = s.orderSeq + 1
  untouched : ¬ closing → t.orderSeq = s.orderSeq

/-- Where a request stands that entered in `sys` and has had only its own steps since: it is in
flight, or it has failed and left nothing, or it is done. -/
inductive Progress (sys : System) (closing : Prop) : System → Prop
  | running (u : System) (f : InFlight) (hopen : ¬ closing) (hid : f.requestId = sys.nextRequestId)
      (hfree : ∀ id, f.encoded.chainId = some id → id ∉ sys.session.reservedChainIds)
      (hsession : u.session =
        { sys.session.reserveFor f.encoded.chainId with rewardInfo := u.session.rewardInfo })
      (hflight : u.inFlight = sys.inFlight ++ [f]) (hfinished : u.finished = sys.finished) :
      Progress sys closing u
  | failed (u : System) (error : PyError) (hsession : LeftBy closing sys.session u.session)
      (hflight : u.inFlight = sys.inFlight)
      (hfinished : u.finished = sys.finished ++ [(sys.nextRequestId, .error error)]) :
      Progress sys closing u
  | done (u : System) (outcome : GenerationOutcome) (hflight : u.inFlight = sys.inFlight)
      (hfinished : u.finished = sys.finished ++ [(sys.nextRequestId, .ok outcome)]) :
      Progress sys closing u

theorem LeftBy.of_eq {s u : GatewaySession} (hopen : ¬ closing)
    (h : u = { s with rewardInfo := u.rewardInfo }) : LeftBy closing s u := by
  have horder : u.orderSeq = s.orderSeq := by rw [h]
  refine ⟨?_, fun hclosing => absurd hclosing hopen, fun _ => horder⟩
  rw [horder]
  exact h

theorem LeftBy.eq_of_open {s u : GatewaySession} (h : LeftBy closing s u) (hopen : ¬ closing) :
    u = { s with rewardInfo := u.rewardInfo } := by
  have hsame := h.same
  rw [h.untouched hopen] at hsame
  exact hsame

theorem LeftBy.setRewardInfo {s u : GatewaySession} (h : LeftBy closing s u)
    (info : Option Dict) : LeftBy closing s (u.setRewardInfo info).2 := by
  have hset := setRewardInfo_of_eq (s := u) rfl info
  have horder : (u.setRewardInfo info).2.orderSeq = u.orderSeq := by rw [hset]
  refine ⟨?_, fun hclosing => horder.trans (h.taken hclosing),
    fun hopen => horder.trans (h.untouched hopen)⟩
  rw [horder]
  generalize (u.setRewardInfo info).2 = v at hset ⊢
  rw [hset]
  generalize v.rewardInfo = reward
  rw [h.same]

section InFlight

variable {f f' : InFlight}

theorem find_new (hco : Coherent C sys) (hid : f.requestId = sys.nextRequestId)
    (hflight : u.inFlight = sys.inFlight ++ [f]) : u.find sys.nextRequestId = some f := by
  unfold System.find
  rw [hflight, List.find?_append]
  have hnone : sys.inFlight.find? (fun g => g.requestId == sys.nextRequestId) = none := by
    rw [List.find?_eq_none]
    intro g hg
    have := hco.requestIds_lt g hg
    simp only [beq_iff_eq]
    omega
  rw [hnone]
  simp [hid]

theorem find_gone (hco : Coherent C sys) (hflight : u.inFlight = sys.inFlight) :
    u.find sys.nextRequestId = none := by
  unfold System.find
  rw [hflight, List.find?_eq_none]
  intro g hg
  have := hco.requestIds_lt g hg
  simp only [beq_iff_eq]
  omega

theorem inFlight_update (hco : Coherent C sys) (hid : f.requestId = sys.nextRequestId)
    (hid' : f'.requestId = sys.nextRequestId) (hflight : u.inFlight = sys.inFlight ++ [f]) :
    (u.update f').inFlight = sys.inFlight ++ [f'] := by
  unfold System.update
  rw [hflight]
  simp only [List.map_append, List.map_cons, List.map_nil, hid, hid', if_true]
  congr 1
  conv_rhs => rw [← List.map_id sys.inFlight]
  apply List.map_congr_left
  intro g hg
  have := hco.requestIds_lt g hg
  rw [if_neg (by omega)]
  rfl

theorem inFlight_finish (hco : Coherent C sys) (hid : f.requestId = sys.nextRequestId)
    (hflight : u.inFlight = sys.inFlight ++ [f]) :
    u.inFlight.filter (fun g => g.requestId != sys.nextRequestId) = sys.inFlight := by
  rw [hflight, List.filter_append, finish_new hco]
  simp [hid]

/-- The request fails: without a reservation it is gone, with one it has still to release it. -/
theorem progress_fail (hco : Coherent C sys) (hopen : ¬ closing)
    (hid : f.requestId = sys.nextRequestId)
    (hfree : ∀ id, f.encoded.chainId = some id → id ∉ sys.session.reservedChainIds)
    (hsession : u.session =
      { sys.session.reserveFor f.encoded.chainId with rewardInfo := u.session.rewardInfo })
    (hflight : u.inFlight = sys.inFlight ++ [f]) (hfinished : u.finished = sys.finished)
    (error : PyError) : Progress sys closing (u.fail f error) := by
  unfold System.fail
  cases hchain : f.encoded.chainId with
  | none =>
    rw [hchain] at hsession
    refine .failed _ error (.of_eq hopen hsession) ?_ ?_
    · simp only [System.finish, hid]
      exact inFlight_finish hco hid hflight
    · simp [System.finish, hid, hfinished]
  | some id =>
    exact .running _ { f with stage := .releasing error } hopen hid hfree hsession
      (inFlight_update hco hid hid hflight) hfinished

/-- The backend answers. -/
theorem progress_absorb (hco : Coherent C sys) (hopen : ¬ closing)
    (hid : f.requestId = sys.nextRequestId)
    (hfree : ∀ id, f.encoded.chainId = some id → id ∉ sys.session.reservedChainIds)
    (hsession : u.session =
      { sys.session.reserveFor f.encoded.chainId with rewardInfo := u.session.rewardInfo })
    (hflight : u.inFlight = sys.inFlight ++ [f]) (hfinished : u.finished = sys.finished)
    {output : TokenOutput} {absorbed : EncodedData}
    (habsorb : absorbOutput f.encoded output = .ok absorbed) :
    Progress sys closing (u.update { f with encoded := absorbed, stage := .generated output }) := by
  obtain ⟨logProbs, habsorbed, _⟩ := absorbOutput_eq_ok habsorb
  have hchain : absorbed.chainId = f.encoded.chainId := by rw [habsorbed]
  refine .running _ { f with encoded := absorbed, stage := .generated output } hopen hid ?_ ?_
    (inFlight_update hco hid hid hflight) hfinished
  · simpa only [hchain] using hfree
  · simp only [hchain]
    exact hsession

/-- The answer is committed, or the request fails there. -/
theorem progress_commit (hco : Coherent C sys) (hcou : Coherent C u) (hopen : ¬ closing)
    (hid : f.requestId = sys.nextRequestId)
    (hfree : ∀ id, f.encoded.chainId = some id → id ∉ sys.session.reservedChainIds)
    (hsession : u.session =
      { sys.session.reserveFor f.encoded.chainId with rewardInfo := u.session.rewardInfo })
    (hflight : u.inFlight = sys.inFlight ++ [f]) (hfinished : u.finished = sys.finished)
    {output : TokenOutput} (hstage : f.stage = .generated output) (callIds : Nat → String) :
    Progress sys closing (u.commitRequest C f output callIds) := by
  have hmem : f ∈ u.inFlight := by simp [hflight]
  have hspec := secondSection_spec hcou hmem hstage callIds
  have hgone : u.inFlight.filter (fun g => g.requestId != f.requestId) = sys.inFlight := by
    rw [hid]
    exact inFlight_finish hco hid hflight
  unfold System.commitRequest
  revert hspec
  generalize u.session.secondSection C f.encoded output callIds = result
  intro hspec
  cases hspec with
  | raised error => exact progress_fail hco hopen hid hfree hsession hflight hfinished _
  | committedNew assistantMsg start outcome hcommits hchosen hchain hrollback =>
    refine .done _ outcome hgone ?_
    simp [System.finish, hid, hfinished]
  | committedReuse assistantMsg start outcome before after chain hcommits hchosen hchain hsplit =>
    refine .done _ outcome hgone ?_
    simp [System.finish, hid, hfinished]

/-- The request gives its reservation back and is gone. -/
theorem progress_release (hco : Coherent C sys) (hopen : ¬ closing)
    (hid : f.requestId = sys.nextRequestId)
    (hfree : ∀ id, f.encoded.chainId = some id → id ∉ sys.session.reservedChainIds)
    (hsession : u.session =
      { sys.session.reserveFor f.encoded.chainId with rewardInfo := u.session.rewardInfo })
    (hflight : u.inFlight = sys.inFlight ++ [f]) (hfinished : u.finished = sys.finished)
    {chainId : Nat} (hchain : f.encoded.chainId = some chainId) (error : PyError) :
    Progress sys closing ({ u with session := u.session.releaseChainReservation chainId }.finish
      f.requestId (.error error)) := by
  have hrelease := release_reserveChain (hfree chainId hchain)
  rw [hchain] at hsession
  refine .failed _ error (.of_eq hopen ?_) ?_ ?_
  · simp only [System.finish]
    rw [hsession]
    exact congrArg (fun s : GatewaySession =>
      { s with rewardInfo := u.session.rewardInfo }) hrelease
  · rw [hid]
    exact inFlight_finish hco hid hflight
  · simp [System.finish, hid, hfinished]

end InFlight

/-! ## One step, and a run -/

/-- A step of the request itself moves it on. -/
theorem progress_step (hco : Coherent C sys) (hcou : Coherent C u) (h : Progress sys closing u)
    {a : Action} (howned : a.ownedBy sys.nextRequestId = true) (hstep : u.step C a = some t) :
    Progress sys closing t := by
  cases h with
  | running f hopen hid hfree hsession hflight hfinished =>
    have hfind := find_new hco hid hflight
    cases a with
    | request request => simp [Action.ownedBy] at howned
    | cancelEarly => simp [Action.ownedBy] at howned
    | finalize => simp [Action.ownedBy] at howned
    | abort => simp [Action.ownedBy] at howned
    | backendReturns id output =>
      obtain rfl : id = sys.nextRequestId := by simpa [Action.ownedBy] using howned
      simp only [System.step, hfind] at hstep
      obtain ⟨requestId, request, encoded, chosen, stage⟩ := f
      cases stage with
      | generating =>
        simp only at hid hstep
        subst hid
        split at hstep
        · cases hstep
          exact progress_fail hco hopen rfl hfree hsession hflight hfinished _
        · rename_i absorbed habsorb
          cases hstep
          exact progress_absorb hco hopen rfl hfree hsession hflight hfinished habsorb
      | generated output => simp at hstep
      | releasing error => simp at hstep
    | backendRaises id error =>
      obtain rfl : id = sys.nextRequestId := by simpa [Action.ownedBy] using howned
      simp only [System.step, hfind] at hstep
      obtain ⟨requestId, request, encoded, chosen, stage⟩ := f
      cases stage with
      | generating =>
        simp only at hid hstep
        subst hid
        cases hstep
        exact progress_fail hco hopen rfl hfree hsession hflight hfinished _
      | generated output => simp at hstep
      | releasing error => simp at hstep
    | commit id callIds =>
      obtain rfl : id = sys.nextRequestId := by simpa [Action.ownedBy] using howned
      simp only [System.step, hfind] at hstep
      obtain ⟨requestId, request, encoded, chosen, stage⟩ := f
      cases stage with
      | generating => simp at hstep
      | releasing error => simp at hstep
      | generated output =>
        simp only at hid hstep
        subst hid
        cases hstep
        exact progress_commit hco hcou hopen rfl hfree hsession hflight hfinished rfl callIds
    | cancel id =>
      obtain rfl : id = sys.nextRequestId := by simpa [Action.ownedBy] using howned
      simp only [System.step, hfind] at hstep
      split at hstep
      · cases hstep
      · cases hstep
        exact progress_fail hco hopen hid hfree hsession hflight hfinished _
    | release id =>
      obtain rfl : id = sys.nextRequestId := by simpa [Action.ownedBy] using howned
      simp only [System.step, hfind] at hstep
      obtain ⟨requestId, request, encoded, chosen, stage⟩ := f
      cases stage with
      | generating => simp at hstep
      | generated output => simp at hstep
      | releasing error =>
        simp only at hid hstep
        subst hid
        cases hchain : encoded.chainId with
        | none => simp [hchain] at hstep
        | some chainId =>
          simp only [hchain] at hstep
          cases hstep
          exact progress_release hco hopen rfl hfree hsession hflight hfinished hchain error
    | setRewardInfo info =>
      cases hstep
      exact .running _ f hopen hid hfree (setRewardInfo_of_eq hsession info) hflight hfinished
  | failed error hsession hflight hfinished =>
    have hfind := find_gone hco hflight
    cases a with
    | setRewardInfo info =>
      cases hstep
      exact .failed _ error (hsession.setRewardInfo info) hflight hfinished
    | _ => simp_all [Action.ownedBy, System.step]
  | done outcome hflight hfinished =>
    have hfind := find_gone hco hflight
    cases a with
    | setRewardInfo info =>
      cases hstep
      exact .done _ outcome hflight hfinished
    | _ => simp_all [Action.ownedBy, System.step]

theorem progress_run (hco : Coherent C sys) (hcou : Coherent C u) (h : Progress sys closing u)
    {own : List Action} (howned : ∀ a ∈ own, a.ownedBy sys.nextRequestId = true)
    (hrun : runs.run (System.step C) u own = some t) : Progress sys closing t := by
  have hboth : Coherent C t ∧ Progress sys closing t := by
    refine runs.run_invariant (Q := fun _ a => a.ownedBy sys.nextRequestId = true)
      (fun v => Coherent C v ∧ Progress sys closing v) ?_ hrun
        (runs.meets_of_forall howned) ⟨hcou, h⟩
    intro v a w hv howned hstep
    exact ⟨coherent_step hv.1 hstep, progress_step hco hv.1 hv.2 howned hstep⟩
  exact hboth.2

/-- Where a request stands that found its chain at the capacity. -/
theorem progress_closure (hco : Coherent C sys) {request : InternalGenerationRequest}
    {encoded : EncodedData} {chain : ChainState}
    (hreuse : Reuses C sys.session request encoded chain)
    (hfull : encoded.capacityExhausted = true) :
    Progress sys (sys.session.FailsToClose C (.request request)) (sys.beginRequest C request) := by
  have hmem := (eligible_of_selectChain hreuse.select).1
  obtain ⟨before, after, hsplit, hfind⟩ :=
    GatewaySession.findActiveChain_split hco.chainIds_nodup hmem
  unfold System.beginRequest GatewaySession.firstSection
  simp only [hreuse.active, ne_eq, not_true_eq_false, if_false, hreuse.prepared, hfull,
    hreuse.chainId]
  by_cases hdrop : encoded.rollbackApplied = true ∧ chain.lastAssistantStart.responseIdsLen = 0
  · obtain ⟨hrollback, hstart⟩ := hdrop
    rw [GatewaySession.closeLengthExhaustedChain_drop hreuse.chainId hsplit hfind hrollback hstart]
    exact .done _ _ (finish_new hco) rfl
  · have hstart : encoded.rollbackApplied = true →
        chain.lastAssistantStart.responseIdsLen ≠ 0 := fun h h' => hdrop ⟨h, h'⟩
    cases hbuild : buildMaterializedTrajectory
        (GatewaySession.chainToMaterialize chain encoded) (some "max_trajectory_length") with
    | error e =>
      rw [GatewaySession.closeLengthExhaustedChain_fail hreuse.chainId hfind hstart hbuild]
      have hmarks := (build_error_iff (hreuse.aligned hfull)).mp ⟨e, hbuild⟩
      refine .failed _ e ⟨rfl, fun _ => rfl, ?_⟩ (finish_new hco) rfl
      intro hcloses
      exact absurd ⟨encoded, chain, hreuse, hfull, hstart, hmarks⟩ hcloses
    | ok trajectory =>
      rw [GatewaySession.closeLengthExhaustedChain_close hreuse.chainId hsplit hfind hstart hbuild]
      exact .done _ _ (finish_new hco) rfl

/-- Where a request stands that goes on to the backend. -/
theorem progress_prepared {request : InternalGenerationRequest} {encoded : EncodedData}
    (hopen : ¬ closing) (hactive : sys.session.phase = .active)
    (hprep : sys.session.prepareGenerationInputs C request = .ok encoded)
    (hroom : encoded.capacityExhausted = false) :
    Progress sys closing (sys.beginRequest C request) := by
  obtain ⟨chosen, hchosen⟩ := prepare_chosen hprep
  unfold System.beginRequest GatewaySession.firstSection
  simp only [hactive, ne_eq, not_true_eq_false, if_false, hprep, hroom]
  cases hchain : encoded.chainId with
  | none =>
    simp only [hchain, Option.bind_none]
    refine .running _ ⟨sys.nextRequestId, request, encoded, none, .generating⟩ hopen rfl ?_ ?_ rfl
      rfl
    · simp [hchain]
    · simp [hchain, GatewaySession.reserveFor]
  | some id =>
    simp only [hchain, Option.bind_some]
    refine .running _ ⟨sys.nextRequestId, request, encoded,
      sys.session.activeChains.find? (fun chain => chain.chainId == id), .generating⟩ hopen rfl
      ?_ ?_ ?_ rfl
    · intro id' hid'
      cases hchosen with
      | fresh hselect hnone hrollback => exact absurd (hchain.symm.trans hnone) (by simp)
      | reused chain rollback hselect hsome hrollback =>
        rw [hsome, Option.some.injEq] at hid'
        exact hid' ▸ not_reserved_of_select hselect
    · simp [hchain, GatewaySession.reserveFor]
    · simp

/-- Where a request stands after its first section. -/
theorem progress_request (hco : Coherent C sys) (request : InternalGenerationRequest) :
    Progress sys (sys.session.FailsToClose C (.request request)) (sys.beginRequest C request) := by
  by_cases hactive : sys.session.phase = .active
  · cases hprep : sys.session.prepareGenerationInputs C request with
    | error e =>
      have hopen : ¬ sys.session.FailsToClose C (.request request) := by
        rintro ⟨encoded, chain, hreuse, _⟩
        simp [hreuse.prepared] at hprep
      unfold System.beginRequest GatewaySession.firstSection
      simp only [hactive, ne_eq, not_true_eq_false, if_false, hprep]
      exact .failed _ e (.of_eq hopen rfl) (finish_new hco) rfl
    | ok encoded =>
      cases hfull : encoded.capacityExhausted with
      | false =>
        refine progress_prepared ?_ hactive hprep hfull
        rintro ⟨encoded', chain, hreuse, hfull', _⟩
        rw [hreuse.prepared, Except.ok.injEq] at hprep
        rw [hprep, hfull] at hfull'
        cases hfull'
      | true =>
        obtain ⟨chosen, hchosen⟩ := prepare_chosen hprep
        cases hchosen with
        | fresh hselect hchain hrollback =>
          unfold System.beginRequest GatewaySession.firstSection
          simp only [hactive, ne_eq, not_true_eq_false, if_false, hprep, hfull, hchain]
          exact .done _ _ (finish_new hco) rfl
        | reused chain rollback hselect hchain hrollback =>
          exact progress_closure hco ⟨hactive, hprep, hrollback ▸ hselect, hchain⟩ hfull
  · have hopen : ¬ sys.session.FailsToClose C (.request request) := by
      rintro ⟨encoded, chain, hreuse, _⟩
      exact hactive hreuse.active
    unfold System.beginRequest GatewaySession.firstSection
    simp only [ne_eq, hactive, not_false_eq_true, if_true]
    exact .failed _ _ (.of_eq hopen rfl) (finish_new hco) rfl

/-- The first step of a request: it goes through its first section, or is cancelled in it. -/
def Action.enters : Action → Bool
  | .request _ => true
  | .cancelEarly => true
  | _ => false

theorem progress_enters (hco : Coherent C sys) {entry : Action} (hentry : entry.enters = true)
    (hstep : sys.step C entry = some u) :
    Progress sys (sys.session.FailsToClose C entry) u := by
  cases entry with
  | request request =>
    cases hstep
    exact progress_request hco request
  | cancelEarly =>
    cases hstep
    exact .failed _ .cancelledError (.of_eq (fun h => h) rfl) (finish_new hco) rfl
  | _ => cases hentry

/-! ## The law -/

/-- Preparation reads neither the reward info nor the order numbers. -/
theorem prepare_of_leftBy {s v : GatewaySession} (h : LeftBy closing s v)
    (request : InternalGenerationRequest) :
    v.selectionFor C request = s.selectionFor C request ∧
      v.prepareGenerationInputs C request = s.prepareGenerationInputs C request := by
  have hsame := h.same
  generalize v.orderSeq = order at hsame
  generalize v.rewardInfo = reward at hsame
  subst hsame
  have hselect : ∀ tools hashes,
      ({ s with orderSeq := order, rewardInfo := reward } : GatewaySession).selectChain tools
        hashes = s.selectChain tools hashes := fun _ _ => rfl
  refine ⟨rfl, ?_⟩
  unfold GatewaySession.prepareGenerationInputs
  simp only [hselect]

/-- A request that ends in an error, also by a cancellation in its first section, with no step of
another request, no finalize and no abort in between, leaves the whole session as it was, except
for reward info that was set meanwhile, and for one order number when the closure of its chain
failed. So the same request sent again, and any other, is prepared as before. -/
theorem failed_requests_leave_no_trace {sessionId : String}
    {promptLength responseLength : Option Int} {enable : Bool} {s : GatewaySession}
    {actions own : List Action} {entry : Action} {error : PyError}
    (hnew : GatewaySession.create sessionId promptLength responseLength enable = .ok s)
    (hrun : runFrom C s actions = some sys) (hentry : entry.enters = true)
    (howned : ∀ a ∈ own, a.ownedBy sys.nextRequestId = true)
    (hown : runs.run (System.step C) sys (entry :: own) = some t)
    (hend : t.finished = sys.finished ++ [(sys.nextRequestId, .error error)]) :
    LeftBy (sys.session.FailsToClose C entry) sys.session t.session ∧
      t.inFlight = sys.inFlight ∧
      ∀ again, t.session.selectionFor C again = sys.session.selectionFor C again ∧
        t.session.prepareGenerationInputs C again =
          sys.session.prepareGenerationInputs C again := by
  have hco := coherent_run hnew hrun
  obtain ⟨u, hu, hrest⟩ := runs.run_cons.mp hown
  cases progress_run hco (coherent_step hco hu) (progress_enters hco hentry hu) howned hrest with
  | running f hopen hid hfree hsession hflight hfinished =>
    rw [hfinished] at hend
    simp at hend
  | done outcome hflight hfinished =>
    rw [hfinished] at hend
    simp at hend
  | failed e hsession hflight hfinished =>
    exact ⟨hsession, hflight, fun again => prepare_of_leftBy hsession again⟩

/-- With room for a request there is no closure. -/
theorem not_failsToClose_of_room {s : GatewaySession} {request : InternalGenerationRequest}
    (h : (s.prepareGenerationInputs C request).toOption.any
      (fun encoded => !encoded.capacityExhausted) = true) :
    ¬ s.FailsToClose C (.request request) := by
  rintro ⟨encoded, chain, hreuse, hfull, _⟩
  simp [hreuse.prepared, Except.toOption, hfull] at h

/-- A request with a result that is no outcome has failed. -/
theorem Progress.error_of_test (h : Progress sys closing t)
    (htest : (sys.finished.length < t.finished.length &&
      t.finished.getLast?.any (fun result => result.2.toOption.isNone)) = true) :
    ∃ error, t.finished = sys.finished ++ [(sys.nextRequestId, .error error)] := by
  cases h with
  | running f _ _ _ _ _ hfinished => simp [hfinished] at htest
  | failed error _ _ hfinished => exact ⟨error, hfinished⟩
  | done outcome _ hfinished => simp [hfinished, Except.toOption] at htest

/-- A rewrite of the first reply, whose backend call fails. -/
def failingRewrite : InternalGenerationRequest :=
  { messages := [say "user" "q", say "assistant" "b", say "user" "r"] }

theorem failed_requests_leave_no_trace_backend_error : ∃ sys t,
    runFrom lineCodec (openSession none) (overlapping.take 3) = some sys ∧
      runs.run (System.step lineCodec) sys
        [.request failingRewrite, .backendRaises 1 (.valueError "bad prompt"), .release 1] =
        some t ∧
      sys.session.activeChains.length = 1 ∧
      t.session = { sys.session with rewardInfo := t.session.rewardInfo } := by
  have hfacts : (runFrom lineCodec (openSession none) (overlapping.take 3)).any (fun sys =>
      sys.nextRequestId == 1 && sys.session.activeChains.length == 1 &&
        (sys.session.prepareGenerationInputs lineCodec failingRewrite).toOption.any
          (fun encoded => !encoded.capacityExhausted) &&
        (runs.run (System.step lineCodec) sys
          [.request failingRewrite, .backendRaises 1 (.valueError "bad prompt"),
            .release 1]).any (fun t => sys.finished.length < t.finished.length &&
              t.finished.getLast?.any (fun result => result.2.toOption.isNone))) = true := by
    decide +kernel
  obtain ⟨sys, hrun, hfacts⟩ := (Option.any_eq_true _ _).mp hfacts
  rw [Bool.and_eq_true, Bool.and_eq_true, Bool.and_eq_true, beq_iff_eq, beq_iff_eq] at hfacts
  obtain ⟨⟨⟨hid, hlen⟩, hroom⟩, hown⟩ := hfacts
  obtain ⟨t, hown, hend⟩ := (Option.any_eq_true _ _).mp hown
  have howned : ∀ a ∈ [Action.backendRaises 1 (.valueError "bad prompt"), .release 1],
      a.ownedBy sys.nextRequestId = true := by
    rw [hid]
    decide
  have hco := coherent_run openSession_eq hrun
  obtain ⟨u, hu, hrest⟩ := runs.run_cons.mp hown
  obtain ⟨error, hfinished⟩ := (progress_run hco (coherent_step hco hu)
    (progress_enters hco rfl hu) howned hrest).error_of_test hend
  obtain ⟨hleft, _, _⟩ := failed_requests_leave_no_trace openSession_eq hrun rfl howned hown
    hfinished
  exact ⟨sys, t, hrun, hown, hlen, hleft.eq_of_open (not_failsToClose_of_room hroom)⟩

/-- Two calls of one chain that report their first step and not their last. -/
def unreportedSteps : List Action :=
  [.request { messages := [say "user" "q"] },
    .backendReturns 0 { tokenIds := tokensOf "a", minGlobalSteps := some 1 },
    .commit 0 (fun _ => ""),
    .request { messages := [say "user" "q", say "assistant" "a", say "user" "r"] },
    .backendReturns 1 { tokenIds := tokensOf "b", minGlobalSteps := some 1 },
    .commit 1 (fun _ => "")]

/-- There is no room for the third turn, and `max` cannot compare the last steps of the chain that
is to be closed: the request fails, and the number that it has taken is gone. -/
theorem a_failed_closure_takes_an_order_number : lineCodec.create = .ok lineCodec ∧
    ∃ sys t error, runFrom lineCodec (openSession (some 12)) unreportedSteps = some sys ∧
      runs.run (System.step lineCodec) sys [.request { messages := [say "user" "q",
        say "assistant" "a", say "user" "r", say "assistant" "b", say "user" "t"] }] = some t ∧
      t.finished = sys.finished ++ [(sys.nextRequestId, .error error)] ∧
      t.session.orderSeq ≠ sys.session.orderSeq := by
  refine ⟨create_lineCodec, ?_⟩
  have hfacts : (runFrom lineCodec (openSession (some 12)) unreportedSteps).any (fun sys =>
      (runs.run (System.step lineCodec) sys [.request { messages := [say "user" "q",
        say "assistant" "a", say "user" "r", say "assistant" "b", say "user" "t"] }]).any (fun t =>
          (sys.finished.length < t.finished.length &&
            t.finished.getLast?.any (fun result => result.2.toOption.isNone)) &&
          t.session.orderSeq != sys.session.orderSeq)) = true := by
    decide +kernel
  have hnew : GatewaySession.create "session" (some 6) (some 6) true =
      .ok (openSession (some 12)) := rfl
  obtain ⟨sys, hrun, hfacts⟩ := (Option.any_eq_true _ _).mp hfacts
  obtain ⟨t, hown, hfacts⟩ := (Option.any_eq_true _ _).mp hfacts
  obtain ⟨hend, horder⟩ := Bool.and_eq_true_iff.mp hfacts
  have hco := coherent_run hnew hrun
  obtain ⟨u, hu, hrest⟩ := runs.run_cons.mp hown
  obtain ⟨error, hfinished⟩ := (progress_run hco (coherent_step hco hu)
    (progress_enters hco rfl hu) (by simp) hrest).error_of_test hend
  exact ⟨sys, t, error, hrun, hown, hfinished, by simpa using horder⟩

end uni_agent.session
