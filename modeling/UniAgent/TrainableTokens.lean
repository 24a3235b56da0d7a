-- Which trajectories have something to train on. A chain always ends with an output, so only a
-- length closure that rolls its last assistant back can leave a trajectory without one. The
-- closure looks at the length of what is left, not at its mask.
import UniAgent.ChainShape

namespace uni_agent.session

variable {C : MessageCodec} {s : GatewaySession} {request : InternalGenerationRequest}
  {encoded : EncodedData} {chain : ChainState}

/-! ## The condition -/

/-- The mask of what a rollback leaves of a response. -/
def ChainState.keptMask (C : MessageCodec) (chain : ChainState) : List Nat :=
  chain.buffer.responseMask.take
    (chain.lastAssistantStart.responseIdsLen - C.assistantPrefix.length)

/-- The request finds no room, and what it rolls a chain back to is not empty. -/
structure ClosesRolledBack (C : MessageCodec) (s : GatewaySession)
    (request : InternalGenerationRequest) (encoded : EncodedData) (chain : ChainState) : Prop where
  reuses : Reuses C s request encoded chain
  exhausted : encoded.capacityExhausted = true
  rollback : encoded.rollbackApplied = true
  start : chain.lastAssistantStart.responseIdsLen ≠ 0

/-- Each closure that rolls a chain back leaves a generated token, unless it leaves nothing. -/
def LeavesTrainable (C : MessageCodec) (sys : System) (a : Action) : Prop :=
  ∀ request encoded chain, a = .request request →
    ClosesRolledBack C sys.session request encoded chain → 1 ∈ chain.keptMask C

/-- The condition as a test. -/
def leavesTrainable (C : MessageCodec) (sys : System) : Action → Bool
  | .request request =>
    match sys.session.prepareGenerationInputs C request, sys.session.selectionFor C request with
    | .ok encoded, some (chain, _) =>
      !encoded.capacityExhausted || !encoded.rollbackApplied ||
        chain.lastAssistantStart.responseIdsLen == 0 || (chain.keptMask C).contains 1
    | _, _ => true
  | _ => true

theorem leavesTrainable_of_test {sys : System} {a : Action}
    (h : leavesTrainable C sys a = true) : LeavesTrainable C sys a := by
  rintro request encoded chain rfl hcloses
  unfold leavesTrainable at h
  simp only [hcloses.reuses.prepared, hcloses.reuses.select, hcloses.exhausted, hcloses.rollback,
    Bool.not_true, Bool.false_or, Bool.or_eq_true, beq_iff_eq, hcloses.start, false_or] at h
  simpa using h

/-- Every output has a token. -/
def OutputsNonempty (a : Action) : Prop :=
  ∀ requestId output, a = .backendReturns requestId output → output.tokenIds ≠ []

/-! ## What each operation keeps -/

/-- Chains, full buffers and trajectories have a generated token. -/
def trainableRule : ChainRule where
  chain := fun chain _ => 1 ∈ chain.buffer.responseMask
  ready := fun _ _ => True
  full := fun f _ => 1 ∈ f.encoded.buffer.responseMask
  closed := fun trajectory _ => 1 ∈ trajectory.responseMask

theorem mask_of_rolledBack {b : TrajectoryBuffer} (h : RolledBack C chain b)
    (hlen : chain.lastAssistantStart.responseIdsLen ≤ chain.buffer.responseIds.length)
    (hstart : chain.lastAssistantStart.responseIdsLen ≠ 0) :
    b.responseMask = chain.keptMask C := by
  cases h with
  | intoPrompt _ hzero _ => exact absurd hzero hstart
  | intoResponse responseIds _ hresponse =>
    have hlength := congrArg List.length hresponse
    rw [List.length_take, min_eq_left hlen, List.length_append] at hlength
    unfold ChainState.keptMask
    rw [hlength, Nat.add_sub_cancel]

/-- The mask of a trajectory that is closed after a rollback. -/
theorem closed_mask (h : ClosesRolledBack C s request encoded chain) {trajectory : Trajectory}
    (hbuild : buildMaterializedTrajectory (GatewaySession.chainToMaterialize chain encoded)
      (some "max_trajectory_length") = .ok trajectory) :
    trajectory.responseMask = chain.keptMask C := by
  obtain ⟨w, hreused, hbuffer, _⟩ := h.reuses.exhausted h.exhausted
  obtain ⟨_, span, _, rfl⟩ := build_eq_ok hbuild
  simp only [closing_buffer hreused hbuffer]
  rw [h.rollback] at hreused
  cases hreused with
  | rolledBack buffer images videos hb _ _ hlen _ _ => exact mask_of_rolledBack hb hlen h.start

theorem trainableRule_kept :
    trainableRule.Kept C (fun sys a => OutputsNonempty a ∧ LeavesTrainable C sys a) := by
  constructor
  · intros
    trivial
  · intros
    trivial
  · intro sys f output encoded gens hq _ _ habsorb
    obtain ⟨logProbs, rfl, _⟩ := absorbOutput_eq_ok habsorb
    have hne := hq.1 _ _ rfl
    have hpos : output.tokenIds.length ≠ 0 := by simpa using hne
    exact List.mem_append_right _ (List.mem_replicate.mpr ⟨hpos, rfl⟩)
  · intro sys f output callIds assistantMsg start chainId orderSeq gens _ _ _ hfull
    exact hfull
  · intro sys request encoded chain gens trajectory hq hreuse hexhausted hstart hbuild hchain
    cases hrollback : encoded.rollbackApplied with
    | true =>
      have hcloses : ClosesRolledBack C sys.session request encoded chain :=
        ⟨hreuse, hexhausted, hrollback, hstart hrollback⟩
      change 1 ∈ trajectory.responseMask
      rw [closed_mask hcloses hbuild]
      exact hq.2 request encoded chain rfl hcloses
    | false =>
      obtain ⟨_, span, _, rfl⟩ := build_eq_ok hbuild
      change 1 ∈ (GatewaySession.chainToMaterialize chain encoded).buffer.responseMask
      simp only [GatewaySession.chainToMaterialize, hrollback, Bool.false_eq_true, if_false]
      exact hchain
  · intro chain gens trajectory hchain hbuild
    obtain ⟨_, span, _, rfl⟩ := build_eq_ok hbuild
    exact hchain

/-! ## The law -/

/-- A closure that takes back the last generated token of a chain drops the chain, in a state
where it leaves a generated token or nothing. -/
theorem chain_without_tokens_is_dropped {sys t : System} (hco : Coherent C sys)
    (hreuse : Reuses C sys.session request encoded chain)
    (hfull : encoded.capacityExhausted = true) (hrollback : encoded.rollbackApplied = true)
    (hlast : 1 ∉ chain.buffer.responseMask.take chain.lastAssistantStart.responseIdsLen)
    (hq : LeavesTrainable C sys (.request request))
    (hstep : sys.step C (.request request) = some t) :
    t.session.materializedChains = sys.session.materializedChains ∧
      ∀ c ∈ t.session.activeChains, c.chainId ≠ chain.chainId := by
  have hstart : chain.lastAssistantStart.responseIdsLen = 0 := by
    by_contra hne
    have hkept := hq request encoded chain rfl ⟨hreuse, hfull, hrollback, hne⟩
    exact hlast ((List.take_subset_take_left _ (Nat.sub_le _ _)) hkept)
  obtain ⟨before, after, hsplit, hfind⟩ := GatewaySession.findActiveChain_split
    hco.chainIds_nodup (eligible_of_selectChain hreuse.select).1
  obtain rfl : sys.beginRequest C request = t := by simpa [System.step] using hstep
  unfold System.beginRequest GatewaySession.firstSection
  simp only [hreuse.active, ne_eq, not_true_eq_false, if_false, hreuse.prepared, hfull,
    hreuse.chainId]
  rw [GatewaySession.closeLengthExhaustedChain_drop hreuse.chainId hsplit hfind hrollback hstart]
  refine ⟨GatewaySession.recordRollbackStats_materialized _ _, ?_⟩
  intro c hc
  exact (ChainRule.ne_of_split hco hsplit hc).1

/-- When each closure that rolls a chain back leaves a generated token or nothing, every
trajectory that `finalize` returns has a generated token, and a closure that takes back the
last generated token of a chain drops the chain. -/
theorem every_trajectory_has_trainable_tokens {sys : System} {sessionId : String}
    {promptLength responseLength : Option Int} {enable : Bool} {actions : List Action}
    (hnew : GatewaySession.create sessionId promptLength responseLength enable = .ok s)
    (hrun : runFrom C s actions = some sys) (houtputs : ∀ a ∈ actions, OutputsNonempty a)
    (hcloses : runs.Meets (System.step C) (LeavesTrainable C) (System.initial s) actions) :
    (∀ trajectories s', sys.session.finalize = (.ok trajectories, s') →
      ∀ t ∈ trajectories, 1 ∈ t.responseMask) ∧
    ∀ request encoded chain t, LeavesTrainable C sys (.request request) →
      Reuses C sys.session request encoded chain → encoded.capacityExhausted = true →
      encoded.rollbackApplied = true →
      1 ∉ chain.buffer.responseMask.take chain.lastAssistantStart.responseIdsLen →
      sys.step C (.request request) = some t →
      t.session.materializedChains = sys.session.materializedChains ∧
        ∀ c ∈ t.session.activeChains, c.chainId ≠ chain.chainId := by
  have hmeets := (runs.meets_of_forall houtputs).and hcloses
  have hkept := trainableRule_kept (C := C)
  have hholds := hkept.run hnew hrun hmeets
  refine ⟨?_, ?_⟩
  · intro trajectories s' hfinalize t ht
    obtain ⟨trajectory, gens, rfl, _, hr⟩ := hkept.finalized hholds hfinalize t ht
    exact hr
  · intro request encoded chain t hq hreuse hfull hrollback hlast hstep
    exact chain_without_tokens_is_dropped (coherent_run hnew hrun) hreuse hfull hrollback hlast hq
      hstep

/-- A closure that leaves tokens, but no generated one, materializes them. -/
theorem closure_without_trainable_tokens {sys t : System} (hco : Coherent C sys)
    (h : ClosesRolledBack C sys.session request encoded chain) (hkept : 1 ∉ chain.keptMask C)
    (hstep : sys.step C (.request request) = some t)
    (hbuild : (buildMaterializedTrajectory (GatewaySession.chainToMaterialize chain encoded)
      (some "max_trajectory_length")).toOption.isSome) :
    ∃ m ∈ t.session.materializedChains, 1 ∉ m.trajectory.responseMask := by
  obtain ⟨before, after, hsplit, hfind⟩ := GatewaySession.findActiveChain_split
    hco.chainIds_nodup (eligible_of_selectChain h.reuses.select).1
  cases hresult : buildMaterializedTrajectory (GatewaySession.chainToMaterialize chain encoded)
      (some "max_trajectory_length") with
  | error e => simp [hresult, Except.toOption] at hbuild
  | ok trajectory =>
    obtain rfl : sys.beginRequest C request = t := by simpa [System.step] using hstep
    unfold System.beginRequest GatewaySession.firstSection
    simp only [h.reuses.active, ne_eq, not_true_eq_false, if_false, h.reuses.prepared,
      h.exhausted, h.reuses.chainId]
    rw [GatewaySession.closeLengthExhaustedChain_close h.reuses.chainId hsplit hfind
      (fun _ => h.start) hresult]
    refine ⟨⟨trajectory, sys.session.orderSeq + 1⟩, ?_, ?_⟩
    · simp [System.finish]
    · rw [closed_mask h hresult]
      exact hkept

/-! ## A chain that is rewritten from its first assistant on -/

theorem cappedSession_eq :
    GatewaySession.create "session" (some 4) (some 8) true = .ok (openSession (some 12)) := rfl

/-- One reply, and a request that puts another text in its place. -/
def rewrittenFirst : List Action :=
  [.request { messages := [say "user" "q"] }, .backendReturns 0 { tokenIds := tokensOf "a" },
    .commit 0 (fun _ => ""),
    .request { messages := [say "user" "q", say "assistant" "b", say "user" "r"] },
    .backendReturns 1 { tokenIds := tokensOf "c" }, .commit 1 (fun _ => "")]

/-- A second rewrite, for which there is no room. -/
def longRewrite : InternalGenerationRequest :=
  { messages := [say "user" "q", say "assistant" "b", say "user" "r", say "assistant" "d",
      say "user" "longer"] }

theorem outputsNonempty_rewrittenFirst : ∀ a ∈ rewrittenFirst, OutputsNonempty a := by
  intro a ha requestId output heq
  subst heq
  simp only [rewrittenFirst, List.mem_cons, Action.backendReturns.injEq, reduceCtorEq,
    List.not_mem_nil, or_false, false_or] at ha
  rcases ha with ⟨_, rfl⟩ | ⟨_, rfl⟩ <;> decide +kernel

theorem every_trajectory_has_trainable_tokens_rewrittenFirst :
    ∃ sys, runFrom lineCodec (openSession (some 12)) rewrittenFirst = some sys ∧
      ∃ trajectories s', sys.session.finalize = (.ok trajectories, s') ∧
        trajectories.length = 1 ∧ ∀ t ∈ trajectories, 1 ∈ t.responseMask := by
  have hfacts : (runFrom lineCodec (openSession (some 12)) rewrittenFirst).any (fun sys =>
      sys.session.finalize.1.toOption.any (fun trajectories => trajectories.length == 1)) =
        true := by decide +kernel
  have hchecks : runs.checks (System.step lineCodec) (leavesTrainable lineCodec)
      (System.initial (openSession (some 12))) rewrittenFirst = true := by decide +kernel
  obtain ⟨sys, hrun, hfacts⟩ := (Option.any_eq_true _ _).mp hfacts
  rcases hfinalize : sys.session.finalize with ⟨_ | trajectories, s'⟩
  · simp [hfinalize, Except.toOption] at hfacts
  · have hlaw := every_trajectory_has_trainable_tokens cappedSession_eq hrun
      outputsNonempty_rewrittenFirst
      (runs.meets_of_checks (fun _ _ h => leavesTrainable_of_test h) hchecks)
    refine ⟨sys, hrun, trajectories, s', hfinalize, ?_, hlaw.1 trajectories s' hfinalize⟩
    simpa [hfinalize, Except.toOption] using hfacts

/-- The second rewrite finds no room. What is left of the response is the text of the first
rewrite, which is longer than nothing, so it is materialized, without a token to train on. -/
theorem closed_trajectory_without_trainable_tokens :
    (∀ a ∈ rewrittenFirst ++ [.request longRewrite], OutputsNonempty a) ∧
    ∃ sys, runFrom lineCodec (openSession (some 12))
        (rewrittenFirst ++ [.request longRewrite]) = some sys ∧
      ∃ trajectories s', sys.session.finalize = (.ok trajectories, s') ∧
        ∃ t ∈ trajectories, 1 ∉ t.responseMask := by
  refine ⟨?_, ?_⟩
  · intro a ha
    rcases List.mem_append.mp ha with ha | ha
    · exact outputsNonempty_rewrittenFirst a ha
    · cases List.mem_singleton.mp ha
      intro requestId output heq
      cases heq
  · have hfacts : (runFrom lineCodec (openSession (some 12))
        (rewrittenFirst ++ [.request longRewrite])).any (fun sys =>
          sys.session.finalize.1.toOption.any (fun trajectories =>
            trajectories.any (fun t => !t.responseMask.contains 1))) = true := by decide +kernel
    obtain ⟨sys, hrun, hfacts⟩ := (Option.any_eq_true _ _).mp hfacts
    rcases hfinalize : sys.session.finalize with ⟨_ | trajectories, s'⟩
    · simp [hfinalize, Except.toOption] at hfacts
    · simp only [hfinalize, Except.toOption, Option.any_some] at hfacts
      obtain ⟨t, ht, hmask⟩ := List.any_eq_true.mp hfacts
      exact ⟨sys, hrun, trajectories, s', hfinalize, t, ht, by simpa using hmask⟩

end uni_agent.session
