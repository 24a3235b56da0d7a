-- The capacity of a session. A call is made only where there is room for one more token, it asks
-- for no more tokens than there is room for, and no chain grows past the capacity.
import UniAgent.ChainShape

namespace uni_agent.session

variable {C : MessageCodec} {s : GatewaySession} {request : InternalGenerationRequest}
  {encoded : EncodedData} {chain : ChainState} {capacity : Nat} {sys t : System}

/-! ## The assumptions -/

/-- `_validate_sampling_params`: a request has a positive `max_tokens` or none. -/
def AsksForTokens (a : Action) : Prop :=
  ∀ request maxTokens, a = .request request →
    request.samplingParams.maxTokens = some maxTokens → 0 < maxTokens

/-- The backend returns at most the `max_tokens` that the call was given. -/
def ObeysMaxTokens (sys : System) (a : Action) : Prop :=
  ∀ requestId output, a = .backendReturns requestId output → ∀ f ∈ sys.inFlight,
    f.requestId = requestId → ∀ maxTokens, f.encoded.samplingParams.maxTokens = some maxTokens →
      (output.tokenIds.length : Int) ≤ maxTokens

/-- The steps of a session with a capacity. -/
structure CapacityStep (capacity : Nat) (sys : System) (a : Action) : Prop where
  capacity : sys.session.trajectoryCapacity = some capacity
  asks : AsksForTokens a
  obeys : ObeysMaxTokens sys a

theorem capacity_effect {a : Action} (heffect : Effect C sys a t) :
    t.session.trajectoryCapacity = sys.session.trajectoryCapacity := by
  cases heffect with
  | idle _ session next finished hsession _ _ => exact hsession.capacity
  | preparedReuse request encoded chain _ _ => exact (untouched_reserveChain _ _).capacity
  | committedReuse f output callIds assistantMsg start outcome before after chain _ _ _ =>
    simp [System.finish]
  | dropped request encoded chain before after outcome _ _ _ _ _ => simp
  | closed request encoded chain before after outcome trajectory _ _ _ _ _ => simp
  | _ => rfl

/-! ## Lengths -/

/-- The working copy of a chain is no longer than the chain. -/
theorem Reused.length_le {rollback : Bool} {w : WorkingInputs} (h : Reused C chain rollback w) :
    w.buffer.length ≤ chain.buffer.length := by
  unfold TrajectoryBuffer.length
  cases h with
  | whole _ => exact Nat.le_refl _
  | rolledBack buffer images videos hb _ _ hlen _ _ =>
    cases hb with
    | intoPrompt promptIds _ hprompt =>
      simp only [hprompt, List.length_append, List.length_nil]
      omega
    | intoResponse responseIds _ hresponse =>
      have hlength := congrArg List.length hresponse
      simp only [List.length_take, List.length_append] at hlength
      simp only
      omega

/-- What a call asks for, in a session with room for `room` more tokens. -/
def AsksWithin (room : Int) (own given : Option Int) : Prop :=
  ∃ maxTokens, given = some maxTokens ∧ 1 ≤ maxTokens ∧ maxTokens ≤ room ∧
    ∀ n, own = some n → maxTokens ≤ n

/-- The clamp leaves at least one token, and no more than there is room for. -/
theorem clampMaxTokens_within {length : Nat} {params : SamplingParams} (hlength : length < capacity)
    (hpositive : ∀ n, params.maxTokens = some n → 0 < n) :
    AsksWithin (capacity - length) params.maxTokens
      (clampMaxTokens (some capacity) length params).maxTokens := by
  unfold AsksWithin clampMaxTokens
  refine ⟨_, rfl, ?_, min_le_right _ _, ?_⟩
  · cases hown : params.maxTokens with
    | none =>
      simp only [Option.getD_none, min_self]
      omega
    | some n =>
      have := hpositive n hown
      simp only [Option.getD_some]
      omega
  · intro n hn
    rw [hn]
    exact min_le_left _ _

theorem lt_of_capacityReached {length : Nat}
    (h : capacityReached (some capacity) length = false) : length < capacity := by
  simpa [capacityReached] using h

/-! ## The law -/

/-- A call fits: there is room behind its context, and it asks for no more than that. -/
structure Fits (capacity : Nat) (call : BackendCall) : Prop where
  room : call.contextIds.length < capacity
  asks : AsksWithin (capacity - call.contextIds.length) call.request.samplingParams.maxTokens
    call.samplingParams.maxTokens

def capacityRule (C : MessageCodec) (capacity : Nat) : ChainRule where
  chain := fun chain _ => chain.buffer.length ≤ capacity
  ready := fun f _ => Opened C f.request f.encoded ∧ Fits capacity f.call
  full := fun f _ => f.encoded.buffer.length ≤ capacity
  closed := fun t _ => t.promptIds.length + t.responseIds.length ≤ capacity

/-- A prepared request with room fits. -/
theorem fits_of_prepare (hcapacity : s.trajectoryCapacity = some capacity)
    (hprep : s.prepareGenerationInputs C request = .ok encoded)
    (hroom : encoded.capacityExhausted = false) (hlength : encoded.contextIds.length < capacity)
    (hasks : ∀ n, request.samplingParams.maxTokens = some n → 0 < n) (requestId : Nat)
    (chosen : Option ChainState) :
    Fits capacity (InFlight.call ⟨requestId, request, encoded, chosen, .generating⟩) := by
  obtain ⟨w, _, hpacked⟩ := prepare_eq_ok hprep
  refine ⟨hlength, ?_⟩
  have hparams := hpacked.params (hpacked.exhausted.symm.trans hroom)
  rw [hcapacity] at hparams
  simp only [InFlight.call, hparams]
  exact clampMaxTokens_within hlength hasks

theorem capacityRule_kept : (capacityRule C capacity).Kept C (CapacityStep capacity) := by
  constructor
  · intro sys request encoded hq _ hprep hselect hroom
    have hopened := opened_of_prepare hprep hroom
    refine ⟨hopened, ?_⟩
    obtain ⟨promptIds, _, _, hbuffer, hexhausted⟩ := prepare_fresh hprep hselect
    apply fits_of_prepare hq.capacity hprep hroom ?_ (fun n hn => hq.asks request n rfl hn)
    rw [hopened.contextIds, hbuffer, List.append_nil]
    rw [hroom, hq.capacity] at hexhausted
    exact lt_of_capacityReached hexhausted.symm
  · intro sys request encoded chain gens hq hreuse hroom _
    have hopened := opened_of_prepare hreuse.prepared hroom
    refine ⟨hopened, ?_⟩
    obtain ⟨w, ids, images, videos, hextends, hleft⟩ := hreuse.extends hroom
    apply fits_of_prepare hq.capacity hreuse.prepared hroom ?_
      (fun n hn => hq.asks request n rfl hn)
    rw [hq.capacity] at hleft
    have hlt := lt_of_capacityReached hleft
    rw [hopened.contextIds, hextends.buffer]
    simp only [appendContext, List.length_append]
    unfold TrajectoryBuffer.length at hlt
    omega
  · intro sys f output encoded gens hq hmem hready habsorb
    obtain ⟨hopened, hfits⟩ := hready
    obtain ⟨maxTokens, hgiven, _, hroom, _⟩ := hfits.asks
    have hreturned := hq.obeys f.requestId output rfl f hmem rfl maxTokens hgiven
    obtain ⟨logProbs, rfl, _⟩ := absorbOutput_eq_ok habsorb
    have hlength := congrArg List.length hopened.contextIds
    simp only [InFlight.call] at hroom
    rw [hlength] at hroom
    change (f.encoded.buffer.promptIds.length +
      (f.encoded.buffer.responseIds ++ output.tokenIds).length) ≤ capacity
    simp only [List.length_append] at hroom ⊢
    omega
  · intro sys f output callIds assistantMsg start chainId orderSeq gens _ _ _ hfull
    exact hfull
  · intro sys request encoded chain gens trajectory _ hreuse hfull _ hbuild hchain
    obtain ⟨w, hreused, hbuffer, _⟩ := hreuse.exhausted hfull
    obtain ⟨_, _, _, rfl⟩ := build_eq_ok hbuild
    simp only [closing_buffer hreused hbuffer]
    exact hreused.length_le.trans hchain
  · intro chain gens trajectory hchain hbuild
    obtain ⟨_, _, _, rfl⟩ := build_eq_ok hbuild
    exact hchain

/-- With a capacity, every call fits, and neither a chain nor a trajectory is longer than the
capacity, in every state of every run. -/
theorem capacity_is_never_exceeded {sessionId : String} {promptLength responseLength : Int}
    {enable : Bool} {actions : List Action}
    (hnew : GatewaySession.create sessionId (some promptLength) (some responseLength) enable =
      .ok s)
    (hrun : runFrom C s actions = some sys) (hasks : ∀ a ∈ actions, AsksForTokens a)
    (hobeys : runs.Meets (System.step C) ObeysMaxTokens (System.initial s) actions) :
    ∃ capacity : Nat, (capacity : Int) = promptLength + responseLength ∧
      (∀ call ∈ sys.calls, Fits capacity call) ∧
      (∀ chain ∈ sys.session.activeChains, chain.buffer.length ≤ capacity) ∧
      (∀ m ∈ sys.session.materializedChains,
        m.trajectory.promptIds.length + m.trajectory.responseIds.length ≤ capacity) ∧
      ∀ trajectories s', sys.session.finalize = (.ok trajectories, s') → ∀ t ∈ trajectories,
        t.promptIds.length + t.responseIds.length ≤ capacity := by
  have hcapacity : ∃ capacity : Nat, (capacity : Int) = promptLength + responseLength ∧
      s.trajectoryCapacity = some capacity := by
    unfold GatewaySession.create at hnew
    by_cases hprompt : promptLength ≤ 0
    · simp [hprompt, bind, Except.bind, throw, throwThe, MonadExceptOf.throw] at hnew
    · by_cases hresponse : responseLength ≤ 0
      · simp [hprompt, hresponse, bind, Except.bind, throw, throwThe, MonadExceptOf.throw] at hnew
      · simp [hprompt, hresponse, pure, Except.pure] at hnew
        subst hnew
        exact ⟨(promptLength + responseLength).toNat, by omega, rfl⟩
  obtain ⟨capacity, htotal, hcapacity⟩ := hcapacity
  have hmeets : runs.Meets (System.step C) (CapacityStep capacity) (System.initial s)
      actions := by
    have hconstant : runs.Meets (System.step C) (fun u _ => Coherent C u ∧
        u.session.trajectoryCapacity = some capacity) (System.initial s) actions := by
      apply runs.meets_of_invariant
        (fun u => Coherent C u ∧ u.session.trajectoryCapacity = some capacity)
      · rintro u a v ⟨hco, hu⟩ hstep
        have heffect := step_effect hco hstep
        exact ⟨coherent_effect hco heffect, (capacity_effect heffect).trans hu⟩
      · exact ⟨coherent_initial hnew, hcapacity⟩
    apply ((hconstant.and (runs.meets_of_forall hasks)).and hobeys).imp
    rintro u a ⟨⟨⟨_, hu⟩, ha⟩, ho⟩
    exact ⟨hu, ha, ho⟩
  have hholds := capacityRule_kept.run hnew hrun hmeets
  refine ⟨capacity, htotal, ?_, hholds.chains, ?_, ?_⟩
  · exact capacityRule_kept.calls_run hnew hrun hmeets (fun f gens hready => hready.2)
  · intro m hm
    obtain ⟨_, _, hclosed⟩ := hholds.closed m hm
    exact hclosed
  · intro trajectories s' hfinalize t ht
    obtain ⟨trajectory, _, rfl, _, hclosed⟩ := capacityRule_kept.finalized hholds hfinalize t ht
    exact hclosed

/-! ## A session that runs full -/

def obeysMaxTokens (sys : System) : Action → Bool
  | .backendReturns requestId output => sys.inFlight.all (fun f => f.requestId != requestId ||
      f.encoded.samplingParams.maxTokens.all (fun n => (output.tokenIds.length : Int) ≤ n))
  | _ => true

theorem obeysMaxTokens_of_test {a : Action} (h : obeysMaxTokens sys a = true) :
    ObeysMaxTokens sys a := by
  rintro requestId output rfl f hf hid maxTokens hgiven
  have htest := List.all_eq_true.mp h f hf
  simpa [hid, hgiven] using htest

/-- Two replies within a capacity of 14, and a request for which there is no room. -/
def filledUp : List Action :=
  [.request { messages := [say "user" "q"], samplingParams := { maxTokens := some 3 } },
    .backendReturns 0 { tokenIds := tokensOf "a" }, .commit 0 (fun _ => ""),
    .request { messages := [say "user" "q", say "assistant" "a", say "user" "r"] },
    .backendReturns 1 { tokenIds := tokensOf "bcd" }, .commit 1 (fun _ => ""),
    .request { messages := [say "user" "q", say "assistant" "a", say "user" "r",
      say "assistant" "bcd", say "user" "t"] }]

theorem capacity_is_never_exceeded_filledUp :
    ∃ sys, runFrom lineCodec (openSession (some 14)) filledUp = some sys ∧
      sys.session.materializedChains.length = 1 ∧ (∀ call ∈ sys.calls, Fits 14 call) ∧
      ∀ m ∈ sys.session.materializedChains,
        m.trajectory.promptIds.length + m.trajectory.responseIds.length ≤ 14 := by
  have hfacts : (runFrom lineCodec (openSession (some 14)) filledUp).any (fun sys =>
      sys.session.materializedChains.length == 1) = true := by decide +kernel
  have hobeys : runs.checks (System.step lineCodec) obeysMaxTokens
      (System.initial (openSession (some 14))) filledUp = true := by decide +kernel
  have hasks : ∀ a ∈ filledUp, AsksForTokens a := by
    rintro a ha request maxTokens rfl hmax
    simp only [filledUp, List.mem_cons, Action.request.injEq, reduceCtorEq, List.not_mem_nil,
      false_or, or_false] at ha
    rcases ha with rfl | rfl | rfl
    · cases hmax
      decide
    · cases hmax
    · cases hmax
  have hnew : GatewaySession.create "session" (some 7) (some 7) true =
      .ok (openSession (some 14)) := rfl
  obtain ⟨sys, hrun, hfacts⟩ := (Option.any_eq_true _ _).mp hfacts
  obtain ⟨capacity, htotal, hcalls, _, hclosed, _⟩ := capacity_is_never_exceeded hnew hrun hasks
    (runs.meets_of_checks (fun _ _ h => obeysMaxTokens_of_test h) hobeys)
  obtain rfl : capacity = 14 := by omega
  exact ⟨sys, hrun, beq_iff_eq.mp hfacts, hcalls, hclosed⟩

end uni_agent.session
