-- Reservations keep concurrent requests apart. While the session is active, each chain that a
-- request in flight selected stays active and as it was, so its commit replaces that chain and
-- no other. After finalize or abort nothing changes any more.
import UniAgent.CharacterCodec
import UniAgent.Effects

namespace uni_agent.session

variable {C : MessageCodec} {sys : System}

/-! ## The invariant at the start -/

theorem create_eq_ok {sessionId : String} {promptLength responseLength : Option Int}
    {enable : Bool} {s : GatewaySession}
    (h : GatewaySession.create sessionId promptLength responseLength enable = .ok s) :
    ∃ capacity, s =
      { sessionId
        trajectoryCapacity := capacity
        enableLastAssistantRollback := enable } := by
  unfold GatewaySession.create at h
  cases promptLength with
  | none =>
    cases responseLength with
    | none =>
      cases h
      exact ⟨_, rfl⟩
    | some r =>
      by_cases hr : r ≤ 0
      · simp only [hr, if_true] at h
        cases h
      · simp only [hr, if_false] at h
        cases h
        exact ⟨_, rfl⟩
  | some p =>
    by_cases hp : p ≤ 0
    · simp only [hp, if_true] at h
      cases h
    · simp only [hp, if_false] at h
      cases responseLength with
      | none =>
        cases h
        exact ⟨_, rfl⟩
      | some r =>
        by_cases hr : r ≤ 0
        · simp only [hr, if_true] at h
          cases h
        · simp only [hr, if_false] at h
          cases h
          exact ⟨_, rfl⟩

/-- A new session with rollbacks, and with a capacity when it is given. -/
def openSession (capacity : Option Nat) : GatewaySession :=
  { sessionId := "session", trajectoryCapacity := capacity, enableLastAssistantRollback := true }

theorem openSession_eq : GatewaySession.create "session" none none true = .ok (openSession none) :=
  rfl

theorem coherent_initial {sessionId : String} {promptLength responseLength : Option Int}
    {enable : Bool} {s : GatewaySession}
    (h : GatewaySession.create sessionId promptLength responseLength enable = .ok s) :
    Coherent C (System.initial s) := by
  obtain ⟨capacity, rfl⟩ := create_eq_ok h
  constructor <;> simp [System.initial]

/-! ## Requests in flight -/

theorem eq_of_requestId_eq (hco : Coherent C sys) {f g : InFlight} (hf : f ∈ sys.inFlight)
    (hg : g ∈ sys.inFlight) (h : f.requestId = g.requestId) : f = g :=
  List.inj_on_of_nodup_map hco.requestIds_nodup hf hg h

/-- Two requests in flight do not hold one chain. -/
theorem eq_of_chainId_eq (hco : Coherent C sys) {f g : InFlight} {id : Nat}
    (hf : f ∈ sys.inFlight) (hg : g ∈ sys.inFlight) (hfid : f.encoded.chainId = some id)
    (hgid : g.encoded.chainId = some id) : f = g := by
  have hnodup := hco.held_nodup
  obtain ⟨before, after, hsplit⟩ := List.append_of_mem hf
  rw [hsplit, List.filterMap_append,
    List.filterMap_cons_some (f := fun f : InFlight => f.encoded.chainId) hfid,
    List.nodup_append] at hnodup
  rw [hsplit] at hg
  rcases List.mem_append.mp hg with hg | hg
  · have hmem : id ∈ before.filterMap (fun f => f.encoded.chainId) :=
      List.mem_filterMap.mpr ⟨g, hg, hgid⟩
    exact absurd rfl (hnodup.2.2 id hmem id (by simp))
  · rcases List.mem_cons.mp hg with hg | hg
    · exact hg.symm
    · have hmem : id ∈ after.filterMap (fun f => f.encoded.chainId) :=
        List.mem_filterMap.mpr ⟨g, hg, hgid⟩
      exact absurd hmem (List.nodup_cons.mp hnodup.2.1).1

/-- A chain that some request in flight holds is reserved while the session is active. -/
theorem reserved_of_held (hco : Coherent C sys) (hactive : sys.session.phase = .active)
    {f : InFlight} (hf : f ∈ sys.inFlight) {id : Nat} (hid : f.encoded.chainId = some id) :
    id ∈ sys.session.reservedChainIds := by
  have hsound := (hco.sound f hf).chainId
  rw [hid] at hsound
  obtain ⟨chain, hchosen, rfl⟩ := Option.map_eq_some_iff.mp hsound.symm
  exact (hco.reserved hactive f hf chain hchosen).1

theorem not_reserved_of_select {s : GatewaySession} {request : InternalGenerationRequest}
    {chain : ChainState} {rollback : Bool} (h : s.selectionFor C request = some (chain, rollback)) :
    chain.chainId ∉ s.reservedChainIds := by
  have heligible := (eligible_of_selectChain h).2.1
  unfold GatewaySession.isEligible at heligible
  simp only [Bool.and_eq_true, Bool.not_eq_true'] at heligible
  simpa using heligible.1.1.1

theorem sound_of_prepared {request : InternalGenerationRequest} {encoded : EncodedData}
    {s : GatewaySession} {chosen : Option ChainState} {requestId : Nat} {stage : Stage}
    (hprep : s.prepareGenerationInputs C request = .ok encoded)
    (hroom : encoded.capacityExhausted = false)
    (hchain : encoded.chainId = chosen.map ChainState.chainId)
    (hrollback : chosen = none → encoded.rollbackApplied = false) :
    InFlight.Sound C ⟨requestId, request, encoded, chosen, stage⟩ := by
  obtain ⟨w, _, hpacked⟩ := prepare_eq_ok hprep
  have hexhausted : w.capacityExhausted = false := hpacked.exhausted.symm.trans hroom
  refine ⟨hchain, hrollback, hpacked.messages, hpacked.tools, ?_, ?_⟩
  · rw [hpacked.messages]
    exact hpacked.hashes
  · rw [hpacked.start hexhausted]
    rfl

/-- The output of the backend goes to the buffer, and to nothing else. -/
theorem absorbOutput_eq_ok {encoded absorbed : EncodedData} {output : TokenOutput}
    (h : absorbOutput encoded output = .ok absorbed) :
    ∃ logProbs, absorbed = { encoded with buffer := { encoded.buffer with
        generationVersions := encoded.buffer.generationVersions ++
          [(output.minGlobalSteps, output.maxGlobalSteps)]
        responseIds := encoded.buffer.responseIds ++ output.tokenIds
        responseMask := encoded.buffer.responseMask ++ List.replicate output.tokenIds.length 1
        responseLogprobs := encoded.buffer.responseLogprobs ++ logProbs
        routedExperts := output.routedExperts.or encoded.buffer.routedExperts } } ∧
      absorbed.buffer.Aligned ∧
      ((encoded.samplingParams.logprobs = false ∧ logProbs = []) ∨
        (encoded.samplingParams.logprobs = true ∧ output.logProbs = some logProbs ∧
          logProbs.length = output.tokenIds.length)) := by
  unfold absorbOutput at h
  cases hflag : encoded.samplingParams.logprobs with
  | false =>
    simp only [hflag, Bool.not_false, if_true, bind_eq_ok,
      assertResponseLogprobAlignment_eq_ok] at h
    obtain ⟨logProbs, hlog, _, haligned, h⟩ := h
    cases hlog
    cases h
    exact ⟨[], rfl, haligned, Or.inl ⟨rfl, rfl⟩⟩
  | true =>
    cases hout : output.logProbs with
    | none =>
      simp only [hflag, hout, Bool.not_true, Bool.false_eq_true, if_false] at h
      cases h
    | some given =>
      by_cases hlen : given.length = output.tokenIds.length
      · simp only [hflag, hout, hlen, Bool.not_true, Bool.false_eq_true, if_false, ne_eq,
          not_true_eq_false, bind_eq_ok, assertResponseLogprobAlignment_eq_ok] at h
        obtain ⟨logProbs, hlog, _, haligned, h⟩ := h
        cases hlog
        cases h
        exact ⟨given, rfl, haligned, Or.inr ⟨rfl, rfl, hlen⟩⟩
      · simp only [hflag, hout, hlen, Bool.not_true, Bool.false_eq_true, if_false, ne_eq,
          not_false_eq_true, if_true] at h
        cases h

/-! ## What each effect keeps -/

theorem coherent_idle (hco : Coherent C sys) {session : GatewaySession} {next : Nat}
    {finished : List (Nat × Except PyError GenerationOutcome)}
    (hsession : Untouched sys.session session)
    (hreserved : session.reservedChainIds = sys.session.reservedChainIds)
    (hnext : sys.nextRequestId ≤ next) :
    Coherent C { sys with session, nextRequestId := next, finished } := by
  constructor
  · simpa [hsession.activeChains] using hco.chainIds_nodup
  · simpa [hsession.activeChains, hsession.nextChainId] using hco.chainIds_lt
  · exact hco.requestIds_nodup
  · intro f hf
    exact Nat.lt_of_lt_of_le (hco.requestIds_lt f hf) hnext
  · exact hco.held_nodup
  · simpa [hsession.nextChainId] using hco.held_lt
  · exact hco.sound
  · simpa only [hsession.phase, hsession.activeChains, hreserved] using hco.reserved
  · simpa only [hreserved] using hco.held
  · simpa only [hsession.phase, hsession.activeChains, hreserved] using hco.closed

theorem mem_finish {f : InFlight} {requestId : Nat} :
    f ∈ sys.inFlight.filter (fun g => g.requestId != requestId) ↔
      f ∈ sys.inFlight ∧ f.requestId ≠ requestId := by
  simp

/-- The facts about requests in flight alone stay when one of them leaves. -/
theorem coherent_without (hco : Coherent C sys) {session : GatewaySession} {requestId : Nat}
    {ledger : Ledger} {result : Except PyError GenerationOutcome}
    (hnodup : (session.activeChains.map ChainState.chainId).Nodup)
    (hlt : ∀ chain ∈ session.activeChains, chain.chainId < session.nextChainId)
    (hnext : sys.session.nextChainId ≤ session.nextChainId)
    (hreserved : session.phase = .active → ∀ f ∈ sys.inFlight, f.requestId ≠ requestId →
      ∀ chain, f.preparedChain = some chain →
        chain.chainId ∈ session.reservedChainIds ∧ chain ∈ session.activeChains)
    (hheld : ∀ id ∈ session.reservedChainIds,
      ∃ f ∈ sys.inFlight, f.requestId ≠ requestId ∧ f.encoded.chainId = some id)
    (hclosed : session.phase ≠ .active →
      session.activeChains = [] ∧ session.reservedChainIds = []) :
    Coherent C ({ sys with session, ledger }.finish requestId result) := by
  constructor
  · exact hnodup
  · exact hlt
  · exact hco.requestIds_nodup.sublist (List.filter_sublist.map _)
  · intro f hf
    exact hco.requestIds_lt f (mem_finish.mp hf).1
  · exact hco.held_nodup.sublist (List.filter_sublist.filterMap _)
  · intro f hf id hid
    exact Nat.lt_of_lt_of_le (hco.held_lt f (mem_finish.mp hf).1 id hid) hnext
  · intro f hf
    exact hco.sound f (mem_finish.mp hf).1
  · intro hactive f hf
    exact hreserved hactive f (mem_finish.mp hf).1 (mem_finish.mp hf).2
  · intro id hid
    obtain ⟨f, hf, hne, hchain⟩ := hheld id hid
    exact ⟨f, mem_finish.mpr ⟨hf, hne⟩, hchain⟩
  · exact hclosed

theorem coherent_left (hco : Coherent C sys) {f : InFlight} (hmem : f ∈ sys.inFlight)
    (hchain : f.encoded.chainId = none) (result : Except PyError GenerationOutcome) :
    Coherent C (sys.finish f.requestId result) := by
  refine coherent_without hco hco.chainIds_nodup
    hco.chainIds_lt (Nat.le_refl _) (fun hactive g hg _ => hco.reserved hactive g hg) ?_ hco.closed
  intro id hid
  obtain ⟨g, hg, hgid⟩ := hco.held id hid
  refine ⟨g, hg, ?_, hgid⟩
  intro heq
  rw [eq_of_requestId_eq hco hg hmem heq, hchain] at hgid
  cases hgid

theorem coherent_released (hco : Coherent C sys) {f : InFlight} (hmem : f ∈ sys.inFlight)
    {id : Nat} (hchain : f.encoded.chainId = some id)
    (result : Except PyError GenerationOutcome) :
    Coherent C ({ sys with session := sys.session.releaseChainReservation id }.finish f.requestId
      result) := by
  refine coherent_without hco hco.chainIds_nodup hco.chainIds_lt (Nat.le_refl _) ?_ ?_ ?_
  · intro hactive g hg hne chain hchosen
    obtain ⟨hres, hact⟩ := hco.reserved hactive g hg chain hchosen
    refine ⟨?_, hact⟩
    simp only [GatewaySession.releaseChainReservation, List.mem_filter, bne_iff_ne, ne_eq]
    refine ⟨hres, ?_⟩
    rintro rfl
    have hgid : g.encoded.chainId = some chain.chainId := by
      rw [(hco.sound g hg).chainId, hchosen]
      rfl
    exact hne (congrArg InFlight.requestId (eq_of_chainId_eq hco hg hmem hgid hchain))
  · intro id' hid'
    simp only [GatewaySession.releaseChainReservation, List.mem_filter, bne_iff_ne, ne_eq] at hid'
    obtain ⟨g, hg, hgid⟩ := hco.held id' hid'.1
    refine ⟨g, hg, ?_, hgid⟩
    intro heq
    rw [eq_of_requestId_eq hco hg hmem heq, hchain] at hgid
    exact hid'.2 (Option.some.inj hgid).symm
  · intro hphase
    obtain ⟨hact, hres⟩ := hco.closed hphase
    refine ⟨hact, ?_⟩
    simp only [GatewaySession.releaseChainReservation, hres, List.filter_nil]

theorem mem_update {f g : InFlight} (h : g ∈ (sys.update f).inFlight) :
    g = f ∨ g ∈ sys.inFlight ∧ g.requestId ≠ f.requestId := by
  unfold System.update at h
  obtain ⟨g', hg', heq⟩ := List.mem_map.mp h
  split at heq
  · exact Or.inl heq.symm
  · rename_i hne
    subst heq
    exact Or.inr ⟨hg', hne⟩

/-- A request in flight may change while it keeps its id, its chain and what its commit
reads. -/
theorem coherent_update (hco : Coherent C sys) {f f' : InFlight} (hmem : f ∈ sys.inFlight)
    (hid : f'.requestId = f.requestId) (hchain : f'.encoded.chainId = f.encoded.chainId)
    (hchosen : f'.preparedChain = f.preparedChain) (hsound : f'.Sound C) :
    Coherent C (sys.update f') := by
  have hids : (sys.update f').inFlight.map InFlight.requestId =
      sys.inFlight.map InFlight.requestId := by
    unfold System.update
    rw [List.map_map]
    apply List.map_congr_left
    intro g _
    simp only [Function.comp]
    split
    · rename_i heq
      exact heq.symm
    · rfl
  have hheld : (sys.update f').inFlight.filterMap (fun f => f.encoded.chainId) =
      sys.inFlight.filterMap (fun f => f.encoded.chainId) := by
    unfold System.update
    rw [List.filterMap_map]
    apply List.filterMap_congr
    intro g hg
    simp only [Function.comp]
    split
    · rename_i heq
      rw [eq_of_requestId_eq hco hg hmem (heq.trans hid), hchain]
    · rfl
  constructor
  · exact hco.chainIds_nodup
  · exact hco.chainIds_lt
  · rw [hids]
    exact hco.requestIds_nodup
  · intro g hg
    rcases mem_update hg with rfl | ⟨hg, _⟩
    · rw [hid]
      exact hco.requestIds_lt f hmem
    · exact hco.requestIds_lt g hg
  · rw [hheld]
    exact hco.held_nodup
  · intro g hg id hgid
    rcases mem_update hg with rfl | ⟨hg, _⟩
    · exact hco.held_lt f hmem id (hchain ▸ hgid)
    · exact hco.held_lt g hg id hgid
  · intro g hg
    rcases mem_update hg with rfl | ⟨hg, _⟩
    · exact hsound
    · exact hco.sound g hg
  · intro hactive g hg chain hc
    rcases mem_update hg with rfl | ⟨hg, _⟩
    · exact hco.reserved hactive f hmem chain (hchosen ▸ hc)
    · exact hco.reserved hactive g hg chain hc
  · intro id hres
    have hmem' : id ∈ (sys.update f').inFlight.filterMap (fun f => f.encoded.chainId) := by
      rw [hheld]
      exact List.mem_filterMap.mpr (hco.held id hres)
    exact List.mem_filterMap.mp hmem'
  · exact hco.closed

/-- A request that goes in flight brings a new id, and a chain that nobody holds. -/
theorem coherent_with (hco : Coherent C sys) {f : InFlight} {session : GatewaySession}
    {calls : List BackendCall} (hsession : Untouched sys.session session)
    (hid : f.requestId = sys.nextRequestId) (hsound : f.Sound C)
    (hreserved : ∀ id, id ∈ session.reservedChainIds ↔
      id ∈ sys.session.reservedChainIds ∨ f.encoded.chainId = some id)
    (hfresh : ∀ chain, f.preparedChain = some chain → sys.session.phase = .active ∧
      chain ∈ sys.session.activeChains ∧ chain.chainId ∉ sys.session.reservedChainIds) :
    Coherent C { sys with
      session
      nextRequestId := sys.nextRequestId + 1
      inFlight := sys.inFlight ++ [f]
      calls } := by
  have hchosen : ∀ id, f.encoded.chainId = some id → ∃ chain, f.preparedChain = some chain ∧
      chain.chainId = id := by
    intro id h
    rw [hsound.chainId] at h
    exact Option.map_eq_some_iff.mp h
  have hmem : ∀ g, g ∈ sys.inFlight ++ [f] → g ∈ sys.inFlight ∨ g = f := by
    intro g hg
    simpa using hg
  constructor
  · simpa only [hsession.activeChains] using hco.chainIds_nodup
  · simpa only [hsession.activeChains, hsession.nextChainId] using hco.chainIds_lt
  · simp only [List.map_append, List.map_cons, List.map_nil]
    refine List.nodup_append.mpr ⟨hco.requestIds_nodup, by simp, ?_⟩
    intro a ha b hb
    obtain ⟨g, hg, rfl⟩ := List.mem_map.mp ha
    cases List.mem_singleton.mp hb
    have := hco.requestIds_lt g hg
    omega
  · intro g hg
    rcases hmem g hg with hg | rfl
    · exact Nat.lt_succ_of_lt (hco.requestIds_lt g hg)
    · simp only [hid]
      omega
  · simp only [List.filterMap_append]
    cases hchain : f.encoded.chainId with
    | none => simpa [hchain] using hco.held_nodup
    | some id =>
      simp only [List.filterMap_cons, hchain, List.filterMap_nil]
      refine List.nodup_append.mpr ⟨hco.held_nodup, by simp, ?_⟩
      intro a ha b hb
      cases List.mem_singleton.mp hb
      rintro rfl
      obtain ⟨g, hg, hga⟩ := List.mem_filterMap.mp ha
      obtain ⟨chain, hc, rfl⟩ := hchosen a hchain
      exact (hfresh chain hc).2.2 (reserved_of_held hco (hfresh chain hc).1 hg hga)
  · intro g hg id hgid
    simp only [hsession.nextChainId]
    rcases hmem g hg with hg | rfl
    · exact hco.held_lt g hg id hgid
    · obtain ⟨chain, hc, rfl⟩ := hchosen id hgid
      exact hco.chainIds_lt chain (hfresh chain hc).2.1
  · intro g hg
    rcases hmem g hg with hg | rfl
    · exact hco.sound g hg
    · exact hsound
  · intro hactive g hg chain hc
    simp only [hsession.phase] at hactive
    simp only [hsession.activeChains]
    rcases hmem g hg with hg | rfl
    · obtain ⟨hres, hact⟩ := hco.reserved hactive g hg chain hc
      exact ⟨(hreserved _).mpr (Or.inl hres), hact⟩
    · refine ⟨(hreserved _).mpr (Or.inr ?_), (hfresh chain hc).2.1⟩
      rw [hsound.chainId, hc]
      rfl
  · intro id hres
    rcases (hreserved id).mp hres with hres | hchain
    · obtain ⟨g, hg, hgid⟩ := hco.held id hres
      exact ⟨g, List.mem_append_left _ hg, hgid⟩
    · exact ⟨f, by simp, hchain⟩
  · intro hphase
    simp only [hsession.phase] at hphase
    simp only [hsession.activeChains]
    obtain ⟨hact, hres⟩ := hco.closed hphase
    refine ⟨hact, List.eq_nil_iff_forall_not_mem.mpr ?_⟩
    intro id hid'
    rcases (hreserved id).mp hid' with h | h
    · simp [hres] at h
    · obtain ⟨chain, hc, _⟩ := hchosen id h
      exact hphase (hfresh chain hc).1

theorem untouched_reserveChain (s : GatewaySession) (id : Nat) :
    Untouched s (s.reserveChain id) := by
  unfold GatewaySession.reserveChain
  split
  · exact .refl s
  · constructor <;> rfl

theorem mem_reserveChain {s : GatewaySession} {id id' : Nat} :
    id' ∈ (s.reserveChain id).reservedChainIds ↔ id' ∈ s.reservedChainIds ∨ id = id' := by
  unfold GatewaySession.reserveChain
  by_cases h : s.reservedChainIds.contains id = true
  · rw [if_pos h]
    refine ⟨?_, ?_⟩
    · exact Or.inl
    · rintro (h' | rfl)
      · exact h'
      · simpa using h
  · rw [if_neg h]
    simp [eq_comm]

theorem coherent_committedNew (hco : Coherent C sys) {f : InFlight} (hmem : f ∈ sys.inFlight)
    (hactive : sys.session.phase = .active) (hchosen : f.preparedChain = none)
    {chain : ChainState} (hchain : chain.chainId = sys.session.nextChainId) {orderSeq : Nat}
    {ledger : Ledger} {result : Except PyError GenerationOutcome} :
    Coherent C ({ sys with
      session := { sys.session with
        orderSeq
        nextChainId := sys.session.nextChainId + 1
        activeChains := sys.session.activeChains ++ [chain] }
      ledger }.finish f.requestId result) := by
  have hnone : f.encoded.chainId = none := by rw [(hco.sound f hmem).chainId, hchosen]; rfl
  refine coherent_without hco ?_ ?_ (Nat.le_succ _) ?_ ?_ (fun h => absurd hactive h)
  · simp only [List.map_append, List.map_cons, List.map_nil]
    refine List.nodup_append.mpr ⟨hco.chainIds_nodup, by simp, ?_⟩
    intro a ha b hb
    obtain ⟨c, hc, rfl⟩ := List.mem_map.mp ha
    cases List.mem_singleton.mp hb
    have := hco.chainIds_lt c hc
    omega
  · intro c hc
    rcases List.mem_append.mp hc with hc | hc
    · exact Nat.lt_succ_of_lt (hco.chainIds_lt c hc)
    · cases List.mem_singleton.mp hc
      simp only [hchain]
      omega
  · intro _ g hg _ c hc
    obtain ⟨hres, hact⟩ := hco.reserved hactive g hg c hc
    exact ⟨hres, List.mem_append_left _ hact⟩
  · intro id hid
    obtain ⟨g, hg, hgid⟩ := hco.held id hid
    refine ⟨g, hg, ?_, hgid⟩
    intro heq
    rw [eq_of_requestId_eq hco hg hmem heq, hnone] at hgid
    cases hgid

/-- Chains other than the one in the middle. -/
theorem mem_split_of_ne {before after : List ChainState} {chain c : ChainState}
    (h : c ∈ before ++ chain :: after) (hne : c.chainId ≠ chain.chainId) :
    c ∈ before ++ after := by
  rcases List.mem_append.mp h with h | h
  · exact List.mem_append_left _ h
  · rcases List.mem_cons.mp h with rfl | h
    · exact absurd rfl hne
    · exact List.mem_append_right _ h

theorem coherent_committedReuse (hco : Coherent C sys) {f : InFlight} (hmem : f ∈ sys.inFlight)
    (hactive : sys.session.phase = .active) {before after : List ChainState}
    {chain chain' : ChainState} (hchosen : f.preparedChain = some chain)
    (hsplit : sys.session.activeChains = before ++ chain :: after) {session : GatewaySession}
    (hphase : session.phase = sys.session.phase)
    (hnext : session.nextChainId = sys.session.nextChainId)
    (hactives : session.activeChains = before ++ chain' :: after)
    (hreserved : session.reservedChainIds =
      sys.session.reservedChainIds.filter (· != chain.chainId))
    (hchain : chain'.chainId = chain.chainId)
    {ledger : Ledger} {result : Except PyError GenerationOutcome} :
    Coherent C ({ sys with session, ledger }.finish f.requestId result) := by
  have hheld : f.encoded.chainId = some chain.chainId := by
    rw [(hco.sound f hmem).chainId, hchosen]
    rfl
  have hids : session.activeChains.map ChainState.chainId =
      sys.session.activeChains.map ChainState.chainId := by
    rw [hactives, hsplit]
    simp [hchain]
  refine coherent_without hco ?_ ?_ hnext.ge ?_ ?_ (fun h => absurd (hphase.trans hactive) h)
  · rw [hids]
    exact hco.chainIds_nodup
  · intro c hc
    have hc' : c.chainId ∈ sys.session.activeChains.map ChainState.chainId := by
      rw [← hids]
      exact List.mem_map_of_mem hc
    obtain ⟨d, hd, heq⟩ := List.mem_map.mp hc'
    rw [← heq, hnext]
    exact hco.chainIds_lt d hd
  · intro _ g hg hne c hc
    obtain ⟨hres, hact⟩ := hco.reserved hactive g hg c hc
    have hgid : g.encoded.chainId = some c.chainId := by
      rw [(hco.sound g hg).chainId, hc]
      rfl
    have hcne : c.chainId ≠ chain.chainId := by
      intro heq
      rw [heq] at hgid
      exact hne (congrArg InFlight.requestId (eq_of_chainId_eq hco hg hmem hgid hheld))
    refine ⟨?_, ?_⟩
    · rw [hreserved, List.mem_filter]
      exact ⟨hres, by simpa using hcne⟩
    · rw [hactives]
      rw [hsplit] at hact
      rcases List.mem_append.mp (mem_split_of_ne hact hcne) with h | h
      · exact List.mem_append_left _ h
      · exact List.mem_append_right _ (List.mem_cons_of_mem _ h)
  · intro id hid
    rw [hreserved, List.mem_filter] at hid
    obtain ⟨g, hg, hgid⟩ := hco.held id hid.1
    refine ⟨g, hg, ?_, hgid⟩
    intro heq
    rw [eq_of_requestId_eq hco hg hmem heq, hheld] at hgid
    simp [Option.some.inj hgid] at hid

/-- A closure takes a chain away that no request in flight holds. -/
theorem coherent_erased (hco : Coherent C sys) {request : InternalGenerationRequest}
    {encoded : EncodedData} {chain : ChainState} {before after : List ChainState}
    (hreuse : Reuses C sys.session request encoded chain)
    (hsplit : sys.session.activeChains = before ++ chain :: after) {session : GatewaySession}
    (hphase : session.phase = sys.session.phase)
    (hnext : session.nextChainId = sys.session.nextChainId)
    (hactives : session.activeChains = before ++ after)
    (hreserved : session.reservedChainIds = sys.session.reservedChainIds) {ledger : Ledger}
    {finished : List (Nat × Except PyError GenerationOutcome)} :
    Coherent C { sys with
      session
      nextRequestId := sys.nextRequestId + 1
      ledger
      finished } := by
  have hsub : (before ++ after).Sublist (before ++ chain :: after) :=
    (List.sublist_cons_self chain after).append_left before
  constructor
  · simp only [hactives]
    exact hco.chainIds_nodup.sublist (by rw [hsplit]; exact hsub.map _)
  · intro c hc
    simp only [hactives] at hc
    simp only [hnext]
    exact hco.chainIds_lt c (by rw [hsplit]; exact hsub.subset hc)
  · exact hco.requestIds_nodup
  · intro f hf
    exact Nat.lt_succ_of_lt (hco.requestIds_lt f hf)
  · exact hco.held_nodup
  · simpa only [hnext] using hco.held_lt
  · exact hco.sound
  · intro hactive f hf c hc
    simp only [hphase] at hactive
    simp only [hactives, hreserved]
    obtain ⟨hres, hact⟩ := hco.reserved hactive f hf c hc
    refine ⟨hres, mem_split_of_ne (hsplit ▸ hact) ?_⟩
    intro heq
    rw [heq] at hres
    exact not_reserved_of_select hreuse.select hres
  · simpa only [hreserved] using hco.held
  · intro h
    exact absurd (hphase.trans hreuse.active) h

/-- A finalized or an aborted session has no chains and no reservations left. -/
theorem coherent_closed (hco : Coherent C sys) {session : GatewaySession}
    (hphase : session.phase ≠ .active)
    (hnext : session.nextChainId = sys.session.nextChainId)
    (hactives : session.activeChains = []) (hreserved : session.reservedChainIds = [])
    {ledger : Ledger} : Coherent C { sys with session, ledger } := by
  constructor
  · simp [hactives]
  · simp [hactives]
  · exact hco.requestIds_nodup
  · exact hco.requestIds_lt
  · exact hco.held_nodup
  · simpa only [hnext] using hco.held_lt
  · exact hco.sound
  · intro hactive
    exact absurd hactive hphase
  · simp [hreserved]
  · intro _
    exact ⟨hactives, hreserved⟩

theorem coherent_effect (hco : Coherent C sys) {a : Action} {t : System}
    (h : Effect C sys a t) : Coherent C t := by
  cases h with
  | idle _ session next finished hsession hreserved hnext =>
    exact coherent_idle hco hsession hreserved hnext
  | left _ f error hmem hchain => exact coherent_left hco hmem hchain _
  | failed _ f error hmem hchain =>
    have hsound := hco.sound f hmem
    exact coherent_update hco hmem rfl rfl rfl
      ⟨hsound.chainId, hsound.rollback, hsound.messages, hsound.tools, hsound.hashes,
        hsound.start⟩
  | released f error id hmem hstage hchain => exact coherent_released hco hmem hchain _
  | preparedFresh request encoded hactive hprep hselect hchain hrollback hroom =>
    refine coherent_with hco (.refl _) rfl
      (sound_of_prepared hprep hroom (by simpa using hchain) (fun _ => hrollback)) ?_ ?_
    · simp [hchain]
    · intro chain hc
      cases hc
  | preparedReuse request encoded chain hreuse hroom =>
    refine coherent_with hco (untouched_reserveChain _ _) rfl
      (sound_of_prepared hreuse.prepared hroom hreuse.chainId (fun h => by cases h)) ?_ ?_
    · intro id
      rw [mem_reserveChain, hreuse.chainId, Option.some.injEq]
    · intro c hc
      cases hc
      exact ⟨hreuse.active, (eligible_of_selectChain hreuse.select).1,
        not_reserved_of_select hreuse.select⟩
  | absorbed f output encoded hmem hstage habsorb =>
    have hsound := hco.sound f hmem
    obtain ⟨logProbs, rfl, _⟩ := absorbOutput_eq_ok habsorb
    exact coherent_update hco hmem rfl rfl rfl
      ⟨hsound.chainId, hsound.rollback, hsound.messages, hsound.tools, hsound.hashes,
        hsound.start⟩
  | committedNew f output callIds assistantMsg start outcome hcommits hchosen =>
    exact coherent_committedNew hco hcommits.mem hcommits.active hchosen rfl
  | committedReuse f output callIds assistantMsg start outcome before after chain hcommits hchosen
      hsplit =>
    refine coherent_committedReuse hco hcommits.mem hcommits.active hchosen hsplit ?_ ?_ rfl rfl ?_
    · simp
    · simp
    · rfl
  | dropped request encoded chain before after outcome hreuse hfull hsplit hrollback hstart =>
    exact coherent_erased hco hreuse hsplit (by simp) (by simp) rfl (by simp)
  | closed request encoded chain before after outcome trajectory hreuse hfull hsplit hstart
      hbuild =>
    exact coherent_erased hco hreuse hsplit (by simp) (by simp) rfl (by simp)
  | closeFailed request encoded chain error hreuse hfull hstart hbuild =>
    have hsession : Coherent C { sys with
        session := { sys.session with orderSeq := sys.session.orderSeq + 1 } } :=
      ⟨hco.chainIds_nodup, hco.chainIds_lt, hco.requestIds_nodup, hco.requestIds_lt,
        hco.held_nodup, hco.held_lt, hco.sound, hco.reserved, hco.held, hco.closed⟩
    exact coherent_idle hsession (.refl _) rfl (Nat.le_succ _)
  | finalized built hactive hbuilt =>
    refine coherent_closed hco ?_ ?_ ?_ ?_ <;> simp
  | finalizeFailed front back chain error built hactive hsplit hbuilt hbuild =>
    exact ⟨hco.chainIds_nodup, hco.chainIds_lt, hco.requestIds_nodup, hco.requestIds_lt,
      hco.held_nodup, hco.held_lt, hco.sound, hco.reserved, hco.held, hco.closed⟩
  | aborted hactive => refine coherent_closed hco ?_ ?_ ?_ ?_ <;> simp

theorem coherent_step {a : Action} {t : System} (hco : Coherent C sys)
    (h : sys.step C a = some t) : Coherent C t :=
  coherent_effect hco (step_effect hco h)

/-- Every run of a new session stays coherent. -/
theorem coherent_run {sessionId : String} {promptLength responseLength : Option Int}
    {enable : Bool} {s : GatewaySession} {actions : List Action}
    (hnew : GatewaySession.create sessionId promptLength responseLength enable = .ok s)
    (hrun : runFrom C s actions = some sys) : Coherent C sys :=
  runs.run_invariant_of_step (Coherent C) (fun _ _ _ hco h => coherent_step hco h) hrun
    (coherent_initial hnew)

/-! ## What an action leaves alone -/

/-- The chain that a request or a commit may change. -/
def System.targetOf (C : MessageCodec) (sys : System) : Action → Option Nat
  | .request request => (sys.session.selectionFor C request).map (fun choice => choice.1.chainId)
  | .commit requestId _ =>
    (sys.find requestId).map (fun f => f.encoded.chainId.getD sys.session.nextChainId)
  | _ => none

/-- The chains of a session other than a given one. -/
def GatewaySession.otherChains (s : GatewaySession) (target : Option Nat) : List ChainState :=
  s.activeChains.filter (fun chain => some chain.chainId != target)

theorem find_eq_of_mem (hco : Coherent C sys) {f : InFlight} (hmem : f ∈ sys.inFlight) :
    sys.find f.requestId = some f := by
  cases hfind : sys.find f.requestId with
  | none =>
    unfold System.find at hfind
    have := List.find?_eq_none.mp hfind f hmem
    simp at this
  | some g =>
    obtain ⟨hg, hid⟩ := mem_of_find hfind
    rw [eq_of_requestId_eq hco hg hmem hid]

/-- A request, a commit or a closure changes no chain but its own. -/
theorem otherChains_effect (hco : Coherent C sys) {a : Action} {t : System}
    (h : Effect C sys a t) (hfinalize : a ≠ .finalize) (habort : a ≠ .abort) :
    t.session.otherChains (sys.targetOf C a) = sys.session.otherChains (sys.targetOf C a) := by
  cases h with
  | idle _ session next finished hsession hreserved hnext =>
    unfold GatewaySession.otherChains
    simp only [hsession.activeChains]
  | left _ f error hmem hchain => rfl
  | failed _ f error hmem hchain => rfl
  | released f error id hmem hstage hchain => rfl
  | preparedFresh request encoded hactive hprep hselect hchain hrollback hroom => rfl
  | preparedReuse request encoded chain hreuse hroom =>
    unfold GatewaySession.otherChains
    simp only [(untouched_reserveChain _ _).activeChains]
  | absorbed f output encoded hmem hstage habsorb => rfl
  | committedNew f output callIds assistantMsg start outcome hcommits hchosen =>
    have hnone : f.encoded.chainId = none := by
      rw [(hco.sound f hcommits.mem).chainId, hchosen]
      rfl
    have htarget : sys.targetOf C (.commit f.requestId callIds) =
        some sys.session.nextChainId := by
      simp [System.targetOf, find_eq_of_mem hco hcommits.mem, hnone]
    rw [htarget]
    simp [GatewaySession.otherChains, System.finish, GatewaySession.committedChain]
  | committedReuse f output callIds assistantMsg start outcome before after chain hcommits hchosen
      hsplit =>
    have hid : f.encoded.chainId = some chain.chainId := by
      rw [(hco.sound f hcommits.mem).chainId, hchosen]
      rfl
    have htarget : sys.targetOf C (.commit f.requestId callIds) = some chain.chainId := by
      simp [System.targetOf, find_eq_of_mem hco hcommits.mem, hid]
    rw [htarget]
    simp [GatewaySession.otherChains, System.finish, GatewaySession.committedChain, hsplit]
  | dropped request encoded chain before after outcome hreuse hfull hsplit hrollback hstart =>
    have htarget : sys.targetOf C (.request request) = some chain.chainId := by
      simp [System.targetOf, hreuse.select]
    rw [htarget]
    simp [GatewaySession.otherChains, hsplit]
  | closed request encoded chain before after outcome trajectory hreuse hfull hsplit hstart
      hbuild =>
    have htarget : sys.targetOf C (.request request) = some chain.chainId := by
      simp [System.targetOf, hreuse.select]
    rw [htarget]
    simp [GatewaySession.otherChains, hsplit]
  | closeFailed request encoded chain error hreuse hfull hstart hbuild => rfl
  | finalized built hactive hbuilt => exact absurd rfl hfinalize
  | finalizeFailed front back chain error built hactive hsplit hbuilt hbuild =>
    exact absurd rfl hfinalize
  | aborted hactive => exact absurd rfl habort

/-- A request in flight keeps the chain that it selected. -/
theorem preparedChain_effect {a : Action} {t : System} (h : Effect C sys a t) {g : InFlight}
    (hg : g ∈ t.inFlight) :
    (∃ f ∈ sys.inFlight, f.requestId = g.requestId ∧ f.preparedChain = g.preparedChain) ∨
      ∃ request, a = .request request ∧ g.requestId = sys.nextRequestId ∧
        g.preparedChain = (sys.session.selectionFor C request).map Prod.fst := by
  have hleft : ∀ requestId, g ∈ sys.inFlight.filter (fun f => f.requestId != requestId) →
      ∃ f ∈ sys.inFlight, f.requestId = g.requestId ∧ f.preparedChain = g.preparedChain :=
    fun requestId hg => ⟨g, (mem_finish.mp hg).1, rfl, rfl⟩
  have hupdate : ∀ f f' : InFlight, f ∈ sys.inFlight → f'.requestId = f.requestId →
      f'.preparedChain = f.preparedChain → g ∈ (sys.update f').inFlight →
      ∃ f ∈ sys.inFlight, f.requestId = g.requestId ∧ f.preparedChain = g.preparedChain := by
    intro f f' hf hid hchosen hg
    rcases mem_update hg with rfl | ⟨hg, _⟩
    · exact ⟨f, hf, hid.symm, hchosen.symm⟩
    · exact ⟨g, hg, rfl, rfl⟩
  cases h with
  | idle _ session next finished hsession hreserved hnext => exact Or.inl ⟨g, hg, rfl, rfl⟩
  | left _ f error hmem hchain => exact Or.inl (hleft _ hg)
  | failed _ f error hmem hchain => refine Or.inl (hupdate f _ hmem ?_ ?_ hg) <;> rfl
  | released f error id hmem hstage hchain => exact Or.inl (hleft _ hg)
  | preparedFresh request encoded hactive hprep hselect hchain hrollback hroom =>
    rcases List.mem_append.mp hg with hg | hg
    · exact Or.inl ⟨g, hg, rfl, rfl⟩
    · cases List.mem_singleton.mp hg
      exact Or.inr ⟨request, rfl, rfl, by simp [hselect]⟩
  | preparedReuse request encoded chain hreuse hroom =>
    rcases List.mem_append.mp hg with hg | hg
    · exact Or.inl ⟨g, hg, rfl, rfl⟩
    · cases List.mem_singleton.mp hg
      exact Or.inr ⟨request, rfl, rfl, by simp [hreuse.select]⟩
  | absorbed f output encoded hmem hstage habsorb =>
    refine Or.inl (hupdate f _ hmem ?_ ?_ hg) <;> rfl
  | committedNew f output callIds assistantMsg start outcome hcommits hchosen =>
    exact Or.inl (hleft _ hg)
  | committedReuse f output callIds assistantMsg start outcome before after chain hcommits hchosen
      hsplit => exact Or.inl (hleft _ hg)
  | dropped request encoded chain before after outcome hreuse hfull hsplit hrollback hstart =>
    exact Or.inl ⟨g, hg, rfl, rfl⟩
  | closed request encoded chain before after outcome trajectory hreuse hfull hsplit hstart
      hbuild => exact Or.inl ⟨g, hg, rfl, rfl⟩
  | closeFailed request encoded chain error hreuse hfull hstart hbuild =>
    exact Or.inl ⟨g, hg, rfl, rfl⟩
  | finalized built hactive hbuilt => exact Or.inl ⟨g, hg, rfl, rfl⟩
  | finalizeFailed front back chain error built hactive hsplit hbuilt hbuild =>
    exact Or.inl ⟨g, hg, rfl, rfl⟩
  | aborted hactive => exact Or.inl ⟨g, hg, rfl, rfl⟩

/-! ## After the end of a session -/

/-- A session that is closed and stays as it was closed. -/
structure Frozen (s t : GatewaySession) : Prop where
  closed : t.phase ≠ .active
  activeChains : t.activeChains = s.activeChains
  materializedChains : t.materializedChains = s.materializedChains
  phase : t.phase = s.phase

theorem frozen_effect {a : Action} {t : System} {s : GatewaySession} (h : Effect C sys a t)
    (hf : Frozen s sys.session) : Frozen s t.session := by
  obtain ⟨hclosed, hact, hmat, hphase⟩ := hf
  cases h with
  | idle _ session next finished hsession hreserved hnext =>
    exact ⟨hsession.phase ▸ hclosed, hsession.activeChains.trans hact,
      hsession.materializedChains.trans hmat, hsession.phase.trans hphase⟩
  | left _ f error hmem hchain => exact ⟨hclosed, hact, hmat, hphase⟩
  | failed _ f error hmem hchain => exact ⟨hclosed, hact, hmat, hphase⟩
  | released f error id hmem hstage hchain => exact ⟨hclosed, hact, hmat, hphase⟩
  | preparedFresh request encoded hactive hprep hselect hchain hrollback hroom =>
    exact absurd hactive hclosed
  | preparedReuse request encoded chain hreuse hroom => exact absurd hreuse.active hclosed
  | absorbed f output encoded hmem hstage habsorb => exact ⟨hclosed, hact, hmat, hphase⟩
  | committedNew f output callIds assistantMsg start outcome hcommits hchosen =>
    exact absurd hcommits.active hclosed
  | committedReuse f output callIds assistantMsg start outcome before after chain hcommits hchosen
      hsplit => exact absurd hcommits.active hclosed
  | dropped request encoded chain before after outcome hreuse hfull hsplit hrollback hstart =>
    exact absurd hreuse.active hclosed
  | closed request encoded chain before after outcome trajectory hreuse hfull hsplit hstart
      hbuild => exact absurd hreuse.active hclosed
  | closeFailed request encoded chain error hreuse hfull hstart hbuild =>
    exact absurd hreuse.active hclosed
  | finalized built hactive hbuilt => exact absurd hactive hclosed
  | finalizeFailed front back chain error built hactive hsplit hbuilt hbuild =>
    exact absurd hactive hclosed
  | aborted hactive => exact absurd hactive hclosed

theorem frozen_run (hco : Coherent C sys) (hclosed : sys.session.phase ≠ .active)
    {later : List Action} {t : System} (hrun : runs.run (System.step C) sys later = some t) :
    Frozen sys.session t.session := by
  have hboth : Coherent C t ∧ Frozen sys.session t.session :=
    runs.run_invariant_of_step (fun u => Coherent C u ∧ Frozen sys.session u.session)
      (fun _ _ _ h hstep => ⟨coherent_step h.1 hstep, frozen_effect (step_effect h.1 hstep) h.2⟩)
      hrun ⟨hco, hclosed, rfl, rfl, rfl⟩
  exact hboth.2

theorem commit_rejected {s : GatewaySession} (h : s.phase ≠ .active) (encoded : EncodedData)
    (output : TokenOutput) (callIds : Nat → String) :
    s.secondSection C encoded output callIds = (.error (.httpException 409 s.phaseMessage), s) := by
  unfold GatewaySession.secondSection
  rw [if_pos h]

/-! ## The law -/

/-- The chain that a request in flight reserved is found, and is as it was prepared. -/
theorem reserved_chain_found (hco : Coherent C sys) (hactive : sys.session.phase = .active)
    {f : InFlight} (hf : f ∈ sys.inFlight) {id : Nat} (hid : f.encoded.chainId = some id) :
    ∃ index chain, f.preparedChain = some chain ∧ chain.chainId = id ∧
      sys.session.activeChains[index]? = some chain ∧
      sys.session.findActiveChain id = .ok (index, chain) := by
  have hsound := (hco.sound f hf).chainId
  rw [hid] at hsound
  obtain ⟨chain, hchosen, rfl⟩ := Option.map_eq_some_iff.mp hsound.symm
  obtain ⟨before, after, hsplit, hfind⟩ := GatewaySession.findActiveChain_split
    hco.chainIds_nodup (hco.reserved hactive f hf chain hchosen).2
  exact ⟨before.length, chain, hchosen, rfl, by simp [hsplit], hfind⟩

/-- In every interleaving, requests in flight hold distinct chains. While the session is active
each of these chains stays where it is and as it was prepared, and an action changes no chain
but its own. After finalize or abort the chains stay and every commit is rejected. -/
theorem concurrent_requests_keep_their_chains {sessionId : String}
    {promptLength responseLength : Option Int} {enable : Bool} {s : GatewaySession}
    {actions : List Action}
    (hnew : GatewaySession.create sessionId promptLength responseLength enable = .ok s)
    (hrun : runFrom C s actions = some sys) :
    ((sys.inFlight.map InFlight.requestId).Nodup ∧
      (sys.inFlight.filterMap (fun f => f.encoded.chainId)).Nodup) ∧
    (sys.session.phase = .active →
      (sys.session.activeChains.map ChainState.chainId).Nodup ∧
      (∀ id ∈ sys.session.reservedChainIds,
        ∃ chain ∈ sys.session.activeChains, chain.chainId = id) ∧
      ∀ f ∈ sys.inFlight, ∀ id, f.encoded.chainId = some id →
        ∃ index chain, f.preparedChain = some chain ∧ chain.chainId = id ∧
          sys.session.activeChains[index]? = some chain ∧
          sys.session.findActiveChain id = .ok (index, chain)) ∧
    (∀ a t, sys.step C a = some t →
      (∀ g ∈ t.inFlight,
        (∃ f ∈ sys.inFlight, f.requestId = g.requestId ∧ f.preparedChain = g.preparedChain) ∨
          ∃ request, a = .request request ∧ g.requestId = sys.nextRequestId ∧
            g.preparedChain = (sys.session.selectionFor C request).map Prod.fst) ∧
      (a ≠ .finalize → a ≠ .abort → t.session.otherChains (sys.targetOf C a) =
        sys.session.otherChains (sys.targetOf C a))) ∧
    (sys.session.phase ≠ .active → ∀ later t, runs.run (System.step C) sys later = some t →
      t.session.activeChains = sys.session.activeChains ∧
      t.session.materializedChains = sys.session.materializedChains ∧
      t.session.phase = sys.session.phase ∧
      ∀ encoded output callIds, t.session.secondSection C encoded output callIds =
        (.error (.httpException 409 t.session.phaseMessage), t.session)) := by
  have hco := coherent_run hnew hrun
  refine ⟨⟨hco.requestIds_nodup, hco.held_nodup⟩, ?_, ?_, ?_⟩
  · intro hactive
    refine ⟨hco.chainIds_nodup, ?_, fun f hf id hid => reserved_chain_found hco hactive hf hid⟩
    intro id hid
    obtain ⟨f, hf, hfid⟩ := hco.held id hid
    obtain ⟨index, chain, _, hid', hget, _⟩ := reserved_chain_found hco hactive hf hfid
    exact ⟨chain, List.mem_of_getElem? hget, hid'⟩
  · intro a t hstep
    have heffect := step_effect hco hstep
    exact ⟨fun g hg => preparedChain_effect heffect hg,
      fun hfinalize habort => otherChains_effect hco heffect hfinalize habort⟩
  · intro hclosed later t hlater
    have hfrozen := frozen_run hco hclosed hlater
    exact ⟨hfrozen.activeChains, hfrozen.materializedChains, hfrozen.phase,
      commit_rejected hfrozen.closed⟩

/-- The first reply is committed, and then two requests continue the chain at once: the second
of them finds it reserved and starts a new one. -/
def overlapping : List Action :=
  [.request { messages := [say "user" "q"] }, .backendReturns 0 { tokenIds := tokensOf "a" },
    .commit 0 (fun _ => ""),
    .request { messages := [say "user" "q", say "assistant" "a", say "user" "r"] },
    .request { messages := [say "user" "q", say "assistant" "a", say "user" "r"] },
    .backendReturns 2 { tokenIds := tokensOf "c" }]

theorem concurrent_requests_keep_their_chains_overlapping :
    ∃ sys, runFrom lineCodec (openSession none) overlapping = some sys ∧
      (sys.inFlight.map (fun f => f.encoded.chainId)) = [some 1, none] ∧
      (sys.inFlight.filterMap (fun f => f.encoded.chainId)).Nodup ∧
      ∀ f ∈ sys.inFlight, ∀ id, f.encoded.chainId = some id →
        ∃ index chain, sys.session.findActiveChain id = .ok (index, chain) ∧
          f.preparedChain = some chain := by
  have hfacts : (runFrom lineCodec (openSession none) overlapping).any (fun sys =>
      sys.inFlight.map (fun f => f.encoded.chainId) == [some 1, none] &&
        sys.session.phase == .active) = true := by decide +kernel
  obtain ⟨sys, hrun, hfacts⟩ := (Option.any_eq_true _ _).mp hfacts
  simp only [Bool.and_eq_true, beq_iff_eq] at hfacts
  have hlaw := concurrent_requests_keep_their_chains openSession_eq hrun
  refine ⟨sys, hrun, hfacts.1, hlaw.1.2, ?_⟩
  intro f hf id hid
  obtain ⟨index, chain, hchosen, _, _, hfind⟩ := (hlaw.2.1 hfacts.2).2.2 f hf id hid
  exact ⟨index, chain, hfind, hchosen⟩

end uni_agent.session
