-- One rule for all laws about single chains. Such a law says something about a chain and the
-- generations that it still holds. When preparation, the output of the backend, the commit and
-- the two ways to materialize a chain each keep it, it holds after every run, for every chain,
-- every request in flight and every trajectory.
import UniAgent.Reservations

namespace uni_agent.session

/-! ## The calls of a run -/

/-- The call of `backend.generate` that returns in a step. -/
def System.returned (sys : System) : Action → List Generation
  | .backendReturns requestId output =>
    (sys.inFlight.filter (fun f => f.requestId == requestId)).map (fun f => f.generation output)
  | _ => []

/-- The calls of `backend.generate` that return in a run, in order. -/
def callsOf (C : MessageCodec) (s : GatewaySession) (actions : List Action) : List Generation :=
  runs.collect (System.step C) System.returned (System.initial s) actions

/-- The call that a prepared request makes. -/
def InFlight.call (f : InFlight) : BackendCall :=
  ⟨f.requestId, f.request, f.encoded.contextIds, f.encoded.samplingParams, f.encoded.imageData,
    f.encoded.videoData⟩

theorem mem_returned {sys : System} {f : InFlight} (hmem : f ∈ sys.inFlight)
    (output : TokenOutput) :
    f.generation output ∈ sys.returned (.backendReturns f.requestId output) := by
  unfold System.returned
  exact List.mem_map_of_mem (List.mem_filter.mpr ⟨hmem, by simp⟩)

/-! ## The ledger -/

/-- The generations of a chain that a request keeps. -/
def keptOf (rolledBack : Bool) (gens : List Generation) : List Generation :=
  if rolledBack then gens.dropLast else gens

theorem keptOf_sublist (rolledBack : Bool) (gens : List Generation) :
    (keptOf rolledBack gens).Sublist gens := by
  unfold keptOf
  split
  · exact List.dropLast_sublist gens
  · exact List.Sublist.refl gens

namespace Ledger

variable (l : Ledger) (id : Nat) (rolledBack : Bool) (g : Generation)

/-- The generations that a prepared request builds on. -/
def keptBy (encoded : EncodedData) : List Generation :=
  match encoded.chainId with
  | none => []
  | some chainId => keptOf encoded.rollbackApplied (l.surviving chainId)

@[simp] theorem commits_commit : (l.commit id rolledBack g).commits = l.commits ++ [g] := by
  cases rolledBack <;> rfl

@[simp] theorem commits_close : (l.close id rolledBack).commits = l.commits := by
  cases rolledBack <;> rfl

theorem surviving_commit_self :
    (l.commit id rolledBack g).surviving id = keptOf rolledBack (l.surviving id) ++ [g] := by
  cases rolledBack <;> simp [commit, rollBack, keptOf]

theorem surviving_commit_of_ne {id' : Nat} (h : id' ≠ id) :
    (l.commit id rolledBack g).surviving id' = l.surviving id' := by
  cases rolledBack <;> simp [commit, rollBack, Function.update_of_ne h]

theorem surviving_close_self :
    (l.close id rolledBack).surviving id = keptOf rolledBack (l.surviving id) := by
  cases rolledBack <;> simp [close, rollBack, keptOf]

theorem surviving_close_of_ne {id' : Nat} (h : id' ≠ id) :
    (l.close id rolledBack).surviving id' = l.surviving id' := by
  cases rolledBack <;> simp [close, rollBack, Function.update_of_ne h]

theorem surviving_delete_of_ne {id' : Nat} (h : id' ≠ id) :
    (l.delete id).surviving id' = l.surviving id' := by
  simp [delete, Function.update_of_ne h]

theorem keptBy_eq {l' : Ledger} {encoded : EncodedData}
    (h : ∀ id, encoded.chainId = some id → l'.surviving id = l.surviving id) :
    l'.keptBy encoded = l.keptBy encoded := by
  unfold keptBy
  cases hchain : encoded.chainId with
  | none => rfl
  | some id =>
    simp only
    rw [h id hchain]

end Ledger

/-! ## Rules -/

/-- A law about single chains: of an active chain, of a prepared request, of a request whose
output is there, and of a trajectory, each with its generations in order. -/
structure ChainRule where
  chain : ChainState → List Generation → Prop
  ready : InFlight → List Generation → Prop
  full : InFlight → List Generation → Prop
  closed : Trajectory → List Generation → Prop

variable {C : MessageCodec} {R : ChainRule} {Q : System → Action → Prop}

/-- Each operation on one chain keeps the law, in the steps that meet `Q`. -/
structure ChainRule.Kept (R : ChainRule) (C : MessageCodec) (Q : System → Action → Prop) :
    Prop where
  fresh : ∀ sys request encoded, Q sys (.request request) → sys.session.phase = .active →
    sys.session.prepareGenerationInputs C request = .ok encoded →
    sys.session.selectionFor C request = none → encoded.capacityExhausted = false →
    R.ready ⟨sys.nextRequestId, request, encoded, none, .generating⟩ []
  reuse : ∀ sys request encoded chain gens, Q sys (.request request) →
    Reuses C sys.session request encoded chain → encoded.capacityExhausted = false →
    R.chain chain gens →
    R.ready ⟨sys.nextRequestId, request, encoded, some chain, .generating⟩
      (keptOf encoded.rollbackApplied gens)
  absorb : ∀ sys f output encoded gens, Q sys (.backendReturns f.requestId output) →
    f ∈ sys.inFlight → R.ready f gens → absorbOutput f.encoded output = .ok encoded →
    R.full { f with encoded, stage := .generated output } (gens ++ [f.generation output])
  commit : ∀ sys f output callIds assistantMsg start chainId orderSeq gens,
    Q sys (.commit f.requestId callIds) → Commits C sys f output callIds assistantMsg start →
    f.Sound C → R.full f (gens ++ [f.generation output]) →
    R.chain (GatewaySession.committedChain C f.encoded assistantMsg start chainId orderSeq)
      (gens ++ [f.generation output])
  close : ∀ sys request encoded chain gens trajectory, Q sys (.request request) →
    Reuses C sys.session request encoded chain → encoded.capacityExhausted = true →
    (encoded.rollbackApplied = true → chain.lastAssistantStart.responseIdsLen ≠ 0) →
    buildMaterializedTrajectory (GatewaySession.chainToMaterialize chain encoded)
      (some "max_trajectory_length") = .ok trajectory →
    R.chain chain gens → R.closed trajectory (keptOf encoded.rollbackApplied gens)
  finalize : ∀ chain gens trajectory, R.chain chain gens →
    buildMaterializedTrajectory chain none = .ok trajectory → R.closed trajectory gens

/-- The law holds everywhere in a system. -/
structure ChainRule.Holds (R : ChainRule) (sys : System) : Prop where
  chains : ∀ chain ∈ sys.session.activeChains,
    R.chain chain (sys.ledger.surviving chain.chainId)
  ready : ∀ f ∈ sys.inFlight, f.stage = .generating →
    R.ready f (sys.ledger.keptBy f.encoded)
  full : ∀ f ∈ sys.inFlight, ∀ output, f.stage = .generated output →
    R.full f (sys.ledger.keptBy f.encoded ++ [f.generation output])
  closed : ∀ m ∈ sys.session.materializedChains,
    ∃ gens, gens.Sublist sys.ledger.commits ∧ R.closed m.trajectory gens
  surviving : ∀ id, (sys.ledger.surviving id).Sublist sys.ledger.commits
  unborn : ∀ id, sys.session.nextChainId ≤ id → sys.ledger.surviving id = []

namespace ChainRule

variable {sys : System}

theorem Holds.initial {sessionId : String} {promptLength responseLength : Option Int}
    {enable : Bool} {s : GatewaySession}
    (hnew : GatewaySession.create sessionId promptLength responseLength enable = .ok s) :
    R.Holds (System.initial s) := by
  obtain ⟨capacity, rfl⟩ := create_eq_ok hnew
  constructor <;> simp [System.initial]

/-! ## What each effect keeps -/

/-- The law stays when chains and generations stay, whatever happens to the requests that no
longer generate. -/
theorem Holds.shrink {t : System} (h : R.Holds sys)
    (hactives : ∀ chain ∈ t.session.activeChains, chain ∈ sys.session.activeChains)
    (hclosed : ∀ m ∈ t.session.materializedChains, m ∈ sys.session.materializedChains ∨
      ∃ chain ∈ sys.session.activeChains,
        R.closed m.trajectory (sys.ledger.surviving chain.chainId))
    (hnext : t.session.nextChainId = sys.session.nextChainId)
    (hcommits : t.ledger.commits = sys.ledger.commits)
    (hsurviving : t.ledger.surviving = sys.ledger.surviving)
    (hflight : ∀ f ∈ t.inFlight, f ∈ sys.inFlight ∨ ∃ error, f.stage = .releasing error) :
    R.Holds t := by
  have hkeptBy : ∀ encoded, t.ledger.keptBy encoded = sys.ledger.keptBy encoded :=
    fun encoded => sys.ledger.keptBy_eq (fun id _ => congrFun hsurviving id)
  constructor
  · intro chain hc
    rw [hsurviving]
    exact h.chains chain (hactives chain hc)
  · intro f hf hstage
    rcases hflight f hf with hf | ⟨error, herror⟩
    · rw [hkeptBy]
      exact h.ready f hf hstage
    · rw [hstage] at herror
      cases herror
  · intro f hf output hstage
    rcases hflight f hf with hf | ⟨error, herror⟩
    · rw [hkeptBy]
      exact h.full f hf output hstage
    · rw [hstage] at herror
      cases herror
  · intro m hm
    rw [hcommits]
    rcases hclosed m hm with hm | ⟨chain, _, hr⟩
    · exact h.closed m hm
    · exact ⟨_, h.surviving chain.chainId, hr⟩
  · rw [hsurviving, hcommits]
    exact h.surviving
  · rw [hnext, hsurviving]
    exact h.unborn

/-- A request goes in flight. -/
theorem Holds.prepared {session : GatewaySession} {f : InFlight} {calls : List BackendCall}
    {next : Nat} (h : R.Holds sys) (hsession : Untouched sys.session session)
    (hstage : f.stage = .generating)
    (hready : R.ready f (sys.ledger.keptBy f.encoded)) :
    R.Holds { sys with
      session
      nextRequestId := next
      inFlight := sys.inFlight ++ [f]
      calls } := by
  constructor
  · simpa only [hsession.activeChains] using h.chains
  · intro g hg hgenerating
    rcases List.mem_append.mp hg with hg | hg
    · exact h.ready g hg hgenerating
    · cases List.mem_singleton.mp hg
      exact hready
  · intro g hg output hgenerated
    rcases List.mem_append.mp hg with hg | hg
    · exact h.full g hg output hgenerated
    · cases List.mem_singleton.mp hg
      rw [hstage] at hgenerated
      cases hgenerated
  · simpa only [hsession.materializedChains] using h.closed
  · exact h.surviving
  · simpa only [hsession.nextChainId] using h.unborn

theorem Holds.absorbed {f : InFlight} {output : TokenOutput} {encoded : EncodedData}
    (h : R.Holds sys) (hkept : R.Kept C Q)
    (hq : Q sys (.backendReturns f.requestId output)) (hmem : f ∈ sys.inFlight)
    (hstage : f.stage = .generating) (habsorb : absorbOutput f.encoded output = .ok encoded) :
    R.Holds (sys.update { f with encoded, stage := .generated output }) := by
  have hfull := hkept.absorb sys f output encoded _ hq hmem (h.ready f hmem hstage) habsorb
  obtain ⟨logProbs, rfl, _⟩ := absorbOutput_eq_ok habsorb
  constructor
  · exact h.chains
  · intro g hg hgenerating
    rcases mem_update hg with rfl | ⟨hg, _⟩
    · cases hgenerating
    · exact h.ready g hg hgenerating
  · intro g hg output' hgenerated
    rcases mem_update hg with rfl | ⟨hg, _⟩
    · cases hgenerated
      exact hfull
    · exact h.full g hg output' hgenerated
  · exact h.closed
  · exact h.surviving
  · exact h.unborn

/-- What changes in the ledger belongs to one chain, which no request that stays in flight
holds. -/
theorem Holds.ledger {t : System} (h : R.Holds sys) (id : Nat)
    (hcommits : sys.ledger.commits.Sublist t.ledger.commits)
    (hsurviving : ∀ id', id' ≠ id → t.ledger.surviving id' = sys.ledger.surviving id')
    (hself : (t.ledger.surviving id).Sublist t.ledger.commits)
    (hflight : ∀ f ∈ t.inFlight, f ∈ sys.inFlight ∧ f.encoded.chainId ≠ some id)
    (hchains : ∀ chain ∈ t.session.activeChains,
      (chain.chainId ≠ id ∧ chain ∈ sys.session.activeChains) ∨
        R.chain chain (t.ledger.surviving chain.chainId))
    (hclosed : ∀ m ∈ t.session.materializedChains, m ∈ sys.session.materializedChains ∨
      ∃ gens, gens.Sublist t.ledger.commits ∧ R.closed m.trajectory gens)
    (hnext : sys.session.nextChainId ≤ t.session.nextChainId)
    (hid : id < t.session.nextChainId) : R.Holds t := by
  have hkeptBy : ∀ f ∈ t.inFlight, t.ledger.keptBy f.encoded = sys.ledger.keptBy f.encoded := by
    intro f hf
    refine sys.ledger.keptBy_eq ?_
    intro id' hid'
    refine hsurviving id' ?_
    rintro rfl
    exact (hflight f hf).2 hid'
  constructor
  · intro chain hc
    rcases hchains chain hc with ⟨hne, hc⟩ | hc
    · rw [hsurviving _ hne]
      exact h.chains chain hc
    · exact hc
  · intro f hf hstage
    rw [hkeptBy f hf]
    exact h.ready f (hflight f hf).1 hstage
  · intro f hf output hstage
    rw [hkeptBy f hf]
    exact h.full f (hflight f hf).1 output hstage
  · intro m hm
    rcases hclosed m hm with hm | hm
    · obtain ⟨gens, hgens, hr⟩ := h.closed m hm
      exact ⟨gens, hgens.trans hcommits, hr⟩
    · exact hm
  · intro id'
    by_cases heq : id' = id
    · rw [heq]
      exact hself
    · rw [hsurviving id' heq]
      exact (h.surviving id').trans hcommits
  · intro id' hid'
    rw [hsurviving id' (by omega)]
    exact h.unborn id' (by omega)

/-- A chain that is materialized as it stands. -/
theorem Kept.built (hkept : R.Kept C Q) (h : R.Holds sys) {chains : List ChainState}
    {built : List MaterializedChain} (hsub : ∀ chain ∈ chains, chain ∈ sys.session.activeChains)
    (hbuilt : List.Forall₂ (fun chain m =>
      buildMaterializedTrajectory chain none = .ok m.trajectory ∧
        m.orderSeq = chain.updatedSeq) chains built) :
    ∀ m ∈ built, ∃ chain ∈ sys.session.activeChains,
      R.closed m.trajectory (sys.ledger.surviving chain.chainId) := by
  induction hbuilt with
  | nil => simp
  | cons hbuild htail ih =>
    rename_i first m rest ms
    intro m' hm'
    rcases List.mem_cons.mp hm' with rfl | hm'
    · have hmem := hsub first (by simp)
      exact ⟨first, hmem, hkept.finalize first _ _ (h.chains first hmem) hbuild.1⟩
    · exact ih (fun c hc => hsub c (by simp [hc])) m' hm'

/-- No request in flight holds the chain that a closure takes away. -/
theorem not_held_of_reuses (hco : Coherent C sys) {request : InternalGenerationRequest}
    {encoded : EncodedData} {chain : ChainState}
    (hreuse : Reuses C sys.session request encoded chain) :
    ∀ f ∈ sys.inFlight, f ∈ sys.inFlight ∧ f.encoded.chainId ≠ some chain.chainId := by
  intro f hf
  refine ⟨hf, ?_⟩
  intro hid
  exact not_reserved_of_select hreuse.select (reserved_of_held hco hreuse.active hf hid)

/-- The other chains keep their places when one is taken out of the middle. -/
theorem ne_of_split (hco : Coherent C sys) {before after : List ChainState} {chain c : ChainState}
    (hsplit : sys.session.activeChains = before ++ chain :: after) (hc : c ∈ before ++ after) :
    c.chainId ≠ chain.chainId ∧ c ∈ sys.session.activeChains := by
  have hnodup := hco.chainIds_nodup
  rw [hsplit] at hnodup ⊢
  rw [List.map_append, List.map_cons, List.nodup_append] at hnodup
  rcases List.mem_append.mp hc with hc | hc
  · refine ⟨?_, List.mem_append_left _ hc⟩
    exact hnodup.2.2 _ (List.mem_map_of_mem hc) _ (by simp)
  · refine ⟨?_, List.mem_append_right _ (List.mem_cons_of_mem _ hc)⟩
    intro heq
    have hmem := List.mem_map_of_mem (f := ChainState.chainId) hc
    rw [heq] at hmem
    exact (List.nodup_cons.mp hnodup.2.1).1 hmem

/-- A generation is committed as a chain of its own. -/
theorem Holds.committedNew (h : R.Holds sys) (hco : Coherent C sys) (hkept : R.Kept C Q)
    {f : InFlight} {output : TokenOutput} {callIds : Nat → String} {assistantMsg : Message}
    {start : LastAssistantStart} {outcome : GenerationOutcome}
    (hq : Q sys (.commit f.requestId callIds))
    (hcommits : Commits C sys f output callIds assistantMsg start)
    (hchosen : f.preparedChain = none) :
    R.Holds ({ sys with
      session := { sys.session with
        orderSeq := sys.session.orderSeq + 1
        nextChainId := sys.session.nextChainId + 1
        activeChains := sys.session.activeChains ++
          [GatewaySession.committedChain C f.encoded assistantMsg start sys.session.nextChainId
            (sys.session.orderSeq + 1)] }
      ledger := sys.ledger.commit sys.session.nextChainId false (f.generation output)
      }.finish f.requestId (.ok outcome)) := by
  have hsound := hco.sound f hcommits.mem
  have hnone : f.encoded.chainId = none := by
    rw [hsound.chainId, hchosen]
    rfl
  have hself : (sys.ledger.commit sys.session.nextChainId false
      (f.generation output)).surviving sys.session.nextChainId = [f.generation output] := by
    rw [Ledger.surviving_commit_self, h.unborn _ (Nat.le_refl _)]
    rfl
  have hfull := h.full f hcommits.mem output hcommits.stage
  rw [Ledger.keptBy, hnone] at hfull
  refine h.ledger sys.session.nextChainId ?_ ?_ ?_ ?_ ?_ (fun m hm => Or.inl hm)
    (Nat.le_succ _) (Nat.lt_succ_self _)
  · simp [System.finish]
  · exact fun id' hne => Ledger.surviving_commit_of_ne _ _ _ _ hne
  · simp [System.finish, hself]
  · intro g hg
    refine ⟨(mem_finish.mp hg).1, ?_⟩
    intro hid
    exact absurd (hco.held_lt g (mem_finish.mp hg).1 _ hid) (Nat.lt_irrefl _)
  · intro c hc
    rcases List.mem_append.mp hc with hc | hc
    · have := hco.chainIds_lt c hc
      exact Or.inl ⟨by omega, hc⟩
    · cases List.mem_singleton.mp hc
      refine Or.inr ?_
      have := hkept.commit sys f output callIds assistantMsg start sys.session.nextChainId
        (sys.session.orderSeq + 1) [] hq hcommits hsound hfull
      simpa [System.finish, GatewaySession.committedChain, hself] using this

/-- A generation is committed to the chain that its request holds. -/
theorem Holds.committedReuse (h : R.Holds sys) (hco : Coherent C sys) (hkept : R.Kept C Q)
    {f : InFlight} {output : TokenOutput} {callIds : Nat → String} {assistantMsg : Message}
    {start : LastAssistantStart} {outcome : GenerationOutcome} {before after : List ChainState}
    {chain : ChainState} (hq : Q sys (.commit f.requestId callIds))
    (hcommits : Commits C sys f output callIds assistantMsg start)
    (hchosen : f.preparedChain = some chain)
    (hsplit : sys.session.activeChains = before ++ chain :: after) :
    R.Holds ({ sys with
      session := { sys.session.recordRollbackStats f.encoded with
        orderSeq := sys.session.orderSeq + 1
        reservedChainIds := sys.session.reservedChainIds.filter (· != chain.chainId)
        activeChains := before ++ GatewaySession.committedChain C f.encoded assistantMsg start
          chain.chainId (sys.session.orderSeq + 1) :: after }
      ledger := sys.ledger.commit chain.chainId f.encoded.rollbackApplied (f.generation output)
      }.finish f.requestId (.ok outcome)) := by
  have hsound := hco.sound f hcommits.mem
  have hheld : f.encoded.chainId = some chain.chainId := by
    rw [hsound.chainId, hchosen]
    rfl
  have hmem : chain ∈ sys.session.activeChains := by simp [hsplit]
  have hfull := h.full f hcommits.mem output hcommits.stage
  rw [Ledger.keptBy, hheld] at hfull
  refine h.ledger chain.chainId ?_ ?_ ?_ ?_ ?_ ?_ (by simp [System.finish]) ?_
  · simp [System.finish]
  · exact fun id' hne => Ledger.surviving_commit_of_ne _ _ _ _ hne
  · simp only [System.finish, Ledger.surviving_commit_self, Ledger.commits_commit]
    exact ((keptOf_sublist _ _).trans (h.surviving chain.chainId)).append (.refl _)
  · intro g hg
    obtain ⟨hg, hne⟩ := mem_finish.mp hg
    refine ⟨hg, ?_⟩
    intro hid
    exact hne (congrArg InFlight.requestId (eq_of_chainId_eq hco hg hcommits.mem hid hheld))
  · intro c hc
    have hc' : c ∈ before ++ after ∨ c = GatewaySession.committedChain C f.encoded assistantMsg
        start chain.chainId (sys.session.orderSeq + 1) := by
      simp only [System.finish, List.mem_append, List.mem_cons] at hc
      rcases hc with hc | hc | hc
      · exact Or.inl (List.mem_append_left _ hc)
      · exact Or.inr hc
      · exact Or.inl (List.mem_append_right _ hc)
    rcases hc' with hc' | rfl
    · exact Or.inl (ne_of_split hco hsplit hc')
    · refine Or.inr ?_
      have := hkept.commit sys f output callIds assistantMsg start chain.chainId
        (sys.session.orderSeq + 1) _ hq hcommits hsound hfull
      simpa [System.finish, GatewaySession.committedChain, Ledger.surviving_commit_self]
        using this
  · intro m hm
    simp only [System.finish, GatewaySession.recordRollbackStats_materialized] at hm
    exact Or.inl hm
  · simpa [System.finish] using hco.chainIds_lt chain hmem

/-- A chain is materialized for a request that finds no room in it. -/
theorem Holds.materialized (h : R.Holds sys) (hco : Coherent C sys) (hkept : R.Kept C Q)
    {request : InternalGenerationRequest} {encoded : EncodedData} {chain : ChainState}
    {before after : List ChainState} {outcome : GenerationOutcome} {trajectory : Trajectory}
    (hq : Q sys (.request request)) (hreuse : Reuses C sys.session request encoded chain)
    (hfull : encoded.capacityExhausted = true)
    (hsplit : sys.session.activeChains = before ++ chain :: after)
    (hstart : encoded.rollbackApplied = true → chain.lastAssistantStart.responseIdsLen ≠ 0)
    (hbuild : buildMaterializedTrajectory (GatewaySession.chainToMaterialize chain encoded)
      (some "max_trajectory_length") = .ok trajectory) :
    R.Holds { sys with
      session := { sys.session.recordRollbackStats encoded with
        orderSeq := sys.session.orderSeq + 1
        materializedChains := sys.session.materializedChains ++
          [⟨trajectory, sys.session.orderSeq + 1⟩]
        activeChains := before ++ after }
      nextRequestId := sys.nextRequestId + 1
      ledger := sys.ledger.close chain.chainId encoded.rollbackApplied
      finished := sys.finished ++ [(sys.nextRequestId, .ok outcome)] } := by
  have hmem : chain ∈ sys.session.activeChains := by simp [hsplit]
  have hsub := (keptOf_sublist encoded.rollbackApplied
    (sys.ledger.surviving chain.chainId)).trans (h.surviving chain.chainId)
  refine h.ledger chain.chainId ?_ ?_ ?_ (not_held_of_reuses hco hreuse) ?_ ?_
    (by simp) (by simpa using hco.chainIds_lt chain hmem)
  · simp
  · exact fun id' hne => Ledger.surviving_close_of_ne _ _ _ hne
  · simpa [Ledger.surviving_close_self] using hsub
  · exact fun c hc => Or.inl (ne_of_split hco hsplit hc)
  · intro m hm
    rcases List.mem_append.mp hm with hm | hm
    · exact Or.inl hm
    · cases List.mem_singleton.mp hm
      refine Or.inr ⟨_, by simpa using hsub, ?_⟩
      exact hkept.close sys request encoded chain _ trajectory hq hreuse hfull hstart hbuild
        (h.chains chain hmem)

/-- Every effect of an action that meets `Q` keeps the law. -/
theorem Holds.effect (hco : Coherent C sys) (h : R.Holds sys) (hkept : R.Kept C Q) {a : Action}
    {t : System} (hq : Q sys a) (heffect : Effect C sys a t) : R.Holds t := by
  cases heffect with
  | idle _ session next finished hsession hreserved hnext =>
    refine h.shrink ?_ ?_ hsession.nextChainId rfl rfl (fun f hf => Or.inl hf)
    · simp [hsession.activeChains]
    · intro m hm
      simp only [hsession.materializedChains] at hm
      exact Or.inl hm
  | left _ f error hmem hchain =>
    exact h.shrink (fun _ hc => hc) (fun _ hm => Or.inl hm) rfl rfl rfl
      (fun g hg => Or.inl (mem_finish.mp hg).1)
  | failed _ f error hmem hchain =>
    refine h.shrink (fun _ hc => hc) (fun _ hm => Or.inl hm) rfl rfl rfl ?_
    intro g hg
    rcases mem_update hg with rfl | ⟨hg, _⟩
    · exact Or.inr ⟨error, rfl⟩
    · exact Or.inl hg
  | released f error id hmem hstage hchain =>
    exact h.shrink (fun _ hc => hc) (fun _ hm => Or.inl hm) rfl rfl rfl
      (fun g hg => Or.inl (mem_finish.mp hg).1)
  | preparedFresh request encoded hactive hprep hselect hchain hrollback hroom =>
    refine h.prepared (.refl _) rfl ?_
    have := hkept.fresh sys request encoded hq hactive hprep hselect hroom
    simpa [Ledger.keptBy, hchain] using this
  | preparedReuse request encoded chain hreuse hroom =>
    refine h.prepared (untouched_reserveChain _ _) rfl ?_
    have := hkept.reuse sys request encoded chain _ hq hreuse hroom
      (h.chains chain (eligible_of_selectChain hreuse.select).1)
    simpa [Ledger.keptBy, hreuse.chainId] using this
  | absorbed f output encoded hmem hstage habsorb => exact h.absorbed hkept hq hmem hstage habsorb
  | committedNew f output callIds assistantMsg start outcome hcommits hchosen =>
    exact h.committedNew hco hkept hq hcommits hchosen
  | committedReuse f output callIds assistantMsg start outcome before after chain hcommits hchosen
      hsplit =>
    exact h.committedReuse hco hkept hq hcommits hchosen hsplit
  | dropped request encoded chain before after outcome hreuse hfull hsplit hrollback hstart =>
    have hmem : chain ∈ sys.session.activeChains := by simp [hsplit]
    refine h.ledger chain.chainId (.refl _) ?_ ?_ (not_held_of_reuses hco hreuse) ?_ ?_
      (by simp) (by simpa using hco.chainIds_lt chain hmem)
    · exact fun id' hne => Ledger.surviving_delete_of_ne _ _ hne
    · simp [Ledger.delete]
    · exact fun c hc => Or.inl (ne_of_split hco hsplit hc)
    · intro m hm
      simp only [GatewaySession.recordRollbackStats_materialized] at hm
      exact Or.inl hm
  | closed request encoded chain before after outcome trajectory hreuse hfull hsplit hstart
      hbuild =>
    exact h.materialized hco hkept hq hreuse hfull hsplit hstart hbuild
  | closeFailed request encoded chain error hreuse hfull hstart hbuild =>
    exact h.shrink (fun _ hc => hc) (fun _ hm => Or.inl hm) rfl rfl rfl (fun f hf => Or.inl hf)
  | finalized built hactive hbuilt =>
    refine h.shrink (by simp) ?_ rfl rfl rfl (fun f hf => Or.inl hf)
    intro m hm
    rcases List.mem_append.mp hm with hm | hm
    · exact Or.inl hm
    · exact Or.inr (hkept.built h (fun _ hc => hc) hbuilt m hm)
  | finalizeFailed front back chain error built hactive hsplit hbuilt hbuild =>
    refine h.shrink (fun _ hc => hc) ?_ rfl rfl rfl (fun f hf => Or.inl hf)
    intro m hm
    rcases List.mem_append.mp hm with hm | hm
    · exact Or.inl hm
    · refine Or.inr (hkept.built h ?_ hbuilt m hm)
      intro c hc
      rw [hsplit]
      exact List.mem_append_left _ hc
  | aborted hactive =>
    exact h.shrink (by simp) (by simp) rfl rfl rfl (fun f hf => Or.inl hf)

/-- The rule: what each operation keeps holds after every run whose actions meet `Q`. -/
theorem Kept.run {sessionId : String} {promptLength responseLength : Option Int} {enable : Bool}
    {s : GatewaySession} {actions : List Action} (hkept : R.Kept C Q)
    (hnew : GatewaySession.create sessionId promptLength responseLength enable = .ok s)
    (hrun : runFrom C s actions = some sys)
    (hq : runs.Meets (System.step C) Q (System.initial s) actions) : R.Holds sys := by
  have hboth : Coherent C sys ∧ R.Holds sys := by
    refine runs.run_invariant (fun u => Coherent C u ∧ R.Holds u) ?_ hrun hq
      ⟨coherent_initial hnew, .initial hnew⟩
    rintro u a v ⟨hco, h⟩ hqa hstep
    have heffect := step_effect hco hstep
    exact ⟨coherent_effect hco heffect, h.effect hco hkept hqa heffect⟩
  exact hboth.2

/-- The rule for the calls of the backend: what the law of a prepared request says about its
call holds for every call of a run. -/
theorem Kept.calls_run {sessionId : String} {promptLength responseLength : Option Int}
    {enable : Bool} {s : GatewaySession} {actions : List Action} (hkept : R.Kept C Q)
    (hnew : GatewaySession.create sessionId promptLength responseLength enable = .ok s)
    (hrun : runFrom C s actions = some sys)
    (hq : runs.Meets (System.step C) Q (System.initial s) actions) {P : BackendCall → Prop}
    (hready : ∀ f gens, R.ready f gens → P f.call) : ∀ call ∈ sys.calls, P call := by
  have hall : Coherent C sys ∧ R.Holds sys ∧ ∀ call ∈ sys.calls, P call := by
    apply runs.run_invariant
      (fun u => Coherent C u ∧ R.Holds u ∧ ∀ call ∈ u.calls, P call) ?_ hrun hq
    · exact ⟨coherent_initial hnew, .initial hnew, by simp [System.initial]⟩
    · rintro u a v ⟨hco, h, hcalls⟩ hqa hstep
      have heffect := step_effect hco hstep
      refine ⟨coherent_effect hco heffect, h.effect hco hkept hqa heffect, ?_⟩
      cases heffect with
      | preparedFresh request encoded hactive hprep hselect _ _ hroom =>
        intro call hcall
        rcases List.mem_append.mp hcall with hcall | hcall
        · exact hcalls call hcall
        · cases List.mem_singleton.mp hcall
          exact hready _ _ (hkept.fresh u request encoded hqa hactive hprep hselect hroom)
      | preparedReuse request encoded chain hreuse hroom =>
        intro call hcall
        rcases List.mem_append.mp hcall with hcall | hcall
        · exact hcalls call hcall
        · cases List.mem_singleton.mp hcall
          have hchain := h.chains chain (eligible_of_selectChain hreuse.select).1
          exact hready _ _ (hkept.reuse u request encoded chain _ hqa hreuse hroom hchain)
      | _ => exact hcalls
  exact hall.2.2

/-- The trajectories that `finalize` returns, under the law. -/
theorem Kept.finalized (hkept : R.Kept C Q) (h : R.Holds sys) {trajectories : List Trajectory}
    {s' : GatewaySession} (hfinalize : sys.session.finalize = (.ok trajectories, s')) :
    ∀ t ∈ trajectories, ∃ trajectory gens,
      t = { trajectory with rewardInfo := sys.session.rewardInfo } ∧
        gens.Sublist sys.ledger.commits ∧ R.closed trajectory gens := by
  obtain ⟨_, built, hbuilt, rfl⟩ := GatewaySession.finalize_eq_ok hfinalize
  intro t ht
  obtain ⟨m, hm, rfl⟩ := List.mem_map.mp ht
  rw [List.mem_insertionSort, List.mem_append] at hm
  rcases hm with hm | hm
  · obtain ⟨gens, hgens, hr⟩ := h.closed m hm
    exact ⟨m.trajectory, gens, rfl, hgens, hr⟩
  · obtain ⟨chain, _, hr⟩ := hkept.built h (fun _ hc => hc) hbuilt m hm
    exact ⟨m.trajectory, _, rfl, h.surviving chain.chainId, hr⟩

end ChainRule

end uni_agent.session
