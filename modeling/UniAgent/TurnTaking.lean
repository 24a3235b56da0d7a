-- A client that takes turns: it waits for each reply, and each of its requests goes on with the
-- chain that is active. Its session never has two chains at once and rolls nothing back, so that
-- the trajectories are consecutive blocks of the generations, in the order they were committed in.
import UniAgent.CanonicalPrefixes
import UniAgent.Custody

namespace uni_agent.session

open token_blocks

variable {C : MessageCodec} {sys t : System}

/-! ## Turns -/

/-- The history is a prefix of the messages, in the texts that are hashed. -/
def TextPrefix (C : MessageCodec) (history messages : List Message) : Prop :=
  history.map C.canonicalJson <+: messages.map C.canonicalJson

/-- A request that begins with the whole history of a chain and has its tools. -/
structure GoesOn (C : MessageCodec) (chain : ChainState) (request : InternalGenerationRequest) :
    Prop where
  history : TextPrefix C chain.messageHistory request.messages
  tools : toolsEq chain.activeToolSchemas request.tools = true

/-- A request is sent when no other one is in flight, and goes on with every active chain. -/
def TakesTurn (C : MessageCodec) (sys : System) (a : Action) : Prop :=
  ∀ request, a = .request request →
    sys.inFlight = [] ∧ ∀ chain ∈ sys.session.activeChains, GoesOn C chain request

/-! ## What a turn selects -/

/-- The hash at the end of a prefix is the hash of the prefix. -/
theorem hash_at_of_prefix {before messages : List Message} (hne : before ≠ [])
    (h : TextPrefix C before messages) :
    (C.extendMessagePrefixHashes [] messages)[before.length - 1]? = some (C.prefixHash before) := by
  have hpos := List.length_pos_iff.mpr hne
  have hlength := h.length_le
  simp only [List.length_map] at hlength
  rw [C.extendMessagePrefixHashes_eq, prefix_digests.getElem?_extend, if_pos (by omega),
    Nat.sub_add_cancel hpos, Option.some.injEq]
  apply C.prefixHash_congr
  have hprefix := List.prefix_iff_eq_take.mp h
  rw [List.length_map] at hprefix
  rw [List.map_take]
  exact hprefix.symm

theorem GoesOn.exact {s : GatewaySession} {chain : ChainState} {gens : List Generation}
    {request : InternalGenerationRequest} (h : GoesOn C chain request)
    (hshape : ChainShape C chain gens) (hfree : s.reservedChainIds = []) :
    s.isExact request.tools (C.extendMessagePrefixHashes [] request.messages) chain = true := by
  obtain ⟨before, last, hhistory, hstart⟩ := hshape.history
  have hpos := List.length_pos_iff.mpr hstart.nonempty
  have hlength := h.history.length_le
  simp only [hhistory, List.length_map, List.length_append, List.length_singleton] at hlength
  have hhashes : (C.extendMessagePrefixHashes [] request.messages).length =
      request.messages.length := by
    rw [C.extendMessagePrefixHashes_eq]
    simp
  have hbefore : TextPrefix C before request.messages := by
    refine List.IsPrefix.trans ?_ h.history
    rw [hhistory, List.map_append]
    exact List.prefix_append _ _
  have hstarthash := hash_at_of_prefix hstart.nonempty hbefore
  have htiphash := hash_at_of_prefix (by simp [hhistory]) h.history
  unfold GatewaySession.isExact GatewaySession.isEligible isChainPrefixHashMatch pyIndex
  rw [Bool.and_eq_true]
  constructor
  · simp only [hfree, hstart.messageHistoryLen, hstart.tipHash, h.tools, hhashes,
      List.contains_nil, Bool.not_false, Bool.true_and, Bool.and_eq_true, decide_eq_true_eq,
      beq_iff_eq]
    refine ⟨by omega, ?_⟩
    rw [if_neg (by omega), show ((before.length : Int) - 1).toNat = before.length - 1 by omega]
    exact hstarthash
  · rw [hhashes, if_neg (by simp [hhistory]; omega), if_neg (by simp [hhistory]), beq_iff_eq,
      hshape.tipHash]
    exact htiphash.symm

/-- A chain that is alone is selected whole by a request that goes on with it. -/
theorem GoesOn.selected {s : GatewaySession} {chain : ChainState} {gens : List Generation}
    {request : InternalGenerationRequest} (h : GoesOn C chain request)
    (hshape : ChainShape C chain gens) (hfree : s.reservedChainIds = [])
    (halone : s.activeChains = [chain]) : s.selectionFor C request = some (chain, false) := by
  have hexact := h.exact hshape hfree
  have hrewritten : s.isRewritten request.tools (C.extendMessagePrefixHashes [] request.messages)
      chain = false := by
    unfold GatewaySession.isExact at hexact
    unfold GatewaySession.isRewritten
    simp [(Bool.and_eq_true_iff.mp hexact).2]
  unfold GatewaySession.selectionFor
  rw [selectChain_eq]
  simp [GatewaySession.exactChains, GatewaySession.rewrittenChains, halone, hexact, hrewritten,
    deepestChains, deepestBoundary, SelectionLocals.pick, ChainState.toExact]

/-! ## One chain at a time -/

/-- Where a session is whose client takes turns: at most one chain and one request, which rolls
nothing back and makes a new chain only when there is none; and the generations, in the order they
were committed in, are those of the closed chains and of the chain that is left. -/
structure OneLine (sys : System) : Prop where
  lone : sys.session.activeChains.length ≤ 1
  waits : sys.inFlight.length ≤ 1
  whole : ∀ f ∈ sys.inFlight, f.encoded.rollbackApplied = false
  fresh : sys.session.phase = .active → ∀ f ∈ sys.inFlight, f.preparedChain = none →
    sys.session.activeChains = []
  uncounted : sys.session.rollbackCount = 0
  undropped : sys.ledger.dropped = []
  commits : sys.session.phase ≠ .aborted → sys.ledger.commits =
    (sys.ledger.closed ++ sys.session.chainIds).flatMap sys.ledger.surviving
  uncapped : sys.session.trajectoryCapacity = none → sys.session.phase = .active →
    sys.ledger.closed = []

/-- The order numbers rise from one chain to the next, and no chain is younger than the last one. -/
structure InOrder (s : GatewaySession) : Prop where
  rising : (s.materializedChains.map MaterializedChain.orderSeq ++
    s.activeChains.map ChainState.updatedSeq).Pairwise (· < ·)
  bounded : ∀ seq ∈ s.materializedChains.map MaterializedChain.orderSeq ++
    s.activeChains.map ChainState.updatedSeq, seq ≤ s.orderSeq

theorem oneLine_initial {sessionId : String} {promptLength responseLength : Option Int}
    {enable : Bool} {s : GatewaySession}
    (hnew : GatewaySession.create sessionId promptLength responseLength enable = .ok s) :
    OneLine (System.initial s) ∧ InOrder (System.initial s).session := by
  obtain ⟨capacity, rfl⟩ := create_eq_ok hnew
  constructor <;> constructor <;> simp [System.initial, GatewaySession.chainIds]

theorem reserved_of_idle (hco : Coherent C sys) (hidle : sys.inFlight = []) :
    sys.session.reservedChainIds = [] := by
  rw [List.eq_nil_iff_forall_not_mem]
  intro id hid
  obtain ⟨f, hf, _⟩ := hco.held id hid
  rw [hidle] at hf
  cases hf

section Turns

variable {request : InternalGenerationRequest} {encoded : EncodedData} {chain : ChainState}

theorem eq_singleton_of_mem {α : Type} {xs : List α} {x : α} (hlength : xs.length ≤ 1)
    (hmem : x ∈ xs) : xs = [x] := by
  match xs, hlength with
  | [y], _ => rw [List.mem_singleton.mp hmem]

/-- A request in its turn that goes on with a chain rolls nothing back. -/
theorem OneLine.turn (hline : OneLine sys) (hco : Coherent C sys)
    (hshape : (shapeRule C).Holds sys) (hturn : TakesTurn C sys (.request request))
    (hreuse : Reuses C sys.session request encoded chain) :
    sys.inFlight = [] ∧ sys.session.activeChains = [chain] ∧ encoded.rollbackApplied = false := by
  obtain ⟨hidle, hgoes⟩ := hturn request rfl
  have hmem := (eligible_of_selectChain hreuse.select).1
  have halone := eq_singleton_of_mem hline.lone hmem
  have hselected := (hgoes chain hmem).selected (hshape.chains chain hmem)
    (reserved_of_idle hco hidle) halone
  rw [hreuse.select, Option.some.injEq, Prod.mk.injEq] at hselected
  exact ⟨hidle, halone, hselected.2⟩

/-- A request in its turn that selects no chain finds none. -/
theorem OneLine.opening (hline : OneLine sys) (hco : Coherent C sys)
    (hshape : (shapeRule C).Holds sys) (hturn : TakesTurn C sys (.request request))
    (hselect : sys.session.selectionFor C request = none) :
    sys.inFlight = [] ∧ sys.session.activeChains = [] := by
  obtain ⟨hidle, hgoes⟩ := hturn request rfl
  refine ⟨hidle, ?_⟩
  rw [List.eq_nil_iff_forall_not_mem]
  intro chain hmem
  have halone := eq_singleton_of_mem hline.lone hmem
  have hselected := (hgoes chain hmem).selected (hshape.chains chain hmem)
    (reserved_of_idle hco hidle) halone
  rw [hselect] at hselected
  cases hselected

end Turns

/-! ## What each effect keeps -/

section Effects

variable {f : InFlight}

/-- No chain and no generation changes. -/
theorem OneLine.keep (h : OneLine sys) (hsession : Untouched sys.session t.session)
    (hledger : t.ledger = sys.ledger) (hwaits : t.inFlight.length ≤ 1)
    (hflight : ∀ g ∈ t.inFlight, ∃ f ∈ sys.inFlight,
      g.encoded.rollbackApplied = f.encoded.rollbackApplied ∧ g.preparedChain = f.preparedChain) :
    OneLine t := by
  constructor
  · rw [hsession.activeChains]
    exact h.lone
  · exact hwaits
  · intro g hg
    obtain ⟨f, hf, hrollback, _⟩ := hflight g hg
    rw [hrollback]
    exact h.whole f hf
  · intro hactive g hg hnone
    obtain ⟨f, hf, _, hchosen⟩ := hflight g hg
    rw [hsession.activeChains]
    exact h.fresh (hsession.phase ▸ hactive) f hf (hchosen ▸ hnone)
  · rw [hsession.rollbackCount]
    exact h.uncounted
  · rw [hledger]
    exact h.undropped
  · rw [hsession.phase, hledger, chainIds_untouched hsession]
    exact h.commits
  · rw [hsession.phase, hsession.capacity, hledger]
    exact h.uncapped

theorem InOrder.keep {s s' : GatewaySession} (h : InOrder s)
    (hchains : s'.materializedChains.map MaterializedChain.orderSeq ++
      s'.activeChains.map ChainState.updatedSeq = s.materializedChains.map
        MaterializedChain.orderSeq ++ s.activeChains.map ChainState.updatedSeq)
    (hseq : s.orderSeq ≤ s'.orderSeq) : InOrder s' := by
  refine ⟨?_, ?_⟩
  · rw [hchains]
    exact h.rising
  · rw [hchains]
    exact fun seq hmem => (h.bounded seq hmem).trans hseq

/-- The last chain takes the next order number. -/
theorem InOrder.next {s s' : GatewaySession} (h : InOrder s) {before : List Nat}
    (hbefore : before.Sublist (s.materializedChains.map MaterializedChain.orderSeq ++
      s.activeChains.map ChainState.updatedSeq))
    (hchains : s'.materializedChains.map MaterializedChain.orderSeq ++
      s'.activeChains.map ChainState.updatedSeq = before ++ [s.orderSeq + 1])
    (hseq : s'.orderSeq = s.orderSeq + 1) : InOrder s' := by
  have hle : ∀ seq ∈ before, seq ≤ s.orderSeq := fun seq hmem => h.bounded seq (hbefore.subset hmem)
  refine ⟨?_, ?_⟩
  · rw [hchains, List.pairwise_append]
    refine ⟨h.rising.sublist hbefore, by simp, ?_⟩
    intro seq hmem last hlast
    rw [List.mem_singleton.mp hlast]
    exact Nat.lt_succ_of_le (hle seq hmem)
  · rw [hchains, hseq]
    intro seq hmem
    rcases List.mem_append.mp hmem with hmem | hmem
    · exact Nat.le_succ_of_le (hle seq hmem)
    · exact (List.mem_singleton.mp hmem).le

theorem recordRollbackStats_of_whole (s : GatewaySession) {encoded : EncodedData}
    (h : encoded.rollbackApplied = false) : s.recordRollbackStats encoded = s := by
  unfold GatewaySession.recordRollbackStats
  simp [h]

theorem flatMap_surviving_commit {l : Ledger} {id : Nat} {g : Generation} {ids : List Nat}
    (hnot : id ∉ ids) : (ids ++ [id]).flatMap (l.commit id false g).surviving =
      (ids ++ [id]).flatMap l.surviving ++ [g] := by
  rw [List.flatMap_append, List.flatMap_append, List.flatMap_singleton, List.flatMap_singleton,
    Ledger.surviving_commit_self, Ledger.flatMap_surviving_congr hnot
      (fun id' hne => Ledger.surviving_commit_of_ne _ _ _ _ hne)]
  simp [keptOf]

theorem OneLine.committedNew (h : OneLine sys) (hreg : Registered sys)
    (hunborn : sys.ledger.surviving sys.session.nextChainId = []) {c : ChainState} {g : Generation}
    {result : Except PyError GenerationOutcome} (hid : c.chainId = sys.session.nextChainId)
    (hactive : sys.session.phase = .active) (hmem : f ∈ sys.inFlight)
    (hchosen : f.preparedChain = none) :
    OneLine ({ sys with
      session := { sys.session with
        orderSeq := sys.session.orderSeq + 1
        nextChainId := sys.session.nextChainId + 1
        activeChains := sys.session.activeChains ++ [c] }
      ledger := sys.ledger.commit sys.session.nextChainId false g }.finish f.requestId result) := by
  have hempty := h.fresh hactive f hmem hchosen
  have halone := eq_singleton_of_mem h.waits hmem
  have hcommits := h.commits (by simp [hactive])
  simp only [GatewaySession.chainIds, hempty, List.map_nil, List.append_nil] at hcommits
  have hnot : sys.session.nextChainId ∉ sys.ledger.closed := by
    intro hclosed
    exact absurd (hreg.bound _ hclosed) (Nat.lt_irrefl _)
  constructor
  · simp [System.finish, hempty]
  · exact (List.length_filter_le _ _).trans h.waits
  · simp [System.finish, halone]
  · simp [System.finish, halone]
  · exact h.uncounted
  · exact h.undropped
  · intro _
    simp only [System.finish, GatewaySession.chainIds, hempty, List.nil_append, List.map_cons,
      List.map_nil, hid, Ledger.commits_commit, Ledger.closed_commit]
    rw [flatMap_surviving_commit hnot, List.flatMap_append, List.flatMap_singleton, hunborn,
      List.append_nil, hcommits]
  · simpa [System.finish] using h.uncapped

theorem OneLine.committedReuse (h : OneLine sys) (hreg : Registered sys) {c chain : ChainState}
    {before after : List ChainState} {g : Generation} {result : Except PyError GenerationOutcome}
    (hid : c.chainId = chain.chainId) (hactive : sys.session.phase = .active)
    (hmem : f ∈ sys.inFlight) (hsplit : sys.session.activeChains = before ++ chain :: after) :
    OneLine ({ sys with
      session := { sys.session.recordRollbackStats f.encoded with
        orderSeq := sys.session.orderSeq + 1
        reservedChainIds := sys.session.reservedChainIds.filter (· != chain.chainId)
        activeChains := before ++ c :: after }
      ledger := sys.ledger.commit chain.chainId f.encoded.rollbackApplied g
      }.finish f.requestId result) := by
  have halone := eq_singleton_of_mem h.waits hmem
  have hchain : chain ∈ sys.session.activeChains := by simp [hsplit]
  have hone := eq_singleton_of_mem h.lone hchain
  have hnot := hreg.not_closed hchain
  obtain ⟨rfl, rfl⟩ : before = [] ∧ after = [] := by
    have hlength := h.lone
    rw [hsplit, List.length_append, List.length_cons] at hlength
    exact ⟨List.length_eq_zero_iff.mp (by omega), List.length_eq_zero_iff.mp (by omega)⟩
  have hcommits := h.commits (by simp [hactive])
  simp only [GatewaySession.chainIds, hone, List.map_cons, List.map_nil] at hcommits
  rw [h.whole f hmem, recordRollbackStats_of_whole _ (h.whole f hmem)]
  constructor
  · simp [System.finish]
  · exact (List.length_filter_le _ _).trans h.waits
  · simp [System.finish, halone]
  · simp [System.finish, halone]
  · exact h.uncounted
  · exact h.undropped
  · intro _
    simp only [System.finish, GatewaySession.chainIds, List.nil_append, List.map_cons, List.map_nil,
      hid, Ledger.commits_commit, Ledger.closed_commit]
    rw [flatMap_surviving_commit hnot, hcommits]
  · simpa [System.finish] using h.uncapped

theorem not_full_of_uncapped {request : InternalGenerationRequest} {encoded : EncodedData}
    {chain : ChainState} (hcap : sys.session.trajectoryCapacity = none)
    (hreuse : Reuses C sys.session request encoded chain) : encoded.capacityExhausted = false := by
  obtain ⟨w, hworks, hpacked⟩ := prepare_eq_ok hreuse.prepared
  rw [hpacked.exhausted]
  cases hworks with
  | fresh images videos promptIds hselect _ _ => simp [hcap, capacityReached]
  | exhausted chain' rollback w' ids _ _ hfull => simp [hcap, capacityReached] at hfull
  | extended chain' rollback w' ids images videos _ hreused _ _ _ => exact hreused.not_exhausted

/-- A turn keeps to one line. -/
theorem oneLine_effect (hco : Coherent C sys) (hreg : Registered sys)
    (hshape : (shapeRule C).Holds sys) (h : OneLine sys) {a : Action} (hturn : TakesTurn C sys a)
    (heffect : Effect C sys a t) : OneLine t := by
  cases heffect with
  | idle _ session next finished hsession _ _ =>
    exact h.keep hsession rfl h.waits (fun f hf => ⟨f, hf, rfl, rfl⟩)
  | left _ f error hmem _ =>
    exact h.keep (.refl _) rfl ((List.length_filter_le _ _).trans h.waits)
      (fun g hg => ⟨g, (mem_finish.mp hg).1, rfl, rfl⟩)
  | failed _ f error hmem _ =>
    refine h.keep (.refl _) rfl (by simpa [System.update] using h.waits) ?_
    intro g hg
    rcases mem_update hg with rfl | ⟨hg, _⟩
    · exact ⟨f, hmem, rfl, rfl⟩
    · exact ⟨g, hg, rfl, rfl⟩
  | released f error id hmem _ _ =>
    refine h.keep ?_ rfl ((List.length_filter_le _ _).trans h.waits)
      (fun g hg => ⟨g, (mem_finish.mp hg).1, rfl, rfl⟩)
    constructor <;> rfl
  | preparedFresh request encoded hactive hprep hselect hchain hrollback hroom =>
    obtain ⟨hidle, hempty⟩ := h.opening hco hshape hturn hselect
    refine ⟨h.lone, ?_, ?_, fun _ _ _ _ => hempty, h.uncounted, h.undropped, h.commits,
      h.uncapped⟩
    · simp [hidle]
    · simpa [hidle] using hrollback
  | preparedReuse request encoded chain hreuse hroom =>
    obtain ⟨hidle, _, hwhole⟩ := h.turn hco hshape hturn hreuse
    have hsession := untouched_reserveChain sys.session chain.chainId
    constructor
    · rw [hsession.activeChains]
      exact h.lone
    · simp [hidle]
    · simpa [hidle] using hwhole
    · simp [hidle]
    · rw [hsession.rollbackCount]
      exact h.uncounted
    · exact h.undropped
    · rw [hsession.phase, chainIds_untouched hsession]
      exact h.commits
    · rw [hsession.phase, hsession.capacity]
      exact h.uncapped
  | absorbed f output encoded hmem hstage habsorb =>
    obtain ⟨logProbs, rfl, _⟩ := absorbOutput_eq_ok habsorb
    refine h.keep (.refl _) rfl (by simpa [System.update] using h.waits) ?_
    intro g hg
    rcases mem_update hg with rfl | ⟨hg, _⟩
    · exact ⟨f, hmem, rfl, rfl⟩
    · exact ⟨g, hg, rfl, rfl⟩
  | committedNew f output callIds assistantMsg start outcome hcommits hchosen =>
    exact h.committedNew hreg (hshape.unborn _ (Nat.le_refl _)) rfl hcommits.active
      hcommits.mem hchosen
  | committedReuse f output callIds assistantMsg start outcome before after chain hcommits hchosen
      hsplit =>
    exact h.committedReuse hreg rfl hcommits.active hcommits.mem hsplit
  | dropped request encoded chain before after outcome hreuse _ _ hrollback _ =>
    obtain ⟨_, _, hwhole⟩ := h.turn hco hshape hturn hreuse
    rw [hwhole] at hrollback
    cases hrollback
  | closed request encoded chain before after outcome trajectory hreuse hfull hsplit _ _ =>
    obtain ⟨hidle, hone, hwhole⟩ := h.turn hco hshape hturn hreuse
    obtain ⟨rfl, rfl⟩ : before = [] ∧ after = [] := by
      have hlength := h.lone
      rw [hsplit, List.length_append, List.length_cons] at hlength
      exact ⟨List.length_eq_zero_iff.mp (by omega), List.length_eq_zero_iff.mp (by omega)⟩
    rw [recordRollbackStats_of_whole _ hwhole, hwhole]
    refine ⟨by simp, by simp [hidle], by simp [hidle], by simp [hidle], h.uncounted, h.undropped,
      ?_, ?_⟩
    · intro hphase
      have hcommits := h.commits hphase
      simp only [GatewaySession.chainIds, hone, List.map_cons, List.map_nil] at hcommits
      simpa [GatewaySession.chainIds, Ledger.close] using hcommits
    · intro hcap _
      have hroom : encoded.capacityExhausted = false :=
        not_full_of_uncapped (show sys.session.trajectoryCapacity = none from hcap) hreuse
      rw [hroom] at hfull
      cases hfull
  | closeFailed request encoded chain error hreuse _ _ _ =>
    exact ⟨h.lone, h.waits, h.whole, h.fresh, h.uncounted, h.undropped, h.commits, h.uncapped⟩
  | finalized built hactive hbuilt =>
    refine ⟨by simp, h.waits, h.whole, by simp, h.uncounted, h.undropped, ?_, by simp⟩
    intro _
    simpa [GatewaySession.chainIds, Ledger.closeAll] using h.commits (by simp [hactive])
  | finalizeFailed front back chain error built hactive hsplit hbuilt hbuild =>
    exact ⟨h.lone, h.waits, h.whole, h.fresh, h.uncounted, h.undropped, h.commits, h.uncapped⟩
  | aborted hactive =>
    exact ⟨by simp, h.waits, h.whole, by simp, h.uncounted, h.undropped, by simp, by simp⟩

/-- The chain that cannot be materialized is the only one. -/
theorem OneLine.first_fails (h : OneLine sys) {front back : List ChainState} {chain : ChainState}
    (hsplit : sys.session.activeChains = front ++ chain :: back) : front = [] := by
  have hlength := h.lone
  rw [hsplit, List.length_append, List.length_cons] at hlength
  exact List.length_eq_zero_iff.mp (by omega)

theorem orderSeqs_of_built {chains : List ChainState} {built : List MaterializedChain}
    (hbuilt : List.Forall₂ (fun chain m => buildMaterializedTrajectory chain none =
        .ok m.trajectory ∧
      m.orderSeq = chain.updatedSeq) chains built) :
    built.map MaterializedChain.orderSeq = chains.map ChainState.updatedSeq := by
  induction hbuilt with
  | nil => rfl
  | cons hchain _ ih => simp [hchain.2, ih]

theorem inOrder_effect (hco : Coherent C sys) (hshape : (shapeRule C).Holds sys)
    (hline : OneLine sys)
    (h : InOrder sys.session) {a : Action} (hturn : TakesTurn C sys a)
    (heffect : Effect C sys a t) :
    InOrder t.session := by
  cases heffect with
  | idle _ session next finished hsession _ _ =>
    refine h.keep ?_ hsession.orderSeq.ge
    rw [hsession.materializedChains, hsession.activeChains]
  | preparedReuse request encoded chain _ _ =>
    have hsession := untouched_reserveChain sys.session chain.chainId
    refine h.keep ?_ hsession.orderSeq.ge
    rw [hsession.materializedChains, hsession.activeChains]
  | committedNew f output callIds assistantMsg start outcome hcommits hchosen =>
    have hempty := hline.fresh hcommits.active f hcommits.mem hchosen
    refine h.next (List.sublist_append_left (sys.session.materializedChains.map
      MaterializedChain.orderSeq) _) ?_ rfl
    simp [System.finish, hempty, GatewaySession.committedChain]
  | committedReuse f output callIds assistantMsg start outcome before after chain hcommits hchosen
      hsplit =>
    have hone := eq_singleton_of_mem hline.lone
      (hsplit ▸ List.mem_append_right before List.mem_cons_self)
    have hfront := hline.first_fails hsplit
    subst hfront
    obtain rfl : after = [] := by simpa [hone] using hsplit.symm
    refine h.next (List.sublist_append_left (sys.session.materializedChains.map
      MaterializedChain.orderSeq) _) ?_ rfl
    simp [System.finish, GatewaySession.committedChain]
  | dropped request encoded chain before after outcome hreuse _ _ hrollback _ =>
    obtain ⟨_, _, hwhole⟩ := hline.turn hco hshape hturn hreuse
    rw [hwhole] at hrollback
    cases hrollback
  | closed request encoded chain before after outcome trajectory hreuse hfull hsplit _ _ =>
    obtain ⟨_, hone, hwhole⟩ := hline.turn hco hshape hturn hreuse
    have hfront := hline.first_fails hsplit
    subst hfront
    obtain rfl : after = [] := by simpa [hone] using hsplit.symm
    refine h.next (List.sublist_append_left (sys.session.materializedChains.map
      MaterializedChain.orderSeq) _) ?_ rfl
    simp
  | closeFailed request encoded chain error _ _ _ _ => exact h.keep rfl (Nat.le_succ _)
  | finalized built hactive hbuilt =>
    refine h.keep ?_ (Nat.le_refl _)
    simp [orderSeqs_of_built hbuilt]
  | finalizeFailed front back chain error built hactive hsplit hbuilt hbuild =>
    have hfront := hline.first_fails hsplit
    subst hfront
    cases hbuilt
    refine h.keep ?_ (Nat.le_refl _)
    simp
  | aborted hactive => exact ⟨by simp, by simp⟩
  | _ => exact h.keep rfl (Nat.le_refl _)

end Effects

/-! ## What the trajectories are made of -/

section Whole

variable {P : Generation → Prop}

/-- A law without rollbacks: a chain has generations, and its response is laid out in their blocks,
each of which was given all that stands before its output. -/
def wholeRule (P : Generation → Prop) : ChainRule where
  chain := fun chain gens => gens ≠ [] ∧ ∃ l : ResponseLayout,
    Grounded P none chain.buffer.promptIds gens l ∧ Written none chain.buffer l
  ready := fun f gens =>
    f.encoded.contextIds = f.encoded.buffer.promptIds ++ f.encoded.buffer.responseIds ∧
      ∃ l : ResponseLayout, Grounded P none f.encoded.buffer.promptIds gens l ∧
        Written none f.encoded.buffer l
  full := fun f gens => gens ≠ [] ∧ ∃ l : ResponseLayout,
    Grounded P none f.encoded.buffer.promptIds gens l ∧ Written none f.encoded.buffer l
  closed := fun trajectory gens => gens ≠ [] ∧ ∃ l, Told P none trajectory gens l

/-- A step that rolls nothing back, and in which only calls return that meet `P`. -/
structure WholeStep (C : MessageCodec) (P : Generation → Prop) (sys : System) (a : Action) :
    Prop where
  whole : ∀ request encoded chain, a = .request request →
    Reuses C sys.session request encoded chain → encoded.rollbackApplied = false
  calls : ∀ g ∈ sys.returned a, P g

theorem wholeRule_kept : (wholeRule P).Kept C (WholeStep C P) := by
  constructor
  · intro sys request encoded _ _ hprep hselect hroom
    obtain ⟨promptIds, _, _, hbuffer, _⟩ := prepare_fresh hprep hselect
    refine ⟨(opened_of_prepare hprep hroom).contextIds, Layout.empty, .empty, ?_⟩
    rw [hbuffer]
    exact Written.start promptIds
  · intro sys request encoded chain gens hq hreuse hroom hchain
    obtain ⟨_, l, hgrounded, hwritten⟩ := hchain
    obtain ⟨w, ids, images, videos, hextends, _⟩ := hreuse.extends hroom
    have hwhole := hq.whole request encoded chain rfl hreuse
    have hreused := hextends.reused
    have hbuffer := hextends.buffer
    rw [hwhole] at hreused ⊢
    cases hreused
    refine ⟨(opened_of_prepare hreuse.prepared hroom).contextIds, l.read ids, ?_, ?_⟩
    · rw [hbuffer]
      exact hgrounded.read ids
    · rw [hbuffer]
      exact hwritten.read (by simp) ids
  · intro sys f output encoded gens hq hmem hready habsorb
    obtain ⟨hcontext, l, hgrounded, hwritten⟩ := hready
    obtain ⟨logProbs, rfl, _⟩ := absorbOutput_eq_ok habsorb
    refine ⟨by simp, l.push Generation.out (f.generation output), ?_, ?_⟩
    · refine hgrounded.push (hq.calls _ (mem_returned hmem output)) (by simp) ?_
      change f.encoded.contextIds = _
      rw [hcontext, hwritten.responseIds]
    · constructor
      · simp [hwritten.responseIds, Generation.out, InFlight.generation]
      · rw [Layout.values_push _ _ _ _ (by simp [Generation.ones])]
        simp [hwritten.responseMask, Generation.ones, Generation.out, InFlight.generation]
      · simp
  · intro sys f output callIds assistantMsg start chainId orderSeq gens _ _ _ hfull
    exact hfull
  · intro sys request encoded chain gens trajectory hq hreuse hfull _ hbuild hchain
    obtain ⟨hne, l, hgrounded, hwritten⟩ := hchain
    have hwhole := hq.whole request encoded chain rfl hreuse
    rw [hwhole]
    have hsame : GatewaySession.chainToMaterialize chain encoded = chain := by
      simp [GatewaySession.chainToMaterialize, hwhole]
    rw [hsame] at hbuild
    exact ⟨hne, l, told_of_build hgrounded hwritten hbuild⟩
  · intro chain gens trajectory hchain hbuild
    obtain ⟨hne, l, hgrounded, hwritten⟩ := hchain
    exact ⟨hne, l, told_of_build hgrounded hwritten hbuild⟩

end Whole

/-! ## The law -/

/-- All that a client that takes turns keeps. -/
structure Turned (C : MessageCodec) (P : Generation → Prop) (sys : System) : Prop where
  coherent : Coherent C sys
  registered : Registered sys
  shape : (shapeRule C).Holds sys
  line : OneLine sys
  order : InOrder sys.session
  whole : (wholeRule P).Holds sys
  custody : sys.session.phase ≠ .aborted → (wholeRule P).Custody sys

theorem turned_step {P : Generation → Prop} (h : Turned C P sys) {a : Action}
    (hturn : TakesTurn C sys a) (hcalls : ∀ g ∈ sys.returned a, P g)
    (hstep : sys.step C a = some t) : Turned C P t := by
  have heffect := step_effect h.coherent hstep
  have hwhole : WholeStep C P sys a := by
    refine ⟨?_, hcalls⟩
    rintro request encoded chain rfl hreuse
    exact (h.line.turn h.coherent h.shape hturn hreuse).2.2
  constructor
  · exact coherent_effect h.coherent heffect
  · exact registered_effect h.coherent h.registered heffect
  · exact h.shape.effect h.coherent shapeRule_kept trivial heffect
  · exact oneLine_effect h.coherent h.registered h.shape h.line hturn heffect
  · exact inOrder_effect h.coherent h.shape h.line h.order hturn heffect
  · exact h.whole.effect h.coherent wholeRule_kept hwhole heffect
  · intro hphase
    apply ChainRule.custody_effect_of_first h.registered h.whole wholeRule_kept hwhole
      (fun front chain back _ hsplit _ => h.line.first_fails hsplit)
      (h.custody (heffect.not_aborted hphase)) heffect hphase

theorem turned_run {P : Generation → Prop} {sessionId : String}
    {promptLength responseLength : Option Int} {enable : Bool} {s : GatewaySession}
    {actions : List Action}
    (hnew : GatewaySession.create sessionId promptLength responseLength enable = .ok s)
    (hrun : runFrom C s actions = some sys)
    (hturns : runs.Meets (System.step C) (TakesTurn C) (System.initial s) actions)
    (hcalls : runs.Meets (System.step C) (fun sys a => ∀ g ∈ sys.returned a, P g)
      (System.initial s) actions) : Turned C P sys := by
  refine runs.run_invariant (Turned C P) ?_ hrun (hturns.and hcalls) ?_
  · intro u a v hu hq hstep
    exact turned_step hu hq.1 hq.2 hstep
  · obtain ⟨hline, horder⟩ := oneLine_initial hnew
    obtain ⟨capacity, rfl⟩ := create_eq_ok hnew
    exact ⟨coherent_initial hnew, registered_initial hnew, .initial hnew, hline, horder,
      .initial hnew, fun _ => .nil⟩

/-- Chains that are in order already are returned in this order. -/
theorem InOrder.finalized {s s' : GatewaySession} (h : InOrder s) {trajectories : List Trajectory}
    (hfinalize : s.finalize = (.ok trajectories, s')) : ∃ built : List MaterializedChain,
      List.Forall₂ (fun chain m => buildMaterializedTrajectory chain none = .ok m.trajectory ∧
        m.orderSeq = chain.updatedSeq) s.activeChains built ∧
      trajectories = (s.materializedChains ++ built).map
        (fun m => { m.trajectory with rewardInfo := s.rewardInfo }) := by
  obtain ⟨_, built, hbuilt, htrajectories⟩ := GatewaySession.finalize_eq_ok hfinalize
  refine ⟨built, hbuilt, ?_⟩
  rw [htrajectories, List.Pairwise.insertionSort_eq]
  have hrising := h.rising
  rw [← orderSeqs_of_built hbuilt, ← List.map_append, List.pairwise_map] at hrising
  exact hrising.imp Nat.le_of_lt

/-- When every request waits for its turn and goes on with the chain that is active, there is never
a second chain, nothing is rolled back, and the trajectories are consecutive blocks of the committed
generations, none of them empty, in which every token of every generation is trainable. There is
one more than there were length closures at most, so that a session without a capacity has one. -/
theorem turns_make_consecutive_trajectories {sessionId : String}
    {promptLength responseLength : Option Int} {enable : Bool} {s : GatewaySession}
    {actions : List Action}
    (hnew : GatewaySession.create sessionId promptLength responseLength enable = .ok s)
    (hrun : runFrom C s actions = some sys)
    (hturns : runs.Meets (System.step C) (TakesTurn C) (System.initial s) actions) :
    sys.session.activeChains.length ≤ 1 ∧ sys.session.rollbackCount = 0 ∧
      sys.ledger.dropped = [] ∧ ∀ trajectories s', sys.session.finalize = (.ok trajectories, s') →
        (∃ blocks : List (List Generation), blocks.flatten = sys.ledger.commits ∧
          List.Forall₂ (fun trajectory gens => gens ≠ [] ∧
            ∃ l, Told (· ∈ callsOf C s actions) none trajectory gens l) trajectories blocks) ∧
        trajectories.length ≤ sys.ledger.closed.length + 1 ∧
        (sys.session.trajectoryCapacity = none → trajectories.length ≤ 1) := by
  have h : Turned C (· ∈ callsOf C s actions) sys :=
    turned_run hnew hrun hturns (runs.meets_collect System.returned _ _)
  refine ⟨h.line.lone, h.line.uncounted, h.line.undropped, ?_⟩
  intro trajectories s' hfinalize
  have hactive := (GatewaySession.finalize_eq_ok hfinalize).1
  have hphase : sys.session.phase ≠ .aborted := by simp [hactive]
  obtain ⟨built, hbuilt, rfl⟩ := h.order.finalized hfinalize
  have hkept : (wholeRule (· ∈ callsOf C s actions)).Kept C
    (WholeStep C (· ∈ callsOf C s actions)) :=
    wholeRule_kept
  have hblocks : List.Forall₂ (fun m id =>
      (wholeRule (· ∈ callsOf C s actions)).closed m.trajectory (sys.ledger.surviving id))
      (sys.session.materializedChains ++ built) (sys.ledger.closed ++ sys.session.chainIds) := by
    apply List.rel_append (h.custody hphase)
    unfold GatewaySession.chainIds
    rw [List.forall₂_map_right_iff]
    apply forall₂_imp_of_mem hbuilt.flip
    rintro m chain hmem ⟨hbuild, _⟩
    exact hkept.finalize chain _ m.trajectory (h.whole.chains chain hmem) hbuild
  have hlength := hblocks.length_eq
  have hlone := h.line.lone
  simp only [List.length_append, GatewaySession.chainIds, List.length_map] at hlength
  refine ⟨⟨(sys.ledger.closed ++ sys.session.chainIds).map sys.ledger.surviving, ?_, ?_⟩, ?_, ?_⟩
  · rw [h.line.commits hphase, List.flatMap_def]
  · rw [List.forall₂_map_left_iff, List.forall₂_map_right_iff]
    refine hblocks.imp ?_
    rintro m id ⟨hne, l, htold⟩
    exact ⟨hne, l, htold.grounded, htold.responseIds, htold.responseMask, by simp⟩
  · simp only [List.length_map, List.length_append]
    omega
  · intro hcap
    have hclosed := h.line.uncapped hcap hactive
    rw [hclosed, List.length_nil] at hlength
    simp only [List.length_map, List.length_append]
    omega

def takesTurn (C : MessageCodec) (sys : System) : Action → Bool
  | .request request => sys.inFlight.isEmpty && sys.session.activeChains.all (fun chain =>
      (chain.messageHistory.map C.canonicalJson).isPrefixOf
          (request.messages.map C.canonicalJson) &&
        toolsEq chain.activeToolSchemas request.tools)
  | _ => true

theorem takesTurn_of_test {a : Action} (h : takesTurn C sys a = true) : TakesTurn C sys a := by
  rintro request rfl
  obtain ⟨hidle, hgoes⟩ := Bool.and_eq_true_iff.mp h
  refine ⟨List.isEmpty_iff.mp hidle, ?_⟩
  intro chain hmem
  obtain ⟨hhistory, htools⟩ := Bool.and_eq_true_iff.mp (List.all_eq_true.mp hgoes chain hmem)
  exact ⟨List.isPrefixOf_iff_prefix.mp hhistory, htools⟩

/-- Two turns, a request between them that the backend fails, and one that is sent again. -/
def twoTurns : List Action :=
  [.request { messages := [say "user" "q"] }, .backendReturns 0 { tokenIds := tokensOf "a" },
    .commit 0 (fun _ => ""),
    .request { messages := [say "user" "q", say "assistant" "a", say "user" "r"] },
    .backendRaises 1 (.runtimeError "down"), .release 1,
    .request { messages := [say "user" "q", say "assistant" "a", say "user" "r"] },
    .backendReturns 2 { tokenIds := tokensOf "b" }, .commit 2 (fun _ => "")]

theorem turns_make_consecutive_trajectories_twoTurns : ∃ sys trajectories s',
    runFrom lineCodec (openSession none) twoTurns = some sys ∧
      sys.session.finalize = (.ok trajectories, s') ∧ sys.ledger.commits.length = 2 ∧
      trajectories.length ≤ 1 ∧ ∃ blocks : List (List Generation),
        blocks.flatten = sys.ledger.commits ∧ List.Forall₂ (fun trajectory gens => gens ≠ [] ∧
          ∃ l, Told (· ∈ callsOf lineCodec (openSession none) twoTurns) none trajectory gens l)
          trajectories blocks := by
  have hfacts : (runFrom lineCodec (openSession none) twoTurns).any (fun sys =>
      sys.ledger.commits.length == 2 && sys.session.trajectoryCapacity.isNone &&
        sys.session.finalize.1.toOption.isSome) = true := by decide +kernel
  have hchecks : runs.checks (System.step lineCodec) (takesTurn lineCodec)
      (System.initial (openSession none)) twoTurns = true := by decide +kernel
  obtain ⟨sys, hrun, hfacts⟩ := (Option.any_eq_true _ _).mp hfacts
  simp only [Bool.and_eq_true, beq_iff_eq, Option.isNone_iff_eq_none] at hfacts
  obtain ⟨⟨hcommits, hcap⟩, hreturns⟩ := hfacts
  have hlaw := turns_make_consecutive_trajectories openSession_eq hrun
    (runs.meets_of_checks (fun _ _ => takesTurn_of_test) hchecks)
  rcases hfinalize : sys.session.finalize with ⟨result, s'⟩
  cases result with
  | error e => simp [hfinalize, Except.toOption] at hreturns
  | ok trajectories =>
    obtain ⟨hblocks, _, hone⟩ := hlaw.2.2.2 trajectories s' hfinalize
    exact ⟨sys, trajectories, s', hrun, hfinalize, hcommits, hone hcap, hblocks⟩

end uni_agent.session
