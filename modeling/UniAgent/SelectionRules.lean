-- The specification of `_select_chain`: what it returns, by the sets of the exact and of the
-- rewritten chains. The order in which the chains are stored plays no part.
import UniAgent.SiblingRollback

namespace uni_agent.session

/-- Of two candidates the second is preferred: it is deeper, or as deep and exact, or it was
updated later, or it has the larger id. -/
def Candidate.Below (c d : Candidate) : Prop :=
  c.depth < d.depth ∨ c.depth = d.depth ∧
    (c.exact = false ∧ d.exact = true ∨ c.exact = d.exact ∧
      (c.chain.updatedSeq < d.chain.updatedSeq ∨ c.chain.updatedSeq = d.chain.updatedSeq ∧
        c.chain.chainId < d.chain.chainId))

theorem Candidate.below_iff {c d : Candidate} : c.Below d ↔ c.rank < d.rank := by
  refine ⟨?_, ?_⟩
  · rintro (hdepth | ⟨hdepth, h⟩)
    · exact Prod.Lex.toLex_lt_toLex.mpr (Or.inl hdepth)
    · refine Prod.Lex.toLex_lt_toLex.mpr (Or.inr ⟨hdepth, ?_⟩)
      rcases h with hexact | ⟨hexact, h⟩
      · exact Prod.Lex.toLex_lt_toLex.mpr (Or.inl (Bool.lt_iff.mpr hexact))
      · refine Prod.Lex.toLex_lt_toLex.mpr (Or.inr ⟨hexact, ?_⟩)
        exact Prod.Lex.toLex_lt_toLex.mpr h
  · intro h
    rcases Prod.Lex.toLex_lt_toLex.mp h with hdepth | ⟨hdepth, h⟩
    · exact Or.inl hdepth
    · refine Or.inr ⟨hdepth, ?_⟩
      rcases Prod.Lex.toLex_lt_toLex.mp h with hexact | ⟨hexact, h⟩
      · exact Or.inl (Bool.lt_iff.mp hexact)
      · exact Or.inr ⟨hexact, Prod.Lex.toLex_lt_toLex.mp h⟩

/-! ## The specification -/

namespace GatewaySession

variable (s : GatewaySession) (tools : Option (List Json)) (hashes : List String)

/-- A free chain with the tools of the request, whose boundary is a proper prefix of it. -/
structure Eligible (chain : ChainState) : Prop where
  active : chain ∈ s.activeChains
  free : chain.chainId ∉ s.reservedChainIds
  tools : toolsEq chain.activeToolSchemas tools = true
  shorter : chain.boundary < hashes.length
  boundary : hashes[chain.boundary - 1]? = some chain.lastAssistantStart.tipHash

def Exact (chain : ChainState) : Prop :=
  s.Eligible tools hashes chain ∧ chain.messageHistory.length ≤ hashes.length ∧
    hashes[chain.messageHistory.length - 1]? = some chain.messageTipHash

def Rewritten (chain : ChainState) : Prop :=
  s.enableLastAssistantRollback = true ∧ s.Eligible tools hashes chain ∧
    ¬ s.Exact tools hashes chain

def DeepestRewritten (chain : ChainState) : Prop :=
  s.Rewritten tools hashes chain ∧
    ∀ other, s.Rewritten tools hashes other → other.boundary ≤ chain.boundary

/-- No chain is to be selected. -/
def Unselectable : Prop :=
  (∀ e, ¬ s.Exact tools hashes e) ∧ (¬ ∃! d, s.DeepestRewritten tools hashes d) ∨
  ∃ d d', s.DeepestRewritten tools hashes d ∧ s.DeepestRewritten tools hashes d' ∧ d ≠ d' ∧
    ∀ e, s.Exact tools hashes e → e.messageHistory.length < d.boundary

/-- The exact chains at the length of their history, and the deepest rewritten chain at its
boundary when there is only one. -/
def IsCandidate (c : Candidate) : Prop :=
  (∃ e, s.Exact tools hashes e ∧ c = e.toExact) ∨
  ∃ d, s.DeepestRewritten tools hashes d ∧
    (∀ d', s.DeepestRewritten tools hashes d' → d' = d) ∧ c = ⟨d, d.boundary, false⟩

/-- What the selection returns. -/
structure SelectsBest (result : Option (ChainState × Bool)) : Prop where
  none_iff : result = none ↔ s.Unselectable tools hashes
  some_iff : ∀ c rollback, result = some (c, rollback) ↔ ¬ s.Unselectable tools hashes ∧
    ∃ best, s.IsCandidate tools hashes best ∧
      (∀ other, s.IsCandidate tools hashes other → other = best ∨ other.Below best) ∧
      c = best.chain ∧ rollback = !best.exact
  rollback_iff : ∀ c rollback, result = some (c, rollback) →
    (rollback = true ↔ s.Rewritten tools hashes c)

/-- The specification leaves no choice. -/
theorem SelectsBest.unique {s : GatewaySession} {tools : Option (List Json)}
    {hashes : List String} {result result' : Option (ChainState × Bool)}
    (h : s.SelectsBest tools hashes result) (h' : s.SelectsBest tools hashes result') :
    result = result' := by
  cases result with
  | none => exact (h'.none_iff.mpr (h.none_iff.mp rfl)).symm
  | some selected =>
    obtain ⟨c, rollback⟩ := selected
    exact ((h'.some_iff c rollback).mpr ((h.some_iff c rollback).mp rfl)).symm

end GatewaySession

/-! ## The stored lists -/

/-- What the selection needs of a session: distinct ids, and histories that begin before the
last assistant. -/
structure Sortable (s : GatewaySession) : Prop where
  chainIds : (s.activeChains.map ChainState.chainId).Nodup
  boundary : ∀ chain ∈ s.activeChains, 0 < chain.boundary
  history : ∀ chain ∈ s.activeChains, 0 < chain.messageHistory.length

section Lists

variable {s : GatewaySession} {tools : Option (List Json)} {hashes : List String}
  {chain : ChainState}

theorem eligible_iff (hs : Sortable s) :
    s.Eligible tools hashes chain ↔
      chain ∈ s.activeChains ∧ s.isEligible tools hashes chain = true := by
  have hindex : chain ∈ s.activeChains → pyIndex hashes ((chain.boundary : Int) - 1) =
      hashes[chain.boundary - 1]? := by
    intro hactive
    have hpos := hs.boundary chain hactive
    unfold pyIndex
    rw [if_neg (by omega), show ((chain.boundary : Int) - 1).toNat = chain.boundary - 1 by omega]
  unfold ChainState.boundary at hindex
  refine ⟨?_, ?_⟩
  · intro h
    refine ⟨h.active, ?_⟩
    have hshorter := h.shorter
    have hboundary := h.boundary
    unfold ChainState.boundary at hshorter hboundary
    simp [GatewaySession.isEligible, h.free, h.tools, hshorter, hindex h.active, hboundary]
  · rintro ⟨hactive, heligible⟩
    simp only [GatewaySession.isEligible, Bool.and_eq_true, Bool.not_eq_true',
      List.contains_eq_mem, decide_eq_false_iff_not, decide_eq_true_eq, beq_iff_eq,
      hindex hactive] at heligible
    exact ⟨hactive, heligible.1.1.1, heligible.1.1.2, heligible.1.2, heligible.2⟩

theorem prefixHashMatch_iff (hpos : 0 < chain.messageHistory.length) :
    isChainPrefixHashMatch chain hashes = true ↔ chain.messageHistory.length ≤ hashes.length ∧
      hashes[chain.messageHistory.length - 1]? = some chain.messageTipHash := by
  unfold isChainPrefixHashMatch
  by_cases hlen : chain.messageHistory.length ≤ hashes.length
  · simp only [if_neg (Nat.not_lt.mpr hlen), if_neg (Nat.ne_of_gt hpos), hlen, true_and,
      beq_iff_eq]
    exact eq_comm
  · simp [Nat.not_le.mp hlen, hlen]

theorem mem_exactChains (hs : Sortable s) :
    chain ∈ s.exactChains tools hashes ↔ s.Exact tools hashes chain := by
  unfold GatewaySession.exactChains GatewaySession.isExact GatewaySession.Exact
  rw [List.mem_filter, Bool.and_eq_true, ← and_assoc, ← eligible_iff hs]
  refine and_congr_right ?_
  intro h
  exact prefixHashMatch_iff (hs.history chain h.active)

theorem mem_rewrittenChains (hs : Sortable s) :
    chain ∈ s.rewrittenChains tools hashes ↔ s.Rewritten tools hashes chain := by
  have hexact : chain ∈ s.exactChains tools hashes ↔ s.Exact tools hashes chain :=
    mem_exactChains hs
  unfold GatewaySession.Rewritten
  rw [← hexact, eligible_iff hs]
  simp only [GatewaySession.exactChains, GatewaySession.isExact, GatewaySession.rewrittenChains,
    GatewaySession.isRewritten, List.mem_filter, Bool.and_eq_true, Bool.not_eq_true']
  grind

theorem exists_deepest {chains : List ChainState} (h : chains ≠ []) :
    ∃ chain ∈ chains, (chain.boundary : Int) = deepestBoundary chains := by
  induction chains using List.reverseRecOn with
  | nil => exact absurd rfl h
  | append_singleton chains last ih =>
    rw [deepestBoundary_concat]
    by_cases hdeeper : deepestBoundary chains ≤ last.boundary
    · exact ⟨last, by simp, (max_eq_right hdeeper).symm⟩
    · by_cases hnil : chains = []
      · subst hnil
        simp [deepestBoundary] at hdeeper
      · obtain ⟨chain, hmem, hboundary⟩ := ih hnil
        exact ⟨chain, List.mem_append_left _ hmem, by omega⟩

theorem mem_deepestRewritten (hs : Sortable s) :
    chain ∈ deepestChains (s.rewrittenChains tools hashes) ↔
      s.DeepestRewritten tools hashes chain := by
  rw [mem_deepestChains, mem_rewrittenChains hs]
  refine and_congr_right ?_
  intro hchain
  refine ⟨?_, ?_⟩
  · intro hdeepest other hother
    have := boundary_le_deepest ((mem_rewrittenChains hs).mpr hother)
    omega
  · intro hdeepest
    have hmem := (mem_rewrittenChains hs).mpr hchain
    obtain ⟨d, hd, hboundary⟩ := exists_deepest (List.ne_nil_of_mem hmem)
    have hle := boundary_le_deepest hmem
    have := hdeepest d ((mem_rewrittenChains hs).mp hd)
    omega

end Lists

/-! ## The choice -/

section Choice

variable {s : GatewaySession} {tools : Option (List Json)} {hashes : List String}

theorem GatewaySession.Exact.not_rewritten {chain : ChainState} (h : s.Exact tools hashes chain) :
    ¬ s.Rewritten tools hashes chain :=
  fun hrewritten => hrewritten.2.2 h

theorem GatewaySession.IsCandidate.active {c : Candidate} (h : s.IsCandidate tools hashes c) :
    c.chain ∈ s.activeChains := by
  rcases h with ⟨e, he, rfl⟩ | ⟨d, hd, _, rfl⟩
  · exact he.1.active
  · exact hd.1.2.1.active

theorem GatewaySession.IsCandidate.rewritten_iff {c : Candidate}
    (h : s.IsCandidate tools hashes c) :
    (!c.exact) = true ↔ s.Rewritten tools hashes c.chain := by
  rcases h with ⟨e, he, rfl⟩ | ⟨d, hd, _, rfl⟩
  · simp [ChainState.toExact, he.not_rewritten]
  · simp [hd.1]

/-- No two candidates have one rank. -/
theorem GatewaySession.IsCandidate.eq_of_rank {c d : Candidate} (hs : Sortable s)
    (hc : s.IsCandidate tools hashes c) (hd : s.IsCandidate tools hashes d)
    (h : c.rank = d.rank) : c = d := by
  have hdepth : c.depth = d.depth := congrArg (fun key => key.1) h
  have hexact : c.exact = d.exact := congrArg (fun key => key.2.1) h
  have hid : c.chain.chainId = d.chain.chainId := congrArg (fun key => key.2.2.2) h
  have hchain := List.inj_on_of_nodup_map hs.chainIds hc.active hd.active hid
  obtain ⟨chain, depth, exact⟩ := c
  subst hdepth hexact hchain
  rfl

/-- The largest of some candidates meets the specification when they are all there are. -/
theorem selectsBest_of_argmax (hs : Sortable s) {candidates : List Candidate}
    (hmem : ∀ c, c ∈ candidates ↔ s.IsCandidate tools hashes c)
    (hnone : candidates = [] ↔ s.Unselectable tools hashes) :
    s.SelectsBest tools hashes
      ((candidates.argmax Candidate.rank).map (fun c => (c.chain, !c.exact))) := by
  have hbest : ∀ best, candidates.argmax Candidate.rank = some best ↔
      s.IsCandidate tools hashes best ∧
        ∀ other, s.IsCandidate tools hashes other → other = best ∨ other.Below best := by
    intro best
    refine ⟨?_, ?_⟩
    · intro h
      have hcandidate := (hmem best).mp (List.argmax_mem h)
      refine ⟨hcandidate, ?_⟩
      intro other hother
      have hle := List.le_of_mem_argmax ((hmem other).mpr hother) h
      rcases hle.eq_or_lt with heq | hlt
      · exact Or.inl (hother.eq_of_rank hs hcandidate heq)
      · exact Or.inr (Candidate.below_iff.mpr hlt)
    · rintro ⟨hcandidate, hbelow⟩
      cases hfound : candidates.argmax Candidate.rank with
      | none =>
        rw [List.argmax_eq_none] at hfound
        rw [hfound] at hmem
        cases (hmem best).mpr hcandidate
      | some found =>
        have hle := List.le_of_mem_argmax ((hmem best).mpr hcandidate) hfound
        rcases hbelow found ((hmem found).mp (List.argmax_mem hfound)) with heq | hlt
        · rw [heq]
        · exact absurd (Candidate.below_iff.mp hlt) (not_lt_of_ge hle)
  refine ⟨?_, ?_, ?_⟩
  · rw [Option.map_eq_none_iff, List.argmax_eq_none]
    exact hnone
  · intro c rollback
    rw [← hnone, Option.map_eq_some_iff]
    refine ⟨?_, ?_⟩
    · rintro ⟨best, hfound, heq⟩
      obtain ⟨rfl, rfl⟩ := Prod.mk.inj heq
      obtain ⟨hcandidate, hbelow⟩ := (hbest best).mp hfound
      exact ⟨List.ne_nil_of_mem (List.argmax_mem hfound), best, hcandidate, hbelow, rfl, rfl⟩
    · rintro ⟨-, best, hcandidate, hbelow, rfl, rfl⟩
      exact ⟨best, (hbest best).mpr ⟨hcandidate, hbelow⟩, rfl⟩
  · intro c rollback h
    obtain ⟨best, hfound, heq⟩ := Option.map_eq_some_iff.mp h
    obtain ⟨rfl, rfl⟩ := Prod.mk.inj heq
    exact ((hbest best).mp hfound).1.rewritten_iff

theorem mem_map_toExact (hs : Sortable s) {c : Candidate} :
    c ∈ (s.exactChains tools hashes).map ChainState.toExact ↔
      ∃ e, s.Exact tools hashes e ∧ c = e.toExact := by
  simp only [List.mem_map, mem_exactChains hs]
  exact exists_congr (fun e => and_congr_right (fun _ => eq_comm))

/-- The deepest of the exact depths that the loop compares with. -/
theorem foldl_depth_lt_iff (tools : Option (List Json)) (hashes : List String) (hs : Sortable s)
    {n : Int} (hn : 0 ≤ n) :
    (((s.exactChains tools hashes).map ChainState.toExact).map Candidate.depth).foldl max (-1) < n ↔
      ∀ e, s.Exact tools hashes e → (e.messageHistory.length : Int) < n := by
  have hfold : ∀ (depths : List Int) (start : Int),
      depths.foldl max start < n ↔ start < n ∧ ∀ depth ∈ depths, depth < n := by
    intro depths
    induction depths with
    | nil => simp
    | cons depth depths ih =>
      intro start
      rw [List.foldl_cons, ih, max_lt_iff, List.forall_mem_cons, and_assoc]
  rw [hfold, List.map_map]
  simp only [List.forall_mem_map, Function.comp_apply, mem_exactChains hs]
  refine ⟨?_, ?_⟩
  · rintro ⟨-, h⟩ e he
    exact h e he
  · intro h
    exact ⟨by omega, h⟩

/-- A deepest rewritten chain that is alone is a candidate. -/
theorem selectsBest_of_alone (hs : Sortable s) {d : ChainState}
    (hd : s.DeepestRewritten tools hashes d)
    (halone : ∀ d', s.DeepestRewritten tools hashes d' → d' = d) :
    s.SelectsBest tools hashes
      ((((s.exactChains tools hashes).map ChainState.toExact ++
        [(⟨d, d.boundary, false⟩ : Candidate)]).argmax Candidate.rank).map
          (fun c => (c.chain, !c.exact))) := by
  apply selectsBest_of_argmax hs
  · intro c
    rw [List.mem_append, mem_map_toExact hs, List.mem_singleton]
    refine or_congr Iff.rfl ?_
    refine ⟨?_, ?_⟩
    · intro hc
      exact ⟨d, hd, halone, hc⟩
    · rintro ⟨d', hd', -, hc⟩
      rw [hc, halone d' hd']
  · refine iff_of_false (by simp) ?_
    rintro (⟨-, hnot⟩ | ⟨d₁, d₂, hd₁, hd₂, hne, -⟩)
    · exact hnot ⟨d, hd, halone⟩
    · exact hne ((halone d₁ hd₁).trans (halone d₂ hd₂).symm)

/-- Otherwise only the exact chains are candidates. -/
theorem selectsBest_of_exact (hs : Sortable s)
    (halone : ¬ ∃! d, s.DeepestRewritten tools hashes d)
    (hdeep : ¬ ∃ d d', s.DeepestRewritten tools hashes d ∧ s.DeepestRewritten tools hashes d' ∧
      d ≠ d' ∧ ∀ e, s.Exact tools hashes e → e.messageHistory.length < d.boundary) :
    s.SelectsBest tools hashes
      ((((s.exactChains tools hashes).map ChainState.toExact).argmax
        Candidate.rank).map (fun c => (c.chain, !c.exact))) := by
  apply selectsBest_of_argmax hs
  · intro c
    rw [mem_map_toExact hs]
    refine (or_iff_left ?_).symm
    rintro ⟨d, hd, hunique, -⟩
    exact halone ⟨d, hd, hunique⟩
  · rw [List.map_eq_nil_iff, List.eq_nil_iff_forall_not_mem]
    simp only [mem_exactChains hs]
    refine ⟨?_, ?_⟩
    · intro h
      exact Or.inl ⟨h, halone⟩
    · rintro (⟨h, -⟩ | h)
      · exact h
      · exact absurd h hdeep

theorem selectsBest_none (h : s.Unselectable tools hashes) : s.SelectsBest tools hashes none where
  none_iff := iff_of_true rfl h
  some_iff := by
    intro c rollback
    refine iff_of_false (by simp) ?_
    rintro ⟨hselectable, -⟩
    exact hselectable h
  rollback_iff := by
    intro c rollback hsome
    cases hsome

theorem selectChain_selectsBest (hs : Sortable s) :
    s.SelectsBest tools hashes (s.selectChain tools hashes) := by
  have hmem : ∀ d, d ∈ deepestChains (s.rewrittenChains tools hashes) ↔
      s.DeepestRewritten tools hashes d := fun d => mem_deepestRewritten hs
  have hnodup : (deepestChains (s.rewrittenChains tools hashes)).Nodup :=
    ((List.Nodup.of_map _ hs.chainIds).filter _).filter _
  rw [selectChain_eq]
  rcases hdeepest : deepestChains (s.rewrittenChains tools hashes) with _ | ⟨d, _ | ⟨d', rest⟩⟩
  · have hnone : ∀ d, ¬ s.DeepestRewritten tools hashes d := by
      intro d hd
      rw [← hmem, hdeepest] at hd
      cases hd
    apply selectsBest_of_exact hs
    · rintro ⟨d, hd, -⟩
      exact hnone d hd
    · rintro ⟨d, -, hd, -⟩
      exact hnone d hd
  · have hd := (hmem d).mp (by rw [hdeepest]; exact List.mem_singleton.mpr rfl)
    have hboundary : (d.boundary : Int) = deepestBoundary (s.rewrittenChains tools hashes) :=
      (mem_deepestChains.mp ((hmem d).mpr hd)).2
    have hbest := selectsBest_of_alone hs hd (by
      intro d' hd'
      rw [← hmem, hdeepest] at hd'
      exact List.mem_singleton.mp hd')
    rw [hboundary] at hbest
    exact hbest
  · have hd := (hmem d).mp (by rw [hdeepest]; exact List.mem_cons_self)
    have hd' := (hmem d').mp (by rw [hdeepest]; exact List.mem_cons_of_mem _ List.mem_cons_self)
    have hne : d ≠ d' := by
      rintro rfl
      rw [hdeepest] at hnodup
      simp at hnodup
    have hboundary : ∀ d, s.DeepestRewritten tools hashes d →
        (d.boundary : Int) = deepestBoundary (s.rewrittenChains tools hashes) := by
      intro d hd
      exact (mem_deepestChains.mp ((hmem d).mpr hd)).2
    have hdepth : 0 ≤ deepestBoundary (s.rewrittenChains tools hashes) := by
      rw [← hboundary d hd]
      exact Int.natCast_nonneg _
    have hfold := foldl_depth_lt_iff tools hashes hs hdepth
    unfold SelectionLocals.pick
    simp only
    by_cases hless : ∀ e, s.Exact tools hashes e →
        (e.messageHistory.length : Int) < deepestBoundary (s.rewrittenChains tools hashes)
    · rw [if_pos (hfold.mpr hless)]
      apply selectsBest_none
      refine Or.inr ⟨d, d', hd, hd', hne, ?_⟩
      intro e he
      have := hless e he
      rw [← hboundary d hd] at this
      exact Int.ofNat_lt.mp this
    · rw [if_neg (fun h => hless (hfold.mp h))]
      apply selectsBest_of_exact hs
      · rintro ⟨d₀, -, hunique⟩
        exact hne ((hunique d hd).trans (hunique d' hd').symm)
      · rintro ⟨d₀, -, hd₀, -, -, hlt⟩
        apply hless
        intro e he
        rw [← hboundary d₀ hd₀]
        exact Int.ofNat_lt.mpr (hlt e he)

end Choice

/-! ## The law -/

/-- The session with its chains in another order. -/
def GatewaySession.reordered (s : GatewaySession) (chains : List ChainState) : GatewaySession :=
  { s with activeChains := chains }

section Reordered

variable {s : GatewaySession} {tools : Option (List Json)} {hashes : List String}
  {chains : List ChainState}

theorem sortable_reordered (hs : Sortable s) (h : chains.Perm s.activeChains) :
    Sortable (s.reordered chains) where
  chainIds := (h.map ChainState.chainId).nodup_iff.mpr hs.chainIds
  boundary := fun chain hchain => hs.boundary chain (h.mem_iff.mp hchain)
  history := fun chain hchain => hs.history chain (h.mem_iff.mp hchain)

theorem eligible_reordered (tools : Option (List Json)) (hashes : List String)
    (h : chains.Perm s.activeChains) :
    (s.reordered chains).Eligible tools hashes = s.Eligible tools hashes := by
  funext chain
  apply propext
  refine ⟨?_, ?_⟩
  · intro he
    exact ⟨h.mem_iff.mp he.active, he.free, he.tools, he.shorter, he.boundary⟩
  · intro he
    exact ⟨h.mem_iff.mpr he.active, he.free, he.tools, he.shorter, he.boundary⟩

/-- The specification does not read the order. -/
theorem selectsBest_reordered (h : chains.Perm s.activeChains)
    {result : Option (ChainState × Bool)}
    (hbest : (s.reordered chains).SelectsBest tools hashes result) :
    s.SelectsBest tools hashes result := by
  have heligible := eligible_reordered tools hashes h
  have hexact : (s.reordered chains).Exact tools hashes = s.Exact tools hashes := by
    unfold GatewaySession.Exact
    rw [heligible]
  have hrewritten : (s.reordered chains).Rewritten tools hashes = s.Rewritten tools hashes := by
    unfold GatewaySession.Rewritten
    rw [heligible, hexact]
    rfl
  have hdeepest : (s.reordered chains).DeepestRewritten tools hashes =
      s.DeepestRewritten tools hashes := by
    unfold GatewaySession.DeepestRewritten
    rw [hrewritten]
  have hunselectable : (s.reordered chains).Unselectable tools hashes =
      s.Unselectable tools hashes := by
    unfold GatewaySession.Unselectable
    rw [hexact, hdeepest]
  have hcandidate : (s.reordered chains).IsCandidate tools hashes =
      s.IsCandidate tools hashes := by
    unfold GatewaySession.IsCandidate
    rw [hexact, hdeepest]
  refine ⟨?_, ?_, ?_⟩
  · rw [← hunselectable]
    exact hbest.none_iff
  · rw [← hunselectable, ← hcandidate]
    exact hbest.some_iff
  · rw [← hrewritten]
    exact hbest.rollback_iff

end Reordered

theorem sortable_run {C : MessageCodec} {sys : System} {sessionId : String}
    {promptLength responseLength : Option Int} {enable : Bool} {s : GatewaySession}
    {actions : List Action}
    (hnew : GatewaySession.create sessionId promptLength responseLength enable = .ok s)
    (hrun : runFrom C s actions = some sys) : Sortable sys.session := by
  have hshape := (shape_run hnew hrun).chains
  have hpositive : ∀ chain ∈ sys.session.activeChains,
      0 < chain.boundary ∧ 0 < chain.messageHistory.length := by
    intro chain hchain
    obtain ⟨before, last, hhistory, hboundary⟩ := (hshape chain hchain).history
    have hpos := List.length_pos_iff.mpr hboundary.nonempty
    have hlength : chain.boundary = before.length := hboundary.messageHistoryLen
    refine ⟨by omega, ?_⟩
    rw [hhistory, List.length_append]
    omega
  exact ⟨(coherent_run hnew hrun).chainIds_nodup, fun chain hchain => (hpositive chain hchain).1,
    fun chain hchain => (hpositive chain hchain).2⟩

/-- In every reachable state the selection meets its specification, in whatever order the chains
are stored. -/
theorem selection_meets_its_specification {C : MessageCodec} {sys : System} {sessionId : String}
    {promptLength responseLength : Option Int} {enable : Bool} {s : GatewaySession}
    {actions : List Action}
    (hnew : GatewaySession.create sessionId promptLength responseLength enable = .ok s)
    (hrun : runFrom C s actions = some sys) (tools : Option (List Json)) (hashes : List String) :
    sys.session.SelectsBest tools hashes (sys.session.selectChain tools hashes) ∧
      ∀ chains, chains.Perm sys.session.activeChains →
        (sys.session.reordered chains).selectChain tools hashes =
          sys.session.selectChain tools hashes := by
  have hs := sortable_run hnew hrun
  refine ⟨selectChain_selectsBest hs, ?_⟩
  intro chains hperm
  have hbest : (sys.session.reordered chains).SelectsBest tools hashes _ :=
    selectChain_selectsBest (sortable_reordered hs hperm)
  exact (selectsBest_reordered hperm hbest).unique (selectChain_selectsBest hs)

/-- Two chains, in both orders. -/
theorem selection_meets_its_specification_siblings :
    ∃ sys, runFrom lineCodec (openSession none) siblings = some sys ∧
      sys.session.activeChains.length = 2 ∧
      ∀ tools hashes,
        sys.session.SelectsBest tools hashes (sys.session.selectChain tools hashes) ∧
          (sys.session.reordered sys.session.activeChains.reverse).selectChain tools hashes =
            sys.session.selectChain tools hashes := by
  have hfacts : (runFrom lineCodec (openSession none) siblings).any (fun sys =>
      sys.session.activeChains.length == 2) = true := by
    decide +kernel
  obtain ⟨sys, hrun, hlength⟩ := (Option.any_eq_true _ _).mp hfacts
  refine ⟨sys, hrun, beq_iff_eq.mp hlength, ?_⟩
  intro tools hashes
  obtain ⟨hbest, horder⟩ := selection_meets_its_specification openSession_eq hrun tools hashes
  exact ⟨hbest, horder _ (List.reverse_perm _)⟩

end uni_agent.session
