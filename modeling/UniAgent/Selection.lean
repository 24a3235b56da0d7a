-- What `_select_chain` selects, in terms of three groups of chains: the eligible ones, among
-- them the exact ones, whose whole history the request continues, and the rewritten ones,
-- whose last assistant the request replaces.
import UniAgent.SessionState

namespace uni_agent.session

/-! ## The three groups -/

namespace ChainState

/-- The length of the history before the last assistant. -/
def boundary (chain : ChainState) : Nat := chain.lastAssistantStart.messageHistoryLen

def toExact (chain : ChainState) : Candidate := ⟨chain, chain.messageHistory.length, true⟩

end ChainState

namespace GatewaySession

variable (s : GatewaySession) (tools : Option (List Json)) (hashes : List String)

def isExact (chain : ChainState) : Bool :=
  s.isEligible tools hashes chain && isChainPrefixHashMatch chain hashes

def isRewritten (chain : ChainState) : Bool :=
  s.enableLastAssistantRollback && s.isEligible tools hashes chain &&
    !isChainPrefixHashMatch chain hashes

def exactChains : List ChainState := s.activeChains.filter (s.isExact tools hashes)

def rewrittenChains : List ChainState := s.activeChains.filter (s.isRewritten tools hashes)

end GatewaySession

/-- The deepest boundary of some chains, and -1 when there are none. -/
def deepestBoundary (chains : List ChainState) : Int :=
  (chains.map (fun chain => (chain.boundary : Int))).foldl max (-1)

/-- The chains with the deepest boundary. -/
def deepestChains (chains : List ChainState) : List ChainState :=
  chains.filter (fun chain => (chain.boundary : Int) = deepestBoundary chains)

theorem deepestBoundary_concat (chains : List ChainState) (chain : ChainState) :
    deepestBoundary (chains ++ [chain]) = max (deepestBoundary chains) chain.boundary := by
  simp [deepestBoundary]

theorem boundary_le_deepest {chains : List ChainState} {chain : ChainState}
    (h : chain ∈ chains) : (chain.boundary : Int) ≤ deepestBoundary chains := by
  induction chains using List.reverseRecOn with
  | nil => cases h
  | append_singleton chains last ih =>
    rw [deepestBoundary_concat]
    rcases List.mem_append.mp h with h | h
    · have := ih h
      omega
    · cases List.mem_singleton.mp h
      omega

theorem mem_deepestChains {chains : List ChainState} {chain : ChainState} :
    chain ∈ deepestChains chains ↔
      chain ∈ chains ∧ (chain.boundary : Int) = deepestBoundary chains := by
  simp [deepestChains]

/-- A deeper chain is alone. -/
theorem deepestChains_concat_of_lt {chains : List ChainState} {chain : ChainState}
    (h : deepestBoundary chains < chain.boundary) :
    deepestChains (chains ++ [chain]) = [chain] := by
  unfold deepestChains
  rw [deepestBoundary_concat, List.filter_append, List.filter_eq_nil_iff.mpr]
  · simp [max_eq_right h.le]
  · intro c hc
    have := boundary_le_deepest hc
    simp only [decide_eq_true_eq]
    omega

theorem deepestChains_concat_of_eq {chains : List ChainState} {chain : ChainState}
    (h : (chain.boundary : Int) = deepestBoundary chains) :
    deepestChains (chains ++ [chain]) = deepestChains chains ++ [chain] := by
  unfold deepestChains
  rw [deepestBoundary_concat, List.filter_append, max_eq_left h.le]
  simp [h]

theorem deepestChains_concat_of_gt {chains : List ChainState} {chain : ChainState}
    (h : (chain.boundary : Int) < deepestBoundary chains) :
    deepestChains (chains ++ [chain]) = deepestChains chains := by
  unfold deepestChains
  rw [deepestBoundary_concat, List.filter_append, max_eq_left h.le]
  simp [h.ne]

/-! ## The loop -/

section Loop

variable {s : GatewaySession} {tools : Option (List Json)} {hashes : List String}

/-- The loop collects the exact chains and the deepest of the rewritten ones. -/
theorem foldl_considerChain (chains : List ChainState) :
    chains.foldl (s.considerChain tools hashes) {} =
      { rankedCandidates := (chains.filter (s.isExact tools hashes)).map ChainState.toExact
        deepestRollbackCandidates := deepestChains (chains.filter (s.isRewritten tools hashes))
        deepestRollbackServiceValue :=
          deepestBoundary (chains.filter (s.isRewritten tools hashes)) } := by
  induction chains using List.reverseRecOn with
  | nil => rfl
  | append_singleton chains chain ih =>
    rw [List.foldl_append, ih, List.filter_append, List.filter_append]
    simp only [List.foldl_cons, List.foldl_nil]
    unfold GatewaySession.considerChain
    by_cases heligible : s.isEligible tools hashes chain = true
    · by_cases hmatch : isChainPrefixHashMatch chain hashes = true
      · simp [GatewaySession.isExact, GatewaySession.isRewritten, heligible, hmatch,
          ChainState.toExact]
      · by_cases henabled : s.enableLastAssistantRollback = true
        · have hexact : s.isExact tools hashes chain = false := by
            simp [GatewaySession.isExact, hmatch]
          have hrewritten : s.isRewritten tools hashes chain = true := by
            simp [GatewaySession.isRewritten, heligible, hmatch, henabled]
          simp only [heligible, hmatch, henabled, Bool.not_true, Bool.false_eq_true, if_false,
            if_true, List.filter_cons, hexact, hrewritten, List.filter_nil, List.append_nil]
          rw [deepestBoundary_concat]
          change (if _ < (chain.boundary : Int) then _
            else if (chain.boundary : Int) = _ then _ else _) = _
          rcases lt_trichotomy (chain.boundary : Int)
            (deepestBoundary (chains.filter (s.isRewritten tools hashes))) with h | h | h
          · rw [if_neg (by omega), if_neg (by omega), deepestChains_concat_of_gt h,
              max_eq_left h.le]
          · rw [if_neg (by omega), if_pos h, deepestChains_concat_of_eq h, max_eq_left h.le]
          · rw [if_pos h, deepestChains_concat_of_lt h, max_eq_right h.le]
            rfl
        · simp [GatewaySession.isExact, GatewaySession.isRewritten, heligible, hmatch, henabled]
    · simp [GatewaySession.isExact, GatewaySession.isRewritten, heligible]

theorem selectChain_eq : s.selectChain tools hashes =
    SelectionLocals.pick
      { rankedCandidates := (s.exactChains tools hashes).map ChainState.toExact
        deepestRollbackCandidates := deepestChains (s.rewrittenChains tools hashes)
        deepestRollbackServiceValue := deepestBoundary (s.rewrittenChains tools hashes) } := by
  unfold GatewaySession.selectChain
  rw [foldl_considerChain]
  rfl

end Loop

/-! ## The choice -/

/-- Of two candidates the one with the larger rank is at least as deep, and is exact when the
other is exact and as deep. -/
theorem rank_le {c d : Candidate} (h : c.rank ≤ d.rank) :
    c.depth < d.depth ∨ c.depth = d.depth ∧ (c.exact = true → d.exact = true) := by
  rcases Prod.Lex.toLex_le_toLex.mp h with h | ⟨h1, h2⟩
  · exact Or.inl h
  · refine Or.inr ⟨h1, ?_⟩
    rcases Prod.Lex.toLex_le_toLex.mp h2 with h2 | ⟨h2, _⟩
    · exact Bool.le_iff_imp.mp h2.le
    · intro he
      exact h2.symm.trans he

theorem rank_le_of_depth_lt {c d : Candidate} (h : c.depth < d.depth) : ¬ d.rank ≤ c.rank := by
  intro hle
  rcases rank_le hle with h' | ⟨h', _⟩ <;> omega

/-- The choice among exact chains is one of them, and no other is longer. -/
theorem argmax_exact {chains : List ChainState} {c : Candidate}
    (h : (chains.map ChainState.toExact).argmax Candidate.rank = some c) :
    c.exact = true ∧ c.chain ∈ chains ∧
      ∀ e ∈ chains, e.messageHistory.length ≤ c.chain.messageHistory.length := by
  obtain ⟨chain, hmem, rfl⟩ := List.mem_map.mp (List.argmax_mem h)
  refine ⟨rfl, hmem, ?_⟩
  intro e he
  have hle := List.le_of_mem_argmax (List.mem_map_of_mem he) h
  have := rank_le hle
  simp only [ChainState.toExact] at this
  change e.messageHistory.length ≤ chain.messageHistory.length
  omega

section Choice

variable {s : GatewaySession} {tools : Option (List Json)} {hashes : List String}

/-- A chain is selected for a rollback when it alone has the deepest boundary of the rewritten
chains, and this boundary is deeper than every exact chain. -/
theorem selectChain_rollback_iff {d : ChainState} :
    s.selectChain tools hashes = some (d, true) ↔
      deepestChains (s.rewrittenChains tools hashes) = [d] ∧
        ∀ e ∈ s.exactChains tools hashes, e.messageHistory.length < d.boundary := by
  rw [selectChain_eq]
  generalize s.exactChains tools hashes = exacts
  generalize s.rewrittenChains tools hashes = rewritten
  have hexact : ∀ x : Candidate,
      (exacts.map ChainState.toExact).argmax Candidate.rank = some x → x.exact = true :=
    fun x hx => (argmax_exact hx).1
  refine ⟨?_, ?_⟩
  · intro h
    unfold SelectionLocals.pick at h
    split at h
    · rename_i only chain hdeep
      simp only at hdeep h
      obtain ⟨x, hx, heq⟩ := Option.map_eq_some_iff.mp h
      simp only [Prod.mk.injEq, Bool.not_eq_true'] at heq
      have hdepth : (chain.boundary : Int) = deepestBoundary rewritten :=
        (mem_deepestChains.mp (by rw [hdeep]; simp)).2
      rcases List.mem_append.mp (List.argmax_mem hx) with hmem | hmem
      · obtain ⟨e, _, rfl⟩ := List.mem_map.mp hmem
        exact absurd heq.2 (by simp [ChainState.toExact])
      · cases List.mem_singleton.mp hmem
        obtain rfl : chain = d := heq.1
        refine ⟨hdeep, ?_⟩
        intro e he
        have hle := List.le_of_mem_argmax
          (List.mem_append_left _ (List.mem_map_of_mem he)) hx
        rcases rank_le hle with hlt | ⟨_, himp⟩
        · simp only [ChainState.toExact] at hlt
          omega
        · exact absurd (himp rfl) (by simp)
    · obtain ⟨x, hx, heq⟩ := Option.map_eq_some_iff.mp h
      simp [hexact x hx] at heq
    · split at h
      · cases h
      · obtain ⟨x, hx, heq⟩ := Option.map_eq_some_iff.mp h
        simp [hexact x hx] at heq
  · rintro ⟨hdeep, hlt⟩
    have hdepth : (d.boundary : Int) = deepestBoundary rewritten :=
      (mem_deepestChains.mp (by rw [hdeep]; simp)).2
    unfold SelectionLocals.pick
    simp only [hdeep]
    cases hx : (exacts.map ChainState.toExact ++
        [(⟨d, deepestBoundary rewritten, false⟩ : Candidate)]).argmax Candidate.rank with
    | none => simp at hx
    | some x =>
      rcases List.mem_append.mp (List.argmax_mem hx) with hmem | hmem
      · obtain ⟨e, he, rfl⟩ := List.mem_map.mp hmem
        have hle := List.le_of_mem_argmax
          (List.mem_append_right _ (List.mem_singleton.mpr rfl)) hx
        refine absurd hle (rank_le_of_depth_lt ?_)
        have := hlt e he
        simp only [ChainState.toExact]
        omega
      · cases List.mem_singleton.mp hmem
        rfl

/-- A chain that is selected whole is an exact one, and no exact chain is longer. -/
theorem selectChain_exact {c : ChainState} (h : s.selectChain tools hashes = some (c, false)) :
    c ∈ s.exactChains tools hashes ∧
      ∀ e ∈ s.exactChains tools hashes, e.messageHistory.length ≤ c.messageHistory.length := by
  rw [selectChain_eq] at h
  revert h
  generalize s.exactChains tools hashes = exacts
  generalize s.rewrittenChains tools hashes = rewritten
  intro h
  have hbest : ∀ x : Candidate,
      (exacts.map ChainState.toExact).argmax Candidate.rank = some x → x.chain = c →
        c ∈ exacts ∧ ∀ e ∈ exacts, e.messageHistory.length ≤ c.messageHistory.length := by
    rintro x hx rfl
    exact (argmax_exact hx).2
  unfold SelectionLocals.pick at h
  split at h
  · obtain ⟨x, hx, heq⟩ := Option.map_eq_some_iff.mp h
    simp only [Prod.mk.injEq, Bool.not_eq_false'] at heq
    rcases List.mem_append.mp (List.argmax_mem hx) with hmem | hmem
    · obtain ⟨e, hemem, rfl⟩ := List.mem_map.mp hmem
      obtain rfl : e = c := heq.1
      refine ⟨hemem, ?_⟩
      intro e' he'
      have hle := rank_le (List.le_of_mem_argmax
        (List.mem_append_left _ (List.mem_map_of_mem he')) hx)
      simp only [ChainState.toExact] at hle
      omega
    · cases List.mem_singleton.mp hmem
      exact absurd heq.2 (by simp)
  · obtain ⟨x, hx, heq⟩ := Option.map_eq_some_iff.mp h
    simp only [Prod.mk.injEq] at heq
    exact hbest x hx heq.1
  · split at h
    · cases h
    · obtain ⟨x, hx, heq⟩ := Option.map_eq_some_iff.mp h
      simp only [Prod.mk.injEq] at heq
      exact hbest x hx heq.1

theorem eligible_of_selectChain {c : ChainState} {rollback : Bool}
    (h : s.selectChain tools hashes = some (c, rollback)) :
    c ∈ s.activeChains ∧ s.isEligible tools hashes c = true ∧
      isChainPrefixHashMatch c hashes = !rollback := by
  cases rollback with
  | false =>
    have hmem := (selectChain_exact h).1
    simpa [GatewaySession.exactChains, GatewaySession.isExact] using hmem
  | true =>
    have hdeep := (selectChain_rollback_iff.mp h).1
    have hmem : c ∈ s.rewrittenChains tools hashes :=
      (mem_deepestChains.mp (by rw [hdeep]; simp)).1
    simp only [GatewaySession.rewrittenChains, GatewaySession.isRewritten, List.mem_filter,
      Bool.and_eq_true, Bool.not_eq_true'] at hmem
    exact ⟨hmem.1, hmem.2.1.2, hmem.2.2⟩

end Choice

end uni_agent.session
