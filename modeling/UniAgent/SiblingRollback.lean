-- Which chain pays for a rollback. A free chain that a request continues is never passed over
-- for the rollback of a chain with a boundary that is not deeper. A chain that is reserved is
-- left out of the choice, and then a sibling can lose its last assistant to a retry.
import UniAgent.ChainShape

namespace uni_agent.session

variable {C : MessageCodec} {s : GatewaySession} {request : InternalGenerationRequest}
  {chain : ChainState} {gens : List Generation}

/-! ## Chains that a request continues -/

/-- The request has the tools of the chain, and its messages go on from the whole history. -/
def Continues (C : MessageCodec) (request : InternalGenerationRequest) (chain : ChainState) :
    Prop :=
  toolsEq chain.activeToolSchemas request.tools = true ∧
    chain.messageHistory.map C.canonicalJson <+: request.messages.map C.canonicalJson

theorem getElem?_prefixHashes (messages : List Message) {k : Nat} (hk : k < messages.length) :
    (C.extendMessagePrefixHashes [] messages)[k]? =
        some (C.prefixHash (messages.take (k + 1))) := by
  rw [C.extendMessagePrefixHashes_eq, prefix_digests.getElem?_extend, if_pos hk]
  rfl

@[simp] theorem length_prefixHashes (messages : List Message) :
    (C.extendMessagePrefixHashes [] messages).length = messages.length := by
  rw [C.extendMessagePrefixHashes_eq]
  simp

/-- A history that is a canonical prefix has the prefix hash at its own length. -/
theorem prefixHash_of_canonical_prefix {history messages : List Message}
    (h : history.map C.canonicalJson <+: messages.map C.canonicalJson) :
    history.length ≤ messages.length ∧
      C.prefixHash history = C.prefixHash (messages.take history.length) := by
  have hlen : history.length ≤ messages.length := by simpa using h.length_le
  refine ⟨hlen, C.prefixHash_congr ?_⟩
  rw [List.map_take]
  simpa using List.prefix_iff_eq_take.mp h

/-- A chain that the request continues matches it, and so does its boundary. -/
theorem match_of_continues (hshape : ChainShape C chain gens) (h : Continues C request chain) :
    isChainPrefixHashMatch chain (C.extendMessagePrefixHashes [] request.messages) = true ∧
      chain.boundary < request.messages.length ∧
      pyIndex (C.extendMessagePrefixHashes [] request.messages) ((chain.boundary : Int) - 1) =
        some chain.lastAssistantStart.tipHash := by
  obtain ⟨before, last, hhistory, hboundary⟩ := hshape.history
  obtain ⟨hlen, hhash⟩ := prefixHash_of_canonical_prefix h.2
  have hbefore : before.map C.canonicalJson <+: request.messages.map C.canonicalJson := by
    refine List.IsPrefix.trans ?_ h.2
    rw [hhistory, List.map_append]
    exact List.prefix_append _ _
  obtain ⟨hlen', hhash'⟩ := prefixHash_of_canonical_prefix hbefore
  have hpos := List.length_pos_iff.mpr hboundary.nonempty
  have hlength : chain.messageHistory.length = before.length + 1 := by rw [hhistory]; simp
  have hmhl : chain.boundary = before.length := hboundary.messageHistoryLen
  refine ⟨?_, by omega, ?_⟩
  · unfold isChainPrefixHashMatch
    simp only [length_prefixHashes]
    rw [if_neg (by omega), if_neg (by omega), getElem?_prefixHashes _ (by omega),
      Nat.sub_add_cancel (by omega), hshape.tipHash, hhash]
    simp
  · unfold pyIndex
    rw [if_neg (by omega), hmhl, show ((before.length : Int) - 1).toNat =
      before.length - 1 by omega,
      getElem?_prefixHashes _ (by omega), Nat.sub_add_cancel hpos, hboundary.tipHash, hhash']

/-- A free chain that the request continues is an exact one. -/
theorem exact_of_continues (hshape : ChainShape C chain gens) (hmem : chain ∈ s.activeChains)
    (hfree : chain.chainId ∉ s.reservedChainIds) (h : Continues C request chain) :
    chain ∈ s.exactChains request.tools (C.extendMessagePrefixHashes [] request.messages) := by
  obtain ⟨hmatch, hlt, hindex⟩ := match_of_continues hshape h
  have heligible : s.isEligible request.tools
      (C.extendMessagePrefixHashes [] request.messages) chain = true := by
    unfold GatewaySession.isEligible
    unfold ChainState.boundary at hlt hindex
    simp [h.1, hlt, hindex, hfree]
  simp [GatewaySession.exactChains, GatewaySession.isExact, hmem, heligible, hmatch]

/-! ## The law -/

/-- No chain loses its last assistant to a request that continues another chain at least up to
the same boundary. -/
def SparesSiblings (C : MessageCodec) (s : GatewaySession) (request : InternalGenerationRequest) :
    Prop :=
  ∀ c ∈ s.activeChains, Continues C request c → ∀ d, s.selectionFor C request = some (d, true) →
    d ≠ c → c.messageHistory.length < d.boundary

/-- A reserved chain that the request continues, next to a free chain that alone has the
deepest boundary of the rewritten chains, when this boundary is past every free chain that the
request continues, but not past the reserved one. -/
def BusyBesideRewritten (C : MessageCodec) (s : GatewaySession)
    (request : InternalGenerationRequest) : Prop :=
  let hashes := C.extendMessagePrefixHashes [] request.messages
  ∃ c ∈ s.activeChains, c.chainId ∈ s.reservedChainIds ∧ Continues C request c ∧
    ∃ d, deepestChains (s.rewrittenChains request.tools hashes) = [d] ∧
      (∀ e ∈ s.exactChains request.tools hashes, e.messageHistory.length < d.boundary) ∧
      d.boundary ≤ c.messageHistory.length

/-- In every reachable state siblings are spared exactly when no reserved chain that the
request continues stands beside such a rewritten chain. -/
theorem siblings_are_spared_unless_the_chain_is_busy {sys : System} {sessionId : String}
    {promptLength responseLength : Option Int} {enable : Bool} {actions : List Action}
    (hnew : GatewaySession.create sessionId promptLength responseLength enable = .ok s)
    (hrun : runFrom C s actions = some sys) (request : InternalGenerationRequest) :
    SparesSiblings C sys.session request ↔ ¬ BusyBesideRewritten C sys.session request := by
  have hco := coherent_run hnew hrun
  have hshape := (shape_run hnew hrun).chains
  refine ⟨?_, ?_⟩
  · rintro hspares ⟨c, hc, hbusy, hcontinues, d, hdeep, hlt, hle⟩
    have hselect : sys.session.selectionFor C request = some (d, true) :=
      selectChain_rollback_iff.mpr ⟨hdeep, hlt⟩
    have hne : d ≠ c := by
      rintro rfl
      exact not_reserved_of_select hselect hbusy
    exact absurd (hspares c hc hcontinues d hselect hne) (by omega)
  · intro hfree c hc hcontinues d hselect _
    obtain ⟨hdeep, hlt⟩ := selectChain_rollback_iff.mp hselect
    by_cases hbusy : c.chainId ∈ sys.session.reservedChainIds
    · by_contra hle
      exact hfree ⟨c, hc, hbusy, hcontinues, d, hdeep, hlt, by omega⟩
    · exact hlt c (exact_of_continues (hshape c hc) hc hbusy hcontinues)

/-! ## A retry beside a sibling -/

/-- Two replies to one request: the second starts a chain of its own, since the first chain is
busy. -/
def siblings : List Action :=
  [.request { messages := [say "user" "q"] }, .backendReturns 0 { tokenIds := tokensOf "a" },
    .commit 0 (fun _ => ""),
    .request { messages := [say "user" "q", say "assistant" "a", say "user" "r"] },
    .request { messages := [say "user" "q", say "assistant" "a", say "user" "r"] },
    .backendReturns 1 { tokenIds := tokensOf "b" }, .commit 1 (fun _ => ""),
    .backendReturns 2 { tokenIds := tokensOf "other" }, .commit 2 (fun _ => "")]

/-- A continuation of the first reply. -/
def continuation : InternalGenerationRequest :=
  { messages := [say "user" "q", say "assistant" "a", say "user" "r", say "assistant" "b",
      say "user" "t"] }

theorem siblings_are_spared_when_nothing_is_busy :
    ∃ sys, runFrom lineCodec (openSession none) siblings = some sys ∧
      sys.session.activeChains.length = 2 ∧ SparesSiblings lineCodec sys.session continuation := by
  have hfacts : (runFrom lineCodec (openSession none) siblings).any (fun sys =>
      sys.session.activeChains.length == 2 && sys.session.reservedChainIds.isEmpty) = true := by
    decide +kernel
  obtain ⟨sys, hrun, hfacts⟩ := (Option.any_eq_true _ _).mp hfacts
  simp only [Bool.and_eq_true, beq_iff_eq, List.isEmpty_iff] at hfacts
  refine ⟨sys, hrun, hfacts.1,
    (siblings_are_spared_unless_the_chain_is_busy openSession_eq hrun continuation).mpr ?_⟩
  rintro ⟨c, _, hbusy, _⟩
  rw [hfacts.2] at hbusy
  cases hbusy

/-- The continuation is sent twice. The chain that it continues is busy with the first, and
the second takes the sibling's reply away. -/
theorem retried_continuation_rolls_a_sibling_back :
    ∃ sys, runFrom lineCodec (openSession none) (siblings ++ [.request continuation]) = some sys ∧
      ¬ SparesSiblings lineCodec sys.session continuation := by
  have hfacts : (runFrom lineCodec (openSession none)
      (siblings ++ [.request continuation])).any (fun sys =>
        (sys.session.selectionFor lineCodec continuation).any (fun choice =>
          choice.2 && choice.1.chainId == 2 && choice.1.boundary == 3) &&
        sys.session.activeChains.any (fun c => c.chainId == 1 && c.messageHistory.length == 4 &&
          toolsEq c.activeToolSchemas continuation.tools &&
          (c.messageHistory.map lineCodec.canonicalJson).isPrefixOf
            (continuation.messages.map lineCodec.canonicalJson))) = true := by
    decide +kernel
  obtain ⟨sys, hrun, hfacts⟩ := (Option.any_eq_true _ _).mp hfacts
  obtain ⟨hselect, hactive⟩ := Bool.and_eq_true_iff.mp hfacts
  obtain ⟨⟨d, rollback⟩, hselect, hd⟩ := (Option.any_eq_true _ _).mp hselect
  obtain ⟨c, hc, hcfacts⟩ := List.any_eq_true.mp hactive
  simp only [Bool.and_eq_true, beq_iff_eq, List.isPrefixOf_iff_prefix] at hd hcfacts
  refine ⟨sys, hrun, ?_⟩
  intro hspares
  have hne : d ≠ c := by
    rintro rfl
    omega
  rw [hd.1.1] at hselect
  have := hspares c hc ⟨hcfacts.1.2, hcfacts.2⟩ d hselect hne
  omega

end uni_agent.session
