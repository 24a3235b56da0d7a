-- Replies that a client goes on with. A rollback takes the last generation of a chain away only for
-- a request that differs from its reply, so that what all requests agree with is never dropped.
import Mathlib.Data.List.Pairwise
import UniAgent.Conservation
import UniAgent.ServedRequests
import UniAgent.TurnTaking

namespace uni_agent.session

variable {C : MessageCodec} {R : InternalGenerationRequest → Prop} {sys t : System}

/-! ## Replies and requests -/

/-- A request that the session takes for a longer one with the same tools behind the same messages,
as the hashes tell it. -/
structure Resumes (C : MessageCodec) (asked request : InternalGenerationRequest) : Prop where
  tools : toolsEq asked.tools request.tools = true
  longer : asked.messages.length < request.messages.length
  hash : C.prefixHash (request.messages.take asked.messages.length) = C.prefixHash asked.messages

/-- Every request that resumes one that was answered goes on with the reply, in the texts that are
hashed. -/
def GoneOnWith (C : MessageCodec) (R : InternalGenerationRequest → Prop)
    (asked : InternalGenerationRequest) (reply : Message) : Prop :=
  ∀ request, R request → Resumes C asked request →
    TextPrefix C (asked.messages ++ [reply]) request.messages

/-- The request that an action brings. -/
def Action.request? : Action → Option InternalGenerationRequest
  | .request asked => some asked
  | _ => none

/-- The request that a generation was called for, and what its output is decoded to. -/
def RepliesTo (C : MessageCodec) (sys : System) (g : Generation)
    (asked : InternalGenerationRequest) (reply : Message) : Prop :=
  Called sys g.requestId asked ∧ ∃ callIds reason,
    C.decodeResponse g.output.tokenIds asked.tools g.output.stopReason callIds = .ok (reply, reason)

/-- All requests go on with what a generation replied. -/
def GoneOn (C : MessageCodec) (R : InternalGenerationRequest → Prop) (sys : System)
    (g : Generation) : Prop :=
  ∀ asked reply, RepliesTo C sys g asked reply → GoneOnWith C R asked reply

/-- A generation without tokens, or one that a request differs from. -/
def MayDrop (C : MessageCodec) (R : InternalGenerationRequest → Prop) (sys : System)
    (g : Generation) : Prop :=
  g.out = [] ∨ ¬ GoneOn C R sys g

/-- A chain ends with the last generation, its request and its reply. -/
structure EndsWithReply (chain : ChainState) (asked : InternalGenerationRequest) (reply : Message) :
    Prop where
  history : chain.messageHistory = asked.messages ++ [reply]
  tools : chain.activeToolSchemas = asked.tools

def TipReplies (C : MessageCodec) (sys : System) (chain : ChainState) : Prop :=
  ∀ g ∈ (sys.ledger.surviving chain.chainId).getLast?, ∃ asked reply,
    RepliesTo C sys g asked reply ∧ EndsWithReply chain asked reply

/-- What a request in flight takes off its chain may be dropped. -/
def RollsOff (C : MessageCodec) (R : InternalGenerationRequest → Prop) (sys : System)
    (f : InFlight) : Prop :=
  f.encoded.rollbackApplied = true → ∀ id, f.encoded.chainId = some id →
    ∀ g ∈ (sys.ledger.surviving id).getLast?, MayDrop C R sys g

/-- What was dropped, and what will be, are no replies that all requests go on with. -/
structure KeepsReplies (C : MessageCodec) (R : InternalGenerationRequest → Prop) (sys : System) :
    Prop where
  called : ∀ f ∈ sys.inFlight, Called sys f.requestId f.request
  tips : ∀ chain ∈ sys.session.activeChains, TipReplies C sys chain
  rolling : ∀ f ∈ sys.inFlight, RollsOff C R sys f
  dropped : ∀ g ∈ sys.ledger.dropped.flatten, MayDrop C R sys g

theorem keepsReplies_initial {sessionId : String} {promptLength responseLength : Option Int}
    {enable : Bool} {s : GatewaySession}
    (hnew : GatewaySession.create sessionId promptLength responseLength enable = .ok s) :
    KeepsReplies C R (System.initial s) := by
  obtain ⟨capacity, rfl⟩ := create_eq_ok hnew
  constructor <;> simp [System.initial]

theorem RepliesTo.later {g : Generation} {asked : InternalGenerationRequest} {reply : Message}
    (h : RepliesTo C sys g asked reply) (hlater : Later sys t) : RepliesTo C t g asked reply :=
  ⟨h.1.later hlater, h.2⟩

theorem MayDrop.later {g : Generation} (h : MayDrop C R sys g) (hlater : Later sys t) :
    MayDrop C R t g := by
  rcases h with hout | hdiffers
  · exact Or.inl hout
  · refine Or.inr (fun hgone => hdiffers ?_)
    exact fun asked reply hreplies => hgone asked reply (hreplies.later hlater)

/-! ## Rollbacks -/

section Rollbacks

variable {s : GatewaySession} {request : InternalGenerationRequest} {encoded : EncodedData}
  {chain : ChainState} {gens : List Generation}

/-- A request that selects a chain is behind the request of its last generation. -/
theorem resumes_of_selectChain (hshape : ChainShape C chain gens)
    (hreuse : Reuses C s request encoded chain) {asked : InternalGenerationRequest}
    {reply : Message} (hends : EndsWithReply chain asked reply) : Resumes C asked request := by
  obtain ⟨before, last, hhistory, hstart⟩ := hshape.history
  obtain ⟨hasked, _⟩ := List.append_inj' (hends.history.symm.trans hhistory) rfl
  rw [← hasked] at hstart
  have hpos := List.length_pos_iff.mpr hstart.nonempty
  obtain ⟨_, heligible, _⟩ := eligible_of_selectChain hreuse.select
  have hhashes : (C.extendMessagePrefixHashes [] request.messages).length =
      request.messages.length := by
    rw [C.extendMessagePrefixHashes_eq]
    simp
  unfold GatewaySession.isEligible pyIndex at heligible
  simp only [Bool.and_eq_true, decide_eq_true_eq, beq_iff_eq, hhashes,
    hstart.messageHistoryLen] at heligible
  obtain ⟨⟨⟨_, htools⟩, hlonger⟩, hhash⟩ := heligible
  rw [if_neg (by omega), C.extendMessagePrefixHashes_eq, prefix_digests.getElem?_extend,
    if_pos (by omega), hstart.tipHash, Option.some.injEq,
    show ((asked.messages.length : Int) - 1).toNat + 1 = asked.messages.length by omega] at hhash
  exact ⟨hends.tools ▸ htools, hlonger, hhash⟩

/-- One that rolls the chain back differs from the reply. -/
theorem not_goneOnWith_of_rollback (hshape : ChainShape C chain gens) (hR : R request)
    (hreuse : Reuses C s request encoded chain) (hrollback : encoded.rollbackApplied = true)
    {asked : InternalGenerationRequest} {reply : Message}
    (hends : EndsWithReply chain asked reply) : ¬ GoneOnWith C R asked reply := by
  intro hgone
  have hprefix := hgone request hR (resumes_of_selectChain hshape hreuse hends)
  have htip := hash_at_of_prefix (by simp) hprefix
  have hlength := hprefix.length_le
  obtain ⟨_, _, hmatch⟩ := eligible_of_selectChain hreuse.select
  have hhashes : (C.extendMessagePrefixHashes [] request.messages).length =
      request.messages.length := by
    rw [C.extendMessagePrefixHashes_eq]
    simp
  rw [List.length_map, List.length_map, ← hends.history] at hlength
  rw [hrollback, Bool.not_true] at hmatch
  unfold isChainPrefixHashMatch at hmatch
  rw [hhashes, if_neg (by omega), if_neg (by simp [hends.history]), hshape.tipHash, hends.history,
    htip] at hmatch
  simp at hmatch

/-- What such a request takes off the chain may be dropped. -/
theorem mayDrop_of_rollback (h : KeepsReplies C R sys) (hshape : (shapeRule C).Holds sys)
    (hR : R request) (hreuse : Reuses C sys.session request encoded chain)
    (hrollback : encoded.rollbackApplied = true) :
    ∀ g ∈ (sys.ledger.surviving chain.chainId).getLast?, MayDrop C R sys g := by
  intro g hg
  have hmem := (eligible_of_selectChain hreuse.select).1
  obtain ⟨asked, reply, hreplies, hends⟩ := h.tips chain hmem g hg
  refine Or.inr (fun hgone => ?_)
  exact not_goneOnWith_of_rollback (hshape.chains chain hmem) hR hreuse hrollback hends
    (hgone asked reply hreplies)

/-- Where the last call is the first one with an output, the others have no tokens. -/
theorem out_nil_of_not_last {P : Generation → Prop} {mode : Option Bool} {buffer : TrajectoryBuffer}
    (h : EndsWithCall C P mode buffer 0 gens) {g : Generation} (hg : g ∈ gens) :
    g.out = [] ∨ g ∈ gens.getLast? := by
  obtain ⟨before, last, l, rfl, hlast, hlen, _⟩ := h
  rcases List.mem_append.mp hg with hg | hg
  · have hblocks := hlast.grounded.blocks_nil (List.length_eq_zero_iff.mp hlen)
    have hbefore := hlast.grounded.generations
    rw [hblocks, List.map_nil] at hbefore
    refine Or.inl (not_not.mp fun hne => ?_)
    have hkept : g ∈ before.filter (fun g => g.out ≠ []) :=
      List.mem_filter.mpr ⟨hg, decide_eq_true hne⟩
    rw [← hbefore] at hkept
    cases hkept
  · rw [List.mem_singleton.mp hg]
    simp

end Rollbacks

/-! ## What each effect keeps -/

/-- One call, at two stages. -/
structure InFlight.SameCall (f g : InFlight) : Prop where
  requestId : f.requestId = g.requestId
  request : f.request = g.request
  rollbackApplied : f.encoded.rollbackApplied = g.encoded.rollbackApplied
  chainId : f.encoded.chainId = g.encoded.chainId

theorem InFlight.SameCall.refl (f : InFlight) : f.SameCall f := ⟨rfl, rfl, rfl, rfl⟩

/-- What holds of the chains, the requests and the dropped generations that are new holds of all. -/
theorem KeepsReplies.move (h : KeepsReplies C R sys) (hlater : Later sys t)
    (hchains : ∀ chain ∈ t.session.activeChains, (chain ∈ sys.session.activeChains ∧
      t.ledger.surviving chain.chainId = sys.ledger.surviving chain.chainId) ∨ TipReplies C t chain)
    (hflight : ∀ g ∈ t.inFlight, (∃ f ∈ sys.inFlight, f.SameCall g ∧
      ∀ id, g.encoded.chainId = some id → t.ledger.surviving id = sys.ledger.surviving id) ∨
      (Called t g.requestId g.request ∧ RollsOff C R t g))
    (hdropped : ∀ g ∈ t.ledger.dropped.flatten,
      g ∈ sys.ledger.dropped.flatten ∨ MayDrop C R sys g) : KeepsReplies C R t := by
  constructor
  · intro g hg
    rcases hflight g hg with ⟨f, hf, hcall, _⟩ | ⟨hcalled, _⟩
    · rw [← hcall.requestId, ← hcall.request]
      exact (h.called f hf).later hlater
    · exact hcalled
  · intro chain hc
    rcases hchains chain hc with ⟨hc, hsame⟩ | htip
    · intro g hg
      rw [hsame] at hg
      obtain ⟨asked, reply, hreplies, hends⟩ := h.tips chain hc g hg
      exact ⟨asked, reply, hreplies.later hlater, hends⟩
    · exact htip
  · intro g hg
    rcases hflight g hg with ⟨f, hf, hcall, hsame⟩ | ⟨_, hrolls⟩
    · intro hrollback id hid g' hg'
      rw [hsame id hid] at hg'
      exact (h.rolling f hf (hcall.rollbackApplied.trans hrollback) id (hcall.chainId.trans hid)
        g' hg').later hlater
    · exact hrolls
  · intro g hg
    rcases hdropped g hg with hg | hmay
    · exact (h.dropped g hg).later hlater
    · exact hmay.later hlater

/-- A step that leaves the ledger, after which there are only old chains and old requests. -/
theorem KeepsReplies.keep (h : KeepsReplies C R sys) (hlater : Later sys t)
    (hledger : t.ledger = sys.ledger)
    (hchains : ∀ chain ∈ t.session.activeChains, chain ∈ sys.session.activeChains)
    (hflight : ∀ g ∈ t.inFlight, ∃ f ∈ sys.inFlight, f.SameCall g) : KeepsReplies C R t := by
  refine h.move hlater ?_ ?_ ?_
  · exact fun chain hc => Or.inl ⟨hchains chain hc, by rw [hledger]⟩
  · intro g hg
    obtain ⟨f, hf, hcall⟩ := hflight g hg
    exact Or.inl ⟨f, hf, hcall, fun id _ => by rw [hledger]⟩
  · exact fun g hg => Or.inl (hledger ▸ hg)

/-- A step that leaves the ledger and the chains, and puts a request into flight. -/
theorem KeepsReplies.enter (h : KeepsReplies C R sys) (hlater : Later sys t)
    (hledger : t.ledger = sys.ledger)
    (hchains : t.session.activeChains = sys.session.activeChains) {f : InFlight}
    (hflight : t.inFlight = sys.inFlight ++ [f]) (hcalled : Called t f.requestId f.request)
    (hrolls : RollsOff C R t f) : KeepsReplies C R t := by
  refine h.move hlater ?_ ?_ ?_
  · exact fun chain hc => Or.inl ⟨hchains ▸ hc, by rw [hledger]⟩
  · intro g hg
    rw [hflight] at hg
    rcases List.mem_append.mp hg with hg | hg
    · exact Or.inl ⟨g, hg, .refl g, fun id _ => by rw [hledger]⟩
    · cases List.mem_singleton.mp hg
      exact Or.inr ⟨hcalled, hrolls⟩
  · exact fun g hg => Or.inl (hledger ▸ hg)

/-- Where a rollback may have added to the dropped generations. -/
theorem mem_flatten_ite {rolledBack : Bool} {dropped : List (List Generation)}
    {last : List Generation} {g : Generation}
    (h : g ∈ (if rolledBack then dropped ++ [last] else dropped).flatten) :
    g ∈ dropped.flatten ∨ (rolledBack = true ∧ g ∈ last) := by
  cases rolledBack with
  | false => exact Or.inl h
  | true =>
    rw [if_pos rfl, List.flatten_append, List.flatten_singleton] at h
    exact (List.mem_append.mp h).imp_right (fun hg => ⟨rfl, hg⟩)

/-- The chain of a commit ends with the reply of the commit. -/
theorem tipReplies_commit {f : InFlight} {output : TokenOutput} {callIds : Nat → String}
    {assistantMsg : Message} {start : LastAssistantStart} (hco : Coherent C sys)
    (h : KeepsReplies C R sys) (hlater : Later sys t)
    (hcommits : Commits C sys f output callIds assistantMsg start) {id orderSeq : Nat}
    {rolledBack : Bool}
    (hledger : t.ledger = sys.ledger.commit id rolledBack (f.generation output)) :
    TipReplies C t
      (GatewaySession.committedChain C f.encoded assistantMsg start id orderSeq) := by
  intro g hg
  have hsound := hco.sound f hcommits.mem
  obtain ⟨reason, hdecode⟩ := hcommits.decode
  rw [hledger, GatewaySession.committedChain, Ledger.surviving_commit_self,
    List.getLast?_concat, Option.mem_some_iff] at hg
  subst hg
  rw [hsound.tools] at hdecode
  refine ⟨f.request, assistantMsg, ⟨(h.called f hcommits.mem).later hlater, callIds, reason,
    hdecode⟩, ?_, hsound.tools⟩
  rw [← hsound.messages]
  rfl

/-- A step of a session whose requests meet `R` keeps the replies that these agree with. -/
theorem keepsReplies_effect {P : Generation → Prop} (hco : Coherent C sys)
    (hshape : (shapeRule C).Holds sys) (htruth : (truthRule C P none).Holds sys)
    (h : KeepsReplies C R sys) {a : Action} (hR : ∀ request, a = .request request → R request)
    (heffect : Effect C sys a t) : KeepsReplies C R t := by
  have hlater := later_effect heffect
  cases heffect with
  | idle _ session next finished hsession _ _ =>
    exact h.keep hlater rfl (fun chain hc => hsession.activeChains ▸ hc)
      (fun f hf => ⟨f, hf, .refl f⟩)
  | left _ f error _ _ =>
    exact h.keep hlater rfl (fun chain hc => hc) (fun g hg => ⟨g, (mem_finish.mp hg).1, .refl g⟩)
  | failed _ f error hmem _ =>
    refine h.keep hlater rfl (fun chain hc => hc) ?_
    intro g hg
    rcases mem_update hg with rfl | ⟨hg, _⟩
    · exact ⟨f, hmem, rfl, rfl, rfl, rfl⟩
    · exact ⟨g, hg, .refl g⟩
  | released f error id _ _ _ =>
    exact h.keep hlater rfl (fun chain hc => hc) (fun g hg => ⟨g, (mem_finish.mp hg).1, .refl g⟩)
  | preparedFresh request encoded _ _ _ hchain _ _ =>
    refine h.enter hlater rfl rfl rfl
      ⟨_, List.mem_append_right _ (List.mem_singleton_self _), rfl, rfl⟩ ?_
    intro _ id hid
    cases hchain.symm.trans hid
  | preparedReuse request encoded chain hreuse _ =>
    have hsession := untouched_reserveChain sys.session chain.chainId
    refine h.enter hlater rfl hsession.activeChains rfl
      ⟨_, List.mem_append_right _ (List.mem_singleton_self _), rfl, rfl⟩ ?_
    intro hrollback id hid g hg
    cases hreuse.chainId.symm.trans hid
    exact (mayDrop_of_rollback h hshape (hR request rfl) hreuse hrollback g hg).later hlater
  | absorbed f output encoded hmem _ habsorb =>
    obtain ⟨_, rfl, _⟩ := absorbOutput_eq_ok habsorb
    refine h.keep hlater rfl (fun chain hc => hc) ?_
    intro g hg
    rcases mem_update hg with rfl | ⟨hg, _⟩
    · exact ⟨f, hmem, rfl, rfl, rfl, rfl⟩
    · exact ⟨g, hg, .refl g⟩
  | committedNew f output callIds assistantMsg start outcome hcommits hchosen =>
    refine h.move hlater ?_ ?_ (fun g hg => Or.inl hg)
    · intro chain hc
      rcases List.mem_append.mp hc with hc | hc
      · have hne : chain.chainId ≠ sys.session.nextChainId := (hco.chainIds_lt chain hc).ne
        exact Or.inl ⟨hc, Ledger.surviving_commit_of_ne _ _ _ _ hne⟩
      · cases List.mem_singleton.mp hc
        exact Or.inr (tipReplies_commit hco h hlater hcommits rfl)
    · intro g hg
      have hin := (mem_finish.mp hg).1
      refine Or.inl ⟨g, hin, .refl g, fun id hid => ?_⟩
      exact Ledger.surviving_commit_of_ne _ _ _ _ (hco.held_lt g hin id hid).ne
  | committedReuse f output callIds assistantMsg start outcome before after chain hcommits hchosen
      hsplit =>
    have hchain : f.encoded.chainId = some chain.chainId := by
      rw [(hco.sound f hcommits.mem).chainId, hchosen]
      rfl
    have hothers : ∀ c ∈ before ++ after, c ∈ sys.session.activeChains ∧
        (sys.ledger.commit chain.chainId f.encoded.rollbackApplied
          (f.generation output)).surviving c.chainId = sys.ledger.surviving c.chainId := by
      intro c hc
      obtain ⟨hne, hc⟩ := ChainRule.ne_of_split hco hsplit hc
      exact ⟨hc, Ledger.surviving_commit_of_ne _ _ _ _ hne⟩
    refine h.move hlater ?_ ?_ ?_
    · intro c hc
      rcases List.mem_append.mp hc with hc | hc
      · exact Or.inl (hothers c (List.mem_append_left _ hc))
      · rcases List.mem_cons.mp hc with rfl | hc
        · exact Or.inr (tipReplies_commit hco h hlater hcommits rfl)
        · exact Or.inl (hothers c (List.mem_append_right _ hc))
    · intro g hg
      obtain ⟨hin, hne⟩ := mem_finish.mp hg
      refine Or.inl ⟨g, hin, .refl g, fun id hid => ?_⟩
      apply Ledger.surviving_commit_of_ne
      rintro rfl
      exact hne (congrArg InFlight.requestId (eq_of_chainId_eq hco hin hcommits.mem hid hchain))
    · intro g hg
      change g ∈ (sys.ledger.commit _ _ _).dropped.flatten at hg
      rw [dropped_commit] at hg
      refine (mem_flatten_ite hg).imp_right ?_
      rintro ⟨hrollback, hlast⟩
      exact h.rolling f hcommits.mem hrollback _ hchain g (Option.mem_toList.mp hlast)
  | dropped request encoded chain before after outcome hreuse _ hsplit hrollback hstart =>
    have hmem : chain ∈ sys.session.activeChains := by simp [hsplit]
    refine h.move hlater ?_ ?_ ?_
    · intro c hc
      obtain ⟨hne, hc⟩ := ChainRule.ne_of_split hco hsplit hc
      exact Or.inl ⟨hc, Ledger.surviving_delete_of_ne _ _ hne⟩
    · intro g hg
      obtain ⟨hin, hfree⟩ := ChainRule.not_held_of_reuses hco hreuse g hg
      refine Or.inl ⟨g, hin, .refl g, fun id hid => ?_⟩
      apply Ledger.surviving_delete_of_ne
      rintro rfl
      exact hfree hid
    · intro g hg
      rw [Ledger.delete, List.flatten_append, List.flatten_singleton] at hg
      refine (List.mem_append.mp hg).imp_right ?_
      intro hg
      have hends := htruth.chains chain hmem
      change EndsWithCall C P none chain.buffer chain.lastAssistantStart.responseIdsLen _ at hends
      rw [hstart] at hends
      rcases out_nil_of_not_last hends hg with hout | hlast
      · exact Or.inl hout
      · exact mayDrop_of_rollback h hshape (hR request rfl) hreuse hrollback g hlast
  | closed request encoded chain before after outcome trajectory hreuse _ hsplit _ _ =>
    refine h.move hlater ?_ ?_ ?_
    · intro c hc
      obtain ⟨hne, hc⟩ := ChainRule.ne_of_split hco hsplit hc
      exact Or.inl ⟨hc, Ledger.surviving_close_of_ne _ _ _ hne⟩
    · intro g hg
      obtain ⟨hin, hfree⟩ := ChainRule.not_held_of_reuses hco hreuse g hg
      refine Or.inl ⟨g, hin, .refl g, fun id hid => ?_⟩
      apply Ledger.surviving_close_of_ne
      rintro rfl
      exact hfree hid
    · intro g hg
      change g ∈ (sys.ledger.close _ _).dropped.flatten at hg
      rw [dropped_close] at hg
      refine (mem_flatten_ite hg).imp_right ?_
      rintro ⟨hrollback, hlast⟩
      exact mayDrop_of_rollback h hshape (hR request rfl) hreuse hrollback g
        (Option.mem_toList.mp hlast)
  | closeFailed request encoded chain error _ _ _ _ =>
    exact h.keep hlater rfl (fun chain hc => hc) (fun f hf => ⟨f, hf, .refl f⟩)
  | finalized built _ _ =>
    refine h.move hlater (fun chain hc => by cases hc) ?_ (fun g hg => Or.inl hg)
    exact fun f hf => Or.inl ⟨f, hf, .refl f, fun _ _ => rfl⟩
  | finalizeFailed front back chain error built _ _ _ _ =>
    exact h.keep hlater rfl (fun chain hc => hc) (fun f hf => ⟨f, hf, .refl f⟩)
  | aborted _ =>
    exact h.keep hlater rfl (fun chain hc => by cases hc) (fun f hf => ⟨f, hf, .refl f⟩)

/-! ## Runs -/

theorem keepsReplies_run {s : GatewaySession} {sessionId : String}
    {promptLength responseLength : Option Int} {enable : Bool} {actions : List Action}
    (hne : C.assistantPrefix ≠ []) (hlong : LongIncrements C)
    (hnew : GatewaySession.create sessionId promptLength responseLength enable = .ok s)
    (hrun : runFrom C s actions = some sys)
    (houtputs : ∀ g ∈ callsOf C s actions, EndsNoOutput C g) :
    KeepsReplies C (fun request => .request request ∈ actions) sys := by
  have hmeets : runs.Meets (System.step C) (fun u a => TruthStep (EndsNoOutput C) none u a ∧
      ∀ request, a = .request request → .request request ∈ actions) (System.initial s) actions := by
    refine ((runs.meets_collect System.returned _ _).imp ?_).and
      (runs.meets_of_forall fun a ha request heq => heq ▸ ha)
    exact fun u a hcalls => ⟨by simp, fun g hg => houtputs g (hcalls g hg)⟩
  have hboth : Bookkeeping C (EndsNoOutput C) sys ∧
      KeepsReplies C (fun request => .request request ∈ actions) sys := by
    apply runs.run_invariant (fun u => Bookkeeping C (EndsNoOutput C) u ∧
      KeepsReplies C (fun request => .request request ∈ actions) u) ?_ hrun hmeets
    · exact ⟨⟨coherent_initial hnew, .initial hnew, .initial hnew, .initial hnew⟩,
        keepsReplies_initial hnew⟩
    · rintro u a v ⟨hbooks, hkeeps⟩ ⟨hq, hR⟩ hstep
      have heffect := step_effect hbooks.coherent hstep
      exact ⟨bookkeeping_effect hne hlong (fun g hg => hg) hbooks hq heffect,
        keepsReplies_effect hbooks.coherent hbooks.shape hbooks.truth hkeeps hR heffect⟩
  exact hboth.2

/-- A commit that was not dropped is held by one chain, once. -/
theorem Conserved.existsUnique_chain {calls : List Generation} (h : Conserved calls sys)
    {g : Generation} (hg : g ∈ sys.ledger.commits) (hkept : g ∉ sys.ledger.dropped.flatten) :
    ∃! id, id ∈ sys.session.chainIds ++ sys.ledger.closed ∧ g ∈ sys.ledger.surviving id := by
  have hsymm : Std.Symm (Function.onFun List.Disjoint sys.ledger.surviving) :=
    ⟨fun _ _ hdisjoint => hdisjoint.symm⟩
  have hnodup := h.heldOrDropped.nodup_iff.mp h.committedOnce.of_map
  have hheld := (List.nodup_append.mp hnodup).1
  rcases List.mem_append.mp (h.heldOrDropped.mem_iff.mp hg) with hg | hg
  · obtain ⟨id, hid, hmem⟩ := List.mem_flatMap.mp hg
    refine ⟨id, ⟨hid, hmem⟩, ?_⟩
    rintro other ⟨hother, hmem'⟩
    by_contra hdiffers
    exact (List.nodup_flatMap.mp hheld).2.forall hother hid hdiffers hmem' hmem
  · exact absurd hg hkept

/-- A rollback takes a generated reply away only for a request that resumes the one that was
answered and does not go on with the reply. What all requests of a run go on with is held by one
chain and no other, and when they go on with every reply, no token is counted as dropped. -/
theorem replies_gone_on_with_are_kept {s : GatewaySession} {sessionId : String}
    {promptLength responseLength : Option Int} {enable : Bool} {actions : List Action}
    (hne : C.assistantPrefix ≠ []) (hlong : LongIncrements C)
    (hnew : GatewaySession.create sessionId promptLength responseLength enable = .ok s)
    (hrun : runFrom C s actions = some sys)
    (houtputs : ∀ g ∈ callsOf C s actions, EndsNoOutput C g)
    (hversions : ∀ g ∈ callsOf C s actions, VersionsReported g) :
    (∀ g ∈ sys.ledger.dropped.flatten, g.out ≠ [] →
      ¬ GoneOn C (fun request => .request request ∈ actions) sys g) ∧
    (sys.session.phase ≠ .aborted →
      (∀ g ∈ sys.ledger.commits, g.out ≠ [] →
        GoneOn C (fun request => .request request ∈ actions) sys g →
        ∃! id, id ∈ sys.session.chainIds ++ sys.ledger.closed ∧ g ∈ sys.ledger.surviving id) ∧
      ((∀ g ∈ sys.ledger.commits, GoneOn C (fun request => .request request ∈ actions) sys g) →
        sys.session.rollbackDroppedTrainableTokensTotal = 0)) := by
  have hdropped : ∀ g ∈ sys.ledger.dropped.flatten, g.out ≠ [] →
      ¬ GoneOn C (fun request => .request request ∈ actions) sys g := fun g hg =>
    ((keepsReplies_run hne hlong hnew hrun houtputs).dropped g hg).resolve_left
  obtain ⟨hbooks, hbalanced⟩ := balanced_of_calls hne hlong hnew hrun houtputs hversions
  refine ⟨hdropped, fun hphase => ?_⟩
  have hbalanced := hbalanced hphase
  have hconserved := hbalanced.conserved hbooks (committedOnce_run hnew hrun) (fun g hg => hg.call)
  constructor
  · intro g hg hout hgone
    exact hconserved.existsUnique_chain hg (fun hmem => hdropped g hmem hout hgone)
  · intro hgone
    have hnone : ∀ g ∈ sys.ledger.dropped.flatten, g.out = [] := by
      intro g hg
      by_contra hout
      have hmem := hconserved.heldOrDropped.mem_iff.mpr (List.mem_append_right _ hg)
      exact hdropped g hg hout (hgone g hmem)
    rw [hbalanced.booked.tokens]
    apply List.sum_eq_zero
    intro n hn
    obtain ⟨g, hg, rfl⟩ := List.mem_map.mp hn
    rw [hnone g hg, List.length_nil]

theorem goneOnWith_of_test {asked : InternalGenerationRequest} {reply : Message}
    {actions : List Action}
    (h : (actions.filterMap Action.request?).all (fun request =>
      request.messages.length ≤ asked.messages.length ||
        ((asked.messages ++ [reply]).map C.canonicalJson).isPrefixOf
          (request.messages.map C.canonicalJson)) = true) :
    GoneOnWith C (fun request => .request request ∈ actions) asked reply := by
  intro request hrequest hresumes
  have htest := List.all_eq_true.mp h request (List.mem_filterMap.mpr ⟨_, hrequest, rfl⟩)
  rcases Bool.or_eq_true_iff.mp htest with hshort | hprefix
  · exact absurd (of_decide_eq_true hshort) (Nat.not_le.mpr hresumes.longer)
  · exact List.isPrefixOf_iff_prefix.mp hprefix

/-- The first reply is gone on with, the second one is rewritten. -/
theorem replies_gone_on_with_are_kept_continuedAndRewritten :
    ∃ sys, runFrom lineCodec (openSession none) continuedAndRewritten = some sys ∧
      (sys.ledger.dropped.flatten.map Generation.out = [tokensOf "b"] ∧
        ∀ g ∈ sys.ledger.dropped.flatten, g.out ≠ [] →
          ¬ GoneOn lineCodec (fun request => .request request ∈ continuedAndRewritten) sys g) ∧
      ∃ g ∈ sys.ledger.commits, g.out = tokensOf "a" ∧
        ∃! id, id ∈ sys.session.chainIds ++ sys.ledger.closed ∧ g ∈ sys.ledger.surviving id := by
  have hfacts : (runFrom lineCodec (openSession none) continuedAndRewritten).any (fun sys =>
      sys.session.phase == .active &&
        sys.ledger.dropped.flatten.map Generation.out == [tokensOf "b"] &&
        sys.ledger.commits.any (fun g => g.out == tokensOf "a" && sys.calls.all (fun call =>
          call.requestId != g.requestId ||
            (continuedAndRewritten.filterMap Action.request?).all (fun request =>
              request.messages.length ≤ call.request.messages.length ||
                ((call.request.messages ++
                  [(lineCodec.decodeText g.output.tokenIds g.output.stopReason).1]).map
                    lineCodec.canonicalJson).isPrefixOf
                      (request.messages.map lineCodec.canonicalJson))))) = true := by
    decide +kernel
  have houtputs : (callsOf lineCodec (openSession none) continuedAndRewritten).all (fun g =>
      g.out.getLast? != lineCodec.assistantPrefix.getLast?) = true := by decide +kernel
  have hversions : (callsOf lineCodec (openSession none) continuedAndRewritten).all (fun g =>
      g.output.minGlobalSteps.isNone || g.output.maxGlobalSteps.isSome) = true := by
    decide +kernel
  obtain ⟨sys, hrun, hfacts⟩ := (Option.any_eq_true _ _).mp hfacts
  simp only [Bool.and_eq_true, beq_iff_eq] at hfacts
  obtain ⟨⟨hactive, hdropped⟩, hfirst⟩ := hfacts
  obtain ⟨g, hg, hfirst⟩ := List.any_eq_true.mp hfirst
  simp only [Bool.and_eq_true, beq_iff_eq] at hfirst
  obtain ⟨hout, hcalls⟩ := hfirst
  obtain ⟨hdiffers, hkept⟩ := replies_gone_on_with_are_kept (by decide +kernel)
    longIncrements_lineCodec openSession_eq hrun (endsNoOutput_of_test houtputs)
    (versionsReported_of_test hversions)
  refine ⟨sys, hrun, ⟨hdropped, hdiffers⟩, g, hg, hout,
    (hkept (by simp [hactive])).1 g hg ?_ ?_⟩
  · rw [hout]
    decide
  · rintro asked reply ⟨⟨call, hcall, hid, rfl⟩, callIds, reason, hdecode⟩
    obtain ⟨rfl, _⟩ : (lineCodec.decodeText g.output.tokenIds g.output.stopReason).1 = reply ∧
        (lineCodec.decodeText g.output.tokenIds g.output.stopReason).2 = reason := by
      cases hdecode
      exact ⟨rfl, rfl⟩
    have htest := List.all_eq_true.mp hcalls call hcall
    simp only [hid, bne_self_eq_false, Bool.false_or] at htest
    exact goneOnWith_of_test htest

end uni_agent.session
