-- A client whose requests all have as many messages, as one that sends every prompt as a
-- conversation of its own: no request goes on with a chain, so each committed generation is a
-- trajectory of its own, however the requests overlap.
import UniAgent.Conservation
import UniAgent.TurnTaking

namespace uni_agent.session

variable {C : MessageCodec} {sys t : System} {m : Nat} {P : Generation → Prop}
  {A : Nat → InternalGenerationRequest → Prop}

/-! ## Requests of one length -/

/-- The request that enters in a step, with its id. -/
def System.entered (sys : System) : Action → List (Nat × InternalGenerationRequest)
  | .request request => [(sys.nextRequestId, request)]
  | _ => []

/-- The requests that enter in a run, in order. -/
def requestsOf (C : MessageCodec) (s : GatewaySession) (actions : List Action) :
    List (Nat × InternalGenerationRequest) :=
  runs.collect (System.step C) System.entered (System.initial s) actions

/-- A call was given all messages of a request as its prompt. -/
def Opening (C : MessageCodec) (A : Nat → InternalGenerationRequest → Prop) (g : Generation) :
    Prop :=
  ∃ request images videos, A g.requestId request ∧
    C.encodeFull request.messages request.tools images videos = .ok g.contextIds

/-- What a chain or a trajectory has when it holds a single generation. -/
structure OnlyCall (C : MessageCodec) (A : Nat → InternalGenerationRequest → Prop)
    (P : Generation → Prop) (promptIds responseIds : List Token) (responseMask : List Nat)
    (g : Generation) : Prop where
  call : P g
  opening : Opening C A g
  promptIds : promptIds = g.contextIds
  responseIds : responseIds = g.out
  responseMask : responseMask = g.ones

def HoldsOne (C : MessageCodec) (A : Nat → InternalGenerationRequest → Prop)
    (P : Generation → Prop) (buffer : TrajectoryBuffer) (gens : List Generation) : Prop :=
  ∃ g, gens = [g] ∧ OnlyCall C A P buffer.promptIds buffer.responseIds buffer.responseMask g

/-- The law of chains that no request goes on with. -/
def openedRule (C : MessageCodec) (m : Nat) (A : Nat → InternalGenerationRequest → Prop)
    (P : Generation → Prop) : ChainRule where
  chain := fun chain gens =>
    chain.lastAssistantStart.messageHistoryLen = m ∧ HoldsOne C A P chain.buffer gens
  ready := fun f gens => gens = [] ∧ Opened C f.request f.encoded ∧ f.request.messages.length = m ∧
    f.encoded.buffer = { promptIds := f.encoded.contextIds } ∧ A f.requestId f.request ∧
    ∃ images videos, C.encodeFull f.request.messages f.request.tools images videos =
      .ok f.encoded.contextIds
  full := fun f gens => HoldsOne C A P f.encoded.buffer gens ∧
    ∀ start, f.encoded.lastAssistantStart = some start → start.messageHistoryLen = m
  closed := fun trajectory gens => ∃ g, gens = [g] ∧
    OnlyCall C A P trajectory.promptIds trajectory.responseIds trajectory.responseMask g

/-- A step in which no request goes on with a chain, and only calls return that meet `P`. -/
structure OpeningStep (C : MessageCodec) (m : Nat) (A : Nat → InternalGenerationRequest → Prop)
    (P : Generation → Prop) (sys : System) (a : Action) : Prop where
  length : ∀ request, a = .request request → request.messages.length = m
  requests : ∀ entry ∈ sys.entered a, A entry.1 entry.2
  calls : ∀ g ∈ sys.returned a, P g
  opens : ∀ request encoded chain, a = .request request →
    ¬ Reuses C sys.session request encoded chain

theorem openedRule_kept : (openedRule C m A P).Kept C (OpeningStep C m A P) := by
  constructor
  · intro sys request encoded hq _ hprep hselect hroom
    obtain ⟨promptIds, _, hfull, hbuffer, _⟩ := prepare_fresh hprep hselect
    have hopened := opened_of_prepare hprep hroom
    have hcontext : encoded.contextIds = promptIds := by
      rw [hopened.contextIds, hbuffer]
      exact List.append_nil _
    refine ⟨rfl, hopened, hq.length request rfl, ?_,
      hq.requests (sys.nextRequestId, request) (by simp [System.entered]), encoded.imageData,
      encoded.videoData, ?_⟩
    · rw [hcontext]
      exact hbuffer
    · rw [hcontext]
      exact hfull
  · intro sys request encoded chain gens hq hreuse _ _
    exact absurd hreuse (hq.opens request encoded chain rfl)
  · intro sys f output encoded gens hq hmem hready habsorb
    obtain ⟨rfl, hopened, hlength, hbuffer, hrequest, images, videos, hfull⟩ := hready
    obtain ⟨logProbs, rfl, _⟩ := absorbOutput_eq_ok habsorb
    refine ⟨⟨f.generation output, rfl, hq.calls _ (mem_returned hmem output),
      ⟨f.request, images, videos, hrequest, hfull⟩, ?_, ?_, ?_⟩, ?_⟩
    · simp [hbuffer, InFlight.generation]
    · simp [hbuffer, Generation.out, InFlight.generation]
    · simp [hbuffer, Generation.ones, Generation.out, InFlight.generation]
    · intro start hstart
      rw [hopened.start] at hstart
      cases hstart
      exact hlength
  · intro sys f output callIds assistantMsg start chainId orderSeq gens _ hcommits _ hfull
    exact ⟨hfull.2 start hcommits.start, hfull.1⟩
  · intro sys request encoded chain gens trajectory hq hreuse _ _ _ _
    exact absurd hreuse (hq.opens request encoded chain rfl)
  · intro chain gens trajectory hchain hbuild
    obtain ⟨_, span, _, rfl⟩ := build_eq_ok hbuild
    exact hchain.2

/-- A chain is as long before its last assistant as every request, so it is no candidate. -/
theorem not_reuses (h : (openedRule C m A P).Holds sys) {request : InternalGenerationRequest}
    {encoded : EncodedData} {chain : ChainState} (hlength : request.messages.length = m) :
    ¬ Reuses C sys.session request encoded chain := by
  intro hreuse
  obtain ⟨hmem, heligible, _⟩ := eligible_of_selectChain hreuse.select
  have hboundary := (h.chains chain hmem).1
  unfold GatewaySession.isEligible at heligible
  simp only [Bool.and_eq_true, decide_eq_true_eq] at heligible
  have hlt := heligible.1.2
  rw [C.extendMessagePrefixHashes_eq] at hlt
  simp only [prefix_digests.length_extend, List.length_nil, Nat.zero_add] at hlt
  omega

/-! ## One chain for each commit -/

/-- No request has a chain, and nothing is rolled back. -/
structure Apart (sys : System) : Prop where
  waits : ∀ f ∈ sys.inFlight, f.preparedChain = none
  uncounted : sys.session.rollbackCount = 0
  undropped : sys.ledger.dropped = []

/-- Nothing is closed, and the commits are those of the active chains, in their order. -/
structure OneForEach (sys : System) : Prop where
  unclosed : sys.session.phase = .active → sys.session.materializedChains = []
  commits : sys.session.phase = .active →
    sys.ledger.commits = sys.session.chainIds.flatMap sys.ledger.surviving
  order : InOrder sys.session

theorem apart_initial (s : GatewaySession) (h : s.rollbackCount = 0) : Apart (System.initial s) :=
  ⟨by simp [System.initial], h, rfl⟩

theorem oneForEach_initial {sessionId : String} {promptLength responseLength : Option Int}
    {enable : Bool} {s : GatewaySession}
    (hnew : GatewaySession.create sessionId promptLength responseLength enable = .ok s) :
    OneForEach (System.initial s) := by
  have horder := (oneLine_initial hnew).2
  obtain ⟨capacity, rfl⟩ := create_eq_ok hnew
  exact ⟨fun _ => rfl, fun _ => rfl, horder⟩

theorem Apart.keep (h : Apart sys) (hcount : t.session.rollbackCount = sys.session.rollbackCount)
    (hledger : t.ledger.dropped = sys.ledger.dropped)
    (hflight : ∀ g ∈ t.inFlight, ∃ f ∈ sys.inFlight, g.preparedChain = f.preparedChain) :
    Apart t := by
  refine ⟨?_, hcount.trans h.uncounted, hledger.trans h.undropped⟩
  intro g hg
  obtain ⟨f, hf, hchosen⟩ := hflight g hg
  rw [hchosen]
  exact h.waits f hf

theorem apart_effect (h : Apart sys) {a : Action} (hopens : ∀ request encoded chain,
      a = .request request → ¬ Reuses C sys.session request encoded chain)
    (heffect : Effect C sys a t) : Apart t := by
  have hsame : ∀ g ∈ sys.inFlight, ∃ f ∈ sys.inFlight, g.preparedChain = f.preparedChain :=
    fun g hg => ⟨g, hg, rfl⟩
  cases heffect with
  | idle _ session next finished hsession _ _ => exact h.keep hsession.rollbackCount rfl hsame
  | left _ f error hmem _ => exact h.keep rfl rfl (fun g hg => ⟨g, (mem_finish.mp hg).1, rfl⟩)
  | failed _ f error hmem _ =>
    refine h.keep rfl rfl ?_
    intro g hg
    rcases mem_update hg with rfl | ⟨hg, _⟩
    · exact ⟨f, hmem, rfl⟩
    · exact ⟨g, hg, rfl⟩
  | released f error id hmem _ _ =>
    exact h.keep rfl rfl (fun g hg => ⟨g, (mem_finish.mp hg).1, rfl⟩)
  | preparedFresh request encoded hactive hprep hselect hchain hrollback hroom =>
    refine ⟨?_, h.uncounted, h.undropped⟩
    intro f hf
    rcases List.mem_append.mp hf with hf | hf
    · exact h.waits f hf
    · rw [List.mem_singleton.mp hf]
  | preparedReuse request encoded chain hreuse hroom =>
    exact absurd hreuse (hopens request encoded chain rfl)
  | absorbed f output encoded hmem hstage habsorb =>
    refine h.keep rfl rfl ?_
    intro g hg
    rcases mem_update hg with rfl | ⟨hg, _⟩
    · exact ⟨f, hmem, rfl⟩
    · exact ⟨g, hg, rfl⟩
  | committedNew f output callIds assistantMsg start outcome hcommits hchosen =>
    exact h.keep rfl rfl (fun g hg => ⟨g, (mem_finish.mp hg).1, rfl⟩)
  | committedReuse f output callIds assistantMsg start outcome before after chain hcommits hchosen
      hsplit =>
    rw [h.waits f hcommits.mem] at hchosen
    cases hchosen
  | dropped request encoded chain before after outcome hreuse _ _ _ _ =>
    exact absurd hreuse (hopens request encoded chain rfl)
  | closed request encoded chain before after outcome trajectory hreuse _ _ _ _ =>
    exact absurd hreuse (hopens request encoded chain rfl)
  | closeFailed request encoded chain error hreuse _ _ _ =>
    exact absurd hreuse (hopens request encoded chain rfl)
  | finalized built hactive hbuilt => exact h.keep rfl rfl hsame
  | finalizeFailed front back chain error built hactive hsplit hbuilt hbuild =>
    exact h.keep rfl rfl hsame
  | aborted hactive => exact h.keep rfl rfl hsame

theorem OneForEach.keep (h : OneForEach sys) (hsession : Untouched sys.session t.session)
    (hledger : t.ledger = sys.ledger) : OneForEach t := by
  constructor
  · rw [hsession.phase, hsession.materializedChains]
    exact h.unclosed
  · rw [hsession.phase, hledger, chainIds_untouched hsession]
    exact h.commits
  · refine h.order.keep ?_ hsession.orderSeq.ge
    rw [hsession.materializedChains, hsession.activeChains]

theorem oneForEach_effect (hreg : Registered sys) (hco : Coherent C sys)
    (hunborn : sys.ledger.surviving sys.session.nextChainId = [])
    (hbuilds : ∀ chain ∈ sys.session.activeChains,
      ∃ trajectory, buildMaterializedTrajectory chain none = .ok trajectory) (hapart : Apart sys)
    (h : OneForEach sys) {a : Action} (hopens : ∀ request encoded chain, a = .request request →
      ¬ Reuses C sys.session request encoded chain) (heffect : Effect C sys a t) :
    OneForEach t := by
  cases heffect with
  | idle _ session next finished hsession _ _ => exact h.keep hsession rfl
  | left _ f error hmem _ => exact h.keep (.refl _) rfl
  | failed _ f error hmem _ => exact h.keep (.refl _) rfl
  | released f error id hmem _ _ =>
    refine h.keep ?_ rfl
    constructor <;> rfl
  | preparedFresh request encoded hactive hprep hselect hchain hrollback hroom =>
    exact ⟨h.unclosed, h.commits, h.order⟩
  | preparedReuse request encoded chain hreuse hroom =>
    exact absurd hreuse (hopens request encoded chain rfl)
  | absorbed f output encoded hmem hstage habsorb => exact h.keep (.refl _) rfl
  | committedNew f output callIds assistantMsg start outcome hcommits hchosen =>
    have hnot : sys.session.nextChainId ∉ sys.session.chainIds :=
      fun hmem => hreg.next_not_mem hco (List.mem_append_left _ hmem)
    refine ⟨h.unclosed, ?_, ?_⟩
    · intro hactive
      simp only [System.finish, GatewaySession.chainIds, List.map_append, List.map_cons,
        List.map_nil, GatewaySession.committedChain, Ledger.commits_commit]
      have hcommits := h.commits hactive
      simp only [GatewaySession.chainIds] at hcommits hnot
      rw [flatMap_surviving_commit hnot, List.flatMap_append, List.flatMap_singleton, hunborn,
        List.append_nil, hcommits]
    · refine h.order.next (List.Sublist.refl _) ?_ rfl
      simp [System.finish, GatewaySession.committedChain]
  | committedReuse f output callIds assistantMsg start outcome before after chain hcommits hchosen
      hsplit =>
    rw [hapart.waits f hcommits.mem] at hchosen
    cases hchosen
  | dropped request encoded chain before after outcome hreuse _ _ _ _ =>
    exact absurd hreuse (hopens request encoded chain rfl)
  | closed request encoded chain before after outcome trajectory hreuse _ _ _ _ =>
    exact absurd hreuse (hopens request encoded chain rfl)
  | closeFailed request encoded chain error hreuse _ _ _ =>
    exact absurd hreuse (hopens request encoded chain rfl)
  | finalized built hactive hbuilt =>
    refine ⟨by simp, by simp, h.order.keep ?_ (Nat.le_refl _)⟩
    simp [orderSeqs_of_built hbuilt]
  | finalizeFailed front back chain error built hactive hsplit hbuilt hbuild =>
    obtain ⟨trajectory, hok⟩ := hbuilds chain (by simp [hsplit])
    rw [hok] at hbuild
    cases hbuild
  | aborted hactive => exact ⟨by simp, by simp, ⟨by simp, by simp⟩⟩

/-! ## The law -/

/-- All that a client keeps whose requests have one length, and with calls that report their
versions. -/
structure AllApart (C : MessageCodec) (m : Nat) (A : Nat → InternalGenerationRequest → Prop)
    (P : Generation → Prop) (sys : System) : Prop where
  coherent : Coherent C sys
  registered : Registered sys
  shape : (shapeRule C).Holds sys
  opened : (openedRule C m A P).Holds sys
  apart : Apart sys
  oneForEach : (∀ g, P g → VersionsReported g) → OneForEach sys

theorem AllApart.exists_build (h : AllApart C m A P sys) (hversions : ∀ g, P g → VersionsReported g)
    {chain : ChainState} (hmem : chain ∈ sys.session.activeChains) :
    ∃ trajectory, buildMaterializedTrajectory chain none = .ok trajectory := by
  have hbuffer := (h.shape.chains chain hmem).buffer
  obtain ⟨_, g, hgens, hone⟩ := h.opened.chains chain hmem
  refine uni_agent.session.exists_build hbuffer.aligned hbuffer.versions ?_ none
  rw [hgens]
  intro g' hg'
  rw [List.mem_singleton.mp hg']
  exact hversions g hone.call

theorem allApart_step (h : AllApart C m A P sys)
    {a : Action} (hlength : ∀ request, a = .request request → request.messages.length = m)
    (hrequests : ∀ entry ∈ sys.entered a, A entry.1 entry.2) (hcalls : ∀ g ∈ sys.returned a, P g)
    (hstep : sys.step C a = some t) : AllApart C m A P t := by
  have heffect := step_effect h.coherent hstep
  have hopens : ∀ request encoded chain, a = .request request →
      ¬ Reuses C sys.session request encoded chain :=
    fun request encoded chain ha => not_reuses h.opened (hlength request ha)
  constructor
  · exact coherent_effect h.coherent heffect
  · exact registered_effect h.coherent h.registered heffect
  · exact h.shape.effect h.coherent shapeRule_kept trivial heffect
  · exact h.opened.effect h.coherent openedRule_kept ⟨hlength, hrequests, hcalls, hopens⟩ heffect
  · exact apart_effect h.apart hopens heffect
  · intro hversions
    exact oneForEach_effect h.registered h.coherent (h.shape.unborn _ (Nat.le_refl _))
      (fun chain hmem => h.exists_build hversions hmem) h.apart (h.oneForEach hversions) hopens
      heffect

theorem allApart_initial {sessionId : String} {promptLength responseLength : Option Int}
    {enable : Bool} {s : GatewaySession}
    (hnew : GatewaySession.create sessionId promptLength responseLength enable = .ok s) :
    AllApart C m A P (System.initial s) := by
  have hone := oneForEach_initial hnew
  obtain ⟨capacity, rfl⟩ := create_eq_ok hnew
  exact ⟨coherent_initial hnew, registered_initial hnew, .initial hnew, .initial hnew,
    apart_initial _ rfl, fun _ => hone⟩

theorem allApart_run {sessionId : String}
    {promptLength responseLength : Option Int} {enable : Bool} {s : GatewaySession}
    {actions : List Action}
    (hnew : GatewaySession.create sessionId promptLength responseLength enable = .ok s)
    (hrun : runFrom C s actions = some sys)
    (hmeets : runs.Meets (System.step C) (fun u a =>
      (∀ request, a = .request request → request.messages.length = m) ∧
        (∀ entry ∈ u.entered a, A entry.1 entry.2) ∧ ∀ g ∈ u.returned a, P g)
      (System.initial s) actions) : AllApart C m A P sys := by
  refine runs.run_invariant (AllApart C m A P) ?_ hrun hmeets (allApart_initial hnew)
  rintro u a v hu ⟨hlength, hrequests, hcalls⟩ hstep
  exact allApart_step hu hlength hrequests hcalls hstep

theorem forall₂_flatMap {α β : Type} {f : α → List β} {Q : α → β → Prop} {xs : List α}
    (h : ∀ x ∈ xs, ∃ y, f x = [y] ∧ Q x y) : List.Forall₂ Q xs (xs.flatMap f) := by
  induction xs with
  | nil => exact .nil
  | cons x rest ih =>
    obtain ⟨y, hy, hq⟩ := h x (by simp)
    rw [List.flatMap_cons, hy]
    exact .cons hq (ih (fun x' hx' => h x' (by simp [hx'])))

theorem forall₂_comp {α β γ : Type} {R : α → β → Prop} {S : β → γ → Prop} {xs : List α}
    {ys : List β} {zs : List γ} (h : List.Forall₂ R xs ys) (h' : List.Forall₂ S ys zs) :
    List.Forall₂ (fun x z => ∃ y, R x y ∧ S y z) xs zs := by
  induction h generalizing zs with
  | nil =>
    cases h'
    exact .nil
  | cons hxy _ ih =>
    cases h' with
    | cons hyz hrest => exact .cons ⟨_, hxy, hyz⟩ (ih hrest)

/-- The trajectories are the commits, one for each, in order. -/
theorem AllApart.finalized (h : AllApart C m A P sys)
    (hversions : ∀ g, P g → VersionsReported g) {trajectories : List Trajectory}
    {s' : GatewaySession} (hfinalize : sys.session.finalize = (.ok trajectories, s')) :
    List.Forall₂ (fun trajectory g => OnlyCall C A P trajectory.promptIds trajectory.responseIds
      trajectory.responseMask g) trajectories sys.ledger.commits := by
  have hactive := (GatewaySession.finalize_eq_ok hfinalize).1
  have hone := h.oneForEach hversions
  obtain ⟨built, hbuilt, rfl⟩ := hone.order.finalized hfinalize
  rw [hone.unclosed hactive, List.nil_append, hone.commits hactive]
  unfold GatewaySession.chainIds
  rw [List.forall₂_map_left_iff, List.flatMap_map]
  have hchains : List.Forall₂ (fun (chain : ChainState) g =>
      OnlyCall C A P chain.buffer.promptIds chain.buffer.responseIds chain.buffer.responseMask g)
      sys.session.activeChains (sys.session.activeChains.flatMap
        (fun chain => sys.ledger.surviving chain.chainId)) := by
    apply forall₂_flatMap
    intro chain hmem
    exact (h.opened.chains chain hmem).2
  refine (forall₂_comp hbuilt.flip hchains).imp ?_
  rintro mc g ⟨chain, ⟨hbuild, _⟩, hone⟩
  obtain ⟨_, span, _, heq⟩ := build_eq_ok hbuild
  rw [heq]
  exact hone

/-- When all requests have as many messages, no request ever goes on with a chain or rewrites it:
not the ones in flight, and not the next one. Where the calls report their versions, `finalize`
returns one trajectory for each committed generation, in the order of the commits: the messages of
the request as its prompt, and the output as its response, all of it trainable. -/
theorem requests_of_one_length_open_chains {sessionId : String}
    {promptLength responseLength : Option Int} {enable : Bool} {s : GatewaySession}
    {actions : List Action}
    (hnew : GatewaySession.create sessionId promptLength responseLength enable = .ok s)
    (hrun : runFrom C s actions = some sys)
    (hlength : ∀ request, .request request ∈ actions → request.messages.length = m) :
    (∀ f ∈ sys.inFlight, f.preparedChain = none) ∧
    (∀ request encoded chain, request.messages.length = m →
      ¬ Reuses C sys.session request encoded chain) ∧
    sys.session.rollbackCount = 0 ∧ sys.ledger.dropped = [] ∧
    ((∀ g ∈ callsOf C s actions, VersionsReported g) → sys.session.phase = .active →
      ∃ trajectories s', sys.session.finalize = (.ok trajectories, s') ∧
        List.Forall₂ (fun trajectory g => OnlyCall C (fun id request =>
            (id, request) ∈ requestsOf C s actions) (· ∈ callsOf C s actions)
          trajectory.promptIds trajectory.responseIds trajectory.responseMask g)
          trajectories sys.ledger.commits) := by
  have hlengths : runs.Meets (System.step C) (fun _ a =>
      ∀ request, a = .request request → request.messages.length = m) (System.initial s) actions :=
    runs.meets_of_forall (fun a ha request heq => hlength request (heq ▸ ha))
  have h : AllApart C m (fun id request => (id, request) ∈ requestsOf C s actions)
      (· ∈ callsOf C s actions) sys := by
    apply allApart_run hnew hrun
    refine ((hlengths.and (runs.meets_collect System.entered _ _)).and
      (runs.meets_collect System.returned _ _)).imp ?_
    rintro u a ⟨⟨hone, hrequests⟩, hcalls⟩
    exact ⟨hone, hrequests, hcalls⟩
  refine ⟨h.apart.waits, fun request encoded chain => not_reuses h.opened, h.apart.uncounted,
    h.apart.undropped, ?_⟩
  intro hversions hactive
  obtain ⟨trajectories, s', hfinalize⟩ := exists_finalize hactive
    (fun chain hmem => h.exists_build hversions hmem)
  exact ⟨trajectories, s', hfinalize, h.finalized hversions hfinalize⟩

/-- Two prompts at a time, the second of them answered first, and the first prompt once more. -/
def overlappingPrompts : List Action :=
  [.request { messages := [say "user" "q"] }, .request { messages := [say "user" "p"] },
    .backendReturns 1 { tokenIds := tokensOf "b" }, .commit 1 (fun _ => ""),
    .backendReturns 0 { tokenIds := tokensOf "a" }, .commit 0 (fun _ => ""),
    .request { messages := [say "user" "q"] },
    .backendReturns 2 { tokenIds := tokensOf "c" }, .commit 2 (fun _ => "")]

theorem requests_of_one_length_open_chains_overlappingPrompts : ∃ sys trajectories s',
    runFrom lineCodec (openSession none) overlappingPrompts = some sys ∧
      sys.session.finalize = (.ok trajectories, s') ∧ sys.ledger.commits.length = 3 ∧
      List.Forall₂ (fun trajectory g => OnlyCall lineCodec (fun id request =>
          (id, request) ∈ requestsOf lineCodec (openSession none) overlappingPrompts)
        (· ∈ callsOf lineCodec (openSession none) overlappingPrompts)
        trajectory.promptIds trajectory.responseIds trajectory.responseMask g)
        trajectories sys.ledger.commits := by
  have hfacts : (runFrom lineCodec (openSession none) overlappingPrompts).any (fun sys =>
      sys.session.phase == .active && sys.ledger.commits.length == 3) = true := by decide +kernel
  have hversions : (callsOf lineCodec (openSession none) overlappingPrompts).all (fun g =>
      g.output.minGlobalSteps.isNone || g.output.maxGlobalSteps.isSome) = true := by
    decide +kernel
  obtain ⟨sys, hrun, hfacts⟩ := (Option.any_eq_true _ _).mp hfacts
  simp only [Bool.and_eq_true, beq_iff_eq] at hfacts
  have hlength : ∀ request, .request request ∈ overlappingPrompts →
      request.messages.length = 1 := by
    simp [overlappingPrompts]
  obtain ⟨_, _, _, _, hlaw⟩ := requests_of_one_length_open_chains openSession_eq hrun hlength
  obtain ⟨trajectories, s', hfinalize, hforall⟩ :=
    hlaw (versionsReported_of_test hversions) hfacts.1
  exact ⟨sys, trajectories, s', hrun, hfinalize, hfacts.2, hforall⟩

end uni_agent.session
