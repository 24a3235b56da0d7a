-- Where the generated tokens go. Every committed generation is held by one chain or was dropped
-- by one recorded rollback, and `finalize` returns each chain once, in the order in which the
-- chains were last committed to or closed.
import UniAgent.SessionBooks

namespace uni_agent.session

variable {C : MessageCodec} {s : GatewaySession} {sys : System} {P Q : Generation → Prop}
  {mode : Option Bool} {gens : List Generation}

/-! ## The tokens of a session -/

theorem Grounded.imp {promptIds : List Token} {l : ResponseLayout} (himp : ∀ g, P g → Q g)
    (h : Grounded P mode promptIds gens l) : Grounded Q mode promptIds gens l :=
  ⟨h.generations, fun g hg => himp g (h.calls g hg), h.recorded, h.anchored⟩

theorem Told.imp {t : Trajectory} {l : ResponseLayout} (himp : ∀ g, P g → Q g)
    (h : Told P mode t gens l) : Told Q mode t gens l :=
  ⟨h.grounded.imp himp, h.responseIds, h.responseMask, h.responseLogprobs⟩

/-- What is conserved, in every state of a session. -/
structure Conserved (calls : List Generation) (sys : System) : Prop where
  tokens : generatedTokens sys.ledger.commits =
    (sys.session.activeChains.map (fun chain => chain.buffer.responseMask.count 1)).sum +
    (sys.session.materializedChains.map (fun m => m.trajectory.responseMask.count 1)).sum +
    sys.session.rollbackDroppedTrainableTokensTotal
  /-- Each commit is that of another request, and it stands on one side only. -/
  committedOnce : (sys.ledger.commits.map Generation.requestId).Nodup
  heldOrDropped : sys.ledger.commits.Perm
    ((sys.session.chainIds ++ sys.ledger.closed).flatMap sys.ledger.surviving ++
      sys.ledger.dropped.flatten)
  chainsOnce : (sys.session.chainIds ++ sys.ledger.closed).Nodup
  rollbacks : sys.ledger.dropped.length = sys.session.rollbackCount
  /-- A chain holds its generations: its response is made of their outputs. -/
  active : ∀ chain ∈ sys.session.activeChains, ∃ l,
    Grounded (· ∈ calls) none chain.buffer.promptIds (sys.ledger.surviving chain.chainId) l ∧
      Written none chain.buffer l
  materialized : List.Forall₂
    (fun m id => ∃ l, Told (· ∈ calls) none m.trajectory (sys.ledger.surviving id) l)
    sys.session.materializedChains sys.ledger.closed
  orderSeqs : (sys.session.activeChains.map ChainState.updatedSeq ++
    sys.session.materializedChains.map MaterializedChain.orderSeq).Nodup

theorem sum_active (hbooks : Bookkeeping C P sys) :
    (sys.session.activeChains.map (fun chain => chain.buffer.responseMask.count 1)).sum =
      (sys.session.chainIds.map (fun id => generatedTokens (sys.ledger.surviving id))).sum := by
  unfold GatewaySession.chainIds
  rw [List.map_map]
  apply congrArg List.sum
  apply List.map_congr_left
  intro chain hmem
  exact (hbooks.truth.chains chain hmem).count_mask

theorem sum_materialized {l : Ledger} {ms : List MaterializedChain} {ids : List Nat}
    (h : List.Forall₂ (Materialized P l) ms ids) :
    (ms.map (fun m => m.trajectory.responseMask.count 1)).sum =
      (ids.map (fun id => generatedTokens (l.surviving id))).sum := by
  induction h with
  | nil => rfl
  | cons hm _ ih =>
    obtain ⟨layout, htold⟩ := hm.told
    rw [List.map_cons, List.map_cons, List.sum_cons, List.sum_cons, ih, htold.responseMask,
      htold.grounded.count_mask]

theorem Balanced.tokens (h : Balanced P sys) (hbooks : Bookkeeping C P sys) :
    generatedTokens sys.ledger.commits =
      (sys.session.activeChains.map (fun chain => chain.buffer.responseMask.count 1)).sum +
      (sys.session.materializedChains.map (fun m => m.trajectory.responseMask.count 1)).sum +
      sys.session.rollbackDroppedTrainableTokensTotal := by
  have haccounts := generatedTokens_perm h.accounts
  rw [generatedTokens_append, generatedTokens_flatMap, List.map_append, List.sum_append,
    ← sum_active hbooks, ← sum_materialized h.materialized, ← h.booked.tokens] at haccounts
  exact haccounts

/-! ## The order of the chains -/

/-- The order number of a materialized chain is the time at which it was last touched. -/
theorem orderSeqs_materialized {l : Ledger} {ms : List MaterializedChain} {ids : List Nat}
    (h : List.Forall₂ (Materialized P l) ms ids) :
    ms.map MaterializedChain.orderSeq = ids.map l.lastTouch ∧ ∀ id ∈ ids, id ∈ l.touched := by
  induction h with
  | nil => simp
  | cons hm _ ih =>
    obtain ⟨htouched, hseq⟩ := hm.timed
    rw [List.map_cons, List.map_cons, hseq, ih.1]
    refine ⟨rfl, ?_⟩
    intro id hid
    rcases List.mem_cons.mp hid with rfl | hid
    · exact htouched
    · exact ih.2 id hid

theorem Balanced.touched (h : Balanced P sys) :
    ∀ id ∈ sys.session.chainIds ++ sys.ledger.closed, id ∈ sys.ledger.touched := by
  intro id hid
  rcases List.mem_append.mp hid with hid | hid
  · obtain ⟨chain, hmem, rfl⟩ := List.mem_map.mp hid
    exact (h.active chain hmem).1
  · exact (orderSeqs_materialized h.materialized).2 id hid

theorem Balanced.orderSeqs (h : Balanced P sys) :
    (sys.session.activeChains.map ChainState.updatedSeq ++
      sys.session.materializedChains.map MaterializedChain.orderSeq).Nodup := by
  have hactive : sys.session.activeChains.map ChainState.updatedSeq =
      sys.session.chainIds.map sys.ledger.lastTouch := by
    unfold GatewaySession.chainIds
    rw [List.map_map]
    apply List.map_congr_left
    intro chain hmem
    exact (h.active chain hmem).2
  rw [hactive, (orderSeqs_materialized h.materialized).1, ← List.map_append]
  apply List.Nodup.map_on ?_ h.once
  intro id hid id' hid' heq
  exact Ledger.lastTouch_injective (h.touched id hid) (h.touched id' hid') heq

theorem Balanced.conserved {calls : List Generation} (h : Balanced P sys)
    (hbooks : Bookkeeping C P sys) (honce : CommittedOnce sys) (himp : ∀ g, P g → g ∈ calls) :
    Conserved calls sys := by
  constructor
  · exact h.tokens hbooks
  · exact honce.nodup
  · exact h.accounts
  · exact h.once
  · exact h.booked.rollbacks
  · intro chain hmem
    obtain ⟨l, hgrounded, hwritten⟩ := (hbooks.truth.chains chain hmem).grounded
    exact ⟨l, hgrounded.imp himp, hwritten⟩
  · apply h.materialized.imp
    rintro m id ⟨⟨l, htold⟩, _⟩
    exact ⟨l, htold.imp himp⟩
  · exact h.orderSeqs

/-! ## What finalize returns -/

section SameKeys

variable {α β : Type} {R : α → β → Prop} {p : α → Nat} {q : β → Nat}

theorem forall₂_orderedInsert (hkey : ∀ x y, R x y → p x = q y) {a : α} {b : β} (hab : R a b)
    {xs : List α} {ys : List β} (h : List.Forall₂ R xs ys) :
    List.Forall₂ R (xs.orderedInsert (fun x x' => p x ≤ p x') a)
      (ys.orderedInsert (fun y y' => q y ≤ q y') b) := by
  induction h with
  | nil => exact .cons hab .nil
  | cons hxy htail ih =>
    rename_i x y xs ys
    rw [List.orderedInsert, List.orderedInsert, hkey a b hab, hkey x y hxy]
    by_cases hle : q b ≤ q y
    · rw [if_pos hle, if_pos hle]
      exact .cons hab (.cons hxy htail)
    · rw [if_neg hle, if_neg hle]
      exact .cons hxy ih

/-- Two lists with the same keys are sorted in the same way. -/
theorem forall₂_insertionSort (hkey : ∀ x y, R x y → p x = q y) {xs : List α} {ys : List β}
    (h : List.Forall₂ R xs ys) :
    List.Forall₂ R (xs.insertionSort (fun x x' => p x ≤ p x'))
      (ys.insertionSort (fun y y' => q y ≤ q y')) := by
  induction h with
  | nil => exact .nil
  | cons hxy _ ih => exact forall₂_orderedInsert hkey hxy ih

end SameKeys

/-- Chains whose calls report their versions can all be materialized. -/
theorem exists_finalize (hactive : s.phase = .active)
    (hbuild : ∀ chain ∈ s.activeChains, ∃ t, buildMaterializedTrajectory chain none = .ok t) :
    ∃ trajectories s', s.finalize = (.ok trajectories, s') := by
  obtain ⟨front, built, hmat, _, hend⟩ :=
    GatewaySession.materializeEach_spec s.activeChains s.materializedChains
  unfold GatewaySession.finalize GatewaySession.materializeActiveChains
  rcases hres : GatewaySession.materializeEach s.activeChains s.materializedChains with
    ⟨result, materialized⟩
  rw [hres] at hend
  simp only [hactive, reduceCtorEq, if_false]
  rcases hend with ⟨hok, _⟩ | ⟨e, chain, back, _, hsplit, herror⟩
  · simp only at hok
    subst hok
    exact ⟨_, _, rfl⟩
  · obtain ⟨t, ht⟩ := hbuild chain (by simp [hsplit])
    rw [ht] at herror
    cases herror

/-- The trajectories are those of the active and the closed chains, each once, in the order of
their last commits and closures. -/
structure ReturnsChains (sys : System) (trajectories : List Trajectory) (ids : List Nat) :
    Prop where
  chains : ids.Perm (sys.session.chainIds ++ sys.ledger.closed)
  nodup : ids.Nodup
  returned : List.Forall₂ (Returned sys) trajectories ids
  ordered : ids.Pairwise (fun id id' => sys.ledger.lastTouch id < sys.ledger.lastTouch id')
  latest : ∀ id ∈ ids.getLast?, ∀ id' ∈ sys.session.chainIds ++ sys.ledger.closed,
    sys.ledger.lastTouch id' ≤ sys.ledger.lastTouch id

/-- A chain to return, and its place in the order. -/
def Placed (sys : System) (m : MaterializedChain) (id : Nat) : Prop :=
  Returned sys { m.trajectory with rewardInfo := sys.session.rewardInfo } id ∧
    m.orderSeq = sys.ledger.lastTouch id

theorem Balanced.placed_closed (h : Balanced P sys) :
    List.Forall₂ (Placed sys) sys.session.materializedChains sys.ledger.closed := by
  have hlen := h.materialized.length_eq
  rw [List.forall₂_iff_zip]
  refine ⟨hlen, ?_⟩
  intro m id hmem
  exact ⟨.closed m id hmem, ((List.forall₂_iff_zip.mp h.materialized).2 hmem).timed.2⟩

theorem Balanced.placed_active (h : Balanced P sys) {built : List MaterializedChain}
    (hbuilt : List.Forall₂ (fun chain m =>
      buildMaterializedTrajectory chain none = .ok m.trajectory ∧
        m.orderSeq = chain.updatedSeq) sys.session.activeChains built) :
    List.Forall₂ (Placed sys) built sys.session.chainIds := by
  unfold GatewaySession.chainIds
  rw [List.forall₂_map_right_iff]
  apply forall₂_imp_of_mem hbuilt.flip
  rintro m chain hmem ⟨hbuild, hseq⟩
  exact ⟨.active chain m.trajectory hmem hbuild, hseq.trans (h.active chain hmem).2⟩

theorem Balanced.returnsChains (h : Balanced P sys) {trajectories : List Trajectory}
    {s' : GatewaySession} (hfinalize : sys.session.finalize = (.ok trajectories, s')) :
    ∃ ids, ReturnsChains sys trajectories ids := by
  obtain ⟨_, built, hbuilt, rfl⟩ := GatewaySession.finalize_eq_ok hfinalize
  have hplaced : List.Forall₂ (Placed sys) (sys.session.materializedChains ++ built)
      (sys.ledger.closed ++ sys.session.chainIds) :=
    List.rel_append h.placed_closed (h.placed_active hbuilt)
  set sorted := (sys.ledger.closed ++ sys.session.chainIds).insertionSort
    (fun id id' => sys.ledger.lastTouch id ≤ sys.ledger.lastTouch id') with hids
  have hchains : sorted.Perm (sys.session.chainIds ++ sys.ledger.closed) :=
    (List.perm_insertionSort _ _).trans List.perm_append_comm
  have hnodup : sorted.Nodup := hchains.nodup_iff.mpr h.once
  have hsorted : sorted.Pairwise
      (fun id id' => sys.ledger.lastTouch id ≤ sys.ledger.lastTouch id') := by
    rw [hids]
    exact List.pairwise_insertionSort _ _
  have hordered : sorted.Pairwise
      (fun id id' => sys.ledger.lastTouch id < sys.ledger.lastTouch id') := by
    apply (hsorted.and hnodup).imp_of_mem
    rintro id id' hid hid' ⟨hle, hne⟩
    apply lt_of_le_of_ne hle
    intro heq
    exact hne (Ledger.lastTouch_injective (h.touched id (hchains.mem_iff.mp hid))
      (h.touched id' (hchains.mem_iff.mp hid')) heq)
  refine ⟨sorted, hchains, hnodup, ?_, hordered, ?_⟩
  · rw [List.forall₂_map_left_iff]
    apply (forall₂_insertionSort (fun m id hm => hm.2) hplaced).imp
    exact fun m id hm => hm.1
  · intro id hid id' hid'
    obtain ⟨before, hbefore⟩ := List.getLast?_eq_some_iff.mp hid
    have hmem := hchains.mem_iff.mpr hid'
    rw [hbefore] at hmem hsorted
    rcases List.mem_append.mp hmem with hmem | hmem
    · exact (List.pairwise_append.mp hsorted).2.2 id' hmem id (by simp)
    · cases List.mem_singleton.mp hmem
      exact Nat.le_refl _

/-! ## The law -/

theorem balanced_of_calls {sessionId : String} {promptLength responseLength : Option Int}
    {enable : Bool} {actions : List Action} (hne : C.assistantPrefix ≠ [])
    (hlong : LongIncrements C)
    (hnew : GatewaySession.create sessionId promptLength responseLength enable = .ok s)
    (hrun : runFrom C s actions = some sys)
    (houtputs : ∀ g ∈ callsOf C s actions, EndsNoOutput C g)
    (hversions : ∀ g ∈ callsOf C s actions, VersionsReported g) :
    Bookkeeping C (Bookable C (callsOf C s actions)) sys ∧
      (sys.session.phase ≠ .aborted → Balanced (Bookable C (callsOf C s actions)) sys) := by
  have hmeets : runs.Meets (System.step C) (TruthStep (Bookable C (callsOf C s actions)) none)
      (System.initial s) actions := by
    apply (runs.meets_collect System.returned _ _).imp
    intro u a hcalls
    refine ⟨by simp, ?_⟩
    intro g hg
    have hcall := hcalls g hg
    exact ⟨hcall, houtputs g hcall, hversions g hcall⟩
  exact balanced_run (fun g hg => hg.versions) hne hlong (fun g hg => hg.ends) hnew hrun hmeets

/-- Over a codec that encodes new messages to no fewer tokens than the assistant prefix has, and
with calls that report their versions, no generated token is lost or counted twice. -/
theorem trainable_tokens_are_conserved {sessionId : String}
    {promptLength responseLength : Option Int} {enable : Bool} {actions : List Action}
    (hne : C.assistantPrefix ≠ []) (hlong : LongIncrements C)
    (hnew : GatewaySession.create sessionId promptLength responseLength enable = .ok s)
    (hrun : runFrom C s actions = some sys)
    (houtputs : ∀ g ∈ callsOf C s actions, EndsNoOutput C g)
    (hversions : ∀ g ∈ callsOf C s actions, VersionsReported g)
    (hphase : sys.session.phase ≠ .aborted) :
    Conserved (callsOf C s actions) sys ∧
    (sys.session.phase = .active → ∃ trajectories s' ids,
      sys.session.finalize = (.ok trajectories, s') ∧ ReturnsChains sys trajectories ids) := by
  obtain ⟨hbooks, hbalanced⟩ := balanced_of_calls hne hlong hnew hrun houtputs hversions
  have hbalanced := hbalanced hphase
  refine ⟨hbalanced.conserved hbooks (committedOnce_run hnew hrun) (fun g hg => hg.call), ?_⟩
  intro hactive
  obtain ⟨trajectories, s', hfinalize⟩ := exists_finalize hactive
    (fun chain hmem => hbooks.exists_build (fun g hg => hg.versions) hmem none)
  obtain ⟨ids, hids⟩ := hbalanced.returnsChains hfinalize
  exact ⟨trajectories, s', ids, hfinalize, hids⟩

theorem versionsReported_of_test {calls : List Generation}
    (h : calls.all (fun g => g.output.minGlobalSteps.isNone || g.output.maxGlobalSteps.isSome) =
      true) : ∀ g ∈ calls, VersionsReported g := by
  intro g hg hmin
  have := List.all_eq_true.mp h g hg
  simpa [Option.isNone_iff_eq_none, Option.isSome_iff_ne_none.mp hmin] using this

theorem trainable_tokens_are_conserved_continuedAndRewritten :
    ∃ sys, runFrom lineCodec (openSession none) continuedAndRewritten = some sys ∧
      generatedTokens sys.ledger.commits = 3 ∧
      sys.session.rollbackDroppedTrainableTokensTotal = 1 ∧
      Conserved (callsOf lineCodec (openSession none) continuedAndRewritten) sys ∧
      ∃ trajectories s' ids, sys.session.finalize = (.ok trajectories, s') ∧
        ReturnsChains sys trajectories ids := by
  have hfacts : (runFrom lineCodec (openSession none) continuedAndRewritten).any (fun sys =>
      sys.session.phase == .active && generatedTokens sys.ledger.commits == 3 &&
        sys.session.rollbackDroppedTrainableTokensTotal == 1) = true := by decide +kernel
  have houtputs : (callsOf lineCodec (openSession none) continuedAndRewritten).all (fun g =>
      g.out.getLast? != lineCodec.assistantPrefix.getLast?) = true := by decide +kernel
  have hversions : (callsOf lineCodec (openSession none) continuedAndRewritten).all (fun g =>
      g.output.minGlobalSteps.isNone || g.output.maxGlobalSteps.isSome) = true := by
    decide +kernel
  obtain ⟨sys, hrun, hfacts⟩ := (Option.any_eq_true _ _).mp hfacts
  simp only [Bool.and_eq_true, beq_iff_eq] at hfacts
  obtain ⟨⟨hactive, hcommits⟩, hdropped⟩ := hfacts
  have hlaw := trainable_tokens_are_conserved (by decide +kernel) longIncrements_lineCodec
    openSession_eq hrun (endsNoOutput_of_test houtputs) (versionsReported_of_test hversions)
    (by simp [hactive])
  exact ⟨sys, hrun, hcommits, hdropped, hlaw.1, hlaw.2 hactive⟩

/-! ## Tokens that are lost, and tokens that are counted twice -/

/-- Two chains, the second of which has two calls that report no last step, and `finalize`. -/
def materializedHalfway : List Action :=
  [.request { messages := [say "user" "q"] }, .backendReturns 0 { tokenIds := tokensOf "a" },
    .commit 0 (fun _ => ""),
    .request { messages := [say "user" "p"] },
    .backendReturns 1 { tokenIds := tokensOf "b", minGlobalSteps := some 1 },
    .commit 1 (fun _ => ""),
    .request { messages := [say "user" "p", say "assistant" "b", say "user" "r"] },
    .backendReturns 2 { tokenIds := tokensOf "c", minGlobalSteps := some 1 },
    .commit 2 (fun _ => ""),
    .finalize]

theorem Conserved.count {calls : List Generation} (h : Conserved calls sys) :
    (generatedTokens sys.ledger.commits ==
      (sys.session.activeChains.map (fun chain => chain.buffer.responseMask.count 1)).sum +
      (sys.session.materializedChains.map (fun m => m.trajectory.responseMask.count 1)).sum +
      sys.session.rollbackDroppedTrainableTokensTotal) = true :=
  beq_iff_eq.mpr h.tokens

/-- A rollback that takes the end of an output for a separator loses a token, and a chain that
cannot be materialized leaves the chains before it both active and materialized. -/
theorem tokens_are_lost_or_counted_twice :
    (mergedCodec.create = .ok mergedCodec ∧ mergedCodec.assistantPrefix ≠ [] ∧
      (∀ g ∈ callsOf mergedCodec (openSession none) mergedSeparator,
        EndsNoOutput mergedCodec g) ∧
      ∃ sys, runFrom mergedCodec (openSession none) mergedSeparator = some sys ∧
        sys.session.phase = .active ∧
        ¬ Conserved (callsOf mergedCodec (openSession none) mergedSeparator) sys) ∧
    (lineCodec.create = .ok lineCodec ∧ lineCodec.assistantPrefix ≠ [] ∧
      (∀ g ∈ callsOf lineCodec (openSession none) materializedHalfway,
        EndsNoOutput lineCodec g) ∧
      ∃ sys, runFrom lineCodec (openSession none) materializedHalfway = some sys ∧
        sys.session.phase = .active ∧
        ¬ Conserved (callsOf lineCodec (openSession none) materializedHalfway) sys) := by
  have houtputs : (callsOf mergedCodec (openSession none) mergedSeparator).all (fun g =>
      g.out.getLast? != mergedCodec.assistantPrefix.getLast?) = true := by decide +kernel
  have houtputs' : (callsOf lineCodec (openSession none) materializedHalfway).all (fun g =>
      g.out.getLast? != lineCodec.assistantPrefix.getLast?) = true := by decide +kernel
  have hlost : (runFrom mergedCodec (openSession none) mergedSeparator).any (fun sys =>
      sys.session.phase == .active && !(generatedTokens sys.ledger.commits ==
        (sys.session.activeChains.map (fun chain => chain.buffer.responseMask.count 1)).sum +
        (sys.session.materializedChains.map (fun m => m.trajectory.responseMask.count 1)).sum +
        sys.session.rollbackDroppedTrainableTokensTotal)) = true := by decide +kernel
  have htwice : (runFrom lineCodec (openSession none) materializedHalfway).any (fun sys =>
      sys.session.phase == .active && !(generatedTokens sys.ledger.commits ==
        (sys.session.activeChains.map (fun chain => chain.buffer.responseMask.count 1)).sum +
        (sys.session.materializedChains.map (fun m => m.trajectory.responseMask.count 1)).sum +
        sys.session.rollbackDroppedTrainableTokensTotal)) = true := by decide +kernel
  obtain ⟨sys, hrun, hlost⟩ := (Option.any_eq_true _ _).mp hlost
  obtain ⟨sys', hrun', htwice⟩ := (Option.any_eq_true _ _).mp htwice
  simp only [Bool.and_eq_true, beq_iff_eq] at hlost htwice
  refine ⟨⟨create_mergedCodec, by decide +kernel, endsNoOutput_of_test houtputs, sys, hrun,
      hlost.1, ?_⟩,
    create_lineCodec, by decide +kernel, endsNoOutput_of_test houtputs', sys', hrun', htwice.1, ?_⟩
  · intro h
    simp [h.count] at hlost
  · intro h
    simp [h.count] at htwice

end uni_agent.session
