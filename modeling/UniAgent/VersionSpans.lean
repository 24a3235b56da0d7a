-- The weight versions of a trajectory. A chain has one mark for each generation that it holds,
-- and a trajectory spans the versions of the generations that its chain held, whatever was
-- rolled back or failed.
import Mathlib.Algebra.Order.BigOperators.Group.List
import Mathlib.Algebra.Order.Group.Nat
import Mathlib.Order.Bounds.Basic
import UniAgent.Conservation

namespace uni_agent.session

variable {C : MessageCodec} {s : GatewaySession} {sys : System} {P : Generation → Prop}
  {gens : List Generation}

/-! ## The span of a list of marks -/

theorem minOf_isLeast (first : Int) (rest : List Int) :
    IsLeast {v | v ∈ first :: rest} (minOf first rest) := by
  unfold minOf
  induction rest generalizing first with
  | nil => simp
  | cons x rest ih =>
    obtain ⟨hmem, hlower⟩ := ih (min first x)
    have hstart : rest.foldl min (min first x) ≤ min first x := hlower (by simp)
    simp only [List.foldl_cons]
    refine ⟨?_, ?_⟩
    · rcases List.mem_cons.mp hmem with heq | hmem
      · rw [Set.mem_ofPred_eq, heq]
        rcases min_choice first x with hmin | hmin
        · simp [hmin]
        · simp [hmin]
      · simp [hmem]
    · intro v hv
      rcases List.mem_cons.mp hv with rfl | hv
      · exact hstart.trans (min_le_left _ _)
      · rcases List.mem_cons.mp hv with rfl | hv
        · exact hstart.trans (min_le_right _ _)
        · exact hlower (by simp [hv])

theorem maxOf_isGreatest (first : Int) (rest : List Int) :
    ∃ high, maxOf (some first) (rest.map some) = .ok (some high) ∧
      IsGreatest {v | v ∈ first :: rest} high := by
  induction rest generalizing first with
  | nil => exact ⟨first, rfl, by simp⟩
  | cons x rest ih =>
    obtain ⟨high, hfold, hmem, hupper⟩ := ih (max first x)
    have hstart : max first x ≤ high := hupper (by simp)
    refine ⟨high, hfold, ?_, ?_⟩
    · rcases List.mem_cons.mp hmem with heq | hmem
      · rw [Set.mem_ofPred_eq, heq]
        rcases max_choice first x with hmax | hmax
        · simp [hmax]
        · simp [hmax]
      · simp [hmem]
    · intro v hv
      rcases List.mem_cons.mp hv with rfl | hv
      · exact (le_max_left _ _).trans hstart
      · rcases List.mem_cons.mp hv with rfl | hv
        · exact (le_max_right _ _).trans hstart
        · exact hupper (by simp [hv])

/-- A call reports the first and the last step of its weights, or neither. -/
def ReportsBoth (g : Generation) : Prop :=
  g.output.minGlobalSteps.isSome ↔ g.output.maxGlobalSteps.isSome

/-- The trajectory spans the versions of the generations, and has no span when none of them
reported a version. -/
structure SpansVersions (t : Trajectory) (gens : List Generation) : Prop where
  absent : t.extraFields.versionSpan = none ↔ ∀ g ∈ gens, g.output.minGlobalSteps = none
  spans : ∀ low high, t.extraFields.versionSpan = some (low, high) →
    IsLeast {v | ∃ g ∈ gens, g.output.minGlobalSteps = some v} low ∧
      ∃ v, high = some v ∧ IsGreatest {v | ∃ g ∈ gens, g.output.maxGlobalSteps = some v} v

/-- The steps that the generations reported. -/
def reportedSteps (gens : List Generation) : List (Int × Int) :=
  gens.filterMap (fun g => g.output.minGlobalSteps.bind (fun low =>
    g.output.maxGlobalSteps.map (fun high => (low, high))))

theorem reportedSteps_marks (hboth : ∀ g ∈ gens, ReportsBoth g) :
    (gens.map Generation.mark).filterMap (fun mark => mark.1.map (fun low => (low, mark.2))) =
      (reportedSteps gens).map (fun steps => (steps.1, some steps.2)) := by
  induction gens with
  | nil => rfl
  | cons g rest ih =>
    have hrest := ih (fun g' hg' => hboth g' (by simp [hg']))
    have hg := hboth g (by simp)
    unfold ReportsBoth at hg
    unfold reportedSteps at hrest ⊢
    cases hmin : g.output.minGlobalSteps with
    | none => simpa [Generation.mark, hmin] using hrest
    | some low =>
      obtain ⟨high, hmax⟩ := Option.isSome_iff_exists.mp (hg.mp (by simp [hmin]))
      simpa [Generation.mark, hmin, hmax] using hrest

theorem mem_reportedSteps {low high : Int} :
    (low, high) ∈ reportedSteps gens ↔
      ∃ g ∈ gens, g.output.minGlobalSteps = some low ∧ g.output.maxGlobalSteps = some high := by
  simp [reportedSteps, List.mem_filterMap, Option.bind_eq_some_iff]

theorem exists_first_step (hboth : ∀ g ∈ gens, ReportsBoth g) {v : Int} :
    (∃ g ∈ gens, g.output.minGlobalSteps = some v) ↔
      v ∈ (reportedSteps gens).map Prod.fst := by
  rw [List.mem_map]
  refine ⟨?_, ?_⟩
  · rintro ⟨g, hg, hmin⟩
    obtain ⟨high, hmax⟩ := Option.isSome_iff_exists.mp ((hboth g hg).mp (by simp [hmin]))
    exact ⟨(v, high), mem_reportedSteps.mpr ⟨g, hg, hmin, hmax⟩, rfl⟩
  · rintro ⟨⟨low, high⟩, hmem, rfl⟩
    obtain ⟨g, hg, hmin, _⟩ := mem_reportedSteps.mp hmem
    exact ⟨g, hg, hmin⟩

theorem exists_last_step (hboth : ∀ g ∈ gens, ReportsBoth g) {v : Int} :
    (∃ g ∈ gens, g.output.maxGlobalSteps = some v) ↔
      v ∈ (reportedSteps gens).map Prod.snd := by
  rw [List.mem_map]
  refine ⟨?_, ?_⟩
  · rintro ⟨g, hg, hmax⟩
    obtain ⟨low, hmin⟩ := Option.isSome_iff_exists.mp ((hboth g hg).mpr (by simp [hmax]))
    exact ⟨(low, v), mem_reportedSteps.mpr ⟨g, hg, hmin, hmax⟩, rfl⟩
  · rintro ⟨⟨low, high⟩, hmem, rfl⟩
    obtain ⟨g, hg, _, hmax⟩ := mem_reportedSteps.mp hmem
    exact ⟨g, hg, hmax⟩

/-- The span of the marks of generations that report both steps or neither. -/
theorem versionSpanOf_marks (hboth : ∀ g ∈ gens, ReportsBoth g) :
    (reportedSteps gens = [] ∧ versionSpanOf (gens.map Generation.mark) = .ok none) ∨
      ∃ low high, versionSpanOf (gens.map Generation.mark) = .ok (some (low, some high)) ∧
        IsLeast {v | v ∈ (reportedSteps gens).map Prod.fst} low ∧
        IsGreatest {v | v ∈ (reportedSteps gens).map Prod.snd} high := by
  unfold versionSpanOf
  rw [reportedSteps_marks hboth]
  cases reportedSteps gens with
  | nil => exact Or.inl ⟨rfl, rfl⟩
  | cons first rest =>
    obtain ⟨high, hmax, hgreatest⟩ := maxOf_isGreatest first.2 (rest.map Prod.snd)
    refine Or.inr ⟨minOf first.1 (rest.map Prod.fst), high, ?_,
      minOf_isLeast first.1 (rest.map Prod.fst), hgreatest⟩
    have hseconds : (rest.map (fun steps => (steps.1, some steps.2))).map Prod.snd =
        (rest.map Prod.snd).map some := by
      simp
    have hfirsts : (rest.map (fun steps : Int × Int => (steps.1, some steps.2))).map Prod.fst =
        rest.map Prod.fst := by
      simp
    simp only [List.map_cons, hseconds, hfirsts, hmax, bind, Except.bind]
    rfl

/-- A trajectory spans the versions of the generations whose marks its chain has. -/
theorem spansVersions_of_build {chain : ChainState} {reason : Option String} {t : Trajectory}
    (hboth : ∀ g ∈ gens, ReportsBoth g)
    (hmarks : chain.buffer.generationVersions = gens.map Generation.mark)
    (hbuild : buildMaterializedTrajectory chain reason = .ok t) : SpansVersions t gens := by
  obtain ⟨_, span, hspan, rfl⟩ := build_eq_ok hbuild
  rw [hmarks] at hspan
  have hnone : (∀ g ∈ gens, g.output.minGlobalSteps = none) ↔ reportedSteps gens = [] := by
    rw [← List.map_eq_nil_iff (f := Prod.fst), List.eq_nil_iff_forall_not_mem]
    refine ⟨?_, ?_⟩
    · intro h v hv
      obtain ⟨g, hg, hmin⟩ := (exists_first_step hboth).mpr hv
      simp [h g hg] at hmin
    · intro h g hg
      cases hmin : g.output.minGlobalSteps with
      | none => rfl
      | some v => exact absurd ((exists_first_step hboth).mp ⟨g, hg, hmin⟩) (h v)
  rcases versionSpanOf_marks hboth with ⟨hempty, hok⟩ | ⟨low, high, hok, hleast, hgreatest⟩
  · rw [hok] at hspan
    cases hspan
    exact ⟨by simp [hnone, hempty], by simp⟩
  · rw [hok] at hspan
    cases hspan
    refine ⟨?_, ?_⟩
    · rw [hnone]
      refine ⟨?_, ?_⟩
      · intro h
        cases h
      · intro h
        rw [h] at hleast
        simp [IsLeast] at hleast
    · rintro low' high' heq
      cases heq
      refine ⟨?_, high, rfl, ?_⟩
      · simpa only [exists_first_step hboth] using hleast
      · simpa only [exists_last_step hboth] using hgreatest

/-! ## The law -/

/-- The shape of chains, where every generation reports both steps or neither. -/
def versionsRule (C : MessageCodec) : ChainRule where
  chain := fun chain gens => ChainShape C chain gens ∧ ∀ g ∈ gens, ReportsBoth g
  ready := fun f gens => (shapeRule C).ready f gens ∧ ∀ g ∈ gens, ReportsBoth g
  full := fun f gens => (shapeRule C).full f gens ∧ ∀ g ∈ gens, ReportsBoth g
  closed := SpansVersions

/-- The calls that return in a step report both steps or neither. -/
def ReportStep (sys : System) (a : Action) : Prop := ∀ g ∈ sys.returned a, ReportsBoth g

theorem versionsRule_kept : (versionsRule C).Kept C ReportStep := by
  have hshape := shapeRule_kept (C := C)
  constructor
  · intro sys request encoded _ hactive hprep hselect hroom
    exact ⟨hshape.fresh sys request encoded trivial hactive hprep hselect hroom, by simp⟩
  · intro sys request encoded chain gens _ hreuse hroom hchain
    refine ⟨hshape.reuse sys request encoded chain gens trivial hreuse hroom hchain.1, ?_⟩
    exact fun g hg => hchain.2 g ((keptOf_sublist _ _).subset hg)
  · intro sys f output encoded gens hq hmem hready habsorb
    refine ⟨hshape.absorb sys f output encoded gens trivial hmem hready.1 habsorb, ?_⟩
    intro g hg
    rcases List.mem_append.mp hg with hg | hg
    · exact hready.2 g hg
    · cases List.mem_singleton.mp hg
      exact hq _ (mem_returned hmem output)
  · intro sys f output callIds assistantMsg start chainId orderSeq gens _ hcommits hsound hfull
    exact ⟨hshape.commit sys f output callIds assistantMsg start chainId orderSeq gens trivial
      hcommits hsound hfull.1, hfull.2⟩
  · intro sys request encoded chain gens trajectory _ hreuse hfull _ hbuild hchain
    obtain ⟨w, hreused, hbuffer, _⟩ := hreuse.exhausted hfull
    have hkept := hreused.shape hchain.1.buffer
    rw [← closing_buffer hreused hbuffer] at hkept
    exact spansVersions_of_build (fun g hg => hchain.2 g ((keptOf_sublist _ _).subset hg))
      hkept.versions hbuild
  · intro chain gens trajectory hchain hbuild
    exact spansVersions_of_build hchain.2 hchain.1.buffer.versions hbuild

/-- A chain of the law can be materialized. -/
theorem versionsRule_builds (chain : ChainState) (gens : List Generation)
    (h : (versionsRule C).chain chain gens) :
    ∃ trajectory, buildMaterializedTrajectory chain none = .ok trajectory :=
  exists_build h.1.buffer.aligned h.1.buffer.versions (fun g hg hmin => (h.2 g hg).mp hmin) none

/-- The trainable tokens of each chain and of each trajectory are the outputs of the generations
that survive, in order. -/
structure HoldsOutputs (sys : System) : Prop where
  active : ∀ chain ∈ sys.session.activeChains, ∃ l,
    Grounded (fun _ => True) none chain.buffer.promptIds (sys.ledger.surviving chain.chainId) l ∧
      Written none chain.buffer l
  returned : ∀ t id, Returned sys t id →
    ∃ l, Told (fun _ => True) none t (sys.ledger.surviving id) l

theorem holdsOutputs_run {sessionId : String} {promptLength responseLength : Option Int}
    {enable : Bool} {actions : List Action} (hne : C.assistantPrefix ≠ [])
    (hlong : LongIncrements C)
    (hnew : GatewaySession.create sessionId promptLength responseLength enable = .ok s)
    (hrun : runFrom C s actions = some sys)
    (hboth : runs.Meets (System.step C) ReportStep (System.initial s) actions)
    (houtputs : ∀ g ∈ callsOf C s actions, EndsNoOutput C g)
    (hactive : sys.session.phase = .active) : HoldsOutputs sys := by
  have htruth : runs.Meets (System.step C) (TruthStep (EndsNoOutput C) none) (System.initial s)
      actions := by
    apply (runs.meets_collect System.returned _ _).imp
    exact fun u a hcalls => ⟨by simp, fun g hg => houtputs g (hcalls g hg)⟩
  have hkept : ((versionsRule C).and (truthRule C (EndsNoOutput C) none)).Kept C
      (fun u a => ReportStep u a ∧ TruthStep (EndsNoOutput C) none u a) :=
    versionsRule_kept.and (truthRule_kept hne hlong (fun _ h => h))
  obtain ⟨_, hholds, hcustody⟩ := hkept.custody_run
    (fun chain gens h => versionsRule_builds chain gens h.1) hnew hrun (hboth.and htruth)
  have hcustody := hcustody (by simp [hactive])
  refine ⟨?_, ?_⟩
  · intro chain hmem
    obtain ⟨l, hgrounded, hwritten⟩ := (hholds.chains chain hmem).2.grounded
    exact ⟨l, hgrounded.imp (fun _ _ => trivial), hwritten⟩
  · intro t id hreturned
    obtain ⟨built, rfl, _, l, htold⟩ := hcustody.returned hholds hkept hreturned
    have himp := htold.imp (Q := fun _ => True) (fun _ _ => trivial)
    exact ⟨l, himp.grounded, himp.responseIds, himp.responseMask, himp.responseLogprobs⟩

/-- Every chain has the marks of the generations that it holds, and every trajectory spans the
versions of the generations that its chain held. -/
theorem version_spans_cover_the_survivors {sessionId : String}
    {promptLength responseLength : Option Int} {enable : Bool} {actions : List Action}
    (hnew : GatewaySession.create sessionId promptLength responseLength enable = .ok s)
    (hrun : runFrom C s actions = some sys) (hboth : ∀ g ∈ callsOf C s actions, ReportsBoth g) :
    (∀ id, (sys.ledger.surviving id).Sublist sys.ledger.commits) ∧
    (∀ chain ∈ sys.session.activeChains, chain.buffer.generationVersions =
      (sys.ledger.surviving chain.chainId).map Generation.mark) ∧
    (sys.session.phase = .active → ∃ trajectories s',
      sys.session.finalize = (.ok trajectories, s')) ∧
    (∀ trajectories s', sys.session.finalize = (.ok trajectories, s') →
      ∃ ids, ids.Perm (sys.session.chainIds ++ sys.ledger.closed) ∧ ids.Nodup ∧
        List.Forall₂ (fun t id => Returned sys t id ∧
          SpansVersions t (sys.ledger.surviving id)) trajectories ids) ∧
    (C.assistantPrefix ≠ [] → LongIncrements C →
      (∀ g ∈ callsOf C s actions, EndsNoOutput C g) → sys.session.phase = .active →
        HoldsOutputs sys) := by
  have hmeets : runs.Meets (System.step C) ReportStep (System.initial s) actions := by
    apply (runs.meets_collect System.returned _ _).imp
    exact fun u a hcalls g hg => hboth g (hcalls g hg)
  obtain ⟨hreg, hholds, hcustody⟩ :=
    versionsRule_kept.custody_run versionsRule_builds hnew hrun hmeets
  refine ⟨hholds.surviving, fun chain hmem => (hholds.chains chain hmem).1.buffer.versions, ?_,
    ?_, fun hne hlong houtputs => holdsOutputs_run hne hlong hnew hrun hmeets houtputs⟩
  · intro hactive
    exact exists_finalize hactive
      (fun chain hmem => versionsRule_builds chain _ (hholds.chains chain hmem))
  · intro trajectories s' hfinalize
    have hactive := (GatewaySession.finalize_eq_ok hfinalize).1
    have hcustody := hcustody (by simp [hactive])
    obtain ⟨ids, hperm, hreturned⟩ := hcustody.finalized hfinalize
    refine ⟨ids, hperm, hperm.nodup_iff.mpr hreg.once, ?_⟩
    apply hreturned.imp
    intro t id ht
    refine ⟨ht, ?_⟩
    obtain ⟨built, rfl, hspans⟩ := hcustody.returned hholds versionsRule_kept ht
    exact ⟨hspans.absent, hspans.spans⟩

/-! ## Versions of a continued, a rewritten and a failed call -/

/-- A reply that is continued, a second reply that is rewritten, and a third one that fails. -/
def rewrittenVersions : List Action :=
  [.request { messages := [say "user" "q"] },
    .backendReturns 0
      { tokenIds := tokensOf "a", minGlobalSteps := some 2, maxGlobalSteps := some 3 },
    .commit 0 (fun _ => ""),
    .request { messages := [say "user" "q", say "assistant" "a", say "user" "r"] },
    .backendReturns 1
      { tokenIds := tokensOf "b", minGlobalSteps := some 1, maxGlobalSteps := some 9 },
    .commit 1 (fun _ => ""),
    .request { messages := [say "user" "q", say "assistant" "a", say "user" "r",
      say "assistant" "z", say "user" "s"] },
    .backendReturns 2 { tokenIds := tokensOf "c" }, .commit 2 (fun _ => ""),
    .request { messages := [say "user" "q", say "assistant" "a", say "user" "r",
      say "assistant" "z", say "user" "s", say "assistant" "c", say "user" "t"] },
    .backendReturns 3
      { tokenIds := tokensOf "d", minGlobalSteps := some 0, maxGlobalSteps := some 7 },
    .cancel 3, .release 3]

def reportsBoth (g : Generation) : Bool :=
  g.output.minGlobalSteps.isSome == g.output.maxGlobalSteps.isSome

theorem reportsBoth_of_test {calls : List Generation} (h : calls.all reportsBoth = true) :
    ∀ g ∈ calls, ReportsBoth g := by
  intro g hg
  have htest := List.all_eq_true.mp h g hg
  unfold ReportsBoth
  unfold reportsBoth at htest
  rw [beq_iff_eq] at htest
  rw [htest]

theorem version_spans_cover_the_survivors_rewrittenVersions :
    ∃ sys trajectories s', runFrom lineCodec (openSession none) rewrittenVersions = some sys ∧
      sys.session.finalize = (.ok trajectories, s') ∧
      trajectories.map (fun t => t.extraFields.versionSpan) = [some (2, some 3)] ∧
      ∃ ids, List.Forall₂ (fun t id => SpansVersions t (sys.ledger.surviving id))
        trajectories ids := by
  have hfacts : (runFrom lineCodec (openSession none) rewrittenVersions).any (fun sys =>
      sys.session.finalize.1.toOption.any (fun trajectories =>
        trajectories.map (fun t => t.extraFields.versionSpan) == [some (2, some 3)])) = true := by
    decide +kernel
  have hboth : (callsOf lineCodec (openSession none) rewrittenVersions).all reportsBoth = true := by
    decide +kernel
  obtain ⟨sys, hrun, hfacts⟩ := (Option.any_eq_true _ _).mp hfacts
  obtain ⟨_, _, _, hreturns, _⟩ := version_spans_cover_the_survivors openSession_eq hrun
    (reportsBoth_of_test hboth)
  rcases hfinalize : sys.session.finalize with ⟨_ | trajectories, s'⟩
  · simp [hfinalize, Except.toOption] at hfacts
  · obtain ⟨ids, _, _, hspans⟩ := hreturns trajectories s' hfinalize
    refine ⟨sys, trajectories, s', hrun, hfinalize, ?_, ids, hspans.imp (fun _ _ h => h.2)⟩
    simpa [hfinalize, Except.toOption] using hfacts

/-! ## A mark without tokens -/

/-- A reply that is the assistant prefix, a second reply right behind it, and a rewrite of the
second one. -/
def prefixAsOutput : List Action :=
  [.request { messages := [say "user" "q"] },
    .backendReturns 0
      { tokenIds := tokensOf "\n>", minGlobalSteps := some 1, maxGlobalSteps := some 1 },
    .commit 0 (fun _ => ""),
    .request { messages := [say "user" "q", say "assistant" "\n>"] },
    .backendReturns 1
      { tokenIds := tokensOf "b", minGlobalSteps := some 2, maxGlobalSteps := some 2 },
    .commit 1 (fun _ => ""),
    .request { messages := [say "user" "q", say "assistant" "\n>", say "user" "r"] },
    .backendReturns 2
      { tokenIds := tokensOf "c", minGlobalSteps := some 3, maxGlobalSteps := some 3 },
    .commit 2 (fun _ => "")]

theorem mem_le_generatedTokens {g : Generation} (hg : g ∈ gens) :
    g.out.length ≤ generatedTokens gens := by
  unfold generatedTokens
  exact List.single_le_sum (fun n _ => Nat.zero_le n) _ (List.mem_map_of_mem hg)

/-- The second rollback takes the first output for the assistant prefix. Its tokens are gone, and
its version still counts. -/
theorem a_cut_output_keeps_its_version :
    (∀ g ∈ callsOf lineCodec (openSession none) prefixAsOutput, ReportsBoth g) ∧
    ∃ sys trajectories s', runFrom lineCodec (openSession none) prefixAsOutput = some sys ∧
      sys.session.finalize = (.ok trajectories, s') ∧ ∃ t ∈ trajectories,
        ¬ ∃ gens l, Told (· ∈ callsOf lineCodec (openSession none) prefixAsOutput) none t gens l ∧
          SpansVersions t gens := by
  have hboth : (callsOf lineCodec (openSession none) prefixAsOutput).all reportsBoth = true := by
    decide +kernel
  have hlong : (callsOf lineCodec (openSession none) prefixAsOutput).all (fun g =>
      g.output.minGlobalSteps != some 1 || g.out.length == 2) = true := by decide +kernel
  have hfacts : (runFrom lineCodec (openSession none) prefixAsOutput).any (fun sys =>
      sys.session.finalize.1.toOption.any (fun trajectories => trajectories.any (fun t =>
        t.extraFields.versionSpan == some (1, some 3) && t.responseMask.count 1 == 1))) =
      true := by decide +kernel
  refine ⟨reportsBoth_of_test hboth, ?_⟩
  obtain ⟨sys, hrun, hfacts⟩ := (Option.any_eq_true _ _).mp hfacts
  rcases hfinalize : sys.session.finalize with ⟨_ | trajectories, s'⟩
  · simp [hfinalize, Except.toOption] at hfacts
  · simp only [hfinalize, Except.toOption, Option.any_some] at hfacts
    obtain ⟨t, ht, hfacts⟩ := List.any_eq_true.mp hfacts
    simp only [Bool.and_eq_true, beq_iff_eq] at hfacts
    obtain ⟨hspan, hcount⟩ := hfacts
    refine ⟨sys, trajectories, s', hrun, hfinalize, t, ht, ?_⟩
    rintro ⟨gens, l, htold, hspans⟩
    obtain ⟨⟨g, hg, hmin⟩, _⟩ := (hspans.spans 1 (some 3) hspan).1
    have hlength : g.out.length = 2 := by
      simpa [hmin] using List.all_eq_true.mp hlong g (htold.grounded.calls g hg)
    have hle := mem_le_generatedTokens hg
    rw [htold.responseMask, htold.grounded.count_mask] at hcount
    omega

end uni_agent.session
