-- Which tokens the rows of a routing tensor stand for. A call that reports routing replaces the
-- tensor of its chain, and a call that reports none leaves it. A rollback cuts the tokens of the
-- chain and keeps the tensor, so the next call without routing puts other tokens under its rows.
import UniAgent.ChainShape

namespace uni_agent.framework

open uni_agent.session

/-- `_align_routed_experts` of `framework.py`: one row for each token, with zeros behind the
rows that are there. -/
def alignRoutedExperts (source : RoutedExperts) (seqLen : Nat) : Option RoutedExperts :=
  if source.dim ≠ 3 then none
  else
    let covered := min source.rows.length seqLen
    let zeros := List.replicate source.layers (List.replicate source.topk 0)
    some { source with
      rows := source.rows.take covered ++ List.replicate (seqLen - covered) zeros }

theorem getElem?_alignRoutedExperts {source aligned : RoutedExperts} {seqLen p : Nat}
    (h : alignRoutedExperts source seqLen = some aligned)
    (hp : p < min source.rows.length seqLen) : aligned.rows[p]? = source.rows[p]? := by
  unfold alignRoutedExperts at h
  split at h
  · cases h
  · cases h
    rw [List.getElem?_append_left (by simpa using hp), List.getElem?_take_of_lt hp]

theorem length_alignRoutedExperts {source aligned : RoutedExperts} {seqLen : Nat}
    (h : alignRoutedExperts source seqLen = some aligned) : aligned.rows.length = seqLen := by
  unfold alignRoutedExperts at h
  split at h
  · cases h
  · cases h
    simp only [List.length_append, List.length_take, List.length_replicate]
    omega

end uni_agent.framework

namespace uni_agent.session

variable {C : MessageCodec} {s : GatewaySession}

/-! ## Calls and their rows -/

def Trajectory.tokens (t : Trajectory) : List Token := t.promptIds ++ t.responseIds

/-- The tokens that a call went through: its context and its output. -/
def Generation.tokens (g : Generation) : List Token := g.contextIds ++ g.output.tokenIds

/-- A tensor that is reported has its rows for the first tokens of the call. -/
def rowsInRange (sys : System) : Action → Bool
  | .backendReturns requestId output =>
    sys.inFlight.all (fun f => f.requestId != requestId ||
      output.routedExperts.all (fun r =>
        r.rows.length ≤ f.encoded.contextIds.length + output.tokenIds.length))
  | _ => true

/-- After a rollback, a request without routing has the tokens of its chain again wherever the
tensor of the chain has a row. -/
def InFlight.keepsRows (f : InFlight) : Bool :=
  match f.stage, f.preparedChain with
  | .generated output, some chain =>
    !f.encoded.rollbackApplied || output.routedExperts.isSome ||
      chain.buffer.routedExperts.all (fun r =>
        r.rows.length ≤ f.encoded.buffer.tokens.length &&
          chain.buffer.tokens.take r.rows.length == f.encoded.buffer.tokens.take r.rows.length)
  | _, _ => true

/-- Every request that is committed keeps the rows of its chain. -/
def commitKeepsRows (sys : System) : Action → Bool
  | .commit requestId _ => sys.inFlight.all (fun f => f.requestId != requestId || f.keepsRows)
  | _ => true

/-- The rows of a tensor stand for the first tokens of a call, and these are the first tokens
of a list. -/
def Describes (P : Generation → Prop) (r : RoutedExperts) (tokens : List Token) : Prop :=
  ∃ g, P g ∧ g.output.routedExperts = some r ∧ r.rows.length ≤ g.tokens.length ∧
    r.rows.length ≤ tokens.length ∧ g.tokens.take r.rows.length = tokens.take r.rows.length

/-- The same when the list may be shorter than the tensor. -/
def DescribesShared (P : Generation → Prop) (r : RoutedExperts) (tokens : List Token) : Prop :=
  ∃ g, P g ∧ g.output.routedExperts = some r ∧ r.rows.length ≤ g.tokens.length ∧
    ∀ n ≤ r.rows.length, n ≤ tokens.length → g.tokens.take n = tokens.take n

def TrajectoryBuffer.Routed (P : Generation → Prop) (buffer : TrajectoryBuffer) : Prop :=
  ∀ r, buffer.routedExperts = some r → Describes P r buffer.tokens

variable {P : Generation → Prop} {r : RoutedExperts} {xs ys : List Token}

theorem take_eq_of_prefix {α : Type} {xs ys : List α} {n : Nat} (h : xs <+: ys)
    (hn : n ≤ xs.length) : ys.take n = xs.take n := by
  obtain ⟨rest, rfl⟩ := h
  exact List.take_append_of_le_length hn

/-- More tokens at the end change nothing for the rows. -/
theorem Describes.extend (h : Describes P r xs) (hpre : xs <+: ys) : Describes P r ys := by
  obtain ⟨g, hg, hout, hle, hlen, htake⟩ := h
  refine ⟨g, hg, hout, hle, hlen.trans hpre.length_le, ?_⟩
  rw [htake, take_eq_of_prefix hpre hlen]

/-- Fewer tokens at the end leave rows without a token. -/
theorem Describes.cut (h : Describes P r ys) (hpre : xs <+: ys) : DescribesShared P r xs := by
  obtain ⟨g, hg, hout, hle, hlen, htake⟩ := h
  refine ⟨g, hg, hout, hle, ?_⟩
  intro n hn hxs
  calc g.tokens.take n = (g.tokens.take r.rows.length).take n := by
        rw [List.take_take, min_eq_left hn]
    _ = ys.take n := by rw [htake, List.take_take, min_eq_left hn]
    _ = xs.take n := take_eq_of_prefix hpre hxs

/-! ## What each operation keeps -/

theorem RolledBack.tokens_prefix {chain : ChainState} {b : TrajectoryBuffer}
    (h : RolledBack C chain b) : b.tokens <+: chain.buffer.tokens := by
  cases h with
  | intoPrompt promptIds _ hprompt =>
    refine ⟨C.assistantPrefix ++ chain.buffer.responseIds, ?_⟩
    simp [TrajectoryBuffer.tokens, hprompt]
  | intoResponse responseIds _ hresponse =>
    unfold TrajectoryBuffer.tokens
    rw [List.prefix_append_right_inj]
    exact (List.prefix_append responseIds _).trans (hresponse ▸ List.take_prefix _ _)

theorem RolledBack.routedExperts {chain : ChainState} {b : TrajectoryBuffer}
    (h : RolledBack C chain b) : b.routedExperts = chain.buffer.routedExperts := by
  cases h <;> rfl

/-- The tensor of a request that rolled its chain back is still that of the chain. -/
structure InFlight.HoldsRows (P : Generation → Prop) (f : InFlight) (chain : ChainState) :
    Prop where
  rollback : f.encoded.rollbackApplied = true
  prepared : f.preparedChain = some chain
  same : f.encoded.buffer.routedExperts = chain.buffer.routedExperts
  routed : chain.buffer.Routed P

/-- The rows of tensors, in the calls that meet `P`. -/
def routedRule (P : Generation → Prop) : ChainRule where
  chain := fun chain _ => chain.buffer.Routed P
  ready := fun f _ => f.encoded.contextIds = f.encoded.buffer.tokens ∧
    (f.encoded.buffer.Routed P ∨ ∃ chain, f.HoldsRows P chain)
  full := fun f _ => f.encoded.buffer.Routed P ∨
    ∃ chain output, f.HoldsRows P chain ∧ f.stage = .generated output ∧
      output.routedExperts = none
  closed := fun trajectory _ =>
    ∀ r, trajectory.routedExperts = some r → DescribesShared P r trajectory.tokens

/-- What the steps of a run must meet: reported tensors are in range, commits keep the rows,
and `P` holds of each call that returns. -/
structure RoutedStep (P : Generation → Prop) (sys : System) (a : Action) : Prop where
  range : rowsInRange sys a = true
  keeps : commitKeepsRows sys a = true
  call : ∀ g ∈ sys.returned a, P g

theorem Describes.of_call {g : Generation} (hg : P g) (hout : g.output.routedExperts = some r)
    (hlen : r.rows.length ≤ g.tokens.length) : Describes P r g.tokens :=
  ⟨g, hg, hout, hlen, hlen, rfl⟩

theorem routed_of_commit {sys : System} {f : InFlight} {callIds : Nat → String}
    (hq : RoutedStep P sys (.commit f.requestId callIds)) (hmem : f ∈ sys.inFlight)
    {gens : List Generation} (hfull : (routedRule P).full f gens) :
    f.encoded.buffer.Routed P := by
  rcases hfull with hrouted | ⟨chain, output, hholds, hstage, hnone⟩
  · exact hrouted
  · intro r hr
    have hkeeps := List.all_eq_true.mp hq.keeps f hmem
    rw [hholds.same] at hr
    obtain ⟨g, hg, hout, hle, hlen, htake⟩ := hholds.routed r hr
    simp only [bne_self_eq_false, Bool.false_or, InFlight.keepsRows, hstage, hholds.prepared,
      hholds.rollback, hnone, hr, Bool.not_true, Option.isSome_none, Option.all_some,
      Bool.and_eq_true, decide_eq_true_eq, beq_iff_eq] at hkeeps
    exact ⟨g, hg, hout, hle, hkeeps.1, htake.trans hkeeps.2⟩

theorem routedRule_kept : (routedRule P).Kept C (RoutedStep P) := by
  constructor
  · intro sys request encoded _ _ hprep hselect hroom
    obtain ⟨promptIds, _, _, hbuffer, _⟩ := prepare_fresh hprep hselect
    refine ⟨(opened_of_prepare hprep hroom).contextIds, Or.inl ?_⟩
    intro r hr
    simp [hbuffer] at hr
  · intro sys request encoded chain gens _ hreuse hroom hchain
    obtain ⟨w, ids, images, videos, hextends, _⟩ := hreuse.extends hroom
    refine ⟨(opened_of_prepare hreuse.prepared hroom).contextIds, ?_⟩
    have hreused := hextends.reused
    cases hrollback : encoded.rollbackApplied with
    | false =>
      rw [hrollback] at hreused
      cases hreused
      left
      intro r hr
      rw [hextends.buffer] at hr ⊢
      refine (hchain r hr).extend ⟨ids, ?_⟩
      simp [TrajectoryBuffer.tokens, appendContext]
    | true =>
      rw [hrollback] at hreused
      cases hreused with
      | rolledBack buffer images' videos' hb _ _ _ _ _ =>
        refine Or.inr ⟨chain, hrollback, rfl, ?_, hchain⟩
        change encoded.buffer.routedExperts = _
        rw [hextends.buffer]
        exact hb.routedExperts
  · intro sys f output encoded gens hq hmem hready habsorb
    obtain ⟨hcontext, hrouted⟩ := hready
    obtain ⟨logProbs, rfl, _⟩ := absorbOutput_eq_ok habsorb
    have hrange := List.all_eq_true.mp hq.range f hmem
    have hpre : f.encoded.buffer.tokens <+:
        f.encoded.buffer.promptIds ++ (f.encoded.buffer.responseIds ++ output.tokenIds) :=
      ⟨output.tokenIds, by simp [TrajectoryBuffer.tokens]⟩
    cases hout : output.routedExperts with
    | some r =>
      left
      intro r' hr'
      obtain rfl : r = r' := by simpa [hout] using hr'
      simp only [bne_self_eq_false, Bool.false_or, hout, Option.all_some, decide_eq_true_eq]
        at hrange
      have hdescribes : Describes P r (f.generation output).tokens :=
        .of_call (hq.call _ (mem_returned hmem output)) hout
          (by simpa [Generation.tokens, InFlight.generation] using hrange)
      simpa [Generation.tokens, InFlight.generation, hcontext, TrajectoryBuffer.tokens]
        using hdescribes
    | none =>
      rcases hrouted with hrouted | ⟨chain, hholds⟩
      · left
        intro r hr
        exact (hrouted r (by simpa [hout] using hr)).extend hpre
      · refine Or.inr ⟨chain, output, ?_, rfl, hout⟩
        exact ⟨hholds.rollback, hholds.prepared, by simpa [hout] using hholds.same, hholds.routed⟩
  · intro sys f output callIds assistantMsg start chainId orderSeq gens hq hcommits _ hfull
    exact routed_of_commit hq hcommits.mem hfull
  · intro sys request encoded chain gens trajectory _ hreuse hexhausted _ hbuild hchain
    obtain ⟨w, hreused, hbuffer, _⟩ := hreuse.exhausted hexhausted
    obtain ⟨_, span, _, rfl⟩ := build_eq_ok hbuild
    have hsame := closing_buffer hreused hbuffer
    intro r hr
    simp only [Trajectory.tokens, hsame] at hr ⊢
    cases hrollback : encoded.rollbackApplied with
    | false =>
      rw [hrollback] at hreused
      cases hreused
      exact (hchain r hr).cut (List.prefix_refl _)
    | true =>
      rw [hrollback] at hreused
      cases hreused with
      | rolledBack buffer images videos hb _ _ _ _ _ =>
        rw [hb.routedExperts] at hr
        exact (hchain r hr).cut hb.tokens_prefix
  · intro chain gens trajectory hchain hbuild
    obtain ⟨_, span, _, rfl⟩ := build_eq_ok hbuild
    intro r hr
    exact (hchain r hr).cut (List.prefix_refl _)

/-! ## The law -/

/-- When every commit keeps the rows of its chain, each row of an aligned tensor is the row of
a call of the run that went through the same tokens up to there. -/
theorem routed_rows_describe_the_trajectory {sys : System} {sessionId : String}
    {promptLength responseLength : Option Int} {enable : Bool}
    {actions : List Action}
    (hnew : GatewaySession.create sessionId promptLength responseLength enable = .ok s)
    (hrun : runFrom C s actions = some sys)
    (hrange : runs.Meets (System.step C) (fun u a => rowsInRange u a = true) (System.initial s)
      actions)
    (hkeeps : runs.Meets (System.step C) (fun u a => commitKeepsRows u a = true)
      (System.initial s) actions)
    {trajectories : List Trajectory} {s' : GatewaySession}
    (hfinalize : sys.session.finalize = (.ok trajectories, s')) {t : Trajectory}
    (ht : t ∈ trajectories) {source aligned : RoutedExperts}
    (hsource : t.routedExperts = some source)
    (haligned : framework.alignRoutedExperts source t.tokens.length = some aligned) {p : Nat}
    (hp : p < min source.rows.length t.tokens.length) :
    ∃ g ∈ callsOf C s actions, ∃ routing, g.output.routedExperts = some routing ∧
      p < routing.rows.length ∧ aligned.rows[p]? = routing.rows[p]? ∧
      p < g.tokens.length ∧ g.tokens.take (p + 1) = t.tokens.take (p + 1) := by
  have hmeets : runs.Meets (System.step C) (RoutedStep (fun g => g ∈ callsOf C s actions))
      (System.initial s) actions := by
    refine ((hrange.and hkeeps).and (runs.meets_collect System.returned _ _)).imp ?_
    rintro u a ⟨⟨hr, hk⟩, hcalls⟩
    exact ⟨hr, hk, hcalls⟩
  have hkept := routedRule_kept (C := C) (P := fun g => g ∈ callsOf C s actions)
  obtain ⟨trajectory, gens, rfl, _, hclosed⟩ :=
    hkept.finalized (hkept.run hnew hrun hmeets) hfinalize t ht
  obtain ⟨g, hg, hout, hle, htake⟩ := hclosed source hsource
  change p < min source.rows.length trajectory.tokens.length at hp
  refine ⟨g, hg, source, hout, by omega, framework.getElem?_alignRoutedExperts haligned hp,
    by omega, ?_⟩
  exact htake (p + 1) (by omega) (by omega)

/-! ## A rollback between two calls, the second of them without routing -/

/-- Routing with one row for each position up to `length`, each row with the given expert. -/
def uniformRouting (expert length : Nat) : RoutedExperts :=
  { dim := 3, layers := 1, topk := 1, rows := List.replicate length [[expert]] }

/-- One reply with routing, and a request that puts another text in its place. The second reply
has the given routing. -/
def routedRewrite (routing : Option RoutedExperts) : List Action :=
  [.request { messages := [say "user" "q"] },
    .backendReturns 0 { tokenIds := tokensOf "a", routedExperts := some (uniformRouting 7 5) },
    .commit 0 (fun _ => ""),
    .request { messages := [say "user" "q", say "assistant" "b", say "user" "r"] },
    .backendReturns 1 { tokenIds := tokensOf "c", routedExperts := routing },
    .commit 1 (fun _ => "")]

theorem routed_rows_describe_the_trajectory_refreshed :
    ∃ sys, runFrom lineCodec (openSession none) (routedRewrite (some (uniformRouting 3 11))) =
        some sys ∧
      ∃ trajectories s', sys.session.finalize = (.ok trajectories, s') ∧
        ∃ t ∈ trajectories, ∃ source, t.routedExperts = some source ∧
          ∃ aligned, framework.alignRoutedExperts source t.tokens.length = some aligned ∧
            ∃ g ∈ callsOf lineCodec (openSession none)
                (routedRewrite (some (uniformRouting 3 11))),
              ∃ routing, g.output.routedExperts = some routing ∧
                aligned.rows[10]? = routing.rows[10]? ∧
                g.tokens.take 11 = t.tokens.take 11 := by
  have hfacts : (runFrom lineCodec (openSession none)
      (routedRewrite (some (uniformRouting 3 11)))).any (fun sys =>
        sys.session.finalize.1.toOption.any (fun trajectories => trajectories.any (fun t =>
          t.routedExperts.any (fun source =>
            (framework.alignRoutedExperts source t.tokens.length).isSome &&
              decide (10 < min source.rows.length t.tokens.length))))) = true := by
    decide +kernel
  have hrange : runs.checks (System.step lineCodec) rowsInRange
      (System.initial (openSession none)) (routedRewrite (some (uniformRouting 3 11))) = true := by
    decide +kernel
  have hkeeps : runs.checks (System.step lineCodec) commitKeepsRows
      (System.initial (openSession none)) (routedRewrite (some (uniformRouting 3 11))) = true := by
    decide +kernel
  obtain ⟨sys, hrun, hfacts⟩ := (Option.any_eq_true _ _).mp hfacts
  rcases hfinalize : sys.session.finalize with ⟨_ | trajectories, s'⟩
  · simp [hfinalize, Except.toOption] at hfacts
  · simp only [hfinalize, Except.toOption, Option.any_some] at hfacts
    obtain ⟨t, ht, hfacts⟩ := List.any_eq_true.mp hfacts
    obtain ⟨source, hsource, hfacts⟩ := (Option.any_eq_true _ _).mp hfacts
    obtain ⟨haligned, hp⟩ := Bool.and_eq_true_iff.mp hfacts
    obtain ⟨aligned, haligned⟩ := Option.isSome_iff_exists.mp haligned
    obtain ⟨g, hg, routing, hout, _, hrow, _, htake⟩ :=
      routed_rows_describe_the_trajectory openSession_eq hrun
        (runs.meets_of_checks (fun _ _ h => h) hrange)
        (runs.meets_of_checks (fun _ _ h => h) hkeeps) hfinalize ht hsource haligned
        (of_decide_eq_true hp)
    exact ⟨sys, hrun, trajectories, s', hfinalize, t, ht, source, hsource, aligned, haligned, g,
      hg, routing, hout, hrow, htake⟩

/-- The second call reports no routing, so the tensor of the first stays, and its fourth row
stands for the prompt of the reply that was rolled back. -/
theorem row_of_a_rolled_back_reply :
    runs.Meets (System.step lineCodec) (fun u a => rowsInRange u a = true)
      (System.initial (openSession none)) (routedRewrite none) ∧
    ∃ sys, runFrom lineCodec (openSession none) (routedRewrite none) = some sys ∧
      ∃ trajectories s', sys.session.finalize = (.ok trajectories, s') ∧
        ∃ t ∈ trajectories, ∃ source, t.routedExperts = some source ∧
          ∃ aligned, framework.alignRoutedExperts source t.tokens.length = some aligned ∧
            3 < min source.rows.length t.tokens.length ∧
            ¬ ∃ g ∈ callsOf lineCodec (openSession none) (routedRewrite none),
              ∃ routing, g.output.routedExperts = some routing ∧
                3 < routing.rows.length ∧ aligned.rows[3]? = routing.rows[3]? ∧
                g.tokens.take 4 = t.tokens.take 4 := by
  have hrange : runs.checks (System.step lineCodec) rowsInRange
      (System.initial (openSession none)) (routedRewrite none) = true := by decide +kernel
  refine ⟨runs.meets_of_checks (fun _ _ h => h) hrange, ?_⟩
  have hfacts : (runFrom lineCodec (openSession none) (routedRewrite none)).any (fun sys =>
      sys.session.finalize.1.toOption.any (fun trajectories => trajectories.any (fun t =>
        t.routedExperts.any (fun source =>
          (framework.alignRoutedExperts source t.tokens.length).isSome &&
            decide (3 < min source.rows.length t.tokens.length) &&
            (callsOf lineCodec (openSession none) (routedRewrite none)).all (fun g =>
              g.output.routedExperts.isNone || g.tokens.take 4 != t.tokens.take 4))))) = true := by
    decide +kernel
  obtain ⟨sys, hrun, hfacts⟩ := (Option.any_eq_true _ _).mp hfacts
  rcases hfinalize : sys.session.finalize with ⟨_ | trajectories, s'⟩
  · simp [hfinalize, Except.toOption] at hfacts
  · simp only [hfinalize, Except.toOption, Option.any_some] at hfacts
    obtain ⟨t, ht, hfacts⟩ := List.any_eq_true.mp hfacts
    obtain ⟨source, hsource, hfacts⟩ := (Option.any_eq_true _ _).mp hfacts
    simp only [Bool.and_eq_true, decide_eq_true_eq] at hfacts
    obtain ⟨⟨haligned, hp⟩, hcalls⟩ := hfacts
    obtain ⟨aligned, haligned⟩ := Option.isSome_iff_exists.mp haligned
    refine ⟨sys, hrun, trajectories, s', hfinalize, t, ht, source, hsource, aligned, haligned, hp,
      ?_⟩
    rintro ⟨g, hg, routing, hout, _, _, htake⟩
    have hcall := List.all_eq_true.mp hcalls g hg
    simp [hout, htake] at hcall

end uni_agent.session
