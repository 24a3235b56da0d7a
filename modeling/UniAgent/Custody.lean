-- Which chain each trajectory came from. Every materialized trajectory stands next to the id of
-- the chain that was closed for it, and what a rule says about the trajectory it says about the
-- generations that this chain held.
import UniAgent.LedgerAccounts

namespace uni_agent.session

variable {C : MessageCodec} {s : GatewaySession} {sys t : System} {chain : ChainState}

theorem forall₂_imp_of_mem {α β : Type} {R S : α → β → Prop} {xs : List α} {ys : List β}
    (h : List.Forall₂ R xs ys) (himp : ∀ x, ∀ y ∈ ys, R x y → S x y) : List.Forall₂ S xs ys := by
  induction h with
  | nil => exact .nil
  | cons hxy _ ih =>
    exact .cons (himp _ _ (by simp) hxy) (ih (fun x y hy => himp x y (by simp [hy])))

/-! ## Chain ids -/

def GatewaySession.chainIds (s : GatewaySession) : List Nat :=
  s.activeChains.map ChainState.chainId

/-- One chain among the active ones, and what else the ledger knows. -/
theorem chainIds_perm {before after : List ChainState} {id : Nat} {closed : List Nat}
    (hsplit : s.activeChains = before ++ chain :: after) (hid : chain.chainId = id) :
    (s.chainIds ++ closed).Perm
      (id :: ((before ++ after).map ChainState.chainId ++ closed)) := by
  unfold GatewaySession.chainIds
  rw [hsplit, List.map_append, List.map_cons, hid, List.append_assoc, List.cons_append]
  apply List.perm_middle.trans
  rw [List.map_append, List.append_assoc]

theorem chainIds_untouched {s' : GatewaySession} (h : Untouched s s') :
    s'.chainIds = s.chainIds := by
  unfold GatewaySession.chainIds
  rw [h.activeChains]

/-- Each chain is active or closed, and only once. -/
structure Registered (sys : System) : Prop where
  once : (sys.session.chainIds ++ sys.ledger.closed).Nodup
  bound : ∀ id ∈ sys.ledger.closed, id < sys.session.nextChainId

theorem registered_initial {sessionId : String} {promptLength responseLength : Option Int}
    {enable : Bool}
    (hnew : GatewaySession.create sessionId promptLength responseLength enable = .ok s) :
    Registered (System.initial s) := by
  obtain ⟨capacity, rfl⟩ := create_eq_ok hnew
  exact ⟨by simp [System.initial, GatewaySession.chainIds], by simp [System.initial]⟩

theorem Registered.keep (h : Registered sys) (hids : t.session.chainIds = sys.session.chainIds)
    (hnext : t.session.nextChainId = sys.session.nextChainId)
    (hclosed : t.ledger.closed = sys.ledger.closed) : Registered t := by
  refine ⟨?_, ?_⟩
  · rw [hids, hclosed]
    exact h.once
  · rw [hclosed, hnext]
    exact h.bound

theorem Registered.next_not_mem (h : Registered sys) (hco : Coherent C sys) :
    sys.session.nextChainId ∉ sys.session.chainIds ++ sys.ledger.closed := by
  intro hmem
  rcases List.mem_append.mp hmem with hmem | hmem
  · obtain ⟨c, hc, heq⟩ := List.mem_map.mp hmem
    have := hco.chainIds_lt c hc
    omega
  · have := h.bound _ hmem
    omega

/-- A chain that is active is not closed. -/
theorem Registered.not_closed (h : Registered sys) (hmem : chain ∈ sys.session.activeChains) :
    chain.chainId ∉ sys.ledger.closed := by
  have hdisjoint := (List.nodup_append.mp h.once).2.2
  intro hclosed
  exact hdisjoint _ (List.mem_map_of_mem hmem) _ hclosed rfl

theorem registered_effect (hco : Coherent C sys) (h : Registered sys) {a : Action}
    (heffect : Effect C sys a t) : Registered t := by
  cases heffect with
  | idle _ session next finished hsession _ _ =>
    exact h.keep (chainIds_untouched hsession) hsession.nextChainId rfl
  | preparedReuse request encoded chain _ _ =>
    have hsession := untouched_reserveChain sys.session chain.chainId
    exact h.keep (chainIds_untouched hsession) hsession.nextChainId rfl
  | committedNew f output callIds assistantMsg start outcome _ _ =>
    refine ⟨?_, ?_⟩
    · simp only [System.finish, GatewaySession.chainIds, List.map_append, List.map_singleton,
        List.append_assoc, Ledger.closed_commit]
      exact List.perm_middle.nodup_iff.mpr (List.nodup_cons.mpr ⟨h.next_not_mem hco, h.once⟩)
    · intro id hid
      simp only [System.finish, Ledger.closed_commit] at hid
      exact (h.bound id hid).trans (Nat.lt_succ_self _)
  | committedReuse f output callIds assistantMsg start outcome before after chain _ _ hsplit =>
    apply h.keep
    · simp [System.finish, GatewaySession.chainIds, hsplit, GatewaySession.committedChain]
    · simp [System.finish]
    · simp [System.finish]
  | dropped request encoded chain before after outcome _ _ hsplit _ _ =>
    have hnodup := (chainIds_perm hsplit rfl).nodup_iff.mp h.once
    exact ⟨(List.nodup_cons.mp hnodup).2, by simpa using h.bound⟩
  | closed request encoded chain before after outcome trajectory _ _ hsplit _ _ =>
    refine ⟨?_, ?_⟩
    · have hnodup := (chainIds_perm hsplit rfl).nodup_iff.mp h.once
      simp only [GatewaySession.chainIds, Ledger.closed_close]
      rw [← List.append_assoc]
      exact (List.perm_append_singleton _ _).nodup_iff.mpr hnodup
    · intro id hid
      simp only [Ledger.closed_close] at hid
      rcases List.mem_append.mp hid with hid | hid
      · simpa using h.bound id hid
      · cases List.mem_singleton.mp hid
        simpa using hco.chainIds_lt chain (by simp [hsplit])
  | finalized built _ _ =>
    refine ⟨?_, ?_⟩
    · have hperm : (sys.session.chainIds ++ sys.ledger.closed).Perm
          (sys.ledger.closed ++ sys.session.chainIds) := List.perm_append_comm
      exact hperm.nodup_iff.mp h.once
    · intro id hid
      rcases List.mem_append.mp hid with hid | hid
      · exact h.bound id hid
      · obtain ⟨c, hc, rfl⟩ := List.mem_map.mp hid
        exact hco.chainIds_lt c hc
  | aborted _ => exact ⟨(List.nodup_append.mp h.once).2.1, h.bound⟩
  | _ => exact h.keep rfl rfl rfl

/-- An aborted session stays aborted. -/
theorem Effect.not_aborted {a : Action} (heffect : Effect C sys a t)
    (hphase : t.session.phase ≠ .aborted) : sys.session.phase ≠ .aborted := by
  cases heffect with
  | idle _ session next finished hsession _ _ => exact hsession.phase ▸ hphase
  | aborted _ => exact absurd rfl hphase
  | preparedReuse request encoded chain hreuse _ => simp [hreuse.active]
  | finalized built hactive _ => simp [hactive]
  | committedReuse f output callIds assistantMsg start outcome before after chain hcommits _ _ =>
    simp [hcommits.active]
  | dropped request encoded chain before after outcome hreuse _ _ _ _ => simp [hreuse.active]
  | closed request encoded chain before after outcome trajectory hreuse _ _ _ _ =>
    simp [hreuse.active]
  | _ => exact hphase

/-! ## Two rules at once -/

namespace ChainRule

def and (R S : ChainRule) : ChainRule where
  chain := fun chain gens => R.chain chain gens ∧ S.chain chain gens
  ready := fun f gens => R.ready f gens ∧ S.ready f gens
  full := fun f gens => R.full f gens ∧ S.full f gens
  closed := fun t gens => R.closed t gens ∧ S.closed t gens

variable {R S : ChainRule} {Q Q' : System → Action → Prop}

theorem Kept.and (hR : R.Kept C Q) (hS : S.Kept C Q') :
    (R.and S).Kept C (fun sys a => Q sys a ∧ Q' sys a) := by
  constructor
  · intro sys request encoded hq hactive hprep hselect hroom
    exact ⟨hR.fresh sys request encoded hq.1 hactive hprep hselect hroom,
      hS.fresh sys request encoded hq.2 hactive hprep hselect hroom⟩
  · intro sys request encoded chain gens hq hreuse hroom hchain
    exact ⟨hR.reuse sys request encoded chain gens hq.1 hreuse hroom hchain.1,
      hS.reuse sys request encoded chain gens hq.2 hreuse hroom hchain.2⟩
  · intro sys f output encoded gens hq hmem hready habsorb
    exact ⟨hR.absorb sys f output encoded gens hq.1 hmem hready.1 habsorb,
      hS.absorb sys f output encoded gens hq.2 hmem hready.2 habsorb⟩
  · intro sys f output callIds assistantMsg start chainId orderSeq gens hq hcommits hsound hfull
    exact ⟨hR.commit sys f output callIds assistantMsg start chainId orderSeq gens hq.1 hcommits
        hsound hfull.1,
      hS.commit sys f output callIds assistantMsg start chainId orderSeq gens hq.2 hcommits
        hsound hfull.2⟩
  · intro sys request encoded chain gens trajectory hq hreuse hfull hstart hbuild hchain
    exact ⟨hR.close sys request encoded chain gens trajectory hq.1 hreuse hfull hstart hbuild
        hchain.1,
      hS.close sys request encoded chain gens trajectory hq.2 hreuse hfull hstart hbuild
        hchain.2⟩
  · intro chain gens trajectory hchain hbuild
    exact ⟨hR.finalize chain gens trajectory hchain.1 hbuild,
      hS.finalize chain gens trajectory hchain.2 hbuild⟩

/-! ## The trajectories of closed chains -/

/-- What the rule says about the trajectories, it says with the generations of their chains. -/
def Custody (R : ChainRule) (sys : System) : Prop :=
  List.Forall₂ (fun m id => R.closed m.trajectory (sys.ledger.surviving id))
    sys.session.materializedChains sys.ledger.closed

theorem Custody.keep (h : R.Custody sys)
    (hmaterialized : t.session.materializedChains = sys.session.materializedChains)
    (hclosed : t.ledger.closed = sys.ledger.closed)
    (hsurviving : ∀ id ∈ sys.ledger.closed, t.ledger.surviving id = sys.ledger.surviving id) :
    R.Custody t := by
  unfold Custody at h ⊢
  rw [hmaterialized, hclosed]
  apply forall₂_imp_of_mem h
  intro m id hid hm
  rw [hsurviving id hid]
  exact hm

/-- A chain that cannot be materialized does no harm when it is the first one. -/
theorem custody_effect_of_first (hreg : Registered sys) (hholds : R.Holds sys) (hkept : R.Kept C Q)
    {a : Action} (hq : Q sys a)
    (hfirst : ∀ front chain back error, sys.session.activeChains = front ++ chain :: back →
      buildMaterializedTrajectory chain none = .error error → front = [])
    (h : R.Custody sys) (heffect : Effect C sys a t) (hphase : t.session.phase ≠ .aborted) :
    R.Custody t := by
  have hother : ∀ {id id' : Nat}, id ∉ sys.ledger.closed → id' ∈ sys.ledger.closed → id' ≠ id := by
    rintro id _ hid hid' rfl
    exact hid hid'
  cases heffect with
  | idle _ session next finished hsession _ _ =>
    exact h.keep hsession.materializedChains rfl (fun _ _ => rfl)
  | preparedReuse request encoded chain _ _ =>
    exact h.keep (untouched_reserveChain _ _).materializedChains rfl (fun _ _ => rfl)
  | committedNew f output callIds assistantMsg start outcome _ _ =>
    refine h.keep rfl (by simp [System.finish]) ?_
    intro id hid
    apply Ledger.surviving_commit_of_ne
    exact (hreg.bound id hid).ne
  | committedReuse f output callIds assistantMsg start outcome before after chain _ _ hsplit =>
    have hchain : chain ∈ sys.session.activeChains := by simp [hsplit]
    have hnot := hreg.not_closed hchain
    apply h.keep (by simp [System.finish]) (by simp [System.finish])
    intro id hid
    exact Ledger.surviving_commit_of_ne _ _ _ _ (hother hnot hid)
  | dropped request encoded chain before after outcome _ _ hsplit _ _ =>
    have hchain : chain ∈ sys.session.activeChains := by simp [hsplit]
    have hnot := hreg.not_closed hchain
    refine h.keep (by simp) rfl ?_
    intro id hid
    exact Ledger.surviving_delete_of_ne _ _ (hother hnot hid)
  | closed request encoded chain before after outcome trajectory hreuse hfull hsplit hstart
      hbuild =>
    have hmem : chain ∈ sys.session.activeChains := by simp [hsplit]
    have hnot := hreg.not_closed hmem
    unfold Custody at h ⊢
    simp only [Ledger.closed_close]
    apply List.rel_append
    · apply forall₂_imp_of_mem h
      intro m id hid hm
      rw [Ledger.surviving_close_of_ne _ _ _ (hother hnot hid)]
      exact hm
    · refine .cons ?_ .nil
      rw [Ledger.surviving_close_self]
      exact hkept.close sys request encoded chain _ trajectory hq hreuse hfull hstart hbuild
        (hholds.chains chain hmem)
  | finalized built _ hbuilt =>
    apply List.rel_append h
    rw [List.forall₂_map_right_iff]
    apply forall₂_imp_of_mem hbuilt.flip
    rintro m chain hmem ⟨hbuild, _⟩
    exact hkept.finalize chain _ m.trajectory (hholds.chains chain hmem) hbuild
  | finalizeFailed front back chain error built _ hsplit hbuilt hbuild =>
    obtain rfl := hfirst front chain back error hsplit hbuild
    cases hbuilt
    exact h.keep (List.append_nil _) rfl (fun _ _ => rfl)
  | aborted _ => exact absurd rfl hphase
  | _ => exact h.keep rfl rfl (fun _ _ => rfl)

theorem custody_effect (hreg : Registered sys) (hholds : R.Holds sys) (hkept : R.Kept C Q)
    {a : Action} (hq : Q sys a)
    (hbuilds : ∀ chain ∈ sys.session.activeChains,
      ∃ trajectory, buildMaterializedTrajectory chain none = .ok trajectory)
    (h : R.Custody sys) (heffect : Effect C sys a t) (hphase : t.session.phase ≠ .aborted) :
    R.Custody t := by
  refine custody_effect_of_first hreg hholds hkept hq ?_ h heffect hphase
  intro front chain back error hsplit hbuild
  obtain ⟨trajectory, hok⟩ := hbuilds chain (by simp [hsplit])
  rw [hok] at hbuild
  cases hbuild

/-- The rule for trajectories, where the rule for chains says that every chain can be
materialized. -/
theorem Kept.custody_run {sessionId : String} {promptLength responseLength : Option Int}
    {enable : Bool} {actions : List Action} (hkept : R.Kept C Q)
    (hbuilds : ∀ chain gens, R.chain chain gens →
      ∃ trajectory, buildMaterializedTrajectory chain none = .ok trajectory)
    (hnew : GatewaySession.create sessionId promptLength responseLength enable = .ok s)
    (hrun : runFrom C s actions = some sys)
    (hq : runs.Meets (System.step C) Q (System.initial s) actions) :
    Registered sys ∧ R.Holds sys ∧ (sys.session.phase ≠ .aborted → R.Custody sys) := by
  have hall : Coherent C sys ∧ Registered sys ∧ R.Holds sys ∧
      (sys.session.phase ≠ .aborted → R.Custody sys) := by
    apply runs.run_invariant (fun u => Coherent C u ∧ Registered u ∧ R.Holds u ∧
      (u.session.phase ≠ .aborted → R.Custody u)) ?_ hrun hq
    · obtain ⟨capacity, rfl⟩ := create_eq_ok hnew
      exact ⟨coherent_initial hnew, registered_initial hnew, .initial hnew, fun _ => .nil⟩
    · rintro u a v ⟨hco, hreg, hholds, hcustody⟩ hqa hstep
      have heffect := step_effect hco hstep
      refine ⟨coherent_effect hco heffect, registered_effect hco hreg heffect,
        hholds.effect hco hkept hqa heffect, ?_⟩
      intro hphase
      exact custody_effect hreg hholds hkept hqa
        (fun chain hmem => hbuilds chain _ (hholds.chains chain hmem))
        (hcustody (heffect.not_aborted hphase)) heffect hphase
  exact hall.2

end ChainRule

/-! ## What finalize returns -/

/-- The trajectory that `finalize` returns for a chain id. -/
inductive Returned (sys : System) : Trajectory → Nat → Prop
  | active (chain : ChainState) (trajectory : Trajectory)
      (hmem : chain ∈ sys.session.activeChains)
      (hbuild : buildMaterializedTrajectory chain none = .ok trajectory) :
      Returned sys { trajectory with rewardInfo := sys.session.rewardInfo } chain.chainId
  | closed (m : MaterializedChain) (id : Nat)
      (hmem : (m, id) ∈ sys.session.materializedChains.zip sys.ledger.closed) :
      Returned sys { m.trajectory with rewardInfo := sys.session.rewardInfo } id

namespace ChainRule

variable {R : ChainRule} {Q : System → Action → Prop}

/-- What the rule says about a returned trajectory. -/
theorem Custody.returned (h : R.Custody sys) (hholds : R.Holds sys) (hkept : R.Kept C Q)
    {trajectory : Trajectory} {id : Nat} (hreturned : Returned sys trajectory id) :
    ∃ built, trajectory = { built with rewardInfo := sys.session.rewardInfo } ∧
      R.closed built (sys.ledger.surviving id) := by
  cases hreturned with
  | active chain built hmem hbuild =>
    exact ⟨built, rfl, hkept.finalize chain _ built (hholds.chains chain hmem) hbuild⟩
  | closed m id hmem => exact ⟨m.trajectory, rfl, (List.forall₂_iff_zip.mp h).2 hmem⟩

/-- Each chain is returned once. -/
theorem Custody.finalized (h : R.Custody sys) {trajectories : List Trajectory}
    {s' : GatewaySession} (hfinalize : sys.session.finalize = (.ok trajectories, s')) :
    ∃ ids, ids.Perm (sys.session.chainIds ++ sys.ledger.closed) ∧
      List.Forall₂ (Returned sys) trajectories ids := by
  obtain ⟨_, built, hbuilt, rfl⟩ := GatewaySession.finalize_eq_ok hfinalize
  have hclosed : List.Forall₂ (fun m id => Returned sys
      { m.trajectory with rewardInfo := sys.session.rewardInfo } id)
      sys.session.materializedChains sys.ledger.closed :=
    List.forall₂_iff_zip.mpr ⟨h.length_eq, fun hmem => .closed _ _ hmem⟩
  have hactive : List.Forall₂ (fun m id => Returned sys
      { m.trajectory with rewardInfo := sys.session.rewardInfo } id)
      built sys.session.chainIds := by
    unfold GatewaySession.chainIds
    rw [List.forall₂_map_right_iff]
    apply forall₂_imp_of_mem hbuilt.flip
    exact fun m chain hmem hm => .active chain m.trajectory hmem hm.1
  have hall := List.rel_append hclosed hactive
  obtain ⟨ids, hforall, hperm⟩ : ∃ ids, List.Forall₂ (fun m id => Returned sys
      { m.trajectory with rewardInfo := sys.session.rewardInfo } id)
      ((sys.session.materializedChains ++ built).insertionSort
        (fun x y => x.orderSeq ≤ y.orderSeq)) ids ∧
      ids.Perm (sys.ledger.closed ++ sys.session.chainIds) := by
    have hsorted := List.perm_insertionSort (fun x y : MaterializedChain => x.orderSeq ≤ y.orderSeq)
      (sys.session.materializedChains ++ built)
    exact List.perm_comp_forall₂ hsorted hall
  refine ⟨ids, hperm.trans List.perm_append_comm, ?_⟩
  rw [List.forall₂_map_left_iff]
  exact hforall

end ChainRule

end uni_agent.session
