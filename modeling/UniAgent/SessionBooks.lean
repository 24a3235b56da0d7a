-- The books of a session. The ledger says which chain holds which generations, and which ones a
-- rollback dropped; the masks of the chains, the rollback counters and the order numbers of the
-- session agree with it in every state of a run.
import UniAgent.Custody

namespace uni_agent.session

open token_blocks

variable {C : MessageCodec} {s : GatewaySession} {request : InternalGenerationRequest}
  {encoded : EncodedData} {chain : ChainState} {P : Generation → Prop} {mode : Option Bool}
  {gens : List Generation}

/-! ## Counting tokens -/

def generatedTokens (gens : List Generation) : Nat := (gens.map (fun g => g.out.length)).sum

@[simp] theorem generatedTokens_append (xs ys : List Generation) :
    generatedTokens (xs ++ ys) = generatedTokens xs + generatedTokens ys := by
  simp [generatedTokens]

theorem generatedTokens_perm {xs ys : List Generation} (h : xs.Perm ys) :
    generatedTokens xs = generatedTokens ys := (h.map _).sum_eq

/-- Generations without an output count nothing. -/
theorem generatedTokens_filter (gens : List Generation) :
    generatedTokens (gens.filter (fun g => g.out ≠ [])) = generatedTokens gens := by
  induction gens with
  | nil => rfl
  | cons g rest ih =>
    unfold generatedTokens at ih ⊢
    by_cases hout : g.out = []
    · rw [List.filter_cons_of_neg (by simpa using hout), ih]
      simp [hout]
    · rw [List.filter_cons_of_pos (by simpa using hout), List.map_cons, List.sum_cons, ih]
      rfl

theorem generatedTokens_flatMap (ids : List Nat) (held : Nat → List Generation) :
    generatedTokens (ids.flatMap held) = (ids.map (fun id => generatedTokens (held id))).sum := by
  induction ids with
  | nil => rfl
  | cons id rest ih => simp [ih]

/-- The mask of a layout counts its generations. -/
theorem Grounded.count_mask {promptIds : List Token} {l : ResponseLayout}
    (h : Grounded P mode promptIds gens l) :
    (l.values 0 Generation.ones).count 1 = generatedTokens gens := by
  have hblocks : (l.blocks.map (fun b => b.gen.out.length)).sum =
      generatedTokens (l.blocks.map Block.gen) := by
    rw [generatedTokens, List.map_map]
    rfl
  calc (l.values 0 Generation.ones).count 1
      = (l.blocks.map (fun b => b.gen.out.length)).sum := l.count_mask
    _ = generatedTokens (gens.filter (fun g => g.out ≠ [])) := by rw [hblocks, h.generations]
    _ = generatedTokens gens := generatedTokens_filter gens

section EndsWithCall

variable {buffer : TrajectoryBuffer} {responseIdsLen : Nat}

theorem EndsWithCall.grounded (h : EndsWithCall C P mode buffer responseIdsLen gens) :
    ∃ l : ResponseLayout, Grounded P mode buffer.promptIds gens l ∧ Written mode buffer l := by
  obtain ⟨before, g, l, rfl, hlast, _, hwritten⟩ := h
  exact ⟨_, hlast.grounded.push hlast.call hlast.logs hlast.given, hwritten⟩

theorem EndsWithCall.count_mask (h : EndsWithCall C P mode buffer responseIdsLen gens) :
    buffer.responseMask.count 1 = generatedTokens gens := by
  obtain ⟨l, hgrounded, hwritten⟩ := h.grounded
  rw [hwritten.responseMask]
  exact hgrounded.count_mask

/-- What a rollback drops is the output of the last call. -/
theorem EndsWithCall.dropped (h : EndsWithCall C P mode buffer responseIdsLen gens) :
    (buffer.responseMask.drop responseIdsLen).sum = generatedTokens gens.getLast?.toList := by
  obtain ⟨before, g, l, rfl, hlast, hlen, hwritten⟩ := h
  have hmask : buffer.responseMask = l.values 0 Generation.ones ++ g.ones := by
    rw [hwritten.responseMask]
    exact l.values_push _ _ _ (by simp [Generation.ones])
  rw [hmask, ← hlen, ← length_mask l, List.drop_left]
  simp [Generation.ones, generatedTokens]

/-- Where the last call is the first with an output, the rollback drops all. -/
theorem EndsWithCall.all_dropped (h : EndsWithCall C P mode buffer 0 gens) :
    generatedTokens gens.getLast?.toList = generatedTokens gens := by
  obtain ⟨before, g, l, rfl, hlast, hlen, _⟩ := h
  have hblocks := hlast.grounded.blocks_nil (List.length_eq_zero_iff.mp hlen)
  have hbefore := hlast.grounded.generations
  rw [hblocks, List.map_nil] at hbefore
  have hnone : generatedTokens before = 0 := by
    rw [← generatedTokens_filter, ← hbefore]
    rfl
  rw [List.getLast?_concat, generatedTokens_append, hnone, Nat.zero_add]
  rfl

end EndsWithCall

/-! ## Calls that report their versions -/

/-- A call that reports its first step reports its last step too. -/
def VersionsReported (g : Generation) : Prop :=
  g.output.minGlobalSteps.isSome → g.output.maxGlobalSteps.isSome

theorem exists_maxOf (first : Int) (rest : List (Option Int)) (h : ∀ x ∈ rest, x.isSome) :
    ∃ best, maxOf (some first) rest = .ok (some best) := by
  induction rest generalizing first with
  | nil => exact ⟨first, rfl⟩
  | cons x rest ih =>
    obtain ⟨y, rfl⟩ := Option.isSome_iff_exists.mp (h x (by simp))
    obtain ⟨best, hbest⟩ := ih (max first y) (fun z hz => h z (by simp [hz]))
    exact ⟨best, hbest⟩

theorem exists_versionSpan {marks : List VersionMark}
    (h : ∀ mark ∈ marks, mark.1.isSome → mark.2.isSome) :
    ∃ span, versionSpanOf marks = .ok span := by
  unfold versionSpanOf
  have hall : ∀ entry ∈ marks.filterMap (fun mark => mark.1.map (fun low => (low, mark.2))),
      entry.2.isSome := by
    intro entry hentry
    obtain ⟨mark, hmark, heq⟩ := List.mem_filterMap.mp hentry
    obtain ⟨low, hlow, rfl⟩ := Option.map_eq_some_iff.mp heq
    exact h mark hmark (by simp [hlow])
  revert hall
  generalize marks.filterMap (fun mark => mark.1.map (fun low => (low, mark.2))) = entries
  intro hall
  cases entries with
  | nil => exact ⟨none, rfl⟩
  | cons first rest =>
    obtain ⟨low, high⟩ := first
    obtain ⟨high, rfl⟩ := Option.isSome_iff_exists.mp (hall (low, high) (by simp))
    obtain ⟨best, hbest⟩ := exists_maxOf high (rest.map Prod.snd) (by
      intro x hx
      obtain ⟨entry, hentry, rfl⟩ := List.mem_map.mp hx
      exact hall entry (by simp [hentry]))
    simp only [hbest, bind, Except.bind]
    exact ⟨_, rfl⟩

/-- A chain whose calls report their versions can be materialized. -/
theorem exists_build (haligned : chain.buffer.Aligned)
    (hversions : chain.buffer.generationVersions = gens.map Generation.mark)
    (hgens : ∀ g ∈ gens, VersionsReported g) (reason : Option String) :
    ∃ t, buildMaterializedTrajectory chain reason = .ok t := by
  have hmarks : ∀ mark ∈ chain.buffer.generationVersions, mark.1.isSome → mark.2.isSome := by
    intro mark hmark
    rw [hversions] at hmark
    obtain ⟨g, hg, rfl⟩ := List.mem_map.mp hmark
    exact hgens g hg
  obtain ⟨span, hspan⟩ := exists_versionSpan hmarks
  unfold buildMaterializedTrajectory
  refine ⟨_, bind_eq_ok.mpr ⟨(), assertResponseLogprobAlignment_eq_ok.mpr haligned,
    bind_eq_ok.mpr ⟨span, hspan, rfl⟩⟩⟩

/-! ## Tokens that a request in flight will drop -/

/-- The count that a request carries is that of the chain it rolled back. -/
def InFlight.CountsDropped (f : InFlight) : Prop :=
  ∀ chain, f.preparedChain = some chain → f.encoded.rollbackApplied = true →
    f.encoded.rollbackDroppedTrainableTokens =
      (chain.buffer.responseMask.drop chain.lastAssistantStart.responseIdsLen).sum

def droppedRule : ChainRule where
  chain := fun _ _ => True
  ready := fun f _ => f.CountsDropped
  full := fun f _ => f.CountsDropped
  closed := fun _ _ => True

theorem Reused.dropped {w : WorkingInputs} (h : Reused C chain true w) :
    w.rollbackDroppedTrainableTokens =
      (chain.buffer.responseMask.drop chain.lastAssistantStart.responseIdsLen).sum := by
  cases h with
  | rolledBack buffer images videos _ _ _ _ _ _ => rfl

theorem droppedRule_kept : droppedRule.Kept C (fun _ _ => True) := by
  constructor
  · intro sys request encoded _ _ _ _ _ chain hchain
    cases hchain
  · intro sys request encoded chain gens _ hreuse hroom _ chain' hchain hrollback
    cases hchain
    obtain ⟨w, ids, images, videos, hextends, _⟩ := hreuse.extends hroom
    have hreused := hextends.reused
    simp only at hrollback ⊢
    rw [hrollback] at hreused
    rw [hextends.dropped]
    exact hreused.dropped
  · intro sys f output encoded gens _ _ hready habsorb
    obtain ⟨logProbs, rfl, _⟩ := absorbOutput_eq_ok habsorb
    exact hready
  all_goals
    intros
    trivial

/-! ## The books of a session -/

/-- The rollback counters of the session are those of the ledger. -/
structure Booked (s : GatewaySession) (l : Ledger) : Prop where
  rollbacks : l.dropped.length = s.rollbackCount
  tokens : s.rollbackDroppedTrainableTokensTotal = generatedTokens l.dropped.flatten

/-- A recorded rollback books the generations that it drops. -/
theorem Booked.record {l l' : Ledger} (h : Booked s l)
    (hdropped : l'.dropped = if encoded.rollbackApplied then l.dropped ++ [gens] else l.dropped)
    (htokens : encoded.rollbackApplied = true →
      encoded.rollbackDroppedTrainableTokens = generatedTokens gens) :
    Booked (s.recordRollbackStats encoded) l' := by
  unfold GatewaySession.recordRollbackStats
  cases hrollback : encoded.rollbackApplied with
  | false =>
    rw [hrollback, if_neg Bool.false_ne_true] at hdropped
    exact ⟨by simpa [hdropped] using h.rollbacks, by simpa [hdropped] using h.tokens⟩
  | true =>
    rw [hrollback, if_pos rfl] at hdropped
    refine ⟨?_, ?_⟩
    · simp [hdropped, h.rollbacks]
    · simp [hdropped, h.tokens, htokens hrollback]

theorem dropped_commit (l : Ledger) (id : Nat) (rolledBack : Bool) (g : Generation) :
    (l.commit id rolledBack g).dropped =
      if rolledBack then l.dropped ++ [(l.surviving id).getLast?.toList] else l.dropped := by
  cases rolledBack <;> rfl

theorem dropped_close (l : Ledger) (id : Nat) (rolledBack : Bool) :
    (l.close id rolledBack).dropped =
      if rolledBack then l.dropped ++ [(l.surviving id).getLast?.toList] else l.dropped := by
  cases rolledBack <;> rfl

/-- The chain was touched, and last at its order number. -/
def Timed (l : Ledger) (id seq : Nat) : Prop := id ∈ l.touched ∧ seq = l.lastTouch id

section Timed

variable {l l' : Ledger} {id id' seq : Nat}

theorem timed_self (h : l'.touched = l.touched ++ [id]) : Timed l' id (l.touched.length + 1) :=
  ⟨by simp [h], (Ledger.lastTouch_self h).symm⟩

theorem Timed.other (ht : Timed l id' seq) (h : l'.touched = l.touched ++ [id])
    (hne : id' ≠ id) : Timed l' id' seq := by
  refine ⟨by simp [h, ht.1], ?_⟩
  rw [Ledger.lastTouch_of_ne h hne]
  exact ht.2

theorem Timed.same (ht : Timed l id' seq) (h : l'.touched = l.touched) : Timed l' id' seq := by
  unfold Timed Ledger.lastTouch at ht ⊢
  rw [h]
  exact ht

end Timed

/-- A materialized chain has the tokens of the generations that its id holds. -/
structure Materialized (P : Generation → Prop) (l : Ledger) (m : MaterializedChain) (id : Nat) :
    Prop where
  told : ∃ layout, Told P none m.trajectory (l.surviving id) layout
  timed : Timed l id m.orderSeq

theorem Materialized.keep {l l' : Ledger} {m : MaterializedChain} {id : Nat}
    (h : Materialized P l m id) (hsurviving : l'.surviving id = l.surviving id)
    (htimed : Timed l' id m.orderSeq) : Materialized P l' m id := by
  refine ⟨?_, htimed⟩
  rw [hsurviving]
  exact h.told

/-- The books of a session are in order. -/
structure Balanced (P : Generation → Prop) (sys : System) : Prop where
  once : (sys.session.chainIds ++ sys.ledger.closed).Nodup
  bound : ∀ id ∈ sys.ledger.closed, id < sys.session.nextChainId
  accounts : sys.ledger.Accounts (sys.session.chainIds ++ sys.ledger.closed)
  booked : Booked sys.session sys.ledger
  clock : sys.ledger.touched.length = sys.session.orderSeq
  active : ∀ chain ∈ sys.session.activeChains, Timed sys.ledger chain.chainId chain.updatedSeq
  materialized : List.Forall₂ (Materialized P sys.ledger) sys.session.materializedChains
    sys.ledger.closed

variable {sys t : System}

theorem balanced_initial {sessionId : String} {promptLength responseLength : Option Int}
    {enable : Bool}
    (hnew : GatewaySession.create sessionId promptLength responseLength enable = .ok s) :
    Balanced P (System.initial s) := by
  obtain ⟨capacity, rfl⟩ := create_eq_ok hnew
  constructor
  · simp [System.initial, GatewaySession.chainIds]
  · simp [System.initial]
  · simp [System.initial, GatewaySession.chainIds, Ledger.Accounts]
  · exact ⟨rfl, rfl⟩
  · rfl
  · simp [System.initial]
  · exact .nil

/-- Steps that leave the chains, the counters and the ledger. -/
theorem Balanced.keep (h : Balanced P sys) (hsession : Untouched sys.session t.session)
    (hledger : t.ledger = sys.ledger) : Balanced P t := by
  have hids : t.session.chainIds = sys.session.chainIds := by
    unfold GatewaySession.chainIds
    rw [hsession.activeChains]
  constructor
  · rw [hids, hledger]
    exact h.once
  · rw [hledger, hsession.nextChainId]
    exact h.bound
  · rw [hids, hledger]
    exact h.accounts
  · rw [hledger]
    exact ⟨h.booked.rollbacks.trans hsession.rollbackCount.symm,
      hsession.dropped.trans h.booked.tokens⟩
  · rw [hledger, hsession.orderSeq]
    exact h.clock
  · rw [hsession.activeChains, hledger]
    exact h.active
  · rw [hsession.materializedChains, hledger]
    exact h.materialized

/-- The materialized chains stay as they were when another chain is touched. -/
theorem Balanced.materialized_keep (h : Balanced P sys) {l : Ledger} {id : Nat}
    (hid : id ∉ sys.ledger.closed) (htouched : l.touched = sys.ledger.touched ++ [id])
    (hsurviving : ∀ id', id' ≠ id → l.surviving id' = sys.ledger.surviving id') :
    List.Forall₂ (Materialized P l) sys.session.materializedChains sys.ledger.closed := by
  apply forall₂_imp_of_mem h.materialized
  intro m id' hid' hm
  have hne : id' ≠ id := by
    rintro rfl
    exact hid hid'
  exact hm.keep (hsurviving id' hne) (hm.timed.other htouched hne)

theorem Balanced.committedNew (h : Balanced P sys) (hco : Coherent C sys) {c : ChainState}
    {g : Generation} {finished : List (Nat × Except PyError GenerationOutcome)}
    {inFlight : List InFlight} (hborn : sys.ledger.surviving sys.session.nextChainId = [])
    (hid : c.chainId = sys.session.nextChainId) (hseq : c.updatedSeq = sys.session.orderSeq + 1) :
    Balanced P { sys with
      session := { sys.session with
        orderSeq := sys.session.orderSeq + 1
        nextChainId := sys.session.nextChainId + 1
        activeChains := sys.session.activeChains ++ [c] }
      ledger := sys.ledger.commit sys.session.nextChainId false g
      finished, inFlight } := by
  have hnew : sys.session.nextChainId ∉ sys.session.chainIds ++ sys.ledger.closed :=
    Registered.next_not_mem ⟨h.once, h.bound⟩ hco
  have hperm : ((sys.session.activeChains ++ [c]).map ChainState.chainId ++
      sys.ledger.closed).Perm
        (sys.session.nextChainId :: (sys.session.chainIds ++ sys.ledger.closed)) := by
    rw [List.map_append, List.map_singleton, hid, List.append_assoc]
    exact List.perm_middle
  have htouched : (sys.ledger.commit sys.session.nextChainId false g).touched =
      sys.ledger.touched ++ [sys.session.nextChainId] := Ledger.touched_commit
  constructor
  · simp only [Ledger.closed_commit]
    exact hperm.nodup_iff.mpr (List.nodup_cons.mpr ⟨hnew, h.once⟩)
  · intro id hid'
    rw [Ledger.closed_commit] at hid'
    exact (h.bound id hid').trans (Nat.lt_succ_self _)
  · simp only [Ledger.closed_commit]
    exact ((h.accounts.born hborn).commit hnew).perm hperm.symm
  · exact ⟨h.booked.rollbacks, h.booked.tokens⟩
  · simp [h.clock]
  · intro c' hc'
    rcases List.mem_append.mp hc' with hc' | hc'
    · apply (h.active c' hc').other htouched
      have := hco.chainIds_lt c' hc'
      omega
    · cases List.mem_singleton.mp hc'
      rw [hid, hseq, ← h.clock]
      exact timed_self htouched
  · simp only [Ledger.closed_commit]
    exact h.materialized_keep (fun hmem => hnew (List.mem_append_right _ hmem)) htouched
      (fun id' hne => Ledger.surviving_commit_of_ne _ _ _ _ hne)

/-- What stands in the books next to one active chain. -/
structure Beside (sys : System) (id : Nat) (rest : List Nat) : Prop where
  perm : (sys.session.chainIds ++ sys.ledger.closed).Perm (id :: rest)
  not_mem : id ∉ rest
  nodup : rest.Nodup
  not_closed : id ∉ sys.ledger.closed

theorem Balanced.beside (h : Balanced P sys) {before after : List ChainState}
    (hsplit : sys.session.activeChains = before ++ chain :: after) :
    Beside sys chain.chainId ((before ++ after).map ChainState.chainId ++ sys.ledger.closed) := by
  have hperm : (sys.session.chainIds ++ sys.ledger.closed).Perm
      (chain.chainId :: ((before ++ after).map ChainState.chainId ++ sys.ledger.closed)) :=
    chainIds_perm hsplit rfl
  have hnodup := hperm.nodup_iff.mp h.once
  obtain ⟨hnot, hrest⟩ := List.nodup_cons.mp hnodup
  exact ⟨hperm, hnot, hrest, fun hmem => hnot (List.mem_append_right _ hmem)⟩

/-- The active chains that are not touched. -/
theorem Balanced.untouched (h : Balanced P sys) {l : Ledger} {before after : List ChainState}
    {c : ChainState} (hco : Coherent C sys)
    (hsplit : sys.session.activeChains = before ++ chain :: after)
    (htouched : l.touched = sys.ledger.touched ++ [chain.chainId]) (hc : c ∈ before ++ after) :
    Timed l c.chainId c.updatedSeq := by
  obtain ⟨hne, hmem⟩ := ChainRule.ne_of_split hco hsplit hc
  exact (h.active c hmem).other htouched hne

theorem Balanced.committedReuse (h : Balanced P sys) (hco : Coherent C sys) {f : InFlight}
    {c : ChainState} {g : Generation} {before after : List ChainState} {reserved : List Nat}
    {finished : List (Nat × Except PyError GenerationOutcome)} {inFlight : List InFlight}
    (hsplit : sys.session.activeChains = before ++ chain :: after)
    (hid : c.chainId = chain.chainId) (hseq : c.updatedSeq = sys.session.orderSeq + 1)
    (hdropped : f.encoded.rollbackApplied = true → f.encoded.rollbackDroppedTrainableTokens =
      generatedTokens (sys.ledger.surviving chain.chainId).getLast?.toList) :
    Balanced P { sys with
      session := { sys.session.recordRollbackStats f.encoded with
        orderSeq := sys.session.orderSeq + 1
        reservedChainIds := reserved
        activeChains := before ++ c :: after }
      ledger := sys.ledger.commit chain.chainId f.encoded.rollbackApplied g
      finished, inFlight } := by
  have hbeside := h.beside hsplit
  have hids : (before ++ c :: after).map ChainState.chainId = sys.session.chainIds := by
    unfold GatewaySession.chainIds
    simp [hsplit, hid]
  have htouched : (sys.ledger.commit chain.chainId f.encoded.rollbackApplied g).touched =
      sys.ledger.touched ++ [chain.chainId] := Ledger.touched_commit
  have hbooked : Booked (sys.session.recordRollbackStats f.encoded)
      (sys.ledger.commit chain.chainId f.encoded.rollbackApplied g) :=
    h.booked.record (dropped_commit _ _ _ _) hdropped
  constructor
  · simp only [GatewaySession.chainIds, hids, Ledger.closed_commit]
    exact h.once
  · simpa using h.bound
  · simp only [GatewaySession.chainIds, hids, Ledger.closed_commit]
    exact ((h.accounts.perm hbeside.perm).commit hbeside.not_mem).perm hbeside.perm.symm
  · exact ⟨hbooked.rollbacks, hbooked.tokens⟩
  · simp [h.clock]
  · intro c' hc'
    have hcases : c' ∈ before ++ after ∨ c' = c := by
      simp only [List.mem_append, List.mem_cons] at hc' ⊢
      tauto
    rcases hcases with hc' | rfl
    · exact h.untouched hco hsplit htouched hc'
    · rw [hid, hseq, ← h.clock]
      exact timed_self htouched
  · simp only [Ledger.closed_commit, GatewaySession.recordRollbackStats_materialized]
    exact h.materialized_keep hbeside.not_closed htouched
      (fun id' hne => Ledger.surviving_commit_of_ne _ _ _ _ hne)

theorem Balanced.dropped (h : Balanced P sys) {before after : List ChainState} {next : Nat}
    {finished : List (Nat × Except PyError GenerationOutcome)}
    (hsplit : sys.session.activeChains = before ++ chain :: after)
    (hrollback : encoded.rollbackApplied = true)
    (hdropped : encoded.rollbackDroppedTrainableTokens =
      generatedTokens (sys.ledger.surviving chain.chainId)) :
    Balanced P { sys with
      session := { sys.session.recordRollbackStats encoded with
        activeChains := before ++ after }
      nextRequestId := next
      ledger := sys.ledger.delete chain.chainId
      finished } := by
  have hbeside := h.beside hsplit
  have hbooked : Booked (sys.session.recordRollbackStats encoded)
      (sys.ledger.delete chain.chainId) := by
    apply h.booked.record ?_ (fun _ => hdropped)
    rw [hrollback, if_pos rfl]
    rfl
  constructor
  · exact hbeside.nodup
  · simpa using h.bound
  · exact (h.accounts.perm hbeside.perm).delete hbeside.not_mem
  · exact ⟨hbooked.rollbacks, hbooked.tokens⟩
  · simpa using h.clock
  · intro c hc
    have hmem : c ∈ sys.session.activeChains := by
      rw [hsplit]
      rcases List.mem_append.mp hc with hc | hc
      · exact List.mem_append_left _ hc
      · exact List.mem_append_right _ (List.mem_cons_of_mem _ hc)
    exact (h.active c hmem).same rfl
  · simp only [GatewaySession.recordRollbackStats_materialized]
    apply forall₂_imp_of_mem h.materialized
    intro m id hid hm
    have hne : id ≠ chain.chainId := by
      rintro rfl
      exact hbeside.not_closed hid
    exact hm.keep (Ledger.surviving_delete_of_ne _ _ hne) (hm.timed.same rfl)

theorem Balanced.closed (h : Balanced P sys) (hco : Coherent C sys)
    {before after : List ChainState} {trajectory : Trajectory} {next : Nat}
    {finished : List (Nat × Except PyError GenerationOutcome)}
    (hsplit : sys.session.activeChains = before ++ chain :: after)
    (htold : ∃ layout, Told P none trajectory
      (keptOf encoded.rollbackApplied (sys.ledger.surviving chain.chainId)) layout)
    (hdropped : encoded.rollbackApplied = true → encoded.rollbackDroppedTrainableTokens =
      generatedTokens (sys.ledger.surviving chain.chainId).getLast?.toList) :
    Balanced P { sys with
      session := { sys.session.recordRollbackStats encoded with
        orderSeq := sys.session.orderSeq + 1
        materializedChains := sys.session.materializedChains ++
          [⟨trajectory, sys.session.orderSeq + 1⟩]
        activeChains := before ++ after }
      nextRequestId := next
      ledger := sys.ledger.close chain.chainId encoded.rollbackApplied
      finished } := by
  have hbeside := h.beside hsplit
  have hbooked : Booked (sys.session.recordRollbackStats encoded)
      (sys.ledger.close chain.chainId encoded.rollbackApplied) :=
    h.booked.record (dropped_close _ _ _) hdropped
  have htouched : (sys.ledger.close chain.chainId encoded.rollbackApplied).touched =
      sys.ledger.touched ++ [chain.chainId] := Ledger.touched_close
  have hperm : ((before ++ after).map ChainState.chainId ++
      (sys.ledger.closed ++ [chain.chainId])).Perm
        (chain.chainId :: ((before ++ after).map ChainState.chainId ++ sys.ledger.closed)) := by
    rw [← List.append_assoc]
    exact List.perm_append_singleton _ _
  constructor
  · simp only [Ledger.closed_close]
    exact hperm.nodup_iff.mpr (List.nodup_cons.mpr ⟨hbeside.not_mem, hbeside.nodup⟩)
  · intro id hid
    simp only [Ledger.closed_close] at hid
    rcases List.mem_append.mp hid with hid | hid
    · simpa using h.bound id hid
    · cases List.mem_singleton.mp hid
      simpa using hco.chainIds_lt chain (by simp [hsplit])
  · simp only [Ledger.closed_close]
    exact ((h.accounts.perm hbeside.perm).close hbeside.not_mem).perm hperm.symm
  · exact ⟨hbooked.rollbacks, hbooked.tokens⟩
  · simp [h.clock]
  · exact fun c hc => h.untouched hco hsplit htouched hc
  · simp only [Ledger.closed_close]
    apply List.rel_append
    · exact h.materialized_keep hbeside.not_closed htouched
        (fun id' hne => Ledger.surviving_close_of_ne _ _ _ hne)
    · refine .cons ⟨?_, ?_⟩ .nil
      · rw [Ledger.surviving_close_self]
        exact htold
      · rw [← h.clock]
        exact timed_self htouched

theorem Balanced.finalized (h : Balanced P sys) (hco : Coherent C sys)
    {built : List MaterializedChain}
    {reserved : List Nat} {phase : SessionPhase}
    (htold : ∀ chain ∈ sys.session.activeChains, ∀ trajectory,
      buildMaterializedTrajectory chain none = .ok trajectory →
        ∃ layout, Told P none trajectory (sys.ledger.surviving chain.chainId) layout)
    (hbuilt : List.Forall₂ (fun chain m =>
      buildMaterializedTrajectory chain none = .ok m.trajectory ∧
        m.orderSeq = chain.updatedSeq) sys.session.activeChains built) :
    Balanced P { sys with
      session := { sys.session with
        materializedChains := sys.session.materializedChains ++ built
        activeChains := []
        reservedChainIds := reserved
        phase }
      ledger := sys.ledger.closeAll sys.session.chainIds } := by
  have hperm : (sys.session.chainIds ++ sys.ledger.closed).Perm
      (sys.ledger.closed ++ sys.session.chainIds) := List.perm_append_comm
  constructor
  · exact hperm.nodup_iff.mp h.once
  · intro id hid
    rcases List.mem_append.mp hid with hid | hid
    · exact h.bound id hid
    · obtain ⟨c, hc, rfl⟩ := List.mem_map.mp hid
      exact hco.chainIds_lt c hc
  · exact h.accounts.perm hperm
  · exact ⟨h.booked.rollbacks, h.booked.tokens⟩
  · exact h.clock
  · simp
  · apply List.rel_append
    · exact h.materialized.imp (fun _ _ hm => hm.keep rfl (hm.timed.same rfl))
    · unfold GatewaySession.chainIds
      rw [List.forall₂_map_right_iff]
      apply forall₂_imp_of_mem hbuilt.flip
      rintro m c hc ⟨hbuild, hseq⟩
      refine ⟨htold c hc m.trajectory hbuild, ?_⟩
      rw [hseq]
      exact (h.active c hc).same rfl

/-! ## Every run keeps the books -/

/-- The calls of a session that keeps its books: their outputs do not end like the assistant
prefix, and they report their versions. -/
structure Bookable (C : MessageCodec) (calls : List Generation) (g : Generation) : Prop where
  call : g ∈ calls
  ends : EndsNoOutput C g
  versions : VersionsReported g

/-- The laws about chains that the books rest on. -/
structure Bookkeeping (C : MessageCodec) (P : Generation → Prop) (sys : System) : Prop where
  coherent : Coherent C sys
  shape : (shapeRule C).Holds sys
  truth : (truthRule C P none).Holds sys
  counts : droppedRule.Holds sys

theorem bookkeeping_effect (hne : C.assistantPrefix ≠ []) (hlong : LongIncrements C)
    (hends : ∀ g, P g → EndsNoOutput C g) (hbooks : Bookkeeping C P sys) {a : Action}
    (hq : TruthStep P none sys a) (heffect : Effect C sys a t) : Bookkeeping C P t := by
  constructor
  · exact coherent_effect hbooks.coherent heffect
  · exact hbooks.shape.effect hbooks.coherent shapeRule_kept trivial heffect
  · exact hbooks.truth.effect hbooks.coherent (truthRule_kept hne hlong hends) hq heffect
  · exact hbooks.counts.effect hbooks.coherent droppedRule_kept trivial heffect

section Books

variable (hversions : ∀ g, P g → VersionsReported g)

theorem EndsWithCall.calls {buffer : TrajectoryBuffer} {responseIdsLen : Nat}
    (h : EndsWithCall C P mode buffer responseIdsLen gens) : ∀ g ∈ gens, P g := by
  obtain ⟨l, hgrounded, _⟩ := h.grounded
  exact hgrounded.calls

include hversions

/-- No active chain fails to be materialized. -/
theorem Bookkeeping.exists_build (h : Bookkeeping C P sys)
    (hmem : chain ∈ sys.session.activeChains) (reason : Option String) :
    ∃ trajectory, buildMaterializedTrajectory chain reason = .ok trajectory := by
  have hshape := h.shape.chains chain hmem
  have hcalls := (h.truth.chains chain hmem).calls
  exact uni_agent.session.exists_build hshape.buffer.aligned hshape.buffer.versions
    (fun g hg => hversions g (hcalls g hg)) reason

/-- No closure fails. -/
theorem Bookkeeping.exists_close (h : Bookkeeping C P sys)
    (hreuse : Reuses C sys.session request encoded chain)
    (hfull : encoded.capacityExhausted = true) (reason : Option String) :
    ∃ trajectory, buildMaterializedTrajectory
      (GatewaySession.chainToMaterialize chain encoded) reason = .ok trajectory := by
  have hmem := (eligible_of_selectChain hreuse.select).1
  obtain ⟨w, hreused, hbuffer, _⟩ := hreuse.exhausted hfull
  have hshape := hreused.shape (h.shape.chains chain hmem).buffer
  rw [← closing_buffer hreused hbuffer] at hshape
  have hcalls := (h.truth.chains chain hmem).calls
  apply uni_agent.session.exists_build hshape.aligned hshape.versions
  intro g hg
  exact hversions g (hcalls g ((keptOf_sublist _ _).subset hg))

omit hversions

/-- The tokens that a closure records as dropped are those of the last call. -/
theorem Bookkeeping.closure_dropped (h : Bookkeeping C P sys)
    (hreuse : Reuses C sys.session request encoded chain)
    (hfull : encoded.capacityExhausted = true) (hrollback : encoded.rollbackApplied = true) :
    encoded.rollbackDroppedTrainableTokens =
      generatedTokens (sys.ledger.surviving chain.chainId).getLast?.toList := by
  have hmem := (eligible_of_selectChain hreuse.select).1
  obtain ⟨w, hreused, _, _, _, _, _, hdropped⟩ := hreuse.exhausted hfull
  rw [hrollback] at hreused
  rw [hdropped, hreused.dropped]
  exact (h.truth.chains chain hmem).dropped

/-- The tokens that a commit records as dropped are those of the last call. -/
theorem Bookkeeping.commit_dropped (h : Bookkeeping C P sys) {f : InFlight} {output : TokenOutput}
    (hactive : sys.session.phase = .active) (hmem : f ∈ sys.inFlight)
    (hstage : f.stage = .generated output) (hchosen : f.preparedChain = some chain)
    (hrollback : f.encoded.rollbackApplied = true) :
    f.encoded.rollbackDroppedTrainableTokens =
      generatedTokens (sys.ledger.surviving chain.chainId).getLast?.toList := by
  have hchain := (h.coherent.reserved hactive f hmem chain hchosen).2
  rw [h.counts.full f hmem output hstage chain hchosen hrollback]
  exact (h.truth.chains chain hchain).dropped

include hversions

theorem balanced_effect (hne : C.assistantPrefix ≠ []) (hlong : LongIncrements C)
    (hends : ∀ g, P g → EndsNoOutput C g) (hbooks : Bookkeeping C P sys) {a : Action}
    (hq : TruthStep P none sys a) (h : Balanced P sys) (heffect : Effect C sys a t)
    (hphase : t.session.phase ≠ .aborted) : Balanced P t := by
  have hkept : (truthRule C P none).Kept C (TruthStep P none) := truthRule_kept hne hlong hends
  cases heffect with
  | idle _ session next finished hsession _ _ => exact h.keep hsession rfl
  | left _ f error _ _ => exact h.keep (.refl _) rfl
  | failed _ f error _ _ => exact h.keep (.refl _) rfl
  | released f error id _ _ _ =>
    apply h.keep
    · constructor <;> rfl
    · rfl
  | preparedFresh request encoded _ _ _ _ _ _ => exact h.keep (.refl _) rfl
  | preparedReuse request encoded chain _ _ => exact h.keep (untouched_reserveChain _ _) rfl
  | absorbed f output encoded _ _ _ => exact h.keep (.refl _) rfl
  | committedNew f output callIds assistantMsg start outcome _ _ =>
    exact h.committedNew hbooks.coherent (hbooks.truth.unborn _ (Nat.le_refl _)) rfl rfl
  | committedReuse f output callIds assistantMsg start outcome before after chain hcommits hchosen
      hsplit =>
    exact h.committedReuse hbooks.coherent hsplit rfl rfl
      (hbooks.commit_dropped hcommits.active hcommits.mem hcommits.stage hchosen)
  | dropped request encoded chain before after outcome hreuse hfull hsplit hrollback hstart =>
    apply h.dropped hsplit hrollback
    have hchain := hbooks.truth.chains chain (by simp [hsplit])
    change EndsWithCall C P none chain.buffer chain.lastAssistantStart.responseIdsLen _ at hchain
    rw [hstart] at hchain
    rw [hbooks.closure_dropped hreuse hfull hrollback, hchain.all_dropped]
  | closed request encoded chain before after outcome trajectory hreuse hfull hsplit hstart
      hbuild =>
    have hchain := hbooks.truth.chains chain (by simp [hsplit])
    exact h.closed hbooks.coherent hsplit
      (hkept.close sys request encoded chain _ trajectory hq hreuse hfull hstart hbuild hchain)
      (hbooks.closure_dropped hreuse hfull)
  | closeFailed request encoded chain error hreuse hfull hstart hbuild =>
    obtain ⟨trajectory, hok⟩ := hbooks.exists_close hversions hreuse hfull
      (some "max_trajectory_length")
    rw [hok] at hbuild
    cases hbuild
  | finalized built _ hbuilt =>
    apply h.finalized hbooks.coherent ?_ hbuilt
    intro chain hmem trajectory hbuild
    exact hkept.finalize chain _ trajectory (hbooks.truth.chains chain hmem) hbuild
  | finalizeFailed front back chain error built _ hsplit _ hbuild =>
    have hmem : chain ∈ sys.session.activeChains := by simp [hsplit]
    obtain ⟨trajectory, hok⟩ := hbooks.exists_build hversions hmem none
    rw [hok] at hbuild
    cases hbuild
  | aborted _ => exact absurd rfl hphase

/-- The books are in order after every run that was not aborted. -/
theorem balanced_run {sessionId : String} {promptLength responseLength : Option Int}
    {enable : Bool} {actions : List Action} (hne : C.assistantPrefix ≠ [])
    (hlong : LongIncrements C) (hends : ∀ g, P g → EndsNoOutput C g)
    (hnew : GatewaySession.create sessionId promptLength responseLength enable = .ok s)
    (hrun : runFrom C s actions = some sys)
    (hq : runs.Meets (System.step C) (TruthStep P none) (System.initial s) actions) :
    Bookkeeping C P sys ∧ (sys.session.phase ≠ .aborted → Balanced P sys) := by
  apply runs.run_invariant
    (fun u => Bookkeeping C P u ∧ (u.session.phase ≠ .aborted → Balanced P u)) ?_ hrun hq
  · have hbooks : Bookkeeping C P (System.initial s) :=
      ⟨coherent_initial hnew, .initial hnew, .initial hnew, .initial hnew⟩
    exact ⟨hbooks, fun _ => balanced_initial hnew⟩
  · rintro u a v ⟨hbooks, hbalanced⟩ hqa hstep
    have heffect := step_effect hbooks.coherent hstep
    refine ⟨bookkeeping_effect hne hlong hends hbooks hqa heffect, ?_⟩
    intro hphase
    exact balanced_effect hversions hne hlong hends hbooks hqa
      (hbalanced (heffect.not_aborted hphase)) heffect hphase

end Books

end uni_agent.session
