-- Where the tokens of a trajectory come from. A response is made of blocks: some context tokens,
-- and after them the whole output of one call, which was given exactly what stands before its
-- output. A rollback takes the assistant prefix back, and must not reach into the output of an
-- earlier call.
import UniAgent.ChainShape
import UniAgent.TokenBlocks

namespace uni_agent.session

open token_blocks

variable {C : MessageCodec} {s : GatewaySession} {request : InternalGenerationRequest}
  {chain : ChainState} {P : Generation → Prop} {mode : Option Bool}

/-! ## Responses in blocks -/

def Generation.out (g : Generation) : List Token := g.output.tokenIds

/-- The logprobs of a call, and none where it has none. -/
def Generation.logs (g : Generation) : List PyFloat := g.output.logProbs.getD []

/-- The mask of a call. -/
def Generation.ones (g : Generation) : List Nat := List.replicate g.out.length 1

abbrev ResponseLayout := Layout Token Generation

/-- The response of a buffer is that of a layout, with its mask. Where the session has one
logprobs flag, `mode`, its logprobs are those of the layout too. -/
structure Written (mode : Option Bool) (buffer : TrajectoryBuffer) (l : ResponseLayout) :
    Prop where
  responseIds : buffer.responseIds = l.tokens Generation.out
  responseMask : buffer.responseMask = l.values 0 Generation.ones
  responseLogprobs : ∀ flag, mode = some flag →
    buffer.responseLogprobs = if flag then l.values 0 Generation.logs else []

/-- The blocks of a layout are the generations with an output, in order, and each of them was
given what stands before its output. -/
structure Grounded (P : Generation → Prop) (mode : Option Bool) (promptIds : List Token)
    (gens : List Generation) (l : ResponseLayout) : Prop where
  generations : l.blocks.map Block.gen = gens.filter (fun g => g.out ≠ [])
  calls : ∀ g ∈ gens, P g
  recorded : mode = some true → ∀ g ∈ gens, g.logs.length = g.out.length
  anchored : Anchored Generation.out Generation.contextIds promptIds l.blocks

namespace Grounded

variable {promptIds : List Token} {gens : List Generation} {l : ResponseLayout} {g : Generation}

theorem mem_gens (h : Grounded P mode promptIds gens l) {b : Block Token Generation}
    (hb : b ∈ l.blocks) : b.gen ∈ gens ∧ b.gen.out ≠ [] := by
  have hmem : b.gen ∈ l.blocks.map Block.gen := List.mem_map_of_mem hb
  rw [h.generations, List.mem_filter] at hmem
  simpa using hmem

theorem empty : Grounded P mode promptIds [] Layout.empty :=
  ⟨rfl, by simp, by simp, trivial⟩

theorem read (h : Grounded P mode promptIds gens l) (ids : List Token) :
    Grounded P mode promptIds gens (l.read ids) :=
  ⟨h.generations, h.calls, h.recorded, h.anchored⟩

theorem push (h : Grounded P mode promptIds gens l) (hcall : P g)
    (hlogs : mode = some true → g.logs.length = g.out.length)
    (hgiven : g.contextIds = promptIds ++ l.tokens Generation.out) :
    Grounded P mode promptIds (gens ++ [g]) (l.push Generation.out g) := by
  constructor
  · rw [l.gens_push, h.generations, List.filter_append]
  · intro g' hg'
    rcases List.mem_append.mp hg' with hg' | hg'
    · exact h.calls g' hg'
    · cases List.mem_singleton.mp hg'
      exact hcall
  · intro hmode g' hg'
    rcases List.mem_append.mp hg' with hg' | hg'
    · exact h.recorded hmode g' hg'
    · cases List.mem_singleton.mp hg'
      exact hlogs hmode
  · apply l.anchored_push
    · exact h.anchored
    · exact hgiven

/-- Without tokens there are no blocks. -/
theorem blocks_nil (h : Grounded P mode promptIds gens l) (hnil : l.tokens Generation.out = []) :
    l.blocks = [] := by
  rw [List.eq_nil_iff_forall_not_mem]
  intro b hb
  have htokens := (List.append_eq_nil_iff.mp hnil).1
  have hblock := List.flatMap_eq_nil_iff.mp htokens b hb
  exact (h.mem_gens hb).2 (List.append_eq_nil_iff.mp hblock).2

theorem length_logs (h : Grounded P mode promptIds gens l) (hmode : mode = some true) :
    (l.values 0 Generation.logs).length = (l.tokens Generation.out).length := by
  apply Layout.length_values
  intro b hb
  exact h.recorded hmode b.gen (h.mem_gens hb).1

end Grounded

theorem length_mask (l : ResponseLayout) :
    (l.values 0 Generation.ones).length = (l.tokens Generation.out).length := by
  apply Layout.length_values
  intro b _
  simp [Generation.ones]

namespace Written

variable {buffer : TrajectoryBuffer} {l : ResponseLayout}

theorem start (promptIds : List Token) : Written mode { promptIds } Layout.empty := by
  constructor
  · rfl
  · rfl
  · simp

theorem read (h : Written mode buffer l) {logprobs : Bool}
    (hasks : ∀ flag, mode = some flag → logprobs = flag) (ids : List Token) :
    Written mode (appendContext logprobs buffer ids) (l.read ids) := by
  constructor
  · simp [appendContext, h.responseIds]
  · simp [appendContext, h.responseMask]
  · intro flag hmode
    have hlog := h.responseLogprobs flag hmode
    rw [hasks flag hmode]
    cases flag with
    | false => simpa [appendContext] using hlog
    | true => simpa [appendContext] using hlog

end Written

/-! ## A chain and its last call -/

/-- The response before the last call of a chain, and that call: it was given the prompt and
this response. -/
structure LastCall (C : MessageCodec) (P : Generation → Prop) (mode : Option Bool)
    (promptIds : List Token) (gens : List Generation) (l : ResponseLayout) (g : Generation) :
    Prop where
  grounded : Grounded P mode promptIds gens l
  roomy : l.Roomy Generation.out C.assistantPrefix.length
  call : P g
  logs : mode = some true → g.logs.length = g.out.length
  given : g.contextIds = promptIds ++ l.tokens Generation.out

/-- A buffer that ends with the output of a call, after a response of the given length. -/
def EndsWithCall (C : MessageCodec) (P : Generation → Prop) (mode : Option Bool)
    (buffer : TrajectoryBuffer) (responseIdsLen : Nat) (gens : List Generation) : Prop :=
  ∃ before g l, gens = before ++ [g] ∧ LastCall C P mode buffer.promptIds before l g ∧
    (l.tokens Generation.out).length = responseIdsLen ∧
    Written mode buffer (l.push Generation.out g)

/-- A trajectory and its layout. -/
structure Told (P : Generation → Prop) (mode : Option Bool) (t : Trajectory)
    (gens : List Generation)
    (l : ResponseLayout) : Prop where
  grounded : Grounded P mode t.promptIds gens l
  responseIds : t.responseIds = l.tokens Generation.out
  responseMask : t.responseMask = l.values 0 Generation.ones
  responseLogprobs : ∀ flag, mode = some flag → t.responseLogprobs =
    if flag = true ∧ t.responseIds ≠ [] then some (l.values 0 Generation.logs) else none

def truthRule (C : MessageCodec) (P : Generation → Prop) (mode : Option Bool) : ChainRule where
  chain := fun chain gens =>
    EndsWithCall C P mode chain.buffer chain.lastAssistantStart.responseIdsLen gens
  ready := fun f gens => Opened C f.request f.encoded ∧
    (∀ flag, mode = some flag → f.encoded.samplingParams.logprobs = flag) ∧
    ∃ l : ResponseLayout, Grounded P mode f.encoded.buffer.promptIds gens l ∧
      l.Roomy Generation.out C.assistantPrefix.length ∧ Written mode f.encoded.buffer l
  full := fun f gens => ∀ start, f.encoded.lastAssistantStart = some start →
    EndsWithCall C P mode f.encoded.buffer start.responseIdsLen gens
  closed := fun t gens => ∃ l, Told P mode t gens l

/-- The last token of the assistant prefix ends no output. -/
def EndsNoOutput (C : MessageCodec) (g : Generation) : Prop :=
  g.out.getLast? ≠ C.assistantPrefix.getLast?

/-- New messages are encoded to at least as many tokens as the assistant prefix has. -/
def LongIncrements (C : MessageCodec) : Prop :=
  ∀ messages images videos ids, messages ≠ [] →
    C.encodeIncremental messages images videos = .ok ids → C.assistantPrefix.length ≤ ids.length

/-! ## Rollback -/

theorem tokens_push_take (l : ResponseLayout) (g : Generation) :
    ((l.push Generation.out g).tokens Generation.out).take (l.tokens Generation.out).length =
      l.tokens Generation.out := by
  rw [Layout.tokens_push, List.take_left]

/-- The assistant prefix at the end of a response was read, not generated. -/
theorem exists_taken_back {promptIds : List Token} {gens : List Generation} {l : ResponseLayout}
    {g : Generation} (h : LastCall C P mode promptIds gens l g)
    (hne : C.assistantPrefix ≠ []) (hP : ∀ g, P g → EndsNoOutput C g)
    (hsuffix : C.assistantPrefix <:+ l.tokens Generation.out) :
    ∃ l' : ResponseLayout, l'.blocks = l.blocks ∧ l = l'.read C.assistantPrefix := by
  apply Layout.exists_read hsuffix
  apply h.roomy.length_le_gap hne ?_ hsuffix
  intro b hb
  exact hP b.gen (h.grounded.calls b.gen (h.grounded.mem_gens hb).1)

/-- What a rollback leaves of a chain has the blocks of the chain, up to its last call. -/
theorem rolledBack_truth {b : TrajectoryBuffer} (hne : C.assistantPrefix ≠ [])
    (hP : ∀ g, P g → EndsNoOutput C g) {gens : List Generation}
    (h : EndsWithCall C P mode chain.buffer chain.lastAssistantStart.responseIdsLen gens)
    (hb : RolledBack C chain b) :
    ∃ l : ResponseLayout, Grounded P mode b.promptIds gens.dropLast l ∧ Written mode b l := by
  obtain ⟨before, g, l, rfl, hlast, hlen, hwritten⟩ := h
  rw [List.dropLast_concat]
  cases hb with
  | intoPrompt promptIds hstart hprompt =>
    rw [hstart, List.length_eq_zero_iff] at hlen
    have hblocks := hlast.grounded.blocks_nil hlen
    refine ⟨Layout.empty, ⟨?_, hlast.grounded.calls, hlast.grounded.recorded, trivial⟩, ?_⟩
    · have hgens := hlast.grounded.generations
      rw [hblocks] at hgens
      exact hgens
    · constructor
      · rfl
      · rfl
      · simp
  | intoResponse responseIds hstart hresponse =>
    rw [hwritten.responseIds, ← hlen, tokens_push_take] at hresponse
    obtain ⟨l', hblocks, rfl⟩ := exists_taken_back hlast hne hP (hresponse ▸ List.suffix_append _ _)
    rw [Layout.tokens_read] at hresponse
    obtain rfl : l'.tokens Generation.out = responseIds := List.append_cancel_right hresponse
    have hgrounded : Grounded P mode chain.buffer.promptIds before l' := by
      obtain ⟨h1, h2, h3, h4⟩ := hlast.grounded
      exact ⟨h1, h2, h3, h4⟩
    refine ⟨l', hgrounded, rfl, ?_, ?_⟩
    · rw [hwritten.responseMask, Layout.values_push, Layout.values_read, ← length_mask l',
        List.append_assoc, List.take_left]
      simp [Generation.ones]
    · intro flag hmode
      rw [hwritten.responseLogprobs flag hmode]
      cases flag with
      | false => simp
      | true =>
        simp only [if_true]
        rw [Layout.values_push _ _ _ _ (hlast.logs hmode), Layout.values_read,
          ← hgrounded.length_logs hmode, List.append_assoc, List.take_left]

/-! ## What each operation keeps -/

theorem Reused.truth {rollback : Bool} {w : WorkingInputs} (h : Reused C chain rollback w)
    (hne : C.assistantPrefix ≠ []) (hP : ∀ g, P g → EndsNoOutput C g) {gens : List Generation}
    (hchain : EndsWithCall C P mode chain.buffer chain.lastAssistantStart.responseIdsLen gens) :
    ∃ l : ResponseLayout, Grounded P mode w.buffer.promptIds (keptOf rollback gens) l ∧
      Written mode w.buffer l ∧
      (rollback = false → l.Roomy Generation.out C.assistantPrefix.length) := by
  cases h with
  | whole _ =>
    obtain ⟨before, g, l, rfl, hlast, _, hwritten⟩ := hchain
    refine ⟨l.push Generation.out g, ?_, hwritten, fun _ => hlast.roomy.push g⟩
    exact hlast.grounded.push hlast.call hlast.logs hlast.given
  | rolledBack buffer images videos hb _ _ _ _ _ =>
    obtain ⟨l, hgrounded, hwritten⟩ := rolledBack_truth hne hP hchain hb
    exact ⟨l, hgrounded, hwritten, by simp⟩

/-- New messages are encoded to nothing, when there are none, or to at least the length of the
assistant prefix. -/
theorem SuffixEncoded.long {suffix : List Message} {ids : List Token} {media : MediaLists}
    (h : SuffixEncoded C suffix ids media) (hlong : LongIncrements C) :
    (suffix = [] ∧ ids = []) ∨ C.assistantPrefix.length ≤ ids.length := by
  cases h with
  | empty hempty => exact Or.inl ⟨hempty, rfl⟩
  | encoded ids images videos hne _ hids => exact Or.inr (hlong suffix images videos ids hne hids)

/-- The response of a request that goes on with a chain. -/
theorem Extends.truth {encoded : EncodedData} {w : WorkingInputs} {ids : List Token}
    {images videos : Option (List Media)} (h : Extends C request chain encoded w ids images videos)
    (hselect : s.selectionFor C request = some (chain, encoded.rollbackApplied))
    (hasks : ∀ flag, mode = some flag → request.samplingParams.logprobs = flag)
    (hne : C.assistantPrefix ≠ []) (hlong : LongIncrements C)
    (hP : ∀ g, P g → EndsNoOutput C g) {gens : List Generation}
    (hchain : EndsWithCall C P mode chain.buffer chain.lastAssistantStart.responseIdsLen gens) :
    ∃ l : ResponseLayout,
      Grounded P mode encoded.buffer.promptIds (keptOf encoded.rollbackApplied gens) l ∧
      l.Roomy Generation.out C.assistantPrefix.length ∧ Written mode encoded.buffer l := by
  obtain ⟨l, hgrounded, hwritten, hroomy⟩ := h.reused.truth hne hP hchain
  have hprompt : encoded.buffer.promptIds = w.buffer.promptIds := by
    rw [h.buffer]
    rfl
  refine ⟨l.read ids, ?_, ?_, ?_⟩
  · rw [hprompt]
    exact hgrounded.read ids
  · have hids := h.suffix.long hlong
    cases hrollback : encoded.rollbackApplied with
    | false =>
      apply (hroomy hrollback).read
      rcases hids with ⟨_, hids⟩ | hids
      · exact Or.inl hids
      · exact Or.inr hids
    | true =>
      rw [hrollback] at hselect hids
      rcases hids with ⟨hnil, _⟩ | hids
      · exact absurd hnil (suffix_ne_of_rollback hselect)
      · refine ⟨fun b hb => (hgrounded.mem_gens hb).2, Or.inr (Or.inl ?_)⟩
        simp only [Layout.read, List.length_append]
        omega
  · rw [h.buffer]
    exact hwritten.read hasks ids

theorem absorbed_truth {f : InFlight} {output : TokenOutput} {encoded : EncodedData}
    {gens : List Generation} {l : ResponseLayout} (hopened : Opened C f.request f.encoded)
    (hasks : ∀ flag, mode = some flag → f.encoded.samplingParams.logprobs = flag)
    (hgrounded : Grounded P mode f.encoded.buffer.promptIds gens l)
    (hroomy : l.Roomy Generation.out C.assistantPrefix.length)
    (hwritten : Written mode f.encoded.buffer l) (hcall : P (f.generation output))
    (habsorb : absorbOutput f.encoded output = .ok encoded) :
    EndsWithCall C P mode encoded.buffer f.encoded.buffer.responseIds.length
      (gens ++ [f.generation output]) := by
  obtain ⟨logProbs, rfl, _, hlog⟩ := absorbOutput_eq_ok habsorb
  have hlogs : mode = some true → (f.generation output).logs = logProbs ∧
      logProbs.length = output.tokenIds.length := by
    intro hmode
    rcases hlog with ⟨hfalse, _⟩ | ⟨_, hout, hlen⟩
    · rw [hasks true hmode] at hfalse
      cases hfalse
    · exact ⟨by simp [Generation.logs, InFlight.generation, hout], hlen⟩
  have hlength : mode = some true →
      (f.generation output).logs.length = (f.generation output).out.length := by
    intro hmode
    rw [(hlogs hmode).1, (hlogs hmode).2]
    rfl
  refine ⟨gens, f.generation output, l, rfl, ⟨hgrounded, hroomy, hcall, hlength, ?_⟩, ?_, ?_⟩
  · change f.encoded.contextIds = _
    rw [hopened.contextIds, hwritten.responseIds]
  · rw [hwritten.responseIds]
  · constructor
    · simp [hwritten.responseIds, Generation.out, InFlight.generation]
    · rw [Layout.values_push _ _ _ _ (by simp [Generation.ones])]
      simp [hwritten.responseMask, Generation.ones, Generation.out, InFlight.generation]
    · intro flag hmode
      have hold := hwritten.responseLogprobs flag hmode
      cases flag with
      | false =>
        rcases hlog with ⟨_, rfl⟩ | ⟨htrue, _⟩
        · simpa using hold
        · rw [hasks false hmode] at htrue
          cases htrue
      | true =>
        simp only [if_true] at hold ⊢
        rw [Layout.values_push _ _ _ _ (hlength hmode), (hlogs hmode).1, hold]

theorem told_of_build {gens : List Generation} {l : ResponseLayout} {reason : Option String}
    {t : Trajectory} (hgrounded : Grounded P mode chain.buffer.promptIds gens l)
    (hwritten : Written mode chain.buffer l)
    (hbuild : buildMaterializedTrajectory chain reason = .ok t) : Told P mode t gens l := by
  obtain ⟨_, span, _, rfl⟩ := build_eq_ok hbuild
  refine ⟨hgrounded, hwritten.responseIds, hwritten.responseMask, ?_⟩
  intro flag hmode
  simp only [hwritten.responseLogprobs flag hmode, hwritten.responseIds]
  cases flag with
  | false => simp
  | true =>
    have hlength := hgrounded.length_logs hmode
    by_cases hnil : l.tokens Generation.out = []
    · rw [hnil, List.length_nil, List.length_eq_zero_iff] at hlength
      simp [hnil, hlength]
    · have hlogs : l.values 0 Generation.logs ≠ [] := by
        intro hempty
        rw [hempty, List.length_nil] at hlength
        exact hnil (List.length_eq_zero_iff.mp hlength.symm)
      simp [hnil, hlogs]

/-- The steps of a session whose calls meet `P`, with the flag of `mode`. -/
structure TruthStep (P : Generation → Prop) (mode : Option Bool) (sys : System)
    (a : Action) : Prop where
  asks : ∀ flag, mode = some flag → AsksFor flag a
  calls : ∀ g ∈ sys.returned a, P g

theorem truthRule_kept (hne : C.assistantPrefix ≠ []) (hlong : LongIncrements C)
    (hP : ∀ g, P g → EndsNoOutput C g) : (truthRule C P mode).Kept C (TruthStep P mode) := by
  constructor
  · intro sys request encoded hq _ hprep hselect hroom
    obtain ⟨promptIds, _, _, hbuffer, _⟩ := prepare_fresh hprep hselect
    have hopened := opened_of_prepare hprep hroom
    refine ⟨hopened, ?_, Layout.empty, .empty, Layout.roomy_empty _, ?_⟩
    · intro flag hmode
      exact hopened.logprobs.trans (hq.asks flag hmode request rfl)
    · rw [hbuffer]
      exact Written.start promptIds
  · intro sys request encoded chain gens hq hreuse hroom hchain
    obtain ⟨w, ids, images, videos, hextends, _⟩ := hreuse.extends hroom
    have hopened := opened_of_prepare hreuse.prepared hroom
    have hasks : ∀ flag, mode = some flag → request.samplingParams.logprobs = flag :=
      fun flag hmode => hq.asks flag hmode request rfl
    exact ⟨hopened, fun flag hmode => hopened.logprobs.trans (hasks flag hmode),
      hextends.truth hreuse.select hasks hne hlong hP hchain⟩
  · intro sys f output encoded gens hq hmem hready habsorb
    obtain ⟨hopened, hasks, l, hgrounded, hroomy, hwritten⟩ := hready
    have hends := absorbed_truth hopened hasks hgrounded hroomy hwritten
      (hq.calls _ (mem_returned hmem output)) habsorb
    obtain ⟨logProbs, rfl, _⟩ := absorbOutput_eq_ok habsorb
    intro start hstart
    rw [hopened.start] at hstart
    cases hstart
    exact hends
  · intro sys f output callIds assistantMsg start chainId orderSeq gens _ hcommits _ hfull
    exact hfull start hcommits.start
  · intro sys request encoded chain gens t _ hreuse hexhausted _ hbuild hchain
    obtain ⟨w, hreused, hbuffer, _⟩ := hreuse.exhausted hexhausted
    obtain ⟨l, hgrounded, hwritten, _⟩ := hreused.truth hne hP hchain
    rw [← closing_buffer hreused hbuffer] at hgrounded hwritten
    exact ⟨l, told_of_build hgrounded hwritten hbuild⟩
  · intro chain gens t hchain hbuild
    obtain ⟨before, g, l, rfl, hlast, _, hwritten⟩ := hchain
    exact ⟨_, told_of_build (hlast.grounded.push hlast.call hlast.logs hlast.given) hwritten
      hbuild⟩

/-! ## Each call is committed once -/

/-- The commits have different requests, which are no longer in flight. -/
structure CommittedOnce (sys : System) : Prop where
  nodup : (sys.ledger.commits.map Generation.requestId).Nodup
  lt : ∀ g ∈ sys.ledger.commits, g.requestId < sys.nextRequestId
  gone : ∀ g ∈ sys.ledger.commits, ∀ f ∈ sys.inFlight, f.requestId ≠ g.requestId

variable {sys t : System}

/-- A step without a commit, after which only old and new requests are in flight. -/
theorem CommittedOnce.keep (h : CommittedOnce sys)
    (hcommits : t.ledger.commits = sys.ledger.commits)
    (hnext : sys.nextRequestId ≤ t.nextRequestId)
    (hflight : ∀ f ∈ t.inFlight, (∃ f' ∈ sys.inFlight, f'.requestId = f.requestId) ∨
      f.requestId = sys.nextRequestId) : CommittedOnce t := by
  constructor
  · rw [hcommits]
    exact h.nodup
  · intro g hg
    rw [hcommits] at hg
    exact (h.lt g hg).trans_le hnext
  · intro g hg f hf
    rw [hcommits] at hg
    rcases hflight f hf with ⟨f', hf', heq⟩ | heq
    · rw [← heq]
      exact h.gone g hg f' hf'
    · have := h.lt g hg
      omega

/-- A new request in flight has the next number. -/
theorem inFlight_of_append {f : InFlight} (hf : f.requestId = sys.nextRequestId) :
    ∀ g ∈ sys.inFlight ++ [f], (∃ f' ∈ sys.inFlight, f'.requestId = g.requestId) ∨
      g.requestId = sys.nextRequestId := by
  intro g hg
  rcases List.mem_append.mp hg with hg | hg
  · exact Or.inl ⟨g, hg, rfl⟩
  · obtain rfl := List.mem_singleton.mp hg
    exact Or.inr hf

/-- A request that goes on keeps its number. -/
theorem inFlight_of_update {f f' : InFlight} (hmem : f ∈ sys.inFlight)
    (hf : f'.requestId = f.requestId) :
    ∀ g ∈ (sys.update f').inFlight, (∃ f ∈ sys.inFlight, f.requestId = g.requestId) ∨
      g.requestId = sys.nextRequestId := by
  intro g hg
  rcases mem_update hg with rfl | ⟨hg, _⟩
  · exact Or.inl ⟨f, hmem, hf.symm⟩
  · exact Or.inl ⟨g, hg, rfl⟩

theorem CommittedOnce.commit (hco : Coherent C sys) (h : CommittedOnce sys) {f : InFlight}
    {output : TokenOutput} {result : Except PyError GenerationOutcome} {ledger : Ledger}
    {session : GatewaySession} (hmem : f ∈ sys.inFlight)
    (hcommits : ledger.commits = sys.ledger.commits ++ [f.generation output]) :
    CommittedOnce ({ sys with session, ledger }.finish f.requestId result) := by
  constructor
  · simp only [System.finish, hcommits, List.map_append, List.map_cons, List.map_nil]
    apply List.nodup_append.mpr
    refine ⟨h.nodup, List.nodup_singleton _, ?_⟩
    intro a ha b hb
    obtain ⟨g, hg, rfl⟩ := List.mem_map.mp ha
    cases List.mem_singleton.mp hb
    exact fun heq => h.gone g hg f hmem heq.symm
  · intro g hg
    simp only [System.finish, hcommits] at hg
    rcases List.mem_append.mp hg with hg | hg
    · exact h.lt g hg
    · cases List.mem_singleton.mp hg
      exact hco.requestIds_lt f hmem
  · intro g hg f' hf'
    obtain ⟨hf', hne⟩ := mem_finish.mp hf'
    simp only [System.finish, hcommits] at hg
    rcases List.mem_append.mp hg with hg | hg
    · exact h.gone g hg f' hf'
    · cases List.mem_singleton.mp hg
      exact hne

theorem committedOnce_effect (hco : Coherent C sys) (h : CommittedOnce sys) {a : Action}
    (heffect : Effect C sys a t) : CommittedOnce t := by
  cases heffect with
  | idle _ session next finished _ _ hnext =>
    exact h.keep rfl hnext (fun f hf => Or.inl ⟨f, hf, rfl⟩)
  | left _ f error _ _ =>
    exact h.keep rfl (Nat.le_refl _) (fun f hf => Or.inl ⟨f, (mem_finish.mp hf).1, rfl⟩)
  | failed _ f error hmem _ =>
    exact h.keep rfl (Nat.le_refl _) (inFlight_of_update hmem rfl)
  | released f error id _ _ _ =>
    exact h.keep rfl (Nat.le_refl _) (fun f hf => Or.inl ⟨f, (mem_finish.mp hf).1, rfl⟩)
  | preparedFresh request encoded _ _ _ _ _ _ =>
    exact h.keep rfl (Nat.le_succ _) (inFlight_of_append rfl)
  | preparedReuse request encoded chain _ _ =>
    exact h.keep rfl (Nat.le_succ _) (inFlight_of_append rfl)
  | absorbed f output encoded hmem _ _ =>
    exact h.keep rfl (Nat.le_refl _) (inFlight_of_update hmem rfl)
  | committedNew f output callIds assistantMsg start outcome hcommits _ =>
    exact h.commit hco hcommits.mem (Ledger.commits_commit _ _ _ _)
  | committedReuse f output callIds assistantMsg start outcome before after chain hcommits _ _ =>
    exact h.commit hco hcommits.mem (Ledger.commits_commit _ _ _ _)
  | dropped request encoded chain before after outcome _ _ _ _ _ =>
    exact h.keep rfl (Nat.le_succ _) (fun f hf => Or.inl ⟨f, hf, rfl⟩)
  | closed request encoded chain before after outcome trajectory _ _ _ _ _ =>
    exact h.keep (Ledger.commits_close _ _ _) (Nat.le_succ _) (fun f hf => Or.inl ⟨f, hf, rfl⟩)
  | closeFailed request encoded chain error _ _ _ _ =>
    exact h.keep rfl (Nat.le_succ _) (fun f hf => Or.inl ⟨f, hf, rfl⟩)
  | finalized built _ _ =>
    exact h.keep rfl (Nat.le_refl _) (fun f hf => Or.inl ⟨f, hf, rfl⟩)
  | finalizeFailed front back chain error built _ _ _ _ =>
    exact h.keep rfl (Nat.le_refl _) (fun f hf => Or.inl ⟨f, hf, rfl⟩)
  | aborted _ =>
    exact h.keep rfl (Nat.le_refl _) (fun f hf => Or.inl ⟨f, hf, rfl⟩)

theorem committedOnce_run {sessionId : String} {promptLength responseLength : Option Int}
    {enable : Bool} {actions : List Action}
    (hnew : GatewaySession.create sessionId promptLength responseLength enable = .ok s)
    (hrun : runFrom C s actions = some sys) : CommittedOnce sys := by
  have hboth : Coherent C sys ∧ CommittedOnce sys := by
    apply runs.run_invariant_of_step (fun u => Coherent C u ∧ CommittedOnce u) ?_ hrun
    · exact ⟨coherent_initial hnew, by simp [System.initial], by simp [System.initial],
        by simp [System.initial]⟩
    · rintro u a v ⟨hco, h⟩ hstep
      exact ⟨coherent_step hco hstep, committedOnce_effect hco h (step_effect hco hstep)⟩
  exact hboth.2

/-! ## The law -/

/-- What a trajectory tells about the calls of its run. -/
structure TokenTruth (flag : Bool) (calls commits : List Generation) (t : Trajectory)
    (l : ResponseLayout) : Prop where
  /-- The blocks are calls that returned, each another one, in the order of their commits. -/
  returned : ∀ b ∈ l.blocks, b.gen ∈ calls
  distinct : (l.blocks.map (fun b => b.gen.requestId)).Nodup
  ordered : (l.blocks.map Block.gen).Sublist commits
  nonempty : ∀ b ∈ l.blocks, b.gen.out ≠ []
  /-- Each block is the whole output of its call, with mask 1 and its logprobs. -/
  responseIds : t.responseIds = l.tokens Generation.out
  responseMask : t.responseMask = l.values 0 Generation.ones
  responseLogprobs : t.responseLogprobs =
    if flag = true ∧ t.responseIds ≠ [] then some (l.values 0 Generation.logs) else none
  logs : flag = true → ∀ b ∈ l.blocks, b.gen.logs.length = b.gen.out.length
  /-- The call was given what stands before its block. -/
  given : ∀ before b after, l.blocks = before ++ b :: after →
    b.gen.contextIds = (t.promptIds ++ t.responseIds).take
      (t.promptIds.length + (blockTokens Generation.out before ++ b.gap).length)

theorem Told.truth {flag : Bool} {calls commits gens : List Generation} {t : Trajectory}
    {l : ResponseLayout} (h : Told (fun g => g ∈ calls ∧ EndsNoOutput C g) (some flag) t gens l)
    (hgens : gens.Sublist commits) (hnodup : (commits.map Generation.requestId).Nodup) :
    TokenTruth flag calls commits t l := by
  have hordered : (l.blocks.map Block.gen).Sublist commits := by
    rw [h.grounded.generations]
    exact List.filter_sublist.trans hgens
  constructor
  · exact fun b hb => (h.grounded.calls b.gen (h.grounded.mem_gens hb).1).1
  · have := (hordered.map Generation.requestId).nodup hnodup
    rwa [List.map_map] at this
  · exact hordered
  · exact fun b hb => (h.grounded.mem_gens hb).2
  · exact h.responseIds
  · exact h.responseMask
  · exact h.responseLogprobs flag rfl
  · intro hflag b hb
    exact h.grounded.recorded (congrArg some hflag) b.gen (h.grounded.mem_gens hb).1
  · intro before b after hblocks
    have hanchored := h.grounded.anchored
    rw [hblocks] at hanchored
    have hsplit : t.promptIds ++ t.responseIds =
        (t.promptIds ++ (blockTokens Generation.out before ++ b.gap)) ++
          (b.gen.out ++ (blockTokens Generation.out after ++ l.gap)) := by
      rw [h.responseIds, Layout.tokens, hblocks, blockTokens_append]
      simp [blockTokens]
    rw [hanchored.given_eq, hsplit, ← List.length_append, List.take_left]

/-- Over a codec that encodes new messages to no fewer tokens than the assistant prefix has,
every trajectory tells the truth about its tokens. -/
theorem trajectories_tell_the_truth {sessionId : String}
    {promptLength responseLength : Option Int} {enable flag : Bool} {actions : List Action}
    (hne : C.assistantPrefix ≠ []) (hlong : LongIncrements C)
    (hnew : GatewaySession.create sessionId promptLength responseLength enable = .ok s)
    (hrun : runFrom C s actions = some sys) (hflags : ∀ a ∈ actions, AsksFor flag a)
    (houtputs : ∀ g ∈ callsOf C s actions, EndsNoOutput C g) {trajectories : List Trajectory}
    {s' : GatewaySession} (hfinalize : sys.session.finalize = (.ok trajectories, s'))
    {t : Trajectory} (ht : t ∈ trajectories) :
    t.responseMask.length = t.responseIds.length ∧
    (∀ logprobs, t.responseLogprobs = some logprobs →
      logprobs.length = t.responseIds.length) ∧
    ∃ l, TokenTruth flag (callsOf C s actions) sys.ledger.commits t l := by
  set P : Generation → Prop := fun g => g ∈ callsOf C s actions ∧ EndsNoOutput C g with hP
  have hkept : (truthRule C P (some flag)).Kept C (TruthStep P (some flag)) :=
    truthRule_kept hne hlong (fun g hg => hg.2)
  have hmeets : runs.Meets (System.step C) (TruthStep P (some flag)) (System.initial s)
      actions := by
    apply ((runs.meets_of_forall hflags).and (runs.meets_collect System.returned _ _)).imp
    rintro u a ⟨hasks, hcalls⟩
    refine ⟨?_, fun g hg => ⟨hcalls g hg, houtputs g (hcalls g hg)⟩⟩
    rintro flag' heq
    cases heq
    exact hasks
  obtain ⟨trajectory, gens, rfl, hgens, l, htold⟩ :=
    hkept.finalized (hkept.run hnew hrun hmeets) hfinalize t ht
  have hshape := shapeRule_kept.finalized (shape_run hnew hrun) hfinalize _ ht
  obtain ⟨trajectory', gens', heq, _, hmask, hlogprobs⟩ := hshape
  have hsame : trajectory.responseIds = trajectory'.responseIds ∧
      trajectory.responseMask = trajectory'.responseMask ∧
      trajectory.responseLogprobs = trajectory'.responseLogprobs := by
    simp only [Trajectory.mk.injEq] at heq
    exact ⟨heq.2.1, heq.2.2.1, heq.2.2.2.1⟩
  obtain ⟨hids, hm, hlp⟩ := hsame
  refine ⟨by simpa [hids, hm] using hmask, ?_, l, ?_⟩
  · simpa [hids, hlp] using hlogprobs
  · obtain ⟨hgrounded, hresponse, hmask', hlogs⟩ := htold
    have htold' : Told P (some flag)
      { trajectory with rewardInfo := sys.session.rewardInfo } gens l :=
      ⟨hgrounded, hresponse, hmask', hlogs⟩
    exact htold'.truth hgens (committedOnce_run hnew hrun).nodup

/-! ## A continuation and a rollback -/

theorem longIncrements_lineCodec : LongIncrements lineCodec := by
  intro messages images videos ids hne hids
  have hanchor : closedLine (contentText textAnchor.content) = "" ++ closeMark ++ "\n" := rfl
  rcases encodeIncremental_messageWise_cases hanchor (by decide) hids with ⟨hnil, _⟩ | ⟨_, rfl⟩
  · exact absurd hnil hne
  · rw [List.length_append, List.length_append]
    exact Nat.add_le_add_right (Nat.le_add_right _ _) _

/-- Two replies, the second of which is rewritten. -/
def continuedAndRewritten : List Action :=
  [.request { messages := [say "user" "q"] }, .backendReturns 0 { tokenIds := tokensOf "a" },
    .commit 0 (fun _ => ""),
    .request { messages := [say "user" "q", say "assistant" "a", say "user" "r"] },
    .backendReturns 1 { tokenIds := tokensOf "b" }, .commit 1 (fun _ => ""),
    .request { messages := [say "user" "q", say "assistant" "a", say "user" "r",
      say "assistant" "c", say "user" "t"] },
    .backendReturns 2 { tokenIds := tokensOf "d" }, .commit 2 (fun _ => "")]

theorem endsNoOutput_of_test {calls : List Generation}
    (h : calls.all (fun g => g.out.getLast? != C.assistantPrefix.getLast?) = true) :
    ∀ g ∈ calls, EndsNoOutput C g := by
  intro g hg
  have := List.all_eq_true.mp h g hg
  simpa [EndsNoOutput] using this

theorem trajectories_tell_the_truth_continuedAndRewritten :
    ∃ sys, runFrom lineCodec (openSession none) continuedAndRewritten = some sys ∧
      ∃ trajectories s', sys.session.finalize = (.ok trajectories, s') ∧
        ∃ t ∈ trajectories, ∃ l, l.blocks ≠ [] ∧
          TokenTruth false (callsOf lineCodec (openSession none) continuedAndRewritten)
            sys.ledger.commits t l := by
  have hfacts : (runFrom lineCodec (openSession none) continuedAndRewritten).any (fun sys =>
      sys.session.finalize.1.toOption.any (fun trajectories =>
        trajectories.any (fun t => t.responseMask.contains 1))) = true := by decide +kernel
  have hflags : ∀ a ∈ continuedAndRewritten, AsksFor false a := asksFor_of_test (by decide)
  have houtputs : (callsOf lineCodec (openSession none) continuedAndRewritten).all (fun g =>
      g.out.getLast? != lineCodec.assistantPrefix.getLast?) = true := by decide +kernel
  obtain ⟨sys, hrun, hfacts⟩ := (Option.any_eq_true _ _).mp hfacts
  rcases hfinalize : sys.session.finalize with ⟨_ | trajectories, s'⟩
  · simp [hfinalize, Except.toOption] at hfacts
  · simp only [hfinalize, Except.toOption, Option.any_some] at hfacts
    obtain ⟨t, ht, hmask⟩ := List.any_eq_true.mp hfacts
    obtain ⟨_, _, l, hl⟩ := trajectories_tell_the_truth (by decide +kernel)
      longIncrements_lineCodec openSession_eq hrun hflags (endsNoOutput_of_test houtputs)
      hfinalize ht
    refine ⟨sys, hrun, trajectories, s', hfinalize, t, ht, l, ?_, hl⟩
    intro hnil
    rw [hl.responseMask] at hmask
    simp [Layout.values, hnil, blockValues] at hmask

/-! ## A template that drops a separator -/

/-- A mask that starts with 1 starts with the whole output of a call. -/
theorem TokenTruth.first_block {flag : Bool} {calls commits : List Generation} {t : Trajectory}
    {l : ResponseLayout} (h : TokenTruth flag calls commits t l)
    (hmask : t.responseMask.head? = some 1) :
    ∃ g ∈ calls, g.out <+: t.responseIds ∧ g.ones <+: t.responseMask := by
  rw [h.responseMask] at hmask
  rw [h.responseIds, h.responseMask]
  obtain ⟨blocks, gap⟩ := l
  cases blocks with
  | nil => cases gap <;> simp [Layout.values, blockValues, List.replicate_succ] at hmask
  | cons b rest =>
    refine ⟨b.gen, h.returned b (by simp), ?_⟩
    obtain ⟨gap', g⟩ := b
    cases gap' with
    | nil =>
      refine ⟨?_, ?_⟩
      · simp [Layout.tokens, blockTokens]
      · simp [Layout.values, blockValues]
    | cons x xs =>
      simp [Layout.values, blockValues, List.replicate_succ] at hmask

def isEmptyTool (m : Message) : Bool := m.role == "tool" && contentText m.content == ""

/-- Closed lines, except that an empty tool result adds nothing and takes the separator in front of
it away. -/
def mergedLines : List Message → String
  | [] => ""
  | m :: rest =>
    (if isEmptyTool m then ""
      else contentText m.content ++ closeMark ++
          (if rest.head?.any isEmptyTool then "" else "\n")) ++
      mergedLines rest

def mergedTemplate : ChatTemplate where
  render := fun messages _ add => mergedLines messages ++ (if add then ">" else "")
  separator := "\n"
  prompt := ">"

def mergedCodec : MessageCodec := mergedTemplate.codec checksum

theorem create_mergedCodec : mergedCodec.create = .ok mergedCodec := by
  apply (renders_codec mergedTemplate checksum).create
  constructor
  · intro text
    exact ⟨text, by simp [mergedTemplate, mergedLines, isEmptyTool, contentText]⟩
  · decide
  · intro messages
    simp [mergedTemplate]

/-- A reply that ends with the separator, an empty tool result with a second reply, and a
rewrite of the second reply. -/
def mergedSeparator : List Action :=
  [.request { messages := [say "user" "q"] }, .backendReturns 0 { tokenIds := tokensOf "x\n" },
    .commit 0 (fun _ => ""),
    .request { messages := [say "user" "q", say "assistant" "x\n", say "tool" ""] },
    .backendReturns 1 { tokenIds := tokensOf "y" }, .commit 1 (fun _ => ""),
    .request { messages := [say "user" "q", say "assistant" "x\n", say "tool" "",
      say "assistant" "z", say "user" "r"] },
    .backendReturns 2 { tokenIds := tokensOf "w" }, .commit 2 (fun _ => "")]

/-- The empty tool result is encoded to the generation prompt alone, so the rollback takes the
last token of the first reply for the separator. -/
theorem rollback_cuts_an_output :
    mergedCodec.create = .ok mergedCodec ∧
    mergedCodec.assistantPrefix ≠ [] ∧ (∀ a ∈ mergedSeparator, AsksFor false a) ∧
    (∀ g ∈ callsOf mergedCodec (openSession none) mergedSeparator, EndsNoOutput mergedCodec g) ∧
    ∃ sys, runFrom mergedCodec (openSession none) mergedSeparator = some sys ∧
      ∃ trajectories s', sys.session.finalize = (.ok trajectories, s') ∧
        ∃ t ∈ trajectories, ¬ ∃ l, TokenTruth false
          (callsOf mergedCodec (openSession none) mergedSeparator) sys.ledger.commits t l := by
  have houtputs : (callsOf mergedCodec (openSession none) mergedSeparator).all (fun g =>
      g.out.getLast? != mergedCodec.assistantPrefix.getLast?) = true := by decide +kernel
  refine ⟨create_mergedCodec, by decide +kernel,
    asksFor_of_test (by decide), endsNoOutput_of_test houtputs, ?_⟩
  have hfacts : (runFrom mergedCodec (openSession none) mergedSeparator).any (fun sys =>
      sys.session.finalize.1.toOption.any (fun trajectories => trajectories.any (fun t =>
        t.responseMask.head? == some 1 &&
          (callsOf mergedCodec (openSession none) mergedSeparator).all (fun g =>
            !(g.out.isPrefixOf t.responseIds && g.ones.isPrefixOf t.responseMask))))) = true := by
    decide +kernel
  obtain ⟨sys, hrun, hfacts⟩ := (Option.any_eq_true _ _).mp hfacts
  rcases hfinalize : sys.session.finalize with ⟨_ | trajectories, s'⟩
  · simp [hfinalize, Except.toOption] at hfacts
  · simp only [hfinalize, Except.toOption, Option.any_some] at hfacts
    obtain ⟨t, ht, hfacts⟩ := List.any_eq_true.mp hfacts
    obtain ⟨hmask, hcalls⟩ := Bool.and_eq_true_iff.mp hfacts
    refine ⟨sys, hrun, trajectories, s', hfinalize, t, ht, ?_⟩
    rintro ⟨l, hl⟩
    obtain ⟨g, hg, hout, hones⟩ := hl.first_block (beq_iff_eq.mp hmask)
    have hcall := List.all_eq_true.mp hcalls g hg
    rw [List.isPrefixOf_iff_prefix.mpr hout, List.isPrefixOf_iff_prefix.mpr hones] at hcall
    simp at hcall

end uni_agent.session
