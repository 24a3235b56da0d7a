-- What prefix hashes stand for. The hashes of a chain are those of its history, so the test on
-- hashes tells whether a request continues the history, with messages that are the same one by one.
import UniAgent.CanonicalCodec
import UniAgent.ChainShape
import UniAgent.SameMessages

namespace uni_agent

/-! ## Histories in canonical form -/

/-- The history is in canonical form a prefix of the messages. -/
def MessageCodec.CanonicalPrefix (C : MessageCodec) (history messages : List Message) : Prop :=
  history.map C.canonicalForm <+: messages.map C.canonicalForm

/-- The messages start with those of the history, each the same but for its ids. -/
def MessageCodec.SamePrefix (C : MessageCodec) (history messages : List Message) : Prop :=
  ∃ front rest, messages = front ++ rest ∧ List.Forall₂ C.SameMessage history front

variable {C : MessageCodec} {floatOf : String → PyFloat}

theorem MessageCodec.canonicalJson_eq_iff (hfloats : Json.FloatText C.floatRepr floatOf)
    (m m' : Message) : C.canonicalJson m = C.canonicalJson m' ↔
      C.canonicalForm m = C.canonicalForm m' :=
  Json.dumps_eq_iff hfloats _ _

theorem MessageCodec.map_canonicalJson_eq_iff (hfloats : Json.FloatText C.floatRepr floatOf)
    (xs ys : List Message) : xs.map C.canonicalJson = ys.map C.canonicalJson ↔
      xs.map C.canonicalForm = ys.map C.canonicalForm := by
  induction xs generalizing ys with
  | nil => cases ys <;> simp
  | cons x xs ih =>
    cases ys with
    | nil => simp
    | cons y ys =>
      simp only [List.map_cons, List.cons.injEq]
      rw [C.canonicalJson_eq_iff hfloats, ih ys]

theorem MessageCodec.canonicalPrefix_iff {history messages : List Message} :
    C.CanonicalPrefix history messages ↔ history.length ≤ messages.length ∧
      (messages.take history.length).map C.canonicalForm = history.map C.canonicalForm := by
  unfold MessageCodec.CanonicalPrefix
  rw [List.prefix_iff_eq_take, List.length_map, ← List.map_take]
  refine ⟨?_, ?_⟩
  · intro h
    refine ⟨?_, h.symm⟩
    have hlength := congrArg List.length h
    simp only [List.length_map, List.length_take] at hlength
    omega
  · intro h
    exact h.2.symm

theorem MessageCodec.samePrefix_cons {m m' : Message} {history messages : List Message} :
    C.SamePrefix (m :: history) (m' :: messages) ↔
      C.SameMessage m m' ∧ C.SamePrefix history messages := by
  refine ⟨?_, ?_⟩
  · rintro ⟨front, rest, hmessages, hsame⟩
    cases hsame with
    | cons hfirst hsame =>
      rw [List.cons_append, List.cons.injEq] at hmessages
      exact ⟨hmessages.1 ▸ hfirst, _, rest, hmessages.2, hsame⟩
  · rintro ⟨hfirst, front, rest, rfl, hsame⟩
    exact ⟨m' :: front, rest, rfl, .cons hfirst hsame⟩

/-- Prefixes in canonical form are those with the same messages. -/
theorem MessageCodec.canonicalPrefix_iff_samePrefix {history messages : List Message}
    (hhistory : ∀ m ∈ history, m.HasDicts) (hmessages : ∀ m ∈ messages, m.HasDicts) :
    C.CanonicalPrefix history messages ↔ C.SamePrefix history messages := by
  induction history generalizing messages with
  | nil => exact ⟨fun _ => ⟨[], messages, rfl, .nil⟩, fun _ => List.nil_prefix⟩
  | cons m history ih =>
    cases messages with
    | nil =>
      refine ⟨fun h => absurd h (by simp [MessageCodec.CanonicalPrefix]), ?_⟩
      rintro ⟨front, rest, hnil, hsame⟩
      cases hsame with
      | cons _ _ => cases hnil
    | cons m' messages =>
      have hfirst := C.canonicalForm_eq_iff (hhistory m (by simp)) (hmessages m' (by simp))
      have hrest := ih (fun x hx => hhistory x (List.mem_cons_of_mem _ hx))
        (fun x hx => hmessages x (List.mem_cons_of_mem _ hx))
      rw [C.samePrefix_cons, ← hfirst, ← hrest]
      unfold MessageCodec.CanonicalPrefix
      rw [List.map_cons, List.map_cons, List.cons_prefix_cons]

/-- The texts that are hashed for the start of a list are hashed for the list. -/
theorem MessageCodec.Hashed.mono {xs ys : List Message} {text : String} (h : C.Hashed xs text)
    (hbefore : xs <+: ys) : C.Hashed ys text := by
  cases h with
  | empty => exact .empty
  | message before m h => exact .message before m (h.trans hbefore)
  | history before m h => exact .history before m (h.trans hbefore)

/-- The assumption on the digest: no NUL in a digest, and no collision on the texts that are
hashed for two histories. -/
structure MessageCodec.Tells (C : MessageCodec) (history messages : List Message) : Prop where
  nul : ∀ text, '\x00' ∉ (C.sha256 text).toList
  free : C.CollisionFreeOn (fun text => C.Hashed history text ∨ C.Hashed messages text)

theorem MessageCodec.Tells.mono {history messages xs ys : List Message}
    (h : C.Tells history messages) (hxs : xs <+: history) (hys : ys <+: messages) :
    C.Tells xs ys := by
  refine ⟨h.nul, ?_⟩
  intro text text' htext htext'
  exact h.free _ _ (htext.imp (·.mono hxs) (·.mono hys)) (htext'.imp (·.mono hxs) (·.mono hys))

/-- Equal hashes stand for histories that are equal in canonical form. -/
theorem MessageCodec.Tells.prefixHash_eq_iff {xs ys : List Message} (h : C.Tells xs ys)
    (hfloats : Json.FloatText C.floatRepr floatOf) : C.prefixHash xs = C.prefixHash ys ↔
      xs.map C.canonicalForm = ys.map C.canonicalForm := by
  rw [← C.map_canonicalJson_eq_iff hfloats]
  refine ⟨?_, ?_⟩
  · intro heq
    exact C.canonicalJson_eq_of_prefixHash_eq h.nul h.free heq
  · intro heq
    exact C.prefixHash_congr heq

/-- The hash at one place of a request, against the hash of a history of that length. -/
theorem MessageCodec.Tells.hash_at_iff {history messages : List Message}
    (h : C.Tells history messages) (hfloats : Json.FloatText C.floatRepr floatOf)
    (hne : history ≠ []) :
    (C.extendMessagePrefixHashes [] messages)[history.length - 1]? = some (C.prefixHash history) ↔
      C.CanonicalPrefix history messages := by
  have hpos := List.length_pos_iff.mpr hne
  rw [C.extendMessagePrefixHashes_eq, prefix_digests.getElem?_extend, C.canonicalPrefix_iff,
    Nat.sub_add_cancel hpos]
  by_cases hle : history.length ≤ messages.length
  · have htells := h.mono (List.prefix_refl _) (List.take_prefix history.length messages)
    have hiff := htells.prefixHash_eq_iff hfloats
    rw [if_pos (by omega), Option.some.injEq]
    refine ⟨?_, ?_⟩
    · intro heq
      exact ⟨hle, (hiff.mp heq.symm).symm⟩
    · intro heq
      exact (hiff.mpr heq.2.symm).symm
  · rw [if_neg (by omega)]
    simp [hle]

namespace session

/-! ## The hashes of a chain -/

/-- The hashes that a chain stores are those of its history. -/
structure HashesHistory (C : MessageCodec) (chain : ChainState) : Prop where
  tipHash : (C.extendMessagePrefixHashes [] chain.messageHistory).getLast? =
    some chain.messageTipHash
  startHash : (C.extendMessagePrefixHashes [] (chain.messageHistory.take
    chain.lastAssistantStart.messageHistoryLen)).getLast? = some chain.lastAssistantStart.tipHash
  length : chain.messageHistory.length = chain.lastAssistantStart.messageHistoryLen + 1

theorem getLast?_extendMessagePrefixHashes {messages : List Message} (hne : messages ≠ []) :
    (C.extendMessagePrefixHashes [] messages).getLast? = some (C.prefixHash messages) := by
  rw [C.extendMessagePrefixHashes_eq]
  exact prefix_digests.getLast?_extend messages hne

/-- Two extensions in a row hash the concatenated list. -/
theorem extendMessagePrefixHashes_twice (existing : List String) (xs ys : List Message) :
    C.extendMessagePrefixHashes (C.extendMessagePrefixHashes existing xs) ys =
      C.extendMessagePrefixHashes existing (xs ++ ys) := by
  simp only [C.extendMessagePrefixHashes_eq]
  exact prefix_digests.extend_extend existing xs ys

variable {chain : ChainState} {gens : List Generation} {messages : List Message}
  {s : GatewaySession} {tools : Option (List Json)}

theorem ChainShape.hashesHistory (h : ChainShape C chain gens) : HashesHistory C chain := by
  obtain ⟨before, last, hhistory, hstart⟩ := h.history
  constructor
  · rw [h.tipHash]
    apply getLast?_extendMessagePrefixHashes
    simp [hhistory]
  · rw [hstart.messageHistoryLen, hhistory, List.take_left, hstart.tipHash]
    exact getLast?_extendMessagePrefixHashes hstart.nonempty
  · rw [hhistory, List.length_append, hstart.messageHistoryLen]
    rfl

/-- The chain that a rollback closes has the hash of the history that survives. -/
theorem ChainShape.closing_tipHash (h : ChainShape C chain gens)
    {request : InternalGenerationRequest} {encoded : EncodedData}
    (hreuse : Reuses C s request encoded chain) (hfull : encoded.capacityExhausted = true) :
    (GatewaySession.chainToMaterialize chain encoded).messageTipHash =
      C.prefixHash (GatewaySession.chainToMaterialize chain encoded).messageHistory := by
  obtain ⟨before, last, hhistory, hstart⟩ := h.history
  obtain ⟨w, _, _, _, _, hmessages, hhashes, _⟩ := hreuse.exhausted hfull
  unfold GatewaySession.chainToMaterialize
  cases hrollback : encoded.rollbackApplied with
  | false => exact h.tipHash
  | true =>
    have hselect := hreuse.select
    rw [hrollback] at hselect
    have hsuffix := suffix_ne_of_rollback hselect
    have hpos := List.length_pos_iff.mpr hstart.nonempty
    rw [ne_eq, List.drop_eq_nil_iff, hstart.messageHistoryLen] at hsuffix
    rw [if_pos rfl]
    simp only [hhashes, hmessages, hstart.messageHistoryLen]
    rw [pyIndex, if_neg (by omega), C.extendMessagePrefixHashes_eq,
      prefix_digests.getElem?_extend, if_pos (by omega),
      show ((before.length : Int) - 1).toNat + 1 = before.length by omega]
    rfl

/-- A request passes the test on hashes exactly when it continues the whole history. -/
theorem ChainShape.match_iff (h : ChainShape C chain gens)
    (htells : C.Tells chain.messageHistory messages)
    (hfloats : Json.FloatText C.floatRepr floatOf) :
    isChainPrefixHashMatch chain (C.extendMessagePrefixHashes [] messages) = true ↔
      C.CanonicalPrefix chain.messageHistory messages := by
  obtain ⟨before, last, hhistory, hstart⟩ := h.history
  have hne : chain.messageHistory ≠ [] := by simp [hhistory]
  have hzero : ¬ chain.messageHistory.length = 0 := by simp [hhistory]
  rw [← htells.hash_at_iff hfloats hne, ← h.tipHash]
  unfold isChainPrefixHashMatch
  by_cases hlong : chain.messageHistory.length > (C.extendMessagePrefixHashes [] messages).length
  · have hnone : (C.extendMessagePrefixHashes [] messages)[chain.messageHistory.length - 1]? =
        none := by
      rw [List.getElem?_eq_none_iff]
      omega
    simp [hlong, hnone]
  · simp only [hlong, hzero, if_false, beq_iff_eq]
    exact eq_comm

/-- A chain is considered for a rollback when its history without the last assistant is a proper
prefix of the request, and the whole history is not. -/
theorem ChainShape.rewritten_iff (h : ChainShape C chain gens)
    (htells : C.Tells chain.messageHistory messages)
    (hfloats : Json.FloatText C.floatRepr floatOf) :
    s.isRewritten tools (C.extendMessagePrefixHashes [] messages) chain = true ↔
      s.enableLastAssistantRollback = true ∧ chain.chainId ∉ s.reservedChainIds ∧
        toolsEq chain.activeToolSchemas tools = true ∧
        C.CanonicalPrefix chain.messageHistory.dropLast messages ∧
        chain.messageHistory.dropLast.length < messages.length ∧
        ¬ C.CanonicalPrefix chain.messageHistory messages := by
  have hmatch := h.match_iff htells hfloats
  obtain ⟨before, last, hhistory, hstart⟩ := h.history
  have hpos := List.length_pos_iff.mpr hstart.nonempty
  have hdrop : chain.messageHistory.dropLast = before := by simp [hhistory]
  have hbefore := (htells.mono (by rw [hhistory]; exact List.prefix_append _ _)
    (List.prefix_refl _)).hash_at_iff hfloats hstart.nonempty
  have hindex : (pyIndex (C.extendMessagePrefixHashes [] messages) ((before.length : Int) - 1) ==
      some (C.prefixHash before)) = true ↔ C.CanonicalPrefix before messages := by
    rw [beq_iff_eq, pyIndex, if_neg (by omega),
      show ((before.length : Int) - 1).toNat = before.length - 1 by omega]
    exact hbefore
  have hlength : (C.extendMessagePrefixHashes [] messages).length = messages.length := by
    rw [C.extendMessagePrefixHashes_eq]
    simp
  unfold GatewaySession.isRewritten GatewaySession.isEligible
  simp only [Bool.and_eq_true, Bool.not_eq_true', hdrop, hstart.messageHistoryLen, hstart.tipHash,
    hindex, hlength, decide_eq_true_eq, List.contains_eq_mem, decide_eq_false_iff_not]
  rw [← hmatch, Bool.not_eq_true]
  tauto

/-! ## The dicts of a history -/

/-- A decoded reply has dicts for its calls. -/
theorem hasDicts_of_decode {responseIds : List Token} {tools : Option (List Json)}
    {stopReason : Option String} {callIds : Nat → String} {m : Message} {finishReason : String}
    (h : C.decodeResponse responseIds tools stopReason callIds = .ok (m, finishReason)) :
    m.HasDicts := by
  intro calls hcalls call hcall
  unfold MessageCodec.decodeResponse MessageCodec.decodeText at h
  have hdict : ∃ callId parsed, call = toolCallDict callId parsed := by
    split at h
    · split at h
      · cases h
      · split at h
        · cases h
          cases hcalls
        · cases h
          cases hcalls
          obtain ⟨entry, _, rfl⟩ := List.mem_map.mp hcall
          exact ⟨_, _, rfl⟩
    · cases h
      cases hcalls
  obtain ⟨callId, parsed, rfl⟩ := hdict
  refine ⟨by simp [toolCallDict], ?_⟩
  intro fields hfields
  simp only [toolCallDict, Dict.get?, List.lookup_cons] at hfields
  simp at hfields
  subst hfields
  simp

/-- The messages of a request have dicts for their calls. -/
def SendsDicts (a : Action) : Prop :=
  ∀ request, a = .request request → ∀ m ∈ request.messages, m.HasDicts

def dictsRule : ChainRule where
  chain := fun chain _ => ∀ m ∈ chain.messageHistory, m.HasDicts
  ready := fun f _ => ∀ m ∈ f.encoded.messages, m.HasDicts
  full := fun f _ => ∀ m ∈ f.encoded.messages, m.HasDicts
  closed := fun _ _ => True

theorem dictsRule_kept : dictsRule.Kept C (fun _ a => SendsDicts a) := by
  constructor
  · intro sys request encoded hq _ hprep _ hroom
    change ∀ m ∈ encoded.messages, m.HasDicts
    rw [(opened_of_prepare hprep hroom).messages]
    exact hq request rfl
  · intro sys request encoded chain gens hq hreuse hroom _
    change ∀ m ∈ encoded.messages, m.HasDicts
    rw [(opened_of_prepare hreuse.prepared hroom).messages]
    exact hq request rfl
  · intro sys f output encoded gens _ _ hready habsorb
    obtain ⟨logProbs, rfl, _⟩ := absorbOutput_eq_ok habsorb
    exact hready
  · intro sys f output callIds assistantMsg start chainId orderSeq gens _ hcommits _ hfull m hm
    obtain ⟨reason, hdecode⟩ := hcommits.decode
    rcases List.mem_append.mp hm with hm | hm
    · exact hfull m hm
    · cases List.mem_singleton.mp hm
      exact hasDicts_of_decode hdecode
  · intro sys request encoded chain gens trajectory _ _ _ _ _ _
    trivial
  · intro chain gens trajectory _ _
    trivial

/-! ## Every run -/

/-- Prefix hashes stand for histories, in every reachable state: two messages count as the same
when they differ at most in ids, in the order of keys, and in how arguments are written. -/
theorem prefix_hashes_represent_histories {floatOf : String → PyFloat} {sessionId : String}
    {promptLength responseLength : Option Int} {enable : Bool} {s : GatewaySession}
    {actions : List Action} {sys : System} {chain : ChainState}
    (hfloats : Json.FloatText C.floatRepr floatOf)
    (hnew : GatewaySession.create sessionId promptLength responseLength enable = .ok s)
    (hrun : runFrom C s actions = some sys) (hdicts : ∀ a ∈ actions, SendsDicts a)
    (hchain : chain ∈ sys.session.activeChains) :
    HashesHistory C chain ∧
      (∀ messages, (∀ m ∈ messages, m.HasDicts) → C.Tells chain.messageHistory messages →
        (isChainPrefixHashMatch chain (C.extendMessagePrefixHashes [] messages) = true ↔
          C.SamePrefix chain.messageHistory messages) ∧
        ∀ tools, sys.session.isRewritten tools (C.extendMessagePrefixHashes [] messages) chain =
            true ↔
          sys.session.enableLastAssistantRollback = true ∧
            chain.chainId ∉ sys.session.reservedChainIds ∧
            toolsEq chain.activeToolSchemas tools = true ∧
            C.SamePrefix chain.messageHistory.dropLast messages ∧
            chain.messageHistory.dropLast.length < messages.length ∧
            ¬ C.SamePrefix chain.messageHistory messages) ∧
      ∀ existing xs ys,
        C.extendMessagePrefixHashes (C.extendMessagePrefixHashes existing xs) ys =
          C.extendMessagePrefixHashes existing (xs ++ ys) := by
  have hshape : ChainShape C chain _ := (shape_run hnew hrun).chains chain hchain
  have hhistory : ∀ m ∈ chain.messageHistory, m.HasDicts :=
    (dictsRule_kept.run hnew hrun (runs.meets_of_forall hdicts)).chains chain hchain
  refine ⟨hshape.hashesHistory, ?_, extendMessagePrefixHashes_twice⟩
  intro messages hmessages htells
  have hwhole := C.canonicalPrefix_iff_samePrefix hhistory hmessages
  have hbefore := C.canonicalPrefix_iff_samePrefix
    (fun m hm => hhistory m (List.dropLast_subset _ hm)) hmessages
  refine ⟨?_, ?_⟩
  · rw [← hwhole]
    exact hshape.match_iff htells hfloats
  · intro tools
    rw [← hwhole, ← hbefore]
    exact hshape.rewritten_iff htells hfloats

/-- The line template with a digest and a text of floats that tell all inputs apart. -/
def tellingCodec : MessageCodec :=
  { lineCodec with floatRepr := Json.bitsText, sha256 := shiftBytes }

theorem tells_tellingCodec (history messages : List Message) :
    tellingCodec.Tells history messages :=
  ⟨nul_not_mem_shiftBytes, fun _ _ _ _ => shiftBytes_injective⟩

/-- One question with its reply. -/
def answered : List Action :=
  [.request { messages := [say "user" "q"] }, .backendReturns 0 { tokenIds := tokensOf "a" },
    .commit 0 (fun _ => "")]

theorem hasDicts_of_noCalls {messages : List Message}
    (h : messages.all (fun m => m.toolCalls.isNone) = true) : ∀ m ∈ messages, m.HasDicts := by
  intro m hm calls hcalls
  have hnone := List.all_eq_true.mp h m hm
  simp [hcalls] at hnone

/-- One message goes on with the reply, another replaces it. -/
theorem prefix_hashes_represent_histories_answered :
    ∃ sys chain, runFrom tellingCodec (openSession none) answered = some sys ∧
      chain ∈ sys.session.activeChains ∧ HashesHistory tellingCodec chain ∧
      tellingCodec.SamePrefix chain.messageHistory
        [say "user" "q", say "assistant" "a", say "user" "r"] ∧
      ¬ tellingCodec.SamePrefix chain.messageHistory
        [say "user" "q", say "assistant" "b", say "user" "r"] := by
  have hfacts : (runFrom tellingCodec (openSession none) answered).any (fun sys =>
      sys.session.activeChains.any (fun chain =>
        isChainPrefixHashMatch chain (tellingCodec.extendMessagePrefixHashes []
          [say "user" "q", say "assistant" "a", say "user" "r"]) &&
        !isChainPrefixHashMatch chain (tellingCodec.extendMessagePrefixHashes []
          [say "user" "q", say "assistant" "b", say "user" "r"]))) = true := by
    decide +kernel
  have hdicts : ∀ a ∈ answered, SendsDicts a := by
    rintro a ha request rfl
    simp only [answered, List.mem_cons, Action.request.injEq, reduceCtorEq, List.not_mem_nil,
      or_false] at ha
    subst ha
    exact hasDicts_of_noCalls (by decide)
  obtain ⟨sys, hrun, hfacts⟩ := (Option.any_eq_true _ _).mp hfacts
  obtain ⟨chain, hchain, hfacts⟩ := List.any_eq_true.mp hfacts
  simp only [Bool.and_eq_true, Bool.not_eq_true'] at hfacts
  obtain ⟨hhashes, hmatch, _⟩ := prefix_hashes_represent_histories (C := tellingCodec)
    Json.floatText_bitsText openSession_eq hrun hdicts hchain
  refine ⟨sys, chain, hrun, hchain, hhashes, ?_, ?_⟩
  · exact (hmatch _ (hasDicts_of_noCalls (by decide)) (tells_tellingCodec _ _)).1.mp hfacts.1
  · intro hprefix
    have htrue := (hmatch _ (hasDicts_of_noCalls (by decide)) (tells_tellingCodec _ _)).1.mpr
      hprefix
    rw [hfacts.2] at htrue
    cases htrue

end session

end uni_agent
