-- MemAgent: an agent that reads a long text chunk by chunk. Every chunk is put to the policy in a
-- context of its own, with the memory that the reply before it left, and the last context asks for
-- the answer.
import UniAgent.ChatModel
import UniAgent.Runs

namespace uni_agent.agents

/-! ## Prompts -/

/-- `TEMPLATE.format` -/
def memTemplate (prompt memory chunk : String) : String :=
  "You are presented with a problem, a section of an article that may contain the answer to the " ++
  "problem, and a previous memory. Please read the provided section carefully and update the " ++
  "memory with the new information that helps to answer the problem. Be sure to retain all " ++
  "relevant details from the previous memory while adding any new, useful information.\n\n" ++
  "<problem>\n" ++ prompt ++ "\n</problem>\n\n" ++
  "<memory>\n" ++ memory ++ "\n</memory>\n\n" ++
  "<section>\n" ++ chunk ++ "\n</section>\n\n" ++
  "Updated memory:\n"

/-- `TEMPLATE_FINAL_BOXED.format` -/
def memTemplateFinalBoxed (prompt memory : String) : String :=
  "You are presented with a problem and a previous memory. Please answer the problem based on " ++
  "the previous memory and put the answer in \\boxed\x7b\x7d.\n\n" ++
  "<problem>\n" ++ prompt ++ "\n</problem>\n\n" ++
  "<memory>\n" ++ memory ++ "\n</memory>\n\n" ++
  "Your answer:\n"

/-- `memory if memory else "No previous memory"` -/
def memoryText : Option String → String
  | none => "No previous memory"
  | some memory => if memory = "" then "No previous memory" else memory

def userMessage (content : String) : Dict := [("role", .str "user"), ("content", .str content)]

/-! ## Configuration -/

/-- The knobs of `ModelConfig` that an agent reads. -/
structure ModelConfig where
  baseUrl : Option String := none
  modelName : Option String := none
  temperature : Option PyFloat := none
  topP : Option PyFloat := none
  topK : Option Int := none
  maxTotalTokens : Option Int := none

/-- `ModelConfig.sampling_params` -/
def ModelConfig.samplingParams (cfg : ModelConfig) : Dict :=
  (cfg.temperature.elim [] (fun x => [("temperature", .float x)])) ++
  (cfg.topP.elim [] (fun x => [("top_p", .float x)])) ++
  cfg.topK.elim [] (fun n => [("top_k", .int n)])

/-- `MemAgentConfig`, whose limits are positive. -/
structure MemAgentConfig where
  name : String := "mem_agent"
  model : ModelConfig := {}
  maxSteps : Nat := 50
  maxMemorizationLength : Nat := 1024
  maxChunks : Nat := 8
  maxFinalResponseLength : Nat := 1024
  maxSteps_pos : 0 < maxSteps := by decide
  maxMemorizationLength_pos : 0 < maxMemorizationLength := by decide
  maxChunks_pos : 0 < maxChunks := by decide
  maxFinalResponseLength_pos : 0 < maxFinalResponseLength := by decide

/-! ## Contexts -/

/-- What a query returns. -/
structure TurnReply where
  content : String
  promptTokens : Int
  completionTokens : Int

/-- `ContextTurnOutput` -/
structure ContextTurnOutput where
  stepIdx : Nat
  response : String
  promptTokens : Int
  completionTokens : Int

/-- `ContextStepOutput`, less its reward and its time. -/
structure ContextStepOutput where
  promptMessages : List Dict := []
  messages : List Dict := []
  steps : List ContextTurnOutput := []

/-- `ContextManagerResult`, less its id and its time. -/
structure ContextManagerResult where
  trajectory : List ContextStepOutput
  finalState : ContextStepOutput
  totalSteps : Nat

/-- The attributes of a `MemAgent`. -/
structure MemAgent where
  trajectory : List ContextStepOutput := []
  currentContextStep : Option ContextStepOutput := none
  globalStepIdx : Nat := 0
  stepIdx : Nat := 0
  totalCompletionTokens : Int := 0
  contextSessionActive : Bool := false
  contextManagerResult : Option ContextManagerResult := none
  messages : List Dict := []

/-- What a run returns as an `AgentResult`. -/
structure MemAgentResult where
  response : String
  contextManagerResult : ContextManagerResult
  transcript : List Dict
  totalSteps : Nat
  numContexts : Nat

namespace MemAgent

variable {σ : Type} (cfg : MemAgentConfig)
  (query : σ → List Dict → Dict → Except PyError TurnReply × σ)

/-- `_collect_context_step` -/
def collectContextStep (a : MemAgent) : MemAgent :=
  match a.currentContextStep with
  | none => a
  | some segment =>
    if segment.steps.isEmpty then a
    else { a with
      trajectory := a.trajectory ++ [{ segment with messages := a.messages }]
      currentContextStep := none }

/-- `update_context` -/
def updateContext (a : MemAgent) (messages : List Dict) : Except PyError MemAgent :=
  if a.contextSessionActive then
    .ok { collectContextStep a with
      currentContextStep := some { promptMessages := messages }
      stepIdx := 0
      messages }
  else .error (.runtimeError "update_context() must be called inside context_session()")

/-- `_sampling_params_for_step`, for a step that sets its `max_tokens`. -/
def samplingParamsForStep (totalCompletionTokens maxTokens : Int) : Except PyError Dict :=
  match cfg.model.maxTotalTokens with
  | none => .ok (cfg.model.samplingParams.set "max_tokens" (.int maxTokens))
  | some maxTotal =>
    let remaining := maxTotal - totalCompletionTokens
    if remaining ≤ 0 then
      .error (.runtimeError ("MemAgent reached max_total_tokens=" ++ toString maxTotal))
    else .ok (cfg.model.samplingParams.set "max_tokens" (.int (min maxTokens remaining)))

/-- `step` -/
def step (a : MemAgent) (w : σ) (maxTokens : Int) :
    Except PyError ContextTurnOutput × MemAgent × σ :=
  match a.currentContextStep with
  | none => (.error (.runtimeError
      "Please call update_context() before calling the first step()"), a, w)
  | some segment =>
    if cfg.maxSteps ≤ a.globalStepIdx then
      (.error (.runtimeError ("MemAgent reached max_steps=" ++ toString cfg.maxSteps)), a, w)
    else
      let a := { a with globalStepIdx := a.globalStepIdx + 1, stepIdx := a.stepIdx + 1 }
      match samplingParamsForStep cfg a.totalCompletionTokens maxTokens with
      | .error e => (.error e, a, w)
      | .ok params =>
        match query w a.messages params with
        | (.error e, w) => (.error e, a, w)
        | (.ok reply, w) =>
          let output : ContextTurnOutput :=
            ⟨a.stepIdx, reply.content, reply.promptTokens, reply.completionTokens⟩
          (.ok output, { a with
            totalCompletionTokens := a.totalCompletionTokens + reply.completionTokens
            messages := a.messages ++
              [[("role", .str "assistant"), ("content", .str reply.content)]]
            currentContextStep := some { segment with steps := segment.steps ++ [output] } }, w)

/-- `update_context` with a new conversation, and one `step` in it. -/
def turn (a : MemAgent) (w : σ) (text : String) (maxTokens : Int) :
    Except PyError ContextTurnOutput × MemAgent × σ :=
  match updateContext a [userMessage text] with
  | .error e => (.error e, a, w)
  | .ok a => step cfg query a w maxTokens

/-- The loop over the chunks. -/
def readChunks (prompt : String) : Option String → List String → MemAgent → σ →
    Except PyError (Option String) × MemAgent × σ
  | memory, [], a, w => (.ok memory, a, w)
  | memory, chunk :: rest, a, w =>
    if cfg.maxChunks ≤ a.globalStepIdx then (.ok memory, a, w)
    else
      match turn cfg query a w (memTemplate prompt (memoryText memory) chunk)
          cfg.maxMemorizationLength with
      | (.error e, a, w) => (.error e, a, w)
      | (.ok output, a, w) => readChunks prompt (some output.response) rest a w

/-- The body of `context_session` in `run`. -/
def converse (prompt : String) (chunks : List String) (a : MemAgent) (w : σ) :
    Except PyError Unit × MemAgent × σ :=
  match readChunks cfg query prompt none chunks a w with
  | (.error e, a, w) => (.error e, a, w)
  | (.ok memory, a, w) =>
    match turn cfg query a w (memTemplateFinalBoxed prompt (memoryText memory))
        cfg.maxFinalResponseLength with
    | (.error e, a, w) => (.error e, a, w)
    | (.ok _, a, w) => (.ok (), a, w)

/-- What `context_session` does when it is left. -/
def leaveContextSession (a : MemAgent) : MemAgent :=
  let a := collectContextStep a
  { a with
    contextSessionActive := false
    contextManagerResult := some {
      trajectory := a.trajectory
      finalState := a.trajectory.getLast?.getD {}
      totalSteps := a.globalStepIdx } }

/-- `build_agent_result` -/
def buildAgentResult (a : MemAgent) : Except PyError MemAgentResult :=
  if a.contextSessionActive then
    .error (.runtimeError "build_agent_result() must be called after context_session() exits")
  else
    match a.contextManagerResult with
    | none => .error (.runtimeError
        "No completed context session; call context_session() from run() first")
    | some result => .ok {
        response := result.finalState.steps.getLast?.elim "" ContextTurnOutput.response
        contextManagerResult := result
        transcript := result.trajectory.flatMap ContextStepOutput.messages
        totalSteps := result.totalSteps
        numContexts := result.trajectory.length }

/-- The chunks of `raw_data`, which have to be a list of texts. -/
def chunksOf (rawData : Option Dict) : Except PyError (List String) :=
  let invalid : PyError := .valueError
    "mem_agent requires pre-split text chunks in raw_data['chunks']"
  match (rawData.getD []).get? "chunks" with
  | some (.arr chunks) => chunks.mapM (fun
    | .str chunk => .ok chunk
    | _ => .error invalid)
  | _ => .error invalid

/-- `run`, where `aclose` is what closing the model raises. -/
def run (py : PythonLibrary) (aclose : Option PyError) (messages : List Dict)
    (rawData : Option Dict) (a : MemAgent) (w : σ) :
    Except PyError MemAgentResult × MemAgent × σ :=
  match messages with
  | [] => (.error (.valueError "mem_agent requires a non-empty prompt message list"), a, w)
  | first :: _ =>
    let prompt := py.str ((first.get? "content").getD (.str ""))
    match chunksOf rawData with
    | .error e => (.error e, a, w)
    | .ok chunks =>
      if a.contextSessionActive then
        (.error (.runtimeError "MemAgent does not support nested context_session() calls"), a, w)
      else if cfg.model.baseUrl.isNone then
        (.error (.valueError (cfg.name ++
          ": config.model.base_url is not set (the endpoint the policy calls)")), a, w)
      else
        match converse cfg query prompt chunks { contextSessionActive := true } w with
        | (outcome, a, w) =>
          let a := leaveContextSession a
          match aclose, outcome with
          | some e, _ => (.error e, a, w)
          | none, .error e => (.error e, a, w)
          | none, .ok () => (buildAgentResult a, a, w)

/-! ## What was asked -/

/-- A query that was answered. -/
structure Asked where
  messages : List Dict
  params : Dict
  reply : TurnReply

/-- Queries that are answered one after the other. -/
inductive Exchanges (query : σ → List Dict → Dict → Except PyError TurnReply × σ) (w : σ) :
    List Asked → σ → Prop
  | nil : Exchanges query w [] w
  | snoc {asked : List Asked} {u v : σ} {messages : List Dict} {params : Dict} {reply : TurnReply}
      (h : Exchanges query w asked u) (hquery : query u messages params = (.ok reply, v)) :
      Exchanges query w (asked ++ [⟨messages, params, reply⟩]) v

/-- The memory that the last reply left. -/
def memoryAfter (asked : List Asked) : Option String :=
  asked.getLast?.map (fun x => x.reply.content)

/-- The tokens of the replies. -/
def tokensOf (asked : List Asked) : Int :=
  asked.foldl (fun total x => total + x.reply.completionTokens) 0

/-- The parameters of a query when some tokens are used: `max_tokens` is the limit, or what is left
of the budget of the episode. -/
def Budgeted (limit : Nat) (used : Int) (params : Dict) : Prop :=
  ∃ n : Int, 0 < n ∧ params = cfg.model.samplingParams.set "max_tokens" (.int n) ∧
    n = cfg.model.maxTotalTokens.elim (limit : Int) (fun total => min limit (total - used))

/-- A query for the next chunk, with the memory that the one before it left. -/
def Reads (prompt : String) (chunks : List String) (before : List Asked) (x : Asked) : Prop :=
  ∃ chunk, chunks[before.length]? = some chunk ∧
    x.messages = [userMessage (memTemplate prompt (memoryText (memoryAfter before)) chunk)] ∧
    Budgeted cfg cfg.maxMemorizationLength (tokensOf before) x.params

/-- The query for the answer. -/
def Concludes (prompt : String) (before : List Asked) (x : Asked) : Prop :=
  x.messages = [userMessage (memTemplateFinalBoxed prompt (memoryText (memoryAfter before)))] ∧
    Budgeted cfg cfg.maxFinalResponseLength (tokensOf before) x.params

/-- The context of a query in the result. -/
def segmentOf (x : Asked) : ContextStepOutput where
  promptMessages := x.messages
  messages := x.messages ++ [[("role", .str "assistant"), ("content", .str x.reply.content)]]
  steps := [⟨1, x.reply.content, x.reply.promptTokens, x.reply.completionTokens⟩]

@[simp] theorem memoryAfter_concat (asked : List Asked) (x : Asked) :
    memoryAfter (asked ++ [x]) = some x.reply.content := by
  simp [memoryAfter]

@[simp] theorem tokensOf_concat (asked : List Asked) (x : Asked) :
    tokensOf (asked ++ [x]) = tokensOf asked + x.reply.completionTokens := by
  simp [tokensOf]

/-! ## Turns -/

section Turns

variable {cfg query} {asked : List Asked} {a a' : MemAgent} {w w' : σ} {text prompt : String}
  {limit : Nat}

/-- Where an agent is after some queries. -/
structure After (asked : List Asked) (a : MemAgent) : Prop where
  active : a.contextSessionActive = true
  steps : a.globalStepIdx = asked.length
  tokens : a.totalCompletionTokens = tokensOf asked
  collected : (collectContextStep a).trajectory = asked.map segmentOf

theorem samplingParamsForStep_eq_ok {used : Int} {params : Dict} (hlimit : 0 < limit)
    (h : samplingParamsForStep cfg used limit = .ok params) : Budgeted cfg limit used params := by
  unfold samplingParamsForStep at h
  cases htotal : cfg.model.maxTotalTokens with
  | none =>
    rw [htotal] at h
    cases h
    exact ⟨limit, by omega, rfl, by simp [htotal]⟩
  | some total =>
    rw [htotal] at h
    simp only at h
    split at h
    · cases h
    · cases h
      exact ⟨min limit (total - used), by omega, rfl, by simp [htotal]⟩

theorem collectContextStep_kept (a : MemAgent) :
    (collectContextStep a).contextSessionActive = a.contextSessionActive ∧
      (collectContextStep a).globalStepIdx = a.globalStepIdx ∧
      (collectContextStep a).totalCompletionTokens = a.totalCompletionTokens := by
  unfold collectContextStep
  split
  · exact ⟨rfl, rfl, rfl⟩
  · split <;> exact ⟨rfl, rfl, rfl⟩

/-- A turn asks one query, in a context of its own. -/
theorem turn_eq_ok (h : After asked a) (hlimit : 0 < limit) {output : ContextTurnOutput}
    (hturn : turn cfg query a w text limit = (.ok output, a', w')) :
    ∃ params reply, query w [userMessage text] params = (.ok reply, w') ∧
      Budgeted cfg limit (tokensOf asked) params ∧ asked.length < cfg.maxSteps ∧
      output.response = reply.content ∧
      After (asked ++ [⟨[userMessage text], params, reply⟩]) a' := by
  obtain ⟨_, hsteps, htokens⟩ := collectContextStep_kept a
  unfold turn updateContext at hturn
  rw [if_pos h.active] at hturn
  simp only [step, hsteps, htokens, h.steps, h.tokens] at hturn
  split at hturn
  · cases hturn
  · next hless =>
    cases hparams : samplingParamsForStep cfg (tokensOf asked) limit with
    | error e => simp [hparams] at hturn
    | ok params =>
      rw [hparams] at hturn
      rcases hquery : query w [userMessage text] params with ⟨e | reply, v⟩
      · simp [hquery] at hturn
      · simp only [hquery, Prod.mk.injEq, Except.ok.injEq] at hturn
        obtain ⟨rfl, rfl, rfl⟩ := hturn
        refine ⟨params, reply, hquery, samplingParamsForStep_eq_ok hlimit hparams,
          by omega, rfl, ?_⟩
        constructor
        · exact (collectContextStep_kept a).1.trans h.active
        · simp
        · simp
        · have hcollected := h.collected
          simp only [collectContextStep, List.nil_append, List.isEmpty_cons, Bool.false_eq_true,
            if_false, List.map_append, List.map_cons, List.map_nil, ← hcollected, segmentOf]

/-- The loop reads chunk after chunk, up to the limit. -/
theorem readChunks_eq_ok {chunks rest : List String} {memory memory' : Option String} {w₀ : σ}
    (h : After asked a) (hasked : Exchanges query w₀ asked w)
    (hreads : runs.EachAfter (Reads cfg prompt chunks) asked)
    (hrest : chunks.drop asked.length = rest) (hbound : asked.length ≤ cfg.maxChunks)
    (hlength : asked.length ≤ chunks.length) (hmemory : memory = memoryAfter asked)
    (hread : readChunks cfg query prompt memory rest a w = (.ok memory', a', w')) :
    ∃ asked', After asked' a' ∧ Exchanges query w₀ asked' w' ∧
      runs.EachAfter (Reads cfg prompt chunks) asked' ∧ memory' = memoryAfter asked' ∧
      asked'.length = min chunks.length cfg.maxChunks := by
  induction rest generalizing asked a w memory with
  | nil =>
    cases hread
    have hall := List.drop_eq_nil_iff.mp hrest
    exact ⟨asked, h, hasked, hreads, hmemory, by omega⟩
  | cons chunk rest ih =>
    unfold readChunks at hread
    rw [h.steps] at hread
    split at hread
    · cases hread
      exact ⟨asked, h, hasked, hreads, hmemory, by omega⟩
    · next hroom =>
      have hchunk : chunks[asked.length]? = some chunk := by
        rw [← List.head?_drop, hrest]
        rfl
      rcases hturn : turn cfg query a w (memTemplate prompt (memoryText memory) chunk)
          cfg.maxMemorizationLength with ⟨e | output, b, v⟩
      · simp [hturn] at hread
      · rw [hturn] at hread
        obtain ⟨params, reply, hquery, hbudget, _, hresponse, hafter⟩ :=
          turn_eq_ok h cfg.maxMemorizationLength_pos hturn
        refine ih hafter (hasked.snoc hquery) (runs.eachAfter_concat.mpr ⟨hreads, chunk, hchunk,
          ?_, hbudget⟩) ?_ ?_ ?_ ?_ hread
        · rw [hmemory]
        · rw [List.length_append, List.length_singleton, ← List.drop_drop, hrest]
          rfl
        · rw [List.length_append, List.length_singleton]
          omega
        · rw [List.length_append, List.length_singleton]
          exact List.getElem?_eq_some_iff.mp hchunk |>.1
        · rw [memoryAfter_concat, hresponse]

/-- The conversation of a run, all in all. -/
structure Conversed (cfg : MemAgentConfig)
    (query : σ → List Dict → Dict → Except PyError TurnReply × σ) (prompt : String)
    (chunks : List String) (w w' : σ) (asked : List Asked) (final : Asked) : Prop where
  exchanges : Exchanges query w (asked ++ [final]) w'
  count : asked.length = min chunks.length cfg.maxChunks
  steps : asked.length < cfg.maxSteps
  reads : runs.EachAfter (Reads cfg prompt chunks) asked
  concludes : Concludes cfg prompt asked final

theorem converse_eq_ok {chunks : List String}
    (h : converse cfg query prompt chunks { contextSessionActive := true } w = (.ok (), a', w')) :
    ∃ asked final, Conversed cfg query prompt chunks w w' asked final ∧
      After (asked ++ [final]) a' := by
  unfold converse at h
  rcases hread : readChunks cfg query prompt none chunks { contextSessionActive := true } w with
    ⟨e | memory, b, v⟩
  · simp [hread] at h
  · rw [hread] at h
    simp only at h
    have hstart : After [] ({ contextSessionActive := true } : MemAgent) := ⟨rfl, rfl, rfl, rfl⟩
    obtain ⟨asked, hafter, hasked, hreads, hmemory, hcount⟩ :=
      readChunks_eq_ok hstart .nil runs.eachAfter_nil rfl (Nat.zero_le _) (Nat.zero_le _) rfl hread
    rcases hturn : turn cfg query b v (memTemplateFinalBoxed prompt (memoryText memory))
        cfg.maxFinalResponseLength with ⟨e | output, b', v'⟩
    · simp [hturn] at h
    · rw [hturn] at h
      cases h
      obtain ⟨params, reply, hquery, hbudget, hsteps, _, hend⟩ :=
        turn_eq_ok hafter cfg.maxFinalResponseLength_pos hturn
      refine ⟨asked, _, ⟨hasked.snoc hquery, hcount, hsteps, hreads, ?_, hbudget⟩, hend⟩
      rw [hmemory]

/-- The result of a run with these queries. -/
def resultOf (asked : List Asked) (final : Asked) : MemAgentResult where
  response := final.reply.content
  contextManagerResult := {
    trajectory := (asked ++ [final]).map segmentOf
    finalState := segmentOf final
    totalSteps := asked.length + 1 }
  transcript := (asked ++ [final]).flatMap (fun x => (segmentOf x).messages)
  totalSteps := asked.length + 1
  numContexts := asked.length + 1

theorem buildAgentResult_eq {final : Asked} (h : After (asked ++ [final]) a) :
    buildAgentResult (leaveContextSession a) = .ok (resultOf asked final) := by
  have hcollected := h.collected
  have hsteps := (collectContextStep_kept a).2.1.trans h.steps
  rw [List.map_append, List.map_singleton] at hcollected
  unfold buildAgentResult leaveContextSession
  simp only [hcollected, hsteps, Bool.false_eq_true, if_false, List.getLast?_concat,
    Option.getD_some, resultOf, segmentOf, List.getLast?_singleton, Option.elim_some,
    List.length_append, List.length_singleton, List.length_map, List.map_append, List.map_cons,
    List.map_nil, List.flatMap_append, List.flatMap_singleton, List.flatMap_map]

end Turns

variable {cfg query} {py : PythonLibrary} {aclose : Option PyError} {messages : List Dict}
  {rawData : Option Dict} {a a' : MemAgent} {w w' : σ}

/-- A run that returns has had its conversation to the end. -/
theorem run_eq_ok {result : MemAgentResult}
    (h : run cfg query py aclose messages rawData a w = (.ok result, a', w')) :
    ∃ first rest chunks b, messages = first :: rest ∧ chunksOf rawData = .ok chunks ∧
      converse cfg query (py.str ((first.get? "content").getD (.str ""))) chunks
        { contextSessionActive := true } w = (.ok (), b, w') ∧
      buildAgentResult (leaveContextSession b) = .ok result := by
  unfold run at h
  cases messages with
  | nil => simp at h
  | cons first rest =>
    simp only at h
    cases hchunks : chunksOf rawData with
    | error e => simp [hchunks] at h
    | ok chunks =>
      rw [hchunks] at h
      simp only at h
      split at h
      · simp at h
      · split at h
        · simp at h
        · rcases hconverse : converse cfg query (py.str ((first.get? "content").getD (.str "")))
            chunks { contextSessionActive := true } w with ⟨outcome, b, v⟩
          rw [hconverse] at h
          cases aclose with
          | some e => simp at h
          | none =>
            cases outcome with
            | error e => simp at h
            | ok u =>
              simp only [Prod.mk.injEq] at h
              obtain ⟨hresult, _, rfl⟩ := h
              exact ⟨first, rest, chunks, b, rfl, rfl, hconverse, hresult⟩

/-- A run that returns has put the first chunks to the policy, one query for each, in order and up
to the limit, each with the reply to the one before it as its memory, and then the question with
the last memory. Every query is a context of its own within the budget, and the result has these
contexts and no other. -/
theorem memory_is_carried {result : MemAgentResult}
    (h : run cfg query py aclose messages rawData a w = (.ok result, a', w')) :
    ∃ first rest chunks asked final, messages = first :: rest ∧ chunksOf rawData = .ok chunks ∧
      Conversed cfg query (py.str ((first.get? "content").getD (.str ""))) chunks w w' asked
        final ∧ result = resultOf asked final := by
  obtain ⟨first, rest, chunks, b, hmessages, hchunks, hconverse, hresult⟩ := run_eq_ok h
  obtain ⟨asked, final, hasked, hafter⟩ := converse_eq_ok hconverse
  rw [buildAgentResult_eq hafter, Except.ok.injEq] at hresult
  exact ⟨first, rest, chunks, asked, final, hmessages, hchunks, hasked, hresult.symm⟩

/-- Whatever happens in a run, the context session is left. -/
theorem run_leaves {outcome : Except PyError MemAgentResult}
    (hidle : a.contextSessionActive = false)
    (h : run cfg query py aclose messages rawData a w = (outcome, a', w')) :
    a'.contextSessionActive = false := by
  have hleft : ∀ b : MemAgent, (leaveContextSession b).contextSessionActive = false :=
    fun b => rfl
  unfold run at h
  cases messages with
  | nil =>
    cases h
    exact hidle
  | cons first rest =>
    simp only at h
    cases hchunks : chunksOf rawData with
    | error e =>
      rw [hchunks] at h
      cases h
      exact hidle
    | ok chunks =>
      simp only [hchunks, hidle, Bool.false_eq_true, if_false] at h
      split at h
      · cases h
        exact hidle
      · split at h <;> cases h <;> exact hleft _

/-- An endpoint that keeps to `max_tokens` keeps the episode within its budget. -/
theorem Conversed.within_budget {prompt : String} {chunks : List String} {asked : List Asked}
    {final : Asked} (h : Conversed cfg query prompt chunks w w' asked final) {total : Int}
    (htotal : cfg.model.maxTotalTokens = some total)
    (hobeys : ∀ n, final.params.get? "max_tokens" = some (.int n) →
      final.reply.completionTokens ≤ n) : tokensOf (asked ++ [final]) ≤ total := by
  obtain ⟨_, n, _, hparams, hn⟩ := h.concludes
  have hle := hobeys n (by rw [hparams, Dict.get?_set_self])
  rw [htotal, Option.elim_some] at hn
  rw [tokensOf_concat]
  omega

/-! ## Three chunks, of which two are read -/

def twoChunks : MemAgentConfig where
  model := { baseUrl := some "http://localhost/v1", maxTotalTokens := some 100 }
  maxChunks := 2

/-- Every reply is its number. -/
def counting (n : Nat) (_ : List Dict) (_ : Dict) : Except PyError TurnReply × Nat :=
  (.ok ⟨toString n, 10, 2⟩, n + 1)

theorem memory_is_carried_twoChunks :
    ∃ asked final, Conversed twoChunks counting "p" ["a", "b", "c"] 0 3 asked final ∧
      asked.length = 2 := by
  have hfacts : ∃ result a', run twoChunks counting plainPython none [userMessage "p"]
      (some [("chunks", .arr [.str "a", .str "b", .str "c"])]) {} 0 = (.ok result, a', 3) :=
    ⟨_, _, rfl⟩
  obtain ⟨result, a', hrun⟩ := hfacts
  obtain ⟨first, rest, chunks, asked, final, hmessages, hchunks, hasked, _⟩ :=
    memory_is_carried hrun
  cases hmessages
  cases hchunks
  exact ⟨asked, final, hasked, hasked.count⟩

end MemAgent

end uni_agent.agents
