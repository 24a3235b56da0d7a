-- MemAgent over a session of its own: every context of a run becomes a trajectory, with the prompt
-- of the context and the reply to it, however its calls fail and are made again.
import Mathlib.Data.List.ReduceOption
import UniAgent.ActorSafety
import UniAgent.CharacterCodec
import UniAgent.ClientSessions
import UniAgent.MemAgent
import UniAgent.OpenedChains

namespace uni_agent

/-- The fields of a dict after others are set. -/
theorem Dict.get?_foldl_set {fields body : Dict} {key : String}
    (h : ∀ field ∈ fields, field.1 ≠ key) :
    (fields.foldl (fun body field => body.set field.1 field.2) body).get? key = body.get? key := by
  induction fields generalizing body with
  | nil => rfl
  | cons field rest ih =>
    rw [List.foldl_cons, ih (fun other hother => h other (by simp [hother])),
      Dict.get?_set_ne _ (Ne.symm (h field (by simp)))]

theorem Dict.mem_set {d : Dict} {key : String} {value : Json} {field : String × Json}
    (h : field ∈ d.set key value) : field.1 = key ∨ field ∈ d := by
  unfold Dict.set at h
  split at h
  · obtain ⟨old, hold, heq⟩ := List.mem_map.mp h
    split at heq
    · subst heq
      exact Or.inl rfl
    · subst heq
      exact Or.inr hold
  · rcases List.mem_append.mp h with h | h
    · exact Or.inr h
    · rw [List.mem_singleton.mp h]
      exact Or.inl rfl

namespace agents.MemAgent

open gateway (ActorSettings ClientWorld Occasion queryResponse lowerPayload)
open session (AllApart CommittedOnce GenerationOutcome InternalGenerationRequest Reuses System
  VersionsReported allApart_step capacityReached capacity_effect committedOnce_effect not_reuses
  prepare_chosen prepare_eq_ok prepare_fresh step_effect)

/-! ## The policy behind a session -/

/-- The model that `context_session` opens. -/
def chatModel (cfg : MemAgentConfig) : ChatModel where
  modelName := cfg.model.modelName.elim .null .str
  samplingParams := cfg.model.samplingParams

/-- What `step` takes from a response, as `ContextTurnOutput` checks it. -/
def turnReply (data : Json) : Except PyError TurnReply := do
  let reply ← ChatModel.readResponse data
  let usage := orElse (← getField data "usage") (.obj [])
  let promptTokens ← getField usage "prompt_tokens" (.int 0)
  let completionTokens ← getField usage "completion_tokens" (.int 0)
  match reply.content, promptTokens, completionTokens with
  | .str content, .int prompt, .int completion => return ⟨content, prompt, completion⟩
  | _, _, _ => throw (.otherException "ValidationError" "")

/-- `self._model.query` when the policy is a session of an actor. -/
def sessionQuery (settings : ActorSettings) (sessionId : String) (occasions : Nat → Occasion)
    (cfg : MemAgentConfig) (w : ClientWorld) (messages : List Dict) (params : Dict) :
    Except PyError TurnReply × ClientWorld :=
  match queryResponse settings sessionId occasions (chatModel cfg) w messages (some params) with
  | (result, w) => (result.bind turnReply, w)

/-! ## What the session is asked -/

section Asks

variable {cfg : MemAgentConfig} {text : String} {params body base : Dict} {py : PythonLibrary}
  {allowed : List String} {request : InternalGenerationRequest}

/-- The keys of the parameters of a query. -/
def queryKeys : List String := ["temperature", "top_p", "top_k", "max_tokens"]

theorem key_of_budgeted {limit : Nat} {used : Int} (h : Budgeted cfg limit used params) :
    ∀ field ∈ params, field.1 ∈ queryKeys := by
  obtain ⟨n, _, rfl, _⟩ := h
  intro field hfield
  rcases Dict.mem_set hfield with heq | hfield
  · rw [heq]
    decide
  · unfold ModelConfig.samplingParams at hfield
    rcases List.mem_append.mp hfield with hfield | hfield
    · rcases List.mem_append.mp hfield with hfield | hfield
      · cases htemperature : cfg.model.temperature with
        | none => simp [htemperature] at hfield
        | some x =>
          rw [htemperature] at hfield
          simp [List.mem_singleton.mp hfield, queryKeys]
      · cases htop : cfg.model.topP with
        | none => simp [htop] at hfield
        | some x =>
          rw [htop] at hfield
          simp [List.mem_singleton.mp hfield, queryKeys]
    · cases htop : cfg.model.topK with
      | none => simp [htop] at hfield
      | some n =>
        rw [htop] at hfield
        simp [List.mem_singleton.mp hfield, queryKeys]

theorem get?_requestBody (hkeys : ∀ field ∈ params, field.1 ∈ queryKeys)
    (h : (chatModel cfg).requestBody [userMessage text] (some params) = .ok body) {key : String}
    (hkey : key ∉ queryKeys) (hmodel : key ≠ "model") : body.get? key =
      if key = "messages" then some (.arr [.obj (userMessage text)]) else none := by
  have hnormal : ChatModel.normalizeMessagesForApi [userMessage text] =
      .ok [userMessage text] := by
    simp [ChatModel.normalizeMessagesForApi, ChatModel.normalizeMessageForApi, userMessage,
      subscript, ChatModel.presentField, Dict.get?, List.lookup_cons, List.lookup_nil, Json.isText,
        bind, Except.bind,
      pure, Except.pure]
  unfold ChatModel.requestBody at h
  simp only [hnormal, Option.getD_some, bind, Except.bind, pure, Except.pure, chatModel,
    List.isEmpty_nil, if_true, Except.ok.injEq] at h
  subst h
  rw [Dict.get?_foldl_set]
  · by_cases hmessages : key = "messages"
    · simp [hmessages, Dict.get?, List.lookup_cons]
    · simp [hmessages, Dict.get?, List.lookup_cons, beq_eq_false_iff_ne.mpr hmessages,
        beq_eq_false_iff_ne.mpr hmodel]
  · rintro field hfield rfl
    exact hkey (hkeys field (List.mem_of_mem_filter hfield))

/-- A session reads a query as one message of the user, without tools. -/
theorem lower_requestBody (hkeys : ∀ field ∈ params, field.1 ∈ queryKeys)
    (h : (chatModel cfg).requestBody [userMessage text] (some params) = .ok body)
    (hlower : lowerPayload py .openai base allowed (.obj body) = .ok request) :
    request.messages = [{ role := "user", content := .str text }] ∧ request.tools = none := by
  have hget : ∀ key, key ∉ queryKeys → key ≠ "model" → body.get? key =
      if key = "messages" then some (.arr [.obj (userMessage text)]) else none :=
    fun key hkey hmodel => get?_requestBody hkeys h hkey hmodel
  have hmessages : openai.messagesOf body = .ok [.obj (userMessage text)] := by
    unfold openai.messagesOf
    rw [hget "messages" (by decide) (by decide)]
    rfl
  have htools : openai.toolsOf body = .ok none := by
    unfold openai.toolsOf
    rw [hget "tools" (by decide) (by decide)]
    rfl
  have hnormal : openai.normalizeMessage py (.obj (userMessage text)) =
      .ok { role := "user", content := .str text } := by
    simp [openai.normalizeMessage, openai.messageRole, openai.normalizeMessageContent,
      openai.messageName, openai.messageToolCalls, openai.messageReasoning, userMessage, Dict.get?,
      List.lookup_cons, List.lookup_nil, bind, Except.bind, pure, Except.pure]
  unfold lowerPayload at hlower
  obtain ⟨internal, hinternal, hlower⟩ := bind_eq_ok.mp hlower
  obtain ⟨_, _, hlower⟩ := bind_eq_ok.mp hlower
  cases hlower
  unfold Route.toInternal openai.openaiToInternal at hinternal
  dsimp only at hinternal
  obtain ⟨_, _, hinternal⟩ := bind_eq_ok.mp hinternal
  obtain ⟨toolChoice, _, hinternal⟩ := bind_eq_ok.mp hinternal
  rw [hmessages, htools] at hinternal
  simp only [bind, Except.bind, List.mapM_cons, List.mapM_nil, hnormal, pure, Except.pure,
    Except.ok.injEq, ite_self] at hinternal
  subst hinternal
  exact ⟨rfl, rfl⟩

end Asks

/-- What a query returns when it is answered with an outcome. -/
theorem turnReply_outcome {envelope : openai.Envelope} {outcome : GenerationOutcome} {text : String}
    (hmessage : outcome.assistantMsg = { role := "assistant", content := .str text }) :
    turnReply (.obj (openai.openaiBuildResponse envelope outcome)) =
      .ok ⟨text, outcome.promptTokens, outcome.completionTokens⟩ := by
  by_cases htext : text = "" <;>
    simp [turnReply, ChatModel.readResponse, openai.openaiBuildResponse, hmessage, Message.toDict,
      optionalField, subscript, firstOf, getField, iterate, orElse, Json.truthy, Dict.get?,
      List.lookup_cons, List.lookup_nil, openai.usage, bind, Except.bind, pure, Except.pure, htext]

theorem turnReply_errorBody {status : Nat} {message : String} {reply : TurnReply} :
    turnReply (Route.openai.errorBody status message) ≠ .ok reply := by
  simp [turnReply, ChatModel.readResponse, Route.errorBody, openai.errorBody, subscript, Dict.get?,
    List.lookup_cons, List.lookup_nil, bind, Except.bind]

/-! ## The contexts of a run in its session -/

section Contexts

variable {settings : ActorSettings} {object : gateway.CallName} {base : Dict} {T : String → Prop}
  {capacity : Option Nat} {C : MessageCodec}

/-- A request with one of some texts, and nothing else. -/
def Asks (T : String → Prop) (request : InternalGenerationRequest) : Prop :=
  ∃ text, T text ∧ request.messages = [{ role := "user", content := .str text }] ∧
    request.tools = none

/-- The tokens of the messages of a request. -/
def Encodes (C : MessageCodec) (request : InternalGenerationRequest) (ids : List Token) : Prop :=
  ∃ images videos, C.encodeFull request.messages request.tools images videos = .ok ids

/-- The tokens of a text that is a conversation of its own. -/
def Prompts (C : MessageCodec) (text : String) (ids : List Token) : Prop :=
  Encodes C { messages := [{ role := "user", content := .str text }] } ids

/-- What the session of a run keeps. -/
structure Contexts (C : MessageCodec) (capacity : Option Nat) (T : String → Prop)
    (sys : System) : Prop where
  apart : AllApart C 1 (fun _ request => Asks T request) VersionsReported sys
  once : CommittedOnce sys
  active : sys.session.phase = .active
  capacity : sys.session.trajectoryCapacity = capacity

theorem encodes_of_prepare {sys : System} {request : InternalGenerationRequest}
    {encoded : session.EncodedData} (h : Contexts C capacity T sys) (hasks : Asks T request)
    (hprep : sys.session.prepareGenerationInputs C request = .ok encoded) :
    Encodes C request encoded.contextIds ∧
      encoded.capacityExhausted = capacityReached capacity encoded.contextIds.length := by
  obtain ⟨text, _, hmessages, _⟩ := hasks
  obtain ⟨chosen, hchosen⟩ := prepare_chosen hprep
  cases hchosen with
  | fresh hselect _ _ =>
    obtain ⟨promptIds, _, hfull, hbuffer, hexhausted⟩ := prepare_fresh hprep hselect
    obtain ⟨w, _, hpacked⟩ := prepare_eq_ok hprep
    have hcontext : encoded.contextIds = promptIds := by
      rw [hpacked.contextIds, ← hpacked.buffer, hbuffer]
      exact List.append_nil _
    rw [hcontext, hexhausted, h.capacity]
    exact ⟨⟨_, _, hfull⟩, rfl⟩
  | reused chain rollback hselect hchain hrollback =>
    have hreuse : Reuses C sys.session request encoded chain :=
      ⟨h.active, hprep, hrollback ▸ hselect, hchain⟩
    exact absurd hreuse (not_reuses h.apart.opened (by simp [hmessages]))

/-- An output that reports its first step reports its last step too. -/
def Versioned (output : session.TokenOutput) : Prop :=
  output.minGlobalSteps.isSome → output.maxGlobalSteps.isSome

/-- The contract of the session of a run. -/
theorem contexts_contract : gateway.Contract C (Asks T) Versioned
    (Contexts C capacity T) (Encodes C)
    (fun request ids => Encodes C request ids ∧ capacityReached capacity ids.length = true) := by
  constructor
  · intro sys b t hco h hpermits hstep
    have heffect := step_effect hco hstep
    constructor
    · refine allApart_step h.apart ?_ ?_ ?_ hstep
      · rintro request rfl
        obtain ⟨text, _, hmessages, _⟩ := hpermits
        simp [hmessages]
      · intro entry hentry
        cases b with
        | request request =>
          cases List.mem_singleton.mp hentry
          exact hpermits
        | _ => cases hentry
      · intro g hg
        cases b with
        | backendReturns requestId output =>
          obtain ⟨f, _, rfl⟩ := List.mem_map.mp hg
          exact hpermits
        | _ => cases hg
    · exact committedOnce_effect hco h.once heffect
    · rcases gateway.phase_of_effect heffect with hphase | ⟨_, ⟨rfl, _⟩ | ⟨rfl, _⟩⟩
      · rw [hphase, h.active]
      · exact hpermits.elim
      · exact hpermits.elim
    · rw [capacity_effect heffect, h.capacity]
  · intro sys request encoded h hasks hprep hroom
    exact (encodes_of_prepare h hasks hprep).1
  · intro sys request encoded h hasks hprep hexhausted
    obtain ⟨hencodes, hcapacity⟩ := encodes_of_prepare h hasks hprep
    exact ⟨hencodes, hcapacity.symm.trans hexhausted⟩

/-- What became of a query: its prompt had no room, or a commit of its own gave the reply. -/
inductive Fate (C : MessageCodec) (capacity : Option Nat) (x : Asked) :
    Option session.Generation → Prop
  | full (text : String) (ids : List Token) (hmessages : x.messages = [userMessage text])
      (hprompt : Prompts C text ids) (hfull : capacityReached capacity ids.length = true)
      (hreply : x.reply = ⟨"", ids.length, 0⟩) : Fate C capacity x none
  | generated (text : String) (g : session.Generation) (hmessages : x.messages = [userMessage text])
      (hprompt : Prompts C text g.contextIds)
      (hreply : x.reply =
        ⟨C.tokenizerDecode g.out true, g.contextIds.length, g.out.length⟩) :
      Fate C capacity x (some g)

/-- Without tools an output is read as a text. -/
theorem decodeResponse_none (ids : List Token) (stopReason : Option String)
    (callIds : Nat → String) :
    C.decodeResponse ids none stopReason callIds = .ok (C.decodeText ids stopReason) := by
  unfold MessageCodec.decodeResponse
  cases C.toolParserName <;> rfl

/-- A query that is answered, in a session that keeps to its contract. -/
theorem sessionQuery_fate {occasions : Nat → Occasion} {cfg : MemAgentConfig} {w w' : ClientWorld}
    {sys : System} {text : String} {params : Dict} {reply : TurnReply}
    (houtputs : gateway.OutputsMeet object.sessionId Versioned occasions)
    (hready : gateway.Ready settings object base (Asks T)
        (Contexts settings.codec capacity T) w sys)
    (htext : T text) (hkeys : ∀ field ∈ params, field.1 ∈ queryKeys)
    (h : sessionQuery settings object.sessionId occasions cfg w [userMessage text] params =
      (.ok reply, w')) :
    ∃ sys', gateway.Ready settings object base (Asks T)
        (Contexts settings.codec capacity T) w' sys' ∧
      session.Later sys sys' ∧
      ∃ fate, Fate settings.codec capacity ⟨[userMessage text], params, reply⟩ fate ∧
        ∀ g, fate = some g → g ∈ sys'.ledger.commits ∧ sys.nextRequestId ≤ g.requestId := by
  unfold sessionQuery at h
  rcases hquery : queryResponse settings object.sessionId occasions (chatModel cfg) w
    [userMessage text] (some params) with ⟨result, u⟩
  rw [hquery, Prod.mk.injEq] at h
  obtain ⟨hreply, rfl⟩ := h
  obtain ⟨sys', hready', hlater, hread⟩ := gateway.queryResponse_spec contexts_contract houtputs
    hready (fun body request hbody hlower => by
      obtain ⟨hmessages, htools⟩ := lower_requestBody hkeys hbody hlower
      exact ⟨text, htext, hmessages, htools⟩) hquery
  refine ⟨sys', hready', hlater, ?_⟩
  cases result with
  | error e => cases hreply
  | ok data =>
    obtain ⟨body, hbody, hdata⟩ := hread data rfl
    cases hdata with
    | refused status message => exact absurd hreply turnReply_errorBody
    | outcome request envelope outcome requestId hlower hid hanswered =>
      obtain ⟨hmessages, htools⟩ := lower_requestBody hkeys hbody hlower
      have hprompt : ∀ {ids}, Encodes settings.codec request ids →
        Prompts settings.codec text ids := by
        rintro ids ⟨images, videos, hids⟩
        rw [hmessages, htools] at hids
        exact ⟨images, videos, hids⟩
      cases hanswered with
      | full encoded hfull =>
        have hreply : turnReply _ = _ := hreply
        rw [turnReply_outcome rfl] at hreply
        cases hreply
        exact ⟨none, .full text _ rfl (hprompt hfull.1) hfull.2 rfl, by simp⟩
      | generated g _ callIds hmem hg _ hgiven hdecode hcontext hcompletion =>
        have hmessage : outcome.assistantMsg = {
            role := "assistant"
            content := .str (settings.codec.tokenizerDecode g.out true) } := by
          rw [htools, decodeResponse_none, Except.ok.injEq] at hdecode
          exact (congrArg Prod.fst hdecode).symm
        have hreply : turnReply _ = _ := hreply
        rw [turnReply_outcome hmessage] at hreply
        cases hreply
        refine ⟨some g, .generated text g rfl (hprompt hgiven) ?_, ?_⟩
        · rw [hcontext, hcompletion]
          rfl
        · rintro _ ⟨⟩
          exact ⟨hmem, hg ▸ hid⟩

/-- The queries of a run, one after the other: the commits that stand behind them are in the order
of the queries. -/
theorem exchanges_fates {occasions : Nat → Occasion} {cfg : MemAgentConfig} {w w' : ClientWorld}
    {sys : System} {asked : List Asked}
    (houtputs : gateway.OutputsMeet object.sessionId Versioned occasions)
    (hready : gateway.Ready settings object base (Asks T)
        (Contexts settings.codec capacity T) w sys)
    (hasked : ∀ x ∈ asked, ∃ text, T text ∧ x.messages = [userMessage text] ∧
      ∀ field ∈ x.params, field.1 ∈ queryKeys)
    (h : Exchanges (sessionQuery settings object.sessionId occasions cfg) w asked w') :
    ∃ sys', gateway.Ready settings object base (Asks T)
        (Contexts settings.codec capacity T) w' sys' ∧
      ∃ fates, List.Forall₂ (Fate settings.codec capacity) asked fates ∧
        fates.reduceOption.Sublist sys'.ledger.commits := by
  induction h with
  | nil => exact ⟨sys, hready, [], .nil, List.nil_sublist _⟩
  | @snoc asked u v messages params reply _ hquery ih =>
    obtain ⟨sys₁, hready₁, fates, hfates, hsub⟩ := ih (fun x hx => hasked x (by simp [hx]))
    obtain ⟨text, htext, rfl, hkeys⟩ := hasked ⟨messages, params, reply⟩ (by simp)
    obtain ⟨sys', hready', hlater, fate, hfate, hcommitted⟩ :=
      sessionQuery_fate houtputs hready₁ htext hkeys hquery
    obtain ⟨new, hnew⟩ := hlater.commits
    refine ⟨sys', hready', fates ++ [fate], List.rel_append hfates (.cons hfate .nil), ?_⟩
    rw [List.reduceOption_append, ← hnew]
    refine hsub.append ?_
    cases fate with
    | none => simp [List.reduceOption]
    | some g =>
      obtain ⟨hmem, hid⟩ := hcommitted g rfl
      have hlate : g ∉ sys₁.ledger.commits := fun hearly =>
        Nat.not_lt.mpr hid (hready₁.alone.law.once.lt g hearly)
      rw [← hnew] at hmem
      simpa [List.reduceOption] using (List.mem_append.mp hmem).resolve_left hlate

/-! ## The trajectories of a run -/

/-- What training sees of a context: nothing, when its prompt alone fills the capacity, or a
trajectory with its prompt and the reply to it, all of it trainable. -/
inductive Learned (C : MessageCodec) (capacity : Option Nat) (context : ContextStepOutput) :
    Option session.Trajectory → Prop
  | full (text : String) (ids : List Token) (hprompt : context.promptMessages = [userMessage text])
      (hids : Prompts C text ids) (hfull : capacityReached capacity ids.length = true)
      (hmessages : context.messages = context.promptMessages ++
        [[("role", .str "assistant"), ("content", .str "")]]) : Learned C capacity context none
  | trajectory (text : String) (t : session.Trajectory)
      (hprompt : context.promptMessages = [userMessage text]) (hids : Prompts C text t.promptIds)
      (hmessages : context.messages = context.promptMessages ++
        [[("role", .str "assistant"), ("content", .str (C.tokenizerDecode t.responseIds true))]])
      (hmask : t.responseMask = List.replicate t.responseIds.length 1) :
      Learned C capacity context (some t)

/-- A trajectory that holds one call, and that with a prompt of its own. -/
abbrev Holds (C : MessageCodec) (T : String → Prop) (t : session.Trajectory)
    (g : session.Generation) : Prop :=
  session.OnlyCall C (fun _ request => Asks T request) VersionsReported t.promptIds t.responseIds
    t.responseMask g

theorem exists_learned {asked : List Asked} {fates : List (Option session.Generation)}
    {trajectories : List session.Trajectory}
    (hfates : List.Forall₂ (Fate C capacity) asked fates)
    (h : List.Forall₂ (Holds C T) trajectories fates.reduceOption) :
    ∃ learned, List.Forall₂ (Learned C capacity) (asked.map segmentOf) learned ∧
      learned.reduceOption = trajectories := by
  induction hfates generalizing trajectories with
  | nil =>
    cases h
    exact ⟨[], .nil, rfl⟩
  | @cons x fate asked fates hfate _ ih =>
    cases hfate with
    | full text ids hmessages hprompt hfull hreply =>
      obtain ⟨learned, hlearned, rfl⟩ := ih h
      refine ⟨none :: learned, .cons (.full text ids hmessages hprompt hfull ?_) hlearned, rfl⟩
      simp [segmentOf, hreply]
    | generated text g hmessages hprompt hreply =>
      rw [List.reduceOption_cons_of_some] at h
      obtain _ | ⟨hholds, hrest⟩ := h
      obtain ⟨learned, hlearned, rfl⟩ := ih hrest
      refine ⟨some _ :: learned, .cons (.trajectory text _ hmessages ?_ ?_ ?_) hlearned, rfl⟩
      · rw [hholds.promptIds]
        exact hprompt
      · rw [hholds.responseIds]
        simp [segmentOf, hreply]
      · rw [hholds.responseMask, hholds.responseIds]
        rfl

/-- What corresponds to a part of a list is a part of the other. -/
theorem exists_sublist_of_forall₂ {α β : Type} {Q : α → β → Prop} {xs : List α} {ys part : List β}
    (h : List.Forall₂ Q xs ys) (hpart : part.Sublist ys) :
    ∃ front, front.Sublist xs ∧ List.Forall₂ Q front part := by
  induction h generalizing part with
  | nil =>
    cases List.sublist_nil.mp hpart
    exact ⟨[], .slnil, .nil⟩
  | cons hxy _ ih =>
    cases hpart with
    | cons _ hpart =>
      obtain ⟨front, hfront, hall⟩ := ih hpart
      exact ⟨front, hfront.cons _, hall⟩
    | cons_cons _ hpart =>
      obtain ⟨front, hfront, hall⟩ := ih hpart
      exact ⟨_ :: front, hfront.cons_cons _, .cons hxy hall⟩

theorem exists_of_forall₂_mem {α β : Type} {Q : α → β → Prop} {xs : List α} {ys : List β} {x : α}
    (h : List.Forall₂ Q xs ys) (hx : x ∈ xs) : ∃ y, Q x y := by
  induction h with
  | nil => cases hx
  | cons hxy _ ih =>
    rcases List.mem_cons.mp hx with rfl | hx
    · exact ⟨_, hxy⟩
    · exact ih hx

theorem Conversed.texts {σ : Type} {query : σ → List Dict → Dict → Except PyError TurnReply × σ}
    {cfg : MemAgentConfig} {prompt : String} {chunks : List String} {w w' : σ} {asked : List Asked}
    {final : Asked} (h : Conversed cfg query prompt chunks w w' asked final) :
    ∀ x ∈ asked ++ [final], ∃ text, x.messages = [userMessage text] ∧
      ∀ field ∈ x.params, field.1 ∈ queryKeys := by
  intro x hx
  rcases List.mem_append.mp hx with hx | hx
  · obtain ⟨before, after, hsplit⟩ := List.append_of_mem hx
    obtain ⟨chunk, _, hmessages, hbudget⟩ := h.reads before x after hsplit
    exact ⟨_, hmessages, key_of_budgeted hbudget⟩
  · cases List.mem_singleton.mp hx
    exact ⟨_, h.concludes.1, key_of_budgeted h.concludes.2⟩

/-- A run of MemAgent over a session that was created for it: whatever the actor does for others,
whichever attempts fail, are lost or come late, the session can be finalized after the run. In
order, every context of the result is a trajectory of its own, unless its prompt alone fills the
capacity, and every trajectory has the prompt of a context. -/
theorem contexts_become_trajectories {xs : List gateway.ActorAction} {m t : gateway.GatewayActor}
    {samplingParams : Option Dict} {o : gateway.SessionObject} {next : Nat}
    {occasions : Nat → Occasion} {cfg : MemAgentConfig} {py : PythonLibrary}
    {aclose : Option PyError} {messages : List Dict} {rawData : Option Dict} {a a' : MemAgent}
    {w' : ClientWorld} {result : MemAgentResult} (hrun : gateway.actorRun settings xs = some m)
    (hcreate : m.step settings (.createSession object samplingParams) = some t)
    (ho : t.objects object = some o)
    (hfree : ∀ k, next ≤ k → t.calls ⟨object.sessionId, k⟩ = none)
    (houtputs : gateway.OutputsMeet object.sessionId Versioned occasions)
    (hreturns : run cfg (sessionQuery settings object.sessionId occasions cfg) py aclose messages
      rawData a ⟨t, next⟩ = (.ok result, a', w')) :
    ∃ o' trajectories s' learned, w'.actor.objects object = some o' ∧
      o'.system.session.finalize = (.ok trajectories, s') ∧
      List.Forall₂ (Learned settings.codec o.system.session.trajectoryCapacity)
        result.contextManagerResult.trajectory learned ∧
      learned.reduceOption.Sublist trajectories ∧
      ∀ trajectory ∈ trajectories, ∃ context ∈ result.contextManagerResult.trajectory, ∃ text,
        context.promptMessages = [userMessage text] ∧
          Prompts settings.codec text trajectory.promptIds := by
  obtain ⟨_, _, chunks, _, _, _, hconverse, hresult⟩ := run_eq_ok hreturns
  obtain ⟨asked, final, hconversed, hafter⟩ := converse_eq_ok hconverse
  rw [buildAgentResult_eq hafter, Except.ok.injEq] at hresult
  subst hresult
  let T : String → Prop := fun text => ∃ x ∈ asked ++ [final], x.messages = [userMessage text]
  obtain ⟨s, hnew, rfl, halone⟩ := gateway.alone_created hrun hcreate ho
  have hstart : Contexts settings.codec s.trajectoryCapacity T (System.initial s) := by
    have hactive : (System.initial s).session.phase = .active := by
      obtain ⟨_, rfl⟩ := session.create_eq_ok hnew
      rfl
    exact ⟨session.allApart_initial hnew, ⟨by simp [System.initial], by simp [System.initial],
      by simp [System.initial]⟩, hactive, rfl⟩
  have hasked : ∀ x ∈ asked ++ [final], ∃ text, T text ∧ x.messages = [userMessage text] ∧
      ∀ field ∈ x.params, field.1 ∈ queryKeys := by
    intro x hx
    obtain ⟨text, hmessages, hkeys⟩ := hconversed.texts x hx
    exact ⟨text, ⟨x, hx, hmessages⟩, hmessages, hkeys⟩
  obtain ⟨sys', hready, fates, hfates, hsub⟩ := exchanges_fates houtputs
    ⟨halone (Asks T) _ hstart, hfree⟩ hasked hconversed.exchanges
  have hlaw := hready.alone.law
  obtain ⟨trajectories, s', hfinalize⟩ := session.exists_finalize hlaw.active
    (fun chain hmem => hlaw.apart.exists_build (fun g hg => hg) hmem)
  have hcommits := hlaw.apart.finalized (fun g hg => hg) hfinalize
  obtain ⟨front, hfront, hholds⟩ := exists_sublist_of_forall₂ hcommits hsub
  obtain ⟨learned, hlearned, rfl⟩ := exists_learned hfates hholds
  refine ⟨⟨_, sys'⟩, trajectories, s', learned, hready.alone.holds, hfinalize, hlearned, hfront, ?_⟩
  intro trajectory htrajectory
  obtain ⟨g, hone⟩ := exists_of_forall₂_mem hcommits htrajectory
  obtain ⟨request, images, videos, ⟨text, ⟨x, hx, hmessages⟩, hrequest, htools⟩,
    hids⟩ := hone.opening
  refine ⟨segmentOf x, List.mem_map_of_mem hx, text, hmessages, images, videos, ?_⟩
  rw [hrequest, htools] at hids
  rw [hone.promptIds]
  exact hids

/-! ### A reply that comes late -/

def servedChunks : MemAgentConfig :=
  { twoChunks with model := { baseUrl := some "http://gateway/sessions/a/v1" } }

/-- The steps of a call that comes to its end. -/
def servedCall (number : Nat) (text : String) : List gateway.ActorAction :=
  [.enter ⟨"a", number⟩,
    .proceed ⟨"a", number⟩ (.backendReturns { tokenIds := uni_agent.tokensOf text }),
    .proceed ⟨"a", number⟩ (.commit (fun _ => "")), .respond ⟨"a", number⟩ "id" 0]

/-- The first attempt times out, and is answered after the second one. -/
def lateReply : Nat → Occasion
  | 1 => { events := [.enter ⟨"a", 1⟩], broken := some (.otherException "TimeoutError" "") }
  | 2 => { events := servedCall 2 "m" ++ (servedCall 1 "l").drop 1 }
  | 3 => { events := servedCall 3 "f" }
  | _ => {}

/-- An actor that has just created the session `a`. -/
@[irreducible] def startedActor : gateway.GatewayActor :=
  gateway.GatewayActor.createSession gateway.smallActor { serverBaseUrl := some "http://gateway" }
    ⟨"a", 0⟩ none

theorem createSession_startedActor : gateway.GatewayActor.step gateway.smallActor
    { serverBaseUrl := some "http://gateway" } (.createSession ⟨"a", 0⟩ none) =
      some startedActor := by
  rw [startedActor]
  unfold gateway.GatewayActor.step
  exact gateway.GatewayActor.begin_eq_some.mpr ⟨rfl, rfl⟩

theorem startedActor_free {k : Nat} (hk : 1 ≤ k) : startedActor.calls ⟨"a", k⟩ = none := by
  have hne : (⟨"a", k⟩ : gateway.CallName) ≠ ⟨"a", 0⟩ := by
    simp only [ne_eq, gateway.CallName.mk.injEq, true_and]
    omega
  rw [startedActor]
  exact gateway.createSession_calls_of_ne hne none

theorem startedActor_capacity : (startedActor.objects ⟨"a", 0⟩).any (fun o =>
    o.system.session.trajectoryCapacity == none) = true := by
  decide +kernel

theorem lateReply_outputs : gateway.OutputsMeet "a" Versioned lateReply := by
  intro k action haction name output heq _ hreported
  subst heq
  unfold lateReply at haction
  split at haction <;> simp [servedCall] at haction
  all_goals aesop

/-- One chunk is read, and the answer to it comes after the answer to its second attempt. -/
@[irreducible] def lateRun : Except PyError MemAgentResult × MemAgent × ClientWorld :=
  run servedChunks (sessionQuery gateway.smallActor "a" lateReply servedChunks) plainPython none
    [userMessage "p"] (some [("chunks", .arr [.str "c"])]) {} ⟨startedActor, 1⟩

theorem exists_of_any {ε α β γ : Type} {p : Except ε α × β × γ} {f : α → Bool}
    (h : p.1.toOption.any f = true) : ∃ x y z, p = (.ok x, y, z) ∧ f x = true := by
  obtain ⟨e | x, y, z⟩ := p
  · cases h
  · exact ⟨x, y, z, rfl, h⟩

theorem contexts_become_trajectories_lateReply : ∃ result a' w' o' trajectories s' learned,
    lateRun = (.ok result, a', w') ∧ result.contextManagerResult.trajectory.length = 2 ∧
    w'.actor.objects ⟨"a", 0⟩ = some o' ∧
    o'.system.session.finalize = (.ok trajectories, s') ∧
    List.Forall₂ (Learned gateway.smallActor.codec none) result.contextManagerResult.trajectory
      learned ∧
    learned.reduceOption.Sublist trajectories := by
  have hfacts : lateRun.1.toOption.any
      (fun result => result.contextManagerResult.trajectory.length == 2) = true := by
    decide +kernel
  obtain ⟨result, a', w', hreturns, hlength⟩ := exists_of_any hfacts
  have hrun := hreturns
  rw [lateRun] at hrun
  obtain ⟨o, ho, hcapacity⟩ := (Option.any_eq_true _ _).mp startedActor_capacity
  obtain ⟨o', trajectories, s', learned, hobject, hfinalize, hlearned, hsub, _⟩ :=
    @contexts_become_trajectories gateway.smallActor ⟨"a", 0⟩ [.start "http://gateway"]
      { serverBaseUrl := some "http://gateway" } startedActor none o 1 lateReply servedChunks
      plainPython none [userMessage "p"] (some [("chunks", .arr [.str "c"])]) {} a' w' result rfl
      createSession_startedActor ho (fun _ hk => startedActor_free hk) lateReply_outputs hrun
  rw [beq_iff_eq.mp hcapacity] at hlearned
  exact ⟨result, a', w', o', trajectories, s', learned, hreturns, beq_iff_eq.mp hlength, hobject,
    hfinalize, hlearned, hsub⟩

end Contexts

end agents.MemAgent

end uni_agent
