-- The generation budget of a ReAct episode. The agent keeps the tokens of the last turn, its
-- prompt included, and takes them for what the episode has generated so far.
import UniAgent.ReactTranscripts

namespace uni_agent.agents

open tools

/-! ## The endpoint -/

/-- An answer of the endpoint, with the two counts of its usage. -/
structure Completion where
  content : Json
  toolCalls : List ToolCall
  promptTokens : Nat
  completionTokens : Nat
  finishReason : Json

/-- What `query` makes of an answer. -/
def Completion.reply (c : Completion) : PolicyReply where
  content := c.content
  toolCalls := c.toolCalls
  totalTokens := .ok (.number (c.promptTokens + c.completionTokens))
  finishReason := c.finishReason

def Completion.truncated (c : Completion) : Bool := c.finishReason.isText "length"

/-- The answers of an endpoint: to the request of each step, with its `max_tokens`. -/
abbrev Endpoint := Nat → List Dict → Option Int → Except PyError Completion

def Surroundings.against (around : Surroundings) (endpoint : Endpoint) : Surroundings :=
  { around with query := fun step transcript maxTokens =>
      (endpoint step transcript maxTokens).map Completion.reply }

/-- One request to the endpoint, and how it was answered. -/
structure Request where
  transcript : List Dict
  maxTokens : Option Int
  answer : Except PyError Completion

/-- The completion tokens of an answer, if there is one. -/
def Request.generated (r : Request) : Nat :=
  match r.answer with
  | .ok c => c.completionTokens
  | .error _ => 0

/-- The completion tokens over some turns. -/
def generated (requests : List Request) : Nat := (requests.map Request.generated).sum

namespace ReActAgent

variable {cfg : ReActConfig} {around : Surroundings} {endpoint : Endpoint} {s : Episode}
  {before after requests : List Request} {r : Request} {budget : Int} {tokens : Nat}
  {outcome : Except PyError StopReason}

/-! ## The requests of an episode -/

/-- The request of a step, with what is left of the budget. -/
def ask (cfg : ReActConfig) (endpoint : Endpoint) (stepIdx : Nat) (remaining : Option Int)
    (s : Episode) : Request where
  transcript := s.transcript
  maxTokens := maxTokens cfg remaining
  answer := endpoint stepIdx s.transcript (maxTokens cfg remaining)

/-- The request of a step, unless the budget is spent before it. -/
def request? (cfg : ReActConfig) (endpoint : Endpoint) (stepIdx : Nat) (s : Episode) :
    Option Request :=
  match cfg.maxTotalTokens with
  | none => some (ask cfg endpoint stepIdx none s)
  | some maxTotal =>
    match remainingTokens maxTotal s.info.totalTokens with
    | .error _ => none
    | .ok remaining => if remaining ≤ 0 then none else some
        (ask cfg endpoint stepIdx (some remaining) s)

/-- The requests of the steps that are left. -/
def requestsFrom (cfg : ReActConfig) (around : Surroundings) (endpoint : Endpoint) :
    Nat → Nat → Episode → List Request
  | 0, _, _ => []
  | left + 1, stepIdx, s =>
    let s := { s with info := { s.info with steps := stepIdx } }
    (request? cfg endpoint stepIdx s).toList ++
      match step cfg (around.against endpoint) stepIdx s with
      | (.ok .completed, s) => requestsFrom cfg around endpoint left (stepIdx + 1) s
      | _ => []

/-- The requests of an episode, from the entered toolbox on. -/
def requestsOf (cfg : ReActConfig) (around : Surroundings) (endpoint : Endpoint)
    (messages : List Dict) : List Request :=
  match around.enter with
  | some _ => []
  | none => requestsFrom cfg around endpoint cfg.maxSteps.toNat 1 { transcript := messages }

/-- How the loop of an episode ends. -/
def endOf (cfg : ReActConfig) (around : Surroundings) (endpoint : Endpoint)
    (messages : List Dict) : Except PyError StopReason :=
  (loop cfg (around.against endpoint) { transcript := messages }).1

theorem queried_of_dispatch {step idx : Nat} {calls : List ToolCall} {sawFinish : Bool} :
    (dispatch cfg around step idx calls sawFinish s).2.queried = s.queried := by
  induction calls generalizing idx sawFinish s with
  | nil => rfl
  | cons call rest ih =>
    rw [dispatch]
    dsimp only
    split
    · rfl
    · split
      · rfl
      · exact ih

theorem queried_of_answered {stepIdx : Nat} {reply : PolicyReply} :
    (answered cfg around stepIdx reply s).2.queried = s.queried := by
  unfold answered
  split
  · rfl
  · dsimp only
    split
    · rfl
    · rfl
    · split
      · rfl
      · split
        · rfl
        · exact queried_of_dispatch

theorem queried_of_queryPolicy {stepIdx : Nat} {remaining : Option Int} :
    (queryPolicy cfg around stepIdx remaining s).2.queried = s.queried ++ [s.transcript] := by
  unfold queryPolicy
  dsimp only
  split
  · rfl
  · exact queried_of_answered

theorem queried_of_step {stepIdx : Nat} :
    (step cfg (around.against endpoint) stepIdx s).2.queried =
      s.queried ++ (request? cfg endpoint stepIdx s).toList.map Request.transcript := by
  unfold step request?
  cases cfg.maxTotalTokens with
  | none => exact queried_of_queryPolicy
  | some maxTotal =>
    dsimp only
    cases remainingTokens maxTotal s.info.totalTokens with
    | error e => exact (List.append_nil _).symm
    | ok remaining =>
      dsimp only
      split
      · exact (List.append_nil _).symm
      · exact queried_of_queryPolicy

/-- The requests are those of the queries of an episode, in their order. -/
theorem queried_of_steps {left stepIdx : Nat} :
    (steps cfg (around.against endpoint) left stepIdx s).2.queried =
      s.queried ++ (requestsFrom cfg around endpoint left stepIdx s).map Request.transcript := by
  induction left generalizing stepIdx s with
  | zero => exact (List.append_nil _).symm
  | succ left ih =>
    rw [requestsFrom, steps]
    dsimp only
    generalize hs : ({ s with info := { s.info with steps := stepIdx } } : Episode) = begun
    have hqueried : begun.queried = s.queried := by rw [← hs]
    have hstep : (step cfg (around.against endpoint) stepIdx begun).2.queried =
        begun.queried ++ (request? cfg endpoint stepIdx begun).toList.map Request.transcript :=
      queried_of_step
    rw [hqueried] at hstep
    generalize step cfg (around.against endpoint) stepIdx begun = ended at hstep ⊢
    obtain ⟨outcome, s'⟩ := ended
    rw [List.map_append, ← List.append_assoc, ← hstep]
    cases outcome with
    | error e => exact (List.append_nil _).symm
    | ok reason =>
      cases reason with
      | completed => exact ih
      | _ => exact (List.append_nil _).symm

/-! ## A turn -/

/-- The calls of a turn are not charged, and they never end an episode at its token limit. -/
theorem dispatch_tokens {step idx : Nat} {calls : List ToolCall} {sawFinish : Bool} :
    (dispatch cfg around step idx calls sawFinish s).2.info.totalTokens = s.info.totalTokens ∧
      (dispatch cfg around step idx calls sawFinish s).1 ≠ .ok .tokenLimit := by
  induction calls generalizing idx sawFinish s with
  | nil =>
    rw [dispatch]
    cases sawFinish <;> exact ⟨rfl, by simp⟩
  | cons call rest ih =>
    rw [dispatch]
    dsimp only
    split
    · exact ⟨rfl, by simp⟩
    · split
      · exact ⟨rfl, by simp⟩
      · exact ih

/-- How a turn ends after the answer of the endpoint, and what it leaves as the tokens. -/
inductive Turn (budget : Int) :
    Request → Except PyError StopReason → TokenTotal → Prop
  | failed {r : Request} {e : PyError} {total : TokenTotal} (hanswer : r.answer = .error e) :
      Turn budget r (.error e) total
  | limited {r : Request} {c : Completion} {total : TokenTotal} (hanswer : r.answer = .ok c)
      (hlimit : budget ≤ c.promptTokens + c.completionTokens ∨ c.truncated = true) :
      Turn budget r (.ok .tokenLimit) total
  | answered {r : Request} {c : Completion} {outcome : Except PyError StopReason}
      (hanswer : r.answer = .ok c) (hopen : c.promptTokens + c.completionTokens < budget)
      (hwhole : c.truncated = false) (houtcome : outcome ≠ .ok .tokenLimit) :
      Turn budget r outcome (.number (c.promptTokens + c.completionTokens))

theorem turn_of_answered {stepIdx : Nat} {c : Completion}
    (hbudget : cfg.maxTotalTokens = some budget)
    (hanswer : r.answer = .ok c) :
    Turn budget r (answered cfg around stepIdx c.reply s).1
      (answered cfg around stepIdx c.reply s).2.info.totalTokens := by
  unfold answered Completion.reply
  simp only [hbudget, budgetReached]
  by_cases hreached : budget ≤ c.promptTokens + c.completionTokens
  · simp only [hreached, decide_true]
    exact .limited hanswer (.inl hreached)
  · simp only [hreached, decide_false]
    by_cases hwhole : c.finishReason.isText "length" = true
    · rw [if_pos hwhole]
      exact .limited hanswer (.inr hwhole)
    · rw [if_neg hwhole]
      have hopen : (c.promptTokens : Int) + c.completionTokens < budget := by omega
      by_cases hnone : c.toolCalls = []
      · rw [if_pos hnone]
        exact .answered hanswer hopen (Bool.eq_false_iff.mpr hwhole) (by simp)
      · rw [if_neg hnone, dispatch_tokens.1]
        exact .answered hanswer hopen (Bool.eq_false_iff.mpr hwhole) dispatch_tokens.2

theorem turn_of_step (around : Surroundings) (endpoint : Endpoint) (stepIdx : Nat)
    (hbudget : cfg.maxTotalTokens = some budget)
    (htokens : s.info.totalTokens = .number tokens) (hopen : tokens < budget) :
    request? cfg endpoint stepIdx s = some (ask cfg endpoint stepIdx (some (budget - tokens)) s) ∧
      Turn budget (ask cfg endpoint stepIdx (some (budget - tokens)) s)
        (step cfg (around.against endpoint) stepIdx s).1
        (step cfg (around.against endpoint) stepIdx s).2.info.totalTokens := by
  have hleft : ¬ budget - tokens ≤ 0 := by omega
  unfold request? step
  rw [hbudget, htokens]
  simp only [remainingTokens, if_neg hleft, true_and]
  generalize hask : ask cfg endpoint stepIdx (some (budget - tokens)) s = r
  have hquery : (around.against endpoint).query stepIdx s.transcript
      (maxTokens cfg (some (budget - tokens))) = r.answer.map Completion.reply := by
    rw [← hask]
    rfl
  unfold queryPolicy
  rw [hquery]
  cases hanswer : r.answer with
  | error e => exact .failed hanswer
  | ok c => exact turn_of_answered hbudget hanswer

/-! ## An episode -/

/-- How an episode spends its budget, from some tokens of the last turn on. -/
inductive Spending (cfg : ReActConfig) (budget : Int) :
    Nat → List Request → Except PyError StopReason → Prop
  | finished {tokens : Nat} : Spending cfg budget tokens [] (.ok .maxSteps)
  | last {tokens : Nat} {r : Request} {outcome : Except PyError StopReason} {total : TokenTotal}
      (hasked : r.maxTokens = maxTokens cfg (some (budget - tokens))) (hopen : tokens < budget)
      (hturn : Turn budget r outcome total) : Spending cfg budget tokens [r] outcome
  | more {tokens : Nat} {r : Request} {c : Completion} {rest : List Request}
      {outcome : Except PyError StopReason}
      (hasked : r.maxTokens = maxTokens cfg (some (budget - tokens))) (hopen : tokens < budget)
      (hanswer : r.answer = .ok c) (hreached : c.promptTokens + c.completionTokens < budget)
      (hwhole : c.truncated = false)
      (h : Spending cfg budget (c.promptTokens + c.completionTokens) rest outcome) :
      Spending cfg budget tokens (r :: rest) outcome

theorem spending_of_steps {left stepIdx : Nat} (hbudget : cfg.maxTotalTokens = some budget)
    (htokens : s.info.totalTokens = .number tokens) (hopen : tokens < budget) :
    Spending cfg budget tokens (requestsFrom cfg around endpoint left stepIdx s)
      (steps cfg (around.against endpoint) left stepIdx s).1 := by
  induction left generalizing stepIdx s tokens with
  | zero => exact .finished
  | succ left ih =>
    rw [requestsFrom, steps]
    dsimp only
    generalize hs : ({ s with info := { s.info with steps := stepIdx } } : Episode) = begun
    have htokens' : begun.info.totalTokens = .number tokens := by
      rw [← hs]
      exact htokens
    obtain ⟨hrequest, hturn⟩ := turn_of_step around endpoint stepIdx hbudget htokens' hopen
    rw [hrequest]
    generalize step cfg (around.against endpoint) stepIdx begun = ended at hturn ⊢
    obtain ⟨outcome, s'⟩ := ended
    have hlast := Spending.last (r := ask cfg endpoint stepIdx (some (budget - tokens)) begun)
      rfl hopen hturn
    cases outcome with
    | error e => exact hlast
    | ok reason =>
      cases reason with
      | completed =>
        generalize htotal : s'.info.totalTokens = total at hturn
        cases hturn with
        | answered hanswer hreached hwhole _ =>
          exact .more rfl hopen hanswer hreached hwhole (ih htotal (by exact_mod_cast hreached))
      | _ => exact hlast

theorem spending_of_loop (around : Surroundings) (endpoint : Endpoint) (messages : List Dict)
    (hbudget : cfg.maxTotalTokens = some budget) (hpos : 0 < budget)
    (henter : around.enter = none) :
    Spending cfg budget 0 (requestsOf cfg around endpoint messages)
      (endOf cfg around endpoint messages) := by
  unfold requestsOf endOf loop
  rw [henter, show (around.against endpoint).enter = none from henter]
  exact spending_of_steps hbudget rfl hpos

/-! ## What is assumed of the endpoint -/

/-- No answer has more completion tokens than its request asked for. -/
def Obeys (requests : List Request) : Prop :=
  ∀ r ∈ requests, ∀ (m : Int) (c : Completion), r.maxTokens = some m → r.answer = .ok c →
    c.completionTokens ≤ m

/-- Every prompt holds at least the prompt and the completion of the turn before it. -/
def Grows : Nat → List Request → Prop
  | _, [] => True
  | tokens, r :: rest =>
    match r.answer with
    | .ok c => tokens ≤ c.promptTokens ∧ Grows (c.promptTokens + c.completionTokens) rest
    | .error _ => Grows tokens rest

/-! ## The laws -/

/-- The budget is the sum of the completion tokens over all turns. -/
structure WithinBudget (budget : Int) (requests : List Request)
    (ended : Except PyError StopReason) : Prop where
  asked : ∀ before r after, requests = before ++ r :: after →
    ∃ m, r.maxTokens = some m ∧ 1 ≤ m ∧ m ≤ budget - generated before
  spent : generated requests ≤ budget
  limited : ended = .ok .tokenLimit → generated requests = budget ∨
    ∃ r c, requests.getLast? = some r ∧ r.answer = .ok c ∧ c.truncated = true

/-- In each turn the cap of a turn is not negative, and when the prompt and the completion reach
the budget the answer is cut off or the completions have reached it too. -/
def SpentByGenerating (cfg : ReActConfig) (budget : Int) (requests : List Request) : Prop :=
  ∀ before r after, requests = before ++ r :: after →
    (∀ cap, cfg.maxTokensPerTurn = some cap → 0 ≤ cap) ∧
      ∀ c, r.answer = .ok c → budget ≤ c.promptTokens + c.completionTokens →
        c.truncated = true ∨ budget ≤ generated (before ++ [r])

theorem generated_cons (r : Request) (rest : List Request) :
    generated (r :: rest) = r.generated + generated rest := by
  unfold generated
  rw [List.map_cons, List.sum_cons]

theorem generated_of_answer {c : Completion} (hanswer : r.answer = .ok c) :
    r.generated = c.completionTokens := by
  unfold Request.generated
  rw [hanswer]

theorem maxTokens_of_budget (hbudget : cfg.maxTotalTokens = some budget) (remaining : Int) :
    ∃ cap, maxTokens cfg (some remaining) = some (min cap remaining) ∧
      (cfg.maxTokensPerTurn = some cap ∧ cap ≠ 0 ∨
        cap = budget ∧ ∀ cap, cfg.maxTokensPerTurn = some cap → cap = 0) := by
  unfold maxTokens
  rw [hbudget]
  cases cfg.maxTokensPerTurn with
  | none => exact ⟨budget, rfl, .inr ⟨rfl, by simp⟩⟩
  | some cap =>
    by_cases hcap : cap = 0
    · exact ⟨budget, by simp only [if_pos hcap], .inr ⟨rfl, by simp [hcap]⟩⟩
    · exact ⟨cap, by simp only [if_neg hcap], .inl ⟨rfl, hcap⟩⟩

theorem le_remaining (hbudget : cfg.maxTotalTokens = some budget) {remaining m : Int}
    (h : maxTokens cfg (some remaining) = some m) : m ≤ remaining := by
  obtain ⟨cap, hcap, -⟩ := maxTokens_of_budget hbudget remaining
  rw [hcap, Option.some.injEq] at h
  omega

/-- A turn asks for at least one token exactly when the cap of a turn is not negative. -/
theorem one_le_maxTokens_iff (hbudget : cfg.maxTotalTokens = some budget) (hpos : 0 < budget)
    {remaining : Int} (hremaining : 1 ≤ remaining) :
    (∃ m, maxTokens cfg (some remaining) = some m ∧ 1 ≤ m) ↔
      ∀ cap, cfg.maxTokensPerTurn = some cap → 0 ≤ cap := by
  obtain ⟨cap, hcap, hcases⟩ := maxTokens_of_budget hbudget remaining
  rw [hcap]
  refine ⟨?_, ?_⟩
  · rintro ⟨m, hm, hone⟩ other hother
    rw [Option.some.injEq] at hm
    rcases hcases with ⟨hturn, -⟩ | ⟨-, hzero⟩
    · rw [hturn, Option.some.injEq] at hother
      omega
    · rw [hzero other hother]
  · intro hcaps
    refine ⟨_, rfl, ?_⟩
    rcases hcases with ⟨hturn, hne⟩ | ⟨hsame, -⟩
    · have := hcaps cap hturn
      omega
    · omega

/-- Every request asks for what the last turn leaves, which is no more than the completions
leave. -/
theorem Spending.asked (h : Spending cfg budget tokens requests outcome)
    (hgrows : Grows tokens requests) (spent : Nat) (hspent : spent ≤ tokens)
    (hsplit : requests = before ++ r :: after) :
    ∃ remaining, 1 ≤ remaining ∧ remaining ≤ budget - (spent + generated before) ∧
      r.maxTokens = maxTokens cfg (some remaining) := by
  induction h generalizing before spent with
  | finished =>
    cases before <;> cases hsplit
  | @last tokens r' outcome total hasked hopen hturn =>
    have hbefore : before = [] := by
      cases before with
      | nil => rfl
      | cons _ before => cases before <;> cases hsplit
    subst hbefore
    cases hsplit
    exact ⟨budget - tokens, by omega, by simp [generated]; omega, hasked⟩
  | @more tokens r' c rest outcome hasked hopen hanswer hreached hwhole h ih =>
    cases before with
    | nil =>
      cases hsplit
      exact ⟨budget - tokens, by omega, by simp [generated]; omega, hasked⟩
    | cons first before =>
      rw [List.cons_append, List.cons.injEq] at hsplit
      obtain ⟨rfl, hsplit⟩ := hsplit
      rw [Grows, hanswer] at hgrows
      obtain ⟨remaining, hone, hle, hmax⟩ :=
        ih hgrows.2 (spent + c.completionTokens) (by have := hgrows.1; omega) hsplit
      refine ⟨remaining, hone, ?_, hmax⟩
      rw [generated_cons, generated_of_answer hanswer]
      push_cast at hle ⊢
      omega

/-- The completions never exceed the budget. -/
theorem Spending.spent (h : Spending cfg budget tokens requests outcome)
    (hbudget : cfg.maxTotalTokens = some budget) (hgrows : Grows tokens requests)
    (hobeys : Obeys requests) (spent : Nat) (hspent : spent ≤ tokens)
    (hle : spent ≤ budget) : spent + generated requests ≤ budget := by
  -- An answer has at most what was asked for, and that is at most what is left.
  have hanswered : ∀ {r : Request} {c : Completion} {tokens : Nat}, r ∈ requests →
      r.maxTokens = maxTokens cfg (some (budget - tokens)) → r.answer = .ok c →
        c.completionTokens ≤ budget - tokens := by
    intro r c tokens hmem hasked hanswer
    obtain ⟨cap, hcap, -⟩ := maxTokens_of_budget hbudget (budget - tokens)
    have hm := hasked.trans hcap
    exact (hobeys r hmem _ c hm hanswer).trans (Int.min_le_right _ _)
  induction h generalizing spent with
  | finished =>
    simpa [generated] using hle
  | @last tokens r outcome total hasked hopen hturn =>
    rw [generated_cons]
    cases hanswer : r.answer with
    | error e =>
      simp only [Request.generated, hanswer, generated, List.map_nil, List.sum_nil]
      omega
    | ok c =>
      have hc := hanswered List.mem_cons_self hasked hanswer
      rw [generated_of_answer hanswer]
      simp only [generated, List.map_nil, List.sum_nil]
      omega
  | @more tokens r c rest outcome hasked hopen hanswer hreached hwhole h ih =>
    have hc := hanswered List.mem_cons_self hasked hanswer
    rw [Grows, hanswer] at hgrows
    have hgrown := hgrows.1
    have hrest := ih hgrows.2 (fun r hr => hobeys r (List.mem_cons_of_mem _ hr))
      (spent + c.completionTokens) (by omega) (by push_cast; omega)
      (fun hmem => hanswered (List.mem_cons_of_mem _ hmem))
    rw [generated_cons, generated_of_answer hanswer]
    push_cast at hrest ⊢
    omega

/-- A turn that reaches the budget is the last one, and ends the episode at its limit. -/
theorem Spending.limited_of_reached (h : Spending cfg budget tokens requests outcome)
    (hsplit : requests = before ++ r :: after) {c : Completion} (hanswer : r.answer = .ok c)
    (hreached : budget ≤ c.promptTokens + c.completionTokens) :
    outcome = .ok .tokenLimit ∧ after = [] := by
  induction h generalizing before with
  | finished => cases before <;> cases hsplit
  | @last tokens r' outcome total hasked hopen hturn =>
    cases before with
    | nil =>
      cases hsplit
      cases hturn with
      | failed herror =>
        rw [hanswer] at herror
        cases herror
      | limited hanswer' hlimit => exact ⟨rfl, rfl⟩
      | answered hanswer' hbelow _ _ =>
        rw [hanswer] at hanswer'
        cases hanswer'
        omega
    | cons _ before => cases before <;> cases hsplit
  | @more tokens r' c' rest outcome hasked hopen hanswer' hbelow hwhole h ih =>
    cases before with
    | nil =>
      cases hsplit
      rw [hanswer] at hanswer'
      cases hanswer'
      omega
    | cons first before =>
      rw [List.cons_append, List.cons.injEq] at hsplit
      exact ih hsplit.2

/-- An episode that ends at its limit has a last turn that reached the budget or was cut off. -/
theorem Spending.reached_of_limited (h : Spending cfg budget tokens requests outcome)
    (hlimited : outcome = .ok .tokenLimit) :
    ∃ before r c, requests = before ++ [r] ∧ r.answer = .ok c ∧
      (budget ≤ c.promptTokens + c.completionTokens ∨ c.truncated = true) := by
  induction h with
  | finished => cases hlimited
  | @last tokens r outcome total hasked hopen hturn =>
    cases hturn with
    | failed _ => cases hlimited
    | limited hanswer hlimit => exact ⟨[], r, _, rfl, hanswer, hlimit⟩
    | answered _ _ _ hne => exact absurd hlimited hne
  | @more tokens r c rest outcome hasked hopen hanswer hbelow hwhole h ih =>
    obtain ⟨before, last, c', rfl, hlast, hcases⟩ := ih hlimited
    exact ⟨r :: before, last, c', rfl, hlast, hcases⟩

theorem withinBudget_iff (h : Spending cfg budget 0 requests outcome)
    (hbudget : cfg.maxTotalTokens = some budget) (hpos : 0 < budget) (hobeys : Obeys requests)
    (hgrows : Grows 0 requests) :
    WithinBudget budget requests outcome ↔ SpentByGenerating cfg budget requests := by
  refine ⟨?_, ?_⟩
  · intro hwithin before r after hsplit
    obtain ⟨remaining, hone, -, hmax⟩ := h.asked hgrows 0 (Nat.le_refl 0) hsplit
    refine ⟨?_, ?_⟩
    · apply (one_le_maxTokens_iff hbudget hpos hone).mp
      obtain ⟨m, hm, hm1, -⟩ := hwithin.asked before r after hsplit
      exact ⟨m, hmax.symm.trans hm, hm1⟩
    · intro c hanswer hreached
      obtain ⟨hlimited, rfl⟩ := h.limited_of_reached hsplit hanswer hreached
      rcases hwithin.limited hlimited with hspent | ⟨last, c', hlast, hanswer', hcut⟩
      · rw [← hsplit, hspent]
        exact .inr (Int.le_refl _)
      · rw [hsplit, List.getLast?_append_of_ne_nil _ (List.cons_ne_nil r []),
          List.getLast?_singleton, Option.some.injEq] at hlast
        subst hlast
        rw [hanswer] at hanswer'
        cases hanswer'
        exact .inl hcut
  · intro hspends
    have hspent : generated requests ≤ budget := by
      have := h.spent hbudget hgrows hobeys 0 (Nat.le_refl 0) (by exact_mod_cast hpos.le)
      simpa using this
    refine ⟨?_, hspent, ?_⟩
    · intro before r after hsplit
      obtain ⟨remaining, hone, hle, hmax⟩ := h.asked hgrows 0 (Nat.le_refl 0) hsplit
      obtain ⟨m, hm, hm1⟩ :=
        (one_le_maxTokens_iff hbudget hpos hone).mpr (hspends before r after hsplit).1
      refine ⟨m, hmax.trans hm, hm1, ?_⟩
      have hleft := le_remaining hbudget hm
      push_cast at hle
      omega
    · intro hlimited
      obtain ⟨before, r, c, hsplit, hanswer, hcases⟩ := h.reached_of_limited hlimited
      have hlast : requests.getLast? = some r := by
        rw [hsplit, List.getLast?_append_of_ne_nil _ (List.cons_ne_nil r []),
          List.getLast?_singleton]
      have hcut : c.truncated = true ∨ budget ≤ generated requests := by
        rcases hcases with hreached | hcut
        · rw [hsplit]
          exact (hspends before r [] hsplit).2 c hanswer hreached
        · exact .inl hcut
      rcases hcut with hcut | hle
      · exact .inr ⟨r, c, hlast, hanswer, hcut⟩
      · exact .inl (by omega)

/-- The token budget of an episode is its generation budget exactly when the prompts never use it
up. -/
theorem budget_is_spent_by_generating_iff (cfg : ReActConfig) (around : Surroundings)
    (endpoint : Endpoint) (messages : List Dict) {budget : Int}
    (hbudget : cfg.maxTotalTokens = some budget) (hpos : 0 < budget)
    (hobeys : Obeys (requestsOf cfg around endpoint messages))
    (hgrows : Grows 0 (requestsOf cfg around endpoint messages)) :
    WithinBudget budget (requestsOf cfg around endpoint messages)
        (endOf cfg around endpoint messages) ↔
      SpentByGenerating cfg budget (requestsOf cfg around endpoint messages) := by
  cases henter : around.enter with
  | none =>
    exact withinBudget_iff (spending_of_loop around endpoint messages hbudget hpos henter)
      hbudget hpos hobeys hgrows
  | some e =>
    have hnone : requestsOf cfg around endpoint messages = [] := by
      unfold requestsOf
      rw [henter]
    have hended : endOf cfg around endpoint messages = .error e := by
      unfold endOf loop
      rw [show (around.against endpoint).enter = some e from henter]
    rw [hnone, hended]
    have hsplit : ∀ before r after, ([] : List Request) ≠ before ++ r :: after := by
      intro before r after
      cases before <;> simp
    refine ⟨?_, ?_⟩
    · intro _ before r after h
      exact absurd h (hsplit before r after)
    · intro _
      refine ⟨fun before r after h => absurd h (hsplit before r after), hpos.le, ?_⟩
      intro hlimited
      cases hlimited

/-- The toolbox is left as the loop ended, unless leaving it raises what is no exception. -/
theorem within_cases (cfg : ReActConfig) (around : Surroundings) (s : Episode) :
    within cfg around s = loop cfg around s ∨
      ∃ e, e.isException = false ∧ (within cfg around s).1 = .error e := by
  unfold within
  cases around.leave with
  | none => exact .inl rfl
  | some e =>
    cases hexception : e.isException with
    | true => exact .inl (if_pos hexception)
    | false =>
      refine .inr ⟨e, hexception, ?_⟩
      dsimp only
      rw [if_neg (by rw [hexception]; exact Bool.false_ne_true)]

theorem reason_of_caught {s' : Episode} {reason : StopReason}
    (h : caught s outcome = .ok (reason, s')) (hreason : reason ≠ .unknownError) :
    outcome = .ok reason := by
  cases outcome with
  | ok _ =>
    cases h
    rfl
  | error e =>
    rw [caught] at h
    by_cases hexception : e.isException = true
    · rw [if_pos hexception] at h
      exact absurd (congrArg Prod.fst (Except.ok.inj h)).symm hreason
    · rw [if_neg hexception] at h
      cases h

/-- A run that ends at its token limit has a loop that does. -/
theorem endOf_of_run {messages : List Dict} {result : AgentResult}
    (h : (run cfg (around.against endpoint) messages).outcome = .ok (.tokenLimit, result)) :
    endOf cfg around endpoint messages = .ok .tokenLimit := by
  unfold run at h
  dsimp only at h
  split at h
  · cases h
  · split at h
    · cases h
    · split at h
      · cases h
      · cases h
      · rename_i reason s' _ hcaught
        have hreason : reason = .tokenLimit := congrArg Prod.fst (Except.ok.inj h)
        have hended := reason_of_caught hcaught (by rw [hreason]; simp)
        rcases within_cases cfg (around.against endpoint) { transcript := messages } with
          hsame | ⟨e, -, herror⟩
        · unfold endOf
          rw [← hsame, hended, hreason]
        · rw [herror] at hended
          cases hended

/-! ## Two endpoints -/

/-- An agent with a budget of ten tokens, and no tools. -/
def tenTokens : ReActConfig where
  baseUrl := some "http://gateway:8000/v1"
  maxTotalTokens := some 10

def noTools : Surroundings where
  py := plainPython
  toolbox := { byName := [], decodeError := fun _ => "" }
  query := fun _ _ _ => .error (.runtimeError "no endpoint")
  runTool := fun _ _ _ _ => .error (.runtimeError "no tool")

/-- An endpoint that answers everything with a plain text, under the counts of its usage. -/
def plainEndpoint (promptTokens completionTokens : Nat) : Endpoint := fun _ _ _ => .ok {
  content := .str "done"
  toolCalls := []
  promptTokens
  completionTokens
  finishReason := .str "stop" }

/-- An endpoint that calls a tool in its first turn, and answers with a text behind that. -/
def callingEndpoint : Endpoint := fun step transcript remaining =>
  if step = 1 then .ok {
    content := .null
    toolCalls := [⟨.str "a", .str "function", .str "shell", .str "{}"⟩]
    promptTokens := 2
    completionTokens := 3
    finishReason := .str "tool_calls" }
  else plainEndpoint 6 2 step transcript remaining

/-- Two turns: the second one may generate what the first one has left. -/
theorem requestsOf_callingEndpoint : ∃ first second,
    requestsOf tenTokens noTools callingEndpoint [] = [first, second] ∧
      first.maxTokens = some 10 ∧ first.answer = callingEndpoint 1 [] (some 10) ∧
      second.maxTokens = some 5 ∧ second.answer = plainEndpoint 6 2 2 [] (some 5) :=
  ⟨_, _, rfl, rfl, rfl, rfl, rfl⟩

theorem requestsOf_eightAndThree : requestsOf tenTokens noTools (plainEndpoint 8 3) [] =
    [{ transcript := [], maxTokens := some 10, answer := plainEndpoint 8 3 1 [] (some 10) }] := rfl

/-- A plain answer of no more than ten tokens is one that was asked for. -/
theorem obeys_plain {promptTokens completionTokens : Nat} (h : completionTokens ≤ 10) :
    Obeys [{ transcript := [], maxTokens := some 10,
             answer := plainEndpoint promptTokens completionTokens 1 [] (some 10) }] := by
  intro r hr m c hm hanswer
  rw [List.mem_singleton.mp hr] at hm hanswer
  cases hm
  cases hanswer
  exact_mod_cast h

theorem budget_is_spent_by_generating_callingEndpoint :
    (requestsOf tenTokens noTools callingEndpoint []).length = 2 ∧
      (WithinBudget 10 (requestsOf tenTokens noTools callingEndpoint [])
          (endOf tenTokens noTools callingEndpoint []) ↔
        SpentByGenerating tenTokens 10 (requestsOf tenTokens noTools callingEndpoint [])) := by
  obtain ⟨first, second, hrequests, hfirst, hanswer, hsecond, hanswer'⟩ :=
    requestsOf_callingEndpoint
  have hobeys : Obeys (requestsOf tenTokens noTools callingEndpoint []) := by
    rw [hrequests]
    intro r hr m c hm hc
    rcases List.mem_pair.mp hr with rfl | rfl
    · cases hfirst.symm.trans hm
      cases hanswer.symm.trans hc
      decide
    · cases hsecond.symm.trans hm
      cases hanswer'.symm.trans hc
      decide
  have hgrows : Grows 0 (requestsOf tenTokens noTools callingEndpoint []) := by
    rw [hrequests]
    unfold Grows
    rw [hanswer]
    refine ⟨Nat.zero_le 2, ?_⟩
    unfold Grows
    rw [hanswer']
    exact ⟨by decide, trivial⟩
  exact ⟨by rw [hrequests]; rfl, budget_is_spent_by_generating_iff tenTokens noTools
    callingEndpoint [] rfl (by decide) hobeys hgrows⟩

/-- A prompt of eight tokens uses up most of the budget, and three completion tokens end the
episode. -/
theorem a_prompt_spends_the_generation_budget :
    ¬ ∀ (cfg : ReActConfig) (around : Surroundings) (endpoint : Endpoint) (messages : List Dict)
      (budget : Int), cfg.maxTotalTokens = some budget → 0 < budget →
        Obeys (requestsOf cfg around endpoint messages) →
          Grows 0 (requestsOf cfg around endpoint messages) →
            WithinBudget budget (requestsOf cfg around endpoint messages)
              (endOf cfg around endpoint messages) := by
  intro h
  have hwithin := h tenTokens noTools (plainEndpoint 8 3) [] 10 rfl (by decide)
    (by rw [requestsOf_eightAndThree]; exact obeys_plain (by decide))
    (by rw [requestsOf_eightAndThree]; exact ⟨Nat.zero_le 8, trivial⟩)
  have hlimited : endOf tenTokens noTools (plainEndpoint 8 3) [] = .ok .tokenLimit := rfl
  rcases hwithin.limited hlimited with hspent | ⟨r, c, hlast, hanswer, hcut⟩
  · rw [requestsOf_eightAndThree] at hspent
    cases hspent
  · rw [requestsOf_eightAndThree] at hlast
    cases hlast
    cases hanswer
    revert hcut
    decide

end ReActAgent

end uni_agent.agents
