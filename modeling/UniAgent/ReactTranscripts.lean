-- The laws of the ReAct transcripts: every tool call of the policy is answered right behind it, by
-- its id, and the few that are not are those of the last message of an episode that broke off.
import UniAgent.ReactAgent

namespace uni_agent.agents.ReActAgent

open tools

variable {cfg : ReActConfig} {around : Surroundings} {s s' : Episode} {messages before : List Dict}

/-! ## Well-formed transcripts -/

/-- A tool message that answers a call. -/
def Answers (call : ToolCall) (message : Dict) : Prop :=
  message.get? "role" = some (.str "tool") ∧ message.get? "tool_call_id" = some call.id

/-- Turns whose calls are all answered. -/
inductive Groups : List Dict → Prop
  | nil : Groups []
  | turn {groups answers : List Dict} {content : Json} {calls : List ToolCall}
      (h : Groups groups) (hcalls : calls ≠ []) (hanswers : List.Forall₂ Answers calls answers) :
      Groups (groups ++ assistantMessage content calls :: answers)

/-- What may follow the groups in a transcript: a last message without a call, or one whose calls
are not all answered because the episode broke off. -/
inductive Tail (reason : StopReason) : List Dict → Prop
  | none : Tail reason []
  | plain (content : Json) : Tail reason [assistantMessage content []]
  | unanswered {content : Json} {done rest : List ToolCall} {answers : List Dict}
      (hrest : rest ≠ []) (hanswers : List.Forall₂ Answers done answers)
      (hreason : reason = .tokenLimit ∨ reason = .unknownError) :
      Tail reason (assistantMessage content (done ++ rest) :: answers)

/-- A transcript of an episode that goes on. -/
def Going (messages transcript : List Dict) : Prop :=
  ∃ groups, transcript = messages ++ groups ∧ Groups groups

/-- A transcript of an episode that has ended. -/
def Ended (messages : List Dict) (reason : StopReason) (transcript : List Dict) : Prop :=
  ∃ groups tail, transcript = messages ++ (groups ++ tail) ∧ Groups groups ∧ Tail reason tail

theorem Going.ended {transcript : List Dict} (h : Going messages transcript)
    (reason : StopReason) : Ended messages reason transcript := by
  obtain ⟨groups, rfl, hgroups⟩ := h
  exact ⟨groups, [], by rw [List.append_nil], hgroups, .none⟩

/-- A call that was dispatched and came back with a result. -/
def isReturned : Except PyError ToolResult → Bool
  | .ok _ => true
  | .error _ => false

/-- What holds of an episode at any time: every transcript that was queried was one that goes on,
and the counter of the calls counts those that came back. -/
structure Kept (messages : List Dict) (s : Episode) : Prop where
  queried : ∀ transcript ∈ s.queried, Going messages transcript
  counted : s.info.numToolCalls = s.dispatched.countP isReturned

/-- How a turn leaves the transcript. -/
def Left (messages : List Dict) (transcript : List Dict) : Except PyError StopReason → Prop
  | .ok .completed => Going messages transcript
  | .ok reason => Ended messages reason transcript
  | .error _ => Ended messages .unknownError transcript

/-! ## The calls of a turn -/

theorem answers_toolMessage (call : ToolCall) (content : String) :
    Answers call (toolMessage call content) := ⟨rfl, rfl⟩

theorem forall₂_skipped (calls : List ToolCall) :
    List.Forall₂ Answers calls (calls.map skippedMessage) := by
  induction calls with
  | nil => exact .nil
  | cons call calls ih => exact .cons (answers_toolMessage call _) ih

theorem kept_dispatched {outcome : Except PyError ToolResult} {e : PyError}
    (h : Kept messages s) (houtcome : outcome = .error e) :
    Kept messages { s with dispatched := s.dispatched ++ [outcome] } where
  queried := h.queried
  counted := by
    subst houtcome
    rw [List.countP_append]
    exact h.counted

theorem kept_record (h : Kept messages s) (call : ToolCall) (result : ToolResult) :
    Kept messages (record { s with dispatched := s.dispatched ++ [.ok result] } call result) where
  queried := h.queried
  counted := by
    unfold record
    dsimp only
    rw [List.countP_append, h.counted]
    rfl

/-- How the calls of a turn leave the transcript: all are answered, or one of them raised and is
not, and neither are those behind it. -/
inductive Dispatched (before : List Dict) (content : Json) (calls : List ToolCall) :
    Except PyError StopReason → List Dict → Prop
  | answered {reason : StopReason} {answers : List Dict}
      (hanswers : List.Forall₂ Answers calls answers) :
      Dispatched before content calls (.ok reason)
        (before ++ assistantMessage content calls :: answers)
  | raised {e : PyError} {done rest : List ToolCall} {answers : List Dict}
      (hcalls : calls = done ++ rest) (hrest : rest ≠ [])
      (hanswers : List.Forall₂ Answers done answers) :
      Dispatched before content calls (.error e)
        (before ++ assistantMessage content calls :: answers)

/-- The calls of a turn from one of them on, when those before it are answered. -/
theorem dispatch_spec {step idx : Nat} {done rest : List ToolCall} {answers : List Dict}
    {content : Json} {sawFinish : Bool} (hkept : Kept messages s)
    (htranscript : s.transcript = before ++ assistantMessage content (done ++ rest) :: answers)
    (hanswers : List.Forall₂ Answers done answers) :
    Kept messages (dispatch cfg around step idx rest sawFinish s).2 ∧
      Dispatched before content (done ++ rest) (dispatch cfg around step idx rest sawFinish s).1
        (dispatch cfg around step idx rest sawFinish s).2.transcript := by
  induction rest generalizing idx done answers sawFinish s with
  | nil =>
    refine ⟨hkept, ?_⟩
    rw [dispatch]
    dsimp only
    rw [htranscript]
    apply Dispatched.answered
    rw [List.append_nil]
    exact hanswers
  | cons call rest ih =>
    rw [dispatch]
    dsimp only
    cases houtcome : around.toolbox.call around.py (around.runTool step idx) call.name
        call.arguments with
    | error e =>
      refine ⟨kept_dispatched hkept rfl, ?_⟩
      dsimp only
      rw [htranscript]
      exact .raised rfl (List.cons_ne_nil _ _) hanswers
    | ok result =>
      have hrecorded := kept_record hkept call result
      have hanswered : List.Forall₂ Answers (done ++ [call])
          (answers ++ [toolMessage call result.toObservation]) :=
        List.rel_append hanswers (.cons (answers_toolMessage call _) .nil)
      dsimp only
      split
      · refine ⟨⟨hrecorded.queried, hrecorded.counted⟩, ?_⟩
        dsimp only [record]
        rw [htranscript, List.append_assoc, List.append_assoc, List.cons_append,
          ← List.append_assoc answers]
        apply Dispatched.answered
        have hall : List.Forall₂ Answers (done ++ [call] ++ rest)
            (answers ++ [toolMessage call result.toObservation] ++ rest.map skippedMessage) :=
          List.rel_append hanswered (forall₂_skipped rest)
        rw [List.append_assoc] at hall
        exact hall
      · have hcalls : done ++ call :: rest = (done ++ [call]) ++ rest := by
          rw [List.append_assoc]
          rfl
        rw [hcalls]
        apply ih hrecorded _ hanswered
        dsimp only [record]
        rw [htranscript, hcalls, List.append_assoc, List.cons_append]

/-! ## A turn -/

theorem left_of_dispatched {groups : List Dict} {content : Json} {calls : List ToolCall}
    {outcome : Except PyError StopReason} {transcript : List Dict} (hgroups : Groups groups)
    (hcalls : calls ≠ []) (h : Dispatched (messages ++ groups) content calls outcome transcript) :
    Left messages transcript outcome := by
  cases h with
  | @answered reason answers hanswers =>
    have hgoing : Going messages
      (messages ++ groups ++ assistantMessage content calls :: answers) :=
      ⟨_, List.append_assoc _ _ _, .turn hgroups hcalls hanswers⟩
    cases reason with
    | completed => exact hgoing
    | _ => exact hgoing.ended _
  | raised hdone hrest hanswers =>
    subst hdone
    exact ⟨groups, _, List.append_assoc _ _ _, hgroups, .unanswered hrest hanswers (.inr rfl)⟩

theorem kept_assistant (h : Kept messages s) (message : Dict) (total : TokenTotal) :
    Kept messages { s with
      transcript := s.transcript ++ [message]
      info := { s.info with totalTokens := total } } where
  queried := h.queried
  counted := h.counted

/-- A last message stands behind the groups, whatever its calls. -/
theorem ended_assistant {groups : List Dict} (hgroups : Groups groups) (content : Json)
    (calls : List ToolCall) {reason : StopReason}
    (hreason : reason = .tokenLimit ∨ reason = .unknownError) :
    Ended messages reason (messages ++ groups ++ [assistantMessage content calls]) := by
  refine ⟨groups, _, List.append_assoc _ _ _, hgroups, ?_⟩
  cases calls with
  | nil => exact .plain content
  | cons call rest => exact .unanswered (List.cons_ne_nil call rest) .nil hreason

theorem answered_spec {step : Nat} {reply : PolicyReply} (hkept : Kept messages s)
    (hgoing : Going messages s.transcript) :
    Kept messages (answered cfg around step reply s).2 ∧
      Left messages (answered cfg around step reply s).2.transcript
        (answered cfg around step reply s).1 := by
  obtain ⟨groups, htranscript, hgroups⟩ := hgoing
  unfold answered
  cases reply.totalTokens with
  | error e => exact ⟨hkept, Going.ended ⟨groups, htranscript, hgroups⟩ _⟩
  | ok total =>
    have hkept' := kept_assistant hkept (assistantMessage reply.content reply.toolCalls) total
    have hended : ∀ reason, reason = .tokenLimit ∨ reason = .unknownError →
        Ended messages reason
          (s.transcript ++ [assistantMessage reply.content reply.toolCalls]) := by
      intro reason hreason
      rw [htranscript]
      exact ended_assistant hgroups reply.content reply.toolCalls hreason
    dsimp only
    cases budgetReached cfg.maxTotalTokens total with
    | error e => exact ⟨hkept', hended _ (.inr rfl)⟩
    | ok reached =>
      cases reached with
      | true => exact ⟨hkept', hended _ (.inl rfl)⟩
      | false =>
        dsimp only
        split
        · exact ⟨hkept', hended _ (.inl rfl)⟩
        · split
          · rename_i hnone
            refine ⟨hkept', groups, _, ?_, hgroups, .plain reply.content⟩
            rw [htranscript, hnone, List.append_assoc]
          · rename_i hsome
            have hcalls : s.transcript ++ [assistantMessage reply.content reply.toolCalls] =
                (messages ++ groups) ++
                  assistantMessage reply.content ([] ++ reply.toolCalls) :: [] := by
              rw [htranscript]
              rfl
            obtain ⟨hkeptAll, hdispatched⟩ := dispatch_spec hkept' hcalls .nil
            exact ⟨hkeptAll, left_of_dispatched hgroups hsome hdispatched⟩

theorem kept_queried (hkept : Kept messages s) (hgoing : Going messages s.transcript) :
    Kept messages { s with queried := s.queried ++ [s.transcript] } where
  queried := by
    intro transcript htranscript
    rcases List.mem_append.mp htranscript with hold | hnew
    · exact hkept.queried transcript hold
    · rw [List.mem_singleton.mp hnew]
      exact hgoing
  counted := hkept.counted

theorem queryPolicy_spec {step : Nat} {remaining : Option Int} (hkept : Kept messages s)
    (hgoing : Going messages s.transcript) :
    Kept messages (queryPolicy cfg around step remaining s).2 ∧
      Left messages (queryPolicy cfg around step remaining s).2.transcript
        (queryPolicy cfg around step remaining s).1 := by
  unfold queryPolicy
  dsimp only
  split
  · exact ⟨kept_queried hkept hgoing, hgoing.ended _⟩
  · exact answered_spec (kept_queried hkept hgoing) hgoing

/-- What one step does to a transcript that goes on. -/
theorem step_spec {stepIdx : Nat} (hkept : Kept messages s) (hgoing : Going messages s.transcript) :
    Kept messages (step cfg around stepIdx s).2 ∧
      Left messages (step cfg around stepIdx s).2.transcript (step cfg around stepIdx s).1 := by
  unfold step
  split
  · exact queryPolicy_spec hkept hgoing
  · split
    · exact ⟨hkept, hgoing.ended _⟩
    · split
      · exact ⟨hkept, hgoing.ended _⟩
      · exact queryPolicy_spec hkept hgoing

/-! ## The run -/

/-- How the loop leaves the transcript: with a reason, or with an exception. -/
def LoopLeft (messages : List Dict) (transcript : List Dict) :
    Except PyError StopReason → Prop
  | .ok reason => Ended messages reason transcript
  | .error e => e.isException = true → Ended messages .unknownError transcript

theorem steps_spec {left stepIdx : Nat} (hkept : Kept messages s)
    (hgoing : Going messages s.transcript) :
    Kept messages (steps cfg around left stepIdx s).2 ∧
      LoopLeft messages (steps cfg around left stepIdx s).2.transcript
        (steps cfg around left stepIdx s).1 := by
  induction left generalizing stepIdx s with
  | zero => exact ⟨hkept, hgoing.ended _⟩
  | succ left ih =>
    have hkept' : Kept messages { s with info := { s.info with steps := stepIdx } } :=
      ⟨hkept.queried, hkept.counted⟩
    rw [steps]
    generalize houtcome : step cfg around stepIdx { s with
      info := { s.info with steps := stepIdx } } = outcome
    have hstep : Kept messages outcome.2 ∧ Left messages outcome.2.transcript outcome.1 := by
      rw [← houtcome]
      exact step_spec hkept' hgoing
    obtain ⟨ended, s'⟩ := outcome
    obtain ⟨hkeptAll, hleft⟩ := hstep
    cases ended with
    | error e => exact ⟨hkeptAll, fun _ => hleft⟩
    | ok reason =>
      cases reason with
      | completed => exact ih hkeptAll hleft
      | _ => exact ⟨hkeptAll, hleft⟩

theorem loop_spec (cfg : ReActConfig) (around : Surroundings) (hkept : Kept messages s)
    (hgoing : Going messages s.transcript) :
    Kept messages (loop cfg around s).2 ∧
      LoopLeft messages (loop cfg around s).2.transcript (loop cfg around s).1 := by
  unfold loop
  split
  · exact ⟨hkept, fun _ => hgoing.ended _⟩
  · exact steps_spec hkept hgoing

theorem within_spec (cfg : ReActConfig) (around : Surroundings) (hkept : Kept messages s)
    (hgoing : Going messages s.transcript) :
    Kept messages (within cfg around s).2 ∧
      LoopLeft messages (within cfg around s).2.transcript (within cfg around s).1 := by
  obtain ⟨hkept', hleft⟩ := loop_spec cfg around hkept hgoing
  unfold within
  split
  · exact ⟨hkept', hleft⟩
  · split
    · exact ⟨hkept', hleft⟩
    · rename_i e hexception
      exact ⟨hkept', fun h => absurd h hexception⟩

/-- The transcripts of a run are well formed: each that is queried is the first messages and turns
whose calls are answered in order, and the one that is returned has at most one message more, with
calls that are not answered only when the episode ended at a token limit or with an error. The
counter of the calls counts those that were dispatched and came back. -/
structure WellFormed (messages : List Dict) (r : Run) : Prop where
  queried : ∀ transcript ∈ r.episode.queried, Going messages transcript
  returned : ∀ reason result, r.outcome = .ok (reason, result) →
    Ended messages reason result.transcript
  counted : ∀ reason result, r.outcome = .ok (reason, result) →
    result.info.numToolCalls = r.episode.dispatched.countP isReturned

theorem going_start (messages : List Dict) : Going messages messages :=
  ⟨[], (List.append_nil messages).symm, .nil⟩

theorem kept_start (messages : List Dict) : Kept messages { transcript := messages } where
  queried := by
    intro transcript htranscript
    cases htranscript
  counted := rfl

theorem wellFormed_of_error {episode : Episode} {e : PyError} (h : Kept messages episode) :
    WellFormed messages { episode, outcome := .error e } where
  queried := h.queried
  returned := by
    intro reason result hresult
    cases hresult
  counted := by
    intro reason result hresult
    cases hresult

theorem wellFormed_of_ok {episode : Episode} {reason : StopReason} (h : Kept messages episode)
    (hended : Ended messages reason episode.transcript) :
    WellFormed messages { episode, outcome := .ok (resultOf reason episode) } where
  queried := h.queried
  returned := by
    intro reason' result hresult
    cases hresult
    exact hended
  counted := by
    intro reason' result hresult
    cases hresult
    exact h.counted

theorem caught_spec {outcome : Except PyError StopReason} {reason : StopReason}
    (hkept : Kept messages s) (hleft : LoopLeft messages s.transcript outcome)
    (h : caught s outcome = .ok (reason, s')) :
    Kept messages s' ∧ Ended messages reason s'.transcript := by
  cases outcome with
  | ok reason' =>
    cases h
    exact ⟨hkept, hleft⟩
  | error e =>
    rw [caught] at h
    split at h
    · rename_i hexception
      cases h
      exact ⟨⟨hkept.queried, hkept.counted⟩, hleft hexception⟩
    · cases h

theorem transcripts_stay_well_formed (cfg : ReActConfig) (around : Surroundings)
    (messages : List Dict) : WellFormed messages (run cfg around messages) := by
  obtain ⟨hkept, hleft⟩ := within_spec cfg around (kept_start messages) (going_start messages)
  unfold run
  dsimp only
  split
  · exact wellFormed_of_error (kept_start messages)
  · split
    · exact wellFormed_of_error (kept_start messages)
    · split
      · exact wellFormed_of_error hkept
      · exact wellFormed_of_error hkept
      · rename_i hcaught
        obtain ⟨hkept', hended⟩ := caught_spec hkept hleft hcaught
        exact wellFormed_of_ok hkept' hended

end uni_agent.agents.ReActAgent
