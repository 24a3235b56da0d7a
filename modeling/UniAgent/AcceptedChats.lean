-- The chat-completions bodies that the OpenAI route accepts, and those on which it raises
-- something that is no rejection.
import UniAgent.OpenAIAdapter
import UniAgent.Preparation
import UniAgent.Validation

namespace uni_agent

open validation

/-- The rejections of a lowering. -/
def IsRejection (e : PyError) : Prop := e.isMalformedRequest = true

theorem validates_malformed {α : Type} (message : String) :
    Validates IsRejection (.error (malformedRequest message) : Except PyError α) False :=
  validates_error (isMalformedRequest_malformedRequest message)

namespace openai

variable {py : PythonLibrary}

/-! ## Tool calls -/

/-- `json.loads` ends with an error on the arguments of a function, and not with one that is
caught. -/
def ArgumentsRaise (py : PythonLibrary) (function : Dict) (e : PyError) : Prop :=
  ∃ text, function.get? "arguments" = some (.str text) ∧ py.jsonLoads text = .raised e ∧
    ∀ message, e ≠ .typeError message

def AcceptedToolCall (py : PythonLibrary) : Json → Prop
  | .obj toolCall => ∃ function, Dict.get? toolCall "function" = some (.obj function) ∧
    ∀ e, ¬ ArgumentsRaise py function e
  | _ => False

def ToolCallRaises (py : PythonLibrary) : Json → PyError → Prop
  | .obj toolCall, e => ∃ function, Dict.get? toolCall "function" = some (.obj function) ∧
    ArgumentsRaise py function e
  | _, _ => False

theorem parseArguments_checks (function : Dict) :
    Checks IsRejection (parseArguments py function) (∀ e, ¬ ArgumentsRaise py function e)
      (ArgumentsRaise py function) := by
  have hquiet : (∀ e, ¬ ArgumentsRaise py function e) →
      (∃ d, parseArguments py function = .ok d) →
      Checks IsRejection (parseArguments py function) (∀ e, ¬ ArgumentsRaise py function e)
        (ArgumentsRaise py function) := by
    rintro hnone ⟨d, hd⟩
    rw [hd]
    exact Checks.congr (validates_ok d) (by simpa using hnone) (by simpa using hnone)
  cases harguments : function.get? "arguments" with
  | none =>
    exact hquiet (by simp [ArgumentsRaise, harguments]) (by simp [parseArguments, harguments])
  | some value =>
    cases value with
    | str text =>
      cases hloads : py.jsonLoads text with
      | value parsed =>
        exact hquiet (by simp [ArgumentsRaise, harguments, hloads])
          (by simp [parseArguments, harguments, hloads])
      | decodeError =>
        exact hquiet (by simp [ArgumentsRaise, harguments, hloads])
          (by simp [parseArguments, harguments, hloads])
      | raised e =>
        by_cases htype : ∃ message, e = .typeError message
        · obtain ⟨message, rfl⟩ := htype
          refine hquiet ?_ (by simp [parseArguments, harguments, hloads])
          rintro e ⟨text', htext, hraised, hne⟩
          cases harguments.symm.trans htext
          cases hloads.symm.trans hraised
          exact hne message rfl
        · have hne : ∀ message, e ≠ .typeError message := fun message h => htype ⟨message, h⟩
          have hraises : ∀ e', ArgumentsRaise py function e' ↔ e' = e := by
            intro e'
            refine ⟨?_, ?_⟩
            · rintro ⟨text', htext, hraised, _⟩
              cases harguments.symm.trans htext
              cases hloads.symm.trans hraised
              rfl
            · rintro rfl
              exact ⟨text, harguments, hloads, hne⟩
          have herror : parseArguments py function = .error e := by
            unfold parseArguments
            rw [harguments]
            simp only [hloads]
          rw [herror]
          exact (checks_error e).congr (by simp [hraises]) (fun e' => (hraises e').symm)
    | _ =>
      exact hquiet (by simp [ArgumentsRaise, harguments]) (by simp [parseArguments, harguments])

theorem normalizeToolCall_checks (toolCall : Json) :
    Checks IsRejection (normalizeToolCall py toolCall) (AcceptedToolCall py toolCall)
      (ToolCallRaises py toolCall) := by
  have hreject : ∀ message, (AcceptedToolCall py toolCall ↔ False) →
      (∀ e, ToolCallRaises py toolCall e ↔ False) →
      Checks IsRejection (.error (malformedRequest message) : Except PyError Dict)
        (AcceptedToolCall py toolCall) (ToolCallRaises py toolCall) :=
    fun message haccepted hraises =>
      Checks.congr (validates_malformed message) haccepted.symm (fun e => (hraises e).symm)
  cases toolCall with
  | obj toolCall =>
    simp only [normalizeToolCall]
    cases hfunction : Dict.get? toolCall "function" with
    | none =>
      exact hreject _ (by simp [AcceptedToolCall, hfunction]) (by simp [ToolCallRaises, hfunction])
    | some value =>
      cases value with
      | obj function =>
        refine ((parseArguments_checks function).map _).congr ?_ (fun e => ?_)
        · simp [AcceptedToolCall, hfunction]
        · simp [ToolCallRaises, hfunction]
      | _ =>
        exact hreject _ (by simp [AcceptedToolCall, hfunction])
          (by simp [ToolCallRaises, hfunction])
  | _ => exact hreject _ (by simp [AcceptedToolCall]) (by simp [ToolCallRaises])

/-! ## Messages -/

def AcceptedRole (message : Dict) : Prop :=
  ∃ role, message.get? "role" = some (.str role) ∧ role ≠ ""

/-- `content` is a list, an object, a string or null, or is absent. -/
def AcceptedContent (message : Dict) : Prop :=
  match (message.get? "content").getD (.str "") with
  | .arr _ | .obj _ | .str _ | .null => True
  | _ => False

def AcceptedName (message : Dict) : Prop :=
  ∀ value, message.get? "name" = some value → ∃ name, value = .str name

def AcceptedToolCalls (py : PythonLibrary) (message : Dict) : Prop :=
  ∀ value, message.get? "tool_calls" = some value →
    ∃ toolCalls, value = .arr toolCalls ∧ ∀ toolCall ∈ toolCalls, AcceptedToolCall py toolCall

def ToolCallsRaise (py : PythonLibrary) (message : Dict) (e : PyError) : Prop :=
  ∃ toolCalls, message.get? "tool_calls" = some (.arr toolCalls) ∧
    FirstRaise (AcceptedToolCall py) (ToolCallRaises py) toolCalls e

def AcceptedReasoning (message : Dict) : Prop :=
  ∀ value, message.get? "reasoning_content" = some value → value = .null ∨ ∃ text, value = .str text

/-- One entry of `messages` that is accepted. -/
def AcceptedMessage (py : PythonLibrary) : Json → Prop
  | .obj message => AcceptedRole message ∧ AcceptedContent message ∧ AcceptedName message ∧
    AcceptedToolCalls py message ∧ AcceptedReasoning message
  | _ => False

/-- The arguments of a tool call are reached in an entry, and `json.loads` raises on them. -/
def MessageRaises (py : PythonLibrary) : Json → PyError → Prop
  | .obj message, e => AcceptedRole message ∧ AcceptedContent message ∧ AcceptedName message ∧
    ToolCallsRaise py message e
  | _, _ => False

theorem messageRole_validates (message : Dict) :
    Validates IsRejection (messageRole message) (AcceptedRole message) := by
  unfold messageRole AcceptedRole
  cases message.get? "role" with
  | none => exact (validates_malformed _).congr (by simp)
  | some value =>
    cases value with
    | str role =>
      refine (Validates.ite (fun _ => validates_malformed _) (fun _ => validates_ok role)).congr ?_
      by_cases hrole : role = "" <;> simp [hrole]
    | _ => exact (validates_malformed _).congr (by simp)

theorem normalizeMessageContent_validates (message : Dict) :
    Validates IsRejection
      (normalizeMessageContent ((message.get? "content").getD (.str "")))
      (AcceptedContent message) := by
  unfold normalizeMessageContent AcceptedContent
  cases (message.get? "content").getD (.str "") with
  | arr items => exact validates_ok _
  | obj fields => exact validates_ok _
  | str text => exact validates_ok _
  | null => exact validates_ok _
  | _ => exact validates_malformed _

theorem messageName_validates (message : Dict) :
    Validates IsRejection (messageName message) (AcceptedName message) := by
  unfold messageName AcceptedName
  cases message.get? "name" with
  | none => exact (validates_ok _).congr (by simp)
  | some value =>
    cases value with
    | str name => exact (validates_ok _).congr (by simp)
    | _ => exact (validates_malformed _).congr (by simp)

theorem messageToolCalls_checks (py : PythonLibrary) (message : Dict) :
    Checks IsRejection (messageToolCalls py message) (AcceptedToolCalls py message)
      (ToolCallsRaise py message) := by
  unfold messageToolCalls AcceptedToolCalls ToolCallsRaise
  cases message.get? "tool_calls" with
  | none => exact Checks.congr (validates_ok none) (by simp) (by simp)
  | some value =>
    cases value with
    | arr toolCalls =>
      refine ((checks_mapM normalizeToolCall_checks toolCalls).map _).congr ?_ (fun e => ?_)
      · simp
      · simp
    | _ =>
      exact Checks.congr (Validates.map (validates_malformed _) _) (by simp) (by simp)

theorem messageReasoning_validates (message : Dict) :
    Validates IsRejection (messageReasoning message) (AcceptedReasoning message) := by
  unfold messageReasoning AcceptedReasoning
  cases message.get? "reasoning_content" with
  | none => exact (validates_ok _).congr (by simp)
  | some value =>
    cases value with
    | null => exact (validates_ok _).congr (by simp)
    | str text => exact (validates_ok _).congr (by simp)
    | _ => exact (validates_malformed _).congr (by simp)

theorem normalizeMessage_checks (message : Json) :
    Checks IsRejection (normalizeMessage py message) (AcceptedMessage py message)
      (MessageRaises py message) := by
  cases message with
  | obj message =>
    have hreasoning := fun (f : Option (Option String) → Message) =>
      (messageReasoning_validates message).map f
    have htoolCalls := fun (f : Option (List Dict) → Option (Option String) → Message) =>
      (messageToolCalls_checks py message).bind (fun calls _ => hreasoning (f calls))
    have hname := fun (f : Option String → Option (List Dict) → Option (Option String) → Message) =>
      Checks.bind (messageName_validates message) (fun name _ => htoolCalls (f name))
    refine (Checks.bind (messageRole_validates message) (fun role _ =>
      Checks.bind (normalizeMessageContent_validates message) (fun content _ =>
        hname _))).congr ?_ (fun e => ?_)
    · simp only [AcceptedMessage]
    · simp [MessageRaises]
  | _ => exact Checks.congr (validates_malformed _) Iff.rfl (fun _ => Iff.rfl)

/-! ## Bodies -/

/-- The gates in front of the messages let a payload through. -/
structure OpenGates (payload : Dict) : Prop where
  one : ((payload.get? "n").getD (.int 1)).pyEq (.int 1) = true
  responseFormat : payload.get? "response_format" = none ∨
      payload.get? "response_format" = some .null
  toolChoice : ∃ choice, (payload.get? "tool_choice").getD (.str "auto") = .str choice ∧
    (lowerAscii choice = "auto" ∨ lowerAscii choice = "none")

def AcceptedTools (payload : Dict) : Prop :=
  ∀ value, payload.get? "tools" = some value → value = .null ∨ ∃ tools, value = .arr tools

theorem checkGates_validates (py : PythonLibrary) (payload : Dict) :
    Validates IsRejection (checkGates py payload)
      (((payload.get? "n").getD (.int 1)).pyEq (.int 1) = true ∧
        (payload.get? "response_format" = none ∨ payload.get? "response_format" = some .null)) := by
  simp only [checkGates]
  cases ((payload.get? "n").getD (.int 1)).pyEq (.int 1) with
  | true =>
    cases payload.get? "response_format" with
    | none => exact (validates_ok ()).congr (by simp)
    | some value =>
      cases value with
      | null => exact (validates_ok ()).congr (by simp)
      | _ => exact (validates_malformed _).congr (by simp)
  | false => exact (validates_malformed _).congr (by simp)

theorem toolChoiceOf_validates (payload : Dict) :
    Validates IsRejection (toolChoiceOf payload)
      (∃ choice, (payload.get? "tool_choice").getD (.str "auto") = .str choice ∧
        (lowerAscii choice = "auto" ∨ lowerAscii choice = "none")) := by
  unfold toolChoiceOf
  cases (payload.get? "tool_choice").getD (.str "auto") with
  | str choice =>
    refine (Validates.ite (fun _ => validates_ok _) (fun _ => validates_malformed _)).congr ?_
    simp
  | _ => exact (validates_malformed _).congr (by simp)

theorem messagesOf_validates (payload : Dict) :
    Validates IsRejection (messagesOf payload)
      (∃ messages, payload.get? "messages" = some (.arr messages) ∧ messages ≠ []) := by
  unfold messagesOf
  cases payload.get? "messages" with
  | none => exact (validates_malformed _).congr (by simp)
  | some value =>
    cases value with
    | arr messages =>
      cases messages with
      | nil => exact (validates_malformed _).congr (by simp)
      | cons message rest => exact (validates_ok _).congr (by simp)
    | _ => exact (validates_malformed _).congr (by simp)

theorem messagesOf_eq_ok {payload : Dict} {messages : List Json}
    (h : messagesOf payload = .ok messages) :
    payload.get? "messages" = some (.arr messages) ∧ messages ≠ [] := by
  unfold messagesOf at h
  split at h
  · rename_i message rest hmessages
    cases h
    exact ⟨hmessages, by simp⟩
  · cases h

theorem toolsOf_validates (payload : Dict) :
    Validates IsRejection (toolsOf payload) (AcceptedTools payload) := by
  unfold toolsOf AcceptedTools
  cases payload.get? "tools" with
  | none => exact (validates_ok _).congr (by simp)
  | some value =>
    cases value with
    | null => exact (validates_ok _).congr (by simp)
    | arr tools => exact (validates_ok _).congr (by simp)
    | _ => exact (validates_malformed _).congr (by simp)

/-- A body on which the OpenAI route raises something that is no rejection: one that is no
object, or one whose messages are reached and hold arguments on which `json.loads` raises. -/
inductive Raises (py : PythonLibrary) : Json → PyError → Prop
  | noObject (body : Json) (hbody : ∀ payload, body ≠ .obj payload) :
      Raises py body (.otherException "AttributeError"
        ("'" ++ body.typeName ++ "' object has no attribute 'get'"))
  | arguments (payload : Dict) (messages : List Json) (e : PyError) (hgates : OpenGates payload)
      (htools : AcceptedTools payload) (hmessages : payload.get? "messages" = some (.arr messages))
      (hraise : FirstRaise (AcceptedMessage py) (MessageRaises py) messages e) :
      Raises py (.obj payload) e

variable {base : Dict} {allowed : List String} {body : Json}

theorem openaiToInternal_error_iff {e : PyError} (he : ¬ IsRejection e) :
    openaiToInternal py base allowed body = .error e ↔ Raises py body e := by
  cases body with
  | obj payload =>
    have hmessages : ∀ (toolChoice : String) (messages : List Json) (tools : Option (List Json)),
        messagesOf payload = .ok messages → Checks IsRejection
          (messages.mapM (normalizeMessage py) >>= fun lowered => pure ({
            messages := lowered
            tools := if toolChoice = "none" then none else tools
            samplingParams := mergeSamplingParams base payload allowed } : LoweredRequest))
          (∀ messages, Dict.get? payload "messages" = some (.arr messages) →
            ∀ message ∈ messages, AcceptedMessage py message)
          (fun e => ∃ messages, Dict.get? payload "messages" = some (.arr messages) ∧
            FirstRaise (AcceptedMessage py) (MessageRaises py) messages e) := by
      intro toolChoice messages tools h
      have hget := (messagesOf_eq_ok h).1
      refine ((checks_mapM normalizeMessage_checks messages).map _).congr ?_ (fun e => ?_)
      · simp [hget]
      · simp [hget]
    have hchecks := Checks.bind (checkGates_validates py payload) (fun _ _ =>
      Checks.bind (toolChoiceOf_validates payload) (fun toolChoice _ =>
        Checks.bind (messagesOf_validates payload) (fun messages h =>
          Checks.bind (toolsOf_validates payload) (fun tools _ =>
            hmessages toolChoice messages tools h))))
    refine (hchecks.error_iff e he).trans ?_
    refine ⟨?_, ?_⟩
    · rintro (hfalse | ⟨⟨hone, hformat⟩,
        hfalse | ⟨hchoice, hfalse | ⟨_, hfalse | ⟨htools, hraise⟩⟩⟩⟩)
      · exact hfalse.elim
      · exact hfalse.elim
      · exact hfalse.elim
      · exact hfalse.elim
      · obtain ⟨messages, hget, hraise⟩ := hraise
        exact .arguments payload messages e ⟨hone, hformat, hchoice⟩ htools hget hraise
    · intro hraises
      cases hraises with
      | noObject _ hbody => exact absurd rfl (hbody payload)
      | arguments _ messages _ hgates htools hget hraise =>
        have hne : messages ≠ [] := by
          rintro rfl
          simp [FirstRaise] at hraise
        exact Or.inr ⟨⟨hgates.one, hgates.responseFormat⟩, Or.inr ⟨hgates.toolChoice,
          Or.inr ⟨⟨messages, hget, hne⟩, Or.inr ⟨htools, messages, hget, hraise⟩⟩⟩⟩
  | _ =>
    simp only [openaiToInternal, Except.error.injEq]
    refine ⟨?_, ?_⟩
    · rintro rfl
      exact .noObject _ (by simp)
    · intro hraises
      cases hraises
      rfl

theorem normalizeMessage_role {message : Json} {m : Message}
    (h : normalizeMessage py message = .ok m) : m.role ≠ "" := by
  cases message with
  | obj message =>
    simp only [normalizeMessage, bind_eq_ok] at h
    obtain ⟨role, hrole, content, _, name, _, toolCalls, _, reasoning, _, h⟩ := h
    cases h
    unfold messageRole at hrole
    split at hrole
    · split at hrole
      · cases hrole
      · rename_i hne
        cases hrole
        exact hne
    · cases hrole
  | _ => cases h

/-- What is lowered has a message, and each has a role. -/
theorem openaiToInternal_eq_ok {request : LoweredRequest}
    (h : openaiToInternal py base allowed body = .ok request) :
    request.messages ≠ [] ∧ ∀ m ∈ request.messages, m.role ≠ "" := by
  cases body with
  | obj payload =>
    simp only [openaiToInternal, bind_eq_ok] at h
    obtain ⟨_, _, toolChoice, _, messages, hmessages, tools, _, lowered, hlowered, h⟩ := h
    cases h
    refine ⟨?_, fun m hm => ?_⟩
    · rintro rfl
      have hall := forall₂_of_mapM hlowered
      rw [List.forall₂_nil_right_iff] at hall
      exact (messagesOf_eq_ok hmessages).2 hall
    · obtain ⟨message, _, hmessage⟩ := exists_item_of_mapM hlowered hm
      exact normalizeMessage_role hmessage
  | _ => cases h

end openai

end uni_agent
