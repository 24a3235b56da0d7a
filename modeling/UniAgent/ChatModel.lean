-- The client of an agent: the body of one chat-completions call, its attempts, of which those that
-- fail for a while are made again, and what is read off the response.
import UniAgent.ReactAgent

namespace uni_agent.agents

/-! ## Values of a response -/

/-- `value[key]` for a key that is a text. -/
def subscript (value : Json) (key : String) : Except PyError Json :=
  match value with
  | .obj fields =>
    match Dict.get? fields key with
    | some item => .ok item
    | none => .error (.otherException "KeyError" ("'" ++ key ++ "'"))
  | .arr _ => .error (.typeError "list indices must be integers or slices, not str")
  | .str _ => .error (.typeError "string indices must be integers, not 'str'")
  | value => .error (.typeError ("'" ++ value.typeName ++ "' object is not subscriptable"))

/-- `value[0]` -/
def firstOf : Json → Except PyError Json
  | .arr (item :: _) => .ok item
  | .arr [] => .error (.indexError "list index out of range")
  | .str text =>
    match text.toList with
    | c :: _ => .ok (.str (String.singleton c))
    | [] => .error (.indexError "string index out of range")
  | .obj _ => .error (.otherException "KeyError" "0")
  | value => .error (.typeError ("'" ++ value.typeName ++ "' object is not subscriptable"))

/-- `value.get(key, default)` -/
def getField (value : Json) (key : String) (default : Json := .null) : Except PyError Json :=
  match value with
  | .obj fields => .ok ((Dict.get? fields key).getD default)
  | value => .error (.otherException "AttributeError"
      ("'" ++ value.typeName ++ "' object has no attribute 'get'"))

/-- The items of a value in a `for` loop. -/
def iterate : Json → Except PyError (List Json)
  | .arr items => .ok items
  | .obj fields => .ok (fields.map (fun field => .str field.1))
  | .str text => .ok (text.toList.map (fun c => .str (String.singleton c)))
  | value => .error (.typeError ("'" ++ value.typeName ++ "' object is not iterable"))

/-- `value or default` -/
def orElse (value default : Json) : Json := if value.truthy then value else default

/-! ## The call -/

/-- What `OpenAICompatibleChatModel.__init__` stores, less its address and its key. -/
structure ChatModel where
  modelName : Json := .null
  samplingParams : Dict := []
  toolsSchemas : List Json := []
  maxRetries : Nat := 2

namespace ChatModel

/-- A field of a message that is there and is not `None`. -/
def presentField (message : Dict) (key : String) : Dict :=
  match message.get? key with
  | none => []
  | some .null => []
  | some value => [(key, value)]

/-- One turn of the loop in `_normalize_messages_for_api`. -/
def normalizeMessageForApi (message : Dict) : Except PyError Dict := do
  let role ← subscript (.obj message) "role"
  let toolCalls := (message.get? "tool_calls").getD .null
  return [("role", role)] ++ presentField message "content" ++
    (if role.isText "assistant" && toolCalls.truthy then [("tool_calls", toolCalls)] else []) ++
    (if role.isText "tool" then
      presentField message "tool_call_id" ++ presentField message "name" else [])

/-- `_normalize_messages_for_api` -/
def normalizeMessagesForApi (messages : List Dict) : Except PyError (List Dict) :=
  messages.mapM normalizeMessageForApi

/-- The body that `query` builds. -/
def requestBody (model : ChatModel) (messages : List Dict) (samplingParams : Option Dict) :
    Except PyError Dict := do
  let params := samplingParams.getD model.samplingParams
  let modelName := orElse ((params.get? "model").getD .null) model.modelName
  let normalized ← normalizeMessagesForApi messages
  let body : Dict := (params.pop "model").foldl (fun body field => body.set field.1 field.2)
    [("model", modelName), ("messages", .arr (normalized.map .obj))]
  return if model.toolsSchemas.isEmpty then body else body.set "tools" (.arr model.toolsSchemas)

/-- How one attempt to post a body ends: with a `ClientError` or a timeout, with another exception,
or with a response. -/
inductive Attempt where
  | failed (error : PyError)
  | raised (error : PyError)
  | response (status : Nat) (text : String) (body : Json)

/-- What an attempt means: it may be made again, or the call ends with it. -/
inductive Verdict where
  | transient (error : PyError)
  | final (result : Except PyError Json)

/-- `_TransientHTTPError` -/
def transientHTTPError (status : Nat) (body : String) : PyError :=
  .otherException "_TransientHTTPError" ("HTTP " ++ toString status ++ ": " ++
    String.ofList (body.toList.take 500))

/-- The body of the loop in `_post_chat_completion`. -/
def Attempt.verdict : Attempt → Verdict
  | .failed error => .transient error
  | .raised error => .final (.error error)
  | .response status text body =>
    if status = 429 ∨ 500 ≤ status then .transient (transientHTTPError status text)
    else if 400 ≤ status then .final (.error (.runtimeError ("chat/completions returned HTTP " ++
      toString status ++ ": " ++ String.ofList (text.toList.take 1000))))
    else .final (.ok body)

/-- `_post_chat_completion`, when these are its attempts: `left` more may be made after the first
one. With fewer attempts the call is still under way, and no more are made. -/
def postChatCompletion : Nat → List Attempt → Option (Except PyError Json)
  | _, [] => none
  | left, attempt :: rest =>
    match attempt.verdict, left, rest with
    | .final result, _, [] => some result
    | .transient error, 0, [] => some (.error error)
    | .transient _, left + 1, rest => postChatCompletion left rest
    | _, _, _ => none

/-- A tool call of the response, as `query` serializes it. -/
def serializeToolCall (toolCall : Json) : Except PyError ToolCall := do
  let id ← subscript toolCall "id"
  let type ← getField toolCall "type" (.str "function")
  let function ← subscript toolCall "function"
  let name ← subscript function "name"
  let arguments ← subscript function "arguments"
  return { id, type, name, arguments }

/-- The sum of two token counts. -/
def tokenTotal (promptTokens completionTokens : Json) : Except PyError TokenTotal :=
  let number : Json → Option Int
    | .int n => some n
    | .bool b => some b.toNat
    | _ => none
  match number promptTokens, number completionTokens, promptTokens, completionTokens with
  | some m, some n, _, _ => .ok (.number (m + n))
  | _, _, .str _, .str _ => .ok (.other "str")
  | _, _, .arr _, .arr _ => .ok (.other "list")
  | _, _, left, right => .error (.typeError ("unsupported operand type(s) for +: '" ++
      left.typeName ++ "' and '" ++ right.typeName ++ "'"))

/-- What `query` reads off the response. -/
def readResponse (data : Json) : Except PyError PolicyReply := do
  let choice ← firstOf (← subscript data "choices")
  let message ← subscript choice "message"
  let content := orElse (← getField message "content") (.str "")
  let toolCalls ← (← iterate (orElse (← getField message "tool_calls") (.arr []))).mapM
    serializeToolCall
  let usage := orElse (← getField data "usage") (.obj [])
  let promptTokens ← getField usage "prompt_tokens" (.int 0)
  let completionTokens ← getField usage "completion_tokens" (.int 0)
  let finishReason ← getField choice "finish_reason"
  return {
    content, toolCalls, finishReason
    totalTokens := tokenTotal promptTokens completionTokens }

/-- `query`, when these are the attempts of its call. -/
def query (model : ChatModel) (messages : List Dict) (samplingParams : Option Dict)
    (attempts : List Attempt) : Option (Except PyError PolicyReply) :=
  match model.requestBody messages samplingParams with
  | .error e => if attempts.isEmpty then some (.error e) else none
  | .ok _ => (postChatCompletion model.maxRetries attempts).map (fun result =>
      result.bind readResponse)

/-! ## Attempts -/

/-- A call ends after its first attempt that is not transient, or after its last one, and it makes
at most `left + 1`. -/
theorem postChatCompletion_eq_some {left : Nat} {attempts : List Attempt}
    {result : Except PyError Json} : postChatCompletion left attempts = some result ↔
      ∃ front last, attempts = front ++ [last] ∧
        (∀ attempt ∈ front, ∃ e, attempt.verdict = .transient e) ∧
        (last.verdict = .final result ∧ front.length ≤ left ∨
          ∃ e, last.verdict = .transient e ∧ result = .error e ∧ front.length = left) := by
  induction attempts generalizing left with
  | nil => simp [postChatCompletion]
  | cons attempt rest ih =>
    constructor
    · intro h
      unfold postChatCompletion at h
      cases hverdict : attempt.verdict with
      | final outcome =>
        cases rest with
        | nil =>
          simp only [hverdict, Option.some.injEq] at h
          subst h
          exact ⟨[], attempt, rfl, by simp, Or.inl ⟨hverdict, Nat.zero_le _⟩⟩
        | cons other rest => simp [hverdict] at h
      | transient e =>
        cases left with
        | zero =>
          cases rest with
          | nil =>
            simp only [hverdict, Option.some.injEq] at h
            exact ⟨[], attempt, rfl, by simp, Or.inr ⟨e, hverdict, h.symm, rfl⟩⟩
          | cons other rest => simp [hverdict] at h
        | succ left =>
          simp only [hverdict] at h
          obtain ⟨front, last, rfl, hfront, hlast⟩ := ih.mp h
          refine ⟨attempt :: front, last, rfl, ?_, ?_⟩
          · intro other hother
            rcases List.mem_cons.mp hother with rfl | hother
            · exact ⟨e, hverdict⟩
            · exact hfront other hother
          · simpa using hlast
    · rintro ⟨front, last, hsplit, hfront, hlast⟩
      cases front with
      | nil =>
        obtain ⟨rfl, rfl⟩ : attempt = last ∧ rest = [] := by simpa using hsplit
        rcases hlast with ⟨hverdict, _⟩ | ⟨e, hverdict, rfl, hleft⟩
        · simp [postChatCompletion, hverdict]
        · obtain rfl : left = 0 := hleft.symm
          simp [postChatCompletion, hverdict]
      | cons first front =>
        obtain ⟨rfl, rfl⟩ : attempt = first ∧ rest = front ++ [last] := by simpa using hsplit
        obtain ⟨e, hverdict⟩ := hfront attempt (by simp)
        cases left with
        | zero => simp at hlast
        | succ left =>
          unfold postChatCompletion
          simp only [hverdict]
          refine ih.mpr ⟨front, last, rfl, fun other hother => hfront other (by simp [hother]), ?_⟩
          simpa using hlast

end ChatModel

end uni_agent.agents
