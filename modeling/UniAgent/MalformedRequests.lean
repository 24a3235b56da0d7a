-- The contract of a lowering: a body is rejected without a trace in the session, or it becomes a
-- request that the session can serve. The bodies for which it holds are given exactly.
import UniAgent.AcceptedEntries
import UniAgent.GatewayRoutes

namespace uni_agent

open validation
open session (GatewaySession InternalGenerationRequest SamplingParams System)

namespace anthropic

variable {py : PythonLibrary}

/-! ## Tools -/

def AcceptedTool (py : PythonLibrary) : Json → Prop
  | .obj tool => HasString tool "name" ∧
    ∃ schema, py.deepcopy ((Dict.get? tool "input_schema").getD (.obj [])) = .ok schema
  | _ => False

/-- `copy.deepcopy` raises on the schema of a tool. -/
def ToolRaises (py : PythonLibrary) : Json → PyError → Prop
  | .obj tool, e => HasString tool "name" ∧
    py.deepcopy ((Dict.get? tool "input_schema").getD (.obj [])) = .error e
  | _, _ => False

def AcceptedTools (py : PythonLibrary) (tools : Json) : Prop :=
  tools = .null ∨ ∃ items, tools = .arr items ∧ ∀ tool ∈ items, AcceptedTool py tool

def ToolsRaise (py : PythonLibrary) (tools : Json) (e : PyError) : Prop :=
  ∃ items, tools = .arr items ∧ FirstRaise (AcceptedTool py) (ToolRaises py) items e

/-- A tool choice of `auto` or `none`, by itself or as the type of an object. -/
def AcceptedToolChoice (payload : Dict) : Prop :=
  match (payload.get? "tool_choice").getD (.str "auto") with
  | .str choice => choice = "auto" ∨ choice = "none"
  | .obj choice => hasField (.obj choice) "type" "auto" = true ∨
    hasField (.obj choice) "type" "none" = true
  | _ => False

theorem convertTool_checks (py : PythonLibrary) (tool : Json) :
    Checks IsRejection (convertTool py tool) (AcceptedTool py tool) (ToolRaises py tool) := by
  cases tool with
  | obj tool =>
    simp only [convertTool, AcceptedTool, HasString]
    split
    · rename_i name hname
      have hcopy : Checks IsRejection (py.deepcopy ((Dict.get? tool "input_schema").getD (.obj [])))
          (∃ schema, py.deepcopy ((Dict.get? tool "input_schema").getD (.obj [])) = .ok schema)
          (fun e => py.deepcopy ((Dict.get? tool "input_schema").getD (.obj [])) = .error e) :=
        ⟨Iff.rfl, fun _ _ => Iff.rfl⟩
      exact (hcopy.map _).congr (by simp [hname])
        (fun e => by simp [ToolRaises, HasString, hname])
    · rename_i hother
      have hnone : ¬ ∃ name, Dict.get? tool "name" = some (.str name) := by
        rintro ⟨name, hname⟩
        exact hother name hname
      exact Checks.congr (validates_malformed _) (by simp [hnone])
        (fun e => by simp [ToolRaises, HasString, hnone])
  | _ => exact validates_malformed _

theorem convertTools_checks (py : PythonLibrary) (tools : Json) :
    Checks IsRejection (convertTools py tools) (AcceptedTools py tools) (ToolsRaise py tools) := by
  unfold AcceptedTools ToolsRaise
  cases tools with
  | null => exact Checks.congr (validates_ok none) (by simp) (by simp)
  | arr items =>
    exact ((checks_mapM (convertTool_checks py) items).map _).congr (by simp) (by simp)
  | _ => exact Checks.congr (validates_malformed _) (by simp) (by simp)

theorem applyToolChoice_validates (py : PythonLibrary) (payload : Dict)
    (tools : Option (List Json)) :
    Validates IsRejection (applyToolChoice py payload tools) (AcceptedToolChoice payload) := by
  unfold applyToolChoice AcceptedToolChoice
  cases (payload.get? "tool_choice").getD (.str "auto") with
  | str choice =>
    refine (Validates.ite (fun _ => validates_ok tools) (fun _ => Validates.ite
      (fun _ => validates_ok none) (fun _ => validates_malformed _))).congr ?_
    by_cases hauto : choice = "auto" <;> simp [hauto]
  | obj choice =>
    refine (Validates.ite (fun _ => validates_ok tools) (fun _ => Validates.ite
      (fun _ => validates_ok none) (fun _ => validates_malformed _))).congr ?_
    by_cases hauto : hasField (.obj choice) "type" "auto" = true <;> simp [hauto]
  | _ => exact validates_malformed _

/-! ## Bodies -/

/-- A payload whose tools are reached and hold a schema that cannot be copied. -/
inductive Raises (py : PythonLibrary) : Json → PyError → Prop
  | deepcopy (payload : Dict) (e : PyError)
      (hmessages : AcceptedMessages py ((payload.get? "messages").getD .null))
      (hsystem : AcceptedSystem ((payload.get? "system").getD .null))
      (htools : ToolsRaise py ((payload.get? "tools").getD .null) e) : Raises py (.obj payload) e

/-- An accepted payload that is lowered to no message. -/
structure LowersToNothing (py : PythonLibrary) (payload : Dict) : Prop where
  messages : ∃ entries, payload.get? "messages" = some (.arr entries) ∧
    AcceptedMessages py (.arr entries) ∧ SaysNothing py entries
  system : systemToText py ((payload.get? "system").getD .null) = .ok ""
  tools : AcceptedTools py ((payload.get? "tools").getD .null)
  toolChoice : AcceptedToolChoice payload

variable {base : Dict} {allowed : List String} {body : Json}

theorem anthropicToInternal_checks (py : PythonLibrary) (base : Dict) (allowed : List String)
    (payload : Dict) : Checks IsRejection (anthropicToInternal py base allowed (.obj payload))
      (AcceptedMessages py ((payload.get? "messages").getD .null) ∧
        AcceptedSystem ((payload.get? "system").getD .null) ∧
          AcceptedTools py ((payload.get? "tools").getD .null) ∧ AcceptedToolChoice payload)
      (Raises py (.obj payload)) := by
  have hsystem : Validates IsRejection (systemToText py ((payload.get? "system").getD .null))
      (AcceptedSystem ((payload.get? "system").getD .null)) := systemToText_validates _
  have hlowered : Validates IsRejection
      (foldMidListSystemIntoUser py ((payload.get? "messages").getD .null) >>=
        messagesToInternal py)
      (AcceptedMessages py ((payload.get? "messages").getD .null)) := lowerMessages_validates _
  have hrest := fun (messages : List Message) =>
    Checks.bind hsystem
      (fun systemText _ =>
        (convertTools_checks py ((payload.get? "tools").getD .null)).bind (fun tools _ =>
          Checks.map (applyToolChoice_validates py payload tools) (fun tools =>
            ({ messages := if systemText = "" then messages
                else { role := "system", content := .str systemText } :: messages
               tools
               samplingParams := samplingParamsOf base payload allowed } : LoweredRequest))))
  have hchecks := Checks.bind hlowered (fun messages _ => hrest messages)
  rw [bind_assoc] at hchecks
  refine hchecks.congr Iff.rfl (fun e => ?_)
  refine ⟨?_, ?_⟩
  · rintro (hfalse | ⟨hmessages, hfalse | ⟨hsystem, hraise | ⟨_, hfalse⟩⟩⟩)
    · exact hfalse.elim
    · exact hfalse.elim
    · exact .deepcopy payload e hmessages hsystem hraise
    · exact hfalse.elim
  · intro h
    cases h with
    | deepcopy _ _ hmessages hsystem hraise =>
      exact Or.inr ⟨hmessages, Or.inr ⟨hsystem, Or.inl hraise⟩⟩

/-- What entries are lowered to is of the user, of a tool or of the assistant. -/
theorem lowered_role {entries : List Json} {messages : List Message}
    (h : Lowered py entries messages) :
    ∀ m ∈ messages, m.role = "tool" ∨ m.role = "user" ∨ m.role = "assistant" := by
  induction entries generalizing messages with
  | nil => simp [lowered_nil.mp h]
  | cons entry entries ih =>
    obtain ⟨front, back, hfront, hback, rfl⟩ := lowered_cons.mp h
    rw [List.forall_mem_append]
    refine ⟨fun m hm => ?_, ih hback⟩
    rcases messageToInternal_eq_ok hfront with ⟨_, hcontent⟩ | ⟨_, _, m', hrole, rfl⟩
    · rcases (userMessagesFromContent_eq_ok hcontent).1 m hm with htool | huser
      · exact Or.inl htool
      · exact Or.inr (Or.inl huser)
    · cases List.mem_singleton.mp hm
      exact Or.inr (Or.inr hrole)

/-- Each lowered message has a role, and a system message is the first one. -/
theorem anthropicToInternal_roles {payload : Dict} {request : LoweredRequest}
    (h : anthropicToInternal py base allowed (.obj payload) = .ok request) :
    (∀ m ∈ request.messages, m.role ≠ "") ∧
      (∀ i m, request.messages[i]? = some m → m.role = "system" → i = 0) ∧
        (request.messages = [] ↔ LowersToNothing py payload) := by
  obtain ⟨hmessages, _, htools, hchoice⟩ :=
    (anthropicToInternal_checks py base allowed payload).ok_iff.mp ⟨request, h⟩
  obtain ⟨entries, hget, haccepted⟩ := id hmessages
  have hentries : Dict.get? payload "messages" = some (.arr entries) := by
    cases hvalue : Dict.get? payload "messages" with
    | none => simp [hvalue] at hget
    | some value => simpa [hvalue] using hget
  obtain ⟨l, messages, systemText, hl, _, hlowered, htext, hrequest⟩ :=
    anthropicToInternal_eq_ok hentries h
  have hroles := lowered_role hlowered
  have hnone : messages = [] ↔ SaysNothing py entries := by
    rw [fold_front hl rfl, List.nil_append] at hlowered
    exact lowered_foldedFront_eq_nil_iff hlowered
  rw [hget] at hmessages
  by_cases hempty : systemText = ""
  · rw [if_pos hempty] at hrequest
    rw [hrequest]
    refine ⟨fun m hm => ?_, fun i m hm hsystem => ?_, ?_⟩
    · rcases hroles m hm with hrole | hrole | hrole <;> simp [hrole]
    · rcases hroles m (List.mem_of_getElem? hm) with hrole | hrole | hrole <;> simp
        [hrole] at hsystem
    · rw [hnone]
      refine ⟨?_, ?_⟩
      · intro hnothing
        exact ⟨⟨entries, hentries, hmessages, hnothing⟩, by rw [htext, hempty], htools, hchoice⟩
      · rintro ⟨⟨entries', hentries', _, hnothing⟩, _, _, _⟩
        cases hentries.symm.trans hentries'
        exact hnothing
  · rw [if_neg hempty] at hrequest
    rw [hrequest]
    refine ⟨fun m hm => ?_, fun i m hm hsystem => ?_, ?_⟩
    · rcases List.mem_cons.mp hm with rfl | hm
      · simp
      · rcases hroles m hm with hrole | hrole | hrole <;> simp [hrole]
    · cases i with
      | zero => rfl
      | succ i =>
        rw [List.getElem?_cons_succ] at hm
        rcases hroles m (List.mem_of_getElem? hm) with hrole | hrole | hrole <;>
          simp [hrole] at hsystem
    · refine iff_of_false (by simp) ?_
      rintro ⟨_, hsilent, _, _⟩
      rw [htext] at hsilent
      cases hsilent
      exact hempty rfl

end anthropic

/-! ## The contract -/

/-- The preparation of a request comes to `incoming_message_prefix_hashes[-1]`, and the list has
no hash. -/
def IndexesNoHash (C : MessageCodec) (s : GatewaySession) (request : InternalGenerationRequest) :
    Prop :=
  ∃ working, session.finishPreparation s.trajectoryCapacity request
    (C.extendMessagePrefixHashes [] request.messages) working =
      .error (.indexError "list index out of range")

theorem not_indexesNoHash {C : MessageCodec} {s : GatewaySession}
    {request : InternalGenerationRequest} (h : request.messages ≠ []) :
    ¬ IndexesNoHash C s request := by
  rintro ⟨working, hworking⟩
  have hlast : (C.extendMessagePrefixHashes [] request.messages).getLast? =
      some (C.prefixHash request.messages) := by
    rw [C.extendMessagePrefixHashes_eq]
    exact prefix_digests.getLast?_extend request.messages h
  unfold session.finishPreparation at hworking
  rw [hlast] at hworking
  split at hworking <;> simp at hworking

/-- A lowered request that the session can serve. -/
structure Servable (route : Route) (internal : LoweredRequest) : Prop where
  nonempty : internal.messages ≠ []
  role : ∀ m ∈ internal.messages, m.role ≠ ""
  system : route = .anthropic →
    ∀ i m, internal.messages[i]? = some m → m.role = "system" → i = 0
  hashed : ∀ C s params,
    ¬ IndexesNoHash C s ⟨internal.messages, internal.tools, params⟩

/-- A body is rejected, which the client learns and the session does not, or it is lowered to a
request that can be served. -/
def MeetsContract (py : PythonLibrary) (route : Route) (base : Dict) (allowed : List String)
    (body : Json) : Prop :=
  (∃ e, route.toInternal py base allowed body = .error e ∧ e.isMalformedRequest = true ∧
    ∀ C sys, receive C py route base allowed sys body =
      (sys, some ⟨400, route.errorBody 400 e.str⟩)) ∨
  ∃ internal, route.toInternal py base allowed body = .ok internal ∧ Servable route internal

/-- The exceptions of a route that are no rejections, with the bodies they are raised on. -/
def Route.Raises (py : PythonLibrary) : Route → Json → PyError → Prop
  | .openai => openai.Raises py
  | .anthropic => anthropic.Raises py

/-- A body that breaks the contract of its route. -/
inductive Breaks (py : PythonLibrary) : Route → Json → Prop
  | raises (route : Route) (body : Json) (e : PyError) (he : ¬ IsRejection e)
      (h : route.Raises py body e) : Breaks py route body
  | nothing (payload : Dict) (h : anthropic.LowersToNothing py payload) :
      Breaks py .anthropic (.obj payload)

section Contract

variable {py : PythonLibrary} {base : Dict} {allowed : List String} {body : Json}

theorem meetsContract_of_error {route : Route} {e : PyError}
    (h : route.toInternal py base allowed body = .error e) :
    MeetsContract py route base allowed body ↔ IsRejection e := by
  refine ⟨?_, ?_⟩
  · rintro (⟨e', herror, he', _⟩ | ⟨internal, hok, _⟩)
    · cases h.symm.trans herror
      exact he'
    · cases h.symm.trans hok
  · intro he
    exact Or.inl ⟨e, h, he, fun _ sys => receive_of_rejected h he sys⟩

theorem meetsContract_of_ok {route : Route} {internal : LoweredRequest}
    (h : route.toInternal py base allowed body = .ok internal) :
    MeetsContract py route base allowed body ↔ Servable route internal := by
  refine ⟨?_, ?_⟩
  · rintro (⟨e, herror, _, _⟩ | ⟨other, hok, hservable⟩)
    · cases h.symm.trans herror
    · cases h.symm.trans hok
      exact hservable
  · intro hservable
    exact Or.inr ⟨internal, h, hservable⟩

/-- What is lowered on the OpenAI route can be served. -/
theorem servable_openai {internal : LoweredRequest}
    (h : openai.openaiToInternal py base allowed body = .ok internal) :
    Servable .openai internal := by
  obtain ⟨hne, hroles⟩ := openai.openaiToInternal_eq_ok h
  exact ⟨hne, hroles, by simp, fun _ _ _ => not_indexesNoHash hne⟩

/-- What is lowered on the Anthropic route can be served exactly when it has a message. -/
theorem servable_anthropic_iff {payload : Dict} {internal : LoweredRequest}
    (h : anthropic.anthropicToInternal py base allowed (.obj payload) = .ok internal) :
    Servable .anthropic internal ↔ ¬ anthropic.LowersToNothing py payload := by
  obtain ⟨hroles, hsystem, hnone⟩ := anthropic.anthropicToInternal_roles h
  rw [← hnone]
  refine ⟨?_, ?_⟩
  · exact fun hservable => hservable.nonempty
  · intro hne
    exact ⟨hne, hroles, fun _ => hsystem, fun _ _ _ => not_indexesNoHash hne⟩

theorem toInternal_error_iff (base : Dict) (allowed : List String) {route : Route} {e : PyError}
    (he : ¬ IsRejection e) :
    route.toInternal py base allowed body = .error e ↔ route.Raises py body e := by
  cases route with
  | openai => exact openai.openaiToInternal_error_iff he
  | anthropic =>
    cases body with
    | obj payload =>
      exact (anthropic.anthropicToInternal_checks py base allowed payload).error_iff e he
    | _ =>
      refine iff_of_false (fun h => ?_) (fun hraises => by cases hraises)
      cases h
      exact he (isMalformedRequest_malformedRequest _)

/-- A body that is lowered to nothing is lowered. -/
theorem toInternal_of_nothing (base : Dict) (allowed : List String) {payload : Dict}
    (h : anthropic.LowersToNothing py payload) :
    ∃ internal, Route.anthropic.toInternal py base allowed (.obj payload) = .ok internal := by
  obtain ⟨⟨entries, hentries, hmessages, _⟩, hsystem, htools, hchoice⟩ := h
  have haccepted := (anthropic.systemToText_validates _).ok_iff.mp ⟨"", hsystem⟩
  apply (anthropic.anthropicToInternal_checks py base allowed payload).ok_iff.mpr
  exact ⟨by simpa [hentries] using hmessages, haccepted, htools, hchoice⟩

/-- A lowering keeps its contract on all bodies but those that `Breaks` lists. -/
theorem lowering_meets_contract_iff (py : PythonLibrary) (route : Route) (base : Dict)
    (allowed : List String) (body : Json) :
    MeetsContract py route base allowed body ↔ ¬ Breaks py route body := by
  cases hlower : route.toInternal py base allowed body with
  | error e =>
    rw [meetsContract_of_error hlower]
    refine ⟨?_, ?_⟩
    · intro he hbreaks
      cases hbreaks with
      | raises _ _ e' he' hraises =>
        cases hlower.symm.trans ((toInternal_error_iff base allowed he').mpr hraises)
        exact he' he
      | nothing payload hnothing =>
        obtain ⟨internal, hok⟩ := toInternal_of_nothing base allowed hnothing
        cases hlower.symm.trans hok
    · intro hkept
      by_contra he
      exact hkept (.raises route body e he ((toInternal_error_iff base allowed he).mp hlower))
  | ok internal =>
    have hquiet : ∀ e, ¬ IsRejection e → ¬ route.Raises py body e := by
      intro e he hraises
      cases hlower.symm.trans ((toInternal_error_iff base allowed he).mpr hraises)
    rw [meetsContract_of_ok hlower]
    cases route with
    | openai =>
      refine iff_of_true (servable_openai hlower) ?_
      intro hbreaks
      cases hbreaks with
      | raises _ _ e he hraises => exact hquiet e he hraises
    | anthropic =>
      cases body with
      | obj payload =>
        rw [servable_anthropic_iff hlower, not_iff_not]
        refine ⟨?_, ?_⟩
        · exact fun hnothing => .nothing payload hnothing
        · intro hbreaks
          cases hbreaks with
          | raises _ _ e he hraises => exact absurd hraises (hquiet e he)
          | nothing _ hnothing => exact hnothing
      | _ => cases hlower

end Contract

/-- A body that is a list is no rejection on the OpenAI route, and a user entry with an empty list
of blocks is lowered to no message on the Anthropic route. -/
theorem an_array_and_an_empty_entry_break_the_contract :
    ¬ MeetsContract plainPython .openai [] [] (.arr []) ∧
      ¬ MeetsContract plainPython .anthropic [] []
        (.obj [("messages", .arr [.obj [("role", .str "user"), ("content", .arr [])]])]) := by
  refine ⟨?_, ?_⟩
  · have herror : Route.openai.toInternal plainPython [] [] (.arr []) =
        .error (.otherException "AttributeError" "'list' object has no attribute 'get'") := rfl
    rw [meetsContract_of_error herror]
    simp [IsRejection, PyError.isMalformedRequest]
  · have hok : Route.anthropic.toInternal plainPython [] []
        (.obj [("messages", .arr [.obj [("role", .str "user"), ("content", .arr [])]])]) =
          .ok ⟨[], none, []⟩ := rfl
    rw [meetsContract_of_ok hok]
    exact fun hservable => hservable.nonempty rfl

end uni_agent
