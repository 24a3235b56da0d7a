-- A client that has a session of an actor to itself: the attempts of its calls, among whatever the
-- actor does for others, and the answer that each call is given by its session.
import UniAgent.ActorSessions
import UniAgent.ChatModel
import UniAgent.ServedRequests

namespace uni_agent.gateway

open agents (ChatModel)
open agents.ChatModel (Attempt postChatCompletion)
open session (Answered Coherent Dated GenerationOutcome InternalGenerationRequest
  Later Served System
  TokenOutput)

/-! ## Attempts -/

/-- What surrounds an attempt: whether it reaches the actor, what the actor does until the client
hears of it, and the connection error or timeout that the client has instead of a reply. -/
structure Occasion where
  arrives : Bool := true
  events : List ActorAction := []
  broken : Option PyError := none

/-- An action of someone who sends nothing to a session id. -/
def leavesAlone (sessionId : String) : ActorAction → Bool
  | .createSession name _ | .post name _ _ | .callMethod name _ => name.sessionId != sessionId
  | _ => true

/-- The actor after those of some actions that are enabled in their turn. -/
def takeEnabled (cfg : ActorSettings) (m : GatewayActor) (actions : List ActorAction) :
    GatewayActor :=
  actions.foldl (fun m a => (m.step cfg a).getD m) m

/-- The actor, and the number of the next call of the client. -/
structure ClientWorld where
  actor : GatewayActor
  next : Nat

/-- What the client hears of a call. Without an answer that it can read its connection fails. -/
def heard (cfg : ActorSettings) (broken : Option PyError) : Option CallState → Attempt
  | some (.answered (.answer answer)) =>
    match broken with
    | none => .response answer.statusCode (cfg.dumps answer.body) answer.body
    | some e => .failed e
  | _ => .failed (broken.getD (.otherException "ClientError" ""))

section Client

variable (cfg : ActorSettings) (sessionId : String) (occasions : Nat → Occasion)

/-- One turn of the loop in `_post_chat_completion`, up to what is done about its error. -/
def attempt (body : Json) (w : ClientWorld) : Attempt × ClientWorld :=
  let occasion := occasions w.next
  let name : CallName := ⟨sessionId, w.next⟩
  let posted :=
    if occasion.arrives then takeEnabled cfg w.actor [.post name .openai (some body)] else w.actor
  let actor := takeEnabled cfg posted (occasion.events.filter (leavesAlone sessionId))
  (heard cfg occasion.broken (actor.calls name), ⟨actor, w.next + 1⟩)

/-- `_post_chat_completion`, when so many attempts are left after this one. -/
def postRetrying (body : Json) : Nat → ClientWorld → Except PyError Json × ClientWorld
  | left, w =>
    match attempt cfg sessionId occasions body w, left with
    | (tried, w), 0 =>
      match tried.verdict with
      | .final result => (result, w)
      | .transient e => (.error e, w)
    | (tried, w), left + 1 =>
      match tried.verdict with
      | .final result => (result, w)
      | .transient _ => postRetrying body left w

/-- `query`, up to what it reads off the response. -/
def queryResponse (model : ChatModel) (w : ClientWorld) (messages : List Dict)
    (samplingParams : Option Dict) : Except PyError Json × ClientWorld :=
  match model.requestBody messages samplingParams with
  | .error e => (.error e, w)
  | .ok body => postRetrying cfg sessionId occasions (.obj body) model.maxRetries w

end Client

/-! ## The session of the client -/

section Alone

variable {cfg : ActorSettings} {m t : GatewayActor} {object name : CallName} {base : Dict}
  {R : InternalGenerationRequest → Prop} {O : TokenOutput → Prop} {I : System → Prop}
  {given full : InternalGenerationRequest → List Token → Prop} {a : ActorAction}
  {request : InternalGenerationRequest} {first : Nat} {sys : System}

/-- The steps of a session whose requests meet `R` and whose outputs meet `O`, and that no one
closes. -/
def Permits (R : InternalGenerationRequest → Prop) (O : TokenOutput → Prop) :
    session.Action → Prop
  | .request request => R request
  | .backendReturns _ output => O output
  | .setRewardInfo _ | .finalize | .abort => False
  | .cancelEarly | .backendRaises _ _ | .commit _ _ | .cancel _ | .release _ => True

/-- A law of such a session, and the contexts that it gives its requests: `given` when they have
room, and `full` otherwise. -/
structure Contract (C : MessageCodec) (R : InternalGenerationRequest → Prop)
    (O : TokenOutput → Prop) (I : System → Prop)
    (given full : InternalGenerationRequest → List Token → Prop) : Prop where
  keeps : ∀ {sys b t}, Coherent C sys → I sys → Permits R O b → sys.step C b = some t → I t
  given : ∀ {sys : System} {request encoded}, I sys → R request →
    sys.session.prepareGenerationInputs C request = .ok encoded →
      encoded.capacityExhausted = false → given request encoded.contextIds
  full : ∀ {sys : System} {request encoded}, I sys → R request →
    sys.session.prepareGenerationInputs C request = .ok encoded →
      encoded.capacityExhausted = true → full request encoded.contextIds

/-- The session of the client: its id is that of no other session, and what waits for it are
requests that meet `R`. -/
structure Alone (cfg : ActorSettings) (object : CallName) (base : Dict)
    (R : InternalGenerationRequest → Prop) (I : System → Prop) (m : GatewayActor) (sys : System) :
    Prop where
  wired : Wired cfg (fun _ _ _ => True) m
  table : ∀ other, m.sessions object.sessionId = some other → other = object
  holds : m.objects object = some ⟨base, sys⟩
  waits : ∀ name work, m.calls name = some (.waiting object work) →
    ∃ request form, work = .generate request form ∧ R request
  coherent : Coherent cfg.codec sys
  dated : Dated sys
  law : I sys

/-- The session of a client that was just created for it. -/
theorem alone_created {xs : List ActorAction} {samplingParams : Option Dict} {o : SessionObject}
    (hrun : actorRun cfg xs = some m)
    (hcreate : GatewayActor.step cfg m (.createSession object samplingParams) = some t)
    (ho : t.objects object = some o) : ∃ s,
      session.GatewaySession.create object.sessionId cfg.promptLength cfg.responseLength
        cfg.enableLastAssistantRollback = .ok s ∧
      o = ⟨samplingParams.getD [], System.initial s⟩ ∧
      ∀ R I, I (System.initial s) → Alone cfg object o.samplingParams R I t (System.initial s) := by
  have hwired : Wired cfg (fun _ _ _ => True) m :=
    runs.run_invariant_of_step _ (fun u a v hu => wired_step hu (fun _ _ _ _ => trivial)) hrun
      wired_start
  have hunknown : ∀ other, m.objects object ≠ some other := by
    intro other hother
    have hcall := hwired.named object (by simp [GatewayActor.params, hother])
    obtain ⟨hfree, _⟩ := GatewayActor.begin_eq_some.mp hcreate
    simp [hfree] at hcall
  have hwired' := wired_step hwired (fun _ _ _ _ => trivial) hcreate
  cases GatewayActor.step_effect hcreate with
  | server _ url hid _ => cases hid
  | replied _ name r _ _ _ => exact absurd ho (hunknown o)
  | created _ _ s r hname hfree hnew _ =>
    rw [GatewayActor.reply_objects, GatewayActor.register_objects, Function.update_self,
      Option.some.injEq] at ho
    subst ho
    refine ⟨s, hnew, rfl, fun R I hI =>
      ⟨hwired', ?_, ?_, ?_, session.coherent_initial hnew, ?_, hI⟩⟩
    · intro other htable
      rw [GatewayActor.reply_sessions, GatewayActor.register_sessions, Function.update_self,
        Option.some.injEq] at htable
      exact htable.symm
    · rw [GatewayActor.reply_objects, GatewayActor.register_objects, Function.update_self]
    · intro name work hcall
      rw [GatewayActor.reply_calls, GatewayActor.register_calls] at hcall
      by_cases hsame : name = object
      · simp [hsame] at hcall
      · rw [Function.update_of_ne hsame] at hcall
        obtain ⟨_, hparams⟩ := hwired.held name _ object hcall rfl
        obtain ⟨b, hb⟩ := Option.isSome_iff_exists.mp hparams
        obtain ⟨system, hsystem⟩ := GatewayActor.params_eq_some.mp hb
        exact absurd hsystem (hunknown _)
    · simp [Dated, System.initial]

/-- An action that may be taken beside the client, or a request of its own. -/
structure Beside (cfg : ActorSettings) (object : CallName) (base : Dict)
    (R : InternalGenerationRequest → Prop) (O : TokenOutput → Prop) (a : ActorAction) : Prop where
  sends : leavesAlone object.sessionId a = true ∨ ∃ name body, a = .post name .openai (some body) ∧
    ∀ request, lowerPayload cfg.py .openai base cfg.allowedRequestSamplingParamKeys body =
      .ok request → R request
  returns : ∀ name output, a = .proceed name (.backendReturns output) →
    name.sessionId = object.sessionId → O output

/-- A session takes at most one step at a time. -/
theorem object_step (hnamed : (m.calls object).isSome)
    (ho : m.objects object = some ⟨base, sys⟩) (hstep : GatewayActor.step cfg m a = some t) :
    ∃ sys', t.objects object = some ⟨base, sys'⟩ ∧
      (sys' = sys ∨ ∃ b ∈ m.actionsOn object a, sys.step cfg.codec b = some sys') := by
  have hmoved : ∀ (other : CallName) (o : SessionObject) (system : System) (b : session.Action),
      m.objects other = some o → b ∈ m.actionsOn other a →
      o.system.step cfg.codec b = some system →
      t.objects = Function.update m.objects other (some { o with system }) →
      ∃ sys', t.objects object = some ⟨base, sys'⟩ ∧
        (sys' = sys ∨ ∃ b ∈ m.actionsOn object a, sys.step cfg.codec b = some sys') := by
    intro other o system b hother hb hsystem hobjects
    by_cases hsame : other = object
    · subst hsame
      cases ho.symm.trans hother
      exact ⟨system, by rw [hobjects, Function.update_self], Or.inr ⟨b, hb, hsystem⟩⟩
    · exact ⟨sys, by rw [hobjects, Function.update_of_ne (Ne.symm hsame), ho], Or.inl rfl⟩
  cases GatewayActor.step_effect hstep with
  | server _ url _ _ => exact ⟨sys, ho, Or.inl rfl⟩
  | replied _ name r _ _ _ => exact ⟨sys, ho, Or.inl rfl⟩
  | created name samplingParams session r hname _ _ _ =>
    have hne : object ≠ name := by
      rintro rfl
      simp [hname] at hnamed
    refine ⟨sys, ?_, Or.inl rfl⟩
    rw [GatewayActor.reply_objects, GatewayActor.register_objects, Function.update_of_ne hne, ho]
  | posted name other o route payload request form _ _ _ _ => exact ⟨sys, ho, Or.inl rfl⟩
  | called name other method _ _ _ => exact ⟨sys, ho, Or.inl rfl⟩
  | entered name other work o system _ hcall hother hsystem hnext =>
    exact hmoved other o system _ hother (by simp [GatewayActor.actionsOn, hcall]) hsystem
      hnext.objects
  | gaveUp name other request form o system hcall hother hsystem =>
    exact hmoved other o system _ hother (by simp [GatewayActor.actionsOn, hcall, Work.cancelled])
      hsystem rfl
  | proceeded name other requestId form progress o system hcall hother hsystem =>
    exact hmoved other o system _ hother (by simp [GatewayActor.actionsOn, hcall]) hsystem rfl

theorem Alone.permits (h : Alone cfg object base R I m sys) (hbeside : Beside cfg object base R O a)
    {b : session.Action} (hb : b ∈ m.actionsOn object a) : Permits R O b := by
  rcases GatewayActor.mem_actionsOn hb with ⟨name, work, hcall, rfl | rfl⟩ |
    ⟨name, progress, requestId, form, rfl, hcall, rfl⟩
  · obtain ⟨request, form, rfl, hrequest⟩ := h.waits name work hcall
    exact hrequest
  · trivial
  · cases progress with
    | backendReturns output =>
      exact hbeside.returns name output rfl (h.wired.held name _ object hcall rfl).1.symm
    | backendRaises | commit | cancel | release => trivial

/-- Whoever takes an action, the session stays that of the client. -/
theorem Alone.step (hlaw : Contract cfg.codec R O I given full)
    (h : Alone cfg object base R I m sys) (hbeside : Beside cfg object base R O a)
    (hstep : GatewayActor.step cfg m a = some t) : ∃ sys', Alone cfg object base R I t sys' ∧
      (sys' = sys ∨ ∃ b ∈ m.actionsOn object a, sys.step cfg.codec b = some sys') := by
  have hnamed := h.wired.named object
    (by simp [GatewayActor.params_eq_some.mpr ⟨sys, h.holds⟩])
  obtain ⟨sys', hobject, hmoved⟩ := object_step hnamed h.holds hstep
  have hsys : Coherent cfg.codec sys' ∧ Dated sys' ∧ I sys' := by
    rcases hmoved with rfl | ⟨b, hb, hb'⟩
    · exact ⟨h.coherent, h.dated, h.law⟩
    · exact ⟨session.coherent_step h.coherent hb', session.dated_step h.coherent h.dated hb',
        hlaw.keeps h.coherent h.law (h.permits hbeside hb) hb'⟩
  -- No one else finds the object in the table.
  have hother : ∀ (name other : CallName), name.sessionId ≠ object.sessionId →
      m.sessions name.sessionId = some other → other ≠ object := by
    rintro name other hne htable rfl
    exact hne (h.wired.table _ _ htable).1.symm
  have hquiet : ∀ method : Method, ∀ name, a = .callMethod name method →
      name.sessionId ≠ object.sessionId := by
    rintro method name rfl
    rcases hbeside.sends with hleaves | ⟨_, _, heq, _⟩
    · simpa [leavesAlone] using hleaves
    · cases heq
  refine ⟨sys', ⟨wired_step h.wired (fun _ _ _ _ => trivial) hstep, ?_, hobject, ?_,
    hsys.1, hsys.2.1,
    hsys.2.2⟩, hmoved⟩
  · intro other htable
    cases GatewayActor.step_effect hstep with
    | server _ url _ _ => exact h.table other htable
    | replied _ name r _ _ _ => exact h.table other htable
    | created name samplingParams session r _ _ _ _ =>
      have hne : object.sessionId ≠ name.sessionId := by
        rcases hbeside.sends with hleaves | ⟨_, _, heq, _⟩
        · exact Ne.symm (by simpa [leavesAlone] using hleaves)
        · cases heq
      rw [GatewayActor.reply_sessions, GatewayActor.register_sessions,
        Function.update_of_ne hne] at htable
      exact h.table other htable
    | posted name other' o route payload request form _ _ _ _ => exact h.table other htable
    | called name other' method _ _ _ => exact h.table other htable
    | entered name other' work o system _ _ _ _ hnext =>
      have hkept : t.sessions object.sessionId = some other →
          m.sessions object.sessionId = some other := by
        intro htable
        cases hnext with
        | serving request form => exact htable
        | answered _ r _ _ _ _ => exact htable
        | finalized | aborted =>
          rw [GatewayActor.reply_sessions, GatewayActor.pop_sessions] at htable
          by_cases hid : object.sessionId = name.sessionId
          · simp [hid] at htable
          · rwa [Function.update_of_ne hid] at htable
      exact h.table other (hkept htable)
    | gaveUp name other' request form o system _ _ _ => exact h.table other htable
    | proceeded name other' requestId form progress o system _ _ _ => exact h.table other htable
  · intro name work hcall
    cases GatewayActor.step_effect hstep with
    | server _ url _ _ => exact h.waits name work hcall
    | replied _ name' r _ _ _ =>
      rw [GatewayActor.reply_calls] at hcall
      by_cases hsame : name = name'
      · simp [hsame] at hcall
      · rw [Function.update_of_ne hsame] at hcall
        exact h.waits name work hcall
    | created name' samplingParams session r _ _ _ _ =>
      rw [GatewayActor.reply_calls, GatewayActor.register_calls] at hcall
      by_cases hsame : name = name'
      · simp [hsame] at hcall
      · rw [Function.update_of_ne hsame] at hcall
        exact h.waits name work hcall
    | posted name' other o route payload request form _ htable ho hlower =>
      rw [GatewayActor.setCall_calls] at hcall
      by_cases hsame : name = name'
      · subst hsame
        simp only [Function.update_self, Option.some.injEq, CallState.waiting.injEq] at hcall
        obtain ⟨rfl, rfl⟩ := hcall
        refine ⟨request, form, rfl, ?_⟩
        rcases hbeside.sends with hleaves | ⟨_, body, heq, hlowers⟩
        · exact absurd rfl (hother name _ (by simpa [leavesAlone] using hleaves) htable)
        · cases heq
          cases h.holds.symm.trans ho
          exact hlowers request hlower
      · rw [Function.update_of_ne hsame] at hcall
        exact h.waits name work hcall
    | called name' other method _ htable _ =>
      rw [GatewayActor.setCall_calls] at hcall
      by_cases hsame : name = name'
      · subst hsame
        simp only [Function.update_self, Option.some.injEq, CallState.waiting.injEq] at hcall
        exact absurd hcall.1 (hother name other (hquiet method name rfl) htable)
      · rw [Function.update_of_ne hsame] at hcall
        exact h.waits name work hcall
    | entered name' other work' o system _ _ _ _ hnext =>
      have hcall : m.calls name = some (.waiting object work) := by
        by_cases hsame : name = name'
        · subst hsame
          cases hnext <;>
            simp [GatewayActor.setCall_calls, GatewayActor.reply_calls] at hcall
        · cases hnext <;>
            simpa [GatewayActor.setCall_calls, GatewayActor.reply_calls, hsame] using hcall
      exact h.waits name work hcall
    | gaveUp name' other request form o system _ _ _ =>
      rw [GatewayActor.reply_calls, GatewayActor.setObject_calls] at hcall
      by_cases hsame : name = name'
      · simp [hsame] at hcall
      · rw [Function.update_of_ne hsame] at hcall
        exact h.waits name work hcall
    | proceeded name' other requestId form progress o system _ _ _ => exact h.waits name work hcall

/-! ## The reply to a call -/

/-- The call that an action is about. -/
def ActorAction.name? : ActorAction → Option CallName
  | .start _ | .shutdown => none
  | .createSession name _ | .post name _ _ | .callMethod name _ | .enter name | .giveUp name
  | .proceed name _ | .respond name _ _ => some name

theorem reply_calls_of_ne {other : CallName} (hne : name ≠ other) (r : Reply) :
    (m.reply other r).calls name = m.calls name := by
  rw [GatewayActor.reply_calls, Function.update_of_ne hne]

theorem setCall_calls_of_ne {other : CallName} (hne : name ≠ other) (call : CallState) :
    (m.setCall other call).calls name = m.calls name := by
  rw [GatewayActor.setCall_calls, Function.update_of_ne hne]

theorem createSession_calls_of_ne {other : CallName} (hne : name ≠ other)
    (samplingParams : Option Dict) :
    (m.createSession cfg other samplingParams).calls name = m.calls name := by
  unfold GatewayActor.createSession
  repeat' split
  all_goals exact reply_calls_of_ne hne _

theorem post_calls_of_ne {other : CallName} (hne : name ≠ other) (route : Route)
    (payload : Option Json) : (m.post cfg other route payload).calls name = m.calls name := by
  cases payload with
  | none => exact reply_calls_of_ne hne _
  | some body =>
    unfold GatewayActor.post
    dsimp only
    split
    · exact reply_calls_of_ne hne _
    · split
      · exact reply_calls_of_ne hne _
      · exact setCall_calls_of_ne hne _

theorem callMethod_calls_of_ne {other : CallName} (hne : name ≠ other) (method : Method) :
    (m.callMethod cfg other method).calls name = m.calls name := by
  unfold GatewayActor.callMethod
  split
  · exact reply_calls_of_ne hne _
  · exact reply_calls_of_ne hne _
  · exact setCall_calls_of_ne hne _

theorem section_calls_of_ne {other object : CallName} (hne : name ≠ other) {before : System}
    {work : Work} (h : GatewayActor.Section m other object before work t) :
    t.calls name = m.calls name := by
  cases h <;> simp [GatewayActor.setCall_calls, GatewayActor.reply_calls, hne]

/-- An action changes no call but its own. -/
theorem calls_of_other (hother : a.name? ≠ some name) (hstep : GatewayActor.step cfg m a = some t) :
    t.calls name = m.calls name := by
  have hne : ∀ {other : CallName}, a.name? = some other → name ≠ other := by
    rintro other ha rfl
    exact hother ha
  cases a with
  | start url =>
    cases hstep
    rfl
  | shutdown =>
    cases hstep
    rfl
  | createSession other samplingParams =>
    obtain ⟨_, rfl⟩ := GatewayActor.begin_eq_some.mp hstep
    exact createSession_calls_of_ne (hne rfl) _
  | post other route payload =>
    obtain ⟨_, rfl⟩ := GatewayActor.begin_eq_some.mp hstep
    exact post_calls_of_ne (hne rfl) _ _
  | callMethod other method =>
    obtain ⟨_, rfl⟩ := GatewayActor.begin_eq_some.mp hstep
    exact callMethod_calls_of_ne (hne rfl) _
  | enter other =>
    simp only [GatewayActor.step] at hstep
    split at hstep
    · simp only [GatewayActor.enter, GatewayActor.stepObject, Option.bind_eq_bind,
        Option.bind_eq_some_iff, Option.map_eq_some_iff, Option.pure_def,
          Option.some.injEq] at hstep
      obtain ⟨o, _, _, ⟨system, _, rfl⟩, rfl⟩ := hstep
      rw [section_calls_of_ne (hne rfl) (GatewayActor.afterSection_spec _ _ _ _ _),
        GatewayActor.setObject_calls]
    · cases hstep
  | giveUp other =>
    simp only [GatewayActor.step] at hstep
    split at hstep
    · next object work hcall =>
      cases work with
      | generate request form =>
        simp only [GatewayActor.giveUp, GatewayActor.stepObject, Option.bind_eq_bind,
          Option.bind_eq_some_iff, Option.map_eq_some_iff, Option.pure_def,
            Option.some.injEq] at hstep
        obtain ⟨o, _, _, ⟨system, _, rfl⟩, rfl⟩ := hstep
        exact reply_calls_of_ne (hne rfl) _
      | setRewardInfo | finalize | abort =>
        simp only [GatewayActor.giveUp, Option.bind_eq_bind, Option.bind_eq_some_iff,
          Option.bind_some, Option.pure_def, Option.some.injEq] at hstep
        obtain ⟨o, _, rfl⟩ := hstep
        exact reply_calls_of_ne (hne rfl) _
    · cases hstep
  | proceed other progress =>
    simp only [GatewayActor.step] at hstep
    split at hstep
    · simp only [GatewayActor.proceed, GatewayActor.stepObject, Option.bind_eq_bind,
        Option.bind_eq_some_iff, Option.map_eq_some_iff] at hstep
      obtain ⟨o, _, system, _, rfl⟩ := hstep
      rfl
    · cases hstep
  | respond other id created =>
    simp only [GatewayActor.step] at hstep
    split at hstep
    · simp only [GatewayActor.respond, Option.bind_eq_bind, Option.bind_eq_some_iff,
        Option.pure_def, Option.some.injEq] at hstep
      obtain ⟨o, _, result, _, rfl⟩ := hstep
      exact reply_calls_of_ne (hne rfl) _
    · cases hstep

/-- What a reply tells about a request of the client: nothing, or an outcome that answers it. -/
inductive Tells (C : MessageCodec) (given full : InternalGenerationRequest → List Token → Prop)
    (sys : System) (first : Nat) (request : InternalGenerationRequest) : Reply → Prop
  | refused (status : Nat) (message : String) :
      Tells C given full sys first request
        (.answer ⟨status, Route.openai.errorBody status message⟩)
  | raised (e : PyError) : Tells C given full sys first request (.raised e)
  | stream (events : List Dict) : Tells C given full sys first request (.stream events)
  | outcome (envelope : openai.Envelope) (outcome : GenerationOutcome) (requestId : Nat)
      (hfirst : first ≤ requestId)
      (hanswered : Answered C given full sys requestId request outcome) :
      Tells C given full sys first request
        (.answer ⟨200, .obj (openai.openaiBuildResponse envelope outcome)⟩)

section Tells

variable {C : MessageCodec} {sys' : System} {r : Reply}

theorem Tells.later (h : Tells C given full sys first request r) (hlater : Later sys sys') :
    Tells C given full sys' first request r := by
  cases h with
  | refused status message => exact .refused status message
  | raised e => exact .raised e
  | stream events => exact .stream events
  | outcome envelope outcome requestId hfirst hanswered =>
    exact .outcome envelope outcome requestId hfirst (hanswered.later hlater)

theorem tells_errorReply (e : PyError) :
    Tells C given full sys first request (errorReply .openai e) := by
  unfold errorReply
  split
  · exact .refused _ _
  · exact .raised _
  · split <;> exact .refused _ _

theorem tells_generationReply {form : ReplyForm} (hroute : form.route = .openai) (id : String)
    (created : Int) {result : Except PyError GenerationOutcome}
    (h : ∀ outcome, result = .ok outcome → ∃ requestId, first ≤ requestId ∧
      Answered C given full sys requestId request outcome) :
    Tells C given full sys first request (generationReply cfg id created form result) := by
  unfold generationReply
  cases result with
  | error e =>
    rw [hroute]
    exact tells_errorReply e
  | ok outcome =>
    obtain ⟨requestId, hfirst, hanswered⟩ := h outcome rfl
    simp only [Except.bind, buildReply, hroute]
    split
    · next hreply =>
      cases hstream : form.stream with
      | true =>
        rw [hstream] at hreply
        cases hreply
        exact .stream _
      | false =>
        rw [hstream] at hreply
        cases hreply
        exact .outcome _ outcome requestId hfirst hanswered
    · exact tells_errorReply _

end Tells

/-! ## A call, from its request to its reply -/

/-- Where a call of the client is with its request. -/
inductive Tracks (C : MessageCodec) (object : CallName)
    (given full : InternalGenerationRequest → List Token → Prop) (sys : System) (first : Nat)
    (request : InternalGenerationRequest) : CallState → Prop
  | waiting (form : ReplyForm) (hroute : form.route = .openai) :
      Tracks C object given full sys first request (.waiting object (.generate request form))
  | serving (requestId : Nat) (form : ReplyForm) (hroute : form.route = .openai)
      (hfirst : first ≤ requestId) (hserved : Served C given full sys requestId request) :
      Tracks C object given full sys first request (.serving object requestId form)
  | answered (r : Reply) (h : Tells C given full sys first request r) :
      Tracks C object given full sys first request (.answered r)

/-- A session that took a step, or none. -/
def Moved (C : MessageCodec) (sys sys' : System) : Prop :=
  sys' = sys ∨ ∃ b, sys.step C b = some sys'

theorem Moved.later {C : MessageCodec} {sys' : System} (hco : Coherent C sys)
    (h : Moved C sys sys') : Later sys sys' := by
  rcases h with rfl | ⟨b, hb⟩
  · exact .refl _
  · exact session.later_effect (session.step_effect hco hb)

theorem Tracks.moved {C : MessageCodec} {sys' : System} {call : CallState} (hco : Coherent C sys)
    (h : Tracks C object given full sys first request call) (hmoved : Moved C sys sys') :
    Tracks C object given full sys' first request call := by
  cases h with
  | waiting form hroute => exact .waiting form hroute
  | serving requestId form hroute hfirst hserved =>
    refine .serving requestId form hroute hfirst ?_
    rcases hmoved with rfl | ⟨b, hb⟩
    · exact hserved
    · exact hserved.step hco hb
  | answered r h => exact .answered r (h.later (hmoved.later hco))

/-- A request of the client stays one of its session, and is answered there. -/
theorem Tracks.step {sys' : System} {call : CallState}
    (hlaw : Contract cfg.codec R O I given full) (h : Alone cfg object base R I m sys)
    (ht : Alone cfg object base R I t sys') (hmoved : Moved cfg.codec sys sys') (hR : R request)
    (hstep : GatewayActor.step cfg m a = some t) (hcall : m.calls name = some call)
    (htracks : Tracks cfg.codec object given full sys first request call)
    (hfirst : first ≤ sys.nextRequestId) :
    ∃ call', t.calls name = some call' ∧
      Tracks cfg.codec object given full sys' first request call' := by
  have hkept := htracks.moved h.coherent hmoved
  have hbegins : ∀ next : GatewayActor, m.begin name next ≠ some t := by
    intro next hbegin
    obtain ⟨hfree, _⟩ := GatewayActor.begin_eq_some.mp hbegin
    cases hfree.symm.trans hcall
  by_cases hother : a.name? = some name
  · cases a with
    | start | shutdown => cases hother
    | createSession | post | callMethod =>
      cases hother
      exact absurd hstep (hbegins _)
    | enter =>
      cases hother
      simp only [GatewayActor.step, hcall] at hstep
      cases htracks with
      | waiting form hroute =>
        simp only [GatewayActor.enter, GatewayActor.stepObject, h.holds, Option.bind_eq_bind,
          Option.bind_some, Option.bind_eq_some_iff, Option.map_eq_some_iff, Option.pure_def,
          Option.some.injEq] at hstep
        obtain ⟨_, ⟨system, hsystem, rfl⟩, rfl⟩ := hstep
        have hsame : system = sys' := by
          have := ht.holds
          simpa [GatewayActor.afterSection, GatewayActor.setObject_objects] using this
        subst hsame
        refine ⟨_, by rw [GatewayActor.afterSection, GatewayActor.setCall_calls,
          Function.update_self], .serving _ form hroute hfirst ?_⟩
        exact session.served_request h.coherent h.dated
          (fun encoded hprep hroom => hlaw.given h.law hR hprep hroom)
          (fun encoded hprep hexhausted => hlaw.full h.law hR hprep hexhausted) hsystem
      | serving | answered => cases hstep
    | giveUp =>
      cases hother
      simp only [GatewayActor.step, hcall] at hstep
      cases htracks with
      | waiting form hroute =>
        simp only [GatewayActor.giveUp, GatewayActor.stepObject, h.holds, Option.bind_eq_bind,
          Option.bind_some, Option.bind_eq_some_iff, Option.map_eq_some_iff, Option.pure_def,
          Option.some.injEq] at hstep
        obtain ⟨_, ⟨system, _, rfl⟩, rfl⟩ := hstep
        exact ⟨_, by rw [GatewayActor.reply_calls, Function.update_self], .answered _ (.raised _)⟩
      | serving | answered => cases hstep
    | proceed =>
      cases hother
      simp only [GatewayActor.step, hcall] at hstep
      cases htracks with
      | serving requestId form hroute hid hserved =>
        simp only [GatewayActor.proceed, GatewayActor.stepObject, h.holds, Option.bind_eq_bind,
          Option.bind_some, Option.map_eq_some_iff] at hstep
        obtain ⟨system, _, rfl⟩ := hstep
        exact ⟨_, hcall, hkept⟩
      | waiting | answered => cases hstep
    | respond _ id created =>
      cases hother
      simp only [GatewayActor.step, hcall] at hstep
      cases htracks with
      | serving requestId form hroute hid hserved =>
        simp only [GatewayActor.respond, h.holds, Option.bind_eq_bind, Option.bind_some,
          Option.bind_eq_some_iff, Option.pure_def, Option.some.injEq] at hstep
        obtain ⟨result, hlookup, rfl⟩ := hstep
        refine ⟨_, by rw [GatewayActor.reply_calls, Function.update_self], .answered _ ?_⟩
        refine (tells_generationReply hroute id created ?_).later (hmoved.later h.coherent)
        rintro outcome rfl
        obtain ⟨before, after, hsplit, _⟩ := List.lookup_eq_some_iff.mp hlookup
        exact ⟨requestId, hid, hserved.answered outcome (by simp [hsplit])⟩
      | waiting | answered => cases hstep
  · exact ⟨call, (calls_of_other hother hstep).trans hcall, hkept⟩

/-! ## Attempts and calls -/

theorem answered_stays {r : Reply} (hcall : m.calls name = some (.answered r))
    (hstep : GatewayActor.step cfg m a = some t) : t.calls name = some (.answered r) := by
  by_cases hother : a.name? = some name
  · cases a with
    | start | shutdown => cases hother
    | createSession | post | callMethod =>
      cases hother
      obtain ⟨hfree, _⟩ := GatewayActor.begin_eq_some.mp hstep
      cases hfree.symm.trans hcall
    | enter | giveUp | proceed | respond =>
      cases hother
      simp [GatewayActor.step, hcall] at hstep
  · exact (calls_of_other hother hstep).trans hcall

theorem free_stays (hfree : m.calls name = none) (hleaves : leavesAlone name.sessionId a = true)
    (hstep : GatewayActor.step cfg m a = some t) : t.calls name = none := by
  by_cases hother : a.name? = some name
  · cases a with
    | start | shutdown => cases hother
    | createSession | post | callMethod =>
      cases hother
      simp [leavesAlone] at hleaves
    | enter | giveUp | proceed | respond =>
      cases hother
      simp [GatewayActor.step, hfree] at hstep
  · exact (calls_of_other hother hstep).trans hfree

/-- What happens beside the client: its session stays its own, its calls are served, and none is
made for it. -/
theorem Alone.beside (hlaw : Contract cfg.codec R O I given full) {events : List ActorAction}
    (hevents : ∀ a ∈ events, leavesAlone object.sessionId a = true ∧
      ∀ name output, a = .proceed name (.backendReturns output) →
        name.sessionId = object.sessionId → O output)
    (h : Alone cfg object base R I m sys) :
    ∃ sys', Alone cfg object base R I (takeEnabled cfg m events) sys' ∧ Later sys sys' ∧
      (∀ name, name.sessionId = object.sessionId → m.calls name = none →
        (takeEnabled cfg m events).calls name = none) ∧
      (∀ name r, m.calls name = some (.answered r) →
        (takeEnabled cfg m events).calls name = some (.answered r)) ∧
      ∀ name first request call, R request → first ≤ sys.nextRequestId →
        m.calls name = some call →
        Tracks cfg.codec object given full sys first request call →
        ∃ call', (takeEnabled cfg m events).calls name = some call' ∧
          Tracks cfg.codec object given full sys' first request call' := by
  induction events generalizing m sys with
  | nil => exact ⟨sys, h, .refl sys, fun _ _ hfree => hfree, fun _ _ hcall => hcall,
      fun _ _ _ call _ _ hcall htracks => ⟨call, hcall, htracks⟩⟩
  | cons a rest ih =>
    obtain ⟨hleaves, hreturns⟩ := hevents a (by simp)
    have hrest := fun b hb => hevents b (List.mem_cons_of_mem a hb)
    unfold takeEnabled
    rw [List.foldl_cons]
    cases hstep : m.step cfg a with
    | none => exact ih hrest h
    | some t =>
      obtain ⟨u, hu, hsteps⟩ := h.step hlaw ⟨Or.inl hleaves, hreturns⟩ hstep
      have hmoved : Moved cfg.codec sys u := hsteps.imp_right (fun ⟨b, _, hb⟩ => ⟨b, hb⟩)
      have hlater := hmoved.later h.coherent
      obtain ⟨sys', halone, hlater', hfree, hanswered, htracked⟩ := ih hrest hu
      refine ⟨sys', halone, hlater.trans hlater', ?_, ?_, ?_⟩
      · intro name hid hname
        exact hfree name hid (free_stays hname (hid ▸ hleaves) hstep)
      · intro name r hname
        exact hanswered name r (answered_stays hname hstep)
      · intro name first request call hR hfirst hname htracks
        obtain ⟨call', hcall', htracks'⟩ :=
          htracks.step hlaw h hu hmoved hR hstep hname hfirst
        exact htracked name first request call' hR (hfirst.trans hlater.next) hcall' htracks'

/-- A client that is about to make its next attempt. -/
structure Ready (cfg : ActorSettings) (object : CallName) (base : Dict)
    (R : InternalGenerationRequest → Prop) (I : System → Prop) (w : ClientWorld) (sys : System) :
    Prop where
  alone : Alone cfg object base R I w.actor sys
  free : ∀ k, w.next ≤ k → w.actor.calls ⟨object.sessionId, k⟩ = none

/-- All that the occasions of a client let its session be told by the backend meets `O`. -/
def OutputsMeet (sessionId : String) (O : TokenOutput → Prop) (occasions : Nat → Occasion) : Prop :=
  ∀ k, ∀ a ∈ (occasions k).events, ∀ name output, a = .proceed name (.backendReturns output) →
    name.sessionId = sessionId → O output

/-- What a body is answered with: an error, or an outcome of the request that it is lowered to. -/
inductive Read (cfg : ActorSettings) (base : Dict)
    (given full : InternalGenerationRequest → List Token → Prop) (sys sys' : System) (body : Json) :
    Json → Prop
  | refused (status : Nat) (message : String) :
      Read cfg base given full sys sys' body (Route.openai.errorBody status message)
  | outcome (request : InternalGenerationRequest) (envelope : openai.Envelope)
      (outcome : GenerationOutcome) (requestId : Nat)
      (hlower : lowerPayload cfg.py .openai base cfg.allowedRequestSamplingParamKeys body =
        .ok request)
      (hid : sys.nextRequestId ≤ requestId)
      (hanswered : Answered cfg.codec given full sys' requestId request outcome) :
      Read cfg base given full sys sys' body (.obj (openai.openaiBuildResponse envelope outcome))

theorem errorBody_of_errorReply {e : PyError} {status : Nat} {data : Json}
    (h : errorReply .openai e = .answer ⟨status, data⟩) :
    ∃ message, data = Route.openai.errorBody status message := by
  unfold errorReply at h
  split at h
  · cases h
    exact ⟨_, rfl⟩
  · cases h
  · split at h <;> cases h <;> exact ⟨_, rfl⟩

/-- A request that is sent waits for its session, or is answered with an error at once. -/
theorem post_tracks (name : CallName) (h : Alone cfg object base R I m sys) {body : Json}
    (hid : name.sessionId = object.sessionId) :
    (∃ r, (m.post cfg name .openai (some body)).calls name = some (.answered r) ∧
      ∀ status data, r = .answer ⟨status, data⟩ →
        ∃ message, data = Route.openai.errorBody status message) ∨
    ∃ request call,
      lowerPayload cfg.py .openai base cfg.allowedRequestSamplingParamKeys body = .ok request ∧
      (m.post cfg name .openai (some body)).calls name = some call ∧
      Tracks cfg.codec object given full sys sys.nextRequestId request call := by
  unfold GatewayActor.post
  dsimp only
  cases hget : m.get name.sessionId with
  | none =>
    refine Or.inl ⟨_, by rw [GatewayActor.reply_calls, Function.update_self], ?_⟩
    rintro status data ⟨⟩
    exact ⟨_, rfl⟩
  | some found =>
    obtain ⟨other, o⟩ := found
    obtain ⟨htable, ho⟩ := (GatewayActor.get_eq_some _ _).mp hget
    obtain rfl := h.table other (hid ▸ htable)
    cases h.holds.symm.trans ho
    dsimp only
    cases hlower : lowerPayload cfg.py .openai base cfg.allowedRequestSamplingParamKeys body with
    | error e =>
      refine Or.inl ⟨_, by rw [GatewayActor.reply_calls, Function.update_self], ?_⟩
      exact fun status data heq => errorBody_of_errorReply heq
    | ok request =>
      exact Or.inr ⟨request, _, rfl, by rw [GatewayActor.setCall_calls, Function.update_self],
        .waiting _ rfl⟩

theorem heard_eq_final {broken : Option PyError} {call : Option CallState} {data : Json}
    (h : (heard cfg broken call).verdict = .final (.ok data)) :
    ∃ status, call = some (.answered (.answer ⟨status, data⟩)) := by
  unfold heard at h
  split at h
  · next answer =>
    cases broken with
    | some e => cases h
    | none =>
      simp only [Attempt.verdict] at h
      split at h
      · cases h
      · split at h
        · cases h
        · cases h
          exact ⟨answer.statusCode, rfl⟩
  · cases h

theorem Tells.read {sys' : System} {body data : Json} {status : Nat}
    (hlower : lowerPayload cfg.py .openai base cfg.allowedRequestSamplingParamKeys body =
      .ok request)
    (h : Tells cfg.codec given full sys' sys.nextRequestId request
      (.answer ⟨status, data⟩)) : Read cfg base given full sys sys' body data := by
  cases h with
  | refused _ message => exact .refused status message
  | outcome envelope outcome requestId hfirst hanswered =>
    exact .outcome request envelope outcome requestId hlower hfirst hanswered

/-- One attempt: whatever else happens, a response that is accepted tells the outcome of the very
request that was sent. -/
theorem attempt_spec (hlaw : Contract cfg.codec R O I given full) {occasions : Nat → Occasion}
    (houtputs : OutputsMeet object.sessionId O occasions) {w w' : ClientWorld} {body : Json}
    {tried : Attempt} (hready : Ready cfg object base R I w sys)
    (hbody : ∀ request, lowerPayload cfg.py .openai base cfg.allowedRequestSamplingParamKeys body =
      .ok request → R request)
    (h : attempt cfg object.sessionId occasions body w = (tried, w')) :
    ∃ sys', Ready cfg object base R I w' sys' ∧ Later sys sys' ∧
      ∀ data, tried.verdict = .final (.ok data) → Read cfg base given full sys sys' body data := by
  have hevents : ∀ a ∈ ((occasions w.next).events.filter (leavesAlone object.sessionId)),
      leavesAlone object.sessionId a = true ∧
        ∀ name output, a = .proceed name (.backendReturns output) →
          name.sessionId = object.sessionId → O output := by
    intro a ha
    obtain ⟨ha, hleaves⟩ := List.mem_filter.mp ha
    exact ⟨hleaves, houtputs w.next a ha⟩
  have hfree := hready.free w.next (Nat.le_refl _)
  let name : CallName := ⟨object.sessionId, w.next⟩
  unfold attempt at h
  dsimp only at h
  cases harrives : (occasions w.next).arrives with
  | false =>
    simp only [harrives, Bool.false_eq_true, if_false, Prod.mk.injEq] at h
    obtain ⟨rfl, rfl⟩ := h
    obtain ⟨sys', halone, hlater, hstays, _⟩ := hready.alone.beside hlaw hevents
    refine ⟨sys', ⟨halone, ?_⟩, hlater, ?_⟩
    · intro k hk
      exact hstays _ rfl (hready.free k (Nat.le_of_succ_le hk))
    · intro data hdata
      obtain ⟨status, hcall⟩ := heard_eq_final hdata
      rw [hstays name rfl hfree] at hcall
      cases hcall
  | true =>
    have hposted : takeEnabled cfg w.actor
        [.post ⟨object.sessionId, w.next⟩ .openai (some body)] =
        w.actor.post cfg ⟨object.sessionId, w.next⟩ .openai (some body) := by
      simp [takeEnabled, GatewayActor.step, GatewayActor.begin, hfree]
    have hstep : w.actor.step cfg (.post ⟨object.sessionId, w.next⟩ .openai (some body)) =
        some (w.actor.post cfg ⟨object.sessionId, w.next⟩ .openai (some body)) :=
      GatewayActor.begin_eq_some.mpr ⟨hfree, rfl⟩
    simp only [harrives, if_true, hposted, Prod.mk.injEq] at h
    obtain ⟨rfl, rfl⟩ := h
    have hbeside : Beside cfg object base R O
        (.post ⟨object.sessionId, w.next⟩ .openai (some body)) :=
      ⟨Or.inr ⟨_, body, rfl, hbody⟩, fun _ _ heq => by cases heq⟩
    obtain ⟨u, hu, rfl | ⟨b, hb, _⟩⟩ := hready.alone.step hlaw hbeside hstep
    · obtain ⟨sys', halone, hlater, hstays, hanswered, htracked⟩ := hu.beside hlaw hevents
      refine ⟨sys', ⟨halone, ?_⟩, hlater, ?_⟩
      · intro k hk
        refine hstays _ rfl ?_
        have hk' : w.next < k := hk
        rw [calls_of_other (by simp [ActorAction.name?]; omega) hstep]
        exact hready.free k hk'.le
      · intro data hdata
        obtain ⟨status, hcall⟩ := heard_eq_final hdata
        rcases post_tracks name hready.alone rfl with ⟨r, hr, hrefused⟩ |
          ⟨request, call, hlower, hwaits, htracks⟩
        · rw [hanswered name r hr] at hcall
          cases hcall
          obtain ⟨message, rfl⟩ := hrefused status data rfl
          exact .refused status message
        · obtain ⟨call', hcall', htracks'⟩ := htracked name _ request call (hbody request hlower)
            (Nat.le_refl _) hwaits htracks
          rw [hcall'] at hcall
          cases hcall
          cases htracks' with
          | answered _ htells => exact htells.read hlower
    · cases hb

theorem Read.later {sys₁ sys' : System} {body data : Json} (hlater : Later sys sys₁)
    (h : Read cfg base given full sys₁ sys' body data) :
    Read cfg base given full sys sys' body data := by
  cases h with
  | refused status message => exact .refused status message
  | outcome request envelope outcome requestId hlower hid hanswered =>
    exact .outcome request envelope outcome requestId hlower (hlater.next.trans hid) hanswered

/-- A call, with all its attempts: the response that it returns tells the outcome of one of its own
requests. -/
theorem postRetrying_spec (hlaw : Contract cfg.codec R O I given full) {occasions : Nat → Occasion}
    (houtputs : OutputsMeet object.sessionId O occasions) {w w' : ClientWorld} {body : Json}
    {result : Except PyError Json} {left : Nat} (hready : Ready cfg object base R I w sys)
    (hbody : ∀ request, lowerPayload cfg.py .openai base cfg.allowedRequestSamplingParamKeys body =
      .ok request → R request)
    (h : postRetrying cfg object.sessionId occasions body left w = (result, w')) :
    ∃ sys', Ready cfg object base R I w' sys' ∧ Later sys sys' ∧
      ∀ data, result = .ok data → Read cfg base given full sys sys' body data := by
  induction left generalizing w sys with
  | zero =>
    unfold postRetrying at h
    rcases htried : attempt cfg object.sessionId occasions body w with ⟨tried, u⟩
    obtain ⟨sys', hready', hlater, hread⟩ := attempt_spec hlaw houtputs hready hbody htried
    simp only [htried] at h
    split at h
    · next hverdict =>
      cases h
      exact ⟨sys', hready', hlater, fun data hdata => hread data (hdata ▸ hverdict)⟩
    · cases h
      exact ⟨sys', hready', hlater, fun data hdata => by cases hdata⟩
  | succ left ih =>
    unfold postRetrying at h
    rcases htried : attempt cfg object.sessionId occasions body w with ⟨tried, u⟩
    obtain ⟨sys₁, hready₁, hlater₁, hread⟩ := attempt_spec hlaw houtputs hready hbody htried
    simp only [htried] at h
    split at h
    · next hverdict =>
      cases h
      exact ⟨sys₁, hready₁, hlater₁, fun data hdata => hread data (hdata ▸ hverdict)⟩
    · obtain ⟨sys', hready', hlater, hread'⟩ := ih hready₁ h
      exact ⟨sys', hready', hlater₁.trans hlater, fun data hdata =>
        (hread' data hdata).later hlater₁⟩

theorem queryResponse_spec (hlaw : Contract cfg.codec R O I given full)
    {occasions : Nat → Occasion} (houtputs : OutputsMeet object.sessionId O occasions)
    {model : ChatModel} {w w' : ClientWorld} {messages : List Dict} {samplingParams : Option Dict}
    {result : Except PyError Json} (hready : Ready cfg object base R I w sys)
    (hbody : ∀ body request, model.requestBody messages samplingParams = .ok body →
      lowerPayload cfg.py .openai base cfg.allowedRequestSamplingParamKeys (.obj body) =
        .ok request → R request)
    (h : queryResponse cfg object.sessionId occasions model w messages samplingParams =
      (result, w')) :
    ∃ sys', Ready cfg object base R I w' sys' ∧ Later sys sys' ∧
      ∀ data, result = .ok data → ∃ body, model.requestBody messages samplingParams = .ok body ∧
        Read cfg base given full sys sys' (.obj body) data := by
  unfold queryResponse at h
  cases hrequest : model.requestBody messages samplingParams with
  | error e =>
    rw [hrequest] at h
    cases h
    exact ⟨sys, hready, .refl sys, fun data hdata => by cases hdata⟩
  | ok body =>
    rw [hrequest] at h
    obtain ⟨sys', hready', hlater, hread⟩ :=
      postRetrying_spec hlaw houtputs hready (fun request => hbody body request hrequest) h
    exact ⟨sys', hready', hlater, fun data hdata => ⟨body, rfl, hread data hdata⟩⟩

/-- The attempts of a call are a tape on which `_post_chat_completion` comes to its end. -/
theorem postRetrying_attempts {sessionId : String} {occasions : Nat → Occasion} {body : Json}
    {left : Nat} {w w' : ClientWorld} {result : Except PyError Json}
    (h : postRetrying cfg sessionId occasions body left w = (result, w')) :
    ∃ attempts, postChatCompletion left attempts = some result := by
  induction left generalizing w with
  | zero =>
    unfold postRetrying at h
    rcases htried : attempt cfg sessionId occasions body w with ⟨tried, u⟩
    simp only [htried] at h
    refine ⟨[tried], ?_⟩
    split at h
    · next hverdict =>
      cases h
      simp [postChatCompletion, hverdict]
    · next hverdict =>
      cases h
      simp [postChatCompletion, hverdict]
  | succ left ih =>
    unfold postRetrying at h
    rcases htried : attempt cfg sessionId occasions body w with ⟨tried, u⟩
    simp only [htried] at h
    split at h
    · next hverdict =>
      cases h
      exact ⟨[tried], by simp [postChatCompletion, hverdict]⟩
    · next hverdict =>
      obtain ⟨attempts, hattempts⟩ := ih h
      exact ⟨tried :: attempts, by simp [postChatCompletion, hverdict, hattempts]⟩

end Alone

end uni_agent.gateway
