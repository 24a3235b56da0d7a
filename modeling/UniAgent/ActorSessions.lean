-- What the actor does to its sessions: every session object runs as a session of its own, through
-- exactly the steps of the calls that looked it up, on requests that were lowered from bodies that
-- its id was sent.
import UniAgent.CharacterCodec
import UniAgent.GatewayActor

namespace uni_agent.gateway

open session (GatewaySession InternalGenerationRequest System runFrom)

variable {cfg : ActorSettings} {m t : GatewayActor}

namespace GatewayActor

/-! ## The parts of a state -/

section

variable (m : GatewayActor) (name object : CallName)

@[simp] theorem setCall_objects (call : CallState) :
    (m.setCall name call).objects = m.objects := rfl

@[simp] theorem setCall_sessions (call : CallState) :
    (m.setCall name call).sessions = m.sessions := rfl

theorem setCall_calls (call : CallState) :
    (m.setCall name call).calls = Function.update m.calls name (some call) := rfl

@[simp] theorem reply_objects (r : Reply) : (m.reply name r).objects = m.objects := rfl

@[simp] theorem reply_sessions (r : Reply) : (m.reply name r).sessions = m.sessions := rfl

theorem reply_calls (r : Reply) :
    (m.reply name r).calls = Function.update m.calls name (some (.answered r)) := rfl

theorem setObject_objects (o : SessionObject) :
    (m.setObject object o).objects = Function.update m.objects object (some o) := rfl

@[simp] theorem setObject_sessions (o : SessionObject) :
    (m.setObject object o).sessions = m.sessions := rfl

@[simp] theorem setObject_calls (o : SessionObject) : (m.setObject object o).calls = m.calls := rfl

theorem register_objects (o : SessionObject) :
    (m.register name o).objects = Function.update m.objects name (some o) := rfl

theorem register_sessions (o : SessionObject) : (m.register name o).sessions =
    Function.update m.sessions name.sessionId (some name) := rfl

@[simp] theorem register_calls (o : SessionObject) : (m.register name o).calls = m.calls := rfl

theorem pop_sessions (sessionId : String) :
    (m.pop sessionId).sessions = Function.update m.sessions sessionId none := rfl

@[simp] theorem pop_objects (sessionId : String) : (m.pop sessionId).objects = m.objects := rfl

@[simp] theorem pop_calls (sessionId : String) : (m.pop sessionId).calls = m.calls := rfl

theorem get_eq_some {sessionId : String} {o : SessionObject} :
    m.get sessionId = some (object, o) ↔
      m.sessions sessionId = some object ∧ m.objects object = some o := by
  simp [get, Option.bind_eq_some_iff]

end

/-- What a call becomes after its section, and whether its session id leaves the table. -/
inductive Section (m : GatewayActor) (name object : CallName) (before : System) :
    Work → GatewayActor → Prop
  | serving (request : InternalGenerationRequest) (form : ReplyForm) :
    Section m name object before (.generate request form)
      (m.setCall name (.serving object before.nextRequestId form))
  | answered (work : Work) (r : Reply) (hr : ∀ trajectories, r ≠ .trajectories trajectories)
    (hkept : ∀ request form, work ≠ .generate request form)
    (hfinalize : work = .finalize → ∃ e s, before.session.finalize = (.error e, s))
    (habort : work = .abort → ∃ e s, before.session.abort = (.error e, s)) :
    Section m name object before work (m.reply name r)
  | finalized (trajectories : List session.Trajectory) (s : GatewaySession)
    (hfinalize : before.session.finalize = (.ok trajectories, s)) :
    Section m name object before .finalize
      ((m.pop name.sessionId).reply name (.trajectories trajectories))
  | aborted (s : GatewaySession) (habort : before.session.abort = (.ok (), s)) :
    Section m name object before .abort ((m.pop name.sessionId).reply name .done)

theorem afterSection_spec (m : GatewayActor) (name object : CallName) (before : System)
    (work : Work) : Section m name object before work (m.afterSection name object before work) := by
  cases work with
  | generate request form => exact .serving request form
  | setRewardInfo rewardInfo =>
    unfold afterSection
    dsimp only
    split
    · exact .answered _ _ (by simp) (by simp) (by simp) (by simp)
    · exact .answered _ _ (by simp) (by simp) (by simp) (by simp)
  | finalize =>
    unfold afterSection
    rcases hfinalize : before.session.finalize with ⟨result, s⟩
    cases result with
    | ok trajectories => exact .finalized trajectories s hfinalize
    | error e => exact .answered _ _ (by simp) (by simp) (fun _ => ⟨e, s, hfinalize⟩) (by simp)
  | abort =>
    unfold afterSection
    rcases habort : before.session.abort with ⟨result, s⟩
    cases result with
    | ok u => exact .aborted s habort
    | error e => exact .answered _ _ (by simp) (by simp) (by simp) (fun _ => ⟨e, s, habort⟩)

theorem Section.objects {before : System} {name object : CallName} {work : Work}
    (h : Section m name object before work t) : t.objects = m.objects := by
  cases h <;> rfl

/-! ## What a step does -/

/-- The steps that an action takes in the session of an object. -/
def actionsOn (object : CallName) (m : GatewayActor) : ActorAction → List session.Action
  | .enter name =>
    match m.calls name with
    | some (.waiting other work) => if other = object then [work.action] else []
    | _ => []
  | .giveUp name =>
    match m.calls name with
    | some (.waiting other work) => if other = object then work.cancelled else []
    | _ => []
  | .proceed name progress =>
    match m.calls name with
    | some (.serving other requestId _) =>
      if other = object then [progress.action requestId] else []
    | _ => []
  | _ => []

/-- The steps in a session come from the calls that have its object. -/
theorem mem_actionsOn {object : CallName} {a : ActorAction} {b : session.Action}
    (h : b ∈ m.actionsOn object a) :
    (∃ name work, m.calls name = some (.waiting object work) ∧
      (b = work.action ∨ b = .cancelEarly)) ∨
    ∃ name progress requestId form, a = .proceed name progress ∧
      m.calls name = some (.serving object requestId form) ∧ b = progress.action requestId := by
  cases a with
  | enter name =>
    unfold actionsOn at h
    dsimp only at h
    split at h
    · rename_i other work hcall
      split at h
      · rename_i hsame
        subst hsame
        exact Or.inl ⟨name, work, hcall, Or.inl (by simpa using h)⟩
      · cases h
    · cases h
  | giveUp name =>
    unfold actionsOn at h
    dsimp only at h
    split at h
    · rename_i other work hcall
      split at h
      · rename_i hsame
        subst hsame
        refine Or.inl ⟨name, work, hcall, Or.inr ?_⟩
        cases work <;> simp [Work.cancelled] at h
        exact h
      · cases h
    · cases h
  | proceed name progress =>
    unfold actionsOn at h
    dsimp only at h
    split at h
    · rename_i other requestId form hcall
      split at h
      · rename_i hsame
        subst hsame
        exact Or.inr ⟨name, progress, requestId, form, rfl, hcall, by simpa using h⟩
      · cases h
    · cases h
  | start | shutdown | createSession | post | callMethod | respond => cases h

/-- All that one step can do. -/
inductive ActorEffect (cfg : ActorSettings) (m : GatewayActor) : ActorAction → GatewayActor → Prop
  | server (a : ActorAction) (url : Option String) (hid : a.sessionId? = none)
    (hquiet : ∀ object, m.actionsOn object a = []) :
    ActorEffect cfg m a { m with serverBaseUrl := url }
  | replied (a : ActorAction) (name : CallName) (r : Reply)
    (hid : a.sessionId? = some name.sessionId)
    (hr : ∀ trajectories, r ≠ .trajectories trajectories)
    (hquiet : ∀ object, m.actionsOn object a = []) : ActorEffect cfg m a (m.reply name r)
  | created (name : CallName) (samplingParams : Option Dict) (session : GatewaySession) (r : Reply)
    (hname : m.calls name = none) (hfree : m.sessions name.sessionId = none)
    (hnew : GatewaySession.create name.sessionId cfg.promptLength cfg.responseLength
      cfg.enableLastAssistantRollback = .ok session)
    (hr : ∀ trajectories, r ≠ .trajectories trajectories) :
    ActorEffect cfg m (.createSession name samplingParams)
      ((m.register name ⟨samplingParams.getD [], System.initial session⟩).reply name r)
  | posted (name object : CallName) (o : SessionObject) (route : Route) (payload : Json)
    (request : InternalGenerationRequest) (form : ReplyForm) (hname : m.calls name = none)
    (htable : m.sessions name.sessionId = some object) (ho : m.objects object = some o)
    (hlower : lowerPayload cfg.py route o.samplingParams cfg.allowedRequestSamplingParamKeys
      payload = .ok request) :
    ActorEffect cfg m (.post name route (some payload))
      (m.setCall name (.waiting object (.generate request form)))
  | called (name object : CallName) (method : Method) (hname : m.calls name = none)
    (htable : m.sessions name.sessionId = some object) (ho : (m.objects object).isSome) :
    ActorEffect cfg m (.callMethod name method) (m.setCall name (.waiting object method.work))
  | entered (name object : CallName) (work : Work) (o : SessionObject) (system : System)
    (next : GatewayActor) (hcall : m.calls name = some (.waiting object work))
    (ho : m.objects object = some o)
    (hstep : System.step cfg.codec o.system work.action = some system)
    (hnext : Section (m.setObject object { o with system }) name object o.system work next) :
    ActorEffect cfg m (.enter name) next
  | gaveUp (name object : CallName) (request : InternalGenerationRequest) (form : ReplyForm)
    (o : SessionObject) (system : System)
    (hcall : m.calls name = some (.waiting object (.generate request form)))
    (ho : m.objects object = some o)
    (hstep : System.step cfg.codec o.system .cancelEarly = some system) :
    ActorEffect cfg m (.giveUp name)
      ((m.setObject object { o with system }).reply name (.raised .cancelledError))
  | proceeded (name object : CallName) (requestId : Nat) (form : ReplyForm) (progress : Progress)
    (o : SessionObject) (system : System)
    (hcall : m.calls name = some (.serving object requestId form)) (ho : m.objects object = some o)
    (hstep : System.step cfg.codec o.system (progress.action requestId) = some system) :
    ActorEffect cfg m (.proceed name progress) (m.setObject object { o with system })

theorem begin_eq_some {name : CallName} {next : GatewayActor} :
    m.begin name next = some t ↔ m.calls name = none ∧ next = t := by
  unfold begin
  cases m.calls name <;> simp

theorem createSession_effect {name : CallName} {samplingParams : Option Dict}
    (hname : m.calls name = none) : ActorEffect cfg m (.createSession name samplingParams)
      (m.createSession cfg name samplingParams) := by
  unfold createSession
  split
  · exact .replied _ _ _ rfl (by simp) (fun _ => rfl)
  · split
    · exact .replied _ _ _ rfl (by simp) (fun _ => rfl)
    · rename_i url _ hfree
      split
      · exact .replied _ _ _ rfl (by simp) (fun _ => rfl)
      · rename_i session hnew
        exact .created name samplingParams session _ hname hfree hnew (by simp)

theorem errorReply_ne (route : Route) (e : PyError) (trajectories : List session.Trajectory) :
    errorReply route e ≠ .trajectories trajectories := by
  unfold errorReply
  split
  · simp
  · simp
  · split <;> simp

theorem post_effect {name : CallName} {route : Route} {payload : Option Json}
    (hname : m.calls name = none) :
    ActorEffect cfg m (.post name route payload) (m.post cfg name route payload) := by
  cases payload with
  | none => exact .replied _ _ _ rfl (by simp) (fun _ => rfl)
  | some payload =>
    unfold post
    dsimp only
    split
    · exact .replied _ _ _ rfl (by simp) (fun _ => rfl)
    · rename_i object o hget
      obtain ⟨htable, ho⟩ := (m.get_eq_some object).mp hget
      split
      · exact .replied _ _ _ rfl (errorReply_ne route _) (fun _ => rfl)
      · rename_i request hlower
        exact .posted name object o route payload request _ hname htable ho hlower

theorem callMethod_effect {name : CallName} {method : Method} (hname : m.calls name = none) :
    ActorEffect cfg m (.callMethod name method) (m.callMethod cfg name method) := by
  unfold callMethod
  cases hget : m.get name.sessionId with
  | none => cases method <;> exact .replied _ _ _ rfl (by simp) (fun _ => rfl)
  | some found =>
    obtain ⟨object, o⟩ := found
    obtain ⟨htable, ho⟩ := (m.get_eq_some object).mp hget
    exact .called name object method hname htable (by simp [ho])

theorem giveUp_effect {name object : CallName} {work : Work}
    (hcall : m.calls name = some (.waiting object work))
    (h : m.giveUp cfg name object work = some t) : ActorEffect cfg m (.giveUp name) t := by
  have hquiet (hkept : ∀ request form, work ≠ .generate request form) (other : CallName) :
      m.actionsOn other (.giveUp name) = [] := by
    simp only [actionsOn, hcall]
    cases work with
    | generate request form => exact absurd rfl (hkept request form)
    | setRewardInfo | finalize | abort => simp [Work.cancelled]
  unfold giveUp at h
  obtain ⟨o, ho, h⟩ := Option.bind_eq_some_iff.mp h
  cases work with
  | generate request form =>
    obtain ⟨next, hnext, h⟩ := Option.bind_eq_some_iff.mp h
    obtain ⟨system, hstep, rfl⟩ := Option.map_eq_some_iff.mp hnext
    cases h
    exact .gaveUp name object request form o system hcall ho hstep
  | setRewardInfo | finalize | abort =>
    cases h
    exact .replied _ _ _ rfl (by simp) (hquiet (by simp))

theorem generationReply_ne (id : String) (created : Int) (form : ReplyForm)
    (result : Except PyError session.GenerationOutcome) (trajectories : List session.Trajectory) :
    generationReply cfg id created form result ≠ .trajectories trajectories := by
  unfold generationReply
  split
  · rename_i reply hreply
    cases result with
    | error e => cases hreply
    | ok outcome =>
      simp only [Except.bind] at hreply
      unfold buildReply at hreply
      cases hroute : form.route with
      | openai =>
        simp only [hroute] at hreply
        split at hreply <;> cases hreply <;> simp
      | anthropic =>
        simp only [hroute] at hreply
        split at hreply
        · obtain ⟨events, _, hreply⟩ := bind_eq_ok.mp hreply
          cases hreply
          simp
        · obtain ⟨body, _, hreply⟩ := bind_eq_ok.mp hreply
          cases hreply
          simp
  · exact errorReply_ne _ _ _

theorem step_effect {a : ActorAction} (h : step cfg m a = some t) : ActorEffect cfg m a t := by
  cases a with
  | start url =>
    cases h
    exact .server _ _ rfl (fun _ => rfl)
  | shutdown =>
    cases h
    exact .server _ _ rfl (fun _ => rfl)
  | createSession name samplingParams =>
    obtain ⟨hname, rfl⟩ := begin_eq_some.mp h
    exact createSession_effect hname
  | post name route payload =>
    obtain ⟨hname, rfl⟩ := begin_eq_some.mp h
    exact post_effect hname
  | callMethod name method =>
    obtain ⟨hname, rfl⟩ := begin_eq_some.mp h
    exact callMethod_effect hname
  | enter name =>
    unfold step at h
    dsimp only at h
    split at h
    · rename_i object work hcall
      obtain ⟨o, ho, h⟩ := Option.bind_eq_some_iff.mp h
      obtain ⟨next, hnext, h⟩ := Option.bind_eq_some_iff.mp h
      obtain ⟨system, hstep, rfl⟩ := Option.map_eq_some_iff.mp hnext
      cases h
      exact .entered name object work o system _ hcall ho hstep (afterSection_spec _ _ _ _ _)
    · cases h
  | giveUp name =>
    unfold step at h
    dsimp only at h
    split at h
    · rename_i object work hcall
      exact giveUp_effect hcall h
    · cases h
  | proceed name progress =>
    unfold step at h
    dsimp only at h
    split at h
    · rename_i object requestId form hcall
      obtain ⟨o, ho, h⟩ := Option.bind_eq_some_iff.mp h
      obtain ⟨system, hstep, rfl⟩ := Option.map_eq_some_iff.mp h
      exact .proceeded name object requestId form progress o system hcall ho hstep
    · cases h
  | respond name id created =>
    unfold step at h
    dsimp only at h
    split at h
    · obtain ⟨o, ho, h⟩ := Option.bind_eq_some_iff.mp h
      obtain ⟨result, _, h⟩ := Option.bind_eq_some_iff.mp h
      cases h
      exact .replied _ _ _ rfl (generationReply_ne _ _ _ _) (fun _ => rfl)
    · cases h

/-! ## What holds of every state -/

/-- The defaults that an object was built with. -/
def params (m : GatewayActor) (object : CallName) : Option Dict :=
  (m.objects object).map SessionObject.samplingParams

theorem params_eq_some {object : CallName} {base : Dict} :
    m.params object = some base ↔ ∃ system, m.objects object = some ⟨base, system⟩ := by
  unfold params
  rw [Option.map_eq_some_iff]
  constructor
  · rintro ⟨o, ho, rfl⟩
    exact ⟨o.system, ho⟩
  · rintro ⟨system, ho⟩
    exact ⟨_, ho, rfl⟩

theorem params_step {object : CallName} {o : SessionObject} (ho : m.objects object = some o)
    (system : System) : (m.setObject object { o with system }).params = m.params := by
  funext other
  unfold params
  rw [setObject_objects]
  by_cases h : other = object
  · subst h
    simp [ho]
  · rw [Function.update_of_ne h]

theorem params_congr (h : t.objects = m.objects) : t.params = m.params := by
  unfold params
  rw [h]

end GatewayActor

/-- The object that a call has in its hands. -/
def CallState.object? : CallState → Option CallName
  | .waiting object _ => some object
  | .serving object _ _ => some object
  | .answered _ => none

/-- The table and the calls know objects of their own id only, and a request that waits was lowered
from a body that its id was sent, which `P` tells. -/
structure Wired (cfg : ActorSettings) (P : String → Route → Json → Prop) (m : GatewayActor) :
    Prop where
  table : ∀ sessionId object, m.sessions sessionId = some object →
    object.sessionId = sessionId ∧ (m.params object).isSome
  named : ∀ object, (m.params object).isSome → (m.calls object).isSome
  held : ∀ name call object, m.calls name = some call → call.object? = some object →
    object.sessionId = name.sessionId ∧ (m.params object).isSome
  lowered : ∀ name object request form base,
    m.calls name = some (.waiting object (.generate request form)) → m.params object = some base →
      ∃ route payload, P name.sessionId route payload ∧
        lowerPayload cfg.py route base cfg.allowedRequestSamplingParamKeys payload = .ok request

/-- The bodies that the actions of a run send are those that `P` tells. -/
def PostsWithin (P : String → Route → Json → Prop) (a : ActorAction) : Prop :=
  ∀ name route payload, a = .post name route (some payload) → P name.sessionId route payload

section

variable {P : String → Route → Json → Prop}

theorem wired_start : Wired cfg P {} where
  table := by simp
  named := by simp [GatewayActor.params]
  held := by simp
  lowered := by simp

/-- A call moves on, and the table loses at most an entry. -/
theorem Wired.setCall (h : Wired cfg P m) {name : CallName} {call : CallState}
    (hparams : t.params = m.params)
    (htable : ∀ sessionId object, t.sessions sessionId = some object →
      m.sessions sessionId = some object)
    (hcalls : t.calls = Function.update m.calls name (some call))
    (hheld : ∀ object, call.object? = some object →
      object.sessionId = name.sessionId ∧ (m.params object).isSome)
    (hlowered : ∀ object request form base, call = .waiting object (.generate request form) →
      m.params object = some base → ∃ route payload, P name.sessionId route payload ∧
        lowerPayload cfg.py route base cfg.allowedRequestSamplingParamKeys payload = .ok request) :
    Wired cfg P t where
  table := by
    intro sessionId object hentry
    rw [hparams]
    exact h.table sessionId object (htable sessionId object hentry)
  named := by
    intro object hobject
    rw [hparams] at hobject
    rw [hcalls]
    by_cases hname : object = name
    · simp [hname]
    · rw [Function.update_of_ne hname]
      exact h.named object hobject
  held := by
    intro other state object hother hobject
    rw [hcalls] at hother
    rw [hparams]
    by_cases hname : other = name
    · subst hname
      simp only [Function.update_self, Option.some.injEq] at hother
      subst hother
      exact hheld object hobject
    · rw [Function.update_of_ne hname] at hother
      exact h.held other state object hother hobject
  lowered := by
    intro other object request form base hother hbase
    rw [hcalls] at hother
    rw [hparams] at hbase
    by_cases hname : other = name
    · subst hname
      simp only [Function.update_self, Option.some.injEq] at hother
      exact hlowered object request form base hother hbase
    · rw [Function.update_of_ne hname] at hother
      exact h.lowered other object request form base hother hbase

theorem Wired.reply (h : Wired cfg P m) {name : CallName} {r : Reply}
    (hparams : t.params = m.params)
    (htable : ∀ sessionId object, t.sessions sessionId = some object →
      m.sessions sessionId = some object)
    (hcalls : t.calls = Function.update m.calls name (some (.answered r))) : Wired cfg P t :=
  h.setCall hparams htable hcalls (by simp [CallState.object?]) (by simp)

theorem Wired.created (h : Wired cfg P m) {name : CallName} (hname : m.calls name = none)
    (o : SessionObject) (r : Reply) : Wired cfg P ((m.register name o).reply name r) := by
  have hfresh : ∀ object, (m.params object).isSome → object ≠ name := by
    rintro object hobject rfl
    have hcall := h.named object hobject
    simp [hname] at hcall
  have hparams : ∀ object, ((m.register name o).reply name r).params object =
        if object = name then some o.samplingParams else m.params object := by
    intro object
    unfold GatewayActor.params
    rw [GatewayActor.reply_objects]
    rw [GatewayActor.register_objects]
    by_cases hobject : object = name
    · simp [hobject]
    · rw [Function.update_of_ne hobject, if_neg hobject]
  have hkept : ∀ object, (m.params object).isSome →
    ((m.register name o).reply name r).params object =
        m.params object := by
    intro object hobject
    rw [hparams, if_neg (hfresh object hobject)]
  refine ⟨?_, ?_, ?_, ?_⟩
  · intro sessionId object hentry
    rw [GatewayActor.reply_sessions, GatewayActor.register_sessions] at hentry
    by_cases hid : sessionId = name.sessionId
    · subst hid
      simp only [Function.update_self, Option.some.injEq] at hentry
      subst hentry
      exact ⟨rfl, by simp [hparams]⟩
    · rw [Function.update_of_ne hid] at hentry
      obtain ⟨hown, hobject⟩ := h.table sessionId object hentry
      exact ⟨hown, by rw [hkept object hobject]; exact hobject⟩
  · intro object hobject
    rw [GatewayActor.reply_calls, GatewayActor.register_calls]
    rw [hparams] at hobject
    by_cases hcase : object = name
    · simp [hcase]
    · rw [if_neg hcase] at hobject
      rw [Function.update_of_ne hcase]
      exact h.named object hobject
  · intro other call object hother hobject
    rw [GatewayActor.reply_calls, GatewayActor.register_calls] at hother
    by_cases hcase : other = name
    · subst hcase
      simp only [Function.update_self, Option.some.injEq] at hother
      subst hother
      simp [CallState.object?] at hobject
    · rw [Function.update_of_ne hcase] at hother
      obtain ⟨hown, hparam⟩ := h.held other call object hother hobject
      exact ⟨hown, by rw [hkept object hparam]; exact hparam⟩
  · intro other object request form base hother hbase
    rw [GatewayActor.reply_calls, GatewayActor.register_calls] at hother
    by_cases hcase : other = name
    · subst hcase
      simp at hother
    · rw [Function.update_of_ne hcase] at hother
      obtain ⟨_, hparam⟩ := h.held other _ object hother rfl
      rw [hkept object hparam] at hbase
      exact h.lowered other object request form base hother hbase

theorem Wired.section (h : Wired cfg P m) {name object : CallName} {work : Work} {o : SessionObject}
    {system : System} (hcall : m.calls name = some (.waiting object work))
    (ho : m.objects object = some o)
    (hnext : GatewayActor.Section (m.setObject object { o with system }) name object o.system work
      t) : Wired cfg P t := by
  have hparams : t.params = m.params :=
    (GatewayActor.params_congr hnext.objects).trans (GatewayActor.params_step ho system)
  have hpop : ∀ sessionId entry, (m.pop name.sessionId).sessions sessionId = some entry →
      m.sessions sessionId = some entry := by
    intro sessionId entry hentry
    rw [GatewayActor.pop_sessions] at hentry
    by_cases hid : sessionId = name.sessionId
    · simp [hid] at hentry
    · rwa [Function.update_of_ne hid] at hentry
  cases hnext with
  | serving request form =>
    refine h.setCall hparams (fun _ _ hentry => hentry) rfl ?_ (by simp)
    rintro other hother
    cases hother
    exact h.held name _ object hcall rfl
  | answered _ r _ _ _ _ => exact h.reply hparams (fun _ _ hentry => hentry) rfl
  | finalized trajectories s hfinalize => exact h.reply hparams hpop rfl
  | aborted s habort => exact h.reply hparams hpop rfl

theorem wired_step (h : Wired cfg P m) {a : ActorAction} (hposts : PostsWithin P a)
    (hstep : GatewayActor.step cfg m a = some t) : Wired cfg P t := by
  cases GatewayActor.step_effect hstep with
  | server _ url _ _ => exact ⟨h.table, h.named, h.held, h.lowered⟩
  | replied _ name r _ _ _ => exact h.reply rfl (fun _ _ hentry => hentry) rfl
  | created name samplingParams session r hname _ _ _ => exact h.created hname _ r
  | posted name object o route payload request form hname htable ho hlower =>
    have hbase : m.params object = some o.samplingParams :=
      GatewayActor.params_eq_some.mpr ⟨o.system, ho⟩
    refine h.setCall rfl (fun _ _ hentry => hentry) rfl ?_ ?_
    · rintro other hother
      cases hother
      exact h.table _ _ htable
    · rintro other request' form' base hother hother'
      cases hother
      cases hbase.symm.trans hother'
      exact ⟨route, payload, hposts name route payload rfl, hlower⟩
  | called name object method hname htable ho =>
    refine h.setCall rfl (fun _ _ hentry => hentry) rfl ?_ ?_
    · rintro other hother
      cases hother
      exact h.table _ _ htable
    · rintro other request form base hother
      cases method <;> cases hother
  | entered name object work o system _ hcall ho _ hnext => exact h.section hcall ho hnext
  | gaveUp name object request form o system hcall ho _ =>
    exact h.reply (GatewayActor.params_step ho system) (fun _ _ hentry => hentry) rfl
  | proceeded name object requestId form progress o system hcall ho _ =>
    have hparams := GatewayActor.params_step ho system
    refine ⟨?_, ?_, ?_, ?_⟩
    · rw [hparams]
      exact h.table
    · rw [hparams]
      exact h.named
    · rw [hparams]
      exact h.held
    · rw [hparams]
      exact h.lowered

end

/-! ## Objects as sessions -/

namespace GatewayActor

/-- An object that is not built yet is a session to which nothing happened. -/
def At (m : GatewayActor) (object : CallName) (start u : System) : Prop :=
  (m.objects object = none ∧ u = start) ∨ ∃ base, m.objects object = some ⟨base, u⟩

theorem At.system {object : CallName} {start u : System} {o : SessionObject}
    (h : m.At object start u) (ho : m.objects object = some o) : o.system = u := by
  rcases h with ⟨hnone, _⟩ | ⟨base, hbase⟩
  · cases hnone.symm.trans ho
  · cases hbase.symm.trans ho
    rfl

/-- A step in some object is followed by the session of an object, when it is the same one. -/
theorem At.stepped {object other : CallName} {start u system : System} {o : SessionObject}
    {a : session.Action} (h : m.At object start u) (ho : m.objects other = some o)
    (hstep : System.step cfg.codec o.system a = some system)
    (hobjects : t.objects = Function.update m.objects other (some { o with system })) :
    ∃ v, runs.run (System.step cfg.codec) u (if other = object then [a] else []) = some v ∧
      t.At object start v := by
  by_cases hsame : other = object
  · subst hsame
    refine ⟨system, ?_, Or.inr ⟨o.samplingParams, ?_⟩⟩
    · rw [if_pos rfl, ← h.system ho, runs.run_cons]
      exact ⟨system, hstep, rfl⟩
    · rw [hobjects, Function.update_self]
  · refine ⟨u, ?_, ?_⟩
    · rw [if_neg hsame]
      rfl
    · unfold At
      rw [hobjects, Function.update_of_ne (Ne.symm hsame)]
      exact h

theorem At.kept {object : CallName} {start u : System} (h : m.At object start u)
    (hobjects : t.objects object = m.objects object) : t.At object start u := by
  unfold At
  rw [hobjects]
  exact h

/-- Every step of the actor is, in one object, a short run of its session. -/
theorem At.follow {P : String → Route → Json → Prop} {object : CallName} {session : GatewaySession}
    {u : System} {a : ActorAction} (hwired : Wired cfg P m)
    (hnew : ∀ session', GatewaySession.create object.sessionId cfg.promptLength cfg.responseLength
      cfg.enableLastAssistantRollback = .ok session' → session' = session)
    (h : m.At object (System.initial session) u) (hstep : step cfg m a = some t) :
    ∃ v, runs.run (System.step cfg.codec) u (m.actionsOn object a) = some v ∧
      t.At object (System.initial session) v := by
  cases step_effect hstep with
  | server _ url _ hquiet => exact ⟨u, by rw [hquiet object]; rfl, h⟩
  | replied _ name r _ _ hquiet => exact ⟨u, by rw [hquiet object]; rfl, h⟩
  | created name samplingParams session' r hname _ hcreate _ =>
    refine ⟨u, rfl, ?_⟩
    by_cases hobject : object = name
    · subst hobject
      refine Or.inr ⟨samplingParams.getD [], ?_⟩
      rcases h with ⟨_, rfl⟩ | ⟨base, hbase⟩
      · rw [reply_objects, register_objects, Function.update_self, hnew session' hcreate]
      · have hcall := hwired.named object (by simp [params, hbase])
        simp [hname] at hcall
    · apply h.kept
      rw [reply_objects, register_objects, Function.update_of_ne hobject]
  | posted name other o route payload request form _ _ _ _ => exact ⟨u, rfl, h⟩
  | called name other method _ _ _ => exact ⟨u, rfl, h⟩
  | entered name other work o system _ hcall ho hsystem hnext =>
    simp only [actionsOn, hcall]
    exact h.stepped ho hsystem hnext.objects
  | gaveUp name other request form o system hcall ho hsystem =>
    simp only [actionsOn, hcall]
    exact h.stepped ho hsystem rfl
  | proceeded name other requestId form progress o system hcall ho hsystem =>
    simp only [actionsOn, hcall]
    exact h.stepped ho hsystem rfl

/-- The defaults of an object never change: those that it has in the end it had in every state. -/
theorem params_back {object : CallName} {base : Dict} {a : ActorAction}
    (hstep : step cfg m a = some t)
    (h : Wired cfg (fun _ _ _ => True) t → ∀ b, t.params object = some b → b = base)
    (hwired : Wired cfg (fun _ _ _ => True) m) : ∀ b, m.params object = some b → b = base := by
  intro b hb
  apply h (wired_step hwired (fun _ _ _ _ => trivial) hstep) b
  cases step_effect hstep with
  | server _ url _ _ => exact hb
  | replied _ name r _ _ _ => exact hb
  | created name samplingParams session r hname _ _ _ =>
    have hne : object ≠ name := by
      rintro rfl
      have hcall := hwired.named object (by simp [hb])
      simp [hname] at hcall
    unfold params at hb ⊢
    rwa [reply_objects, register_objects, Function.update_of_ne hne]
  | posted name other o route payload request form _ _ _ _ => exact hb
  | called name other method _ _ _ => exact hb
  | entered name other work o system _ _ ho _ hnext =>
    rwa [params_congr hnext.objects, params_step ho]
  | gaveUp name other request form o system _ ho _ =>
    rwa [params_congr (reply_objects _ _ _), params_step ho]
  | proceeded name other requestId form progress o system _ ho _ => rwa [params_step ho]

/-- A request that an action hands to the session of an object was lowered from a body that the id
of the object was sent. -/
theorem request_of_actionsOn {P : String → Route → Json → Prop} {object : CallName} {base : Dict}
    {a : ActorAction} {request : InternalGenerationRequest} (hwired : Wired cfg P m)
    (hbase : ∀ b, m.params object = some b → b = base)
    (hrequest : .request request ∈ m.actionsOn object a) : ∃ route payload,
      P object.sessionId route payload ∧
        lowerPayload cfg.py route base cfg.allowedRequestSamplingParamKeys payload =
            .ok request := by
  rcases mem_actionsOn hrequest with ⟨name, work, hcall, hwork | hwork⟩ |
    ⟨_, progress, _, _, _, _, hb⟩
  · obtain ⟨hid, hparam⟩ := hwired.held name _ object hcall rfl
    obtain ⟨b, hb⟩ := Option.isSome_iff_exists.mp hparam
    cases work with
    | generate request' form =>
      cases hwork
      rw [hid, ← hbase b hb]
      exact hwired.lowered name object request form b hcall hb
    | setRewardInfo | finalize | abort => cases hwork
  · cases hwork
  · cases progress <;> cases hb

/-- A step in an object is taken by a call of its id. -/
theorem sessionId_of_actionsOn {P : String → Route → Json → Prop} {object : CallName}
    {a : ActorAction} (hwired : Wired cfg P m) (h : m.actionsOn object a ≠ []) :
    a.sessionId? = some object.sessionId := by
  have hid : ∀ name call other, m.calls name = some call → call.object? = some other →
      other = object → some name.sessionId = some object.sessionId := by
    rintro name call _ hcall hobject rfl
    exact congrArg some (hwired.held name call _ hcall hobject).1.symm
  cases a with
  | enter name | giveUp name =>
    unfold actionsOn at h
    dsimp only at h
    split at h
    · rename_i other work hcall
      split at h
      · rename_i hsame
        exact hid name _ other hcall rfl hsame
      · exact absurd rfl h
    · exact absurd rfl h
  | proceed name progress =>
    unfold actionsOn at h
    dsimp only at h
    split at h
    · rename_i other requestId form hcall
      split at h
      · rename_i hsame
        exact hid name _ other hcall rfl hsame
      · exact absurd rfl h
    · exact absurd rfl h
  | start | shutdown | createSession | post | callMethod | respond => exact absurd rfl h

theorem created_step {a : ActorAction}
    (h : ∀ object, (m.params object).isSome → ∃ session, GatewaySession.create object.sessionId
      cfg.promptLength cfg.responseLength cfg.enableLastAssistantRollback = .ok session)
    (hstep : step cfg m a = some t) :
    ∀ object, (t.params object).isSome → ∃ session, GatewaySession.create object.sessionId
      cfg.promptLength cfg.responseLength cfg.enableLastAssistantRollback = .ok session := by
  cases step_effect hstep with
  | server _ url _ _ => exact h
  | replied _ name r _ _ _ => exact h
  | created name samplingParams session r _ _ hnew _ =>
    intro object hobject
    by_cases hsame : object = name
    · rw [hsame]
      exact ⟨session, hnew⟩
    · apply h object
      unfold params at hobject ⊢
      rwa [reply_objects, register_objects, Function.update_of_ne hsame] at hobject
  | posted name other o route payload request form _ _ _ _ => exact h
  | called name other method _ _ _ => exact h
  | entered name other work o system _ _ ho _ hnext =>
    rwa [params_congr hnext.objects, params_step ho]
  | gaveUp name other request form o system _ ho _ =>
    rwa [params_congr (reply_objects _ _ _), params_step ho]
  | proceeded name other requestId form progress o system _ ho _ => rwa [params_step ho]

/-- In every run of an actor each session object is where its own session is after the steps that
the calls of its id took in it, one after the other, whatever happened to other sessions in
between, and no call of another id takes a step in it. Every request among them was lowered, with
the defaults of the object, from a body that was sent to its id, and its sampling parameters were
checked. -/
theorem objects_run_as_sessions {xs : List ActorAction} {object : CallName} {o : SessionObject}
    (hrun : actorRun cfg xs = some m) (ho : m.objects object = some o) :
    ∃ session, GatewaySession.create object.sessionId cfg.promptLength cfg.responseLength
        cfg.enableLastAssistantRollback = .ok session ∧
      runFrom cfg.codec session (runs.collect (step cfg) (actionsOn object) {} xs) =
        some o.system ∧
      runs.Meets (step cfg) (fun before a => before.actionsOn object a ≠ [] →
        a.sessionId? = some object.sessionId) {} xs ∧
      ∀ request, .request request ∈ runs.collect (step cfg) (actionsOn object) {} xs →
        ∃ name route payload, name.sessionId = object.sessionId ∧
          .post name route (some payload) ∈ xs ∧
          lowerPayload cfg.py route o.samplingParams cfg.allowedRequestSamplingParamKeys payload =
            .ok request := by
  have hbase : ∀ b, m.params object = some b → b = o.samplingParams := by
    intro b hb
    obtain ⟨_, hsame⟩ := params_eq_some.mp hb
    cases ho.symm.trans hsame
    rfl
  obtain ⟨session, hnew⟩ := runs.run_invariant_of_step _ (fun s a t => created_step) hrun
    (by simp [params]) object (by simp [params, ho])
  have hfollow : ∃ u, runFrom cfg.codec session
      (runs.collect (step cfg) (actionsOn object) {} xs) = some u ∧
      Wired cfg (fun _ _ _ => True) m ∧ m.At object (System.initial session) u := by
    apply runs.run_simulation
      (R := fun s u => Wired cfg (fun _ _ _ => True) s ∧ s.At object (System.initial session) u)
      _ hrun ⟨wired_start, Or.inl ⟨rfl, rfl⟩⟩
    rintro s a v u ⟨hwired, hat⟩ hstep
    obtain ⟨w, hw, hat'⟩ := hat.follow hwired
      (fun session' hnew' => Except.ok.inj (hnew'.symm.trans hnew)) hstep
    exact ⟨w, hw, wired_step hwired (fun _ _ _ _ => trivial) hstep, hat'⟩
  have hplain : runs.Meets (step cfg) (fun s _ => Wired cfg (fun _ _ _ => True) s) {} xs :=
    runs.meets_of_invariant _ (fun s a t hs => wired_step hs (fun _ _ _ _ => trivial))
      wired_start
  refine ⟨session, hnew, ?_, hplain.imp (fun s a => sessionId_of_actionsOn), ?_⟩
  · obtain ⟨u, hu, _, hat⟩ := hfollow
    rw [hu, hat.system ho]
  · let P : String → Route → Json → Prop := fun sessionId route payload =>
      ∃ name : CallName, name.sessionId = sessionId ∧
        ActorAction.post name route (some payload) ∈ xs
    have hposts : ∀ a ∈ xs, PostsWithin P a := by
      rintro a ha name route payload rfl
      exact ⟨name, rfl, ha⟩
    have hgiven : runs.Meets (step cfg) (fun _ a => PostsWithin P a) {} xs :=
      runs.meets_of_forall hposts
    have hwired := hgiven.invariant _ (fun s a t hs ha => wired_step hs ha) wired_start
    have hparams := (runs.meets_of_final _ (fun s a t => params_back) hrun (fun _ => hbase)).2
    have hall : ∀ b ∈ runs.collect (step cfg) (actionsOn object) {} xs, ∀ request,
        b = .request request → ∃ route payload, P object.sessionId route payload ∧
          lowerPayload cfg.py route o.samplingParams cfg.allowedRequestSamplingParamKeys payload =
            .ok request := by
      apply runs.forall_mem_collect
      apply ((hwired.and hparams).and hplain).imp
      rintro s a ⟨⟨hs, hback⟩, htrue⟩ b hb request rfl
      exact request_of_actionsOn hs (hback htrue) hb
    intro request hrequest
    obtain ⟨route, payload, ⟨name, hname, hmem⟩, hlower⟩ := hall _ hrequest request rfl
    exact ⟨name, route, payload, hname, hmem, hlower⟩

end GatewayActor

/-! ## Two clients -/

def smallActor : ActorSettings where
  codec := lineCodec
  py := plainPython
  dumps := Json.write ⟨", ", ": "⟩ Json.bitsText

def chatBody (text : String) : Json :=
  .obj [("messages", .arr [.obj [("role", .str "user"), ("content", .str text)]])]

/-- Two sessions, one of which is finalized while the other one generates. -/
def twoClients : List ActorAction :=
  [.start "http://gateway", .createSession ⟨"a", 0⟩ none, .createSession ⟨"b", 0⟩ none,
    .post ⟨"a", 1⟩ .openai (some (chatBody "q")), .post ⟨"b", 1⟩ .anthropic (some (chatBody "r")),
    .enter ⟨"b", 1⟩, .enter ⟨"a", 1⟩,
    .proceed ⟨"a", 1⟩ (.backendReturns { tokenIds := tokensOf "x" }),
    .callMethod ⟨"b", 2⟩ .finalizeSession,
    .proceed ⟨"a", 1⟩ (.commit (fun _ => "")), .enter ⟨"b", 2⟩, .respond ⟨"a", 1⟩ "id" 0]

namespace GatewayActor

theorem objects_run_as_sessions_twoClients : ∃ m o session,
    actorRun smallActor twoClients = some m ∧ m.objects ⟨"a", 0⟩ = some o ∧
      o.system.session.activeChains.length = 1 ∧
      runFrom smallActor.codec session (runs.collect (step smallActor) (actionsOn ⟨"a", 0⟩) {}
        twoClients) = some o.system := by
  have hfacts : (actorRun smallActor twoClients).any (fun m => (m.objects ⟨"a", 0⟩).any (fun o =>
      o.system.session.activeChains.length == 1)) = true := by decide +kernel
  obtain ⟨m, hrun, hm⟩ := (Option.any_eq_true _ _).mp hfacts
  obtain ⟨o, ho, hone⟩ := (Option.any_eq_true _ _).mp hm
  obtain ⟨session, _, hsession, _⟩ := objects_run_as_sessions hrun ho
  exact ⟨m, o, session, hrun, ho, by simpa using hone, hsession⟩

end GatewayActor

end uni_agent.gateway
