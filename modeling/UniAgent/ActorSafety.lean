-- Laws of the actor over all its sessions: what holds of one session holds of every object, no
-- body that a client sends exceeds the capacity, no session is finalized twice or lost, and no
-- session is changed by what is sent to another one.
import UniAgent.ActorSessions
import UniAgent.Capacity

namespace uni_agent.gateway

open session (AsksForTokens CapacityStep Coherent Effect Fits GatewaySession
  InternalGenerationRequest
  ObeysMaxTokens System capacityRule_kept capacity_effect coherent_effect coherent_initial
  coherent_run
  create_eq_ok obeysMaxTokens obeysMaxTokens_of_test step_effect untouched_reserveChain)

variable {cfg : ActorSettings} {m t : GatewayActor}

/-! ## From one session to all of them -/

/-- Every object is a session that took steps that meet `Q`, and no others. -/
def Reached (cfg : ActorSettings) (Q : System → session.Action → Prop) (m : GatewayActor) : Prop :=
  ∀ object o, m.objects object = some o →
    ∃ session, GatewaySession.create object.sessionId cfg.promptLength cfg.responseLength
        cfg.enableLastAssistantRollback = .ok session ∧
      runs.Reachable (System.step cfg.codec) Q (System.initial session) o.system

variable {Q : System → session.Action → Prop}

theorem Reached.stepped (h : Reached cfg Q m) {object : CallName} {o : SessionObject}
    {b : session.Action} {system : System} (ho : m.objects object = some o) (hQ : Q o.system b)
    (hstep : System.step cfg.codec o.system b = some system)
    (hobjects : t.objects = Function.update m.objects object (some { o with system })) :
    Reached cfg Q t := by
  intro other o' ho'
  rw [hobjects] at ho'
  by_cases hsame : other = object
  · subst hsame
    simp only [Function.update_self, Option.some.injEq] at ho'
    subst ho'
    obtain ⟨session, hnew, hreach⟩ := h other o ho
    exact ⟨session, hnew, hreach.snoc hQ hstep⟩
  · rw [Function.update_of_ne hsame] at ho'
    exact h other o' ho'

/-- The rule for laws of sessions: when all that the calls do in a session meets `Q`, every object
takes steps that meet `Q`. -/
theorem Reached.step {a : ActorAction} (h : Reached cfg Q m)
    (hQ : ∀ object o b, m.objects object = some o → b ∈ m.actionsOn object a → Q o.system b)
    (hstep : GatewayActor.step cfg m a = some t) : Reached cfg Q t := by
  cases GatewayActor.step_effect hstep with
  | server _ url _ _ => exact h
  | replied _ name r _ _ _ => exact h
  | created name samplingParams session r _ _ hnew _ =>
    intro object o ho
    rw [GatewayActor.reply_objects, GatewayActor.register_objects] at ho
    by_cases hsame : object = name
    · subst hsame
      simp only [Function.update_self, Option.some.injEq] at ho
      subst ho
      exact ⟨session, hnew, .refl Q _⟩
    · rw [Function.update_of_ne hsame] at ho
      exact h object o ho
  | posted name object o route payload request form _ _ _ _ => exact h
  | called name object method _ _ _ => exact h
  | entered name object work o system _ hcall ho hsystem hnext =>
    refine h.stepped ho (hQ object o _ ho ?_) hsystem hnext.objects
    simp [GatewayActor.actionsOn, hcall]
  | gaveUp name object request form o system hcall ho hsystem =>
    refine h.stepped ho (hQ object o _ ho ?_) hsystem rfl
    simp [GatewayActor.actionsOn, hcall, Work.cancelled]
  | proceeded name object requestId form progress o system hcall ho hsystem =>
    refine h.stepped ho (hQ object o _ ho ?_) hsystem rfl
    simp [GatewayActor.actionsOn, hcall]

theorem reached_start : Reached cfg Q {} := by simp [Reached]

theorem Reached.coherent (h : Reached cfg Q m) {object : CallName} {o : SessionObject}
    (ho : m.objects object = some o) : Coherent cfg.codec o.system := by
  obtain ⟨session, hnew, actions, hrun, _⟩ := h object o ho
  exact coherent_run hnew hrun

/-! ## Capacity -/

/-- A body that a route accepts asks for a positive number of tokens, or for none in particular. -/
theorem asksForTokens_of_lowered {py : PythonLibrary} {route : Route} {base : Dict}
    {allowed : List String} {payload : Json} {request : InternalGenerationRequest}
    (h : lowerPayload py route base allowed payload = .ok request) :
    AsksForTokens (.request request) := by
  rintro _ maxTokens ⟨⟩ hmax
  unfold lowerPayload at h
  obtain ⟨internal, _, h⟩ := bind_eq_ok.mp h
  obtain ⟨_, hvalid, h⟩ := bind_eq_ok.mp h
  cases h
  unfold LoweredRequest.toRequest at hmax
  unfold validateSamplingParams at hvalid
  dsimp only at hmax
  split at hmax
  · rename_i n hn
    cases hmax
    simp only [hn] at hvalid
    split at hvalid
    · cases hvalid
    · omega
  · cases hmax

/-- The backend returns at most the `max_tokens` that it was given. -/
def ObeysGiven (m : GatewayActor) (a : ActorAction) : Prop :=
  ∀ name output object requestId form o, a = .proceed name (.backendReturns output) →
    m.calls name = some (.serving object requestId form) → m.objects object = some o →
      ObeysMaxTokens o.system (.backendReturns requestId output)

/-- A step of a session whose requests ask for tokens and whose backend obeys. -/
def Obliging (sys : System) (b : session.Action) : Prop := AsksForTokens b ∧ ObeysMaxTokens sys b

theorem obliging_of_actionsOn {a : ActorAction} (hwired : Wired cfg (fun _ _ _ => True) m)
    (hobeys : ObeysGiven m a) {object : CallName} {o : SessionObject} {b : session.Action}
    (ho : m.objects object = some o) (hb : b ∈ m.actionsOn object a) : Obliging o.system b := by
  refine ⟨?_, ?_⟩
  · rintro request maxTokens rfl
    have hbase : ∀ b, m.params object = some b → b = o.samplingParams := by
      intro b hb
      obtain ⟨_, hsame⟩ := GatewayActor.params_eq_some.mp hb
      cases ho.symm.trans hsame
      rfl
    obtain ⟨route, payload, _, hlower⟩ :=
      GatewayActor.request_of_actionsOn hwired hbase hb
    exact asksForTokens_of_lowered hlower request maxTokens rfl
  · rintro requestId output rfl
    rcases GatewayActor.mem_actionsOn hb with ⟨_, work, _, hwork | hwork⟩ |
      ⟨name, progress, requestId', form, rfl, hcall, hprogress⟩
    · cases work <;> cases hwork
    · cases hwork
    · cases progress with
      | backendReturns output' =>
        cases hprogress
        exact hobeys name output object requestId form o rfl hcall ho requestId output rfl
      | backendRaises | commit | cancel | release => cases hprogress

/-- What a capacity asks of a session: of its calls, of its chains, and of what it returns. -/
structure Within (capacity : Nat) (sys : System) : Prop where
  calls : ∀ call ∈ sys.calls, Fits capacity call
  chains : ∀ chain ∈ sys.session.activeChains, chain.buffer.length ≤ capacity
  materialized : ∀ closed ∈ sys.session.materializedChains,
    closed.trajectory.promptIds.length + closed.trajectory.responseIds.length ≤ capacity
  returned : ∀ trajectories s, sys.session.finalize = (.ok trajectories, s) →
    ∀ trajectory ∈ trajectories,
      trajectory.promptIds.length + trajectory.responseIds.length ≤ capacity

theorem capacity_of_create {sessionId : String} {promptLength responseLength : Int} {enable : Bool}
    {s : GatewaySession} (hnew : GatewaySession.create sessionId (some promptLength)
      (some responseLength) enable = .ok s) :
    s.trajectoryCapacity = some (promptLength + responseLength).toNat := by
  unfold GatewaySession.create at hnew
  by_cases hprompt : promptLength ≤ 0
  · simp [hprompt, bind, Except.bind, throw, throwThe, MonadExceptOf.throw] at hnew
  · by_cases hresponse : responseLength ≤ 0
    · simp [hprompt, hresponse, bind, Except.bind, throw, throwThe, MonadExceptOf.throw] at hnew
    · simp [hprompt, hresponse, pure, Except.pure] at hnew
      subst hnew
      rfl

theorem within_of_reachable {C : MessageCodec} {sessionId : String}
    {promptLength responseLength : Int} {enable : Bool} {s : GatewaySession} {sys : System}
    (hnew : GatewaySession.create sessionId (some promptLength)
        (some responseLength) enable = .ok s)
    (hreach : runs.Reachable (System.step C) Obliging (System.initial s) sys) :
    Within (promptLength + responseLength).toNat sys := by
  obtain ⟨actions, hrun, hobliging⟩ := hreach
  have hmeets : runs.Meets (System.step C) (CapacityStep (promptLength + responseLength).toNat)
      (System.initial s) actions := by
    have hconstant : runs.Meets (System.step C) (fun u _ => Coherent C u ∧
        u.session.trajectoryCapacity = s.trajectoryCapacity) (System.initial s) actions := by
      apply runs.meets_of_invariant
        (fun u => Coherent C u ∧ u.session.trajectoryCapacity = s.trajectoryCapacity)
      · rintro u b v ⟨hco, hu⟩ hstep
        have heffect := step_effect hco hstep
        exact ⟨coherent_effect hco heffect, (capacity_effect heffect).trans hu⟩
      · exact ⟨coherent_initial hnew, rfl⟩
    apply (hconstant.and hobliging).imp
    rintro u b ⟨⟨_, hu⟩, hasks, hobeys⟩
    exact ⟨hu.trans (capacity_of_create hnew), hasks, hobeys⟩
  have hholds := capacityRule_kept.run hnew hrun hmeets
  refine ⟨?_, hholds.chains, ?_, ?_⟩
  · exact capacityRule_kept.calls_run hnew hrun hmeets (fun f gens hready => hready.2)
  · intro closed hmem
    obtain ⟨_, _, hclosed⟩ := hholds.closed closed hmem
    exact hclosed
  · intro trajectories s' hfinalize trajectory hmem
    obtain ⟨_, _, rfl, _, hclosed⟩ := capacityRule_kept.finalized hholds hfinalize trajectory hmem
    exact hclosed

theorem finalize_phase {s s' : GatewaySession} {result : Except PyError (List session.Trajectory)}
    (h : s.finalize = (result, s')) :
    (∃ trajectories, result = .ok trajectories ∧ s.phase = .active ∧ s'.phase = .finalized) ∨
      (∃ e, result = .error e) ∧ s'.phase = s.phase := by
  unfold GatewaySession.finalize at h
  cases hphase : s.phase with
  | aborted | finalized =>
    simp only [hphase, reduceCtorEq, if_true, if_false] at h
    cases h
    exact Or.inr ⟨⟨_, rfl⟩, hphase⟩
  | active =>
    simp only [hphase, reduceCtorEq, if_false] at h
    unfold GatewaySession.materializeActiveChains at h
    rcases hmat : GatewaySession.materializeEach s.activeChains s.materializedChains with
      ⟨outcome, materialized⟩
    cases outcome with
    | error e =>
      simp only [hmat] at h
      cases h
      exact Or.inr ⟨⟨e, rfl⟩, hphase⟩
    | ok u =>
      simp only [hmat] at h
      cases h
      exact Or.inl ⟨_, rfl, rfl, rfl⟩

theorem session_of_finalize {C : MessageCodec} {sys next : System}
    (h : System.step C sys .finalize = some next) : next.session = sys.session.finalize.2 := by
  unfold System.step at h
  rcases hfinalize : sys.session.finalize with ⟨result, s⟩
  cases result <;> simp only [hfinalize, Option.some.injEq] at h <;> subst h <;> rfl

/-- A call returns the trajectories of a session, which was active and is finalized now. -/
structure Returns (m t : GatewayActor) (name : CallName)
    (trajectories : List session.Trajectory) (object : CallName) (o o' : SessionObject) : Prop where
  call : m.calls name = some (.waiting object .finalize)
  answer : t.calls name = some (.answered (.trajectories trajectories))
  before : m.objects object = some o
  active : o.system.session.phase = .active
  finalize : ∃ s, o.system.session.finalize = (.ok trajectories, s)
  after : t.objects object = some o'
  finalized : o'.system.session.phase = .finalized

/-- Trajectories are returned by a call of `finalize_session` only. -/
theorem returned_of_step {a : ActorAction} (hstep : GatewayActor.step cfg m a = some t)
    {name : CallName} {trajectories : List session.Trajectory}
    (h : t.calls name = some (.answered (.trajectories trajectories))) :
    m.calls name = some (.answered (.trajectories trajectories)) ∨
      a = .enter name ∧ ∃ object o o', Returns m t name trajectories object o o' := by
  have hkept : ∀ {other : CallName} {call : CallState},
      call ≠ .answered (.trajectories trajectories) →
      Function.update m.calls other (some call) name =
        some (.answered (.trajectories trajectories)) →
      m.calls name = some (.answered (.trajectories trajectories)) := by
    intro other call hne hcall
    by_cases hsame : name = other
    · subst hsame
      simp [hne] at hcall
    · rwa [Function.update_of_ne hsame] at hcall
  cases GatewayActor.step_effect hstep with
  | server _ url _ _ => exact Or.inl h
  | replied _ other r _ hr _ => exact Or.inl (hkept (by simpa using hr trajectories) h)
  | created other samplingParams session r _ _ _ hr =>
    exact Or.inl (hkept (by simpa using hr trajectories) h)
  | posted other object o route payload request form _ _ _ _ => exact Or.inl (hkept (by simp) h)
  | called other object method _ _ _ => exact Or.inl (hkept (by simp) h)
  | gaveUp other object request form o system _ _ _ => exact Or.inl (hkept (by simp) h)
  | proceeded other object requestId form progress o system _ _ _ => exact Or.inl h
  | entered other object work o system _ hcall ho hsystem hnext =>
    have hobjects := hnext.objects
    cases hnext with
    | serving request form => exact Or.inl (hkept (by simp) h)
    | answered _ r hr _ _ _ => exact Or.inl (hkept (by simpa using hr trajectories) h)
    | aborted s _ => exact Or.inl (hkept (by simp) h)
    | finalized trajectories' s hfinalize =>
      rw [GatewayActor.reply_calls] at h
      by_cases hsame : name = other
      · subst hsame
        simp only [Function.update_self, Option.some.injEq, CallState.answered.injEq,
          Reply.trajectories.injEq] at h
        subst h
        rcases finalize_phase hfinalize with ⟨_, _, hactive, hphase⟩ | ⟨⟨_, herror⟩, _⟩
        · refine Or.inr ⟨rfl, object, o, { o with system }, hcall, ?_, ho, hactive, ⟨s, hfinalize⟩,
            ?_, ?_⟩
          · rw [GatewayActor.reply_calls, Function.update_self]
          · rw [hobjects, GatewayActor.setObject_objects, Function.update_self]
          · rw [session_of_finalize hsystem, hfinalize]
            exact hphase
        · cases herror
      · rw [Function.update_of_ne hsame] at h
        exact Or.inl h

/-- With both lengths set, no JSON body on either route, in whatever order the requests of
whatever sessions take their steps, makes a call for which there is no room or that asks for more
tokens than there is room for, or a chain or a returned trajectory longer than the capacity. -/
theorem no_body_exceeds_the_capacity {promptLength responseLength : Int} {xs : List ActorAction}
    (hprompt : cfg.promptLength = some promptLength)
    (hresponse : cfg.responseLength = some responseLength) (hrun : actorRun cfg xs = some m)
    (hobeys : runs.Meets (GatewayActor.step cfg) ObeysGiven {} xs) :
    (∀ object o, m.objects object = some o →
      (∀ call ∈ o.system.calls, Fits (promptLength + responseLength).toNat call) ∧
      (∀ chain ∈ o.system.session.activeChains,
        chain.buffer.length ≤ (promptLength + responseLength).toNat) ∧
      ∀ closed ∈ o.system.session.materializedChains, closed.trajectory.promptIds.length +
        closed.trajectory.responseIds.length ≤ (promptLength + responseLength).toNat) ∧
    ∀ name trajectories, m.calls name = some (.answered (.trajectories trajectories)) →
      ∀ trajectory ∈ trajectories, trajectory.promptIds.length + trajectory.responseIds.length ≤
        (promptLength + responseLength).toNat := by
  let capacity := (promptLength + responseLength).toNat
  have hwithin : ∀ {s : GatewayActor}, Reached cfg Obliging s → ∀ object o,
      s.objects object = some o → Within capacity o.system := by
    intro s hreached object o ho
    obtain ⟨session, hnew, hreach⟩ := hreached object o ho
    rw [hprompt, hresponse] at hnew
    exact within_of_reachable hnew hreach
  let I (s : GatewayActor) : Prop := Wired cfg (fun _ _ _ => True) s ∧ Reached cfg Obliging s ∧
    ∀ name trajectories, s.calls name = some (.answered (.trajectories trajectories)) →
      ∀ trajectory ∈ trajectories,
        trajectory.promptIds.length + trajectory.responseIds.length ≤ capacity
  have hinvariant : I m := by
    refine runs.run_invariant I ?_ hrun hobeys ⟨wired_start, reached_start, by simp⟩
    rintro s a u ⟨hwired, hreached, hreturned⟩ hgiven hstep
    refine ⟨wired_step hwired (fun _ _ _ _ => trivial) hstep, ?_, ?_⟩
    · exact hreached.step (fun object o b ho hb => obliging_of_actionsOn hwired hgiven ho hb) hstep
    · intro name trajectories hname
      rcases returned_of_step hstep hname with hold | ⟨_, object, o, _, hreturns⟩
      · exact hreturned name trajectories hold
      · obtain ⟨s', hfinalize⟩ := hreturns.finalize
        exact (hwithin hreached object o hreturns.before).returned trajectories s' hfinalize
  obtain ⟨_, hreached, hreturned⟩ := hinvariant
  refine ⟨?_, hreturned⟩
  intro object o ho
  have h := hwithin hreached object o ho
  exact ⟨h.calls, h.chains, h.materialized⟩

def obeysGiven (m : GatewayActor) : ActorAction → Bool
  | .proceed name (.backendReturns output) =>
    match m.calls name with
    | some (.serving object requestId _) => (m.objects object).all (fun o =>
        obeysMaxTokens o.system (.backendReturns requestId output))
    | _ => true
  | _ => true

theorem obeysGiven_of_test {a : ActorAction} (h : obeysGiven m a = true) : ObeysGiven m a := by
  rintro name output object requestId form o rfl hcall ho
  simp only [obeysGiven, hcall, ho, Option.all_some] at h
  exact obeysMaxTokens_of_test h

def boundedActor : ActorSettings := { smallActor with
  promptLength := some 6
  responseLength := some 6 }

/-- A body with a bound on its tokens. -/
def boundedBody (text : String) (maxTokens : Int) : Json :=
  .obj [("messages", .arr [.obj [("role", .str "user"), ("content", .str text)]]),
    ("max_tokens", .int maxTokens)]

/-- A body without room for its reply to be longer, a body that asks for nothing, and two calls
that close the session, of which the second one comes too late. -/
def boundedClient : List ActorAction :=
  [.start "http://gateway", .createSession ⟨"a", 0⟩ none,
    .post ⟨"a", 1⟩ .openai (some (boundedBody "q" 3)),
    .post ⟨"a", 2⟩ .anthropic (some (boundedBody "q" 0)), .enter ⟨"a", 1⟩,
    .proceed ⟨"a", 1⟩ (.backendReturns { tokenIds := tokensOf "xyz" }),
    .proceed ⟨"a", 1⟩ (.commit (fun _ => "")), .callMethod ⟨"a", 3⟩ .finalizeSession,
    .callMethod ⟨"a", 4⟩ .abortSession, .enter ⟨"a", 3⟩, .enter ⟨"a", 4⟩]

def trajectoriesOf : Option CallState → List session.Trajectory
  | some (.answered (.trajectories trajectories)) => trajectories
  | _ => []

theorem no_body_exceeds_the_capacity_boundedClient : ∃ m o trajectories,
    actorRun boundedActor boundedClient = some m ∧ m.objects ⟨"a", 0⟩ = some o ∧
      o.system.calls.length = 1 ∧ (∀ call ∈ o.system.calls, Fits 12 call) ∧
      m.calls ⟨"a", 3⟩ = some (.answered (.trajectories trajectories)) ∧ trajectories.length = 1 ∧
      ∀ trajectory ∈ trajectories,
        trajectory.promptIds.length + trajectory.responseIds.length ≤ 12 := by
  have hfacts : (actorRun boundedActor boundedClient).any (fun m =>
      (m.objects ⟨"a", 0⟩).any (fun o => o.system.calls.length == 1) &&
        (trajectoriesOf (m.calls ⟨"a", 3⟩)).length == 1) = true := by decide +kernel
  have hchecks : runs.checks (GatewayActor.step boundedActor) obeysGiven {}
    boundedClient = true := by
    decide +kernel
  obtain ⟨m, hrun, hm⟩ := (Option.any_eq_true _ _).mp hfacts
  obtain ⟨hobject, hreturned⟩ := Bool.and_eq_true_iff.mp hm
  obtain ⟨o, ho, hcalls⟩ := (Option.any_eq_true _ _).mp hobject
  have hobeys : runs.Meets (GatewayActor.step boundedActor) ObeysGiven {} boundedClient :=
    runs.meets_of_checks (fun _ _ => obeysGiven_of_test) hchecks
  have h := no_body_exceeds_the_capacity rfl rfl hrun hobeys
  cases hcall : m.calls ⟨"a", 3⟩ with
  | none => simp [hcall, trajectoriesOf] at hreturned
  | some state =>
    cases state with
    | answered r =>
      cases r with
      | trajectories trajectories =>
        simp only [hcall, trajectoriesOf, beq_iff_eq] at hreturned
        exact ⟨m, o, trajectories, hrun, ho, by simpa using hcalls, (h.1 _ o ho).1,
          hcall, hreturned,
          h.2 _ trajectories hcall⟩
      | answer | stream | handle | done | raised => simp [hcall, trajectoriesOf] at hreturned
    | waiting | serving => simp [hcall, trajectoriesOf] at hreturned

/-! ## The end of a session -/

theorem phase_of_effect {C : MessageCodec} {sys next : System} {b : session.Action}
    (h : Effect C sys b next) : next.session.phase = sys.session.phase ∨
      sys.session.phase = .active ∧ (b = .finalize ∧ next.session.phase = .finalized ∨
        b = .abort ∧ next.session.phase = .aborted) := by
  cases h with
  | idle _ session next finished hsession _ _ => exact Or.inl hsession.phase
  | preparedReuse request encoded chain _ _ => exact Or.inl (untouched_reserveChain _ _).phase
  | finalized built hactive _ => exact Or.inr ⟨hactive, Or.inl ⟨rfl, rfl⟩⟩
  | aborted hactive => exact Or.inr ⟨hactive, Or.inr ⟨rfl, rfl⟩⟩
  | committedReuse f output callIds assistantMsg start outcome before after chain _ _ _ =>
    left
    simp [System.finish]
  | dropped request encoded chain before after outcome _ _ _ _ _ => simp
  | closed request encoded chain before after outcome trajectory _ _ _ _ _ => simp
  | _ => exact Or.inl rfl

theorem abort_phase {s s' : GatewaySession} {result : Except PyError Unit}
    (h : s.abort = (result, s')) : (result = .ok () ∧ s'.phase = .aborted) ∨
      ((∃ e, result = .error e) ∧ s'.phase = s.phase) := by
  unfold GatewaySession.abort at h
  cases hphase : s.phase with
  | aborted =>
    simp only [hphase, if_true] at h
    cases h
    exact Or.inl ⟨rfl, hphase⟩
  | finalized =>
    simp only [hphase, reduceCtorEq, if_true, if_false] at h
    cases h
    exact Or.inr ⟨⟨_, rfl⟩, hphase⟩
  | active =>
    simp only [hphase, reduceCtorEq, if_false] at h
    cases h
    exact Or.inl ⟨rfl, rfl⟩

/-- A call under its lock either leaves the table and the phase of its session alone, or closes the
session and takes the entry of its own id away. -/
theorem section_closes {name object : CallName} {work : Work} {before system : System}
    (hco : Coherent cfg.codec before)
    (hstep : System.step cfg.codec before work.action = some system)
    (hnext : GatewayActor.Section m name object before work t) :
    (t.sessions = m.sessions ∧ system.session.phase = before.session.phase) ∨
      ((work = .finalize ∨ work = .abort) ∧
        t.sessions = Function.update m.sessions name.sessionId none ∧
        system.session.phase ≠ .active) := by
  have hphase := phase_of_effect (step_effect hco hstep)
  cases hnext with
  | serving request form =>
    left
    refine ⟨rfl, hphase.resolve_right ?_⟩
    simp [Work.action]
  | answered _ r hr hkept hfinalize habort =>
    refine Or.inl ⟨rfl, ?_⟩
    cases work with
    | generate request form => exact absurd rfl (hkept request form)
    | setRewardInfo rewardInfo => exact hphase.resolve_right (by simp [Work.action])
    | finalize =>
      obtain ⟨e, s, hresult⟩ := hfinalize rfl
      rw [session_of_finalize hstep, hresult]
      rcases finalize_phase hresult with ⟨_, hok, _⟩ | ⟨_, hsame⟩
      · cases hok
      · exact hsame
    | abort =>
      obtain ⟨e, s, hresult⟩ := habort rfl
      cases hstep
      rw [hresult]
      rcases abort_phase hresult with ⟨hok, _⟩ | ⟨_, hsame⟩
      · cases hok
      · exact hsame
  | finalized trajectories s hresult =>
    refine Or.inr ⟨Or.inl rfl, rfl, ?_⟩
    rw [session_of_finalize hstep, hresult]
    rcases finalize_phase hresult with ⟨_, _, _, hphase⟩ | ⟨⟨_, herror⟩, _⟩
    · simp [hphase]
    · cases herror
  | aborted s hresult =>
    refine Or.inr ⟨Or.inr rfl, rfl, ?_⟩
    cases hstep
    rw [hresult]
    rcases abort_phase hresult with ⟨_, hphase⟩ | ⟨⟨_, herror⟩, _⟩
    · simp [hphase]
    · cases herror

/-- A step of one session keeps the phases of the others. -/
theorem objects_of_update {object other : CallName} {o o' : SessionObject}
    (hobjects : t.objects = Function.update m.objects object (some o))
    (h : t.objects other = some o') : (other = object ∧ o' = o) ∨
      (other ≠ object ∧ m.objects other = some o') := by
  rw [hobjects] at h
  by_cases hsame : other = object
  · subst hsame
    simp only [Function.update_self, Option.some.injEq] at h
    exact Or.inl ⟨rfl, h.symm⟩
  · rw [Function.update_of_ne hsame] at h
    exact Or.inr ⟨hsame, h⟩

/-- The sessions in the table are active. -/
def Listed (m : GatewayActor) : Prop :=
  ∀ sessionId object o, m.sessions sessionId = some object → m.objects object = some o →
    o.system.session.phase = .active

theorem phase_of_proceed {progress : Progress} {requestId : Nat} {before system : System}
    (hco : Coherent cfg.codec before)
    (hstep : System.step cfg.codec before (progress.action requestId) = some system) :
    system.session.phase = before.session.phase :=
  (phase_of_effect (step_effect hco hstep)).resolve_right
    (by cases progress <;> simp [Progress.action])

theorem listed_step {a : ActorAction} (hwired : Wired cfg (fun _ _ _ => True) m)
    (hreached : Reached cfg (fun _ _ => True) m) (h : Listed m)
    (hstep : GatewayActor.step cfg m a = some t) : Listed t := by
  intro sessionId object o hentry ho
  cases GatewayActor.step_effect hstep with
  | server _ url _ _ => exact h sessionId object o hentry ho
  | replied _ name r _ _ _ => exact h sessionId object o hentry ho
  | created name samplingParams session r hname _ hnew _ =>
    rw [GatewayActor.reply_sessions, GatewayActor.register_sessions] at hentry
    rcases objects_of_update (GatewayActor.register_objects m name _) ho with ⟨_, rfl⟩ | ⟨hne, hold⟩
    · obtain ⟨_, rfl⟩ := create_eq_ok hnew
      rfl
    · by_cases hid : sessionId = name.sessionId
      · subst hid
        simp only [Function.update_self, Option.some.injEq] at hentry
        exact absurd hentry.symm hne
      · rw [Function.update_of_ne hid] at hentry
        exact h sessionId object o hentry hold
  | posted name other o' route payload request form _ _ _ _ => exact h sessionId object o hentry ho
  | called name other method _ _ _ => exact h sessionId object o hentry ho
  | entered name other work o' system _ hcall hother hsystem hnext =>
    have hco := hreached.coherent hother
    have hobjects := hnext.objects
    have hheld := (hwired.held name _ other hcall rfl).1
    rcases section_closes hco hsystem hnext with ⟨hsessions, hphase⟩ | ⟨_, hsessions, _⟩
    · rw [hsessions, GatewayActor.setObject_sessions] at hentry
      rcases objects_of_update hobjects ho with ⟨rfl, rfl⟩ | ⟨_, hold⟩
      · exact hphase.trans (h sessionId object o' hentry hother)
      · exact h sessionId object o hentry hold
    · rw [hsessions, GatewayActor.setObject_sessions] at hentry
      by_cases hid : sessionId = name.sessionId
      · simp [hid] at hentry
      · rw [Function.update_of_ne hid] at hentry
        rcases objects_of_update hobjects ho with ⟨rfl, rfl⟩ | ⟨_, hold⟩
        · exact absurd ((hwired.table sessionId object hentry).1.symm.trans hheld) hid
        · exact h sessionId object o hentry hold
  | gaveUp name other request form o' system hcall hother hsystem =>
    have hphase := (phase_of_effect (step_effect (hreached.coherent hother) hsystem)).resolve_right
      (by simp)
    rcases objects_of_update (GatewayActor.setObject_objects m other _) ho with
      ⟨rfl, rfl⟩ | ⟨_, hold⟩
    · exact hphase.trans (h sessionId object o' hentry hother)
    · exact h sessionId object o hentry hold
  | proceeded name other requestId form progress o' system hcall hother hsystem =>
    have hphase := phase_of_proceed (hreached.coherent hother) hsystem
    rcases objects_of_update (GatewayActor.setObject_objects m other _) ho with
      ⟨rfl, rfl⟩ | ⟨_, hold⟩
    · exact hphase.trans (h sessionId object o' hentry hother)
    · exact h sessionId object o hentry hold

/-! ### A session is finalized once -/

theorem finalized_stays {C : MessageCodec} {before system : System} {b : session.Action}
    (hco : Coherent C before) (hstep : System.step C before b = some system)
    (h : before.session.phase = .finalized) : system.session.phase = .finalized := by
  rcases phase_of_effect (step_effect hco hstep) with hsame | ⟨hactive, _⟩
  · exact hsame.trans h
  · cases h.symm.trans hactive

/-- A session that is finalized is still there, and still finalized, after a step. -/
theorem finalized_step {a : ActorAction} (hwired : Wired cfg (fun _ _ _ => True) m)
    (hreached : Reached cfg (fun _ _ => True) m) (hstep : GatewayActor.step cfg m a = some t)
    {object : CallName} (h : ∃ o, m.objects object = some o ∧ o.system.session.phase = .finalized) :
    ∃ o, t.objects object = some o ∧ o.system.session.phase = .finalized := by
  obtain ⟨o, ho, hphase⟩ := h
  have hupdate : ∀ {other : CallName} {o' : SessionObject} {b : session.Action} {system : System},
      m.objects other = some o' → System.step cfg.codec o'.system b = some system →
      t.objects = Function.update m.objects other (some { o' with system }) →
      ∃ o, t.objects object = some o ∧ o.system.session.phase = .finalized := by
    intro other o' b system hother hsystem hobjects
    rw [hobjects]
    by_cases hsame : object = other
    · subst hsame
      cases ho.symm.trans hother
      exact ⟨_, Function.update_self _ _ _,
        finalized_stays (hreached.coherent hother) hsystem hphase⟩
    · exact ⟨o, by rw [Function.update_of_ne hsame]; exact ho, hphase⟩
  cases GatewayActor.step_effect hstep with
  | server _ url _ _ => exact ⟨o, ho, hphase⟩
  | replied _ name r _ _ _ => exact ⟨o, ho, hphase⟩
  | created name samplingParams session r hname _ _ _ =>
    refine ⟨o, ?_, hphase⟩
    have hne : object ≠ name := by
      rintro rfl
      have hcall := hwired.named object (by simp [GatewayActor.params, ho])
      simp [hname] at hcall
    rw [GatewayActor.reply_objects, GatewayActor.register_objects, Function.update_of_ne hne]
    exact ho
  | posted name other o' route payload request form _ _ _ _ => exact ⟨o, ho, hphase⟩
  | called name other method _ _ _ => exact ⟨o, ho, hphase⟩
  | entered name other work o' system _ _ hother hsystem hnext =>
    exact hupdate hother hsystem hnext.objects
  | gaveUp name other request form o' system _ hother hsystem => exact hupdate hother hsystem rfl
  | proceeded name other requestId form progress o' system _ hother hsystem =>
    exact hupdate hother hsystem rfl

/-- In its turn of a run, a call returned what finalizing an active session gave. -/
def ReturnedIn (cfg : ActorSettings) (xs : List ActorAction) (name : CallName)
    (trajectories : List session.Trajectory) (object : CallName) : Prop :=
  ∃ front back before after o o', xs = front ++ .enter name :: back ∧
    actorRun cfg front = some before ∧
    GatewayActor.step cfg before (.enter name) = some after ∧
    Returns before after name trajectories object o o'

theorem ReturnedIn.snoc {xs : List ActorAction} {name object : CallName}
    {trajectories : List session.Trajectory} (h : ReturnedIn cfg xs name trajectories object)
    (a : ActorAction) : ReturnedIn cfg (xs ++ [a]) name trajectories object := by
  obtain ⟨front, back, before, after, o, o', rfl, hrest⟩ := h
  exact ⟨front, back ++ [a], before, after, o, o', by simp, hrest⟩

/-- Each call that returned trajectories owes them to a session of its own, which it finalized in
its turn. -/
def OwedBy (cfg : ActorSettings) (xs : List ActorAction) (m : GatewayActor)
    (owner : CallName → CallName) : Prop :=
  ∀ name trajectories, m.calls name = some (.answered (.trajectories trajectories)) →
    (owner name).sessionId = name.sessionId ∧
    ReturnedIn cfg xs name trajectories (owner name) ∧
    (∃ o, m.objects (owner name) = some o ∧ o.system.session.phase = .finalized) ∧
    ∀ other trajectories', m.calls other = some (.answered (.trajectories trajectories')) →
      owner other = owner name → other = name

theorem owed_step {xs : List ActorAction} {a : ActorAction} {owner : CallName → CallName}
    (hrun : actorRun cfg xs = some m) (hwired : Wired cfg (fun _ _ _ => True) m)
    (hreached : Reached cfg (fun _ _ => True) m)
    (h : OwedBy cfg xs m owner) (hstep : GatewayActor.step cfg m a = some t) :
    ∃ owner, OwedBy cfg (xs ++ [a]) t owner := by
  by_cases hnew : ∃ name trajectories object o o', a = .enter name ∧
      Returns m t name trajectories object o o'
  · obtain ⟨name, trajectories, object, o, o', henter, hreturns⟩ := hnew
    have hfresh : ∀ other trajectories',
        m.calls other = some (.answered (.trajectories trajectories')) →
          other ≠ name ∧ owner other ≠ object := by
      intro other trajectories' hother
      constructor
      · rintro rfl
        cases hother.symm.trans hreturns.call
      · rintro rfl
        obtain ⟨_, _, ⟨o'', ho'', hphase⟩, _⟩ := h other trajectories' hother
        cases hreturns.before.symm.trans ho''
        cases hreturns.active.symm.trans hphase
    have hold : ∀ other trajectories',
        t.calls other = some (.answered (.trajectories trajectories')) →
          other = name ∨ m.calls other = some (.answered (.trajectories trajectories')) := by
      intro other trajectories' hother
      rcases returned_of_step hstep hother with hsame | ⟨henter', _⟩
      · exact Or.inr hsame
      · cases henter.symm.trans henter'
        exact Or.inl rfl
    refine ⟨Function.update owner name object, ?_⟩
    intro other trajectories' hother
    rcases hold other trajectories' hother with rfl | hbefore
    · rw [Function.update_self]
      cases hreturns.answer.symm.trans hother
      refine ⟨(hwired.held other _ object hreturns.call rfl).1,
        ⟨xs, [], m, t, o, o', by rw [henter], hrun, henter ▸ hstep, hreturns⟩,
        ⟨o', hreturns.after, hreturns.finalized⟩, ?_⟩
      intro third trajectories'' hthird heq
      rcases hold third trajectories'' hthird with hsame | hthird
      · exact hsame
      · obtain ⟨hne, howner⟩ := hfresh third trajectories'' hthird
        rw [Function.update_of_ne hne] at heq
        exact absurd heq howner
    · obtain ⟨hne, howner⟩ := hfresh other trajectories' hbefore
      obtain ⟨hid, hreturned, hfinalized, hunique⟩ := h other trajectories' hbefore
      rw [Function.update_of_ne hne]
      refine ⟨hid, hreturned.snoc a, finalized_step hwired hreached hstep hfinalized, ?_⟩
      intro third trajectories'' hthird heq
      rcases hold third trajectories'' hthird with rfl | hthird
      · rw [Function.update_self] at heq
        exact absurd heq.symm howner
      · rw [Function.update_of_ne (hfresh third trajectories'' hthird).1] at heq
        exact hunique third trajectories'' hthird heq
  · have hold : ∀ other trajectories',
        t.calls other = some (.answered (.trajectories trajectories')) →
          m.calls other = some (.answered (.trajectories trajectories')) := by
      intro other trajectories' hother
      rcases returned_of_step hstep hother with hsame | ⟨henter, object, o, o', hreturns⟩
      · exact hsame
      · exact absurd ⟨other, trajectories', object, o, o', henter, hreturns⟩ hnew
    refine ⟨owner, ?_⟩
    intro name trajectories hname
    obtain ⟨hid, hreturned, hfinalized, hunique⟩ :=
      h name trajectories (hold name trajectories hname)
    refine ⟨hid, hreturned.snoc a, finalized_step hwired hreached hstep hfinalized, ?_⟩
    intro other trajectories' hother
    exact hunique other trajectories' (hold other trajectories' hother)

/-- In every run the calls that returned trajectories finalized sessions of their own ids, each a
different one, however often `finalize_session` is called and with whatever it interleaves; and
the sessions that the table still has are active. -/
theorem every_session_is_finalized_once {xs : List ActorAction} (hrun : actorRun cfg xs = some m) :
    (∃ owner, OwedBy cfg xs m owner) ∧ Listed m := by
  have hall : Wired cfg (fun _ _ _ => True) m ∧ Reached cfg (fun _ _ => True) m ∧ Listed m ∧
      ∃ owner, OwedBy cfg xs m owner := by
    refine runs.run_history (fun xs s => Wired cfg (fun _ _ _ => True) s ∧
      Reached cfg (fun _ _ => True) s ∧ Listed s ∧ ∃ owner, OwedBy cfg xs s owner)
      ⟨wired_start, reached_start, by simp [Listed], id, by simp [OwedBy]⟩ ?_ hrun
    rintro xs s a u hbefore ⟨hwired, hreached, hlisted, owner, howner⟩ hstep
    exact ⟨wired_step hwired (fun _ _ _ _ => trivial) hstep,
      hreached.step (fun _ _ _ _ _ => trivial) hstep, listed_step hwired hreached hlisted hstep,
      owed_step hbefore hwired hreached howner hstep⟩
  exact ⟨hall.2.2.2, hall.2.2.1⟩

/-- Two calls finalize one of two sessions. The first one returns its trajectories, the second one
raises. -/
def finalizedTwice : List ActorAction :=
  [.start "http://gateway", .createSession ⟨"a", 0⟩ none, .createSession ⟨"b", 0⟩ none,
    .callMethod ⟨"a", 1⟩ .finalizeSession,
    .callMethod ⟨"a", 2⟩ .finalizeSession, .enter ⟨"a", 2⟩, .enter ⟨"a", 1⟩]

def didRaise : Option CallState → Bool
  | some (.answered (.raised _)) => true
  | _ => false

theorem every_session_is_finalized_once_finalizedTwice : ∃ m,
    actorRun smallActor finalizedTwice = some m ∧ didRaise (m.calls ⟨"a", 1⟩) = true ∧
      (∃ owner, OwedBy smallActor finalizedTwice m owner) ∧ Listed m := by
  have hfacts : (actorRun smallActor finalizedTwice).any (fun m =>
      didRaise (m.calls ⟨"a", 1⟩)) = true := by decide +kernel
  obtain ⟨m, hrun, hraised⟩ := (Option.any_eq_true _ _).mp hfacts
  exact ⟨m, hrun, hraised, every_session_is_finalized_once hrun⟩

/-! ### No active session is lost -/

/-- A call that waits to finalize or to abort a session. -/
def Closing (m : GatewayActor) (name object : CallName) : Prop :=
  m.calls name = some (.waiting object .finalize) ∨ m.calls name = some (.waiting object .abort)

/-- No session is created under an id for which a call still waits to close a session. -/
def NoneClosing (m : GatewayActor) (a : ActorAction) : Prop :=
  ∀ name samplingParams, a = .createSession name samplingParams →
    ∀ other object, Closing m other object → other.sessionId ≠ name.sessionId

/-- Every active session is in the table, and a call that waits to close a session finds that very
session under its id, or none. -/
structure Found (m : GatewayActor) : Prop where
  found : ∀ object o, m.objects object = some o → o.system.session.phase = .active →
    m.sessions object.sessionId = some object
  current : ∀ name object, Closing m name object →
    ∀ other, m.sessions name.sessionId = some other → other = object

theorem closing_of_update {name other object : CallName} {call : CallState}
    (hcalls : t.calls = Function.update m.calls name (some call))
    (hcall : call ≠ .waiting object .finalize ∧ call ≠ .waiting object .abort)
    (h : Closing t other object) : Closing m other object := by
  unfold Closing at h ⊢
  rw [hcalls] at h
  by_cases hsame : other = name
  · subst hsame
    simp [hcall] at h
  · rwa [Function.update_of_ne hsame] at h

/-- A session takes a step that leaves its phase alone, and the table stays as it is. -/
theorem Found.stepped (h : Found m) {object : CallName} {o : SessionObject} {system : System}
    (ho : m.objects object = some o)
    (hobjects : t.objects = Function.update m.objects object (some { o with system }))
    (hphase : system.session.phase = o.system.session.phase) (hsessions : t.sessions = m.sessions)
    (hclosing : ∀ name other, Closing t name other → Closing m name other) : Found t where
  found := by
    intro other o' hother hactive
    rw [hsessions]
    rcases objects_of_update hobjects hother with ⟨rfl, rfl⟩ | ⟨_, hold⟩
    · exact h.found other o ho (hphase.symm.trans hactive)
    · exact h.found other o' hold hactive
  current := by
    rw [hsessions]
    intro name other hother
    exact h.current name other (hclosing name other hother)

theorem found_step {a : ActorAction} (hreached : Reached cfg (fun _ _ => True) m) (h : Found m)
    (hcreate : NoneClosing m a) (hstep : GatewayActor.step cfg m a = some t) : Found t := by
  cases GatewayActor.step_effect hstep with
  | server _ url _ _ => exact ⟨h.found, h.current⟩
  | replied _ name r _ _ _ =>
    refine ⟨h.found, ?_⟩
    intro other object hother
    exact h.current other object (closing_of_update rfl (by simp) hother)
  | created name samplingParams session r hname hfree _ _ =>
    refine ⟨?_, ?_⟩
    · intro object o ho hactive
      rw [GatewayActor.reply_sessions, GatewayActor.register_sessions]
      rcases objects_of_update (GatewayActor.register_objects m name _) ho with
        ⟨rfl, _⟩ | ⟨_, hold⟩
      · exact Function.update_self _ _ _
      · have hentry := h.found object o hold hactive
        have hid : object.sessionId ≠ name.sessionId := by
          intro hid
          rw [hid, hfree] at hentry
          cases hentry
        rw [Function.update_of_ne hid]
        exact hentry
    · intro other object hother
      have hold := closing_of_update (m := m) rfl (by simp) hother
      have hid := hcreate name samplingParams rfl other object hold
      intro entry hentry
      rw [GatewayActor.reply_sessions, GatewayActor.register_sessions,
        Function.update_of_ne hid] at hentry
      exact h.current other object hold entry hentry
  | posted name object o route payload request form _ _ _ _ =>
    refine ⟨h.found, ?_⟩
    intro other object' hother
    exact h.current other object' (closing_of_update rfl (by simp) hother)
  | called name object method hname htable _ =>
    refine ⟨h.found, ?_⟩
    intro other object' hother entry hentry
    by_cases hsame : other = name
    · subst hsame
      cases htable.symm.trans hentry
      unfold Closing at hother
      simp only [GatewayActor.setCall_calls, Function.update_self, Option.some.injEq,
        CallState.waiting.injEq] at hother
      rcases hother with ⟨hobject, _⟩ | ⟨hobject, _⟩ <;> exact hobject
    · unfold Closing at hother
      rw [GatewayActor.setCall_calls, Function.update_of_ne hsame] at hother
      exact h.current other object' hother entry hentry
  | entered name object work o system _ hcall ho hsystem hnext =>
    have hclosing : ∀ other object', Closing t other object' → Closing m other object' := by
      intro other object' hother
      cases hnext <;> exact closing_of_update (m := m) rfl (by simp) hother
    rcases section_closes (hreached.coherent ho) hsystem hnext with
      ⟨hsessions, hphase⟩ | ⟨hwork, hsessions, hclosed⟩
    · exact h.stepped ho hnext.objects hphase hsessions hclosing
    · have hname : Closing m name object := by
        rcases hwork with rfl | rfl
        · exact Or.inl hcall
        · exact Or.inr hcall
      refine ⟨?_, ?_⟩
      · intro other o' hother hactive
        rw [hsessions, GatewayActor.setObject_sessions]
        rcases objects_of_update hnext.objects hother with ⟨rfl, rfl⟩ | ⟨hne, hold⟩
        · exact absurd hactive hclosed
        · have hentry := h.found other o' hold hactive
          have hid : other.sessionId ≠ name.sessionId := by
            intro hid
            rw [hid] at hentry
            exact hne (h.current name object hname other hentry)
          rw [Function.update_of_ne hid]
          exact hentry
      · intro other object' hother entry hentry
        rw [hsessions, GatewayActor.setObject_sessions] at hentry
        by_cases hid : other.sessionId = name.sessionId
        · simp [hid] at hentry
        · rw [Function.update_of_ne hid] at hentry
          exact h.current other object' (hclosing other object' hother) entry hentry
  | gaveUp name object request form o system _ ho hsystem =>
    have hphase := (phase_of_effect (step_effect (hreached.coherent ho) hsystem)).resolve_right
      (by simp)
    exact h.stepped ho rfl hphase rfl (fun _ _ => closing_of_update rfl (by simp))
  | proceeded name object requestId form progress o system _ ho hsystem =>
    exact h.stepped ho rfl (phase_of_proceed (hreached.coherent ho) hsystem) rfl
      (fun _ _ hclosing => hclosing)

/-- In every run in which no session is created under an id for which a call still waits to close
one, the table has exactly the sessions that are active: a session that the table lost is closed,
and a session that is closed is not in it. -/
theorem the_table_has_the_active_sessions {xs : List ActorAction} (hrun : actorRun cfg xs = some m)
    (hcreate : runs.Meets (GatewayActor.step cfg) NoneClosing {} xs) :
    ∀ object o, m.objects object = some o →
      (o.system.session.phase = .active ↔ m.sessions object.sessionId = some object) := by
  have hall : Wired cfg (fun _ _ _ => True) m ∧ Reached cfg (fun _ _ => True) m ∧ Listed m ∧
      Found m := by
    refine runs.run_invariant (fun s => Wired cfg (fun _ _ _ => True) s ∧
      Reached cfg (fun _ _ => True) s ∧ Listed s ∧ Found s) ?_ hrun hcreate
      ⟨wired_start, reached_start, by simp [Listed], by simp, by simp [Closing]⟩
    rintro s a u ⟨hwired, hreached, hlisted, hfound⟩ hnone hstep
    exact ⟨wired_step hwired (fun _ _ _ _ => trivial) hstep,
      hreached.step (fun _ _ _ _ _ => trivial) hstep, listed_step hwired hreached hlisted hstep,
      found_step hreached hfound hnone hstep⟩
  obtain ⟨_, _, hlisted, hfound⟩ := hall
  intro object o ho
  exact ⟨hfound.found object o ho, fun hentry => hlisted object.sessionId object o hentry ho⟩

theorem noneClosing_of_ne {a : ActorAction}
    (h : ∀ name samplingParams, a ≠ .createSession name samplingParams) : NoneClosing m a :=
  fun name samplingParams ha => absurd ha (h name samplingParams)

theorem the_table_has_the_active_sessions_finalizedTwice : ∃ m o o',
    actorRun smallActor finalizedTwice = some m ∧ m.objects ⟨"a", 0⟩ = some o ∧
      m.objects ⟨"b", 0⟩ = some o' ∧ o.system.session.phase = .finalized ∧
      o'.system.session.phase = .active ∧
      (o.system.session.phase = .active ↔ m.sessions "a" = some ⟨"a", 0⟩) ∧
      (o'.system.session.phase = .active ↔ m.sessions "b" = some ⟨"b", 0⟩) := by
  have hfacts : (actorRun smallActor finalizedTwice).any (fun m =>
      (m.objects ⟨"a", 0⟩).any (fun o => o.system.session.phase == .finalized) &&
        (m.objects ⟨"b", 0⟩).any (fun o => o.system.session.phase == .active)) = true := by
    decide +kernel
  obtain ⟨m, hrun, hm⟩ := (Option.any_eq_true _ _).mp hfacts
  obtain ⟨hfinalized, hactive⟩ := Bool.and_eq_true_iff.mp hm
  obtain ⟨o, ho, hphase⟩ := (Option.any_eq_true _ _).mp hfinalized
  obtain ⟨o', ho', hphase'⟩ := (Option.any_eq_true _ _).mp hactive
  have hcreate : runs.Meets (GatewayActor.step smallActor) NoneClosing {} finalizedTwice := by
    refine ⟨noneClosing_of_ne (by simp), ?_⟩
    rintro _ ⟨⟩
    refine ⟨by simp [NoneClosing, Closing], ?_⟩
    intro s hs
    -- Only the call that created the first session is there, and it has been answered.
    have hquiet : ∀ other object, ¬ Closing s other object := by
      intro other object hother
      cases hs
      exact absurd (closing_of_update (m := {}) rfl (by simp) hother) (by simp [Closing])
    refine ⟨fun name samplingParams _ other object hother =>
      absurd hother (hquiet other object), ?_⟩
    intro t _
    apply (runs.meets_of_forall (Q := fun a => ∀ name samplingParams,
      a ≠ ActorAction.createSession name samplingParams) (by simp)).imp
    exact fun _ _ => noneClosing_of_ne
  have hlaw := the_table_has_the_active_sessions hrun hcreate
  exact ⟨m, o, o', hrun, ho, ho', by simpa using hphase, by simpa using hphase', hlaw _ o ho,
    hlaw _ o' ho'⟩

/-- Two calls abort a session, and its id is used again between them. The second one finds the old
session aborted, and takes the new one out of the table. -/
def lateAbort : List ActorAction :=
  [.start "http://gateway", .createSession ⟨"a", 0⟩ none, .callMethod ⟨"a", 1⟩ .abortSession,
    .callMethod ⟨"a", 2⟩ .abortSession, .enter ⟨"a", 1⟩, .createSession ⟨"a", 3⟩ none,
    .enter ⟨"a", 2⟩]

theorem a_late_abort_loses_a_new_session : ∃ m o, actorRun smallActor lateAbort = some m ∧
    m.objects ⟨"a", 3⟩ = some o ∧ o.system.session.phase = .active ∧ m.sessions "a" = none := by
  have hfacts : (actorRun smallActor lateAbort).any (fun m => (m.objects ⟨"a", 3⟩).any (fun o =>
      o.system.session.phase == .active && (m.sessions "a").isNone)) = true := by decide +kernel
  obtain ⟨m, hrun, hm⟩ := (Option.any_eq_true _ _).mp hfacts
  obtain ⟨o, ho, hlost⟩ := (Option.any_eq_true _ _).mp hm
  simp only [Bool.and_eq_true, beq_iff_eq, Option.isNone_iff_eq_none] at hlost
  exact ⟨m, o, hrun, ho, hlost.1, hlost.2⟩

end uni_agent.gateway
