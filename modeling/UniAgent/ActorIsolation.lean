-- The sessions of one actor are isolated. What the clients of a session id see of it, its entry,
-- its objects and its calls with their replies, is what they would see if nobody used another id.
import UniAgent.ActorSessions

namespace uni_agent.gateway

open session (GatewaySession System)

variable {cfg : ActorSettings} {m t : GatewayActor}

/-! ## States that look alike -/

/-- Two states that look alike to the clients of one session id. -/
structure Alike (sessionId : String) (m m' : GatewayActor) : Prop where
  server : m.serverBaseUrl = m'.serverBaseUrl
  table : m.sessions sessionId = m'.sessions sessionId
  objects : ∀ name, name.sessionId = sessionId → m.objects name = m'.objects name
  calls : ∀ name, name.sessionId = sessionId → m.calls name = m'.calls name

theorem alike_refl (sessionId : String) (m : GatewayActor) : Alike sessionId m m :=
  ⟨rfl, rfl, fun _ _ => rfl, fun _ _ => rfl⟩

theorem Alike.trans {sessionId : String} {m₁ m₂ m₃ : GatewayActor} (h : Alike sessionId m₁ m₂)
    (h' : Alike sessionId m₂ m₃) : Alike sessionId m₁ m₃ :=
  ⟨h.server.trans h'.server, h.table.trans h'.table,
    fun name hname => (h.objects name hname).trans (h'.objects name hname),
    fun name hname => (h.calls name hname).trans (h'.calls name hname)⟩

section

variable {sessionId : String} {m' : GatewayActor} {name object : CallName}

theorem Alike.setCall (h : Alike sessionId m m') (call : CallState) :
    Alike sessionId (m.setCall name call) (m'.setCall name call) := by
  refine ⟨h.server, h.table, h.objects, ?_⟩
  intro other hother
  rw [GatewayActor.setCall_calls, GatewayActor.setCall_calls]
  by_cases hsame : other = name
  · subst hsame
    rw [Function.update_self, Function.update_self]
  · rw [Function.update_of_ne hsame, Function.update_of_ne hsame]
    exact h.calls other hother

theorem Alike.reply (h : Alike sessionId m m') (r : Reply) :
    Alike sessionId (m.reply name r) (m'.reply name r) := h.setCall _

theorem Alike.setObject (h : Alike sessionId m m') (o : SessionObject) :
    Alike sessionId (m.setObject object o) (m'.setObject object o) := by
  refine ⟨h.server, h.table, ?_, h.calls⟩
  intro other hother
  rw [GatewayActor.setObject_objects, GatewayActor.setObject_objects]
  by_cases hsame : other = object
  · subst hsame
    rw [Function.update_self, Function.update_self]
  · rw [Function.update_of_ne hsame, Function.update_of_ne hsame]
    exact h.objects other hother

theorem Alike.pop (h : Alike sessionId m m') :
    Alike sessionId (m.pop sessionId) (m'.pop sessionId) := by
  refine ⟨h.server, ?_, h.objects, h.calls⟩
  rw [GatewayActor.pop_sessions, GatewayActor.pop_sessions, Function.update_self,
    Function.update_self]

theorem Alike.register (h : Alike sessionId m m') (hname : name.sessionId = sessionId)
    (o : SessionObject) : Alike sessionId (m.register name o) (m'.register name o) := by
  have hset : Alike sessionId (m.setObject name o) (m'.setObject name o) := h.setObject o
  refine ⟨hset.server, ?_, hset.objects, hset.calls⟩
  rw [GatewayActor.register_sessions, GatewayActor.register_sessions, hname, Function.update_self,
    Function.update_self]

theorem Alike.get {P : String → Route → Json → Prop} (h : Alike sessionId m m')
    (hwired : Wired cfg P m) : m.get sessionId = m'.get sessionId := by
  unfold GatewayActor.get
  rw [← h.table]
  cases hentry : m.sessions sessionId with
  | none => rfl
  | some object =>
    simp only [Option.bind_some]
    rw [h.objects object (hwired.table sessionId object hentry).1]

theorem Alike.createSession (h : Alike sessionId m m') (hname : name.sessionId = sessionId)
    (samplingParams : Option Dict) : Alike sessionId (m.createSession cfg name samplingParams)
      (m'.createSession cfg name samplingParams) := by
  unfold GatewayActor.createSession
  rw [← h.server, hname, ← h.table]
  cases m.serverBaseUrl with
  | none => exact h.reply _
  | some url =>
    cases m.sessions sessionId with
    | some entry => exact h.reply _
    | none =>
      cases hnew : GatewaySession.create sessionId cfg.promptLength cfg.responseLength
          cfg.enableLastAssistantRollback with
      | error e =>
        dsimp only
        exact h.reply _
      | ok session =>
        dsimp only
        exact (h.register hname _).reply _

theorem Alike.post {P : String → Route → Json → Prop} (h : Alike sessionId m m')
    (hwired : Wired cfg P m) (hname : name.sessionId = sessionId) (route : Route)
    (payload : Option Json) :
    Alike sessionId (m.post cfg name route payload) (m'.post cfg name route payload) := by
  cases payload with
  | none => exact h.reply _
  | some payload =>
    unfold GatewayActor.post
    rw [hname, ← h.get hwired]
    cases m.get sessionId with
    | none => exact h.reply _
    | some found =>
      dsimp only
      split
      · exact h.reply _
      · exact h.setCall _

theorem Alike.callMethod {P : String → Route → Json → Prop} (h : Alike sessionId m m')
    (hwired : Wired cfg P m) (hname : name.sessionId = sessionId) (method : Method) :
    Alike sessionId (m.callMethod cfg name method) (m'.callMethod cfg name method) := by
  unfold GatewayActor.callMethod
  rw [hname, ← h.get hwired]
  cases m.get sessionId with
  | none => cases method <;> exact h.reply _
  | some found => exact h.setCall _

theorem Alike.afterSection (h : Alike sessionId m m') (hname : name.sessionId = sessionId)
    (before : System) (work : Work) : Alike sessionId (m.afterSection name object before work)
      (m'.afterSection name object before work) := by
  cases work with
  | generate request form => exact h.setCall _
  | setRewardInfo rewardInfo =>
    unfold GatewayActor.afterSection
    dsimp only
    split <;> exact h.reply _
  | finalize =>
    unfold GatewayActor.afterSection
    dsimp only
    split
    · rw [hname]
      exact h.pop.reply _
    · exact h.reply _
  | abort =>
    unfold GatewayActor.afterSection
    dsimp only
    split
    · rw [hname]
      exact h.pop.reply _
    · exact h.reply _

theorem Alike.stepObject (h : Alike sessionId m m') {o : SessionObject} {b : session.Action}
    (hstep : m.stepObject cfg object o b = some t) :
    ∃ t', m'.stepObject cfg object o b = some t' ∧ Alike sessionId t t' := by
  unfold GatewayActor.stepObject at hstep ⊢
  obtain ⟨system, hsystem, rfl⟩ := Option.map_eq_some_iff.mp hstep
  exact ⟨_, by rw [hsystem]; rfl, h.setObject _⟩

end

/-! ## Steps -/

/-- An action for an id does the same in every state that looks alike to it. -/
theorem Alike.step {sessionId : String} {m' : GatewayActor} {a : ActorAction}
    (h : Alike sessionId m m') (hwired : Wired cfg (fun _ _ _ => True) m)
    (hid : a.sessionId? = none ∨ a.sessionId? = some sessionId)
    (hstep : GatewayActor.step cfg m a = some t) :
    ∃ t', GatewayActor.step cfg m' a = some t' ∧ Alike sessionId t t' := by
  have hbegin : ∀ {name : CallName} {next next' : GatewayActor}, name.sessionId = sessionId →
      m.begin name next = some t → Alike sessionId next next' →
        ∃ t', m'.begin name next' = some t' ∧ Alike sessionId t t' := by
    intro name next next' hname hnext halike
    obtain ⟨hfresh, rfl⟩ := GatewayActor.begin_eq_some.mp hnext
    exact ⟨next', GatewayActor.begin_eq_some.mpr ⟨(h.calls name hname).symm.trans hfresh, rfl⟩,
      halike⟩
  have hown : ∀ {name : CallName}, some name.sessionId = none ∨
      some name.sessionId = some sessionId → name.sessionId = sessionId := by
    rintro name (hnone | hsome)
    · cases hnone
    · exact Option.some.inj hsome
  -- The object of a call of the id is one of the id, and so it is the same in both states.
  have hobject : ∀ {name object : CallName} {call : CallState}, name.sessionId = sessionId →
      m.calls name = some call → call.object? = some object →
        m.objects object = m'.objects object := by
    intro name object call hname hcall hheld
    exact h.objects object ((hwired.held name call object hcall hheld).1.trans hname)
  cases a with
  | start url =>
    cases hstep
    refine ⟨_, rfl, ?_⟩
    rw [← h.server]
    exact ⟨rfl, h.table, h.objects, h.calls⟩
  | shutdown =>
    cases hstep
    exact ⟨_, rfl, rfl, h.table, h.objects, h.calls⟩
  | createSession name samplingParams =>
    exact hbegin (hown hid) hstep (h.createSession (hown hid) samplingParams)
  | post name route payload =>
    exact hbegin (hown hid) hstep (h.post hwired (hown hid) route payload)
  | callMethod name method => exact hbegin (hown hid) hstep (h.callMethod hwired (hown hid) method)
  | enter name =>
    unfold GatewayActor.step at hstep ⊢
    dsimp only at hstep ⊢
    rw [← h.calls name (hown hid)]
    cases hcall : m.calls name with
    | none => simp [hcall] at hstep
    | some call =>
      cases call with
      | waiting object work =>
        simp only [hcall] at hstep ⊢
        unfold GatewayActor.enter at hstep ⊢
        rw [← hobject (hown hid) hcall rfl]
        obtain ⟨o, ho, hstep⟩ := Option.bind_eq_some_iff.mp hstep
        obtain ⟨next, hnext, hstep⟩ := Option.bind_eq_some_iff.mp hstep
        obtain ⟨next', hnext', halike⟩ := h.stepObject hnext
        cases hstep
        exact ⟨_, by simp [ho, hnext'], halike.afterSection (hown hid) _ _⟩
      | serving | answered => simp [hcall] at hstep
  | giveUp name =>
    unfold GatewayActor.step at hstep ⊢
    dsimp only at hstep ⊢
    rw [← h.calls name (hown hid)]
    cases hcall : m.calls name with
    | none => simp [hcall] at hstep
    | some call =>
      cases call with
      | waiting object work =>
        simp only [hcall] at hstep ⊢
        unfold GatewayActor.giveUp at hstep ⊢
        rw [← hobject (hown hid) hcall rfl]
        obtain ⟨o, ho, hstep⟩ := Option.bind_eq_some_iff.mp hstep
        cases work with
        | generate request form =>
          obtain ⟨next, hnext, hstep⟩ := Option.bind_eq_some_iff.mp hstep
          obtain ⟨next', hnext', halike⟩ := h.stepObject hnext
          cases hstep
          exact ⟨_, by simp [ho, hnext'], halike.reply _⟩
        | setRewardInfo | finalize | abort =>
          cases hstep
          exact ⟨_, by simp [ho], h.reply _⟩
      | serving | answered => simp [hcall] at hstep
  | proceed name progress =>
    unfold GatewayActor.step at hstep ⊢
    dsimp only at hstep ⊢
    rw [← h.calls name (hown hid)]
    cases hcall : m.calls name with
    | none => simp [hcall] at hstep
    | some call =>
      cases call with
      | serving object requestId form =>
        simp only [hcall] at hstep ⊢
        unfold GatewayActor.proceed at hstep ⊢
        rw [← hobject (hown hid) hcall rfl]
        obtain ⟨o, ho, hstep⟩ := Option.bind_eq_some_iff.mp hstep
        obtain ⟨next', hnext', halike⟩ := h.stepObject hstep
        exact ⟨next', by simp [ho, hnext'], halike⟩
      | waiting | answered => simp [hcall] at hstep
  | respond name id created =>
    unfold GatewayActor.step at hstep ⊢
    dsimp only at hstep ⊢
    rw [← h.calls name (hown hid)]
    cases hcall : m.calls name with
    | none => simp [hcall] at hstep
    | some call =>
      cases call with
      | serving object requestId form =>
        simp only [hcall] at hstep ⊢
        unfold GatewayActor.respond at hstep ⊢
        rw [← hobject (hown hid) hcall rfl]
        obtain ⟨o, ho, hstep⟩ := Option.bind_eq_some_iff.mp hstep
        obtain ⟨result, hresult, hstep⟩ := Option.bind_eq_some_iff.mp hstep
        cases hstep
        exact ⟨_, by simp [ho, hresult], h.reply _⟩
      | waiting | answered => simp [hcall] at hstep

/-- A call for another id, and an object of another id, change nothing that looks alike. -/
theorem alike_of_other {sessionId : String} {name object : CallName}
    (hname : name.sessionId ≠ sessionId) (hobject : object.sessionId ≠ sessionId)
    (hserver : t.serverBaseUrl = m.serverBaseUrl)
    (htable : t.sessions sessionId = m.sessions sessionId)
    (hobjects : t.objects = m.objects ∨ ∃ o, t.objects = Function.update m.objects object (some o))
    (hcalls : t.calls = m.calls ∨ ∃ call, t.calls = Function.update m.calls name (some call)) :
    Alike sessionId t m := by
  refine ⟨hserver, htable, ?_, ?_⟩
  · intro other hother
    rcases hobjects with heq | ⟨o, heq⟩
    · rw [heq]
    · rw [heq, Function.update_of_ne]
      rintro rfl
      exact hobject hother
  · intro other hother
    rcases hcalls with heq | ⟨call, heq⟩
    · rw [heq]
    · rw [heq, Function.update_of_ne]
      rintro rfl
      exact hname hother

/-- An action for another id changes nothing that looks alike. -/
theorem alike_of_step {sessionId other : String} {a : ActorAction}
    (hwired : Wired cfg (fun _ _ _ => True) m) (hid : a.sessionId? = some other)
    (hne : other ≠ sessionId) (hstep : GatewayActor.step cfg m a = some t) :
    Alike sessionId t m := by
  have hheld : ∀ {name object : CallName} {call : CallState}, name.sessionId ≠ sessionId →
      m.calls name = some call → call.object? = some object → object.sessionId ≠ sessionId := by
    intro name object call hname hcall hobject
    rw [(hwired.held name call object hcall hobject).1]
    exact hname
  cases GatewayActor.step_effect hstep with
  | server _ url hnone _ => cases hnone.symm.trans hid
  | replied _ name r hname _ _ =>
    have hother : name.sessionId ≠ sessionId := by
      cases hid.symm.trans hname
      exact hne
    exact alike_of_other hother hother rfl rfl (Or.inl rfl) (Or.inr ⟨_, rfl⟩)
  | created name samplingParams session r _ _ _ _ =>
    cases hid
    refine alike_of_other hne hne rfl ?_ (Or.inr ⟨_, rfl⟩) (Or.inr ⟨_, rfl⟩)
    rw [GatewayActor.reply_sessions, GatewayActor.register_sessions,
      Function.update_of_ne (Ne.symm hne)]
  | posted name object o route payload request form _ _ _ _ =>
    cases hid
    exact alike_of_other hne hne rfl rfl (Or.inl rfl) (Or.inr ⟨_, rfl⟩)
  | called name object method _ _ _ =>
    cases hid
    exact alike_of_other hne hne rfl rfl (Or.inl rfl) (Or.inr ⟨_, rfl⟩)
  | entered name object work o system _ hcall ho _ hnext =>
    cases hid
    have hobject := hheld hne hcall rfl
    have hobjects := hnext.objects
    cases hnext with
    | serving request form =>
      exact alike_of_other hne hobject rfl rfl (Or.inr ⟨_, hobjects⟩) (Or.inr ⟨_, rfl⟩)
    | answered _ r _ _ _ _ =>
      exact alike_of_other hne hobject rfl rfl (Or.inr ⟨_, hobjects⟩) (Or.inr ⟨_, rfl⟩)
    | finalized trajectories s _ =>
      refine alike_of_other hne hobject rfl ?_ (Or.inr ⟨_, hobjects⟩) (Or.inr ⟨_, rfl⟩)
      rw [GatewayActor.reply_sessions, GatewayActor.pop_sessions,
        Function.update_of_ne (Ne.symm hne)]
      rfl
    | aborted s _ =>
      refine alike_of_other hne hobject rfl ?_ (Or.inr ⟨_, hobjects⟩) (Or.inr ⟨_, rfl⟩)
      rw [GatewayActor.reply_sessions, GatewayActor.pop_sessions,
        Function.update_of_ne (Ne.symm hne)]
      rfl
  | gaveUp name object request form o system hcall ho _ =>
    cases hid
    exact alike_of_other hne (hheld hne hcall rfl) rfl rfl (Or.inr ⟨_, rfl⟩) (Or.inr ⟨_, rfl⟩)
  | proceeded name object requestId form progress o system hcall ho _ =>
    cases hid
    exact alike_of_other hne (hheld hne hcall rfl) rfl rfl (Or.inr ⟨_, rfl⟩) (Or.inl rfl)

/-! ## Runs -/

/-- The actions for an id, and those for the whole actor. -/
def isFor (sessionId : String) (a : ActorAction) : Bool := a.sessionId?.all (· == sessionId)

theorem isFor_iff {sessionId : String} {a : ActorAction} : isFor sessionId a = true ↔
    a.sessionId? = none ∨ a.sessionId? = some sessionId := by
  unfold isFor
  cases a.sessionId? <;> simp

/-- Noninterference. When all the actions for other ids are left out of a run, what is left is a
run, and it ends with the same entry, the same objects and the same calls and replies for the id. -/
theorem sessions_are_isolated (sessionId : String) {xs : List ActorAction}
    (hrun : actorRun cfg xs = some m) : ∃ m', actorRun cfg (xs.filter (isFor sessionId)) = some m' ∧
      m.sessions sessionId = m'.sessions sessionId ∧
      ∀ name, name.sessionId = sessionId →
        m.objects name = m'.objects name ∧ m.calls name = m'.calls name := by
  have hsimulation : ∃ m', runs.run (GatewayActor.step cfg) {} (runs.collect (GatewayActor.step cfg)
      (fun _ a => if isFor sessionId a then [a] else []) {} xs) = some m' ∧
        Wired cfg (fun _ _ _ => True) m ∧ Alike sessionId m m' := by
    apply runs.run_simulation
      (R := fun s s' => Wired cfg (fun _ _ _ => True) s ∧ Alike sessionId s s') _ hrun
      ⟨wired_start, alike_refl sessionId _⟩
    rintro s a u s' ⟨hwired, halike⟩ hstep
    have hnext := wired_step hwired (fun _ _ _ _ => trivial) hstep
    by_cases hfor : isFor sessionId a = true
    · obtain ⟨u', hu', halike'⟩ := halike.step hwired (isFor_iff.mp hfor) hstep
      refine ⟨u', ?_, hnext, halike'⟩
      rw [if_pos hfor, runs.run_cons]
      exact ⟨u', hu', rfl⟩
    · refine ⟨s', by rw [if_neg hfor]; rfl, hnext, ?_⟩
      obtain ⟨other, hother⟩ : ∃ other, a.sessionId? = some other := by
        rw [← Option.isSome_iff_exists, ← Option.ne_none_iff_isSome]
        exact fun hnone => hfor (isFor_iff.mpr (Or.inl hnone))
      have hne : other ≠ sessionId := by
        rintro rfl
        exact hfor (isFor_iff.mpr (Or.inr hother))
      exact (alike_of_step hwired hother hne hstep).trans halike
  obtain ⟨m', hm', _, halike⟩ := hsimulation
  rw [runs.collect_ite _ hrun] at hm'
  exact ⟨m', hm', halike.table, fun name hname =>
    ⟨halike.objects name hname, halike.calls name hname⟩⟩

def isAnswer : Option CallState → Bool
  | some (.answered (.answer answer)) => answer.statusCode == 200
  | _ => false

theorem sessions_are_isolated_twoClients : ∃ m m', actorRun smallActor twoClients = some m ∧
    actorRun smallActor (twoClients.filter (isFor "a")) = some m' ∧
      isAnswer (m.calls ⟨"a", 1⟩) = true ∧ m.calls ⟨"a", 1⟩ = m'.calls ⟨"a", 1⟩ := by
  have hfacts : (actorRun smallActor twoClients).any (fun m =>
      isAnswer (m.calls ⟨"a", 1⟩)) = true := by decide +kernel
  obtain ⟨m, hrun, hanswer⟩ := (Option.any_eq_true _ _).mp hfacts
  obtain ⟨m', hrun', _, halike⟩ := sessions_are_isolated "a" hrun
  exact ⟨m, m', hrun, hrun', hanswer, (halike ⟨"a", 1⟩ rfl).2⟩

end uni_agent.gateway
