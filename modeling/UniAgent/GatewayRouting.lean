-- When the routes and the counters of the gateway manager agree: exactly as long as every call
-- that ends finds the route that it is about in its place, and no id is created while it has one.
import UniAgent.GatewayManager

namespace uni_agent.gateway

namespace GatewayManager

/-! ## The routes -/

theorem lookup_popRoute (routes : List (String × Nat)) (sessionId other : String) :
    (popRoute routes sessionId).lookup other =
      if other = sessionId then none else routes.lookup other := by
  induction routes with
  | nil => simp [popRoute]
  | cons r routes ih =>
    obtain ⟨key, gatewayIndex⟩ := r
    unfold popRoute at ih ⊢
    rw [List.filter_cons]
    by_cases hkey : key = sessionId
    · subst hkey
      simp only [bne_self_eq_false, Bool.false_eq_true, if_false, ih, List.lookup_cons]
      by_cases hother : other = key
      · rw [if_pos hother, if_pos hother]
      · rw [if_neg hother, if_neg hother, beq_false_of_ne hother]
    · simp only [bne_iff_ne.mpr hkey, if_true, List.lookup_cons, ih]
      by_cases hother : other = key
      · have hne : other ≠ sessionId := hother ▸ hkey
        simp [hother, hkey]
      · rw [beq_false_of_ne hother]

theorem lookup_setRoute (routes : List (String × Nat)) (sessionId other : String)
    (gatewayIndex : Nat) : (setRoute routes sessionId gatewayIndex).lookup other =
      if other = sessionId then some gatewayIndex else routes.lookup other := by
  unfold setRoute
  rw [List.lookup_append, lookup_popRoute]
  by_cases hother : other = sessionId
  · simp [hother]
  · have hnone : List.lookup other [(sessionId, gatewayIndex)] = none := by
      simp only [List.lookup_cons, beq_false_of_ne hother, List.lookup_nil]
    rw [if_neg hother, if_neg hother, hnone, Option.or_none]

theorem nodup_popRoute {routes : List (String × Nat)} (h : (routes.map Prod.fst).Nodup)
    (sessionId : String) : ((popRoute routes sessionId).map Prod.fst).Nodup :=
  (List.filter_sublist.map Prod.fst).nodup h

theorem nodup_setRoute {routes : List (String × Nat)} (h : (routes.map Prod.fst).Nodup)
    (sessionId : String) (gatewayIndex : Nat) :
    ((setRoute routes sessionId gatewayIndex).map Prod.fst).Nodup := by
  unfold setRoute
  rw [List.map_append, List.nodup_append]
  refine ⟨nodup_popRoute h sessionId, by simp, ?_⟩
  intro key hkey other hother
  obtain ⟨r, hr, rfl⟩ := List.mem_map.mp hkey
  have hne := (List.mem_filter.mp hr).2
  simp only [List.map_cons, List.map_nil, List.mem_singleton] at hother
  rw [hother]
  exact bne_iff_ne.mp hne

/-- A route that is popped was counted once. -/
theorem countP_popRoute {routes : List (String × Nat)} (h : (routes.map Prod.fst).Nodup)
    (sessionId : String) (gatewayIndex : Nat) :
    (popRoute routes sessionId).countP (fun r => r.2 == gatewayIndex) +
      (if routes.lookup sessionId = some gatewayIndex then 1 else 0) =
        routes.countP (fun r => r.2 == gatewayIndex) := by
  induction routes with
  | nil => simp [popRoute]
  | cons r routes ih =>
    obtain ⟨key, index⟩ := r
    rw [List.map_cons, List.nodup_cons] at h
    have hrest := ih h.2
    unfold popRoute at hrest ⊢
    rw [List.filter_cons, List.countP_cons, List.lookup_cons]
    by_cases hkey : key = sessionId
    · subst hkey
      have hnone : routes.lookup key = none := by
        rw [List.lookup_eq_none_iff]
        intro r hr
        apply bne_iff_ne.mpr
        rintro rfl
        exact h.1 (List.mem_map.mpr ⟨r, hr, rfl⟩)
      rw [hnone] at hrest
      simp only [bne_self_eq_false, Bool.false_eq_true, if_false, beq_self_eq_true]
      simp only [reduceCtorEq, if_false, Nat.add_zero] at hrest
      by_cases hindex : index = gatewayIndex
      · simp [hindex, hrest]
      · simp [hindex, hrest]
    · have hother : (sessionId == key) = false := beq_false_of_ne (Ne.symm hkey)
      simp only [bne_iff_ne.mpr hkey, if_true, hother, List.countP_cons]
      omega

theorem countP_setRoute {routes : List (String × Nat)} (h : (routes.map Prod.fst).Nodup)
    (sessionId : String) (index gatewayIndex : Nat) :
    (setRoute routes sessionId index).countP (fun r => r.2 == gatewayIndex) +
      (if routes.lookup sessionId = some gatewayIndex then 1 else 0) =
        routes.countP (fun r => r.2 == gatewayIndex) + (if index = gatewayIndex then 1 else 0) := by
  have hpop := countP_popRoute h sessionId gatewayIndex
  unfold setRoute
  rw [List.countP_append, List.countP_singleton]
  by_cases hindex : index = gatewayIndex
  · simp only [hindex, beq_self_eq_true, if_true]
    omega
  · simp only [beq_false_of_ne hindex, Bool.false_eq_true, if_false, if_neg hindex]
    omega

theorem getElem?_addActive (active : List Int) (gatewayIndex g : Nat) (change : Int) :
    (addActive active gatewayIndex change)[g]? =
      (active[g]?).map (fun count => if gatewayIndex = g then count + change else count) := by
  unfold addActive
  rw [List.getElem?_modify]
  cases active[g]? with
  | none => rfl
  | some count => by_cases h : gatewayIndex = g <;> simp [h]

theorem mem_of_leastLoaded {active : List Int} {indices : List Nat} {index : Nat}
    (h : leastLoaded active indices = some index) : index ∈ indices := by
  induction indices generalizing index with
  | nil => cases h
  | cons first rest ih =>
    unfold leastLoaded at h
    cases hbest : leastLoaded active rest with
    | none =>
      simp only [hbest] at h
      cases h
      simp
    | some best =>
      simp only [hbest] at h
      split at h
      · cases h
        exact List.mem_cons_of_mem _ (ih hbest)
      · cases h
        simp

/-! ## What a step does -/

/-- An action after which no counter and no route is different. -/
def Quiet : Action → Prop
  | .createSession _ | .reply _ | .interrupt _ => False
  | _ => True

/-- The shapes of a step. -/
inductive Effect (m : GatewayManager) : Action → GatewayManager → Prop where
  | called (sessionId : String) (gatewayIndex : Nat)
      (hindex : gatewayIndex < m.activeSessionsPerGateway.length) :
      Effect m (.createSession sessionId) (m.reserve sessionId gatewayIndex)
  | unknown {a : Action} (ha : Quiet a) : Effect m a m
  | routed {a : Action} (operation : Operation) (hoperation : operation ≠ .create)
      (sessionId : String) (ha : a = .finalizeSession sessionId ∨ a = .abortSession sessionId)
      (gatewayIndex : Nat) (hroute : m.route sessionId = some gatewayIndex) :
      Effect m a
        { m with calls := m.calls ++ [⟨operation, sessionId, gatewayIndex, .sent, none⟩] }
  | carried {a : Action} (ha : Quiet a) (i : Nat) (call : Call) (hcall : m.calls[i]? = some call)
      (hremote : ∀ ok, call.remote ≠ .replied ok) (sessions : List String) (remote : Remote)
      (hadded : ∀ id ∈ sessions, id ∈ m.sessionsOf call.gatewayIndex ∨
        call.operation = .create ∧ id = call.sessionId)
      (hgone : remote = .replied true → call.operation ≠ .create → call.sessionId ∉ sessions) :
      Effect m a (m.carryOut i call sessions remote)
  | replied (i : Nat) (call : Call) (ok : Bool) (hcall : m.calls[i]? = some call)
      (hreturned : call.returned = none) (hremote : call.remote = .replied ok) :
      Effect m (.reply i) (m.endCall i call ok)
  | interrupted (i : Nat) (call : Call) (hcall : m.calls[i]? = some call)
      (hreturned : call.returned = none) :
      Effect m (.interrupt i) (m.endCall i call false)

theorem quiet_of_routed {a : Action} {sessionId : String}
    (ha : a = .finalizeSession sessionId ∨ a = .abortSession sessionId) : Quiet a := by
  rcases ha with rfl | rfl <;> trivial

theorem effect_of_routeCall {m : GatewayManager} {a : Action} {operation : Operation}
    (hoperation : operation ≠ .create) {sessionId : String}
    (ha : a = .finalizeSession sessionId ∨ a = .abortSession sessionId) :
    Effect m a (m.routeCall operation sessionId) := by
  unfold routeCall
  cases hroute : m.route sessionId with
  | none => exact .unknown (quiet_of_routed ha)
  | some gatewayIndex => exact .routed operation hoperation sessionId ha gatewayIndex hroute

theorem effect_of_startCall {m : GatewayManager} {a : Action} (ha : Quiet a) {i : Nat} {call : Call}
    (hcall : m.calls[i]? = some call) (hsent : call.remote = .sent) (ok : Bool) :
    Effect m a (m.startCall i call ok) := by
  have hremote : ∀ ok, call.remote ≠ .replied ok := by simp [hsent]
  have hsame : ∀ id ∈ m.sessionsOf call.gatewayIndex, id ∈ m.sessionsOf call.gatewayIndex ∨
      call.operation = .create ∧ id = call.sessionId := fun _ hid => Or.inl hid
  unfold startCall
  cases hoperation : call.operation with
  | create =>
    dsimp only
    split
    · exact .carried ha i call hcall hremote _ _ hsame (by simp)
    · refine .carried ha i call hcall hremote _ _ ?_ (by simp [hoperation])
      intro id hid
      rcases List.mem_append.mp hid with hold | hnew
      · exact Or.inl hold
      · exact Or.inr ⟨hoperation, List.mem_singleton.mp hnew⟩
  | finalize =>
    refine .carried ha i call hcall hremote _ _ hsame ?_
    split <;> simp
  | abort =>
    refine .carried ha i call hcall hremote _ _ hsame ?_
    split
    · simp
    · intro _ _ hheld
      simp_all

theorem effect_of_step {m m' : GatewayManager} {a : Action} (h : m.step a = some m') :
    Effect m a m' := by
  cases a with
  | createSession sessionId =>
    obtain ⟨gatewayIndex, hindex, rfl⟩ := Option.map_eq_some_iff.mp h
    exact .called sessionId gatewayIndex (List.mem_range.mp (mem_of_leastLoaded hindex))
  | finalizeSession sessionId =>
    cases h
    exact effect_of_routeCall (by simp) (Or.inl rfl)
  | abortSession sessionId =>
    cases h
    exact effect_of_routeCall (by simp) (Or.inr rfl)
  | start i ok =>
    simp only [step] at h
    split at h
    · rename_i call hcall
      split at h
      · cases h
        exact effect_of_startCall (by trivial) hcall ‹_› ok
      · cases h
    · cases h
  | finish i ok =>
    simp only [step] at h
    split at h
    · rename_i call hcall
      split at h
      · rename_i hrunning
        cases h
        refine .carried (by trivial) i call hcall (by simp [hrunning]) _ _ ?_ ?_
        · intro id hid
          split at hid
          · exact Or.inl (List.mem_of_mem_filter hid)
          · exact Or.inl hid
        · intro hok _
          cases hok
          simp
      · cases h
    · cases h
  | reply i =>
    simp only [step] at h
    split at h
    · rename_i call hcall
      split at h
      · rename_i ok hreturned hremote
        cases h
        exact .replied i call ok hcall hreturned hremote
      · cases h
    · cases h
  | interrupt i =>
    simp only [step] at h
    split at h
    · rename_i call hcall
      split at h
      · cases h
        exact .interrupted i call hcall ‹_›
      · cases h
    · cases h

/-! ## The bookkeeping -/

/-- Call `i` creates the session on the gateway, and no later call creates one of this id. -/
def LatestCreate (calls : List Call) (i : Nat) (sessionId : String) (gatewayIndex : Nat) : Prop :=
  (calls.map Call.place)[i]? = some (.create, sessionId, gatewayIndex) ∧
    ∀ j, i < j → ∀ g, (calls.map Call.place)[j]? ≠ some (.create, sessionId, g)

/-- The session that call `i` creates is routed to its gateway. -/
def HasRoute (m : GatewayManager) (i : Nat) (sessionId : String) (gatewayIndex : Nat) : Prop :=
  LatestCreate m.calls i sessionId gatewayIndex ∧ m.route sessionId = some gatewayIndex

/-- The counter of each gateway is the number of sessions that are routed to it. -/
def Agrees (m : GatewayManager) : Prop :=
  ∀ (g : Nat) (count : Int), m.activeSessionsPerGateway[g]? = some count → 0 ≤ count ∧
    count = m.routedTo g

/-- A routed id with no create in flight leads to the gateway that carried out its latest
successful create. -/
def PointsToLatest (m : GatewayManager) : Prop :=
  ∀ sessionId g, m.route sessionId = some g →
    (∀ call ∈ m.calls, call.operation = .create → call.sessionId = sessionId →
      call.returned ≠ none) →
    ∃ (i : Nat) (call : Call), m.calls[i]? = some call ∧ call.place = (.create, sessionId, g) ∧
      call.returned = some true ∧ call.remote = .replied true ∧
      ∀ (j : Nat) (later : Call), i < j → m.calls[j]? = some later → later.operation = .create →
        later.sessionId = sessionId → later.returned ≠ some true

/-- What holds in every state: a route is made by the latest create of its id, which has not
failed, and a create that returned was carried out. -/
structure Sound (m : GatewayManager) : Prop where
  nodup : (m.sessionToGatewayIndex.map Prod.fst).Nodup
  tables : m.actors.length = m.activeSessionsPerGateway.length
  index : ∀ call ∈ m.calls, call.gatewayIndex < m.activeSessionsPerGateway.length
  made : ∀ sessionId g, m.route sessionId = some g → ∃ i, LatestCreate m.calls i sessionId g ∧
    ∀ call, m.calls[i]? = some call → call.returned ≠ some false
  carried : ∀ call ∈ m.calls, call.operation = .create → call.returned = some true →
    call.remote = .replied true

theorem LatestCreate.unique {calls : List Call} {i j : Nat} {sessionId : String} {g g' : Nat}
    (h : LatestCreate calls i sessionId g) (h' : LatestCreate calls j sessionId g') : i = j := by
  rcases Nat.lt_trichotomy i j with hlt | heq | hgt
  · exact absurd h'.1 (h.2 j hlt g')
  · exact heq
  · exact absurd h.1 (h'.2 i hgt g)

theorem LatestCreate.call {calls : List Call} {i : Nat} {sessionId : String} {g : Nat}
    (h : LatestCreate calls i sessionId g) : ∃ call, calls[i]? = some call ∧
      call.operation = .create ∧ call.sessionId = sessionId ∧ call.gatewayIndex = g := by
  have hplace := h.1
  rw [List.getElem?_map, Option.map_eq_some_iff] at hplace
  obtain ⟨call, hcall, hplace⟩ := hplace
  unfold Call.place at hplace
  simp only [Prod.mk.injEq] at hplace
  exact ⟨call, hcall, hplace⟩

theorem LatestCreate.lt {calls : List Call} {i : Nat} {sessionId : String} {g : Nat}
    (h : LatestCreate calls i sessionId g) : i < calls.length := by
  obtain ⟨call, hcall, _⟩ := h.call
  exact (List.getElem?_eq_some_iff.mp hcall).1

/-- A later call that creates no session of the id changes nothing. -/
theorem LatestCreate.append {calls : List Call} {i : Nat} {sessionId : String} {g : Nat}
    (h : LatestCreate calls i sessionId g) {call : Call}
    (hcall : ∀ g', call.place ≠ (.create, sessionId, g')) :
    LatestCreate (calls ++ [call]) i sessionId g := by
  have hi : i < (calls.map Call.place).length := by
    rw [List.length_map]
    exact h.lt
  unfold LatestCreate
  rw [List.map_append]
  refine ⟨by rw [List.getElem?_append_left hi]; exact h.1, ?_⟩
  intro j hj g' heq
  rcases Nat.lt_or_ge j (calls.map Call.place).length with hlt | hge
  · rw [List.getElem?_append_left hlt] at heq
    exact h.2 j hj g' heq
  · rw [List.getElem?_append_right hge, List.map_cons, List.map_nil,
      List.getElem?_singleton] at heq
    split at heq
    · exact hcall g' (Option.some.inj heq)
    · cases heq

theorem latestCreate_last (calls : List Call) {call : Call} {sessionId : String} {g : Nat}
    (hcall : call.place = (.create, sessionId, g)) :
    LatestCreate (calls ++ [call]) calls.length sessionId g := by
  unfold LatestCreate
  rw [List.map_append]
  refine ⟨?_, ?_⟩
  · rw [List.getElem?_append_right (by simp)]
    simp [hcall]
  · intro j hj g' heq
    rw [List.getElem?_eq_none (by simp; omega)] at heq
    cases heq

/-- A call keeps its place. -/
theorem places_set {calls : List Call} {i : Nat} {call call' : Call} (hcall : calls[i]? = some call)
    (hplace : call'.place = call.place) :
    (calls.set i call').map Call.place = calls.map Call.place := by
  apply List.ext_getElem?
  intro j
  rw [List.getElem?_map, List.getElem?_map, List.getElem?_set]
  by_cases hij : i = j
  · subst hij
    obtain ⟨hlt, rfl⟩ := List.getElem?_eq_some_iff.mp hcall
    simp [hlt, hplace]
  · simp [hij]

theorem latestCreate_set {calls : List Call} {i : Nat} {call call' : Call}
    (hcall : calls[i]? = some call) (hplace : call'.place = call.place) (j : Nat)
    (sessionId : String) (g : Nat) :
    LatestCreate (calls.set i call') j sessionId g ↔ LatestCreate calls j sessionId g := by
  unfold LatestCreate
  rw [places_set hcall hplace]

theorem eq_or_of_getElem?_set {calls : List Call} {i j : Nat} {call call' : Call}
    (h : (calls.set i call)[j]? = some call') :
    i = j ∧ call' = call ∨ i ≠ j ∧ calls[j]? = some call' := by
  rw [List.getElem?_set] at h
  by_cases hij : i = j
  · rw [if_pos hij] at h
    split at h
    · exact Or.inl ⟨hij, (Option.some.inj h).symm⟩
    · cases h
  · rw [if_neg hij] at h
    exact Or.inr ⟨hij, h⟩

theorem route_popRoute (m : GatewayManager) (sessionId other : String) (g : Nat) :
    (m.release sessionId g).route other = if other = sessionId then none else m.route other :=
  lookup_popRoute _ _ _

/-- The last step of a call that releases its session. -/
def Releases (operation : Operation) (ok : Bool) : Prop :=
  (operation = .create) ↔ ok = false

theorem endCall_of_releases {m : GatewayManager} {i : Nat} {call : Call} {ok : Bool}
    (h : Releases call.operation ok) : m.endCall i call ok =
      { m with calls := m.calls.set i { call with returned := some ok } }.release call.sessionId
        call.gatewayIndex := by
  unfold Releases at h
  unfold endCall
  cases hoperation : call.operation <;> cases ok <;> simp_all

theorem endCall_of_not_releases {m : GatewayManager} {i : Nat} {call : Call} {ok : Bool}
    (h : ¬ Releases call.operation ok) : m.endCall i call ok =
      { m with calls := m.calls.set i { call with returned := some ok } } := by
  unfold Releases at h
  unfold endCall
  cases hoperation : call.operation <;> cases ok <;> simp_all

theorem calls_endCall (m : GatewayManager) (i : Nat) (call : Call) (ok : Bool) :
    (m.endCall i call ok).calls = m.calls.set i { call with returned := some ok } := by
  by_cases h : Releases call.operation ok
  · rw [endCall_of_releases h]
    rfl
  · rw [endCall_of_not_releases h]

theorem length_addActive (active : List Int) (g : Nat) (change : Int) :
    (addActive active g change).length = active.length := List.length_modify _ _ _

theorem sound_running (gatewayCount : Nat) : Sound (running gatewayCount) where
  nodup := List.nodup_nil
  tables := by simp [running]
  index := by simp [running]
  made := by simp [running, route]
  carried := by simp [running]

/-- The end of a call. -/
theorem Sound.endCall {m : GatewayManager} (h : Sound m) {i : Nat} {call : Call} {ok : Bool}
    (hcall : m.calls[i]? = some call) (hok : ok = true → call.remote = .replied true) :
    Sound (m.endCall i call ok) := by
  have hmem := List.mem_of_getElem? hcall
  have hcalls := calls_endCall m i call ok
  have hlength : (m.endCall i call ok).activeSessionsPerGateway.length =
      m.activeSessionsPerGateway.length := by
    by_cases hreleases : Releases call.operation ok
    · rw [endCall_of_releases hreleases]
      exact length_addActive _ _ _
    · rw [endCall_of_not_releases hreleases]
  refine ⟨?_, ?_, ?_, ?_, ?_⟩
  · by_cases hreleases : Releases call.operation ok
    · rw [endCall_of_releases hreleases]
      exact nodup_popRoute h.nodup _
    · rw [endCall_of_not_releases hreleases]
      exact h.nodup
  · rw [hlength, ← h.tables]
    by_cases hreleases : Releases call.operation ok
    · rw [endCall_of_releases hreleases]
      rfl
    · rw [endCall_of_not_releases hreleases]
  · rw [hlength, hcalls]
    intro call' hcall'
    rcases List.mem_or_eq_of_mem_set hcall' with hold | rfl
    · exact h.index call' hold
    · exact h.index call hmem
  · intro sessionId g hroute
    rw [hcalls]
    -- A route that is left was there before, and is not that of a create that fails now.
    have hbefore : m.route sessionId = some g ∧
        (Releases call.operation ok → sessionId ≠ call.sessionId) := by
      by_cases hreleases : Releases call.operation ok
      · rw [endCall_of_releases hreleases, route_popRoute] at hroute
        split at hroute
        · cases hroute
        · exact ⟨hroute, fun _ => ‹_›⟩
      · rw [endCall_of_not_releases hreleases] at hroute
        exact ⟨hroute, fun hr => absurd hr hreleases⟩
    obtain ⟨j, hlatest, hreturned⟩ := h.made sessionId g hbefore.1
    refine ⟨j, (latestCreate_set hcall (by rfl) j sessionId g).mpr hlatest, ?_⟩
    intro call' hcall'
    rcases eq_or_of_getElem?_set hcall' with ⟨rfl, rfl⟩ | ⟨_, hold⟩
    · obtain ⟨call'', hcall'', hcreate, hid, _⟩ := hlatest.call
      rw [hcall] at hcall''
      cases hcall''
      intro hfalse
      apply hbefore.2
      · unfold Releases
        simp [hcreate, Option.some.inj hfalse]
      · exact hid.symm
    · exact hreturned call' hold
  · rw [hcalls]
    intro call' hcall' hcreate hreturned
    rcases List.mem_or_eq_of_mem_set hcall' with hold | rfl
    · exact h.carried call' hold hcreate hreturned
    · exact hok (Option.some.inj hreturned)

/-- A call that is sent keeps the routes of the ids that it creates no session of. -/
theorem Sound.made_append {m : GatewayManager} (h : Sound m) {sessionId : String} {g : Nat}
    (hroute : m.route sessionId = some g) {call : Call}
    (hcall : ∀ g', call.place ≠ (.create, sessionId, g')) :
    ∃ i, LatestCreate (m.calls ++ [call]) i sessionId g ∧
      ∀ call', (m.calls ++ [call])[i]? = some call' → call'.returned ≠ some false := by
  obtain ⟨i, hlatest, hreturned⟩ := h.made sessionId g hroute
  refine ⟨i, hlatest.append hcall, ?_⟩
  rw [List.getElem?_append_left hlatest.lt]
  exact hreturned

/-- A call that is sent has not returned. -/
theorem Sound.carried_append {m : GatewayManager} (h : Sound m) {call : Call}
    (hsent : call.returned = none) :
    ∀ call' ∈ m.calls ++ [call], call'.operation = .create → call'.returned = some true →
      call'.remote = .replied true := by
  intro call' hcall' hcreate hreturned
  rcases List.mem_append.mp hcall' with hold | hnew
  · exact h.carried call' hold hcreate hreturned
  · rw [List.mem_singleton.mp hnew, hsent] at hreturned
    cases hreturned

theorem Sound.step {m m' : GatewayManager} {a : Action} (h : Sound m) (hstep : m.step a = some m') :
    Sound m' := by
  cases effect_of_step hstep with
  | called sessionId gatewayIndex hindex =>
    unfold reserve
    refine ⟨nodup_setRoute h.nodup _ _, by rw [length_addActive]; exact h.tables, ?_, ?_, ?_⟩
    · rw [length_addActive]
      intro call hcall
      rcases List.mem_append.mp hcall with hold | hnew
      · exact h.index call hold
      · rw [List.mem_singleton.mp hnew]
        exact hindex
    · intro id g hroute
      have hset := lookup_setRoute m.sessionToGatewayIndex sessionId id gatewayIndex
      have hroute' := hset.symm.trans hroute
      by_cases hid : id = sessionId
      · rw [if_pos hid] at hroute'
        cases hroute'
        refine ⟨m.calls.length, latestCreate_last m.calls (by rw [hid]; rfl), ?_⟩
        intro call hcall
        rw [List.getElem?_append_right (Nat.le_refl _), Nat.sub_self] at hcall
        cases hcall
        simp
      · rw [if_neg hid] at hroute'
        apply h.made_append hroute'
        intro g' hplace
        exact hid (congrArg (fun place => place.2.1) hplace).symm
    · exact h.carried_append rfl
  | unknown => exact h
  | routed operation hoperation sessionId ha gatewayIndex hroute =>
    refine ⟨h.nodup, h.tables, ?_, ?_, ?_⟩
    · intro call hcall
      rcases List.mem_append.mp hcall with hold | hnew
      · exact h.index call hold
      · rw [List.mem_singleton.mp hnew]
        obtain ⟨i, hlatest, _⟩ := h.made sessionId gatewayIndex hroute
        obtain ⟨call', hcall', _, _, rfl⟩ := hlatest.call
        exact h.index call' (List.mem_of_getElem? hcall')
    · intro id g hroute
      apply h.made_append hroute
      intro g' hplace
      exact hoperation (congrArg Prod.fst hplace)
    · exact h.carried_append rfl
  | carried ha i call hcall hremote sessions remote hadded hgone =>
    have hmem := List.mem_of_getElem? hcall
    refine ⟨h.nodup, by rw [carryOut, List.length_set]; exact h.tables, ?_, ?_, ?_⟩
    · intro call' hcall'
      rcases List.mem_or_eq_of_mem_set hcall' with hold | rfl
      · exact h.index call' hold
      · exact h.index call hmem
    · intro id g hroute
      obtain ⟨j, hlatest, hreturned⟩ := h.made id g hroute
      refine ⟨j, (latestCreate_set hcall (by rfl) j id g).mpr hlatest, ?_⟩
      intro call' hcall'
      rcases eq_or_of_getElem?_set hcall' with ⟨rfl, rfl⟩ | ⟨_, hold⟩
      · exact hreturned call hcall
      · exact hreturned call' hold
    · intro call' hcall' hcreate hreturned
      rcases List.mem_or_eq_of_mem_set hcall' with hold | rfl
      · exact h.carried call' hold hcreate hreturned
      · exact absurd (h.carried call hmem hcreate hreturned) (hremote true)
  | replied i call ok hcall hreturned hremote =>
    exact h.endCall hcall (fun hok => hok ▸ hremote)
  | interrupted i call hcall hreturned => exact h.endCall hcall (by simp)

/-- A route leads where the latest create of its id went, whatever the calls did. -/
theorem Sound.pointsToLatest {m : GatewayManager} (h : Sound m) : PointsToLatest m := by
  intro sessionId g hroute hdone
  obtain ⟨i, hlatest, hreturned⟩ := h.made sessionId g hroute
  obtain ⟨call, hcall, hcreate, hid, hindex⟩ := hlatest.call
  have hmem := List.mem_of_getElem? hcall
  have hok : call.returned = some true := by
    have hover := hdone call hmem hcreate hid
    have hnot := hreturned call hcall
    cases hresult : call.returned with
    | none => exact absurd hresult hover
    | some ok =>
      cases ok with
      | true => rfl
      | false => exact absurd hresult hnot
  refine ⟨i, call, hcall, ?_, hok, h.carried call hmem hcreate hok, ?_⟩
  · unfold Call.place
    rw [hcreate, hid, hindex]
  · intro j later hj hlater hcreate' hid' _
    apply hlatest.2 j hj later.gatewayIndex
    rw [List.getElem?_map, hlater, Option.map_some, ← hid', ← hcreate']
    rfl

/-! ## Steps that keep the books -/

/-- The first and the last step of a `create_session` that fails: which call it is, and what the
step adds to the counter of its gateway. -/
inductive CreateStep (m m' : GatewayManager) : Action → Nat → Nat → Int → Prop where
  | called (sessionId : String) (call : Call) (hcall : m'.calls[m.calls.length]? = some call) :
      CreateStep m m' (.createSession sessionId) m.calls.length call.gatewayIndex 1
  | failed (a : Action) (i : Nat) (ha : a = .reply i ∨ a = .interrupt i) (call : Call)
      (hcall : m.calls[i]? = some call) (hcreate : call.operation = .create)
      (hfailed : (m'.calls[i]?).bind Call.returned = some false) :
      CreateStep m m' a i call.gatewayIndex (-1)

/-- A step of call `i` leaves the routes of all other sessions and the counters of all other
gateways. -/
structure KeepsOthers (m m' : GatewayManager) (i gatewayIndex : Nat) (change : Int) : Prop where
  routes : ∀ j sessionId g, j ≠ i → HasRoute m j sessionId g → HasRoute m' j sessionId g
  counters : ∀ g : Nat, m'.activeSessionsPerGateway[g]? = (m.activeSessionsPerGateway[g]?).map
    (fun count => if gatewayIndex = g then count + change else count)

/-- The routing table and the counters are right after a step. -/
structure Truthful (m : GatewayManager) (a : Action) (m' : GatewayManager) : Prop where
  agrees : Agrees m'
  others : ∀ i gatewayIndex change, CreateStep m m' a i gatewayIndex change →
    KeepsOthers m m' i gatewayIndex change
  latest : PointsToLatest m'

/-- The end of a call finds the route that it is about. A create that fails is the latest of its
id. -/
def MayEnd (m : GatewayManager) (i : Nat) (call : Call) (ok : Bool) : Prop :=
  match call.operation, ok with
  | .create, true => True
  | .create, false => HasRoute m i call.sessionId call.gatewayIndex
  | _, true => m.route call.sessionId = some call.gatewayIndex
  | _, false => True

/-- No id is created while it has a route, and each call that ends may end. -/
def Undisturbed (m : GatewayManager) : Action → Prop
  | .createSession sessionId => m.route sessionId = none
  | .reply i => ∀ call ok, m.calls[i]? = some call → call.remote = .replied ok → MayEnd m i call ok
  | .interrupt i => ∀ call, m.calls[i]? = some call → MayEnd m i call false
  | _ => True

/-! The condition can be computed. -/

theorem latestCreate_iff (calls : List Call) (i : Nat) (sessionId : String) (g : Nat) :
    ((calls.map Call.place)[i]? = some (Operation.create, sessionId, g) ∧
      ∀ place ∈ (calls.map Call.place).drop (i + 1),
        ¬ (place.1 = Operation.create ∧ place.2.1 = sessionId)) ↔
      LatestCreate calls i sessionId g := by
  refine and_congr_right (fun _ => ⟨?_, ?_⟩)
  · intro h j hj g' hplace
    have hmem : ((calls.map Call.place).drop (i + 1))[j - (i + 1)]? =
        some (.create, sessionId, g') := by
      rw [List.getElem?_drop, ← hplace]
      congr 1
      omega
    exact h _ (List.mem_of_getElem? hmem) ⟨rfl, rfl⟩
  · rintro h ⟨operation, id, g'⟩ hplace ⟨rfl, rfl⟩
    obtain ⟨k, hk⟩ := List.getElem?_of_mem hplace
    rw [List.getElem?_drop] at hk
    exact h (i + 1 + k) (by omega) g' hk

instance (calls : List Call) (i : Nat) (sessionId : String) (g : Nat) :
    Decidable (LatestCreate calls i sessionId g) :=
  decidable_of_iff _ (latestCreate_iff calls i sessionId g)

instance (m : GatewayManager) (i : Nat) (sessionId : String) (g : Nat) :
    Decidable (HasRoute m i sessionId g) := inferInstanceAs (Decidable (_ ∧ _))

instance (m : GatewayManager) (i : Nat) (call : Call) (ok : Bool) :
    Decidable (MayEnd m i call ok) :=
  match hoperation : call.operation, ok with
  | .create, true => isTrue (by simp [MayEnd, hoperation])
  | .create, false => decidable_of_iff (HasRoute m i call.sessionId call.gatewayIndex)
      (by simp [MayEnd, hoperation])
  | .finalize, true => decidable_of_iff (m.route call.sessionId = some call.gatewayIndex)
      (by simp [MayEnd, hoperation])
  | .abort, true => decidable_of_iff (m.route call.sessionId = some call.gatewayIndex)
      (by simp [MayEnd, hoperation])
  | .finalize, false => isTrue (by simp [MayEnd, hoperation])
  | .abort, false => isTrue (by simp [MayEnd, hoperation])

instance (m : GatewayManager) (a : Action) : Decidable (Undisturbed m a) :=
  match a with
  | .createSession sessionId => inferInstanceAs (Decidable (m.route sessionId = none))
  | .reply i => decidable_of_iff (∀ call ∈ m.calls[i]?, ∀ ok : Bool,
      call.remote = .replied ok → MayEnd m i call ok)
        ⟨fun h call ok hcall => h call hcall ok, fun h call hcall ok => h call ok hcall⟩
  | .interrupt i => decidable_of_iff (∀ call ∈ m.calls[i]?, MayEnd m i call false)
      (by simp [Undisturbed])
  | .finalizeSession _ | .abortSession _ | .start _ _ | .finish _ _ => isTrue trivial

theorem agrees_of_same {m m' : GatewayManager} (h : Agrees m)
    (hactive : m'.activeSessionsPerGateway = m.activeSessionsPerGateway)
    (hroutes : m'.sessionToGatewayIndex = m.sessionToGatewayIndex) : Agrees m' := by
  intro g count hcount
  rw [hactive] at hcount
  unfold routedTo
  rw [hroutes]
  exact h g count hcount

/-- A call that ends with a release keeps the counters right exactly when its route is there. -/
theorem agrees_release_iff {m m' : GatewayManager} (hm : Sound m) (ha : Agrees m) {call : Call}
    (hmem : call ∈ m.calls)
    (hactive : m'.activeSessionsPerGateway =
      addActive m.activeSessionsPerGateway call.gatewayIndex (-1))
    (hroutes : m'.sessionToGatewayIndex = popRoute m.sessionToGatewayIndex call.sessionId) :
    Agrees m' ↔ m.route call.sessionId = some call.gatewayIndex := by
  have hcount : ∀ (g : Nat) (count : Int), m.activeSessionsPerGateway[g]? = some count →
      count = (m'.routedTo g : Int) +
        (if m.route call.sessionId = some g then 1 else 0) := by
    intro g count hg
    have hpop := countP_popRoute hm.nodup call.sessionId g
    rw [(ha g count hg).2]
    unfold routedTo route
    rw [hroutes]
    split_ifs at hpop ⊢ <;> omega
  refine ⟨?_, ?_⟩
  · intro h
    obtain ⟨count, hcount'⟩ : ∃ count,
      m.activeSessionsPerGateway[call.gatewayIndex]? = some count :=
      ⟨_, List.getElem?_eq_getElem (hm.index call hmem)⟩
    have hbefore := hcount call.gatewayIndex count hcount'
    have hafter := (h call.gatewayIndex (count + -1) (by
      rw [hactive, getElem?_addActive, hcount']
      simp)).2
    by_contra hroute
    rw [if_neg hroute] at hbefore
    omega
  · intro hroute g count hg
    rw [hactive, getElem?_addActive, Option.map_eq_some_iff] at hg
    obtain ⟨old, hold, rfl⟩ := hg
    have hbefore := hcount g old hold
    by_cases hindex : call.gatewayIndex = g
    · rw [hroute, if_pos (by rw [hindex])] at hbefore
      rw [if_pos hindex]
      omega
    · have hne : m.route call.sessionId ≠ some g := by
        rw [hroute]
        exact fun heq => hindex (Option.some.inj heq)
      rw [if_neg hne] at hbefore
      rw [if_neg hindex]
      omega

/-- A slot that is taken keeps the counters right exactly when the id had no route. -/
theorem agrees_reserve_iff {m : GatewayManager} (hm : Sound m) (ha : Agrees m) (sessionId : String)
    (gatewayIndex : Nat) :
    Agrees (m.reserve sessionId gatewayIndex) ↔ m.route sessionId = none := by
  have hactive : (m.reserve sessionId gatewayIndex).activeSessionsPerGateway =
      addActive m.activeSessionsPerGateway gatewayIndex 1 := rfl
  have hcount : ∀ (g : Nat) (count : Int), m.activeSessionsPerGateway[g]? = some count →
      ((m.reserve sessionId gatewayIndex).routedTo g : Int) +
          (if m.route sessionId = some g then 1 else 0) =
        count + (if gatewayIndex = g then 1 else 0) := by
    intro g count hg
    have hset := countP_setRoute hm.nodup sessionId gatewayIndex g
    rw [(ha g count hg).2]
    have hroutes : (m.reserve sessionId gatewayIndex).sessionToGatewayIndex =
        setRoute m.sessionToGatewayIndex sessionId gatewayIndex := rfl
    unfold routedTo route
    rw [hroutes]
    split_ifs at hset ⊢ <;> omega
  refine ⟨?_, ?_⟩
  · intro h
    cases hroute : m.route sessionId with
    | none => rfl
    | some g =>
      exfalso
      obtain ⟨i, hlatest, _⟩ := hm.made sessionId g hroute
      obtain ⟨call, hcall, _, _, rfl⟩ := hlatest.call
      have hlt := hm.index call (List.mem_of_getElem? hcall)
      have hg := List.getElem?_eq_getElem hlt
      have hbefore := hcount _ _ hg
      rw [if_pos hroute] at hbefore
      have hafter := (h call.gatewayIndex _ (by rw [hactive, getElem?_addActive, hg]; rfl)).2
      dsimp only at hafter
      by_cases hindex : gatewayIndex = call.gatewayIndex
      · rw [if_pos hindex] at hbefore hafter
        omega
      · rw [if_neg hindex] at hbefore hafter
        omega
  · intro hroute g count hg
    rw [hactive, getElem?_addActive, Option.map_eq_some_iff] at hg
    obtain ⟨old, hold, rfl⟩ := hg
    have hbefore := hcount g old hold
    rw [hroute, if_neg (by simp)] at hbefore
    by_cases hg' : gatewayIndex = g
    · rw [if_pos hg'] at hbefore ⊢
      omega
    · rw [if_neg hg'] at hbefore ⊢
      omega

/-- Only the last step of a create that fails is a create step at the end of a call. -/
theorem CreateStep.of_end {m m' : GatewayManager} {a : Action} {i j g : Nat} {change : Int}
    (h : CreateStep m m' a j g change) (ha : a = .reply i ∨ a = .interrupt i) {call : Call}
    (hcall : m.calls[i]? = some call) {ok : Bool}
    (hcalls : m'.calls = m.calls.set i { call with returned := some ok }) :
    j = i ∧ g = call.gatewayIndex ∧ change = -1 ∧ call.operation = .create ∧ ok = false := by
  cases h with
  | called sessionId => rcases ha with ha | ha <;> cases ha
  | failed a j ha' call' hcall' hcreate hfailed =>
    have hij : j = i := by
      rcases ha with rfl | rfl <;> rcases ha' with ha' | ha' <;> cases ha' <;> rfl
    subst hij
    rw [hcall] at hcall'
    cases hcall'
    rw [hcalls, List.getElem?_set_self (List.getElem?_eq_some_iff.mp hcall).1] at hfailed
    exact ⟨rfl, rfl, rfl, hcreate, Option.some.inj hfailed⟩

/-- The end of a call keeps the books exactly when it may end. -/
theorem truthful_endCall_iff {m : GatewayManager} (hm : Sound m) (ha : Agrees m) {a : Action}
    {i : Nat} {call : Call} (hcall : m.calls[i]? = some call) {ok : Bool}
    (hend : a = .reply i ∨ a = .interrupt i) (hm' : Sound (m.endCall i call ok)) :
    Truthful m a (m.endCall i call ok) ↔ MayEnd m i call ok := by
  have hmem := List.mem_of_getElem? hcall
  have hcalls := calls_endCall m i call ok
  by_cases hreleases : Releases call.operation ok
  · have hagrees : Agrees (m.endCall i call ok) ↔
        m.route call.sessionId = some call.gatewayIndex := by
      rw [endCall_of_releases hreleases]
      exact agrees_release_iff hm ha hmem rfl rfl
    have hroute : ∀ other, (m.endCall i call ok).route other =
        if other = call.sessionId then none else m.route other := by
      intro other
      rw [endCall_of_releases hreleases]
      exact route_popRoute _ _ _ _
    unfold Releases at hreleases
    cases hoperation : call.operation with
    | create =>
      have hok : ok = false := hreleases.mp hoperation
      subst hok
      simp only [MayEnd, hoperation]
      refine ⟨?_, ?_⟩
      · intro h
        have hmine := hagrees.mp h.agrees
        obtain ⟨j, hlatest, _⟩ := hm.made _ _ hmine
        by_cases hj : j = i
        · exact ⟨hj ▸ hlatest, hmine⟩
        · -- The route is that of another create, which loses it.
          have hfailed : CreateStep m (m.endCall i call false) a i call.gatewayIndex (-1) := by
            refine .failed a i hend call hcall hoperation ?_
            rw [hcalls, List.getElem?_set_self (List.getElem?_eq_some_iff.mp hcall).1]
            rfl
          have hkept := ((h.others i _ _ hfailed).routes j _ _ hj ⟨hlatest, hmine⟩).2
          rw [hroute, if_pos rfl] at hkept
          cases hkept
      · intro h
        refine ⟨hagrees.mpr h.2, ?_, hm'.pointsToLatest⟩
        intro j g change hstep
        obtain ⟨rfl, rfl, rfl, _, _⟩ := hstep.of_end hend hcall hcalls
        refine ⟨?_, ?_⟩
        · intro k sessionId g hk hother
          have hid : sessionId ≠ call.sessionId := by
            rintro rfl
            exact hk (hother.1.unique h.1)
          refine ⟨?_, by rw [hroute, if_neg hid]; exact hother.2⟩
          rw [hcalls]
          exact (latestCreate_set hcall (by rfl) k sessionId g).mpr hother.1
        · intro g
          rw [endCall_of_releases (by simp [Releases, hoperation])]
          exact getElem?_addActive _ _ _ _
    | finalize | abort =>
      have hok : ok = true := by simpa [hoperation] using hreleases
      subst hok
      simp only [MayEnd, hoperation]
      rw [← hagrees]
      refine ⟨Truthful.agrees, fun h => ⟨h, ?_, hm'.pointsToLatest⟩⟩
      intro j g change hstep
      exact absurd (hstep.of_end hend hcall hcalls).2.2.2.2 (by simp)
  · have hmay : MayEnd m i call ok := by
      unfold Releases at hreleases
      unfold MayEnd
      cases hoperation : call.operation <;> cases ok <;> simp_all
    refine ⟨fun _ => hmay, fun _ => ⟨?_, ?_, hm'.pointsToLatest⟩⟩
    · rw [endCall_of_not_releases hreleases]
      exact agrees_of_same ha rfl rfl
    · intro j g change hstep
      obtain ⟨_, _, _, hcreate, hok⟩ := hstep.of_end hend hcall hcalls
      exact absurd (by simp [Releases, hcreate, hok]) hreleases

/-- A step keeps the books exactly when it is undisturbed. -/
theorem truthful_iff {m m' : GatewayManager} {a : Action} (hm : Sound m) (ha : Agrees m)
    (hstep : m.step a = some m') : Truthful m a m' ↔ Undisturbed m a := by
  have hm' := hm.step hstep
  have hquiet : Quiet a → Agrees m' → (Truthful m a m' ↔ Undisturbed m a) := by
    intro hquiet hagrees
    have hundisturbed : Undisturbed m a := by
      cases a <;> trivial
    refine ⟨fun _ => hundisturbed, fun _ => ⟨hagrees, ?_, hm'.pointsToLatest⟩⟩
    intro i g change h
    cases h with
    | called => exact absurd hquiet (by simp [Quiet])
    | failed _ _ ha => rcases ha with rfl | rfl <;> exact absurd hquiet (by simp [Quiet])
  cases effect_of_step hstep with
  | called sessionId gatewayIndex hindex =>
    have hiff := agrees_reserve_iff hm ha sessionId gatewayIndex
    refine ⟨fun h => hiff.mp h.agrees, fun hnone => ⟨hiff.mpr hnone, ?_, hm'.pointsToLatest⟩⟩
    intro i g change h
    cases h with
    | called _ call hcall =>
      unfold reserve at hcall
      rw [List.getElem?_append_right (Nat.le_refl _), Nat.sub_self] at hcall
      cases hcall
      refine ⟨?_, fun g => getElem?_addActive _ _ _ _⟩
      intro j id g _ hother
      have hid : id ≠ sessionId := by
        rintro rfl
        have hroute := hother.2
        rw [show m.route id = none from hnone] at hroute
        cases hroute
      refine ⟨hother.1.append ?_, ?_⟩
      · intro g' hplace
        exact hid (congrArg (fun place => place.2.1) hplace).symm
      · exact (lookup_setRoute _ _ _ _).trans (by rw [if_neg hid]; exact hother.2)
    | failed _ _ ha => rcases ha with ha | ha <;> cases ha
  | unknown hquiet' => exact hquiet hquiet' ha
  | routed _ _ _ hrouted => exact hquiet (quiet_of_routed hrouted) (agrees_of_same ha rfl rfl)
  | carried hquiet' => exact hquiet hquiet' (agrees_of_same ha rfl rfl)
  | replied i call ok hcall hreturned hremote =>
    rw [truthful_endCall_iff hm ha hcall (Or.inl rfl) hm']
    refine ⟨?_, fun h => h call ok hcall hremote⟩
    intro h call' ok' hcall' hremote'
    rw [hcall] at hcall'
    cases hcall'
    rw [hremote] at hremote'
    cases hremote'
    exact h
  | interrupted i call hcall hreturned =>
    rw [truthful_endCall_iff hm ha hcall (Or.inr rfl) hm']
    refine ⟨?_, fun h => h call hcall⟩
    intro h call' hcall'
    rw [hcall] at hcall'
    cases hcall'
    exact h

/-- In every run of a new manager the routing table and the counters are right after each step
exactly when every step is undisturbed: no id is created while it has a route, and each call that
ends finds the route that it is about. -/
theorem books_are_right_iff {gatewayCount : Nat} {actions : List Action} {m : GatewayManager}
    (hrun : runs.run step (running gatewayCount) actions = some m) :
    runs.Meets step (fun m a => ∀ m', m.step a = some m' → Truthful m a m')
      (running gatewayCount) actions ↔
        runs.Meets step Undisturbed (running gatewayCount) actions := by
  have hinitial : Agrees (running gatewayCount) := by
    intro g count hcount
    simp only [running, List.getElem?_replicate] at hcount
    split at hcount
    · cases hcount
      exact ⟨Int.le_refl 0, rfl⟩
    · cases hcount
  have hsound := sound_running gatewayCount
  generalize running gatewayCount = start at hrun hinitial hsound ⊢
  induction actions generalizing start with
  | nil => exact Iff.rfl
  | cons a rest ih =>
    obtain ⟨next, hnext, hrest⟩ := runs.run_cons.mp hrun
    have hiff := truthful_iff hsound hinitial hnext
    have hsame : ∀ m', start.step a = some m' → m' = next := by
      intro m' hm'
      exact Option.some.inj (hm'.symm.trans hnext)
    refine ⟨?_, ?_⟩
    · rintro ⟨hhead, htail⟩
      have htrue := hhead next hnext
      refine ⟨hiff.mp htrue, ?_⟩
      intro m' hm'
      cases hsame m' hm'
      exact (ih next hrest htrue.agrees (hsound.step hnext)).mp (htail next hnext)
    · rintro ⟨hhead, htail⟩
      have htrue := hiff.mpr hhead
      refine ⟨fun m' hm' => hsame m' hm' ▸ htrue, ?_⟩
      intro m' hm'
      cases hsame m' hm'
      exact (ih next hrest htrue.agrees (hsound.step hnext)).mpr (htail next hnext)

/-- Two sessions on two gateways: one is finalized, and the create of the other is cancelled. -/
theorem books_are_right_twoSessions : runs.Meets step
    (fun m a => ∀ m', m.step a = some m' → Truthful m a m') (running 2)
      [.createSession "a", .createSession "b", .start 0 true, .reply 0, .finalizeSession "a",
        .start 2 true, .interrupt 1, .finish 2 true, .reply 2] := by
  obtain ⟨m, hrun⟩ := Option.isSome_iff_exists.mp (show (runs.run step (running 2)
    [.createSession "a", .createSession "b", .start 0 true, .reply 0, .finalizeSession "a",
      .start 2 true, .interrupt 1, .finish 2 true, .reply 2]).isSome = true by decide)
  apply (books_are_right_iff hrun).mpr
  exact runs.meets_of_checks (fun m a => of_decide_eq_true) (by decide)

/-- Both aborts find the route of the session, and the actor takes the second one as done. -/
theorem two_aborts_make_a_counter_negative : ¬ ∀ (gatewayCount : Nat) (actions : List Action)
    (m : GatewayManager), runs.run step (running gatewayCount) actions = some m → Agrees m := by
  intro h
  have hfacts : (runs.run step (running 1) [.createSession "a", .start 0 true, .reply 0,
      .abortSession "a", .abortSession "a", .start 1 true, .start 2 true, .finish 1 true, .reply 1,
      .finish 2 true, .reply 2]).any
        (fun m => m.activeSessionsPerGateway[0]? == some (-1)) = true := by
    decide
  obtain ⟨m, hrun, hcount⟩ := (Option.any_eq_true _ _).mp hfacts
  have hagrees := (h 1 _ m hrun 0 (-1) (beq_iff_eq.mp hcount)).1
  omega

end GatewayManager

end uni_agent.gateway
