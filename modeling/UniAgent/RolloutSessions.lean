-- The session of one rollout, from `create_session` to the exit of `_run_session`, among any
-- other calls of the manager. It is closed at the exit exactly when its task was not cancelled
-- while the runner or `finalize_session` was awaited.
import UniAgent.GatewayRouting

namespace uni_agent.framework

open gateway (GatewayManager Call Operation Remote)
open gateway.GatewayManager (Effect Sound Releases effect_of_step)

/-! ## The run of a session -/

/-- How an awaited call ends: with a value, with an `Exception`, or with a `CancelledError`. -/
inductive Outcome where
  | returned
  | raised
  | cancelled
  deriving DecidableEq, Repr

/-- Where `_run_session` is. The calls of the manager are named by their position. -/
inductive Place where
  | start
  | creating (i : Nat)
  | running
  | finalizing (i : Nat)
  | aborting (i : Nat)
  /-- Behind the `try`: the scores and the dump. -/
  | scoring
  | exited (created : Bool)
  deriving DecidableEq, Repr

structure Rollout where
  manager : GatewayManager
  place : Place

inductive Action where
  /-- A step of anybody else. -/
  | others (a : gateway.Action)
  | create
  | runner (outcome : Outcome)
  /-- The awaited call of the manager is answered. `selects` says whether
  `_select_session_trajectories` returns. -/
  | reply (selects : Bool)
  /-- The awaited call of the manager raises another `Exception`. -/
  | fail
  | cancel
  | scored

namespace Rollout

/-- The session id is new, so nobody else calls the manager with it. -/
def isOthers (sessionId : String) (m : GatewayManager) : gateway.Action → Bool
  | .createSession id | .finalizeSession id | .abortSession id => id != sessionId
  | .reply i | .interrupt i => (m.calls[i]?).all (fun call => call.sessionId != sessionId)
  | .start _ _ | .finish _ _ => true

/-- The `except Exception` branch. Without a route `abort_session` raises `KeyError`. -/
def abort (sessionId : String) (m : GatewayManager) : Rollout :=
  match m.route sessionId with
  | none => ⟨m, .exited true⟩
  | some _ => ⟨m.routeCall .abort sessionId, .aborting m.calls.length⟩

/-- `await self.gateway_manager.finalize_session(session_id)` -/
def finalize (sessionId : String) (m : GatewayManager) : Rollout :=
  match m.route sessionId with
  | none => abort sessionId m
  | some _ => ⟨m.routeCall .finalize sessionId, .finalizing m.calls.length⟩

/-- What the actor replied to a call. -/
def replied (m : GatewayManager) (i : Nat) : Bool :=
  (m.calls[i]?).any (fun call => call.remote == .replied true)

/-- One action, when it is enabled. -/
def step (sessionId : String) (r : Rollout) : Action → Option Rollout
  | .others a =>
    if isOthers sessionId r.manager a then (r.manager.step a).map (fun m => ⟨m, r.place⟩) else none
  | .create =>
    match r.place with
    | .start =>
      (r.manager.createSession sessionId).map (fun m => ⟨m, .creating r.manager.calls.length⟩)
    | _ => none
  | .runner outcome =>
    match r.place, outcome with
    | .running, .returned => some (finalize sessionId r.manager)
    | .running, .raised => some (abort sessionId r.manager)
    | .running, .cancelled => some ⟨r.manager, .exited true⟩
    | _, _ => none
  | .reply selects =>
    match r.place with
    | .creating i => (r.manager.step (.reply i)).map (fun m =>
        ⟨m, if replied r.manager i then .running else .exited false⟩)
    | .finalizing i => (r.manager.step (.reply i)).map (fun m =>
        if replied r.manager i && selects then ⟨m, .scoring⟩ else abort sessionId m)
    | .aborting i => (r.manager.step (.reply i)).map (fun m => ⟨m, .exited true⟩)
    | _ => none
  | .fail =>
    match r.place with
    | .creating i => (r.manager.step (.interrupt i)).map (fun m => ⟨m, .exited false⟩)
    | .finalizing i => (r.manager.step (.interrupt i)).map (abort sessionId)
    | .aborting i => (r.manager.step (.interrupt i)).map (fun m => ⟨m, .exited true⟩)
    | _ => none
  | .cancel =>
    match r.place with
    | .creating i => (r.manager.step (.interrupt i)).map (fun m => ⟨m, .exited false⟩)
    | .finalizing i | .aborting i =>
      (r.manager.step (.interrupt i)).map (fun m => ⟨m, .exited true⟩)
    | .running | .scoring => some ⟨r.manager, .exited true⟩
    | .start | .exited _ => none
  | .scored =>
    match r.place with
    | .scoring => some ⟨r.manager, .exited true⟩
    | _ => none

/-- `abort_session` succeeds when it is called. -/
def abortSucceeds (r : Rollout) : Action → Bool
  | .reply _ => match r.place with
    | .aborting i => replied r.manager i
    | _ => true
  | .fail | .cancel => match r.place with
    | .aborting _ => false
    | _ => true
  | _ => true

/-- The task is cancelled while it awaits the runner or `finalize_session`. -/
def cancelledEarly (r : Rollout) : Action → Bool
  | .runner outcome => outcome = .cancelled
  | .cancel => match r.place with
    | .running | .finalizing _ => true
    | _ => false
  | _ => false

end Rollout

/-! ## The share of a session in the counters -/

/-- What a call added to the counter of its gateway. -/
def weight (call : Call) : Int :=
  match call.operation, call.returned with
  | .create, some false => 0
  | .create, _ => 1
  | _, some true => -1
  | _, _ => 0

/-- What the calls of one kind added to the counters. -/
def weigh (p : Call → Bool) : List Call → Int
  | [] => 0
  | call :: calls => (if p call then weight call else 0) + weigh p calls

/-- The share of a session: one while the counter of its gateway includes it. -/
def share (m : GatewayManager) (sessionId : String) : Int :=
  weigh (fun call => call.sessionId == sessionId) m.calls

/-- The session is over: no actor holds it, it has no route, and no counter includes it. -/
structure Closed (m : GatewayManager) (sessionId : String) : Prop where
  tables : ∀ g, sessionId ∉ m.sessionsOf g
  route : m.route sessionId = none
  share : share m sessionId = 0

/-! ## Weights -/

theorem weigh_append (p : Call → Bool) (calls : List Call) (call : Call) :
    weigh p (calls ++ [call]) = weigh p calls + if p call then weight call else 0 := by
  induction calls with
  | nil => simp [weigh]
  | cons first calls ih =>
    simp only [List.cons_append, weigh, ih]
    omega

theorem weigh_eq_zero {p : Call → Bool} {calls : List Call} (h : ∀ call ∈ calls, p call = false) :
    weigh p calls = 0 := by
  induction calls with
  | nil => rfl
  | cons call calls ih =>
    rw [weigh, ih (fun call' hcall' => h call' (List.mem_cons_of_mem _ hcall')),
      h call List.mem_cons_self]
    rfl

theorem weigh_set (p : Call → Bool) {calls : List Call} {i : Nat} {call : Call} (call' : Call)
    (hcall : calls[i]? = some call) (hp : p call' = p call) :
    weigh p (calls.set i call') =
      weigh p calls + if p call then weight call' - weight call else 0 := by
  induction calls generalizing i with
  | nil => cases hcall
  | cons first calls ih =>
    cases i with
    | zero =>
      cases hcall
      simp only [List.set_cons_zero, weigh, hp]
      split <;> omega
    | succ i =>
      simp only [List.set_cons_succ, weigh, ih hcall]
      omega

/-- What the end of a call takes from the counter of its gateway. -/
theorem weight_end {call : Call} (hreturned : call.returned = none) (ok : Bool) :
    weight { call with returned := some ok } - weight call =
      if call.operation = .create ↔ ok = false then -1 else 0 := by
  unfold weight
  cases hoperation : call.operation <;> cases ok <;> simp [hreturned]

/-- The counter of a gateway is what its calls added to it, in every reachable state. -/
def Counted (m : GatewayManager) : Prop :=
  ∀ (g : Nat) (count : Int), m.activeSessionsPerGateway[g]? = some count →
    count = weigh (fun call => call.gatewayIndex == g) m.calls

theorem counted_endCall {m : GatewayManager} (h : Counted m) {i : Nat} {call : Call} {ok : Bool}
    (hcall : m.calls[i]? = some call) (hreturned : call.returned = none) :
    Counted (m.endCall i call ok) := by
  have hset := fun g => weigh_set (fun call => call.gatewayIndex == g)
    { call with returned := some ok } hcall rfl
  intro g count hcount
  rw [GatewayManager.calls_endCall, hset, weight_end hreturned]
  by_cases hreleases : Releases call.operation ok
  · rw [GatewayManager.endCall_of_releases hreleases] at hcount
    have hactive := (GatewayManager.getElem?_addActive m.activeSessionsPerGateway
      call.gatewayIndex g (-1)).symm.trans hcount
    obtain ⟨old, hold, rfl⟩ := Option.map_eq_some_iff.mp hactive
    rw [if_pos (show (call.operation = .create ↔ ok = false) from hreleases), h g old hold]
    by_cases hindex : call.gatewayIndex = g <;> simp [hindex]
  · rw [GatewayManager.endCall_of_not_releases hreleases] at hcount
    rw [if_neg (show ¬ (call.operation = .create ↔ ok = false) from hreleases), h g count hcount]
    simp

theorem Counted.step {m m' : GatewayManager} {a : gateway.Action} (h : Counted m)
    (hstep : m.step a = some m') : Counted m' := by
  cases effect_of_step hstep with
  | called sessionId gatewayIndex hindex =>
    intro g count hcount
    have hactive := (GatewayManager.getElem?_addActive m.activeSessionsPerGateway
      gatewayIndex g 1).symm.trans hcount
    obtain ⟨old, hold, rfl⟩ := Option.map_eq_some_iff.mp hactive
    unfold GatewayManager.reserve
    rw [weigh_append, h g old hold]
    by_cases hg : gatewayIndex = g <;> simp [hg, weight]
  | unknown => exact h
  | routed operation hoperation sessionId ha gatewayIndex hroute =>
    intro g count hcount
    rw [weigh_append, h g count hcount]
    cases operation <;> simp_all [weight]
  | carried ha i call hcall hremote sessions remote hadded hgone =>
    intro g count hcount
    have hset := weigh_set (fun call => call.gatewayIndex == g) { call with remote } hcall rfl
    have hsame : weight { call with remote } = weight call := rfl
    unfold GatewayManager.carryOut
    rw [hset, hsame, h g count hcount]
    simp
  | replied i call ok hcall hreturned hremote => exact counted_endCall h hcall hreturned
  | interrupted i call hcall hreturned => exact counted_endCall h hcall hreturned

theorem counted_running (gatewayCount : Nat) : Counted (GatewayManager.running gatewayCount) := by
  intro g count hcount
  simp only [GatewayManager.running, List.getElem?_replicate] at hcount
  split at hcount
  · cases hcount
    rfl
  · cases hcount

/-! ## What the others leave alone -/

theorem sessionsOf_carryOut (m : GatewayManager) (i : Nat) (call : Call) (sessions : List String)
    (remote : Remote) (g : Nat) : (m.carryOut i call sessions remote).sessionsOf g =
      if call.gatewayIndex = g ∧ g < m.actors.length then sessions else m.sessionsOf g := by
  unfold GatewayManager.sessionsOf GatewayManager.carryOut
  simp only [List.getD_eq_getElem?_getD, List.getElem?_set]
  by_cases hindex : call.gatewayIndex = g
  · by_cases hlt : g < m.actors.length
    · simp [hindex, hlt]
    · simp [hindex, hlt]
  · simp [hindex]

/-- A step that is not of the session: its route, its share and its calls stay, its calls may be
carried on, and a table gets it only by an open create. -/
structure Frame (sessionId : String) (m m' : GatewayManager) : Prop where
  route : m'.route sessionId = m.route sessionId
  share : share m' sessionId = share m sessionId
  kept : ∀ (i : Nat) (call : Call), m.calls[i]? = some call → call.sessionId = sessionId →
    ∃ call', m'.calls[i]? = some call' ∧ call'.place = call.place ∧ call'.returned = call.returned
  calls : ∀ (i : Nat) (call' : Call), m'.calls[i]? = some call' → call'.sessionId = sessionId →
    ∃ call, m.calls[i]? = some call ∧ call'.place = call.place ∧ call'.returned = call.returned ∧
      (call'.remote = call.remote ∨ (∀ ok, call.remote ≠ .replied ok) ∧
        (call'.remote = .replied true → call.operation ≠ .create →
          sessionId ∉ m'.sessionsOf call.gatewayIndex))
  tables : ∀ g, sessionId ∈ m'.sessionsOf g → sessionId ∈ m.sessionsOf g ∨
    ∃ call ∈ m.calls, call.place = (.create, sessionId, g) ∧ ∀ ok, call.remote ≠ .replied ok

theorem Frame.refl (sessionId : String) (m : GatewayManager) : Frame sessionId m m where
  route := rfl
  share := rfl
  kept := fun _ call hcall _ => ⟨call, hcall, rfl, rfl⟩
  calls := fun _ call hcall _ => ⟨call, hcall, rfl, rfl, Or.inl rfl⟩
  tables := fun _ h => Or.inl h

/-- A new call of another session. -/
theorem Frame.append {sessionId : String} {m m' : GatewayManager} (call : Call)
    (hid : call.sessionId ≠ sessionId) (hcalls : m'.calls = m.calls ++ [call])
    (hroute : m'.route sessionId = m.route sessionId) (hactors : m'.actors = m.actors) :
    Frame sessionId m m' where
  route := hroute
  share := by
    unfold framework.share
    rw [hcalls, weigh_append]
    simp [hid]
  kept := by
    intro i call' hcall' _
    refine ⟨call', ?_, rfl, rfl⟩
    rw [hcalls, List.getElem?_append_left (List.getElem?_eq_some_iff.mp hcall').1]
    exact hcall'
  calls := by
    intro i call' hcall' hid'
    rw [hcalls] at hcall'
    rcases Nat.lt_or_ge i m.calls.length with hlt | hge
    · rw [List.getElem?_append_left hlt] at hcall'
      exact ⟨call', hcall', rfl, rfl, Or.inl rfl⟩
    · rw [List.getElem?_append_right hge, List.getElem?_singleton] at hcall'
      split at hcall'
      · cases hcall'
        exact absurd hid' hid
      · cases hcall'
  tables := by
    intro g h
    unfold GatewayManager.sessionsOf at h ⊢
    rw [hactors] at h
    exact Or.inl h

/-- A call of another session ends. -/
theorem Frame.endCall {sessionId : String} {m : GatewayManager} {i : Nat} {call : Call}
    (hcall : m.calls[i]? = some call) (hid : call.sessionId ≠ sessionId) (ok : Bool) :
    Frame sessionId m (m.endCall i call ok) where
  route := by
    by_cases hreleases : Releases call.operation ok
    · rw [GatewayManager.endCall_of_releases hreleases, GatewayManager.route_popRoute,
        if_neg (Ne.symm hid)]
      rfl
    · rw [GatewayManager.endCall_of_not_releases hreleases]
      rfl
  share := by
    unfold framework.share
    rw [GatewayManager.calls_endCall, weigh_set _ { call with returned := some ok } hcall rfl]
    simp [hid]
  kept := by
    intro j call' hcall' hid'
    refine ⟨call', ?_, rfl, rfl⟩
    have hij : i ≠ j := by
      rintro rfl
      rw [hcall] at hcall'
      cases hcall'
      exact hid hid'
    rw [GatewayManager.calls_endCall, List.getElem?_set_ne hij]
    exact hcall'
  calls := by
    intro j call' hcall' hid'
    rw [GatewayManager.calls_endCall] at hcall'
    rcases GatewayManager.eq_or_of_getElem?_set hcall' with ⟨rfl, rfl⟩ | ⟨_, hold⟩
    · exact absurd hid' hid
    · exact ⟨call', hold, rfl, rfl, Or.inl rfl⟩
  tables := by
    intro g h
    by_cases hreleases : Releases call.operation ok
    · rw [GatewayManager.endCall_of_releases hreleases] at h
      exact Or.inl h
    · rw [GatewayManager.endCall_of_not_releases hreleases] at h
      exact Or.inl h

/-- An actor is further with a call. -/
theorem Frame.carryOut {sessionId : String} {m : GatewayManager} {i : Nat} {call : Call}
    (hcall : m.calls[i]? = some call) (hremote : ∀ ok, call.remote ≠ .replied ok)
    {sessions : List String} {remote : Remote}
    (hadded : ∀ id ∈ sessions, id ∈ m.sessionsOf call.gatewayIndex ∨
      call.operation = .create ∧ id = call.sessionId)
    (hgone : remote = .replied true → call.operation ≠ .create → call.sessionId ∉ sessions) :
    Frame sessionId m (m.carryOut i call sessions remote) where
  route := rfl
  share := by
    unfold framework.share GatewayManager.carryOut
    have hsame : weight { call with remote } = weight call := rfl
    rw [weigh_set _ { call with remote } hcall rfl, hsame]
    simp
  kept := by
    intro j call' hcall' _
    by_cases hij : i = j
    · subst hij
      rw [hcall] at hcall'
      cases hcall'
      refine ⟨{ call with remote }, ?_, rfl, rfl⟩
      exact List.getElem?_set_self (List.getElem?_eq_some_iff.mp hcall).1
    · refine ⟨call', ?_, rfl, rfl⟩
      exact (List.getElem?_set_ne hij).trans hcall'
  calls := by
    intro j call' hcall' hid'
    rcases GatewayManager.eq_or_of_getElem?_set hcall' with ⟨rfl, rfl⟩ | ⟨_, hold⟩
    · refine ⟨call, hcall, rfl, rfl, Or.inr ⟨hremote, ?_⟩⟩
      intro hreply hoperation hmem
      rw [sessionsOf_carryOut] at hmem
      split at hmem
      · exact hgone hreply hoperation
          (by rw [show call.sessionId = sessionId from hid']; exact hmem)
      · rename_i hrange
        have hge : m.actors.length ≤ call.gatewayIndex :=
          Nat.le_of_not_lt (fun hlt => hrange ⟨rfl, hlt⟩)
        unfold GatewayManager.sessionsOf at hmem
        rw [List.getD_eq_getElem?_getD, List.getElem?_eq_none hge] at hmem
        cases hmem
    · exact ⟨call', hold, rfl, rfl, Or.inl rfl⟩
  tables := by
    intro g h
    rw [sessionsOf_carryOut] at h
    split at h
    · rename_i hrange
      rcases hadded sessionId h with hold | ⟨hcreate, hid⟩
      · exact Or.inl (hrange.1 ▸ hold)
      · refine Or.inr ⟨call, List.mem_of_getElem? hcall, ?_, hremote⟩
        unfold Call.place
        rw [hcreate, hid, hrange.1]
    · exact Or.inl h

theorem frame_of_others {sessionId : String} {m m' : GatewayManager} {a : gateway.Action}
    (ha : Rollout.isOthers sessionId m a = true) (hstep : m.step a = some m') :
    Frame sessionId m m' := by
  cases effect_of_step hstep with
  | called id gatewayIndex hindex =>
    have hid : id ≠ sessionId := bne_iff_ne.mp ha
    refine Frame.append ⟨.create, id, gatewayIndex, .sent, none⟩ hid rfl ?_ rfl
    exact (GatewayManager.lookup_setRoute _ _ _ _).trans (if_neg (Ne.symm hid))
  | unknown => exact Frame.refl sessionId m
  | routed operation hoperation id hrouted gatewayIndex hroute =>
    have hid : id ≠ sessionId := by
      rcases hrouted with rfl | rfl <;> exact bne_iff_ne.mp ha
    exact Frame.append ⟨operation, id, gatewayIndex, .sent, none⟩ hid rfl rfl rfl
  | carried hquiet i call hcall hremote sessions remote hadded hgone =>
    exact Frame.carryOut hcall hremote hadded hgone
  | replied i call ok hcall hreturned hremote =>
    have hid : call.sessionId ≠ sessionId := by
      simp only [Rollout.isOthers, hcall, Option.all_some, bne_iff_ne] at ha
      exact ha
    exact Frame.endCall hcall hid ok
  | interrupted i call hcall hreturned =>
    have hid : call.sessionId ≠ sessionId := by
      simp only [Rollout.isOthers, hcall, Option.all_some, bne_iff_ne] at ha
      exact ha
    exact Frame.endCall hcall hid false

theorem frame_of_step {sessionId : String} {m : GatewayManager} {place : Place} {r' : Rollout}
    {a : gateway.Action} (hstep : Rollout.step sessionId ⟨m, place⟩ (.others a) = some r') :
    ∃ m', Frame sessionId m m' ∧ r' = ⟨m', place⟩ := by
  simp only [Rollout.step] at hstep
  split at hstep
  · rename_i hothers
    obtain ⟨m', hm', rfl⟩ := Option.map_eq_some_iff.mp hstep
    exact ⟨m', frame_of_others hothers hm', rfl⟩
  · cases hstep

/-! ## What holds at each place -/

/-- Nobody has heard of the session. -/
structure Fresh (m : GatewayManager) (sessionId : String) : Prop where
  calls : ∀ call ∈ m.calls, call.sessionId ≠ sessionId
  route : m.route sessionId = none
  tables : ∀ g, sessionId ∉ m.sessionsOf g

/-- `create_session` is awaited, and it is the only call of the session. -/
structure Requested (m : GatewayManager) (sessionId : String) (g i : Nat) : Prop where
  route : m.route sessionId = some g
  share : share m sessionId = 1
  call : ∃ call, m.calls[i]? = some call ∧ call.place = (.create, sessionId, g)
  only : ∀ (j : Nat) (call : Call), m.calls[j]? = some call → call.sessionId = sessionId → j = i
  tables : ∀ g', sessionId ∈ m.sessionsOf g' → g' = g

/-- The session is open: it has its route, and its share in the counter. It is in the table of its
gateway at most, and no longer once a call that closes it is carried out. -/
structure Owned (m : GatewayManager) (sessionId : String) (g : Nat) : Prop where
  route : m.route sessionId = some g
  share : share m sessionId = 1
  tables : ∀ g', sessionId ∈ m.sessionsOf g' → g' = g
  created : ∀ call ∈ m.calls, call.sessionId = sessionId → call.operation = .create →
    call.remote = .replied true
  gone : ∀ call ∈ m.calls, call.sessionId = sessionId → call.operation ≠ .create →
    call.gatewayIndex = g ∧ (call.remote = .replied true → sessionId ∉ m.sessionsOf g)

/-- The session is closed, and no create of it is open. -/
structure Settled (m : GatewayManager) (sessionId : String) : Prop where
  closed : Closed m sessionId
  created : ∀ call ∈ m.calls, call.sessionId = sessionId → call.operation = .create →
    call.remote = .replied true

/-- The session awaits a call. -/
def Awaits (m : GatewayManager) (i : Nat) (operation : Operation) (sessionId : String) (g : Nat) :
    Prop :=
  ∃ call, m.calls[i]? = some call ∧ call.place = (operation, sessionId, g)

def Good (sessionId : String) (r : Rollout) : Prop :=
  match r.place with
  | .start => Fresh r.manager sessionId
  | .creating i => ∃ g, Requested r.manager sessionId g i
  | .running => ∃ g, Owned r.manager sessionId g
  | .finalizing i => ∃ g, Owned r.manager sessionId g ∧ Awaits r.manager i .finalize sessionId g
  | .aborting i => ∃ g, Owned r.manager sessionId g ∧ Awaits r.manager i .abort sessionId g
  | .scoring | .exited true => Settled r.manager sessionId
  | .exited false => True

theorem place_eq_iff {call : Call} {operation : Operation} {sessionId : String} {g : Nat} :
    call.place = (operation, sessionId, g) ↔
      call.operation = operation ∧ call.sessionId = sessionId ∧ call.gatewayIndex = g := by
  unfold Call.place
  simp only [Prod.mk.injEq]

section Frames

variable {sessionId : String} {m m' : GatewayManager} (h : Frame sessionId m m')

include h

theorem Frame.fresh (hm : Fresh m sessionId) : Fresh m' sessionId where
  calls := by
    intro call' hcall' hid
    obtain ⟨i, hi⟩ := List.getElem?_of_mem hcall'
    obtain ⟨call, hcall, hplace, _⟩ := h.calls i call' hi hid
    have hsame := congrArg (fun place => place.2.1) hplace
    exact hm.calls call (List.mem_of_getElem? hcall) (hsame.symm.trans hid)
  route := h.route.trans hm.route
  tables := by
    intro g hg
    rcases h.tables g hg with hold | ⟨call, hcall, hplace, _⟩
    · exact hm.tables g hold
    · exact hm.calls call hcall (place_eq_iff.mp hplace).2.1

theorem Frame.awaits {i g : Nat} {operation : Operation} (hm : Awaits m i operation sessionId g) :
    Awaits m' i operation sessionId g := by
  obtain ⟨call, hcall, hplace⟩ := hm
  obtain ⟨call', hcall', hsame, _⟩ := h.kept i call hcall (place_eq_iff.mp hplace).2.1
  exact ⟨call', hcall', hsame.trans hplace⟩

theorem Frame.requested {g i : Nat} (hm : Requested m sessionId g i) :
    Requested m' sessionId g i where
  route := h.route.trans hm.route
  share := h.share.trans hm.share
  call := h.awaits hm.call
  only := by
    intro j call' hcall' hid
    obtain ⟨call, hcall, hplace, _⟩ := h.calls j call' hcall' hid
    exact hm.only j call hcall ((congrArg (fun place => place.2.1) hplace).symm.trans hid)
  tables := by
    intro g' hg'
    rcases h.tables g' hg' with hold | ⟨call, hcall, hplace, _⟩
    · exact hm.tables g' hold
    · obtain ⟨j, hj⟩ := List.getElem?_of_mem hcall
      obtain ⟨_, hid, hindex⟩ := place_eq_iff.mp hplace
      obtain ⟨mine, hmine, hplace'⟩ := hm.call
      rw [hm.only j call hj hid, hmine] at hj
      cases hj
      exact hindex.symm.trans (place_eq_iff.mp hplace').2.2

/-- A create that was answered is not carried out again. -/
theorem Frame.created (hm : ∀ call ∈ m.calls, call.sessionId = sessionId →
    call.operation = .create → call.remote = .replied true) :
    (∀ call ∈ m'.calls, call.sessionId = sessionId → call.operation = .create →
      call.remote = .replied true) ∧
    ∀ g, sessionId ∈ m'.sessionsOf g → sessionId ∈ m.sessionsOf g := by
  refine ⟨?_, ?_⟩
  · intro call' hcall' hid hcreate
    obtain ⟨i, hi⟩ := List.getElem?_of_mem hcall'
    obtain ⟨call, hcall, hplace, _, hremote⟩ := h.calls i call' hi hid
    obtain ⟨hoperation, hid', _⟩ := place_eq_iff.mp hplace.symm
    have hreplied := hm call (List.mem_of_getElem? hcall) (hid'.trans hid)
      (hoperation.trans hcreate)
    rcases hremote with hsame | ⟨hopen, _⟩
    · exact hsame.trans hreplied
    · exact absurd hreplied (hopen true)
  · intro g hg
    rcases h.tables g hg with hold | ⟨call, hcall, hplace, hopen⟩
    · exact hold
    · obtain ⟨hcreate, hid, _⟩ := place_eq_iff.mp hplace
      exact absurd (hm call hcall hid hcreate) (hopen true)

theorem Frame.owned {g : Nat} (hm : Owned m sessionId g) : Owned m' sessionId g where
  route := h.route.trans hm.route
  share := h.share.trans hm.share
  tables := fun g' hg' => hm.tables g' ((h.created hm.created).2 g' hg')
  created := (h.created hm.created).1
  gone := by
    intro call' hcall' hid hoperation
    obtain ⟨i, hi⟩ := List.getElem?_of_mem hcall'
    obtain ⟨call, hcall, hplace, _, hremote⟩ := h.calls i call' hi hid
    obtain ⟨hoperation', hid', hindex⟩ := place_eq_iff.mp hplace.symm
    have hother : call.operation ≠ .create := fun hcreate =>
      hoperation (hoperation'.symm.trans hcreate)
    obtain ⟨hg, hgone⟩ := hm.gone call (List.mem_of_getElem? hcall) (hid'.trans hid) hother
    refine ⟨hindex.symm.trans hg, ?_⟩
    intro hreplied
    rcases hremote with hsame | ⟨_, hgone'⟩
    · exact fun hmem => hgone (hsame.symm.trans hreplied) ((h.created hm.created).2 g hmem)
    · rw [← hg]
      exact hgone' hreplied hother

theorem Frame.settled (hm : Settled m sessionId) : Settled m' sessionId where
  closed := {
    tables := fun g hg => hm.closed.tables g ((h.created hm.created).2 g hg)
    route := h.route.trans hm.closed.route
    share := h.share.trans hm.closed.share }
  created := (h.created hm.created).1

theorem Frame.good {place : Place} (hm : Good sessionId ⟨m, place⟩) :
    Good sessionId ⟨m', place⟩ := by
  cases place with
  | start => exact h.fresh hm
  | creating i =>
    obtain ⟨g, hm⟩ := hm
    exact ⟨g, h.requested hm⟩
  | running =>
    obtain ⟨g, hm⟩ := hm
    exact ⟨g, h.owned hm⟩
  | finalizing i =>
    obtain ⟨g, hm, hawaits⟩ := hm
    exact ⟨g, h.owned hm, h.awaits hawaits⟩
  | aborting i =>
    obtain ⟨g, hm, hawaits⟩ := hm
    exact ⟨g, h.owned hm, h.awaits hawaits⟩
  | scoring => exact h.settled hm
  | exited created =>
    cases created with
    | true => exact h.settled hm
    | false => trivial

end Frames

/-! ## The steps of the session -/

theorem reply_cases {m m' : GatewayManager} {i : Nat} (h : m.step (.reply i) = some m') :
    ∃ call ok, m.calls[i]? = some call ∧ call.returned = none ∧ call.remote = .replied ok ∧
      m' = m.endCall i call ok := by
  cases effect_of_step h with
  | unknown hquiet => cases hquiet
  | routed _ _ _ ha => rcases ha with ha | ha <;> cases ha
  | carried hquiet => cases hquiet
  | replied i call ok hcall hreturned hremote => exact ⟨call, ok, hcall, hreturned, hremote, rfl⟩

theorem interrupt_cases {m m' : GatewayManager} {i : Nat} (h : m.step (.interrupt i) = some m') :
    ∃ call, m.calls[i]? = some call ∧ call.returned = none ∧ m' = m.endCall i call false := by
  cases effect_of_step h with
  | unknown hquiet => cases hquiet
  | routed _ _ _ ha => rcases ha with ha | ha <;> cases ha
  | carried hquiet => cases hquiet
  | interrupted i call hcall hreturned => exact ⟨call, hcall, hreturned, rfl⟩

/-- The end of a call of an open session, with the share that is left. -/
theorem share_endCall {m : GatewayManager} {i : Nat} {call : Call} (hcall : m.calls[i]? = some call)
    (hreturned : call.returned = none) (ok : Bool) :
    share (m.endCall i call ok) call.sessionId = share m call.sessionId +
      if call.operation = .create ↔ ok = false then -1 else 0 := by
  unfold share
  rw [GatewayManager.calls_endCall, weigh_set _ { call with returned := some ok } hcall rfl,
    weight_end hreturned]
  simp

theorem requested_of_fresh {m m' : GatewayManager} {sessionId : String} (hm : Fresh m sessionId)
    (h : m.createSession sessionId = some m') : ∃ g, Requested m' sessionId g m.calls.length := by
  obtain ⟨g, _, rfl⟩ := Option.map_eq_some_iff.mp h
  refine ⟨g, ?_, ?_, ?_, ?_, ?_⟩
  · exact (GatewayManager.lookup_setRoute _ _ _ _).trans (if_pos rfl)
  · have hzero := weigh_eq_zero (p := fun call => call.sessionId == sessionId)
      (fun call hcall => beq_false_of_ne (hm.calls call hcall))
    unfold share GatewayManager.reserve
    rw [weigh_append, hzero]
    simp [weight]
  · refine ⟨⟨.create, sessionId, g, .sent, none⟩, ?_, rfl⟩
    unfold GatewayManager.reserve
    rw [List.getElem?_append_right (Nat.le_refl _), Nat.sub_self]
    rfl
  · intro j call hcall hid
    unfold GatewayManager.reserve at hcall
    rcases Nat.lt_trichotomy j m.calls.length with hlt | heq | hgt
    · rw [List.getElem?_append_left hlt] at hcall
      exact absurd hid (hm.calls call (List.mem_of_getElem? hcall))
    · exact heq
    · rw [List.getElem?_eq_none (by simp; omega)] at hcall
      cases hcall
  · intro g' hg'
    exact absurd hg' (hm.tables g')

/-- `create_session` returns. -/
theorem owned_of_requested {m : GatewayManager} {sessionId : String} {g i : Nat}
    (hm : Requested m sessionId g i) {call : Call} (hcall : m.calls[i]? = some call)
    (hreturned : call.returned = none) (hremote : call.remote = .replied true) :
    Owned (m.endCall i call true) sessionId g := by
  obtain ⟨mine, hmine, hplace⟩ := hm.call
  rw [hcall] at hmine
  cases hmine
  obtain ⟨hcreate, hid, _⟩ := place_eq_iff.mp hplace
  have hstays : ¬ Releases call.operation true := by simp [Releases, hcreate]
  have honly : ∀ call' ∈ (m.endCall i call true).calls, call'.sessionId = sessionId →
      call' = { call with returned := some true } := by
    intro call' hcall' hid'
    rw [GatewayManager.calls_endCall] at hcall'
    obtain ⟨j, hj⟩ := List.getElem?_of_mem hcall'
    rcases GatewayManager.eq_or_of_getElem?_set hj with ⟨_, heq⟩ | ⟨hne, hold⟩
    · exact heq
    · exact absurd (hm.only j call' hold hid').symm hne
  refine ⟨?_, ?_, ?_, ?_, ?_⟩
  · rw [GatewayManager.endCall_of_not_releases hstays]
    exact hm.route
  · have hshare := share_endCall hcall hreturned true
    rw [hid] at hshare
    rw [hshare, hm.share]
    simp [hcreate]
  · rw [GatewayManager.endCall_of_not_releases hstays]
    exact hm.tables
  · intro call' hcall' hid' _
    rw [honly call' hcall' hid']
    exact hremote
  · intro call' hcall' hid' hother
    rw [honly call' hcall' hid'] at hother
    exact absurd hcreate hother

/-- `finalize_session` or `abort_session` is called for an open session. -/
theorem owned_routeCall {m : GatewayManager} {sessionId : String} {g : Nat}
    (hm : Owned m sessionId g) {operation : Operation} (hoperation : operation ≠ .create) :
    Owned (m.routeCall operation sessionId) sessionId g ∧
      Awaits (m.routeCall operation sessionId) m.calls.length operation sessionId g := by
  have hcall : m.routeCall operation sessionId =
      { m with calls := m.calls ++ [⟨operation, sessionId, g, .sent, none⟩] } := by
    unfold GatewayManager.routeCall
    rw [hm.route]
  rw [hcall]
  refine ⟨⟨hm.route, ?_, hm.tables, ?_, ?_⟩, ?_⟩
  · unfold share
    rw [weigh_append, show weigh (fun call => call.sessionId == sessionId) m.calls =
      1 from hm.share]
    cases operation with
    | create => exact absurd rfl hoperation
    | finalize => simp [weight]
    | abort => simp [weight]
  · intro call hcall hid hcreate
    rcases List.mem_append.mp hcall with hold | hnew
    · exact hm.created call hold hid hcreate
    · rw [List.mem_singleton.mp hnew] at hcreate
      exact absurd hcreate hoperation
  · intro call hcall hid hother
    rcases List.mem_append.mp hcall with hold | hnew
    · exact hm.gone call hold hid hother
    · rw [List.mem_singleton.mp hnew]
      exact ⟨rfl, fun hreplied => by cases hreplied⟩
  · refine ⟨⟨operation, sessionId, g, .sent, none⟩, ?_, rfl⟩
    rw [List.getElem?_append_right (Nat.le_refl _), Nat.sub_self]
    rfl

/-- A call that fails leaves the session open. -/
theorem owned_of_failed {m : GatewayManager} {sessionId : String} {g i : Nat}
    (hm : Owned m sessionId g) {operation : Operation} (hoperation : operation ≠ .create)
    (hawaits : Awaits m i operation sessionId g) {call : Call} (hcall : m.calls[i]? = some call)
    (hreturned : call.returned = none) : Owned (m.endCall i call false) sessionId g := by
  obtain ⟨mine, hmine, hplace⟩ := hawaits
  rw [hcall] at hmine
  cases hmine
  obtain ⟨rfl, rfl, hindex⟩ := place_eq_iff.mp hplace
  have hstays : ¬ Releases call.operation false := by simp [Releases, hoperation]
  have hmem := List.mem_of_getElem? hcall
  have hshare := share_endCall hcall hreturned false
  rw [GatewayManager.endCall_of_not_releases hstays] at hshare ⊢
  refine ⟨hm.route, ?_, hm.tables, ?_, ?_⟩
  · rw [hshare, hm.share]
    simp [hoperation]
  · intro call' hcall' hid hcreate
    rcases List.mem_or_eq_of_mem_set hcall' with hold | rfl
    · exact hm.created call' hold hid hcreate
    · exact absurd hcreate hoperation
  · intro call' hcall' hid hother
    rcases List.mem_or_eq_of_mem_set hcall' with hold | rfl
    · exact hm.gone call' hold hid hother
    · exact hm.gone call hmem rfl hother

/-- A call that the actor carried out closes the session. -/
theorem settled_of_returned {m : GatewayManager} {sessionId : String} {g i : Nat}
    (hm : Owned m sessionId g) {operation : Operation} (hoperation : operation ≠ .create)
    (hawaits : Awaits m i operation sessionId g) {call : Call} (hcall : m.calls[i]? = some call)
    (hreturned : call.returned = none) (hremote : call.remote = .replied true) :
    Settled (m.endCall i call true) sessionId := by
  obtain ⟨mine, hmine, hplace⟩ := hawaits
  rw [hcall] at hmine
  cases hmine
  obtain ⟨rfl, rfl, hindex⟩ := place_eq_iff.mp hplace
  have hreleases : Releases call.operation true := by simp [Releases, hoperation]
  have hmem := List.mem_of_getElem? hcall
  have hshare := share_endCall hcall hreturned true
  have hgone := (hm.gone call hmem rfl hoperation).2 hremote
  refine ⟨⟨?_, ?_, ?_⟩, ?_⟩
  · intro g' hg'
    have hold : call.sessionId ∈ m.sessionsOf g' := by
      rw [GatewayManager.endCall_of_releases hreleases] at hg'
      exact hg'
    exact hgone (hm.tables g' hold ▸ hold)
  · rw [GatewayManager.endCall_of_releases hreleases, GatewayManager.route_popRoute, if_pos rfl]
  · rw [hshare, hm.share]
    simp [hoperation]
  · rw [GatewayManager.calls_endCall]
    intro call' hcall' hid hcreate
    rcases List.mem_or_eq_of_mem_set hcall' with hold | rfl
    · exact hm.created call' hold hid hcreate
    · exact absurd hcreate hoperation

theorem good_abort {m : GatewayManager} {sessionId : String} {g : Nat} (hm : Owned m sessionId g) :
    Good sessionId (Rollout.abort sessionId m) := by
  unfold Rollout.abort
  rw [hm.route]
  exact ⟨g, owned_routeCall hm (by simp)⟩

theorem good_finalize {m : GatewayManager} {sessionId : String} {g : Nat}
    (hm : Owned m sessionId g) : Good sessionId (Rollout.finalize sessionId m) := by
  unfold Rollout.finalize
  rw [hm.route]
  exact ⟨g, owned_routeCall hm (by simp)⟩

theorem good_abort_of_settled {m : GatewayManager} {sessionId : String}
    (hm : Settled m sessionId) : Good sessionId (Rollout.abort sessionId m) := by
  unfold Rollout.abort
  rw [hm.closed.route]
  exact hm

/-- The reply that the task waits for keeps what holds at each place. -/
theorem good_reply {sessionId : String} {r r' : Rollout} {selects : Bool} (h : Good sessionId r)
    (habort : r.abortSucceeds (.reply selects) = true)
    (hstep : r.step sessionId (.reply selects) = some r') : Good sessionId r' := by
  obtain ⟨m, place⟩ := r
  simp only [Rollout.step] at hstep
  split at hstep
  · rename_i i
    obtain ⟨m', hm', rfl⟩ := Option.map_eq_some_iff.mp hstep
    obtain ⟨call, ok, hcall, hreturned, hremote, rfl⟩ := reply_cases hm'
    cases ok with
    | true =>
      obtain ⟨g, h⟩ := h
      have hreplied : Rollout.replied m i = true := by simp [Rollout.replied, hcall, hremote]
      simp only [hreplied, if_true]
      exact ⟨g, owned_of_requested h hcall hreturned hremote⟩
    | false =>
      have hreplied : Rollout.replied m i = false := by simp [Rollout.replied, hcall, hremote]
      simp only [hreplied, Bool.false_eq_true, if_false]
      trivial
  · rename_i i
    obtain ⟨m', hm', rfl⟩ := Option.map_eq_some_iff.mp hstep
    obtain ⟨call, ok, hcall, hreturned, hremote, rfl⟩ := reply_cases hm'
    obtain ⟨g, h, hawaits⟩ := h
    cases ok with
    | true =>
      have hreplied : Rollout.replied m i = true := by simp [Rollout.replied, hcall, hremote]
      have hsettled := settled_of_returned h (by simp) hawaits hcall hreturned hremote
      cases selects with
      | true =>
        simp only [hreplied, Bool.and_self, if_true]
        exact hsettled
      | false =>
        simp only [Bool.and_false, Bool.false_eq_true, if_false]
        exact good_abort_of_settled hsettled
    | false =>
      have hreplied : Rollout.replied m i = false := by simp [Rollout.replied, hcall, hremote]
      simp only [hreplied, Bool.false_and, Bool.false_eq_true, if_false]
      exact good_abort (owned_of_failed h (by simp) hawaits hcall hreturned)
  · rename_i i
    obtain ⟨m', hm', rfl⟩ := Option.map_eq_some_iff.mp hstep
    obtain ⟨call, ok, hcall, hreturned, hremote, rfl⟩ := reply_cases hm'
    obtain ⟨g, h, hawaits⟩ := h
    have hok : ok = true := by
      simpa [Rollout.abortSucceeds, Rollout.replied, hcall, hremote] using habort
    subst hok
    exact settled_of_returned h (by simp) hawaits hcall hreturned hremote
  · cases hstep

/-- A step that does not cancel the task early keeps what holds at each place. -/
theorem good_step {sessionId : String} {r r' : Rollout} {a : Action} (h : Good sessionId r)
    (habort : r.abortSucceeds a = true) (hcancel : r.cancelledEarly a = false)
    (hstep : r.step sessionId a = some r') : Good sessionId r' := by
  obtain ⟨m, place⟩ := r
  cases a with
  | others a =>
    obtain ⟨m', hframe, rfl⟩ := frame_of_step hstep
    exact hframe.good h
  | create =>
    simp only [Rollout.step] at hstep
    split at hstep
    · obtain ⟨m', hm', rfl⟩ := Option.map_eq_some_iff.mp hstep
      exact requested_of_fresh h hm'
    · cases hstep
  | runner outcome =>
    simp only [Rollout.step] at hstep
    split at hstep
    · cases hstep
      obtain ⟨g, h⟩ := h
      exact good_finalize h
    · cases hstep
      obtain ⟨g, h⟩ := h
      exact good_abort h
    · cases hcancel
    · cases hstep
  | reply selects => exact good_reply h habort hstep
  | fail =>
    simp only [Rollout.step] at hstep
    split at hstep
    · obtain ⟨m', hm', rfl⟩ := Option.map_eq_some_iff.mp hstep
      trivial
    · obtain ⟨m', hm', rfl⟩ := Option.map_eq_some_iff.mp hstep
      obtain ⟨call, hcall, hreturned, rfl⟩ := interrupt_cases hm'
      obtain ⟨g, h, hawaits⟩ := h
      exact good_abort (owned_of_failed h (by simp) hawaits hcall hreturned)
    · cases habort
    · cases hstep
  | cancel =>
    simp only [Rollout.step] at hstep
    split at hstep
    · obtain ⟨m', hm', rfl⟩ := Option.map_eq_some_iff.mp hstep
      trivial
    · cases hcancel
    · cases habort
    · cases hcancel
    · cases hstep
      exact h
    · cases hstep
    · cases hstep
  | scored =>
    simp only [Rollout.step] at hstep
    split at hstep
    · cases hstep
      exact h
    · cases hstep

/-- A task that is cancelled early leaves at once, with its session open. -/
theorem owned_of_cancelledEarly {sessionId : String} {r r' : Rollout} {a : Action}
    (h : Good sessionId r) (hcancel : r.cancelledEarly a = true)
    (hstep : r.step sessionId a = some r') :
    r'.place = .exited true ∧ ∃ g, Owned r'.manager sessionId g := by
  obtain ⟨m, place⟩ := r
  cases a with
  | runner outcome =>
    have houtcome : outcome = .cancelled := by simpa [Rollout.cancelledEarly] using hcancel
    subst houtcome
    cases place <;> simp only [Rollout.step] at hstep <;> cases hstep
    exact ⟨rfl, h⟩
  | cancel =>
    cases place with
    | running =>
      cases hstep
      exact ⟨rfl, h⟩
    | finalizing i =>
      obtain ⟨m', hm', rfl⟩ := Option.map_eq_some_iff.mp hstep
      obtain ⟨call, hcall, hreturned, rfl⟩ := interrupt_cases hm'
      obtain ⟨g, h, hawaits⟩ := h
      exact ⟨rfl, g, owned_of_failed h (by simp) hawaits hcall hreturned⟩
    | _ => cases hcancel
  | _ => cases hcancel

/-- Nobody closes the session of a task that has left. -/
theorem owned_of_exited {sessionId : String} {r r' : Rollout} {actions : List Action} {g : Nat}
    (hplace : r.place = .exited true) (h : Owned r.manager sessionId g)
    (hrun : runs.run (Rollout.step sessionId) r actions = some r') :
    Owned r'.manager sessionId g := by
  have hinvariant := runs.run_invariant_of_step
    (fun r : Rollout => r.place = .exited true ∧ Owned r.manager sessionId g) ?_ hrun ⟨hplace, h⟩
  · exact hinvariant.2
  · rintro ⟨m, place⟩ a t ⟨rfl, h⟩ hstep
    cases a with
    | others a =>
      obtain ⟨m', hframe, rfl⟩ := frame_of_step hstep
      exact ⟨rfl, hframe.owned h⟩
    | _ => cases hstep

theorem counted_abort {m : GatewayManager} (h : Counted m) (sessionId : String) :
    Counted (Rollout.abort sessionId m).manager := by
  unfold Rollout.abort
  split
  · exact h
  · exact h.step (a := .abortSession sessionId) rfl

theorem counted_finalize {m : GatewayManager} (h : Counted m) (sessionId : String) :
    Counted (Rollout.finalize sessionId m).manager := by
  unfold Rollout.finalize
  split
  · exact counted_abort h sessionId
  · exact h.step (a := .finalizeSession sessionId) rfl

theorem counted_step {sessionId : String} {r r' : Rollout} {a : Action} (h : Counted r.manager)
    (hstep : r.step sessionId a = some r') : Counted r'.manager := by
  obtain ⟨m, place⟩ := r
  have hmap : ∀ {b : gateway.Action} {f : GatewayManager → Rollout},
      (∀ m', Counted m' → Counted (f m').manager) → (m.step b).map f = some r' →
        Counted r'.manager := by
    intro b f hf hmap
    obtain ⟨m', hm', rfl⟩ := Option.map_eq_some_iff.mp hmap
    exact hf m' (Counted.step h hm')
  cases a with
  | others a =>
    simp only [Rollout.step] at hstep
    split at hstep
    · exact hmap (fun _ h => h) hstep
    · cases hstep
  | create =>
    simp only [Rollout.step] at hstep
    split at hstep
    · exact hmap (b := .createSession sessionId) (fun _ h => h) hstep
    · cases hstep
  | runner outcome =>
    simp only [Rollout.step] at hstep
    split at hstep <;> cases hstep
    · exact counted_finalize h sessionId
    · exact counted_abort h sessionId
    · exact h
  | reply selects =>
    simp only [Rollout.step] at hstep
    split at hstep
    · exact hmap (fun _ h => h) hstep
    · refine hmap (fun m' h => ?_) hstep
      split
      · exact h
      · exact counted_abort h sessionId
    · exact hmap (fun _ h => h) hstep
    · cases hstep
  | fail =>
    simp only [Rollout.step] at hstep
    split at hstep
    · exact hmap (fun _ h => h) hstep
    · exact hmap (fun _ h => counted_abort h sessionId) hstep
    · exact hmap (fun _ h => h) hstep
    · cases hstep
  | cancel =>
    simp only [Rollout.step] at hstep
    split at hstep
    · exact hmap (fun _ h => h) hstep
    · exact hmap (fun _ h => h) hstep
    · exact hmap (fun _ h => h) hstep
    all_goals cases hstep
    · exact h
    · exact h
  | scored =>
    simp only [Rollout.step] at hstep
    split at hstep <;> cases hstep
    exact h

/-- The session of a rollout is closed when `_run_session` exits exactly when the task was not
cancelled while it awaited the runner or `finalize_session`. Everybody else may do anything with
other sessions meanwhile. -/
theorem session_is_closed_iff {gatewayCount : Nat} {sessionId : String} {actions : List Action}
    {r : Rollout}
    (hrun : runs.run (Rollout.step sessionId) ⟨GatewayManager.running gatewayCount,
        .start⟩ actions =
      some r)
    (habort : runs.Meets (Rollout.step sessionId) (fun r a => r.abortSucceeds a = true)
      ⟨GatewayManager.running gatewayCount, .start⟩ actions)
    (hexit : r.place = .exited true) :
    Counted r.manager ∧ (Closed r.manager sessionId ↔
      runs.Meets (Rollout.step sessionId) (fun r a => r.cancelledEarly a = false)
        ⟨GatewayManager.running gatewayCount, .start⟩ actions) := by
  have hcounted := runs.run_invariant_of_step (fun r : Rollout => Counted r.manager)
    (fun _ _ _ h hstep => counted_step h hstep) hrun (counted_running gatewayCount)
  refine ⟨hcounted, ?_⟩
  have hgood : Good sessionId ⟨GatewayManager.running gatewayCount, .start⟩ := by
    refine ⟨by simp [GatewayManager.running], rfl, ?_⟩
    intro g hg
    unfold GatewayManager.sessionsOf GatewayManager.running at hg
    simp only [List.getD_eq_getElem?_getD, List.getElem?_replicate] at hg
    split at hg <;> cases hg
  generalize (⟨GatewayManager.running gatewayCount, .start⟩ : Rollout) =
    start at hrun habort hgood ⊢
  induction actions generalizing start with
  | nil =>
    cases hrun
    obtain ⟨m, place⟩ := r
    cases hexit
    have hsettled : Settled m sessionId := hgood
    exact ⟨fun _ => trivial, fun _ => hsettled.closed⟩
  | cons a rest ih =>
    obtain ⟨next, hnext, hrest⟩ := runs.run_cons.mp hrun
    have hsame : ∀ t, start.step sessionId a = some t → t = next :=
      fun t ht => Option.some.inj (ht.symm.trans hnext)
    cases hcancel : start.cancelledEarly a with
    | true =>
      obtain ⟨hplace, g, howned⟩ := owned_of_cancelledEarly hgood hcancel hnext
      have hopen := owned_of_exited hplace howned hrest
      refine ⟨?_, ?_⟩
      · intro hclosed
        exact absurd (hopen.route.symm.trans hclosed.route) (by simp)
      · intro hmeets
        exact absurd (hcancel.symm.trans hmeets.1) (by simp)
    | false =>
      have hiff := ih next hrest (habort.2 next hnext) (good_step hgood habort.1 hcancel hnext)
      refine hiff.trans ⟨?_, ?_⟩
      · intro hmeets
        exact ⟨hcancel, fun t ht => hsame t ht ▸ hmeets⟩
      · intro hmeets
        exact hmeets.2 next hnext

/-- The runner raises, and the session is aborted beside one of somebody else. -/
theorem session_is_closed_afterException :
    ∃ r, runs.run (Rollout.step "a") ⟨GatewayManager.running 2, .start⟩
      [.others (.createSession "b"), .create, .others (.start 1 true), .reply true, .runner .raised,
        .others (.start 2 true), .others (.finish 2 true), .reply true] = some r ∧
      r.place = .exited true ∧ Closed r.manager "a" := by
  have hfacts : (runs.run (Rollout.step "a") ⟨GatewayManager.running 2, .start⟩
      [.others (.createSession "b"), .create, .others (.start 1 true), .reply true, .runner .raised,
        .others (.start 2 true), .others (.finish 2 true), .reply true]).any
      (fun r => r.place == .exited true) = true := by
    decide
  obtain ⟨r, hrun, hplace⟩ := (Option.any_eq_true _ _).mp hfacts
  refine ⟨r, hrun, beq_iff_eq.mp hplace, ?_⟩
  apply (session_is_closed_iff hrun (runs.meets_of_checks (fun _ _ h => h) (by decide))
    (beq_iff_eq.mp hplace)).2.mpr
  have hchecks : runs.checks (Rollout.step "a") (fun r a => !r.cancelledEarly a)
      ⟨GatewayManager.running 2, .start⟩ [.others (.createSession "b"), .create,
        .others (.start 1 true), .reply true, .runner .raised, .others (.start 2 true),
        .others (.finish 2 true), .reply true] = true := by
    decide
  exact runs.meets_of_checks (fun r a h => by simpa using h) hchecks

/-- The task is cancelled while it awaits the runner, and its session keeps its route. -/
theorem a_cancelled_rollout_leaves_its_session_open :
    ¬ ∀ (gatewayCount : Nat) (sessionId : String) (actions : List Action) (r : Rollout),
      runs.run (Rollout.step sessionId) ⟨GatewayManager.running gatewayCount, .start⟩ actions =
        some r →
      runs.Meets (Rollout.step sessionId) (fun r a => r.abortSucceeds a = true)
        ⟨GatewayManager.running gatewayCount, .start⟩ actions →
      r.place = .exited true → Closed r.manager sessionId := by
  intro h
  have hfacts : (runs.run (Rollout.step "a") ⟨GatewayManager.running 1, .start⟩
      [.create, .others (.start 0 true), .reply true, .cancel]).any
      (fun r => r.place == .exited true && r.manager.route "a" == some 0) = true := by
    decide
  obtain ⟨r, hrun, hfacts⟩ := (Option.any_eq_true _ _).mp hfacts
  obtain ⟨hplace, hroute⟩ := Bool.and_eq_true_iff.mp hfacts
  have hclosed := h 1 "a" _ r hrun (runs.meets_of_checks (fun _ _ h => h) (by decide))
    (beq_iff_eq.mp hplace)
  exact absurd ((beq_iff_eq.mp hroute).symm.trans hclosed.route) (by simp)

end uni_agent.framework
