-- The instance behind a veFaaS sandbox: what `start()` and `stop()` record of it and forget, and
-- what the service has running. An instance has the number of the call of `create_sandbox` that
-- made it.
import Mathlib.Data.List.Basic

namespace uni_agent.sandbox.vefaas

/-! ## The code and the service -/

/-- How a call of `create_sandbox` ends for a `start()`: with an id; without one, by an exception,
a missing id or the timeout, be the instance made or not; or by the timeout while the thread has
still to carry it out. -/
inductive Create where
  | answered
  | unanswered (carriedOut : Bool)
  | underWay
  deriving DecidableEq, Repr

/-- What a `start()` meets, in order: is there a client, how does the creation end, and do
`wait_until_alive` and the command behind it return. The timeout can cut each of them off. -/
structure Attempt where
  client : Bool
  create : Create
  alive : Bool
  exec : Bool

/-- The fields of the object, and the instances of the service: the calls of `create_sandbox` so
far, those that a thread has still to carry out, and what is created and not killed. -/
structure VefaasSandbox where
  client : Bool
  sandboxId : Option Nat
  runtime : Option Nat
  creates : Nat
  underWay : List Nat
  live : List Nat
  deriving DecidableEq, Repr

namespace VefaasSandbox

/-- `__init__` -/
def init : VefaasSandbox := ⟨false, none, none, 0, [], []⟩

/-- `start()`, and whether it returns. -/
def start (s : VefaasSandbox) (a : Attempt) : VefaasSandbox × Bool :=
  if s.runtime.isSome then (s, true)
  else if !a.client then (s, false)
  else
    let number := s.creates
    let s := { s with client := true, creates := number + 1 }
    match a.create with
    | .unanswered carriedOut =>
      ({ s with live := if carriedOut then s.live ++ [number] else s.live }, false)
    | .underWay => ({ s with underWay := s.underWay ++ [number] }, false)
    | .answered =>
      let s := { s with live := s.live ++ [number], sandboxId := some number }
      if !a.alive then (s, false)
      else ({ s with runtime := some number }, a.exec)

/-- `stop()`, and whether it returns. The errors of `close` are swallowed there. -/
def stop (s : VefaasSandbox) (killed : Bool) : VefaasSandbox × Bool :=
  let s := { s with runtime := none }
  match s.sandboxId, s.client with
  | some number, true =>
    if killed then
      ({ s with live := s.live.erase number, sandboxId := none, client := false }, true)
    else (s, false)
  | _, _ => ({ s with client := false }, true)

/-- A thread carries out a call of `create_sandbox` that no one waits for any more. -/
def land (s : VefaasSandbox) (number : Nat) : VefaasSandbox :=
  if number ∈ s.underWay then
    { s with underWay := s.underWay.erase number, live := s.live ++ [number] }
  else s

/-- `__aenter__` and `__aexit__` call `start` and `stop` in turn. A thread is done at any time. -/
inductive Call where
  | start (attempt : Attempt)
  | stop (killed : Bool)
  | land (number : Nat)

def step (s : VefaasSandbox) : Call → VefaasSandbox × Bool
  | .start attempt => s.start attempt
  | .stop killed => s.stop killed
  | .land number => (s.land number, true)

/-! ## What is asked of a run -/

/-- What a call leaves: no instance but the recorded one is running, and a `start` or `stop` that
returns has done its work. -/
structure Kept (call : Call) (s : VefaasSandbox) (returned : Bool) : Prop where
  reachable : s.live = s.sandboxId.toList
  started : ∀ attempt, call = .start attempt → returned = true →
    ∃ number, s.runtime = some number ∧ number + 1 = s.creates ∧ number ∈ s.live
  stopped : ∀ killed, call = .stop killed → returned = true → s.live = []

def Keeps : VefaasSandbox → List Call → Prop
  | _, [] => True
  | s, call :: calls => Kept call (s.step call).1 (s.step call).2 ∧ Keeps (s.step call).1 calls

/-- A `create_sandbox` that is carried out is answered, and no earlier instance is recorded. -/
def IsRecorded (s : VefaasSandbox) : Call → Prop
  | .start attempt => s.runtime = none → attempt.client = true →
    (attempt.create = .answered → s.sandboxId = none) ∧ attempt.create ≠ .unanswered true
  | .stop _ => True
  | .land number => number ∉ s.underWay

def AllRecorded : VefaasSandbox → List Call → Prop
  | _, [] => True
  | s, call :: calls => s.IsRecorded call ∧ AllRecorded (s.step call).1 calls

/-- The fields agree with the service. -/
structure Sound (s : VefaasSandbox) : Prop where
  reachable : s.live = s.sandboxId.toList
  runtime : ∀ number, s.runtime = some number → s.sandboxId = some number ∧ number + 1 = s.creates
  client : s.sandboxId.isSome = true → s.client = true

theorem sound_init : Sound init := ⟨rfl, nofun, nofun⟩

variable {s : VefaasSandbox}

/-! ## One call -/

/-- The ways of a `start`. -/
inductive StartRun (s : VefaasSandbox) (a : Attempt) : VefaasSandbox → Bool → Prop
  | running (number : Nat) (h : s.runtime = some number) : StartRun s a s true
  | noClient (h : s.runtime = none) (hclient : a.client = false) : StartRun s a s false
  | answered (h : s.runtime = none) (hclient : a.client = true) (hcreate : a.create = .answered) :
      StartRun s a ⟨true, some s.creates, if a.alive then some s.creates else none, s.creates + 1,
        s.underWay, s.live ++ [s.creates]⟩ (a.alive && a.exec)
  | unanswered (h : s.runtime = none) (hclient : a.client = true) (carriedOut : Bool)
      (hcreate : a.create = .unanswered carriedOut) :
      StartRun s a ⟨true, s.sandboxId, none, s.creates + 1, s.underWay,
        if carriedOut then s.live ++ [s.creates] else s.live⟩ false
  | underWay (h : s.runtime = none) (hclient : a.client = true) (hcreate : a.create = .underWay) :
      StartRun s a ⟨true, s.sandboxId, none, s.creates + 1, s.underWay ++ [s.creates], s.live⟩ false

theorem startRun_start (s : VefaasSandbox) (a : Attempt) :
    StartRun s a (s.start a).1 (s.start a).2 := by
  obtain ⟨client, sandboxId, runtime, creates, underWay, live⟩ := s
  obtain ⟨hasClient, create, alive, exec⟩ := a
  cases runtime with
  | some number => exact .running number rfl
  | none =>
    cases hasClient with
    | false => exact .noClient rfl rfl
    | true =>
      cases create with
      | answered => cases alive <;> exact .answered rfl rfl rfl
      | unanswered carriedOut => exact .unanswered rfl rfl carriedOut rfl
      | underWay => exact .underWay rfl rfl rfl

theorem append_ne_self {number : Nat} {live : List Nat} : live ++ [number] ≠ live := by
  intro h
  have hlength := congrArg List.length h
  rw [List.length_append, List.length_singleton] at hlength
  omega

/-- A call that does not return is asked for nothing but the first law. -/
theorem kept_of_failed {call : Call} (h : s.live = s.sandboxId.toList) : Kept call s false :=
  ⟨h, nofun, nofun⟩

theorem live_of_none (h : Sound s) (hid : s.sandboxId = none) : s.live = [] := by
  rw [h.reachable, hid]
  rfl

theorem live_of_some (h : Sound s) {number : Nat} (hid : s.sandboxId = some number) :
    s.live = [number] := by
  rw [h.reachable, hid]
  rfl

/-- A `start` keeps the instances if and only if what it creates is recorded. -/
theorem kept_start_iff (h : Sound s) {a : Attempt} {t : VefaasSandbox} {returned : Bool}
    (hrun : StartRun s a t returned) :
    Kept (.start a) t returned ↔ s.IsRecorded (.start a) := by
  cases hrun with
  | running number hruntime =>
    obtain ⟨hid, hlatest⟩ := h.runtime number hruntime
    refine ⟨?_, ?_⟩
    · intro _ hnone
      rw [hruntime] at hnone
      cases hnone
    · refine fun _ => ⟨h.reachable, fun _ _ _ => ⟨number, hruntime, hlatest, ?_⟩, nofun⟩
      rw [live_of_some h hid]
      exact List.mem_singleton_self number
  | noClient hruntime hclient =>
    refine ⟨fun _ _ hyes => ?_, fun _ => kept_of_failed h.reachable⟩
    rw [hclient] at hyes
    cases hyes
  | answered hruntime hclient hcreate =>
    refine ⟨?_, ?_⟩
    · intro hkept _ _
      refine ⟨fun _ => ?_, by rw [hcreate]; exact nofun⟩
      have hreach : s.live ++ [s.creates] = [] ++ [s.creates] := hkept.reachable
      have hnone : s.live = [] := List.append_cancel_right hreach
      rw [h.reachable] at hnone
      exact Option.toList_eq_nil_iff.mp hnone
    · intro hrecorded
      have hlive := live_of_none h ((hrecorded hruntime hclient).1 hcreate)
      refine ⟨by rw [hlive]; rfl, ?_, nofun⟩
      intro _ _ hreturned
      rw [Bool.and_eq_true] at hreturned
      refine ⟨s.creates, if_pos hreturned.1, rfl, ?_⟩
      exact List.mem_append_right _ (List.mem_singleton_self _)
  | unanswered hruntime hclient carriedOut hcreate =>
    refine ⟨?_, ?_⟩
    · intro hkept _ _
      rw [hcreate]
      refine ⟨nofun, fun hlost => ?_⟩
      cases hlost
      exact append_ne_self (hkept.reachable.trans h.reachable.symm)
    · intro hrecorded
      cases carriedOut with
      | false => exact kept_of_failed h.reachable
      | true => exact absurd hcreate (hrecorded hruntime hclient).2
  | underWay hruntime hclient hcreate =>
    refine ⟨fun _ _ _ => ⟨?_, ?_⟩, fun _ => kept_of_failed h.reachable⟩
    · rw [hcreate]
      exact nofun
    · rw [hcreate]
      exact nofun

theorem sound_start (h : Sound s) {a : Attempt} {t : VefaasSandbox} {returned : Bool}
    (hrun : StartRun s a t returned) (hreach : t.live = t.sandboxId.toList) : Sound t := by
  cases hrun with
  | running => exact h
  | noClient => exact h
  | answered hruntime hclient hcreate =>
    refine ⟨hreach, ?_, fun _ => rfl⟩
    intro number hnumber
    dsimp only at hnumber
    split at hnumber
    · obtain rfl := Option.some.inj hnumber
      exact ⟨rfl, rfl⟩
    · cases hnumber
  | unanswered hruntime hclient carriedOut hcreate => exact ⟨hreach, nofun, fun _ => rfl⟩
  | underWay hruntime hclient hcreate => exact ⟨hreach, nofun, fun _ => rfl⟩

/-- A `stop` returns once the recorded instance is killed, and forgets it only then. -/
theorem kept_stop (h : Sound s) (killed : Bool) :
    Kept (.stop killed) (s.stop killed).1 (s.stop killed).2 ∧ Sound (s.stop killed).1 := by
  unfold stop
  dsimp only
  cases hid : s.sandboxId with
  | none =>
    have hlive := live_of_none h hid
    exact ⟨⟨by rw [hlive]; rfl, nofun, fun _ _ _ => hlive⟩, ⟨by rw [hlive]; rfl, nofun, nofun⟩⟩
  | some number =>
    have hclient : s.client = true := h.client (by rw [hid]; rfl)
    have hlive := live_of_some h hid
    rw [hclient]
    cases killed with
    | false => exact ⟨kept_of_failed hlive, ⟨hlive, nofun, fun _ => rfl⟩⟩
    | true =>
      have hgone : s.live.erase number = [] := by
        rw [hlive, List.erase_cons_head]
      exact ⟨⟨hgone, nofun, fun _ _ _ => hgone⟩, ⟨hgone, nofun, nofun⟩⟩

theorem kept_land_iff (h : Sound s) (number : Nat) :
    Kept (.land number) (s.land number) true ↔ number ∉ s.underWay := by
  unfold land
  split
  · rename_i hmem
    refine ⟨fun hkept => ?_, fun hnot => absurd hmem hnot⟩
    exact absurd (hkept.reachable.trans h.reachable.symm) append_ne_self
  · rename_i hmem
    exact ⟨fun _ => hmem, fun _ => ⟨h.reachable, nofun, nofun⟩⟩

theorem kept_step_iff (h : Sound s) (call : Call) :
    Kept call (s.step call).1 (s.step call).2 ↔ s.IsRecorded call := by
  cases call with
  | start a => exact kept_start_iff h (startRun_start s a)
  | stop killed => exact ⟨fun _ => trivial, fun _ => (kept_stop h killed).1⟩
  | land number => exact kept_land_iff h number

theorem sound_step (h : Sound s) {call : Call} (hkept : Kept call (s.step call).1 (s.step call).2) :
    Sound (s.step call).1 := by
  cases call with
  | start a => exact sound_start h (startRun_start s a) hkept.reachable
  | stop killed => exact (kept_stop h killed).2
  | land number =>
    have hnot := (kept_land_iff h number).mp hkept
    have hsame : s.land number = s := by
      unfold land
      rw [if_neg hnot]
    show Sound (s.land number)
    rw [hsame]
    exact h

/-! ## A run -/

theorem keeps_iff_of_sound (h : Sound s) (calls : List Call) :
    Keeps s calls ↔ AllRecorded s calls := by
  induction calls generalizing s with
  | nil => rfl
  | cons call calls ih =>
    rw [Keeps, AllRecorded, kept_step_iff h]
    refine and_congr_right (fun hrecorded => ih (sound_step h ?_))
    rw [kept_step_iff h]
    exact hrecorded

/-- In every run a sandbox loses no instance if and only if each `create_sandbox` that is carried
out is answered while no other instance is recorded. -/
theorem no_instance_is_lost_iff (calls : List Call) : Keeps init calls ↔ AllRecorded init calls :=
  keeps_iff_of_sound sound_init calls

/-- The first attempt does not come alive and cannot be killed, and the second one takes its place
in the record. -/
theorem an_instance_that_is_not_killed_is_lost :
    ¬ (∀ calls : List Call, Keeps init calls) := by
  intro h
  have hkeeps := h [.start ⟨true, .answered, false, true⟩, .stop false,
    .start ⟨true, .answered, true, true⟩]
  have hlost := hkeeps.2.2.1.reachable
  exact absurd hlost (by decide)

end VefaasSandbox

end uni_agent.sandbox.vefaas
