-- Entering a veFaaS sandbox: the attempts of `__aenter__` as calls on the object, and what the
-- service has running when the task goes on.
import UniAgent.SandboxStartup
import UniAgent.VefaasSandbox

namespace uni_agent.sandbox

open vefaas

/-! ## The calls of the attempts -/

/-- The object behind some calls. -/
def vefaas.VefaasSandbox.after (sandbox : VefaasSandbox) (calls : List VefaasSandbox.Call) :
    VefaasSandbox :=
  calls.foldl (fun sandbox call => (sandbox.step call).1) sandbox

/-- What the service answers to each attempt: to its `start()`, and to the `stop()` behind it. -/
structure Service where
  start : Nat → vefaas.Attempt
  killed : Nat → Bool

namespace Service

variable (p : Service)

def callOf : Event → Option VefaasSandbox.Call
  | .start attempt => some (.start (p.start attempt))
  | .stop attempt => some (.stop (p.killed attempt))
  | _ => none

/-- The calls on the object. No thread carries out a creation between them. -/
def calls (trace : List Event) : List VefaasSandbox.Call := trace.filterMap p.callOf

/-- The object behind the attempts. -/
def entered (trace : List Event) : VefaasSandbox := VefaasSandbox.init.after (p.calls trace)

/-- An attempt is ready in the script when the `start()` of the object returns. -/
def Answers (s : Startup) (trace : List Event) : Prop :=
  ∀ front attempt back, trace = front ++ .start attempt :: back →
    (s.IsReady attempt ↔ ((p.entered front).start (p.start attempt)).2 = true)

variable {p : Service}

theorem calls_eq_nil {trace : List Event} (h : trace.filter Event.isCall = []) :
    p.calls trace = [] := by
  rw [List.filter_eq_nil_iff] at h
  unfold calls
  rw [List.filterMap_eq_nil_iff]
  intro event hevent
  have hcall := h event hevent
  cases event with
  | start attempt => exact absurd rfl hcall
  | stop attempt => exact absurd rfl hcall
  | _ => rfl

theorem calls_last {front back : List Event} {event : Event} {call : VefaasSandbox.Call}
    (hcall : p.callOf event = some call) (hback : back.filter Event.isCall = []) :
    p.calls (front ++ event :: back) = p.calls front ++ [call] := by
  have hnone : back.filterMap p.callOf = [] := calls_eq_nil hback
  unfold calls
  rw [List.filterMap_append, List.filterMap_cons_some hcall, hnone]

end Service

/-! ## The last call -/

namespace Startup

variable {s : Startup} {left attempt : Nat} {trace : List Event} {exit : Exit}

/-- The last call of the attempts: the start that is ready, the stop of the last attempt, none, or
a start that is cancelled. -/
inductive LastCall (s : Startup) : List Event → Exit → Prop
  | ready {front back : List Event} (attempt : Nat) (hready : s.IsReady attempt)
      (hback : back.filter Event.isCall = []) :
      LastCall s (front ++ .start attempt :: back) .returned
  | stopped {front back : List Event} {exit : Exit} (attempt : Nat) (hexit : exit ≠ .returned)
      (hback : back.filter Event.isCall = []) :
      LastCall s (front ++ .stop attempt :: back) exit
  | none {trace : List Event} {exit : Exit} (hexit : exit ≠ .returned)
      (htrace : trace.filter Event.isCall = []) : LastCall s trace exit
  | cancelled {trace : List Event} {exit : Exit} (attempt : Nat) (hexit : exit ≠ .returned)
      (hmem : .start attempt ∈ trace) (h : s.IsCancelled attempt) : LastCall s trace exit

/-- What comes before does not change the last call, when it ends with a stop. -/
theorem LastCall.prepend (h : s.LastCall trace exit) (front : List Event) (attempt seconds : Nat) :
    s.LastCall (front ++ .stop attempt :: .pause seconds :: trace) exit := by
  cases h with
  | @ready front' back k hready hback =>
    have hlist : front ++ .stop attempt :: .pause seconds :: (front' ++ .start k :: back) =
        (front ++ .stop attempt :: .pause seconds :: front') ++ .start k :: back := by
      simp
    rw [hlist]
    exact .ready k hready hback
  | @stopped front' back _ k hexit hback =>
    have hlist : front ++ .stop attempt :: .pause seconds :: (front' ++ .stop k :: back) =
        (front ++ .stop attempt :: .pause seconds :: front') ++ .stop k :: back := by
      simp
    rw [hlist]
    exact .stopped k hexit hback
  | none hexit htrace => exact .stopped attempt hexit htrace
  | cancelled k hexit hmem h => exact .cancelled k hexit (by simp [hmem]) h

theorem slotEvent_isCall {event : Event} (h : event.isCall = false) :
    (s.slotEvent event).filter Event.isCall = [] := by
  unfold slotEvent
  split
  · rfl
  · rw [List.filter_singleton, h]
    rfl

/-- Whichever way the loop goes, its last call is one of these. -/
theorem Run.lastCall (h : s.Run left attempt trace exit) : s.LastCall trace exit := by
  induction h with
  | none attempt error => exact .none nofun rfl
  | slotCancelled h => exact .none nofun rfl
  | @ready left attempt hbegins hready => exact .ready attempt hready (slotEvent_isCall rfl)
  | @startCancelled left attempt hbegins hcancelled =>
    exact .cancelled attempt nofun (start_mem_begun.mpr rfl) hcancelled
  | @ends left attempt pause error hfails hpause h =>
    refine .stopped attempt nofun ?_
    rcases hpause with rfl | rfl <;> rfl
  | @again left attempt rest exit h hrest ih => exact ih.prepend _ attempt (2 * attempt)

end Startup

/-! ## What is running -/

namespace Service

open VefaasSandbox (Keeps Sound Kept AllRecorded)

theorem keeps_after {sandbox : VefaasSandbox} (hsound : Sound sandbox)
    {front back : List VefaasSandbox.Call} (h : Keeps sandbox (front ++ back)) :
    Sound (sandbox.after front) ∧ Keeps (sandbox.after front) back := by
  induction front generalizing sandbox with
  | nil => exact ⟨hsound, h⟩
  | cons call front ih => exact ih (VefaasSandbox.sound_step hsound h.1) h.2

/-- The last call, in the state that it finds, keeps the instances. -/
theorem kept_last {calls front : List VefaasSandbox.Call} {call : VefaasSandbox.Call}
    (hrecorded : AllRecorded VefaasSandbox.init calls) (hcalls : calls = front ++ [call]) :
    ∃ before, before = VefaasSandbox.init.after front ∧
      VefaasSandbox.init.after calls = (before.step call).1 ∧
      Kept call (before.step call).1 (before.step call).2 ∧ Sound (before.step call).1 := by
  subst hcalls
  have hkeeps := (VefaasSandbox.keeps_iff_of_sound VefaasSandbox.sound_init _).mpr hrecorded
  obtain ⟨hsound, hkept, _⟩ := keeps_after VefaasSandbox.sound_init hkeeps
  refine ⟨_, rfl, ?_, hkept, VefaasSandbox.sound_step hsound hkept⟩
  unfold VefaasSandbox.after
  rw [List.foldl_append]
  rfl

/-- A `stop()` whose instance is killed returns. -/
theorem stop_returns (sandbox : VefaasSandbox) : (sandbox.stop true).2 = true := by
  unfold VefaasSandbox.stop
  dsimp only
  split <;> rfl

/-- When every creation is recorded, a task that goes on with its sandbox has one instance running,
which is the one it talks to. A task that gives up has none, if the last instance is killed and no
attempt was cancelled. -/
theorem entered_sandbox_has_its_instance {p : Service} (s : Startup) (retry : Int)
    (hanswers : p.Answers s (s.aenter retry).1)
    (hrecorded : AllRecorded VefaasSandbox.init (p.calls (s.aenter retry).1)) :
    ((s.aenter retry).2 = .returned → ∃ number,
      (p.entered (s.aenter retry).1).live = [number] ∧
        (p.entered (s.aenter retry).1).runtime = some number) ∧
    ((s.aenter retry).2 ≠ .returned → (∀ attempt, p.killed attempt = true) →
      (∀ attempt, .start attempt ∈ (s.aenter retry).1 → ¬ s.IsCancelled attempt) →
      (p.entered (s.aenter retry).1).live = []) := by
  have hlast : s.LastCall (s.aenter retry).1 (s.aenter retry).2 :=
    (s.run_enterLoop (max 1 retry).toNat 1 none).lastCall
  revert hanswers hrecorded hlast
  generalize (s.aenter retry).1 = trace
  generalize (s.aenter retry).2 = exit
  intro hanswers hrecorded hlast
  cases hlast with
  | @ready front back attempt hready hback =>
    obtain ⟨before, hbefore, hafter, hkept, hsound⟩ :=
      kept_last hrecorded (calls_last rfl hback)
    refine ⟨fun _ => ?_, fun h => absurd rfl h⟩
    have hreturned : (before.start (p.start attempt)).2 = true := by
      rw [hbefore]
      exact (hanswers front attempt back rfl).mp hready
    obtain ⟨number, hruntime, _, _⟩ := hkept.started _ rfl hreturned
    refine ⟨number, ?_, ?_⟩
    · unfold entered
      rw [hafter]
      exact VefaasSandbox.live_of_some hsound (hsound.runtime number hruntime).1
    · unfold entered
      rw [hafter]
      exact hruntime
  | @stopped front back _ attempt hexit hback =>
    obtain ⟨before, _, hafter, hkept, _⟩ :=
      kept_last hrecorded (calls_last rfl hback)
    refine ⟨fun h => absurd h hexit, fun _ hkilled _ => ?_⟩
    unfold entered
    rw [hafter]
    apply hkept.stopped _ rfl
    rw [hkilled attempt]
    exact stop_returns before
  | none hexit htrace =>
    refine ⟨fun h => absurd h hexit, fun _ _ _ => ?_⟩
    unfold entered
    rw [calls_eq_nil htrace]
    rfl
  | cancelled attempt hexit hmem hcancelled =>
    exact ⟨fun h => absurd h hexit, fun _ _ hnone => absurd hcancelled (hnone attempt hmem)⟩

/-- The second attempt is ready, behind a first one that does not come alive and is killed. -/
example : (Service.mk (fun attempt => ⟨true, .answered, attempt != 1, true⟩)
    (fun _ => true)).entered (Startup.aenter ⟨64, "600", fun attempt =>
      ⟨false, if attempt = 1 then .error (.otherException "RuntimeError" "") else .ok (),
        .ok (), false⟩⟩ 3).1 =
    ⟨true, some 1, some 1, 2, [], [1]⟩ := by
  decide

end Service

end uni_agent.sandbox
