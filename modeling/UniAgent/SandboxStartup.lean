-- Entering a sandbox: attempts at a start under a shared slot, each that failed followed by a stop
-- and a pause. What is outside of the loop answers from a script, an answer for each attempt.
import Mathlib.Data.List.Infix
import UniAgent.BatchRollouts

namespace uni_agent.sandbox

/-! ## The code -/

/-- What one attempt meets: whether the task is cancelled while it waits for the slot, how
`start()` and `stop()` end, and whether the task is cancelled in the pause behind them. A
`start()` that is cut off by the timeout ends with a `TimeoutError`, and one of a cancelled task
with a `CancelledError`. -/
structure Attempt where
  slotCancelled : Bool
  start : Except PyError Unit
  stop : Except PyError Unit
  pauseCancelled : Bool

inductive Event where
  | acquire
  | release
  | start (attempt : Nat)
  | stop (attempt : Nat)
  | pause (seconds : Nat)
  deriving DecidableEq, Repr

/-- How `__aenter__` ends. -/
inductive Exit where
  | returned
  | raised (error : PyError)
  deriving DecidableEq, Repr

/-- `SANDBOX_STARTUP_CONCURRENCY`, the text of `SANDBOX_STARTUP_TIMEOUT`, and the script. -/
structure Startup where
  limit : Int
  timeout : String
  script : Nat → Attempt

/-- What an `except Exception` does not catch. -/
def escaping : Except PyError Unit → Option PyError
  | .error error => if error.isException then none else some error
  | .ok () => none

theorem not_isException_of_escaping {closed : Except PyError Unit} {error : PyError}
    (h : escaping closed = some error) : error.isException = false := by
  unfold escaping at h
  split at h
  · split at h
    · cases h
    · next e hescapes =>
      cases h
      exact Bool.eq_false_iff.mpr hescapes
  · cases h

/-- The slot behind an event. -/
def Event.holds : Event → Bool → Bool
  | .acquire, _ => true
  | .release, _ => false
  | _, held => held

/-- A start or a stop, which the provider sees. -/
def Event.isCall : Event → Bool
  | .start _ => true
  | .stop _ => true
  | _ => false

def Event.isStart : Event → Bool
  | .start _ => true
  | _ => false

def Event.isCleanup : Event → Bool
  | .stop _ => true
  | .pause _ => true
  | _ => false

/-- Every stop and every pause finds the slot free, and it is free at the end. -/
def SlotFree : Bool → List Event → Prop
  | held, [] => held = false
  | held, event :: rest =>
    (event.isCleanup = true → held = false) ∧ SlotFree (event.holds held) rest

namespace Startup

variable (s : Startup)

/-- `_startup_slot` is a no-op for a limit that is not positive. -/
def slotEvent (event : Event) : List Event := if s.limit ≤ 0 then [] else [event]

/-- `_run_start` -/
def runStart (attempt : Nat) : Except PyError Unit :=
  match (s.script attempt).start with
  | .error (.otherException "TimeoutError" _) =>
    .error (.otherException "TimeoutError"
      ("sandbox start() exceeded SANDBOX_STARTUP_TIMEOUT=" ++ s.timeout ++ "s"))
  | outcome => outcome

/-- The `async with` of an attempt. -/
def begun (attempt : Nat) : List Event :=
  s.slotEvent .acquire ++ .start attempt :: s.slotEvent .release

/-- The loop, with the number of the attempts that are left and the last exception. -/
def enterLoop : Nat → Nat → Option PyError → List Event × Exit
  | 0, _, lastExc => ([], .raised (lastExc.getD (.assertionError "")))
  | left + 1, attempt, _ =>
    if 0 < s.limit && (s.script attempt).slotCancelled then ([], .raised .cancelledError)
    else
      match s.runStart attempt with
      | .ok () => (s.begun attempt, .returned)
      | .error error =>
        if !error.isException then (s.begun attempt, .raised error)
        else
          let failed := s.begun attempt ++ [.stop attempt]
          match escaping (s.script attempt).stop with
          | some error => (failed, .raised error)
          | none =>
            let paused := if left = 0 then failed else failed ++ [.pause (2 * attempt)]
            if left != 0 && (s.script attempt).pauseCancelled then (paused, .raised .cancelledError)
            else
              let rest := enterLoop left (attempt + 1) (some error)
              (paused ++ rest.1, rest.2)

/-- `__aenter__` -/
def aenter (retry : Int) : List Event × Exit :=
  let retry := max 1 retry
  s.enterLoop retry.toNat 1 none

/-! ## The ways of an attempt -/

/-- The task is not cancelled while it waits for the slot. -/
def Begins (attempt : Nat) : Prop :=
  0 < s.limit → (s.script attempt).slotCancelled = false

def IsReady (attempt : Nat) : Prop := (s.script attempt).start = .ok ()

/-- The task is cancelled while the attempt starts. -/
def IsCancelled (attempt : Nat) : Prop := (s.script attempt).start = .error .cancelledError

def Fails (attempt : Nat) : Prop := ¬ s.IsReady attempt ∧ ¬ s.IsCancelled attempt

/-- A failed attempt gives way to the next one. -/
def GoesOn (attempt : Nat) : Prop :=
  s.Begins attempt ∧ s.Fails attempt ∧ escaping (s.script attempt).stop = none ∧
    (s.script attempt).pauseCancelled = false

/-- One attempt of the loop, and the loop behind it. -/
inductive Run : Nat → Nat → List Event → Exit → Prop
  | none (attempt : Nat) (error : PyError) : Run 0 attempt [] (.raised error)
  | slotCancelled {left attempt : Nat} (h : ¬ s.Begins attempt) :
      Run (left + 1) attempt [] (.raised .cancelledError)
  | ready {left attempt : Nat} (hbegins : s.Begins attempt) (h : s.IsReady attempt) :
      Run (left + 1) attempt (s.begun attempt) .returned
  | startCancelled {left attempt : Nat} (hbegins : s.Begins attempt) (h : s.IsCancelled attempt) :
      Run (left + 1) attempt (s.begun attempt) (.raised .cancelledError)
  | ends {left attempt : Nat} {pause : List Event} (error : PyError) (hfails : s.Fails attempt)
      (hpause : pause = [] ∨ pause = [.pause (2 * attempt)])
      (h : left = 0 ∨ ¬ s.GoesOn attempt) :
      Run (left + 1) attempt (s.begun attempt ++ .stop attempt :: pause) (.raised error)
  | again {left attempt : Nat} {rest : List Event} {exit : Exit} (h : s.GoesOn attempt)
      (hrest : Run (left + 1) (attempt + 1) rest exit) :
      Run (left + 2) attempt (s.begun attempt ++ .stop attempt :: .pause (2 * attempt) :: rest) exit

variable {s : Startup} {left attempt k : Nat} {trace : List Event} {exit : Exit}

theorem runStart_ok_iff : s.runStart attempt = .ok () ↔ s.IsReady attempt := by
  unfold runStart IsReady
  split
  · rename_i h
    rw [h]
    simp
  · rfl

theorem runStart_cancelled_iff :
    s.runStart attempt = .error .cancelledError ↔ s.IsCancelled attempt := by
  unfold runStart IsCancelled
  split
  · rename_i h
    rw [h]
    simp
  · rfl

theorem isException_eq_false_iff {error : PyError} :
    error.isException = false ↔ error = .cancelledError := by
  cases error <;> simp [PyError.isException]

/-- The loop goes one of these ways. -/
theorem run_enterLoop (s : Startup) (left attempt : Nat) (lastExc : Option PyError) :
    s.Run left attempt (s.enterLoop left attempt lastExc).1
        (s.enterLoop left attempt lastExc).2 := by
  induction left generalizing attempt lastExc with
  | zero => exact .none attempt _
  | succ left ih =>
    rw [enterLoop]
    split
    · rename_i hslot
      apply Run.slotCancelled
      intro hbegins
      rw [Bool.and_eq_true, decide_eq_true_eq] at hslot
      rw [hbegins hslot.1] at hslot
      exact absurd hslot.2 Bool.false_ne_true
    · rename_i hslot
      have hbegins : s.Begins attempt := by
        intro hlimit
        rw [decide_eq_true hlimit, Bool.true_and, Bool.not_eq_true] at hslot
        exact hslot
      split
      · rename_i hready
        exact .ready hbegins (runStart_ok_iff.mp hready)
      · rename_i error herror
        split
        · rename_i hescapes
          rw [Bool.not_eq_true', isException_eq_false_iff] at hescapes
          subst hescapes
          exact .startCancelled hbegins (runStart_cancelled_iff.mp herror)
        · rename_i hcaught
          rw [Bool.not_eq_true', isException_eq_false_iff] at hcaught
          have hfails : s.Fails attempt := by
            refine ⟨?_, ?_⟩
            · rw [← runStart_ok_iff, herror]
              exact nofun
            · rw [← runStart_cancelled_iff, herror]
              intro h
              exact hcaught (Except.error.inj h)
          dsimp only
          split
          · rename_i error' hstop
            apply Run.ends error' hfails (.inl rfl) (.inr _)
            intro hon
            rw [hon.2.2.1] at hstop
            cases hstop
          · rename_i hstop
            cases left with
            | zero =>
              have hrest := Run.ends (s := s) error hfails (.inl rfl) (.inl rfl)
              simpa [enterLoop] using hrest
            | succ left =>
              rw [if_neg (Nat.succ_ne_zero left)]
              split
              · rename_i hpause
                rw [List.append_assoc]
                apply Run.ends _ hfails (.inr rfl) (.inr _)
                intro hon
                rw [hon.2.2.2] at hpause
                simp at hpause
              · rename_i hpause
                rw [List.append_assoc, List.append_assoc]
                exact .again ⟨hbegins, hfails, hstop, by simpa using hpause⟩ (ih _ _)

/-! ## What is asked of it -/

/-- Every attempt that was begun is followed by its stop. -/
def Stopped : List Event → Prop
  | [] => True
  | .start k :: rest => .stop k ∈ rest ∧ Stopped rest
  | _ :: rest => Stopped rest

/-- The calls of attempts that fail, from one on. -/
def failedCalls (first count : Nat) : List Event :=
  (List.range' first count).flatMap (fun k => [.start k, .stop k])

/-- Every sandbox that a run of at most `most` attempts starts is stopped or handed over. -/
structure Cares (s : Startup) (first : Nat) (most : Int) (trace : List Event) (exit : Exit) :
    Prop where
  attempts_le : ((trace.filter Event.isStart).length : Int) ≤ most
  returned_iff : exit = .returned ↔ ∃ k, .start k ∈ trace ∧ s.IsReady k
  handed_over : exit = .returned → ∃ count,
    trace.filter Event.isCall = failedCalls first count ++ [.start (first + count)]
  stopped : exit ≠ .returned → Stopped trace
  slot_free : SlotFree false trace

theorem slotFree_append {front back : List Event} (hfront : SlotFree false front) :
    SlotFree false (front ++ back) ↔ SlotFree false back := by
  suffices ∀ held, SlotFree held front → (SlotFree held (front ++ back) ↔ SlotFree false back) from
    this false hfront
  clear hfront
  induction front with
  | nil =>
    rintro held rfl
    rfl
  | cons event front ih =>
    rintro held ⟨hevent, hfront⟩
    rw [List.cons_append, SlotFree, ih _ hfront]
    exact ⟨fun h => h.2, fun h => ⟨hevent, h⟩⟩

theorem slotFree_begun (s : Startup) (attempt : Nat) : SlotFree false (s.begun attempt) := by
  unfold begun slotEvent
  split <;> simp [SlotFree, Event.isCleanup, Event.holds]

theorem start_mem_begun : .start k ∈ s.begun attempt ↔ k = attempt := by
  unfold begun slotEvent
  split <;> simp

theorem filter_isStart_begun (s : Startup) (attempt : Nat) :
    (s.begun attempt).filter Event.isStart = [.start attempt] := by
  unfold begun slotEvent
  split <;> rfl

theorem filter_isCall_begun (s : Startup) (attempt : Nat) :
    (s.begun attempt).filter Event.isCall = [.start attempt] := by
  unfold begun slotEvent
  split <;> rfl

theorem stopped_begun_append {rest : List Event} :
    Stopped (s.begun attempt ++ rest) ↔ .stop attempt ∈ rest ∧ Stopped rest := by
  unfold begun slotEvent
  split <;> simp [Stopped]

theorem failedCalls_succ (first count : Nat) :
    failedCalls first (count + 1) = [.start first, .stop first] ++ failedCalls
        (first + 1) count := by
  rw [failedCalls, List.range'_succ, List.flatMap_cons]
  rfl

/-- The attempt is begun when each one before it gives way to the next. -/
def BegunFrom (s : Startup) (first k : Nat) : Prop :=
  (∀ j, first ≤ j → j < k → s.GoesOn j) ∧ s.Begins k

/-- No attempt is cancelled while it starts. -/
def NoneCancelled (s : Startup) (first : Nat) (most : Int) : Prop :=
  ∀ k, first ≤ k → (k : Int) < first + most → s.BegunFrom first k → ¬ s.IsCancelled k

/-- None of the later attempts is cancelled either. -/
theorem noneCancelled_succ (h : s.GoesOn attempt)
    (hnone : s.NoneCancelled attempt (left + 2 : Nat)) :
    s.NoneCancelled (attempt + 1) (left + 1 : Nat) := by
  intro k hk hlt hbegun
  apply hnone k (by omega) (by omega) ⟨?_, hbegun.2⟩
  intro j hj hjk
  by_cases hfirst : j = attempt
  · rw [hfirst]
    exact h
  · exact hbegun.1 j (by omega) hjk

/-- The last attempt fails, and is stopped. -/
theorem cares_ends {pause : List Event} (error : PyError) (hfails : s.Fails attempt)
    (hpause : pause = [] ∨ pause = [.pause (2 * attempt)]) :
    s.Cares attempt (left + 1 : Nat) (s.begun attempt ++ .stop attempt :: pause)
      (.raised error) := by
  refine ⟨?_, ⟨nofun, ?_⟩, nofun, fun _ => ?_, ?_⟩
  · have hnoStart : (.stop attempt :: pause).filter Event.isStart = [] := by
      rcases hpause with rfl | rfl <;> rfl
    rw [List.filter_append, filter_isStart_begun, hnoStart, List.append_nil,
      List.length_singleton]
    omega
  · rintro ⟨k, hk, hready⟩
    rw [List.mem_append, start_mem_begun] at hk
    rcases hk with rfl | hk
    · exact absurd hready hfails.1
    · rcases hpause with rfl | rfl <;> simp at hk
  · rw [stopped_begun_append]
    refine ⟨List.mem_cons_self, ?_⟩
    rcases hpause with rfl | rfl <;> trivial
  · rw [slotFree_append (slotFree_begun s attempt)]
    rcases hpause with rfl | rfl <;> simp [SlotFree, Event.isCleanup, Event.holds]

/-- An attempt fails and is stopped, and the later ones are taken care of. -/
theorem cares_again {rest : List Event} (h : s.GoesOn attempt)
    (hrest : s.Cares (attempt + 1) (left + 1 : Nat) rest exit) :
    s.Cares attempt (left + 2 : Nat)
      (s.begun attempt ++ .stop attempt :: .pause (2 * attempt) :: rest) exit := by
  obtain ⟨hle, hreturned, hover, hstopped, hfree⟩ := hrest
  refine ⟨?_, ?_, ?_, ?_, ?_⟩
  · have hstarts : (.stop attempt :: .pause (2 * attempt) :: rest).filter Event.isStart =
        rest.filter Event.isStart := rfl
    rw [List.filter_append, filter_isStart_begun, hstarts, List.length_append,
      List.length_singleton]
    omega
  · rw [hreturned]
    refine ⟨?_, ?_⟩
    · rintro ⟨k, hk, hready⟩
      exact ⟨k, by simp [hk], hready⟩
    · rintro ⟨k, hk, hready⟩
      rw [List.mem_append, start_mem_begun] at hk
      rcases hk with rfl | hk
      · exact absurd hready h.2.1.1
      · exact ⟨k, by simpa using hk, hready⟩
  · intro hexit
    obtain ⟨count, hcalls⟩ := hover hexit
    refine ⟨count + 1, ?_⟩
    have hmore : (.stop attempt :: .pause (2 * attempt) :: rest).filter Event.isCall =
        .stop attempt :: rest.filter Event.isCall := rfl
    rw [List.filter_append, filter_isCall_begun, hmore, hcalls, failedCalls_succ]
    have hindex : attempt + 1 + count = attempt + (count + 1) := by omega
    rw [hindex]
    rfl
  · intro hexit
    rw [stopped_begun_append]
    exact ⟨List.mem_cons_self, hstopped hexit⟩
  · rw [slotFree_append (slotFree_begun s attempt)]
    exact ⟨fun _ => rfl, fun _ => rfl, hfree⟩

/-- Without a cancelled start, the loop takes care of its attempts whichever way it goes. -/
theorem cares_of_run (h : s.Run left attempt trace exit)
    (hnone : s.NoneCancelled attempt left) : s.Cares attempt left trace exit := by
  induction h with
  | none attempt error =>
    exact ⟨by simp, by simp, by simp, fun _ => trivial, rfl⟩
  | slotCancelled h =>
    exact ⟨Int.natCast_nonneg _, by simp, by simp, fun _ => trivial, rfl⟩
  | @ready left attempt hbegins hready =>
    refine ⟨?_, ?_, ?_, fun h => absurd rfl h, slotFree_begun s attempt⟩
    · rw [filter_isStart_begun, List.length_singleton]
      omega
    · exact ⟨fun _ => ⟨attempt, start_mem_begun.mpr rfl, hready⟩, fun _ => rfl⟩
    · intro _
      exact ⟨0, filter_isCall_begun s attempt⟩
  | @startCancelled left attempt hbegins hcancelled =>
    exfalso
    apply hnone attempt (Nat.le_refl _) (by omega) ⟨?_, hbegins⟩ hcancelled
    intro j hj hlt
    omega
  | ends error hfails hpause h => exact cares_ends error hfails hpause
  | again h hrest ih => exact cares_again h (ih (noneCancelled_succ h hnone))

/-- An attempt whose start is cancelled is the last one, and nothing stops it. -/
theorem not_stopped_of_cancelled (h : s.Run left attempt trace exit) (hk : attempt ≤ k)
    (hlt : k < attempt + left) (hbegun : s.BegunFrom attempt k) (hcancelled : s.IsCancelled k) :
    exit ≠ .returned ∧ ¬ Stopped trace := by
  induction h with
  | none attempt error => omega
  | @slotCancelled left attempt h =>
    exfalso
    apply h
    by_cases hfirst : k = attempt
    · rw [← hfirst]
      exact hbegun.2
    · exact (hbegun.1 attempt (Nat.le_refl _) (by omega)).1
  | @ready left attempt hbegins hready =>
    exfalso
    by_cases hfirst : k = attempt
    · subst hfirst
      rw [IsReady, hcancelled] at hready
      cases hready
    · exact (hbegun.1 attempt (Nat.le_refl _) (by omega)).2.1.1 hready
  | @startCancelled left attempt hbegins _ =>
    refine ⟨nofun, ?_⟩
    intro hstopped
    rw [← List.append_nil (s.begun attempt), stopped_begun_append] at hstopped
    exact absurd hstopped.1 List.not_mem_nil
  | @ends left attempt pause error hfails hpause h =>
    exfalso
    by_cases hfirst : k = attempt
    · subst hfirst
      exact hfails.2 hcancelled
    · rcases h with hlast | hon
      · omega
      · exact hon (hbegun.1 attempt (Nat.le_refl _) (by omega))
  | @again left attempt rest exit h hrest ih =>
    by_cases hfirst : k = attempt
    · subst hfirst
      exact absurd hcancelled h.2.1.2
    · obtain ⟨hexit, hrest⟩ := ih (by omega) (by omega)
        ⟨fun j hj hjk => hbegun.1 j (by omega) hjk, hbegun.2⟩
      refine ⟨hexit, ?_⟩
      rw [stopped_begun_append]
      exact fun hstopped => hrest hstopped.2

/-- Every sandbox that `__aenter__` starts is stopped or handed over if and only if the task is
not cancelled while an attempt starts. -/
theorem aenter_cares_iff (s : Startup) (retry : Int) :
    s.Cares 1 (max 1 retry) (s.aenter retry).1 (s.aenter retry).2 ↔
      s.NoneCancelled 1 (max 1 retry) := by
  have hrun := s.run_enterLoop (max 1 retry).toNat 1 none
  have hmost : ((max 1 retry).toNat : Int) = max 1 retry := Int.toNat_of_nonneg (by omega)
  refine ⟨?_, ?_⟩
  · intro hcares k hk hlt hbegun hcancelled
    obtain ⟨hexit, hstopped⟩ := not_stopped_of_cancelled hrun hk (by omega) hbegun hcancelled
    exact hstopped (hcares.stopped hexit)
  · intro hnone
    rw [← hmost] at hnone ⊢
    exact cares_of_run hrun hnone

/-- The task is cancelled while the only attempt starts, and no stop comes behind it. -/
theorem a_cancelled_start_is_left_behind :
    ¬ (∀ (s : Startup) (retry : Int),
      s.Cares 1 (max 1 retry) (s.aenter retry).1 (s.aenter retry).2) := by
  intro h
  have hcares := h ⟨64, "600", fun _ => ⟨false, .error .cancelledError, .ok (), false⟩⟩ 3
  have hstopped := hcares.stopped (by decide)
  have htrace : (aenter ⟨64, "600", fun _ => ⟨false, .error .cancelledError, .ok (), false⟩⟩ 3).1 =
      [.acquire, .start 1, .release] := by decide
  rw [htrace] at hstopped
  exact absurd hstopped.1 (by decide)

end Startup

end uni_agent.sandbox
