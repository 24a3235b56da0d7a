-- The life of a toolbox: its tools are started one after another, each with retries and a timeout
-- that doubles, and all of them are closed in the end, also those that have not been started.
import Mathlib.Algebra.Ring.Rat
import UniAgent.ReactAgent
import UniAgent.SandboxStartup

namespace uni_agent.tools

open sandbox (escaping)

/-! ## The code -/

/-- What one attempt at a start meets: how `start()` ends under the timeout, whether the task is
being cancelled then, and whether it is cancelled in the pause behind it. -/
structure StartAttempt where
  start : Except PyError Unit
  cancelling : Bool
  pauseCancelled : Bool

/-- A tool, with what its attempts and its `close()` meet. -/
structure ToolLife where
  name : String
  script : Nat → StartAttempt
  close : Except PyError Unit

inductive LifeEvent where
  | start (tool : String) (attempt : Nat) (timeout : ℚ)
  | pause (seconds : Nat)
  | body
  | close (tool : String)
  deriving DecidableEq, Repr

/-- The start is tried again behind an `Exception`, and behind a `CancelledError` that a dependency
has leaked. -/
def StartAttempt.retries (attempt : StartAttempt) : PyError → Bool
  | .cancelledError => !attempt.cancelling
  | error => error.isException

/-- The loop of `_start_tool`, with the number of the attempts that are left and the last exception.
Nothing is raised when the tool has started. -/
def ToolLife.startLoop (tool : ToolLife) :
    Nat → Nat → ℚ → Option PyError → List LifeEvent × Option PyError
  | 0, _, _, lastExc => ([], some (lastExc.getD (.assertionError "")))
  | left + 1, attempt, timeout, _ =>
    let begun : LifeEvent := .start tool.name attempt timeout
    match (tool.script attempt).start with
    | .ok () => ([begun], none)
    | .error error =>
      if !(tool.script attempt).retries error then ([begun], some error)
      else
        let paused := if left = 0 then [begun] else [begun, .pause (2 * attempt)]
        if left != 0 && (tool.script attempt).pauseCancelled then (paused, some .cancelledError)
        else
          let rest := tool.startLoop left (attempt + 1) (timeout * 2) (some error)
          (paused ++ rest.1, rest.2)

/-- `_start_tool` -/
def ToolLife.startTool (tool : ToolLife) (retry : Nat) (timeout : ℚ) :
    List LifeEvent × Option PyError :=
  tool.startLoop retry 1 timeout none

/-- The loop of `__aenter__` over the tools. -/
def startTools (retry : Nat) (timeout : ℚ) : List ToolLife → List LifeEvent × Option PyError
  | [] => ([], none)
  | tool :: rest =>
    match tool.startTool retry timeout with
    | (events, some error) => (events, some error)
    | (events, none) =>
      let others := startTools retry timeout rest
      (events ++ others.1, others.2)

/-- `close`: what is no `Exception` cuts it off. -/
def closeTools : List ToolLife → List LifeEvent × Option PyError
  | [] => ([], none)
  | tool :: rest =>
    match escaping tool.close with
    | some error => ([.close tool.name], some error)
    | none =>
      let others := closeTools rest
      (.close tool.name :: others.1, others.2)

/-- `__aenter__` -/
def aenter (tools : List ToolLife) (retry : Int) (timeout : ℚ) :
    List LifeEvent × Option PyError :=
  let started := startTools (max 1 retry).toNat timeout tools
  match started.2 with
  | none => started
  | some error =>
    let closed := closeTools tools
    (started.1 ++ closed.1, some (closed.2.getD error))

/-- `entered`, around a body. -/
def entered {α : Type} (tools : List ToolLife) (retry : Int) (timeout : ℚ)
    (body : Except PyError α) : List LifeEvent × Except PyError α :=
  match aenter tools retry timeout with
  | (events, some error) => (events, .error error)
  | (events, none) =>
    let closed := closeTools tools
    (events ++ .body :: closed.1, closed.2.elim body .error)

/-! ## Starts -/

/-- A failed attempt gives way to the next one. -/
def StartAttempt.GoesOn (attempt : StartAttempt) : Prop :=
  (∃ error, attempt.start = .error error ∧ attempt.retries error = true) ∧
    attempt.pauseCancelled = false

/-- One of the attempts that are left succeeds, and those before it give way to it. -/
def ToolLife.StartsFrom (tool : ToolLife) (left attempt : Nat) : Prop :=
  ∃ k < left, (tool.script (attempt + k)).start = .ok () ∧
    ∀ j < k, (tool.script (attempt + j)).GoesOn

def ToolLife.Starts (tool : ToolLife) (retry : Nat) : Prop := tool.StartsFrom retry 1

theorem ToolLife.startsFrom_succ {tool : ToolLife} {left attempt : Nat} :
    tool.StartsFrom (left + 1) attempt ↔ (tool.script attempt).start = .ok () ∨
      (tool.script attempt).GoesOn ∧ tool.StartsFrom left (attempt + 1) := by
  unfold ToolLife.StartsFrom
  constructor
  · rintro ⟨k, hk, hstart, hbefore⟩
    cases k with
    | zero => exact Or.inl hstart
    | succ k =>
      refine Or.inr ⟨hbefore 0 (Nat.succ_pos k), k, Nat.lt_of_succ_lt_succ hk, ?_, ?_⟩
      · rw [Nat.add_assoc, Nat.add_comm 1 k]
        exact hstart
      · intro j hj
        rw [Nat.add_assoc, Nat.add_comm 1 j]
        exact hbefore (j + 1) (Nat.succ_lt_succ hj)
  · rintro (hstart | ⟨hgoes, k, hk, hstart, hbefore⟩)
    · exact ⟨0, Nat.succ_pos left, hstart, by simp⟩
    · refine ⟨k + 1, Nat.succ_lt_succ hk, ?_, ?_⟩
      · rw [Nat.add_comm k 1, ← Nat.add_assoc]
        exact hstart
      · intro j hj
        cases j with
        | zero => exact hgoes
        | succ j =>
          rw [Nat.add_comm j 1, ← Nat.add_assoc]
          exact hbefore j (Nat.lt_of_succ_lt_succ hj)

theorem ToolLife.startLoop_none_iff (tool : ToolLife) (left attempt : Nat) (timeout : ℚ)
    (lastExc : Option PyError) :
    (tool.startLoop left attempt timeout lastExc).2 = none ↔ tool.StartsFrom left attempt := by
  induction left generalizing attempt timeout lastExc with
  | zero => simp [ToolLife.startLoop, ToolLife.StartsFrom]
  | succ left ih =>
    rw [ToolLife.startsFrom_succ]
    unfold ToolLife.startLoop
    cases hstart : (tool.script attempt).start with
    | ok u => simp
    | error error =>
      have hgoes : (tool.script attempt).GoesOn ↔ (tool.script attempt).retries error = true ∧
          (tool.script attempt).pauseCancelled = false := by
        simp [StartAttempt.GoesOn, hstart]
      rw [hgoes]
      dsimp only
      cases hretries : (tool.script attempt).retries error with
      | false => simp
      | true =>
        cases left with
        | zero => simp [ToolLife.startLoop, ToolLife.StartsFrom]
        | succ left =>
          cases hpause : (tool.script attempt).pauseCancelled with
          | true => simp
          | false => simp [ih]

def LifeEvent.isStart : LifeEvent → Bool
  | .start _ _ _ => true
  | _ => false

/-- A start, or a pause between two of them. -/
def LifeEvent.isStartup : LifeEvent → Bool
  | .start _ _ _ | .pause _ => true
  | _ => false

/-- The starts of a tool: attempts with numbers in a row, each with twice the timeout of the one
before it, and nothing but these and pauses. -/
structure AttemptsOf (tool : ToolLife) (attempt : Nat) (timeout : ℚ) (count : Nat)
    (events : List LifeEvent) : Prop where
  starts : events.filter LifeEvent.isStart =
    (List.range count).map (fun k => .start tool.name (attempt + k) (timeout * 2 ^ k))
  startup : ∀ event ∈ events, event.isStartup = true

theorem attemptsOf_one (tool : ToolLife) (attempt : Nat) (timeout : ℚ) {events : List LifeEvent}
    (h : events = [.start tool.name attempt timeout] ∨
      ∃ seconds, events = [.start tool.name attempt timeout, .pause seconds]) :
    AttemptsOf tool attempt timeout 1 events := by
  rcases h with rfl | ⟨seconds, rfl⟩
  · exact ⟨by simp [LifeEvent.isStart], by simp [LifeEvent.isStartup]⟩
  · exact ⟨by simp [List.filter, LifeEvent.isStart], by simp [LifeEvent.isStartup]⟩

/-- One more attempt in front of the others. -/
theorem AttemptsOf.cons {tool : ToolLife} {attempt count : Nat} {timeout : ℚ}
    {front events : List LifeEvent} (hfront : AttemptsOf tool attempt timeout 1 front)
    (h : AttemptsOf tool (attempt + 1) (timeout * 2) count events) :
    AttemptsOf tool attempt timeout (count + 1) (front ++ events) := by
  constructor
  · rw [List.filter_append, hfront.starts, h.starts, Nat.add_comm count 1, List.range_add,
      List.map_append, List.map_map]
    congr 1
    apply List.map_congr_left
    intro k _
    have hpow : timeout * 2 * 2 ^ k = timeout * 2 ^ (1 + k) := by
      rw [pow_add, mul_assoc, pow_one]
    simp only [Function.comp_apply, LifeEvent.start.injEq, true_and]
    exact ⟨by omega, hpow⟩
  · intro event hevent
    rcases List.mem_append.mp hevent with hevent | hevent
    · exact hfront.startup event hevent
    · exact h.startup event hevent

theorem ToolLife.attemptsOf_startLoop (tool : ToolLife) (left attempt : Nat) (timeout : ℚ)
    (lastExc : Option PyError) : ∃ count ≤ left, (0 < left → 0 < count) ∧
      AttemptsOf tool attempt timeout count (tool.startLoop left attempt timeout lastExc).1 := by
  induction left generalizing attempt timeout lastExc with
  | zero =>
    exact ⟨0, Nat.le_refl 0, id, by simp [ToolLife.startLoop], by simp [ToolLife.startLoop]⟩
  | succ left ih =>
    have hone : 1 ≤ left + 1 := Nat.succ_le_succ (Nat.zero_le left)
    have hpaused : AttemptsOf tool attempt timeout 1
        (if left = 0 then [.start tool.name attempt timeout]
          else [.start tool.name attempt timeout, .pause (2 * attempt)]) := by
      apply attemptsOf_one
      split
      · exact Or.inl rfl
      · exact Or.inr ⟨_, rfl⟩
    unfold ToolLife.startLoop
    cases hstart : (tool.script attempt).start with
    | ok u =>
      exact ⟨1, hone, fun _ => Nat.one_pos, attemptsOf_one tool attempt timeout (Or.inl rfl)⟩
    | error error =>
      dsimp only
      cases hretries : (tool.script attempt).retries error with
      | false =>
        exact ⟨1, hone, fun _ => Nat.one_pos, attemptsOf_one tool attempt timeout (Or.inl rfl)⟩
      | true =>
        rw [Bool.not_true, if_neg Bool.false_ne_true]
        split
        · exact ⟨1, hone, fun _ => Nat.one_pos, hpaused⟩
        · obtain ⟨count, hcount, _, hrest⟩ := ih (attempt + 1) (timeout * 2) (some error)
          exact ⟨count + 1, Nat.succ_le_succ hcount, fun _ => Nat.succ_pos count,
            hpaused.cons hrest⟩

/-- The starts of some tools, one after another: each of them is attempted, all but the last one
have started, and either these are all tools and the last one has started too, or it has not. -/
def StartedInTurn (retry : Nat) (timeout : ℚ) (tools : List ToolLife) (events : List LifeEvent) :
    Prop :=
  ∃ begun pieces, begun <+: tools ∧ events = pieces.flatten ∧
    List.Forall₂ (fun tool piece => ∃ count, 0 < count ∧ count ≤ retry ∧
      AttemptsOf tool 1 timeout count piece) begun pieces ∧
    ((begun = tools ∧ ∀ tool ∈ tools, tool.Starts retry) ∨
      ∃ front last, begun = front ++ [last] ∧ (∀ tool ∈ front, tool.Starts retry) ∧
        ¬ last.Starts retry)

theorem startedInTurn_startTools {retry : Nat} (hretry : 0 < retry) (timeout : ℚ)
    (tools : List ToolLife) :
    StartedInTurn retry timeout tools (startTools retry timeout tools).1 := by
  induction tools with
  | nil => exact ⟨[], [], List.prefix_refl _, rfl, .nil, Or.inl ⟨rfl, by simp⟩⟩
  | cons tool rest ih =>
    obtain ⟨begun, pieces, hbegun, hevents, hpieces, hend⟩ := ih
    have hstarts := tool.startLoop_none_iff retry 1 timeout none
    obtain ⟨count, hcount, hpos, hattempts⟩ := tool.attemptsOf_startLoop retry 1 timeout none
    unfold startTools ToolLife.startTool
    rcases hstart : tool.startLoop retry 1 timeout none with ⟨events, _ | error⟩
    · rw [hstart] at hattempts hstarts
      have hfirst : tool.Starts retry := hstarts.mp rfl
      refine ⟨tool :: begun, events :: pieces, (List.prefix_cons_inj tool).mpr hbegun, ?_,
        .cons ⟨count, hpos hretry, hcount, hattempts⟩ hpieces, ?_⟩
      · dsimp only
        rw [hevents, List.flatten_cons]
      · rcases hend with ⟨rfl, hall⟩ | ⟨front, last, rfl, hfront, hlast⟩
        · exact Or.inl ⟨rfl, List.forall_mem_cons.mpr ⟨hfirst, hall⟩⟩
        · exact Or.inr ⟨tool :: front, last, rfl, List.forall_mem_cons.mpr ⟨hfirst, hfront⟩, hlast⟩
    · rw [hstart] at hattempts hstarts
      have hfails : ¬ tool.Starts retry := fun h => by cases hstarts.mpr h
      exact ⟨[tool], [events], ⟨rest, rfl⟩, by simp, .cons ⟨count, hpos hretry, hcount, hattempts⟩
        .nil, Or.inr ⟨[], tool, rfl, by simp, hfails⟩⟩

theorem startTools_none_iff (retry : Nat) (timeout : ℚ) (tools : List ToolLife) :
    (startTools retry timeout tools).2 = none ↔ ∀ tool ∈ tools, tool.Starts retry := by
  induction tools with
  | nil => simp [startTools]
  | cons tool rest ih =>
    have hfirst := tool.startLoop_none_iff retry 1 timeout none
    unfold startTools ToolLife.startTool
    rw [List.forall_mem_cons, ← ih]
    unfold ToolLife.Starts
    rw [← hfirst]
    rcases tool.startLoop retry 1 timeout none with ⟨events, _ | error⟩
    · simp
    · simp

/-! ## Closes -/

/-- The tools are closed in order up to the first one whose close is cut off. -/
theorem closeTools_events (tools : List ToolLife) : ∃ closed, closed <+: tools ∧
    (closeTools tools).1 = closed.map (fun tool => .close tool.name) ∧
    (closed = tools ↔ ∀ tool ∈ tools.dropLast, escaping tool.close = none) := by
  induction tools with
  | nil => exact ⟨[], List.prefix_refl _, rfl, by simp⟩
  | cons tool rest ih =>
    obtain ⟨closed, hprefix, hevents, hall⟩ := ih
    unfold closeTools
    cases hclose : escaping tool.close with
    | some error =>
      refine ⟨[tool], ⟨rest, rfl⟩, rfl, ?_⟩
      cases rest with
      | nil => simp
      | cons other rest => simp [hclose]
    | none =>
      refine ⟨tool :: closed, (List.prefix_cons_inj tool).mpr hprefix, ?_, ?_⟩
      · dsimp only
        rw [hevents, List.map_cons]
      · rw [List.cons.injEq, hall]
        cases rest with
        | nil => simp
        | cons other rest => simp [hclose]

theorem closeTools_none_iff (tools : List ToolLife) :
    (closeTools tools).2 = none ↔ ∀ tool ∈ tools, escaping tool.close = none := by
  induction tools with
  | nil => simp [closeTools]
  | cons tool rest ih =>
    unfold closeTools
    rw [List.forall_mem_cons, ← ih]
    cases hclose : escaping tool.close with
    | some error => simp
    | none => simp

theorem not_isException_of_closeTools {tools : List ToolLife} {error : PyError}
    (h : (closeTools tools).2 = some error) : error.isException = false := by
  induction tools with
  | nil => cases h
  | cons tool rest ih =>
    unfold closeTools at h
    cases hclose : escaping tool.close with
    | some escaped =>
      rw [hclose] at h
      cases h
      exact sandbox.not_isException_of_escaping hclose
    | none =>
      rw [hclose] at h
      exact ih h

/-- What is raised in closing the tools replaces what has kept one from starting. -/
theorem aenter_error {tools : List ToolLife} {retry : Int} {timeout : ℚ} {error closing : PyError}
    (h : (aenter tools retry timeout).2 = some error)
    (hclose : (closeTools tools).2 = some closing) :
    error = closing := by
  unfold aenter at h
  cases hstarted : (startTools (max 1 retry).toNat timeout tools).2 with
  | none =>
    simp only [hstarted] at h
    cases h
  | some first =>
    simp only [hstarted, hclose, Option.getD_some, Option.some.injEq] at h
    exact h.symm

/-! ## The life of a toolbox -/

/-- Whatever the attempts at a start meet, the tools are started in turn, each with an attempt and
no more than allowed, up to the first one that does not start; the body runs if and only if all of
them have started, and no tool is started behind it. Then every tool is closed once, unless a close
before the last one is cut off. -/
theorem tools_are_closed_iff {α : Type} (tools : List ToolLife) (retry : Int) (timeout : ℚ)
    (body : Except PyError α) : ∃ starting running closed,
      (entered tools retry timeout body).1 =
        starting ++ running ++ closed.map (fun tool => .close tool.name) ∧
      StartedInTurn (max 1 retry).toNat timeout tools starting ∧
      ((running = [.body] ∧ ∀ tool ∈ tools, tool.Starts (max 1 retry).toNat) ∨
        (running = [] ∧ ¬ ∀ tool ∈ tools, tool.Starts (max 1 retry).toNat)) ∧
      closed <+: tools ∧
      (closed = tools ↔ ∀ tool ∈ tools.dropLast, escaping tool.close = none) ∧
      ((∀ tool ∈ tools, tool.Starts (max 1 retry).toNat ∧ escaping tool.close = none) →
        (entered tools retry timeout body).2 = body) := by
  obtain ⟨closed, hprefix, hevents, hall⟩ := closeTools_events tools
  have hstarts := startTools_none_iff (max 1 retry).toNat timeout tools
  have hpositive : 0 < (max 1 retry).toNat := by omega
  have hturn := startedInTurn_startTools hpositive timeout tools
  have hcloses := closeTools_none_iff tools
  unfold entered aenter
  rcases hstarted : startTools (max 1 retry).toNat timeout tools with ⟨starting, _ | error⟩
  · rw [hstarted] at hstarts hturn
    have hready := hstarts.mp rfl
    refine ⟨starting, [.body], closed, ?_, hturn, Or.inl ⟨rfl, hready⟩, hprefix, hall, ?_⟩
    · simp [hevents]
    · intro h
      have hnone := hcloses.mpr (fun tool htool => (h tool htool).2)
      simp [hnone]
  · rw [hstarted] at hstarts hturn
    have hnot : ¬ ∀ tool ∈ tools, tool.Starts (max 1 retry).toNat := fun h => by
      cases hstarts.mpr h
    refine ⟨starting, [], closed, ?_, hturn, Or.inr ⟨rfl, hnot⟩, hprefix, hall, ?_⟩
    · simp [hevents]
    · intro h
      exact absurd (fun tool htool => (h tool htool).1) hnot

/-- A close that is cancelled leaves the tools behind it open. -/
theorem a_cancelled_close_leaves_tools_open :
    ¬ (∀ (tools : List ToolLife) (retry : Int) (timeout : ℚ) (body : Except PyError Unit),
      ∀ tool ∈ tools, .close tool.name ∈ (entered tools retry timeout body).1) := by
  intro h
  have hclose := h [⟨"shell", fun _ => ⟨.ok (), false, false⟩, .error .cancelledError⟩,
    ⟨"editor", fun _ => ⟨.ok (), false, false⟩, .ok ()⟩] 3 60 (.ok ())
    ⟨"editor", fun _ => ⟨.ok (), false, false⟩, .ok ()⟩ (by simp)
  revert hclose
  decide

end uni_agent.tools

namespace uni_agent.agents.ReActAgent

open tools (ToolLife aenter aenter_error closeTools entered not_isException_of_closeTools)

/-- The loop of an episode is the body of its toolbox: how entering and leaving end comes from the
life of the tools. -/
theorem within_eq_entered {cfg : ReActConfig} {around : Surroundings} {life : List ToolLife}
    {retry : Int} {timeout : ℚ} (henter : around.enter = (aenter life retry timeout).2)
    (hleave : around.leave = (closeTools life).2) (s : Episode) :
    (within cfg around s).1 = (entered life retry timeout
      (steps cfg around cfg.maxSteps.toNat 1 s).1).2 := by
  unfold within loop entered
  rw [henter, hleave]
  rcases hopen : aenter life retry timeout with ⟨events, _ | error⟩
  · cases hclose : (closeTools life).2 with
    | none => simp [hclose]
    | some closing =>
      have hescapes := not_isException_of_closeTools hclose
      simp [hescapes, hclose]
  · cases hclose : (closeTools life).2 with
    | none => simp
    | some closing =>
      have hescapes := not_isException_of_closeTools hclose
      have hsame : error = closing := aenter_error (by rw [hopen]) hclose
      simp [hescapes, hsame]

end uni_agent.agents.ReActAgent
