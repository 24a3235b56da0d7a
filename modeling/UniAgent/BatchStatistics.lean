-- What the statistics of a batch say about the TransferQueue. They describe what was stored
-- exactly when no prompt that stored a session failed to write its status.
import UniAgent.BatchRollouts

namespace uni_agent.framework

variable {Field : Type}

/-! ## What was stored -/

/-- The sessions whose rows were stored. -/
def storedSessions (puts : List Put) : Nat := puts.countP Put.isBatch

/-- The trajectory rows that were stored. -/
def storedRows (puts : List Put) : Nat := (puts.map (fun put => put.rows.length)).sum

def statusOf : Put → Option String
  | .batch _ _ => none
  | .status _ _ status => some status

/-- The status records that were stored. -/
def statusRecords (puts : List Put) : List String := puts.filterMap statusOf

/-- Everything that fails raises an `Exception`. -/
structure Ordinary (o : Outside Field) : Prop where
  samplingParams : ∀ i e, o.samplingParams i = .error e → e.isException = true
  session : ∀ i j e, o.session i j = .error e → e.isException = true
  tensors : ∀ trajectory e, o.tensors trajectory = .error e → e.isException = true
  batchPut : ∀ i j fields e, o.batchPut i j fields = some e → e.isException = true
  statusPut : ∀ i e, o.statusPut i = some e → e.isException = true

/-- A session gives trajectories, and its rows are stored. -/
def StoresSession (o : Outside Field) (uid partitionId : String) (i j : Nat) : Prop :=
  ∃ trajectories, o.session i j = .ok trajectories ∧ trajectories ≠ [] ∧
    ∃ put, writeSessionTrajectoriesToTq o uid partitionId i j trajectories = .ok put

/-- A prompt stores a session. -/
def StoresPrompt (o : Outside Field) (numSessions : Nat) (partitionId : String) (i : Nat) : Prop :=
  ∃ uid params, o.uid i = some uid ∧ o.samplingParams i = .ok params ∧
    ∃ j < numSessions, StoresSession o uid partitionId i j

/-! ## The prompt layer -/

theorem isException_of_mapM {o : Outside Field} (ho : Ordinary o)
    {trajectories : List session.Trajectory} {e : PyError}
    (h : trajectories.mapM (trajectoryToTqField o) = .error e) : e.isException = true := by
  induction trajectories with
  | nil => cases h
  | cons trajectory rest ih =>
    rw [List.mapM_cons] at h
    cases hfield : trajectoryToTqField o trajectory with
    | error e' =>
      rw [hfield] at h
      cases h
      unfold trajectoryToTqField at hfield
      split at hfield
      · exact ho.tensors _ _ hfield
      · exact ho.tensors _ _ hfield
      · exact ho.tensors _ _ hfield
      · cases hfield
        rfl
    | ok field =>
      cases hrest : rest.mapM (trajectoryToTqField o) with
      | error e' =>
        rw [hfield, hrest] at h
        cases h
        exact ih hrest
      | ok fields =>
        rw [hfield, hrest] at h
        cases h

theorem write_error {o : Outside Field} (ho : Ordinary o) {uid partitionId : String} {i j : Nat}
    {trajectories : List session.Trajectory} {e : PyError}
    (h : writeSessionTrajectoriesToTq o uid partitionId i j trajectories = .error e) :
    e.isException = true := by
  unfold writeSessionTrajectoriesToTq at h
  cases hfields : trajectories.mapM (trajectoryToTqField o) with
  | error e' =>
    rw [hfields] at h
    cases h
    exact isException_of_mapM ho hfields
  | ok fields =>
    rw [hfields] at h
    cases hput : o.batchPut i j fields with
    | some e' =>
      simp only [bind, Except.bind, hput] at h
      cases h
      exact ho.batchPut _ _ _ _ hput
    | none =>
      simp only [bind, Except.bind, hput] at h
      cases h

theorem write_ok {o : Outside Field} {uid partitionId : String} {i j : Nat}
    {trajectories : List session.Trajectory} {put : Put}
    (h : writeSessionTrajectoriesToTq o uid partitionId i j trajectories = .ok put) :
    put.isBatch = true ∧ put.rows.length = trajectories.length ∧ statusOf put = none := by
  unfold writeSessionTrajectoriesToTq at h
  cases hfields : trajectories.mapM (trajectoryToTqField o) with
  | error e' =>
    rw [hfields] at h
    cases h
  | ok fields =>
    rw [hfields] at h
    cases hput : o.batchPut i j fields with
    | some e' =>
      simp only [bind, Except.bind, hput] at h
      cases h
    | none =>
      simp only [bind, Except.bind, hput] at h
      cases h
      simp [Put.isBatch, Put.rows, statusOf]

/-- The counts of the loop over the sessions are those of its puts. -/
structure Counts (l : PromptLocals) (sessions : Nat) : Prop where
  sessions : l.successSessions + l.failedSessions = sessions
  success : l.successSessions = storedSessions l.puts
  outputs : l.successOutputs = storedRows l.puts
  rows : storedSessions l.puts ≤ storedRows l.puts
  noRows : storedSessions l.puts = 0 → storedRows l.puts = 0
  noStatus : statusRecords l.puts = []

/-- One session: it is counted once, as a success exactly when its rows are stored. -/
theorem takeSession_counts {o : Outside Field} (ho : Ordinary o) (uid partitionId : String)
    (i j : Nat) {n : Nat} {l : PromptLocals} (h : Counts l n) :
    ∃ l', takeSession o uid partitionId i l j = (l', none) ∧ Counts l' (n + 1) ∧
      (0 < l'.successSessions ↔ 0 < l.successSessions ∨ StoresSession o uid partitionId i j) := by
  have hfail : ∀ reason, Counts (l.fail reason) (n + 1) := by
    intro reason
    refine ⟨?_, h.success, h.outputs, h.rows, h.noRows, h.noStatus⟩
    have := h.sessions
    simp only [PromptLocals.fail]
    omega
  unfold takeSession
  cases hsession : o.session i j with
  | error e =>
    have hexception := ho.session i j e hsession
    refine ⟨l.fail (shortFailureReason e), by simp [hexception], hfail _, ?_⟩
    simp [PromptLocals.fail, StoresSession, hsession]
  | ok trajectories =>
    cases trajectories with
    | nil =>
      refine ⟨_, rfl, hfail _, ?_⟩
      simp [PromptLocals.fail, StoresSession, hsession]
    | cons first rest =>
      cases hwrite : writeSessionTrajectoriesToTq o uid partitionId i j (first :: rest) with
      | error e =>
        have hexception := write_error ho hwrite
        refine ⟨l.fail ("TQ write error: " ++ e.str), by simp [hwrite, hexception], hfail _, ?_⟩
        simp [PromptLocals.fail, StoresSession, hsession, hwrite]
      | ok put =>
        obtain ⟨hbatch, hlength, hstatus⟩ := write_ok hwrite
        have hstored : storedSessions (l.puts ++ [put]) = storedSessions l.puts + 1 := by
          simp [storedSessions, hbatch]
        have hrows : storedRows (l.puts ++ [put]) = storedRows l.puts + (rest.length + 1) := by
          simp [storedRows, hlength]
        refine ⟨l.succeed (first :: rest) put, by simp only [hwrite], ⟨?_, ?_, ?_, ?_, ?_, ?_⟩, ?_⟩
        · have := h.sessions
          simp only [PromptLocals.succeed]
          omega
        · simp only [PromptLocals.succeed, hstored, h.success]
        · simp only [PromptLocals.succeed, hrows, h.outputs, List.length_cons]
        · have := h.rows
          simp only [PromptLocals.succeed, hstored, hrows]
          omega
        · simp only [PromptLocals.succeed, hstored]
          omega
        · have hnone := h.noStatus
          unfold statusRecords at hnone ⊢
          simp only [PromptLocals.succeed, List.filterMap_append, hnone]
          simp [hstatus]
        · simp [PromptLocals.succeed, StoresSession, hsession, hwrite]

theorem takeSessions_counts {o : Outside Field} (ho : Ordinary o) (uid partitionId : String)
    (i : Nat) (sessions : List Nat) {n : Nat} {l : PromptLocals} (h : Counts l n) :
    ∃ l', takeSessions o uid partitionId i l sessions = (l', none) ∧
      Counts l' (n + sessions.length) ∧
      (0 < l'.successSessions ↔
        0 < l.successSessions ∨ ∃ j ∈ sessions, StoresSession o uid partitionId i j) := by
  induction sessions generalizing l n with
  | nil => exact ⟨l, rfl, h, by simp⟩
  | cons j rest ih =>
    obtain ⟨l', hl', hcounts, hstores⟩ := takeSession_counts ho uid partitionId i j h
    obtain ⟨l'', hl'', hcounts', hstores'⟩ := ih hcounts
    refine ⟨l'', ?_, ?_, ?_⟩
    · rw [takeSessions, hl']
      exact hl''
    · rw [List.length_cons, show n + (rest.length + 1) = n + 1 + rest.length by omega]
      exact hcounts'
    · rw [hstores', hstores]
      simp [or_assoc]

/-- What is true of the report of a prompt. The report is lost when it raises. -/
structure Told (o : Outside Field) (numSessions : Nat) (partitionId : String) (i : Nat)
    (report : Report) : Prop where
  stores : storedSessions report.puts ≠ 0 ↔ StoresPrompt o numSessions partitionId i
  rows : storedSessions report.puts ≤ storedRows report.puts
  noRows : storedSessions report.puts = 0 → storedRows report.puts = 0
  raised : ∀ e, report.result = .error e → e.isException = true ∧ statusRecords report.puts = [] ∧
    (StoresPrompt o numSessions partitionId i → o.statusPut i ≠ none)
  returned : ∀ stats, report.result = .ok stats →
    stats.numSuccessSessions + stats.numFailedSessions = numSessions ∧
    stats.numSuccessSessions = storedSessions report.puts ∧
    stats.numSuccessOutputs = storedRows report.puts ∧
    stats.numFailedUids = (if storedSessions report.puts = 0 then 1 else 0) ∧
    o.statusPut i = none ∧
    statusRecords report.puts =
      [if storedSessions report.puts = 0 then "failure" else "finished"]

theorem told_of_nothing {o : Outside Field} {numSessions : Nat} {partitionId : String} {i : Nat}
    {e : PyError} (he : e.isException = true) (hnone : ¬ StoresPrompt o numSessions partitionId i) :
    Told o numSessions partitionId i ⟨.error e, []⟩ where
  stores := by simp [storedSessions, hnone]
  rows := Nat.le_refl 0
  noRows := fun _ => rfl
  raised := by
    intro e' he'
    cases he'
    exact ⟨he, rfl, fun h => absurd h hnone⟩
  returned := by
    intro stats hstats
    cases hstats

theorem runPromptSessionsToTq_told {o : Outside Field} (ho : Ordinary o) (numSessions : Nat)
    (partitionId : String) (i : Nat) :
    Told o numSessions partitionId i (runPromptSessionsToTq o numSessions partitionId i) := by
  unfold runPromptSessionsToTq
  cases huid : o.uid i with
  | none => exact told_of_nothing rfl (by simp [StoresPrompt, huid])
  | some uid =>
    cases hparams : o.samplingParams i with
    | error e =>
      exact told_of_nothing (ho.samplingParams i e hparams) (by simp [StoresPrompt, hparams])
    | ok params =>
      have hstart : Counts {} 0 := ⟨rfl, rfl, rfl, Nat.le_refl 0, fun _ => rfl, rfl⟩
      obtain ⟨l, hl, hcounts, hstores⟩ :=
        takeSessions_counts ho uid partitionId i (List.range numSessions) hstart
      rw [Nat.zero_add, List.length_range] at hcounts
      have hprompt : storedSessions l.puts ≠ 0 ↔ StoresPrompt o numSessions partitionId i := by
        rw [← hcounts.success, Nat.ne_zero_iff_zero_lt, hstores]
        simp [StoresPrompt, huid, hparams]
      simp only [hl]
      cases hstatus : o.statusPut i with
      | some e =>
        refine ⟨hprompt, hcounts.rows, hcounts.noRows, ?_, ?_⟩
        · intro e' he'
          cases he'
          exact ⟨ho.statusPut i e hstatus, hcounts.noStatus, fun _ => by simp [hstatus]⟩
        · intro stats hstats
          cases hstats
      | none =>
        have hsessions : ∀ status, storedSessions (l.puts ++ [.status uid partitionId status]) =
            storedSessions l.puts := by
          intro status
          simp [storedSessions, Put.isBatch]
        have hrows : ∀ status, storedRows (l.puts ++ [.status uid partitionId status]) =
            storedRows l.puts := by
          intro status
          simp [storedRows, Put.rows]
        have hrecords : ∀ status, statusRecords (l.puts ++ [.status uid partitionId status]) =
            [status] := by
          intro status
          have hnone := hcounts.noStatus
          unfold statusRecords at hnone ⊢
          simp [hnone, statusOf]
        refine ⟨?_, ?_, ?_, ?_, ?_⟩
        · rw [hsessions]
          exact hprompt
        · rw [hsessions, hrows]
          exact hcounts.rows
        · rw [hsessions, hrows]
          exact hcounts.noRows
        · intro e he
          cases he
        · intro stats hstats
          cases hstats
          simp only [hsessions, hrows, hrecords]
          refine ⟨hcounts.sessions, hcounts.success, hcounts.outputs, ?_, hstatus, ?_⟩
          · by_cases hzero : storedSessions l.puts = 0
            · simp [hcounts.success, hzero]
            · simp [hcounts.success, hzero, Nat.pos_of_ne_zero hzero]
          · by_cases hzero : storedSessions l.puts = 0
            · simp [hcounts.success, hzero]
            · simp [hcounts.success, hzero, Nat.pos_of_ne_zero hzero]

/-! ## The batch layer -/

/-- Rows of the prompt were stored, and its status was not. -/
def Lost (o : Outside Field) (numSessions : Nat) (partitionId : String) (i : Nat) : Prop :=
  StoresPrompt o numSessions partitionId i ∧ o.statusPut i ≠ none

/-- The puts of all prompts. -/
def allPuts (reports : List Report) : List Put := reports.flatMap Report.puts

/-- The prompts without a stored session. -/
def failedPrompts (reports : List Report) : Nat :=
  reports.countP (fun report => storedSessions report.puts == 0)

theorem storedSessions_append (xs ys : List Put) :
    storedSessions (xs ++ ys) = storedSessions xs + storedSessions ys := List.countP_append

theorem storedRows_append (xs ys : List Put) :
    storedRows (xs ++ ys) = storedRows xs + storedRows ys := by
  simp [storedRows]

/-- The statistics after some more reports, when the puts of each are counted. -/
structure Adds (stats : Stats) (reports : List Report) (stats' : Stats) : Prop where
  success : stats'.numSuccessSessions =
    stats.numSuccessSessions + storedSessions (allPuts reports)
  outputs : stats'.numSuccessOutputs = stats.numSuccessOutputs + storedRows (allPuts reports)
  failedUids : stats'.numFailedUids = stats.numFailedUids + failedPrompts reports

/-- One prompt: its sessions are counted, and its puts when it is not lost. -/
theorem addOutcome_told {o : Outside Field} {numSessions : Nat} {partitionId : String} {i : Nat}
    {report : Report} (h : Told o numSessions partitionId i report) (stats : Stats) :
    ∃ stats', addOutcome numSessions stats report.result = .ok stats' ∧
      stats'.numSuccessSessions + stats'.numFailedSessions =
        stats.numSuccessSessions + stats.numFailedSessions + numSessions ∧
      (¬ Lost o numSessions partitionId i → Adds stats [report] stats') ∧
      (Lost o numSessions partitionId i → stats'.numSuccessSessions <
        stats.numSuccessSessions + storedSessions report.puts) := by
  have hputs : allPuts [report] = report.puts := by simp [allPuts]
  cases hresult : report.result with
  | error e =>
    obtain ⟨hexception, -, hstored⟩ := h.raised e hresult
    simp only [addOutcome, hexception, if_true]
    refine ⟨_, rfl, by simp only; omega, ?_, ?_⟩
    · intro hlost
      have hnone : storedSessions report.puts = 0 := by
        by_contra hzero
        have hprompt := h.stores.mp hzero
        exact hlost ⟨hprompt, hstored hprompt⟩
      refine ⟨?_, ?_, ?_⟩
      · rw [hputs, hnone]
        rfl
      · rw [hputs, h.noRows hnone]
        rfl
      · simp [failedPrompts, hnone]
    · rintro ⟨hprompt, -⟩
      have hpositive := h.stores.mpr hprompt
      simp only
      omega
  | ok outcome =>
    obtain ⟨hsessions, hsuccess, houtputs, huids, hstatus, -⟩ := h.returned outcome hresult
    refine ⟨_, rfl, by simp only; omega, ?_, ?_⟩
    · intro _
      refine ⟨?_, ?_, ?_⟩
      · rw [hputs, ← hsuccess]
      · rw [hputs, ← houtputs]
      · simp only [huids, failedPrompts, List.countP_cons, List.countP_nil,
          Nat.zero_add, beq_iff_eq]
    · rintro ⟨-, hput⟩
      exact absurd hstatus hput

theorem Adds.trans {stats stats' stats'' : Stats} {report : Report} {reports : List Report}
    (h : Adds stats [report] stats') (h' : Adds stats' reports stats'') :
    Adds stats (report :: reports) stats'' := by
  have hputs : allPuts (report :: reports) = allPuts [report] ++ allPuts reports := by
    simp [allPuts]
  have hfailed : failedPrompts (report :: reports) =
      failedPrompts [report] + failedPrompts reports := by
    unfold failedPrompts
    rw [← List.countP_append, List.singleton_append]
  refine ⟨?_, ?_, ?_⟩
  · rw [hputs, storedSessions_append, h'.success, h.success, Nat.add_assoc]
  · rw [hputs, storedRows_append, h'.outputs, h.outputs, Nat.add_assoc]
  · rw [hfailed, h'.failedUids, h.failedUids, Nat.add_assoc]

/-- The statistics of all prompts. A lost prompt makes them too small, and nothing makes them too
large. -/
theorem addOutcomes_told {o : Outside Field} {numSessions : Nat} {partitionId : String}
    {run : Nat → Report} (h : ∀ i, Told o numSessions partitionId i (run i)) (samples : List Nat)
    (stats : Stats) :
    ∃ stats', ((samples.map run).map Report.result).foldlM (addOutcome numSessions) stats =
        .ok stats' ∧
      stats'.numSuccessSessions + stats'.numFailedSessions =
        stats.numSuccessSessions + stats.numFailedSessions + samples.length * numSessions ∧
      stats'.numSuccessSessions ≤
        stats.numSuccessSessions + storedSessions (allPuts (samples.map run)) ∧
      ((∀ i ∈ samples, ¬ Lost o numSessions partitionId i) →
        Adds stats (samples.map run) stats') ∧
      ((∃ i ∈ samples, Lost o numSessions partitionId i) → stats'.numSuccessSessions <
        stats.numSuccessSessions + storedSessions (allPuts (samples.map run))) := by
  induction samples generalizing stats with
  | nil => exact ⟨stats, rfl, by simp, by simp [allPuts, storedSessions],
      fun _ => ⟨rfl, rfl, rfl⟩, by simp⟩
  | cons i samples ih =>
    obtain ⟨stats₁, hfirst, hsessions₁, hkept₁, hlost₁⟩ := addOutcome_told (h i) stats
    obtain ⟨stats', hrest, hsessions, hle, hkept, hlost⟩ := ih stats₁
    have hputs : storedSessions (allPuts ((i :: samples).map run)) =
        storedSessions (run i).puts + storedSessions (allPuts (samples.map run)) := by
      simp only [allPuts, List.map_cons, List.flatMap_cons, storedSessions_append]
    have hle₁ : stats₁.numSuccessSessions ≤
        stats.numSuccessSessions + storedSessions (run i).puts := by
      by_cases hi : Lost o numSessions partitionId i
      · exact (hlost₁ hi).le
      · have hadds := (hkept₁ hi).success
        simp only [allPuts, List.flatMap_cons, List.flatMap_nil, List.append_nil] at hadds
        exact hadds.le
    refine ⟨stats', ?_, ?_, ?_, ?_, ?_⟩
    · rw [List.map_cons, List.map_cons, List.foldlM_cons, hfirst]
      exact hrest
    · rw [hsessions, hsessions₁, List.length_cons, Nat.add_mul, Nat.one_mul]
      omega
    · omega
    · intro hnone
      exact (hkept₁ (hnone i List.mem_cons_self)).trans
        (hkept (fun j hj => hnone j (List.mem_cons_of_mem _ hj)))
    · rintro ⟨j, hj, hlostJ⟩
      rcases List.mem_cons.mp hj with rfl | hj
      · have := hlost₁ hlostJ
        omega
      · have := hlost ⟨j, hj, hlostJ⟩
        omega

/-! ## Statistics and storage -/

/-- A batch that starts `n` sessions for each of its prompts. -/
structure Starts (r : BatchRequest) (n : Nat) : Prop where
  nonempty : 0 < r.size
  positive : 0 < n
  steps : r.globalSteps.isSome = true ∨ r.validate = true
  uids : r.hasUids = true
  config : ∃ config, r.rolloutConfig = some config ∧
    (if r.validate then config.2 else config.1) = n

def BatchRequest.partitionId (r : BatchRequest) : String :=
  if r.validate then "val" else "train"

/-- The statistics of a batch describe what was stored. -/
structure Describes (o : Outside Field) (r : BatchRequest) (n : Nat) (stats : Stats)
    (reports : List Report) : Prop where
  sessions : stats.numSuccessSessions + stats.numFailedSessions = r.size * n
  success : stats.numSuccessSessions = storedSessions (allPuts reports)
  outputs : stats.numSuccessOutputs = storedRows (allPuts reports)
  failedUids : stats.numFailedUids = failedPrompts reports
  raises : generateSequences o r = (reports, .error (allRolloutsFailed r stats)) ↔
    storedRows (allPuts reports) = 0
  status : ∀ report ∈ reports, statusRecords report.puts ≠ [] →
    ∃ status, statusRecords report.puts = [status] ∧
      (status = "finished" ↔ storedSessions report.puts ≠ 0)

theorem generateSequences_eq {o : Outside Field} {r : BatchRequest} {n : Nat} (hr : Starts r n)
    {stats : Stats} {reports : List Report}
    (h : runBatchToTq o r.size n r.partitionId = (reports, .ok stats)) :
    generateSequences o r =
      (reports, if stats.numSuccessOutputs = 0 then .error (allRolloutsFailed r stats)
        else .ok ()) := by
  obtain ⟨⟨trainN, valN⟩, hconfig, hn⟩ := hr.config
  have hsteps : (r.globalSteps.isNone && !r.validate) = false := by
    rcases hr.steps with hsteps | hvalidate
    · rw [Option.isNone_eq_false_iff.mpr hsteps, Bool.false_and]
    · rw [hvalidate, Bool.not_true, Bool.and_false]
  unfold BatchRequest.partitionId at h
  simp only [generateSequences, hconfig, hsteps, hr.uids, Bool.not_true, Bool.false_eq_true,
    if_false]
  simp only at hn
  rw [hn, h]

theorem runBatchToTq_eq (o : Outside Field) {size n : Nat} (hsize : 0 < size) (hn : 0 < n)
    (partitionId : String) :
    runBatchToTq o size n partitionId =
      ((List.range size).map (runPromptSessionsToTq o n partitionId),
        (((List.range size).map (runPromptSessionsToTq o n partitionId)).map
          Report.result).foldlM (addOutcome n) {}) := by
  unfold runBatchToTq
  rw [if_neg (by omega), if_neg (by omega), Int.toNat_natCast]

/-- What a prompt says of itself is true, also when its task failed. -/
theorem Told.status {o : Outside Field} {n : Nat} {partitionId : String} {i : Nat}
    {report : Report} (h : Told o n partitionId i report)
    (hrecords : statusRecords report.puts ≠ []) :
    ∃ status, statusRecords report.puts = [status] ∧
      (status = "finished" ↔ storedSessions report.puts ≠ 0) := by
  cases hresult : report.result with
  | error e => exact absurd (h.raised e hresult).2.1 hrecords
  | ok stats =>
    refine ⟨_, (h.returned stats hresult).2.2.2.2.2, ?_⟩
    by_cases hzero : storedSessions report.puts = 0
    · simp [hzero]
    · simp [hzero]

/-- The statistics describe what was stored, exactly when every prompt that stored a session also
stored its status. -/
theorem statistics_describe_storage_iff (o : Outside Field) (ho : Ordinary o) (r : BatchRequest)
    (n : Nat) (hr : Starts r n) :
    (∃ stats reports, runBatchToTq o r.size n r.partitionId = (reports, .ok stats) ∧
        Describes o r n stats reports) ↔
      ∀ i < r.size, StoresPrompt o n r.partitionId i → o.statusPut i = none := by
  have htold := fun i => runPromptSessionsToTq_told ho n r.partitionId i
  obtain ⟨stats, hstats, hsessions, -, hkept, hlost⟩ :=
    addOutcomes_told htold (List.range r.size) {}
  have hrun := runBatchToTq_eq o hr.nonempty hr.positive r.partitionId
  rw [hstats] at hrun
  refine ⟨?_, ?_⟩
  · rintro ⟨stats', reports, hrun', hdescribes⟩ i hi hstores
    obtain ⟨rfl, heq⟩ := Prod.mk.inj (hrun.symm.trans hrun')
    obtain rfl := Except.ok.inj heq
    by_contra hput
    have hless := hlost ⟨i, List.mem_range.mpr hi, hstores, hput⟩
    rw [hdescribes.success] at hless
    simp at hless
  · intro hputs
    have hadds := hkept (by
      rintro i hi ⟨hstores, hput⟩
      exact hput (hputs i (List.mem_range.mp hi) hstores))
    have houtputs := hadds.outputs
    rw [Nat.zero_add] at houtputs
    refine ⟨stats, _, hrun, ?_, ?_, houtputs, ?_, ?_, ?_⟩
    · simpa using hsessions
    · simpa using hadds.success
    · simpa using hadds.failedUids
    · rw [generateSequences_eq hr hrun, houtputs]
      by_cases hzero : storedRows (allPuts ((List.range r.size).map
          (runPromptSessionsToTq o n r.partitionId))) = 0
      · simp [hzero]
      · simp [hzero]
    · intro report hreport hrecords
      obtain ⟨i, -, rfl⟩ := List.mem_map.mp hreport
      exact (htold i).status hrecords

def oneToken : session.Trajectory where
  promptIds := [1]
  responseIds := [2]
  responseMask := [1]
  responseLogprobs := none
  rewardInfo := [("finished", .bool true)]
  numTurns := 2
  routedExperts := none
  multiModalData := none
  extraFields := {}

/-- Two prompts with two sessions each. The first stores one session, and the second none. -/
def twoPrompts (statusPut : Nat → Option PyError) : Outside Unit where
  uid := fun i => some (if i = 0 then "a" else "b")
  samplingParams := fun _ => .ok []
  session := fun i j =>
    if i = 1 then .ok []
    else if j = 0 then .ok [oneToken] else .error (.runtimeError "the runner failed")
  tensors := fun _ => .ok ()
  batchPut := fun _ _ _ => none
  statusPut := statusPut

def twoPromptsRequest : BatchRequest where
  size := 2
  validate := false
  globalSteps := some 7
  hasUids := true
  rolloutConfig := some (2, 1)

/-- The put of the status of sample `i` fails. -/
def failsAt (i : Nat) (sampleIndex : Nat) : Option PyError :=
  if sampleIndex = i then some (.runtimeError "the put failed") else none

theorem ordinary_twoPrompts (i : Nat) : Ordinary (twoPrompts (failsAt i)) where
  samplingParams := by
    intro i e he
    cases he
  session := by
    intro i j e he
    simp only [twoPrompts] at he
    split at he
    · cases he
    · split at he
      · cases he
      · cases he
        rfl
  tensors := by
    intro trajectory e he
    cases he
  batchPut := by
    intro i j fields e he
    cases he
  statusPut := by
    intro sampleIndex e he
    simp only [twoPrompts, failsAt] at he
    split at he
    · cases he
      rfl
    · cases he

theorem starts_twoPromptsRequest : Starts twoPromptsRequest 2 where
  nonempty := by decide
  positive := by decide
  steps := Or.inl rfl
  uids := rfl
  config := ⟨(2, 1), rfl, rfl⟩

/-- The status of the second prompt is not stored, and its sessions are not either. -/
theorem statistics_describe_storage_twoPrompts :
    ∃ stats reports, runBatchToTq (twoPrompts (failsAt 1)) 2 2 "train" = (reports, .ok stats) ∧
      Describes (twoPrompts (failsAt 1)) twoPromptsRequest 2 stats reports := by
  refine (statistics_describe_storage_iff _ (ordinary_twoPrompts 1) twoPromptsRequest 2
    starts_twoPromptsRequest).mpr ?_
  intro i hi hstores
  by_cases hone : i = 1
  · obtain ⟨uid, params, -, -, j, -, trajectories, hsession, hnil, -⟩ := hstores
    simp only [twoPrompts, hone, if_true] at hsession
    cases hsession
    exact absurd rfl hnil
  · exact if_neg hone

/-- The rows of the first prompt are stored and its status is not: the batch counts no success. -/
theorem a_lost_status_hides_a_stored_session :
    ¬ ∀ (o : Outside Unit) (r : BatchRequest) (n : Nat), Ordinary o → Starts r n →
      ∃ stats reports, runBatchToTq o r.size n r.partitionId = (reports, .ok stats) ∧
        Describes o r n stats reports := by
  intro h
  obtain ⟨stats, reports, hrun, hdescribes⟩ := h _ _ _ (ordinary_twoPrompts 0)
    starts_twoPromptsRequest
  have hstored : storedSessions
    (allPuts (runBatchToTq (twoPrompts (failsAt 0)) 2 2 "train").1) = 1 :=
    by decide
  have hcounted : (runBatchToTq (twoPrompts (failsAt 0)) 2 2 "train").2.toOption.map
      Stats.numSuccessSessions = some 0 := by decide
  have hrun' : runBatchToTq (twoPrompts (failsAt 0)) 2 2 "train" = (reports, .ok stats) := hrun
  rw [hrun'] at hstored hcounted
  have hsuccess := hdescribes.success
  rw [hstored, Option.some.inj hcounted] at hsuccess
  cases hsuccess

end uni_agent.framework
