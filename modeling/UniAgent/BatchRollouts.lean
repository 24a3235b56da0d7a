-- A batch of rollouts: every prompt runs its sessions, writes the trajectories of those that
-- succeed to the TransferQueue, and then its own status. The failures are counted at three
-- levels: of a session, of a prompt and of the batch.
import UniAgent.GatewayRoutes

namespace uni_agent

/-- `error.__class__.__name__` -/
def PyError.className : PyError → String
  | .httpException _ _ => "HTTPException"
  | .valueError _ => "ValueError"
  | .runtimeError _ => "RuntimeError"
  | .assertionError _ => "AssertionError"
  | .indexError _ => "IndexError"
  | .typeError _ => "TypeError"
  | .cancelledError => "CancelledError"
  | .otherException className _ => className

/-- `isinstance(error, Exception)`. A `CancelledError` is a `BaseException` only. -/
def PyError.isException : PyError → Bool
  | .cancelledError => false
  | _ => true

namespace framework

open session (Trajectory)

/-- `_short_failure_reason` -/
def shortFailureReason (error : PyError) : String :=
  let message := if error.str = "" then error.className else error.str
  String.ofList ((error.className ++ ":" ++ message).toList.take 512)

/-! ## The TransferQueue -/

/-- One put that succeeded. -/
inductive Put where
  | batch (keys : List String) (partitionId : String)
  | status (key partitionId status : String)
  deriving DecidableEq, Repr

/-- The rows of a batch put. -/
def Put.rows : Put → List String
  | .batch keys _ => keys
  | .status _ _ _ => []

def Put.isBatch : Put → Bool
  | .batch _ _ => true
  | .status _ _ _ => false

/-- What is decided outside: by the prompts, the sessions, the conversion to tensors and the
TransferQueue. Samples and sessions are named by their index. -/
structure Outside (Field : Type) where
  uid : Nat → Option String
  samplingParams : Nat → Except PyError Dict
  session : Nat → Nat → Except PyError (List Trajectory)
  tensors : Trajectory → Except PyError Field
  batchPut : Nat → Nat → List Field → Option PyError
  statusPut : Nat → Option PyError

variable {Field : Type}

/-! ## The session layer -/

/-- `_trajectory_to_tq_field_and_tag` -/
def trajectoryToTqField (o : Outside Field) (trajectory : Trajectory) : Except PyError Field :=
  match trajectory.rewardInfo.get? "finished" with
  | none | some .null | some (.bool _) => o.tensors trajectory
  | some _ => .error (.valueError "reward_info.finished must be a bool or null")

/-- `_write_session_trajectories_to_tq` -/
def writeSessionTrajectoriesToTq (o : Outside Field) (uid partitionId : String)
    (sampleIndex sessionIndex : Nat) (trajectories : List Trajectory) : Except PyError Put := do
  let fields ← trajectories.mapM (trajectoryToTqField o)
  match o.batchPut sampleIndex sessionIndex fields with
  | some error => throw error
  | none =>
    return .batch ((List.range trajectories.length).map (fun index =>
      uid ++ "_" ++ toString sessionIndex ++ "_" ++ toString index)) partitionId

/-! ## The prompt layer -/

structure Stats where
  numSuccessSessions : Nat := 0
  numFailedSessions : Nat := 0
  numSuccessOutputs : Nat := 0
  numUnfinishedEpisodes : Nat := 0
  numFailedUids : Nat := 0
  failureReasons : List String := []
  deriving DecidableEq, Repr

/-- The locals of the loop over the sessions, and the puts so far. -/
structure PromptLocals where
  successSessions : Nat := 0
  failedSessions : Nat := 0
  successOutputs : Nat := 0
  unfinishedEpisodes : Nat := 0
  failureReasons : List String := []
  puts : List Put := []

def PromptLocals.fail (l : PromptLocals) (reason : String) : PromptLocals :=
  { l with
    failedSessions := l.failedSessions + 1
    failureReasons := l.failureReasons ++ [reason] }

/-- `traj.reward_info.get("finished") is False` -/
def isUnfinished (trajectory : Trajectory) : Bool :=
  match trajectory.rewardInfo.get? "finished" with
  | some (.bool finished) => !finished
  | _ => false

def PromptLocals.succeed (l : PromptLocals) (trajectories : List Trajectory) (put : Put) :
    PromptLocals :=
  { l with
    successSessions := l.successSessions + 1
    successOutputs := l.successOutputs + trajectories.length
    unfinishedEpisodes := l.unfinishedEpisodes + if trajectories.any isUnfinished then 1 else 0
    puts := l.puts ++ [put] }

/-- One turn of the loop over the outcomes of the sessions. An exception that is no `Exception`
leaves the loop. -/
def takeSession (o : Outside Field) (uid partitionId : String) (sampleIndex : Nat)
    (l : PromptLocals) (sessionIndex : Nat) : PromptLocals × Option PyError :=
  match o.session sampleIndex sessionIndex with
  | .error error =>
    if error.isException then (l.fail (shortFailureReason error), none) else (l, some error)
  | .ok [] =>
    (l.fail ("empty trajectories for uid=" ++ uid ++ " session_index=" ++ toString sessionIndex),
      none)
  | .ok trajectories =>
    match writeSessionTrajectoriesToTq o uid partitionId sampleIndex sessionIndex trajectories with
    | .error error =>
      if error.isException then (l.fail ("TQ write error: " ++ error.str), none)
      else (l, some error)
    | .ok put => (l.succeed trajectories put, none)

def takeSessions (o : Outside Field) (uid partitionId : String) (sampleIndex : Nat) :
    PromptLocals → List Nat → PromptLocals × Option PyError
  | l, [] => (l, none)
  | l, sessionIndex :: rest =>
    match takeSession o uid partitionId sampleIndex l sessionIndex with
    | (l, some error) => (l, some error)
    | (l, none) => takeSessions o uid partitionId sampleIndex l rest

/-- How the task of one prompt ended, and its puts. -/
structure Report where
  result : Except PyError Stats
  puts : List Put

/-- `_run_prompt_sessions_to_tq` -/
def runPromptSessionsToTq (o : Outside Field) (numSessions : Nat) (partitionId : String)
    (sampleIndex : Nat) : Report :=
  match o.uid sampleIndex with
  | none => ⟨.error (.valueError
      "OpenAICompatibleAgentFramework requires prompts['uid'] for TransferQueue output"), []⟩
  | some uid =>
    match o.samplingParams sampleIndex with
    | .error error => ⟨.error error, []⟩
    | .ok _ =>
      match takeSessions o uid partitionId sampleIndex {} (List.range numSessions) with
      | (l, some error) => ⟨.error error, l.puts⟩
      | (l, none) =>
        match o.statusPut sampleIndex with
        | some error => ⟨.error error, l.puts⟩
        | none =>
          let status := if 0 < l.successSessions then "finished" else "failure"
          ⟨.ok {
            numSuccessSessions := l.successSessions
            numFailedSessions := l.failedSessions
            numSuccessOutputs := l.successOutputs
            numUnfinishedEpisodes := l.unfinishedEpisodes
            numFailedUids := if 0 < l.successSessions then 0 else 1
            failureReasons := l.failureReasons }, l.puts ++ [.status uid partitionId status]⟩

/-! ## The batch layer -/

/-- One turn of the loop over the outcomes of the prompts. -/
def addOutcome (numSessions : Nat) (stats : Stats) : Except PyError Stats → Except PyError Stats
  | .error error =>
    if error.isException then
      .ok { stats with
        numFailedSessions := stats.numFailedSessions + numSessions
        numFailedUids := stats.numFailedUids + 1
        failureReasons := stats.failureReasons ++ [shortFailureReason error] }
    else .error error
  | .ok outcome => .ok {
      numSuccessSessions := stats.numSuccessSessions + outcome.numSuccessSessions
      numFailedSessions := stats.numFailedSessions + outcome.numFailedSessions
      numSuccessOutputs := stats.numSuccessOutputs + outcome.numSuccessOutputs
      numUnfinishedEpisodes := stats.numUnfinishedEpisodes + outcome.numUnfinishedEpisodes
      numFailedUids := stats.numFailedUids + outcome.numFailedUids
      failureReasons := stats.failureReasons ++ outcome.failureReasons }

/-- `_run_batch_to_tq`: the reports of all prompts, and the statistics. `num_input_prompts` is the
number of the reports. -/
def runBatchToTq (o : Outside Field) (size : Nat) (numSessions : Int) (partitionId : String) :
    List Report × Except PyError Stats :=
  if size = 0 then ([], .error (.assertionError "generate_sequences requires a non-empty batch"))
  else if numSessions ≤ 0 then
    ([], .error (.valueError ("num_sessions must be positive, got " ++ toString numSessions)))
  else
    let reports := (List.range size).map
      (runPromptSessionsToTq o numSessions.toNat partitionId)
    (reports, (reports.map Report.result).foldlM (addOutcome numSessions.toNat) {})

/-- The prompts of a batch and the config, as `generate_sequences` reads them. -/
structure BatchRequest where
  size : Nat
  validate : Bool
  globalSteps : Option Int
  hasUids : Bool
  /-- `rollout.n` and `rollout.val_kwargs.n`, when there is a rollout config. -/
  rolloutConfig : Option (Int × Int)

def allRolloutsFailed (r : BatchRequest) (stats : Stats) : PyError :=
  .runtimeError ("All rollouts failed at global_steps=" ++
    r.globalSteps.elim "None" toString ++ ". failures=" ++ toString stats.numFailedUids ++ "/" ++
    toString r.size)

/-- `generate_sequences` -/
def generateSequences (o : Outside Field) (r : BatchRequest) : List Report × Except PyError Unit :=
  match r.rolloutConfig with
  | none => ([], .error (.runtimeError
      "OpenAICompatibleAgentFramework requires rollout_config for generate_sequences"))
  | some (n, valN) =>
    if r.globalSteps.isNone && !r.validate then ([], .error (.valueError
      "OpenAICompatibleAgentFramework requires prompts['global_steps'] for training"))
    else if !r.hasUids then ([], .error (.valueError
      "OpenAICompatibleAgentFramework requires prompts['uid'] for TransferQueue output"))
    else
      match runBatchToTq o r.size (if r.validate then valN else n)
        (if r.validate then "val" else "train") with
      | (reports, .error error) => (reports, .error error)
      | (reports, .ok stats) =>
        (reports, if stats.numSuccessOutputs = 0 then .error
          (allRolloutsFailed r stats) else .ok ())

end framework

end uni_agent
