-- The rows that training reads: which trajectories of a session are kept, the score they get, the
-- fields and the tag of each of them, and the columns that a session puts into the TransferQueue.
import Mathlib.Data.List.MinMax
import UniAgent.BatchStatistics
import UniAgent.Conservation
import UniAgent.RoutedExperts
import UniAgent.Validation

namespace uni_agent.framework

open session (GatewaySession RoutedExperts System Trajectory)

/-! ## Which trajectories are kept -/

/-- The key of `max` in `_select_session_trajectories`. -/
def selectionKey (item : Nat × Trajectory) : Nat ×ₗ Nat ×ₗ Nat ×ₗ Nat :=
  toLex (item.2.responseMask.sum, toLex (item.2.responseIds.length,
    toLex (item.2.numTurns, item.1)))

/-- `_select_session_trajectories` -/
def selectSessionTrajectories (trajectories : List Trajectory) (selection : String) :
    List Trajectory :=
  if selection = "all" ∨ trajectories.length ≤ 1 then trajectories
  else
    match (trajectories.zipIdx.map Prod.swap).argmax selectionKey with
    | some (_, trajectory) => [trajectory]
    | none => trajectories

/-! ## Scores -/

/-- A trajectory with what `_run_session` adds to it: a score, and what comes with the score. -/
structure Scored where
  trajectory : Trajectory
  rewardScore : Option PyFloat
  rewardExtraInfo : Option Json

def scoredWith (score : Option PyFloat) (info : Option Json) (trajectory : Trajectory) : Scored :=
  { trajectory, rewardScore := score, rewardExtraInfo := info }

/-- What scores a session: `float(value)` and `dict(value)`, and the result of a
`RewardLoopWorker`, where there are some. -/
structure Scoring where
  float : Json → Except PyError PyFloat
  dict : Json → Except PyError Dict
  computeScore : Option (Trajectory → Except PyError Json)
  uid : String

/-- `_score_from_reward_info`: what each of the trajectories gets. -/
def scoreFromRewardInfo (scoring : Scoring) (last : Trajectory) :
    Except PyError (Option (PyFloat × Json)) :=
  match last.rewardInfo.get? "reward" with
  | none | some .null => .ok none
  | some reward => do
    let score ← scoring.float reward
    return some (score, .obj ((last.rewardInfo.pop "reward").pop "finished"))

/-- `_score_trajectories`: what each of the trajectories gets. -/
def scoreTrajectories (scoring : Scoring) (computeScore : Trajectory → Except PyError Json)
    (last : Trajectory) : Except PyError (PyFloat × Json) := do
  let invalid : PyError := .valueError
    ("RewardLoopWorker result missing 'reward_score' key or invalid for uid=" ++ scoring.uid)
  match ← computeScore last with
  | .obj result =>
    match Dict.get? result "reward_score" with
    | none => throw invalid
    | some reward =>
      let score ← scoring.float reward
      let extra := (Dict.get? result "reward_extra_info").getD .null
      if extra.truthy then
        let extra ← scoring.dict extra
        return (score, .obj extra)
      return (score, .obj [])
  | _ => throw invalid

/-- The reward that the runner has posted, or what a `RewardLoopWorker` gives. -/
def annotationOf (scoring : Scoring) (last : Trajectory) :
    Except PyError (Option (PyFloat × Json)) := do
  match ← scoreFromRewardInfo scoring last with
  | some scores => return some scores
  | none =>
    match scoring.computeScore with
    | some computeScore =>
      let scores ← scoreTrajectories scoring computeScore last
      return some scores
    | none => return none

/-- The end of `_run_session`, behind the selection. -/
def scoreSession (scoring : Scoring) (trajectories : List Trajectory) :
    Except PyError (List Scored) :=
  match trajectories.getLast? with
  | none => .ok []
  | some last => do
    let scores ← annotationOf scoring last
    return trajectories.map (scoredWith (scores.map Prod.fst) (scores.map Prod.snd))

/-! ## Rows -/

/-- Position ids: one for each token, or one list for each axis of a multimodal model. -/
inductive Positions where
  | text (ids : List Nat)
  | axes (rows : List (List Nat))

/-- A value of a row: a tensor of one of the kinds that are built, what the processor gives, or
another object. -/
inductive Value (V : Type) where
  | long (xs : List Nat)
  | float32 (xs : List PyFloat)
  | scalar (n : Nat)
  | positions (p : Positions)
  | experts (r : RoutedExperts)
  | inputs (inputs : Option V)
  | object (value : Json)

/-- `isinstance(value, torch.Tensor)` -/
def Value.isTensor {V : Type} : Value V → Bool
  | .inputs _ | .object _ => false
  | _ => true

/-- A dict of values, less the order of its keys. -/
abbrev Row (V : Type) := String → Option (Value V)

/-- A processor: what it makes of the tokens and the media, unless that is empty, and the position
ids of its model for the axes behind the text. -/
structure Processor (V : Type) where
  inputs : List Token → MediaLists → Except PyError (Option V)
  ropeIndex : List Token → V → Except PyError (List (List Nat))

/-- What a framework writes its rows with. -/
structure RowSettings (V : Type) where
  processor : Option (Processor V)
  maskUnfinishedEpisode : Bool
  /-- A float as it is stored in a tensor of 32-bit floats. -/
  toFloat32 : PyFloat → PyFloat

section Rows

variable {V : Type} (cfg : RowSettings V)

/-- `compute_multi_modal_inputs` -/
def computeMultiModalInputs (inputIds : List Token) (data : Option MediaLists) :
    Except PyError (Option V) :=
  match cfg.processor, data with
  | some processor, some (images, videos) =>
    if images.isNone && videos.isNone then .ok none
    else processor.inputs inputIds (images, videos)
  | _, _ => .ok none

/-- `compute_position_id_with_mask`: the running sums less one, and no less than zero. -/
def computePositionIdWithMask (mask : List Nat) : List Nat :=
  (mask.scanl (· + ·) 0).tail.map (· - 1)

/-- `compute_position_ids`, for tokens that are all attended to. The axes of the model are put
under the text, so they have its length. -/
def computePositionIds (inputIds : List Token) (inputs : Option V) : Except PyError Positions :=
  let attentionMask := List.replicate inputIds.length 1
  match cfg.processor, inputs with
  | some processor, some inputs => do
    let vision ← processor.ropeIndex inputIds inputs
    if vision.all (fun axis => axis.length == inputIds.length) then
      return .axes (List.range inputIds.length :: vision)
    else throw (.runtimeError "Sizes of tensors must match except in dimension 1.")
  | _, _ => .ok (.text (computePositionIdWithMask attentionMask))

/-- `extra_fields` of a scored trajectory. -/
def extraFields (scored : Scored) : Dict :=
  let extra := scored.trajectory.extraFields
  (extra.versionSpan.elim [] (fun span =>
    [("min_global_steps", .int span.1), ("max_global_steps", span.2.elim .null .int)])) ++
  (extra.materializationReason.elim [] (fun reason =>
    [("materialization_reason", .str reason)])) ++
  scored.rewardExtraInfo.elim [] (fun info => [("reward_extra_info", info)])

/-- The tag of a row. -/
structure Tag where
  globalSteps : Json
  minGlobalSteps : Json
  maxGlobalSteps : Json
  status : String
  promptLen : Nat
  responseLen : Nat
  seqLen : Nat
  uid : String
  materializationReason : Option Json

/-- `rm_scores`: zeros, and the score in the last place. -/
def rmScores (length : Nat) : Option PyFloat → List PyFloat
  | some score => if 0 < length then List.replicate (length - 1) 0 ++ [cfg.toFloat32 score]
      else List.replicate length 0
  | none => List.replicate length 0

def sampleKeys : List String :=
  ["uid", "raw_prompt", "data_source", "reward_model", "extra_info", "tools_kwargs", "agent_name"]

/-- `reward_info.finished`, which has to be a bool or null. -/
def finishedOf (trajectory : Trajectory) : Except PyError (Option Bool) :=
  match trajectory.rewardInfo.get? "finished" with
  | none | some .null => .ok none
  | some (.bool finished) => .ok (some finished)
  | some _ => .error (.valueError "reward_info.finished must be a bool or null")

/-- The mask of the response, all zeros for an unfinished episode where these are masked. -/
def maskOf (trajectory : Trajectory) (finished : Option Bool) : List Nat :=
  if cfg.maskUnfinishedEpisode && finished == some false then
    List.replicate trajectory.responseMask.length 0
  else trajectory.responseMask

/-- `field[key] = value` for some keys in a row. -/
def Row.update (row : Row V) (fields : List (String × Value V)) : Row V :=
  fields.foldl (fun row field => Function.update row field.1 (some field.2)) row

/-- The fields of `_trajectory_to_tq_field_and_tag` up to the scores. -/
def tokenFields (scored : Scored) (inputs : Option V) (positions : Positions) : Row V :=
  let trajectory := scored.trajectory
  let inputIds := trajectory.promptIds ++ trajectory.responseIds
  let row : Row V := Row.update (fun _ => none)
    [("prompts", .long trajectory.promptIds), ("responses", .long trajectory.responseIds),
      ("input_ids", .long inputIds), ("attention_mask", .long (List.replicate inputIds.length 1)),
      ("position_ids", .positions positions), ("multi_modal_inputs", .inputs inputs)]
  let row := row.update (trajectory.responseLogprobs.elim [] (fun logprobs =>
    [("rollout_log_probs", .float32 (logprobs.map cfg.toFloat32))]))
  let aligned := trajectory.routedExperts.bind (fun experts =>
    alignRoutedExperts experts inputIds.length)
  let row := row.update (aligned.elim [] (fun experts => [("routed_experts", .experts experts)]))
  row.update
    [("rm_scores", .float32 (rmScores cfg trajectory.responseIds.length scored.rewardScore))]

/-- The fields of `_trajectory_to_tq_field_and_tag`. -/
def rowOf (sample : String → Option Json) (sessionIndex : Nat) (globalSteps : Json)
    (scored : Scored) (mask : List Nat) (inputs : Option V) (positions : Positions) : Row V :=
  let row := tokenFields cfg scored inputs positions
  let row := row.update (((extraFields scored).pop "materialization_reason").map
    (fun field => (field.1, .object field.2)))
  let row := row.update [("response_mask", .long mask), ("loss_mask", .long mask)]
  let row : Row V := Function.update row "multi_modal_data" none
  let row := row.update (sampleKeys.filterMap (fun key =>
    (sample key).map (fun value => (key, .object value))))
  row.update [("session_id", .object (.int sessionIndex)), ("global_steps", .object globalSteps),
    ("num_turns", .scalar scored.trajectory.numTurns)]

def tagOf (globalSteps : Json) (uid : String) (scored : Scored) : Tag :=
  let trajectory := scored.trajectory
  let stepOr (key : String) : Json :=
    match (extraFields scored).get? key with
    | none | some .null => globalSteps
    | some value => value
  { globalSteps
    minGlobalSteps := stepOr "min_global_steps"
    maxGlobalSteps := stepOr "max_global_steps"
    status := "success"
    promptLen := trajectory.promptIds.length
    responseLen := trajectory.responseIds.length
    seqLen := trajectory.promptIds.length + trajectory.responseIds.length
    uid
    materializationReason := match (extraFields scored).get? "materialization_reason" with
      | none | some .null => none
      | some reason => some reason }

/-- `_trajectory_to_tq_field_and_tag` -/
def trajectoryToTqFieldAndTag (sample : String → Option Json) (sessionIndex : Nat)
    (globalSteps : Json) (uid : String) (scored : Scored) : Except PyError (Row V × Tag) := do
  let trajectory := scored.trajectory
  let inputIds := trajectory.promptIds ++ trajectory.responseIds
  let finished ← finishedOf trajectory
  let inputs ← computeMultiModalInputs cfg inputIds trajectory.multiModalData
  let positions ← computePositionIds cfg inputIds inputs
  return (rowOf cfg sample sessionIndex globalSteps scored (maskOf cfg trajectory finished) inputs
    positions, tagOf globalSteps uid scored)

/-! ## Columns -/

/-- How a column is stored: as it was stacked, or as a nested tensor, with the dimension that is
ragged where it is not the default one. -/
inductive Layout where
  | stacked
  | nested (raggedIdx : Option Nat)
  deriving DecidableEq

structure Column (V : Type) where
  values : List (Value V)
  layout : Layout

/-- `_TQ_NESTED_SEQUENCE_FIELDS` -/
def nestedSequenceFields : List String :=
  ["prompts", "responses", "response_mask", "loss_mask", "input_ids", "attention_mask",
    "position_ids", "rollout_log_probs", "routed_experts", "rm_scores", "teacher_logprobs",
    "teacher_ids"]

def layoutOf (key : String) (values : List (Value V)) : Layout :=
  if nestedSequenceFields.contains key && values.all Value.isTensor then
    if key = "routed_experts" then .nested (some 1)
    else
      match key == "position_ids", values with
      | true, .positions (.axes _) :: _ => .nested (some 2)
      | _, _ => .nested none
  else .stacked

/-- The column under a key, where every row has it. -/
def columnOf (rows : List (Row V)) (key : String) : Option (Column V) :=
  if rows.all (fun row => (row key).isSome) then
    let values := rows.filterMap (fun row => row key)
    some { values, layout := layoutOf key values }
  else none

/-- `_list_of_tq_fields_to_tensordict` -/
def listOfTqFieldsToTensordict (rows : List (Row V)) :
    Except PyError (String → Option (Column V)) := do
  pyAssert (!rows.isEmpty) ""
  return columnOf rows

/-- A batch put with its data. -/
structure RowsPut (V : Type) where
  keys : List String
  columns : String → Option (Column V)
  tags : List Tag
  partitionId : String

/-- `_write_session_trajectories_to_tq`, up to the put. -/
def sessionRows (sample : String → Option Json) (sessionIndex : Nat) (globalSteps : Json)
    (uid partitionId : String) (trajectories : List Scored) : Except PyError (RowsPut V) := do
  let rows ← trajectories.mapM (trajectoryToTqFieldAndTag cfg sample sessionIndex globalSteps uid)
  let columns ← listOfTqFieldsToTensordict (rows.map Prod.fst)
  return {
    keys := (List.range trajectories.length).map (fun index =>
      uid ++ "_" ++ toString sessionIndex ++ "_" ++ toString index)
    columns
    tags := rows.map Prod.snd
    partitionId }

end Rows

/-! ## What a row holds -/

section Lookups

variable {V : Type} {cfg : RowSettings V} {row : Row V} {sample : String → Option Json}
  {sessionIndex : Nat} {globalSteps : Json} {uid partitionId : String} {scored : Scored}
  {mask : List Nat} {inputs : Option V} {positions : Positions}

@[simp] theorem Row.update_nil : row.update [] = row := rfl

@[simp] theorem Row.update_cons {key : String} {value : Value V}
    {rest : List (String × Value V)} :
    row.update ((key, value) :: rest) = Row.update (Function.update row key (some value)) rest :=
  rfl

theorem Row.update_of_ne {fields : List (String × Value V)} {key : String}
    (h : ∀ field ∈ fields, field.1 ≠ key) : row.update fields key = row key := by
  induction fields generalizing row with
  | nil => rfl
  | cons field rest ih =>
    have hne : key ≠ field.1 := (h field (by simp)).symm
    rw [Row.update_cons, ih (fun f hf => h f (by simp [hf])), Function.update_of_ne hne]

/-- The keys that are written behind the token fields. -/
def laterKeys : List String :=
  ["min_global_steps", "max_global_steps", "reward_extra_info", "response_mask", "loss_mask",
    "multi_modal_data"] ++ sampleKeys ++ ["session_id", "global_steps", "num_turns"]

theorem key_of_extraFields {field : String × Json}
    (h : field ∈ (extraFields scored).pop "materialization_reason") :
    field.1 ∈ ["min_global_steps", "max_global_steps", "reward_extra_info"] := by
  obtain ⟨hmem, hne⟩ := List.mem_filter.mp h
  unfold extraFields at hmem
  rcases List.mem_append.mp hmem with hmem | hmem
  · rcases List.mem_append.mp hmem with hmem | hmem
    · cases hspan : scored.trajectory.extraFields.versionSpan with
      | none => simp [hspan] at hmem
      | some span =>
        simp only [hspan, Option.elim_some, List.mem_cons, List.not_mem_nil, or_false] at hmem
        rcases hmem with rfl | rfl <;> simp
    · cases hreason : scored.trajectory.extraFields.materializationReason with
      | none => simp [hreason] at hmem
      | some reason =>
        simp only [hreason, Option.elim_some, List.mem_cons, List.not_mem_nil, or_false] at hmem
        subst hmem
        simp at hne
  · cases hinfo : scored.rewardExtraInfo with
    | none => simp [hinfo] at hmem
    | some info =>
      simp only [hinfo, Option.elim_some, List.mem_cons, List.not_mem_nil, or_false] at hmem
      simp [hmem]

/-- The sample has none of the keys that the tensors of a row have. -/
theorem update_sample {key : String} (hkey : key ∉ sampleKeys) :
    row.update (sampleKeys.filterMap (fun key =>
      (sample key).map (fun value => (key, Value.object value)))) key = row key := by
  apply Row.update_of_ne
  intro field hmem heq
  obtain ⟨name, hname, hvalue⟩ := List.mem_filterMap.mp hmem
  obtain ⟨value, _, rfl⟩ := Option.map_eq_some_iff.mp hvalue
  subst heq
  exact hkey hname

theorem update_extraFields {key : String}
    (hkey : key ∉ ["min_global_steps", "max_global_steps", "reward_extra_info"]) :
    row.update (((extraFields scored).pop "materialization_reason").map
      (fun field => (field.1, Value.object field.2))) key = row key := by
  apply Row.update_of_ne
  intro field hmem heq
  obtain ⟨source, hsource, rfl⟩ := List.mem_map.mp hmem
  subst heq
  exact hkey (key_of_extraFields hsource)

theorem rowOf_of_tokens {key : String} (hkey : key ∉ laterKeys) :
    rowOf cfg sample sessionIndex globalSteps scored mask inputs positions key =
      tokenFields cfg scored inputs positions key := by
  simp only [laterKeys, List.mem_append, not_or] at hkey
  obtain ⟨⟨hfirst, hsample⟩, hlast⟩ := hkey
  simp only [List.mem_cons, List.not_mem_nil, or_false, not_or] at hfirst hlast
  obtain ⟨hmin, hmax, hinfo, hmask, hloss, hmedia⟩ := hfirst
  obtain ⟨hid, hsteps, hturns⟩ := hlast
  unfold rowOf
  simp only [Row.update_cons, Row.update_nil]
  rw [Function.update_of_ne hturns, Function.update_of_ne hsteps, Function.update_of_ne hid,
    update_sample hsample, Function.update_of_ne hmedia, Function.update_of_ne hloss,
    Function.update_of_ne hmask, update_extraFields (by simp [hmin, hmax, hinfo])]

theorem rowOf_mask {key : String} (hkey : key = "response_mask" ∨ key = "loss_mask") :
    rowOf cfg sample sessionIndex globalSteps scored mask inputs positions key =
      some (.long mask) := by
  have hsample : key ∉ sampleKeys := by rcases hkey with rfl | rfl <;> decide
  have hne : key ≠ "num_turns" ∧ key ≠ "global_steps" ∧ key ≠ "session_id" ∧
      key ≠ "multi_modal_data" := by rcases hkey with rfl | rfl <;> decide
  unfold rowOf
  simp only [Row.update_cons, Row.update_nil]
  rw [Function.update_of_ne hne.1, Function.update_of_ne hne.2.1, Function.update_of_ne hne.2.2.1,
    update_sample hsample, Function.update_of_ne hne.2.2.2]
  rcases hkey with rfl | rfl
  · rw [Function.update_of_ne (by decide), Function.update_self]
  · rw [Function.update_self]

/-! ## Keys -/

theorem last_separated {α : Type} {a b c d : List α} {x : α} (hc : x ∉ c) (hd : x ∉ d)
    (h : a ++ x :: c = b ++ x :: d) : a = b ∧ c = d := by
  rcases List.append_eq_append_iff.mp h with ⟨xs, rfl, hxs⟩ | ⟨xs, rfl, hxs⟩
  · cases xs with
    | nil =>
      cases hxs
      simp
    | cons y ys =>
      cases hxs
      exact absurd (by simp) hc
  · cases xs with
    | nil =>
      cases hxs
      simp
    | cons y ys =>
      cases hxs
      exact absurd (by simp) hd

/-- The key of a row. -/
def rowKey (uid : String) (sessionIndex index : Nat) : String :=
  uid ++ "_" ++ toString sessionIndex ++ "_" ++ toString index

theorem toList_rowKey (uid : String) (i j : Nat) : (rowKey uid i j).toList =
    uid.toList ++ '_' :: (toString i).toList ++ '_' :: (toString j).toList := by
  simp [rowKey]

theorem toList_toString (n : Nat) : (toString n).toList = Nat.toDigits 10 n := by
  rw [Nat.toString_eq_repr, Nat.toList_repr]

theorem not_mem_toString (n : Nat) : '_' ∉ (toString n).toList := by
  intro hmem
  rw [toList_toString] at hmem
  exact absurd (Nat.isDigit_of_mem_toDigits (by decide) (by decide) hmem) (by decide)

theorem toString_injective {m n : Nat} (h : (toString m).toList = (toString n).toList) :
    m = n := by
  rw [toList_toString, toList_toString] at h
  calc m = Nat.ofDigitChars 10 (Nat.toDigits 10 m) 0 := Nat.ofDigitChars_ten_toDigits.symm
    _ = n := by rw [h, Nat.ofDigitChars_ten_toDigits]

/-- A key tells the prompt, the session and the place of its row. -/
theorem rowKey_injective {uid uid' : String} {i i' j j' : Nat}
    (h : rowKey uid i j = rowKey uid' i' j') : uid = uid' ∧ i = i' ∧ j = j' := by
  have hchars := congrArg String.toList h
  rw [toList_rowKey, toList_rowKey] at hchars
  obtain ⟨hfront, hlast⟩ := last_separated (not_mem_toString j) (not_mem_toString j') hchars
  obtain ⟨huid, hmiddle⟩ := last_separated (not_mem_toString i) (not_mem_toString i') hfront
  exact ⟨String.toList_inj.mp huid, toString_injective hmiddle, toString_injective hlast⟩

/-! ## What fits a tag -/

/-- A value has an entry for each of `n` tokens. -/
def Value.HasLength : Value V → Nat → Prop
  | .long xs, n => xs.length = n
  | .float32 xs, n => xs.length = n
  | .positions (.text ids), n => ids.length = n
  | .positions (.axes rows), n => ∀ row ∈ rows, row.length = n
  | .experts routing, n => routing.rows.length = n
  | _, _ => False

/-- The fields with an entry for each token of the response. -/
def responseFields : List String :=
  ["responses", "response_mask", "loss_mask", "rm_scores", "rollout_log_probs"]

/-- The fields with an entry for each token of the prompt and the response. -/
def sequenceFields : List String :=
  ["input_ids", "attention_mask", "position_ids", "routed_experts"]

/-- The fields that each row has. -/
def requiredFields : List String :=
  ["prompts", "responses", "input_ids", "attention_mask", "position_ids", "multi_modal_inputs",
    "rm_scores"] ++ ["response_mask", "loss_mask"] ++ ["session_id", "global_steps", "num_turns"]

/-- A row and its tag. -/
structure RowFits (row : Row V) (tag : Tag) : Prop where
  prompts : ∀ value, row "prompts" = some value → value.HasLength tag.promptLen
  responses : ∀ key ∈ responseFields, ∀ value, row key = some value →
    value.HasLength tag.responseLen
  sequences : ∀ key ∈ sequenceFields, ∀ value, row key = some value → value.HasLength tag.seqLen
  required : ∀ key ∈ requiredFields, (row key).isSome
  seqLen : tag.seqLen = tag.promptLen + tag.responseLen

/-- A trajectory has a mask entry for each token of its response, and logprobs for all of them or
for none. -/
structure TrajectoryShape (t : Trajectory) : Prop where
  mask : t.responseMask.length = t.responseIds.length
  logprobs : ∀ logprobs, t.responseLogprobs = some logprobs →
    logprobs.length = t.responseIds.length

theorem length_rmScores {length : Nat} {score : Option PyFloat} :
    (rmScores cfg length score).length = length := by
  cases score with
  | none => simp [rmScores]
  | some score =>
    simp only [rmScores]
    split
    · rw [List.length_append, List.length_replicate, List.length_singleton]
      omega
    · simp

/-- The scores of the tokens are zeros, the last one apart. -/
theorem getElem?_rmScores {length i : Nat} {score : Option PyFloat} {x : PyFloat}
    (h : (rmScores cfg length score)[i]? = some x) :
    x = if i + 1 = length then score.elim 0 cfg.toFloat32 else 0 := by
  have hi : i < length := by
    have hbound := (List.getElem?_eq_some_iff.mp h).1
    rwa [length_rmScores] at hbound
  unfold rmScores at h
  cases score with
  | none =>
    rw [List.getElem?_replicate, if_pos hi] at h
    cases h
    simp
  | some score =>
    simp only [if_pos (Nat.zero_lt_of_lt hi)] at h
    by_cases hlast : i + 1 = length
    · subst hlast
      simp only [Nat.add_sub_cancel] at h
      rw [List.getElem?_append_right (by simp)] at h
      simpa [eq_comm] using h
    · rw [List.getElem?_append_left (by simp; omega), List.getElem?_replicate,
        if_pos (by omega)] at h
      cases h
      rw [if_neg hlast]

theorem length_maskOf {t : Trajectory} {finished : Option Bool} :
    (maskOf cfg t finished).length = t.responseMask.length := by
  unfold maskOf
  split
  · simp
  · rfl

theorem computePositionIds_eq_ok {inputIds : List Token}
    (h : computePositionIds cfg inputIds inputs = .ok positions) :
    Value.HasLength (V := V) (.positions positions) inputIds.length := by
  unfold computePositionIds at h
  split at h
  · obtain ⟨vision, _, h⟩ := bind_eq_ok.mp h
    split at h
    · next hall =>
      cases h
      intro row hrow
      rcases List.mem_cons.mp hrow with rfl | hrow
      · exact List.length_range
      · exact beq_iff_eq.mp (List.all_eq_true.mp hall row hrow)
    · cases h
  · cases h
    simp [Value.HasLength, computePositionIdWithMask]

theorem Row.update_elim {α : Type} (o : Option α) (name : String) (f : α → Value V) (key : String) :
    row.update (o.elim [] (fun x => [(name, f x)])) key =
      if key = name then o.elim (row key) (fun x => some (f x)) else row key := by
  cases o <;> simp [Function.update_apply]

/-- The token fields by their keys. -/
theorem tokenFields_apply (key : String) : tokenFields cfg scored inputs positions key =
    if key = "rm_scores" then
      some (.float32 (rmScores cfg scored.trajectory.responseIds.length scored.rewardScore))
    else if key = "routed_experts" then
      (scored.trajectory.routedExperts.bind (fun experts => alignRoutedExperts experts
        (scored.trajectory.promptIds ++ scored.trajectory.responseIds).length)).map .experts
    else if key = "rollout_log_probs" then
      scored.trajectory.responseLogprobs.map (fun logprobs =>
        .float32 (logprobs.map cfg.toFloat32))
    else if key = "multi_modal_inputs" then some (.inputs inputs)
    else if key = "position_ids" then some (.positions positions)
    else if key = "attention_mask" then
      some (.long (List.replicate
        (scored.trajectory.promptIds ++ scored.trajectory.responseIds).length 1))
    else if key = "input_ids" then
      some (.long (scored.trajectory.promptIds ++ scored.trajectory.responseIds))
    else if key = "responses" then some (.long scored.trajectory.responseIds)
    else if key = "prompts" then some (.long scored.trajectory.promptIds)
    else none := by
  unfold tokenFields
  simp only [Row.update_cons, Row.update_nil, Function.update_apply]
  split
  · rfl
  · rw [Row.update_elim]
    split
    · next hkey =>
      subst hkey
      rw [Row.update_elim]
      cases scored.trajectory.routedExperts.bind _ <;> simp
    · rw [Row.update_elim]
      split
      · next hkey =>
        subst hkey
        cases scored.trajectory.responseLogprobs <;> simp
      · simp only [Function.update_apply]

/-! ## The row of a trajectory -/

theorem trajectoryToTqFieldAndTag_eq_ok {tag : Tag}
    (h : trajectoryToTqFieldAndTag cfg sample sessionIndex globalSteps uid scored =
      .ok (row, tag)) :
    ∃ finished inputs positions, finishedOf scored.trajectory = .ok finished ∧
      computePositionIds cfg (scored.trajectory.promptIds ++ scored.trajectory.responseIds) inputs =
        .ok positions ∧
      row = rowOf cfg sample sessionIndex globalSteps scored
        (maskOf cfg scored.trajectory finished) inputs positions ∧
      tag = tagOf globalSteps uid scored := by
  unfold trajectoryToTqFieldAndTag at h
  simp only [bind_eq_ok] at h
  obtain ⟨finished, hfinished, inputs, _, positions, hpositions, h⟩ := h
  cases h
  exact ⟨finished, inputs, positions, hfinished, hpositions, rfl, rfl⟩

theorem rowFits (hshape : TrajectoryShape scored.trajectory) {finished : Option Bool}
    (hpositions : computePositionIds cfg
      (scored.trajectory.promptIds ++ scored.trajectory.responseIds) inputs = .ok positions) :
    RowFits (rowOf cfg sample sessionIndex globalSteps scored
      (maskOf cfg scored.trajectory finished) inputs positions)
      (tagOf globalSteps uid scored) := by
  have hids : (tagOf globalSteps uid scored).seqLen =
      (scored.trajectory.promptIds ++ scored.trajectory.responseIds).length := by
    rw [List.length_append]
    rfl
  have hmask : (maskOf cfg scored.trajectory finished).length =
      (tagOf globalSteps uid scored).responseLen := length_maskOf.trans hshape.mask
  constructor
  · intro value hvalue
    rw [rowOf_of_tokens (by decide), tokenFields_apply] at hvalue
    cases hvalue
    rfl
  · intro key hkey value hvalue
    simp only [responseFields, List.mem_cons, List.not_mem_nil, or_false] at hkey
    rcases hkey with rfl | rfl | rfl | rfl | rfl
    · rw [rowOf_of_tokens (by decide), tokenFields_apply] at hvalue
      cases hvalue
      rfl
    · rw [rowOf_mask (Or.inl rfl)] at hvalue
      cases hvalue
      exact hmask
    · rw [rowOf_mask (Or.inr rfl)] at hvalue
      cases hvalue
      exact hmask
    · rw [rowOf_of_tokens (by decide), tokenFields_apply] at hvalue
      cases hvalue
      exact length_rmScores
    · rw [rowOf_of_tokens (by decide), tokenFields_apply] at hvalue
      obtain ⟨logprobs, hlogprobs, rfl⟩ := Option.map_eq_some_iff.mp hvalue
      exact (List.length_map _).trans (hshape.logprobs logprobs hlogprobs)
  · intro key hkey value hvalue
    rw [hids]
    simp only [sequenceFields, List.mem_cons, List.not_mem_nil, or_false] at hkey
    rcases hkey with rfl | rfl | rfl | rfl
    · rw [rowOf_of_tokens (by decide), tokenFields_apply] at hvalue
      cases hvalue
      rfl
    · rw [rowOf_of_tokens (by decide), tokenFields_apply] at hvalue
      cases hvalue
      exact List.length_replicate
    · rw [rowOf_of_tokens (by decide), tokenFields_apply] at hvalue
      cases hvalue
      exact computePositionIds_eq_ok hpositions
    · rw [rowOf_of_tokens (by decide), tokenFields_apply] at hvalue
      obtain ⟨aligned, haligned, rfl⟩ := Option.map_eq_some_iff.mp hvalue
      obtain ⟨source, _, haligned⟩ := Option.bind_eq_some_iff.mp haligned
      exact length_alignRoutedExperts haligned
  · intro key hkey
    simp only [requiredFields, List.mem_append] at hkey
    rcases hkey with (hkey | hkey) | hkey
    · have hlater : key ∉ laterKeys := by
        revert key
        decide
      rw [rowOf_of_tokens hlater]
      revert key
      simp [tokenFields_apply]
    · rw [rowOf_mask (by simpa using hkey)]
      rfl
    · revert key
      simp [rowOf, Function.update_apply]
  · rfl

/-! ## The columns of a session -/

/-- A column has the values of the rows. -/
theorem columnOf_eq_some {rows : List (Row V)} {key : String} {column : Column V}
    (h : columnOf rows key = some column) :
    List.Forall₂ (fun value row => row key = some value) column.values rows := by
  unfold columnOf at h
  split at h
  · next hall =>
    cases h
    simp only
    induction rows with
    | nil => exact .nil
    | cons row rest ih =>
      simp only [List.all_cons, Bool.and_eq_true] at hall
      obtain ⟨value, hvalue⟩ := Option.isSome_iff_exists.mp hall.1
      rw [List.filterMap_cons]
      simp only [hvalue]
      exact .cons hvalue (ih hall.2)
  · cases h

theorem columnOf_isSome {rows : List (Row V)} {key : String}
    (h : ∀ row ∈ rows, (row key).isSome) : (columnOf rows key).isSome := by
  unfold columnOf
  rw [if_pos (List.all_eq_true.mpr h)]
  rfl

theorem exists_of_forall₂ {α β : Type} {R : α → β → Prop} {xs : List α} {ys : List β}
    (h : List.Forall₂ R xs ys) {y : β} (hy : y ∈ ys) : ∃ x ∈ xs, R x y := by
  induction h with
  | nil => cases hy
  | cons hxy _ ih =>
    rcases List.mem_cons.mp hy with rfl | hy
    · exact ⟨_, by simp, hxy⟩
    · obtain ⟨x, hx, hr⟩ := ih hy
      exact ⟨x, by simp [hx], hr⟩

/-- What is put for a session: one row and one tag for each trajectory. -/
theorem sessionRows_eq_ok {trajectories : List Scored} {put : RowsPut V}
    (h : sessionRows cfg sample sessionIndex globalSteps uid partitionId trajectories = .ok put) :
    ∃ rows : List (Row V × Tag),
      List.Forall₂ (fun scored row => trajectoryToTqFieldAndTag cfg sample sessionIndex globalSteps
        uid scored = .ok row) trajectories rows ∧
      rows ≠ [] ∧ put.keys = (List.range trajectories.length).map (rowKey uid sessionIndex) ∧
      put.columns = columnOf (rows.map Prod.fst) ∧ put.tags = rows.map Prod.snd := by
  unfold sessionRows at h
  simp only [bind_eq_ok] at h
  obtain ⟨rows, hrows, columns, hcolumns, h⟩ := h
  unfold listOfTqFieldsToTensordict at hcolumns
  simp only [bind_eq_ok, pyAssert_eq_ok] at hcolumns
  obtain ⟨_, hne, hcolumns⟩ := hcolumns
  cases hcolumns
  cases h
  exact ⟨rows, validation.forall₂_of_mapM hrows, by simpa using hne, rfl, rfl, rfl⟩

/-- A column of a session whose values are told by the trajectories. -/
theorem forall₂_column {trajectories : List Scored} {rows : List (Row V × Tag)} {key : String}
    {column : Column V} {P : Value V → Scored → Prop}
    (hrows : List.Forall₂ (fun scored row => trajectoryToTqFieldAndTag cfg sample sessionIndex
      globalSteps uid scored = .ok row) trajectories rows)
    (hcolumn : columnOf (rows.map Prod.fst) key = some column)
    (htold : ∀ scored ∈ trajectories, ∀ row tag value, trajectoryToTqFieldAndTag cfg sample
      sessionIndex globalSteps uid scored = .ok (row, tag) → row key = some value →
        P value scored) :
    List.Forall₂ P column.values trajectories := by
  have hvalues := columnOf_eq_some hcolumn
  rw [List.forall₂_map_right_iff] at hvalues
  clear hcolumn
  generalize column.values = values at hvalues ⊢
  induction hrows generalizing values with
  | nil =>
    cases hvalues
    exact .nil
  | @cons scored row rest others hrow _ ih =>
    cases hvalues with
    | cons hvalue hvalues =>
      refine .cons (htold scored (by simp) row.1 row.2 _ hrow hvalue) (ih ?_ _ hvalues)
      exact fun other hmem => htold other (by simp [hmem])

theorem column_values {trajectories : List Scored} {rows : List (Row V × Tag)} {key : String}
    {column : Column V} {f : Scored → Value V}
    (hrows : List.Forall₂ (fun scored row => trajectoryToTqFieldAndTag cfg sample sessionIndex
      globalSteps uid scored = .ok row) trajectories rows)
    (hcolumn : columnOf (rows.map Prod.fst) key = some column)
    (htold : ∀ scored ∈ trajectories, ∀ row tag, trajectoryToTqFieldAndTag cfg sample
      sessionIndex globalSteps uid scored = .ok (row, tag) → row key = some (f scored)) :
    column.values = trajectories.map f := by
  rw [← List.forall₂_eq_eq_eq, List.forall₂_map_right_iff]
  apply forall₂_column hrows hcolumn
  intro scored hmem row tag value hok hvalue
  rw [htold scored hmem row tag hok] at hvalue
  exact (Option.some.inj hvalue).symm

/-! ## What a session puts -/

/-- Each column holds one value for each trajectory, as long as the tag of the trajectory says. -/
structure Aligned (put : RowsPut V) : Prop where
  keys : put.keys.Nodup
  rows : put.keys.length = put.tags.length
  columns : ∀ key column, put.columns key = some column → column.values.length = put.tags.length
  required : ∀ key ∈ requiredFields, (put.columns key).isSome
  prompts : ∀ column, put.columns "prompts" = some column →
    List.Forall₂ (fun value tag => value.HasLength tag.promptLen) column.values put.tags
  responses : ∀ key ∈ responseFields, ∀ column, put.columns key = some column →
    List.Forall₂ (fun value tag => value.HasLength tag.responseLen) column.values put.tags
  sequences : ∀ key ∈ sequenceFields, ∀ column, put.columns key = some column →
    List.Forall₂ (fun value tag => value.HasLength tag.seqLen) column.values put.tags
  seqLen : ∀ tag ∈ put.tags, tag.seqLen = tag.promptLen + tag.responseLen

theorem tags_of_rows {trajectories : List Scored} {rows : List (Row V × Tag)}
    (hrows : List.Forall₂ (fun scored row => trajectoryToTqFieldAndTag cfg sample sessionIndex
      globalSteps uid scored = .ok row) trajectories rows) :
    rows.map Prod.snd = trajectories.map (tagOf globalSteps uid) := by
  induction hrows with
  | nil => rfl
  | cons hrow _ ih =>
    obtain ⟨_, _, _, _, _, _, htag⟩ := trajectoryToTqFieldAndTag_eq_ok hrow
    rw [List.map_cons, List.map_cons, ih, htag]

theorem sessionRows_aligned {trajectories : List Scored} {put : RowsPut V}
    (hshape : ∀ scored ∈ trajectories, TrajectoryShape scored.trajectory)
    (h : sessionRows cfg sample sessionIndex globalSteps uid partitionId trajectories = .ok put) :
    Aligned put := by
  obtain ⟨rows, hrows, _, hkeys, hcolumns, htags⟩ := sessionRows_eq_ok h
  rw [tags_of_rows hrows] at htags
  have hfits : ∀ scored ∈ trajectories, ∀ row tag, trajectoryToTqFieldAndTag cfg sample
      sessionIndex globalSteps uid scored = .ok (row, tag) →
      RowFits row (tagOf globalSteps uid scored) := by
    intro scored hmem row tag hrow
    obtain ⟨_, _, _, _, hpositions, rfl, _⟩ := trajectoryToTqFieldAndTag_eq_ok hrow
    exact rowFits (hshape scored hmem) hpositions
  -- A column fits the tags when each row fits its own tag.
  have hcolumn : ∀ key (size : Tag → Nat), (∀ scored ∈ trajectories, ∀ row tag value,
      trajectoryToTqFieldAndTag cfg sample sessionIndex globalSteps uid scored = .ok (row, tag) →
      row key = some value → value.HasLength (size (tagOf globalSteps uid scored))) →
      ∀ column, put.columns key = some column →
        List.Forall₂ (fun value tag => value.HasLength (size tag)) column.values put.tags := by
    intro key size htold column hcolumn
    rw [hcolumns] at hcolumn
    rw [htags, List.forall₂_map_right_iff]
    exact forall₂_column hrows hcolumn htold
  constructor
  · rw [hkeys]
    exact List.nodup_range.map (fun _ _ heq => (rowKey_injective heq).2.2)
  · simp [hkeys, htags]
  · intro key column hcolumn
    rw [hcolumns] at hcolumn
    rw [(columnOf_eq_some hcolumn).length_eq, htags, List.length_map, List.length_map]
    exact hrows.length_eq.symm
  · intro key hkey
    rw [hcolumns]
    apply columnOf_isSome
    intro row hrow
    obtain ⟨entry, hentry, rfl⟩ := List.mem_map.mp hrow
    obtain ⟨scored, hmem, hok⟩ := exists_of_forall₂ hrows hentry
    exact (hfits scored hmem entry.1 entry.2 hok).required key hkey
  · exact hcolumn "prompts" Tag.promptLen (fun scored hmem row tag value hrow hvalue =>
      (hfits scored hmem row tag hrow).prompts value hvalue)
  · intro key hkey
    exact hcolumn key Tag.responseLen (fun scored hmem row tag value hrow hvalue =>
      (hfits scored hmem row tag hrow).responses key hkey value hvalue)
  · intro key hkey
    exact hcolumn key Tag.seqLen (fun scored hmem row tag value hrow hvalue =>
      (hfits scored hmem row tag hrow).sequences key hkey value hvalue)
  · rw [htags]
    intro tag htag
    obtain ⟨scored, _, rfl⟩ := List.mem_map.mp htag
    rfl

end Lookups

end uni_agent.framework

namespace uni_agent.session

variable {C : MessageCodec} {s : GatewaySession} {sys : System}

/-! ## Masks -/

/-- The entries of a mask are zeros and ones. -/
def binaryRule : ChainRule where
  chain := fun chain _ => ∀ x ∈ chain.buffer.responseMask, x ≤ 1
  ready := fun f _ => ∀ x ∈ f.encoded.buffer.responseMask, x ≤ 1
  full := fun f _ => ∀ x ∈ f.encoded.buffer.responseMask, x ≤ 1
  closed := fun trajectory _ => ∀ x ∈ trajectory.responseMask, x ≤ 1

theorem Reused.binary {chain : ChainState} {rollback : Bool} {w : WorkingInputs}
    (h : Reused C chain rollback w) (hchain : ∀ x ∈ chain.buffer.responseMask, x ≤ 1) :
    ∀ x ∈ w.buffer.responseMask, x ≤ 1 := by
  cases h with
  | whole _ => exact hchain
  | rolledBack buffer images videos hbuffer _ _ _ _ _ =>
    cases hbuffer with
    | intoPrompt promptIds hstart hprompt => simp
    | intoResponse responseIds hstart hresponse =>
      exact fun x hx => hchain x (List.mem_of_mem_take hx)

theorem binaryRule_kept : binaryRule.Kept C (fun _ _ => True) := by
  constructor
  · intro sys request encoded _ _ hprep hselect _
    obtain ⟨promptIds, _, _, hbuffer, _⟩ := prepare_fresh hprep hselect
    change ∀ x ∈ encoded.buffer.responseMask, x ≤ 1
    rw [hbuffer]
    simp
  · intro sys request encoded chain gens _ hreuse hroom hchain
    obtain ⟨w, ids, images, videos, hextends, _⟩ := hreuse.extends hroom
    change ∀ x ∈ encoded.buffer.responseMask, x ≤ 1
    rw [hextends.buffer]
    intro x hx
    rcases List.mem_append.mp hx with hx | hx
    · exact hextends.reused.binary hchain x hx
    · simp [List.eq_of_mem_replicate hx]
  · intro sys f output encoded gens _ _ hready habsorb
    obtain ⟨logProbs, rfl, _⟩ := absorbOutput_eq_ok habsorb
    intro x hx
    rcases List.mem_append.mp hx with hx | hx
    · exact hready x hx
    · simp [List.eq_of_mem_replicate hx]
  · intro sys f output callIds assistantMsg start chainId orderSeq gens _ _ _ hfull
    exact hfull
  · intro sys request encoded chain gens trajectory _ hreuse hfull _ hbuild hchain
    obtain ⟨w, hreused, hbuffer, _⟩ := hreuse.exhausted hfull
    obtain ⟨_, span, _, rfl⟩ := build_eq_ok hbuild
    change ∀ x ∈ (GatewaySession.chainToMaterialize chain encoded).buffer.responseMask, x ≤ 1
    rw [closing_buffer hreused hbuffer]
    exact hreused.binary hchain
  · intro chain gens trajectory hchain hbuild
    obtain ⟨_, span, _, rfl⟩ := build_eq_ok hbuild
    exact hchain

theorem sum_of_binary {xs : List Nat} (h : ∀ x ∈ xs, x ≤ 1) : xs.sum = xs.count 1 := by
  induction xs with
  | nil => rfl
  | cons x rest ih =>
    have hx := h x (by simp)
    rw [List.sum_cons, List.count_cons, ih (fun y hy => h y (by simp [hy]))]
    rcases Nat.le_one_iff_eq_zero_or_eq_one.mp hx with rfl | rfl <;> simp [Nat.add_comm]

/-- A trajectory of a finalized session, with the reward of the session. -/
theorem finalized_trajectory {sessionId : String} {promptLength responseLength : Option Int}
    {enable : Bool} {actions : List Action}
    (hnew : GatewaySession.create sessionId promptLength responseLength enable = .ok s)
    (hrun : runFrom C s actions = some sys) {trajectories : List Trajectory} {s' : GatewaySession}
    (hfinalize : sys.session.finalize = (.ok trajectories, s')) :
    ∀ t ∈ trajectories, framework.TrajectoryShape t ∧ (∀ x ∈ t.responseMask, x ≤ 1) ∧
      t.rewardInfo = sys.session.rewardInfo := by
  intro t ht
  have hkept := binaryRule_kept (C := C)
  have hbinary := hkept.run hnew hrun (runs.meets_of_forall (fun _ _ => trivial))
  obtain ⟨built, _, rfl, _, hmask, hlogprobs⟩ :=
    shapeRule_kept.finalized (shape_run hnew hrun) hfinalize t ht
  obtain ⟨other, _, heq, _, hones⟩ := hkept.finalized hbinary hfinalize _ ht
  refine ⟨⟨hmask, hlogprobs⟩, ?_, rfl⟩
  rw [heq]
  exact hones

/-- A returned trajectory trains on the tokens of its generations. -/
theorem Returned.count_mask {P : Generation → Prop} (hbooks : Bookkeeping C P sys)
    (hbalanced : Balanced P sys) {t : Trajectory} {id : Nat} (h : Returned sys t id) :
    t.responseMask.count 1 = generatedTokens (sys.ledger.surviving id) := by
  cases h with
  | active chain trajectory hmem hbuild =>
    obtain ⟨_, span, _, rfl⟩ := build_eq_ok hbuild
    exact (hbooks.truth.chains chain hmem).count_mask
  | closed m id hmem =>
    obtain ⟨l, htold⟩ := ((List.forall₂_iff_zip.mp hbalanced.materialized).2 hmem).told
    rw [htold.responseMask]
    exact htold.grounded.count_mask

theorem sum_returned {P : Generation → Prop} (hbooks : Bookkeeping C P sys)
    (hbalanced : Balanced P sys) {trajectories : List Trajectory} {ids : List Nat}
    (h : List.Forall₂ (Returned sys) trajectories ids) :
    (trajectories.map (fun t => t.responseMask.count 1)).sum =
      (ids.map (fun id => generatedTokens (sys.ledger.surviving id))).sum := by
  induction h with
  | nil => rfl
  | cons hreturned _ ih =>
    rw [List.map_cons, List.map_cons, List.sum_cons, List.sum_cons, ih,
      hreturned.count_mask hbooks hbalanced]

/-- The trajectories train on all tokens that were generated and not dropped. -/
theorem Balanced.returned_tokens {P : Generation → Prop} (h : Balanced P sys)
    (hbooks : Bookkeeping C P sys) {trajectories : List Trajectory} {s' : GatewaySession}
    (hfinalize : sys.session.finalize = (.ok trajectories, s')) :
    (trajectories.map (fun t => t.responseMask.count 1)).sum +
      sys.session.rollbackDroppedTrainableTokensTotal = generatedTokens sys.ledger.commits := by
  obtain ⟨ids, hids⟩ := h.returnsChains hfinalize
  have haccounts := generatedTokens_perm h.accounts
  rw [generatedTokens_append, generatedTokens_flatMap, ← h.booked.tokens] at haccounts
  rw [haccounts, sum_returned hbooks h hids.returned]
  exact congrArg (· + _) (hids.chains.map _).sum_eq

end uni_agent.session

namespace uni_agent.framework

open session (GatewaySession Generation System Trajectory)

variable {V : Type} {cfg : RowSettings V} {C : MessageCodec} {s : GatewaySession} {sys : System}

/-! ## From the session to its rows -/

theorem mem_selectSessionTrajectories {trajectories : List Trajectory} {selection : String}
    {t : Trajectory} (h : t ∈ selectSessionTrajectories trajectories selection) :
    t ∈ trajectories := by
  unfold selectSessionTrajectories at h
  split at h
  · exact h
  · split at h
    · next index trajectory hmax =>
      cases List.mem_singleton.mp h
      obtain ⟨item, hitem, heq⟩ := List.mem_map.mp (List.argmax_mem hmax)
      cases heq
      exact List.fst_mem_of_mem_zipIdx hitem
    · exact h

/-- A single trajectory is kept that trains on the most tokens. -/
theorem selectSessionTrajectories_most {trajectories : List Trajectory} {selection : String}
    (hall : selection ≠ "all") (hne : trajectories ≠ []) :
    ∃ kept, selectSessionTrajectories trajectories selection = [kept] ∧
      ∀ t ∈ trajectories, t.responseMask.sum ≤ kept.responseMask.sum := by
  have hpos : 0 < trajectories.length := List.length_pos_iff.mpr hne
  unfold selectSessionTrajectories
  split
  · next hone =>
    have hlen := hone.resolve_left hall
    obtain ⟨kept, rfl⟩ := List.length_eq_one_iff.mp (Nat.le_antisymm hlen hpos)
    exact ⟨kept, rfl, by simp⟩
  · cases hmax : (trajectories.zipIdx.map Prod.swap).argmax selectionKey with
    | none =>
      rw [List.argmax_eq_none, List.map_eq_nil_iff, List.zipIdx_eq_nil_iff] at hmax
      exact absurd hmax hne
    | some item =>
      refine ⟨item.2, rfl, ?_⟩
      intro t ht
      obtain ⟨i, hi, rfl⟩ := List.getElem_of_mem ht
      have hmem : (i, trajectories[i]) ∈ trajectories.zipIdx.map Prod.swap := by
        apply List.mem_map.mpr
        exact ⟨(trajectories[i], i), by simp [List.mem_zipIdx_iff_getElem?, hi], rfl⟩
      exact Prod.Lex.monotone_fst _ _ (List.le_of_mem_argmax hmem hmax)

/-- The runner has not posted a reward, or null. -/
def Unrewarded (reward : Dict) : Prop :=
  reward.get? "reward" = none ∨ reward.get? "reward" = some .null

/-- The score of a session: the reward that was posted, or what the worker says about the last
trajectory. -/
inductive ScoreOf (scoring : Scoring) (reward : Dict) (last : Trajectory) : Option PyFloat → Prop
  | posted (value : Json) (score : PyFloat) (hvalue : reward.get? "reward" = some value)
      (hnull : value ≠ .null) (hscore : scoring.float value = .ok score) :
      ScoreOf scoring reward last (some score)
  | worker (computeScore : Trajectory → Except PyError Json) (result : Dict) (value : Json)
      (score : PyFloat) (hreward : Unrewarded reward)
      (hworker : scoring.computeScore = some computeScore)
      (hresult : computeScore last = .ok (.obj result))
      (hvalue : Dict.get? result "reward_score" = some value)
      (hscore : scoring.float value = .ok score) : ScoreOf scoring reward last (some score)
  | unscored (hreward : Unrewarded reward) (hworker : scoring.computeScore = none) :
      ScoreOf scoring reward last none

theorem scoreFromRewardInfo_eq_ok {scoring : Scoring} {last : Trajectory}
    {scores : Option (PyFloat × Json)} (h : scoreFromRewardInfo scoring last = .ok scores) :
    (Unrewarded last.rewardInfo ∧ scores = none) ∨
      ∃ found, scores = some found ∧
        ScoreOf scoring last.rewardInfo last (some found.1) := by
  unfold scoreFromRewardInfo at h
  split at h
  · next hget =>
    cases h
    exact Or.inl ⟨Or.inl hget, rfl⟩
  · next hget =>
    cases h
    exact Or.inl ⟨Or.inr hget, rfl⟩
  · next reward hnull hget =>
    obtain ⟨score, hscore, h⟩ := bind_eq_ok.mp h
    cases h
    refine Or.inr ⟨_, rfl, .posted reward score hget ?_ hscore⟩
    rintro rfl
    exact hnull rfl

theorem scoreTrajectories_eq_ok {scoring : Scoring} {last : Trajectory}
    {computeScore : Trajectory → Except PyError Json} {scores : PyFloat × Json}
    (h : scoreTrajectories scoring computeScore last = .ok scores) :
    ∃ result value, computeScore last = .ok (.obj result) ∧
      Dict.get? result "reward_score" = some value ∧ scoring.float value = .ok scores.1 := by
  unfold scoreTrajectories at h
  obtain ⟨result, hresult, h⟩ := bind_eq_ok.mp h
  split at h
  · next result =>
    split at h
    · cases h
    · next value hvalue =>
      obtain ⟨score, hscore, h⟩ := bind_eq_ok.mp h
      refine ⟨result, value, hresult, hvalue, ?_⟩
      dsimp only at h
      split at h
      · obtain ⟨extra, _, h⟩ := bind_eq_ok.mp h
        cases h
        exact hscore
      · cases h
        exact hscore
  · cases h

theorem annotationOf_eq_ok {scoring : Scoring} {last : Trajectory}
    {scores : Option (PyFloat × Json)} (h : annotationOf scoring last = .ok scores) :
    ScoreOf scoring last.rewardInfo last (scores.map Prod.fst) := by
  unfold annotationOf at h
  obtain ⟨posted, hposted, h⟩ := bind_eq_ok.mp h
  rcases scoreFromRewardInfo_eq_ok hposted with ⟨hunrewarded, rfl⟩ | ⟨found, rfl, hscore⟩
  · simp only at h
    split at h
    · next computeScore hworker =>
      obtain ⟨found, hfound, h⟩ := bind_eq_ok.mp h
      cases h
      obtain ⟨result, value, hresult, hvalue, hfloat⟩ := scoreTrajectories_eq_ok hfound
      exact .worker computeScore result value found.1 hunrewarded hworker hresult hvalue hfloat
    · next hworker =>
      cases h
      exact .unscored hunrewarded hworker
  · cases h
    exact hscore

/-- One score is given to all trajectories. -/
theorem scoreSession_eq_ok {scoring : Scoring} {trajectories : List Trajectory}
    {scored : List Scored} (h : scoreSession scoring trajectories = .ok scored) :
    ∃ score info, scored = trajectories.map (scoredWith score info) ∧
      ∀ last, trajectories.getLast? = some last → ScoreOf scoring last.rewardInfo last score := by
  unfold scoreSession at h
  cases hlast : trajectories.getLast? with
  | none =>
    rw [hlast] at h
    cases h
    rw [List.getLast?_eq_none_iff.mp hlast]
    exact ⟨none, none, rfl, by simp⟩
  | some last =>
    rw [hlast] at h
    obtain ⟨scores, hscores, h⟩ := bind_eq_ok.mp h
    cases h
    refine ⟨_, _, rfl, ?_⟩
    rintro _ ⟨⟩
    exact annotationOf_eq_ok hscores

section Pipeline

variable {sessionId : String} {promptLength responseLength : Option Int} {enable : Bool}
  {actions : List session.Action} {trajectories : List Trajectory} {s' : GatewaySession}
  {scoring : Scoring} {selection : String} {scored : List Scored} {sample : String → Option Json}
  {sessionIndex : Nat} {globalSteps : Json} {uid partitionId : String} {put : RowsPut V}

/-- An episode that is not finished is masked. -/
def masksEpisode (cfg : RowSettings V) (reward : Dict) : Bool :=
  cfg.maskUnfinishedEpisode &&
    match reward.get? "finished" with
    | some (.bool finished) => !finished
    | _ => false

/-- The mask of a trajectory in the session of an episode that is masked, or not. -/
def lossMask (masked : Bool) (t : Trajectory) : List Nat :=
  if masked then List.replicate t.responseMask.length 0 else t.responseMask

theorem maskOf_eq {t : Trajectory} {finished : Option Bool} (h : finishedOf t = .ok finished) :
    maskOf cfg t finished = lossMask (masksEpisode cfg t.rewardInfo) t := by
  unfold maskOf lossMask masksEpisode
  unfold finishedOf at h
  split at h
  · next hget =>
    cases h
    simp [hget]
  · next hget =>
    cases h
    simp [hget]
  · next finished hget =>
    cases h
    cases finished <;> simp [hget]
  · cases h

/-- The values of the loss mask, and those of the scores. -/
theorem told_columns {trajectories : List Trajectory} {score : Option PyFloat} {info : Option Json}
    (h : sessionRows cfg sample sessionIndex globalSteps uid partitionId
      (trajectories.map (scoredWith score info)) = .ok put) :
    put.columns "loss_mask" = put.columns "response_mask" ∧
    (∀ masks, put.columns "loss_mask" = some masks → masks.values = trajectories.map (fun t =>
      .long (lossMask (masksEpisode cfg t.rewardInfo) t))) ∧
    ∀ scores, put.columns "rm_scores" = some scores → scores.values = trajectories.map (fun t =>
      .float32 (rmScores cfg t.responseIds.length score)) := by
  obtain ⟨rows, hrows, _, _, hcolumns, _⟩ := sessionRows_eq_ok h
  rw [hcolumns]
  refine ⟨?_, ?_, ?_⟩
  · have hsame : ∀ row ∈ rows.map Prod.fst, row "loss_mask" = row "response_mask" := by
      intro row hrow
      obtain ⟨entry, hentry, rfl⟩ := List.mem_map.mp hrow
      obtain ⟨scored, _, hok⟩ := exists_of_forall₂ hrows hentry
      obtain ⟨_, _, _, _, _, heq, _⟩ := trajectoryToTqFieldAndTag_eq_ok hok
      rw [heq, rowOf_mask (Or.inl rfl), rowOf_mask (Or.inr rfl)]
    unfold columnOf
    have hall : (rows.map Prod.fst).all (fun row => (row "loss_mask").isSome) =
        (rows.map Prod.fst).all (fun row => (row "response_mask").isSome) := by
      rw [Bool.eq_iff_iff, List.all_eq_true, List.all_eq_true]
      exact forall₂_congr (fun row hrow => by rw [hsame row hrow])
    rw [hall, List.filterMap_congr hsame]
    rfl
  · intro masks hmasks
    rw [column_values hrows hmasks (f := fun scored => .long
      (lossMask (masksEpisode cfg scored.trajectory.rewardInfo) scored.trajectory)), List.map_map]
    · rfl
    · intro scored _ row tag hok
      obtain ⟨finished, _, _, hfinished, _, rfl, _⟩ := trajectoryToTqFieldAndTag_eq_ok hok
      rw [rowOf_mask (Or.inr rfl), maskOf_eq hfinished]
  · intro scores hscores
    rw [column_values hrows hscores (f := fun scored => .float32
      (rmScores cfg scored.trajectory.responseIds.length scored.rewardScore)), List.map_map]
    · rfl
    · intro scored _ row tag hok
      obtain ⟨finished, _, _, hfinished, _, rfl, _⟩ := trajectoryToTqFieldAndTag_eq_ok hok
      rw [rowOf_of_tokens (by decide), tokenFields_apply]
      rfl

/-- A tag has the lengths of its trajectory. -/
structure TagOf (tag : Tag) (t : Trajectory) : Prop where
  promptLen : tag.promptLen = t.promptIds.length
  responseLen : tag.responseLen = t.responseIds.length

/-- A score for each token of the response: the last one has the score that is there, and the
others have zero. -/
def Value.ScoresLastToken (score : Option PyFloat) (value : Value V) (tag : Tag) : Prop :=
  ∃ xs, value = .float32 xs ∧ xs.length = tag.responseLen ∧
    ∀ i x, xs[i]? = some x → x = if i + 1 = tag.responseLen then score.getD 0 else 0

/-- The tokens that a mask trains on. -/
def Value.total : Value V → Nat
  | .long xs => xs.sum
  | _ => 0

theorem exists_column (h : Aligned put) {key : String} (hkey : key ∈ requiredFields) :
    ∃ column, put.columns key = some column :=
  Option.isSome_iff_exists.mp (h.required key hkey)

/-- There is a trajectory for a put. -/
theorem select_ne_nil
    (hscore : scoreSession scoring (selectSessionTrajectories trajectories selection) = .ok scored)
    (hput : sessionRows cfg sample sessionIndex globalSteps uid partitionId scored = .ok put) :
    selectSessionTrajectories trajectories selection ≠ [] := by
  obtain ⟨score, info, rfl, _⟩ := scoreSession_eq_ok hscore
  obtain ⟨rows, hrows, hne, _⟩ := sessionRows_eq_ok hput
  intro hnil
  rw [hnil] at hrows
  cases hrows
  exact hne rfl

section Session

variable (hnew : GatewaySession.create sessionId promptLength responseLength enable = .ok s)
  (hrun : session.runFrom C s actions = some sys)
  (hfinalize : sys.session.finalize = (.ok trajectories, s'))
  (hscore : scoreSession scoring (selectSessionTrajectories trajectories selection) = .ok scored)
  (hput : sessionRows cfg sample sessionIndex globalSteps uid partitionId scored = .ok put)

include hnew hrun hfinalize hscore hput

theorem session_aligned : Aligned put := by
  obtain ⟨score, info, rfl, _⟩ := scoreSession_eq_ok hscore
  apply sessionRows_aligned ?_ hput
  intro scored hmem
  obtain ⟨t, ht, rfl⟩ := List.mem_map.mp hmem
  exact (session.finalized_trajectory hnew hrun hfinalize t (mem_selectSessionTrajectories ht)).1

theorem session_masks : ∃ masks, put.columns "loss_mask" = some masks ∧
    masks.values = (selectSessionTrajectories trajectories selection).map (fun t =>
      .long (lossMask (masksEpisode cfg sys.session.rewardInfo) t)) := by
  have haligned := session_aligned hnew hrun hfinalize hscore hput
  obtain ⟨masks, hcolumn⟩ := exists_column haligned (by decide : "loss_mask" ∈ requiredFields)
  obtain ⟨score, info, rfl, _⟩ := scoreSession_eq_ok hscore
  refine ⟨masks, hcolumn, ?_⟩
  rw [(told_columns hput).2.1 masks hcolumn]
  apply List.map_congr_left
  intro t ht
  rw [(session.finalized_trajectory hnew hrun hfinalize t (mem_selectSessionTrajectories ht)).2.2]

/-- Whatever a session was through, its trajectories are put as aligned columns: every column has
one value for each trajectory with an entry for each of its tokens, the loss is masked with zeros
and ones as the trajectories say, or not at all in an episode that is masked, and all trajectories
have the score of the session, in the place of their last token. -/
theorem rows_are_aligned :
    Aligned put ∧
    List.Forall₂ TagOf put.tags (selectSessionTrajectories trajectories selection) ∧
    put.columns "loss_mask" = put.columns "response_mask" ∧
    (∃ masks, put.columns "loss_mask" = some masks ∧
      List.Forall₂ (fun value t => ∃ mask, value = .long mask ∧ (∀ x ∈ mask, x ≤ 1) ∧
        mask = lossMask (masksEpisode cfg sys.session.rewardInfo) t)
        masks.values (selectSessionTrajectories trajectories selection)) ∧
    ∃ last score scores,
      (selectSessionTrajectories trajectories selection).getLast? = some last ∧
      ScoreOf scoring sys.session.rewardInfo last score ∧
      put.columns "rm_scores" = some scores ∧
      List.Forall₂ (fun value tag => value.ScoresLastToken (score.map cfg.toFloat32) tag)
        scores.values put.tags := by
  have haligned := session_aligned hnew hrun hfinalize hscore hput
  obtain ⟨masks, hcolumn, hmasks⟩ := session_masks hnew hrun hfinalize hscore hput
  obtain ⟨scores, hscores⟩ := exists_column haligned (by decide : "rm_scores" ∈ requiredFields)
  have hreturned : ∀ t ∈ selectSessionTrajectories trajectories selection, _ := fun t ht =>
    session.finalized_trajectory hnew hrun hfinalize t (mem_selectSessionTrajectories ht)
  have hlast := List.getLast?_eq_some_getLast
    (select_ne_nil hscore hput)
  obtain ⟨score, info, rfl, hscored⟩ := scoreSession_eq_ok hscore
  obtain ⟨rows, hrows, _, _, _, htags⟩ := sessionRows_eq_ok hput
  rw [tags_of_rows hrows, List.map_map] at htags
  refine ⟨haligned, ?_, (told_columns hput).1, ⟨masks, hcolumn, ?_⟩, _, score, scores, hlast, ?_,
    hscores, ?_⟩
  · rw [htags, List.forall₂_map_left_iff, List.forall₂_same]
    exact fun t _ => ⟨rfl, rfl⟩
  · rw [hmasks, List.forall₂_map_left_iff, List.forall₂_same]
    intro t ht
    refine ⟨_, rfl, ?_, rfl⟩
    unfold lossMask
    split
    · intro x hx
      simp [List.eq_of_mem_replicate hx]
    · exact (hreturned t ht).2.1
  · rw [← (hreturned _ (List.getLast_mem _)).2.2]
    exact hscored _ hlast
  · rw [(told_columns hput).2.2 scores hscores, htags, List.forall₂_map_left_iff,
      List.forall₂_map_right_iff, List.forall₂_same]
    intro t _
    refine ⟨_, rfl, length_rmScores, ?_⟩
    intro i x hx
    rw [getElem?_rmScores hx]
    cases score <;> rfl

/-- Where the calls report their versions and no output ends like the assistant prefix, the loss
masks of all trajectories together have a one for each generated token that was not dropped, and a
single trajectory that is selected has a mask with the most ones. An episode that is masked has
none. -/
theorem generated_tokens_reach_the_loss (hne : C.assistantPrefix ≠ [])
    (hlong : session.LongIncrements C)
    (houtputs : ∀ g ∈ session.callsOf C s actions, session.EndsNoOutput C g)
    (hversions : ∀ g ∈ session.callsOf C s actions, session.VersionsReported g) :
    ∃ masks, put.columns "loss_mask" = some masks ∧
      if masksEpisode cfg sys.session.rewardInfo then (masks.values.map Value.total).sum = 0
      else if selection = "all" then (masks.values.map Value.total).sum +
        sys.session.rollbackDroppedTrainableTokensTotal =
          session.generatedTokens sys.ledger.commits
      else masks.values.length = 1 ∧ ∀ t ∈ trajectories,
        t.responseMask.sum ≤ (masks.values.map Value.total).sum := by
  obtain ⟨masks, hcolumn, hmasks⟩ := session_masks hnew hrun hfinalize hscore hput
  have hbinary := fun t ht => (session.finalized_trajectory hnew hrun hfinalize t ht).2.1
  refine ⟨masks, hcolumn, ?_⟩
  rw [hmasks, List.map_map]
  cases hmasked : masksEpisode cfg sys.session.rewardInfo with
  | true =>
    rw [if_pos rfl]
    apply List.sum_eq_zero
    intro n hn
    obtain ⟨t, _, rfl⟩ := List.mem_map.mp hn
    simp [Value.total, lossMask]
  | false =>
    rw [if_neg (by decide)]
    by_cases hall : selection = "all"
    · rw [if_pos hall]
      have hselect : selectSessionTrajectories trajectories selection = trajectories :=
        if_pos (Or.inl hall)
      have hphase : sys.session.phase ≠ .aborted := by
        obtain ⟨hactive, _⟩ := GatewaySession.finalize_eq_ok hfinalize
        simp [hactive]
      obtain ⟨hbooks, hbalanced⟩ := session.balanced_of_calls hne hlong hnew hrun houtputs hversions
      rw [← (hbalanced hphase).returned_tokens hbooks hfinalize, hselect]
      congr 2
      apply List.map_congr_left
      intro t ht
      exact session.sum_of_binary (hbinary t ht)
    · rw [if_neg hall]
      have hsome : trajectories ≠ [] := by
        rintro rfl
        apply select_ne_nil hscore hput
        exact if_pos (by simp)
      obtain ⟨kept, hkept, hmost⟩ := selectSessionTrajectories_most hall hsome
      rw [hkept]
      exact ⟨rfl, by simpa [Value.total, lossMask] using hmost⟩

end Session

end Pipeline

/-! ## The rows of a batch -/

section Batch

variable {Field : Type} {o : Outside Field} {sampleIndex : Nat}

/-- The keys that a put writes. -/
def Put.keys : Put → List String
  | .batch keys _ => keys
  | .status key _ _ => [key]

/-- The rows of some puts: rows of these sessions, and none twice. -/
structure RowsOf (uid : String) (sessions : List Nat) (puts : List Put) : Prop where
  batches : ∀ put ∈ puts, put.isBatch = true
  keys : ∀ key ∈ puts.flatMap Put.rows, ∃ i ∈ sessions, ∃ j, key = rowKey uid i j
  nodup : (puts.flatMap Put.rows).Nodup

theorem rowsOf_nil (uid : String) (sessions : List Nat) : RowsOf uid sessions [] :=
  ⟨by simp, by simp, by simp⟩

/-- These puts write nothing but rows. -/
theorem RowsOf.written {uid : String} {sessions : List Nat} {puts : List Put}
    (h : RowsOf uid sessions puts) : puts.flatMap Put.keys = puts.flatMap Put.rows := by
  apply List.flatMap_congr
  intro put hput
  have hbatch := h.batches put hput
  cases put with
  | batch keys partitionId => rfl
  | status key partitionId status => cases hbatch

theorem writeSessionTrajectoriesToTq_rows {uid partitionId : String} {sessionIndex : Nat}
    {trajectories : List Trajectory} {put : Put}
    (h : writeSessionTrajectoriesToTq o uid partitionId sampleIndex sessionIndex trajectories =
      .ok put) : put.isBatch = true ∧
      put.rows = (List.range trajectories.length).map (rowKey uid sessionIndex) := by
  unfold writeSessionTrajectoriesToTq at h
  obtain ⟨fields, _, h⟩ := bind_eq_ok.mp h
  split at h
  · cases h
  · cases h
    exact ⟨rfl, rfl⟩

theorem trajectoryToTqField_eq {sample : String → Option Json} {sessionIndex : Nat}
    {globalSteps : Json} {uid : String} {score : Option PyFloat} {info : Option Json}
    {o : Outside (Row V × Tag)} (htensors : ∀ t, o.tensors t =
      trajectoryToTqFieldAndTag cfg sample sessionIndex globalSteps uid (scoredWith score info t))
    (t : Trajectory) : trajectoryToTqField o t =
      trajectoryToTqFieldAndTag cfg sample sessionIndex globalSteps uid
        (scoredWith score info t) := by
  unfold trajectoryToTqField
  split
  · exact htensors t
  · exact htensors t
  · exact htensors t
  · next value hnull hbool hget =>
    unfold trajectoryToTqFieldAndTag finishedOf scoredWith
    cases value with
    | null => exact (hnull rfl).elim
    | bool finished => exact (hbool finished rfl).elim
    | _ => simp [hget, bind, Except.bind]

/-- A session whose fields are these rows is put under the keys of the rows. -/
theorem writeSessionTrajectoriesToTq_eq {sample : String → Option Json} {sessionIndex : Nat}
    {globalSteps : Json} {uid partitionId : String} {score : Option PyFloat} {info : Option Json}
    {o : Outside (Row V × Tag)} (htensors : ∀ t, o.tensors t =
      trajectoryToTqFieldAndTag cfg sample sessionIndex globalSteps uid (scoredWith score info t))
    (hput : ∀ fields, o.batchPut sampleIndex sessionIndex fields = none)
    {trajectories : List Trajectory} (hne : trajectories ≠ []) :
    writeSessionTrajectoriesToTq o uid partitionId sampleIndex sessionIndex trajectories =
      (sessionRows cfg sample sessionIndex globalSteps uid partitionId
        (trajectories.map (scoredWith score info))).map (fun put =>
          .batch put.keys put.partitionId) := by
  have hfields : trajectories.mapM (trajectoryToTqField o) =
      (trajectories.map (scoredWith score info)).mapM
        (trajectoryToTqFieldAndTag cfg sample sessionIndex globalSteps uid) := by
    rw [List.mapM_map]
    exact congrArg (fun f => trajectories.mapM f) (funext (trajectoryToTqField_eq htensors))
  unfold writeSessionTrajectoriesToTq sessionRows
  rw [hfields]
  cases hrows : (trajectories.map (scoredWith score info)).mapM
      (trajectoryToTqFieldAndTag cfg sample sessionIndex globalSteps uid) with
  | error e => rfl
  | ok rows =>
    have hlength := (validation.forall₂_of_mapM hrows).length_eq
    have hrows_ne : rows.isEmpty = false := by
      cases rows with
      | nil => simp [hne] at hlength
      | cons row rest => rfl
    simp [bind, Except.bind, Except.map, hput, listOfTqFieldsToTensordict, pyAssert, hrows_ne]
    rfl

section

variable (o) (sampleIndex)

/-- One session adds rows of its own, or none. -/
theorem takeSession_puts (uid partitionId : String) (l : PromptLocals) (sessionIndex : Nat) :
    ∃ puts, (takeSession o uid partitionId sampleIndex l sessionIndex).1.puts = l.puts ++ puts ∧
      RowsOf uid [sessionIndex] puts := by
  have hnone : ∃ puts, l.puts = l.puts ++ puts ∧ RowsOf uid [sessionIndex] puts :=
    ⟨[], by simp, rowsOf_nil uid _⟩
  unfold takeSession
  split
  · split <;> exact hnone
  · exact hnone
  · split
    · split <;> exact hnone
    · next trajectories _ _ put hwrite =>
      obtain ⟨hbatch, hrows⟩ := writeSessionTrajectoriesToTq_rows hwrite
      refine ⟨[put], rfl, by simpa using hbatch, ?_, ?_⟩
      · rw [List.flatMap_singleton, hrows]
        intro key hkey
        obtain ⟨j, _, rfl⟩ := List.mem_map.mp hkey
        exact ⟨sessionIndex, by simp, j, rfl⟩
      · rw [List.flatMap_singleton, hrows]
        exact List.nodup_range.map (fun _ _ heq => (rowKey_injective heq).2.2)

theorem RowsOf.append {uid : String} {sessions sessions' : List Nat} {puts puts' : List Put}
    (h : RowsOf uid sessions puts) (h' : RowsOf uid sessions' puts')
    (hdisjoint : List.Disjoint sessions sessions') :
    RowsOf uid (sessions ++ sessions') (puts ++ puts') := by
  constructor
  · intro put hput
    rcases List.mem_append.mp hput with hput | hput
    · exact h.batches put hput
    · exact h'.batches put hput
  · intro key hkey
    rw [List.flatMap_append, List.mem_append] at hkey
    rcases hkey with hkey | hkey
    · obtain ⟨i, hi, j, heq⟩ := h.keys key hkey
      exact ⟨i, by simp [hi], j, heq⟩
    · obtain ⟨i, hi, j, heq⟩ := h'.keys key hkey
      exact ⟨i, by simp [hi], j, heq⟩
  · rw [List.flatMap_append]
    apply h.nodup.append h'.nodup
    intro key hkey hkey'
    obtain ⟨i, hi, j, rfl⟩ := h.keys key hkey
    obtain ⟨i', hi', j', heq⟩ := h'.keys _ hkey'
    obtain ⟨_, rfl, _⟩ := rowKey_injective heq
    exact hdisjoint hi hi'

theorem takeSessions_puts (uid partitionId : String) {sessions : List Nat}
    (hnodup : sessions.Nodup) (l : PromptLocals) :
    ∃ puts, (takeSessions o uid partitionId sampleIndex l sessions).1.puts = l.puts ++ puts ∧
      RowsOf uid sessions puts := by
  induction sessions generalizing l with
  | nil => exact ⟨[], by simp [takeSessions], rowsOf_nil uid []⟩
  | cons sessionIndex rest ih =>
    obtain ⟨hnot, hnodup⟩ := List.nodup_cons.mp hnodup
    obtain ⟨first, hfirst, hown⟩ := takeSession_puts o sampleIndex uid partitionId l
      sessionIndex
    unfold takeSessions
    rcases htake : takeSession o uid partitionId sampleIndex l sessionIndex with ⟨l', _ | error⟩
    · rw [htake] at hfirst
      obtain ⟨others, hothers, hrest⟩ := ih hnodup l'
      refine ⟨first ++ others, ?_, hown.append hrest (by simpa using hnot)⟩
      simp only at hfirst ⊢
      rw [hothers, hfirst, List.append_assoc]
    · rw [htake] at hfirst
      refine ⟨first, hfirst, hown.batches, ?_, hown.nodup⟩
      intro key hkey
      obtain ⟨i, hi, j, heq⟩ := hown.keys key hkey
      exact ⟨i, by simp [List.mem_singleton.mp hi], j, heq⟩

end

/-- A prompt puts the rows of its sessions, and behind them its status, unless it raises. -/
theorem runPromptSessionsToTq_puts {uid : String} (huid : o.uid sampleIndex = some uid)
    (numSessions : Nat) (partitionId : String) :
    ∃ puts last, (runPromptSessionsToTq o numSessions partitionId sampleIndex).puts =
      puts ++ last ∧ RowsOf uid (List.range numSessions) puts ∧
      (last = [] ∨ ∃ status, last = [.status uid partitionId status]) := by
  unfold runPromptSessionsToTq
  simp only [huid]
  cases o.samplingParams sampleIndex with
  | error error => exact ⟨[], [], rfl, rowsOf_nil uid _, Or.inl rfl⟩
  | ok params =>
    obtain ⟨puts, hputs, hrows⟩ := takeSessions_puts o sampleIndex uid partitionId
      (List.nodup_range (n := numSessions)) {}
    rw [List.nil_append] at hputs
    rcases htake : takeSessions o uid partitionId sampleIndex {} (List.range numSessions) with
      ⟨l, _ | error⟩
    · rw [htake] at hputs
      cases o.statusPut sampleIndex with
      | some error => exact ⟨puts, [], by simpa using hputs, hrows, Or.inl rfl⟩
      | none => exact ⟨puts, _, congrArg (· ++ _) hputs, hrows, Or.inr ⟨_, rfl⟩⟩
    · rw [htake] at hputs
      exact ⟨puts, [], by simpa using hputs, hrows, Or.inl rfl⟩

theorem runPromptSessionsToTq_rows (numSessions : Nat) (partitionId : String) :
    ((runPromptSessionsToTq o numSessions partitionId sampleIndex).puts.flatMap Put.rows).Nodup ∧
      ∀ key ∈ (runPromptSessionsToTq o numSessions partitionId sampleIndex).puts.flatMap Put.rows,
        ∃ uid i j, o.uid sampleIndex = some uid ∧ key = rowKey uid i j := by
  cases huid : o.uid sampleIndex with
  | none => simp [runPromptSessionsToTq, huid]
  | some uid =>
    obtain ⟨puts, last, heq, hrows, hlast⟩ := runPromptSessionsToTq_puts huid
      numSessions partitionId
    have hnone : last.flatMap Put.rows = [] := by
      rcases hlast with rfl | ⟨status, rfl⟩ <;> rfl
    rw [heq, List.flatMap_append, hnone, List.append_nil]
    refine ⟨hrows.nodup, ?_⟩
    intro key hkey
    obtain ⟨i, _, j, heq⟩ := hrows.keys key hkey
    exact ⟨uid, i, j, rfl, heq⟩

/-- A uid is shorter than the keys of its rows. -/
theorem ne_rowKey (uid : String) (i j : Nat) : uid ≠ rowKey uid i j := by
  intro h
  have hlength := congrArg List.length (congrArg String.toList h)
  simp [toList_rowKey] at hlength

theorem runPromptSessionsToTq_keys (numSessions : Nat) (partitionId : String) :
    ((runPromptSessionsToTq o numSessions partitionId sampleIndex).puts.flatMap Put.keys).Nodup ∧
      ∀ key ∈ (runPromptSessionsToTq o numSessions partitionId sampleIndex).puts.flatMap Put.keys,
        ∃ uid, o.uid sampleIndex = some uid ∧ (key = uid ∨ ∃ i j, key = rowKey uid i j) := by
  cases huid : o.uid sampleIndex with
  | none => simp [runPromptSessionsToTq, huid]
  | some uid =>
    obtain ⟨puts, last, heq, hrows, hlast⟩ := runPromptSessionsToTq_puts huid
      numSessions partitionId
    have hstatus : last.flatMap Put.keys = [] ∨ last.flatMap Put.keys = [uid] := by
      rcases hlast with rfl | ⟨status, rfl⟩
      · exact Or.inl rfl
      · exact Or.inr rfl
    rw [heq, List.flatMap_append, hrows.written]
    constructor
    · rcases hstatus with hstatus | hstatus
      · rw [hstatus, List.append_nil]
        exact hrows.nodup
      · rw [hstatus]
        apply hrows.nodup.append (List.nodup_singleton uid)
        rintro key hkey huidKey
        obtain ⟨i, _, j, rfl⟩ := hrows.keys key hkey
        exact ne_rowKey uid i j (List.mem_singleton.mp huidKey).symm
    · intro key hkey
      refine ⟨uid, rfl, ?_⟩
      rcases List.mem_append.mp hkey with hkey | hkey
      · obtain ⟨i, _, j, heq⟩ := hrows.keys key hkey
        exact Or.inr ⟨i, j, heq⟩
      · rcases hstatus with hstatus | hstatus
        · rw [hstatus] at hkey
          cases hkey
        · rw [hstatus] at hkey
          exact Or.inl (List.mem_singleton.mp hkey)

/-- What the prompts of a batch write is written once, when each of them writes its own once. -/
theorem generateSequences_nodup {o : Outside Field} {r : BatchRequest} (written : Put → List String)
    (hnodup : ∀ n partitionId i,
      ((runPromptSessionsToTq o n partitionId i).puts.flatMap written).Nodup)
    (hdisjoint : ∀ n partitionId, ∀ i < r.size, ∀ i' < r.size, i ≠ i' →
      List.Disjoint ((runPromptSessionsToTq o n partitionId i).puts.flatMap written)
        ((runPromptSessionsToTq o n partitionId i').puts.flatMap written)) :
    ((generateSequences o r).1.flatMap (fun report => report.puts.flatMap written)).Nodup := by
  have hreports : ∀ (n : Nat) (partitionId : String),
      (((List.range r.size).map (runPromptSessionsToTq o n partitionId)).flatMap
        (fun report => report.puts.flatMap written)).Nodup := by
    intro n partitionId
    rw [List.flatMap_map, List.nodup_flatMap]
    refine ⟨fun i _ => hnodup n partitionId i, ?_⟩
    apply List.nodup_range.imp_of_mem
    intro i i' hi hi' hne
    exact hdisjoint n partitionId i (List.mem_range.mp hi) i' (List.mem_range.mp hi') hne
  have hrun : ∀ (n : Int) (partitionId : String) (reports : List Report) result,
      runBatchToTq o r.size n partitionId = (reports, result) →
      (reports.flatMap (fun report => report.puts.flatMap written)).Nodup := by
    intro n partitionId reports result h
    unfold runBatchToTq at h
    split at h
    · cases h
      simp
    · split at h
      · cases h
        simp
      · cases h
        exact hreports _ _
  unfold generateSequences
  split
  · simp
  · split
    · simp
    · split
      · simp
      · split
        · next heq => exact hrun _ _ _ _ heq
        · next heq => exact hrun _ _ _ _ heq

/-- No prompt of a batch has the key of another one's row as its uid. -/
def NoUidIsARow (o : Outside Field) (size : Nat) : Prop :=
  ∀ i < size, ∀ i' < size, ∀ uid uid', o.uid i = some uid → o.uid i' = some uid' →
    ∀ a b, uid ≠ rowKey uid' a b

/-- No row of a batch takes the place of another one, when the prompts have different uids:
neither within a session, nor between the sessions and the prompts. When no uid is the key of a
row, no status takes the place of a row or of another status either. -/
theorem no_row_is_overwritten (o : Outside Field) (r : BatchRequest)
    (huids : ∀ i < r.size, ∀ i' < r.size, ∀ uid, o.uid i = some uid → o.uid i' = some uid →
      i = i') :
    ((generateSequences o r).1.flatMap (fun report => report.puts.flatMap Put.rows)).Nodup ∧
      (NoUidIsARow o r.size → ((generateSequences o r).1.flatMap (fun report =>
        report.puts.flatMap Put.keys)).Nodup) := by
  constructor
  · refine generateSequences_nodup Put.rows
      (fun n partitionId i => (runPromptSessionsToTq_rows n partitionId).1) ?_
    intro n partitionId i hi i' hi' hne key hkey hkey'
    obtain ⟨uid, _, _, huid, rfl⟩ := (runPromptSessionsToTq_rows n partitionId).2 key hkey
    obtain ⟨uid', _, _, huid', heq⟩ := (runPromptSessionsToTq_rows n partitionId).2 _ hkey'
    obtain ⟨rfl, _⟩ := rowKey_injective heq
    exact hne (huids i hi i' hi' uid huid huid')
  · intro hfree
    refine generateSequences_nodup Put.keys
      (fun n partitionId i => (runPromptSessionsToTq_keys n partitionId).1) ?_
    intro n partitionId i hi i' hi' hne key hkey hkey'
    obtain ⟨uid, huid, hkey⟩ := (runPromptSessionsToTq_keys n partitionId).2 key hkey
    obtain ⟨uid', huid', hkey'⟩ := (runPromptSessionsToTq_keys n partitionId).2 key hkey'
    have hdiffer : uid ≠ uid' := by
      rintro rfl
      exact hne (huids i hi i' hi' uid huid huid')
    rcases hkey with rfl | ⟨a, b, rfl⟩
    · rcases hkey' with rfl | ⟨a', b', rfl⟩
      · exact hdiffer rfl
      · exact hfree i hi i' hi' _ uid' huid huid' a' b' rfl
    · rcases hkey' with rfl | ⟨a', b', heq⟩
      · exact hfree i' hi' i hi _ uid huid' huid a b rfl
      · exact hdiffer (rowKey_injective heq).1

theorem no_row_is_overwritten_twoPrompts :
    ((generateSequences (twoPrompts (failsAt 1)) twoPromptsRequest).1.flatMap (fun report =>
      report.puts.flatMap Put.keys)).Nodup := by
  refine (no_row_is_overwritten (twoPrompts (failsAt 1)) twoPromptsRequest ?_).2 ?_
  · intro i hi i' hi' uid huid huid'
    have heq := huid.trans huid'.symm
    simp only [twoPromptsRequest] at hi hi'
    revert heq
    rcases Nat.lt_succ_iff_lt_or_eq.mp hi with hi | rfl <;>
      rcases Nat.lt_succ_iff_lt_or_eq.mp hi' with hi' | rfl
    · omega
    · simp [Nat.lt_one_iff.mp hi, twoPrompts]
    · simp [Nat.lt_one_iff.mp hi', twoPrompts]
    · simp
  · intro i hi i' hi' uid uid' huid huid' a b heq
    have hmem : '_' ∈ uid.toList := by
      rw [heq, toList_rowKey]
      simp
    simp only [twoPromptsRequest] at hi
    rcases Nat.lt_succ_iff_lt_or_eq.mp hi with hi | rfl
    · obtain rfl := Nat.lt_one_iff.mp hi
      obtain rfl := Option.some.inj huid
      exact absurd hmem (by decide)
    · obtain rfl := Option.some.inj huid
      exact absurd hmem (by decide)

end Batch

/-! ## Two chains, a rollback, and a reward -/

open session (callsOf openSession runFrom)

def rewardedEpisode : List session.Action :=
  session.continuedAndRewritten ++ [
    .request { messages := [say "user" "p"] }, .backendReturns 3 { tokenIds := tokensOf "e" },
    .commit 3 (fun _ => ""),
    .setRewardInfo (some [("reward", .float 0x3FF0000000000000), ("finished", .bool true)])]

/-- `float` of what is a float. -/
def postedScoring : Scoring where
  float := fun
    | .float x => .ok x
    | _ => .error (.typeError "float() argument must be a string or a real number")
  dict := fun _ => .error (.typeError "object is not iterable")
  computeScore := none
  uid := "u"

/-- A framework without a processor. A float of these rows is a 32-bit float already. -/
def textRows : RowSettings Unit where
  processor := none
  maskUnfinishedEpisode := true
  toFloat32 := id

def textPut (scored : List Scored) : Except PyError (RowsPut Unit) :=
  sessionRows textRows (fun _ => none) 0 (.int 1) "u" "train" scored

/-- What is put for the episode, and a test of it. -/
theorem put_of_test (actions : List session.Action) (test : System → RowsPut Unit → Bool)
    (h : (runFrom lineCodec (openSession none) actions).any (fun sys =>
      sys.session.finalize.1.toOption.any (fun trajectories =>
        (scoreSession postedScoring (selectSessionTrajectories trajectories "all")).toOption.any
          (fun scored => (textPut scored).toOption.any (test sys)))) = true) :
    ∃ sys trajectories s' scored put, runFrom lineCodec (openSession none) actions = some sys ∧
      sys.session.finalize = (.ok trajectories, s') ∧
      scoreSession postedScoring (selectSessionTrajectories trajectories "all") = .ok scored ∧
      textPut scored = .ok put ∧ test sys put = true := by
  obtain ⟨sys, hrun, h⟩ := (Option.any_eq_true _ _).mp h
  obtain ⟨trajectories, hfinalize, h⟩ := (Option.any_eq_true _ _).mp h
  obtain ⟨scored, hscored, h⟩ := (Option.any_eq_true _ _).mp h
  obtain ⟨put, hput, h⟩ := (Option.any_eq_true _ _).mp h
  have hok : ∀ {α : Type} {x : Except PyError α} {a : α}, x.toOption = some a → x = .ok a := by
    intro α x a hx
    cases x with
    | error e => simp [Except.toOption] at hx
    | ok b => simpa [Except.toOption] using hx
  exact ⟨sys, trajectories, sys.session.finalize.2, scored, put, hrun,
    Prod.ext (hok hfinalize) rfl, hok hscored, hok hput, h⟩

def rewardedWithOne (reward : Dict) : Bool :=
  match reward.get? "reward" with
  | some (.float x) => x == 0x3FF0000000000000
  | _ => false

theorem get_of_rewardedWithOne {reward : Dict} (h : rewardedWithOne reward = true) :
    reward.get? "reward" = some (.float 0x3FF0000000000000) := by
  unfold rewardedWithOne at h
  split at h
  · next x hget => rw [hget, beq_iff_eq.mp h]
  · cases h

theorem rows_are_aligned_rewardedEpisode : ∃ (put : RowsPut Unit) (scores : Column Unit),
    put.keys = ["u_0_0", "u_0_1"] ∧ Aligned put ∧
      put.columns "loss_mask" = put.columns "response_mask" ∧
      put.columns "rm_scores" = some scores ∧
      List.Forall₂ (fun value tag => value.ScoresLastToken (some 0x3FF0000000000000) tag)
        scores.values put.tags := by
  obtain ⟨sys, trajectories, s', scored, put, hrun, hfinalize, hscored, hput, hfacts⟩ :=
    put_of_test rewardedEpisode (fun sys put => put.keys == ["u_0_0", "u_0_1"] &&
      rewardedWithOne sys.session.rewardInfo) (by decide +kernel)
  rw [Bool.and_eq_true, beq_iff_eq] at hfacts
  obtain ⟨hkeys, hone⟩ := hfacts
  have hreward := get_of_rewardedWithOne hone
  obtain ⟨haligned, _, hmasks, _, last, score, scores, _, hscore, hcolumn, hvalues⟩ :=
    rows_are_aligned session.openSession_eq hrun hfinalize hscored hput
  refine ⟨put, scores, hkeys, haligned, hmasks, hcolumn, ?_⟩
  cases hscore with
  | posted value score hvalue hnull hfloat =>
    obtain rfl := Option.some.inj (hreward.symm.trans hvalue)
    obtain rfl : 0x3FF0000000000000 = score := Except.ok.inj hfloat
    exact hvalues
  | worker computeScore result value score hunrewarded =>
    simp [Unrewarded, hreward] at hunrewarded
  | unscored hunrewarded => simp [Unrewarded, hreward] at hunrewarded

theorem generated_tokens_reach_the_loss_rewardedEpisode :
    ∃ (put : RowsPut Unit) (masks : Column Unit) (sys : System),
    put.columns "loss_mask" = some masks ∧ session.generatedTokens sys.ledger.commits = 4 ∧
      (masks.values.map Value.total).sum +
        sys.session.rollbackDroppedTrainableTokensTotal = 4 := by
  obtain ⟨sys, trajectories, s', scored, put, hrun, hfinalize, hscored, hput, hfacts⟩ :=
    put_of_test rewardedEpisode (fun sys _ =>
      session.generatedTokens sys.ledger.commits == 4 &&
        !masksEpisode textRows sys.session.rewardInfo) (by decide +kernel)
  have houtputs : (callsOf lineCodec (openSession none) rewardedEpisode).all (fun g =>
      g.out.getLast? != lineCodec.assistantPrefix.getLast?) = true := by decide +kernel
  have hversions : (callsOf lineCodec (openSession none) rewardedEpisode).all (fun g =>
      g.output.minGlobalSteps.isNone || g.output.maxGlobalSteps.isSome) = true := by
    decide +kernel
  obtain ⟨masks, hmasks, hlaw⟩ := generated_tokens_reach_the_loss session.openSession_eq hrun
    hfinalize hscored hput (by decide +kernel) session.longIncrements_lineCodec
    (session.endsNoOutput_of_test houtputs) (session.versionsReported_of_test hversions)
  simp only [Bool.and_eq_true, beq_iff_eq, Bool.not_eq_true'] at hfacts
  rw [hfacts.2, if_neg (by decide), if_pos rfl, hfacts.1] at hlaw
  exact ⟨put, masks, sys, hmasks, hfacts.1, hlaw⟩

end uni_agent.framework
