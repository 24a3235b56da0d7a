-- The grade of a SWE task: the part of an evaluation log between two markers is parsed to a
-- status of each test, and the report is made from these. What comes before the tests is written
-- to the same log.
import UniAgent.Codec
import UniAgent.LetterCase
import UniAgent.SeparatedLists

namespace uni_agent.tasks

open Text separated_lists

/-! ## What is used of the harness -/

/-- The status of each test, in the order in which the tests were first seen. -/
abbrev StatusMap : Type := List (Text × Text)

/-- `test_status_map[test] = status` -/
def StatusMap.set (statuses : StatusMap) (test status : Text) : StatusMap :=
  if statuses.any (fun entry => entry.1 == test) then
    statuses.map (fun entry => if entry.1 == test then (test, status) else entry)
  else statuses ++ [(test, status)]

inductive EvalType where
  | passAndFail
  | failOnly
  deriving DecidableEq

structure EvalRef where
  instanceId : Json
  failToPass : Json
  passToPass : Json

abbrev LogParser : Type := Text → Except PyError StatusMap

/-- The constants and the functions of the harness, which are not in the repository, with what
its two markers are to each other: none begins in the other one and ends behind it. -/
structure Harness (Report : Type) where
  startTestOutput : Text
  endTestOutput : Text
  testStatus : List Text
  failed : Text
  repoToParser : List (String × LogParser)
  failOnlyRepos : List String
  getEvalTestsReport : StatusMap → EvalRef → EvalType → Except PyError Report
  getResolutionStatus : Report → Text
  full : Text
  start_ne_nil : startTestOutput ≠ []
  end_ne_nil : endTestOutput ≠ []
  start_start : NoOverlap startTestOutput startTestOutput
  end_end : NoOverlap endTestOutput endTestOutput
  start_end : NoOverlap startTestOutput endTestOutput
  end_start : NoOverlap endTestOutput startTestOutput
  start_not_in_end : ¬ startTestOutput <:+: endTestOutput
  end_not_in_start : ¬ endTestOutput <:+: startTestOutput

/-! ## The parsers -/

def startsWithStatus {Report : Type} (h : Harness Report) (line : Text) : Bool :=
  h.testStatus.any (fun status => status.isPrefixOf line)

def endsWithStatus {Report : Type} (h : Harness Report) (line : Text) : Bool :=
  h.testStatus.any (fun status => status.isSuffixOf line)

/-- The words of a line that begins with a status. -/
def statusWords {Report : Type} (h : Harness Report) (line : Text) : List Text :=
  words (if h.failed.isPrefixOf line then replace " - ".toList " ".toList line else line)

def parseLine {Report : Type} (h : Harness Report) (statuses : StatusMap) (line : Text) :
    StatusMap :=
  if startsWithStatus h line then
    match statusWords h line with
    | status :: test :: _ => statuses.set test status
    | _ => statuses
  else statuses

/-- `parse_log_pytest` -/
def parseLogPytest {Report : Type} (h : Harness Report) (log : Text) : StatusMap :=
  (lines log).foldl (parseLine h) []

/-- The length of `\d+m` at the front of a text. -/
def colorLength (isDecimal : Char → Bool) (text : Text) : Option Nat :=
  let digits := text.takeWhile isDecimal
  if digits != [] && (text.drop digits.length).head? == some 'm' then some (digits.length + 1)
  else none

/-- `re.sub(r"\[(\d+)m", "", line)`, after `skip` more characters of the last match. -/
def dropColorsFrom (isDecimal : Char → Bool) : Nat → Text → Text
  | _, [] => []
  | skip + 1, _ :: cs => dropColorsFrom isDecimal skip cs
  | 0, c :: cs =>
    match if c = '[' then colorLength isDecimal cs else none with
    | some n => dropColorsFrom isDecimal n cs
    | none => c :: dropColorsFrom isDecimal 0 cs

/-- A line without its control codes. -/
def plainLine (isDecimal : Char → Bool) (line : Text) : Text :=
  (dropColorsFrom isDecimal 0 line).filter (fun c => !(1 ≤ c.toNat && c.toNat ≤ 31))

def parseLineV2 {Report : Type} (h : Harness Report) (isDecimal : Char → Bool)
    (statuses : StatusMap) (line : Text) : StatusMap :=
  let line := plainLine isDecimal line
  if startsWithStatus h line then
    match statusWords h line with
    | status :: test :: _ => statuses.set test status
    | _ => statuses
  -- Older versions print the status at the end of the line.
  else if endsWithStatus h line then
    match words line with
    | test :: status :: _ => statuses.set test status
    | _ => statuses
  else statuses

/-- `parse_log_pytest_v2` -/
def parseLogPytestV2 {Report : Type} (h : Harness Report) (isDecimal : Char → Bool) (log : Text) :
    StatusMap :=
  (lines log).foldl (parseLineV2 h isDecimal) []

/-! ## The section of the tests -/

/-- `metadata[key]` -/
def getItem (metadata : Dict) (key : String) : Except PyError Json :=
  match metadata.get? key with
  | some value => .ok value
  | none => .error (.otherException "KeyError" ("'" ++ key ++ "'"))

/-- A value as a key of a dict whose keys are texts, or of a set of texts. -/
def hashKey : Json → Except PyError (Option String)
  | .str text => .ok (some text)
  | .arr _ => .error (.typeError "unhashable type: 'list'")
  | .obj _ => .error (.typeError "unhashable type: 'dict'")
  | _ => .ok none

section

variable {Report : Type} (h : Harness Report) (py : PythonLibrary) (isDecimal : Char → Bool)

/-- `eval_output.split(START_TEST_OUTPUT)[1].split(END_TEST_OUTPUT)[0]` -/
def testContent (evalOutput : Text) : Text :=
  (split h.endTestOutput ((split h.startTestOutput evalOutput).getD 1 [])).headD []

/-- `_get_logs_eval` behind the choice of the parser, which is the same in both tasks. -/
def logsEval (logParser : LogParser) (evalOutput : Text) : Except PyError (StatusMap × Bool) :=
  if contains h.startTestOutput evalOutput && contains h.endTestOutput evalOutput then do
    let statusMap ← logParser (testContent h evalOutput)
    .ok (statusMap, true)
  else .ok ([], false)

namespace swe_rebench

/-- `_LOG_PARSERS` -/
def logParsers : List (String × LogParser) :=
  [("parse_log_pytest", fun log => .ok (parseLogPytest h log)),
    ("parse_log_pytest_v2", fun log => .ok (parseLogPytestV2 h isDecimal log))]

def logParser (metadata : Dict) : Except PyError LogParser := do
  let parserName ← getItem metadata "log_parser"
  let key ← hashKey parserName
  match key.bind (fun name => (logParsers h isDecimal).lookup name) with
  | some parser => .ok parser
  | none =>
    .error (.otherException "NotImplementedError"
      ("log parser " ++ py.repr parserName ++ " is not implemented for swe_rebench"))

/-- `_get_logs_eval` -/
def getLogsEval (metadata : Dict) (evalOutput : Text) : Except PyError (StatusMap × Bool) := do
  let parser ← logParser h py isDecimal metadata
  logsEval h parser evalOutput

end swe_rebench

namespace swe_bench

def logParser (metadata : Dict) : Except PyError LogParser := do
  let repo ← getItem metadata "repo"
  let key ← hashKey repo
  match key.bind (fun name => h.repoToParser.lookup name) with
  | some parser => .ok parser
  | none => .error (.otherException "KeyError" (py.repr repo))

/-- `_get_logs_eval` -/
def getLogsEval (metadata : Dict) (evalOutput : Text) : Except PyError (StatusMap × Bool) := do
  let parser ← logParser h py metadata
  logsEval h parser evalOutput

end swe_bench

/-! ## The report -/

structure EvalReport (Report : Type) where
  resolved : Bool
  foundEvalStatus : Bool
  testStatus : Option Report

/-- `json.loads(text)` with its errors raised. The one for a text that is no JSON has the text in
place of its message. -/
def loads (text : String) : Except PyError Json :=
  match py.jsonLoads text with
  | .value v => .ok v
  | .decodeError => .error (.otherException "JSONDecodeError" text)
  | .raised e => .error e

/-- `_as_list`, for a value that may be missing. -/
def asList : Option Json → Except PyError Json
  | none => .ok (.arr [])
  | some .null => .ok (.arr [])
  | some (.str text) => if pyStrip text = "" then .ok (.arr []) else loads py text
  | some (.arr items) => .ok (.arr items)
  | some (.obj fields) => .ok (.arr (fields.map (fun field => .str field.1)))
  | some value => .error (.typeError ("'" ++ value.typeName ++ "' object is not iterable"))

/-- `json.loads(metadata.get(key, "[]"))` -/
def loadsField (metadata : Dict) (key : String) : Except PyError Json :=
  match metadata.get? key with
  | none => loads py "[]"
  | some (.str text) => loads py text
  | some value =>
    .error (.typeError ("the JSON object must be str, bytes or bytearray, not " ++ value.typeName))

/-- The second step of `_get_eval_report` behind the reference, which is the same in both tasks. -/
def gradeStatuses (metadata : Dict) (statusMap : StatusMap) (evalRef : EvalRef) :
    Except PyError (EvalReport Report) := do
  let repo ← getItem metadata "repo"
  let key ← hashKey repo
  let evalType := if key.any (fun name => name ∈ h.failOnlyRepos) then .failOnly else .passAndFail
  let report ← h.getEvalTestsReport statusMap evalRef evalType
  .ok ⟨h.getResolutionStatus report == h.full, true, some report⟩

/-- `_get_eval_report` behind `_get_logs_eval` and with the reference of the task. -/
def evalReport (metadata : Dict) (evalRef : Except PyError EvalRef)
    (logs : Except PyError (StatusMap × Bool)) : Except PyError (EvalReport Report) := do
  let (statusMap, found) ← logs
  if !found then .ok ⟨false, false, none⟩
  else do
    let evalRef ← evalRef
    gradeStatuses h metadata statusMap evalRef

namespace swe_rebench

def evalRef (metadata : Dict) : Except PyError EvalRef := do
  let instanceId ← getItem metadata "instance_id"
  let failToPass ← asList py (metadata.get? "FAIL_TO_PASS")
  let passToPass ← asList py (metadata.get? "PASS_TO_PASS")
  .ok ⟨instanceId, failToPass, passToPass⟩

/-- `_get_eval_report` -/
def getEvalReport (metadata : Dict) (evalOutput : Text) : Except PyError (EvalReport Report) :=
  evalReport h metadata (evalRef py metadata) (getLogsEval h py isDecimal metadata evalOutput)

end swe_rebench

namespace swe_bench

def evalRef (metadata : Dict) : Except PyError EvalRef := do
  let instanceId ← getItem metadata "instance_id"
  let failToPass ← loadsField py metadata "FAIL_TO_PASS"
  let passToPass ← loadsField py metadata "PASS_TO_PASS"
  .ok ⟨instanceId, failToPass, passToPass⟩

/-- `_get_eval_report` -/
def getEvalReport (metadata : Dict) (evalOutput : Text) : Except PyError (EvalReport Report) :=
  evalReport h metadata (evalRef py metadata) (getLogsEval h py metadata evalOutput)

end swe_bench

end

/-! ## Where the section is -/

section

variable {Report : Type} {h : Harness Report} {pre body post : Text}

/-- A log of the script: it writes the two markers around the output of the tests. -/
def logOf (h : Harness Report) (pre body post : Text) : Text :=
  pre ++ (h.startTestOutput ++ (body ++ (h.endTestOutput ++ post)))

theorem contains_logOf (h : Harness Report) (pre body post : Text) :
    contains h.startTestOutput (logOf h pre body post) = true ∧
      contains h.endTestOutput (logOf h pre body post) = true := by
  rw [contains_iff, contains_iff]
  refine ⟨⟨pre, body ++ (h.endTestOutput ++ post), ?_⟩,
    ⟨pre ++ (h.startTestOutput ++ body), post, ?_⟩⟩
  · rw [logOf, List.append_assoc]
  · rw [logOf]
    simp only [List.append_assoc]

/-- The marker of the end closes the section that the script has opened, whatever comes behind. -/
theorem headD_split_section (hstart : ¬ h.startTestOutput <:+: body)
    (hend : ¬ h.endTestOutput <:+: body) (post : Text) :
    (split h.endTestOutput ((split h.startTestOutput
      (body ++ (h.endTestOutput ++ post))).headD [])).headD [] = body := by
  have hnone : BeginsNot h.startTestOutput (body ++ h.endTestOutput) post :=
    (beginsNot_of_noOverlap hstart h.start_end h.end_not_in_start).append
      (beginsNot_inside h.start_not_in_end h.end_start h.end_not_in_start)
  have hpieces : ∃ rest, (split h.startTestOutput (body ++ (h.endTestOutput ++ post))).headD [] =
      body ++ (h.endTestOutput ++ rest) := by
    rw [← List.append_assoc, split_of_beginsNot hnone]
    cases hsplit : split h.startTestOutput post with
    | nil => exact absurd hsplit (splitFrom_ne_nil h.startTestOutput 0 post)
    | cons piece pieces => exact ⟨piece, by rw [← List.append_assoc]; rfl⟩
  obtain ⟨rest, hrest⟩ := hpieces
  rw [hrest, split_append h.end_ne_nil h.end_end, split_of_not_infix hend]
  rfl

/-- The section is that of the tests unless one is opened before it. -/
theorem testContent_logOf (hstart : ¬ h.startTestOutput <:+: body)
    (hend : ¬ h.endTestOutput <:+: body) (post : Text) :
    testContent h (logOf h pre body post) =
      if h.startTestOutput <:+: pre then testContent h pre else body := by
  unfold testContent logOf
  split
  · rename_i hpre
    rw [getD_split_append_of_found h.start_ne_nil h.start_start hpre]
  · rename_i hpre
    rw [getD_split_append_of_missing h.start_ne_nil h.start_start hpre,
      headD_split_section hstart hend]

/-! ## Whose grade it is -/

/-- What a task's parser makes of a section. -/
def parseSection (parser : Except PyError LogParser) (content : Text) :
    Except PyError StatusMap := do
  let parser ← parser
  parser content

/-- The statuses are those that are parsed from the body, and the report is made of them. -/
structure GradesBody (h : Harness Report) (metadata : Dict) (evalRef : Except PyError EvalRef)
    (parser : Except PyError LogParser) (body : Text)
    (logs : Except PyError (StatusMap × Bool)) (report : Except PyError (EvalReport Report)) :
    Prop where
  logs_eq : logs = (parseSection parser body).map (fun statusMap => (statusMap, true))
  report_eq : report = evalReport h metadata evalRef
    ((parseSection parser body).map (fun statusMap => (statusMap, true)))

theorem bind_logsEval (parser : Except PyError LogParser) (pre body post : Text) :
    (parser >>= fun parser => logsEval h parser (logOf h pre body post)) =
      (parseSection parser (testContent h (logOf h pre body post))).map
        (fun statusMap => (statusMap, true)) := by
  obtain ⟨hstart, hend⟩ := contains_logOf h pre body post
  cases parser with
  | error e => rfl
  | ok parser =>
    show logsEval h parser (logOf h pre body post) =
      (parser (testContent h (logOf h pre body post))).map (fun statusMap => (statusMap, true))
    rw [logsEval, hstart, hend, if_pos (by rfl)]
    cases parser (testContent h (logOf h pre body post)) <;> rfl

theorem map_found_inj {first second : Except PyError StatusMap} :
    first.map (fun statusMap => (statusMap, true)) = second.map
        (fun statusMap => (statusMap, true)) ↔
      first = second := by
  refine ⟨?_, ?_⟩
  · intro heq
    cases first <;> cases second <;> cases heq <;> rfl
  · rintro rfl
    rfl

/-- A section that is opened before the tests is graded in their place. -/
theorem gradesBody_iff {metadata : Dict} {evalRef : Except PyError EvalRef}
    {parser : Except PyError LogParser} (hstart : ¬ h.startTestOutput <:+: body)
    (hend : ¬ h.endTestOutput <:+: body) (post : Text) :
    GradesBody h metadata evalRef parser body
        (parser >>= fun parser => logsEval h parser (logOf h pre body post))
        (evalReport h metadata evalRef
          (parser >>= fun parser => logsEval h parser (logOf h pre body post))) ↔
      (h.startTestOutput <:+: pre →
        parseSection parser (testContent h pre) = parseSection parser body) := by
  rw [bind_logsEval, testContent_logOf hstart hend]
  refine ⟨?_, ?_⟩
  · rintro ⟨hlogs, -⟩ hpre
    rw [if_pos hpre, map_found_inj] at hlogs
    exact hlogs
  · intro hparse
    have hsame : parseSection parser
        (if h.startTestOutput <:+: pre then testContent h pre else body) =
        parseSection parser body := by
      split
      · rename_i hpre
        exact hparse hpre
      · rfl
    rw [hsame]
    exact ⟨rfl, rfl⟩

/-- In both tasks a log is graded by the output of its tests if and only if what comes before them
opens no section, or one that is parsed to the same statuses. What comes behind them is never
graded. -/
theorem grade_is_of_the_tests_iff (h : Harness Report) (py : PythonLibrary)
    (isDecimal : Char → Bool) (metadata : Dict) (pre body post : Text)
    (hstart : ¬ h.startTestOutput <:+: body) (hend : ¬ h.endTestOutput <:+: body) :
    (GradesBody h metadata (swe_rebench.evalRef py metadata)
        (swe_rebench.logParser h py isDecimal metadata) body
        (swe_rebench.getLogsEval h py isDecimal metadata (logOf h pre body post))
        (swe_rebench.getEvalReport h py isDecimal metadata (logOf h pre body post)) ↔
      (h.startTestOutput <:+: pre →
        parseSection (swe_rebench.logParser h py isDecimal metadata) (testContent h pre) =
          parseSection (swe_rebench.logParser h py isDecimal metadata) body)) ∧
    (GradesBody h metadata (swe_bench.evalRef py metadata) (swe_bench.logParser h py metadata) body
        (swe_bench.getLogsEval h py metadata (logOf h pre body post))
        (swe_bench.getEvalReport h py metadata (logOf h pre body post)) ↔
      (h.startTestOutput <:+: pre →
        parseSection (swe_bench.logParser h py metadata) (testContent h pre) =
          parseSection (swe_bench.logParser h py metadata) body)) :=
  ⟨gradesBody_iff hstart hend post, gradesBody_iff hstart hend post⟩

end

/-! ## A harness -/

/-- A report as the harness makes it: the tests that passed and those that did not, of the two
lists of the reference. -/
structure PlainReport where
  failToPass : List Text × List Text
  passToPass : List Text × List Text
  deriving DecidableEq

def passedBy (evalType : EvalType) (statusMap : StatusMap) (test : Text) : Bool :=
  match evalType with
  | .passAndFail =>
    statusMap.lookup test == some "PASSED".toList || statusMap.lookup test == some "XFAIL".toList
  | .failOnly => statusMap.lookup test != some "FAILED".toList

def testNames : Json → List Text
  | .arr items => items.filterMap fun
    | .str text => some text.toList
    | _ => none
  | _ => []

/-- The markers, the statuses and the grading of the harness, without the parsers that it has for
each repository. -/
def plainHarness : Harness PlainReport where
  startTestOutput := ">>>>> Start Test Output".toList
  endTestOutput := ">>>>> End Test Output".toList
  testStatus := ["FAILED".toList, "PASSED".toList, "SKIPPED".toList, "ERROR".toList,
    "XFAIL".toList]
  failed := "FAILED".toList
  repoToParser := []
  failOnlyRepos := []
  getEvalTestsReport statusMap evalRef evalType :=
    .ok ⟨(testNames evalRef.failToPass).partition (passedBy evalType statusMap),
      (testNames evalRef.passToPass).partition (passedBy evalType statusMap)⟩
  getResolutionStatus report :=
    if report.passToPass.2 = [] then
      if report.failToPass.2 = [] then "RESOLVED_FULL".toList
      else if report.failToPass.1 = [] then "RESOLVED_NO".toList
      else "RESOLVED_PARTIAL".toList
    else "RESOLVED_NO".toList
  full := "RESOLVED_FULL".toList
  start_ne_nil := by decide
  end_ne_nil := by decide
  start_start := by decide
  end_end := by decide
  start_end := by decide
  end_start := by decide
  start_not_in_end := by decide
  end_not_in_start := by decide

def pytestTask : Dict :=
  [("log_parser", .str "parse_log_pytest"), ("instance_id", .str "a__b-1"),
    ("repo", .str "a/b"), ("FAIL_TO_PASS", .arr [.str "test_a"])]

theorem grade_is_of_the_tests_failed :
    swe_rebench.getLogsEval plainHarness plainPython Char.isDigit pytestTask
      (logOf plainHarness "nothing to commit\n".toList "'\nFAILED test_a - 1 != 2\n+ : '".toList
        "'\n".toList) = .ok ([("test_a".toList, "FAILED".toList)], true) := by
  have hgrade := (grade_is_of_the_tests_iff plainHarness plainPython Char.isDigit pytestTask
    "nothing to commit\n".toList "'\nFAILED test_a - 1 != 2\n+ : '".toList "'\n".toList
    (by decide) (by decide)).1.mpr (fun hpre => absurd hpre (by decide))
  rw [hgrade.logs_eq]
  rfl

/-- A file of the solver that shows both markers when the tests are built is graded as the tests. -/
theorem an_earlier_section_is_graded :
    ¬ (∀ (h : Harness PlainReport) (py : PythonLibrary) (isDecimal : Char → Bool)
      (metadata : Dict) (pre body post : Text), ¬ h.startTestOutput <:+: body →
      ¬ h.endTestOutput <:+: body →
      swe_rebench.getLogsEval h py isDecimal metadata (logOf h pre body post) =
        (parseSection (swe_rebench.logParser h py isDecimal metadata) body).map
          (fun statusMap => (statusMap, true))) := by
  intro h
  have hlog := h plainHarness plainPython Char.isDigit pytestTask
    ">>>>> Start Test Output\nPASSED test_a\n>>>>> End Test Output\n".toList
    "'\nFAILED test_a - 1 != 2\n+ : '".toList "'\n".toList (by decide) (by decide)
  revert hlog
  decide

end uni_agent.tasks
