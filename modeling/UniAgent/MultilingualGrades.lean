-- The grade of the multilingual task. It is made from the section between the two markers, and from
-- the whole log where no test is found in the section.
import UniAgent.EvaluationLogs

namespace uni_agent.tasks.swe_bench_multilingual

open Text separated_lists

/-- What is read of the `TestSpec` that the harness makes of an instance. -/
structure TestSpec where
  repo : String
  instanceId : Json
  failToPass : Json
  passToPass : Json

section

variable {Report : Type} (h : Harness Report) (py : PythonLibrary)
  (repoToParser : List (String × (TestSpec → LogParser))) (parser : LogParser) (spec : TestSpec)

/-! ## The grade -/

/-- The part of the output that is parsed first. -/
def testOutput (output : Text) : Text :=
  if contains h.startTestOutput output && contains h.endTestOutput output then
    (split h.endTestOutput (behindFirst h.startTestOutput output)).headD []
  else output

/-- The statuses that are graded. -/
def gradedStatuses (output : Text) : Except PyError StatusMap := do
  let statusMap ← parser (testOutput h output)
  -- Some runners print what counts outside of the markers.
  if statusMap.isEmpty && testOutput h output != output then parser output
  else .ok statusMap

/-- The report that is made of the statuses. -/
def reportOf (statusMap : StatusMap) : Except PyError (EvalReport Report) :=
  if statusMap.isEmpty then .ok ⟨false, false, none⟩
  else do
    let evalRef : EvalRef := ⟨spec.instanceId, spec.failToPass, spec.passToPass⟩
    let evalType := if spec.repo ∈ h.failOnlyRepos then .failOnly else .passAndFail
    let report ← h.getEvalTestsReport statusMap evalRef evalType
    .ok ⟨h.getResolutionStatus report == h.full, true, some report⟩

/-- `MAP_REPO_TO_PARSER[test_spec.repo]` -/
def logParser : Except PyError LogParser :=
  match repoToParser.lookup spec.repo with
  | some parser => .ok (parser spec)
  | none => .error (.otherException "KeyError" (py.repr (.str spec.repo)))

/-- `_grade` -/
def grade (output : Text) : Except PyError (EvalReport Report) := do
  let parser ← logParser py repoToParser spec
  let statusMap ← gradedStatuses h parser output
  reportOf h spec statusMap

end

/-! ## What is graded in a log of the script -/

section

variable {Report : Type} {h : Harness Report} {parser : LogParser} {pre body post : Text}

/-- The section where one is opened before the tests: it goes on into these unless it is closed. -/
def openedBefore (h : Harness Report) (pre body : Text) : Text :=
  (split h.endTestOutput
    (behindFirst h.startTestOutput pre ++ (h.startTestOutput ++ body))).headD []

theorem testOutput_logOf (hend : ¬ h.endTestOutput <:+: body) (post : Text) :
    testOutput h (logOf h pre body post) =
      if h.startTestOutput <:+: pre then openedBefore h pre body else body := by
  obtain ⟨hstart, hclosed⟩ := contains_logOf h pre body post
  unfold testOutput
  rw [hstart, hclosed, Bool.and_true, if_pos rfl]
  unfold logOf
  split
  · rename_i hpre
    rw [behindFirst_append_of_found h.start_ne_nil hpre]
    have hassoc : behindFirst h.startTestOutput pre ++
        (h.startTestOutput ++ (body ++ (h.endTestOutput ++ post))) =
          (behindFirst h.startTestOutput pre ++ (h.startTestOutput ++ body)) ++
            (h.endTestOutput ++ post) := by
      simp only [List.append_assoc]
    rw [hassoc, headD_split_append h.end_ne_nil h.end_end]
    rfl
  · rename_i hpre
    rw [behindFirst_append_of_missing h.start_ne_nil h.start_start hpre,
      headD_split_append h.end_ne_nil h.end_end, split_of_not_infix hend]
    rfl

/-- A section is shorter than the log around it. -/
theorem testOutput_ne (hend : ¬ h.endTestOutput <:+: body) (post : Text) :
    testOutput h (logOf h pre body post) ≠ logOf h pre body post := by
  have hpos := List.length_pos_iff.mpr h.end_ne_nil
  have hstart := List.length_pos_iff.mpr h.start_ne_nil
  rw [testOutput_logOf hend]
  intro heq
  have hlength := congrArg List.length heq
  unfold logOf at hlength
  simp only [List.length_append] at hlength
  split at hlength
  · have hsection : (openedBefore h pre body).length ≤ _ := length_headD_splitFrom_le _ 0 _
    have hbehind := length_behindFirst_le h.startTestOutput pre
    simp only [List.length_append] at hsection
    omega
  · omega

/-- A section without tests is graded by the whole log. -/
theorem gradedStatuses_logOf (hend : ¬ h.endTestOutput <:+: body) (post : Text) :
    gradedStatuses h parser (logOf h pre body post) =
      if parser (testOutput h (logOf h pre body post)) = .ok [] then
        parser (logOf h pre body post)
      else parser (testOutput h (logOf h pre body post)) := by
  have hne : testOutput h (logOf h pre body post) ≠ logOf h pre body post := testOutput_ne hend post
  unfold gradedStatuses
  cases hparse : parser (testOutput h (logOf h pre body post)) with
  | error e => simp [bind, Except.bind]
  | ok statusMap =>
    cases statusMap with
    | nil => simp [bind, Except.bind, bne_iff_ne.mpr hne]
    | cons entry rest => simp [bind, Except.bind]

/-! ## Whose grade it is -/

/-- The statuses are those that are parsed from the body, and the report is made of them. -/
structure GradesTests (h : Harness Report) (spec : TestSpec) (parser : LogParser) (body : Text)
    (statuses : Except PyError StatusMap) (report : Except PyError (EvalReport Report)) : Prop where
  statuses_eq : statuses = parser body
  report_eq : report = parser body >>= reportOf h spec

theorem gradesTests_iff {py : PythonLibrary} {repoToParser : List (String × (TestSpec → LogParser))}
    {spec : TestSpec} (hparser : logParser py repoToParser spec = .ok parser) {output : Text} :
    GradesTests h spec parser body (gradedStatuses h parser output)
        (grade h py repoToParser spec output) ↔ gradedStatuses h parser output = parser body := by
  constructor
  · exact fun hgrade => hgrade.statuses_eq
  · intro hstatuses
    refine ⟨hstatuses, ?_⟩
    unfold grade
    rw [hparser, ← hstatuses]
    rfl

/-- A log is graded by the output of its tests if and only if there are tests in it, or none in the
whole log either; where what comes before the tests opens a section, if and only if that section, or
the whole log when there are no tests in it, is parsed to the same statuses. -/
theorem multilingual_grade_is_of_the_tests_iff (h : Harness Report) (py : PythonLibrary)
    (repoToParser : List (String × (TestSpec → LogParser))) (spec : TestSpec) (parser : LogParser)
    (hparser : logParser py repoToParser spec = .ok parser) (pre body post : Text)
    (hend : ¬ h.endTestOutput <:+: body) :
    GradesTests h spec parser body (gradedStatuses h parser (logOf h pre body post))
        (grade h py repoToParser spec (logOf h pre body post)) ↔
      (¬ h.startTestOutput <:+: pre → parser body = .ok [] →
        parser (logOf h pre body post) = .ok []) ∧
      (h.startTestOutput <:+: pre →
        (parser (openedBefore h pre body) = .ok [] →
          parser (logOf h pre body post) = parser body) ∧
        (parser (openedBefore h pre body) ≠ .ok [] →
          parser (openedBefore h pre body) = parser body)) := by
  rw [gradesTests_iff hparser, gradedStatuses_logOf hend, testOutput_logOf hend]
  by_cases hpre : h.startTestOutput <:+: pre
  · simp only [hpre, if_true, not_true_eq_false, false_implies, true_implies, true_and]
    by_cases hnone : parser (openedBefore h pre body) = .ok []
    · simp [hnone]
    · simp [hnone]
  · simp only [hpre, if_false, not_false_eq_true, false_implies, true_implies, and_true]
    by_cases hnone : parser body = .ok []
    · simp [hnone]
    · simp [hnone]

end

/-! ## Logs -/

/-- A repository whose tests print what pytest prints. -/
def pytestParsers : List (String × (TestSpec → LogParser)) :=
  [("a/b", fun _ log => .ok (parseLogPytest plainHarness log))]

def oneTest : TestSpec :=
  { repo := "a/b", instanceId := .str "a__b-1", failToPass := .arr [.str "test_a"],
    passToPass := .arr [] }

theorem multilingual_grade_is_of_the_tests_passed :
    gradedStatuses plainHarness (fun log => .ok (parseLogPytest plainHarness log))
      (logOf plainHarness "PASSED test_b\n".toList "'\nPASSED test_a\n+ : '".toList "'\n".toList) =
        .ok [("test_a".toList, "PASSED".toList)] := by
  have hgrade := (multilingual_grade_is_of_the_tests_iff plainHarness plainPython pytestParsers
    oneTest (fun log => .ok (parseLogPytest plainHarness log)) rfl "PASSED test_b\n".toList
    "'\nPASSED test_a\n+ : '".toList "'\n".toList (by decide)).mpr
    ⟨fun _ hnone => absurd hnone (by decide), fun hpre => absurd hpre (by decide)⟩
  rw [hgrade.statuses_eq]
  decide

/-- When the tests print no status, a line that the build has printed before them is graded. -/
theorem a_line_before_the_tests_resolves_the_task :
    ¬ (∀ (h : Harness PlainReport) (py : PythonLibrary)
      (repoToParser : List (String × (TestSpec → LogParser))) (spec : TestSpec)
      (parser : LogParser) (pre body post : Text),
      logParser py repoToParser spec = .ok parser → ¬ h.startTestOutput <:+: pre →
      ¬ h.endTestOutput <:+: body → parser body = .ok [] →
      (grade h py repoToParser spec (logOf h pre body post)).toOption.all
        (fun report => !report.resolved) = true) := by
  intro h
  have hgrade := h plainHarness plainPython pytestParsers oneTest
    (fun log => .ok (parseLogPytest plainHarness log)) "PASSED test_a\n".toList
    "'\nno such file\n+ : '".toList "'\n".toList rfl (by decide) (by decide) (by decide)
  revert hgrade
  decide

end uni_agent.tasks.swe_bench_multilingual
