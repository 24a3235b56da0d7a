-- The laws of an edit: a command either leaves everything as it was or gets as far as one write,
-- and what is written is what was read but for the text that the command names.
import UniAgent.EditFile

namespace uni_agent.tools

/-! ## The commands that write -/

/-- The replies of a command that has written. -/
def Reply.reportsWrite : Reply → Bool
  | .created _ | .edited _ _ _ | .undone _ _ => true
  | .viewed _ | .listed _ _ | .refused _ => false

/-- A result of a command that has not written. -/
def Unwritten (result : Except PyError Reply) : Prop :=
  ∀ reply, result = .ok reply → reply.reportsWrite = false

namespace EditFileTool

variable {t t' : EditFileTool} {faults : Faults} {args : Arguments} {path : String}

theorem Unwritten.error (e : PyError) : Unwritten (.error e) := by
  intro reply h
  cases h

theorem Unwritten.refused (message : String) : Unwritten (.ok (.refused message)) := by
  intro reply h
  cases h
  rfl

/-- The new text of a `str_replace` call. -/
def newText (args : Arguments) : Text := (args.newStr.map Text.expandtabs).getD []

/-- The commands that get as far as their write: the text that they write, the history of the
path after it, and the reply. -/
inductive Writing (t : EditFileTool) (faults : Faults) (args : Arguments) :
    Text → List Text → Reply → Prop
  | create {fileText : Text} (hcommand : args.command = "create")
      (htext : args.fileText = some fileText) (habsent : t.sandbox.files args.path = none) :
      Writing t faults args fileText ([] :: t.history args.path) (.created args.path)
  | strReplace {fileContent oldStr : Text} {output : Output} {advice : String}
      (hcommand : args.command = "str_replace") (hread : t.read faults args.path = .ok fileContent)
      (hold : args.oldStr = some oldStr) (hne : oldStr ≠ [])
      (honce : Text.count oldStr.expandtabs fileContent.expandtabs = 1)
      (houtput : output =
        let snippet := replacementSnippet fileContent.expandtabs oldStr.expandtabs (newText args)
          (Text.replace oldStr.expandtabs (newText args) fileContent.expandtabs)
        makeOutput snippet.2 ("a snippet of " ++ args.path) snippet.1) :
      Writing t faults args
        (Text.replace oldStr.expandtabs (newText args) fileContent.expandtabs)
        (fileContent.expandtabs :: t.history args.path) (.edited args.path output advice)
  | insert {fileText newStr : Text} {line : Nat} {output : Output} {advice : String}
      (hcommand : args.command = "insert") (hread : t.read faults args.path = .ok fileText)
      (hline : args.insertLine = some (line : Int)) (hnew : args.newStr = some newStr)
      (hle : line ≤ fileText.expandtabs.lines.length)
      (houtput : output = makeOutput
        (Text.joinLines ((fileText.expandtabs.lines.take line).drop (line - snippetLines) ++
          newStr.expandtabs.lines ++
              (fileText.expandtabs.lines.take (line + snippetLines)).drop line))
        "a snippet of the edited file" (max 1 (line + 1 - snippetLines))) :
      Writing t faults args
        (Text.joinLines (fileText.expandtabs.lines.take line ++ newStr.expandtabs.lines ++
          fileText.expandtabs.lines.drop line))
        (fileText.expandtabs :: t.history args.path) (.edited args.path output advice)
  | undoEdit {oldText : Text} {older : List Text} {output : Output}
      (hcommand : args.command = "undo_edit")
      (hhistory : t.history args.path = oldText :: older) :
      Writing t faults args oldText older (.undone args.path output)

/-- What a command may do: it writes nothing, or it is one of those that write. -/
def Outcome (t : EditFileTool) (faults : Faults) (args : Arguments)
    (outcome : Except PyError Reply × EditFileTool) : Prop :=
  (∃ result, outcome = (result, t) ∧ Unwritten result) ∨
    ∃ text history reply, Writing t faults args text history reply ∧
      outcome = t.writeFile faults args.path text history reply

theorem Outcome.error (e : PyError) : Outcome t faults args (.error e, t) :=
  .inl ⟨_, rfl, Unwritten.error e⟩

theorem Outcome.refused (message : String) : Outcome t faults args (t.refuse message) :=
  .inl ⟨_, rfl, Unwritten.refused message⟩

theorem Outcome.listed (stdout : String) :
    Outcome t faults args (.ok (.listed path stdout), t) := by
  refine .inl ⟨_, rfl, ?_⟩
  intro reply h
  cases h
  rfl

theorem Outcome.viewed (output : Output) : Outcome t faults args (.ok (.viewed output), t) := by
  refine .inl ⟨_, rfl, ?_⟩
  intro reply h
  cases h
  rfl

theorem Outcome.written {text : Text} {history : List Text} {reply : Reply}
    (h : Writing t faults args text history reply) :
    Outcome t faults args (t.writeFile faults args.path text history reply) :=
  .inr ⟨_, _, _, h, rfl⟩

theorem view_outcome (viewRange : Option (List Int)) :
    Outcome t faults args (t.view faults path viewRange) := by
  unfold view
  dsimp only
  split
  · split
    · apply Outcome.refused
    · split
      · apply Outcome.refused
      · apply Outcome.listed
  · split
    · apply Outcome.error
    · split
      · apply Outcome.viewed
      · split
        · apply Outcome.refused
        · apply Outcome.viewed

theorem create_outcome (hcommand : args.command = "create")
    (habsent : t.sandbox.files args.path = none) :
    Outcome t faults args (t.create faults args.path args.fileText) := by
  unfold create
  split
  · apply Outcome.refused
  · rename_i fileText htext
    split
    · apply Outcome.refused
    · exact Outcome.written (.create hcommand htext habsent)

theorem strReplace_outcome (hcommand : args.command = "str_replace") :
    Outcome t faults args (t.strReplace faults args.path args.oldStr args.newStr) := by
  unfold strReplace
  split
  · apply Outcome.refused
  · rename_i hne
    split
    · apply Outcome.error
    · rename_i fileContent hread
      dsimp only
      split
      · apply Outcome.refused
      · split
        · apply Outcome.refused
        · split
          · apply Outcome.refused
          · cases hold : args.oldStr with
            | none => exact absurd (by rw [hold]; rfl) hne
            | some oldStr =>
              rw [hold] at hne
              rename_i hsome hseveral hdiffers
              rw [hold] at hsome hseveral
              have honce : Text.count oldStr.expandtabs fileContent.expandtabs = 1 := by
                rw [Option.getD_some] at hsome hseveral
                omega
              exact Outcome.written (.strReplace hcommand hread hold hne honce rfl)

theorem insert_outcome (hcommand : args.command = "insert") :
    Outcome t faults args (t.insert faults args.path args.insertLine args.newStr) := by
  unfold insert
  split
  · apply Outcome.refused
  · apply Outcome.refused
  · rename_i insertLine newStr hline hnew
    split
    · apply Outcome.error
    · rename_i fileText hread
      dsimp only
      split
      · apply Outcome.refused
      · rename_i hrange
        have hline : args.insertLine = some ((insertLine.toNat : Nat) : Int) := by
          rw [hline, Int.toNat_of_nonneg (by omega)]
        have hle : insertLine.toNat ≤ fileText.expandtabs.lines.length := by omega
        exact Outcome.written (.insert hcommand hread hline hnew hle rfl)

theorem undoEdit_outcome (hcommand : args.command = "undo_edit") :
    Outcome t faults args (t.undoEdit faults args.path) := by
  unfold undoEdit
  split
  · apply Outcome.refused
  · rename_i oldText older hhistory
    exact Outcome.written (.undoEdit hcommand hhistory)

theorem not_exists_of_validatePath
    (h : t.validatePath faults "create" path = .ok none) : t.sandbox.files path = none := by
  unfold validatePath at h
  split at h
  · cases h
  · split at h
    · cases h
    · split at h
      · cases h
      · split at h
        · cases h
        · rename_i hexists
          rw [Sandbox.exists?, and_iff_left rfl, Bool.not_eq_true,
            Option.isSome_eq_false_iff, Option.isNone_iff_eq_none] at hexists
          exact hexists

theorem apply_outcome (t : EditFileTool) (faults : Faults) (args : Arguments) :
    Outcome t faults args (t.apply faults args) := by
  unfold apply
  split
  · apply Outcome.error
  · split
    · apply Outcome.error
    · split
      · apply Outcome.error
      · apply Outcome.refused
      · rename_i hvalid
        split
        · apply view_outcome
        · split
          · rename_i hcommand
            rw [hcommand] at hvalid
            exact create_outcome hcommand (not_exists_of_validatePath hvalid)
          · split
            · rename_i hcommand
              exact strReplace_outcome hcommand
            · split
              · rename_i hcommand
                exact insert_outcome hcommand
              · split
                · rename_i hcommand
                  exact undoEdit_outcome hcommand
                · apply Outcome.refused

/-! ## The write -/

theorem writeFile_of_none (hfaults : faults.writeFile = none) (text : Text) (history : List Text)
    (reply : Reply) :
    t.writeFile faults path text history reply = (.ok reply, {
      sandbox := t.sandbox.write path (.utf8 text)
      history := fun other => if other = path then history else t.history other }) := by
  unfold writeFile
  rw [hfaults]

/-- What a write leaves that failed. -/
def afterFailure (t : EditFileTool) (path : String) : Option FileContent → EditFileTool
  | none => t
  | some left => { t with sandbox := t.sandbox.write path left }

theorem writeFile_of_some {e : PyError} {left : Option FileContent}
    (hfaults : faults.writeFile = some (e, left)) (text : Text) (history : List Text)
    (reply : Reply) :
    t.writeFile faults path text history reply = (.error e, t.afterFailure path left) := by
  unfold writeFile
  rw [hfaults]
  cases left with
  | none => rfl
  | some content => rfl

theorem write_files_of_ne {other : String} (h : other ≠ path) (s : Sandbox)
    (content : FileContent) : (s.write path content).files other = s.files other := if_neg h

@[simp] theorem write_files_self (s : Sandbox) (path : String) (content : FileContent) :
    (s.write path content).files path = some (.file content) := if_pos rfl

theorem writeFile_files_of_ne {other : String} (h : other ≠ path) (text : Text)
    (history : List Text) (reply : Reply) :
    (t.writeFile faults path text history reply).2.sandbox.files other =
      t.sandbox.files other := by
  cases hfaults : faults.writeFile with
  | none =>
    rw [writeFile_of_none hfaults]
    exact write_files_of_ne h _ _
  | some fault =>
    obtain ⟨e, left⟩ := fault
    rw [writeFile_of_some hfaults]
    cases left with
    | none => rfl
    | some content => exact write_files_of_ne h _ _

/-- A result that reports a write comes from a write that did not fail. -/
theorem apply_reported {reply : Reply} (hresult : t.apply faults args = (.ok reply, t'))
    (hreports : reply.reportsWrite = true) :
    ∃ text history, Writing t faults args text history reply ∧ t' = {
      sandbox := t.sandbox.write args.path (.utf8 text)
      history := fun other => if other = args.path then history else t.history other } := by
  rcases apply_outcome t faults args with ⟨result, happly, hunwritten⟩ |
    ⟨text, history, reply', hwriting, happly⟩
  · obtain ⟨rfl, rfl⟩ := Prod.mk.inj (happly.symm.trans hresult)
    exact absurd hreports (by simp [hunwritten reply rfl])
  · cases hfaults : faults.writeFile with
    | none =>
      rw [hresult, writeFile_of_none hfaults] at happly
      obtain ⟨hreply, rfl⟩ := Prod.mk.inj happly
      cases hreply
      exact ⟨text, history, hwriting, rfl⟩
    | some fault =>
      obtain ⟨e, left⟩ := fault
      rw [hresult, writeFile_of_some hfaults] at happly
      cases (Prod.mk.inj happly).1

/-- A result that reports no write leaves everything as it was, but for a write that failed. -/
theorem apply_unreported {result : Except PyError Reply}
    (hresult : t.apply faults args = (result, t')) (hunwritten : Unwritten result) :
    t' = t ∨ ∃ e left, faults.writeFile = some (e, some left) ∧
      t' = { t with sandbox := t.sandbox.write args.path left } := by
  rcases apply_outcome t faults args with ⟨result', happly, -⟩ |
    ⟨text, history, reply, hwriting, happly⟩
  · exact .inl (Prod.mk.inj (hresult.symm.trans happly)).2
  · rw [hresult] at happly
    cases hfaults : faults.writeFile with
    | none =>
      rw [writeFile_of_none hfaults] at happly
      obtain ⟨rfl, -⟩ := Prod.mk.inj happly
      have hreports := hunwritten reply rfl
      cases hwriting with
      | create _ _ _ => cases hreports
      | strReplace _ _ _ _ _ _ => cases hreports
      | insert _ _ _ _ _ _ => cases hreports
      | undoEdit _ _ => cases hreports
    | some fault =>
      obtain ⟨e, left⟩ := fault
      rw [writeFile_of_some hfaults] at happly
      cases left with
      | none => exact .inl (Prod.mk.inj happly).2
      | some content => exact .inr ⟨e, content, rfl, (Prod.mk.inj happly).2⟩

theorem apply_files_of_ne {other : String} (h : other ≠ args.path) :
    (t.apply faults args).2.sandbox.files other = t.sandbox.files other := by
  rcases apply_outcome t faults args with ⟨result, happly, -⟩ |
    ⟨text, history, reply, hwriting, happly⟩
  · rw [happly]
  · rw [happly]
    exact writeFile_files_of_ne h _ _ _

/-! ## What an edit touches -/

/-- What the editor reads of a text before it edits it. -/
def reading (text : Text) : Text := text.normalizeNewlines.expandtabs

theorem reading_eq_self_iff {text : Text} : reading text = text ↔ text.Plain :=
  Text.expandtabs_normalizeNewlines_eq_self_iff

theorem read_eq {text fileContent : Text}
    (hfile : t.sandbox.files path = some (.file (.utf8 text)))
    (h : t.read faults path = .ok fileContent) : fileContent.expandtabs = reading text := by
  unfold read at h
  rw [hfile] at h
  cases hfaults : faults.readFile with
  | none =>
    rw [hfaults] at h
    cases h
    rfl
  | some e =>
    rw [hfaults] at h
    cases h

/-- A command on a file with a text touches only what it names, in the editor's reading. -/
structure TouchesOnlyNamed (t : EditFileTool) (faults : Faults) (args : Arguments) (text : Text)
    (result : Except PyError Reply) (after : EditFileTool) : Prop where
  plain : text.Plain → reading text = text
  otherPaths : ∀ other, other ≠ args.path → after.sandbox.files other = t.sandbox.files other
  unreported : Unwritten result → after = t ∨ ∃ e left, faults.writeFile = some (e, some left) ∧
    after.sandbox.files args.path = some (.file left)
  replaced : ∀ path output advice, args.command = "str_replace" →
    result = .ok (.edited path output advice) →
      ∃ oldStr front back, args.oldStr = some oldStr ∧
        reading text = front ++ (oldStr.expandtabs ++ back) ∧
        Text.count oldStr.expandtabs (reading text) = 1 ∧
        Text.FirstAt oldStr.expandtabs front (oldStr.expandtabs ++ back) ∧
        after.sandbox.files args.path =
          some (.file (.utf8 (front ++ (newText args ++ back))))
  inserted : ∀ path output advice, args.command = "insert" →
    result = .ok (.edited path output advice) →
      ∃ (line : Nat) (newStr edited : Text), args.insertLine = some (line : Int) ∧
        args.newStr = some newStr ∧ line ≤ (reading text).lines.length ∧
        after.sandbox.files args.path = some (.file (.utf8 edited)) ∧
        edited.lines = (reading text).lines.take line ++ newStr.expandtabs.lines ++
          (reading text).lines.drop line

theorem expandtabs_ne_nil {text : Text} (h : text ≠ []) : text.expandtabs ≠ [] := by
  cases text with
  | nil => exact absurd rfl h
  | cons c cs =>
    unfold Text.expandtabs
    rw [Text.expandtabsFrom]
    split
    · simp
    · exact List.cons_ne_nil _ _

theorem lines_inserted {shown newStr : Text} (line : Nat) :
    (Text.joinLines (shown.lines.take line ++ newStr.lines ++ shown.lines.drop line)).lines =
      shown.lines.take line ++ newStr.lines ++ shown.lines.drop line := by
  apply Text.lines_joinLines
  · intro h
    have hnew := (List.append_eq_nil_iff.mp (List.append_eq_nil_iff.mp h).1).2
    exact Text.lines_ne_nil newStr hnew
  · intro one hone
    rcases List.mem_append.mp hone with hone | hone
    · rcases List.mem_append.mp hone with hone | hone
      · exact Text.not_mem_of_mem_lines (List.mem_of_mem_take hone)
      · exact Text.not_mem_of_mem_lines hone
    · exact Text.not_mem_of_mem_lines (List.mem_of_mem_drop hone)

/-- A new tool, on a sandbox with one file. -/
def onFile (path : String) (text : Text) : EditFileTool where
  sandbox := {
    files := fun other => if other = path then some (.file (.utf8 text))
      else if other = "/" then some .directory else none
    find := fun _ => .ok "" }
  history := fun _ => []

def replaceCall (oldStr newStr : Text) : Arguments where
  command := "str_replace"
  path := "/f"
  oldStr := some oldStr
  newStr := some newStr

/-- The result of an edit that has been made. -/
def Edited (result : Except PyError Reply) : Prop :=
  ∃ path output advice, result = .ok (.edited path output advice)

instance (result : Except PyError Reply) : Decidable (Edited result) :=
  match result with
  | .ok (.edited path output advice) => isTrue ⟨path, output, advice, rfl⟩
  | .ok (.viewed _) | .ok (.listed _ _) | .ok (.created _) | .ok (.undone _ _)
  | .ok (.refused _) | .error _ =>
    isFalse (by rintro ⟨_, _, _, h⟩; cases h)

end EditFileTool

end uni_agent.tools
