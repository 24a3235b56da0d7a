-- The laws of the undo history. A session keeps beside the tool the states that its path had
-- before each edit, so that every law holds of any calls, in any order, on any paths.
import UniAgent.EditFrame

namespace uni_agent.tools.EditFileTool

variable {t t' : EditFileTool} {faults : Faults} {args : Arguments} {path : String}

/-! ## The session -/

/-- A tool, and the states of one path before each edit of it that is not undone, the newest
first. -/
structure Session where
  tool : EditFileTool
  before : List (Option Node)

/-- The states before the edits, after a call on the path. -/
def statesAfter (state : Option Node) (before : List (Option Node)) :
    Except PyError Reply → List (Option Node)
  | .ok (.created _) | .ok (.edited _ _ _) => state :: before
  | .ok (.undone _ _) => before.tail
  | .ok (.viewed _) | .ok (.listed _ _) | .ok (.refused _) | .error _ => before

def Session.step (path : String) (s : Session) (call : Faults × Arguments) : Session where
  tool := (s.tool.apply call.1 call.2).2
  before := if call.2.path = path then
      statesAfter (s.tool.sandbox.files path) s.before (s.tool.apply call.1 call.2).1
    else s.before

/-- The calls of a new tool. -/
def Session.run (path : String) (sandbox : Sandbox) (calls : List (Faults × Arguments)) : Session :=
  calls.foldl (Session.step path) { tool := { sandbox, history := fun _ => [] }, before := [] }

/-- No write leaves a part of what it writes. -/
def Faults.WritesWhole (faults : Faults) : Prop :=
  ∀ e left, faults.writeFile = some (e, left) → left = none

/-! ## The invariant -/

/-- What the tool keeps of a state: an absent file is kept as an empty text. -/
def recorded : Option Node → Text
  | some (.file (.utf8 text)) => reading text
  | some (.file (.binary _)) | some .directory | none => []

structure Tracks (path : String) (s : Session) : Prop where
  history : s.tool.history path = s.before.map recorded
  nonempty : s.before ≠ [] → path ≠ ""
  present : s.before ≠ [] → ∃ content, s.tool.sandbox.files path = some (.file content)

theorem statesAfter_of_unwritten {result : Except PyError Reply} (state : Option Node)
    (before : List (Option Node)) (h : Unwritten result) :
    statesAfter state before result = before := by
  cases result with
  | error e => rfl
  | ok reply =>
    have hreply := h reply rfl
    cases reply with
    | viewed _ => rfl
    | listed _ _ => rfl
    | refused _ => rfl
    | created _ => cases hreply
    | edited _ _ _ => cases hreply
    | undone _ _ => cases hreply

theorem path_ne_of_ok {reply : Reply} (h : t.apply faults args = (.ok reply, t')) :
    args.path ≠ "" := by
  unfold apply at h
  split at h
  · cases (Prod.mk.inj h).1
  · split at h
    · cases (Prod.mk.inj h).1
    · rename_i hpath
      exact hpath

theorem read_recorded {fileContent : Text} (h : t.read faults path = .ok fileContent) :
    recorded (t.sandbox.files path) = fileContent.expandtabs := by
  unfold read at h
  split at h
  · cases h
  · rename_i text _ hfile
    rw [hfile]
    cases h
    rfl
  · cases h
  · cases h

/-- A write keeps the history in step with the states. -/
theorem history_of_writing {text : Text} {history : List Text} {reply : Reply}
    {before : List (Option Node)} (hhistory : t.history args.path = before.map recorded)
    (h : Writing t faults args text history reply) :
    history = (statesAfter (t.sandbox.files args.path) before (.ok reply)).map recorded := by
  cases h with
  | create _ _ habsent =>
    rw [statesAfter, List.map_cons, habsent, hhistory]
    rfl
  | strReplace _ hread _ _ _ _ =>
    rw [statesAfter, List.map_cons, read_recorded hread, hhistory]
  | insert _ hread _ _ _ _ =>
    rw [statesAfter, List.map_cons, read_recorded hread, hhistory]
  | undoEdit _ hundo =>
    rw [statesAfter, List.map_tail, ← hhistory, hundo]
    rfl

theorem tracks_step {s : Session} {call : Faults × Arguments} (hwhole : Faults.WritesWhole call.1)
    (h : Tracks path s) : Tracks path (s.step path call) := by
  obtain ⟨faults, args⟩ := call
  unfold Session.step
  dsimp only
  rcases apply_outcome s.tool faults args with ⟨result, happly, hunwritten⟩ |
    ⟨text, history, reply, hwriting, happly⟩
  · rw [happly]
    dsimp only
    rw [statesAfter_of_unwritten _ _ hunwritten, ite_self]
    exact h
  · cases hfaults : faults.writeFile with
    | some fault =>
      obtain ⟨e, left⟩ := fault
      rw [hwhole e left hfaults] at hfaults
      rw [happly, writeFile_of_some hfaults]
      dsimp only
      rw [statesAfter, ite_self]
      exact h
    | none =>
      rw [writeFile_of_none hfaults] at happly
      have hpath := path_ne_of_ok happly
      rw [happly]
      dsimp only
      by_cases hon : args.path = path
      · subst hon
        rw [if_pos rfl]
        refine ⟨?_, ?_, ?_⟩
        · dsimp only
          rw [if_pos rfl]
          exact history_of_writing h.history hwriting
        · intro _
          exact hpath
        · intro _
          exact ⟨_, write_files_self _ _ _⟩
      · rw [if_neg hon]
        refine ⟨?_, h.nonempty, ?_⟩
        · dsimp only
          rw [if_neg (Ne.symm hon)]
          exact h.history
        · dsimp only
          rw [write_files_of_ne (Ne.symm hon)]
          exact h.present

theorem tracks_run (sandbox : Sandbox) (path : String) {calls : List (Faults × Arguments)}
    (hwhole : ∀ call ∈ calls, Faults.WritesWhole call.1) :
    Tracks path (Session.run path sandbox calls) := by
  unfold Session.run
  have hstart : Tracks path { tool := { sandbox, history := fun _ => [] }, before := [] } := by
    refine ⟨rfl, ?_, ?_⟩
    · intro hne
      exact absurd rfl hne
    · intro hne
      exact absurd rfl hne
  revert hstart
  generalize ({ tool := _, before := [] } : Session) = s
  induction calls generalizing s with
  | nil =>
    intro hs
    exact hs
  | cons call rest ih =>
    intro hs
    rw [List.foldl_cons]
    apply ih
    · intro later hlater
      exact hwhole later (List.mem_cons_of_mem _ hlater)
    · exact tracks_step (hwhole call List.mem_cons_self) hs

/-! ## The undos -/

def undoCall (path : String) : Arguments where
  command := "undo_edit"
  path := path

/-- One undo whose calls of the sandbox all succeed. -/
def undo (path : String) (t : EditFileTool) : Except PyError Reply × EditFileTool :=
  t.apply {} (undoCall path)

def undone (path : String) : Nat → EditFileTool → EditFileTool
  | 0, t => t
  | count + 1, t => undone path count (undo path t).2

theorem validatePath_undo {content : FileContent}
    (hfile : t.sandbox.files path = some (.file content)) :
    t.validatePath {} "undo_edit" path = .ok none := by
  unfold validatePath Sandbox.exists? Sandbox.isDir
  rw [hfile]
  rfl

theorem undo_eq {content : FileContent} (hpath : path ≠ "")
    (hfile : t.sandbox.files path = some (.file content)) :
    undo path t = t.undoEdit {} path := by
  unfold undo apply
  rw [if_neg (show ¬ (undoCall path).command = "" by simp [undoCall])]
  rw [if_neg (show ¬ (undoCall path).path = "" from hpath)]
  rw [show t.validatePath {} (undoCall path).command (undoCall path).path = .ok none from
    validatePath_undo hfile]
  rfl

theorem undo_of_cons {oldText : Text} {older : List Text} {content : FileContent}
    (hpath : path ≠ "") (hfile : t.sandbox.files path = some (.file content))
    (hhistory : t.history path = oldText :: older) :
    undo path t = (.ok (.undone path (makeOutput oldText path 1)), {
      sandbox := t.sandbox.write path (.utf8 oldText)
      history := fun other => if other = path then older else t.history other }) := by
  rw [undo_eq hpath hfile, undoEdit, hhistory]
  exact writeFile_of_none rfl _ _ _

theorem undo_of_nil (hhistory : t.history path = []) :
    (undo path t).2 = t ∧ Unwritten (undo path t).1 := by
  unfold undo
  rcases apply_outcome t {} (undoCall path) with ⟨result, happly, hunwritten⟩ |
    ⟨text, history, reply, hwriting, -⟩
  · rw [happly]
    exact ⟨rfl, hunwritten⟩
  · cases hwriting with
    | create hcommand _ _ => exact absurd hcommand (by simp [undoCall])
    | strReplace hcommand _ _ _ _ _ => exact absurd hcommand (by simp [undoCall])
    | insert hcommand _ _ _ _ _ => exact absurd hcommand (by simp [undoCall])
    | undoEdit _ hcons =>
      rw [show t.history (undoCall path).path = [] from hhistory] at hcons
      cases hcons

/-- The file after some undos is the text that the last of them took from the history. -/
theorem undone_of_history {texts : List Text} {content : FileContent} {count : Nat}
    (hpath : path ≠ "") (hfile : t.sandbox.files path = some (.file content))
    (hhistory : t.history path = texts) (hcount : count ≤ texts.length) :
    (undone path count t).history path = texts.drop count ∧
      some ((undone path count t).sandbox.files path) =
        (t.sandbox.files path :: texts.map (fun text => some (.file (.utf8 text))))[count]? ∧
      ∃ content, (undone path count t).sandbox.files path = some (.file content) := by
  induction count generalizing t texts content with
  | zero => exact ⟨hhistory, rfl, content, hfile⟩
  | succ count ih =>
    cases texts with
    | nil => cases hcount
    | cons oldText older =>
      have hundo := undo_of_cons hpath hfile hhistory
      have hfile' : (undo path t).2.sandbox.files path = some (.file (.utf8 oldText)) := by
        rw [hundo]
        exact write_files_self _ _ _
      have hhistory' : (undo path t).2.history path = older := by
        rw [hundo]
        exact if_pos rfl
      obtain ⟨hdrop, hstate, hcontent⟩ :=
        ih hfile' hhistory' (Nat.le_of_succ_le_succ hcount)
      refine ⟨hdrop, ?_, hcontent⟩
      rw [undone, hstate, hfile', List.getElem?_cons_succ]
      rfl

/-! ## The laws -/

/-- After any number of undos the path is in the state that it had before that many edits. -/
def RevertsExactly (path : String) (s : Session) : Prop :=
  ∀ count ≤ s.before.length, some ((undone path count s.tool).sandbox.files path) =
    (s.tool.sandbox.files path :: s.before)[count]?

/-- A state that the editor can write back: a text as the editor reads it. -/
def Restorable (state : Option Node) : Prop := ∃ text : Text, state = some (.file (.utf8 text)) ∧
  text.Plain

theorem written_recorded_iff {state : Option Node} :
    some (.file (.utf8 (recorded state))) = state ↔ Restorable state := by
  refine ⟨?_, ?_⟩
  · intro h
    refine ⟨recorded state, h.symm, ?_⟩
    rw [← reading_eq_self_iff]
    conv_rhs => rw [← h, recorded]
  · rintro ⟨text, rfl, hplain⟩
    rw [recorded, reading_eq_self_iff.mpr hplain]

/-- Up to as many undos as edits the history is used up from its newest text on. -/
theorem Tracks.undone {s : Session} (h : Tracks path s) (hne : s.before ≠ []) {count : Nat}
    (hcount : count ≤ s.before.length) :
    (undone path count s.tool).history path = (s.before.map recorded).drop count ∧
      some ((undone path count s.tool).sandbox.files path) =
        (s.tool.sandbox.files path ::
          s.before.map (fun state => some (.file (.utf8 (recorded state)))))[count]? ∧
      ∃ content, (undone path count s.tool).sandbox.files path = some (.file content) := by
  obtain ⟨content, hfile⟩ := h.present hne
  have hlength : count ≤ (s.before.map recorded).length := by
    rw [List.length_map]
    exact hcount
  obtain ⟨hhistory, hstate, hcontent⟩ :=
    undone_of_history (h.nonempty hne) hfile h.history hlength
  rw [List.map_map] at hstate
  exact ⟨hhistory, hstate, hcontent⟩

/-- The states that the history can give back are those that are restorable. -/
theorem revertsExactly_iff {s : Session} (h : Tracks path s) :
    RevertsExactly path s ↔ ∀ state ∈ s.before, Restorable state := by
  have hwritten : ∀ count ≤ s.before.length,
      some ((undone path count s.tool).sandbox.files path) =
        (s.tool.sandbox.files path ::
          s.before.map (fun state => some (.file (.utf8 (recorded state)))))[count]? := by
    intro count hcount
    by_cases hne : s.before = []
    · rw [hne] at hcount
      rw [Nat.le_zero.mp hcount]
      rfl
    · exact (h.undone hne hcount).2.1
  refine ⟨?_, ?_⟩
  · intro hreverts state hstate
    obtain ⟨i, hi, rfl⟩ := List.getElem_of_mem hstate
    have hat := (hreverts (i + 1) hi).symm.trans (hwritten (i + 1) hi)
    rw [List.getElem?_cons_succ, List.getElem?_cons_succ, List.getElem?_map,
      List.getElem?_eq_getElem hi, Option.map_some] at hat
    exact written_recorded_iff.mp (Option.some.inj hat).symm
  · intro hall count hcount
    rw [hwritten count hcount]
    have hsame : s.before.map (fun state => some (.file (.utf8 (recorded state)))) = s.before := by
      conv_rhs => rw [← List.map_id s.before]
      apply List.map_congr_left
      intro state hstate
      exact written_recorded_iff.mpr (hall state hstate)
    rw [hsame]

/-- An undo that succeeds. -/
def Undone (result : Except PyError Reply) : Prop :=
  ∃ path output, result = .ok (.undone path output)

/-- Each edit can be undone once, and then there is no history. -/
theorem undone_iff {s : Session} (h : Tracks path s) {count : Nat}
    (hcount : count ≤ s.before.length) :
    Undone (undo path (undone path count s.tool)).1 ↔ count < s.before.length := by
  by_cases hnone : s.before.length ≤ count
  · have hempty : (EditFileTool.undone path count s.tool).history path = [] := by
      by_cases hne : s.before = []
      · rw [hne] at hcount
        rw [Nat.le_zero.mp hcount]
        exact h.history.trans (by rw [hne]; rfl)
      · rw [(h.undone hne hcount).1, List.drop_eq_nil_of_le (by rw [List.length_map]; exact hnone)]
    refine ⟨?_, ?_⟩
    · rintro ⟨path', output, hundone⟩
      exact absurd ((undo_of_nil hempty).2 _ hundone) (by simp [Reply.reportsWrite])
    · intro hlt
      exact absurd hnone (Nat.not_le_of_lt hlt)
  · have hlt : count < s.before.length := Nat.lt_of_not_le hnone
    have hne : s.before ≠ [] := List.ne_nil_of_length_pos (Nat.zero_lt_of_lt hlt)
    obtain ⟨hhistory, -, content, hfile⟩ := h.undone hne hcount
    have hget : count < (s.before.map recorded).length := by
      rw [List.length_map]
      exact hlt
    rw [List.drop_eq_getElem_cons hget] at hhistory
    refine ⟨fun _ => hlt, fun _ => ?_⟩
    rw [undo_of_cons (h.nonempty hne) hfile hhistory]
    exact ⟨_, _, rfl⟩

/-- After as many undos as edits, the reply names the empty history. -/
theorem undo_refused {s : Session} (h : Tracks path s) (hne : s.before ≠ []) :
    (undo path (undone path s.before.length s.tool)).1 =
      .ok (.refused ("No edit history found for " ++ path ++ ".")) := by
  obtain ⟨hhistory, -, content, hfile⟩ := h.undone hne (Nat.le_refl _)
  rw [List.drop_eq_nil_of_le (by rw [List.length_map])] at hhistory
  rw [undo_eq (h.nonempty hne) hfile, undoEdit, hhistory]
  rfl

/-- A call on the path that edits it. -/
def IsEdit (path : String) (s : Session) (call : Faults × Arguments) : Prop :=
  call.2.path = path ∧ ∃ reply, (s.tool.apply call.1 call.2).1 = .ok reply ∧
    reply.reportsWrite = true ∧ ∀ path' output, reply ≠ .undone path' output

/-- Calls that all edit the path. -/
def AllEdits (path : String) : Session → List (Faults × Arguments) → Prop
  | _, [] => True
  | s, call :: rest => IsEdit path s call ∧ AllEdits path (s.step path call) rest

theorem length_before_step {s : Session} {call : Faults × Arguments} (h : IsEdit path s call) :
    (s.step path call).before.length = s.before.length + 1 := by
  obtain ⟨hpath, reply, hresult, hreports, hundone⟩ := h
  unfold Session.step
  dsimp only
  rw [if_pos hpath, hresult]
  cases reply with
  | created _ => rfl
  | edited _ _ _ => rfl
  | undone path' output => exact absurd rfl (hundone path' output)
  | viewed _ => cases hreports
  | listed _ _ => cases hreports
  | refused _ => cases hreports

theorem length_before_foldl {s : Session} {calls : List (Faults × Arguments)}
    (h : AllEdits path s calls) :
    (calls.foldl (Session.step path) s).before.length = s.before.length + calls.length := by
  induction calls generalizing s with
  | nil => rfl
  | cons call rest ih =>
    rw [List.foldl_cons, ih h.2, length_before_step h.1, List.length_cons]
    omega

/-- In every session the undos are as many as the edits, and they give back the states before
them exactly when all these are texts as the editor reads them: no absent file, no tab and no
carriage return. -/
theorem undo_reverts_exactly_iff (sandbox : Sandbox) (path : String)
    (calls : List (Faults × Arguments)) (hwhole : ∀ call ∈ calls, Faults.WritesWhole call.1) :
    (AllEdits path (Session.run path sandbox []) calls →
      (Session.run path sandbox calls).before.length = calls.length) ∧
    (∀ count ≤ (Session.run path sandbox calls).before.length,
      (Undone (undo path (undone path count (Session.run path sandbox calls).tool)).1 ↔
        count < (Session.run path sandbox calls).before.length)) ∧
    ((Session.run path sandbox calls).before ≠ [] →
      (undo path (undone path (Session.run path sandbox calls).before.length
        (Session.run path sandbox calls).tool)).1 =
          .ok (.refused ("No edit history found for " ++ path ++ "."))) ∧
    (RevertsExactly path (Session.run path sandbox calls) ↔
      ∀ state ∈ (Session.run path sandbox calls).before, Restorable state) := by
  have htracks := tracks_run sandbox path hwhole
  refine ⟨?_, ?_, ?_, ?_⟩
  · intro hedits
    exact (length_before_foldl hedits).trans (Nat.zero_add _)
  · intro count hcount
    exact undone_iff htracks hcount
  · exact undo_refused htracks
  · exact revertsExactly_iff htracks

def createCall (fileText : Text) : Arguments where
  command := "create"
  path := "/g"
  fileText := some fileText

/-- A session with a file of two lines. -/
def oneEdit : Session := Session.run "/f" (onFile "/f" ['a', '\n', 'b']).sandbox
  [({}, replaceCall ['b'] ['c'])]

theorem undo_reverts_exactly_iff_oneEdit :
    oneEdit.before = [some (.file (.utf8 ['a', '\n', 'b']))] ∧ RevertsExactly "/f" oneEdit := by
  have hbefore : oneEdit.before = [some (.file (.utf8 ['a', '\n', 'b']))] := by decide +kernel
  refine ⟨hbefore, ?_⟩
  apply (undo_reverts_exactly_iff (onFile "/f" ['a', '\n', 'b']).sandbox "/f"
    [({}, replaceCall ['b'] ['c'])] ?_).2.2.2.mpr
  · intro state hstate
    rw [show (Session.run "/f" _ _).before = _ from hbefore, List.mem_singleton] at hstate
    exact ⟨_, hstate, by decide⟩
  · intro call hcall e left hfaults
    rw [List.mem_singleton.mp hcall] at hfaults
    cases hfaults

/-- To undo a `create` leaves an empty file, and to undo the edit of a file with a tab leaves
spaces for the tab. -/
theorem an_undone_create_leaves_an_empty_file :
    (¬ RevertsExactly "/g" (Session.run "/g" (onFile "/f" []).sandbox [({}, createCall ['a'])])) ∧
      ¬ RevertsExactly "/f" (Session.run "/f" (onFile "/f" ['\t', '\n', 'b']).sandbox
        [({}, replaceCall ['b'] ['c'])]) := by
  refine ⟨?_, ?_⟩
  · intro h
    exact absurd (h 1 (by decide +kernel)) (by decide +kernel)
  · intro h
    exact absurd (h 1 (by decide +kernel)) (by decide +kernel)

end uni_agent.tools.EditFileTool
