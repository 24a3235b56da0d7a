-- The laws of what the editor shows: every line stands under its own number, the numbers follow
-- each other, and the text that an edit brought is among them.
import UniAgent.EditFrame

namespace uni_agent.tools

/-- The output shows the lines of a text from one number to another, each under its number. -/
structure ShowsLines (output : Output) (text : Text) (first last : Nat) : Prop where
  positive : 1 ≤ first
  ordered : first ≤ last
  inside : last ≤ text.lines.length
  numbers : output.numbered.map Prod.fst = List.range' first (last + 1 - first)
  truth : ∀ shown ∈ output.numbered,
    (text.lines.map Text.expandtabs)[shown.1 - 1]? = some shown.2

namespace EditFileTool

variable {t t' : EditFileTool} {faults : Faults} {args : Arguments} {path descriptor : String}
  {text : Text} {first last : Nat}

/-! ## A slice of the lines -/

/-- The lines between two numbers. -/
def slice (text : Text) (first last : Nat) : List Text := (text.lines.take last).drop (first - 1)

theorem length_slice (hfirst : 1 ≤ first) (hinside : last ≤ text.lines.length) :
    (slice text first last).length = last + 1 - first := by
  rw [slice, List.length_drop, List.length_take]
  omega

theorem slice_ne_nil (hfirst : 1 ≤ first) (hordered : first ≤ last)
    (hinside : last ≤ text.lines.length) : slice text first last ≠ [] := by
  apply List.ne_nil_of_length_pos
  rw [length_slice hfirst hinside]
  omega

theorem lines_joinLines_slice (h : slice text first last ≠ []) :
    (Text.joinLines (slice text first last)).lines = slice text first last := by
  apply Text.lines_joinLines h
  intro line hline
  exact Text.not_mem_of_mem_lines (List.mem_of_mem_take (List.mem_of_mem_drop hline))

theorem getElem?_of_slice {i : Nat} {line : Text} (h : (slice text first last)[i]? = some line) :
    text.lines[first - 1 + i]? = some line := by
  rw [slice, List.getElem?_drop, List.getElem?_take] at h
  split at h
  · exact h
  · cases h

theorem numbered_of_not_clipped {content : Text} {initLine : Nat}
    (h : (makeOutput content descriptor initLine).clipped = false) :
    (makeOutput content descriptor initLine).numbered =
      (content.lines.map Text.expandtabs).zipIdx.map (fun line => (line.2 + initLine, line.1)) := by
  have hshort : content.length ≤ maxResponseLen := by
    rw [makeOutput] at h
    exact Nat.not_lt.mp (of_decide_eq_false h)
  rw [makeOutput, maybeTruncate, if_pos hshort, Text.lines_expandtabs]

/-- A slice that is not clipped is shown under its numbers. -/
theorem makeOutput_shows (hfirst : 1 ≤ first) (hordered : first ≤ last)
    (hinside : last ≤ text.lines.length)
    (hclipped : (makeOutput (Text.joinLines (slice text first last)) descriptor first).clipped =
      false) :
    ShowsLines (makeOutput (Text.joinLines (slice text first last)) descriptor first) text
      first last where
  positive := hfirst
  ordered := hordered
  inside := hinside
  numbers := by
    have hsplit := lines_joinLines_slice (slice_ne_nil hfirst hordered hinside)
    rw [numbered_of_not_clipped hclipped, hsplit, List.map_map]
    calc List.map (Prod.fst ∘ fun line : Text × Nat => (line.2 + first, line.1))
          ((slice text first last).map Text.expandtabs).zipIdx
        = (((slice text first last).map Text.expandtabs).zipIdx.map Prod.snd).map (first + ·) := by
          rw [List.map_map]
          apply List.map_congr_left
          intro line _
          exact Nat.add_comm _ _
      _ = List.range' first (last + 1 - first) := by
          rw [List.zipIdx_map_snd, List.map_add_range', List.length_map,
            length_slice hfirst hinside, Nat.add_zero]
  truth := by
    have hsplit := lines_joinLines_slice (slice_ne_nil hfirst hordered hinside)
    rw [numbered_of_not_clipped hclipped, hsplit]
    intro shown hshown
    obtain ⟨line, hline, rfl⟩ := List.mem_map.mp hshown
    have hat := List.mem_zipIdx_iff_getElem?.mp hline
    rw [List.getElem?_map, Option.map_eq_some_iff] at hat
    obtain ⟨raw, hraw, hexpanded⟩ := hat
    have hindex : line.2 + first - 1 = first - 1 + line.2 := by omega
    rw [List.getElem?_map, hindex, getElem?_of_slice hraw, Option.map_some, hexpanded]

/-! ## The view -/

/-- The first and the last line of a view range, of a file with some number of lines. -/
def RangeNames (viewRange : List Int) (total first last : Nat) : Prop :=
  (viewRange = [] ∧ first = 1 ∧ last = total) ∨ viewRange = [(first : Int), (last : Int)] ∨
    (viewRange = [(first : Int), -1] ∧ last = total)

theorem rangeOf_ok {viewRange : List Int} {shown : List Text}
    (h : rangeOf text.lines viewRange = .ok (first, shown)) :
    ∃ last, RangeNames viewRange text.lines.length first last ∧ 1 ≤ first ∧ first ≤ last ∧
      last ≤ text.lines.length ∧ shown = slice text first last := by
  unfold rangeOf at h
  split at h
  · rename_i initLine finalLine
    dsimp only at h
    split at h
    · cases h
    · split at h
      · cases h
      · split at h
        · cases h
        · rename_i hinit hfinal hordered
          obtain ⟨rfl, rfl⟩ := Prod.mk.inj (Except.ok.inj h)
          have hfirst : (initLine - 1).toNat = initLine.toNat - 1 := by omega
          by_cases hend : finalLine = -1
          · refine ⟨text.lines.length, .inr (.inr ⟨?_, rfl⟩), by omega, by omega, Nat.le_refl _, ?_⟩
            · rw [hend, Int.toNat_of_nonneg (by omega)]
            · rw [if_pos hend, hfirst]
              rfl
          · refine ⟨finalLine.toNat, .inr (.inl ?_), by omega, by omega, by omega, ?_⟩
            · rw [Int.toNat_of_nonneg (by omega), Int.toNat_of_nonneg (by omega)]
            · rw [if_neg hend, hfirst]
              rfl
  · cases h

theorem read_utf8 {content : Text} (h : t.read faults path = .ok content) :
    ∃ text, t.sandbox.files path = some (.file (.utf8 text)) ∧
    content = text.normalizeNewlines := by
  unfold read at h
  split at h
  · cases h
  · rename_i text _ hfile
    cases h
    exact ⟨text, hfile, rfl⟩
  · cases h
  · cases h

theorem slice_all (text : Text) : slice text 1 text.lines.length = text.lines := by
  rw [slice, List.take_length, Nat.sub_self, List.drop_zero]

theorem view_viewed {viewRange : Option (List Int)} {output : Output}
    (h : t.view faults path viewRange = (.ok (.viewed output), t')) :
    t' = t ∧ ∃ text first last, t.sandbox.files path = some (.file (.utf8 text)) ∧
      RangeNames (viewRange.getD []) text.normalizeNewlines.lines.length first last ∧
      1 ≤ first ∧ first ≤ last ∧ last ≤ text.normalizeNewlines.lines.length ∧
      output = makeOutput (Text.joinLines (slice text.normalizeNewlines first last))
          path first := by
  unfold view at h
  dsimp only at h
  split at h
  · split at h
    · cases (Prod.mk.inj h).1
    · split at h
      · cases (Prod.mk.inj h).1
      · cases (Prod.mk.inj h).1
  · split at h
    · cases (Prod.mk.inj h).1
    · rename_i content hread
      obtain ⟨text, hfile, rfl⟩ := read_utf8 hread
      split at h
      · rename_i hempty
        obtain ⟨hreply, rfl⟩ := Prod.mk.inj h
        cases hreply
        have hsome : 1 ≤ text.normalizeNewlines.lines.length :=
          List.length_pos_of_ne_nil (Text.lines_ne_nil _)
        refine ⟨rfl, text, 1, _, hfile, .inl ⟨hempty, rfl, rfl⟩, Nat.le_refl _, hsome,
          Nat.le_refl _, ?_⟩
        rw [slice_all, Text.joinLines_lines]
      · split at h
        · cases (Prod.mk.inj h).1
        · rename_i first shown hrange
          obtain ⟨last, hnames, hfirst, hordered, hinside, rfl⟩ := rangeOf_ok hrange
          obtain ⟨hreply, rfl⟩ := Prod.mk.inj h
          cases hreply
          exact ⟨rfl, text, first, last, hfile, hnames, hfirst, hordered, hinside, rfl⟩

theorem apply_view {result : Except PyError Reply} (hcommand : args.command = "view")
    (h : t.apply faults args = (result, t')) :
    t.view faults args.path args.viewRange = (result, t') ∨
      ∀ output, result ≠ .ok (.viewed output) := by
  unfold apply at h
  split at h
  · obtain ⟨rfl, -⟩ := Prod.mk.inj h
    exact .inr (by simp)
  · split at h
    · obtain ⟨rfl, -⟩ := Prod.mk.inj h
      exact .inr (by simp)
    · split at h
      · obtain ⟨rfl, -⟩ := Prod.mk.inj h
        exact .inr (by simp)
      · obtain ⟨rfl, -⟩ := Prod.mk.inj h
        exact .inr (by simp)
      · exact .inl h

/-! ## The snippet of a replacement -/

/-- The number of a line that is shown, or of an empty last line. -/
def ShownOrEmptyLast (text : Text) (first last number : Nat) : Prop :=
  (first ≤ number ∧ number ≤ last) ∨
    (number = text.lines.length ∧ text.lines.getLast? = some [])

theorem slice_min (text : Text) (first last : Nat) :
    slice text first (min last text.lines.length) = slice text first last := by
  rw [slice, slice, List.take_eq_take_min (i := last)]

theorem lines_eq_of_length_one (hone : text.lines.length = 1)
    (hempty : text.lines.getLast? = some []) : text.lines = [[]] := by
  obtain ⟨line, hline⟩ := List.length_eq_one_iff.mp hone
  rw [hline, List.getLast?_singleton] at hempty
  rw [hline, Option.some.inj hempty]

/-- What a replacement shows is a slice that holds the replacement. -/
theorem replacementSnippet_eq (fileContent oldStr newStr back : Text) {written : Text}
    (hwritten : written = Text.splitFirst oldStr fileContent ++ (newStr ++ back)) :
    ∃ first last, replacementSnippet fileContent oldStr newStr written =
        (first, Text.joinLines (slice written first last)) ∧
      1 ≤ first ∧ first ≤ last ∧ last ≤ written.lines.length ∧
      ∀ number, List.count '\n' (Text.splitFirst oldStr fileContent) < number →
        number ≤ List.count '\n' (Text.splitFirst oldStr fileContent ++ newStr) + 1 →
          ShownOrEmptyLast written first last number := by
  have htotal : written.lines.length = List.count '\n' (Text.splitFirst oldStr fileContent) +
      (List.count '\n' newStr + List.count '\n' back) + 1 := by
    rw [Text.length_lines, hwritten, List.count_append, List.count_append]
  have hsplit := Text.length_lines_le_splitlines written
  unfold replacementSnippet
  rw [List.count_append]
  dsimp only
  generalize List.count '\n' (Text.splitFirst oldStr fileContent) = before at *
  generalize List.count '\n' newStr = brought at *
  generalize List.count '\n' back = behind at *
  generalize hend : min (before + snippetLines + brought) written.splitlines.length = endLine
  have hpositive : 0 < snippetLines := by decide
  cases endLine with
  | zero =>
    -- no line for `splitlines`: the text is empty, and its one line is shown
    have hnone : written.splitlines.length = 0 := by omega
    have hempty : written.lines = [[]] := by
      rcases hsplit with hle | ⟨hlength, hlast⟩
      · omega
      · exact lines_eq_of_length_one (by omega) hlast
    have hstart : max 1 (before - snippetLines) = 1 := by
      rw [hempty, List.length_singleton] at htotal
      omega
    refine ⟨1, 1, ?_, Nat.le_refl _, Nat.le_refl _, ?_, ?_⟩
    · rw [hstart, slice, hempty]
      rfl
    · rw [hempty, List.length_singleton]
    · intro number hbefore hbrought
      rw [hempty, List.length_singleton] at htotal
      exact .inl (by omega)
  | succ endLine =>
    refine ⟨max 1 (before - snippetLines), min (endLine + 1) written.lines.length, ?_,
      Nat.le_max_left _ _, ?_, Nat.min_le_right _ _, ?_⟩
    · rw [slice_min]
      rfl
    · omega
    · intro number hbefore hbrought
      by_cases hshown : number ≤ min (endLine + 1) written.lines.length
      · exact .inl (by omega)
      · refine .inr ⟨by omega, ?_⟩
        rcases hsplit with hle | ⟨hlength, hlast⟩
        · omega
        · exact hlast

/-! ## The snippet of an insertion -/

/-- The lines around inserted ones are a slice of the lines with them. -/
theorem insertionSnippet_eq {fileLines newLines : List Text} {line : Nat}
    (hle : line ≤ fileLines.length) :
    (fileLines.take line).drop (line - snippetLines) ++ newLines ++
        (fileLines.take (line + snippetLines)).drop line =
      ((fileLines.take line ++ newLines ++ fileLines.drop line).take
        (line + newLines.length + snippetLines)).drop (line - snippetLines) := by
  have hfront : (fileLines.take line ++ newLines).length = line + newLines.length := by
    rw [List.length_append, List.length_take, Nat.min_eq_left hle]
  have htake : line - snippetLines ≤ (fileLines.take line).length := by
    rw [List.length_take]
    omega
  have hboth : line - snippetLines ≤ (fileLines.take line ++ newLines).length := by
    rw [hfront]
    omega
  rw [← hfront, List.take_length_add_append, List.drop_append_of_le_length hboth,
    List.drop_append_of_le_length htake, List.take_drop]

/-! ## The law -/

/-- Every output that is not clipped shows lines under their own numbers: a view those of its
range, an edit at least those that it brought. A view reads every line break as a line feed. -/
structure ShownTruly (t : EditFileTool) (args : Arguments) (result : Except PyError Reply)
    (after : EditFileTool) : Prop where
  viewed : ∀ output, args.command = "view" → result = .ok (.viewed output) →
    output.clipped = false →
      ∃ text first last, after = t ∧ t.sandbox.files args.path = some (.file (.utf8 text)) ∧
        RangeNames (args.viewRange.getD []) text.normalizeNewlines.lines.length first last ∧
        ShowsLines output text.normalizeNewlines first last
  replaced : ∀ path output advice, args.command = "str_replace" →
    result = .ok (.edited path output advice) → output.clipped = false →
      ∃ text oldStr front back first last,
        t.sandbox.files args.path = some (.file (.utf8 text)) ∧ args.oldStr = some oldStr ∧
        reading text = front ++ (oldStr.expandtabs ++ back) ∧
        after.sandbox.files args.path =
          some (.file (.utf8 (front ++ (newText args ++ back)))) ∧
        ShowsLines output (front ++ (newText args ++ back)) first last ∧
        ∀ number, List.count '\n' front < number →
          number ≤ List.count '\n' (front ++ newText args) + 1 →
            ShownOrEmptyLast (front ++ (newText args ++ back)) first last number
  inserted : ∀ path output advice, args.command = "insert" →
    result = .ok (.edited path output advice) → output.clipped = false →
      ∃ (line : Nat) (newStr written : Text) (first last : Nat),
        args.insertLine = some (line : Int) ∧ args.newStr = some newStr ∧
        after.sandbox.files args.path = some (.file (.utf8 written)) ∧
        (written.lines.take (line + newStr.expandtabs.lines.length)).drop line =
          newStr.expandtabs.lines ∧
        ShowsLines output written first last ∧
        ∀ number, line < number → number ≤ line + newStr.expandtabs.lines.length →
          first ≤ number ∧ number ≤ last

theorem strReplace_shows {output : Output} {advice : String}
    (hcommand : args.command = "str_replace")
    (hresult : t.apply faults args = (.ok (.edited path output advice), t'))
    (hclipped : output.clipped = false) :
    ∃ text oldStr front back first last,
      t.sandbox.files args.path = some (.file (.utf8 text)) ∧ args.oldStr = some oldStr ∧
      reading text = front ++ (oldStr.expandtabs ++ back) ∧
      t'.sandbox.files args.path = some (.file (.utf8 (front ++ (newText args ++ back)))) ∧
      ShowsLines output (front ++ (newText args ++ back)) first last ∧
      ∀ number, List.count '\n' front < number →
        number ≤ List.count '\n' (front ++ newText args) + 1 →
          ShownOrEmptyLast (front ++ (newText args ++ back)) first last number := by
  obtain ⟨written, history, hwriting, hafter⟩ := apply_reported hresult rfl
  cases hwriting with
  | insert hinsert _ _ _ _ _ => exact absurd (hcommand.symm.trans hinsert) (by decide)
  | @strReplace fileContent oldStr _ _ _ hread hold hne honce houtput =>
    obtain ⟨text, hfile, rfl⟩ := read_utf8 hread
    obtain ⟨back, hparts, hreplace, -⟩ :=
      Text.replace_of_count_eq_one (expandtabs_ne_nil hne) honce
    rw [hreplace] at houtput hafter
    obtain ⟨first, last, hsnippet, hfirst, hordered, hinside, hshown⟩ :=
      replacementSnippet_eq (reading text) oldStr.expandtabs (newText args) back rfl
    dsimp only at houtput
    rw [← reading, hsnippet] at houtput
    refine ⟨text, oldStr, _, back, first, last, hfile, hold, hparts, ?_, ?_, hshown⟩
    · rw [hafter, write_files_self]
    · rw [houtput] at hclipped ⊢
      exact makeOutput_shows hfirst hordered hinside hclipped

theorem insert_shows {output : Output} {advice : String} (hcommand : args.command = "insert")
    (hresult : t.apply faults args = (.ok (.edited path output advice), t'))
    (hclipped : output.clipped = false) :
    ∃ (line : Nat) (newStr written : Text) (first last : Nat),
      args.insertLine = some (line : Int) ∧ args.newStr = some newStr ∧
      t'.sandbox.files args.path = some (.file (.utf8 written)) ∧
      (written.lines.take (line + newStr.expandtabs.lines.length)).drop line =
        newStr.expandtabs.lines ∧
      ShowsLines output written first last ∧
      ∀ number, line < number → number ≤ line + newStr.expandtabs.lines.length →
        first ≤ number ∧ number ≤ last := by
  obtain ⟨written, history, hwriting, hafter⟩ := apply_reported hresult rfl
  cases hwriting with
  | strReplace hreplace _ _ _ _ _ => exact absurd (hcommand.symm.trans hreplace) (by decide)
  | @insert fileText newStr line _ _ _ hread hline hnew hle houtput =>
    have hlines : _ = fileText.expandtabs.lines.take line ++ newStr.expandtabs.lines ++
        fileText.expandtabs.lines.drop line := lines_inserted line
    generalize hwritten : Text.joinLines (fileText.expandtabs.lines.take line ++
      newStr.expandtabs.lines ++ fileText.expandtabs.lines.drop line) = written at *
    have hfront : (fileText.expandtabs.lines.take line).length = line := by
      rw [List.length_take, Nat.min_eq_left hle]
    have hlength : written.lines.length =
        fileText.expandtabs.lines.length + newStr.expandtabs.lines.length := by
      rw [hlines, List.length_append, List.length_append, hfront, List.length_drop]
      omega
    have hsome : 0 < newStr.expandtabs.lines.length :=
      List.length_pos_of_ne_nil (Text.lines_ne_nil _)
    have hsnippets : snippetLines = 4 := rfl
    have hfirst : max 1 (line + 1 - snippetLines) - 1 = line - snippetLines := by omega
    rw [insertionSnippet_eq hle, ← hlines, ← hfirst] at houtput
    have hslice : ((written.lines.take (line + newStr.expandtabs.lines.length + snippetLines)).drop
        (max 1 (line + 1 - snippetLines) - 1)) =
          slice written (max 1 (line + 1 - snippetLines))
            (min (line + newStr.expandtabs.lines.length + snippetLines) written.lines.length) := by
      rw [slice_min]
      rfl
    rw [hslice] at houtput
    refine ⟨line, newStr, written, max 1 (line + 1 - snippetLines),
      min (line + newStr.expandtabs.lines.length + snippetLines) written.lines.length,
      hline, hnew, ?_, ?_, ?_, ?_⟩
    · rw [hafter, write_files_self]
    · have hboth : line + newStr.expandtabs.lines.length =
          (fileText.expandtabs.lines.take line ++ newStr.expandtabs.lines).length := by
        rw [List.length_append, hfront]
      rw [hlines, hboth, List.take_left]
      exact List.drop_left' hfront
    · rw [houtput] at hclipped ⊢
      exact makeOutput_shows (Nat.le_max_left _ _) (by omega) (Nat.min_le_right _ _) hclipped
    · intro number hafterLine hbrought
      omega

theorem shown_numbers_are_true (t : EditFileTool) (faults : Faults) (args : Arguments) :
    ShownTruly t args (t.apply faults args).1 (t.apply faults args).2 where
  viewed := by
    intro output hcommand hresult hclipped
    have happly : t.apply faults args = (.ok (.viewed output), (t.apply faults args).2) :=
      Prod.ext hresult rfl
    rcases apply_view hcommand happly with hview | hnever
    · obtain ⟨hafter, text, first, last, hfile, hnames, hfirst, hordered, hinside, houtput⟩ :=
        view_viewed hview
      rw [houtput] at hclipped ⊢
      exact ⟨text, first, last, hafter, hfile, hnames,
        makeOutput_shows hfirst hordered hinside hclipped⟩
    · exact absurd rfl (hnever output)
  replaced := by
    intro path output advice hcommand hresult hclipped
    have happly : t.apply faults args =
        (.ok (.edited path output advice), (t.apply faults args).2) := Prod.ext hresult rfl
    exact strReplace_shows hcommand happly hclipped
  inserted := by
    intro path output advice hcommand hresult hclipped
    have happly : t.apply faults args =
        (.ok (.edited path output advice), (t.apply faults args).2) := Prod.ext hresult rfl
    exact insert_shows hcommand happly hclipped

def viewCall (viewRange : List Int) : Arguments where
  command := "view"
  path := "/f"
  viewRange := some viewRange

/-- A view shows the two lines of a text that `split` does not part: a carriage return is read as
a line feed. -/
theorem a_view_numbers_lines_after_a_carriage_return :
    ¬ ∀ (t : EditFileTool) (text : Text) (first last : Nat) (output : Output),
      t.sandbox.files "/f" = some (.file (.utf8 text)) →
        (t.apply {} (viewCall [first, last])).1 = .ok (.viewed output) → output.clipped = false →
          ∀ shown ∈ output.numbered,
            (text.lines.map Text.expandtabs)[shown.1 - 1]? = some shown.2 := by
  intro h
  have htruth := h (onFile "/f" ['a', '\r', 'b']) ['a', '\r', 'b'] 1 2
    { fileDescriptor := "/f", numbered := [(1, ['a']), (2, ['b'])], clipped := false }
    rfl rfl rfl (2, ['b']) (by simp)
  exact absurd htruth (by decide +kernel)

end EditFileTool

end uni_agent.tools
