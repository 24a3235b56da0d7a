-- Python's text methods on lists of characters: `replace`, `count`, `expandtabs`, `splitlines`
-- and `split` on a newline, with their laws. A text is split on newlines by `List.splitOn`.
import Mathlib.Data.List.Infix

namespace uni_agent

/-- The characters of a text. -/
abbrev Text : Type := List Char

namespace Text

/-! ## Occurrences -/

/-- `text.replace(old, new)` for an `old` that is not empty, after `skip` more characters of the
last occurrence. -/
def replaceFrom (old new : Text) : Nat → Text → Text
  | _, [] => []
  | skip + 1, _ :: cs => replaceFrom old new skip cs
  | 0, c :: cs =>
    if old.isPrefixOf (c :: cs) then new ++ replaceFrom old new (old.length - 1) cs
    else c :: replaceFrom old new 0 cs

def replace (old new text : Text) : Text := replaceFrom old new 0 text

/-- `text.count(old)`, likewise. -/
def countFrom (old : Text) : Nat → Text → Nat
  | _, [] => 0
  | skip + 1, _ :: cs => countFrom old skip cs
  | 0, c :: cs =>
    if old.isPrefixOf (c :: cs) then countFrom old (old.length - 1) cs + 1
    else countFrom old 0 cs

def count (old text : Text) : Nat := countFrom old 0 text

/-- `text.split(old)[0]`: what stands before the first occurrence. -/
def splitFirst (old : Text) : Text → Text
  | [] => []
  | c :: cs => if old.isPrefixOf (c :: cs) then [] else c :: splitFirst old cs

/-- `old in text` -/
def contains (old text : Text) : Bool := text.tails.any (fun tail => old.isPrefixOf tail)

variable {old new text front back : Text}

theorem contains_iff : contains old text = true ↔ old <:+: text := by
  unfold contains
  rw [List.any_eq_true, List.infix_iff_prefix_suffix]
  refine ⟨?_, ?_⟩
  · rintro ⟨tail, htail, hprefix⟩
    exact ⟨tail, List.isPrefixOf_iff_prefix.mp hprefix, (List.mem_tails _ _).mp htail⟩
  · rintro ⟨tail, hprefix, hsuffix⟩
    exact ⟨tail, (List.mem_tails _ _).mpr hsuffix, List.isPrefixOf_iff_prefix.mpr hprefix⟩

theorem countFrom_cons (old : Text) (c : Char) (cs : Text) :
    countFrom old 0 (c :: cs) = if old.isPrefixOf (c :: cs) then
      countFrom old (old.length - 1) cs + 1 else countFrom old 0 cs := by
  rw [countFrom]

theorem replaceFrom_cons (old new : Text) (c : Char) (cs : Text) :
    replaceFrom old new 0 (c :: cs) = if old.isPrefixOf (c :: cs) then
      new ++ replaceFrom old new (old.length - 1) cs else c :: replaceFrom old new 0 cs := by
  rw [replaceFrom]

theorem countFrom_skip (old : Text) {front : Text} (back : Text) :
    countFrom old front.length (front ++ back) = countFrom old 0 back := by
  induction front with
  | nil => rfl
  | cons c front ih => exact ih

theorem replaceFrom_skip (old new : Text) {front : Text} (back : Text) :
    replaceFrom old new front.length (front ++ back) = replaceFrom old new 0 back := by
  induction front with
  | nil => rfl
  | cons c front ih => exact ih

theorem replace_of_count_eq_zero (h : count old text = 0) : replace old new text = text := by
  unfold count at h
  unfold replace
  induction text with
  | nil => rfl
  | cons c cs ih =>
    rw [countFrom_cons] at h
    rw [replaceFrom_cons]
    split
    · rename_i hfound
      rw [if_pos hfound] at h
      cases h
    · rename_i hfound
      rw [if_neg hfound] at h
      rw [ih h]

/-- `old` is found nowhere before the end of `front`. -/
def FirstAt (old front back : Text) : Prop :=
  ∀ before after, before ++ after = front → after ≠ [] → ¬ old <+: after ++ back

/-- A text with an occurrence, up to the first one. -/
theorem splitFirst_of_count_pos (hold : old ≠ []) (h : 0 < count old text) :
    ∃ back, text = splitFirst old text ++ (old ++ back) ∧
      count old text = count old back + 1 ∧
      (∀ new, replace old new text = splitFirst old text ++ (new ++ replace old new back)) ∧
      FirstAt old (splitFirst old text) (old ++ back) := by
  unfold count replace at *
  induction text with
  | nil => cases h
  | cons c cs ih =>
    unfold splitFirst
    by_cases hfound : old.isPrefixOf (c :: cs) = true
    · obtain ⟨back, hback⟩ := List.isPrefixOf_iff_prefix.mp hfound
      cases old with
      | nil => exact absurd rfl hold
      | cons o rest =>
        obtain ⟨rfl, rfl⟩ := List.cons.inj hback
        refine ⟨back, ?_, ?_, ?_, ?_⟩
        · rw [if_pos hfound]
          rfl
        · rw [countFrom_cons, if_pos hfound]
          exact congrArg (· + 1) (countFrom_skip _ back)
        · intro new
          rw [if_pos hfound, replaceFrom_cons, if_pos hfound]
          exact congrArg (new ++ ·) (replaceFrom_skip _ new back)
        · rw [if_pos hfound]
          intro before after hempty hne
          exact absurd (List.append_eq_nil_iff.mp hempty).2 hne
    · rw [countFrom_cons, if_neg hfound] at h
      obtain ⟨back, hcs, hcount, hreplace, hfirst⟩ := ih h
      refine ⟨back, ?_, ?_, ?_, ?_⟩
      · rw [if_neg hfound, List.cons_append, ← hcs]
      · rw [countFrom_cons, if_neg hfound]
        exact hcount
      · intro new
        rw [if_neg hfound, replaceFrom_cons, if_neg hfound, hreplace new]
        rfl
      · rw [if_neg hfound]
        intro before after hparts hne hat
        cases before with
        | nil =>
          rw [List.nil_append] at hparts
          rw [hparts, List.cons_append, ← hcs] at hat
          exact hfound (List.isPrefixOf_iff_prefix.mpr hat)
        | cons d before =>
          obtain ⟨rfl, hrest⟩ := List.cons.inj hparts
          exact hfirst before after hrest hne hat

/-- A text with one occurrence is replaced at it. -/
theorem replace_of_count_eq_one (hold : old ≠ []) (h : count old text = 1) :
    ∃ back, text = splitFirst old text ++ (old ++ back) ∧
      (∀ new, replace old new text = splitFirst old text ++ (new ++ back)) ∧
      FirstAt old (splitFirst old text) (old ++ back) := by
  have hpositive : 0 < count old text := by omega
  obtain ⟨back, htext, hcount, hreplace, hfirst⟩ := splitFirst_of_count_pos hold hpositive
  refine ⟨back, htext, ?_, hfirst⟩
  intro new
  rw [hreplace new, replace_of_count_eq_zero (by omega)]

/-! ## Newlines and tabs -/

/-- `text.replace("\r\n", "\n").replace("\r", "\n")` -/
def normalizeNewlines (text : Text) : Text :=
  replace ['\r'] ['\n'] (replace ['\r', '\n'] ['\n'] text)

/-- `text.expandtabs()`, from a column on. -/
def expandtabsFrom : Nat → Text → Text
  | _, [] => []
  | column, c :: cs =>
    if c = '\t' then
      List.replicate (8 - column % 8) ' ' ++ expandtabsFrom (column + (8 - column % 8)) cs
    else c :: expandtabsFrom (if c = '\n' ∨ c = '\r' then 0 else column + 1) cs

def expandtabs (text : Text) : Text := expandtabsFrom 0 text

/-- A text that the editor leaves as it is. -/
def Plain (text : Text) : Prop := '\t' ∉ text ∧ '\r' ∉ text

instance (text : Text) : Decidable (Plain text) := inferInstanceAs (Decidable (_ ∧ _))

theorem expandtabsFrom_of_not_mem (column : Nat) (h : '\t' ∉ text) :
    expandtabsFrom column text = text := by
  induction text generalizing column with
  | nil => rfl
  | cons c cs ih =>
    rw [List.mem_cons, not_or] at h
    rw [expandtabsFrom, if_neg (Ne.symm h.1), ih _ h.2]

theorem not_mem_expandtabsFrom (column : Nat) (text : Text) :
    '\t' ∉ expandtabsFrom column text := by
  induction text generalizing column with
  | nil => simp [expandtabsFrom]
  | cons c cs ih =>
    rw [expandtabsFrom]
    by_cases hc : c = '\t'
    · rw [if_pos hc, List.mem_append, not_or]
      refine ⟨?_, ih _⟩
      intro hspace
      exact absurd (List.eq_of_mem_replicate hspace) (by decide)
    · rw [if_neg hc, List.mem_cons, not_or]
      exact ⟨Ne.symm hc, ih _⟩

theorem not_mem_expandtabs (text : Text) : '\t' ∉ expandtabs text := not_mem_expandtabsFrom 0 text

theorem expandtabs_of_not_mem (h : '\t' ∉ text) : expandtabs text = text :=
  expandtabsFrom_of_not_mem 0 h

@[simp] theorem expandtabs_expandtabs (text : Text) :
    expandtabs (expandtabs text) = expandtabs text :=
  expandtabs_of_not_mem (not_mem_expandtabs text)

/-- Only tabs are expanded. -/
theorem mem_expandtabsFrom {c : Char} (hspace : c ≠ ' ') (htab : c ≠ '\t') (column : Nat)
    (text : Text) : c ∈ expandtabsFrom column text ↔ c ∈ text := by
  induction text generalizing column with
  | nil => rfl
  | cons d cs ih =>
    rw [expandtabsFrom]
    by_cases hd : d = '\t'
    · subst hd
      rw [if_pos rfl, List.mem_append, ih, List.mem_cons]
      simp [htab, hspace]
    · rw [if_neg hd, List.mem_cons, List.mem_cons, ih]

theorem replace_of_not_mem {c : Char} (h : c ∉ text) (rest new : Text) :
    replace (c :: rest) new text = text := by
  unfold replace
  induction text with
  | nil => rfl
  | cons d cs ih =>
    rw [List.mem_cons, not_or] at h
    rw [replaceFrom_cons, if_neg (by simp [h.1]), ih h.2]

theorem normalizeNewlines_of_not_mem (h : '\r' ∉ text) : normalizeNewlines text = text := by
  unfold normalizeNewlines
  rw [replace_of_not_mem h, replace_of_not_mem h]

theorem not_mem_replace {c : Char} {new : Text} (hnew : c ∉ new) (text : Text) :
    c ∉ replace [c] new text := by
  unfold replace
  induction text with
  | nil => simp [replaceFrom]
  | cons d cs ih =>
    rw [replaceFrom_cons]
    split
    · rw [List.mem_append, not_or]
      exact ⟨hnew, ih⟩
    · rename_i hfound
      rw [List.mem_cons, not_or]
      refine ⟨?_, ih⟩
      rintro rfl
      simp at hfound

theorem not_mem_normalizeNewlines (text : Text) : '\r' ∉ normalizeNewlines text :=
  not_mem_replace (by decide) _

/-- The text that the editor reads. -/
theorem expandtabs_normalizeNewlines_eq_self_iff :
    expandtabs (normalizeNewlines text) = text ↔ Plain text := by
  refine ⟨?_, ?_⟩
  · intro h
    refine ⟨?_, ?_⟩
    · rw [← h]
      exact not_mem_expandtabs _
    · rw [← h]
      unfold expandtabs
      rw [mem_expandtabsFrom (by decide) (by decide)]
      exact not_mem_normalizeNewlines text
  · rintro ⟨htab, hreturn⟩
    rw [normalizeNewlines_of_not_mem hreturn, expandtabs_of_not_mem htab]

/-! ## Lines -/

/-- `text.split("\n")` -/
def lines (text : Text) : List Text := text.splitOn '\n'

/-- `"\n".join(lines)` -/
def joinLines (lines : List Text) : Text := ['\n'].intercalate lines

/-- The characters that end a line for `splitlines`. -/
def isLineBreak (c : Char) : Bool :=
  c == '\n' || c == '\r' || [0x0b, 0x0c, 0x1c, 0x1d, 0x1e, 0x85, 0x2028, 0x2029].contains c.toNat

/-- A character in front of the first line. -/
def consLine (c : Char) : List Text → List Text
  | [] => [[c]]
  | line :: rest => (c :: line) :: rest

/-- `text.splitlines()`. A line feed behind a carriage return ends no line of its own. -/
def splitlines : Text → List Text
  | [] => []
  | '\r' :: '\n' :: cs => [] :: splitlines cs
  | c :: cs => if isLineBreak c then [] :: splitlines cs else consLine c (splitlines cs)

theorem lines_ne_nil (text : Text) : lines text ≠ [] := List.splitOn_ne_nil _ _

@[simp] theorem joinLines_lines (text : Text) : joinLines (lines text) = text :=
  List.intercalate_splitOn _

theorem lines_joinLines {ls : List Text} (hne : ls ≠ []) (h : ∀ line ∈ ls, '\n' ∉ line) :
    lines (joinLines ls) = ls :=
  List.splitOn_intercalate _ h hne

theorem lines_cons (c : Char) (text : Text) :
    lines (c :: text) =
      if c = '\n' then [] :: lines text else (lines text).modifyHead (c :: ·) := by
  unfold lines
  rw [List.splitOn_cons_eq_if_modifyHead]
  simp

theorem not_mem_of_mem_lines {line : Text} (h : line ∈ lines text) : '\n' ∉ line := by
  induction text generalizing line with
  | nil =>
    rw [lines, List.splitOn_nil, List.mem_singleton] at h
    simp [h]
  | cons c cs ih =>
    rw [lines_cons] at h
    by_cases hc : c = '\n'
    · rw [if_pos hc] at h
      rcases List.mem_cons.mp h with rfl | h
      · simp
      · exact ih h
    · rw [if_neg hc] at h
      cases hlines : lines cs with
      | nil => exact absurd hlines (lines_ne_nil cs)
      | cons first rest =>
        rw [hlines, List.modifyHead_cons] at h
        rcases List.mem_cons.mp h with rfl | h
        · rw [List.mem_cons, not_or]
          exact ⟨Ne.symm hc, ih (by rw [hlines]; exact List.mem_cons_self)⟩
        · exact ih (by rw [hlines]; exact List.mem_cons_of_mem _ h)

theorem length_lines (text : Text) : (lines text).length = List.count '\n' text + 1 := by
  induction text with
  | nil => rfl
  | cons c cs ih =>
    rw [lines_cons]
    by_cases hc : c = '\n'
    · rw [if_pos hc, List.length_cons, ih, hc, List.count_cons_self]
    · rw [if_neg hc, List.length_modifyHead, ih, List.count_cons_of_ne hc]

theorem lines_replicate_append (count : Nat) (text : Text) :
    lines (List.replicate count ' ' ++ text) =
      (lines text).modifyHead (List.replicate count ' ' ++ ·) := by
  induction count with
  | zero =>
    cases hlines : lines text with
    | nil => exact absurd hlines (lines_ne_nil text)
    | cons first rest => exact hlines
  | succ count ih =>
    rw [List.replicate_succ, List.cons_append, lines_cons, if_neg (by decide), ih,
      List.modifyHead_modifyHead]
    rfl

/-- Tabs are expanded line by line: a line feed starts the columns anew. -/
theorem lines_expandtabsFrom (column : Nat) (text : Text) :
    lines (expandtabsFrom column text) =
      match lines text with
      | [] => []
      | first :: rest => expandtabsFrom column first :: rest.map expandtabs := by
  induction text generalizing column with
  | nil => rfl
  | cons c cs ih =>
    rw [expandtabsFrom, lines_cons]
    cases hlines : lines cs with
    | nil => exact absurd hlines (lines_ne_nil cs)
    | cons first rest =>
      by_cases htab : c = '\t'
      · subst htab
        rw [if_pos rfl, lines_replicate_append, ih, hlines, if_neg (by decide)]
        simp [expandtabsFrom]
      · rw [if_neg htab, lines_cons, ih, hlines]
        by_cases hline : c = '\n'
        · subst hline
          rw [if_pos rfl, if_pos rfl]
          rfl
        · rw [if_neg hline, if_neg hline]
          simp [expandtabsFrom, htab]

theorem lines_expandtabs (text : Text) : lines (expandtabs text) = (lines text).map expandtabs := by
  unfold expandtabs
  rw [lines_expandtabsFrom]
  cases hlines : lines text with
  | nil => exact absurd hlines (lines_ne_nil text)
  | cons first rest => rfl

/-- `splitlines` finds every line but an empty last one. -/
theorem length_lines_le_splitlines (text : Text) :
    (lines text).length ≤ (splitlines text).length ∨
      (lines text).length = (splitlines text).length + 1 ∧ (lines text).getLast? = some [] := by
  fun_induction splitlines text with
  | case1 => exact .inr ⟨rfl, rfl⟩
  | case2 cs ih =>
    rw [lines_cons, if_neg (by decide), lines_cons, if_pos rfl]
    cases hlines : lines cs with
    | nil => exact absurd hlines (lines_ne_nil cs)
    | cons first rest =>
      rw [hlines] at ih
      simpa using ih
  | case3 c cs _ hbreak ih =>
    rw [lines_cons]
    cases hlines : lines cs with
    | nil => exact absurd hlines (lines_ne_nil cs)
    | cons first rest =>
      rw [hlines] at ih
      by_cases hc : c = '\n'
      · rw [if_pos hc]
        simpa using ih
      · rw [if_neg hc]
        simp only [List.modifyHead_cons, List.length_cons] at ih ⊢
        omega
  | case4 c cs _ hbreak ih =>
    have hc : c ≠ '\n' := by
      rintro rfl
      exact hbreak (by decide)
    rw [lines_cons, if_neg hc]
    cases hlines : lines cs with
    | nil => exact absurd hlines (lines_ne_nil cs)
    | cons first rest =>
      rw [hlines] at ih
      cases hsplit : splitlines cs with
      | nil =>
        rw [hsplit] at ih
        simp only [List.length_cons, List.length_nil] at ih
        simp only [consLine, List.modifyHead_cons, List.length_cons, List.length_nil]
        omega
      | cons one others =>
        rw [hsplit] at ih
        cases rest with
        | nil =>
          simp only [consLine, List.modifyHead_cons, List.length_cons, List.length_nil]
          omega
        | cons second more => simpa [consLine] using ih

end Text

end uni_agent
