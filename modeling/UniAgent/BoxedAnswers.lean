-- The answer in a box: what the reward of HotpotQA takes out of the end of a solution, and when
-- the last box is what it scores.
import UniAgent.Codec
import UniAgent.LcsReward
import UniAgent.SeparatedLists

namespace uni_agent

namespace Text

/-- `text[text.rfind(old):]` for an `old` that is found and is not empty. -/
def fromLast (old : Text) : Text → Option Text
  | [] => none
  | c :: cs =>
    (fromLast old cs).or (if old.isPrefixOf (c :: cs) then some (c :: cs) else none)

/-- `text.strip(chars)` -/
def stripChars (chars text : Text) : Text :=
  (text.dropWhile (fun c => c ∈ chars)).rdropWhile (fun c => c ∈ chars)

end Text

namespace tasks.hotpotqa

open Text separated_lists

/-! ## The code -/

def boxedSpace : Text := "\\boxed ".toList

def boxed : Text := "\\boxed".toList

def boxedOpen : Text := "\\boxed\x7b".toList

/-- The loop over the positions: up to the brace that closes the first open one. -/
def closeBraces : Int → Text → Option Text
  | _, [] => none
  | openBraces, c :: cs =>
    if c = '{' then (closeBraces (openBraces + 1) cs).map (c :: ·)
    else if c = '}' then
      if openBraces - 1 = 0 then some [c] else (closeBraces (openBraces - 1) cs).map (c :: ·)
    else (closeBraces openBraces cs).map (c :: ·)

/-- `last_boxed_only_string` -/
def lastBoxedOnlyString (value : Text) : Option Text :=
  if contains boxedSpace value then
    some (boxedSpace ++ splitFirst ['$'] ((split boxedSpace value).getLastD []))
  else
    ((fromLast boxed value).or (fromLast "\\fbox".toList value)).bind (closeBraces 0)

/-- `remove_boxed` -/
def removeBoxed (py : PythonLibrary) (value : Text) : Except PyError Text :=
  if boxedSpace.isPrefixOf value then .ok (value.drop boxedSpace.length)
  else if !boxedOpen.isPrefixOf value || value.getLast? != some '}' then
    .error (.valueError ("Invalid boxed answer: " ++ py.repr (.str (String.ofList value))))
  else
    let answer := (value.drop boxedOpen.length).dropLast
    if contains "\\text\x7b".toList answer && contains ['}'] answer then
      .ok (stripChars [' ', '{', '}'] ((split "\\text".toList answer).getLastD []))
    else .ok answer

/-- `_compute_single` -/
def computeSingle (m : LetterCase) (py : PythonLibrary) (solution groundTruth : Text) : ℚ :=
  match lastBoxedOnlyString solution with
  | none => 0
  | some answer =>
    match removeBoxed py answer with
    | .ok value => lcsRatio m value (groundTruth.lower m)
    | .error _ => 0

/-- `compute_score` -/
def computeScore (m : LetterCase) (py : PythonLibrary) (solution : Text)
    (groundTruths : List Text) : ℚ :=
  let solution := lower m (solution.drop (solution.length - 300))
  (groundTruths.map (computeSingle m py solution)).max?.getD 0

/-! ## Places of a text -/

variable {m : LetterCase} {py : PythonLibrary} {w old text front back t s a rest : Text} {c : Char}

/-- A text whose first character comes back only once stands on one side of that character. -/
theorem infix_append_cons_cases (hw : c ∉ w) (h : c :: w <:+: front ++ c :: back) :
    c :: w <:+: front ∨ c :: w <:+: c :: back := by
  induction front with
  | nil => exact .inr h
  | cons x front ih =>
    rw [List.cons_append, List.infix_cons_iff] at h
    rcases h with hprefix | hinfix
    · rw [← List.cons_append] at hprefix
      rcases prefix_append_cases hprefix with hshort | ⟨rest, hrest, hsep, hbehind⟩
      · exact .inl hshort.isInfix
      · exfalso
        obtain ⟨y, rest, rfl⟩ := List.exists_cons_of_ne_nil hrest
        obtain ⟨rfl, -⟩ := List.cons_prefix_cons.mp hbehind
        obtain ⟨-, rfl⟩ := List.cons.inj hsep
        exact hw (List.mem_append_right _ List.mem_cons_self)
    · rcases ih hinfix with hleft | hright
      · exact .inl (List.infix_cons hleft)
      · exact .inr hright

theorem infix_of_infix_append (hfront : c ∉ front) (h : c :: w <:+: front ++ back) :
    c :: w <:+: back := by
  induction front with
  | nil => exact h
  | cons x front ih =>
    rw [List.cons_append, List.infix_cons_iff] at h
    rcases h with hprefix | hinfix
    · obtain ⟨rfl, -⟩ := List.cons_prefix_cons.mp hprefix
      exact absurd List.mem_cons_self hfront
    · exact ih (fun hc => hfront (List.mem_cons_of_mem _ hc)) hinfix

theorem fromLast_of_not_infix (h : ¬ old <:+: text) : fromLast old text = none := by
  induction text with
  | nil => rfl
  | cons c cs ih =>
    rw [List.infix_cons_iff, not_or] at h
    have hprefix : old.isPrefixOf (c :: cs) = false := by
      rw [← Bool.not_eq_true, List.isPrefixOf_iff_prefix]
      exact h.1
    rw [fromLast, ih h.2, hprefix]
    rfl

theorem fromLast_append (front : Text) (hfound : old <+: c :: rest) (hlast : ¬ old <:+: rest) :
    fromLast old (front ++ c :: rest) = some (c :: rest) := by
  induction front with
  | nil =>
    rw [List.nil_append, fromLast, fromLast_of_not_infix hlast,
      if_pos (List.isPrefixOf_iff_prefix.mpr hfound)]
    rfl
  | cons x front ih =>
    rw [List.cons_append, fromLast, ih]
    rfl

theorem splitFirst_singleton (hback : c ∈ back) (more : Text) :
    splitFirst [c] (back ++ more) = splitFirst [c] back := by
  induction back with
  | nil => cases hback
  | cons x back ih =>
    rw [List.cons_append, splitFirst, splitFirst]
    by_cases hx : c = x
    · subst hx
      simp
    · have hmem : c ∈ back := by
        rcases List.mem_cons.mp hback with h | h
        · exact absurd h hx
        · exact h
      have hfirst : ∀ tail : Text, [c].isPrefixOf (x :: tail) = false := by
        intro tail
        rw [List.isPrefixOf, beq_eq_false_iff_ne.mpr hx, Bool.false_and]
      rw [hfirst, hfirst, if_neg (by simp), if_neg (by simp), ih hmem]

theorem mem_splitFirst {d : Char} (hback : c ∉ back) (hd : d ≠ c) (more : Text) :
    d ∈ splitFirst [c] (back ++ d :: more) := by
  induction back with
  | nil =>
    have hfirst : [c].isPrefixOf (d :: more) = false := by
      rw [List.isPrefixOf, beq_eq_false_iff_ne.mpr (Ne.symm hd), Bool.false_and]
    rw [List.nil_append, splitFirst, hfirst, if_neg (by simp)]
    exact List.mem_cons_self
  | cons x back ih =>
    have hx : c ≠ x := by
      rintro rfl
      exact hback List.mem_cons_self
    have hfirst : [c].isPrefixOf (x :: (back ++ d :: more)) = false := by
      rw [List.isPrefixOf, beq_eq_false_iff_ne.mpr hx, Bool.false_and]
    rw [List.cons_append, splitFirst, hfirst, if_neg (by simp)]
    exact List.mem_cons_of_mem _ (ih (fun h => hback (List.mem_cons_of_mem _ h)))

/-! ## Braces -/

/-- The braces that are open behind a text, unless one is closed before it is opened. -/
def openBraces : Nat → Text → Option Nat
  | n, [] => some n
  | n, c :: cs =>
    if c = '{' then openBraces (n + 1) cs
    else if c = '}' then
      if n = 0 then none else openBraces (n - 1) cs
    else openBraces n cs

def Balanced (text : Text) : Prop := openBraces 0 text = some 0

instance (text : Text) : Decidable (Balanced text) := by
  unfold Balanced
  infer_instance

def boxOf (a : Text) : Text := boxedOpen ++ (a ++ ['}'])

theorem openBraces_append_of_none {image : Text} (hopen : '{' ∉ image) (hclose : '}' ∉ image)
    (n : Nat) : openBraces n (image ++ rest) = openBraces n rest := by
  induction image with
  | nil => rfl
  | cons c image ih =>
    rw [List.mem_cons, not_or] at hopen hclose
    rw [List.cons_append, openBraces, if_neg (Ne.symm hopen.1), if_neg (Ne.symm hclose.1),
      ih hopen.2 hclose.2]

theorem not_mem_lowerChar {before after : Text} {d : Char} (hd : IsOwn d)
    (halpha : d.isAlpha = false) (hne : c ≠ d) : d ∉ lowerChar m before c after := by
  intro h
  obtain ⟨hc, hlower⟩ := lowerChar_of_mem hd h
  exact hne (eq_of_toLower_not_alpha hc hlower halpha)

/-- Braces are the same in lower case. -/
theorem openBraces_lowerFrom (before : Text) (n : Nat) :
    openBraces n (lowerFrom m before text) = openBraces n text := by
  induction text generalizing before n with
  | nil => rfl
  | cons c cs ih =>
    rw [lowerFrom]
    by_cases hopen : c = '{'
    · subst hopen
      rw [lowerChar_barrier (by decide), List.singleton_append, openBraces, openBraces,
        if_pos rfl, if_pos rfl, ih]
    · by_cases hclose : c = '}'
      · subst hclose
        rw [lowerChar_barrier (by decide), List.singleton_append, openBraces, openBraces]
        simp only [ih]
      · rw [openBraces_append_of_none (not_mem_lowerChar (by decide) (by decide) hopen)
          (not_mem_lowerChar (by decide) (by decide) hclose), ih, openBraces, if_neg hopen,
          if_neg hclose]

/-- The loop passes over a text inside of braces that it leaves open. -/
theorem closeBraces_append {n k : Nat} (h : openBraces n text = some k) :
    closeBraces (n + 1) (text ++ rest) = (closeBraces (k + 1) rest).map (text ++ ·) := by
  induction text generalizing n with
  | nil =>
    obtain rfl := Option.some.inj h
    exact Option.map_id'.symm
  | cons c cs ih =>
    rw [openBraces] at h
    rw [List.cons_append, closeBraces]
    by_cases hopen : c = '{'
    · rw [if_pos hopen] at h ⊢
      have hmore := ih h
      push_cast at hmore
      rw [hmore, Option.map_map]
      rfl
    · rw [if_neg hopen] at h ⊢
      by_cases hclose : c = '}'
      · rw [if_pos hclose] at h ⊢
        by_cases hn : n = 0
        · rw [if_pos hn] at h
          cases h
        · rw [if_neg hn] at h
          have hopenStill : ¬ (n : Int) + 1 - 1 = 0 := by omega
          have hless : (n : Int) + 1 - 1 = (n - 1 : Nat) + 1 := by omega
          rw [if_neg hopenStill, hless, ih h, Option.map_map]
          rfl
      · rw [if_neg hclose] at h ⊢
        rw [ih h, Option.map_map]
        rfl

theorem closeBraces_plain (hopen : '{' ∉ front) (hclose : '}' ∉ front) (n : Int) :
    closeBraces n (front ++ rest) = (closeBraces n rest).map (front ++ ·) := by
  induction front with
  | nil => exact Option.map_id'.symm
  | cons c front ih =>
    rw [List.mem_cons, not_or] at hopen hclose
    rw [List.cons_append, closeBraces, if_neg (Ne.symm hopen.1), if_neg (Ne.symm hclose.1),
      ih hopen.2 hclose.2, Option.map_map]
    rfl

/-- The loop finds the end of a box. -/
theorem closeBraces_boxOf (h : Balanced a) : closeBraces 0 (boxOf a ++ rest) = some (boxOf a) := by
  have hinside : closeBraces 1 (a ++ '}' :: rest) = some (a ++ ['}']) := closeBraces_append h
  have hword : boxOf a ++ rest = boxed ++ '{' :: (a ++ '}' :: rest) := by
    rw [boxOf, List.append_assoc, List.append_assoc]
    rfl
  rw [hword, closeBraces_plain (by decide) (by decide), closeBraces, if_pos rfl, Int.zero_add,
    hinside]
  rfl

theorem removeBoxed_boxOf (hback : '\\' ∉ a) : removeBoxed py (boxOf a) = .ok a := by
  have hanswer : ((boxOf a).drop boxedOpen.length).dropLast = a := by
    rw [boxOf, List.drop_left, List.dropLast_concat]
  have hlast : (boxOf a).getLast? = some '}' := by
    rw [boxOf, ← List.append_assoc, List.getLast?_concat]
  have htext : contains "\\text\x7b".toList a = false := by
    rw [← Bool.not_eq_true, contains_iff]
    intro h
    exact hback (h.subset (List.mem_cons_self))
  have hopen : boxedOpen.isPrefixOf (boxOf a) = true :=
    List.isPrefixOf_iff_prefix.mpr (List.prefix_append _ _)
  have hspace : boxedSpace.isPrefixOf (boxOf a) = false := rfl
  rw [removeBoxed, hspace, if_neg (by simp), hopen, hlast, if_neg (by simp), hanswer]
  dsimp only
  rw [htext]
  rfl

/-! ## The last box -/

theorem lower_boxOf (front : Text) :
    lower m (front ++ (boxOf a ++ s)) = lower m front ++ (boxOf (lower m a) ++ lower m s) := by
  have hbox : ∀ a s : Text, boxOf a ++ s =
      '\\' :: ("boxed".toList ++ '{' :: (a ++ '}' :: s)) := by
    intro a s
    rw [boxOf, List.append_assoc, List.append_assoc]
    rfl
  have hword : lower m "boxed".toList = "boxed".toList :=
    lowerFrom_ascii (forall_of_all (by decide))
  rw [hbox, hbox, lower_append (by decide), lower_append (by decide), lower_append (by decide),
    hword]

theorem boxed_eq : boxed = '\\' :: "boxed".toList := rfl

theorem boxedSpace_eq : boxedSpace = '\\' :: "boxed ".toList := rfl

theorem boxOf_append (a s : Text) :
    boxOf a ++ s = '\\' :: ("boxed\x7b".toList ++ a ++ '}' :: s) := by
  rw [boxOf, List.append_assoc, List.append_assoc, List.append_assoc]
  rfl

/-- Behind the backslash of the box no other box begins. -/
theorem not_infix_behind (ha : '\\' ∉ a) (hs : ¬ boxed <:+: s) :
    ¬ boxed <:+: "boxed\x7b".toList ++ a ++ '}' :: s := by
  intro h
  apply hs
  have hfront : '\\' ∉ "boxed\x7b".toList ++ a ++ ['}'] := by
    rw [List.mem_append, List.mem_append, not_or, not_or]
    exact ⟨⟨by decide, ha⟩, by decide⟩
  rw [boxed_eq] at h ⊢
  apply infix_of_infix_append hfront
  rw [List.append_assoc _ ['}']]
  exact h

theorem boxedSpace_infix_iff (ha : '\\' ∉ a) (hs : ¬ boxed <:+: s) :
    boxedSpace <:+: text ++ (boxOf a ++ s) ↔ boxedSpace <:+: text := by
  rw [boxedSpace_eq]
  refine ⟨?_, ?_⟩
  · rw [boxOf_append]
    intro h
    rcases infix_append_cons_cases (by decide) h with hleft | hright
    · exact hleft
    · exfalso
      rcases List.infix_cons_iff.mp hright with hprefix | hinfix
      · have hother : List.isPrefixOf ('\\' :: "boxed ".toList)
            ('\\' :: ("boxed\x7b".toList ++ a ++ '}' :: s)) = false := rfl
        rw [List.isPrefixOf_iff_prefix.mpr hprefix] at hother
        cases hother
      · apply not_infix_behind ha hs
        exact List.IsInfix.trans ⟨[], [' '], rfl⟩ hinfix
  · exact List.infix_append_of_infix_left

theorem lastBoxed_of_box (ha : '\\' ∉ a) (hbalanced : Balanced a) (hs : ¬ boxed <:+: s)
    (htext : ¬ boxedSpace <:+: text) :
    lastBoxedOnlyString (text ++ (boxOf a ++ s)) = some (boxOf a) := by
  have hnone : ¬ contains boxedSpace (text ++ (boxOf a ++ s)) = true := by
    rw [contains_iff, boxedSpace_infix_iff ha hs]
    exact htext
  have hlast : fromLast boxed (text ++ (boxOf a ++ s)) = some (boxOf a ++ s) := by
    rw [boxOf_append]
    apply fromLast_append text _ (not_infix_behind ha hs)
    exact ⟨'{' :: (a ++ '}' :: s), rfl⟩
  rw [lastBoxedOnlyString, if_neg hnone, hlast, Option.some_or, Option.bind_some,
    closeBraces_boxOf hbalanced]

theorem lastBoxed_of_space (ha : '\\' ∉ a) (hs : ¬ boxed <:+: s) (hback : ¬ boxedSpace <:+: back) :
    lastBoxedOnlyString (front ++ (boxedSpace ++ back) ++ (boxOf a ++ s)) =
      some (boxedSpace ++ splitFirst ['$'] (back ++ (boxOf a ++ s))) := by
  have hfound : contains boxedSpace (front ++ (boxedSpace ++ back) ++ (boxOf a ++ s)) = true := by
    rw [contains_iff, boxedSpace_infix_iff ha hs]
    exact ⟨front, back, by rw [List.append_assoc]⟩
  have hlast : ¬ boxedSpace <:+: back ++ (boxOf a ++ s) := by
    rw [boxedSpace_infix_iff ha hs]
    exact hback
  rw [lastBoxedOnlyString, if_pos hfound, List.append_assoc, List.append_assoc,
    List.getLastD_eq_getLast?, getLast?_split_append (by decide) (by decide) hlast]
  rfl

theorem removeBoxed_space (py : PythonLibrary) (text : Text) :
    removeBoxed py (boxedSpace ++ text) = .ok text := by
  rw [removeBoxed, if_pos (List.isPrefixOf_iff_prefix.mpr (List.prefix_append _ _)),
    List.drop_left]

theorem computeSingle_of_space (h : lastBoxedOnlyString s = some (boxedSpace ++ t)) :
    computeSingle m py s a = lcsRatio m t (lower m a) := by
  rw [computeSingle, h]
  dsimp only
  rw [removeBoxed_space]

theorem computeSingle_of_box (hback : '\\' ∉ text) (h : lastBoxedOnlyString s = some (boxOf text)) :
    computeSingle m py s a = lcsRatio m text (lower m a) := by
  rw [computeSingle, h]
  dsimp only
  rw [removeBoxed_boxOf hback]

/-- What stands behind a `\boxed ` that comes before the box is an answer of its own only up to a
dollar sign. -/
theorem words_splitFirst_iff (ha : '\\' ∉ a) (hback : ∃ c ∈ a, isPySpace c = false) :
    lcsRatio m (splitFirst ['$'] (back ++ (boxOf a ++ s))) a = 1 ↔
      '$' ∈ back ∧ words (lower m (splitFirst ['$'] back)) = words (lower m a) := by
  have hanswer : words (lower m a) ≠ [] := by
    obtain ⟨c, hc, hspace⟩ := exists_not_space_lower (m := m) hback
    obtain ⟨word, hword, -⟩ := mem_words_of_mem hc hspace
    exact List.ne_nil_of_mem hword
  rw [lcsRatio_eq_one_iff]
  by_cases hdollar : '$' ∈ back
  · rw [splitFirst_singleton hdollar]
    refine ⟨?_, ?_⟩
    · rintro ⟨hsame, -⟩
      exact ⟨hdollar, hsame⟩
    · rintro ⟨-, hsame⟩
      exact ⟨hsame, by rw [hsame]; exact hanswer⟩
  · refine ⟨?_, ?_⟩
    · rintro ⟨hsame, -⟩
      exfalso
      -- The backslash of the box is in what was taken out, and none is in the answer.
      have hmem : '\\' ∈ lower m (splitFirst ['$'] (back ++ (boxOf a ++ s))) := by
        rw [mem_lower_iff (by decide) (by decide), boxOf_append]
        exact mem_splitFirst hdollar (by decide) _
      obtain ⟨word, hword, hslash⟩ := mem_words_of_mem hmem (by decide)
      rw [hsame] at hword
      apply ha
      rw [← mem_lower_iff (m := m) (by decide) (by decide)]
      exact mem_of_mem_words hword hslash
    · rintro ⟨h, -⟩
      exact absurd h hdollar

/-- What is read of a text in front of a box. -/
def readBefore (m : LetterCase) (t box : Text) : Text := lower m (t.drop ((t ++ box).length - 300))

/-- A `\boxed ` in a text that is read, and the last one in it, is scored as the answer itself. -/
def LeavesAnswer (m : LetterCase) (before a : Text) : Prop :=
  ∀ front back, before = front ++ (boxedSpace ++ back) → ¬ boxedSpace <:+: back →
    '$' ∈ back ∧ words (lower m (splitFirst ['$'] back)) = words (lower m (lower m a))

theorem computeScore_singleton (m : LetterCase) (py : PythonLibrary) (solution a : Text) :
    computeScore m py solution [a] =
      computeSingle m py (lower m (solution.drop (solution.length - 300))) a := by
  unfold computeScore
  dsimp only
  rw [List.map_cons, List.map_nil, List.max?_singleton, Option.getD_some]

theorem final_boxed_answer_is_scored_iff (m : LetterCase) (py : PythonLibrary) (t s a : Text)
    (hs : ¬ OccursInAnyCase boxed s) (hbalanced : Balanced a) (ha : '\\' ∉ a)
    (hshown : ∃ c ∈ a, isPySpace c = false) (hlength : (boxOf a ++ s).length ≤ 300) :
    computeScore m py (t ++ (boxOf a ++ s)) [a] = 1 ↔
      LeavesAnswer m (readBefore m t (boxOf a ++ s)) a := by
  have hwindow : lower m ((t ++ (boxOf a ++ s)).drop ((t ++ (boxOf a ++ s)).length - 300)) =
      readBefore m t (boxOf a ++ s) ++ (boxOf (lower m a) ++ lower m s) := by
    rw [readBefore, ← lower_boxOf, List.drop_append_of_le_length]
    rw [List.length_append]
    omega
  have hscore : computeScore m py (t ++ (boxOf a ++ s)) [a] =
      computeSingle m py (readBefore m t (boxOf a ++ s) ++ (boxOf (lower m a) ++ lower m s)) a := by
    rw [computeScore_singleton, hwindow]
  have haLower : '\\' ∉ lower m a := by
    rw [mem_lower_iff (by decide) (by decide)]
    exact ha
  have hsLower : ¬ boxed <:+: lower m s := fun h =>
    hs (occursInAnyCase_of_lower (forall_of_all (by decide)) (by decide) h)
  have hshownLower := exists_not_space_lower (m := m) hshown
  have hbalancedLower : Balanced (lower m a) := (openBraces_lowerFrom [] 0).trans hbalanced
  rw [hscore]
  generalize readBefore m t (boxOf a ++ s) = before
  by_cases hspace : boxedSpace <:+: before
  · obtain ⟨front, back, rfl, hback⟩ := exists_last_of_infix hspace (by decide)
    rw [computeSingle_of_space (lastBoxed_of_space haLower hsLower hback),
      words_splitFirst_iff haLower hshownLower]
    refine ⟨?_, ?_⟩
    · intro h front' back' heq hback'
      obtain rfl : back = back' := by
        have hlast : (split boxedSpace (front ++ (boxedSpace ++ back))).getLast? = some back :=
          getLast?_split_append (by decide) (by decide) hback
        rw [heq, getLast?_split_append (by decide) (by decide) hback'] at hlast
        exact (Option.some.inj hlast).symm
      exact h
    · intro h
      exact h front back rfl hback
  · rw [computeSingle_of_box haLower (lastBoxed_of_box haLower hbalancedLower hsLower hspace),
      lcsRatio_eq_one_iff]
    refine ⟨?_, ?_⟩
    · rintro - front back rfl -
      exact absurd ⟨front, back, by rw [List.append_assoc]⟩ hspace
    · intro _
      obtain ⟨c, hc, hspace⟩ := exists_not_space_lower (m := m) hshownLower
      obtain ⟨word, hword, -⟩ := mem_words_of_mem hc hspace
      exact ⟨rfl, List.ne_nil_of_mem hword⟩

theorem not_occursInAnyCase_of_length (h : text.length < w.length) : ¬ OccursInAnyCase w text := by
  rintro ⟨found, hfound, rfl⟩
  have hle := hfound.length_le
  rw [List.length_map] at h
  omega

/-- An answer in a box, behind another one that is not the last. -/
def secondThoughts : Text := "First ".toList ++ (boxOf "3".toList ++ ", then ".toList)

theorem final_boxed_answer_is_scored_secondThoughts :
    computeScore asciiLetterCase plainPython (secondThoughts ++ (boxOf "4".toList ++ ".".toList))
      ["4".toList] = 1 := by
  apply (final_boxed_answer_is_scored_iff asciiLetterCase plainPython secondThoughts ".".toList
    "4".toList (not_occursInAnyCase_of_length (by decide)) (by decide) (by decide)
    ⟨'4', by decide, by decide⟩ (by decide)).mpr
  intro front back hbefore _
  have hnone : ¬ boxedSpace <:+: readBefore asciiLetterCase secondThoughts
      (boxOf "4".toList ++ ".".toList) := by decide +kernel
  exact absurd ⟨front, back, by rw [hbefore, List.append_assoc]⟩ hnone

/-- A `\boxed ` in prose takes the place of the answer in the box. -/
theorem a_box_in_prose_takes_the_credit :
    ¬ (∀ (m : LetterCase) (py : PythonLibrary) (t s a : Text), ¬ OccursInAnyCase boxed s →
      Balanced a → '\\' ∉ a → (∃ c ∈ a, isPySpace c = false) → (boxOf a ++ s).length ≤ 300 →
      computeScore m py (t ++ (boxOf a ++ s)) [a] = 1) := by
  intro h
  have hscore := h asciiLetterCase plainPython "I use \\boxed form: ".toList ".".toList
    "4".toList (not_occursInAnyCase_of_length (by decide)) (by decide) (by decide)
    ⟨'4', by decide, by decide⟩ (by decide)
  rw [computeScore_singleton,
    computeSingle_of_space (t := "form: \\boxed\x7b4\x7d.".toList) (by decide +kernel),
    lcsRatio_eq_one_iff] at hscore
  exact absurd hscore.1 (by decide)

end tasks.hotpotqa

end uni_agent
