-- Lower case and words of Python's texts. The letters outside of ASCII are left to a table, with
-- what Unicode says of it. A capital sigma is lowered by what stands around it.
import UniAgent.PythonLines
import UniAgent.PythonText

namespace uni_agent

/-- The lower case of each character, and the two properties that a final sigma asks for. -/
structure LetterCase where
  lowerOf : Char → Text
  isCased : Char → Bool
  isCaseIgnorable : Char → Bool
  lowerOf_ascii : ∀ c, c.toNat < 128 → lowerOf c = [c.toLower]
  lowerOf_other : ∀ c, 128 ≤ c.toNat → ∀ d ∈ lowerOf c, 128 ≤ d.toNat ∨ d = 'i' ∨ d = 'k'
  lowerOf_ne_nil : ∀ c, lowerOf c ≠ []
  lowerOf_space : ∀ c, isPySpace c = false → ∃ d ∈ lowerOf c, isPySpace d = false
  cased_ascii : ∀ c, c.toNat < 128 → isCased c = c.isAlpha
  caseIgnorable_ascii : ∀ c, c.toNat < 128 → isCaseIgnorable c = true →
    c ∈ ['\'', '.', ':', '^', (Char.ofNat 96)]

namespace Text

/-! ## Lower case -/

/-- A capital sigma between the characters before it, the nearest first, and those behind it is
the last letter of a word. -/
def finalSigma (m : LetterCase) (before after : Text) : Bool :=
  (before.find? (fun c => !m.isCaseIgnorable c)).any m.isCased &&
    !(after.find? (fun c => !m.isCaseIgnorable c)).any m.isCased

def lowerChar (m : LetterCase) (before : Text) (c : Char) (after : Text) : Text :=
  if c = 'Σ' then [if finalSigma m before after then 'ς' else 'σ'] else m.lowerOf c

def lowerFrom (m : LetterCase) : Text → Text → Text
  | _, [] => []
  | before, c :: cs => lowerChar m before c cs ++ lowerFrom m (c :: before) cs

/-- `text.lower()` -/
def lower (m : LetterCase) (text : Text) : Text := lowerFrom m [] text

/-! ## Words -/

/-- `text.split()` -/
def words (text : Text) : List Text := (text.splitOnP isPySpace).filter (fun word => !word.isEmpty)

variable {m : LetterCase} {text before after front back w : Text} {b c d : Char}

/-- The pieces between the white space hold everything else. -/
theorem flatten_splitOnP (p : Char → Bool) (text : Text) :
    (text.splitOnP p).flatten = text.filter (fun c => !p c) := by
  induction text with
  | nil => rfl
  | cons c cs ih =>
    rw [List.splitOnP_cons_eq_if_modifyHead, List.filter_cons]
    by_cases hc : p c = true
    · rw [if_pos hc, if_neg (by simp [hc]), List.flatten_cons, List.nil_append, ih]
    · rw [if_neg hc, if_pos (by simp [hc]), ← ih]
      cases hpieces : cs.splitOnP p with
      | nil => exact absurd hpieces (List.splitOnP_ne_nil p cs)
      | cons piece rest => rfl

theorem mem_words_of_mem (h : c ∈ text) (hc : isPySpace c = false) :
    ∃ word ∈ words text, c ∈ word := by
  have hmem : c ∈ (text.splitOnP isPySpace).flatten := by
    rw [flatten_splitOnP]
    exact List.mem_filter.mpr ⟨h, by rw [hc]; rfl⟩
  obtain ⟨piece, hpiece, hc⟩ := List.mem_flatten.mp hmem
  refine ⟨piece, List.mem_filter.mpr ⟨hpiece, ?_⟩, hc⟩
  cases piece with
  | nil => cases hc
  | cons _ _ => rfl

theorem mem_of_mem_words {word : Text} (h : word ∈ words text) (hc : c ∈ word) : c ∈ text := by
  have hmem : c ∈ (text.splitOnP isPySpace).flatten :=
    List.mem_flatten.mpr ⟨word, (List.mem_filter.mp h).1, hc⟩
  rw [flatten_splitOnP] at hmem
  exact (List.mem_filter.mp hmem).1

/-! ## What separates letters -/

/-- A character of ASCII that is no letter and is not passed over in the search for one. -/
def IsBarrier (c : Char) : Prop :=
  c.toNat < 128 ∧ c.isAlpha = false ∧ c ∉ ['\'', '.', ':', '^', (Char.ofNat 96)]

instance (c : Char) : Decidable (IsBarrier c) := by
  unfold IsBarrier
  infer_instance

theorem lowerChar_ascii (hc : c.toNat < 128) : lowerChar m before c after = [c.toLower] := by
  have hne : c ≠ 'Σ' := by
    rintro rfl
    exact absurd hc (by decide)
  rw [lowerChar, if_neg hne, m.lowerOf_ascii c hc]

theorem toLower_of_not_alpha (hc : c.isAlpha = false) : c.toLower = c := by
  have hupper : ¬ (c.val ≥ 'A'.val ∧ c.val ≤ 'Z'.val) := by
    intro h
    have hletter : c.isUpper = true := decide_eq_true h
    have halpha : c.isAlpha = true := Bool.or_eq_true_iff.mpr (Or.inl hletter)
    rw [hc] at halpha
    cases halpha
  unfold Char.toLower
  exact dif_neg hupper

theorem toLower_of_not_ascii (hc : 128 ≤ c.toNat) : c.toLower = c := by
  have hupper : ¬ (c.val ≥ 'A'.val ∧ c.val ≤ 'Z'.val) := by
    rintro ⟨-, hle⟩
    have hnat : c.val.toNat ≤ 90 := UInt32.le_iff_toNat_le.mp hle
    have heq : c.toNat = c.val.toNat := rfl
    omega
  unfold Char.toLower
  exact dif_neg hupper

/-- Only a letter is lowered to a letter. -/
theorem eq_of_toLower_not_alpha (hc : c.toNat < 128) (h : c.toLower = d) (hd : d.isAlpha = false) :
    c = d := by
  have hascii : ∀ n < 128, (Char.ofNat n).toLower.isAlpha = false →
      (Char.ofNat n).toLower = Char.ofNat n := by decide
  have hself := hascii c.toNat hc
  rw [Char.ofNat_toNat, h] at hself
  exact (hself hd).symm

theorem lowerChar_barrier (hb : IsBarrier b) : lowerChar m before b after = [b] := by
  rw [lowerChar_ascii hb.1, toLower_of_not_alpha hb.2.1]

theorem any_find?_barrier (hb : IsBarrier b) (front back : Text) :
    ((front ++ b :: back).find? (fun c => !m.isCaseIgnorable c)).any m.isCased =
      (front.find? (fun c => !m.isCaseIgnorable c)).any m.isCased := by
  have hstop : (!m.isCaseIgnorable b) = true := by
    rw [Bool.not_eq_true', Bool.eq_false_iff]
    exact fun h => hb.2.2 (m.caseIgnorable_ascii b hb.1 h)
  have huncased : m.isCased b = false := by
    rw [m.cased_ascii b hb.1, hb.2.1]
  rw [List.find?_append, List.find?_cons, hstop]
  cases front.find? (fun c => !m.isCaseIgnorable c) with
  | none => exact huncased
  | some c => rfl

theorem lowerFrom_before (hb : IsBarrier b) (front back text : Text) :
    lowerFrom m (front ++ b :: back) text = lowerFrom m front text := by
  induction text generalizing front with
  | nil => rfl
  | cons c cs ih =>
    rw [lowerFrom, lowerFrom, lowerChar, lowerChar, finalSigma, finalSigma,
      any_find?_barrier hb]
    exact congrArg (_ ++ ·) (ih (c :: front))

/-- Both sides of a barrier are lowered on their own. -/
theorem lowerFrom_append (hb : IsBarrier b) (before front back : Text) :
    lowerFrom m before (front ++ b :: back) = lowerFrom m before front ++ b :: lower m back := by
  induction front generalizing before with
  | nil =>
    show lowerChar m before b back ++ lowerFrom m (b :: before) back = [] ++ b :: lower m back
    rw [lowerChar_barrier hb, lower, ← lowerFrom_before hb [] before back]
    rfl
  | cons c cs ih =>
    rw [List.cons_append, lowerFrom, lowerFrom, ih, lowerChar, lowerChar, finalSigma, finalSigma,
      any_find?_barrier hb, List.append_assoc]

theorem lower_append (hb : IsBarrier b) (front back : Text) :
    lower m (front ++ b :: back) = lower m front ++ b :: lower m back :=
  lowerFrom_append hb [] front back

theorem lowerFrom_ascii (h : ∀ c ∈ text, c.toNat < 128) :
    lowerFrom m before text = text.map Char.toLower := by
  induction text generalizing before with
  | nil => rfl
  | cons c cs ih =>
    rw [lowerFrom, lowerChar_ascii (h c List.mem_cons_self),
      ih (fun c hc => h c (List.mem_cons_of_mem _ hc))]
    rfl

/-- The characters of a text that is given are checked one by one. -/
theorem forall_of_all {p : Char → Prop} [DecidablePred p]
    (h : text.all (fun c => decide (p c)) = true) : ∀ c ∈ text, p c := by
  intro c hc
  exact of_decide_eq_true (List.all_eq_true.mp h c hc)

/-! ## What is lowered to a text -/

/-- A character of ASCII that nothing outside of it is lowered to. -/
def IsOwn (c : Char) : Prop := c.toNat < 128 ∧ c ≠ 'i' ∧ c ≠ 'k'

instance (c : Char) : Decidable (IsOwn c) := by
  unfold IsOwn
  infer_instance

theorem lowerChar_of_mem (hd : IsOwn d) (h : d ∈ lowerChar m before c after) :
    c.toNat < 128 ∧ c.toLower = d := by
  by_cases hc : c.toNat < 128
  · rw [lowerChar_ascii hc, List.mem_singleton] at h
    exact ⟨hc, h.symm⟩
  · exfalso
    rw [lowerChar] at h
    split at h
    · rw [List.mem_singleton] at h
      subst h
      split at hd <;> exact absurd hd (by decide)
    · rcases m.lowerOf_other c (Nat.le_of_not_lt hc) d h with hlarge | hi | hk
      · exact absurd hd.1 (Nat.not_lt_of_le hlarge)
      · exact hd.2.1 hi
      · exact hd.2.2 hk

theorem lowerChar_ne_nil : lowerChar m before c after ≠ [] := by
  unfold lowerChar
  split
  · exact List.cons_ne_nil _ _
  · exact m.lowerOf_ne_nil c

theorem mem_lower_iff (hd : IsOwn d) (hbarrier : IsBarrier d) : d ∈ lower m text ↔ d ∈ text := by
  refine ⟨?_, ?_⟩
  · unfold lower
    generalize ([] : Text) = before
    intro h
    induction text generalizing before with
    | nil => cases h
    | cons c cs ih =>
      rw [lowerFrom, List.mem_append] at h
      rcases h with h | h
      · obtain ⟨hc, hlower⟩ := lowerChar_of_mem hd h
        have hsame : c = d := eq_of_toLower_not_alpha hc hlower hbarrier.2.1
        rw [hsame]
        exact List.mem_cons_self
      · exact List.mem_cons_of_mem c (ih _ h)
  · intro h
    obtain ⟨front, back, rfl⟩ := List.append_of_mem h
    rw [lower_append hbarrier]
    exact List.mem_append_right _ List.mem_cons_self

/-- A text that shows something still does in lower case. -/
theorem exists_not_space_lower (h : ∃ c ∈ text, isPySpace c = false) :
    ∃ c ∈ lower m text, isPySpace c = false := by
  obtain ⟨c, hc, hspace⟩ := h
  unfold lower
  generalize ([] : Text) = before
  induction text generalizing before with
  | nil => cases hc
  | cons x xs ih =>
    rw [lowerFrom]
    rcases List.mem_cons.mp hc with rfl | hc
    · obtain ⟨d, hd, hspace⟩ : ∃ d ∈ lowerChar m before c xs, isPySpace d = false := by
        rw [lowerChar]
        split
        · refine ⟨_, List.mem_singleton_self _, ?_⟩
          split <;> decide
        · exact m.lowerOf_space c hspace
      exact ⟨d, List.mem_append_left _ hd, hspace⟩
    · obtain ⟨d, hd, hspace⟩ := ih hc (x :: before)
      exact ⟨d, List.mem_append_right _ hd, hspace⟩

/-- What is lowered to a text of such characters is that text in some letter case. -/
theorem map_toLower_of_lowerFrom {rest : Text} (hw : ∀ d ∈ w, IsOwn d)
    (h : lowerFrom m before text = w ++ rest) :
    ∃ front back, text = front ++ back ∧ front.map Char.toLower = w := by
  induction w generalizing before text with
  | nil => exact ⟨[], text, rfl, rfl⟩
  | cons d w ih =>
    cases text with
    | nil => cases h
    | cons c cs =>
      rw [lowerFrom] at h
      obtain ⟨image, himage⟩ : ∃ image, lowerChar m before c cs = image := ⟨_, rfl⟩
      rw [himage] at h
      cases image with
      | nil => exact absurd himage lowerChar_ne_nil
      | cons e image =>
        rw [List.cons_append, List.cons_append] at h
        obtain rfl := (List.cons.inj h).1
        have hmem : e ∈ lowerChar m before c cs := by
          rw [himage]
          exact List.mem_cons_self
        obtain ⟨hc, hlower⟩ := lowerChar_of_mem (hw e List.mem_cons_self) hmem
        rw [lowerChar_ascii hc] at himage
        obtain ⟨-, rfl⟩ := List.cons.inj himage
        have htail : lowerFrom m (c :: before) cs = w ++ rest := (List.cons.inj h).2
        obtain ⟨front, back, rfl, hfront⟩ :=
          ih (fun d hd => hw d (List.mem_cons_of_mem _ hd)) htail
        exact ⟨c :: front, back, rfl, by rw [List.map_cons, hlower, hfront]⟩

/-- A place in a lowered text, at such a character, is one in the text. -/
theorem lowerFrom_eq_append {rest : Text} (hd : IsOwn d)
    (h : lowerFrom m before text = front ++ d :: rest) :
    ∃ x y, text = x ++ y ∧ lowerFrom m (x.reverse ++ before) y = d :: rest := by
  induction text generalizing before front with
  | nil => exact absurd h.symm (by simp [lowerFrom])
  | cons c cs ih =>
    have h' := h
    rw [lowerFrom] at h'
    rcases List.append_eq_append_iff.mp h' with ⟨front', rfl, hrest⟩ | ⟨image, himage, hrest⟩
    · obtain ⟨x, y, rfl, hy⟩ := ih hrest
      refine ⟨c :: x, y, rfl, ?_⟩
      rw [List.reverse_cons, List.append_assoc]
      exact hy
    · cases image with
      | nil =>
        rw [List.append_nil] at himage
        have hbehind : lowerFrom m (c :: before) cs = [] ++ d :: rest := hrest.symm
        obtain ⟨x, y, rfl, hy⟩ := ih hbehind
        refine ⟨c :: x, y, rfl, ?_⟩
        rw [List.reverse_cons, List.append_assoc]
        exact hy
      | cons e image =>
        obtain ⟨rfl, -⟩ := List.cons.inj hrest
        have hmem : d ∈ lowerChar m before c cs := by
          rw [himage]
          simp
        obtain ⟨hc, -⟩ := lowerChar_of_mem hd hmem
        rw [lowerChar_ascii hc] at himage
        have hfront : front = [] := by
          cases front with
          | nil => rfl
          | cons x front => cases front <;> cases himage
        subst hfront
        exact ⟨[], c :: cs, rfl, h⟩

/-- A text that is found in another in some letter case. -/
def OccursInAnyCase (w text : Text) : Prop :=
  ∃ found, found <:+: text ∧ found.map Char.toLower = w

theorem occursInAnyCase_of_lower (hw : ∀ d ∈ w, IsOwn d) (hne : w ≠ [])
    (h : w <:+: lower m text) : OccursInAnyCase w text := by
  obtain ⟨before, after, htext⟩ := h
  cases w with
  | nil => exact absurd rfl hne
  | cons d w =>
    rw [List.append_assoc, List.cons_append] at htext
    obtain ⟨x, y, rfl, hy⟩ := lowerFrom_eq_append (hw d List.mem_cons_self) htext.symm
    rw [← List.cons_append] at hy
    obtain ⟨found, back, rfl, hfound⟩ := map_toLower_of_lowerFrom hw hy
    exact ⟨found, ⟨x, back, by rw [List.append_assoc]⟩, hfound⟩

end Text

/-- The table of ASCII alone. -/
def asciiLetterCase : LetterCase where
  lowerOf c := [c.toLower]
  isCased c := c.isAlpha
  isCaseIgnorable c := decide (c ∈ ['\'', '.', ':', '^', (Char.ofNat 96)])
  lowerOf_ascii _ _ := rfl
  lowerOf_other c hc d hd := by
    rw [List.mem_singleton] at hd
    subst hd
    left
    rw [Text.toLower_of_not_ascii hc]
    exact hc
  lowerOf_ne_nil _ := List.cons_ne_nil _ _
  lowerOf_space c hspace := by
    refine ⟨_, List.mem_singleton_self _, ?_⟩
    by_cases hc : c.toNat < 128
    · have hascii : ∀ n < 128, isPySpace (Char.ofNat n) = false →
          isPySpace (Char.ofNat n).toLower = false := by decide
      have hself := hascii c.toNat hc
      rw [Char.ofNat_toNat] at hself
      exact hself hspace
    · rw [Text.toLower_of_not_ascii (Nat.le_of_not_lt hc)]
      exact hspace
  cased_ascii _ _ := rfl
  caseIgnorable_ascii _ _ h := of_decide_eq_true h

end uni_agent
