-- The score of an answer to HotpotQA: the longest common subsequence of its words and those of
-- the ground truth. One row of the table is kept, and one cell of the row before it.
import Mathlib.Algebra.Order.Field.Rat
import Mathlib.Tactic.Positivity
import UniAgent.CommonSubsequences
import UniAgent.LetterCase

namespace uni_agent.tasks.hotpotqa

open common_subsequences (lengths longest)

/-! ## The table -/

/-- The inner loop, from the token at `index` on. -/
def updateRow (leftToken : Text) : List Nat → Nat → Nat → List Text → List Nat
  | dp, _, _, [] => dp
  | dp, previous, index, rightToken :: rest =>
    let current := dp.getD index 0
    let dp :=
      if leftToken = rightToken then dp.set index (previous + 1)
      else dp.set index (max (dp.getD index 0) (dp.getD (index - 1) 0))
    updateRow leftToken dp current (index + 1) rest

def lastRow (left right : List Text) : List Nat :=
  left.foldl (fun dp leftToken => updateRow leftToken dp 0 1 right)
    (List.replicate (right.length + 1) 0)

/-- `_lcs_ratio`. The quotient is the exact one. -/
def lcsRatio (m : LetterCase) (value groundTruth : Text) : ℚ :=
  let left := (value.lower m).words
  let right := (groundTruth.lower m).words
  if left = [] ∨ right = [] then 0
  else (lastRow left right).getLastD 0 / (max left.length right.length : Nat)

variable {left right done rest xs : List Text} {x : Text} {dp : List Nat} {previous : Nat}

/-- A row holds the longest common subsequences of the tokens that were read and of every front of
the other list. -/
structure IsRow (dp : List Nat) (xs right : List Text) : Prop where
  length : dp.length = right.length + 1
  cells : ∀ j ≤ right.length, dp.getD j 0 = longest xs (right.take j)

theorem getD_set {index value j : Nat} (h : index < dp.length) :
    (dp.set index value).getD j 0 = if index = j then value else dp.getD j 0 := by
  rw [List.getD_eq_getElem?_getD, List.getD_eq_getElem?_getD, List.getElem?_set]
  by_cases hj : index = j
  · subst hj
    rw [if_pos rfl, if_pos rfl, if_pos h]
    rfl
  · rw [if_neg hj, if_neg hj]

/-- In the middle of the inner loop the front of the row is new and the rest is old, and one cell
of the old row is kept. -/
theorem isRow_updateRow (hright : right = done ++ rest) (hlength : dp.length = right.length + 1)
    (hnew : ∀ j ≤ done.length, dp.getD j 0 = longest (xs ++ [x]) (right.take j))
    (hold : ∀ j, done.length < j → j ≤ right.length → dp.getD j 0 = longest xs (right.take j))
    (hprevious : previous = longest xs done) :
    IsRow (updateRow x dp previous (done.length + 1) rest) (xs ++ [x]) right := by
  induction rest generalizing done dp previous with
  | nil =>
    rw [List.append_nil] at hright
    subst hright
    exact ⟨hlength, hnew⟩
  | cons y rest ih =>
    have hlt : done.length < right.length := by
      rw [hright, List.length_append, List.length_cons]
      omega
    have htake : right.take (done.length + 1) = done ++ [y] := by
      rw [hright, List.take_append, List.take_of_length_le (by omega), Nat.add_sub_cancel_left]
      rfl
    have hdone : right.take done.length = done := by
      rw [hright, List.take_left]
    have hcurrent : dp.getD (done.length + 1) 0 = longest xs (done ++ [y]) := by
      rw [hold _ (Nat.lt_succ_self _) hlt, htake]
    have hbelow : dp.getD done.length 0 = longest (xs ++ [x]) done := by
      rw [hnew _ (Nat.le_refl _), hdone]
    -- The new cell is right in both branches.
    obtain ⟨value, hrow, hvalue⟩ : ∃ value,
        (if x = y then dp.set (done.length + 1) (previous + 1)
          else dp.set (done.length + 1)
            (max (dp.getD (done.length + 1) 0) (dp.getD (done.length + 1 - 1) 0))) =
          dp.set (done.length + 1) value ∧ value = longest (xs ++ [x]) (done ++ [y]) := by
      by_cases hxy : x = y
      · subst hxy
        refine ⟨previous + 1, if_pos rfl, ?_⟩
        rw [common_subsequences.longest_concat_same, hprevious]
      · refine ⟨_, if_neg hxy, ?_⟩
        rw [common_subsequences.longest_concat_ne xs done hxy, hcurrent, Nat.add_sub_cancel, hbelow]
    have hindex : done.length + 1 < dp.length := by omega
    rw [updateRow, hrow, hcurrent]
    have hgoal : IsRow (updateRow x (dp.set (done.length + 1) value) (longest xs (done ++ [y]))
        ((done ++ [y]).length + 1) rest) (xs ++ [x]) right := by
      apply ih _ _ _ _ rfl
      · rw [hright, List.append_assoc]
        rfl
      · rw [List.length_set]
        exact hlength
      · intro j hj
        rw [List.length_append, List.length_singleton] at hj
        rw [getD_set hindex]
        by_cases hsame : done.length + 1 = j
        · rw [if_pos hsame, ← hsame, htake, hvalue]
        · rw [if_neg hsame]
          exact hnew j (by omega)
      · intro j hj hle
        rw [List.length_append, List.length_singleton] at hj
        rw [getD_set hindex, if_neg (by omega)]
        exact hold j (by omega) hle
    rw [List.length_append] at hgoal
    exact hgoal

theorem isRow_replicate (right : List Text) :
    IsRow (List.replicate (right.length + 1) 0) [] right where
  length := List.length_replicate
  cells := by
    intro j hj
    rw [common_subsequences.longest_nil_left, List.getD_eq_getElem?_getD,
      List.getElem?_replicate_of_lt (by omega)]
    rfl

theorem isRow_foldl (h : IsRow dp xs right) :
    IsRow (left.foldl (fun dp leftToken => updateRow leftToken dp 0 1 right) dp) (xs ++ left)
      right := by
  induction left generalizing dp xs with
  | nil =>
    rw [List.append_nil]
    exact h
  | cons x left ih =>
    have hnext : IsRow (updateRow x dp 0 1 right) (xs ++ [x]) right := by
      apply isRow_updateRow (List.nil_append right).symm h.length
      · intro j hj
        rw [Nat.le_zero.mp hj, h.cells 0 (Nat.zero_le _), List.take_zero,
          common_subsequences.longest_nil_right, common_subsequences.longest_nil_right]
      · intro j _ hle
        exact h.cells j hle
      · exact (common_subsequences.longest_nil_right xs).symm
    have hrest := ih hnext
    rw [List.append_assoc] at hrest
    exact hrest

/-- The last cell of the last row is the length of the longest common subsequence. -/
theorem getLastD_lastRow (left right : List Text) :
    (lastRow left right).getLastD 0 = longest left right := by
  have hrow : IsRow (lastRow left right) left right := isRow_foldl (isRow_replicate right)
  rw [List.getLastD_eq_getLast?, List.getLast?_eq_getElem?, hrow.length, Nat.add_sub_cancel,
    ← List.getD_eq_getElem?_getD, hrow.cells _ (Nat.le_refl _), List.take_length]

/-! ## The score -/

/-- The score of two lists of tokens. -/
structure IsLcsScore (left right : List Text) (score swapped : ℚ) : Prop where
  ratio : left ≠ [] → right ≠ [] → ∃ n : Nat, IsGreatest (lengths left right) n ∧
    score = n / (max left.length right.length : Nat)
  zero : left = [] ∨ right = [] → score = 0
  symmetric : swapped = score
  bounded : 0 ≤ score ∧ score ≤ 1
  one : score = 1 ↔ left = right ∧ left ≠ []

theorem lcsRatio_of_empty (m : LetterCase) {value groundTruth : Text}
    (h : (value.lower m).words = [] ∨ (groundTruth.lower m).words = []) :
    lcsRatio m value groundTruth = 0 := by
  unfold lcsRatio
  exact if_pos h

theorem lcsRatio_eq (m : LetterCase) {value groundTruth : Text}
    (h : ¬ ((value.lower m).words = [] ∨ (groundTruth.lower m).words = [])) :
    lcsRatio m value groundTruth =
      longest (value.lower m).words (groundTruth.lower m).words /
        (max (value.lower m).words.length (groundTruth.lower m).words.length : Nat) := by
  unfold lcsRatio
  dsimp only
  rw [if_neg h, getLastD_lastRow]

theorem max_length_pos (h : ¬ (left = [] ∨ right = [])) : 0 < max left.length right.length := by
  have hleft := List.length_pos_iff.mpr (fun hnil : left = [] => h (.inl hnil))
  omega

theorem lcsRatio_eq_one_iff (m : LetterCase) {value groundTruth : Text} :
    lcsRatio m value groundTruth = 1 ↔
      (value.lower m).words = (groundTruth.lower m).words ∧ (value.lower m).words ≠ [] := by
  by_cases hempty : (value.lower m).words = [] ∨ (groundTruth.lower m).words = []
  · rw [lcsRatio_of_empty m hempty]
    refine ⟨fun h => absurd h zero_ne_one, ?_⟩
    rintro ⟨hsame, hne⟩
    rcases hempty with h | h
    · exact absurd h hne
    · exact absurd (hsame.trans h) hne
  · have hposQ : (0 : ℚ) <
        (max (value.lower m).words.length (groundTruth.lower m).words.length : Nat) := by
      exact_mod_cast max_length_pos hempty
    rw [lcsRatio_eq m hempty, div_eq_one_iff_eq hposQ.ne', Nat.cast_inj,
      common_subsequences.longest_eq_max_iff]
    exact ⟨fun h => ⟨h, fun hnil => hempty (.inl hnil)⟩, fun h => h.1⟩

/-- The score of two texts is that of their words in lower case. -/
theorem lcsRatio_is_longest_common_subsequence (m : LetterCase) (value groundTruth : Text) :
    IsLcsScore (value.lower m).words (groundTruth.lower m).words (lcsRatio m value groundTruth)
      (lcsRatio m groundTruth value) := by
  by_cases hempty : (value.lower m).words = [] ∨ (groundTruth.lower m).words = []
  · refine ⟨?_, fun _ => lcsRatio_of_empty m hempty, ?_, ?_, lcsRatio_eq_one_iff m⟩
    · intro hleft hright
      rcases hempty with h | h
      · exact absurd h hleft
      · exact absurd h hright
    · rw [lcsRatio_of_empty m hempty, lcsRatio_of_empty m hempty.symm]
    · rw [lcsRatio_of_empty m hempty]
      exact ⟨le_refl 0, zero_le_one⟩
  · refine ⟨?_, fun h => absurd h hempty, ?_, ?_, lcsRatio_eq_one_iff m⟩
    · intro _ _
      exact ⟨_, common_subsequences.isGreatest_longest _ _, lcsRatio_eq m hempty⟩
    · rw [lcsRatio_eq m hempty, lcsRatio_eq m (fun h => hempty h.symm),
        common_subsequences.longest_comm, Nat.max_comm]
    · rw [lcsRatio_eq m hempty]
      have hposQ : (0 : ℚ) <
          (max (value.lower m).words.length (groundTruth.lower m).words.length : Nat) := by
        exact_mod_cast max_length_pos hempty
      refine ⟨by positivity, ?_⟩
      rw [div_le_one hposQ]
      exact_mod_cast (common_subsequences.longest_le_left _ _).trans (Nat.le_max_left _ _)

end uni_agent.tasks.hotpotqa
