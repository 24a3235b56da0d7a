-- Lists that are split on a separator, from the front and without overlaps. A separator that does
-- not overlap itself splits the two sides of each of its occurrences on their own.
import Mathlib.Data.List.Infix

namespace separated_lists

variable {α : Type*}

/-- No end of one list is a front of the other, the whole lists apart. -/
def NoOverlap (first second : List α) : Prop :=
  ∀ n < first.length, 0 < n → first.drop (first.length - n) ≠ second.take n

instance [DecidableEq α] (first second : List α) : Decidable (NoOverlap first second) := by
  unfold NoOverlap
  infer_instance

/-- A list begins nowhere in the front of another one. -/
def BeginsNot (sep front back : List α) : Prop :=
  ∀ before after, before ++ after = front → after ≠ [] → ¬ sep <+: after ++ back

section Overlaps

variable {sep other xs ys front back : List α}

/-- A list that begins in a front and does not end there has its own end behind the front. -/
theorem prefix_append_cases (h : sep <+: xs ++ ys) :
    sep <+: xs ∨ ∃ rest, rest ≠ [] ∧ sep = xs ++ rest ∧ rest <+: ys := by
  rcases List.prefix_or_prefix_of_prefix h (List.prefix_append xs ys) with hshort | ⟨rest, rfl⟩
  · exact .inl hshort
  · cases rest with
    | nil =>
      rw [List.append_nil]
      exact .inl List.prefix_rfl
    | cons x rest =>
      exact .inr ⟨x :: rest, List.cons_ne_nil x rest, rfl,
        (List.prefix_append_right_inj xs).mp h⟩

/-- Lists without an overlap: none of the ends of the first is a front of the second. -/
theorem NoOverlap.not_prefix (h : NoOverlap sep other) {rest : List α} (hrest : rest ≠ [])
    (hxs : xs ≠ []) (hsep : sep = xs ++ rest) : ¬ rest <+: other := by
  intro hprefix
  have hpos := List.length_pos_iff.mpr hrest
  have hxspos := List.length_pos_iff.mpr hxs
  apply h rest.length (by rw [hsep, List.length_append]; omega) hpos
  rw [← List.prefix_iff_eq_take.mp hprefix, hsep, List.length_append, Nat.add_sub_cancel,
    List.drop_left]

/-- An occurrence does not begin in a list without one when what follows begins with a list that
it does not overlap. -/
theorem beginsNot_of_noOverlap (hfree : ¬ sep <:+: xs) (hoverlap : NoOverlap sep other)
    (hinside : ¬ other <:+: sep) : BeginsNot sep xs (other ++ ys) := by
  intro before after hxs hne hprefix
  rcases prefix_append_cases hprefix with hshort | ⟨rest, hrest, hsep, hbehind⟩
  · exact hfree (hshort.isInfix.trans ⟨before, [], by rw [← hxs, List.append_nil]⟩)
  · rcases List.prefix_or_prefix_of_prefix hbehind (List.prefix_append other ys) with
      hwithin | hlong
    · exact hoverlap.not_prefix hrest hne hsep hwithin
    · apply hinside
      rw [hsep]
      exact hlong.isInfix.trans ⟨after, [], by rw [List.append_nil]⟩

/-- A list does not begin in one that it does not overlap either way. -/
theorem beginsNot_inside (houter : ¬ sep <:+: other) (hoverlap : NoOverlap other sep)
    (hinside : ¬ other <:+: sep) : BeginsNot sep other back := by
  intro before after hother hne hprefix
  rcases prefix_append_cases hprefix with hshort | ⟨rest, hrest, hsep, -⟩
  · exact houter (hshort.isInfix.trans ⟨before, [], by rw [← hother, List.append_nil]⟩)
  · have hfront : after <+: sep := by
      rw [hsep]
      exact List.prefix_append after rest
    by_cases hbefore : before = []
    · apply hinside
      rw [← hother, hbefore]
      exact hfront.isInfix
    · exact hoverlap.not_prefix hne hbefore hother.symm hfront

theorem BeginsNot.append (hfront : BeginsNot sep front (other ++ back))
    (hother : BeginsNot sep other back) : BeginsNot sep (front ++ other) back := by
  intro before after heq hne hprefix
  rcases List.append_eq_append_iff.mp heq with ⟨rest, rfl, rfl⟩ | ⟨rest, rfl, rfl⟩
  · by_cases hrest : rest = []
    · subst hrest
      exact hother [] other rfl hne hprefix
    · apply hfront before rest rfl hrest
      rw [← List.append_assoc]
      exact hprefix
  · exact hother rest after rfl hne hprefix

/-- A separator that does not begin a list does not begin in it and end behind it. -/
theorem not_prefix_of_missing (hunbordered : NoOverlap sep sep) {x : α} (h : ¬ sep <+: x :: xs)
    (ys : List α) : ¬ sep <+: x :: xs ++ (sep ++ ys) := by
  intro hprefix
  rcases prefix_append_cases hprefix with hshort | ⟨rest, hrest, hsep, hbehind⟩
  · exact h hshort
  · apply hunbordered.not_prefix hrest (List.cons_ne_nil x xs) hsep
    apply List.prefix_of_prefix_length_le hbehind (List.prefix_append sep ys)
    rw [hsep, List.length_append]
    omega

end Overlaps

/-! ## Splitting -/

/-- An element in front of the first piece. -/
def consHead (x : α) : List (List α) → List (List α)
  | [] => [[x]]
  | piece :: rest => (x :: piece) :: rest

theorem consHead_append (x : α) {pieces : List (List α)} (h : pieces ≠ [])
    (others : List (List α)) : consHead x (pieces ++ others) = consHead x pieces ++ others := by
  cases pieces with
  | nil => exact absurd rfl h
  | cons piece rest => rfl

variable [DecidableEq α] {sep xs ys front back : List α}

/-- The pieces between the occurrences of a separator, after `skip` more elements of the last
one. -/
def splitFrom (sep : List α) : Nat → List α → List (List α)
  | _, [] => [[]]
  | skip + 1, _ :: xs => splitFrom sep skip xs
  | 0, x :: xs =>
    if sep.isPrefixOf (x :: xs) then [] :: splitFrom sep (sep.length - 1) xs
    else consHead x (splitFrom sep 0 xs)

def split (sep xs : List α) : List (List α) := splitFrom sep 0 xs

theorem splitFrom_cons (sep : List α) (x : α) (xs : List α) :
    splitFrom sep 0 (x :: xs) =
      if sep <+: x :: xs then [] :: splitFrom sep (sep.length - 1) xs
      else consHead x (splitFrom sep 0 xs) := by
  rw [splitFrom]
  simp only [List.isPrefixOf_iff_prefix]

theorem splitFrom_ne_nil (sep : List α) (skip : Nat) (xs : List α) :
    splitFrom sep skip xs ≠ [] := by
  induction xs generalizing skip with
  | nil => simp [splitFrom]
  | cons x xs ih =>
    cases skip with
    | succ skip => exact ih skip
    | zero =>
      rw [splitFrom_cons]
      split
      · exact List.cons_ne_nil _ _
      · cases h : splitFrom sep 0 xs with
        | nil => exact absurd h (ih 0)
        | cons piece rest => exact List.cons_ne_nil _ _

theorem splitFrom_skip (sep front back : List α) :
    splitFrom sep front.length (front ++ back) = splitFrom sep 0 back := by
  induction front with
  | nil => rfl
  | cons x front ih => exact ih

/-- A list without the separator is one piece. -/
theorem split_of_not_infix (h : ¬ sep <:+: xs) : split sep xs = [xs] := by
  unfold split
  induction xs with
  | nil => rfl
  | cons x xs ih =>
    rw [List.infix_cons_iff, not_or] at h
    rw [splitFrom_cons, if_neg h.1, ih h.2]
    rfl

/-- An occurrence at the front ends an empty piece. -/
theorem split_prefix (hne : sep ≠ []) (ys : List α) :
    split sep (sep ++ ys) = [] :: split sep ys := by
  unfold split
  cases hsep : sep with
  | nil => exact absurd hsep hne
  | cons x rest =>
    have hfound : x :: rest <+: x :: (rest ++ ys) := List.prefix_append (x :: rest) ys
    rw [List.cons_append, splitFrom_cons, if_pos hfound, List.length_cons, Nat.add_sub_cancel,
      splitFrom_skip]

/-- No occurrence that begins in a front is one with its end behind it. -/
theorem splitFrom_append (hne : sep ≠ []) (hunbordered : NoOverlap sep sep) {skip : Nat}
    (hskip : skip ≤ xs.length) :
    splitFrom sep skip (xs ++ (sep ++ ys)) = splitFrom sep skip xs ++ split sep ys := by
  induction xs generalizing skip with
  | nil =>
    rw [Nat.le_zero.mp hskip]
    exact split_prefix hne ys
  | cons x xs ih =>
    cases skip with
    | succ skip => exact ih (Nat.le_of_succ_le_succ hskip)
    | zero =>
      rw [List.cons_append, splitFrom_cons, splitFrom_cons]
      by_cases hfound : sep <+: x :: xs
      · have hlength : sep.length - 1 ≤ xs.length := by
          have := hfound.length_le
          rw [List.length_cons] at this
          omega
        have hlong : sep <+: x :: (xs ++ (sep ++ ys)) := by
          rw [← List.cons_append]
          exact hfound.trans (List.prefix_append _ _)
        rw [if_pos hfound, if_pos hlong, ih hlength]
        rfl
      · have hnone : ¬ sep <+: x :: (xs ++ (sep ++ ys)) := by
          rw [← List.cons_append]
          exact not_prefix_of_missing hunbordered hfound ys
        rw [if_neg hfound, if_neg hnone, ih (Nat.zero_le _),
          consHead_append x (splitFrom_ne_nil sep 0 xs)]

/-- Both sides of an occurrence are split on their own. -/
theorem split_append (hne : sep ≠ []) (hunbordered : NoOverlap sep sep) (xs ys : List α) :
    split sep (xs ++ (sep ++ ys)) = split sep xs ++ split sep ys :=
  splitFrom_append hne hunbordered (Nat.zero_le _)

/-- The first piece of a list goes on to where the separator first begins. -/
theorem split_of_beginsNot (h : BeginsNot sep front back) :
    split sep (front ++ back) = (split sep back).modifyHead (front ++ ·) := by
  unfold split
  induction front with
  | nil =>
    rw [List.nil_append]
    cases splitFrom sep 0 back <;> rfl
  | cons x front ih =>
    have hnone : ¬ sep <+: x :: (front ++ back) := h [] (x :: front) rfl (List.cons_ne_nil x front)
    have hrest : BeginsNot sep front back := by
      intro before after hfront hne
      exact h (x :: before) after (congrArg (x :: ·) hfront) hne
    rw [List.cons_append, splitFrom_cons, if_neg hnone, ih hrest]
    cases hpieces : splitFrom sep 0 back with
    | nil => exact absurd hpieces (splitFrom_ne_nil sep 0 back)
    | cons piece rest => rfl

/-- A list with the separator in it, up to the last occurrence. -/
theorem exists_last_of_infix (h : sep <:+: xs) (hne : sep ≠ []) :
    ∃ front back, xs = front ++ (sep ++ back) ∧ ¬ sep <:+: back := by
  induction xs with
  | nil => exact absurd (List.eq_nil_of_infix_nil h) hne
  | cons x xs ih =>
    by_cases hinfix : sep <:+: xs
    · obtain ⟨front, back, rfl, hback⟩ := ih hinfix
      exact ⟨x :: front, back, rfl, hback⟩
    · rcases List.infix_cons_iff.mp h with hprefix | hinfix'
      · obtain ⟨back, hback⟩ := hprefix
        refine ⟨[], back, hback.symm, ?_⟩
        intro hlater
        apply hinfix
        cases sep with
        | nil => exact absurd rfl hne
        | cons s rest =>
          obtain ⟨rfl, rfl⟩ := List.cons.inj hback
          exact List.infix_append_of_infix_right hlater
      · exact absurd hinfix' hinfix

/-- The last piece is what stands behind the last occurrence. -/
theorem getLast?_split_append (hne : sep ≠ []) (hunbordered : NoOverlap sep sep)
    (hback : ¬ sep <:+: back) : (split sep (front ++ (sep ++ back))).getLast? = some back := by
  rw [split_append hne hunbordered, split_of_not_infix hback,
    List.getLast?_append_of_ne_nil _ (List.cons_ne_nil back []), List.getLast?_singleton]

/-- The second piece is there before a further occurrence, or is what begins behind it. -/
theorem getD_split_append_of_found (hne : sep ≠ []) (hunbordered : NoOverlap sep sep)
    (h : sep <:+: xs) (ys : List α) :
    (split sep (xs ++ (sep ++ ys))).getD 1 [] = (split sep xs).getD 1 [] := by
  rw [split_append hne hunbordered]
  obtain ⟨front, back, rfl, -⟩ := exists_last_of_infix h hne
  rw [split_append hne hunbordered]
  have hfront := List.length_pos_iff.mpr (splitFrom_ne_nil sep 0 front)
  have hback := List.length_pos_iff.mpr (splitFrom_ne_nil sep 0 back)
  rw [List.getD_eq_getElem?_getD, List.getD_eq_getElem?_getD, List.getElem?_append_left]
  rw [List.length_append]
  unfold split
  omega

theorem getD_split_append_of_missing (hne : sep ≠ []) (hunbordered : NoOverlap sep sep)
    (h : ¬ sep <:+: xs) (ys : List α) :
    (split sep (xs ++ (sep ++ ys))).getD 1 [] = (split sep ys).headD [] := by
  rw [split_append hne hunbordered, split_of_not_infix h]
  cases split sep ys <;> rfl

/-! ## Behind the first occurrence -/

/-- The list behind the first occurrence of a separator, which may occur again in it. -/
def behindFirst (sep : List α) : List α → List α
  | [] => []
  | x :: xs => if sep.isPrefixOf (x :: xs) then (x :: xs).drop sep.length else behindFirst sep xs

theorem behindFirst_cons (sep : List α) (x : α) (xs : List α) :
    behindFirst sep (x :: xs) =
      if sep <+: x :: xs then (x :: xs).drop sep.length else behindFirst sep xs := by
  rw [behindFirst]
  simp only [List.isPrefixOf_iff_prefix]

/-- What stands behind a list with an occurrence does not change where the first one is. -/
theorem behindFirst_append_of_found (hne : sep ≠ []) (h : sep <:+: xs) (ys : List α) :
    behindFirst sep (xs ++ ys) = behindFirst sep xs ++ ys := by
  induction xs with
  | nil => exact absurd (List.eq_nil_of_infix_nil h) hne
  | cons x xs ih =>
    rw [List.cons_append, behindFirst_cons, behindFirst_cons]
    by_cases hfound : sep <+: x :: xs
    · have hlong : sep <+: x :: (xs ++ ys) := by
        rw [← List.cons_append]
        exact hfound.trans (List.prefix_append _ _)
      rw [if_pos hfound, if_pos hlong, ← List.cons_append,
        List.drop_append_of_le_length hfound.length_le]
    · have hrest : sep <:+: xs := (List.infix_cons_iff.mp h).resolve_left hfound
      have hnone : ¬ sep <+: x :: (xs ++ ys) := by
        rw [← List.cons_append]
        intro hprefix
        apply hfound
        apply List.prefix_of_prefix_length_le hprefix (List.prefix_append (x :: xs) ys)
        rw [List.length_cons]
        have := hrest.length_le
        omega
      rw [if_neg hfound, if_neg hnone, ih hrest]

theorem behindFirst_append_of_missing (hne : sep ≠ []) (hunbordered : NoOverlap sep sep)
    (h : ¬ sep <:+: xs) (ys : List α) : behindFirst sep (xs ++ (sep ++ ys)) = ys := by
  induction xs with
  | nil =>
    cases hsep : sep with
    | nil => exact absurd hsep hne
    | cons x rest =>
      have hfound : x :: rest <+: x :: (rest ++ ys) := List.prefix_append (x :: rest) ys
      rw [List.nil_append, List.cons_append, behindFirst_cons, if_pos hfound, ← List.cons_append,
        List.drop_left]
  | cons x xs ih =>
    rw [List.infix_cons_iff, not_or] at h
    have hnone : ¬ sep <+: x :: (xs ++ (sep ++ ys)) := by
      rw [← List.cons_append]
      exact not_prefix_of_missing hunbordered h.1 ys
    rw [List.cons_append, behindFirst_cons, if_neg hnone, ih h.2]

theorem length_behindFirst_le (sep xs : List α) : (behindFirst sep xs).length ≤ xs.length := by
  induction xs with
  | nil => exact Nat.le_refl _
  | cons x xs ih =>
    unfold behindFirst
    split
    · rw [List.length_drop]
      omega
    · rw [List.length_cons]
      omega

/-- The first piece of a list is a part of it. -/
theorem length_headD_splitFrom_le (sep : List α) (skip : Nat) (xs : List α) :
    ((splitFrom sep skip xs).headD []).length ≤ xs.length := by
  induction xs generalizing skip with
  | nil => simp [splitFrom]
  | cons x xs ih =>
    cases skip with
    | succ skip => exact (ih skip).trans (Nat.le_succ _)
    | zero =>
      unfold splitFrom
      split
      · exact Nat.zero_le _
      · have hlength := ih 0
        cases hsplit : splitFrom sep 0 xs with
        | nil => exact absurd hsplit (splitFrom_ne_nil sep 0 xs)
        | cons piece pieces =>
          rw [hsplit] at hlength
          exact Nat.succ_le_succ hlength

/-- Nothing behind an occurrence is in the first piece. -/
theorem headD_split_append (hne : sep ≠ []) (hunbordered : NoOverlap sep sep) (xs ys : List α) :
    (split sep (xs ++ (sep ++ ys))).headD [] = (split sep xs).headD [] := by
  rw [split_append hne hunbordered]
  cases hsplit : split sep xs with
  | nil => exact absurd hsplit (splitFrom_ne_nil sep 0 xs)
  | cons piece pieces => rfl

end separated_lists
