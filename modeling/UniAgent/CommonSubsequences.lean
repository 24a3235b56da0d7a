-- The length of the longest common subsequences of two lists, and the recursion that computes it
-- from the ends of the lists.
import Mathlib.Order.Lattice.Nat
import Mathlib.Order.Bounds.Basic

namespace common_subsequences

variable {α : Type*} {xs ys zs : List α} {x y : α}

/-- The lengths of the common subsequences of two lists. -/
def lengths (xs ys : List α) : Set Nat :=
  {n | ∃ zs : List α, zs.Sublist xs ∧ zs.Sublist ys ∧ zs.length = n}

/-- The greatest of these lengths. -/
noncomputable def longest (xs ys : List α) : Nat := sSup (lengths xs ys)

theorem le_length_of_mem {n : Nat} (h : n ∈ lengths xs ys) : n ≤ xs.length := by
  obtain ⟨zs, hxs, -, rfl⟩ := h
  exact hxs.length_le

theorem isGreatest_longest (xs ys : List α) : IsGreatest (lengths xs ys) (longest xs ys) := by
  have hbounded : BddAbove (lengths xs ys) := ⟨xs.length, fun _ h => le_length_of_mem h⟩
  have hnonempty : (lengths xs ys).Nonempty :=
    ⟨0, [], List.nil_sublist _, List.nil_sublist _, rfl⟩
  exact ⟨Nat.sSup_mem hnonempty hbounded, fun _ h => le_csSup hbounded h⟩

theorem length_le_longest (hxs : zs.Sublist xs) (hys : zs.Sublist ys) :
    zs.length ≤ longest xs ys :=
  (isGreatest_longest xs ys).2 ⟨zs, hxs, hys, rfl⟩

theorem exists_longest (xs ys : List α) :
    ∃ zs : List α, zs.Sublist xs ∧ zs.Sublist ys ∧ zs.length = longest xs ys :=
  (isGreatest_longest xs ys).1

/-- A bound of all the common subsequences bounds the longest of them. -/
theorem longest_le {n : Nat}
    (h : ∀ zs : List α, zs.Sublist xs → zs.Sublist ys → zs.length ≤ n) : longest xs ys ≤ n := by
  obtain ⟨zs, hxs, hys, hlength⟩ := exists_longest xs ys
  rw [← hlength]
  exact h zs hxs hys

theorem longest_comm (xs ys : List α) : longest xs ys = longest ys xs := by
  apply Nat.le_antisymm
  · exact longest_le (fun zs hxs hys => length_le_longest hys hxs)
  · exact longest_le (fun zs hys hxs => length_le_longest hxs hys)

theorem longest_le_left (xs ys : List α) : longest xs ys ≤ xs.length :=
  longest_le (fun _ hxs _ => hxs.length_le)

theorem longest_le_right (xs ys : List α) : longest xs ys ≤ ys.length :=
  longest_le (fun _ _ hys => hys.length_le)

theorem longest_nil_left (ys : List α) : longest [] ys = 0 :=
  Nat.le_zero.mp (longest_le_left [] ys)

theorem longest_nil_right (xs : List α) : longest xs [] = 0 :=
  Nat.le_zero.mp (longest_le_right xs [])

theorem longest_self (xs : List α) : longest xs xs = xs.length := by
  apply Nat.le_antisymm (longest_le_left xs xs)
  exact length_le_longest (List.Sublist.refl xs) (List.Sublist.refl xs)

/-- Only equal lists have a common subsequence as long as the longer of them. -/
theorem longest_eq_max_iff : longest xs ys = max xs.length ys.length ↔ xs = ys := by
  refine ⟨?_, ?_⟩
  · intro h
    obtain ⟨zs, hxs, hys, hlength⟩ := exists_longest xs ys
    have hsame : zs = xs := hxs.eq_of_length_le (by omega)
    rw [← hsame]
    exact hys.eq_of_length_le (by omega)
  · rintro rfl
    rw [longest_self, Nat.max_self]

/-! ## From the ends -/

/-- A subsequence of a list with one more element takes that element or does not. -/
theorem sublist_concat_cases (h : zs.Sublist (xs ++ [x])) :
    zs.Sublist xs ∨ ∃ ws : List α, zs = ws ++ [x] ∧ ws.Sublist xs := by
  obtain ⟨front, back, rfl, hfront, hback⟩ := List.sublist_append_iff.mp h
  rcases List.sublist_singleton.mp hback with rfl | rfl
  · rw [List.append_nil]
    exact .inl hfront
  · exact .inr ⟨front, rfl, hfront⟩

theorem longest_concat_same (xs ys : List α) (x : α) :
    longest (xs ++ [x]) (ys ++ [x]) = longest xs ys + 1 := by
  apply Nat.le_antisymm
  · apply longest_le
    intro zs hxs hys
    rcases sublist_concat_cases hxs with hshort | ⟨ws, rfl, hws⟩
    · rcases sublist_concat_cases hys with hshort' | ⟨ws, rfl, hws⟩
      · exact Nat.le_succ_of_le (length_le_longest hshort hshort')
      · have hle := length_le_longest ((List.sublist_append_left ws [x]).trans hshort) hws
        rw [List.length_append]
        exact Nat.succ_le_succ hle
    · -- Without its last element a subsequence is one of the list without its own.
      have hws' : ws.Sublist ys := by
        rcases sublist_concat_cases hys with hshort | ⟨other, hother, hys⟩
        · exact (List.sublist_append_left ws [x]).trans hshort
        · rw [(List.append_inj' hother rfl).1]
          exact hys
      rw [List.length_append]
      exact Nat.succ_le_succ (length_le_longest hws hws')
  · obtain ⟨zs, hxs, hys, hlength⟩ := exists_longest xs ys
    have hle := length_le_longest (hxs.append (List.Sublist.refl [x]))
      (hys.append (List.Sublist.refl [x]))
    rw [List.length_append, hlength] at hle
    exact hle

theorem longest_mono_left (xs : List α) (x : α) (ys : List α) :
    longest xs ys ≤ longest (xs ++ [x]) ys :=
  longest_le (fun _ hxs hys =>
    length_le_longest (hxs.trans (List.sublist_append_left xs [x])) hys)

theorem longest_mono_right (xs ys : List α) (y : α) :
    longest xs ys ≤ longest xs (ys ++ [y]) :=
  longest_le (fun _ hxs hys =>
    length_le_longest hxs (hys.trans (List.sublist_append_left ys [y])))

theorem longest_concat_ne (xs ys : List α) (h : x ≠ y) :
    longest (xs ++ [x]) (ys ++ [y]) =
      max (longest xs (ys ++ [y])) (longest (xs ++ [x]) ys) := by
  apply Nat.le_antisymm
  · apply longest_le
    intro zs hxs hys
    rcases sublist_concat_cases hxs with hxs' | ⟨ws, rfl, -⟩
    · exact (length_le_longest hxs' hys).trans (Nat.le_max_left _ _)
    · rcases sublist_concat_cases hys with hys' | ⟨other, hother, -⟩
      · exact (length_le_longest hxs hys').trans (Nat.le_max_right _ _)
      · have hlast := (List.append_inj' hother rfl).2
        exact absurd (List.cons.inj hlast).1 h
  · exact Nat.max_le.mpr ⟨longest_mono_left xs x (ys ++ [y]), longest_mono_right (xs ++ [x]) ys y⟩

end common_subsequences
