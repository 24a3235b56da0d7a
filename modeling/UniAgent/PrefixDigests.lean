-- Chains of digests: each digest is made from the one before it and from one more item, so
-- the last digest stands for the whole list. The rules compare lists by their digests.
import Mathlib.Data.List.Forall2
import Mathlib.Data.List.Induction

namespace prefix_digests

variable {δ α κ : Type*} (step : δ → α → δ) (start : δ)

/-- The digest of a whole list. -/
def digest (xs : List α) : δ := xs.foldl step start

/-- The digests of `xs` put after the digests that exist, each made from the last one there. -/
def extend (existing : List δ) : List α → List δ
  | [] => existing
  | x :: rest => extend (existing ++ [step (existing.getLastD start) x]) rest

variable {step start}

theorem digest_concat (xs : List α) (x : α) :
    digest step start (xs ++ [x]) = step (digest step start xs) x := by
  simp [digest]

@[simp] theorem length_extend (existing : List δ) (xs : List α) :
    (extend step start existing xs).length = existing.length + xs.length := by
  induction xs generalizing existing with
  | nil => simp [extend]
  | cons x rest ih =>
    simp only [extend, ih, List.length_append, List.length_cons, List.length_nil]
    omega

/-- Two extensions in a row are the extension by both lists. -/
theorem extend_extend (existing : List δ) (xs ys : List α) :
    extend step start (extend step start existing xs) ys =
      extend step start existing (xs ++ ys) := by
  induction xs generalizing existing with
  | nil => rfl
  | cons x rest ih => exact ih _

theorem getLastD_extend (existing : List δ) (xs : List α) :
    (extend step start existing xs).getLastD start = xs.foldl step (existing.getLastD start) := by
  induction xs generalizing existing with
  | nil => rfl
  | cons x rest ih =>
    rw [extend, ih]
    simp

theorem extend_concat (xs : List α) (x : α) :
    extend step start [] (xs ++ [x]) =
      extend step start [] xs ++ [digest step start (xs ++ [x])] := by
  rw [← extend_extend, digest_concat, digest, extend, getLastD_extend]
  rfl

/-- The digest at place `k` is the digest of the first `k + 1` items. -/
theorem getElem?_extend (xs : List α) (k : Nat) :
    (extend step start [] xs)[k]? =
      if k < xs.length then some (digest step start (xs.take (k + 1))) else none := by
  induction xs using List.reverseRecOn with
  | nil => simp [extend]
  | append_singleton xs x ih =>
    rw [extend_concat, List.getElem?_append, length_extend]
    simp only [List.length_nil, Nat.zero_add, List.length_append, List.length_cons]
    by_cases hk : k < xs.length
    · rw [if_pos hk, ih, if_pos hk, if_pos (by omega), List.take_append_of_le_length (by omega)]
    · rw [if_neg hk]
      by_cases he : k = xs.length
      · subst he
        rw [if_pos (by omega), List.take_of_length_le (by simp)]
        simp
      · rw [if_neg (by omega)]
        simp
        omega

theorem getLast?_extend (xs : List α) (hne : xs ≠ []) :
    (extend step start [] xs).getLast? = some (digest step start xs) := by
  have hpos := List.length_pos_iff.mpr hne
  rw [List.getLast?_eq_getElem?, getElem?_extend, length_extend]
  simp only [List.length_nil, Nat.zero_add]
  rw [if_pos (by omega), List.take_of_length_le (by omega)]

theorem forall₂_of_map_eq {key : α → κ} {xs ys : List α}
    (h : xs.map key = ys.map key) : List.Forall₂ (fun x y => key x = key y) xs ys := by
  rw [← List.forall₂_eq_eq_eq, List.forall₂_map_left_iff, List.forall₂_map_right_iff] at h
  exact h

/-- Items with the same key give the same digest. -/
theorem digest_congr {key : α → κ} (hstep : ∀ d x y, key x = key y → step d x = step d y)
    {xs ys : List α} (h : xs.map key = ys.map key) :
    digest step start xs = digest step start ys := by
  have hpairs := forall₂_of_map_eq h
  unfold digest
  clear h
  induction hpairs generalizing start with
  | nil => rfl
  | cons hkey _ ih =>
    rw [List.foldl_cons, List.foldl_cons, hstep _ _ _ hkey]
    exact ih

/-- When no two steps that make the digests of `xs` and `ys` collide, and none of them gives the
start again, equal digests come from lists with equal keys. -/
theorem keys_eq_of_prefixes {key : α → κ} {xs ys : List α}
    (hstep : ∀ us x vs y, us ++ [x] <+: xs → vs ++ [y] <+: ys →
      step (digest step start us) x = step (digest step start vs) y →
        digest step start us = digest step start vs ∧ key x = key y)
    (hxs : ∀ us x, us ++ [x] <+: xs → step (digest step start us) x ≠ start)
    (hys : ∀ vs y, vs ++ [y] <+: ys → step (digest step start vs) y ≠ start)
    (h : digest step start xs = digest step start ys) : xs.map key = ys.map key := by
  induction xs using List.reverseRecOn generalizing ys with
  | nil =>
    rcases List.eq_nil_or_concat ys with rfl | ⟨ys, y, rfl⟩
    · rfl
    · rw [List.concat_eq_append] at h hys
      rw [digest_concat] at h
      exact absurd h.symm (hys ys y (List.prefix_refl _))
  | append_singleton xs x ih =>
    rcases List.eq_nil_or_concat ys with rfl | ⟨ys, y, rfl⟩
    · rw [digest_concat] at h
      exact absurd h (hxs xs x (List.prefix_refl _))
    · rw [List.concat_eq_append] at h hys hstep ⊢
      rw [digest_concat, digest_concat] at h
      obtain ⟨hd, hk⟩ := hstep xs x ys y (List.prefix_refl _) (List.prefix_refl _) h
      have hrest := ih (fun us u vs v hus hvs => hstep us u vs v
          (hus.trans (List.prefix_append _ _)) (hvs.trans (List.prefix_append _ _)))
        (fun us u hus => hxs us u (hus.trans (List.prefix_append _ _)))
        (fun vs v hvs => hys vs v (hvs.trans (List.prefix_append _ _))) hd
      simp [hrest, hk]

end prefix_digests
