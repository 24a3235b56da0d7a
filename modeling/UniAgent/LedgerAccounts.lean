-- The books of the ledger. Each committed generation is held by one chain or was dropped by one
-- rollback, and each chain has the time at which it was last committed to or closed.
import Mathlib.Algebra.Order.Group.Multiset
import Mathlib.Tactic.Abel
import UniAgent.TokenTruth

namespace uni_agent.session

namespace Ledger

/-! ## Who holds the generations -/

/-- The commits are what the given chains hold, and what rollbacks dropped. -/
def Accounts (l : Ledger) (ids : List Nat) : Prop :=
  l.commits.Perm (ids.flatMap l.surviving ++ l.dropped.flatten)

variable {l : Ledger} {id : Nat} {ids rest : List Nat} {g : Generation} {rolledBack : Bool}

theorem Accounts.perm {ids' : List Nat} (h : l.Accounts ids) (hperm : ids.Perm ids') :
    l.Accounts ids' :=
  h.trans ((hperm.flatMap_right l.surviving).append_right _)

theorem Accounts.born (h : l.Accounts ids) (hnone : l.surviving id = []) :
    l.Accounts (id :: ids) := by
  unfold Accounts
  rw [List.flatMap_cons, hnone]
  exact h

/-- What the other chains hold does not change with one chain. -/
theorem flatMap_surviving_congr {l' : Ledger} (hrest : id ∉ rest)
    (hsame : ∀ id', id' ≠ id → l'.surviving id' = l.surviving id') :
    rest.flatMap l'.surviving = rest.flatMap l.surviving := by
  apply List.flatMap_congr
  intro id' hid'
  apply hsame
  rintro rfl
  exact hrest hid'

theorem dropLast_append_getLast? {α : Type} (xs : List α) :
    xs.dropLast ++ xs.getLast?.toList = xs := by
  rcases List.eq_nil_or_concat xs with rfl | ⟨before, last, rfl⟩
  · rfl
  · simp

/-- A rollback moves the last generation of a chain to the dropped ones. -/
theorem Accounts.rollBack (h : l.Accounts (id :: rest)) (hrest : id ∉ rest) :
    (l.rollBack id).Accounts (id :: rest) := by
  have hsame : ∀ id', id' ≠ id → (l.rollBack id).surviving id' = l.surviving id' :=
    fun id' hne => Function.update_of_ne hne _ _
  unfold Accounts at h ⊢
  rw [List.flatMap_cons, flatMap_surviving_congr hrest hsame]
  rw [List.flatMap_cons, ← dropLast_append_getLast? (l.surviving id)] at h
  apply h.trans
  simp only [Ledger.rollBack, Function.update_self, List.flatten_append, List.flatten_singleton]
  rw [← Multiset.coe_eq_coe]
  simp only [← Multiset.coe_add]
  abel

theorem Accounts.append (h : l.Accounts (id :: rest)) (hrest : id ∉ rest) {l' : Ledger}
    (hcommits : l'.commits = l.commits ++ [g])
    (hsurviving : l'.surviving = Function.update l.surviving id (l.surviving id ++ [g]))
    (hdropped : l'.dropped = l.dropped) : l'.Accounts (id :: rest) := by
  have hsame : ∀ id', id' ≠ id → l'.surviving id' = l.surviving id' := by
    intro id' hne
    rw [hsurviving, Function.update_of_ne hne]
  unfold Accounts at h ⊢
  rw [List.flatMap_cons, flatMap_surviving_congr hrest hsame, hcommits, hdropped, hsurviving,
    Function.update_self]
  rw [List.flatMap_cons] at h
  apply (h.append_right [g]).trans
  rw [← Multiset.coe_eq_coe]
  simp only [← Multiset.coe_add]
  abel

theorem Accounts.commit (h : l.Accounts (id :: rest)) (hrest : id ∉ rest) :
    (l.commit id rolledBack g).Accounts (id :: rest) := by
  cases rolledBack with
  | false => exact h.append hrest rfl rfl rfl
  | true => exact (h.rollBack hrest).append hrest rfl rfl rfl

theorem Accounts.close (h : l.Accounts (id :: rest)) (hrest : id ∉ rest) :
    (l.close id rolledBack).Accounts (id :: rest) := by
  cases rolledBack with
  | false => exact h
  | true => exact h.rollBack hrest

/-- A deleted chain leaves all that it held to the dropped ones. -/
theorem Accounts.delete (h : l.Accounts (id :: rest)) (hrest : id ∉ rest) :
    (l.delete id).Accounts rest := by
  have hsame : ∀ id', id' ≠ id → (l.delete id).surviving id' = l.surviving id' :=
    fun id' hne => Function.update_of_ne hne _ _
  unfold Accounts at h ⊢
  rw [flatMap_surviving_congr hrest hsame]
  rw [List.flatMap_cons] at h
  apply h.trans
  simp only [Ledger.delete, List.flatten_append, List.flatten_singleton]
  rw [← Multiset.coe_eq_coe]
  simp only [← Multiset.coe_add]
  abel

/-! ## When a chain was last touched -/

/-- The place, from 1 on, of the last commit to a chain or of its closure; 0 without one. -/
def lastTouch (l : Ledger) (id : Nat) : Nat := l.touched.length - l.touched.reverse.idxOf id

theorem lastTouch_self {l' : Ledger} (h : l'.touched = l.touched ++ [id]) :
    l'.lastTouch id = l.touched.length + 1 := by
  simp [lastTouch, h]

theorem lastTouch_of_ne {l' : Ledger} {id' : Nat} (h : l'.touched = l.touched ++ [id])
    (hne : id' ≠ id) : l'.lastTouch id' = l.lastTouch id' := by
  unfold lastTouch
  rw [h, List.reverse_append, List.reverse_singleton, List.singleton_append,
    List.idxOf_cons_ne _ (fun heq => hne heq.symm)]
  simp

/-- Two chains are not touched at the same time. -/
theorem lastTouch_injective {id' : Nat} (hid : id ∈ l.touched) (hid' : id' ∈ l.touched)
    (h : l.lastTouch id = l.lastTouch id') : id = id' := by
  have hlt := List.idxOf_lt_length_of_mem (List.mem_reverse.mpr hid)
  have hlt' := List.idxOf_lt_length_of_mem (List.mem_reverse.mpr hid')
  rw [List.length_reverse] at hlt hlt'
  unfold lastTouch at h
  apply (List.idxOf_inj (List.mem_reverse.mpr hid)).mp
  omega

@[simp] theorem touched_commit : (l.commit id rolledBack g).touched = l.touched ++ [id] := by
  cases rolledBack <;> rfl

@[simp] theorem touched_close : (l.close id rolledBack).touched = l.touched ++ [id] := by
  cases rolledBack <;> rfl

@[simp] theorem closed_commit : (l.commit id rolledBack g).closed = l.closed := by
  cases rolledBack <;> rfl

@[simp] theorem closed_close : (l.close id rolledBack).closed = l.closed ++ [id] := by
  cases rolledBack <;> rfl

@[simp] theorem touched_delete : (l.delete id).touched = l.touched := rfl

@[simp] theorem closed_delete : (l.delete id).closed = l.closed := rfl

end Ledger

end uni_agent.session
