-- Checks that end at their first fault: the inputs they accept, and what they raise besides the
-- rejections they are there for.
import Mathlib.Data.List.Forall2

namespace validation

variable {ε α β σ : Type} {rejection : ε → Prop}

/-- A check goes through exactly when its input is accepted. `raises` has the errors it ends with
that are no rejections. -/
structure Checks (rejection : ε → Prop) (x : Except ε α) (accepted : Prop) (raises : ε → Prop) :
    Prop where
  ok_iff : (∃ a, x = .ok a) ↔ accepted
  error_iff : ∀ e, ¬ rejection e → (x = .error e ↔ raises e)

/-- A check that ends with rejections only. -/
def Validates (rejection : ε → Prop) (x : Except ε α) (accepted : Prop) : Prop :=
  Checks rejection x accepted (fun _ => False)

section Rules

variable {x : Except ε α} {y : Except ε α} {accepted accepted' : Prop} {raises raises' : ε → Prop}

theorem Checks.congr (h : Checks rejection x accepted raises) (haccepted : accepted ↔ accepted')
    (hraises : ∀ e, raises e ↔ raises' e) : Checks rejection x accepted' raises' :=
  ⟨h.ok_iff.trans haccepted, fun e he => (h.error_iff e he).trans (hraises e)⟩

theorem Validates.congr (h : Validates rejection x accepted) (haccepted : accepted ↔ accepted') :
    Validates rejection x accepted' :=
  Checks.congr h haccepted (fun _ => Iff.rfl)

theorem validates_ok (a : α) : Validates rejection (.ok a : Except ε α) True :=
  ⟨by simp, by simp⟩

theorem validates_error {e : ε} (h : rejection e) :
    Validates rejection (.error e : Except ε α) False := by
  refine ⟨by simp, fun e' he' => ?_⟩
  simp only [Except.error.injEq, iff_false]
  rintro rfl
  exact he' h

theorem checks_error (e : ε) : Checks rejection (.error e : Except ε α) False (· = e) :=
  ⟨by simp, fun e' _ => by simpa using eq_comm⟩

/-- A second check runs only when the first went through. -/
theorem Checks.bind {f : α → Except ε β} {later : Prop} {raisesLater : ε → Prop}
    (h : Checks rejection x accepted raises)
    (hf : ∀ a, x = .ok a → Checks rejection (f a) later raisesLater) :
    Checks rejection (x >>= f) (accepted ∧ later)
      (fun e => raises e ∨ accepted ∧ raisesLater e) := by
  cases x with
  | error e =>
    have haccepted : ¬ accepted := by
      rw [← h.ok_iff]
      simp
    have hbind : ((.error e : Except ε α) >>= f) = .error e := rfl
    refine ⟨by simp [haccepted, hbind], fun e' he' => ?_⟩
    rw [hbind, Except.error.injEq, ← h.error_iff e' he', Except.error.injEq]
    simp [haccepted]
  | ok a =>
    have haccepted : accepted := h.ok_iff.mp ⟨a, rfl⟩
    have hbind : ((.ok a : Except ε α) >>= f) = f a := rfl
    have hraises : ∀ e, ¬ rejection e → ¬ raises e := by
      intro e he
      rw [← h.error_iff e he]
      simp
    refine ⟨?_, fun e he => ?_⟩
    · rw [hbind, (hf a rfl).ok_iff]
      simp [haccepted]
    · rw [hbind, (hf a rfl).error_iff e he]
      simp [haccepted, hraises e he]

theorem Validates.bind {f : α → Except ε β} {later : Prop}
    (h : Validates rejection x accepted)
    (hf : ∀ a, x = .ok a → Validates rejection (f a) later) :
    Validates rejection (x >>= f) (accepted ∧ later) :=
  Checks.congr (Checks.bind h hf) Iff.rfl (by simp)

/-- What is done with the result changes nothing when it cannot fail. -/
theorem Checks.map (h : Checks rejection x accepted raises) (f : α → β) :
    Checks rejection (x >>= fun a => pure (f a)) accepted raises :=
  (h.bind (fun a _ => validates_ok (f a))).congr (by simp) (by simp)

theorem Validates.map (h : Validates rejection x accepted) (f : α → β) :
    Validates rejection (x >>= fun a => pure (f a)) accepted :=
  Checks.map h f

theorem Validates.ite {c : Prop} [Decidable c] (hx : c → Validates rejection x accepted)
    (hy : ¬ c → Validates rejection y accepted') :
    Validates rejection (if c then x else y) (if c then accepted else accepted') := by
  by_cases hc : c
  · simpa only [if_pos hc] using hx hc
  · simpa only [if_neg hc] using hy hc

end Rules

/-! ## Lists -/

/-- The places of a list with an item in front: the first one, and those of the rest. -/
theorem forall_places_cons {P : List β → β → List β → Prop} {first : β} {items : List β} :
    (∀ front item back, first :: items = front ++ item :: back → P front item back) ↔
      P [] first items ∧
        ∀ front item back, items = front ++ item :: back → P (first :: front) item back := by
  refine ⟨?_, ?_⟩
  · intro h
    refine ⟨h [] first items rfl, ?_⟩
    rintro front item back rfl
    exact h (first :: front) item back rfl
  · rintro ⟨hfirst, hrest⟩ front item back hitems
    cases front with
    | nil =>
      cases hitems
      exact hfirst
    | cons other front =>
      cases hitems
      exact hrest front item back rfl

/-- The first item that is not accepted raises an error. -/
def FirstRaise (accepted : β → Prop) (raises : β → ε → Prop) (items : List β) (e : ε) : Prop :=
  ∃ front item back, items = front ++ item :: back ∧ (∀ other ∈ front, accepted other) ∧
    raises item e

theorem firstRaise_cons {accepted : β → Prop} {raises : β → ε → Prop} {item : β} {items : List β}
    {e : ε} : FirstRaise accepted raises (item :: items) e ↔
      raises item e ∨ accepted item ∧ FirstRaise accepted raises items e := by
  refine ⟨?_, ?_⟩
  · rintro ⟨front, raised, back, hitems, hfront, hraised⟩
    cases front with
    | nil =>
      cases hitems
      exact Or.inl hraised
    | cons first front =>
      cases hitems
      rw [List.forall_mem_cons] at hfront
      exact Or.inr ⟨hfront.1, front, raised, back, rfl, hfront.2, hraised⟩
  · rintro (hraised | ⟨haccepted, front, raised, back, rfl, hfront, hraised⟩)
    · exact ⟨[], item, items, rfl, by simp, hraised⟩
    · exact ⟨item :: front, raised, back, rfl,
        List.forall_mem_cons.mpr ⟨haccepted, hfront⟩, hraised⟩

theorem checks_mapM {f : β → Except ε α} {accepted : β → Prop} {raises : β → ε → Prop}
    (h : ∀ item, Checks rejection (f item) (accepted item) (raises item)) (items : List β) :
    Checks rejection (items.mapM f) (∀ item ∈ items, accepted item)
      (FirstRaise accepted raises items) := by
  induction items with
  | nil =>
    rw [List.mapM_nil]
    exact Checks.congr (validates_ok []) (by simp) (by simp [FirstRaise])
  | cons item items ih =>
    rw [List.mapM_cons]
    refine ((h item).bind (fun a _ => ih.map (fun rest => a :: rest))).congr ?_ (fun e => ?_)
    · rw [List.forall_mem_cons]
    · rw [firstRaise_cons]

theorem validates_mapM {f : β → Except ε α} {accepted : β → Prop}
    (h : ∀ item, Validates rejection (f item) (accepted item)) (items : List β) :
    Validates rejection (items.mapM f) (∀ item ∈ items, accepted item) :=
  (checks_mapM h items).congr Iff.rfl (by simp [FirstRaise])

/-- The results stand in the order of the items. -/
theorem forall₂_of_mapM {f : β → Except ε α} {items : List β} {results : List α}
    (h : items.mapM f = .ok results) :
    List.Forall₂ (fun item result => f item = .ok result) items results := by
  induction items generalizing results with
  | nil =>
    cases h
    exact .nil
  | cons item items ih =>
    rw [List.mapM_cons] at h
    cases hfirst : f item with
    | error e => simp [hfirst, bind, Except.bind] at h
    | ok first =>
      cases hrest : items.mapM f with
      | error e => simp [hfirst, hrest, bind, Except.bind] at h
      | ok rest =>
        simp only [hfirst, hrest] at h
        cases h
        exact .cons hfirst (ih hrest)

theorem exists_item_of_mapM {f : β → Except ε α} {items : List β} {results : List α} {result : α}
    (h : items.mapM f = .ok results) (hresult : result ∈ results) :
    ∃ item ∈ items, f item = .ok result := by
  have hall := forall₂_of_mapM h
  clear h
  induction hall with
  | nil => cases hresult
  | cons hfirst _ ih =>
    rcases List.mem_cons.mp hresult with rfl | hrest
    · exact ⟨_, List.mem_cons_self, hfirst⟩
    · obtain ⟨item, hitem, hok⟩ := ih hrest
      exact ⟨item, List.mem_cons_of_mem _ hitem, hok⟩

/-- A loop whose state has no say in what is accepted. -/
theorem validates_foldlM {f : σ → β → Except ε σ} {accepted : β → Prop}
    (h : ∀ state item, Validates rejection (f state item) (accepted item)) (items : List β)
    (state : σ) : Validates rejection (items.foldlM f state) (∀ item ∈ items, accepted item) := by
  induction items generalizing state with
  | nil =>
    rw [List.foldlM_nil]
    exact (validates_ok state).congr (by simp)
  | cons item items ih =>
    rw [List.foldlM_cons]
    exact ((h state item).bind (fun next _ => ih next)).congr List.forall_mem_cons.symm

end validation
