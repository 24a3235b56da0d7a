-- Runs of a machine given by a partial step function: an action that is not enabled has no
-- next state. What one step keeps, every run keeps. And lists each of whose items follows from
-- the items before it.
import Mathlib.Data.List.Induction
import Mathlib.Logic.Basic

namespace runs

variable {σ α : Type*} (step : σ → α → Option σ)

/-- The state after a list of actions, when each of them is enabled in its turn. -/
def run (s : σ) : List α → Option σ
  | [] => some s
  | a :: rest => (step s a).bind (fun t => run t rest)

/-- Every action of the list meets `Q` in the state it is taken in. -/
def Meets (Q : σ → α → Prop) : σ → List α → Prop
  | _, [] => True
  | s, a :: rest => Q s a ∧ ∀ t, step s a = some t → Meets Q t rest

/-- The same with a test that can be computed. -/
def checks (check : σ → α → Bool) : σ → List α → Bool
  | _, [] => true
  | s, a :: rest => check s a && (step s a).all (fun t => checks check t rest)

/-- What `read` gives at each step of a run, in order. -/
def collect {β : Type*} (read : σ → α → List β) : σ → List α → List β
  | _, [] => []
  | s, a :: rest => read s a ++ (step s a).elim [] (fun t => collect read t rest)

variable {step}

theorem run_cons {s u : σ} {a : α} {rest : List α} :
    run step s (a :: rest) = some u ↔ ∃ t, step s a = some t ∧ run step t rest = some u := by
  simp [run, Option.bind_eq_some_iff]

theorem meets_of_forall {Q : α → Prop} {s : σ} {xs : List α} (h : ∀ a ∈ xs, Q a) :
    Meets step (fun _ a => Q a) s xs := by
  induction xs generalizing s with
  | nil => trivial
  | cons a rest ih =>
    exact ⟨h a (by simp), fun t _ => ih (fun b hb => h b (by simp [hb]))⟩

theorem Meets.imp {Q R : σ → α → Prop} (himp : ∀ s a, Q s a → R s a) {s : σ} {xs : List α}
    (h : Meets step Q s xs) : Meets step R s xs := by
  induction xs generalizing s with
  | nil => trivial
  | cons a rest ih => exact ⟨himp s a h.1, fun t ht => ih (h.2 t ht)⟩

theorem Meets.and {Q R : σ → α → Prop} {s : σ} {xs : List α} (hq : Meets step Q s xs)
    (hr : Meets step R s xs) : Meets step (fun s a => Q s a ∧ R s a) s xs := by
  induction xs generalizing s with
  | nil => trivial
  | cons a rest ih => exact ⟨⟨hq.1, hr.1⟩, fun t ht => ih (hq.2 t ht) (hr.2 t ht)⟩

theorem meets_of_checks {check : σ → α → Bool} {Q : σ → α → Prop}
    (hcheck : ∀ s a, check s a = true → Q s a) {s : σ} {xs : List α}
    (h : checks step check s xs = true) : Meets step Q s xs := by
  induction xs generalizing s with
  | nil => trivial
  | cons a rest ih =>
    obtain ⟨ha, hrest⟩ := Bool.and_eq_true_iff.mp h
    refine ⟨hcheck s a ha, ?_⟩
    intro t ht
    rw [ht] at hrest
    exact ih hrest

theorem meets_collect {β : Type*} (read : σ → α → List β) (s : σ) (xs : List α) :
    Meets step (fun t a => ∀ b ∈ read t a, b ∈ collect step read s xs) s xs := by
  induction xs generalizing s with
  | nil => trivial
  | cons a rest ih =>
    refine ⟨fun b hb => List.mem_append_left _ hb, ?_⟩
    intro t ht
    refine (ih t).imp ?_
    intro u a' h b hb
    refine List.mem_append_right _ ?_
    rw [ht]
    exact h b hb

/-- The rule for invariants: what every step that meets `Q` keeps holds at the end of a run
whose steps all meet `Q`. -/
theorem run_invariant {Q : σ → α → Prop} (I : σ → Prop)
    (hstep : ∀ s a t, I s → Q s a → step s a = some t → I t) {s t : σ} {xs : List α}
    (hrun : run step s xs = some t) (hmeets : Meets step Q s xs) (hs : I s) : I t := by
  induction xs generalizing s with
  | nil =>
    cases hrun
    exact hs
  | cons a rest ih =>
    obtain ⟨u, hu, hrest⟩ := run_cons.mp hrun
    exact ih hrest (hmeets.2 u hu) (hstep s a u hs hmeets.1 hu)

/-- The same rule when every step counts. -/
theorem run_invariant_of_step (I : σ → Prop) (hstep : ∀ s a t, I s → step s a = some t → I t)
    {s t : σ} {xs : List α} (hrun : run step s xs = some t) (hs : I s) : I t :=
  run_invariant (Q := fun _ _ => True) I (fun s a t hI _ h => hstep s a t hI h) hrun
    (meets_of_forall (Q := fun _ => True) (fun _ _ => trivial)) hs

/-- An invariant holds in every state in which an action of a run is taken. -/
theorem Meets.invariant {Q : σ → α → Prop} (I : σ → Prop)
    (hstep : ∀ s a t, I s → Q s a → step s a = some t → I t) {s : σ} {xs : List α}
    (hmeets : Meets step Q s xs) (hs : I s) : Meets step (fun s _ => I s) s xs := by
  induction xs generalizing s with
  | nil => trivial
  | cons a rest ih =>
    exact ⟨hs, fun t ht => ih (hmeets.2 t ht) (hstep s a t hs hmeets.1 ht)⟩

theorem meets_of_invariant (I : σ → Prop) (hstep : ∀ s a t, I s → step s a = some t → I t) {s : σ}
    {xs : List α} (hs : I s) : Meets step (fun s _ => I s) s xs := by
  induction xs generalizing s with
  | nil => trivial
  | cons a rest ih => exact ⟨hs, fun t ht => ih (hstep s a t hs ht)⟩

theorem run_append {s u : σ} {xs ys : List α} :
    run step s (xs ++ ys) = some u ↔ ∃ t, run step s xs = some t ∧ run step t ys = some u := by
  induction xs generalizing s with
  | nil => simp [run]
  | cons a rest ih =>
    rw [List.cons_append, run_cons]
    constructor
    · rintro ⟨t, ht, hrest⟩
      obtain ⟨v, hv, hys⟩ := ih.mp hrest
      exact ⟨v, run_cons.mpr ⟨t, ht, hv⟩, hys⟩
    · rintro ⟨v, hxs, hys⟩
      obtain ⟨t, ht, hrest⟩ := run_cons.mp hxs
      exact ⟨t, ht, ih.mpr ⟨v, hrest, hys⟩⟩

theorem run_concat {s t u : σ} {xs : List α} {a : α} (hrun : run step s xs = some t)
    (hstep : step t a = some u) : run step s (xs ++ [a]) = some u :=
  run_append.mpr ⟨t, hrun, by simp [run, hstep]⟩

/-- The rule for what is said about a state and the steps that led to it. -/
theorem run_history (I : List α → σ → Prop) {s : σ} (hs : I [] s)
    (hstep : ∀ xs t a u, run step s xs = some t → I xs t → step t a = some u → I (xs ++ [a]) u)
    {xs : List α} {t : σ} (hrun : run step s xs = some t) : I xs t := by
  induction xs using List.reverseRecOn generalizing t with
  | nil =>
    cases hrun
    exact hs
  | append_singleton xs a ih =>
    obtain ⟨u, hu, ha⟩ := run_append.mp hrun
    obtain ⟨v, hv, ⟨⟩⟩ := run_cons.mp ha
    exact hstep xs u a t hu (ih hu) hv

theorem collect_ite {keep : α → Bool} (s : σ) {xs : List α} {t : σ}
    (hrun : run step s xs = some t) :
    collect step (fun _ a => if keep a then [a] else []) s xs = xs.filter keep := by
  induction xs generalizing s with
  | nil => rfl
  | cons a rest ih =>
    obtain ⟨u, hu, hrest⟩ := run_cons.mp hrun
    simp only [collect, hu, Option.elim_some, ih u hrest, List.filter_cons]
    split <;> rfl

/-- The rule for simulations: when a second machine follows each step by some steps of its own and
stays related, it follows a run by all of these in order. -/
theorem run_simulation {τ β : Type*} {other : τ → β → Option τ} {R : σ → τ → Prop}
    {follow : σ → α → List β}
    (hstep : ∀ s a t u, R s u → step s a = some t →
      ∃ v, run other u (follow s a) = some v ∧ R t v)
    {s t : σ} {u : τ} {xs : List α} (hrun : run step s xs = some t) (hs : R s u) :
    ∃ v, run other u (collect step follow s xs) = some v ∧ R t v := by
  induction xs generalizing s u with
  | nil =>
    cases hrun
    exact ⟨u, rfl, hs⟩
  | cons a rest ih =>
    obtain ⟨w, hw, hrest⟩ := run_cons.mp hrun
    obtain ⟨v, hv, hR⟩ := hstep s a w u hs hw
    obtain ⟨v', hv', hR'⟩ := ih hrest hR
    refine ⟨v', ?_, hR'⟩
    simp only [collect, hw, Option.elim_some]
    exact run_append.mpr ⟨v, hv, hv'⟩

theorem forall_mem_collect {β : Type*} {read : σ → α → List β} {P : β → Prop} {s : σ} {xs : List α}
    (h : Meets step (fun s a => ∀ b ∈ read s a, P b) s xs) : ∀ b ∈ collect step read s xs, P b := by
  induction xs generalizing s with
  | nil =>
    intro b hb
    cases hb
  | cons a rest ih =>
    intro b hb
    rcases List.mem_append.mp hb with hb | hb
    · exact h.1 b hb
    · cases ht : step s a with
      | none => simp [ht] at hb
      | some t =>
        rw [ht] at hb
        exact ih (h.2 t ht) b hb

/-- What goes back over every step, and holds at the end of a run, held all along. -/
theorem meets_of_final (J : σ → Prop) (hback : ∀ s a t, step s a = some t → J t → J s) {s t : σ}
    {xs : List α} (hrun : run step s xs = some t) (ht : J t) :
    J s ∧ Meets step (fun s _ => J s) s xs := by
  induction xs generalizing s with
  | nil =>
    cases hrun
    exact ⟨ht, trivial⟩
  | cons a rest ih =>
    obtain ⟨u, hu, hrest⟩ := run_cons.mp hrun
    obtain ⟨hJ, hmeets⟩ := ih hrest
    refine ⟨hback s a u hu hJ, hback s a u hu hJ, ?_⟩
    intro v hv
    cases hu.symm.trans hv
    exact hmeets

/-- The state at the end of a run whose steps all meet `Q`. -/
def Reachable (step : σ → α → Option σ) (Q : σ → α → Prop) (s t : σ) : Prop :=
  ∃ xs, run step s xs = some t ∧ Meets step Q s xs

theorem Reachable.refl (Q : σ → α → Prop) (s : σ) : Reachable step Q s s := ⟨[], rfl, trivial⟩

theorem Reachable.snoc {Q : σ → α → Prop} {s t u : σ} {a : α} (h : Reachable step Q s t)
    (hQ : Q t a) (hu : step t a = some u) : Reachable step Q s u := by
  obtain ⟨xs, hrun, hmeets⟩ := h
  refine ⟨xs ++ [a], run_concat hrun hu, ?_⟩
  clear hu
  induction xs generalizing s with
  | nil =>
    cases hrun
    exact ⟨hQ, fun _ _ => trivial⟩
  | cons b rest ih =>
    obtain ⟨v, hv, hrest⟩ := run_cons.mp hrun
    refine ⟨hmeets.1, ?_⟩
    intro w hw
    cases hv.symm.trans hw
    exact ih hrest (hmeets.2 _ hv)

/-! ## Lists whose items follow from those before them -/

section EachAfter

variable {β : Type*} {Q R : List β → β → Prop} {xs ys : List β} {x : β}

/-- `Q` holds of each item and the items before it. -/
def EachAfter (Q : List β → β → Prop) (xs : List β) : Prop :=
  ∀ before x after, xs = before ++ x :: after → Q before x

theorem eachAfter_nil : EachAfter Q [] := by
  intro before x after h
  simp at h

theorem eachAfter_concat : EachAfter Q (xs ++ [x]) ↔ EachAfter Q xs ∧ Q xs x := by
  constructor
  · intro h
    refine ⟨?_, h xs x [] rfl⟩
    rintro before y after rfl
    exact h before y (after ++ [x]) (by simp)
  · rintro ⟨hxs, hx⟩ before y after h
    rcases List.eq_nil_or_concat after with rfl | ⟨front, last, rfl⟩
    · obtain ⟨rfl, heq⟩ := List.append_inj' h rfl
      cases heq
      exact hx
    · rw [List.concat_eq_append, ← List.cons_append, ← List.append_assoc] at h
      obtain ⟨rfl, _⟩ := List.append_inj' h rfl
      exact hxs before y front rfl

theorem EachAfter.imp (himp : ∀ before x, Q before x → R before x) (h : EachAfter Q xs) :
    EachAfter R xs :=
  fun before x after heq => himp before x (h before x after heq)

end EachAfter

end runs
