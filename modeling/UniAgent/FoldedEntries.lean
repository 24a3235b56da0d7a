-- The list that the fold of system entries gives, written down entry by entry: where each entry
-- of the input goes, and which reminders it takes up.
import UniAgent.PrefixStability

namespace uni_agent.anthropic

variable {py : PythonLibrary}

/-! ## The folded list -/

/-- What becomes of the entries behind a user entry. -/
def foldedBehind (py : PythonLibrary) : List Json → List Json
  | [] => []
  | entry :: rest =>
    if isSystemEntry entry then foldedBehind py rest
    else if isUserEntry entry then
      appendReminders py entry (remindersOf py (beforeUser rest)) :: foldedBehind py rest
    else entry :: foldedBehind py rest

/-- The first user entry takes up what waits. -/
def takeUp (py : PythonLibrary) (pending : String) (user : Json) : Json :=
  if pending = "" then user else foldReminder py pending true user

/-- What becomes of the entries when there is no user entry before them. -/
def foldedFront (py : PythonLibrary) (pending : String) : List Json → List Json
  | [] => if pending = "" then [] else [.obj [("role", .str "user"), ("content", .str pending)]]
  | entry :: rest =>
    if isSystemEntry entry then
      foldedFront py (joinReminders pending (reminder? py entry).toList) rest
    else if isUserEntry entry then
      appendReminders py (takeUp py pending entry) (remindersOf py (beforeUser rest)) ::
        foldedBehind py rest
    else entry :: foldedFront py pending rest

variable {messages front post : List Json} {l l' : FoldLocals} {user entry : Json}

theorem beforeUser_cons_other (h : isUserEntry entry = false) (rest : List Json) :
    beforeUser (entry :: rest) = entry :: beforeUser rest := by
  simp [beforeUser, h]

theorem beforeUser_cons_user (h : isUserEntry entry = true) (rest : List Json) :
    beforeUser (entry :: rest) = [] := by
  simp [beforeUser, h]

@[simp] theorem remindersOf_nil : remindersOf py [] = [] := rfl

theorem remindersOf_cons (entry : Json) (rest : List Json) :
    remindersOf py (entry :: rest) = (reminder? py entry).toList ++ remindersOf py rest := by
  unfold remindersOf
  cases h : reminder? py entry <;> simp [h]

theorem reminder?_of_other (h : isSystemEntry entry = false) : reminder? py entry = none := by
  simp [reminder?, h]

/-- Behind a user entry the loop goes as `foldedBehind` says. -/
theorem fold_behind (h : messages.foldlM (foldEntry py) l = .ok l')
    (hout : l.out = front ++ user :: post) (hpending : l.pending = "")
    (huser : isUserEntry user = true) (hpost : post.any isUserEntry = false) :
    l' = ⟨front ++ appendReminders py user (remindersOf py (beforeUser messages)) ::
      (post ++ foldedBehind py messages), ""⟩ := by
  induction messages generalizing l front user post with
  | nil =>
    cases h
    obtain ⟨out, pending⟩ := l'
    simp only at hout hpending
    simp [hout, hpending, beforeUser, remindersOf, appendReminders, foldedBehind]
  | cons message messages ih =>
    rw [List.foldlM_cons, bind_eq_ok] at h
    obtain ⟨l1, hfold, h⟩ := h
    cases folded_of_foldEntry hfold with
    | silent hsystem hnone =>
      rw [ih h hout hpending huser hpost,
        beforeUser_cons_other (isUserEntry_of_isSystemEntry hsystem), remindersOf_cons, hnone]
      simp [foldedBehind, hsystem]
    | appended reminder out hsystem hreminder hfolded =>
      rw [hout, foldIntoLastUser_append, foldIntoLastUser_of_last huser hpost] at hfolded
      cases hfolded
      rw [ih h rfl hpending (by rw [isUserEntry_foldReminder]; exact huser) hpost,
        beforeUser_cons_other (isUserEntry_of_isSystemEntry hsystem), remindersOf_cons, hreminder]
      simp [foldedBehind, hsystem, appendReminders]
    | delayed reminder hsystem _ hfolded =>
      have hany := foldIntoLastUser_eq_none_iff.mp hfolded
      simp [hout, huser] at hany
    | prepended _ hne _ => exact absurd hpending hne
    | kept hsystem _ =>
      cases hmessage : isUserEntry message with
      | true =>
        have hout' : l.out ++ [message] = (front ++ user :: post) ++ message :: [] := by simp [hout]
        rw [ih h hout' hpending hmessage (by simp), beforeUser_cons_user hmessage]
        simp [foldedBehind, hsystem, hmessage, remindersOf, appendReminders]
      | false =>
        have hout' : l.out ++ [message] = front ++ user :: (post ++ [message]) := by simp [hout]
        rw [ih h hout' hpending huser (by simp [hpost, hmessage]),
          beforeUser_cons_other hmessage, remindersOf_cons, reminder?_of_other hsystem]
        simp [foldedBehind, hsystem, hmessage]

/-- Up to the first user entry the loop goes as `foldedFront` says. -/
theorem fold_front (h : messages.foldlM (foldEntry py) l = .ok l')
    (hl : l.out.any isUserEntry = false) :
    l'.finish = l.out ++ foldedFront py l.pending messages := by
  induction messages generalizing l with
  | nil =>
    cases h
    unfold FoldLocals.finish foldedFront
    split <;> simp
  | cons message messages ih =>
    rw [List.foldlM_cons, bind_eq_ok] at h
    obtain ⟨l1, hfold, h⟩ := h
    have hfold := folded_of_foldEntry hfold
    have hany := hfold.any_isUserEntry
    cases hfold with
    | silent hsystem hnone =>
      rw [ih h hl]
      simp [foldedFront, hsystem, hnone, joinReminders]
    | appended reminder out hsystem _ hfolded =>
      rw [foldIntoLastUser_eq_none_iff.mpr hl] at hfolded
      cases hfolded
    | delayed reminder hsystem hreminder _ =>
      rw [ih h hl]
      simp [foldedFront, hsystem, hreminder, joinReminders]
    | prepended hsystem hpending huser =>
      have htaken : isUserEntry (foldReminder py l.pending true message) = true := by
        rw [isUserEntry_foldReminder]
        exact huser
      rw [fold_behind h rfl rfl htaken rfl]
      simp [foldedFront, hsystem, huser, takeUp, hpending, FoldLocals.finish]
    | kept hsystem hother =>
      cases huser : isUserEntry message with
      | true =>
        have hpending : l.pending = "" := by simpa [huser] using hother
        rw [fold_behind h rfl hpending huser rfl]
        simp [foldedFront, hsystem, huser, takeUp, hpending, FoldLocals.finish]
      | false =>
        rw [ih h (by simp [hl, huser])]
        simp [foldedFront, hsystem, huser]

theorem foldMidListSystemIntoUser_eq_ok {folded : Json}
    (h : foldMidListSystemIntoUser py (.arr messages) = .ok folded) :
    folded = .arr (foldedFront py "" messages) := by
  obtain ⟨l, hl, rfl⟩ := foldMidListSystemIntoUser_arr h
  have hfinish := fold_front hl rfl
  rw [hfinish]
  rfl

end uni_agent.anthropic
