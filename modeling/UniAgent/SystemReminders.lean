-- System entries inside an Anthropic message list are folded into user entries. What is appended
-- to a list changes the messages before it only through a reminder that finds its user entry
-- there.
import UniAgent.AnthropicContent

namespace uni_agent.anthropic

variable {py : PythonLibrary}

/-! ## Where a reminder goes -/

theorem isUserEntry_foldReminder (text : String) (prepend : Bool) (message : Json) :
    isUserEntry (foldReminder py text prepend message) = isUserEntry message := by
  cases message with
  | obj fields =>
    have hrole : "role" ≠ "content" := by decide
    simp only [foldReminder, isUserEntry, hasField]
    unfold foldReminderIntoUser
    repeat' split
    all_goals rw [Dict.get?_set_ne _ hrole]
  | _ => rfl

theorem foldIntoLastUser_eq_none_iff {reminder : String} {messages : List Json} :
    foldIntoLastUser py reminder messages = none ↔ messages.any isUserEntry = false := by
  induction messages with
  | nil => simp [foldIntoLastUser]
  | cons message rest ih =>
    rw [foldIntoLastUser, List.any_cons]
    cases hrest : foldIntoLastUser py reminder rest with
    | some folded =>
      have hany : rest.any isUserEntry = true := by
        rw [← Bool.not_eq_false, ← ih, hrest]
        simp
      simp [hany]
    | none => simp [ih.mp hrest]

/-- The last user entry takes the reminder up. -/
theorem foldIntoLastUser_of_last {reminder : String} {user : Json} {post : List Json}
    (huser : isUserEntry user = true) (hpost : post.any isUserEntry = false) :
    foldIntoLastUser py reminder (user :: post) =
      some (foldReminder py reminder false user :: post) := by
  rw [foldIntoLastUser, foldIntoLastUser_eq_none_iff.mpr hpost]
  simp [huser]

/-- A reminder goes behind the last user entry of the second list, when there is one. -/
theorem foldIntoLastUser_append (reminder : String) (front back : List Json) :
    foldIntoLastUser py reminder (front ++ back) =
      match foldIntoLastUser py reminder back with
      | some folded => some (front ++ folded)
      | none => (foldIntoLastUser py reminder front).map (· ++ back) := by
  induction front with
  | nil => cases hback : foldIntoLastUser py reminder back <;> simp [hback, foldIntoLastUser]
  | cons message front ih =>
    rw [List.cons_append, foldIntoLastUser, ih]
    cases foldIntoLastUser py reminder back with
    | some folded => rfl
    | none =>
      rw [foldIntoLastUser]
      cases foldIntoLastUser py reminder front with
      | some folded => rfl
      | none => cases isUserEntry message <;> simp

theorem foldIntoLastUser_eq_some {reminder : String} {messages folded : List Json}
    (h : foldIntoLastUser py reminder messages = some folded) :
    ∃ front user back, messages = front ++ user :: back ∧ isUserEntry user = true ∧
      back.any isUserEntry = false ∧
      folded = front ++ foldReminder py reminder false user :: back := by
  induction messages generalizing folded with
  | nil => simp [foldIntoLastUser] at h
  | cons message rest ih =>
    rw [foldIntoLastUser] at h
    cases hrest : foldIntoLastUser py reminder rest with
    | some others =>
      rw [hrest] at h
      cases h
      obtain ⟨front, user, back, rfl, huser, hback, rfl⟩ := ih hrest
      exact ⟨message :: front, user, back, rfl, huser, hback, rfl⟩
    | none =>
      rw [hrest] at h
      cases huser : isUserEntry message with
      | false => simp [huser] at h
      | true =>
        simp only [huser, if_true, Option.some.injEq] at h
        exact ⟨[], message, rest, rfl, huser, foldIntoLastUser_eq_none_iff.mp hrest, h.symm⟩

/-! ## The texts of system entries -/

/-- The reminder of a system entry that has a text. -/
def reminder? (py : PythonLibrary) (message : Json) : Option String :=
  if isSystemEntry message then
    match systemToText py (contentOf message) with
    | .ok text => if text = "" then none else some (reminderOf text)
    | .error _ => none
  else none

def remindersOf (py : PythonLibrary) (messages : List Json) : List String :=
  messages.filterMap (reminder? py)

/-- The entries that are no system entries. -/
def conversation (messages : List Json) : List Json :=
  messages.filter (fun message => !isSystemEntry message)

theorem reminderOf_ne_empty (text : String) : reminderOf text ≠ "" := by
  intro h
  unfold reminderOf at h
  have htext := congrArg String.toList h
  simp [String.toList_append] at htext

theorem reminder?_ne_empty {message : Json} {reminder : String}
    (h : reminder? py message = some reminder) : reminder ≠ "" := by
  unfold reminder? at h
  split at h
  · split at h
    · split at h
      · cases h
      · cases h
        exact reminderOf_ne_empty _
    · cases h
  · cases h

/-- One turn of the loop, by the kind of the entry. -/
inductive Folded (py : PythonLibrary) (l : FoldLocals) (message : Json) : FoldLocals → Prop
  | silent (hsystem : isSystemEntry message = true) (hnone : reminder? py message = none) :
      Folded py l message l
  | appended (reminder : String) (out : List Json) (hsystem : isSystemEntry message = true)
      (hreminder : reminder? py message = some reminder)
      (hout : foldIntoLastUser py reminder l.out = some out) :
      Folded py l message { l with out }
  | delayed (reminder : String) (hsystem : isSystemEntry message = true)
      (hreminder : reminder? py message = some reminder)
      (hout : foldIntoLastUser py reminder l.out = none) :
      Folded py l message { l with
        pending := if l.pending = "" then reminder else l.pending ++ "\n" ++ reminder }
  | prepended (hsystem : isSystemEntry message = false) (hpending : l.pending ≠ "")
      (huser : isUserEntry message = true) :
      Folded py l message { out := l.out ++ [foldReminder py l.pending true message] }
  | kept (hsystem : isSystemEntry message = false)
      (hother : l.pending = "" ∨ isUserEntry message = false) :
      Folded py l message { l with out := l.out ++ [message] }

theorem folded_of_foldEntry {l l' : FoldLocals} {message : Json}
    (h : foldEntry py l message = .ok l') : Folded py l message l' := by
  unfold foldEntry at h
  cases hsystem : isSystemEntry message with
  | true =>
    rw [hsystem, if_pos rfl, bind_eq_ok] at h
    obtain ⟨text, htext, h⟩ := h
    by_cases hempty : text = ""
    · rw [if_pos hempty] at h
      cases h
      exact .silent hsystem (by simp [reminder?, hsystem, htext, hempty])
    · have hreminder : reminder? py message = some (reminderOf text) := by
        simp [reminder?, hsystem, htext, hempty]
      rw [if_neg hempty] at h
      cases hout : foldIntoLastUser py (reminderOf text) l.out with
      | some out =>
        simp only [hout] at h
        cases h
        exact .appended _ out hsystem hreminder hout
      | none =>
        simp only [hout] at h
        cases h
        exact .delayed _ hsystem hreminder hout
  | false =>
    rw [hsystem, if_neg (by simp)] at h
    by_cases huser : l.pending ≠ "" ∧ isUserEntry message = true
    · rw [if_pos huser] at h
      cases h
      exact .prepended hsystem huser.1 huser.2
    · rw [if_neg huser] at h
      cases h
      refine .kept hsystem ?_
      by_cases hpending : l.pending = ""
      · exact Or.inl hpending
      · refine Or.inr ?_
        rw [← Bool.not_eq_true]
        exact fun htrue => huser ⟨hpending, htrue⟩

theorem isUserEntry_of_isSystemEntry {message : Json} (h : isSystemEntry message = true) :
    isUserEntry message = false :=
  hasField_unique h (by decide)

/-! ## What a turn of the loop keeps -/

variable {l l' : FoldLocals} {message : Json} {front back : List Json}

theorem any_isUserEntry_of_fold {reminder : String} {messages folded : List Json}
    (h : foldIntoLastUser py reminder messages = some folded) :
    messages.any isUserEntry = true ∧ folded.any isUserEntry = true := by
  obtain ⟨front, user, back, rfl, huser, _, rfl⟩ := foldIntoLastUser_eq_some h
  simp [huser, isUserEntry_foldReminder]

theorem Folded.any_isUserEntry (h : Folded py l message l') :
    l'.out.any isUserEntry = (l.out.any isUserEntry || isUserEntry message) := by
  cases h with
  | silent hsystem _ => simp [isUserEntry_of_isSystemEntry hsystem]
  | appended reminder out hsystem _ hout =>
    simp [any_isUserEntry_of_fold hout, isUserEntry_of_isSystemEntry hsystem]
  | delayed reminder hsystem _ _ => simp [isUserEntry_of_isSystemEntry hsystem]
  | prepended _ _ huser => simp [isUserEntry_foldReminder]
  | kept _ _ => simp

/-- No reminder waits when there is a user entry. -/
theorem Folded.pending (h : Folded py l message l')
    (hl : l.out.any isUserEntry = true → l.pending = "") :
    l'.out.any isUserEntry = true → l'.pending = "" := by
  intro hany
  rw [h.any_isUserEntry, Bool.or_eq_true] at hany
  cases h with
  | silent hsystem _ =>
    rw [isUserEntry_of_isSystemEntry hsystem] at hany
    exact hl (by simpa using hany)
  | appended reminder out hsystem _ hout => exact hl (any_isUserEntry_of_fold hout).1
  | delayed reminder hsystem _ hout =>
    rw [foldIntoLastUser_eq_none_iff.mp hout, isUserEntry_of_isSystemEntry hsystem] at hany
    simp at hany
  | prepended _ _ _ => rfl
  | kept _ hother =>
    rcases hany with hany | huser
    · exact hl hany
    · rcases hother with hpending | hnot
      · exact hpending
      · rw [huser] at hnot
        cases hnot

/-- A reminder cannot pass a user entry, so what stands in front of one stays. -/
def Guarded (front back : List Json) : Prop :=
  front.any isUserEntry = false ∨ back.any isUserEntry = true

theorem Folded.guarded (h : Folded py l message l') (hout : l.out = front ++ back)
    (hguard : Guarded front back) : ∃ back', l'.out = front ++ back' ∧ Guarded front back' := by
  have hconcat : ∀ entry, Guarded front (back ++ [entry]) :=
    fun entry => hguard.imp_right (fun hback => by simp [hback])
  cases h with
  | silent _ _ => exact ⟨back, hout, hguard⟩
  | appended reminder out _ _ hfold =>
    rw [hout, foldIntoLastUser_append] at hfold
    cases hback : foldIntoLastUser py reminder back with
    | some folded =>
      rw [hback] at hfold
      cases hfold
      exact ⟨folded, rfl, Or.inr (any_isUserEntry_of_fold hback).2⟩
    | none =>
      rw [hback] at hfold
      have hnone := foldIntoLastUser_eq_none_iff.mp hback
      rcases hguard with hfront | hany
      · rw [foldIntoLastUser_eq_none_iff.mpr hfront] at hfold
        cases hfold
      · rw [hany] at hnone
        cases hnone
  | delayed _ _ _ _ => exact ⟨back, hout, hguard⟩
  | prepended _ _ _ =>
    refine ⟨back ++ [foldReminder py l.pending true message], ?_, hconcat _⟩
    simp [hout]
  | kept _ _ =>
    refine ⟨back ++ [message], ?_, hconcat _⟩
    simp [hout]

/-! ## The loop -/

variable {messages : List Json}

/-- What each turn keeps, the loop keeps. -/
theorem fold_keeps {P : FoldLocals → Prop}
    (hstep : ∀ l message l', Folded py l message l' → P l → P l')
    (h : messages.foldlM (foldEntry py) l = .ok l') (hl : P l) : P l' := by
  induction messages generalizing l with
  | nil =>
    cases h
    exact hl
  | cons message messages ih =>
    rw [List.foldlM_cons, bind_eq_ok] at h
    obtain ⟨l1, hfold, h⟩ := h
    exact ih h (hstep l message l1 (folded_of_foldEntry hfold) hl)

theorem fold_guarded (h : messages.foldlM (foldEntry py) l = .ok l')
    (hout : l.out = front ++ back) (hguard : Guarded front back) :
    ∃ back', l'.out = front ++ back' :=
  (fold_keeps (P := fun l => ∃ back, l.out = front ++ back ∧ Guarded front back)
    (fun _ _ _ hfold ⟨_, hout, hguard⟩ => hfold.guarded hout hguard) h ⟨back, hout, hguard⟩).imp
    (fun _ => And.left)

theorem fold_pending (h : messages.foldlM (foldEntry py) l = .ok l')
    (hl : l.out.any isUserEntry = true → l.pending = "") :
    l'.out.any isUserEntry = true → l'.pending = "" :=
  fold_keeps (P := fun l => l.out.any isUserEntry = true → l.pending = "")
    (fun _ _ _ hfold => hfold.pending) h hl

theorem fold_any_isUserEntry (h : messages.foldlM (foldEntry py) l = .ok l') :
    l'.out.any isUserEntry = (l.out.any isUserEntry || messages.any isUserEntry) := by
  induction messages generalizing l with
  | nil =>
    cases h
    simp
  | cons message messages ih =>
    rw [List.foldlM_cons, bind_eq_ok] at h
    obtain ⟨l1, hfold, h⟩ := h
    rw [ih h, (folded_of_foldEntry hfold).any_isUserEntry, List.any_cons, Bool.or_assoc]

/-- The texts of reminders are put together line by line. -/
def joinReminders (pending : String) (reminders : List String) : String :=
  reminders.foldl (fun pending reminder =>
    if pending = "" then reminder else pending ++ "\n" ++ reminder) pending

/-- Without user entries, reminders wait, and the other entries are kept. -/
theorem fold_waiting (h : messages.foldlM (foldEntry py) l = .ok l')
    (hl : l.out.any isUserEntry = false) (hmessages : messages.any isUserEntry = false) :
    l' = ⟨l.out ++ conversation messages,
      joinReminders l.pending (remindersOf py messages)⟩ := by
  induction messages generalizing l with
  | nil =>
    cases h
    simp [conversation, joinReminders, remindersOf]
  | cons message messages ih =>
    rw [List.foldlM_cons, bind_eq_ok] at h
    obtain ⟨l1, hfold, h⟩ := h
    have hfold := folded_of_foldEntry hfold
    rw [List.any_cons, Bool.or_eq_false_iff] at hmessages
    have hl1 : l1.out.any isUserEntry = false := by
      rw [hfold.any_isUserEntry, hl, hmessages.1]
      rfl
    rw [ih h hl1 hmessages.2]
    cases hfold with
    | silent hsystem hnone => simp [conversation, remindersOf, hsystem, hnone]
    | appended reminder out _ _ hout =>
      rw [foldIntoLastUser_eq_none_iff.mpr hl] at hout
      cases hout
    | delayed reminder hsystem hreminder _ =>
      simp [conversation, remindersOf, hsystem, hreminder, joinReminders]
    | prepended _ _ huser => simp [huser] at hmessages
    | kept hsystem _ =>
      have hnone : reminder? py message = none := by simp [reminder?, hsystem]
      simp [conversation, remindersOf, hsystem, hnone]

/-- A user entry with some reminders behind its content. -/
def appendReminders (py : PythonLibrary) (user : Json) (reminders : List String) : Json :=
  reminders.foldl (fun user reminder => foldReminder py reminder false user) user

theorem isUserEntry_appendReminders (user : Json) (reminders : List String) :
    isUserEntry (appendReminders py user reminders) = isUserEntry user := by
  unfold appendReminders
  induction reminders generalizing user with
  | nil => rfl
  | cons reminder reminders ih => rw [List.foldl_cons, ih, isUserEntry_foldReminder]

/-- Up to the next user entry, reminders go to the last one. -/
theorem fold_appending {user : Json} {post : List Json}
    (h : messages.foldlM (foldEntry py) l = .ok l') (hout : l.out = front ++ user :: post)
    (hpending : l.pending = "") (huser : isUserEntry user = true)
    (hpost : post.any isUserEntry = false) (hmessages : messages.any isUserEntry = false) :
    l' = ⟨front ++ appendReminders py user (remindersOf py messages) ::
      (post ++ conversation messages), ""⟩ := by
  induction messages generalizing l user post with
  | nil =>
    cases h
    obtain ⟨out, pending⟩ := l'
    simp only at hout hpending
    simp [hout, hpending, conversation, remindersOf, appendReminders]
  | cons message messages ih =>
    rw [List.foldlM_cons, bind_eq_ok] at h
    obtain ⟨l1, hfold, h⟩ := h
    rw [List.any_cons, Bool.or_eq_false_iff] at hmessages
    cases folded_of_foldEntry hfold with
    | silent hsystem hnone =>
      rw [ih h hout hpending huser hpost hmessages.2]
      simp [conversation, remindersOf, hsystem, hnone]
    | appended reminder out hsystem hreminder hfolded =>
      rw [hout, foldIntoLastUser_append, foldIntoLastUser_of_last huser hpost] at hfolded
      cases hfolded
      rw [ih h rfl hpending (by rw [isUserEntry_foldReminder]; exact huser) hpost hmessages.2]
      simp [conversation, remindersOf, hsystem, hreminder, appendReminders]
    | delayed reminder hsystem _ hfolded =>
      have hany := foldIntoLastUser_eq_none_iff.mp hfolded
      simp [hout, huser] at hany
    | prepended _ hne _ => exact absurd hpending hne
    | kept hsystem _ =>
      have hnone : reminder? py message = none := by simp [reminder?, hsystem]
      have hout' : l.out ++ [message] = front ++ user :: (post ++ [message]) := by simp [hout]
      rw [ih h hout' hpending huser (by simp [hpost, hmessages.1]) hmessages.2]
      simp [conversation, remindersOf, hsystem, hnone]

/-! ## The folded list -/

/-- Without system entries the loop changes nothing, so its guard changes nothing either. -/
theorem foldMidListSystemIntoUser_arr {messages : List Json} {folded : Json}
    (h : foldMidListSystemIntoUser py (.arr messages) = .ok folded) :
    ∃ l, messages.foldlM (foldEntry py) {} = .ok l ∧ folded = .arr l.finish := by
  simp only [foldMidListSystemIntoUser] at h
  split at h
  · rename_i hnone
    cases h
    have hkeep : ∀ (messages out : List Json), messages.any isSystemEntry = false →
        messages.foldlM (foldEntry py) ⟨out, ""⟩ = .ok ⟨out ++ messages, ""⟩ := by
      intro messages
      induction messages with
      | nil =>
        intro out _
        simp [pure, Except.pure]
      | cons message messages ih =>
        intro out hany
        rw [List.any_cons, Bool.or_eq_false_iff] at hany
        have hstep : foldEntry py ⟨out, ""⟩ message = .ok ⟨out ++ [message], ""⟩ := by
          simp [foldEntry, hany.1]
        rw [List.foldlM_cons, hstep]
        have hrest := ih (out ++ [message]) hany.2
        rw [List.append_assoc] at hrest
        exact hrest
    refine ⟨⟨messages, ""⟩, hkeep messages [] (by simpa using hnone), ?_⟩
    simp [FoldLocals.finish]
  · rw [bind_eq_ok] at h
    obtain ⟨l, hl, h⟩ := h
    cases h
    exact ⟨l, hl, rfl⟩

end uni_agent.anthropic
