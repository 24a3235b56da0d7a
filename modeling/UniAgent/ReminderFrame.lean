-- What the fold of system entries leaves alone. Next to the list without its system entries, the
-- messages that are not of the user are the same, and in the user's messages the reminders are
-- the only addition. A user entry that is malformed by itself is the exception: a reminder makes
-- a text of its content.
import UniAgent.ReminderTexts
import UniAgent.MalformedRequests

namespace uni_agent.anthropic

variable {py : PythonLibrary}

/-! ## The whole list -/

theorem conversation_cons (entry : Json) (rest : List Json) :
    conversation (entry :: rest) =
      if isSystemEntry entry then conversation rest else entry :: conversation rest := by
  unfold conversation
  cases h : isSystemEntry entry <;> simp [h]

theorem entryAtoms_of_other {entry : Json} (h : isUserEntry entry = false) :
    entryAtoms py entry = [] := by
  simp [entryAtoms, h]

/-- An entry that is not of the user says nothing in the user's messages. -/
theorem userAtoms_of_other {entry : Json} {messages : List Message}
    (huser : isUserEntry entry = false) (h : messageToInternal py entry = .ok messages) :
    userAtoms messages = [] := by
  rcases messageToInternal_eq_ok h with ⟨hrole, _⟩ | ⟨_, _, m, hrole, rfl⟩
  · rw [isUserEntry, hrole] at huser
    cases huser
  · simp [userAtoms, messageAtoms, hrole]

theorem remindersOf_ne {entries : List Json} {text : String} (h : text ∈ remindersOf py entries) :
    text ≠ "" := by
  obtain ⟨entry, _, hreminder⟩ := List.mem_filterMap.mp h
  exact reminder?_ne_empty hreminder

/-- Two lowered lists, of which the first has some reminders more. -/
structure Frame (messages others : List Message) (atoms : List Atom) (reminders : List String) :
    Prop where
  others : otherMessages messages = otherMessages others
  added : ∃ fine, Interleaves atoms reminders fine ∧ Merges fine (userAtoms messages)

theorem Frame.append {messages others messages' others' : List Message} {atoms atoms' : List Atom}
    {reminders reminders' : List String} (h : Frame messages others atoms reminders)
    (h' : Frame messages' others' atoms' reminders') :
    Frame (messages ++ messages') (others ++ others') (atoms ++ atoms')
        (reminders ++ reminders') := by
  obtain ⟨fine, hinterleaves, hmerged⟩ := h.added
  obtain ⟨fine', hinterleaves', hmerged'⟩ := h'.added
  refine ⟨?_, fine ++ fine', hinterleaves.append hinterleaves', ?_⟩
  · rw [otherMessages_append, otherMessages_append, h.others, h'.others]
  · rw [userAtoms_append]
    exact hmerged.append hmerged'

/-- An entry that is not of the user is lowered to the same messages. -/
theorem frame_of_other {entry : Json} {messages : List Message}
    (huser : isUserEntry entry = false) (h : messageToInternal py entry = .ok messages) :
    Frame messages messages (entryAtoms py entry) [] where
  others := rfl
  added := by
    rw [entryAtoms_of_other huser, userAtoms_of_other huser h]
    exact ⟨[], .nil, .nil⟩

theorem wireAtoms_cons (entry : Json) (rest : List Json) :
    wireAtoms py (entry :: rest) = entryAtoms py entry ++ wireAtoms py rest := rfl

theorem remindersOf_split (entries : List Json) :
    remindersOf py entries =
      remindersOf py (beforeUser entries) ++ remindersOf py (fromUser entries) := by
  unfold remindersOf
  rw [← List.filterMap_append, beforeUser_append_fromUser]

theorem fromUser_cons (entry : Json) (rest : List Json) :
    fromUser (entry :: rest) = if isUserEntry entry then entry :: rest else fromUser rest := by
  unfold fromUser
  cases h : isUserEntry entry <;> simp [h]

theorem isSystemEntry_of_isUserEntry {entry : Json} (h : isUserEntry entry = true) :
    isSystemEntry entry = false := by
  cases hsystem : isSystemEntry entry with
  | false => rfl
  | true => rw [isUserEntry_of_isSystemEntry hsystem] at h; exact h.symm

/-- Behind a user entry, the reminders that stand before the next one are already taken up. -/
theorem frame_behind {entries : List Json} {messages others : List Message}
    (hmessages : Lowered py (foldedBehind py entries) messages)
    (hothers : Lowered py (conversation entries) others) :
    Frame messages others (wireAtoms py entries) (remindersOf py (fromUser entries)) := by
  induction entries generalizing messages others with
  | nil =>
    rw [lowered_nil.mp hmessages, lowered_nil.mp hothers]
    exact ⟨rfl, [], .nil, .nil⟩
  | cons entry rest ih =>
    rw [conversation_cons] at hothers
    rw [foldedBehind] at hmessages
    rw [fromUser_cons, wireAtoms_cons]
    cases hsystem : isSystemEntry entry with
    | true =>
      have huser := isUserEntry_of_isSystemEntry hsystem
      rw [if_pos hsystem] at hmessages hothers
      simp only [huser, Bool.false_eq_true, if_false, entryAtoms_of_other huser, List.nil_append]
      exact ih hmessages hothers
    | false =>
      rw [if_neg (by simp [hsystem])] at hmessages hothers
      obtain ⟨front', back', hfront', hback', rfl⟩ := lowered_cons.mp hothers
      cases huser : isUserEntry entry with
      | true =>
        rw [if_pos huser] at hmessages
        obtain ⟨front, back, hfront, hback, rfl⟩ := lowered_cons.mp hmessages
        have hfolded : messageToInternal py (appendReminders py
            (takeUp py (joinReminders "" []) entry) (remindersOf py (beforeUser rest))) =
              .ok front := hfront
        obtain ⟨htools, hadded⟩ := user_entry_frame huser (by simp) (fun _ => remindersOf_ne)
          hfront' hfolded
        have hreminders : remindersOf py (entry :: rest) =
            ([] ++ remindersOf py (beforeUser rest)) ++ remindersOf py (fromUser rest) := by
          rw [remindersOf_cons, reminder?_of_other hsystem, remindersOf_split rest]
          rfl
        rw [if_pos rfl, hreminders]
        exact Frame.append ⟨htools, hadded⟩ (ih hback hback')
      | false =>
        rw [if_neg (by simp [huser])] at hmessages
        obtain ⟨front, back, hfront, hback, rfl⟩ := lowered_cons.mp hmessages
        obtain rfl := Except.ok.inj (hfront.symm.trans hfront')
        rw [if_neg (by simp)]
        exact (frame_of_other huser hfront).append (ih hback hback')

/-- Up to the first user entry, reminders wait for it. -/
theorem frame_front {entries : List Json} {waiting : List String} {messages others : List Message}
    (hwaiting : ∀ text ∈ waiting, text ≠ "")
    (hmessages : Lowered py (foldedFront py (joinReminders "" waiting) entries) messages)
    (hothers : Lowered py (conversation entries) others) :
    Frame messages others (wireAtoms py entries) (waiting ++ remindersOf py entries) := by
  induction entries generalizing waiting messages others with
  | nil =>
    rw [lowered_nil.mp hothers, remindersOf_nil, List.append_nil]
    unfold foldedFront at hmessages
    by_cases hnil : waiting = []
    · subst hnil
      rw [if_pos (show joinReminders "" [] = "" from rfl)] at hmessages
      rw [lowered_nil.mp hmessages]
      exact ⟨rfl, [], .nil, .nil⟩
    · rw [if_neg (joinReminders_ne hwaiting hnil)] at hmessages
      obtain ⟨front, back, hfront, hback, rfl⟩ := lowered_cons.mp hmessages
      rw [lowered_nil.mp hback]
      cases hfront
      refine ⟨rfl, userTexts waiting, interleaves_added waiting, ?_⟩
      have hjoined := merges_texts none hnil
      rw [← joinReminders_eq hwaiting] at hjoined
      exact hjoined
  | cons entry rest ih =>
    rw [conversation_cons] at hothers
    rw [foldedFront] at hmessages
    rw [wireAtoms_cons, remindersOf_cons]
    cases hsystem : isSystemEntry entry with
    | true =>
      have huser := isUserEntry_of_isSystemEntry hsystem
      have hjoined : joinReminders (joinReminders "" waiting) (reminder? py entry).toList =
          joinReminders "" (waiting ++ (reminder? py entry).toList) := by
        unfold joinReminders
        rw [List.foldl_append]
      have hnext : ∀ text ∈ waiting ++ (reminder? py entry).toList, text ≠ "" := by
        intro text htext
        rcases List.mem_append.mp htext with htext | htext
        · exact hwaiting text htext
        · exact reminder?_ne_empty (Option.mem_toList.mp htext)
      rw [if_pos hsystem] at hmessages hothers
      rw [hjoined] at hmessages
      rw [entryAtoms_of_other huser, List.nil_append, ← List.append_assoc]
      exact ih hnext hmessages hothers
    | false =>
      rw [if_neg (by simp [hsystem])] at hmessages hothers
      rw [reminder?_of_other hsystem, Option.toList_none, List.nil_append]
      obtain ⟨front', back', hfront', hback', rfl⟩ := lowered_cons.mp hothers
      cases huser : isUserEntry entry with
      | true =>
        rw [if_pos huser] at hmessages
        obtain ⟨front, back, hfront, hback, rfl⟩ := lowered_cons.mp hmessages
        obtain ⟨htools, hadded⟩ := user_entry_frame huser hwaiting (fun _ => remindersOf_ne)
          hfront' hfront
        rw [remindersOf_split rest, ← List.append_assoc]
        exact Frame.append ⟨htools, hadded⟩ (frame_behind hback hback')
      | false =>
        rw [if_neg (by simp [huser])] at hmessages
        obtain ⟨front, back, hfront, hback, rfl⟩ := lowered_cons.mp hmessages
        obtain rfl := Except.ok.inj (hfront.symm.trans hfront')
        exact (frame_of_other huser hfront).append (ih hwaiting hback hback')

/-! ## The place of a user entry -/

/-- What becomes of a user entry between two lists. -/
def foldedUser (py : PythonLibrary) (pending : String) (front : List Json) (user : Json)
    (back : List Json) : Json :=
  appendReminders py
    (takeUp py (if front.any isUserEntry then "" else joinReminders pending (remindersOf py front))
      user) (remindersOf py (beforeUser back))

theorem isUserEntry_foldedUser {pending : String} {front back : List Json} {user : Json} :
    isUserEntry (foldedUser py pending front user back) = isUserEntry user := by
  unfold foldedUser
  rw [isUserEntry_appendReminders, isUserEntry_takeUp]

/-- The user entries of a folded list, behind a user entry. -/
theorem users_foldedBehind {front back : List Json} {user : Json}
    (huser : isUserEntry user = true) :
    ((foldedBehind py (front ++ user :: back)).filter isUserEntry)[front.countP isUserEntry]? =
      some (appendReminders py user (remindersOf py (beforeUser back))) := by
  induction front with
  | nil =>
    rw [List.nil_append, foldedBehind, if_neg (by simp [isSystemEntry_of_isUserEntry huser]),
      if_pos huser, List.filter_cons_of_pos (by rw [isUserEntry_appendReminders]; exact huser)]
    rfl
  | cons entry front ih =>
    rw [List.cons_append, foldedBehind]
    cases hsystem : isSystemEntry entry with
    | true =>
      rw [if_pos rfl, List.countP_cons_of_neg (by simp [isUserEntry_of_isSystemEntry hsystem])]
      exact ih
    | false =>
      rw [if_neg (by simp)]
      cases hentry : isUserEntry entry with
      | true =>
        rw [if_pos rfl, List.countP_cons_of_pos hentry,
          List.filter_cons_of_pos (by rw [isUserEntry_appendReminders]; exact hentry),
          List.getElem?_cons_succ]
        exact ih
      | false =>
        rw [if_neg (by simp), List.countP_cons_of_neg (by simp [hentry]),
          List.filter_cons_of_neg (by simp [hentry])]
        exact ih

theorem users_foldedFront {front back : List Json} {user : Json} (pending : String)
    (huser : isUserEntry user = true) :
    ((foldedFront py pending (front ++ user :: back)).filter isUserEntry)[
        front.countP isUserEntry]? = some (foldedUser py pending front user back) := by
  induction front generalizing pending with
  | nil =>
    have hfolded : isUserEntry (foldedUser py pending [] user back) = true := by
      rw [isUserEntry_foldedUser]
      exact huser
    have heq : foldedFront py pending ([] ++ user :: back) =
        foldedUser py pending [] user back :: foldedBehind py back := by
      rw [List.nil_append, foldedFront, if_neg (by simp [isSystemEntry_of_isUserEntry huser]),
        if_pos huser]
      rfl
    rw [heq, List.filter_cons_of_pos hfolded]
    rfl
  | cons entry front ih =>
    rw [List.cons_append, foldedFront]
    cases hsystem : isSystemEntry entry with
    | true =>
      have hentry := isUserEntry_of_isSystemEntry hsystem
      rw [if_pos rfl, List.countP_cons_of_neg (by simp [hentry]), ih]
      unfold foldedUser
      rw [List.any_cons, hentry, Bool.false_or, remindersOf_cons]
      unfold joinReminders
      rw [List.foldl_append]
    | false =>
      rw [if_neg (by simp)]
      cases hentry : isUserEntry entry with
      | true =>
        rw [if_pos rfl, List.countP_cons_of_pos hentry,
          List.filter_cons_of_pos
            (by rw [isUserEntry_appendReminders, isUserEntry_takeUp]; exact hentry),
          List.getElem?_cons_succ, users_foldedBehind huser]
        simp [foldedUser, hentry, takeUp]
      | false =>
        rw [if_neg (by simp), List.countP_cons_of_neg (by simp [hentry]),
          List.filter_cons_of_neg (by simp [hentry]), ih]
        unfold foldedUser
        rw [List.any_cons, hentry, Bool.false_or, remindersOf_cons, reminder?_of_other hsystem]
        rfl

/-- The user entry at a position among the user entries, with its place in the list. -/
theorem exists_place {entries : List Json} {k : Nat} {user : Json}
    (h : (entries.filter isUserEntry)[k]? = some user) :
    ∃ front back, entries = front ++ user :: back ∧ front.countP isUserEntry = k ∧
      isUserEntry user = true := by
  induction entries generalizing k with
  | nil => cases h
  | cons entry entries ih =>
    cases hentry : isUserEntry entry with
    | true =>
      rw [List.filter_cons_of_pos hentry] at h
      cases k with
      | zero =>
        obtain rfl := Option.some.inj h
        exact ⟨[], entries, rfl, rfl, hentry⟩
      | succ k =>
        obtain ⟨front, back, rfl, hcount, huser⟩ := ih h
        exact ⟨entry :: front, back, rfl, by rw [List.countP_cons_of_pos hentry, hcount], huser⟩
    | false =>
      rw [List.filter_cons_of_neg (by simp [hentry])] at h
      obtain ⟨front, back, rfl, hcount, huser⟩ := ih h
      exact ⟨entry :: front, back, rfl,
        by rw [List.countP_cons_of_neg (by simp [hentry]), hcount], huser⟩

theorem getElem?_filter_place {front back : List Json} {user : Json}
    (huser : isUserEntry user = true) :
    ((front ++ user :: back).filter isUserEntry)[front.countP isUserEntry]? = some user := by
  rw [List.filter_append, List.countP_eq_length_filter, List.getElem?_append_right (Nat.le_refl _),
    Nat.sub_self, List.filter_cons_of_pos huser]
  rfl

/-! ## The law -/

/-- The payload without its system entries. -/
def withoutSystem (payload : Dict) (entries : List Json) : Dict :=
  payload.set "messages" (.arr (conversation entries))

/-- The fold of the system entries only adds reminders. -/
structure AddsOnlyReminders (py : PythonLibrary) (base : Dict) (allowed : List String)
    (payload : Dict) (entries : List Json) : Prop where
  accepts : (∃ request, anthropicToInternal py base allowed (.obj payload) = .ok request) ↔
    ∃ request, anthropicToInternal py base allowed (.obj (withoutSystem payload entries)) =
      .ok request
  frame : ∀ request other, anthropicToInternal py base allowed (.obj payload) = .ok request →
    anthropicToInternal py base allowed (.obj (withoutSystem payload entries)) = .ok other →
      Frame request.messages other.messages (wireAtoms py entries) (remindersOf py entries)
  malformed : ∀ (out : List Json) (k : Nat) (user folded : Json),
    foldMidListSystemIntoUser py (.arr entries) = .ok (.arr out) →
      (entries.filter isUserEntry)[k]? = some user → (out.filter isUserEntry)[k]? = some folded →
        (∃ messages, messageToInternal py folded = .ok messages) →
          ∃ messages, messageToInternal py user = .ok messages

/-- A user entry that takes up a reminder has a text or a list for its content. -/
def RemindsReadable (py : PythonLibrary) (entries : List Json) : Prop :=
  ∀ front user back, entries = front ++ user :: back → isUserEntry user = true →
    Reminded py front back →
      (∃ text, contentOf user = .str text) ∨ ∃ blocks, contentOf user = .arr blocks

section Law

variable {base : Dict} {allowed : List String} {payload : Dict} {entries : List Json}

theorem foldMidListSystemIntoUser_conversation (py : PythonLibrary) (entries : List Json) :
    foldMidListSystemIntoUser py (.arr (conversation entries)) =
        .ok (.arr (conversation entries)) := by
  have hnone : (conversation entries).any isSystemEntry = false := by
    simp [conversation]
  simp [foldMidListSystemIntoUser, hnone]

theorem foldedFront_conversation (entries : List Json) :
    foldedFront py "" (conversation entries) = conversation entries := by
  have hfolded := foldMidListSystemIntoUser_eq_ok
    (foldMidListSystemIntoUser_conversation py entries)
  exact (Json.arr.inj hfolded).symm

theorem mem_conversation {entry : Json} :
    entry ∈ conversation entries ↔ entry ∈ entries ∧ isSystemEntry entry = false := by
  simp [conversation]

theorem acceptedUserContent_readable {content : Json} (h : AcceptedUserContent content) :
    (∃ text, content = .str text) ∨ ∃ blocks, content = .arr blocks := by
  cases content with
  | str text => exact Or.inl ⟨text, rfl⟩
  | arr blocks => exact Or.inr ⟨blocks, rfl⟩
  | _ => cases h

/-- A user entry whose content is no list and is readable is accepted by itself. -/
theorem acceptedAlone_of_readable {user : Json} (huser : isUserEntry user = true)
    (hreadable : (∃ text, contentOf user = .str text) ∨ ∃ blocks, contentOf user = .arr blocks)
    (hlist : ∀ blocks, contentOf user ≠ .arr blocks) : AcceptedAlone user := by
  rcases hreadable with ⟨text, htext⟩ | ⟨blocks, hblocks⟩
  · unfold AcceptedAlone
    rw [if_pos huser, htext]
    trivial
  · exact absurd hblocks (hlist blocks)

theorem acceptedEntries_conversation : AcceptedEntries py (conversation entries) ↔
    ∀ entry ∈ conversation entries, AcceptedAlone entry := by
  rw [acceptedEntries_iff, foldedFront_conversation]
  refine and_iff_right ?_
  intro entry hentry hsystem
  rw [(mem_conversation.mp hentry).2] at hsystem
  cases hsystem

theorem acceptedEntries_of_readable
    (hsystem : ∀ entry ∈ entries, isSystemEntry entry = true → AcceptedSystem (contentOf entry))
    (hreads : RemindsReadable py entries) :
    AcceptedEntries py entries ↔ ∀ entry ∈ conversation entries, AcceptedAlone entry := by
  refine ⟨?_, ?_⟩
  · intro h entry hentry
    obtain ⟨hmem, hnot⟩ := mem_conversation.mp hentry
    obtain ⟨front, back, hplace⟩ := List.append_of_mem hmem
    have hin := h front entry back hplace
    unfold AcceptedIn at hin
    rw [if_neg (by simp [hnot])] at hin
    rcases hin with hin | ⟨hreminded, huser, hlist⟩
    · exact hin
    · exact acceptedAlone_of_readable huser (hreads front entry back hplace huser hreminded) hlist
  · rintro h front entry back rfl
    unfold AcceptedIn
    by_cases hentry : isSystemEntry entry = true
    · rw [if_pos hentry]
      exact hsystem entry (by simp) hentry
    · rw [if_neg hentry]
      exact Or.inl (h entry (mem_conversation.mpr ⟨by simp, by simpa using hentry⟩))

theorem get?_withoutSystem {key : String} (hkey : key ≠ "messages") :
    (withoutSystem payload entries).get? key = payload.get? key :=
  Dict.get?_set_ne payload hkey _

theorem get?_messages_withoutSystem :
    (withoutSystem payload entries).get? "messages" = some (.arr (conversation entries)) :=
  Dict.get?_set_self payload "messages" _

theorem accepts_of_readable (hentries : payload.get? "messages" = some (.arr entries))
    (hsystem : ∀ entry ∈ entries, isSystemEntry entry = true → AcceptedSystem (contentOf entry))
    (hne : conversation entries ≠ []) (hreads : RemindsReadable py entries) :
    (∃ request, anthropicToInternal py base allowed (.obj payload) = .ok request) ↔
      ∃ request, anthropicToInternal py base allowed (.obj (withoutSystem payload entries)) =
        .ok request := by
  have hmessages : AcceptedMessages py (.arr entries) ↔
      AcceptedMessages py (.arr (conversation entries)) := by
    obtain ⟨entry, hentry⟩ := List.exists_mem_of_ne_nil _ hne
    have hnot := mem_conversation.mp hentry
    simp only [AcceptedMessages, Json.arr.injEq, exists_eq_left',
      acceptedEntries_of_readable hsystem hreads, acceptedEntries_conversation]
    exact and_congr_right (fun _ => iff_of_true (Or.inr ⟨entry, hnot⟩)
      (Or.inr ⟨entry, hentry, hnot.2⟩))
  rw [(anthropicToInternal_checks py base allowed payload).ok_iff,
    (anthropicToInternal_checks py base allowed (withoutSystem payload entries)).ok_iff]
  unfold AcceptedToolChoice
  rw [get?_messages_withoutSystem, hentries, get?_withoutSystem (by decide),
    get?_withoutSystem (by decide), get?_withoutSystem (by decide)]
  exact and_congr_left (fun _ => hmessages)

theorem frame_system {messages others : List Message} {atoms : List Atom} {reminders : List String}
    (h : Frame messages others atoms reminders) (text : String) :
    Frame (if text = "" then messages else { role := "system", content := .str text } :: messages)
      (if text = "" then others else { role := "system", content := .str text } :: others)
      atoms reminders := by
  by_cases hempty : text = ""
  · rw [if_pos hempty, if_pos hempty]
    exact h
  · rw [if_neg hempty, if_neg hempty]
    have hsystem : Frame [{ role := "system", content := .str text }]
        [{ role := "system", content := .str text }] [] [] := ⟨rfl, [], .nil, .nil⟩
    exact hsystem.append h

theorem frame_of_accepted (hentries : payload.get? "messages" = some (.arr entries))
    {request other : LoweredRequest}
    (hrequest : anthropicToInternal py base allowed (.obj payload) = .ok request)
    (hother : anthropicToInternal py base allowed (.obj (withoutSystem payload entries)) =
      .ok other) :
    Frame request.messages other.messages (wireAtoms py entries) (remindersOf py entries) := by
  obtain ⟨l, messages, systemText, hl, _, hlowered, htext, hmessages⟩ :=
    anthropicToInternal_eq_ok hentries hrequest
  obtain ⟨l', others, systemText', hl', _, hlowered', htext', hothers⟩ :=
    anthropicToInternal_eq_ok get?_messages_withoutSystem hother
  rw [get?_withoutSystem (by decide), htext] at htext'
  obtain rfl := Except.ok.inj htext'
  rw [fold_front hl rfl, List.nil_append] at hlowered
  rw [fold_front hl' rfl, List.nil_append, foldedFront_conversation] at hlowered'
  rw [hmessages, hothers]
  apply frame_system
  have hwaiting : ∀ text ∈ ([] : List String), text ≠ "" := by simp
  exact frame_front hwaiting hlowered hlowered'

theorem acceptedAlone_foldedUser (py : PythonLibrary) (front back : List Json) {user : Json}
    (huser : isUserEntry user = true) :
    AcceptedAlone (foldedUser py "" front user back) ↔
      AcceptedAlone user ∨ Reminded py front back ∧ ∀ blocks, contentOf user ≠ .arr blocks := by
  unfold foldedUser Reminded
  rw [acceptedAlone_folded py _ _ huser]
  refine or_congr Iff.rfl (and_congr_left (fun _ => or_congr Iff.rfl ?_))
  by_cases hany : front.any isUserEntry = true
  · simp [hany]
  · have hfront : front.any isUserEntry = false := by simpa using hany
    rw [if_neg hany]
    have hjoined : joinReminders "" (remindersOf py front) ≠ "" ↔ remindersOf py front ≠ [] := by
      refine ⟨?_, ?_⟩
      · rintro h hnil
        rw [hnil] at h
        exact h rfl
      · exact joinReminders_ne (fun _ => remindersOf_ne)
    simp [hfront, hjoined]

end Law

/-- An entry with a role and a content. -/
def entryOf (role : String) (content : Json) : Json :=
  .obj [("role", .str role), ("content", content)]

/-- A reminder in front of the first user entry, and one behind it. -/
def remindedEntries : List Json :=
  [entryOf "system" (.str "a"), entryOf "user" (.str "b"), entryOf "assistant" (.str "c"),
    entryOf "system" (.str "d"), entryOf "user" (.arr [.obj (textBlock "e")])]

/-- A user entry with the content `null`, and a reminder behind it. -/
def unreadableEntries : List Json := [entryOf "user" .null, entryOf "system" (.str "a")]

end uni_agent.anthropic
