-- A user entry that takes up reminders: the texts and images that it says on the wire, and those
-- of the messages that it is lowered to. Adjacent texts are merged line by line, and the reminders
-- are the only texts that are added.
import UniAgent.UserTurns

namespace uni_agent.anthropic

variable {py : PythonLibrary}

/-! ## Texts that are merged -/

/-- The texts of the user, one atom each. -/
def userTexts (texts : List String) : List Atom := texts.map (Atom.text none)

/-- The texts of one list and others are in a third, each list in its order. A text that is empty
may be left out. -/
inductive Interleaves : List Atom → List String → List Atom → Prop
  | nil : Interleaves [] [] []
  | kept {xs ys : List Atom} {added : List String} (x : Atom) (h : Interleaves xs added ys) :
      Interleaves (x :: xs) added (x :: ys)
  | added {xs ys : List Atom} {added : List String} (text : String) (h : Interleaves xs added ys) :
      Interleaves xs (text :: added) (.text none text :: ys)
  | empty {xs ys : List Atom} {added : List String} (h : Interleaves xs added ys) :
      Interleaves (.text none "" :: xs) added ys

section Merges

variable {xs ys zs ys' : List Atom}

@[simp] theorem userTexts_append (texts others : List String) :
    userTexts (texts ++ others) = userTexts texts ++ userTexts others := List.map_append

/-- The parts that are merged to two lists that follow each other. -/
theorem Merges.split (h : Merges xs (ys ++ ys')) :
    ∃ front back, xs = front ++ back ∧ Merges front ys ∧ Merges back ys' := by
  induction ys generalizing xs with
  | nil => exact ⟨[], xs, rfl, .nil, h⟩
  | cons y ys ih =>
    rw [List.cons_append] at h
    cases h with
    | image url h =>
      obtain ⟨front, back, rfl, hfront, hback⟩ := ih h
      exact ⟨_, back, rfl, .image url hfront, hback⟩
    | texts owner text texts h =>
      obtain ⟨front, back, rfl, hfront, hback⟩ := ih h
      exact ⟨_, back, (List.append_assoc _ _ _).symm, .texts owner text texts hfront, hback⟩

/-- What is merged to texts are texts, and they have the same lines. -/
theorem Merges.of_texts {owner : Option String} {texts : List String}
    (h : Merges xs (texts.map (Atom.text owner))) :
    ∃ others, xs = others.map (Atom.text owner) ∧
      "\n".intercalate others = "\n".intercalate texts ∧ (others = [] ↔ texts = []) := by
  induction texts generalizing xs with
  | nil =>
    cases h
    exact ⟨[], rfl, rfl, Iff.rfl⟩
  | cons text texts ih =>
    rw [List.map_cons] at h
    cases h with
    | texts owner first rest h =>
      obtain ⟨others, rfl, hlines, hnil⟩ := ih h
      refine ⟨first :: rest ++ others, List.map_append.symm, ?_, by simp⟩
      cases texts with
      | nil =>
        rw [hnil.mpr rfl]
        simp
      | cons next texts =>
        have hne : others ≠ [] := by simp [hnil]
        rw [String.intercalate_append_of_ne_nil (List.cons_ne_nil first rest) hne, hlines]
        exact (String.intercalate_cons_of_ne_nil (List.cons_ne_nil next texts)).symm

theorem Merges.trans (h : Merges xs ys) (h' : Merges ys zs) : Merges xs zs := by
  induction h' generalizing xs with
  | nil => exact h
  | image url h' ih =>
    cases h with
    | image _ h => exact .image url (ih h)
  | texts owner text texts h' ih =>
    obtain ⟨front, back, rfl, hfront, hback⟩ := h.split
    obtain ⟨others, rfl, hlines, hnil⟩ := hfront.of_texts
    rw [← hlines]
    exact (merges_texts owner (by simp [hnil])).append (ih hback)

end Merges

section Interleaves

variable {xs ys xs' ys' : List Atom} {added added' : List String}

theorem Interleaves.append (h : Interleaves xs added ys) (h' : Interleaves xs' added' ys') :
    Interleaves (xs ++ xs') (added ++ added') (ys ++ ys') := by
  induction h with
  | nil => exact h'
  | kept x h ih => exact .kept x ih
  | added text h ih => exact .added text ih
  | empty h ih => exact .empty ih

theorem interleaves_kept (xs : List Atom) : Interleaves xs [] xs := by
  induction xs with
  | nil => exact .nil
  | cons x xs ih => exact .kept x ih

theorem interleaves_added (texts : List String) : Interleaves [] texts (userTexts texts) := by
  induction texts with
  | nil => exact .nil
  | cons text texts ih => exact .added text ih

end Interleaves

/-! ## What is said on the wire -/

/-- A text of the user, or an image. -/
def Atom.ofUser : Atom → Bool
  | .text (some _) _ => false
  | _ => true

/-- The texts of the user and the images of some items. -/
def plainAtoms (items : List UserItem) : List Atom :=
  (items.flatMap UserItem.atoms).filter Atom.ofUser

def contentAtoms (py : PythonLibrary) (content : Json) : List Atom :=
  plainAtoms ((itemsOf py content).getD [])

def entryAtoms (py : PythonLibrary) (entry : Json) : List Atom :=
  if isUserEntry entry then contentAtoms py (contentOf entry) else []

/-- The texts and images of the user entries of a list. -/
def wireAtoms (py : PythonLibrary) (entries : List Json) : List Atom :=
  entries.flatMap (entryAtoms py)

/-! ## What is said in the messages -/

/-- The texts and images of the user messages. -/
def userAtoms (messages : List Message) : List Atom := messages.flatMap messageAtoms

def otherMessages (messages : List Message) : List Message :=
  messages.filter (fun m => m.role != "user")

theorem userAtoms_append (messages others : List Message) :
    userAtoms (messages ++ others) = userAtoms messages ++ userAtoms others := List.flatMap_append

theorem otherMessages_append (messages others : List Message) :
    otherMessages (messages ++ others) = otherMessages messages ++ otherMessages others :=
  List.filter_append ..

/-- Next to each other, the texts of the user and the images are merged as before. -/
theorem Merges.ofUser {xs ys : List Atom} (h : Merges xs ys) :
    Merges (xs.filter Atom.ofUser) (ys.filter Atom.ofUser) := by
  induction h with
  | nil => exact .nil
  | image url h ih => exact .image url ih
  | texts owner text texts h ih =>
    rw [List.filter_append]
    cases owner with
    | some id =>
      have hnone : ((text :: texts).map (Atom.text (some id))).filter Atom.ofUser = [] := by
        simp [List.filter_eq_nil_iff, Atom.ofUser]
      rw [hnone]
      exact ih
    | none =>
      have hall : ((text :: texts).map (Atom.text none)).filter Atom.ofUser =
          (text :: texts).map (Atom.text none) := by
        simp [List.filter_eq_self, Atom.ofUser]
      rw [hall]
      exact .texts none text texts ih

theorem ofUser_of_partAtom {part : Json} {x : Atom} (h : partAtom part = some x) :
    x.ofUser = true := by
  unfold partAtom at h
  split at h
  · split at h
    · cases h
      rfl
    · split at h
      · cases h
        rfl
      · cases h
    · cases h
  · cases h

/-- In a message of the user or of a tool, the user says what is in a user message. -/
theorem messageAtoms_eq (m : Message) : messageAtoms m = (atomsOf m).filter Atom.ofUser := by
  have hsame : (messageAtoms m).filter Atom.ofUser = messageAtoms m := by
    rw [List.filter_eq_self]
    intro x hx
    unfold messageAtoms at hx
    split at hx
    · split at hx
      · rw [List.mem_singleton.mp hx]
        rfl
      · obtain ⟨part, _, hpart⟩ := List.mem_filterMap.mp hx
        exact ofUser_of_partAtom hpart
      · cases hx
    · cases hx
  unfold atomsOf
  split
  · rename_i hrole _ _
    simp [messageAtoms, hrole, Atom.ofUser]
  · exact hsame.symm

theorem userAtoms_eq (messages : List Message) :
    userAtoms messages = (messages.flatMap atomsOf).filter Atom.ofUser := by
  unfold userAtoms
  rw [List.filter_flatMap]
  exact List.flatMap_congr (fun m _ => messageAtoms_eq m)

/-! ## The lowering of a content -/

/-- The messages of a tool that an item is lowered to. -/
def UserItem.tools : UserItem → List Message
  | .plain _ => []
  | .toolResult id content => otherMessages ((emitResult id content).map Emitted.message)

def itemTools (items : List UserItem) : List Message := items.flatMap UserItem.tools

theorem plainAtoms_lowered (items : List UserItem) :
    (items.flatMap UserItem.lowered).filter Atom.ofUser = plainAtoms items := by
  unfold plainAtoms
  rw [List.filter_flatMap, List.filter_flatMap]
  apply List.flatMap_congr
  intro item _
  cases item with
  | plain part => rfl
  | toolResult id content =>
    simp only [UserItem.lowered, UserItem.atoms, ResultContent.lowered]
    split <;> rfl

theorem otherMessages_emitItems (parts : List UserPart) (items : List UserItem) :
    otherMessages ((emitItems parts items).map Emitted.message) = itemTools items := by
  have huser : ∀ parts, otherMessages ((emitUser parts).map Emitted.message) = [] := by
    intro parts
    cases parts <;> rfl
  unfold itemTools
  induction items generalizing parts with
  | nil => exact huser parts
  | cons item items ih =>
    cases item with
    | plain part => exact ih _
    | toolResult id content =>
      rw [emitItems, List.map_append, List.map_append, otherMessages_append, otherMessages_append,
        huser, ih]
      rfl

/-- A content that was read: its items, and fine texts that its own are merged from. -/
structure Carries (py : PythonLibrary) (content : Json) (fine : List Atom)
    (tools : List Message) : Prop where
  nonempty : content ≠ .str ""
  read : ∃ items, itemsOf py content = some items ∧ itemTools items = tools ∧
    Merges fine (plainAtoms items)

theorem plainAtoms_append (items others : List UserItem) :
    plainAtoms (items ++ others) = plainAtoms items ++ plainAtoms others := by
  simp [plainAtoms]

theorem itemOf_textBlock (text : String) :
    itemOf py (.obj (textBlock text)) = some (.plain (.text text)) := rfl

/-- What is lowered from a content that was read. -/
theorem Carries.lowered {content : Json} {fine : List Atom} {tools messages : List Message}
    (h : Carries py content fine tools)
    (hlowered : userMessagesFromContent py content = .ok messages) :
    otherMessages messages = tools ∧ Merges fine (userAtoms messages) := by
  obtain ⟨items, hitems, rfl, hfine⟩ := h.read
  obtain ⟨items', hitems', rfl⟩ := userMessages_emitted hlowered
  obtain rfl := Option.some.inj (hitems.symm.trans hitems')
  refine ⟨otherMessages_emitItems [] items, hfine.trans ?_⟩
  have hmerged := (merges_emitItems items).ofUser
  rwa [plainAtoms_lowered, ← userAtoms_eq] at hmerged

/-- A text behind a content that was read. -/
theorem Carries.append {content : Json} {fine : List Atom} {tools : List Message}
    (h : Carries py content fine tools) (text : String) :
    Carries py (withReminder py text false content) (fine ++ userTexts [text]) tools := by
  obtain ⟨items, hitems, rfl, hfine⟩ := h.read
  have hmerged := hfine.append (merges_refl (userTexts [text]))
  cases content with
  | str own =>
    cases hitems
    have hown : own ≠ "" := by
      rintro rfl
      exact h.nonempty rfl
    have hcontent : withReminder py text false (.str own) = .str (own ++ "\n" ++ text) := by
      simp [withReminder, Json.truthy, hown, PythonLibrary.str]
    rw [hcontent]
    refine ⟨by simp, _, rfl, rfl, hmerged.trans ?_⟩
    exact merges_texts none (List.cons_ne_nil own [text])
  | arr blocks =>
    refine ⟨by simp [withReminder], items ++ [.plain (.text text)], ?_, ?_, ?_⟩
    · simp only [itemsOf] at hitems
      simp [withReminder, itemsOf, List.mapM_append, hitems, itemOf_textBlock]
    · simp [itemTools, UserItem.tools]
    · rw [plainAtoms_append]
      exact hmerged
  | _ => cases hitems

/-- A text in front of a content that was read, which may be merged from others. -/
theorem Carries.prepend {content : Json} {fine front : List Atom} {tools : List Message}
    {text : String} (hfront : Merges front (userTexts [text]))
    (h : Carries py content fine tools) :
    Carries py (withReminder py text true content) (front ++ fine) tools := by
  obtain ⟨items, hitems, rfl, hfine⟩ := h.read
  have hmerged := hfront.append hfine
  cases content with
  | str own =>
    cases hitems
    have hown : own ≠ "" := by
      rintro rfl
      exact h.nonempty rfl
    have hcontent : withReminder py text true (.str own) = .str (text ++ "\n" ++ own) := by
      simp [withReminder, Json.truthy, hown, PythonLibrary.str]
    rw [hcontent]
    refine ⟨by simp, _, rfl, rfl, hmerged.trans ?_⟩
    exact merges_texts none (List.cons_ne_nil text [own])
  | arr blocks =>
    refine ⟨by simp [withReminder], .plain (.text text) :: items, ?_, ?_, ?_⟩
    · simp only [itemsOf] at hitems
      simp [withReminder, itemsOf, List.mapM_cons, hitems, itemOf_textBlock]
    · simp [itemTools, UserItem.tools]
    · exact hmerged
  | _ => cases hitems

theorem Carries.appendAll {content : Json} {fine : List Atom} {tools : List Message}
    (h : Carries py content fine tools) (texts : List String) :
    Carries py (withReminders py content texts) (fine ++ userTexts texts) tools := by
  unfold withReminders
  induction texts generalizing content fine with
  | nil => simpa [userTexts] using h
  | cons text texts ih =>
    have hnext := ih (h.append text)
    rw [List.append_assoc, ← userTexts_append] at hnext
    exact hnext

theorem carries_text (py : PythonLibrary) {text : String} (hne : text ≠ "") {fine : List Atom}
    (h : Merges fine (userTexts [text])) : Carries py (.str text) fine [] where
  nonempty := by simpa using hne
  read := ⟨_, rfl, rfl, h⟩

theorem carries_read {content : Json} {items : List UserItem}
    (hitems : itemsOf py content = some items)
    (hne : content ≠ .str "") : Carries py content (contentAtoms py content) (itemTools items) where
  nonempty := hne
  read := by
    refine ⟨items, hitems, rfl, ?_⟩
    unfold contentAtoms
    rw [hitems]
    exact merges_refl _

/-! ## One user entry -/

theorem joinReminders_eq {texts : List String} (h : ∀ text ∈ texts, text ≠ "") :
    joinReminders "" texts = "\n".intercalate texts := by
  have hbehind : ∀ (texts : List String) (pending : String), pending ≠ "" →
      joinReminders pending texts = "\n".intercalate (pending :: texts) := by
    intro texts
    unfold joinReminders
    induction texts with
    | nil => simp
    | cons text texts ih =>
      intro pending hpending
      rw [List.foldl_cons, if_neg hpending, ih _ (by simp), String.intercalate_cons_append,
        String.intercalate_cons_of_ne_nil (List.cons_ne_nil text texts)]
  cases texts with
  | nil => rfl
  | cons text texts => exact hbehind texts text (h text List.mem_cons_self)

theorem joinReminders_ne {texts : List String} (h : ∀ text ∈ texts, text ≠ "") (hne : texts ≠ []) :
    joinReminders "" texts ≠ "" := by
  rw [joinReminders_eq h]
  cases texts with
  | nil => exact absurd rfl hne
  | cons text texts =>
    have htext := h text List.mem_cons_self
    cases texts with
    | nil => simpa using htext
    | cons next texts => simp [String.intercalate_cons_cons, htext]

/-- What a user entry takes up in front of its content. -/
theorem carries_takeUp {user : Json} {waiting : List String} {items : List UserItem}
    (huser : isUserEntry user = true) (hwaiting : ∀ text ∈ waiting, text ≠ "")
    (hitems : itemsOf py (contentOf user) = some items)
    (hne : contentOf user = .str "" → waiting ≠ []) :
    ∃ fine, Interleaves (contentAtoms py (contentOf user)) waiting fine ∧
      Carries py (contentOf (takeUp py (joinReminders "" waiting) user)) fine
          (itemTools items) := by
  rw [contentOf_takeUp huser]
  by_cases hnil : waiting = []
  · subst hnil
    refine ⟨_, interleaves_kept _, ?_⟩
    exact carries_read hitems (fun hempty => hne hempty rfl)
  · rw [if_neg (joinReminders_ne hwaiting hnil)]
    have hjoined : Merges (userTexts waiting) (userTexts [joinReminders "" waiting]) := by
      rw [joinReminders_eq hwaiting]
      exact merges_texts none hnil
    by_cases hempty : contentOf user = .str ""
    · rw [hempty] at hitems ⊢
      cases hitems
      refine ⟨_, .empty (interleaves_added waiting), ?_⟩
      exact carries_text py (joinReminders_ne hwaiting hnil) hjoined
    · have hinterleaves := (interleaves_added waiting).append
        (interleaves_kept (contentAtoms py (contentOf user)))
      rw [List.append_nil] at hinterleaves
      exact ⟨_, hinterleaves, (carries_read hitems hempty).prepend hjoined⟩

/-- The texts that a user entry takes up are added to its own, in the user's messages only. -/
theorem user_entry_frame {user : Json} {waiting behind : List String}
    {messages others : List Message} (huser : isUserEntry user = true)
    (hwaiting : ∀ text ∈ waiting, text ≠ "") (hbehind : ∀ text ∈ behind, text ≠ "")
    (hothers : messageToInternal py user = .ok others)
    (hmessages : messageToInternal py
      (appendReminders py (takeUp py (joinReminders "" waiting) user) behind) = .ok messages) :
    otherMessages messages = otherMessages others ∧
      ∃ fine, Interleaves (entryAtoms py user) (waiting ++ behind) fine ∧
        Merges fine (userAtoms messages) := by
  have htaken : isUserEntry (takeUp py (joinReminders "" waiting) user) = true := by
    rw [isUserEntry_takeUp]
    exact huser
  have hfolded : isUserEntry
      (appendReminders py (takeUp py (joinReminders "" waiting) user) behind) = true := by
    rw [isUserEntry_appendReminders]
    exact htaken
  rw [messageToInternal_user huser] at hothers
  rw [messageToInternal_user hfolded, contentOf_appendReminders htaken] at hmessages
  obtain ⟨items, hitems, rfl⟩ := userMessages_emitted hothers
  rw [otherMessages_emitItems]
  unfold entryAtoms
  rw [if_pos huser]
  by_cases hempty : contentOf user = .str "" ∧ waiting = []
  · obtain ⟨hcontent, rfl⟩ := hempty
    rw [contentOf_takeUp huser, if_pos (show joinReminders "" [] = "" from rfl), hcontent]
      at hmessages
    rw [hcontent] at hitems ⊢
    cases hitems
    cases behind with
    | nil =>
      cases hmessages
      exact ⟨rfl, _, interleaves_kept _, merges_refl (userTexts [""])⟩
    | cons text behind =>
      have htext := hbehind text List.mem_cons_self
      have hcarries := (carries_text py htext (merges_refl (userTexts [text]))).appendAll behind
      obtain ⟨htools, hmerged⟩ := hcarries.lowered hmessages
      exact ⟨htools, _, .empty (interleaves_added (text :: behind)), hmerged⟩
  · obtain ⟨fine, hinterleaves, hcarries⟩ := carries_takeUp huser hwaiting hitems
      (fun hcontent hnil => hempty ⟨hcontent, hnil⟩)
    obtain ⟨htools, hmerged⟩ := (hcarries.appendAll behind).lowered hmessages
    refine ⟨htools, _, ?_, hmerged⟩
    have happended := hinterleaves.append (interleaves_added behind)
    rwa [List.append_nil] at happended

end uni_agent.anthropic
