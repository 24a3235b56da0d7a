-- The Anthropic message lists that are accepted, block by block and entry by entry. A user entry
-- that takes up a reminder is accepted with more contents than one that does not.
import UniAgent.AcceptedChats
import UniAgent.FoldedEntries

namespace uni_agent.anthropic

open validation

variable {py : PythonLibrary}

/-! ## Blocks -/

def HasString (fields : Dict) (key : String) : Prop :=
  ∃ text, fields.get? key = some (.str text)

/-- The text of a block is a string, or there is none. -/
def AcceptedText (block : Dict) : Prop := ∃ text, (block.get? "text").getD (.str "") = .str text

def AcceptedImage (block : Dict) : Prop :=
  ∃ source, block.get? "source" = some (.obj source) ∧
    if hasField (.obj source) "type" "base64" then
      HasString source "media_type" ∧ HasString source "data"
    else hasField (.obj source) "type" "url" = true ∧ HasString source "url"

def AcceptedToolResultBlock : Json → Prop
  | .obj block =>
    if hasField (.obj block) "type" "text" then AcceptedText block
    else hasField (.obj block) "type" "image" = true ∧ AcceptedImage block
  | _ => False

def AcceptedToolResult : Json → Prop
  | .str _ | .null => True
  | .arr blocks => ∀ block ∈ blocks, AcceptedToolResultBlock block
  | _ => False

def AcceptedUserBlock : Json → Prop
  | .obj block =>
    if hasField (.obj block) "type" "text" then AcceptedText block
    else if hasField (.obj block) "type" "image" then AcceptedImage block
    else hasField (.obj block) "type" "tool_result" = true ∧
      (∃ id, Dict.get? block "tool_use_id" = some (.str id) ∧ id ≠ "") ∧
      AcceptedToolResult ((Dict.get? block "content").getD (.str ""))
  | _ => False

def AcceptedUserContent : Json → Prop
  | .str _ => True
  | .arr blocks => ∀ block ∈ blocks, AcceptedUserBlock block
  | _ => False

def AcceptedToolUse (block : Dict) : Prop :=
  (∃ id, block.get? "id" = some (.str id) ∧ id ≠ "") ∧ HasString block "name" ∧
    ∃ arguments, (block.get? "input").getD (.obj []) = .obj arguments

def AcceptedAssistantBlock : Json → Prop
  | .obj block =>
    if hasField (.obj block) "type" "text" then AcceptedText block
    else if hasField (.obj block) "type" "tool_use" then AcceptedToolUse block
    else hasField (.obj block) "type" "thinking" = true
  | _ => False

def AcceptedAssistantContent : Json → Prop
  | .str _ => True
  | .arr blocks => ∀ block ∈ blocks, AcceptedAssistantBlock block
  | _ => False

def AcceptedSystemBlock : Json → Prop
  | .obj block => hasField (.obj block) "type" "text" = true ∧ AcceptedText block
  | _ => False

def AcceptedSystem : Json → Prop
  | .null | .str _ => True
  | .arr blocks => ∀ block ∈ blocks, AcceptedSystemBlock block
  | _ => False

theorem blockText_validates (block : Dict) (message : String) :
    Validates IsRejection (blockText block message) (AcceptedText block) := by
  unfold blockText AcceptedText
  cases (block.get? "text").getD (.str "") with
  | str text => exact (validates_ok text).congr (by simp)
  | _ => exact (validates_malformed _).congr (by simp)

theorem imageBlock_validates (block : Dict) :
    Validates IsRejection (imageBlockToOpenaiPart py block) (AcceptedImage block) := by
  unfold imageBlockToOpenaiPart AcceptedImage HasString
  cases block.get? "source" with
  | none => exact (validates_malformed _).congr (by simp)
  | some value =>
    cases value with
    | obj source =>
      simp only [Option.some.injEq, Json.obj.injEq, exists_eq_left']
      cases hasField (.obj source) "type" "base64" with
      | true =>
        simp only [if_true]
        split
        · rename_i mediaType data hmediaType hdata
          exact (validates_ok _).congr (by simp [hmediaType, hdata])
        · rename_i hother
          refine (validates_malformed _).congr ⟨False.elim, ?_⟩
          rintro ⟨⟨mediaType, hmediaType⟩, data, hdata⟩
          exact hother mediaType data hmediaType hdata
      | false =>
        simp only [Bool.false_eq_true, if_false]
        cases hasField (.obj source) "type" "url" with
        | true =>
          simp only [if_true, true_and]
          split
          · rename_i url hurl
            exact (validates_ok _).congr (by simp [hurl])
          · rename_i hother
            refine (validates_malformed _).congr ⟨False.elim, ?_⟩
            rintro ⟨url, hurl⟩
            exact hother url hurl
        | false => exact (validates_malformed _).congr (by simp)
    | _ => exact (validates_malformed _).congr (by simp)

theorem toolResultBlock_validates (toolCallId : String) (l : ToolResultLocals) (block : Json) :
    Validates IsRejection (toolResultBlock py toolCallId l block)
        (AcceptedToolResultBlock block) := by
  cases block with
  | obj block =>
    simp only [toolResultBlock, AcceptedToolResultBlock]
    refine Validates.ite (fun _ => (blockText_validates block _).map _) (fun _ => ?_)
    cases hasField (.obj block) "type" "image" with
    | true => exact ((imageBlock_validates block).map _).congr (by simp)
    | false => exact (validates_malformed _).congr (by simp)
  | _ => exact validates_malformed _

theorem toolResultMessages_validates (toolCallId : String) (content : Json) :
    Validates IsRejection (toolResultMessages py toolCallId content)
        (AcceptedToolResult content) := by
  cases content with
  | str text => exact validates_ok _
  | null => exact validates_ok _
  | arr blocks => exact (validates_foldlM (toolResultBlock_validates toolCallId) blocks {}).map _
  | _ => exact validates_malformed _

theorem userBlock_validates (l : UserLocals) (block : Json) :
    Validates IsRejection (userBlock py l block) (AcceptedUserBlock block) := by
  cases block with
  | obj block =>
    simp only [userBlock, AcceptedUserBlock]
    refine Validates.ite (fun _ => (blockText_validates block _).map _) (fun _ =>
      Validates.ite (fun _ => (imageBlock_validates block).map _) (fun _ => ?_))
    cases hasField (.obj block) "type" "tool_result" with
    | true =>
      simp only [if_true, true_and]
      split
      · rename_i toolCallId hid
        by_cases hempty : toolCallId = ""
        · simp only [hempty, if_true]
          exact (validates_malformed _).congr (by simp [hid, hempty])
        · simp only [hempty, if_false]
          exact ((toolResultMessages_validates toolCallId _).map _).congr (by simp [hid, hempty])
      · rename_i hother
        refine (validates_malformed _).congr ⟨False.elim, ?_⟩
        rintro ⟨⟨id, hid, _⟩, _⟩
        exact hother id hid
    | false => exact (validates_malformed _).congr (by simp)
  | _ => exact validates_malformed _

theorem userMessages_validates (content : Json) :
    Validates IsRejection (userMessagesFromContent py content) (AcceptedUserContent content) := by
  cases content with
  | str text => exact validates_ok _
  | arr blocks => exact (validates_foldlM userBlock_validates blocks {}).map _
  | _ => exact validates_malformed _

theorem toolUse_validates (block : Dict) (f : String → String → Dict → AssistantLocals) :
    Validates IsRejection (do
      let id ← toolUseId block
      let name ← toolUseName block
      let arguments ← toolUseInput block
      return f id name arguments) (AcceptedToolUse block) := by
  have hid : Validates IsRejection (toolUseId block)
      (∃ id, block.get? "id" = some (.str id) ∧ id ≠ "") := by
    unfold toolUseId
    split
    · rename_i id hget
      refine (Validates.ite (fun _ => validates_malformed _) (fun _ => validates_ok id)).congr ?_
      by_cases hempty : id = "" <;> simp [hget, hempty]
    · rename_i hother
      refine (validates_malformed _).congr ⟨False.elim, ?_⟩
      rintro ⟨id, hget, _⟩
      exact hother id hget
  have hname : Validates IsRejection (toolUseName block) (HasString block "name") := by
    unfold toolUseName HasString
    split
    · rename_i name hget
      exact (validates_ok name).congr (by simp [hget])
    · rename_i hother
      refine (validates_malformed _).congr ⟨False.elim, ?_⟩
      rintro ⟨name, hget⟩
      exact hother name hget
  have hinput : Validates IsRejection (toolUseInput block)
      (∃ arguments, (block.get? "input").getD (.obj []) = .obj arguments) := by
    unfold toolUseInput
    cases (block.get? "input").getD (.obj []) with
    | obj arguments => exact (validates_ok _).congr (by simp)
    | _ => exact (validates_malformed _).congr (by simp)
  exact hid.bind (fun id _ => hname.bind (fun name _ => hinput.map (f id name)))

theorem assistantBlock_validates (l : AssistantLocals) (block : Json) :
    Validates IsRejection (assistantBlock py l block) (AcceptedAssistantBlock block) := by
  cases block with
  | obj block =>
    simp only [assistantBlock, AcceptedAssistantBlock]
    refine Validates.ite (fun _ => (blockText_validates block _).map _) (fun _ =>
      Validates.ite (fun _ => toolUse_validates block _) (fun _ => ?_))
    cases hasField (.obj block) "type" "thinking" with
    | true => exact (validates_ok l).congr (by simp)
    | false =>
      refine (Validates.ite (fun _ => validates_malformed _)
        (fun _ => validates_malformed _)).congr ?_
      simp
  | _ => exact validates_malformed _

theorem assistantMessage_validates (content : Json) :
    Validates IsRejection (assistantMessageFromContent py content)
      (AcceptedAssistantContent content) := by
  cases content with
  | str text => exact validates_ok _
  | arr blocks => exact (validates_foldlM assistantBlock_validates blocks {}).map _
  | _ => exact validates_malformed _

theorem systemBlockText_validates (block : Json) :
    Validates IsRejection (systemBlockText py block) (AcceptedSystemBlock block) := by
  cases block with
  | obj block =>
    simp only [systemBlockText, AcceptedSystemBlock]
    refine (Validates.ite (fun _ => blockText_validates block _)
      (fun _ => validates_malformed _)).congr ?_
    simp
  | _ => exact validates_malformed _

theorem systemToText_validates (content : Json) :
    Validates IsRejection (systemToText py content) (AcceptedSystem content) := by
  cases content with
  | null => exact validates_ok _
  | str text => exact validates_ok _
  | arr blocks => exact (validates_mapM systemBlockText_validates blocks).map _
  | _ => exact validates_malformed _

/-! ## Entries -/

/-- An entry that is accepted as it stands, by its role. -/
def AcceptedAlone (entry : Json) : Prop :=
  if isUserEntry entry then AcceptedUserContent (contentOf entry)
  else hasField entry "role" "assistant" = true ∧ AcceptedAssistantContent (contentOf entry)

theorem messageToInternal_validates (entry : Json) :
    Validates IsRejection (messageToInternal py entry) (AcceptedAlone entry) := by
  cases entry with
  | obj fields =>
    simp only [messageToInternal, AcceptedAlone]
    refine Validates.ite (fun _ => userMessages_validates _) (fun _ => ?_)
    cases hasField (.obj fields) "role" "assistant" with
    | true => exact ((assistantMessage_validates _).map _).congr (by simp [contentOf])
    | false => exact (validates_malformed _).congr (by simp)
  | _ => exact (validates_malformed _).congr (by simp [AcceptedAlone, isUserEntry, hasField])

/-- A reminder is folded into a user entry between these two lists: from behind, up to the next
user entry, or from in front, when there is no user entry in front. -/
def Reminded (py : PythonLibrary) (front back : List Json) : Prop :=
  remindersOf py (beforeUser back) ≠ [] ∨
    front.any isUserEntry = false ∧ remindersOf py front ≠ []

/-- An entry that is accepted in its place. A reminder makes a text of any content that is no
list. -/
def AcceptedIn (py : PythonLibrary) (front : List Json) (entry : Json) (back : List Json) : Prop :=
  if isSystemEntry entry then AcceptedSystem (contentOf entry)
  else AcceptedAlone entry ∨
    Reminded py front back ∧ isUserEntry entry = true ∧ ∀ blocks, contentOf entry ≠ .arr blocks

def AcceptedEntries (py : PythonLibrary) (entries : List Json) : Prop :=
  ∀ front entry back, entries = front ++ entry :: back → AcceptedIn py front entry back

/-- With a reminder, a content that is no list is a text. -/
theorem withReminder_text (py : PythonLibrary) (text : String) (prepend : Bool) {content : Json}
    (h : ∀ blocks, content ≠ .arr blocks) :
    ∃ t, withReminder py text prepend content = .str t := by
  cases content with
  | arr blocks => exact absurd rfl (h blocks)
  | _ =>
    simp only [withReminder]
    split_ifs <;> exact ⟨_, rfl⟩

theorem acceptedUserContent_withReminder (text : String) (prepend : Bool) (content : Json) :
    AcceptedUserContent (withReminder py text prepend content) ↔
      AcceptedUserContent content ∨ ∀ blocks, content ≠ .arr blocks := by
  have htext : AcceptedUserBlock (.obj (textBlock text)) := ⟨text, rfl⟩
  by_cases hlist : ∃ blocks, content = .arr blocks
  · obtain ⟨blocks, rfl⟩ := hlist
    cases prepend with
    | true => simp [withReminder, AcceptedUserContent, htext]
    | false =>
      simp only [withReminder, AcceptedUserContent, Bool.false_eq_true, if_false,
        List.forall_mem_append, List.forall_mem_singleton, htext, and_true]
      simp
  · have hother : ∀ blocks, content ≠ .arr blocks := fun blocks h => hlist ⟨blocks, h⟩
    obtain ⟨t, ht⟩ := withReminder_text py text prepend hother
    simp [ht, AcceptedUserContent, hother]

theorem withReminder_ne_arr_iff (text : String) (prepend : Bool) (content : Json) :
    (∀ blocks, withReminder py text prepend content ≠ .arr blocks) ↔
      ∀ blocks, content ≠ .arr blocks := by
  by_cases hlist : ∃ blocks, content = .arr blocks
  · obtain ⟨blocks, rfl⟩ := hlist
    simp [withReminder]
  · have hother : ∀ blocks, content ≠ .arr blocks := fun blocks h => hlist ⟨blocks, h⟩
    obtain ⟨t, ht⟩ := withReminder_text py text prepend hother
    simp [ht, hother]

theorem acceptedUserContent_withReminders (content : Json) (reminders : List String) :
    AcceptedUserContent (withReminders py content reminders) ↔
      AcceptedUserContent content ∨ reminders ≠ [] ∧ ∀ blocks, content ≠ .arr blocks := by
  unfold withReminders
  induction reminders generalizing content with
  | nil => simp
  | cons reminder reminders ih =>
    rw [List.foldl_cons, ih, acceptedUserContent_withReminder, withReminder_ne_arr_iff]
    by_cases hblocks : ∀ blocks, content ≠ .arr blocks <;> simp [hblocks]

theorem contentOf_takeUp {user : Json} (huser : isUserEntry user = true) (pending : String) :
    contentOf (takeUp py pending user) =
      if pending = "" then contentOf user else withReminder py pending true (contentOf user) := by
  unfold takeUp
  split
  · rfl
  · exact contentOf_foldReminder huser pending true

theorem isUserEntry_takeUp (pending : String) (user : Json) :
    isUserEntry (takeUp py pending user) = isUserEntry user := by
  unfold takeUp
  split
  · rfl
  · exact isUserEntry_foldReminder pending true user

section Folded

variable {user entry : Json} {pending : String}

/-- A user entry of the folded list, with what it took up. -/
theorem acceptedAlone_folded (py : PythonLibrary) (pending : String) (reminders : List String)
    (huser : isUserEntry user = true) :
    AcceptedAlone (appendReminders py (takeUp py pending user) reminders) ↔
      AcceptedAlone user ∨
        (reminders ≠ [] ∨ pending ≠ "") ∧ ∀ blocks, contentOf user ≠ .arr blocks := by
  have htaken : isUserEntry (takeUp py pending user) = true := by
    rw [isUserEntry_takeUp]
    exact huser
  unfold AcceptedAlone
  rw [isUserEntry_appendReminders, if_pos htaken, if_pos huser, contentOf_appendReminders htaken,
    acceptedUserContent_withReminders, contentOf_takeUp huser]
  by_cases hpending : pending = ""
  · simp [hpending]
  · rw [if_neg hpending, acceptedUserContent_withReminder, withReminder_ne_arr_iff]
    by_cases hblocks : ∀ blocks, contentOf user ≠ .arr blocks <;> simp [hblocks, hpending]

/-- An entry behind a user entry is accepted in its place. -/
theorem acceptedAlone_foldedBehind (py : PythonLibrary) (entries : List Json) :
    (∀ entry ∈ foldedBehind py entries, AcceptedAlone entry) ↔
      ∀ front entry back, entries = front ++ entry :: back → isSystemEntry entry = false →
        AcceptedAlone entry ∨ remindersOf py (beforeUser back) ≠ [] ∧
          isUserEntry entry = true ∧ ∀ blocks, contentOf entry ≠ .arr blocks := by
  induction entries with
  | nil => simp [foldedBehind]
  | cons entry entries ih =>
    rw [forall_places_cons, ← ih, foldedBehind]
    cases hsystem : isSystemEntry entry with
    | true => simp
    | false =>
      simp only [Bool.false_eq_true, if_false, forall_const]
      cases huser : isUserEntry entry with
      | true =>
        have hfolded := acceptedAlone_folded py "" (remindersOf py (beforeUser entries)) huser
        simp only [takeUp, if_true, ne_eq, not_true_eq_false, or_false] at hfolded
        simp [hfolded]
      | false => simp

theorem joinReminders_toList_iff :
    joinReminders pending (reminder? py entry).toList = "" ↔
      pending = "" ∧ (reminder? py entry).toList = [] := by
  cases hreminder : reminder? py entry with
  | none => simp [joinReminders]
  | some reminder =>
    have hne := reminder?_ne_empty hreminder
    by_cases hpending : pending = ""
    · simp [joinReminders, hpending, hne]
    · have hjoined := (joinReminders_length hpending [reminder]).2
      simp [hpending, hjoined]

/-- The entries up to the first user entry, and it, are accepted in their places. -/
theorem acceptedAlone_foldedFront (py : PythonLibrary) (entries : List Json) (pending : String) :
    (∀ entry ∈ foldedFront py pending entries, AcceptedAlone entry) ↔
      ∀ front entry back, entries = front ++ entry :: back → isSystemEntry entry = false →
        AcceptedAlone entry ∨ (remindersOf py (beforeUser back) ≠ [] ∨
            front.any isUserEntry = false ∧ (pending ≠ "" ∨ remindersOf py front ≠ [])) ∧
          isUserEntry entry = true ∧ ∀ blocks, contentOf entry ≠ .arr blocks := by
  induction entries generalizing pending with
  | nil =>
    have hstandalone : AcceptedAlone (.obj [("role", .str "user"), ("content", .str pending)]) :=
      trivial
    unfold foldedFront
    split <;> simp [hstandalone]
  | cons entry entries ih =>
    rw [forall_places_cons, foldedFront]
    cases hsystem : isSystemEntry entry with
    | true =>
      have hwaits : ∀ front, joinReminders pending (reminder? py entry).toList ≠ "" ∨
          remindersOf py front ≠ [] ↔ pending ≠ "" ∨ remindersOf py (entry :: front) ≠ [] := by
        intro front
        rw [remindersOf_cons, ne_eq, joinReminders_toList_iff]
        simp only [ne_eq, List.append_eq_nil_iff]
        tauto
      rw [if_pos rfl, ih]
      simp [isUserEntry_of_isSystemEntry hsystem, hwaits]
    | false =>
      cases huser : isUserEntry entry with
      | true =>
        have hfolded := acceptedAlone_folded py pending (remindersOf py (beforeUser entries)) huser
        simp [acceptedAlone_foldedBehind, hfolded, huser]
      | false =>
        simp [ih, huser, remindersOf_cons, reminder?_of_other hsystem]

/-- A user entry with an empty list for its content: it is lowered to nothing. -/
def IsEmptyUser (entry : Json) : Prop := isUserEntry entry = true ∧ contentOf entry = .arr []

theorem isEmptyUser_folded (py : PythonLibrary) (pending : String) (reminders : List String)
    (huser : isUserEntry user = true) :
    IsEmptyUser (appendReminders py (takeUp py pending user) reminders) ↔
      IsEmptyUser user ∧ pending = "" ∧ reminders = [] := by
  have htaken : isUserEntry (takeUp py pending user) = true := by
    rw [isUserEntry_takeUp]
    exact huser
  unfold IsEmptyUser
  rw [isUserEntry_appendReminders, contentOf_appendReminders htaken, contentOf_takeUp huser]
  cases reminders with
  | nil =>
    by_cases hpending : pending = ""
    · simp [hpending, withReminders, isUserEntry_takeUp]
    · simp [hpending, withReminders, withReminder_ne_nil]
  | cons reminder reminders =>
    have hne : ∀ content, withReminders py (withReminder py reminder false content) reminders ≠
        .arr [] := fun content =>
          withReminders_ne_nil (withReminder_ne_nil reminder false content) _
    simp only [withReminders, List.foldl_cons] at hne ⊢
    simp [hne]

theorem isEmptyUser_foldedBehind (py : PythonLibrary) (entries : List Json) :
    (remindersOf py (beforeUser entries) = [] ∧
        ∀ entry ∈ foldedBehind py entries, IsEmptyUser entry) ↔
      remindersOf py entries = [] ∧
        ∀ entry ∈ entries, isSystemEntry entry = false → IsEmptyUser entry := by
  induction entries with
  | nil => simp [foldedBehind, beforeUser]
  | cons entry entries ih =>
    rw [foldedBehind, remindersOf_cons, List.forall_mem_cons]
    cases hsystem : isSystemEntry entry with
    | true =>
      rw [beforeUser_cons_other (isUserEntry_of_isSystemEntry hsystem),
        remindersOf_cons, if_pos rfl]
      simp [and_assoc, ih]
    | false =>
      rw [if_neg (by simp), reminder?_of_other hsystem]
      cases huser : isUserEntry entry with
      | true =>
        have hfolded := isEmptyUser_folded py "" (remindersOf py (beforeUser entries)) huser
        simp only [takeUp, if_true, true_and] at hfolded
        rw [beforeUser_cons_user huser]
        simp [hfolded, and_assoc, ih, and_left_comm]
      | false =>
        have hnot : ¬ IsEmptyUser entry := by simp [IsEmptyUser, huser]
        simp [hnot]

theorem isEmptyUser_foldedFront (py : PythonLibrary) (entries : List Json) (pending : String) :
    (∀ entry ∈ foldedFront py pending entries, IsEmptyUser entry) ↔
      pending = "" ∧ remindersOf py entries = [] ∧
        ∀ entry ∈ entries, isSystemEntry entry = false → IsEmptyUser entry := by
  induction entries generalizing pending with
  | nil =>
    have hstandalone : ¬ IsEmptyUser (.obj [("role", .str "user"), ("content", .str pending)]) := by
      rintro ⟨_, hcontent⟩
      cases hcontent
    unfold foldedFront
    split <;> simp_all
  | cons entry entries ih =>
    rw [foldedFront, remindersOf_cons, List.forall_mem_cons]
    cases hsystem : isSystemEntry entry with
    | true =>
      rw [if_pos rfl, ih, joinReminders_toList_iff]
      simp [and_assoc]
    | false =>
      rw [if_neg (by simp), reminder?_of_other hsystem]
      cases huser : isUserEntry entry with
      | true =>
        have hfolded := isEmptyUser_folded py pending (remindersOf py (beforeUser entries)) huser
        have hbehind := isEmptyUser_foldedBehind py entries
        simp only [if_true, List.forall_mem_cons, hfolded, forall_const, Option.toList_none,
          List.nil_append]
        tauto
      | false =>
        have hnot : ¬ IsEmptyUser entry := by simp [IsEmptyUser, huser]
        simp [hnot]

theorem foldedFront_eq_nil_iff (py : PythonLibrary) (entries : List Json) (pending : String) :
    foldedFront py pending entries = [] ↔
      pending = "" ∧ remindersOf py entries = [] ∧ ∀ entry ∈ entries,
          isSystemEntry entry = true := by
  induction entries generalizing pending with
  | nil => simp [foldedFront]
  | cons entry entries ih =>
    rw [foldedFront, remindersOf_cons, List.forall_mem_cons]
    cases hsystem : isSystemEntry entry with
    | true =>
      rw [if_pos rfl, ih, joinReminders_toList_iff]
      simp [and_assoc]
    | false => cases isUserEntry entry <;> simp

end Folded

/-! ## Message lists -/

/-- The `messages` of a payload that are accepted. Without any entry left after the fold there
is nothing to lower, and the list is rejected. -/
def AcceptedMessages (py : PythonLibrary) (messages : Json) : Prop :=
  ∃ entries, messages = .arr entries ∧ AcceptedEntries py entries ∧
    (remindersOf py entries ≠ [] ∨ ∃ entry ∈ entries, isSystemEntry entry = false)

theorem foldEntry_validates (l : FoldLocals) (entry : Json) :
    Validates IsRejection (foldEntry py l entry)
      (isSystemEntry entry = true → AcceptedSystem (contentOf entry)) := by
  unfold foldEntry
  cases isSystemEntry entry with
  | true =>
    rw [if_pos rfl]
    refine ((systemToText_validates _).bind (fun text _ =>
      (?_ : Validates IsRejection _ True))).congr (by simp)
    by_cases hempty : text = ""
    · rw [if_pos hempty]
      exact validates_ok l
    · rw [if_neg hempty]
      cases hout : foldIntoLastUser py (reminderOf text) l.out with
      | some out =>
        simp only [hout]
        exact validates_ok _
      | none =>
        simp only [hout]
        exact validates_ok _
  | false =>
    rw [if_neg (by simp)]
    split <;> exact (validates_ok _).congr (by simp)

theorem foldMidListSystemIntoUser_validates (entries : List Json) :
    Validates IsRejection (foldMidListSystemIntoUser py (.arr entries))
      (∀ entry ∈ entries, isSystemEntry entry = true → AcceptedSystem (contentOf entry)) := by
  simp only [foldMidListSystemIntoUser]
  cases hany : entries.any isSystemEntry with
  | true => exact (validates_foldlM foldEntry_validates entries {}).map _
  | false =>
    refine (validates_ok _).congr (iff_of_true trivial ?_)
    intro entry hentry hsystem
    exact absurd hsystem (List.any_eq_false.mp hany entry hentry)

theorem messagesToInternal_validates (entries : List Json) :
    Validates IsRejection (messagesToInternal py (.arr entries))
      (entries ≠ [] ∧ ∀ entry ∈ entries, AcceptedAlone entry) := by
  cases entries with
  | nil => exact (validates_malformed _).congr (by simp)
  | cons entry rest =>
    exact ((validates_mapM messageToInternal_validates (entry :: rest)).map _).congr (by simp)

/-- Each entry in its place: the system entries, and the others in the folded list. -/
theorem acceptedEntries_iff {entries : List Json} : AcceptedEntries py entries ↔
    (∀ entry ∈ entries, isSystemEntry entry = true → AcceptedSystem (contentOf entry)) ∧
      ∀ entry ∈ foldedFront py "" entries, AcceptedAlone entry := by
  rw [acceptedAlone_foldedFront]
  unfold AcceptedEntries AcceptedIn Reminded
  refine ⟨?_, ?_⟩
  · intro h
    refine ⟨fun entry hentry hsystem => ?_, fun front entry back hentries hsystem => ?_⟩
    · obtain ⟨front, back, hentries⟩ := List.append_of_mem hentry
      simpa [hsystem] using h front entry back hentries
    · simpa [hsystem] using h front entry back hentries
  · rintro ⟨hsystems, hothers⟩ front entry back hentries
    cases hsystem : isSystemEntry entry with
    | true =>
      rw [if_pos rfl]
      exact hsystems entry (by simp [hentries]) hsystem
    | false => simpa using hothers front entry back hentries hsystem

/-- The two steps in front of the system text. -/
theorem lowerMessages_validates (messages : Json) :
    Validates IsRejection (foldMidListSystemIntoUser py messages >>= messagesToInternal py)
      (AcceptedMessages py messages) := by
  cases messages with
  | arr entries =>
    have hfolded : ∀ folded, foldMidListSystemIntoUser py (.arr entries) = .ok folded →
        Validates IsRejection (messagesToInternal py folded) (foldedFront py "" entries ≠ [] ∧
          ∀ entry ∈ foldedFront py "" entries, AcceptedAlone entry) := by
      intro folded h
      rw [foldMidListSystemIntoUser_eq_ok h]
      exact messagesToInternal_validates (foldedFront py "" entries)
    refine ((foldMidListSystemIntoUser_validates entries).bind hfolded).congr ?_
    simp only [AcceptedMessages, Json.arr.injEq, exists_eq_left', acceptedEntries_iff, ne_eq,
      foldedFront_eq_nil_iff]
    simp only [true_and, not_and_or, not_forall, Bool.not_eq_true, exists_prop]
    tauto
  | _ => exact (validates_malformed _).congr (by simp [AcceptedMessages])

/-- The accepted lists that are lowered to no message: all that is not a system entry without a
text is an empty user entry. -/
def SaysNothing (py : PythonLibrary) (entries : List Json) : Prop :=
  remindersOf py entries = [] ∧ ∀ entry ∈ entries, isSystemEntry entry = false → IsEmptyUser entry

theorem lowered_eq_nil_iff {entries : List Json} {messages : List Message}
    (h : Lowered py entries messages) : messages = [] ↔ ∀ entry ∈ entries, IsEmptyUser entry := by
  induction entries generalizing messages with
  | nil => simp [lowered_nil.mp h]
  | cons entry entries ih =>
    obtain ⟨front, back, hfront, hback, rfl⟩ := lowered_cons.mp h
    rw [List.append_eq_nil_iff, ih hback, List.forall_mem_cons]
    refine and_congr_left (fun _ => ?_)
    rcases messageToInternal_eq_ok hfront with ⟨huser, hcontent⟩ | ⟨hnot, _, m, _, rfl⟩
    · rw [(userMessagesFromContent_eq_ok hcontent).2]
      simp [IsEmptyUser, isUserEntry, huser]
    · simp [IsEmptyUser, isUserEntry, hnot]

theorem lowered_foldedFront_eq_nil_iff {entries : List Json} {messages : List Message}
    (h : Lowered py (foldedFront py "" entries) messages) :
    messages = [] ↔ SaysNothing py entries := by
  rw [lowered_eq_nil_iff h, isEmptyUser_foldedFront]
  simp [SaysNothing]

end uni_agent.anthropic
