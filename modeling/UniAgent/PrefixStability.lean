-- When a client only appends to an Anthropic message list, its lowered messages stay a prefix,
-- except where an appended reminder is folded into a message that was there before.
import UniAgent.CharacterCodec
import UniAgent.SystemReminders

namespace uni_agent.anthropic

variable {py : PythonLibrary}

/-! ## Content with reminders -/

/-- The content of a user entry with a reminder. -/
def withReminder (py : PythonLibrary) (text : String) (prepend : Bool) : Json → Json
  | .arr content =>
    .arr (if prepend then .obj (textBlock text) :: content else content ++ [.obj (textBlock text)])
  | content =>
    if !content.truthy then .str text
    else if prepend then .str (text ++ "\n" ++ py.str content)
    else .str (py.str content ++ "\n" ++ text)

theorem contentOf_foldReminder {user : Json} (huser : isUserEntry user = true) (text : String)
    (prepend : Bool) : contentOf (foldReminder py text prepend user) =
      withReminder py text prepend (contentOf user) := by
  obtain ⟨fields, rfl⟩ := eq_obj_of_hasField huser
  simp only [foldReminder, contentOf]
  unfold foldReminderIntoUser withReminder
  cases (Dict.get? fields "content").getD (.str "") with
  | arr content => simp [Dict.get?_set_self]
  | _ =>
    simp only []
    repeat' split
    all_goals rw [Dict.get?_set_self, Option.getD_some]

def withReminders (py : PythonLibrary) (content : Json) (reminders : List String) : Json :=
  reminders.foldl (fun content reminder => withReminder py reminder false content) content

theorem contentOf_appendReminders {user : Json} (huser : isUserEntry user = true)
    (reminders : List String) : contentOf (appendReminders py user reminders) =
      withReminders py (contentOf user) reminders := by
  unfold appendReminders withReminders
  induction reminders generalizing user with
  | nil => rfl
  | cons reminder reminders ih =>
    rw [List.foldl_cons, List.foldl_cons, ih (by rw [isUserEntry_foldReminder]; exact huser),
      contentOf_foldReminder huser]

theorem withReminders_arr (blocks : List Json) (reminders : List String) :
    withReminders py (.arr blocks) reminders =
      .arr (blocks ++ reminders.map (fun reminder => .obj (textBlock reminder))) := by
  unfold withReminders
  induction reminders generalizing blocks with
  | nil => simp
  | cons reminder reminders ih =>
    rw [List.foldl_cons, withReminder, if_neg (by simp), ih]
    simp

/-- Each reminder makes a text longer. -/
theorem withReminders_str (py : PythonLibrary) (text : String) {reminders : List String}
    (hne : ∀ reminder ∈ reminders, reminder ≠ "") :
    ∃ longer, withReminders py (.str text) reminders = .str longer ∧
      text.length + reminders.length ≤ longer.length := by
  unfold withReminders
  induction reminders generalizing text with
  | nil => exact ⟨text, rfl, by simp⟩
  | cons reminder reminders ih =>
    have hpos : 0 < reminder.length := by
      rw [Nat.pos_iff_ne_zero, ne_eq, String.length_eq_zero_iff]
      exact hne reminder (by simp)
    have hrest := fun next => ih next (fun r hr => hne r (List.mem_cons_of_mem _ hr))
    rw [List.foldl_cons, withReminder, List.length_cons]
    · by_cases hempty : text = ""
      · subst hempty
        obtain ⟨longer, hlonger, hlength⟩ := hrest reminder
        exact ⟨longer, hlonger, by simp; omega⟩
      · obtain ⟨longer, hlonger, hlength⟩ := hrest (text ++ "\n" ++ reminder)
        have hnewline : ("\n" : String).length = 1 := rfl
        simp only [String.length_append, hnewline] at hlength
        refine ⟨longer, ?_, by omega⟩
        simpa [Json.truthy, hempty, PythonLibrary.str] using hlonger
    · simp

/-! ## The messages of a user entry with reminders -/

/-- Nothing of the content waits to be flushed. -/
def openContent : Json → Bool
  | .arr blocks => closesParts blocks
  | _ => false

theorem userBlocks_texts (l : UserLocals) (reminders : List String) :
    (reminders.map (fun reminder => Json.obj (textBlock reminder))).foldlM (userBlock py) l =
      .ok { l with parts := l.parts ++ reminders.map .text } := by
  induction reminders generalizing l with
  | nil => simp [pure, Except.pure]
  | cons reminder reminders ih =>
    rw [List.map_cons, List.foldlM_cons, userBlock_textBlock]
    have hrest := ih { l with parts := l.parts ++ [.text reminder] }
    simp only [List.append_assoc] at hrest
    exact hrest

theorem filterMap_texts (reminders : List String) :
    (reminders.map UserPart.text).filterMap UserPart.text? = reminders := by
  induction reminders with
  | nil => rfl
  | cons reminder reminders ih => simpa [UserPart.text?] using ih

theorem any_image_texts (reminders : List String) :
    (reminders.map UserPart.text).any (fun part => part.text?.isNone) = false := by
  simp [UserPart.text?]

theorem filterMap_text?_ne_nil {parts : List UserPart} (hne : parts ≠ [])
    (htexts : parts.any (fun part => part.text?.isNone) = false) :
    parts.filterMap UserPart.text? ≠ [] := by
  cases parts with
  | nil => exact absurd rfl hne
  | cons part parts =>
    cases part with
    | text content => simp [UserPart.text?]
    | image url => simp [UserPart.text?] at htexts

/-- More texts make another content. -/
theorem partsContent_append_ne {parts : List UserPart} {reminders : List String}
    (hparts : parts ≠ []) (hreminders : reminders ≠ []) :
    partsContent (parts ++ reminders.map .text) ≠ partsContent parts := by
  unfold partsContent
  rw [List.any_append, any_image_texts, Bool.or_false]
  intro h
  split at h
  · rw [Json.arr.injEq] at h
    have hlength := congrArg List.length h
    have hpos := List.length_pos_iff.mpr hreminders
    simp only [List.length_map, List.length_append] at hlength
    omega
  · rename_i htexts
    have hne := filterMap_text?_ne_nil hparts (by simpa using htexts)
    rw [List.filterMap_append, filterMap_texts, String.intercalate_append_of_ne_nil hne hreminders,
      Json.str.injEq] at h
    have hlength := congrArg String.length h
    have hnewline : ("\n" : String).length = 1 := rfl
    simp only [String.length_append, hnewline] at hlength
    omega

variable {content : Json} {messages others : List Message} {reminders : List String}

/-- Reminders behind blocks are more parts for the loop over these blocks. -/
theorem userMessages_withReminders {blocks : List Json}
    (h : userMessagesFromContent py (.arr blocks) = .ok messages)
    (h' : userMessagesFromContent py (withReminders py (.arr blocks) reminders) = .ok others) :
    ∃ l, blocks.foldlM (userBlock py) {} = .ok l ∧ l.flushUser.messages = messages ∧
      ({ l with parts := l.parts ++ reminders.map .text } : UserLocals).flushUser.messages =
        others := by
  simp only [userMessagesFromContent, bind_eq_ok] at h
  obtain ⟨l, hl, h⟩ := h
  rw [withReminders_arr] at h'
  simp only [userMessagesFromContent, List.foldlM_append, bind_eq_ok, userBlocks_texts] at h'
  obtain ⟨l', ⟨l1, hl1, htexts⟩, h'⟩ := h'
  rw [hl] at hl1
  cases hl1
  cases htexts
  exact ⟨l, hl, Except.ok.inj h, Except.ok.inj h'⟩

/-- Reminders behind a tool result make a message of their own. -/
theorem userMessages_of_open (hopen : openContent content = true) (hreminders : reminders ≠ [])
    (h : userMessagesFromContent py content = .ok messages)
    (h' : userMessagesFromContent py (withReminders py content reminders) = .ok others) :
    ∃ added, added.role = "user" ∧ others = messages ++ [added] := by
  cases content with
  | arr blocks =>
    obtain ⟨l, hl, rfl, rfl⟩ := userMessages_withReminders h h'
    have hnil := (parts_eq_nil_iff hl).mpr hopen
    refine ⟨{ role := "user", content := partsContent (reminders.map .text) }, rfl, ?_⟩
    simp [UserLocals.flushUser, hnil, hreminders]
  | _ => simp [openContent] at hopen

/-- Reminders behind anything else change the last message. -/
theorem userMessages_of_not_open (hopen : openContent content = false)
    (hreminders : reminders ≠ []) (hne : ∀ reminder ∈ reminders, reminder ≠ "")
    (h : userMessagesFromContent py content = .ok messages)
    (h' : userMessagesFromContent py (withReminders py content reminders) = .ok others) :
    ∃ before last last', messages = before ++ [last] ∧ others = before ++ [last'] ∧
      last ≠ last' := by
  have hpos := List.length_pos_iff.mpr hreminders
  cases content with
  | arr blocks =>
    obtain ⟨l, hl, rfl, rfl⟩ := userMessages_withReminders h h'
    have hparts : l.parts ≠ [] := by
      intro hnil
      rw [parts_eq_nil_iff hl] at hnil
      simp [openContent, hnil] at hopen
    refine ⟨l.messages, _, _, by simp only [UserLocals.flushUser, List.isEmpty_iff, hparts]; rfl,
      by simp only [UserLocals.flushUser, List.isEmpty_iff, List.append_eq_nil_iff, hparts]; rfl,
      ?_⟩
    intro heq
    exact partsContent_append_ne hparts hreminders (congrArg Message.content heq).symm
  | str text =>
    cases h
    obtain ⟨longer, hlonger, hlength⟩ := withReminders_str py text hne
    rw [hlonger] at h'
    cases h'
    refine ⟨[], _, _, rfl, rfl, ?_⟩
    intro heq
    have htext := congrArg Message.content heq
    simp only [Json.str.injEq] at htext
    rw [← htext] at hlength
    omega
  | _ => cases h

/-! ## Appended entries -/

/-- The entries in front of the first user entry. -/
def beforeUser (entries : List Json) : List Json :=
  entries.takeWhile (fun entry => !isUserEntry entry)

/-- The first user entry with what follows it. -/
def fromUser (entries : List Json) : List Json :=
  entries.dropWhile (fun entry => !isUserEntry entry)

theorem beforeUser_append_fromUser (entries : List Json) :
    beforeUser entries ++ fromUser entries = entries :=
  List.takeWhile_append_dropWhile

theorem any_beforeUser (entries : List Json) : (beforeUser entries).any isUserEntry = false := by
  rw [List.any_eq_false]
  intro entry hentry
  simpa using List.mem_takeWhile_imp hentry

theorem isUserEntry_of_fromUser {entries rest : List Json} {user : Json}
    (h : fromUser entries = user :: rest) : isUserEntry user = true := by
  have hne : fromUser entries ≠ [] := by simp [h]
  have hhead := List.head_dropWhile_not (fun entry => !isUserEntry entry) hne
  change (!isUserEntry ((fromUser entries).head hne)) = false at hhead
  simpa [h] using hhead

variable {entries more : List Json} {l l' : FoldLocals}

theorem exists_lastUser (h : entries.any isUserEntry = true) :
    ∃ front user post, entries = front ++ user :: post ∧ isUserEntry user = true ∧
      post.any isUserEntry = false := by
  cases hfold : foldIntoLastUser plainPython "" entries with
  | none =>
    rw [foldIntoLastUser_eq_none_iff, h] at hfold
    cases hfold
  | some folded =>
    obtain ⟨front, user, post, hentries, huser, hpost, _⟩ := foldIntoLastUser_eq_some hfold
    exact ⟨front, user, post, hentries, huser, hpost⟩

/-- Appended entries change the last user entry by the reminders in front of their own first
user entry, and nothing else of what is there. -/
theorem fold_appended {front post : List Json} {user : Json}
    (h : more.foldlM (foldEntry py) l = .ok l') (hout : l.out = front ++ user :: post)
    (hpending : l.pending = "") (huser : isUserEntry user = true)
    (hpost : post.any isUserEntry = false) : ∃ rest, l'.finish =
      front ++ appendReminders py user (remindersOf py (beforeUser more)) :: (post ++ rest) := by
  rw [← beforeUser_append_fromUser more, List.foldlM_append, bind_eq_ok] at h
  obtain ⟨l1, hbefore, hfrom⟩ := h
  have hl1 := fold_appending hbefore hout hpending huser hpost (any_beforeUser more)
  have hany1 : l1.out.any isUserEntry = true := by
    simp [hl1, isUserEntry_appendReminders, huser]
  have hout1 : l1.out = (front ++ appendReminders py user (remindersOf py (beforeUser more)) ::
      post) ++ conversation (beforeUser more) := by simp [hl1]
  have hfinish : l'.pending = "" := by
    apply fold_pending hfrom (fun _ => by rw [hl1])
    rw [fold_any_isUserEntry hfrom, hany1]
    rfl
  have hkept : ∃ rest, l'.out = (front ++ appendReminders py user
      (remindersOf py (beforeUser more)) :: post) ++ rest := by
    cases hmore : fromUser more with
    | nil =>
      rw [hmore] at hfrom
      cases hfrom
      exact ⟨_, hout1⟩
    | cons next rest =>
      have hnext := isUserEntry_of_fromUser hmore
      rw [hmore, List.foldlM_cons, bind_eq_ok] at hfrom
      obtain ⟨l2, hstep, hrest⟩ := hfrom
      cases folded_of_foldEntry hstep with
      | silent hsystem _ =>
        rw [isUserEntry_of_isSystemEntry hsystem] at hnext
        cases hnext
      | appended reminder out hsystem _ _ =>
        rw [isUserEntry_of_isSystemEntry hsystem] at hnext
        cases hnext
      | delayed reminder hsystem _ _ =>
        rw [isUserEntry_of_isSystemEntry hsystem] at hnext
        cases hnext
      | prepended _ hne _ => exact absurd (by rw [hl1]) hne
      | kept _ _ =>
        have hguard : Guarded (front ++ appendReminders py user
            (remindersOf py (beforeUser more)) :: post)
              (conversation (beforeUser more) ++ [next]) :=
          Or.inr (by simp [hnext])
        apply fold_guarded hrest ?_ hguard
        simp only [hout1, List.append_assoc]
  obtain ⟨rest, hrest⟩ := hkept
  refine ⟨rest, ?_⟩
  simp [FoldLocals.finish, hfinish, hrest]

/-- The messages of entries without a user entry are those of the assistant, one for each. -/
theorem lowered_withoutUsers {messages : List Message} (h : Lowered py entries messages)
    (hany : entries.any isUserEntry = false) :
    (∀ m ∈ messages, m.role = "assistant") ∧ messages.length = entries.length := by
  induction entries generalizing messages with
  | nil =>
    rw [lowered_nil.mp h]
    simp
  | cons entry entries ih =>
    rw [List.any_cons, Bool.or_eq_false_iff] at hany
    obtain ⟨first, rest, hfirst, hrest, rfl⟩ := lowered_cons.mp h
    obtain ⟨hroles, hlength⟩ := ih hrest hany.2
    rcases messageToInternal_eq_ok hfirst with ⟨huser, _⟩ | ⟨_, _, m, hm, rfl⟩
    · exact absurd huser (by simpa [isUserEntry] using hany.1)
    · refine ⟨?_, by simp [hlength]⟩
      simp only [List.singleton_append, List.mem_cons]
      rintro m' (rfl | hm')
      · exact hm
      · exact hroles m' hm'

/-- The list ends with a user entry, and a reminder behind it makes a message of its own. -/
def endsOpen (entries : List Json) : Bool :=
  entries.getLast?.any (fun entry => isUserEntry entry && openContent (contentOf entry))

theorem endsOpen_append {front post : List Json} {user : Json} (huser : isUserEntry user = true)
    (hpost : post.any isUserEntry = false) : endsOpen (front ++ user :: post) = true ↔
      post = [] ∧ openContent (contentOf user) = true := by
  unfold endsOpen
  rcases List.eq_nil_or_concat post with rfl | ⟨post, last, rfl⟩
  · simp [huser]
  · rw [List.concat_eq_append] at hpost ⊢
    have hlast : isUserEntry last = false := by
      rw [List.any_append, Bool.or_eq_false_iff] at hpost
      simpa using hpost.2
    rw [← List.cons_append, ← List.append_assoc, List.getLast?_concat]
    simp [hlast]

/-- The prefix of a list whose last user entry gets some reminders. -/
theorem lowered_prefix_iff {front post rest : List Json} {user : Json}
    {messages others : List Message}
    (huser : isUserEntry user = true) (hpost : post.any isUserEntry = false)
    (hne : ∀ reminder ∈ reminders, reminder ≠ "")
    (h : Lowered py (front ++ user :: post) messages)
    (h' : Lowered py (front ++ appendReminders py user reminders :: (post ++ rest)) others) :
    messages <+: others ↔ reminders = [] ∨ endsOpen (front ++ user :: post) = true := by
  rw [endsOpen_append huser hpost]
  obtain ⟨before, _, hbefore, hback, rfl⟩ := lowered_append.mp h
  obtain ⟨ofUser, after, hofUser, hafter, rfl⟩ := lowered_cons.mp hback
  obtain ⟨before', _, hbefore', hback', rfl⟩ := lowered_append.mp h'
  obtain ⟨ofUser', _, hofUser', hpost', rfl⟩ := lowered_cons.mp hback'
  obtain ⟨after', added, hafter', hadded, rfl⟩ := lowered_append.mp hpost'
  cases hbefore.unique hbefore'
  cases hafter.unique hafter'
  rw [List.prefix_append_right_inj]
  by_cases hreminders : reminders = []
  · subst hreminders
    have hsame : messageToInternal py user = .ok ofUser' := hofUser'
    rw [hofUser] at hsame
    cases hsame
    simp
  · have huser' : isUserEntry (appendReminders py user reminders) = true := by
      rw [isUserEntry_appendReminders]
      exact huser
    rw [messageToInternal_user huser] at hofUser
    rw [messageToInternal_user huser', contentOf_appendReminders huser] at hofUser'
    obtain ⟨hroles, hlength⟩ := lowered_withoutUsers hafter hpost
    have hnil : post = [] ↔ after = [] := by
      rw [← List.length_eq_zero_iff, ← hlength, List.length_eq_zero_iff]
    simp only [hreminders, false_or, hnil]
    cases hopen : openContent (contentOf user) with
    | true =>
      obtain ⟨own, hown, rfl⟩ := userMessages_of_open hopen hreminders hofUser hofUser'
      rw [List.append_assoc, List.prefix_append_right_inj]
      simp only [and_true]
      cases after with
      | nil => simp
      | cons first after =>
        simp only [List.singleton_append, List.cons_prefix_cons, List.cons_ne_nil, iff_false,
          not_and]
        rintro rfl
        have hrole := hroles first (by simp)
        rw [hown] at hrole
        exact absurd hrole (by decide)
    | false =>
      obtain ⟨start, last, last', rfl, rfl, hdiff⟩ :=
        userMessages_of_not_open hopen hreminders hne hofUser hofUser'
      simp only [List.append_assoc, List.prefix_append_right_inj, List.singleton_append,
        List.cons_prefix_cons, hdiff, false_and, Bool.false_eq_true, and_false]

/-! ## Reminders that wait -/

theorem joinReminders_length {pending : String} (hpending : pending ≠ "")
    (reminders : List String) :
    pending.length + reminders.length ≤ (joinReminders pending reminders).length ∧
      joinReminders pending reminders ≠ "" := by
  unfold joinReminders
  induction reminders generalizing pending with
  | nil => exact ⟨by simp, hpending⟩
  | cons reminder reminders ih =>
    have hnewline : ("\n" : String).length = 1 := rfl
    have hlonger : pending ++ "\n" ++ reminder ≠ "" := by
      intro h
      have hlength := congrArg String.length h
      simp only [String.length_append, hnewline, String.length_empty] at hlength
      omega
    obtain ⟨hlength, hne⟩ := ih hlonger
    rw [List.foldl_cons, if_neg hpending, List.length_cons]
    simp only [String.length_append, hnewline] at hlength
    exact ⟨by omega, hne⟩

theorem joinReminders_eq_iff {pending : String} (hpending : pending ≠ "")
    (reminders : List String) :
    joinReminders pending reminders = pending ↔ reminders = [] := by
  refine ⟨?_, ?_⟩
  · intro h
    have hlength := (joinReminders_length hpending reminders).1
    rw [h] at hlength
    exact List.length_eq_zero_iff.mp (by omega)
  · rintro rfl
    rfl

theorem joinReminders_empty_iff (hne : ∀ reminder ∈ reminders, reminder ≠ "") :
    joinReminders "" reminders = "" ↔ reminders = [] := by
  cases reminders with
  | nil => simp [joinReminders]
  | cons reminder reminders =>
    have hfirst := hne reminder (by simp)
    have hjoin := (joinReminders_length hfirst reminders).2
    simpa [joinReminders] using hjoin

/-- The first message of a user entry that begins with some parts. -/
theorem userBlocks_first {blocks : List Json} {parts : List UserPart} {l : UserLocals}
    (hparts : parts ≠ []) (h : blocks.foldlM (userBlock py) { parts } = .ok l) :
    ∃ added rest, l.flushUser.messages =
      { role := "user", content := partsContent (parts ++ added) } :: rest := by
  have hinv : (l.messages = [] ∧ ∃ added, l.parts = parts ++ added) ∨
      ∃ added rest, l.messages =
        { role := "user", content := partsContent (parts ++ added) } :: rest := by
    induction blocks using List.reverseRecOn generalizing l with
    | nil =>
      cases h
      exact Or.inl ⟨rfl, [], by simp⟩
    | append_singleton blocks last ih =>
      obtain ⟨before, hbefore, hstep⟩ := foldlM_concat_eq_ok.mp h
      rcases ih hbefore with ⟨hmessages, added, hadded⟩ | ⟨added, rest, hmessages⟩
      · cases userStep_of_userBlock hstep with
        | part part _ => exact Or.inl ⟨hmessages, added ++ [part], by simp [hadded]⟩
        | toolResult messages _ _ _ =>
          refine Or.inr ⟨added, messages, ?_⟩
          simp [UserLocals.flushUser, hadded, hparts, hmessages]
      · obtain ⟨grown, hgrown⟩ := userStep_messages (userStep_of_userBlock hstep)
        exact Or.inr ⟨added, rest ++ grown, by simp [hgrown, hmessages]⟩
  unfold UserLocals.flushUser
  rcases hinv with ⟨hmessages, added, hadded⟩ | ⟨added, rest, hmessages⟩
  · exact ⟨added, [], by simp [hadded, hparts, hmessages]⟩
  · split
    · exact ⟨added, rest, hmessages⟩
    · exact ⟨added, _, by rw [hmessages]; rfl⟩

/-- A text with more parts behind it is no text that is as short. -/
theorem partsContent_ne_str {text short : String} {part : UserPart} {parts : List UserPart}
    (hshort : short.length ≤ text.length) :
    partsContent (.text text :: part :: parts) ≠ .str short := by
  unfold partsContent
  split
  · simp
  · rename_i htexts
    have hrest : (part :: parts).filterMap UserPart.text? ≠ [] := by
      apply filterMap_text?_ne_nil (by simp)
      simp only [List.any_cons, Bool.not_eq_true, Bool.or_eq_false_iff] at htexts ⊢
      exact htexts.2
    rw [List.filterMap_cons_some (by rfl), String.intercalate_cons_of_ne_nil hrest, ne_eq,
      Json.str.injEq]
    intro h
    have hlength := congrArg String.length h
    have hnewline : ("\n" : String).length = 1 := rfl
    simp only [String.length_append, hnewline] at hlength
    omega

def startsWithToolResult : Json → Bool
  | .arr (block :: _) => hasField block "type" "tool_result"
  | _ => false

/-- The first message of a user entry whose first part is a text. -/
theorem userBlocks_waiting_iff {blocks : List Json} {pending text : String} {l : UserLocals}
    (hlength : pending.length ≤ text.length)
    (h : blocks.foldlM (userBlock py) { parts := [.text text] } = .ok l) :
    l.flushUser.messages.head? = some { role := "user", content := .str pending } ↔
      text = pending ∧ (blocks = [] ∨ startsWithToolResult (.arr blocks) = true) := by
  have hsingle : partsContent [.text text] = .str text := by
    simp [partsContent, UserPart.text?]
  cases blocks with
  | nil =>
    cases h
    simp [UserLocals.flushUser, hsingle]
  | cons block blocks =>
    rw [List.foldlM_cons, bind_eq_ok] at h
    obtain ⟨l1, hstep, h⟩ := h
    cases userStep_of_userBlock hstep with
    | part part hkind =>
      obtain ⟨added, rest, hmessages⟩ := userBlocks_first (by simp) h
      have hdiff : partsContent (.text text :: part :: added) ≠ .str pending :=
        partsContent_ne_str hlength
      simp only [List.cons_append, List.nil_append] at hmessages
      simp [hmessages, hdiff, startsWithToolResult, hkind]
    | toolResult messages hkind _ _ =>
      have hgrow : ∃ rest, l.messages = { role := "user", content := .str text } :: rest := by
        have hmessages : ∃ rest, ({ messages := UserLocals.messages (UserLocals.flushUser
            { parts := [.text text] }) ++ messages } : UserLocals).messages =
              { role := "user", content := .str text } :: rest :=
          ⟨messages, by simp [UserLocals.flushUser, hsingle]⟩
        clear hstep
        generalize ({ messages := UserLocals.messages (UserLocals.flushUser
            { parts := [.text text] }) ++ messages } : UserLocals) = l0 at h hmessages
        induction blocks generalizing l0 with
        | nil =>
          cases h
          exact hmessages
        | cons block blocks ih =>
          rw [List.foldlM_cons, bind_eq_ok] at h
          obtain ⟨l2, hstep, h⟩ := h
          obtain ⟨added, hadded⟩ := userStep_messages (userStep_of_userBlock hstep)
          obtain ⟨rest, hrest⟩ := hmessages
          exact ih l2 h ⟨rest ++ added, by rw [hadded, hrest]; rfl⟩
      obtain ⟨rest, hrest⟩ := hgrow
      have hhead : l.flushUser.messages.head? = some { role := "user", content := .str text } := by
        unfold UserLocals.flushUser
        split <;> simp [hrest]
      simp [hhead, startsWithToolResult, hkind]

theorem userMessages_text_iff {pending text : String} (hlength : pending.length ≤ text.length)
    (hne : ∀ reminder ∈ reminders, reminder ≠ "")
    (h : userMessagesFromContent py (withReminders py (.str text) reminders) = .ok messages) :
    messages.head? = some { role := "user", content := .str pending } ↔
      text = pending ∧ reminders = [] := by
  by_cases hreminders : reminders = []
  · subst hreminders
    cases h
    simp
  · obtain ⟨longer, hlonger, hlonger_length⟩ := withReminders_str py text hne
    have hpos := List.length_pos_iff.mpr hreminders
    have hdiff : longer ≠ pending := by
      rintro rfl
      omega
    rw [hlonger] at h
    cases h
    simp [hreminders, hdiff]

/-- When the waiting text stays a message of its own in front of a user entry. -/
theorem userMessages_waiting_iff {pending text : String} (hlength : pending.length ≤ text.length)
    (hne : ∀ reminder ∈ reminders, reminder ≠ "")
    (h : userMessagesFromContent py
      (withReminders py (withReminder py text true content) reminders) = .ok messages) :
    messages.head? = some { role := "user", content := .str pending } ↔ text = pending ∧
      (startsWithToolResult content = true ∨ content.truthy = false ∧ reminders = []) := by
  have hother : (∀ blocks, content ≠ .arr blocks) →
      (messages.head? = some { role := "user", content := .str pending } ↔ text = pending ∧
        (startsWithToolResult content = true ∨ content.truthy = false ∧ reminders = [])) := by
    intro hblocks
    have hstart : startsWithToolResult content = false := by
      cases content with
      | arr blocks => exact absurd rfl (hblocks blocks)
      | _ => rfl
    have hcontent : withReminder py text true content =
        if content.truthy then .str (text ++ "\n" ++ py.str content) else .str text := by
      cases content with
      | arr blocks => exact absurd rfl (hblocks blocks)
      | _ => cases htruthy : Json.truthy _ <;> simp [withReminder, htruthy]
    cases htruthy : content.truthy with
    | false =>
      rw [hcontent, htruthy, if_neg (by simp)] at h
      rw [userMessages_text_iff hlength hne h]
      simp [hstart]
    | true =>
      have hnewline : ("\n" : String).length = 1 := rfl
      have hlonger : text.length < (text ++ "\n" ++ py.str content).length := by
        simp only [String.length_append, hnewline]
        omega
      rw [hcontent, htruthy, if_pos rfl] at h
      rw [userMessages_text_iff (by omega) hne h]
      have hdiff : text ++ "\n" ++ py.str content ≠ pending := by
        rintro rfl
        omega
      simp [hstart, hdiff]
  cases content with
  | arr blocks =>
    rw [withReminder, if_pos rfl, withReminders_arr] at h
    simp only [userMessagesFromContent, List.cons_append, List.foldlM_cons, bind_eq_ok,
      userBlock_textBlock] at h
    obtain ⟨l, ⟨l1, hl1, hl⟩, h⟩ := h
    cases hl1
    cases h
    rw [userBlocks_waiting_iff hlength hl]
    cases blocks with
    | nil => cases reminders <;> simp [startsWithToolResult, Json.truthy, hasField, textBlock,
        Dict.get?, Json.isText]
    | cons block blocks => simp [startsWithToolResult, Json.truthy]
  | _ => exact hother (by simp)

theorem reminders_ne_empty (py : PythonLibrary) (entries : List Json) :
    ∀ reminder ∈ remindersOf py entries, reminder ≠ "" := by
  intro reminder hreminder
  obtain ⟨entry, _, hentry⟩ := List.mem_filterMap.mp hreminder
  exact reminder?_ne_empty hentry

theorem finish_eq_append (l : FoldLocals) : ∃ rest, l.finish = l.out ++ rest := by
  unfold FoldLocals.finish
  split
  · exact ⟨[], by simp⟩
  · exact ⟨_, rfl⟩

/-- Without a user entry and without reminders, what is appended comes behind. -/
theorem lowered_prefix_of_silent (h : more.foldlM (foldEntry py) l = .ok l')
    (hl : l.out.any isUserEntry = false) (hpending : l.pending = "")
    (hmessages : Lowered py l.finish messages) (hothers : Lowered py l'.finish others) :
    messages <+: others := by
  obtain ⟨back, hback⟩ := fold_guarded h (List.append_nil _).symm (Or.inl hl)
  obtain ⟨rest, hrest⟩ := finish_eq_append l'
  have hfinish : l.finish = l.out := by simp [FoldLocals.finish, hpending]
  rw [hfinish] at hmessages
  rw [hrest, hback, List.append_assoc] at hothers
  obtain ⟨front, added, hfront, _, rfl⟩ := lowered_append.mp hothers
  rw [hmessages.unique hfront]
  exact List.prefix_append _ _

/-- The message of waiting reminders stays as it is: up to the first user entry that is appended
there is no other message and no other reminder, and its own content keeps apart. -/
def KeepsWaiting (py : PythonLibrary) (more : List Json) : Prop :=
  conversation (beforeUser more) = [] ∧ remindersOf py (beforeUser more) = [] ∧
    ∀ user rest, fromUser more = user :: rest →
      startsWithToolResult (contentOf user) = true ∨
        (contentOf user).truthy = false ∧ remindersOf py (beforeUser rest) = []

theorem lowered_waiting {pending : String} {messages : List Message} {front : List Json} :
    Lowered py (front ++ [.obj [("role", .str "user"), ("content", .str pending)]]) messages ↔
      ∃ before, Lowered py front before ∧
        messages = before ++ [{ role := "user", content := .str pending }] := by
  rw [lowered_append]
  refine ⟨?_, ?_⟩
  · rintro ⟨before, last, hbefore, ⟨parts, hparts, rfl⟩, rfl⟩
    cases hparts
    exact ⟨before, hbefore, rfl⟩
  · rintro ⟨before, hbefore, rfl⟩
    exact ⟨before, _, hbefore, ⟨[[{ role := "user", content := .str pending }]], rfl, rfl⟩, rfl⟩

theorem singleton_prefix_iff {m : Message} {messages rest : List Message} (hne : messages ≠ []) :
    [m] <+: messages ++ rest ↔ messages.head? = some m := by
  cases messages with
  | nil => exact absurd rfl hne
  | cons first messages =>
    simp only [List.cons_append, List.cons_prefix_cons, List.nil_prefix, and_true,
      List.head?_cons, Option.some.injEq]
    exact eq_comm

theorem withReminder_ne_nil (text : String) (prepend : Bool) (content : Json) :
    withReminder py text prepend content ≠ .arr [] := by
  cases content with
  | arr blocks => cases prepend <;> simp [withReminder]
  | _ =>
    unfold withReminder
    repeat' split
    all_goals simp

theorem withReminders_ne_nil {content : Json} (hne : content ≠ .arr []) (reminders : List String) :
    withReminders py content reminders ≠ .arr [] := by
  unfold withReminders
  induction reminders generalizing content with
  | nil => exact hne
  | cons reminder reminders ih => exact ih (withReminder_ne_nil reminder false content)

section Waiting

variable {pending text : String} {front rest : List Json} {user : Json}

/-- A message of the assistant cannot stand where that of the reminders was. -/
theorem not_prefix_of_other {entry : Json} (hentry : isUserEntry entry = false)
    (h : Lowered py (front ++ [.obj [("role", .str "user"), ("content", .str pending)]]) messages)
    (h' : Lowered py (front ++ entry :: rest) others) : ¬ messages <+: others := by
  obtain ⟨before, hbefore, rfl⟩ := lowered_waiting.mp h
  obtain ⟨before', _, hbefore', hback, rfl⟩ := lowered_append.mp h'
  obtain ⟨first, added, hfirst, _, rfl⟩ := lowered_cons.mp hback
  cases hbefore.unique hbefore'
  rw [List.prefix_append_right_inj]
  rcases messageToInternal_eq_ok hfirst with ⟨huser, _⟩ | ⟨_, _, m, hm, rfl⟩
  · exact absurd huser (by simpa [isUserEntry] using hentry)
  · simp only [List.singleton_append, List.cons_prefix_cons, not_and]
    rintro rfl
    simp at hm

/-- The message of the reminders against a user entry that takes them up. -/
theorem prefix_of_user_iff (huser : isUserEntry user = true)
    (hlength : pending.length ≤ text.length)
    (hne : ∀ reminder ∈ reminders, reminder ≠ "")
    (h : Lowered py (front ++ [.obj [("role", .str "user"), ("content", .str pending)]]) messages)
    (h' : Lowered py
      (front ++ appendReminders py (foldReminder py text true user) reminders :: rest) others) :
    messages <+: others ↔ text = pending ∧ (startsWithToolResult (contentOf user) = true ∨
      (contentOf user).truthy = false ∧ reminders = []) := by
  obtain ⟨before, hbefore, rfl⟩ := lowered_waiting.mp h
  obtain ⟨before', _, hbefore', hback, rfl⟩ := lowered_append.mp h'
  obtain ⟨ofUser, added, hofUser, _, rfl⟩ := lowered_cons.mp hback
  cases hbefore.unique hbefore'
  have htaken : isUserEntry (foldReminder py text true user) = true := by
    rw [isUserEntry_foldReminder]
    exact huser
  have hall : isUserEntry
    (appendReminders py (foldReminder py text true user) reminders) = true := by
    rw [isUserEntry_appendReminders]
    exact htaken
  rw [messageToInternal_user hall, contentOf_appendReminders htaken,
    contentOf_foldReminder huser] at hofUser
  have hnonempty : ofUser ≠ [] := by
    rw [ne_eq, (userMessagesFromContent_eq_ok hofUser).2]
    exact withReminders_ne_nil (withReminder_ne_nil text true _) reminders
  rw [List.prefix_append_right_inj, singleton_prefix_iff hnonempty,
    userMessages_waiting_iff hlength hne hofUser]

end Waiting

/-- Without a user entry and with reminders, their message must stay as it is. -/
theorem lowered_prefix_of_waiting (h : more.foldlM (foldEntry py) l = .ok l')
    (hl : l.out.any isUserEntry = false) (hpending : l.pending ≠ "")
    (hmessages : Lowered py l.finish messages) (hothers : Lowered py l'.finish others) :
    messages <+: others ↔ KeepsWaiting py more := by
  have hfinish : l.finish =
      l.out ++ [.obj [("role", .str "user"), ("content", .str l.pending)]] := by
    simp [FoldLocals.finish, hpending]
  rw [hfinish] at hmessages
  rw [← beforeUser_append_fromUser more, List.foldlM_append, bind_eq_ok] at h
  obtain ⟨l1, hwait, hfrom⟩ := h
  have hl1 := fold_waiting hwait hl (any_beforeUser more)
  obtain ⟨hlonger, hjoined⟩ := joinReminders_length hpending (remindersOf py (beforeUser more))
  have hiff := joinReminders_eq_iff hpending (remindersOf py (beforeUser more))
  generalize joinReminders l.pending (remindersOf py (beforeUser more)) = text at *
  unfold KeepsWaiting
  cases hconversation : conversation (beforeUser more) with
  | cons entry entries =>
    have hl1any : l1.out.any isUserEntry = false := by
      rw [fold_any_isUserEntry hwait, hl, any_beforeUser]
      rfl
    have hentry : isUserEntry entry = false := by
      have hmem : entry ∈ conversation (beforeUser more) := by simp [hconversation]
      simpa using List.any_eq_false.mp (any_beforeUser more) entry (List.mem_of_mem_filter hmem)
    obtain ⟨back, hback⟩ := fold_guarded hfrom (List.append_nil _).symm (Or.inl hl1any)
    obtain ⟨rest, hrest⟩ := finish_eq_append l'
    have hout : l'.finish = l.out ++ entry :: (entries ++ back ++ rest) := by
      simp [hrest, hback, hl1, hconversation]
    rw [hout] at hothers
    simpa using not_prefix_of_other hentry hmessages hothers
  | nil =>
    rw [hconversation, List.append_nil] at hl1
    cases hmore : fromUser more with
    | nil =>
      rw [hmore] at hfrom
      cases hfrom
      have hout : l'.finish = l.out ++ [.obj [("role", .str "user"), ("content", .str text)]] := by
        simp [hl1, FoldLocals.finish, hjoined]
      rw [hout, lowered_waiting] at hothers
      rw [lowered_waiting] at hmessages
      obtain ⟨before, hbefore, rfl⟩ := hmessages
      obtain ⟨before', hbefore', rfl⟩ := hothers
      cases hbefore.unique hbefore'
      rw [← hiff]
      simpa using eq_comm
    | cons user rest =>
      have huser := isUserEntry_of_fromUser hmore
      rw [hmore, List.foldlM_cons, bind_eq_ok] at hfrom
      obtain ⟨l2, hstep, hrest⟩ := hfrom
      have hl2 : l2 = ⟨l.out ++ foldReminder py text true user :: [], ""⟩ := by
        cases folded_of_foldEntry hstep with
        | silent hsystem _ => simp [isUserEntry_of_isSystemEntry hsystem] at huser
        | appended reminder out hsystem _ _ =>
          simp [isUserEntry_of_isSystemEntry hsystem] at huser
        | delayed reminder hsystem _ _ => simp [isUserEntry_of_isSystemEntry hsystem] at huser
        | prepended _ _ _ => simp [hl1]
        | kept _ hother =>
          rcases hother with hempty | hnot
          · rw [hl1] at hempty
            exact absurd hempty hjoined
          · rw [huser] at hnot
            cases hnot
      obtain ⟨added, hadded⟩ := fold_appended hrest (by rw [hl2]) (by rw [hl2])
        (by rw [isUserEntry_foldReminder]; exact huser) (by simp)
      rw [hadded] at hothers
      rw [prefix_of_user_iff huser (by omega) (reminders_ne_empty py _) hmessages hothers, hiff]
      simp

/-! ## Requests -/

def foldedList (py : PythonLibrary) (messages : List Json) : List Json :=
  match foldMidListSystemIntoUser py (.arr messages) with
  | .ok (.arr folded) => folded
  | _ => []

/-- The condition under which what is appended leaves the lowered messages as they are. With a
user entry, no reminder is folded into it, or it makes a message of its own at the end. Without
one, no reminder waits, or its message stays as it is. -/
def PrefixStable (py : PythonLibrary) (messages more : List Json) : Prop :=
  if messages.any isUserEntry = true then
    remindersOf py (beforeUser more) = [] ∨ endsOpen (foldedList py messages) = true
  else remindersOf py messages = [] ∨ KeepsWaiting py more

theorem anthropicToInternal_eq_ok {base : Dict} {allowed : List String} {payload : Dict}
    {entries : List Json} {request : LoweredRequest}
    (hentries : payload.get? "messages" = some (.arr entries))
    (h : anthropicToInternal py base allowed (.obj payload) = .ok request) :
    ∃ l messages systemText, entries.foldlM (foldEntry py) {} = .ok l ∧
      foldedList py entries = l.finish ∧ Lowered py l.finish messages ∧
      systemToText py ((payload.get? "system").getD .null) = .ok systemText ∧
      request.messages = if systemText = "" then messages
        else { role := "system", content := .str systemText } :: messages := by
  simp only [anthropicToInternal, bind_eq_ok] at h
  obtain ⟨folded, hfolded, messages, hmessages, systemText, hsystem, tools, _, _, _, h⟩ := h
  cases h
  have hget : (Dict.get? payload "messages").getD .null = .arr entries := by simp [hentries]
  rw [hget] at hfolded
  obtain ⟨l, hl, rfl⟩ := foldMidListSystemIntoUser_arr hfolded
  exact ⟨l, messages, systemText, hl, by simp [foldedList, hfolded],
    (messagesToInternal_eq_ok.mp hmessages).2, hsystem, rfl⟩

/-- The lowered messages of a list are a prefix of those of a longer one exactly under this
condition. -/
theorem anthropic_lowering_is_prefix_stable_iff {base : Dict} {allowed : List String}
    {payload payload' : Dict} {entries more : List Json} {request request' : LoweredRequest}
    (hentries : payload.get? "messages" = some (.arr entries))
    (hmore : payload'.get? "messages" = some (.arr (entries ++ more)))
    (hsystem : payload.get? "system" = payload'.get? "system")
    (h : anthropicToInternal py base allowed (.obj payload) = .ok request)
    (h' : anthropicToInternal py base allowed (.obj payload') = .ok request') :
    request.messages <+: request'.messages ↔ PrefixStable py entries more := by
  obtain ⟨l, messages, systemText, hl, hfolded, hmessages, htext, hrequest⟩ :=
    anthropicToInternal_eq_ok hentries h
  obtain ⟨l', messages', systemText', hl', _, hmessages', htext', hrequest'⟩ :=
    anthropicToInternal_eq_ok hmore h'
  rw [← hsystem, htext] at htext'
  cases htext'
  have hsame : request.messages <+: request'.messages ↔ messages <+: messages' := by
    rw [hrequest, hrequest']
    split <;> simp
  rw [hsame]
  rw [List.foldlM_append, bind_eq_ok] at hl'
  obtain ⟨l1, hl1, hl'⟩ := hl'
  rw [hl] at hl1
  cases hl1
  have hany := fold_any_isUserEntry hl
  unfold PrefixStable
  cases huser : entries.any isUserEntry with
  | true =>
    have hpending := fold_pending hl (by simp) (by rw [hany, huser]; rfl)
    obtain ⟨front, user, post, hout, huserEntry, hpost⟩ :=
      exists_lastUser (by rw [hany, huser]; rfl)
    obtain ⟨rest, hrest⟩ := fold_appended hl' hout hpending huserEntry hpost
    have hfinish : l.finish = front ++ user :: post := by
      simp [FoldLocals.finish, hpending, hout]
    rw [hfinish] at hmessages
    rw [hrest] at hmessages'
    rw [if_pos rfl, hfolded, hfinish]
    exact lowered_prefix_iff huserEntry hpost (reminders_ne_empty py _) hmessages hmessages'
  | false =>
    have hwaiting := fold_waiting hl (by simp) huser
    have hempty := joinReminders_empty_iff (reminders_ne_empty py entries)
    have hpending : l.pending = "" ↔ remindersOf py entries = [] := by
      rw [← hempty, hwaiting]
    rw [if_neg (by simp)]
    have hout : l.out.any isUserEntry = false := by
      rw [hany, huser]
      rfl
    by_cases hsilent : l.pending = ""
    · have hstable := lowered_prefix_of_silent hl' hout hsilent hmessages hmessages'
      simp [hstable, hpending.mp hsilent]
    · rw [lowered_prefix_of_waiting hl' hout hsilent hmessages hmessages']
      simp [mt hpending.mpr hsilent]

/-- A wire entry with a text. -/
def entry (role text : String) : Json := .obj [("role", .str role), ("content", .str text)]

def textsOf (request : LoweredRequest) : List String :=
  request.messages.map (fun m => contentText m.content)

def payloadOf (entries : List Json) : Dict := [("messages", .arr entries)]

theorem lowers_of_test (entries : List Json) (texts : List String)
    (h : (anthropicToInternal plainPython [] [] (.obj (payloadOf entries))).toOption.any
      (fun request => textsOf request == texts) = true) :
    ∃ request, anthropicToInternal plainPython [] [] (.obj (payloadOf entries)) = .ok request ∧
      textsOf request = texts := by
  cases hlower : anthropicToInternal plainPython [] [] (.obj (payloadOf entries)) with
  | error e => simp [hlower, Except.toOption] at h
  | ok request => exact ⟨request, rfl, by simpa [hlower, Except.toOption] using h⟩

/-- A reminder behind a new user entry leaves the first messages as they are. -/
theorem anthropic_lowering_is_prefix_stable_iff_laterReminder : ∃ request request',
    anthropicToInternal plainPython [] [] (.obj (payloadOf [entry "user" "hi"])) = .ok request ∧
    anthropicToInternal plainPython [] [] (.obj (payloadOf ([entry "user" "hi"] ++
      [entry "assistant" "a", entry "user" "b", entry "system" "c"]))) = .ok request' ∧
    request.messages <+: request'.messages := by
  obtain ⟨request, h, _⟩ := lowers_of_test [entry "user" "hi"] ["hi"] (by decide +kernel)
  obtain ⟨request', h', _⟩ := lowers_of_test ([entry "user" "hi"] ++
      [entry "assistant" "a", entry "user" "b", entry "system" "c"])
    ["hi", "a", "b\n<system-reminder>\nc\n</system-reminder>"] (by decide +kernel)
  have hentries : (payloadOf [entry "user" "hi"]).get? "messages" =
    some (.arr [entry "user" "hi"]) := rfl
  have hmore : (payloadOf ([entry "user" "hi"] ++
      [entry "assistant" "a", entry "user" "b", entry "system" "c"])).get? "messages" =
    some (.arr ([entry "user" "hi"] ++
      [entry "assistant" "a", entry "user" "b", entry "system" "c"])) := rfl
  refine ⟨request, request', h, h', ?_⟩
  apply (anthropic_lowering_is_prefix_stable_iff hentries hmore rfl h h').mpr
  rw [PrefixStable, if_pos (by decide)]
  exact Or.inl rfl

/-- A reminder right behind a user entry becomes a part of its message. -/
theorem a_reminder_changes_the_message_before_it : ∃ request request',
    anthropicToInternal plainPython [] [] (.obj (payloadOf [entry "user" "hi"])) = .ok request ∧
    anthropicToInternal plainPython [] [] (.obj (payloadOf ([entry "user" "hi"] ++
      [entry "system" "c"]))) = .ok request' ∧
    ¬ request.messages <+: request'.messages := by
  obtain ⟨request, h, htexts⟩ := lowers_of_test [entry "user" "hi"] ["hi"] (by decide +kernel)
  obtain ⟨request', h', htexts'⟩ := lowers_of_test ([entry "user" "hi"] ++ [entry "system" "c"])
    ["hi\n<system-reminder>\nc\n</system-reminder>"] (by decide +kernel)
  refine ⟨request, request', h, h', ?_⟩
  intro hprefix
  have htext := hprefix.map (fun m => contentText m.content)
  change textsOf request <+: textsOf request' at htext
  rw [htexts, htexts'] at htext
  exact absurd htext (by decide)

end uni_agent.anthropic
