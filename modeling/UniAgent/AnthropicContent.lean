-- What the content of one Anthropic entry is lowered to: the kinds of blocks, the messages of a
-- user entry, and the lists that are lowered entry by entry.
import UniAgent.AnthropicAdapter
import UniAgent.Preparation

namespace uni_agent.anthropic

variable {py : PythonLibrary}

/-! ## Fields -/

theorem hasField_obj {fields : Dict} {key text : String} :
    hasField (.obj fields) key text = true ↔ fields.get? key = some (.str text) := by
  simp only [hasField]
  cases fields.get? key with
  | none => simp
  | some value => cases value <;> simp [Json.isText]

/-- A field has one value. -/
theorem hasField_unique {entry : Json} {key text other : String}
    (h : hasField entry key text = true) (hne : text ≠ other) :
    hasField entry key other = false := by
  cases entry with
  | obj fields =>
    rw [← Bool.not_eq_true, hasField_obj, hasField_obj.mp h]
    simpa using hne
  | _ => rfl

theorem eq_obj_of_hasField {entry : Json} {key text : String}
    (h : hasField entry key text = true) : ∃ fields, entry = .obj fields := by
  cases entry with
  | obj fields => exact ⟨fields, rfl⟩
  | _ => simp [hasField] at h

/-! ## Tool results -/

/-- A message that a tool result can be lowered to. -/
def OfToolResult (m : Message) : Prop := m.role = "tool" ∨ m.role = "user"

theorem ofToolResult_flushText {l : ToolResultLocals} (toolCallId : String)
    (h : ∀ m ∈ l.messages, OfToolResult m) :
    ∀ m ∈ (l.flushText toolCallId).messages, OfToolResult m := by
  unfold ToolResultLocals.flushText
  split
  · exact h
  · simp only [List.mem_append, List.mem_singleton]
    rintro m (hm | rfl)
    · exact h m hm
    · exact Or.inl rfl

theorem ofToolResult_toolResultBlock {l l' : ToolResultLocals} {toolCallId : String} {block : Json}
    (hstep : toolResultBlock py toolCallId l block = .ok l')
    (h : ∀ m ∈ l.messages, OfToolResult m) : ∀ m ∈ l'.messages, OfToolResult m := by
  cases block with
  | obj fields =>
    simp only [toolResultBlock] at hstep
    split at hstep
    · rw [bind_eq_ok] at hstep
      obtain ⟨text, _, hstep⟩ := hstep
      cases hstep
      exact h
    · split at hstep
      · rw [bind_eq_ok] at hstep
        obtain ⟨part, _, hstep⟩ := hstep
        cases hstep
        simp only [List.mem_append, List.mem_singleton]
        rintro m (hm | rfl)
        · refine ofToolResult_flushText toolCallId ?_ m hm
          split
          · simp only [List.mem_append, List.mem_singleton]
            rintro m (hm | rfl)
            · exact h m hm
            · exact Or.inl rfl
          · exact h
        · exact Or.inr rfl
      · cases hstep
  | _ => simp [toolResultBlock] at hstep

/-- A tool result is lowered to one message or more, of a tool or of the user. -/
theorem toolResultMessages_eq_ok {toolCallId : String} {content : Json} {messages : List Message}
    (h : toolResultMessages py toolCallId content = .ok messages) :
    messages ≠ [] ∧ ∀ m ∈ messages, OfToolResult m := by
  have hsingle : ∀ text, ∀ m ∈ [toolMessage toolCallId text], OfToolResult m := by
    intro text m hm
    cases List.mem_singleton.mp hm
    exact Or.inl rfl
  cases content with
  | str content =>
    cases h
    exact ⟨by simp, hsingle content⟩
  | null =>
    cases h
    exact ⟨by simp, hsingle ""⟩
  | arr blocks =>
    simp only [toolResultMessages, bind_eq_ok] at h
    obtain ⟨l, hl, h⟩ := h
    have hmessages : ∀ (blocks : List Json) (l l' : ToolResultLocals),
        blocks.foldlM (toolResultBlock py toolCallId) l = .ok l' →
          (∀ m ∈ l.messages, OfToolResult m) → ∀ m ∈ l'.messages, OfToolResult m := by
      intro blocks
      induction blocks with
      | nil =>
        intro l l' hrun hl
        cases hrun
        exact hl
      | cons block blocks ih =>
        intro l l' hrun hl
        rw [List.foldlM_cons, bind_eq_ok] at hrun
        obtain ⟨l1, hstep, hrun⟩ := hrun
        exact ih l1 l' hrun (ofToolResult_toolResultBlock hstep hl)
    have hflushed := ofToolResult_flushText toolCallId (hmessages blocks {} l hl (by simp))
    split at h
    · cases h
      exact ⟨by simp, hsingle ""⟩
    · rename_i hempty
      cases h
      exact ⟨by simpa using hempty, hflushed⟩
  | _ => cases h

/-! ## User entries -/

/-- What one block of a user entry does: it adds a part, or it closes the parts before it and
adds the messages of a tool result. -/
inductive UserStep (py : PythonLibrary) (l : UserLocals) (block : Json) : UserLocals → Prop
  | part (part : UserPart) (hkind : hasField block "type" "tool_result" = false) :
      UserStep py l block { l with parts := l.parts ++ [part] }
  | toolResult (messages : List Message) (hkind : hasField block "type" "tool_result" = true)
      (hne : messages ≠ []) (hroles : ∀ m ∈ messages, OfToolResult m) :
      UserStep py l block { messages := l.flushUser.messages ++ messages }

theorem flushUser_parts (l : UserLocals) : l.flushUser.parts = [] := by
  unfold UserLocals.flushUser
  split
  · rename_i h
    simpa using h
  · rfl

theorem userStep_of_userBlock {l l' : UserLocals} {block : Json}
    (h : userBlock py l block = .ok l') : UserStep py l block l' := by
  cases block with
  | obj fields =>
    simp only [userBlock] at h
    split at h
    · rename_i htext
      rw [bind_eq_ok] at h
      obtain ⟨text, _, h⟩ := h
      cases h
      exact .part _ (hasField_unique htext (by decide))
    · split at h
      · rename_i himage
        rw [bind_eq_ok] at h
        obtain ⟨part, _, h⟩ := h
        cases h
        exact .part _ (hasField_unique himage (by decide))
      · split at h
        · rename_i hresult
          split at h
          · rename_i toolCallId _
            split at h
            · cases h
            · simp only [bind_eq_ok] at h
              obtain ⟨messages, hmessages, h⟩ := h
              cases h
              have hlowered := toolResultMessages_eq_ok hmessages
              have hstep : UserStep py l (.obj fields) _ :=
                .toolResult messages hresult hlowered.1 hlowered.2
              rw [flushUser_parts]
              exact hstep
          · cases h
        · cases h
  | _ => simp [userBlock] at h

/-- Nothing waits to be flushed behind these blocks: there are none, or the last is a tool
result. -/
def closesParts (blocks : List Json) : Bool :=
  blocks.getLast?.all (fun block => hasField block "type" "tool_result")

theorem parts_eq_nil_iff {blocks : List Json} {l : UserLocals}
    (h : blocks.foldlM (userBlock py) {} = .ok l) : l.parts = [] ↔ closesParts blocks = true := by
  rcases List.eq_nil_or_concat blocks with rfl | ⟨blocks, last, rfl⟩
  · cases h
    simp [closesParts]
  · rw [List.concat_eq_append, foldlM_concat_eq_ok] at h
    obtain ⟨before, _, hstep⟩ := h
    have hlast : closesParts (blocks.concat last) = hasField last "type" "tool_result" := by
      simp [closesParts]
    rw [hlast]
    cases userStep_of_userBlock hstep with
    | part part hkind => simp [hkind]
    | toolResult messages hkind _ _ => simp [hkind]

theorem userStep_messages {l l' : UserLocals} {block : Json} (h : UserStep py l block l') :
    ∃ added, l'.messages = l.messages ++ added := by
  cases h with
  | part part _ => exact ⟨[], by simp⟩
  | toolResult messages _ _ _ =>
    unfold UserLocals.flushUser
    split
    · exact ⟨messages, rfl⟩
    · exact ⟨_, List.append_assoc _ _ _⟩

theorem ofToolResult_flushUser {l : UserLocals} (h : ∀ m ∈ l.messages, OfToolResult m) :
    ∀ m ∈ l.flushUser.messages, OfToolResult m := by
  unfold UserLocals.flushUser
  split
  · exact h
  · simp only [List.mem_append, List.mem_singleton]
    rintro m (hm | rfl)
    · exact h m hm
    · exact Or.inr rfl

/-- The locals of the loop hold messages of the user and of tools, and are empty only before the
first block. -/
theorem userBlocks_eq_ok {blocks : List Json} {l : UserLocals}
    (h : blocks.foldlM (userBlock py) {} = .ok l) :
    (∀ m ∈ l.messages, OfToolResult m) ∧ (blocks ≠ [] → l.messages ≠ [] ∨ l.parts ≠ []) := by
  induction blocks using List.reverseRecOn generalizing l with
  | nil =>
    cases h
    simp
  | append_singleton blocks last ih =>
    obtain ⟨before, hbefore, hstep⟩ := foldlM_concat_eq_ok.mp h
    have hroles := (ih hbefore).1
    cases userStep_of_userBlock hstep with
    | part part _ => exact ⟨hroles, fun _ => Or.inr (by simp)⟩
    | toolResult messages _ hne hmessages =>
      refine ⟨?_, fun _ => Or.inl (by simp [hne])⟩
      simp only [List.mem_append]
      rintro m (hm | hm)
      · exact ofToolResult_flushUser hroles m hm
      · exact hmessages m hm

/-- A user entry is lowered to messages of the user and of tools, and to none only when its
content is an empty list. -/
theorem userMessagesFromContent_eq_ok {content : Json} {messages : List Message}
    (h : userMessagesFromContent py content = .ok messages) :
    (∀ m ∈ messages, OfToolResult m) ∧ (messages = [] ↔ content = .arr []) := by
  cases content with
  | str text =>
    cases h
    simp [OfToolResult]
  | arr blocks =>
    simp only [userMessagesFromContent, bind_eq_ok] at h
    obtain ⟨l, hl, h⟩ := h
    cases h
    obtain ⟨hroles, hne⟩ := userBlocks_eq_ok hl
    refine ⟨ofToolResult_flushUser hroles, ?_⟩
    refine ⟨?_, ?_⟩
    · intro hempty
      by_contra hblocks
      rcases hne (by simpa using hblocks) with hmessages | hparts
      · unfold UserLocals.flushUser at hempty
        split at hempty
        · exact hmessages hempty
        · simp at hempty
      · simp [UserLocals.flushUser, hparts] at hempty
    · intro hblocks
      cases hblocks
      cases hl
      rfl
  | _ => cases h

theorem userBlock_textBlock (l : UserLocals) (text : String) :
    userBlock py l (.obj (textBlock text)) = .ok { l with parts := l.parts ++ [.text text] } := rfl

/-! ## Lists of entries -/

theorem assistantMessageFromContent_eq_ok {content : Json} {m : Message}
    (h : assistantMessageFromContent py content = .ok m) : m.role = "assistant" := by
  cases content with
  | str text =>
    cases h
    rfl
  | arr blocks =>
    simp only [assistantMessageFromContent, bind_eq_ok] at h
    obtain ⟨l, _, h⟩ := h
    cases h
    rfl
  | _ => cases h

theorem messageToInternal_user {entry : Json} (h : hasField entry "role" "user" = true) :
    messageToInternal py entry = userMessagesFromContent py (contentOf entry) := by
  obtain ⟨fields, rfl⟩ := eq_obj_of_hasField h
  simp [messageToInternal, h, contentOf]

theorem messageToInternal_assistant {entry : Json} (h : hasField entry "role" "assistant" = true) :
    messageToInternal py entry =
      (assistantMessageFromContent py (contentOf entry)).map (fun m => [m]) := by
  have huser : hasField entry "role" "user" = false := hasField_unique h (by decide)
  obtain ⟨fields, rfl⟩ := eq_obj_of_hasField h
  simp only [messageToInternal, huser, h, contentOf, Bool.false_eq_true, if_false, if_true]
  cases assistantMessageFromContent py ((Dict.get? fields "content").getD (.str "")) <;> rfl

/-- An entry that is lowered is one of the user or one of the assistant. -/
theorem messageToInternal_eq_ok {entry : Json} {messages : List Message}
    (h : messageToInternal py entry = .ok messages) :
    (hasField entry "role" "user" = true ∧
      userMessagesFromContent py (contentOf entry) = .ok messages) ∨
    (hasField entry "role" "user" = false ∧ hasField entry "role" "assistant" = true ∧
      ∃ m, m.role = "assistant" ∧ messages = [m]) := by
  cases huser : hasField entry "role" "user" with
  | true => exact Or.inl ⟨rfl, by rwa [messageToInternal_user huser] at h⟩
  | false =>
    refine Or.inr ⟨rfl, ?_⟩
    cases hassistant : hasField entry "role" "assistant" with
    | true =>
      rw [messageToInternal_assistant hassistant] at h
      cases hm : assistantMessageFromContent py (contentOf entry) with
      | error e => simp [hm, Except.map] at h
      | ok m =>
        rw [hm] at h
        cases h
        exact ⟨rfl, m, assistantMessageFromContent_eq_ok hm, rfl⟩
    | false =>
      cases entry with
      | obj fields => simp [messageToInternal, huser, hassistant] at h
      | _ => simp [messageToInternal] at h

/-- The messages that a list of entries is lowered to. -/
def Lowered (py : PythonLibrary) (entries : List Json) (messages : List Message) : Prop :=
  ∃ parts, entries.mapM (messageToInternal py) = .ok parts ∧ messages = parts.flatten

theorem lowered_nil {messages : List Message} : Lowered py [] messages ↔ messages = [] := by
  refine ⟨?_, ?_⟩
  · rintro ⟨parts, h, rfl⟩
    cases h
    rfl
  · rintro rfl
    exact ⟨[], rfl, rfl⟩

theorem lowered_append {entries others : List Json} {messages : List Message} :
    Lowered py (entries ++ others) messages ↔
      ∃ front back, Lowered py entries front ∧ Lowered py others back ∧
        messages = front ++ back := by
  unfold Lowered
  simp only [List.mapM_append, bind_eq_ok]
  refine ⟨?_, ?_⟩
  · rintro ⟨parts, ⟨xs, hxs, ys, hys, h⟩, rfl⟩
    cases h
    exact ⟨_, _, ⟨xs, hxs, rfl⟩, ⟨ys, hys, rfl⟩, List.flatten_append⟩
  · rintro ⟨_, _, ⟨xs, hxs, rfl⟩, ⟨ys, hys, rfl⟩, rfl⟩
    exact ⟨xs ++ ys, ⟨xs, hxs, ys, hys, rfl⟩, List.flatten_append.symm⟩

theorem lowered_cons {entry : Json} {entries : List Json} {messages : List Message} :
    Lowered py (entry :: entries) messages ↔
      ∃ front back, messageToInternal py entry = .ok front ∧ Lowered py entries back ∧
        messages = front ++ back := by
  unfold Lowered
  simp only [List.mapM_cons, bind_eq_ok]
  refine ⟨?_, ?_⟩
  · rintro ⟨parts, ⟨x, hx, ys, hys, h⟩, rfl⟩
    cases h
    exact ⟨x, _, hx, ⟨ys, hys, rfl⟩, by simp⟩
  · rintro ⟨x, _, hx, ⟨ys, hys, rfl⟩, rfl⟩
    exact ⟨x :: ys, ⟨x, hx, ys, hys, rfl⟩, by simp⟩

theorem Lowered.unique {entries : List Json} {messages others : List Message}
    (h : Lowered py entries messages) (h' : Lowered py entries others) : messages = others := by
  obtain ⟨parts, hparts, rfl⟩ := h
  obtain ⟨parts', hparts', rfl⟩ := h'
  rw [hparts] at hparts'
  cases hparts'
  rfl

theorem messagesToInternal_eq_ok {entries : List Json} {messages : List Message} :
    messagesToInternal py (.arr entries) = .ok messages ↔
      entries ≠ [] ∧ Lowered py entries messages := by
  cases entries with
  | nil => simp [messagesToInternal]
  | cons entry rest =>
    unfold messagesToInternal Lowered
    rw [bind_eq_ok]
    refine ⟨?_, ?_⟩
    · rintro ⟨parts, hparts, h⟩
      cases h
      exact ⟨by simp, parts, hparts, rfl⟩
    · rintro ⟨_, parts, hparts, rfl⟩
      exact ⟨parts, hparts, rfl⟩

end uni_agent.anthropic
