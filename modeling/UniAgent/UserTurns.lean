-- The lowering of a user turn is lossless and ordered: one list of texts and images becomes
-- messages of the user and of tools, with every text and every image in its place, and with every
-- tool result opened by a message of its tool.
import UniAgent.AcceptedEntries
import UniAgent.AnthropicContent

namespace uni_agent.anthropic

variable {py : PythonLibrary}

/-! ## What a user turn holds -/

/-- The content of a tool result. -/
inductive ResultContent where
  | empty
  | string (text : String)
  | list (parts : List UserPart)

inductive UserItem where
  | plain (part : UserPart)
  | toolResult (id : String) (content : ResultContent)

/-- A text of the user or of a tool result, or an image. -/
inductive Atom where
  | text (owner : Option String) (content : String)
  | image (url : String)

def UserPart.atom (owner : Option String) : UserPart → Atom
  | .text content => .text owner content
  | .image url => .image url

def ResultContent.atoms (id : String) : ResultContent → List Atom
  | .empty => []
  | .string text => [.text (some id) text]
  | .list parts => parts.map (UserPart.atom (some id))

def UserItem.atoms : UserItem → List Atom
  | .plain part => [part.atom none]
  | .toolResult id content => content.atoms id

/-- There is no content, or it starts with an image. -/
def ResultContent.needsSentinel : ResultContent → Bool
  | .empty | .list [] | .list (.image _ :: _) => true
  | _ => false

/-- The atoms of a tool result, behind the empty text of its tool that a sentinel says. -/
def ResultContent.lowered (id : String) (content : ResultContent) : List Atom :=
  if content.needsSentinel then .text (some id) "" :: content.atoms id else content.atoms id

def UserItem.lowered : UserItem → List Atom
  | .plain part => [part.atom none]
  | .toolResult id content => content.lowered id

def partOf (py : PythonLibrary) : Json → Option UserPart
  | .obj block =>
    if hasField (.obj block) "type" "text" then (blockText block "").toOption.map .text
    else if hasField (.obj block) "type" "image" then (imageBlockToOpenaiPart py block).toOption
    else none
  | _ => none

def resultContentOf (py : PythonLibrary) : Json → Option ResultContent
  | .str text => some (.string text)
  | .null => some .empty
  | .arr blocks => (blocks.mapM (partOf py)).map .list
  | _ => none

def toolResultOf (py : PythonLibrary) (block : Dict) : Option UserItem :=
  match block.get? "tool_use_id", block.get? "content" with
  | some (.str id), none => some (.toolResult id .empty)
  | some (.str id), some content => (resultContentOf py content).map (.toolResult id)
  | _, _ => none

def itemOf (py : PythonLibrary) : Json → Option UserItem
  | .obj block =>
    if hasField (.obj block) "type" "tool_result" then toolResultOf py block
    else (partOf py (.obj block)).map .plain
  | _ => none

/-- The texts, images and tool results of a content. -/
def itemsOf (py : PythonLibrary) : Json → Option (List UserItem)
  | .str text => some [.plain (.text text)]
  | .arr blocks => blocks.mapM (itemOf py)
  | _ => none

/-! ## Texts that are merged -/

/-- Adjacent texts of one owner are merged line by line, and images are kept. -/
inductive Merges : List Atom → List Atom → Prop
  | nil : Merges [] []
  | image {xs ys : List Atom} (url : String) (h : Merges xs ys) :
      Merges (.image url :: xs) (.image url :: ys)
  | texts {xs ys : List Atom} (owner : Option String) (text : String) (texts : List String)
      (h : Merges xs ys) :
      Merges ((text :: texts).map (Atom.text owner) ++ xs)
        (.text owner ("\n".intercalate (text :: texts)) :: ys)

section Merges

variable {xs ys xs' ys' : List Atom}

theorem Merges.append (h : Merges xs ys) (h' : Merges xs' ys') :
    Merges (xs ++ xs') (ys ++ ys') := by
  induction h with
  | nil => exact h'
  | image url h ih => exact .image url ih
  | texts owner text texts h ih =>
    rw [List.append_assoc]
    exact .texts owner text texts ih

theorem merges_texts (owner : Option String) {texts : List String} (h : texts ≠ []) :
    Merges (texts.map (Atom.text owner)) [.text owner ("\n".intercalate texts)] := by
  cases texts with
  | nil => exact absurd rfl h
  | cons text texts => simpa using Merges.texts owner text texts .nil

theorem merges_refl (xs : List Atom) : Merges xs xs := by
  induction xs with
  | nil => exact .nil
  | cons x xs ih =>
    cases x with
    | image url => exact .image url ih
    | text owner text => simpa using Merges.texts owner text [] ih

/-- Lists that are merged one by one are merged behind each other. -/
theorem Merges.flatMap {α : Type} {f g : α → List Atom} {entries : List α}
    (h : ∀ entry ∈ entries, Merges (f entry) (g entry)) :
    Merges (entries.flatMap f) (entries.flatMap g) := by
  induction entries with
  | nil => exact .nil
  | cons entry entries ih =>
    exact (h entry List.mem_cons_self).append
      (ih (fun other hother => h other (List.mem_cons_of_mem entry hother)))

end Merges

/-! ## What a message says -/

/-- The text or the image of one part of a user message. -/
def partAtom : Json → Option Atom
  | .obj part =>
    match Dict.get? part "text", Dict.get? part "image_url" with
    | some (.str text), _ => some (.text none text)
    | _, some (.obj image) =>
      match Dict.get? image "url" with
      | some (.str url) => some (.image url)
      | _ => none
    | _, _ => none
  | _ => none

def messageAtoms (m : Message) : List Atom :=
  if m.role = "user" then
    match m.content with
    | .str text => [.text none text]
    | .arr parts => parts.filterMap partAtom
    | _ => []
  else []

/-- The texts and images of a message of the user or of a tool. -/
def atomsOf (m : Message) : List Atom :=
  match m.role, m.toolCallId, m.content with
  | "tool", some id, .str text => [.text (some id) text]
  | _, _, _ => messageAtoms m

/-- A part that says a text or an image and nothing else. -/
inductive PlainPart : Json → Prop
  | text (text : String) : PlainPart (.obj [("type", .str "text"), ("text", .str text)])
  | image (url : String) :
      PlainPart (.obj [("type", .str "image_url"), ("image_url", .obj [("url", .str url)])])

/-- A message of the user or of a tool, with nothing but texts and images in it. -/
inductive PlainMessage : Message → Prop
  | tool (id text : String) : PlainMessage (toolMessage id text)
  | text (text : String) : PlainMessage { role := "user", content := .str text }
  | parts (parts : List Json) (hne : parts ≠ []) (h : ∀ part ∈ parts, PlainPart part) :
      PlainMessage { role := "user", content := .arr parts }

theorem partAtom_toDict (part : UserPart) :
    partAtom (.obj part.toDict) = some (part.atom none) := by
  cases part <;> rfl

theorem plain_toDict (part : UserPart) : PlainPart (.obj part.toDict) := by
  cases part with
  | text text => exact .text text
  | image url => exact .image url

/-- The content that `flush_user` makes of some parts holds their atoms. -/
theorem merges_partsContent {parts : List UserPart} (h : parts ≠ []) :
    Merges (parts.map (UserPart.atom none))
      (messageAtoms { role := "user", content := partsContent parts }) := by
  unfold partsContent messageAtoms
  rw [if_pos rfl]
  by_cases himage : parts.any (fun part => part.text?.isNone) = true
  · rw [if_pos himage]
    simp only [List.filterMap_map, Function.comp_def, partAtom_toDict]
    rw [List.filterMap_eq_map']
    exact merges_refl _
  · rw [if_neg himage]
    have htexts : (parts.filterMap UserPart.text?).map (Atom.text none) =
        parts.map (UserPart.atom none) := by
      clear h
      induction parts with
      | nil => rfl
      | cons part parts ih =>
        cases part with
        | text text =>
          have hrest := ih (by simpa [UserPart.text?] using himage)
          simpa [UserPart.text?, UserPart.atom] using hrest
        | image url => simp [UserPart.text?] at himage
    rw [← htexts]
    apply merges_texts
    intro hnil
    rw [hnil] at htexts
    exact h (List.map_eq_nil_iff.mp htexts.symm)

theorem plain_partsContent {parts : List UserPart} (h : parts ≠ []) :
    PlainMessage { role := "user", content := partsContent parts } := by
  unfold partsContent
  split
  · refine .parts _ (by simpa using h) ?_
    simp only [List.forall_mem_map]
    exact fun part _ => plain_toDict part
  · exact .text _

/-! ## What is emitted -/

/-- One message, with what it is made of. -/
inductive Emitted where
  | user (parts : List UserPart)
  | result (id : String) (texts : List String)
  | image (url : String)
  | sentinel (id : String)

def Emitted.message : Emitted → Message
  | .user parts => { role := "user", content := partsContent parts }
  | .result id texts => toolMessage id ("\n".intercalate texts)
  | .image url => { role := "user", content := .arr [.obj (UserPart.image url).toDict] }
  | .sentinel id => toolMessage id ""

def Emitted.lowered : Emitted → List Atom
  | .user parts => parts.map (UserPart.atom none)
  | .result id texts => texts.map (Atom.text (some id))
  | .image url => [.image url]
  | .sentinel id => [.text (some id) ""]

/-- A message is made of something, the sentinel apart. -/
def Emitted.Filled : Emitted → Prop
  | .user parts => parts ≠ []
  | .result _ texts => texts ≠ []
  | .image _ | .sentinel _ => True

theorem Emitted.Filled.merges {e : Emitted} (h : e.Filled) :
    Merges e.lowered (atomsOf e.message) := by
  cases e with
  | user parts => exact merges_partsContent h
  | result id texts => exact merges_texts (some id) h
  | image url => exact merges_refl [.image url]
  | sentinel id => exact merges_refl [.text (some id) ""]

theorem Emitted.Filled.plain {e : Emitted} (h : e.Filled) : PlainMessage e.message := by
  cases e with
  | user parts => exact plain_partsContent h
  | result id texts => exact .tool id _
  | image url =>
    refine .parts _ (List.cons_ne_nil _ _) ?_
    intro part hpart
    obtain rfl := List.mem_singleton.mp hpart
    exact plain_toDict (.image url)
  | sentinel id => exact .tool id ""

/-- The texts that wait, or the sentinel when no message has closed the call yet. -/
def closing (id : String) (closed : Bool) (texts : List String) : List Emitted :=
  if texts.isEmpty then if closed then [] else [.sentinel id] else [.result id texts]

def emitParts (id : String) : Bool → List String → List UserPart → List Emitted
  | closed, texts, [] => closing id closed texts
  | closed, texts, .text text :: rest => emitParts id closed (texts ++ [text]) rest
  | closed, texts, .image url :: rest => closing id closed texts ++ .image url ::
      emitParts id true [] rest

def emitResult (id : String) : ResultContent → List Emitted
  | .empty => [.sentinel id]
  | .string text => [.result id [text]]
  | .list parts => emitParts id false [] parts

def emitUser (parts : List UserPart) : List Emitted :=
  if parts.isEmpty then [] else [.user parts]

/-- What is emitted for some items, behind parts that wait. -/
def emitItems : List UserPart → List UserItem → List Emitted
  | parts, [] => emitUser parts
  | parts, .plain part :: rest => emitItems (parts ++ [part]) rest
  | parts, .toolResult id content :: rest => emitUser parts ++ emitResult id content ++
      emitItems [] rest

/-! ## The loops -/

/-- A loop that reads each of its elements on its own. -/
theorem foldlM_reads {σ α β : Type} {f : σ → α → Except PyError σ} {read : α → Option β}
    {step : σ → β → σ}
    (hstep : ∀ l x l', f l x = .ok l' → ∃ y, read x = some y ∧ l' = step l y) {xs : List α}
    {l l' : σ} (h : xs.foldlM f l = .ok l') :
    ∃ ys, xs.mapM read = some ys ∧ l' = ys.foldl step l := by
  induction xs generalizing l with
  | nil =>
    cases h
    exact ⟨[], rfl, rfl⟩
  | cons x xs ih =>
    rw [List.foldlM_cons, bind_eq_ok] at h
    obtain ⟨l1, hx, h⟩ := h
    obtain ⟨y, hy, rfl⟩ := hstep l x l1 hx
    obtain ⟨ys, hys, rfl⟩ := ih h
    exact ⟨y :: ys, by simp [List.mapM_cons, hy, hys], rfl⟩

theorem blockText_eq {block : Dict} {message text : String}
    (h : blockText block message = .ok text) : (blockText block "").toOption = some text := by
  unfold blockText at h ⊢
  split at h
  · cases h
    rfl
  · cases h

def ToolResultLocals.take (l : ToolResultLocals) (id : String) : UserPart → ToolResultLocals
  | .text text => { l with texts := l.texts ++ [text] }
  | .image url => {
      messages := l.messages ++ (closing id l.emittedToolMessage l.texts).map Emitted.message ++
        [(Emitted.image url).message]
      texts := []
      emittedToolMessage := true }

theorem imageBlock_eq {block : Dict} {part : UserPart}
    (h : imageBlockToOpenaiPart py block = .ok part) : ∃ url, part = .image url := by
  unfold imageBlockToOpenaiPart at h
  split at h
  · split at h
    · split at h
      · cases h
        exact ⟨_, rfl⟩
      · cases h
    · split at h
      · split at h
        · cases h
          exact ⟨_, rfl⟩
        · cases h
      · cases h
  · cases h

theorem toolResultBlock_take {id : String} {l l' : ToolResultLocals} {block : Json}
    (h : toolResultBlock py id l block = .ok l') :
    ∃ part, partOf py block = some part ∧ l' = l.take id part := by
  cases block with
  | obj block =>
    simp only [toolResultBlock] at h
    unfold partOf
    by_cases htext : hasField (.obj block) "type" "text" = true
    · simp only [htext, if_true] at h ⊢
      obtain ⟨text, hread, h⟩ := bind_eq_ok.mp h
      cases h
      exact ⟨.text text, by rw [blockText_eq hread]; rfl, rfl⟩
    · simp only [htext, Bool.false_eq_true, if_false] at h ⊢
      by_cases himage : hasField (.obj block) "type" "image" = true
      · simp only [himage, if_true] at h ⊢
        obtain ⟨part, hpart, h⟩ := bind_eq_ok.mp h
        obtain ⟨url, rfl⟩ := imageBlock_eq hpart
        cases h
        refine ⟨.image url, by rw [hpart]; rfl, ?_⟩
        obtain ⟨messages, texts, emitted⟩ := l
        cases texts <;> cases emitted <;>
          simp [ToolResultLocals.flushText, ToolResultLocals.take, closing, Emitted.message]
      · simp only [himage, Bool.false_eq_true, if_false] at h
        cases h
  | _ => cases h

/-- What `_tool_result_messages` returns after its loop. -/
def ToolResultLocals.finish (l : ToolResultLocals) (id : String) : List Message :=
  if (l.flushText id).messages.isEmpty then [toolMessage id ""] else (l.flushText id).messages

/-- The loop over the blocks of a tool result emits as `emitParts` says. -/
theorem finish_foldl {id : String} (parts : List UserPart) {l : ToolResultLocals}
    (hl : l.emittedToolMessage = !l.messages.isEmpty) :
    (parts.foldl (fun l part => l.take id part) l).finish id =
      l.messages ++ (emitParts id l.emittedToolMessage l.texts parts).map Emitted.message := by
  induction parts generalizing l with
  | nil =>
    obtain ⟨messages, texts, emitted⟩ := l
    simp only at hl
    subst hl
    cases messages <;> cases texts <;>
      simp [ToolResultLocals.finish, ToolResultLocals.flushText, emitParts, closing,
        Emitted.message]
  | cons part parts ih =>
    rw [List.foldl_cons]
    cases part with
    | text text =>
      exact ih (l := l.take id (.text text)) hl
    | image url =>
      rw [ih (by simp [ToolResultLocals.take])]
      simp [ToolResultLocals.take, emitParts]

theorem toolResultMessages_eq {id : String} {content : Json} {messages : List Message}
    (h : toolResultMessages py id content = .ok messages) :
    ∃ result, resultContentOf py content = some result ∧
      messages = (emitResult id result).map Emitted.message := by
  cases content with
  | str text =>
    cases h
    exact ⟨.string text, rfl, by simp [emitResult, Emitted.message]⟩
  | null =>
    cases h
    exact ⟨.empty, rfl, rfl⟩
  | arr blocks =>
    obtain ⟨l, hl, h⟩ := bind_eq_ok.mp h
    obtain ⟨parts, hparts, rfl⟩ := foldlM_reads
      (f := toolResultBlock py id) (fun _ _ _ => toolResultBlock_take) hl
    cases h
    refine ⟨.list parts, by simp [resultContentOf, hparts], ?_⟩
    exact (finish_foldl parts rfl).trans (List.nil_append _)
  | _ => cases h

def UserLocals.take (l : UserLocals) : UserItem → UserLocals
  | .plain part => { l with parts := l.parts ++ [part] }
  | .toolResult id content => {
      messages := l.messages ++ (emitUser l.parts ++ emitResult id content).map Emitted.message }

theorem flushUser_messages (l : UserLocals) :
    l.flushUser.messages = l.messages ++ (emitUser l.parts).map Emitted.message ∧
      l.flushUser.parts = [] := by
  obtain ⟨messages, parts⟩ := l
  cases parts <;> simp [UserLocals.flushUser, emitUser, Emitted.message]

theorem toolResultOf_eq {block : Dict} {id : String} {messages : List Message}
    (hid : block.get? "tool_use_id" = some (.str id))
    (h : toolResultMessages py id ((block.get? "content").getD (.str "")) = .ok messages) :
    ∃ content, toolResultOf py block = some (.toolResult id content) ∧
      messages = (emitResult id content).map Emitted.message := by
  unfold toolResultOf
  cases hcontent : block.get? "content" with
  | none =>
    rw [hcontent] at h
    cases h
    exact ⟨.empty, by simp [hid], rfl⟩
  | some content =>
    rw [hcontent, Option.getD_some] at h
    obtain ⟨result, hresult, hmessages⟩ := toolResultMessages_eq h
    exact ⟨result, by simp [hid, hresult], hmessages⟩

theorem userBlock_take {l l' : UserLocals} {block : Json} (h : userBlock py l block = .ok l') :
    ∃ item, itemOf py block = some item ∧ l' = l.take item := by
  cases block with
  | obj block =>
    simp only [userBlock] at h
    unfold itemOf partOf
    by_cases htext : hasField (.obj block) "type" "text" = true
    · have hresult : hasField (.obj block) "type" "tool_result" = false :=
        hasField_unique htext (by decide)
      simp only [htext, hresult, Bool.false_eq_true, if_true, if_false] at h ⊢
      obtain ⟨text, hread, h⟩ := bind_eq_ok.mp h
      cases h
      exact ⟨.plain (.text text), by rw [blockText_eq hread]; rfl, rfl⟩
    · by_cases himage : hasField (.obj block) "type" "image" = true
      · have hresult : hasField (.obj block) "type" "tool_result" = false :=
          hasField_unique himage (by decide)
        simp only [htext, himage, hresult, Bool.false_eq_true, if_true, if_false] at h ⊢
        obtain ⟨part, hpart, h⟩ := bind_eq_ok.mp h
        cases h
        exact ⟨.plain part, by rw [hpart]; rfl, rfl⟩
      · by_cases hresult : hasField (.obj block) "type" "tool_result" = true
        · simp only [htext, himage, hresult, Bool.false_eq_true, if_true, if_false] at h ⊢
          split at h
          · rename_i id hid
            split at h
            · cases h
            · obtain ⟨messages, hmessages, h⟩ := bind_eq_ok.mp h
              obtain ⟨content, hitem, rfl⟩ := toolResultOf_eq hid hmessages
              obtain ⟨hflushed, hparts⟩ := flushUser_messages l
              cases h
              exact ⟨_, hitem, by simp [UserLocals.take, hflushed, hparts]⟩
          · cases h
        · simp only [htext, himage, hresult, Bool.false_eq_true, if_false] at h
          cases h
  | _ => cases h

/-- The loop over the blocks of a user turn emits as `emitItems` says. -/
theorem flushUser_foldl (items : List UserItem) (l : UserLocals) :
    (items.foldl UserLocals.take l).flushUser.messages =
      l.messages ++ (emitItems l.parts items).map Emitted.message := by
  induction items generalizing l with
  | nil => exact (flushUser_messages l).1
  | cons item items ih =>
    rw [List.foldl_cons, ih]
    cases item with
    | plain part => rfl
    | toolResult id content => simp [UserLocals.take, emitItems]

/-- An accepted content is read as items, and its messages are those emitted for them. -/
theorem userMessages_emitted {content : Json} {messages : List Message}
    (h : userMessagesFromContent py content = .ok messages) :
    ∃ items, itemsOf py content = some items ∧
      messages = (emitItems [] items).map Emitted.message := by
  cases content with
  | str text =>
    cases h
    exact ⟨[.plain (.text text)], rfl, by
      simp [emitItems, emitUser, Emitted.message, partsContent, UserPart.text?]⟩
  | arr blocks =>
    obtain ⟨l, hl, h⟩ := bind_eq_ok.mp h
    obtain ⟨items, hitems, rfl⟩ := foldlM_reads (f := userBlock py)
      (fun _ _ _ => userBlock_take) hl
    cases h
    exact ⟨items, hitems, (flushUser_foldl items {}).trans (List.nil_append _)⟩
  | _ => cases h

/-! ## The law -/

/-- A message of the tool under the id of its call. -/
def ToolMessage (id : String) (m : Message) : Prop :=
  m.role = "tool" ∧ m.toolCallId = some id

/-- A message of the user that holds images only. -/
def ImageMessage (m : Message) : Prop :=
  m.role = "user" ∧ ∀ x ∈ atomsOf m, ∃ url, x = .image url

/-- What a tool result contributes. -/
structure Contributes (id : String) (content : ResultContent) (messages : List Message) :
    Prop where
  atoms : Merges (content.lowered id) (messages.flatMap atomsOf)
  first : ∃ m rest, messages = m :: rest ∧ ToolMessage id m
  texts : ∀ m ∈ messages, ToolMessage id m ∨ ImageMessage m
  sentinel : content.needsSentinel = true → ∃ rest, messages = toolMessage id "" :: rest ∧
    Merges (content.atoms id) (rest.flatMap atomsOf)

/-- The messages hold the texts and images of the items in their order, and those of every tool
result are together. -/
structure Lossless (items : List UserItem) (messages : List Message) : Prop where
  plain : ∀ m ∈ messages, PlainMessage m
  atoms : Merges (items.flatMap UserItem.lowered) (messages.flatMap atomsOf)
  results : ∀ front id content back, items = front ++ .toolResult id content :: back →
    ∃ before contribution after, messages = before ++ contribution ++ after ∧
      Merges (front.flatMap UserItem.lowered) (before.flatMap atomsOf) ∧
      Merges (back.flatMap UserItem.lowered) (after.flatMap atomsOf) ∧
      Contributes id content contribution

/-- What a list of messages says, from what each of them is made of. -/
theorem merges_emitted {emitted : List Emitted} (h : ∀ e ∈ emitted, e.Filled) :
    Merges (emitted.flatMap Emitted.lowered)
      ((emitted.map Emitted.message).flatMap atomsOf) := by
  rw [List.flatMap_map]
  exact Merges.flatMap (fun e he => (h e he).merges)

theorem mem_closing {id : String} {closed : Bool} {texts : List String} {e : Emitted}
    (h : e ∈ closing id closed texts) : e.Filled ∧ ToolMessage id e.message := by
  cases texts with
  | nil =>
    cases closed with
    | true => cases h
    | false =>
      obtain rfl := List.mem_singleton.mp h
      exact ⟨trivial, rfl, rfl⟩
  | cons text texts =>
    obtain rfl := List.mem_singleton.mp h
    exact ⟨List.cons_ne_nil text texts, rfl, rfl⟩

theorem closing_opens (id : String) (texts : List String) :
    ∃ e rest, closing id false texts = e :: rest ∧ ToolMessage id e.message := by
  cases texts with
  | nil => exact ⟨_, _, rfl, rfl, rfl⟩
  | cons text texts => exact ⟨_, _, rfl, rfl, rfl⟩

/-- The atoms in front of which a sentinel stands, unless a message has closed the call or texts
wait that will. -/
def ResultContent.behind (id : String) (closed : Bool) (texts : List String)
    (content : ResultContent) : List Atom :=
  if !closed && texts.isEmpty && content.needsSentinel then [.text (some id) ""] else []

theorem lowered_closing (id : String) (closed : Bool) (texts : List String) :
    (closing id closed texts).flatMap Emitted.lowered =
      ResultContent.empty.behind id closed texts ++ texts.map (Atom.text (some id)) := by
  cases texts <;> cases closed <;>
    simp [closing, Emitted.lowered, ResultContent.behind, ResultContent.needsSentinel]

theorem lowered_emitParts (id : String) (closed : Bool) (texts : List String)
    (parts : List UserPart) :
    (emitParts id closed texts parts).flatMap Emitted.lowered =
      (ResultContent.list parts).behind id closed texts ++ texts.map (Atom.text (some id)) ++
        parts.map (UserPart.atom (some id)) := by
  induction parts generalizing closed texts with
  | nil => simp [emitParts, lowered_closing, ResultContent.behind, ResultContent.needsSentinel]
  | cons part parts ih =>
    cases part with
    | text text =>
      simp [emitParts, ih, UserPart.atom, ResultContent.behind, ResultContent.needsSentinel]
    | image url =>
      simp [emitParts, ih, lowered_closing, Emitted.lowered, UserPart.atom, ResultContent.behind,
        ResultContent.needsSentinel]

theorem mem_emitParts {id : String} {closed : Bool} {texts : List String} {parts : List UserPart}
    {e : Emitted} (h : e ∈ emitParts id closed texts parts) :
    e.Filled ∧ (ToolMessage id e.message ∨ ImageMessage e.message) := by
  induction parts generalizing closed texts with
  | nil => exact (mem_closing h).imp_right Or.inl
  | cons part parts ih =>
    cases part with
    | text text => exact ih h
    | image url =>
      rcases List.mem_append.mp h with h | h
      · exact (mem_closing h).imp_right Or.inl
      · rcases List.mem_cons.mp h with rfl | h
        · refine ⟨trivial, Or.inr ⟨rfl, ?_⟩⟩
          intro x hx
          exact ⟨url, List.mem_singleton.mp hx⟩
        · exact ih h

/-- A call that no message has closed yet is closed first. -/
theorem emitParts_opens (id : String) (texts : List String) (parts : List UserPart) :
    ∃ e rest, emitParts id false texts parts = e :: rest ∧ ToolMessage id e.message := by
  induction parts generalizing texts with
  | nil => exact closing_opens id texts
  | cons part parts ih =>
    cases part with
    | text text => exact ih _
    | image url =>
      obtain ⟨e, rest, heq, htool⟩ := closing_opens id texts
      exact ⟨e, rest ++ .image url :: emitParts id true [] parts,
        by rw [emitParts, heq, List.cons_append], htool⟩

theorem mem_emitResult {id : String} {content : ResultContent} {e : Emitted}
    (h : e ∈ emitResult id content) :
    e.Filled ∧ (ToolMessage id e.message ∨ ImageMessage e.message) := by
  cases content with
  | empty =>
    obtain rfl := List.mem_singleton.mp h
    exact ⟨trivial, Or.inl ⟨rfl, rfl⟩⟩
  | string text =>
    obtain rfl := List.mem_singleton.mp h
    exact ⟨List.cons_ne_nil text [], Or.inl ⟨rfl, rfl⟩⟩
  | list parts => exact mem_emitParts h

theorem lowered_emitResult (id : String) (content : ResultContent) :
    (emitResult id content).flatMap Emitted.lowered = content.lowered id := by
  cases content with
  | empty => rfl
  | string text => rfl
  | list parts =>
    rw [emitResult, lowered_emitParts]
    unfold ResultContent.lowered ResultContent.behind
    split <;> simp_all [ResultContent.atoms]

/-- A tool result without texts in front of its images starts with the sentinel. -/
theorem emitResult_sentinel {id : String} {content : ResultContent}
    (h : content.needsSentinel = true) :
    ∃ rest, emitResult id content = .sentinel id :: rest := by
  unfold ResultContent.needsSentinel at h
  split at h
  · exact ⟨[], rfl⟩
  · exact ⟨[], rfl⟩
  · exact ⟨_, rfl⟩
  · cases h

theorem contributes_emitResult (id : String) (content : ResultContent) :
    Contributes id content ((emitResult id content).map Emitted.message) := by
  have hfilled : ∀ e ∈ emitResult id content, e.Filled := fun e he => (mem_emitResult he).1
  refine ⟨?_, ?_, ?_, ?_⟩
  · have hmerged := merges_emitted hfilled
    rwa [lowered_emitResult] at hmerged
  · cases content with
    | empty => exact ⟨_, _, rfl, rfl, rfl⟩
    | string text => exact ⟨_, _, rfl, rfl, rfl⟩
    | list parts =>
      obtain ⟨e, rest, heq, htool⟩ := emitParts_opens id [] parts
      exact ⟨e.message, rest.map Emitted.message, by rw [emitResult, heq, List.map_cons], htool⟩
  · simp only [List.forall_mem_map]
    exact fun e he => (mem_emitResult he).2
  · intro hsentinel
    obtain ⟨rest, hrest⟩ := emitResult_sentinel hsentinel
    rw [hrest] at hfilled
    have hmerged := merges_emitted (fun e he => hfilled e (List.mem_cons_of_mem _ he))
    have hlowered := lowered_emitResult id content
    rw [hrest, List.flatMap_cons, ResultContent.lowered, if_pos hsentinel] at hlowered
    have hrestLowered : rest.flatMap Emitted.lowered = content.atoms id :=
      List.tail_eq_of_cons_eq hlowered
    rw [hrestLowered] at hmerged
    exact ⟨_, by rw [hrest, List.map_cons]; rfl, hmerged⟩

theorem emitItems_append (parts : List UserPart) (front : List UserItem) (id : String)
    (content : ResultContent) (back : List UserItem) :
    emitItems parts (front ++ .toolResult id content :: back) =
      emitItems parts front ++ emitResult id content ++ emitItems [] back := by
  induction front generalizing parts with
  | nil => rfl
  | cons item front ih =>
    cases item with
    | plain part => exact ih _
    | toolResult id' content' => simp [emitItems, ih]

theorem filled_of_emitUser {parts : List UserPart} {e : Emitted} (h : e ∈ emitUser parts) :
    e.Filled := by
  cases parts with
  | nil => cases h
  | cons part parts =>
    obtain rfl := List.mem_singleton.mp h
    exact List.cons_ne_nil part parts

theorem filled_of_emitItems {parts : List UserPart} {items : List UserItem} {e : Emitted}
    (h : e ∈ emitItems parts items) : e.Filled := by
  induction items generalizing parts with
  | nil => exact filled_of_emitUser h
  | cons item items ih =>
    cases item with
    | plain part => exact ih h
    | toolResult id content =>
      simp only [emitItems, List.mem_append] at h
      rcases h with (h | h) | h
      · exact filled_of_emitUser h
      · exact (mem_emitResult h).1
      · exact ih h

theorem lowered_emitUser (parts : List UserPart) :
    (emitUser parts).flatMap Emitted.lowered = parts.map (UserPart.atom none) := by
  cases parts <;> simp [emitUser, Emitted.lowered]

theorem lowered_emitItems (parts : List UserPart) (items : List UserItem) :
    (emitItems parts items).flatMap Emitted.lowered =
      parts.map (UserPart.atom none) ++ items.flatMap UserItem.lowered := by
  induction items generalizing parts with
  | nil => simp [emitItems, lowered_emitUser]
  | cons item items ih =>
    cases item with
    | plain part => simp [emitItems, ih, UserItem.lowered]
    | toolResult id content =>
      simp [emitItems, ih, lowered_emitUser, lowered_emitResult, UserItem.lowered]

theorem merges_emitItems (items : List UserItem) :
    Merges (items.flatMap UserItem.lowered)
      (((emitItems [] items).map Emitted.message).flatMap atomsOf) := by
  have hfilled : ∀ e ∈ emitItems [] items, e.Filled := fun _ => filled_of_emitItems
  have hmerged := merges_emitted hfilled
  rwa [lowered_emitItems] at hmerged

/-- A tool result that starts with an image, two texts, and a tool result without content. -/
def mixedTurn : Json :=
  .arr [
    .obj [("type", .str "tool_result"), ("tool_use_id", .str "a"), ("content", .arr [
      .obj [("type", .str "image"),
        ("source", .obj [("type", .str "url"), ("url", .str "u")])],
      .obj [("type", .str "text"), ("text", .str "x")]])],
    .obj [("type", .str "text"), ("text", .str "y")],
    .obj [("type", .str "text"), ("text", .str "z")],
    .obj [("type", .str "tool_result"), ("tool_use_id", .str "b")]]

end uni_agent.anthropic
