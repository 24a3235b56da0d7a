-- A codec whose tokens are the characters of the prompt, for any chat template. For a
-- template that renders message by message, the full and the incremental encoding are the
-- segments of the messages in a row.
import UniAgent.Codec

namespace uni_agent

/-! ## Characters as tokens -/

def tokensOf (text : String) : List Token := text.toList.map Char.toNat

def textOf (ids : List Token) : String := String.ofList (ids.map Char.ofNat)

@[simp] theorem tokensOf_append (s t : String) : tokensOf (s ++ t) = tokensOf s ++ tokensOf t := by
  simp [tokensOf]

@[simp] theorem textOf_tokensOf (text : String) : textOf (tokensOf text) = text := by
  unfold textOf tokensOf
  rw [List.map_map, show Char.ofNat ∘ Char.toNat = id from funext Char.ofNat_toNat, List.map_id,
    String.ofList_toList]

theorem tokensOf_join (texts : List String) :
    tokensOf (String.join texts) = texts.flatMap tokensOf := by
  unfold tokensOf
  rw [String.toList_join, List.map_flatMap]

/-- The mark that closes a turn: the token at which an output stops. -/
def closeMark : String := "$"

/-- What `skip_special_tokens` leaves of an output. -/
def withoutMarks (ids : List Token) : List Token :=
  ids.filter (fun id => !(tokensOf closeMark).contains id)

/-- A text, the mark that closes it, and the separator. -/
def closedLine (text : String) : String := text ++ closeMark ++ "\n"

/-- A digest of a few digits. -/
def checksum (text : String) : String :=
  toString (text.toByteArray.data.toList.foldl (fun h b => (h * 257 + b.toNat) % 1000003) 7)

/-! ## The codec of a template -/

/-- A chat template, and the texts that it puts between turns and before a reply. -/
structure ChatTemplate where
  render : List Message → Option (List Json) → (addGenerationPrompt : Bool) → String
  separator : String
  prompt : String

namespace ChatTemplate

def codec (T : ChatTemplate) (sha256 : String → String) : MessageCodec where
  jsonLoads := fun _ => none
  floatRepr := fun x => toString x.toNat
  sha256 := sha256
  tokenizerEncode := tokensOf
  tokenizerDecode := fun ids skip => textOf (if skip then withoutMarks ids else ids)
  eosTokenIds := tokensOf closeMark
  processor := none
  visionInfoExtractor := fun _ => .ok (none, none)
  applyChatTemplate := fun messages tools add => .ok (T.render messages tools add)
  turnSeparator := tokensOf T.separator
  generationPrompt := tokensOf T.prompt
  toolParserName := none
  extractToolCalls := fun _ _ _ => .error (.otherException "ValueError" "no tool parser")

variable {T : ChatTemplate} {sha256 : String → String}

theorem extractMultiModalData_codec (messages : List Message) :
    (T.codec sha256).extractMultiModalData messages = .ok (none, none) := rfl

end ChatTemplate

/-- A codec that works with a template, and whose tokens are characters. -/
structure Renders (C : MessageCodec) (T : ChatTemplate) : Prop where
  template : ∀ messages tools add,
    C.applyChatTemplate messages tools add = .ok (T.render messages tools add)
  tokenize : ∀ text, C.tokenizerEncode text = tokensOf text
  encode : ∀ text imageData videoData,
    C.encodePromptText text imageData videoData = .ok (tokensOf text)
  decode : C.tokenizerDecode C.turnSeparator false = T.separator
  eos : C.eosTokenIds = tokensOf closeMark
  separator : C.turnSeparator = tokensOf T.separator
  prompt : C.generationPrompt = tokensOf T.prompt

theorem renders_codec (T : ChatTemplate) (sha256 : String → String) :
    Renders (T.codec sha256) T :=
  ⟨fun _ _ _ => rfl, fun _ => rfl, fun _ _ _ => rfl, textOf_tokensOf T.separator, rfl, rfl, rfl⟩

/-- A template that closes its user turns by the mark and the separator, and ends with the prompt
when asked for. -/
structure ChatTemplate.Closes (T : ChatTemplate) : Prop where
  turn : ∀ text, ∃ front, T.render [{ role := "user", content := .str text }] none false =
    front ++ closeMark ++ T.separator
  separator : ∀ id ∈ tokensOf T.separator, id ∉ tokensOf closeMark
  prompt : ∀ messages, T.render messages none true = T.render messages none false ++ T.prompt

/-- The constructor reads the separator and the prompt of such a template off it. -/
theorem Renders.create {C : MessageCodec} {T : ChatTemplate} (h : Renders C T)
    (hcloses : T.Closes) :
    C.create = .ok C := by
  apply MessageCodec.create_eq_self
  · unfold MessageCodec.initializeGenerationPrompt
    simp only [h.template, h.tokenize, hcloses.prompt, h.prompt, bind, Except.bind, tokensOf_append,
      List.take_left, List.drop_left, ne_eq, not_true_eq_false, if_false]
    rfl
  · obtain ⟨front, hempty⟩ := hcloses.turn ""
    obtain ⟨front', hfilled⟩ := hcloses.turn "x"
    have hprobes : C.probeTurns .str =
        .ok (tokensOf front ++ (tokensOf closeMark ++ tokensOf T.separator),
          tokensOf front' ++ (tokensOf closeMark ++ tokensOf T.separator)) := by
      unfold MessageCodec.probeTurns
      simp only [h.template, h.tokenize, hempty, hfilled, bind, Except.bind, tokensOf_append,
        List.append_assoc]
      rfl
    have hmark : tokensOf closeMark = ['$'.toNat] := by decide
    unfold MessageCodec.initializeTurnSeparator
    rw [hprobes]
    dsimp only
    rw [commonTail_append, h.eos, h.separator]
    have hseparator := hcloses.separator
    rw [hmark] at hseparator ⊢
    exact behindClose_append (by simp) hseparator

/-! ## Templates that render message by message -/

/-- A head for the tools, one segment for each message, and the prompt when asked for. -/
def messageWise (head : Option (List Json) → String) (segment : Message → String)
    (separator prompt : String) : ChatTemplate where
  render := fun messages tools add =>
    head tools ++ String.join (messages.map segment) ++ (if add then prompt else "")
  separator
  prompt

section MessageWise

variable {head : Option (List Json) → String} {segment : Message → String}
  {separator prompt : String} {sha256 : String → String}

/-- Such a template closes its turns when its segments do. -/
theorem closes_messageWise
    (hsegment : ∀ text, ∃ front, segment { role := "user", content := .str text } =
      front ++ closeMark ++ separator)
    (hseparator : ∀ id ∈ tokensOf separator, id ∉ tokensOf closeMark) :
    (messageWise head segment separator prompt).Closes := by
  constructor
  · intro text
    obtain ⟨front, hfront⟩ := hsegment text
    refine ⟨head none ++ front, ?_⟩
    simp only [messageWise, List.map_cons, List.map_nil, hfront]
    simp [String.join, String.append_assoc]
  · exact hseparator
  · intro messages
    simp [messageWise]

/-- The tokens of one message. -/
def segmentTokens (segment : Message → String) (m : Message) : List Token := tokensOf (segment m)

theorem tokensOf_segments (messages : List Message) :
    tokensOf (String.join (messages.map segment)) = messages.flatMap (segmentTokens segment) := by
  rw [tokensOf_join, List.flatMap_map]
  rfl

theorem Renders.encodeFull {C : MessageCodec}
    (h : Renders C (messageWise head segment separator prompt)) (messages : List Message)
    (tools : Option (List Json)) (imageData videoData : Option (List Media)) :
    C.encodeFull messages tools imageData videoData =
      .ok (tokensOf (head tools) ++ messages.flatMap (segmentTokens segment) ++
        tokensOf prompt) := by
  unfold MessageCodec.encodeFull
  simp only [h.template, bind, Except.bind, h.encode]
  simp [messageWise, tokensOf_segments]

theorem encodeFull_messageWise (messages : List Message) (tools : Option (List Json))
    (imageData videoData : Option (List Media)) :
    ((messageWise head segment separator prompt).codec sha256).encodeFull messages tools
        imageData videoData =
      .ok (tokensOf (head tools) ++ messages.flatMap (segmentTokens segment) ++
        tokensOf prompt) :=
  (renders_codec _ _).encodeFull messages tools imageData videoData

/-- The anchor of a template without images. -/
def textAnchor : Message := { role := "user", content := .str "" }

/-- New messages are encoded after one separator, when the segment of the anchor ends with
it. -/
theorem Renders.encodeIncremental {C : MessageCodec}
    (h : Renders C (messageWise head segment separator prompt)) {body : String}
    (hbody : segment C.anchor = body ++ separator) (hsep : separator ≠ "")
    {messages : List Message} (hne : messages ≠ [])
    (hfirst : (messages.drop 1).any Message.isAssistant = false)
    (imageData videoData : Option (List Media)) :
    C.encodeIncremental messages imageData videoData =
      .ok (tokensOf separator ++ messages.flatMap (segmentTokens segment) ++ tokensOf prompt) := by
  have hchars : separator.toList ≠ [] := by
    intro heq
    exact hsep (String.ext (by simpa using heq))
  have hanchor : C.anchorPrompt = .ok (head none ++ body) := by
    unfold MessageCodec.anchorPrompt
    have hempty : C.turnSeparator.isEmpty = false := by
      simp [h.separator, messageWise, tokensOf, hchars]
    have htext : C.tokenizerDecode C.turnSeparator false = separator := h.decode
    have hprompt : C.applyChatTemplate [C.anchor] none false =
        .ok (head none ++ body ++ separator) := by
      rw [h.template]
      simp only [messageWise, List.map_cons, List.map_nil, hbody]
      simp [String.join, String.append_assoc]
    rw [hprompt]
    simp only [bind, Except.bind, hempty, htext]
    have hends : endsWith (head none ++ body ++ separator) separator = true := by
      unfold endsWith
      rw [List.isSuffixOf_iff_suffix, String.toList_append]
      exact List.suffix_append _ _
    have hsepEmpty : separator.isEmpty = false := by
      simp [hsep]
    simp only [hends, hsepEmpty, Bool.not_true, Bool.or_false, Bool.false_eq_true, if_false]
    unfold takeChars
    refine congrArg Except.ok (String.ext ?_)
    rw [String.toList_ofList, String.toList_append, String.length_append, Nat.add_sub_cancel,
      ← String.length_toList]
    exact List.take_left
  have hfull : C.applyChatTemplate (C.anchor :: messages) none true =
      .ok (head none ++ body ++ (separator ++ String.join (messages.map segment) ++ prompt)) := by
    rw [h.template]
    simp only [messageWise, List.map_cons, if_true, hbody]
    refine congrArg Except.ok (String.ext ?_)
    simp [String.toList_join]
  unfold MessageCodec.encodeIncremental
  have hmessages : messages.isEmpty = false := by simpa using hne
  rw [hanchor, hfull]
  simp only [bind, Except.bind, hmessages, hfirst, Bool.false_eq_true, if_false]
  have hstarts : startsWith
      (head none ++ body ++ (separator ++ String.join (messages.map segment) ++ prompt))
      (head none ++ body) = true := by
    unfold startsWith
    rw [List.isPrefixOf_iff_prefix, String.toList_append (s := head none ++ body)]
    exact List.prefix_append _ _
  simp only [hstarts, Bool.not_true, Bool.false_eq_true, if_false]
  have hdrop : dropChars (head none ++ body).length
      (head none ++ body ++ (separator ++ String.join (messages.map segment) ++ prompt)) =
      separator ++ String.join (messages.map segment) ++ prompt := by
    unfold dropChars
    refine String.ext ?_
    rw [String.toList_ofList, String.toList_append (s := head none ++ body),
      ← String.length_toList]
    exact List.drop_left
  rw [hdrop, h.encode]
  simp [tokensOf_segments]

theorem encodeIncremental_messageWise {body : String}
    (hbody : segment textAnchor = body ++ separator)
    (hsep : separator ≠ "") {messages : List Message} (hne : messages ≠ [])
    (hfirst : (messages.drop 1).any Message.isAssistant = false)
    (imageData videoData : Option (List Media)) :
    ((messageWise head segment separator prompt).codec sha256).encodeIncremental messages
        imageData videoData =
      .ok (tokensOf separator ++ messages.flatMap (segmentTokens segment) ++ tokensOf prompt) :=
  (renders_codec _ _).encodeIncremental hbody hsep hne hfirst imageData videoData

/-- Whatever new messages are encoded to: nothing, or a separator, their segments and the
prompt. -/
theorem Renders.encodeIncremental_cases {C : MessageCodec}
    (h : Renders C (messageWise head segment separator prompt)) {body : String}
    (hbody : segment C.anchor = body ++ separator) (hsep : separator ≠ "")
    {messages : List Message} {imageData videoData : Option (List Media)} {ids : List Token}
    (hids : C.encodeIncremental messages imageData videoData = .ok ids) :
    (messages = [] ∧ ids = []) ∨ (messages ≠ [] ∧ ids = tokensOf separator ++
      messages.flatMap (segmentTokens segment) ++ tokensOf prompt) := by
  by_cases hne : messages = []
  · subst hne
    refine Or.inl ⟨rfl, ?_⟩
    simpa [MessageCodec.encodeIncremental, bind, Except.bind, pure, Except.pure] using hids.symm
  · cases hfirst : (messages.drop 1).any Message.isAssistant with
    | false =>
      rw [h.encodeIncremental hbody hsep hne hfirst] at hids
      exact Or.inr ⟨hne, (Except.ok.inj hids).symm⟩
    | true =>
      rw [MessageCodec.encodeIncremental_later_assistant _ hfirst] at hids
      cases hids

theorem encodeIncremental_messageWise_cases {body : String}
    (hbody : segment textAnchor = body ++ separator) (hsep : separator ≠ "")
    {messages : List Message} {imageData videoData : Option (List Media)} {ids : List Token}
    (h : ((messageWise head segment separator prompt).codec sha256).encodeIncremental messages
      imageData videoData = .ok ids) :
    (messages = [] ∧ ids = []) ∨ (messages ≠ [] ∧ ids = tokensOf separator ++
      messages.flatMap (segmentTokens segment) ++ tokensOf prompt) :=
  (renders_codec _ _).encodeIncremental_cases hbody hsep h

end MessageWise

/-! ## One line for each message -/

def say (role text : String) : Message := { role, content := .str text }

def contentText : Json → String
  | .str text => text
  | _ => ""

/-- Each message is a closed line, and a reply starts after `>`. -/
def lineTemplate : ChatTemplate :=
  messageWise (fun _ => "") (fun m => closedLine (contentText m.content)) "\n" ">"

def lineCodec : MessageCodec := lineTemplate.codec checksum

theorem create_lineCodec : lineCodec.create = .ok lineCodec := by
  apply (renders_codec lineTemplate checksum).create
  exact closes_messageWise (fun text => ⟨text, rfl⟩) (by decide)

end uni_agent
