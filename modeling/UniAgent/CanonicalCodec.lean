-- A codec whose template reads nothing of a message but its canonical form, and whose digest has
-- no collisions. A reply is rendered as its text, and every other message as its canonical form.
import UniAgent.CharacterCodec

namespace uni_agent

/-! ## A digest without collisions -/

/-- The byte as the next character: never NUL. -/
def nextChar (b : UInt8) : Char := Char.ofNat (b.toNat + 1)

def shiftBytes (text : String) : String :=
  String.ofList (text.toByteArray.data.toList.map nextChar)

theorem toNat_nextChar (b : UInt8) : (nextChar b).toNat = b.toNat + 1 := by
  have hvalid : (b.toNat + 1).isValidChar := Or.inl (by have := b.toNat_lt; omega)
  unfold nextChar Char.ofNat
  rw [dif_pos hvalid]
  rfl

theorem nextChar_injective : Function.Injective nextChar := by
  intro b b' h
  have hnat := congrArg Char.toNat h
  rw [toNat_nextChar, toNat_nextChar] at hnat
  exact UInt8.toNat_inj.mp (by omega)

theorem shiftBytes_injective {text text' : String} (h : shiftBytes text = shiftBytes text') :
    text = text' := by
  unfold shiftBytes at h
  have hbytes := List.map_injective_iff.mpr nextChar_injective (String.ofList_inj.mp h)
  apply String.toByteArray_inj.mp
  exact ByteArray.ext (Array.toList_inj.mp hbytes)

theorem nul_not_mem_shiftBytes (text : String) : '\x00' ∉ (shiftBytes text).toList := by
  unfold shiftBytes
  rw [String.toList_ofList, List.mem_map]
  rintro ⟨b, _, hb⟩
  have hnat := congrArg Char.toNat hb
  rw [toNat_nextChar] at hnat
  exact absurd hnat (Nat.succ_ne_zero _)

theorem prefixHashCollisionFree_of_shiftBytes {C : MessageCodec} (h : C.sha256 = shiftBytes) :
    C.PrefixHashCollisionFree := by
  apply MessageCodec.prefixHashCollisionFree_of_injective
  · intro text text' heq
    rw [h] at heq
    exact shiftBytes_injective heq
  · intro text
    rw [h]
    exact nul_not_mem_shiftBytes text

/-! ## A template over canonical forms -/

def replyStart : String := "\x7b\"content\":\""

def replyEnd : String := "\",\"role\":\"assistant\"\x7d"

/-- The text of a reply, when the canonical form is that of a reply. -/
def replyText (canonical : String) : Option String :=
  if startsWith canonical replyStart && endsWith canonical replyEnd then
    some (takeChars (canonical.length - replyStart.length - replyEnd.length)
      (dropChars replyStart.length canonical))
  else none

def canonicalLine (canonical : String) : String :=
  match replyText canonical with
  | some text => ">" ++ text
  | none => canonical

def canonicalTemplate (head : Option (List Json) → String) : ChatTemplate :=
  messageWise head (fun m => closedLine (canonicalLine (lineCodec.canonicalJson m))) "\n" ">"

def canonicalCodec (head : Option (List Json) → String) : MessageCodec :=
  (canonicalTemplate head).codec shiftBytes

/-- The first key of each media block. -/
def blockKeys (m : Message) : List Media :=
  match m.content with
  | .arr parts => parts.filterMap (fun part =>
      match part with
      | .obj ((key, _) :: _) => if isMediaBlock part then some key else none
      | _ => none)
  | _ => []

/-- The same codec with images: each media block is read as its first key. -/
def blockKeyCodec (head : Option (List Json) → String) : MessageCodec :=
  { canonicalCodec head with
    processor := some (fun text _ _ => .ok (tokensOf text))
    visionInfoExtractor := fun messages => .ok (some (messages.flatMap blockKeys), none) }

theorem renders_blockKeyCodec (head : Option (List Json) → String) :
    Renders (blockKeyCodec head) (canonicalTemplate head) :=
  ⟨fun _ _ _ => rfl, fun _ => rfl, fun _ _ _ => rfl, textOf_tokensOf _, rfl, rfl, rfl⟩

theorem closes_canonicalTemplate (head : Option (List Json) → String) :
    (canonicalTemplate head).Closes :=
  closes_messageWise (fun _ => ⟨_, rfl⟩) (by decide)

theorem create_canonicalCodec (head : Option (List Json) → String) :
    (canonicalCodec head).create = .ok (canonicalCodec head) :=
  (renders_codec _ _).create (closes_canonicalTemplate head)

theorem create_blockKeyCodec (head : Option (List Json) → String) :
    (blockKeyCodec head).create = .ok (blockKeyCodec head) :=
  (renders_blockKeyCodec head).create (closes_canonicalTemplate head)

theorem blockKeys_eq_nil {m : Message} (h : m.hasMediaBlock = false) : blockKeys m = [] := by
  unfold Message.hasMediaBlock at h
  unfold blockKeys
  cases hcontent : m.content with
  | arr parts =>
    simp only [hcontent, List.any_eq_false] at h
    simp only [List.filterMap_eq_nil_iff]
    intro part hpart
    split
    · exact if_neg (h _ hpart)
    · rfl
  | _ => rfl

theorem extractMultiModalData_blockKeyCodec (head : Option (List Json) → String)
    (messages : List Message) : ∃ images,
      (blockKeyCodec head).extractMultiModalData messages = .ok (images, none) ∧
        images.getD [] = messages.flatMap blockKeys := by
  unfold MessageCodec.extractMultiModalData
  cases hmedia : messages.any Message.hasMediaBlock with
  | true => exact ⟨_, rfl, rfl⟩
  | false =>
    refine ⟨none, rfl, ?_⟩
    symm
    rw [Option.getD_none, List.flatMap_eq_nil_iff]
    intro m hm
    apply blockKeys_eq_nil
    simpa using List.any_eq_false.mp hmedia m hm

/-- Every key of every tool. -/
def toolKeys : Option (List Json) → String
  | none => ""
  | some tools => String.join (tools.map (fun tool =>
      match tool with
      | .obj fields => String.join (fields.map Prod.fst)
      | _ => ""))

end uni_agent
