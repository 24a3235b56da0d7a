-- What a client reads from a stream is what the whole response says. The client is given by the
-- rules of each protocol: chunks are put together by index, blocks are opened, filled and closed.
import UniAgent.Echoes
import UniAgent.Validation

namespace uni_agent

open session (GenerationOutcome)

def Dict.obj? (d : Dict) (key : String) : Option Dict :=
  match d.get? key with
  | some (.obj fields) => some fields
  | _ => none

def Dict.str? (d : Dict) (key : String) : Option String :=
  match d.get? key with
  | some (.str text) => some text
  | _ => none

def Dict.int? (d : Dict) (key : String) : Option Int :=
  match d.get? key with
  | some (.int i) => some i
  | _ => none

def Dict.items (d : Dict) (key : String) : List Json :=
  match d.get? key with
  | some (.arr items) => items
  | _ => []

/-- An outcome with what `decode_response` returns for a message. -/
def decodedOutcome (content : String) (callIds : Nat → String) (calls : List FunctionCall)
    (finishReason : String) (promptTokens completionTokens : Nat) : GenerationOutcome :=
  { assistantMsg := assistantReply content (decodedCalls callIds calls)
    finishReason, promptTokens, completionTokens }

namespace openai

/-! ## Chunks -/

/-- What a client keeps of a turn. -/
structure Turn where
  role : Json
  content : Json
  toolCalls : List Json
  finishReason : Json
  usage : Json

def firstChoice (body : Dict) : Option Dict :=
  match body.items "choices" with
  | [.obj choice] => some choice
  | _ => none

def turnOfResponse (body : Dict) : Option Turn := do
  let choice ← firstChoice body
  let message ← choice.obj? "message"
  return {
    role := (message.get? "role").getD .null
    content := (message.get? "content").getD .null
    toolCalls := message.items "tool_calls"
    finishReason := (choice.get? "finish_reason").getD .null
    usage := (body.get? "usage").getD .null }

/-- A further piece of a string goes behind it, any other value replaces the old one. -/
def mergeValue : Json → Json → Json
  | .str old, .str piece => .str (old ++ piece)
  | _, value => value

def mergeFields (merge : String → Json → Json → Json) (d delta : Dict) : Dict :=
  delta.foldl (fun d field => d.set field.1 (match d.get? field.1 with
    | some old => merge field.1 old field.2
    | none => field.2)) d

/-- The pieces of a name and of arguments follow each other, id and type do not. -/
def mergeToolCall : Dict → Dict → Dict :=
  mergeFields (fun _ old value => match old, value with
    | .obj function, .obj delta => .obj (mergeFields (fun _ => mergeValue) function delta)
    | _, value => value)

/-- One entry of `tool_calls` in a delta: the start of the next call, or a piece of one before. -/
def readToolCall (calls : List Dict) : Json → Option (List Dict)
  | .obj delta => do
    let index ← Dict.int? delta "index"
    let piece := Dict.pop delta "index"
    if index = calls.length then some (calls ++ [piece])
    else if 0 ≤ index then
      (calls[index.toNat]?).map (fun call => calls.set index.toNat (mergeToolCall call piece))
    else none
  | _ => none

structure ChunkReader where
  role : Json := .null
  reasoning : String := ""
  content : String := ""
  toolCalls : List Dict := []
  finishReason : Json := .null
  usage : Json := .null

def readChunk (r : ChunkReader) (chunk : Dict) : Option ChunkReader := do
  let choice ← firstChoice chunk
  let delta ← choice.obj? "delta"
  let toolCalls ← (delta.items "tool_calls").foldlM readToolCall r.toolCalls
  return {
    role := (delta.get? "role").getD r.role
    reasoning := r.reasoning ++ (delta.str? "reasoning_content").getD ""
    content := r.content ++ (delta.str? "content").getD ""
    toolCalls
    finishReason := match choice.get? "finish_reason" with
      | some (.str reason) => .str reason
      | _ => r.finishReason
    usage := (chunk.get? "usage").getD r.usage }

/-- The turn that is put together from all chunks. -/
def turnOfChunks (chunks : List Dict) : Option Turn := do
  let r ← chunks.foldlM readChunk {}
  return ⟨r.role, .str r.content, r.toolCalls.map .obj, r.finishReason, r.usage⟩

theorem pop_set_of_absent {d : Dict} {key : String} (h : ∀ field ∈ d, field.1 ≠ key)
    (value : Json) :
    Dict.pop (Dict.set d key value) key = d := by
  have hany : d.any (fun field => field.1 == key) = false := by
    simpa [List.any_eq_false] using h
  have hfilter : d.filter (fun field => field.1 != key) = d := by
    simpa [List.filter_eq_self] using h
  unfold Dict.pop Dict.set
  rw [hany, if_neg (by simp), List.filter_append, hfilter]
  simp

/-- Calls that are numbered behind those already read come in as they are. -/
theorem readToolCalls_indexed (calls : List Dict) (read : List Dict)
    (hindex : ∀ call ∈ calls, ∀ field ∈ call, field.1 ≠ "index") :
    ((calls.zipIdx read.length).map
      (fun call => Json.obj (Dict.set call.1 "index" (.int call.2)))).foldlM readToolCall read =
        some (read ++ calls) := by
  induction calls generalizing read with
  | nil => simp
  | cons call calls ih =>
    rw [List.forall_mem_cons] at hindex
    have hget : Dict.get? (Dict.set call "index" (.int read.length)) "index" =
        some (.int read.length) := Dict.get?_set_self call "index" _
    have hfirst : readToolCall read (.obj (Dict.set call "index" (.int read.length))) =
        some (read ++ [call]) := by
      simp [readToolCall, Dict.int?, hget, pop_set_of_absent hindex.1]
    have hrest := ih (read ++ [call]) hindex.2
    rw [List.zipIdx_cons, List.map_cons, List.foldlM_cons, hfirst]
    simpa using hrest

theorem readChunk_chunk (envelope : Envelope) (r : ChunkReader) (delta : Dict)
    (finish : Option String) (usage : Option Json) :
    readChunk r (chunk envelope delta finish usage) =
      ((delta.items "tool_calls").foldlM readToolCall r.toolCalls).map (fun toolCalls =>
        { role := (delta.get? "role").getD r.role
          reasoning := r.reasoning ++ (delta.str? "reasoning_content").getD ""
          content := r.content ++ (delta.str? "content").getD ""
          toolCalls
          finishReason := finish.elim r.finishReason .str
          usage := usage.getD r.usage }) := by
  have hchoice : firstChoice (chunk envelope delta finish usage) = some [("index", .int 0),
      ("delta", .obj delta), ("finish_reason", finish.elim .null .str)] := rfl
  have husage : (chunk envelope delta finish usage).get? "usage" = usage := by
    cases usage <;> rfl
  have hdelta : Dict.obj? [("index", .int 0), ("delta", .obj delta),
      ("finish_reason", finish.elim .null .str)] "delta" = some delta := rfl
  have hfinish : Dict.get? [("index", .int 0), ("delta", .obj delta),
      ("finish_reason", finish.elim .null .str)] "finish_reason" =
        some (finish.elim .null .str) := rfl
  unfold readChunk
  rw [hchoice, husage]
  simp only [Option.bind_eq_bind, Option.bind_some, hdelta, hfinish]
  cases (delta.items "tool_calls").foldlM readToolCall r.toolCalls with
  | none => rfl
  | some toolCalls => cases finish <;> rfl

theorem readChunks_text (envelope : Envelope) (r : ChunkReader) (text : String) :
    (textChunk envelope "content" (.str text)).foldlM readChunk r =
      some { r with content := r.content ++ text } := by
  simp only [textChunk]
  by_cases hempty : text = ""
  · simp [hempty]
  · have hread := readChunk_chunk envelope r [("content", .str text)] none none
    rw [if_neg hempty, List.foldlM_cons, hread]
    simp [Dict.items, Dict.str?, Dict.get?, List.lookup_cons]

theorem readChunks_toolCalls (envelope : Envelope) (r : ChunkReader) (calls : List Dict)
    (hindex : ∀ call ∈ calls, ∀ field ∈ call, field.1 ≠ "index") (hr : r.toolCalls = []) :
    (toolCallsChunk envelope calls).foldlM readChunk r = some { r with toolCalls := calls } := by
  cases calls with
  | nil =>
    obtain ⟨role, reasoning, content, toolCalls, finishReason, usage⟩ := r
    cases hr
    rfl
  | cons call calls =>
    have hread := readToolCalls_indexed (call :: calls) [] hindex
    simp only [toolCallsChunk]
    rw [List.foldlM_cons, readChunk_chunk]
    have hitems : ∀ items, Dict.items [("tool_calls", .arr items)] "tool_calls" = items :=
      fun _ => rfl
    rw [hitems, hr]
    simp only [List.length_nil] at hread
    rw [hread]
    simp [Dict.str?, Dict.get?, List.lookup_cons]

theorem toolCalls_without_index (callIds : Nat → String) (calls : List FunctionCall) :
    ∀ call ∈ (decodedCalls callIds calls).getD [], ∀ field ∈ call, field.1 ≠ "index" := by
  unfold decodedCalls
  cases calls with
  | nil => simp
  | cons call calls =>
    simp only [List.isEmpty_cons, Bool.false_eq_true, if_false, Option.getD_some, List.mem_map,
      forall_exists_index, and_imp, forall_apply_eq_imp_iff₂, anthropic.toolCallOf]
    intro call _ field hfield
    simp only [List.mem_cons, List.not_mem_nil, or_false] at hfield
    rcases hfield with rfl | rfl | rfl <;> simp

variable (content : String) (callIds : Nat → String) (calls : List FunctionCall)
  (finishReason : String) (promptTokens completionTokens : Nat)

theorem turnOfResponse_build (envelope : Envelope) (outcome : GenerationOutcome)
    (h : outcome = decodedOutcome content callIds calls finishReason promptTokens
        completionTokens) :
    turnOfResponse (openaiBuildResponse envelope outcome) = some ⟨.str "assistant", .str content,
      ((decodedCalls callIds calls).getD []).map .obj, .str finishReason, usage outcome⟩ := by
  subst h
  unfold decodedOutcome decodedCalls
  cases calls <;> rfl

theorem turnOfChunks_stream (envelope : Envelope) (outcome : GenerationOutcome)
    (h : outcome = decodedOutcome content callIds calls finishReason promptTokens
        completionTokens) :
    turnOfChunks (openaiStreamResponse envelope outcome) = some ⟨.str "assistant", .str content,
      ((decodedCalls callIds calls).getD []).map .obj, .str finishReason, usage outcome⟩ := by
  have hrole : readChunk {} (chunk envelope [("role", .str "assistant")] none none) =
      some { role := .str "assistant" } := rfl
  have htext := readChunks_text envelope { role := .str "assistant" } content
  have hcalls := readChunks_toolCalls envelope
    { role := .str "assistant", content := "" ++ content }
    ((decodedCalls callIds calls).getD []) (toolCalls_without_index callIds calls) rfl
  have hlast : ∀ r : ChunkReader,
      readChunk r (chunk envelope [] (some finishReason) (some (usage outcome))) =
        some { r with finishReason := .str finishReason, usage := usage outcome } := by
    intro r
    rw [readChunk_chunk]
    simp [Dict.items, Dict.str?, Dict.get?]
  have hstream : openaiStreamResponse envelope outcome =
      chunk envelope [("role", .str "assistant")] none none ::
        (textChunk envelope "content" (.str content) ++
          (toolCallsChunk envelope ((decodedCalls callIds calls).getD []) ++
            [chunk envelope [] (some finishReason) (some (usage outcome))])) := by
    subst h
    simp [openaiStreamResponse, decodedOutcome, assistantReply, textChunk]
  unfold turnOfChunks
  rw [hstream, List.foldlM_cons, hrole]
  simp only [Option.bind_eq_bind, Option.bind_some, List.foldlM_append, htext, hcalls,
    List.foldlM_cons, List.foldlM_nil, hlast]
  simp

end openai

namespace anthropic

/-! ## Blocks -/

/-- A block that a client reads: what it has of it, the pieces of its input, and whether it is
still open. -/
structure ReadBlock where
  block : Dict
  partialJson : String := ""
  isOpen : Bool := true

structure MessageReader where
  message : Dict
  blocks : List ReadBlock := []
  stopped : Bool := false

/-- The event is about a block that is open. -/
def MessageReader.update (r : MessageReader) (event : Dict) (f : ReadBlock → Option ReadBlock) :
    Option MessageReader := do
  let index ← event.int? "index"
  let block ← if 0 ≤ index then r.blocks[index.toNat]? else none
  if block.isOpen then
    let block ← f block
    return { r with blocks := r.blocks.set index.toNat block }
  else none

def openBlock (r : MessageReader) (event : Dict) : Option MessageReader := do
  let index ← event.int? "index"
  let block ← event.obj? "content_block"
  if index = r.blocks.length then return { r with blocks := r.blocks ++ [{ block }] } else none

/-- A text grows by its piece, an input by a piece of its JSON. -/
def fillBlock (delta : Dict) (b : ReadBlock) : Option ReadBlock :=
  if hasField (.obj delta) "type" "text_delta" then do
    let piece ← delta.str? "text"
    let text ← b.block.str? "text"
    return { b with block := b.block.set "text" (.str (text ++ piece)) }
  else if hasField (.obj delta) "type" "input_json_delta" then do
    let piece ← delta.str? "partial_json"
    return { b with partialJson := b.partialJson ++ piece }
  else none

/-- The end of a block, where the input is parsed. -/
def closeBlock (loads : String → Option Json) (b : ReadBlock) : Option ReadBlock :=
  if b.partialJson = "" then some { b with isOpen := false }
  else do
    let input ← loads b.partialJson
    return { block := b.block.set "input" input, isOpen := false }

/-- The end of a message gives the stop reason and the last counts. -/
def endMessage (r : MessageReader) (event : Dict) : Option MessageReader := do
  let delta ← event.obj? "delta"
  let usage ← event.obj? "usage"
  let counted ← r.message.obj? "usage"
  let counted := usage.foldl (fun counted field => Dict.set counted field.1 field.2) counted
  let message := delta.foldl (fun message field => Dict.set message field.1 field.2) r.message
  return { r with message := message.set "usage" (.obj counted) }

/-- One event behind the start of the message. -/
def readEvent (loads : String → Option Json) (r : MessageReader) (event : Dict) :
    Option MessageReader :=
  if r.stopped then none
  else if hasField (.obj event) "type" "content_block_start" then openBlock r event
  else if hasField (.obj event) "type" "content_block_delta" then do
    let delta ← event.obj? "delta"
    r.update event (fillBlock delta)
  else if hasField (.obj event) "type" "content_block_stop" then r.update event (closeBlock loads)
  else if hasField (.obj event) "type" "message_delta" then endMessage r event
  else if hasField (.obj event) "type" "message_stop" then
    if r.blocks.all (fun b => !b.isOpen) then some { r with stopped := true } else none
  else none

/-- The message that is read from all events. -/
def messageOfEvents (loads : String → Option Json) : List Dict → Option Dict
  | [] => none
  | start :: events =>
    if hasField (.obj start) "type" "message_start" then do
      let message ← start.obj? "message"
      let r ← events.foldlM (readEvent loads) { message }
      if r.stopped then
        return r.message.set "content" (.arr (r.blocks.map (fun b => .obj b.block)))
      else none
    else none

/-- The indices of the blocks in events of one kind. -/
def indicesOf (kind : String) (events : List Dict) : List Int :=
  (events.filter (fun event => hasField (.obj event) "type" kind)).filterMap
    (fun event => Dict.int? event "index")

/-- A block as the adapter makes it, whose input is read from the text that is sent for it. -/
inductive Readable (dumps : Json → String) (loads : String → Option Json) : Dict → Prop
  | text (text : String) : Readable dumps loads (textBlock text)
  | toolUse (id name : Json) (input : Dict) (hnonempty : dumps (.obj input) ≠ "")
      (hinput : loads (dumps (.obj input)) = some (.obj input)) :
      Readable dumps loads (toolUseBlock id name (.obj input))

variable {dumps : Json → String} {loads : String → Option Json}

/-- The block that came last is the one an event is about. -/
theorem update_last (r : MessageReader) (event : Dict) {b b' : ReadBlock}
    {f : ReadBlock → Option ReadBlock} (hindex : event.int? "index" = some (r.blocks.length : Int))
    (hopen : b.isOpen = true) (hf : f b = some b') :
    MessageReader.update { r with blocks := r.blocks ++ [b] } event f =
      some { r with blocks := r.blocks ++ [b'] } := by
  unfold MessageReader.update
  simp [hindex, hopen, hf]

theorem fillBlock_start {block : Dict} (h : Readable dumps loads block) : ∃ b : ReadBlock,
    b.isOpen = true ∧ fillBlock (blockDelta dumps block) { block := blockStart block } = some b ∧
      closeBlock loads b = some { block, isOpen := false } := by
  cases h with
  | text text =>
    refine ⟨{ block := textBlock ("" ++ text) }, rfl, rfl, ?_⟩
    rw [String.empty_append]
    rfl
  | toolUse id name input hnonempty hinput =>
    refine ⟨{ block := toolUseBlock id name (.obj []), partialJson := "" ++ dumps (.obj input) },
      rfl, rfl, ?_⟩
    rw [String.empty_append]
    simp only [closeBlock, hnonempty, if_false, hinput]
    rfl

/-- The three events of a block, behind as many blocks as its index says. -/
theorem readEvents_block {r : MessageReader} {block : Dict} (h : Readable dumps loads block)
    (hr : r.stopped = false) :
    (blockEvents dumps r.blocks.length block).foldlM (readEvent loads) r =
      some { r with blocks := r.blocks ++ [{ block, isOpen := false }] } := by
  obtain ⟨b, hopen, hfill, hclose⟩ := fillBlock_start h
  have hstart : readEvent loads r [("type", .str "content_block_start"),
      ("index", .int r.blocks.length), ("content_block", .obj (blockStart block))] =
        some { r with blocks := r.blocks ++ [{ block := blockStart block }] } := by
    simp [readEvent, hr, hasField, Json.isText, openBlock, Dict.int?, Dict.obj?, Dict.get?,
      List.lookup_cons]
  have hdelta : readEvent loads { r with blocks := r.blocks ++ [{ block := blockStart block }] }
      [("type", .str "content_block_delta"), ("index", .int r.blocks.length),
        ("delta", .obj (blockDelta dumps block))] = some { r with blocks := r.blocks ++ [b] } := by
    have hupdate := update_last r [("type", .str "content_block_delta"),
      ("index", .int r.blocks.length), ("delta", .obj (blockDelta dumps block))] rfl rfl hfill
    rw [← hupdate]
    simp [readEvent, hr, hasField, Json.isText, Dict.obj?, Dict.get?, List.lookup_cons]
  have hstop : readEvent loads { r with blocks := r.blocks ++ [b] }
      [("type", .str "content_block_stop"), ("index", .int r.blocks.length)] =
        some { r with blocks := r.blocks ++ [{ block, isOpen := false }] } := by
    have hupdate := update_last r [("type", .str "content_block_stop"),
      ("index", .int r.blocks.length)] rfl hopen hclose
    rw [← hupdate]
    simp [readEvent, hr, hasField, Json.isText, Dict.get?]
  unfold blockEvents
  simp only [List.foldlM_cons, List.foldlM_nil, hstart, hdelta, hstop, Option.bind_eq_bind,
    Option.bind_some]
  rfl

/-- All blocks, one behind the other. -/
theorem readEvents_blocks {blocks : List Dict} (h : ∀ block ∈ blocks, Readable dumps loads block)
    {r : MessageReader} (hr : r.stopped = false) :
    ((blocks.zipIdx r.blocks.length).flatMap
      (fun block => blockEvents dumps block.2 block.1)).foldlM (readEvent loads) r =
        some { r with blocks :=
            r.blocks ++ blocks.map (fun block => { block, isOpen := false }) } := by
  induction blocks generalizing r with
  | nil => simp
  | cons block blocks ih =>
    rw [List.forall_mem_cons] at h
    have hrest := ih h.2 (r := { r with blocks := r.blocks ++ [{ block, isOpen := false }] }) hr
    rw [List.length_append, List.length_singleton] at hrest
    rw [List.zipIdx_cons, List.flatMap_cons, List.foldlM_append, readEvents_block h.1 hr]
    simpa using hrest

/-- The events of a message with these blocks. -/
def eventsOf (dumps : Json → String) (messageId model : String) (blocks : List Dict)
    (stopReason : String) (promptTokens completionTokens : Nat) : List Dict :=
  [[("type", .str "message_start"),
      ("message", .obj (messageBody messageId model [] .null (usage promptTokens 0)))]] ++
    blocks.zipIdx.flatMap (fun block => blockEvents dumps block.2 block.1) ++
    [[("type", .str "message_delta"),
        ("delta", .obj [("stop_reason", .str stopReason), ("stop_sequence", .null)]),
        ("usage", usage promptTokens completionTokens)],
      [("type", .str "message_stop")]]

variable (messageId model stopReason : String) (promptTokens completionTokens : Nat)

theorem messageOfEvents_eventsOf {blocks : List Dict}
    (h : ∀ block ∈ blocks, Readable dumps loads block) :
    messageOfEvents loads (eventsOf dumps messageId model blocks stopReason promptTokens
      completionTokens) = some (messageBody messageId model blocks (.str stopReason)
        (usage promptTokens completionTokens)) := by
  have hblocks : ∀ message, (blocks.zipIdx.flatMap
      (fun block => blockEvents dumps block.2 block.1)).foldlM (readEvent loads)
        ⟨message, [], false⟩ =
          some ⟨message, blocks.map (fun block => ⟨block, "", false⟩), false⟩ :=
    fun message => readEvents_blocks h (r := ⟨message, [], false⟩) rfl
  have hdelta : ∀ read : List ReadBlock, readEvent loads
      ⟨messageBody messageId model [] .null (usage promptTokens 0), read, false⟩
      [("type", .str "message_delta"),
        ("delta", .obj [("stop_reason", .str stopReason), ("stop_sequence", .null)]),
        ("usage", usage promptTokens completionTokens)] =
      some ⟨messageBody messageId model [] (.str stopReason) (usage promptTokens completionTokens),
        read, false⟩ := fun _ => rfl
  have hstop : ∀ message, readEvent loads
      ⟨message, blocks.map (fun block => ⟨block, "", false⟩), false⟩
        [("type", .str "message_stop")] =
        some ⟨message, blocks.map (fun block => ⟨block, "", false⟩), true⟩ := by
    intro message
    simp [readEvent, hasField, Json.isText, Dict.get?]
  have hstart : messageOfEvents loads (eventsOf dumps messageId model blocks stopReason promptTokens
      completionTokens) = (do
        let r ← (blocks.zipIdx.flatMap (fun block => blockEvents dumps block.2 block.1) ++
          [[("type", .str "message_delta"),
              ("delta", .obj [("stop_reason", .str stopReason), ("stop_sequence", .null)]),
              ("usage", usage promptTokens completionTokens)],
            [("type", .str "message_stop")]]).foldlM (readEvent loads)
          ⟨messageBody messageId model [] .null (usage promptTokens 0), [], false⟩
        if r.stopped then
          return r.message.set "content" (.arr (r.blocks.map (fun b => .obj b.block)))
        else none) := rfl
  rw [hstart]
  simp only [List.foldlM_append, hblocks, List.foldlM_cons, List.foldlM_nil, hdelta, hstop,
    Option.bind_eq_bind, Option.bind_some]
  simp [messageBody, Dict.set]

theorem indicesOf_append (kind : String) (events events' : List Dict) :
    indicesOf kind (events ++ events') = indicesOf kind events ++ indicesOf kind events' := by
  simp [indicesOf]

theorem indicesOf_blocks (blocks : List Dict) (start : Nat) {kind : String}
    (h : ∀ index block, indicesOf kind (blockEvents dumps index block) = [(index : Int)]) :
    indicesOf kind ((blocks.zipIdx start).flatMap
      (fun block => blockEvents dumps block.2 block.1)) =
        (List.range' start blocks.length).map (fun i => (i : Int)) := by
  induction blocks generalizing start with
  | nil => rfl
  | cons block blocks ih =>
    rw [List.zipIdx_cons, List.flatMap_cons, indicesOf_append, h, ih, List.length_cons,
      List.range'_succ]
    rfl

/-- Each block is opened once and closed once, in the order of the blocks. -/
theorem indicesOf_eventsOf (blocks : List Dict) {kind : String}
    (hkind : kind = "content_block_start" ∨ kind = "content_block_stop") :
    indicesOf kind (eventsOf dumps messageId model blocks stopReason promptTokens
      completionTokens) = (List.range blocks.length).map (fun i => (i : Int)) := by
  have hblock : ∀ index block,
      indicesOf kind (blockEvents dumps index block) = [(index : Int)] := by
    intro index block
    rcases hkind with rfl | rfl <;> rfl
  have hothers : ∀ message delta usage : Json,
      indicesOf kind [[("type", .str "message_start"), ("message", message)]] = [] ∧
        indicesOf kind [[("type", .str "message_delta"), ("delta", delta), ("usage", usage)],
          [("type", .str "message_stop")]] = [] := by
    intro message delta usage
    rcases hkind with rfl | rfl <;> exact ⟨rfl, rfl⟩
  unfold eventsOf
  rw [indicesOf_append, indicesOf_append, (hothers _ .null .null).1, (hothers .null _ _).2,
    indicesOf_blocks blocks 0 hblock, List.range_eq_range']
  simp

end anthropic

/-! ## Both forms of a reply -/

/-- Where `json.loads` of the library returns, it returns what the text says, and `json.dumps`
writes floats that can be read. -/
structure LoadsJson (py : PythonLibrary) (floatRepr : PyFloat → String)
    (floatOf : String → PyFloat) : Prop where
  loads : ∀ text value, py.jsonLoads text = .value value → Json.loads floatOf text = some value
  floats : Json.FloatText floatRepr floatOf

/-- `json.dumps(value, ensure_ascii=False)` -/
def dumps (floatRepr : PyFloat → String) : Json → String := Json.write ⟨", ", ": "⟩ floatRepr

theorem separators_readable : (⟨", ", ": "⟩ : Json.Separators).Readable := by
  have hspace : ∀ c ∈ [' '], Json.isSpace c = true := by
    intro c hc
    rw [List.mem_singleton.mp hc]
    rfl
  exact ⟨⟨[' '], rfl, hspace⟩, ⟨[' '], rfl, hspace⟩⟩

theorem dumps_obj_ne_empty (floatRepr : PyFloat → String) (fields : Dict) :
    dumps floatRepr (.obj fields) ≠ "" := by
  intro h
  unfold dumps at h
  rw [Json.write] at h
  have htext := congrArg String.toList h
  simp [String.toList_append] at htext

section Replies

variable {py : PythonLibrary} {floatRepr : PyFloat → String} {floatOf : String → PyFloat}

/-- The input of a tool call, from the text of its arguments, is read back from what is sent. -/
theorem loads_toolCallInput (hlib : LoadsJson py floatRepr floatOf) {text : String} {input : Dict}
    (h : anthropic.toolCallInput py (.str text) = .ok input) :
    Json.loads floatOf (dumps floatRepr (.obj input)) = some (.obj input) := by
  have hempty : Json.loads floatOf (dumps floatRepr (.obj [])) = some (.obj []) := by
    have hread : Json.loads floatOf "\x7b\x7d" = some (.obj []) := rfl
    exact Json.loads_write hlib.floats separators_readable hread
  simp only [anthropic.toolCallInput] at h
  split at h
  · rename_i parsed hparsed
    cases h
    exact Json.loads_write hlib.floats separators_readable (hlib.loads _ _ hparsed)
  · cases h
    exact hempty
  · cases h
    exact hempty
  · cases h

theorem forall_mem_ite {α : Type} {P : α → Prop} (c : Prop) [Decidable c] {xs ys : List α}
    (hxs : ∀ x ∈ xs, P x) (hys : ∀ y ∈ ys, P y) : ∀ x ∈ if c then xs else ys, P x := by
  split
  · exact hxs
  · exact hys

theorem decodedCalls_form {callIds : Nat → String} {calls : List FunctionCall} {call : Dict}
    (h : call ∈ (decodedCalls callIds calls).getD []) :
    ∃ id name text, call = anthropic.toolCallOf id name (.str text) := by
  unfold decodedCalls at h
  split at h
  · simp at h
  · obtain ⟨decoded, _, rfl⟩ := List.mem_map.mp h
    exact ⟨_, _, _, rfl⟩

/-- The blocks of a reply can be read from their events. -/
theorem readable_blocks (hlib : LoadsJson py floatRepr floatOf) (content : String)
    (callIds : Nat → String) (calls : List FunctionCall) {blocks : List Dict}
    (h : anthropic.outcomeToBlocks py (assistantReply content (decodedCalls callIds calls)) =
      .ok blocks) :
    ∀ block ∈ blocks, anthropic.Readable (dumps floatRepr) (Json.loads floatOf) block := by
  simp only [anthropic.outcomeToBlocks, assistantReply, bind_eq_ok] at h
  obtain ⟨toolUses, htoolUses, h⟩ := h
  have htools : ∀ block ∈ toolUses,
      anthropic.Readable (dumps floatRepr) (Json.loads floatOf) block := by
    intro block hblock
    obtain ⟨call, hcall, hok⟩ := validation.exists_item_of_mapM htoolUses hblock
    obtain ⟨id, name, text, hform⟩ := decodedCalls_form (List.fst_mem_of_mem_zipIdx hcall)
    simp only [hform, anthropic.blockOfToolCall, bind_eq_ok] at hok
    obtain ⟨input, hinput, hok⟩ := hok
    cases hok
    exact .toolUse _ _ input (dumps_obj_ne_empty floatRepr input) (loads_toolCallInput hlib hinput)
  have htext : ∀ text, ∀ block ∈ [anthropic.textBlock text],
      anthropic.Readable (dumps floatRepr) (Json.loads floatOf) block := by
    intro text
    simpa using .text text
  have htexts := forall_mem_ite (content = "") (List.forall_mem_nil _) (htext content)
  cases h
  exact forall_mem_ite _ (htext "") (List.forall_mem_append.mpr ⟨htexts, htools⟩)

end Replies

/-- A stream carries the turn of the whole response, on both routes: its chunks are put together
to the same turn, and its events to the same message, with each block opened once and closed
once. Where the input of a call cannot be parsed, both raise the same error. -/
theorem stream_carries_the_response {py : PythonLibrary} {floatRepr : PyFloat → String}
    {floatOf : String → PyFloat} (hlib : LoadsJson py floatRepr floatOf) (content : String)
    (callIds : Nat → String) (calls : List FunctionCall) (finishReason : String)
    (promptTokens completionTokens : Nat) (envelope : openai.Envelope) (messageId model : String)
    (outcome : GenerationOutcome)
    (h : outcome = decodedOutcome content callIds calls finishReason promptTokens
        completionTokens) :
    (∃ turn, openai.turnOfChunks (openai.openaiStreamResponse envelope outcome) = some turn ∧
      openai.turnOfResponse (openai.openaiBuildResponse envelope outcome) = some turn) ∧
    (anthropic.anthropicStreamResponse py (dumps floatRepr) messageId model outcome).map
        (anthropic.messageOfEvents (Json.loads floatOf)) =
      (anthropic.anthropicBuildResponse py messageId model outcome).map some ∧
    ∀ events body,
      anthropic.anthropicStreamResponse py (dumps floatRepr) messageId model outcome = .ok events →
      anthropic.anthropicBuildResponse py messageId model outcome = .ok body →
        ∀ kind, kind = "content_block_start" ∨ kind = "content_block_stop" →
          anthropic.indicesOf kind events =
            (List.range (body.items "content").length).map (fun i => (i : Int)) := by
  refine ⟨⟨_, openai.turnOfChunks_stream content callIds calls finishReason promptTokens
    completionTokens envelope outcome h, openai.turnOfResponse_build content callIds calls
    finishReason promptTokens completionTokens envelope outcome h⟩, ?_⟩
  cases hblocks : anthropic.outcomeToBlocks py outcome.assistantMsg with
  | error e =>
    have hstream : anthropic.anthropicStreamResponse py (dumps floatRepr) messageId model outcome =
        .error e := by
      unfold anthropic.anthropicStreamResponse
      rw [hblocks]
      rfl
    have hbuild : anthropic.anthropicBuildResponse py messageId model outcome = .error e := by
      unfold anthropic.anthropicBuildResponse
      rw [hblocks]
      rfl
    rw [hstream, hbuild]
    exact ⟨rfl, by simp⟩
  | ok blocks =>
    have hstream : anthropic.anthropicStreamResponse py (dumps floatRepr) messageId model outcome =
        .ok (anthropic.eventsOf (dumps floatRepr) messageId model blocks
          (anthropic.stopReasonOf outcome.finishReason) outcome.promptTokens
          outcome.completionTokens) := by
      unfold anthropic.anthropicStreamResponse
      rw [hblocks]
      rfl
    have hbuild : anthropic.anthropicBuildResponse py messageId model outcome =
        .ok (anthropic.messageBody messageId model blocks
          (.str (anthropic.stopReasonOf outcome.finishReason))
          (anthropic.usage outcome.promptTokens outcome.completionTokens)) := by
      unfold anthropic.anthropicBuildResponse
      rw [hblocks]
      rfl
    have hreadable := readable_blocks hlib content callIds calls (by rw [← hblocks, h]; rfl)
    rw [hstream, hbuild]
    refine ⟨?_, ?_⟩
    · rw [Except.map, Except.map, anthropic.messageOfEvents_eventsOf _ _ _ _ _ hreadable]
    · intro events body hevents hbody kind hkind
      cases hevents
      cases hbody
      have hitems : Dict.items (anthropic.messageBody messageId model blocks
          (.str (anthropic.stopReasonOf outcome.finishReason))
          (anthropic.usage outcome.promptTokens outcome.completionTokens)) "content" =
            blocks.map .obj := rfl
      rw [anthropic.indicesOf_eventsOf _ _ _ _ _ blocks hkind, hitems, List.length_map]

theorem loadsJson_plainPython : LoadsJson plainPython Json.bitsText Json.floatOfBits := by
  refine ⟨fun text value h => ?_, Json.floatText_bitsText⟩
  simp only [plainPython] at h
  cases hvalue : Json.loads Json.floatOfBits text with
  | none => simp [hvalue] at h
  | some other =>
    rw [hvalue] at h
    cases h
    rfl

/-- A text and two calls, one with an object for its arguments and one with none. -/
def twoCalls : GenerationOutcome :=
  decodedOutcome "hi" (fun _ => "call") [⟨"f", "\x7b\"a\": 1\x7d"⟩, ⟨"g", "none"⟩] "tool_calls" 3 2

theorem stream_carries_the_response_twoCalls :
    (∃ turn, openai.turnOfChunks (openai.openaiStreamResponse ⟨"id", 0, "model"⟩ twoCalls) =
        some turn ∧
      openai.turnOfResponse (openai.openaiBuildResponse ⟨"id", 0, "model"⟩ twoCalls) = some turn) ∧
    (anthropic.anthropicStreamResponse plainPython (dumps Json.bitsText) "id" "model" twoCalls).map
        (anthropic.messageOfEvents (Json.loads Json.floatOfBits)) =
      (anthropic.anthropicBuildResponse plainPython "id" "model" twoCalls).map some := by
  have h := stream_carries_the_response loadsJson_plainPython "hi" (fun _ => "call")
    [⟨"f", "\x7b\"a\": 1\x7d"⟩, ⟨"g", "none"⟩] "tool_calls" 3 2 ⟨"id", 0, "model"⟩ "id" "model"
    twoCalls rfl
  exact ⟨h.1, h.2.1⟩

end uni_agent
