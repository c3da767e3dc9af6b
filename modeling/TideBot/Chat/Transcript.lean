/-
  Stored output as messages for a provider (`utils/misc.py`).

  `convert_output_to_messages` goes through the items once.  Texts, tool calls and their outputs are held
  back, and written at the first item that is neither a call nor an output.  If the calls have different
  ids and each output comes after its call, with calls and outputs only between the two, then what is written
  is paired: after an assistant message come the outputs of all its calls, and of no others
  (`convertOutputToMessages_valid`).

  The fields of an item have the types that the code gives them.  Text that is no string is made one by
  `py.str`, and arguments that are no string by `dumps`.
-/
import TideBot.Chat.Usage

namespace TideBot

open Lib

/-! ## Items and messages -/

/-- A part of a message item. -/
inductive MessagePart where
  | outputText (text : Text)
  | other

/-- A part of what a tool has put out. -/
inductive ToolOutputPart where
  | inputText (text : Json)
  | inputImage (imageUrl : Text)
  | other

/-- An item of an output; of a part of a reasoning the text, if it has one. -/
inductive OutputItem where
  | message (content : List MessagePart)
  | functionCall (callId name : Text) (arguments : Json) (status : Text)
  | functionCallOutput (callId : Text) (output : List ToolOutputPart)
  | reasoning (summary content : List (Option Text)) (startTag endTag : Option Text) (reasoningDetails : Json)
  | codeInterpreter (code : Text) (output : Json)
  /-- of a type that is skipped -/
  | other

structure ToolCall where
  id : Text
  name : Text
  arguments : Text

inductive ChatMessage where
  | assistant (content : Text) (toolCalls : List ToolCall) (thinking reasoningContent : Option Text)
    (reasoningDetails : List Json)
  | tool (toolCallId content : Text) (imageUrls : List Text)
  /-- the images of tools -/
  | user (imageUrls : List Text)

/-- `item_type in {'function_call', 'function_call_output'}` -/
def OutputItem.isTool : OutputItem → Bool
  | .functionCall .. | .functionCallOutput .. => true
  | _ => false

/-- The id of a call. -/
def OutputItem.callId? : OutputItem → Option Text
  | .functionCall callId .. => some callId
  | _ => none

/-- The id of the call that an output is for. -/
def OutputItem.outputId? : OutputItem → Option Text
  | .functionCallOutput callId _ => some callId
  | _ => none

/-- The text of a message item. -/
def OutputItem.text : OutputItem → Text
  | .message content => content.flatMap fun
    | .outputText text => text
    | .other => []
  | _ => []

/-! ## `convert_output_to_messages` -/

/-- The variables of the loop. -/
structure Conversion where
  messages : List ChatMessage
  pendingToolCalls : List ToolCall
  pendingContent : List Text
  pendingReasoning : List Text
  pendingReasoningDetails : List Json
  pendingToolImageUrls : List Text
  pendingToolOutputs : List (Text × List ToolOutputPart)

def Conversion.start : Conversion := ⟨[], [], [], [], [], [], []⟩

/-- `'\n'.join(texts)` -/
def joinLines (texts : List Text) : Text := (Text.lit "\n").intercalate texts

section
variable (py : PyConv) (dumps : Json → Text)

/-- `call_id in function_call_ids` -/
def isAnswered (output : List OutputItem) (callId : Text) : Bool :=
  callId ≠ [] &&
    (output.any fun
      | .functionCall id _ _ status => id = callId && ["completed", "failed", "rejected"].any fun s => status = .lit s
      | _ => false) &&
    output.any fun item => item.outputId? = some callId

/-- `flush_pending` -/
def flushPending (reasoningFormat : Option Text) (s : Conversion) : Conversion :=
  if s.pendingContent.isEmpty && s.pendingToolCalls.isEmpty && s.pendingReasoning.isEmpty &&
      s.pendingReasoningDetails.isEmpty then s
  else
    let reasoning := if s.pendingReasoning.isEmpty then none else some (joinLines s.pendingReasoning)
    let native := reasoningFormat = some (.lit "thinking")
    { s with
      messages := s.messages ++ [.assistant (joinLines s.pendingContent) s.pendingToolCalls
        (if native then reasoning else none) (if native then none else reasoning) s.pendingReasoningDetails]
      pendingContent := []
      pendingToolCalls := []
      pendingReasoning := []
      pendingReasoningDetails := [] }

/-- `flush_tool_images` -/
def flushToolImages (s : Conversion) : Conversion :=
  if s.pendingToolImageUrls.isEmpty then s
  else { s with messages := s.messages ++ [.user s.pendingToolImageUrls], pendingToolImageUrls := [] }

/-- The text of what a tool has put out. -/
def toolText (output : List ToolOutputPart) : Text :=
  output.flatMap fun
    | .inputText (.str text) => text
    | .inputText value => py.str value
    | _ => []

/-- The images of what a tool has put out. -/
def toolImages (output : List ToolOutputPart) : List Text :=
  output.filterMap fun
    | .inputImage url => if url = [] then none else some url
    | _ => none

/-- The loop of `flush_tool_outputs`. -/
def writeToolOutput (flattenToolImages : Bool) (s : Conversion) (o : Text × List ToolOutputPart) : Conversion :=
  if flattenToolImages then
    { s with
      messages := s.messages ++ [.tool o.1 (toolText py o.2) []]
      pendingToolImageUrls := s.pendingToolImageUrls ++ toolImages o.2 }
  else { s with messages := s.messages ++ [.tool o.1 (toolText py o.2) (toolImages o.2)] }

/-- `flush_tool_outputs` -/
def flushToolOutputs (reasoningFormat : Option Text) (flattenToolImages : Bool) (s : Conversion) : Conversion :=
  if s.pendingToolOutputs.isEmpty then s
  else
    let s := flushPending reasoningFormat s
    { s.pendingToolOutputs.foldl (writeToolOutput py flattenToolImages) s with pendingToolOutputs := [] }

/-- The details of a reasoning that are replayed. -/
def replayedDetails (raw : Bool) (reasoningDetails : Json) : List Json :=
  if raw && reasoningDetails.truthy then
    (match reasoningDetails with
      | .arr details => details
      | detail => [detail]).filter fun detail => detail.isObj &&
        (!(detail.get (.lit "format")).eqStr (.lit "anthropic-claude-v1") || (detail.get (.lit "signature")).truthy)
  else []

/-- What is shown of the result of code. -/
def codeOutputText (output : Json) : Option Text :=
  match output with
  | .obj _ =>
    let text := (output.get (.lit "stdout")).or (output.get (.lit "result"))
    if text.truthy then some (py.str text) else none
  | _ => if py.str output = [] then none else some (py.str output)

/-- What is shown of code and of its result. -/
def codePieces (code : Text) (codeOutput : Json) : List Text :=
  let tagged := fun (tag : String) (text : Text) =>
    Text.lit "<" ++ Text.lit tag ++ Text.lit ">\n" ++ text ++ Text.lit "\n</" ++ Text.lit tag ++ Text.lit ">"
  let shown := if codeOutput.truthy then (codeOutputText py codeOutput).toList else []
  (if code = [] then [] else [tagged "code_interpreter" code]) ++ shown.map (tagged "code_interpreter_output")

/-- What an item adds. -/
def addItem (output : List OutputItem) (raw : Bool) (reasoningFormat : Option Text) (s : Conversion) :
    OutputItem → Conversion
  | .message content =>
    let text := (OutputItem.message content).text
    if text = [] then s else { s with pendingContent := s.pendingContent ++ [text] }
  | .functionCall callId name arguments _ =>
    if isAnswered output callId then
      let arguments := match arguments with
        | .str arguments => arguments
        | arguments => dumps arguments
      { s with pendingToolCalls := s.pendingToolCalls ++ [⟨callId, name, arguments⟩] }
    else s
  | .functionCallOutput callId parts =>
    if isAnswered output callId then { s with pendingToolOutputs := s.pendingToolOutputs ++ [(callId, parts)] } else s
  | .reasoning summary content startTag endTag reasoningDetails =>
    let details := replayedDetails raw reasoningDetails
    let text := (if summary.isEmpty then content else summary).flatMap fun part => part.getD []
    if reasoningFormat.all (fun format => format = []) && details.isEmpty then s
    else
      let s :=
        if text = [] then s
        else if reasoningFormat = some (.lit "think_tags") then
          let tagged := startTag.getD (.lit "<think>") ++ text ++ endTag.getD (.lit "</think>")
          { s with pendingContent := s.pendingContent ++ [tagged] }
        else if reasoningFormat = some (.lit "thinking") ∨ reasoningFormat = some (.lit "reasoning_content") then
          { s with pendingReasoning := s.pendingReasoning ++ [text] }
        else s
      { s with pendingReasoningDetails := s.pendingReasoningDetails ++ details }
  | .codeInterpreter code codeOutput =>
    { s with pendingContent := s.pendingContent ++ codePieces py code codeOutput }
  | .other => s

/-- One round of the loop. -/
def convertItem (output : List OutputItem) (raw : Bool) (reasoningFormat : Option Text) (flattenToolImages : Bool)
    (s : Conversion) (item : OutputItem) : Conversion :=
  let s := if item.isTool then s else flushToolImages (flushToolOutputs py reasoningFormat flattenToolImages s)
  addItem py dumps output raw reasoningFormat s item

/-- `completed_tool_call_ids` -/
def completedToolCallIds (messages : List ChatMessage) : List Text :=
  messages.filterMap fun
    | .tool toolCallId _ _ => if toolCallId = [] then none else some toolCallId
    | _ => none

/-- `requested_tool_call_ids` -/
def requestedToolCallIds (messages : List ChatMessage) : List Text :=
  messages.flatMap fun
    | .assistant _ toolCalls _ _ _ => (toolCalls.map ToolCall.id).filter fun id => id ≠ []
    | _ => []

/-- `reconcile_tool_pairs` -/
def reconcileToolPairs (messages : List ChatMessage) : List ChatMessage :=
  messages.filterMap fun
    | .tool toolCallId content imageUrls =>
      if toolCallId ∈ requestedToolCallIds messages then some (.tool toolCallId content imageUrls) else none
    | .assistant content toolCalls thinking reasoningContent details =>
      if toolCalls.isEmpty then some (.assistant content toolCalls thinking reasoningContent details)
      else
        let validToolCalls := toolCalls.filter fun toolCall => toolCall.id ∈ completedToolCallIds messages
        if !validToolCalls.isEmpty then some (.assistant content validToolCalls thinking reasoningContent details)
        else if content.strip ≠ [] ∨ reasoningContent.any (fun text => text ≠ []) then
          some (.assistant content [] thinking reasoningContent details)
        else none
    | .user imageUrls => some (.user imageUrls)

/-- `convert_output_to_messages` -/
def convertOutputToMessages (output : List OutputItem) (raw : Bool) (reasoningFormat : Option Text)
    (flattenToolImages : Bool) : List ChatMessage :=
  let s := output.foldl (convertItem py dumps output raw reasoningFormat flattenToolImages) .start
  let s := flushToolImages (flushToolOutputs py reasoningFormat flattenToolImages s)
  reconcileToolPairs (flushPending reasoningFormat s).messages

end

/-! ## What a transcript is -/

/-- The ids of the calls among `items`. -/
def callIds (items : List OutputItem) : List Text := items.filterMap OutputItem.callId?

/-- The ids of the calls that the outputs among `items` are for. -/
def outputIds (items : List OutputItem) : List Text := items.filterMap OutputItem.outputId?

@[simp] lemma callIds_append (xs ys : List OutputItem) : callIds (xs ++ ys) = callIds xs ++ callIds ys :=
  List.filterMap_append

@[simp] lemma outputIds_append (xs ys : List OutputItem) : outputIds (xs ++ ys) = outputIds xs ++ outputIds ys :=
  List.filterMap_append

/-- The calls have different ids and at most one output each, which comes after its call with calls and
outputs only between the two. -/
structure CallsInOrder (output : List OutputItem) : Prop where
  nodup : (callIds output).Nodup
  nonempty : [] ∉ callIds output
  once : ∀ id ∈ callIds output, (outputIds output).count id ≤ 1
  follows : ∀ before item after id, output = before ++ item :: after → item.outputId? = some id →
    id ∈ callIds output → ∃ earlier between, before = earlier ++ between ∧ (∀ x ∈ between, x.isTool = true) ∧
      id ∈ callIds between

/-- After an assistant message with calls comes one tool message for each of them; no others are there. -/
inductive Paired : List ChatMessage → Prop
  | nil : Paired []
  | user (imageUrls : List Text) {rest : List ChatMessage} : Paired rest → Paired (.user imageUrls :: rest)
  | plain (content : Text) (thinking reasoningContent : Option Text) (details : List Json)
      {rest : List ChatMessage} : Paired rest →
      Paired (.assistant content [] thinking reasoningContent details :: rest)
  | round (content : Text) (toolCalls : List ToolCall) (thinking reasoningContent : Option Text)
      (details : List Json) (results : List (Text × Text × List Text)) {rest : List ChatMessage} :
      toolCalls ≠ [] → (toolCalls.map ToolCall.id).Nodup → [] ∉ toolCalls.map ToolCall.id →
      (results.map Prod.fst).Perm (toolCalls.map ToolCall.id) → Paired rest →
      Paired (.assistant content toolCalls thinking reasoningContent details ::
        (results.map fun r => ChatMessage.tool r.1 r.2.1 r.2.2) ++ rest)

/-- The contents of the assistant messages. -/
def contents (messages : List ChatMessage) : List Text :=
  messages.filterMap fun
    | .assistant content .. => some content
    | _ => none

/-- What an item adds to the content. -/
def OutputItem.pieces (py : PyConv) (reasoningFormat : Option Text) : OutputItem → List Text
  | .message content => if (OutputItem.message content).text = [] then [] else [(OutputItem.message content).text]
  | .reasoning summary content startTag endTag _ =>
    let text := (if summary.isEmpty then content else summary).flatMap fun part => part.getD []
    if text ≠ [] ∧ reasoningFormat = some (.lit "think_tags") then
      [startTag.getD (.lit "<think>") ++ text ++ endTag.getD (.lit "</think>")]
    else []
  | .codeInterpreter code codeOutput => codePieces py code codeOutput
  | _ => []

/-! ## Answered calls -/

section
variable {output before run after : List OutputItem} {id : Text} {item : OutputItem}

theorem isAnswered_ne_nil (h : isAnswered output id = true) : id ≠ [] := by
  simp only [isAnswered, Bool.and_eq_true, decide_eq_true_eq] at h
  exact h.1.1

theorem isAnswered_mem_callIds (h : isAnswered output id = true) : id ∈ callIds output := by
  simp only [isAnswered, Bool.and_eq_true, List.any_eq_true] at h
  obtain ⟨⟨-, item, hitem, hid⟩, -⟩ := h
  refine List.mem_filterMap.2 ⟨item, hitem, ?_⟩
  cases item with
  | functionCall callId name arguments status =>
    simp only [Bool.and_eq_true, decide_eq_true_eq] at hid
    exact congrArg some hid.1
  | message _ | functionCallOutput _ _ | reasoning _ _ _ _ _ | codeInterpreter _ _ | other => simp at hid

theorem isAnswered_mem_outputIds (h : isAnswered output id = true) : id ∈ outputIds output := by
  simp only [isAnswered, Bool.and_eq_true, List.any_eq_true, decide_eq_true_eq] at h
  obtain ⟨-, item, hitem, hid⟩ := h
  exact List.mem_filterMap.2 ⟨item, hitem, hid⟩

theorem isTool_of_outputId (h : item.outputId? = some id) : item.isTool = true := by
  cases item <;> simp_all [OutputItem.outputId?, OutputItem.isTool]

/-- Where a run of calls and outputs is over, each output in it has its call in it. -/
theorem mem_callIds_of_mem_outputIds (h : CallsInOrder (before ++ run ++ after))
    (hbefore : ∀ x ∈ before.getLast?, x.isTool = false) (hcall : id ∈ callIds (before ++ run ++ after))
    (hid : id ∈ outputIds run) : id ∈ callIds run := by
  obtain ⟨item, hitem, hout⟩ := List.mem_filterMap.1 hid
  obtain ⟨us, vs, rfl⟩ := List.append_of_mem hitem
  obtain ⟨earlier, between, hsplit, htool, hmem⟩ :=
    h.follows (before ++ us) item (vs ++ after) id (by simp) hout hcall
  obtain ⟨as, -, rfl⟩ | ⟨bs, rfl, rfl⟩ := List.append_eq_append_iff.1 hsplit
  · simp only [callIds_append, List.mem_append]
    exact .inl (.inr hmem)
  · cases bs using List.reverseRecOn with
    | nil =>
      rw [List.nil_append] at hmem
      rw [callIds_append]
      exact List.mem_append_left _ hmem
    | append_singleton bs b =>
      have hb := hbefore b (by simp)
      rw [htool b (by simp)] at hb
      cases hb

/-- Where a run of calls and outputs is over, each answered call in it has its output in it. -/
theorem mem_outputIds_of_mem_callIds (h : CallsInOrder (before ++ run ++ after))
    (hafter : ∀ x ∈ after.head?, x.isTool = false) (hanswered : isAnswered (before ++ run ++ after) id = true)
    (hid : id ∈ callIds run) : id ∈ outputIds run := by
  have hcall := isAnswered_mem_callIds hanswered
  obtain ⟨item, hitem, hout⟩ := List.mem_filterMap.1 (isAnswered_mem_outputIds hanswered)
  have hnodup := h.nodup
  simp only [callIds_append, List.nodup_append] at hnodup
  obtain hitem | hitem := List.mem_append.1 hitem
  · obtain hitem | hitem := List.mem_append.1 hitem
    · -- an output before the run would follow its call, which is in the run
      obtain ⟨us, vs, rfl⟩ := List.append_of_mem hitem
      obtain ⟨earlier, between, hsplit, -, hmem⟩ := h.follows us item (vs ++ run ++ after) id (by simp) hout hcall
      rw [hsplit] at hnodup
      exact absurd rfl (hnodup.1.2.2 id (by simp [hmem]) id hid)
    · exact List.mem_filterMap.2 ⟨item, hitem, hout⟩
  · -- one after the run would have something other than calls and outputs between
    obtain ⟨us, vs, rfl⟩ := List.append_of_mem hitem
    obtain ⟨earlier, between, hsplit, htool, hmem⟩ :=
      h.follows (before ++ run ++ us) item vs id (by simp) hout hcall
    cases us with
    | nil =>
      have := hafter item (by simp)
      simp [isTool_of_outputId hout] at this
    | cons u us =>
      have hu : u.isTool = false := hafter u (by simp)
      have hus : id ∈ callIds (u :: us) := by
        obtain ⟨as, -, has⟩ | ⟨bs, -, hbs⟩ := List.append_eq_append_iff.1 hsplit
        · rw [has, callIds_append]
          exact List.mem_append_right _ hmem
        · have hu' := htool u (by rw [hbs]; simp)
          rw [hu] at hu'
          cases hu'
      exact absurd rfl (hnodup.2.2 id (List.mem_append_right _ hid) id (by
        rw [callIds_append]
        exact List.mem_append_left _ hus))

end

/-! ## Paired messages -/

section
variable {messages rest : List ChatMessage} {id : Text}

theorem Paired.append (h : Paired messages) (hrest : Paired rest) : Paired (messages ++ rest) := by
  induction h with
  | nil => exact hrest
  | user imageUrls _ ih => exact .user imageUrls ih
  | plain content thinking reasoningContent details _ ih => exact .plain content thinking reasoningContent details ih
  | round content toolCalls thinking reasoningContent details results hne hnodup hnil hperm _ ih =>
    rw [List.append_assoc]
    exact .round content toolCalls thinking reasoningContent details results hne hnodup hnil hperm ih

theorem Paired.mem_completed_iff (h : Paired messages) :
    id ∈ completedToolCallIds messages ↔ id ∈ requestedToolCallIds messages := by
  induction h with
  | nil => rfl
  | user imageUrls _ ih => exact ih
  | plain content thinking reasoningContent details _ ih => exact ih
  | round content toolCalls thinking reasoningContent details results hne hnodup hnil hperm _ ih =>
    have htool : id ∈ completedToolCallIds (results.map fun r => ChatMessage.tool r.1 r.2.1 r.2.2) ↔
        id ∈ (toolCalls.map ToolCall.id).filter fun id => id ≠ [] := by
      rw [List.mem_filter, ← hperm.mem_iff, completedToolCallIds, List.filterMap_map]
      simp only [List.mem_filterMap, List.mem_map, Function.comp_apply, Option.ite_none_left_eq_some, Option.some.injEq,
        decide_eq_true_eq]
      constructor
      · rintro ⟨r, hr, hne, rfl⟩
        exact ⟨⟨r, hr, rfl⟩, hne⟩
      · rintro ⟨⟨r, hr, rfl⟩, hne⟩
        exact ⟨r, hr, hne, rfl⟩
    have hrequested : requestedToolCallIds (results.map fun r => ChatMessage.tool r.1 r.2.1 r.2.2) = [] := by
      rw [requestedToolCallIds, List.flatMap_map, List.flatMap_eq_nil_iff]
      intro r _
      rfl
    simp only [completedToolCallIds, requestedToolCallIds, List.filterMap_append, List.flatMap_append,
      List.mem_append, List.cons_append, List.filterMap_cons, List.flatMap_cons] at htool hrequested ih ⊢
    rw [htool, hrequested, ih]
    simp

theorem Paired.tool_ne_nil {content : Text} {imageUrls : List Text} (h : Paired messages)
    (hid : .tool id content imageUrls ∈ messages) : id ≠ [] := by
  induction h with
  | nil => cases hid
  | user _ _ ih | plain _ _ _ _ _ ih =>
    obtain heq | hid := List.mem_cons.1 hid
    · cases heq
    · exact ih hid
  | round content toolCalls thinking reasoningContent details results hne hnodup hnil hperm _ ih =>
    obtain hid | hid := List.mem_append.1 hid
    · obtain heq | hid := List.mem_cons.1 hid
      · cases heq
      · obtain ⟨r, hr, heq⟩ := List.mem_map.1 hid
        injection heq with heq
        rintro rfl
        exact hnil (hperm.mem_iff.1 (List.mem_map.2 ⟨r, hr, heq⟩))
    · exact ih hid

theorem Paired.toolCall_ne_nil {content : Text} {toolCalls : List ToolCall} {thinking reasoningContent : Option Text}
    {details : List Json} {toolCall : ToolCall} (h : Paired messages)
    (hmem : .assistant content toolCalls thinking reasoningContent details ∈ messages) (hcall : toolCall ∈ toolCalls) :
    toolCall.id ≠ [] := by
  induction h with
  | nil => cases hmem
  | user _ _ ih =>
    obtain heq | hmem := List.mem_cons.1 hmem
    · cases heq
    · exact ih hmem
  | plain _ _ _ _ _ ih =>
    obtain heq | hmem := List.mem_cons.1 hmem
    · injection heq with _ heq
      rw [heq] at hcall
      cases hcall
    · exact ih hmem
  | round content toolCalls thinking reasoningContent details results hne hnodup hnil hperm _ ih =>
    obtain hmem | hmem := List.mem_append.1 hmem
    · obtain heq | hmem := List.mem_cons.1 hmem
      · injection heq with _ heq
        subst heq
        intro hid
        exact hnil (List.mem_map.2 ⟨toolCall, hcall, hid⟩)
      · obtain ⟨r, -, heq⟩ := List.mem_map.1 hmem
        cases heq
    · exact ih hmem

theorem Paired.reconcile_eq (h : Paired messages) : reconcileToolPairs messages = messages := by
  conv_rhs => rw [← List.filterMap_some (l := messages)]
  refine List.filterMap_congr fun m hm => ?_
  cases m with
  | user imageUrls => rfl
  | tool toolCallId content imageUrls =>
    have hne := h.tool_ne_nil hm
    have hid : toolCallId ∈ requestedToolCallIds messages :=
      h.mem_completed_iff.1 (List.mem_filterMap.2 ⟨_, hm, by simp [hne]⟩)
    exact if_pos hid
  | assistant content toolCalls thinking reasoningContent details =>
    have hids : ∀ toolCall ∈ toolCalls, toolCall.id ∈ completedToolCallIds messages := fun toolCall hcall =>
      h.mem_completed_iff.2 (List.mem_flatMap.2 ⟨_, hm, List.mem_filter.2
        ⟨List.mem_map_of_mem hcall, by simpa using h.toolCall_ne_nil hm hcall⟩⟩)
    have hfilter : toolCalls.filter (fun toolCall => toolCall.id ∈ completedToolCallIds messages) = toolCalls :=
      List.filter_eq_self.2 fun toolCall hcall => by simpa using hids toolCall hcall
    cases toolCalls with
    | nil => rfl
    | cons toolCall toolCalls =>
      dsimp only
      rw [if_neg (by simp), if_pos (by rw [hfilter]; rfl), hfilter]

end

/-! ## The run -/

/-- What is so between two items, after `done`: held back are the answered calls and the outputs of the run of
calls and outputs that `done` ends with, and the content since the last message. -/
structure Conversion.After (s : Conversion) (py : PyConv) (reasoningFormat : Option Text)
    (output done : List OutputItem) : Prop where
  run : ∃ before run, done = before ++ run ∧ (∀ x ∈ before.getLast?, x.isTool = false) ∧
    (∀ x ∈ run, x.isTool = true) ∧
    s.pendingToolCalls.map ToolCall.id = (callIds run).filter (isAnswered output) ∧
    s.pendingToolOutputs.map Prod.fst = (outputIds run).filter (isAnswered output)
  paired : Paired s.messages
  content : ∃ pieces : List (List Text), contents s.messages = pieces.map joinLines ∧
    pieces.flatten ++ s.pendingContent = done.flatMap (OutputItem.pieces py reasoningFormat)

/-- The same where no call and no output is held back. -/
structure Conversion.Written (s : Conversion) (py : PyConv) (reasoningFormat : Option Text)
    (done : List OutputItem) : Prop where
  calls : s.pendingToolCalls = []
  outputs : s.pendingToolOutputs = []
  paired : Paired s.messages
  content : ∃ pieces : List (List Text), contents s.messages = pieces.map joinLines ∧
    pieces.flatten ++ s.pendingContent = done.flatMap (OutputItem.pieces py reasoningFormat)

section
variable {py : PyConv} {dumps : Json → Text} {output done after : List OutputItem} {raw : Bool}
variable {reasoningFormat : Option Text} {flattenToolImages : Bool} {s : Conversion} {item : OutputItem}

theorem flushPending_cases (reasoningFormat : Option Text) (s : Conversion) :
    (flushPending reasoningFormat s).pendingToolCalls = [] ∧
    (flushPending reasoningFormat s).pendingContent = [] ∧
    (flushPending reasoningFormat s).pendingToolOutputs = s.pendingToolOutputs ∧
    (flushPending reasoningFormat s = s ∨ ∃ thinking reasoningContent, (flushPending reasoningFormat s).messages =
      s.messages ++ [.assistant (joinLines s.pendingContent) s.pendingToolCalls thinking reasoningContent
        s.pendingReasoningDetails]) := by
  unfold flushPending
  split
  case isTrue h =>
    simp only [Bool.and_eq_true, List.isEmpty_iff] at h
    exact ⟨h.1.1.2, h.1.1.1, rfl, .inl rfl⟩
  case isFalse => exact ⟨rfl, rfl, rfl, .inr ⟨_, _, rfl⟩⟩

theorem foldl_writeToolOutput (py : PyConv) (flattenToolImages : Bool) (s : Conversion)
    (outputs : List (Text × List ToolOutputPart)) :
    ∃ (results : List (Text × Text × List Text)) (urls : List Text), results.map Prod.fst = outputs.map Prod.fst ∧
      outputs.foldl (writeToolOutput py flattenToolImages) s = { s with
        messages := s.messages ++ results.map fun r => ChatMessage.tool r.1 r.2.1 r.2.2
        pendingToolImageUrls := s.pendingToolImageUrls ++ urls } := by
  induction outputs generalizing s with
  | nil => exact ⟨[], [], rfl, by simp⟩
  | cons o outputs ih =>
    obtain ⟨results, urls, hids, heq⟩ := ih (writeToolOutput py flattenToolImages s o)
    rw [List.foldl_cons, heq, writeToolOutput]
    split_ifs
    · exact ⟨(o.1, toolText py o.2, []) :: results, toolImages o.2 ++ urls, by simp [hids], by simp⟩
    · exact ⟨(o.1, toolText py o.2, toolImages o.2) :: results, urls, by simp [hids], by simp⟩

/-- Where a run is over, the calls held back are those of the outputs held back. -/
theorem Conversion.After.perm (h : s.After py reasoningFormat output done) (horder : CallsInOrder output)
    (hout : output = done ++ after) (hafter : ∀ x ∈ after.head?, x.isTool = false) :
    (s.pendingToolOutputs.map Prod.fst).Perm (s.pendingToolCalls.map ToolCall.id) ∧
      (s.pendingToolCalls.map ToolCall.id).Nodup ∧ [] ∉ s.pendingToolCalls.map ToolCall.id := by
  obtain ⟨before, run, rfl, hbefore, -, hcalls, houtputs⟩ := h.run
  have hnodup : ((callIds run).filter (isAnswered output)).Nodup := by
    have hsub : (callIds run).Sublist (callIds output) := by
      rw [hout, callIds_append, callIds_append]
      exact (List.sublist_append_right _ _).trans (List.sublist_append_left _ _)
    exact (horder.nodup.sublist hsub).filter _
  have honce : ((outputIds run).filter (isAnswered output)).Nodup := by
    rw [List.nodup_iff_count_le_one]
    intro id
    by_cases hid : id ∈ (outputIds run).filter (isAnswered output)
    · have hcall := isAnswered_mem_callIds (List.mem_filter.1 hid).2
      calc ((outputIds run).filter (isAnswered output)).count id
        _ ≤ (outputIds run).count id := (List.filter_sublist).count_le id
        _ ≤ (outputIds output).count id := by
          rw [hout, outputIds_append, outputIds_append]
          exact ((List.sublist_append_right _ _).trans (List.sublist_append_left _ _)).count_le id
        _ ≤ 1 := horder.once id hcall
    · rw [List.count_eq_zero_of_not_mem hid]
      exact Nat.zero_le 1
  rw [hcalls, houtputs]
  refine ⟨(List.perm_ext_iff_of_nodup honce hnodup).2 fun id => ?_, hnodup, ?_⟩
  · simp only [List.mem_filter]
    refine and_congr_left fun hanswered => ?_
    rw [hout] at horder hanswered
    exact ⟨mem_callIds_of_mem_outputIds horder hbefore (isAnswered_mem_callIds hanswered),
      mem_outputIds_of_mem_callIds horder hafter hanswered⟩
  · intro hnil
    exact isAnswered_ne_nil (List.mem_filter.1 hnil).2 rfl

@[simp] theorem contents_append {xs ys : List ChatMessage} : contents (xs ++ ys) = contents xs ++ contents ys :=
  List.filterMap_append

@[simp] theorem contents_assistant {content : Text} {toolCalls : List ToolCall}
    {thinking reasoningContent : Option Text} {details : List Json} :
    contents [.assistant content toolCalls thinking reasoningContent details] = [content] :=
  rfl

@[simp] theorem contents_user {imageUrls : List Text} : contents [.user imageUrls] = [] :=
  rfl

@[simp] theorem contents_tools {results : List (Text × Text × List Text)} :
    contents (results.map fun r => ChatMessage.tool r.1 r.2.1 r.2.2) = [] := by
  rw [contents, List.filterMap_map, List.filterMap_eq_nil_iff]
  intro r _
  rfl

theorem Conversion.After.settle (flattenToolImages : Bool) (h : s.After py reasoningFormat output done)
    (horder : CallsInOrder output) (hout : output = done ++ after) (hafter : ∀ x ∈ after.head?, x.isTool = false) :
    (flushToolOutputs py reasoningFormat flattenToolImages s).Written py reasoningFormat done := by
  obtain ⟨hperm, hnodup, hnil⟩ := h.perm horder hout hafter
  obtain ⟨pieces, hcontents, hpieces⟩ := h.content
  rw [flushToolOutputs]
  split_ifs with hempty
  · rw [List.isEmpty_iff] at hempty
    rw [hempty, List.map_nil, List.nil_perm, List.map_eq_nil_iff] at hperm
    exact ⟨hperm, hempty, h.paired, pieces, hcontents, hpieces⟩
  · have hcalls : s.pendingToolCalls ≠ [] := by
      intro hnone
      rw [hnone, List.map_nil, List.perm_nil, List.map_eq_nil_iff] at hperm
      exact hempty (List.isEmpty_iff.2 hperm)
    obtain ⟨hcalls', hcontent', houtputs', hsame | ⟨thinking, reasoningContent, hmessages⟩⟩ :=
      flushPending_cases reasoningFormat s
    · rw [hsame] at hcalls'
      exact absurd hcalls' hcalls
    · obtain ⟨results, urls, hids, heq⟩ := foldl_writeToolOutput py flattenToolImages
        (flushPending reasoningFormat s) (flushPending reasoningFormat s).pendingToolOutputs
      dsimp only
      rw [heq]
      refine ⟨hcalls', rfl, ?_, pieces ++ [s.pendingContent], ?_, ?_⟩
      · rw [hmessages, List.append_assoc]
        refine h.paired.append ?_
        have := Paired.round (joinLines s.pendingContent) s.pendingToolCalls thinking reasoningContent
          s.pendingReasoningDetails results hcalls hnodup hnil (by rw [hids, houtputs']; exact hperm) .nil
        simpa using this
      · rw [contents_append, contents_tools, hmessages]
        simp [hcontents]
      · simp [hcontent', hpieces]

theorem Conversion.Written.images (h : s.Written py reasoningFormat done) :
    (flushToolImages s).Written py reasoningFormat done := by
  obtain ⟨hcalls, houtputs, hpaired, pieces, hcontents, hpieces⟩ := h
  rw [flushToolImages]
  split_ifs
  · exact ⟨hcalls, houtputs, hpaired, pieces, hcontents, hpieces⟩
  · refine ⟨hcalls, houtputs, hpaired.append (.user _ .nil), pieces, ?_, hpieces⟩
    simp [hcontents]

theorem Conversion.Written.last (h : s.Written py reasoningFormat done) :
    Paired (flushPending reasoningFormat s).messages ∧ ∃ pieces : List (List Text),
      contents (flushPending reasoningFormat s).messages = pieces.map joinLines ∧
      pieces.flatten = done.flatMap (OutputItem.pieces py reasoningFormat) := by
  obtain ⟨hcalls, houtputs, hpaired, pieces, hcontents, hpieces⟩ := h
  obtain ⟨-, hcontent', -, hsame | ⟨thinking, reasoningContent, hmessages⟩⟩ := flushPending_cases reasoningFormat s
  · rw [hsame] at hcontent' ⊢
    rw [hcontent', List.append_nil] at hpieces
    exact ⟨hpaired, pieces, hcontents, hpieces⟩
  · rw [hmessages, hcalls]
    refine ⟨hpaired.append (.plain _ _ _ _ .nil), pieces ++ [s.pendingContent], ?_, ?_⟩
    · simp [hcontents]
    · simp [hpieces]

theorem addItem_of_not_tool (py : PyConv) (dumps : Json → Text) (output : List OutputItem) (raw : Bool)
    (reasoningFormat : Option Text) (s : Conversion) (hitem : item.isTool = false) :
    (addItem py dumps output raw reasoningFormat s item).messages = s.messages ∧
    (addItem py dumps output raw reasoningFormat s item).pendingToolCalls = s.pendingToolCalls ∧
    (addItem py dumps output raw reasoningFormat s item).pendingToolOutputs = s.pendingToolOutputs ∧
    (addItem py dumps output raw reasoningFormat s item).pendingContent =
      s.pendingContent ++ item.pieces py reasoningFormat := by
  cases item with
  | functionCall _ _ _ _ | functionCallOutput _ _ => cases hitem
  | other => exact ⟨rfl, rfl, rfl, (List.append_nil _).symm⟩
  | codeInterpreter code codeOutput => exact ⟨rfl, rfl, rfl, rfl⟩
  | message content =>
    simp only [addItem, OutputItem.pieces]
    split_ifs <;> simp
  | reasoning summary content startTag endTag details =>
    simp only [addItem, OutputItem.pieces]
    split_ifs <;> simp_all

theorem Conversion.After.step (h : s.After py reasoningFormat output done) (horder : CallsInOrder output)
    (hout : output = done ++ item :: after) :
    (convertItem py dumps output raw reasoningFormat flattenToolImages s item).After py reasoningFormat output
      (done ++ [item]) := by
  cases hitem : item.isTool with
  | false =>
    have hafter : ∀ x ∈ (item :: after).head?, x.isTool = false := by
      rintro x ⟨⟩
      exact hitem
    obtain ⟨hcalls, houtputs, hpaired, pieces, hcontents, hpieces⟩ :=
      (h.settle flattenToolImages horder hout hafter).images
    obtain ⟨hmessages', hcalls', houtputs', hcontent'⟩ := addItem_of_not_tool py dumps output raw reasoningFormat
      (flushToolImages (flushToolOutputs py reasoningFormat flattenToolImages s)) hitem
    rw [convertItem, if_neg (by simp [hitem])]
    refine ⟨⟨done ++ [item], [], by simp, by simpa using hitem, by simp, ?_, ?_⟩, ?_, pieces, ?_, ?_⟩
    · simp [hcalls', hcalls, callIds]
    · simp [houtputs', houtputs, outputIds]
    · rwa [hmessages']
    · rw [hmessages', hcontents]
    · rw [hcontent', ← List.append_assoc, hpieces]
      simp
  | true =>
    obtain ⟨⟨before, run, rfl, hbefore, hrun, hcalls, houtputs⟩, hpaired, pieces, hcontents, hpieces⟩ := h
    rw [convertItem, if_pos hitem]
    have hrun' : ∀ x ∈ run ++ [item], x.isTool = true := by
      intro x hx
      obtain hx | hx := List.mem_append.1 hx
      · exact hrun x hx
      · rwa [List.mem_singleton.1 hx]
    cases item with
    | message _ | reasoning _ _ _ _ _ | codeInterpreter _ _ | other => cases hitem
    | functionCall callId | functionCallOutput callId =>
      by_cases hid : isAnswered output callId
      all_goals
        simp only [addItem, hid, if_true, if_false, Bool.false_eq_true]
        refine ⟨⟨before, run ++ [_], by simp, hbefore, hrun', ?_, ?_⟩, hpaired, pieces, hcontents, ?_⟩
        · simp [hcalls, callIds, OutputItem.callId?, hid]
        · simp [houtputs, outputIds, OutputItem.outputId?, hid]
        · simpa [OutputItem.pieces] using hpieces

theorem Conversion.After.run_all {todo : List OutputItem} (dumps : Json → Text) (raw flattenToolImages : Bool)
    (h : s.After py reasoningFormat output done) (horder : CallsInOrder output) (hout : output = done ++ todo) :
    (todo.foldl (convertItem py dumps output raw reasoningFormat flattenToolImages) s).After py reasoningFormat output
      output := by
  induction todo generalizing done s with
  | nil =>
    rw [List.append_nil] at hout
    rw [hout] at h ⊢
    exact h
  | cons item todo ih => exact ih (h.step horder hout) (by rw [hout]; simp)

theorem Conversion.after_start : Conversion.start.After py reasoningFormat output [] :=
  ⟨⟨[], [], rfl, by simp, by simp, rfl, rfl⟩, .nil, [], rfl, rfl⟩

end

/-- **What is stored becomes a transcript**: calls and outputs are paired, and the contents of the assistant
messages are what the items add to them, in their order. -/
theorem convertOutputToMessages_valid (py : PyConv) (dumps : Json → Text) (output : List OutputItem) (raw : Bool)
    (reasoningFormat : Option Text) (flattenToolImages : Bool) (horder : CallsInOrder output) :
    Paired (convertOutputToMessages py dumps output raw reasoningFormat flattenToolImages) ∧
      ∃ pieces : List (List Text),
        contents (convertOutputToMessages py dumps output raw reasoningFormat flattenToolImages) =
          pieces.map joinLines ∧
        pieces.flatten = output.flatMap (OutputItem.pieces py reasoningFormat) := by
  have hafter : (output.foldl (convertItem py dumps output raw reasoningFormat flattenToolImages) .start).After py
      reasoningFormat output output := Conversion.after_start.run_all dumps raw flattenToolImages horder rfl
  have hlast := (hafter.settle flattenToolImages horder (List.append_nil _).symm (by simp)).images.last
  rw [convertOutputToMessages, hlast.1.reconcile_eq]
  exact hlast

/-- Two calls, of which the second is not answered yet, between two texts. -/
def Sample.interrupted : List OutputItem :=
  [.message [.outputText (.lit "Let me look.")],
    .functionCall (.lit "c1") (.lit "search") (.str (.lit "{}")) (.lit "completed"),
    .functionCall (.lit "c2") (.lit "search") (.str (.lit "{}")) (.lit "in_progress"),
    .functionCallOutput (.lit "c1") [.inputText (.str (.lit "found"))],
    .functionCallOutput (.lit "c0") [],
    .message [.outputText (.lit "Here it is.")]]

theorem convertOutputToMessages_valid_interrupted :
    Paired (convertOutputToMessages Sample.noText (fun _ => []) Sample.interrupted true none false) ∧
      ∃ pieces : List (List Text),
        contents (convertOutputToMessages Sample.noText (fun _ => []) Sample.interrupted true none false) =
          pieces.map joinLines ∧
        pieces.flatten = [.lit "Let me look.", .lit "Here it is."] := by
  refine convertOutputToMessages_valid Sample.noText (fun _ => []) Sample.interrupted true none false
    ⟨by decide, by decide, by decide, ?_⟩
  intro before item after id hout hitem hcall
  rw [Sample.interrupted] at hout
  match before, hout with
  | [], hout | [_], hout | [_, _], hout | [_, _, _, _, _], hout =>
    cases hout
    cases hitem
  | [_, _, _], hout =>
    cases hout
    cases hitem
    exact ⟨[_], [_, _], rfl, by decide, by decide⟩
  | [_, _, _, _], hout =>
    cases hout
    cases hitem
    exact absurd hcall (by decide)
  | _ :: _ :: _ :: _ :: _ :: _ :: _, hout => simp at hout

end TideBot
