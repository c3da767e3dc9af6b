/-
  What an OpenAI stream brings, item by item, and the message that its events are put together to.

  However the stream is cut into chunks, lines and deltas, the generator handles one item after the other
  (`forEach_streamItems`): the lines and the objects in between only say which items there are.

  `assemble` is the other end: what a client makes of the events.
-/
import TideBot.Chat.AnthropicBlocks
import TideBot.Lib.Mapping

namespace TideBot

open Lib

/-! ## Items -/

deriving instance DecidableEq for MessageUsage

/-- What is handled by itself; `closing` stands before the tool calls of a delta. -/
inductive ChunkItem where
  | usage (read : MessageUsage)
  | reasoning (reasoningContent : Json)
  | content (text : Json)
  | closing
  | toolCall (toolCall : Json)
  | finish (finishReason : Json)
deriving DecidableEq

/-- Without effect: no content, or no finish reason; nor does a client see what the others do to text and tools. -/
def ChunkItem.relevant : ChunkItem → Bool
  | .content text => text.truthy
  | .toolCall _ => true
  | .finish finishReason => !finishReason.isNone
  | _ => false

/-- What the generator does with an item. -/
def runItem (loads : Text → Except Json.LoadError Json) (draw : List Json → Text) (item : ChunkItem)
    (s : AnthropicStream) : StreamProgress :=
  match item with
  | .usage read => .goesOn { s with usage := s.usage.update read }
  | .reasoning reasoningContent => .goesOn (s.handleReasoning reasoningContent)
  | .content text => .goesOn (s.handleContent text)
  | .closing => .goesOn s.closeThinking.closeText
  | .toolCall toolCall => AnthropicStream.handleToolCall loads draw toolCall s
  | .finish finishReason => AnthropicStream.handleFinish finishReason s

/-- The tool calls of a delta. -/
def toolCallItems (toolCalls : Json) : Option (List ChunkItem) :=
  if toolCalls.truthy then toolCalls.iter.map fun calls => .closing :: calls.map .toolCall else some []

/-- The items of a line's choices, if they have the shape that is read. -/
def choiceItems (choices : Json) : Option (List ChunkItem) :=
  if choices.truthy then do
    let (delta, finishReason, message) ← AnthropicStream.choiceFields choices
    let reasoningContent ← AnthropicStream.reasoningOf delta message
    let calls ← toolCallItems (← AnthropicStream.toolCallsOf delta message)
    return .reasoning reasoningContent :: .content (delta.get (.lit "content")) :: calls ++ [.finish finishReason]
  else some []

/-- The items of a line's data. -/
def dataItems (data : Json) : Option (List ChunkItem) := do
  let usageData ← data.item "usage"
  let choices ← data.itemD "choices" (.arr [])
  let usage ← (if usageData.isObj then (readUsage usageData).map fun read => [ChunkItem.usage read] else some [])
  return usage ++ (← choiceItems choices)

/-- The items of a line; what is no JSON is passed over. -/
def lineItems (loads : Text → Except Json.LoadError Json) (line : Text) : Option (List ChunkItem) :=
  match AnthropicStream.dataString line with
  | none => some []
  | some data =>
    match loads data with
    | .ok data => dataItems data
    | .error .decodeError => some []
    | .error _ => none

/-- The items of a chunk. -/
def chunkItems (loads : Text → Except Json.LoadError Json) (chunk : Option Text) : Option (List ChunkItem) := do
  let items ← (AnthropicStream.chunkLines (← chunk)).mapM (lineItems loads)
  return items.flatten

/-- The items of a stream. -/
def streamItems (loads : Text → Except Json.LoadError Json) (chunks : List (Option Text)) :
    Option (List ChunkItem) := do
  let items ← chunks.mapM (chunkItems loads)
  return items.flatten

section
variable {α β : Type} {f : α → AnthropicStream → StreamProgress} {g : β → AnthropicStream → StreamProgress}
  {loads : Text → Except Json.LoadError Json} {draw : List Json → Text} {s : AnthropicStream}

theorem andThen_assoc {p : StreamProgress} {f g : AnthropicStream → StreamProgress} :
    (p.andThen f).andThen g = p.andThen fun s => (f s).andThen g := by
  cases p <;> rfl

theorem forEach_singleton {a : α} : forEach f [a] s = f a s := by
  rw [forEach]
  cases f a s <;> rfl

theorem forEach_append {as bs : List α} : forEach f (as ++ bs) s = (forEach f as s).andThen (forEach f bs) := by
  induction as generalizing s with
  | nil => rfl
  | cons a as ih =>
    rw [List.cons_append, forEach, forEach, andThen_assoc]
    exact congrArg _ (funext fun s => ih)

theorem forEach_flatten {as : List α} {bss : List (List β)}
    (h : List.Forall₂ (fun a bs => ∀ s, f a s = forEach g bs s) as bss) : forEach f as s = forEach g bss.flatten s := by
  induction h generalizing s with
  | nil => rfl
  | cons ha _ ih =>
    rw [forEach, List.flatten_cons, forEach_append, ha]
    exact congrArg _ (funext fun s => ih)

theorem forEach_map {h : α → β} {as : List α} : forEach g (as.map h) s = forEach (fun a => g (h a)) as s := by
  induction as generalizing s with
  | nil => rfl
  | cons a as ih =>
    rw [List.map_cons, forEach, forEach]
    exact congrArg _ (funext fun s => ih)

theorem handleToolCalls_items {toolCalls : Json} {items : List ChunkItem} (h : toolCallItems toolCalls = some items) :
    AnthropicStream.handleToolCalls loads draw toolCalls s = forEach (runItem loads draw) items s := by
  unfold toolCallItems at h
  unfold AnthropicStream.handleToolCalls
  split_ifs at h ⊢
  · obtain ⟨calls, hcalls, rfl⟩ := Option.map_eq_some_iff.1 h
    rw [hcalls]
    show _ = forEach (runItem loads draw) (calls.map .toolCall) s.closeThinking.closeText
    rw [forEach_map]
    rfl
  · cases h
    rfl

theorem handleChoices_items {choices : Json} {items : List ChunkItem} (h : choiceItems choices = some items) :
    AnthropicStream.handleChoices loads draw choices s = forEach (runItem loads draw) items s := by
  unfold choiceItems at h
  unfold AnthropicStream.handleChoices
  split_ifs at h ⊢
  · simp only [Option.bind_eq_bind, Option.bind_eq_some_iff, Option.pure_def, Option.some.injEq] at h
    obtain ⟨⟨delta, finishReason, message⟩, hchoice, _, hreasoning, toolCalls, htools, calls, hcalls, rfl⟩ := h
    rw [hchoice]
    dsimp only
    rw [hreasoning]
    dsimp only
    rw [htools]
    dsimp only
    rw [handleToolCalls_items hcalls, List.cons_append, List.cons_append]
    show _ = forEach (runItem loads draw) (calls ++ [.finish finishReason]) _
    rw [forEach_append]
    exact congrArg _ (funext fun s => forEach_singleton.symm)
  · cases h
    rfl

theorem handleData_items {data : Json} {items : List ChunkItem} (h : dataItems data = some items) :
    AnthropicStream.handleData loads draw data s = forEach (runItem loads draw) items s := by
  unfold dataItems at h
  simp only [Option.bind_eq_bind, Option.bind_eq_some_iff, Option.pure_def, Option.some.injEq] at h
  obtain ⟨usageData, hdata, choices, hchoices, usage, husage, items', hitems, rfl⟩ := h
  unfold AnthropicStream.handleData
  rw [hdata, hchoices, forEach_append]
  dsimp only
  split_ifs at husage ⊢
  · obtain ⟨read, hread, rfl⟩ := Option.map_eq_some_iff.1 husage
    rw [hread]
    exact handleChoices_items hitems
  · cases husage
    exact handleChoices_items hitems

theorem handleLine_items {line : Text} {items : List ChunkItem} (h : lineItems loads line = some items) :
    AnthropicStream.handleLine loads draw line s = forEach (runItem loads draw) items s := by
  unfold lineItems at h
  unfold AnthropicStream.handleLine
  rcases hdata : AnthropicStream.dataString line with _ | data
  · rw [hdata] at h
    cases h
    rfl
  · rw [hdata] at h
    dsimp only at h ⊢
    rcases hloads : loads data with e | data
    · rw [hloads] at h
      cases e with
      | decodeError =>
        cases h
        rfl
      | valueError | recursionError => cases h
    · rw [hloads] at h
      exact handleData_items h

/-- **A stream is its items.** -/
theorem forEach_streamItems {chunks : List (Option Text)} {items : List ChunkItem}
    (h : streamItems loads chunks = some items) :
    forEach (AnthropicStream.handleChunk loads draw) chunks s = forEach (runItem loads draw) items s := by
  unfold streamItems at h
  simp only [Option.bind_eq_bind, Option.bind_eq_some_iff, Option.pure_def, Option.some.injEq] at h
  obtain ⟨iss, hiss, rfl⟩ := h
  refine forEach_flatten ((mapM_eq_some_iff.1 hiss).imp fun chunk items hchunk s => ?_)
  unfold chunkItems at hchunk
  simp only [Option.bind_eq_bind, Option.bind_eq_some_iff, Option.pure_def, Option.some.injEq] at hchunk
  obtain ⟨text, rfl, iss, hiss, rfl⟩ := hchunk
  exact forEach_flatten ((mapM_eq_some_iff.1 hiss).imp fun line items hline s => handleLine_items hline)

end

/-! ## The message of the events -/

/-- A block of a tool call, with the parts of its input. -/
structure AssembledTool where
  index : ℤ
  id : Json
  name : Json
  parts : List Text

/-- What a client has of a message: the text, the tool calls and the stop reason. -/
structure AssembledMessage where
  text : Text
  tools : List AssembledTool
  stopReason : Option Text

/-- A part goes to the block of its index. -/
def AssembledTool.add (index : ℤ) (part : Text) (tool : AssembledTool) : AssembledTool :=
  if tool.index = index then { tool with parts := tool.parts ++ [part] } else tool

/-- What a client does with an event. -/
def AssembledMessage.add (m : AssembledMessage) : AnthropicEvent → AssembledMessage
  | .contentBlockStart index (.toolUse id name) => { m with tools := m.tools ++ [⟨index, id, name, []⟩] }
  | .contentBlockDelta _ (.textDelta (.str text)) => { m with text := m.text ++ text }
  | .contentBlockDelta index (.inputJsonDelta part) => { m with tools := m.tools.map (AssembledTool.add index part) }
  | .messageDelta stopReason _ => { m with stopReason := some stopReason }
  | _ => m

/-- The message that the events are put together to. -/
def assemble (events : List AnthropicEvent) : AssembledMessage := events.foldl AssembledMessage.add ⟨[], [], none⟩

theorem assemble_snoc (events : List AnthropicEvent) (e : AnthropicEvent) :
    assemble (events ++ [e]) = (assemble events).add e := List.foldl_concat ..

namespace AnthropicStream

/-- `s'` differs from `s` in nothing that the text and the tool calls are made of. -/
structure Beside (s s' : AnthropicStream) : Prop where
  assembled : assemble s'.events = assemble s.events
  tools : s'.trackedToolCalls = s.trackedToolCalls
  indices : s'.indexToToolId = s.indexToToolId
  hasToolCalls : s'.hasToolCalls = s.hasToolCalls
  stopReason : s'.stopReason = s.stopReason
  usage : s'.usage = s.usage
  current : s.currentBlockIndex ≤ s'.currentBlockIndex

section
variable {s s' s'' : AnthropicStream}

theorem Beside.refl (s : AnthropicStream) : s.Beside s := ⟨rfl, rfl, rfl, rfl, rfl, rfl, le_rfl⟩

theorem Beside.trans (h : s.Beside s') (h' : s'.Beside s'') : s.Beside s'' where
  assembled := h'.assembled.trans h.assembled
  tools := h'.tools.trans h.tools
  indices := h'.indices.trans h.indices
  hasToolCalls := h'.hasToolCalls.trans h.hasToolCalls
  stopReason := h'.stopReason.trans h.stopReason
  usage := h'.usage.trans h.usage
  current := h.current.trans h'.current

theorem Beside.emit {e : AnthropicEvent} (h : ∀ m : AssembledMessage, m.add e = m) (s : AnthropicStream) :
    s.Beside (s.emit e) :=
  ⟨(assemble_snoc ..).trans (h _), rfl, rfl, rfl, rfl, rfl, le_rfl⟩

theorem Beside.closeThinking (s : AnthropicStream) : s.Beside s.closeThinking := by
  unfold AnthropicStream.closeThinking
  split_ifs
  · exact ⟨assemble_snoc .., rfl, rfl, rfl, rfl, rfl, by simp⟩
  · exact .refl s

theorem Beside.closeText (s : AnthropicStream) : s.Beside s.closeText := by
  unfold AnthropicStream.closeText
  split_ifs
  · exact ⟨assemble_snoc .., rfl, rfl, rfl, rfl, rfl, by simp⟩
  · exact .refl s

theorem Beside.openThinking (s : AnthropicStream) : s.Beside s.openThinking := by
  unfold AnthropicStream.openThinking
  split_ifs
  · exact .refl s
  · exact ⟨assemble_snoc .., rfl, rfl, rfl, rfl, rfl, le_rfl⟩

theorem Beside.openText (s : AnthropicStream) : s.Beside s.openText := by
  unfold AnthropicStream.openText
  split_ifs
  · exact .refl s
  · exact ⟨assemble_snoc .., rfl, rfl, rfl, rfl, rfl, le_rfl⟩

theorem Beside.handleReasoning (s : AnthropicStream) (reasoningContent : Json) :
    s.Beside (s.handleReasoning reasoningContent) := by
  unfold AnthropicStream.handleReasoning
  split_ifs
  · exact (Beside.openThinking s).trans (.emit (fun _ => rfl) _)
  · exact .refl s

theorem foldl_flushTool {keys : List Json} (h : ∀ key t, s.trackedToolCalls.get key = some t → t.started) :
    keys.foldl flushTool s = s := by
  induction keys with
  | nil => rfl
  | cons key keys ih =>
    have hflush : s.flushTool key = s := by
      unfold AnthropicStream.flushTool
      rcases hget : s.trackedToolCalls.get key with _ | t
      · rfl
      · dsimp only
        rw [if_neg]
        simp [h key t hget]
    rw [List.foldl_cons, hflush, ih]

theorem Beside.foldl_stopTool (keys : List Json) (s : AnthropicStream) : s.Beside (keys.foldl stopTool s) := by
  induction keys generalizing s with
  | nil => exact .refl s
  | cons key keys ih =>
    refine Beside.trans ?_ (ih _)
    unfold AnthropicStream.stopTool
    split
    · exact .refl s
    · split_ifs
      · exact .emit (fun _ => rfl) s
      · exact .refl s

/-- **What is done at the end** adds nothing to the text and the tool calls, if every block has been started. -/
theorem Beside.closeBlocks (h : ∀ key t, s.trackedToolCalls.get key = some t → t.started) : s.Beside s.closeBlocks := by
  have hthinking := Beside.closeThinking s
  have hflush : s.closeThinking.trackedToolCalls.keys.foldl flushTool s.closeThinking = s.closeThinking := by
    refine foldl_flushTool fun key t hget => h key t ?_
    rw [← hthinking.tools, hget]
  unfold AnthropicStream.closeBlocks
  dsimp only
  rw [hflush]
  exact (hthinking.trans (.closeText _)).trans (.foldl_stopTool _ _)

end

end AnthropicStream

end TideBot
