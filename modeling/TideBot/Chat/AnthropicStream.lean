/-
  An OpenAI stream as an Anthropic one (`utils/anthropic.py`).

  `openai_stream_to_anthropic_stream` reads lines of chunks and emits events: reasoning, text and tool calls become
  blocks, each of which is started under the next index, gets deltas, and is stopped.  There is at most one block
  of reasoning or text open, the one of the current index; the blocks of tool calls are kept in a table, and several
  of them may be open.

  Anything may raise, wherever it is read.  What has been emitted and stored until then stays (`StreamProgress`), the
  rest of the input is not read, and what is open is closed.  Only what is emitted after that is outside of the `try`.

  Reading JSON and drawing ids are parameters.  What has been read can be written; of the events only `message_delta`
  has numbers that are computed, so only this one may be impossible to write (`Json.writable`).
-/
import TideBot.Lib.JsonLoads
import TideBot.Lib.Ledger
import TideBot.Lib.PyJson

namespace TideBot

open Lib

/-! ## Events -/

inductive BlockKind where
  | thinking
  | text
  | toolUse
deriving DecidableEq

/-- `content_block`, of a start. -/
inductive ContentBlock where
  | thinking
  | text
  | toolUse (id name : Json)

/-- `delta` -/
inductive ContentDelta where
  | thinkingDelta (thinking : Json)
  | textDelta (text : Json)
  | inputJsonDelta (partialJson : Text)

def ContentBlock.kind : ContentBlock → BlockKind
  | .thinking => .thinking
  | .text => .text
  | .toolUse _ _ => .toolUse

def ContentDelta.kind : ContentDelta → BlockKind
  | .thinkingDelta _ => .thinking
  | .textDelta _ => .text
  | .inputJsonDelta _ => .toolUse

inductive AnthropicEvent where
  | messageStart (id model : Text) (inputTokens : ℤ)
  | contentBlockStart (index : ℤ) (block : ContentBlock)
  | contentBlockDelta (index : ℤ) (delta : ContentDelta)
  | contentBlockStop (index : ℤ)
  | messageDelta (stopReason : Text) (usage : Json)
  | messageStop

/-! ## State -/

/-- What is known of the usage; `null` is `None`. -/
structure MessageUsage where
  inputTokens : Json
  outputTokens : Json
  cacheCreationInputTokens : Json
  cacheReadInputTokens : Json
  outputTokensDetails : Json
  serverToolUse : Json
  serviceTier : Json

/-- An entry of `tracked_tool_calls`. -/
structure TrackedToolCall where
  id : Json
  name : Json
  arguments : Text
  blockIndex : ℤ
  started : Bool
  stopped : Bool

/-- The variables of the generator, and the events so far. -/
structure AnthropicStream where
  events : List AnthropicEvent
  usage : MessageUsage
  stopReason : Text
  currentBlockIndex : ℤ
  thinkingBlockOpen : Bool
  textBlockOpen : Bool
  trackedToolCalls : Dict Json TrackedToolCall
  indexToToolId : Dict Json Json
  hasToolCalls : Bool

/-- How a part of the `try` ends: it goes on, or it has raised. -/
inductive StreamProgress where
  | goesOn (s : AnthropicStream)
  | raised (s : AnthropicStream)

namespace StreamProgress

def state : StreamProgress → AnthropicStream
  | .goesOn s => s
  | .raised s => s

def andThen (p : StreamProgress) (f : AnthropicStream → StreamProgress) : StreamProgress :=
  match p with
  | .goesOn s => f s
  | .raised s => .raised s

end StreamProgress

/-- What goes through a list, up to what raises. -/
def forEach {α : Type} (f : α → AnthropicStream → StreamProgress) : List α → AnthropicStream → StreamProgress
  | [], s => .goesOn s
  | a :: as, s => (f a s).andThen (forEach f as)

/-- A value as the key of a dictionary: a list or a dictionary is not hashable, and equal numbers are one key. -/
def hashKey : Json → Option Json
  | .arr _ | .obj _ => none
  | j => some j.canonical

/-! ## Usage -/

/-- `max(prompt_tokens - (cache_creation or 0) - (cache_read or 0), 0)` -/
def uncachedTokens (promptTokens cacheCreation cacheRead : Json) : Option Json :=
  match promptTokens.sub (cacheCreation.or (.int 0)) with
  | none => none
  | some tokens => (tokens.sub (cacheRead.or (.int 0))).map Json.atLeastZero

/-- What a usage object says. -/
def readUsage (usageData : Json) : Option MessageUsage :=
  let value (key : String) := usageData.get (.lit key)
  let dict (key : String) := if (value key).isObj then value key else .null
  let cacheCreation := value "cache_creation_input_tokens"
  let cacheRead :=
    if (value "cache_read_input_tokens").isNone && (value "prompt_tokens_details").isObj then
      (value "prompt_tokens_details").get (.lit "cached_tokens")
    else value "cache_read_input_tokens"
  let usageInput :=
    if (value "input_tokens").isNone then
      if (value "prompt_tokens").isNone then some .null
      else uncachedTokens (value "prompt_tokens") cacheCreation cacheRead
    else some (value "input_tokens")
  let usageOutput := if (value "output_tokens").isNone then value "completion_tokens" else value "output_tokens"
  usageInput.map fun inputTokens =>
    { inputTokens := inputTokens
      outputTokens := usageOutput
      cacheCreationInputTokens := cacheCreation
      cacheReadInputTokens := cacheRead
      outputTokensDetails := dict "output_tokens_details"
      serverToolUse := dict "server_tool_use"
      serviceTier := value "service_tier" }

/-- What is known, after what is not `None` has been taken over. -/
def MessageUsage.update (u read : MessageUsage) : MessageUsage :=
  let taken (old new : Json) := if new.isNone then old else new
  { inputTokens := taken u.inputTokens read.inputTokens
    outputTokens := taken u.outputTokens read.outputTokens
    cacheCreationInputTokens := taken u.cacheCreationInputTokens read.cacheCreationInputTokens
    cacheReadInputTokens := taken u.cacheReadInputTokens read.cacheReadInputTokens
    outputTokensDetails := taken u.outputTokensDetails read.outputTokensDetails
    serverToolUse := taken u.serverToolUse read.serverToolUse
    serviceTier := taken u.serviceTier read.serviceTier }

/-- The `usage` of `message_delta`. -/
def MessageUsage.toJson (u : MessageUsage) : Json :=
  let field (key : String) (j : Json) := if j.isNone then [] else [(Text.lit key, j)]
  .obj ((.lit "output_tokens", u.outputTokens) :: field "input_tokens" u.inputTokens ++
    field "cache_creation_input_tokens" u.cacheCreationInputTokens ++
    field "cache_read_input_tokens" u.cacheReadInputTokens ++ field "output_tokens_details" u.outputTokensDetails ++
    field "server_tool_use" u.serverToolUse ++ field "service_tier" u.serviceTier)

namespace AnthropicStream

/-! ## Blocks -/

def emit (s : AnthropicStream) (e : AnthropicEvent) : AnthropicStream := { s with events := s.events ++ [e] }

def setTool (s : AnthropicStream) (key : Json) (tool : TrackedToolCall) : AnthropicStream :=
  { s with trackedToolCalls := s.trackedToolCalls.set key tool }

/-- Close the block of reasoning, if it is open. -/
def closeThinking (s : AnthropicStream) : AnthropicStream :=
  if s.thinkingBlockOpen then
    { s.emit (.contentBlockStop s.currentBlockIndex) with
      thinkingBlockOpen := false, currentBlockIndex := s.currentBlockIndex + 1 }
  else s

/-- Close the block of text, if it is open. -/
def closeText (s : AnthropicStream) : AnthropicStream :=
  if s.textBlockOpen then
    { s.emit (.contentBlockStop s.currentBlockIndex) with
      textBlockOpen := false, currentBlockIndex := s.currentBlockIndex + 1 }
  else s

def openThinking (s : AnthropicStream) : AnthropicStream :=
  if s.thinkingBlockOpen then s
  else { s.emit (.contentBlockStart s.currentBlockIndex .thinking) with thinkingBlockOpen := true }

def openText (s : AnthropicStream) : AnthropicStream :=
  if s.textBlockOpen then s
  else { s.emit (.contentBlockStart s.currentBlockIndex .text) with textBlockOpen := true }

def handleReasoning (s : AnthropicStream) (reasoningContent : Json) : AnthropicStream :=
  if reasoningContent.truthy && !s.textBlockOpen && !s.hasToolCalls then
    s.openThinking.emit (.contentBlockDelta s.openThinking.currentBlockIndex (.thinkingDelta reasoningContent))
  else s

def handleContent (s : AnthropicStream) (content : Json) : AnthropicStream :=
  if content.truthy && !s.hasToolCalls then
    let s := s.closeThinking.openText
    s.emit (.contentBlockDelta s.currentBlockIndex (.textDelta content))
  else s

/-! ## Tool calls -/

/-- The index, the id, the name and the arguments of a tool call. -/
def toolCallFields (toolCall : Json) : Option (Json × Json × Json × Json) := do
  let index ← toolCall.itemD "index" (.int 0)
  let id ← toolCall.itemD "id" (.str [])
  let function := (← toolCall.item "function").or (.obj [])
  let name ← function.itemD "name" (.str [])
  let arguments ← function.itemD "arguments" (.str [])
  return (index, id, name, arguments)

def newTool (id name : Json) : TrackedToolCall where
  id := id
  name := name
  arguments := []
  blockIndex := -1
  started := false
  stopped := false

/-- The key of the tool call that a delta belongs to, which is tracked from now on; `none`: it raises.  `draw` gives an
    id that is not one of those given. -/
def resolveTool (draw : List Json → Text) (s : AnthropicStream) (index id name : Json) :
    AnthropicStream × Option Json :=
  if id.truthy then
    match hashKey id with
    | none => (s, none)
    | some key =>
      let s := if (s.trackedToolCalls.get key).isSome then s else s.setTool key (newTool id name)
      match hashKey index with
      | none => (s, none)
      | some i => ({ s with indexToToolId := s.indexToToolId.set i key }, some key)
  else
    match hashKey index with
    | none => (s, none)
    | some i =>
      match s.indexToToolId.get i with
      | some key => (s, some key)
      | none =>
        let fallbackId := .str (draw s.trackedToolCalls.keys)
        ({ s.setTool fallbackId (newTool fallbackId name) with
          indexToToolId := s.indexToToolId.set i fallbackId }, some fallbackId)

/-- Start the block of a tool call, once it has a name. -/
def startTool (s : AnthropicStream) (key : Json) (tool : TrackedToolCall) : AnthropicStream × TrackedToolCall :=
  if !tool.started && tool.name.truthy then
    let tool := { tool with blockIndex := s.currentBlockIndex, started := true }
    ({ (s.setTool key tool).emit (.contentBlockStart s.currentBlockIndex (.toolUse tool.id tool.name)) with
      currentBlockIndex := s.currentBlockIndex + 1, hasToolCalls := true }, tool)
  else (s, tool)

/-- Add to the arguments of a tool call, and stop its block once they are JSON. -/
def addArguments (loads : Text → Except Json.LoadError Json) (s : AnthropicStream) (key : Json) (tool : TrackedToolCall)
    (argumentsChunk : Json) : StreamProgress :=
  if argumentsChunk.truthy then
    match argumentsChunk with
    | .str chunk =>
      let tool := { tool with arguments := tool.arguments ++ chunk }
      let s := s.setTool key tool
      if tool.started && !tool.stopped then
        let s := s.emit (.contentBlockDelta tool.blockIndex (.inputJsonDelta chunk))
        match loads tool.arguments with
        | .ok _ => .goesOn ((s.setTool key { tool with stopped := true }).emit (.contentBlockStop tool.blockIndex))
        | .error .recursionError => .raised s
        | .error _ => .goesOn s
      else .goesOn s
    | _ => .raised s
  else .goesOn s

/-- One of the `tool_calls`. -/
def handleToolCall (loads : Text → Except Json.LoadError Json) (draw : List Json → Text) (toolCall : Json)
    (s : AnthropicStream) : StreamProgress :=
  match toolCallFields toolCall with
  | none => .raised s
  | some (index, id, name, argumentsChunk) =>
    match s.resolveTool draw index id name with
    | (s, none) => .raised s
    | (s, some key) =>
      match s.trackedToolCalls.get key with
      | none => .raised s
      | some tool =>
        let tool := if name.truthy && !tool.name.truthy then { tool with name := name } else tool
        let (s, tool) := (s.setTool key tool).startTool key tool
        s.addArguments loads key tool argumentsChunk

/-! ## Lines -/

/-- `choices[0].get(…)`: the delta, the finish reason and the message. -/
def choiceFields : Json → Option (Json × Json × Json)
  | .arr (choice :: _) => do
    let delta ← choice.itemD "delta" (.obj [])
    let finishReason ← choice.item "finish_reason"
    let message ← choice.item "message"
    return (delta, finishReason, message.or (.obj []))
  | _ => none

/-- The first of the thinking blocks that has something. -/
def thinkingOf (blocks : List Json) : Json :=
  ((blocks.filter Json.isObj).map fun block =>
    ((block.get (.lit "thinking")).or (block.get (.lit "content"))).or (block.get (.lit "text"))).find? Json.truthy
    |>.getD .null

/-- `reasoning_content` -/
def reasoningOf (delta message : Json) : Option Json := do
  let reasoning := ((← delta.item "reasoning_content").or (← delta.item "reasoning")).or (← delta.item "thinking")
  if reasoning.truthy then return reasoning
  let reasoning := (← message.item "reasoning_content").or (← message.item "reasoning")
  if reasoning.truthy then return reasoning
  let thinkingBlocks := ((← delta.item "thinking_blocks").or (← message.item "thinking_blocks")).or (.arr [])
  return thinkingOf (← thinkingBlocks.iter)

/-- `tool_calls`, of the delta or of the message. -/
def toolCallsOf (delta message : Json) : Option Json := do
  let toolCalls ← delta.item "tool_calls"
  if toolCalls.truthy then return toolCalls
  message.item "tool_calls"

/-- The tool calls of a choice; the blocks of reasoning and text are closed before them. -/
def handleToolCalls (loads : Text → Except Json.LoadError Json) (draw : List Json → Text) (toolCalls : Json)
    (s : AnthropicStream) : StreamProgress :=
  if toolCalls.truthy then
    match toolCalls.iter with
    | none => .raised s.closeThinking.closeText
    | some calls => forEach (handleToolCall loads draw) calls s.closeThinking.closeText
  else .goesOn s

/-- `stop_reason_map` -/
def stopReasonOf (finishReason : Json) : Text :=
  if finishReason.eqStr (.lit "stop") then .lit "end_turn"
  else if finishReason.eqStr (.lit "length") then .lit "max_tokens"
  else if finishReason.eqStr (.lit "tool_calls") then .lit "tool_use"
  else .lit "end_turn"

def handleFinish (finishReason : Json) (s : AnthropicStream) : StreamProgress :=
  if finishReason.isNone then .goesOn s
  else if (hashKey finishReason).isNone then .raised s
  else .goesOn { s with stopReason := stopReasonOf finishReason }

/-- The choices of a line. -/
def handleChoices (loads : Text → Except Json.LoadError Json) (draw : List Json → Text) (choices : Json)
    (s : AnthropicStream) : StreamProgress :=
  if choices.truthy then
    match choiceFields choices with
    | none => .raised s
    | some (delta, finishReason, message) =>
      match reasoningOf delta message with
      | none => .raised s
      | some reasoningContent =>
        let s := (s.handleReasoning reasoningContent).handleContent (delta.get (.lit "content"))
        match toolCallsOf delta message with
        | none => .raised s
        | some toolCalls => (handleToolCalls loads draw toolCalls s).andThen (handleFinish finishReason)
  else .goesOn s

/-- The data of a line. -/
def handleData (loads : Text → Except Json.LoadError Json) (draw : List Json → Text) (data : Json)
    (s : AnthropicStream) : StreamProgress :=
  match data.item "usage", data.itemD "choices" (.arr []) with
  | some usageData, some choices =>
    if usageData.isObj then
      match readUsage usageData with
      | none => .raised s
      | some read => handleChoices loads draw choices { s with usage := s.usage.update read }
    else handleChoices loads draw choices s
  | _, _ => .raised s

/-- The data string of a line, if the line has one that is read. -/
def dataString (line : Text) : Option Text :=
  let line := Text.strip line
  if line = [] ∨ ¬(Text.lit "data:").isPrefixOf line then none
  else
    let data := Text.strip (line.drop 5)
    if data = .lit "[DONE]" ∨ data = .lit "\x7b\x7d" then none else some data

/-- The lines of a chunk. -/
def handleLine (loads : Text → Except Json.LoadError Json) (draw : List Json → Text) (line : Text)
    (s : AnthropicStream) : StreamProgress :=
  match dataString line with
  | none => .goesOn s
  | some data =>
    match loads data with
    | .ok data => handleData loads draw data s
    | .error .decodeError => .goesOn s
    | .error _ => .raised s

/-- `chunk.strip().split('\n')` -/
def chunkLines (chunk : Text) : List Text := (Text.strip chunk).splitOn (.ofChar '\n')

/-- A chunk, if it is bytes decoded; `none` is one that is neither a text nor bytes, and raises. -/
def handleChunk (loads : Text → Except Json.LoadError Json) (draw : List Json → Text) (chunk : Option Text)
    (s : AnthropicStream) : StreamProgress :=
  match chunk with
  | none => .raised s
  | some chunk => forEach (handleLine loads draw) (chunkLines chunk) s

/-! ## The end -/

/-- Start the block of a tool call that has none yet, and give it all of its arguments. -/
def flushTool (s : AnthropicStream) (key : Json) : AnthropicStream :=
  match s.trackedToolCalls.get key with
  | none => s
  | some tool =>
    if !tool.started && tool.name.truthy then
      let (s, tool) := s.startTool key tool
      if tool.arguments ≠ [] then s.emit (.contentBlockDelta tool.blockIndex (.inputJsonDelta tool.arguments)) else s
    else s

/-- Stop the block of a tool call that is open. -/
def stopTool (s : AnthropicStream) (key : Json) : AnthropicStream :=
  match s.trackedToolCalls.get key with
  | none => s
  | some tool => if tool.started && !tool.stopped then s.emit (.contentBlockStop tool.blockIndex) else s

/-- What is done after the chunks, or an exception: what is open is closed.  The flags are not read any more. -/
def closeBlocks (s : AnthropicStream) : AnthropicStream :=
  let s := s.closeThinking
  let s := s.trackedToolCalls.keys.foldl flushTool s
  let s := s.closeText
  s.trackedToolCalls.keys.foldl stopTool s

/-- `message_delta` and `message_stop`, unless the former cannot be written. -/
def lastEvents (s : AnthropicStream) : List AnthropicEvent :=
  if s.usage.toJson.writable then [.messageDelta s.stopReason s.usage.toJson, .messageStop] else []

/-- The variables at the start, after `message_start`. -/
def start (messageId model : Text) (inputTokens : Option ℤ) : AnthropicStream where
  events := [.messageStart messageId model (inputTokens.getD 0)]
  usage := ⟨(inputTokens.map Json.int).getD .null, .int 0, .null, .null, .null, .null, .null⟩
  stopReason := .lit "end_turn"
  currentBlockIndex := 0
  thinkingBlockOpen := false
  textBlockOpen := false
  trackedToolCalls := .empty
  indexToToolId := .empty
  hasToolCalls := false

end AnthropicStream

/-- `openai_stream_to_anthropic_stream`: the events of a stream of chunks that ends, or raises, after them. -/
def openaiStreamToAnthropicStream (loads : Text → Except Json.LoadError Json) (draw : List Json → Text)
    (messageId model : Text) (inputTokens : Option ℤ) (chunks : List (Option Text)) : List AnthropicEvent :=
  let s := (forEach (AnthropicStream.handleChunk loads draw) chunks (.start messageId model inputTokens)).state
  s.closeBlocks.events ++ s.closeBlocks.lastEvents

end TideBot
