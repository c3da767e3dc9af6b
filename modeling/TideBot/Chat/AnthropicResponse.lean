/-
  An OpenAI response as an Anthropic one (`utils/anthropic.py`).

  `convert_openai_to_anthropic_response` makes one message of the first choice: its reasoning, its text and its tool
  calls become blocks, one after the other.  The arguments of a tool call are read; what is no JSON counts as no
  arguments.  Where the program raises, there is no message.
-/
import TideBot.Chat.AnthropicStream

namespace TideBot

open Lib

/-- A block of `content`. -/
inductive ResponseBlock where
  | redactedThinking (fields : List (Text × Json))
  | thinking (thinking : Json) (signature : Option Json)
  | text (text : Json)
  | toolUse (id name input : Json)
deriving DecidableEq

/-- An Anthropic message. -/
structure AnthropicResponse where
  id : Json
  type : Text
  role : Text
  content : List ResponseBlock
  model : Json
  stopReason : Text
  stopSequence : Json
  usage : Json

namespace AnthropicResponse

/-- `choice` -/
def firstChoice (openaiResponse : Json) : Option Json := do
  let choices ← openaiResponse.item "choices"
  if choices.truthy then
    match choices with
    | .arr (choice :: _) => some choice
    | _ => none
  else some (.obj [])

/-- `stop_reason_map.get(finish_reason, 'end_turn')` -/
def stopReasonFor (finishReason : Json) : Option Text :=
  if (hashKey finishReason).isNone then none
  else if finishReason.eqStr (.lit "stop") then some (.lit "end_turn")
  else if finishReason.eqStr (.lit "length") then some (.lit "max_tokens")
  else if finishReason.eqStr (.lit "tool_calls") then some (.lit "tool_use")
  else if finishReason.eqStr (.lit "content_filter") then some (.lit "end_turn")
  else some (.lit "end_turn")

/-! ## Reasoning -/

/-- `thinking_blocks` -/
def thinkingBlocks (message : Json) : Option (List Json) := do
  let messageThinking ← message.item "thinking"
  let blocks := (← message.item "thinking_blocks").or (.arr [])
  if !blocks.truthy && messageThinking.isObj then ((messageThinking.get (.lit "blocks")).or (.arr [])).iter
  else blocks.iter

/-- What a thinking block becomes, if it becomes something. -/
def thinkingBlock (block : Json) : Option ResponseBlock :=
  match block with
  | .obj fields =>
    if (block.get (.lit "type")).eqStr (.lit "redacted_thinking") then
      some (.redactedThinking (fields.filter fun f => f.1 = .lit "type" ∨ f.1 = .lit "data"))
    else
      let thinking := ((block.get (.lit "thinking")).or (block.get (.lit "content"))).or (block.get (.lit "text"))
      let signature := block.get (.lit "signature")
      if thinking.truthy then some (.thinking thinking (if signature.truthy then some signature else none)) else none
  | _ => none

/-- `reasoning_content`, of a message. -/
def reasoningContent (message : Json) : Json :=
  let content := (message.get (.lit "reasoning_content")).or (message.get (.lit "reasoning"))
  match message.get (.lit "thinking") with
  | .str thinking => if content.truthy then content else .str thinking
  | _ => content

/-- The blocks of reasoning. -/
def reasoningBlocks (message : Json) : Option (List ResponseBlock) :=
  (thinkingBlocks message).map fun blocks =>
    let content := blocks.filterMap thinkingBlock
    if (reasoningContent message).truthy && content.isEmpty then [.thinking (reasoningContent message) none]
    else content

/-! ## Text and tool calls -/

/-- The block of text, if there is text. -/
def textBlocks (message : Json) : List ResponseBlock :=
  if (message.get (.lit "content")).truthy then [.text (message.get (.lit "content"))] else []

/-- `tool_input`; only a string can be read at all. -/
def toolInput (loads : Text → Except Json.LoadError Json) (arguments : Json) : Option Json :=
  match arguments with
  | .str text =>
    match loads text with
    | .ok input => some input
    | .error .decodeError => some (.obj [])
    | .error _ => none
  | _ => some (.obj [])

/-- A tool call as a block. -/
def toolBlock (loads : Text → Except Json.LoadError Json) (drawnId : Text) (toolCall : Json) :
    Option ResponseBlock := do
  let function ← toolCall.itemD "function" (.obj [])
  let input ← toolInput loads (← function.itemD "arguments" (.str (.lit "\x7b\x7d")))
  return .toolUse (← toolCall.itemD "id" (.str drawnId)) (← function.itemD "name" (.str [])) input

/-- The blocks of the tool calls; an id is drawn for each of them. -/
def toolBlocks (loads : Text → Except Json.LoadError Json) (drawnIds : ℕ → Text) (message : Json) :
    Option (List ResponseBlock) := do
  let toolCalls ← ((← message.item "tool_calls").or (.arr [])).iter
  toolCalls.zipIdx.mapM fun call => toolBlock loads (drawnIds call.2) call.1

/-! ## Usage -/

/-- `usage` -/
def responseUsage (openaiResponse : Json) (inputTokens : Option ℤ) : Option Json := do
  let openaiUsage := (← openaiResponse.item "usage").or (.obj [])
  let read ← (if openaiUsage.isObj then readUsage openaiUsage else none)
  let value (j default : Json) := if j.isNone then default else j
  let field (key : String) (j : Json) := if j.isNone then [] else [(Text.lit key, j)]
  return .obj ((.lit "input_tokens", value read.inputTokens (.int (inputTokens.getD 0))) ::
    (.lit "output_tokens", value read.outputTokens (.int 0)) ::
    field "cache_creation_input_tokens" read.cacheCreationInputTokens ++
    field "cache_read_input_tokens" read.cacheReadInputTokens ++
    field "output_tokens_details" read.outputTokensDetails ++ field "server_tool_use" read.serverToolUse ++
    field "service_tier" read.serviceTier)

end AnthropicResponse

/-- `convert_openai_to_anthropic_response`; `messageId` and `drawnIds` are the ids that are drawn, whether they are used
    or not. -/
def convertOpenaiToAnthropicResponse (loads : Text → Except Json.LoadError Json) (messageId : Text)
    (drawnIds : ℕ → Text) (openaiResponse : Json) (model : Text) (inputTokens : Option ℤ) :
    Option AnthropicResponse := do
  let choice ← AnthropicResponse.firstChoice openaiResponse
  let message ← choice.itemD "message" (.obj [])
  let finishReason ← choice.itemD "finish_reason" (.str (.lit "stop"))
  let stopReason ← AnthropicResponse.stopReasonFor finishReason
  let reasoning ← AnthropicResponse.reasoningBlocks message
  let tools ← AnthropicResponse.toolBlocks loads drawnIds message
  let usage ← AnthropicResponse.responseUsage openaiResponse inputTokens
  let responseModel ← openaiResponse.itemD "model" (.str [])
  return {
    id := ← openaiResponse.itemD "id" (.str messageId)
    type := .lit "message"
    role := .lit "assistant"
    content := reasoning ++ AnthropicResponse.textBlocks message ++ tools
    model := if model = [] then responseModel else .str model
    stopReason := stopReason
    stopSequence := .null
    usage := usage }

end TideBot
