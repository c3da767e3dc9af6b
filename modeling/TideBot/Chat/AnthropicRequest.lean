/-
  The messages of an Anthropic request as OpenAI messages (`utils/anthropic.py`).

  `convert_anthropic_to_openai_payload` goes through the blocks of each message: a `tool_result` becomes a message of
  its own at once, what else there is makes one message at the end.  The content of a `tool_result` is gone through by
  a second copy of the dispatch, which knows other kinds of blocks than the first.

  `json.dumps` and `str` are parameters: what was read from a request can be written.  What raises is `none`.
-/
import TideBot.Lib.PyJson

namespace TideBot

open Lib

/-- An entry of `tool_calls`; its `type` is `function`. -/
structure OpenaiToolCall where
  id : Json
  name : Json
  arguments : Text

/-- A message; it has a field `tool_calls` when there are some, and `tool_call_id` when it answers one. -/
structure OpenaiMessage where
  role : Json
  content : Json
  toolCalls : List OpenaiToolCall
  toolCallId : Option Json

namespace AnthropicRequest

/-! ## Parts of a content -/

/-- `_copy_cache_control` -/
def copyCacheControl (source : Json) (target : List (Text × Json)) : Json :=
  match source.field (.lit "cache_control") with
  | some value => .obj (Json.setField target (.lit "cache_control", value))
  | none => .obj target

/-- `_has_cache_control` -/
def hasCacheControl (blocks : List Json) : Bool := blocks.any fun b => (b.field (.lit "cache_control")).isSome

/-- `part.get('type') == 'text'` -/
def isText (part : Json) : Bool := (part.get (.lit "type")).eqStr (.lit "text")

/-- `part.get('text', '')` -/
def textOf (part : Json) : Json := (part.field (.lit "text")).getD (.str [])

/-- `_finalize_openai_content` -/
def finalizeOpenaiContent : List Json → Json
  | [] => .str []
  | [part] => if isText part && !hasCacheControl [part] then textOf part else .arr [part]
  | parts => .arr parts

/-- A text, as a part of a content. -/
def textPart (text : Json) : List (Text × Json) := [(.lit "type", .str (.lit "text")), (.lit "text", text)]

/-- An image, as a part of a content. -/
def imagePart (url : Json) : List (Text × Json) :=
  [(.lit "type", .str (.lit "image_url")), (.lit "image_url", .obj [(.lit "url", url)])]

/-- `'\n'.join(values)`, which raises on what is no string. -/
def joinLines (values : List Json) : Option Text := do
  let lines ← values.mapM fun
    | .str line => some line
    | _ => none
  return (Text.lit "\n").intercalate lines

section
variable (dumps str : Json → Text)

/-- A value in an f-string. -/
def formatted : Json → Text
  | .str t => t
  | j => str j

/-- A `text` block, on both levels. -/
def convertText (block : Json) : Option Json := do
  return copyCacheControl block (textPart (← block.itemD "text" (.str [])))

/-- An `image` block, on both levels; one with another source is left out. -/
def convertImage (block : Json) : Option (Option Json) := do
  let source ← block.itemD "source" (.obj [])
  let type ← source.item "type"
  if type.eqStr (.lit "base64") then
    let mediaType ← source.itemD "media_type" (.str (.lit "image/png"))
    let data ← source.itemD "data" (.str [])
    let url := Text.lit "data:" ++ formatted str mediaType ++ Text.lit ";base64," ++ formatted str data
    return some (copyCacheControl block (imagePart (.str url)))
  else if type.eqStr (.lit "url") then
    return some (copyCacheControl block (imagePart (← source.itemD "url" (.str []))))
  else return none

/-- `document_text` -/
def documentText (block : Json) : Option Text := do
  let source ← block.itemD "source" (.obj [])
  let title ← block.itemD "title" (.str (.lit "Document"))
  let context ← block.itemD "context" (.str [])
  let text := Text.lit "[Document: " ++ formatted str title ++ Text.lit "]"
  let text := if context.truthy then text ++ (Text.lit "\n" ++ formatted str context) else text
  let type ← source.item "type"
  let data ← source.item "data"
  return if type.eqStr (.lit "text") && data.truthy then text ++ (Text.lit "\n" ++ formatted str data) else text

/-- `search_text` -/
def searchText (block : Json) : Option Text := do
  let title ← block.itemD "title" (.str [])
  let url ← block.itemD "source" (.str [])
  let content ← block.itemD "content" (.arr [])
  let body ← joinLines (((← content.iter).filter fun b => b.isObj && isText b).map textOf)
  let text := Text.lit "[Search Result: " ++ formatted str title ++ Text.lit "]"
  let text := if url.truthy then text ++ (Text.lit "\nSource: " ++ formatted str url) else text
  return if body ≠ [] then text ++ (Text.lit "\n" ++ body) else text

/-! ## Tool results -/

/-- One of the blocks in a `tool_result`; others, and what is no dictionary, are left out. -/
def convertNested (block : Json) : Option (Option Json) := do
  if !block.isObj then return none
  let type ← block.itemD "type" (.str (.lit "text"))
  if type.eqStr (.lit "text") then return some (← convertText block)
  else if type.eqStr (.lit "image") then convertImage str block
  else if type.eqStr (.lit "document") then return some (.obj (textPart (.str (← documentText str block))))
  else if type.eqStr (.lit "search_result") then return some (.obj (textPart (.str (← searchText str block))))
  else return none

/-- The content of a tool message: a text, when there are only texts. -/
def flattenParts (parts : List Json) : Option Json :=
  if parts.all isText && !hasCacheControl parts then (joinLines (parts.map textOf)).map .str
  else if parts.isEmpty then some (.str [])
  else some (.arr parts)

/-- `tool_content` -/
def toolContent (block : Json) : Option Json := do
  match ← block.itemD "content" (.str []) with
  | .str content => return .str content
  | .arr blocks => flattenParts (← blocks.mapM (convertNested str)).reduceOption
  | _ => return .str []

/-- An error is said to be one. -/
def markError (isError : Json) (content : Json) : Json :=
  if isError.truthy then
    match content with
    | .str text => .str (Text.lit "Error: " ++ text)
    | .arr parts => .arr (.obj (textPart (.str (.lit "Error: "))) :: parts)
    | content => content
  else content

/-- A `tool_result` -/
def convertToolResult (block : Json) : Option OpenaiMessage := do
  let content ← toolContent str block
  return {
    role := .str (.lit "tool")
    content := markError (← block.item "is_error") content
    toolCalls := []
    toolCallId := some (← block.itemD "tool_use_id" (.str [])) }

/-! ## Messages -/

/-- A `tool_use` -/
def convertToolUse (block : Json) : Option OpenaiToolCall := do
  let id ← block.itemD "id" (.str [])
  let name ← block.itemD "name" (.str [])
  let input ← block.itemD "input" (.str (.lit "\x7b\x7d"))
  return ⟨id, name, if input.isObj then dumps input else formatted str input⟩

/-- What the loop over the blocks has made: `messages`, `openai_content` and `tool_calls`. -/
structure Converted where
  messages : List OpenaiMessage
  content : List Json
  toolCalls : List OpenaiToolCall

/-- One of the blocks of a message. -/
def convertBlock (c : Converted) (block : Json) : Option Converted := do
  let type ← block.itemD "type" (.str (.lit "text"))
  if type.eqStr (.lit "text") then return { c with content := c.content ++ [← convertText block] }
  else if type.eqStr (.lit "thinking") || type.eqStr (.lit "redacted_thinking") then
    match block with
    | .obj fields => return { c with content := c.content ++ [copyCacheControl block fields] }
    | _ => none
  else if type.eqStr (.lit "image") then return { c with content := c.content ++ (← convertImage str block).toList }
  else if type.eqStr (.lit "tool_use") then
    return { c with toolCalls := c.toolCalls ++ [← convertToolUse dumps str block] }
  else if type.eqStr (.lit "tool_result") then
    return { c with messages := c.messages ++ [← convertToolResult str block] }
  else return c

/-- What is made at the end of the blocks. -/
def Converted.finish (role : Json) (c : Converted) : List OpenaiMessage :=
  if !c.toolCalls.isEmpty then
    c.messages ++ [⟨role, if c.content.isEmpty then .str [] else finalizeOpenaiContent c.content, c.toolCalls, none⟩]
  else if !c.content.isEmpty then c.messages ++ [⟨role, finalizeOpenaiContent c.content, [], none⟩]
  else c.messages

/-- One of the messages. -/
def convertMessage (messages : List OpenaiMessage) (msg : Json) : Option (List OpenaiMessage) := do
  let role ← msg.itemD "role" (.str (.lit "user"))
  match ← msg.item "content" with
  | .str content => return messages ++ [⟨role, .str content, [], none⟩]
  | .arr blocks => return (← blocks.foldlM (convertBlock dumps str) ⟨messages, [], []⟩).finish role
  | content => return messages ++ [⟨role, .str (if content.truthy then str content else []), [], none⟩]

/-- One of the blocks of the system prompt. -/
def convertSystemBlock (block : Json) : Option Json :=
  match block with
  | .obj _ => if isText block then convertText block else none
  | .str text => some (.obj (textPart (.str text)))
  | _ => none

/-- The system prompt. -/
def convertSystem (system : Json) : List OpenaiMessage :=
  if system.truthy then
    match system with
    | .str _ => [⟨.str (.lit "system"), system, [], none⟩]
    | .arr blocks => [⟨.str (.lit "system"), finalizeOpenaiContent (blocks.filterMap convertSystemBlock), [], none⟩]
    | _ => []
  else []

end

end AnthropicRequest

open AnthropicRequest in
/-- The `messages` of `convert_anthropic_to_openai_payload`. -/
def convertAnthropicToOpenaiMessages (dumps str : Json → Text) (payload : PyDict) : Option (List OpenaiMessage) := do
  (← (payload.fetchD "messages" (.arr [])).iter).foldlM (convertMessage dumps str)
    (convertSystem (payload.fetch "system"))

end TideBot
