/-
  Context compaction (`utils/context_compaction.py`): the older messages of a branch are replaced
  by a generated summary, which is stored on the first message that is kept.

  A message is passed with the key it is stored under and with what the summary that it carries
  covers; the code sees neither.  A summary covers the messages it has been generated from, and
  what the summary before it covered (`Summary.covers`).

  The chat is the map that `get_messages_map_by_chat_id` returns; what sanitizing does to texts, and
  the events that are emitted, are left out.
-/
import TideBot.Chat.History
import TideBot.Chat.Usage
import TideBot.Lib.Machine

namespace TideBot

open Lib

/-! ## Branches -/

/-- The key of the parent, which the map is asked for; `none`: it is not hashable. -/
def parentKey (message : PyDict) : Option (Option Text) :=
  let parentId := message.fetch "parentId"
  if parentId.truthy then parentId.asKey else some none

/-- The loop of `get_message_list`, before it is reversed; the fuel is the number of messages and one
    more. -/
def branchUp (messagesMap : Dict Text PyDict) : ℕ → List Text → Text → Option (List (Text × PyDict))
  | 0, _, _ => some []
  | fuel + 1, visitedMessageIds, messageId =>
    match messagesMap.get messageId with
    | none => some []
    | some currentMessage =>
      if currentMessage.entries.isEmpty ∨ messageId ∈ visitedMessageIds then some []
      else do
        match ← parentKey currentMessage with
        | none => return [(messageId, currentMessage)]
        | some p =>
          return (messageId, currentMessage) :: (← branchUp messagesMap fuel (messageId :: visitedMessageIds) p)

/-- `get_message_list`, with the keys. -/
def getMessageList (messagesMap : Dict Text PyDict) (messageId : Text) : Option (List (Text × PyDict)) :=
  (branchUp messagesMap (messagesMap.size + 1) [] messageId).map List.reverse

/-! ## Summaries -/

/-- A generated summary. -/
structure Summary where
  text : Text
  covers : List Text

/-- A message that is passed: the key it is stored under, if it is stored, and what the summary it
    carries covers. -/
structure PassedMessage where
  key : Option Text
  data : PyDict
  covers : List Text

/-- `isinstance(value, str) and value.strip()` -/
def nonBlank : Json → Option Text
  | .str s => if s.strip = [] then none else some s
  | _ => none

/-- The summary that a message carries. -/
def summaryText (message : PyDict) : Option Text :=
  nonBlank ((message.fetch "contextSummary").or (message.fetch "context_summary"))

def PassedMessage.summary (message : PassedMessage) : Option Summary :=
  (summaryText message.data).map fun text => ⟨text, message.covers⟩

/-- The keys of messages. -/
def keysOf (messages : List PassedMessage) : List Text := messages.filterMap PassedMessage.key

/-- `_apply_latest_summary_checkpoint` -/
def applyLatestSummaryCheckpoint (messages : List PassedMessage) : List PassedMessage × Option Summary :=
  let latest := messages.zipIdx.foldl
    (fun acc e => (e.1.summary.map fun summary => (summary, e.2)).or acc) none
  match latest with
  | none => (messages, none)
  | some (summary, summaryIdx) => (messages.drop summaryIdx, some summary)

/-! ## Thresholds -/

section
variable (py : PyConv) (dumps : Json → Text)

/-- `_parse_positive_int` -/
def parsePositiveInt (value : Json) : Option ℤ := (value.toInt py.int).filter fun parsed => 0 < parsed

/-- `_clamp_retention_percentage` -/
def clampRetentionPercentage (value : Json) : ℤ := min 50 (max 10 ((value.toInt py.int).getD 40))

/-- The configuration, as it is stored. -/
structure CompactionValues where
  enable : Json
  tokenThreshold : Json
  tokenCap : Json
  retentionPercentage : Json

/-- What `_load_config` returns. -/
structure CompactionConfig where
  enable : Bool
  tokenThreshold : ℤ
  tokenCap : ℤ
  retentionPercentage : ℤ

/-- `_load_config` -/
def loadConfig (values : CompactionValues) : CompactionConfig :=
  let tokenThreshold := (parsePositiveInt py values.tokenThreshold).getD 80000
  { enable := values.enable.truthy
    tokenThreshold := tokenThreshold
    tokenCap := (parsePositiveInt py values.tokenCap).getD tokenThreshold
    retentionPercentage := clampRetentionPercentage py values.retentionPercentage }

/-- `_resolve_token_threshold`; the last argument is the parameter `compact_token_threshold`. -/
def resolveTokenThreshold (globalThreshold globalCap : ℤ) (param : Json) : ℤ :=
  min ((parsePositiveInt py param).getD globalThreshold) globalCap

/-- The first that is truthy, else 0, as an integer. -/
def intOfFirst (usage : PyDict) (keys : List String) : Option ℤ :=
  ((firstOf usage keys).or (.int 0)).toInt py.int

/-- `_usage_token_count` -/
def usageTokenCount (usage : PyDict) : Option ℤ := do
  let promptTokens ← intOfFirst py usage ["prompt_tokens", "prompt_eval_count"]
  let cachedTokens ←
    if promptTokens = 0 ∧ !((usage.fetch "prompt_n").isNone && (usage.fetch "cache_n").isNone) then do
      some ((← intOfFirst py usage ["prompt_n"]) + (← intOfFirst py usage ["cache_n"]))
    else some promptTokens
  let inputTokens ← if cachedTokens = 0 then intOfFirst py usage ["input_tokens"] else some cachedTokens
  let completionTokens ←
    intOfFirst py usage ["completion_tokens", "output_tokens", "eval_count", "predicted_n"]
  return inputTokens + completionTokens

/-- `_estimate_tokens`; `dumps` is `JSONCodec.dumps`. -/
def estimateTokens (value : Json) : ℕ :=
  let count := fun text : Text => if text = [] then 0 else max 1 (text.length / 4)
  match value with
  | .null => 0
  | .str text => count text
  | value => count (dumps value)

/-- The tokens of an item of a content; a type that is not hashable raises. -/
def itemTokens (item : Json) : Option ℕ :=
  if item.isObj then do
    let type ← (item.get (.lit "type")).asKey
    if type = some (.lit "image") ∨ type = some (.lit "image_url") then return 1000
    else return estimateTokens dumps (((item.get (.lit "text")).or (item.get (.lit "content"))).or item)
  else some (estimateTokens dumps item)

/-- The tokens of a content. -/
def contentTokens : Json → Option ℕ
  | .arr items => (items.mapM (itemTokens dumps)).map List.sum
  | content => some (estimateTokens dumps content)

/-- What a message adds in `_estimate_messages_tokens`. -/
def messageTokens (message : PyDict) : Option ℕ := do
  let tokens ← contentTokens dumps (message.fetch "content")
  return 4 + tokens + estimateTokens dumps (message.fetch "output") +
    estimateTokens dumps (message.fetch "tool_calls") + estimateTokens dumps (message.fetch "files")

/-- `_estimate_messages_tokens` -/
def estimateMessagesTokens (messages : List PyDict) : Option ℕ :=
  (messages.mapM (messageTokens dumps)).map List.sum

/-- `messages[idx].get('usage') or (messages[idx].get('info') or {}).get('usage')` -/
def usageOf (message : PyDict) : Option Json :=
  if (message.fetch "usage").truthy then some (message.fetch "usage")
  else
    match (message.fetch "info").or (.obj []) with
    | .obj fields => some ((PyDict.ofFields fields).fetch "usage")
    | _ => none

/-- The loop of `_exceeds_token_threshold`, over the messages from the last one on: the tokens of the
    last usage, with those of the messages after it. -/
def tokensSinceUsage : List PyDict → List PyDict → Option (Option ℤ)
  | [], _ => some none
  | message :: before, after => do
    let tokens ← match ← usageOf message with
      | .obj fields => usageTokenCount py (.ofFields fields)
      | _ => some 0
    if tokens ≠ 0 then return some (tokens + (← estimateMessagesTokens dumps after))
    else tokensSinceUsage before (message :: after)

/-- `_exceeds_token_threshold` -/
def exceedsTokenThreshold (messages : List PyDict) (systemPrompt : Text) (summary : Option Text)
    (threshold : ℤ) : Option Bool :=
  if threshold ≤ 0 then some false
  else do
    match ← tokensSinceUsage py dumps messages.reverse [] with
    | some tokens => return threshold < tokens
    | none =>
      let estimated ← estimateMessagesTokens dumps messages
      return threshold < (estimateTokens dumps (.str systemPrompt) +
        estimateTokens dumps (.str (summary.getD [])) + estimated : ℕ)

end

/-- `_find_compaction_boundary`, of a percentage that is clamped. -/
def findCompactionBoundary (messages : List PyDict) (retentionPercentage : ℤ) : ℕ :=
  let keepCount := max 2 (messages.length * retentionPercentage.toNat / 100)
  let target := max 1 (messages.length - keepCount)
  let users := (messages.zipIdx.filter fun e => (e.1.fetch "role").eqStr (.lit "user")).map Prod.snd
  ((users.drop 1).filter fun idx => idx ≤ target).getLast?.getD 0

/-! ## The two calls -/

/-- A chat: its messages, and what the summaries that they carry cover. -/
structure CompactedChat where
  messages : Dict Text PyDict
  covers : Text → List Text

/-- `Chats.upsert_message_to_chat_by_id_and_message_id` with a summary; an exception is caught, and has
    changed nothing. -/
def writeCheckpoint (chat : CompactedChat) (messageId : Text) (summary : Summary) (now : ℤ) : CompactedChat :=
  match upsertMessageToHistory ⟨chat.messages, none⟩ messageId
      (PyDict.put .empty "contextSummary" (.str summary.text)) now with
  | some (history, _) => ⟨history.messages, Function.update chat.covers messageId summary.covers⟩
  | none => chat

/-- `_generate_summary`: some text, or an exception.  The summary covers what is compacted, and what
    the previous one did. -/
def generateSummary (generated : Option Text) (compacted : List PassedMessage) (previous : Option Summary) :
    Option Summary :=
  generated.map fun text => ⟨text, keysOf compacted ++ (previous.map Summary.covers).getD []⟩

/-- The arguments of `compact_messages_for_request`, and what it finds: the configuration, whether the
    chat is saved, what the model generates. -/
structure CompactionRequest where
  messages : List PassedMessage
  userMessageId : Option Text
  messageId : Option Text
  compactTokenThreshold : Json
  systemPrompt : Text
  values : CompactionValues
  savedChat : Bool
  generated : Option Text
  now : ℤ

/-- What it returns. -/
structure CompactionResult where
  messages : List PassedMessage
  summary : Option Summary
  compacted : Bool

/-- `a or b`, of ids. -/
def orId (a b : Option Text) : Option Text := (a.filter (· ≠ [])).or b

/-- `messages[0]`, if it is a system message, and the rest. -/
def splitSystem : List PassedMessage → List PassedMessage × List PassedMessage
  | [] => ([], [])
  | m :: rest => if (m.data.fetch "role").eqStr (.lit "system") then ([m], rest) else ([], m :: rest)

/-- `message.get('id')`, as an id. -/
def idOf (message : PassedMessage) : Option Text :=
  match message.data.fetch "id" with
  | .str id => some id
  | _ => none

/-- `checkpoint_message_id`, if it is truthy. -/
def checkpointMessageId (req : CompactionRequest) (firstKept : PassedMessage) : Option Text :=
  (orId (orId (idOf firstKept) req.userMessageId) req.messageId).filter (· ≠ [])

section
variable (py : PyConv) (dumps : Json → Text)

/-- What is compacted and what is kept of the messages; `none`: nothing is compacted. -/
def compactionSplit (req : CompactionRequest) (messages : List PassedMessage) (previous : Option Summary) :
    Option (Option (List PassedMessage × PassedMessage × List PassedMessage)) := do
  let config := loadConfig py req.values
  let tokenThreshold := resolveTokenThreshold py config.tokenThreshold config.tokenCap req.compactTokenThreshold
  let data := messages.map PassedMessage.data
  if !(← exceedsTokenThreshold py dumps data req.systemPrompt (previous.map Summary.text) tokenThreshold) ||
      messages.length ≤ 3 then
    return none
  else
    let boundary := findCompactionBoundary data config.retentionPercentage
    match messages.take boundary, messages.drop boundary with
    | [], _ => return none
    | _, [] => return none
    | compacted, firstKept :: recent => return some (compacted, firstKept, recent)

/-- `compact_messages_for_request` -/
def compactMessagesForRequest (chat : CompactedChat) (req : CompactionRequest) :
    Option (CompactedChat × CompactionResult) :=
  if !(loadConfig py req.values).enable then some (chat, ⟨req.messages, none, false⟩)
  else do
    let (systemMessages, messages) := splitSystem req.messages
    let (messages, previousSummary) := applyLatestSummaryCheckpoint messages
    match ← compactionSplit py dumps req messages previousSummary with
    | none => return (chat, ⟨systemMessages ++ messages, previousSummary, false⟩)
    | some (compacted, firstKept, recent) =>
      let summary ← generateSummary req.generated compacted previousSummary
      let chat := match checkpointMessageId req firstKept with
        | some checkpointId => if req.savedChat then writeCheckpoint chat checkpointId summary req.now else chat
        | none => chat
      return (chat, ⟨systemMessages ++ firstKept :: recent, some summary, true⟩)

/-- A stored message, as it is read. -/
def CompactedChat.stored (chat : CompactedChat) (e : Text × PyDict) : PassedMessage :=
  ⟨some e.1, e.2, chat.covers e.1⟩

/-- `compact_chat_branch`, of the branch that ends at `currentId`. -/
def compactChatBranch (chat : CompactedChat) (values : CompactionValues) (currentId : Text)
    (generated : Option Text) (now : ℤ) : Option CompactedChat :=
  if !(loadConfig py values).enable ∨ currentId = [] then some chat
  else do
    let branch ← getMessageList chat.messages currentId
    let (messages, previousSummary) := applyLatestSummaryCheckpoint (branch.map chat.stored)
    if messages.dropLast.isEmpty then return chat
    else
      let summary ← generateSummary generated messages.dropLast previousSummary
      return writeCheckpoint chat currentId summary now

/-! ## Runs -/

/-- What happens to a chat: a message is saved, the older messages of the branch that ends at `tip` are
    compacted for a request, or a branch is compacted. -/
inductive CompactionOp where
  | save (messageId : Text) (message : PyDict) (now : ℤ)
  | request (tip : Text) (req : CompactionRequest)
  | branch (values : CompactionValues) (currentId : Text) (generated : Option Text) (now : ℤ)

/-- A chat under these; what raises changes nothing.  Of a request it is recorded what the branch was, and
    what the call returned. -/
def compactionMachine : Machine CompactedChat CompactionOp (Option (List Text × CompactionResult)) where
  step chat
    | .save messageId message now =>
      match upsertMessageToHistory ⟨chat.messages, none⟩ messageId message now with
      | some (history, _) => some (⟨history.messages, chat.covers⟩, none)
      | none => some (chat, none)
    | .request tip req =>
      match compactMessagesForRequest py dumps chat req with
      | some (chat', result) =>
        some (chat', some (((getMessageList chat.messages tip).getD []).map Prod.fst, result))
      | none => some (chat, none)
    | .branch values currentId generated now =>
      some ((compactChatBranch py chat values currentId generated now).getD chat, none)

end

end TideBot
