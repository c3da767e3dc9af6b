/-
  The two places a message is kept: the history in the chat's JSON, and a row of the table
  `chat_message` (`models/chats.py`, `models/chat_messages.py`).

  An operation changes the history in one transaction and the row in another one, whose
  exceptions are logged and forgotten; what raises in the first changes nothing (`none`).

  The rows are those of one chat, under the ids of the messages.
-/
import TideBot.Chat.History
import TideBot.Chat.Usage
import TideBot.Lib.Machine

namespace TideBot

open Lib

/-- A `ChatMessage` of the chat. -/
structure ChatRow where
  role : Json
  parentId : Json
  content : Json
  output : Json
  modelId : Json
  files : Json
  sources : Json
  embeds : Json
  metadata : Json
  done : Json
  statusHistory : Json
  error : Json
  usage : Option PyDict
  contextSummary : Json
  createdAt : Json
  updatedAt : ℤ

/-- The history and the rows of a chat. -/
structure ChatStore where
  history : ChatHistory
  rows : Dict Text ChatRow

/-! ## Cleaning -/

/-- `sanitize_text_for_db` -/
def sanitizeText (text : Text) : Text := text.filter fun c => c.val ≠ 0 && !c.surrogate

mutual

/-- `sanitize_data_for_db` -/
def sanitizeData : Json → Json
  | .str s => .str (sanitizeText s)
  | .arr xs => .arr (sanitizeItems xs)
  | .obj fs => (PyDict.ofFields (sanitizeFields fs)).toJson
  | j => j

def sanitizeItems : List Json → List Json
  | [] => []
  | x :: xs => sanitizeData x :: sanitizeItems xs

def sanitizeFields : List (Text × Json) → List (Text × Json)
  | [] => []
  | (k, x) :: fs => (sanitizeText k, sanitizeData x) :: sanitizeFields fs

end

/-- `_clean_null_bytes`, of a message. -/
def cleanMessage (message : PyDict) : PyDict := .ofFields (sanitizeFields message.entries)

/-- What `_sanitize_chat_row` does to the history. -/
def cleanHistory (history : ChatHistory) : ChatHistory where
  messages := history.messages.entries.foldl (fun d e => d.set (sanitizeText e.1) (cleanMessage e.2)) .empty
  currentId := history.currentId.map sanitizeText

/-! ## `_repair_chat_current_id` -/

/-- The first of the ids that is there. -/
def firstPresent (messages : Dict Text PyDict) : List Json → Option (Option Text)
  | [] => some none
  | id :: rest => do
    match (← id.asKey).filter fun key => (messages.get key).isSome with
    | some key => return some key
    | none => firstPresent messages rest

/-- `_last_descendant_id`; the fuel is the number of messages and one more. -/
def lastDescendantId (messages : Dict Text PyDict) : ℕ → List Text → Text → Option Text
  | 0, _, messageId => some messageId
  | fuel + 1, seenIds, messageId =>
    match messages.get messageId with
    | none => some messageId
    | some message =>
      if messageId ∈ seenIds then some messageId
      else do
        let childIds := match message.fetch "childrenIds" with
          | .arr ids => ids
          | _ => []
        match ← firstPresent messages childIds.reverse with
        | none => return messageId
        | some nextId =>
          if nextId = [] then return messageId
          else lastDescendantId messages fuel (messageId :: seenIds) nextId

/-- The loop that looks for the newest leaf; a time that is no number cannot be compared. -/
def newestLeaf : List (Text × PyDict) → Option Text → ℚ → Option (Option Text)
  | [], latestLeafId, _ => some latestLeafId
  | (messageId, message) :: rest, latestLeafId, latestTimestamp => do
    let isLeaf := match message.fetch "childrenIds" with
      | .arr (_ :: _) => false
      | _ => true
    if (message.fetch "role").truthy && isLeaf then
      let timestamp ← ((message.fetch "timestamp").or (.int 0)).unbool.number
      if latestTimestamp < timestamp then newestLeaf rest (some messageId) timestamp
      else newestLeaf rest latestLeafId latestTimestamp
    else newestLeaf rest latestLeafId latestTimestamp

/-- `_repair_chat_current_id` -/
def repairCurrentId (history : ChatHistory) : Option ChatHistory := do
  let messages := history.messages
  let current := history.currentId.bind fun id => (messages.get id).map fun m => (id, m)
  let itemRole ← outputRole ((current.map fun c => c.2.fetch "output").getD .null)
  let badLeaf := current.any fun c =>
    itemRole.eqStr (.lit "assistant") && (c.2.fetch "parentId").isNone && !(c.2.fetch "timestamp").truthy &&
      1 < messages.size
  match current.filter fun c => (c.2.fetch "id").truthy && (c.2.fetch "role").truthy && !badLeaf with
  | some (currentId, message) =>
    if (message.fetch "contextSummary").truthy || (message.fetch "context_summary").truthy then
      let lastId ← lastDescendantId messages (messages.size + 1) [] currentId
      return { history with currentId := some lastId }
    else return history
  | none =>
    match ← newestLeaf messages.entries none (-1) with
    | none => return history
    | some leafId => if leafId = [] then return history else return { history with currentId := some leafId }

/-! ## Rows -/

variable (py : PyConv)

/-- `get_usage` -/
def getUsage (data : PyDict) : Option (Option PyDict) := do
  let usage ←
    if (data.fetch "usage").truthy then some (data.fetch "usage")
    else
      match (data.fetch "info").or (.obj []) with
      | .obj fields => some ((PyDict.ofFields fields).fetch "usage")
      | _ => none
  if usage.truthy then return some (← normalizeUsage py usage) else return none

/-- The usage of the row, with that of the message added. -/
def addUsage (stored : Option PyDict) (data : PyDict) : Option (Option PyDict) := do
  match ← getUsage py data with
  | none => return stored
  | some usage =>
    if usage.entries.isEmpty then return stored
    else
      let existingUsage ← normalizeUsage py ((stored.map PyDict.toJson).getD .null)
      if usage.toJson.eq existingUsage.toJson then return some existingUsage
      else return some (← mergeUsage py existingUsage usage)

/-- A field that is overwritten if the payload carries it. -/
def carried (data : PyDict) (key : String) (old : Json) : Json := (data.get (.lit key)).getD old

/-- The same under two names. -/
def carriedOr (data : PyDict) (key key' : String) (old : Json) : Json :=
  if (data.get (.lit key)).isSome || (data.get (.lit key')).isSome then (data.fetch key).or (data.fetch key') else old

/-- `_apply_message_data` -/
def applyMessageData (message : ChatRow) (data : PyDict) (now : ℤ) : Option ChatRow := do
  let usage ← addUsage py message.usage data
  return { message with
    role := carried data "role" message.role
    parentId := carriedOr data "parent_id" "parentId" message.parentId
    content := carried data "content" message.content
    output := carried data "output" message.output
    modelId := carriedOr data "model_id" "model" message.modelId
    files := carried data "files" message.files
    sources := carried data "sources" message.sources
    embeds := carried data "embeds" message.embeds
    metadata := carried data "meta" message.metadata
    done := carried data "done" message.done
    statusHistory := carriedOr data "status_history" "statusHistory" message.statusHistory
    error := carried data "error" message.error
    usage := usage
    contextSummary := carriedOr data "context_summary" "contextSummary" message.contextSummary
    updatedAt := now }

/-- `_build_message` -/
def buildMessage (data : PyDict) (now : ℤ) : Option ChatRow := do
  let usage ← getUsage py data
  return {
    role := data.fetchD "role" (.str (.lit "user"))
    parentId := (data.fetch "parent_id").or (data.fetch "parentId")
    content := data.fetch "content"
    output := data.fetch "output"
    modelId := (data.fetch "model_id").or (data.fetch "model")
    files := data.fetch "files"
    sources := data.fetch "sources"
    embeds := data.fetch "embeds"
    metadata := data.fetch "meta"
    done := data.fetchD "done" (.bool true)
    statusHistory := (data.fetch "status_history").or (data.fetch "statusHistory")
    error := data.fetch "error"
    usage := usage
    contextSummary := (data.fetch "context_summary").or (data.fetch "contextSummary")
    createdAt := data.fetchD "timestamp" (.int now)
    updatedAt := now }

/-- The row that `upsert_message` writes. -/
def writtenRow (row : Option ChatRow) (data : PyDict) (now : ℤ) : Option ChatRow :=
  match row with
  | some message => applyMessageData py message data now
  | none => buildMessage py data now

/-- `ChatMessages.upsert_message` -/
def upsertRow (rows : Dict Text ChatRow) (messageId : Text) (data : PyDict) (now : ℤ) :
    Option (Dict Text ChatRow) :=
  (writtenRow py (rows.get messageId) data now).map fun row => rows.set messageId row

/-- `ChatMessages.upsert_messages` -/
def upsertRows (rows : Dict Text ChatRow) (now : ℤ) : List (Text × PyDict) → Option (Dict Text ChatRow)
  | [] => some rows
  | (messageId, data) :: rest => do upsertRows (← upsertRow py rows messageId data now) now rest

/-- `backfill_messages_by_chat_id`: the messages with a role, or none if one of them raises. -/
def backfillMessages (rows : Dict Text ChatRow) (messages : Dict Text PyDict) (now : ℤ) : Dict Text ChatRow :=
  (upsertRows py rows now (messages.entries.filter fun e => (e.2.fetch "role").truthy)).getD rows

/-! ## The operations -/

/-- The text of an item of an output. -/
def itemText (item : Json) : Option Text :=
  if item.isObj && (item.get (.lit "type")).eqStr (.lit "message") then
    match (item.get (.lit "content")).or (.arr []) with
    | .arr parts =>
      let text := (parts.filter fun part => part.isObj && !(part.get (.lit "text")).isNone).flatMap
        fun part => py.str (part.get (.lit "text"))
      if text = [] ∨ text.all Text.isSpace then none else some text
    | _ => none
  else none

/-- `get_output_text` -/
def getOutputText (output : Json) : Text :=
  match output with
  | .arr items => (items.filterMap (itemText py)).intersperse (.lit "\n") |>.flatten
  | _ => []

/-- What of a payload is saved: with the text of its output for content, and clean. -/
def payloadOf (message : PyDict) : PyDict :=
  cleanMessage
    (if (message.fetch "content").truthy then message
    else
      let outputText := getOutputText py (message.fetch "output")
      if outputText = [] then message else message.put "content" (.str outputText))

/-- `upsert_message_to_chat_by_id_and_message_id` -/
def upsertMessageToChat (store : ChatStore) (messageId : Text) (message : PyDict) (now : ℤ) : Option ChatStore := do
  let history ← repairCurrentId (cleanHistory store.history)
  let (history, saved) ← upsertMessageToHistory history (sanitizeText messageId) (payloadOf py message) now
  return ⟨history, (upsertRow py store.rows (sanitizeText messageId) saved now).getD store.rows⟩

/-- `delete_message_from_chat_by_id_and_message_id` -/
def deleteMessageFromChat (store : ChatStore) (messageId : Text) (now : ℤ) : Option ChatStore := do
  let history ← repairCurrentId (cleanHistory store.history)
  let (history, deletedIds) ← deleteMessageFromHistory history messageId
  if deletedIds.isEmpty then return { store with history := history }
  else return ⟨history, deletedIds.foldl Dict.erase (backfillMessages py store.rows history.messages now)⟩

/-- `add_message_status_to_chat_by_id_and_message_id` -/
def addMessageStatus (store : ChatStore) (messageId : Text) (status : Json) : Option ChatStore := do
  let history ← repairCurrentId (cleanHistory store.history)
  match history.messages.get messageId with
  | none => return { store with history := history }
  | some message =>
    match message.fetchD "statusHistory" (.arr []) with
    | .arr statusHistory =>
      let message := message.put "statusHistory" (.arr (statusHistory ++ [sanitizeData status]))
      return { store with history := { history with messages := history.messages.set messageId message } }
    | _ => none

/-- `add_message_files_by_id_and_message_id` -/
def addMessageFiles (store : ChatStore) (messageId : Text) (files : List Json) : Option ChatStore :=
  let history := store.history
  match history.messages.get messageId with
  | none => some { store with history := cleanHistory history }
  | some message =>
    match message.fetchD "files" (.arr []) with
    | .arr messageFiles =>
      let message := message.put "files" (.arr (messageFiles ++ files))
      some { store with
        history := cleanHistory { history with messages := history.messages.set messageId message } }
    | _ => none

/-- An operation on a chat. -/
inductive ChatOp where
  | upsert (messageId : Text) (message : PyDict) (now : ℤ)
  | delete (messageId : Text) (now : ℤ)
  | addStatus (messageId : Text) (status : Json)
  | addFiles (messageId : Text) (files : List Json)

/-- What an operation makes of a chat; `none`: it raises. -/
def ChatOp.apply (store : ChatStore) : ChatOp → Option ChatStore
  | .upsert messageId message now => upsertMessageToChat py store messageId message now
  | .delete messageId now => deleteMessageFromChat py store messageId now
  | .addStatus messageId status => addMessageStatus store messageId status
  | .addFiles messageId files => addMessageFiles store messageId files

/-- A chat under operations; one that raises changes nothing, and answers `false`. -/
def chatMachine : Machine ChatStore ChatOp Bool where
  step store op :=
    match op.apply py store with
    | some store' => some (store', true)
    | none => some (store, false)

/-! ## Reading -/

/-- The fields of a message that are columns of its row. -/
def ChatRow.columns (row : ChatRow) : List (String × Json) :=
  [("role", row.role), ("parentId", row.parentId), ("content", row.content), ("output", row.output),
    ("model", row.modelId), ("files", row.files), ("sources", row.sources), ("embeds", row.embeds),
    ("meta", row.metadata), ("done", row.done), ("statusHistory", row.statusHistory), ("error", row.error),
    ("usage", (row.usage.map PyDict.toJson).getD .null), ("contextSummary", row.contextSummary),
    ("timestamp", row.createdAt)]

/-- A row as a message: a field for each column that is not null. -/
def ChatRow.toMessage (row : ChatRow) (messageId : Text) : PyDict :=
  let message := row.columns.foldl (fun m c => if c.2.isNone then m else m.put c.1 c.2)
    (PyDict.put .empty "id" (.str messageId))
  let message := if (message.get (.lit "content")).isSome then message else message.put "content" (.str [])
  match row.usage with
  | some usage => message.put "info" (.obj [(.lit "usage", usage.toJson)])
  | none => message

/-- The parent lists `childId`, if it is there. -/
def listUnder (messages : Dict Text PyDict) (childId : Text) (parentId : Json) : Dict Text PyDict :=
  match parentId with
  | .str p =>
    match if p = [] then none else messages.get p with
    | some parent =>
      match parent.get (.lit "childrenIds") with
      | some (.arr ids) =>
        if ids.any fun id => id.eqStr childId then messages
        else messages.set p (parent.put "childrenIds" (.arr (ids ++ [.str childId])))
      | _ => messages.set p (parent.put "childrenIds" (.arr [.str childId]))
    | none => messages
  | _ => messages

/-- `ChatMessages.get_messages_map_by_chat_id`, of rows that there are. -/
def rowsMap (rows : Dict Text ChatRow) : Dict Text PyDict :=
  let messages := rows.entries.foldl (fun d e => d.set e.1 (e.2.toMessage e.1)) .empty
  let messages := rows.entries.foldl (fun d e => listUnder d e.1 e.2.parentId) messages
  messages.mapValues fun m =>
    if (m.get (.lit "childrenIds")).isSome then m else m.put "childrenIds" (.arr [])

/-- `get_unresolved_parent_ids` -/
def unresolvedParentIds (messages : Dict Text PyDict) : List Text :=
  messages.entries.filterMap fun e =>
    match e.2.fetch "parentId" with
    | .str p => if p = [] ∨ (messages.get p).isSome then none else some p
    | _ => none

/-- The messages that rows refer to and that have none are taken from the history. -/
def addMissing (historyMessages messages : Dict Text PyDict) (missingIds : List Text) : Dict Text PyDict :=
  missingIds.foldl (fun d id =>
    match historyMessages.get id with
    | some m => d.set id m
    | none => d) messages

/-- `Chats.get_messages_map_by_chat_id` -/
def getMessagesMap (store : ChatStore) : Dict Text PyDict :=
  if store.rows.entries.isEmpty then store.history.messages
  else addMissing store.history.messages (rowsMap store.rows) (unresolvedParentIds (rowsMap store.rows))

/-- `get_message_metadata(…, 'files')` -/
def getMessageFiles (store : ChatStore) (messageId : Text) : Json :=
  match store.rows.get messageId with
  | some row => row.files
  | none => ((store.history.messages.get messageId).map fun m => m.fetch "files").getD .null

end TideBot
