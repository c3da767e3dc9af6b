/-
  The history of a chat (`models/chats.py`): messages that point to their parents and list their
  children, and the id of the current one.

  A message is an object; its fields are read where the source reads them, with their types
  unchecked as there, so an operation may raise (`none`).  What raises in the source has changed
  nothing that is stored: the transaction is not committed.
-/
import TideBot.Lib.PyJson

namespace TideBot

open Lib

/-- `chat['history']` -/
structure ChatHistory where
  messages : Dict Text PyDict
  currentId : Option Text

namespace ChatHistory

/-- The history of a new chat. -/
def empty : ChatHistory := ⟨.empty, none⟩

end ChatHistory

/-- `messages.get(key)` -/
def messageAt (messages : Dict Text PyDict) (key : Json) : Option (Option PyDict) :=
  key.asKey.map fun k => k.bind messages.get

/-! ## `upsert_message_to_history` -/

/-- The first message that lists `messageId` among its children. -/
def listedBy (messageId : Text) : List (Text × PyDict) → Option (Option Text)
  | [] => some none
  | (existingId, existingMessage) :: rest => do
    if ← (existingMessage.fetchD "childrenIds" (.arr [])).contains messageId then return some existingId
    else listedBy messageId rest

/-- The parent of a new message: the one it names, or the one that lists it. -/
def newParentId (history : ChatHistory) (messageId : Text) (messageParentId : Json) : Option Json :=
  if messageParentId.isNone then
    (listedBy messageId history.messages.entries).map fun k => (k.map Json.str).getD .null
  else some messageParentId

/-- `messages.get(parent_id) if parent_id else None` -/
def parentMessage (messages : Dict Text PyDict) (parentId : Json) : Option (Option PyDict) :=
  if parentId.truthy then messageAt messages parentId else some none

/-- The role of the first item of an output that has one. -/
def outputRole (output : Json) : Option Json := do
  let items ← (output.or (.arr [])).iter
  return ((items.find? fun item => item.isObj && (item.get (.lit "role")).truthy).map
    fun item => item.get (.lit "role")).getD .null

/-- The role of a new message. -/
def newRole (role : Json) (parent : Option PyDict) : Json :=
  if role.truthy then role
  else
    let parentRole := (parent.map fun p => p.fetch "role").getD .null
    if parentRole.eqStr (.lit "user") then .str (.lit "assistant")
    else if parentRole.eqStr (.lit "assistant") then .str (.lit "user")
    else .str (.lit "assistant")

/-- A list, or `[]`. -/
def listOrEmpty : Json → Json
  | .arr ids => .arr ids
  | _ => .arr []

/-- The new message, with the parent and the role that have been found. -/
def newMessage (messageId : Text) (message : PyDict) (parentId role : Json) (now : ℤ) : PyDict :=
  ((((message.put "id" ((message.fetch "id").or (.str messageId))).put "parentId"
    (if (message.fetch "parentId").isNone then parentId else message.fetch "parentId")).put "childrenIds"
      (listOrEmpty (message.fetch "childrenIds"))).put "role" role).put "timestamp"
        ((message.fetch "timestamp").or (.int now))

/-- `upsert_message_to_history`, with the message that is saved; `now` is `int(time.time())`. -/
def upsertMessageToHistory (history : ChatHistory) (messageId : Text) (message : PyDict) (now : ℤ) :
    Option (ChatHistory × PyDict) :=
  match history.messages.get messageId with
  | some existing =>
    let saved := existing.update message
    some ({ history with messages := history.messages.set messageId saved }, saved)
  | none => do
    let messageParentId := message.fetch "parentId"
    let parentId ← newParentId history messageId messageParentId
    let parent ← parentMessage history.messages parentId
    let itemRole ← outputRole (message.fetch "output")
    let role := newRole ((message.fetch "role").or itemRole) parent
    let saved := newMessage messageId message parentId role now
    return (⟨history.messages.set messageId saved, some messageId⟩, saved)

section
variable {h h' : ChatHistory} {k : Text} {message saved : PyDict} {now : ℤ}

theorem listedBy_mem {es : List (Text × PyDict)} {id : Text} (hl : listedBy k es = some (some id)) :
    id ∈ es.map Prod.fst := by
  induction es with
  | nil => cases hl
  | cons e es ih =>
    obtain ⟨listed, -, hl⟩ := Option.bind_eq_some_iff.1 hl
    rw [List.map_cons, List.mem_cons]
    split_ifs at hl
    · exact .inl (Option.some.inj (Option.some.inj hl)).symm
    · exact .inr (ih hl)

theorem upsert_saved (hu : upsertMessageToHistory h k message now = some (h', saved)) :
    h'.messages = h.messages.set k saved ∧
      ((∃ old, h.messages.get k = some old ∧ saved = old.update message) ∨
        (h.messages.get k = none ∧ ∃ parentId role, newParentId h k (message.fetch "parentId") = some parentId ∧
          saved = newMessage k message parentId role now)) := by
  unfold upsertMessageToHistory at hu
  split at hu
  · rename_i old hold
    cases hu
    exact ⟨rfl, .inl ⟨old, hold, rfl⟩⟩
  · rename_i hnone
    simp only [Option.bind_eq_bind, Option.bind_eq_some_iff] at hu
    obtain ⟨parentId, hparent, parent, -, role, -, hu⟩ := hu
    cases hu
    exact ⟨rfl, .inr ⟨hnone, parentId, _, hparent, rfl⟩⟩

theorem get_newMessage {parentId role : Json} {key : String}
    (hkey : key ∉ ["id", "parentId", "childrenIds", "role", "timestamp"]) :
    (newMessage k message parentId role now).get (.lit key) = message.get (.lit key) := by
  simp only [List.mem_cons, List.not_mem_nil, or_false, not_or] at hkey
  obtain ⟨hid, hparent, hchildren, hrole, htime⟩ := hkey
  simp [newMessage, PyDict.get_put, hid, hparent, hchildren, hrole, htime]

theorem get_role_newMessage {parentId role : Json} :
    ((newMessage k message parentId role now).get (.lit "role")).isSome := by
  simp [newMessage, PyDict.get_put]

end

/-! ## `merge_history` -/

/-- `message['childrenIds'].append(childId)`, of a list. -/
def appendChild (message : PyDict) (childId : Text) : PyDict :=
  match message.fetch "childrenIds" with
  | .arr ids => message.put "childrenIds" (.arr (ids ++ [.str childId]))
  | _ => message

/-- The loop over `merged.items()`. -/
def linkChildren (merged : Dict Text PyDict) : List (Text × PyDict) → Option (Dict Text PyDict)
  | [] => some merged
  | (messageId, message) :: rest => do
    match ← (message.fetch "parentId").asKey with
    | none => linkChildren merged rest
    | some parentId =>
      match merged.get parentId with
      | none => linkChildren merged rest
      | some parent => linkChildren (merged.set parentId (appendChild parent messageId)) rest

/-- `merge_history` -/
def mergeHistory (existing incoming : ChatHistory) : Option ChatHistory := do
  let merged := (existing.messages.update incoming.messages).mapValues
    fun message => message.put "childrenIds" (.arr [])
  let messages ← linkChildren merged merged.entries
  let present := fun id => (messages.get id).isSome
  return ⟨messages, (incoming.currentId.filter present).or (existing.currentId.filter present)⟩

/-! ## `delete_message_from_history` -/

/-- `[id for id in (ids or []) if id in messages]` -/
def idsIn (messages : Dict Text PyDict) (ids : Json) : Option (List Text) := do
  let items ← (ids.or (.arr [])).iter
  let keys ← items.mapM Json.asKey
  return keys.reduceOption.filter fun id => (messages.get id).isSome

/-- The ids among the children of the messages `childIds`. -/
def grandchildrenOf (messages : Dict Text PyDict) : List Text → Option (List Text)
  | [] => some []
  | childId :: rest => do
    let ids ← idsIn messages (((messages.get childId).map fun m => m.fetch "childrenIds").getD .null)
    return ids ++ (← grandchildrenOf messages rest)

/-- Set `messages[id][key]`, of a message that is there. -/
def putAt (messages : Dict Text PyDict) (id : Text) (key : String) (value : Json) : Dict Text PyDict :=
  match messages.get id with
  | none => messages
  | some message => messages.set id (message.put key value)

/-- The parent's list, without the message and with its grandchildren. -/
def adopt (messages : Dict Text PyDict) (messageId : Text) (grandchildIds : List Text) :
    Option Text → Option (Dict Text PyDict)
  | none => some messages
  | some parentId =>
    match messages.get parentId with
    | none => some messages
    | some parent => do
      let siblings ← ((parent.fetch "childrenIds").or (.arr [])).iter
      some (messages.set parentId (parent.put "childrenIds"
        (.arr (siblings.filter (fun s => !s.eqStr messageId) ++ grandchildIds.map .str))))

/-- The loop that goes down to the last leaf; the fuel is the number of messages and one more. -/
def lastLeaf (messages : Dict Text PyDict) : ℕ → List Text → Json → Json → Option Json
  | 0, _, currentId, _ => some currentId
  | fuel + 1, visitedIds, currentId, childIds => do
    match ← childIds.last with
    | none => return currentId
    | some next =>
      match ← next.asKey with
      | none => return next
      | some id =>
        if id ∈ visitedIds then return currentId
        else
          lastLeaf messages fuel (id :: visitedIds) next
            (((messages.get id).map fun m => m.fetchD "childrenIds" (.arr [])).getD (.arr []))

/-- `delete_message_from_history`, with the ids that are deleted. -/
def deleteMessageFromHistory (history : ChatHistory) (messageId : Text) :
    Option (ChatHistory × List Text) :=
  match history.messages.get messageId with
  | none => some (history, [])
  | some message => do
    let messages := history.messages
    let parentId := message.fetch "parentId"
    let childIds ← idsIn messages (message.fetch "childrenIds")
    let grandchildIds ← grandchildrenOf messages childIds
    let parentKey ← parentId.asKey
    let messages ← adopt messages messageId grandchildIds parentKey
    let messages := grandchildIds.foldl (fun ms id => putAt ms id "parentId" parentId) messages
    let deletedIds := messageId :: childIds
    let messages := deletedIds.foldl Dict.erase messages
    let childIds :=
      if parentId.isNone then
        Json.strs ((messages.entries.filter fun e => (e.2.fetch "parentId").isNone).map Prod.fst)
      else ((parentKey.bind messages.get).map fun m => m.fetchD "childrenIds" (.arr [])).getD (.arr [])
    let currentId ← lastLeaf messages (messages.size + 1) [] parentId childIds
    let currentKey ← currentId.asKey
    return (⟨messages, currentKey.filter fun id => (messages.get id).isSome⟩, deletedIds)

end TideBot
