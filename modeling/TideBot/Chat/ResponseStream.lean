/-
  The events of a Responses stream (`utils/middleware.py`).

  `handle_responses_streaming_event` makes of an output and an event the next output.  It goes by the type of the
  event, which says what has been added, what a delta is appended to and what is done, and by the type of the
  item at the index of the event.

  The fields that are used have the types that the protocol gives them: items, parts and summaries are dictionaries,
  `content` and `summary` are lists of them (or are not there) and no names of deltas, and the indices of parts are
  natural numbers.
-/
import TideBot.Lib.PyJson
import TideBot.Lib.JsonText

namespace TideBot

open Lib

/-! ## Items and events -/

/-- An item of an output: its `content`, its `summary`, and its other fields. -/
structure StreamItem where
  fields : PyDict
  content : Option (List PyDict)
  summary : Option (List PyDict)

/-- `item.get('type', '')` -/
def StreamItem.type (item : StreamItem) : Json := item.fields.fetchD "type" (.str [])

/-- An event.  What is empty counts as missing: `item`, `part` and `finalOutput`, the output of `response`. -/
structure StreamEvent where
  type : Text
  fields : PyDict
  outputIndex : Option ℤ
  contentIndex : Option ℕ
  summaryIndex : Option ℕ
  item : Option StreamItem
  part : PyDict
  response : PyDict
  finalOutput : List StreamItem

/-- What is returned beside the output. -/
inductive StreamMetadata where
  | updated
  | completed (usage responseId : Json)
  | failed (error : Json)

/-! ## Merging -/

mutual

/-- `deep_merge` -/
def deepMerge (target : Json) : Json → Json
  | .obj source =>
    match target with
    | .obj fields => .obj (mergeFields fields source)
    | _ => .obj source
  | .str source =>
    match target with
    | .str text => .str (text ++ source)
    | _ => .str source
  | source => source

def mergeFields (target : List (Text × Json)) : List (Text × Json) → List (Text × Json)
  | [] => target
  | (k, v) :: source =>
    mergeFields (Json.setField target (k, match (Json.obj target).field k with
      | some t => deepMerge t v
      | none => v)) source

end

/-! ## The handler -/

/-- `list[i] = f(list[i].copy())`, after the list has been filled up with `filler` to the index `i`. -/
def updatePadded (filler : PyDict) (i : ℕ) (f : PyDict → PyDict) (parts : List PyDict) : List PyDict :=
  (parts ++ List.replicate (i + 1 - parts.length) filler).modify i f

/-- `{'type': type, 'text': ''}` -/
def emptyPart (type : String) : PyDict := (PyDict.put .empty "type" (.str (.lit type))).put "text" (.str [])

/-- `0 <= i < len(list)` -/
def indexIn {α : Type} (list : List α) (i : ℤ) : Option ℕ := if 0 ≤ i ∧ i < list.length then some i.toNat else none

/-- The position of the item that an event is for. -/
def StreamEvent.place (e : StreamEvent) (output : List StreamItem) : Option ℕ :=
  indexIn output (e.outputIndex.getD (output.length - 1))

/-- `event_type.split('.')` -/
def splitDots (type : Text) : List Text := type.splitOn (CodePoint.ofChar '.')

/-- Have two items the same id? -/
def sameItem (item existing : StreamItem) : Bool :=
  ((item.fields.fetch "id").truthy && (existing.fields.fetch "id").eq (item.fields.fetch "id")) ||
    ((item.fields.fetch "call_id").truthy && (existing.fields.fetch "call_id").eq (item.fields.fetch "call_id"))

/-- `response.output_item.added` -/
def addOutputItem (e : StreamEvent) (output : List StreamItem) : List StreamItem :=
  match e.item with
  | none => output
  | some item =>
    match output.findIdx? (sameItem item) with
    | some k => output.set k item
    | none =>
      match indexIn output (e.outputIndex.getD output.length) with
      | some k => output.insertIdx k item
      | none => output ++ [item]

/-- `response.content_part.added` -/
def addContentPart (part : PyDict) (item : StreamItem) : StreamItem :=
  { item with content := some (item.content.getD [] ++ if item.type.eqStr (.lit "reasoning") then [] else [part]) }

/-- `response.reasoning_summary_part.added` -/
def addSummaryPart (part : PyDict) (item : StreamItem) : StreamItem :=
  { item with summary := some (item.summary.getD [] ++ [part]) }

/-- What a delta is merged into, if there is nothing: `{}` or `''`. -/
def initialValue (value delta : Json) : Json :=
  if value.isNone then (if delta.isObj then .obj [] else .str []) else value

section
variable (py : Json → Text)

/-- The part of an item that a delta belongs to; `none`: it raises. -/
def applyDelta (deltaType : Text) (e : StreamEvent) (item : StreamItem) : Option StreamItem :=
  let delta := e.fields.fetchD "delta" (.str [])
  let isText := deltaType = .lit "text" ∨ deltaType = .lit "output_text"
  if deltaType = .lit "function_call_arguments" then
    if item.type.eqStr (.lit "function_call") then
      match item.fields.fetchD "arguments" (.str []) with
      | .str arguments =>
        let text := match delta with
          | .str text => text
          | value => py value
        some { item with fields := item.fields.put "arguments" (.str (arguments ++ text)) }
      | _ => none
    else some item
  else if item.type.eqStr (.lit "message") then
    if deltaType = .lit "reasoning_text" ∨ deltaType = .lit "reasoning_summary_text" then some item
    else
      let key := if isText then .lit "text" else deltaType
      let merged := fun part : PyDict => part.set key (deepMerge (initialValue ((part.get key).getD .null) delta) delta)
      some { item with
        content := some (updatePadded (emptyPart "text") (e.contentIndex.getD 0) merged (item.content.getD [])) }
  else if item.type.eqStr (.lit "reasoning") then
    let merged := fun part : PyDict => part.put "text" (deepMerge (part.fetchD "text" (.str [])) delta)
    if deltaType = .lit "reasoning_summary_text" then
      some { item with
        summary :=
          some (updatePadded (emptyPart "summary_text") (e.summaryIndex.getD 0) merged (item.summary.getD [])) }
    else if deltaType = .lit "reasoning_text" then
      some { item with
        content := some (updatePadded (emptyPart "text") (e.contentIndex.getD 0) merged (item.content.getD [])) }
    else some item
  else
    let key := if isText then .lit "text" else deltaType
    let merged := deepMerge (initialValue ((item.fields.get key).getD .null) delta) delta
    some { item with fields := item.fields.set key merged }

/-- `response.content_part.done` and `response.reasoning_summary_part.done`, in a list of parts; `none`: there is
no such part. -/
def replacePart (part : PyDict) (index : Option ℕ) (parts : Option (List PyDict)) : Option (List PyDict) := do
  let parts ← parts
  let k ← indexIn parts ((index.map fun i => (i : ℤ)).getD (parts.length - 1))
  return parts.set k part

/-- The key of the value in a `.done` event. -/
def doneKey (typeName : Text) : Text :=
  if ["text", "output_text", "reasoning_text", "reasoning_summary_text"].any fun t => typeName = .lit t then .lit "text"
  else if typeName = .lit "function_call_arguments" then .lit "arguments"
  else typeName

/-- What a `.done` event of a field does to an item. -/
def applyDone (typeName key : Text) (value : Json) (e : StreamEvent) (item : StreamItem) : StreamItem :=
  if typeName = .lit "function_call_arguments" then
    if item.type.eqStr (.lit "function_call") then { item with fields := item.fields.put "arguments" value } else item
  else if item.type.eqStr (.lit "message") then
    let done := fun part : PyDict => part.set key value
    { item with content := item.content.map fun parts => parts.modify (e.contentIndex.getD 0) done }
  else if item.type.eqStr (.lit "reasoning") then
    { item with fields := item.fields.put "status" (.str (.lit "completed")) }
  else { item with fields := item.fields.set key value }

/-- `response.….done`, but for an item. -/
def handleDone (e : StreamEvent) (output : List StreamItem) : List StreamItem × Option StreamMetadata :=
  match splitDots e.type with
  | _ :: typeName :: _ :: _ =>
    match e.place output with
    | none => (output, none)
    | some k =>
      match output[k]? with
      | none => (output, none)
      | some item =>
        if typeName = .lit "content_part" then
          match if e.part.entries = [] then none else replacePart e.part e.contentIndex item.content with
          | some content => (output.set k { item with content := some content }, some .updated)
          | none => (output, none)
        else if typeName = .lit "reasoning_summary_part" then
          match if e.part.entries = [] then none else replacePart e.part e.summaryIndex item.summary with
          | some summary => (output.set k { item with summary := some summary }, some .updated)
          | none => (output, none)
        else if typeName = .lit "completed" ∨ typeName = .lit "failed" then (output, none)
        else
          match e.fields.get (doneKey typeName) with
          | some value => (output.set k (applyDone typeName (doneKey typeName) value e item), some .updated)
          | none => (output, none)
  | _ => (output, none)

/-- The status of a reasoning in a completed response. -/
def completeReasoning (item : StreamItem) : StreamItem :=
  if item.type.eqStr (.lit "reasoning") && !(item.fields.fetch "status").eqStr (.lit "completed") then
    { item with fields := item.fields.put "status" (.str (.lit "completed")) }
  else item

/-- `handle_responses_streaming_event`; `none`: it raises. -/
def handleResponsesStreamingEvent (e : StreamEvent) (output : List StreamItem) :
    Option (List StreamItem × Option StreamMetadata) :=
  if e.type = .lit "response.output_item.added" then some (addOutputItem e output, none)
  else if e.type = .lit "response.content_part.added" then
    match e.place output with
    | some k => some (output.modify k (addContentPart e.part), none)
    | none => some (output, none)
  else if e.type = .lit "response.reasoning_summary_part.added" then
    match e.place output with
    | some k => some (output.modify k (addSummaryPart e.part), none)
    | none => some (output, none)
  else if (Text.lit "response.").isPrefixOf e.type && (Text.lit ".delta").isSuffixOf e.type then
    match splitDots e.type, e.place output with
    | _ :: deltaType :: _ :: _, some k =>
      match output[k]? with
      | some item => (applyDelta py deltaType e item).map fun item => (output.set k item, none)
      | none => some (output, none)
    | _, _ => some (output, none)
  else if e.type = .lit "response.output_item.done" then
    match e.item, e.place output with
    | none, _ => some (output, some .updated)
    | some item, some k => some (output.set k item, some .updated)
    | some item, none => some (output ++ [item], some .updated)
  else if (Text.lit "response.").isPrefixOf e.type && (Text.lit ".done").isSuffixOf e.type then
    some (handleDone e output)
  else if e.type = .lit "response.completed" then
    let newOutput := if e.finalOutput.isEmpty then output else e.finalOutput
    some (newOutput.map completeReasoning, some (.completed (e.response.fetch "usage") (e.response.fetch "id")))
  else if e.type = .lit "response.in_progress" then some (output, none)
  else if e.type = .lit "response.failed" then some (output, some (.failed (e.response.fetch "error")))
  else some (output, none)

/-- The output after an event; an event whose handling raises is skipped. -/
def streamStep (output : List StreamItem) (e : StreamEvent) : List StreamItem :=
  ((handleResponsesStreamingEvent py e output).map Prod.fst).getD output

/-- The output after some events. -/
def streamOutput (output : List StreamItem) (events : List StreamEvent) : List StreamItem :=
  events.foldl (streamStep py) output

end

end TideBot
