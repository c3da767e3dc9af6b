/-
  The texts of a response, from the events of its stream (`utils/middleware.py`).

  A stream adds items, and to a message and to the summary of a reasoning parts; it streams the texts of the parts
  and the arguments of the function calls in deltas, of all of them in any order (`WellFormed`).  An output records what
  has been streamed (`Records`) if it has an item for every item that has been added, and each text is the
  concatenation of its own deltas.
-/
import TideBot.Chat.ResponseStream

namespace TideBot

open Lib

/-! ## What has been streamed -/

/-- A text that is streamed, by the index of its item. -/
inductive TextField where
  | content (item part : ℕ)
  | summary (item part : ℕ)
  | arguments (item : ℕ)
deriving DecidableEq

/-- The type of an event that is about the field `name`. -/
def responseType (name : Text) (kind : String) : Text :=
  .lit "response." ++ (name ++ CodePoint.ofChar '.' :: Text.lit kind)

/-- The field that the deltas of a name are for. -/
def StreamEvent.fieldOf (e : StreamEvent) (name : Text) : Option TextField := do
  let i ← e.outputIndex.map Int.toNat
  if ["text", "output_text", "reasoning_text"].any fun t => name = .lit t then return .content i (← e.contentIndex)
  else if name = .lit "reasoning_summary_text" then return .summary i (← e.summaryIndex)
  else if name = .lit "function_call_arguments" then return .arguments i
  else none

/-- The delta of an event. -/
def StreamEvent.delta (e : StreamEvent) : Option (TextField × Text) :=
  if (Text.lit "response.").isPrefixOf e.type && (Text.lit ".delta").isSuffixOf e.type then
    match splitDots e.type, e.fields.get (.lit "delta") with
    | _ :: name :: _, some (.str text) => (e.fieldOf name).map fun field => (field, text)
    | _, _ => none
  else none

/-- The items that have been added. -/
def addedItems (events : List StreamEvent) : List StreamItem :=
  events.filterMap fun e => if e.type = .lit "response.output_item.added" then e.item else none

/-- The number of parts that have been added to the content of an item. -/
def contentParts (events : List StreamEvent) (i : ℕ) : ℕ :=
  events.countP fun e => e.type = .lit "response.content_part.added" ∧ e.outputIndex = some (i : ℤ)

/-- The number of parts that have been added to its summary. -/
def summaryParts (events : List StreamEvent) (i : ℕ) : ℕ :=
  events.countP fun e => e.type = .lit "response.reasoning_summary_part.added" ∧ e.outputIndex = some (i : ℤ)

/-- The concatenation of the deltas of a field. -/
def fieldText (events : List StreamEvent) (field : TextField) : Text :=
  events.flatMap fun e =>
    match e.delta with
    | some (g, text) => if g = field then text else []
    | none => []

/-! ## The texts of an item -/

/-- The text of a part. -/
def partText (part : PyDict) : Json := part.fetchD "text" (.str [])

/-- The texts of an item: those of the content of a reasoning are given for every index. -/
inductive ItemTexts where
  | message (parts : List Json)
  | reasoning (content : ℕ → Json) (summary : List Json)
  | functionCall (arguments : Json)
  | other

def StreamItem.texts (item : StreamItem) : ItemTexts :=
  if item.type.eqStr (.lit "message") then .message ((item.content.getD []).map partText)
  else if item.type.eqStr (.lit "reasoning") then
    .reasoning (fun j => partText (((item.content.getD [])[j]?).getD .empty)) ((item.summary.getD []).map partText)
  else if item.type.eqStr (.lit "function_call") then .functionCall (item.fields.fetchD "arguments" (.str []))
  else .other

/-- The texts that have been streamed for the item `i`. -/
def streamedTexts (events : List StreamEvent) (i : ℕ) (type : Json) : ItemTexts :=
  if type.eqStr (.lit "message") then
    .message ((List.range (contentParts events i)).map fun j => .str (fieldText events (.content i j)))
  else if type.eqStr (.lit "reasoning") then
    .reasoning (fun j => .str (fieldText events (.content i j)))
      ((List.range (summaryParts events i)).map fun j => .str (fieldText events (.summary i j)))
  else if type.eqStr (.lit "function_call") then .functionCall (.str (fieldText events (.arguments i)))
  else .other

/-- What an item is known by. -/
def StreamItem.identity (item : StreamItem) : Json × Json × Json :=
  (item.type, item.fields.fetch "id", item.fields.fetch "call_id")

/-! ## Well-formed streams -/

/-- Is the item of a type? -/
def StreamItem.IsA (item : StreamItem) (type : String) : Prop := item.type = .str (.lit type)

/-- An item without a text. -/
structure StreamItem.Blank (item : StreamItem) : Prop where
  content : item.content.getD [] = []
  summary : item.summary.getD [] = []
  arguments : item.IsA "function_call" → item.fields.fetchD "arguments" (.str []) = .str []

/-- The event is for an item that has been added. -/
def StreamEvent.For (e : StreamEvent) (events : List StreamEvent) (i : ℕ) (item : StreamItem) : Prop :=
  e.outputIndex = some (i : ℤ) ∧ (addedItems events)[i]? = some item

/-- A field of which nothing is known here. -/
structure OtherField (name : Text) : Prop where
  noDot : CodePoint.ofChar '.' ∉ name
  other : ∀ known ∈ ["text", "output_text", "reasoning_text", "reasoning_summary_text", "function_call_arguments",
    "type", "id", "call_id", "arguments", "content", "summary", "output_item", "content_part",
    "reasoning_summary_part"], name ≠ .lit known

/-- An event that the handler passes over. -/
structure StreamEvent.Ignored (e : StreamEvent) : Prop where
  type : ∀ known ∈ ["response.output_item.added", "response.content_part.added",
    "response.reasoning_summary_part.added", "response.completed"], e.type ≠ .lit known
  noDelta : ¬(Text.lit ".delta").isSuffixOf e.type
  noDone : ¬(Text.lit ".done").isSuffixOf e.type

/-- The event is a delta, `text`, of the field `name`. -/
def StreamEvent.IsDelta (e : StreamEvent) (name : String) (text : Text) : Prop :=
  e.type = responseType (.lit name) "delta" ∧ e.fields.get (.lit "delta") = some (.str text)

/-- The event says that the field `name` is done, which is `text`. -/
def StreamEvent.IsDone (e : StreamEvent) (name key : String) (text : Text) : Prop :=
  e.type = responseType (.lit name) "done" ∧ e.fields.get (.lit key) = some (.str text)

/-- The event is a delta of a text that is there. -/
inductive IsDeltaFor (events : List StreamEvent) (e : StreamEvent) : TextField → Text → Prop
  | text {i item name text j} : e.IsDelta name text → name ∈ ["text", "output_text"] → e.For events i item →
      item.IsA "message" → e.contentIndex = some j → j < contentParts events i → IsDeltaFor events e (.content i j) text
  | reasoning {i item text j} : e.IsDelta "reasoning_text" text → e.For events i item → item.IsA "reasoning" →
      e.contentIndex = some j → IsDeltaFor events e (.content i j) text
  | summary {i item text j} : e.IsDelta "reasoning_summary_text" text → e.For events i item → item.IsA "reasoning" →
      e.summaryIndex = some j → j < summaryParts events i → IsDeltaFor events e (.summary i j) text
  | arguments {i item text} : e.IsDelta "function_call_arguments" text → e.For events i item →
      item.IsA "function_call" → IsDeltaFor events e (.arguments i) text

/-- What may come after some events. -/
inductive Follows (events : List StreamEvent) (e : StreamEvent) : Prop
  | itemAdded {item} : e.type = .lit "response.output_item.added" → e.item = some item →
      e.outputIndex = some ((addedItems events).length : ℤ) → (∀ old ∈ addedItems events, ¬sameItem item old) →
      item.Blank → Follows events e
  | contentPartAdded {i item} : e.type = .lit "response.content_part.added" → e.For events i item →
      item.IsA "message" → e.contentIndex = some (contentParts events i) → partText e.part = .str [] → Follows events e
  | reasoningPartAdded {i item} : e.type = .lit "response.content_part.added" → e.For events i item →
      item.IsA "reasoning" → Follows events e
  | summaryPartAdded {i item} : e.type = .lit "response.reasoning_summary_part.added" → e.For events i item →
      item.IsA "reasoning" → e.summaryIndex = some (summaryParts events i) → partText e.part = .str [] →
      Follows events e
  | delta {field text} : IsDeltaFor events e field text → Follows events e
  | otherDelta {i item name} : e.type = responseType name "delta" → OtherField name → e.For events i item →
      (item.IsA "message" → ∃ j, e.contentIndex = some j ∧ j < contentParts events i) → Follows events e
  | textDone {i item name j} : e.IsDone name "text" (fieldText events (.content i j)) → name ∈ ["text", "output_text"] →
      e.For events i item → item.IsA "message" → e.contentIndex = some j → Follows events e
  | reasoningDone {i item j} : e.IsDone "reasoning_text" "text" (fieldText events (.content i j)) →
      e.For events i item → item.IsA "reasoning" → e.contentIndex = some j → Follows events e
  | summaryDone {i item j} : e.IsDone "reasoning_summary_text" "text" (fieldText events (.summary i j)) →
      e.For events i item → item.IsA "reasoning" → e.summaryIndex = some j → Follows events e
  | argumentsDone {i item} : e.IsDone "function_call_arguments" "arguments" (fieldText events (.arguments i)) →
      e.For events i item → item.IsA "function_call" → Follows events e
  | otherDone {i item name} : e.type = responseType name "done" → OtherField name → e.For events i item →
      Follows events e
  | contentPartDone {i item j} : e.type = responseType (.lit "content_part") "done" → e.For events i item →
      item.IsA "message" ∨ item.IsA "reasoning" → e.contentIndex = some j →
      partText e.part = .str (fieldText events (.content i j)) → Follows events e
  | summaryPartDone {i item j} : e.type = responseType (.lit "reasoning_summary_part") "done" →
      e.For events i item → item.IsA "reasoning" → e.summaryIndex = some j →
      partText e.part = .str (fieldText events (.summary i j)) → Follows events e
  | itemDone {i item payload} : e.type = .lit "response.output_item.done" → e.item = some payload →
      e.For events i item → payload.identity = item.identity → payload.texts = streamedTexts events i item.type →
      Follows events e
  | completed : e.type = .lit "response.completed" → e.finalOutput = [] → Follows events e
  | ignored : e.Ignored → Follows events e

/-- The well-formed streams. -/
inductive WellFormed : List StreamEvent → Prop
  | nil : WellFormed []
  | snoc {events e} : WellFormed events → Follows events e → WellFormed (events ++ [e])

/-! ## What an event adds -/

section
variable {events : List StreamEvent} {e : StreamEvent}

theorem addedItems_snoc :
    addedItems (events ++ [e]) =
      addedItems events ++ if e.type = .lit "response.output_item.added" then e.item.toList else [] := by
  rw [addedItems, List.filterMap_append]
  by_cases h : e.type = .lit "response.output_item.added"
  · cases hitem : e.item <;> simp [addedItems, h, hitem]
  · simp [addedItems, h]

theorem contentParts_snoc {i : ℕ} :
    contentParts (events ++ [e]) i = contentParts events i +
      if e.type = .lit "response.content_part.added" ∧ e.outputIndex = some (i : ℤ) then 1 else 0 := by
  simp [contentParts, List.countP_append, List.countP_cons]

theorem summaryParts_snoc {i : ℕ} :
    summaryParts (events ++ [e]) i = summaryParts events i +
      if e.type = .lit "response.reasoning_summary_part.added" ∧ e.outputIndex = some (i : ℤ) then 1 else 0 := by
  simp [summaryParts, List.countP_append, List.countP_cons]

theorem fieldText_snoc {field : TextField} :
    fieldText (events ++ [e]) field = fieldText events field ++
      match e.delta with
      | some (g, text) => if g = field then text else []
      | none => [] := by
  simp [fieldText, List.flatMap_append]

theorem fieldText_of_delta_none (h : e.delta = none) {field : TextField} :
    fieldText (events ++ [e]) field = fieldText events field := by
  rw [fieldText_snoc, h, List.append_nil]

theorem fieldText_of_delta {g field : TextField} {text : Text} (h : e.delta = some (g, text)) :
    fieldText (events ++ [e]) field = if g = field then fieldText events field ++ text else fieldText events field := by
  rw [fieldText_snoc, h]
  split_ifs with hg <;> simp [hg]

end

/-! ## The types of events -/

section
variable {e : StreamEvent} {name : Text} {kind : String}

theorem splitDots_responseType (h : CodePoint.ofChar '.' ∉ name) (hkind : CodePoint.ofChar '.' ∉ Text.lit kind) :
    splitDots (responseType name kind) = [.lit "response", name, .lit kind] := by
  have hprefix : Text.lit "response." = .lit "response" ++ [CodePoint.ofChar '.'] := by decide
  rw [splitDots, responseType, hprefix, List.append_assoc, List.singleton_append,
    List.splitOn_append_cons_self_of_not_mem (by decide), List.splitOn_append_cons_self_of_not_mem h,
    List.splitOn_eq_singleton hkind]

theorem isPrefixOf_responseType : (Text.lit "response.").isPrefixOf (responseType name kind) := by
  rw [List.isPrefixOf_iff_prefix]
  exact List.prefix_append _ _

theorem isSuffixOf_delta : (Text.lit ".delta").isSuffixOf (responseType name "delta") := by
  rw [List.isSuffixOf_iff_suffix]
  exact ⟨Text.lit "response." ++ name, by rw [responseType, List.append_assoc]; rfl⟩

theorem isSuffixOf_done : (Text.lit ".done").isSuffixOf (responseType name "done") := by
  rw [List.isSuffixOf_iff_suffix]
  exact ⟨Text.lit "response." ++ name, by rw [responseType, List.append_assoc]; rfl⟩

theorem not_isSuffixOf_delta_done : ¬(Text.lit ".delta").isSuffixOf (responseType name "done") := by
  rw [List.isSuffixOf_iff_suffix]
  rintro ⟨l, h⟩
  have ha : (Text.lit ".delta").getLast? = some (CodePoint.ofChar 'a') := by decide
  have he : (CodePoint.ofChar '.' :: Text.lit "done").getLast? = some (CodePoint.ofChar 'e') := by decide
  have hlast := congrArg List.getLast? h
  rw [responseType, List.getLast?_append, List.getLast?_append, List.getLast?_append, ha, he,
    Option.some_or, Option.some_or, Option.some_or] at hlast
  exact absurd hlast (by decide)

theorem delta_of_not_suffix (h : ¬(Text.lit ".delta").isSuffixOf e.type) : e.delta = none := by
  rw [StreamEvent.delta, if_neg]
  simp [h]

theorem delta_of_type {type : String} (h : e.type = .lit type)
    (hsuffix : ¬(Text.lit ".delta").isSuffixOf (Text.lit type) := by decide) : e.delta = none :=
  delta_of_not_suffix (h ▸ hsuffix)

theorem delta_of_done (h : e.type = responseType name "done") : e.delta = none :=
  delta_of_not_suffix (h ▸ not_isSuffixOf_delta_done)

theorem delta_eq (hname : CodePoint.ofChar '.' ∉ name) (h : e.type = responseType name "delta") {text : Text}
    (htext : e.fields.get (.lit "delta") = some (.str text)) :
    e.delta = (e.fieldOf name).map fun field => (field, text) := by
  rw [StreamEvent.delta, if_pos, h, splitDots_responseType hname (by decide), htext]
  rw [h, isPrefixOf_responseType, isSuffixOf_delta]
  rfl

end

/-! ## The handler, by the type of the event -/

section
variable (py : Json → Text) {e : StreamEvent} {output : List StreamItem} {name : Text} {i : ℕ} {item : StreamItem}

theorem streamOutput_snoc {events : List StreamEvent} :
    streamOutput py output (events ++ [e]) = streamStep py (streamOutput py output events) e := by
  rw [streamOutput, streamOutput, List.foldl_append, List.foldl_cons, List.foldl_nil]

theorem place_eq (hindex : e.outputIndex = some (i : ℤ)) (hitem : output[i]? = some item) :
    e.place output = some i := by
  obtain ⟨hlt, -⟩ := List.getElem?_eq_some_iff.1 hitem
  rw [StreamEvent.place, hindex, indexIn, Option.getD_some, if_pos (by omega), Int.toNat_natCast]

theorem ne_of_suffix {type suffix : Text} {known : String} (h : suffix.isSuffixOf type)
    (hknown : ¬suffix.isSuffixOf (Text.lit known)) : type ≠ .lit known := by
  rintro rfl
  exact hknown h

theorem streamStep_delta (hname : CodePoint.ofChar '.' ∉ name) (htype : e.type = responseType name "delta")
    (hindex : e.outputIndex = some (i : ℤ)) (hitem : output[i]? = some item) :
    streamStep py output e = ((applyDelta py name e item).map fun item => output.set i item).getD output := by
  have hsuffix : (Text.lit ".delta").isSuffixOf e.type := htype ▸ isSuffixOf_delta
  rw [streamStep, handleResponsesStreamingEvent, if_neg (ne_of_suffix hsuffix (by decide)),
    if_neg (ne_of_suffix hsuffix (by decide)), if_neg (ne_of_suffix hsuffix (by decide)),
    if_pos (by rw [hsuffix, htype, isPrefixOf_responseType]; rfl), htype,
    splitDots_responseType hname (by decide), place_eq hindex hitem]
  simp only [hitem, Option.map_map]
  rfl

theorem streamStep_done (htype : e.type = responseType name "done") (hname : name ≠ .lit "output_item") :
    streamStep py output e = (handleDone e output).1 := by
  have hsuffix : (Text.lit ".done").isSuffixOf e.type := htype ▸ isSuffixOf_done
  have hitem : e.type ≠ .lit "response.output_item.done" := by
    have hlit : Text.lit "response.output_item.done" = responseType (.lit "output_item") "done" := by decide
    rw [htype, hlit, responseType, responseType]
    intro h
    exact hname (List.append_cancel_right (List.append_cancel_left h))
  have hdelta : ¬(Text.lit ".delta").isSuffixOf e.type := htype ▸ not_isSuffixOf_delta_done
  rw [streamStep, handleResponsesStreamingEvent, if_neg (ne_of_suffix hsuffix (by decide)),
    if_neg (ne_of_suffix hsuffix (by decide)), if_neg (ne_of_suffix hsuffix (by decide)),
    if_neg (by simp [hdelta]), if_neg hitem, if_pos (by rw [hsuffix, htype, isPrefixOf_responseType]; rfl)]
  rfl

end

/-! ## The texts of parts -/

section
variable {parts : List PyDict} {n j : ℕ} {t t' : ℕ → Json} {text s : Text} {part filler : PyDict}
  {f : PyDict → PyDict}

theorem map_modify_range (h : parts.map partText = (List.range n).map t) (hother : ∀ k, k ≠ j → t' k = t k)
    (hj : ∀ part, partText part = t j → partText (f part) = t' j) :
    (parts.modify j f).map partText = (List.range n).map t' := by
  ext k v
  have hk := congrArg (·[k]?) h
  simp only [List.getElem?_map] at hk
  simp only [List.getElem?_map, List.getElem?_modify]
  cases hpart : parts[k]? with
  | none =>
    rw [hpart, Option.map_none, eq_comm, Option.map_eq_none_iff] at hk
    rw [hk]
    rfl
  | some part =>
    rw [hpart, Option.map_some, eq_comm, Option.map_eq_some_iff] at hk
    obtain ⟨k', hrange, ht⟩ := hk
    obtain ⟨hlt, hget⟩ := List.getElem?_eq_some_iff.1 hrange
    obtain rfl : k = k' := by rw [← hget, List.getElem_range]
    rw [hrange]
    by_cases hkj : j = k
    · subst hkj
      simp [hj part ht.symm]
    · simp [hkj, hother k (Ne.symm hkj), ht]

theorem map_append_range (h : parts.map partText = (List.range n).map t) (ht : ∀ k, t' k = t k)
    (hn : partText part = t' n) : (parts ++ [part]).map partText = (List.range (n + 1)).map t' := by
  rw [List.map_append, h, List.range_succ, List.map_append, List.map_singleton, List.map_singleton, hn,
    List.map_congr_left fun k _ => ht k]

theorem length_of_map_range (h : parts.map partText = (List.range n).map t) : parts.length = n := by
  simpa using congrArg List.length h

theorem updatePadded_of_lt (filler : PyDict) (h : j < parts.length) :
    updatePadded filler j f parts = parts.modify j f := by
  rw [updatePadded, show j + 1 - parts.length = 0 by omega, List.replicate_zero, List.append_nil]

theorem partText_updatePadded (hfiller : partText filler = .str []) (k : ℕ) :
    partText (((updatePadded filler j f parts)[k]?).getD .empty) =
      if j = k then partText (f ((parts[k]?).getD filler)) else partText ((parts[k]?).getD .empty) := by
  have hempty : partText .empty = .str [] := rfl
  rw [updatePadded, List.getElem?_modify, List.getElem?_append]
  by_cases hk : k < parts.length
  · rw [if_pos hk, List.getElem?_eq_getElem hk]
    by_cases hj : j = k <;> simp [hj]
  · rw [if_neg hk, List.getElem?_eq_none (by omega : parts.length ≤ k), List.getElem?_replicate]
    by_cases hj : j = k
    · simp [hj, show k - parts.length < k + 1 - parts.length by omega]
    · split_ifs <;> simp [hfiller, hempty]

theorem partText_set (value : Json) : partText (part.set (.lit "text") value) = value := by
  rw [partText, PyDict.fetchD, Dict.get_set_self, Option.getD_some]

theorem partText_set_of_ne {key : Text} (h : key ≠ .lit "text") (value : Json) :
    partText (part.set key value) = partText part := by
  rw [partText, partText, PyDict.fetchD, PyDict.fetchD, Dict.get_set_of_ne _ (Ne.symm h)]

theorem deepMerge_text (h : partText part = .str s) :
    deepMerge (initialValue ((part.get (.lit "text")).getD .null) (.str text)) (.str text) = .str (s ++ text) := by
  rw [partText, PyDict.fetchD] at h
  cases hget : part.get (.lit "text") with
  | none =>
    rw [hget] at h
    obtain rfl := Json.str.inj h
    rfl
  | some value =>
    rw [hget] at h
    obtain rfl : value = .str s := h
    rfl

end

/-! ## The output records what has been streamed -/

namespace StreamItem

section
variable {item item' : StreamItem} {type : String}

theorem IsA.eqStr (h : item.IsA type) (known : String) : item.type.eqStr (.lit known) = decide (type = known) := by
  rw [h, Json.eqStr]
  simp

theorem texts_message (h : item.IsA "message") : item.texts = .message ((item.content.getD []).map partText) := by
  simp [texts, h.eqStr]

theorem texts_reasoning (h : item.IsA "reasoning") :
    item.texts = .reasoning (fun j => partText (((item.content.getD [])[j]?).getD .empty))
      ((item.summary.getD []).map partText) := by
  simp [texts, h.eqStr]

theorem texts_functionCall (h : item.IsA "function_call") :
    item.texts = .functionCall (item.fields.fetchD "arguments" (.str [])) := by
  simp [texts, h.eqStr]

theorem texts_congr (htype : item'.type = item.type) (hcontent : item'.content = item.content)
    (hsummary : item'.summary = item.summary)
    (harguments : item.IsA "function_call" →
      item'.fields.fetchD "arguments" (.str []) = item.fields.fetchD "arguments" (.str [])) :
    item'.texts = item.texts := by
  rw [texts, texts, htype, hcontent, hsummary]
  split_ifs with hmessage hreasoning hcall
  · rfl
  · rfl
  · rw [harguments (Json.eqStr_iff.1 hcall)]
  · rfl

end

end StreamItem

section
variable {events : List StreamEvent} {i : ℕ} {added : StreamItem}

theorem streamedTexts_message (h : added.IsA "message") :
    streamedTexts events i added.type =
      .message ((List.range (contentParts events i)).map fun j => .str (fieldText events (.content i j))) := by
  simp [streamedTexts, h.eqStr]

theorem streamedTexts_reasoning (h : added.IsA "reasoning") :
    streamedTexts events i added.type = .reasoning (fun j => .str (fieldText events (.content i j)))
      ((List.range (summaryParts events i)).map fun j => .str (fieldText events (.summary i j))) := by
  simp [streamedTexts, h.eqStr]

theorem streamedTexts_functionCall (h : added.IsA "function_call") :
    streamedTexts events i added.type = .functionCall (.str (fieldText events (.arguments i))) := by
  simp [streamedTexts, h.eqStr]

end

/-- The item of a field. -/
def TextField.item : TextField → ℕ
  | content i _ | summary i _ | arguments i => i

section
variable {events : List StreamEvent} {e : StreamEvent} {i k : ℕ} {type : Json}

theorem streamedTexts_congr (hcontent : contentParts (events ++ [e]) i = contentParts events i)
    (hsummary : summaryParts (events ++ [e]) i = summaryParts events i)
    (htext : ∀ field : TextField, field.item = i → fieldText (events ++ [e]) field = fieldText events field) :
    streamedTexts (events ++ [e]) i type = streamedTexts events i type := by
  have hcontents : ∀ j, fieldText (events ++ [e]) (.content i j) = fieldText events (.content i j) := by
    exact fun j => htext _ rfl
  have hsummaries : ∀ j, fieldText (events ++ [e]) (.summary i j) = fieldText events (.summary i j) := by
    exact fun j => htext _ rfl
  have harguments : fieldText (events ++ [e]) (.arguments i) = fieldText events (.arguments i) := htext _ rfl
  simp only [streamedTexts, hcontent, hsummary, hcontents, hsummaries, harguments]

theorem item_of_fieldOf {name : Text} {field : TextField} (hindex : e.outputIndex = some (k : ℤ))
    (h : e.fieldOf name = some field) : field.item = k := by
  rw [StreamEvent.fieldOf, hindex, Option.map_some, Int.toNat_natCast] at h
  simp only [Option.bind_eq_bind, Option.bind_some, Option.pure_def] at h
  split_ifs at h
  · obtain ⟨j, -, hj⟩ := Option.bind_eq_some_iff.1 h
    obtain rfl := Option.some.inj hj
    rfl
  · obtain ⟨j, -, hj⟩ := Option.bind_eq_some_iff.1 h
    obtain rfl := Option.some.inj hj
    rfl
  · obtain rfl := Option.some.inj h
    rfl

theorem item_of_delta {field : TextField} {text : Text} (hindex : e.outputIndex = some (k : ℤ))
    (h : e.delta = some (field, text)) : field.item = k := by
  unfold StreamEvent.delta at h
  split_ifs at h
  split at h
  · obtain ⟨field', hfield, heq⟩ := Option.map_eq_some_iff.1 h
    obtain rfl := (Prod.mk.inj heq).1
    exact item_of_fieldOf hindex hfield
  · cases h

theorem streamedTexts_of_ne (hindex : e.outputIndex = some (k : ℤ)) (hne : i ≠ k) :
    streamedTexts (events ++ [e]) i type = streamedTexts events i type := by
  have hindex' : e.outputIndex ≠ some (i : ℤ) := by
    rw [hindex]
    intro h
    exact hne (Int.ofNat.inj (Option.some.inj h)).symm
  refine streamedTexts_congr ?_ ?_ ?_
  · rw [contentParts_snoc, if_neg fun h => hindex' h.2, Nat.add_zero]
  · rw [summaryParts_snoc, if_neg fun h => hindex' h.2, Nat.add_zero]
  · rintro field rfl
    cases hdelta : e.delta with
    | none => exact fieldText_of_delta_none hdelta
    | some d =>
      have hitem := item_of_delta hindex hdelta
      rw [fieldText_of_delta hdelta, if_neg]
      rintro rfl
      exact hne hitem

theorem streamedTexts_of_silent (hdelta : e.delta = none) (hcontent : e.type ≠ .lit "response.content_part.added")
    (hsummary : e.type ≠ .lit "response.reasoning_summary_part.added") :
    streamedTexts (events ++ [e]) i type = streamedTexts events i type := by
  refine streamedTexts_congr ?_ ?_ fun field _ => fieldText_of_delta_none hdelta
  · rw [contentParts_snoc, if_neg fun h => hcontent h.1, Nat.add_zero]
  · rw [summaryParts_snoc, if_neg fun h => hsummary h.1, Nat.add_zero]

end

/-! ## Deltas come after what they are for -/

section
variable {events : List StreamEvent} {e : StreamEvent} {i j : ℕ} {name text : Text}

theorem fieldOf_content (hindex : e.outputIndex = some (i : ℤ)) (hj : e.contentIndex = some j) {name : String}
    (hname : name ∈ ["text", "output_text", "reasoning_text"]) : e.fieldOf (.lit name) = some (.content i j) := by
  simp only [List.mem_cons, List.not_mem_nil, or_false] at hname
  obtain rfl | rfl | rfl := hname <;> simp [StreamEvent.fieldOf, hindex, hj]

theorem fieldOf_summary (hindex : e.outputIndex = some (i : ℤ)) (hj : e.summaryIndex = some j) :
    e.fieldOf (.lit "reasoning_summary_text") = some (.summary i j) := by
  simp [StreamEvent.fieldOf, hindex, hj]

theorem fieldOf_arguments (hindex : e.outputIndex = some (i : ℤ)) :
    e.fieldOf (.lit "function_call_arguments") = some (.arguments i) := by
  simp [StreamEvent.fieldOf, hindex]

theorem OtherField.fieldOf (h : OtherField name) : e.fieldOf name = none := by
  have hother := h.other
  simp only [List.mem_cons, List.not_mem_nil, or_false, forall_eq_or_imp, forall_eq] at hother
  cases hindex : e.outputIndex <;> simp [StreamEvent.fieldOf, hindex, hother]

theorem delta_of_isDelta {name : String} (h : e.IsDelta name text)
    (hname : CodePoint.ofChar '.' ∉ Text.lit name) : e.delta = (e.fieldOf (.lit name)).map fun field => (field, text) :=
  delta_eq hname h.1 h.2

theorem OtherField.delta (h : OtherField name) (htype : e.type = responseType name "delta") : e.delta = none := by
  rw [StreamEvent.delta, htype, splitDots_responseType h.noDot (by decide)]
  split_ifs
  · cases hget : e.fields.get (.lit "delta") with
    | none => rfl
    | some value => cases value <;> simp [h.fieldOf]
  · rfl

theorem delta_content {name : String} (h : e.IsDelta name text)
    (hname : name ∈ ["text", "output_text", "reasoning_text"]) (hindex : e.outputIndex = some (i : ℤ))
    (hj : e.contentIndex = some j) : e.delta = some (.content i j, text) := by
  rw [delta_of_isDelta h, fieldOf_content hindex hj hname]
  · rfl
  · simp only [List.mem_cons, List.not_mem_nil, or_false] at hname
    obtain rfl | rfl | rfl := hname <;> decide

theorem delta_summary (h : e.IsDelta "reasoning_summary_text" text) (hindex : e.outputIndex = some (i : ℤ))
    (hj : e.summaryIndex = some j) : e.delta = some (.summary i j, text) := by
  rw [delta_of_isDelta h (by decide), fieldOf_summary hindex hj]
  rfl

theorem delta_arguments (h : e.IsDelta "function_call_arguments" text) (hindex : e.outputIndex = some (i : ℤ)) :
    e.delta = some (.arguments i, text) := by
  rw [delta_of_isDelta h (by decide), fieldOf_arguments hindex]
  rfl

theorem textType_mem {name : String} (h : name ∈ ["text", "output_text"]) :
    name ∈ ["text", "output_text", "reasoning_text"] := by
  simp only [List.mem_cons] at h ⊢
  tauto

/-- What a delta is for is there. -/
def TextField.Open (events : List StreamEvent) : TextField → Prop
  | content i j => ∃ added, (addedItems events)[i]? = some added ∧ (added.IsA "message" → j < contentParts events i)
  | summary i j => i < (addedItems events).length ∧ j < summaryParts events i
  | arguments i => i < (addedItems events).length

theorem IsDeltaFor.delta {field : TextField} (h : IsDeltaFor events e field text) : e.delta = some (field, text) := by
  cases h with
  | text hd hname hfor _ hj => exact delta_content hd (textType_mem hname) hfor.1 hj
  | reasoning hd hfor _ hj => exact delta_content hd (by simp) hfor.1 hj
  | summary hd hfor _ hj => exact delta_summary hd hfor.1 hj
  | arguments hd hfor => exact delta_arguments hd hfor.1

theorem Follows.isDeltaFor (h : Follows events e) {field : TextField} (hdelta : e.delta = some (field, text)) :
    IsDeltaFor events e field text := by
  have hnone : e.delta ≠ none := by simp [hdelta]
  cases h with
  | delta hd =>
    obtain ⟨rfl, rfl⟩ := Prod.mk.inj (Option.some.inj (hd.delta.symm.trans hdelta))
    exact hd
  | itemAdded htype | contentPartAdded htype | reasoningPartAdded htype | summaryPartAdded htype | itemDone htype
  | completed htype => exact absurd (delta_of_type htype) hnone
  | otherDelta htype hname => exact absurd (hname.delta htype) hnone
  | textDone hd | reasoningDone hd | summaryDone hd | argumentsDone hd => exact absurd (delta_of_done hd.1) hnone
  | otherDone htype | contentPartDone htype | summaryPartDone htype => exact absurd (delta_of_done htype) hnone
  | ignored hignored => exact absurd (delta_of_not_suffix hignored.noDelta) hnone

theorem IsDeltaFor.exists_for {field : TextField} (h : IsDeltaFor events e field text) :
    ∃ added, e.For events field.item added := by
  cases h with
  | text _ _ hfor | reasoning _ hfor | summary _ hfor | arguments _ hfor => exact ⟨_, hfor⟩

theorem IsDeltaFor.field_open {field : TextField} (h : IsDeltaFor events e field text) : field.Open events := by
  cases h with
  | text _ _ hfor _ _ hlt => exact ⟨_, hfor.2, fun _ => hlt⟩
  | reasoning _ hfor hreasoning =>
    refine ⟨_, hfor.2, fun hmessage => ?_⟩
    have heq := hreasoning.symm.trans hmessage
    simp at heq
  | summary _ hfor _ _ hlt => exact ⟨(List.getElem?_eq_some_iff.1 hfor.2).1, hlt⟩
  | arguments _ hfor => exact (List.getElem?_eq_some_iff.1 hfor.2).1

end

section
variable {events : List StreamEvent} {e : StreamEvent} {i : ℕ} {added : StreamItem}

theorem StreamEvent.For.lt (h : e.For events i added) : i < (addedItems events).length :=
  (List.getElem?_eq_some_iff.1 h.2).1

theorem Follows.part_lt (h : Follows events e) (hindex : e.outputIndex = some (i : ℤ))
    (htype : e.type = .lit "response.content_part.added" ∨ e.type = .lit "response.reasoning_summary_part.added") :
    i < (addedItems events).length := by
  have key : ∀ {k : ℕ} {added : StreamItem}, e.For events k added → i < (addedItems events).length := by
    intro k added hfor
    have hik : (i : ℤ) = k := Option.some.inj (hindex.symm.trans hfor.1)
    have hlt := hfor.lt
    omega
  have hne : ∀ {type : Text}, e.type = type → type ≠ .lit "response.content_part.added" →
      type ≠ .lit "response.reasoning_summary_part.added" → i < (addedItems events).length := by
    rintro type rfl hcontent hsummary
    exact absurd htype (not_or.2 ⟨hcontent, hsummary⟩)
  cases h with
  | itemAdded h => exact hne h (by simp) (by simp)
  | completed h => exact hne h (by simp) (by simp)
  | ignored h => exact hne rfl (h.type _ (by simp)) (h.type _ (by simp))
  | delta hd =>
    obtain ⟨added, hfor⟩ := hd.exists_for
    exact key hfor
  | contentPartAdded _ hfor | reasoningPartAdded _ hfor | summaryPartAdded _ hfor | otherDelta _ _ hfor
  | textDone _ _ hfor | reasoningDone _ hfor | summaryDone _ hfor | argumentsDone _ hfor | otherDone _ _ hfor
  | contentPartDone _ hfor | summaryPartDone _ hfor | itemDone _ _ hfor => exact key hfor

theorem TextField.Open.item_lt {field : TextField} (h : field.Open events) :
    field.item < (addedItems events).length := by
  cases field with
  | content i j =>
    obtain ⟨added, hadded, -⟩ := h
    exact (List.getElem?_eq_some_iff.1 hadded).1
  | summary i j => exact h.1
  | arguments i => exact h

theorem TextField.Open.snoc {field : TextField} (h : field.Open events) : field.Open (events ++ [e]) := by
  cases field with
  | content i j =>
    obtain ⟨added, hadded, hlt⟩ := h
    refine ⟨added, ?_, fun hmessage => ?_⟩
    · rw [addedItems_snoc, List.getElem?_append_left (List.getElem?_eq_some_iff.1 hadded).1, hadded]
    · rw [contentParts_snoc]
      have := hlt hmessage
      omega
  | summary i j =>
    obtain ⟨hi, hj⟩ := h
    refine ⟨?_, ?_⟩
    · rw [addedItems_snoc, List.length_append]
      omega
    · rw [summaryParts_snoc]
      omega
  | arguments i =>
    have hi : i < (addedItems events).length := h
    show i < (addedItems (events ++ [e])).length
    rw [addedItems_snoc, List.length_append]
    omega

/-- What has not been added has no parts and no text. -/
structure Prepared (events : List StreamEvent) : Prop where
  parts : ∀ i, (addedItems events).length ≤ i → contentParts events i = 0 ∧ summaryParts events i = 0
  texts : ∀ field : TextField, ¬field.Open events → fieldText events field = []

theorem Prepared.snoc (h : Prepared events) (hnext : Follows events e) : Prepared (events ++ [e]) := by
  constructor
  · intro i hi
    have hle : (addedItems events).length ≤ i := by
      rw [addedItems_snoc, List.length_append] at hi
      omega
    obtain ⟨hcontent, hsummary⟩ := h.parts i hle
    rw [contentParts_snoc, summaryParts_snoc, hcontent, hsummary, if_neg, if_neg]
    · exact ⟨rfl, rfl⟩
    · exact fun ⟨htype, hindex⟩ => absurd (hnext.part_lt hindex (.inr htype)) (by omega)
    · exact fun ⟨htype, hindex⟩ => absurd (hnext.part_lt hindex (.inl htype)) (by omega)
  · intro field hopen
    have htext := h.texts field fun hbefore => hopen hbefore.snoc
    cases hdelta : e.delta with
    | none => rw [fieldText_of_delta_none hdelta, htext]
    | some d =>
      rw [fieldText_of_delta hdelta, if_neg, htext]
      rintro rfl
      exact hopen (hnext.isDeltaFor hdelta).field_open.snoc

theorem WellFormed.prepared (h : WellFormed events) : Prepared events := by
  induction h with
  | nil => exact ⟨fun _ _ => ⟨rfl, rfl⟩, fun _ _ => rfl⟩
  | snoc _ hnext ih => exact ih.snoc hnext

theorem StreamItem.Blank.texts_eq {item : StreamItem} (h : item.Blank) (hprepared : Prepared events)
    (hi : (addedItems events).length ≤ i) : item.texts = streamedTexts events i item.type := by
  obtain ⟨hcontent, hsummary⟩ := hprepared.parts i hi
  have hnot : ∀ field : TextField, field.item = i → fieldText events field = [] := by
    rintro field rfl
    exact hprepared.texts field fun hopen => absurd hopen.item_lt (by omega)
  rw [StreamItem.texts, streamedTexts, h.content, h.summary, hcontent, hsummary, hnot (.arguments i) rfl]
  split_ifs with hmessage hreasoning hcall
  · rfl
  · simp only [hnot (.content i _) rfl]
    rfl
  · rw [h.arguments (Json.eqStr_iff.1 hcall)]
  · rfl

end

/-- An item shows what has been streamed for it. -/
structure ItemHolds (events : List StreamEvent) (i : ℕ) (added item : StreamItem) : Prop where
  identity : item.identity = added.identity
  texts : item.texts = streamedTexts events i added.type

/-- An output shows what has been streamed. -/
structure Records (events : List StreamEvent) (output : List StreamItem) : Prop where
  length : output.length = (addedItems events).length
  items : ∀ i added item, (addedItems events)[i]? = some added → output[i]? = some item → ItemHolds events i added item

section
variable {events : List StreamEvent} {e : StreamEvent} {output : List StreamItem} {i : ℕ}
  {added item item' : StreamItem}

theorem ItemHolds.isA (h : ItemHolds events i added item) {type : String} (hadded : added.IsA type) :
    item.IsA type := (Prod.mk.inj h.identity).1.trans hadded

theorem Records.found (h : Records events output) (hfor : e.For events i added) :
    ∃ item, output[i]? = some item ∧ ItemHolds events i added item := by
  obtain ⟨hlt, -⟩ := List.getElem?_eq_some_iff.1 hfor.2
  have hlt' : i < output.length := h.length ▸ hlt
  exact ⟨output[i], List.getElem?_eq_getElem hlt', h.items i added _ hfor.2 (List.getElem?_eq_getElem hlt')⟩

theorem Records.set (h : Records events output) (hfor : e.For events i added)
    (htype : e.type ≠ .lit "response.output_item.added") (hitem : ItemHolds (events ++ [e]) i added item') :
    Records (events ++ [e]) (output.set i item') := by
  have hadded : addedItems (events ++ [e]) = addedItems events := by rw [addedItems_snoc, if_neg htype, List.append_nil]
  refine ⟨by rw [List.length_set, hadded, h.length], ?_⟩
  intro k added' found hadded' hfound
  rw [hadded] at hadded'
  by_cases hk : i = k
  · subst hk
    obtain ⟨hlt, -⟩ := List.getElem?_eq_some_iff.1 hfor.2
    rw [List.getElem?_set_self (h.length ▸ hlt)] at hfound
    obtain rfl := Option.some.inj hfound
    obtain rfl : added = added' := Option.some.inj (hfor.2.symm.trans hadded')
    exact hitem
  · rw [List.getElem?_set_ne hk] at hfound
    obtain ⟨hidentity, htexts⟩ := h.items k added' found hadded' hfound
    exact ⟨hidentity, htexts.trans (streamedTexts_of_ne hfor.1 (Ne.symm hk)).symm⟩

theorem Records.silent (h : Records events output) (hdelta : e.delta = none)
    (hadded : e.type ≠ .lit "response.output_item.added") (hcontent : e.type ≠ .lit "response.content_part.added")
    (hsummary : e.type ≠ .lit "response.reasoning_summary_part.added") : Records (events ++ [e]) output := by
  have hitems : addedItems (events ++ [e]) = addedItems events := by
    rw [addedItems_snoc, if_neg hadded, List.append_nil]
  refine ⟨hitems ▸ h.length, ?_⟩
  intro i added item hi hitem
  obtain ⟨hidentity, htexts⟩ := h.items i added item (hitems ▸ hi) hitem
  exact ⟨hidentity, htexts.trans (streamedTexts_of_silent hdelta hcontent hsummary).symm⟩

end

end TideBot
