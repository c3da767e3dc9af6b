/-
  An Anthropic conversation as an OpenAI one: which messages answer tool calls, and where the texts are.

  In a conversation that is well formed (`ValidRequest`) the calls of a message are answered by the next one.  Its
  messages are converted one by one, each into the answers that its `tool_result` blocks hold and at most one message
  more (`Carries`); the answers so stand right behind the calls (`Answered`).

  A text is found in the message that its block has become, with nothing in the gaps but what the program puts there
  (`Plain`).  The documents and the search results of a message itself have no part in it: whoever looks for all of
  the texts finds one opening bracket too few (`not_cited_of_completeRequest`).
-/
import TideBot.Chat.AnthropicRequest
import TideBot.Lib.FlagTree
import TideBot.Lib.Mapping
import TideBot.Lib.Spread

namespace TideBot

open Lib

namespace AnthropicRequest

/-! ## Requests -/

/-- The text, if the value is one. -/
def strOf : Json → Option Text
  | .str t => some t
  | _ => none

/-- `block.get('type', 'text')` -/
def kindOf (block : Json) : Json := (block.field (.lit "type")).getD (.str (.lit "text"))

def isKind (kind : String) (block : Json) : Bool := (kindOf block).eqStr (.lit kind)

/-- The texts in a search result are texts. -/
def validSearch (block : Json) : Bool :=
  match (block.field (.lit "content")).getD (.arr []) with
  | .arr items => items.all fun item => !(item.isObj && isText item) || (strOf (textOf item)).isSome
  | _ => false

/-- The fields of a text, an image, a document or a search result have their types. -/
def validPart (block : Json) : Bool :=
  if isKind "text" block then (strOf (textOf block)).isSome
  else if isKind "image" block || isKind "document" block then ((block.field (.lit "source")).getD (.obj [])).isObj
  else !isKind "search_result" block || validSearch block

/-- So have those of what is in the content of a tool result. -/
def validResult (block : Json) : Bool :=
  match block.get (.lit "content") with
  | .arr items => items.all fun item => !item.isObj || validPart item
  | _ => true

/-- The blocks of a message. -/
def blocksOf (msg : Json) : List Json :=
  match msg.get (.lit "content") with
  | .arr blocks => blocks
  | _ => []

/-- The calls of a message. -/
def toolUses (msg : Json) : List Json := (blocksOf msg).filter (isKind "tool_use")

/-- The answers of a message. -/
def toolResults (msg : Json) : List Json := (blocksOf msg).filter (isKind "tool_result")

/-- The id of a call. -/
def useId (block : Json) : Json := (block.field (.lit "id")).getD (.str [])

/-- The id of the call that is answered. -/
def resultId (block : Json) : Json := (block.field (.lit "tool_use_id")).getD (.str [])

/-- The role of a message. -/
def roleOf (msg : Json) : Json := (msg.field (.lit "role")).getD (.str (.lit "user"))

/-- One of the blocks of a message. -/
def validBlock (block : Json) : Bool :=
  block.isObj && validPart block && (!isKind "tool_result" block || validResult block)

/-- A message of the user, who answers, or of the assistant, who calls. -/
def validMessage (msg : Json) : Bool :=
  msg.isObj &&
    (match msg.get (.lit "content") with
      | .str _ => true
      | .arr blocks => blocks.all validBlock
      | _ => false) &&
    ((roleOf msg).eqStr (.lit "user") && (toolUses msg).isEmpty ||
      (roleOf msg).eqStr (.lit "assistant") && (toolResults msg).isEmpty)

/-- Each message has one answer to each call of the one before, whose ids are `asked`; none is open at the end. -/
def answersInTurn : List Json → List Json → Bool
  | asked, [] => asked.isEmpty
  | asked, msg :: msgs =>
    decide (((toolResults msg).map resultId).Perm asked) && decide ((toolUses msg).map useId).Nodup &&
      answersInTurn ((toolUses msg).map useId) msgs

/-- The texts of a system prompt are texts. -/
def validSystem (system : Json) : Bool :=
  match system with
  | .arr blocks => blocks.all fun block => !(block.isObj && isText block) || (strOf (textOf block)).isSome
  | _ => true

/-- A well-formed request with these messages. -/
structure ValidRequest (payload : PyDict) (msgs : List Json) : Prop where
  messages : payload.fetchD "messages" (.arr []) = .arr msgs
  valid : ∀ msg ∈ msgs, validMessage msg
  turns : answersInTurn [] msgs
  system : validSystem (payload.fetch "system")

/-- Is it a document or a search result? -/
def isCited (block : Json) : Bool := isKind "document" block || isKind "search_result" block

section
variable (str : Json → Text)

/-- The text of a block: of a document, and of a search result, its representation as one. -/
def blockText (block : Json) : Option Text :=
  if !block.isObj then none
  else if isKind "text" block then strOf (textOf block)
  else if isKind "document" block then documentText str block
  else if isKind "search_result" block then searchText str block
  else none

/-- The texts of a content, which may be one text for all. -/
def textsOf (content : Json) : List Text :=
  match content with
  | .str t => [t]
  | .arr blocks => blocks.filterMap (blockText str)
  | _ => []

end

/-- The text of one of the blocks of a system prompt. -/
def systemText : Json → Option Text
  | .str t => some t
  | block => if block.isObj && isText block then strOf (textOf block) else none

/-- The texts of the system prompt. -/
def systemTexts (system : Json) : List Text :=
  match system with
  | .str t => if t = [] then [] else [t]
  | .arr blocks => blocks.filterMap systemText
  | _ => []

/-! ## Converted requests -/

/-- A message that answers a call. -/
def isTool (m : OpenaiMessage) : Bool := m.role.eqStr (.lit "tool")

/-- The text of a part. -/
def partText (part : Json) : Option Text := if isText part then strOf (textOf part) else none

/-- The texts of a content that was made. -/
def contentTexts : Json → List Text
  | .str t => [t]
  | .arr parts => parts.filterMap partText
  | _ => []

/-- The texts of messages. -/
def messageTexts (messages : List OpenaiMessage) : List Text := messages.flatMap fun m => contentTexts m.content

/-- **What follows a message are the answers to its calls**, and no other message is an answer. -/
inductive Answered : List OpenaiMessage → Prop
  | nil : Answered []
  | cons {m : OpenaiMessage} {answers rest : List OpenaiMessage} (hrole : isTool m = false)
      (htools : ∀ a ∈ answers, isTool a) (hids : (answers.map (·.toolCallId)).Perm (m.toolCalls.map (some ·.id)))
      (hrest : Answered rest) : Answered (m :: (answers ++ rest))

section
variable (str : Json → Text)

/-- The message answers the call that the tool result answers, with its texts. -/
def Answers (P : Text → Prop) (result : Json) (m : OpenaiMessage) : Prop :=
  m.toolCallId = some (resultId result) ∧
    SpreadOver P (textsOf str (result.get (.lit "content"))) (contentTexts m.content)

/-- What is made of a message: `top` is in a message of the same role, the texts of each answer are in that answer. -/
structure Carries (P : Text → Prop) (top : List Text) (msg : Json) (made : List OpenaiMessage) : Prop where
  roles : ∀ m ∈ made, isTool m ∨ m.role = roleOf msg
  top : SpreadOver P top (messageTexts (made.filter fun m => !isTool m))
  nested : List.Forall₂ (Answers str P) (toolResults msg) (made.filter isTool)

/-- **Every text is in what is made of its message**, in order. -/
def CompleteRequest (payload : PyDict) (msgs : List Json) (messages : List OpenaiMessage) : Prop :=
  ∃ system made, messages = system ++ made.flatten ∧
    SpreadOver (fun _ => True) (systemTexts (payload.fetch "system")) (messageTexts system) ∧
    List.Forall₂ (fun msg made => Carries str (fun _ => True) (textsOf str (msg.get (.lit "content"))) msg made)
      msgs made

end

/-! ## Parts -/

section
variable {str : Json → Text} {block part : Json} {kind kind' : String} {fields : List (Text × Json)} {k t : Text}

theorem field_copyCacheControl (hk : k ≠ .lit "cache_control") :
    (copyCacheControl block fields).field k = (Json.obj fields).field k := by
  unfold copyCacheControl
  split
  · rw [Json.field_setField, if_neg hk]
  · rfl

theorem isText_copyCacheControl : isText (copyCacheControl block fields) = isText (.obj fields) := by
  rw [isText, isText, Json.get, Json.get, field_copyCacheControl (by simp)]

theorem partText_copyCacheControl : partText (copyCacheControl block fields) = partText (.obj fields) := by
  rw [partText, partText, isText_copyCacheControl, textOf, textOf, field_copyCacheControl (by simp)]

theorem isKind_unique (h : isKind kind block) (h' : isKind kind' block) : kind = kind' := by
  have hstr := Json.eqStr_iff.1 h
  rw [Json.eqStr_iff.1 h', Json.str.injEq, Text.lit_inj] at hstr
  exact hstr.symm

theorem not_isKind (h : isKind kind block) (hne : kind ≠ kind') : isKind kind' block = false := by
  rw [Bool.eq_false_iff]
  exact fun h' => hne (isKind_unique h h')

theorem isKind_of_isText (h : isText block) : isKind "text" block := by
  rw [isText, Json.get] at h
  rw [isKind, kindOf]
  cases hfield : block.field (.lit "type") with
  | none => rfl
  | some j =>
    rw [hfield] at h
    exact h

theorem convertText_eq (h : block.isObj) :
    convertText block = some (copyCacheControl block (textPart (textOf block))) := by
  rw [convertText, Json.itemD, if_pos h]
  rfl

theorem convertImage_spec (str : Json → Text) (h : block.isObj)
    (hsource : ((block.field (.lit "source")).getD (.obj [])).isObj) :
    ∃ r, convertImage str block = some r ∧ ∀ p ∈ r, isText p = false := by
  have himage : ∀ url, isText (copyCacheControl block (imagePart url)) = false := fun url => isText_copyCacheControl
  rw [convertImage, Json.itemD, if_pos h]
  simp only [Option.bind_eq_bind, Option.bind_some, Json.item, Json.itemD, hsource, if_pos]
  split_ifs
  · exact ⟨_, rfl, by rintro p ⟨⟩; exact himage _⟩
  · exact ⟨_, rfl, by rintro p ⟨⟩; exact himage _⟩
  · exact ⟨none, rfl, by rintro p ⟨⟩⟩

/-- The opening bracket. -/
def bracket : CodePoint := .ofChar '['

theorem documentText_spec (str : Json → Text) (h : block.isObj)
    (hsource : ((block.field (.lit "source")).getD (.obj [])).isObj) :
    ∃ t, documentText str block = some t ∧ bracket ∈ t := by
  have hopen : bracket ∈ Text.lit "[Document: " := by decide
  simp only [documentText, Json.itemD, Json.item, h, hsource, if_pos, Option.bind_eq_bind, Option.bind_some]
  refine ⟨_, rfl, ?_⟩
  split_ifs <;> simp [hopen]

theorem joinLines_eq {values : List Json} (h : ∀ v ∈ values, (strOf v).isSome) :
    joinLines values = some ((Text.lit "\n").intercalate (values.filterMap strOf)) := by
  rw [joinLines, Option.bind_eq_bind]
  have hlines : values.mapM strOf = some (values.filterMap strOf) := by
    induction values with
    | nil => rfl
    | cons v values ih =>
      rw [List.forall_mem_cons] at h
      obtain ⟨t, ht⟩ := Option.isSome_iff_exists.1 h.1
      rw [List.mapM_cons, ih h.2, List.filterMap_cons_some ht, ht]
      rfl
  exact congrArg (Option.bind · _) hlines

theorem validSearch_iff : validSearch block ↔ ∃ items, (block.field (.lit "content")).getD (.arr []) = .arr items ∧
    ∀ item ∈ items, item.isObj && isText item → (strOf (textOf item)).isSome := by
  unfold validSearch
  constructor
  · intro h
    split at h
    · rename_i items hitems
      refine ⟨items, hitems, fun item hmem hboth => ?_⟩
      have hitem := List.all_eq_true.1 h item hmem
      rwa [hboth, Bool.not_true, Bool.false_or] at hitem
    · cases h
  · rintro ⟨items, hitems, hall⟩
    rw [hitems]
    refine List.all_eq_true.2 fun item hmem => ?_
    rcases hboth : item.isObj && isText item with _ | _
    · rfl
    · exact hall item hmem hboth

theorem searchText_spec (str : Json → Text) (h : block.isObj) (hcontent : validSearch block) :
    ∃ t, searchText str block = some t ∧ bracket ∈ t := by
  have hopen : bracket ∈ Text.lit "[Search Result: " := by decide
  obtain ⟨items, hitems, hall⟩ := validSearch_iff.1 hcontent
  have htexts : ∀ v ∈ (items.filter fun b => b.isObj && isText b).map textOf, (strOf v).isSome := by
    intro v hv
    obtain ⟨item, hitem, rfl⟩ := List.mem_map.1 hv
    obtain ⟨hmem, hboth⟩ := List.mem_filter.1 hitem
    exact hall item hmem hboth
  simp only [searchText, Json.itemD, h, if_pos, Option.bind_eq_bind, Option.bind_some, hitems, Json.iter,
    joinLines_eq htexts]
  refine ⟨_, rfl, ?_⟩
  split_ifs <;> simp [hopen]

end

/-! ## Tool results -/

section
variable {str : Json → Text} {block content : Json} {parts : List Json} {kind : String} {P : Text → Prop} {t : Text}

/-- The gaps that the program makes. -/
def Plain (gap : Text) : Prop := gap.count bracket = 0

theorem plain_nil : Plain [] := rfl

/-- A text or no text, converted. -/
def Shows (text : Option Text) (part : Option Json) : Prop :=
  part.bind partText = text ∧ ∀ p ∈ part, isText p → (partText p).isSome

theorem shows_none : Shows none none := ⟨rfl, by rintro p ⟨⟩⟩

theorem shows_of_not_isText {r : Option Json} (h : ∀ p ∈ r, isText p = false) : Shows none r := by
  cases r with
  | none => exact shows_none
  | some p =>
    have hp := h p rfl
    refine ⟨?_, ?_⟩
    · rw [Option.bind_some, partText, hp, if_neg Bool.false_ne_true]
    · rintro _ ⟨⟩ htext
      rw [hp] at htext
      cases htext

theorem shows_textPart (t : Text) : Shows (some t) (some (.obj (textPart (.str t)))) :=
  ⟨rfl, by rintro _ ⟨⟩ -; rfl⟩

theorem shows_convertText (h : (strOf (textOf block)).isSome) :
    Shows (strOf (textOf block)) (some (copyCacheControl block (textPart (textOf block)))) := by
  have htext : partText (copyCacheControl block (textPart (textOf block))) = strOf (textOf block) :=
    partText_copyCacheControl
  refine ⟨htext, ?_⟩
  rintro _ ⟨⟩ -
  rw [htext]
  exact h

theorem blockText_of_isKind (h : block.isObj) (hkind : isKind kind block) (hne : kind ≠ "text") :
    blockText str block = if kind = "document" then documentText str block
      else if kind = "search_result" then searchText str block else none := by
  have hother : ∀ kind', isKind kind' block ↔ kind = kind' :=
    fun kind' => ⟨isKind_unique hkind, fun heq => heq ▸ hkind⟩
  rw [blockText, h]
  simp only [hother, Bool.not_true, Bool.false_eq_true, if_false, if_neg hne]

/-- **A block of a tool result** is converted, with its text. -/
theorem convertNested_spec (str : Json → Text) (h : block.isObj → validPart block) :
    ∃ r, convertNested str block = some r ∧ Shows (blockText str block) r := by
  rcases hobj : block.isObj with _ | _
  · refine ⟨none, ?_, ?_⟩
    · rw [convertNested, hobj]
      rfl
    · rw [blockText, hobj]
      exact shows_none
  have hvalid := h hobj
  have hconvert : convertNested str block =
      if isKind "text" block then (convertText block).map some
      else if isKind "image" block then convertImage str block
      else if isKind "document" block then (documentText str block).map fun t => some (.obj (textPart (.str t)))
      else if isKind "search_result" block then (searchText str block).map fun t => some (.obj (textPart (.str t)))
      else some none := by
    rw [convertNested, Json.itemD, hobj]
    simp only [Option.map_eq_bind]
    rfl
  rw [hconvert]
  rw [validPart] at hvalid
  by_cases htext : isKind "text" block
  · rw [if_pos htext] at hvalid
    refine ⟨_, by rw [if_pos htext, convertText_eq hobj]; rfl, ?_⟩
    rw [blockText, hobj, if_pos htext]
    exact shows_convertText hvalid
  rw [if_neg htext] at hvalid
  rw [if_neg htext]
  by_cases himage : isKind "image" block
  · rw [if_pos (by rw [himage]; rfl)] at hvalid
    obtain ⟨r, hr, hnot⟩ := convertImage_spec str hobj hvalid
    refine ⟨r, by rw [if_pos himage, hr], ?_⟩
    rw [blockText_of_isKind hobj himage (by decide)]
    exact shows_of_not_isText hnot
  rw [if_neg himage]
  by_cases hdocument : isKind "document" block
  · rw [if_pos (by rw [hdocument, Bool.or_true])] at hvalid
    obtain ⟨t, ht, -⟩ := documentText_spec str hobj hvalid
    refine ⟨_, by rw [if_pos hdocument, ht]; rfl, ?_⟩
    rw [blockText_of_isKind hobj hdocument (by decide), if_pos rfl, ht]
    exact shows_textPart t
  rw [if_neg (by simp [himage, hdocument])] at hvalid
  rw [if_neg hdocument]
  by_cases hsearch : isKind "search_result" block
  · rw [hsearch, Bool.not_true, Bool.false_or] at hvalid
    obtain ⟨t, ht, -⟩ := searchText_spec str hobj hvalid
    refine ⟨_, by rw [if_pos hsearch, ht]; rfl, ?_⟩
    rw [blockText_of_isKind hobj hsearch (by decide), if_neg (by decide), if_pos rfl, ht]
    exact shows_textPart t
  · refine ⟨none, by rw [if_neg hsearch], ?_⟩
    rw [blockText, hobj]
    simp only [Bool.not_true, Bool.false_eq_true, if_false, htext, hdocument, hsearch]
    exact shows_none

theorem mapM_convertNested (str : Json → Text) {items : List Json} (h : ∀ item ∈ items, item.isObj → validPart item) :
    ∃ rs, items.mapM (convertNested str) = some rs ∧
      rs.reduceOption.filterMap partText = items.filterMap (blockText str) ∧
      ∀ p ∈ rs.reduceOption, isText p → (partText p).isSome := by
  induction items with
  | nil => exact ⟨[], rfl, rfl, by simp⟩
  | cons item items ih =>
    rw [List.forall_mem_cons] at h
    obtain ⟨r, hr, htext, hshown⟩ := convertNested_spec str h.1
    obtain ⟨rs, hrs, htexts, hall⟩ := ih h.2
    refine ⟨r :: rs, by rw [List.mapM_cons, hr, hrs]; rfl, ?_, ?_⟩
    · rw [List.filterMap_cons, ← htext, ← htexts]
      cases r with
      | none => rfl
      | some p =>
        rw [List.reduceOption_cons_of_some, List.filterMap_cons, Option.bind_some]
    · cases r with
      | none => exact hall
      | some p =>
        rw [List.reduceOption_cons_of_some, List.forall_mem_cons]
        exact ⟨hshown p rfl, hall⟩

/-- **Parts are joined or kept**; their texts are there. -/
theorem flattenParts_spec (hnil : P []) (hline : P (Text.lit "\n")) (h : ∀ p ∈ parts, isText p → (partText p).isSome) :
    ∃ content, flattenParts parts = some content ∧ SpreadOver P (parts.filterMap partText) (contentTexts content) := by
  rw [flattenParts]
  split_ifs with hjoin hempty
  · rw [Bool.and_eq_true, List.all_eq_true] at hjoin
    have hsome : ∀ v ∈ parts.map textOf, (strOf v).isSome := by
      intro v hv
      obtain ⟨p, hp, rfl⟩ := List.mem_map.1 hv
      have htext := h p hp (hjoin.1 p hp)
      rwa [partText, if_pos (hjoin.1 p hp)] at htext
    have htexts : (parts.map textOf).filterMap strOf = parts.filterMap partText := by
      rw [List.filterMap_map]
      refine List.filterMap_congr fun p hp => ?_
      rw [partText, if_pos (hjoin.1 p hp)]
      rfl
    refine ⟨_, by rw [joinLines_eq hsome]; rfl, ?_⟩
    rw [htexts]
    exact .single (.intercalate hnil hline _)
  · rw [List.isEmpty_iff] at hempty
    rw [hempty]
    exact ⟨_, rfl, .single (.nil hnil)⟩
  · exact ⟨_, rfl, .self hnil _⟩

theorem toolContent_spec (str : Json → Text) (hnil : P []) (hline : P (Text.lit "\n")) (hobj : block.isObj)
    (h : validResult block) :
    ∃ content, toolContent str block = some content ∧
      SpreadOver P (textsOf str (block.get (.lit "content"))) (contentTexts content) := by
  rw [toolContent, Json.itemD, if_pos hobj, Option.bind_eq_bind, Option.bind_some]
  rw [validResult] at h
  rw [Json.get] at h ⊢
  rcases hcontent : block.field (.lit "content") with _ | content
  · exact ⟨.str [], rfl, .single (.nil hnil)⟩
  rw [hcontent] at h
  cases content with
  | str t => exact ⟨.str t, rfl, .single (.single hnil t)⟩
  | arr items =>
    have hitems : ∀ item ∈ items, item.isObj → validPart item := by
      intro item hitem hobj
      have hvalid := List.all_eq_true.1 h item hitem
      rwa [hobj, Bool.not_true, Bool.false_or] at hvalid
    obtain ⟨rs, hrs, htexts, hall⟩ := mapM_convertNested str hitems
    obtain ⟨content, hflat, hspread⟩ := flattenParts_spec hnil hline hall
    rw [htexts] at hspread
    refine ⟨content, ?_, hspread⟩
    simp only [Option.getD_some, hrs]
    exact hflat
  | null | bool | int | float | obj => exact ⟨.str [], rfl, .single (.nil hnil)⟩

theorem contentTexts_markError {texts : List Text} (herror : ∀ gap, P gap → P (Text.lit "Error: " ++ gap)) (hnil : P [])
    (isError : Json) (h : SpreadOver P texts (contentTexts content)) :
    SpreadOver P texts (contentTexts (markError isError content)) := by
  unfold markError
  by_cases htrue : isError.truthy
  · rw [if_pos htrue]
    cases content with
    | str t =>
      rcases h with _ | ⟨hpart, _ | _⟩
      exact .cons (hpart.prepend herror) .nil
    | arr parts =>
      have hspread : SpreadOver P ([] ++ texts) (Text.lit "Error: " :: contentTexts (.arr parts)) :=
        .cons (.nil (herror [] hnil)) h
      exact hspread
    | null | bool | int | float | obj => exact h
  · rw [if_neg htrue]
    exact h

/-- **A tool result** becomes a message that answers its call, with its texts. -/
theorem convertToolResult_spec (str : Json → Text) (hnil : P []) (hline : P (Text.lit "\n"))
    (herror : ∀ gap, P gap → P (Text.lit "Error: " ++ gap)) (hobj : block.isObj) (h : validResult block) :
    ∃ m, convertToolResult str block = some m ∧ isTool m ∧ Answers str P block m := by
  obtain ⟨content, hcontent, hspread⟩ := toolContent_spec str hnil hline hobj h
  refine ⟨⟨.str (.lit "tool"), markError (block.get (.lit "is_error")) content, [], some (resultId block)⟩, ?_, ?_,
    rfl, contentTexts_markError herror hnil _ hspread⟩
  · rw [convertToolResult, hcontent, Json.item, if_pos hobj, Json.itemD, if_pos hobj]
    rfl
  · exact Json.eqStr_iff.2 rfl

end

/-! ## Messages -/

/-- The text of a block that is kept in its message. -/
def keptText (block : Json) : Option Text := if isKind "text" block then strOf (textOf block) else none

/-- The texts of a content that are kept. -/
def keptTexts (content : Json) : List Text :=
  match content with
  | .str t => [t]
  | .arr blocks => blocks.filterMap keptText
  | _ => []

section
variable (str : Json → Text)

/-- What is made of blocks: answers, parts and calls. -/
structure PiecesOf (P : Text → Prop) (blocks : List Json) (answers : List OpenaiMessage) (parts : List Json)
    (calls : List OpenaiToolCall) : Prop where
  tools : ∀ a ∈ answers, isTool a
  answers : List.Forall₂ (Answers str P) (blocks.filter (isKind "tool_result")) answers
  texts : parts.filterMap partText = blocks.filterMap keptText
  shown : ∀ p ∈ parts, isText p → (partText p).isSome
  calls : calls.map (·.id) = (blocks.filter (isKind "tool_use")).map useId

/-- What is made of a message: answers, and at most one message of its own. -/
structure MadeOf (P : Text → Prop) (msg : Json) (answers own : List OpenaiMessage) : Prop where
  tools : ∀ a ∈ answers, isTool a
  answers : List.Forall₂ (Answers str P) (toolResults msg) answers
  roles : ∀ m ∈ own, isTool m = false ∧ m.role = roleOf msg
  calls : own = [] ∧ toolUses msg = [] ∨ ∃ m, own = [m] ∧ m.toolCalls.map (·.id) = (toolUses msg).map useId
  texts : SpreadOver P (keptTexts (msg.get (.lit "content"))) (messageTexts own)

end

/-- What is put together. -/
def Converted.add (c : Converted) (answers : List OpenaiMessage) (parts : List Json) (calls : List OpenaiToolCall) :
    Converted := ⟨c.messages ++ answers, c.content ++ parts, c.toolCalls ++ calls⟩

section
variable {dumps str : Json → Text} {P : Text → Prop} {block msg : Json} {blocks blocks' parts parts' : List Json}
  {answers answers' own : List OpenaiMessage} {calls calls' : List OpenaiToolCall}

theorem PiecesOf.append (h : PiecesOf str P blocks answers parts calls)
    (h' : PiecesOf str P blocks' answers' parts' calls') :
    PiecesOf str P (blocks ++ blocks') (answers ++ answers') (parts ++ parts') (calls ++ calls') where
  tools := List.forall_mem_append.2 ⟨h.tools, h'.tools⟩
  answers := by
    rw [List.filter_append]
    exact List.rel_append h.answers h'.answers
  texts := by rw [List.filterMap_append, List.filterMap_append, h.texts, h'.texts]
  shown := List.forall_mem_append.2 ⟨h.shown, h'.shown⟩
  calls := by rw [List.map_append, List.filter_append, List.map_append, h.calls, h'.calls]

theorem PiecesOf.part {r : Option Json} (huse : isKind "tool_use" block = false)
    (hresult : isKind "tool_result" block = false) (h : Shows (keptText block) r) :
    PiecesOf str P [block] [] r.toList [] where
  tools := by simp
  answers := by
    rw [List.filter_singleton, hresult]
    exact .nil
  texts := by
    rw [List.filterMap_cons, List.filterMap_nil, ← h.1]
    cases r with
    | none => rfl
    | some p => rw [Option.toList_some, List.filterMap_cons, List.filterMap_nil, Option.bind_some]
  shown := by
    rintro p hp
    exact h.2 p (Option.mem_toList.1 hp)
  calls := by
    rw [List.filter_singleton, huse]
    rfl

theorem exists_obj {j : Json} (h : j.isObj) : ∃ fields, j = .obj fields := by
  cases j with
  | obj fields => exact ⟨fields, rfl⟩
  | null | bool | int | float | str | arr => cases h

theorem convertToolUse_spec (dumps str : Json → Text) (h : block.isObj) :
    ∃ call, convertToolUse dumps str block = some call ∧ call.id = useId block := by
  rw [convertToolUse, Json.itemD, if_pos h, Json.itemD, if_pos h, Json.itemD, if_pos h]
  exact ⟨_, rfl, rfl⟩

/-- **One block.** -/
theorem convertBlock_spec (dumps str : Json → Text) (hnil : P []) (hline : P (Text.lit "\n"))
    (herror : ∀ gap, P gap → P (Text.lit "Error: " ++ gap)) (h : validBlock block) :
    ∃ answers parts calls, (∀ c, convertBlock dumps str c block = some (c.add answers parts calls)) ∧
      PiecesOf str P [block] answers parts calls := by
  rw [validBlock, Bool.and_eq_true, Bool.and_eq_true] at h
  obtain ⟨⟨hobj, hpart⟩, hresult⟩ := h
  obtain ⟨fields, rfl⟩ := exists_obj hobj
  have hconvert : ∀ c, convertBlock dumps str c (.obj fields) =
      if isKind "text" (.obj fields) then (convertText (.obj fields)).map fun p => c.add [] [p] []
      else if isKind "thinking" (.obj fields) || isKind "redacted_thinking" (.obj fields) then
        some (c.add [] [copyCacheControl (.obj fields) fields] [])
      else if isKind "image" (.obj fields) then (convertImage str (.obj fields)).map fun r => c.add [] r.toList []
      else if isKind "tool_use" (.obj fields) then
        (convertToolUse dumps str (.obj fields)).map fun call => c.add [] [] [call]
      else if isKind "tool_result" (.obj fields) then
        (convertToolResult str (.obj fields)).map fun m => c.add [m] [] []
      else some (c.add [] [] []) := by
    intro c
    rw [convertBlock, Json.itemD, if_pos hobj]
    simp only [Converted.add, List.append_nil, Option.map_eq_bind]
    rfl
  rw [validPart] at hpart
  by_cases htext : isKind "text" (.obj fields)
  · rw [if_pos htext] at hpart
    refine ⟨[], [copyCacheControl (.obj fields) (textPart (textOf (.obj fields)))], [],
      fun c => by rw [hconvert, if_pos htext, convertText_eq hobj]; rfl,
      .part (not_isKind htext (by decide)) (not_isKind htext (by decide)) (r := some _) ?_⟩
    rw [keptText, if_pos htext]
    exact shows_convertText hpart
  rw [if_neg htext] at hpart
  have hkept : keptText (.obj fields) = none := if_neg htext
  have hnone : ∀ {r : Option Json}, (∀ p ∈ r, isText p = false) → Shows (keptText (.obj fields)) r := by
    intro r hr
    rw [hkept]
    exact shows_of_not_isText hr
  by_cases hthinking : isKind "thinking" (.obj fields) || isKind "redacted_thinking" (.obj fields)
  · have hkind : ∀ kind, kind ≠ "thinking" → kind ≠ "redacted_thinking" → isKind kind (.obj fields) = false := by
      intro kind hne hne'
      rcases Bool.or_eq_true_iff.1 hthinking with hk | hk
      · exact not_isKind hk hne.symm
      · exact not_isKind hk hne'.symm
    refine ⟨[], [copyCacheControl (.obj fields) fields], [], fun c => by rw [hconvert, if_neg htext, if_pos hthinking],
      .part (hkind _ (by decide) (by decide)) (hkind _ (by decide) (by decide)) (hnone (r := some _) ?_)⟩
    rintro _ ⟨⟩
    rw [isText_copyCacheControl, Bool.eq_false_iff]
    exact fun hisText => htext (isKind_of_isText hisText)
  by_cases himage : isKind "image" (.obj fields)
  · rw [if_pos (by rw [himage]; rfl)] at hpart
    obtain ⟨r, hr, hnot⟩ := convertImage_spec str hobj hpart
    exact ⟨[], r.toList, [],
      fun c => by rw [hconvert, if_neg htext, if_neg hthinking, if_pos himage, hr, Option.map_some],
      .part (not_isKind himage (by decide)) (not_isKind himage (by decide)) (hnone hnot)⟩
  by_cases huse : isKind "tool_use" (.obj fields)
  · obtain ⟨call, hcall, hid⟩ := convertToolUse_spec dumps str hobj
    refine ⟨[], [], [call], fun c => by
      rw [hconvert, if_neg htext, if_neg hthinking, if_neg himage, if_pos huse, hcall, Option.map_some], ?_⟩
    have hresult : isKind "tool_result" (.obj fields) = false := not_isKind huse (by decide)
    refine ⟨by simp, ?_, ?_, by simp, ?_⟩
    · rw [List.filter_singleton, hresult]
      exact .nil
    · rw [List.filterMap_cons_none hkept]
      rfl
    · rw [List.filter_singleton, huse]
      exact congrArg ([·]) hid
  by_cases hanswer : isKind "tool_result" (.obj fields)
  · rw [hanswer, Bool.not_true, Bool.false_or] at hresult
    obtain ⟨m, hm, htool, hanswers⟩ := convertToolResult_spec str hnil hline herror hobj hresult
    refine ⟨[m], [], [], fun c => by
      rw [hconvert, if_neg htext, if_neg hthinking, if_neg himage, if_neg huse, if_pos hanswer, hm,
        Option.map_some], ?_⟩
    refine ⟨by simpa using htool, ?_, ?_, by simp, ?_⟩
    · rw [List.filter_singleton, hanswer]
      exact .cons hanswers .nil
    · rw [List.filterMap_cons_none hkept]
      rfl
    · rw [List.filter_singleton, Bool.eq_false_iff.2 huse]
      rfl
  · rw [Bool.not_eq_true] at huse hanswer
    exact ⟨[], [], [], fun c => by
      rw [hconvert, if_neg htext, if_neg hthinking, if_neg himage, huse, hanswer]
      rfl,
      .part huse hanswer (hnone (r := none) (by rintro p ⟨⟩))⟩

/-- **The blocks of a message**, one after the other. -/
theorem foldlM_convertBlock (dumps str : Json → Text) (hnil : P []) (hline : P (Text.lit "\n"))
    (herror : ∀ gap, P gap → P (Text.lit "Error: " ++ gap)) (h : ∀ block ∈ blocks, validBlock block) :
    ∃ answers parts calls, (∀ c, blocks.foldlM (convertBlock dumps str) c = some (c.add answers parts calls)) ∧
      PiecesOf str P blocks answers parts calls := by
  induction blocks with
  | nil =>
    refine ⟨[], [], [], fun c => ?_, by simp, .nil, rfl, by simp, rfl⟩
    simp [Converted.add]
  | cons block blocks ih =>
    rw [List.forall_mem_cons] at h
    obtain ⟨answers, parts, calls, hblock, hpieces⟩ := convertBlock_spec dumps str hnil hline herror h.1
    obtain ⟨answers', parts', calls', hblocks, hpieces'⟩ := ih h.2
    refine ⟨answers ++ answers', parts ++ parts', calls ++ calls', fun c => ?_, hpieces.append hpieces'⟩
    rw [List.foldlM_cons, hblock, Option.bind_eq_bind, Option.bind_some, hblocks]
    simp only [Converted.add, List.append_assoc]

theorem contentTexts_finalize (hnil : P []) (h : ∀ p ∈ parts, isText p → (partText p).isSome) :
    SpreadOver P (parts.filterMap partText) (contentTexts (finalizeOpenaiContent parts)) := by
  unfold finalizeOpenaiContent
  split
  · exact .single (.nil hnil)
  · rename_i part
    split_ifs with halone
    · rw [Bool.and_eq_true] at halone
      have hsome := h part List.mem_cons_self halone.1
      obtain ⟨t, ht⟩ := Option.isSome_iff_exists.1 hsome
      have htext := ht
      rw [partText, if_pos halone.1] at htext
      rw [List.filterMap_cons_some ht, List.filterMap_nil]
      cases hof : textOf part with
      | str t' =>
        rw [hof] at htext
        cases htext
        exact .self hnil _
      | null | bool | int | float | arr | obj =>
        rw [hof] at htext
        cases htext
    · exact .self hnil _
  · exact .self hnil _

theorem validMessage_role (h : validMessage msg) {m : OpenaiMessage} (hrole : m.role = roleOf msg) :
    isTool m = false := by
  rw [isTool, hrole]
  rw [validMessage, Bool.and_eq_true, Bool.or_eq_true, Bool.and_eq_true (roleOf msg |>.eqStr _),
    Bool.and_eq_true (roleOf msg |>.eqStr _)] at h
  obtain ⟨-, ⟨huser, -⟩ | ⟨hassistant, -⟩⟩ := h
  · rw [Json.eqStr_iff.1 huser]
    rfl
  · rw [Json.eqStr_iff.1 hassistant]
    rfl

theorem madeOf_finish (hnil : P []) (h : validMessage msg) (hcontent : msg.get (.lit "content") = .arr blocks)
    (hpieces : PiecesOf str P blocks answers parts calls) (messages : List OpenaiMessage) :
    ∃ own, (Converted.add ⟨messages, [], []⟩ answers parts calls).finish (roleOf msg) =
      messages ++ (answers ++ own) ∧ MadeOf str P msg answers own := by
  have hblocks : blocksOf msg = blocks := by rw [blocksOf, hcontent]
  have hkept : keptTexts (msg.get (.lit "content")) = parts.filterMap partText := by
    rw [hcontent, keptTexts, hpieces.texts]
  have hmessage : ∀ m : OpenaiMessage, m.role = roleOf msg → m.toolCalls = calls →
      SpreadOver P (parts.filterMap partText) (contentTexts m.content) → MadeOf str P msg answers [m] := by
    intro m hrole hcalls htexts
    refine ⟨hpieces.tools, ?_, ?_, .inr ⟨m, rfl, ?_⟩, ?_⟩
    · rw [toolResults, hblocks]
      exact hpieces.answers
    · rw [List.forall_mem_singleton]
      exact ⟨validMessage_role h hrole, hrole⟩
    · rw [hcalls, hpieces.calls, toolUses, hblocks]
    · rw [hkept, messageTexts, List.flatMap_singleton]
      exact htexts
  have hfinal := contentTexts_finalize hnil hpieces.shown
  unfold Converted.finish Converted.add
  simp only [List.nil_append]
  split_ifs with hcalls hparts hparts
  · refine ⟨[⟨roleOf msg, .str [], calls, none⟩], by rw [List.append_assoc], hmessage _ rfl rfl ?_⟩
    rw [List.isEmpty_iff.1 hparts] at hfinal ⊢
    exact hfinal
  · exact ⟨[⟨roleOf msg, finalizeOpenaiContent parts, calls, none⟩], by rw [List.append_assoc],
      hmessage _ rfl rfl hfinal⟩
  · refine ⟨[⟨roleOf msg, finalizeOpenaiContent parts, [], none⟩], by rw [List.append_assoc],
      hmessage _ rfl ?_ hfinal⟩
    simpa using hcalls
  · refine ⟨[], by rw [List.append_nil], hpieces.tools, ?_, by simp, .inl ⟨rfl, ?_⟩, ?_⟩
    · rw [toolResults, hblocks]
      exact hpieces.answers
    · have hnone : calls = [] := by simpa using hcalls
      have hids := hpieces.calls
      rw [hnone, List.map_nil] at hids
      rw [toolUses, hblocks]
      exact List.map_eq_nil_iff.1 hids.symm
    · have hnone : parts = [] := by simpa using hparts
      rw [hkept, hnone]
      exact .nil

/-- **One message.** -/
theorem convertMessage_spec (dumps str : Json → Text) (hnil : P []) (hline : P (Text.lit "\n"))
    (herror : ∀ gap, P gap → P (Text.lit "Error: " ++ gap)) (h : validMessage msg) :
    ∀ messages, ∃ answers own, convertMessage dumps str messages msg = some (messages ++ (answers ++ own)) ∧
      MadeOf str P msg answers own := by
  intro messages
  have hvalid := h
  rw [validMessage, Bool.and_eq_true, Bool.and_eq_true] at h
  obtain ⟨⟨hobj, hcontent⟩, -⟩ := h
  rw [convertMessage, Json.itemD, if_pos hobj, Json.item, if_pos hobj]
  simp only [Option.bind_eq_bind, Option.bind_some]
  have hrole : (msg.field (.lit "role")).getD (.str (.lit "user")) = roleOf msg := rfl
  rw [hrole]
  cases hget : msg.get (.lit "content") with
  | str t =>
    have hblocks : blocksOf msg = [] := by rw [blocksOf, hget]
    have hm : (OpenaiMessage.mk (roleOf msg) (.str t) [] none).role = roleOf msg := rfl
    refine ⟨[], [⟨roleOf msg, .str t, [], none⟩], rfl, by simp, ?_, ?_, .inr ⟨_, rfl, ?_⟩, ?_⟩
    · rw [toolResults, hblocks]
      exact .nil
    · rw [List.forall_mem_singleton]
      exact ⟨validMessage_role hvalid hm, hm⟩
    · rw [toolUses, hblocks]
      rfl
    · rw [hget]
      exact .self hnil [t]
  | arr blocks =>
    rw [hget] at hcontent
    obtain ⟨answers, parts, calls, hfold, hpieces⟩ :=
      foldlM_convertBlock dumps str hnil hline herror (List.all_eq_true.1 hcontent)
    obtain ⟨own, hown, hmade⟩ := madeOf_finish hnil hvalid hget hpieces messages
    refine ⟨answers, own, ?_, hmade⟩
    simp only [hfold, Option.bind_some, hown]
    rfl
  | null | bool | int | float | obj =>
    rw [hget] at hcontent
    cases hcontent

end

/-! ## Conversations -/

section
variable {dumps str : Json → Text} {P : Text → Prop} {msg system : Json} {msgs asked : List Json} {payload : PyDict}
  {answers own messages made : List OpenaiMessage} {blocks : List Json} {top : List Text}

/-- What is made of messages: the answers and the message of each. -/
def joinMade (made : List (List OpenaiMessage × List OpenaiMessage)) : List OpenaiMessage :=
  made.flatMap fun m => m.1 ++ m.2

/-- **All messages.** -/
theorem foldlM_convertMessage (dumps str : Json → Text) (hnil : P []) (hline : P (Text.lit "\n"))
    (herror : ∀ gap, P gap → P (Text.lit "Error: " ++ gap)) (h : ∀ msg ∈ msgs, validMessage msg)
    (messages : List OpenaiMessage) : ∃ made, msgs.foldlM (convertMessage dumps str) messages =
      some (messages ++ joinMade made) ∧ List.Forall₂ (fun msg m => MadeOf str P msg m.1 m.2) msgs made := by
  induction msgs generalizing messages with
  | nil => exact ⟨[], by rw [joinMade, List.flatMap_nil, List.append_nil]; rfl, .nil⟩
  | cons msg msgs ih =>
    rw [List.forall_mem_cons] at h
    obtain ⟨answers, own, hmsg, hmade⟩ :=
      convertMessage_spec dumps str hnil hline herror h.1 messages
    obtain ⟨made, hmsgs, hall⟩ := ih h.2 (messages ++ (answers ++ own))
    refine ⟨(answers, own) :: made, ?_, .cons hmade hall⟩
    rw [List.foldlM_cons, hmsg, Option.bind_eq_bind, Option.bind_some, hmsgs, joinMade, joinMade, List.flatMap_cons,
      List.append_assoc]

theorem MadeOf.ids (h : MadeOf str P msg answers own) :
    answers.map (·.toolCallId) = ((toolResults msg).map resultId).map some := by
  rw [List.map_map]
  have hall := h.answers
  clear h
  generalize toolResults msg = results at hall
  induction hall with
  | nil => rfl
  | cons hanswer _ ih => rw [List.map_cons, List.map_cons, ih, hanswer.1, Function.comp]

/-- **The answers to `asked` come first, then messages whose calls are answered.** -/
theorem answered_joinMade {made : List (List OpenaiMessage × List OpenaiMessage)}
    (h : List.Forall₂ (fun msg m => MadeOf str P msg m.1 m.2) msgs made) (hturns : answersInTurn asked msgs) :
    ∃ answers rest, joinMade made = answers ++ rest ∧ (∀ a ∈ answers, isTool a) ∧
      (answers.map (·.toolCallId)).Perm (asked.map some) ∧ Answered rest := by
  induction h generalizing asked with
  | nil =>
    rw [answersInTurn, List.isEmpty_iff] at hturns
    rw [hturns]
    exact ⟨[], [], rfl, by simp, .nil, .nil⟩
  | @cons msg m msgs made hmade hall ih =>
    rw [answersInTurn, Bool.and_eq_true, Bool.and_eq_true, decide_eq_true_eq, decide_eq_true_eq] at hturns
    obtain ⟨⟨hperm, -⟩, hnext⟩ := hturns
    obtain ⟨answers, rest, hjoin, htools, hids, hrest⟩ := ih hnext
    have hasked : (m.1.map (·.toolCallId)).Perm (asked.map some) := by
      rw [hmade.ids]
      exact hperm.map some
    obtain ⟨hown, hnone⟩ | ⟨own, hown, hcalls⟩ := hmade.calls
    · -- nothing is asked for
      rw [hnone, List.map_nil, List.map_nil, List.perm_nil, List.map_eq_nil_iff] at hids
      refine ⟨m.1, rest, ?_, hmade.tools, hasked, hrest⟩
      rw [joinMade, List.flatMap_cons, ← joinMade, hjoin, hown, hids, List.append_nil, List.nil_append]
    · have hone : isTool own = false ∧ own.role = roleOf msg := hmade.roles own (by rw [hown]; exact List.mem_cons_self)
      refine ⟨m.1, own :: (answers ++ rest), ?_, hmade.tools, hasked, .cons hone.1 htools ?_ hrest⟩
      · rw [joinMade, List.flatMap_cons, ← joinMade, hjoin, hown, List.append_assoc, List.singleton_append]
      · rw [← hcalls, List.map_map] at hids
        exact hids

theorem shows_convertSystemBlock {block : Json} (h : block.isObj && isText block → (strOf (textOf block)).isSome) :
    Shows (systemText block) (convertSystemBlock block) := by
  cases block with
  | str t => exact shows_textPart t
  | obj fields =>
    have hobj : (Json.obj fields).isObj = true := rfl
    rw [convertSystemBlock, systemText, hobj, Bool.true_and]
    · by_cases htext : isText (.obj fields)
      · rw [if_pos htext, if_pos htext, convertText_eq hobj]
        exact shows_convertText (h (by rw [hobj, htext]; rfl))
      · rw [if_neg htext, if_neg htext]
        exact shows_none
    · rintro t ⟨⟩
  | null | bool | int | float | arr => exact shows_none

/-- What is made of the system prompt: a message, if there is one, with its texts. -/
theorem convertSystem_spec (hnil : P []) (h : validSystem system) :
    (∀ m ∈ convertSystem system, isTool m = false ∧ m.toolCalls = []) ∧
      SpreadOver P (systemTexts system) (messageTexts (convertSystem system)) := by
  have hone : ∀ content, ∀ m ∈ [OpenaiMessage.mk (.str (.lit "system")) content [] none],
      isTool m = false ∧ m.toolCalls = [] := by
    intro content
    rw [List.forall_mem_singleton]
    exact ⟨rfl, rfl⟩
  cases system with
  | str t =>
    rw [convertSystem, systemTexts, Json.truthy_str]
    by_cases ht : t = []
    · rw [ht]
      exact ⟨by simp, .nil⟩
    · rw [if_pos (decide_eq_true ht), if_neg ht]
      exact ⟨hone _, .self hnil [t]⟩
  | arr blocks =>
    have hshows : ∀ block ∈ blocks, Shows (systemText block) (convertSystemBlock block) := by
      intro block hblock
      refine shows_convertSystemBlock fun hboth => ?_
      have hvalid := List.all_eq_true.1 h block hblock
      rwa [hboth, Bool.not_true, Bool.false_or] at hvalid
    have htexts : (blocks.filterMap convertSystemBlock).filterMap partText = systemTexts (.arr blocks) := by
      rw [List.filterMap_filterMap]
      exact List.filterMap_congr fun block hblock => (hshows block hblock).1
    have hparts : ∀ p ∈ blocks.filterMap convertSystemBlock, isText p → (partText p).isSome := by
      intro p hp
      obtain ⟨block, hblock, hpart⟩ := List.mem_filterMap.1 hp
      exact (hshows block hblock).2 p hpart
    unfold convertSystem
    split_ifs with htruthy
    · refine ⟨hone _, ?_⟩
      rw [messageTexts, List.flatMap_singleton, ← htexts]
      exact contentTexts_finalize hnil hparts
    · have hempty : blocks = [] := by simpa [Json.truthy] using htruthy
      rw [hempty]
      exact ⟨by simp, .nil⟩
  | null | bool | int | float | obj =>
    unfold convertSystem
    split_ifs
    · exact ⟨by simp, .nil⟩
    · exact ⟨by simp, .nil⟩

theorem Answered.append_of_no_calls (h : ∀ m ∈ messages, isTool m = false ∧ m.toolCalls = []) (hrest : Answered made) :
    Answered (messages ++ made) := by
  induction messages with
  | nil => exact hrest
  | cons m messages ih =>
    rw [List.forall_mem_cons] at h
    have hanswered : Answered (m :: ([] ++ (messages ++ made))) := by
      refine .cons h.1.1 (by simp) ?_ (ih h.2)
      rw [h.1.2]
      exact .nil
    exact hanswered

theorem MadeOf.carries (h : MadeOf str P msg answers own) :
    Carries str P (keptTexts (msg.get (.lit "content"))) msg (answers ++ own) := by
  have hanswers : answers.filter isTool = answers := List.filter_eq_self.2 h.tools
  have hanswers' : (answers.filter fun m => !isTool m) = [] := by simpa using h.tools
  have hown : own.filter isTool = [] := by simpa using fun m hm => (h.roles m hm).1
  have hown' : (own.filter fun m => !isTool m) = own := by simpa using fun m hm => (h.roles m hm).1
  refine ⟨?_, ?_, ?_⟩
  · intro m hm
    rcases List.mem_append.1 hm with hm | hm
    · exact .inl (h.tools m hm)
    · exact .inr (h.roles m hm).2
  · rw [List.filter_append, hanswers', hown', List.nil_append]
    exact h.texts
  · rw [List.filter_append, hanswers, hown, List.append_nil]
    exact h.answers

/-! ## Counting brackets -/

/-- The brackets in the answers of a message. -/
def nestedBrackets (str : Json → Text) (msg : Json) : ℕ :=
  ((toolResults msg).map fun result => countIn bracket (textsOf str (result.get (.lit "content")))).sum

theorem messageTexts_append (messages made : List OpenaiMessage) :
    messageTexts (messages ++ made) = messageTexts messages ++ messageTexts made := List.flatMap_append

theorem countIn_messageTexts (made : List OpenaiMessage) : countIn bracket (messageTexts made) =
    countIn bracket (messageTexts (made.filter fun m => !isTool m)) +
      countIn bracket (messageTexts (made.filter isTool)) := by
  induction made with
  | nil => rfl
  | cons m made ih =>
    have hcons : ∀ rest, countIn bracket (messageTexts (m :: rest)) =
        countIn bracket (contentTexts m.content) + countIn bracket (messageTexts rest) := fun rest => by
      rw [messageTexts, List.flatMap_cons, countIn_append, ← messageTexts]
    rcases hm : isTool m with _ | _
    · rw [hcons, ih, List.filter_cons_of_pos (by rw [hm]; rfl), hcons,
        List.filter_cons_of_neg (by rw [hm]; exact Bool.false_ne_true), Nat.add_assoc]
    · rw [hcons, ih, List.filter_cons_of_neg (by rw [hm]; exact Bool.false_ne_true), List.filter_cons_of_pos hm, hcons]
      omega

theorem Carries.count_le (h : Carries str P top msg made) :
    countIn bracket top + nestedBrackets str msg ≤ countIn bracket (messageTexts made) := by
  rw [countIn_messageTexts]
  refine Nat.add_le_add h.top.count_le ?_
  have hall := h.nested
  rw [nestedBrackets]
  generalize toolResults msg = results at hall ⊢
  generalize made.filter isTool = answers at hall ⊢
  induction hall with
  | nil => exact Nat.zero_le _
  | cons hanswer _ ih =>
    rw [List.map_cons, List.sum_cons, messageTexts, List.flatMap_cons, countIn_append, ← messageTexts]
    exact Nat.add_le_add hanswer.2.count_le ih

theorem Carries.count_eq (h : Carries str Plain top msg made) :
    countIn bracket (messageTexts made) = countIn bracket top + nestedBrackets str msg := by
  have hplain : ∀ gap, Plain gap → gap.count bracket = 0 := fun gap hgap => hgap
  rw [countIn_messageTexts, h.top.count_eq hplain]
  congr 1
  have hall := h.nested
  rw [nestedBrackets]
  generalize toolResults msg = results at hall ⊢
  generalize made.filter isTool = answers at hall ⊢
  induction hall with
  | nil => rfl
  | cons hanswer _ ih =>
    rw [List.map_cons, List.sum_cons, messageTexts, List.flatMap_cons, countIn_append, ← messageTexts, ih,
      hanswer.2.count_eq hplain]

theorem blockText_cases (str : Json → Text) {block : Json} (h : validBlock block) :
    blockText str block = keptText block ∧ isCited block = false ∨
      isCited block ∧ keptText block = none ∧ ∃ t, blockText str block = some t ∧ bracket ∈ t := by
  rw [validBlock, Bool.and_eq_true, Bool.and_eq_true] at h
  obtain ⟨⟨hobj, hpart⟩, -⟩ := h
  rw [validPart] at hpart
  by_cases htext : isKind "text" block
  · refine .inl ⟨?_, ?_⟩
    · rw [blockText, hobj, keptText, if_pos htext, if_pos htext]
      rfl
    · rw [isCited, not_isKind htext (by decide), not_isKind htext (by decide)]
      rfl
  rw [if_neg htext] at hpart
  by_cases hdocument : isKind "document" block
  · rw [if_pos (by rw [hdocument, Bool.or_true])] at hpart
    obtain ⟨t, ht, hbracket⟩ := documentText_spec str hobj hpart
    refine .inr ⟨by rw [isCited, hdocument]; rfl, if_neg htext, t, ?_, hbracket⟩
    rw [blockText_of_isKind hobj hdocument (by decide), if_pos rfl, ht]
  by_cases hsearch : isKind "search_result" block
  · rw [if_neg (by simp [not_isKind hsearch]), hsearch, Bool.not_true, Bool.false_or] at hpart
    obtain ⟨t, ht, hbracket⟩ := searchText_spec str hobj hpart
    refine .inr ⟨by rw [isCited, hsearch, Bool.or_true], if_neg htext, t, ?_, hbracket⟩
    rw [blockText_of_isKind hobj hsearch (by decide), if_neg (by decide), if_pos rfl, ht]
  · rw [Bool.not_eq_true] at hdocument hsearch
    refine .inl ⟨?_, by rw [isCited, hdocument, hsearch]; rfl⟩
    rw [blockText, hobj, keptText, if_neg htext, if_neg htext, hdocument, hsearch]
    rfl

/-- **All texts are kept** of blocks none of which is a document or a search result; of others a bracket is missing. -/
theorem keptTexts_spec (str : Json → Text) (h : ∀ block ∈ blocks, validBlock block) :
    (blocks.filterMap keptText = blocks.filterMap (blockText str) ∧ blocks.all (!isCited ·)) ∨
      (countIn bracket (blocks.filterMap keptText) < countIn bracket (blocks.filterMap (blockText str)) ∧
        blocks.all (!isCited ·) = false) := by
  induction blocks with
  | nil => exact .inl ⟨rfl, rfl⟩
  | cons block blocks ih =>
    rw [List.forall_mem_cons] at h
    have hrest := ih h.2
    rw [List.all_cons]
    obtain ⟨hsame, hcited⟩ | ⟨hcited, hkept, t, ht, hbracket⟩ := blockText_cases str h.1
    · rw [List.filterMap_cons, List.filterMap_cons, hsame, hcited]
      cases keptText block with
      | none => exact hrest
      | some t =>
        refine hrest.imp (fun hall => ⟨congrArg _ hall.1, hall.2⟩) fun hless => ⟨?_, hless.2⟩
        rw [countIn_cons, countIn_cons]
        exact Nat.add_lt_add_left hless.1 _
    · rw [List.filterMap_cons_none hkept, List.filterMap_cons_some ht, hcited]
      refine .inr ⟨?_, rfl⟩
      have hpos : 0 < t.count bracket := List.count_pos_iff.2 hbracket
      rw [countIn_cons]
      obtain ⟨hall, -⟩ | ⟨hless, -⟩ := hrest
      · rw [hall]
        omega
      · omega

theorem keptTexts_cases (str : Json → Text) (h : validMessage msg) :
    (keptTexts (msg.get (.lit "content")) = textsOf str (msg.get (.lit "content")) ∧
      (blocksOf msg).all (!isCited ·)) ∨
      (countIn bracket (keptTexts (msg.get (.lit "content"))) <
          countIn bracket (textsOf str (msg.get (.lit "content"))) ∧
        (blocksOf msg).all (!isCited ·) = false) := by
  rw [validMessage, Bool.and_eq_true, Bool.and_eq_true] at h
  obtain ⟨⟨-, hcontent⟩, -⟩ := h
  rw [blocksOf]
  cases hget : msg.get (.lit "content") with
  | str t => exact .inl ⟨rfl, rfl⟩
  | arr blocks =>
    rw [hget] at hcontent
    exact keptTexts_spec str (List.all_eq_true.1 hcontent)
  | null | bool | int | float | obj =>
    rw [hget] at hcontent
    cases hcontent

/-! ## The request -/

theorem Carries.mono {Q : Text → Prop} (h : Carries str P top msg made) (hPQ : ∀ gap, P gap → Q gap) :
    Carries str Q top msg made :=
  ⟨h.roles, h.top.mono hPQ, h.nested.imp fun _ _ hanswer => ⟨hanswer.1, hanswer.2.mono hPQ⟩⟩

theorem convert_spec (dumps str : Json → Text) (h : ValidRequest payload msgs) :
    ∃ made, convertAnthropicToOpenaiMessages dumps str payload =
      some (convertSystem (payload.fetch "system") ++ joinMade made) ∧
      List.Forall₂ (fun msg m => MadeOf str Plain msg m.1 m.2) msgs made := by
  have hline : Plain (Text.lit "\n") := by rw [Plain]; decide
  have herror : ∀ gap, Plain gap → Plain (Text.lit "Error: " ++ gap) := by
    intro gap hgap
    have hzero : (Text.lit "Error: ").count bracket = 0 := by decide
    rw [Plain, List.count_append, hzero, hgap]
  obtain ⟨made, hmade, hall⟩ := foldlM_convertMessage dumps str plain_nil hline herror h.valid
    (convertSystem (payload.fetch "system"))
  refine ⟨made, ?_, hall⟩
  rw [convertAnthropicToOpenaiMessages, h.messages]
  exact hmade

theorem countIn_flatten {tops : Json → List Text} {made : List (List OpenaiMessage)}
    (h : List.Forall₂ (fun msg made => Carries str (fun _ => True) (tops msg) msg made) msgs made) :
    (msgs.map fun msg => countIn bracket (tops msg) + nestedBrackets str msg).sum ≤
      countIn bracket (messageTexts made.flatten) := by
  induction h with
  | nil => exact Nat.zero_le _
  | cons hmsg _ ih =>
    rw [List.map_cons, List.sum_cons, List.flatten_cons, messageTexts_append, countIn_append]
    exact Nat.add_le_add hmsg.count_le ih

theorem countIn_joinMade {made : List (List OpenaiMessage × List OpenaiMessage)}
    (h : List.Forall₂ (fun msg m => MadeOf str Plain msg m.1 m.2) msgs made) :
    countIn bracket (messageTexts (joinMade made)) =
      (msgs.map fun msg => countIn bracket (keptTexts (msg.get (.lit "content"))) + nestedBrackets str msg).sum := by
  induction h with
  | nil => rfl
  | cons hmsg _ ih =>
    rw [List.map_cons, List.sum_cons, joinMade, List.flatMap_cons, ← joinMade, messageTexts_append, countIn_append, ih,
      hmsg.carries.count_eq]

/-- The messages that are made. -/
abbrev madeMessages (payload : PyDict) (made : List (List OpenaiMessage × List OpenaiMessage)) : List OpenaiMessage :=
  convertSystem (payload.fetch "system") ++ joinMade made

section
variable {made : List (List OpenaiMessage × List OpenaiMessage)}

/-- **Every call is answered at once**, whatever the blocks are. -/
theorem answered_madeMessages (h : ValidRequest payload msgs)
    (hall : List.Forall₂ (fun msg m => MadeOf str Plain msg m.1 m.2) msgs made) :
    Answered (madeMessages payload made) := by
  obtain ⟨answers, rest, hjoin, -, hids, hanswered⟩ := answered_joinMade hall h.turns
  rw [List.map_nil, List.perm_nil, List.map_eq_nil_iff] at hids
  rw [madeMessages, hjoin, hids, List.nil_append]
  exact hanswered.append_of_no_calls (convertSystem_spec plain_nil h.system).1

theorem completeRequest_of_not_cited (h : ValidRequest payload msgs)
    (hall : List.Forall₂ (fun msg m => MadeOf str Plain msg m.1 m.2) msgs made)
    (hnone : ∀ msg ∈ msgs, ∀ block ∈ blocksOf msg, isCited block = false) :
    CompleteRequest str payload msgs (madeMessages payload made) := by
  have hkept : ∀ msg ∈ msgs, keptTexts (msg.get (.lit "content")) = textsOf str (msg.get (.lit "content")) := by
    intro msg hmsg
    obtain ⟨hsame, -⟩ | ⟨-, hcited⟩ := keptTexts_cases str (h.valid msg hmsg)
    · exact hsame
    · have htrue : (blocksOf msg).all (!isCited ·) = true :=
        List.all_eq_true.2 fun block hblock => by rw [hnone msg hmsg block hblock]; rfl
      rw [htrue] at hcited
      cases hcited
  refine ⟨convertSystem (payload.fetch "system"), made.map fun m => m.1 ++ m.2, ?_,
    (convertSystem_spec plain_nil h.system).2.mono fun _ _ => trivial, ?_⟩
  · rw [madeMessages, joinMade, List.flatMap_def]
  · rw [List.forall₂_map_right_iff]
    refine ((List.forall₂_and_left _ _).2 ⟨hkept, hall⟩).imp fun msg m hmsg => ?_
    rw [← hmsg.1]
    exact hmsg.2.carries.mono fun _ _ => trivial

theorem not_cited_of_completeRequest (h : ValidRequest payload msgs)
    (hall : List.Forall₂ (fun msg m => MadeOf str Plain msg m.1 m.2) msgs made)
    (hcomplete : CompleteRequest str payload msgs (madeMessages payload made)) :
    ∀ msg ∈ msgs, ∀ block ∈ blocksOf msg, isCited block = false := by
  have hplain : ∀ gap, Plain gap → gap.count bracket = 0 := fun gap hgap => hgap
  obtain ⟨system, made', hsplit, hsys, hcarries⟩ := hcomplete
  have hcount := congrArg (fun ms => countIn bracket (messageTexts ms)) hsplit
  simp only [madeMessages, messageTexts_append, countIn_append,
    (convertSystem_spec plain_nil h.system).2.count_eq hplain, countIn_joinMade hall] at hcount
  have hle := countIn_flatten hcarries
  have hsysle := hsys.count_le (a := bracket)
  by_contra hcited
  push Not at hcited
  obtain ⟨msg, hmsg, block, hblock, hblockcited⟩ := hcited
  have hlt := List.sum_lt_sum
    (fun msg => countIn bracket (keptTexts (msg.get (.lit "content"))) + nestedBrackets str msg)
    (fun msg => countIn bracket (textsOf str (msg.get (.lit "content"))) + nestedBrackets str msg) (l := msgs)
    (fun msg hmsg => by
      obtain ⟨hsame, -⟩ | ⟨hless, -⟩ := keptTexts_cases str (h.valid msg hmsg)
      · rw [hsame]
      · exact Nat.add_le_add_right hless.le _)
    ⟨msg, hmsg, by
      obtain ⟨-, hall⟩ | ⟨hless, -⟩ := keptTexts_cases str (h.valid msg hmsg)
      · have hnot := List.all_eq_true.1 hall block hblock
        rw [Bool.not_eq_true'] at hnot
        exact absurd hnot hblockcited
      · exact Nat.add_lt_add_right hless _⟩
  omega

end

/-- **A request is converted, and its calls are answered**; all its texts are kept exactly if no message has a document
    or a search result among its own blocks. -/
theorem convertAnthropicToOpenaiMessages_complete_iff (dumps str : Json → Text) {payload : PyDict} {msgs : List Json}
    (h : ValidRequest payload msgs) :
    ∃ messages, convertAnthropicToOpenaiMessages dumps str payload = some messages ∧ Answered messages ∧
      (CompleteRequest str payload msgs messages ↔ ∀ msg ∈ msgs, ∀ block ∈ blocksOf msg, isCited block = false) := by
  obtain ⟨made, hconvert, hall⟩ := convert_spec dumps str h
  exact ⟨_, hconvert, answered_madeMessages h hall, not_cited_of_completeRequest h hall,
    completeRequest_of_not_cited h hall⟩

end

/-! ## Concrete requests -/

section

/-- A dictionary of texts. -/
def sampleBlock (fields : List (String × Json)) : Json := .obj (fields.map fun f => (Text.lit f.1, f.2))

def sampleText (text : String) : Json := .str (.lit text)

/-- A document with a plain text. -/
def sampleDocument (data : String) : Json :=
  sampleBlock [("type", sampleText "document"),
    ("source", sampleBlock [("type", sampleText "text"), ("data", sampleText data)])]

def sampleMessage (role : String) (content : List Json) : Json :=
  sampleBlock [("role", sampleText role), ("content", .arr content)]

/-- A call that is answered with a document. -/
def calledMessages : List Json :=
  [sampleMessage "assistant" [sampleBlock [("text", sampleText "Let me see.")],
      sampleBlock [("type", sampleText "tool_use"), ("id", sampleText "a"), ("name", sampleText "read")]],
    sampleMessage "user" [sampleBlock [("text", sampleText "Here it is.")],
      sampleBlock [("type", sampleText "tool_result"), ("tool_use_id", sampleText "a"),
        ("content", .arr [sampleDocument "Hello"])]]]

theorem validRequest_called : ValidRequest (PyDict.put .empty "messages" (.arr calledMessages)) calledMessages where
  messages := rfl
  valid := by decide +kernel
  turns := by decide +kernel
  system := rfl

theorem convertAnthropicToOpenaiMessages_called : ∃ messages,
    convertAnthropicToOpenaiMessages (fun _ => []) (fun _ => []) (PyDict.put .empty "messages" (.arr calledMessages)) =
      some messages ∧ Answered messages ∧
      CompleteRequest (fun _ => []) (PyDict.put .empty "messages" (.arr calledMessages)) calledMessages messages := by
  obtain ⟨messages, hconvert, hanswered, hcomplete⟩ :=
    convertAnthropicToOpenaiMessages_complete_iff (fun _ => []) (fun _ => []) validRequest_called
  exact ⟨messages, hconvert, hanswered, hcomplete.2 (by decide +kernel)⟩

/-- A question about a document. -/
def askedMessages : List Json :=
  [sampleMessage "user" [sampleDocument "Hello", sampleBlock [("text", sampleText "Summarize this.")]]]

theorem validRequest_asked : ValidRequest (PyDict.put .empty "messages" (.arr askedMessages)) askedMessages where
  messages := rfl
  valid := by decide +kernel
  turns := by decide +kernel
  system := rfl

/-- The document is left out. -/
theorem convertAnthropicToOpenaiMessages_asked :
    convertAnthropicToOpenaiMessages (fun _ => []) (fun _ => []) (PyDict.put .empty "messages" (.arr askedMessages)) =
      some [⟨sampleText "user", sampleText "Summarize this.", [], none⟩] ∧
      ¬CompleteRequest (fun _ => []) (PyDict.put .empty "messages" (.arr askedMessages)) askedMessages
        [⟨sampleText "user", sampleText "Summarize this.", [], none⟩] := by
  have hasked : convertAnthropicToOpenaiMessages (fun _ => []) (fun _ => [])
      (PyDict.put .empty "messages" (.arr askedMessages)) =
        some [⟨sampleText "user", sampleText "Summarize this.", [], none⟩] := rfl
  refine ⟨hasked, fun hcomplete => ?_⟩
  obtain ⟨made, hconvert, hall⟩ := convert_spec (fun _ => []) (fun _ => []) validRequest_asked
  rw [hasked] at hconvert
  rw [Option.some.inj hconvert] at hcomplete
  have hcited := not_cited_of_completeRequest validRequest_asked hall hcomplete _ List.mem_cons_self
    (sampleDocument "Hello") (by decide +kernel)
  revert hcited
  decide

end

end AnthropicRequest

end TideBot
