/-
  Tags in the text of a streamed message (`utils/middleware.py`).

  Some models write their reasoning, a solution, or code for the interpreter between tags in the text itself.
  `tag_output_handler` looks for a start tag in the last message, and for the end tag in an open block, after every
  chunk; it remembers for each item how much of its text it has scanned, and where the last `<` is, and the last `>`
  or newline.

  An item is modelled by its last text, or its code.  Times and what is derived from the attributes (`lang`) are left
  out, and a random id is the next number.  A start tag that is empty would be found again and again in a solution;
  the other recursions end by themselves.  `\w` is a parameter.
-/
import TideBot.Lib.Dict
import TideBot.Lib.Search
import TideBot.Lib.Text

namespace TideBot

open Lib

/-! ## Tags -/

/-- The kinds of blocks. -/
inductive ContentType where
  | reasoning
  | solution
  | codeInterpreter
deriving DecidableEq

/-- A start tag and its end tag. -/
structure TagPair where
  startTag : Text
  endTag : Text

/-- The tags that are looked for, if a model has none of its own. -/
def defaultTags : ContentType → List TagPair
  | .reasoning =>
    [⟨.lit "<think>", .lit "</think>"⟩, ⟨.lit "<thinking>", .lit "</thinking>"⟩, ⟨.lit "<reason>", .lit "</reason>"⟩,
      ⟨.lit "<reasoning>", .lit "</reasoning>"⟩, ⟨.lit "<thought>", .lit "</thought>"⟩,
      ⟨.lit "<Thought>", .lit "</Thought>"⟩, ⟨.lit "<|begin_of_thought|>", .lit "<|end_of_thought|>"⟩,
      ⟨.lit "◁think▷", .lit "◁/think▷"⟩]
  | .solution => [⟨.lit "<|begin_of_solution|>", .lit "<|end_of_solution|>"⟩]
  | .codeInterpreter => [⟨.lit "<code_interpreter>", .lit "</code_interpreter>"⟩]

/-- `c` as a code point -/
def codeOf (c : Char) : CodePoint := CodePoint.ofChar c

/-- `start_tag.startswith('<') and start_tag.endswith('>')` -/
def isAngle (startTag : Text) : Bool := startTag.head? = some (codeOf '<') ∧ startTag.getLast? = some (codeOf '>')

/-- The rest of `(\s.*?)?>`: how long it is, and the group. -/
def matchAttributes : Text → Option (ℕ × Text)
  | [] => none
  | c :: rest =>
    if c = codeOf '>' then some (1, [])
    else if Text.isSpace c then
      let body := rest.takeWhile fun d => d ≠ codeOf '>' ∧ d ≠ codeOf '\n'
      if rest[body.length]? = some (codeOf '>') then some (body.length + 2, c :: body) else none
    else none

/-- A match of `_start_tag_pattern(start_tag)` at the head of a text: its length, and its group. -/
def matchStartTag (startTag l : Text) : Option (ℕ × Text) :=
  if isAngle startTag then
    if startTag.dropLast <+: l then
      (matchAttributes (l.drop startTag.dropLast.length)).map fun r => (startTag.dropLast.length + r.1, r.2)
    else none
  else if startTag <+: l then some (startTag.length, []) else none

/-- `re.sub(_start_tag_pattern(start_tag), '', text)` -/
def removeStartTags (startTag : Text) : ℕ → Text → Text
  | 0, l => l
  | fuel + 1, l =>
    match l, matchStartTag startTag l with
    | [], _ => []
    | c :: rest, none => c :: removeStartTags startTag fuel rest
    | c :: rest, some (0, _) => c :: removeStartTags startTag fuel rest
    | c :: rest, some (n + 1, _) => removeStartTags startTag fuel ((c :: rest).drop (n + 1))

section
variable (isWord : CodePoint → Bool)

/-- A match of `(\w+)\s*=\s*"([^"]+)"` at the head of a text: key, value, and what follows. -/
def matchAttribute (l : Text) : Option (Text × Text × Text) :=
  let key := l.takeWhile isWord
  match (l.dropWhile isWord).dropWhile Text.isSpace with
  | eq :: l =>
    if key ≠ [] ∧ eq = codeOf '=' then
      match l.dropWhile Text.isSpace with
      | quote :: l =>
        let value := l.takeWhile fun c => c ≠ codeOf '"'
        match l.drop value.length with
        | _ :: rest => if quote = codeOf '"' ∧ value ≠ [] then some (key, value, rest) else none
        | [] => none
      | [] => none
    else none
  | [] => none

/-- `extract_attributes` -/
def extractAttributes : ℕ → Text → Dict Text Text → Dict Text Text
  | 0, _, attributes => attributes
  | _ + 1, [], attributes => attributes
  | fuel + 1, c :: l, attributes =>
    match matchAttribute isWord (c :: l) with
    | some (key, value, rest) => extractAttributes fuel rest (attributes.set key value)
    | none => extractAttributes fuel l attributes

end

/-! ## Items -/

/-- The type of an item. -/
inductive ItemKind where
  | message
  | reasoning
  | codeInterpreter
  | other
deriving DecidableEq

/-- An item of an output: `text` is its last text or its code, `tagType` its `_tag_type`. -/
structure TagItem where
  id : Option ℕ
  kind : ItemKind
  text : Text
  completed : Bool
  tagType : Option ContentType
  startTag : Text
  endTag : Text
  attributes : Dict Text Text

/-- A key of the caches: the id of an item, and a content type. -/
abbrev ScanKey := Option ℕ × ContentType

/-- The output, the next id, and `tag_scan_positions` and `tag_boundary_positions`. -/
structure TagState where
  output : List TagItem
  nextId : ℕ
  positions : Dict ScanKey ℕ
  boundaries : Dict ScanKey (ℕ × ℤ × ℤ)

/-- An empty message. -/
def newMessageItem (id : ℕ) (text : Text) : TagItem :=
  ⟨some id, .message, text, false, none, [], [], .empty⟩

/-- `output_type_map` -/
def ContentType.itemKind : ContentType → ItemKind
  | .reasoning => .reasoning
  | .solution => .message
  | .codeInterpreter => .codeInterpreter

/-- The item of a block that a start tag opens. -/
def openedItem (type : ContentType) (tag : TagPair) (attributes : Dict Text Text) (id : ℕ) (text : Text) : TagItem :=
  ⟨some id, type.itemKind, text, false, if type = .solution then some .solution else none, tag.startTag, tag.endTag,
    attributes⟩

/-! ## The caches -/

/-- `get_scanned_length`; a rescan starts at 0. -/
def scannedLength (rescan : Bool) (type : ContentType) (item : TagItem) (s : TagState) : ℕ :=
  if rescan ∨ item.id = none then 0
  else
    let n := (s.positions.get (item.id, type)).getD 0
    if n ≤ item.text.length then n else 0

/-- `save_scanned_length` -/
def saveScannedLength (type : ContentType) (item : TagItem) (s : TagState) : TagState :=
  if item.id = none then s else { s with positions := s.positions.set (item.id, type) item.text.length }

/-- `clear_scanned_length` -/
def clearScannedLength (type : ContentType) (item : TagItem) (s : TagState) : TagState :=
  if item.id = none then s
  else { s with positions := s.positions.erase (item.id, type), boundaries := s.boundaries.erase (item.id, type) }

/-- `text.rfind(c, start, stop)` -/
def rfind (c : CodePoint) (text : Text) (start stop : ℕ) : ℤ :=
  let i := lastIndex (fun d => d = c) ((text.take stop).drop start)
  if i = -1 then -1 else start + i

/-- `get_tag_boundaries` -/
def tagBoundaries (type : ContentType) (item : TagItem) (scanned : ℕ) (s : TagState) : (ℤ × ℤ) × TagState :=
  let (before, lastOpen, lastBoundary) := (s.boundaries.get (item.id, type)).getD (0, -1, -1)
  let (before, lastOpen, lastBoundary) := if before > scanned then (0, -1, -1) else (before, lastOpen, lastBoundary)
  if before < scanned then
    let openTag := rfind (codeOf '<') item.text before scanned
    let boundary := max (rfind (codeOf '>') item.text before scanned) (rfind (codeOf '\n') item.text before scanned)
    let lastOpen := if openTag ≠ -1 then openTag else lastOpen
    let lastBoundary := if boundary ≠ -1 then boundary else lastBoundary
    ((lastOpen, lastBoundary),
      { s with boundaries := s.boundaries.set (item.id, type) (scanned, lastOpen, lastBoundary) })
  else ((lastOpen, lastBoundary), s)

/-- `max_start_tag_length` -/
def maxStartTagLength (tags : List TagPair) : ℕ :=
  if tags.isEmpty then 1 else (tags.map fun tag => tag.startTag.length).foldr max 0

/-- Where the search for a start tag begins. -/
def searchStart (tags : List TagPair) (type : ContentType) (item : TagItem) (scanned : ℕ) (s : TagState) :
    ℕ × TagState :=
  let start := scanned + 1 - maxStartTagLength tags
  if scanned ≠ 0 ∧ tags.any fun tag => isAngle tag.startTag then
    let ((openTagStart, lastTagBoundary), s) := tagBoundaries type item scanned s
    (if openTagStart > lastTagBoundary then min start openTagStart.toNat else start, s)
  else (start, s)

/-- The first tag that is found, and where. -/
def findStartTag (tags : List TagPair) (text : Text) (start : ℕ) : Option (TagPair × ℕ × ℕ × Text) :=
  tags.findSome? fun tag => (searchFrom (matchStartTag tag.startTag) text start).map fun r => (tag, r)

/-! ## The handler -/

/-- The end of a block: the text before the end tag, and the text after it. -/
def endBlock (item : TagItem) : Text × Text :=
  let text := Text.strip (removeStartTags item.startTag (item.text.length + 1) item.text)
  match search (literal item.endTag) text with
  | some (k, _) => (Text.strip (text.take k), Text.strip (text.drop (k + item.endTag.length)))
  | none => (Text.strip text, [])

/-- Is the item an open block of the content type?  A solution is a message, and does not get here. -/
def isBlockOf (type : ContentType) (item : TagItem) : Bool :=
  (item.kind = .reasoning ∧ type = .reasoning) ∨ (item.kind = .codeInterpreter ∧ type = .codeInterpreter)

/-- The end tag of an open block is looked for. -/
def closeBlock (rescan : Bool) (type : ContentType) (item : TagItem) (s : TagState) : TagState × Bool :=
  let start := scannedLength rescan type item s + 1 - max item.endTag.length 1
  if (searchFrom (literal item.endTag) item.text start).isSome then
    let s := clearScannedLength type item s
    let (text, leftover) := endBlock item
    let closed := if text.isEmpty then []
      else [{ item with text := text, completed := item.completed || item.kind = .reasoning }]
    let output := s.output.dropLast ++ closed ++ [newMessageItem s.nextId leftover]
    ({ s with output := output, nextId := s.nextId + 1 }, true)
  else (saveScannedLength type item s, false)

section
variable (isWord : CodePoint → Bool) (tags : ContentType → List TagPair)

/-- A start tag that has been found opens a block. -/
def openBlock (type : ContentType) (item : TagItem) (tag : TagPair) (k n : ℕ) (group : Text) (s : TagState) :
    TagState :=
  let s := clearScannedLength type item s
  let attributes := extractAttributes isWord group.length group .empty
  let before := item.text.take k
  let front := if (Text.strip before).isEmpty then [] else [{ item with text := before }]
  let opened := openedItem type tag attributes s.nextId (item.text.drop (k + n))
  { s with output := s.output.dropLast ++ front ++ [opened], nextId := s.nextId + 1 }

/-- `tag_output_handler`: the state afterwards, and `end_flag`. -/
def tagOutputHandler (rescan : Bool) (type : ContentType) : ℕ → TagState → TagState × Bool
  | 0, s => (s, false)
  | fuel + 1, s =>
    match s.output.getLast? with
    | none => (s, false)
    | some item =>
      if item.kind = .message then
        let (start, s) := searchStart (tags type) type item (scannedLength rescan type item s) s
        match findStartTag (tags type) item.text start with
        | some (tag, k, n, group) =>
          let s := openBlock isWord type item tag k n group s
          if item.text.drop (k + n) = [] then (s, false) else tagOutputHandler rescan type fuel s
        | none => (saveScannedLength type item s, false)
      else if isBlockOf type item then closeBlock rescan type item s
      else (s, false)

/-! ## The loop -/

/-- The text of the last item. -/
def lastText (s : TagState) : Text := (s.output.getLast?.map fun item => item.text).getD []

/-- `last_item.get('attributes', {}).get('type') == 'reasoning_content'` -/
def isReasoningContent (item : TagItem) : Bool := item.attributes.get (.lit "type") = some (.lit "reasoning_content")

/-- `inside_tag_block` -/
def insideTagBlock (item : TagItem) : Bool :=
  !item.completed ∧ !isReasoningContent item ∧
    (item.kind = .reasoning ∨ item.kind = .codeInterpreter ∨ item.kind = .message ∧ item.tagType.isSome)

/-- A message at the end. -/
def addMessage (s : TagState) : TagState :=
  { s with output := s.output ++ [newMessageItem s.nextId []], nextId := s.nextId + 1 }

/-- `item` with more text at its end, in place of the last item. -/
def extendLast (value : Text) (s : TagState) : TagState :=
  match s.output.getLast? with
  | none => s
  | some item => { s with output := s.output.dropLast ++ [{ item with text := item.text ++ value }] }

/-- A reasoning that looks like one of the provider ends. -/
def endReasoningContent (s : TagState) : TagState :=
  match s.output.getLast? with
  | some item =>
    if item.kind = ItemKind.reasoning ∧ isReasoningContent item then
      addMessage { s with output := s.output.dropLast ++ [{ item with completed := true }] }
    else s
  | none => s

/-- A chunk is appended to the open block, or to the last message. -/
def appendContent (value : Text) (s : TagState) : TagState :=
  let s := endReasoningContent s
  match s.output.getLast? with
  | some item =>
    if insideTagBlock item ∨ item.kind = ItemKind.message then extendLast value s else extendLast value (addMessage s)
  | none => extendLast value (addMessage s)

/-- The handler for one content type; its recursion is as deep as the text is long. -/
def detect (rescan : Bool) (type : ContentType) (s : TagState) : TagState × Bool :=
  tagOutputHandler isWord tags rescan type ((lastText s).length + 2) s

/-- The content types that are looked for, in order. -/
def detectors (detectReasoningTags detectCodeInterpreter : Bool) : List ContentType :=
  (if detectReasoningTags then [ContentType.reasoning, .solution] else []) ++
    if detectCodeInterpreter then [.codeInterpreter] else []

/-- The detectors after a chunk; the second part: the code of an interpreter has ended, and so does the stream. -/
def detectAll (rescan : Bool) : List ContentType → TagState → TagState × Bool
  | [], s => (s, false)
  | type :: types, s =>
    let (s, ended) := detect isWord tags rescan type s
    if type = .codeInterpreter ∧ ended then (s, true) else detectAll rescan types s

/-- A content delta. -/
def contentDelta (rescan : Bool) (types : List ContentType) (value : Text) (s : TagState) : TagState × Bool :=
  detectAll isWord tags rescan types (appendContent value s)

/-- The content deltas of a stream. -/
def streamContent (rescan : Bool) (types : List ContentType) : List Text → TagState → TagState
  | [], s => s
  | value :: values, s =>
    let (s, ended) := contentDelta isWord tags rescan types value s
    if ended then s else streamContent rescan types values s

end

/-- The state before a stream, with an output. -/
def startState (output : List TagItem) : TagState :=
  ⟨output, (output.filterMap TagItem.id).foldr max 0 + 1, .empty, .empty⟩

end TideBot
