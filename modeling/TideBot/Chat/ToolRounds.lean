/-
  The tool calls of a round (`utils/middleware.py`).

  The arguments of a call are a text of the model: JSON, or a Python literal, and of any type.  Arguments that are
  neither are answered with an error text.  But those that are read as something other than a dictionary make
  `execute_tool_call` raise, where there is such a tool, and so do literals that are no JSON: both happen
  outside of the `try`.  So does what comes after the call: the handlers of the terminal ask the arguments for a
  path, whether or not there is such a tool.  What one call raises ends the round, and no call gets an output
  (`toolRound_iff`).

  The codec is chosen by an environment variable; it and `ast.literal_eval` are parameters, and so are what the
  tools do, what `process_tool_result` makes of what they return, and the emitter of events: all of these may
  raise.  The other files, the embeds and the sources of a result are left out.
-/
import TideBot.Chat.Transcript
import TideBot.Lib.JsonLoads
import TideBot.Lib.Mapping

namespace TideBot

open Lib

/-! ## Values -/

/-- A value of Python. -/
inductive PyValue where
  | none
  | bool (b : Bool)
  | int (n : ℤ)
  | float (q : ℚ)
  | complex (re im : ℚ)
  | str (s : Text)
  | bytes (b : List ℕ)
  | ellipsis
  | list (items : List PyValue)
  | tuple (items : List PyValue)
  | set (items : List PyValue)
  | dict (items : List (PyValue × PyValue))
  /-- an object of another class -/
  | object (name : Text)

namespace PyValue

mutual

/-- The value of a JSON text. -/
def ofJson : Json → PyValue
  | .null => .none
  | .bool b => .bool b
  | .int n => .int n
  | .float q => .float q
  | .str s => .str s
  | .arr items => .list (ofItems items)
  | .obj fields => .dict (ofFields fields)

def ofItems : List Json → List PyValue
  | [] => []
  | item :: items => ofJson item :: ofItems items

def ofFields : List (Text × Json) → List (PyValue × PyValue)
  | [] => []
  | (key, value) :: fields => (.str key, ofJson value) :: ofFields fields

end

def isNone : PyValue → Bool
  | .none => true
  | _ => false

def isBool (b : Bool) : PyValue → Bool
  | .bool b' => b' = b
  | _ => false

/-- `bool(value)` -/
def truthy : PyValue → Bool
  | .none => false
  | .bool b => b
  | .int n => n ≠ 0
  | .float q => q ≠ 0
  | .complex re im => re ≠ 0 || im ≠ 0
  | .str s => s ≠ []
  | .bytes b => b ≠ []
  | .list items | .tuple items | .set items => !items.isEmpty
  | .dict items => !items.isEmpty
  | .ellipsis | .object _ => true

/-- `value or other` -/
def or (value other : PyValue) : PyValue := if value.truthy then value else other

/-- `params.items()`; `none`: there is no such attribute -/
def items : PyValue → Option (List (PyValue × PyValue))
  | .dict items => some items
  | _ => Option.none

/-- Is the value one of the strings? -/
def isOneOf (names : List Text) : PyValue → Bool
  | .str s => s ∈ names
  | _ => false

/-- `value.get(key)`; `none`: there is no such attribute -/
def get (value : PyValue) (key : String) : Option PyValue :=
  value.items.map fun items => (items.find? fun p => p.1.isOneOf [.lit key]).elim .none Prod.snd

/-- `items[key] = value` -/
def setItem (items : List (PyValue × PyValue)) (p : String × PyValue) : List (PyValue × PyValue) :=
  let isKey (q : PyValue × PyValue) : Bool := q.1.isOneOf [.lit p.1]
  if items.any isKey then items.map fun q => if isKey q then (q.1, p.2) else q
  else items ++ [(.str (.lit p.1), p.2)]

/-- `tool_result[0]`, of a list or tuple that starts with a dictionary -/
def firstDict : PyValue → PyValue
  | .list (.dict items :: _) | .tuple (.dict items :: _) => .dict items
  | value => value

end PyValue

/-! ## Tools -/

/-- What `loads` raises: a `JSONDecodeError` or `TypeError`, or something else, such as a `RecursionError`. -/
inductive LoadsError where
  | decode
  | other

/-- `JSONCodec` and `ast.literal_eval`; `none`: an exception. -/
structure Literals where
  loads : Text → Except LoadsError Json
  dumps : PyValue → Option Text
  literalEval : Text → Option PyValue

/-- A tool of the table. -/
structure Tool where
  spec : Json
  type : Text
  direct : Bool
  toolId : Text
  /-- `(tool.get('server') or {}).get('url')` -/
  serverUrl : PyValue

/-- What becomes of a tool that is called. -/
inductive ToolOutcome where
  | returned (result : PyValue)
  /-- it raises an `Exception`; `none`: whose `str` raises as well -/
  | raised (text : Option Text)
  /-- it raises something that is no `Exception` -/
  | escaped

/-- The result of the call; `none`: it is not caught. -/
def ToolOutcome.result? : ToolOutcome → Option PyValue
  | .returned result => some result
  | .raised (some text) => some (.dict [(.str (.lit "error"), .str text)])
  | .raised none | .escaped => none

/-- A tool call of the model. -/
structure RequestedCall where
  id : Text
  name : Text
  arguments : Text

/-- What `execute_tool_call` returns, with the arguments as they are written back into the call. -/
structure ToolResult where
  params : PyValue
  result : PyValue
  tool : Option Tool
  direct : Bool
  arguments : Text

/-- `value.get(key, {})`; `none`: there is no such attribute -/
def getDict (value : Json) (key : String) : Option Json :=
  if value.isObj then some ((value.field (.lit key)).getD (.obj [])) else none

/-- `spec.get('parameters', {}).get('properties', {}).keys()` -/
def Tool.allowedParams (tool : Tool) : Option (List Text) := do
  match ← getDict (← getDict tool.spec "parameters") "properties" with
  | .obj properties => some (properties.map Prod.fst)
  | _ => none

section
variable (L : Literals) (tools : Dict Text Tool)
variable (run : RequestedCall → Tool → List (PyValue × PyValue) → ToolOutcome)

/-- The value of the arguments; `none`: they cannot be read. -/
def argumentValue (arguments : Text) : Option PyValue :=
  if arguments.strip = [] then some (.dict [])
  else ((L.loads arguments).toOption.map PyValue.ofJson).or (L.literalEval arguments)

/-- `parse_tool_params`: the parameters and the arguments of the call afterwards; `none`: it raises. -/
def parseToolParams (arguments : Text) : Option (PyValue × Text) :=
  match argumentValue L arguments with
  | none => some (.none, arguments)
  | some params => (L.dumps params).map fun text => (params, text)

def notFound (name : Text) : PyValue := .str (.lit "Error: Tool \"" ++ name ++ .lit "\" not found.")

/-- `execute_tool_call`; `none`: it raises. -/
def executeToolCall (call : RequestedCall) : Option ToolResult := do
  let (params, arguments) ← parseToolParams L call.arguments
  if params.isNone then some ⟨.dict [], .none, none, false, arguments⟩
  else
    match tools.get call.name with
    | none => some ⟨params, notFound call.name, none, false, arguments⟩
    | some tool =>
      let allowedParams ← tool.allowedParams
      let params := (← params.items).filter fun p => p.1.isOneOf allowedParams
      return ⟨.dict params, ← (run call tool params).result?, some tool, tool.direct, arguments⟩

def isDelegate (call : RequestedCall) : Bool := call.name = .lit "delegate_task"

/-- `tool_results`: the results by the positions of the calls, those of `delegate_task` last -/
def toolResults (calls : List RequestedCall) : Option (List (ℕ × ToolResult)) := do
  let execute (c : RequestedCall × ℕ) := (executeToolCall L tools run c.1).map fun r => (c.2, r)
  let results ← (calls.zipIdx.filter fun c => !isDelegate c.1).mapM execute
  let delegated ← (calls.zipIdx.filter fun c => isDelegate c.1).mapM execute
  return results ++ delegated

/-! ## What comes after the calls -/

structure TerminalEvent where
  type : Text
  data : List (String × PyValue)

/-- What a round uses besides its tools. -/
structure RoundContext where
  /-- `metadata.get('terminal_id')` and `metadata.get('chat_id')` -/
  terminalId : PyValue
  chatId : PyValue
  /-- `mimetypes.guess_type`; `none`: an exception, as of a path that is no path -/
  guessType : PyValue → Option (Option Text)
  /-- `os.path.basename` -/
  basename : PyValue → PyValue
  /-- `process_tool_result` of what a tool returns: the text and the images; `none`: an exception, then or when
  its status and files are read -/
  processToolResult : Text → PyValue → Tool → Option (Option Text × List Text)
  /-- `false`: an exception -/
  eventEmitter : Option (TerminalEvent → Bool)

variable (R : RoundContext)

/-- `terminal_id` and `server_url` of `build_terminal_file_tool_result` -/
def terminalOf (tool : Option Tool) : PyValue × PyValue :=
  match tool with
  | none => (R.terminalId, .none)
  | some tool =>
    (if (Text.lit "terminal:").isPrefixOf tool.toolId then .str (tool.toolId.drop 9) else R.terminalId, tool.serverUrl)

/-- The path of the file that `build_terminal_file_tool_result` shows, if any; `none`: it raises. -/
def terminalPath (name : Text) (params result : PyValue) (tool : Option Tool) : Option (Option PyValue) :=
  if name ≠ .lit "display_file" then some none
  else do
    let inline ← params.get "inline"
    let path ← params.get "path"
    match result.firstDict.get "exists", result.firstDict.get "path" with
    | some existing, some path' =>
      let shown := path'.or path
      let selector := (terminalOf R tool).1.or (terminalOf R tool).2
      return if inline.isBool true && !existing.isBool false && selector.truthy && shown.truthy then some shown
        else none
    | _, _ => return none

/-- `build_terminal_file_tool_result`; `none`: it raises. -/
def buildTerminalFileToolResult (name : Text) (params result : PyValue) (tool : Option Tool) :
    Option (Option PyValue) := do
  match ← terminalPath R name params result tool with
  | none => return none
  | some path =>
    let mimeType := PyValue.str ((← R.guessType path).getD (.lit "application/octet-stream"))
    let items ← result.firstDict.items
    let item (key : String) := (result.firstDict.get key).getD .none
    let page := (item "page").or ((params.get "page").getD .none)
    let (terminalId, serverUrl) := terminalOf R tool
    return some (.dict (([("type", .str (.lit "file")), ("source", .str (.lit "open_terminal")),
      ("displayed", .bool true), ("terminal_selector", terminalId.or serverUrl)] ++
      (if terminalId.truthy then [("terminal_id", terminalId)]
        else if serverUrl.truthy then [("terminal_url", serverUrl)] else []) ++
      [("session_id", R.chatId), ("path", path), ("full_path", (item "full_path").or path),
        ("name", (item "name").or (R.basename path)),
        ("mime_type", (item "mime_type").or ((item "content_type").or mimeType)),
        ("content_type", (item "content_type").or ((item "mime_type").or mimeType))] ++
      if page.truthy then [("page", page)] else []).foldl PyValue.setItem items))

/-- `process_tool_result`: the text that there is no such tool is left as it is -/
def processed (name : Text) (result : PyValue) : Option Tool → Option (Option Text × List Text)
  | some tool => R.processToolResult name result tool
  | none =>
    match result with
    | .str text => some (some text, [])
    | _ => some (none, [])

/-- The result of a displayed file, read back; `none`: the exception is not caught. -/
def parsedResult : Option Text → Option PyValue
  | none => some .none
  | some text =>
    match L.loads text with
    | .ok value => some (.ofJson value)
    | .error .decode => some (.str text)
    | .error .other => none

/-- The event of `terminal_event_handler`, if any; `none`: it raises. -/
def terminalEvent (name : Text) (params : PyValue) (text : Option Text) : Option (Option TerminalEvent) :=
  if name = .lit "display_file" then do
    let inline ← params.get "inline"
    let path ← params.get "path"
    let page ← params.get "page"
    if inline.isBool true || !path.truthy then return none
    else
      let parsed ← parsedResult L text
      return if (parsed.get "exists").any (PyValue.isBool false) then none
        else some ⟨.lit "terminal:display_file", ("path", path) :: if page.truthy then [("page", page)] else []⟩
  else if name = .lit "write_file" ∨ name = .lit "replace_file_content" then do
    let path ← params.get "path"
    return if path.truthy then some ⟨.lit "terminal:" ++ name, [("path", path)]⟩ else none
  else if name = .lit "run_command" then some (some ⟨.lit "terminal:run_command", []⟩)
  else some none

/-- `terminal_event_handler`; `none`: it raises. -/
def terminalEventHandler (name : Text) (params : PyValue) (text : Option Text) : Option Unit :=
  match R.eventEmitter with
  | none => some ()
  | some emit => do
    let event ← terminalEvent L name params text
    if event.all emit then return () else none

/-- The parts of the output of a call; `none`: it raises. -/
def outputParts (call : RequestedCall) (r : ToolResult) : Option (List ToolOutputPart) :=
  if r.result.isNone then
    some [.inputText (.str (.lit "Error: Tool call arguments could not be parsed. The model generated malformed or incomplete JSON for \x60" ++
      call.name ++ .lit "\x60. Please try again."))]
  else do
    let file ← buildTerminalFileToolResult R call.name r.params r.result r.tool
    let (text, images) ← processed R call.name (file.getD r.result) r.tool
    terminalEventHandler L R call.name r.params text
    return .inputText (.str (text.getD [])) :: images.map .inputImage

/-- The `function_call_output` items of a round; `none`: it raises. -/
def toolRound (calls : List RequestedCall) : Option (List OutputItem) := do
  let results ← toolResults L tools run calls
  calls.zipIdx.mapM fun c => do
    let r ← results.lookup c.2
    return .functionCallOutput c.1.id (← outputParts L R c.1 r)

/-- **A call that can be answered**: its arguments cannot be read, or else they can be written as JSON, and
stand for `None`, or there is no such tool, or they are a dictionary, and the tool has a specification and raises
nothing but an `Exception` with a text. -/
def RequestedCall.Answerable (call : RequestedCall) : Prop :=
  ∀ params ∈ argumentValue L call.arguments, (L.dumps params).isSome ∧
    (params.isNone ∨ ∀ tool ∈ tools.get call.name, ∃ allowed items, tool.allowedParams = some allowed ∧
      params = .dict items ∧
      ((∃ result, run call tool (items.filter fun p => p.1.isOneOf allowed) = .returned result) ∨
        ∃ text, run call tool (items.filter fun p => p.1.isOneOf allowed) = .raised (some text)))

/-- **A result that can be shown**: what asks the arguments for a path finds a dictionary, the type of a file that is
displayed can be guessed, the result can be processed, and the event of the terminal can be sent. -/
structure Presentable (name : Text) (params result : PyValue) (tool : Option Tool) : Prop where
  dictionary : name = .lit "display_file" ∨
    R.eventEmitter.isSome ∧ (name = .lit "write_file" ∨ name = .lit "replace_file_content") → params.items.isSome
  guessed : ∀ path, terminalPath R name params result tool = some (some path) → (R.guessType path).isSome
  processed : ∀ file, buildTerminalFileToolResult R name params result tool = some file →
    ∃ text images, processed R name (file.getD result) tool = some (text, images) ∧ ∀ emit ∈ R.eventEmitter,
      (name = .lit "display_file" → (∀ inline ∈ params.get "inline", inline.isBool true = false) →
        (∀ path ∈ params.get "path", path.truthy) → (parsedResult L text).isSome) ∧
      ∀ event, terminalEvent L name params text = some (some event) → emit event

/-- Arguments that are read, and what the tool makes of them, can be shown. -/
def RequestedCall.Presented (call : RequestedCall) : Prop :=
  ∀ read ∈ argumentValue L call.arguments, read.isNone = false →
    (tools.get call.name = none → Presentable L R call.name read (notFound call.name) none) ∧
    ∀ tool ∈ tools.get call.name, ∀ allowed ∈ tool.allowedParams, ∀ items ∈ read.items,
      ∀ result ∈ (run call tool (items.filter fun p => p.1.isOneOf allowed)).result?, result.isNone = false →
        Presentable L R call.name (.dict (items.filter fun p => p.1.isOneOf allowed)) result (some tool)

end

section
variable {L : Literals} {tools : Dict Text Tool} {call : RequestedCall} {calls : List RequestedCall}
variable {run : RequestedCall → Tool → List (PyValue × PyValue) → ToolOutcome} {R : RoundContext}
variable {name : Text} {params result : PyValue} {tool : Option Tool} {r : ToolResult}

theorem executeToolCall_isSome_iff : (executeToolCall L tools run call).isSome ↔ call.Answerable L tools run := by
  rw [executeToolCall, parseToolParams, RequestedCall.Answerable]
  cases hvalue : argumentValue L call.arguments with
  | none => simp [PyValue.isNone]
  | some params =>
    cases hdumps : L.dumps params with
    | none => simp [hdumps]
    | some text =>
      by_cases hnone : params.isNone
      · simp [hdumps, hnone]
      · cases htool : tools.get call.name with
        | none => simp [hdumps, hnone]
        | some tool =>
          cases hallowed : tool.allowedParams with
          | none => simp [hdumps, hnone, hallowed]
          | some allowed =>
            cases params with
            | dict items =>
              simp only [PyValue.items, Option.bind_eq_bind, Option.bind_some, hdumps, Option.map_some, hallowed,
                PyValue.isNone, Bool.false_eq_true, if_false, Option.mem_some_iff, forall_eq', Option.isSome_some,
                true_and, false_or, Option.some.injEq, PyValue.dict.injEq, exists_and_left, exists_eq_left']
              cases run call tool (items.filter fun p => p.1.isOneOf allowed) with
              | returned result => simp [ToolOutcome.result?]
              | raised text => cases text <;> simp [ToolOutcome.result?]
              | escaped => simp [ToolOutcome.result?]
            | none => exact absurd rfl hnone
            | bool _ | int _ | float _ | complex _ _ | str _ | bytes _ | ellipsis | list _ | tuple _ | set _ | object _ =>
              simp [hdumps, hallowed, PyValue.isNone, PyValue.items]

/-! ## One output -/

theorem get_isSome (value : PyValue) (key : String) : (value.get key).isSome = value.items.isSome := by
  rw [PyValue.get, Option.isSome_map]

theorem terminalPath_isSome_iff : (terminalPath R name params result tool).isSome ↔
    (name = .lit "display_file" → params.items.isSome) := by
  rw [terminalPath]
  by_cases hname : name = .lit "display_file"
  · cases hitems : params.items with
    | none => simp [hname, PyValue.get, hitems]
    | some items =>
      simp only [hname, PyValue.get, hitems, Option.map_some, Option.bind_eq_bind, Option.bind_some, Option.isSome_some,
        not_true_eq_false, if_false, forall_const, iff_true, ne_eq]
      split <;> rfl
  · simp [hname]

theorem items_of_terminalPath {path : PyValue} (h : terminalPath R name params result tool = some (some path)) :
    result.firstDict.items.isSome := by
  rw [terminalPath] at h
  split at h
  · cases h
  · cases hexists : result.firstDict.get "exists" with
    | none => simp [hexists, Option.bind_eq_some_iff] at h
    | some existing => rw [← get_isSome _ "exists", hexists, Option.isSome_some]

theorem buildTerminalFileToolResult_isSome_iff : (buildTerminalFileToolResult R name params result tool).isSome ↔
    (name = .lit "display_file" → params.items.isSome) ∧
      ∀ path, terminalPath R name params result tool = some (some path) → (R.guessType path).isSome := by
  have hsome : (terminalPath R name params result tool).isSome ↔ _ := terminalPath_isSome_iff
  rw [buildTerminalFileToolResult, ← hsome]
  cases hpath : terminalPath R name params result tool with
  | none => simp
  | some shown =>
    cases shown with
    | none => simp
    | some path =>
      obtain ⟨items, hitems⟩ := Option.isSome_iff_exists.1 (items_of_terminalPath hpath)
      cases hguess : R.guessType path <;> simp [hitems, hguess]

theorem terminalEvent_isSome_iff {text : Option Text} : (terminalEvent L name params text).isSome ↔
    (name = .lit "display_file" ∨ name = .lit "write_file" ∨ name = .lit "replace_file_content" →
      params.items.isSome) ∧
    (name = .lit "display_file" → (∀ inline ∈ params.get "inline", inline.isBool true = false) →
      (∀ path ∈ params.get "path", path.truthy) → (parsedResult L text).isSome) := by
  rw [terminalEvent]
  by_cases hdisplay : name = .lit "display_file"
  · cases hitems : params.items with
    | none => simp [hdisplay, PyValue.get, hitems]
    | some items =>
      simp only [hdisplay, PyValue.get, hitems, Option.map_some, Option.bind_eq_bind, Option.bind_some, if_true,
        Option.mem_some_iff, forall_eq', true_or, forall_const, Option.isSome_some, true_and]
      by_cases hinline : PyValue.isBool true ((items.find? fun p => p.1.isOneOf [.lit "inline"]).elim .none Prod.snd)
      · simp [hinline]
      · by_cases hpath : ((items.find? fun p => p.1.isOneOf [.lit "path"]).elim .none Prod.snd).truthy
        · cases parsedResult L text <;> simp [hinline, hpath]
        · simp [hinline, hpath]
  · by_cases hwrite : name = .lit "write_file" ∨ name = .lit "replace_file_content"
    · cases hitems : params.items <;> simp [hdisplay, hwrite, PyValue.get, hitems]
    · rw [if_neg hdisplay, if_neg hwrite]
      have hsome : (if name = .lit "run_command" then some (some ⟨.lit "terminal:run_command", []⟩)
          else some none : Option (Option TerminalEvent)).isSome := by
        split <;> rfl
      simp [hsome, hdisplay, not_or.1 hwrite]

theorem terminalEventHandler_isSome_iff {text : Option Text} : (terminalEventHandler L R name params text).isSome ↔
    ∀ emit ∈ R.eventEmitter, (terminalEvent L name params text).isSome ∧
      ∀ event, terminalEvent L name params text = some (some event) → emit event := by
  rw [terminalEventHandler]
  cases R.eventEmitter with
  | none => simp
  | some emit =>
    cases terminalEvent L name params text with
    | none => simp
    | some event => cases event <;> simp

theorem outputParts_isSome_iff : (outputParts L R call r).isSome ↔
    (r.result.isNone = false → Presentable L R call.name r.params r.result r.tool) := by
  rw [outputParts]
  cases hnone : r.result.isNone with
  | true => simp
  | false =>
    simp only [Bool.false_eq_true, if_false, forall_const]
    constructor
    · intro h
      obtain ⟨parts, hparts⟩ := Option.isSome_iff_exists.1 h
      simp only [Option.bind_eq_bind, Option.bind_eq_some_iff, Prod.exists] at hparts
      obtain ⟨file, hfile, text, images, hprocessed, u, hevent, -⟩ := hparts
      have hbuilt := buildTerminalFileToolResult_isSome_iff.1 (Option.isSome_iff_exists.2 ⟨file, hfile⟩)
      have hsent := terminalEventHandler_isSome_iff.1 (Option.isSome_iff_exists.2 ⟨u, hevent⟩)
      refine ⟨?_, hbuilt.2, ?_⟩
      · rintro (hname | ⟨hemits, hname⟩)
        · exact hbuilt.1 hname
        · obtain ⟨emit, hemit⟩ := Option.isSome_iff_exists.1 hemits
          exact (terminalEvent_isSome_iff.1 (hsent emit hemit).1).1 (.inr hname)
      · intro file' hfile'
        obtain rfl : file = file' := Option.some_inj.1 (hfile.symm.trans hfile')
        exact ⟨text, images, hprocessed, fun emit hemit =>
          ⟨(terminalEvent_isSome_iff.1 (hsent emit hemit).1).2, (hsent emit hemit).2⟩⟩
    · rintro ⟨hdictionary, hguessed, hprocessed⟩
      obtain ⟨file, hfile⟩ := Option.isSome_iff_exists.1 (buildTerminalFileToolResult_isSome_iff.2
        ⟨fun hname => hdictionary (.inl hname), hguessed⟩)
      obtain ⟨text, images, hshown, hsent⟩ := hprocessed file hfile
      have hevent : (terminalEventHandler L R call.name r.params text).isSome := by
        refine terminalEventHandler_isSome_iff.2 fun emit hemit =>
          ⟨terminalEvent_isSome_iff.2 ⟨?_, (hsent emit hemit).1⟩, (hsent emit hemit).2⟩
        rintro (hname | hname)
        · exact hdictionary (.inl hname)
        · exact hdictionary (.inr ⟨by rw [hemit]; rfl, hname⟩)
      obtain ⟨u, hu⟩ := Option.isSome_iff_exists.1 hevent
      simp [hfile, hshown, hu]

theorem isNone_none : PyValue.none.isNone = true := rfl

theorem isNone_notFound : (notFound name).isNone = false := rfl

theorem presentable_iff (h : executeToolCall L tools run call = some r) :
    (r.result.isNone = false → Presentable L R call.name r.params r.result r.tool) ↔
      call.Presented L tools run R := by
  rw [executeToolCall, parseToolParams] at h
  rw [RequestedCall.Presented]
  cases hvalue : argumentValue L call.arguments with
  | none =>
    obtain rfl : _ = r := by simpa [hvalue, isNone_none] using h
    simp [isNone_none]
  | some read =>
    cases hdumps : L.dumps read with
    | none => simp [hvalue, hdumps] at h
    | some text =>
      cases hnone : read.isNone with
      | true =>
        obtain rfl : _ = r := by simpa [hvalue, hdumps, hnone] using h
        simp [isNone_none, hnone]
      | false =>
        cases htool : tools.get call.name with
        | none =>
          obtain rfl : _ = r := by simpa [hvalue, hdumps, hnone, htool] using h
          simp [hnone, isNone_notFound]
        | some tool =>
          simp only [hvalue, hdumps, hnone, htool, Option.map_some, Option.bind_eq_bind, Option.bind_some,
            Bool.false_eq_true, if_false, Option.bind_eq_some_iff, Option.pure_def, Option.some.injEq] at h
          obtain ⟨allowed, hallowed, items, hitems, result, hresult, rfl⟩ := h
          simp [hnone, hallowed, hitems, hresult]

/-! ## A round -/

theorem lookup_of_mem {β : Type} {results : List (ℕ × β)} {i : ℕ} {r : β} (hmem : (i, r) ∈ results)
    (honce : ∀ r', (i, r') ∈ results → r' = r) : results.lookup i = some r := by
  induction results with
  | nil => cases hmem
  | cons e results ih =>
    obtain ⟨j, r'⟩ := e
    rw [List.lookup_cons]
    by_cases hij : i = j
    · subst hij
      rw [beq_self_eq_true, honce r' (by simp)]
    · rw [beq_eq_false_iff_ne.2 hij]
      refine ih ?_ fun r'' h => honce r'' (List.mem_cons_of_mem _ h)
      obtain heq | hmem := List.mem_cons.1 hmem
      · exact absurd (Prod.ext_iff.1 heq).1 hij
      · exact hmem

theorem mem_results (which : RequestedCall → Bool) {results : List (ℕ × ToolResult)}
    (h : ((calls.zipIdx.filter fun c => which c.1).mapM fun c =>
      (executeToolCall L tools run c.1).map fun r => (c.2, r)) = some results) {i : ℕ} {r : ToolResult} :
    (i, r) ∈ results ↔ ∃ call, calls[i]? = some call ∧ which call ∧ executeToolCall L tools run call = some r := by
  simp only [mem_mapM_iff h, List.mem_filter, List.mem_zipIdx_iff_getElem?, Option.map_eq_some_iff, Prod.mk.injEq]
  constructor
  · rintro ⟨⟨call, j⟩, ⟨hj, hwhich⟩, r', hr, rfl, rfl⟩
    exact ⟨call, hj, hwhich, hr⟩
  · rintro ⟨call, hi, hwhich, hr⟩
    exact ⟨(call, i), ⟨hi, hwhich⟩, r, hr, rfl, rfl⟩

theorem toolResults_isSome_iff :
    (toolResults L tools run calls).isSome ↔ ∀ call ∈ calls, (executeToolCall L tools run call).isSome := by
  have hboth : ∀ {α β : Type} {x y : Option (List α)} {f : List α → List α → β},
      (do let a ← x; let b ← y; return f a b : Option β).isSome ↔ x.isSome ∧ y.isSome := by
    rintro α β (_ | x) (_ | y) f <;> simp
  rw [toolResults, hboth, mapM_isSome_iff, mapM_isSome_iff]
  simp only [List.mem_filter, Option.isSome_map, Bool.not_eq_true', List.mem_zipIdx_iff_getElem?]
  constructor
  · rintro ⟨h, h'⟩ call hcall
    obtain ⟨i, hi⟩ := List.mem_iff_getElem?.1 hcall
    cases hwhich : isDelegate call with
    | false => exact h (call, i) ⟨hi, hwhich⟩
    | true => exact h' (call, i) ⟨hi, hwhich⟩
  · intro h
    exact ⟨fun c hc => h _ (List.mem_of_getElem? hc.1), fun c hc => h _ (List.mem_of_getElem? hc.1)⟩

theorem toolResults_lookup {results : List (ℕ × ToolResult)} (h : toolResults L tools run calls = some results)
    {i : ℕ} (hi : calls[i]? = some call) : ∃ r, executeToolCall L tools run call = some r ∧
      results.lookup i = some r := by
  have hall := toolResults_isSome_iff.1 (Option.isSome_iff_exists.2 ⟨results, h⟩)
  simp only [toolResults, Option.bind_eq_bind, Option.bind_eq_some_iff, Option.pure_def, Option.some.injEq] at h
  obtain ⟨direct, hdirect, delegated, hdelegated, rfl⟩ := h
  have hmem : ∀ r, (i, r) ∈ direct ++ delegated ↔ executeToolCall L tools run call = some r := by
    intro r
    rw [List.mem_append, mem_results (fun c => !isDelegate c) hdirect, mem_results isDelegate hdelegated]
    cases hwhich : isDelegate call <;> simp [hi, hwhich]
  obtain ⟨r, hr⟩ := Option.isSome_iff_exists.1 (hall call (List.mem_of_getElem? hi))
  refine ⟨r, hr, lookup_of_mem ((hmem r).2 hr) fun r' hr' => ?_⟩
  rw [hmem r', hr] at hr'
  exact (Option.some_inj.1 hr').symm

theorem toolRound_outputs {results : List (ℕ × ToolResult)} (h : toolResults L tools run calls = some results)
    (hparts : ∀ call ∈ calls, ∀ r, executeToolCall L tools run call = some r → (outputParts L R call r).isSome) :
    ∃ outputs, toolRound L tools run R calls = some outputs ∧
      outputs.map OutputItem.outputId? = calls.map fun call => some call.id := by
  have hsome : (calls.zipIdx.mapM fun (c : RequestedCall × ℕ) => do
      let r ← results.lookup c.2
      return OutputItem.functionCallOutput c.1.id (← outputParts L R c.1 r)).isSome := by
    rw [mapM_isSome_iff]
    intro c hc
    have hi := List.mem_zipIdx_iff_getElem?.1 hc
    obtain ⟨r, hr, hlookup⟩ := toolResults_lookup h hi
    obtain ⟨parts, hparts⟩ := Option.isSome_iff_exists.1 (hparts c.1 (List.mem_of_getElem? hi) r hr)
    simp [hlookup, hparts]
  obtain ⟨outputs, houtputs⟩ := Option.isSome_iff_exists.1 hsome
  refine ⟨outputs, ?_, ?_⟩
  · rw [toolRound, h]
    exact houtputs
  · have hids : List.Forall₂ (fun (c : RequestedCall × ℕ) output => some c.1.id = OutputItem.outputId? output)
        calls.zipIdx outputs := by
      refine (mapM_eq_some_iff.1 houtputs).imp fun c output hc => ?_
      simp only [Option.bind_eq_bind, Option.bind_eq_some_iff, Option.pure_def, Option.some.injEq] at hc
      obtain ⟨r, -, parts, -, rfl⟩ := hc
      rfl
    have hmap : calls.zipIdx.map (fun c => some c.1.id) = outputs.map OutputItem.outputId? := by
      rw [← List.forall₂_eq_eq_eq, List.forall₂_map_left_iff, List.forall₂_map_right_iff]
      exact hids
    rw [← hmap, ← List.zipIdx_map_fst 0 calls, List.map_map, List.zipIdx_map_fst]
    rfl

end

namespace Sample

/-- JSON without floats; the text that is written back is not needed. -/
def jsonOnly : Literals where
  loads t := ((Json.loadsText ⟨fun _ => [], fun _ => 0⟩ 1000 t).toOption).elim (.error .decode) .ok
  dumps _ := some []
  literalEval _ := none

def searchTool : Dict Text Tool :=
  Dict.empty.set (.lit "search") ⟨.obj [(.lit "parameters", .obj [(.lit "properties", .obj [(.lit "q", .obj [])])])],
    .lit "builtin", false, .lit "search", .none⟩

def listCall : RequestedCall := ⟨.lit "c1", .lit "search", .lit "[1]"⟩

def writeCall : RequestedCall := ⟨.lit "c2", .lit "write_file", .lit "[1]"⟩

def round : RoundContext where
  terminalId := .none
  chatId := .none
  guessType _ := some none
  basename path := path
  processToolResult _ _ _ := some (some [], [])
  eventEmitter := some fun _ => true

end Sample

end TideBot
