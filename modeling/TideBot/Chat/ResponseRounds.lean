/-
  The streams of one response (`utils/middleware.py`).

  `response_handler` reads a first stream, one for every round of tool calls, and one for every run of the code
  interpreter.  The indices of a Responses stream count from its own start, so what was there before must be in
  `prior_output`, and `output` empty, when a stream begins.  The continuation of the tool calls sees to that, and so
  does the start, for a message that is continued under its id; the continuation of the code interpreter does not, and
  neither does the start for a message that has an output otherwise.
  `responseHandler_keeps`: the other streams keep what was there.

  What the tools return is a parameter, as are `ask_user` and `_split_tool_calls`; the streams have Responses events
  only.  A random id is a parameter by its kind and a number.
-/
import TideBot.Chat.ResponseStream
import TideBot.Lib.Machine

namespace TideBot

open Lib

/-! ## Items -/

/-- `{'type': 'output_text', 'text': text}` -/
def outputTextPart (text : Text) : PyDict :=
  (PyDict.put .empty "type" (.str (.lit "output_text"))).put "text" (.str text)

/-- A message in progress. -/
def messageItem (id text : Text) : StreamItem :=
  { fields := PyDict.ofFields [(.lit "type", .str (.lit "message")), (.lit "id", .str id),
      (.lit "status", .str (.lit "in_progress")), (.lit "role", .str (.lit "assistant"))],
    content := some [outputTextPart text], summary := none }

/-- A call of a response.  Arguments that are no string are left to `_split_tool_calls`. -/
structure PendingCall where
  id : Json
  name : Json
  arguments : Json

/-- What has become of a call: its arguments as they are written back, the parts of its output, and the files. -/
structure CallResult where
  arguments : Json
  parts : Json
  failed : Bool
  extra : List (Text × Json)

def CallResult.status (r : CallResult) : Json := .str (if r.failed then .lit "failed" else .lit "completed")

/-- The `function_call` item of a call. -/
def functionCallItem (id : Json) (call : PendingCall) : StreamItem :=
  { fields := PyDict.ofFields [(.lit "type", .str (.lit "function_call")), (.lit "id", id), (.lit "call_id", call.id),
      (.lit "name", call.name), (.lit "arguments", call.arguments), (.lit "status", .str (.lit "in_progress"))],
    content := none, summary := none }

/-- Its `function_call_output` item. -/
def functionCallOutputItem (id : Text) (call : PendingCall) (r : CallResult) : StreamItem :=
  { fields := PyDict.ofFields ([(.lit "type", .str (.lit "function_call_output")), (.lit "id", .str id),
      (.lit "call_id", call.id), (.lit "output", r.parts), (.lit "status", r.status)] ++ r.extra),
    content := none, summary := none }

/-- A message in progress without a text; `none`: the test raises. -/
def StreamItem.isPlaceholder? (item : StreamItem) : Option Bool :=
  if item.type.eqStr (.lit "message") && (item.fields.fetch "status").eqStr (.lit "in_progress") then
    match item.content.getD [] with
    | [] => some true
    | [part] =>
      match part.fetchD "text" (.str []) with
      | .str text => some (text.strip.isEmpty)
      | _ => none
    | _ => some false
  else some false

/-- `prior_output`, without an empty message at its end; `none`: the test raises. -/
def dropPlaceholder (items : List StreamItem) : Option (List StreamItem) :=
  match items.getLast? with
  | none => some []
  | some item => item.isPlaceholder?.map fun empty => if empty then items.dropLast else items

/-! ## States -/

/-- Where the handler is: before the first stream, after some rounds of tool calls, or after some of the code
interpreter. -/
inductive HandlerPhase where
  | first
  | tools (rounds : ℕ)
  | code (rounds : ℕ)
  | over
deriving DecidableEq

/-- `prior_output`, `output` and `tool_calls`. -/
structure HandlerState where
  prior : List StreamItem
  output : List StreamItem
  toolCalls : List (List PendingCall)
  phase : HandlerPhase

/-- `full_output()` -/
def HandlerState.fullOutput (s : HandlerState) : List StreamItem := s.prior ++ s.output

/-- What the handler depends on. -/
structure HandlerEnv where
  py : Json → Text
  outputId : String → ℕ → Text
  split : List PendingCall → List PendingCall
  /-- `stage_ask_user_tool_call`: the output afterwards, and whether the call is in error -/
  askUser : List PendingCall → List StreamItem → Option (List StreamItem × Bool)
  approval : Bool
  maxIterations : Option ℕ
  detectCodeInterpreter : Bool

/-- A stream: the time at its end, and whether the connection breaks before. -/
structure Response where
  events : List StreamEvent
  broken : Bool
  now : ℚ

/-- What goes on: the first stream, the results of a round of tool calls, or the result of the code interpreter;
`none`: the request is not answered with a stream. -/
inductive HandlerRound where
  | first (response : Response)
  | tools (results : ℕ → CallResult) (response : Option Response)
  | code (result : Json) (response : Option Response)

/-- What is there before a stream and after it. -/
structure StreamRound where
  before : List StreamItem
  after : List StreamItem

section
variable (env : HandlerEnv)

/-- The initialisation of the output; `none`: it raises. -/
def initialState (existing : List StreamItem) (assistantMessageId : Bool) (initialContent : Text) :
    Option HandlerState :=
  if existing.isEmpty then
    some ⟨[], if initialContent = [] then [] else [messageItem (env.outputId "msg" 0) initialContent], [], .first⟩
  else if assistantMessageId then (dropPlaceholder existing).map fun prior => ⟨prior, [], [], .first⟩
  else some ⟨[], existing, [], .first⟩

/-! ## A stream -/

/-- The text of the last message is stripped, and an empty one goes away; the second part: it raises. -/
def stripMessage (output : List StreamItem) : List StreamItem × Bool :=
  match output.getLast? with
  | none => (output, false)
  | some item =>
    if item.type.eqStr (.lit "message") then
      match (item.content.getD []).getLast? with
      | none => (output, false)
      | some part =>
        if (part.fetch "type").eqStr (.lit "output_text") then
          match part.get (.lit "text") with
          | some (.str text) =>
            if text.strip.isEmpty then
              (if output.length = 1 then [messageItem (env.outputId "msg" 1) []] else output.dropLast, false)
            else
              let parts := (item.content.getD []).dropLast ++ [part.put "text" (.str text.strip)]
              (output.dropLast ++ [{ item with content := some parts }], false)
          | _ => (output, true)
        else (output, false)
    else (output, false)

/-- A reasoning at the end is completed; the second part: it raises. -/
def endReasoning (now : ℚ) (output : List StreamItem) : List StreamItem × Bool :=
  match output.getLast? with
  | none => (output, false)
  | some item =>
    if item.type.eqStr (.lit "reasoning") && (item.fields.fetch "ended_at").isNone then
      let fields := item.fields.put "ended_at" (.float now)
      let completed (fields : PyDict) := { item with fields := fields.put "status" (.str (.lit "completed")) }
      match item.fields.fetch "started_at" with
      | .null => (output.dropLast ++ [completed fields], false)
      | started =>
        match started.unbool.number with
        | some q => (output.dropLast ++ [completed (fields.put "duration" (.int (truncate (now - q))))], false)
        | none => (output.dropLast ++ [{ item with fields := fields }], true)
    else (output, false)
where
  /-- `int(duration)` -/
  truncate (q : ℚ) : ℤ := if 0 ≤ q then ⌊q⌋ else ⌈q⌉

/-- `item.get('call_id') or item.get('id') or output_id('fc')` -/
def callIdOf (n : ℕ) (item : StreamItem) : Json :=
  ((item.fields.fetch "call_id").or (item.fields.fetch "id")).or (.str (env.outputId "fc" n))

/-- The calls of an output that have no result yet. -/
def responseToolCalls (prior output : List StreamItem) : List PendingCall :=
  let handled := (prior ++ output).filter fun item => item.type.eqStr (.lit "function_call_output")
  (output.zipIdx.filter fun p => p.1.type.eqStr (.lit "function_call") &&
    !handled.any fun item => (item.fields.fetch "call_id").eq (callIdOf env p.2 p.1)).map fun p =>
      ⟨callIdOf env p.2 p.1, p.1.fields.fetchD "name" (.str []), p.1.fields.fetchD "arguments" (.str (.lit "{}"))⟩

/-- `stream_body_handler`; the second part: it raises. -/
def streamBodyHandler (r : Response) (s : HandlerState) : HandlerState × Bool :=
  let output := streamOutput env.py s.output r.events
  if r.broken then ({ s with output := output }, true)
  else
    let (output, raised) := stripMessage env output
    if raised then ({ s with output := output }, true)
    else
      let (output, raised) := endReasoning r.now output
      if raised then ({ s with output := output }, true)
      else
        let calls := responseToolCalls env s.prior output
        let toolCalls := if calls.isEmpty then s.toolCalls else s.toolCalls ++ [env.split calls]
        ({ s with output := output, toolCalls := toolCalls }, false)

/-! ## Between the streams -/

/-- The `function_call` items of the calls that have none. -/
def appendCalls (calls : List PendingCall) (output : List StreamItem) : List StreamItem :=
  let existing := output.filter fun item => item.type.eqStr (.lit "function_call")
  output ++ (calls.zipIdx.filter fun c => !existing.any fun item => (item.fields.fetch "call_id").eq c.1.id).map
    fun c => functionCallItem (c.1.id.or (.str (env.outputId "fc" c.2))) c.1

/-- The status and the arguments of the first `function_call` item of a call. -/
def updateCall (status arguments : Json) (call : PendingCall) (output : List StreamItem) : List StreamItem :=
  let isCall (item : StreamItem) := item.type.eqStr (.lit "function_call") && (item.fields.fetch "call_id").eq call.id
  output.modify (output.findIdx isCall) fun item =>
    { item with fields := (item.fields.put "status" status).put "arguments" arguments }

/-- The items of a round of tool calls: the calls, their outputs, and an empty message. -/
def toolItems (calls : List PendingCall) (results : ℕ → CallResult) (output : List StreamItem) : List StreamItem :=
  let answered := calls.zipIdx.map fun c => (c.1, results c.2)
  let outputs := calls.zipIdx.map fun c => functionCallOutputItem (env.outputId "fco" c.2) c.1 (results c.2)
  let statusOf (call : PendingCall) : Json :=
    (((answered.filter fun c => c.1.id.eq call.id).getLast?).map fun c => c.2.status).getD (.str (.lit "completed"))
  let updated := answered.foldl (fun output c => updateCall (statusOf c.1) c.2.arguments c.1 output)
    (output ++ outputs)
  updated ++ [messageItem (env.outputId "msg" 2) []]

/-- A stream for the results of a round: what was there moves to `prior_output`, and back. -/
def continueTools (r : Response) (rounds : ℕ) (s : HandlerState) : HandlerState × Option StreamRound :=
  match dropPlaceholder s.fullOutput with
  | none => ({ s with prior := s.fullOutput, phase := .code 0 }, none)
  | some prior =>
    let (t, raised) := streamBodyHandler env r { s with prior := prior, output := [] }
    let u := if raised then { t with phase := .code 0 }
      else { t with output := t.prior ++ t.output, prior := [], phase := .tools (rounds + 1) }
    (u, some ⟨s.fullOutput, u.fullOutput⟩)

/-- A round of tool calls. -/
def toolStep (results : ℕ → CallResult) (response : Option Response) (rounds : ℕ) (s : HandlerState) :
    Option (HandlerState × Option StreamRound) :=
  match s.toolCalls with
  | [] => none
  | calls :: toolCalls =>
    if env.maxIterations.any fun n => n ≤ rounds then none
    else
      let s := { s with toolCalls := toolCalls }
      match env.askUser calls s.output with
      | some (output, true) => some ({ s with output := output, phase := .tools (rounds + 1) }, none)
      | some (output, false) => some ({ s with output := output, phase := .over }, none)
      | none =>
        let output := appendCalls env calls s.output
        if env.approval then some ({ s with output := output, phase := .over }, none)
        else
          let s := { s with output := toolItems env calls results output }
          match response with
          | none => some ({ s with phase := .code 0 }, none)
          | some r => some (continueTools env r rounds s)

/-- The result of the code interpreter, and an empty message. -/
def codeItems (result : Json) (output : List StreamItem) : List StreamItem :=
  (output.modify (output.length - 1) fun item =>
    { item with fields := (item.fields.put "output" result).put "status" (.str (.lit "completed")) }) ++
    [messageItem (env.outputId "msg" 3) []]

/-- A run of the code interpreter; its stream goes on with `output`. -/
def codeStep (result : Json) (response : Option Response) (rounds : ℕ) (s : HandlerState) :
    Option (HandlerState × Option StreamRound) :=
  let isCode := s.output.getLast?.any fun item => item.type.eqStr (.lit "open_webui:code_interpreter")
  if env.detectCodeInterpreter && isCode && rounds < 5 then
    let s := { s with output := codeItems env result s.output }
    match response with
    | none => some ({ s with phase := .over }, none)
    | some r =>
      let (t, raised) := streamBodyHandler env r s
      some ({ t with phase := if raised then .over else .code (rounds + 1) }, some ⟨s.fullOutput, t.fullOutput⟩)
  else none

/-- Is the loop over the tool calls at its end? -/
def toolsOver (rounds : ℕ) (s : HandlerState) : Bool :=
  s.toolCalls.isEmpty || env.maxIterations.any fun n => n ≤ rounds

/-- `response_handler`; a raising first stream ends it. -/
def responseHandler : Machine HandlerState HandlerRound (Option StreamRound) where
  step s
    | .first r =>
      if s.phase = .first then
        let (t, raised) := streamBodyHandler env r s
        some ({ t with phase := if raised then .over else .tools 0 }, some ⟨s.fullOutput, t.fullOutput⟩)
      else none
    | .tools results response =>
      match s.phase with
      | .tools rounds => toolStep env results response rounds s
      | _ => none
    | .code result response =>
      match s.phase with
      | .tools rounds => if toolsOver env rounds s then codeStep env result response 0 s else none
      | .code rounds => codeStep env result response rounds s
      | _ => none

end

/-! ## What was there -/

/-- A list of items, but for an empty message at its end. -/
def withoutPlaceholder (items : List StreamItem) : List StreamItem := (dropPlaceholder items).getD items

/-- **What was there is still there**, in order and unchanged. -/
def StreamRound.Kept (r : StreamRound) : Prop := (withoutPlaceholder r.before).Sublist r.after

/-- The first stream finds no item in `output`, and the code interpreter has none. -/
def HandlerRound.Clear (s : HandlerState) : HandlerRound → Prop
  | .first _ => withoutPlaceholder s.output = []
  | .tools _ _ => True
  | .code _ response => response = none

/-- The round with another stream. -/
def HandlerRound.withResponse (response : Response) : HandlerRound → HandlerRound
  | .first _ => .first response
  | .tools results _ => .tools results (some response)
  | .code result _ => .code result (some response)

section
variable {items items' output : List StreamItem}

theorem dropPlaceholder_prefix (h : dropPlaceholder items = some items') : items' <+: items := by
  unfold dropPlaceholder at h
  split at h
  · obtain rfl := Option.some.inj h
    exact List.nil_prefix
  · obtain ⟨empty, -, hdrop⟩ := Option.map_eq_some_iff.1 h
    obtain rfl := hdrop
    split_ifs
    · exact List.dropLast_prefix items
    · exact List.prefix_refl items

theorem withoutPlaceholder_starts (items : List StreamItem) : withoutPlaceholder items <+: items := by
  rw [withoutPlaceholder]
  cases h : dropPlaceholder items with
  | none => exact List.prefix_refl items
  | some items' => exact dropPlaceholder_prefix h

theorem withoutPlaceholder_append (prior : List StreamItem) (h : output ≠ []) :
    withoutPlaceholder (prior ++ output) = prior ++ withoutPlaceholder output := by
  obtain ⟨front, last, rfl⟩ := List.eq_nil_or_concat output |>.resolve_left h
  rw [List.concat_eq_append]
  have hlast : ∀ l : List StreamItem, (l ++ [last]).getLast? = some last := fun l => List.getLast?_concat
  unfold withoutPlaceholder dropPlaceholder
  rw [← List.append_assoc, hlast, hlast]
  cases hempty : last.isPlaceholder? with
  | none => simp [hempty]
  | some empty => cases empty <;> simp [hempty]

theorem withoutPlaceholder_sublist {prior : List StreamItem} (h : withoutPlaceholder output = [])
    (after : List StreamItem) : (withoutPlaceholder (prior ++ output)).Sublist (prior ++ after) := by
  by_cases hempty : output = []
  · rw [hempty, List.append_nil]
    exact (withoutPlaceholder_starts prior).sublist.trans (List.sublist_append_left prior after)
  · rw [withoutPlaceholder_append prior hempty, h, List.append_nil]
    exact List.sublist_append_left prior after

end

section
variable (env : HandlerEnv) {s t : HandlerState} {r : Response} {x : StreamRound} {results : ℕ → CallResult}
  {rounds : ℕ} {i : HandlerRound}

theorem streamBodyHandler_prior (r : Response) (s : HandlerState) : (streamBodyHandler env r s).1.prior = s.prior := by
  unfold streamBodyHandler
  dsimp only
  split_ifs <;> rfl

theorem continueTools_kept (h : continueTools env r rounds s = (t, some x)) : x.Kept := by
  unfold continueTools at h
  cases hdrop : dropPlaceholder s.fullOutput with
  | none =>
    rw [hdrop] at h
    exact absurd (congrArg Prod.snd h) (by simp)
  | some prior =>
    rw [hdrop] at h
    have hprior := streamBodyHandler_prior env r { s with prior := prior, output := [] }
    obtain rfl := Option.some.inj (congrArg Prod.snd h)
    rw [StreamRound.Kept, withoutPlaceholder, hdrop, Option.getD_some]
    dsimp only
    split_ifs
    · rw [HandlerState.fullOutput]
      dsimp only
      rw [hprior]
      exact List.sublist_append_left _ _
    · rw [HandlerState.fullOutput]
      dsimp only
      rw [List.nil_append, hprior]
      exact List.sublist_append_left _ _

theorem toolStep_kept {response : Option Response} (h : toolStep env results response rounds s = some (t, some x)) :
    x.Kept := by
  unfold toolStep at h
  split at h
  · cases h
  split at h
  · cases h
  dsimp only at h
  split at h
  · cases h
  · cases h
  split at h
  · cases h
  cases response with
  | none => cases h
  | some r => exact continueTools_kept env (Option.some.inj h)

theorem codeStep_none {result : Json} (h : codeStep env result none rounds s = some (t, some x)) : False := by
  unfold codeStep at h
  dsimp only at h
  split_ifs at h
  cases h

/-- **A round that meets the condition keeps what was there.** -/
theorem responseHandler_kept (hclear : i.Clear s) (h : (responseHandler env).step s i = some (t, some x)) : x.Kept := by
  cases i with
  | first r =>
    simp only [responseHandler] at h
    split at h
    · obtain ⟨-, hx⟩ := Prod.mk.inj (Option.some.inj h)
      obtain rfl := Option.some.inj hx
      rw [StreamRound.Kept, HandlerState.fullOutput, HandlerState.fullOutput, streamBodyHandler_prior]
      exact withoutPlaceholder_sublist hclear _
    · cases h
  | tools results response =>
    simp only [responseHandler] at h
    split at h
    · exact toolStep_kept env h
    · cases h
  | code result response =>
    obtain rfl : response = none := hclear
    simp only [responseHandler] at h
    split at h
    · split_ifs at h
      exact (codeStep_none env h).elim
    · exact (codeStep_none env h).elim
    · cases h

end

/-! ## What is lost -/

/-- The end of a response, with its output. -/
def completion (items : List StreamItem) : StreamEvent :=
  { type := .lit "response.completed", fields := .empty, outputIndex := none, contentIndex := none,
    summaryIndex := none, item := none, part := .empty, response := .empty, finalOutput := items }

/-- A stream that ends with an output. -/
def completing (items : List StreamItem) : Response := ⟨[completion items], false, 0⟩

/-- An item of the web search. -/
def searchItem (id : String) : StreamItem :=
  { fields := (PyDict.put .empty "type" (.str (.lit "web_search_call"))).put "id" (.str (.lit id)), content := none,
    summary := none }

section
variable (env : HandlerEnv) {s t : HandlerState} {i : HandlerRound} {x : StreamRound}

theorem streamOutput_completion (output : List StreamItem) {items : List StreamItem} (h : items ≠ []) :
    streamOutput env.py output [completion items] = items.map completeReasoning := by
  have hitems : items.isEmpty = false := by simpa using h
  have htype : (completion items).type = .lit "response.completed" := rfl
  rw [streamOutput, List.foldl_cons, List.foldl_nil, streamStep, handleResponsesStreamingEvent,
    if_neg (by simp [htype]), if_neg (by simp [htype]), if_neg (by simp [htype]), if_neg (by rw [htype]; decide),
    if_neg (by simp [htype]), if_neg (by rw [htype]; decide), if_pos htype,
    show (completion items).finalOutput = items from rfl, hitems]
  rfl

theorem streamBodyHandler_completing (id : String) (s : HandlerState) :
    (streamBodyHandler env (completing [searchItem id]) s).1.fullOutput = s.prior ++ [searchItem id] := by
  have houtput : streamOutput env.py s.output (completing [searchItem id]).events = [searchItem id] :=
    streamOutput_completion env s.output (by simp)
  rw [HandlerState.fullOutput, streamBodyHandler_prior, streamBodyHandler, houtput]
  rfl

theorem exists_lost (prior : List StreamItem) {output : List StreamItem} (h : withoutPlaceholder output ≠ []) :
    ∃ id, ¬(withoutPlaceholder (prior ++ output)).Sublist (prior ++ [searchItem id]) := by
  have hempty : output ≠ [] := by
    rintro rfl
    exact h rfl
  by_contra hall
  rw [not_exists] at hall
  simp only [not_not, withoutPlaceholder_append prior hempty] at hall
  -- one item at most is left, and it cannot be two different ones
  have heq : ∀ id, withoutPlaceholder output = [searchItem id] := by
    intro id
    have hsub := hall id
    have hlength := hsub.length_le
    rw [List.length_append, List.length_append, List.length_singleton] at hlength
    have hpos := List.length_pos_iff.2 h
    refine List.append_cancel_left (hsub.eq_of_length ?_)
    rw [List.length_append, List.length_append, List.length_singleton]
    omega
  have hsearch : searchItem "a" = searchItem "b" := (List.cons.inj ((heq "a").symm.trans (heq "b"))).1
  exact absurd (congrArg (fun item => (item.fields.fetch "id").eqStr (.lit "a")) hsearch) (by decide)

theorem messageItem_isPlaceholder (id : Text) : (messageItem id []).isPlaceholder? = some true := rfl

theorem withoutPlaceholder_messageItem (items : List StreamItem) (id : Text) :
    withoutPlaceholder (items ++ [messageItem id []]) = items := by
  rw [withoutPlaceholder, dropPlaceholder, List.getLast?_concat]
  simp [messageItem_isPlaceholder]

theorem withoutPlaceholder_codeItems {result : Json} {output : List StreamItem} (h : output ≠ []) :
    withoutPlaceholder (codeItems env result output) ≠ [] := by
  rw [codeItems, withoutPlaceholder_messageItem]
  intro hnil
  exact h (List.modify_eq_nil_iff.1 hnil)

/-- **A round that does not meet the condition can lose something**, with another stream. -/
theorem responseHandler_lost (hclear : ¬i.Clear s) (h : (responseHandler env).step s i = some (t, some x)) :
    ∃ response t' x', (responseHandler env).step s (i.withResponse response) = some (t', some x') ∧ ¬x'.Kept := by
  have hcode : ∀ {result : Json} {response : Option Response} {rounds : ℕ},
      codeStep env result response rounds s = some (t, some x) →
      ∃ response t' x', codeStep env result (some response) rounds s = some (t', some x') ∧ ¬x'.Kept := by
    intro result response rounds h
    unfold codeStep at h
    dsimp only at h
    split at h
    · next hrun =>
      have hne : s.output ≠ [] := by
        intro hnil
        simp [hnil] at hrun
      obtain ⟨id, hlost⟩ := exists_lost s.prior (withoutPlaceholder_codeItems env hne)
      refine ⟨completing [searchItem id], _, _, by rw [codeStep, if_pos hrun], ?_⟩
      rw [StreamRound.Kept, streamBodyHandler_completing]
      exact hlost
    · cases h
  cases i with
  | first r =>
    obtain ⟨id, hlost⟩ := exists_lost s.prior hclear
    simp only [responseHandler] at h ⊢
    split at h
    · next hphase =>
      refine ⟨completing [searchItem id], _, _, by simp only [HandlerRound.withResponse]; rw [if_pos hphase], ?_⟩
      rw [StreamRound.Kept, streamBodyHandler_completing]
      exact hlost
    · cases h
  | tools results response => exact absurd trivial hclear
  | code result response =>
    simp only [responseHandler, HandlerRound.withResponse] at h ⊢
    split at h
    · split at h
      · next hover =>
        simp only [if_pos hover]
        exact hcode h
      · cases h
    · exact hcode h
    · cases h

end

/-! ## Runs -/

/-- **Streams that start on an empty output keep what was there**, in every run; any other can lose it. -/
theorem responseHandler_keeps (env : HandlerEnv) :
    (∀ s tr t, (responseHandler env).RunIn (fun s i => i.Clear s) s tr t → ∀ e ∈ tr, ∀ x ∈ e.2, x.Kept) ∧
      ∀ s i t x, (responseHandler env).step s i = some (t, some x) → ¬i.Clear s →
        ∃ response t' x', (responseHandler env).step s (i.withResponse response) = some (t', some x') ∧ ¬x'.Kept := by
  constructor
  · intro s tr t h
    refine (h.safety (I := fun _ => True) (P := fun e => ∀ x ∈ e.2, x.Kept) ?_ trivial).2
    rintro s i t o hclear - hstep
    refine ⟨trivial, ?_⟩
    rintro x hx
    obtain rfl : o = some x := hx
    exact responseHandler_kept env hclear hstep
  · exact fun s i t x hstep hclear => responseHandler_lost env hclear hstep

/-- An item of the code interpreter. -/
def codeItem : StreamItem :=
  { fields := (PyDict.put .empty "type" (.str (.lit "open_webui:code_interpreter"))).put "id" (.str (.lit "ci")),
    content := none, summary := none }

/-- **The stream after the code interpreter can take the place of what was there.** -/
theorem not_responseHandler_keeps :
    ¬∀ (env : HandlerEnv) existing assistantMessageId content s,
      initialState env existing assistantMessageId content = some s →
      ∀ tr t, (responseHandler env).Run s tr t → ∀ e ∈ tr, ∀ x ∈ e.2, x.Kept := by
  intro h
  let env : HandlerEnv :=
    { py := fun _ => [], outputId := fun kind _ => .lit kind, split := id, askUser := fun _ _ => none,
      approval := false, maxIterations := none, detectCodeInterpreter := true }
  have hrun : (responseHandler env).Run ⟨[], [], [], .first⟩
      ([] ++ [(.first (completing [searchItem "a", codeItem]), _)] ++
        [(.code .null (some (completing [searchItem "b"])), _)]) _ :=
    .snoc (.snoc .nil trivial rfl) trivial rfl
  have hkept := h env [] false [] ⟨[], [], [], .first⟩ rfl _ _ hrun _
    (List.mem_append_right _ (List.mem_singleton_self _)) _ rfl
  exact absurd hkept.length_le (by decide)

end TideBot
