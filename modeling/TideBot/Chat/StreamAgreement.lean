/-
  A message that is streamed, and the same message as a whole.

  A stream carries a message if its content comes first, then the deltas of the tool calls, then the finish reason
  (`StreamCarries`); a response carries it in its first choice (`ResponseCarries`).  The message of the events has the
  text and the stop reason of the converted response.

  It has the same tool calls iff the names come in the order of the tool calls and what comes of the arguments before
  a name is no more than white space (`stream_agrees_iff`): a piece that comes before the name is kept, but is not
  emitted when the block starts.
-/
import TideBot.Chat.AnthropicResponse
import TideBot.Chat.ToolTracking

namespace TideBot

open Lib

/-! ## Messages -/

/-- A message of text and tool calls; the tool calls have ids, names and JSON objects as arguments. -/
structure CarriedMessage (F : Json.FloatText) (stack : ℕ) where
  text : Text
  calls : List CarriedCall
  finishReason : Text
  distinct : (calls.map CarriedCall.id).Nodup
  nonempty : ∀ c ∈ calls, c.id ≠ [] ∧ c.name ≠ []
  objects : ∀ c ∈ calls, Json.IsObject F stack c.arguments

/-- What an item brings of a message. -/
inductive CarriedPart where
  | text (piece : Text)
  | call (delta : CallDelta)
  | finish (reason : Text)

/-- An item brings a part; the indices of the tool calls are given. -/
def IsPart (index : CarriedCall → Json) : ChunkItem → CarriedPart → Prop
  | .content content, .text piece => content = .str piece
  | .toolCall toolCall, .call d => ∃ i id name arguments,
    AnthropicStream.toolCallFields toolCall = some (i, id, name, arguments) ∧ DeltaFields index d i id name arguments
  | .finish finishReason, .finish reason => finishReason = .str reason
  | _, _ => False

/-- The deltas of one tool call. -/
def deltasOf (c : CarriedCall) (ds : List CallDelta) : List CallDelta := ds.filter fun d => d.call = c

/-- The tool calls, in the order of their names. -/
def namedCalls (ds : List CallDelta) : List CarriedCall := (ds.filter CallDelta.named).map CallDelta.call

section
variable {F : Json.FloatText} {stack : ℕ}

/-- **The stream carries the message**: first content, then deltas of the tool calls, each under the index of its call,
    then the finish reason.  The numbers of a usage can be written. -/
structure StreamCarries (m : CarriedMessage F stack) (inputTokens : Option ℤ) (chunks : List (Option Text))
    (ds : List CallDelta) : Prop where
  items : ∃ (items : List ChunkItem) (pieces : List Text) (index : CarriedCall → Json),
    streamItems (Json.loadsText F stack) chunks = some items ∧
    List.Forall₂ (IsPart index) (items.filter ChunkItem.relevant)
      (pieces.map CarriedPart.text ++ ds.map CarriedPart.call ++ [.finish m.finishReason]) ∧
    pieces.flatten = m.text ∧ (∀ c ∈ m.calls, ∀ c' ∈ m.calls, index c = index c' → c = c') ∧
    ∀ read, ChunkItem.usage read ∈ items → read.toJson.writable
  mem : ∀ d ∈ ds, d.call ∈ m.calls
  carried : ∀ c ∈ m.calls, Carried c (deltasOf c ds)
  inputTokens : ∀ n, inputTokens = some n → (Json.int n).writable

/-- A tool call of a response. -/
def IsToolCall (c : CarriedCall) (toolCall : Json) : Prop :=
  ∃ function, toolCall.field (.lit "id") = some (.str c.id) ∧ toolCall.field (.lit "function") = some function ∧
    function.field (.lit "name") = some (.str c.name) ∧ function.field (.lit "arguments") = some (.str c.arguments)

/-- **The response carries the message** in its first choice, perhaps with reasoning; its usage can be read. -/
def ResponseCarries (m : CarriedMessage F stack) (inputTokens : Option ℤ) (openaiResponse : Json) : Prop :=
  ∃ choice message toolCalls, AnthropicResponse.firstChoice openaiResponse = some choice ∧
    choice.itemD "message" (.obj []) = some message ∧
    choice.itemD "finish_reason" (.str (.lit "stop")) = some (.str m.finishReason) ∧
    (message.get (.lit "content") = .str m.text ∨ m.text = [] ∧ (message.get (.lit "content")).truthy = false) ∧
    (message.item "tool_calls").map (Json.or · (.arr [])) = some (.arr toolCalls) ∧
    List.Forall₂ IsToolCall m.calls toolCalls ∧ (AnthropicResponse.reasoningBlocks message).isSome ∧
    (AnthropicResponse.responseUsage openaiResponse inputTokens).isSome

end

/-! ## The message of a response -/

namespace AnthropicResponse

/-- The text of a block. -/
def blockText : ResponseBlock → Text
  | .text (.str text) => text
  | _ => []

/-- The id, the name and the input of a tool call. -/
def blockTool : ResponseBlock → Option (Json × Json × Json)
  | .toolUse id name input => some (id, name, input)
  | _ => none

/-- The texts of the message, one behind the other. -/
def text (r : AnthropicResponse) : Text := r.content.flatMap blockText

/-- The tool calls of the message. -/
def toolUses (r : AnthropicResponse) : List (Json × Json × Json) := r.content.filterMap blockTool

end AnthropicResponse

/-- The id, the name and the input of an assembled tool call, if its parts can be read. -/
def AssembledTool.toolUse (loads : Text → Except Json.LoadError Json) (tool : AssembledTool) :
    Json × Json × Option Json :=
  (tool.id, tool.name, assembledInput loads tool.parts)

/-- **The same message**: text, tool calls in the same order, stop reason. -/
structure AssembledMessage.Agrees (loads : Text → Except Json.LoadError Json) (a : AssembledMessage)
    (r : AnthropicResponse) : Prop where
  text : a.text = r.text
  tools : a.tools.map (AssembledTool.toolUse loads) = r.toolUses.map fun t => (t.1, t.2.1, some t.2.2)
  stopReason : a.stopReason = some r.stopReason

/-! ## The stream -/

namespace Received

/-- Nothing has been received. -/
def none : Received := ⟨[], fun _ => .none, [], .lit "end_turn"⟩

/-- A part is received. -/
def add (isJson : Text → Bool) (R : Received) : CarriedPart → Received
  | .text piece => { R with text := R.text ++ piece }
  | .call d => R.call isJson d
  | .finish reason => { R with stopReason := AnthropicStream.stopReasonOf (.str reason) }

/-- What may come next: text before the tool calls, and deltas of a tool call of which the first has the id and one has
    the name. -/
def Admits (loads : Text → Except Json.LoadError Json) (calls : List CarriedCall) (R : Received) : CarriedPart → Prop
  | .text _ => R.named = []
  | .call d => d.call ∈ calls ∧ (R.runs d.call = .none → d.identified) ∧
    (d.named → (R.runOf d.call).named = false) ∧
    loads ((R.runOf d.call).arguments ++ d.piece) ≠ .error .recursionError
  | .finish _ => True

/-- What may come next, one after the other. -/
def AdmitsAll (loads : Text → Except Json.LoadError Json) (calls : List CarriedCall) :
    Received → List CarriedPart → Prop
  | _, [] => True
  | R, part :: parts => R.Admits loads calls part ∧ AdmitsAll loads calls (R.add (isJson loads) part) parts

end Received

section
variable {loads : Text → Except Json.LoadError Json} {calls : List CarriedCall} {index : CarriedCall → Json}
  {R : Received} {s : AnthropicStream}

theorem admitsAll_append {ps qs : List CarriedPart} : R.AdmitsAll loads calls (ps ++ qs) ↔
    R.AdmitsAll loads calls ps ∧ (ps.foldl (Received.add (isJson loads)) R).AdmitsAll loads calls qs := by
  induction ps generalizing R with
  | nil => exact (and_iff_right trivial).symm
  | cons p ps ih => rw [List.cons_append, Received.AdmitsAll, Received.AdmitsAll, ih, List.foldl_cons, and_assoc]

namespace AnthropicStream

theorem Tracks.part (h : s.Tracks calls index R) (hapart : CallsApart calls index) (draw : List Json → Text)
    {item : ChunkItem} {part : CarriedPart} (hitem : IsPart index item part) (hrelevant : item.relevant)
    (hadmits : R.Admits loads calls part) :
    ∃ s', runItem loads draw item s = .goesOn s' ∧ s'.Tracks calls index (R.add (isJson loads) part) := by
  cases item <;> cases part <;> try exact hitem.elim
  · obtain rfl := hitem
    refine ⟨_, rfl, h.content ?_ hadmits⟩
    rintro rfl
    cases hrelevant
  · obtain ⟨i, id, name, arguments, hfields, hd⟩ := hitem
    obtain ⟨hc, hfirst, hfresh, hdeep⟩ := hadmits
    exact h.call hapart draw hfields hd hc hfirst hfresh hdeep
  · obtain rfl := hitem
    exact ⟨_, rfl, h.finish _⟩

theorem Tracks.skip (h : s.Tracks calls index R) (loads : Text → Except Json.LoadError Json)
    (draw : List Json → Text) {item : ChunkItem} (hrelevant : item.relevant = false)
    (husage : ∀ read, item = .usage read → read.toJson.writable) :
    ∃ s', runItem loads draw item s = .goesOn s' ∧ s'.Tracks calls index R := by
  cases item with
  | usage read => exact ⟨_, rfl, h.usage (husage read rfl)⟩
  | reasoning reasoningContent => exact ⟨_, rfl, h.beside (.handleReasoning s reasoningContent)⟩
  | content content =>
    refine ⟨s, ?_, h⟩
    rw [ChunkItem.relevant] at hrelevant
    rw [runItem, handleContent, hrelevant, Bool.false_and, if_neg Bool.false_ne_true]
  | closing => exact ⟨_, rfl, h.beside ((Beside.closeThinking s).trans (.closeText _))⟩
  | toolCall toolCall => cases hrelevant
  | finish finishReason =>
    refine ⟨s, ?_, h⟩
    have hnone : finishReason.isNone = true := by simpa [ChunkItem.relevant] using hrelevant
    rw [runItem, handleFinish, if_pos hnone]

/-- **The items of a stream**, one after the other. -/
theorem Tracks.items (h : s.Tracks calls index R) (hapart : CallsApart calls index) (draw : List Json → Text)
    {items : List ChunkItem} {parts : List CarriedPart}
    (hparts : List.Forall₂ (IsPart index) (items.filter ChunkItem.relevant) parts)
    (hadmits : R.AdmitsAll loads calls parts) (husage : ∀ read, ChunkItem.usage read ∈ items → read.toJson.writable) :
    ∃ s', forEach (runItem loads draw) items s = .goesOn s' ∧
      s'.Tracks calls index (parts.foldl (Received.add (isJson loads)) R) := by
  induction items generalizing s R parts with
  | nil =>
    cases hparts
    exact ⟨s, rfl, h⟩
  | cons item items ih =>
    have hrest := fun read hread => husage read (List.mem_cons_of_mem _ hread)
    rw [forEach]
    cases hrelevant : item.relevant with
    | true =>
      rw [List.filter_cons_of_pos hrelevant] at hparts
      obtain _ | ⟨hitem, hparts⟩ := hparts
      obtain ⟨s₁, hrun, h₁⟩ := h.part hapart draw hitem hrelevant hadmits.1
      rw [hrun, List.foldl_cons]
      exact ih h₁ hparts hadmits.2 hrest
    | false =>
      rw [List.filter_cons_of_neg (by rw [hrelevant]; exact Bool.false_ne_true)] at hparts
      obtain ⟨s₁, hrun, h₁⟩ := h.skip loads draw hrelevant
        fun read hread => husage read (hread ▸ List.mem_cons_self)
      rw [hrun]
      exact ih h₁ hparts hadmits hrest

end AnthropicStream

end

/-! ## What has been received -/

/-- The text and the deltas that have been received. -/
structure Received.Holds (isJson : Text → Bool) (R : Received) (text : Text) (ds : List CallDelta) : Prop where
  text : R.text = text
  isSome : ∀ c, (R.runs c).isSome ↔ deltasOf c ds ≠ []
  runOf : ∀ c, R.runOf c = CallRun.run isJson (deltasOf c ds)
  named : R.named = namedCalls ds

/-- The deltas are the beginning of those of a message. -/
structure Begun (F : Json.FloatText) (stack : ℕ) (calls : List CarriedCall) (ds : List CallDelta) : Prop where
  mem : ∀ d ∈ ds, d.call ∈ calls
  first : ∀ c ∈ calls, ∀ d later, deltasOf c ds = d :: later → d.identified
  once : ∀ c ∈ calls, (deltasOf c ds).countP CallDelta.named ≤ 1
  object : ∀ c ∈ calls, ∃ rest, Json.IsObject F stack (piecesOf (deltasOf c ds) ++ rest)

section
variable {F : Json.FloatText} {stack : ℕ} {calls : List CarriedCall} {isJson : Text → Bool} {R : Received} {text : Text}
  {ds : List CallDelta} {d : CallDelta} {c : CarriedCall}

theorem deltasOf_snoc (c : CarriedCall) (ds : List CallDelta) (d : CallDelta) :
    deltasOf c (ds ++ [d]) = if d.call = c then deltasOf c ds ++ [d] else deltasOf c ds := by
  unfold deltasOf
  rw [List.filter_append, List.filter_singleton]
  by_cases heq : d.call = c
  · simp [heq]
  · simp [heq]

theorem Begun.init (h : Begun F stack calls (ds ++ [d])) : Begun F stack calls ds where
  mem d' hd' := h.mem d' (List.mem_append_left _ hd')
  first c hc d' later hlater := by
    have hsnoc := deltasOf_snoc c ds d
    rw [hlater] at hsnoc
    split_ifs at hsnoc
    · exact h.first c hc d' (later ++ [d]) hsnoc
    · exact h.first c hc d' later hsnoc
  once c hc := by
    have hle := h.once c hc
    rw [deltasOf_snoc] at hle
    split_ifs at hle
    · rw [List.countP_append] at hle
      omega
    · exact hle
  object c hc := by
    obtain ⟨rest, hobject⟩ := h.object c hc
    rw [deltasOf_snoc] at hobject
    split_ifs at hobject
    · rw [piecesOf_append, List.append_assoc] at hobject
      exact ⟨_, hobject⟩
    · exact ⟨rest, hobject⟩

theorem Begun.fresh (h : Begun F stack calls (ds ++ [d])) (hnamed : d.named) :
    (deltasOf d.call ds).any CallDelta.named = false := by
  have hle := h.once d.call (h.mem d (by simp))
  rw [deltasOf_snoc, if_pos rfl, List.countP_append, List.countP_singleton, if_pos hnamed] at hle
  have hzero : (deltasOf d.call ds).countP CallDelta.named = 0 := by omega
  rw [List.any_eq_false]
  exact List.countP_eq_zero.1 hzero

namespace Received

theorem Holds.call (h : R.Holds isJson text ds) (hfresh : d.named → (deltasOf d.call ds).any CallDelta.named = false) :
    (R.call isJson d).Holds isJson text (ds ++ [d]) where
  text := by
    rw [text_call, h.text]
  isSome c := by
    rw [isSome_call, h.isSome, deltasOf_snoc]
    split_ifs with heq
    · simp [heq]
    · rw [or_iff_right (Ne.symm heq)]
  runOf c := by
    rw [runOf_call, deltasOf_snoc]
    by_cases heq : c = d.call
    · rw [if_pos heq, if_pos heq.symm, CallRun.run_snoc, h.runOf, heq]
    · rw [if_neg heq, if_neg (Ne.symm heq), h.runOf]
  named := by
    obtain ⟨hnamed, hstarted⟩ := CallRun.run_named isJson (deltasOf d.call ds)
    rw [named_call, h.runOf, hnamed, hstarted, h.named, namedCalls, namedCalls, List.filter_append,
      List.filter_singleton]
    by_cases hd : d.named
    · rw [hfresh hd]
      simp [hd]
    · rw [Bool.not_eq_true] at hd
      simp [hd]

/-- **The deltas of a message** are received. -/
theorem Holds.deltas (h : R.Holds isJson text []) (hbegun : Begun F stack calls ds) :
    ((ds.map CarriedPart.call).foldl (Received.add isJson) R).Holds isJson text ds := by
  induction ds using List.reverseRecOn with
  | nil => exact h
  | append_singleton ds d ih =>
    rw [List.map_append, List.foldl_append]
    exact (ih hbegun.init).call hbegun.fresh

theorem Holds.admits (h : R.Holds (TideBot.isJson (Json.loadsText F stack)) text ds)
    (hbegun : Begun F stack calls (ds ++ [d])) : R.Admits (Json.loadsText F stack) calls (.call d) := by
  have hc := hbegun.mem d (by simp)
  refine ⟨hc, ?_, ?_, ?_⟩
  · intro hnone
    have hnil : deltasOf d.call ds = [] := by
      by_contra hne
      have hsome := (h.isSome d.call).2 hne
      rw [hnone] at hsome
      cases hsome
    refine hbegun.first d.call hc d [] ?_
    rw [deltasOf_snoc, if_pos rfl, hnil, List.nil_append]
  · intro hnamed
    rw [h.runOf, (CallRun.run_named _ _).1]
    exact hbegun.fresh hnamed
  · rw [h.runOf, CallRun.run_arguments]
    obtain ⟨rest, hobject⟩ := hbegun.object d.call hc
    rw [deltasOf_snoc, if_pos rfl, piecesOf_append] at hobject
    have hdeep := Json.not_recursionError_prefix hobject
    simpa [piecesOf] using hdeep

theorem Holds.admitsAll (h : R.Holds (TideBot.isJson (Json.loadsText F stack)) text [])
    (hbegun : Begun F stack calls ds) : R.AdmitsAll (Json.loadsText F stack) calls (ds.map CarriedPart.call) := by
  induction ds using List.reverseRecOn with
  | nil => trivial
  | append_singleton ds d ih =>
    rw [List.map_append, admitsAll_append]
    exact ⟨ih hbegun.init, (h.deltas hbegun.init).admits hbegun, trivial⟩

theorem Holds.texts (h : R.Holds isJson text []) (pieces : List Text) :
    ((pieces.map CarriedPart.text).foldl (Received.add isJson) R).Holds isJson (text ++ pieces.flatten) [] := by
  induction pieces generalizing R text with
  | nil => rwa [List.flatten_nil, List.append_nil]
  | cons piece pieces ih =>
    rw [List.flatten_cons, ← List.append_assoc]
    refine ih ⟨?_, h.isSome, h.runOf, h.named⟩
    rw [← h.text]
    rfl

theorem admitsAll_texts {loads : Text → Except Json.LoadError Json} (h : R.named = []) (pieces : List Text) :
    R.AdmitsAll loads calls (pieces.map CarriedPart.text) := by
  induction pieces generalizing R with
  | nil => trivial
  | cons piece pieces ih => exact ⟨h, ih h⟩

end Received

end

/-! ## The two messages -/

section
variable {F : Json.FloatText} {stack : ℕ} {m : CarriedMessage F stack} {inputTokens : Option ℤ}
  {chunks : List (Option Text)} {ds : List CallDelta} {openaiResponse : Json}

theorem StreamCarries.begun (h : StreamCarries m inputTokens chunks ds) : Begun F stack m.calls ds where
  mem := h.mem
  first c hc d later hlater := by
    obtain ⟨d', later', heq, hidentified, -⟩ := (h.carried c hc).identified
    rw [hlater] at heq
    cases heq
    exact hidentified
  once c hc := (h.carried c hc).named.le
  object c hc := by
    refine ⟨[], ?_⟩
    rw [List.append_nil, (h.carried c hc).arguments]
    exact m.objects c hc

/-- **The message of the events**: the text, the tool calls in the order of their names, and what has been emitted of
    their arguments. -/
theorem StreamCarries.assembled (h : StreamCarries m inputTokens chunks ds) (draw : List Json → Text)
    (messageId model : Text) : ∃ block : CarriedCall → ℤ,
    assemble (openaiStreamToAnthropicStream (Json.loadsText F stack) draw messageId model inputTokens chunks) =
      ⟨m.text, (namedCalls ds).map fun c => ⟨block c, .str c.id, .str c.name,
        (CallRun.run (isJson (Json.loadsText F stack)) (deltasOf c ds)).parts⟩,
        some (AnthropicStream.stopReasonOf (.str m.finishReason))⟩ := by
  obtain ⟨items, pieces, index, hitems, hparts, htext, hindex, husage⟩ := h.items
  have hapart : CallsApart m.calls index := by
    refine ⟨fun c hc c' hc' => ?_, hindex, m.nonempty⟩
    exact List.inj_on_of_nodup_map m.distinct hc hc'
  have hstart : (AnthropicStream.start messageId model inputTokens).Tracks m.calls index .none := by
    have hready := AnthropicStream.Ready.start messageId model h.inputTokens
    refine ⟨⟨?_, ?_, ?_⟩, rfl, rfl, ?_, ?_, fun _ _ _ => rfl, ?_, ?_, rfl, hready.1.writable⟩
    · rintro c - r ⟨⟩
    · rintro c - ⟨⟩
    · rintro key t ⟨⟩
    · rintro c ⟨⟩
    · rintro c -
      exact ⟨fun hno => Bool.noConfusion hno, fun hno => absurd hno List.not_mem_nil⟩
    · rintro c ⟨⟩
    · rintro c ⟨⟩
  have hholds : Received.none.Holds (isJson (Json.loadsText F stack)) [] [] :=
    ⟨rfl, fun c => by simp [Received.none, deltasOf], fun _ => rfl, rfl⟩
  have hadmits : Received.none.AdmitsAll (Json.loadsText F stack) m.calls
      (pieces.map CarriedPart.text ++ ds.map CarriedPart.call ++ [.finish m.finishReason]) := by
    rw [admitsAll_append, admitsAll_append]
    exact ⟨⟨Received.admitsAll_texts rfl pieces, (hholds.texts pieces).admitsAll h.begun⟩, trivial, trivial⟩
  obtain ⟨s, hrun, htracks⟩ := hstart.items hapart draw hparts hadmits husage
  have hdone := (hholds.texts pieces).deltas h.begun
  rw [List.foldl_append, List.foldl_append] at htracks
  generalize (ds.map CarriedPart.call).foldl _ _ = R at hdone htracks
  have hstarted : ∀ key t, s.trackedToolCalls.get key = some t → t.started := by
    intro key t ht
    obtain ⟨c, hc, rfl, hsome⟩ := htracks.table.only key t ht
    obtain ⟨r, hr⟩ := Option.isSome_iff_exists.1 hsome
    obtain ⟨t', ht', hmirrors⟩ := htracks.table.known c hc r hr
    have hrun : r = CallRun.run (isJson (Json.loadsText F stack)) (deltasOf c ds) := by
      rw [← hdone.runOf c, Received.runOf]
      exact (congrArg (fun o : Option CallRun => o.getD .new) hr).symm
    have hany : (deltasOf c ds).any CallDelta.named = true := by
      rw [List.any_eq_true]
      exact List.countP_pos_iff.1 (by rw [(h.carried c hc).named]; exact one_pos)
    rw [ht] at ht'
    cases ht'
    rw [hmirrors.started, hrun, (CallRun.run_named _ _).2, hany]
  have hclosed := htracks.beside (.closeBlocks hstarted)
  refine ⟨s.closeBlocks.blockOf, ?_⟩
  rw [openaiStreamToAnthropicStream, forEach_streamItems hitems, hrun]
  show assemble (s.closeBlocks.events ++ s.closeBlocks.lastEvents) = _
  rw [AnthropicStream.lastEvents, if_pos hclosed.writable, List.append_cons, assemble_snoc, assemble_snoc,
    hclosed.assembled, hclosed.stopReason]
  show AssembledMessage.mk R.text (R.named.map fun c => ⟨s.closeBlocks.blockOf c, .str c.id, .str c.name,
    (R.runOf c).parts⟩) (some (AnthropicStream.stopReasonOf (.str m.finishReason))) = _
  rw [hdone.text, hdone.named, List.nil_append, htext]
  simp only [hdone.runOf]

theorem itemD_of_field {j default value : Json} {key : String} (h : j.field (.lit key) = some value) :
    j.itemD key default = some value := by
  cases j with
  | obj fields =>
    rw [Json.itemD, h]
    rfl
  | null | bool | int | float | str | arr => cases h

theorem IsToolCall.toolBlock {c : CarriedCall} {toolCall : Json} (h : IsToolCall c toolCall)
    (hobject : Json.IsObject F stack c.arguments) (drawnId : Text) :
    ∃ input, Json.loadsText F stack c.arguments = .ok input ∧
      AnthropicResponse.toolBlock (Json.loadsText F stack) drawnId toolCall =
        some (.toolUse (.str c.id) (.str c.name) input) := by
  obtain ⟨function, hid, hfunction, hname, harguments⟩ := h
  obtain ⟨fields, hloads⟩ := hobject
  refine ⟨.obj fields, hloads, ?_⟩
  have hinput : AnthropicResponse.toolInput (Json.loadsText F stack) (.str c.arguments) = some (.obj fields) := by
    rw [AnthropicResponse.toolInput]
    simp only [hloads]
  unfold AnthropicResponse.toolBlock
  simp only [itemD_of_field hfunction, itemD_of_field harguments, itemD_of_field hid, itemD_of_field hname, hinput,
    Option.bind_eq_bind, Option.bind_some, Option.pure_def]

theorem toolBlocks_of_forall₂ {calls : List CarriedCall} {toolCalls : List Json}
    (h : List.Forall₂ IsToolCall calls toolCalls) (hobjects : ∀ c ∈ calls, Json.IsObject F stack c.arguments)
    (drawnIds : ℕ → Text) (k : ℕ) : ∃ blocks,
    (toolCalls.zipIdx k).mapM (fun call =>
        AnthropicResponse.toolBlock (Json.loadsText F stack) (drawnIds call.2) call.1) = some blocks ∧
      blocks.flatMap AnthropicResponse.blockText = [] ∧
      (blocks.filterMap AnthropicResponse.blockTool).map (fun t => (t.1, t.2.1, some t.2.2)) =
        calls.map fun c => (Json.str c.id, Json.str c.name, (Json.loadsText F stack c.arguments).toOption) := by
  induction h generalizing k with
  | nil => exact ⟨[], rfl, rfl, rfl⟩
  | @cons c toolCall calls toolCalls hcall _ ih =>
    rw [List.forall_mem_cons] at hobjects
    obtain ⟨input, hloads, hblock⟩ := hcall.toolBlock hobjects.1 (drawnIds k)
    obtain ⟨blocks, hblocks, htexts, htools⟩ := ih hobjects.2 (k + 1)
    refine ⟨.toolUse (.str c.id) (.str c.name) input :: blocks, ?_, htexts, ?_⟩
    · rw [List.zipIdx_cons, List.mapM_cons, hblock, hblocks]
      rfl
    · rw [List.map_cons, hloads, ← htools]
      rfl

theorem reasoningBlocks_other {message : Json} {blocks : List ResponseBlock}
    (h : AnthropicResponse.reasoningBlocks message = some blocks) :
    blocks.flatMap AnthropicResponse.blockText = [] ∧ blocks.filterMap AnthropicResponse.blockTool = [] := by
  have hall : ∀ b ∈ blocks, AnthropicResponse.blockText b = [] ∧ AnthropicResponse.blockTool b = none := by
    obtain ⟨thinking, -, rfl⟩ := Option.map_eq_some_iff.1 h
    intro b hb
    dsimp only at hb
    split_ifs at hb
    · rw [List.mem_singleton.1 hb]
      exact ⟨rfl, rfl⟩
    · obtain ⟨block, -, hblock⟩ := List.mem_filterMap.1 hb
      unfold AnthropicResponse.thinkingBlock at hblock
      split at hblock
      · dsimp only at hblock
        split_ifs at hblock <;> cases hblock <;> exact ⟨rfl, rfl⟩
      · cases hblock
  exact ⟨List.flatMap_eq_nil_iff.2 fun b hb => (hall b hb).1, List.filterMap_eq_nil_iff.2 fun b hb => (hall b hb).2⟩

/-- **The converted response**: the text, the tool calls and the stop reason of the message. -/
theorem ResponseCarries.convert (h : ResponseCarries m inputTokens openaiResponse) (messageId model : Text)
    (drawnIds : ℕ → Text) : ∃ r,
    convertOpenaiToAnthropicResponse (Json.loadsText F stack) messageId drawnIds openaiResponse model inputTokens =
        some r ∧
      r.text = m.text ∧ r.stopReason = AnthropicStream.stopReasonOf (.str m.finishReason) ∧
      r.toolUses.map (fun t => (t.1, t.2.1, some t.2.2)) =
        m.calls.map fun c => (Json.str c.id, Json.str c.name, (Json.loadsText F stack c.arguments).toOption) := by
  obtain ⟨choice, message, toolCalls, hchoice, hmessage, hfinish, htext, htools, hcalls, hreasoning, husage⟩ := h
  obtain ⟨reasoning, hreasoning⟩ := Option.isSome_iff_exists.1 hreasoning
  obtain ⟨usage, husage⟩ := Option.isSome_iff_exists.1 husage
  obtain ⟨hnotext, hnotool⟩ := reasoningBlocks_other hreasoning
  obtain ⟨blocks, hblocks, hblockText, hblockTool⟩ := toolBlocks_of_forall₂ hcalls m.objects drawnIds 0
  have hstop : AnthropicResponse.stopReasonFor (.str m.finishReason) =
      some (AnthropicStream.stopReasonOf (.str m.finishReason)) := by
    unfold AnthropicResponse.stopReasonFor AnthropicStream.stopReasonOf
    split_ifs with hkey <;> first | rfl | cases hkey
  have htoolBlocks : AnthropicResponse.toolBlocks (Json.loadsText F stack) drawnIds message = some blocks := by
    obtain ⟨value, hvalue, harr⟩ := Option.map_eq_some_iff.1 htools
    unfold AnthropicResponse.toolBlocks
    rw [hvalue, Option.bind_eq_bind, Option.bind_some, harr]
    exact hblocks
  have htextBlocks : (AnthropicResponse.textBlocks message).flatMap AnthropicResponse.blockText = m.text ∧
      (AnthropicResponse.textBlocks message).filterMap AnthropicResponse.blockTool = [] := by
    unfold AnthropicResponse.textBlocks
    obtain htext | ⟨hnil, hfalsy⟩ := htext
    · rw [htext]
      split_ifs with htruthy
      · exact ⟨List.append_nil _, rfl⟩
      · have hnil : m.text = [] := by simpa [Json.truthy] using htruthy
        rw [hnil]
        exact ⟨rfl, rfl⟩
    · rw [hfalsy, hnil]
      exact ⟨rfl, rfl⟩
  cases openaiResponse with
  | obj fields =>
    have hid : ∃ id, (Json.obj fields).itemD "id" (.str messageId) = some id := ⟨_, rfl⟩
    have hmodel : ∃ name, (Json.obj fields).itemD "model" (.str []) = some name := ⟨_, rfl⟩
    obtain ⟨id, hid⟩ := hid
    obtain ⟨name, hmodel⟩ := hmodel
    refine ⟨⟨id, .lit "message", .lit "assistant", reasoning ++ AnthropicResponse.textBlocks message ++ blocks,
      if model = [] then name else .str model, AnthropicStream.stopReasonOf (.str m.finishReason), .null, usage⟩,
      ?_, ?_, rfl, ?_⟩
    · simp only [convertOpenaiToAnthropicResponse, hchoice, hmessage, hfinish, hstop, hreasoning, htoolBlocks, husage,
        hid, hmodel, Option.bind_eq_bind, Option.bind_some, Option.pure_def]
    · rw [AnthropicResponse.text, List.flatMap_append, List.flatMap_append, hnotext, htextBlocks.1, hblockText,
        List.nil_append, List.append_nil]
    · rw [AnthropicResponse.toolUses, List.filterMap_append, List.filterMap_append, hnotool, htextBlocks.2,
        List.nil_append, List.nil_append, hblockTool]
  | null | bool | int | float | str | arr => cases hchoice

theorem map_injOn {α β : Type} {f : α → β} {l l' : List α} {P : α → Prop} (hf : ∀ a, P a → ∀ b, P b → f a = f b → a = b)
    (hl : ∀ a ∈ l, P a) (hl' : ∀ a ∈ l', P a) (h : l.map f = l'.map f) : l = l' := by
  induction l generalizing l' with
  | nil =>
    rw [List.map_nil, eq_comm, List.map_eq_nil_iff] at h
    exact h.symm
  | cons a l ih =>
    cases l' with
    | nil => cases h
    | cons b l' =>
      rw [List.forall_mem_cons] at hl hl'
      rw [List.map_cons, List.map_cons, List.cons.injEq] at h
      rw [hf a hl.1 b hl'.1 h.1, ih hl.2 hl'.2 h.2]

/-- **A stream and a response agree** on the message that they carry iff the names come in the order of the tool calls,
    and what comes of the arguments of a tool call before its name is white space, or all of nothing. -/
theorem stream_agrees_iff {inputTokens' : Option ℤ} (hstream : StreamCarries m inputTokens chunks ds)
    (hresponse : ResponseCarries m inputTokens' openaiResponse) (draw : List Json → Text)
    (streamId responseId streamModel model : Text) (drawnIds : ℕ → Text) : ∃ r,
    convertOpenaiToAnthropicResponse (Json.loadsText F stack) responseId drawnIds openaiResponse model inputTokens' =
        some r ∧
      ((assemble (openaiStreamToAnthropicStream (Json.loadsText F stack) draw streamId streamModel inputTokens
        chunks)).Agrees (Json.loadsText F stack) r ↔
        namedCalls ds = m.calls ∧ ∀ c ∈ m.calls, ArgumentsKept (Json.loadsText F stack) c (deltasOf c ds)) := by
  obtain ⟨r, hr, htext, hstop, htools⟩ := hresponse.convert responseId model drawnIds
  obtain ⟨block, hassembled⟩ := hstream.assembled draw streamId streamModel
  refine ⟨r, hr, ?_⟩
  rw [hassembled]
  have hinput : ∀ c ∈ m.calls, (assembledInput (Json.loadsText F stack)
      (CallRun.run (isJson (Json.loadsText F stack)) (deltasOf c ds)).parts =
        (Json.loadsText F stack c.arguments).toOption ↔ ArgumentsKept (Json.loadsText F stack) c (deltasOf c ds)) := by
    intro c hc
    obtain ⟨fields, hloads⟩ := m.objects c hc
    rw [← argumentsKept_iff (hstream.carried c hc) hloads, hloads]
    rfl
  have hmap : ((namedCalls ds).map fun c => (⟨block c, .str c.id, .str c.name,
      (CallRun.run (isJson (Json.loadsText F stack)) (deltasOf c ds)).parts⟩ : AssembledTool)).map
        (AssembledTool.toolUse (Json.loadsText F stack)) =
      (namedCalls ds).map fun c => (Json.str c.id, Json.str c.name, assembledInput (Json.loadsText F stack)
        (CallRun.run (isJson (Json.loadsText F stack)) (deltasOf c ds)).parts) := by
    rw [List.map_map]
    rfl
  constructor
  · rintro ⟨-, hagree, -⟩
    rw [htools, hmap] at hagree
    have hids := congrArg (List.map Prod.fst) hagree
    rw [List.map_map, List.map_map] at hids
    have hmem : ∀ c ∈ namedCalls ds, c ∈ m.calls := by
      intro c hc
      obtain ⟨d, hd, rfl⟩ := List.mem_map.1 hc
      exact hstream.mem d (List.mem_of_mem_filter hd)
    have hnamed : namedCalls ds = m.calls := by
      refine map_injOn (P := fun c => c ∈ m.calls) ?_ hmem (fun c hc => hc) hids
      intro c hc c' hc' heq
      exact List.inj_on_of_nodup_map m.distinct hc hc' (Json.str.inj heq)
    rw [hnamed, List.map_inj_left] at hagree
    refine ⟨hnamed, fun c hc => (hinput c hc).1 ?_⟩
    exact congrArg (fun t : Json × Json × Option Json => t.2.2) (hagree c hc)
  · rintro ⟨hnamed, hkept⟩
    refine ⟨htext.symm, ?_, congrArg some hstop.symm⟩
    rw [htools, hmap, hnamed, List.map_inj_left]
    intro c hc
    rw [(hinput c hc).2 (hkept c hc)]

end

/-! ## A concrete message -/

namespace Sample

def integersOnly : Json.FloatText := ⟨fun _ => [], fun _ => 0⟩

def lookCall : CarriedCall := ⟨.lit "call_1", .lit "look", .lit "\x7b\"x\":1\x7d"⟩

def lookMessage : CarriedMessage integersOnly 9 where
  text := .lit "Hi"
  calls := [lookCall]
  finishReason := .lit "tool_calls"
  distinct := by decide
  nonempty := by decide +kernel
  objects := by
    rintro c (_ | ⟨_, ⟨⟩⟩)
    exact ⟨[(.lit "x", .int 1)], by decide +kernel⟩

def lookChunk (delta finishReason : Json) : Option Text :=
  some (.lit "data: " ++ Json.dumps integersOnly (.obj [(.lit "choices",
    .arr [.obj [(.lit "delta", delta), (.lit "finish_reason", finishReason)]])]))

def lookEntry (id name : Json) (piece : Text) : Json :=
  .obj [(.lit "function", .obj [(.lit "arguments", .str piece), (.lit "name", name)]), (.lit "id", id),
    (.lit "index", .int 0)]

def lookName (named : Bool) : Json := if named then .str (.lit "look") else .null

/-- The two deltas; the name is on the first of them, or late. -/
def lookEntries (late : Bool) : List Json :=
  [lookEntry (.str (.lit "call_1")) (lookName !late) (.lit "\x7b\"x\":"),
    lookEntry .null (lookName late) (.lit "1\x7d")]

def lookDeltas (late : Bool) : List CallDelta :=
  [⟨lookCall, true, !late, .lit "\x7b\"x\":"⟩, ⟨lookCall, false, late, .lit "1\x7d"⟩]

def lookChunks (late : Bool) : List (Option Text) :=
  lookChunk (.obj [(.lit "content", .str (.lit "Hi"))]) .null ::
    (lookEntries late).map (fun entry => lookChunk (.obj [(.lit "tool_calls", .arr [entry])]) .null) ++
    [lookChunk (.obj []) (.str (.lit "tool_calls"))]

def lookResponse : Json :=
  .obj [(.lit "choices", .arr [.obj [(.lit "finish_reason", .str (.lit "tool_calls")),
    (.lit "message", .obj [(.lit "content", .str (.lit "Hi")),
      (.lit "tool_calls", .arr [.obj [(.lit "id", .str (.lit "call_1")),
        (.lit "function", .obj [(.lit "name", .str (.lit "look")),
          (.lit "arguments", .str (.lit "\x7b\"x\":1\x7d"))])]])])]])]

def lookEntryItems (entry : Json) : List ChunkItem :=
  [.reasoning .null, .content .null, .closing, .toolCall entry, .finish .null]

def lookItems (late : Bool) : List ChunkItem :=
  .reasoning .null :: .content (.str (.lit "Hi")) :: .finish .null ::
    List.append ((lookEntries late).flatMap lookEntryItems)
      [.reasoning .null, .content .null, .finish (.str (.lit "tool_calls"))]

def lookAssembled (late : Bool) : AssembledMessage :=
  assemble (openaiStreamToAnthropicStream (Json.loadsText integersOnly 9) (fun _ => .lit "toolu_1") (.lit "msg_1")
    (.lit "m") none (lookChunks late))

def lookConverted : Option AnthropicResponse :=
  convertOpenaiToAnthropicResponse (Json.loadsText integersOnly 9) (.lit "msg_1") (fun _ => .lit "toolu_1") lookResponse
    (.lit "m") none

end Sample


theorem toolCallFields_lookEntry (id name : Json) (piece : Text) :
    AnthropicStream.toolCallFields (Sample.lookEntry id name piece) = some (.int 0, id, name, .str piece) := rfl

theorem streamCarries_look (late : Bool) :
    StreamCarries Sample.lookMessage none (Sample.lookChunks late) (Sample.lookDeltas late) where
  items := by
    refine ⟨Sample.lookItems late, [.lit "Hi"], fun _ => .int 0, ?_, ?_, rfl, ?_, ?_⟩
    · cases late <;> decide +kernel
    · have hrelevant : (Sample.lookItems late).filter ChunkItem.relevant = [.content (.str (.lit "Hi")),
          .toolCall (Sample.lookEntry (.str (.lit "call_1")) (Sample.lookName !late) (.lit "\x7b\"x\":")),
          .toolCall (Sample.lookEntry .null (Sample.lookName late) (.lit "1\x7d")),
          .finish (.str (.lit "tool_calls"))] := by
        cases late <;> decide +kernel
      rw [hrelevant]
      refine .cons rfl (.cons ⟨_, _, _, _, toolCallFields_lookEntry .., ?_⟩
        (.cons ⟨_, _, _, _, toolCallFields_lookEntry .., ?_⟩ (.cons rfl .nil)))
      · cases late <;> exact ⟨rfl, .inl rfl, rfl, .inl rfl⟩
      · cases late <;> exact ⟨rfl, .inr ⟨rfl, rfl⟩, rfl, .inl rfl⟩
    · rintro c (_ | ⟨_, ⟨⟩⟩) c' (_ | ⟨_, ⟨⟩⟩) -
      rfl
    · intro read hread
      exact absurd hread (by cases late <;> simp [Sample.lookItems, Sample.lookEntries, Sample.lookEntryItems])
  mem := by
    cases late <;> decide +kernel
  carried := by
    rintro c (_ | ⟨_, ⟨⟩⟩)
    cases late <;> exact ⟨⟨_, _, rfl, rfl, by decide +kernel⟩, by decide +kernel, by decide +kernel⟩
  inputTokens := by
    rintro n ⟨⟩

theorem responseCarries_look : ResponseCarries Sample.lookMessage none Sample.lookResponse := by
  refine ⟨_, _, _, rfl, rfl, rfl, .inl rfl, rfl, .cons ⟨_, rfl, rfl, rfl, rfl⟩ .nil, rfl, rfl⟩

/-- The name is on the first delta. -/
theorem stream_agrees_look : ∃ r, Sample.lookConverted = some r ∧
    (Sample.lookAssembled false).Agrees (Json.loadsText Sample.integersOnly 9) r := by
  obtain ⟨r, hr, hiff⟩ := stream_agrees_iff (streamCarries_look false) responseCarries_look (fun _ => .lit "toolu_1")
    (.lit "msg_1") (.lit "msg_1") (.lit "m") (.lit "m") fun _ => .lit "toolu_1"
  have hnamed : namedCalls (Sample.lookDeltas false) = Sample.lookMessage.calls := by decide +kernel
  have hkept : ∀ c ∈ Sample.lookMessage.calls,
      ArgumentsKept (Json.loadsText Sample.integersOnly 9) c (deltasOf c (Sample.lookDeltas false)) := by
    rintro c (_ | ⟨_, ⟨⟩⟩)
    have hearly : piecesOf (earlyDeltas (deltasOf Sample.lookCall (Sample.lookDeltas false))) = [] := by decide +kernel
    refine .inl fun char hchar => ?_
    rw [hearly] at hchar
    cases hchar
  have hagrees := hiff.2 ⟨hnamed, hkept⟩
  exact ⟨r, hr, hagrees⟩

/-- The name comes with the second delta: the piece before it is lost, and what has been emitted is no JSON. -/
theorem stream_disagrees_late :
    StreamCarries Sample.lookMessage none (Sample.lookChunks true) (Sample.lookDeltas true) ∧
      ResponseCarries Sample.lookMessage none Sample.lookResponse ∧
      ∃ r, Sample.lookConverted = some r ∧
        ¬(Sample.lookAssembled true).Agrees (Json.loadsText Sample.integersOnly 9) r := by
  obtain ⟨r, hr, -, -, htools⟩ := responseCarries_look.convert (.lit "msg_1") (.lit "m") fun _ => .lit "toolu_1"
  refine ⟨streamCarries_look true, responseCarries_look, r, hr, ?_⟩
  have hlost : (Sample.lookAssembled true).tools.map (AssembledTool.toolUse (Json.loadsText Sample.integersOnly 9)) =
      [(.str (.lit "call_1"), .str (.lit "look"), none)] := by
    decide +kernel
  rintro ⟨-, hagree, -⟩
  obtain ⟨fields, hloads⟩ := Sample.lookMessage.objects Sample.lookCall List.mem_cons_self
  have hcalls : Sample.lookMessage.calls = [Sample.lookCall] := rfl
  rw [hlost, htools, hcalls, List.map_singleton, hloads, List.cons.injEq, Prod.mk.injEq, Prod.mk.injEq] at hagree
  obtain ⟨⟨-, -, hnone⟩, -⟩ := hagree
  cases hnone

end TideBot
