/-
  Answers to the tool calls of a message (`utils/tool_approval.py`).

  A request reads the stored message, edits its copy of the output and writes it back whole.  The requests of
  one message are steps on what is stored (`resolveMachine`): a read, and a write.  What a request writes is
  kept only if nothing is written between the two.

  The items of an output are objects; a user who may not see the chat, and a message that is not there, are
  refused before the read.  What is stored has no null bytes, so that storing leaves it as it is.
-/
import TideBot.Lib.Machine
import TideBot.Lib.PyJson

namespace TideBot

open Lib

/-! ## Items of an output -/

/-- `item.setdefault(key, value)` -/
def setDefault (d : PyDict) (key : String) (value : Json) : PyDict :=
  if (d.get (.lit key)).isSome then d else d.put key value

/-- The `function_call` of the id. -/
def isCall (callId : Text) (item : PyDict) : Bool :=
  (item.fetch "type").eqStr (.lit "function_call") && ((item.fetch "call_id").or (item.fetch "id")).eqStr callId

/-- The `function_call_output` of the id. -/
def isOutputOf (callId : Text) (item : PyDict) : Bool :=
  (item.fetch "type").eqStr (.lit "function_call_output") && (item.fetch "call_id").eqStr callId

/-- `status in {'pending', 'queued', 'requires_approval'}` -/
def isOpen (item : PyDict) : Bool :=
  ["pending", "queued", "requires_approval"].any fun s => (item.fetch "status").eqStr (.lit s)

/-- An edit of the call that has been found, in the list. -/
def editCall (callId : Text) (edit : PyDict → PyDict) : List PyDict → List PyDict
  | [] => []
  | item :: items =>
    if isCall callId item then edit (setDefault item "call_id" (.str callId)) :: items
    else item :: editCall callId edit items

/-- The `function_call_output` that is appended. -/
def callOutput (callId text : Text) (status : String) : PyDict :=
  .ofFields [(.lit "type", .str (.lit "function_call_output")), (.lit "id", .str (.lit "fco_" ++ callId)),
    (.lit "call_id", .str callId),
    (.lit "output", .arr [.obj [(.lit "type", .str (.lit "input_text")), (.lit "text", .str text)]]),
    (.lit "status", .str (.lit status))]

/-! ## `resolve_tool_call_output` -/

inductive ResolveAction where
  | approve | reject | answer
  deriving DecidableEq

/-- `ResolveToolCallForm`; without answers they are `null`. -/
structure ResolveToolCallForm where
  callId : Text
  action : ResolveAction
  answers : Json
  timedOut : Bool
  deriving DecidableEq

/-- `answer_payload` -/
def ResolveToolCallForm.answerPayload (form : ResolveToolCallForm) : Json :=
  if form.timedOut then
    .obj [(.lit "status", .str (.lit "cancelled")), (.lit "answers", .obj []), (.lit "timed_out", .bool true)]
  else .obj [(.lit "status", .str (.lit "answered")), (.lit "answers", form.answers.or (.obj []))]

section
variable (dumps : Json → Text)

/-- The output after the request, or the status and the detail of its error. -/
def resolveToolCallOutput (form : ResolveToolCallForm) (output : List PyDict) : Except (ℕ × String) (List PyDict) :=
  match output.find? (isCall form.callId) with
  | none => .error (404, "Tool call not found.")
  | some call =>
    let askUser := (call.fetch "name").eqStr (.lit "ask_user")
    if output.any (isOutputOf form.callId) || !isOpen call then .error (409, "Tool call has already been resolved.")
    else match form.action with
      | .approve =>
        if askUser then .error (400, "ask_user requires an answer or deny.")
        else .ok (editCall form.callId
          (fun call => (call.put "status" (.str (.lit "queued"))).put "approved" (.bool true)) output)
      | .reject => .ok (editCall form.callId (·.put "status" (.str (.lit "rejected"))) output ++
          [callOutput form.callId (.lit "Error: tool call rejected by user.") "rejected"])
      | .answer =>
        if !askUser then .error (400, "Tool call does not accept answers.")
        else if form.answers.isNone && !form.timedOut then .error (400, "Answers are required for ask_user.")
        else .ok (editCall form.callId (·.put "status" (.str (.lit "completed"))) output ++
          [callOutput form.callId (dumps form.answerPayload) "completed"])

/-- Has the output a call that waits for an answer? -/
def isPaused (output : List PyDict) : Bool :=
  output.any fun item => (item.fetch "type").eqStr (.lit "function_call") && (item.fetch "call_id").truthy &&
    isOpen item && !output.any fun result =>
      (result.fetch "type").eqStr (.lit "function_call_output") && (result.fetch "call_id").eq (item.fetch "call_id")

/-! ## Requests -/

/-- What is stored of a message, and the requests that have read it. -/
structure ToolMessage where
  output : List PyDict
  requests : Dict ℕ (ResolveToolCallForm × List PyDict)

inductive ResolveStep where
  | read (request : ℕ) (form : ResolveToolCallForm)
  | write (request : ℕ)

inductive ResolveAnswer where
  | waiting
  | refused (status : ℕ) (detail : String)
  | resolved (form : ResolveToolCallForm) (paused : Bool)
  deriving DecidableEq

/-- Any number of requests. -/
def resolveMachine : Machine ToolMessage ResolveStep ResolveAnswer where
  step
    | s, .read request form =>
      if (s.requests.get request).isSome then none
      else some ({ s with requests := s.requests.set request (form, s.output) }, .waiting)
    | s, .write request => (s.requests.get request).map fun r =>
      match resolveToolCallOutput dumps r.1 r.2 with
      | .error e => ({ s with requests := s.requests.erase request }, .refused e.1 e.2)
      | .ok output => (⟨output, s.requests.erase request⟩, .resolved r.1 (isPaused output))

/-- **The condition**: what a request writes over is what it has read. -/
def WritesWhatItRead (s : ToolMessage) : ResolveStep → Prop
  | .read .. => True
  | .write request => ∀ r ∈ s.requests.get request, (resolveToolCallOutput dumps r.1 r.2).isOk → s.output = r.2

end

/-- No call is there twice, and none has two outputs. -/
def CallsDistinct (output : List PyDict) : Prop :=
  ∀ callId, output.countP (isCall callId) ≤ 1 ∧ output.countP (isOutputOf callId) ≤ 1

/-- The step is a request that has rejected the call. -/
def RejectedBy (callId : Text) (e : ResolveStep × ResolveAnswer) : Prop :=
  ∃ form paused, e.2 = .resolved form paused ∧ form.action = .reject ∧ form.callId = callId

/-- **Answers are kept**, after the steps of the trace. -/
structure AnswersKept (tr : List (ResolveStep × ResolveAnswer)) (output : List PyDict) : Prop where
  /-- a call that was rejected or answered has its output -/
  answered : ∀ form paused, .resolved form paused ∈ tr.map Prod.snd → form.action ≠ .approve →
    ∃ item ∈ output, isOutputOf form.callId item
  /-- a call that was approved is marked, until it is rejected -/
  approved : ∀ xs i form paused ys, tr = xs ++ (i, .resolved form paused) :: ys → form.action = .approve →
    (∀ e ∈ ys, ¬ RejectedBy form.callId e) →
      ∃ item ∈ output, isCall form.callId item ∧ item.fetch "approved" = .bool true
  /-- no call has two outputs -/
  once : ∀ callId, output.countP (isOutputOf callId) ≤ 1
  /-- a call that was rejected or answered is not open again -/
  closed : ∀ form paused, .resolved form paused ∈ tr.map Prod.snd → form.action ≠ .approve →
    ∀ item ∈ output, isCall form.callId item → ¬ isOpen item

/-! ## Edits -/

section

variable {callId c : Text} {item call : PyDict} {items output out as bs : List PyDict} {edit : PyDict → PyDict}
  {key : String} {value : Json}

/-- An edit that leaves what a call is found by. -/
structure KeepsCall (edit : PyDict → PyDict) : Prop where
  type : ∀ d : PyDict, (edit d).fetch "type" = d.fetch "type"
  callId : ∀ d : PyDict, (edit d).fetch "call_id" = d.fetch "call_id"
  id : ∀ d : PyDict, (edit d).fetch "id" = d.fetch "id"

theorem KeepsCall.put (h : key ∉ ["type", "call_id", "id"]) (value : Json) : KeepsCall (·.put key value) := by
  simp only [List.mem_cons, List.not_mem_nil, or_false, not_or] at h
  refine ⟨fun d => ?_, fun d => ?_, fun d => ?_⟩
  · rw [PyDict.fetch_put, if_neg (Ne.symm h.1)]
  · rw [PyDict.fetch_put, if_neg (Ne.symm h.2.1)]
  · rw [PyDict.fetch_put, if_neg (Ne.symm h.2.2)]

theorem KeepsCall.comp {edit' : PyDict → PyDict} (h : KeepsCall edit) (h' : KeepsCall edit') :
    KeepsCall fun d => edit' (edit d) where
  type d := (h'.type _).trans (h.type d)
  callId d := (h'.callId _).trans (h.callId d)
  id d := (h'.id _).trans (h.id d)

theorem isCall_edit (h : KeepsCall edit) : isCall c (edit item) = isCall c item := by
  rw [isCall, isCall, h.type, h.callId, h.id]

theorem fetch_setDefault_of_ne {key' : String} (h : key' ≠ key) :
    (setDefault item key value).fetch key' = item.fetch key' := by
  rw [setDefault]
  split_ifs
  · rfl
  · rw [PyDict.fetch_put, if_neg h]

theorem isCall_setDefault (h : isCall callId item) :
    isCall c (setDefault item "call_id" (.str callId)) = isCall c item := by
  have htype : (setDefault item "call_id" (.str callId)).fetch "type" = item.fetch "type" :=
    fetch_setDefault_of_ne (by decide)
  have hid : (setDefault item "call_id" (.str callId)).fetch "id" = item.fetch "id" := fetch_setDefault_of_ne (by decide)
  rw [isCall, isCall, htype, hid]
  congr 1
  rw [setDefault]
  split_ifs with hthere
  · rfl
  · have hnull : item.fetch "call_id" = .null := by
      rw [PyDict.fetch, Option.not_isSome_iff_eq_none.1 hthere, Option.getD_none]
    rw [isCall, hnull, Bool.and_eq_true] at h
    have hfound : item.fetch "id" = .str callId := Json.eqStr_iff.1 h.2
    rw [PyDict.fetch_put, if_pos rfl, hnull, hfound]
    by_cases hempty : callId = []
    · rw [hempty]
      rfl
    · have htrue : (Json.str callId).truthy = true := by simpa [Json.truthy_str] using hempty
      have hnone : Json.null.truthy = false := rfl
      simp [Json.or, htrue, hnone]

theorem isOutputOf_of_isCall (h : isCall callId item) : isOutputOf c item = false := by
  rw [isCall, Bool.and_eq_true, Json.eqStr_iff] at h
  rw [isOutputOf, h.1]
  rfl

theorem eq_of_isCall (h : isCall callId item) (h' : isCall c item) : callId = c := by
  rw [isCall, Bool.and_eq_true, Json.eqStr_iff, Json.eqStr_iff] at h h'
  exact Json.str.inj (h.2.symm.trans h'.2)

theorem isCall_callOutput (text : Text) (status : String) : isCall c (callOutput callId text status) = false := by
  rfl

theorem isOutputOf_callOutput (text : Text) (status : String) :
    isOutputOf c (callOutput callId text status) ↔ c = callId := by
  have htype : (callOutput callId text status).fetch "type" = .str (.lit "function_call_output") := rfl
  have hid : (callOutput callId text status).fetch "call_id" = .str callId := rfl
  rw [isOutputOf, htype, hid, Bool.and_eq_true, Json.eqStr_iff, Json.eqStr_iff]
  exact ⟨fun h => (Json.str.inj h.2).symm, fun h => ⟨rfl, by rw [h]⟩⟩

theorem editCall_append (has : ∀ a ∈ as, ¬ isCall callId a) (hcall : isCall callId call) :
    editCall callId edit (as ++ call :: bs) = as ++ edit (setDefault call "call_id" (.str callId)) :: bs := by
  induction as with
  | nil => rw [List.nil_append, editCall, if_pos hcall, List.nil_append]
  | cons a as ih =>
    obtain ⟨ha, has⟩ := List.forall_mem_cons.1 has
    rw [List.cons_append, editCall, if_neg ha, ih has, List.cons_append]

end

/-! ## What a request does to an output -/

/-- The item is marked approved. -/
def isApproved (item : PyDict) : Prop := item.fetch "approved" = .bool true

/-- A request that has gone through: the call is edited in its place, and an output may follow. -/
structure Resolution (form : ResolveToolCallForm) (output out : List PyDict) where
  before : List PyDict
  call : PyDict
  after : List PyDict
  edited : PyDict
  results : List PyDict
  read : output = before ++ call :: after
  written : out = before ++ edited :: after ++ results
  isCall : isCall form.callId call
  isOpen : isOpen call
  unanswered : ∀ item ∈ output, ¬ isOutputOf form.callId item
  keeps : ∀ c, TideBot.isCall c edited = TideBot.isCall c call
  approved : isApproved call ∨ form.action = .approve → isApproved edited
  approve : form.action = .approve → results = []
  closes : form.action ≠ .approve → ¬ TideBot.isOpen edited ∧
    ∃ text status, results = [callOutput form.callId text status]

section

variable {dumps : Json → Text} {form : ResolveToolCallForm} {output out : List PyDict} {c : Text}

theorem fetch_approved_setDefault {item : PyDict} {value : Json} :
    (setDefault item "call_id" value).fetch "approved" = item.fetch "approved" :=
  fetch_setDefault_of_ne (by decide)

/-- **A request that returns without an error**. -/
theorem resolve_cases (h : resolveToolCallOutput dumps form output = .ok out) :
    Nonempty (Resolution form output out) := by
  unfold resolveToolCallOutput at h
  rcases hfind : output.find? (isCall form.callId) with _ | call
  · rw [hfind] at h
    cases h
  obtain ⟨hcall, as, bs, hread, has⟩ := List.find?_eq_some_iff_append.1 hfind
  have has' : ∀ a ∈ as, ¬ isCall form.callId a := fun a ha => by simpa using has a ha
  have hedit : ∀ edit, editCall form.callId edit output =
      as ++ edit (setDefault call "call_id" (.str form.callId)) :: bs := fun edit => by
    rw [hread]
    exact editCall_append has' hcall
  have hstatus : ∀ value, KeepsCall (·.put "status" value) := KeepsCall.put (by decide)
  have hcloses : ∀ status ∈ ["rejected", "completed"],
      ¬ isOpen ((setDefault call "call_id" (.str form.callId)).put "status" (.str (.lit status))) := by
    intro status hmem
    rw [isOpen, PyDict.fetch_put, if_pos rfl]
    fin_cases hmem <;> decide
  simp only [hfind, hedit] at h
  by_cases hresolved : (output.any (isOutputOf form.callId) || !isOpen call) = true
  · rw [if_pos hresolved] at h
    cases h
  rw [if_neg hresolved] at h
  rw [Bool.or_eq_true, not_or, Bool.not_eq_true', Bool.not_eq_false] at hresolved
  have hunanswered : ∀ item ∈ output, ¬ isOutputOf form.callId item := by
    simpa using hresolved.1
  -- a call that is rejected or answered is closed by one result
  have hclosed : ∀ status ∈ ["rejected", "completed"], form.action ≠ .approve → ∀ {text status'},
      out = as ++ (setDefault call "call_id" (.str form.callId)).put "status" (.str (.lit status)) :: bs ++
        [callOutput form.callId text status'] → Nonempty (Resolution form output out) := by
    intro status hmem hne text status' hout
    refine ⟨{
      before := as, call := call, after := bs, edited := _, results := _, read := hread, written := hout
      isCall := hcall, isOpen := hresolved.2, unanswered := hunanswered, keeps := fun c => ?_
      approved := fun hmarked => ?_, approve := fun heq => absurd heq hne
      closes := fun _ => ⟨hcloses _ hmem, _, _, rfl⟩ }⟩
    · exact (isCall_edit (hstatus _)).trans (isCall_setDefault hcall)
    · rw [isApproved, PyDict.fetch_put, if_neg (by decide), fetch_approved_setDefault]
      exact hmarked.resolve_right hne
  cases haction : form.action with
  | approve =>
    simp only [haction] at h
    split_ifs at h with hask
    refine ⟨{
      before := as, call := call, after := bs, edited := _, results := [], read := hread
      written := (Except.ok.inj h).symm.trans (List.append_nil _).symm
      isCall := hcall, isOpen := hresolved.2, unanswered := hunanswered, keeps := fun c => ?_
      approved := fun _ => ?_, approve := fun _ => rfl, closes := fun hne => absurd haction hne }⟩
    · exact (isCall_edit ((hstatus _).comp (KeepsCall.put (by decide) _))).trans (isCall_setDefault hcall)
    · rw [isApproved, PyDict.fetch_put, if_pos rfl]
  | reject =>
    simp only [haction] at h
    exact hclosed _ (by decide) (by simp [haction]) (Except.ok.inj h).symm
  | answer =>
    simp only [haction] at h
    split_ifs at h with hask hanswers
    exact hclosed _ (by decide) (by simp [haction]) (Except.ok.inj h).symm

end

/-! ## What it leaves -/

namespace Resolution

variable {form : ResolveToolCallForm} {output out : List PyDict} {c : Text} {item : PyDict}

theorem isCall_edited (R : Resolution form output out) : TideBot.isCall form.callId R.edited :=
  (R.keeps _).trans R.isCall

theorem mem_output_iff (R : Resolution form output out) :
    item ∈ output ↔ item ∈ R.before ∨ item = R.call ∨ item ∈ R.after := by
  have h : item ∈ output ↔ item ∈ R.before ++ R.call :: R.after := Iff.of_eq (congrArg (item ∈ ·) R.read)
  rw [h, List.mem_append, List.mem_cons]

theorem mem_out_iff (R : Resolution form output out) :
    item ∈ out ↔ item ∈ R.before ∨ item = R.edited ∨ item ∈ R.after ∨ item ∈ R.results := by
  have h : item ∈ out ↔ item ∈ R.before ++ R.edited :: R.after ++ R.results :=
    Iff.of_eq (congrArg (item ∈ ·) R.written)
  rw [h, List.mem_append, List.mem_append, List.mem_cons, or_assoc, or_assoc]

theorem countP_output (R : Resolution form output out) (p : PyDict → Bool) :
    output.countP p = R.before.countP p + (R.after.countP p + if p R.call then 1 else 0) := by
  have h : output.countP p = (R.before ++ R.call :: R.after).countP p := congrArg (·.countP p) R.read
  rw [h, List.countP_append, List.countP_cons]

theorem countP_out (R : Resolution form output out) (p : PyDict → Bool) :
    out.countP p = R.before.countP p + (R.after.countP p + if p R.edited then 1 else 0) + R.results.countP p := by
  have h : out.countP p = (R.before ++ R.edited :: R.after ++ R.results).countP p := congrArg (·.countP p) R.written
  rw [h, List.countP_append, List.countP_append, List.countP_cons]

theorem edited_mem (R : Resolution form output out) : R.edited ∈ out := R.mem_out_iff.2 (.inr (.inl rfl))

theorem results_cases (R : Resolution form output out) :
    R.results = [] ∨ form.action ≠ .approve ∧ ∃ text status, R.results = [callOutput form.callId text status] := by
  by_cases h : form.action = .approve
  · exact .inl (R.approve h)
  · exact .inr ⟨h, (R.closes h).2⟩

theorem not_isCall_results (R : Resolution form output out) (h : item ∈ R.results) : TideBot.isCall c item = false := by
  rcases R.results_cases with hnil | ⟨-, text, status, hone⟩
  · rw [hnil] at h
    cases h
  · rw [hone, List.mem_singleton] at h
    rw [h]
    exact isCall_callOutput text status

theorem distinct (R : Resolution form output out) (hd : CallsDistinct output) : CallsDistinct out := by
  intro c
  obtain ⟨hcalls, houtputs⟩ := hd c
  have hedited : isOutputOf c R.edited = false := isOutputOf_of_isCall R.isCall_edited
  have hcall : isOutputOf c R.call = false := isOutputOf_of_isCall R.isCall
  have hresults : R.results.countP (TideBot.isCall c) = 0 :=
    List.countP_eq_zero.2 fun x hx => by rw [R.not_isCall_results hx]; exact Bool.false_ne_true
  rw [R.countP_output] at hcalls houtputs
  rw [R.countP_out, R.countP_out, R.keeps, hresults, hedited, ← hcall]
  refine ⟨hcalls, ?_⟩
  rcases R.results_cases with hnil | ⟨-, text, status, hone⟩
  · rw [hnil]
    exact houtputs
  · rw [hone, List.countP_singleton]
    by_cases hc : isOutputOf c (callOutput form.callId text status)
    -- the call had no output before
    · obtain rfl := (isOutputOf_callOutput text status).1 hc
      have hnone : output.countP (isOutputOf form.callId) = 0 := List.countP_eq_zero.2 R.unanswered
      rw [R.countP_output] at hnone
      rw [hnone, if_pos hc]
    · rw [if_neg hc]
      exact houtputs

theorem answered (R : Resolution form output out) (h : ∃ item ∈ output, isOutputOf c item) :
    ∃ item ∈ out, isOutputOf c item := by
  obtain ⟨item, hmem, hitem⟩ := h
  refine ⟨item, R.mem_out_iff.2 ?_, hitem⟩
  rcases R.mem_output_iff.1 hmem with hb | rfl | ha
  · exact .inl hb
  · rw [isOutputOf_of_isCall R.isCall] at hitem
    cases hitem
  · exact .inr (.inr (.inl ha))

theorem marked (R : Resolution form output out) (h : ∃ item ∈ output, TideBot.isCall c item ∧ isApproved item) :
    ∃ item ∈ out, TideBot.isCall c item ∧ isApproved item := by
  obtain ⟨item, hmem, hitem, hmark⟩ := h
  rcases R.mem_output_iff.1 hmem with hb | rfl | ha
  · exact ⟨item, R.mem_out_iff.2 (.inl hb), hitem, hmark⟩
  · exact ⟨R.edited, R.edited_mem, (R.keeps c).trans hitem, R.approved (.inl hmark)⟩
  · exact ⟨item, R.mem_out_iff.2 (.inr (.inr (.inl ha))), hitem, hmark⟩

theorem closed (R : Resolution form output out) (h : ∀ item ∈ output, TideBot.isCall c item → ¬ TideBot.isOpen item) :
    ∀ item ∈ out, TideBot.isCall c item → ¬ TideBot.isOpen item := by
  intro item hmem hitem
  rcases R.mem_out_iff.1 hmem with hb | rfl | ha | hr
  · exact h item (R.mem_output_iff.2 (.inl hb)) hitem
  · have hcall := h R.call (R.mem_output_iff.2 (.inr (.inl rfl))) ((R.keeps c).symm.trans hitem)
    exact absurd R.isOpen hcall
  · exact h item (R.mem_output_iff.2 (.inr (.inr ha))) hitem
  · rw [R.not_isCall_results hr] at hitem
    cases hitem

theorem answers (R : Resolution form output out) (h : form.action ≠ .approve) :
    ∃ item ∈ out, isOutputOf form.callId item := by
  obtain ⟨text, status, hone⟩ := (R.closes h).2
  refine ⟨_, R.mem_out_iff.2 (.inr (.inr (.inr ?_))), (isOutputOf_callOutput text status).2 rfl⟩
  rw [hone]
  exact List.mem_singleton_self _

theorem closes_call (R : Resolution form output out) (hd : CallsDistinct output) (h : form.action ≠ .approve) :
    ∀ item ∈ out, TideBot.isCall form.callId item → ¬ TideBot.isOpen item := by
  intro item hmem hitem
  have hone := (hd form.callId).1
  rw [R.countP_output, if_pos R.isCall] at hone
  have hb : R.before.countP (TideBot.isCall form.callId) = 0 := by omega
  have ha : R.after.countP (TideBot.isCall form.callId) = 0 := by omega
  rcases R.mem_out_iff.1 hmem with hmem | rfl | hmem | hmem
  · exact absurd hitem (List.countP_eq_zero.1 hb item hmem)
  · exact (R.closes h).1
  · exact absurd hitem (List.countP_eq_zero.1 ha item hmem)
  · rw [R.not_isCall_results hmem] at hitem
    cases hitem

end Resolution

/-! ## Runs -/

section

variable {dumps : Json → Text} {s t : ToolMessage} {tr : List (ResolveStep × ResolveAnswer)} {i : ResolveStep}
  {o : ResolveAnswer}

/-- A step that changes nothing that is stored, or a request that goes through. -/
theorem resolveMachine_cases (hC : WritesWhatItRead dumps s i) (h : (resolveMachine dumps).step s i = some (t, o)) :
    (t.output = s.output ∧ ∀ form paused, o ≠ .resolved form paused) ∨
      ∃ form paused, o = .resolved form paused ∧ Nonempty (Resolution form s.output t.output) := by
  cases i with
  | read request form =>
    simp only [resolveMachine] at h
    split_ifs at h
    cases h
    exact .inl ⟨rfl, by rintro form paused ⟨⟩⟩
  | write request =>
    obtain ⟨r, hr, h⟩ := Option.map_eq_some_iff.1 h
    rcases hresolve : resolveToolCallOutput dumps r.1 r.2 with e | out
    · simp only [hresolve] at h
      cases h
      exact .inl ⟨rfl, by rintro form paused ⟨⟩⟩
    · simp only [hresolve] at h
      cases h
      have hread : s.output = r.2 := hC r hr (by rw [hresolve]; rfl)
      exact .inr ⟨r.1, _, rfl, hread ▸ resolve_cases hresolve⟩

theorem answersKept_snoc (hC : WritesWhatItRead dumps s i) (h : (resolveMachine dumps).step s i = some (t, o))
    (hd : CallsDistinct s.output) (hk : AnswersKept tr s.output) :
    CallsDistinct t.output ∧ AnswersKept (tr ++ [(i, o)]) t.output := by
  rcases resolveMachine_cases hC h with ⟨hsame, hother⟩ | ⟨form, paused, rfl, ⟨R⟩⟩
  · rw [hsame]
    have hmem : ∀ form paused, .resolved form paused ∈ (tr ++ [(i, o)]).map Prod.snd →
        .resolved form paused ∈ tr.map Prod.snd := by
      intro form paused hmem
      rw [List.map_append, List.mem_append] at hmem
      exact hmem.resolve_right fun heq => hother form paused (List.mem_singleton.1 heq).symm
    refine ⟨hd, fun form paused h => hk.answered form paused (hmem _ _ h), ?_, hk.once,
      fun form paused h => hk.closed form paused (hmem _ _ h)⟩
    intro xs j form paused ys htr haction hnot
    rcases Machine.snoc_eq_split htr with ⟨-, heq, -⟩ | ⟨zs, rfl, hbefore⟩
    · exact absurd (Prod.mk.inj heq).2 (hother form paused)
    · exact hk.approved xs j form paused zs hbefore haction fun e he => hnot e (List.mem_append_left _ he)
  · have hmem : ∀ form' paused', .resolved form' paused' ∈ (tr ++ [(i, ResolveAnswer.resolved form paused)]).map Prod.snd →
        .resolved form' paused' ∈ tr.map Prod.snd ∨ form' = form := by
      intro form' paused' hmem
      rw [List.map_append, List.mem_append] at hmem
      exact hmem.imp_right fun heq => (ResolveAnswer.resolved.inj (List.mem_singleton.1 heq)).1
    have hd' := R.distinct hd
    refine ⟨hd', ?_, ?_, fun c => (hd' c).2, ?_⟩
    · intro form' paused' h haction
      rcases hmem _ _ h with h | rfl
      · exact R.answered (hk.answered form' paused' h haction)
      · exact R.answers haction
    · intro xs j form' paused' ys htr haction hnot
      rcases Machine.snoc_eq_split htr with ⟨-, heq, -⟩ | ⟨zs, rfl, hbefore⟩
      · obtain ⟨rfl, -⟩ := ResolveAnswer.resolved.inj (Prod.mk.inj heq).2
        exact ⟨R.edited, R.edited_mem, R.isCall_edited, R.approved (.inr haction)⟩
      · exact R.marked (hk.approved xs j form' paused' zs hbefore haction fun e he => hnot e (List.mem_append_left _ he))
    · intro form' paused' h haction
      rcases hmem _ _ h with h | rfl
      · exact R.closed (hk.closed form' paused' h haction)
      · exact R.closes_call hd haction

/-- **Every answer is kept**, in every run in which each request writes over what it has read. -/
theorem answersKept_of_run {output : List PyDict} (hd : CallsDistinct output)
    (h : (resolveMachine dumps).RunIn (WritesWhatItRead dumps) ⟨output, .empty⟩ tr s) : AnswersKept tr s.output := by
  have hstart : CallsDistinct output ∧ AnswersKept [] output :=
    ⟨hd, by simp, by simp, fun c => (hd c).2, by simp⟩
  refine (h.traceInvariant (I := fun tr s => CallsDistinct s.output ∧ AnswersKept tr s.output) ?_ hstart).2
  intro tr s i t o hC hI hstep
  exact answersKept_snoc hC hstep hI.1 hI.2

end

instance (dumps : Json → Text) (s : ToolMessage) : (i : ResolveStep) → Decidable (WritesWhatItRead dumps s i)
  | .read .. => inferInstanceAs (Decidable True)
  | .write _ => inferInstanceAs (Decidable (∀ _ ∈ _, _ → _))

namespace Sample

def pendingCall (id : String) : PyDict :=
  .ofFields [(.lit "type", .str (.lit "function_call")), (.lit "call_id", .str (.lit id)),
    (.lit "name", .str (.lit "search")), (.lit "status", .str (.lit "pending"))]

def twoCalls : List PyDict := [pendingCall "a", pendingCall "b"]

def reject (id : String) : ResolveToolCallForm := ⟨.lit id, .reject, .null, false⟩

theorem twoCalls_distinct : CallsDistinct twoCalls := by
  intro c
  have ha : isCall (.lit "a") (pendingCall "a") := by decide
  have hb : isCall (.lit "b") (pendingCall "b") := by decide
  constructor
  · rw [twoCalls, List.countP_cons, List.countP_singleton]
    by_cases hc : isCall c (pendingCall "a")
    · rw [← eq_of_isCall ha hc]
      decide
    · rw [if_neg hc]
      split_ifs <;> decide
  · rw [twoCalls, List.countP_cons, List.countP_singleton, isOutputOf_of_isCall ha, isOutputOf_of_isCall hb]
    decide

end Sample

/-- Both calls are rejected, one after the other. -/
theorem answersKept_of_run_rejects : ∃ (tr : List (ResolveStep × ResolveAnswer)) (s : ToolMessage),
    tr.map Prod.snd = [.waiting, .resolved (Sample.reject "a") true, .waiting, .resolved (Sample.reject "b") false] ∧
      AnswersKept tr s.output := by
  obtain ⟨⟨tr, s⟩, hm, htr⟩ :
      ∃ r ∈ (resolveMachine fun _ => []).exec (WritesWhatItRead fun _ => []) ⟨Sample.twoCalls, .empty⟩
        [.read 0 (Sample.reject "a"), .write 0, .read 1 (Sample.reject "b"), .write 1],
        r.1.map Prod.snd =
          [.waiting, .resolved (Sample.reject "a") true, .waiting, .resolved (Sample.reject "b") false] := by
    decide +kernel
  exact ⟨tr, s, htr, answersKept_of_run Sample.twoCalls_distinct (Machine.runIn_of_exec hm)⟩

/-- **Two rejections at the same time**: the output of the first is written over. -/
theorem not_answersKept : ¬ ∀ (dumps : Json → Text) (output : List PyDict) (s : ToolMessage)
    (tr : List (ResolveStep × ResolveAnswer)), CallsDistinct output →
    (resolveMachine dumps).Run ⟨output, .empty⟩ tr s → AnswersKept tr s.output := by
  intro h
  obtain ⟨⟨tr, s⟩, hm, hmem, hlost⟩ :
      ∃ r ∈ (resolveMachine fun _ => []).exec (fun _ _ => True) ⟨Sample.twoCalls, .empty⟩
        [.read 0 (Sample.reject "a"), .read 1 (Sample.reject "b"), .write 0, .write 1],
        .resolved (Sample.reject "a") true ∈ r.1.map Prod.snd ∧
          ∀ item ∈ r.2.output, ¬ isOutputOf (.lit "a") item := by
    decide +kernel
  have hkept := h _ _ s tr Sample.twoCalls_distinct (Machine.runIn_of_exec hm)
  obtain ⟨item, hitem, hout⟩ := hkept.answered _ _ hmem (by decide)
  exact hlost item hitem hout

end TideBot
