/-
  Tool calls and their results in a conversation of any messages (`utils/misc.py`,
  `reconcile_tool_pairs`).

  A message is a dictionary with any values.  An id is hashed, so that a list or a dictionary for an id
  raises, as does a call of an assistant that is no dictionary; what raises is `none`.
-/
import TideBot.Chat.AnthropicStream
import TideBot.Chat.Rows
import TideBot.Lib.Mapping

namespace TideBot

open Lib

namespace ToolPairs

/-- `message.get('role') == role` -/
def isRole (message : PyDict) (role : String) : Bool := (message.fetch "role").eqStr (.lit role)

/-- What a loop over `message.get('tool_calls') or ()` goes through. -/
def toolCalls (message : PyDict) : Option (List Json) :=
  if (message.fetch "tool_calls").truthy then (message.fetch "tool_calls").iter else some []

/-- `tool_call.get('id')`, as a member of a set. -/
def callKey (toolCall : Json) : Option Json := do hashKey (← toolCall.item "id")

/-- `completed_tool_call_ids` -/
def completedToolCallIds (messages : List PyDict) : Option (List Json) :=
  (messages.filter fun m => isRole m "tool" && (m.fetch "tool_call_id").truthy).mapM fun m =>
    hashKey (m.fetch "tool_call_id")

/-- The ids of one message in `requested_tool_call_ids`; the calls are gone through whatever its role. -/
def requestedBy (message : PyDict) : Option (List Json) := do
  let calls ← toolCalls message
  if isRole message "assistant" then
    let ids ← calls.mapM fun toolCall => toolCall.item "id"
    (ids.filter Json.truthy).mapM hashKey
  else return []

/-- `requested_tool_call_ids` -/
def requestedToolCallIds (messages : List PyDict) : Option (List Json) :=
  (messages.mapM requestedBy).map List.flatten

/-- `valid_tool_calls` -/
def validToolCalls (completed calls : List Json) : Option (List Json) :=
  if calls.all fun toolCall => (callKey toolCall).isSome then
    some (calls.filter fun toolCall => (callKey toolCall).any fun key => key ∈ completed)
  else none

variable (py : PyConv)

/-- `get_content_from_message` -/
def getContentFromMessage (message : PyDict) : Json :=
  let content := message.fetch "content"
  let outputText := getOutputText py (message.fetch "output")
  let fallback := if outputText ≠ [] then .str outputText else
    match content with
    | .str text => .str text
    | _ => .null
  match content with
  | .arr items =>
    match items.find? fun item => item.isObj && (item.get (.lit "type")).eqStr (.lit "text") with
    | some item => item.get (.lit "text")
    | none => fallback
  | _ => if content.truthy then content else fallback

/-- `has_meaningful_content` -/
def hasMeaningfulContent (message : PyDict) : Bool :=
  match (getContentFromMessage py message).or (.str []) with
  | .str content => content.strip ≠ []
  | content => content.truthy

/-- `role == 'tool' and message.get('tool_call_id') not in requested_tool_call_ids` -/
def isOrphan (requested : List Json) (message : PyDict) : Option Bool :=
  if isRole message "tool" then
    (hashKey (message.fetch "tool_call_id")).map fun key => decide (key ∉ requested)
  else some false

/-- What becomes of a message: one that is dropped is `some none`. -/
def reconcileMessage (requested completed : List Json) (message : PyDict) : Option (Option PyDict) := do
  if ← isOrphan requested message then return none
  if !isRole message "assistant" || !(message.fetch "tool_calls").truthy then return some message
  let valid ← validToolCalls completed (← (message.fetch "tool_calls").iter)
  if !valid.isEmpty then return some (message.put "tool_calls" (.arr valid))
  if hasMeaningfulContent py message || (message.fetch "reasoning_content").truthy then
    return some (message.erase (.lit "tool_calls"))
  return none

/-- `reconcile_tool_pairs` -/
def reconcileToolPairs (messages : List PyDict) : Option (List PyDict) := do
  let completed ← completedToolCallIds messages
  let requested ← requestedToolCallIds messages
  return (← messages.mapM (reconcileMessage py requested completed)).reduceOption

/-! ## What is a pair -/

/-- An assistant asks for the id, which is not empty. -/
def Requests (messages : List PyDict) (key : Json) : Prop :=
  ∃ m ∈ messages, isRole m "assistant" ∧ ∃ calls, toolCalls m = some calls ∧
    ∃ toolCall ∈ calls, ∃ id, toolCall.item "id" = some id ∧ id.truthy ∧ hashKey id = some key

/-- A tool message has the id, be it empty or not. -/
def Answers (messages : List PyDict) (key : Json) : Prop :=
  ∃ m ∈ messages, isRole m "tool" ∧ hashKey (m.fetch "tool_call_id") = some key

/-- Every call has an id that is not empty and is answered, and every tool message one that is requested. -/
structure Paired (messages : List PyDict) : Prop where
  answered : ∀ m ∈ messages, isRole m "assistant" → ∀ calls, toolCalls m = some calls →
    ∀ toolCall ∈ calls, ∃ key, callKey toolCall = some key ∧ key.truthy ∧ Answers messages key
  requested : ∀ m ∈ messages, isRole m "tool" →
    ∃ key, hashKey (m.fetch "tool_call_id") = some key ∧ Requests messages key

/-- What may become of a message: only calls are taken out of it, and only results and assistants that say nothing
    are dropped. -/
structure KeptAs (message : PyDict) (r : Option PyDict) : Prop where
  fields : ∀ m', r = some m' → ∀ key, key ≠ .lit "tool_calls" → m'.get key = message.get key
  others : ¬isRole message "tool" → ¬isRole message "assistant" → r = some message
  spoken : isRole message "assistant" → ∀ text, message.fetch "content" = .str text → text.strip ≠ [] → r.isSome

/-- The calls are a list, of dictionaries where an assistant makes them, and the ids hashable. -/
structure Readable (message : PyDict) : Prop where
  calls : (toolCalls message).isSome
  callIds : isRole message "assistant" → ∀ calls, toolCalls message = some calls →
    ∀ toolCall ∈ calls, (callKey toolCall).isSome
  resultId : isRole message "tool" → (hashKey (message.fetch "tool_call_id")).isSome

/-! ## The ids -/

variable {messages out : List PyDict} {requested completed : List Json} {m : PyDict} {r : Option PyDict} {key : Json}

theorem not_assistant_of_tool (h : isRole m "tool") : ¬isRole m "assistant" := by
  intro h'
  have hrole := (Json.eqStr_iff.1 h).symm.trans (Json.eqStr_iff.1 h')
  simp at hrole

theorem truthy_of_hashKey {id : Json} (h : hashKey id = some key) : key.truthy = id.truthy := by
  cases id with
  | null | int | str =>
    obtain rfl : _ = key := Option.some.inj h
    rfl
  | bool b =>
    obtain rfl : _ = key := Option.some.inj h
    cases b <;> rfl
  | float q =>
    obtain rfl : _ = key := Option.some.inj h
    rw [Json.canonical]
    split_ifs with hq
    · have hnum : (q.num : ℚ) = q := Rat.coe_int_num_of_den_eq_one (by simpa [Rat.isInt] using hq)
      rw [Json.truthy, Json.truthy, decide_eq_decide, ← hnum]
      simp
    · rfl
  | arr | obj => cases h

theorem callKey_eq_some {toolCall : Json} :
    callKey toolCall = some key ↔ ∃ id, toolCall.item "id" = some id ∧ hashKey id = some key := by
  rw [callKey, Option.bind_eq_bind, Option.bind_eq_some_iff]

theorem mem_completed_iff (h : completedToolCallIds messages = some completed) :
    key ∈ completed ↔ key.truthy ∧ Answers messages key := by
  simp only [mem_mapM_iff h, List.mem_filter, Bool.and_eq_true]
  constructor
  · rintro ⟨m, ⟨hm, htool, htruthy⟩, hkey⟩
    exact ⟨(truthy_of_hashKey hkey).trans htruthy, m, hm, htool, hkey⟩
  · rintro ⟨htruthy, m, hm, htool, hkey⟩
    exact ⟨m, ⟨hm, htool, (truthy_of_hashKey hkey).symm.trans htruthy⟩, hkey⟩

theorem Requests.truthy (h : Requests messages key) : key.truthy := by
  obtain ⟨-, -, -, -, -, -, -, id, -, htruthy, hkey⟩ := h
  exact (truthy_of_hashKey hkey).trans htruthy

theorem mem_requestedBy_iff {keys : List Json} (h : requestedBy m = some keys) :
    key ∈ keys ↔ isRole m "assistant" ∧ ∃ calls, toolCalls m = some calls ∧ ∃ toolCall ∈ calls,
      ∃ id, toolCall.item "id" = some id ∧ id.truthy ∧ hashKey id = some key := by
  obtain ⟨calls, hcalls, h⟩ := Option.bind_eq_some_iff.1 h
  by_cases hrole : isRole m "assistant"
  · rw [if_pos hrole] at h
    obtain ⟨ids, hids, h⟩ := Option.bind_eq_some_iff.1 h
    simp only [mem_mapM_iff h, List.mem_filter, mem_mapM_iff hids, hrole, hcalls, true_and, Option.some.injEq,
      exists_eq_left']
    constructor
    · rintro ⟨id, ⟨⟨toolCall, hmem, hid⟩, htruthy⟩, hkey⟩
      exact ⟨toolCall, hmem, id, hid, htruthy, hkey⟩
    · rintro ⟨toolCall, hmem, id, hid, htruthy, hkey⟩
      exact ⟨id, ⟨⟨toolCall, hmem, hid⟩, htruthy⟩, hkey⟩
  · rw [if_neg hrole] at h
    cases h
    simp [hrole]

theorem mem_requested_iff (h : requestedToolCallIds messages = some requested) :
    key ∈ requested ↔ Requests messages key := by
  obtain ⟨keys, hkeys, rfl⟩ := Option.map_eq_some_iff.1 h
  simp only [List.mem_flatten, mem_mapM_iff hkeys]
  constructor
  · rintro ⟨ks, ⟨m, hm, hks⟩, hkey⟩
    exact ⟨m, hm, (mem_requestedBy_iff hks).1 hkey⟩
  · rintro ⟨m, hm, hkey⟩
    obtain ⟨ks, hks⟩ := Option.isSome_iff_exists.1 (mapM_isSome_iff.1 (Option.isSome_of_eq_some hkeys) m hm)
    exact ⟨ks, ⟨m, hm, hks⟩, (mem_requestedBy_iff hks).2 hkey⟩

/-! ## One message -/

theorem toolCalls_of_not_truthy (h : (m.fetch "tool_calls").truthy = false) : toolCalls m = some [] :=
  if_neg (by simp [h])

theorem toolCalls_of_get {calls : List Json} (hget : m.get (.lit "tool_calls") = some (.arr calls))
    (hne : calls ≠ []) : toolCalls m = some calls := by
  rw [toolCalls, PyDict.fetch, hget, Option.getD_some, if_pos (by simpa [Json.truthy] using hne)]
  rfl

theorem toolCalls_put (m : PyDict) (calls : List Json) :
    toolCalls (m.put "tool_calls" (.arr calls)) = some calls := by
  rw [toolCalls, PyDict.fetch_put, if_pos rfl]
  cases calls <;> rfl

theorem toolCalls_erase (m : PyDict) : toolCalls (m.erase (.lit "tool_calls")) = some [] :=
  toolCalls_of_not_truthy (by simp [PyDict.fetch, Json.truthy])

theorem isRole_put (m : PyDict) (calls : Json) (role : String) :
    isRole (m.put "tool_calls" calls) role = isRole m role := by
  rw [isRole, PyDict.fetch_put, if_neg (by decide), isRole]

theorem isRole_erase (m : PyDict) (role : String) : isRole (m.erase (.lit "tool_calls")) role = isRole m role := by
  rw [isRole, PyDict.fetch, Dict.get_erase_of_ne _ (by simp), isRole, PyDict.fetch]

theorem validToolCalls_eq_some {calls valid : List Json} (h : validToolCalls completed calls = some valid) :
    (∀ toolCall ∈ calls, (callKey toolCall).isSome) ∧
      ∀ toolCall, toolCall ∈ valid ↔ toolCall ∈ calls ∧ ∃ key ∈ completed, callKey toolCall = some key := by
  rw [validToolCalls] at h
  split_ifs at h with hall
  obtain rfl := Option.some.inj h
  refine ⟨List.all_eq_true.1 hall, fun toolCall => ?_⟩
  rw [List.mem_filter, Option.any_eq_true]
  simp only [decide_eq_true_eq, and_comm]

theorem calls_are_list {calls : List Json} (htruthy : (m.fetch "tool_calls").truthy)
    (hcalls : (m.fetch "tool_calls").iter = some calls) (hkeys : ∀ toolCall ∈ calls, (callKey toolCall).isSome) :
    m.get (.lit "tool_calls") = some (.arr calls) ∧ calls ≠ [] := by
  have hnone : ∀ s : Text, (callKey (.str s)).isSome = false := fun s => rfl
  rw [PyDict.fetch] at htruthy hcalls
  rcases hget : m.get (.lit "tool_calls") with _ | v
  · rw [hget] at htruthy
    cases htruthy
  rw [hget, Option.getD_some] at htruthy hcalls
  cases v with
  | arr items =>
    obtain rfl := Option.some.inj hcalls
    refine ⟨rfl, ?_⟩
    rintro rfl
    cases htruthy
  | obj fields =>
    obtain rfl := Option.some.inj hcalls
    cases fields with
    | nil => cases htruthy
    | cons f fields => simp [hnone] at hkeys
  | str s =>
    obtain rfl := Option.some.inj hcalls
    cases s with
    | nil => cases htruthy
    | cons c s => simp [hnone] at hkeys
  | null | bool | int | float => cases hcalls

/-- What can become of a message: a result is kept iff it is requested; what has no calls and is no result is
    kept; of an assistant's calls those that are completed are, and it without them if it says something. -/
theorem reconcileMessage_cases (h : reconcileMessage py requested completed m = some r) :
    (isRole m "tool" ∧ ∃ key, hashKey (m.fetch "tool_call_id") = some key ∧
      r = if key ∈ requested then some m else none) ∨
    (¬isRole m "tool" ∧ (isRole m "assistant" → (m.fetch "tool_calls").truthy = false) ∧ r = some m) ∨
    (isRole m "assistant" ∧ ∃ calls valid, m.get (.lit "tool_calls") = some (.arr calls) ∧ calls ≠ [] ∧
      validToolCalls completed calls = some valid ∧
      ((valid ≠ [] ∧ r = some (m.put "tool_calls" (.arr valid))) ∨
        (valid = [] ∧ r = if hasMeaningfulContent py m || (m.fetch "reasoning_content").truthy then
          some (m.erase (.lit "tool_calls")) else none))) := by
  rw [reconcileMessage] at h
  obtain ⟨orphan, horphan, h⟩ := Option.bind_eq_some_iff.1 h
  rw [isOrphan] at horphan
  by_cases htool : isRole m "tool"
  · left
    rw [if_pos htool] at horphan
    obtain ⟨key, hkey, rfl⟩ := Option.map_eq_some_iff.1 horphan
    refine ⟨htool, key, hkey, ?_⟩
    by_cases hmem : key ∈ requested
    · rw [if_pos hmem]
      simpa [hmem, not_assistant_of_tool htool, eq_comm] using h
    · rw [if_neg hmem]
      simpa [hmem, eq_comm] using h
  right
  rw [if_neg htool] at horphan
  obtain rfl := Option.some.inj horphan
  rw [if_neg (by simp)] at h
  by_cases hcalls : isRole m "assistant" ∧ (m.fetch "tool_calls").truthy
  · right
    rw [if_neg (by simp [hcalls.1, hcalls.2])] at h
    obtain ⟨calls, hiter, h⟩ := Option.bind_eq_some_iff.1 h
    obtain ⟨valid, hvalid, h⟩ := Option.bind_eq_some_iff.1 h
    obtain ⟨hget, hne⟩ := calls_are_list hcalls.2 hiter (validToolCalls_eq_some hvalid).1
    refine ⟨hcalls.1, calls, valid, hget, hne, hvalid, ?_⟩
    cases valid with
    | nil =>
      refine .inr ⟨rfl, ?_⟩
      rw [if_neg (by simp)] at h
      split_ifs at h with hcontent
      · rw [if_pos hcontent]
        exact (Option.some.inj h).symm
      · rw [if_neg hcontent]
        exact (Option.some.inj h).symm
    | cons c valid => exact .inl ⟨by simp, (Option.some.inj h).symm⟩
  · left
    refine ⟨htool, fun hrole => by simpa [hrole] using hcalls, ?_⟩
    rw [if_pos (by simpa [imp_iff_not_or] using hcalls)] at h
    exact (Option.some.inj h).symm

/-- A message that is kept has its role, its fields except the calls, and of the calls those that are completed. -/
theorem kept_of_reconcileMessage {m' : PyDict} (h : reconcileMessage py requested completed m = some (some m')) :
    (∀ role, isRole m' role = isRole m role) ∧
      (∀ key, key ≠ .lit "tool_calls" → m'.get key = m.get key) ∧
      (isRole m "assistant" → ∃ calls, toolCalls m' = some calls ∧ ∀ toolCall ∈ calls,
        (∃ calls₀, toolCalls m = some calls₀ ∧ toolCall ∈ calls₀) ∧
          ∃ key ∈ completed, callKey toolCall = some key) := by
  obtain ⟨htool, key, -, hr⟩ | ⟨-, hcalls, hr⟩ | ⟨hrole, calls, valid, hget, hne, hvalid, hr⟩ :=
    reconcileMessage_cases py h
  · split_ifs at hr
    obtain rfl := Option.some.inj hr
    exact ⟨fun _ => rfl, fun _ _ => rfl, fun hrole => absurd hrole (not_assistant_of_tool htool)⟩
  · obtain rfl := Option.some.inj hr
    exact ⟨fun _ => rfl, fun _ _ => rfl, fun hrole => ⟨[], toolCalls_of_not_truthy (hcalls hrole), by simp⟩⟩
  · have hcalls : toolCalls m = some calls := toolCalls_of_get hget hne
    obtain ⟨-, hr⟩ | ⟨-, hr⟩ := hr
    · obtain rfl := Option.some.inj hr
      refine ⟨isRole_put m _, fun key hkey => Dict.get_set_of_ne _ hkey, fun _ => ⟨valid, toolCalls_put m valid, ?_⟩⟩
      intro toolCall hmem
      obtain ⟨hmem, hkey⟩ := ((validToolCalls_eq_some hvalid).2 toolCall).1 hmem
      exact ⟨⟨calls, hcalls, hmem⟩, hkey⟩
    · split_ifs at hr
      obtain rfl := Option.some.inj hr
      exact ⟨isRole_erase m, fun key hkey => Dict.get_erase_of_ne _ hkey,
        fun _ => ⟨[], toolCalls_erase m, by simp⟩⟩

theorem call_kept {calls : List Json} {toolCall : Json} (h : reconcileMessage py requested completed m = some r)
    (hrole : isRole m "assistant") (hcalls : toolCalls m = some calls) (hmem : toolCall ∈ calls)
    (hkey : callKey toolCall = some key) (hcompleted : key ∈ completed) :
    ∃ m', r = some m' ∧ isRole m' "assistant" ∧ ∃ calls', toolCalls m' = some calls' ∧ toolCall ∈ calls' := by
  obtain ⟨htool, -⟩ | ⟨-, hnone, -⟩ | ⟨-, calls₀, valid, hget, hne, hvalid, hr⟩ := reconcileMessage_cases py h
  · exact absurd hrole (not_assistant_of_tool htool)
  · rw [toolCalls_of_not_truthy (hnone hrole)] at hcalls
    obtain rfl := Option.some.inj hcalls
    cases hmem
  · rw [toolCalls_of_get hget hne] at hcalls
    obtain rfl : calls₀ = calls := Option.some.inj hcalls
    have hin : toolCall ∈ valid := ((validToolCalls_eq_some hvalid).2 toolCall).2 ⟨hmem, key, hcompleted, hkey⟩
    obtain ⟨-, rfl⟩ | ⟨rfl, -⟩ := hr
    · exact ⟨_, rfl, (isRole_put m _ _).trans hrole, valid, toolCalls_put m valid, hin⟩
    · cases hin

/-- A message stays as it is iff, of an assistant, every call is completed, and of a result, it is requested. -/
theorem unchanged_iff (h : reconcileMessage py requested completed m = some r) :
    r = some m ↔
      (isRole m "assistant" → ∀ calls, toolCalls m = some calls →
        ∀ toolCall ∈ calls, ∃ key ∈ completed, callKey toolCall = some key) ∧
      (isRole m "tool" → ∃ key ∈ requested, hashKey (m.fetch "tool_call_id") = some key) := by
  obtain ⟨htool, key, hkey, rfl⟩ | ⟨htool, hnone, rfl⟩ | ⟨hrole, calls, valid, hget, hne, hvalid, hr⟩ :=
    reconcileMessage_cases py h
  · have hrole := not_assistant_of_tool htool
    simp [htool, hrole, hkey]
  · simp only [htool, true_iff]
    refine ⟨fun hrole calls hcalls toolCall hmem => ?_, by simp⟩
    rw [toolCalls_of_not_truthy (hnone hrole)] at hcalls
    obtain rfl := Option.some.inj hcalls
    cases hmem
  · have htool : isRole m "tool" = false := by
      rw [Bool.eq_false_iff]
      exact fun htool => not_assistant_of_tool htool hrole
    have hcalls : toolCalls m = some calls := toolCalls_of_get hget hne
    have hall : (∀ toolCall ∈ calls, ∃ key ∈ completed, callKey toolCall = some key) ↔ valid = calls := by
      rw [validToolCalls] at hvalid
      split_ifs at hvalid
      rw [← Option.some.inj hvalid, List.filter_eq_self]
      simp only [Option.any_eq_true, decide_eq_true_eq, and_comm]
    simp only [htool, hrole, hcalls, Option.some.injEq, forall_eq', true_implies, hall, Bool.false_eq_true,
      false_implies, and_true]
    obtain ⟨-, rfl⟩ | ⟨rfl, rfl⟩ := hr
    · constructor
      · intro heq
        have hgets := congrArg (fun d : PyDict => d.get (.lit "tool_calls")) (Option.some.inj heq)
        simpa [PyDict.put, hget] using hgets
      · rintro rfl
        rw [PyDict.put, Dict.set_get_self hget]
    · constructor
      · intro heq
        split_ifs at heq
        have hgets := congrArg (fun d : PyDict => d.get (.lit "tool_calls")) (Option.some.inj heq)
        simp [hget] at hgets
      · exact fun heq => absurd heq.symm hne

/-! ## The whole list -/

theorem reconcileToolPairs_eq_some_iff :
    reconcileToolPairs py messages = some out ↔
      ∃ completed requested kept, completedToolCallIds messages = some completed ∧
        requestedToolCallIds messages = some requested ∧
        messages.mapM (reconcileMessage py requested completed) = some kept ∧ kept.reduceOption = out := by
  simp only [reconcileToolPairs, Option.bind_eq_bind, Option.bind_eq_some_iff, Option.pure_def, Option.some.injEq]
  constructor
  · rintro ⟨completed, hc, requested, hr, kept, hk, rfl⟩
    exact ⟨completed, requested, kept, hc, hr, hk, rfl⟩
  · rintro ⟨completed, requested, kept, hc, hr, hk, rfl⟩
    exact ⟨completed, hc, requested, hr, kept, hk, rfl⟩

theorem mem_out_iff {kept : List (Option PyDict)} {m' : PyDict}
    (h : messages.mapM (reconcileMessage py requested completed) = some kept) :
    m' ∈ kept.reduceOption ↔ ∃ m ∈ messages, reconcileMessage py requested completed m = some (some m') := by
  rw [List.reduceOption_mem_iff, mem_mapM_iff h]

theorem requests_iff (h : reconcileToolPairs py messages = some out) :
    Requests out key ↔ Requests messages key ∧ Answers messages key := by
  obtain ⟨completed, requested, kept, hcompleted, -, hkept, rfl⟩ := (reconcileToolPairs_eq_some_iff py).1 h
  constructor
  · rintro ⟨m', hm', hrole, calls', hcalls', toolCall, hmem, id, hid, htruthy, hkey⟩
    obtain ⟨m, hm, hr⟩ := (mem_out_iff py hkept).1 hm'
    obtain ⟨hroles, -, hcalls⟩ := kept_of_reconcileMessage py hr
    rw [hroles] at hrole
    obtain ⟨calls, hcalls, hall⟩ := hcalls hrole
    obtain rfl := Option.some.inj (hcalls.symm.trans hcalls')
    obtain ⟨⟨calls₀, hcalls₀, hmem₀⟩, key', hcomplete, hkey'⟩ := hall toolCall hmem
    obtain rfl := Option.some.inj (hkey'.symm.trans (callKey_eq_some.2 ⟨id, hid, hkey⟩))
    exact ⟨⟨m, hm, hrole, calls₀, hcalls₀, toolCall, hmem₀, id, hid, htruthy, hkey⟩,
      ((mem_completed_iff hcompleted).1 hcomplete).2⟩
  · rintro ⟨hrequests, hanswers⟩
    have hcomplete := (mem_completed_iff hcompleted).2 ⟨hrequests.truthy, hanswers⟩
    obtain ⟨m, hm, hrole, calls, hcalls, toolCall, hmem, id, hid, htruthy, hkey⟩ := hrequests
    obtain ⟨r, hr⟩ := Option.isSome_iff_exists.1 (mapM_isSome_iff.1 (Option.isSome_of_eq_some hkept) m hm)
    obtain ⟨m', rfl, hrole', calls', hcalls', hmem'⟩ :=
      call_kept py hr hrole hcalls hmem (callKey_eq_some.2 ⟨id, hid, hkey⟩) hcomplete
    exact ⟨m', (mem_out_iff py hkept).2 ⟨m, hm, hr⟩, hrole', calls', hcalls', toolCall, hmem', id, hid, htruthy, hkey⟩

theorem answers_iff (h : reconcileToolPairs py messages = some out) :
    Answers out key ↔ Requests messages key ∧ Answers messages key := by
  obtain ⟨completed, requested, kept, -, hrequested, hkept, rfl⟩ := (reconcileToolPairs_eq_some_iff py).1 h
  constructor
  · rintro ⟨m', hm', htool', hkey⟩
    obtain ⟨m, hm, hr⟩ := (mem_out_iff py hkept).1 hm'
    have htool : isRole m "tool" := by rwa [← (kept_of_reconcileMessage py hr).1]
    obtain ⟨-, key', hkey', hr⟩ | ⟨hnot, -⟩ | ⟨hrole, -⟩ := reconcileMessage_cases py hr
    · split_ifs at hr with hmem
      obtain rfl := Option.some.inj hr
      obtain rfl := Option.some.inj (hkey.symm.trans hkey')
      exact ⟨(mem_requested_iff hrequested).1 hmem, m', hm, htool, hkey⟩
    · exact absurd htool hnot
    · exact absurd hrole (not_assistant_of_tool htool)
  · rintro ⟨hrequests, m, hm, htool, hkey⟩
    obtain ⟨r, hr⟩ := Option.isSome_iff_exists.1 (mapM_isSome_iff.1 (Option.isSome_of_eq_some hkept) m hm)
    have hsame : r = some m := (unchanged_iff py hr).2
      ⟨fun hrole => absurd hrole (not_assistant_of_tool htool),
        fun _ => ⟨key, (mem_requested_iff hrequested).2 hrequests, hkey⟩⟩
    exact ⟨m, (mem_out_iff py hkept).2 ⟨m, hm, hsame ▸ hr⟩, htool, hkey⟩

theorem out_paired (h : reconcileToolPairs py messages = some out) : Paired out where
  answered := by
    intro m' hm' hrole calls' hcalls' toolCall hmem
    obtain ⟨completed, requested, kept, hcompleted, -, hkept, rfl⟩ := (reconcileToolPairs_eq_some_iff py).1 h
    obtain ⟨m, hm, hr⟩ := (mem_out_iff py hkept).1 hm'
    obtain ⟨hroles, -, hcalls⟩ := kept_of_reconcileMessage py hr
    obtain ⟨calls, hcalls, hall⟩ := hcalls (hroles _ ▸ hrole)
    obtain rfl := Option.some.inj (hcalls.symm.trans hcalls')
    obtain ⟨-, key, hcomplete, hkey⟩ := hall toolCall hmem
    have htruthy := ((mem_completed_iff hcompleted).1 hcomplete).1
    obtain ⟨id, hid, hhash⟩ := callKey_eq_some.1 hkey
    have hrequests : Requests kept.reduceOption key :=
      ⟨m', hm', hrole, calls, hcalls, toolCall, hmem, id, hid, (truthy_of_hashKey hhash).symm.trans htruthy, hhash⟩
    exact ⟨key, hkey, htruthy, (answers_iff py h).2 ((requests_iff py h).1 hrequests)⟩
  requested := by
    intro m' hm' htool
    obtain ⟨completed, requested, kept, -, -, hkept, rfl⟩ := (reconcileToolPairs_eq_some_iff py).1 h
    obtain ⟨m, hm, hr⟩ := (mem_out_iff py hkept).1 hm'
    have htool₀ : isRole m "tool" := by rwa [← (kept_of_reconcileMessage py hr).1]
    obtain ⟨-, key, hkey, hr⟩ | ⟨hnot, -⟩ | ⟨hrole, -⟩ := reconcileMessage_cases py hr
    · split_ifs at hr
      obtain rfl := Option.some.inj hr
      exact ⟨key, hkey, (requests_iff py h).2 ((answers_iff py h).1 ⟨m', hm', htool, hkey⟩)⟩
    · exact absurd htool₀ hnot
    · exact absurd hrole (not_assistant_of_tool htool₀)

theorem out_eq_iff (h : reconcileToolPairs py messages = some out) : out = messages ↔ Paired messages := by
  refine ⟨fun heq => heq ▸ out_paired py h, fun hpaired => ?_⟩
  obtain ⟨completed, requested, kept, hcompleted, hrequested, hkept, rfl⟩ := (reconcileToolPairs_eq_some_iff py).1 h
  have hall : messages.mapM (reconcileMessage py requested completed) = some (messages.map some) := by
    rw [mapM_eq_some_iff, List.forall₂_map_right_iff, List.forall₂_same]
    intro m hm
    obtain ⟨r, hr⟩ := Option.isSome_iff_exists.1 (mapM_isSome_iff.1 (Option.isSome_of_eq_some hkept) m hm)
    have hsame : r = some m := by
      refine (unchanged_iff py hr).2 ⟨fun hrole calls hcalls toolCall hmem => ?_, fun htool => ?_⟩
      · obtain ⟨key, hkey, htruthy, hanswers⟩ := hpaired.answered m hm hrole calls hcalls toolCall hmem
        exact ⟨key, (mem_completed_iff hcompleted).2 ⟨htruthy, hanswers⟩, hkey⟩
      · obtain ⟨key, hkey, hrequests⟩ := hpaired.requested m hm htool
        exact ⟨key, (mem_requested_iff hrequested).2 hrequests, hkey⟩
    rw [hr, hsame]
  rw [← Option.some.inj (hall.symm.trans hkept), List.reduceOption, List.filterMap_map]
  exact List.filterMap_some

theorem requestedBy_isSome (h : Readable m) : (requestedBy m).isSome := by
  obtain ⟨calls, hcalls⟩ := Option.isSome_iff_exists.1 h.calls
  rw [requestedBy, hcalls, Option.bind_eq_bind, Option.bind_some]
  by_cases hrole : isRole m "assistant"
  · have hkeys := h.callIds hrole calls hcalls
    have hids : (calls.mapM fun toolCall : Json => toolCall.item "id").isSome := by
      refine mapM_isSome_iff.2 fun toolCall hmem => ?_
      obtain ⟨key, hkey⟩ := Option.isSome_iff_exists.1 (hkeys toolCall hmem)
      obtain ⟨id, hid, -⟩ := callKey_eq_some.1 hkey
      exact Option.isSome_of_eq_some hid
    obtain ⟨ids, hids⟩ := Option.isSome_iff_exists.1 hids
    rw [if_pos hrole, hids, Option.bind_some]
    refine mapM_isSome_iff.2 fun id hid => ?_
    obtain ⟨toolCall, hmem, hitem⟩ := (mem_mapM_iff hids).1 (List.mem_filter.1 hid).1
    obtain ⟨key, hkey⟩ := Option.isSome_iff_exists.1 (hkeys toolCall hmem)
    obtain ⟨id', hid', hhash⟩ := callKey_eq_some.1 hkey
    obtain rfl := Option.some.inj (hitem.symm.trans hid')
    exact Option.isSome_of_eq_some hhash
  · rw [if_neg hrole]
    rfl

theorem reconcileMessage_isSome (h : Readable m) : (reconcileMessage py requested completed m).isSome := by
  rw [reconcileMessage, isOrphan]
  by_cases htool : isRole m "tool"
  · obtain ⟨key, hkey⟩ := Option.isSome_iff_exists.1 (h.resultId htool)
    rw [if_pos htool, hkey]
    by_cases hmem : key ∈ requested <;> simp [hmem, not_assistant_of_tool htool]
  rw [if_neg htool, Option.bind_eq_bind, Option.bind_some, if_neg (by simp)]
  by_cases hcalls : isRole m "assistant" ∧ (m.fetch "tool_calls").truthy
  · obtain ⟨calls, hiter⟩ := Option.isSome_iff_exists.1 h.calls
    have hkeys := h.callIds hcalls.1 calls hiter
    rw [toolCalls, if_pos hcalls.2] at hiter
    have hvalid : (validToolCalls completed calls).isSome := by
      rw [validToolCalls, if_pos (List.all_eq_true.2 hkeys)]
      rfl
    obtain ⟨valid, hvalid⟩ := Option.isSome_iff_exists.1 hvalid
    rw [if_neg (by simp [hcalls.1, hcalls.2]), hiter, Option.bind_eq_bind, Option.bind_some,
      hvalid, Option.bind_some]
    split_ifs <;> rfl
  · rw [if_pos (by simpa [imp_iff_not_or] using hcalls)]
    rfl

theorem readable_of_reconcileMessage (h : reconcileMessage py requested completed m = some r)
    (hcalls : (toolCalls m).isSome) : Readable m where
  calls := hcalls
  callIds := by
    intro hrole calls hcalls toolCall hmem
    obtain ⟨htool, -⟩ | ⟨-, hnone, -⟩ | ⟨-, calls₀, valid, hget, hne, hvalid, -⟩ := reconcileMessage_cases py h
    · exact absurd hrole (not_assistant_of_tool htool)
    · rw [toolCalls_of_not_truthy (hnone hrole)] at hcalls
      obtain rfl := Option.some.inj hcalls
      cases hmem
    · obtain rfl := Option.some.inj ((toolCalls_of_get hget hne).symm.trans hcalls)
      exact (validToolCalls_eq_some hvalid).1 toolCall hmem
  resultId := by
    intro htool
    obtain ⟨-, key, hkey, -⟩ | ⟨hnot, -⟩ | ⟨hrole, -⟩ := reconcileMessage_cases py h
    · exact Option.isSome_of_eq_some hkey
    · exact absurd htool hnot
    · exact absurd hrole (not_assistant_of_tool htool)

theorem reconcileToolPairs_isSome_iff :
    (reconcileToolPairs py messages).isSome ↔ ∀ m ∈ messages, Readable m := by
  constructor
  · intro h m hm
    obtain ⟨out, hout⟩ := Option.isSome_iff_exists.1 h
    obtain ⟨completed, requested, kept, -, hrequested, hkept, -⟩ := (reconcileToolPairs_eq_some_iff py).1 hout
    obtain ⟨keys, hkeys, -⟩ := Option.map_eq_some_iff.1 hrequested
    obtain ⟨r, hr⟩ := Option.isSome_iff_exists.1 (mapM_isSome_iff.1 (Option.isSome_of_eq_some hkept) m hm)
    obtain ⟨ks, hks⟩ := Option.isSome_iff_exists.1 (mapM_isSome_iff.1 (Option.isSome_of_eq_some hkeys) m hm)
    obtain ⟨calls, hcalls, -⟩ := Option.bind_eq_some_iff.1 hks
    exact readable_of_reconcileMessage py hr (Option.isSome_of_eq_some hcalls)
  · intro h
    have hcompleted : (completedToolCallIds messages).isSome := by
      refine mapM_isSome_iff.2 fun m hm => ?_
      obtain ⟨hm, htool⟩ := List.mem_filter.1 hm
      exact (h m hm).resultId (Bool.and_eq_true _ _ ▸ htool).1
    have hrequested : (requestedToolCallIds messages).isSome := by
      rw [requestedToolCallIds, Option.isSome_map]
      exact mapM_isSome_iff.2 fun m hm => requestedBy_isSome (h m hm)
    obtain ⟨completed, hcompleted⟩ := Option.isSome_iff_exists.1 hcompleted
    obtain ⟨requested, hrequested⟩ := Option.isSome_iff_exists.1 hrequested
    have hkept : (messages.mapM (reconcileMessage py requested completed)).isSome :=
      mapM_isSome_iff.2 fun m hm => reconcileMessage_isSome py (h m hm)
    obtain ⟨kept, hkept⟩ := Option.isSome_iff_exists.1 hkept
    exact Option.isSome_of_eq_some
      ((reconcileToolPairs_eq_some_iff py).2 ⟨completed, requested, kept, hcompleted, hrequested, hkept, rfl⟩)

theorem reconcileToolPairs_out (h : reconcileToolPairs py messages = some out) :
    reconcileToolPairs py out = some out := by
  have hreadable := (reconcileToolPairs_isSome_iff py).1 (Option.isSome_of_eq_some h)
  have hpaired := out_paired py h
  have hout : ∀ m' ∈ out, Readable m' := by
    obtain ⟨completed, requested, kept, -, -, hkept, rfl⟩ := (reconcileToolPairs_eq_some_iff py).1 h
    intro m' hm'
    obtain ⟨m, hm, hr⟩ := (mem_out_iff py hkept).1 hm'
    obtain ⟨hroles, -, hcalls⟩ := kept_of_reconcileMessage py hr
    by_cases hrole : isRole m "assistant"
    · obtain ⟨calls, hcalls, hall⟩ := hcalls hrole
      have hrole' : isRole m' "assistant" := (hroles _).trans hrole
      refine ⟨Option.isSome_of_eq_some hcalls, fun _ calls' hcalls' toolCall hmem => ?_,
        fun htool => absurd hrole' (not_assistant_of_tool htool)⟩
      obtain rfl := Option.some.inj (hcalls.symm.trans hcalls')
      obtain ⟨-, key, -, hkey⟩ := hall toolCall hmem
      exact Option.isSome_of_eq_some hkey
    · obtain ⟨-, key, -, hr⟩ | ⟨-, -, hr⟩ | ⟨hassistant, -⟩ := reconcileMessage_cases py hr
      · split_ifs at hr
        obtain rfl := Option.some.inj hr
        exact hreadable m' hm
      · obtain rfl := Option.some.inj hr
        exact hreadable m' hm
      · exact absurd hassistant hrole
  obtain ⟨again, hagain⟩ := Option.isSome_iff_exists.1 ((reconcileToolPairs_isSome_iff py).2 hout)
  rw [hagain, (out_eq_iff py hagain).2 hpaired]

theorem hasMeaningfulContent_of_text {text : Text} (h : m.fetch "content" = .str text) (hblank : text.strip ≠ []) :
    hasMeaningfulContent py m := by
  have hne : text ≠ [] := by
    rintro rfl
    exact hblank rfl
  have hcontent : (getContentFromMessage py m).or (.str []) = .str text := by
    rw [getContentFromMessage, h]
    simp [Json.or, Json.truthy, hne]
  rw [hasMeaningfulContent, hcontent]
  exact decide_eq_true hblank

theorem keptAs_of_reconcileMessage (h : reconcileMessage py requested completed m = some r) : KeptAs m r where
  fields := by
    rintro m' rfl
    exact (kept_of_reconcileMessage py h).2.1
  others := by
    intro htool hrole
    exact (unchanged_iff py h).2 ⟨fun hrole' => absurd hrole' hrole, fun htool' => absurd htool' htool⟩
  spoken := by
    intro hrole text htext hblank
    obtain ⟨htool, -⟩ | ⟨-, -, rfl⟩ | ⟨-, calls, valid, -, -, -, hr⟩ := reconcileMessage_cases py h
    · exact absurd hrole (not_assistant_of_tool htool)
    · rfl
    · obtain ⟨-, rfl⟩ | ⟨-, rfl⟩ := hr
      · rfl
      · rw [if_pos (by simp [hasMeaningfulContent_of_text py htext hblank])]
        rfl

/-- **Tool pairs are reconciled in one pass.**  It returns iff it can read every message, and then the ids that are
    requested, none of them empty, are those that are answered; nothing changes a second time; nothing changes the
    first time iff every call has an id that is not empty and is answered, and every result such an id that is
    requested; and all it takes out are calls, results, and assistants that say nothing. -/
theorem reconcileToolPairs_exact (py : PyConv) (messages : List PyDict) :
    ((reconcileToolPairs py messages).isSome ↔ ∀ m ∈ messages, Readable m) ∧
    ∀ out, reconcileToolPairs py messages = some out →
      (∀ key, Requests out key ↔ Answers out key) ∧
      reconcileToolPairs py out = some out ∧
      (out = messages ↔ Paired messages) ∧
      ∃ kept : List (Option PyDict), kept.reduceOption = out ∧ List.Forall₂ KeptAs messages kept := by
  refine ⟨reconcileToolPairs_isSome_iff py, fun out h => ?_⟩
  refine ⟨fun key => (requests_iff py h).trans (answers_iff py h).symm, reconcileToolPairs_out py h,
    out_eq_iff py h, ?_⟩
  obtain ⟨completed, requested, kept, -, -, hkept, hout⟩ := (reconcileToolPairs_eq_some_iff py).1 h
  exact ⟨kept, hout, (mapM_eq_some_iff.1 hkept).imp fun m r hr => keptAs_of_reconcileMessage py hr⟩

/-- A message of an assistant that makes a call without an id. -/
def Sample.emptyCall : PyDict :=
  (PyDict.put .empty "role" (.str (.lit "assistant"))).put "tool_calls" (.arr [.obj [(.lit "id", .str [])]])

def Sample.emptyResult : PyDict :=
  (PyDict.put .empty "role" (.str (.lit "tool"))).put "tool_call_id" (.str [])

/-- A call and a result that both have the empty id are no pair: every call is answered by a result with its id,
    every result's id is that of a call, and yet both are dropped. -/
theorem reconcileToolPairs_empty_ids :
    (∀ m ∈ [Sample.emptyCall, Sample.emptyResult], isRole m "assistant" → ∀ calls, toolCalls m = some calls →
      ∀ toolCall ∈ calls, ∃ key, callKey toolCall = some key ∧
        Answers [Sample.emptyCall, Sample.emptyResult] key) ∧
    (∀ m ∈ [Sample.emptyCall, Sample.emptyResult], isRole m "tool" → ∃ key,
      hashKey (m.fetch "tool_call_id") = some key ∧ ∃ m' ∈ [Sample.emptyCall, Sample.emptyResult],
        isRole m' "assistant" ∧ ∃ calls, toolCalls m' = some calls ∧ ∃ toolCall ∈ calls, callKey toolCall = some key) ∧
    reconcileToolPairs Sample.noText [Sample.emptyCall, Sample.emptyResult] = some [] := by
  have hcalls : toolCalls Sample.emptyCall = some [.obj [(.lit "id", .str [])]] := by decide
  have hcall : isRole Sample.emptyCall "assistant" := by decide
  have hresult : isRole Sample.emptyResult "tool" := by decide
  refine ⟨?_, ?_, by decide⟩
  · intro m hm hrole calls hc toolCall hmem
    obtain rfl | rfl := List.mem_pair.1 hm
    · obtain rfl := Option.some.inj (hcalls.symm.trans hc)
      obtain rfl := List.mem_singleton.1 hmem
      exact ⟨.str [], by decide, Sample.emptyResult, by simp, hresult, by decide⟩
    · exact absurd hrole (not_assistant_of_tool hresult)
  · intro m hm htool
    obtain rfl | rfl := List.mem_pair.1 hm
    · exact absurd hcall (not_assistant_of_tool htool)
    · exact ⟨.str [], by decide, Sample.emptyCall, by simp, hcall, _, hcalls, _, List.mem_singleton_self _, by decide⟩

end ToolPairs

end TideBot
