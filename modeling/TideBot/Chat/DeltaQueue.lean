/-
  The deltas of a response, sent in batches (`utils/middleware.py`).

  A delta waits in `last_delta_data` until `delta_chunk_size` of them have come, or one of another kind.
  The next is appended to it if both are strings of one key.  If they are of one type and key and one of the two
  is no string, `queue_pending_delta_data` puts the next in its place, and what has waited is lost; such are the
  chunks that it gets without a key.  But for this (and for the empty dictionary, which is never sent) nothing is
  lost and nothing changes places (`sentEvents_batched_iff`).

  The types of events are strings, as `startswith` demands before they get here.  What is saved beside (the
  stream so far) is left out.
-/
import TideBot.Lib.Batching
import TideBot.Lib.PyJson

namespace TideBot

open Lib

/-- `event.get('type', '')` -/
def eventType (event : PyDict) : Text :=
  match event.fetch "type" with
  | .str type => type
  | _ => []

/-- `event_type.endswith('.delta')` -/
def isDelta (type : Text) : Bool := (Text.lit ".delta").isSuffixOf type

/-- The `delta` of an event, if it is a string. -/
def deltaText (event : PyDict) : Option Text :=
  match event.fetch "delta" with
  | .str text => some text
  | _ => none

/-- `get_response_delta_key`: the parts of the key in the form in which Python compares them -/
def getResponseDeltaKey (deltaData : PyDict) : Option (Text × List Json) :=
  let type := eventType deltaData
  if !(Text.lit "response.").isPrefixOf type || !isDelta type then none
  else some (type, ["item_id", "output_index", "content_index", "summary_index"].map fun field =>
    (deltaData.fetch field).canonical)

/-- `get_response_data_with_full_output_index`, after `prior` items -/
def withFullOutputIndex (prior : ℕ) (responseData : PyDict) : PyDict :=
  match (responseData.fetch "output_index").unbool with
  | .int n => if prior = 0 then responseData else responseData.put "output_index" (.int (n + prior))
  | _ => responseData

/-- `get_response_completion_event_data` -/
def getResponseCompletionEventData (event : PyDict) : PyDict :=
  match event.fetch "response" with
  | .obj response =>
    event.put "response" (.obj (["error", "id", "output", "usage"].filterMap fun key =>
      ((Json.obj response).field (.lit key)).map fun value => (Text.lit key, value)))
  | _ => event

/-! ## The queue -/

/-- The variables of the queue, and what has been sent. -/
structure DeltaQueue where
  sent : List PyDict
  deltaCount : ℕ
  lastDeltaData : Option PyDict
  lastDeltaType : Option Text
  lastDeltaKey : Option (Text × List Json)

def DeltaQueue.start : DeltaQueue := ⟨[], 0, none, none, none⟩

/-- `last_delta_data`, if it counts as true. -/
def DeltaQueue.pending (s : DeltaQueue) : Option PyDict := s.lastDeltaData.filter fun d => d.entries ≠ []

/-- `flush_pending_delta_data` -/
def flushPendingDeltaData (threshold : ℕ) (s : DeltaQueue) : DeltaQueue :=
  match s.pending with
  | some last => if threshold ≤ s.deltaCount then ⟨s.sent ++ [last], 0, none, none, none⟩ else s
  | none => s

/-- `queue_pending_delta_data`, before the count is compared. -/
def addPendingDeltaData (s : DeltaQueue) (deltaData : PyDict) (deltaType : Text) : DeltaQueue :=
  let deltaKey := getResponseDeltaKey deltaData
  let replace (s : DeltaQueue) : DeltaQueue := ⟨s.sent, s.deltaCount + 1, some deltaData, some deltaType, deltaKey⟩
  match s.pending with
  | some last =>
    match deltaText last, deltaText deltaData, decide (s.lastDeltaKey = deltaKey) with
    | some old, some new, true =>
      { s with lastDeltaData := some (last.put "delta" (.str (old ++ new))), deltaCount := s.deltaCount + 1 }
    | _, _, _ =>
      replace (if s.lastDeltaType ≠ some deltaType ∨ s.lastDeltaKey ≠ deltaKey then flushPendingDeltaData 0 s else s)
  | none => replace s

/-- `queue_pending_delta_data` -/
def queuePendingDeltaData (deltaChunkSize prior : ℕ) (s : DeltaQueue) (deltaData : PyDict) (deltaType : Text) :
    DeltaQueue :=
  let s := addPendingDeltaData s (withFullOutputIndex prior deltaData) deltaType
  if deltaChunkSize ≤ s.deltaCount then flushPendingDeltaData deltaChunkSize s else s

/-- `emit_response_completion_event` -/
def emitResponseCompletionEvent (deltaChunkSize prior : ℕ) (s : DeltaQueue) (responseData : PyDict) : DeltaQueue :=
  if isDelta (eventType responseData) then
    queuePendingDeltaData deltaChunkSize prior s responseData (eventType responseData)
  else
    let s := flushPendingDeltaData 0 s
    { s with sent := s.sent ++ [getResponseCompletionEventData (withFullOutputIndex prior responseData)] }

/-- The calls. -/
inductive DeltaCall where
  | queue (deltaData : PyDict) (deltaType : Text)
  | emit (responseData : PyDict)

def deltaStep (deltaChunkSize prior : ℕ) (s : DeltaQueue) : DeltaCall → DeltaQueue
  | .queue deltaData deltaType => queuePendingDeltaData deltaChunkSize prior s deltaData deltaType
  | .emit responseData => emitResponseCompletionEvent deltaChunkSize prior s responseData

/-- The queue after some calls. -/
def queueAfter (deltaChunkSize prior : ℕ) (calls : List DeltaCall) : DeltaQueue :=
  calls.foldl (deltaStep deltaChunkSize prior) .start

/-- What has been sent after some calls and the last flush. -/
def sentEvents (deltaChunkSize prior : ℕ) (calls : List DeltaCall) : List PyDict :=
  (flushPendingDeltaData 0 (queueAfter deltaChunkSize prior calls)).sent

/-! ## What is lost -/

/-- What a call queues, with its type. -/
def DeltaCall.queued (prior : ℕ) : DeltaCall → Option (PyDict × Text)
  | .queue deltaData deltaType => some (withFullOutputIndex prior deltaData, deltaType)
  | .emit responseData =>
    if isDelta (eventType responseData) then
      some (withFullOutputIndex prior responseData, eventType responseData)
    else none

/-- The event that a call is for. -/
def DeltaCall.event (prior : ℕ) : DeltaCall → PyDict
  | .queue deltaData _ => withFullOutputIndex prior deltaData
  | .emit responseData =>
    if isDelta (eventType responseData) then withFullOutputIndex prior responseData
    else getResponseCompletionEventData (withFullOutputIndex prior responseData)

/-- What waits is of the type and key of `d`, and the two are not both strings. -/
def DeltaQueue.Clashes (s : DeltaQueue) (d : PyDict) (type : Text) : Prop :=
  ∃ last ∈ s.pending, s.lastDeltaType = some type ∧ s.lastDeltaKey = getResponseDeltaKey d ∧
    (deltaText last = none ∨ deltaText d = none)

/-- What waits is the empty string, for the key of a string that was sent last. -/
def DeltaQueue.Spare (s : DeltaQueue) : Prop :=
  ∃ last ∈ s.pending, deltaText last = some [] ∧
    ∃ x ∈ s.sent.getLast?, (deltaText x).isSome ∧ getResponseDeltaKey x = getResponseDeltaKey last

/-- What is queued is not empty, and does not clash with something that waits. -/
def DeltaQueue.Accepts (prior : ℕ) (s : DeltaQueue) (call : DeltaCall) : Prop :=
  ∀ d type, call.queued prior = some (d, type) → d.entries ≠ [] ∧ (s.Clashes d type → s.Spare)

/-- The events as batches see them. -/
def responseDeltas : Deltas PyDict (Option (Text × List Json)) CodePoint := ⟨getResponseDeltaKey, deltaText⟩

section
variable {threshold deltaChunkSize prior : ℕ} {s : DeltaQueue} {d last : PyDict} {type old new : Text}
variable {call : DeltaCall} {calls : List DeltaCall} {events : List PyDict}

/-! ## Steps of the queue -/

/-- What has been sent, and what waits. -/
def DeltaQueue.out (s : DeltaQueue) : List PyDict := s.sent ++ s.pending.toList

theorem out_of_pending (h : last ∈ s.pending) : s.out = s.sent ++ [last] := by
  rw [DeltaQueue.out, Option.mem_def.1 h, Option.toList_some]

/-- The key is that of what waits. -/
def DeltaQueue.Keyed (s : DeltaQueue) : Prop := ∀ last ∈ s.pending, s.lastDeltaKey = getResponseDeltaKey last

/-- What is put into the queue, if it counts as true. -/
def waiting (d : PyDict) : List PyDict := if d.entries = [] then [] else [d]

theorem flushPendingDeltaData_cases (threshold : ℕ) (s : DeltaQueue) :
    flushPendingDeltaData threshold s = s ∨
      (flushPendingDeltaData threshold s).pending = none ∧ (flushPendingDeltaData threshold s).sent = s.out := by
  rw [flushPendingDeltaData]
  cases hpending : s.pending with
  | none => exact .inl rfl
  | some last =>
    dsimp only
    split_ifs
    · exact .inr ⟨rfl, by simp [DeltaQueue.out, hpending]⟩
    · exact .inl rfl

@[simp] theorem out_flushPendingDeltaData : (flushPendingDeltaData threshold s).out = s.out := by
  obtain h | ⟨hpending, hsent⟩ := flushPendingDeltaData_cases threshold s
  · rw [h]
  · rw [DeltaQueue.out, hpending, hsent, Option.toList_none, List.append_nil]

theorem DeltaQueue.Keyed.flush (h : s.Keyed) : (flushPendingDeltaData threshold s).Keyed := by
  obtain hs | ⟨hpending, -⟩ := flushPendingDeltaData_cases threshold s
  · rwa [hs]
  · intro last hlast
    rw [hpending] at hlast
    cases hlast

theorem flushPendingDeltaData_zero : (flushPendingDeltaData 0 s).pending = none ∧
    (flushPendingDeltaData 0 s).sent = s.out := by
  obtain h | h := flushPendingDeltaData_cases 0 s
  · rw [h]
    cases hpending : s.pending with
    | none => exact ⟨rfl, by simp [DeltaQueue.out, hpending]⟩
    | some last =>
      rw [flushPendingDeltaData, hpending] at h
      rw [← h] at hpending
      cases hpending
  · exact h

theorem toList_filter_some : ((some d).filter fun d => d.entries ≠ []).toList = waiting d := by
  by_cases h : d.entries = [] <;> simp [waiting, h]

/-- What becomes of what waits, if `d` is queued. -/
inductive Added (s : DeltaQueue) (d : PyDict) (type : Text) (s' : DeltaQueue) : Prop
  | joined {last : PyDict} {old new : Text} : last ∈ s.pending → deltaText last = some old → deltaText d = some new →
      getResponseDeltaKey d = getResponseDeltaKey last →
      s'.out = s.sent ++ [last.put "delta" (.str (old ++ new))] → Added s d type s'
  | replaced : s.Clashes d type → s'.out = s.sent ++ waiting d → Added s d type s'
  | appended : ¬ s.Clashes d type → s'.out = s.out ++ waiting d → Added s d type s'

@[simp] theorem deltaText_put : deltaText (d.put "delta" (.str new)) = some new := by
  rw [deltaText, PyDict.fetch_put, if_pos rfl]

@[simp] theorem getResponseDeltaKey_put {value : Json} :
    getResponseDeltaKey (d.put "delta" value) = getResponseDeltaKey d := by
  simp [getResponseDeltaKey, eventType, PyDict.fetch_put]

theorem entries_put_ne_nil {key : String} {value : Json} : (d.put key value).entries ≠ [] := by
  intro h
  have hget : (d.put key value).get (.lit key) = some value := by rw [PyDict.get_put, if_pos rfl]
  rw [Dict.get, h] at hget
  cases hget

theorem addPendingDeltaData_added (hkeyed : s.Keyed) (d : PyDict) (type : Text) :
    Added s d type (addPendingDeltaData s d type) ∧ (addPendingDeltaData s d type).Keyed := by
  have hreplace : ∀ s' : DeltaQueue, (DeltaQueue.mk s'.sent (s'.deltaCount + 1) (some d) (some type)
      (getResponseDeltaKey d)).Keyed := by
    intro s' last hlast
    obtain ⟨heq, -⟩ := Option.filter_eq_some_iff.1 hlast
    cases heq
    rfl
  rw [addPendingDeltaData]
  cases hpending : s.pending with
  | none =>
    refine ⟨.appended ?_ ?_, hreplace s⟩
    · rintro ⟨last, hlast, -⟩
      rw [hpending] at hlast
      cases hlast
    · rw [DeltaQueue.out, DeltaQueue.out, hpending, Option.toList_none, List.append_nil]
      exact congrArg _ toList_filter_some
  | some last =>
    have hkey := hkeyed last hpending
    dsimp only
    split
    next old new hold hnew hsame =>
      have hput : (some (last.put "delta" (.str (old ++ new)))).filter (fun d => d.entries ≠ []) =
          some (last.put "delta" (.str (old ++ new))) := by
        rw [Option.filter_some_pos (by simpa using entries_put_ne_nil)]
      refine ⟨.joined hpending hold hnew ((of_decide_eq_true hsame).symm.trans hkey) ?_, ?_⟩
      · rw [DeltaQueue.out, DeltaQueue.pending, hput]
        rfl
      · intro last' hlast'
        rw [DeltaQueue.pending, hput] at hlast'
        cases hlast'
        rw [getResponseDeltaKey_put]
        exact hkey
    next hjoin =>
      refine ⟨?_, hreplace _⟩
      by_cases hother : s.lastDeltaType ≠ some type ∨ s.lastDeltaKey ≠ getResponseDeltaKey d
      · rw [if_pos hother]
        refine .appended ?_ ?_
        · rintro ⟨-, -, htype, hsame, -⟩
          exact hother.elim (· htype) (· hsame)
        · rw [DeltaQueue.out, flushPendingDeltaData_zero.2]
          exact congrArg _ toList_filter_some
      · rw [if_neg hother]
        rw [not_or, not_not, not_not] at hother
        refine .replaced ⟨last, hpending, hother.1, hother.2, ?_⟩ (congrArg _ toList_filter_some)
        cases hold : deltaText last with
        | none => exact .inl rfl
        | some old =>
          cases hnew : deltaText d with
          | none => exact .inr rfl
          | some new => exact (hjoin old new hold hnew (decide_eq_true hother.2)).elim

theorem queuePendingDeltaData_added (hkeyed : s.Keyed) (deltaChunkSize prior : ℕ) (d : PyDict) (type : Text) :
    Added s (withFullOutputIndex prior d) type (queuePendingDeltaData deltaChunkSize prior s d type) ∧
      (queuePendingDeltaData deltaChunkSize prior s d type).Keyed := by
  obtain ⟨hadded, hkeyed'⟩ := addPendingDeltaData_added hkeyed (withFullOutputIndex prior d) type
  rw [queuePendingDeltaData]
  split_ifs
  · refine ⟨?_, hkeyed'.flush⟩
    cases hadded with
    | joined hlast hold hnew hkey hout =>
      exact .joined hlast hold hnew hkey (out_flushPendingDeltaData.trans hout)
    | replaced hclash hout => exact .replaced hclash (out_flushPendingDeltaData.trans hout)
    | appended hclash hout => exact .appended hclash (out_flushPendingDeltaData.trans hout)
  · exact ⟨hadded, hkeyed'⟩

theorem deltaStep_cases (hkeyed : s.Keyed) (deltaChunkSize prior : ℕ) (call : DeltaCall) :
    (deltaStep deltaChunkSize prior s call).Keyed ∧
    ((∃ d type, call.queued prior = some (d, type) ∧ call.event prior = d ∧
        Added s d type (deltaStep deltaChunkSize prior s call)) ∨
      call.queued prior = none ∧ (deltaStep deltaChunkSize prior s call).out = s.out ++ [call.event prior]) := by
  cases call with
  | queue d type =>
    obtain ⟨hadded, hkeyed'⟩ := queuePendingDeltaData_added hkeyed deltaChunkSize prior d type
    exact ⟨hkeyed', .inl ⟨_, _, rfl, rfl, hadded⟩⟩
  | emit d =>
    rw [deltaStep, emitResponseCompletionEvent, DeltaCall.queued, DeltaCall.event]
    split_ifs
    · obtain ⟨hadded, hkeyed'⟩ := queuePendingDeltaData_added hkeyed deltaChunkSize prior d (eventType d)
      exact ⟨hkeyed', .inl ⟨_, _, rfl, rfl, hadded⟩⟩
    · obtain ⟨hpending, hsent⟩ := flushPendingDeltaData_zero (s := s)
      refine ⟨?_, .inr ⟨rfl, ?_⟩⟩
      · intro last hlast
        rw [DeltaQueue.pending] at hpending
        rw [DeltaQueue.pending, hpending] at hlast
        cases hlast
      · rw [DeltaQueue.pending] at hpending
        rw [DeltaQueue.out, DeltaQueue.pending, hpending, Option.toList_none, List.append_nil, ← hsent]

/-! ## Nothing is lost -/

theorem deltaStep_batched (hkeyed : s.Keyed) (h : responseDeltas.Batched s.out events)
    (haccepts : s.Accepts prior call) :
    responseDeltas.Batched (deltaStep deltaChunkSize prior s call).out (events ++ [call.event prior]) := by
  obtain ⟨-, ⟨d, type, hqueued, hevent, hadded⟩ | ⟨-, hout⟩⟩ :=
    deltaStep_cases hkeyed deltaChunkSize prior call
  · obtain ⟨hne, hspare⟩ := haccepts d type hqueued
    have hwaiting : waiting d = [d] := if_neg hne
    rw [hevent]
    cases hadded with
    | joined hlast hold hnew hkey hout =>
      rw [out_of_pending hlast] at h
      rw [hout]
      exact h.extend hold hnew deltaText_put hkey getResponseDeltaKey_put
    | replaced hclash hout =>
      obtain ⟨last, hlast, hempty, x, hx, htext, hkey⟩ := hspare hclash
      obtain ⟨text, htext⟩ := Option.isSome_iff_exists.1 htext
      obtain ⟨sent, hsent⟩ := List.getLast?_eq_some_iff.1 hx
      rw [out_of_pending hlast, hsent] at h
      rw [hout, hsent, hwaiting]
      exact (h.absorb htext hempty hkey.symm).single
    | appended hclash hout =>
      rw [hout, hwaiting]
      exact h.single
  · rw [hout]
    exact h.single

theorem text_of_entries_nil (hempty : d.entries = []) : responseDeltas.text d = none := by
  show deltaText d = none
  simp [deltaText, PyDict.fetch, Dict.get, hempty]

theorem weight_waiting (sent : List PyDict) (d : PyDict)
    (hcovers : responseDeltas.Covers sent.getLast? events.getLast?) :
    responseDeltas.weight none (sent ++ waiting d) + (if d.entries = [] then 1 else 0) ≤
      responseDeltas.weight none sent + responseDeltas.cost events.getLast? d := by
  rw [waiting]
  split_ifs with hempty
  · rw [List.append_nil, Deltas.cost_none (text_of_entries_nil hempty)]
  · rw [Deltas.weight_snoc, Option.or_none]
    have := hcovers.cost_le (a := d)
    omega

theorem covers_waiting {sent : List PyDict} :
    responseDeltas.Covers (sent ++ waiting d).getLast? (some d) := by
  rw [waiting]
  split_ifs with hempty
  · rintro b ⟨⟩ hb
    rw [text_of_entries_nil hempty] at hb
    cases hb
  · rw [List.getLast?_append]
    exact .refl

theorem deltaStep_weight (hkeyed : s.Keyed) (hcovers : responseDeltas.Covers s.out.getLast? events.getLast?)
    (deltaChunkSize prior : ℕ) (call : DeltaCall) :
    responseDeltas.weight none (deltaStep deltaChunkSize prior s call).out ≤
        responseDeltas.weight none s.out + responseDeltas.cost events.getLast? (call.event prior) ∧
      (¬ s.Accepts prior call → responseDeltas.weight none (deltaStep deltaChunkSize prior s call).out <
        responseDeltas.weight none s.out + responseDeltas.cost events.getLast? (call.event prior)) ∧
      responseDeltas.Covers (deltaStep deltaChunkSize prior s call).out.getLast? (some (call.event prior)) := by
  obtain ⟨-, ⟨d, type, hqueued, hevent, hadded⟩ | ⟨hqueued, hout⟩⟩ :=
    deltaStep_cases hkeyed deltaChunkSize prior call
  · rw [hevent]
    have hrefused : ¬ s.Accepts prior call → d.entries = [] ∨ s.Clashes d type ∧ ¬ s.Spare := by
      intro h
      by_contra hcon
      push Not at hcon
      refine h fun d' type' hqueued' => ?_
      rw [hqueued] at hqueued'
      cases hqueued'
      exact hcon
    cases hadded with
    | @joined last old new hlast hold hnew hkey hout =>
      have hjoin : responseDeltas.cost s.sent.getLast? (last.put "delta" (.str (old ++ new))) =
          responseDeltas.cost s.sent.getLast? last + new.length :=
        Deltas.cost_join hold deltaText_put getResponseDeltaKey_put
      have hlength : new.length ≤ responseDeltas.cost events.getLast? d := Deltas.length_le_cost hnew
      rw [hout, out_of_pending hlast, Deltas.weight_snoc, Deltas.weight_snoc, Option.or_none, hjoin,
        List.getLast?_append]
      refine ⟨by omega, fun h => ?_, ?_⟩
      · obtain hempty | ⟨⟨last', hlast', -, -, hnone⟩, -⟩ := hrefused h
        · have := text_of_entries_nil hempty
          rw [show responseDeltas.text d = some new from hnew] at this
          cases this
        · rw [Option.mem_unique hlast' hlast, hold, hnew] at hnone
          simp at hnone
      · rintro b ⟨⟩ -
        exact ⟨_, rfl, Option.isSome_iff_exists.2 ⟨_, deltaText_put⟩, getResponseDeltaKey_put.trans hkey.symm⟩
    | replaced hclash hout =>
      obtain ⟨last, hlast, -, -, hnone⟩ := hclash
      rw [out_of_pending hlast, List.getLast?_append] at hcovers
      rw [hout, out_of_pending hlast, Deltas.weight_snoc, Option.or_none]
      obtain hnone | hnone := hnone
      · -- what waited was no text: the events end with none
        have hcost : responseDeltas.cost s.sent.getLast? last = 1 := Deltas.cost_none hnone
        have hnothing : responseDeltas.Covers s.sent.getLast? events.getLast? := by
          intro b hb htext
          obtain ⟨c, hc, hsome, -⟩ := hcovers b hb htext
          obtain rfl : last = c := Option.some_inj.1 hc
          rw [show responseDeltas.text last = none from hnone] at hsome
          cases hsome
        have hweight := weight_waiting s.sent d hnothing
        exact ⟨by omega, fun _ => by omega, covers_waiting⟩
      · -- what waited was a text: it counts, if it is not spare
        have hcost : responseDeltas.cost events.getLast? d = 1 := Deltas.cost_none hnone
        have hcost' : responseDeltas.cost s.sent.getLast? d = 1 := Deltas.cost_none hnone
        have hweight := weight_waiting s.sent d .refl
        refine ⟨by omega, fun h => ?_, covers_waiting⟩
        obtain hempty | ⟨-, hspare⟩ := hrefused h
        · rw [if_pos hempty] at hweight
          omega
        · have hpos : responseDeltas.cost s.sent.getLast? last ≠ 0 := by
            intro hzero
            obtain ⟨htext, x, hx, hsome, hkey⟩ := Deltas.of_cost_eq_zero hzero
            exact hspare ⟨last, hlast, htext, x, hx, hsome, hkey⟩
          omega
    | appended hclash hout =>
      have hweight := weight_waiting s.out d hcovers
      rw [hout]
      refine ⟨by omega, fun h => ?_, covers_waiting⟩
      obtain hempty | ⟨hclash', -⟩ := hrefused h
      · rw [if_pos hempty] at hweight
        omega
      · exact absurd hclash' hclash
  · rw [hout, Deltas.weight_snoc, Option.or_none, List.getLast?_append]
    refine ⟨Nat.add_le_add_left hcovers.cost_le _, fun h => absurd ?_ h, .refl⟩
    intro d type hqueued'
    rw [hqueued] at hqueued'
    cases hqueued'

/-! ## Runs -/

theorem queueAfter_snoc : queueAfter deltaChunkSize prior (calls ++ [call]) =
    deltaStep deltaChunkSize prior (queueAfter deltaChunkSize prior calls) call := by
  rw [queueAfter, List.foldl_append]
  rfl

/-- What a run keeps: the key is that of what waits, and what is sent counts for no more than the events. -/
theorem queueAfter_keeps (deltaChunkSize prior : ℕ) (calls : List DeltaCall) :
    (queueAfter deltaChunkSize prior calls).Keyed ∧
    responseDeltas.weight none (queueAfter deltaChunkSize prior calls).out ≤
      responseDeltas.weight none (calls.map (DeltaCall.event prior)) ∧
    responseDeltas.Covers (queueAfter deltaChunkSize prior calls).out.getLast?
      (calls.map (DeltaCall.event prior)).getLast? := by
  induction calls using List.reverseRecOn with
  | nil => exact ⟨by rintro last ⟨⟩, le_rfl, .refl⟩
  | append_singleton calls call ih =>
    obtain ⟨hkeyed, hle, hcovers⟩ := ih
    obtain ⟨hkeyed', -⟩ := deltaStep_cases hkeyed deltaChunkSize prior call
    obtain ⟨hle', -, hcovers'⟩ := deltaStep_weight hkeyed hcovers deltaChunkSize prior call
    rw [queueAfter_snoc, List.map_append, List.map_singleton, Deltas.weight_snoc, Option.or_none]
    refine ⟨hkeyed', by omega, ?_⟩
    rw [List.getLast?_append]
    exact hcovers'

theorem queueAfter_weight_lt {later : List DeltaCall}
    (hrefused : ¬ (queueAfter deltaChunkSize prior calls).Accepts prior call) :
    responseDeltas.weight none (queueAfter deltaChunkSize prior (calls ++ call :: later)).out <
      responseDeltas.weight none ((calls ++ call :: later).map (DeltaCall.event prior)) := by
  induction later using List.reverseRecOn with
  | nil =>
    obtain ⟨hkeyed, hle, hcovers⟩ := queueAfter_keeps deltaChunkSize prior calls
    obtain ⟨-, hlt, -⟩ := deltaStep_weight hkeyed hcovers deltaChunkSize prior call
    have := hlt hrefused
    rw [queueAfter_snoc, List.map_append, List.map_singleton, Deltas.weight_snoc, Option.or_none]
    omega
  | append_singleton later last ih =>
    obtain ⟨hkeyed, -, hcovers⟩ := queueAfter_keeps deltaChunkSize prior (calls ++ call :: later)
    obtain ⟨hle, -, -⟩ := deltaStep_weight hkeyed hcovers deltaChunkSize prior last
    rw [← List.cons_append, ← List.append_assoc, queueAfter_snoc, List.map_append, List.map_singleton,
      Deltas.weight_snoc, Option.or_none]
    omega

end

/-- **What is sent**: all events in their order, exactly if each call is accepted. -/
theorem sentEvents_batched_iff (deltaChunkSize prior : ℕ) (calls : List DeltaCall) :
    responseDeltas.Batched (sentEvents deltaChunkSize prior calls) (calls.map (DeltaCall.event prior)) ↔
      ∀ before call after, calls = before ++ call :: after →
        (queueAfter deltaChunkSize prior before).Accepts prior call := by
  rw [sentEvents, flushPendingDeltaData_zero.2]
  constructor
  · rintro h before call after rfl
    by_contra hrefused
    exact (queueAfter_weight_lt hrefused).ne h.weight_eq
  · intro haccepts
    induction calls using List.reverseRecOn with
    | nil => exact .nil
    | append_singleton calls call ih =>
      rw [queueAfter_snoc, List.map_append]
      refine deltaStep_batched (queueAfter_keeps _ _ calls).1 (ih fun before c after h => ?_)
        (haccepts calls call [] rfl)
      exact haccepts before c (after ++ [call]) (by rw [h]; simp)

namespace Sample

def chunk (delta : List (String × String)) : PyDict :=
  .ofFields [(.lit "choices", .arr [.obj [(.lit "delta", .obj (delta.map fun f => (.lit f.1, .str (.lit f.2))))]])]

def refusal : List DeltaCall :=
  [.queue (chunk [("role", "assistant")]) (.lit "content"), .queue (chunk [("refusal", "I cannot.")]) (.lit "content")]

end Sample

/-- The second chunk has taken the place of the first. -/
theorem not_sentEvents_batched : ¬ ∀ (deltaChunkSize prior : ℕ) (calls : List DeltaCall), 1 ≤ deltaChunkSize →
    responseDeltas.Batched (sentEvents deltaChunkSize prior calls) (calls.map (DeltaCall.event prior)) := by
  intro h
  have hweight := (h 2 0 Sample.refusal (by omega)).weight_eq
  revert hweight
  decide

end TideBot
