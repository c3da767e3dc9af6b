/-
  The table of tool calls follows the deltas.

  `Received` is what the deltas have brought so far: the text, and of each tool call its `CallRun`.  The variables of
  the generator and the events agree with it (`Tracks`), and each item keeps that: a delta of a tool call finds the
  entry of the call (`Tracks.resolve`), starts its block (`Tracks.start`) and adds to its arguments (`Tracks.add`).

  The deltas of different tool calls may come in any order.  A delta without an id is told by its index.
-/
import TideBot.Chat.StreamItems
import TideBot.Chat.ToolDeltas

namespace TideBot

open Lib

/-- What the deltas have brought so far; `named` are the tool calls with a block, in the order of their blocks. -/
structure Received where
  text : Text
  runs : CarriedCall → Option CallRun
  named : List CarriedCall
  stopReason : Text

namespace Received

/-- What is known of a tool call. -/
def runOf (R : Received) (c : CarriedCall) : CallRun := (R.runs c).getD .new

def setRun (R : Received) (c : CarriedCall) (r : CallRun) : Received :=
  { R with runs := Function.update R.runs c (some r) }

/-- A block is started. -/
def start (R : Received) (c : CarriedCall) : Received :=
  if (R.runOf c).named && !(R.runOf c).started then
    { R.setRun c (R.runOf c).start with named := R.named ++ [c] }
  else R

/-- A delta of a tool call. -/
def call (isJson : Text → Bool) (R : Received) (d : CallDelta) : Received :=
  let R := (R.setRun d.call ((R.runOf d.call).call d)).start d.call
  R.setRun d.call ((R.runOf d.call).add isJson d.piece)

theorem runs_setRun (R : Received) (c c' : CarriedCall) (r : CallRun) :
    (R.setRun c r).runs c' = if c' = c then some r else R.runs c' := Function.update_apply ..

theorem setRun_self {R : Received} {c : CarriedCall} (h : (R.runs c).isSome) : R.setRun c (R.runOf c) = R := by
  obtain ⟨r, hr⟩ := Option.isSome_iff_exists.1 h
  rw [setRun, runOf, hr, Option.getD_some, ← hr, Function.update_eq_self]

theorem runOf_setRun (R : Received) (c c' : CarriedCall) (r : CallRun) :
    (R.setRun c r).runOf c' = if c' = c then r else R.runOf c' := by
  unfold runOf
  rw [runs_setRun]
  split_ifs <;> rfl

theorem runOf_start (R : Received) (c c' : CarriedCall) :
    (R.start c).runOf c' = if c' = c then (R.runOf c).start else R.runOf c' := by
  unfold start
  split_ifs with hstart heq heq
  · exact (R.runOf_setRun c c' _).trans (if_pos heq)
  · exact (R.runOf_setRun c c' _).trans (if_neg heq)
  · rw [heq, CallRun.start_self hstart]
  · rfl

theorem isSome_start {R : Received} {c : CarriedCall} (h : (R.runs c).isSome) (c' : CarriedCall) :
    ((R.start c).runs c').isSome ↔ (R.runs c').isSome := by
  unfold start
  split_ifs
  · have hruns : ({ R.setRun c (R.runOf c).start with named := R.named ++ [c] } : Received).runs c' =
        if c' = c then some (R.runOf c).start else R.runs c' := R.runs_setRun c c' _
    rw [hruns]
    split_ifs with heq
    · rw [heq, h]
      exact Iff.rfl
    · exact Iff.rfl
  · exact Iff.rfl

/-- **What a delta does** to what is known of its tool call, and to no other. -/
theorem runOf_call (isJson : Text → Bool) (R : Received) (d : CallDelta) (c : CarriedCall) :
    (R.call isJson d).runOf c = if c = d.call then (R.runOf d.call).step isJson d else R.runOf c := by
  unfold call
  rw [runOf_setRun, runOf_start, runOf_start, if_pos rfl, runOf_setRun, runOf_setRun, if_pos rfl]
  split_ifs <;> rfl

theorem isSome_call (isJson : Text → Bool) (R : Received) (d : CallDelta) (c : CarriedCall) :
    ((R.call isJson d).runs c).isSome ↔ c = d.call ∨ (R.runs c).isSome := by
  unfold call
  rw [runs_setRun]
  split_ifs with heq
  · simp [heq]
  · rw [isSome_start (by rw [runs_setRun, if_pos rfl]; rfl) c, runs_setRun, if_neg heq, or_iff_right heq]

theorem named_call (isJson : Text → Bool) (R : Received) (d : CallDelta) : (R.call isJson d).named =
    if ((R.runOf d.call).named || d.named) && !(R.runOf d.call).started then R.named ++ [d.call] else R.named := by
  have hrunOf := R.runOf_setRun d.call d.call ((R.runOf d.call).call d)
  rw [if_pos rfl] at hrunOf
  show ((R.setRun d.call ((R.runOf d.call).call d)).start d.call).named = _
  unfold start
  rw [hrunOf, apply_ite named]
  rfl

theorem text_call (isJson : Text → Bool) (R : Received) (d : CallDelta) : (R.call isJson d).text = R.text := by
  show ((R.setRun d.call ((R.runOf d.call).call d)).start d.call).text = _
  unfold start
  rw [apply_ite text]
  exact ite_self _

end Received

/-- An entry of the table says what is known of a tool call. -/
structure Mirrors (c : CarriedCall) (r : CallRun) (t : TrackedToolCall) : Prop where
  id : t.id = .str c.id
  name : if r.named then t.name = .str c.name else t.name.truthy = false
  arguments : t.arguments = r.arguments
  started : t.started = r.started
  stopped : t.stopped = r.stopped

/-- The tool calls are told apart by their ids and their indices; they have an id and a name. -/
structure CallsApart (calls : List CarriedCall) (index : CarriedCall → Json) : Prop where
  id : ∀ c ∈ calls, ∀ c' ∈ calls, c.id = c'.id → c = c'
  index : ∀ c ∈ calls, ∀ c' ∈ calls, index c = index c' → c = c'
  nonempty : ∀ c ∈ calls, c.id ≠ [] ∧ c.name ≠ []

/-- The fields of a tool call's delta are what the delta brings.  A delta without an id may repeat it; no name and no
    piece is anything that counts as false. -/
structure DeltaFields (index : CarriedCall → Json) (d : CallDelta) (i id name arguments : Json) : Prop where
  index : hashKey i = some (index d.call)
  id : id = .str d.call.id ∨ d.identified = false ∧ id.truthy = false
  name : if d.named then name = .str d.call.name else name.truthy = false
  arguments : arguments = .str d.piece ∨ d.piece = [] ∧ arguments.truthy = false

theorem truthy_name {d : CallDelta} {name : Json} (hname : d.call.name ≠ [])
    (h : if d.named then name = .str d.call.name else name.truthy = false) : name.truthy = d.named := by
  split_ifs at h with hnamed
  · rw [h, hnamed]
    simpa [Json.truthy] using hname
  · rw [h, Bool.eq_false_iff.2 hnamed]

theorem Mirrors.call {d : CallDelta} {name : Json} {r : CallRun} {t : TrackedToolCall} (h : Mirrors d.call r t)
    (hname : d.call.name ≠ [])
    (hd : if d.named then name = .str d.call.name else name.truthy = false) (hfresh : d.named → r.named = false) :
    Mirrors d.call (r.call d) (if name.truthy && !t.name.truthy then { t with name := name } else t) := by
  have htruthy := truthy_name hname hd
  have hold := h.name
  rw [htruthy]
  by_cases hnamed : d.named
  · rw [hfresh hnamed] at hold
    rw [if_pos hnamed] at hd
    have hnone : t.name.truthy = false := by simpa using hold
    rw [hnamed, hnone, Bool.not_false, Bool.and_self, if_pos rfl]
    refine ⟨h.id, ?_, h.arguments, h.started, h.stopped⟩
    rw [CallRun.call, hnamed, Bool.or_true]
    exact hd
  · rw [Bool.not_eq_true] at hnamed
    rw [hnamed, Bool.false_and, if_neg Bool.false_ne_true]
    refine ⟨h.id, ?_, h.arguments, h.started, h.stopped⟩
    rw [CallRun.call, hnamed, Bool.or_false]
    exact hold

namespace AnthropicStream

/-- The index of the block of a tool call. -/
def blockOf (s : AnthropicStream) (c : CarriedCall) : ℤ :=
  ((s.trackedToolCalls.get (.str c.id)).map TrackedToolCall.blockIndex).getD (-1)

/-- The table has the tool calls that are known, and no others. -/
structure Table (calls : List CarriedCall) (index : CarriedCall → Json) (R : Received) (s : AnthropicStream) :
    Prop where
  known : ∀ c ∈ calls, ∀ r, R.runs c = some r → ∃ t, s.trackedToolCalls.get (.str c.id) = some t ∧ Mirrors c r t
  indices : ∀ c ∈ calls, (R.runs c).isSome → s.indexToToolId.get (index c) = some (.str c.id)
  only : ∀ key t, s.trackedToolCalls.get key = some t → ∃ c ∈ calls, key = .str c.id ∧ (R.runs c).isSome

/-- **The variables and the events** agree with what has been received. -/
structure Tracks (calls : List CarriedCall) (index : CarriedCall → Json) (R : Received) (s : AnthropicStream) :
    Prop where
  table : s.Table calls index R
  assembled : assemble s.events =
    ⟨R.text, R.named.map fun c => ⟨s.blockOf c, .str c.id, .str c.name, (R.runOf c).parts⟩, none⟩
  hasToolCalls : s.hasToolCalls = !R.named.isEmpty
  mem : ∀ c ∈ R.named, c ∈ calls
  started : ∀ c ∈ calls, (R.runOf c).started ↔ c ∈ R.named
  fresh : ∀ c ∈ calls, (R.runOf c).started = false → (R.runOf c).parts = []
  earlier : ∀ c ∈ R.named, s.blockOf c < s.currentBlockIndex
  apart : ∀ c ∈ R.named, ∀ c' ∈ R.named, s.blockOf c = s.blockOf c' → c = c'
  stopReason : s.stopReason = R.stopReason
  writable : s.usage.toJson.writable

section
variable {calls : List CarriedCall} {index : CarriedCall → Json} {R : Received} {s s' : AnthropicStream}
  {c c' : CarriedCall} {r : CallRun} {t : TrackedToolCall}

/-! ## Items without tool calls -/

theorem blockOf_congr (h : s'.trackedToolCalls = s.trackedToolCalls) (c : CarriedCall) :
    s'.blockOf c = s.blockOf c := by
  rw [blockOf, blockOf, h]

theorem Table.congr (h : s.Table calls index R) {R' : Received} (hruns : R'.runs = R.runs)
    (htools : s'.trackedToolCalls = s.trackedToolCalls) (hindices : s'.indexToToolId = s.indexToToolId) :
    s'.Table calls index R' where
  known := by
    rw [hruns, htools]
    exact h.known
  indices := by
    rw [hruns, hindices]
    exact h.indices
  only := by
    rw [hruns, htools]
    exact h.only

theorem Tracks.beside (h : s.Tracks calls index R) (hbeside : s.Beside s') : s'.Tracks calls index R where
  table := h.table.congr rfl hbeside.tools hbeside.indices
  assembled := by
    rw [hbeside.assembled, h.assembled]
    simp only [blockOf_congr hbeside.tools]
  hasToolCalls := hbeside.hasToolCalls.trans h.hasToolCalls
  mem := h.mem
  started := h.started
  fresh := h.fresh
  earlier c hc := by
    rw [blockOf_congr hbeside.tools]
    exact (h.earlier c hc).trans_le hbeside.current
  apart c hc c' hc' := by
    rw [blockOf_congr hbeside.tools, blockOf_congr hbeside.tools]
    exact h.apart c hc c' hc'
  stopReason := hbeside.stopReason.trans h.stopReason
  writable := by
    rw [hbeside.usage]
    exact h.writable

theorem Tracks.content (h : s.Tracks calls index R) {piece : Text} (hpiece : piece ≠ []) (hnamed : R.named = []) :
    (s.handleContent (.str piece)).Tracks calls index { R with text := R.text ++ piece } := by
  have hopen : ((Json.str piece).truthy && !s.hasToolCalls) = true := by
    rw [h.hasToolCalls, hnamed]
    simpa [Json.truthy] using hpiece
  have hbeside := (Beside.closeThinking s).trans (.openText s.closeThinking)
  have htext := h.beside hbeside
  unfold AnthropicStream.handleContent
  rw [if_pos hopen]
  refine ⟨htext.table.congr rfl rfl rfl, ?_, htext.hasToolCalls, htext.mem, htext.started, htext.fresh, htext.earlier,
    htext.apart, htext.stopReason, htext.writable⟩
  refine (assemble_snoc ..).trans ?_
  rw [htext.assembled]
  rfl

theorem Tracks.usage (h : s.Tracks calls index R) {read : MessageUsage} (hread : read.toJson.writable) :
    ({ s with usage := s.usage.update read } : AnthropicStream).Tracks calls index R :=
  ⟨h.table.congr rfl rfl rfl, h.assembled, h.hasToolCalls, h.mem, h.started, h.fresh, h.earlier, h.apart, h.stopReason,
    MessageUsage.writable_update h.writable hread⟩

theorem Tracks.finish (h : s.Tracks calls index R) (reason : Text) :
    ({ s with stopReason := reason } : AnthropicStream).Tracks calls index { R with stopReason := reason } :=
  ⟨h.table.congr rfl rfl rfl, h.assembled, h.hasToolCalls, h.mem, h.started, h.fresh, h.earlier, h.apart, rfl,
    h.writable⟩

/-! ## Deltas of tool calls -/

theorem blockOf_set (hapart : CallsApart calls index) (hc : c ∈ calls) (hc' : c' ∈ calls)
    (htools : s'.trackedToolCalls = s.trackedToolCalls.set (.str c.id) t) :
    s'.blockOf c' = if c' = c then t.blockIndex else s.blockOf c' := by
  unfold blockOf
  rw [htools, Dict.get_set]
  by_cases heq : c' = c
  · rw [if_pos heq, if_pos (by rw [heq])]
    rfl
  · rw [if_neg heq, if_neg]
    intro hid
    exact heq (hapart.id c' hc' c hc (Json.str.inj hid))

theorem Table.set (h : s.Table calls index R) (hapart : CallsApart calls index) (hc : c ∈ calls)
    (htools : s'.trackedToolCalls = s.trackedToolCalls.set (.str c.id) t) (hmirrors : Mirrors c r t)
    (hself : s'.indexToToolId.get (index c) = some (.str c.id))
    (hother : ∀ i, i ≠ index c → s'.indexToToolId.get i = s.indexToToolId.get i) :
    s'.Table calls index (R.setRun c r) where
  known c' hc' r' hr' := by
    rw [htools, Dict.get_set]
    rw [R.runs_setRun] at hr'
    split_ifs at hr' with heq
    · cases hr'
      exact ⟨t, by rw [heq, if_pos rfl], heq ▸ hmirrors⟩
    · rw [if_neg]
      · exact h.known c' hc' r' hr'
      · intro hid
        exact heq (hapart.id c' hc' c hc (Json.str.inj hid))
  indices c' hc' hr' := by
    rw [R.runs_setRun] at hr'
    split_ifs at hr' with heq
    · rw [heq, hself]
    · rw [hother, h.indices c' hc' hr']
      exact fun hindex => heq (hapart.index c' hc' c hc hindex)
  only key t' ht' := by
    rw [htools, Dict.get_set] at ht'
    split_ifs at ht' with hkey
    · refine ⟨c, hc, hkey, ?_⟩
      rw [R.runs_setRun, if_pos rfl]
      rfl
    · obtain ⟨c', hc', rfl, hr'⟩ := h.only key t' ht'
      refine ⟨c', hc', rfl, ?_⟩
      rw [R.runs_setRun]
      split_ifs
      · rfl
      · exact hr'

/-- What is written to an entry leaves the events alone, if the block and the parts are as before. -/
theorem Tracks.set (h : s.Tracks calls index R) (hapart : CallsApart calls index) (hc : c ∈ calls)
    (htools : s'.trackedToolCalls = s.trackedToolCalls.set (.str c.id) t) (hmirrors : Mirrors c r t)
    (hself : s'.indexToToolId.get (index c) = some (.str c.id))
    (hother : ∀ i, i ≠ index c → s'.indexToToolId.get i = s.indexToToolId.get i)
    (hblock : c ∈ R.named → t.blockIndex = s.blockOf c) (hparts : r.parts = (R.runOf c).parts)
    (hstarted : r.started = (R.runOf c).started)
    (hevents : s'.events = s.events ∧ s'.currentBlockIndex = s.currentBlockIndex ∧ s'.hasToolCalls = s.hasToolCalls ∧
      s'.stopReason = s.stopReason ∧ s'.usage = s.usage) :
    s'.Tracks calls index (R.setRun c r) := by
  obtain ⟨hevents, hcurrent, hcalls, hstop, husage⟩ := hevents
  have hsame : ∀ c' ∈ R.named, s'.blockOf c' = s.blockOf c' := by
    intro c' hc'
    rw [blockOf_set hapart hc (h.mem c' hc') htools]
    split_ifs with heq
    · rw [heq, hblock (heq ▸ hc')]
    · rfl
  refine ⟨h.table.set hapart hc htools hmirrors hself hother, ?_, hcalls.trans h.hasToolCalls, h.mem, ?_, ?_, ?_, ?_,
    hstop.trans h.stopReason, husage ▸ h.writable⟩
  · rw [hevents, h.assembled]
    congr 1
    refine List.map_congr_left fun c' hc' => ?_
    rw [hsame c' hc', R.runOf_setRun]
    split_ifs with heq
    · rw [heq, hparts]
    · rfl
  · intro c' hc'
    rw [R.runOf_setRun]
    split_ifs with heq
    · rw [hstarted, heq]
      exact h.started c hc
    · exact h.started c' hc'
  · intro c' hc'
    rw [R.runOf_setRun]
    split_ifs with heq
    · rw [hstarted, hparts]
      exact h.fresh c hc
    · exact h.fresh c' hc'
  · intro c' hc'
    rw [hsame c' hc', hcurrent]
    exact h.earlier c' hc'
  · intro c₁ hc₁ c₂ hc₂
    rw [hsame c₁ hc₁, hsame c₂ hc₂]
    exact h.apart c₁ hc₁ c₂ hc₂

/-- **The entry of a delta's tool call** is found, or made, and gets the name. -/
theorem Tracks.resolve (h : s.Tracks calls index R) (hapart : CallsApart calls index) (draw : List Json → Text)
    {d : CallDelta} (hc : d.call ∈ calls) (hfirst : R.runs d.call = none → d.identified)
    (hfresh : d.named → (R.runOf d.call).named = false) {i id name arguments : Json}
    (hd : DeltaFields index d i id name arguments) :
    ∃ s₁ t₀ t₁, s.resolveTool draw i id name = (s₁, some (.str d.call.id)) ∧
      s₁.trackedToolCalls.get (.str d.call.id) = some t₀ ∧
      (if name.truthy && !t₀.name.truthy then { t₀ with name := name } else t₀) = t₁ ∧
      Mirrors d.call ((R.runOf d.call).call d) t₁ ∧
      (s₁.setTool (.str d.call.id) t₁).Tracks calls index (R.setRun d.call ((R.runOf d.call).call d)) := by
  obtain ⟨hid, hname⟩ := hapart.nonempty d.call hc
  have hkey : hashKey (.str d.call.id) = some (.str d.call.id) := rfl
  have htruthy : (Json.str d.call.id).truthy = true := by simpa [Json.truthy] using hid
  have hother : ∀ j, j ≠ index d.call →
      (s.indexToToolId.set (index d.call) (.str d.call.id)).get j = s.indexToToolId.get j :=
    fun j hj => Dict.get_set_of_ne _ hj
  cases hrun : R.runs d.call with
  | none =>
    -- the first delta has the id
    have hrunOf : R.runOf d.call = .new := by rw [Received.runOf, hrun, Option.getD_none]
    have hidentified := hfirst hrun
    have hid' : id = .str d.call.id := hd.id.resolve_right fun hno => absurd (hidentified.symm.trans hno.1) (by simp)
    have hget : s.trackedToolCalls.get (.str d.call.id) = none := by
      cases hsome : s.trackedToolCalls.get (.str d.call.id) with
      | none => rfl
      | some t =>
        obtain ⟨c', hc', heq, hr'⟩ := h.table.only _ _ hsome
        rw [← hapart.id d.call hc c' hc' (Json.str.inj heq), hrun] at hr'
        cases hr'
    have hnew : Mirrors d.call (CallRun.new.call d) (newTool id name) := by
      refine ⟨hid', ?_, rfl, rfl, rfl⟩
      simpa [CallRun.call, CallRun.new, newTool] using hd.name
    have hsame : (if name.truthy && !(newTool id name).name.truthy then { newTool id name with name := name }
        else newTool id name) = newTool id name := by
      rw [if_neg]
      simp [newTool]
    refine ⟨{ s.setTool (.str d.call.id) (newTool id name) with
      indexToToolId := s.indexToToolId.set (index d.call) (.str d.call.id) }, newTool id name, newTool id name, ?_,
      Dict.get_set_self .., hsame, by rwa [hrunOf], ?_⟩
    · unfold AnthropicStream.resolveTool
      rw [hid', if_pos htruthy, hkey]
      simp only [hget, hd.index]
      rfl
    · rw [hrunOf]
      refine h.set hapart hc (Dict.set_set ..) hnew (Dict.get_set_self ..) hother ?_ ?_ ?_ ⟨rfl, rfl, rfl, rfl, rfl⟩
      · intro hmem
        have hstarted := (h.started d.call hc).2 hmem
        rw [hrunOf] at hstarted
        cases hstarted
      · rw [hrunOf]
        rfl
      · rw [hrunOf]
        rfl
  | some r =>
    have hrunOf : R.runOf d.call = r := by rw [Received.runOf, hrun, Option.getD_some]
    obtain ⟨t, ht, hmirrors⟩ := h.table.known d.call hc r hrun
    have hindex := h.table.indices d.call hc (by rw [hrun]; rfl)
    rw [hrunOf] at hfresh ⊢
    have hcalled := hmirrors.call hname hd.name hfresh
    obtain ⟨m, hresolve, hself, hrest⟩ : ∃ m, s.resolveTool draw i id name =
        ({ s with indexToToolId := m }, some (.str d.call.id)) ∧ m.get (index d.call) = some (.str d.call.id) ∧
        ∀ j, j ≠ index d.call → m.get j = s.indexToToolId.get j := by
      unfold AnthropicStream.resolveTool
      obtain hid' | ⟨-, hid'⟩ := hd.id
      · -- the id once more
        rw [hid', if_pos htruthy, hkey]
        simp only [ht, hd.index]
        exact ⟨_, rfl, Dict.get_set_self .., hother⟩
      · rw [hid', if_neg Bool.false_ne_true]
        simp only [hd.index, hindex]
        exact ⟨_, rfl, hindex, fun _ _ => rfl⟩
    refine ⟨_, t, _, hresolve, ht, rfl, hcalled, ?_⟩
    refine h.set hapart hc rfl hcalled hself hrest ?_ ?_ ?_ ⟨rfl, rfl, rfl, rfl, rfl⟩
    · intro _
      rw [blockOf, ht]
      split_ifs <;> rfl
    · rw [hrunOf]
      rfl
    · rw [hrunOf]
      rfl

theorem Tracks.startBlock (h : s.Tracks calls index R) (hapart : CallsApart calls index) (hc : c ∈ calls)
    (hsome : (R.runs c).isSome) (hnew : c ∉ R.named) (hmirrors : Mirrors c r t) (hr : r.started = true)
    (hparts : r.parts = []) (hblock : t.blockIndex = s.currentBlockIndex)
    (htools : s'.trackedToolCalls = s.trackedToolCalls.set (.str c.id) t)
    (hindices : s'.indexToToolId = s.indexToToolId)
    (hevents : s'.events = s.events ++ [.contentBlockStart s.currentBlockIndex (.toolUse (.str c.id) (.str c.name))])
    (hcurrent : s'.currentBlockIndex = s.currentBlockIndex + 1) (hcalls : s'.hasToolCalls = true)
    (hstop : s'.stopReason = s.stopReason) (husage : s'.usage = s.usage) :
    s'.Tracks calls index { R.setRun c r with named := R.named ++ [c] } := by
  have hrunOf : ∀ c', ({ R.setRun c r with named := R.named ++ [c] } : Received).runOf c' =
      if c' = c then r else R.runOf c' := fun c' => R.runOf_setRun c c' r
  have hold : ∀ c' ∈ R.named, c' ≠ c ∧ s'.blockOf c' = s.blockOf c' := by
    intro c' hc'
    have hne : c' ≠ c := fun heq => hnew (heq ▸ hc')
    rw [blockOf_set hapart hc (h.mem c' hc') htools, if_neg hne]
    exact ⟨hne, rfl⟩
  have hself : s'.blockOf c = s.currentBlockIndex := by
    rw [blockOf_set hapart hc hc htools, if_pos rfl, hblock]
  have hcases : ∀ c' ∈ R.named ++ [c], c' = c ∨ c' ∈ R.named := by
    intro c' hc'
    rw [List.mem_append, List.mem_singleton] at hc'
    exact hc'.symm
  refine ⟨?_, ?_, ?_, ?_, ?_, ?_, ?_, ?_, hstop.trans h.stopReason, husage ▸ h.writable⟩
  · have htable : s'.Table calls index (R.setRun c r) := h.table.set hapart hc htools hmirrors
      (by rw [hindices, h.table.indices c hc hsome]) (fun i _ => by rw [hindices])
    exact htable.congr rfl rfl rfl
  · rw [hevents, assemble_snoc, h.assembled, AssembledMessage.add, List.map_append, List.map_singleton, hself, hrunOf c,
      if_pos rfl, hparts]
    congr 2
    refine List.map_congr_left fun c' hc' => ?_
    obtain ⟨hne, hblock'⟩ := hold c' hc'
    rw [hblock', hrunOf, if_neg hne]
  · simp [hcalls]
  · intro c' hc'
    obtain rfl | hc' := hcases c' hc'
    · exact hc
    · exact h.mem c' hc'
  · intro c' hc'
    rw [hrunOf, List.mem_append, List.mem_singleton]
    split_ifs with heq
    · simp [hr, heq]
    · rw [h.started c' hc']
      simp [heq]
  · intro c' hc' hno
    rw [hrunOf] at hno ⊢
    split_ifs at hno ⊢
    · exact hparts
    · exact h.fresh c' hc' hno
  · intro c' hc'
    rw [hcurrent]
    obtain rfl | hc' := hcases c' hc'
    · rw [hself]
      omega
    · have hlt := h.earlier c' hc'
      rw [(hold c' hc').2]
      omega
  · intro c₁ hc₁ c₂ hc₂ heq
    obtain rfl | hmem₁ := hcases c₁ hc₁ <;> obtain rfl | hmem₂ := hcases c₂ hc₂
    · rfl
    · have hlt := h.earlier c₂ hmem₂
      rw [hself, (hold c₂ hmem₂).2] at heq
      omega
    · have hlt := h.earlier c₁ hmem₁
      rw [hself, (hold c₁ hmem₁).2] at heq
      omega
    · rw [(hold c₁ hmem₁).2, (hold c₂ hmem₂).2] at heq
      exact h.apart c₁ hmem₁ c₂ hmem₂ heq

/-- **The block of a tool call is started** once it has a name. -/
theorem Tracks.start (h : s.Tracks calls index R) (hapart : CallsApart calls index) (hc : c ∈ calls)
    (hsome : (R.runs c).isSome) (ht : s.trackedToolCalls.get (.str c.id) = some t)
    (hmirrors : Mirrors c (R.runOf c) t) :
    (s.startTool (.str c.id) t).1.Tracks calls index (R.start c) ∧
      (s.startTool (.str c.id) t).1.trackedToolCalls.get (.str c.id) = some (s.startTool (.str c.id) t).2 ∧
      Mirrors c ((R.start c).runOf c) (s.startTool (.str c.id) t).2 := by
  have htname := hmirrors.name
  have hname : t.name.truthy = (R.runOf c).named := by
    split_ifs at htname with hnamed
    · rw [htname, hnamed]
      simpa [Json.truthy] using (hapart.nonempty c hc).2
    · rw [htname, Bool.eq_false_iff.2 hnamed]
  unfold AnthropicStream.startTool Received.start
  rw [hname, hmirrors.started, Bool.and_comm]
  split_ifs with hstart
  · obtain ⟨hunstarted, hnamed⟩ : (R.runOf c).started = false ∧ (R.runOf c).named = true := by simpa using hstart
    rw [if_pos hnamed] at htname
    have hnew : c ∉ R.named := by
      rw [← h.started c hc, hunstarted]
      exact Bool.false_ne_true
    have hmirrors' : Mirrors c (R.runOf c).start { t with blockIndex := s.currentBlockIndex, started := true } := by
      refine ⟨hmirrors.id, hmirrors.name, hmirrors.arguments, ?_, hmirrors.stopped⟩
      rw [CallRun.start, hnamed, Bool.or_true]
    refine ⟨?_, Dict.get_set_self .., ?_⟩
    · refine h.startBlock hapart hc hsome hnew hmirrors' ?_ (h.fresh c hc hunstarted) rfl rfl rfl ?_ rfl rfl rfl rfl
      · rw [CallRun.start, hnamed, Bool.or_true]
      · rw [← hmirrors.id, ← htname]
        rfl
    · have hrunOf := R.runOf_setRun c c (R.runOf c).start
      rw [if_pos rfl] at hrunOf
      exact hrunOf.symm ▸ hmirrors'
  · exact ⟨h, ht, hmirrors⟩

theorem Tracks.emitPart (h : s.Tracks calls index R) (hapart : CallsApart calls index) (hc : c ∈ calls)
    (hsome : (R.runs c).isSome) (hmem : c ∈ R.named) {piece : Text} (hmirrors : Mirrors c r t) (hr : r.started = true)
    (hparts : r.parts = (R.runOf c).parts ++ [piece]) (hblock : t.blockIndex = s.blockOf c)
    (htools : s'.trackedToolCalls = s.trackedToolCalls.set (.str c.id) t)
    (hindices : s'.indexToToolId = s.indexToToolId)
    (hevents : assemble s'.events = (assemble s.events).add (.contentBlockDelta t.blockIndex (.inputJsonDelta piece)))
    (hcurrent : s'.currentBlockIndex = s.currentBlockIndex) (hcalls : s'.hasToolCalls = s.hasToolCalls)
    (hstop : s'.stopReason = s.stopReason) (husage : s'.usage = s.usage) :
    s'.Tracks calls index (R.setRun c r) := by
  have hsame : ∀ c' ∈ R.named, s'.blockOf c' = s.blockOf c' := by
    intro c' hc'
    rw [blockOf_set hapart hc (h.mem c' hc') htools]
    split_ifs with heq
    · rw [heq, hblock]
    · rfl
  refine ⟨?_, ?_, hcalls.trans h.hasToolCalls, h.mem, ?_, ?_, ?_, ?_, hstop.trans h.stopReason, husage ▸ h.writable⟩
  · exact h.table.set hapart hc htools hmirrors (by rw [hindices, h.table.indices c hc hsome])
      (fun i _ => by rw [hindices])
  · rw [hevents, h.assembled, AssembledMessage.add, List.map_map]
    congr 1
    refine List.map_congr_left fun c' hc' => ?_
    rw [hsame c' hc', R.runOf_setRun, Function.comp_apply, AssembledTool.add, hblock]
    by_cases heq : c' = c
    · rw [if_pos (by rw [heq]), if_pos heq, hparts, heq]
    · rw [if_neg (fun hindex => heq (h.apart c' hc' c hmem hindex)), if_neg heq]
  · intro c' hc'
    rw [R.runOf_setRun]
    split_ifs with heq
    · rw [heq]
      exact ⟨fun _ => hmem, fun _ => hr⟩
    · exact h.started c' hc'
  · intro c' hc' hno
    rw [R.runOf_setRun] at hno ⊢
    split_ifs at hno ⊢
    · rw [hr] at hno
      cases hno
    · exact h.fresh c' hc' hno
  · intro c' hc'
    rw [hsame c' hc', hcurrent]
    exact h.earlier c' hc'
  · intro c₁ hc₁ c₂ hc₂
    rw [hsame c₁ hc₁, hsame c₂ hc₂]
    exact h.apart c₁ hc₁ c₂ hc₂

/-- **A piece of the arguments** is kept, and emitted if the block is open. -/
theorem Tracks.add (h : s.Tracks calls index R) (hapart : CallsApart calls index) (hc : c ∈ calls)
    (hsome : (R.runs c).isSome) (ht : s.trackedToolCalls.get (.str c.id) = some t) (hmirrors : Mirrors c (R.runOf c) t)
    {loads : Text → Except Json.LoadError Json} {arguments : Json} {piece : Text}
    (harguments : arguments = .str piece ∨ piece = [] ∧ arguments.truthy = false)
    (hdeep : loads ((R.runOf c).arguments ++ piece) ≠ .error .recursionError) :
    ∃ s', s.addArguments loads (.str c.id) t arguments = .goesOn s' ∧
      s'.Tracks calls index (R.setRun c ((R.runOf c).add (isJson loads) piece)) := by
  by_cases hpiece : piece = []
  · have hfalsy : arguments.truthy = false := by
      obtain rfl | ⟨-, hfalsy⟩ := harguments
      · simp [Json.truthy, hpiece]
      · exact hfalsy
    refine ⟨s, ?_, ?_⟩
    · unfold AnthropicStream.addArguments
      rw [hfalsy, if_neg Bool.false_ne_true]
    · rw [CallRun.add, if_pos hpiece, Received.setRun_self hsome]
      exact h
  obtain rfl : arguments = .str piece := harguments.resolve_right fun hno => hpiece hno.1
  have htruthy : (Json.str piece).truthy = true := by simpa [Json.truthy] using hpiece
  have hblock : t.blockIndex = s.blockOf c := by
    rw [blockOf, ht]
    rfl
  unfold AnthropicStream.addArguments CallRun.add
  rw [if_pos htruthy, if_neg hpiece, hmirrors.started, hmirrors.stopped, hmirrors.arguments]
  dsimp only
  split_ifs with hopen
  · obtain ⟨hstarted, hstopped⟩ : (R.runOf c).started = true ∧ (R.runOf c).stopped = false := by simpa using hopen
    have hmem := (h.started c hc).1 hstarted
    rw [hstarted, hstopped]
    have hgrown : ∀ stopped : Bool, Mirrors c
        ⟨(R.runOf c).arguments ++ piece, (R.runOf c).named, true, stopped, (R.runOf c).parts ++ [piece]⟩
        ⟨t.id, t.name, (R.runOf c).arguments ++ piece, t.blockIndex, true, stopped⟩ :=
      fun _ => ⟨hmirrors.id, hmirrors.name, rfl, rfl, rfl⟩
    cases hloads : loads ((R.runOf c).arguments ++ piece) with
    | error e =>
      have hopened : isJson loads ((R.runOf c).arguments ++ piece) = false := by
        rw [isJson, hloads]
        rfl
      rw [hopened]
      cases e with
      | recursionError => exact absurd hloads hdeep
      | decodeError | valueError =>
        exact ⟨_, rfl, h.emitPart hapart hc hsome hmem (hgrown false) rfl rfl hblock rfl rfl (assemble_snoc ..) rfl rfl
          rfl rfl⟩
    | ok v =>
      have hclosed : isJson loads ((R.runOf c).arguments ++ piece) = true := by
        rw [isJson, hloads]
        rfl
      rw [hclosed]
      refine ⟨_, rfl, h.emitPart hapart hc hsome hmem (hgrown true) rfl rfl hblock (Dict.set_set ..) rfl ?_ rfl rfl rfl
        rfl⟩
      exact (assemble_snoc ..).trans (assemble_snoc ..)
  · refine ⟨_, rfl, h.set hapart hc rfl ⟨hmirrors.id, hmirrors.name, rfl, rfl, rfl⟩
      (h.table.indices c hc hsome) (fun _ _ => rfl) (fun _ => hblock) rfl rfl ⟨rfl, rfl, rfl, rfl, rfl⟩⟩

/-- **One delta of a tool call.** -/
theorem Tracks.call (h : s.Tracks calls index R) (hapart : CallsApart calls index) (draw : List Json → Text)
    {loads : Text → Except Json.LoadError Json} {toolCall i id name arguments : Json} {d : CallDelta}
    (hfields : toolCallFields toolCall = some (i, id, name, arguments)) (hd : DeltaFields index d i id name arguments)
    (hc : d.call ∈ calls) (hfirst : R.runs d.call = none → d.identified)
    (hfresh : d.named → (R.runOf d.call).named = false)
    (hdeep : loads ((R.runOf d.call).arguments ++ d.piece) ≠ .error .recursionError) :
    ∃ s', handleToolCall loads draw toolCall s = .goesOn s' ∧ s'.Tracks calls index (R.call (isJson loads) d) := by
  obtain ⟨s₁, t₀, t₁, hresolve, hget, ht₁, hmirrors, htracks⟩ := h.resolve hapart draw hc hfirst hfresh hd
  have hrunOf : (R.setRun d.call ((R.runOf d.call).call d)).runOf d.call = (R.runOf d.call).call d := by
    rw [R.runOf_setRun, if_pos rfl]
  have hsome : ((R.setRun d.call ((R.runOf d.call).call d)).runs d.call).isSome := by
    rw [R.runs_setRun, if_pos rfl]
    rfl
  rw [← hrunOf] at hmirrors
  obtain ⟨hstarted, hget', hmirrors'⟩ := htracks.start hapart hc hsome (Dict.get_set_self ..) hmirrors
  have hsome' := (Received.isSome_start hsome d.call).2 hsome
  have harguments : (((R.setRun d.call ((R.runOf d.call).call d)).start d.call).runOf d.call).arguments =
      (R.runOf d.call).arguments := by
    rw [Received.runOf_start, if_pos rfl, hrunOf]
    rfl
  rw [← harguments] at hdeep
  obtain ⟨s', hadd, htracks'⟩ := hstarted.add hapart hc hsome' hget' hmirrors' hd.arguments hdeep
  refine ⟨s', ?_, htracks'⟩
  unfold handleToolCall
  rw [hfields]
  simp only [hresolve, hget, ht₁]
  exact hadd

end

end AnthropicStream

end TideBot
