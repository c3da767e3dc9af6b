/-
  The Anthropic stream is well formed (`utils/anthropic.py`).

  A ledger has an entry for each block that has been started (`Emitted`), and the variables of the generator say which
  of them are open: the block of the current index, and those of the tool calls that are started and not stopped
  (`Linked`).  Each part of the loop keeps this (`Sound`), also where it raises; what is done after the loop then
  closes exactly what is open.

  A tool call that has a name is started at once; only what raises in between leaves one without a block, and then no
  other block is open (`Halted`), so that its block can still be started.
-/
import TideBot.Chat.AnthropicStream

namespace TideBot

open Lib

/-! ## Ledgers of blocks -/

/-- What an event does to the blocks. -/
def AnthropicEvent.op : AnthropicEvent → Option (LedgerOp BlockKind)
  | .contentBlockStart i block => some (.start i block.kind)
  | .contentBlockDelta i delta => some (.use i delta.kind)
  | .contentBlockStop i => some (.stop i)
  | _ => none

/-- The first event, then events of blocks that lead to a ledger. -/
def Emitted (first : AnthropicEvent) (events : List AnthropicEvent) (L : Ledger BlockKind) : Prop :=
  ∃ middle, events = first :: middle ∧ (∀ e ∈ middle, e.op.isSome) ∧
    Ledger.run [] (middle.filterMap AnthropicEvent.op) = some L

/-- A ledger, by the block of the current index, if there is one, and the tool calls. -/
structure Linked (cur : ℤ) (single : Option BlockKind) (tools : Dict Json TrackedToolCall) (L : Ledger BlockKind) :
    Prop where
  length : (L.length : ℤ) = cur + if single.isSome then 1 else 0
  current : ∀ kind, single = some kind → kind ≠ .toolUse ∧ L.entry cur = some ⟨kind, true⟩
  tool : ∀ key t, tools.get key = some t → t.started → L.entry t.blockIndex = some ⟨.toolUse, !t.stopped⟩
  apart : ∀ key key' t t', tools.get key = some t → tools.get key' = some t' → t.started → t'.started →
    t.blockIndex = t'.blockIndex → key = key'
  opened : ∀ i kind, L.entry i = some ⟨kind, true⟩ → i = cur ∧ single.isSome ∨
    ∃ key t, tools.get key = some t ∧ t.started ∧ t.stopped = false ∧ t.blockIndex = i
  fresh : ∀ key t, tools.get key = some t → t.started = false → t.stopped = false

section
variable {first : AnthropicEvent} {events : List AnthropicEvent} {L L' : Ledger BlockKind} {cur : ℤ}
  {single : Option BlockKind} {tools : Dict Json TrackedToolCall} {kind : BlockKind} {key : Json} {t : TrackedToolCall}

theorem Emitted.snoc {e : AnthropicEvent} {op : LedgerOp BlockKind} (h : Emitted first events L) (hop : e.op = some op)
    (hstep : L.step op = some L') : Emitted first (events ++ [e]) L' := by
  obtain ⟨middle, rfl, hmiddle, hrun⟩ := h
  refine ⟨middle ++ [e], rfl, ?_, ?_⟩
  · intro e' he'
    rcases List.mem_append.1 he' with he' | he'
    · exact hmiddle e' he'
    · rw [List.mem_singleton.1 he', hop]
      rfl
  · rw [List.filterMap_append, List.filterMap_cons_some hop, List.filterMap_nil, Ledger.run_snoc, hrun]
    exact hstep

namespace Linked

theorem openBlock (h : Linked cur none tools L) (hkind : kind ≠ .toolUse) :
    cur = L.length ∧ Linked cur (some kind) tools (L ++ [⟨kind, true⟩]) := by
  have hcur : cur = L.length := by simpa using h.length.symm
  refine ⟨hcur, ?_, ?_, ?_, h.apart, ?_, h.fresh⟩
  · simp [hcur]
  · rintro k hk
    cases hk
    rw [Ledger.entry_append, if_pos hcur]
    exact ⟨hkind, rfl⟩
  · intro key t ht hstarted
    have htool := h.tool key t ht hstarted
    rw [Ledger.entry_append, if_neg (Ledger.entry_lt htool).2.ne, htool]
  · intro i k hi
    rw [Ledger.entry_append] at hi
    split_ifs at hi with hlast
    · exact .inl ⟨hlast.trans hcur.symm, rfl⟩
    · rcases h.opened i k hi with ⟨-, hnone⟩ | htool
      · cases hnone
      · exact .inr htool

theorem closeBlock (h : Linked cur (some kind) tools L) :
    L.entry cur = some ⟨kind, true⟩ ∧ Linked (cur + 1) none tools (L.close cur) := by
  obtain ⟨hkind, hcur⟩ := h.current kind rfl
  have hpos := (Ledger.entry_lt hcur).1
  refine ⟨hcur, ?_, by simp, ?_, h.apart, ?_, h.fresh⟩
  · rw [Ledger.length_close, h.length]
    simp
  · intro key t ht hstarted
    have htool := h.tool key t ht hstarted
    rw [Ledger.entry_close hpos, if_neg, htool]
    rintro rfl
    rw [hcur] at htool
    exact hkind (congrArg LedgerEntry.kind (Option.some.inj htool))
  · intro i k hi
    rw [Ledger.entry_close hpos] at hi
    split_ifs at hi with hcuri
    · subst hcuri
      rw [hcur] at hi
      cases hi
    · rcases h.opened i k hi with ⟨rfl, -⟩ | htool
      · exact absurd rfl hcuri
      · exact .inr htool

theorem setTool (h : Linked cur single tools L)
    (hfresh : t.started = false → t.stopped = false)
    (hstarted : t.started → ∃ t₀, tools.get key = some t₀ ∧ t₀.started ∧ t₀.stopped = t.stopped ∧
      t₀.blockIndex = t.blockIndex)
    (hold : ∀ t₀, tools.get key = some t₀ → t₀.started → t.started) : Linked cur single (tools.set key t) L := by
  have hget : ∀ {k t'}, (tools.set key t).get k = some t' → t'.started →
      ∃ t₀, tools.get k = some t₀ ∧ t₀.started ∧ t₀.stopped = t'.stopped ∧ t₀.blockIndex = t'.blockIndex := by
    intro k t' ht' hs'
    rw [Dict.get_set] at ht'
    split_ifs at ht' with hk
    · cases ht'
      rw [hk]
      exact hstarted hs'
    · exact ⟨t', ht', hs', rfl, rfl⟩
  refine ⟨h.length, h.current, ?_, ?_, ?_, ?_⟩
  · intro k t' ht' hs'
    obtain ⟨t₀, ht₀, hs₀, hstopped, hindex⟩ := hget ht' hs'
    rw [← hindex, ← hstopped]
    exact h.tool k t₀ ht₀ hs₀
  · intro k k' t₁ t₂ ht₁ ht₂ hs₁ hs₂ hindex
    obtain ⟨u₁, hu₁, hv₁, -, hi₁⟩ := hget ht₁ hs₁
    obtain ⟨u₂, hu₂, hv₂, -, hi₂⟩ := hget ht₂ hs₂
    exact h.apart k k' u₁ u₂ hu₁ hu₂ hv₁ hv₂ (by rw [hi₁, hi₂, hindex])
  · intro i k hi
    rcases h.opened i k hi with hcur | ⟨k', t', ht', hs', hstopped, rfl⟩
    · exact .inl hcur
    · refine .inr ?_
      by_cases hk : k' = key
      · subst hk
        obtain ⟨t₀, ht₀, hs₀, hstop₀, hindex⟩ := hstarted (hold t' ht' hs')
        rw [ht'] at ht₀
        cases ht₀
        exact ⟨k', t, by rw [Dict.get_set, if_pos rfl], hold t' ht' hs', by rw [← hstop₀, hstopped], hindex.symm⟩
      · exact ⟨k', t', by rw [Dict.get_set, if_neg hk, ht'], hs', hstopped, rfl⟩
  · intro k t' ht' hs'
    rw [Dict.get_set] at ht'
    split_ifs at ht'
    · cases ht'
      exact hfresh hs'
    · exact h.fresh k t' ht' hs'

theorem startTool (h : Linked cur none tools L) (hnew : ∀ t₀, tools.get key = some t₀ → t₀.started = false)
    (hstarted : t.started) (hstopped : t.stopped = false) (hindex : t.blockIndex = cur) :
    cur = L.length ∧ Linked (cur + 1) none (tools.set key t) (L ++ [⟨.toolUse, true⟩]) := by
  have hcur : cur = L.length := by simpa using h.length.symm
  have hget : ∀ {k t'}, (tools.set key t).get k = some t' → t'.started →
      k = key ∧ t' = t ∨ k ≠ key ∧ tools.get k = some t' ∧ t'.blockIndex ≠ cur := by
    intro k t' ht' hs'
    rw [Dict.get_set] at ht'
    split_ifs at ht' with hk
    · exact .inl ⟨hk, (Option.some.inj ht').symm⟩
    · have hlt := (Ledger.entry_lt (h.tool k t' ht' hs')).2
      exact .inr ⟨hk, ht', by omega⟩
  refine ⟨hcur, ?_, by simp, ?_, ?_, ?_, ?_⟩
  · simp [hcur]
  · intro k t' ht' hs'
    rw [Ledger.entry_append]
    rcases hget ht' hs' with ⟨rfl, rfl⟩ | ⟨-, ht', hne⟩
    · rw [if_pos (hindex.trans hcur), hstopped]
      rfl
    · rw [if_neg (fun heq => hne (heq.trans hcur.symm))]
      exact h.tool k t' ht' hs'
  · intro k k' t₁ t₂ ht₁ ht₂ hs₁ hs₂ heq
    rcases hget ht₁ hs₁ with ⟨rfl, rfl⟩ | ⟨-, ht₁, hne₁⟩ <;> rcases hget ht₂ hs₂ with ⟨rfl, rfl⟩ | ⟨-, ht₂, hne₂⟩
    · rfl
    · exact absurd (heq.symm.trans hindex) hne₂
    · exact absurd (heq.trans hindex) hne₁
    · exact h.apart k k' t₁ t₂ ht₁ ht₂ hs₁ hs₂ heq
  · intro i k hi
    refine .inr ?_
    rw [Ledger.entry_append] at hi
    split_ifs at hi with hlast
    · exact ⟨key, t, by rw [Dict.get_set, if_pos rfl], hstarted, hstopped, by rw [hindex, hcur, hlast]⟩
    · rcases h.opened i k hi with ⟨-, hnone⟩ | ⟨k', t', ht', hs', hstop', hi'⟩
      · cases hnone
      · refine ⟨k', t', ?_, hs', hstop', hi'⟩
        rw [Dict.get_set, if_neg, ht']
        rintro rfl
        rw [hnew t' ht'] at hs'
        cases hs'
  · intro k t' ht' hs'
    rw [Dict.get_set] at ht'
    split_ifs at ht'
    · cases ht'
      exact hstopped
    · exact h.fresh k t' ht' hs'

theorem stopTool (h : Linked cur single tools L) {t₀ : TrackedToolCall} (hget : tools.get key = some t₀)
    (hstarted : t₀.started) (hopen : t₀.stopped = false) (ht : t.started) (hstopped : t.stopped)
    (hindex : t.blockIndex = t₀.blockIndex) :
    L.entry t₀.blockIndex = some ⟨.toolUse, true⟩ ∧
      Linked cur single (tools.set key t) (L.close t₀.blockIndex) := by
  have hentry : L.entry t₀.blockIndex = some ⟨.toolUse, true⟩ := by
    rw [h.tool key t₀ hget hstarted, hopen]
    rfl
  have hpos := (Ledger.entry_lt hentry).1
  refine ⟨hentry, ?_, ?_, ?_, ?_, ?_, ?_⟩
  · rw [Ledger.length_close, h.length]
  · intro k hk
    obtain ⟨hkind, hcur⟩ := h.current k hk
    refine ⟨hkind, ?_⟩
    rw [Ledger.entry_close hpos, if_neg, hcur]
    intro heq
    rw [heq, hcur] at hentry
    cases hentry
    exact hkind rfl
  · intro k t' ht' hs'
    rw [Dict.get_set] at ht'
    rw [Ledger.entry_close hpos]
    split_ifs at ht' with hk
    · cases ht'
      rw [hindex, if_pos rfl, hentry, hstopped]
      rfl
    · rw [if_neg, h.tool k t' ht' hs']
      intro heq
      exact hk (h.apart k key t' t₀ ht' hget hs' hstarted heq.symm)
  · intro k k' t₁ t₂ ht₁ ht₂ hs₁ hs₂ heq
    rw [Dict.get_set] at ht₁ ht₂
    split_ifs at ht₁ ht₂ with hk₁ hk₂ hk₂
    · exact hk₁.trans hk₂.symm
    · cases ht₁
      exact hk₁.trans (h.apart key k' t₀ t₂ hget ht₂ hstarted hs₂ (hindex.symm.trans heq))
    · cases ht₂
      exact (h.apart k key t₁ t₀ ht₁ hget hs₁ hstarted (heq.trans hindex)).trans hk₂.symm
    · exact h.apart k k' t₁ t₂ ht₁ ht₂ hs₁ hs₂ heq
  · intro i k hi
    rw [Ledger.entry_close hpos] at hi
    split_ifs at hi with heq
    · rw [← heq, hentry] at hi
      cases hi
    · rcases h.opened i k hi with hcur | ⟨k', t', ht', hs', hstop', hi'⟩
      · exact .inl hcur
      · refine .inr ⟨k', t', ?_, hs', hstop', hi'⟩
        rw [Dict.get_set, if_neg, ht']
        rintro rfl
        rw [hget] at ht'
        cases ht'
        exact heq hi'
  · intro k t' ht' hs'
    rw [Dict.get_set] at ht'
    split_ifs at ht'
    · cases ht'
      rw [ht] at hs'
      cases hs'
    · exact h.fresh k t' ht' hs'

end Linked

/-! ## Usage -/

theorem writableFields_append {fs gs : List (Text × Json)} :
    Json.writableFields (fs ++ gs) = (Json.writableFields fs && Json.writableFields gs) := by
  induction fs with
  | nil => rfl
  | cons f fs ih => rw [List.cons_append, Json.writableFields, Json.writableFields, ih, Bool.and_assoc]

theorem MessageUsage.writable_iff {u : MessageUsage} : u.toJson.writable ↔
    u.outputTokens.writable ∧ u.inputTokens.writable ∧ u.cacheCreationInputTokens.writable ∧
      u.cacheReadInputTokens.writable ∧ u.outputTokensDetails.writable ∧ u.serverToolUse.writable ∧
      u.serviceTier.writable := by
  have hfield : ∀ (key : String) (j : Json),
      Json.writableFields (if j.isNone then [] else [(Text.lit key, j)]) = j.writable := by
    intro key j
    cases j <;> simp [Json.isNone, Json.writableFields, Json.writable]
  simp only [MessageUsage.toJson, Json.writable, Json.writableFields, writableFields_append, hfield, Bool.and_eq_true,
    List.cons_append, and_assoc]

theorem MessageUsage.writable_update {u read : MessageUsage} (hu : u.toJson.writable) (hread : read.toJson.writable) :
    (u.update read).toJson.writable := by
  have htaken : ∀ {old new : Json}, old.writable → new.writable → (if new.isNone then old else new).writable := by
    intro old new hold hnew
    split_ifs
    · exact hold
    · exact hnew
  rw [MessageUsage.writable_iff] at hu hread ⊢
  obtain ⟨h₁, h₂, h₃, h₄, h₅, h₆, h₇⟩ := hu
  obtain ⟨r₁, r₂, r₃, r₄, r₅, r₆, r₇⟩ := hread
  exact ⟨htaken h₁ r₁, htaken h₂ r₂, htaken h₃ r₃, htaken h₄ r₄, htaken h₅ r₅, htaken h₆ r₆, htaken h₇ r₇⟩

/-- Can the numbers of the data's usage be written? -/
def UsageWritable (data : Json) : Prop :=
  ∀ usageData read, data.item "usage" = some usageData → readUsage usageData = some read → read.toJson.writable

/-- Can the numbers of a line's usage be written? -/
def LineWritable (loads : Text → Except Json.LoadError Json) (line : Text) : Prop :=
  ∀ data json, AnthropicStream.dataString line = some data → loads data = .ok json → UsageWritable json

/-! ## The loop -/

/-- What holds where a part of the loop ends. -/
def StreamProgress.Ends (R H : AnthropicStream → Prop) : StreamProgress → Prop
  | .goesOn s => R s
  | .raised s => H s

theorem StreamProgress.Ends.andThen {R R' H : AnthropicStream → Prop} {p : StreamProgress}
    {f : AnthropicStream → StreamProgress} (h : p.Ends R H) (hf : ∀ s, R s → (f s).Ends R' H) :
    (p.andThen f).Ends R' H := by
  cases p with
  | goesOn s => exact hf s h
  | raised s => exact h

theorem StreamProgress.Ends.imp {R R' H : AnthropicStream → Prop} {p : StreamProgress} (h : p.Ends R H)
    (hR : ∀ s, R s → R' s) : p.Ends R' H := by
  cases p with
  | goesOn s => exact hR s h
  | raised s => exact h

/-- **What each part keeps**, a list of parts keeps. -/
theorem forEach_ends {α : Type} {R H : AnthropicStream → Prop} {f : α → AnthropicStream → StreamProgress} {as : List α}
    (hf : ∀ a ∈ as, ∀ s, R s → (f a s).Ends R H) {s : AnthropicStream} (h : R s) : (forEach f as s).Ends R H := by
  induction as generalizing s with
  | nil => exact h
  | cons a as ih =>
    obtain ⟨ha, has⟩ := List.forall_mem_cons.1 hf
    exact (ha s h).andThen fun s hs => ih has hs

namespace AnthropicStream

variable {s s' : AnthropicStream}

/-- The kind of the block of the current index, if it is open. -/
def openKind (s : AnthropicStream) : Option BlockKind :=
  if s.thinkingBlockOpen then some .thinking else if s.textBlockOpen then some .text else none

/-- The events so far, and the variables that say which blocks are open. -/
structure Sound (first : AnthropicEvent) (s : AnthropicStream) : Prop where
  writable : s.usage.toJson.writable
  apart : s.thinkingBlockOpen → s.textBlockOpen = false
  ledger : ∃ L, Emitted first s.events L ∧ Linked s.currentBlockIndex s.openKind s.trackedToolCalls L

/-- Every tool call that has a name is started, but for one perhaps. -/
def NamedBut (but : Option Json) (s : AnthropicStream) : Prop :=
  ∀ key t, s.trackedToolCalls.get key = some t → some key ≠ but → t.name.truthy → t.started

/-- What holds between the parts of the loop. -/
def Ready (first : AnthropicEvent) (s : AnthropicStream) : Prop := s.Sound first ∧ s.NamedBut none

/-- What holds where the loop is left. -/
def Halted (first : AnthropicEvent) (s : AnthropicStream) : Prop :=
  s.Sound first ∧ (s.openKind = none ∨ s.NamedBut none)

theorem Ready.halted (h : s.Ready first) : s.Halted first := ⟨h.1, .inr h.2⟩

theorem Sound.closeThinking (h : s.Sound first) : s.closeThinking.Sound first := by
  unfold AnthropicStream.closeThinking
  split_ifs with hthinking
  · obtain ⟨L, hemitted, hlinked⟩ := h.ledger
    have htext := h.apart hthinking
    rw [openKind, if_pos hthinking] at hlinked
    obtain ⟨hentry, hclosed⟩ := hlinked.closeBlock
    refine ⟨h.writable, fun hopen => absurd hopen (by simp), _, hemitted.snoc rfl (Ledger.step_stop hentry), ?_⟩
    simpa [openKind, emit, htext] using hclosed
  · exact h

theorem Sound.closeText (h : s.Sound first) (hthinking : s.thinkingBlockOpen = false) : s.closeText.Sound first := by
  unfold AnthropicStream.closeText
  split_ifs with htext
  · obtain ⟨L, hemitted, hlinked⟩ := h.ledger
    rw [openKind, if_neg (by simp [hthinking]), if_pos htext] at hlinked
    obtain ⟨hentry, hclosed⟩ := hlinked.closeBlock
    refine ⟨h.writable, fun _ => rfl, _, hemitted.snoc rfl (Ledger.step_stop hentry), ?_⟩
    simpa [openKind, emit, hthinking] using hclosed
  · exact h

theorem Sound.openThinking (h : s.Sound first) (htext : s.textBlockOpen = false) : s.openThinking.Sound first := by
  unfold AnthropicStream.openThinking
  split_ifs with hthinking
  · exact h
  · obtain ⟨L, hemitted, hlinked⟩ := h.ledger
    rw [openKind, if_neg hthinking, htext] at hlinked
    obtain ⟨hcur, hopened⟩ := hlinked.openBlock (show BlockKind.thinking ≠ .toolUse by decide)
    refine ⟨h.writable, fun _ => htext, _, hemitted.snoc rfl (hcur ▸ Ledger.step_start), ?_⟩
    simpa [openKind, emit, ContentBlock.kind] using hopened

theorem Sound.openText (h : s.Sound first) (hthinking : s.thinkingBlockOpen = false) : s.openText.Sound first := by
  unfold AnthropicStream.openText
  split_ifs with htext
  · exact h
  · obtain ⟨L, hemitted, hlinked⟩ := h.ledger
    rw [openKind, if_neg (by simp [hthinking]), if_neg htext] at hlinked
    obtain ⟨hcur, hopened⟩ := hlinked.openBlock (show BlockKind.text ≠ .toolUse by decide)
    refine ⟨h.writable, fun hopen => absurd hopen (by simp [emit, hthinking]), _,
      hemitted.snoc rfl (hcur ▸ Ledger.step_start), ?_⟩
    simpa [openKind, emit, ContentBlock.kind, hthinking] using hopened

theorem Sound.emitDelta (h : s.Sound first) {delta : ContentDelta} (hkind : s.openKind = some delta.kind) :
    (s.emit (.contentBlockDelta s.currentBlockIndex delta)).Sound first := by
  obtain ⟨L, hemitted, hlinked⟩ := h.ledger
  exact ⟨h.writable, h.apart, L, hemitted.snoc rfl (Ledger.step_use (hlinked.current _ hkind).2), hlinked⟩

theorem Ready.handleReasoning (h : s.Ready first) (reasoning : Json) : (s.handleReasoning reasoning).Ready first := by
  unfold AnthropicStream.handleReasoning
  split_ifs with hopen
  · have htext : s.textBlockOpen = false := by
      simp only [Bool.and_eq_true, Bool.not_eq_true'] at hopen
      exact hopen.1.2
    have hkind : s.openThinking.openKind = some .thinking := by
      unfold AnthropicStream.openThinking
      split_ifs with hthinking
      · rw [openKind, if_pos hthinking]
      · rfl
    have hnamed : s.openThinking.NamedBut none := by
      unfold AnthropicStream.openThinking
      split_ifs
      · exact h.2
      · exact h.2
    exact ⟨(h.1.openThinking htext).emitDelta hkind, hnamed⟩
  · exact h

theorem tools_closeThinking (s : AnthropicStream) :
    s.closeThinking.trackedToolCalls = s.trackedToolCalls ∧ s.closeThinking.thinkingBlockOpen = false ∧
      s.closeThinking.textBlockOpen = s.textBlockOpen := by
  unfold AnthropicStream.closeThinking
  split_ifs with hthinking
  · exact ⟨rfl, rfl, rfl⟩
  · exact ⟨rfl, by simpa using hthinking, rfl⟩

theorem tools_closeText (s : AnthropicStream) :
    s.closeText.trackedToolCalls = s.trackedToolCalls ∧ s.closeText.textBlockOpen = false ∧
      s.closeText.thinkingBlockOpen = s.thinkingBlockOpen := by
  unfold AnthropicStream.closeText
  split_ifs with htext
  · exact ⟨rfl, rfl, rfl⟩
  · exact ⟨rfl, by simpa using htext, rfl⟩

theorem Ready.handleContent (h : s.Ready first) (content : Json) : (s.handleContent content).Ready first := by
  unfold AnthropicStream.handleContent
  split_ifs with hopen
  · obtain ⟨htools, hthinking, -⟩ := tools_closeThinking s
    have hkind : s.closeThinking.openText.openKind = some .text := by
      unfold AnthropicStream.openText
      split_ifs with htext
      · rw [openKind, if_neg (by simp [hthinking]), if_pos htext]
      · simp [openKind, emit, hthinking]
    have hnamed : s.closeThinking.openText.NamedBut none := by
      have hclosed : s.closeThinking.NamedBut none := by
        rw [NamedBut, htools]
        exact h.2
      unfold AnthropicStream.openText
      split_ifs
      · exact hclosed
      · exact hclosed
    exact ⟨(h.1.closeThinking.openText hthinking).emitDelta hkind, hnamed⟩
  · exact h

theorem Ready.closeBoth (h : s.Ready first) :
    s.closeThinking.closeText.Ready first ∧ s.closeThinking.closeText.openKind = none := by
  obtain ⟨htools, hthinking, -⟩ := tools_closeThinking s
  obtain ⟨htools', htext, hthinking'⟩ := tools_closeText s.closeThinking
  refine ⟨⟨h.1.closeThinking.closeText hthinking, ?_⟩, ?_⟩
  · rw [NamedBut, htools', htools]
    exact h.2
  · rw [openKind, if_neg (by simp [hthinking', hthinking]), if_neg (by simp [htext])]

/-! ### Tool calls -/

theorem Sound.setTool (h : s.Sound first) (hfresh : t.started = false → t.stopped = false)
    (hstarted : t.started → ∃ t₀, s.trackedToolCalls.get key = some t₀ ∧ t₀.started ∧ t₀.stopped = t.stopped ∧
      t₀.blockIndex = t.blockIndex)
    (hold : ∀ t₀, s.trackedToolCalls.get key = some t₀ → t₀.started → t.started) : (s.setTool key t).Sound first := by
  obtain ⟨L, hemitted, hlinked⟩ := h.ledger
  exact ⟨h.writable, h.apart, L, hemitted, hlinked.setTool hfresh hstarted hold⟩

theorem Sound.newTool (h : s.Sound first) (hnew : s.trackedToolCalls.get key = none) (id name : Json) :
    (s.setTool key (newTool id name)).Sound first := by
  refine h.setTool (fun _ => rfl) (fun hstarted => absurd hstarted (by simp [AnthropicStream.newTool])) ?_
  intro t₀ ht₀
  rw [hnew] at ht₀
  cases ht₀

theorem NamedBut.setTool {but : Option Json} (h : s.NamedBut but) (hbut : but = none ∨ but = some key) :
    (s.setTool key t).NamedBut (some key) := by
  intro k t' ht' hk
  rw [AnthropicStream.setTool, Dict.get_set, if_neg (fun heq => hk (congrArg some heq))] at ht'
  refine h k t' ht' ?_
  rcases hbut with rfl | rfl
  · simp
  · exact hk

variable {loads : Text → Except Json.LoadError Json} {draw : List Json → Text}

/-- **The tool call of a delta** is tracked afterwards; all others that have a name are started. -/
theorem Ready.resolveTool (hdraw : ∀ ids, Json.str (draw ids) ∉ ids) (h : s.Ready first) (hkind : s.openKind = none)
    (index id name : Json) :
    (s.resolveTool draw index id name).1.Sound first ∧ (s.resolveTool draw index id name).1.openKind = none ∧
      ∀ key, (s.resolveTool draw index id name).2 = some key →
        (s.resolveTool draw index id name).1.NamedBut (some key) := by
  have hnamed : ∀ key, s.NamedBut (some key) := fun key k t' ht' _ => h.2 k t' ht' (by simp)
  unfold AnthropicStream.resolveTool
  split_ifs with hid
  · rcases hashKey id with _ | key
    · exact ⟨h.1, hkind, by simp⟩
    have htracked : ∃ s' : AnthropicStream, (if (s.trackedToolCalls.get key).isSome then s
        else s.setTool key (AnthropicStream.newTool id name)) = s' ∧ s'.Sound first ∧ s'.openKind = none ∧
        s'.NamedBut (some key) := by
      refine ⟨_, rfl, ?_⟩
      split_ifs with hsome
      · exact ⟨h.1, hkind, hnamed key⟩
      · exact ⟨h.1.newTool (by simpa using hsome) id name, hkind, h.2.setTool (.inl rfl)⟩
    obtain ⟨s', hs', hsound, hkind', hnamed'⟩ := htracked
    simp only [hs']
    rcases hashKey index with _ | i
    · exact ⟨hsound, hkind', by simp⟩
    · refine ⟨⟨hsound.writable, hsound.apart, hsound.ledger⟩, hkind', ?_⟩
      rintro k hk
      cases hk
      exact hnamed'
  · rcases hashKey index with _ | i
    · exact ⟨h.1, hkind, by simp⟩
    simp only
    rcases s.indexToToolId.get i with _ | key
    · have hnew : s.trackedToolCalls.get (.str (draw s.trackedToolCalls.keys)) = none :=
        Dict.get_eq_none_iff.2 (hdraw _)
      have hsound := h.1.newTool hnew (.str (draw s.trackedToolCalls.keys)) name
      refine ⟨⟨hsound.writable, hsound.apart, hsound.ledger⟩, hkind, ?_⟩
      rintro k hk
      cases hk
      exact h.2.setTool (.inl rfl)
    · refine ⟨h.1, hkind, ?_⟩
      rintro k hk
      cases hk
      exact hnamed key

/-- **The block of a tool call is started**, if it has a name. -/
theorem Sound.startTool (h : s.Sound first) (hkind : s.openKind = none) (hget : s.trackedToolCalls.get key = some t) :
    (s.startTool key t).1.Sound first ∧ (s.startTool key t).1.openKind = none ∧
      (s.startTool key t).1.trackedToolCalls.get key = some (s.startTool key t).2 := by
  unfold AnthropicStream.startTool
  split_ifs with hnew
  · simp only [Bool.and_eq_true, Bool.not_eq_true'] at hnew
    obtain ⟨L, hemitted, hlinked⟩ := h.ledger
    rw [hkind] at hlinked
    have hunstarted : ∀ t₀, s.trackedToolCalls.get key = some t₀ → t₀.started = false := by
      intro t₀ ht₀
      rw [hget] at ht₀
      cases ht₀
      exact hnew.1
    obtain ⟨hcur, hstarted⟩ := hlinked.startTool
      (t := { t with blockIndex := s.currentBlockIndex, started := true }) hunstarted rfl
      (hlinked.fresh key t hget hnew.1) rfl
    refine ⟨⟨h.writable, h.apart, _, hemitted.snoc rfl (hcur ▸ Ledger.step_start), ?_⟩, hkind, ?_⟩
    · rw [← hkind] at hstarted
      exact hstarted
    · simp [emit, AnthropicStream.setTool]
  · exact ⟨h, hkind, hget⟩

theorem NamedBut.startTool (h : s.NamedBut (some key)) (hget : s.trackedToolCalls.get key = some t) :
    (s.startTool key t).1.NamedBut none := by
  unfold AnthropicStream.startTool
  split_ifs with hnew
  · intro k t' ht' _ hname
    simp only [emit, AnthropicStream.setTool] at ht'
    rw [Dict.get_set] at ht'
    split_ifs at ht' with hk
    · cases ht'
      rfl
    · exact h k t' ht' (fun heq => hk (Option.some.inj heq)) hname
  · intro k t' ht' _ hname
    by_cases hk : k = key
    · subst hk
      rw [hget] at ht'
      cases ht'
      simpa [hname] using hnew
    · exact h k t' ht' (fun heq => hk (Option.some.inj heq)) hname

theorem Sound.emitArguments (h : s.Sound first) (hget : s.trackedToolCalls.get key = some t) (hstarted : t.started)
    (hopen : t.stopped = false) (chunk : Text) :
    (s.emit (.contentBlockDelta t.blockIndex (.inputJsonDelta chunk))).Sound first := by
  obtain ⟨L, hemitted, hlinked⟩ := h.ledger
  have hentry := hlinked.tool key t hget hstarted
  rw [hopen] at hentry
  exact ⟨h.writable, h.apart, L, hemitted.snoc rfl (Ledger.step_use hentry), hlinked⟩

theorem Sound.stopTool (h : s.Sound first) (hget : s.trackedToolCalls.get key = some t) (hstarted : t.started)
    (hopen : t.stopped = false) :
    ((s.setTool key { t with stopped := true }).emit (.contentBlockStop t.blockIndex)).Sound first := by
  obtain ⟨L, hemitted, hlinked⟩ := h.ledger
  obtain ⟨hentry, hstopped⟩ := hlinked.stopTool (t := { t with stopped := true }) hget hstarted hopen hstarted rfl rfl
  exact ⟨h.writable, h.apart, _, hemitted.snoc rfl (Ledger.step_stop hentry), hstopped⟩

/-- **The arguments of a tool call.** -/
theorem Ready.addArguments (h : s.Ready first) (hkind : s.openKind = none)
    (hget : s.trackedToolCalls.get key = some t) (argumentsChunk : Json) :
    (s.addArguments loads key t argumentsChunk).Ends (fun s => s.Ready first ∧ s.openKind = none) (Halted first) := by
  unfold AnthropicStream.addArguments
  split_ifs with htruthy
  · cases argumentsChunk with
    | str chunk =>
      simp only
      have hfresh : t.started = false → t.stopped = false := by
        obtain ⟨L, -, hlinked⟩ := h.1.ledger
        exact hlinked.fresh key t hget
      have hsound : (s.setTool key { t with arguments := t.arguments ++ chunk }).Sound first := by
        refine h.1.setTool hfresh (fun hs => ⟨t, hget, hs, rfl, rfl⟩) ?_
        intro t₀ ht₀ hs₀
        rw [hget] at ht₀
        cases ht₀
        exact hs₀
      have hget' : (s.setTool key { t with arguments := t.arguments ++ chunk }).trackedToolCalls.get key =
          some { t with arguments := t.arguments ++ chunk } := by
        rw [AnthropicStream.setTool, Dict.get_set, if_pos rfl]
      have hnamed : (s.setTool key { t with arguments := t.arguments ++ chunk }).NamedBut none := by
        intro k t' ht' hk hname
        rw [AnthropicStream.setTool, Dict.get_set] at ht'
        split_ifs at ht' with heq
        · cases ht'
          exact h.2 key t hget (by simp) hname
        · exact h.2 k t' ht' (by simp) hname
      split_ifs with hopen
      · simp only [Bool.and_eq_true, Bool.not_eq_true'] at hopen
        have hdelta := hsound.emitArguments hget' hopen.1 hopen.2 chunk
        rcases loads (t.arguments ++ chunk) with e | j
        · cases e with
          | recursionError => exact ⟨hdelta, .inl hkind⟩
          | decodeError | valueError => exact ⟨⟨hdelta, hnamed⟩, hkind⟩
        · refine ⟨⟨hdelta.stopTool hget' hopen.1 hopen.2, ?_⟩, hkind⟩
          intro k t' ht' hk hname
          simp only [emit, AnthropicStream.setTool] at ht'
          rw [Dict.get_set] at ht'
          split_ifs at ht' with heq
          · cases ht'
            exact hopen.1
          · exact hnamed k t' ht' hk hname
      · exact ⟨⟨hsound, hnamed⟩, hkind⟩
    | _ => exact ⟨h.1, .inl hkind⟩
  · exact ⟨h, hkind⟩

/-- **One tool call.** -/
theorem handleToolCall_ends (hdraw : ∀ ids, Json.str (draw ids) ∉ ids) (h : s.Ready first ∧ s.openKind = none)
    (toolCall : Json) :
    (AnthropicStream.handleToolCall loads draw toolCall s).Ends (fun s => s.Ready first ∧ s.openKind = none)
      (Halted first) := by
  unfold AnthropicStream.handleToolCall
  rcases toolCallFields toolCall with _ | ⟨index, id, name, argumentsChunk⟩
  · exact h.1.halted
  obtain ⟨hsound, hkind, hnamed⟩ := h.1.resolveTool hdraw h.2 index id name
  rcases hresolve : s.resolveTool draw index id name with ⟨s', _ | key⟩
  · rw [hresolve] at hsound hkind
    simp only [hresolve]
    exact ⟨hsound, .inl hkind⟩
  rw [hresolve] at hsound hkind hnamed
  simp only [hresolve]
  rcases hget : s'.trackedToolCalls.get key with _ | t
  · exact ⟨hsound, .inl hkind⟩
  have hfresh : t.started = false → t.stopped = false := by
    obtain ⟨L, -, hlinked⟩ := hsound.ledger
    exact hlinked.fresh key t hget
  obtain ⟨t', ht', hstarted, hstopped, hindex⟩ : ∃ t', (if (name.truthy && !t.name.truthy) = true
      then { t with name := name } else t) = t' ∧ t'.started = t.started ∧ t'.stopped = t.stopped ∧
      t'.blockIndex = t.blockIndex := by
    refine ⟨_, rfl, ?_⟩
    split_ifs <;> exact ⟨rfl, rfl, rfl⟩
  simp only [ht']
  have hset : (s'.setTool key t').Sound first := by
    refine hsound.setTool (by rwa [hstarted, hstopped])
      (fun hs => ⟨t, hget, hstarted ▸ hs, hstopped.symm, hindex.symm⟩) ?_
    intro t₀ ht₀ hs₀
    rw [hget] at ht₀
    cases ht₀
    rw [hstarted]
    exact hs₀
  have hget' : (s'.setTool key t').trackedToolCalls.get key = some t' := by
    rw [AnthropicStream.setTool, Dict.get_set, if_pos rfl]
  obtain ⟨hstart, hnone, hgot⟩ := hset.startTool hkind hget'
  have hready : ((s'.setTool key t').startTool key t').1.Ready first :=
    ⟨hstart, ((hnamed key rfl).setTool (.inr rfl)).startTool hget'⟩
  exact hready.addArguments hnone hgot argumentsChunk

/-! ### Lines -/

theorem Ready.handleToolCalls (h : s.Ready first) (hdraw : ∀ ids, Json.str (draw ids) ∉ ids) (toolCalls : Json) :
    (AnthropicStream.handleToolCalls loads draw toolCalls s).Ends (Ready first) (Halted first) := by
  unfold AnthropicStream.handleToolCalls
  split_ifs
  · obtain ⟨hready, hkind⟩ := h.closeBoth
    rcases toolCalls.iter with _ | calls
    · exact hready.halted
    · have hends : (forEach (AnthropicStream.handleToolCall loads draw) calls s.closeThinking.closeText).Ends
          (fun s => s.Ready first ∧ s.openKind = none) (Halted first) :=
        forEach_ends (fun toolCall _ s hs => handleToolCall_ends hdraw hs toolCall) ⟨hready, hkind⟩
      exact hends.imp fun s hs => hs.1
  · exact h

theorem Ready.handleFinish (h : s.Ready first) (finishReason : Json) :
    (AnthropicStream.handleFinish finishReason s).Ends (Ready first) (Halted first) := by
  unfold AnthropicStream.handleFinish
  split_ifs
  · exact h
  · exact h.halted
  · exact ⟨⟨h.1.writable, h.1.apart, h.1.ledger⟩, h.2⟩

theorem Ready.handleChoices (h : s.Ready first) (hdraw : ∀ ids, Json.str (draw ids) ∉ ids) (choices : Json) :
    (AnthropicStream.handleChoices loads draw choices s).Ends (Ready first) (Halted first) := by
  unfold AnthropicStream.handleChoices
  split_ifs
  · rcases choiceFields choices with _ | ⟨delta, finishReason, message⟩
    · exact h.halted
    simp only
    rcases reasoningOf delta message with _ | reasoningContent
    · exact h.halted
    have hcontent := (h.handleReasoning reasoningContent).handleContent (delta.get (.lit "content"))
    simp only
    rcases toolCallsOf delta message with _ | toolCalls
    · exact hcontent.halted
    · exact (hcontent.handleToolCalls hdraw toolCalls).andThen fun s hs => hs.handleFinish finishReason
  · exact h

/-- **The data of a line.** -/
theorem Ready.handleData (h : s.Ready first) (hdraw : ∀ ids, Json.str (draw ids) ∉ ids) {data : Json}
    (husage : UsageWritable data) :
    (AnthropicStream.handleData loads draw data s).Ends (Ready first) (Halted first) := by
  unfold AnthropicStream.handleData
  split
  · rename_i usageData choices hdata _
    split_ifs
    · rcases hread : readUsage usageData with _ | read
      · exact h.halted
      · have hupdated : ({ s with usage := s.usage.update read } : AnthropicStream).Ready first :=
          ⟨⟨MessageUsage.writable_update h.1.writable (husage _ _ hdata hread), h.1.apart, h.1.ledger⟩, h.2⟩
        exact hupdated.handleChoices hdraw _
    · exact h.handleChoices hdraw _
  · exact h.halted

theorem Ready.handleLine (h : s.Ready first) (hdraw : ∀ ids, Json.str (draw ids) ∉ ids) {line : Text}
    (hline : LineWritable loads line) :
    (AnthropicStream.handleLine loads draw line s).Ends (Ready first) (Halted first) := by
  unfold AnthropicStream.handleLine
  rcases hdata : dataString line with _ | data
  · exact h
  simp only
  split
  · rename_i j hj
    exact h.handleData hdraw (hline data j hdata hj)
  · exact h
  · exact h.halted

/-- **A chunk.** -/
theorem Ready.handleChunk (h : s.Ready first) (hdraw : ∀ ids, Json.str (draw ids) ∉ ids) {chunk : Option Text}
    (hchunk : ∀ text, chunk = some text → ∀ line ∈ chunkLines text, LineWritable loads line) :
    (AnthropicStream.handleChunk loads draw chunk s).Ends (Ready first) (Halted first) := by
  rcases chunk with _ | chunk
  · exact h.halted
  · exact forEach_ends (fun line hline s hs => hs.handleLine hdraw (hchunk chunk rfl line hline)) h

theorem Ready.start (messageId model : Text) {inputTokens : Option ℤ}
    (hinput : ∀ n, inputTokens = some n → (Json.int n).writable) :
    (AnthropicStream.start messageId model inputTokens).Ready (.messageStart messageId model (inputTokens.getD 0)) := by
  refine ⟨⟨?_, fun h => absurd h (by simp [AnthropicStream.start]), [], ⟨[], rfl, by simp, rfl⟩, ?_⟩, ?_⟩
  · rw [MessageUsage.writable_iff]
    refine ⟨Json.writable_zero, ?_, rfl, rfl, rfl, rfl, rfl⟩
    rcases inputTokens with _ | n
    · rfl
    · exact hinput n rfl
  · constructor <;> simp [AnthropicStream.start, openKind, Dict.empty, Dict.get, Ledger.entry]
  · intro key t ht
    cases ht

/-! ### The end -/

/-- **A tool call that was left without a block** gets one; no other block is open then. -/
theorem Halted.flushTool (h : s.Halted first) (key : Json) :
    (s.flushTool key).Halted first ∧ (s.flushTool key).thinkingBlockOpen = s.thinkingBlockOpen := by
  unfold AnthropicStream.flushTool
  rcases hget : s.trackedToolCalls.get key with _ | t
  · exact ⟨h, rfl⟩
  simp only
  by_cases hnew : (!t.started && t.name.truthy) = true
  · rw [if_pos hnew]
    obtain ⟨hstarted, hname⟩ : t.started = false ∧ t.name.truthy := by simpa using hnew
    have hkind : s.openKind = none := by
      refine h.2.resolve_right fun hnamed => ?_
      have hstart := hnamed key t hget (by simp) hname
      rw [hstarted] at hstart
      cases hstart
    have hopen : t.stopped = false := by
      obtain ⟨L, -, hlinked⟩ := h.1.ledger
      exact hlinked.fresh key t hget hstarted
    obtain ⟨hsound, hnone, hgot⟩ := h.1.startTool hkind hget
    have hstart : (s.startTool key t).2 = { t with blockIndex := s.currentBlockIndex, started := true } ∧
        (s.startTool key t).1.thinkingBlockOpen = s.thinkingBlockOpen := by
      unfold AnthropicStream.startTool
      rw [if_pos hnew]
      exact ⟨rfl, rfl⟩
    split_ifs
    · refine ⟨⟨hsound.emitArguments hgot ?_ ?_ _, .inl hnone⟩, hstart.2⟩ <;> rw [hstart.1]
      exact hopen
    · exact ⟨⟨hsound, .inl hnone⟩, hstart.2⟩
  · rw [if_neg hnew]
    exact ⟨h, rfl⟩

theorem Halted.flushTools (keys : List Json) (h : s.Halted first) :
    (keys.foldl AnthropicStream.flushTool s).Halted first ∧
      (keys.foldl AnthropicStream.flushTool s).thinkingBlockOpen = s.thinkingBlockOpen := by
  induction keys generalizing s with
  | nil => exact ⟨h, rfl⟩
  | cons key keys ih =>
    obtain ⟨hflush, hflag⟩ := h.flushTool key
    obtain ⟨hrest, hflag'⟩ := ih hflush
    exact ⟨hrest, hflag'.trans hflag⟩

/-- **What is stopped at the end** are the blocks of the tool calls that are open.  `tools` is the table in which those
    that have been seen are stopped. -/
theorem stopTools {tools : Dict Json TrackedToolCall} {keys : List Json} (hkeys : keys.Nodup)
    (hemitted : Emitted first s.events L) (hlinked : Linked cur none tools L)
    (hunseen : ∀ key ∈ keys, tools.get key = s.trackedToolCalls.get key)
    (hseen : ∀ key t, tools.get key = some t → key ∉ keys → t.started → t.stopped) :
    ∃ L', Emitted first (keys.foldl stopTool s).events L' ∧ (∀ i kind, L'.entry i ≠ some ⟨kind, true⟩) ∧
      (keys.foldl stopTool s).usage = s.usage := by
  induction keys generalizing s tools L with
  | nil =>
    refine ⟨L, hemitted, ?_, rfl⟩
    intro i kind hi
    rcases hlinked.opened i kind hi with ⟨-, hnone⟩ | ⟨key, t, ht, hstarted, hopen, -⟩
    · cases hnone
    · rw [hseen key t ht (by simp) hstarted] at hopen
      cases hopen
  | cons key keys ih =>
    obtain ⟨hkey, hkeys⟩ := List.nodup_cons.1 hkeys
    have hget := hunseen key List.mem_cons_self
    rw [List.foldl_cons]
    by_cases hopen : ∃ t, s.trackedToolCalls.get key = some t ∧ t.started ∧ t.stopped = false
    · obtain ⟨t, ht, hstarted, hstopped⟩ := hopen
      rw [ht] at hget
      obtain ⟨hentry, hclosed⟩ :=
        hlinked.stopTool (t := { t with stopped := true }) hget hstarted hstopped hstarted rfl rfl
      have hstop : s.stopTool key = s.emit (.contentBlockStop t.blockIndex) := by
        simp [AnthropicStream.stopTool, ht, hstarted, hstopped]
      rw [hstop]
      refine ih hkeys (hemitted.snoc rfl (Ledger.step_stop hentry)) hclosed ?_ ?_
      · intro k hk
        rw [Dict.get_set, if_neg (by rintro rfl; exact hkey hk)]
        exact hunseen k (List.mem_cons_of_mem _ hk)
      · intro k t' ht' hk hs
        rw [Dict.get_set] at ht'
        split_ifs at ht' with heq
        · cases ht'
          rfl
        · exact hseen k t' ht' (by simp [heq, hk]) hs
    · have hstop : s.stopTool key = s := by
        unfold AnthropicStream.stopTool
        split
        · rfl
        · rename_i t ht
          rw [if_neg]
          intro h
          exact hopen ⟨t, ht, by simpa using h⟩
      rw [hstop]
      refine ih hkeys hemitted hlinked (fun k hk => hunseen k (List.mem_cons_of_mem _ hk)) ?_
      intro k t ht hk hs
      by_cases heq : k = key
      · subst heq
        by_contra hnot
        exact hopen ⟨t, hget ▸ ht, hs, by simpa using hnot⟩
      · exact hseen k t ht (by simp [heq, hk]) hs

/-- **What is open is closed at the end.** -/
theorem Halted.closeBlocks (h : s.Halted first) :
    (∃ L, Emitted first s.closeBlocks.events L ∧ ∀ i kind, L.entry i ≠ some ⟨kind, true⟩) ∧
      s.closeBlocks.usage.toJson.writable := by
  obtain ⟨htools, hthinking, htext⟩ := tools_closeThinking s
  have hclosed : s.closeThinking.Halted first := by
    refine ⟨h.1.closeThinking, ?_⟩
    rcases h.2 with hnone | hnamed
    · have hflags : s.textBlockOpen = false := by
        unfold openKind at hnone
        split_ifs at hnone with h₁ h₂
        simpa using h₂
      left
      simp [openKind, hthinking, htext, hflags]
    · right
      rw [NamedBut, htools]
      exact hnamed
  unfold AnthropicStream.closeBlocks
  obtain ⟨hflushed, hflag⟩ := Halted.flushTools s.closeThinking.trackedToolCalls.keys hclosed
  have hsound := hflushed.1.closeText (hflag.trans hthinking)
  obtain ⟨-, htext', hthinking'⟩ := tools_closeText
    (s.closeThinking.trackedToolCalls.keys.foldl AnthropicStream.flushTool s.closeThinking)
  obtain ⟨L, hemitted, hlinked⟩ := hsound.ledger
  rw [openKind, hthinking', hflag, hthinking, htext'] at hlinked
  obtain ⟨L', hemitted', hall, husage⟩ := stopTools (Dict.nodup _) hemitted hlinked (fun _ _ => rfl) (by
    intro key t ht hkey
    exact absurd (Dict.mem_keys_iff.2 ⟨t, ht⟩) hkey)
  have hwritable := hsound.writable
  rw [← husage] at hwritable
  exact ⟨⟨L', hemitted', hall⟩, hwritable⟩

end AnthropicStream

end

/-! ## The stream -/

/-- What an SDK relies on: `message_start` first, `message_delta` and `message_stop` last, and in between blocks that
    are started under the indices from zero on, get deltas of their own kind only and while they are open, and are
    each stopped once. -/
def WellFormedStream (events : List AnthropicEvent) : Prop :=
  ∃ messageId model inputTokens middle stopReason usage,
    events = .messageStart messageId model inputTokens :: middle ++ [.messageDelta stopReason usage, .messageStop] ∧
      (∀ e ∈ middle, e.op.isSome) ∧ Ledger.Disciplined (middle.filterMap AnthropicEvent.op) ∧
      ∀ i kind, .start i kind ∈ middle.filterMap AnthropicEvent.op →
        (middle.filterMap AnthropicEvent.op).count (.stop i) = 1

/-- **The Anthropic stream is well formed**, if the numbers of what is read of the usage can be written. -/
theorem wellFormed_anthropicStream {loads : Text → Except Json.LoadError Json} {draw : List Json → Text}
    (hdraw : ∀ ids, Json.str (draw ids) ∉ ids) (messageId model : Text) {inputTokens : Option ℤ}
    (hinput : ∀ n, inputTokens = some n → (Json.int n).writable) {chunks : List (Option Text)}
    (hchunks : ∀ chunk, some chunk ∈ chunks → ∀ line ∈ AnthropicStream.chunkLines chunk, LineWritable loads line) :
    WellFormedStream (openaiStreamToAnthropicStream loads draw messageId model inputTokens chunks) := by
  have hends : (forEach (AnthropicStream.handleChunk loads draw) chunks (.start messageId model inputTokens)).Ends
      (AnthropicStream.Ready (.messageStart messageId model (inputTokens.getD 0)))
      (AnthropicStream.Halted (.messageStart messageId model (inputTokens.getD 0))) := by
    refine forEach_ends (fun chunk hchunk s hs => hs.handleChunk hdraw ?_)
      (AnthropicStream.Ready.start messageId model hinput)
    rintro text rfl
    exact hchunks text hchunk
  have hhalted : (forEach (AnthropicStream.handleChunk loads draw) chunks
      (.start messageId model inputTokens)).state.Halted (.messageStart messageId model (inputTokens.getD 0)) := by
    rcases hend : forEach (AnthropicStream.handleChunk loads draw) chunks (.start messageId model inputTokens)
      with s | s
    · rw [hend] at hends
      exact AnthropicStream.Ready.halted hends
    · rw [hend] at hends
      exact hends
  obtain ⟨⟨L, ⟨middle, hevents, hmiddle, hrun⟩, hclosed⟩, hwritable⟩ := hhalted.closeBlocks
  rw [openaiStreamToAnthropicStream, hevents, AnthropicStream.lastEvents, if_pos hwritable]
  exact ⟨_, _, _, middle, _, _, rfl, hmiddle, Ledger.disciplined_of_run hrun,
    fun i kind hstart => Ledger.count_stop_of_run hrun hclosed hstart⟩

/-- An id that is longer than those given. -/
def longerId (ids : List Json) : Text :=
  List.replicate ((ids.map fun | .str id => id.length | _ => 0).sum + 1) (.ofChar '0')

theorem longerId_notMem (ids : List Json) : Json.str (longerId ids) ∉ ids := by
  intro h
  have hle : (longerId ids).length ≤ (ids.map fun | .str id => id.length | _ => 0).sum :=
    List.le_sum_of_mem (List.mem_map.2 ⟨_, h, rfl⟩)
  rw [longerId, List.length_replicate] at hle
  omega

/-- The data of three lines: a text, a tool call, and a usage. -/
def helloLines : List (Text × Json) := [
  (.lit "\x7b\"choices\":[\x7b\"delta\":\x7b\"content\":\"Hi\"\x7d\x7d]\x7d",
    .obj [(.lit "choices", .arr [.obj [(.lit "delta", .obj [(.lit "content", .str (.lit "Hi"))])]])]),
  (.lit "\x7b\"choices\":[\x7b\"delta\":\x7b\"tool_calls\":[\x7b\"id\":\"c1\"," ++
      .lit "\"function\":\x7b\"name\":\"look\"\x7d\x7d]\x7d\x7d]\x7d",
    .obj [(.lit "choices", .arr [.obj [(.lit "delta", .obj [(.lit "tool_calls", .arr [
      .obj [(.lit "id", .str (.lit "c1")), (.lit "function", .obj [(.lit "name", .str (.lit "look"))])]])])]])]),
  (.lit "\x7b\"usage\":\x7b\"completion_tokens\":2\x7d\x7d",
    .obj [(.lit "usage", .obj [(.lit "completion_tokens", .int 2)])])]

/-- `json.loads`, of the lines and of what is no JSON. -/
def loadsHello (t : Text) : Except Json.LoadError Json := (helloLines.lookup t).elim (.error .decodeError) .ok

/-- The lines, in a chunk each. -/
def helloStream : List AnthropicEvent :=
  openaiStreamToAnthropicStream loadsHello longerId (.lit "msg_0") (.lit "gpt") (some 7)
    (helloLines.map fun e => some (Text.lit "data: " ++ e.1))

/-- The text, the tool call and what closes the stream. -/
theorem wellFormed_anthropicStream_hello : WellFormedStream helloStream ∧
    helloStream.filterMap AnthropicEvent.op =
      [.start 0 .text, .use 0 .text, .stop 0, .start 1 .toolUse, .stop 1] := by
  have hwritable : ∀ n : ℤ, n.natAbs < 10 → (Json.int n).writable := by
    intro n hn
    rw [Json.writable, decide_eq_true_eq]
    exact hn.trans_le (Nat.le_self_pow (by decide) 10)
  have husages : ∀ e ∈ helloLines, UsageWritable e.2 := by
    simp only [helloLines, List.forall_mem_cons, List.not_mem_nil, false_implies, implies_true, and_true]
    refine ⟨?_, ?_, ?_⟩ <;> intro usageData read husage hread <;> cases husage <;> cases hread
    · exact MessageUsage.writable_iff.2 ⟨rfl, rfl, rfl, rfl, rfl, rfl, rfl⟩
    · exact MessageUsage.writable_iff.2 ⟨rfl, rfl, rfl, rfl, rfl, rfl, rfl⟩
    · exact MessageUsage.writable_iff.2 ⟨hwritable 2 (by decide), rfl, rfl, rfl, rfl, rfl, rfl⟩
  refine ⟨wellFormed_anthropicStream longerId_notMem _ _ (by rintro n ⟨⟩; exact hwritable 7 (by decide)) ?_,
    by decide +kernel⟩
  rintro chunk - line - data json - hloads
  rw [loadsHello] at hloads
  cases hlookup : helloLines.lookup data with
  | none => rw [hlookup] at hloads; cases hloads
  | some value =>
    rw [hlookup] at hloads
    cases hloads
    obtain ⟨before, after, hlines, -⟩ := List.lookup_eq_some_iff.1 hlookup
    exact husages (data, _) (by simp [hlines])

/-! ## A stream that is not finished -/

theorem strip_eq_self {t : Text} (hfirst : ∀ c ∈ t.head?, Text.isSpace c = false)
    (hlast : ∀ c ∈ t.getLast?, Text.isSpace c = false) : Text.strip t = t := by
  have hdrop : ∀ l : Text, (∀ c ∈ l.head?, Text.isSpace c = false) → l.dropWhile Text.isSpace = l := by
    intro l hl
    cases l with
    | nil => rfl
    | cons c l => rw [List.dropWhile_cons_of_neg (by simp [hl c rfl])]
  rw [Text.strip, hdrop t hfirst, hdrop t.reverse (by rwa [List.head?_reverse]), List.reverse_reverse]

/-- An integer with as many digits as are printed. -/
def nines : Text := List.replicate Json.maxStrDigits (.ofChar '9')

/-- A usage whose input tokens have one digit more. -/
def largeUsageData : Text :=
  Text.lit "\x7b\"usage\":\x7b\"prompt_tokens\":" ++ (nines ++ (Text.lit ",\"cache_creation_input_tokens\":-" ++
    (nines ++ Text.lit "\x7d\x7d")))

/-- The usage of two numbers. -/
def openAiUsage (promptTokens cacheCreation : ℤ) : Json :=
  .obj [(.lit "prompt_tokens", .int promptTokens), (.lit "cache_creation_input_tokens", .int cacheCreation)]

/-- The largest integer that is printed. -/
def largest : ℤ := 10 ^ Json.maxStrDigits - 1

def largeUsage : Json := .obj [(.lit "usage", openAiUsage largest (-largest))]

/-- `json.loads`, of the usage and of what is no JSON. -/
def loadsLarge (t : Text) : Except Json.LoadError Json :=
  if t = largeUsageData then .ok largeUsage else .error .decodeError

theorem strip_append_largeUsage {t : Text} (h : ∀ c ∈ (t ++ largeUsageData).head?, Text.isSpace c = false) :
    Text.strip (t ++ largeUsageData) = t ++ largeUsageData := by
  refine strip_eq_self h ?_
  have hlast : largeUsageData.getLast? = some (.ofChar '}') := by
    simp only [largeUsageData, List.getLast?_append]
    rfl
  rw [List.getLast?_append, hlast]
  rintro c ⟨⟩
  rfl

theorem chunkLines_largeUsage :
    AnthropicStream.chunkLines (Text.lit "data:" ++ largeUsageData) = [Text.lit "data:" ++ largeUsageData] := by
  have hlit : ∀ s : String, (Text.lit s).all (· ≠ .ofChar '\n') → ∀ c ∈ Text.lit s, (c == .ofChar '\n') = false := by
    intro s hs
    simpa [List.all_eq_true] using hs
  rw [AnthropicStream.chunkLines, strip_append_largeUsage (by rintro c ⟨⟩; rfl)]
  refine List.splitOnP_eq_singleton fun c hc => ?_
  simp only [largeUsageData, List.mem_append] at hc
  rcases hc with hc | hc | hc | hc | hc | hc
  · exact hlit _ rfl c hc
  · exact hlit _ rfl c hc
  · rw [List.eq_of_mem_replicate hc]
    rfl
  · exact hlit _ rfl c hc
  · rw [List.eq_of_mem_replicate hc]
    rfl
  · exact hlit _ rfl c hc

theorem dataString_largeUsage :
    AnthropicStream.dataString (Text.lit "data:" ++ largeUsageData) = some largeUsageData := by
  have hdata : Text.strip largeUsageData = largeUsageData := strip_append_largeUsage (t := []) (by rintro c ⟨⟩; rfl)
  have hlength : 8 < largeUsageData.length := by
    simp only [largeUsageData, nines, Json.maxStrDigits, List.length_append, List.length_replicate]
    omega
  have hne : ∀ s : String, (Text.lit s).length ≤ 8 → largeUsageData ≠ Text.lit s := by
    rintro s hs heq
    rw [heq] at hlength
    omega
  have hpre : (Text.lit "data:").isPrefixOf (Text.lit "data:" ++ largeUsageData) := by
    rw [List.isPrefixOf_iff_prefix]
    exact List.prefix_append _ _
  have hdrop : (Text.lit "data:" ++ largeUsageData).drop 5 = largeUsageData := rfl
  rw [AnthropicStream.dataString, strip_append_largeUsage (by rintro c ⟨⟩; rfl)]
  simp only [hdrop, hdata]
  rw [if_neg, if_neg]
  · rintro (heq | heq)
    · exact hne _ (by decide) heq
    · exact hne _ (by decide) heq
  · rintro (heq | hnot)
    · cases heq
    · exact hnot hpre

/-- What is read of it, if the numbers cancel out. -/
def usageReadOf (n : ℤ) : MessageUsage := ⟨.int (n + n), .null, .int (-n), .null, .null, .null, .null⟩

theorem readUsage_openAiUsage {n : ℤ} (hn : 0 < n) : readUsage (openAiUsage n (-n)) = some (usageReadOf n) := by
  have huncached : uncachedTokens (.int n) (.int (-n)) .null = some (.int (n + n)) := by
    have htruthy : (Json.int (-n)).or (.int 0) = .int (-n) := by
      rw [Json.or, if_pos]
      simp [Json.truthy, hn.ne']
    have hpos : ¬n - -n - 0 < 0 := by omega
    rw [uncachedTokens, htruthy]
    simp only [Json.sub, Json.unbool]
    show some (Json.atLeastZero (.int (n - -n - 0))) = _
    rw [Json.atLeastZero, if_neg hpos]
    congr 2
    omega
  have hread : readUsage (openAiUsage n (-n)) = (uncachedTokens (.int n) (.int (-n)) .null).map fun inputTokens =>
      ⟨inputTokens, .null, .int (-n), .null, .null, .null, .null⟩ := rfl
  rw [hread, huncached]
  rfl

theorem not_writable_largest : ¬(Json.int (largest + largest)).writable := by
  have hpow : (1 : ℤ) < 10 ^ Json.maxStrDigits := one_lt_pow₀ (by norm_num) (by decide)
  rw [Json.writable, decide_eq_true_eq, not_lt]
  zify
  rw [largest, abs_of_pos (by omega)]
  omega

theorem anthropicStream_openAiUsage {loads : Text → Except Json.LoadError Json} {draw : List Json → Text}
    {messageId model line data : Text} {n : ℤ} (hn : 0 < n) (hlarge : ¬(Json.int (n + n)).writable)
    (hline : AnthropicStream.chunkLines line = [line])
    (hdata : AnthropicStream.dataString line = some data)
    (hloads : loads data = .ok (.obj [(.lit "usage", openAiUsage n (-n))])) :
    openaiStreamToAnthropicStream loads draw messageId model none [some line] = [.messageStart messageId model 0] := by
  have hread : AnthropicStream.handleLine loads draw line (.start messageId model none) =
      .goesOn { AnthropicStream.start messageId model none with
        usage := (AnthropicStream.start messageId model none).usage.update (usageReadOf n) } := by
    rw [AnthropicStream.handleLine, hdata]
    simp only [hloads]
    have husage : (Json.obj [(.lit "usage", openAiUsage n (-n))]).item "usage" = some (openAiUsage n (-n)) := rfl
    have hchoices : (Json.obj [(.lit "usage", openAiUsage n (-n))]).itemD "choices" (.arr []) = some (.arr []) := rfl
    have hobj : (openAiUsage n (-n)).isObj = true := rfl
    rw [AnthropicStream.handleData, husage, hchoices]
    simp only [hobj, if_pos, readUsage_openAiUsage hn]
    rfl
  rw [openaiStreamToAnthropicStream, forEach, AnthropicStream.handleChunk, hline, forEach, hread]
  show [AnthropicEvent.messageStart messageId model 0] ++ AnthropicStream.lastEvents _ = _
  rw [AnthropicStream.lastEvents, if_neg]
  · rfl
  · rw [MessageUsage.writable_iff]
    exact fun h => hlarge h.2.1

theorem wellFormed_anthropicStream_fails : ¬WellFormedStream (openaiStreamToAnthropicStream loadsLarge longerId
    (.lit "msg_0") (.lit "gpt") none [some (Text.lit "data:" ++ largeUsageData)]) := by
  have hpos : 0 < largest := Int.sub_pos.2 (one_lt_pow₀ (by norm_num) (by decide))
  have hloads : loadsLarge largeUsageData = .ok largeUsage := if_pos rfl
  rw [anthropicStream_openAiUsage hpos not_writable_largest chunkLines_largeUsage dataString_largeUsage hloads]
  rintro ⟨messageId, model, inputTokens, middle, stopReason, usage, hevents, -⟩
  have hlength := congrArg List.length hevents
  simp at hlength

end TideBot
