/-
  Tags are found as by a full rescan (`utils/middleware.py`).

  `tag_output_handler` searches the new text, and a little before it.  A start tag may have attributes, so it goes back
  to the last `<` that is still open; but an attribute may have a `<` of its own, and the white space before the first
  attribute may be a newline.  Where no chunk completes such a start tag, the items are those of a full rescan
  (`streamContent_rescan`).
-/
import TideBot.Chat.TagRescan

namespace TideBot

open Lib

/-! ## A chunk -/

section
variable {tags : ContentType → List TagPair} {s s' : TagState} {type : ContentType} (value : Text)

theorem Alike.addMessage (h : Alike s s') : Alike (addMessage s) (addMessage s') := by
  unfold TideBot.addMessage
  rw [h.output, h.nextId]
  exact ⟨rfl, rfl, h.positions⟩

theorem Alike.extendLast (h : Alike s s') : Alike (extendLast value s) (extendLast value s') := by
  unfold TideBot.extendLast
  rw [h.output]
  cases s.output.getLast? with
  | none => exact h
  | some item => exact ⟨rfl, h.nextId, h.positions⟩

theorem Alike.endReasoningContent (h : Alike s s') : Alike (endReasoningContent s) (endReasoningContent s') := by
  unfold TideBot.endReasoningContent
  rw [h.output]
  cases s.output.getLast? with
  | none => exact h
  | some item =>
    dsimp only
    split_ifs
    · exact Alike.addMessage ⟨rfl, h.nextId, h.positions⟩
    · exact h

theorem Alike.appendContent (h : Alike s s') : Alike (appendContent value s) (appendContent value s') := by
  have hend := h.endReasoningContent
  unfold TideBot.appendContent
  dsimp only
  rw [hend.output]
  cases (TideBot.endReasoningContent s).output.getLast? with
  | none => exact hend.addMessage.extendLast value
  | some item =>
    dsimp only
    split_ifs
    · exact hend.extendLast value
    · exact hend.addMessage.extendLast value

theorem CacheSound.addMessage (h : CacheSound tags s) (output : List TagItem) :
    CacheSound tags (addMessage { s with output := output }) := by
  have hpush := h.push (t := TideBot.addMessage { s with output := output }) rfl rfl rfl (fun _ => .inr rfl)
    fun _ => .inr rfl
  exact hpush.1

theorem CacheSound.endReasoningContent (h : CacheSound tags s) : CacheSound tags (endReasoningContent s) := by
  unfold TideBot.endReasoningContent
  cases s.output.getLast? with
  | none => exact h
  | some item =>
    dsimp only
    split_ifs
    · exact h.addMessage _
    · exact h

theorem CacheSound.extendLast (h : CacheSound tags s) : CacheSound tags (extendLast value s) := by
  unfold TideBot.extendLast
  cases hitem : s.output.getLast? with
  | none => exact h
  | some item =>
    have hsound := h.last item hitem
    refine ⟨h.fresh, fun item' hitem' => ?_, fun item' hitem' => ?_⟩
    all_goals
      rw [List.getLast?_concat] at hitem'
      obtain rfl := Option.some.inj hitem'
    · exact h.old item hitem
    · refine ⟨fun type n hn => ?_, fun type e he => ?_⟩
      · obtain ⟨hle, hscanned⟩ := hsound.positions type n hn
        refine ⟨by rw [List.length_append]; omega, ?_⟩
        rwa [List.take_append_of_le_length hle]
      · obtain ⟨hle, hopen, hboundary⟩ := hsound.boundaries type e he
        refine ⟨by rw [List.length_append]; omega, ?_, ?_⟩
        · rwa [List.take_append_of_le_length hle]
        · rwa [List.take_append_of_le_length hle]

theorem CacheSound.appendContent (h : CacheSound tags s) : CacheSound tags (appendContent value s) := by
  have hend := h.endReasoningContent
  unfold TideBot.appendContent
  dsimp only
  cases (TideBot.endReasoningContent s).output.getLast? with
  | none => exact (hend.addMessage _).extendLast value
  | some item =>
    dsimp only
    split_ifs
    · exact hend.extendLast value
    · exact (hend.addMessage _).extendLast value

variable (isWord : CodePoint → Bool)

theorem detectAll_agree {types : List ContentType} (hnodup : types.Nodup) (h : CacheSound tags s) (hs : Alike s s')
    (hclear : ∀ type ∈ types, ClearFor tags s type) :
    Alike (detectAll isWord tags false types s).1 (detectAll isWord tags true types s').1 ∧
      (detectAll isWord tags true types s').2 = (detectAll isWord tags false types s).2 ∧
      CacheSound tags (detectAll isWord tags false types s).1 := by
  induction types generalizing s s' with
  | nil => exact ⟨hs, rfl, h⟩
  | cons type types ih =>
    obtain ⟨hnot, hnodup⟩ := List.nodup_cons.1 hnodup
    have hlength : lastText s' = lastText s := by rw [lastText, hs.output, lastText]
    have hcall := tagOutputHandler_agree isWord ((lastText s).length + 2) h hs (hclear type List.mem_cons_self)
    rw [detectAll, detectAll, detect, detect, hlength]
    dsimp only
    rw [hcall.flag]
    split_ifs
    · exact ⟨hcall.alike, rfl, hcall.sound⟩
    · refine ih hnodup hcall.sound hcall.alike fun other hother => ?_
      exact hcall.clear other (fun heq => hnot (heq ▸ hother)) (hclear other (List.mem_cons_of_mem type hother))

end

/-! ## A stream -/

section
variable (isWord : CodePoint → Bool) (tags : ContentType → List TagPair) (types : List ContentType)

/-- No chunk closes a start tag that has been passed over. -/
def ClearRun : List Text → TagState → Prop
  | [], _ => True
  | value :: values, s =>
    (∀ type ∈ types, ClearFor tags (appendContent value s) type) ∧
      ((contentDelta isWord tags false types value s).2 = false →
        ClearRun values (contentDelta isWord tags false types value s).1)

instance (s : TagState) (type : ContentType) : Decidable (ClearFor tags s type) :=
  inferInstanceAs (Decidable (∀ _ ∈ _, _ → ∀ _ ∈ _, ∀ _ ∈ _, _ → ¬_))

instance decidableClearRun : (values : List Text) → (s : TagState) → Decidable (ClearRun isWord tags types values s)
  | [], _ => isTrue trivial
  | value :: values, s =>
    have := decidableClearRun values (contentDelta isWord tags false types value s).1
    inferInstanceAs (Decidable (_ ∧ (_ → _)))

variable {isWord tags types} {s s' : TagState}

theorem streamContent_agree {values : List Text} (hnodup : types.Nodup) (h : CacheSound tags s) (hs : Alike s s')
    (hclear : ClearRun isWord tags types values s) :
    Alike (streamContent isWord tags false types values s) (streamContent isWord tags true types values s') := by
  induction values generalizing s s' with
  | nil => exact hs
  | cons value values ih =>
    obtain ⟨hnow, hlater⟩ := hclear
    obtain ⟨halike, hflag, hsound⟩ :=
      detectAll_agree isWord hnodup (h.appendContent value) (hs.appendContent value) hnow
    rw [streamContent, streamContent]
    unfold contentDelta at hlater ⊢
    dsimp only
    rw [hflag]
    split_ifs with hended
    · exact halike
    · exact ih hsound halike (hlater (by simpa using hended))

theorem detectors_nodup (a b : Bool) : (detectors a b).Nodup := by
  cases a <;> cases b <;> decide

theorem sound_startState (output : List TagItem) : CacheSound tags (startState output) := by
  refine ⟨fun _ _ _ => ⟨rfl, rfl⟩, fun item hitem i hi => ?_, fun item _ => ⟨fun type n hn => ?_, fun type e he => ?_⟩⟩
  · exact Nat.lt_succ_of_le (List.le_max_of_le' 0 (List.mem_filterMap.2 ⟨item, List.mem_of_getLast? hitem, hi⟩) le_rfl)
  · cases hn
  · cases he

/-- **Tags are found as by a full rescan**, if no chunk closes a start tag that has been passed over. -/
theorem streamContent_rescan (detectReasoningTags detectCodeInterpreter : Bool) (values : List Text)
    (output : List TagItem)
    (hclear : ClearRun isWord tags (detectors detectReasoningTags detectCodeInterpreter) values (startState output)) :
    (streamContent isWord tags false (detectors detectReasoningTags detectCodeInterpreter) values
        (startState output)).output =
      (streamContent isWord tags true (detectors detectReasoningTags detectCodeInterpreter) values
        (startState output)).output :=
  (streamContent_agree (detectors_nodup _ _) (sound_startState output) ⟨rfl, rfl, rfl⟩ hclear).output.symm

end

/-- `\w`, of ASCII -/
def asciiWord (c : CodePoint) : Bool :=
  codeOf 'a' ≤ c ∧ c ≤ codeOf 'z' ∨ codeOf 'A' ≤ c ∧ c ≤ codeOf 'Z' ∨ codeOf '0' ≤ c ∧ c ≤ codeOf '9' ∨ c = codeOf '_'

/-- A start tag with attributes in two chunks, and an end tag in two. -/
theorem streamContent_rescan_attributes :
    (streamContent asciiWord defaultTags false (detectors true true)
        [.lit "Hi. <think a=\"1", .lit "2345\">done", .lit " ok</thi", .lit "nk> after"] (startState [])).output =
      (streamContent asciiWord defaultTags true (detectors true true)
        [.lit "Hi. <think a=\"1", .lit "2345\">done", .lit " ok</thi", .lit "nk> after"] (startState [])).output :=
  streamContent_rescan true true _ [] (by decide +kernel)

/-- An attribute with a `<`: a full rescan finds the reasoning, `tag_output_handler` does not. -/
theorem not_streamContent_rescan : ¬∀ (isWord : CodePoint → Bool) (tags : ContentType → List TagPair)
    (detectReasoningTags detectCodeInterpreter : Bool) (values : List Text) (output : List TagItem),
    (∀ value ∈ values, value ≠ []) →
    (streamContent isWord tags false (detectors detectReasoningTags detectCodeInterpreter) values
        (startState output)).output.map (fun item => (item.kind, item.text)) =
      (streamContent isWord tags true (detectors detectReasoningTags detectCodeInterpreter) values
        (startState output)).output.map (fun item => (item.kind, item.text)) := by
  intro h
  have hrun := h asciiWord defaultTags true false
    [.lit "<think note=\"whether 1 < 2", .lit "\">Yes.</think>It is."] [] (by decide)
  revert hrun
  decide +kernel

end TideBot
