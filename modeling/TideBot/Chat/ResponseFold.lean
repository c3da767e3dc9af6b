/-
  The texts of a well-formed stream (`utils/middleware.py`).

  Each event of a well-formed stream keeps the output in step with what has been streamed (`Records.next`): an item
  that is added goes to the end, a delta goes into its own text, and what is done is what was streamed.
-/
import TideBot.Chat.ResponseTexts

namespace TideBot

open Lib

/-! ## Items are added -/

section
variable (py : Json → Text) {events : List StreamEvent} {e : StreamEvent} {output : List StreamItem} {i : ℕ}
  {added item item' : StreamItem}

theorem sameItem_congr {old old' : StreamItem} (h : old.identity = old'.identity) :
    sameItem item old = sameItem item old' := by
  have hid := (Prod.mk.inj (Prod.mk.inj h).2).1
  have hcall := (Prod.mk.inj (Prod.mk.inj h).2).2
  rw [sameItem, sameItem, hid, hcall]

theorem Records.addOutputItem_eq (h : Records events output) (hitem : e.item = some item)
    (hindex : e.outputIndex = some ((addedItems events).length : ℤ))
    (hfresh : ∀ old ∈ addedItems events, ¬sameItem item old) : addOutputItem e output = output ++ [item] := by
  have hnone : output.findIdx? (sameItem item) = none := by
    rw [List.findIdx?_eq_none_iff]
    intro found hfound
    obtain ⟨k, hk⟩ := List.mem_iff_getElem?.1 hfound
    have hlt := (List.getElem?_eq_some_iff.1 hk).1
    rw [h.length] at hlt
    have hshown := h.items k _ found (List.getElem?_eq_getElem hlt) hk
    rw [sameItem_congr hshown.identity]
    exact Bool.eq_false_iff.2 (hfresh _ (List.getElem_mem hlt))
  rw [addOutputItem, hitem]
  simp only [hnone]
  rw [hindex, Option.getD_some, h.length.symm, indexIn, if_neg (by omega)]

theorem Records.itemAdded (h : Records events output) (hprepared : Prepared events)
    (htype : e.type = .lit "response.output_item.added") (hitem : e.item = some item)
    (hindex : e.outputIndex = some ((addedItems events).length : ℤ))
    (hfresh : ∀ old ∈ addedItems events, ¬sameItem item old) (hblank : item.Blank) :
    Records (events ++ [e]) (streamStep py output e) := by
  have hstep : streamStep py output e = output ++ [item] := by
    rw [streamStep, handleResponsesStreamingEvent, if_pos htype]
    exact h.addOutputItem_eq hitem hindex hfresh
  have hitems : addedItems (events ++ [e]) = addedItems events ++ [item] := by
    rw [addedItems_snoc, if_pos htype, hitem, Option.toList_some]
  have hsilent : ∀ {k type}, streamedTexts (events ++ [e]) k type = streamedTexts events k type :=
    streamedTexts_of_silent (delta_of_type htype) (by simp [htype]) (by simp [htype])
  rw [hstep]
  refine ⟨by rw [hitems, List.length_append, List.length_append, h.length], ?_⟩
  intro k added found hadded hfound
  rw [hitems] at hadded
  by_cases hk : k < output.length
  · rw [List.getElem?_append_left hk] at hfound
    rw [List.getElem?_append_left (h.length ▸ hk)] at hadded
    obtain ⟨hidentity, htexts⟩ := h.items k added found hadded hfound
    exact ⟨hidentity, htexts.trans hsilent.symm⟩
  · have hk' : (addedItems events).length ≤ k := h.length ▸ not_lt.1 hk
    rw [List.getElem?_append_right (not_lt.1 hk), h.length] at hfound
    rw [List.getElem?_append_right hk'] at hadded
    obtain rfl : added = found := Option.some.inj (hadded.symm.trans hfound)
    obtain rfl : added = item := by
      have hmem := List.mem_of_getElem? hadded
      rwa [List.mem_singleton] at hmem
    exact ⟨rfl, (hblank.texts_eq hprepared hk').trans hsilent.symm⟩

/-! ## Items change -/

theorem ItemHolds.keep (h : ItemHolds events i added item) (hidentity : item'.identity = item.identity)
    (htexts : item'.texts = item.texts)
    (hsame : streamedTexts (events ++ [e]) i added.type = streamedTexts events i added.type) :
    ItemHolds (events ++ [e]) i added item' :=
  ⟨hidentity.trans h.identity, by rw [htexts, h.texts, hsame]⟩

theorem itemHolds_message (hadded : added.IsA "message") :
    ItemHolds events i added item ↔ item.identity = added.identity ∧
      (item.content.getD []).map partText =
        (List.range (contentParts events i)).map fun j => .str (fieldText events (.content i j)) := by
  constructor
  · intro h
    have htexts := h.texts
    rw [StreamItem.texts_message (h.isA hadded), streamedTexts_message hadded] at htexts
    exact ⟨h.identity, ItemTexts.message.inj htexts⟩
  · rintro ⟨hidentity, hparts⟩
    have hitem : item.IsA "message" := (Prod.mk.inj hidentity).1.trans hadded
    refine ⟨hidentity, ?_⟩
    rw [StreamItem.texts_message hitem, streamedTexts_message hadded, hparts]

theorem itemHolds_reasoning (hadded : added.IsA "reasoning") :
    ItemHolds events i added item ↔ item.identity = added.identity ∧
      (∀ j, partText (((item.content.getD [])[j]?).getD .empty) = .str (fieldText events (.content i j))) ∧
      (item.summary.getD []).map partText =
        (List.range (summaryParts events i)).map fun j => .str (fieldText events (.summary i j)) := by
  constructor
  · intro h
    have htexts := h.texts
    rw [StreamItem.texts_reasoning (h.isA hadded), streamedTexts_reasoning hadded] at htexts
    obtain ⟨hcontent, hsummary⟩ := ItemTexts.reasoning.inj htexts
    exact ⟨h.identity, congrFun hcontent, hsummary⟩
  · rintro ⟨hidentity, hcontent, hsummary⟩
    have hitem : item.IsA "reasoning" := (Prod.mk.inj hidentity).1.trans hadded
    refine ⟨hidentity, ?_⟩
    rw [StreamItem.texts_reasoning hitem, streamedTexts_reasoning hadded, hsummary, funext hcontent]

theorem itemHolds_functionCall (hadded : added.IsA "function_call") :
    ItemHolds events i added item ↔ item.identity = added.identity ∧
      item.fields.fetchD "arguments" (.str []) = .str (fieldText events (.arguments i)) := by
  constructor
  · intro h
    have htexts := h.texts
    rw [StreamItem.texts_functionCall (h.isA hadded), streamedTexts_functionCall hadded] at htexts
    exact ⟨h.identity, ItemTexts.functionCall.inj htexts⟩
  · rintro ⟨hidentity, harguments⟩
    have hitem : item.IsA "function_call" := (Prod.mk.inj hidentity).1.trans hadded
    refine ⟨hidentity, ?_⟩
    rw [StreamItem.texts_functionCall hitem, streamedTexts_functionCall hadded, harguments]

theorem modify_eq_set_of_getElem? {α : Type} {l : List α} {a : α} {k : ℕ} (h : l[k]? = some a) (f : α → α) :
    l.modify k f = l.set k (f a) := by
  ext m v
  rw [List.getElem?_modify, List.getElem?_set]
  obtain ⟨hlt, hget⟩ := List.getElem?_eq_some_iff.1 h
  by_cases hm : k = m
  · subst hm
    simp [hlt, hget]
  · cases l[m]? <;> simp [hm]

theorem ItemHolds.contentPartAdded (h : ItemHolds events i added item) (hprepared : Prepared events)
    (htype : e.type = .lit "response.content_part.added") (hfor : e.For events i added) (hadded : added.IsA "message")
    (hpart : partText e.part = .str []) : ItemHolds (events ++ [e]) i added (addContentPart e.part item) := by
  have hitem := h.isA hadded
  obtain ⟨hidentity, hparts⟩ := (itemHolds_message hadded).1 h
  refine (itemHolds_message hadded).2 ⟨hidentity, ?_⟩
  have hkeep : ∀ field, fieldText (events ++ [e]) field = fieldText events field := fun _ =>
    fieldText_of_delta_none (delta_of_type htype)
  have hnew : fieldText events (.content i (contentParts events i)) = [] := by
    refine hprepared.texts _ ?_
    rintro ⟨added', hadded', hlt⟩
    obtain rfl : added = added' := Option.some.inj (hfor.2.symm.trans hadded')
    exact absurd (hlt hadded) (lt_irrefl _)
  have hcontent : (addContentPart e.part item).content.getD [] = item.content.getD [] ++ [e.part] := by
    simp [addContentPart, hitem.eqStr]
  rw [hcontent, contentParts_snoc, if_pos ⟨htype, hfor.1⟩]
  exact map_append_range hparts (fun k => by rw [hkeep]) (by rw [hpart, hkeep, hnew])

theorem ItemHolds.reasoningPartAdded (h : ItemHolds events i added item)
    (htype : e.type = .lit "response.content_part.added") (hadded : added.IsA "reasoning") :
    ItemHolds (events ++ [e]) i added (addContentPart e.part item) := by
  have hitem := h.isA hadded
  obtain ⟨hidentity, hcontent, hsummary⟩ := (itemHolds_reasoning hadded).1 h
  have hkeep : ∀ field, fieldText (events ++ [e]) field = fieldText events field := fun _ =>
    fieldText_of_delta_none (delta_of_type htype)
  refine (itemHolds_reasoning hadded).2 ⟨hidentity, ?_, ?_⟩
  · intro j
    rw [addContentPart, hitem.eqStr, hkeep]
    simpa using hcontent j
  · rw [summaryParts_snoc, if_neg fun h => by simp [htype] at h]
    simp only [hkeep]
    exact hsummary

theorem ItemHolds.summaryPartAdded (h : ItemHolds events i added item) (hprepared : Prepared events)
    (htype : e.type = .lit "response.reasoning_summary_part.added") (hfor : e.For events i added)
    (hadded : added.IsA "reasoning") (hpart : partText e.part = .str []) :
    ItemHolds (events ++ [e]) i added (addSummaryPart e.part item) := by
  obtain ⟨hidentity, hcontent, hsummary⟩ := (itemHolds_reasoning hadded).1 h
  have hkeep : ∀ field, fieldText (events ++ [e]) field = fieldText events field := fun _ =>
    fieldText_of_delta_none (delta_of_type htype)
  have hnew : fieldText events (.summary i (summaryParts events i)) = [] :=
    hprepared.texts _ fun hopen => absurd hopen.2 (lt_irrefl _)
  refine (itemHolds_reasoning hadded).2 ⟨hidentity, fun j => by rw [hkeep]; exact hcontent j, ?_⟩
  rw [summaryParts_snoc, if_pos ⟨htype, hfor.1⟩]
  exact map_append_range hsummary (fun k => by rw [hkeep]) (by rw [hpart, hkeep, hnew])

end

/-! ## Deltas -/

section
variable (py : Json → Text) {events : List StreamEvent} {e : StreamEvent} {output : List StreamItem} {i j : ℕ}
  {added item item' : StreamItem} {name : Text}

theorem get_identity_set (key : Text) (hkey : ∀ known ∈ ["type", "id", "call_id"], key ≠ .lit known) (value : Json)
    (item : StreamItem) : StreamItem.identity { item with fields := item.fields.set key value } = item.identity := by
  simp only [List.mem_cons, List.not_mem_nil, or_false, forall_eq_or_imp, forall_eq] at hkey
  obtain ⟨htype, hid, hcall⟩ := hkey
  simp only [StreamItem.identity, StreamItem.type, PyDict.fetchD, PyDict.fetch, Dict.get_set_of_ne _ htype.symm,
    Dict.get_set_of_ne _ hid.symm, Dict.get_set_of_ne _ hcall.symm]

theorem parts_of_suffix {suffix : Text} (h : suffix.isSuffixOf e.type) (hcontent : ¬suffix.isSuffixOf
    (Text.lit "response.content_part.added")) (hsummary : ¬suffix.isSuffixOf
    (Text.lit "response.reasoning_summary_part.added")) (i : ℕ) :
    contentParts (events ++ [e]) i = contentParts events i ∧
      summaryParts (events ++ [e]) i = summaryParts events i := by
  rw [contentParts_snoc, summaryParts_snoc, if_neg fun hc => ne_of_suffix h hcontent hc.1,
    if_neg fun hc => ne_of_suffix h hsummary hc.1]
  exact ⟨rfl, rfl⟩

theorem parts_of_delta (htype : e.type = responseType name "delta") (i : ℕ) :
    contentParts (events ++ [e]) i = contentParts events i ∧
      summaryParts (events ++ [e]) i = summaryParts events i :=
  parts_of_suffix (htype ▸ isSuffixOf_delta) (by decide) (by decide) i

theorem parts_of_done (htype : e.type = responseType name "done") (i : ℕ) :
    contentParts (events ++ [e]) i = contentParts events i ∧
      summaryParts (events ++ [e]) i = summaryParts events i :=
  parts_of_suffix (htype ▸ isSuffixOf_done) (by decide) (by decide) i

theorem Records.delta (h : Records events output) (hname : CodePoint.ofChar '.' ∉ name)
    (htype : e.type = responseType name "delta") (hfor : e.For events i added)
    (hitem : ∀ item, ItemHolds events i added item →
      ∃ item', applyDelta py name e item = some item' ∧ ItemHolds (events ++ [e]) i added item') :
    Records (events ++ [e]) (streamStep py output e) := by
  obtain ⟨item, hget, hshown⟩ := h.found hfor
  obtain ⟨item', happly, hshown'⟩ := hitem item hshown
  rw [streamStep_delta py hname htype hfor.1 hget, happly]
  exact h.set hfor (ne_of_suffix (htype ▸ isSuffixOf_delta) (by decide)) hshown'

theorem fetchD_of_get {d : PyDict} {key : String} {value default : Json} (h : d.get (.lit key) = some value) :
    d.fetchD key default = value := by
  rw [PyDict.fetchD, h, Option.getD_some]

theorem ItemHolds.textDelta {name : String} {text : Text} (h : ItemHolds events i added item)
    (hdelta : e.IsDelta name text) (hname : name ∈ ["text", "output_text"]) (hfor : e.For events i added)
    (hadded : added.IsA "message") (hj : e.contentIndex = some j) (hlt : j < contentParts events i) :
    ∃ item', applyDelta py (.lit name) e item = some item' ∧ ItemHolds (events ++ [e]) i added item' := by
  have hitem := h.isA hadded
  obtain ⟨hidentity, hparts⟩ := (itemHolds_message hadded).1 h
  have hlength : j < (item.content.getD []).length := by rwa [length_of_map_range hparts]
  have hfieldText : ∀ field, fieldText (events ++ [e]) field =
      if .content i j = field then fieldText events field ++ text else fieldText events field := fun field =>
    fieldText_of_delta (delta_content hdelta (textType_mem hname) hfor.1 hj)
  let merged := fun part : PyDict =>
    part.set (.lit "text") (deepMerge (initialValue ((part.get (.lit "text")).getD .null) (.str text)) (.str text))
  refine ⟨{ item with content := some ((item.content.getD []).modify j merged) }, ?_,
    (itemHolds_message hadded).2 ⟨hidentity, ?_⟩⟩
  · rw [← updatePadded_of_lt (emptyPart "text") hlength]
    simp only [List.mem_cons, List.not_mem_nil, or_false] at hname
    obtain rfl | rfl := hname <;> simp [applyDelta, hitem.eqStr, fetchD_of_get hdelta.2, hj, merged]
  · rw [(parts_of_delta hdelta.1 i).1]
    refine map_modify_range hparts (fun k hk => ?_) fun part hpart => ?_
    · rw [hfieldText, if_neg]
      rintro ⟨⟩
      exact hk rfl
    · rw [hfieldText, if_pos rfl, partText_set, deepMerge_text hpart]

/-- The text of a part of the content of a reasoning grows, which may be a new part. -/
theorem ItemHolds.reasoningDelta {text : Text} (h : ItemHolds events i added item)
    (hdelta : e.IsDelta "reasoning_text" text) (hfor : e.For events i added) (hadded : added.IsA "reasoning")
    (hj : e.contentIndex = some j) :
    ∃ item', applyDelta py (.lit "reasoning_text") e item = some item' ∧
      ItemHolds (events ++ [e]) i added item' := by
  have hitem := h.isA hadded
  obtain ⟨hidentity, hcontent, hsummary⟩ := (itemHolds_reasoning hadded).1 h
  have hfieldText : ∀ field, fieldText (events ++ [e]) field =
      if .content i j = field then fieldText events field ++ text else fieldText events field := fun field =>
    fieldText_of_delta (delta_content hdelta (by simp) hfor.1 hj)
  let merged := fun part : PyDict => part.put "text" (deepMerge (part.fetchD "text" (.str [])) (.str text))
  refine ⟨{ item with content := some (updatePadded (emptyPart "text") j merged (item.content.getD [])) }, ?_,
    (itemHolds_reasoning hadded).2 ⟨hidentity, fun k => ?_, ?_⟩⟩
  · simp [applyDelta, hitem.eqStr, fetchD_of_get hdelta.2, hj, merged]
  · have hfiller : partText (emptyPart "text") = .str [] := by decide
    rw [Option.getD_some, partText_updatePadded hfiller, hfieldText]
    by_cases hk : j = k
    · subst hk
      have hpart : partText (((item.content.getD [])[j]?).getD (emptyPart "text")) =
          .str (fieldText events (.content i j)) := by
        rw [← hcontent j]
        cases (item.content.getD [])[j]? with
        | none => exact hfiller
        | some part => rfl
      rw [if_pos rfl, if_pos rfl]
      show partText (PyDict.put _ _ _) = _
      rw [PyDict.put, partText_set]
      show deepMerge (partText _) _ = _
      rw [hpart]
      rfl
    · rw [if_neg hk, if_neg (by simp [hk]), hcontent]
  · rw [(parts_of_delta hdelta.1 i).2]
    simp only [hfieldText]
    exact hsummary

theorem ItemHolds.summaryDelta {text : Text} (h : ItemHolds events i added item)
    (hdelta : e.IsDelta "reasoning_summary_text" text) (hfor : e.For events i added) (hadded : added.IsA "reasoning")
    (hj : e.summaryIndex = some j) (hlt : j < summaryParts events i) :
    ∃ item', applyDelta py (.lit "reasoning_summary_text") e item = some item' ∧
      ItemHolds (events ++ [e]) i added item' := by
  have hitem := h.isA hadded
  obtain ⟨hidentity, hcontent, hsummary⟩ := (itemHolds_reasoning hadded).1 h
  have hlength : j < (item.summary.getD []).length := by rwa [length_of_map_range hsummary]
  have hfieldText : ∀ field, fieldText (events ++ [e]) field =
      if .summary i j = field then fieldText events field ++ text else fieldText events field := fun field =>
    fieldText_of_delta (delta_summary hdelta hfor.1 hj)
  let merged := fun part : PyDict => part.put "text" (deepMerge (part.fetchD "text" (.str [])) (.str text))
  refine ⟨{ item with summary := some ((item.summary.getD []).modify j merged) }, ?_,
    (itemHolds_reasoning hadded).2 ⟨hidentity, fun k => ?_, ?_⟩⟩
  · rw [← updatePadded_of_lt (emptyPart "summary_text") hlength]
    simp [applyDelta, hitem.eqStr, fetchD_of_get hdelta.2, hj, merged]
  · rw [hfieldText]
    exact hcontent k
  · rw [(parts_of_delta hdelta.1 i).2]
    refine map_modify_range hsummary (fun k hk => ?_) fun part hpart => ?_
    · rw [hfieldText, if_neg]
      rintro ⟨⟩
      exact hk rfl
    · rw [hfieldText, if_pos rfl]
      show partText (PyDict.put _ _ _) = _
      rw [PyDict.put, partText_set]
      show deepMerge (partText part) _ = _
      rw [hpart]
      rfl

theorem ItemHolds.argumentsDelta {text : Text} (h : ItemHolds events i added item)
    (hdelta : e.IsDelta "function_call_arguments" text) (hfor : e.For events i added)
    (hadded : added.IsA "function_call") :
    ∃ item', applyDelta py (.lit "function_call_arguments") e item = some item' ∧
      ItemHolds (events ++ [e]) i added item' := by
  have hitem := h.isA hadded
  obtain ⟨hidentity, harguments⟩ := (itemHolds_functionCall hadded).1 h
  have hfieldText : fieldText (events ++ [e]) (.arguments i) = fieldText events (.arguments i) ++ text := by
    rw [fieldText_of_delta (delta_arguments hdelta hfor.1), if_pos rfl]
  refine ⟨{ item with fields := item.fields.put "arguments" (.str (fieldText events (.arguments i) ++ text)) }, ?_,
    (itemHolds_functionCall hadded).2 ⟨?_, ?_⟩⟩
  · simp [applyDelta, hitem.eqStr, fetchD_of_get hdelta.2, harguments]
  · exact (get_identity_set (.lit "arguments") (by simp) _ item).trans hidentity
  · rw [hfieldText]
    exact fetchD_of_get (Dict.get_set_self _ _ _)

theorem not_isA_iff {type : String} : ¬item.IsA type ↔ item.type.eqStr (.lit type) = false := by
  rw [Bool.eq_false_iff, ne_eq, Json.eqStr_iff]
  rfl

theorem OtherField.holds_set (h : OtherField name) (hshown : ItemHolds events i added item)
    (hsame : streamedTexts (events ++ [e]) i added.type = streamedTexts events i added.type) (value : Json) :
    ItemHolds (events ++ [e]) i added { item with fields := item.fields.set name value } := by
  have hidentity := get_identity_set name (fun known hknown => h.other known (by simp at hknown ⊢; tauto)) value item
  refine hshown.keep hidentity ?_ hsame
  refine StreamItem.texts_congr (Prod.mk.inj hidentity).1 rfl rfl fun _ => ?_
  rw [PyDict.fetchD, PyDict.fetchD, Dict.get_set_of_ne _ (h.other "arguments" (by simp)).symm]

theorem OtherField.holds_modify (h : OtherField name) (hshown : ItemHolds events i added item)
    (hadded : added.IsA "message")
    (hsame : streamedTexts (events ++ [e]) i added.type = streamedTexts events i added.type) (value : PyDict → Json)
    (k : ℕ) {content : Option (List PyDict)}
    (hcontent : content.getD [] = (item.content.getD []).modify k fun part => part.set name (value part)) :
    ItemHolds (events ++ [e]) i added { item with content := content } := by
  refine hshown.keep rfl ?_ hsame
  have hitem := hshown.isA hadded
  have hitem' : StreamItem.IsA { item with content := content } "message" := hitem
  rw [StreamItem.texts_message hitem, StreamItem.texts_message hitem']
  show ItemTexts.message ((content.getD []).map partText) = _
  rw [hcontent]
  congr 1
  ext m v
  rw [List.getElem?_map, List.getElem?_map, List.getElem?_modify]
  have hpart : ∀ part : PyDict, partText (if k = m then part.set name (value part) else part) = partText part := by
    intro part
    split_ifs
    · exact partText_set_of_ne (h.other "text" (by simp)) _
    · rfl
  cases (item.content.getD [])[m]? <;> simp [hpart]

theorem ItemHolds.otherDelta (h : ItemHolds events i added item) (htype : e.type = responseType name "delta")
    (hname : OtherField name)
    (hindex : added.IsA "message" → ∃ j, e.contentIndex = some j ∧ j < contentParts events i) :
    ∃ item', applyDelta py name e item = some item' ∧ ItemHolds (events ++ [e]) i added item' := by
  have hsuffix : (Text.lit ".delta").isSuffixOf e.type := htype ▸ isSuffixOf_delta
  have hsame : streamedTexts (events ++ [e]) i added.type = streamedTexts events i added.type :=
    streamedTexts_of_silent (hname.delta htype) (ne_of_suffix hsuffix (by decide)) (ne_of_suffix hsuffix (by decide))
  have hother := hname.other
  simp only [List.mem_cons, List.not_mem_nil, or_false, forall_eq_or_imp, forall_eq] at hother
  have htypes : item.type = added.type := (Prod.mk.inj h.identity).1
  by_cases hmessage : added.IsA "message"
  · obtain ⟨j, hj, hlt⟩ := hindex hmessage
    have hitem := h.isA hmessage
    have hlength : j < (item.content.getD []).length := by
      rwa [length_of_map_range ((itemHolds_message hmessage).1 h).2]
    let delta := e.fields.fetchD "delta" (.str [])
    let value := fun part : PyDict => deepMerge (initialValue ((part.get name).getD .null) delta) delta
    refine ⟨{ item with content := some ((item.content.getD []).modify j fun part => part.set name (value part)) }, ?_,
      hname.holds_modify h hmessage hsame value j rfl⟩
    rw [← updatePadded_of_lt (emptyPart "text") hlength]
    simp [applyDelta, hitem.eqStr, hother, hj, value, delta]
  · have hitem : item.type.eqStr (.lit "message") = false := by
      rw [htypes]
      exact not_isA_iff.1 hmessage
    by_cases hreasoning : added.IsA "reasoning"
    · exact ⟨item, by simp [applyDelta, (h.isA hreasoning).eqStr, hother], h.keep rfl rfl hsame⟩
    · have hitem' : item.type.eqStr (.lit "reasoning") = false := by
        rw [htypes]
        exact not_isA_iff.1 hreasoning
      exact ⟨_, by simp only [applyDelta, hitem, hitem', hother]; simp; rfl, hname.holds_set h hsame _⟩

end

/-! ## What is done -/

section
variable (py : Json → Text) {events : List StreamEvent} {e : StreamEvent} {output : List StreamItem} {i j : ℕ}
  {added item item' : StreamItem} {name : Text}

theorem Records.done (h : Records events output) (htype : e.type = responseType name "done")
    (hname : name ≠ .lit "output_item") (hfor : e.For events i added)
    (hitem : ∀ item, output[i]? = some item → ItemHolds events i added item →
      (handleDone e output).1 = output ∨
        ∃ item', (handleDone e output).1 = output.set i item' ∧ ItemHolds (events ++ [e]) i added item') :
    Records (events ++ [e]) (streamStep py output e) := by
  have hsuffix : (Text.lit ".done").isSuffixOf e.type := htype ▸ isSuffixOf_done
  obtain ⟨item, hget, hshown⟩ := h.found hfor
  rw [streamStep_done py htype hname]
  obtain hstep | ⟨item', hstep, hshown'⟩ := hitem item hget hshown
  · rw [hstep]
    exact h.silent (delta_of_done htype) (ne_of_suffix hsuffix (by decide)) (ne_of_suffix hsuffix (by decide))
      (ne_of_suffix hsuffix (by decide))
  · rw [hstep]
    exact h.set hfor (ne_of_suffix hsuffix (by decide)) hshown'

theorem fieldText_of_done (htype : e.type = responseType name "done") (field : TextField) :
    fieldText (events ++ [e]) field = fieldText events field :=
  fieldText_of_delta_none (delta_of_done htype)

theorem streamedTexts_of_done (htype : e.type = responseType name "done") {type : Json} :
    streamedTexts (events ++ [e]) i type = streamedTexts events i type := by
  have hsuffix : (Text.lit ".done").isSuffixOf e.type := htype ▸ isSuffixOf_done
  exact streamedTexts_of_silent (delta_of_done htype) (ne_of_suffix hsuffix (by decide))
    (ne_of_suffix hsuffix (by decide))

theorem handleDone_field (hdot : CodePoint.ofChar '.' ∉ name) (htype : e.type = responseType name "done")
    (hname : ∀ known ∈ ["content_part", "reasoning_summary_part"], name ≠ .lit known)
    (hindex : e.outputIndex = some (i : ℤ)) (hget : output[i]? = some item) :
    (handleDone e output).1 = output ∨ ∃ value, e.fields.get (doneKey name) = some value ∧
      (handleDone e output).1 = output.set i (applyDone name (doneKey name) value e item) := by
  rw [handleDone, htype, splitDots_responseType hdot (by decide), place_eq hindex hget]
  simp only [hget]
  rw [if_neg (hname _ (by simp)), if_neg (hname _ (by simp))]
  split_ifs
  · exact .inl rfl
  · cases hvalue : e.fields.get (doneKey name) with
    | none => exact .inl rfl
    | some value => exact .inr ⟨value, rfl, rfl⟩

theorem replacePart_cases (part : PyDict) (j : ℕ) (parts : Option (List PyDict)) :
    (if part.entries = [] then none else replacePart part (some j) parts) = none ∨ ∃ ps, parts = some ps ∧
      j < ps.length ∧ (if part.entries = [] then none else replacePart part (some j) parts) = some (ps.set j part) := by
  split_ifs
  · exact .inl rfl
  cases parts with
  | none => exact .inl rfl
  | some ps =>
    by_cases hlt : j < ps.length
    · exact .inr ⟨ps, rfl, hlt, by simp [replacePart, indexIn, hlt]⟩
    · exact .inl (by simp [replacePart, indexIn, hlt])

theorem handleDone_contentPart (htype : e.type = responseType (.lit "content_part") "done")
    (hindex : e.outputIndex = some (i : ℤ)) (hget : output[i]? = some item) (hj : e.contentIndex = some j) :
    (handleDone e output).1 = output ∨ ∃ parts, item.content = some parts ∧ j < parts.length ∧
      (handleDone e output).1 = output.set i { item with content := some (parts.set j e.part) } := by
  rw [handleDone, htype, splitDots_responseType (by decide) (by decide), place_eq hindex hget]
  simp only [hget, if_true, hj]
  obtain hnone | ⟨parts, hcontent, hlt, hset⟩ := replacePart_cases e.part j item.content
  · exact .inl (by rw [hnone])
  · exact .inr ⟨parts, hcontent, hlt, by rw [hset]⟩

theorem handleDone_summaryPart (htype : e.type = responseType (.lit "reasoning_summary_part") "done")
    (hindex : e.outputIndex = some (i : ℤ)) (hget : output[i]? = some item) (hj : e.summaryIndex = some j) :
    (handleDone e output).1 = output ∨ ∃ parts, item.summary = some parts ∧ j < parts.length ∧
      (handleDone e output).1 = output.set i { item with summary := some (parts.set j e.part) } := by
  rw [handleDone, htype, splitDots_responseType (by decide) (by decide), place_eq hindex hget]
  simp only [hget, Text.lit_inj, if_true, hj]
  rw [if_neg (by simp)]
  obtain hnone | ⟨parts, hsummary, hlt, hset⟩ := replacePart_cases e.part j item.summary
  · exact .inl (by rw [hnone])
  · exact .inr ⟨parts, hsummary, hlt, by rw [hset]⟩

theorem ItemHolds.textDone {name : String} (h : ItemHolds events i added item)
    (hdone : e.IsDone name "text" (fieldText events (.content i j))) (hname : name ∈ ["text", "output_text"])
    (hadded : added.IsA "message") (hj : e.contentIndex = some j) {value : Json}
    (hvalue : e.fields.get (doneKey (.lit name)) = some value) :
    ItemHolds (events ++ [e]) i added (applyDone (.lit name) (doneKey (.lit name)) value e item) := by
  have hitem := h.isA hadded
  obtain ⟨hidentity, hparts⟩ := (itemHolds_message hadded).1 h
  have hkey : doneKey (.lit name) = .lit "text" := by
    simp only [List.mem_cons, List.not_mem_nil, or_false] at hname
    obtain rfl | rfl := hname <;> decide
  rw [hkey, hdone.2] at hvalue
  obtain rfl := Option.some.inj hvalue
  have hcall : Text.lit name ≠ .lit "function_call_arguments" := by
    simp only [List.mem_cons, List.not_mem_nil, or_false] at hname
    obtain rfl | rfl := hname <;> simp
  rw [hkey, applyDone, if_neg hcall, if_pos (by rw [hitem.eqStr]; rfl), hj]
  refine (itemHolds_message hadded).2 ⟨hidentity, ?_⟩
  have hcontent : ∀ f : PyDict → PyDict, (item.content.map fun parts => parts.modify j f).getD [] =
      (item.content.getD []).modify j f := by
    intro f
    cases item.content <;> simp
  rw [Option.getD_some, hcontent, (parts_of_done hdone.1 i).1]
  exact map_modify_range hparts (fun k _ => by rw [fieldText_of_done hdone.1])
    fun part _ => by rw [partText_set, fieldText_of_done hdone.1]

theorem ItemHolds.status (h : ItemHolds events i added item) (value : Json)
    (hsame : streamedTexts (events ++ [e]) i added.type = streamedTexts events i added.type) :
    ItemHolds (events ++ [e]) i added { item with fields := item.fields.put "status" value } := by
  have hidentity := get_identity_set (.lit "status") (by simp) value item
  refine h.keep hidentity ?_ hsame
  refine StreamItem.texts_congr (Prod.mk.inj hidentity).1 rfl rfl fun _ => ?_
  rw [PyDict.fetchD, PyDict.fetchD, PyDict.get_put, if_neg (by simp)]

theorem ItemHolds.reasoningDone {name : String} (h : ItemHolds events i added item)
    (htype : e.type = responseType (.lit name) "done") (hname : name ≠ "function_call_arguments")
    (hadded : added.IsA "reasoning") (key : Text) (value : Json) :
    ItemHolds (events ++ [e]) i added (applyDone (.lit name) key value e item) := by
  have hitem := h.isA hadded
  rw [applyDone, if_neg (by simpa using hname), if_neg (by simp [hitem.eqStr]), if_pos (by simp [hitem.eqStr])]
  exact h.status _ (streamedTexts_of_done htype)

theorem ItemHolds.argumentsDone (h : ItemHolds events i added item)
    (hdone : e.IsDone "function_call_arguments" "arguments" (fieldText events (.arguments i)))
    (hadded : added.IsA "function_call") {value : Json}
    (hvalue : e.fields.get (doneKey (.lit "function_call_arguments")) = some value) :
    ItemHolds (events ++ [e]) i added
      (applyDone (.lit "function_call_arguments") (doneKey (.lit "function_call_arguments")) value e item) := by
  have hitem := h.isA hadded
  obtain ⟨hidentity, -⟩ := (itemHolds_functionCall hadded).1 h
  rw [show doneKey (.lit "function_call_arguments") = .lit "arguments" by decide, hdone.2] at hvalue
  obtain rfl := Option.some.inj hvalue
  rw [applyDone, if_pos rfl, if_pos (by rw [hitem.eqStr]; rfl)]
  refine (itemHolds_functionCall hadded).2 ⟨(get_identity_set (.lit "arguments") (by simp) _ item).trans hidentity, ?_⟩
  rw [fieldText_of_done hdone.1]
  exact fetchD_of_get (Dict.get_set_self _ _ _)

theorem ItemHolds.otherDone (h : ItemHolds events i added item) (htype : e.type = responseType name "done")
    (hname : OtherField name) (value : Json) :
    ItemHolds (events ++ [e]) i added (applyDone name (doneKey name) value e item) := by
  have hsame : streamedTexts (events ++ [e]) i added.type = streamedTexts events i added.type :=
    streamedTexts_of_done htype
  have hother := hname.other
  simp only [List.mem_cons, List.not_mem_nil, or_false, forall_eq_or_imp, forall_eq] at hother
  have hkey : doneKey name = name := by simp [doneKey, hother]
  have htypes : item.type = added.type := (Prod.mk.inj h.identity).1
  rw [hkey, applyDone, if_neg (hname.other _ (by simp))]
  split_ifs with hmessage hreasoning
  · have hadded : added.IsA "message" := htypes.symm.trans (Json.eqStr_iff.1 hmessage)
    refine hname.holds_modify h hadded hsame (fun _ => value) (e.contentIndex.getD 0) ?_
    cases item.content <;> simp
  · exact h.status _ hsame
  · exact hname.holds_set h hsame value

theorem ItemHolds.contentPartDone (h : ItemHolds events i added item)
    (htype : e.type = responseType (.lit "content_part") "done")
    (hadded : added.IsA "message" ∨ added.IsA "reasoning")
    (hpart : partText e.part = .str (fieldText events (.content i j))) {parts : List PyDict}
    (hparts : item.content = some parts) (hlt : j < parts.length) :
    ItemHolds (events ++ [e]) i added { item with content := some (parts.set j e.part) } := by
  obtain hadded | hadded := hadded
  · obtain ⟨hidentity, htexts⟩ := (itemHolds_message hadded).1 h
    refine (itemHolds_message hadded).2 ⟨hidentity, ?_⟩
    rw [hparts, Option.getD_some] at htexts
    rw [Option.getD_some, (parts_of_done htype i).1, List.set_eq_modify]
    exact map_modify_range htexts (fun k _ => by rw [fieldText_of_done htype])
      fun _ _ => by rw [hpart, fieldText_of_done htype]
  · obtain ⟨hidentity, hcontent, hsummary⟩ := (itemHolds_reasoning hadded).1 h
    refine (itemHolds_reasoning hadded).2 ⟨hidentity, fun k => ?_, ?_⟩
    · rw [Option.getD_some, List.getElem?_set, fieldText_of_done htype]
      by_cases hk : j = k
      · subst hk
        rw [if_pos rfl, if_pos hlt, Option.getD_some, hpart]
      · rw [if_neg hk, ← hcontent k, hparts, Option.getD_some]
    · rw [(parts_of_done htype i).2]
      simp only [fieldText_of_done htype]
      exact hsummary

theorem ItemHolds.summaryPartDone (h : ItemHolds events i added item)
    (htype : e.type = responseType (.lit "reasoning_summary_part") "done") (hadded : added.IsA "reasoning")
    (hpart : partText e.part = .str (fieldText events (.summary i j))) {parts : List PyDict}
    (hparts : item.summary = some parts) :
    ItemHolds (events ++ [e]) i added { item with summary := some (parts.set j e.part) } := by
  obtain ⟨hidentity, hcontent, hsummary⟩ := (itemHolds_reasoning hadded).1 h
  refine (itemHolds_reasoning hadded).2 ⟨hidentity, fun k => by rw [fieldText_of_done htype]; exact hcontent k, ?_⟩
  rw [hparts, Option.getD_some] at hsummary
  rw [Option.getD_some, (parts_of_done htype i).2, List.set_eq_modify]
  exact map_modify_range hsummary (fun k _ => by rw [fieldText_of_done htype])
    fun _ _ => by rw [hpart, fieldText_of_done htype]

end

/-! ## Runs -/

section
variable (py : Json → Text) {events : List StreamEvent} {e : StreamEvent} {output : List StreamItem} {i : ℕ}
  {added item : StreamItem}

theorem Records.contentPartAdded (h : Records events output) (htype : e.type = .lit "response.content_part.added")
    (hfor : e.For events i added)
    (hitem : ∀ item, ItemHolds events i added item →
      ItemHolds (events ++ [e]) i added (addContentPart e.part item)) :
    Records (events ++ [e]) (streamStep py output e) := by
  obtain ⟨item, hget, hshown⟩ := h.found hfor
  have hstep : streamStep py output e = output.set i (addContentPart e.part item) := by
    rw [streamStep, handleResponsesStreamingEvent, if_neg (by simp [htype]), if_pos htype, place_eq hfor.1 hget]
    exact modify_eq_set_of_getElem? hget _
  rw [hstep]
  exact h.set hfor (by simp [htype]) (hitem item hshown)

theorem Records.summaryPartAdded (h : Records events output) (hprepared : Prepared events)
    (htype : e.type = .lit "response.reasoning_summary_part.added") (hfor : e.For events i added)
    (hadded : added.IsA "reasoning") (hpart : partText e.part = .str []) :
    Records (events ++ [e]) (streamStep py output e) := by
  obtain ⟨item, hget, hshown⟩ := h.found hfor
  have hstep : streamStep py output e = output.set i (addSummaryPart e.part item) := by
    rw [streamStep, handleResponsesStreamingEvent, if_neg (by simp [htype]), if_neg (by simp [htype]), if_pos htype,
      place_eq hfor.1 hget]
    exact modify_eq_set_of_getElem? hget _
  rw [hstep]
  exact h.set hfor (by simp [htype]) (hshown.summaryPartAdded hprepared htype hfor hadded hpart)

theorem Records.itemDone (h : Records events output) {payload : StreamItem}
    (htype : e.type = .lit "response.output_item.done") (hitem : e.item = some payload) (hfor : e.For events i added)
    (hidentity : payload.identity = added.identity) (htexts : payload.texts = streamedTexts events i added.type) :
    Records (events ++ [e]) (streamStep py output e) := by
  obtain ⟨item, hget, -⟩ := h.found hfor
  have hstep : streamStep py output e = output.set i payload := by
    rw [streamStep, handleResponsesStreamingEvent, if_neg (by simp [htype]), if_neg (by simp [htype]),
      if_neg (by simp [htype]), if_neg (by rw [htype]; decide), if_pos htype, hitem, place_eq hfor.1 hget]
    rfl
  rw [hstep]
  refine h.set hfor (by simp [htype]) ⟨hidentity, htexts.trans (Eq.symm ?_)⟩
  exact streamedTexts_of_silent (delta_of_type htype) (by simp [htype]) (by simp [htype])

theorem completeReasoning_shows (item : StreamItem) :
    (completeReasoning item).identity = item.identity ∧ (completeReasoning item).texts = item.texts := by
  unfold completeReasoning
  split_ifs
  · have hidentity := get_identity_set (.lit "status") (by simp) (.str (.lit "completed")) item
    refine ⟨hidentity, StreamItem.texts_congr (Prod.mk.inj hidentity).1 rfl rfl fun _ => ?_⟩
    rw [PyDict.fetchD, PyDict.fetchD, PyDict.get_put, if_neg (by simp)]
  · exact ⟨rfl, rfl⟩

theorem streamStep_completed (htype : e.type = .lit "response.completed") (hfinal : e.finalOutput = []) :
    streamStep py output e = output.map completeReasoning := by
  rw [streamStep, handleResponsesStreamingEvent, if_neg (by simp [htype]), if_neg (by simp [htype]),
    if_neg (by simp [htype]), if_neg (by rw [htype]; decide), if_neg (by simp [htype]),
    if_neg (by rw [htype]; decide), if_pos htype, hfinal]
  rfl

theorem Records.completed (h : Records events output) (htype : e.type = .lit "response.completed")
    (hfinal : e.finalOutput = []) : Records (events ++ [e]) (streamStep py output e) := by
  have hsilent := h.silent (delta_of_type htype) (by simp [htype]) (by simp [htype]) (by simp [htype])
  rw [streamStep_completed py htype hfinal]
  refine ⟨by rw [List.length_map, hsilent.length], ?_⟩
  intro i added found hadded hfound
  rw [List.getElem?_map, Option.map_eq_some_iff] at hfound
  obtain ⟨item, hget, rfl⟩ := hfound
  obtain ⟨hidentity, htexts⟩ := hsilent.items i added item hadded hget
  obtain ⟨hidentity', htexts'⟩ := completeReasoning_shows item
  exact ⟨hidentity'.trans hidentity, htexts'.trans htexts⟩

theorem streamStep_ignored (h : e.Ignored) : streamStep py output e = output := by
  have hitem : e.type ≠ .lit "response.output_item.done" := by
    intro htype
    have hdone := h.noDone
    rw [htype] at hdone
    exact hdone (by decide)
  rw [streamStep, handleResponsesStreamingEvent, if_neg (h.type _ (by simp)), if_neg (h.type _ (by simp)),
    if_neg (h.type _ (by simp)), if_neg (by simp [h.noDelta]), if_neg hitem,
    if_neg (by simp [h.noDone]), if_neg (h.type _ (by simp))]
  split_ifs <;> rfl

/-- **An event of a well-formed stream keeps the output in step.** -/
theorem Records.next (h : Records events output) (hprepared : Prepared events) (hnext : Follows events e) :
    Records (events ++ [e]) (streamStep py output e) := by
  cases hnext with
  | itemAdded htype hitem hindex hfresh hblank => exact h.itemAdded py hprepared htype hitem hindex hfresh hblank
  | contentPartAdded htype hfor hadded _ hpart =>
    exact h.contentPartAdded py htype hfor fun _ hshown => hshown.contentPartAdded hprepared htype hfor hadded hpart
  | reasoningPartAdded htype hfor hadded =>
    exact h.contentPartAdded py htype hfor fun _ hshown => hshown.reasoningPartAdded htype hadded
  | summaryPartAdded htype hfor hadded _ hpart => exact h.summaryPartAdded py hprepared htype hfor hadded hpart
  | delta hd =>
    cases hd with
    | text hd hname hfor hadded hj hlt =>
      refine h.delta py ?_ hd.1 hfor fun _ hshown => hshown.textDelta py hd hname hfor hadded hj hlt
      simp only [List.mem_cons, List.not_mem_nil, or_false] at hname
      obtain rfl | rfl := hname <;> decide
    | reasoning hd hfor hadded hj =>
      exact h.delta py (by decide) hd.1 hfor fun _ hshown => hshown.reasoningDelta py hd hfor hadded hj
    | summary hd hfor hadded hj hlt =>
      exact h.delta py (by decide) hd.1 hfor fun _ hshown => hshown.summaryDelta py hd hfor hadded hj hlt
    | arguments hd hfor hadded =>
      exact h.delta py (by decide) hd.1 hfor fun _ hshown => hshown.argumentsDelta py hd hfor hadded
  | otherDelta htype hname hfor hindex =>
    exact h.delta py hname.noDot htype hfor fun _ hshown => hshown.otherDelta py htype hname hindex
  | textDone hd hname hfor hadded hj =>
    have hname' := hname
    simp only [List.mem_cons, List.not_mem_nil, or_false] at hname'
    refine h.done py hd.1 (by obtain rfl | rfl := hname' <;> simp) hfor fun item hget hshown => ?_
    refine (handleDone_field (by obtain rfl | rfl := hname' <;> decide) hd.1
      (by obtain rfl | rfl := hname' <;> simp) hfor.1 hget).imp id ?_
    rintro ⟨value, hvalue, hstep⟩
    exact ⟨_, hstep, hshown.textDone hd hname hadded hj hvalue⟩
  | reasoningDone hd hfor hadded | summaryDone hd hfor hadded =>
    refine h.done py hd.1 (by simp) hfor fun item hget hshown => ?_
    refine (handleDone_field (by decide) hd.1 (by simp) hfor.1 hget).imp id ?_
    rintro ⟨value, -, hstep⟩
    exact ⟨_, hstep, hshown.reasoningDone hd.1 (by simp) hadded _ value⟩
  | argumentsDone hd hfor hadded =>
    refine h.done py hd.1 (by simp) hfor fun item hget hshown => ?_
    refine (handleDone_field (by decide) hd.1 (by simp) hfor.1 hget).imp id ?_
    rintro ⟨value, hvalue, hstep⟩
    exact ⟨_, hstep, hshown.argumentsDone hd hadded hvalue⟩
  | otherDone htype hname hfor =>
    refine h.done py htype (hname.other _ (by simp)) hfor fun item hget hshown => ?_
    refine (handleDone_field hname.noDot htype ?_ hfor.1 hget).imp id ?_
    · intro known hknown
      exact hname.other known (by simp at hknown ⊢; tauto)
    · rintro ⟨value, -, hstep⟩
      exact ⟨_, hstep, hshown.otherDone htype hname value⟩
  | contentPartDone htype hfor hadded hj hpart =>
    refine h.done py htype (by simp) hfor fun item hget hshown => ?_
    refine (handleDone_contentPart htype hfor.1 hget hj).imp id ?_
    rintro ⟨parts, hparts, hlt, hstep⟩
    exact ⟨_, hstep, hshown.contentPartDone htype hadded hpart hparts hlt⟩
  | summaryPartDone htype hfor hadded hj hpart =>
    refine h.done py htype (by simp) hfor fun item hget hshown => ?_
    refine (handleDone_summaryPart htype hfor.1 hget hj).imp id ?_
    rintro ⟨parts, hparts, -, hstep⟩
    exact ⟨_, hstep, hshown.summaryPartDone htype hadded hpart hparts⟩
  | itemDone htype hitem hfor hidentity htexts => exact h.itemDone py htype hitem hfor hidentity htexts
  | completed htype hfinal => exact h.completed py htype hfinal
  | ignored hignored =>
    rw [streamStep_ignored py hignored]
    exact h.silent (delta_of_not_suffix hignored.noDelta) (hignored.type _ (by simp)) (hignored.type _ (by simp))
      (hignored.type _ (by simp))

theorem WellFormed.holds (h : WellFormed events) : Records events (streamOutput py [] events) := by
  induction h with
  | nil => exact ⟨rfl, fun i added item hadded => by simp [addedItems] at hadded⟩
  | snoc hwell hnext ih =>
    rw [streamOutput_snoc]
    exact ih.next py hwell.prepared hnext

end

/-! ## Splitting deltas -/

/-- The event with another delta. -/
def StreamEvent.withDelta (e : StreamEvent) (text : Text) : StreamEvent :=
  { e with fields := e.fields.put "delta" (.str text) }

/-- A delta is split in two. -/
inductive Splits : List StreamEvent → List StreamEvent → Prop
  | split {before e after field s t} : e.delta = some (field, s ++ t) →
      Splits (before ++ e :: after) (before ++ e.withDelta s :: e.withDelta t :: after)

/-- Two streams with the same items, parts and texts. -/
structure SameTexts (events events' : List StreamEvent) : Prop where
  items : addedItems events' = addedItems events
  contentParts : ∀ i, contentParts events' i = contentParts events i
  summaryParts : ∀ i, summaryParts events' i = summaryParts events i
  texts : ∀ field, fieldText events' field = fieldText events field

section
variable {events events' : List StreamEvent} {e : StreamEvent} {field : TextField} {s t text : Text}

theorem SameTexts.snoc (h : SameTexts events events') : SameTexts (events ++ [e]) (events' ++ [e]) := by
  refine ⟨?_, fun i => ?_, fun i => ?_, fun field => ?_⟩
  · rw [addedItems_snoc, addedItems_snoc, h.items]
  · rw [contentParts_snoc, contentParts_snoc, h.contentParts]
  · rw [summaryParts_snoc, summaryParts_snoc, h.summaryParts]
  · rw [fieldText_snoc, fieldText_snoc, h.texts]

theorem SameTexts.symm (h : SameTexts events events') : SameTexts events' events :=
  ⟨h.items.symm, fun i => (h.contentParts i).symm, fun i => (h.summaryParts i).symm, fun field => (h.texts field).symm⟩

theorem SameTexts.streamedTexts_eq (h : SameTexts events events') (i : ℕ) (type : Json) :
    streamedTexts events' i type = streamedTexts events i type := by
  simp only [streamedTexts, h.contentParts, h.summaryParts, h.texts]

theorem Follows.congr (h : Follows events e) (hsame : SameTexts events events') : Follows events' e := by
  have hfor : ∀ {i added}, e.For events i added → e.For events' i added := fun h => ⟨h.1, hsame.items ▸ h.2⟩
  cases h with
  | itemAdded htype hitem hindex hfresh hblank =>
    exact .itemAdded htype hitem (hsame.items ▸ hindex) (hsame.items ▸ hfresh) hblank
  | contentPartAdded htype hf hadded hj hpart =>
    exact .contentPartAdded htype (hfor hf) hadded (hj.trans (by rw [hsame.contentParts])) hpart
  | reasoningPartAdded htype hf hadded => exact .reasoningPartAdded htype (hfor hf) hadded
  | summaryPartAdded htype hf hadded hj hpart =>
    exact .summaryPartAdded htype (hfor hf) hadded (hj.trans (by rw [hsame.summaryParts])) hpart
  | delta hd =>
    cases hd with
    | text hd hname hf hadded hj hlt =>
      exact .delta (.text hd hname (hfor hf) hadded hj (by rwa [hsame.contentParts]))
    | reasoning hd hf hadded hj => exact .delta (.reasoning hd (hfor hf) hadded hj)
    | summary hd hf hadded hj hlt => exact .delta (.summary hd (hfor hf) hadded hj (by rwa [hsame.summaryParts]))
    | arguments hd hf hadded => exact .delta (.arguments hd (hfor hf) hadded)
  | otherDelta htype hname hf hindex =>
    refine .otherDelta htype hname (hfor hf) fun hmessage => ?_
    rw [hsame.contentParts]
    exact hindex hmessage
  | textDone hd hname hf hadded hj => exact .textDone (by rwa [hsame.texts]) hname (hfor hf) hadded hj
  | reasoningDone hd hf hadded hj => exact .reasoningDone (by rwa [hsame.texts]) (hfor hf) hadded hj
  | summaryDone hd hf hadded hj => exact .summaryDone (by rwa [hsame.texts]) (hfor hf) hadded hj
  | argumentsDone hd hf hadded => exact .argumentsDone (by rwa [hsame.texts]) (hfor hf) hadded
  | otherDone htype hname hf => exact .otherDone htype hname (hfor hf)
  | contentPartDone htype hf hadded hj hpart =>
    exact .contentPartDone htype (hfor hf) hadded hj (by rwa [hsame.texts])
  | summaryPartDone htype hf hadded hj hpart =>
    exact .summaryPartDone htype (hfor hf) hadded hj (by rwa [hsame.texts])
  | itemDone htype hitem hf hidentity htexts =>
    exact .itemDone htype hitem (hfor hf) hidentity (by rw [hsame.streamedTexts_eq]; exact htexts)
  | completed htype hfinal => exact .completed htype hfinal
  | ignored hignored => exact .ignored hignored

theorem wellFormed_snoc_iff : WellFormed (events ++ [e]) ↔ WellFormed events ∧ Follows events e := by
  constructor
  · intro h
    generalize heq : events ++ [e] = l at h
    cases h with
    | nil => simp at heq
    | snoc hwell hnext =>
      obtain ⟨rfl, hlast⟩ := List.append_inj' heq rfl
      obtain rfl := (List.cons.inj hlast).1
      exact ⟨hwell, hnext⟩
  · exact fun ⟨hwell, hnext⟩ => hwell.snoc hnext

theorem fieldOf_withDelta (name : Text) : (e.withDelta text).fieldOf name = e.fieldOf name := rfl

theorem IsDeltaFor.withDelta (h : IsDeltaFor events e field text) (s : Text) :
    IsDeltaFor events (e.withDelta s) field s := by
  have hdelta : ∀ {name}, e.IsDelta name text → (e.withDelta s).IsDelta name s := fun h =>
    ⟨h.1, Dict.get_set_self _ _ _⟩
  cases h with
  | text hd hname hfor hadded hj hlt => exact .text (hdelta hd) hname hfor hadded hj hlt
  | reasoning hd hfor hadded hj => exact .reasoning (hdelta hd) hfor hadded hj
  | summary hd hfor hadded hj hlt => exact .summary (hdelta hd) hfor hadded hj hlt
  | arguments hd hfor hadded => exact .arguments (hdelta hd) hfor hadded

theorem IsDeltaFor.after {d : StreamEvent} {g : TextField} {text' : Text} (h : IsDeltaFor events e field text)
    (hd : IsDeltaFor events d g text') : IsDeltaFor (events ++ [d]) e field text := by
  have hnot : ∀ known, ¬(Text.lit ".delta").isSuffixOf (Text.lit known) → d.type ≠ .lit known := by
    intro known hknown htype
    exact absurd hd.delta (by rw [delta_of_not_suffix (htype ▸ hknown)]; simp)
  have hitems : addedItems (events ++ [d]) = addedItems events := by
    rw [addedItems_snoc, if_neg (hnot _ (by decide)), List.append_nil]
  have hcontent : ∀ i, contentParts (events ++ [d]) i = contentParts events i := fun i => by
    rw [contentParts_snoc, if_neg fun h => hnot _ (by decide) h.1, Nat.add_zero]
  have hsummary : ∀ i, summaryParts (events ++ [d]) i = summaryParts events i := fun i => by
    rw [summaryParts_snoc, if_neg fun h => hnot _ (by decide) h.1, Nat.add_zero]
  have hfor : ∀ {i added}, e.For events i added → e.For (events ++ [d]) i added := fun h => ⟨h.1, hitems ▸ h.2⟩
  cases h with
  | text hd hname hf hadded hj hlt => exact .text hd hname (hfor hf) hadded hj (by rwa [hcontent])
  | reasoning hd hf hadded hj => exact .reasoning hd (hfor hf) hadded hj
  | summary hd hf hadded hj hlt => exact .summary hd (hfor hf) hadded hj (by rwa [hsummary])
  | arguments hd hf hadded => exact .arguments hd (hfor hf) hadded

theorem delta_eq_some (h : e.delta = some (field, text)) :
    e.fields.get (.lit "delta") = some (.str text) ∧ ∀ s, (e.withDelta s).delta = some (field, s) := by
  have hget : ∀ s, (e.withDelta s).fields.get (.lit "delta") = some (.str s) := fun s => Dict.get_set_self _ _ _
  unfold StreamEvent.delta at h
  split_ifs at h with htype
  split at h
  · next name rest text' hdots htext =>
    obtain ⟨field', hfield, heq⟩ := Option.map_eq_some_iff.1 h
    obtain ⟨rfl, rfl⟩ := Prod.mk.inj heq
    refine ⟨htext, fun s => ?_⟩
    have htype' : (Text.lit "response.").isPrefixOf (e.withDelta s).type &&
        (Text.lit ".delta").isSuffixOf (e.withDelta s).type := htype
    rw [StreamEvent.delta, if_pos htype', hget, show splitDots (e.withDelta s).type = _ from hdots]
    show ((e.withDelta s).fieldOf name).map _ = _
    rw [fieldOf_withDelta, hfield]
    rfl
  · cases h

theorem withDelta_withDelta (h : e.fields.get (.lit "delta") = some (.str text)) :
    (e.withDelta s).withDelta text = e := by
  show { e with fields := (e.fields.put "delta" (.str s)).put "delta" (.str text) } = e
  rw [PyDict.put, PyDict.put, Dict.set_set, Dict.set_get_self h]

theorem sameTexts_of_split (h : e.delta = some (field, s ++ t)) :
    SameTexts (events ++ [e]) (events ++ [e.withDelta s] ++ [e.withDelta t]) := by
  have hsuffix : (Text.lit ".delta").isSuffixOf e.type := by
    by_contra hnot
    rw [delta_of_not_suffix hnot] at h
    cases h
  have hnot : ∀ {text} known, ¬(Text.lit ".delta").isSuffixOf (Text.lit known) →
      (e.withDelta text).type ≠ .lit known := fun known hknown => ne_of_suffix hsuffix hknown
  have hnot' : ∀ known, ¬(Text.lit ".delta").isSuffixOf (Text.lit known) → e.type ≠ .lit known := fun known hknown =>
    ne_of_suffix hsuffix hknown
  have hwith := (delta_eq_some h).2
  refine ⟨?_, fun i => ?_, fun i => ?_, fun g => ?_⟩
  · rw [addedItems_snoc, addedItems_snoc, addedItems_snoc, if_neg (hnot _ (by decide)), if_neg (hnot _ (by decide)),
      if_neg (hnot' _ (by decide)), List.append_nil, List.append_nil]
  · rw [contentParts_snoc, contentParts_snoc, contentParts_snoc, if_neg fun h => hnot _ (by decide) h.1,
      if_neg fun h => hnot _ (by decide) h.1, if_neg fun h => hnot' _ (by decide) h.1]
  · rw [summaryParts_snoc, summaryParts_snoc, summaryParts_snoc, if_neg fun h => hnot _ (by decide) h.1,
      if_neg fun h => hnot _ (by decide) h.1, if_neg fun h => hnot' _ (by decide) h.1]
  · rw [fieldText_of_delta (hwith t), fieldText_of_delta (hwith s), fieldText_of_delta h]
    split_ifs
    · rw [List.append_assoc]
    · rfl

theorem wellFormed_split_iff (h : e.delta = some (field, s ++ t)) :
    WellFormed (events ++ [e]) ↔ WellFormed (events ++ [e.withDelta s] ++ [e.withDelta t]) := by
  obtain ⟨hget, hwith⟩ := delta_eq_some h
  rw [wellFormed_snoc_iff, wellFormed_snoc_iff, wellFormed_snoc_iff]
  constructor
  · rintro ⟨hwell, hnext⟩
    have hd := hnext.isDeltaFor h
    exact ⟨⟨hwell, .delta (hd.withDelta s)⟩, .delta ((hd.withDelta t).after (hd.withDelta s))⟩
  · rintro ⟨⟨hwell, hnext⟩, -⟩
    have hd := (hnext.isDeltaFor (hwith s)).withDelta (s ++ t)
    rw [withDelta_withDelta hget] at hd
    exact ⟨hwell, .delta hd⟩

/-- **It is all the same for a stream whether a delta is split.** -/
theorem Splits.same (h : Splits events events') :
    SameTexts events events' ∧ (WellFormed events ↔ WellFormed events') := by
  obtain @⟨before, e, after, field, s, t, hdelta⟩ := h
  induction after using List.reverseRecOn with
  | nil =>
    rw [show before ++ [e.withDelta s, e.withDelta t] = before ++ [e.withDelta s] ++ [e.withDelta t] by simp]
    exact ⟨sameTexts_of_split hdelta, wellFormed_split_iff hdelta⟩
  | append_singleton after last ih =>
    obtain ⟨hsame, hwell⟩ := ih
    have hleft : before ++ e :: (after ++ [last]) = before ++ e :: after ++ [last] := by simp
    have hright : before ++ e.withDelta s :: e.withDelta t :: (after ++ [last]) =
        before ++ e.withDelta s :: e.withDelta t :: after ++ [last] := by simp
    rw [hleft, hright, wellFormed_snoc_iff, wellFormed_snoc_iff, hwell]
    exact ⟨hsame.snoc, and_congr_right fun _ => ⟨fun h => h.congr hsame, fun h => h.congr hsame.symm⟩⟩

theorem eqvGen_splits (h : Relation.EqvGen Splits events events') :
    SameTexts events events' ∧ (WellFormed events ↔ WellFormed events') := by
  induction h with
  | rel _ _ h => exact h.same
  | refl _ => exact ⟨⟨rfl, fun _ => rfl, fun _ => rfl, fun _ => rfl⟩, Iff.rfl⟩
  | symm _ _ _ ih => exact ⟨ih.1.symm, ih.2.symm⟩
  | trans _ _ _ _ _ ih ih' =>
    refine ⟨⟨ih'.1.items.trans ih.1.items, fun i => (ih'.1.contentParts i).trans (ih.1.contentParts i),
      fun i => (ih'.1.summaryParts i).trans (ih.1.summaryParts i),
      fun field => (ih'.1.texts field).trans (ih.1.texts field)⟩, ih.2.trans ih'.2⟩

end

/-! ## The texts of a response -/

/-- What is shown of an output. -/
def shownOf (output : List StreamItem) : List ((Json × Json × Json) × ItemTexts) :=
  output.map fun item => (item.identity, item.texts)

section
variable (py : Json → Text) {events : List StreamEvent} {output : List StreamItem}

theorem Records.shown (h : Records events output) :
    shownOf output = (addedItems events).mapIdx fun i added => (added.identity, streamedTexts events i added.type) := by
  refine List.ext_getElem? fun i => ?_
  rw [shownOf, List.getElem?_map, List.getElem?_mapIdx]
  by_cases hi : i < output.length
  · have hi' : i < (addedItems events).length := h.length ▸ hi
    rw [List.getElem?_eq_getElem hi, List.getElem?_eq_getElem hi', Option.map_some, Option.map_some]
    have hitem := h.items i _ _ (List.getElem?_eq_getElem hi') (List.getElem?_eq_getElem hi)
    rw [hitem.identity, hitem.texts]
  · rw [List.getElem?_eq_none (not_lt.1 hi), List.getElem?_eq_none (h.length ▸ not_lt.1 hi)]
    rfl

/-- **A response is accumulated exactly**: there is an item for every item that has been added, in order, and each
    text is the concatenation of its own deltas.  It does not matter how the texts are split, and a completion without
    an output leaves them as they are. -/
theorem streamOutput_exact (h : WellFormed events) :
    (shownOf (streamOutput py [] events) =
      (addedItems events).mapIdx fun i added => (added.identity, streamedTexts events i added.type)) ∧
    (∀ events', Relation.EqvGen Splits events events' →
      WellFormed events' ∧ shownOf (streamOutput py [] events') = shownOf (streamOutput py [] events)) ∧
    ∀ e : StreamEvent, e.type = .lit "response.completed" → e.finalOutput = [] →
      shownOf (streamOutput py [] (events ++ [e])) = shownOf (streamOutput py [] events) := by
  have hshown := (h.holds py).shown
  refine ⟨hshown, ?_, ?_⟩
  · intro events' hsplit
    obtain ⟨hsame, hwell⟩ := eqvGen_splits hsplit
    refine ⟨hwell.1 h, ?_⟩
    rw [((hwell.1 h).holds py).shown, hshown, hsame.items]
    simp only [hsame.streamedTexts_eq]
  · intro e htype hfinal
    rw [streamOutput_snoc, streamStep_completed py htype hfinal, shownOf, shownOf, List.map_map]
    refine List.map_congr_left fun item _ => ?_
    rw [Function.comp_apply, (completeReasoning_shows item).1, (completeReasoning_shows item).2]

end

/-- An event for an item. -/
def eventFor (type : String) (index : ℤ) (fields : PyDict) : StreamEvent :=
  { type := .lit type, fields := fields, outputIndex := some index, contentIndex := some 0, summaryIndex := none,
    item := none, part := emptyPart "output_text", response := .empty, finalOutput := [] }

/-- An item without a text. -/
def blankItem (type id : String) : StreamItem :=
  { fields := (PyDict.put .empty "type" (.str (.lit type))).put "id" (.str (.lit id)), content := some [],
    summary := none }

/-- A message and a function call, whose deltas are interleaved. -/
def interleaved : List StreamEvent :=
  [] ++ [{ eventFor "response.output_item.added" 0 .empty with item := some (blankItem "message" "m") }] ++
    [{ eventFor "response.output_item.added" 1 .empty with item := some (blankItem "function_call" "f") }] ++
    [eventFor "response.content_part.added" 0 .empty] ++
    [eventFor "response.output_text.delta" 0 (PyDict.put .empty "delta" (.str (.lit "He")))] ++
    [eventFor "response.function_call_arguments.delta" 1 (PyDict.put .empty "delta" (.str (.lit "(")))] ++
    [eventFor "response.output_text.delta" 0 (PyDict.put .empty "delta" (.str (.lit "y")))]

theorem interleaved_wellFormed : WellFormed interleaved := by
  have hmessage : (blankItem "message" "m").IsA "message" := rfl
  have hcall : (blankItem "function_call" "f").IsA "function_call" := rfl
  have htype : Text.lit "response.output_text.delta" = responseType (.lit "output_text") "delta" := by decide
  have hdelta : ∀ text, (eventFor "response.output_text.delta" 0 (PyDict.put .empty "delta" (.str text))).IsDelta
      "output_text" text := fun _ => ⟨htype, rfl⟩
  unfold interleaved
  refine .snoc (.snoc (.snoc (.snoc (.snoc (.snoc .nil ?_) ?_) ?_) ?_) ?_) ?_
  · exact .itemAdded rfl rfl rfl (by decide) ⟨rfl, rfl, fun _ => rfl⟩
  · exact .itemAdded rfl rfl rfl (by decide) ⟨rfl, rfl, fun _ => rfl⟩
  · exact .contentPartAdded rfl ⟨rfl, rfl⟩ hmessage rfl rfl
  · exact .delta (.text (hdelta _) (by simp) ⟨rfl, rfl⟩ hmessage rfl (by decide))
  · exact .delta (.arguments ⟨by decide, rfl⟩ ⟨rfl, rfl⟩ hcall)
  · exact .delta (.text (hdelta _) (by simp) ⟨rfl, rfl⟩ hmessage rfl (by decide))

/-- Each text has its own deltas. -/
theorem streamOutput_exact_interleaved :
    shownOf (streamOutput (fun _ => []) [] interleaved) =
      [((.str (.lit "message"), .str (.lit "m"), .null), .message [.str (.lit "Hey")]),
        ((.str (.lit "function_call"), .str (.lit "f"), .null), .functionCall (.str (.lit "(")))] :=
  (streamOutput_exact (fun _ => []) interleaved_wellFormed).1.trans rfl

end TideBot
