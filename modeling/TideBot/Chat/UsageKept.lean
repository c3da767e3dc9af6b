/-
  The usage in the row of a message, over any saves of the message.

  A save merges its payload into the message and hands the whole message to the row, which adds the usage
  of the message to its own unless the two are equal.  A save that brings no usage of its own leaves the
  row's usage alone when the two are equal (`usageKept`), and adds an old usage again when they are not.
-/
import TideBot.Chat.UsageCounts
import TideBot.Chat.Rows

namespace TideBot

open Lib

/-! ## The usage of a message -/

/-- The usage that `get_usage` finds. -/
def rawUsage (data : PyDict) : Option Json :=
  if (data.fetch "usage").truthy then some (data.fetch "usage")
  else
    match (data.fetch "info").or (.obj []) with
    | .obj fields => some ((PyDict.ofFields fields).fetch "usage")
    | _ => none

/-- Its token counts are natural numbers. -/
def UsageCounted (data : PyDict) : Prop := ∀ fields, rawUsage data = some (.obj fields) → Counted (.ofFields fields)

section

variable {py : PyConv} {data S u : PyDict} {stored result : Option PyDict}

theorem getUsage_eq : getUsage py data = (rawUsage data).bind fun usage =>
    if usage.truthy then (normalizeUsage py usage).map some else some none := by
  rw [getUsage, rawUsage]
  split_ifs with h
  · simp only [Option.bind_eq_bind, Option.bind_some, h, if_true]
    cases normalizeUsage py (data.fetch "usage") <;> rfl
  · rcases hinfo : (data.fetch "info").or (.obj []) with _ | _ | _ | _ | _ | _ | fields
    all_goals simp only [Option.bind_eq_bind, Option.bind_some, Option.bind_none]
    split_ifs
    · cases normalizeUsage py ((PyDict.ofFields fields).fetch "usage") <;> rfl
    · rfl

theorem normal_getUsage (hcounted : UsageCounted data) (h : getUsage py data = some (some u)) : Normal u := by
  rw [getUsage_eq, Option.bind_eq_some_iff] at h
  obtain ⟨usage, hraw, h⟩ := h
  split_ifs at h with htruthy
  · obtain ⟨v, hv, heq⟩ := Option.map_eq_some_iff.1 h
    obtain rfl := Option.some.inj heq
    unfold normalizeUsage at hv
    rw [if_pos htruthy] at hv
    cases usage with
    | obj fields =>
      have hfields := hcounted fields hraw
      simp only [normalizeCounts_counted py hfields] at hv
      rw [← Option.some.inj hv]
      exact normal_withCounts hfields
    | null | bool | int | float | str | arr => cases hv
  · cases h

theorem ofFields_entries (d : PyDict) : PyDict.ofFields d.entries = d :=
  Dict.ext_entries (PyDict.entries_ofFields d.nodup)

theorem Normal.entries_ne_nil (h : Normal S) : S.entries ≠ [] := by
  have hmem : (Text.lit "input_tokens", _) ∈ S.entries := Dict.mem_entries_iff.2 h.input
  exact List.ne_nil_of_mem hmem

theorem normalizeUsage_self (h : Normal S) : normalizeUsage py S.toJson = some S := by
  have htruthy : S.toJson.truthy = true := by
    have hne := h.entries_ne_nil
    simp [PyDict.toJson, Json.truthy, hne]
  unfold normalizeUsage
  rw [if_pos htruthy]
  exact (congrArg (normalizeCounts py) (ofFields_entries S)).trans (normalizeCounts_self py h)

/-! ## The usage of a row -/

theorem addUsage_none (h : getUsage py data = some none) : addUsage py stored data = some stored := by
  rw [addUsage, h]
  rfl

theorem addUsage_same (hS : Normal S) (hu : Normal u) (h : getUsage py data = some (some u))
    (heq : u.toJson.eq S.toJson) : addUsage py (some S) data = some (some S) := by
  have hne := hu.entries_ne_nil
  simp [addUsage, h, hne, normalizeUsage_self hS, heq]

theorem mergeUsage_normal {e : PyDict} (he : Normal e) (hu : Normal u) :
    mergeUsage py e u = some (mergeCounts e u) := by
  have hne := he.entries_ne_nil
  have hnu := hu.entries_ne_nil
  simp [mergeUsage, normalizeUsage_self he, normalizeUsage_self hu, hne, hnu]

theorem mergeUsage_empty (hu : Normal u) : mergeUsage py .empty u = some u := by
  have hnu := hu.entries_ne_nil
  have hempty : normalizeUsage py (PyDict.toJson .empty) = some .empty := rfl
  have hentries : (Dict.empty : PyDict).entries = [] := rfl
  simp [mergeUsage, normalizeUsage_self hu, hnu, hempty, hentries]

theorem eq_empty_of_ne (h : u.entries ≠ []) : u.toJson.eq (PyDict.toJson .empty) = false := by
  have hlen : ∀ fs, (Json.canonicalFields fs).length = fs.length := by
    intro fs
    induction fs with
    | nil => rfl
    | cons f fs ih =>
      obtain ⟨k, x⟩ := f
      rw [Json.canonicalFields, List.length_cons, List.length_cons, ih]
  have hpos : 0 < ((Json.canonicalFields u.entries).insertionSort fun f g => f.1 ≤ g.1).length := by
    rw [List.length_insertionSort, hlen, List.length_pos_iff]
    exact h
  rw [Json.eq, PyDict.toJson, PyDict.toJson, Json.canonical, Json.canonical]
  obtain ⟨f, fs, hfs⟩ := List.exists_cons_of_length_pos hpos
  rw [hfs]
  rfl

theorem normal_addUsage (hstored : ∀ S ∈ stored, Normal S) (hcounted : UsageCounted data)
    (h : addUsage py stored data = some result) : ∀ S ∈ result, Normal S := by
  rcases hget : getUsage py data with _ | _ | u
  · simp [addUsage, hget] at h
  · rw [addUsage_none hget] at h
    rw [← Option.some.inj h]
    exact hstored
  · have hu := normal_getUsage hcounted hget
    have hne := List.isEmpty_eq_false_iff.2 hu.entries_ne_nil
    cases stored with
    | none =>
      have hempty : normalizeUsage py (((none : Option PyDict).map PyDict.toJson).getD .null) = some .empty := rfl
      have hdiffers := eq_empty_of_ne hu.entries_ne_nil
      simp only [addUsage, hget, Option.bind_eq_bind, Option.bind_some, hne, hempty, hdiffers, mergeUsage_empty hu,
        Bool.false_eq_true, if_false] at h
      cases h
      rintro _ ⟨⟩
      exact hu
    | some S =>
      have hS := hstored S rfl
      by_cases heq : u.toJson.eq S.toJson
      · rw [addUsage_same hS hu hget heq] at h
        rw [← Option.some.inj h]
        rintro _ ⟨⟩
        exact hS
      · simp only [addUsage, hget, Option.bind_eq_bind, Option.bind_some, hne, Option.map_some, Option.getD_some,
          normalizeUsage_self hS, heq, mergeUsage_normal hS hu, Bool.false_eq_true, if_false] at h
        cases h
        rintro _ ⟨⟩
        exact normal_mergeCounts hS hu

end

/-! ## Saves of a message -/

/-- The usage in the message's row. -/
def rowUsage (store : ChatStore) (messageId : Text) : Option PyDict :=
  (store.rows.get (sanitizeText messageId)).bind ChatRow.usage

section
variable (py : PyConv) (messageId : Text)

/-- The history after a save, and the message that goes to the row. -/
def savedMessage (store : ChatStore) (message : PyDict) (now : ℤ) : Option (ChatHistory × PyDict) := do
  let history ← repairCurrentId (cleanHistory store.history)
  upsertMessageToHistory history (sanitizeText messageId) (payloadOf py message) now

/-- Saves of one message, each with its payload and its time; one that raises changes nothing. -/
def saveMachine : Machine ChatStore (PyDict × ℤ) Bool where
  step store save :=
    match upsertMessageToChat py store messageId save.1 save.2 with
    | some store' => some (store', true)
    | none => some (store, false)

/-- The save brings no usage of its own: its payload has none, or it is the last save again. -/
def BringsNoUsage (tr : List ((PyDict × ℤ) × Bool)) (message : PyDict) : Prop :=
  getUsage py message = some none ∨ tr.getLast?.map (fun e => e.1.1) = some message

/-- The token counts of the usage that is saved are natural numbers. -/
def SavesCounts (store : ChatStore) (save : PyDict × ℤ) : Prop :=
  ∀ r ∈ savedMessage py messageId store save.1 save.2, UsageCounted r.2

/-- **The condition**: a save that brings no usage finds the usage of the message in the row; the token counts
of the message's usage are natural numbers. -/
def UsageSettled (x : List ((PyDict × ℤ) × Bool) × ChatStore) (save : PyDict × ℤ) : Prop :=
  ∀ r ∈ savedMessage py messageId x.2 save.1 save.2, UsageCounted r.2 ∧
    (BringsNoUsage py x.1 save.1 → ∀ u, getUsage py r.2 = some (some u) →
      ∃ S ∈ rowUsage x.2 messageId, u.toJson.eq S.toJson)

end

section

variable {py : PyConv} {messageId : Text} {store store' : ChatStore} {save : PyDict × ℤ} {o : Bool}
  {tr : List ((PyDict × ℤ) × Bool)}

/-- **What a save does to the row's usage**: nothing, or it is what is made of the message that was saved. -/
theorem save_cases (h : (saveMachine py messageId).step store save = some (store', o)) :
    rowUsage store' messageId = rowUsage store messageId ∨
      ∃ r ∈ savedMessage py messageId store save.1 save.2, ∃ stored,
        ((store.rows.get (sanitizeText messageId)).isSome ∧ stored = addUsage py (rowUsage store messageId) r.2 ∨
          (store.rows.get (sanitizeText messageId)).isNone ∧ stored = getUsage py r.2) ∧
          stored = some (rowUsage store' messageId) := by
  have hchat : upsertMessageToChat py store messageId save.1 save.2 =
      (savedMessage py messageId store save.1 save.2).map fun r =>
        ⟨r.1, (upsertRow py store.rows (sanitizeText messageId) r.2 save.2).getD store.rows⟩ := by
    rw [upsertMessageToChat, savedMessage]
    rcases repairCurrentId (cleanHistory store.history) with _ | history
    · rfl
    · simp only [Option.bind_eq_bind, Option.bind_some]
      rcases upsertMessageToHistory history (sanitizeText messageId) (payloadOf py save.1) save.2 with _ | ⟨_, _⟩ <;> rfl
  simp only [saveMachine, hchat] at h
  rcases hsaved : savedMessage py messageId store save.1 save.2 with _ | r
  · rw [hsaved] at h
    cases h
    exact .inl rfl
  · simp only [hsaved, Option.map_some, Option.some.injEq, Prod.mk.injEq] at h
    obtain ⟨rfl, -⟩ := h
    rcases hrow : upsertRow py store.rows (sanitizeText messageId) r.2 save.2 with _ | rows
    · exact .inl rfl
    · obtain ⟨row, hwritten, rfl⟩ := Option.map_eq_some_iff.1 hrow
      have hafter : rowUsage ⟨r.1, (some (store.rows.set (sanitizeText messageId) row)).getD store.rows⟩ messageId =
          row.usage := by
        rw [rowUsage, Option.getD_some, Dict.get_set_self]
        rfl
      refine .inr ⟨r, rfl, some row.usage, ?_, by rw [hafter]⟩
      rcases hget : store.rows.get (sanitizeText messageId) with _ | message
      · simp only [writtenRow, hget] at hwritten
        obtain ⟨usage, husage, heq⟩ := Option.bind_eq_some_iff.1 hwritten
        cases heq
        exact .inr ⟨rfl, husage.symm⟩
      · simp only [writtenRow, hget] at hwritten
        obtain ⟨usage, husage, heq⟩ := Option.bind_eq_some_iff.1 hwritten
        cases heq
        refine .inl ⟨rfl, ?_⟩
        rw [rowUsage, hget]
        exact husage.symm

theorem normal_save (hrow : ∀ S ∈ rowUsage store messageId, Normal S)
    (hcounted : SavesCounts py messageId store save)
    (h : (saveMachine py messageId).step store save = some (store', o)) : ∀ S ∈ rowUsage store' messageId, Normal S := by
  rcases save_cases h with hsame | ⟨r, hr, stored, ⟨-, rfl⟩ | ⟨-, rfl⟩, hafter⟩
  · rw [hsame]
    exact hrow
  · exact normal_addUsage hrow (hcounted r hr) hafter
  · intro S hS
    rw [hS] at hafter
    exact normal_getUsage (hcounted r hr) hafter

/-- **Saves that bring no usage leave the row's usage alone**, in every run whose saves of this kind find the
message's usage in the row. -/
theorem usageKept {start : ChatStore} {y : List ((PyDict × ℤ) × Bool) × ChatStore}
    (hstart : ∀ S ∈ rowUsage start messageId, Normal S)
    (h : (saveMachine py messageId).recording.RunIn (UsageSettled py messageId) ([], start) tr y)
    (hsettled : UsageSettled py messageId y save)
    (hstep : (saveMachine py messageId).step y.2 save = some (store', o)) (hnone : BringsNoUsage py tr save.1) :
    rowUsage store' messageId = rowUsage y.2 messageId := by
  obtain ⟨rfl, -⟩ := h.recorded
  have hnormal : ∀ S ∈ rowUsage y.2 messageId, Normal S := by
    refine h.invariant (I := fun y => ∀ S ∈ rowUsage y.2 messageId, Normal S) ?_ hstart
    intro x save x' o hC hI hs
    exact normal_save hI (fun r hr => (hC r hr).1) (Machine.recording_step hs).1
  rcases save_cases hstep with hsame | ⟨r, hr, stored, hstored, hafter⟩
  · exact hsame
  · obtain ⟨hcounted, hsame⟩ := hsettled r hr
    rcases hget : getUsage py r.2 with _ | _ | u
    · rcases hstored with ⟨-, rfl⟩ | ⟨-, rfl⟩
      · simp [addUsage, hget] at hafter
      · rw [hget] at hafter
        cases hafter
    · rcases hstored with ⟨-, rfl⟩ | ⟨hnew, rfl⟩
      · rw [addUsage_none hget] at hafter
        exact (Option.some.inj hafter).symm
      · rw [hget] at hafter
        have hbefore : rowUsage y.2 messageId = none := by
          rw [rowUsage, Option.isNone_iff_eq_none.1 hnew]
          rfl
        rw [hbefore, ← Option.some.inj hafter]
    · obtain ⟨S, hS, heq⟩ := hsame hnone u hget
      rcases hstored with ⟨-, rfl⟩ | ⟨hnew, rfl⟩
      · rw [hS, addUsage_same (hnormal S hS) (normal_getUsage hcounted hget) hget heq] at hafter
        rw [hS, ← Option.some.inj hafter]
      · rw [rowUsage, Option.isNone_iff_eq_none.1 hnew] at hS
        cases hS

end

/-! ## Concrete runs -/

/-- The counts of a usage, as a test. -/
def countedJson : Json → Bool
  | .obj fields => countKeys.all fun key => ((PyDict.ofFields fields).get (.lit key)).all isCount
  | _ => true

theorem usageCounted_iff {data : PyDict} : UsageCounted data ↔ (rawUsage data).all countedJson := by
  rcases hraw : rawUsage data with _ | usage
  · simp [UsageCounted, hraw]
  · rw [Option.all_some]
    constructor
    · intro h
      cases usage with
      | obj fields => exact counted_iff.1 (h fields hraw)
      | null | bool | int | float | str | arr => rfl
    · intro h fields heq
      rw [hraw] at heq
      cases heq
      exact counted_iff.2 h

instance (data : PyDict) : Decidable (UsageCounted data) := decidable_of_iff _ usageCounted_iff.symm

instance (py : PyConv) (tr : List ((PyDict × ℤ) × Bool)) (message : PyDict) : Decidable (BringsNoUsage py tr message) :=
  inferInstanceAs (Decidable (_ ∨ _))

instance (py : PyConv) (messageId : Text) (store : ChatStore) (save : PyDict × ℤ) :
    Decidable (SavesCounts py messageId store save) :=
  inferInstanceAs (Decidable (∀ r ∈ savedMessage py messageId store save.1 save.2, UsageCounted r.2))

theorem forall_join_iff {α : Type*} {x : Option (Option α)} {P : α → Prop} :
    (∀ u ∈ x.join, P u) ↔ ∀ u, x = some (some u) → P u := by
  rcases x with _ | _ | v <;> simp

instance (py : PyConv) (messageId : Text) (x : List ((PyDict × ℤ) × Bool) × ChatStore) (save : PyDict × ℤ) :
    Decidable (UsageSettled py messageId x save) :=
  decidable_of_iff (∀ r ∈ savedMessage py messageId x.2 save.1 save.2, UsageCounted r.2 ∧
    (BringsNoUsage py x.1 save.1 → ∀ u ∈ (getUsage py r.2).join, ∃ S ∈ rowUsage x.2 messageId, u.toJson.eq S.toJson))
    (forall₂_congr fun _ _ => and_congr_right fun _ => imp_congr_right fun _ => forall_join_iff)

namespace Sample

def plainSave : PyDict := (PyDict.put .empty "content" (.str (.lit "q"))).put "done" (.bool true)

def usageSave (input : ℤ) : PyDict :=
  .put .empty "usage" (.obj [(.lit "input_tokens", .int input), (.lit "output_tokens", .int 1)])

def savedOnce : ChatStore := (upsertMessageToChat noText ⟨.empty, .empty⟩ (.lit "a") plainSave 1).getD ⟨.empty, .empty⟩

theorem savedOnce_usage : rowUsage savedOnce (.lit "a") = none := by
  decide +kernel

end Sample

/-- A usage is saved, and then the message without one. -/
theorem usageKept_sample : ∃ (tr : List ((PyDict × ℤ) × Bool)) (store store' : ChatStore),
    (saveMachine Sample.noText (.lit "a")).Run Sample.savedOnce tr store ∧
      (saveMachine Sample.noText (.lit "a")).step store (Sample.plainSave, 3) = some (store', true) ∧
      (rowUsage store (.lit "a")).isSome ∧ rowUsage store' (.lit "a") = rowUsage store (.lit "a") := by
  obtain ⟨⟨tr, y⟩, hm, hsettled, hsome, ⟨store', o⟩, hs, ho⟩ :
      ∃ r ∈ (saveMachine Sample.noText (.lit "a")).recording.exec (UsageSettled Sample.noText (.lit "a"))
        ([], Sample.savedOnce) [(Sample.usageSave 10, 2)],
        UsageSettled Sample.noText (.lit "a") r.2 (Sample.plainSave, 3) ∧ (rowUsage r.2.2 (.lit "a")).isSome ∧
          ∃ r' ∈ (saveMachine Sample.noText (.lit "a")).step r.2.2 (Sample.plainSave, 3), r'.2 = true := by
    decide +kernel
  simp only at hsettled hsome hs ho
  subst ho
  have hrun := Machine.runIn_of_exec hm
  refine ⟨tr, y.2, store', hrun.recorded.2, hs, hsome, usageKept ?_ hrun hsettled hs (.inl (by decide +kernel))⟩
  rw [Sample.savedOnce_usage]
  rintro S ⟨⟩

/-- **An old usage is added again**: two usages are saved, and then the message without one. -/
theorem not_usageKept : ¬ ∀ (py : PyConv) (messageId : Text) (start store store' : ChatStore) (save : PyDict × ℤ) (o : Bool)
    (tr : List ((PyDict × ℤ) × Bool)), (∀ S ∈ rowUsage start messageId, Normal S) →
    (saveMachine py messageId).RunIn (SavesCounts py messageId) start tr store → SavesCounts py messageId store save →
    (saveMachine py messageId).step store save = some (store', o) → BringsNoUsage py tr save.1 → rowUsage store' messageId = rowUsage store messageId := by
  intro h
  obtain ⟨⟨tr, store⟩, hm, hcounts, ⟨store', o⟩, hs, hne⟩ :
      ∃ r ∈ (saveMachine Sample.noText (.lit "a")).exec (SavesCounts Sample.noText (.lit "a")) Sample.savedOnce
        [(Sample.usageSave 10, 2), (Sample.usageSave 20, 3)],
        SavesCounts Sample.noText (.lit "a") r.2 (Sample.plainSave, 4) ∧
        ∃ r' ∈ (saveMachine Sample.noText (.lit "a")).step r.2 (Sample.plainSave, 4),
          rowUsage r'.1 (.lit "a") ≠ rowUsage r.2 (.lit "a") := by
    decide +kernel
  refine hne (h _ _ _ store store' _ o tr ?_ (Machine.runIn_of_exec hm) hcounts hs (.inl (by decide +kernel)))
  rw [Sample.savedOnce_usage]
  rintro S ⟨⟩

end TideBot
