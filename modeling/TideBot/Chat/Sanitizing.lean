/-
  What is cleaned before it is stored (`utils/misc.py`, `sanitize_text_for_db` and `sanitize_data_for_db`).

  A value is printed once, and only gone through if a null character or a surrogate is in the text.  The codec that
  prints it escapes the null character and either keeps a surrogate or raises; which codec it is may depend on the
  value (`Printed`).  So what is skipped is clean, and the walk would have left it as it is
  (`sanitizeDataForDb_exact`).
-/
import TideBot.Chat.Rows
import TideBot.Lib.JsonStrings

namespace TideBot

open Lib

/-- `SURROGATE_RE.search` -/
def hasSurrogate (text : Text) : Bool := text.any CodePoint.surrogate

/-- `sanitize_text_for_db` -/
def sanitizeTextForDb (text : Text) : Text :=
  if 0 ∉ text ∧ !hasSurrogate text then text
  else (text.filter fun c => c ≠ 0).filter fun c => !c.surrogate

mutual

/-- `_strip_null_bytes_deep` -/
def stripNullBytesDeep : Json → Json
  | .str s => .str (sanitizeTextForDb s)
  | .obj fs => (PyDict.ofFields (stripFields fs)).toJson
  | .arr xs => .arr (stripItems xs)
  | j => j

def stripItems : List Json → List Json
  | [] => []
  | x :: xs => stripNullBytesDeep x :: stripItems xs

def stripFields : List (Text × Json) → List (Text × Json)
  | [] => []
  | (k, x) :: fs => (sanitizeTextForDb k, stripNullBytesDeep x) :: stripFields fs

end

/-- `'\\u0000'` -/
def nullEscape : Text := .lit "\\u0000"

/-- `sanitize_data_for_db`; where `dumps` raises or the text cannot be encoded, the walk follows. -/
def sanitizeDataForDb (dumps : Json → Option Text) : Json → Json
  | .str s => .str (sanitizeTextForDb s)
  | j =>
    match dumps j with
    | none => stripNullBytesDeep j
    | some serialized =>
      if ¬nullEscape <:+: serialized ∧ !hasSurrogate serialized then j else stripNullBytesDeep j

/-! ## Clean texts -/

/-- Neither a null character nor a surrogate. -/
def CleanText (text : Text) : Prop := ∀ c ∈ text, c ≠ 0 ∧ c.surrogate = false

/-- A value whose strings and keys are clean at any depth. -/
def CleanData (j : Json) : Prop := ∀ s ∈ j.strings, CleanText s

variable {s : Text} {j : Json}

theorem cleanText_iff : CleanText s ↔ 0 ∉ s ∧ hasSurrogate s = false := by
  rw [hasSurrogate, List.any_eq_false]
  constructor
  · intro h
    refine ⟨fun hmem => (h 0 hmem).1 rfl, fun c hc => ?_⟩
    rw [(h c hc).2]
    exact Bool.false_ne_true
  · rintro ⟨hnull, hsurrogate⟩ c hc
    refine ⟨?_, by simpa using hsurrogate c hc⟩
    rintro rfl
    exact hnull hc

theorem sanitizeTextForDb_eq (s : Text) : sanitizeTextForDb s = sanitizeText s := by
  rw [sanitizeTextForDb, List.filter_filter, sanitizeText]
  split_ifs with h
  · have hclean : CleanText s := cleanText_iff.2 ⟨h.1, by simpa using h.2⟩
    refine (List.filter_eq_self.2 fun c hc => ?_).symm
    obtain ⟨hnull, hsurrogate⟩ := hclean c hc
    rw [hsurrogate, Bool.not_false, Bool.and_true, decide_eq_true_eq]
    exact fun hval => hnull (Fin.ext hval)
  · refine List.filter_congr fun c _ => ?_
    rw [Bool.and_comm]
    congr 2
    exact propext (not_congr Fin.ext_iff)

theorem sanitizeTextForDb_clean (s : Text) : CleanText (sanitizeTextForDb s) := by
  rw [sanitizeTextForDb_eq]
  intro c hc
  obtain ⟨-, hc⟩ := List.mem_filter.1 hc
  rw [Bool.and_eq_true, decide_eq_true_eq, Bool.not_eq_true'] at hc
  refine ⟨?_, hc.2⟩
  rintro rfl
  exact hc.1 rfl

theorem sanitizeTextForDb_of_clean (h : CleanText s) : sanitizeTextForDb s = s := by
  obtain ⟨hnull, hsurrogate⟩ := cleanText_iff.1 h
  exact if_pos ⟨hnull, by rw [hsurrogate]; rfl⟩

/-! ## The walk -/

theorem stripItems_eq (xs : List Json) : stripItems xs = xs.map stripNullBytesDeep := by
  induction xs with
  | nil => rfl
  | cons x xs ih => rw [stripItems, ih, List.map_cons]

theorem stripFields_eq (fs : List (Text × Json)) :
    stripFields fs = fs.map fun f => (sanitizeTextForDb f.1, stripNullBytesDeep f.2) := by
  induction fs with
  | nil => rfl
  | cons f fs ih => rw [stripFields, ih, List.map_cons]

theorem stripNullBytesDeep_atom (harr : ∀ xs, j ≠ .arr xs) (hobj : ∀ fs, j ≠ .obj fs) :
    (∃ s, j = .str s ∧ stripNullBytesDeep j = .str (sanitizeTextForDb s)) ∨
      (j.strings = [] ∧ stripNullBytesDeep j = j) := by
  cases j with
  | str s => exact .inl ⟨s, rfl, rfl⟩
  | arr xs => exact absurd rfl (harr xs)
  | obj fs => exact absurd rfl (hobj fs)
  | null | bool | int | float => exact .inr ⟨rfl, rfl⟩

theorem stripNullBytesDeep_clean (j : Json) : CleanData (stripNullBytesDeep j) := by
  induction j using Json.induct with
  | atom j harr hobj =>
    intro s hs
    obtain ⟨t, rfl, ht⟩ | ⟨hnone, hsame⟩ := stripNullBytesDeep_atom harr hobj
    · rw [ht] at hs
      rw [List.mem_singleton.1 hs]
      exact sanitizeTextForDb_clean t
    · rw [hsame, hnone] at hs
      cases hs
  | arr xs ih =>
    intro s hs
    rw [stripNullBytesDeep, stripItems_eq] at hs
    obtain ⟨y, hy, hsy⟩ := Json.mem_strings_arr.1 hs
    obtain ⟨x, hx, rfl⟩ := List.mem_map.1 hy
    exact ih x hx s hsy
  | obj fs ih =>
    intro s hs
    rw [stripNullBytesDeep, stripFields_eq] at hs
    obtain ⟨g, hg, hsg⟩ := Json.mem_strings_obj.1 hs
    obtain ⟨f, hf, rfl⟩ := List.mem_map.1 (PyDict.mem_entries_ofFields hg)
    obtain rfl | hsg := hsg
    · exact sanitizeTextForDb_clean f.1
    · exact ih f hf s hsg

theorem stripNullBytesDeep_distinct (j : Json) : (stripNullBytesDeep j).Distinct := by
  induction j using Json.induct with
  | atom j harr hobj =>
    cases j with
    | arr xs => exact absurd rfl (harr xs)
    | obj fs => exact absurd rfl (hobj fs)
    | null | bool | int | float | str => trivial
  | arr xs ih =>
    rw [stripNullBytesDeep, stripItems_eq, Json.Distinct, Json.itemsDistinct_iff]
    exact List.forall_mem_map.2 ih
  | obj fs ih =>
    rw [stripNullBytesDeep, stripFields_eq, PyDict.toJson, Json.Distinct, Json.fieldsDistinct_iff]
    refine ⟨Dict.nodup _, fun g hg => ?_⟩
    obtain ⟨f, hf, rfl⟩ := List.mem_map.1 (PyDict.mem_entries_ofFields hg)
    exact ih f hf

theorem stripNullBytesDeep_of_clean (h : CleanData j) (hd : j.Distinct) : stripNullBytesDeep j = j := by
  induction j using Json.induct with
  | atom j harr hobj =>
    obtain ⟨s, rfl, hs⟩ | ⟨-, hsame⟩ := stripNullBytesDeep_atom harr hobj
    · rw [hs, sanitizeTextForDb_of_clean (h s List.mem_cons_self)]
    · exact hsame
  | arr xs ih =>
    rw [Json.Distinct, Json.itemsDistinct_iff] at hd
    rw [stripNullBytesDeep, stripItems_eq]
    congr 1
    refine (List.map_congr_left fun x hx => ?_).trans (List.map_id xs)
    exact ih x hx (fun s hs => h s (Json.mem_strings_arr.2 ⟨x, hx, hs⟩)) (hd x hx)
  | obj fs ih =>
    rw [Json.Distinct, Json.fieldsDistinct_iff] at hd
    have hfields : (fs.map fun f => (sanitizeTextForDb f.1, stripNullBytesDeep f.2)) = fs := by
      refine (List.map_congr_left fun f hf => ?_).trans (List.map_id fs)
      have hkey := sanitizeTextForDb_of_clean (h f.1 (Json.mem_strings_obj.2 ⟨f, hf, .inl rfl⟩))
      have hvalue := ih f hf (fun s hs => h s (Json.mem_strings_obj.2 ⟨f, hf, .inr hs⟩)) (hd.2 f hf)
      rw [hkey, hvalue]
      rfl
    rw [stripNullBytesDeep, stripFields_eq, hfields, PyDict.toJson, PyDict.entries_ofFields hd.1]

/-! ## The check in front -/

/-- A codec without `ensure_ascii`. -/
structure Escapes (codec : Json.Codec) : Prop where
  null : codec.char 0 = some nullEscape
  surrogate : ∀ c : CodePoint, c.surrogate → codec.char c = none ∨ codec.char c = some [c]

/-- What is printed is printed by such a codec. -/
def Printed (dumps : Json → Option Text) : Prop :=
  ∀ j text, dumps j = some text → ∃ codec, Escapes codec ∧ codec.print j = some text

theorem clean_of_check {dumps : Json → Option Text} (hdumps : Printed dumps) {serialized : Text}
    (h : dumps j = some serialized) (hnull : ¬nullEscape <:+: serialized)
    (hsurrogate : hasSurrogate serialized = false) : CleanData j := by
  obtain ⟨codec, hescapes, hprint⟩ := hdumps j serialized h
  intro s hs
  refine cleanText_iff.2 ⟨fun hmem => ?_, ?_⟩
  · obtain ⟨e, he, hpart⟩ := Json.Codec.print_char hprint hs hmem
    obtain rfl := Option.some.inj (hescapes.null.symm.trans he)
    exact hnull hpart
  · rw [hasSurrogate, List.any_eq_false]
    intro c hc hsur
    obtain ⟨e, he, hpart⟩ := Json.Codec.print_char hprint hs hc
    have hkept : codec.char c = some [c] := (hescapes.surrogate c hsur).resolve_left (by simp [he])
    obtain rfl := Option.some.inj (hkept.symm.trans he)
    rw [hasSurrogate, List.any_eq_false] at hsurrogate
    exact hsurrogate c (hpart.subset List.mem_cons_self) hsur

theorem sanitizeDataForDb_eq {dumps : Json → Option Text} (hdumps : Printed dumps) (hd : j.Distinct) :
    sanitizeDataForDb dumps j = stripNullBytesDeep j := by
  have hcheck : ∀ j : Json, j.Distinct → (match dumps j with
      | none => stripNullBytesDeep j
      | some serialized =>
        if ¬nullEscape <:+: serialized ∧ !hasSurrogate serialized then j else stripNullBytesDeep j) =
      stripNullBytesDeep j := by
    intro j hd
    cases hprint : dumps j with
    | none => rfl
    | some serialized =>
      dsimp only
      split_ifs with h
      · exact (stripNullBytesDeep_of_clean (clean_of_check hdumps hprint h.1 (by simpa using h.2)) hd).symm
      · rfl
  cases j with
  | str s => rfl
  | null | bool | int | float | arr | obj => exact hcheck _ hd

/-- `json.dumps(…, ensure_ascii=False)` -/
def jsonCodec (F : Json.FloatText) : Json.Codec where
  char c := some (Json.escapeChar c)
  atom j := some (Json.text F j)
  itemSeparator := .lit ", "
  keySeparator := .lit ": "

theorem jsonCodec_escapes (F : Json.FloatText) : Escapes (jsonCodec F) where
  null := by
    have hescape : Json.escapeChar 0 = nullEscape := by decide
    exact congrArg some hescape
  surrogate c hc := by
    have hval : 0xD800 ≤ c.val := by
      rw [CodePoint.surrogate, Bool.and_eq_true, decide_eq_true_eq] at hc
      exact hc.1
    have hne : ∀ d : Char, d.toNat < 0xD800 → c ≠ Json.ch d := by
      rintro d hd rfl
      exact absurd hval (Nat.not_le.2 hd)
    have hescape : Json.escapeChar c = [c] := by
      rw [Json.escapeChar, if_neg (hne '"' (by decide)), if_neg (hne '\\' (by decide)),
        if_neg (hne '\n' (by decide)), if_neg (hne '\r' (by decide)), if_neg (hne '\t' (by decide)),
        if_neg (by omega), if_neg (by omega), if_neg (by omega)]
    exact .inr (congrArg some hescape)

theorem printed_jsonCodec (F : Json.FloatText) : Printed (jsonCodec F).print :=
  fun _ _ h => ⟨jsonCodec F, jsonCodec_escapes F, h⟩

/-- **The check in front of the walk is sound**: a value whose objects have distinct keys, as all dictionaries do, is
    made what the walk makes of it; that is clean and is not changed again, and a clean value is not changed. -/
theorem sanitizeDataForDb_exact {dumps : Json → Option Text} (hdumps : Printed dumps) {j : Json} (hd : j.Distinct) :
    sanitizeDataForDb dumps j = stripNullBytesDeep j ∧
      CleanData (sanitizeDataForDb dumps j) ∧
      sanitizeDataForDb dumps (sanitizeDataForDb dumps j) = sanitizeDataForDb dumps j ∧
      (CleanData j → sanitizeDataForDb dumps j = j) := by
  have hclean := stripNullBytesDeep_clean j
  have hdistinct := stripNullBytesDeep_distinct j
  rw [sanitizeDataForDb_eq hdumps hd]
  refine ⟨rfl, hclean, ?_, fun h => stripNullBytesDeep_of_clean h hd⟩
  rw [sanitizeDataForDb_eq hdumps hdistinct, stripNullBytesDeep_of_clean hclean hdistinct]

/-- A null character in a key, and a surrogate in a string under it. -/
def Sample.soiled : Json := .obj [([0, 97], .arr [.str [0xD800, 98], .int 1])]

theorem sanitizeDataForDb_soiled :
    CleanData (sanitizeDataForDb (jsonCodec ⟨fun _ => .lit "0.0", fun _ => 0⟩).print Sample.soiled) ∧
      sanitizeDataForDb (jsonCodec ⟨fun _ => .lit "0.0", fun _ => 0⟩).print Sample.soiled =
        .obj [(.lit "a", .arr [.str (.lit "b"), .int 1])] := by
  have hdistinct : Sample.soiled.Distinct := ⟨List.nodup_singleton _, ⟨⟨trivial, trivial, trivial⟩, trivial⟩⟩
  exact ⟨(sanitizeDataForDb_exact (printed_jsonCodec _) hdistinct).2.1, by decide⟩

end TideBot
