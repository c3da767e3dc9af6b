/-
  Recurrence rules on the server (`_valid_rrule`) and in the extension (`validateScheduleRRule`).

  Both split a rule into items and look at five fields.  The server looks at a field that is there, the
  extension at one that is not empty; they agree on every other text (`validRrule_eq_iff`), although they
  split an item and find a field that comes twice in different ways.
-/
import TideBot.Extension.Schedules

namespace TideBot

open Lib

/-! ## The server's rules -/

/-- `part.split('=', 1)`, if it has two parts. -/
def splitOnce (part : Text) : Option (Text × Text) :=
  if part.contains (code '=') then
    some (part.takeWhile (· ≠ code '='), (part.dropWhile (· ≠ code '=')).drop 1)
  else none

/-- `_RRULE_KEYS` -/
def rruleKeys : List Text := ["FREQ", "INTERVAL", "BYDAY", "BYHOUR", "BYMINUTE"].map Text.lit

/-- `_RRULE_FREQUENCIES` -/
def rruleFrequencies : List Text := ["MINUTELY", "HOURLY", "DAILY", "WEEKLY"].map Text.lit

/-- The fields, if each item has two parts; `none` also if a name comes twice. -/
def rruleFields (value : Text) : Option (Dict Text Text) := do
  let parts ← (value.splitOn (code ';')).mapM splitOnce
  let rule : Dict Text Text := parts.foldl (fun d p => d.set p.1 p.2) .empty
  if rule.size ≠ parts.length then none else some rule

/-- The checks on the fields. -/
def rruleChecks (rule : Dict Text Text) : Bool :=
  let interval := (rule.get (.lit "INTERVAL")).getD (.lit "1")
  (rule.keys.all fun key => key ∈ rruleKeys) && (rule.get (.lit "FREQ")).any (fun f => f ∈ rruleFrequencies) &&
    intervalForm interval && decimal interval ≤ 365 && (rule.get (.lit "BYDAY")).all daysForm &&
    (rule.get (.lit "BYHOUR")).all hourForm && (rule.get (.lit "BYMINUTE")).all minuteForm

/-- `_valid_rrule` -/
def validRrule (value : Text) : Bool := (rruleFields value).any rruleChecks

/-! ## Items -/

section

variable {part k v value : Text} {parts : List (Text × Text)} {rule d : Dict Text Text} {c : CodePoint}

theorem splitOnce_eq_some : splitOnce part = some (k, v) ↔ part = k ++ code '=' :: v ∧ code '=' ∉ k := by
  rw [splitOnce]
  constructor
  · intro h
    split_ifs at h with hmem
    obtain ⟨rfl, rfl⟩ := Prod.mk.inj (Option.some.inj h)
    have hne : part.dropWhile (· ≠ code '=') ≠ [] := by
      rw [ne_eq, List.dropWhile_eq_nil_iff]
      intro hall
      have := hall _ (List.contains_iff_mem.1 hmem)
      simp at this
    have hhead := List.head_dropWhile_not (· ≠ code '=') hne
    have hcons : part.dropWhile (· ≠ code '=') = code '=' :: (part.dropWhile (· ≠ code '=')).drop 1 := by
      have heq : (part.dropWhile (· ≠ code '=')).head hne = code '=' := by simpa using hhead
      exact (List.cons_head_tail hne).symm.trans (by rw [heq, List.drop_one])
    constructor
    · rw [← hcons, List.takeWhile_append_dropWhile]
    · intro hin
      have := List.mem_takeWhile_imp hin
      simp at this
  · rintro ⟨rfl, hk⟩
    have hall : ∀ c ∈ k, decide (c ≠ code '=') = true := by
      intro c hc
      refine decide_eq_true ?_
      rintro rfl
      exact hk hc
    rw [if_pos (by simp), List.takeWhile_append_of_pos hall, List.dropWhile_append_of_pos hall]
    simp

theorem splitOnce_eq_none : splitOnce part = none ↔ code '=' ∉ part := by
  simp [splitOnce]

theorem splitOn_of_splitOnce (h : splitOnce part = some (k, v)) :
    part.splitOn (code '=') = k :: v.splitOn (code '=') := by
  obtain ⟨rfl, hk⟩ := splitOnce_eq_some.1 h
  rw [List.splitOn_append_cons_self, List.splitOn_eq_singleton hk, List.singleton_append]

theorem splitOn_eq_pair : part.splitOn (code '=') = [k, v] ↔ splitOnce part = some (k, v) ∧ code '=' ∉ v := by
  constructor
  · intro h
    by_cases hmem : code '=' ∈ part
    · obtain ⟨⟨k', v'⟩, hsplit⟩ := Option.ne_none_iff_exists'.1 fun hnone => splitOnce_eq_none.1 hnone hmem
      rw [splitOn_of_splitOnce hsplit, List.cons.injEq] at h
      obtain ⟨rfl, hrest⟩ := h
      have hv : code '=' ∉ v' := by
        intro hv
        obtain ⟨⟨k'', v''⟩, hagain⟩ := Option.ne_none_iff_exists'.1 fun hnone => splitOnce_eq_none.1 hnone hv
        rw [splitOn_of_splitOnce hagain] at hrest
        exact List.splitOn_ne_nil _ _ (List.cons.inj hrest).2
      rw [List.splitOn_eq_singleton hv] at hrest
      obtain ⟨rfl, -⟩ := List.cons.inj hrest
      exact ⟨hsplit, hv⟩
    · rw [List.splitOn_eq_singleton hmem] at h
      cases h
  · rintro ⟨hsplit, hv⟩
    rw [splitOn_of_splitOnce hsplit, List.splitOn_eq_singleton hv]

/-- An item with a name and a value. -/
def ruleItem (e : Text × Text) : Text := e.1 ++ code '=' :: e.2

theorem splitOnce_ruleItem {e : Text × Text} (h : code '=' ∉ e.1) : splitOnce (ruleItem e) = some e :=
  splitOnce_eq_some.2 ⟨rfl, h⟩

theorem mapM_splitOnce {items : List Text} :
    items.mapM splitOnce = some parts ↔ items = parts.map ruleItem ∧ ∀ e ∈ parts, code '=' ∉ e.1 := by
  induction items generalizing parts with
  | nil => cases parts <;> simp
  | cons item items ih =>
    rw [List.mapM_cons]
    constructor
    · intro h
      obtain ⟨e, he, h⟩ := Option.bind_eq_some_iff.1 h
      obtain ⟨es, hes, h⟩ := Option.bind_eq_some_iff.1 h
      obtain rfl := Option.some.inj h
      obtain ⟨rfl, hfree⟩ := ih.1 hes
      obtain ⟨rfl, hk⟩ := splitOnce_eq_some.1 he
      exact ⟨rfl, List.forall_mem_cons.2 ⟨hk, hfree⟩⟩
    · rintro ⟨heq, hfree⟩
      cases parts with
      | nil => cases heq
      | cons e es =>
        obtain ⟨rfl, rfl⟩ := List.cons.inj heq
        obtain ⟨hk, hfree⟩ := List.forall_mem_cons.1 hfree
        rw [splitOnce_ruleItem hk, ih.2 ⟨rfl, hfree⟩]
        rfl

/-- **The fields that the server finds.** -/
theorem rruleFields_eq_some : rruleFields value = some rule ↔
    value.splitOn (code ';') = rule.entries.map ruleItem ∧ ∀ e ∈ rule.entries, code '=' ∉ e.1 := by
  rw [rruleFields, ← mapM_splitOnce]
  constructor
  · intro h
    obtain ⟨parts, hparts, h⟩ := Option.bind_eq_some_iff.1 h
    dsimp only at h
    split_ifs at h with hsize
    obtain rfl := Dict.foldl_set_eq_iff.1 ⟨not_not.1 hsize, Option.some.inj h⟩
    exact hparts
  · intro h
    obtain ⟨hsize, heq⟩ := Dict.foldl_set_eq_iff.2 (rfl : rule.entries = rule.entries)
    rw [h, Option.bind_eq_bind, Option.bind_some, if_neg (not_not.2 hsize), heq]

/-- **The fields that the extension finds.** -/
theorem ruleFields_eq_some : ruleFields value = some rule ↔
    value.splitOn (code ';') = rule.entries.map ruleItem ∧ ∀ e ∈ rule.entries, code '=' ∉ e.1 ∧ code '=' ∉ e.2 := by
  have hfold : ∀ items : List Text, (items.map (·.splitOn (code '='))).foldl
      (fun d parts => d.set (parts.getD 0 []) (parts.getD 1 [])) Dict.empty =
        (items.map fun item => ((item.splitOn (code '=')).getD 0 [], (item.splitOn (code '=')).getD 1 [])).foldl
          (fun d e => d.set e.1 e.2) (Dict.empty : Dict Text Text) := by
    intro items
    rw [List.foldl_map, List.foldl_map]
  rw [ruleFields, hfold]
  constructor
  · intro h
    split_ifs at h with hbad
    rw [Bool.not_eq_true, Bool.or_eq_false_iff] at hbad
    obtain ⟨hlength, hsize⟩ := hbad
    rw [List.any_eq_false] at hlength
    have hentries := Dict.foldl_set_eq_iff.1 ⟨by simpa using hsize, Option.some.inj h⟩
    have hpair : ∀ item ∈ value.splitOn (code ';'), item.splitOn (code '=') =
        [(item.splitOn (code '=')).getD 0 [], (item.splitOn (code '=')).getD 1 []] := by
      intro item hitem
      have htwo := hlength _ (List.mem_map_of_mem hitem)
      obtain ⟨k, v, hkv⟩ := List.length_eq_two.1 (by simpa using htwo)
      rw [hkv]
      rfl
    rw [← hentries]
    constructor
    · rw [List.map_map]
      refine (List.map_id _).symm.trans (List.map_congr_left ?_)
      intro item hitem
      exact (splitOnce_eq_some.1 (splitOn_eq_pair.1 (hpair item hitem)).1).1
    · intro e he
      obtain ⟨item, hitem, rfl⟩ := List.mem_map.1 he
      obtain ⟨hsplit, hv⟩ := splitOn_eq_pair.1 (hpair item hitem)
      exact ⟨(splitOnce_eq_some.1 hsplit).2, hv⟩
  · rintro ⟨hitems, hfree⟩
    have hpair : ∀ e ∈ rule.entries, (ruleItem e).splitOn (code '=') = [e.1, e.2] := by
      intro e he
      obtain ⟨hk, hv⟩ := hfree e he
      exact splitOn_eq_pair.2 ⟨splitOnce_eq_some.2 ⟨rfl, hk⟩, hv⟩
    have hentries : (value.splitOn (code ';')).map (fun item =>
        ((item.splitOn (code '=')).getD 0 [], (item.splitOn (code '=')).getD 1 [])) = rule.entries := by
      rw [hitems, List.map_map]
      refine (List.map_congr_left ?_).trans (List.map_id _)
      intro e he
      rw [Function.comp_apply, hpair e he]
      rfl
    obtain ⟨hsize, heq⟩ := Dict.foldl_set_eq_iff.2 hentries
    have hlength : ((value.splitOn (code ';')).map (·.splitOn (code '='))).any (·.length ≠ 2) = false := by
      rw [List.any_eq_false]
      intro parts hparts
      obtain ⟨item, hitem, rfl⟩ := List.mem_map.1 hparts
      rw [hitems] at hitem
      obtain ⟨e, he, rfl⟩ := List.mem_map.1 hitem
      rw [hpair e he]
      simp
    rw [hlength, heq]
    rw [heq] at hsize
    rw [List.length_map] at hsize ⊢
    simp [hsize]

end

/-! ## The checks on the fields -/

/-- The optional fields, and the form of each. -/
def optionalForms : List (Text × (Text → Bool)) :=
  [(.lit "BYDAY", daysForm), (.lit "BYHOUR", hourForm), (.lit "BYMINUTE", minuteForm)]

/-- What both check in the same way. -/
def SharedChecks (rule : Dict Text Text) : Prop :=
  (∀ key ∈ rule.keys, key ∈ rruleKeys) ∧ (∃ f ∈ rruleFrequencies, rule.get (.lit "FREQ") = some f) ∧
    intervalForm ((rule.get (.lit "INTERVAL")).getD (.lit "1")) ∧
    decimal ((rule.get (.lit "INTERVAL")).getD (.lit "1")) ≤ 365

/-- The fields of a rule; optional ones may be there and empty. -/
structure RuleOf (value : Text) (rule : Dict Text Text) : Prop where
  items : value.splitOn (code ';') = rule.entries.map ruleItem
  shared : SharedChecks rule
  optional : ∀ o ∈ optionalForms, ∀ v ∈ rule.get o.1, v = [] ∨ o.2 v

/-- A rule in which an optional field is there and empty. -/
def HasEmptyField (value : Text) : Prop :=
  ∃ rule, RuleOf value rule ∧ ∃ o ∈ optionalForms, rule.get o.1 = some []

section

variable {value : Text} {rule : Dict Text Text} {f t : Text} {c : CodePoint}

theorem rruleChecks_iff :
    rruleChecks rule ↔ SharedChecks rule ∧ ∀ o ∈ optionalForms, ∀ v ∈ rule.get o.1, o.2 v := by
  simp only [rruleChecks, SharedChecks, optionalForms, Bool.and_eq_true, List.all_eq_true, decide_eq_true_eq,
    Option.any_eq_true, Option.all_eq_true, List.forall_mem_cons, List.not_mem_nil, Option.mem_def]
  constructor
  · rintro ⟨⟨⟨⟨⟨⟨hkeys, f, hget, hfreq⟩, hform⟩, hle⟩, hday⟩, hhour⟩, hminute⟩
    exact ⟨⟨hkeys, ⟨f, hfreq, hget⟩, hform, hle⟩, hday, hhour, hminute, fun _ h => h.elim⟩
  · rintro ⟨⟨hkeys, ⟨f, hfreq, hget⟩, hform, hle⟩, hday, hhour, hminute, -⟩
    exact ⟨⟨⟨⟨⟨⟨hkeys, f, hget, hfreq⟩, hform⟩, hle⟩, hday⟩, hhour⟩, hminute⟩

theorem mem_rruleFrequencies : f ∈ rruleFrequencies ↔ ∃ n, nanoseconds f = some n := by
  simp only [rruleFrequencies, List.map_cons, List.map_nil, List.mem_cons, List.not_mem_nil, or_false]
  unfold nanoseconds
  constructor
  · rintro (rfl | rfl | rfl | rfl) <;> exact ⟨_, rfl⟩
  · rintro ⟨n, hn⟩
    split_ifs at hn <;> simp [*]

theorem validateScheduleRRule_iff : validateScheduleRRule value ↔
    (value ≠ [] ∧ value.utf16Length ≤ 256) ∧ ∃ rule, ruleFields value = some rule ∧ SharedChecks rule ∧
      ∀ o ∈ optionalForms, ∀ v ∈ rule.get o.1, v = [] ∨ o.2 v := by
  simp only [validateScheduleRRule, Option.isSome_iff_exists, parseRule, bind, Option.bind_eq_some_iff,
    Option.guard_eq_some', optionalForms, List.forall_mem_cons, List.not_mem_nil, SharedChecks, List.all_eq_true,
    decide_eq_true_eq, mem_rruleFrequencies]
  constructor
  · rintro ⟨r, -, hsize, rule, hrule, -, hkeys, f, hget, n, hn, -, hint, -, hday, -, hhour, -, hminute, -⟩
    exact ⟨hsize, rule, hrule, ⟨hkeys, ⟨f, ⟨n, hn⟩, hget⟩, hint.1, hint.2⟩, hday, hhour, hminute, fun _ h => h.elim⟩
  · rintro ⟨hsize, rule, hrule, ⟨hkeys, ⟨f, ⟨n, hn⟩, hget⟩, hform, hle⟩, hday, hhour, hminute, -⟩
    exact ⟨_, (), hsize, rule, hrule, (), hkeys, f, hget, n, hn, (), ⟨hform, hle⟩, (), hday, (), hhour, (), hminute, rfl⟩

/-! ## What stands in a rule -/

/-- An ASCII character that does not separate a name from a value. -/
def ruleChar (c : CodePoint) : Bool := c.val < 128 && c ≠ code '='

theorem ruleChar_of_digit (h : digit c) : ruleChar c := by
  simp only [digit, Bool.and_eq_true, decide_eq_true_eq] at h
  have hne : c ≠ code '=' := by
    rintro rfl
    exact absurd h.2 (by decide)
  simp only [ruleChar, Bool.and_eq_true, decide_eq_true_eq]
  exact ⟨by omega, hne⟩

theorem ruleChar_of_intervalForm (h : intervalForm t) : t.all ruleChar := by
  cases t with
  | nil => rfl
  | cons c rest =>
    simp only [intervalForm, Bool.and_eq_true, List.all_eq_true] at h
    obtain ⟨⟨⟨hc, -⟩, -⟩, hrest⟩ := h
    rw [List.all_cons, ruleChar_of_digit hc, Bool.true_and, List.all_eq_true]
    intro c hc
    exact ruleChar_of_digit (hrest c hc)

theorem mem_splitOn (sep : CodePoint) (h : c ∈ t) : c = sep ∨ ∃ part ∈ t.splitOn sep, c ∈ part := by
  have key : ∀ parts : List Text, c ∈ [sep].intercalate parts → c = sep ∨ ∃ part ∈ parts, c ∈ part := by
    intro parts
    induction parts with
    | nil => simp
    | cons part parts ih =>
      intro hmem
      cases parts with
      | nil => exact .inr ⟨part, by simp, by simpa using hmem⟩
      | cons part' parts =>
        rw [List.intercalate_cons_cons, List.mem_append, List.mem_append, List.mem_singleton] at hmem
        obtain (hmem | hmem) | hmem := hmem
        · exact .inr ⟨part, by simp, hmem⟩
        · exact .inl hmem
        · obtain hsep | ⟨l, hl, hc⟩ := ih hmem
          · exact .inl hsep
          · exact .inr ⟨l, by simp [hl], hc⟩
  exact key _ (by rwa [List.intercalate_splitOn])

theorem ruleChar_of_daysForm (h : daysForm t) : t.all ruleChar := by
  have hdays : (["MO", "TU", "WE", "TH", "FR", "SA", "SU"].map Text.lit).all (·.all ruleChar) := by decide +kernel
  rw [daysForm, List.all_eq_true] at h
  rw [List.all_eq_true] at hdays ⊢
  intro c hc
  obtain rfl | ⟨day, hday, hc⟩ := mem_splitOn (code ',') hc
  · decide
  · exact List.all_eq_true.1 (hdays day (of_decide_eq_true (h day hday))) c hc

theorem ruleChar_of_hourForm (h : hourForm t) : t.all ruleChar := by
  unfold hourForm at h
  split at h
  · simp [ruleChar_of_digit h]
  · rename_i c d
    have hdigits : digit c ∧ digit d := by
      simp only [Bool.or_eq_true, Bool.and_eq_true, decide_eq_true_eq] at h
      obtain ⟨rfl, hd⟩ | ⟨⟨rfl, hd⟩, -⟩ := h <;> exact ⟨by decide, hd⟩
    simp [ruleChar_of_digit hdigits.1, ruleChar_of_digit hdigits.2]
  · cases h

theorem ruleChar_of_minuteForm (h : minuteForm t) : t.all ruleChar := by
  unfold minuteForm at h
  split at h
  · simp [ruleChar_of_digit h]
  · simp only [Bool.and_eq_true] at h
    obtain ⟨⟨⟨hc, -⟩, -⟩, hd⟩ := h
    simp [ruleChar_of_digit hc, ruleChar_of_digit hd]
  · cases h

theorem RuleOf.ruleChar (h : RuleOf value rule) {e : Text × Text} (he : e ∈ rule.entries) :
    e.1.all ruleChar ∧ e.2.all ruleChar := by
  obtain ⟨-, ⟨hkeys, ⟨f, hfreq, hget⟩, hform, -⟩, hoptional⟩ := h
  have hnames : rruleKeys.all (·.all TideBot.ruleChar) := by decide +kernel
  have hfrequencies : rruleFrequencies.all (·.all TideBot.ruleChar) := by decide +kernel
  have hkey : e.1 ∈ rruleKeys := hkeys _ (List.mem_map_of_mem he)
  have hvalue : rule.get e.1 = some e.2 := Dict.mem_entries_iff.1 he
  have hempty : ∀ {v : Text} {form : Text → Bool}, (form v → v.all TideBot.ruleChar) → v = [] ∨ form v →
      v.all TideBot.ruleChar := by
    rintro v form hchars (rfl | hv)
    · rfl
    · exact hchars hv
  simp only [optionalForms, List.forall_mem_cons] at hoptional
  obtain ⟨hday, hhour, hminute, -⟩ := hoptional
  refine ⟨List.all_eq_true.1 hnames _ hkey, ?_⟩
  simp only [rruleKeys, List.map_cons, List.map_nil, List.mem_cons, List.not_mem_nil, or_false] at hkey
  obtain hk | hk | hk | hk | hk := hkey <;> rw [hk] at hvalue
  · rw [hget, Option.some.injEq] at hvalue
    exact List.all_eq_true.1 hfrequencies _ (hvalue ▸ hfreq)
  · rw [hvalue] at hform
    exact ruleChar_of_intervalForm hform
  · exact hempty ruleChar_of_daysForm (hday _ hvalue)
  · exact hempty ruleChar_of_hourForm (hhour _ hvalue)
  · exact hempty ruleChar_of_minuteForm (hminute _ hvalue)

theorem RuleOf.separate (h : RuleOf value rule) {e : Text × Text} (he : e ∈ rule.entries) :
    code '=' ∉ e.1 ∧ code '=' ∉ e.2 := by
  have hchar : ∀ {t : Text}, t.all TideBot.ruleChar → code '=' ∉ t := by
    intro t ht hmem
    exact absurd (List.all_eq_true.1 ht _ hmem) (by decide)
  obtain ⟨hname, hval⟩ := h.ruleChar he
  exact ⟨hchar hname, hchar hval⟩

theorem RuleOf.utf16Length (h : RuleOf value rule) : value.utf16Length = value.length := by
  have hsmall : ∀ {t : Text} {c : CodePoint}, t.all TideBot.ruleChar → c ∈ t → c.val < 0x10000 := by
    intro t c ht hc
    have := List.all_eq_true.1 ht c hc
    simp only [TideBot.ruleChar, Bool.and_eq_true, decide_eq_true_eq] at this
    omega
  refine Text.utf16Length_eq_length ?_
  intro c hc
  obtain rfl | ⟨item, hitem, hc⟩ := mem_splitOn (code ';') hc
  · decide
  · rw [h.items] at hitem
    obtain ⟨e, he, rfl⟩ := List.mem_map.1 hitem
    obtain ⟨hname, hval⟩ := h.ruleChar he
    rw [ruleItem, List.mem_append, List.mem_cons] at hc
    obtain hc | rfl | hc := hc
    · exact hsmall hname hc
    · decide
    · exact hsmall hval hc

/-! ## The two together -/

theorem RuleOf.ruleFields (h : RuleOf value rule) : ruleFields value = some rule :=
  ruleFields_eq_some.2 ⟨h.items, fun _ he => h.separate he⟩

/-- **What the extension accepts.** -/
theorem validateScheduleRRule_iff_ruleOf (hne : value ≠ []) (hlength : value.length ≤ 256) :
    validateScheduleRRule value ↔ ∃ rule, RuleOf value rule := by
  rw [validateScheduleRRule_iff]
  constructor
  · rintro ⟨-, rule, hrule, hshared, hoptional⟩
    exact ⟨rule, (ruleFields_eq_some.1 hrule).1, hshared, hoptional⟩
  · rintro ⟨rule, h⟩
    exact ⟨⟨hne, h.utf16Length.trans_le hlength⟩, rule, h.ruleFields, h.shared, h.optional⟩

/-- **What the server accepts.** -/
theorem validRrule_iff_ruleOf :
    validRrule value ↔ ∃ rule, RuleOf value rule ∧ ∀ o ∈ optionalForms, rule.get o.1 ≠ some [] := by
  rw [validRrule, Option.any_eq_true]
  constructor
  · rintro ⟨rule, hrule, hchecks⟩
    obtain ⟨hshared, hoptional⟩ := rruleChecks_iff.1 hchecks
    refine ⟨rule, ⟨(rruleFields_eq_some.1 hrule).1, hshared, fun o ho v hv => .inr (hoptional o ho v hv)⟩, ?_⟩
    intro o ho hget
    have hforms : ∀ o ∈ optionalForms, o.2 [] = false := by
      simp only [optionalForms, List.forall_mem_cons]
      decide +kernel
    exact absurd (hoptional o ho [] hget) (by simp [hforms o ho])
  · rintro ⟨rule, h, hfull⟩
    refine ⟨rule, rruleFields_eq_some.2 ⟨h.items, fun e he => (h.separate he).1⟩, rruleChecks_iff.2 ⟨h.shared, ?_⟩⟩
    intro o ho v hv
    obtain rfl | hform := h.optional o ho v hv
    · exact absurd hv (hfull o ho)
    · exact hform

/-- **Server and extension accept the same rules, but for rules with an empty field.** -/
theorem validRrule_eq_iff (hne : value ≠ []) (hlength : value.length ≤ 256) :
    validRrule value = validateScheduleRRule value ↔ ¬HasEmptyField value := by
  rw [Bool.eq_iff_iff, validRrule_iff_ruleOf, validateScheduleRRule_iff_ruleOf hne hlength]
  constructor
  · rintro h ⟨rule, hrule, o, ho, hget⟩
    obtain ⟨rule', hrule', hfull⟩ := h.2 ⟨rule, hrule⟩
    have heq : rule = rule' := Option.some.inj (hrule.ruleFields.symm.trans hrule'.ruleFields)
    exact hfull o ho (heq ▸ hget)
  · intro h
    constructor
    · rintro ⟨rule, hrule, -⟩
      exact ⟨rule, hrule⟩
    · rintro ⟨rule, hrule⟩
      exact ⟨rule, hrule, fun o ho hget => h ⟨rule, hrule, o, ho, hget⟩⟩

end

/-- A rule whose fields are all full. -/
theorem validRrule_eq_sample :
    (Text.lit "FREQ=DAILY;INTERVAL=2;BYHOUR=9" ≠ [] ∧ (Text.lit "FREQ=DAILY;INTERVAL=2;BYHOUR=9").length ≤ 256) ∧
      ¬HasEmptyField (.lit "FREQ=DAILY;INTERVAL=2;BYHOUR=9") :=
  have hne : Text.lit "FREQ=DAILY;INTERVAL=2;BYHOUR=9" ≠ [] := by decide +kernel
  have hlength : (Text.lit "FREQ=DAILY;INTERVAL=2;BYHOUR=9").length ≤ 256 := by decide +kernel
  ⟨⟨hne, hlength⟩, (validRrule_eq_iff hne hlength).1 (by decide +kernel)⟩

/-- The extension accepts a day list that is there and empty, the server does not. -/
theorem not_validRrule_eq : ¬∀ value : Text, value ≠ [] → value.length ≤ 256 →
    validRrule value = validateScheduleRRule value := by
  intro h
  exact absurd (h (.lit "FREQ=DAILY;BYDAY=") (by decide +kernel) (by decide +kernel)) (by decide +kernel)

end TideBot
