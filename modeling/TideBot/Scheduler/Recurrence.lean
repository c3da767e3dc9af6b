/-
  Recurrence rules (`utils/automations.py`).

  `_parse_rule` starts the series of a SECONDLY, MINUTELY or HOURLY rule again shortly before `now`, on a grid
  that begins in 2000: if the rule has no DTSTART, and if there have been more than 100,000 times since
  its DTSTART.  What it then finds is the next time of the rule only if the start of the rule is on the grid,
  and if its COUNT is not reached (`parseRule_after_iff`).

  `dateutil` is outside: how it reads a text, and the next time of a rule, are parameters.  So is `str.upper`.
  Naive times are in microseconds since 2000-01-01 00:00.
-/
import TideBot.Lib.NextAfter
import TideBot.Lib.Text

namespace TideBot

open Lib

/-! ## Times -/

/-- `datetime.min` -/
def minDatetime : ℤ := -730119 * 86400000000

/-- `datetime.max` -/
def maxDatetime : ℤ := 2921940 * 86400000000 - 1

/-- A `datetime`; `none`: `OverflowError`. -/
def datetime? (t : ℤ) : Option ℤ := if minDatetime ≤ t ∧ t ≤ maxDatetime then some t else none

/-- `timedelta.max` -/
def maxTimedelta : ℤ := 1000000000 * 86400000000 - 1

/-- A `timedelta`; `none`: `OverflowError`. -/
def timedelta? (d : ℤ) : Option ℤ := if -999999999 * 86400000000 ≤ d ∧ d ≤ maxTimedelta then some d else none

/-! ## Rules -/

inductive Frequency where
  | yearly
  | monthly
  | weekly
  | daily
  | hourly
  | minutely
  | secondly
deriving DecidableEq

/-- A rule of `dateutil`, with the attributes that are read here. -/
structure RRule where
  freq : Frequency
  interval : ℤ
  count : Option ℤ
  dtstart : ℤ
  /-- `_dtstart.tzinfo` -/
  zoned : Bool
  byminute : List ℕ
  bysecond : List ℕ
  /-- what else is in it: the BY parts as they are written, and UNTIL -/
  parts : Text

/-- What `rrulestr` returns; of a set the dates stay outside. -/
inductive ParsedRule (σ : Type) where
  | rrule (rule : RRule)
  | rruleset (rules : List RRule) (dates : σ)

/-- `parsed._rrule if isinstance(parsed, rruleset) else [parsed]` -/
def ParsedRule.rules {σ : Type} : ParsedRule σ → List RRule
  | .rrule rule => [rule]
  | .rruleset rules _ => rules

/-- `dateutil`: `rrulestr(s, dtstart=…, ignoretz=True)`, where `none` is an exception, and `after` -/
structure Dateutil (σ : Type) where
  rrulestr : Text → Option ℤ → Option (ParsedRule σ)
  after : ParsedRule σ → ℤ → Option ℤ

/-! ## `_parse_rule` -/

/-- `part in text` -/
def hasPart (part text : Text) : Bool := text.tails.any fun t => part.isPrefixOf t

/-- The characters at which `str.splitlines` divides a text. -/
def isLineBreak (c : CodePoint) : Bool :=
  (0x0A ≤ c.val && c.val ≤ 0x0D) || (0x1C ≤ c.val && c.val ≤ 0x1E) || c.val = 0x85 || c.val = 0x2028 || c.val = 0x2029

/-- `s.splitlines()` after the part `line` of a line; `cr`: right after a carriage return -/
def splitLinesFrom (cr : Bool) (line : Text) : Text → List Text
  | [] => if line.isEmpty then [] else [line]
  | c :: rest =>
    if cr && c.val = 0x0A then splitLinesFrom false line rest
    else if isLineBreak c then line :: splitLinesFrom (c.val = 0x0D) [] rest
    else splitLinesFrom false (line ++ [c]) rest

/-- `s.splitlines()` -/
def splitLines (s : Text) : List Text := splitLinesFrom false [] s

section
variable {σ : Type} (D : Dateutil σ) (upper : Text → Text)

/-- `line.upper().startswith('DTSTART')` -/
def isDtstart (line : Text) : Bool := (Text.lit "DTSTART").isPrefixOf (upper line)

/-- `stripped` -/
def strippedRule (s : Text) : Text :=
  let kept := (Text.lit "\n").intercalate ((splitLines s).filter fun line => !isDtstart upper line)
  if kept.isEmpty then s else kept

/-- The dictionary of steps, at `rule._freq`; all of its values are computed. -/
def stepOf (rule : RRule) : Option (Option ℤ) := do
  let seconds ← timedelta? (rule.interval * 1000000)
  let minutes ← timedelta? (rule.interval * 60000000)
  let hours ← timedelta? (rule.interval * 3600000000)
  return match rule.freq with
    | .secondly => some seconds
    | .minutely => some minutes
    | .hourly => some hours
    | _ => none

/-- `epoch + ((anchor - epoch) // step) * step` -/
def alignedStart (step anchor : ℤ) : Option ℤ := do datetime? (← timedelta? (anchor / step * step))

/-- `_parse_rule`; `none`: it raises. -/
def Dateutil.parseRule (s : Text) (now : ℤ) : Option (ParsedRule σ) :=
  if hasPart (.lit "EXRULE") (upper s) then none
  else do
    let parsed ← D.rrulestr s none
    match parsed.rules with
    | [rule] =>
      let start := rule.dtstart
      let hasDtstart := (splitLines s).any (isDtstart upper)
      match ← stepOf rule with
      | none => if !rule.zoned then some parsed else D.rrulestr (strippedRule upper s) (some start)
      | some step =>
        if rule.interval < 1 then none
        else
          let emitted := (if start < now then (now - start) / step else 0) *
            (max 1 rule.byminute.length * max 1 rule.bysecond.length)
          if hasDtstart && emitted ≤ 100000 then
            if rule.zoned then D.rrulestr (strippedRule upper s) (some start) else some parsed
          else do D.rrulestr (strippedRule upper s) (some (← alignedStart step now))
    | _ => none

end

/-! ## Rules that come more than once a day -/

/-- The unit of a frequency below a day. -/
def Frequency.unit : Frequency → Option ℤ
  | .secondly => some 1000000
  | .minutely => some 60000000
  | .hourly => some 3600000000
  | _ => none

/-- A SECONDLY, MINUTELY or HOURLY rule, without BY parts. -/
structure SubDaily where
  freq : Frequency
  unit : ℤ
  unit_eq : freq.unit = some unit
  interval : ℤ
  one_le_interval : 1 ≤ interval
  count : Option ℤ
  dtstart : Option ℤ
  /-- a DTSTART has no fraction of a second -/
  dtstart_mem : ∀ t ∈ dtstart, 1000000 ∣ t ∧ minDatetime ≤ t ∧ t ≤ maxDatetime

def SubDaily.step (r : SubDaily) : ℤ := r.interval * r.unit

/-- The times that the rule stands for. -/
def SubDaily.times (r : SubDaily) : Set ℤ :=
  match r.dtstart with
  | some start => Series start r.step r.count maxDatetime
  | none => Grid 0 r.step (Set.Icc minDatetime maxDatetime)

/-- `rule` says what `r` says, except for its start. -/
structure SubDaily.IsRule (r : SubDaily) (rule : RRule) : Prop where
  freq : rule.freq = r.freq
  interval : rule.interval = r.interval
  count : rule.count = r.count
  parts : rule.parts = []
  byminute : rule.byminute.length ≤ 1
  bysecond : rule.bysecond.length ≤ 1

/-- `rrulestr` reads the text as the rule `r`: with the DTSTART of the text, or else with the start that it is
given. -/
structure ReadsRule {σ : Type} (D : Dateutil σ) (upper : Text → Text) (s : Text) (r : SubDaily) : Prop where
  noExrule : hasPart (.lit "EXRULE") (upper s) = false
  hasDtstart : (splitLines s).any (isDtstart upper) = r.dtstart.isSome
  parsed : ∃ rule, D.rrulestr s none = some (.rrule rule) ∧ r.IsRule rule ∧ ∀ t ∈ r.dtstart, rule.dtstart = t
  restarted : ∀ start, 1000000 ∣ start → ∃ rule, D.rrulestr (strippedRule upper s) (some start) = some (.rrule rule) ∧
    r.IsRule rule ∧ rule.dtstart = start ∧ rule.zoned = false

/-- `after` is the least time of the series later than `now`, up to `datetime.max`. -/
def AfterIsNext {σ : Type} (D : Dateutil σ) : Prop :=
  ∀ (rule : RRule) (unit now : ℤ), rule.freq.unit = some unit → 1 ≤ rule.interval → rule.parts = [] →
    rule.zoned = false →
    IsNext (Series rule.dtstart (rule.interval * unit) rule.count maxDatetime) now (D.after (.rrule rule) now)

/-- **When the next time is that of the rule.** -/
def SubDaily.Keeps (r : SubDaily) (now : ℤ) : Prop :=
  r.interval * 3600000000 ≤ maxTimedelta ∧
  match r.dtstart with
  | none => minDatetime ≤ now / r.step * r.step ∧ ((∀ c ∈ r.count, 2 ≤ c) ∨ maxDatetime < nextStep 0 r.step now)
  | some start => (now - start) / r.step ≤ 100000 ∨ (∃ c ∈ r.count, c ≤ 1) ∨
    if (∀ c ∈ r.count, (now - start) / r.step + 1 < c) ∧ nextStep start r.step now ≤ maxDatetime then r.step ∣ start
    else maxDatetime < nextStep 0 r.step now

section
variable {σ : Type} {D : Dateutil σ} {upper : Text → Text} {s : Text} {r : SubDaily} {rule : RRule}
variable {start step now last : ℤ} {count : Option ℤ}

theorem Frequency.unit_cases {freq : Frequency} {unit : ℤ} (h : freq.unit = some unit) :
    freq = .hourly ∧ unit = 3600000000 ∨ freq = .minutely ∧ unit = 60000000 ∨ freq = .secondly ∧ unit = 1000000 := by
  cases freq <;> simp_all [Frequency.unit]

theorem SubDaily.step_pos (r : SubDaily) : 0 < r.step := by
  have hone := r.one_le_interval
  rw [SubDaily.step]
  obtain ⟨-, h⟩ | ⟨-, h⟩ | ⟨-, h⟩ := Frequency.unit_cases r.unit_eq <;> rw [h] <;> omega

theorem SubDaily.second_dvd_step (r : SubDaily) : 1000000 ∣ r.step := by
  rw [SubDaily.step]
  obtain ⟨-, h⟩ | ⟨-, h⟩ | ⟨-, h⟩ := Frequency.unit_cases r.unit_eq <;> rw [h] <;> omega

theorem stepOf_eq (h : r.IsRule rule) :
    stepOf rule = if r.interval * 3600000000 ≤ maxTimedelta then some (some r.step) else none := by
  have hone := r.one_le_interval
  have hmax : maxTimedelta = 1000000000 * 86400000000 - 1 := rfl
  rw [stepOf, h.interval, h.freq]
  split_ifs with hfits
  · rw [timedelta?, timedelta?, timedelta?, if_pos (by omega), if_pos (by omega), if_pos (by omega)]
    rw [SubDaily.step]
    obtain ⟨h, h'⟩ | ⟨h, h'⟩ | ⟨h, h'⟩ := Frequency.unit_cases r.unit_eq <;> rw [h, h'] <;> rfl
  · rw [timedelta?, timedelta?, timedelta?, if_neg (show ¬ (_ ∧ r.interval * 3600000000 ≤ _) from fun h => hfits h.2)]
    split_ifs <;> rfl

theorem ediv_mul_le (now : ℤ) (hstep : 0 < step) : now / step * step ≤ now ∧ now < now / step * step + step := by
  have h₁ := Int.ediv_mul_le now hstep.ne'
  have h₂ := Int.lt_ediv_add_one_mul_self now hstep
  rw [Int.add_mul, Int.one_mul] at h₂
  exact ⟨h₁, h₂⟩

theorem nextStep_zero : nextStep 0 step now = now / step * step + step := by
  rw [nextStep, Int.sub_zero, Int.zero_add, Int.add_mul, Int.one_mul]

theorem alignedStart_eq (hstep : 0 < step) (hnow : now ≤ maxDatetime) : alignedStart step now =
    if minDatetime ≤ now / step * step then some (now / step * step) else none := by
  obtain ⟨hle, -⟩ := ediv_mul_le now hstep
  have hmin : minDatetime = -730119 * 86400000000 := rfl
  have hmax : maxDatetime = 2921940 * 86400000000 - 1 := rfl
  have hmax' : maxTimedelta = 1000000000 * 86400000000 - 1 := rfl
  rw [alignedStart, timedelta?]
  split_ifs with hfits hin hin
  · exact if_pos ⟨hin, by omega⟩
  · exact if_neg fun h => hin h.1
  · omega
  · rfl

theorem nextInSeries_aligned (hstep : 0 < step) : nextInSeries (now / step * step) step count last now =
    if (∀ c ∈ count, 2 ≤ c) ∧ nextStep 0 step now ≤ last then some (nextStep 0 step now) else none := by
  obtain ⟨hle, hlt⟩ := ediv_mul_le now hstep
  have hzero : (now - now / step * step) / step = 0 := Int.ediv_eq_zero_of_lt (by omega) (by omega)
  rw [nextInSeries, hzero, nextStep_zero]
  simp only [Int.zero_add, show max (0 : ℤ) 1 = 1 from rfl, Int.one_mul]
  rfl

theorem nextInSeries_started (h : 0 ≤ (now - start) / step) : nextInSeries start step count last now =
    if (∀ c ∈ count, (now - start) / step + 1 < c) ∧ nextStep start step now ≤ last then some (nextStep start step now)
    else none := by
  rw [nextInSeries, max_eq_right (by omega)]
  rfl

theorem nextStep_eq_iff (hstep : 0 < step) : nextStep 0 step now = nextStep start step now ↔ step ∣ start := by
  constructor
  · intro h
    rw [nextStep, nextStep] at h
    exact ⟨(now - 0) / step - (now - start) / step, by
      rw [Int.mul_sub, Int.mul_comm step, Int.mul_comm step]
      rw [Int.add_mul, Int.add_mul] at h
      omega⟩
  · rintro ⟨k, rfl⟩
    rw [nextStep, nextStep, Int.sub_mul_ediv_left _ _ hstep.ne', Int.mul_comm step k, Int.sub_zero]
    ring

/-! ## What `_parse_rule` finds -/

theorem ReadsRule.after_aligned (h : ReadsRule D upper s r) (hafter : AfterIsNext D) (hnow : now ≤ maxDatetime)
    (hmin : minDatetime ≤ now / r.step * r.step) :
    ∃ parsed, (alignedStart r.step now).bind (fun start => D.rrulestr (strippedRule upper s) (some start)) = some parsed ∧
      D.after parsed now =
        if (∀ c ∈ r.count, 2 ≤ c) ∧ nextStep 0 r.step now ≤ maxDatetime then some (nextStep 0 r.step now) else none := by
  obtain ⟨rule, hrule, his, hstart, hzoned⟩ := h.restarted (now / r.step * r.step) (r.second_dvd_step.mul_left _)
  refine ⟨.rrule rule, ?_, ?_⟩
  · rw [alignedStart_eq r.step_pos hnow, if_pos hmin]
    exact hrule
  · have hnext := hafter rule r.unit now (by rw [his.freq, r.unit_eq]) (by rw [his.interval]; exact r.one_le_interval)
      his.parts hzoned
    rw [hstart, his.interval, his.count] at hnext
    rw [hnext.unique (isNext_series r.step_pos)]
    exact nextInSeries_aligned r.step_pos

theorem after_kept (hafter : AfterIsNext D) (his : r.IsRule rule) (hstart : rule.dtstart = start)
    (hzoned : rule.zoned = false) :
    D.after (.rrule rule) now = nextInSeries start r.step r.count maxDatetime now := by
  have hnext := hafter rule r.unit now (by rw [his.freq, r.unit_eq]) (by rw [his.interval]; exact r.one_le_interval)
    his.parts hzoned
  rw [hstart, his.interval, his.count] at hnext
  exact hnext.unique (isNext_series r.step_pos)

theorem ReadsRule.parseRule_eq (h : ReadsRule D upper s r) (now : ℤ) : ∃ rule, D.rrulestr s none = some (.rrule rule) ∧
    r.IsRule rule ∧ (∀ t ∈ r.dtstart, rule.dtstart = t) ∧
    D.parseRule upper s now =
      if r.interval * 3600000000 ≤ maxTimedelta then
        if r.dtstart.isSome ∧ (now - rule.dtstart) / r.step ≤ 100000 then
          if rule.zoned then D.rrulestr (strippedRule upper s) (some rule.dtstart) else some (.rrule rule)
        else (alignedStart r.step now).bind fun start => D.rrulestr (strippedRule upper s) (some start)
      else none := by
  obtain ⟨rule, hparsed, his, hstart⟩ := h.parsed
  refine ⟨rule, hparsed, his, hstart, ?_⟩
  have hone := r.one_le_interval
  have hminute : max 1 rule.byminute.length = 1 := max_eq_left his.byminute
  have hsecond : max 1 rule.bysecond.length = 1 := max_eq_left his.bysecond
  have hemitted : (if rule.dtstart < now then (now - rule.dtstart) / r.step else 0) ≤ 100000 ↔
      (now - rule.dtstart) / r.step ≤ 100000 := by
    split_ifs with hstarted
    · rfl
    · have hneg : (now - rule.dtstart) / r.step ≤ 0 :=
        Int.ediv_le_of_le_mul r.step_pos (by omega)
      exact ⟨fun _ => by omega, fun _ => by omega⟩
  rw [Dateutil.parseRule, h.noExrule, hparsed]
  simp only [Bool.false_eq_true, if_false, Option.bind_eq_bind, Option.bind_some, ParsedRule.rules, stepOf_eq his,
    h.hasDtstart, hminute, hsecond, Nat.cast_one, mul_one]
  by_cases hfits : r.interval * 3600000000 ≤ maxTimedelta
  · simp only [if_pos hfits, Option.bind_some, if_neg (show ¬ rule.interval < 1 by rw [his.interval]; omega),
      Bool.and_eq_true, decide_eq_true_eq, hemitted]
  · rw [if_neg hfits, if_neg hfits, Option.bind_none]

theorem restarted_eq_iff {e a b : ℤ} (he : 1 ≤ e) :
    ((if (∀ c ∈ count, 2 ≤ c) ∧ a ≤ last then some a else none) =
      if (∀ c ∈ count, e + 1 < c) ∧ b ≤ last then some b else none) ↔
    (∃ c ∈ count, c ≤ 1) ∨ if (∀ c ∈ count, e + 1 < c) ∧ b ≤ last then a = b else last < a := by
  by_cases hover : ∃ c ∈ count, c ≤ 1
  · obtain ⟨c, hc, hle⟩ := hover
    rw [if_neg fun h => absurd (h.1 c hc) (by omega), if_neg fun h => absurd (h.1 c hc) (by omega)]
    exact ⟨fun _ => .inl ⟨c, hc, hle⟩, fun _ => rfl⟩
  · have htwo : ∀ c ∈ count, 2 ≤ c := by
      intro c hc
      by_contra hcon
      exact hover ⟨c, hc, by omega⟩
    simp only [hover, false_or, and_iff_right htwo]
    by_cases hleft : (∀ c ∈ count, e + 1 < c) ∧ b ≤ last
    · simp only [if_pos hleft]
      constructor
      · intro heq
        split_ifs at heq
        exact Option.some_inj.1 heq
      · rintro rfl
        rw [if_pos hleft.2]
    · simp only [if_neg hleft]
      constructor
      · intro heq
        split_ifs at heq with hlast
        exact not_le.1 hlast
      · intro hlast
        rw [if_neg (by omega)]

theorem keeps_iff_of_dtstart_none (hafter : AfterIsNext D) (h : ReadsRule D upper s r)
    (hnow : minDatetime ≤ now ∧ now ≤ maxDatetime) (hnone : r.dtstart = none) :
    (∃ parsed, D.parseRule upper s now = some parsed ∧ IsNext r.times now (D.after parsed now)) ↔ r.Keeps now := by
  obtain ⟨rule, -, -, -, hparse⟩ := h.parseRule_eq now
  have htimes : IsNext r.times now
      (if nextStep 0 r.step now ≤ maxDatetime then some (nextStep 0 r.step now) else none) := by
    rw [SubDaily.times, hnone]
    exact isNext_grid r.step_pos hnow.1
  rw [hparse, SubDaily.Keeps, hnone]
  simp only [Option.isSome_none, Bool.false_eq_true, false_and, if_false]
  by_cases hfits : r.interval * 3600000000 ≤ maxTimedelta
  · by_cases hmin : minDatetime ≤ now / r.step * r.step
    · obtain ⟨parsed, hparsed, hnext⟩ := h.after_aligned hafter hnow.2 hmin
      rw [if_pos hfits, hparsed]
      simp only [Option.some.injEq, hfits, hmin, true_and]
      constructor
      · rintro ⟨_, rfl, heq⟩
        have heq := heq.unique htimes
        rw [hnext] at heq
        by_cases hlast : nextStep 0 r.step now ≤ maxDatetime
        · rw [if_pos hlast] at heq
          refine .inl fun c hc => ?_
          by_contra hcon
          rw [if_neg fun h => hcon (h.1 c hc)] at heq
          cases heq
        · exact .inr (not_le.1 hlast)
      · intro hkeeps
        refine ⟨parsed, rfl, ?_⟩
        rw [hnext]
        convert htimes using 1
        obtain hcount | hlast := hkeeps
        · simp only [and_iff_right hcount]
        · rw [if_neg fun h => by omega, if_neg (by omega)]
    · rw [if_pos hfits, alignedStart_eq r.step_pos hnow.2, if_neg hmin]
      simp [hmin]
  · simp [hfits]

theorem keeps_iff_of_dtstart_some (hafter : AfterIsNext D) (h : ReadsRule D upper s r) (hnow : now ≤ maxDatetime)
    (hsome : r.dtstart = some start) :
    (∃ parsed, D.parseRule upper s now = some parsed ∧ IsNext r.times now (D.after parsed now)) ↔ r.Keeps now := by
  obtain ⟨rule, hrule, his, hstart, hparse⟩ := h.parseRule_eq now
  have hstart := hstart start hsome
  have htimes : IsNext r.times now (nextInSeries start r.step r.count maxDatetime now) := by
    rw [SubDaily.times, hsome]
    exact isNext_series r.step_pos
  rw [hparse, SubDaily.Keeps, hsome]
  simp only [Option.isSome_some, true_and, hstart]
  by_cases hfits : r.interval * 3600000000 ≤ maxTimedelta
  swap
  · simp [hfits]
  simp only [hfits, if_true, true_and]
  by_cases hfew : (now - start) / r.step ≤ 100000
  · -- the start is kept
    simp only [hfew, if_true, true_or, iff_true]
    by_cases hzoned : rule.zoned
    · obtain ⟨rule', hrule', his', hstart', hzoned'⟩ := h.restarted start (r.dtstart_mem start hsome).1
      rw [if_pos hzoned]
      refine ⟨_, hrule', ?_⟩
      rw [after_kept hafter his' hstart' hzoned']
      exact htimes
    · rw [if_neg hzoned]
      refine ⟨_, rfl, ?_⟩
      rw [after_kept hafter his hstart (by simpa using hzoned)]
      exact htimes
  · -- the series begins again on the grid
    have hstep := r.step_pos
    obtain ⟨-, hlt⟩ := ediv_mul_le now hstep
    have hmin : minDatetime ≤ now / r.step * r.step := by
      have hle := Int.ediv_mul_le (now - start) hstep.ne'
      have hmany : 100001 * r.step ≤ (now - start) / r.step * r.step :=
        Int.mul_le_mul_of_nonneg_right (by omega) hstep.le
      have := (r.dtstart_mem start hsome).2.1
      omega
    obtain ⟨parsed, hparsed, hnext⟩ := h.after_aligned hafter hnow hmin
    rw [if_neg hfew, hparsed]
    rw [nextInSeries_started (by omega)] at htimes
    simp only [Option.some.injEq, hfew, false_or]
    have hresult : (∃ p, parsed = p ∧ IsNext r.times now (D.after p now)) ↔
        (if (∀ c ∈ r.count, 2 ≤ c) ∧ nextStep 0 r.step now ≤ maxDatetime then some (nextStep 0 r.step now) else none) =
        if (∀ c ∈ r.count, (now - start) / r.step + 1 < c) ∧ nextStep start r.step now ≤ maxDatetime then
          some (nextStep start r.step now) else none := by
      constructor
      · rintro ⟨_, rfl, heq⟩
        rw [← hnext]
        exact heq.unique htimes
      · intro heq
        exact ⟨parsed, rfl, by rwa [hnext, heq]⟩
    rw [hresult, restarted_eq_iff (by omega), nextStep_eq_iff hstep]

/-- **The next time of a rule** is found exactly if the rule keeps its times. -/
theorem parseRule_after_iff (D : Dateutil σ) (upper : Text → Text) (s : Text) (r : SubDaily) (now : ℤ)
    (hafter : AfterIsNext D) (h : ReadsRule D upper s r) (hnow : minDatetime ≤ now ∧ now ≤ maxDatetime) :
    (∃ parsed, D.parseRule upper s now = some parsed ∧ IsNext r.times now (D.after parsed now)) ↔ r.Keeps now := by
  cases hstart : r.dtstart with
  | none => exact keeps_iff_of_dtstart_none hafter h hnow hstart
  | some start => exact keeps_iff_of_dtstart_some hafter h hnow.2 hstart

end

namespace Sample

def everySeven : SubDaily where
  freq := .minutely
  unit := 60000000
  unit_eq := rfl
  interval := 7
  one_le_interval := by decide
  count := none
  dtstart := some (9132 * 86400000000)
  dtstart_mem := by
    intro t ht
    obtain rfl := Option.some_inj.1 ht
    decide

def ruleLine : Text := .lit "RRULE:FREQ=MINUTELY;INTERVAL=7"

def everySevenText : Text := .lit "DTSTART:20250101T000000\nRRULE:FREQ=MINUTELY;INTERVAL=7"

def everySevenRule (start : ℤ) : RRule := ⟨.minutely, 7, none, start, false, [], [0], []⟩

def dateutil : Dateutil Unit where
  rrulestr s start :=
    if s = everySevenText then some (.rrule (everySevenRule (9132 * 86400000000)))
    else if s = ruleLine then some (.rrule (everySevenRule (start.getD 0)))
    else none
  after
    | .rrule rule, now => nextInSeries rule.dtstart (rule.interval * rule.freq.unit.getD 1) rule.count maxDatetime now
    | .rruleset _ _, _ => none

theorem afterIsNext_dateutil : AfterIsNext dateutil := by
  intro rule unit now hunit hinterval _ _
  show IsNext _ now (nextInSeries rule.dtstart (rule.interval * rule.freq.unit.getD 1) rule.count maxDatetime now)
  rw [hunit, Option.getD_some]
  refine isNext_series (Int.mul_pos (by omega) ?_)
  obtain ⟨-, h⟩ | ⟨-, h⟩ | ⟨-, h⟩ := Frequency.unit_cases hunit <;> omega

theorem everySeven_isRule (start : ℤ) : everySeven.IsRule (everySevenRule start) :=
  ⟨rfl, rfl, rfl, rfl, Nat.zero_le 1, le_rfl⟩

theorem readsRule_everySeven : ReadsRule dateutil id everySevenText everySeven where
  noExrule := by decide
  hasDtstart := by decide
  parsed := by
    refine ⟨everySevenRule (9132 * 86400000000), ?_, everySeven_isRule _, fun t ht => Option.some_inj.1 ht⟩
    simp [dateutil]
  restarted start _ := by
    have hstripped : strippedRule id everySevenText = ruleLine := by decide
    refine ⟨everySevenRule start, ?_, everySeven_isRule start, rfl, rfl⟩
    rw [hstripped]
    simp [dateutil, show ruleLine ≠ everySevenText by decide]

end Sample

theorem parseRule_after_iff_everySeven :
    (∃ parsed, Dateutil.parseRule Sample.dateutil id Sample.everySevenText (9133 * 86400000000) = some parsed ∧
        IsNext Sample.everySeven.times (9133 * 86400000000) (Sample.dateutil.after parsed (9133 * 86400000000))) ↔
      Sample.everySeven.Keeps (9133 * 86400000000) :=
  parseRule_after_iff Sample.dateutil id Sample.everySevenText Sample.everySeven (9133 * 86400000000)
    Sample.afterIsNext_dateutil Sample.readsRule_everySeven (by decide)

/-- Two years later, the times are no longer seven minutes apart from the first one. -/
theorem not_parseRule_after : ¬ ∀ (D : Dateutil Unit) (upper : Text → Text) (s : Text) (r : SubDaily) (now : ℤ),
    AfterIsNext D → ReadsRule D upper s r → minDatetime ≤ now ∧ now ≤ maxDatetime →
    ∃ parsed, D.parseRule upper s now = some parsed ∧ IsNext r.times now (D.after parsed now) := by
  intro h
  have hkeeps : Sample.everySeven.Keeps (9863 * 86400000000) :=
    (keeps_iff_of_dtstart_some Sample.afterIsNext_dateutil Sample.readsRule_everySeven (by decide) rfl).1
    (h Sample.dateutil id Sample.everySevenText Sample.everySeven (9863 * 86400000000)
      Sample.afterIsNext_dateutil Sample.readsRule_everySeven (by decide))
  obtain ⟨-, hfew | ⟨c, hc, -⟩ | haligned⟩ := hkeeps
  · exact absurd hfew (by decide)
  · cases hc
  · rw [if_pos ⟨by rintro c ⟨⟩, by decide⟩] at haligned
    exact absurd haligned (by decide)

end TideBot
