/-
  The days, the hour and the minute of a recurrence rule (`parseRule`, `nextOccurrence`).

  `parseRule` checks the fields BYDAY, BYHOUR and BYMINUTE and gives back the frequency and the interval, and
  `nextOccurrence` adds these up from the stored time; the time zone is checked as well, and not
  used.  So the fields hold of the next run by the increment and the shift of the zone alone, or not at
  all (`onRule_next_iff`).

  A time zone is given by its offset at each time, in nanoseconds.
-/
import TideBot.Extension.CatchUp
import TideBot.Lib.Week

namespace TideBot

open Lib

/-- The name of a day in a rule. -/
def dayName (d : ZMod 7) : Text := (["MO", "TU", "WE", "TH", "FR", "SA", "SU"].map Text.lit).getD d.val []

/-- The minutes since the epoch. -/
def minutes (t : ℤ) : ℤ := t / 60000000000

/-- A local time that the fields of a rule allow; a field that is empty is as good as absent. -/
structure OnRule (rule : Dict Text Text) (t : ℤ) : Prop where
  day : ∀ days ∈ rule.get (.lit "BYDAY"), days ≠ [] → dayName (weekday (minutes t)) ∈ days.splitOn (code ',')
  hour : ∀ hour ∈ rule.get (.lit "BYHOUR"), hour ≠ [] → minutes t / 60 % 24 = decimal hour
  minute : ∀ minute ∈ rule.get (.lit "BYMINUTE"), minute ≠ [] → minutes t % 60 = decimal minute

/-- The increment is whole weeks, days and hours, as far as the fields need it. -/
structure IncrementKeeps (rule : Dict Text Text) (increment : ℤ) : Prop where
  day : ∀ days ∈ rule.get (.lit "BYDAY"), days ≠ [] → (∃ d : ZMod 7, dayName d ∉ days.splitOn (code ',')) →
    7 * 24 * 60 * 60000000000 ∣ increment
  hour : ∀ hour ∈ rule.get (.lit "BYHOUR"), hour ≠ [] → 24 * 60 * 60000000000 ∣ increment
  minute : ∀ minute ∈ rule.get (.lit "BYMINUTE"), minute ≠ [] → 60 * 60000000000 ∣ increment

instance (rule : Dict Text Text) (t : ℤ) : Decidable (OnRule rule t) :=
  decidable_of_iff
    ((∀ days ∈ rule.get (.lit "BYDAY"), days ≠ [] → dayName (weekday (minutes t)) ∈ days.splitOn (code ',')) ∧
      (∀ hour ∈ rule.get (.lit "BYHOUR"), hour ≠ [] → minutes t / 60 % 24 = decimal hour) ∧
      ∀ minute ∈ rule.get (.lit "BYMINUTE"), minute ≠ [] → minutes t % 60 = decimal minute)
    ⟨fun h => ⟨h.1, h.2.1, h.2.2⟩, fun h => ⟨h.day, h.hour, h.minute⟩⟩

/-- The next time that is reported is one of the rule if the stored one is, in a time zone whose offset has shifted
    so far from the one to the other. -/
def NextOnRule (value : Text) (rule : Dict Text Text) (shift : ℤ) : Prop :=
  ∀ (s : ScheduleManager) (k : ℕ) (env : ScheduleEnv) (x : BrowserScheduleDefinition) (thrown : Option Text)
    (back : Option SyncPoint) (stored last next : ℤ) (offset : ℤ → ℤ), x.rrule = value →
    x.nextRunAt = some (stored : ℚ) → env.clock 0 = last →
    (s.complete k env x thrown back).2 = [.reported x.id (outcomeOf thrown) last next] →
    offset next = offset stored + shift → OnRule rule (stored + offset stored) → OnRule rule (next + offset next)

/-! ## The pattern of a rule -/

section

variable {t value : Text} {rule : Dict Text Text} {parsed : Rule} {increment : ℤ}

theorem decimal_lt_of_hourForm (h : hourForm t) : decimal t < 24 := by
  unfold hourForm at h
  split at h
  · simp only [digit, Bool.and_eq_true, decide_eq_true_eq] at h
    simp only [decimal, List.foldl_cons, List.foldl_nil]
    omega
  · rename_i c d
    simp only [digit, Bool.or_eq_true, Bool.and_eq_true, decide_eq_true_eq] at h
    have hone : (code '1').val = 49 := rfl
    have htwo : (code '2').val = 50 := rfl
    simp only [decimal, List.foldl_cons, List.foldl_nil]
    obtain ⟨rfl, hd⟩ | ⟨⟨rfl, hd⟩, hle⟩ := h <;> omega
  · cases h

theorem decimal_lt_of_minuteForm (h : minuteForm t) : decimal t < 60 := by
  unfold minuteForm at h
  split at h
  · simp only [digit, Bool.and_eq_true, decide_eq_true_eq] at h
    simp only [decimal, List.foldl_cons, List.foldl_nil]
    omega
  · simp only [digit, Bool.and_eq_true, decide_eq_true_eq] at h
    simp only [decimal, List.foldl_cons, List.foldl_nil]
    omega
  · cases h

theorem exists_number {o : Option Text} {form : Text → Bool} {bound : ℕ} (h : ∀ v ∈ o, v = [] ∨ form v)
    (hform : ∀ v, form v → decimal v < bound) : ∃ f : Option (Fin bound),
      (∀ i : ℤ, (∀ j ∈ f, i = j) ↔ ∀ v ∈ o, v ≠ [] → i = decimal v) ∧ (f.isSome ↔ ∃ v ∈ o, v ≠ []) := by
  cases o with
  | none => exact ⟨none, by simp, by simp⟩
  | some v =>
    by_cases hv : v = []
    · exact ⟨none, by simp [hv], by simp [hv]⟩
    · have hlt := hform v ((h v rfl).resolve_left hv)
      exact ⟨some ⟨decimal v, hlt⟩, by simp [hv], by simp [hv]⟩

theorem exists_dayName (h : daysForm t) : ∃ d : ZMod 7, dayName d ∈ t.splitOn (code ',') := by
  have hnames : ∀ name ∈ ["MO", "TU", "WE", "TH", "FR", "SA", "SU"].map Text.lit, ∃ d : ZMod 7, dayName d = name := by
    decide +kernel
  obtain ⟨name, hname⟩ := List.exists_mem_of_ne_nil _ (List.splitOn_ne_nil (code ',') t)
  rw [daysForm, List.all_eq_true] at h
  obtain ⟨d, rfl⟩ := hnames name (of_decide_eq_true (h name hname))
  exact ⟨d, hname⟩

/-- **The fields of a rule are a pattern of the week.** -/
theorem exists_pattern (hday : ∀ v ∈ rule.get (.lit "BYDAY"), v = [] ∨ daysForm v)
    (hhour : ∀ v ∈ rule.get (.lit "BYHOUR"), v = [] ∨ hourForm v)
    (hminute : ∀ v ∈ rule.get (.lit "BYMINUTE"), v = [] ∨ minuteForm v) :
    ∃ p : WeekPattern, (∀ t, OnRule rule t ↔ p.Matches (minutes t)) ∧
      ∀ n, IncrementKeeps rule (60000000000 * n) ↔ p.Fits n := by
  obtain ⟨hour, hhour, hhourSome⟩ := exists_number hhour fun _ => decimal_lt_of_hourForm
  obtain ⟨minute, hminute, hminuteSome⟩ := exists_number hminute fun _ => decimal_lt_of_minuteForm
  obtain ⟨days, hne, hmem, hall⟩ : ∃ days : Option (Finset (ZMod 7)), (∀ D ∈ days, D.Nonempty) ∧
      (∀ d, (∀ D ∈ days, d ∈ D) ↔ ∀ v ∈ rule.get (.lit "BYDAY"), v ≠ [] → dayName d ∈ v.splitOn (code ',')) ∧
      ∀ P : Prop, (∀ D ∈ days, D ≠ Finset.univ → P) ↔
        ∀ v ∈ rule.get (.lit "BYDAY"), v ≠ [] → (∃ d : ZMod 7, dayName d ∉ v.splitOn (code ',')) → P := by
    cases hget : rule.get (.lit "BYDAY") with
    | none => exact ⟨none, by simp, by simp, by simp⟩
    | some v =>
      by_cases hv : v = []
      · exact ⟨none, by simp, by simp [hv], by simp [hv]⟩
      · obtain ⟨d, hd⟩ := exists_dayName ((hday v hget).resolve_left hv)
        refine ⟨some (Finset.univ.filter fun d => dayName d ∈ v.splitOn (code ',')), ?_, by simp [hv], ?_⟩
        · rintro D ⟨⟩
          exact ⟨d, by simpa using hd⟩
        · intro P
          simp [hv, Finset.filter_eq_self]
  refine ⟨⟨days, hour, minute, hne⟩, ?_, ?_⟩
  · intro t
    constructor
    · intro h
      exact ⟨(hmem _).2 h.day, (hhour _).2 h.hour, (hminute _).2 h.minute⟩
    · intro h
      exact ⟨(hmem _).1 h.day, (hhour _).1 h.hour, (hminute _).1 h.minute⟩
  · intro n
    have hdvd : ∀ i : ℤ, i * 60000000000 ∣ 60000000000 * n ↔ i ∣ n := by
      intro i
      rw [mul_comm]
      exact mul_dvd_mul_iff_left (by norm_num)
    constructor
    · intro h
      refine ⟨(hall _).2 ?_, ?_, ?_⟩
      · intro v hv hvne hd
        exact (hdvd 10080).1 (h.day v hv hvne hd)
      · intro hsome
        obtain ⟨v, hv, hvne⟩ := hhourSome.1 hsome
        exact (hdvd 1440).1 (h.hour v hv hvne)
      · intro hsome
        obtain ⟨v, hv, hvne⟩ := hminuteSome.1 hsome
        exact (hdvd 60).1 (h.minute v hv hvne)
    · intro h
      refine ⟨?_, ?_, ?_⟩
      · intro v hv hvne hd
        exact (hdvd 10080).2 ((hall _).1 h.day v hv hvne hd)
      · intro v hv hvne
        exact (hdvd 1440).2 (h.hour (hhourSome.2 ⟨v, hv, hvne⟩))
      · intro v hv hvne
        exact (hdvd 60).2 (h.minute (hminuteSome.2 ⟨v, hv, hvne⟩))

theorem minutes_add (t n : ℤ) : minutes (t + 60000000000 * n) = minutes t + n := by
  unfold minutes
  omega

theorem IncrementKeeps.sub {a b : ℤ} (ha : IncrementKeeps rule a) (hb : IncrementKeeps rule b) :
    IncrementKeeps rule (a - b) where
  day days hdays hne hmissing := dvd_sub (ha.day days hdays hne hmissing) (hb.day days hdays hne hmissing)
  hour hour hhour hne := dvd_sub (ha.hour hour hhour hne) (hb.hour hour hhour hne)
  minute minute hminute hne := dvd_sub (ha.minute minute hminute hne) (hb.minute minute hminute hne)

theorem IncrementKeeps.add {a b : ℤ} (ha : IncrementKeeps rule a) (hb : IncrementKeeps rule b) :
    IncrementKeeps rule (a + b) where
  day days hdays hne hmissing := dvd_add (ha.day days hdays hne hmissing) (hb.day days hdays hne hmissing)
  hour hour hhour hne := dvd_add (ha.hour hour hhour hne) (hb.hour hour hhour hne)
  minute minute hminute hne := dvd_add (ha.minute minute hminute hne) (hb.minute minute hminute hne)

theorem IncrementKeeps.mul {a : ℤ} (ha : IncrementKeeps rule a) (i : ℤ) : IncrementKeeps rule (i * a) where
  day days hdays hne hmissing := (ha.day days hdays hne hmissing).mul_left i
  hour hour hhour hne := (ha.hour hour hhour hne).mul_left i
  minute minute hminute hne := (ha.minute minute hminute hne).mul_left i

theorem IncrementKeeps.of_one (h : IncrementKeeps rule 60000000000) (a : ℤ) : IncrementKeeps rule a where
  day days hdays hne hmissing := absurd (h.day days hdays hne hmissing) (by decide)
  hour hour hhour hne := absurd (h.hour hour hhour hne) (by decide)
  minute minute hminute hne := absurd (h.minute minute hminute hne) (by decide)

/-- **The steps that keep the fields of a rule**, in nanoseconds. -/
theorem onRule_add_iff {p : WeekPattern} (hp : ∀ t, OnRule rule t ↔ p.Matches (minutes t))
    (hfits : ∀ n, IncrementKeeps rule (60000000000 * n) ↔ p.Fits n) (step : ℤ) :
    (∀ t, OnRule rule t → OnRule rule (t + step)) ↔ IncrementKeeps rule step := by
  constructor
  · intro h
    -- from the first nanosecond of a minute, and from the last of which the step leads to the first of another
    have hfirst : p.Fits (step / 60000000000) := by
      refine WeekPattern.matches_add_iff.1 fun m hm => ?_
      have hon := (hp _).1 (h (60000000000 * m) ((hp _).2 (by unfold minutes; rwa [Int.mul_ediv_cancel_left _ (by decide)])))
      have hminutes : minutes (60000000000 * m + step) = m + step / 60000000000 := by
        unfold minutes
        omega
      rwa [hminutes] at hon
    by_cases hrest : step % 60000000000 = 0
    · have hsplit : step = 60000000000 * (step / 60000000000) := by omega
      rw [hsplit]
      exact (hfits _).2 hfirst
    · have hnext : p.Fits (step / 60000000000 + 1) := by
        refine WeekPattern.matches_add_iff.1 fun m hm => ?_
        have hstart : minutes (60000000000 * m + (60000000000 - step % 60000000000)) = m := by
          unfold minutes
          omega
        have hend : minutes (60000000000 * m + (60000000000 - step % 60000000000) + step) = m + (step / 60000000000 + 1) := by
          unfold minutes
          omega
        have hon := (hp _).1 (h _ ((hp _).2 (hstart.symm ▸ hm)))
        rwa [hend] at hon
      have hone := ((hfits _).2 hnext).sub ((hfits _).2 hfirst)
      refine IncrementKeeps.of_one ?_ step
      have hminute : 60000000000 * (step / 60000000000 + 1) - 60000000000 * (step / 60000000000) = 60000000000 := by ring
      rwa [hminute] at hone
  · intro h t ht
    by_cases hwhole : 60000000000 ∣ step
    · obtain ⟨n, rfl⟩ := hwhole
      rw [hp, minutes_add]
      exact ((hp t).1 ht).add ((hfits n).1 h)
    · -- a step that is not whole minutes keeps the fields if they ask for nothing
      refine ⟨fun days hdays hne => ?_, fun hour hhour hne => ?_, fun minute hminute hne => ?_⟩
      · by_contra hout
        exact hwhole ((by decide : (60000000000 : ℤ) ∣ 7 * 24 * 60 * 60000000000).trans (h.day days hdays hne ⟨_, hout⟩))
      · exact absurd ((by decide : (60000000000 : ℤ) ∣ 24 * 60 * 60000000000).trans (h.hour hour hhour hne)) hwhole
      · exact absurd ((by decide : (60000000000 : ℤ) ∣ 60 * 60000000000).trans (h.minute minute hminute hne)) hwhole

/-- What `parseRule` has checked, besides the frequency and the interval it gives back. -/
theorem parseRule_pattern (hparsed : parseRule value = some parsed) (hrule : ruleFields value = some rule) :
    ∃ p : WeekPattern, (∀ t, OnRule rule t ↔ p.Matches (minutes t)) ∧
      ∀ i : ℤ, IncrementKeeps rule (60000000000 * i) ↔ p.Fits i := by
  simp only [parseRule, bind, Option.bind_eq_some_iff, Option.guard_eq_some'] at hparsed
  obtain ⟨-, -, rule', hrule', -, -, -, -, -, -, -, -, -, hday, -, hhour, -, hminute, -⟩ := hparsed
  rw [hrule, Option.some.injEq] at hrule'
  subst hrule'
  exact exists_pattern hday hhour hminute

/-! ## The next run -/

/-- The next time, after a run that has ended some increments after the stored one. -/
theorem reported_after {x : BrowserScheduleDefinition} (hparsed : parseRule x.rrule = some parsed) {stored : ℤ}
    (hstored : x.nextRunAt = some (stored : ℚ)) (j : ℕ) :
    (ScheduleManager.initial.complete 0
        ⟨none, fun _ => ((stored + j * (parsed.frequency * parsed.interval) : ℤ) : ℚ)⟩ x none none).2 =
      [.reported x.id (outcomeOf none) ((stored + j * (parsed.frequency * parsed.interval) : ℤ) : ℚ)
        ((stored + (j + 1) * (parsed.frequency * parsed.interval) : ℤ) : ℚ)] := by
  have hrecurs : Recurs x := ⟨by rw [hparsed]; rfl, stored, hstored⟩
  obtain ⟨next, hnext, ⟨rule, hrule, z, hz, hleast, -⟩, -⟩ :=
    hrecurs.nextOccurrence (stored + j * (parsed.frequency * parsed.interval))
  rw [hparsed, Option.mem_some_iff] at hrule
  rw [hstored, Option.mem_some_iff] at hz
  subst hrule hz
  have hinc : (0 : ℚ) < parsed.frequency * parsed.interval := by exact_mod_cast parseRule_pos hparsed
  have hmax : max ((stored + j * (parsed.frequency * parsed.interval) : ℤ) : ℚ) stored =
      stored + j * (parsed.frequency * parsed.interval) := by
    push_cast
    exact max_eq_left (le_add_of_nonneg_right (mul_nonneg j.cast_nonneg hinc.le))
  rw [hmax] at hleast
  have hvalue : (next : ℚ) = ((stored + (j + 1) * (parsed.frequency * parsed.interval) : ℤ) : ℚ) := by
    refine hleast.unique ⟨⟨⟨j + 1, by push_cast; ring⟩, ?_⟩, ?_⟩
    · push_cast
      linarith
    · rintro t ⟨⟨i, rfl⟩, hlt⟩
      have hi : (j : ℚ) < i := by
        by_contra hle
        nlinarith
      have hi' : ((j : ℚ) + 1) ≤ i := by exact_mod_cast hi
      push_cast
      nlinarith
  rw [hvalue] at hnext
  exact congrArg Prod.snd (AllRecur.complete_eq rfl hnext none)

/-- **When the fields of a rule hold of the next run.** -/
theorem onRule_next_iff (hparsed : parseRule value = some parsed) (hrule : ruleFields value = some rule) (shift : ℤ) :
    NextOnRule value rule shift ↔
      IncrementKeeps rule (parsed.frequency * parsed.interval) ∧ IncrementKeeps rule shift := by
  obtain ⟨p, hp, hfits⟩ := parseRule_pattern hparsed hrule
  have hpos : (0 : ℤ) < parsed.frequency * parsed.interval := by exact_mod_cast parseRule_pos hparsed
  constructor
  · intro h
    -- runs that end at the stored time, or some increments later
    have hkeeps : ∀ j : ℕ, IncrementKeeps rule ((j + 1) * (parsed.frequency * parsed.interval) + shift) := by
      intro j
      refine (onRule_add_iff hp hfits _).1 fun t ht => ?_
      let x : BrowserScheduleDefinition := ⟨[], [], [], [], value, [], true, none, some ((t : ℤ) : ℚ)⟩
      have hne : t + (j + 1) * (parsed.frequency * parsed.interval) ≠ t := by
        have hjpos : (0 : ℤ) < (j + 1) * (parsed.frequency * parsed.interval) := mul_pos (by omega) hpos
        omega
      have hon := h _ _ _ x _ _ _ _ _ (fun u => if u = t then 0 else shift) rfl rfl rfl
        (reported_after (x := x) hparsed rfl j)
      rw [if_neg hne, if_pos rfl, zero_add, add_zero, add_assoc] at hon
      exact hon rfl ht
    have hone := hkeeps 0
    have htwo := hkeeps 1
    have hincrement := htwo.sub hone
    have hsplit : (((1 : ℕ) : ℤ) + 1) * (parsed.frequency * parsed.interval) + shift -
        ((((0 : ℕ) : ℤ) + 1) * (parsed.frequency * parsed.interval) + shift) = parsed.frequency * parsed.interval := by
      push_cast
      ring
    rw [hsplit] at hincrement
    have hshift := hone.sub hincrement
    have hrest : (((0 : ℕ) : ℤ) + 1) * (parsed.frequency * parsed.interval) + shift -
        parsed.frequency * parsed.interval = shift := by
      push_cast
      ring
    rw [hrest] at hshift
    exact ⟨hincrement, hshift⟩
  · rintro ⟨hincrement, hshift⟩ s k env x thrown back stored last next offset hx hstored hlast hreported hoffset hon
    have hrecurs : Recurs x := ⟨by rw [hx, hparsed]; rfl, stored, hstored⟩
    obtain ⟨next', hnext', ⟨rule', hrule', z, hz, hleast, -⟩, -⟩ := hrecurs.nextOccurrence last
    rw [AllRecur.complete_eq hlast hnext', List.cons.injEq, ScheduleNote.reported.injEq] at hreported
    obtain ⟨⟨-, -, -, hcast⟩, -⟩ := hreported
    have heq : next' = next := by exact_mod_cast hcast
    subst heq
    rw [hx, hparsed, Option.mem_some_iff] at hrule'
    rw [hstored, Option.mem_some_iff] at hz
    subst hrule' hz
    obtain ⟨⟨i, hi⟩, -⟩ := hleast.1
    have hsum : next' = stored + i * (parsed.frequency * parsed.interval) := by exact_mod_cast hi
    have hstep : next' + offset next' =
        stored + offset stored + (i * (parsed.frequency * parsed.interval) + shift) := by
      rw [hoffset, hsum]
      ring
    rw [hstep]
    exact (onRule_add_iff hp hfits _).2 ((hincrement.mul i).add hshift) _ hon

end

/-- At nine o'clock every second day, across an hour's shift. -/
theorem onRule_next_sample : ∃ parsed rule, parseRule (.lit "FREQ=DAILY;INTERVAL=2;BYHOUR=9") = some parsed ∧
    ruleFields (.lit "FREQ=DAILY;INTERVAL=2;BYHOUR=9") = some rule ∧
    (NextOnRule (.lit "FREQ=DAILY;INTERVAL=2;BYHOUR=9") rule 3600000000000 ↔
      IncrementKeeps rule (parsed.frequency * parsed.interval) ∧ IncrementKeeps rule 3600000000000) := by
  have hparsed : (parseRule (.lit "FREQ=DAILY;INTERVAL=2;BYHOUR=9")).isSome := by decide +kernel
  have hrule : (ruleFields (.lit "FREQ=DAILY;INTERVAL=2;BYHOUR=9")).isSome := by decide +kernel
  obtain ⟨parsed, hparsed⟩ := Option.isSome_iff_exists.1 hparsed
  obtain ⟨rule, hrule⟩ := Option.isSome_iff_exists.1 hrule
  exact ⟨parsed, rule, hparsed, hrule, onRule_next_iff hparsed hrule _⟩

namespace Sample

/-- A daily schedule, stored for four days after the epoch, a Monday, or some time later. -/
def dailyRule (rrule zone : String) (stored : ℤ) : BrowserScheduleDefinition :=
  ⟨.lit "s", .lit "w", .lit "d", .lit "Daily", .lit rrule, .lit zone, true, none, some (345600000000000 + stored : ℤ)⟩

end Sample

/-- After Monday the fifth a schedule for Mondays is run on Tuesday; and one for nine o'clock, which is eight o'clock
    in UTC, is run at ten o'clock when the clocks have been put forward. -/
theorem not_nextOnRule :
    (¬∀ value rule, validateScheduleRRule value → ruleFields value = some rule → NextOnRule value rule 0) ∧
    ¬∀ value rule, validateScheduleRRule value → ruleFields value = some rule →
      NextOnRule value rule 3600000000000 := by
  constructor
  · intro h
    have hrule : (ruleFields (.lit "FREQ=DAILY;BYDAY=MO")).isSome := by decide +kernel
    obtain ⟨rule, hrule⟩ := Option.isSome_iff_exists.1 hrule
    have hstored : ∀ r ∈ ruleFields (.lit "FREQ=DAILY;BYDAY=MO"),
        OnRule r (345600000000000 + 0) ∧ ¬OnRule r (432000000000000 + 0) := by
      decide +kernel
    have hreported : (ScheduleManager.initial.complete 0 ⟨none, fun _ => ((345600000000000 : ℤ) : ℚ)⟩
        (Sample.dailyRule "FREQ=DAILY;BYDAY=MO" "UTC" 0) none none).2 =
        [.reported (.lit "s") (outcomeOf none) ((345600000000000 : ℤ) : ℚ) ((432000000000000 : ℤ) : ℚ)] := by
      decide +kernel
    obtain ⟨hon, hoff⟩ := hstored rule hrule
    exact hoff (h _ rule (by decide +kernel) hrule _ _ _ _ _ _ _ _ _ (fun _ => 0) rfl rfl rfl hreported rfl hon)
  · intro h
    have hrule : (ruleFields (.lit "FREQ=DAILY;BYHOUR=9")).isSome := by decide +kernel
    obtain ⟨rule, hrule⟩ := Option.isSome_iff_exists.1 hrule
    have hstored : ∀ r ∈ ruleFields (.lit "FREQ=DAILY;BYHOUR=9"),
        OnRule r (374400000000000 + 3600000000000) ∧ ¬OnRule r (460800000000000 + 7200000000000) := by
      decide +kernel
    have hreported : (ScheduleManager.initial.complete 0 ⟨none, fun _ => ((374400000000000 : ℤ) : ℚ)⟩
        (Sample.dailyRule "FREQ=DAILY;BYHOUR=9" "Europe/Berlin" 28800000000000) none none).2 =
        [.reported (.lit "s") (outcomeOf none) ((374400000000000 : ℤ) : ℚ) ((460800000000000 : ℤ) : ℚ)] := by
      decide +kernel
    obtain ⟨hon, hoff⟩ := hstored rule hrule
    exact hoff (h _ rule (by decide +kernel) hrule _ _ _ _ _ _ _ _ _
      (fun t => if t < 460800000000000 then 3600000000000 else 7200000000000) rfl rfl rfl hreported rfl hon)

end TideBot
