/-
  Catching up (`nextOccurrence`, `ScheduleManager.run`): what the extension reports at the end of a run, and
  the check of the report on the server (`ScheduleRunForm`).

  The loop of `nextOccurrence` leaves out the occurrences that were missed: it stops at the first one after
  the end of the run and after the stored one (`advance_isLeast`).  That holds of every run, since
  each schedule that a task runs was accepted by a sync, or is one that was brought forward
  (`AllRecur`).
-/
import TideBot.Extension.Occurrences
import TideBot.Workflow.Schedules

namespace TideBot

open Lib

/-! ## The check of a report -/

/-- An error of a form: the field, and the text. -/
structure FormError where
  field : Text
  message : Text
deriving DecidableEq

/-- `Field(ge=1)` -/
def atLeastOne (field : Text) (value : ℤ) : List FormError :=
  if 1 ≤ value then [] else [⟨field, .lit "Input should be greater than or equal to 1"⟩]

/-- `validate_next_run`; it is not asked about a value that has failed, and does not see one. -/
def validateNextRun (lastRunAt nextRunAt : ℤ) : List FormError :=
  if 1 ≤ nextRunAt ∧ 1 ≤ lastRunAt ∧ nextRunAt ≤ lastRunAt then
    [⟨.lit "next_run_at", .lit "Value error, Next run must follow the completed run"⟩]
  else []

/-- The fields of `ScheduleRunForm` are checked. -/
def ScheduleRunForm.validate (lastRunAt nextRunAt : ℤ) : Except (List FormError) ScheduleRunForm :=
  let errors := atLeastOne (.lit "last_run_at") lastRunAt ++ atLeastOne (.lit "next_run_at") nextRunAt ++
    validateNextRun lastRunAt nextRunAt
  if errors = [] then .ok ⟨lastRunAt, nextRunAt⟩ else .error errors

section

variable {lastRunAt nextRunAt : ℤ}

theorem ScheduleRunForm.validate_eq_ok_iff :
    ScheduleRunForm.validate lastRunAt nextRunAt = .ok ⟨lastRunAt, nextRunAt⟩ ↔
      1 ≤ lastRunAt ∧ lastRunAt < nextRunAt := by
  have hge : ∀ {field : Text} {value : ℤ}, atLeastOne field value = [] ↔ 1 ≤ value := by
    intro field value
    by_cases h : 1 ≤ value <;> simp [atLeastOne, h]
  have hnext : validateNextRun lastRunAt nextRunAt = [] ↔ ¬(1 ≤ nextRunAt ∧ 1 ≤ lastRunAt ∧ nextRunAt ≤ lastRunAt) := by
    by_cases h : 1 ≤ nextRunAt ∧ 1 ≤ lastRunAt ∧ nextRunAt ≤ lastRunAt <;> simp [validateNextRun, h]
  have hall : atLeastOne (.lit "last_run_at") lastRunAt ++ atLeastOne (.lit "next_run_at") nextRunAt ++
      validateNextRun lastRunAt nextRunAt = [] ↔ 1 ≤ lastRunAt ∧ lastRunAt < nextRunAt := by
    rw [List.append_eq_nil_iff, List.append_eq_nil_iff, hge, hge, hnext]
    omega
  rw [← hall, ScheduleRunForm.validate]
  generalize atLeastOne (.lit "last_run_at") lastRunAt ++ atLeastOne (.lit "next_run_at") nextRunAt ++
    validateNextRun lastRunAt nextRunAt = errors
  by_cases h : errors = [] <;> simp [h]

end

/-! ## The loop -/

section

variable {increment after next : ℚ} {n m : ℕ}

/-- **The loop stops at the first time after `after`.** -/
theorem advance_isLeast (hinc : 0 < increment) (h : after < next + n * increment) :
    IsLeast {t | (∃ i : ℕ, t = next + i * increment) ∧ after < t} (advance increment after n next) := by
  induction n generalizing next with
  | zero =>
    refine ⟨⟨⟨0, by simp [advance]⟩, lt_advance h⟩, ?_⟩
    rintro t ⟨⟨i, rfl⟩, -⟩
    have hi : 0 ≤ i * increment := by positivity
    simpa [advance] using hi
  | succ n ih =>
    rw [advance]
    by_cases hle : next ≤ after
    · rw [if_pos hle]
      have hstep : after < next + increment + n * increment := by
        push_cast at h
        linarith
      obtain ⟨⟨⟨i, hi⟩, hlt⟩, hleast⟩ := ih hstep
      refine ⟨⟨⟨i + 1, ?_⟩, hlt⟩, ?_⟩
      · rw [hi]
        push_cast
        ring
      · -- the time that is left out is not after `after`
        rintro t ⟨⟨j, rfl⟩, ht⟩
        cases j with
        | zero =>
          rw [Nat.cast_zero, zero_mul, add_zero] at ht
          exact absurd ht (not_lt.2 hle)
        | succ j =>
          refine hleast ⟨⟨j, ?_⟩, ht⟩
          push_cast
          ring
    · rw [if_neg hle]
      refine ⟨⟨⟨0, by simp⟩, not_le.1 hle⟩, ?_⟩
      rintro t ⟨⟨i, rfl⟩, -⟩
      have hi : 0 ≤ i * increment := by positivity
      linarith

theorem advance_of_le (h : after < next + n * increment) (hm : n ≤ m) :
    advance increment after m next = advance increment after n next := by
  induction n generalizing next m with
  | zero =>
    have hlt : ¬next ≤ after := by
      rw [Nat.cast_zero, zero_mul, add_zero] at h
      exact not_le.2 h
    cases m with
    | zero => rfl
    | succ m => simp only [advance, if_neg hlt]
  | succ n ih =>
    obtain ⟨m, rfl⟩ := Nat.exists_eq_add_of_le' (Nat.one_le_of_lt hm)
    rw [advance, advance]
    by_cases hle : next ≤ after
    · rw [if_pos hle, if_pos hle]
      refine ih ?_ (by omega)
      push_cast at h
      linarith
    · rw [if_neg hle, if_neg hle]

theorem lt_add_turns (hinc : 0 < increment) :
    after < next + ((⌊(after - next) / increment⌋.toNat + 1 : ℕ) : ℚ) * increment := by
  have hfloor := Int.lt_floor_add_one ((after - next) / increment)
  have htoNat : (⌊(after - next) / increment⌋ : ℚ) ≤ (⌊(after - next) / increment⌋.toNat : ℚ) := by
    exact_mod_cast Int.self_le_toNat _
  rw [div_lt_iff₀ hinc] at hfloor
  have hmul := mul_le_mul_of_nonneg_right htoNat hinc.le
  push_cast
  linarith

end

/-- The next time that is reported for a schedule that was run until `lastRunAt`: the loop ends, and gives
    the first of the times from the stored one on that is after both. -/
def CaughtUp (x : BrowserScheduleDefinition) (lastRunAt nextRunAt : ℚ) : Prop :=
  ∃ rule ∈ parseRule x.rrule, ∃ stored ∈ x.nextRunAt,
    IsLeast {t | (∃ i : ℕ, t = stored + i * (rule.frequency * rule.interval : ℚ)) ∧ max lastRunAt stored < t}
      nextRunAt ∧
    ∃ n, ∀ m ≥ n, advance (rule.frequency * rule.interval) (max lastRunAt stored) m stored = nextRunAt

/-- A schedule with a rule and a time. -/
def Recurs (x : BrowserScheduleDefinition) : Prop := (parseRule x.rrule).isSome ∧ ∃ z : ℤ, x.nextRunAt = some (z : ℚ)

/-- **What is reported for a schedule.** -/
theorem Recurs.nextOccurrence {x : BrowserScheduleDefinition} (h : Recurs x) (lastRunAt : ℤ) :
    ∃ next : ℤ, nextOccurrence x (max (lastRunAt : ℚ) (x.nextRunAt.getD lastRunAt)) = some (next : ℚ) ∧
      CaughtUp x lastRunAt next ∧ lastRunAt < next := by
  obtain ⟨hrule, z, hz⟩ := h
  obtain ⟨rule, hrule⟩ := Option.isSome_iff_exists.1 hrule
  have hinc : (0 : ℚ) < rule.frequency * rule.interval := by exact_mod_cast parseRule_pos hrule
  have hturns : max (lastRunAt : ℚ) z < z + ((⌊(max (lastRunAt : ℚ) z - z) /
      (rule.frequency * rule.interval : ℚ)⌋.toNat + 1 : ℕ) : ℚ) * (rule.frequency * rule.interval) := lt_add_turns hinc
  have hleast := advance_isLeast hinc hturns
  have hnext : TideBot.nextOccurrence x (max (lastRunAt : ℚ) (x.nextRunAt.getD lastRunAt)) =
      some (advance (rule.frequency * rule.interval) (max (lastRunAt : ℚ) z)
        (⌊(max (lastRunAt : ℚ) z - z) / (rule.frequency * rule.interval : ℚ)⌋.toNat + 1) z) := by
    simp [TideBot.nextOccurrence, hrule, hz]
  obtain ⟨i, hi⟩ := hleast.1.1
  have hint : advance (rule.frequency * rule.interval) (max (lastRunAt : ℚ) z)
      (⌊(max (lastRunAt : ℚ) z - z) / (rule.frequency * rule.interval : ℚ)⌋.toNat + 1) (z : ℚ) =
        ((z + i * (rule.frequency * rule.interval) : ℤ) : ℚ) := by
    rw [hi]
    push_cast
    ring
  rw [hint] at hnext hleast
  refine ⟨_, hnext, ⟨rule, hrule, z, hz, hleast,
    ⌊(max (lastRunAt : ℚ) z - z) / (rule.frequency * rule.interval : ℚ)⌋.toNat + 1, ?_⟩, ?_⟩
  · intro m hm
    exact (advance_of_le hturns hm).trans hint
  · exact_mod_cast (le_max_left _ _).trans_lt hleast.1.2

/-! ## The schedules of a run -/

/-- Times are whole numbers of nanoseconds. -/
def WholeTimes (values : List BrowserScheduleDefinition) : Prop :=
  ∀ x ∈ values, ∀ t ∈ x.nextRunAt, ∃ z : ℤ, t = z

def ScheduleEnv.Whole (env : ScheduleEnv) : Prop := ∀ n, ∃ z : ℤ, env.clock n = z

def ScheduleEvent.Whole : ScheduleEvent → Prop
  | .sync _ env values => env.Whole ∧ WholeTimes values
  | .alarm _ env _ | .resume _ env | .fetched _ env _ | .replayed _ env _ => env.Whole
  | .reject _ | .completed .. => True

/-- The work of a run has ended, with what it has thrown. -/
def ScheduleEvent.ended : ScheduleEvent → Option (ℕ × ScheduleEnv × Option Text)
  | .fetched k env (some code) => some (k, env, some code)
  | .replayed k env thrown => some (k, env, thrown)
  | _ => none

/-- The values that a sync goes on with have whole times. -/
def SyncPoint.Whole : SyncPoint → Prop
  | .entries _ _ values => WholeTimes values
  | .clearing .. => True

/-- A task runs a schedule that recurs, and is not stuck. -/
def ScheduleTask.Sound : ScheduleTask → Prop
  | .syncing point => point.Whole
  | .fetching x back | .replaying x back => Recurs x ∧ ∀ point ∈ back, point.Whole
  | .completing x _ nextRunAt back => Recurs x ∧ (∃ z : ℤ, nextRunAt = z) ∧ ∀ point ∈ back, point.Whole
  | .stuck _ => False
  | .finished => True

/-- All schedules recur: those in the maps, and those that are run. -/
structure AllRecur (s : ScheduleManager) : Prop where
  maps : ∀ map id x, (s.maps map).get id = some x → Recurs x
  tasks : ∀ k t, s.tasks k = some t → t.Sound

namespace AllRecur

variable {zones : Text → Bool} {s s' : ScheduleManager} {k map : ℕ} {env : ScheduleEnv} {t : ScheduleTask}
  {x : BrowserScheduleDefinition} {back : Option SyncPoint} {point : SyncPoint} {notes : List ScheduleNote}

theorem initial : AllRecur .initial where
  maps := by
    rintro map id x ⟨⟩
  tasks := by
    rintro k t ⟨⟩

theorem await (h : AllRecur s) (ht : t.Sound) : AllRecur (s.await k t) where
  maps := h.maps
  tasks j t' ht' := by
    simp only [ScheduleManager.await, Function.update_apply] at ht'
    split_ifs at ht' with hj
    · exact Option.some.inj ht' ▸ ht
    · exact h.tasks j t' ht'

theorem put (h : AllRecur s) (hx : Recurs x) : AllRecur (s.put map x).1 where
  maps j id y hy := by
    simp only [ScheduleManager.put, Function.update_apply] at hy
    split_ifs at hy with hj
    · subst hj
      rw [Dict.get_set] at hy
      split_ifs at hy
      · exact Option.some.inj hy ▸ hx
      · exact h.maps _ id y hy
    · exact h.maps j id y hy
  tasks := h.tasks

theorem install (h : AllRecur s) : AllRecur (s.install map).1 := ⟨h.maps, h.tasks⟩

theorem sound_afterRun (hback : ∀ point ∈ back, point.Whole) : (ScheduleManager.afterRun back).Sound := by
  cases back with
  | none => trivial
  | some point => exact hback point rfl

theorem run (h : AllRecur s) {id : Text} {alarm : Bool} (hback : ∀ point ∈ back, point.Whole) :
    AllRecur (s.run k env id alarm back).1 := by
  unfold ScheduleManager.run
  cases hx : s.held.get id with
  | none => exact h.await (sound_afterRun hback)
  | some x =>
    dsimp only
    split_ifs
    · exact h.await (sound_afterRun hback)
    · have hrecurs : Recurs x := h.maps s.schedules id x hx
      exact AllRecur.await (s := { s with running := id :: s.running }) ⟨h.maps, h.tasks⟩ ⟨hrecurs, hback⟩

theorem clearing (h : AllRecur s) {old index : ℕ} : AllRecur (s.clearing k map old index).1 := by
  unfold ScheduleManager.clearing
  split
  · exact h.await trivial
  · exact h.install.await trivial

theorem recurs_of_usable {device : Option Text} (h : ScheduleManager.usable zones device x)
    (hwhole : ∀ t ∈ x.nextRunAt, ∃ z : ℤ, t = z) : Recurs x := by
  simp only [ScheduleManager.usable, Bool.and_eq_true, validateScheduleRRule] at h
  obtain ⟨⟨⟨-, hrule⟩, -⟩, hsome⟩ := h
  obtain ⟨t, ht⟩ := Option.isSome_iff_exists.1 hsome
  obtain ⟨z, rfl⟩ := hwhole t ht
  exact ⟨hrule, z, ht⟩

/-- **The first loop of a sync.** -/
theorem entries {device : Option Text} {values : List BrowserScheduleDefinition} (hwhole : WholeTimes values) :
    ∀ {n : ℕ} {s : ScheduleManager}, AllRecur s →
      AllRecur (ScheduleManager.entries zones k env device map values n s).1 := by
  induction values with
  | nil =>
    intro n s h
    exact h.clearing
  | cons x values ih =>
    intro n s h
    obtain ⟨hx, hvalues⟩ := List.forall_mem_cons.1 hwhole
    rw [ScheduleManager.entries]
    by_cases husable : ScheduleManager.usable zones device x
    · have hrecurs := recurs_of_usable husable hx
      rw [husable, Bool.not_true, if_neg Bool.false_ne_true]
      dsimp only
      split_ifs
      · refine AllRecur.run (AllRecur.install ?_) ?_
        · exact ⟨(h.put hrecurs).maps, h.tasks⟩
        · rintro point ⟨⟩
          exact hvalues
      · exact ih hvalues (h.put hrecurs)
    · rw [Bool.not_eq_true] at husable
      rw [husable, Bool.not_false, if_pos rfl]
      exact h.await hvalues

theorem resume (h : AllRecur s) (hpoint : point.Whole) : AllRecur (s.resume zones k env point).1 := by
  cases point with
  | entries device map values => exact AllRecur.entries hpoint h
  | clearing map old index => exact h.clearing

theorem complete_eq {last next : ℤ} (hlast : env.clock 0 = last)
    (hnext : nextOccurrence x (max (last : ℚ) (x.nextRunAt.getD last)) = some (next : ℚ)) (thrown : Option Text) :
    s.complete k env x thrown back =
      (s.await k (.completing x last next back), [.reported x.id (outcomeOf thrown) last next]) := by
  simp only [ScheduleManager.complete, hlast, hnext]

/-- **The end of a run is reported.** -/
theorem complete (h : AllRecur s) (hx : Recurs x) (hback : ∀ point ∈ back, point.Whole) (hclock : env.Whole)
    (thrown : Option Text) : ∃ last next : ℤ, env.clock 0 = last ∧ CaughtUp x last next ∧ last < next ∧
      (s.complete k env x thrown back).2 = [.reported x.id (outcomeOf thrown) last next] ∧
      AllRecur (s.complete k env x thrown back).1 := by
  obtain ⟨last, hlast⟩ := hclock 0
  obtain ⟨next, hnext, hcaught, hlt⟩ := hx.nextOccurrence last
  refine ⟨last, next, hlast, hcaught, hlt, ?_⟩
  rw [complete_eq hlast hnext]
  exact ⟨rfl, h.await ⟨hx, ⟨next, rfl⟩, hback⟩⟩

/-- **Every step keeps it.** -/
theorem step (h : AllRecur s) {e : ScheduleEvent} (hwhole : e.Whole)
    (hstep : (scheduleManager zones).step s e = some (s', notes)) : AllRecur s' := by
  cases e with
  | sync k env values =>
    simp only [scheduleManager, ScheduleManager.step] at hstep
    split_ifs at hstep
    have hall : AllRecur { s with count := s.count + 1 } := ⟨h.maps, h.tasks⟩
    have hvalues : WholeTimes (values.take 500) := fun x hx => hwhole.2 x (List.mem_of_mem_take hx)
    have hdone : AllRecur (ScheduleManager.entries zones k env env.deviceId s.count (values.take 500) 0
        { s with count := s.count + 1 }).1 := AllRecur.entries hvalues hall
    rw [Option.some.inj hstep] at hdone
    exact hdone
  | alarm k env scheduleId =>
    simp only [scheduleManager, ScheduleManager.step] at hstep
    split_ifs at hstep
    have hdone : AllRecur (s.run k env scheduleId true none).1 := h.run (by simp)
    rw [Option.some.inj hstep] at hdone
    exact hdone
  | resume k env =>
    simp only [scheduleManager, ScheduleManager.step] at hstep
    split at hstep
    · rename_i point hk
      have hdone : AllRecur (s.resume zones k env point).1 := h.resume (h.tasks k (.syncing point) hk)
      rw [Option.some.inj hstep] at hdone
      exact hdone
    · cases hstep
  | reject k =>
    simp only [scheduleManager, ScheduleManager.step] at hstep
    split at hstep
    · cases hstep
      exact h.await trivial
    · cases hstep
  | fetched k env thrown =>
    simp only [scheduleManager, ScheduleManager.step] at hstep
    split at hstep
    · rename_i x back hk
      cases hstep
      exact h.await (h.tasks k (.fetching x back) hk)
    · rename_i x back code hk
      obtain ⟨hx, hback⟩ := h.tasks k _ hk
      obtain ⟨-, -, -, -, -, -, hdone⟩ := h.complete (k := k) hx hback hwhole (some code)
      rw [Option.some.inj hstep] at hdone
      exact hdone
    · cases hstep
  | replayed k env thrown =>
    simp only [scheduleManager, ScheduleManager.step] at hstep
    split at hstep
    · rename_i x back hk
      obtain ⟨hx, hback⟩ := h.tasks k _ hk
      obtain ⟨-, -, -, -, -, -, hdone⟩ := h.complete (k := k) hx hback hwhole thrown
      rw [Option.some.inj hstep] at hdone
      exact hdone
    · cases hstep
  | completed k ok =>
    simp only [scheduleManager, ScheduleManager.step] at hstep
    split at hstep
    · rename_i x last next back hk
      obtain ⟨hx, ⟨z, rfl⟩, hback⟩ := h.tasks k _ hk
      split_ifs at hstep <;> cases hstep
      · have hput : AllRecur (s.put s.schedules { x with lastRunAt := some last, nextRunAt := some (z : ℚ) }).1 :=
          h.put ⟨hx.1, z, rfl⟩
        exact AllRecur.await ⟨hput.maps, hput.tasks⟩ (sound_afterRun hback)
      · exact AllRecur.await ⟨h.maps, h.tasks⟩ trivial
    · cases hstep

theorem of_run {tr : List (ScheduleEvent × List ScheduleNote)} (h : (scheduleManager zones).Run .initial tr s)
    (hwhole : ∀ e ∈ tr, e.1.Whole) : AllRecur s := by
  refine h.traceInvariant (I := fun tr s => (∀ e ∈ tr, e.1.Whole) → AllRecur s) ?_ (fun _ => initial) hwhole
  intro tr s e s' notes _ ih hstep hall
  refine (ih fun e he => hall e (List.mem_append_left _ he)).step ?_ hstep
  exact hall (e, notes) (by simp)

end AllRecur

/-- **What a run reports.**  The loop ends, with the first time from the stored one on that is after the end
    of the run and the stored one; the server accepts the two times, if the clock has come to the first
    nanosecond. -/
theorem reported_caughtUp {zones : Text → Bool} {tr : List (ScheduleEvent × List ScheduleNote)}
    {s s' : ScheduleManager} {e : ScheduleEvent} {notes : List ScheduleNote} {k : ℕ} {env : ScheduleEnv}
    {thrown : Option Text} (hrun : (scheduleManager zones).Run .initial tr s) (hwhole : ∀ e ∈ tr, e.1.Whole)
    (hstep : (scheduleManager zones).step s e = some (s', notes)) (he : e.Whole)
    (hended : e.ended = some (k, env, thrown)) :
    ∃ x, (s.tasks k).bind ScheduleTask.running = some x ∧ ∃ last next : ℤ, env.clock 0 = last ∧
      notes = [.reported x.id (outcomeOf thrown) last next] ∧ CaughtUp x last next ∧ last < next ∧
      (ScheduleRunForm.validate last next = .ok ⟨last, next⟩ ↔ 1 ≤ last) := by
  have h := AllRecur.of_run hrun hwhole
  have key : ∀ {x back}, s.tasks k = some (.fetching x back) ∨ s.tasks k = some (.replaying x back) →
      some (s.complete k env x thrown back) = some (s', notes) → env.Whole →
      ∃ x, (s.tasks k).bind ScheduleTask.running = some x ∧ ∃ last next : ℤ, env.clock 0 = last ∧
        notes = [.reported x.id (outcomeOf thrown) last next] ∧ CaughtUp x last next ∧ last < next ∧
        (ScheduleRunForm.validate last next = .ok ⟨last, next⟩ ↔ 1 ≤ last) := by
    intro x back hk hcomplete hclock
    have hsound : Recurs x ∧ ∀ point ∈ back, point.Whole := by
      obtain hk | hk := hk
      · exact h.tasks k (.fetching x back) hk
      · exact h.tasks k (.replaying x back) hk
    obtain ⟨last, next, hlast, hcaught, hlt, hnotes, -⟩ := h.complete (k := k) hsound.1 hsound.2 hclock thrown
    rw [Option.some.inj hcomplete] at hnotes
    refine ⟨x, ?_, last, next, hlast, hnotes, hcaught, hlt, ?_⟩
    · obtain hk | hk := hk <;> rw [hk] <;> rfl
    · rw [ScheduleRunForm.validate_eq_ok_iff]
      exact and_iff_left hlt
  cases e with
  | fetched k' env' thrown' =>
    cases thrown' with
    | none => cases hended
    | some code =>
      cases hended
      simp only [scheduleManager, ScheduleManager.step] at hstep
      split at hstep
      · rename_i hnone
        cases hnone
      · rename_i x back code' hk hcode
        cases hcode
        exact key (.inl hk) hstep he
      · cases hstep
  | replayed k' env' thrown' =>
    cases hended
    simp only [scheduleManager, ScheduleManager.step] at hstep
    split at hstep
    · rename_i x back hk
      exact key (.inr hk) hstep he
    · cases hstep
  | sync | alarm | resume | reject | completed => cases hended

def Sample.alarmFired : List ScheduleEvent :=
  [.sync 0 (deviceAt 1000) [daily 2000], .alarm 1 (deviceAt 2000) (.lit "s"), .fetched 1 (deviceAt 2001) none]

theorem Sample.alarmFired_whole {tr : List (ScheduleEvent × List ScheduleNote)}
    (h : tr.map Prod.fst = alarmFired) : ∀ e ∈ tr, e.1.Whole := by
  have hclock : ∀ z : ℤ, (deviceAt z).Whole := fun z _ => ⟨z, rfl⟩
  have hall : ∀ e ∈ alarmFired, e.Whole := by
    have h1000 := hclock 1000
    have h2000 := hclock 2000
    have h2001 := hclock 2001
    push_cast at h1000 h2000 h2001
    simp only [alarmFired, List.forall_mem_cons, List.not_mem_nil, false_implies, implies_true, and_true]
    refine ⟨⟨h1000, ?_⟩, h2000, h2001⟩
    rintro x hx t ht
    rw [List.mem_singleton.1 hx] at ht
    cases ht
    exact ⟨2000, by norm_num⟩
  intro e he
  exact hall e.1 (h ▸ List.mem_map_of_mem he)

/-- The run ends two nanoseconds after its time, and the next one is a day after the stored time. -/
theorem reported_caughtUp_daily : ∃ tr s s' notes, (scheduleManager Sample.utc).Run .initial tr s ∧
    (scheduleManager Sample.utc).step s (.replayed 1 (Sample.deviceAt 2002) none) = some (s', notes) ∧
    ∃ x, (s.tasks 1).bind ScheduleTask.running = some x ∧ ∃ last next : ℤ, (2002 : ℚ) = last ∧
      notes = [.reported x.id (outcomeOf none) last next] ∧ CaughtUp x last next ∧ last < next ∧
      (ScheduleRunForm.validate last next = .ok ⟨last, next⟩ ↔ 1 ≤ last) := by
  obtain ⟨⟨tr, s⟩, hm, hsome⟩ : ∃ r ∈ (scheduleManager Sample.utc).exec (fun _ _ => True) .initial Sample.alarmFired,
      ((scheduleManager Sample.utc).step r.2 (.replayed 1 (Sample.deviceAt 2002) none)).isSome := by
    decide +kernel
  obtain ⟨⟨s', notes⟩, hstep⟩ := Option.isSome_iff_exists.1 hsome
  have hrun := Machine.runIn_of_exec hm
  have hwhole := Sample.alarmFired_whole (Machine.inputs_of_exec hm)
  refine ⟨tr, s, s', notes, hrun, hstep, ?_⟩
  exact reported_caughtUp hrun hwhole hstep (fun _ => ⟨2002, by norm_num [Sample.deviceAt]⟩) rfl

/-- A clock that is set back to the epoch: the server does not accept the report. -/
theorem not_reported_accepted : ¬∀ (zones : Text → Bool) (tr : List (ScheduleEvent × List ScheduleNote))
    (s s' : ScheduleManager) (e : ScheduleEvent) (notes : List ScheduleNote),
    (scheduleManager zones).Run .initial tr s → (∀ e ∈ tr, e.1.Whole) → e.Whole →
    (scheduleManager zones).step s e = some (s', notes) → ∀ id outcome, ∀ last next : ℤ,
      .reported id outcome last next ∈ notes → ScheduleRunForm.validate last next = .ok ⟨last, next⟩ := by
  intro h
  obtain ⟨⟨tr, s⟩, hm, r, hstep, hmem⟩ :
      ∃ r ∈ (scheduleManager Sample.utc).exec (fun _ _ => True) .initial Sample.alarmFired,
        ∃ r' ∈ (scheduleManager Sample.utc).step r.2 (.replayed 1 (Sample.deviceAt 0) none),
          ScheduleNote.reported (.lit "s") .complete ((0 : ℤ) : ℚ) ((86400000002000 : ℤ) : ℚ) ∈ r'.2 := by
    decide +kernel
  have hvalid := h Sample.utc tr s r.1 _ r.2 (Machine.runIn_of_exec hm)
    (Sample.alarmFired_whole (Machine.inputs_of_exec hm)) (fun _ => ⟨0, by norm_num [Sample.deviceAt]⟩) hstep _ _ 0 _ hmem
  rw [ScheduleRunForm.validate_eq_ok_iff] at hvalid
  omega

end TideBot
