/-
  The Chrome alarms of scheduled workflows (`background/schedules.ts`): one `sync`, from any state of the
  manager, while no other call goes on.

  `sync` goes through the list that the server has sent.  It sets an alarm for a schedule that is not due,
  and runs one that is; a run that is reported sets the next alarm, one whose report fails throws through
  `sync`.  At the end the alarms of the schedules that were held before, and are not in the list, are
  cleared; but the first run has already put the new map in the place of the old one.

  What a run reports is in `TideBot.Extension.Schedules`; the answers of the environment are given by the
  schedule they are about.
-/
import TideBot.Extension.Schedules

namespace TideBot

open Lib

/-- The manager, and its alarms by the id in their name. -/
structure AlarmedManager where
  schedules : Dict Text BrowserScheduleDefinition
  handledOccurrences : List Occurrence
  running : List Text
  alarms : Dict Text ℤ

/-- What the environment answers while a schedule is looked at. -/
structure SyncAnswers where
  /-- The clock, when it is asked whether the schedule is due, in nanoseconds. -/
  now : Text → ℚ
  /-- The device, when the schedule is run. -/
  deviceId : Text → Option Text
  /-- The clock after the run. -/
  lastRunAt : Text → ℚ
  /-- Does `completeScheduleRun` succeed? -/
  completed : Text → Bool

/-- `Math.ceil(time / NANOSECONDS_PER_MILLISECOND)` -/
def alarmTime (time : ℚ) : ℤ := ⌈time / 1000000⌉

namespace AlarmedManager

variable (m : AlarmedManager) (a : SyncAnswers)

/-- `alarms.create` -/
def create (id : Text) (time : ℚ) : AlarmedManager := { m with alarms := m.alarms.set id (alarmTime time) }

/-- `alarms.clear` -/
def clear (id : Text) : AlarmedManager := { m with alarms := m.alarms.erase id }

/-- `run`, for a sync; `false`: it has thrown. -/
def run (scheduleId : Text) : AlarmedManager × Bool :=
  match m.schedules.get scheduleId with
  | none => (m, true)
  | some x =>
    if scheduleId ∈ m.running ∨ !x.isActive ∨ some x.deviceId ≠ a.deviceId scheduleId then (m, true)
    else
      let lastRunAt := a.lastRunAt scheduleId
      match nextOccurrence x (max lastRunAt (x.nextRunAt.getD lastRunAt)) with
      -- it throws before the `try` whose `finally` takes the schedule out of `running`
      | none => ({ m with running := scheduleId :: m.running }, false)
      | some nextRunAt =>
        if a.completed scheduleId then
          let x := { x with lastRunAt := some lastRunAt, nextRunAt := some nextRunAt }
          (({ m with schedules := m.schedules.set x.id x }).create x.id nextRunAt, true)
        else (m, false)

/-- The second loop of `sync`, and what follows it. -/
def finish (nextSchedules : Dict Text BrowserScheduleDefinition) : AlarmedManager :=
  { m with
    alarms := (m.schedules.keys.filter fun id => id ∉ nextSchedules.keys).foldl Dict.erase m.alarms
    schedules := nextSchedules }

/-- `nextSchedules.set`, if `nextSchedules` is `this.schedules` already. -/
def place (installed : Bool) (nextSchedules : Dict Text BrowserScheduleDefinition) : AlarmedManager :=
  if installed then { m with schedules := nextSchedules } else m

/-- `handledOccurrences.add`, and `this.schedules = nextSchedules` -/
def install (p : Occurrence) (nextSchedules : Dict Text BrowserScheduleDefinition) : AlarmedManager :=
  { m with handledOccurrences := p :: m.handledOccurrences, schedules := nextSchedules }

/-- The first loop of `sync`, and what follows it; `installed`: the new map is `this.schedules`. -/
def entries (zones : Text → Bool) (device : Option Text) : List BrowserScheduleDefinition →
    Dict Text BrowserScheduleDefinition → Bool → AlarmedManager → AlarmedManager × Bool
  | [], nextSchedules, _, m => (m.finish nextSchedules, true)
  | x :: values, nextSchedules, installed, m =>
    if !ScheduleManager.usable zones device x then entries zones device values nextSchedules installed (m.clear x.id)
    else
      let nextSchedules := nextSchedules.set x.id x
      let m := m.place installed nextSchedules
      if x.nextRunAt.any (· ≤ a.now x.id) then
        if x.occurrence ∈ m.handledOccurrences then entries zones device values nextSchedules installed m
        else
          let ran := (m.install x.occurrence nextSchedules).run a x.id
          if ran.2 then entries zones device values ran.1.schedules true ran.1 else (ran.1, false)
      else entries zones device values nextSchedules installed (m.create x.id (x.nextRunAt.getD 0))

/-- `sync`; `false`: a run has thrown. -/
def sync (zones : Text → Bool) (device : Option Text) (values : List BrowserScheduleDefinition) :
    AlarmedManager × Bool := entries a zones device (values.take 500) .empty false m

/-! ## What becomes of a schedule -/

/-- `sync` runs the schedule, if it comes to it. -/
def attempts (x : BrowserScheduleDefinition) : Prop :=
  x.nextRunAt.any (· ≤ a.now x.id) ∧ x.occurrence ∉ m.handledOccurrences

/-- The run does something. -/
def starts (x : BrowserScheduleDefinition) : Prop :=
  m.attempts a x ∧ x.id ∉ m.running ∧ some x.deviceId = a.deviceId x.id

instance (x : BrowserScheduleDefinition) : Decidable (m.attempts a x) :=
  inferInstanceAs (Decidable (_ ∧ _))

instance (x : BrowserScheduleDefinition) : Decidable (m.starts a x) :=
  inferInstanceAs (Decidable (_ ∧ _))

/-- The report of the run fails. -/
def fails (x : BrowserScheduleDefinition) : Prop := m.starts a x ∧ ¬ a.completed x.id

instance (x : BrowserScheduleDefinition) : Decidable (m.fails a x) :=
  inferInstanceAs (Decidable (_ ∧ _))

/-- The alarm that `sync` sets for a schedule that it comes to. -/
def rearmed (x : BrowserScheduleDefinition) : Option ℤ :=
  if ¬ x.nextRunAt.any (· ≤ a.now x.id) then x.nextRunAt.map alarmTime
  else if m.starts a x ∧ a.completed x.id then
    (nextOccurrence x (max (a.lastRunAt x.id) (x.nextRunAt.getD (a.lastRunAt x.id)))).map alarmTime
  else none

end AlarmedManager

/-- **No schedule is disarmed**: at a time `now`, every schedule of the list that is usable has an alarm that is later,
    or is running, and every alarm is one of a schedule of the list. -/
def NoneDisarmed (zones : Text → Bool) (device : Option Text) (now : ℚ) (values : List BrowserScheduleDefinition)
    (m : AlarmedManager) : Prop :=
  (∀ x ∈ values, ScheduleManager.usable zones device x → x.id ∈ m.running ∨ ∃ t ∈ m.alarms.get x.id, now < t) ∧
    ∀ id ∈ m.alarms.keys, id ∈ values.map BrowserScheduleDefinition.id

instance (zones : Text → Bool) (device : Option Text) (now : ℚ) (values : List BrowserScheduleDefinition)
    (m : AlarmedManager) : Decidable (NoneDisarmed zones device now values m) :=
  inferInstanceAs (Decidable (_ ∧ _))

/-- **The condition on the state before, and on the answers.**  A schedule that no failed report keeps from being
    reached, and that is armed again or was armed before; and no run in a sync that has something to clear. -/
structure SyncRearms (zones : Text → Bool) (device : Option Text) (a : SyncAnswers) (now : ℚ)
    (values : List BrowserScheduleDefinition) (m : AlarmedManager) : Prop where
  armed : ∀ xs x ys, values = xs ++ x :: ys → ScheduleManager.usable zones device x → x.id ∈ m.running ∨
    ∃ t : ℤ, now < t ∧
    if ∃ y ∈ xs, ScheduleManager.usable zones device y ∧ m.fails a y then m.alarms.get x.id = some t
    else (m.rearmed a x).or (m.alarms.get x.id) = some t
  cleared : ∀ id ∈ m.alarms.keys, id ∉ values.map BrowserScheduleDefinition.id → id ∈ m.schedules.keys ∧
    ∀ x ∈ values, ScheduleManager.usable zones device x → ¬ m.attempts a x

/-! ## Runs -/

section
variable {zones : Text → Bool} {device : Option Text} {a : SyncAnswers} {m m' : AlarmedManager}
  {x y : BrowserScheduleDefinition} {values : List BrowserScheduleDefinition} {id : Text}

theorem usable_spec (h : ScheduleManager.usable zones device x) :
    x.isActive ∧ (parseRule x.rrule).isSome ∧ x.nextRunAt.isSome := by
  rw [ScheduleManager.usable, Bool.and_eq_true, Bool.and_eq_true, Bool.and_eq_true, Bool.and_eq_true] at h
  exact ⟨h.1.1.1.1, h.1.1.2, h.2⟩

theorem nextOccurrence_isSome (h : (parseRule x.rrule).isSome) (after : ℚ) : ∃ next, nextOccurrence x after = some next := by
  obtain ⟨rule, hrule⟩ := Option.isSome_iff_exists.1 h
  rw [nextOccurrence, hrule]
  exact ⟨_, rfl⟩

/-- **A run**: it does nothing, or it is reported, or its report fails. -/
theorem run_cases (hget : m.schedules.get x.id = some x) (husable : ScheduleManager.usable zones device x) :
    (¬ (x.id ∉ m.running ∧ some x.deviceId = a.deviceId x.id) ∧ m.run a x.id = (m, true)) ∨
    (x.id ∉ m.running ∧ some x.deviceId = a.deviceId x.id ∧ a.completed x.id ∧ ∃ next x',
      nextOccurrence x (max (a.lastRunAt x.id) (x.nextRunAt.getD (a.lastRunAt x.id))) = some next ∧
      m.run a x.id = (({ m with schedules := m.schedules.set x.id x' }).create x.id next, true)) ∨
    (x.id ∉ m.running ∧ some x.deviceId = a.deviceId x.id ∧ ¬ a.completed x.id ∧ m.run a x.id = (m, false)) := by
  obtain ⟨hactive, hrule, -⟩ := usable_spec husable
  obtain ⟨next, hnext⟩ := nextOccurrence_isSome hrule (max (a.lastRunAt x.id) (x.nextRunAt.getD (a.lastRunAt x.id)))
  have hrun : m.run a x.id = if x.id ∈ m.running ∨ !x.isActive ∨ some x.deviceId ≠ a.deviceId x.id then (m, true)
      else if a.completed x.id then
        (({ m with schedules := m.schedules.set x.id ({ x with
          lastRunAt := some (a.lastRunAt x.id), nextRunAt := some next }) }).create x.id next, true)
      else (m, false) := by
    rw [AlarmedManager.run, hget]
    dsimp only
    rw [hnext]
  by_cases hstart : x.id ∈ m.running ∨ !x.isActive ∨ some x.deviceId ≠ a.deviceId x.id
  · refine .inl ⟨?_, by rw [hrun, if_pos hstart]⟩
    rintro ⟨hrunning, hdevice⟩
    rcases hstart with h | h | h
    · exact hrunning h
    · rw [hactive] at h
      cases h
    · exact h hdevice
  · rw [if_neg hstart] at hrun
    have hrunning : x.id ∉ m.running := fun h => hstart (.inl h)
    have hdevice : some x.deviceId = a.deviceId x.id := not_not.1 fun h => hstart (.inr (.inr h))
    by_cases hcompleted : a.completed x.id
    · exact .inr (.inl ⟨hrunning, hdevice, hcompleted, next, _, hnext, by rw [hrun, if_pos hcompleted]⟩)
    · exact .inr (.inr ⟨hrunning, hdevice, hcompleted, by rw [hrun, if_neg hcompleted]⟩)

/-- What looking at one schedule leaves alone. -/
structure Looked (zones : Text → Bool) (device : Option Text) (a : SyncAnswers) (x : BrowserScheduleDefinition)
    (m : AlarmedManager) (next : Dict Text BrowserScheduleDefinition) (m' : AlarmedManager)
    (next' : Dict Text BrowserScheduleDefinition) (installed' : Bool) : Prop where
  running : m'.running = m.running
  handled : ∀ o, o ≠ x.occurrence → (o ∈ m'.handledOccurrences ↔ o ∈ m.handledOccurrences)
  alarms : ∀ id, id ≠ x.id → m'.alarms.get id = m.alarms.get id
  keys : ∀ id, id ≠ x.id → (id ∈ next'.keys ↔ id ∈ next.keys)
  listed : ScheduleManager.usable zones device x → x.id ∈ next'.keys
  aliased : installed' → m'.schedules = next'
  installed : ScheduleManager.usable zones device x → m.attempts a x → m'.schedules = next'
  held : ¬ (ScheduleManager.usable zones device x ∧ m.attempts a x) → ∀ id, id ≠ x.id →
    (id ∈ m'.schedules.keys ↔ id ∈ m.schedules.keys)

theorem mem_keys_set {d : Dict Text BrowserScheduleDefinition} {k : Text} (hne : id ≠ k) :
    id ∈ (d.set k x).keys ↔ id ∈ d.keys := by
  rw [Dict.mem_keys_iff, Dict.mem_keys_iff, Dict.get_set_of_ne _ hne]

theorem mem_keys_set_self {d : Dict Text BrowserScheduleDefinition} {k : Text} : k ∈ (d.set k x).keys :=
  Dict.mem_keys_iff.2 ⟨x, Dict.get_set_self _ _ _⟩

/-- **One schedule of the list**: the sync goes on, or the report of its run has failed. -/
theorem entries_cons (zones : Text → Bool) (device : Option Text) (a : SyncAnswers) (x : BrowserScheduleDefinition)
    (values : List BrowserScheduleDefinition) {next : Dict Text BrowserScheduleDefinition} {installed : Bool}
    (haliased : installed → m.schedules = next) :
    (∃ m' next' installed', Looked zones device a x m next m' next' installed' ∧
      ¬ (ScheduleManager.usable zones device x ∧ m.fails a x) ∧
      (ScheduleManager.usable zones device x → m'.alarms.get x.id = (m.rearmed a x).or (m.alarms.get x.id)) ∧
      AlarmedManager.entries a zones device (x :: values) next installed m =
        AlarmedManager.entries a zones device values next' installed' m') ∨
    ScheduleManager.usable zones device x ∧ m.fails a x ∧ ∃ m' next', Looked zones device a x m next m' next' true ∧
      m'.alarms = m.alarms ∧ AlarmedManager.entries a zones device (x :: values) next installed m = (m', false) := by
  by_cases husable : ScheduleManager.usable zones device x
  swap
  · refine .inl ⟨m.clear x.id, next, installed, ?_, fun h => husable h.1, fun h => absurd h husable, ?_⟩
    · exact ⟨rfl, fun _ _ => Iff.rfl, fun id hne => Dict.get_erase_of_ne _ hne, fun _ _ => Iff.rfl,
        fun h => absurd h husable, haliased, fun h => absurd h husable, fun _ _ _ => Iff.rfl⟩
    · rw [AlarmedManager.entries, if_pos (by simpa using husable)]
  have hentries : AlarmedManager.entries a zones device (x :: values) next installed m =
      if x.nextRunAt.any (· ≤ a.now x.id) then
        if x.occurrence ∈ (m.place installed (next.set x.id x)).handledOccurrences then
          AlarmedManager.entries a zones device values (next.set x.id x) installed (m.place installed (next.set x.id x))
        else
          let ran := ((m.place installed (next.set x.id x)).install x.occurrence (next.set x.id x)).run a x.id
          if ran.2 then AlarmedManager.entries a zones device values ran.1.schedules true ran.1 else (ran.1, false)
      else AlarmedManager.entries a zones device values (next.set x.id x) installed
        ((m.place installed (next.set x.id x)).create x.id (x.nextRunAt.getD 0)) := by
    rw [AlarmedManager.entries, if_neg (by simpa using husable)]
  -- the new map holds the schedule, and may be `this.schedules` already
  obtain ⟨m₁, hm₁, hrunning, hhandled, halarms, hsame, hheld⟩ : ∃ m₁ : AlarmedManager,
      m.place installed (next.set x.id x) = m₁ ∧ m₁.running = m.running ∧
        m₁.handledOccurrences = m.handledOccurrences ∧ m₁.alarms = m.alarms ∧
        (installed → m₁.schedules = next.set x.id x) ∧ ∀ id, id ≠ x.id → (id ∈ m₁.schedules.keys ↔ id ∈ m.schedules.keys) := by
    refine ⟨_, rfl, ?_⟩
    rw [AlarmedManager.place]
    split_ifs with h
    · refine ⟨rfl, rfl, rfl, fun _ => rfl, fun id hne => ?_⟩
      rw [haliased h]
      exact mem_keys_set hne
    · exact ⟨rfl, rfl, rfl, fun h' => absurd h' h, fun _ _ => Iff.rfl⟩
  rw [hm₁] at hentries
  by_cases hdue : x.nextRunAt.any (· ≤ a.now x.id)
  swap
  · -- an alarm is set
    rw [if_neg hdue] at hentries
    have hattempts : ¬ m.attempts a x := fun h => hdue h.1
    refine .inl ⟨_, _, installed, ?_, fun h => hattempts h.2.1.1, fun _ => ?_, hentries⟩
    · exact ⟨hrunning, fun o _ => by rw [← hhandled]; rfl,
        fun id hne => (Dict.get_set_of_ne _ hne).trans (by rw [halarms]), fun id hne => mem_keys_set hne,
        fun _ => mem_keys_set_self, hsame, fun _ h => absurd h hattempts, fun _ => hheld⟩
    · obtain ⟨-, -, hnext⟩ := usable_spec husable
      obtain ⟨t, ht⟩ := Option.isSome_iff_exists.1 hnext
      rw [AlarmedManager.rearmed, if_pos hdue, ht]
      exact Dict.get_set_self _ _ _
  rw [if_pos hdue, hhandled] at hentries
  by_cases hdone : x.occurrence ∈ m.handledOccurrences
  · -- the occurrence has been handled: nothing is done
    rw [if_pos hdone] at hentries
    have hattempts : ¬ m.attempts a x := fun h => h.2 hdone
    refine .inl ⟨_, _, installed, ?_, fun h => hattempts h.2.1.1, fun _ => ?_, hentries⟩
    · exact ⟨hrunning, fun o _ => by rw [hhandled], fun id _ => by rw [halarms], fun id hne => mem_keys_set hne,
        fun _ => mem_keys_set_self, hsame, fun _ h => absurd h hattempts, fun _ => hheld⟩
    · rw [AlarmedManager.rearmed, if_neg (not_not.2 hdue), if_neg (fun h => hattempts h.1.1), Option.none_or, halarms]
  -- the schedule is run
  rw [if_neg hdone] at hentries
  have hattempts : m.attempts a x := ⟨hdue, hdone⟩
  have hinstalled : ∀ o, o ≠ x.occurrence →
      (o ∈ (m₁.install x.occurrence (next.set x.id x)).handledOccurrences ↔ o ∈ m.handledOccurrences) := by
    intro o ho
    rw [AlarmedManager.install, hhandled, List.mem_cons, or_iff_right ho]
  have hget : (m₁.install x.occurrence (next.set x.id x)).schedules.get x.id = some x := Dict.get_set_self _ _ _
  rcases run_cases (a := a) hget husable with ⟨hnot, hrun⟩ | ⟨hrunning', hdevice, hcompleted, t, x', ht, hrun⟩ |
    ⟨hrunning', hdevice, hcompleted, hrun⟩
  · rw [hrun] at hentries
    have hstarts : ¬ m.starts a x := fun h => hnot (hrunning ▸ h.2)
    refine .inl ⟨_, _, true, ?_, fun h => hstarts h.2.1, fun _ => ?_, hentries⟩
    · exact ⟨hrunning, hinstalled, fun id _ => by rw [← halarms]; rfl, fun id hne => mem_keys_set hne,
        fun _ => mem_keys_set_self, fun _ => rfl, fun _ _ => rfl, fun h => absurd ⟨husable, hattempts⟩ h⟩
    · rw [AlarmedManager.rearmed, if_neg (not_not.2 hdue), if_neg (fun h => hstarts h.1), Option.none_or, ← halarms]
      rfl
  · rw [hrun] at hentries
    have hstarts : m.starts a x := ⟨hattempts, hrunning ▸ hrunning', hdevice⟩
    refine .inl ⟨_, _, true, ?_, fun h => h.2.2 hcompleted, fun _ => ?_, hentries⟩
    · refine ⟨hrunning, hinstalled, fun id hne => (Dict.get_set_of_ne _ hne).trans (by rw [← halarms]; rfl),
        fun id hne => (mem_keys_set hne).trans (mem_keys_set hne), fun _ => mem_keys_set_self, fun _ => rfl,
        fun _ _ => rfl, fun h => absurd ⟨husable, hattempts⟩ h⟩
    · rw [AlarmedManager.rearmed, if_neg (not_not.2 hdue), if_pos ⟨hstarts, hcompleted⟩, ht]
      exact Dict.get_set_self _ _ _
  · rw [hrun] at hentries
    have hstarts : m.starts a x := ⟨hattempts, hrunning ▸ hrunning', hdevice⟩
    refine .inr ⟨husable, ⟨hstarts, hcompleted⟩, m₁.install x.occurrence (next.set x.id x), next.set x.id x, ?_, halarms, hentries⟩
    exact ⟨hrunning, hinstalled, fun id _ => by rw [← halarms]; rfl, fun id hne => mem_keys_set hne,
      fun _ => mem_keys_set_self, fun _ => rfl, fun _ _ => rfl, fun h => absurd ⟨husable, hattempts⟩ h⟩

theorem Looked.attempts_iff {next next' : Dict Text BrowserScheduleDefinition} {installed' : Bool}
    (h : Looked zones device a x m next m' next' installed') (hne : y.id ≠ x.id) :
    m'.attempts a y ↔ m.attempts a y := by
  have hocc : y.occurrence ≠ x.occurrence := fun heq => hne (congrArg Prod.fst heq)
  rw [AlarmedManager.attempts, AlarmedManager.attempts, h.handled _ hocc]

theorem Looked.starts_iff {next next' : Dict Text BrowserScheduleDefinition} {installed' : Bool}
    (h : Looked zones device a x m next m' next' installed') (hne : y.id ≠ x.id) :
    m'.starts a y ↔ m.starts a y := by
  rw [AlarmedManager.starts, AlarmedManager.starts, h.attempts_iff hne, h.running]

theorem Looked.rearmed_eq {next next' : Dict Text BrowserScheduleDefinition} {installed' : Bool}
    (h : Looked zones device a x m next m' next' installed') (hne : y.id ≠ x.id) :
    m'.rearmed a y = m.rearmed a y := by
  simp only [AlarmedManager.rearmed, h.starts_iff hne]

theorem running_entries {next : Dict Text BrowserScheduleDefinition} {installed : Bool}
    (haliased : installed → m.schedules = next) :
    (AlarmedManager.entries a zones device values next installed m).1.running = m.running := by
  induction values generalizing m next installed with
  | nil => rfl
  | cons x values ih =>
    rcases entries_cons zones device a x values haliased with ⟨m', next', installed', h, -, -, heq⟩ | ⟨-, -, m', next', h, -, heq⟩
    · rw [heq, ih h.aliased, h.running]
    · rw [heq, h.running]

/-- **The alarms of schedules that are not in the list**: cleared at the end, if nothing has been run. -/
theorem alarms_entries_of_notMem {next : Dict Text BrowserScheduleDefinition} {installed : Bool}
    (haliased : installed → m.schedules = next) (hnd : (values.map BrowserScheduleDefinition.id).Nodup)
    (hid : id ∉ values.map BrowserScheduleDefinition.id) :
    (AlarmedManager.entries a zones device values next installed m).1.alarms.get id =
      if id ∈ next.keys ∨ id ∉ m.schedules.keys ∨
          ∃ x ∈ values, ScheduleManager.usable zones device x ∧ m.attempts a x then m.alarms.get id
      else none := by
  induction values generalizing m next installed with
  | nil =>
    rw [AlarmedManager.entries, AlarmedManager.finish, Dict.get_foldl_erase]
    by_cases hnext : id ∈ next.keys
    · simp [hnext]
    · by_cases hheld : id ∈ m.schedules.keys <;> simp [hnext, hheld]
  | cons x values ih =>
    rw [List.map_cons, List.mem_cons, not_or] at hid
    rw [List.map_cons, List.nodup_cons] at hnd
    obtain ⟨hne, hid⟩ := hid
    by_cases hattempts : ScheduleManager.usable zones device x ∧ m.attempts a x
    · -- the maps are the same from here on, so that nothing is cleared
      rw [if_pos (.inr (.inr ⟨x, List.mem_cons_self, hattempts⟩))]
      rcases entries_cons zones device a x values haliased with
        ⟨m', next', installed', h, -, -, heq⟩ | ⟨-, -, m', next', h, -, heq⟩
      · rw [heq, ih h.aliased hnd.2 hid, h.installed hattempts.1 hattempts.2, h.alarms id hne]
        split_ifs with hcond
        · rfl
        · exact absurd (or_not (p := id ∈ next'.keys)) fun hor => hcond (hor.imp_right .inl)
      · rw [heq, h.alarms id hne]
    · rcases entries_cons zones device a x values haliased with
        ⟨m', next', installed', h, -, -, heq⟩ | ⟨husable, hfails, -⟩
      · have hrest : (∃ y ∈ values, ScheduleManager.usable zones device y ∧ m'.attempts a y) ↔
            ∃ y ∈ x :: values, ScheduleManager.usable zones device y ∧ m.attempts a y := by
          rw [List.exists_mem_cons_iff, or_iff_right hattempts]
          refine exists_congr fun y => and_congr_right fun hy => and_congr_right fun _ => h.attempts_iff ?_
          exact fun heq => hnd.1 (heq ▸ List.mem_map_of_mem hy)
        rw [heq, ih h.aliased hnd.2 hid, h.alarms id hne]
        exact if_congr (or_congr (h.keys id hne) (or_congr (not_congr (h.held hattempts id hne)) hrest)) rfl rfl
      · exact absurd ⟨husable, hfails.1.1⟩ hattempts

/-- **The alarm of a schedule of the list** that is usable. -/
theorem alarms_entries {xs ys : List BrowserScheduleDefinition} {next : Dict Text BrowserScheduleDefinition}
    {installed : Bool} (haliased : installed → m.schedules = next)
    (hnd : ((xs ++ x :: ys).map BrowserScheduleDefinition.id).Nodup) (husable : ScheduleManager.usable zones device x) :
    (AlarmedManager.entries a zones device (xs ++ x :: ys) next installed m).1.alarms.get x.id =
      if ∃ y ∈ xs, ScheduleManager.usable zones device y ∧ m.fails a y then m.alarms.get x.id
      else (m.rearmed a x).or (m.alarms.get x.id) := by
  induction xs generalizing m next installed with
  | nil =>
    rw [List.nil_append, List.map_cons, List.nodup_cons] at hnd
    rw [List.nil_append, if_neg (by simp)]
    rcases entries_cons zones device a x ys haliased with
      ⟨m', next', installed', h, -, halarm, heq⟩ | ⟨-, hfails, m', next', h, halarms, heq⟩
    · rw [heq, alarms_entries_of_notMem h.aliased hnd.2 hnd.1, if_pos (.inl (h.listed husable)), halarm husable]
    · have hnone : m.rearmed a x = none := by
        rw [AlarmedManager.rearmed, if_neg (not_not.2 hfails.1.1.1), if_neg fun h => hfails.2 h.2]
      rw [heq, halarms, hnone, Option.none_or]
  | cons y xs ih =>
    rw [List.cons_append, List.map_cons, List.nodup_cons] at hnd
    rw [List.cons_append]
    have hne : x.id ≠ y.id := fun heq => hnd.1 (by rw [← heq]; simp)
    rcases entries_cons zones device a y (xs ++ x :: ys) haliased with
      ⟨m', next', installed', h, hnot, -, heq⟩ | ⟨husable', hfails, m', next', h, halarms, heq⟩
    · have hrest : (∃ z ∈ xs, ScheduleManager.usable zones device z ∧ m'.fails a z) ↔
          ∃ z ∈ y :: xs, ScheduleManager.usable zones device z ∧ m.fails a z := by
        rw [List.exists_mem_cons_iff, or_iff_right hnot]
        refine exists_congr fun z => and_congr_right fun hz => and_congr_right fun _ => and_congr_left fun _ =>
          h.starts_iff ?_
        exact fun heq => hnd.1 (by rw [← heq]; exact List.mem_map_of_mem (List.mem_append_left _ hz))
      rw [heq, ih h.aliased hnd.2, h.alarms _ hne, h.rearmed_eq hne]
      exact if_congr hrest rfl rfl
    · rw [heq, halarms, if_pos ⟨y, List.mem_cons_self, husable', hfails⟩]

/-- **A sync leaves no schedule disarmed exactly under the condition.** -/
theorem noneDisarmed_sync_iff {now : ℚ} (hlength : values.length ≤ 500)
    (hnd : (values.map BrowserScheduleDefinition.id).Nodup) :
    NoneDisarmed zones device now values (m.sync a zones device values).1 ↔ SyncRearms zones device a now values m := by
  have hstart : (false : Bool) = true → m.schedules = .empty := by rintro ⟨⟩
  rw [AlarmedManager.sync, List.take_of_length_le hlength, NoneDisarmed, running_entries hstart]
  have hkeys : ∀ id, id ∉ values.map BrowserScheduleDefinition.id →
      (id ∉ (AlarmedManager.entries a zones device values .empty false m).1.alarms.keys ↔
        (id ∈ m.alarms.keys → id ∈ m.schedules.keys ∧
          ∀ x ∈ values, ScheduleManager.usable zones device x → ¬ m.attempts a x)) := by
    intro id hid
    rw [← Dict.get_eq_none_iff, alarms_entries_of_notMem hstart hnd hid]
    split_ifs with hkept
    · rw [Dict.get_eq_none_iff]
      refine ⟨fun hnone hin => absurd hin hnone, fun hcleared hin => ?_⟩
      obtain ⟨hheld, hnever⟩ := hcleared hin
      rcases hkept with hnew | hnot | ⟨x, hx, husable, hattempts⟩
      · cases hnew
      · exact hnot hheld
      · exact hnever x hx husable hattempts
    · rw [not_or, not_or, not_not] at hkept
      exact iff_of_true rfl fun _ => ⟨hkept.2.1, fun x hx husable hattempts => hkept.2.2 ⟨x, hx, husable, hattempts⟩⟩
  constructor
  · rintro ⟨harmed, hcleared⟩
    refine ⟨?_, fun id hid hnot => (hkeys id hnot).1 (fun h => hnot (hcleared id h)) hid⟩
    rintro xs x ys rfl husable
    rcases harmed x (by simp) husable with hrunning | ⟨t, ht, hlater⟩
    · exact .inl hrunning
    · rw [alarms_entries hstart hnd husable] at ht
      refine .inr ⟨t, hlater, ?_⟩
      split_ifs at ht ⊢ with hblocked
      · exact ht
      · exact ht
  · intro h
    refine ⟨fun x hx husable => ?_, fun id hid => ?_⟩
    · obtain ⟨xs, ys, rfl⟩ := List.append_of_mem hx
      rcases h.armed xs x ys rfl husable with hrunning | ⟨t, hlater, ht⟩
      · exact .inl hrunning
      · refine .inr ⟨t, ?_, hlater⟩
        rw [alarms_entries hstart hnd husable]
        split_ifs at ht ⊢ with hblocked
        · exact ht
        · exact ht
    · by_contra hnot
      exact (hkeys id hnot).2 (h.cleared id · hnot) hid

end

/-! ## Syncs -/

namespace Sample

def dailySchedule (id : String) (nextRunAt : ℚ) : BrowserScheduleDefinition :=
  ⟨.lit id, .lit "w", .lit "d", .lit "n", .lit "FREQ=DAILY", .lit "UTC", true, none, some nextRunAt⟩

/-- The clock stands at 5 seconds; every report is answered in the same way. -/
def syncAnswers (completed : Bool) : SyncAnswers :=
  ⟨fun _ => 5000000000, fun _ => some (.lit "d"), fun _ => 5000000000, fun _ => completed⟩

def alarmedManager (handled : List Occurrence) : AlarmedManager :=
  ⟨Dict.empty.set (.lit "old") (dailySchedule "old" 9000000000), handled, [], Dict.empty.set (.lit "old") 9000⟩

end Sample

/-- A list with what was held before, a schedule that is due and one that is not. -/
theorem noneDisarmed_sync_sample :
    NoneDisarmed (· = .lit "UTC") (some (.lit "d")) 5000
        [Sample.dailySchedule "old" 9000000000, Sample.dailySchedule "a" 1000000000, Sample.dailySchedule "b" 8000000000]
        ((Sample.alarmedManager []).sync (Sample.syncAnswers true) (· = .lit "UTC") (some (.lit "d"))
          [Sample.dailySchedule "old" 9000000000, Sample.dailySchedule "a" 1000000000,
            Sample.dailySchedule "b" 8000000000]).1 ∧
      SyncRearms (· = .lit "UTC") (some (.lit "d")) (Sample.syncAnswers true) 5000
        [Sample.dailySchedule "old" 9000000000, Sample.dailySchedule "a" 1000000000, Sample.dailySchedule "b" 8000000000]
        (Sample.alarmedManager []) := by
  have harmed : NoneDisarmed (· = .lit "UTC") (some (.lit "d")) 5000
      [Sample.dailySchedule "old" 9000000000, Sample.dailySchedule "a" 1000000000, Sample.dailySchedule "b" 8000000000]
      ((Sample.alarmedManager []).sync (Sample.syncAnswers true) (· = .lit "UTC") (some (.lit "d"))
        [Sample.dailySchedule "old" 9000000000, Sample.dailySchedule "a" 1000000000,
          Sample.dailySchedule "b" 8000000000]).1 := by
    decide +kernel
  exact ⟨harmed, (noneDisarmed_sync_iff (by decide) (by decide)).1 harmed⟩

/-- **A report that fails disarms its own schedule and the rest of the list; an occurrence that has been handled is
    neither run nor armed; a run keeps the alarm of a schedule that is gone.** -/
theorem not_noneDisarmed_sync :
    ¬ NoneDisarmed (· = .lit "UTC") (some (.lit "d")) 5000
        [Sample.dailySchedule "a" 1000000000, Sample.dailySchedule "b" 8000000000]
        ((⟨.empty, [], [], .empty⟩ : AlarmedManager).sync (Sample.syncAnswers false) (· = .lit "UTC") (some (.lit "d"))
          [Sample.dailySchedule "a" 1000000000, Sample.dailySchedule "b" 8000000000]).1 ∧
      ¬ NoneDisarmed (· = .lit "UTC") (some (.lit "d")) 5000 [Sample.dailySchedule "a" 1000000000]
        ((⟨.empty, [(.lit "a", some 1000000000)], [], .empty⟩ : AlarmedManager).sync (Sample.syncAnswers true)
          (· = .lit "UTC") (some (.lit "d")) [Sample.dailySchedule "a" 1000000000]).1 ∧
      ¬ NoneDisarmed (· = .lit "UTC") (some (.lit "d")) 5000 [Sample.dailySchedule "a" 1000000000]
        ((Sample.alarmedManager []).sync (Sample.syncAnswers true) (· = .lit "UTC") (some (.lit "d"))
          [Sample.dailySchedule "a" 1000000000]).1 := by
  decide +kernel

end TideBot
