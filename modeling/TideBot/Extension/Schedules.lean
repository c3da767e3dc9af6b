/-
  Scheduled workflows (`background/schedules.ts`).

  `ScheduleManager` holds the schedules of its device in a `Map`.  An alarm runs the
  schedule that is held under its name; `sync` brings a new list, runs what is due in it,
  and puts a new map in the place of the old one.  Both go on at any `await`, so the state
  has the maps that syncs are still filling, and one task for each call.

  A step is what happens between two awaits.  Its input has what the environment decides:
  the device, the readings of the clock, what the server and the replay answer.  Besides
  its answer it leaves notes of what it has done to occurrences.
-/
import TideBot.Lib.Dict
import TideBot.Lib.Machine
import TideBot.Lib.Text

namespace TideBot

open Lib

/-! ## Rules -/

/-- A decimal digit. -/
def digit (c : CodePoint) : Bool := 48 ≤ c.val && c.val ≤ 57

/-- The value of a sequence of digits. -/
def decimal (t : Text) : ℕ := t.foldl (fun n c => 10 * n + (c.val - 48)) 0

/-- The code point of a character. -/
def code (c : Char) : CodePoint := CodePoint.ofChar c

/-- `NANOSECONDS` -/
def nanoseconds (frequency : Text) : Option ℕ :=
  if frequency = .lit "MINUTELY" then some (60 * 1000000000)
  else if frequency = .lit "HOURLY" then some (60 * 60 * 1000000000)
  else if frequency = .lit "DAILY" then some (24 * 60 * 60 * 1000000000)
  else if frequency = .lit "WEEKLY" then some (7 * 24 * 60 * 60 * 1000000000)
  else none

/-- `/^[1-9][0-9]{0,2}$/` -/
def intervalForm : Text → Bool
  | c :: rest => digit c && c ≠ code '0' && rest.length ≤ 2 && rest.all digit
  | [] => false

/-- `/^(?:MO|TU|WE|TH|FR|SA|SU)(?:,(?:MO|TU|WE|TH|FR|SA|SU))*$/` -/
def daysForm (t : Text) : Bool :=
  (t.splitOn (code ',')).all fun d => d ∈ ["MO", "TU", "WE", "TH", "FR", "SA", "SU"].map Text.lit

/-- `/^(?:[0-9]|1[0-9]|2[0-3])$/` -/
def hourForm : Text → Bool
  | [c] => digit c
  | [c, d] => (c = code '1' && digit d) || (c = code '2' && digit d && d.val ≤ 51)
  | _ => false

/-- `/^(?:[0-9]|[1-5][0-9])$/` -/
def minuteForm : Text → Bool
  | [c] => digit c
  | [c, d] => digit c && c ≠ code '0' && c.val ≤ 53 && digit d
  | _ => false

/-- A recurrence rule: the nanoseconds of its frequency, and its interval. -/
structure Rule where
  frequency : ℕ
  interval : ℕ

/-- The fields of a rule, if each of them has a name and a value and no name comes twice. -/
def ruleFields (value : Text) : Option (Dict Text Text) :=
  let entries := (value.splitOn (code ';')).map (·.splitOn (code '='))
  let rule := entries.foldl (fun d parts => d.set (parts.getD 0 []) (parts.getD 1 [])) .empty
  if entries.any (·.length ≠ 2) || rule.size ≠ entries.length then none else some rule

/-- `parseRule` -/
def parseRule (value : Text) : Option Rule := do
  guard (value ≠ [] ∧ value.utf16Length ≤ 256)
  let rule ← ruleFields value
  guard (rule.keys.all fun key =>
    key ∈ ["FREQ", "INTERVAL", "BYDAY", "BYHOUR", "BYMINUTE"].map Text.lit)
  let frequency ← nanoseconds (← rule.get (.lit "FREQ"))
  let interval := (rule.get (.lit "INTERVAL")).getD (.lit "1")
  guard (intervalForm interval ∧ decimal interval ≤ 365)
  -- an empty field is not looked at
  guard (∀ days ∈ rule.get (.lit "BYDAY"), days = [] ∨ daysForm days)
  guard (∀ hour ∈ rule.get (.lit "BYHOUR"), hour = [] ∨ hourForm hour)
  guard (∀ minute ∈ rule.get (.lit "BYMINUTE"), minute = [] ∨ minuteForm minute)
  return ⟨frequency, decimal interval⟩

def validateScheduleRRule (value : Text) : Bool := (parseRule value).isSome

/-- `validateTimeZone`; `zones` are the time zones that `Intl.DateTimeFormat` knows. -/
def validateTimeZone (zones : Text → Bool) (value : Text) : Bool :=
  value ≠ [] && value.utf16Length ≤ 100 && zones value

/-! ## Schedules -/

structure BrowserScheduleDefinition where
  id : Text
  workflowId : Text
  deviceId : Text
  name : Text
  rrule : Text
  timezone : Text
  isActive : Bool
  lastRunAt : Option ℚ
  nextRunAt : Option ℚ
  deriving DecidableEq

/-- A time at which a schedule is to be run. -/
abbrev Occurrence := Text × Option ℚ

instance Occurrence.instLawfulBEq : LawfulBEq Occurrence := inferInstance

/-- The occurrence that a schedule has come to. -/
def BrowserScheduleDefinition.occurrence (x : BrowserScheduleDefinition) : Occurrence :=
  (x.id, x.nextRunAt)

/-- `while (next <= after) next += increment` -/
def advance (increment after : ℚ) : ℕ → ℚ → ℚ
  | 0, next => next
  | n + 1, next => if next ≤ after then advance increment after n (next + increment) else next

/-- `nextOccurrence`; an invalid rule throws. -/
def nextOccurrence (schedule : BrowserScheduleDefinition) (after : ℚ) : Option ℚ := do
  let parsed ← parseRule schedule.rrule
  let increment : ℚ := parsed.frequency * parsed.interval
  let next := schedule.nextRunAt.getD (after + increment)
  return advance increment after (⌊(after - next) / increment⌋.toNat + 1) next

section
variable {value : Text} {r : Rule} {increment after next : ℚ}

theorem foldl_decimal_pos {t : Text} {n : ℕ} (h : 0 < n) :
    0 < t.foldl (fun n c => 10 * n + (c.val - 48)) n := by
  induction t generalizing n with
  | nil => exact h
  | cons c t ih =>
    refine ih ?_
    show 0 < 10 * n + (c.val - 48)
    omega

theorem decimal_pos {t : Text} (h : intervalForm t) : 0 < decimal t := by
  cases t with
  | nil => cases h
  | cons c rest =>
    simp only [intervalForm, digit, Bool.and_eq_true, decide_eq_true_eq] at h
    obtain ⟨⟨⟨⟨hlow, -⟩, hzero⟩, -⟩, -⟩ := h
    have hne : c.val ≠ 48 := fun heq => hzero (Fin.ext heq)
    have hpos : 0 < 10 * 0 + (c.val - 48) := by omega
    rw [decimal, List.foldl_cons]
    exact foldl_decimal_pos hpos

theorem nanoseconds_pos {frequency : Text} {n : ℕ} (h : nanoseconds frequency = some n) : 0 < n := by
  unfold nanoseconds at h
  split_ifs at h <;> cases h <;> decide

theorem parseRule_pos (h : parseRule value = some r) : 0 < r.frequency * r.interval := by
  simp only [parseRule, bind, Option.bind_eq_some_iff, Option.guard_eq_some'] at h
  obtain ⟨-, -, rule, -, -, -, freq, -, frequency, hfreq, -, hint, -, -, -, -, -, -, hr⟩ := h
  cases hr
  exact Nat.mul_pos (nanoseconds_pos hfreq) (decimal_pos hint.1)

theorem lt_advance {n : ℕ} (h : after < next + n * increment) :
    after < advance increment after n next := by
  induction n generalizing next with
  | zero => simpa [advance] using h
  | succ n ih =>
    unfold advance
    split_ifs with hle
    · refine ih ?_
      push_cast at h
      linarith
    · exact not_le.1 hle

end

/-- The outcome of a run. -/
inductive RunOutcome where
  | complete
  | paused
  | failed
  deriving DecidableEq

/-- The outcome of a run that has thrown, by its code. -/
def outcomeOf : Option Text → RunOutcome
  | none => .complete
  | some code =>
    if code ∈ ["workflow_approval_required", "workflow_input_required", "session_not_open",
      "locked_tab_lost"].map Text.lit then .paused
    else .failed

/-! ## The manager -/

/-- Where a sync goes on. -/
inductive SyncPoint where
  /-- with the next of its values -/
  | entries (device : Option Text) (map : ℕ) (values : List BrowserScheduleDefinition)
  /-- with the next key of the old map -/
  | clearing (map old index : ℕ)

/-- What a call waits for; `back` is the sync that has called `run`. -/
inductive ScheduleTask where
  /-- `alarms.clear`, or a `run` that has ended -/
  | syncing (point : SyncPoint)
  /-- `api.workflow` -/
  | fetching (schedule : BrowserScheduleDefinition) (back : Option SyncPoint)
  /-- `options.replay` -/
  | replaying (schedule : BrowserScheduleDefinition) (back : Option SyncPoint)
  /-- `api.completeScheduleRun` -/
  | completing (schedule : BrowserScheduleDefinition) (lastRunAt nextRunAt : ℚ)
      (back : Option SyncPoint)
  /-- `nextOccurrence` has thrown. -/
  | stuck (schedule : BrowserScheduleDefinition)
  | finished

/-- The schedule that a task runs. -/
def ScheduleTask.running : ScheduleTask → Option BrowserScheduleDefinition
  | .fetching x _ | .replaying x _ | .completing x _ _ _ | .stuck x => some x
  | .syncing _ | .finished => none

/-- The manager, its maps and its tasks. -/
structure ScheduleManager where
  maps : ℕ → Dict Text BrowserScheduleDefinition
  /-- How many maps there are. -/
  count : ℕ
  /-- Which of them is `this.schedules`. -/
  schedules : ℕ
  handledOccurrences : List Occurrence
  running : List Text
  tasks : ℕ → Option ScheduleTask

/-- What the environment answers in a step. -/
structure ScheduleEnv where
  deviceId : Option Text
  /-- The readings of the clock, one after the other, in nanoseconds. -/
  clock : ℕ → ℚ

/-- What a step does to an occurrence. -/
inductive ScheduleNote where
  /-- A run begins, for an alarm or for a sync. -/
  | began (p : Occurrence) (alarm : Bool)
  /-- `options.replay` is started. -/
  | replayed (p : Occurrence)
  /-- `api.completeScheduleRun` is called. -/
  | reported (id : Text) (outcome : RunOutcome) (lastRunAt nextRunAt : ℚ)
  /-- `api.completeScheduleRun` has failed. -/
  | failed (p : Occurrence)
  /-- The occurrence comes into `this.schedules`. -/
  | placed (p : Occurrence)
  deriving DecidableEq

namespace ScheduleManager

def initial : ScheduleManager := ⟨fun _ => .empty, 1, 0, [], [], fun _ => none⟩

variable (zones : Text → Bool) (s : ScheduleManager) (k : ℕ) (env : ScheduleEnv)

/-- The map that is `this.schedules`. -/
def held : Dict Text BrowserScheduleDefinition := s.maps s.schedules

def await (t : ScheduleTask) : ScheduleManager :=
  { s with tasks := Function.update s.tasks k (some t) }

/-- `nextSchedules.set` -/
def put (map : ℕ) (x : BrowserScheduleDefinition) : ScheduleManager × List ScheduleNote :=
  ({ s with maps := Function.update s.maps map ((s.maps map).set x.id x) },
    if map = s.schedules then [.placed x.occurrence] else [])

/-- `this.schedules = nextSchedules` -/
def install (map : ℕ) : ScheduleManager × List ScheduleNote :=
  ({ s with schedules := map },
    if map = s.schedules then [] else (s.maps map).entries.map fun e => .placed e.2.occurrence)

/-- What a call goes on with after `run`. -/
def afterRun : Option SyncPoint → ScheduleTask
  | some point => .syncing point
  | none => .finished

/-- `run`, up to its first await. -/
def run (scheduleId : Text) (alarm : Bool) (back : Option SyncPoint) :
    ScheduleManager × List ScheduleNote :=
  match s.held.get scheduleId with
  | some x =>
    if scheduleId ∈ s.running ∨ !x.isActive ∨ some x.deviceId ≠ env.deviceId then
      (s.await k (afterRun back), [])
    else
      ({ s with running := scheduleId :: s.running }.await k (.fetching x back),
        [.began x.occurrence alarm])
  | none => (s.await k (afterRun back), [])

/-- Is this a schedule that the device can run? -/
def usable (device : Option Text) (x : BrowserScheduleDefinition) : Bool :=
  x.isActive && some x.deviceId = device && validateScheduleRRule x.rrule &&
    validateTimeZone zones x.timezone && x.nextRunAt.isSome

/-- The second loop of `sync`, from a position of the old map, and what follows it. -/
def clearing (map old index : ℕ) : ScheduleManager × List ScheduleNote :=
  match ((s.maps old).keys.drop index).findIdx? fun id => id ∉ (s.maps map).keys with
  | some i => (s.await k (.syncing (.clearing map old (index + i + 1))), [])
  | none => ((s.install map).1.await k .finished, (s.install map).2)

/-- The first loop of `sync`; `n` readings of the clock were made. -/
def entries (device : Option Text) (map : ℕ) :
    List BrowserScheduleDefinition → ℕ → ScheduleManager → ScheduleManager × List ScheduleNote
  | [], _, s => s.clearing k map s.schedules 0
  | x :: values, n, s =>
    if !usable zones device x then (s.await k (.syncing (.entries device map values)), [])
    else
      let put := s.put map x
      if x.nextRunAt.any (· ≤ env.clock n) ∧ x.occurrence ∉ s.handledOccurrences then
        let handled := { put.1 with handledOccurrences := x.occurrence :: s.handledOccurrences }
        let installed := handled.install map
        let ran := installed.1.run k env x.id false (some (.entries device map values))
        (ran.1, put.2 ++ installed.2 ++ ran.2)
      else
        let rest := entries device map values (n + 1) put.1
        (rest.1, put.2 ++ rest.2)

/-- A sync goes on. -/
def resume : SyncPoint → ScheduleManager × List ScheduleNote
  | .entries device map values => entries zones k env device map values 0 s
  | .clearing map old index => s.clearing k map old index

/-- `completeScheduleRun` is called, after the replay or what it has thrown. -/
def complete (x : BrowserScheduleDefinition) (thrown : Option Text) (back : Option SyncPoint) :
    ScheduleManager × List ScheduleNote :=
  let lastRunAt := env.clock 0
  match nextOccurrence x (max lastRunAt (x.nextRunAt.getD lastRunAt)) with
  | some nextRunAt => (s.await k (.completing x lastRunAt nextRunAt back),
      [.reported x.id (outcomeOf thrown) lastRunAt nextRunAt])
  | none => (s.await k (.stuck x), [])

/-- The schedule is no longer running. -/
def stop (id : Text) : ScheduleManager := { s with running := s.running.filter (· ≠ id) }

end ScheduleManager

/-- What happens to the manager; calls are numbered. -/
inductive ScheduleEvent where
  | sync (k : ℕ) (env : ScheduleEnv) (values : List BrowserScheduleDefinition)
  | alarm (k : ℕ) (env : ScheduleEnv) (scheduleId : Text)
  /-- What a sync has waited for is there. -/
  | resume (k : ℕ) (env : ScheduleEnv)
  /-- `alarms.clear` has failed. -/
  | reject (k : ℕ)
  /-- `api.workflow` has answered, or thrown with a code. -/
  | fetched (k : ℕ) (env : ScheduleEnv) (thrown : Option Text)
  /-- `options.replay` has ended. -/
  | replayed (k : ℕ) (env : ScheduleEnv) (thrown : Option Text)
  | completed (k : ℕ) (ok : Bool)

namespace ScheduleManager

/-- One step; `none` if it cannot be taken. -/
def step (zones : Text → Bool) (s : ScheduleManager) :
    ScheduleEvent → Option (ScheduleManager × List ScheduleNote)
  | .sync k env values =>
    if (s.tasks k).isSome then none
    else some (entries zones k env env.deviceId s.count (values.take 500) 0
      { s with count := s.count + 1 })
  | .alarm k env scheduleId =>
    if (s.tasks k).isSome then none else some (s.run k env scheduleId true none)
  | .resume k env =>
    match s.tasks k with
    | some (.syncing point) => some (s.resume zones k env point)
    | _ => none
  | .reject k =>
    match s.tasks k with
    | some (.syncing _) => some (s.await k .finished, [])
    | _ => none
  | .fetched k env thrown =>
    match s.tasks k, thrown with
    | some (.fetching x back), none => some (s.await k (.replaying x back), [.replayed x.occurrence])
    | some (.fetching x back), some code => some (s.complete k env x (some code) back)
    | _, _ => none
  | .replayed k env thrown =>
    match s.tasks k with
    | some (.replaying x back) => some (s.complete k env x thrown back)
    | _ => none
  | .completed k ok =>
    match s.tasks k with
    | some (.completing x lastRunAt nextRunAt back) =>
      let x' := { x with lastRunAt := some lastRunAt, nextRunAt := some nextRunAt }
      if ok then
        some ((((s.put s.schedules x').1.stop x.id).await k (afterRun back)),
          (s.put s.schedules x').2)
      else some ((s.stop x.id).await k .finished, [.failed x.occurrence])
    | _ => none

end ScheduleManager

/-- The manager as a machine. -/
def scheduleManager (zones : Text → Bool) :
    Machine ScheduleManager ScheduleEvent (List ScheduleNote) :=
  ⟨fun s e => s.step zones e⟩

end TideBot
