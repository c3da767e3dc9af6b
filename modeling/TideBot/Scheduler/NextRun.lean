/-
  The next run of an automation (`utils/automations.py`).

  `next_run_ns` looks for the next time of the rule after the local time of `now`, and reads what it finds as
  a local time again.  In the hour that is repeated when the clocks go back it finds times of that hour, and
  reads them as those of the first pass, which is over: `claim_due` then finds the row due again at once.
  Otherwise the next run is later than `now` (`nextRunNs_forward_iff`).

  Instants are in microseconds since 2000-01-01 00:00 UTC, and the clock is exact.  Without a zone of the user
  the zone of the server is used, by `datetime.now` and by `timestamp`.  Which names of zones there are is a parameter.
-/
import TideBot.Lib.LocalTime
import TideBot.Scheduler.Recurrence

namespace TideBot

open Lib

/-- Nanoseconds since 1970, of an instant. -/
def epochNs (u : ℤ) : ℤ := (u + 946684800000000) * 1000

section
variable {σ : Type} (D : Dateutil σ) (upper : Text → Text) (zoneInfo : Text → Option Zone) (server : Zone)

/-- `_resolve_tz` -/
def resolveTz (tz : Option Text) : Option Zone :=
  match tz with
  | none | some [] => none
  | some name => zoneInfo name

/-- The zone by which `datetime.now` and `timestamp` go. -/
def effectiveZone (tz : Option Text) : Zone := (resolveTz zoneInfo tz).getD server

/-- `next_run_ns`, at the instant `now`; `none`: it raises -/
def nextRunNs (s : Text) (tz : Option Text) (now : ℤ) : Option (Option ℤ) := do
  let zone := effectiveZone zoneInfo server tz
  let nowNaive := zone.localTime now
  let rule ← D.parseRule upper s nowNaive
  return (D.after rule nowNaive).map fun dt => epochNs (zone.instant dt)

end

/-- **The next run is later than now**, exactly if the clock has not shown the next time of the rule yet. -/
theorem nextRunNs_forward_iff {σ : Type} (D : Dateutil σ) (upper : Text → Text) (zoneInfo : Text → Option Zone) (server : Zone)
    (times : ParsedRule σ → Set ℤ) (hafter : ∀ rule x, IsNext (times rule) x (D.after rule x)) (s : Text)
    (tz : Option Text) (now : ℤ) :
    (∀ run ∈ nextRunNs D upper zoneInfo server s tz now, ∀ next ∈ run, epochNs now < next) ↔
      ∀ rule ∈ D.parseRule upper s ((effectiveZone zoneInfo server tz).localTime now), ∀ t,
        IsNext (times rule) ((effectiveZone zoneInfo server tz).localTime now) (some t) →
        ∀ u ≤ now, (effectiveZone zoneInfo server tz).localTime u ≠ t := by
  set zone := effectiveZone zoneInfo server tz with hzone
  have hrun : nextRunNs D upper zoneInfo server s tz now = (D.parseRule upper s (zone.localTime now)).map fun rule =>
      (D.after rule (zone.localTime now)).map fun dt => epochNs (zone.instant dt) := by
    rw [nextRunNs, ← hzone]
    cases D.parseRule upper s (zone.localTime now) <;> rfl
  have hforward : ∀ t, zone.localTime now < t → (epochNs now < epochNs (zone.instant t) ↔
      ∀ u ≤ now, zone.localTime u ≠ t) := by
    intro t ht
    rw [← zone.lt_instant_iff ht, epochNs, epochNs]
    omega
  rw [hrun]
  constructor
  · intro h rule hrule t ht
    rw [← hforward t ht.lt]
    have hfound := (hafter rule (zone.localTime now)).unique ht
    refine h _ (Option.map_eq_some_iff.2 ⟨rule, hrule, rfl⟩) _ ?_
    rw [hfound]
    rfl
  · rintro h run hrun next hnext
    obtain ⟨rule, hrule, rfl⟩ := Option.map_eq_some_iff.1 hrun
    obtain ⟨t, ht, rfl⟩ := Option.map_eq_some_iff.1 hnext
    have hfound := hafter rule (zone.localTime now)
    rw [ht] at hfound
    exact (hforward t hfound.lt).2 (h rule hrule t hfound)

namespace Sample

def berlin : Zone where
  before := 3600000000
  changes := [(9584 * 86400000000 + 3600000000, 7200000000), (9794 * 86400000000 + 3600000000, 3600000000)]
  spaced := by
    refine ⟨?_, ?_, trivial⟩
    · intro c hc
      obtain rfl := Option.some_inj.1 hc
      decide
    · intro c hc
      cases hc

def everyFiveText : Text := .lit "RRULE:FREQ=MINUTELY;INTERVAL=5"

def startOf : ParsedRule Unit → ℤ
  | .rrule rule => rule.dtstart
  | .rruleset _ _ => 0

def fiveMinutes : Dateutil Unit where
  rrulestr s start :=
    if s = everyFiveText then some (.rrule ⟨.minutely, 5, none, start.getD 0, false, [], [0], []⟩) else none
  after rule now := nextInSeries (startOf rule) 300000000 none maxDatetime now

def fiveMinuteTimes (rule : ParsedRule Unit) : Set ℤ := Series (startOf rule) 300000000 none maxDatetime

theorem isNext_fiveMinutes (rule : ParsedRule Unit) (x : ℤ) :
    IsNext (fiveMinuteTimes rule) x (fiveMinutes.after rule x) :=
  isNext_series (by decide)

end Sample

theorem nextRunNs_forward_iff_berlin :
    (∀ run ∈ nextRunNs Sample.fiveMinutes id (fun _ => none) Sample.berlin Sample.everyFiveText none 0,
        ∀ next ∈ run, epochNs 0 < next) ↔
      ∀ rule ∈ Dateutil.parseRule Sample.fiveMinutes id Sample.everyFiveText
          ((effectiveZone (fun _ => none) Sample.berlin none).localTime 0),
        ∀ t, IsNext (Sample.fiveMinuteTimes rule) ((effectiveZone (fun _ => none) Sample.berlin none).localTime 0)
            (some t) →
        ∀ u ≤ 0, (effectiveZone (fun _ => none) Sample.berlin none).localTime u ≠ t :=
  nextRunNs_forward_iff Sample.fiveMinutes id (fun _ => none) Sample.berlin Sample.fiveMinuteTimes
    Sample.isNext_fiveMinutes Sample.everyFiveText none 0

/-- At 2:10 for the second time the next run is at 2:15 for the first time. -/
theorem not_nextRunNs_forward : ¬ ∀ (D : Dateutil Unit) (upper : Text → Text) (zoneInfo : Text → Option Zone)
    (server : Zone) (times : ParsedRule Unit → Set ℤ), (∀ rule x, IsNext (times rule) x (D.after rule x)) →
    ∀ (s : Text) (tz : Option Text) (now : ℤ),
      ∀ run ∈ nextRunNs D upper zoneInfo server s tz now, ∀ next ∈ run, epochNs now < next := by
  intro h
  have hrun : nextRunNs Sample.fiveMinutes id (fun _ => none) Sample.berlin Sample.everyFiveText none
      (9794 * 86400000000 + 4200000000) = some (some (epochNs (9794 * 86400000000 + 900000000))) := by
    decide
  have hlater := h Sample.fiveMinutes id (fun _ => none) Sample.berlin Sample.fiveMinuteTimes Sample.isNext_fiveMinutes
    Sample.everyFiveText none (9794 * 86400000000 + 4200000000) _ hrun _ rfl
  revert hlater
  decide

end TideBot
