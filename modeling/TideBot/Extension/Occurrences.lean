/-
  Is an occurrence replayed at most once?

  Three things are to see to it: no schedule is run twice at the same time (`running`), no
  sync runs an occurrence that a sync has run (`handledOccurrences`), and a run that was
  reported puts the next occurrence in the place of its own.  But what an alarm runs is
  not entered into `handledOccurrences`, nor looked up there, and when the report fails the
  occurrence stays where it is (`replayedOnce_fails`).

  * `returned`: an occurrence that was run has come back into `this.schedules`, or has
    stayed there because its report has failed;
  * `fresh`: no alarm finds an occurrence that has returned, and no sync finds one due that
    an alarm has run.

  In every run of the manager whose steps are fresh, no occurrence is replayed twice
  (`replayedOnce_fresh`).  The invariant is `Once`.
-/
import TideBot.Extension.Schedules

namespace TideBot

open Lib ScheduleManager

/-- What was done to occurrences. -/
def notes (tr : List (ScheduleEvent × List ScheduleNote)) : List ScheduleNote :=
  tr.flatMap Prod.snd

/-- The replays that were started. -/
def replays (N : List ScheduleNote) : List Occurrence :=
  N.filterMap fun n => match n with
    | .replayed p => some p
    | _ => none

/-- Is this the beginning of a run of `p`? -/
def ScheduleNote.begins (p : Occurrence) : ScheduleNote → Bool
  | .began q _ => q = p
  | _ => false

/-- The occurrence was run, and then its report has failed or it was put in place again. -/
def returned (p : Occurrence) : List ScheduleNote → Bool
  | [] => false
  | n :: N => (n.begins p && (.failed p ∈ N || .placed p ∈ N)) || returned p N

/-- The schedule that `run` is going to run. -/
def ScheduleManager.runs (s : ScheduleManager) (env : ScheduleEnv) (id : Text) :
    Option BrowserScheduleDefinition :=
  (s.held.get id).filter fun x => id ∉ s.running ∧ x.isActive ∧ some x.deviceId = env.deviceId

section
variable (zones : Text → Bool) (env : ScheduleEnv) (device : Option Text)

/-- The first value that a sync finds due and not handled before it has to wait. -/
def dueEntry (handled : List Occurrence) :
    List BrowserScheduleDefinition → ℕ → Option BrowserScheduleDefinition
  | [], _ => none
  | x :: values, n =>
    if !usable zones device x then none
    else if x.nextRunAt.any (· ≤ env.clock n) ∧ x.occurrence ∉ handled then some x
    else dueEntry handled values (n + 1)

/-- What a sync finds due was not run by an alarm, unless it cannot be run now. -/
def dueFresh (N : List ScheduleNote) (s : ScheduleManager) (values : List BrowserScheduleDefinition)
    (n : ℕ) : Bool :=
  (dueEntry zones env device s.handledOccurrences values n).all fun x =>
    x.id ∈ s.running || some x.deviceId ≠ env.deviceId || .began x.occurrence true ∉ N

end

/-- No alarm finds an occurrence that has returned, and no sync finds one due that an alarm
    has run. -/
def fresh (zones : Text → Bool) (x : List (ScheduleEvent × List ScheduleNote) × ScheduleManager) :
    ScheduleEvent → Bool
  | .alarm _ env id => (x.2.runs env id).all fun y => !returned y.occurrence (notes x.1)
  | .sync _ env values => dueFresh zones env env.deviceId (notes x.1) x.2 (values.take 500) 0
  | .resume k env =>
    match x.2.tasks k with
    | some (.syncing (.entries device _ values)) =>
      dueFresh zones env device (notes x.1) x.2 values 0
    | _ => true
  | _ => true

variable {zones : Text → Bool} {s s' : ScheduleManager} {k : ℕ} {env : ScheduleEnv}
  {N L : List ScheduleNote} {p : Occurrence}

/-! ## What has returned -/

theorem returned_iff : returned p N ↔
    ∃ xs b ys, N = xs ++ .began p b :: ys ∧ (.failed p ∈ ys ∨ .placed p ∈ ys) := by
  induction N with
  | nil => simp [returned]
  | cons n N ih =>
    simp only [returned, Bool.or_eq_true, Bool.and_eq_true, decide_eq_true_eq, ih]
    constructor
    · rintro (⟨hn, hN⟩ | ⟨xs, b, ys, rfl, hys⟩)
      · cases n with
        | began q b =>
          have hq : q = p := by simpa [ScheduleNote.begins] using hn
          exact ⟨[], b, N, by rw [hq]; rfl, hN⟩
        | replayed | reported | failed | placed => simp [ScheduleNote.begins] at hn
      · exact ⟨n :: xs, b, ys, rfl, hys⟩
    · rintro ⟨xs, b, ys, heq, hys⟩
      cases xs with
      | nil =>
        cases heq
        exact .inl ⟨by simp [ScheduleNote.begins], hys⟩
      | cons x xs =>
        cases heq
        exact .inr ⟨xs, b, ys, rfl, hys⟩

theorem returned_append (h : returned p N) : returned p (N ++ L) := by
  obtain ⟨xs, b, ys, rfl, hys⟩ := returned_iff.1 h
  refine returned_iff.2 ⟨xs, b, ys ++ L, by simp, ?_⟩
  rcases hys with hys | hys
  · exact .inl (List.mem_append_left _ hys)
  · exact .inr (List.mem_append_left _ hys)

theorem returned_of_began {b : Bool} (h : .began p b ∈ N) (hL : .failed p ∈ L ∨ .placed p ∈ L) :
    returned p (N ++ L) := by
  obtain ⟨xs, ys, rfl⟩ := List.append_of_mem h
  refine returned_iff.2 ⟨xs, b, ys ++ L, by simp, ?_⟩
  rcases hL with hL | hL
  · exact .inl (List.mem_append_right _ hL)
  · exact .inr (List.mem_append_right _ hL)

/-! ## The invariant -/

/-- Task `k` runs the occurrence. -/
def RunsAt (s : ScheduleManager) (k : ℕ) (x : BrowserScheduleDefinition) : Prop :=
  ∃ t, s.tasks k = some t ∧ t.running = some x

/-- No occurrence was replayed twice, and one that was run is held only while it is run or
    after it has returned. -/
structure Once (N : List ScheduleNote) (s : ScheduleManager) : Prop where
  keys : ∀ m id x, (s.maps m).get id = some x → x.id = id
  handled : ∀ p, .began p false ∈ N → p ∈ s.handledOccurrences
  running : ∀ k x, RunsAt s k x → x.id ∈ s.running ∧ ∃ b, .began x.occurrence b ∈ N
  alone : ∀ j k x y, RunsAt s j x → RunsAt s k y → x.id = y.id → j = k
  held : ∀ id x b, s.held.get id = some x → .began x.occurrence b ∈ N →
    returned x.occurrence N ∨ ∃ k y, RunsAt s k y ∧ y.occurrence = x.occurrence
  replays : (replays N).Nodup
  replayed : ∀ p, .replayed p ∈ N → ∃ b, .began p b ∈ N
  fetching : ∀ k x back, s.tasks k = some (.fetching x back) → .replayed x.occurrence ∉ N

theorem Once.initial : Once [] .initial where
  keys _ _ _ h := by cases h
  handled _ h := by cases h
  running k x h := by obtain ⟨t, ht, -⟩ := h; cases ht
  alone j k x y h := by obtain ⟨t, ht, -⟩ := h; cases ht
  held _ _ _ h := by cases h
  replays := List.nodup_nil
  replayed _ h := by cases h
  fetching _ _ _ h := by cases h

theorem mem_replays : p ∈ replays N ↔ .replayed p ∈ N := by
  simp only [replays, List.mem_filterMap]
  constructor
  · rintro ⟨n, hn, hp⟩
    cases n <;> cases hp
    exact hn
  · intro h
    exact ⟨_, h, rfl⟩

/-- Notes of what has come back into place, or has stayed there. -/
def Plain (L : List ScheduleNote) : Prop :=
  (∀ p b, .began p b ∉ L) ∧ ∀ p, .replayed p ∉ L

theorem replays_append : replays (N ++ L) = replays N ++ replays L := List.filterMap_append

theorem Plain.replays (h : Plain L) : replays L = [] := by
  rw [List.eq_nil_iff_forall_not_mem]
  intro p hp
  exact h.2 p (mem_replays.1 hp)

theorem Plain.began (h : Plain L) {b : Bool} : .began p b ∈ N ++ L ↔ .began p b ∈ N := by
  simp [h.1 p b]

theorem Plain.replayed (h : Plain L) : .replayed p ∈ N ++ L ↔ .replayed p ∈ N := by
  simp [h.2 p]

/-- A change that begins no run and no replay: every task runs what it has run, and what is
    held was held before or is noted to have been put in place. -/
theorem Once.plain (h : Once N s) (hL : Plain L)
    (hkeys : ∀ m id x, (s'.maps m).get id = some x → x.id = id)
    (hhandled : s.handledOccurrences ⊆ s'.handledOccurrences)
    (hrunning : ∀ k x, RunsAt s' k x → RunsAt s k x ∧ x.id ∈ s'.running)
    (hfetching : ∀ k x back, s'.tasks k = some (.fetching x back) →
      ∃ back', s.tasks k = some (.fetching x back'))
    (hheld : ∀ id x, s'.held.get id = some x → .placed x.occurrence ∈ L ∨
      s.held.get id = some x ∧ ∀ k y, RunsAt s k y → y.occurrence = x.occurrence →
        .failed x.occurrence ∈ L ∨ RunsAt s' k y) :
    Once (N ++ L) s' where
  keys := hkeys
  handled p hp := hhandled (h.handled p (hL.began.1 hp))
  running k x hx := by
    obtain ⟨hx, hrun⟩ := hrunning k x hx
    obtain ⟨-, b, hb⟩ := h.running k x hx
    exact ⟨hrun, b, hL.began.2 hb⟩
  alone j k x y hx hy := h.alone j k x y (hrunning j x hx).1 (hrunning k y hy).1
  held id x b hx hb := by
    have hb := hL.began.1 hb
    rcases hheld id x hx with hplaced | ⟨hold, htasks⟩
    · exact .inl (returned_of_began hb (.inr hplaced))
    · rcases h.held id x b hold hb with hret | ⟨k, y, hy, heq⟩
      · exact .inl (returned_append hret)
      · rcases htasks k y hy heq with hfail | hy
        · exact .inl (returned_of_began hb (.inl hfail))
        · exact .inr ⟨k, y, hy, heq⟩
  replays := by
    rw [replays_append, hL.replays, List.append_nil]
    exact h.replays
  replayed p hp := by
    obtain ⟨b, hb⟩ := h.replayed p (hL.replayed.1 hp)
    exact ⟨b, hL.began.2 hb⟩
  fetching k x back hk := by
    obtain ⟨back', hk⟩ := hfetching k x back hk
    rw [hL.replayed]
    exact h.fetching k x back' hk

/-! ## What the manager does -/

theorem runsAt_await {j : ℕ} {t : ScheduleTask} {x : BrowserScheduleDefinition} :
    RunsAt (s.await k t) j x ↔ if j = k then t.running = some x else RunsAt s j x := by
  unfold RunsAt ScheduleManager.await
  simp only [Function.update_apply]
  split_ifs <;> simp

/-- The task runs nothing. -/
def Idle (s : ScheduleManager) (k : ℕ) : Prop := ∀ x, ¬ RunsAt s k x

theorem Idle.of_task {t : ScheduleTask} (hk : s.tasks k = some t) (ht : t.running = none) :
    Idle s k := by
  rintro x ⟨t', ht', hx⟩
  rw [hk] at ht'
  cases ht'
  rw [ht] at hx
  cases hx

theorem Idle.of_new (hk : s.tasks k = none) : Idle s k := by
  rintro x ⟨t, ht, -⟩
  rw [hk] at ht
  cases ht

theorem Once.await (h : Once N s) (hk : Idle s k) {t : ScheduleTask} (ht : t.running = none) :
    Once N (s.await k t) := by
  have hruns : ∀ j x, RunsAt (s.await k t) j x ↔ RunsAt s j x := by
    intro j x
    rw [runsAt_await]
    split_ifs with hj
    · subst hj
      rw [ht]
      simp [hk x]
    · rfl
  rw [← List.append_nil N]
  refine h.plain ⟨by simp, by simp⟩ h.keys (List.Subset.refl _) ?_ ?_ ?_
  · intro j x hx
    rw [hruns] at hx
    exact ⟨hx, (h.running j x hx).1⟩
  · intro j x back hj
    by_cases hjk : j = k
    · subst hjk
      have hx : RunsAt (s.await j t) j x := ⟨_, hj, rfl⟩
      exact absurd ((hruns j x).1 hx) (hk x)
    · exact ⟨back, (Function.update_of_ne hjk _ _).symm.trans hj⟩
  · intro id x hx
    exact .inr ⟨hx, fun j y hy _ => .inr ((hruns j y).2 hy)⟩

theorem plain_put (map : ℕ) (x : BrowserScheduleDefinition) : Plain (s.put map x).2 := by
  simp only [ScheduleManager.put]
  split_ifs
  · exact ⟨by simp, by simp⟩
  · exact ⟨by simp, by simp⟩

theorem plain_install (map : ℕ) : Plain (s.install map).2 := by
  simp only [ScheduleManager.install]
  split_ifs
  · exact ⟨by simp, by simp⟩
  · exact ⟨by simp, by simp⟩

theorem Once.put (h : Once N s) (map : ℕ) (x : BrowserScheduleDefinition) :
    Once (N ++ (s.put map x).2) (s.put map x).1 := by
  have hget : ∀ m id, ((s.put map x).1.maps m).get id =
      if m = map ∧ id = x.id then some x else (s.maps m).get id := by
    intro m id
    simp only [ScheduleManager.put, Function.update_apply]
    by_cases hm : m = map
    · subst hm
      simp only [if_true, Dict.get_set, true_and]
    · simp [hm]
  refine h.plain (plain_put map x) ?_ (List.Subset.refl _)
    (fun j y hy => ⟨hy, (h.running j y hy).1⟩) (fun j y back hj => ⟨back, hj⟩) ?_
  · intro m id y hy
    rw [hget] at hy
    split_ifs at hy with hm
    · cases hy
      exact hm.2.symm
    · exact h.keys m id y hy
  · intro id y hy
    have hy : ((s.put map x).1.maps s.schedules).get id = some y := hy
    rw [hget] at hy
    split_ifs at hy with hm
    · cases hy
      refine .inl ?_
      simp [ScheduleManager.put, hm.1]
    · exact .inr ⟨hy, fun j z hz _ => .inr hz⟩

theorem Once.install (h : Once N s) (map : ℕ) :
    Once (N ++ (s.install map).2) (s.install map).1 := by
  refine h.plain (plain_install map) h.keys (List.Subset.refl _)
    (fun j y hy => ⟨hy, (h.running j y hy).1⟩) (fun j y back hj => ⟨back, hj⟩) ?_
  intro id y hy
  have hy : (s.maps map).get id = some y := hy
  by_cases hm : map = s.schedules
  · subst hm
    exact .inr ⟨hy, fun j z hz _ => .inr hz⟩
  · refine .inl ?_
    simp only [ScheduleManager.install, if_neg hm]
    exact List.mem_map.2 ⟨(id, y), Dict.mem_entries_iff.2 hy, rfl⟩

theorem Once.handle (h : Once N s) (p : Occurrence) :
    Once N { s with handledOccurrences := p :: s.handledOccurrences } := by
  rw [← List.append_nil N]
  exact h.plain ⟨by simp, by simp⟩ h.keys (List.subset_cons_self ..)
    (fun j y hy => ⟨hy, (h.running j y hy).1⟩) (fun j y back hj => ⟨back, hj⟩)
    fun id y hy => .inr ⟨hy, fun j z hz _ => .inr hz⟩

/-- **A run begins** of an occurrence that was not run before. -/
theorem Once.begin (h : Once N s) (hk : Idle s k) {x : BrowserScheduleDefinition} {alarm : Bool}
    {back : Option SyncPoint} (hx : s.held.get x.id = some x) (hidle : x.id ∉ s.running)
    (hnew : ∀ b, .began x.occurrence b ∉ N)
    (hhandled : alarm = false → x.occurrence ∈ s.handledOccurrences) :
    Once (N ++ [.began x.occurrence alarm])
      ({ s with running := x.id :: s.running }.await k (.fetching x back)) := by
  have hruns : ∀ j y, RunsAt ({ s with running := x.id :: s.running }.await k (.fetching x back)) j y →
      (j = k ∧ y = x) ∨ RunsAt s j y := by
    intro j y hy
    rw [runsAt_await] at hy
    split_ifs at hy with hj
    · cases hy
      exact .inl ⟨hj, rfl⟩
    · exact .inr hy
  have hself : RunsAt ({ s with running := x.id :: s.running }.await k (.fetching x back)) k x := by
    rw [runsAt_await, if_pos rfl]
    rfl
  have hother : ∀ j y, RunsAt s j y → y.id ≠ x.id := by
    intro j y hy heq
    exact hidle (heq ▸ (h.running j y hy).1)
  refine ⟨h.keys, ?_, ?_, ?_, ?_, ?_, ?_, ?_⟩
  · intro p hp
    rcases List.mem_append.1 hp with hp | hp
    · exact h.handled p hp
    · cases List.mem_singleton.1 hp
      exact hhandled rfl
  · intro j y hy
    rcases hruns j y hy with ⟨-, rfl⟩ | hy
    · exact ⟨List.mem_cons_self, alarm, by simp⟩
    · obtain ⟨hrun, b, hb⟩ := h.running j y hy
      exact ⟨List.mem_cons_of_mem _ hrun, b, List.mem_append_left _ hb⟩
  · intro i j y z hy hz heq
    rcases hruns i y hy with ⟨hi, hyx⟩ | hy'
    · rcases hruns j z hz with ⟨hj, -⟩ | hz'
      · rw [hi, hj]
      · rw [hyx] at heq
        exact absurd heq.symm (hother j z hz')
    · rcases hruns j z hz with ⟨-, hzx⟩ | hz'
      · rw [hzx] at heq
        exact absurd heq (hother i y hy')
      · exact h.alone i j y z hy' hz' heq
  · intro id y b hy hb
    by_cases heq : x.occurrence = y.occurrence
    · exact .inr ⟨k, x, hself, heq⟩
    · have hold : .began y.occurrence b ∈ N := by
        rcases List.mem_append.1 hb with hb | hb
        · exact hb
        · injection List.mem_singleton.1 hb with hyx
          exact absurd hyx.symm heq
      rcases h.held id y b hy hold with hret | ⟨j, z, hz, hzy⟩
      · exact .inl (returned_append hret)
      · refine .inr ⟨j, z, ?_, hzy⟩
        have hjk : j ≠ k := by
          rintro rfl
          exact hk z hz
        rw [runsAt_await, if_neg hjk]
        exact hz
  · have hnone : TideBot.replays [.began x.occurrence alarm] = [] := rfl
    rw [replays_append, hnone, List.append_nil]
    exact h.replays
  · intro p hp
    have hp : .replayed p ∈ N := by simpa using hp
    obtain ⟨b, hb⟩ := h.replayed p hp
    exact ⟨b, List.mem_append_left _ hb⟩
  · intro j y back' hj hrep
    have hrep : .replayed y.occurrence ∈ N := by simpa using hrep
    by_cases hjk : j = k
    · subst hjk
      simp only [ScheduleManager.await, Function.update_self] at hj
      cases hj
      obtain ⟨b, hb⟩ := h.replayed _ hrep
      exact hnew b hb
    · simp only [ScheduleManager.await, Function.update_of_ne hjk] at hj
      exact h.fetching j y back' hj hrep

theorem runs_eq_some {id : Text} {x : BrowserScheduleDefinition} :
    s.runs env id = some x ↔ s.held.get id = some x ∧ id ∉ s.running ∧ x.isActive ∧
      some x.deviceId = env.deviceId := by
  simp [ScheduleManager.runs, Option.filter_eq_some_iff]

/-- **`run`**, if what it is going to run was not run before. -/
theorem Once.run (h : Once N s) (hk : Idle s k) {id : Text} {alarm : Bool} {back : Option SyncPoint}
    (hnew : ∀ x, s.runs env id = some x → (∀ b, .began x.occurrence b ∉ N) ∧
      (alarm = false → x.occurrence ∈ s.handledOccurrences)) :
    Once (N ++ (s.run k env id alarm back).2) (s.run k env id alarm back).1 := by
  have hskip : Once (N ++ []) (s.await k (afterRun back)) := by
    rw [List.append_nil]
    refine h.await hk ?_
    cases back <;> rfl
  unfold ScheduleManager.run
  cases hx : s.held.get id with
  | none => exact hskip
  | some x =>
    simp only
    split_ifs with hno
    · exact hskip
    · push Not at hno
      obtain ⟨hidle, hact, hdev⟩ := hno
      obtain rfl := h.keys _ _ _ hx
      have hruns : s.runs env x.id = some x :=
        runs_eq_some.2 ⟨hx, hidle, by simpa using hact, hdev⟩
      exact h.begin hk hx hidle (hnew x hruns).1 (hnew x hruns).2

theorem Once.clearing (h : Once N s) (hk : Idle s k) (map old index : ℕ) :
    Once (N ++ (s.clearing k map old index).2) (s.clearing k map old index).1 := by
  unfold ScheduleManager.clearing
  split
  · rw [List.append_nil]
    exact h.await hk rfl
  · exact (h.install map).await hk rfl

/-- **The first loop of a sync.** -/
theorem Once.entries {device : Option Text} {map : ℕ} {values : List BrowserScheduleDefinition} :
    ∀ {n : ℕ} {s : ScheduleManager} {N : List ScheduleNote}, Once N s → Idle s k →
      dueFresh zones env device N s values n →
      Once (N ++ (entries zones k env device map values n s).2)
        (entries zones k env device map values n s).1 := by
  induction values with
  | nil =>
    intro n s N h hk _
    exact h.clearing hk map s.schedules 0
  | cons x values ih =>
    intro n s N h hk hfresh
    simp only [dueFresh, dueEntry] at hfresh
    simp only [ScheduleManager.entries]
    split_ifs at hfresh ⊢ with husable hdue
    · rw [List.append_nil]
      exact h.await hk rfl
    · -- due: what is run is what was just entered
      rw [← List.append_assoc, ← List.append_assoc]
      refine (((h.put map x).handle x.occurrence).install map).run hk ?_
      intro y hy
      obtain ⟨hget, hidle, -, hdev⟩ := runs_eq_some.1 hy
      have hyx : y = x := by
        have hget : ((s.maps map).set x.id x).get x.id = some y := by
          simpa [ScheduleManager.held, ScheduleManager.install, ScheduleManager.put] using hget
        rw [Dict.get_set_self] at hget
        exact (Option.some.inj hget).symm
      subst hyx
      refine ⟨?_, fun _ => List.mem_cons_self⟩
      intro b hb
      rw [(plain_install map).began, (plain_put map y).began] at hb
      cases b with
      | false => exact hdue.2 (h.handled _ hb)
      | true =>
        have hidle : y.id ∉ s.running := hidle
        simp [hidle, hdev, hb] at hfresh
    · rw [← List.append_assoc]
      refine ih (h.put map x) hk ?_
      simp only [dueFresh, (plain_put map x).began]
      exact hfresh

theorem Once.resume (h : Once N s) (hk : Idle s k) {point : SyncPoint}
    (hfresh : ∀ device map values, point = .entries device map values →
      dueFresh zones env device N s values 0) :
    Once (N ++ (s.resume zones k env point).2) (s.resume zones k env point).1 := by
  cases point with
  | entries device map values => exact h.entries hk (hfresh device map values rfl)
  | clearing map old index => exact h.clearing hk map old index

theorem Once.proceed (h : Once N s) {t : ScheduleTask} {x : BrowserScheduleDefinition}
    (hk : RunsAt s k x) (ht : t.running = some x) (hfetch : ∀ back, t ≠ .fetching x back)
    (hL : Plain L) : Once (N ++ L) (s.await k t) := by
  have hruns : ∀ j y, RunsAt (s.await k t) j y ↔ RunsAt s j y := by
    intro j y
    rw [runsAt_await]
    split_ifs with hj
    · subst hj
      rw [ht]
      constructor
      · rintro ⟨⟩
        exact hk
      · rintro ⟨t', ht', hy⟩
        obtain ⟨t'', ht'', hx⟩ := hk
        rw [ht'] at ht''
        cases ht''
        rw [← hx, hy]
    · rfl
  refine h.plain hL h.keys (List.Subset.refl _) ?_ ?_ ?_
  · intro j y hy
    rw [hruns] at hy
    exact ⟨hy, (h.running j y hy).1⟩
  · intro j y back hj
    by_cases hjk : j = k
    · subst hjk
      simp only [ScheduleManager.await, Function.update_self, Option.some.injEq] at hj
      subst hj
      cases ht
      exact absurd rfl (hfetch back)
    · simp only [ScheduleManager.await, Function.update_of_ne hjk] at hj
      exact ⟨back, hj⟩
  · intro id y hy
    exact .inr ⟨hy, fun j z hz _ => .inr ((hruns j z).2 hz)⟩

theorem Once.complete (h : Once N s) {x : BrowserScheduleDefinition} (hk : RunsAt s k x)
    (thrown : Option Text) (back : Option SyncPoint) :
    Once (N ++ (s.complete k env x thrown back).2) (s.complete k env x thrown back).1 := by
  unfold ScheduleManager.complete
  simp only
  split
  · exact h.proceed hk rfl (by simp) ⟨by simp, by simp⟩
  · exact h.proceed hk rfl (by simp) ⟨by simp, by simp⟩

/-- **A replay is started**, the only one of its run. -/
theorem Once.replay (h : Once N s) {x : BrowserScheduleDefinition} {back : Option SyncPoint}
    (hk : s.tasks k = some (.fetching x back)) :
    Once (N ++ [.replayed x.occurrence]) (s.await k (.replaying x back)) := by
  have hx : RunsAt s k x := ⟨_, hk, rfl⟩
  have hno := h.fetching k x back hk
  have hplain : Plain ([] : List ScheduleNote) := ⟨by simp, by simp⟩
  have hnext := h.proceed hx (t := .replaying x back) rfl (by simp) hplain
  rw [List.append_nil] at hnext
  have hbegan : ∀ {p b}, .began p b ∈ N ++ [.replayed x.occurrence] ↔ .began p b ∈ N := by simp
  refine ⟨hnext.keys, ?_, ?_, hnext.alone, ?_, ?_, ?_, ?_⟩
  · intro p hp
    exact hnext.handled p (hbegan.1 hp)
  · intro j y hy
    obtain ⟨hrun, b, hb⟩ := hnext.running j y hy
    exact ⟨hrun, b, hbegan.2 hb⟩
  · intro id y b hy hb
    exact (hnext.held id y b hy (hbegan.1 hb)).imp returned_append fun h => h
  · have hone : TideBot.replays [.replayed x.occurrence] = [x.occurrence] := rfl
    rw [replays_append, hone, List.nodup_append]
    refine ⟨h.replays, List.nodup_singleton _, ?_⟩
    intro p hp q hq
    rw [List.mem_singleton.1 hq]
    rintro rfl
    exact hno (mem_replays.1 hp)
  · intro p hp
    rcases List.mem_append.1 hp with hp | hp
    · obtain ⟨b, hb⟩ := h.replayed p hp
      exact ⟨b, hbegan.2 hb⟩
    · cases List.mem_singleton.1 hp
      obtain ⟨-, b, hb⟩ := h.running k x hx
      exact ⟨b, hbegan.2 hb⟩
  · intro j y back' hj hrep
    rcases List.mem_append.1 hrep with hrep | hrep
    · exact hnext.fetching j y back' hj hrep
    · -- a schedule is run by one task only
      have hy : RunsAt (s.await k (.replaying x back)) j y := ⟨_, hj, rfl⟩
      have hself : RunsAt (s.await k (.replaying x back)) k x := by
        rw [runsAt_await, if_pos rfl]
        rfl
      have hid : y.id = x.id := by
        injection List.mem_singleton.1 hrep with hocc
        exact congrArg Prod.fst hocc
      obtain rfl := hnext.alone j k y x hy hself hid
      simp [ScheduleManager.await] at hj

/-- **A run ends.**  What is held of its schedule was put in place, or its report has
    failed. -/
theorem Once.stop (h : Once N s) {x : BrowserScheduleDefinition} (hk : RunsAt s k x) (hL : Plain L)
    {maps : ℕ → Dict Text BrowserScheduleDefinition} {t : ScheduleTask} (ht : t.running = none)
    (hkeys : ∀ m id y, (maps m).get id = some y → y.id = id)
    (hheld : ∀ id y, (maps s.schedules).get id = some y → .placed y.occurrence ∈ L ∨
      s.held.get id = some y ∧ (y.occurrence = x.occurrence → .failed y.occurrence ∈ L)) :
    Once (N ++ L) (({ s with maps := maps }.stop x.id).await k t) := by
  have hruns : ∀ j y, RunsAt (({ s with maps := maps }.stop x.id).await k t) j y ↔
      RunsAt s j y ∧ j ≠ k := by
    intro j y
    rw [runsAt_await]
    split_ifs with hj
    · rw [ht]
      simp [hj]
    · simp only [hj, ne_eq, not_false_eq_true, and_true]
      rfl
  refine h.plain hL hkeys (List.Subset.refl _) ?_ ?_ ?_
  · intro j y hy
    obtain ⟨hy, hj⟩ := (hruns j y).1 hy
    refine ⟨hy, List.mem_filter.2 ⟨(h.running j y hy).1, ?_⟩⟩
    simp only [ne_eq, decide_not, Bool.not_eq_true', decide_eq_false_iff_not]
    exact fun heq => hj (h.alone j k y x hy hk heq)
  · intro j y back hj
    have hy : RunsAt (({ s with maps := maps }.stop x.id).await k t) j y := ⟨_, hj, rfl⟩
    have hjk := ((hruns j y).1 hy).2
    simp only [ScheduleManager.await, Function.update_of_ne hjk] at hj
    exact ⟨back, hj⟩
  · intro id y hy
    rcases hheld id y hy with hplaced | ⟨hold, hfail⟩
    · exact .inl hplaced
    · refine .inr ⟨hold, ?_⟩
      intro j z hz hzy
      by_cases hjk : j = k
      · subst hjk
        obtain ⟨t₁, ht₁, hzt⟩ := hz
        obtain ⟨t₂, ht₂, hxt⟩ := hk
        rw [ht₁] at ht₂
        cases ht₂
        rw [hzt] at hxt
        cases hxt
        exact .inl (hfail hzy.symm)
      · exact .inr ((hruns j z).2 ⟨hz, hjk⟩)

theorem Once.of_eq {r : ScheduleManager × List ScheduleNote} (hr : some r = some (s', L))
    (h : Once (N ++ r.2) r.1) : Once (N ++ L) s' := by
  obtain rfl := Option.some.inj hr
  exact h

/-- **One step.** -/
theorem Once.step {tr : List (ScheduleEvent × List ScheduleNote)} {e : ScheduleEvent}
    (h : Once (notes tr) s) (hC : fresh zones (tr, s) e)
    (hs : (scheduleManager zones).step s e = some (s', L)) : Once (notes tr ++ L) s' := by
  simp only [scheduleManager] at hs
  cases e with
  | sync k env values =>
    simp only [ScheduleManager.step] at hs
    split_ifs at hs with hk
    refine .of_eq hs ?_
    have hnew : Once (notes tr) { s with count := s.count + 1 } :=
      ⟨h.keys, h.handled, h.running, h.alone, h.held, h.replays, h.replayed, h.fetching⟩
    exact hnew.entries (Idle.of_new (by simpa using hk)) hC
  | alarm k env id =>
    simp only [ScheduleManager.step] at hs
    split_ifs at hs with hk
    have hidle : Idle s k := Idle.of_new (by simpa using hk)
    refine .of_eq hs (h.run hidle ?_)
    intro x hx
    refine ⟨?_, by simp⟩
    intro b hb
    obtain ⟨hget, hno, -⟩ := runs_eq_some.1 hx
    have hret : returned x.occurrence (notes tr) = false := by
      simpa [fresh, hx] using hC
    rcases h.held id x b hget hb with hyes | ⟨j, y, hy, heq⟩
    · rw [hret] at hyes
      cases hyes
    · have hid : y.id = id := (congrArg Prod.fst heq).trans (h.keys _ _ _ hget)
      exact hno (hid ▸ (h.running j y hy).1)
  | resume k env =>
    simp only [ScheduleManager.step] at hs
    split at hs
    · rename_i point hk
      refine .of_eq hs (h.resume (Idle.of_task hk rfl) ?_)
      rintro device map values rfl
      simpa [fresh, hk] using hC
    · cases hs
  | reject k =>
    simp only [ScheduleManager.step] at hs
    split at hs
    · rename_i point hk
      cases hs
      rw [List.append_nil]
      exact h.await (Idle.of_task hk rfl) rfl
    · cases hs
  | fetched k env thrown =>
    simp only [ScheduleManager.step] at hs
    split at hs
    · rename_i x back hk
      cases hs
      exact h.replay hk
    · rename_i x back code hk
      exact .of_eq hs (h.complete ⟨_, hk, rfl⟩ (some code) back)
    · cases hs
  | replayed k env thrown =>
    simp only [ScheduleManager.step] at hs
    split at hs
    · rename_i x back hk
      exact .of_eq hs (h.complete ⟨_, hk, rfl⟩ thrown back)
    · cases hs
  | completed k ok =>
    simp only [ScheduleManager.step] at hs
    split at hs
    · rename_i x lastRunAt nextRunAt back hk
      have hx : RunsAt s k x := ⟨_, hk, rfl⟩
      have hback : (afterRun back).running = none := by cases back <;> rfl
      split_ifs at hs
      · cases hs
        -- the next occurrence is put in the place of this one
        have hput := h.put s.schedules
          { x with lastRunAt := some lastRunAt, nextRunAt := some nextRunAt }
        refine h.stop hx (plain_put ..) hback hput.keys ?_
        intro id y hy
        rw [Function.update_self, Dict.get_set] at hy
        split_ifs at hy with hid
        · cases hy
          exact .inl (by simp [ScheduleManager.put])
        · refine .inr ⟨hy, ?_⟩
          intro heq
          have hyid := h.keys _ _ _ hy
          exact absurd (hyid.symm.trans (congrArg Prod.fst heq)) hid
      · cases hs
        refine h.stop hx ⟨by simp, by simp⟩ rfl h.keys ?_
        intro id y hy
        refine .inr ⟨hy, ?_⟩
        intro heq
        rw [heq]
        exact List.mem_singleton_self _
    · cases hs

/-! ## Runs -/

/-- **Each occurrence is replayed at most once**, in every run whose steps are fresh. -/
theorem replayedOnce_fresh {tr : List (ScheduleEvent × List ScheduleNote)}
    {y : List (ScheduleEvent × List ScheduleNote) × ScheduleManager}
    (h : (scheduleManager zones).recording.RunIn (fun x e => fresh zones x e) ([], .initial) tr y) :
    (replays (notes tr)).Nodup := by
  obtain ⟨rfl, -⟩ := h.recorded
  have honce : Once (notes y.1) y.2 := by
    have hinitial : Once (notes []) .initial := Once.initial
    refine h.invariant (I := fun y : List (ScheduleEvent × List ScheduleNote) × ScheduleManager =>
      Once (notes y.1) y.2) ?_ hinitial
    rintro ⟨tr, s⟩ e ⟨tr', s'⟩ L hC hI hrec
    obtain ⟨hs, htr⟩ := Machine.recording_step hrec
    simp only at hs htr
    subst htr
    have hnotes : notes (tr ++ [(e, L)]) = notes tr ++ L := by simp [notes]
    rw [hnotes]
    exact hI.step hC hs
  exact honce.replays

/-! ## A schedule that is run by an alarm -/

namespace Sample

def daily (nextRunAt : ℚ) : BrowserScheduleDefinition :=
  ⟨.lit "s", .lit "w", .lit "d", .lit "Daily", .lit "FREQ=DAILY", .lit "UTC", true, none, some nextRunAt⟩

def utc (zone : Text) : Bool := zone = .lit "UTC"

def deviceAt (now : ℚ) : ScheduleEnv := ⟨some (.lit "d"), fun _ => now⟩

/-- The schedule is read, its alarm fires, and the workflow is replayed. -/
def fired : List ScheduleEvent :=
  [.sync 0 (deviceAt 1000) [daily 2000], .alarm 1 (deviceAt 2000) (.lit "s"),
    .fetched 1 (deviceAt 2001) none, .replayed 1 (deviceAt 2002) none]

def caughtUp (k : ℕ) : List ScheduleEvent :=
  [.sync k (deviceAt 3000) [daily 2000], .fetched k (deviceAt 3001) none]

end Sample

/-- A run that was missed is made up for, once; another sync brings the same list. -/
theorem replayedOnce_fresh_missed :
    ∃ tr y, (scheduleManager Sample.utc).recording.RunIn (fun x e => fresh Sample.utc x e)
        ([], .initial) tr y ∧
      replays (notes tr) = [(.lit "s", some 2000)] ∧ (replays (notes tr)).Nodup := by
  obtain ⟨⟨tr, y⟩, hm, hrep⟩ :
      ∃ r ∈ (scheduleManager Sample.utc).recording.exec (fun x e => fresh Sample.utc x e)
        ([], .initial) (Sample.caughtUp 0 ++ [.replayed 0 (Sample.deviceAt 3002) none,
          .completed 0 false, .sync 1 (Sample.deviceAt 4000) [Sample.daily 2000]]),
      replays (notes r.1) = [(.lit "s", some 2000)] := by
    decide +kernel
  have hr := Machine.runIn_of_exec hm
  exact ⟨tr, y, hr, hrep, replayedOnce_fresh hr⟩

/-- The report of a run by an alarm fails, and the next sync runs the occurrence again. -/
theorem replayedOnce_fails :
    ∃ tr s, (scheduleManager Sample.utc).Run .initial tr s ∧
      tr.map Prod.fst = Sample.fired ++ [.completed 1 false] ++ Sample.caughtUp 2 ∧
      ¬ (replays (notes tr)).Nodup := by
  obtain ⟨⟨tr, s⟩, hm, hrep⟩ :
      ∃ r ∈ (scheduleManager Sample.utc).exec (fun _ _ => True) .initial
        (Sample.fired ++ [.completed 1 false] ++ Sample.caughtUp 2),
      replays (notes r.1) = [(.lit "s", some 2000), (.lit "s", some 2000)] := by
    decide +kernel
  refine ⟨tr, s, Machine.runIn_of_exec hm, Machine.inputs_of_exec hm, ?_⟩
  rw [hrep]
  decide

end TideBot
