/-
  Claiming due automations (`models/automations.py`).

  `claim_due` selects rows, and updates them: on PostgreSQL the selection locks the rows until the
  transaction ends, and skips those that are locked; on other databases other calls may come
  between.  `toggle` reads a row and updates it.

  A call is kept from its first step to its last one.  `claimed` counts the claims of an automation;
  the code does not see it.
-/
import TideBot.Lib.Dict
import TideBot.Lib.Machine
import TideBot.Lib.Text

namespace TideBot

open Lib

/-- An `Automation`. -/
structure Automation where
  userId : Text
  rrule : Text
  isActive : Bool
  nextRunAt : Option ℤ
  lastRunAt : Option ℤ
  claimed : ℕ

/-- A row that a call of `claim_due` has selected, as it was. -/
structure PickedRow where
  id : Text
  userId : Text
  rrule : Text
  nextRunAt : ℤ
  claimed : ℕ
deriving DecidableEq

/-- A call of `claim_due` after its SELECT. -/
structure ClaimCall where
  nowNs : ℤ
  picked : List PickedRow

/-- A call of `toggle` after it has read the row. -/
structure ToggleCall where
  id : Text
  nextRunAt : Option ℤ
  wasActive : Bool

/-- The table `automation`, the time zones of the users, and the calls under way. -/
structure AutomationDb where
  rows : Dict Text Automation
  timezones : Dict Text Text
  claims : Dict ℕ ClaimCall
  toggles : Dict ℕ ToggleCall

namespace AutomationDb

/-- Is the row selected by a call of `claim_due` under way? -/
def selected (s : AutomationDb) (id : Text) : Bool :=
  s.claims.entries.any fun e => e.2.picked.any fun p => p.id = id

/-- The row, if it is due. -/
def pick (nowNs : ℤ) (e : Text × Automation) : Option PickedRow :=
  match e.2.nextRunAt with
  | some nextRunAt =>
    if e.2.isActive ∧ nextRunAt ≤ nowNs then some ⟨e.1, e.2.userId, e.2.rrule, nextRunAt, e.2.claimed⟩ else none
  | none => none

/-- The SELECT of `claim_due`. -/
def dueRows (postgres : Bool) (s : AutomationDb) (nowNs : ℤ) (limit : ℕ) : List PickedRow :=
  (((s.rows.entries.filterMap (pick nowNs)).filter fun p => !(postgres && s.selected p.id)).mergeSort
    fun p q => p.nextRunAt ≤ q.nextRunAt).take limit

end AutomationDb

/-- A step of a call. -/
inductive AutomationStep where
  | claimRead (call : ℕ) (nowNs : ℤ) (limit : ℕ)
  | claimWrite (call : ℕ) (clock : ℤ)
  | toggleRead (call : ℕ) (id : Text) (nextRunAt : Option ℤ)
  | toggleWrite (call : ℕ)

section
variable (postgres : Bool) (nextRunNs : Text → Option Text → ℤ → Option (Option ℤ))

/-- What `claim_due` makes of a row it has selected; `next_run_ns` may raise. -/
def claimedRow (s : AutomationDb) (nowNs clock : ℤ) (p : PickedRow) (row : Automation) : Option Automation :=
  (nextRunNs p.rrule (s.timezones.get p.userId) clock).map fun nextRunAt =>
    { row with lastRunAt := some nowNs, nextRunAt := nextRunAt, claimed := row.claimed + 1 }

/-- The rows after the UPDATEs of `claim_due`. -/
def claimedRows (s : AutomationDb) (c : ClaimCall) (clock : ℤ) : Dict Text Automation :=
  s.rows.mapWithKey fun id row =>
    ((c.picked.find? fun p => p.id = id).bind fun p => claimedRow nextRunNs s c.nowNs clock p row).getD row

/-- The calls of `claim_due` and `toggle` on one database, whose steps interleave.  A call of `claim_due`
    returns the automations with the `next_run_at` it has claimed them for; one that raises returns
    nothing and is rolled back. -/
def automationMachine : Machine AutomationDb AutomationStep (List (Text × ℤ)) where
  step s
    | .claimRead call nowNs limit =>
      if (s.claims.get call).isSome then none
      else some ({ s with claims := s.claims.set call ⟨nowNs, s.dueRows postgres nowNs limit⟩ }, [])
    | .claimWrite call clock =>
      match s.claims.get call with
      | none => none
      | some c =>
        let s' := { s with claims := s.claims.erase call }
        if c.picked.all fun p => (nextRunNs p.rrule (s.timezones.get p.userId) clock).isSome then
          some ({ s' with rows := claimedRows nextRunNs s c clock }, c.picked.map fun p => (p.id, p.nextRunAt))
        else some (s', [])
    | .toggleRead call id nextRunAt =>
      if (s.toggles.get call).isSome then none
      else
        match s.rows.get id with
        | none => some (s, [])
        | some row => some ({ s with toggles := s.toggles.set call ⟨id, nextRunAt, row.isActive⟩ }, [])
    | .toggleWrite call =>
      match s.toggles.get call with
      | none => none
      | some t =>
        -- the row is locked
        if postgres && s.selected t.id then none
        else
          let s' := { s with toggles := s.toggles.erase call }
          match s.rows.get t.id with
          | none => some (s', [])
          | some row =>
            let row := { row with
              isActive := !t.wasActive
              nextRunAt := if !t.wasActive then t.nextRunAt else none }
            some ({ s' with rows := s.rows.set t.id row }, [])

/-! ## When a claim is made once -/

/-- The automation has not been claimed since it was selected. -/
def Unclaimed (rows : Dict Text Automation) (p : PickedRow) : Prop :=
  ∀ row ∈ rows.get p.id, row.claimed = p.claimed

/-- **The condition on a step**: what a call of `claim_due` updates has not been claimed by another one
    in between (unless rows are locked), and the next run that is stored is later than the last one. -/
def ClaimFits (s : AutomationDb) : AutomationStep → Prop
  | .claimWrite call clock => ∀ c ∈ s.claims.get call, ∀ p ∈ c.picked, (postgres ∨ Unclaimed s.rows p) ∧
      ∀ next ∈ nextRunNs p.rrule (s.timezones.get p.userId) clock, ∀ n ∈ next, c.nowNs < n
  | .toggleWrite call => ∀ t ∈ s.toggles.get call, ∀ row ∈ s.rows.get t.id,
      t.wasActive ∨ ∀ n ∈ t.nextRunAt, ∀ l ∈ row.lastRunAt, l < n
  | .claimRead .. | .toggleRead .. => True

instance (rows : Dict Text Automation) (p : PickedRow) : Decidable (Unclaimed rows p) :=
  inferInstanceAs (Decidable (∀ row ∈ rows.get p.id, row.claimed = p.claimed))

instance (s : AutomationDb) : (i : AutomationStep) → Decidable (ClaimFits postgres nextRunNs s i)
  | .claimWrite .. => inferInstanceAs (Decidable (∀ _ ∈ _, ∀ _ ∈ _, (_ ∨ _) ∧ ∀ _ ∈ _, ∀ _ ∈ _, _))
  | .toggleWrite _ => inferInstanceAs (Decidable (∀ _ ∈ _, ∀ _ ∈ _, _ ∨ ∀ _ ∈ _, ∀ _ ∈ _, _))
  | .claimRead .. | .toggleRead .. => inferInstanceAs (Decidable True)

end

/-- The claims that have been returned. -/
def returnedClaims (tr : List (AutomationStep × List (Text × ℤ))) : List (Text × ℤ) := tr.flatMap Prod.snd

/-- What is known of a row that is selected: it is due, and if it has not been claimed since, every claim
    of it was for an earlier run. -/
structure PickFits (rows : Dict Text Automation) (log : List (Text × ℤ)) (nowNs : ℤ) (p : PickedRow) : Prop where
  due : p.nextRunAt ≤ nowNs
  row : ∃ row, rows.get p.id = some row ∧ p.claimed ≤ row.claimed ∧
    (row.claimed = p.claimed → ∀ v, (p.id, v) ∈ log → v < p.nextRunAt)

/-- Each claim of an automation was for a later run than those before it. -/
structure ClaimedOnce (postgres : Bool) (s : AutomationDb) (log : List (Text × ℤ)) : Prop where
  nodup : log.Nodup
  last : ∀ id v, (id, v) ∈ log → ∃ row l, s.rows.get id = some row ∧ row.lastRunAt = some l ∧ v ≤ l ∧
    ∀ n, row.nextRunAt = some n → v < n
  picked : ∀ call c, s.claims.get call = some c → (c.picked.map PickedRow.id).Nodup ∧
    ∀ p ∈ c.picked, PickFits s.rows log c.nowNs p
  locked : postgres → ∀ call c, s.claims.get call = some c → ∀ p ∈ c.picked, Unclaimed s.rows p ∧
    ∀ call' c', s.claims.get call' = some c' → call' ≠ call → ∀ q ∈ c'.picked, q.id ≠ p.id

section
variable {postgres : Bool} {nextRunNs : Text → Option Text → ℤ → Option (Option ℤ)}
variable {s s' : AutomationDb} {log : List (Text × ℤ)} {call limit : ℕ} {nowNs clock : ℤ} {p q : PickedRow}
variable {c : ClaimCall} {row : Automation} {id : Text}

/-! ## Selections -/

theorem pick_eq_some {e : Text × Automation} (h : AutomationDb.pick nowNs e = some p) :
    p.id = e.1 ∧ p.claimed = e.2.claimed ∧ e.2.nextRunAt = some p.nextRunAt ∧ p.nextRunAt ≤ nowNs := by
  unfold AutomationDb.pick at h
  split at h
  · rename_i n hn
    split_ifs at h with hdue
    cases h
    exact ⟨rfl, rfl, hn, hdue.2⟩
  · cases h

theorem mem_dueRows (h : p ∈ s.dueRows postgres nowNs limit) : ∃ row, s.rows.get p.id = some row ∧
    p.claimed = row.claimed ∧ row.nextRunAt = some p.nextRunAt ∧ p.nextRunAt ≤ nowNs ∧
      (postgres → ¬ s.selected p.id) := by
  have hmem := List.mem_mergeSort.1 (List.mem_of_mem_take h)
  rw [List.mem_filter, List.mem_filterMap] at hmem
  obtain ⟨⟨e, he, hpick⟩, hfree⟩ := hmem
  obtain ⟨hid, hclaimed, hnext, hdue⟩ := pick_eq_some hpick
  refine ⟨e.2, ?_, hclaimed, hnext, hdue, ?_⟩
  · rw [hid]
    exact Dict.mem_entries_iff.1 he
  · rintro rfl
    simpa using hfree

theorem nodup_dueRows : ((s.dueRows postgres nowNs limit).map PickedRow.id).Nodup := by
  have hsub : ((s.dueRows postgres nowNs limit).map PickedRow.id).Sublist
      ((((s.rows.entries.filterMap (AutomationDb.pick nowNs)).filter fun p =>
        !(postgres && s.selected p.id)).mergeSort fun p q => p.nextRunAt ≤ q.nextRunAt).map PickedRow.id) :=
    (List.take_sublist _ _).map _
  refine hsub.nodup ?_
  refine ((List.mergeSort_perm _ _).map PickedRow.id).nodup_iff.2 ?_
  refine (List.filter_sublist.map PickedRow.id).nodup ?_
  have hids : (s.rows.entries.filterMap (AutomationDb.pick nowNs)).map PickedRow.id =
      s.rows.entries.filterMap fun e => (AutomationDb.pick nowNs e).map PickedRow.id := by
    rw [List.map_filterMap]
  rw [hids]
  have hkeys : (s.rows.entries.filterMap fun e => (AutomationDb.pick nowNs e).map PickedRow.id).Sublist
      (s.rows.entries.map Prod.fst) := by
    have hopt : ∀ e : Text × Automation, (AutomationDb.pick nowNs e).map PickedRow.id =
        if (AutomationDb.pick nowNs e).isSome then some e.1 else none := by
      intro e
      cases h : AutomationDb.pick nowNs e with
      | none => rfl
      | some p => simp [(pick_eq_some h).1]
    simp only [hopt]
    induction s.rows.entries with
    | nil => exact List.Sublist.slnil
    | cons e es ih =>
      rw [List.filterMap_cons, List.map_cons]
      by_cases he : (AutomationDb.pick nowNs e).isSome
      · rw [if_pos he]
        exact ih.cons_cons _
      · rw [if_neg he]
        exact ih.cons _
  exact hkeys.nodup s.rows.nodup

theorem selected_iff : s.selected id ↔ ∃ call c, s.claims.get call = some c ∧ ∃ p ∈ c.picked, p.id = id := by
  simp only [AutomationDb.selected, List.any_eq_true, decide_eq_true_eq, Prod.exists, Dict.mem_entries_iff]

/-! ## The steps -/

namespace ClaimedOnce

theorem claimRead (h : ClaimedOnce postgres s log) :
    ClaimedOnce postgres { s with claims := s.claims.set call ⟨nowNs, s.dueRows postgres nowNs limit⟩ } log := by
  have hdue : ∀ p ∈ s.dueRows postgres nowNs limit, PickFits s.rows log nowNs p ∧ Unclaimed s.rows p ∧
      (postgres → ∀ call' c', s.claims.get call' = some c' → ∀ q ∈ c'.picked, q.id ≠ p.id) := by
    intro p hp
    obtain ⟨row, hrow, hclaimed, hnext, hdue, hfree⟩ := mem_dueRows hp
    refine ⟨⟨hdue, row, hrow, hclaimed.le, fun _ v hv => ?_⟩, ?_, fun hpg call' c' hc' q hq heq => ?_⟩
    · obtain ⟨row', l, hrow', -, -, hlater⟩ := h.last p.id v hv
      obtain rfl := Option.some.inj (hrow.symm.trans hrow')
      exact hlater p.nextRunAt hnext
    · intro row' hrow'
      obtain rfl := Option.some.inj (hrow.symm.trans hrow')
      exact hclaimed.symm
    · exact hfree hpg (selected_iff.2 ⟨call', c', hc', q, hq, heq⟩)
  refine ⟨h.nodup, h.last, ?_, ?_⟩
  · intro call' c' hc'
    simp only [Dict.get_set] at hc'
    split_ifs at hc'
    · cases hc'
      exact ⟨nodup_dueRows, fun p hp => (hdue p hp).1⟩
    · exact h.picked call' c' hc'
  · intro hpg call' c' hc' p hp
    simp only [Dict.get_set] at hc' ⊢
    split_ifs at hc' with heq
    · cases hc'
      refine ⟨(hdue p hp).2.1, fun call'' c'' hc'' hne q hq => ?_⟩
      rw [if_neg (heq ▸ hne)] at hc''
      exact (hdue p hp).2.2 hpg call'' c'' hc'' q hq
    · obtain ⟨hsame, hothers⟩ := h.locked hpg call' c' hc' p hp
      refine ⟨hsame, fun call'' c'' hc'' hne q hq => ?_⟩
      split_ifs at hc''
      · cases hc''
        exact ((hdue q hq).2.2 hpg call' c' hc' p hp).symm
      · exact hothers call'' c'' hc'' hne q hq

theorem drop (h : ClaimedOnce postgres s log) : ClaimedOnce postgres { s with claims := s.claims.erase call } log := by
  have hstays : ∀ {call' c'}, (s.claims.erase call).get call' = some c' → s.claims.get call' = some c' := by
    intro call' c' hc'
    rw [Dict.get_erase] at hc'
    split_ifs at hc'
    exact hc'
  refine ⟨h.nodup, h.last, fun call' c' hc' => h.picked call' c' (hstays hc'), ?_⟩
  intro hpg call' c' hc' p hp
  obtain ⟨hsame, hothers⟩ := h.locked hpg call' c' (hstays hc') p hp
  exact ⟨hsame, fun call'' c'' hc'' => hothers call'' c'' (hstays hc'')⟩

theorem find_picked (hnd : (c.picked.map PickedRow.id).Nodup) (hp : p ∈ c.picked) :
    (c.picked.find? fun q => q.id = p.id) = some p := by
  rcases h : c.picked.find? fun q => q.id = p.id with _ | q
  · exact absurd (List.find?_eq_none.1 h p hp) (by simp)
  · exact h ▸ congrArg some
      (List.inj_on_of_nodup_map hnd (List.mem_of_find?_eq_some h) hp (by simpa using List.find?_some h))

theorem get_claimedRows (hnd : (c.picked.map PickedRow.id).Nodup)
    (hall : ∀ p ∈ c.picked, (nextRunNs p.rrule (s.timezones.get p.userId) clock).isSome) (id : Text) :
    (∃ p ∈ c.picked, ∃ next, p.id = id ∧ nextRunNs p.rrule (s.timezones.get p.userId) clock = some next ∧
      (claimedRows nextRunNs s c clock).get id = (s.rows.get id).map fun row =>
        { row with lastRunAt := some c.nowNs, nextRunAt := next, claimed := row.claimed + 1 }) ∨
    ((∀ p ∈ c.picked, p.id ≠ id) ∧ (claimedRows nextRunNs s c clock).get id = s.rows.get id) := by
  rw [claimedRows, Dict.get_mapWithKey]
  by_cases hin : ∃ p ∈ c.picked, p.id = id
  · obtain ⟨p, hp, rfl⟩ := hin
    obtain ⟨next, hnext⟩ := Option.isSome_iff_exists.1 (hall p hp)
    refine .inl ⟨p, hp, next, rfl, hnext, ?_⟩
    simp [find_picked hnd hp, claimedRow, hnext]
  · push Not at hin
    have hnone : (c.picked.find? fun p => p.id = id) = none :=
      List.find?_eq_none.2 fun p hp => by simpa using hin p hp
    exact .inr ⟨hin, by simp [hnone]⟩

/-- **A call of `claim_due` updates the rows.** -/
theorem claimWrite (h : ClaimedOnce postgres s log) (hc : s.claims.get call = some c)
    (hfits : ClaimFits postgres nextRunNs s (.claimWrite call clock))
    (hall : ∀ p ∈ c.picked, (nextRunNs p.rrule (s.timezones.get p.userId) clock).isSome) :
    ClaimedOnce postgres { s with claims := s.claims.erase call, rows := claimedRows nextRunNs s c clock }
      (log ++ c.picked.map fun p => (p.id, p.nextRunAt)) := by
  obtain ⟨hnd, hpicked⟩ := h.picked call c hc
  have hget := get_claimedRows hnd hall
  have hfresh : ∀ p ∈ c.picked, Unclaimed s.rows p := by
    intro p hp
    rcases (hfits c hc p hp).1 with hpg | hun
    · exact (h.locked hpg call c hc p hp).1
    · exact hun
  have hbefore : ∀ p ∈ c.picked, ∀ v, (p.id, v) ∈ log → v < p.nextRunAt := by
    intro p hp
    obtain ⟨row, hrow, -, hless⟩ := (hpicked p hp).row
    exact hless (hfresh p hp row hrow)
  have hmem : ∀ {id v}, (id, v) ∈ log ++ c.picked.map (fun p => (p.id, p.nextRunAt)) ↔
      (id, v) ∈ log ∨ ∃ p ∈ c.picked, p.id = id ∧ p.nextRunAt = v := by
    simp
  have hothers : ∀ {call' c'}, (s.claims.erase call).get call' = some c' →
      call' ≠ call ∧ s.claims.get call' = some c' := by
    intro call' c' hc'
    rw [Dict.get_erase] at hc'
    split_ifs at hc' with hne
    exact ⟨hne, hc'⟩
  refine ⟨?_, ?_, ?_, ?_⟩
  · refine List.nodup_append.2 ⟨h.nodup, ?_, ?_⟩
    · have hfst : (c.picked.map fun p => (p.id, p.nextRunAt)).map Prod.fst = c.picked.map PickedRow.id := by
        rw [List.map_map]
        rfl
      exact List.Nodup.of_map Prod.fst (hfst ▸ hnd)
    · rintro ⟨id, v⟩ hlog e he rfl
      obtain ⟨p, hp, heq⟩ := List.mem_map.1 he
      cases heq
      exact lt_irrefl _ (hbefore p hp _ hlog)
  · intro id v hv
    rcases hget id with ⟨p, hp, next, rfl, hnext, hrow'⟩ | ⟨hnot, hrow'⟩
    · obtain ⟨row, hrow, -⟩ := (hpicked p hp).row
      rw [hrow] at hrow'
      have hle : v ≤ p.nextRunAt := by
        rcases hmem.1 hv with hv | ⟨q, hq, hid, rfl⟩
        · exact (hbefore p hp v hv).le
        · rw [List.inj_on_of_nodup_map hnd hq hp hid]
      have hdue := (hpicked p hp).due
      refine ⟨_, c.nowNs, hrow', rfl, hle.trans hdue, fun n hn => ?_⟩
      simp only at hn
      have hlater := (hfits c hc p hp).2 _ hnext n hn
      omega
    · have hv' : (id, v) ∈ log := by
        refine (hmem.1 hv).resolve_right ?_
        rintro ⟨p, hp, hid, -⟩
        exact hnot p hp hid
      obtain ⟨row, l, hrow, hrest⟩ := h.last id v hv'
      exact ⟨row, l, hrow'.trans hrow, hrest⟩
  · intro call' c' hc'
    obtain ⟨hne, hc'⟩ := hothers hc'
    obtain ⟨hnd', hpicked'⟩ := h.picked call' c' hc'
    refine ⟨hnd', fun q hq => ⟨(hpicked' q hq).due, ?_⟩⟩
    obtain ⟨row, hrow, hle, hless⟩ := (hpicked' q hq).row
    rcases hget q.id with ⟨p, hp, next, hid, -, hrow'⟩ | ⟨hnot, hrow'⟩
    · rw [hrow] at hrow'
      refine ⟨_, hrow', Nat.le_succ_of_le hle, fun heq => ?_⟩
      simp only at heq
      omega
    · refine ⟨row, hrow'.trans hrow, hle, fun heq v hv => hless heq v ?_⟩
      refine (hmem.1 hv).resolve_right ?_
      rintro ⟨p, hp, hid, -⟩
      exact hnot p hp hid
  · intro hpg call' c' hc' q hq
    obtain ⟨hne, hc'⟩ := hothers hc'
    obtain ⟨hsame, hdisjoint⟩ := h.locked hpg call' c' hc' q hq
    refine ⟨?_, fun call'' c'' hc'' => hdisjoint call'' c'' (hothers hc'').2⟩
    intro row hrow
    rcases hget q.id with ⟨p, hp, next, hid, -, -⟩ | ⟨-, hrow'⟩
    · exact absurd hid (hdisjoint call c hc hne.symm p hp)
    · exact hsame row (hrow'.symm.trans hrow)

/-- **A call of `toggle` updates a row.** -/
theorem toggleWrite (h : ClaimedOnce postgres s log) (hrow : s.rows.get id = some row) (active : Bool)
    (nextRunAt : Option ℤ) (hlater : ∀ n l, nextRunAt = some n → row.lastRunAt = some l → l < n) :
    ClaimedOnce postgres
      { s with rows := s.rows.set id { row with isActive := active, nextRunAt := nextRunAt } } log := by
  have hget : ∀ {id' row₀}, s.rows.get id' = some row₀ → ∃ row',
      (s.rows.set id { row with isActive := active, nextRunAt := nextRunAt }).get id' = some row' ∧
        row'.claimed = row₀.claimed ∧ row'.lastRunAt = row₀.lastRunAt ∧
          (row'.nextRunAt = row₀.nextRunAt ∨ (row₀ = row ∧ row'.nextRunAt = nextRunAt)) := by
    intro id' row₀ hrow₀
    rw [Dict.get_set]
    split_ifs with heq
    · rw [heq, hrow] at hrow₀
      cases hrow₀
      exact ⟨_, rfl, rfl, rfl, .inr ⟨rfl, rfl⟩⟩
    · exact ⟨row₀, hrow₀, rfl, rfl, .inl rfl⟩
  have hunclaimed : ∀ p : PickedRow, Unclaimed s.rows p →
      Unclaimed (s.rows.set id { row with isActive := active, nextRunAt := nextRunAt }) p := by
    intro p hp row' hrow'
    rw [Dict.get_set] at hrow'
    split_ifs at hrow' with heq
    · cases hrow'
      exact hp row (heq ▸ hrow)
    · exact hp row' hrow'
  refine ⟨h.nodup, ?_, ?_, ?_⟩
  · intro id' v hv
    obtain ⟨row₀, l, hrow₀, hlast, hle, hless⟩ := h.last id' v hv
    obtain ⟨row', hrow', -, hlast', hnext⟩ := hget hrow₀
    refine ⟨row', l, hrow', hlast'.trans hlast, hle, fun n hn => ?_⟩
    rcases hnext with hnext | ⟨rfl, hnext⟩
    · exact hless n (hnext ▸ hn)
    · exact hle.trans_lt (hlater n l (hnext ▸ hn) hlast)
  · intro call c hc
    obtain ⟨hnd, hpicked⟩ := h.picked call c hc
    refine ⟨hnd, fun p hp => ⟨(hpicked p hp).due, ?_⟩⟩
    obtain ⟨row₀, hrow₀, hle, hless⟩ := (hpicked p hp).row
    obtain ⟨row', hrow', hclaimed, -⟩ := hget hrow₀
    exact ⟨row', hrow', hclaimed ▸ hle, fun heq => hless (hclaimed ▸ heq)⟩
  · intro hpg call c hc p hp
    obtain ⟨hsame, hothers⟩ := h.locked hpg call c hc p hp
    exact ⟨hunclaimed p hsame, hothers⟩

/-- **The step lemma.** -/
theorem step {i : AutomationStep} {o : List (Text × ℤ)} (h : ClaimedOnce postgres s log)
    (hfits : ClaimFits postgres nextRunNs s i) (hs : (automationMachine postgres nextRunNs).step s i = some (s', o)) :
    ClaimedOnce postgres s' (log ++ o) := by
  cases i with
  | claimRead call nowNs limit =>
    simp only [automationMachine] at hs
    split_ifs at hs
    cases hs
    rw [List.append_nil]
    exact h.claimRead
  | claimWrite call clock =>
    simp only [automationMachine] at hs
    split at hs
    · cases hs
    · rename_i c hc
      split_ifs at hs with hall
      · cases hs
        exact h.claimWrite hc hfits (by simpa using hall)
      · cases hs
        rw [List.append_nil]
        exact h.drop
  | toggleRead call id nextRunAt =>
    simp only [automationMachine] at hs
    split_ifs at hs
    split at hs
    all_goals
      cases hs
      rw [List.append_nil]
      exact ⟨h.nodup, h.last, h.picked, h.locked⟩
  | toggleWrite call =>
    simp only [automationMachine] at hs
    split at hs
    · cases hs
    rename_i t ht
    by_cases hlocked : postgres && s.selected t.id
    · rw [if_pos hlocked] at hs
      cases hs
    rw [if_neg hlocked] at hs
    split at hs
    · cases hs
      rw [List.append_nil]
      exact ⟨h.nodup, h.last, h.picked, h.locked⟩
    · rename_i row hrow
      cases hs
      rw [List.append_nil]
      have hset := h.toggleWrite hrow (!t.wasActive) (if !t.wasActive then t.nextRunAt else none) ?_
      · exact ⟨hset.nodup, hset.last, hset.picked, hset.locked⟩
      · intro n l hn hl
        rcases hfits t ht row hrow with hactive | hlater
        · simp [hactive] at hn
        · split_ifs at hn
          exact hlater n hn l hl

end ClaimedOnce

/-! ## Runs -/

/-- **No occurrence is claimed twice.**  In every run whose steps meet the condition, from a state without
    calls under way, no two claims of an automation were for the same `next_run_at`. -/
theorem claimedOnce {tr : List (AutomationStep × List (Text × ℤ))}
    (h : (automationMachine postgres nextRunNs).RunIn (ClaimFits postgres nextRunNs) s tr s')
    (hidle : s.claims.entries = []) : (returnedClaims tr).Nodup := by
  have hstart : ClaimedOnce postgres s [] := by
    have hnone : ∀ call, s.claims.get call = none := fun call => by
      rw [Dict.get, hidle]
      rfl
    exact ⟨List.nodup_nil, by simp, fun call c hc => absurd hc (by simp [hnone]),
      fun _ call c hc => absurd hc (by simp [hnone])⟩
  have hinv := h.traceInvariant (I := fun tr s => ClaimedOnce postgres s (returnedClaims tr)) ?_ hstart
  · exact hinv.nodup
  · intro tr s i t o hfits hI hs
    have hstep := hI.step hfits hs
    rwa [returnedClaims, List.flatMap_append, List.flatMap_singleton]

end

namespace Sample

/-- An automation that is due at 5, and runs every ten units. -/
def dueDb : AutomationDb :=
  ⟨Dict.empty.set (.lit "a") ⟨.lit "u", .lit "r", true, some 5, none, 0⟩, .empty, .empty, .empty⟩

def everyTen : Text → Option Text → ℤ → Option (Option ℤ) := fun _ _ clock => some (some (clock + 10))

end Sample

/-- Two calls after each other, with a call of `toggle` under way. -/
theorem claimedOnce_twice : ∃ tr s', (automationMachine false Sample.everyTen).RunIn
    (ClaimFits false Sample.everyTen) Sample.dueDb tr s' ∧
      returnedClaims tr = [(.lit "a", 5), (.lit "a", 16)] ∧ (returnedClaims tr).Nodup := by
  obtain ⟨⟨tr, s'⟩, hm, hreturned⟩ : ∃ r ∈ (automationMachine false Sample.everyTen).exec
      (ClaimFits false Sample.everyTen) Sample.dueDb [.claimRead 0 5 10, .toggleRead 0 (.lit "b") none,
        .claimWrite 0 6, .claimRead 1 20 10, .claimWrite 1 20],
      returnedClaims r.1 = [(.lit "a", 5), (.lit "a", 16)] := by
    decide +kernel
  exact ⟨tr, s', Machine.runIn_of_exec hm, hreturned, claimedOnce (Machine.runIn_of_exec hm) rfl⟩

/-- Two calls select a row before either updates it. -/
theorem claimedOnce_fails : ∃ tr s', (automationMachine false Sample.everyTen).Run Sample.dueDb tr s' ∧
    returnedClaims tr = [(.lit "a", 5), (.lit "a", 5)] := by
  obtain ⟨⟨tr, s'⟩, hm, hreturned⟩ : ∃ r ∈ (automationMachine false Sample.everyTen).exec (fun _ _ => True)
      Sample.dueDb [.claimRead 0 5 10, .claimRead 1 5 10, .claimWrite 0 6, .claimWrite 1 6],
      returnedClaims r.1 = [(.lit "a", 5), (.lit "a", 5)] := by
    decide +kernel
  exact ⟨tr, s', Machine.runIn_of_exec hm, hreturned⟩

end TideBot
