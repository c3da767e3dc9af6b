/-
  The action audit (`models/browser_extension.py`, `BrowserActionAuditTable`).

  Every call of a browser tool leaves a row.  `insert` writes it, deletes what of the user's rows goes beyond the
  retention limit (the oldest by `created_at`, and by `id` among rows of one time), commits, and reads the new row
  again; that raises if the new row is among those deleted.

  The new row stays if fewer rows of the user than the limit are ahead of it (`Retained`): rows that a clock that was
  further on has written, or rows of the same time with a greater id.  `auditKept_step`: all else that is asked of the
  audit (`AuditKept`) holds of every insertion.

  Ids are ordered as the database orders them.
-/
import TideBot.Lib.Machine
import TideBot.Lib.Newest
import TideBot.Lib.Table
import TideBot.Protocol.Redaction

namespace TideBot

open Lib

/-! ## The rows -/

/-- A row of `browser_action_audit` (`BrowserActionAudit`). -/
structure BrowserActionAudit (ι : Type) where
  id : ι
  userId : Text
  deviceId : Text
  sessionId : Text
  chatId : Option Text
  commandId : Text
  action : Text
  origin : Text
  outcome : Text
  risk : Text
  summary : Text
  createdAt : ℤ
deriving DecidableEq

/-- The primary key. -/
def AuditConstraints {ι : Type} (rows : List (BrowserActionAudit ι)) : Prop :=
  (rows.map BrowserActionAudit.id).Nodup

/-- The table `browser_action_audit`. -/
abbrev BrowserActionAudits (ι : Type) := Table (BrowserActionAudit ι) AuditConstraints

instance {ι : Type} [DecidableEq ι] : DecidablePred (AuditConstraints (ι := ι)) := fun rows =>
  inferInstanceAs (Decidable (rows.map BrowserActionAudit.id).Nodup)

/-- The arguments of `insert`; `id` is the `uuid4` that is drawn, and `now` what `_now_ns` gives. -/
structure AuditInsert (ι : Type) where
  id : ι
  userId : Text
  deviceId : Text
  sessionId : Text
  chatId : Option Text
  commandId : Text
  action : Text
  origin : Text
  outcome : Text
  risk : Text
  summary : Text
  retentionLimit : ℤ
  now : ℤ

/-- How `insert` raises: the row cannot be written, or it cannot be read again. -/
inductive AuditError where
  | integrityError
  | invalidRequestError
deriving DecidableEq

theorem AuditConstraints.sublist {ι : Type} {l l' : List (BrowserActionAudit ι)} (h : l'.Sublist l)
    (hl : AuditConstraints l) : AuditConstraints l' :=
  List.Nodup.sublist (h.map _) hl

section
variable {ι : Type} [LinearOrder ι] (py : PyText)

/-- `order_by(created_at, id)` -/
def BrowserActionAudit.position (r : BrowserActionAudit ι) : ℤ ×ₗ ι := toLex (r.createdAt, r.id)

namespace AuditInsert

variable (f : AuditInsert ι)

/-- The row that is written. -/
def row : BrowserActionAudit ι where
  id := f.id
  userId := f.userId
  deviceId := f.deviceId
  sessionId := f.sessionId
  chatId := f.chatId
  commandId := f.commandId
  action := redactString py f.action
  origin := redactString py f.origin
  outcome := f.outcome
  risk := f.risk
  summary := redactString py f.summary
  createdAt := f.now

/-- `keep` -/
def keep : ℕ := (max 1 f.retentionLimit).toNat

/-- The rows of the user. -/
def own (audits : BrowserActionAudits ι) : List (BrowserActionAudit ι) :=
  audits.select fun r => r.userId = f.userId

/-- `stale_ids` -/
def staleIds (audits : BrowserActionAudits ι) : List ι :=
  (stale BrowserActionAudit.position f.keep (f.own audits)).map BrowserActionAudit.id

end AuditInsert

/-- The deletion of what goes beyond the retention limit. -/
def AuditInsert.pruned (f : AuditInsert ι) (audits : BrowserActionAudits ι) : BrowserActionAudits ι :=
  if f.staleIds audits = [] then audits
  else audits.delete AuditConstraints.sublist fun r => r.id ∈ f.staleIds audits

/-- `BrowserActionAuditTable.insert` -/
def AuditInsert.insert (f : AuditInsert ι) (audits : BrowserActionAudits ι) :
    BrowserActionAudits ι × Except AuditError (BrowserActionAudit ι) :=
  match audits.insert (f.row py) with
  | none => (audits, .error .integrityError)
  | some written =>
    let committed := f.pruned written
    match committed.find BrowserActionAudit.id f.id with
    | some r => (committed, .ok r)
    | none => (committed, .error .invalidRequestError)

/-- Calls of `insert`, one after the other. -/
def auditMachine : Machine (BrowserActionAudits ι) (AuditInsert ι) (Except AuditError (BrowserActionAudit ι)) where
  step audits f := some (f.insert py audits)

/-! ## What an insertion keeps -/

/-- What is asked of an insertion `f`: it returns its own row, which is stored; the user has no more rows than the
    limit; no row of the user is removed that is newer than one that is kept, but for the inserted one; and the rows
    of others stay as they are. -/
structure AuditKept (audits : BrowserActionAudits ι) (f : AuditInsert ι) (audits' : BrowserActionAudits ι)
    (answer : Except AuditError (BrowserActionAudit ι)) : Prop where
  stored : answer = .ok (f.row py) ∧ f.row py ∈ audits'.rows
  bounded : (f.own audits').length ≤ max 1 f.retentionLimit
  newest : ∀ r ∈ audits.rows ++ [f.row py], r ∉ audits'.rows → ∀ kept ∈ f.own audits', kept ≠ f.row py →
    r.createdAt ≤ kept.createdAt
  others : ∀ user ≠ f.userId, (audits'.select fun r => r.userId = user) = audits.select fun r => r.userId = user

/-- The id drawn for the row is new, and fewer rows of the user than the limit are ahead of it: later ones, or ones
    of the same time that have a greater id. -/
def Retained (audits : BrowserActionAudits ι) (f : AuditInsert ι) : Prop :=
  f.id ∉ audits.rows.map BrowserActionAudit.id ∧
    (f.own audits).countP (fun r => f.now < r.createdAt ∨ f.now = r.createdAt ∧ f.id < r.id) <
      max 1 f.retentionLimit

variable {py} {audits written : BrowserActionAudits ι} {f : AuditInsert ι}

omit [LinearOrder ι] in
theorem mem_own_iff {r : BrowserActionAudit ι} : r ∈ f.own audits ↔ r ∈ audits.rows ∧ r.userId = f.userId := by
  rw [AuditInsert.own, Table.select, List.mem_filter, decide_eq_true_eq]

omit [LinearOrder ι] in
theorem position_injOn (audits : BrowserActionAudits ι) :
    ((f.own audits).map BrowserActionAudit.position).Nodup := by
  have hids : ((f.own audits).map BrowserActionAudit.id).Nodup :=
    AuditConstraints.sublist List.filter_sublist audits.ok
  have hmap : (f.own audits).map BrowserActionAudit.id =
      ((f.own audits).map BrowserActionAudit.position).map fun k => (ofLex k).2 := by
    rw [List.map_map]
    rfl
  rw [hmap] at hids
  exact hids.of_map

theorem mem_staleIds_iff {r : BrowserActionAudit ι} (hr : r ∈ audits.rows) :
    r.id ∈ f.staleIds audits ↔ r ∈ stale BrowserActionAudit.position f.keep (f.own audits) := by
  rw [AuditInsert.staleIds, List.mem_map]
  refine ⟨?_, fun h => ⟨r, h, rfl⟩⟩
  rintro ⟨r', hr', hid⟩
  have hmem := (mem_own_iff.1 ((mem_stale_iff (position_injOn audits)).1 hr').1).1
  rwa [List.inj_on_of_nodup_map audits.ok hmem hr hid] at hr'

theorem rows_pruned (audits : BrowserActionAudits ι) :
    (f.pruned audits).rows = audits.rows.filter fun r => r.id ∉ f.staleIds audits := by
  rw [AuditInsert.pruned]
  split_ifs with hnone
  · rw [hnone]
    simp
  · simp [Table.delete]

theorem mem_pruned_iff {r : BrowserActionAudit ι} : r ∈ (f.pruned audits).rows ↔
    r ∈ audits.rows ∧ r ∉ stale BrowserActionAudit.position f.keep (f.own audits) := by
  rw [rows_pruned, List.mem_filter, decide_eq_true_eq]
  exact and_congr_right fun hr => not_congr (mem_staleIds_iff hr)

/-- **The limit is kept.** -/
theorem length_own_pruned : ((f.own (f.pruned audits)).length : ℤ) ≤ max 1 f.retentionLimit := by
  have hle : (f.own (f.pruned audits)).length ≤ f.keep := by
    rw [AuditInsert.own, Table.select, rows_pruned, List.filter_comm, ← Table.select]
    refine length_kept (position_injOn audits) fun r hr => ?_
    rw [decide_eq_true_eq]
    exact not_congr (mem_staleIds_iff (mem_own_iff.1 hr).1)
  rw [AuditInsert.keep] at hle
  omega

/-- **What is removed is not newer than what is kept.** -/
theorem createdAt_le_of_pruned {r kept : BrowserActionAudit ι} (hr : r ∈ audits.rows)
    (hgone : r ∉ (f.pruned audits).rows) (hkept : kept ∈ f.own (f.pruned audits)) :
    r.createdAt ≤ kept.createdAt := by
  obtain ⟨hmem, huser⟩ := mem_own_iff.1 hkept
  obtain ⟨hmem, hnot⟩ := mem_pruned_iff.1 hmem
  have hstale : r ∈ stale BrowserActionAudit.position f.keep (f.own audits) := by
    by_contra hstale
    exact hgone (mem_pruned_iff.2 ⟨hr, hstale⟩)
  have hle := le_of_mem_stale (position_injOn audits) hstale (mem_own_iff.2 ⟨hmem, huser⟩) hnot
  rcases Prod.Lex.toLex_le_toLex.1 hle with hlt | ⟨heq, -⟩
  · exact hlt.le
  · exact heq.le

/-- **The rows of other users stay.** -/
theorem select_pruned {user : Text} (huser : user ≠ f.userId) :
    ((f.pruned audits).select fun r => r.userId = user) = audits.select fun r => r.userId = user := by
  rw [Table.select, Table.select, rows_pruned, List.filter_filter]
  refine List.filter_congr fun r hr => ?_
  by_cases hu : r.userId = user
  · have hnot : r.id ∉ f.staleIds audits := by
      rw [mem_staleIds_iff hr, mem_stale_iff (position_injOn audits), mem_own_iff]
      rintro ⟨⟨-, hown⟩, -⟩
      exact huser (hu.symm.trans hown)
    simp [hu, hnot]
  · simp [hu]

/-- **The row that is written stays** if fewer rows than the limit are ahead of it. -/
theorem row_mem_pruned_iff (hrows : written.rows = audits.rows ++ [f.row py]) :
    f.row py ∈ (f.pruned written).rows ↔
      (f.own audits).countP (fun r => f.now < r.createdAt ∨ f.now = r.createdAt ∧ f.id < r.id) <
        max 1 f.retentionLimit := by
  have hmem : f.row py ∈ written.rows := by rw [hrows]; simp
  have hown : f.own written = f.own audits ++ [f.row py] := by
    rw [AuditInsert.own, AuditInsert.own, Table.select, Table.select, hrows, List.filter_append]
    simp [AuditInsert.row]
  have hahead : ahead BrowserActionAudit.position (f.own written) (f.row py).position =
      (f.own audits).countP fun r => f.now < r.createdAt ∨ f.now = r.createdAt ∧ f.id < r.id := by
    rw [ahead, hown, List.countP_append, List.countP_singleton]
    simp only [BrowserActionAudit.position, Prod.Lex.toLex_lt_toLex, AuditInsert.row, lt_irrefl, decide_false,
      Bool.false_eq_true, if_false, Nat.add_zero]
  have hkeep : (f.keep : ℤ) = max 1 f.retentionLimit := Int.toNat_of_nonneg (by omega)
  rw [mem_pruned_iff, mem_stale_iff (position_injOn written), hahead, and_iff_right hmem,
    and_iff_right (mem_own_iff.2 ⟨hmem, rfl⟩), not_le, ← hkeep, Nat.cast_lt]

theorem insert_of_new (hnew : f.id ∉ audits.rows.map BrowserActionAudit.id) :
    ∃ written, audits.insert (f.row py) = some written ∧ written.rows = audits.rows ++ [f.row py] := by
  have hK : AuditConstraints (audits.rows ++ [f.row py]) := by
    rw [AuditConstraints, List.map_append, List.nodup_append]
    refine ⟨audits.ok, List.nodup_singleton _, ?_⟩
    rintro _ hid _ hnew' rfl
    rw [List.mem_singleton.1 hnew'] at hid
    exact hnew hid
  exact ⟨⟨_, hK⟩, by rw [Table.insert, dif_pos hK], rfl⟩

theorem insert_written (hwritten : audits.insert (f.row py) = some written) :
    f.insert py audits = (f.pruned written, match (f.pruned written).find BrowserActionAudit.id f.id with
      | some r => .ok r
      | none => .error .invalidRequestError) := by
  rw [AuditInsert.insert, hwritten]
  rcases hfind : (f.pruned written).find BrowserActionAudit.id f.id with _ | r <;> simp only [hfind]

/-- **One insertion**: what is asked of it is so just if its row stays. -/
theorem auditKept_step : AuditKept py audits f (f.insert py audits).1 (f.insert py audits).2 ↔ Retained audits f := by
  by_cases hnew : f.id ∈ audits.rows.map BrowserActionAudit.id
  · have hnone : audits.insert (f.row py) = none := by
      rw [Table.insert, dif_neg]
      intro hK
      rw [AuditConstraints, List.map_append, List.nodup_append] at hK
      exact hK.2.2 _ hnew _ (List.mem_singleton.2 rfl) rfl
    rw [AuditInsert.insert, hnone]
    refine iff_of_false (fun h => ?_) fun h => h.1 hnew
    cases h.stored.1
  · obtain ⟨written, hwritten, hrows⟩ := (insert_of_new hnew : ∃ written, audits.insert (f.row py) = some written ∧ _)
    rw [Retained, and_iff_right hnew, ← row_mem_pruned_iff hrows, insert_written hwritten]
    constructor
    · intro h
      exact h.stored.2
    · intro hmem
      have hfind : (f.pruned written).find BrowserActionAudit.id f.id = some (f.row py) :=
        Table.find_of_mem _ (f.pruned written).ok hmem
      refine ⟨⟨by simp only [hfind], hmem⟩, length_own_pruned, ?_, ?_⟩
      · intro r hr hgone kept hkept _
        rw [← hrows] at hr
        exact createdAt_le_of_pruned hr hgone hkept
      · intro user huser
        rw [select_pruned huser, Table.select, Table.select, hrows, List.filter_append]
        simp [AuditInsert.row, huser.symm]

/-- An insertion whose row does not stay raises, after what it has deleted is committed. -/
theorem insert_raises (hnew : f.id ∉ audits.rows.map BrowserActionAudit.id) (hpruned : ¬Retained audits f) :
    (f.insert py audits).2 = .error .invalidRequestError := by
  obtain ⟨written, hwritten, hrows⟩ := (insert_of_new hnew : ∃ written, audits.insert (f.row py) = some written ∧ _)
  rw [Retained, and_iff_right hnew, ← row_mem_pruned_iff hrows] at hpruned
  have hnone : (f.pruned written).find BrowserActionAudit.id f.id = none := by
    refine List.find?_eq_none.2 fun r hr hid => ?_
    have hrow : f.row py ∈ written.rows := by rw [hrows]; simp
    have hr' : r ∈ written.rows := (mem_pruned_iff.1 hr).1
    exact hpruned (List.inj_on_of_nodup_map written.ok hr' hrow (of_decide_eq_true hid) ▸ hr)
  rw [insert_written hwritten]
  simp only [hnone]

/-- **The action audit keeps its newest entries**: at every call of every run, all that is asked of it is so just if
    the row of the call stays. -/
theorem auditKept_iff {audits₀ : BrowserActionAudits ι}
    {tr : List (AuditInsert ι × Except AuditError (BrowserActionAudit ι))} {audits : BrowserActionAudits ι}
    (hrun : (auditMachine py).Run audits₀ tr audits) {earlier later f answer}
    (htr : tr = earlier ++ (f, answer) :: later) :
    ∃ before after, (auditMachine py).Run audits₀ earlier before ∧
      (auditMachine py).step before f = some (after, answer) ∧ (auditMachine py).Run after later audits ∧
      (AuditKept py before f after answer ↔ Retained before f) := by
  subst htr
  obtain ⟨before, after, hbefore, -, hstep, hafter⟩ := hrun.split
  refine ⟨before, after, hbefore, hstep, hafter, ?_⟩
  obtain ⟨rfl, rfl⟩ := Prod.mk.inj (Option.some.inj hstep)
  exact auditKept_step

end

namespace Sample

def auditedClick (id : ℕ) (now : ℤ) : AuditInsert ℕ where
  id := id
  userId := .lit "u"
  deviceId := .lit "d"
  sessionId := .lit "s"
  chatId := none
  commandId := .lit "c"
  action := .lit "click"
  origin := .lit "https://example.com"
  outcome := .lit "success"
  risk := .lit "low"
  summary := .lit "click completed"
  retentionLimit := 1
  now := now

/-- The audit after one click, by a worker whose clock is at 5. -/
def clickAudits : BrowserActionAudits ℕ := ⟨[(auditedClick 1 5).row asciiText], by simp [AuditConstraints]⟩

end Sample

/-- The next click, at 7, replaces it. -/
theorem auditKept_iff_click : ∃ answer audits, (auditMachine asciiText).Run Sample.clickAudits
    [(Sample.auditedClick 2 7, answer)] audits ∧
      ∃ before after, (auditMachine asciiText).Run Sample.clickAudits [] before ∧
        (auditMachine asciiText).step before (Sample.auditedClick 2 7) = some (after, answer) ∧
        (auditMachine asciiText).Run after [] audits ∧
        (AuditKept asciiText before (Sample.auditedClick 2 7) after answer ↔
          Retained before (Sample.auditedClick 2 7)) := by
  have hrun : (auditMachine asciiText).Run Sample.clickAudits [(Sample.auditedClick 2 7, _)] _ := .cons trivial rfl .nil
  exact ⟨_, _, hrun, auditKept_iff hrun (List.nil_append [_]).symm⟩

/-- A worker whose clock is still at 3 writes a row, deletes it, and raises. -/
theorem auditKept_fails : ∃ after, (auditMachine asciiText).Run Sample.clickAudits
    [(Sample.auditedClick 2 3, .error .invalidRequestError)] after ∧
      ¬AuditKept asciiText Sample.clickAudits (Sample.auditedClick 2 3) after (.error .invalidRequestError) := by
  have hpruned : ¬Retained Sample.clickAudits (Sample.auditedClick 2 3) := by
    rintro ⟨-, hahead⟩
    exact absurd hahead (by decide)
  have hraises : (AuditInsert.insert asciiText _ _).2 = _ := insert_raises (by decide) hpruned
  have hstep : (auditMachine asciiText).step Sample.clickAudits (Sample.auditedClick 2 3) =
      some (((Sample.auditedClick 2 3).insert asciiText Sample.clickAudits).1, .error .invalidRequestError) := by
    rw [← hraises]
    rfl
  refine ⟨_, .cons trivial hstep .nil, ?_⟩
  rw [← hraises]
  exact mt auditKept_step.1 hpruned

end TideBot
