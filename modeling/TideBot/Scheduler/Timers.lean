/-
  Timers (`utils/timers.py`): a chat whose row says when its prompt is to be put into its parent chat.

  `claim_due_timers` moves due rows from pending to running, and an execution is started for each;
  `execute_due_timer` inserts the prompt, or moves the row back to pending if the parent is busy;
  `cancel_timers_for_chat` moves pending rows to cancelled.  Each of them reads rows and writes
  back what it has made of them.  PostgreSQL locks the rows that a claim has selected.

  A claim id is a number that is used once, and names the execution that is started for it.  Whether
  the parent, the prompt, the user and the model are found, and whether the parent has active
  tasks, is decided outside.
-/
import TideBot.Lib.Dict
import TideBot.Lib.Machine
import TideBot.Lib.Text

namespace TideBot

open Lib

/-! ## Rows -/

/-- `meta['status']` -/
inductive TimerStatus where
  | pending
  | running
  | cancelled
  | completed
  | error
deriving DecidableEq

/-- An event that cancels timers. -/
inductive CancelEvent where
  | chatRead
  | chatUserMessage
deriving DecidableEq

/-- What is used of the `meta` of a timer. -/
structure TimerMeta where
  parentChatId : Text
  dueAt : ℤ
  status : TimerStatus
  claimId : Option ℕ
  cancelOn : List CancelEvent
deriving DecidableEq

/-- The row of a timer. -/
structure Timer where
  userId : Text
  timerAt : Option ℤ
  metadata : TimerMeta
deriving DecidableEq

/-! ## Calls -/

/-- A call of `claim_due_timers` after its SELECT, with the rows it has selected, as they were. -/
structure TimerClaim where
  worker : ℕ
  picked : List (Text × Timer)

/-- A call of `cancel_timers_for_chat`: the timers it is for, and, after its SELECT, the rows it has
    selected. -/
structure TimerCancel where
  parentChatId : Text
  event : CancelEvent
  userId : Text
  targets : List Text
  picked : Option (List (Text × Timer))

/-- Where an execution is. -/
inductive ExecPc where
  /-- before `_timer_locks` -/
  | start
  | locked
  /-- the timer has been read, and is running under this claim -/
  | checked (metadata : TimerMeta)
  /-- before `_parent_locks` -/
  | waiting (metadata : TimerMeta)
  | parentLocked (metadata : TimerMeta)
  /-- the parent is busy; with the row that has been read, if it has -/
  | busy (row : Option (Option Timer))
  /-- the same for a parent that is idle -/
  | idle (row : Option (Option Timer))
  /-- the prompt is in the chat -/
  | inserted
  /-- `_set_timer_state` -/
  | failing (row : Option Timer)

/-- An execution: in which process, and of which timer. -/
structure TimerExec where
  worker : ℕ
  timerId : Text
  pc : ExecPc

/-- The rows, and the calls under way. -/
structure TimerDb where
  rows : Dict Text Timer
  claims : Dict ℕ TimerClaim
  cancels : Dict ℕ TimerCancel
  execs : Dict ℕ TimerExec
  nextClaim : ℕ

/-- A step. -/
inductive TimerStep where
  /-- `create_timer` -/
  | create (id userId parentChatId : Text) (dueAt : ℤ) (cancelOn : List CancelEvent)
  | claimRead (call worker : ℕ) (nowNs : ℤ) (limit : ℕ)
  | claimWrite (call : ℕ)
  | cancelCall (call : ℕ) (parentChatId : Text) (event : CancelEvent) (userId : Text)
  | cancelRead (call : ℕ)
  | cancelWrite (call : ℕ)
  /-- a step of an execution, with what it finds: a thing that is there, tasks that are active, … -/
  | exec (claimId : ℕ) (found busy : Bool)

/-- What a step does that is seen from outside. -/
inductive TimerOutcome where
  | none
  /-- the prompt of the timer is put into the parent chat -/
  | inserted (timer : Text)
  /-- a call of `cancel_timers_for_chat` for these timers is over -/
  | cancelled (timers : List Text)
deriving DecidableEq

/-! ## The database -/

namespace TimerDb

/-- The row is locked by a claim that has selected it. -/
def lockedRow (postgres : Bool) (s : TimerDb) (id : Text) : Bool :=
  postgres && s.claims.entries.any fun e => e.2.picked.any fun p => p.1 = id

/-- The SELECT of `claim_due_timers`. -/
def dueTimers (postgres : Bool) (s : TimerDb) (nowNs : ℤ) (limit : ℕ) : List (Text × Timer) :=
  ((s.rows.entries.filter fun e => (e.2.timerAt.any fun at' => at' ≤ nowNs) &&
    e.2.metadata.status = .pending && !s.lockedRow postgres e.1).mergeSort
      fun e e' => e.2.timerAt.getD 0 ≤ e'.2.timerAt.getD 0).take limit

/-- Is the row a timer of this chat and owner that the event cancels? -/
def cancelledBy (parentChatId : Text) (event : CancelEvent) (userId : Text) (t : Timer) : Bool :=
  t.userId = userId && t.metadata.parentChatId = parentChatId && event ∈ t.metadata.cancelOn

/-- The SELECT of `cancel_timers_for_chat`, with the test for the event. -/
def pendingTimers (s : TimerDb) (parentChatId : Text) (event : CancelEvent) (userId : Text) : List (Text × Timer) :=
  s.rows.entries.filter fun e => e.2.timerAt.isSome && e.2.metadata.status = .pending &&
    cancelledBy parentChatId event userId e.2

/-- UPDATE of rows, each to something that is made of what has been read of it. -/
def writeRows (rows : Dict Text Timer) (picked : List (Text × Timer)) (f : Timer → Timer → Timer) : Dict Text Timer :=
  rows.mapWithKey fun id row =>
    match picked.find? fun p => p.1 = id with
    | some p => f p.2 row
    | none => row

/-- UPDATE of one row. -/
def writeRow (rows : Dict Text Timer) (id : Text) (f : Timer → Timer) : Dict Text Timer :=
  rows.mapWithKey fun id' row => if id' = id then f row else row

end TimerDb

/-- What a claim writes. -/
def claimedTimer (claimId : ℕ) (read row : Timer) : Timer :=
  { row with timerAt := none, metadata := { read.metadata with status := .running, claimId := some claimId } }

/-- What a cancellation writes. -/
def cancelledTimer (read row : Timer) : Timer :=
  { row with timerAt := none, metadata := { read.metadata with status := .cancelled } }

/-- What an execution writes that finds its parent busy. -/
def postponedTimer (read row : Timer) : Timer :=
  { row with
    timerAt := some read.metadata.dueAt
    metadata := { read.metadata with status := .pending, claimId := none } }

/-- What an execution writes with the prompt. -/
def completedTimer (read row : Timer) : Timer :=
  { row with metadata := { read.metadata with status := .completed } }

/-- What `_set_timer_state(…, 'error')` writes. -/
def failedTimer (read row : Timer) : Timer := { row with metadata := { read.metadata with status := .error } }

/-- The executions that a claim starts, from the claim id `n` on. -/
def startExecs (execs : Dict ℕ TimerExec) (worker : ℕ) : ℕ → List (Text × Timer) → Dict ℕ TimerExec
  | _, [] => execs
  | n, p :: rest => startExecs (execs.set n ⟨worker, p.1, .start⟩) worker (n + 1) rest

/-- The claim id that a row gets. -/
def claimIdOf (n : ℕ) (picked : List (Text × Timer)) (id : Text) : ℕ := n + picked.findIdx fun p => p.1 = id

/-! ## Executions -/

/-- Does the execution hold the lock of its timer? -/
def ExecPc.holdsTimer : ExecPc → Bool
  | .start => false
  | _ => true

/-- The parent chat whose lock the execution holds. -/
def ExecPc.holdsParent : ExecPc → Bool
  | .parentLocked _ | .busy _ | .idle _ => true
  | _ => false

namespace TimerDb

variable (postgres : Bool) (s : TimerDb)

/-- Is the lock of the timer free in the process? -/
def timerLockFree (e : TimerExec) : Bool :=
  s.execs.entries.all fun e' => !(e'.2.worker = e.worker && e'.2.timerId = e.timerId && e'.2.pc.holdsTimer)

/-- The parent chat of a timer. -/
def parentOf (id : Text) : Option Text := (s.rows.get id).map fun t => t.metadata.parentChatId

/-- Is the lock of the parent chat free in the process? -/
def parentLockFree (e : TimerExec) : Bool :=
  s.execs.entries.all fun e' =>
    !(e'.2.worker = e.worker && s.parentOf e'.2.timerId = s.parentOf e.timerId && e'.2.pc.holdsParent)

/-- The execution goes on. -/
def goOn (claimId : ℕ) (e : TimerExec) (pc : ExecPc) : TimerDb :=
  { s with execs := s.execs.set claimId { e with pc := pc } }

/-- The execution returns. -/
def finish (claimId : ℕ) : TimerDb := { s with execs := s.execs.erase claimId }

/-- A step of `execute_due_timer`. -/
def execStep (claimId : ℕ) (e : TimerExec) (found busy : Bool) : Option (TimerDb × TimerOutcome) :=
  match e.pc with
  | .start => if s.timerLockFree e then some (s.goOn claimId e .locked, .none) else none
  | .locked =>
    match s.rows.get e.timerId with
    | none => some (s.finish claimId, .none)
    | some t =>
      if t.metadata.status ≠ .running ∨ t.metadata.claimId ≠ some claimId then some (s.finish claimId, .none)
      else some (s.goOn claimId e (.checked t.metadata), .none)
  | .checked metadata =>
    -- the parent, the prompt, the user and the model
    if found then some (s.goOn claimId e (.waiting metadata), .none)
    else some (s.goOn claimId e (.failing none), .none)
  | .waiting metadata =>
    if s.parentLockFree e then some (s.goOn claimId e (.parentLocked metadata), .none) else none
  | .parentLocked _ =>
    if !found then some (s.goOn claimId e (.failing none), .none)
    else if busy then some (s.goOn claimId e (.busy none), .none)
    else some (s.goOn claimId e (.idle none), .none)
  | .busy none => some (s.goOn claimId e (.busy (some (s.rows.get e.timerId))), .none)
  | .busy (some none) => some (s.finish claimId, .none)
  | .busy (some (some read)) =>
    if s.lockedRow postgres e.timerId then none
    else some ({ s.finish claimId with rows := writeRow s.rows e.timerId (postponedTimer read) }, .none)
  | .idle none => some (s.goOn claimId e (.idle (some (s.rows.get e.timerId))), .none)
  | .idle (some none) => some (s.goOn claimId e .inserted, .inserted e.timerId)
  | .idle (some (some read)) =>
    if s.lockedRow postgres e.timerId then none
    else some ({ s.goOn claimId e .inserted with rows := writeRow s.rows e.timerId (completedTimer read) },
      .inserted e.timerId)
  | .inserted =>
    -- the completion of the chat fails, or not
    if found then some (s.finish claimId, .none) else some (s.goOn claimId e (.failing none), .none)
  | .failing none =>
    match s.rows.get e.timerId with
    | none => some (s.finish claimId, .none)
    | some t => some (s.goOn claimId e (.failing (some t)), .none)
  | .failing (some read) =>
    if s.lockedRow postgres e.timerId then none
    else some ({ s.finish claimId with rows := writeRow s.rows e.timerId (failedTimer read) }, .none)

end TimerDb

/-- The timers, under interleaved calls. -/
def timerMachine (postgres : Bool) : Machine TimerDb TimerStep TimerOutcome where
  step s
    | .create id userId parentChatId dueAt cancelOn =>
      if (s.rows.get id).isSome then none
      else some ({ s with
        rows := s.rows.set id ⟨userId, some dueAt, ⟨parentChatId, dueAt, .pending, none, cancelOn⟩⟩ }, .none)
    | .claimRead call worker nowNs limit =>
      if (s.claims.get call).isSome then none
      else some ({ s with claims := s.claims.set call ⟨worker, s.dueTimers postgres nowNs limit⟩ }, .none)
    | .claimWrite call =>
      match s.claims.get call with
      | none => none
      | some c =>
        some ({ s with
          claims := s.claims.erase call
          rows := s.rows.mapWithKey fun id row =>
            match c.picked.find? fun p => p.1 = id with
            | some p => claimedTimer (claimIdOf s.nextClaim c.picked id) p.2 row
            | none => row
          execs := startExecs s.execs c.worker s.nextClaim c.picked
          nextClaim := s.nextClaim + c.picked.length }, .none)
    | .cancelCall call parentChatId event userId =>
      if (s.cancels.get call).isSome then none
      else
        let targets := (s.rows.entries.filter fun e => TimerDb.cancelledBy parentChatId event userId e.2).map Prod.fst
        some ({ s with cancels := s.cancels.set call ⟨parentChatId, event, userId, targets, none⟩ }, .none)
    | .cancelRead call =>
      match s.cancels.get call with
      | some c =>
        if c.picked.isSome then none
        else
          let picked := s.pendingTimers c.parentChatId c.event c.userId
          some ({ s with cancels := s.cancels.set call { c with picked := some picked } }, .none)
      | none => none
    | .cancelWrite call =>
      match s.cancels.get call with
      | some c =>
        match c.picked with
        | none => none
        | some picked =>
          if picked.any fun p => s.lockedRow postgres p.1 then none
          else some ({ s with
            cancels := s.cancels.erase call
            rows := TimerDb.writeRows s.rows picked cancelledTimer }, .cancelled c.targets)
      | none => none
    | .exec claimId found busy =>
      match s.execs.get claimId with
      | none => none
      | some e => s.execStep postgres claimId e found busy

/-! ## When a timer fires once -/

/-- The timer is over. -/
def TimerStatus.ended : TimerStatus → Bool
  | .pending | .running => false
  | .cancelled | .completed | .error => true

/-- The timer is over. -/
def TimerOver (rows : Dict Text Timer) (id : Text) : Prop :=
  (rows.get id).any fun t => t.metadata.status.ended

/-- The timer runs under the claim. -/
def RunsUnder (rows : Dict Text Timer) (claimId : ℕ) (id : Text) : Prop :=
  (rows.get id).any fun t => t.metadata.status = .running && t.metadata.claimId = some claimId

/-- The row is as it was read. -/
def AsRead (rows : Dict Text Timer) (p : Text × Timer) : Prop :=
  (rows.get p.1).all fun t => t.metadata = p.2.metadata

instance (rows : Dict Text Timer) (id : Text) : Decidable (TimerOver rows id) :=
  inferInstanceAs (Decidable ((rows.get id).any _ = true))

instance (rows : Dict Text Timer) (p : Text × Timer) : Decidable (AsRead rows p) :=
  inferInstanceAs (Decidable ((rows.get p.1).all _ = true))

/-- **The condition on a step**: what a claim or a cancellation writes to is as it was read, and each
    timer that a cancellation is for is one that it has read, as pending, or is over when it ends. -/
def TimerFits (s : TimerDb) : TimerStep → Prop
  | .claimWrite call => ∀ c ∈ s.claims.get call, ∀ p ∈ c.picked, AsRead s.rows p
  | .cancelWrite call => ∀ c ∈ s.cancels.get call, ∀ picked ∈ c.picked, (∀ p ∈ picked, AsRead s.rows p) ∧
      ∀ t ∈ c.targets, t ∈ picked.map Prod.fst ∨ TimerOver s.rows t
  | .create .. | .claimRead .. | .cancelCall .. | .cancelRead .. | .exec .. => True

instance (s : TimerDb) : (i : TimerStep) → Decidable (TimerFits s i)
  | .claimWrite _ => inferInstanceAs (Decidable (∀ _ ∈ _, ∀ _ ∈ _, _))
  | .cancelWrite _ => inferInstanceAs (Decidable (∀ _ ∈ _, ∀ _ ∈ _, (∀ _ ∈ _, _) ∧ ∀ _ ∈ _, _ ∨ _))
  | .create .. | .claimRead .. | .cancelCall .. | .cancelRead .. | .exec .. => inferInstanceAs (Decidable True)

/-- The outcome settles the timer: its prompt is in the chat, or it has been cancelled. -/
def Settles (o : TimerOutcome) (t : Text) : Prop :=
  o = .inserted t ∨ ∃ ts, o = .cancelled ts ∧ t ∈ ts

/-- **No timer fires after it has fired or been cancelled.** -/
def FiresOnce (tr : List (TimerStep × TimerOutcome)) : Prop :=
  tr.Pairwise fun e e' => ∀ t, e'.2 = .inserted t → ¬ Settles e.2 t

/-- What an execution may rely on. -/
def ExecOk (rows : Dict Text Timer) (claimId : ℕ) (e : TimerExec) : Prop :=
  match e.pc with
  | .start | .locked => True
  | .checked _ | .waiting _ | .parentLocked _ => RunsUnder rows claimId e.timerId
  | .busy row | .idle row => RunsUnder rows claimId e.timerId ∧ row ≠ some none
  | .inserted | .failing _ => RunsUnder rows claimId e.timerId ∨ TimerOver rows e.timerId

/-- What is selected is there. -/
def HasRows (rows : Dict Text Timer) (ids : List Text) : Prop := ∀ id ∈ ids, (rows.get id).isSome

/-- What is selected was pending. -/
def Pending (picked : List (Text × Timer)) : Prop := ∀ p ∈ picked, p.2.metadata.status = .pending

/-- The invariant. -/
structure TimersOk (tr : List (TimerStep × TimerOutcome)) (s : TimerDb) : Prop where
  once : FiresOnce tr
  settled : ∀ e ∈ tr, ∀ t, Settles e.2 t → TimerOver s.rows t
  execs : ∀ c e, s.execs.get c = some e → ExecOk s.rows c e
  claims : ∀ call c, s.claims.get call = some c → Pending c.picked
  cancels : ∀ call c picked, s.cancels.get call = some c → c.picked = some picked →
    Pending picked ∧ HasRows s.rows (picked.map Prod.fst)

section
variable {postgres : Bool} {rows rows' : Dict Text Timer} {s s' : TimerDb} {tr : List (TimerStep × TimerOutcome)}
variable {claimId c : ℕ} {id : Text} {e e' : TimerExec} {i : TimerStep} {o : TimerOutcome}
variable {picked : List (Text × Timer)} {p : Text × Timer}

/-! ## Rows that are written -/

theorem over_iff : TimerOver rows id ↔ ∃ t, rows.get id = some t ∧ t.metadata.status.ended := by
  simp [TimerOver, Option.any_eq_true]

theorem runsUnder_iff : RunsUnder rows c id ↔
    ∃ t, rows.get id = some t ∧ t.metadata.status = .running ∧ t.metadata.claimId = some c := by
  simp [RunsUnder, Option.any_eq_true]

theorem RunsUnder.unique (h : RunsUnder rows c id) (h' : RunsUnder rows claimId id) : c = claimId := by
  obtain ⟨t, ht, -, hc⟩ := runsUnder_iff.1 h
  obtain ⟨t', ht', -, hc'⟩ := runsUnder_iff.1 h'
  obtain rfl := Option.some.inj (ht.symm.trans ht')
  exact Option.some.inj (hc.symm.trans hc')

theorem RunsUnder.not_over (h : RunsUnder rows c id) : ¬ TimerOver rows id := by
  intro hover
  obtain ⟨t, ht, hrun, -⟩ := runsUnder_iff.1 h
  obtain ⟨t', ht', hover⟩ := over_iff.1 hover
  obtain rfl := Option.some.inj (ht.symm.trans ht')
  rw [hrun] at hover
  cases hover

/-- What is known of the timers is kept, except by the execution that writes. -/
structure KeepsTimers (acting : Option ℕ) (rows rows' : Dict Text Timer) : Prop where
  stays : ∀ id, (rows.get id).isSome → (rows'.get id).isSome
  ended : ∀ id, TimerOver rows id → TimerOver rows' id
  runs : ∀ c id, some c ≠ acting → RunsUnder rows c id → RunsUnder rows' c id

variable {acting : Option ℕ}

theorem KeepsTimers.refl (acting : Option ℕ) (rows : Dict Text Timer) : KeepsTimers acting rows rows :=
  ⟨fun _ => id, fun _ => id, fun _ _ _ => id⟩

theorem ExecOk.keep (h : ExecOk rows c e) (hk : KeepsTimers acting rows rows') (hc : some c ≠ acting) :
    ExecOk rows' c e := by
  unfold ExecOk at h ⊢
  split at h
  all_goals first
    | exact trivial
    | exact hk.runs _ _ hc h
    | exact ⟨hk.runs _ _ hc h.1, h.2⟩
    | exact h.imp (hk.runs _ _ hc) (hk.ended _)

theorem KeepsTimers.of_pending (hstays : ∀ id, (rows.get id).isSome → (rows'.get id).isSome)
    (hsame : ∀ id t, rows.get id = some t → t.metadata.status ≠ .pending → rows'.get id = some t) :
    KeepsTimers acting rows rows' := by
  refine ⟨hstays, fun id h => ?_, fun c id _ h => ?_⟩
  · obtain ⟨t, ht, hended⟩ := over_iff.1 h
    refine over_iff.2 ⟨t, hsame id t ht ?_, hended⟩
    intro hp
    rw [hp] at hended
    cases hended
  · obtain ⟨t, ht, hrun, hc⟩ := runsUnder_iff.1 h
    refine runsUnder_iff.2 ⟨t, hsame id t ht ?_, hrun, hc⟩
    rw [hrun]
    rintro ⟨⟩

/-- **What was read as pending, and is as it was, may be written to.** -/
theorem KeepsTimers.write (hpending : Pending picked) (hread : ∀ p ∈ picked, AsRead rows p)
    (f : Text → Timer → Timer → Timer) :
    KeepsTimers acting rows (rows.mapWithKey fun id row =>
      match picked.find? fun p => p.1 = id with
      | some p => f id p.2 row
      | none => row) := by
  refine .of_pending (fun id h => by rwa [Dict.get_mapWithKey, Option.isSome_map]) fun id t ht hne => ?_
  rw [Dict.get_mapWithKey, ht, Option.map_some]
  cases hfind : picked.find? fun p => p.1 = id with
  | none => rfl
  | some p =>
    have hmem := List.mem_of_find?_eq_some hfind
    have hid : p.1 = id := by simpa using List.find?_some hfind
    have hsame := hread p hmem
    rw [AsRead, hid, ht, Option.all_some, decide_eq_true_iff] at hsame
    exact absurd (hsame ▸ hpending p hmem) hne

theorem get_writeRow {f : Timer → Timer} {id' : Text} :
    (TimerDb.writeRow rows id f).get id' = (rows.get id').map fun row => if id' = id then f row else row :=
  Dict.get_mapWithKey

/-- **The execution that a timer runs under, or one of a timer that is over, may write to it.** -/
theorem KeepsTimers.exec {f : Timer → Timer} (h : RunsUnder rows claimId id ∨ TimerOver rows id)
    (hf : TimerOver rows id → ∀ row, (f row).metadata.status.ended) :
    KeepsTimers (some claimId) rows (TimerDb.writeRow rows id f) := by
  refine ⟨fun id' h => by rwa [get_writeRow, Option.isSome_map], fun id' hover => ?_, fun c id' hc hruns => ?_⟩
  · obtain ⟨t, ht, hended⟩ := over_iff.1 hover
    refine over_iff.2 ⟨if id' = id then f t else t, by rw [get_writeRow, ht]; rfl, ?_⟩
    split_ifs with heq
    · exact hf (heq ▸ hover) t
    · exact hended
  · obtain ⟨t, ht, hrun, hclaim⟩ := runsUnder_iff.1 hruns
    have hne : id' ≠ id := by
      rintro rfl
      rcases h with h | h
      · exact hc (congrArg some (hruns.unique h))
      · exact hruns.not_over h
    exact runsUnder_iff.2 ⟨t, by rw [get_writeRow, ht, Option.map_some, if_neg hne], hrun, hclaim⟩

theorem over_writeRow {f : Timer → Timer} (h : RunsUnder rows claimId id ∨ TimerOver rows id)
    (hf : ∀ row, (f row).metadata.status.ended) : TimerOver (TimerDb.writeRow rows id f) id := by
  have hin : ∃ t, rows.get id = some t := by
    rcases h with h | h
    · obtain ⟨t, ht, -⟩ := runsUnder_iff.1 h
      exact ⟨t, ht⟩
    · obtain ⟨t, ht, -⟩ := over_iff.1 h
      exact ⟨t, ht⟩
  obtain ⟨t, ht⟩ := hin
  exact over_iff.2 ⟨f t, by simp [get_writeRow, ht], hf t⟩

theorem over_writeRows (hrow : (rows.get id).isSome) (hin : id ∈ picked.map Prod.fst) :
    TimerOver (TimerDb.writeRows rows picked cancelledTimer) id := by
  obtain ⟨t, ht⟩ := Option.isSome_iff_exists.1 hrow
  obtain ⟨p, hp, rfl⟩ := List.mem_map.1 hin
  cases hfind : picked.find? fun q => q.1 = p.1 with
  | none => exact absurd (List.find?_eq_none.1 hfind p hp) (by simp)
  | some q =>
    refine over_iff.2 ⟨cancelledTimer q.2 t, ?_, rfl⟩
    rw [TimerDb.writeRows, Dict.get_mapWithKey, ht, Option.map_some]
    simp only [hfind]

/-! ## The steps -/

namespace TimersOk

theorem snoc (h : TimersOk tr s) (hk : KeepsTimers acting s.rows s'.rows)
    (hsettles : ∀ t, Settles o t → TimerOver s'.rows t) (hinserts : ∀ t, o = .inserted t → ¬ TimerOver s.rows t)
    (hexecs : ∀ c e, s'.execs.get c = some e → (s.execs.get c = some e ∧ some c ≠ acting) ∨ ExecOk s'.rows c e)
    (hclaims : ∀ call c, s'.claims.get call = some c → s.claims.get call = some c ∨ Pending c.picked)
    (hcancels : ∀ call c picked, s'.cancels.get call = some c → c.picked = some picked →
      s.cancels.get call = some c ∨ Pending picked ∧ HasRows s'.rows (picked.map Prod.fst)) : TimersOk (tr ++ [(i, o)]) s' where
  once := by
    refine List.pairwise_append.2 ⟨h.once, List.pairwise_singleton _ _, ?_⟩
    intro e he e' he' t hins hset
    rw [List.mem_singleton.1 he'] at hins
    exact hinserts t hins (h.settled e he t hset)
  settled := by
    intro e he t hset
    rcases List.mem_append.1 he with he | he
    · exact hk.ended t (h.settled e he t hset)
    · rw [List.mem_singleton.1 he] at hset
      exact hsettles t hset
  execs := by
    intro c e he
    rcases hexecs c e he with ⟨he, hc⟩ | hok
    · exact (h.execs c e he).keep hk hc
    · exact hok
  claims := by
    intro call c hc
    rcases hclaims call c hc with hc | hp
    · exact h.claims call c hc
    · exact hp
  cancels := by
    intro call c picked hc hpicked
    rcases hcancels call c picked hc hpicked with hc | hp
    · obtain ⟨hpending, hin⟩ := h.cancels call c picked hc hpicked
      exact ⟨hpending, fun id hid => hk.stays id (hin id hid)⟩
    · exact hp

theorem not_settles_none {t : Text} : ¬ Settles .none t := by
  rintro (h | ⟨ts, h, -⟩) <;> cases h

theorem goOn (h : TimersOk tr s) {pc : ExecPc} (hok : ExecOk s.rows claimId { e with pc := pc }) :
    TimersOk (tr ++ [(i, .none)]) (s.goOn claimId e pc) := by
  refine h.snoc (.refl none _) (fun t ht => absurd ht not_settles_none) (by rintro _ ⟨⟩) ?_ (fun _ _ => .inl) (fun _ _ _ hc _ => .inl hc)
  intro c e' he'
  simp only [TimerDb.goOn, Dict.get_set] at he'
  split_ifs at he' with heq
  · cases he'
    exact .inr (heq ▸ hok)
  · exact .inl ⟨he', Option.some_ne_none _⟩

theorem finish (h : TimersOk tr s) (hk : KeepsTimers (some claimId) s.rows rows') :
    TimersOk (tr ++ [(i, .none)]) { s.finish claimId with rows := rows' } := by
  refine h.snoc hk (fun t ht => absurd ht not_settles_none) (by rintro _ ⟨⟩) ?_ (fun _ _ => .inl) (fun _ _ _ hc _ => .inl hc)
  intro c e' he'
  simp only [TimerDb.finish, Dict.get_erase] at he'
  split_ifs at he' with heq
  exact .inl ⟨he', fun hc => heq (Option.some.inj hc)⟩

theorem insert (h : TimersOk tr s) (he : RunsUnder s.rows claimId e.timerId) (read : Timer) :
    TimersOk (tr ++ [(i, .inserted e.timerId)])
      { s.goOn claimId e .inserted with rows := TimerDb.writeRow s.rows e.timerId (completedTimer read) } := by
  have hover : TimerOver (TimerDb.writeRow s.rows e.timerId (completedTimer read)) e.timerId :=
    over_writeRow (.inl he) fun _ => rfl
  refine h.snoc (.exec (.inl he) fun _ _ => rfl) ?_ ?_ ?_ (fun _ _ => .inl) (fun _ _ _ hc _ => .inl hc)
  · rintro t (heq | ⟨ts, heq, -⟩) <;> cases heq
    exact hover
  · intro t heq
    cases heq
    exact he.not_over
  · intro c e' he'
    simp only [TimerDb.goOn, Dict.get_set] at he'
    split_ifs at he' with heq
    · cases he'
      exact .inr (.inr hover)
    · exact .inl ⟨he', fun hc => heq (Option.some.inj hc)⟩

theorem finish' (h : TimersOk tr s) : TimersOk (tr ++ [(i, .none)]) (s.finish claimId) :=
  h.finish (.refl _ _)

/-- **A step of an execution.** -/
theorem execStep (h : TimersOk tr s) (he : s.execs.get claimId = some e) {found busy : Bool}
    (hs : s.execStep postgres claimId e found busy = some (s', o)) : TimersOk (tr ++ [(i, o)]) s' := by
  have hok := h.execs claimId e he
  obtain ⟨worker, timerId, pc⟩ := e
  cases pc with
  | start =>
    obtain ⟨-, hs⟩ := Option.ite_none_right_eq_some.1 hs
    cases hs
    exact h.goOn trivial
  | locked =>
    simp only [TimerDb.execStep] at hs
    cases hrow : s.rows.get timerId with
    | none =>
      rw [hrow] at hs
      cases hs
      exact h.finish'
    | some t =>
      rw [hrow] at hs
      dsimp only at hs
      split_ifs at hs with hother
      · cases hs
        exact h.finish'
      · cases hs
        push Not at hother
        exact h.goOn (runsUnder_iff.2 ⟨t, hrow, hother⟩)
  | checked metadata =>
    simp only [TimerDb.execStep] at hs
    split_ifs at hs <;> cases hs
    · exact h.goOn hok
    · exact h.goOn (.inl hok)
  | waiting metadata =>
    obtain ⟨-, hs⟩ := Option.ite_none_right_eq_some.1 hs
    cases hs
    exact h.goOn hok
  | parentLocked metadata =>
    simp only [TimerDb.execStep] at hs
    split_ifs at hs <;> cases hs
    · exact h.goOn (.inl hok)
    · exact h.goOn ⟨hok, by rintro ⟨⟩⟩
    · exact h.goOn ⟨hok, by rintro ⟨⟩⟩
  | busy row =>
    obtain ⟨hruns, hrow⟩ := hok
    rcases row with - | - | read
    · cases hs
      refine h.goOn ⟨hruns, ?_⟩
      obtain ⟨t, ht, -⟩ := runsUnder_iff.1 hruns
      simp [ht]
    · exact absurd rfl hrow
    · obtain ⟨-, hs⟩ := Option.ite_none_left_eq_some.1 hs
      cases hs
      exact h.finish (.exec (.inl hruns) fun hover => absurd hover hruns.not_over)
  | idle row =>
    obtain ⟨hruns, hrow⟩ := hok
    rcases row with - | - | read
    · cases hs
      refine h.goOn ⟨hruns, ?_⟩
      obtain ⟨t, ht, -⟩ := runsUnder_iff.1 hruns
      simp [ht]
    · exact absurd rfl hrow
    · obtain ⟨-, hs⟩ := Option.ite_none_left_eq_some.1 hs
      cases hs
      exact h.insert hruns read
  | inserted =>
    simp only [TimerDb.execStep] at hs
    split_ifs at hs <;> cases hs
    · exact h.finish'
    · exact h.goOn hok
  | failing row =>
    cases row with
    | none =>
      simp only [TimerDb.execStep] at hs
      cases hrow : s.rows.get timerId <;> rw [hrow] at hs <;> cases hs
      · exact h.finish'
      · exact h.goOn hok
    | some read =>
      obtain ⟨-, hs⟩ := Option.ite_none_left_eq_some.1 hs
      cases hs
      exact h.finish (.exec hok fun _ _ => rfl)

theorem create (h : TimersOk tr s) {t : Timer} (hnew : s.rows.get id = none) :
    TimersOk (tr ++ [(i, .none)]) { s with rows := s.rows.set id t } := by
  have hk : KeepsTimers none s.rows (s.rows.set id t) := by
    refine .of_pending (fun id' h => ?_) fun id' t' ht' _ => ?_
    · rw [Dict.get_set]
      split_ifs
      · rfl
      · exact h
    · rw [Dict.get_set, if_neg, ht']
      rintro rfl
      rw [hnew] at ht'
      cases ht'
  exact h.snoc hk (fun t ht => absurd ht not_settles_none) (by rintro _ ⟨⟩) (fun _ _ he => .inl ⟨he, Option.some_ne_none _⟩)
    (fun _ _ => .inl) (fun _ _ _ hc _ => .inl hc)

theorem get_startExecs {execs : Dict ℕ TimerExec} {worker n c : ℕ} {e : TimerExec} :
    (startExecs execs worker n picked).get c = some e → execs.get c = some e ∨ e.pc = .start := by
  induction picked generalizing execs n with
  | nil => exact .inl
  | cons p rest ih =>
    intro he
    rcases ih he with he | hstart
    · rw [Dict.get_set] at he
      split_ifs at he
      · cases he
        exact .inr rfl
      · exact .inl he
    · exact .inr hstart

theorem pending_dueTimers {nowNs : ℤ} {limit : ℕ} : Pending (s.dueTimers postgres nowNs limit) := by
  intro p hp
  have hmem := List.mem_mergeSort.1 (List.mem_of_mem_take hp)
  simp only [List.mem_filter, Bool.and_eq_true, decide_eq_true_iff] at hmem
  exact hmem.2.1.2

theorem pending_pendingTimers {parentChatId userId : Text} {event : CancelEvent} :
    Pending (s.pendingTimers parentChatId event userId) := by
  intro p hp
  simp only [TimerDb.pendingTimers, List.mem_filter, Bool.and_eq_true, decide_eq_true_iff] at hp
  exact hp.2.1.2

theorem hasRows_filter {f : Text × Timer → Bool} : HasRows s.rows ((s.rows.entries.filter f).map Prod.fst) := by
  intro id hid
  obtain ⟨p, hp, rfl⟩ := List.mem_map.1 hid
  rw [Dict.mem_entries_iff.1 (List.mem_of_mem_filter hp)]
  rfl

theorem claimRead (h : TimersOk tr s) {call worker : ℕ} {nowNs : ℤ} {limit : ℕ} :
    TimersOk (tr ++ [(i, .none)])
      { s with claims := s.claims.set call ⟨worker, s.dueTimers postgres nowNs limit⟩ } := by
  refine h.snoc (.refl none _) (fun t ht => absurd ht not_settles_none) (by rintro _ ⟨⟩) (fun _ _ he => .inl ⟨he, Option.some_ne_none _⟩) ?_
    (fun _ _ _ hc _ => .inl hc)
  intro call' c hc
  rw [Dict.get_set] at hc
  split_ifs at hc
  · cases hc
    exact .inr pending_dueTimers
  · exact .inl hc

theorem claimWrite (h : TimersOk tr s) {call : ℕ} {c : TimerClaim} (hc : s.claims.get call = some c)
    (hread : ∀ p ∈ c.picked, AsRead s.rows p) {n n' : ℕ} :
    TimersOk (tr ++ [(i, .none)]) { s with
      claims := s.claims.erase call
      rows := s.rows.mapWithKey fun id row =>
        match c.picked.find? fun p => p.1 = id with
        | some p => claimedTimer (claimIdOf n c.picked id) p.2 row
        | none => row
      execs := startExecs s.execs c.worker n c.picked
      nextClaim := n' } := by
  have hk : KeepsTimers none s.rows _ :=
    .write (h.claims call c hc) hread fun id read row => claimedTimer (claimIdOf n c.picked id) read row
  refine h.snoc hk (fun t ht => absurd ht not_settles_none) (by rintro _ ⟨⟩) ?_ ?_ (fun _ _ _ hc _ => .inl hc)
  · intro c' e' he'
    rcases get_startExecs he' with he' | hstart
    · exact .inl ⟨he', Option.some_ne_none _⟩
    · exact .inr (by simp only [ExecOk, hstart])
  · intro call' c' hc'
    rw [Dict.get_erase] at hc'
    split_ifs at hc'
    exact .inl hc'

theorem setCancel (h : TimersOk tr s) {call : ℕ} {c : TimerCancel} (hc : ∀ picked ∈ c.picked, Pending picked ∧ HasRows s.rows (picked.map Prod.fst)) :
    TimersOk (tr ++ [(i, .none)]) { s with cancels := s.cancels.set call c } := by
  refine h.snoc (.refl none _) (fun t ht => absurd ht not_settles_none) (by rintro _ ⟨⟩) (fun _ _ he => .inl ⟨he, Option.some_ne_none _⟩)
    (fun _ _ => .inl) ?_
  intro call' c' picked hc' hpicked
  rw [Dict.get_set] at hc'
  split_ifs at hc'
  · cases hc'
    exact .inr (hc picked hpicked)
  · exact .inl hc'

theorem cancelWrite (h : TimersOk tr s) {call : ℕ} {c : TimerCancel} (hc : s.cancels.get call = some c)
    (hpicked : c.picked = some picked) (hread : ∀ p ∈ picked, AsRead s.rows p)
    (hseen : ∀ t ∈ c.targets, t ∈ picked.map Prod.fst ∨ TimerOver s.rows t) :
    TimersOk (tr ++ [(i, .cancelled c.targets)]) { s with
      cancels := s.cancels.erase call
      rows := TimerDb.writeRows s.rows picked cancelledTimer } := by
  have hk : KeepsTimers none s.rows (TimerDb.writeRows s.rows picked cancelledTimer) :=
    .write (h.cancels call c picked hc hpicked).1 hread fun _ => cancelledTimer
  refine h.snoc hk ?_ (by rintro _ ⟨⟩) (fun _ _ he => .inl ⟨he, Option.some_ne_none _⟩) (fun _ _ => .inl) ?_
  · rintro t (heq | ⟨ts, heq, ht⟩) <;> cases heq
    rcases hseen t ht with hin | hover
    · exact over_writeRows ((h.cancels call c picked hc hpicked).2 t hin) hin
    · exact hk.ended t hover
  · intro call' c' picked' hc' _
    rw [Dict.get_erase] at hc'
    split_ifs at hc'
    exact .inl hc'

/-- **Every step that fits.** -/
theorem step (h : TimersOk tr s) (hfits : TimerFits s i) (hs : (timerMachine postgres).step s i = some (s', o)) :
    TimersOk (tr ++ [(i, o)]) s' := by
  cases i with
  | create id userId parentChatId dueAt cancelOn =>
    obtain ⟨hnew, hs⟩ := Option.ite_none_left_eq_some.1 hs
    cases hs
    exact h.create (Option.not_isSome_iff_eq_none.1 hnew)
  | claimRead call worker nowNs limit =>
    obtain ⟨-, hs⟩ := Option.ite_none_left_eq_some.1 hs
    cases hs
    exact h.claimRead
  | claimWrite call =>
    simp only [timerMachine] at hs
    cases hc : s.claims.get call with
    | none =>
      rw [hc] at hs
      cases hs
    | some c =>
      rw [hc] at hs
      cases hs
      exact h.claimWrite hc (hfits c hc)
  | cancelCall call parentChatId event userId =>
    obtain ⟨-, hs⟩ := Option.ite_none_left_eq_some.1 hs
    cases hs
    exact h.setCancel (by rintro _ ⟨⟩)
  | cancelRead call =>
    simp only [timerMachine] at hs
    cases hc : s.cancels.get call with
    | none =>
      rw [hc] at hs
      cases hs
    | some c =>
      rw [hc] at hs
      obtain ⟨-, hs⟩ := Option.ite_none_left_eq_some.1 hs
      cases hs
      refine h.setCancel fun picked hpicked => ?_
      cases hpicked
      exact ⟨pending_pendingTimers, hasRows_filter⟩
  | cancelWrite call =>
    simp only [timerMachine] at hs
    cases hc : s.cancels.get call with
    | none =>
      rw [hc] at hs
      cases hs
    | some c =>
      rw [hc] at hs
      dsimp only at hs
      cases hpicked : c.picked with
      | none =>
        rw [hpicked] at hs
        cases hs
      | some picked =>
        rw [hpicked] at hs
        obtain ⟨-, hs⟩ := Option.ite_none_left_eq_some.1 hs
        cases hs
        obtain ⟨hread, hseen⟩ := hfits c hc picked hpicked
        exact h.cancelWrite hc hpicked hread hseen
  | exec claimId found busy =>
    simp only [timerMachine] at hs
    cases he : s.execs.get claimId with
    | none =>
      rw [he] at hs
      cases hs
    | some e =>
      rw [he] at hs
      exact h.execStep he hs

end TimersOk

end

/-! ## The result -/

/-- Nothing is under way. -/
def TimerDb.Resting (s : TimerDb) : Prop :=
  s.claims = .empty ∧ s.cancels = .empty ∧ s.execs = .empty

theorem timersOk_resting {s : TimerDb} (h : s.Resting) : TimersOk [] s where
  once := .nil
  settled := by simp
  execs := by simp [h.2.2]
  claims := by simp [h.1]
  cancels := by simp [h.2.1]

/-- **In a run in which every claim and every cancellation fits, from a state in which nothing is
    under way, no timer fires after it has fired or been cancelled.** -/
theorem timerFiresOnce (postgres : Bool) {s s' : TimerDb} {tr : List (TimerStep × TimerOutcome)}
    (hrest : s.Resting) (hrun : (timerMachine postgres).RunIn TimerFits s tr s') : FiresOnce tr :=
  (hrun.traceInvariant (fun _ _ _ _ _ hfits h hs => h.step hfits hs) (timersOk_resting hrest)).once

namespace Sample

/-- A timer of the chat `p` that a message of the user cancels, and its claim. -/
def timerSet : List TimerStep :=
  [.create (.lit "t") (.lit "u") (.lit "p") 5 [.chatUserMessage], .claimRead 0 0 7 10, .claimWrite 0]

def timerExecuted : List TimerStep :=
  [.exec 0 true false, .exec 0 true false, .exec 0 true false, .exec 0 true false]

def timersCancelled : List TimerStep :=
  [.cancelCall 0 (.lit "p") .chatUserMessage (.lit "u"), .cancelRead 0, .cancelWrite 0]

def timerInserted : List TimerStep := [.exec 0 true false, .exec 0 true false, .exec 0 true false]

def noTimers : TimerDb := ⟨.empty, .empty, .empty, .empty, 0⟩

end Sample

/-- A timer fires, and the cancellation that comes later finds it over. -/
theorem timerFiresOnce_inserted : ∃ tr s', (timerMachine true).RunIn TimerFits Sample.noTimers tr s' ∧
    (tr.map Prod.snd).filter (fun o => o ≠ .none) = [.inserted (.lit "t"), .cancelled [.lit "t"]] ∧ FiresOnce tr := by
  obtain ⟨⟨tr, s'⟩, hm, hout⟩ : ∃ r ∈ (timerMachine true).exec TimerFits Sample.noTimers
      (Sample.timerSet ++ Sample.timerExecuted ++ Sample.timerInserted ++ Sample.timersCancelled),
      (r.1.map Prod.snd).filter (fun o => o ≠ .none) = [.inserted (.lit "t"), .cancelled [.lit "t"]] := by
    decide +kernel
  exact ⟨tr, s', Machine.runIn_of_exec hm, hout, timerFiresOnce true ⟨rfl, rfl, rfl⟩ (Machine.runIn_of_exec hm)⟩

/-- A cancellation while the timer is running selects nothing, and the prompt is put into the chat after it. -/
theorem timerFiresOnce_fails : ∃ tr s', (timerMachine true).Run Sample.noTimers tr s' ∧ Sample.noTimers.Resting ∧
    ¬ FiresOnce tr := by
  obtain ⟨⟨tr, s'⟩, hm, hout⟩ : ∃ r ∈ (timerMachine true).exec (fun _ _ => True) Sample.noTimers
      (Sample.timerSet ++ Sample.timerExecuted ++ Sample.timersCancelled ++ Sample.timerInserted),
      (r.1.map Prod.snd).filter (fun o => o ≠ .none) = [.cancelled [.lit "t"], .inserted (.lit "t")] := by
    decide +kernel
  refine ⟨tr, s', Machine.runIn_of_exec hm, ⟨rfl, rfl, rfl⟩, fun honce => ?_⟩
  have hpair : (tr.map Prod.snd).Pairwise fun o o' => ∀ t, o' = .inserted t → ¬ Settles o t :=
    List.pairwise_map.2 honce
  have hboth := hpair.sublist (List.filter_sublist (p := fun o => o ≠ .none))
  rw [hout] at hboth
  exact List.rel_of_pairwise_cons hboth List.mem_cons_self _ rfl (.inr ⟨_, rfl, List.mem_singleton_self _⟩)

end TideBot
