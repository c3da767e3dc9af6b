/-
  When commands are executed.

  The deadline of a command is checked when it arrives, and the broker gives it up
  at the deadline.  A command that the policy allows is executed at once, so in
  time.  A command that waits for the user is executed as soon as the message that
  asks for it is settled and the user has approved, without another look at the
  deadline (`executes_late`); so the commands of a run are all executed in time
  exactly if the later of these two comes in time (`executes_onTime_iff`).

  The invariant is that a pending approval belongs to a command without an answer
  (`Unanswered`), so no answer is taken back.
-/
import TideBot.Extension.Worker
import TideBot.Extension.Replay

namespace TideBot

open Lib

variable {parseUrl : Text → Option ParsedUrl} {numberText : ℚ → Text} {w w' : Worker}
  {o : WorkerOutput}

/-- Nothing is executed after its deadline. -/
def OnTime : WorkerOutput → Prop
  | .executes x => x.time ≤ x.request.deadlineAt
  | _ => True

instance : DecidablePred OnTime
  | .executes x => inferInstanceAs (Decidable (x.time ≤ x.request.deadlineAt))
  | .nothing | .answered _ | .refused _ => inferInstanceAs (Decidable True)

/-! ## Time -/

/-- The worker, and the time of its last event. -/
structure TimedWorker where
  worker : Worker
  time : ℚ

/-- No command has both its answer and its message to the user settled. -/
def Worker.idle (w : Worker) : Bool :=
  w.commands.entries.all fun f => !(f.2.prompted && f.2.answer.isSome)

/-- Is the event one at this time? -/
def WorkerEvent.isAt (now : ℚ) : WorkerEvent → Bool
  | .command _ _ _ clock => clock.arrival = now
  | .resume _ time => time = now
  | _ => true

/-- The service worker with its clock.  What waits for a promise goes on before the next task of the event loop, so
    the clock stands while a command has yet to be resumed. -/
def timedMachine (parseUrl : Text → Option ParsedUrl) (numberText : ℚ → Text) :
    Machine TimedWorker (ℚ × WorkerEvent) WorkerOutput where
  step s e :=
    if (s.worker.idle || e.1 = s.time) && e.2.isAt e.1 then
      (s.worker.step parseUrl numberText e.2).map fun r => (⟨r.1, e.1⟩, r.2)
    else none

/-- The later of the user's approval and the end of the message that asks for it comes by the deadline. -/
def CompletedInTime (s : TimedWorker) : ℚ × WorkerEvent → Prop
  | (now, .prompted i _) => ∀ c ∈ s.worker.commands.get i, c.answer = some true → now ≤ c.request.deadlineAt
  | (now, .approvalResult commandId true) => ∀ i ∈ s.worker.approvals.get commandId,
      ∀ c ∈ s.worker.commands.get i, c.prompted → now ≤ c.request.deadlineAt
  | _ => True

instance (s : TimedWorker) : DecidablePred (CompletedInTime s)
  | (_, .prompted ..) => inferInstanceAs (Decidable (∀ _ ∈ _, _ → _))
  | (_, .approvalResult _ true) => inferInstanceAs (Decidable (∀ _ ∈ _, ∀ _ ∈ _, _ → _))
  | (_, .approvalResult _ false) | (_, .connection _) | (_, .tab _) | (_, .command ..) | (_, .approvalTimeout _)
  | (_, .resume ..) | (_, .observed _) => inferInstanceAs (Decidable True)

theorem deadline_of_isCommandRequest {value : Json} {now : ℚ}
    (h : isCommandRequest numberText value now) : now ≤ (CommandRequest.read value).deadlineAt := by
  unfold isCommandRequest at h
  split at h
  · simp only [Bool.and_eq_true] at h
    have htimes := h.1.2
    unfold hasTimes at htimes
    split at htimes
    · rename_i ts dl sq hts hdl hsq
      rw [decide_eq_true_eq] at htimes
      simp only [CommandRequest.read, hdl, Option.getD_some]
      exact htimes.2.2.1
    · cases htimes
  · cases h

/-! ## What has been approved -/

/-- The command is to be executed next. -/
def Waiting.approved (c : Waiting) : Bool := c.prompted && c.answer = some true

/-- What is to be executed next is not past its deadline. -/
def DueBy (now : ℚ) (commands : Dict ℕ Waiting) : Prop :=
  ∀ i c, commands.get i = some c → c.approved → now ≤ c.request.deadlineAt

/-- An approval that is pending is that of a command without an answer. -/
def Unanswered (w : Worker) : Prop :=
  ∀ id i, w.approvals.get id = some i → ∃ c, w.commands.get i = some c ∧ c.request.id = id ∧ c.answer = none

theorem dueBy_of_idle (h : w.idle) (now : ℚ) : DueBy now w.commands := by
  intro i c hc happ
  have hidle := List.all_eq_true.1 h (i, c) (Dict.mem_entries_iff.2 hc)
  obtain ⟨hprompted, hanswer⟩ := Bool.and_eq_true _ _ ▸ happ
  rw [hprompted, of_decide_eq_true hanswer] at hidle
  cases hidle

theorem dueBy_set {commands : Dict ℕ Waiting} {i : ℕ} {now : ℚ} (c : Waiting)
    (h : ∀ b, commands.get i = some b → b.approved = false) :
    DueBy now (commands.set i c) ↔ DueBy now commands ∧ (c.approved → now ≤ c.request.deadlineAt) := by
  constructor
  · refine fun hdue => ⟨fun j b hb happ => ?_, hdue i c (Dict.get_set_self ..)⟩
    refine hdue j b ?_ happ
    rw [Dict.get_set, if_neg, hb]
    rintro rfl
    rw [h b hb] at happ
    cases happ
  · rintro ⟨hdue, hc⟩ j b hb happ
    rw [Dict.get_set] at hb
    split_ifs at hb
    · obtain rfl := Option.some.inj hb
      exact hc happ
    · exact hdue j b hb happ

theorem not_approved_of_unanswered {c : Waiting} (h : c.answer = none) : c.approved = false := by
  rw [Waiting.approved, h, Bool.and_eq_false_iff]
  exact .inr rfl

theorem Unanswered.resolve (h : Unanswered w) (id : Text) (approved : Bool) : Unanswered (w.resolve id approved) := by
  unfold Worker.resolve
  split
  · exact h
  · rename_i i hi
    obtain ⟨c, hc, hid, -⟩ := h id i hi
    intro id' j hj
    rw [Dict.get_erase] at hj
    split_ifs at hj with hne
    obtain ⟨d, hd, hid', hanswer⟩ := h id' j hj
    refine ⟨d, ?_, hid', hanswer⟩
    rw [Worker.settle, hc]
    refine (Dict.get_set_of_ne _ ?_).trans hd
    rintro rfl
    obtain rfl := Option.some.inj (hc.symm.trans hd)
    exact hne (hid'.symm.trans hid)

theorem dueBy_resolve (h : Unanswered w) (id : Text) (approved : Bool) (now : ℚ) :
    DueBy now (w.resolve id approved).commands ↔ DueBy now w.commands ∧ (approved → ∀ i ∈ w.approvals.get id,
      ∀ c ∈ w.commands.get i, c.prompted → now ≤ c.request.deadlineAt) := by
  unfold Worker.resolve
  rcases hi : w.approvals.get id with _ | i
  · simp
  · obtain ⟨c, hc, -, hanswer⟩ := h id i hi
    dsimp only
    rw [Worker.settle, hc, dueBy_set]
    · cases approved <;> simp [Waiting.approved, hc]
    · rintro b hb
      obtain rfl := Option.some.inj (hc.symm.trans hb)
      exact not_approved_of_unanswered hanswer

theorem dueBy_deny (h : Unanswered w) (id : Text) (now : ℚ) :
    DueBy now (w.resolve id false).commands ↔ DueBy now w.commands := by
  rw [dueBy_resolve h]
  simp

theorem cancelAll_spec (h : Unanswered w) (now : ℚ) :
    Unanswered w.cancelAll ∧ (DueBy now w.cancelAll.commands ↔ DueBy now w.commands) := by
  unfold Worker.cancelAll
  generalize w.approvals.keys = ids
  induction ids generalizing w with
  | nil => exact ⟨h, Iff.rfl⟩
  | cons id ids ih =>
    obtain ⟨hkept, hdue⟩ := ih (h.resolve id false)
    exact ⟨hkept, hdue.trans (dueBy_deny h id now)⟩

theorem callbacks_spec (h : Unanswered w) (calls : List Callback) (now : ℚ) :
    Unanswered (calls.foldl Worker.runCallback w) ∧
      (DueBy now (calls.foldl Worker.runCallback w).commands ↔ DueBy now w.commands) := by
  induction calls generalizing w with
  | nil => exact ⟨h, Iff.rfl⟩
  | cons call calls ih =>
    cases call with
    | cleanUp =>
      obtain ⟨hcancelled, hdue⟩ := cancelAll_spec h now
      obtain ⟨hkept, hrest⟩ := ih (w := { w.cancelAll with pageSignals := [] }) hcancelled
      exact ⟨hkept, hrest.trans hdue⟩
    | sessionOpen | sessionClose => exact ih h

theorem ask_spec (h : Unanswered w) {i : ℕ} (hi : w.commands.get i = none) (request : CommandRequest) (tabId : ℤ)
    (now : ℚ) : Unanswered (w.ask i request tabId) ∧
      (DueBy now (w.ask i request tabId).commands ↔ DueBy now w.commands) := by
  have hnew : ∀ b, w.commands.get i = some b → b.approved = false := fun b hb => by
    rw [hi] at hb
    cases hb
  have hother : ∀ {id j}, w.approvals.get id = some j → j ≠ i := by
    rintro id j hj rfl
    obtain ⟨c, hc, -⟩ := h id j hj
    rw [hi] at hc
    cases hc
  unfold Worker.ask
  split
  · refine ⟨fun id j hj => ?_, (dueBy_set _ hnew).trans (and_iff_left fun happ => by cases happ)⟩
    obtain ⟨c, hc, hrest⟩ := h id j hj
    exact ⟨c, (Dict.get_set_of_ne _ (hother hj)).trans hc, hrest⟩
  · refine ⟨fun id j hj => ?_, (dueBy_set _ hnew).trans (and_iff_left fun happ => by cases happ)⟩
    rw [Dict.get_set] at hj
    split_ifs at hj with hid
    · obtain rfl := Option.some.inj hj
      exact ⟨_, Dict.get_set_self .., hid.symm, rfl⟩
    · obtain ⟨c, hc, hrest⟩ := h id j hj
      exact ⟨c, (Dict.get_set_of_ne _ (hother hj)).trans hc, hrest⟩

theorem Unanswered.executeCommand_spec (h : Unanswered w) (parseUrl : Text → Option ParsedUrl) {i : ℕ}
    (hi : w.commands.get i = none) {request : CommandRequest} {now : ℚ} (hnow : now ≤ request.deadlineAt) :
    Unanswered (w.executeCommand parseUrl i request now).1 ∧ OnTime (w.executeCommand parseUrl i request now).2 ∧
      (DueBy now (w.executeCommand parseUrl i request now).1.commands ↔ DueBy now w.commands) := by
  unfold Worker.executeCommand
  split
  · exact ⟨h, trivial, Iff.rfl⟩
  · rename_i session _
    split_ifs
    · exact ⟨h, trivial, Iff.rfl⟩
    · split
      · exact ⟨h, trivial, Iff.rfl⟩
      · obtain ⟨hask, hdue⟩ := ask_spec h hi request session.tabId now
        exact ⟨hask, trivial, hdue⟩
      · exact ⟨h, hnow, Iff.rfl⟩

theorem resume_spec (h : Unanswered w) {i : ℕ} {now : ℚ} (hs : w.resume i now = some (w', o)) :
    Unanswered w' ∧ (DueBy now w.commands ↔ OnTime o ∧ DueBy now w'.commands) := by
  unfold Worker.resume at hs
  split at hs
  · rename_i request tabId approved hc
    obtain ⟨rfl, rfl⟩ := Prod.mk.inj (Option.some.inj hs)
    constructor
    · intro id j hj
      obtain ⟨d, hd, hid, hanswer⟩ := h id j hj
      refine ⟨d, (Dict.get_erase_of_ne _ ?_).trans hd, hid, hanswer⟩
      rintro rfl
      obtain rfl := Option.some.inj (hc.symm.trans hd)
      cases hanswer
    · constructor
      · intro hdue
        constructor
        · cases approved
          · trivial
          · exact hdue i _ hc rfl
        · intro j d hd
          rw [Dict.get_erase] at hd
          split_ifs at hd
          exact hdue j d hd
      · rintro ⟨htime, hdue⟩ j d hd happ
        by_cases hj : j = i
        · subst hj
          obtain rfl := Option.some.inj (hc.symm.trans hd)
          obtain rfl : approved = true := by simpa [Waiting.approved] using happ
          exact htime
        · exact hdue j d ((Dict.get_erase_of_ne _ hj).trans hd) happ
  · cases hs

theorem promptSettled_spec (h : Unanswered w) {i : ℕ} {request : CommandRequest} {tabId : ℤ} {answer : Option Bool}
    (hc : w.commands.get i = some ⟨request, tabId, false, answer⟩) (ok : Bool) (now : ℚ) :
    Unanswered (w.promptSettled i request tabId answer ok) ∧
      (DueBy now (w.promptSettled i request tabId answer ok).commands ↔
        DueBy now w.commands ∧ (answer = some true → now ≤ request.deadlineAt)) := by
  have hkept : Unanswered { w with commands := w.commands.set i ⟨request, tabId, true, answer⟩ } := by
    intro id j hj
    obtain ⟨d, hd, hrest⟩ := h id j hj
    by_cases hji : j = i
    · subst hji
      obtain rfl := Option.some.inj (hc.symm.trans hd)
      exact ⟨_, Dict.get_set_self .., hrest⟩
    · exact ⟨d, (Dict.get_set_of_ne _ hji).trans hd, hrest⟩
  have hdue : DueBy now (w.commands.set i ⟨request, tabId, true, answer⟩) ↔
      DueBy now w.commands ∧ (answer = some true → now ≤ request.deadlineAt) := by
    rw [dueBy_set]
    · simp [Waiting.approved]
    · rintro b hb
      obtain rfl := Option.some.inj (hc.symm.trans hb)
      rfl
  unfold Worker.promptSettled
  dsimp only
  split_ifs
  · exact ⟨hkept, hdue⟩
  · exact ⟨hkept.resolve _ _, (dueBy_deny hkept _ _).trans hdue⟩

/-! ## Steps and runs -/

/-- **One step**: what is executed is in time, and what is to be executed next is, exactly if what was to be executed
    was and the approval is completed in time. -/
theorem timed_step {s s' : TimedWorker} {x : ℚ × WorkerEvent} (hw : Unanswered s.worker)
    (h : (timedMachine parseUrl numberText).step s x = some (s', o)) :
    Unanswered s'.worker ∧ (DueBy s.time s.worker.commands ∧ CompletedInTime s x ↔
      OnTime o ∧ DueBy s'.time s'.worker.commands) := by
  obtain ⟨now, e⟩ := x
  obtain ⟨w, time⟩ := s
  simp only [timedMachine] at h
  split_ifs at h with hnow
  obtain ⟨⟨w', o'⟩, hs, hr⟩ := Option.map_eq_some_iff.1 h
  obtain ⟨rfl, rfl⟩ := Prod.mk.inj hr
  rw [Bool.and_eq_true, Bool.or_eq_true, decide_eq_true_eq] at hnow
  obtain ⟨htime, hat⟩ := hnow
  -- the clock stands, or nothing is to be executed
  have hdue : DueBy time w.commands ↔ DueBy now w.commands := by
    obtain hidle | rfl := htime
    · exact iff_of_true (dueBy_of_idle hidle _) (dueBy_of_idle hidle _)
    · rfl
  dsimp only
  rw [hdue]
  cases e with
  | command i value deviceId clock =>
    obtain rfl := of_decide_eq_true hat
    simp only [Worker.step] at hs
    split at hs
    · cases hs
    · rename_i hi
      split at hs
      · obtain ⟨rfl, rfl⟩ := Prod.mk.inj (Option.some.inj hs)
        exact ⟨hw, and_comm⟩
      · rename_i t request hh
        rcases handleInboundCommand_cases hh with ⟨-, hp⟩ | ⟨-, ⟨code, result, hc⟩, -⟩ | ⟨hc, hreq, -⟩
        · cases hp
        · cases hc
        · cases hc
          have ht : Unanswered { w with transport := t } := hw
          have hspec := ht.executeCommand_spec parseUrl hi (deadline_of_isCommandRequest hreq)
          rw [Option.some.inj hs] at hspec
          obtain ⟨hkept, htime, hcommands⟩ := hspec
          rw [hcommands]
          exact ⟨hkept, and_comm.trans (and_congr_left fun _ => iff_of_true trivial htime)⟩
  | resume i time' =>
    obtain rfl := of_decide_eq_true hat
    obtain ⟨hkept, hcommands⟩ := resume_spec hw hs
    exact ⟨hkept, (and_iff_left trivial).trans hcommands⟩
  | connection i =>
    cases i <;> simp only [Worker.step] at hs <;> cases hs <;> exact ⟨hw, and_comm⟩
  | tab e' =>
    obtain ⟨r, -, hr⟩ := Option.map_eq_some_iff.1 hs
    obtain ⟨rfl, rfl⟩ := Prod.mk.inj hr
    obtain ⟨hkept, hcommands⟩ := callbacks_spec (w := { w with tabs := r.1 }) hw r.2 now
    rw [hcommands]
    exact ⟨hkept, and_comm⟩
  | prompted i ok =>
    simp only [Worker.step] at hs
    split at hs
    · rename_i request tabId answer hc
      obtain ⟨rfl, rfl⟩ := Prod.mk.inj (Option.some.inj hs)
      obtain ⟨hkept, hcommands⟩ := promptSettled_spec hw hc ok now
      rw [hcommands]
      refine ⟨hkept, Iff.trans ?_ (and_iff_right trivial).symm⟩
      simp [CompletedInTime, hc]
    · cases hs
  | approvalResult id approved =>
    obtain ⟨rfl, rfl⟩ := Prod.mk.inj (Option.some.inj hs)
    refine ⟨hw.resolve id approved, Iff.trans ?_ (and_iff_right trivial).symm⟩
    rw [dueBy_resolve hw]
    cases approved <;> simp [CompletedInTime]
  | approvalTimeout id =>
    obtain ⟨rfl, rfl⟩ := Prod.mk.inj (Option.some.inj hs)
    exact ⟨hw.resolve id false, and_comm.trans (and_congr_right fun _ => (dueBy_deny hw id _).symm)⟩
  | observed =>
    obtain ⟨rfl, rfl⟩ := Prod.mk.inj (Option.some.inj hs)
    exact ⟨hw, and_comm⟩

/-- **Every command is executed by its deadline if every approval is completed by the deadline of its command**, in
    every run; and only then, if no command has yet to be resumed. -/
theorem executes_onTime_iff {tr : List ((ℚ × WorkerEvent) × WorkerOutput)} {time : ℚ} {s : TimedWorker}
    (h : (timedMachine parseUrl numberText).Run ⟨.initial, time⟩ tr s) :
    ((timedMachine parseUrl numberText).RunIn CompletedInTime ⟨.initial, time⟩ tr s → ∀ x ∈ tr, OnTime x.2) ∧
      (s.worker.idle → (∀ x ∈ tr, OnTime x.2) →
        (timedMachine parseUrl numberText).RunIn CompletedInTime ⟨.initial, time⟩ tr s) := by
  have hiff := Machine.RunIn.iff_good (C := CompletedInTime) (I := fun s => Unanswered s.worker)
    (Q := fun s => DueBy s.time s.worker.commands) (P := fun x => OnTime x.2)
    (fun s x s' o hw hs => timed_step hw hs) h (fun id i hi => by cases hi) (fun i c hc => by cases hc)
  exact ⟨fun hrun => (hiff.1 hrun).1, fun hidle hall => hiff.2 ⟨hall, dueBy_of_idle hidle _⟩⟩

/-! ## A click that waits for approval -/

namespace Sample

/-- A click with its deadline at 30 seconds arrives after 10, and is put to the user. -/
def askedClick : List (ℚ × WorkerEvent) :=
  [(9000, .connection .socketConnected), (9000, .connection joined)] ++ (opens 0 "S" 7).map (9000, ·) ++
    [(10000, .command 0 (Broker.requestEnvelope pendingClick (.lit "browser_click") [] 0 30) (some (.lit "A"))
        ⟨10000, 10000, 10000, 10000⟩), (10001, .prompted 0 true)]

def approvedClick : List WorkerEvent := askedClick.map Prod.snd ++ [.approvalResult (.lit "c") true]

def clickApprovedAt (now : ℚ) : List (ℚ × WorkerEvent) :=
  askedClick ++ [(now, .approvalResult (.lit "c") true), (now, .resume 0 now)]

end Sample

/-- Approved after 20 seconds, it is executed in time. -/
theorem executes_onTime_approved :
    ∃ tr s, (timedMachine Sample.parseUrl Sample.integerText).Run ⟨.initial, 0⟩ tr s ∧
      Sample.executesSome (tr.map fun x => (x.1.2, x.2)) ∧ ∀ x ∈ tr, OnTime x.2 := by
  obtain ⟨⟨tr, s⟩, hm, hx⟩ :
      ∃ r ∈ (timedMachine Sample.parseUrl Sample.integerText).exec CompletedInTime ⟨.initial, 0⟩
        (Sample.clickApprovedAt 20000), Sample.executesSome (r.1.map fun x => (x.1.2, x.2)) := by
    decide +kernel
  have hr := Machine.runIn_of_exec hm
  exact ⟨tr, s, hr.run, hx, (executes_onTime_iff hr.run).1 hr⟩

/-- Approved after 35 seconds, inside the 30 seconds that the approval may take,
    it is executed after its deadline. -/
theorem executes_late :
    ∃ tr s, (timedMachine Sample.parseUrl Sample.integerText).Run ⟨.initial, 0⟩ tr s ∧
      ∃ x ∈ tr, ¬ OnTime x.2 := by
  obtain ⟨⟨tr, s⟩, hm, hx⟩ :
      ∃ r ∈ (timedMachine Sample.parseUrl Sample.integerText).exec (fun _ _ => True) ⟨.initial, 0⟩
        (Sample.clickApprovedAt 35000), ∃ x ∈ r.1, ¬ OnTime x.2 := by
    decide +kernel
  exact ⟨tr, s, Machine.runIn_of_exec hm, hx⟩

end TideBot
