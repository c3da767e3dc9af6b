/-
  Which session a command acts on.

  A command is checked against the session under control when it arrives, and the
  policy decides about it for that session and its tab.  The executor takes the
  session under control when the command is executed, which is later if the user
  was asked.  Closing a session cancels the approvals, but only after the server
  has answered; until then another session can be opened and the user can still
  approve, and the command acts on that other session (`executes_elsewhere`).

  If the user approves only what was asked for the session under control, and that
  session is not dropped before the approved command is taken up (`InSession`),
  every command acts on the session and the tab it was decided for:
  `executes_onTarget`.  The invariant is `Attached`.
-/
import TideBot.Extension.Deadline

namespace TideBot

open Lib

variable {parseUrl : Text → Option ParsedUrl} {numberText : ℚ → Text} {w w' : Worker}
  {o : WorkerOutput}

/-- What is executed finds the session and the tab it was decided for. -/
def OnTarget : WorkerOutput → Prop
  | .executes x => ∃ s ∈ x.session, s.sessionId = x.request.sessionId ∧ s.tabId = x.decidedFor
  | _ => True

/-- The session under control is the one that `c` was decided for, on the same tab. -/
def Worker.Controls (w : Worker) (c : Waiting) : Prop :=
  ∃ s ∈ w.tabs.session, s.sessionId = c.request.sessionId ∧ s.tabId = c.tabId

/-- Approvals are given for the session under control, and it is not dropped while
    an approved command waits to be taken up. -/
def InSession (parseUrl : Text → Option ParsedUrl) (w : Worker) : WorkerEvent → Prop
  | .approvalResult commandId approved =>
    approved → ∀ i ∈ w.approvals.get commandId, ∀ c ∈ w.commands.get i, w.Controls c
  | .tab e => w.tabs.drops parseUrl e → ∀ f ∈ w.commands.entries, f.2.answer ≠ some true
  | _ => True

instance : DecidablePred OnTarget
  | .executes x => inferInstanceAs
      (Decidable (∃ s ∈ x.session, s.sessionId = x.request.sessionId ∧ s.tabId = x.decidedFor))
  | .nothing | .answered _ | .refused _ => inferInstanceAs (Decidable True)

instance (w : Worker) : DecidablePred w.Controls := fun c => inferInstanceAs
  (Decidable (∃ s ∈ w.tabs.session, s.sessionId = c.request.sessionId ∧ s.tabId = c.tabId))

instance (parseUrl : Text → Option ParsedUrl) (w : Worker) : DecidablePred (InSession parseUrl w)
  | .approvalResult .. => inferInstanceAs (Decidable (_ → ∀ _ ∈ _, ∀ _ ∈ _, _))
  | .tab _ => inferInstanceAs (Decidable (_ → ∀ _ ∈ _, _))
  | .connection _ | .command .. | .prompted .. | .approvalTimeout _ | .resume .. | .observed _ =>
    inferInstanceAs (Decidable True)

/-! ## The invariant -/

/-- The session under control is the one that the approved commands were decided for. -/
def Attached (w : Worker) : Prop :=
  ∀ i c, w.commands.get i = some c → c.answer = some true → w.Controls c

theorem Attached.initial : Attached .initial := fun i c h => by simp [Worker.initial] at h

theorem Worker.Controls.keeps {c : Waiting} (h : w.Controls c) (hk : w.tabs.Keeps w'.tabs) :
    w'.Controls c := by
  obtain ⟨s, hs, hid, htab⟩ := h
  obtain ⟨s', hs', hid', htab'⟩ := hk.kept s hs
  exact ⟨s', hs', hid'.trans hid, htab'.trans htab⟩

/-- A new entry is no harm if it is for the session under control once approved. -/
theorem Attached.set (h : Attached w) (i : ℕ) {c : Waiting} (approvals : Dict Text ℕ)
    (hc : c.answer = some true → w.Controls c) :
    Attached { w with commands := w.commands.set i c, approvals := approvals } := by
  intro j d hd hans
  simp only [Dict.get_set] at hd
  split_ifs at hd
  · cases hd
    exact hc hans
  · exact h j d hd hans

theorem Attached.resolve (h : Attached w) {id : Text} {approved : Bool}
    (hC : InSession parseUrl w (.approvalResult id approved)) : Attached (w.resolve id approved) := by
  unfold Worker.resolve Worker.settle
  split
  · exact h
  · rename_i i hi
    split
    · exact h
    · rename_i c hc
      refine h.set i _ ?_
      intro happ
      exact hC (Option.some.inj happ) i hi c hc

theorem Attached.deny (h : Attached w) (id : Text) : Attached (w.resolve id false) := by
  have hC : InSession (fun _ => none) w (.approvalResult id false) := by rintro ⟨⟩
  exact h.resolve hC

theorem Attached.cancelAll (h : Attached w) : Attached w.cancelAll := by
  unfold Worker.cancelAll
  generalize w.approvals.keys = ids
  induction ids generalizing w with
  | nil => exact h
  | cons id ids ih => exact ih (h.deny id)

theorem Attached.runCallbacks (h : Attached w) (calls : List Callback) :
    Attached (calls.foldl Worker.runCallback w) := by
  induction calls generalizing w with
  | nil => exact h
  | cons call calls ih =>
    refine ih ?_
    cases call with
    | cleanUp => exact h.cancelAll
    | sessionOpen | sessionClose => exact h

theorem Attached.tab (h : Attached w) {e : TabEvent} {c' : TabController} {calls : List Callback}
    (hC : InSession parseUrl w (.tab e)) (hs : w.tabs.step parseUrl e = some (c', calls)) :
    Attached { w with tabs := c' } := by
  intro i c hc hans
  cases hd : w.tabs.drops parseUrl e with
  | true => exact absurd hans (hC hd (i, c) (Dict.mem_entries_iff.2 hc))
  | false => exact (h i c hc hans).keeps (.step hs hd)

/-! ## Steps and runs -/

theorem Attached.ask (h : Attached w) (i : ℕ) (request : CommandRequest) (tabId : ℤ) :
    Attached (w.ask i request tabId) := by
  unfold Worker.ask
  split <;> exact h.set i _ (by simp)

/-- A command on arrival: it is executed at once, for the session it is decided for. -/
theorem Attached.executeCommand (h : Attached w) (parseUrl : Text → Option ParsedUrl) (i : ℕ)
    (request : CommandRequest) (now : ℚ) :
    Attached (w.executeCommand parseUrl i request now).1 ∧
      OnTarget (w.executeCommand parseUrl i request now).2 := by
  unfold Worker.executeCommand
  split
  · exact ⟨h, trivial⟩
  · rename_i s hs
    split_ifs with hid
    · exact ⟨h, trivial⟩
    · split
      · exact ⟨h, trivial⟩
      · exact ⟨h.ask i request s.tabId, trivial⟩
      · exact ⟨h, s, rfl, (not_not.1 hid).symm, rfl⟩

theorem Attached.promptSettled (h : Attached w) {i : ℕ} {request : CommandRequest} {tabId : ℤ}
    {answer : Option Bool} (hc : w.commands.get i = some ⟨request, tabId, false, answer⟩) (ok : Bool) :
    Attached (w.promptSettled i request tabId answer ok) := by
  have hset : Attached { w with commands := w.commands.set i ⟨request, tabId, true, answer⟩ } :=
    h.set i _ (h i ⟨request, tabId, false, answer⟩ hc)
  simp only [Worker.promptSettled]
  split_ifs
  · exact hset
  · exact hset.deny _

theorem Attached.resume (h : Attached w) {i : ℕ} {now : ℚ} (hs : w.resume i now = some (w', o)) :
    Attached w' ∧ OnTarget o := by
  unfold Worker.resume at hs
  split at hs
  · rename_i request tabId approved hc
    obtain ⟨rfl, rfl⟩ := Prod.mk.inj (Option.some.inj hs)
    constructor
    · intro j d hd hans
      simp only [Dict.get_erase] at hd
      split_ifs at hd
      exact h j d hd hans
    · split_ifs with happ
      · subst happ
        exact h i _ hc rfl
      · trivial
  · cases hs

/-- **One step** in session keeps the invariant, and executes on target. -/
theorem Attached.step (h : Attached w) {e : WorkerEvent} (hC : InSession parseUrl w e)
    (hs : w.step parseUrl numberText e = some (w', o)) : Attached w' ∧ OnTarget o := by
  cases e with
  | connection i =>
    cases i <;> simp only [Worker.step] at hs <;> cases hs <;> exact ⟨h, trivial⟩
  | tab e' =>
    obtain ⟨⟨c', calls⟩, hstep, hr⟩ := Option.map_eq_some_iff.1 hs
    obtain ⟨rfl, rfl⟩ := Prod.mk.inj hr
    exact ⟨(h.tab hC hstep).runCallbacks calls, trivial⟩
  | command i value deviceId clock =>
    simp only [Worker.step] at hs
    split at hs
    · cases hs
    · split at hs
      · obtain ⟨rfl, rfl⟩ := Prod.mk.inj (Option.some.inj hs)
        exact ⟨h, trivial⟩
      · rename_i t request _
        have ht : Attached { w with transport := t } := h
        have hexec := ht.executeCommand parseUrl i request clock.arrival
        rwa [Option.some.inj hs] at hexec
  | prompted i ok =>
    simp only [Worker.step] at hs
    split at hs
    · rename_i hc
      obtain ⟨rfl, rfl⟩ := Prod.mk.inj (Option.some.inj hs)
      exact ⟨h.promptSettled hc ok, trivial⟩
    · cases hs
  | approvalResult id approved =>
    obtain ⟨rfl, rfl⟩ := Prod.mk.inj (Option.some.inj hs)
    exact ⟨h.resolve hC, trivial⟩
  | approvalTimeout id =>
    obtain ⟨rfl, rfl⟩ := Prod.mk.inj (Option.some.inj hs)
    exact ⟨h.deny id, trivial⟩
  | resume i now => exact h.resume hs
  | observed =>
    obtain ⟨rfl, rfl⟩ := Prod.mk.inj (Option.some.inj hs)
    exact ⟨h, trivial⟩

/-- **Commands act on the session and the tab they were decided for**, in every
    run whose approvals are given and taken up in session. -/
theorem executes_onTarget {tr : List (WorkerEvent × WorkerOutput)}
    (h : (workerMachine parseUrl numberText).RunIn (InSession parseUrl) .initial tr w) :
    ∀ x ∈ tr, OnTarget x.2 := by
  refine (h.safety (I := Attached) (P := fun x => OnTarget x.2) ?_ .initial).2
  intro w e w' o hC hw hs
  exact hw.step hC hs

/-- A click is approved and executed while its session stays. -/
theorem executes_onTarget_approved :
    ∃ tr w, (workerMachine Sample.parseUrl Sample.integerText).RunIn (InSession Sample.parseUrl)
        .initial tr w ∧ Sample.executesSome tr ∧ ∀ x ∈ tr, OnTarget x.2 := by
  obtain ⟨⟨tr, w⟩, hm, hx⟩ :
      ∃ r ∈ (workerMachine Sample.parseUrl Sample.integerText).exec (InSession Sample.parseUrl)
        .initial (Sample.approvedClick ++ [.resume 0 20000]), Sample.executesSome r.1 := by
    decide +kernel
  have hr := Machine.runIn_of_exec hm
  exact ⟨tr, w, hr, hx, executes_onTarget hr⟩

/-- While a click in session `S` waits for its approval, the user closes `S`,
    opens `T` on another tab and approves: the click is executed there. -/
theorem executes_elsewhere :
    ∃ tr w, (workerMachine Sample.parseUrl Sample.integerText).Run .initial tr w ∧
      ∃ x ∈ tr, ¬ OnTarget x.2 := by
  obtain ⟨⟨tr, w⟩, hm, hx⟩ :
      ∃ r ∈ (workerMachine Sample.parseUrl Sample.integerText).exec (fun _ _ => True) .initial
        ([.connection .socketConnected, .connection Sample.joined] ++ Sample.opens 0 "S" 7 ++
          [.command 0 (Broker.requestEnvelope Sample.pendingClick (.lit "browser_click") [] 0 30)
            (some (.lit "A")) ⟨10000, 10000, 10000, 10000⟩, .prompted 0 true, .tab (.close 1)] ++
          Sample.opens 2 "T" 9 ++ [.approvalResult (.lit "c") true, .resume 0 20000]),
      ∃ x ∈ r.1, ¬ OnTarget x.2 := by
    decide +kernel
  exact ⟨tr, w, Machine.runIn_of_exec hm, hx⟩

end TideBot
