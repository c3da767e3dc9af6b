/-
  One session at a time.

  `open` refuses to open a second session, and `close` clears the one under
  control; but between the check and the write lies an await.  A `tabs.get` that
  answers late installs its session whatever has happened meanwhile: after a
  `close()`, or over another session (`singleTab_fails`).

  * `CallsClose`: the calls of `close()` after which nothing is opened again;
    `openPairs`: what the callbacks have announced as open;
  * `SingleTab`: a session that is closed stays closed, and no second one is
    announced;
  * `Undisturbed`: when `tabs.get` answers for a task, nothing was closed since the
    task began and no other session is under control, and no opening is rejected.

  Then the sessions are single: `singleTab_undisturbed`.  What a step can do to the
  session is said once, by `SessionEffect`; the invariants are `Announced` and
  `ClosedTasks`.
-/
import TideBot.Extension.Worker

namespace TideBot

open Lib

/-- The trace of the controller: its events with the callbacks they make. -/
abbrev TabTrace := List (TabEvent × List Callback)

/-- The controller as a machine. -/
def tabMachine (parseUrl : Text → Option ParsedUrl) : Machine TabController TabEvent (List Callback) :=
  ⟨fun c e => c.step parseUrl e⟩

/-- What identifies a session to the server. -/
def ControlledTabSession.pair (s : ControlledTabSession) : Text × ℤ := (s.sessionId, s.tabId)

/-- The task an event is for. -/
def TabEvent.task : TabEvent → ℕ
  | .openActive k _ | .openTab k _ _ | .close k | .activated k _ | .removed k _ | .replaced k _ _
  | .updated k _ _ | .queried k _ | .fetched k _ | .openSettled k _ | .closeAnswered k _
  | .cleaned k _ => k

/-- Does the event start its task? -/
def TabEvent.starts : TabEvent → Bool
  | .openActive .. | .openTab .. | .close _ | .activated .. | .removed .. | .replaced ..
  | .updated .. => true
  | .queried .. | .fetched .. | .openSettled .. | .closeAnswered .. | .cleaned .. => false

/-- Is it a call of `open` or `openActive`? -/
def TabEvent.opens : TabEvent → Bool
  | .openActive .. | .openTab .. => true
  | _ => false

/-- A call of `close()` after which the caller opens nothing: by the user, or
    because the tab was removed or has left the web. -/
def CallsClose : TabEvent × List Callback → Bool
  | (.close _, _) => true
  | (.removed .., calls) | (.updated .., calls) => calls.any fun
    | .sessionClose _ => true
    | _ => false
  | _ => false

/-- The pairs announced as open, after one more callback. -/
def announce (open_ : List (Text × ℤ)) : Callback → List (Text × ℤ)
  | .sessionOpen s => s.pair :: open_
  | .sessionClose s => open_.filter (· ≠ s.pair)
  | .cleanUp => open_

/-- The pairs whose `onSessionOpen` was called without a matching `onSessionClose`. -/
def openPairs (tr : TabTrace) : List (Text × ℤ) := (tr.flatMap (·.2)).foldl announce []

/-- A session that was closed stays closed until `open` or `openActive` is called, and
    a session is announced only if no other one is open. -/
structure SingleTab (tr : TabTrace) (c : TabController) : Prop where
  closed : ∀ xs x ys, tr = xs ++ x :: ys → CallsClose x → (∀ y ∈ ys, ¬ y.1.opens) →
    c.session = none
  single : ∀ xs x ys, tr = xs ++ x :: ys → ∀ s, .sessionOpen s ∈ x.2 → ∀ p ∈ openPairs xs, p = s.pair

/-- Was `close()` called since task `k` began? -/
def closedSince (tr : TabTrace) (k : ℕ) : Bool :=
  (tr.dropWhile fun x => !(x.1.starts && x.1.task = k)).tail.any CallsClose

/-- When `tabs.get` answers with a web page, nothing was closed since the task began and no
    other session is under control; and no opening is rejected. -/
def Undisturbed (parseUrl : Text → Option ParsedUrl) (x : TabTrace × TabController) : TabEvent → Prop
  | .fetched k url => x.2.drops parseUrl (.fetched k url) = false ∧
      ((url.bind (pageIdentity parseUrl)).isSome → closedSince x.1 k = false)
  | .openSettled k ok => x.2.drops parseUrl (.openSettled k ok) = false
  | _ => True

instance (parseUrl : Text → Option ParsedUrl) (x : TabTrace × TabController) :
    DecidablePred (Undisturbed parseUrl x)
  | .fetched .. => inferInstanceAs (Decidable (_ ∧ (_ → _)))
  | .openSettled .. => inferInstanceAs (Decidable (_ = _))
  | .openActive .. | .openTab .. | .close _ | .activated .. | .removed .. | .replaced ..
  | .updated .. | .queried .. | .closeAnswered .. | .cleaned .. => inferInstanceAs (Decidable True)

/-! ## What a step can do -/

/-- What a step does to the session, and the callbacks it makes. -/
inductive SessionEffect (parseUrl : Text → Option ParsedUrl) (c : TabController) :
    TabEvent → Option ControlledTabSession → List Callback → Prop
  | idle {e calls} : calls = [] ∨ calls = [.cleanUp] → SessionEffect parseUrl c e c.session calls
  | renew {e s s'} : c.session = some s → s'.pair = s.pair →
      SessionEffect parseUrl c e (some s') [.sessionOpen s']
  | close {e s} : c.session = some s → SessionEffect parseUrl c e none [.sessionClose s]
  | install {k url options tabId identity} : c.tasks k = some (.fetching options tabId) →
      url.bind (pageIdentity parseUrl) = some identity →
      SessionEffect parseUrl c (.fetched k url) (c.install k options tabId identity).1.session
        (c.install k options tabId identity).2
  | reject {k} : c.tasks k = some .opening → SessionEffect parseUrl c (.openSettled k false) none []

/-- Can the task still install a session? -/
def Task.reopens : Task → Bool
  | .querying _ | .fetching _ _ | .closing (some _) | .cleaning _ (some _) => true
  | .opening | .notifying | .closing none | .cleaning _ none | .finished => false

/-- What a step leaves its task waiting for: something that can install a session
    only if it is a call of `open`, if there is a session, or if it was so before. -/
def Leaves (c : TabController) (e : TabEvent) (c' : TabController) (calls : List Callback) : Prop :=
  ∃ task, c'.tasks = Function.update c.tasks e.task (some task) ∧
    (task.reopens → e.opens ∨ c.session ≠ none ∧ ¬ CallsClose (e, calls) ∨
      ∃ t, c.tasks e.task = some t ∧ t.reopens)

/-- The two parts together. -/
structure Acts (parseUrl : Text → Option ParsedUrl) (c : TabController) (e : TabEvent)
    (c' : TabController) (calls : List Callback) : Prop where
  effect : SessionEffect parseUrl c e c'.session calls
  leaves : Leaves c e c' calls

variable {parseUrl : Text → Option ParsedUrl} {c c' : TabController} {e : TabEvent}
  {calls : List Callback} {tr : TabTrace} {k : ℕ}

namespace Acts

theorem await {task : Task} (hk : e.task = k)
    (ht : task.reopens → e.opens ∨ ∃ t, c.tasks e.task = some t ∧ t.reopens)
    (hcalls : calls = [] ∨ calls = [.cleanUp]) : Acts parseUrl c e (c.await k task) calls := by
  subst hk
  exact ⟨.idle hcalls, task, rfl, fun h => (ht h).imp_right .inr⟩

theorem finish (hk : e.task = k) : Acts parseUrl c e (c.await k .finished) [] :=
  .await hk (by rintro ⟨⟩) (.inl rfl)

theorem renew {s s' : ControlledTabSession} (hk : e.task = k) (hs : c.session = some s)
    (hp : s'.pair = s.pair) :
    Acts parseUrl c e ({ c with session := some s' }.await k .notifying) [.sessionOpen s'] := by
  subst hk
  exact ⟨.renew hs hp, .notifying, rfl, by rintro ⟨⟩⟩

theorem closeThen (hk : e.task = k) {reopen : Option (SessionOptions × ℤ)}
    (h : reopen ≠ none → ∀ calls, ¬ CallsClose (e, calls)) :
    Acts parseUrl c e (c.closeThen k reopen).1 (c.closeThen k reopen).2 := by
  subst hk
  unfold TabController.closeThen
  split
  · exact .finish rfl
  · rename_i s hs
    refine ⟨.close hs, .closing reopen, rfl, ?_⟩
    cases reopen with
    | none => rintro ⟨⟩
    | some r => exact fun _ => .inr (.inl ⟨by simp [hs], h (by simp) _⟩)

theorem sessionForTab (hk : e.task = k)
    (h : e.opens ∨ ∃ t, c.tasks e.task = some t ∧ t.reopens) (options : SessionOptions) (tabId : ℤ) :
    Acts parseUrl c e (c.sessionForTab k options tabId) [] := by
  unfold TabController.sessionForTab
  split_ifs
  · exact .finish hk
  · exact .await hk (fun _ => h) (.inl rfl)

theorem openTab (hk : e.task = k) (h : e.opens ∨ ∃ t, c.tasks e.task = some t ∧ t.reopens)
    (options : SessionOptions) (tabId : ℤ) :
    Acts parseUrl c e (c.openTab k options tabId).1 (c.openTab k options tabId).2 := by
  unfold TabController.openTab
  split
  · rename_i s hs
    split_ifs
    · exact .finish hk
    · exact .renew hk hs rfl
  · exact .sessionForTab hk h options tabId

theorem handleActivated (k : ℕ) (tabId : ℤ) :
    Acts parseUrl c (.activated k tabId) (c.handleActivated k tabId).1
      (c.handleActivated k tabId).2 := by
  unfold TabController.handleActivated
  split
  · exact .finish rfl
  · split_ifs
    · exact .finish rfl
    · exact .closeThen rfl (by simp [CallsClose])

theorem handleRemoved (k : ℕ) (tabId : ℤ) :
    Acts parseUrl c (.removed k tabId) (c.handleRemoved k tabId).1 (c.handleRemoved k tabId).2 := by
  unfold TabController.handleRemoved
  split_ifs
  · exact .closeThen rfl (by simp)
  · exact .finish rfl

theorem handleReplaced (k : ℕ) (addedTabId removedTabId : ℤ) :
    Acts parseUrl c (.replaced k addedTabId removedTabId)
      (c.handleReplaced k addedTabId removedTabId).1
      (c.handleReplaced k addedTabId removedTabId).2 := by
  unfold TabController.handleReplaced
  split
  · exact .finish rfl
  · split_ifs
    · exact .finish rfl
    · exact .closeThen rfl (by simp [CallsClose])

theorem handleUpdated (k : ℕ) (tabId : ℤ) (url : Option Text) :
    Acts parseUrl c (.updated k tabId url) (c.handleUpdated parseUrl k tabId url).1
      (c.handleUpdated parseUrl k tabId url).2 := by
  unfold TabController.handleUpdated
  split
  · rename_i s u hs
    split_ifs
    · exact .finish rfl
    · split
      · exact .closeThen rfl (by simp)
      · exact .renew rfl hs rfl
  · exact .finish rfl

/-- **One step**: an event that is not enabled does nothing, and any other acts as described. -/
theorem step (hs : c.step parseUrl e = some (c', calls)) :
    Acts parseUrl c e c' calls ∧ (c.tasks e.task = none ↔ e.starts) := by
  cases e with
  | openActive | openTab | close | activated | removed | replaced | updated =>
    simp only [TabController.step] at hs
    split_ifs at hs with hk
    rw [ne_eq, not_not] at hk
    obtain ⟨rfl, rfl⟩ := Prod.mk.inj (Option.some.inj hs)
    refine ⟨?_, by simp [TabEvent.starts, TabEvent.task, hk]⟩
    first
      | exact .await rfl (fun _ => .inl rfl) (.inl rfl)
      | exact .openTab rfl (.inl rfl) ..
      | exact .closeThen rfl (by simp)
      | exact .handleActivated .. | exact .handleRemoved ..
      | exact .handleReplaced .. | exact .handleUpdated ..
  | queried k tabId =>
    simp only [TabController.step] at hs
    split at hs
    · rename_i hk
      obtain ⟨rfl, rfl⟩ := Prod.mk.inj (Option.some.inj hs)
      exact ⟨.openTab rfl (.inr ⟨_, hk, rfl⟩) .., by simp [TabEvent.starts, TabEvent.task, hk]⟩
    · rename_i hk
      obtain ⟨rfl, rfl⟩ := Prod.mk.inj (Option.some.inj hs)
      exact ⟨.finish rfl, by simp [TabEvent.starts, TabEvent.task, hk]⟩
    · cases hs
  | fetched k url =>
    simp only [TabController.step] at hs
    split at hs
    · rename_i options tabId hk
      refine ⟨?_, by simp [TabEvent.starts, TabEvent.task, hk]⟩
      split at hs
      · rename_i identity hid
        obtain ⟨rfl, rfl⟩ := Prod.mk.inj (Option.some.inj hs)
        exact ⟨.install hk hid, .opening, rfl, by rintro ⟨⟩⟩
      · obtain ⟨rfl, rfl⟩ := Prod.mk.inj (Option.some.inj hs)
        exact .finish rfl
    · cases hs
  | openSettled k ok =>
    simp only [TabController.step] at hs
    split at hs
    · rename_i hk
      refine ⟨?_, by simp [TabEvent.starts, TabEvent.task, hk]⟩
      obtain ⟨rfl, rfl⟩ := Prod.mk.inj (Option.some.inj hs)
      cases ok with
      | true => exact .finish rfl
      | false => exact ⟨.reject hk, .finished, rfl, by rintro ⟨⟩⟩
    · rename_i hk
      obtain ⟨rfl, rfl⟩ := Prod.mk.inj (Option.some.inj hs)
      exact ⟨.finish rfl, by simp [TabEvent.starts, TabEvent.task, hk]⟩
    · cases hs
  | closeAnswered k ok =>
    simp only [TabController.step] at hs
    split at hs
    · rename_i reopen hk
      obtain ⟨rfl, rfl⟩ := Prod.mk.inj (Option.some.inj hs)
      refine ⟨.await rfl ?_ (.inr rfl), by simp [TabEvent.starts, TabEvent.task, hk]⟩
      intro ht
      refine .inr ⟨_, hk, ?_⟩
      cases reopen with
      | none => cases ht
      | some => rfl
    · cases hs
  | cleaned k ok =>
    simp only [TabController.step] at hs
    split at hs
    · rename_i failed options tabId hk
      obtain ⟨rfl, rfl⟩ := Prod.mk.inj (Option.some.inj hs)
      refine ⟨?_, by simp [TabEvent.starts, TabEvent.task, hk]⟩
      split_ifs
      · exact .sessionForTab rfl (.inr ⟨_, hk, rfl⟩) ..
      · exact .finish rfl
    · rename_i hk
      obtain ⟨rfl, rfl⟩ := Prod.mk.inj (Option.some.inj hs)
      exact ⟨.finish rfl, by simp [TabEvent.starts, TabEvent.task, hk]⟩
    · cases hs

end Acts

/-! ## The announced sessions -/

/-- What is announced as open is the session under control. -/
def Announced (tr : TabTrace) (c : TabController) : Prop :=
  ∀ p, p ∈ openPairs tr ↔ ∃ s ∈ c.session, s.pair = p

theorem openPairs_snoc (tr : TabTrace) (e : TabEvent) (calls : List Callback) :
    openPairs (tr ++ [(e, calls)]) = calls.foldl announce (openPairs tr) := by
  simp [openPairs, List.foldl_append]

theorem Announced.step (h : Announced tr c) (hC : Undisturbed parseUrl (tr, c) e)
    (he : SessionEffect parseUrl c e c'.session calls) :
    Announced (tr ++ [(e, calls)]) c' ∧
      ∀ s, .sessionOpen s ∈ calls → ∀ p ∈ openPairs tr, p = s.pair := by
  unfold Announced
  simp only [openPairs_snoc]
  generalize hsession : c'.session = session at he ⊢
  cases he with
  | idle hcalls =>
    rcases hcalls with rfl | rfl
    · exact ⟨h, by simp⟩
    · exact ⟨h, by simp⟩
  | @renew _ s s' hs hp =>
    have hall : ∀ p ∈ openPairs tr, p = s'.pair := by
      intro p hmem
      obtain ⟨t, ht, rfl⟩ := (h p).1 hmem
      rw [hs] at ht
      cases ht
      exact hp.symm
    refine ⟨?_, by simpa using hall⟩
    intro p
    simp only [List.foldl_cons, List.foldl_nil, announce, List.mem_cons]
    constructor
    · rintro (rfl | hmem)
      · exact ⟨s', rfl, rfl⟩
      · exact ⟨s', rfl, (hall p hmem).symm⟩
    · rintro ⟨t, ⟨⟩, rfl⟩
      exact .inl rfl
  | @close _ s hs =>
    refine ⟨?_, by simp⟩
    intro p
    simp only [List.foldl_cons, List.foldl_nil, announce, List.mem_filter, h p, hs]
    simpa using Eq.symm
  | @install k url options tabId identity hk hid =>
    -- no other session is under control
    have hdrops : c.drops parseUrl (.fetched k url) = false := hC.1
    have hall : ∀ p ∈ openPairs tr, p = (options.sessionId, tabId) := by
      intro p hmem
      obtain ⟨t, ht, rfl⟩ := (h p).1 hmem
      obtain ⟨t', ht', hid', htab⟩ := (TabController.Keeps.install hk hid hdrops).kept t ht
      cases ht'
      exact (Prod.ext hid' htab).symm
    refine ⟨?_, by simpa [TabController.install, ControlledTabSession.pair] using hall⟩
    intro p
    simp only [TabController.install, TabController.await, List.foldl_cons, List.foldl_nil, announce,
      List.mem_cons]
    constructor
    · rintro (rfl | hmem)
      · exact ⟨_, rfl, rfl⟩
      · exact ⟨_, rfl, (hall p hmem).symm⟩
    · rintro ⟨t, ⟨⟩, rfl⟩
      exact .inl rfl
  | reject hk =>
    have hdrops : c.drops parseUrl (.openSettled _ false) = false := hC
    simp [TabController.drops, hk] at hdrops

/-! ## Tasks that were closed -/

/-- Every task was started by an event. -/
def Started (tr : TabTrace) (c : TabController) : Prop :=
  ∀ k, c.tasks k ≠ none → ∃ x ∈ tr, x.1.starts && x.1.task = k

theorem Started.step (h : Started tr c) (hs : c.step parseUrl e = some (c', calls)) :
    Started (tr ++ [(e, calls)]) c' := by
  obtain ⟨⟨-, task, htasks, -⟩, hstarts⟩ := Acts.step hs
  intro k hk
  by_cases hke : e.task = k
  · by_cases hnew : c.tasks k = none
    · have hst : e.starts := hstarts.1 (hke ▸ hnew)
      exact ⟨(e, calls), by simp, by simp [hst, hke]⟩
    · obtain ⟨x, hx, hxk⟩ := h k hnew
      exact ⟨x, List.mem_append_left _ hx, hxk⟩
  · rw [htasks, Function.update_of_ne (Ne.symm hke)] at hk
    obtain ⟨x, hx, hxk⟩ := h k hk
    exact ⟨x, List.mem_append_left _ hx, hxk⟩

theorem closedSince_close (h : ∃ x ∈ tr, x.1.starts && x.1.task = k) {x : TabEvent × List Callback}
    (hx : CallsClose x) : closedSince (tr ++ [x]) k := by
  obtain ⟨y, hy, hyk⟩ := h
  have hne : tr.dropWhile (fun x => !(x.1.starts && x.1.task = k)) ≠ [] := by
    intro hnil
    have := List.dropWhile_eq_nil_iff.1 hnil y hy
    rw [hyk] at this
    cases this
  unfold closedSince
  rw [List.dropWhile_append, List.isEmpty_eq_false_iff.2 hne, if_neg Bool.false_ne_true,
    List.tail_append_of_ne_nil hne]
  simp [hx]

theorem closedSince_snoc (h : closedSince tr k) (x : TabEvent × List Callback) :
    closedSince (tr ++ [x]) k := by
  unfold closedSince at h ⊢
  have hne : tr.dropWhile (fun x => !(x.1.starts && x.1.task = k)) ≠ [] := by
    intro hnil
    rw [hnil] at h
    cases h
  rw [List.dropWhile_append, List.isEmpty_eq_false_iff.2 hne, if_neg Bool.false_ne_true,
    List.tail_append_of_ne_nil hne, List.any_append, h]
  rfl

/-- After a close, the session is gone, and a task that could install one began
    before it. -/
def ClosedTasks (tr : TabTrace) (c : TabController) : Prop :=
  ∀ xs x ys, tr = xs ++ x :: ys → CallsClose x → (∀ y ∈ ys, ¬ y.1.opens) →
    c.session = none ∧ ∀ k t, c.tasks k = some t → t.reopens → closedSince tr k

/-- `close()` is called by the first step of a task, and not in a call of `open`. -/
theorem CallsClose.starts (hx : CallsClose (e, calls)) : e.starts ∧ ¬ e.opens := by
  cases e with
  | close | removed | updated => simp [TabEvent.starts, TabEvent.opens]
  | _ => cases hx

theorem session_of_callsClose (hs : c.step parseUrl e = some (c', calls))
    (hx : CallsClose (e, calls)) : c'.session = none := by
  have heff := (Acts.step hs).1.effect
  cases e with
  | close k =>
    simp only [TabController.step] at hs
    split_ifs at hs
    have hc : (c.closeThen k none).1 = c' := congrArg Prod.fst (Option.some.inj hs)
    subst hc
    unfold TabController.closeThen
    split
    · assumption
    · rfl
  | removed | updated =>
    generalize c'.session = session at heff ⊢
    cases heff with
    | idle hcalls => rcases hcalls with rfl | rfl <;> cases hx
    | renew => cases hx
    | close => rfl
  | _ => cases hx

theorem ClosedTasks.step (h : ClosedTasks tr c) (hst : Started tr c)
    (hC : Undisturbed parseUrl (tr, c) e) (hs : c.step parseUrl e = some (c', calls)) :
    ClosedTasks (tr ++ [(e, calls)]) c' := by
  obtain ⟨⟨heff, task, htasks, htask⟩, hstarts⟩ := Acts.step hs
  intro xs x ys htr hx hys
  rcases Machine.snoc_eq_split htr with ⟨rfl, rfl, rfl⟩ | ⟨zs, rfl, rfl⟩
  · -- the close is this step
    refine ⟨session_of_callsClose hs hx, ?_⟩
    intro k t ht hre
    obtain ⟨hes, hno⟩ := CallsClose.starts hx
    by_cases hke : k = e.task
    · subst hke
      rw [htasks, Function.update_self] at ht
      cases ht
      rcases htask hre with hop | ⟨-, hnc⟩ | ⟨t, ht, -⟩
      · exact absurd hop hno
      · exact absurd hx hnc
      · rw [hstarts.2 hes] at ht
        cases ht
    · rw [htasks, Function.update_of_ne hke] at ht
      exact closedSince_close (hst k (by simp [ht])) hx
  · -- the close was before
    have hno : ¬ e.opens := hys (e, calls) (by simp)
    obtain ⟨hnone, hold⟩ := h xs x zs rfl hx fun y hy => hys y (by simp [hy])
    refine ⟨?_, ?_⟩
    · generalize c'.session = session at heff ⊢
      cases heff with
      | idle => exact hnone
      | renew hsome => rw [hnone] at hsome; cases hsome
      | close => rfl
      | install hk hid =>
        have hopen := hC.2 (by simp [hid])
        rw [hold _ _ hk rfl] at hopen
        cases hopen
      | reject => rfl
    · intro k t ht hre
      refine closedSince_snoc ?_ _
      by_cases hke : k = e.task
      · subst hke
        rw [htasks, Function.update_self] at ht
        cases ht
        rcases htask hre with hop | ⟨hsome, -⟩ | ⟨t, ht, hre'⟩
        · exact absurd hop hno
        · exact absurd hnone hsome
        · exact hold _ t ht hre'
      · rw [htasks, Function.update_of_ne hke] at ht
        exact hold k t ht hre

/-! ## Runs -/

/-- What holds after every step. -/
structure Single (tr : TabTrace) (c : TabController) : Prop where
  announced : Announced tr c
  started : Started tr c
  closedTasks : ClosedTasks tr c

theorem Single.initial : Single [] .initial where
  announced := by simp [Announced, openPairs, TabController.initial]
  started := by simp [Started, TabController.initial]
  closedTasks := by simp [ClosedTasks]

theorem Single.step (h : Single tr c) (hC : Undisturbed parseUrl (tr, c) e)
    (hs : c.step parseUrl e = some (c', calls)) : Single (tr ++ [(e, calls)]) c' where
  announced := (h.announced.step hC (Acts.step hs).1.effect).1
  started := h.started.step hs
  closedTasks := h.closedTasks.step h.started hC hs

/-- **Single-tab control**: in every run in which no answer of `tabs.get` comes too late
    and no opening is rejected, a closed session stays closed and no second one is
    announced. -/
theorem singleTab_undisturbed {x : TabTrace × TabController}
    (h : (tabMachine parseUrl).recording.RunIn (Undisturbed parseUrl) ([], .initial) tr x) :
    SingleTab tr x.2 := by
  have hstep : ∀ tr c e c' calls, Undisturbed parseUrl (tr, c) e → Single tr c →
      (tabMachine parseUrl).step c e = some (c', calls) → Single (tr ++ [(e, calls)]) c' ∧
        ∀ s, .sessionOpen s ∈ calls → ∀ p ∈ openPairs tr, p = s.pair := by
    intro tr c e c' calls hC hI hs
    exact ⟨hI.step hC hs, (hI.announced.step hC (Acts.step hs).1.effect).2⟩
  obtain ⟨hI, hsingle⟩ := h.positions (I := Single)
    (P := fun xs y => ∀ s, .sessionOpen s ∈ y.2 → ∀ p ∈ openPairs xs, p = s.pair) hstep .initial
  refine ⟨?_, hsingle⟩
  intro xs y ys htr hy hys
  exact (hI.closedTasks xs y ys htr hy hys).1

namespace Sample

def options (session : String) : SessionOptions := ⟨.lit session, .manualApproval, .locked⟩

def session (name : String) (tabId : ℤ) : ControlledTabSession :=
  ⟨.lit name, tabId, page, .lit "https://a.example", .manualApproval, .locked⟩

end Sample

/-- `S` is opened and closed, and then `T` is opened. -/
theorem singleTab_undisturbed_twoSessions :
    ∃ tr x, (tabMachine Sample.parseUrl).recording.RunIn (Undisturbed Sample.parseUrl)
        ([], .initial) tr x ∧ x.2.session = some (Sample.session "T" 9) ∧ SingleTab tr x.2 := by
  obtain ⟨⟨tr, x⟩, hm, hx⟩ :
      ∃ r ∈ (tabMachine Sample.parseUrl).recording.exec (Undisturbed Sample.parseUrl) ([], .initial)
        [.openTab 0 (Sample.options "S") 7, .fetched 0 (some Sample.page), .openSettled 0 true,
          .close 1, .openTab 2 (Sample.options "T") 9, .fetched 2 (some Sample.page)],
      r.2.2.session = some (Sample.session "T" 9) := by
    decide +kernel
  have hr := Machine.runIn_of_exec hm
  exact ⟨tr, x, hr, hx, singleTab_undisturbed hr⟩

/-- While `S` is being opened, `close()` returns at once; then its tab answers, and the
    session is there.  Two sessions are opened at once: both are announced. -/
theorem singleTab_fails :
    (∃ tr c, (tabMachine Sample.parseUrl).Run .initial tr c ∧ ∃ xs x ys, tr = xs ++ x :: ys ∧
        CallsClose x ∧ (∀ y ∈ ys, ¬ y.1.opens) ∧ c.session ≠ none) ∧
      ∃ tr c, (tabMachine Sample.parseUrl).Run .initial tr c ∧ ∃ xs x ys, tr = xs ++ x :: ys ∧
        ∃ s, .sessionOpen s ∈ x.2 ∧ ∃ p ∈ openPairs xs, p ≠ s.pair := by
  constructor
  · obtain ⟨⟨tr, c⟩, hm, htr, hx⟩ :
        ∃ r ∈ (tabMachine Sample.parseUrl).exec (fun _ _ => True) .initial
          [.openTab 0 (Sample.options "S") 7, .close 1, .fetched 0 (some Sample.page)],
        r.1 = [(.openTab 0 (Sample.options "S") 7, []), (.close 1, []),
            (.fetched 0 (some Sample.page), [.sessionOpen (Sample.session "S" 7)])] ∧
          r.2.session ≠ none := by
      decide +kernel
    refine ⟨tr, c, Machine.runIn_of_exec hm, [_], _, [_], htr, ?_, ?_, hx⟩
    · decide
    · decide
  · obtain ⟨⟨tr, c⟩, hm, htr⟩ :
        ∃ r ∈ (tabMachine Sample.parseUrl).exec (fun _ _ => True) .initial
          [.openTab 0 (Sample.options "S") 7, .openTab 1 (Sample.options "T") 9,
            .fetched 0 (some Sample.page), .fetched 1 (some Sample.page)],
        r.1 = [(.openTab 0 (Sample.options "S") 7, []), (.openTab 1 (Sample.options "T") 9, []),
            (.fetched 0 (some Sample.page), [.sessionOpen (Sample.session "S" 7)]),
            (.fetched 1 (some Sample.page), [.sessionOpen (Sample.session "T" 9)])] := by
      decide +kernel
    refine ⟨tr, c, Machine.runIn_of_exec hm, [_, _, _], _, [], htr, Sample.session "T" 9, ?_,
      (Sample.session "S" 7).pair, ?_, ?_⟩ <;> decide +kernel

end TideBot
