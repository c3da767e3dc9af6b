/-
  The controller of the one tab (`background/tab-controller.ts`), as its steps
  between two awaits.

  A call of one of its methods, or an event of the browser, starts a task; a task
  runs until it awaits and goes on when what it waits for has come.  `Task` says
  what that is.  Any number of tasks run side by side, and each of them reads and
  writes the one `session`.

  The callbacks are those that the service worker gives: `onSessionOpen` tells the
  server; `onSessionClose` first tells the server (`closing`), then cancels the
  approvals and clears the page signals, and then waits for the debugger to detach
  (`cleaning`).  What a step calls is its output.
-/
import TideBot.Extension.Policy
import TideBot.Lib.Machine

namespace TideBot

open Lib

/-- `ControlledTabSession` -/
structure ControlledTabSession where
  sessionId : Text
  tabId : ℤ
  url : Text
  origin : Text
  actionMode : ActionMode
  tabPolicy : TabPolicy
  deriving DecidableEq

/-- The part of the options and of a session that `sessionForTab` copies. -/
structure SessionOptions where
  sessionId : Text
  actionMode : ActionMode
  tabPolicy : TabPolicy
  deriving DecidableEq

/-- The options to open the same session again. -/
def ControlledTabSession.options (s : ControlledTabSession) : SessionOptions :=
  ⟨s.sessionId, s.actionMode, s.tabPolicy⟩

/-- What a task waits for. -/
inductive Task where
  /-- `openActive`: `tabs.query` -/
  | querying (options : SessionOptions)
  /-- `sessionForTab`: `tabs.get` -/
  | fetching (options : SessionOptions) (tabId : ℤ)
  /-- `onSessionOpen`; if it fails, the session is cleared -/
  | opening
  /-- `onSessionOpen`, after which nothing is done -/
  | notifying
  /-- `onSessionClose`: the server's answer; then the session is perhaps opened
      again, on another tab -/
  | closing (reopen : Option (SessionOptions × ℤ))
  /-- `onSessionClose`: the debugger -/
  | cleaning (failed : Bool) (reopen : Option (SessionOptions × ℤ))
  | finished
  deriving DecidableEq

/-- What a step calls. -/
inductive Callback where
  | sessionOpen (s : ControlledTabSession)
  | sessionClose (s : ControlledTabSession)
  /-- `approvals.cancelAll()` and `executor.closeSession()` -/
  | cleanUp
  deriving DecidableEq

/-- The state of `SingleTabController`. -/
structure TabController where
  session : Option ControlledTabSession
  tasks : ℕ → Option Task

/-- Nothing is open. -/
def TabController.initial : TabController := ⟨none, fun _ => none⟩

/-- What happens to the controller: a call or an event starts task `k`, or what
    task `k` waits for has come. -/
inductive TabEvent where
  | openActive (k : ℕ) (options : SessionOptions)
  | openTab (k : ℕ) (options : SessionOptions) (tabId : ℤ)
  | close (k : ℕ)
  | activated (k : ℕ) (tabId : ℤ)
  | removed (k : ℕ) (tabId : ℤ)
  | replaced (k : ℕ) (addedTabId removedTabId : ℤ)
  | updated (k : ℕ) (tabId : ℤ) (url : Option Text)
  | queried (k : ℕ) (tabId : Option ℤ)
  | fetched (k : ℕ) (url : Option Text)
  | openSettled (k : ℕ) (ok : Bool)
  | closeAnswered (k : ℕ) (ok : Bool)
  | cleaned (k : ℕ) (ok : Bool)
  deriving DecidableEq

namespace TabController

variable (parseUrl : Text → Option ParsedUrl) (c : TabController)

/-- Task `k` waits for `task`. -/
def await (k : ℕ) (task : Task) : TabController :=
  { c with tasks := Function.update c.tasks k (some task) }

/-- `sessionForTab`, up to its await. -/
def sessionForTab (k : ℕ) (options : SessionOptions) (tabId : ℤ) : TabController :=
  if tabId < 0 then c.await k .finished else c.await k (.fetching options tabId)

/-- `open`, up to its first await. -/
def openTab (k : ℕ) (options : SessionOptions) (tabId : ℤ) : TabController × List Callback :=
  match c.session with
  | some s =>
    if s.sessionId ≠ options.sessionId ∨ s.tabId ≠ tabId then (c.await k .finished, [])
    else
      let updated := { s with actionMode := options.actionMode, tabPolicy := options.tabPolicy }
      ({ c with session := some updated }.await k .notifying, [.sessionOpen updated])
  | none => (c.sessionForTab k options tabId, [])

/-- `close`, up to its await; afterwards the session is perhaps opened again. -/
def closeThen (k : ℕ) (reopen : Option (SessionOptions × ℤ)) : TabController × List Callback :=
  match c.session with
  | none => (c.await k .finished, [])
  | some previous => ({ c with session := none }.await k (.closing reopen), [.sessionClose previous])

/-- `handleActivated` -/
def handleActivated (k : ℕ) (tabId : ℤ) : TabController × List Callback :=
  match c.session with
  | none => (c.await k .finished, [])
  | some s =>
    if s.tabPolicy ≠ .followActive ∨ tabId = s.tabId then (c.await k .finished, [])
    else c.closeThen k (some (s.options, tabId))

/-- `handleRemoved` -/
def handleRemoved (k : ℕ) (tabId : ℤ) : TabController × List Callback :=
  if c.session.any (·.tabId = tabId) then c.closeThen k none else (c.await k .finished, [])

/-- `handleReplaced` -/
def handleReplaced (k : ℕ) (addedTabId removedTabId : ℤ) : TabController × List Callback :=
  match c.session with
  | none => (c.await k .finished, [])
  | some s =>
    if s.tabId ≠ removedTabId then (c.await k .finished, [])
    else c.closeThen k (some (s.options, addedTabId))

/-- `handleUpdated` -/
def handleUpdated (k : ℕ) (tabId : ℤ) (url : Option Text) : TabController × List Callback :=
  match c.session, url with
  | some s, some url =>
    if s.tabId ≠ tabId ∨ url = [] then (c.await k .finished, [])
    else match pageIdentity parseUrl url with
      | none => c.closeThen k none
      | some identity =>
        let updated := { s with url := identity.url, origin := identity.origin }
        ({ c with session := some updated }.await k .notifying, [.sessionOpen updated])
  | _, _ => (c.await k .finished, [])

/-- `this.session = next`, when `tabs.get` has answered. -/
def install (k : ℕ) (options : SessionOptions) (tabId : ℤ) (identity : PageIdentity) :
    TabController × List Callback :=
  let next : ControlledTabSession := ⟨options.sessionId, tabId, identity.url, identity.origin,
    options.actionMode, options.tabPolicy⟩
  ({ c with session := some next }.await k .opening, [.sessionOpen next])

/-- One step; `none` if task `k` exists already, or does not wait for this. -/
def step : TabEvent → Option (TabController × List Callback)
  | .openActive k options =>
    if c.tasks k ≠ none then none else some (c.await k (.querying options), [])
  | .openTab k options tabId => if c.tasks k ≠ none then none else some (c.openTab k options tabId)
  | .close k => if c.tasks k ≠ none then none else some (c.closeThen k none)
  | .activated k tabId => if c.tasks k ≠ none then none else some (c.handleActivated k tabId)
  | .removed k tabId => if c.tasks k ≠ none then none else some (c.handleRemoved k tabId)
  | .replaced k addedTabId removedTabId =>
    if c.tasks k ≠ none then none else some (c.handleReplaced k addedTabId removedTabId)
  | .updated k tabId url =>
    if c.tasks k ≠ none then none else some (c.handleUpdated parseUrl k tabId url)
  | .queried k tabId =>
    match c.tasks k, tabId with
    | some (.querying options), some tabId => some (c.openTab k options tabId)
    | some (.querying _), none => some (c.await k .finished, [])
    | _, _ => none
  | .fetched k url =>
    match c.tasks k with
    | some (.fetching options tabId) =>
      match url.bind (pageIdentity parseUrl) with
      | some identity => some (c.install k options tabId identity)
      | none => some (c.await k .finished, [])
    | _ => none
  | .openSettled k ok =>
    match c.tasks k with
    | some .opening =>
      some ((if ok then c else { c with session := none }).await k .finished, [])
    | some .notifying => some (c.await k .finished, [])
    | _ => none
  | .closeAnswered k ok =>
    match c.tasks k with
    | some (.closing reopen) => some (c.await k (.cleaning (!ok) reopen), [.cleanUp])
    | _ => none
  | .cleaned k ok =>
    match c.tasks k with
    | some (.cleaning failed (some (options, tabId))) =>
      some (if !failed && ok then c.sessionForTab k options tabId else c.await k .finished, [])
    | some (.cleaning _ none) => some (c.await k .finished, [])
    | _ => none

/-- Whether the session under control is closed or replaced by an event: the
    user closes it, its tab goes away or leaves the web, the user turns to another
    tab that is to be followed, another session is installed, or an opening fails. -/
def drops : TabEvent → Bool
  | .close _ => true
  | .activated _ tabId => c.session.any fun s => s.tabPolicy = .followActive ∧ tabId ≠ s.tabId
  | .removed _ tabId => c.session.any (·.tabId = tabId)
  | .replaced _ _ removedTabId => c.session.any (·.tabId = removedTabId)
  | .updated _ tabId url => c.session.any fun s =>
      s.tabId = tabId ∧ ∃ u ∈ url, u ≠ [] ∧ pageIdentity parseUrl u = none
  | .fetched k url =>
    match c.tasks k with
    | some (.fetching options tabId) => (url.bind (pageIdentity parseUrl)).isSome &&
        c.session.any fun s => s.sessionId ≠ options.sessionId ∨ s.tabId ≠ tabId
    | _ => false
  | .openSettled k ok => !ok && c.tasks k = some .opening
  | _ => false

/-! ## The session -/

section
variable {parseUrl} {c c' : TabController} {k : ℕ}

/-- The session of `c` is still that of `c'`, up to its URL and its modes. -/
structure Keeps (c c' : TabController) : Prop where
  kept : ∀ s ∈ c.session, ∃ s' ∈ c'.session, s'.sessionId = s.sessionId ∧ s'.tabId = s.tabId

theorem Keeps.await (c : TabController) (k : ℕ) (task : Task) : c.Keeps (c.await k task) :=
  ⟨fun s hs => ⟨s, hs, rfl, rfl⟩⟩

theorem Keeps.update {s s' : ControlledTabSession} (hs : c.session = some s)
    (hid : s'.sessionId = s.sessionId) (htab : s'.tabId = s.tabId) (task : Task) :
    c.Keeps ({ c with session := some s' }.await k task) := by
  refine ⟨fun t ht => ⟨s', rfl, ?_⟩⟩
  rw [hs] at ht
  cases ht
  exact ⟨hid, htab⟩

theorem Keeps.sessionForTab (c : TabController) (k : ℕ) (options : SessionOptions) (tabId : ℤ) :
    c.Keeps (c.sessionForTab k options tabId) := by
  unfold TabController.sessionForTab
  split_ifs <;> exact .await ..

theorem Keeps.openTab (c : TabController) (k : ℕ) (options : SessionOptions) (tabId : ℤ) :
    c.Keeps (c.openTab k options tabId).1 := by
  unfold TabController.openTab
  split
  · rename_i s hs
    split_ifs
    · exact .await ..
    · refine .update hs ?_ ?_ .notifying <;> rfl
  · exact .sessionForTab ..

theorem Keeps.handleActivated {tabId : ℤ} (h : c.drops parseUrl (.activated k tabId) = false) :
    c.Keeps (c.handleActivated k tabId).1 := by
  unfold TabController.handleActivated
  split
  · exact .await ..
  · rename_i s hs
    split_ifs with hstay
    · exact .await ..
    · simp only [drops, hs, Option.any_some, decide_eq_false_iff_not] at h
      rw [not_or, not_not] at hstay
      exact absurd hstay h

theorem Keeps.handleRemoved {tabId : ℤ} (h : c.drops parseUrl (.removed k tabId) = false) :
    c.Keeps (c.handleRemoved k tabId).1 := by
  have h : c.session.any (·.tabId = tabId) = false := h
  rw [TabController.handleRemoved, h]
  exact .await ..

theorem Keeps.handleReplaced {addedTabId removedTabId : ℤ}
    (h : c.drops parseUrl (.replaced k addedTabId removedTabId) = false) :
    c.Keeps (c.handleReplaced k addedTabId removedTabId).1 := by
  unfold TabController.handleReplaced
  split
  · exact .await ..
  · rename_i s hs
    split_ifs with hstay
    · exact .await ..
    · simp only [drops, hs, Option.any_some, decide_eq_false_iff_not] at h
      exact absurd h hstay

theorem Keeps.handleUpdated {tabId : ℤ} {url : Option Text}
    (h : c.drops parseUrl (.updated k tabId url) = false) :
    c.Keeps (c.handleUpdated parseUrl k tabId url).1 := by
  unfold TabController.handleUpdated
  split
  · rename_i s u hs
    split_ifs with hstay
    · exact .await ..
    · rw [not_or, not_not] at hstay
      split
      · rename_i hid
        simp only [drops, hs, Option.any_some, decide_eq_false_iff_not] at h
        exact absurd ⟨hstay.1, u, rfl, hstay.2, hid⟩ h
      · refine .update hs ?_ ?_ .notifying <;> rfl
  · exact .await ..

theorem Keeps.install {url : Option Text} {options : SessionOptions} {tabId : ℤ}
    {identity : PageIdentity} (hk : c.tasks k = some (.fetching options tabId))
    (hid : url.bind (pageIdentity parseUrl) = some identity)
    (h : c.drops parseUrl (.fetched k url) = false) :
    c.Keeps (c.install k options tabId identity).1 := by
  refine ⟨fun s hs => ⟨_, rfl, ?_⟩⟩
  have hs : c.session = some s := hs
  simp only [drops, hk, hid, hs, Option.isSome_some, Bool.true_and, Option.any_some,
    decide_eq_false_iff_not, not_or, not_not] at h
  exact ⟨h.1.symm, h.2.symm⟩

/-- **The session stays under control** until an event drops it. -/
theorem Keeps.step {e : TabEvent} {calls : List Callback}
    (hs : c.step parseUrl e = some (c', calls)) (h : c.drops parseUrl e = false) : c.Keeps c' := by
  cases e with
  | close => cases h
  | openActive | openTab | activated | removed | replaced | updated =>
    simp only [TabController.step] at hs
    split_ifs at hs
    have hc := congrArg Prod.fst (Option.some.inj hs)
    subst hc
    first
      | exact .await .. | exact .openTab .. | exact .handleActivated h
      | exact .handleRemoved h | exact .handleReplaced h | exact .handleUpdated h
  | queried k tabId =>
    simp only [TabController.step] at hs
    split at hs
    · have hc := congrArg Prod.fst (Option.some.inj hs)
      subst hc
      exact .openTab ..
    · obtain ⟨rfl, -⟩ := Prod.mk.inj (Option.some.inj hs)
      exact .await ..
    · cases hs
  | fetched k url =>
    simp only [TabController.step] at hs
    split at hs
    · rename_i options tabId hk
      split at hs
      · rename_i identity hid
        have hc := congrArg Prod.fst (Option.some.inj hs)
        subst hc
        exact .install hk hid h
      · obtain ⟨rfl, -⟩ := Prod.mk.inj (Option.some.inj hs)
        exact .await ..
    · cases hs
  | openSettled k ok =>
    simp only [TabController.step] at hs
    split at hs
    · rename_i hk
      obtain ⟨rfl, -⟩ := Prod.mk.inj (Option.some.inj hs)
      simp only [drops, hk, decide_true, Bool.and_true, Bool.not_eq_false'] at h
      rw [if_pos h]
      exact .await ..
    · obtain ⟨rfl, -⟩ := Prod.mk.inj (Option.some.inj hs)
      exact .await ..
    · cases hs
  | closeAnswered k ok =>
    simp only [TabController.step] at hs
    split at hs
    · obtain ⟨rfl, -⟩ := Prod.mk.inj (Option.some.inj hs)
      exact .await ..
    · cases hs
  | cleaned k ok =>
    simp only [TabController.step] at hs
    split at hs
    · obtain ⟨rfl, -⟩ := Prod.mk.inj (Option.some.inj hs)
      split_ifs
      · exact .sessionForTab ..
      · exact .await ..
    · obtain ⟨rfl, -⟩ := Prod.mk.inj (Option.some.inj hs)
      exact .await ..
    · cases hs

end

end TabController

end TideBot
