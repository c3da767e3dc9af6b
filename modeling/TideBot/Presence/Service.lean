/-
  The presence service (`CompanionPresenceSocketService`), as its steps between two
  awaits.

  A request starts a task.  It reads the clock, calls the store with what it has read,
  and then emits the state that the store has answered: it takes the emission lock of the
  user, reads the latest state, emits the one with the higher revision to the room of the
  user, and releases the lock.  `expire` emits for one user after the other.  Requests that
  are refused before the store is called (session, validation, rate limit) do nothing here.

  The lock of the Redis store can be waited for only so long (`timeout`), and it is given
  to somebody else if its holder keeps it too long (`lockExpired`); the lock of the memory
  store does neither.

  `Step` says what a step can do.
-/
import TideBot.Presence.Store

namespace TideBot

open Lib

/-- States to be emitted, each to the room of its user. -/
abbrev Emissions := List (Text × PresenceState)

/-- What a task of the service waits for. -/
inductive PresenceTask where
  /-- `get_readable_chat` -/
  | authorizing (user sid : Text) (presence : PresenceUpdate) (now : ℚ)
  /-- a call of the store -/
  | calling (user : Text) (op : PresenceOp) (now : ℚ)
  /-- `store.expire` -/
  | expiring (now : ℚ)
  /-- `enter_room` -/
  | entering (user sid : Text) (state : PresenceState)
  /-- `store.disconnect`, because the room could not be entered -/
  | retracting (user sid : Text) (now : ℚ)
  /-- `_emit`: the lock -/
  | ordering (user : Text) (state : PresenceState) (rest : Emissions)
  /-- `_emit`: the latest state -/
  | reading (user : Text) (state : PresenceState) (now : ℚ) (rest : Emissions)
  /-- `_emit`: `sio.emit` -/
  | emitting (user : Text) (state : PresenceState) (rest : Emissions)
  /-- `_emit`: the release of the lock -/
  | releasing (user : Text) (rest : Emissions)
  | finished

/-- Emit these states, one after the other. -/
def emitAll : Emissions → PresenceTask
  | [] => .finished
  | (u, st) :: rest => .ordering u st rest

/-- The state of the service: the store, the clock, the tasks and the emission locks. -/
structure PresenceService (σ : Type) where
  store : σ
  clock : ℚ
  tasks : ℕ → Option PresenceTask
  lock : Text → Option ℕ

/-- What happens to the service. -/
inductive ServiceEvent where
  | tick (now : ℚ)
  | update (k : ℕ) (user sid : Text) (presence : PresenceUpdate)
  | subscribe (k : ℕ) (user sid : Text)
  | disconnect (k : ℕ) (user sid : Text)
  | expire (k : ℕ)
  /-- The title of the chat, or `none` if it cannot be read. -/
  | granted (k : ℕ) (title : Option Text)
  | call (k : ℕ) (order : TableOrder) (scan : List Text)
  | entered (k : ℕ) (ok : Bool)
  | acquire (k : ℕ)
  | read (k : ℕ) (order : TableOrder)
  | emit (k : ℕ)
  | release (k : ℕ)
  | timeout (k : ℕ)
  | lockExpired (user : Text)

/-- What a step does that others see. -/
inductive ServiceOutput where
  | nothing
  /-- `update`, `clear`, `disconnect` or `expire` of the store has answered. -/
  | stored (states : Emissions)
  | emitted (user : Text) (state : PresenceState)
  deriving DecidableEq

/-- What a request does after its call of the store. -/
def afterCall (u : Text) : PresenceOp → Answer → PresenceTask
  | .subscribe sid, .state st => .entering u sid st
  | _, .state st | _, .maybe (some st) => .ordering u st []
  | _, _ => .finished

/-- The states that a call of the store has answered; `subscribe` changes no record. -/
def storedStates (u : Text) : PresenceOp → Answer → Emissions
  | .subscribe _, _ => []
  | _, .state st | _, .maybe (some st) => [(u, st)]
  | _, _ => []

namespace PresenceService

variable {ttl : ℤ} {σ : Type} (S : PresenceStore ttl σ) (s : PresenceService σ)

def initial (clock : ℚ) : PresenceService σ := ⟨S.initial, clock, fun _ => none, fun _ => none⟩

/-- Task `k` waits for `t`. -/
def await (k : ℕ) (t : PresenceTask) : PresenceService σ :=
  { s with tasks := Function.update s.tasks k (some t) }

/-- A new task. -/
def start (k : ℕ) (t : PresenceTask) : Option (PresenceService σ × ServiceOutput) :=
  if (s.tasks k).isSome then none else some (s.await k t, .nothing)

/-- The lock of `u`, given up by `k`. -/
def unlock (u : Text) (k : ℕ) : PresenceService σ :=
  if s.lock u = some k then { s with lock := Function.update s.lock u none } else s

/-- The call of the store that task `k` has come to. -/
def call (k : ℕ) (order : TableOrder) (scan : List Text) :
    Option (PresenceService σ × ServiceOutput) :=
  match s.tasks k with
  | some (.calling u op now) =>
    (S.machine.step s.store ⟨.on u op, now, order⟩).map fun r =>
      ({ s with store := r.1 }.await k (afterCall u op r.2), .stored (storedStates u op r.2))
  | some (.expiring now) =>
    match S.machine.step s.store ⟨.expire scan, now, order⟩ with
    | some (store, .expiries l) => some ({ s with store := store }.await k (emitAll l), .stored l)
    | _ => none
  | some (.retracting u sid now) =>
    (S.machine.step s.store ⟨.on u (.disconnect sid), now, order⟩).map fun r =>
      ({ s with store := r.1 }.await k .finished, .stored (storedStates u (.disconnect sid) r.2))
  | _ => none

/-- `latest = await self.store.state(...)`; an exception releases the lock. -/
def readLatest (k : ℕ) (order : TableOrder) : Option (PresenceService σ × ServiceOutput) :=
  match s.tasks k with
  | some (.reading u st now rest) =>
    match S.machine.step s.store ⟨.on u .state, now, order⟩ with
    | some (store, .state latest) =>
      let ordered := if st.revision < latest.revision then latest else st
      some ({ s with store := store }.await k (.emitting u ordered rest), .nothing)
    | some (store, _) => some (({ s with store := store }.unlock u k).await k .finished, .nothing)
    | none => none
  | _ => none

/-- One step; `none` if it cannot be taken. -/
def step : ServiceEvent → Option (PresenceService σ × ServiceOutput)
  | .tick now => if s.clock ≤ now then some ({ s with clock := now }, .nothing) else none
  | .update k u sid p =>
    if !p.valid then none
    else s.start k (if p.chatId = none then .calling u (.clear sid) s.clock
      else .authorizing u sid p s.clock)
  | .subscribe k u sid => s.start k (.calling u (.subscribe sid) s.clock)
  | .disconnect k u sid => s.start k (.calling u (.disconnect sid) s.clock)
  | .expire k => s.start k (.expiring s.clock)
  | .granted k title =>
    match s.tasks k, title with
    | some (.authorizing u sid p now), some title =>
      some (s.await k (.calling u (.update sid { p with chatTitle := some title }) now), .nothing)
    | some (.authorizing ..), none => some (s.await k .finished, .nothing)
    | _, _ => none
  | .call k order scan => s.call S k order scan
  | .entered k ok =>
    match s.tasks k with
    | some (.entering u sid st) =>
      some (s.await k (if ok then .ordering u st [] else .retracting u sid s.clock), .nothing)
    | _ => none
  | .acquire k =>
    match s.tasks k with
    | some (.ordering u st rest) =>
      if s.lock u = none then
        some ({ s with lock := Function.update s.lock u (some k) }.await k
          (.reading u st s.clock rest), .nothing)
      else none
    | _ => none
  | .read k order => s.readLatest S k order
  | .emit k =>
    match s.tasks k with
    | some (.emitting u st rest) => some (s.await k (.releasing u rest), .emitted u st)
    | _ => none
  | .release k =>
    match s.tasks k with
    | some (.releasing u rest) => some ((s.unlock u k).await k (emitAll rest), .nothing)
    | _ => none
  | .timeout k =>
    match s.tasks k with
    | some (.ordering ..) => some (s.await k .finished, .nothing)
    | _ => none
  | .lockExpired u =>
    if s.lock u = none then none
    else some ({ s with lock := Function.update s.lock u none }, .nothing)

end PresenceService

/-- The service as a machine. -/
def presenceService {ttl : ℤ} {σ : Type} (S : PresenceStore ttl σ) :
    Machine (PresenceService σ) ServiceEvent ServiceOutput :=
  ⟨fun s e => s.step S e⟩

/-! ## Tasks -/

namespace PresenceTask

/-- The states that the task is going to emit. -/
def pending : PresenceTask → Emissions
  | .entering u _ st => [(u, st)]
  | .ordering u st rest | .reading u st _ rest | .emitting u st rest => (u, st) :: rest
  | .releasing _ rest => rest
  | .authorizing .. | .calling .. | .expiring _ | .retracting .. | .finished => []

/-- Those of them that answer for a change of the store. -/
def owed : PresenceTask → Emissions
  | .entering .. => []
  | t => t.pending

/-- The time that the task has read and will call the store with. -/
def now : PresenceTask → Option ℚ
  | .authorizing _ _ _ now | .calling _ _ now | .expiring now | .retracting _ _ now
  | .reading _ _ now _ => some now
  | .entering .. | .ordering .. | .emitting .. | .releasing .. | .finished => none

/-- The user whose emission lock the task relies on. -/
def holds : PresenceTask → Option Text
  | .reading u .. | .emitting u .. => some u
  | _ => none

/-- The user whose emission lock the task was given. -/
def inside : PresenceTask → Option Text
  | .reading u .. | .emitting u .. | .releasing u _ => some u
  | _ => none

end PresenceTask

@[simp] theorem pending_emitAll (l : Emissions) : (emitAll l).pending = l := by
  cases l <;> rfl

@[simp] theorem owed_emitAll (l : Emissions) : (emitAll l).owed = l := by
  cases l <;> rfl

@[simp] theorem now_emitAll (l : Emissions) : (emitAll l).now = none := by
  cases l <;> rfl

@[simp] theorem holds_emitAll (l : Emissions) : (emitAll l).holds = none := by
  cases l <;> rfl

/-! ## What a step can do -/

namespace PresenceService

variable {ttl : ℤ} {σ : Type}

/-- What a step does. -/
inductive Step (S : PresenceStore ttl σ) (s : PresenceService σ) :
    ServiceEvent → PresenceService σ → ServiceOutput → Prop
  | tick {now} : s.clock ≤ now → Step S s (.tick now) { s with clock := now } .nothing
  | start {e k t} : s.tasks k = none → t.pending = [] → t.holds = none → t.now = some s.clock →
      Step S s e (s.await k t) .nothing
  /-- the chat was looked up, or the room was entered or not -/
  | move {e k t t'} : s.tasks k = some t → t'.pending ⊆ t.pending → t.owed = [] → t.inside = none →
      t'.holds = none → (t'.now = none ∨ t'.now = t.now ∨ t'.now = some s.clock) → Step S s e (s.await k t') .nothing
  | timeout {k u st rest} : s.tasks k = some (.ordering u st rest) →
      Step S s (.timeout k) (s.await k .finished) .nothing
  | call {k u op now order scan store a} : s.tasks k = some (.calling u op now) →
      S.machine.step s.store ⟨.on u op, now, order⟩ = some (store, a) →
      Step S s (.call k order scan) ({ s with store := store }.await k (afterCall u op a))
        (.stored (storedStates u op a))
  | expire {k now order scan store l} : s.tasks k = some (.expiring now) →
      S.machine.step s.store ⟨.expire scan, now, order⟩ = some (store, .expiries l) →
      Step S s (.call k order scan) ({ s with store := store }.await k (emitAll l)) (.stored l)
  | retract {k u sid now order scan store a} : s.tasks k = some (.retracting u sid now) →
      S.machine.step s.store ⟨.on u (.disconnect sid), now, order⟩ = some (store, a) →
      Step S s (.call k order scan) ({ s with store := store }.await k .finished)
        (.stored (storedStates u (.disconnect sid) a))
  | acquire {k u st rest} : s.tasks k = some (.ordering u st rest) → s.lock u = none →
      Step S s (.acquire k) ({ s with lock := Function.update s.lock u (some k) }.await k
        (.reading u st s.clock rest)) .nothing
  | read {k u st now rest order store latest} : s.tasks k = some (.reading u st now rest) →
      S.machine.step s.store ⟨.on u .state, now, order⟩ = some (store, .state latest) →
      Step S s (.read k order) ({ s with store := store }.await k
        (.emitting u (if st.revision < latest.revision then latest else st) rest)) .nothing
  | fail {k u st now rest order store a} : s.tasks k = some (.reading u st now rest) →
      S.machine.step s.store ⟨.on u .state, now, order⟩ = some (store, a) → (∀ x, a ≠ .state x) →
      Step S s (.read k order) (({ s with store := store }.unlock u k).await k .finished) .nothing
  | emit {k u st rest} : s.tasks k = some (.emitting u st rest) →
      Step S s (.emit k) (s.await k (.releasing u rest)) (.emitted u st)
  | release {k u rest} : s.tasks k = some (.releasing u rest) →
      Step S s (.release k) ((s.unlock u k).await k (emitAll rest)) .nothing
  | lockExpired {u k} : s.lock u = some k →
      Step S s (.lockExpired u) { s with lock := Function.update s.lock u none } .nothing

variable {S : PresenceStore ttl σ} {s s' : PresenceService σ} {e : ServiceEvent} {o : ServiceOutput}

theorem Step.of_start {k : ℕ} {t : PresenceTask} (hp : t.pending = []) (hh : t.holds = none)
    (hn : t.now = some s.clock) (h : s.start k t = some (s', o)) : Step S s e s' o := by
  unfold PresenceService.start at h
  split_ifs at h with hk
  cases h
  exact .start (by simpa using hk) hp hh hn

theorem Step.of_call {k : ℕ} {order : TableOrder} {scan : List Text}
    (h : s.call S k order scan = some (s', o)) : Step S s (.call k order scan) s' o := by
  unfold PresenceService.call at h
  split at h
  · rename_i hk
    obtain ⟨⟨store, a⟩, hstep, hr⟩ := Option.map_eq_some_iff.1 h
    cases hr
    exact .call hk hstep
  · rename_i hk
    split at h
    · rename_i hstep
      cases h
      exact .expire hk hstep
    · cases h
  · rename_i hk
    obtain ⟨⟨store, a⟩, hstep, hr⟩ := Option.map_eq_some_iff.1 h
    cases hr
    exact .retract hk hstep
  · cases h

theorem Step.of_read {k : ℕ} {order : TableOrder} (h : s.readLatest S k order = some (s', o)) :
    Step S s (.read k order) s' o := by
  unfold PresenceService.readLatest at h
  split at h
  · rename_i hk
    split at h
    · rename_i hstep
      cases h
      exact .read hk hstep
    · rename_i hne hstep
      cases h
      exact .fail hk hstep hne
    · cases h
  · cases h

/-- **A step is one of these.** -/
theorem Step.of_step (h : s.step S e = some (s', o)) : Step S s e s' o := by
  cases e with
  | tick now =>
    simp only [PresenceService.step] at h
    split_ifs at h with hle
    cases h
    exact .tick hle
  | update k u sid p =>
    simp only [PresenceService.step] at h
    split_ifs at h with hp hnone
    · exact .of_start rfl rfl rfl h
    · exact .of_start rfl rfl rfl h
  | subscribe | disconnect | expire => exact .of_start rfl rfl rfl h
  | granted k title =>
    simp only [PresenceService.step] at h
    split at h
    · rename_i hk
      cases h
      exact .move hk (List.Subset.refl _) rfl rfl rfl (.inr (.inl rfl))
    · rename_i hk
      cases h
      exact .move hk (List.Subset.refl _) rfl rfl rfl (.inl rfl)
    · cases h
  | call => exact .of_call h
  | entered k ok =>
    simp only [PresenceService.step] at h
    split at h
    · rename_i hk
      cases h
      cases ok with
      | true => exact .move hk (List.Subset.refl _) rfl rfl rfl (.inl rfl)
      | false => exact .move hk (List.nil_subset _) rfl rfl rfl (.inr (.inr rfl))
    · cases h
  | acquire k =>
    simp only [PresenceService.step] at h
    split at h
    · rename_i hk
      split_ifs at h with hfree
      cases h
      exact .acquire hk hfree
    · cases h
  | read => exact .of_read h
  | emit k =>
    simp only [PresenceService.step] at h
    split at h
    · rename_i hk
      cases h
      exact .emit hk
    · cases h
  | release k =>
    simp only [PresenceService.step] at h
    split at h
    · rename_i hk
      cases h
      exact .release hk
    · cases h
  | timeout k =>
    simp only [PresenceService.step] at h
    split at h
    · rename_i hk
      cases h
      exact .timeout hk
    · cases h
  | lockExpired u =>
    simp only [PresenceService.step] at h
    split_ifs at h with hfree
    cases h
    obtain ⟨k, hk⟩ := Option.ne_none_iff_exists'.1 hfree
    exact .lockExpired hk

end PresenceService

end TideBot
