/-
  What a presence store is (`socket/companion_presence.py`).

  A call of a store is an operation on a user, or `expire`; it comes with the time `now`
  that its caller has read, and with what the environment decides: the order in which
  `pairs` of Lua goes through a table, and the keys that `SCAN` of Redis finds.

  `PresenceStore` is what the two stores have in common: they do to each user what
  `UserPresence.next` does, up to leases that have run out.  They differ in how they read
  the state that an operation has come to (`reply`).
-/
import TideBot.Lib.Machine
import TideBot.Presence.User

namespace TideBot

open Lib

/-! ## Calls -/

/-- The order in which `pairs` goes through the table of a user. -/
structure TableOrder where
  pairs : Text → List (Text × PresenceEntry) → List (Text × PresenceEntry)
  perm : ∀ user l, (pairs user l).Perm l

/-- In the order of insertion. -/
def TableOrder.inserted : TableOrder := ⟨fun _ l => l, fun _ _ => .refl _⟩

/-- A call of a store: on a user, or `expire`, for which `SCAN` finds some keys. -/
inductive StoreCall where
  | on (user : Text) (op : PresenceOp)
  | expire (scan : List Text)
  deriving DecidableEq

/-- A call with its `now`. -/
structure TimedCall where
  call : StoreCall
  now : ℚ
  order : TableOrder

/-- What a call comes to. -/
inductive Answer where
  | state (s : PresenceState)
  | maybe (s : Option PresenceState)
  | expiries (l : List (Text × PresenceState))
  | raised
  deriving DecidableEq

/-- What candidates are compared by. -/
def PresenceEntry.rank (focused : Bool) (e : PresenceEntry) : ℚ ×ₗ ℚ ×ₗ Text :=
  toLex (if focused then e.presence.focusedAt else e.updatedAt,
    toLex (e.updatedAt, e.presence.clientId))

/-! ## What both do -/

/-- The answer of an operation on a user. -/
def PresenceOp.answer : PresenceOp → Option PresenceState → Answer
  | .disconnect _, s => .maybe s
  | _, some s => .state s
  | _, none => .raised

/-- `PresenceStore`: a store of the presence of every user.  Its operations are those of
    `UserPresence`, up to leases that have run out; `reply` is how it reads the state that an
    operation has come to. -/
structure PresenceStore (ttl : ℤ) (σ : Type) where
  machine : Machine σ TimedCall Answer
  initial : σ
  user : σ → Text → UserPresence
  reply : TableOrder → Text → PresenceOp → ℚ → UserPresence → PresenceState
  inv : σ → Prop
  inv_initial : inv initial
  inv_step : ∀ {s c s' a}, inv s → machine.step s c = some (s', a) → inv s'
  user_initial : ∀ u, user initial u = .unknown
  reply_revision : ∀ order u op now v, (reply order u op now v).revision = v.revision
  enabled : ∀ s u op now order, op ≠ .expire → (machine.step s ⟨.on u op, now, order⟩).isSome
  raised : ∀ {s u op now order s'}, machine.step s ⟨.on u op, now, order⟩ = some (s', .raised) →
    s' = s
  served : ∀ {s u op now order s' a}, machine.step s ⟨.on u op, now, order⟩ = some (s', a) →
    a ≠ .raised → ∀ s now order s', machine.step s ⟨.on u .state, now, order⟩ ≠ some (s', .raised)
  served_stale : ∀ {s u now}, inv s → (user s u).stale now →
    ∀ s now order s', machine.step s ⟨.on u .state, now, order⟩ ≠ some (s', .raised)
  other : ∀ {s u op now order s' a}, inv s → machine.step s ⟨.on u op, now, order⟩ = some (s', a) →
    ∀ w, w ≠ u → user s' w = user s w
  self : ∀ {s u op now order s' a}, inv s → machine.step s ⟨.on u op, now, order⟩ = some (s', a) →
    a ≠ .raised → (user s' u).prune now = ((user s u).next ttl now op).prune now ∧
      a = op.answer (if (user s u).answers now op then
        some (reply order u op now (((user s u).prune now).apply ttl now op)) else none)
  expire : ∀ {s scan now order s' a}, inv s →
    machine.step s ⟨.expire scan, now, order⟩ = some (s', a) →
    (∀ u, (user s' u).prune now = ((user s u).next ttl now .expire).prune now) ∧
      ∃ l, a = .expiries l ∧ ∀ u x, (u, x) ∈ l ↔ (user s u).stale now ∧
        x = reply order u .expire now (((user s u).prune now).apply ttl now .expire)

/-! ## Users that are remembered -/

section
variable {ttl : ℤ} {σ : Type} (S : PresenceStore ttl σ) {s s' : σ} {u : Text} {now : ℚ}
  {order : TableOrder} {a : Answer}

/-- A state that a call has answered. -/
def Answer.gives (a : Answer) (st : PresenceState) : Prop := a = .state st ∨ a = .maybe (some st)

theorem PresenceOp.of_gives {op : PresenceOp} {x : Option PresenceState} {st : PresenceState}
    (h : (op.answer x).gives st) : x = some st := by
  rcases h with h | h <;> cases op <;> cases x <;> cases h <;> rfl

/-- What a call makes of a user, and what it answers. -/
structure PresenceStore.Becomes (s s' : σ) (u : Text) (op : PresenceOp) (now : ℚ) : Prop where
  entries : (S.user s' u).entries = (((S.user s u).prune now).apply ttl now op).entries
  revision : (S.user s' u).revision = (((S.user s u).prune now).apply ttl now op).revision

variable {S}

theorem PresenceStore.Becomes.of_prune {op : PresenceOp}
    (h : (S.user s' u).prune now = ((S.user s u).next ttl now op).prune now)
    (hr : (S.user s u).remembers ttl now op) : S.Becomes s s' u op now := by
  obtain ⟨hent, hrev⟩ := UserPresence.next_of_remembers hr
  have hent' := congrArg UserPresence.entries h
  have hrev' := congrArg UserPresence.revision h
  simp only [UserPresence.prune_entries, UserPresence.prune_revision] at hent' hrev'
  exact ⟨hent'.trans hent, hrev'.trans hrev⟩

theorem PresenceStore.Becomes.le {op : PresenceOp} (h : S.Becomes s s' u op now) :
    (S.user s u).revision ≤ (S.user s' u).revision := by
  rw [h.revision]
  exact UserPresence.revision_le_apply (v := (S.user s u).prune now)

/-- **A call on a user that is remembered.** -/
theorem PresenceStore.on_remembered (hs : S.inv s) {op : PresenceOp}
    (h : S.machine.step s ⟨.on u op, now, order⟩ = some (s', a))
    (hr : (S.user s u).remembers ttl now op) :
    (s' = s ∧ a = .raised) ∨ S.Becomes s s' u op now ∧
      ∀ st, a.gives st → st = S.reply order u op now (((S.user s u).prune now).apply ttl now op) := by
  by_cases ha : a = .raised
  · subst ha
    exact .inl ⟨S.raised h, rfl⟩
  · obtain ⟨hnext, hans⟩ := S.self hs h ha
    refine .inr ⟨.of_prune hnext hr, ?_⟩
    intro st hst
    rw [hans] at hst
    have hsome := PresenceOp.of_gives hst
    split_ifs at hsome
    exact (Option.some.inj hsome).symm

theorem PresenceStore.expire_remembered (hs : S.inv s) {scan : List Text}
    {l : List (Text × PresenceState)}
    (h : S.machine.step s ⟨.expire scan, now, order⟩ = some (s', .expiries l))
    (hr : (S.user s u).remembers ttl now .expire) :
    S.Becomes s s' u .expire now ∧ ∀ st, (u, st) ∈ l →
      st = S.reply order u .expire now (((S.user s u).prune now).apply ttl now .expire) := by
  obtain ⟨hnext, l', hl, hmem⟩ := S.expire hs h
  cases hl
  refine ⟨.of_prune (hnext u) hr, ?_⟩
  intro st hst
  exact ((hmem u st).1 hst).2

end

/-! ## Two stores -/

section
variable {ttl : ℤ} {σ τ : Type} {S : PresenceStore ttl σ} {T : PresenceStore ttl τ} {s s' : σ}
  {t t' : τ} {clock : Option ℚ} {now : ℚ} {order : TableOrder} {a b : Answer}

/-- The stores keep the same for every user, up to leases that have run out. -/
def SameUsers (S : PresenceStore ttl σ) (T : PresenceStore ttl τ) (clock : Option ℚ) (s : σ) (t : τ) :
    Prop :=
  ∀ u x, (∀ c ∈ clock, c ≤ x) → (S.user s u).prune x = (T.user t u).prune x

theorem SameUsers.later (hclock : ∀ c ∈ clock, c ≤ now)
    (h : ∀ u, (S.user s' u).prune now = (T.user t' u).prune now ∨
      S.user s' u = S.user s u ∧ T.user t' u = T.user t u)
    (hold : SameUsers S T clock s t) : SameUsers S T (some now) s' t' := by
  intro u x hx
  have hle : now ≤ x := hx now rfl
  rcases h u with h | ⟨hs, ht⟩
  · rw [← UserPresence.prune_prune hle, h, UserPresence.prune_prune hle]
  · rw [hs, ht]
    exact hold u x fun c hc => (hclock c hc).trans hle

theorem SameUsers.on (h : SameUsers S T clock s t) (hs : S.inv s) (ht : T.inv t)
    (hclock : ∀ c ∈ clock, c ≤ now) {u : Text} {op : PresenceOp}
    (hm : S.machine.step s ⟨.on u op, now, order⟩ = some (s', a)) (ha : a ≠ .raised)
    (hr : T.machine.step t ⟨.on u op, now, order⟩ = some (t', b)) (hb : b ≠ .raised) :
    SameUsers S T (some now) s' t' ∧
      a = op.answer (if (S.user s u).answers now op then
        some (S.reply order u op now (((S.user s u).prune now).apply ttl now op)) else none) ∧
      b = op.answer (if (S.user s u).answers now op then
        some (T.reply order u op now (((S.user s u).prune now).apply ttl now op)) else none) := by
  have huser := h u now hclock
  obtain ⟨hm₁, ha₁⟩ := S.self hs hm ha
  obtain ⟨hr₁, hb₁⟩ := T.self ht hr hb
  refine ⟨h.later hclock ?_, ha₁, ?_⟩
  · intro w
    by_cases hw : w = u
    · subst hw
      rw [hm₁, hr₁, UserPresence.next, UserPresence.next, huser]
      exact .inl rfl
    · exact .inr ⟨S.other hs hm w hw, T.other ht hr w hw⟩
  · have hans : (S.user s u).answers now op = (T.user t u).answers now op := by
      have hentries : ((S.user s u).prune now).entries = ((T.user t u).prune now).entries :=
        congrArg UserPresence.entries huser
      rw [UserPresence.prune_entries, UserPresence.prune_entries] at hentries
      cases op <;> simp only [UserPresence.answers, UserPresence.stale, hentries]
    rw [hb₁, hans, huser]

theorem SameUsers.expire (h : SameUsers S T clock s t) (hs : S.inv s) (ht : T.inv t)
    (hclock : ∀ c ∈ clock, c ≤ now) {scan : List Text}
    (hm : S.machine.step s ⟨.expire scan, now, order⟩ = some (s', a))
    (hr : T.machine.step t ⟨.expire scan, now, order⟩ = some (t', b)) :
    SameUsers S T (some now) s' t' ∧ ∃ l l', a = .expiries l ∧ b = .expiries l' ∧
      (∀ u x, (u, x) ∈ l ↔ (S.user s u).stale now ∧
        x = S.reply order u .expire now (((S.user s u).prune now).apply ttl now .expire)) ∧
      ∀ u x, (u, x) ∈ l' ↔ (S.user s u).stale now ∧
        x = T.reply order u .expire now (((S.user s u).prune now).apply ttl now .expire) := by
  obtain ⟨hm₁, l, hl, hmem⟩ := S.expire hs hm
  obtain ⟨hr₁, l', hl', hmem'⟩ := T.expire ht hr
  refine ⟨h.later hclock ?_, l, l', hl, hl', hmem, ?_⟩
  · intro u
    rw [hm₁ u, hr₁ u, UserPresence.next, UserPresence.next, h u now hclock]
    exact .inl rfl
  · intro u x
    have hstale := congrArg (UserPresence.stale · now) (h u now hclock)
    simp only [UserPresence.stale_prune] at hstale
    rw [hmem', hstale, h u now hclock]

end

end TideBot
