/-
  The order of the emitted states.

  An emission takes the lock, reads the latest state and emits the newer of it and its
  own.  This repairs the order as long as

  * `lockKept`: no emission outlives its lock, so that only one is at work;
  * `kept`: the user is not forgotten, so that the revision does not go back;
  * `NoneAhead`: no pending emission carries a revision above that of the store.

  The invariants are `Sound`, for the locks, and `Ordered`, for what was emitted to a user.
-/
import TideBot.Presence.Service

namespace TideBot

open Lib PresenceService

variable {ttl : ℤ} {σ : Type} (S : PresenceStore ttl σ) {s s' : PresenceService σ}
  {e : ServiceEvent} {o : ServiceOutput} {u : Text} {k : ℕ}
  {tr : List (ServiceEvent × ServiceOutput)}

/-- The states emitted to the room of a user. -/
def statesTo (u : Text) (tr : List (ServiceEvent × ServiceOutput)) : List PresenceState :=
  tr.filterMap fun x => match x.2 with
    | .emitted v st => if v = u then some st else none
    | _ => none

/-- The operation that a step does to what is kept for the user, with its `now`. -/
def touches (u : Text) (s : PresenceService σ) : ServiceEvent → Option (PresenceOp × ℚ)
  | .call k _ _ =>
    match s.tasks k with
    | some (.calling v op now) => if v = u then some (op, now) else none
    | some (.expiring now) => some (.expire, now)
    | some (.retracting v sid now) => if v = u then some (.disconnect sid, now) else none
    | _ => none
  | .read k _ =>
    match s.tasks k with
    | some (.reading v _ now _) => if v = u then some (.state, now) else none
    | _ => none
  | _ => none

/-- The user is not forgotten. -/
def kept (u : Text) (s : PresenceService σ) (e : ServiceEvent) : Bool :=
  (touches u s e).all fun x => (S.user s.store u).remembers ttl x.2 x.1

/-- No emission outlives its lock. -/
def lockKept (s : PresenceService σ) : ServiceEvent → Bool
  | .lockExpired u => (s.lock u).all fun k => (s.tasks k).all fun t => t.holds = none
  | _ => true

/-- No pending emission carries a revision above that of the store. -/
def NoneAhead (u : Text) (s : PresenceService σ) : Prop :=
  ∀ k t, s.tasks k = some t → ∀ st, (u, st) ∈ t.pending → st.revision ≤ (S.user s.store u).revision

/-! ## Tasks and locks -/

/-- The state of this user can be read. -/
def PresenceStore.Served (u : Text) : Prop :=
  ∀ s now order s', S.machine.step s ⟨.on u .state, now, order⟩ ≠ some (s', .raised)

/-- The locks are with the tasks that rely on them, and times have been read. -/
structure Sound (s : PresenceService σ) : Prop where
  inv : S.inv s.store
  past : ∀ k t now, s.tasks k = some t → t.now = some now → now ≤ s.clock
  locked : ∀ k t u, s.tasks k = some t → t.holds = some u → s.lock u = some k
  held : ∀ k u, s.lock u = some k → ∃ t, s.tasks k = some t ∧ t.inside = some u
  served : ∀ k t x, s.tasks k = some t → x ∈ t.pending → S.Served x.1

variable {S}

theorem tasks_await (s : PresenceService σ) (k j : ℕ) (t : PresenceTask) :
    (s.await k t).tasks j = if j = k then some t else s.tasks j := Function.update_apply ..

theorem unlock_eq (s : PresenceService σ) (u : Text) (k : ℕ) :
    s.unlock u k =
      { s with lock := if s.lock u = some k then Function.update s.lock u none else s.lock } := by
  unfold PresenceService.unlock
  split_ifs <;> rfl

theorem Sound.initial (clock : ℚ) : Sound S (.initial S clock) where
  inv := S.inv_initial
  past _ _ _ h := by cases h
  locked _ _ _ h := by cases h
  held _ _ h := by cases h
  served _ _ _ h := by cases h

theorem Sound.update (h : Sound S s) {store : σ} {lock : Text → Option ℕ} {t : PresenceTask}
    (hinv : S.inv store) (hnow : ∀ n, t.now = some n → n ≤ s.clock)
    (hother : ∀ j u, j ≠ k → (lock u = some j ↔ s.lock u = some j))
    (hheld : ∀ u, lock u = some k → t.inside = some u)
    (hholds : ∀ u, t.holds = some u → lock u = some k) (hserved : ∀ x ∈ t.pending, S.Served x.1) :
    Sound S ({ s with store := store, lock := lock }.await k t) where
  inv := hinv
  past j t' n hj hn := by
    rw [tasks_await] at hj
    split_ifs at hj
    · cases hj
      exact hnow n hn
    · exact h.past j t' n hj hn
  locked j t' u hj hu := by
    rw [tasks_await] at hj
    split_ifs at hj with hjk
    · cases hj
      rw [hjk]
      exact hholds u hu
    · exact (hother j u hjk).2 (h.locked j t' u hj hu)
  held j u hj := by
    rw [tasks_await]
    split_ifs with hjk
    · subst hjk
      exact ⟨t, rfl, hheld u hj⟩
    · exact h.held j u ((hother j u hjk).1 hj)
  served j t' x hj hx := by
    rw [tasks_await] at hj
    split_ifs at hj
    · cases hj
      exact hserved x hx
    · exact h.served j t' x hj hx

theorem Sound.await (h : Sound S s) {store : σ} {t : PresenceTask} (hinv : S.inv store)
    (hfree : ∀ t₀, s.tasks k = some t₀ → t₀.inside = none)
    (hnow : ∀ n, t.now = some n → n ≤ s.clock) (hholds : t.holds = none)
    (hserved : ∀ x ∈ t.pending, S.Served x.1) : Sound S ({ s with store := store }.await k t) := by
  refine h.update hinv hnow (fun _ _ _ => Iff.rfl) ?_ ?_ hserved
  · intro u hu
    obtain ⟨t₀, ht₀, hin⟩ := h.held k u hu
    rw [hfree t₀ ht₀] at hin
    cases hin
  · intro u hu
    rw [hholds] at hu
    cases hu

theorem lock_unlock {lock : Text → Option ℕ} {u w : Text} {j : ℕ} (hj : j ≠ k) :
    (if lock u = some k then Function.update lock u none else lock) w = some j ↔
      lock w = some j := by
  split_ifs with hk
  · by_cases hw : w = u
    · subst hw
      rw [Function.update_self, hk]
      simp [Ne.symm hj]
    · rw [Function.update_of_ne hw]
  · rfl

theorem lock_unlock_self {lock : Text → Option ℕ} {u w : Text}
    (hin : ∀ w, lock w = some k → w = u) :
    (if lock u = some k then Function.update lock u none else lock) w ≠ some k := by
  split_ifs with hk
  · by_cases hw : w = u
    · subst hw
      rw [Function.update_self]
      simp
    · rw [Function.update_of_ne hw]
      exact fun h => hw (hin w h)
  · exact fun h => hk (hin w h ▸ h)

theorem served_afterCall {u : Text} {op : PresenceOp} {now : ℚ} {order : TableOrder} {st st' : σ}
    {a : Answer} (h : S.machine.step st ⟨.on u op, now, order⟩ = some (st', a)) :
    ∀ x ∈ (afterCall u op a).pending, x.1 = u ∧ a.gives x.2 ∧ S.Served u := by
  intro x hx
  have hgives : x.1 = u ∧ a.gives x.2 := by
    unfold afterCall at hx
    split at hx <;> simp only [PresenceTask.pending, List.mem_singleton, List.not_mem_nil] at hx
    · subst hx
      exact ⟨rfl, .inl rfl⟩
    · subst hx
      exact ⟨rfl, .inl rfl⟩
    · subst hx
      exact ⟨rfl, .inr rfl⟩
  refine ⟨hgives.1, hgives.2, S.served h ?_⟩
  rintro rfl
  rcases hgives.2 with h | h <;> cases h

theorem Sound.read_state (h : Sound S s) {st : PresenceState} {now : ℚ} {rest : Emissions}
    (hk : s.tasks k = some (.reading u st now rest)) {order : TableOrder} {store : σ} {a : Answer}
    (hs : S.machine.step s.store ⟨.on u .state, now, order⟩ = some (store, a)) :
    ∃ latest, a = .state latest := by
  have hserved : S.Served u := h.served k _ (u, st) hk List.mem_cons_self
  have ha : a ≠ .raised := by
    rintro rfl
    exact hserved _ _ _ _ hs
  exact ⟨_, (S.self h.inv hs ha).2⟩

/-- **A step keeps the locks in order**, if no emission outlives its own. -/
theorem Sound.step (h : Sound S s) (hC : lockKept s e) (hs : Step S s e s' o) : Sound S s' := by
  cases hs with
  | tick hle =>
    refine ⟨h.inv, ?_, h.locked, h.held, h.served⟩
    intro k t n hk hn
    exact (h.past k t n hk hn).trans hle
  | @start _ k t hnone hp hh hn =>
    refine h.await h.inv ?_ ?_ hh ?_
    · intro t₀ ht₀
      rw [hnone] at ht₀
      cases ht₀
    · intro n hn'
      rw [hn] at hn'
      cases hn'
      exact le_rfl
    · rw [hp]
      rintro x ⟨⟩
  | @move _ k t t' hk hp howed hin hh hn =>
    refine h.await h.inv ?_ ?_ hh ?_
    · intro t₀ ht₀
      rw [hk] at ht₀
      cases ht₀
      exact hin
    · intro n hn'
      rcases hn with hn | hn | hn
      · rw [hn] at hn'
        cases hn'
      · rw [hn] at hn'
        exact h.past k t n hk hn'
      · rw [hn] at hn'
        cases hn'
        exact le_rfl
    · intro x hx
      exact h.served k t x hk (hp hx)
  | @timeout k u st rest hk =>
    refine h.await h.inv ?_ (by rintro n ⟨⟩) rfl (by rintro x ⟨⟩)
    intro t₀ ht₀
    rw [hk] at ht₀
    cases ht₀
    rfl
  | @call k u op now order scan store a hk hstep =>
    refine h.await (S.inv_step h.inv hstep) ?_ ?_ ?_ ?_
    · intro t₀ ht₀
      rw [hk] at ht₀
      cases ht₀
      rfl
    · intro n hn
      unfold afterCall at hn
      split at hn <;> cases hn
    · unfold afterCall
      split <;> rfl
    · intro x hx
      obtain ⟨hxu, -, hserved⟩ := served_afterCall hstep x hx
      rw [hxu]
      exact hserved
  | @expire k now order scan store l hk hstep =>
    refine h.await (S.inv_step h.inv hstep) ?_ (by simp) (by simp) ?_
    · intro t₀ ht₀
      rw [hk] at ht₀
      cases ht₀
      rfl
    · rintro ⟨v, st⟩ hx
      rw [pending_emitAll] at hx
      obtain ⟨-, l', hl, hmem⟩ := S.expire h.inv hstep
      cases hl
      exact S.served_stale h.inv ((hmem v st).1 hx).1
  | @retract k u sid now order scan store a hk hstep =>
    refine h.await (S.inv_step h.inv hstep) ?_ (by rintro n ⟨⟩) rfl (by rintro x ⟨⟩)
    intro t₀ ht₀
    rw [hk] at ht₀
    cases ht₀
    rfl
  | @acquire k u st rest hk hfree =>
    refine h.update h.inv ?_ ?_ ?_ ?_ ?_
    · rintro n ⟨⟩
      exact le_rfl
    · intro j w hj
      by_cases hw : w = u
      · subst hw
        rw [Function.update_self, hfree]
        simp [Ne.symm hj]
      · rw [Function.update_of_ne hw]
    · intro w hw
      by_cases hwu : w = u
      · rw [hwu]
        rfl
      · rw [Function.update_of_ne hwu] at hw
        obtain ⟨t₀, ht₀, hin⟩ := h.held k w hw
        rw [hk] at ht₀
        cases ht₀
        cases hin
    · rintro w ⟨⟩
      rw [Function.update_self]
    · intro x hx
      exact h.served k _ x hk hx
  | @read k u st now rest order store latest hk hstep =>
    refine h.update (S.inv_step h.inv hstep) (by rintro n ⟨⟩) (fun _ _ _ => Iff.rfl) ?_ ?_ ?_
    · intro w hw
      obtain ⟨t₀, ht₀, hin⟩ := h.held k w hw
      rw [hk] at ht₀
      cases ht₀
      exact hin
    · rintro w ⟨⟩
      exact h.locked k _ u hk rfl
    · intro x hx
      rcases List.mem_cons.1 hx with rfl | hx
      · exact h.served k _ (u, st) hk List.mem_cons_self
      · exact h.served k _ x hk (List.mem_cons_of_mem _ hx)
  | fail hk hstep hne =>
    obtain ⟨latest, rfl⟩ := h.read_state hk hstep
    exact absurd rfl (hne latest)
  | @emit k u st rest hk =>
    refine h.update h.inv (by rintro n ⟨⟩) (fun _ _ _ => Iff.rfl) ?_ (by rintro w ⟨⟩) ?_
    · intro w hw
      obtain ⟨t₀, ht₀, hin⟩ := h.held k w hw
      rw [hk] at ht₀
      cases ht₀
      exact hin
    · intro x hx
      exact h.served k _ x hk (List.mem_cons_of_mem _ hx)
  | @release k u rest hk =>
    rw [unlock_eq]
    refine h.update h.inv (by simp) (fun j w hj => lock_unlock hj) ?_ (by simp) ?_
    · intro w hw
      refine absurd hw (lock_unlock_self ?_)
      intro w hw
      obtain ⟨t₀, ht₀, hin⟩ := h.held k w hw
      rw [hk] at ht₀
      cases ht₀
      exact (Option.some.inj hin).symm
    · intro x hx
      rw [pending_emitAll] at hx
      exact h.served k _ x hk hx
  | @lockExpired u k hk =>
    refine ⟨h.inv, h.past, ?_, ?_, h.served⟩
    · intro j t w hj hw
      have htask : s.tasks j = some t := hj
      have hlock := h.locked j t w htask hw
      have hwu : w ≠ u := by
        rintro rfl
        simp [lockKept, hlock, htask, hw] at hC
      exact (Function.update_of_ne hwu ..).trans hlock
    · intro j w hj
      have hj : Function.update s.lock u none w = some j := hj
      have hwu : w ≠ u := by
        rintro rfl
        rw [Function.update_self] at hj
        cases hj
      rw [Function.update_of_ne hwu] at hj
      exact h.held j w hj

/-! ## What a step does to a user -/

/-- What is pending for the user after a step was pending before, or is `fresh`. -/
def Pends (u : Text) (s s' : PresenceService σ) (fresh : PresenceState → Prop) : Prop :=
  ∀ k t', s'.tasks k = some t' → ∀ st, (u, st) ∈ t'.pending →
    (∃ t, s.tasks k = some t ∧ (u, st) ∈ t.pending) ∨ fresh st

theorem Pends.await {s₁ : PresenceService σ} {t : PresenceTask} {fresh : PresenceState → Prop}
    (hs₁ : s₁.tasks = s.tasks)
    (hk : ∀ st, (u, st) ∈ t.pending → (∃ t, s.tasks k = some t ∧ (u, st) ∈ t.pending) ∨ fresh st) :
    Pends u s (s₁.await k t) fresh := by
  intro j t' hj st hst
  rw [tasks_await, hs₁] at hj
  split_ifs at hj with hjk
  · cases hj
    subst hjk
    exact hk st hst
  · exact .inl ⟨t', hj, hst⟩

/-- **What a step does to a user that is remembered**: nothing, or an operation of the
    store; what is new among the pending states is its answer. -/
theorem step_user (h : Sound S s) (hk : kept S u s e) (hs : Step S s e s' o) :
    (S.user s'.store u = S.user s.store u ∧ Pends u s s' fun _ => False) ∨
      ∃ op now order, touches u s e = some (op, now) ∧ S.Becomes s.store s'.store u op now ∧
        Pends u s s' fun st =>
          st = S.reply order u op now (((S.user s.store u).prune now).apply ttl now op) := by
  cases hs with
  | tick | lockExpired => exact .inl ⟨rfl, fun k t' hk st hst => .inl ⟨t', hk, hst⟩⟩
  | @start _ k t hnone hp =>
    refine .inl ⟨rfl, .await rfl ?_⟩
    intro st hst
    rw [hp] at hst
    cases hst
  | @move _ k t t' hk hp =>
    refine .inl ⟨rfl, .await rfl ?_⟩
    intro st hst
    exact .inl ⟨t, hk, hp hst⟩
  | timeout =>
    refine .inl ⟨rfl, .await rfl ?_⟩
    rintro st ⟨⟩
  | @call k v op now order scan store a hj hstep =>
    by_cases hv : v = u
    · subst hv
      have htouch : touches v s (.call k order scan) = some (op, now) := by
        simp [touches, hj]
      have hr : (S.user s.store v).remembers ttl now op := by
        simpa [kept, htouch] using hk
      rcases S.on_remembered h.inv hstep hr with ⟨rfl, rfl⟩ | ⟨hbec, hgives⟩
      · refine .inl ⟨rfl, .await rfl ?_⟩
        intro st hst
        rcases (served_afterCall hstep _ hst).2.1 with hno | hno <;> cases hno
      · refine .inr ⟨op, now, order, htouch, hbec, .await rfl ?_⟩
        intro st hst
        exact .inr (hgives st (served_afterCall hstep _ hst).2.1)
    · refine .inl ⟨S.other h.inv hstep u (Ne.symm hv), .await rfl ?_⟩
      intro st hst
      exact absurd (served_afterCall hstep _ hst).1.symm hv
  | @expire k now order scan store l hj hstep =>
    have htouch : touches u s (.call k order scan) = some (.expire, now) := by
      simp [touches, hj]
    have hr : (S.user s.store u).remembers ttl now .expire := by
      simpa [kept, htouch] using hk
    obtain ⟨hbec, hgives⟩ := S.expire_remembered h.inv hstep hr
    refine .inr ⟨.expire, now, order, htouch, hbec, .await rfl ?_⟩
    intro st hst
    rw [pending_emitAll] at hst
    exact .inr (hgives st hst)
  | @retract k v sid now order scan store a hj hstep =>
    by_cases hv : v = u
    · subst hv
      have htouch : touches v s (.call k order scan) = some (.disconnect sid, now) := by
        simp [touches, hj]
      have hr : (S.user s.store v).remembers ttl now (.disconnect sid) := by
        simpa [kept, htouch] using hk
      rcases S.on_remembered h.inv hstep hr with ⟨rfl, rfl⟩ | ⟨hbec, -⟩
      · exact .inl ⟨rfl, .await rfl (by rintro st ⟨⟩)⟩
      · exact .inr ⟨.disconnect sid, now, order, htouch, hbec, .await rfl (by rintro st ⟨⟩)⟩
    · exact .inl ⟨S.other h.inv hstep u (Ne.symm hv), .await rfl (by rintro st ⟨⟩)⟩
  | @acquire k v st rest hj hfree =>
    refine .inl ⟨rfl, .await rfl ?_⟩
    intro st hst
    exact .inl ⟨_, hj, hst⟩
  | @read k v st now rest order store latest hj hstep =>
    by_cases hv : v = u
    · subst hv
      have htouch : touches v s (.read k order) = some (.state, now) := by
        simp [touches, hj]
      have hr : (S.user s.store v).remembers ttl now .state := by
        simpa [kept, htouch] using hk
      rcases S.on_remembered h.inv hstep hr with ⟨-, hno⟩ | ⟨hbec, hgives⟩
      · cases hno
      · refine .inr ⟨.state, now, order, htouch, hbec, .await rfl ?_⟩
        intro st' hst'
        rcases List.mem_cons.1 hst' with heq | hrest
        · obtain rfl := (Prod.mk.inj heq).2
          split_ifs
          · exact .inr (hgives latest (.inl rfl))
          · exact .inl ⟨_, hj, List.mem_cons_self⟩
        · exact .inl ⟨_, hj, List.mem_cons_of_mem _ hrest⟩
    · refine .inl ⟨S.other h.inv hstep u (Ne.symm hv), .await rfl ?_⟩
      intro st' hst'
      rcases List.mem_cons.1 hst' with heq | hrest
      · exact absurd (Prod.mk.inj heq).1.symm hv
      · exact .inl ⟨_, hj, List.mem_cons_of_mem _ hrest⟩
  | fail hj hstep hne =>
    obtain ⟨latest, rfl⟩ := h.read_state hj hstep
    exact absurd rfl (hne latest)
  | @emit k v st rest hj =>
    refine .inl ⟨rfl, .await rfl ?_⟩
    intro st' hst'
    exact .inl ⟨_, hj, List.mem_cons_of_mem _ hst'⟩
  | @release k v rest hj =>
    rw [unlock_eq]
    refine .inl ⟨rfl, .await rfl ?_⟩
    intro st hst
    rw [pending_emitAll] at hst
    exact .inl ⟨_, hj, hst⟩

theorem revision_le (h : Sound S s) (hk : kept S u s e) (hs : Step S s e s' o) :
    (S.user s.store u).revision ≤ (S.user s'.store u).revision := by
  rcases step_user h hk hs with ⟨hsame, -⟩ | ⟨op, now, order, -, hbec, -⟩
  · rw [hsame]
  · exact hbec.le

theorem NoneAhead.step (hn : NoneAhead S u s) (h : Sound S s) (hk : kept S u s e)
    (hs : Step S s e s' o) : NoneAhead S u s' := by
  have hle := revision_le h hk hs
  intro k t' ht' st hst
  rcases step_user h hk hs with ⟨-, hpend⟩ | ⟨op, now, order, -, hbec, hpend⟩
  · rcases hpend k t' ht' st hst with ⟨t, ht, hold⟩ | hno
    · exact (hn k t ht st hold).trans hle
    · exact hno.elim
  · rcases hpend k t' ht' st hst with ⟨t, ht, hold⟩ | rfl
    · exact (hn k t ht st hold).trans hle
    · rw [S.reply_revision, hbec.revision]

/-- **A task that comes to emit** has read the latest state. -/
theorem emitting_step (h : Sound S s) (hk : kept S u s e) (hs : Step S s e s' o) {st : PresenceState}
    {rest : Emissions} (he : s'.tasks k = some (.emitting u st rest)) :
    s.tasks k = some (.emitting u st rest) ∨ (S.user s'.store u).revision ≤ st.revision := by
  -- a task that moves to something else than an emission
  have hmove : ∀ {j : ℕ} {t : PresenceTask}, s'.tasks = Function.update s.tasks j (some t) →
      t.holds = none ∨ t.now ≠ none → s.tasks k = some (.emitting u st rest) := by
    intro j t hs' ht
    by_cases hkj : k = j
    · subst hkj
      rw [hs', Function.update_self] at he
      cases he
      rcases ht with ht | ht
      · cases ht
      · exact absurd rfl ht
    · rw [hs', Function.update_of_ne hkj] at he
      exact he
  cases hs with
  | tick | lockExpired => exact .inl he
  | start _ _ hh => exact .inl (hmove rfl (.inl hh))
  | move _ _ _ _ hh => exact .inl (hmove rfl (.inl hh))
  | timeout | retract | emit => exact .inl (hmove rfl (.inl rfl))
  | @call j v op now order scan store a hj hstep =>
    refine .inl (hmove rfl (.inl ?_))
    unfold afterCall
    split <;> rfl
  | @expire j now order scan store l hj hstep => exact .inl (hmove rfl (.inl (holds_emitAll l)))
  | acquire => exact .inl (hmove rfl (.inr (by simp [PresenceTask.now])))
  | @read j v st₀ now rest₀ order store latest hj hstep =>
    by_cases hkj : k = j
    · -- what is emitted is not older than what the store has
      rw [tasks_await, if_pos hkj] at he
      injection he with he
      injection he with hv hst
      subst hv hst
      have htouch : touches v s (.read j order) = some (.state, now) := by
        simp [touches, hj]
      have hr : (S.user s.store v).remembers ttl now .state := by
        simpa [kept, htouch] using hk
      rcases S.on_remembered h.inv hstep hr with ⟨-, hno⟩ | ⟨hbec, hgives⟩
      · cases hno
      · have hlatest : latest.revision = (S.user store v).revision := by
          rw [hgives latest (.inl rfl), S.reply_revision, hbec.revision]
        refine .inr ?_
        show (S.user store v).revision ≤ _
        split_ifs <;> omega
    · rw [tasks_await, if_neg hkj] at he
      exact .inl he
  | fail hj hstep hne =>
    obtain ⟨latest, rfl⟩ := h.read_state hj hstep
    exact absurd rfl (hne latest)
  | @release j v rest hj =>
    rw [unlock_eq] at hmove
    exact .inl (hmove rfl (.inl (holds_emitAll rest)))

/-! ## What was emitted -/

/-- What was emitted to the user is in order, and what is being emitted will be. -/
structure Ordered (S : PresenceStore ttl σ) (u : Text) (tr : List (ServiceEvent × ServiceOutput))
    (s : PresenceService σ) : Prop where
  sound : Sound S s
  ahead : NoneAhead S u s
  sorted : (statesTo u tr).Pairwise fun a b => a.revision ≤ b.revision
  stored : ∀ st ∈ statesTo u tr, st.revision ≤ (S.user s.store u).revision
  emitting : ∀ k st rest, s.tasks k = some (.emitting u st rest) →
    ∀ x ∈ statesTo u tr, x.revision ≤ st.revision

theorem Ordered.start (h : Sound S s) (hn : NoneAhead S u s) : Ordered S u [] s :=
  ⟨h, hn, .nil, by rintro st ⟨⟩, by rintro k st rest hk x ⟨⟩⟩

theorem statesTo_append (u : Text) (xs ys : List (ServiceEvent × ServiceOutput)) :
    statesTo u (xs ++ ys) = statesTo u xs ++ statesTo u ys := List.filterMap_append

theorem statesTo_step (hs : Step S s e s' o) :
    statesTo u [(e, o)] = [] ∨ ∃ k st rest, s.tasks k = some (.emitting u st rest) ∧
      statesTo u [(e, o)] = [st] ∧ s' = s.await k (.releasing u rest) := by
  cases hs with
  | @emit k v st rest hk =>
    by_cases hv : v = u
    · subst hv
      exact .inr ⟨k, st, rest, hk, by simp [statesTo], rfl⟩
    · exact .inl (by simp [statesTo, hv])
  | _ => exact .inl rfl

theorem Sound.emitting_unique (h : Sound S s) {j : ℕ} {st st' : PresenceState} {rest rest' : Emissions}
    (hk : s.tasks k = some (.emitting u st rest)) (hj : s.tasks j = some (.emitting u st' rest')) :
    j = k := by
  have hlock := h.locked k _ u hk rfl
  rw [h.locked j _ u hj rfl] at hlock
  exact Option.some.inj hlock

/-- **A step keeps the order of what was emitted.** -/
theorem Ordered.step (h : Ordered S u tr s) (hC : lockKept s e) (hk : kept S u s e)
    (hs : Step S s e s' o) : Ordered S u (tr ++ [(e, o)]) s' := by
  have hsound := h.sound.step hC hs
  have hahead := h.ahead.step h.sound hk hs
  have hle := revision_le h.sound hk hs
  rcases statesTo_step (u := u) hs with hquiet | ⟨k, st, rest, ht, hemit, rfl⟩
  · have htr : statesTo u (tr ++ [(e, o)]) = statesTo u tr := by
      rw [statesTo_append, hquiet, List.append_nil]
    refine ⟨hsound, hahead, by rw [htr]; exact h.sorted, ?_, ?_⟩
    · rw [htr]
      intro x hx
      exact (h.stored x hx).trans hle
    · rw [htr]
      intro k st rest he x hx
      rcases emitting_step h.sound hk hs he with hold | hread
      · exact h.emitting k st rest hold x hx
      · exact ((h.stored x hx).trans hle).trans hread
  · refine ⟨hsound, hahead, ?_, ?_, ?_⟩
    · rw [statesTo_append, hemit, List.pairwise_append]
      refine ⟨h.sorted, List.pairwise_singleton _ _, ?_⟩
      intro x hx y hy
      rw [List.mem_singleton.1 hy]
      exact h.emitting k st rest ht x hx
    · rw [statesTo_append, hemit]
      intro x hx
      rcases List.mem_append.1 hx with hx | hx
      · exact h.stored x hx
      · rw [List.mem_singleton.1 hx]
        exact h.ahead k _ ht st List.mem_cons_self
    · intro j st' rest' hj
      rw [tasks_await] at hj
      split_ifs at hj with hjk
      · cases hj
      · exact absurd (h.sound.emitting_unique ht hj) hjk

end TideBot
