/-
  Emissions while a subscriber has a lease.

  A user without records and leases is forgotten, revision and all; an emission that was
  pending then carries a revision above those of the new count (`emissionsOrdered_fails`).

  * `calm`: no emission times out on its lock or outlives it, and a subscription that is
    taken back was of a socket without a record;
  * `leased`: a subscriber keeps its lease, which has not run out.

  From a state where no pending emission is ahead, the revisions emitted to the user do not
  go back while the lease holds, every change is followed by an emission of at least its
  revision, and what is owed can be emitted (`emissionsOrdered_leased`).
-/
import TideBot.Presence.Equivalence
import TideBot.Presence.Order

namespace TideBot

open Lib PresenceService

variable {ttl : ℤ} {σ : Type} (S : PresenceStore ttl σ) {s s' t : PresenceService σ}
  {e : ServiceEvent} {o : ServiceOutput} {u sid : Text} {k : ℕ}
  {tr : List (ServiceEvent × ServiceOutput)}

/-- The revisions emitted to the room of a user. -/
def revisionsTo (u : Text) (tr : List (ServiceEvent × ServiceOutput)) : List ℕ :=
  tr.filterMap fun x => match x.2 with
    | .emitted v st => if v = u then some st.revision else none
    | _ => none

/-- No emission times out on the lock or outlives it, and a subscription that is taken
    back takes no record along. -/
def calm (s : PresenceService σ) : ServiceEvent → Bool
  | .timeout _ => false
  | .lockExpired u => (s.lock u).all fun k => (s.tasks k).all fun t => t.holds = none
  | .call k _ _ =>
    match s.tasks k with
    | some (.retracting u sid now) => !(S.user s.store u).answers now (.disconnect sid)
    | _ => true
  | _ => true

/-- The subscriber has a lease that has not run out, and does not give it up. -/
def leased (u sid : Text) (s : PresenceService σ) (e : ServiceEvent) : Bool :=
  ((S.user s.store u).subscribers.get sid).any (s.clock < ·) && match e with
    | .call k _ _ =>
      match s.tasks k with
      | some (.calling v (.disconnect sid') _) | some (.retracting v sid' _) => ¬ (v = u ∧ sid' = sid)
      | _ => true
    | _ => true

/-- Every state that was stored is still owed by its task, or was followed by an emission
    of at least its revision. -/
def Answered (tr : List (ServiceEvent × ServiceOutput)) (s : PresenceService σ) : Prop :=
  ∀ xs k order scan states ys, tr = xs ++ (.call k order scan, .stored states) :: ys →
    ∀ x ∈ states,
      (∃ t y, s.tasks k = some t ∧ y ∈ t.owed ∧ y.1 = x.1 ∧ x.2.revision ≤ y.2.revision) ∨
      ∃ z ∈ ys, ∃ st, z.2 = .emitted x.1 st ∧ x.2.revision ≤ st.revision

variable {S}

theorem lockKept_of_calm (h : calm S s e) : lockKept s e := by
  cases e <;> first | rfl | exact h

theorem revisionsTo_eq (u : Text) (tr : List (ServiceEvent × ServiceOutput)) :
    revisionsTo u tr = (statesTo u tr).map PresenceState.revision := by
  unfold revisionsTo statesTo
  rw [List.map_filterMap]
  congr 1
  funext x
  rcases x with ⟨e, _ | _ | ⟨v, st⟩⟩
  · rfl
  · rfl
  · simp only
    split_ifs <;> rfl

/-! ## While a lease holds -/

theorem leased_lt (h : Sound S s) (hL : leased S u sid s e) :
    ∃ L, (S.user s.store u).subscribers.get sid = some L ∧
      ∀ k t now, s.tasks k = some t → t.now = some now → now < L := by
  simp only [leased, Bool.and_eq_true] at hL
  obtain ⟨L, hget, hlt⟩ := (Option.any_eq_true _ _).1 hL.1
  refine ⟨L, hget, ?_⟩
  intro k t now hk hn
  exact lt_of_le_of_lt (h.past k t now hk hn) (by simpa using hlt)

/-- The operations of a service call the store with a time that was read, and do not take
    the lease away. -/
theorem touches_leased (hL : leased S u sid s e) {op : PresenceOp} {now : ℚ}
    (ht : touches u s e = some (op, now)) :
    op ≠ .disconnect sid ∧ ∃ k t, s.tasks k = some t ∧ t.now = some now := by
  simp only [leased, Bool.and_eq_true] at hL
  obtain ⟨-, hL⟩ := hL
  unfold touches at ht
  split at ht
  · rename_i k order scan
    split at ht
    · rename_i v op' now' hk
      split_ifs at ht with hv
      cases ht
      refine ⟨?_, k, _, hk, rfl⟩
      rintro rfl
      simp [hk, hv] at hL
    · rename_i now' hk
      cases ht
      exact ⟨by simp, k, _, hk, rfl⟩
    · rename_i v sid' now' hk
      split_ifs at ht with hv
      cases ht
      refine ⟨?_, k, _, hk, rfl⟩
      intro heq
      cases heq
      simp [hk, hv] at hL
    · cases ht
  · rename_i k order
    split at ht
    · rename_i v st now' rest hk
      split_ifs at ht
      cases ht
      exact ⟨by simp, k, _, hk, rfl⟩
    · cases ht
  · cases ht

/-- **A user with a lease is remembered.** -/
theorem kept_of_leased (h : Sound S s) (hL : leased S u sid s e) : kept S u s e := by
  obtain ⟨L, hget, hlt⟩ := leased_lt h hL
  unfold kept
  cases htouch : touches u s e with
  | none => rfl
  | some x =>
    obtain ⟨op, now⟩ := x
    obtain ⟨hop, k, t, hk, hn⟩ := touches_leased hL htouch
    have hprune : ((S.user s.store u).prune now).subscribers.get sid = some L :=
      Dict.get_filter.2 ⟨hget, by simpa using hlt k t now hk hn⟩
    exact UserPresence.remembers_of_lease hprune hop

/-! ## What was stored is emitted -/

theorem owed_step (h : Sound S s) (hC : calm S s e) (hs : Step S s e s' o) {t : PresenceTask}
    (hk : s.tasks k = some t) {y : Text × PresenceState} (hy : y ∈ t.owed) :
    (∃ t' y', s'.tasks k = some t' ∧ y' ∈ t'.owed ∧ y'.1 = y.1 ∧ y.2.revision ≤ y'.2.revision) ∨
      ∃ st, o = .emitted y.1 st ∧ y.2.revision ≤ st.revision := by
  -- a task that does not move, and one that moves and owes as much as before
  have hstay : s'.tasks k = s.tasks k → ∃ t' y', s'.tasks k = some t' ∧ y' ∈ t'.owed ∧
      y'.1 = y.1 ∧ y.2.revision ≤ y'.2.revision := fun heq => ⟨t, y, heq.trans hk, hy, rfl, le_rfl⟩
  have hmove : ∀ {j : ℕ} {t₀ t' : PresenceTask},
      s'.tasks = Function.update s.tasks j (some t') → s.tasks j = some t₀ →
      (y ∈ t₀.owed → ∃ y' ∈ t'.owed, y'.1 = y.1 ∧ y.2.revision ≤ y'.2.revision) →
      ∃ t' y', s'.tasks k = some t' ∧ y' ∈ t'.owed ∧ y'.1 = y.1 ∧
        y.2.revision ≤ y'.2.revision := by
    intro j t₀ t' hs' hj howed
    by_cases hkj : k = j
    · subst hkj
      rw [hk] at hj
      cases hj
      obtain ⟨y', hy', hy₁⟩ := howed hy
      refine ⟨t', y', ?_, hy', hy₁⟩
      rw [hs', Function.update_self]
    · refine hstay ?_
      rw [hs', Function.update_of_ne hkj]
  cases hs with
  | tick | lockExpired => exact .inl (hstay rfl)
  | @start _ j t' hnone =>
    refine .inl (hstay ?_)
    rw [tasks_await, if_neg]
    rintro rfl
    rw [hk] at hnone
    cases hnone
  | move hj hp howed =>
    refine .inl (hmove rfl hj ?_)
    rw [howed]
    rintro ⟨⟩
  | timeout => cases hC
  | call hj | expire hj | retract hj => exact .inl (hmove rfl hj (by rintro ⟨⟩))
  | acquire hj => exact .inl (hmove rfl hj fun hy => ⟨y, hy, rfl, le_rfl⟩)
  | @read j u st now rest order store latest hj =>
    refine .inl (hmove rfl hj ?_)
    intro hy
    rcases List.mem_cons.1 hy with rfl | hy
    · refine ⟨_, List.mem_cons_self, rfl, ?_⟩
      simp only
      split_ifs with hlt
      · exact hlt.le
      · exact le_rfl
    · exact ⟨y, List.mem_cons_of_mem _ hy, rfl, le_rfl⟩
  | fail hj hstep hne =>
    obtain ⟨latest, rfl⟩ := h.read_state hj hstep
    exact absurd rfl (hne latest)
  | @emit j u st rest hj =>
    by_cases hkj : k = j
    · subst hkj
      rw [hk] at hj
      cases hj
      rcases List.mem_cons.1 hy with rfl | hy
      · exact .inr ⟨st, rfl, le_rfl⟩
      · refine .inl ⟨.releasing u rest, y, ?_, hy, rfl, le_rfl⟩
        rw [tasks_await, if_pos rfl]
    · refine .inl (hstay ?_)
      rw [tasks_await, if_neg hkj]
  | @release j u rest hj =>
    rw [unlock_eq] at hmove hstay ⊢
    refine .inl (hmove rfl hj ?_)
    intro hy
    exact ⟨y, by rw [owed_emitAll]; exact hy, rfl, le_rfl⟩

theorem owed_stored (h : Sound S s) {order : TableOrder} {scan : List Text}
    {states : Emissions} (hC : calm S s (.call k order scan))
    (hs : Step S s (.call k order scan) s' (.stored states)) :
    ∃ t, s'.tasks k = some t ∧ states ⊆ t.owed := by
  generalize hout : ServiceOutput.stored states = o at hs
  cases hs with
  | start | move => cases hout
  | @call _ u op now _ _ store a hk hstep =>
    cases hout
    refine ⟨_, by rw [tasks_await, if_pos rfl], ?_⟩
    cases op <;> rcases a with st | (_ | st) | l | _ <;>
      first | exact List.nil_subset _ | exact List.Subset.refl [(u, st)]
  | @expire _ now _ _ store l hk hstep =>
    cases hout
    refine ⟨_, by rw [tasks_await, if_pos rfl], ?_⟩
    rw [owed_emitAll]
    exact List.Subset.refl _
  | @retract _ u sid now _ _ store a hk hstep =>
    cases hout
    refine ⟨_, by rw [tasks_await, if_pos rfl], ?_⟩
    -- a subscription taken back has no record
    have hans : (S.user s.store u).answers now (.disconnect sid) = false := by
      simpa [calm, hk] using hC
    have ha : a = .maybe none ∨ a = .raised := by
      by_cases ha : a = .raised
      · exact .inr ha
      · refine .inl ?_
        rw [(S.self h.inv hstep ha).2, hans]
        rfl
    rcases ha with rfl | rfl <;> exact List.nil_subset _

/-- **What was stored is emitted, or still owed.** -/
theorem Answered.step (ha : Answered tr s) (h : Sound S s) (hC : calm S s e)
    (hs : Step S s e s' o) : Answered (tr ++ [(e, o)]) s' := by
  intro xs j order scan states ys htr x hx
  rcases Machine.snoc_eq_split htr with ⟨-, heq, -⟩ | ⟨zs, rfl, hold⟩
  · cases heq
    obtain ⟨t, ht, hsub⟩ := owed_stored h hC hs
    exact .inl ⟨t, x, ht, hsub hx, rfl, le_rfl⟩
  · rcases ha xs j order scan states zs hold x hx with ⟨t, y, ht, hy, hxy, hle⟩ | ⟨z, hz, hst⟩
    · rcases owed_step h hC hs ht hy with ⟨t', y', ht', hy', hyy, hle'⟩ | ⟨st, rfl, hle'⟩
      · exact .inl ⟨t', y', ht', hy', hyy.trans hxy, hle.trans hle'⟩
      · refine .inr ⟨_, List.mem_append_right _ (List.mem_singleton_self _), st, ?_, hle.trans hle'⟩
        rw [hxy]
    · exact .inr ⟨z, List.mem_append_left _ hz, hst⟩

/-! ## What is owed can be emitted -/

/-- Task `k` is through with the lock of `u`, and the others have not moved. -/
structure Through (S : PresenceStore ttl σ) (s : PresenceService σ) (k : ℕ) (u : Text)
    (rest : Emissions) (s' : PresenceService σ) : Prop where
  run : ∃ tr, (presenceService S).RunIn (fun s e => calm S s e) s tr s'
  sound : Sound S s'
  free : ∀ j, s'.lock u = some j → j ≠ k ∧ s.lock u = some j
  task : s'.tasks k = some (emitAll rest)
  other : ∀ j, j ≠ k → s'.tasks j = s.tasks j

theorem Through.cons {s₁ : PresenceService σ} {rest : Emissions} {t : PresenceTask}
    (hC : calm S s e) (hs : s.step S e = some (s₁, o))
    (htasks : s₁.tasks = Function.update s.tasks k (some t)) (hlock : s₁.lock = s.lock)
    (h : Through S s₁ k u rest s') : Through S s k u rest s' where
  run := by
    obtain ⟨tr, hrun⟩ := h.run
    exact ⟨_, .cons hC hs hrun⟩
  sound := h.sound
  free j hj := by
    rw [← hlock]
    exact h.free j hj
  task := h.task
  other j hj := by rw [h.other j hj, htasks, Function.update_of_ne hj]

theorem through_releasing (h : Sound S s) {rest : Emissions}
    (hk : s.tasks k = some (.releasing u rest)) : ∃ s', Through S s k u rest s' := by
  have hs : (presenceService S).step s (.release k) =
      some ((s.unlock u k).await k (emitAll rest), .nothing) := by
    simp only [presenceService, PresenceService.step, hk]
  have hsound := h.step (e := .release k) rfl (Step.of_step hs)
  refine ⟨_, ⟨_, .cons rfl hs .nil⟩, hsound, ?_, ?_, ?_⟩
  · intro j hj
    rw [unlock_eq] at hj
    change (if s.lock u = some k then Function.update s.lock u none else s.lock) u = some j at hj
    split_ifs at hj with hlk
    · rw [Function.update_self] at hj
      cases hj
    · refine ⟨?_, hj⟩
      rintro rfl
      exact hlk hj
  · rw [tasks_await, if_pos rfl]
  · intro j hj
    rw [tasks_await, if_neg hj, unlock_eq]

theorem through_emitting (h : Sound S s) {st : PresenceState} {rest : Emissions}
    (hk : s.tasks k = some (.emitting u st rest)) : ∃ s', Through S s k u rest s' := by
  have hs : s.step S (.emit k) = some (s.await k (.releasing u rest), .emitted u st) := by
    simp only [PresenceService.step, hk]
  have hsound := h.step (e := .emit k) rfl (Step.of_step hs)
  obtain ⟨s', hthrough⟩ := through_releasing hsound (by rw [tasks_await, if_pos rfl])
  exact ⟨s', hthrough.cons rfl hs rfl rfl⟩

theorem through_reading (h : Sound S s) {st : PresenceState} {now : ℚ} {rest : Emissions}
    (hk : s.tasks k = some (.reading u st now rest)) : ∃ s', Through S s k u rest s' := by
  obtain ⟨⟨store, a⟩, hstep⟩ :=
    Option.isSome_iff_exists.1 (S.enabled s.store u .state now .inserted (by simp))
  obtain ⟨latest, rfl⟩ := h.read_state hk hstep
  have hs : s.step S (.read k .inserted) = some ({ s with store := store }.await k
      (.emitting u (if st.revision < latest.revision then latest else st) rest), .nothing) := by
    simp only [PresenceService.step, PresenceService.readLatest, hk, hstep]
  have hsound := h.step (e := .read k .inserted) rfl (Step.of_step hs)
  obtain ⟨s', hthrough⟩ := through_emitting hsound (by rw [tasks_await, if_pos rfl])
  exact ⟨s', hthrough.cons rfl hs rfl rfl⟩

theorem through_inside (h : Sound S s) {t : PresenceTask} (hk : s.tasks k = some t)
    (hin : t.inside = some u) : ∃ rest s', Through S s k u rest s' := by
  cases t with
  | reading v st now rest =>
    cases hin
    exact ⟨rest, through_reading h hk⟩
  | emitting v st rest =>
    cases hin
    exact ⟨rest, through_emitting h hk⟩
  | releasing v rest =>
    cases hin
    exact ⟨rest, through_releasing h hk⟩
  | authorizing | calling | expiring | entering | retracting | ordering | finished => cases hin

theorem free_lock (h : Sound S s) (u : Text) :
    ∃ tr s', (presenceService S).RunIn (fun s e => calm S s e) s tr s' ∧ Sound S s' ∧
      s'.lock u = none ∧
      ∀ k t, s.tasks k = some t → t.inside = none → s'.tasks k = some t := by
  cases hlock : s.lock u with
  | none => exact ⟨[], s, .nil, h, hlock, fun k t hk _ => hk⟩
  | some j =>
    obtain ⟨tj, hj, hin⟩ := h.held j u hlock
    obtain ⟨rest, s', hthrough⟩ := through_inside h hj hin
    obtain ⟨tr, hrun⟩ := hthrough.run
    refine ⟨tr, s', hrun, hthrough.sound, ?_, ?_⟩
    · rw [Option.eq_none_iff_forall_ne_some]
      intro i hi
      obtain ⟨hne, hi⟩ := hthrough.free i hi
      rw [hlock] at hi
      exact hne (Option.some.inj hi).symm
    · intro k t hk hout
      rw [hthrough.other k, hk]
      rintro rfl
      rw [hk] at hj
      cases hj
      rw [hout] at hin
      cases hin

theorem emit_one (h : Sound S s) {st : PresenceState} {rest : Emissions}
    (hk : s.tasks k = some (.ordering u st rest)) :
    ∃ tr s', (presenceService S).RunIn (fun s e => calm S s e) s tr s' ∧ Sound S s' ∧
      s'.tasks k = some (emitAll rest) := by
  obtain ⟨tr, s₁, hrun, h₁, hfree, htasks⟩ := free_lock h u
  have hk₁ := htasks k _ hk rfl
  have hs : (presenceService S).step s₁ (.acquire k) = some ({ s₁ with
      lock := Function.update s₁.lock u (some k) }.await k (.reading u st s₁.clock rest),
      .nothing) := by
    simp only [presenceService, PresenceService.step, hk₁, hfree, if_pos]
  have hsound := h₁.step (e := .acquire k) rfl (Step.of_step hs)
  obtain ⟨s', hthrough⟩ := through_reading hsound (by rw [tasks_await, if_pos rfl])
  obtain ⟨tr', hrun'⟩ := hthrough.run
  exact ⟨_, s', hrun.append (.cons rfl hs hrun'), hthrough.sound, hthrough.task⟩

theorem emit_rest {rest : Emissions} : ∀ {s : PresenceService σ}, Sound S s →
    s.tasks k = some (emitAll rest) →
    ∃ tr s', (presenceService S).RunIn (fun s e => calm S s e) s tr s' ∧
      s'.tasks k = some .finished := by
  induction rest with
  | nil =>
    intro s h hk
    exact ⟨[], s, .nil, hk⟩
  | cons x rest ih =>
    intro s h hk
    obtain ⟨tr, s₁, hrun, h₁, hk₁⟩ := emit_one h hk
    obtain ⟨tr', s', hrun', hk'⟩ := ih h₁ hk₁
    exact ⟨tr ++ tr', s', hrun.append hrun', hk'⟩

/-- **What a task owes can be emitted.** -/
theorem emit_owed (h : Sound S s) {t : PresenceTask} (hk : s.tasks k = some t) :
    ∃ tr s' t', (presenceService S).RunIn (fun s e => calm S s e) s tr s' ∧
      s'.tasks k = some t' ∧ t'.owed = [] := by
  cases hin : t.inside with
  | some u =>
    obtain ⟨rest, s₁, hthrough⟩ := through_inside h hk hin
    obtain ⟨tr, hrun⟩ := hthrough.run
    obtain ⟨tr', s', hrun', hk'⟩ := emit_rest hthrough.sound hthrough.task
    exact ⟨tr ++ tr', s', _, hrun.append hrun', hk', rfl⟩
  | none =>
    cases t with
    | authorizing | calling | expiring | entering | retracting | finished =>
      exact ⟨[], s, _, .nil, hk, rfl⟩
    | ordering u st rest =>
      have hall : s.tasks k = some (emitAll ((u, st) :: rest)) := hk
      obtain ⟨tr, s', hrun, hk'⟩ := emit_rest h hall
      exact ⟨tr, s', _, hrun, hk', rfl⟩
    | reading | emitting | releasing => cases hin

/-! ## Runs -/

/-- **The emitted revisions do not go back while a lease holds**, if no emission that is
    pending when it begins is ahead of the store.  Every change is followed by an emission
    of at least its revision or is still owed, and what is owed can be emitted. -/
theorem emissionsOrdered_leased {clock : ℚ} {tr₀ : List (ServiceEvent × ServiceOutput)}
    (h₀ : (presenceService S).RunIn (fun s e => calm S s e) (.initial S clock) tr₀ s)
    (hn : NoneAhead S u s)
    (h : (presenceService S).RunIn (fun s e => calm S s e && leased S u sid s e) s tr t) :
    (revisionsTo u tr).Pairwise (· ≤ ·) ∧ Answered (tr₀ ++ tr) t ∧
      ∀ k x, t.tasks k = some x → ∃ tr' t' x',
        (presenceService S).RunIn (fun s e => calm S s e) t tr' t' ∧
          t'.tasks k = some x' ∧ x'.owed = [] := by
  obtain ⟨hsound, hans⟩ : Sound S s ∧ Answered tr₀ s := by
    refine h₀.traceInvariant (I := fun tr s => Sound S s ∧ Answered tr s) ?_
      ⟨.initial clock, by intro xs k order scan states ys htr; cases xs <;> cases htr⟩
    rintro tr s e s' o hC ⟨hs, ha⟩ hstep
    have hstep := Step.of_step hstep
    exact ⟨hs.step (lockKept_of_calm hC) hstep, ha.step hs hC hstep⟩
  obtain ⟨hord, hans'⟩ : Ordered S u tr t ∧ Answered (tr₀ ++ tr) t := by
    refine h.traceInvariant (I := fun tr t => Ordered S u tr t ∧ Answered (tr₀ ++ tr) t) ?_
      ⟨.start hsound hn, by rw [List.append_nil]; exact hans⟩
    rintro tr s e s' o hC ⟨hs, ha⟩ hstep
    rw [Bool.and_eq_true] at hC
    have hstep := Step.of_step hstep
    refine ⟨hs.step (lockKept_of_calm hC.1) (kept_of_leased hs.sound hC.2) hstep, ?_⟩
    rw [← List.append_assoc]
    exact ha.step hs.sound hC.1 hstep
  have hsorted : (revisionsTo u tr).Pairwise (· ≤ ·) := by
    rw [revisionsTo_eq]
    exact List.pairwise_map.2 hord.sorted
  refine ⟨hsorted, hans', ?_⟩
  intro k x hk
  exact emit_owed hord.sound hk

/-! ## A companion and a laptop -/

namespace Sample

/-- The laptop shows a chat, and its task has come to `emit`. -/
def shown : List ServiceEvent :=
  [.update 0 (.lit "u") (.lit "a") (presence "A" true), .granted 0 (some (.lit "Title")),
    .call 0 .inserted [], .acquire 0, .read 0 .inserted]

def subscribed : List ServiceEvent := [.subscribe 2 (.lit "u") (.lit "c"), .call 2 .inserted []]

def left : List ServiceEvent :=
  [.update 1 (.lit "u") (.lit "a") { presence "A" true with chatId := none, chatTitle := none },
    .call 1 .inserted []]

def emitted : List ServiceEvent :=
  [.entered 2 true, .emit 0, .release 0, .acquire 1, .read 1 .inserted, .emit 1, .release 1,
    .acquire 2, .read 2 .inserted, .emit 2, .release 2]

end Sample

/-- The companion subscribes before the chat is left. -/
theorem emissionsOrdered_leased_left :
    ∃ tr₀ tr t, revisionsTo (.lit "u") tr = [1, 2, 2] ∧
      (revisionsTo (.lit "u") tr).Pairwise (· ≤ ·) ∧
      Answered (σ := MemoryPresenceStore) (tr₀ ++ tr) t := by
  obtain ⟨⟨tr₀, s⟩, hm₀, ⟨⟨tr, t⟩, hm, hrev⟩, hpend⟩ :
      ∃ r ∈ (presenceService (memoryPresenceStore 30)).exec
        (fun s e => calm (memoryPresenceStore 30) s e) (.initial (memoryPresenceStore 30) 0)
        Sample.subscribed,
      (∃ r' ∈ (presenceService (memoryPresenceStore 30)).exec
        (fun s e => calm (memoryPresenceStore 30) s e &&
          leased (memoryPresenceStore 30) (.lit "u") (.lit "c") s e) r.2
        (Sample.shown ++ Sample.left ++ Sample.emitted),
        revisionsTo (.lit "u") r'.1 = [1, 2, 2]) ∧
      (r.2.tasks 2).map PresenceTask.pending = some [(.lit "u", ⟨none, 0⟩)] := by
    decide +kernel
  have hnone : ∀ j, j ≠ 2 → s.tasks j = none := by
    intro j hj
    cases hm₀
    exact (Function.update_of_ne hj ..).trans (Function.update_of_ne hj ..)
  have hahead : NoneAhead (memoryPresenceStore 30) (.lit "u") s := by
    intro k x hk st hst
    by_cases h2 : k = 2
    · subst h2
      rw [hk] at hpend
      rw [Option.some.inj hpend] at hst
      cases List.mem_singleton.1 hst
      exact Nat.zero_le _
    · rw [hnone k h2] at hk
      cases hk
  have h := emissionsOrdered_leased (Machine.runIn_of_exec hm₀) hahead (Machine.runIn_of_exec hm)
  exact ⟨tr₀, tr, t, hrev, h.1, h.2.1⟩

/-- The companion subscribes after the chat was left, when the user has been forgotten: what
    the laptop still has to emit is ahead of the new count. -/
theorem emissionsOrdered_fails :
    ∃ tr₀ s tr t,
      (presenceService (memoryPresenceStore 30)).RunIn
        (fun s e => calm (memoryPresenceStore 30) s e) (.initial (memoryPresenceStore 30) 0) tr₀ s ∧
      (presenceService (memoryPresenceStore 30)).RunIn
        (fun s e => calm (memoryPresenceStore 30) s e &&
          leased (memoryPresenceStore 30) (.lit "u") (.lit "c") s e) s tr t ∧
      revisionsTo (.lit "u") tr = [1, 2, 0] ∧
      ¬ (revisionsTo (.lit "u") tr).Pairwise (· ≤ ·) := by
  obtain ⟨⟨tr₀, s⟩, hm₀, hm⟩ :
      ∃ r ∈ (presenceService (memoryPresenceStore 30)).exec
        (fun s e => calm (memoryPresenceStore 30) s e) (.initial (memoryPresenceStore 30) 0)
        (Sample.shown ++ Sample.left ++ Sample.subscribed),
      ∃ r' ∈ (presenceService (memoryPresenceStore 30)).exec
        (fun s e => calm (memoryPresenceStore 30) s e &&
          leased (memoryPresenceStore 30) (.lit "u") (.lit "c") s e) r.2
        Sample.emitted,
        revisionsTo (.lit "u") r'.1 = [1, 2, 0] := by
    decide +kernel
  obtain ⟨⟨tr, t⟩, hm, hrev⟩ := hm
  refine ⟨tr₀, s, tr, t, Machine.runIn_of_exec hm₀, Machine.runIn_of_exec hm, hrev, ?_⟩
  rw [hrev]
  decide

end TideBot
