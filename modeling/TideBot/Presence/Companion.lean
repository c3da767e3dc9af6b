/-
  A companion that follows the presence of its user (`createCompanionPresenceSubscriber`
  of `ted-bot/presence.ts`).

  It applies a state only if its revision is above the last one; the last one is forgotten
  only when the socket connects.  The server forgets its own count when a user has neither
  records nor leases, so a companion that was connected all the time may refuse what comes
  then (`converges_fails`).  It also refuses a state from which a record has gone that has
  expired but was not swept, because the revision does not say so.

  * `Current`: what is pending when the companion connects is not ahead of the store, and
    as far as it is level with it, it is what the store has;
  * `steady`: no emission outlives its lock, the user is not forgotten, and an operation
    on it leaves no record that has expired (nor, with Redis, two that tie).

  Then the companion has the active record of every emission (`converges_steady`).
-/
import TideBot.Presence.Emission

namespace TideBot

open Lib PresenceService

/-! ## The companion -/

/-- The companion: its last revision, and the state that it has applied last. -/
structure CompanionSubscriber where
  revision : ℤ
  applied : Option PresenceState

namespace CompanionSubscriber

/-- A new companion, on a socket that is connected. -/
def created : CompanionSubscriber := ⟨-1, none⟩

variable (c : CompanionSubscriber)

def onState (state : PresenceState) : CompanionSubscriber :=
  if state.revision ≤ c.revision then c else ⟨state.revision, some state⟩

/-- The socket connects. -/
def subscribe : CompanionSubscriber := { c with revision := -1 }

/-- What was emitted to the room of its user has come in. -/
def received (u : Text) (tr : List (ServiceEvent × ServiceOutput)) : CompanionSubscriber :=
  (statesTo u tr).foldl onState c

/-- The active record that the companion shows. -/
def active : Option (Option PresenceUpdate) := c.applied.map PresenceState.active

/-- **What comes in order is applied**, if what has the same revision is the same. -/
theorem foldl_onState {l : List PresenceState} {st : PresenceState}
    (hsorted : (l ++ [st]).Pairwise fun a b => a.revision ≤ b.revision)
    (halike : (l ++ [st]).Pairwise fun a b => a.revision = b.revision → a.active = b.active) :
    ((l ++ [st]).foldl onState c.subscribe).revision = st.revision ∧
      ((l ++ [st]).foldl onState c.subscribe).active = some st.active := by
  induction l using List.reverseRecOn generalizing st with
  | nil =>
    have hnew : ¬ ((st.revision : ℤ) ≤ -1) := by omega
    simp [onState, subscribe, hnew, active]
  | append_singleton l x ih =>
    rw [List.pairwise_append] at hsorted halike
    obtain ⟨hrev, hact⟩ := ih hsorted.1 halike.1
    have hle := hsorted.2.2 x (by simp) st (by simp)
    have heq := halike.2.2 x (by simp) st (by simp)
    rw [List.foldl_append, List.foldl_cons, List.foldl_nil, onState, hrev]
    split_ifs with hold
    · -- refused, because it is the one before
      have hsame : x.revision = st.revision := by omega
      rw [hrev, hsame]
      exact ⟨rfl, by rw [hact, heq hsame]⟩
    · exact ⟨rfl, rfl⟩

end CompanionSubscriber

/-! ## Steady stores -/

/-- A presence store that reads the same from the same records, as long as they are
    `distinct` and none of them has expired. -/
structure SteadyStore (ttl : ℤ) (σ : Type) extends PresenceStore ttl σ where
  distinct : Dict Text PresenceEntry → Bool
  active : Dict Text PresenceEntry → Option PresenceUpdate
  steady : ∀ {order u op now v}, distinct v.entries → v.stale now = false →
    (reply order u op now v).active = active v.entries

theorem live_of_not_stale {v : UserPresence} {now : ℚ} (h : v.stale now = false) :
    v.live now = v.entries := by
  refine live_eq_entries ?_
  intro f hf
  simpa using List.any_eq_false.1 h f hf

theorem memory_steady (ttl : ℤ) {order : TableOrder} {u : Text} {op : PresenceOp} {now : ℚ}
    {v : UserPresence} (h : v.stale now = false) :
    ((memoryPresenceStore ttl).reply order u op now v).active =
      MemoryPresenceStore.active (v.entries.entries.map Prod.snd) := by
  simp only [memoryPresenceStore, MemoryPresenceStore.reply, live_of_not_stale h]
  cases op <;> rfl

def memorySteadyStore (ttl : ℤ) : SteadyStore ttl MemoryPresenceStore where
  toPresenceStore := memoryPresenceStore ttl
  distinct _ := true
  active d := MemoryPresenceStore.active (d.entries.map Prod.snd)
  steady _ h := memory_steady ttl h

/-! ## Steps -/

variable {ttl : ℤ} {σ : Type} (S : SteadyStore ttl σ) {s s' t : PresenceService σ}
  {e : ServiceEvent} {o : ServiceOutput} {u : Text} {k : ℕ}
  {tr : List (ServiceEvent × ServiceOutput)}

/-- No emission outlives its lock, the user is not forgotten, and the records that an
    operation leaves have not expired and are distinct. -/
def steady (u : Text) (s : PresenceService σ) (e : ServiceEvent) : Bool :=
  lockKept s e && kept S.toPresenceStore u s e && (touches u s e).all fun x =>
    !(((S.user s.store u).prune x.2).apply ttl x.2 x.1).stale x.2 &&
      S.distinct (((S.user s.store u).prune x.2).apply ttl x.2 x.1).entries

/-- What is pending is not ahead of the store, and where it is level with it, it is what the
    store has. -/
structure Current (u : Text) (s : PresenceService σ) : Prop where
  ahead : NoneAhead S.toPresenceStore u s
  level : ∀ k t, s.tasks k = some t → ∀ st, (u, st) ∈ t.pending →
    st.revision = (S.user s.store u).revision → st.active = S.active (S.user s.store u).entries

/-- What was emitted to the user is in order, and what has the same revision is the same. -/
structure Converging (u : Text) (tr : List (ServiceEvent × ServiceOutput)) (s : PresenceService σ) :
    Prop where
  ordered : Ordered S.toPresenceStore u tr s
  level : ∀ k t, s.tasks k = some t → ∀ st, (u, st) ∈ t.pending →
    st.revision = (S.user s.store u).revision → st.active = S.active (S.user s.store u).entries
  alike : (statesTo u tr).Pairwise fun a b => a.revision = b.revision → a.active = b.active
  stored : ∀ st ∈ statesTo u tr,
    st.revision = (S.user s.store u).revision → st.active = S.active (S.user s.store u).entries
  emitting : ∀ k st rest, s.tasks k = some (.emitting u st rest) →
    ∀ x ∈ statesTo u tr, x.revision = st.revision → x.active = st.active

variable {S}

theorem entries_step (h : Sound S.toPresenceStore s) (hk : kept S.toPresenceStore u s e)
    (hs : Step S.toPresenceStore s e s' o)
    (hrev : (S.user s'.store u).revision ≤ (S.user s.store u).revision) :
    (S.user s'.store u).entries = (S.user s.store u).entries := by
  rcases step_user h hk hs with ⟨hsame, -⟩ | ⟨op, now, order, -, hbec, -⟩
  · rw [hsame]
  · have hle := hbec.le
    have hrev' := hbec.revision
    rw [hbec.entries]
    exact UserPresence.apply_entries (v := (S.user s.store u).prune now)
      (hrev'.symm.trans (le_antisymm hrev hle))

theorem Converging.level_step (h : Converging S u tr s) (hC : steady S u s e)
    (hs : Step S.toPresenceStore s e s' o) : ∀ k t, s'.tasks k = some t → ∀ st, (u, st) ∈ t.pending →
      st.revision = (S.user s'.store u).revision → st.active = S.active (S.user s'.store u).entries := by
  simp only [steady, Bool.and_eq_true] at hC
  obtain ⟨⟨-, hk⟩, hfine⟩ := hC
  have hle := revision_le h.ordered.sound hk hs
  have hold : ∀ k t st, s.tasks k = some t → (u, st) ∈ t.pending →
      st.revision = (S.user s'.store u).revision → st.active = S.active (S.user s'.store u).entries := by
    intro k t st ht hst hrev
    have hahead := h.ordered.ahead k t ht st hst
    rw [entries_step h.ordered.sound hk hs (by omega)]
    exact h.level k t ht st hst (by omega)
  intro k t' ht' st hst hrev
  rcases step_user h.ordered.sound hk hs with ⟨-, hpend⟩ | ⟨op, now, order, htouch, hbec, hpend⟩
  · rcases hpend k t' ht' st hst with ⟨t, ht, hmem⟩ | hno
    · exact hold k t st ht hmem hrev
    · exact hno.elim
  · rcases hpend k t' ht' st hst with ⟨t, ht, hmem⟩ | rfl
    · exact hold k t st ht hmem hrev
    · simp only [htouch, Option.all_some, Bool.and_eq_true, Bool.not_eq_true'] at hfine
      rw [S.steady hfine.2 hfine.1, hbec.entries]

/-- **A steady step.** -/
theorem Converging.step (h : Converging S u tr s) (hC : steady S u s e)
    (hs : Step S.toPresenceStore s e s' o) : Converging S u (tr ++ [(e, o)]) s' := by
  have hlevel := h.level_step hC hs
  simp only [steady, Bool.and_eq_true] at hC
  obtain ⟨⟨hlock, hk⟩, -⟩ := hC
  have hordered := h.ordered.step hlock hk hs
  have hle := revision_le h.ordered.sound hk hs
  rcases statesTo_step (u := u) hs with hquiet | ⟨k, st, rest, ht, hemit, rfl⟩
  · have htr : statesTo u (tr ++ [(e, o)]) = statesTo u tr := by
      rw [statesTo_append, hquiet, List.append_nil]
    have hstored : ∀ x ∈ statesTo u tr, x.revision = (S.user s'.store u).revision →
        x.active = S.active (S.user s'.store u).entries := by
      intro x hx hrev
      have hold := h.ordered.stored x hx
      rw [entries_step h.ordered.sound hk hs (by omega)]
      exact h.stored x hx (by omega)
    refine ⟨hordered, hlevel, by rw [htr]; exact h.alike, by rw [htr]; exact hstored, ?_⟩
    rw [htr]
    intro k st rest he x hx hrev
    rcases emitting_step h.ordered.sound hk hs he with hold | hread
    · exact h.emitting k st rest hold x hx hrev
    · -- both are what the store has
      have hx' := h.ordered.stored x hx
      rw [hstored x hx (by omega), hlevel k _ he st List.mem_cons_self (by omega)]
  · have htr : statesTo u (tr ++ [(e, o)]) = statesTo u tr ++ [st] := by
      rw [statesTo_append, hemit]
    refine ⟨hordered, hlevel, ?_, ?_, ?_⟩
    · rw [htr, List.pairwise_append]
      refine ⟨h.alike, List.pairwise_singleton _ _, ?_⟩
      intro x hx y hy
      rw [List.mem_singleton.1 hy]
      exact h.emitting k st rest ht x hx
    · rw [htr]
      intro x hx hrev
      rcases List.mem_append.1 hx with hx | hx
      · exact h.stored x hx hrev
      · rw [List.mem_singleton.1 hx] at hrev ⊢
        exact h.level k _ ht st List.mem_cons_self hrev
    · intro j st' rest' hj
      rw [tasks_await] at hj
      split_ifs at hj with hjk
      · cases hj
      · exact absurd (h.ordered.sound.emitting_unique ht hj) hjk

/-! ## Runs -/

/-- **A connected companion shows what was emitted last**, in every run whose steps are
    steady. -/
theorem converges_steady {clock : ℚ} {tr₀ xs ys : List (ServiceEvent × ServiceOutput)}
    {st : PresenceState}
    (h₀ : (presenceService S.toPresenceStore).RunIn (fun s e => lockKept s e)
      (.initial S.toPresenceStore clock) tr₀ s)
    (hcur : Current S u s)
    (h : (presenceService S.toPresenceStore).RunIn (fun s e => steady S u s e) s tr t)
    (htr : tr = xs ++ (e, .emitted u st) :: ys) (c : CompanionSubscriber) :
    (c.subscribe.received u (xs ++ [(e, .emitted u st)])).active = some st.active := by
  have hsound : Sound S.toPresenceStore s := by
    refine h₀.invariant (I := Sound S.toPresenceStore) ?_ (.initial clock)
    intro s e s' o hC hs hstep
    exact hs.step hC (Step.of_step hstep)
  have hconv : Converging S u tr t := by
    refine h.traceInvariant (I := Converging S u) ?_
      ⟨.start hsound hcur.ahead, hcur.level, .nil, by rintro x ⟨⟩, by rintro k st rest hk x ⟨⟩⟩
    intro tr s e s' o hC hs hstep
    exact hs.step hC (Step.of_step hstep)
  have hstates : statesTo u tr = (statesTo u xs ++ [st]) ++ statesTo u ys := by
    have hcons : xs ++ (e, .emitted u st) :: ys = xs ++ ([(e, .emitted u st)] ++ ys) := rfl
    rw [htr, hcons, statesTo_append, statesTo_append, ← List.append_assoc]
    simp [statesTo]
  have hsorted := hconv.ordered.sorted
  have halike := hconv.alike
  rw [hstates, List.pairwise_append] at hsorted halike
  have hreceived : statesTo u (xs ++ [(e, .emitted u st)]) = statesTo u xs ++ [st] := by
    rw [statesTo_append]
    simp [statesTo]
  rw [CompanionSubscriber.received, hreceived]
  exact (c.foldl_onState hsorted.1 halike.1).2

/-! ## A companion that stays connected -/

namespace Sample

def emission (k : ℕ) : List ServiceEvent := [.acquire k, .read k .inserted, .emit k, .release k]

/-- The companion subscribes, or renews its subscription. -/
def renewal (k : ℕ) : List ServiceEvent :=
  [.subscribe k (.lit "u") (.lit "c"), .call k .inserted [], .entered k true]

def update (k : ℕ) : List ServiceEvent :=
  [.update k (.lit "u") (.lit "a") (presence "A" true), .granted k (some (.lit "Title")),
    .call k .inserted []] ++ emission k

def clearance (k : ℕ) : List ServiceEvent :=
  [.update k (.lit "u") (.lit "a") { presence "A" true with chatId := none, chatTitle := none },
    .call k .inserted []] ++ emission k

/-- The companion is not heard of for longer than its lease; the chat is shown again, and
    then the companion renews its subscription. -/
def lapsed : List ServiceEvent :=
  renewal 0 ++ emission 0 ++ update 1 ++ clearance 2 ++ [.tick 31, .expire 3, .call 3 .inserted []] ++
    update 4 ++ renewal 5 ++ [.acquire 5, .read 5 .inserted]

def renewed : List ServiceEvent :=
  renewal 0 ++ emission 0 ++ update 1 ++ [.tick 20] ++ clearance 2 ++ renewal 3 ++
    [.acquire 3, .read 3 .inserted]

end Sample

/-- The companion renews its subscription in time, after the chat was shown and left. -/
theorem converges_steady_renewed :
    ∃ tr st t, (presenceService (memoryPresenceStore 30)).RunIn
        (fun s e => steady (memorySteadyStore 30) (.lit "u") s e)
        (.initial (memoryPresenceStore 30) 0) (tr ++ [(.emit 3, .emitted (.lit "u") st)]) t ∧
      tr.map Prod.fst = Sample.renewed ∧
      (CompanionSubscriber.created.received (.lit "u")
        (tr ++ [(.emit 3, .emitted (.lit "u") st)])).active = some st.active := by
  obtain ⟨⟨tr, s⟩, hm, ⟨t, o⟩, hstep, ho, hC⟩ :
      ∃ r ∈ (presenceService (memoryPresenceStore 30)).exec
        (fun s e => steady (memorySteadyStore 30) (.lit "u") s e)
        (.initial (memoryPresenceStore 30) 0) Sample.renewed,
      ∃ r' ∈ (presenceService (memoryPresenceStore 30)).step r.2 (.emit 3),
        r'.2 = .emitted (.lit "u") ⟨none, 2⟩ ∧
        steady (memorySteadyStore 30) (.lit "u") r.2 (.emit 3) := by
    decide +kernel
  obtain rfl : o = _ := ho
  have hrun := (Machine.runIn_of_exec hm).snoc hC hstep
  have hcur : Current (memorySteadyStore 30) (.lit "u") (.initial (memoryPresenceStore 30) 0) :=
    ⟨by rintro k t ⟨⟩, by rintro k t ⟨⟩⟩
  refine ⟨tr, _, t, hrun, Machine.inputs_of_exec hm, ?_⟩
  exact converges_steady (S := memorySteadyStore 30) .nil hcur hrun rfl .created

/-- After the lease has run out, the user is forgotten.  The new count is below the last
    revision of the companion, which does not show the chat that its own renewal brings. -/
theorem converges_fails :
    ∃ tr st t, (presenceService (memoryPresenceStore 30)).Run (.initial (memoryPresenceStore 30) 0)
        (tr ++ [(.emit 5, .emitted (.lit "u") st)]) t ∧
      tr.map Prod.fst = Sample.lapsed ∧
      (CompanionSubscriber.created.received (.lit "u")
        (tr ++ [(.emit 5, .emitted (.lit "u") st)])).active ≠ some st.active := by
  obtain ⟨⟨tr, s⟩, hm, ⟨t, o⟩, hstep, ho, hact⟩ :
      ∃ r ∈ (presenceService (memoryPresenceStore 30)).exec (fun _ _ => True)
        (.initial (memoryPresenceStore 30) 0) Sample.lapsed,
      ∃ r' ∈ (presenceService (memoryPresenceStore 30)).step r.2 (.emit 5),
        r'.2 = .emitted (.lit "u") ⟨some (Sample.presence "A" true), 1⟩ ∧
        (CompanionSubscriber.created.received (.lit "u") (r.1 ++ [(.emit 5, r'.2)])).active =
          some none := by
    decide +kernel
  obtain rfl : o = _ := ho
  refine ⟨tr, _, t, (Machine.runIn_of_exec hm).snoc trivial hstep, Machine.inputs_of_exec hm, ?_⟩
  rw [hact]
  simp

end TideBot
