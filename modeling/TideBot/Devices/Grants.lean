/-
  What becomes of a pairing grant.

  A row only moves from pending to approved to consumed, or from pending to denied
  (`GrantStep`), because each `UPDATE` compares the status that it replaces.  So of all that
  race on a grant one approval succeeds, and one exchange consumes it; that exchange alone
  inserts devices, until one insertion succeeds.

  The invariant (`GrantInv`) says of every row which approvals and consumptions there were,
  and of a request that holds a row it has read that the row is still what it was, as far as
  it does not change (`SameGrant`).
-/
import TideBot.Devices.Pairing

namespace TideBot

open Lib

/-! ## What has happened to a grant -/

namespace GrantEffect

variable (id : Text)

/-- The user whose approval of this grant has succeeded. -/
def approver : GrantEffect → Option Text
  | .approved grantId userId => if grantId = id then some userId else none
  | _ => none

/-- The request that has consumed this grant. -/
def consumer : GrantEffect → Option ℕ
  | .consumed grantId request => if grantId = id then some request else none
  | _ => none

/-- The device that was created from this grant, and for which exchange. -/
def creation : GrantEffect → Option (PairingTokenForm × PairedDevice)
  | .created grantId form device => if grantId = id then some (form, device) else none
  | _ => none

end GrantEffect

def approvers (id : Text) (es : List GrantEffect) : List Text := es.filterMap (·.approver id)

def consumers (id : Text) (es : List GrantEffect) : List ℕ := es.filterMap (·.consumer id)

def creations (id : Text) (es : List GrantEffect) : List (PairingTokenForm × PairedDevice) :=
  es.filterMap (·.creation id)

section
variable {id : Text} {es : List GrantEffect} {x : GrantEffect}

theorem approvers_snoc : approvers id (es ++ [x]) = approvers id es ++ (x.approver id).toList := by
  rw [approvers, List.filterMap_append, approvers]
  cases h : x.approver id <;> simp [h]

theorem consumers_snoc : consumers id (es ++ [x]) = consumers id es ++ (x.consumer id).toList := by
  rw [consumers, List.filterMap_append, consumers]
  cases h : x.consumer id <;> simp [h]

theorem creations_snoc : creations id (es ++ [x]) = creations id es ++ (x.creation id).toList := by
  rw [creations, List.filterMap_append, creations]
  cases h : x.creation id <;> simp [h]

end

/-! ## The invariant -/

/-- The ways a row may change. -/
inductive GrantStep : Option PairingGrant → Option PairingGrant → Prop
  | same {r} : GrantStep r r
  | start {r} : r.status = .pending → GrantStep none (some r)
  | approve {r userId} : r.status = .pending →
      GrantStep (some r) (some { r with userId := some userId, status := .approved })
  | deny {r} : r.status = .pending → GrantStep (some r) (some { r with status := .denied })
  | consume {r now} : r.status = .approved → now < r.expiresAt →
      GrantStep (some r) (some { r with status := .consumed, consumedAt := some now })

/-- The row that was read is the row `r` as it was, as far as it does not change. -/
structure SameGrant (grant r : PairingGrant) : Prop where
  id : r.id = grant.id
  deviceCodeHash : r.deviceCodeHash = grant.deviceCodeHash
  verifierHash : r.verifierHash = grant.verifierHash
  userId : grant.userId.isSome → r.userId = grant.userId

/-- What the status of a row says about the past. -/
def History (es : List GrantEffect) (r : PairingGrant) : Prop :=
  match r.status with
  | .pending | .denied => approvers r.id es = [] ∧ consumers r.id es = []
  | .approved => (∃ u, r.userId = some u ∧ approvers r.id es = [u]) ∧ consumers r.id es = []
  | .consumed => (∃ u, r.userId = some u ∧ approvers r.id es = [u]) ∧
      (∃ i, consumers r.id es = [i]) ∧ ∃ t, r.consumedAt = some t ∧ t < r.expiresAt

section
variable (env : RefreshEnv)

/-- The exchange has presented the secrets of the row. -/
def Presents (form : PairingTokenForm) (r : PairingGrant) : Prop :=
  r.deviceCodeHash = env.hashBrowserToken form.deviceCode ∧
    r.verifierHash = env.hashBrowserToken form.verifier

/-- The exchange has read this row, and checked the secrets, with an approver. -/
structure Holds (T : PairingGrants) (form : PairingTokenForm) (grant : PairingGrant) (userId : Text) :
    Prop where
  presented : Presents env form grant
  userId : grant.userId = some userId
  kept : ∃ r, PairingGrants.row T grant.id = some r ∧ SameGrant grant r

/-- Where a request stands. -/
def Standing (T : PairingGrants) (es : List GrantEffect) (i : ℕ) : PairingPc → Prop
  | .inserting grant secrets => grant.status = .pending ∧ grant.userId = none ∧
      grant.deviceCodeHash = env.hashBrowserToken secrets.deviceCode ∧
      grant.verifierHash = env.hashBrowserToken secrets.verifier
  | .checking form grant userId _ => Holds env T form grant userId
  | .consuming form grant userId _ _ => Holds env T form grant userId
  | .creating form grant device _ _ => Holds env T form grant device.userId ∧
      consumers grant.id es = [i] ∧ creations grant.id es = []
  | _ => True

/-- What holds after the effects `es`. -/
structure GrantInv (es : List GrantEffect) (w : PairingWorld) : Prop where
  fresh : ∀ id, PairingGrants.row w.grants id = none →
    approvers id es = [] ∧ consumers id es = []
  history : ∀ id r, PairingGrants.row w.grants id = some r → History es r
  secrets : ∀ id r, PairingGrants.row w.grants id = some r → ∃ secrets, .started id secrets ∈ es ∧
    r.deviceCodeHash = env.hashBrowserToken secrets.deviceCode ∧
    r.verifierHash = env.hashBrowserToken secrets.verifier
  requests : ∀ i pc, w.requests i = some pc → Standing env w.grants es i pc
  unconsumed : ∀ id, consumers id es = [] → creations id es = []
  created : ∀ id form device, (form, device) ∈ creations id es → creations id es = [(form, device)] ∧
    ∃ r, PairingGrants.row w.grants id = some r ∧ r.status = .consumed ∧
      r.userId = some device.userId ∧ Presents env form r

variable {env} {settings : RuntimeSettings} {es : List GrantEffect} {x : GrantEffect}
  {w w' : PairingWorld} {i : ℕ} {pc : PairingPc} {T : PairingGrants} {id : Text} {r r' : PairingGrant}

theorem SameGrant.refl (r : PairingGrant) : SameGrant r r := ⟨rfl, rfl, rfl, fun _ => rfl⟩

theorem SameGrant.trans {grant : PairingGrant} (h : SameGrant grant r) (h' : SameGrant r r') : SameGrant grant r' where
  id := h'.id.trans h.id
  deviceCodeHash := h'.deviceCodeHash.trans h.deviceCodeHash
  verifierHash := h'.verifierHash.trans h.verifierHash
  userId hu := by
    have hr := h.userId hu
    rw [h'.userId (hr ▸ hu), hr]

@[simp] theorem pairing_goto_requests (w : PairingWorld) (i j : ℕ) (pc : PairingPc) :
    (w.goto i pc).requests j = if j = i then some pc else w.requests j := by
  simp [PairingWorld.goto, Function.update_apply]

/-! ## Every step keeps it -/

theorem Standing.step {T T' : PairingGrants} {j : ℕ}
    (hT : ∀ k r, PairingGrants.row T k = some r → ∃ r', PairingGrants.row T' k = some r' ∧ SameGrant r r')
    (hcons : ∀ k, consumers k es ≠ [] → x.consumer k = none)
    (hcre : ∀ k, consumers k es = [j] → x.creation k = none) (h : Standing env T es j pc) :
    Standing env T' (es ++ [x]) j pc := by
  have hholds : ∀ {form grant userId}, Holds env T form grant userId → Holds env T' form grant userId := by
    intro form grant userId h
    obtain ⟨r, hr, hk⟩ := h.kept
    obtain ⟨r', hr', hk'⟩ := hT _ r hr
    exact ⟨h.presented, h.userId, r', hr', hk.trans hk'⟩
  cases pc with
  | inserting => exact h
  | checking => exact hholds h
  | consuming => exact hholds h
  | creating form grant device token attempt =>
    obtain ⟨hh, hc, hn⟩ := h
    refine ⟨hholds hh, ?_, ?_⟩
    · rw [consumers_snoc, hcons _ (by simp [hc]), hc]
      rfl
    · rw [creations_snoc, hcre _ hc, hn]
      rfl
  | starting | reviewing | permitting | approving | denying | reading | done => trivial

theorem GrantInv.requests_goto (h : GrantInv env es w) {D : PairedDevices}
    (hT : ∀ k r, PairingGrants.row w.grants k = some r → ∃ r', PairingGrants.row T k = some r' ∧ SameGrant r r')
    (hcons : ∀ k, consumers k es ≠ [] → x.consumer k = none)
    (hcre : ∀ j k, j ≠ i → consumers k es = [j] → x.creation k = none)
    (hpc : Standing env T (es ++ [x]) i pc) : ∀ j pc',
      (({ w with grants := T, devices := D } : PairingWorld).goto i pc).requests j = some pc' →
      Standing env T (es ++ [x]) j pc' := by
  intro j pc' hj
  rw [pairing_goto_requests] at hj
  split_ifs at hj with hji
  · subst hji
    cases hj
    exact hpc
  · exact (h.requests j pc' hj).step hT hcons (hcre j · hji)

/-- **A step that says nothing of any grant.** -/
theorem GrantInv.quiet (h : GrantInv env es w) (hpc : Standing env w.grants (es ++ [.quiet]) i pc) :
    GrantInv env (es ++ [.quiet]) (w.goto i pc) := by
  have ha : ∀ k, approvers k (es ++ [.quiet]) = approvers k es := by
    intro k
    rw [approvers_snoc]
    exact List.append_nil _
  have hc : ∀ k, consumers k (es ++ [.quiet]) = consumers k es := by
    intro k
    rw [consumers_snoc]
    exact List.append_nil _
  have hn : ∀ k, creations k (es ++ [.quiet]) = creations k es := by
    intro k
    rw [creations_snoc]
    exact List.append_nil _
  constructor
  · intro k hk
    rw [ha, hc]
    exact h.fresh k hk
  · intro k r hr
    have hold := h.history k r hr
    unfold History at hold ⊢
    rw [ha, hc]
    exact hold
  · intro k r hr
    obtain ⟨secrets, hmem, hhash⟩ := h.secrets k r hr
    exact ⟨secrets, List.mem_append_left _ hmem, hhash⟩
  · refine h.requests_goto (T := w.grants) (D := w.devices) ?_ (fun _ _ => rfl) (fun _ _ _ _ => rfl) hpc
    exact fun k r hr => ⟨r, hr, SameGrant.refl r⟩
  · intro k hk
    rw [hc] at hk
    rw [hn]
    exact h.unconsumed k hk
  · intro k form device hmem
    rw [hn] at hmem ⊢
    exact h.created k form device hmem

/-- **A step that changes one row**, which was not consumed. -/
theorem GrantInv.update (h : GrantInv env es w) (hr : PairingGrants.row w.grants id = some r)
    (hr' : PairingGrants.row T id = some r')
    (hother : ∀ k, k ≠ id → PairingGrants.row T k = PairingGrants.row w.grants k) (hk : SameGrant r r')
    (hstatus : r.status ≠ .consumed) (hhist : History (es ++ [x]) r')
    (hx : ∀ k, k ≠ id → x.approver k = none ∧ x.consumer k = none) (hcre : ∀ k, x.creation k = none)
    (hcons : consumers id es = []) (hpc : Standing env T (es ++ [x]) i pc) :
    GrantInv env (es ++ [x]) (({ w with grants := T } : PairingWorld).goto i pc) := by
  have hne : ∀ {k}, PairingGrants.row w.grants k = none → k ≠ id := by
    rintro k hnone rfl
    rw [hr] at hnone
    cases hnone
  have ha : ∀ k, k ≠ id → approvers k (es ++ [x]) = approvers k es := by
    intro k hk
    rw [approvers_snoc, (hx k hk).1, Option.toList_none, List.append_nil]
  have hc : ∀ k, k ≠ id → consumers k (es ++ [x]) = consumers k es := by
    intro k hk
    rw [consumers_snoc, (hx k hk).2, Option.toList_none, List.append_nil]
  have hn : ∀ k, creations k (es ++ [x]) = creations k es := by
    intro k
    rw [creations_snoc, hcre, Option.toList_none, List.append_nil]
  have hT : ∀ k q, PairingGrants.row w.grants k = some q →
      ∃ q', PairingGrants.row T k = some q' ∧ SameGrant q q' := by
    intro k q hq
    by_cases heq : k = id
    · subst heq
      rw [hr] at hq
      cases hq
      exact ⟨r', hr', hk⟩
    · exact ⟨q, (hother k heq).trans hq, SameGrant.refl q⟩
  constructor
  · intro k (hnone : PairingGrants.row T k = none)
    have heq : k ≠ id := by
      rintro rfl
      rw [hr'] at hnone
      cases hnone
    rw [ha k heq, hc k heq]
    exact h.fresh k ((hother k heq).symm.trans hnone)
  · intro k q (hq : PairingGrants.row T k = some q)
    by_cases heq : k = id
    · subst heq
      rw [hr'] at hq
      cases hq
      exact hhist
    · have hold := h.history k q ((hother k heq).symm.trans hq)
      have hid := PairingGrants.row_id hq
      unfold History at hold ⊢
      rw [hid] at hold ⊢
      rw [ha k heq, hc k heq]
      exact hold
  · intro k q (hq : PairingGrants.row T k = some q)
    by_cases heq : k = id
    · subst heq
      rw [hr'] at hq
      cases hq
      obtain ⟨secrets, hmem, hcode, hver⟩ := h.secrets k r hr
      exact ⟨secrets, List.mem_append_left _ hmem, hk.deviceCodeHash.trans hcode,
        hk.verifierHash.trans hver⟩
    · obtain ⟨secrets, hmem, hhash⟩ := h.secrets k q ((hother k heq).symm.trans hq)
      exact ⟨secrets, List.mem_append_left _ hmem, hhash⟩
  · refine h.requests_goto (D := w.devices) hT ?_ (fun _ k _ _ => hcre k) hpc
    intro k hk
    refine (hx k ?_).2
    rintro rfl
    exact hk hcons
  · intro k hk
    rw [hn]
    refine h.unconsumed k ?_
    rw [consumers_snoc] at hk
    exact (List.append_eq_nil_iff.1 hk).1
  · intro k form device hmem
    rw [hn] at hmem ⊢
    obtain ⟨hone, q, hq, hstat, hrest⟩ := h.created k form device hmem
    have heq : k ≠ id := by
      rintro rfl
      rw [hr] at hq
      cases hq
      exact hstatus hstat
    exact ⟨hone, q, (hother k heq).trans hq, hstat, hrest⟩

theorem GrantInv.insert (h : GrantInv env es w) {secrets : PairingSecrets}
    (hins : w.grants.insert r = some T) (hr : Standing env w.grants es i (.inserting r secrets))
    {reply : PairingReply} :
    GrantInv env (es ++ [.started r.id secrets])
      (({ w with grants := T } : PairingWorld).goto i (.done reply)) := by
  obtain ⟨hnone, hrow⟩ := Table.find_insert PairingGrant.id hins fun hK => hK.1
  obtain ⟨hstatus, hnouser, hcode, hver⟩ := hr
  have hold : PairingGrants.row w.grants r.id = none := hnone
  have hnew : PairingGrants.row T r.id = some r := (hrow r.id).trans (if_pos rfl)
  have hother : ∀ k, k ≠ r.id → PairingGrants.row T k = PairingGrants.row w.grants k :=
    fun k hk => (hrow k).trans (if_neg (Ne.symm hk))
  have ha : ∀ k, approvers k (es ++ [.started r.id secrets]) = approvers k es := by
    intro k
    rw [approvers_snoc]
    exact List.append_nil _
  have hc : ∀ k, consumers k (es ++ [.started r.id secrets]) = consumers k es := by
    intro k
    rw [consumers_snoc]
    exact List.append_nil _
  have hn : ∀ k, creations k (es ++ [.started r.id secrets]) = creations k es := by
    intro k
    rw [creations_snoc]
    exact List.append_nil _
  have hsome : ∀ {k q}, PairingGrants.row w.grants k = some q → PairingGrants.row T k = some q := by
    intro k q hq
    rw [hother k, hq]
    rintro rfl
    rw [hold] at hq
    cases hq
  constructor
  · intro k (hk : PairingGrants.row T k = none)
    rw [ha, hc]
    refine h.fresh k ?_
    cases hq : PairingGrants.row w.grants k with
    | none => rfl
    | some q =>
      rw [hsome hq] at hk
      cases hk
  · intro k q (hq : PairingGrants.row T k = some q)
    by_cases heq : k = r.id
    · subst heq
      rw [hnew] at hq
      cases hq
      unfold History
      rw [hstatus, ha, hc]
      exact h.fresh r.id hold
    · have hist := h.history k q ((hother k heq).symm.trans hq)
      unfold History at hist ⊢
      rw [ha, hc]
      exact hist
  · intro k q (hq : PairingGrants.row T k = some q)
    by_cases heq : k = r.id
    · subst heq
      rw [hnew] at hq
      cases hq
      exact ⟨secrets, List.mem_append_right _ List.mem_cons_self, hcode, hver⟩
    · obtain ⟨secrets', hmem, hhash⟩ := h.secrets k q ((hother k heq).symm.trans hq)
      exact ⟨secrets', List.mem_append_left _ hmem, hhash⟩
  · refine h.requests_goto (D := w.devices) ?_ (fun _ _ => rfl) (fun _ _ _ _ => rfl) trivial
    exact fun k q hq => ⟨q, hsome hq, SameGrant.refl q⟩
  · intro k hk
    rw [hc] at hk
    rw [hn]
    exact h.unconsumed k hk
  · intro k form device hmem
    rw [hn] at hmem ⊢
    obtain ⟨hone, q, hq, hrest⟩ := h.created k form device hmem
    exact ⟨hone, q, hsome hq, hrest⟩

theorem GrantInv.create (h : GrantInv env es w) {form : PairingTokenForm} {grant : PairingGrant}
    {device : PairedDevice} {token label : Text} {attempt : ℕ} {D : PairedDevices} {reply : PairingReply}
    (hpc : Standing env w.grants es i (.creating form grant device token attempt)) :
    GrantInv env (es ++ [.created grant.id form { device with label := label }])
      (({ w with devices := D } : PairingWorld).goto i (.done reply)) := by
  obtain ⟨hholds, hcons, hnone⟩ := hpc
  obtain ⟨r, hr, hkept⟩ := hholds.kept
  have ha : ∀ k, approvers k (es ++ [.created grant.id form { device with label := label }]) =
      approvers k es := by
    intro k
    rw [approvers_snoc]
    exact List.append_nil _
  have hc : ∀ k, consumers k (es ++ [.created grant.id form { device with label := label }]) =
      consumers k es := by
    intro k
    rw [consumers_snoc]
    exact List.append_nil _
  have hn : ∀ k, k ≠ grant.id →
      creations k (es ++ [.created grant.id form { device with label := label }]) = creations k es := by
    intro k hk
    rw [creations_snoc, GrantEffect.creation, if_neg (Ne.symm hk)]
    exact List.append_nil _
  constructor
  · intro k hk
    rw [ha, hc]
    exact h.fresh k hk
  · intro k q hq
    have hist := h.history k q hq
    unfold History at hist ⊢
    rw [ha, hc]
    exact hist
  · intro k q hq
    obtain ⟨secrets, hmem, hhash⟩ := h.secrets k q hq
    exact ⟨secrets, List.mem_append_left _ hmem, hhash⟩
  · refine h.requests_goto (T := w.grants) (fun k q hq => ⟨q, hq, SameGrant.refl q⟩) (fun _ _ => rfl) ?_ trivial
    intro j k hj hk
    refine if_neg ?_
    rintro rfl
    rw [hcons] at hk
    exact hj (List.cons.inj hk).1.symm
  · intro k hk
    have hne : k ≠ grant.id := by
      rintro rfl
      rw [hc, hcons] at hk
      cases hk
    rw [hc] at hk
    rw [hn k hne]
    exact h.unconsumed k hk
  · intro k form' device' hmem
    by_cases hk : k = grant.id
    · subst hk
      have hone : creations grant.id (es ++ [.created grant.id form { device with label := label }]) =
          [(form, { device with label := label })] := by
        rw [creations_snoc, hnone, GrantEffect.creation, if_pos rfl]
        rfl
      rw [hone] at hmem ⊢
      cases List.mem_singleton.1 hmem
      have hist := h.history grant.id r hr
      have hid := PairingGrants.row_id hr
      have huser : r.userId = some device.userId := (hkept.userId (by simp [hholds.userId])).trans hholds.userId
      refine ⟨rfl, r, hr, ?_, huser, ?_⟩
      · unfold History at hist
        rw [hid, hcons] at hist
        cases hs : r.status with
        | consumed => rfl
        | pending | denied | approved => simp [hs] at hist
      · exact ⟨hkept.deviceCodeHash.trans hholds.presented.1, hkept.verifierHash.trans hholds.presented.2⟩
    · rw [hn k hk] at hmem ⊢
      exact h.created k form' device' hmem

theorem GrantInv.unmatched (h : GrantInv env es w) (hT : ∀ k, PairingGrants.row T k = PairingGrants.row w.grants k)
    {reply : PairingReply} :
    GrantInv env (es ++ [.quiet]) (({ w with grants := T } : PairingWorld).goto i (.done reply)) := by
  have hquiet : GrantInv env (es ++ [.quiet]) (w.goto i (.done reply)) := h.quiet trivial
  refine ⟨?_, ?_, ?_, ?_, hquiet.unconsumed, ?_⟩
  · intro k hk
    exact hquiet.fresh k ((hT k).symm.trans hk)
  · intro k r hr
    exact hquiet.history k r ((hT k).symm.trans hr)
  · intro k r hr
    exact hquiet.secrets k r ((hT k).symm.trans hr)
  · refine h.requests_goto (D := w.devices) ?_ (fun _ _ => rfl) (fun _ _ _ _ => rfl) trivial
    exact fun k r hr => ⟨r, (hT k).trans hr, SameGrant.refl r⟩
  · intro k form device hmem
    obtain ⟨hone, r, hr, hrest⟩ := hquiet.created k form device hmem
    exact ⟨hone, r, (hT k).trans hr, hrest⟩

/-- What a step does: the invariant is kept, and every row changes as it may. -/
def Good (env : RefreshEnv) (es : List GrantEffect) (w w' : PairingWorld) (x : GrantEffect) : Prop :=
  GrantInv env (es ++ [x]) w' ∧
    ∀ id, GrantStep (PairingGrants.row w.grants id) (PairingGrants.row w'.grants id)

theorem GrantInv.good_quiet (h : GrantInv env es w) (hpc : Standing env w.grants (es ++ [.quiet]) i pc) :
    Good env es w (w.goto i pc) .quiet := ⟨h.quiet hpc, fun _ => .same⟩

/-- A step is good that is an `UPDATE` of one row, if it is good when the row matches. -/
theorem GrantInv.good_update (h : GrantInv env es w) (id : Text) {p : PairingGrant → Bool}
    {f : PairingGrant → PairingGrant} (hp : ∀ r, p r → r.id = id)
    (hf : ∀ r, (f r).id = r.id ∧ (f r).deviceCodeHash = r.deviceCodeHash ∧
      (f r).verifierHash = r.verifierHash) {matched : PairingPc} {reply : PairingReply}
    {y : GrantEffect}
    (hgood : ∀ r T, PairingGrants.row w.grants id = some r → p r → PairingGrants.row T id = some (f r) →
      (∀ k, k ≠ id → PairingGrants.row T k = PairingGrants.row w.grants k) →
      GrantInv env (es ++ [x]) (({ w with grants := T } : PairingWorld).goto i matched) ∧
        GrantStep (some r) (some (f r)))
    (hs : w.afterUpdate i matched (.done reply) x (PairingGrants.updateReturning w.grants p f) =
      (w', y)) :
    Good env es w w' y := by
  obtain ⟨T, res, hupd, hcases⟩ := PairingGrants.update_cases (T := w.grants) hp hf
  rw [hupd] at hs
  rcases hcases with ⟨rfl, hT⟩ | ⟨r, hr, hpr, rfl, hr', hother⟩
  · cases hs
    exact ⟨h.unmatched hT, fun k => (hT k).symm ▸ .same⟩
  · cases hs
    obtain ⟨hinv, hstep⟩ := hgood r T hr hpr hr' hother
    refine ⟨hinv, ?_⟩
    intro k
    show GrantStep _ (PairingGrants.row T k)
    by_cases hk : k = id
    · rw [hk, hr, hr']
      exact hstep
    · rw [hother k hk]
      exact .same

theorem GrantInv.step (h : GrantInv env es w) {act : PairingAct}
    (hs : (pairingMachine env settings).step w act = some (w', x)) : Good env es w w' x := by
  change PairingWorld.step env settings w act = some (w', x) at hs
  cases act with
  | call i call =>
    simp only [PairingWorld.step] at hs
    split at hs
    · cases hs
      refine h.good_quiet ?_
      cases call with
      | start form limited =>
        simp only [PairingCall.begin]
        split_ifs
        · trivial
        · split <;> trivial
      | approve | exchange =>
        simp only [PairingCall.begin]
        split_ifs <;> trivial
    · cases hs
  | resume i tick =>
    obtain ⟨pc, hpc, hs⟩ := Option.bind_eq_some_iff.1 hs
    have hstand := h.requests i pc hpc
    cases pc with
    | starting form origin =>
      cases hs
      exact h.good_quiet ⟨rfl, rfl, rfl, rfl⟩
    | inserting grant secrets =>
      simp only [PairingWorld.resume] at hs
      split at hs
      · cases hs
        exact h.good_quiet trivial
      · rename_i T hins
        cases hs
        refine ⟨h.insert hins hstand, ?_⟩
        intro k
        show GrantStep _ (PairingGrants.row T k)
        obtain ⟨hnone, hrow⟩ := Table.find_insert PairingGrant.id hins fun hK => hK.1
        by_cases hk : grant.id = k
        · subst hk
          rw [show PairingGrants.row w.grants grant.id = none from hnone,
            show PairingGrants.row T grant.id = some grant from (hrow _).trans (if_pos rfl)]
          exact .start hstand.1
        · rw [show PairingGrants.row T k = PairingGrants.row w.grants k from (hrow k).trans (if_neg hk)]
          exact .same
    | reviewing userId grantId form =>
      cases hs
      refine h.good_quiet ?_
      unfold afterReview
      split
      · trivial
      · split_ifs <;> trivial
    | permitting userId grant now =>
      cases hs
      refine h.good_quiet ?_
      unfold afterPermit
      split_ifs
      · trivial
      · split <;> trivial
    | approving userId grantId now =>
      refine h.good_update grantId ?_ (fun _ => ⟨?_, ?_, ?_⟩) ?_ (Option.some.inj hs)
      · intro r hr
        simp only [Bool.and_eq_true, decide_eq_true_eq] at hr
        exact hr.1.1.1
      · rfl
      · rfl
      · rfl
      · intro r T hr hp hr' hother
        simp only [Bool.and_eq_true, decide_eq_true_eq, Option.isNone_iff_eq_none] at hp
        obtain ⟨⟨⟨hid, hstatus⟩, huser⟩, -⟩ := hp
        have hist := h.history grantId r hr
        simp only [History, hstatus, hid] at hist
        refine ⟨h.update hr hr' hother ⟨rfl, rfl, rfl, by simp [huser]⟩ (by simp [hstatus]) ?_ ?_
          (fun _ => rfl) hist.2 trivial, .approve hstatus⟩
        · simp only [History, hid]
          rw [approvers_snoc, consumers_snoc, hist.1, hist.2]
          exact ⟨⟨userId, rfl, by simp [GrantEffect.approver]⟩, rfl⟩
        · exact fun k hk => ⟨if_neg (Ne.symm hk), rfl⟩
    | denying grantId now =>
      refine h.good_update grantId ?_ (fun _ => ⟨?_, ?_, ?_⟩) ?_ (Option.some.inj hs)
      · intro r hr
        simp only [Bool.and_eq_true, decide_eq_true_eq] at hr
        exact hr.1.1
      · rfl
      · rfl
      · rfl
      · intro r T hr hp hr' hother
        simp only [Bool.and_eq_true, decide_eq_true_eq] at hp
        obtain ⟨⟨hid, hstatus⟩, -⟩ := hp
        have hist := h.history grantId r hr
        simp only [History, hstatus, hid] at hist
        refine ⟨h.update hr hr' hother ⟨rfl, rfl, rfl, fun _ => rfl⟩ (by simp [hstatus]) ?_
          (fun _ _ => ⟨rfl, rfl⟩) (fun _ => rfl) hist.2 trivial, .deny hstatus⟩
        simp only [History, hid]
        rw [approvers_snoc, consumers_snoc, hist.1, hist.2]
        exact ⟨rfl, rfl⟩
    | reading form =>
      cases hs
      refine h.good_quiet ?_
      cases hrow : PairingGrants.row w.grants form.grantId with
      | none => trivial
      | some grant =>
        unfold afterReading
        cases huser : grant.userId with
        | none =>
          simp only [huser]
          split_ifs <;> trivial
        | some userId =>
          simp only [huser]
          split_ifs with hmatch
          · trivial
          · trivial
          · trivial
          · trivial
          · trivial
          · simp only [secretMatches, Bool.not_eq_true', Bool.and_eq_false_iff, not_or,
              Bool.not_eq_false, decide_eq_true_eq] at hmatch
            have hid := PairingGrants.row_id hrow
            exact ⟨hmatch, huser, grant, hid ▸ hrow, SameGrant.refl grant⟩
    | checking form grant userId now =>
      cases hs
      refine h.good_quiet ?_
      unfold afterChecking
      split_ifs
      · trivial
      · split
        · trivial
        · exact hstand
    | consuming form grant userId origin now =>
      refine h.good_update grant.id ?_ (fun _ => ⟨?_, ?_, ?_⟩) ?_ (Option.some.inj hs)
      · intro r hr
        simp only [Bool.and_eq_true, decide_eq_true_eq] at hr
        exact hr.1.1.1.1
      · rfl
      · rfl
      · rfl
      · intro r T hr hp hr' hother
        simp only [Bool.and_eq_true, decide_eq_true_eq] at hp
        obtain ⟨⟨⟨⟨hid, -⟩, hstatus⟩, -⟩, htime⟩ := hp
        have hist := h.history grant.id r hr
        simp only [History, hstatus, hid] at hist
        have hcons : consumers grant.id (es ++ [.consumed grant.id i]) = [i] := by
          rw [consumers_snoc, hist.2]
          simp [GrantEffect.consumer]
        refine ⟨h.update hr hr' hother ⟨rfl, rfl, rfl, fun _ => rfl⟩ (by simp [hstatus]) ?_ ?_
          (fun _ => rfl) hist.2 ?_, .consume hstatus htime⟩
        · simp only [History, hid]
          rw [approvers_snoc, hcons]
          obtain ⟨⟨u, huser, happ⟩, -⟩ := hist
          refine ⟨⟨u, huser, ?_⟩, ⟨i, rfl⟩, now, rfl, htime⟩
          rw [happ]
          rfl
        · exact fun k hk => ⟨rfl, if_neg (Ne.symm hk)⟩
        · obtain ⟨hpres, huser, q, hq, hkept⟩ := hstand
          rw [hr] at hq
          cases hq
          refine ⟨⟨hpres, huser, _, hr', hkept.trans ⟨rfl, rfl, rfl, fun _ => rfl⟩⟩, hcons, ?_⟩
          rw [creations_snoc, h.unconsumed grant.id hist.2]
          rfl
    | creating form grant device token attempt =>
      simp only [PairingWorld.resume] at hs
      split at hs
      · cases hs
        exact ⟨h.create hstand, fun _ => .same⟩
      · split_ifs at hs
        · cases hs
          refine h.good_quiet ?_
          exact hstand.step (x := .quiet) (fun k r hr => ⟨r, hr, SameGrant.refl r⟩) (fun _ _ => rfl) fun _ _ => rfl
        · cases hs
          exact h.good_quiet trivial
    | done reply => cases hs

/-! ## Every run -/

theorem grantInv_init : GrantInv env [] .init where
  fresh _ _ := ⟨rfl, rfl⟩
  history _ _ hr := by cases hr
  secrets _ _ hr := by cases hr
  requests _ _ hi := by cases hi
  unconsumed _ _ := rfl
  created _ _ _ hmem := by cases hmem

theorem grantInv_run {tr : List (PairingAct × GrantEffect)}
    (h : (pairingMachine env settings).Run .init tr w) : GrantInv env (tr.map Prod.snd) w := by
  refine h.traceInvariant (I := fun tr w => GrantInv env (tr.map Prod.snd) w) ?_ grantInv_init
  intro tr w act w' x _ hinv hs
  rw [List.map_append]
  exact (hinv.step hs).1

/-- What a device was created for. -/
structure CreatedFor (env : RefreshEnv) (es : List GrantEffect) (grantId : Text) (form : PairingTokenForm)
    (device : PairedDevice) (r : PairingGrant) : Prop where
  consumed : r.status = .consumed
  /-- The one user whose approval has succeeded. -/
  approver : approvers grantId es = [device.userId]
  /-- The exchange has presented the secrets of the grant. -/
  secrets : ∃ secrets, .started grantId secrets ∈ es ∧
    env.hashBrowserToken secrets.deviceCode = env.hashBrowserToken form.deviceCode ∧
    env.hashBrowserToken secrets.verifier = env.hashBrowserToken form.verifier ∧
    (Function.Injective env.hashBrowserToken →
      form.deviceCode = secrets.deviceCode ∧ form.verifier = secrets.verifier)
  onTime : ∃ t, r.consumedAt = some t ∧ t < r.expiresAt

/-- A grant is used once. -/
structure SingleUse (env : RefreshEnv) (settings : RuntimeSettings) (es : List GrantEffect)
    (w : PairingWorld) : Prop where
  /-- From here, a grant moves only along its path. -/
  path : ∀ act w' x, (pairingMachine env settings).step w act = some (w', x) →
    ∀ id, GrantStep (PairingGrants.row w.grants id) (PairingGrants.row w'.grants id)
  once : ∀ id, (creations id es).length ≤ 1
  created : ∀ id form device, (form, device) ∈ creations id es →
    ∃ r, PairingGrants.row w.grants id = some r ∧ CreatedFor env es id form device r

/-- **Pairing grants are used once, by whoever was approved**, in any interleaving of starts,
    approvals, denials and exchanges. -/
theorem singleUse {tr : List (PairingAct × GrantEffect)}
    (h : (pairingMachine env settings).Run .init tr w) :
    SingleUse env settings (tr.map Prod.snd) w := by
  have hinv := grantInv_run h
  constructor
  · intro act w' x hs
    exact (hinv.step hs).2
  · intro id
    cases hc : creations id (tr.map Prod.snd) with
    | nil => simp
    | cons c cs =>
      have hone := (hinv.created id c.1 c.2 (hc ▸ List.mem_cons_self)).1
      rw [hone] at hc
      simp [← hc]
  · intro id form device hmem
    obtain ⟨-, r, hr, hstatus, huser, hcode, hver⟩ := hinv.created id form device hmem
    have hid := PairingGrants.row_id hr
    have hist := hinv.history id r hr
    simp only [History, hstatus, hid] at hist
    obtain ⟨⟨u, hu, happ⟩, -, htime⟩ := hist
    obtain ⟨secrets, hstart, hcode', hver'⟩ := hinv.secrets id r hr
    have hcodes := hcode'.symm.trans hcode
    have hvers := hver'.symm.trans hver
    refine ⟨r, hr, hstatus, ?_, ⟨secrets, hstart, hcodes, hvers, ?_⟩, htime⟩
    · rw [huser] at hu
      rw [happ, Option.some.inj hu]
    · exact fun hinj => ⟨hinj hcodes.symm, hinj hvers.symm⟩

end

/-! ### Two exchanges of one approved grant -/

def pairingEnv : RefreshEnv where
  decodeRefreshCredential _ := .error .unhandled
  hashBrowserToken t := t
  validateServerOrigin _ origin := .ok origin

def pairingSettings : RuntimeSettings := ⟨false, .lit "production", .lit "https://tide-bot.com"⟩

def pairingTick (now : ℤ) (device : String) : Tick where
  now := now
  allowed := true
  grantId := .lit "grant"
  secrets := ⟨.lit "AAAA-BBBB", .lit "verifier"⟩
  deviceId := .lit device
  tokenFamilyId := .lit "family"
  refreshToken := .lit device

def twoExchanges : List PairingAct :=
  let form : PairingTokenForm := ⟨.lit "grant", .lit "AAAA-BBBB", .lit "verifier"⟩
  let go i now := PairingAct.resume i (pairingTick now "device")
  [.call 0 (.start ⟨.lit "Chrome", .lit "https://tide-bot.com", .lit "1.0"⟩ false), go 0 10, go 0 10,
    .call 1 (.approve (.lit "ada") (.lit "grant") ⟨.lit "AAAA-BBBB", true⟩ false), go 1 20, go 1 20, go 1 20,
    .call 2 (.exchange form false), .call 3 (.exchange form false),
    go 2 30, go 3 30, go 2 30, go 3 30, go 2 30, go 3 30, go 2 30]

theorem singleUse_twoExchanges :
    ∃ tr w, (pairingMachine pairingEnv pairingSettings).Run .init tr w ∧
      (creations (.lit "grant") (tr.map Prod.snd)).length = 1 ∧
      SingleUse pairingEnv pairingSettings (tr.map Prod.snd) w := by
  obtain ⟨⟨tr, w⟩, hm, hx⟩ : ∃ r ∈ (pairingMachine pairingEnv pairingSettings).exec (fun _ _ => True) .init
      twoExchanges, (creations (.lit "grant") (r.1.map Prod.snd)).length = 1 := by
    decide +kernel
  exact ⟨tr, w, Machine.runIn_of_exec hm, hx, singleUse (Machine.runIn_of_exec hm)⟩

end TideBot
