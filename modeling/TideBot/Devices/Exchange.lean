/-
  One exchange of a pairing grant (`exchange_pairing_token`), from its call to its answer, while no other
  request goes on.

  The grant is consumed by a statement of its own, before the device is created.  So an exchange that finds
  every label taken answers without a token, and the grant is lost (`exchange_keeps_iff`).

  `exchangePairingToken` is what the steps of `pairingMachine` come to for such a request
  (`exchange_alone`).
-/
import TideBot.Devices.Grants
import TideBot.Devices.Labels

namespace TideBot

open Lib

section

variable (env : RefreshEnv) (settings : RuntimeSettings)

/-! ## The handler -/

/-- What is answered after `_create_paired_device`. -/
def createdReply (devices : PairedDevices) (refreshToken : Text) :
    Option (PairedDevices × PairedDevice) → PairedDevices × PairingReply
  | some (devices, device) => (devices, .token device refreshToken)
  | none => (devices, .http 409 (.lit "device_label_in_use"))

/-- The consumption, and what follows it. -/
def consumeAndCreate (w : PairingWorld) (form : PairingTokenForm) (grant : PairingGrant) (userId origin : Text)
    (now : ℤ) (tick : Tick) : PairingGrants × PairedDevices × PairingReply :=
  match PairingGrants.consume w.grants grant.id (env.hashBrowserToken form.verifier) now with
  | none => (w.grants, w.devices, .serverError)
  | some (grants, none) => (grants, w.devices, .invalidGrant)
  | some (grants, some _) =>
    (grants, createdReply w.devices tick.refreshToken
      (createPairedDevice w.devices (newDevice env grant userId origin now tick)))

/-- `exchange_pairing_token`; the ticks are those of the row and the clock, of the permission check, and of what
    is drawn for the device. -/
def exchangePairingToken (w : PairingWorld) (form : PairingTokenForm) (limited : Bool) (read check draw : Tick) :
    PairingGrants × PairedDevices × PairingReply :=
  match (PairingCall.exchange form limited).begin env settings with
  | .reading form =>
    match afterReading env form read.now (PairingGrants.row w.grants form.grantId) with
    | .checking form grant userId now =>
      match afterChecking env settings form grant userId now check.allowed with
      | .consuming form grant userId origin now => consumeAndCreate env w form grant userId origin now draw
      | .done reply => (w.grants, w.devices, reply)
      | _ => (w.grants, w.devices, .serverError)
    | .done reply => (w.grants, w.devices, reply)
    | _ => (w.grants, w.devices, .serverError)
  | .done reply => (w.grants, w.devices, reply)
  | _ => (w.grants, w.devices, .serverError)

end

/-- A token response. -/
def PairingReply.isToken : PairingReply → Bool
  | .token .. => true
  | _ => false

/-- The grant has the status and the time of consumption that it had. -/
def KeepsGrant (T T' : PairingGrants) (id : Text) : Prop :=
  (PairingGrants.row T' id).map (fun r => (r.status, r.consumedAt)) =
    (PairingGrants.row T id).map fun r => (r.status, r.consumedAt)

theorem update_matches_none {ρ : Type} {K : List ρ → Prop} [DecidablePred K] {T T' : Table ρ K} {p : ρ → Bool}
    {f : ρ → ρ} {rs : List ρ} (h : T.update p f = some (T', rs)) (hnone : rs.head? = none) {r : ρ} (hr : r ∈ T.rows) :
    ¬p r := by
  unfold Table.update at h
  split_ifs at h
  obtain ⟨-, rfl⟩ := Prod.mk.inj (Option.some.inj h)
  rw [List.head?_eq_none_iff, List.map_eq_nil_iff, List.filter_eq_nil_iff] at hnone
  exact hnone r hr

/-! ## When the grant is consumed -/

section

variable {env : RefreshEnv} {settings : RuntimeSettings} {w : PairingWorld} {form : PairingTokenForm} {limited : Bool}
  {read check draw : Tick} {grant r : PairingGrant} {userId origin : Text} {now : ℤ} {o : Option PairingGrant}

/-- The row that was read lets the exchange go on for this user. -/
structure Ready (env : RefreshEnv) (form : PairingTokenForm) (now : ℤ) (grant : PairingGrant) (userId : Text) : Prop where
  deviceCode : secretMatches env grant.deviceCodeHash form.deviceCode
  verifier : secretMatches env grant.verifierHash form.verifier
  unexpired : now < grant.expiresAt
  status : grant.status = .approved
  userId : grant.userId = some userId

/-- The exchange consumes this grant. -/
structure Consumes (env : RefreshEnv) (settings : RuntimeSettings) (w : PairingWorld) (form : PairingTokenForm)
    (limited : Bool) (read check : Tick) (grant : PairingGrant) (userId origin : Text) : Prop where
  called : limited = false
  row : PairingGrants.row w.grants form.grantId = some grant
  ready : Ready env form read.now grant userId
  unconsumed : grant.consumedAt = none
  allowed : check.allowed
  origin : env.validateServerOrigin settings grant.requestedOrigin = .ok origin

theorem afterReading_cases (env : RefreshEnv) (form : PairingTokenForm) (now : ℤ) (o : Option PairingGrant) :
    (∃ grant userId, o = some grant ∧ Ready env form now grant userId ∧
      afterReading env form now o = .checking form grant userId now) ∨
    ∃ reply : PairingReply, afterReading env form now o = .done reply ∧ reply.isToken = false ∧
      ∀ grant userId, o = some grant → ¬Ready env form now grant userId := by
  cases o with
  | none => exact .inr ⟨_, rfl, rfl, by rintro _ _ ⟨⟩⟩
  | some grant =>
    obtain ⟨pc, hpc⟩ : ∃ pc, afterReading env form now (some grant) = pc := ⟨_, rfl⟩
    have hdone : ∀ reply : PairingReply, .done reply = pc → reply.isToken = false →
        (∀ userId, ¬Ready env form now grant userId) → (∃ grant' userId, some grant = some grant' ∧
          Ready env form now grant' userId ∧ pc = .checking form grant' userId now) ∨
        ∃ reply : PairingReply, pc = .done reply ∧ reply.isToken = false ∧
          ∀ grant' userId, some grant = some grant' → ¬Ready env form now grant' userId := by
      rintro reply rfl htoken hnot
      refine .inr ⟨reply, rfl, htoken, ?_⟩
      rintro grant' userId ⟨⟩
      exact hnot userId
    rw [hpc]
    simp only [afterReading] at hpc
    split_ifs at hpc with hsecrets hexp hpending hdenied hstatus
    · refine hdone _ hpc rfl fun userId h => ?_
      simp [h.deviceCode, h.verifier] at hsecrets
    · exact hdone _ hpc rfl fun userId h => absurd h.unexpired (not_lt.2 hexp)
    · refine hdone _ hpc rfl fun userId h => ?_
      cases hpending.symm.trans h.status
    · refine hdone _ hpc rfl fun userId h => ?_
      cases hdenied.symm.trans h.status
    · cases huser : grant.userId with
      | none =>
        rw [huser] at hpc
        exact hdone _ hpc rfl fun userId h => hstatus h.status
      | some userId =>
        rw [huser] at hpc
        exact hdone _ hpc rfl fun userId h => hstatus h.status
    · cases huser : grant.userId with
      | none =>
        rw [huser] at hpc
        refine hdone _ hpc rfl fun userId h => ?_
        cases huser.symm.trans h.userId
      | some userId =>
        rw [huser] at hpc
        have hboth : secretMatches env grant.deviceCodeHash form.deviceCode ∧
            secretMatches env grant.verifierHash form.verifier := by
          simpa using hsecrets
        exact .inl ⟨grant, userId, rfl, ⟨hboth.1, hboth.2, not_le.1 hexp, not_not.1 hstatus, huser⟩, hpc.symm⟩

theorem afterChecking_cases (env : RefreshEnv) (settings : RuntimeSettings) (form : PairingTokenForm)
    (grant : PairingGrant) (userId : Text) (now : ℤ) (allowed : Bool) :
    (∃ origin, allowed = true ∧ env.validateServerOrigin settings grant.requestedOrigin = .ok origin ∧
      afterChecking env settings form grant userId now allowed = .consuming form grant userId origin now) ∨
    ∃ reply : PairingReply, afterChecking env settings form grant userId now allowed = .done reply ∧
      reply.isToken = false ∧ ∀ origin, allowed = true →
        env.validateServerOrigin settings grant.requestedOrigin ≠ .ok origin := by
  cases allowed with
  | false => exact .inr ⟨_, rfl, rfl, by rintro _ ⟨⟩⟩
  | true =>
    cases hvalid : env.validateServerOrigin settings grant.requestedOrigin with
    | error msg =>
      refine .inr ⟨.http 403 msg, by simp [afterChecking, hvalid], rfl, ?_⟩
      rintro origin - ⟨⟩
    | ok origin => exact .inl ⟨origin, rfl, rfl, by simp [afterChecking, hvalid]⟩

/-- **The consumption of a row that was ready.** -/
theorem consume_cases (hrow : PairingGrants.row w.grants form.grantId = some grant)
    (hready : Ready env form now grant userId) : ∃ T res,
      PairingGrants.consume w.grants grant.id (env.hashBrowserToken form.verifier) now = some (T, res) ∧
      ((grant.consumedAt ≠ none ∧ res = none ∧ ∀ k, PairingGrants.row T k = PairingGrants.row w.grants k) ∨
        grant.consumedAt = none ∧ res.isSome ∧
          PairingGrants.row T form.grantId = some { grant with status := .consumed, consumedAt := some now }) := by
  have hid := PairingGrants.row_id hrow
  rw [← hid] at hrow ⊢
  have hmatch : ∀ r : PairingGrant, (r.id = grant.id && r.verifierHash = env.hashBrowserToken form.verifier &&
      r.status = .approved && r.consumedAt.isNone && now < r.expiresAt) = true ↔
      r.id = grant.id ∧ r.verifierHash = env.hashBrowserToken form.verifier ∧ r.status = .approved ∧
        r.consumedAt = none ∧ now < r.expiresAt := by
    intro r
    simp [and_assoc]
  obtain ⟨T, res, hconsume, hcases⟩ := PairingGrants.update_cases (T := w.grants)
    (p := fun r => r.id = grant.id && r.verifierHash = env.hashBrowserToken form.verifier &&
      r.status = .approved && r.consumedAt.isNone && now < r.expiresAt)
    (f := fun r => { r with status := .consumed, consumedAt := some now })
    (fun r hr => ((hmatch r).1 hr).1) (fun _ => ⟨rfl, rfl, rfl⟩)
  refine ⟨T, res, hconsume, ?_⟩
  obtain ⟨hnone, hsame⟩ | ⟨r, hr, hp, hres, hrow', -⟩ := hcases
  · refine .inl ⟨?_, hnone, hsame⟩
    intro hunconsumed
    -- the row that was read meets the condition
    obtain ⟨⟨T', rs⟩, hupdate, heq⟩ := Option.map_eq_some_iff.1 hconsume
    obtain ⟨-, hhead⟩ := Prod.mk.inj heq
    have hall := update_matches_none hupdate (hhead.trans hnone) (Table.find_mem _ hrow)
    refine hall ((hmatch _).2 ⟨rfl, ?_, hready.status, hunconsumed, hready.unexpired⟩)
    simpa [secretMatches] using hready.verifier
  · rw [hrow, Option.some.injEq] at hr
    subst hr
    exact .inr ⟨((hmatch _).1 hp).2.2.2.1, by rw [hres]; rfl, hrow'⟩

/-- An exchange consumes a grant, or answers without having changed anything. -/
theorem exchange_cases (env : RefreshEnv) (settings : RuntimeSettings) (w : PairingWorld) (form : PairingTokenForm)
    (limited : Bool) (read check draw : Tick) :
    (∃ grant userId origin, PairingGrants.row w.grants form.grantId = some grant ∧
      Ready env form read.now grant userId ∧
      (grant.consumedAt = none → Consumes env settings w form limited read check grant userId origin) ∧
      exchangePairingToken env settings w form limited read check draw =
        consumeAndCreate env w form grant userId origin read.now draw) ∨
    ∃ reply : PairingReply, exchangePairingToken env settings w form limited read check draw =
      (w.grants, w.devices, reply) ∧ reply.isToken = false ∧
      ∀ grant userId origin, ¬Consumes env settings w form limited read check grant userId origin := by
  cases limited with
  | true =>
    refine .inr ⟨.limited, rfl, rfl, ?_⟩
    intro grant userId origin h
    cases h.called
  | false =>
    have hbegin : (PairingCall.exchange form false).begin env settings = .reading form := rfl
    unfold exchangePairingToken
    rw [hbegin]
    dsimp only
    obtain ⟨grant, userId, hrow, hready, hread⟩ | ⟨reply, hread, htoken, hnot⟩ :=
      afterReading_cases env form read.now (PairingGrants.row w.grants form.grantId)
    · rw [hread]
      dsimp only
      obtain ⟨origin, hallowed, horigin, hcheck⟩ | ⟨reply, hcheck, htoken, hnot⟩ :=
        afterChecking_cases env settings form grant userId read.now check.allowed
      · rw [hcheck]
        exact .inl ⟨grant, userId, origin, hrow, hready,
          fun hunconsumed => ⟨rfl, hrow, hready, hunconsumed, hallowed, horigin⟩, rfl⟩
      · rw [hcheck]
        refine .inr ⟨reply, rfl, htoken, ?_⟩
        intro grant' userId' origin h
        obtain rfl := Option.some.inj (hrow.symm.trans h.row)
        exact hnot origin h.allowed h.origin
    · rw [hread]
      refine .inr ⟨reply, rfl, htoken, ?_⟩
      intro grant userId origin h
      exact hnot grant userId h.row h.ready

/-- **An exchange without a token leaves the grant as it was, unless it consumes a grant and finds every label
    taken.** -/
theorem exchange_keeps_iff (env : RefreshEnv) (settings : RuntimeSettings) (w : PairingWorld)
    (form : PairingTokenForm) (limited : Bool) (read check draw : Tick) :
    ((exchangePairingToken env settings w form limited read check draw).2.2.isToken = false →
      KeepsGrant w.grants (exchangePairingToken env settings w form limited read check draw).1 form.grantId) ↔
    ∀ grant userId origin, Consumes env settings w form limited read check grant userId origin →
      NewDevice w.devices (newDevice env grant userId origin read.now draw) ∧
        holders w.devices userId grant.deviceLabel < maxDeviceLabelAttempts := by
  obtain ⟨grant, userId, origin, hrow, hready, hconsumes, heq⟩ | ⟨reply, heq, -, hnot⟩ :=
    exchange_cases env settings w form limited read check draw
  · rw [heq]
    have hunique : ∀ {grant' userId' origin'}, Consumes env settings w form limited read check grant' userId' origin' →
        grant' = grant := fun h => Option.some.inj (h.row.symm.trans hrow)
    obtain ⟨T, res, hconsume, ⟨hconsumed, rfl, hsame⟩ | ⟨hunconsumed, hres, hrow'⟩⟩ := consume_cases hrow hready
    · have hresult : consumeAndCreate env w form grant userId origin read.now draw = (T, w.devices, .invalidGrant) := by
        simp only [consumeAndCreate, hconsume]
      rw [hresult]
      refine iff_of_true (fun _ => ?_) ?_
      · rw [KeepsGrant, hsame]
      · intro grant' userId' origin' h
        exact absurd h.unconsumed (hunique h ▸ hconsumed)
    · have hall := hconsumes hunconsumed
      obtain ⟨r, rfl⟩ := Option.isSome_iff_exists.1 hres
      have hcreated : (createPairedDevice w.devices (newDevice env grant userId origin read.now draw)).isSome ↔
          ∀ grant' userId' origin', Consumes env settings w form limited read check grant' userId' origin' →
            NewDevice w.devices (newDevice env grant' userId' origin' read.now draw) ∧
              holders w.devices userId' grant'.deviceLabel < maxDeviceLabelAttempts := by
        rw [created_iff_holders]
        constructor
        · intro hnew grant' userId' origin' h
          obtain rfl := hunique h
          obtain rfl := Option.some.inj (h.ready.userId.symm.trans hready.userId)
          obtain rfl := Except.ok.inj (h.origin.symm.trans hall.origin)
          exact hnew
        · intro h
          exact h grant userId origin hall
      rw [← hcreated]
      cases hcreate : createPairedDevice w.devices (newDevice env grant userId origin read.now draw) with
      | some d =>
        have hresult : consumeAndCreate env w form grant userId origin read.now draw =
            (T, d.1, .token d.2 draw.refreshToken) := by
          simp only [consumeAndCreate, hconsume, hcreate, createdReply]
        rw [hresult]
        exact iff_of_true (by rintro ⟨⟩) rfl
      | none =>
        have hresult : consumeAndCreate env w form grant userId origin read.now draw =
            (T, w.devices, .http 409 (.lit "device_label_in_use")) := by
          simp only [consumeAndCreate, hconsume, hcreate, createdReply]
        rw [hresult]
        refine iff_of_false (fun h => ?_) (by simp)
        have hkept := h rfl
        rw [KeepsGrant, hrow, hrow', Option.map_some, Option.map_some, Option.some.injEq, Prod.mk.injEq] at hkept
        cases hkept.1.trans hready.status
  · rw [heq]
    refine iff_of_true (fun _ => rfl) ?_
    intro grant userId origin h
    exact absurd h (hnot grant userId origin)

/-! ## The steps of the machine -/

/-- Resume a request as long as there is something to resume. -/
def PairingWorld.alone (env : RefreshEnv) (settings : RuntimeSettings) (w : PairingWorld) (i : ℕ) :
    List Tick → PairingWorld
  | [] => w
  | tick :: ticks =>
    match (w.requests i).bind (w.resume env settings i tick) with
    | none => w
    | some r => r.1.alone env settings i ticks

/-- A request that is resumed alone comes to what a handler returns. -/
def PairingWorld.ComesTo (env : RefreshEnv) (settings : RuntimeSettings) (w : PairingWorld) (i : ℕ) (ticks : List Tick)
    (out : PairingGrants × PairedDevices × PairingReply) : Prop :=
  let w' := w.alone env settings i ticks
  w'.grants = out.1 ∧ w'.devices = out.2.1 ∧ w'.requests i = some (.done out.2.2)

variable {i : ℕ} {pc : PairingPc} {tick : Tick} {ticks : List Tick} {x : PairingWorld × GrantEffect}
  {out : PairingGrants × PairedDevices × PairingReply}

theorem PairingWorld.ComesTo.done (w : PairingWorld) (reply : PairingReply) :
    (w.goto i (.done reply)).ComesTo env settings i ticks (w.grants, w.devices, reply) := by
  cases ticks <;> simp [PairingWorld.ComesTo, PairingWorld.alone, PairingWorld.goto, PairingWorld.resume]

theorem PairingWorld.ComesTo.resume (h : x.1.ComesTo env settings i ticks out)
    (hstep : (w.goto i pc).resume env settings i tick pc = some x) :
    (w.goto i pc).ComesTo env settings i (tick :: ticks) out := by
  have hpc : (w.goto i pc).requests i = some pc := by simp
  simpa only [PairingWorld.ComesTo, PairingWorld.alone, hpc, Option.bind_some, hstep] using h

theorem pairing_goto_goto (w : PairingWorld) (i : ℕ) (pc pc' : PairingPc) : (w.goto i pc).goto i pc' = w.goto i pc' := by
  simp [PairingWorld.goto]

/-- **The loop over the labels.** -/
theorem comesTo_creating {attempt n : ℕ} {device : PairedDevice} {token : Text} (hlabel : device.label = grant.deviceLabel)
    (hsum : attempt + n = maxDeviceLabelAttempts + 1) (hpos : 0 < n) (hticks : n ≤ ticks.length) :
    (w.goto i (.creating form grant device token attempt)).ComesTo env settings i ticks
      (w.grants, createdReply w.devices token (tryLabels w.devices device attempt n)) := by
  induction n generalizing attempt ticks with
  | zero => exact absurd hpos (lt_irrefl 0)
  | succ n ih =>
    obtain ⟨tick, ticks, rfl⟩ := List.exists_cons_of_length_pos (hpos.trans_le hticks)
    rw [List.length_cons] at hticks
    have hdevices : ∀ pc, (w.goto i pc).devices = w.devices := fun _ => rfl
    cases hins : w.devices.insert { device with label := candidateLabel grant.deviceLabel attempt } with
    | some devices =>
      simp only [tryLabels, hlabel, hins]
      refine .resume ?_ (by simp [PairingWorld.resume, hdevices, hins]; rfl)
      exact .done { w.goto i _ with devices := devices } _
    | none =>
      simp only [tryLabels, hlabel, hins]
      by_cases hlast : attempt < maxDeviceLabelAttempts
      · refine .resume ?_ (by simp [PairingWorld.resume, hdevices, hins, hlast]; rfl)
        dsimp only
        rw [pairing_goto_goto]
        exact ih (by omega) (by omega) (by omega)
      · obtain rfl : n = 0 := by omega
        refine .resume ?_ (by simp [PairingWorld.resume, hdevices, hins, hlast]; rfl)
        exact .done (w.goto i _) _

/-- **The steps of a request that is alone come to the handler.** -/
theorem exchange_alone (env : RefreshEnv) (settings : RuntimeSettings) (w : PairingWorld) (i : ℕ)
    (form : PairingTokenForm) (limited : Bool) (read check draw : Tick) (hticks : maxDeviceLabelAttempts ≤ ticks.length) :
    (w.goto i ((PairingCall.exchange form limited).begin env settings)).ComesTo env settings i
      (read :: check :: draw :: ticks) (exchangePairingToken env settings w form limited read check draw) := by
  cases limited with
  | true => exact .done w .limited
  | false =>
    have hbegin : (PairingCall.exchange form false).begin env settings = .reading form := rfl
    rw [exchangePairingToken, hbegin]
    refine .resume ?_ rfl
    dsimp only
    rw [pairing_goto_goto]
    have hread : PairingGrants.row (w.goto i (.reading form)).grants form.grantId =
        PairingGrants.row w.grants form.grantId := rfl
    rw [hread]
    obtain ⟨grant, userId, -, -, hread⟩ | ⟨reply, hread, -⟩ :=
      afterReading_cases env form read.now (PairingGrants.row w.grants form.grantId)
    · rw [hread]
      refine .resume ?_ rfl
      dsimp only
      rw [pairing_goto_goto]
      obtain ⟨origin, -, -, hcheck⟩ | ⟨reply, hcheck, -⟩ :=
        afterChecking_cases env settings form grant userId read.now check.allowed
      · rw [hcheck]
        refine .resume ?_ rfl
        have hgrants : ∀ pc, (w.goto i pc).grants = w.grants := fun _ => rfl
        dsimp only [consumeAndCreate]
        rw [hgrants]
        rcases PairingGrants.consume w.grants grant.id (env.hashBrowserToken form.verifier) read.now with
          _ | ⟨T, _ | r⟩
        · exact .done (w.goto i _) .serverError
        · exact .done { w.goto i _ with grants := T } .invalidGrant
        · exact comesTo_creating rfl rfl (by decide) hticks
      · rw [hcheck]
        exact .done w reply
    · rw [hread]
      exact .done w reply

end

/-- A grant that ada has approved; five of her devices had its label, and were revoked. -/
def Sample.approvedWorld : Option PairingWorld := do
  let r ← (pairingMachine pairingEnv pairingSettings).exec (fun _ _ => True) .init (twoExchanges.take 7)
  let T ← labelMachine.exec (fun _ _ => True) noDevices (["a", "b", "c", "d", "e"].flatMap Sample.pairAndRevoke)
  return { r.2 with devices := T.2 }

/-- The exchange is answered without a token, and the grant is consumed. -/
theorem not_exchange_keeps : ¬∀ (env : RefreshEnv) (settings : RuntimeSettings) (w : PairingWorld)
    (form : PairingTokenForm) (limited : Bool) (read check draw : Tick),
    (exchangePairingToken env settings w form limited read check draw).2.2.isToken = false →
      KeepsGrant w.grants (exchangePairingToken env settings w form limited read check draw).1 form.grantId := by
  intro h
  have hlost : ∀ w ∈ Sample.approvedWorld,
      let res := exchangePairingToken pairingEnv pairingSettings w ⟨.lit "grant", .lit "AAAA-BBBB", .lit "verifier"⟩
        false (pairingTick 30 "f") (pairingTick 30 "f") (pairingTick 30 "f")
      res.2.2.isToken = false ∧ ¬((PairingGrants.row res.1 (.lit "grant")).map (fun r => (r.status, r.consumedAt)) =
        (PairingGrants.row w.grants (.lit "grant")).map fun r => (r.status, r.consumedAt)) := by
    decide +kernel
  have hsome : Sample.approvedWorld.isSome := by decide +kernel
  obtain ⟨w, hw⟩ := Option.isSome_iff_exists.1 hsome
  obtain ⟨htoken, hchanged⟩ := hlost w hw
  exact hchanged (h _ _ w _ _ _ _ _ htoken)

end TideBot
