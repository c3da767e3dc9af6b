/-
  Pairing (`routers/browser_extension.py`: `start_pairing`, `approve_pairing`,
  `exchange_pairing_token`) as its database steps, over the table `browser_pairing_grant`.

  A grant is started by the extension, approved or denied by a user, and exchanged for a
  device.  `approve_pairing` and `exchange_pairing_token` read the row, read the clock, check
  what they have read, and issue one conditional `UPDATE`; an exchange whose `UPDATE` has
  matched inserts a device, under the next label whenever an insertion fails.

  A request is called, and resumed at each of its steps with what the environment decides
  there (`Tick`): the clock, the answer of `_require_browser_permission`, and what is drawn at
  random.
-/
import TideBot.Lib.JsonText
import TideBot.Devices.Refresh

namespace TideBot

open Lib

/-! ## The table -/

/-- The values of `status`. -/
inductive GrantStatus where
  | pending
  | approved
  | denied
  | consumed
  deriving DecidableEq

/-- A row of `browser_pairing_grant` (`BrowserPairingGrant`). -/
structure PairingGrant where
  id : Text
  userId : Option Text
  deviceCodeHash : Text
  verifierHash : Text
  requestedOrigin : Text
  deviceLabel : Text
  extensionVersion : Text
  status : GrantStatus
  expiresAt : ℤ
  consumedAt : Option ℤ
  createdAt : ℤ
  deriving DecidableEq

/-- The primary key, and the unique hashes. -/
def GrantConstraints (rows : List PairingGrant) : Prop :=
  (rows.map PairingGrant.id).Nodup ∧ (rows.map PairingGrant.deviceCodeHash).Nodup ∧
    (rows.map PairingGrant.verifierHash).Nodup

instance : DecidablePred GrantConstraints := fun rows =>
  inferInstanceAs (Decidable ((rows.map PairingGrant.id).Nodup ∧
    (rows.map PairingGrant.deviceCodeHash).Nodup ∧ (rows.map PairingGrant.verifierHash).Nodup))

/-- The table `browser_pairing_grant`. -/
abbrev PairingGrants := Table PairingGrant GrantConstraints

namespace PairingGrants

variable (T : PairingGrants)

/-- `get_by_id` -/
def row (id : Text) : Option PairingGrant := T.find PairingGrant.id id

/-- A conditional `UPDATE` of one row, with the row it returns. -/
def updateReturning (p : PairingGrant → Bool) (f : PairingGrant → PairingGrant) :
    Option (PairingGrants × Option PairingGrant) :=
  (T.update p f).map fun res => (res.1, res.2.head?)

/-- `approve` -/
def approve (grantId userId : Text) (now : ℤ) : Option (PairingGrants × Option PairingGrant) :=
  updateReturning T
    (fun r => r.id = grantId && r.status = .pending && r.userId.isNone && now < r.expiresAt)
    fun r => { r with userId := some userId, status := .approved }

/-- `deny` -/
def deny (grantId : Text) (now : ℤ) : Option (PairingGrants × Option PairingGrant) :=
  updateReturning T (fun r => r.id = grantId && r.status = .pending && now < r.expiresAt)
    fun r => { r with status := .denied }

/-- `consume` -/
def consume (grantId verifierHash : Text) (now : ℤ) : Option (PairingGrants × Option PairingGrant) :=
  updateReturning T
    (fun r => r.id = grantId && r.verifierHash = verifierHash && r.status = .approved &&
      r.consumedAt.isNone && now < r.expiresAt)
    fun r => { r with status := .consumed, consumedAt := some now }

variable {T} {T' : PairingGrants} {p : PairingGrant → Bool} {f : PairingGrant → PairingGrant}
  {id : Text}

theorem row_id {r : PairingGrant} (h : row T id = some r) : r.id = id := Table.find_key _ h

/-- **An update of the row of an id** matches nothing and leaves the table, or changes that row
    and returns it; it does not raise if it leaves the unique columns. -/
theorem update_cases (hp : ∀ r, p r → r.id = id)
    (hf : ∀ r, (f r).id = r.id ∧ (f r).deviceCodeHash = r.deviceCodeHash ∧
      (f r).verifierHash = r.verifierHash) :
    ∃ T' res, updateReturning T p f = some (T', res) ∧
      ((res = none ∧ ∀ k, row T' k = row T k) ∨ ∃ r, row T id = some r ∧ p r ∧ res = some (f r) ∧
        row T' id = some (f r) ∧ ∀ k, k ≠ id → row T' k = row T k) := by
  have hok : GrantConstraints (Table.updated p f T.rows) := by
    have hmap : ∀ {β : Type} (g : PairingGrant → β), (∀ r, g (f r) = g r) →
        (Table.updated p f T.rows).map g = T.rows.map g := fun g hg => Table.map_updated g hg _
    unfold GrantConstraints
    rw [hmap _ fun r => (hf r).1, hmap _ fun r => (hf r).2.1, hmap _ fun r => (hf r).2.2]
    exact T.ok
  have hupd : T.update p f = some (⟨_, hok⟩, (T.rows.filter p).map f) := dif_pos hok
  refine ⟨_, _, congrArg _ hupd, ?_⟩
  have hrow : ∀ k, row ⟨_, hok⟩ k = (row T k).map fun r => if p r then f r else r :=
    Table.find_update PairingGrant.id (fun r => (hf r).1) hupd
  have hret : ((T.rows.filter p).map f).head? = ((row T id).filter p).map f :=
    Table.returned_update PairingGrant.id T.ok.1 hp hupd
  have hsame : ∀ {k}, (∀ r, row T k = some r → ¬ p r) → row ⟨_, hok⟩ k = row T k := by
    intro k hk
    rw [hrow k]
    cases hr : row T k with
    | none => rfl
    | some r => simp [hk r hr]
  by_cases hmatch : ∃ r, row T id = some r ∧ p r
  · obtain ⟨r, hr, hpr⟩ := hmatch
    refine .inr ⟨r, hr, hpr, ?_, ?_, ?_⟩
    · rw [hret, hr]
      simp [Option.filter, hpr]
    · rw [hrow id, hr]
      simp [hpr]
    · intro k hk
      exact hsame fun r' hr' hp' => hk ((row_id hr').symm.trans (hp r' hp'))
  · refine .inl ⟨?_, ?_⟩
    · rw [hret]
      cases hr : row T id with
      | none => rfl
      | some r =>
        have hpr : p r = false := Bool.eq_false_iff.2 fun hpr => hmatch ⟨r, hr, hpr⟩
        simp [Option.filter, hpr]
    · intro k
      refine hsame fun r hr hpr => hmatch ⟨r, ?_, hpr⟩
      rw [← (row_id hr).symm.trans (hp r hpr)]
      exact hr

end PairingGrants

/-! ## Requests -/

/-- `PairingStartForm` -/
structure PairingStartForm where
  deviceLabel : Text
  origin : Text
  extensionVersion : Text

/-- `PairingApprovalForm` -/
structure PairingApprovalForm where
  deviceCode : Text
  approved : Bool

/-- `PairingTokenForm` -/
structure PairingTokenForm where
  grantId : Text
  deviceCode : Text
  verifier : Text
  deriving DecidableEq

/-- `PairingSecrets` -/
structure PairingSecrets where
  deviceCode : Text
  verifier : Text
  deriving DecidableEq

/-- The requests, with the answers of the rate limiters. -/
inductive PairingCall where
  | start (form : PairingStartForm) (limited : Bool)
  | approve (userId grantId : Text) (form : PairingApprovalForm) (limited : Bool)
  | exchange (form : PairingTokenForm) (limited : Bool)

/-- What the environment decides at a step. -/
structure Tick where
  now : ℤ
  allowed : Bool
  grantId : Text
  secrets : PairingSecrets
  deviceId : Text
  tokenFamilyId : Text
  refreshToken : Text

/-- The answer: what a start returns, a status, a token response, an `HTTPException`, or the
    answer to an unhandled exception. -/
inductive PairingReply where
  | started (grantId : Text) (secrets : PairingSecrets) (verificationUri : Text)
  | status (text : String)
  | token (device : PairedDevice) (refreshToken : Text)
  | http (status : ℕ) (detail : Text)
  | serverError

/-- Where a request stands: what it is about to do. -/
inductive PairingPc where
  /-- `create_pairing_secrets` and the clock -/
  | starting (form : PairingStartForm) (origin : Text)
  /-- `BrowserPairingGrants.insert` -/
  | inserting (grant : PairingGrant) (secrets : PairingSecrets)
  /-- `get_by_id` of an approval -/
  | reviewing (userId grantId : Text) (form : PairingApprovalForm)
  /-- `_require_browser_permission` of an approval -/
  | permitting (userId : Text) (grant : PairingGrant) (now : ℤ)
  | approving (userId grantId : Text) (now : ℤ)
  | denying (grantId : Text) (now : ℤ)
  /-- `get_by_id` of an exchange -/
  | reading (form : PairingTokenForm)
  /-- `get_user_by_id` and `_require_browser_permission` of an exchange -/
  | checking (form : PairingTokenForm) (grant : PairingGrant) (userId : Text) (now : ℤ)
  | consuming (form : PairingTokenForm) (grant : PairingGrant) (userId origin : Text) (now : ℤ)
  /-- `BrowserPairedDevices.insert`, at this attempt -/
  | creating (form : PairingTokenForm) (grant : PairingGrant) (device : PairedDevice)
      (refreshToken : Text) (attempt : ℕ)
  | done (reply : PairingReply)

namespace PairingReply

def limited : PairingReply := .http 429 (.lit "rate_limited")

def notFound : PairingReply := .http 404 (.lit "pairing_grant_not_found")

def expired : PairingReply := .http 410 (.lit "expired_token")

def invalidGrant : PairingReply := .http 401 (.lit "invalid_grant")

def notAllowed : PairingReply := .http 403 (.lit "browser_extension_not_allowed")

def stateChanged : PairingReply := .http 409 (.lit "pairing_state_changed")

end PairingReply

/-- `PAIRING_TTL_SECONDS`, in nanoseconds. -/
def pairingTtl : ℤ := 300 * 1000000000

/-- `MAX_DEVICE_LABEL_ATTEMPTS` -/
def maxDeviceLabelAttempts : ℕ := 5

/-- The label of an attempt. -/
def candidateLabel (label : Text) (attempt : ℕ) : Text :=
  if attempt = 1 then label else label ++ .lit " (" ++ Json.intText attempt ++ .lit ")"

section
variable (env : RefreshEnv) (settings : RuntimeSettings)

/-! ## The synchronous parts of the handlers -/

/-- `_secret_matches` -/
def secretMatches (storedHash supplied : Text) : Bool := storedHash = env.hashBrowserToken supplied

/-- From the call to the first step. -/
def PairingCall.begin : PairingCall → PairingPc
  | .start form limited =>
    if limited then .done .limited
    else match env.validateServerOrigin settings form.origin with
      | .error msg => .done (.http 403 msg)
      | .ok origin => .starting form origin
  | .approve userId grantId form limited =>
    if limited then .done .limited else .reviewing userId grantId form
  | .exchange form limited => if limited then .done .limited else .reading form

/-- The row of a new grant. -/
def newGrant (form : PairingStartForm) (origin : Text) (tick : Tick) : PairingGrant where
  id := tick.grantId
  userId := none
  deviceCodeHash := env.hashBrowserToken tick.secrets.deviceCode
  verifierHash := env.hashBrowserToken tick.secrets.verifier
  requestedOrigin := origin
  deviceLabel := form.deviceLabel
  extensionVersion := form.extensionVersion
  status := .pending
  expiresAt := tick.now + pairingTtl
  consumedAt := none
  createdAt := tick.now

/-- `approve_pairing`, after it has read the row and the clock. -/
def afterReview (userId grantId : Text) (form : PairingApprovalForm) (now : ℤ) :
    Option PairingGrant → PairingPc
  | none => .done .notFound
  | some grant =>
    if grant.status ≠ .pending then .done .notFound
    else if grant.expiresAt ≤ now then .done .expired
    else if !secretMatches env grant.deviceCodeHash form.deviceCode then .done .notFound
    else if form.approved then .permitting userId grant now
    else .denying grantId now

/-- `approve_pairing`, after the permission check. -/
def afterPermit (userId : Text) (grant : PairingGrant) (now : ℤ) (allowed : Bool) : PairingPc :=
  if !allowed then .done .notAllowed
  else match env.validateServerOrigin settings grant.requestedOrigin with
    | .error msg => .done (.http 403 msg)
    | .ok _ => .approving userId grant.id now

/-- `exchange_pairing_token`, after it has read the row and the clock. -/
def afterReading (form : PairingTokenForm) (now : ℤ) : Option PairingGrant → PairingPc
  | none => .done .invalidGrant
  | some grant =>
    if !(secretMatches env grant.deviceCodeHash form.deviceCode &&
        secretMatches env grant.verifierHash form.verifier) then .done .invalidGrant
    else if grant.expiresAt ≤ now then .done .expired
    else if grant.status = .pending then .done (.http 428 (.lit "authorization_pending"))
    else if grant.status = .denied then .done (.http 403 (.lit "access_denied"))
    else match grant.userId with
      | none => .done .invalidGrant
      | some userId =>
        if grant.status ≠ .approved then .done .invalidGrant else .checking form grant userId now

/-- `exchange_pairing_token`, after the permission check. -/
def afterChecking (form : PairingTokenForm) (grant : PairingGrant) (userId : Text) (now : ℤ)
    (allowed : Bool) : PairingPc :=
  if !allowed then .done .notAllowed
  else match env.validateServerOrigin settings grant.requestedOrigin with
    | .error msg => .done (.http 403 msg)
    | .ok origin => .consuming form grant userId origin now

/-- `_create_paired_device`, up to its loop; the label is that of the first attempt. -/
def newDevice (grant : PairingGrant) (userId origin : Text) (now : ℤ) (tick : Tick) : PairedDevice where
  id := tick.deviceId
  userId := userId
  label := grant.deviceLabel
  refreshTokenHash := env.hashBrowserToken tick.refreshToken
  previousRefreshTokenHash := none
  rotatedAt := none
  tokenFamilyId := tick.tokenFamilyId
  allowedOrigin := origin
  extensionVersion := grant.extensionVersion
  lastSeenAt := some now
  revokedAt := none
  createdAt := now
  updatedAt := now

/-! ## The machine -/

/-- The two tables, and the requests. -/
structure PairingWorld where
  grants : PairingGrants
  devices : PairedDevices
  requests : ℕ → Option PairingPc

def PairingWorld.init : PairingWorld where
  grants := ⟨[], by simp [GrantConstraints]⟩
  devices := ⟨[], by simp [DeviceConstraints]⟩
  requests _ := none

/-- What has become of a grant. -/
inductive GrantEffect where
  | quiet
  | started (grantId : Text) (secrets : PairingSecrets)
  | approved (grantId userId : Text)
  | denied (grantId : Text)
  | consumed (grantId : Text) (request : ℕ)
  | created (grantId : Text) (form : PairingTokenForm) (device : PairedDevice)

inductive PairingAct where
  | call (i : ℕ) (call : PairingCall)
  | resume (i : ℕ) (tick : Tick)

/-- Move request `i` to `pc`. -/
def PairingWorld.goto (w : PairingWorld) (i : ℕ) (pc : PairingPc) : PairingWorld :=
  { w with requests := Function.update w.requests i (some pc) }

/-- After an `UPDATE` of the grants: what to do if it has matched, else. -/
def PairingWorld.afterUpdate (w : PairingWorld) (i : ℕ) (matched unmatched : PairingPc) (x : GrantEffect) :
    Option (PairingGrants × Option PairingGrant) → PairingWorld × GrantEffect
  | none => (w.goto i (.done .serverError), .quiet)
  | some (T, none) => ({ w with grants := T }.goto i unmatched, .quiet)
  | some (T, some _) => ({ w with grants := T }.goto i matched, x)

/-- The next step of a request. -/
def PairingWorld.resume (w : PairingWorld) (i : ℕ) (tick : Tick) :
    PairingPc → Option (PairingWorld × GrantEffect)
  | .starting form origin =>
    some (w.goto i (.inserting (newGrant env form origin tick) tick.secrets), .quiet)
  | .inserting grant secrets =>
    match w.grants.insert grant with
    | none => some (w.goto i (.done .serverError), .quiet)
    | some T => some ({ w with grants := T }.goto i (.done (.started grant.id secrets
        (grant.requestedOrigin ++ Text.lit "/browser-extension/pair?grant_id=" ++ grant.id))),
        .started grant.id secrets)
  | .reviewing userId grantId form =>
    some (w.goto i (afterReview env userId grantId form tick.now (PairingGrants.row w.grants grantId)), .quiet)
  | .permitting userId grant now =>
    some (w.goto i (afterPermit env settings userId grant now tick.allowed), .quiet)
  | .approving userId grantId now =>
    some (w.afterUpdate i (.done (.status "approved")) (.done .stateChanged) (.approved grantId userId)
      (PairingGrants.approve w.grants grantId userId now))
  | .denying grantId now =>
    some (w.afterUpdate i (.done (.status "denied")) (.done .stateChanged) (.denied grantId)
      (PairingGrants.deny w.grants grantId now))
  | .reading form =>
    some (w.goto i (afterReading env form tick.now (PairingGrants.row w.grants form.grantId)), .quiet)
  | .checking form grant userId now =>
    some (w.goto i (afterChecking env settings form grant userId now tick.allowed), .quiet)
  | .consuming form grant userId origin now =>
    some (w.afterUpdate i
      (.creating form grant (newDevice env grant userId origin now tick) tick.refreshToken 1)
      (.done .invalidGrant) (.consumed grant.id i)
      (PairingGrants.consume w.grants grant.id (env.hashBrowserToken form.verifier) now))
  | .creating form grant device refreshToken attempt =>
    let candidate := { device with label := candidateLabel grant.deviceLabel attempt }
    match w.devices.insert candidate with
    | some T => some ({ w with devices := T }.goto i (.done (.token candidate refreshToken)),
        .created grant.id form candidate)
    | none =>
      if attempt < maxDeviceLabelAttempts then
        some (w.goto i (.creating form grant device refreshToken (attempt + 1)), .quiet)
      else some (w.goto i (.done (.http 409 (.lit "device_label_in_use"))), .quiet)
  | .done _ => none

/-- One step; `none` if the number of a call is taken, or there is nothing to resume. -/
def PairingWorld.step (w : PairingWorld) : PairingAct → Option (PairingWorld × GrantEffect)
  | .call i call =>
    match w.requests i with
    | none => some (w.goto i (call.begin env settings), .quiet)
    | some _ => none
  | .resume i tick => (w.requests i).bind (w.resume env settings i tick)

/-- The pairing endpoints with any number of requests in flight. -/
def pairingMachine : Machine PairingWorld PairingAct GrantEffect := ⟨PairingWorld.step env settings⟩

end

end TideBot
