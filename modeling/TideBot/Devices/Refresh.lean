/-
  `POST /token/refresh` (`routers/browser_extension.py`, `refresh_device_token`)
  as its database steps.

  The handler reads the device row (`get_active_by_id`), checks the server
  origin and the user's permission, compares the hash of the presented
  credential with the row *it read*, and only then issues one conditional
  `UPDATE`: a rotation if the hashes agree, a restoration if the credential is
  the one the row had rotated away from, a revocation of the token family
  otherwise.  A rotation or restoration that matches no row is followed by a
  revocation.  `Pc` is the position of a request between two of these steps,
  with the data it carries; the machine `refreshMachine` runs any number of
  requests, together with `revoke` and `rename` of devices by their users.

  Credential decoding, the keyed hash and the origin policy are parameters
  (`RefreshEnv`), as are the answers of the rate limiters and of the permission
  check, which an input carries.  `World.issued` holds the hashes of the
  credentials that exist: `create_refresh_credential` draws 256 random bits, so
  the hash of a new credential is not among them.
-/
import TideBot.Lib.Machine
import TideBot.Devices.Store

namespace TideBot

open Lib

/-- `ROTATION_GRACE_SECONDS`, in nanoseconds. -/
def rotationGrace : ℤ := 60 * 1000000000

/-- The fields of `BrowserExtensionRuntimeSettings` that the origin policy reads. -/
structure RuntimeSettings where
  customOriginsUnlocked : Bool
  environment : Text
  defaultOrigin : Text
  deriving DecidableEq

/-- `RefreshTokenForm` -/
structure RefreshTokenForm where
  refreshToken : Text
  origin : Text
  extensionVersion : Text
  deriving DecidableEq

/-- `RefreshCredentialIdentity` -/
structure RefreshCredentialIdentity where
  deviceId : Text
  tokenFamilyId : Text
  deriving DecidableEq

/-- How `decode_refresh_credential` fails: the handler catches only the first. -/
inductive DecodeError where
  | refreshCredentialError
  | unhandled
  deriving DecidableEq

/-- What the handler calls. -/
structure RefreshEnv where
  /-- `decode_refresh_credential` -/
  decodeRefreshCredential : Text → Except DecodeError RefreshCredentialIdentity
  /-- `hash_browser_token` under the server's secret key -/
  hashBrowserToken : Text → Text
  /-- `validate_server_origin`; the error is the text of the `ValueError` -/
  validateServerOrigin : RuntimeSettings → Text → Except Text Text

/-- The answer of the handler: a token response for a device and a refresh
    token, an `HTTPException`, or the answer to an unhandled exception. -/
inductive RefreshReply where
  | token (device : PairedDevice) (refreshToken : Text)
  | http (status : ℕ) (detail : Text)
  | serverError
  deriving DecidableEq

/-- `invalid_refresh_credential` -/
def RefreshReply.invalidCredential : RefreshReply := .http 401 (.lit "invalid_refresh_credential")

/-- Where a request stands: what it is about to do. -/
inductive Pc where
  /-- `get_active_by_id` -/
  | reading (form : RefreshTokenForm) (settings : RuntimeSettings) (who : RefreshCredentialIdentity)
  /-- `get_user_by_id` and `_require_browser_permission` -/
  | checking (form : RefreshTokenForm) (device : PairedDevice)
  /-- `rotate_refresh_token` -/
  | rotating (form : RefreshTokenForm) (device : PairedDevice)
  /-- `restore_rotated_refresh_token` -/
  | restoring (form : RefreshTokenForm) (device : PairedDevice)
  /-- `revoke_token_family`, then answer -/
  | revoking (tokenFamilyId : Text) (reply : RefreshReply)
  | done (reply : RefreshReply)
  deriving DecidableEq

/-- The state: the table, the requests, and the hashes of all credentials that
    were ever made. -/
structure World where
  devices : PairedDevices
  requests : ℕ → Option Pc
  issued : List Text

/-- One atomic step.  Requests are numbered; `clock` and `now` are readings of
    `time.time_ns()`. -/
inductive Act where
  | refresh (i : ℕ) (form : RefreshTokenForm) (settings : RuntimeSettings)
      (ipLimited deviceLimited : Bool)
  | read (i : ℕ)
  | check (i : ℕ) (allowed : Bool)
  | rotate (i : ℕ) (rotatedToken : Text) (now : ℤ)
  | restore (i : ℕ) (clock now : ℤ)
  | revokeFamily (i : ℕ) (now : ℤ)
  | revoke (deviceId userId : Text) (now : ℤ)
  | rename (deviceId userId label : Text) (now : ℤ)
  deriving DecidableEq

/-- A rotation or a restoration that matched its row: the device, the
    credential presented, and what the row's credential was replaced with. -/
structure Commit where
  deviceId : Text
  credential : Text
  /-- the new hash of a rotation; `none`: a restoration of the credential -/
  newHash : Option Text
  deriving DecidableEq

/-! ## The synchronous parts of the handler -/

section
variable (env : RefreshEnv)

/-- From the call to the first database step. -/
def refreshDeviceToken (form : RefreshTokenForm) (settings : RuntimeSettings)
    (ipLimited deviceLimited : Bool) : Pc :=
  if ipLimited then .done (.http 429 (.lit "rate_limited"))
  else match env.decodeRefreshCredential form.refreshToken with
    | .error .refreshCredentialError => .done .invalidCredential
    | .error .unhandled => .done .serverError
    | .ok who =>
      if deviceLimited then .done (.http 429 (.lit "rate_limited"))
      else .reading form settings who

/-- After `get_active_by_id`: the family, then the origin policy. -/
def afterRead (form : RefreshTokenForm) (settings : RuntimeSettings)
    (who : RefreshCredentialIdentity) : Option PairedDevice → Pc
  | none => .done .invalidCredential
  | some device =>
    if device.tokenFamilyId ≠ who.tokenFamilyId then .done .invalidCredential
    else match env.validateServerOrigin settings device.allowedOrigin with
      | .error _ =>
        .revoking device.tokenFamilyId (.http 403 (.lit "server_origin_policy_changed"))
      | .ok approvedOrigin =>
        match env.validateServerOrigin settings form.origin with
        | .error msg => .done (.http 403 msg)
        | .ok requestOrigin =>
          if approvedOrigin ≠ requestOrigin then .done (.http 403 (.lit "origin_mismatch"))
          else .checking form device

/-- After the permission check: choose the update by the row that was read. -/
def afterCheck (form : RefreshTokenForm) (device : PairedDevice) (allowed : Bool) : Pc :=
  let currentHash := env.hashBrowserToken form.refreshToken
  if !allowed then
    .revoking device.tokenFamilyId (.http 403 (.lit "browser_extension_not_allowed"))
  else if device.refreshTokenHash ≠ currentHash then
    if device.previousRefreshTokenHash.getD [] ≠ [] ∧
        device.previousRefreshTokenHash = some currentHash then .restoring form device
    else .revoking device.tokenFamilyId .invalidCredential
  else .rotating form device

/-- After `rotate_refresh_token` or `restore_rotated_refresh_token`. -/
def afterUpdate (device : PairedDevice) (token : Text) : Option PairedDevice → Pc
  | none => .revoking device.tokenFamilyId .invalidCredential
  | some row => .done (.token row token)

/-! ## The machine -/

/-- Move request `i` to `pc`. -/
def World.goto (w : World) (i : ℕ) (pc : Pc) : World :=
  { w with requests := Function.update w.requests i (some pc) }

/-- The commit recorded by an update that returned `row`. -/
def commitOf (form : RefreshTokenForm) (newHash : Option Text) :
    Option PairedDevice → Option Commit
  | none => none
  | some row => some ⟨row.id, form.refreshToken, newHash⟩

/-- One step; `none` if the named request is not at that step, if its number
    is taken, or if the new credential is not new. -/
def World.step (w : World) : Act → Option (World × Option Commit)
  | .refresh i form settings ipLimited deviceLimited =>
    match w.requests i with
    | none => some (w.goto i (refreshDeviceToken env form settings ipLimited deviceLimited), none)
    | some _ => none
  | .read i =>
    match w.requests i with
    | some (.reading form settings who) =>
      some (w.goto i (afterRead env form settings who
        (PairedDevices.getActiveById w.devices who.deviceId)), none)
    | _ => none
  | .check i allowed =>
    match w.requests i with
    | some (.checking form device) => some (w.goto i (afterCheck env form device allowed), none)
    | _ => none
  | .rotate i rotatedToken now =>
    match w.requests i with
    | some (.rotating form device) =>
      let newHash := env.hashBrowserToken rotatedToken
      if newHash ∈ w.issued then none
      else
        let w := { w with issued := newHash :: w.issued }
        match PairedDevices.rotateRefreshToken w.devices device.id device.tokenFamilyId
            (env.hashBrowserToken form.refreshToken) newHash (some form.extensionVersion) now with
        | none => some (w.goto i (.done .serverError), none)
        | some (T, row) =>
          some ({ w with devices := T }.goto i (afterUpdate device rotatedToken row),
            commitOf form (some newHash) row)
    | _ => none
  | .restore i clock now =>
    match w.requests i with
    | some (.restoring form device) =>
      match PairedDevices.restoreRotatedRefreshToken w.devices device.id device.tokenFamilyId
          (env.hashBrowserToken form.refreshToken) (clock - rotationGrace) now with
      | none => some (w.goto i (.done .serverError), none)
      | some (T, row) =>
        some ({ w with devices := T }.goto i (afterUpdate device form.refreshToken row),
          commitOf form none row)
    | _ => none
  | .revokeFamily i now =>
    match w.requests i with
    | some (.revoking tokenFamilyId reply) =>
      match PairedDevices.revokeTokenFamily w.devices tokenFamilyId now with
      | none => some (w.goto i (.done .serverError), none)
      | some (T, _) => some ({ w with devices := T }.goto i (.done reply), none)
    | _ => none
  | .revoke deviceId userId now =>
    match PairedDevices.revoke w.devices deviceId userId now with
    | none => some (w, none)
    | some (T, _) => some ({ w with devices := T }, none)
  | .rename deviceId userId label now =>
    match PairedDevices.rename w.devices deviceId userId label now with
    | none => some (w, none)
    | some (T, _) => some ({ w with devices := T }, none)

/-- The server's refresh endpoint with any number of requests in flight. -/
def refreshMachine : Machine World Act (Option Commit) := ⟨World.step env⟩

end

/-- The row of a device. -/
def World.device (w : World) (d : Text) : Option PairedDevice := PairedDevices.row w.devices d

/-- A starting state: no request yet; every hash in the table is the hash of
    an existing credential. -/
structure World.Initial (w : World) : Prop where
  idle : ∀ i, w.requests i = none
  known : ∀ d r, w.device d = some r →
    r.refreshTokenHash ∈ w.issued ∧ ∀ h ∈ r.previousRefreshTokenHash, h ∈ w.issued

/-! ## What one step does -/

/-- What a step does to the row of device `d`, with the commit it records:
    nothing, a rotation, a restoration, a revocation, or a renaming. -/
inductive RowStep (env : RefreshEnv) (w : World) (d : Text) :
    Act → Option PairedDevice → Option Commit → Prop
  | same {a c} : (∀ k ∈ c, k.deviceId ≠ d) → RowStep env w d a (w.device d) c
  | rotate {i token now r form device} :
      w.requests i = some (.rotating form device) → w.device d = some r → r.revokedAt = none →
      r.refreshTokenHash = env.hashBrowserToken form.refreshToken →
      env.hashBrowserToken token ∉ w.issued →
      RowStep env w d (.rotate i token now)
        (some (r.rotated (env.hashBrowserToken form.refreshToken) (env.hashBrowserToken token)
          (some form.extensionVersion) now))
        (some ⟨d, form.refreshToken, some (env.hashBrowserToken token)⟩)
  | restore {i clock now r form device t} :
      w.requests i = some (.restoring form device) → w.device d = some r → r.revokedAt = none →
      r.previousRefreshTokenHash = some (env.hashBrowserToken form.refreshToken) →
      r.rotatedAt = some t → clock - rotationGrace ≤ t →
      RowStep env w d (.restore i clock now)
        (some (r.restored (env.hashBrowserToken form.refreshToken) now))
        (some ⟨d, form.refreshToken, none⟩)
  | revoke {a r now} : w.device d = some r → r.revokedAt = none →
      RowStep env w d a (some (r.revoked now)) none
  | rename {a r label now} : w.device d = some r → r.revokedAt = none →
      RowStep env w d a (some (r.renamed label now)) none

section
variable {env : RefreshEnv} {w w' : World} {a : Act} {c : Option Commit}

@[simp] theorem World.device_goto (w : World) (i : ℕ) (pc : Pc) (d : Text) :
    (w.goto i pc).device d = w.device d := rfl

theorem rowStep_updateReturning {T : PairedDevices} {p : PairedDevice → Bool}
    {f : PairedDevice → PairedDevice} {e : Text} {form : RefreshTokenForm}
    {newHash : Option Text} {row : Option PairedDevice}
    (h : PairedDevices.updateReturning w.devices p f = some (T, row))
    (hf : ∀ r, (f r).id = r.id) (hp : ∀ r, p r → r.id = e)
    (hit : ∀ r, w.device e = some r → p r →
      RowStep env w e a (some (f r)) (some ⟨e, form.refreshToken, newHash⟩)) (d : Text) :
    RowStep env w d a (PairedDevices.row T d) (commitOf form newHash row) := by
  rcases PairedDevices.updateReturning_cases h hf hp with ⟨rfl, hT⟩ | ⟨r, hr, hpr, rfl, hrow, hT⟩
  · rw [hT d]; exact .same (by simp [commitOf])
  · have hid : (f r).id = e := (hf r).trans (hp r hpr)
    by_cases hd : d = e
    · subst hd
      rw [hrow, commitOf, hid]
      exact hit r hr hpr
    · rw [hT d hd]
      exact .same (by simp [commitOf, hid, Ne.symm hd])

theorem rowStep_update {d : Text} {T : PairedDevices} {p : PairedDevice → Bool} {f : PairedDevice → PairedDevice}
    {row : Option PairedDevice} (h : PairedDevices.updateReturning w.devices p f = some (T, row))
    (hf : ∀ r, (f r).id = r.id) (hit : ∀ r, w.device d = some r → p r → RowStep env w d a (some (f r)) none) :
    RowStep env w d a (PairedDevices.row T d) none := by
  rcases PairedDevices.row_update_cases h hf d with hT | ⟨r, hr, hp, hT⟩
  · rw [hT]
    exact .same (by simp)
  · rw [hT]
    exact hit r hr hp

/-- **What a step does to a row.** -/
theorem rowStep_of_step (h : World.step env w a = some (w', c)) (d : Text) :
    RowStep env w d a (w'.device d) c := by
  cases a with
  | refresh | read | check =>
    simp only [World.step] at h
    split at h
    · obtain ⟨rfl, rfl⟩ := Prod.mk.inj (Option.some.inj h); exact .same (by simp)
    · cases h
  | rotate i token now =>
    simp only [World.step] at h
    split at h
    · rename_i form device hpc
      split_ifs at h with hfresh
      split at h
      · obtain ⟨rfl, rfl⟩ := Prod.mk.inj (Option.some.inj h); exact .same (by simp)
      · rename_i T row hu
        obtain ⟨rfl, rfl⟩ := Prod.mk.inj (Option.some.inj h)
        refine rowStep_updateReturning (e := device.id) hu (fun _ => rfl) ?_ ?_ d
        · intro r hr
          simp only [PairedDevice.rotatable, decide_eq_true_eq] at hr
          exact hr.1
        · intro r hr hp
          simp only [PairedDevice.rotatable, decide_eq_true_eq] at hp
          exact .rotate hpc hr hp.2.2.2 hp.2.2.1 hfresh
    · cases h
  | restore i clock now =>
    simp only [World.step] at h
    split at h
    · rename_i form device hpc
      split at h
      · obtain ⟨rfl, rfl⟩ := Prod.mk.inj (Option.some.inj h); exact .same (by simp)
      · rename_i T row hu
        obtain ⟨rfl, rfl⟩ := Prod.mk.inj (Option.some.inj h)
        refine rowStep_updateReturning (e := device.id) hu (fun _ => rfl) ?_ ?_ d
        · intro r hr
          simp only [PairedDevice.restorable, decide_eq_true_eq] at hr
          exact hr.1
        · intro r hr hp
          simp only [PairedDevice.restorable, decide_eq_true_eq] at hp
          obtain ⟨-, -, hprev, ⟨t, ht, hle⟩, hrev⟩ := hp
          exact .restore hpc hr hrev hprev ht hle
    · cases h
  | revokeFamily i now =>
    simp only [World.step] at h
    split at h
    · rename_i family reply hpc
      split at h
      · obtain ⟨rfl, rfl⟩ := Prod.mk.inj (Option.some.inj h); exact .same (by simp)
      · rename_i T row hu
        obtain ⟨rfl, rfl⟩ := Prod.mk.inj (Option.some.inj h)
        exact rowStep_update hu (fun _ => rfl) fun r hr hp => .revoke hr (by simpa using (of_decide_eq_true hp).2)
    · cases h
  | revoke deviceId userId now =>
    simp only [World.step] at h
    split at h
    · obtain ⟨rfl, rfl⟩ := Prod.mk.inj (Option.some.inj h); exact .same (by simp)
    · rename_i T row hu
      obtain ⟨rfl, rfl⟩ := Prod.mk.inj (Option.some.inj h)
      exact rowStep_update hu (fun _ => rfl) fun r hr hp => .revoke hr (by simpa using (of_decide_eq_true hp).2.2)
  | rename deviceId userId label now =>
    simp only [World.step] at h
    split at h
    · obtain ⟨rfl, rfl⟩ := Prod.mk.inj (Option.some.inj h); exact .same (by simp)
    · rename_i T row hu
      obtain ⟨rfl, rfl⟩ := Prod.mk.inj (Option.some.inj h)
      exact rowStep_update hu (fun _ => rfl) fun r hr hp => .rename hr (by simpa using (of_decide_eq_true hp).2.2)

/-- A rotation that committed. -/
structure Rotates (env : RefreshEnv) (w w' : World) (k : Commit) (i : ℕ) (token : Text) (now : ℤ)
    (r : PairedDevice) : Prop where
  request : ∃ form device, w.requests i = some (.rotating form device) ∧
    k.credential = form.refreshToken ∧
    w'.device k.deviceId = some (r.rotated (env.hashBrowserToken k.credential)
      (env.hashBrowserToken token) (some form.extensionVersion) now)
  row : w.device k.deviceId = some r
  active : r.revokedAt = none
  current : r.refreshTokenHash = env.hashBrowserToken k.credential
  fresh : env.hashBrowserToken token ∉ w.issued
  newHash : k.newHash = some (env.hashBrowserToken token)

/-- A restoration that committed. -/
structure Restores (env : RefreshEnv) (w w' : World) (k : Commit) (i : ℕ) (clock now : ℤ)
    (r : PairedDevice) : Prop where
  request : ∃ form device, w.requests i = some (.restoring form device) ∧
    k.credential = form.refreshToken
  row : w.device k.deviceId = some r
  active : r.revokedAt = none
  previous : r.previousRefreshTokenHash = some (env.hashBrowserToken k.credential)
  recent : ∃ t, r.rotatedAt = some t ∧ clock - rotationGrace ≤ t
  newHash : k.newHash = none
  row' : w'.device k.deviceId = some (r.restored (env.hashBrowserToken k.credential) now)

/-- **A step that commits is a rotation or a restoration.** -/
theorem commit_cases {k : Commit} (h : World.step env w a = some (w', some k)) :
    (∃ i token now r, a = .rotate i token now ∧ Rotates env w w' k i token now r) ∨
      ∃ i clock now r, a = .restore i clock now ∧ Restores env w w' k i clock now r := by
  obtain ⟨d, credential, newHash⟩ := k
  have hs := rowStep_of_step h d
  generalize hrow : w'.device d = row at hs
  generalize hc : some (⟨d, credential, newHash⟩ : Commit) = c at hs
  cases hs with
  | same hne => exact absurd rfl (hne ⟨d, credential, newHash⟩ (hc ▸ rfl))
  | rotate hpc hr hn hcur hfresh =>
    cases hc
    exact Or.inl ⟨_, _, _, _, rfl, ⟨_, _, hpc, rfl, hrow⟩, hr, hn, hcur, hfresh, rfl⟩
  | restore hpc hr hn hprev ht hle =>
    cases hc
    exact Or.inr ⟨_, _, _, _, rfl, ⟨_, _, hpc, rfl⟩, hr, hn, hprev, ⟨_, ht, hle⟩, rfl, hrow⟩
  | revoke | rename => cases hc

theorem hashes_of_step (h : World.step env w a = some (w', c)) {d : Text}
    (hc : ∀ k ∈ c, k.deviceId ≠ d) :
    (w'.device d).map (fun r => (r.previousRefreshTokenHash, r.refreshTokenHash)) =
      (w.device d).map fun r => (r.previousRefreshTokenHash, r.refreshTokenHash) := by
  have hs := rowStep_of_step h d
  generalize w'.device d = row at hs
  cases hs with
  | same => rfl
  | rotate | restore => exact absurd rfl (hc _ rfl)
  | revoke hr | rename hr => rw [hr]; rfl

/-- The form a request still carries. -/
def Pc.form : Pc → Option RefreshTokenForm
  | .reading form _ _ | .checking form _ | .rotating form _ | .restoring form _ => some form
  | .revoking _ _ | .done _ => none

/-- The forms of the requests in flight after a step: those before it, and
    that of a request that just arrived. -/
def FormsFrom (w w' : World) (a : Act) : Prop :=
  ∀ i pc form, w'.requests i = some pc → pc.form = some form →
    (∃ pc₀, w.requests i = some pc₀ ∧ pc₀.form = some form) ∨
      ∃ settings b b', a = .refresh i form settings b b'

theorem formsFrom_goto {T : PairedDevices} {iss : List Text} {i : ℕ} {pc : Pc}
    (h : ∀ form, pc.form = some form → (∃ pc₀, w.requests i = some pc₀ ∧ pc₀.form = some form) ∨
      ∃ settings b b', a = .refresh i form settings b b') :
    FormsFrom w (World.goto ⟨T, w.requests, iss⟩ i pc) a := by
  intro j pc' form hj hform
  simp only [World.goto, Function.update_apply] at hj
  split_ifs at hj with hji
  · subst hji; cases hj; exact h form hform
  · exact Or.inl ⟨pc', hj, hform⟩

theorem refreshDeviceToken_form {form form' : RefreshTokenForm} {settings : RuntimeSettings}
    {b b' : Bool} (h : (refreshDeviceToken env form settings b b').form = some form') :
    form = form' := by
  unfold refreshDeviceToken at h
  split at h
  · cases h
  · split at h
    · cases h
    · cases h
    · split at h <;> cases h; rfl

theorem afterRead_form {form form' : RefreshTokenForm} {settings : RuntimeSettings}
    {who : RefreshCredentialIdentity} {r : Option PairedDevice}
    (h : (afterRead env form settings who r).form = some form') : form = form' := by
  unfold afterRead at h
  split at h
  · cases h
  · split at h
    · cases h
    · split at h
      · cases h
      · split at h
        · cases h
        · split at h <;> cases h; rfl

theorem afterCheck_form {form form' : RefreshTokenForm} {device : PairedDevice} {allowed : Bool}
    (h : (afterCheck env form device allowed).form = some form') : form = form' := by
  simp only [afterCheck] at h
  split_ifs at h <;> cases h <;> rfl

theorem afterUpdate_form (device : PairedDevice) (token : Text) (r : Option PairedDevice) :
    (afterUpdate device token r).form = none := by
  cases r <;> rfl

theorem formsFrom_of_step (h : World.step env w a = some (w', c)) : FormsFrom w w' a := by
  cases a with
  | refresh i form settings b b' =>
    simp only [World.step] at h
    split at h <;> cases h
    exact formsFrom_goto fun form' hf => Or.inr ⟨settings, b, b', by rw [refreshDeviceToken_form hf]⟩
  | read i =>
    simp only [World.step] at h
    split at h <;> cases h
    rename_i form settings who hpc
    exact formsFrom_goto fun form' hf => Or.inl ⟨_, hpc, by rw [← afterRead_form hf]; rfl⟩
  | check i allowed =>
    simp only [World.step] at h
    split at h <;> cases h
    rename_i form device hpc
    exact formsFrom_goto fun form' hf => Or.inl ⟨_, hpc, by rw [← afterCheck_form hf]; rfl⟩
  | rotate i token now =>
    simp only [World.step] at h
    split at h
    · split_ifs at h
      split at h <;> cases h
      · exact formsFrom_goto fun form' hf => by cases hf
      · exact formsFrom_goto fun form' hf => by rw [afterUpdate_form] at hf; cases hf
    · cases h
  | restore i clock now =>
    simp only [World.step] at h
    split at h
    · split at h <;> cases h
      · exact formsFrom_goto fun form' hf => by cases hf
      · exact formsFrom_goto fun form' hf => by rw [afterUpdate_form] at hf; cases hf
    · cases h
  | revokeFamily i now =>
    simp only [World.step] at h
    split at h
    · split at h <;> cases h <;> exact formsFrom_goto fun form' hf => by cases hf
    · cases h
  | revoke deviceId userId now =>
    simp only [World.step] at h
    split at h <;> cases h <;> exact fun i pc form hi hf => Or.inl ⟨pc, hi, hf⟩
  | rename deviceId userId label now =>
    simp only [World.step] at h
    split at h <;> cases h <;> exact fun i pc form hi hf => Or.inl ⟨pc, hi, hf⟩

theorem issued_of_step (h : World.step env w a = some (w', c)) :
    w'.issued = w.issued ∨ ∃ i token now, a = .rotate i token now ∧
      w'.issued = env.hashBrowserToken token :: w.issued := by
  cases a with
  | rotate i token now =>
    simp only [World.step] at h
    split at h
    · split_ifs at h
      split at h <;> cases h <;> exact Or.inr ⟨i, token, now, rfl, rfl⟩
    · cases h
  | _ =>
    simp only [World.step] at h
    repeat' split at h
    all_goals first | cases h; exact Or.inl rfl | cases h

end

/-! ## A small instance

One device, whose credentials are `c0`, `c1`, ... -/

namespace Sample

/-- Every credential is one of device `d` and family `f`; hashing is
    injective; only the default origin is approved. -/
def env : RefreshEnv where
  decodeRefreshCredential _ := .ok ⟨.lit "d", .lit "f"⟩
  hashBrowserToken token := .lit "h:" ++ token
  validateServerOrigin settings origin :=
    if origin = settings.defaultOrigin then .ok origin
    else .error (.lit "Custom server origin is locked by the Tide-Bot administrator")

def settings : RuntimeSettings := ⟨false, .lit "prod", .lit "https://tide-bot.com"⟩

def form (credential : String) : RefreshTokenForm :=
  ⟨.lit credential, .lit "https://tide-bot.com", .lit "1.0.0"⟩

def row : PairedDevice where
  id := .lit "d"
  userId := .lit "u"
  label := .lit "laptop"
  refreshTokenHash := .lit "h:c0"
  previousRefreshTokenHash := none
  rotatedAt := none
  tokenFamilyId := .lit "f"
  allowedOrigin := .lit "https://tide-bot.com"
  extensionVersion := .lit "1.0.0"
  lastSeenAt := none
  revokedAt := none
  createdAt := 0
  updatedAt := 0

def world : World := ⟨⟨[row], by decide⟩, fun _ => none, [.lit "h:c0"]⟩

theorem world_initial : world.Initial where
  idle _ := rfl
  known d r h := by
    obtain rfl : r = row := by
      simpa [world, World.device, PairedDevices.row] using Table.find_mem _ h
    decide

/-- The steps of request `i`, alone, that rotates `credential` to `token`. -/
def rotation (i : ℕ) (credential token : String) (now : ℤ) : List Act :=
  [.refresh i (form credential) settings false false, .read i, .check i true,
    .rotate i (.lit token) now]

/-- The steps of request `i`, alone, that restores `credential`. -/
def restoration (i : ℕ) (credential : String) (now : ℤ) : List Act :=
  [.refresh i (form credential) settings false false, .read i, .check i true, .restore i now now]

end Sample

end TideBot
