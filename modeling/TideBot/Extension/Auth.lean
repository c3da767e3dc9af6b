/-
  The credential of the extension (`background/auth.ts`, `BrowserAuth`).

  The service worker keeps the credential in memory and in `chrome.storage.local`.  Any number
  of calls may be in flight: a call runs up to its next `await`, and is resumed there with what
  the environment answers (`AuthTick`).  An operation on the storage takes effect at a time of
  its own (`AuthAct.effect`), between the call that asks for it and the resumption.

  `refresh` is shared: whoever calls it while `refreshPromise` is set waits for that promise,
  which is named by the call that performs the refresh.

  Of the server it is said only which refresh tokens it has issued: a response brings a new one,
  or the one that was presented.
-/
import TideBot.Lib.JsonText
import TideBot.Lib.Machine
import TideBot.Broker.State
import TideBot.Extension.Dom

namespace TideBot

open Lib

/-! ## Values -/

/-- A string that is not empty. -/
abbrev Str := {t : Text // t ≠ []}

/-- `isString` -/
def isString (value : Json) : Option Str :=
  match value with
  | .str s => if h : s ≠ [] then some ⟨s, h⟩ else none
  | _ => none

/-- `StoredCredential` -/
structure StoredCredential where
  serverOrigin : Str
  deviceId : Str
  refreshToken : Str
  tokenFamilyId : Str
  deriving DecidableEq

/-- The value that is stored. -/
def StoredCredential.toJson (c : StoredCredential) : Json :=
  .obj [(.lit "serverOrigin", .str c.serverOrigin.1), (.lit "deviceId", .str c.deviceId.1),
    (.lit "refreshToken", .str c.refreshToken.1), (.lit "tokenFamilyId", .str c.tokenFamilyId.1)]

/-- `isStoredCredential`, with the credential. -/
def isStoredCredential : Json → Option StoredCredential
  | .obj fields => do
    guard (fields.length = 4)
    let serverOrigin ← isString (Json.get (.obj fields) (.lit "serverOrigin"))
    let deviceId ← isString (Json.get (.obj fields) (.lit "deviceId"))
    let refreshToken ← isString (Json.get (.obj fields) (.lit "refreshToken"))
    let tokenFamilyId ← isString (Json.get (.obj fields) (.lit "tokenFamilyId"))
    return ⟨serverOrigin, deviceId, refreshToken, tokenFamilyId⟩
  | _ => none

/-- `TokenResponse` -/
structure TokenResponse where
  accessToken : Str
  refreshToken : Str
  expiresIn : ℚ
  tokenFamilyId : Str
  deviceId : Str
  allowedOrigin : Str

/-- `isTokenResponse`, with the response. -/
def isTokenResponse (value : Json) : Option TokenResponse := do
  let accessToken ← isString (value.get (.lit "access_token"))
  let refreshToken ← isString (value.get (.lit "refresh_token"))
  guard ((value.get (.lit "token_type")).eqStr (.lit "Bearer"))
  let expiresIn ← (value.get (.lit "expires_in")).number
  guard (0 < expiresIn)
  let tokenFamilyId ← isString (value.get (.lit "token_family_id"))
  let deviceId ← isString ((value.get (.lit "device")).get (.lit "id"))
  let allowedOrigin ← isString ((value.get (.lit "device")).get (.lit "allowed_origin"))
  return ⟨accessToken, refreshToken, expiresIn, tokenFamilyId, deviceId, allowedOrigin⟩

/-- `PendingPairing` -/
structure PendingPairing where
  grantId : Str
  deviceCode : Str
  verifier : Str
  verificationUri : Str
  interval : ℚ
  expiresAt : ℚ
  deriving DecidableEq

/-- The checks of `beginPairing`, at time `now`. -/
def readPairing (value : Json) (now : ℚ) : Option PendingPairing := do
  let grantId ← isString (value.get (.lit "grant_id"))
  let deviceCode ← isString (value.get (.lit "device_code"))
  let verifier ← isString (value.get (.lit "verifier"))
  let verificationUri ← isString (value.get (.lit "verification_uri"))
  let interval ← (value.get (.lit "interval")).number
  let expiresIn ← (value.get (.lit "expires_in")).number
  return ⟨grantId, deviceCode, verifier, verificationUri, interval, now + expiresIn * 1000⟩

/-- `errorCode`; `none`: `response.json()` rejects. -/
def responseErrorCode (status : ℕ) (body : Option Json) : Text :=
  match (body.getD .null).get (.lit "detail") with
  | .str detail => detail
  | _ => .lit "http_" ++ Json.intText status

/-- `deviceLabel.trim()` is not empty, and has at most 80 characters. -/
def validLabel (deviceLabel : Text) : Bool :=
  let label := ((deviceLabel.dropWhile isSpace).reverse.dropWhile isSpace).reverse
  label ≠ [] ∧ Text.utf16Length label ≤ 80

/-! ## Calls -/

/-- The methods. -/
inductive AuthCall where
  | restore
  | getAccessToken (now : ℚ)
  | signOut
  | claimWithSession (deviceLabel : Text)
  | beginPairing (deviceLabel : Text)
  | pollPairing (now : ℚ)

/-- Does the call ask for a new credential? -/
def AuthCall.pairs : AuthCall → Bool
  | claimWithSession _ | beginPairing _ | pollPairing _ => true
  | _ => false

/-- How a call ends. -/
inductive AuthReply where
  | returned
  | threw (code : Text)
  /-- it lets another exception through -/
  | failed
  deriving DecidableEq

/-- What a request is for. -/
inductive AuthJob where
  | refresh (credential : StoredCredential)
  | claim
  | begin
  | poll (pairing : PendingPairing)
  deriving DecidableEq

/-- The argument `previous` of `applyTokenResponse`. -/
def AuthJob.previous : AuthJob → Option StoredCredential
  | refresh credential => some credential
  | _ => none

/-- Who awaits `signOut`: its caller, or a refresh that throws then. -/
inductive SignOutFor where
  | call
  | refresh (code : Text)
  deriving DecidableEq

/-- Where a call stands: what it awaits. -/
inductive AuthPc where
  /-- `storage.get` of `restore`, before it takes effect, and after -/
  | reading
  | read (value : Option Json)
  /-- `storage.remove` of `restore` -/
  | clearing
  | cleared
  /-- the promise of another call -/
  | sharing (j : ℕ)
  | fetching (job : AuthJob)
  /-- `errorCode` -/
  | failing (job : AuthJob) (status : ℕ)
  /-- `response.json()` -/
  | parsing (job : AuthJob)
  /-- `storage.set` of `applyTokenResponse` -/
  | storing (job : AuthJob) (credential : StoredCredential) (accessToken : Str) (expiresIn : ℚ)
  | stored (job : AuthJob) (credential : StoredCredential) (accessToken : Str) (expiresIn : ℚ)
  /-- `openVerification` -/
  | opening
  | sleeping (pairing : PendingPairing)
  /-- `closeVerification` -/
  | closing
  /-- `storage.remove` of `signOut` -/
  | removing (caller : SignOutFor)
  | removed (caller : SignOutFor)
  /-- the promise of `performRefresh` is settled -/
  | settled (reply : AuthReply)
  | done (reply : AuthReply)

/-- What the environment answers. -/
structure AuthTick where
  now : ℚ
  /-- the status of the response; `none`: the request fails -/
  status : Option ℕ
  /-- the body of the response; `none`: it is no JSON -/
  body : Option Json
  /-- the tab that `openVerification` has opened -/
  tab : Option ℤ

/-! ## The machine -/

/-- The fields of `BrowserAuth`, what is stored under `AUTH_STORAGE_KEY`, the refresh tokens that
    the server has issued, and the calls. -/
structure AuthWorld where
  credential : Option StoredCredential
  accessToken : Option Str
  accessExpiresAt : ℚ
  pendingPairing : Option PendingPairing
  refreshPromise : Option ℕ
  verificationTabId : Option ℤ
  storage : Option Json
  issued : Finset Text
  calls : ℕ → Option AuthPc

/-- The refresh token of a stored value. -/
def storedToken (value : Option Json) : Option Text :=
  (value.bind isStoredCredential).map fun c => c.refreshToken.1

/-- The worker starts over what is stored. -/
def AuthWorld.start (storage : Option Json) : AuthWorld where
  credential := none
  accessToken := none
  accessExpiresAt := 0
  pendingPairing := none
  refreshPromise := none
  verificationTabId := none
  storage := storage
  issued := (storedToken storage).toFinset
  calls _ := none

inductive AuthAct where
  | call (i : ℕ) (call : AuthCall)
  /-- the storage operation of a call takes effect -/
  | effect (i : ℕ)
  | resume (i : ℕ) (tick : AuthTick)

/-- What a step does to the refresh token: memory or storage is set to one, the one that a
    stored one replaces; and the calls in which a `signOut` begins, or ends. -/
structure AuthEffect where
  memory : Option Text := none
  stored : Option Text := none
  replaced : Option Text := none
  began : Option ℕ := none
  ended : Option ℕ := none

namespace AuthWorld

variable (configuredOrigin : Text) (w : AuthWorld) (i : ℕ)

/-- `status().paired` -/
def paired : Bool := w.credential.isSome

/-- Move call `i` to `pc`. -/
def goto (pc : AuthPc) : AuthWorld := { w with calls := Function.update w.calls i (some pc) }

/-- `clearMemory` -/
def clearMemory : AuthWorld := { w with credential := none, accessToken := none, accessExpiresAt := 0 }

/-- `signOut`, up to `storage.remove`. -/
def signOut (caller : SignOutFor) : AuthWorld × AuthEffect :=
  ({ w.clearMemory with pendingPairing := none }.goto i (.removing caller), { began := some i })

/-- `refresh`, up to the await. -/
def refresh : AuthWorld :=
  match w.refreshPromise with
  | some j => w.goto i (.sharing j)
  | none =>
    { w with refreshPromise := some i }.goto i
      (match w.credential with
      | none => .settled (.threw (.lit "not_paired"))
      | some credential => .fetching (.refresh credential))

/-- The loop of `pollPairing`, up to its request. -/
def pollLoop (pairing : PendingPairing) (now : ℚ) : AuthWorld :=
  if now < pairing.expiresAt then w.goto i (.fetching (.poll pairing))
  else { w with pendingPairing := none }.goto i (.done (.threw (.lit "expired_token")))

/-- A call, up to its first await. -/
def begin : AuthCall → AuthWorld × AuthEffect
  | .restore => (w.goto i .reading, {})
  | .getAccessToken now =>
    if w.accessToken.isSome ∧ now < w.accessExpiresAt - 60000 then (w.goto i (.done .returned), {})
    else (w.refresh i, {})
  | .signOut => w.signOut i .call
  | .claimWithSession deviceLabel =>
    if validLabel deviceLabel then (w.goto i (.fetching .claim), {})
    else (w.goto i (.done (.threw (.lit "invalid_device_label"))), {})
  | .beginPairing deviceLabel =>
    if validLabel deviceLabel then (w.goto i (.fetching .begin), {})
    else (w.goto i (.done (.threw (.lit "invalid_device_label"))), {})
  | .pollPairing now =>
    match w.pendingPairing with
    | none => (w.goto i (.done (.threw (.lit "pairing_not_started"))), {})
    | some pairing => (w.pollLoop i pairing now, {})

/-- A storage operation takes effect. -/
def takeEffect : AuthPc → Option (AuthWorld × AuthEffect)
  | .reading => some (w.goto i (.read w.storage), {})
  | .clearing => some ({ w with storage := none }.goto i .cleared, {})
  | .storing job credential accessToken expiresIn =>
    some ({ w with storage := some credential.toJson }.goto i
        (.stored job credential accessToken expiresIn),
      { stored := some credential.refreshToken.1
        replaced := (job.previous.map fun p => p.refreshToken.1).filter (· ≠ credential.refreshToken.1) })
  | .removing caller => some ({ w with storage := none }.goto i (.removed caller), {})
  | _ => none

/-- A job ends: the promise of a refresh is settled, another call has ended. -/
def finish (job : AuthJob) (reply : AuthReply) : AuthWorld :=
  match job with
  | .refresh _ => w.goto i (.settled reply)
  | _ => w.goto i (.done reply)

/-- `applyTokenResponse`, up to `storage.set`; `none`: the server does not issue this token. -/
def applyTokenResponse (job : AuthJob) (value : Json) : Option (AuthWorld × AuthEffect) :=
  match isTokenResponse value with
  | none => some (w.finish i job (.threw (.lit "invalid_token_response")), {})
  | some v =>
    if v.refreshToken.1 ∈ w.issued ∧ job.previous.map StoredCredential.refreshToken ≠ some v.refreshToken then
      none
    else
      let w := { w with issued := insert v.refreshToken.1 w.issued }
      if job.previous.any fun p => p.deviceId ≠ v.deviceId ∨ p.tokenFamilyId ≠ v.tokenFamilyId then
        some (w.signOut i (.refresh (.lit "device_identity_mismatch")))
      else if v.allowedOrigin.1 ≠ (job.previous.map fun p => p.serverOrigin.1).getD configuredOrigin then
        some (w.finish i job (.threw (.lit "origin_mismatch")), {})
      else
        some (w.goto i (.storing job ⟨v.allowedOrigin, v.deviceId, v.refreshToken, v.tokenFamilyId⟩
          v.accessToken v.expiresIn), {})

/-- After the request: its response is an error or not. -/
def afterFetch (job : AuthJob) : Option ℕ → AuthWorld
  | none => w.finish i job .failed
  | some status =>
    if 200 ≤ status ∧ status < 300 then w.goto i (.parsing job)
    else
      match job with
      | .poll pairing =>
        if status = 428 then w.goto i (.sleeping pairing)
        else { w with pendingPairing := none }.goto i (.failing job status)
      | _ => w.goto i (.failing job status)

/-- After `errorCode`. -/
def afterError (job : AuthJob) (status : ℕ) (code : Text) : AuthWorld × AuthEffect :=
  match job with
  | .refresh _ =>
    if status = 401 ∨ status = 403 then w.signOut i (.refresh code)
    else (w.finish i job (.threw code), {})
  | _ => (w.finish i job (.threw code), {})

/-- After `response.json()`. -/
def afterParse (job : AuthJob) (tick : AuthTick) : Option (AuthWorld × AuthEffect) :=
  match tick.body with
  | none => some (w.finish i job .failed, {})
  | some value =>
    match job with
    | .begin =>
      match readPairing value tick.now with
      | none => some (w.finish i job (.threw (.lit "invalid_pairing_response")), {})
      | some pairing => some ({ w with pendingPairing := some pairing }.goto i .opening, {})
    | _ => w.applyTokenResponse configuredOrigin i job value

/-- After `storage.set`: the rest of `applyTokenResponse`, and of its caller. -/
def afterStore (job : AuthJob) (credential : StoredCredential) (accessToken : Str) (expiresIn now : ℚ) :
    AuthWorld :=
  let w := { w with
    credential := some credential, accessToken := some accessToken,
    accessExpiresAt := now + expiresIn * 1000 }
  match job with
  | .poll _ =>
    match w.verificationTabId with
    | none => { w with pendingPairing := none }.goto i (.done .returned)
    | some _ => { w with pendingPairing := none, verificationTabId := none }.goto i .closing
  | job => w.finish i job .returned

/-- A call goes on. -/
def resume (tick : AuthTick) : AuthPc → Option (AuthWorld × AuthEffect)
  | .read value =>
    match value, value.bind isStoredCredential with
    | none, _ => some (w.clearMemory.goto i (.done .returned), {})
    | some _, none => some (w.goto i .clearing, {})
    | some _, some credential =>
      some ({ w with credential := some credential }.refresh i, { memory := some credential.refreshToken.1 })
  | .cleared => some (w.clearMemory.goto i (.done .returned), {})
  | .sharing j =>
    match w.calls j with
    | some (.settled reply) | some (.done reply) => some (w.goto i (.done reply), {})
    | _ => none
  | .fetching job => some (w.afterFetch i job tick.status, {})
  | .failing job status => some (w.afterError i job status (responseErrorCode status tick.body))
  | .parsing job => w.afterParse configuredOrigin i job tick
  | .stored job credential accessToken expiresIn =>
    some (w.afterStore i job credential accessToken expiresIn tick.now,
      { memory := some credential.refreshToken.1 })
  | .opening => some ({ w with verificationTabId := tick.tab }.goto i (.done .returned), {})
  | .sleeping pairing => some (w.pollLoop i pairing tick.now, {})
  | .closing => some (w.goto i (.done .returned), {})
  | .removed .call => some (w.goto i (.done .returned), { ended := some i })
  | .removed (.refresh code) => some (w.goto i (.settled (.threw code)), { ended := some i })
  | .settled reply => some ({ w with refreshPromise := none }.goto i (.done reply), {})
  | .reading | .clearing | .storing .. | .removing _ | .done _ => none

/-- One step; `none` if the number of a call is taken, or the call does not wait for this. -/
def step : AuthAct → Option (AuthWorld × AuthEffect)
  | .call i call =>
    match w.calls i with
    | none => some (w.begin i call)
    | some _ => none
  | .effect i => (w.calls i).bind (w.takeEffect i)
  | .resume i tick => (w.calls i).bind (w.resume configuredOrigin i tick)

end AuthWorld

/-- The extension's credential, with any number of calls in flight. -/
def authMachine (configuredOrigin : Text) : Machine AuthWorld AuthAct AuthEffect :=
  ⟨AuthWorld.step configuredOrigin⟩

end TideBot
