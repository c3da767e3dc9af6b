/-
  The subscription's handlers at the same time, on any number of workers.

  A handler reads the configuration, waits for the network or the database, and writes what it has made of
  what it read.  A refresh holds a lock from its read to its write, but the lock is the worker's own, and
  the other handlers do not take it.  The provider accepts a refresh token once.

  A step is the part of a handler between two of its awaits.  The condition says that a handler writes over
  the configuration that it has read.
-/
import TideBot.Subscription.Endpoint

namespace TideBot

open Lib

/-- A handler, and what it waits for. -/
inductive SubscriptionCall where
  /-- `update_config`, before its `upsert`. -/
  | updating (form : OpenAIConfigForm) (read : OpenAIConfig)
  /-- `get_valid_chatgpt_credentials` with credentials about to expire, before the lock. -/
  | waiting (worker : ℕ) (own : Credentials)
  /-- It holds the lock, and has asked the provider. -/
  | asking (worker : ℕ) (read : OpenAIConfig) (sent : Credentials)
  /-- The provider has answered; before the `upsert`. -/
  | refreshed (worker : ℕ) (read : OpenAIConfig) (credentials : Credentials)
  /-- It holds the lock, before the read of `_set_chatgpt_status`. -/
  | failed (worker : ℕ) (error : Text)
  /-- `_set_chatgpt_status`, before its `upsert`. -/
  | marking (worker : ℕ) (read : OpenAIConfig) (error : Text)
  /-- `complete_chatgpt_subscription_device_login`, before the read of `_persist_chatgpt_credentials`. -/
  | loggedIn (credentials : Credentials)
  /-- `_persist_chatgpt_credentials`, before its `upsert`. -/
  | persisting (credentials : Credentials) (read : OpenAIConfig)
  /-- `disconnect_chatgpt_subscription`, before its `upsert`. -/
  | disconnecting (read : OpenAIConfig)

/-- The worker whose lock is held. -/
def SubscriptionCall.holds : SubscriptionCall → Option ℕ
  | .asking worker _ _ | .refreshed worker _ _ | .failed worker _ | .marking worker _ _ => some worker
  | .updating .. | .waiting .. | .loggedIn _ | .persisting .. | .disconnecting _ => none

/-- What was read, of a handler before its `upsert`. -/
def SubscriptionCall.read : SubscriptionCall → Option OpenAIConfig
  | .updating _ read | .refreshed _ read _ | .marking _ read _ | .persisting _ read | .disconnecting read => some read
  | .waiting .. | .asking .. | .failed .. | .loggedIn _ => none

/-- The configuration, the handlers, and the refresh tokens that the provider has given and accepted. -/
structure SubscriptionWorld where
  stored : OpenAIConfig
  calls : Dict ℕ SubscriptionCall
  issued : List Text
  consumed : List Text

inductive WorkersStep where
  | updateConfig (call : ℕ) (form : OpenAIConfigForm)
  /-- A request to the connection `idx` asks for valid credentials. -/
  | getValid (call worker idx : ℕ) (now : ℚ)
  | lock (call : ℕ) (now : ℚ)
  /-- The provider's answer to a refresh; an error may come after it has accepted the token. -/
  | answer (call : ℕ) (answer : Except Text Credentials) (accepted : Bool)
  | deviceLogin (call : ℕ) (credentials : Credentials)
  | read (call : ℕ)
  | disconnect (call : ℕ)
  | upsert (call : ℕ)

inductive WorkersOutput where
  | waiting
  | given (credentials : Credentials)
  | refused
  /-- `update_config` returns. -/
  | updated
  /-- The refreshed credentials are stored. -/
  | refreshed
  /-- The status is stored. -/
  | marked
  /-- The login is complete. -/
  | loggedIn
  /-- `disconnect_chatgpt_subscription` returns. -/
  | disconnected
deriving DecidableEq

def SubscriptionWorld.goto (w : SubscriptionWorld) (call : ℕ) (c : SubscriptionCall) : SubscriptionWorld :=
  { w with calls := w.calls.set call c }

def SubscriptionWorld.finish (w : SubscriptionWorld) (call : ℕ) : SubscriptionWorld :=
  { w with calls := w.calls.erase call }

/-- The call returns with its `upsert`. -/
def SubscriptionWorld.write (w : SubscriptionWorld) (call : ℕ) (update : Upsert) : SubscriptionWorld :=
  { w with stored := w.stored.upsert update, calls := w.calls.erase call }

/-- The `upsert` of a handler. -/
def SubscriptionWorld.upsert (cipher : CredentialCipher) (w : SubscriptionWorld) (call : ℕ) :
    SubscriptionCall → Option (SubscriptionWorld × WorkersOutput)
  | .updating form read => match read.updateConfig form with
    | none => some (w.finish call, .refused)
    | some config => some (w.write call (.all config), .updated)
  | .refreshed _ read credentials =>
    (read.refreshUpsert cipher credentials).map fun indexed => (w.write call (.configs indexed), .refreshed)
  | .marking _ read error =>
    (read.setChatgptStatus cipher (.lit "reconnect_required") (some error)).map fun indexed =>
      (w.write call (.configs indexed), .marked)
  | .persisting credentials read =>
    some (w.write call (.all (read.persistChatgptCredentials cipher credentials)), .loggedIn)
  | .disconnecting read => read.disconnect.map fun config => (w.write call (.all config), .disconnected)
  | .waiting .. | .asking .. | .failed .. | .loggedIn _ => none

/-- The read of a handler that has waited for the network. -/
def SubscriptionWorld.readStored (cipher : CredentialCipher) (w : SubscriptionWorld) (call : ℕ) :
    SubscriptionCall → Option (SubscriptionWorld × WorkersOutput)
  | .failed worker error =>
    if (w.stored.setChatgptStatus cipher (.lit "reconnect_required") (some error)).isSome then
      some (w.goto call (.marking worker w.stored error), .waiting)
    else some (w.finish call, .refused)
  | .loggedIn credentials => some (w.goto call (.persisting credentials w.stored), .waiting)
  | .updating .. | .waiting .. | .asking .. | .refreshed .. | .marking .. | .persisting .. | .disconnecting _ => none

/-- The provider's answer. -/
def SubscriptionWorld.answered (w : SubscriptionWorld) (call : ℕ) (answer : Except Text Credentials)
    (accepted : Bool) : SubscriptionCall → Option (SubscriptionWorld × WorkersOutput)
  | .asking worker read sent => match answer with
    | .error error =>
      let w := w.goto call (.failed worker error)
      some (if accepted then { w with consumed := sent.refreshToken :: w.consumed } else w, .waiting)
    | .ok credentials =>
      if sent.refreshToken ∈ w.consumed ∨ credentials.refreshToken ∈ w.issued then none
      else
        let w := { w with
          consumed := sent.refreshToken :: w.consumed
          issued := credentials.refreshToken :: w.issued }
        if read.findChatgptConnection.isSome then
          some (w.goto call (.refreshed worker read credentials), .waiting)
        else some (w.finish call, .refused)
  | .updating .. | .waiting .. | .refreshed .. | .failed .. | .marking .. | .loggedIn _ | .persisting ..
  | .disconnecting _ => none

/-- The lock is acquired, and the configuration read again. -/
def SubscriptionWorld.locked (cipher : CredentialCipher) (w : SubscriptionWorld) (call : ℕ) (now : ℚ) :
    SubscriptionCall → Option (SubscriptionWorld × WorkersOutput)
  | .waiting worker own =>
    if w.calls.entries.any fun e => e.2.holds = some worker then none
    else match w.stored.refreshPlan cipher now own with
      | .reconnect error => some (w.goto call (.failed worker error), .waiting)
      | .valid credentials => some (w.finish call, .given credentials)
      | .ask sent => some (w.goto call (.asking worker w.stored sent), .waiting)
  | .updating .. | .asking .. | .refreshed .. | .failed .. | .marking .. | .loggedIn _ | .persisting ..
  | .disconnecting _ => none

/-- Any number of handlers. -/
def workersMachine (cipher : CredentialCipher) : Machine SubscriptionWorld WorkersStep WorkersOutput where
  step w
    | .updateConfig call form =>
      if (w.calls.get call).isSome then none else some (w.goto call (.updating form w.stored), .waiting)
    | .getValid call worker idx now =>
      if (w.calls.get call).isSome then none
      else w.stored.indexed[idx]?.map fun config => match decryptCredentials cipher config.credentials with
        | .error _ => (w, .refused)
        | .ok own =>
          if credentialsNeedRefresh now own then (w.goto call (.waiting worker own), .waiting) else (w, .given own)
    | .lock call now => (w.calls.get call).bind (w.locked cipher call now)
    | .answer call answer accepted => (w.calls.get call).bind (w.answered call answer accepted)
    | .deviceLogin call credentials =>
      if (w.calls.get call).isSome ∨ credentials.refreshToken ∈ w.issued then none
      else some ({ w.goto call (.loggedIn credentials) with issued := credentials.refreshToken :: w.issued }, .waiting)
    | .read call => (w.calls.get call).bind (w.readStored cipher call)
    | .disconnect call =>
      if (w.calls.get call).isSome then none
      else if w.stored.findChatgptConnection.isSome then some (w.goto call (.disconnecting w.stored), .waiting)
      else some (w, .disconnected)
    | .upsert call => (w.calls.get call).bind (w.upsert cipher call)

/-! ## The condition -/

/-- At most one connection claims the auth type. -/
def OneClaim (indexed : List Connection) : Prop := indexed.Pairwise fun c c' => ¬ (c.isChatgpt ∧ c'.isChatgpt)

instance (indexed : List Connection) : Decidable (OneClaim indexed) :=
  inferInstanceAs (Decidable (indexed.Pairwise fun c c' => ¬ (c.isChatgpt ∧ c'.isChatgpt)))

/-- A submission that comes while there are credentials claims the auth type once. -/
def SubscriptionCall.ClaimsOnce (stored : OpenAIConfig) : SubscriptionCall → Prop
  | .updating form _ => stored.hasCredentials → OneClaim (form.indexed.getD [])
  | .waiting .. | .asking .. | .refreshed .. | .failed .. | .marking .. | .loggedIn _ | .persisting ..
  | .disconnecting _ => True

instance (stored : OpenAIConfig) : (c : SubscriptionCall) → Decidable (c.ClaimsOnce stored)
  | .updating form _ => inferInstanceAs (Decidable (stored.hasCredentials → OneClaim (form.indexed.getD [])))
  | .waiting .. | .asking .. | .refreshed .. | .failed .. | .marking .. | .loggedIn _ | .persisting ..
  | .disconnecting _ => inferInstanceAs (Decidable True)

/-- **The condition on a step**: a handler writes over the configuration that it has read, and does not
    submit two connections for the credentials that are stored. -/
def Unraced (w : SubscriptionWorld) : WorkersStep → Prop
  | .upsert call => ∀ c ∈ w.calls.get call, (∀ read ∈ c.read, w.stored = read) ∧ c.ClaimsOnce w.stored
  | .updateConfig .. | .getValid .. | .lock .. | .answer .. | .deviceLogin .. | .read _ | .disconnect _ => True

instance (w : SubscriptionWorld) : (i : WorkersStep) → Decidable (Unraced w i)
  | .upsert _ => inferInstanceAs (Decidable (∀ _ ∈ _, (∀ _ ∈ _, _) ∧ _))
  | .updateConfig .. | .getValid .. | .lock .. | .answer .. | .deviceLogin .. | .read _ | .disconnect _ =>
    inferInstanceAs (Decidable True)

/-! ## What is to hold -/

/-- A connection holds credentials with this refresh token. -/
def OpenAIConfig.Holds (cipher : CredentialCipher) (s : OpenAIConfig) (token : Text) : Prop :=
  ∃ c ∈ s.indexed, ∃ credentials, decryptCredentials cipher c.credentials = .ok credentials ∧
    credentials.refreshToken = token

instance (cipher : CredentialCipher) (s : OpenAIConfig) (token : Text) : Decidable (s.Holds cipher token) :=
  decidable_of_iff (∃ c ∈ s.indexed, (decryptCredentials cipher c.credentials).toOption.any (·.refreshToken = token)) (by
    refine exists_congr fun c => and_congr_right fun _ => ?_
    rcases decryptCredentials cipher c.credentials with error | credentials <;>
      simp [Except.toOption])

/-- What an encryption is decrypted to is what was encrypted. -/
def CredentialCipher.Faithful (cipher : CredentialCipher) : Prop :=
  ∀ c c', cipher.decrypt (cipher.encrypt c) = some (some c') → c' = c

/-- A disconnection has returned, and no login has completed since. -/
def DisconnectedSince (tr : List (WorkersStep × WorkersOutput)) : Prop :=
  ∃ xs x ys, tr = xs ++ x :: ys ∧ x.2 = .disconnected ∧ ∀ y ∈ ys, y.2 ≠ .loggedIn

/-- A connection without what a refresh or a status write. -/
def Connection.settings (c : Connection) : Connection :=
  (c.erase chatgptPrivateCredentialsKey).erase chatgptPublicStatusKey

/-- What an administrator has submitted. -/
def OpenAIConfig.settings (s : OpenAIConfig) : Option Bool × List Text × List Text × List Connection :=
  (s.enable, s.baseUrls, s.keys, s.indexed.map Connection.settings)

/-- The `upsert` of a refresh, or of a status. -/
def WorkersOutput.refreshesOrMarks : WorkersOutput → Bool
  | .refreshed | .marked => true
  | .waiting | .given _ | .refused | .updated | .loggedIn | .disconnected => false

/-- Nobody has logged in, and no handler is under way. -/
structure SubscriptionWorld.Initial (w : SubscriptionWorld) : Prop where
  unconnected : w.stored.Unconnected
  calls : w.calls = .empty
  consumed : w.consumed = []

/-! ## The connection that holds the credentials -/

/-- Only the subscription's connection has credentials. -/
def OneHolder (indexed : List Connection) : Prop :=
  ∀ (idx : ℕ) (c : Connection), indexed[idx]? = some c → c.credentials.isSome →
    indexed.findIdx? Connection.isChatgpt = some idx

section

variable {s s' : OpenAIConfig} {cipher : CredentialCipher} {c c' : Connection} {idx : ℕ} {indexed : List Connection}
  {form : OpenAIConfigForm} {credentials credentials' : Credentials} {token : Text}

theorem findChatgptConnection_iff :
    s.findChatgptConnection = some (idx, c) ↔
      s.indexed.findIdx? Connection.isChatgpt = some idx ∧ s.indexed[idx]? = some c := by
  rw [OpenAIConfig.findChatgptConnection, Option.bind_eq_some_iff]
  constructor
  · rintro ⟨idx', hfind, hget⟩
    obtain ⟨c', hc', heq⟩ := Option.map_eq_some_iff.1 hget
    obtain ⟨rfl, rfl⟩ := Prod.mk.inj heq
    exact ⟨hfind, hc'⟩
  · rintro ⟨hfind, hget⟩
    exact ⟨idx, hfind, by rw [hget]; rfl⟩

theorem OneHolder.unique (h : OneHolder indexed) (hfind : indexed.findIdx? Connection.isChatgpt = some idx) {idx' : ℕ}
    (hget : indexed[idx']? = some c) (hsome : c.credentials.isSome) : idx' = idx :=
  Option.some.inj ((h idx' c hget hsome).symm.trans hfind)

theorem OneHolder.set (h : OneHolder indexed) (hfind : indexed.findIdx? Connection.isChatgpt = some idx)
    (hclaims : c'.isChatgpt) : OneHolder (indexed.set idx c') := by
  obtain ⟨hlt, -, hfirst⟩ := List.findIdx?_eq_some_iff_getElem.1 hfind
  have hset : (indexed.set idx c').findIdx? Connection.isChatgpt = some idx := by
    refine List.findIdx?_eq_some_iff_getElem.2 ⟨by rwa [List.length_set], by simpa using hclaims, ?_⟩
    intro j hj
    rw [List.getElem_set_ne (by omega)]
    exact hfirst j hj
  intro idx' x hget hsome
  rw [List.getElem?_set] at hget
  split_ifs at hget with heq
  · rw [hset, heq]
  · rw [hset, h.unique hfind hget hsome]

theorem OneHolder.append (h : OneHolder indexed) (hfind : indexed.findIdx? Connection.isChatgpt = none)
    (hclaims : c'.isChatgpt) : OneHolder (indexed ++ [c']) := by
  intro idx x hget hsome
  rcases Nat.lt_or_ge idx indexed.length with hlt | hge
  · rw [List.getElem?_append_left hlt] at hget
    rw [h idx x hget hsome] at hfind
    cases hfind
  · rw [List.getElem?_append_right hge] at hget
    have hidx : idx - indexed.length < 1 := (List.getElem?_eq_some_iff.1 hget).1
    rw [List.findIdx?_append, hfind, Option.none_or, List.findIdx?_cons, hclaims]
    simp only [if_true, Option.map_some]
    congr 1
    omega

theorem OneHolder.eraseIdx (h : OneHolder indexed) (hfind : indexed.findIdx? Connection.isChatgpt = some idx) :
    ∀ c ∈ indexed.eraseIdx idx, c.credentials = none := by
  intro c hc
  obtain ⟨j, hj⟩ := List.mem_iff_getElem?.1 hc
  by_contra hne
  have hsome := Option.isSome_iff_ne_none.2 hne
  rw [List.getElem?_eraseIdx] at hj
  split_ifs at hj with hlt
  · exact absurd (h.unique hfind hj hsome) (by omega)
  · exact absurd (h.unique hfind hj hsome) (by omega)

theorem oneHolder_of_none (h : ∀ c ∈ indexed, c.credentials = none) : OneHolder indexed := by
  intro idx c hget hsome
  rw [h c (List.mem_of_getElem? hget)] at hsome
  cases hsome

theorem isChatgpt_setAll (c : Connection) {fields : List (Text × Json)} (h : ∀ f ∈ fields, f.1 ≠ .lit "auth_type") :
    (c.setAll fields).isChatgpt = c.isChatgpt := by
  induction fields generalizing c with
  | nil => rfl
  | cons f fs ih =>
    obtain ⟨hf, hfs⟩ := List.forall_mem_cons.1 h
    show (Connection.setAll (c.set f.1 f.2) fs).isChatgpt = c.isChatgpt
    rw [ih _ hfs, Connection.isChatgpt, Dict.get_set_of_ne c hf.symm, Connection.isChatgpt]

theorem isChatgpt_set (c : Connection) {key : Text} (v : Json) (hkey : key ≠ .lit "auth_type") :
    Connection.isChatgpt (Dict.set c key v) = c.isChatgpt := by
  rw [Connection.isChatgpt, Dict.get_set_of_ne c hkey.symm, Connection.isChatgpt]

theorem isChatgpt_mergeConnection (stored : Option Connection) (c : Connection) :
    (mergeConnection stored c).isChatgpt = c.isChatgpt := by
  unfold mergeConnection
  dsimp only
  split_ifs
  · rw [isChatgpt_setAll _ (by decide), ← redact_isChatgpt c]
    rcases stored with _ | st
    · rfl
    rcases hst : st.credentials with _ | x <;> simp only [hst]
    split_ifs
    · rw [isChatgpt_set _ _ (by decide), isChatgpt_set _ _ (by decide)]
    · rfl
  · exact redact_isChatgpt c

theorem credentials_login (c : Connection) (credentials : Credentials) :
    (c.setAll (loginFields cipher credentials)).credentials = some (.str (cipher.encrypt credentials)) := by
  simp only [loginFields, Connection.setAll, List.foldl_cons, List.foldl_nil, Connection.credentials]
  rw [Dict.get_set_of_ne _ (by decide), Dict.get_set_self]

theorem isChatgpt_login (c : Connection) (credentials : Credentials) :
    (c.setAll (loginFields cipher credentials)).isChatgpt := by
  simp only [loginFields, Connection.setAll, List.foldl_cons, List.foldl_nil]
  rw [isChatgpt_set _ _ (by decide), isChatgpt_set _ _ (by decide), isChatgpt_set _ _ (by decide),
    isChatgpt_set _ _ (by decide), isChatgpt_set _ _ (by decide), isChatgpt_set _ _ (by decide), Connection.isChatgpt,
    Dict.get_set_self]
  decide

/-! ## What the handlers write -/

theorem holds_of_all {enable : Option Bool} {baseUrls keys : List Text} (hlen : indexed.length = baseUrls.length) :
    (OpenAIConfig.mk enable baseUrls keys (byIndex indexed)).Holds cipher token ↔
      ∃ c ∈ indexed, ∃ credentials, decryptCredentials cipher c.credentials = .ok credentials ∧
        credentials.refreshToken = token := by
  rw [OpenAIConfig.Holds, indexed_all hlen]

theorem Holds.updateConfig (h : s.updateConfig form = some s') (hholds : s'.Holds cipher token) :
    s.Holds cipher token := by
  obtain ⟨submitted, -, -, hindexed⟩ := updateConfig_spec h
  obtain ⟨c, hc, credentials, hdecrypt, htoken⟩ := hholds
  rw [hindexed] at hc
  obtain ⟨c', -, rfl⟩ := List.mem_map.1 hc
  obtain ⟨x, hx⟩ := Option.isSome_iff_exists.1 (credentials_of_decrypt hdecrypt)
  obtain ⟨-, -, st, hst, hstx⟩ := credentials_merged hx
  refine ⟨st, hst, credentials, ?_, htoken⟩
  rw [hstx, ← hx]
  exact hdecrypt

theorem Holds.set (h : ∃ x ∈ indexed.set idx c', ∃ credentials, decryptCredentials cipher x.credentials = .ok credentials ∧
      credentials.refreshToken = token) (hindexed : s.indexed = indexed) :
    s.Holds cipher token ∨
      ∃ credentials, decryptCredentials cipher c'.credentials = .ok credentials ∧ credentials.refreshToken = token := by
  obtain ⟨x, hx, hholds⟩ := h
  rcases List.mem_or_eq_of_mem_set hx with hx | rfl
  · exact .inl ⟨x, hindexed ▸ hx, hholds⟩
  · exact .inr hholds

theorem decrypt_encrypt (hcipher : cipher.Faithful)
    (h : decryptCredentials cipher (some (.str (cipher.encrypt credentials))) = .ok credentials') :
    credentials' = credentials := by
  unfold decryptCredentials at h
  split_ifs at h
  simp only at h
  split at h
  · cases h
  · cases h
  · rename_i credentials'' hdecrypt
    cases h
    exact hcipher _ _ hdecrypt

theorem Holds.persist (hcipher : cipher.Faithful)
    (hholds : (s.persistChatgptCredentials cipher credentials).Holds cipher token) :
    s.Holds cipher token ∨ token = credentials.refreshToken := by
  have hnew : ∀ {c : Connection} {credentials'},
      decryptCredentials cipher (c.setAll (loginFields cipher credentials)).credentials = .ok credentials' →
      credentials' = credentials := by
    intro c credentials' h
    rw [credentials_login] at h
    exact decrypt_encrypt hcipher h
  unfold OpenAIConfig.persistChatgptCredentials at hholds
  rcases hfind : s.findChatgptConnection with _ | ⟨idx, existing⟩ <;> rw [hfind] at hholds
  · obtain ⟨c, hc, credentials', hdecrypt, htoken⟩ := (holds_of_all (by simp)).1 hholds
    rcases List.mem_append.1 hc with hc | hc
    · exact .inl ⟨c, hc, credentials', hdecrypt, htoken⟩
    · rw [List.mem_singleton.1 hc] at hdecrypt
      rw [hnew hdecrypt] at htoken
      exact .inr htoken.symm
  · rcases Holds.set ((holds_of_all (by simp)).1 hholds) rfl with h | ⟨credentials', hdecrypt, htoken⟩
    · exact .inl h
    · rw [hnew hdecrypt] at htoken
      exact .inr htoken.symm

theorem Holds.refresh (hcipher : cipher.Faithful) (h : s.refreshUpsert cipher credentials = some indexed)
    (hholds : (s.upsert (.configs indexed)).Holds cipher token) :
    s.Holds cipher token ∨ token = credentials.refreshToken := by
  obtain ⟨⟨idx, c⟩, -, rfl⟩ := Option.map_eq_some_iff.1 h
  rw [OpenAIConfig.Holds, indexed_upsert_configs (by simp)] at hholds
  rcases Holds.set hholds rfl with h | ⟨credentials', hdecrypt, htoken⟩
  · exact .inl h
  · rw [Connection.refreshed, Connection.credentials, Dict.get_set_of_ne _ (by decide), Dict.get_set_self] at hdecrypt
    rw [decrypt_encrypt hcipher hdecrypt] at htoken
    exact .inr htoken.symm

theorem Holds.mark {state : Text} {error : Option Text} (h : s.setChatgptStatus cipher state error = some indexed)
    (hholds : (s.upsert (.configs indexed)).Holds cipher token) : s.Holds cipher token := by
  obtain ⟨⟨idx, c⟩, hfind, rfl⟩ := Option.map_eq_some_iff.1 h
  rw [OpenAIConfig.Holds, indexed_upsert_configs (by simp)] at hholds
  rcases Holds.set hholds rfl with h | ⟨credentials', hdecrypt, htoken⟩
  · exact h
  · rw [Connection.credentials, Dict.get_set_of_ne c (by decide)] at hdecrypt
    exact ⟨c, List.mem_of_getElem? (findChatgptConnection_iff.1 hfind).2, credentials', hdecrypt, htoken⟩

/-- **A submission** that claims the auth type once leaves one holder. -/
theorem oneHolder_updateConfig (hclaim : s.hasCredentials → OneClaim (form.indexed.getD []))
    (h : s.updateConfig form = some s') : OneHolder s'.indexed := by
  obtain ⟨submitted, hsubmitted, -, hindexed⟩ := updateConfig_spec h
  rw [hindexed]
  intro idx c hget hsome
  obtain ⟨c', hc', rfl⟩ := Option.map_eq_some_iff.1 ((List.getElem?_map ..).symm.trans hget)
  obtain ⟨x, hx⟩ := Option.isSome_iff_exists.1 hsome
  obtain ⟨hchatgpt, hhas, -⟩ := credentials_merged hx
  have hone := hclaim hhas
  rw [hsubmitted, Option.getD_some] at hone
  obtain ⟨hlt, hidx⟩ := List.getElem?_eq_some_iff.1 hc'
  refine List.findIdx?_eq_some_iff_getElem.2 ⟨by rwa [List.length_map], ?_, ?_⟩
  · rw [List.getElem_map, isChatgpt_mergeConnection, hidx]
    exact hchatgpt
  · intro j hj
    rw [List.getElem_map, isChatgpt_mergeConnection]
    intro hother
    refine List.pairwise_iff_getElem.1 hone j idx (by omega) hlt hj ⟨hother, ?_⟩
    rw [hidx]
    exact hchatgpt

theorem oneHolder_persist (h : OneHolder s.indexed) :
    OneHolder (s.persistChatgptCredentials cipher credentials).indexed := by
  unfold OpenAIConfig.persistChatgptCredentials
  rcases hfind : s.findChatgptConnection with _ | ⟨idx, existing⟩ <;> dsimp only
  · rw [indexed_all (by simp)]
    refine h.append ?_ (isChatgpt_login _ _)
    rw [List.findIdx?_eq_none_iff]
    exact findChatgptConnection_eq_none.1 hfind
  · rw [indexed_all (by simp)]
    exact h.set (findChatgptConnection_iff.1 hfind).1 (isChatgpt_login _ _)

theorem oneHolder_refresh (h : OneHolder s.indexed) (hs : s.refreshUpsert cipher credentials = some indexed) :
    OneHolder (s.upsert (.configs indexed)).indexed := by
  obtain ⟨⟨idx, c⟩, hfind, rfl⟩ := Option.map_eq_some_iff.1 hs
  rw [indexed_upsert_configs (by simp)]
  refine h.set (findChatgptConnection_iff.1 hfind).1 ?_
  rw [Connection.refreshed, isChatgpt_set _ _ (by decide), isChatgpt_set _ _ (by decide)]
  exact (findChatgptConnection_eq_some hfind).2.1

theorem oneHolder_mark {state : Text} {error : Option Text} (h : OneHolder s.indexed)
    (hs : s.setChatgptStatus cipher state error = some indexed) : OneHolder (s.upsert (.configs indexed)).indexed := by
  obtain ⟨⟨idx, c⟩, hfind, rfl⟩ := Option.map_eq_some_iff.1 hs
  rw [indexed_upsert_configs (by simp)]
  refine h.set (findChatgptConnection_iff.1 hfind).1 ?_
  rw [isChatgpt_set _ _ (by decide)]
  exact (findChatgptConnection_eq_some hfind).2.1

/-- **A disconnection** leaves no credentials. -/
theorem unconnected_disconnect (h : OneHolder s.indexed) (hs : s.disconnect = some s') : s'.Unconnected := by
  obtain ⟨⟨idx, c⟩, hfind, rfl⟩ := Option.map_eq_some_iff.1 hs
  obtain ⟨-, -, hlt⟩ := findChatgptConnection_eq_some hfind
  rw [OpenAIConfig.Unconnected, indexed_all (by simp [List.length_eraseIdx, hlt])]
  exact h.eraseIdx (findChatgptConnection_iff.1 hfind).1

theorem unconnected_updateConfig (h : s.Unconnected) (hs : s.updateConfig form = some s') : s'.Unconnected := by
  obtain ⟨submitted, -, -, hindexed⟩ := updateConfig_spec hs
  rw [OpenAIConfig.Unconnected, hindexed]
  intro c hc
  obtain ⟨c', -, rfl⟩ := List.mem_map.1 hc
  by_contra hne
  obtain ⟨x, hx⟩ := Option.ne_none_iff_exists'.1 hne
  obtain ⟨-, -, st, hst, hstx⟩ := credentials_merged hx
  rw [h st hst] at hstx
  cases hstx

theorem unconnected_mark {state : Text} {error : Option Text} (h : s.Unconnected)
    (hs : s.setChatgptStatus cipher state error = some indexed) : (s.upsert (.configs indexed)).Unconnected := by
  obtain ⟨⟨idx, c⟩, hfind, rfl⟩ := Option.map_eq_some_iff.1 hs
  rw [OpenAIConfig.Unconnected, indexed_upsert_configs (by simp)]
  intro x hx
  rcases List.mem_or_eq_of_mem_set hx with hx | rfl
  · exact h x hx
  · rw [Connection.credentials, Dict.get_set_of_ne c (by decide)]
    exact h c (List.mem_of_getElem? (findChatgptConnection_iff.1 hfind).2)

/-- **A refresh and a status leave what was submitted.** -/
theorem settings_configs (hget : s.indexed[idx]? = some c) (hc : c'.settings = c.settings) :
    (s.upsert (.configs (s.indexed.set idx c'))).settings = s.settings := by
  unfold OpenAIConfig.settings
  rw [indexed_upsert_configs (by simp), List.map_set, hc]
  have hsame : (s.indexed.map Connection.settings).set idx c.settings = s.indexed.map Connection.settings := by
    refine List.ext_getElem? fun j => ?_
    rw [List.getElem?_set]
    split_ifs with hj hlt
    · rw [← hj, List.getElem?_map, hget]
      rfl
    · rw [← hj, List.getElem?_eq_none (by simpa using hlt)]
    · rfl
  rw [hsame]
  rfl

theorem settings_refresh (hs : s.refreshUpsert cipher credentials = some indexed) :
    (s.upsert (.configs indexed)).settings = s.settings := by
  obtain ⟨⟨idx, c⟩, hfind, rfl⟩ := Option.map_eq_some_iff.1 hs
  refine settings_configs (findChatgptConnection_iff.1 hfind).2 ?_
  have hne : chatgptPublicStatusKey ≠ chatgptPrivateCredentialsKey := by decide
  rw [Connection.refreshed, Connection.settings, Dict.erase_set_of_ne _ _ hne, Dict.erase_set_self, Dict.erase_set_self,
    Connection.settings]

theorem settings_mark {state : Text} {error : Option Text}
    (hs : s.setChatgptStatus cipher state error = some indexed) :
    (s.upsert (.configs indexed)).settings = s.settings := by
  obtain ⟨⟨idx, c⟩, hfind, rfl⟩ := Option.map_eq_some_iff.1 hs
  refine settings_configs (findChatgptConnection_iff.1 hfind).2 ?_
  have hne : chatgptPublicStatusKey ≠ chatgptPrivateCredentialsKey := by decide
  rw [Connection.settings, Dict.erase_set_of_ne _ _ hne, Dict.erase_set_self, Connection.settings]

end

/-! ## The tokens under way -/

/-- A token that a handler may still send. -/
def SubscriptionCall.known : SubscriptionCall → Option Text
  | .waiting _ own => some own.refreshToken
  | .asking _ _ sent => some sent.refreshToken
  | .updating .. | .refreshed .. | .failed .. | .marking .. | .loggedIn _ | .persisting .. | .disconnecting _ => none

/-- A token that a handler has been given and will store. -/
def SubscriptionCall.pending : SubscriptionCall → Option Text
  | .refreshed _ _ credentials | .loggedIn credentials | .persisting credentials _ => some credentials.refreshToken
  | .updating .. | .waiting .. | .asking .. | .failed .. | .marking .. | .disconnecting _ => none

/-- The configuration that a refresh has read has credentials. -/
def SubscriptionCall.Asked : SubscriptionCall → Prop
  | .asking _ read _ | .refreshed _ read _ =>
    ∀ found, read.findChatgptConnection = some found → found.2.credentials.isSome
  | .updating .. | .waiting .. | .failed .. | .marking .. | .loggedIn _ | .persisting .. | .disconnecting _ => True

/-- One connection has the credentials, and a token that waits to be stored is nowhere else: `published` are
    the tokens that have been stored. -/
structure Forward (cipher : CredentialCipher) (w : SubscriptionWorld) (published : Set Text) : Prop where
  oneHolder : OneHolder w.stored.indexed
  held : ∀ token, w.stored.Holds cipher token → token ∈ published
  consumed : ∀ token ∈ w.consumed, token ∈ published
  issued : ∀ token ∈ published, token ∈ w.issued
  asked : ∀ j c, w.calls.get j = some c → c.Asked
  known : ∀ j c, w.calls.get j = some c → ∀ token ∈ c.known, token ∈ published
  pending : ∀ j c, w.calls.get j = some c → ∀ token ∈ c.pending, token ∈ w.issued ∧ token ∉ published
  distinct : ∀ j j' c c', w.calls.get j = some c → w.calls.get j' = some c' → ∀ token ∈ c.pending,
    token ∈ c'.pending → j = j'

section

variable {cipher : CredentialCipher} {w w' : SubscriptionWorld} {published : Set Text} {call : ℕ}
  {c : SubscriptionCall} {o : WorkersOutput} {token : Text}

theorem Forward.goto (h : Forward cipher w published) (hasked : c.Asked) (hknown : ∀ token ∈ c.known, token ∈ published)
    (hpending : ∀ token ∈ c.pending, token ∈ w.issued ∧ token ∉ published ∧
      ∀ j c', w.calls.get j = some c' → j ≠ call → c'.pending ≠ some token) :
    Forward cipher (w.goto call c) published where
  oneHolder := h.oneHolder
  held := h.held
  consumed := h.consumed
  issued := h.issued
  asked j c' hget := by
    rw [SubscriptionWorld.goto, Dict.get_set] at hget
    split_ifs at hget
    · exact Option.some.inj hget ▸ hasked
    · exact h.asked j c' hget
  known j c' hget := by
    rw [SubscriptionWorld.goto, Dict.get_set] at hget
    split_ifs at hget
    · exact Option.some.inj hget ▸ hknown
    · exact h.known j c' hget
  pending j c' hget token htoken := by
    rw [SubscriptionWorld.goto, Dict.get_set] at hget
    split_ifs at hget
    · obtain rfl := Option.some.inj hget
      exact ⟨(hpending token htoken).1, (hpending token htoken).2.1⟩
    · exact h.pending j c' hget token htoken
  distinct j j' c₁ c₂ hget hget' token htoken htoken' := by
    rw [SubscriptionWorld.goto, Dict.get_set] at hget hget'
    split_ifs at hget hget' with hj hj'
    · rw [hj, hj']
    · obtain rfl := Option.some.inj hget
      exact absurd htoken' ((hpending token htoken).2.2 j' c₂ hget' (by assumption))
    · obtain rfl := Option.some.inj hget'
      exact absurd htoken ((hpending token htoken').2.2 j c₁ hget hj)
    · exact h.distinct j j' c₁ c₂ hget hget' token htoken htoken'

theorem Forward.goto_plain (h : Forward cipher w published) (hasked : c.Asked) (hknown : ∀ token ∈ c.known, token ∈ published)
    (hpending : c.pending = none) : Forward cipher (w.goto call c) published := by
  refine h.goto hasked hknown ?_
  intro token htoken
  rw [hpending] at htoken
  cases htoken

theorem Forward.finish (h : Forward cipher w published) (call : ℕ) : Forward cipher (w.finish call) published where
  oneHolder := h.oneHolder
  held := h.held
  consumed := h.consumed
  issued := h.issued
  asked j c hget := h.asked j c (Dict.get_filter.1 hget).1
  known j c hget := h.known j c (Dict.get_filter.1 hget).1
  pending j c hget := h.pending j c (Dict.get_filter.1 hget).1
  distinct j j' c c' hget hget' := h.distinct j j' c c' (Dict.get_filter.1 hget).1 (Dict.get_filter.1 hget').1

theorem Forward.consume (h : Forward cipher w published) (htoken : token ∈ published) :
    Forward cipher { w with consumed := token :: w.consumed } published :=
  { h with
    consumed := by
      rintro token' htoken'
      rcases List.mem_cons.1 htoken' with rfl | htoken'
      · exact htoken
      · exact h.consumed token' htoken' }

theorem Forward.issue (h : Forward cipher w published) (token : Text) :
    Forward cipher { w with issued := token :: w.issued } published :=
  { h with
    issued := fun token' htoken' => List.mem_cons_of_mem _ (h.issued token' htoken')
    pending := fun j c hget token' htoken' =>
      ⟨List.mem_cons_of_mem _ (h.pending j c hget token' htoken').1, (h.pending j c hget token' htoken').2⟩ }

/-- **A handler stores what it has been given**: its token is published, and nobody else waits to store it. -/
theorem Forward.write (h : Forward cipher w published) {update : Upsert} (hget : w.calls.get call = some c)
    (hone : OneHolder (w.stored.upsert update).indexed)
    (hholds : ∀ token, (w.stored.upsert update).Holds cipher token → w.stored.Holds cipher token ∨ c.pending = some token) :
    Forward cipher (w.write call update) (published ∪ {token | c.pending = some token}) where
  oneHolder := hone
  held token htoken := (hholds token htoken).imp (h.held token) id
  consumed token htoken := .inl (h.consumed token htoken)
  issued := by
    rintro token (htoken | htoken)
    · exact h.issued token htoken
    · exact (h.pending call c hget token htoken).1
  asked j c' hget' := h.asked j c' (Dict.get_filter.1 hget').1
  known j c' hget' token htoken := .inl (h.known j c' (Dict.get_filter.1 hget').1 token htoken)
  pending j c' hget' token htoken := by
    obtain ⟨hget', hne⟩ := Dict.get_filter.1 hget'
    obtain ⟨hissued, hnew⟩ := h.pending j c' hget' token htoken
    refine ⟨hissued, ?_⟩
    rintro (hold | hown)
    · exact hnew hold
    · rw [h.distinct j call c' c hget' hget token htoken hown] at hne
      simp at hne
  distinct j j' c₁ c₂ hget₁ hget₂ := h.distinct j j' c₁ c₂ (Dict.get_filter.1 hget₁).1 (Dict.get_filter.1 hget₂).1

/-- What a step does to the configuration. -/
structure KeepsForward (cipher : CredentialCipher) (w w' : SubscriptionWorld) (o : WorkersOutput) : Prop where
  tokens : ∀ token ∈ w.consumed, w'.stored.Holds cipher token → w.stored.Holds cipher token
  unconnected : w.stored.Unconnected → o ≠ .loggedIn → w'.stored.Unconnected
  disconnected : o = .disconnected → w'.stored.Unconnected
  settings : o.refreshesOrMarks → w'.stored.settings = w.stored.settings

theorem KeepsForward.same (hstored : w'.stored = w.stored) (ho : o ≠ .disconnected) : KeepsForward cipher w w' o where
  tokens _ _ h := hstored ▸ h
  unconnected h _ := hstored ▸ h
  disconnected h := absurd h ho
  settings _ := by rw [hstored]

theorem not_holds_of_unconnected {s : OpenAIConfig} (h : s.Unconnected) : ¬ s.Holds cipher token := by
  rintro ⟨c, hc, credentials, hdecrypt, -⟩
  have hsome := credentials_of_decrypt hdecrypt
  rw [h c hc] at hsome
  cases hsome

theorem Forward.not_consumed (h : Forward cipher w published) (hget : w.calls.get call = some c)
    (hpending : c.pending = some token) : token ∉ w.consumed :=
  fun hconsumed => (h.pending call c hget token hpending).2 (h.consumed token hconsumed)

/-- **The `upsert` of a handler**, over what it has read. -/
theorem Forward.upsert (hcipher : cipher.Faithful) (h : Forward cipher w published) (hget : w.calls.get call = some c)
    (hfresh : ∀ read ∈ c.read, w.stored = read) (hclaim : c.ClaimsOnce w.stored)
    (hs : w.upsert cipher call c = some (w', o)) :
    (∃ published', Forward cipher w' published') ∧ KeepsForward cipher w w' o := by
  cases c with
  | updating form read =>
    obtain rfl := hfresh read rfl
    dsimp only [SubscriptionWorld.upsert] at hs
    rcases hupdate : w.stored.updateConfig form with _ | config <;> rw [hupdate] at hs <;> cases hs
    · exact ⟨⟨_, h.finish call⟩, .same rfl (by decide)⟩
    · refine ⟨⟨_, h.write hget (oneHolder_updateConfig hclaim hupdate)
        fun token htoken => .inl (Holds.updateConfig hupdate htoken)⟩, ?_, ?_, by rintro ⟨⟩, by rintro ⟨⟩⟩
      · exact fun token _ htoken => Holds.updateConfig hupdate htoken
      · exact fun hnone _ => unconnected_updateConfig hnone hupdate
  | refreshed worker read credentials =>
    obtain rfl := hfresh read rfl
    obtain ⟨indexed, hindexed, hout⟩ := Option.map_eq_some_iff.1 hs
    obtain ⟨rfl, rfl⟩ := Prod.mk.inj hout
    have hholds : ∀ token, (w.stored.upsert (.configs indexed)).Holds cipher token →
        w.stored.Holds cipher token ∨ some credentials.refreshToken = some token :=
      fun token htoken => (Holds.refresh hcipher hindexed htoken).imp id fun heq => by rw [heq]
    refine ⟨⟨_, h.write hget (oneHolder_refresh h.oneHolder hindexed) hholds⟩, ?_, ?_, by rintro ⟨⟩,
      fun _ => settings_refresh hindexed⟩
    · intro token hconsumed htoken
      refine (hholds token htoken).resolve_right ?_
      intro heq
      exact h.not_consumed hget heq hconsumed
    · intro hnone _
      obtain ⟨found, hfind, -⟩ := Option.map_eq_some_iff.1 hindexed
      have hsome := h.asked call _ hget found hfind
      rw [hnone found.2 (List.mem_of_getElem? (findChatgptConnection_iff.1 hfind).2)] at hsome
      cases hsome
  | marking worker read error =>
    obtain rfl := hfresh read rfl
    obtain ⟨indexed, hindexed, hout⟩ := Option.map_eq_some_iff.1 hs
    obtain ⟨rfl, rfl⟩ := Prod.mk.inj hout
    refine ⟨⟨_, h.write hget (oneHolder_mark h.oneHolder hindexed)
      fun token htoken => .inl (Holds.mark hindexed htoken)⟩, ?_, ?_, by rintro ⟨⟩,
      fun _ => settings_mark hindexed⟩
    · exact fun token _ htoken => Holds.mark hindexed htoken
    · exact fun hnone _ => unconnected_mark hnone hindexed
  | persisting credentials read =>
    obtain rfl := hfresh read rfl
    cases hs
    have hholds : ∀ token, (w.stored.persistChatgptCredentials cipher credentials).Holds cipher token →
        w.stored.Holds cipher token ∨ some credentials.refreshToken = some token :=
      fun token htoken => (Holds.persist hcipher htoken).imp id fun heq => by rw [heq]
    refine ⟨⟨_, h.write hget (oneHolder_persist h.oneHolder) hholds⟩, ?_, ?_, by rintro ⟨⟩, by rintro ⟨⟩⟩
    · intro token hconsumed htoken
      refine (hholds token htoken).resolve_right ?_
      intro heq
      exact h.not_consumed hget heq hconsumed
    · exact fun _ hne => absurd rfl hne
  | disconnecting read =>
    obtain rfl := hfresh read rfl
    obtain ⟨config, hconfig, hout⟩ := Option.map_eq_some_iff.1 hs
    obtain ⟨rfl, rfl⟩ := Prod.mk.inj hout
    have hnone := unconnected_disconnect h.oneHolder hconfig
    refine ⟨⟨_, h.write hget (oneHolder_of_none hnone)
      fun token htoken => absurd htoken (not_holds_of_unconnected hnone)⟩, ?_, ?_, ?_,
      by rintro ⟨⟩⟩
    · exact fun token _ htoken => absurd htoken (not_holds_of_unconnected hnone)
    · exact fun _ _ => hnone
    · exact fun _ => hnone
  | waiting | asking | failed | loggedIn => cases hs

theorem asked_of_refreshPlan {s : OpenAIConfig} {now : ℚ} {own sent : Credentials}
    (h : s.refreshPlan cipher now own = .ask sent) : (SubscriptionCall.asking 0 s sent).Asked := by
  rintro ⟨idx, stored⟩ hfind
  simp only [OpenAIConfig.refreshPlan, hfind] at h
  rcases hdecrypt : decryptCredentials cipher stored.credentials with error | credentials
  · rw [hdecrypt] at h
    cases h
  · exact credentials_of_decrypt hdecrypt

theorem sent_of_refreshPlan {s : OpenAIConfig} {now : ℚ} {own sent : Credentials}
    (h : s.refreshPlan cipher now own = .ask sent) : sent = own ∨ s.Holds cipher sent.refreshToken := by
  unfold OpenAIConfig.refreshPlan at h
  rcases hfind : s.findChatgptConnection with _ | ⟨idx, stored⟩ <;> rw [hfind] at h
  · cases h
    exact .inl rfl
  · rcases hdecrypt : decryptCredentials cipher stored.credentials with error | credentials
    · simp only [hdecrypt] at h
      cases h
    · simp only [hdecrypt] at h
      split_ifs at h
      cases h
      exact .inr ⟨stored, List.mem_of_getElem? (findChatgptConnection_iff.1 hfind).2, sent, hdecrypt, rfl⟩

/-- **The lock is acquired.** -/
theorem Forward.locked (h : Forward cipher w published) (hget : w.calls.get call = some c) {now : ℚ}
    (hs : w.locked cipher call now c = some (w', o)) :
    (∃ published', Forward cipher w' published') ∧ KeepsForward cipher w w' o := by
  cases c with
  | waiting worker own =>
    obtain ⟨-, hs⟩ := Option.ite_none_left_eq_some.1 hs
    rcases hplan : w.stored.refreshPlan cipher now own with error | credentials | sent <;> rw [hplan] at hs <;>
      cases hs
    · exact ⟨⟨_, h.goto_plain trivial (by rintro _ ⟨⟩) rfl⟩, .same rfl (by decide)⟩
    · exact ⟨⟨_, h.finish call⟩, .same rfl (by rintro ⟨⟩)⟩
    · refine ⟨⟨_, h.goto_plain (asked_of_refreshPlan hplan) ?_ rfl⟩, .same rfl (by decide)⟩
      rintro token ⟨⟩
      rcases sent_of_refreshPlan hplan with rfl | hholds
      · exact h.known call _ hget _ rfl
      · exact h.held _ hholds
  | updating | asking | refreshed | failed | marking | loggedIn | persisting | disconnecting => cases hs

/-- **The provider answers**: the token that was sent is consumed, and a new one waits to be stored. -/
theorem Forward.answered (h : Forward cipher w published) (hget : w.calls.get call = some c)
    {answer : Except Text Credentials} {accepted : Bool} (hs : w.answered call answer accepted c = some (w', o)) :
    (∃ published', Forward cipher w' published') ∧ KeepsForward cipher w w' o := by
  cases c with
  | asking worker read sent =>
    have hsent := h.known call _ hget sent.refreshToken rfl
    have hasked : (SubscriptionCall.asking worker read sent).Asked := h.asked call _ hget
    rcases answer with error | credentials
    · cases hs
      have hfailed : Forward cipher (w.goto call (.failed worker error)) published :=
        h.goto_plain trivial (by rintro _ ⟨⟩) rfl
      cases accepted
      · exact ⟨⟨_, hfailed⟩, .same rfl (by decide)⟩
      · exact ⟨⟨_, hfailed.consume hsent⟩, .same rfl (by decide)⟩
    · obtain ⟨hguard, hs⟩ := Option.ite_none_left_eq_some.1 hs
      obtain ⟨-, hfresh⟩ := not_or.1 hguard
      have hissued := (h.consume hsent).issue credentials.refreshToken
      split_ifs at hs <;> cases hs
      · refine ⟨⟨_, hissued.goto hasked (by rintro _ ⟨⟩) ?_⟩, .same rfl (by decide)⟩
        rintro token ⟨⟩
        refine ⟨List.mem_cons_self, fun hold => hfresh (h.issued _ hold), ?_⟩
        intro j c' hget' _ hpending
        exact hfresh (h.pending j c' hget' _ hpending).1
      · exact ⟨⟨_, hissued.finish call⟩, .same rfl (by decide)⟩
  | updating | waiting | refreshed | failed | marking | loggedIn | persisting | disconnecting => cases hs

/-- **A handler reads the configuration.** -/
theorem Forward.readStored (h : Forward cipher w published) (hget : w.calls.get call = some c)
    (hs : w.readStored cipher call c = some (w', o)) :
    (∃ published', Forward cipher w' published') ∧ KeepsForward cipher w w' o := by
  cases c with
  | failed worker error =>
    dsimp only [SubscriptionWorld.readStored] at hs
    split_ifs at hs <;> cases hs
    · exact ⟨⟨_, h.goto_plain trivial (by rintro _ ⟨⟩) rfl⟩, .same rfl (by decide)⟩
    · exact ⟨⟨_, h.finish call⟩, .same rfl (by decide)⟩
  | loggedIn credentials =>
    cases hs
    refine ⟨⟨_, h.goto trivial (by rintro _ ⟨⟩) ?_⟩, .same rfl (by decide)⟩
    rintro token ⟨⟩
    obtain ⟨hissued, hnew⟩ := h.pending call _ hget _ rfl
    refine ⟨hissued, hnew, ?_⟩
    intro j c' hget' hne hpending
    exact hne (h.distinct j call c' _ hget' hget _ hpending rfl)
  | updating | waiting | asking | refreshed | marking | persisting | disconnecting => cases hs

/-- **One step**, under the condition. -/
theorem Forward.step (hcipher : cipher.Faithful) (h : Forward cipher w published) {i : WorkersStep}
    (hcond : Unraced w i) (hs : (workersMachine cipher).step w i = some (w', o)) :
    (∃ published', Forward cipher w' published') ∧ KeepsForward cipher w w' o := by
  cases i with
  | updateConfig call form =>
    obtain ⟨-, hs⟩ := Option.ite_none_left_eq_some.1 hs
    cases hs
    exact ⟨⟨_, h.goto_plain trivial (by rintro _ ⟨⟩) rfl⟩, .same rfl (by decide)⟩
  | getValid call worker idx now =>
    obtain ⟨-, hs⟩ := Option.ite_none_left_eq_some.1 hs
    obtain ⟨config, hconfig, hs⟩ := Option.map_eq_some_iff.1 hs
    rcases hdecrypt : decryptCredentials cipher config.credentials with error | own <;> rw [hdecrypt] at hs
    · cases hs
      exact ⟨⟨_, h⟩, .same rfl (by decide)⟩
    · dsimp only at hs
      split_ifs at hs <;> cases hs
      · refine ⟨⟨_, h.goto_plain trivial ?_ rfl⟩, .same rfl (by decide)⟩
        rintro token ⟨⟩
        exact h.held _ ⟨config, List.mem_of_getElem? hconfig, own, hdecrypt, rfl⟩
      · exact ⟨⟨_, h⟩, .same rfl (by rintro ⟨⟩)⟩
  | lock call now =>
    obtain ⟨c, hget, hs⟩ := Option.bind_eq_some_iff.1 hs
    exact h.locked hget hs
  | answer call answer accepted =>
    obtain ⟨c, hget, hs⟩ := Option.bind_eq_some_iff.1 hs
    exact h.answered hget hs
  | deviceLogin call credentials =>
    obtain ⟨hguard, hs⟩ := Option.ite_none_left_eq_some.1 hs
    obtain ⟨-, hfresh⟩ := not_or.1 hguard
    cases hs
    have hissued := h.issue credentials.refreshToken
    refine ⟨⟨_, hissued.goto trivial (by rintro _ ⟨⟩) ?_⟩, .same rfl (by decide)⟩
    rintro token ⟨⟩
    refine ⟨List.mem_cons_self, fun hold => hfresh (h.issued _ hold), ?_⟩
    intro j c' hget' _ hpending
    exact hfresh (h.pending j c' hget' _ hpending).1
  | read call =>
    obtain ⟨c, hget, hs⟩ := Option.bind_eq_some_iff.1 hs
    exact h.readStored hget hs
  | disconnect call =>
    obtain ⟨-, hs⟩ := Option.ite_none_left_eq_some.1 hs
    split_ifs at hs with hfind <;> cases hs
    · exact ⟨⟨_, h.goto_plain trivial (by rintro _ ⟨⟩) rfl⟩, .same rfl (by decide)⟩
    · refine ⟨⟨_, h⟩, fun _ _ htoken => htoken, fun hnone _ => hnone, fun _ => ?_, by rintro ⟨⟩⟩
      have hnone := findChatgptConnection_eq_none.1 (Option.not_isSome_iff_eq_none.1 hfind)
      intro c hc
      by_contra hne
      obtain ⟨idx, hidx⟩ := List.mem_iff_getElem?.1 hc
      have hfirst := h.oneHolder idx c hidx (Option.isSome_iff_ne_none.2 hne)
      rw [List.findIdx?_eq_none_iff.2 hnone] at hfirst
      cases hfirst
  | upsert call =>
    obtain ⟨c, hget, hs⟩ := Option.bind_eq_some_iff.1 hs
    obtain ⟨hfresh, hclaim⟩ := hcond c hget
    exact h.upsert hcipher hget hfresh hclaim hs

/-! ## Runs -/

theorem disconnectedSince_append {tr : List (WorkersStep × WorkersOutput)} {i : WorkersStep}
    (h : DisconnectedSince (tr ++ [(i, o)])) : o = .disconnected ∨ DisconnectedSince tr ∧ o ≠ .loggedIn := by
  obtain ⟨xs, x, ys, heq, hx, hys⟩ := h
  rcases Machine.snoc_eq_split heq with ⟨-, rfl, -⟩ | ⟨zs, rfl, rfl⟩
  · exact .inl hx
  · refine .inr ⟨⟨xs, x, zs, rfl, hx, fun y hy => hys y (List.mem_append_left _ hy)⟩, ?_⟩
    exact hys (i, o) (List.mem_append_right _ (List.mem_singleton.2 rfl))

theorem SubscriptionWorld.Initial.forward (h : w.Initial) : Forward cipher w ∅ where
  oneHolder := oneHolder_of_none h.unconnected
  held _ htoken := not_holds_of_unconnected h.unconnected htoken
  consumed token htoken := by
    rw [h.consumed] at htoken
    cases htoken
  issued _ htoken := htoken.elim
  asked j c hget := by
    rw [h.calls] at hget
    cases hget
  known j c hget := by
    rw [h.calls] at hget
    cases hget
  pending j c hget := by
    rw [h.calls] at hget
    cases hget
  distinct j j' c c' hget := by
    rw [h.calls] at hget
    cases hget

/-- The invariant, and that there are no credentials after a disconnection, along a run. -/
theorem forward_run (hcipher : cipher.Faithful) {w₀ : SubscriptionWorld} {tr : List (WorkersStep × WorkersOutput)}
    (h₀ : w₀.Initial) (hrun : (workersMachine cipher).RunIn Unraced w₀ tr w) :
    (∃ published, Forward cipher w published) ∧ (DisconnectedSince tr → w.stored.Unconnected) := by
  refine hrun.traceInvariant (I := fun tr w => (∃ published, Forward cipher w published) ∧
    (DisconnectedSince tr → w.stored.Unconnected)) ?_ ⟨⟨_, h₀.forward⟩, fun _ => h₀.unconnected⟩
  rintro tr w i w' o hcond ⟨⟨published, h⟩, hnone⟩ hs
  obtain ⟨hforward, hkeeps⟩ := h.step hcipher hcond hs
  refine ⟨hforward, fun hsince => ?_⟩
  rcases disconnectedSince_append hsince with ho | ⟨hbefore, hne⟩
  · exact hkeeps.disconnected ho
  · exact hkeeps.unconnected (hnone hbefore) hne

/-- **Credentials only move forward**: from a configuration without credentials, in every run whose handlers
    write over what they have read and whose submissions claim the stored credentials once, no step stores
    a consumed refresh token that was not stored before it, there are no credentials from a disconnection to
    the next login, and the write of a refresh or of a status leaves what an administrator has submitted. -/
theorem credentialsMoveForward (hcipher : cipher.Faithful) {w₀ : SubscriptionWorld}
    {tr : List (WorkersStep × WorkersOutput)} {i : WorkersStep} (h₀ : w₀.Initial)
    (hrun : (workersMachine cipher).RunIn Unraced w₀ tr w) (hcond : Unraced w i)
    (hs : (workersMachine cipher).step w i = some (w', o)) :
    (∀ token ∈ w.consumed, w'.stored.Holds cipher token → w.stored.Holds cipher token) ∧
      (DisconnectedSince (tr ++ [(i, o)]) → w'.stored.Unconnected) ∧
      (o.refreshesOrMarks → w'.stored.settings = w.stored.settings) := by
  obtain ⟨⟨published, h⟩, -⟩ := forward_run hcipher h₀ hrun
  obtain ⟨-, hkeeps⟩ := h.step hcipher hcond hs
  exact ⟨hkeeps.tokens, (forward_run hcipher h₀ (.snoc hrun hcond hs)).2, hkeeps.settings⟩

end

namespace Sample

def refreshedCredentials : Credentials :=
  ⟨.lit "access-2", .lit "refresh-2", none, .lit "account", none, none, 9000, 4000⟩

def sealing : CredentialCipher where
  encrypt c := if c = credentials then .lit "first" else if c = refreshedCredentials then .lit "second" else .lit "other"
  decrypt t :=
    if t = .lit "first" then some (some credentials) else if t = .lit "second" then some (some refreshedCredentials) else none

theorem sealing_faithful : sealing.Faithful := by
  intro c c' h
  by_cases hc : c = credentials
  · rw [hc, show sealing.decrypt (sealing.encrypt credentials) = some (some credentials) by decide] at h
    rw [hc, Option.some.inj (Option.some.inj h)]
  · by_cases hc' : c = refreshedCredentials
    · rw [hc', show sealing.decrypt (sealing.encrypt refreshedCredentials) = some (some refreshedCredentials) by decide] at h
      rw [hc', Option.some.inj (Option.some.inj h)]
    · simp [sealing, hc, hc'] at h

def subscriptionWorld : SubscriptionWorld := ⟨openAIConfig, .empty, [], []⟩

theorem subscriptionWorld_initial : subscriptionWorld.Initial := ⟨by decide, rfl, rfl⟩

end Sample

/-- A refresh stores its token, and a disconnection returns. -/
theorem credentialsMoveForward_sample : ∃ (tr : List (WorkersStep × WorkersOutput)) (w w' : SubscriptionWorld)
    (i : WorkersStep) (o : WorkersOutput),
    o = .disconnected ∧ w.consumed = [.lit "refresh"] ∧ w.stored.Holds Sample.sealing (.lit "refresh-2") ∧
      (∀ token ∈ w.consumed, w'.stored.Holds Sample.sealing token → w.stored.Holds Sample.sealing token) ∧
      (DisconnectedSince (tr ++ [(i, o)]) → w'.stored.Unconnected) ∧
      (o.refreshesOrMarks → w'.stored.settings = w.stored.settings) := by
  obtain ⟨⟨tr, w⟩, hm, hconsumed, hholds, hcond, ⟨w', o⟩, hs, ho⟩ :
      ∃ r ∈ (workersMachine Sample.sealing).exec Unraced Sample.subscriptionWorld
        [.deviceLogin 0 Sample.credentials, .read 0, .upsert 0, .getValid 1 0 0 4000, .lock 1 4000,
          .answer 1 (.ok Sample.refreshedCredentials) true, .upsert 1, .disconnect 2],
        r.2.consumed = [.lit "refresh"] ∧ r.2.stored.Holds Sample.sealing (.lit "refresh-2") ∧
          Unraced r.2 (.upsert 2) ∧
          ∃ r' ∈ (workersMachine Sample.sealing).step r.2 (.upsert 2), r'.2 = .disconnected := by
    decide +kernel
  exact ⟨tr, w, w', .upsert 2, o, ho, hconsumed, hholds, credentialsMoveForward Sample.sealing_faithful
    Sample.subscriptionWorld_initial (Machine.runIn_of_exec hm) hcond hs⟩

/-- **A submission that has read the configuration before a refresh stores the consumed token again.** -/
theorem not_credentialsMoveForward : ¬ ∀ (cipher : CredentialCipher) (w₀ w w' : SubscriptionWorld)
    (tr : List (WorkersStep × WorkersOutput)) (i : WorkersStep) (o : WorkersOutput), cipher.Faithful → w₀.Initial →
    (workersMachine cipher).Run w₀ tr w → (workersMachine cipher).step w i = some (w', o) →
    ∀ token ∈ w.consumed, w'.stored.Holds cipher token → w.stored.Holds cipher token := by
  intro h
  obtain ⟨⟨tr, w⟩, hm, hconsumed, hnot, ⟨w', o⟩, hs, hholds⟩ :
      ∃ r ∈ (workersMachine Sample.sealing).exec (fun _ _ => True) Sample.subscriptionWorld
        [.deviceLogin 0 Sample.credentials, .read 0, .upsert 0, .getValid 1 0 0 4000, .lock 1 4000,
          .updateConfig 2 (Sample.submitUrl chatgptCodexBaseUrl), .answer 1 (.ok Sample.refreshedCredentials) true, .upsert 1],
        .lit "refresh" ∈ r.2.consumed ∧ ¬ r.2.stored.Holds Sample.sealing (.lit "refresh") ∧
          ∃ r' ∈ (workersMachine Sample.sealing).step r.2 (.upsert 2),
            r'.1.stored.Holds Sample.sealing (.lit "refresh") := by
    decide +kernel
  exact hnot (h _ _ w w' tr (.upsert 2) o Sample.sealing_faithful Sample.subscriptionWorld_initial
    (Machine.runIn_of_exec hm) hs _ hconsumed hholds)

end TideBot
