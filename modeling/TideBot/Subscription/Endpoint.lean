/-
  Where the tokens of the subscription go, and what the settings page shows of them.

  A request to a connection takes its URL and its configuration by index; for the auth type of the
  subscription the access token is attached, refreshed if it is about to expire.  A login gives the
  connection the Codex URL.  A submission of the settings gives every connection that claims the auth type
  the stored credentials, and leaves it the URL that was submitted.
-/
import TideBot.Lib.Machine
import TideBot.Lib.Mapping
import TideBot.Subscription.Config

namespace TideBot

open Lib

/-- `_redact_openai_config` -/
def OpenAIConfig.redacted (s : OpenAIConfig) : OpenAIConfig :=
  { s with configs := byIndex (s.indexed.map Connection.redact) }

/-- `get_config` -/
def OpenAIConfig.getConfig (s : OpenAIConfig) : OpenAIConfig := s.redacted

/-- The reply of `update_config`. -/
def OpenAIConfig.updateReply (s : OpenAIConfig) (form : OpenAIConfigForm) : Option OpenAIConfig :=
  (s.updateConfig form).map OpenAIConfig.redacted

def OpenAIConfig.withConfigs (s : OpenAIConfig) : Option (List Connection) → OpenAIConfig
  | none => s
  | some indexed => s.upsert (.configs indexed)

/-- `_set_chatgpt_status('reconnect_required', error)` -/
def OpenAIConfig.reconnectRequired (cipher : CredentialCipher) (s : OpenAIConfig) (error : Text) : OpenAIConfig :=
  s.withConfigs (s.setChatgptStatus cipher (.lit "reconnect_required") (some error))

/-- `get_valid_chatgpt_credentials`, by itself; `now` and `now'` are the two readings of the clock, `answer`
    is the provider's to a refresh. -/
def OpenAIConfig.getValidCredentials (cipher : CredentialCipher) (s : OpenAIConfig) (now now' : ℚ)
    (answer : Except Text Credentials) (config : Connection) : OpenAIConfig × Except Text Credentials :=
  match decryptCredentials cipher config.credentials with
  | .error error => (s, .error error)
  | .ok own =>
    if credentialsNeedRefresh now own then
      match s.refreshPlan cipher now' own with
      | .reconnect error => (s.reconnectRequired cipher error, .error error)
      | .valid credentials => (s, .ok credentials)
      | .ask _ => match answer with
        | .error error => (s.reconnectRequired cipher error, .error error)
        | .ok credentials => match s.refreshUpsert cipher credentials with
          | none => (s, .error (.lit "The ChatGPT subscription must be reconnected."))
          | some indexed => (s.upsert (.configs indexed), .ok credentials)
    else (s, .ok own)

/-! ## Sequences of requests -/

inductive SubscriptionStep where
  | updateConfig (form : OpenAIConfigForm)
  /-- A device login that the provider has confirmed. -/
  | deviceLogin (credentials : Credentials)
  /-- A request to the connection `idx`, on behalf of some user. -/
  | request (idx : ℕ) (now now' : ℚ) (answer : Except Text Credentials)
  /-- `refresh_chatgpt_subscription_models`, up to its request of the models. -/
  | refreshModels (now now' : ℚ) (answer : Except Text Credentials)
  | disconnect

inductive SubscriptionOutput where
  | raised
  | done
  | config (reply : OpenAIConfig)
  /-- A request to this URL, with the access token of the subscription if there is one. -/
  | sent (url : Text) (accessToken : Option Text)

/-- `get_openai_connection` and `get_headers_and_cookies`. -/
def OpenAIConfig.request (cipher : CredentialCipher) (s : OpenAIConfig) (idx : ℕ) (now now' : ℚ)
    (answer : Except Text Credentials) : OpenAIConfig × SubscriptionOutput :=
  match s.baseUrls[idx]?, s.keys[idx]?, s.indexed[idx]? with
  | some url, some _, some config =>
    if config.isChatgpt then
      match s.getValidCredentials cipher now now' answer config with
      | (s', .error _) => (s', .raised)
      | (s', .ok credentials) => (s', .sent url (some credentials.accessToken))
    else (s, .sent url none)
  | _, _, _ => (s, .raised)

/-- One request after the other. -/
def subscriptionMachine (cipher : CredentialCipher) : Machine OpenAIConfig SubscriptionStep SubscriptionOutput where
  step s
    | .updateConfig form => match s.updateConfig form with
      | none => some (s, .raised)
      | some s' => some (s', .config s'.redacted)
    | .deviceLogin credentials => some (s.persistChatgptCredentials cipher credentials, .done)
    | .request idx now now' answer => some (s.request cipher idx now now' answer)
    | .refreshModels now now' answer => match s.findChatgptConnection with
      | none => some (s, .raised)
      | some (_, connection) => match s.getValidCredentials cipher now now' answer connection with
        | (s', .error _) => some (s', .raised)
        | (s', .ok _) => some (s', .done)
    | .disconnect => some ((s.disconnect).getD s, .done)

/-! ## The URLs of the credentials -/

/-- Where the credentials are, the URL is that of Codex. -/
def CodexOnly (baseUrls : List Text) (indexed : List Connection) : Prop :=
  ∀ (idx : ℕ) (url : Text) (c : Connection), baseUrls[idx]? = some url → indexed[idx]? = some c →
    c.credentials.isSome → url = chatgptCodexBaseUrl

/-- Nobody has logged in. -/
def OpenAIConfig.Unconnected (s : OpenAIConfig) : Prop := ∀ c ∈ s.indexed, c.credentials = none

instance (s : OpenAIConfig) : Decidable s.Unconnected :=
  inferInstanceAs (Decidable (∀ c ∈ s.indexed, c.credentials = none))

/-- The subscription's connection has credentials to give. -/
def OpenAIConfig.hasCredentials (s : OpenAIConfig) : Bool :=
  s.findChatgptConnection.any fun found => (found.2.credentials.getD .null).truthy

/-- **The condition on a step**: while there are credentials, a submission gives every connection that claims
    the auth type the Codex URL. -/
def SubmitsCodex (s : OpenAIConfig) : SubscriptionStep → Prop
  | .updateConfig form => s.hasCredentials → ∀ e ∈ form.baseUrls.zip (form.indexed.getD []),
      e.2.isChatgpt → e.1 = chatgptCodexBaseUrl
  | .deviceLogin _ | .request .. | .refreshModels .. | .disconnect => True

instance (s : OpenAIConfig) : (i : SubscriptionStep) → Decidable (SubmitsCodex s i)
  | .updateConfig _ => inferInstanceAs (Decidable (_ → ∀ _ ∈ _, _ → _))
  | .deviceLogin _ | .request .. | .refreshModels .. | .disconnect => inferInstanceAs (Decidable True)

section

variable {s s' : OpenAIConfig} {cipher : CredentialCipher} {c : Connection} {idx : ℕ} {baseUrls keys : List Text}
  {indexed submitted : List Connection} {form : OpenAIConfigForm} {credentials : Credentials} {now now' : ℚ}
  {answer : Except Text Credentials}

theorem indexed_all {enable : Option Bool} (h : indexed.length = baseUrls.length) :
    (OpenAIConfig.mk enable baseUrls keys (byIndex indexed)).indexed = indexed :=
  indexedOpenaiConfigs_byIndex h

theorem indexed_upsert_configs (h : indexed.length = s.baseUrls.length) :
    (s.upsert (.configs indexed)).indexed = indexed :=
  indexedOpenaiConfigs_byIndex h

@[simp] theorem redact_isChatgpt (c : Connection) : c.redact.isChatgpt = c.isChatgpt := by
  rw [Connection.isChatgpt, Connection.redact, Dict.get_erase_of_ne c (by decide), Connection.isChatgpt]

theorem credentials_setAll (c : Connection) {fields : List (Text × Json)}
    (h : ∀ f ∈ fields, f.1 ≠ chatgptPrivateCredentialsKey) : (c.setAll fields).credentials = c.credentials := by
  induction fields generalizing c with
  | nil => rfl
  | cons f fs ih =>
    obtain ⟨hf, hfs⟩ := List.forall_mem_cons.1 h
    show (Connection.setAll (c.set f.1 f.2) fs).credentials = c.credentials
    rw [ih _ hfs, Connection.credentials, Dict.get_set_of_ne c hf.symm, Connection.credentials]

/-- **The credentials of a merged connection are those that were stored**, and it claims the auth type. -/
theorem credentials_mergeConnection {stored : Option Connection} {x : Json}
    (h : (mergeConnection stored c).credentials = some x) :
    c.isChatgpt ∧ x.truthy ∧ ∃ st, stored = some st ∧ st.credentials = some x := by
  have hredacted : c.redact.credentials = none := Dict.get_erase_self c _
  unfold mergeConnection at h
  dsimp only at h
  split_ifs at h with hchatgpt
  · rw [redact_isChatgpt] at hchatgpt
    refine ⟨hchatgpt, ?_⟩
    rw [credentials_setAll _ (by decide)] at h
    rcases stored with _ | st
    · rw [hredacted] at h
      cases h
    · rcases hst : st.credentials with _ | y <;> simp only [hst] at h
      · rw [hredacted] at h
        cases h
      · split_ifs at h with hy
        · rw [Connection.credentials, Dict.get_set_of_ne _ (by decide), Dict.get_set_self] at h
          obtain rfl := Option.some.inj h
          exact ⟨hy, st, rfl, hst⟩
        · rw [hredacted] at h
          cases h
  · rw [hredacted] at h
    cases h

theorem length_form_indexed (h : form.indexed = some submitted) : submitted.length = form.baseUrls.length := by
  rw [length_of_mapM h, indexedOpenaiConfigs, List.length_map, List.length_zipIdx]

theorem updateConfig_spec (h : s.updateConfig form = some s') : ∃ submitted, form.indexed = some submitted ∧
    s'.baseUrls = form.baseUrls ∧
    s'.indexed = submitted.map (mergeConnection (s.findChatgptConnection.map Prod.snd)) := by
  obtain ⟨merged, hmerged, rfl⟩ := Option.map_eq_some_iff.1 h
  obtain ⟨submitted, hsubmitted, rfl⟩ := Option.map_eq_some_iff.1 hmerged
  have hlen := length_form_indexed hsubmitted
  exact ⟨submitted, hsubmitted, rfl, indexed_all (by rwa [List.length_map])⟩

theorem credentials_merged {x : Json}
    (h : (mergeConnection (s.findChatgptConnection.map Prod.snd) c).credentials = some x) :
    c.isChatgpt ∧ s.hasCredentials ∧ ∃ st ∈ s.indexed, st.credentials = some x := by
  obtain ⟨hchatgpt, htruthy, st, hst, hstx⟩ := credentials_mergeConnection h
  obtain ⟨found, hfound, rfl⟩ := Option.map_eq_some_iff.1 hst
  refine ⟨hchatgpt, ?_, found.2, List.mem_of_getElem? (findChatgptConnection_eq_some hfound).1, hstx⟩
  rw [OpenAIConfig.hasCredentials, hfound, Option.any_some, hstx]
  exact htruthy

/-- **A submission**, under the condition. -/
theorem codexOnly_updateConfig (hcodex : SubmitsCodex s (.updateConfig form)) (h : s.updateConfig form = some s') :
    CodexOnly s'.baseUrls s'.indexed := by
  obtain ⟨submitted, hsubmitted, hurls, hindexed⟩ := updateConfig_spec h
  rw [hurls, hindexed]
  intro idx url c hurl hc hcredentials
  obtain ⟨c', hc', rfl⟩ := Option.map_eq_some_iff.1 ((List.getElem?_map ..).symm.trans hc)
  obtain ⟨x, hx⟩ := Option.isSome_iff_exists.1 hcredentials
  obtain ⟨hchatgpt, hhas, -⟩ := credentials_merged hx
  refine hcodex hhas (url, c') ?_ hchatgpt
  rw [hsubmitted]
  exact List.mem_iff_getElem?.2 ⟨idx, by rw [List.getElem?_zip_eq_some]; exact ⟨hurl, hc'⟩⟩

/-- **A login** puts the credentials where the URL is that of Codex. -/
theorem codexOnly_persist (h : CodexOnly s.baseUrls s.indexed) :
    CodexOnly (s.persistChatgptCredentials cipher credentials).baseUrls
      (s.persistChatgptCredentials cipher credentials).indexed := by
  have hlen := length_indexed s
  unfold OpenAIConfig.persistChatgptCredentials
  rcases hfind : s.findChatgptConnection with _ | ⟨found, existing⟩
  · dsimp only
    rw [indexed_all (by simp)]
    intro idx url c hurl hc hcredentials
    rcases Nat.lt_or_ge idx s.baseUrls.length with hlt | hge
    · rw [List.getElem?_append_left hlt] at hurl
      rw [List.getElem?_append_left (by omega)] at hc
      exact h idx url c hurl hc hcredentials
    · rw [List.getElem?_append_right hge] at hurl
      exact List.mem_singleton.1 (List.mem_of_getElem? hurl)
  · dsimp only
    rw [indexed_all (by simp)]
    intro idx url c hurl hc hcredentials
    rw [List.getElem?_set] at hurl hc
    split_ifs at hurl hc
    · exact (Option.some.inj hurl).symm
    · exact h idx url c hurl hc hcredentials

/-- One configuration is replaced; it has no credentials that it had not before. -/
theorem codexOnly_set {c' : Connection} (h : CodexOnly baseUrls indexed) (hc : indexed[idx]? = some c)
    (hcredentials : c'.credentials.isSome → c.credentials.isSome) : CodexOnly baseUrls (indexed.set idx c') := by
  intro idx' url x hurl hx hsome
  rw [List.getElem?_set] at hx
  split_ifs at hx with heq hlt
  · obtain rfl := Option.some.inj hx
    rw [← heq] at hurl
    exact h idx url c hurl hc (hcredentials hsome)
  · exact h idx' url x hurl hx hsome

/-- **A disconnection** moves the connections behind together. -/
theorem codexOnly_disconnect (h : CodexOnly s.baseUrls s.indexed) (hs : s.disconnect = some s') :
    CodexOnly s'.baseUrls s'.indexed := by
  obtain ⟨⟨found, c⟩, hfind, rfl⟩ := Option.map_eq_some_iff.1 hs
  obtain ⟨-, -, hlt⟩ := findChatgptConnection_eq_some hfind
  rw [indexed_all (by simp [List.length_eraseIdx, hlt])]
  intro idx url x hurl hx hsome
  rw [List.getElem?_eraseIdx] at hurl hx
  split_ifs at hurl hx
  · exact h idx url x hurl hx hsome
  · exact h (idx + 1) url x hurl hx hsome

theorem credentials_of_decrypt (h : decryptCredentials cipher c.credentials = .ok credentials) :
    c.credentials.isSome := by
  rcases hc : c.credentials with _ | x
  · rw [hc] at h
    cases h
  · rfl

theorem codexOnly_reconnectRequired (h : CodexOnly s.baseUrls s.indexed) (error : Text) :
    CodexOnly (s.reconnectRequired cipher error).baseUrls (s.reconnectRequired cipher error).indexed := by
  unfold OpenAIConfig.reconnectRequired
  rcases hs : s.setChatgptStatus cipher (.lit "reconnect_required") (some error) with _ | indexed
  · exact h
  · obtain ⟨⟨found, c⟩, hfind, rfl⟩ := Option.map_eq_some_iff.1 hs
    obtain ⟨hget, -, -⟩ := findChatgptConnection_eq_some hfind
    rw [OpenAIConfig.withConfigs, indexed_upsert_configs (by simp)]
    refine codexOnly_set h hget ?_
    rw [Connection.credentials, Dict.get_set_of_ne c (by decide)]
    exact id

theorem codexOnly_refreshUpsert (h : CodexOnly s.baseUrls s.indexed) {own credentials' : Credentials}
    (hplan : s.refreshPlan cipher now own = .ask credentials') (hs : s.refreshUpsert cipher credentials = some indexed) :
    CodexOnly s.baseUrls (s.upsert (.configs indexed)).indexed := by
  obtain ⟨⟨found, c⟩, hfind, rfl⟩ := Option.map_eq_some_iff.1 hs
  obtain ⟨hget, -, -⟩ := findChatgptConnection_eq_some hfind
  rw [indexed_upsert_configs (by simp)]
  refine codexOnly_set h hget ?_
  intro _
  simp only [OpenAIConfig.refreshPlan, hfind] at hplan
  rcases hdecrypt : decryptCredentials cipher c.credentials with error | stored
  · rw [hdecrypt] at hplan
    cases hplan
  · exact credentials_of_decrypt hdecrypt

/-- **A request for credentials**: what it leaves, and that it gives none of a connection that has none. -/
theorem codexOnly_getValidCredentials (h : CodexOnly s.baseUrls s.indexed) {config : Connection}
    {result : Except Text Credentials}
    (hresult : s.getValidCredentials cipher now now' answer config = (s', result)) :
    CodexOnly s'.baseUrls s'.indexed ∧ (result.isOk → config.credentials.isSome) := by
  unfold OpenAIConfig.getValidCredentials at hresult
  rcases hown : decryptCredentials cipher config.credentials with error | own
  · rw [hown] at hresult
    obtain ⟨rfl, rfl⟩ := Prod.mk.inj hresult
    exact ⟨h, by rintro ⟨⟩⟩
  · refine ⟨?_, fun _ => credentials_of_decrypt hown⟩
    rw [hown] at hresult
    dsimp only at hresult
    split_ifs at hresult
    · rcases hplan : s.refreshPlan cipher now' own with error | credentials | asked <;> rw [hplan] at hresult
      · obtain ⟨rfl, -⟩ := Prod.mk.inj hresult
        exact codexOnly_reconnectRequired h error
      · obtain ⟨rfl, -⟩ := Prod.mk.inj hresult
        exact h
      · rcases answer with error | credentials
        · obtain ⟨rfl, -⟩ := Prod.mk.inj hresult
          exact codexOnly_reconnectRequired h error
        · dsimp only at hresult
          rcases hupsert : s.refreshUpsert cipher credentials with _ | indexed <;> rw [hupsert] at hresult
          · obtain ⟨rfl, -⟩ := Prod.mk.inj hresult
            exact h
          · obtain ⟨rfl, -⟩ := Prod.mk.inj hresult
            have hrefreshed := codexOnly_refreshUpsert h hplan hupsert
            exact hrefreshed
    · obtain ⟨rfl, -⟩ := Prod.mk.inj hresult
      exact h

/-- A token is sent to the URL of Codex only. -/
def SubscriptionOutput.ToCodex : SubscriptionOutput → Prop
  | .sent url accessToken => accessToken.isSome → url = chatgptCodexBaseUrl
  | .raised | .done | .config _ => True

variable {o : SubscriptionOutput}

/-- **A request to a connection.** -/
theorem codexOnly_request (h : CodexOnly s.baseUrls s.indexed)
    (hrequest : s.request cipher idx now now' answer = (s', o)) :
    CodexOnly s'.baseUrls s'.indexed ∧ o.ToCodex := by
  unfold OpenAIConfig.request at hrequest
  split at hrequest
  · rename_i url _ config hurl _ hconfig
    split_ifs at hrequest
    · rcases hvalid : s.getValidCredentials cipher now now' answer config with ⟨s'', error | credentials⟩
      · rw [hvalid] at hrequest
        obtain ⟨rfl, rfl⟩ := Prod.mk.inj hrequest
        exact ⟨(codexOnly_getValidCredentials h hvalid).1, trivial⟩
      · rw [hvalid] at hrequest
        obtain ⟨rfl, rfl⟩ := Prod.mk.inj hrequest
        obtain ⟨hleft, hgiven⟩ := codexOnly_getValidCredentials h hvalid
        exact ⟨hleft, fun _ => h idx url config hurl hconfig (hgiven rfl)⟩
    · obtain ⟨rfl, rfl⟩ := Prod.mk.inj hrequest
      exact ⟨h, by rintro ⟨⟩⟩
  · obtain ⟨rfl, rfl⟩ := Prod.mk.inj hrequest
    exact ⟨h, trivial⟩

/-- **One step.** -/
theorem codexOnly_step {i : SubscriptionStep} (hcodex : SubmitsCodex s i) (h : CodexOnly s.baseUrls s.indexed)
    (hs : (subscriptionMachine cipher).step s i = some (s', o)) : CodexOnly s'.baseUrls s'.indexed ∧ o.ToCodex := by
  cases i with
  | updateConfig form =>
    dsimp only [subscriptionMachine] at hs
    rcases hupdate : s.updateConfig form with _ | s''
    · rw [hupdate] at hs
      cases hs
      exact ⟨h, trivial⟩
    · rw [hupdate] at hs
      cases hs
      exact ⟨codexOnly_updateConfig hcodex hupdate, trivial⟩
  | deviceLogin credentials =>
    cases hs
    exact ⟨codexOnly_persist h, trivial⟩
  | request idx now now' answer => exact codexOnly_request h (Option.some.inj hs)
  | refreshModels now now' answer =>
    dsimp only [subscriptionMachine] at hs
    rcases hfind : s.findChatgptConnection with _ | ⟨found, c⟩
    · rw [hfind] at hs
      cases hs
      exact ⟨h, trivial⟩
    · rw [hfind] at hs
      dsimp only at hs
      rcases hvalid : s.getValidCredentials cipher now now' answer c with ⟨s'', error | credentials⟩ <;>
      · rw [hvalid] at hs
        cases hs
        exact ⟨(codexOnly_getValidCredentials h hvalid).1, trivial⟩
  | disconnect =>
    cases hs
    rcases hdisconnect : s.disconnect with _ | s'
    · exact ⟨h, trivial⟩
    · exact ⟨codexOnly_disconnect h hdisconnect, trivial⟩

/-! ## The credentials and the replies -/

/-- The two are equal but for their private credentials, which both have or both lack. -/
def Connection.Alike (c c' : Connection) : Prop :=
  c.redact = c'.redact ∧ (c.credentials.getD .null).truthy = (c'.credentials.getD .null).truthy

/-- The configurations are equal but for the private credentials. -/
structure OpenAIConfig.Alike (s s' : OpenAIConfig) : Prop where
  enable : s.enable = s'.enable
  baseUrls : s.baseUrls = s'.baseUrls
  keys : s.keys = s'.keys
  configs : ∀ key, Option.Rel Connection.Alike (s.configs.get key) (s'.configs.get key)

theorem Connection.Alike.rfl : c.Alike c := ⟨Eq.refl _, Eq.refl _⟩

theorem Connection.Alike.isChatgpt {c' : Connection} (h : c.Alike c') : c.isChatgpt = c'.isChatgpt := by
  rw [← redact_isChatgpt c, h.1, redact_isChatgpt]

theorem Connection.Alike.get {c' : Connection} (h : c.Alike c') {key : Text} (hkey : key ≠ chatgptPrivateCredentialsKey) :
    Dict.get c key = Dict.get c' key := by
  rw [← Dict.get_erase_of_ne c hkey, ← Dict.get_erase_of_ne c' hkey]
  exact congrArg (Dict.get · key) h.1

theorem OpenAIConfig.Alike.forall₂ (h : s.Alike s') : List.Forall₂ Connection.Alike s.indexed s'.indexed := by
  unfold OpenAIConfig.indexed indexedOpenaiConfigs
  rw [h.baseUrls, List.forall₂_map_left_iff, List.forall₂_map_right_iff, List.forall₂_same]
  rintro ⟨url, idx⟩ _
  dsimp only
  have hkey := h.configs (indexKey idx)
  have hurl := h.configs url
  generalize s.configs.get (indexKey idx) = x, s'.configs.get (indexKey idx) = x' at hkey
  generalize s.configs.get url = y, s'.configs.get url = y' at hurl
  rcases hkey with hkey | _
  · exact hkey
  · rcases hurl with hurl | _
    · exact hurl
    · exact .rfl

theorem map_snd_findChatgptConnection (s : OpenAIConfig) :
    s.findChatgptConnection.map Prod.snd = s.indexed.find? Connection.isChatgpt := by
  rw [List.find?_eq_bind_findIdx?_getElem?, OpenAIConfig.findChatgptConnection, Option.map_bind]
  refine congrArg _ (funext fun idx => ?_)
  rw [Function.comp_apply, Option.map_map]
  exact Option.map_id'

theorem alike_find {l l' : List Connection} (h : List.Forall₂ Connection.Alike l l') :
    Option.Rel Connection.Alike (l.find? Connection.isChatgpt) (l'.find? Connection.isChatgpt) := by
  induction h with
  | nil => exact .none
  | @cons c c' l l' hc _ ih =>
    rw [List.find?_cons, List.find?_cons, ← hc.isChatgpt]
    cases c.isChatgpt
    · exact ih
    · exact .some hc

theorem redact_setAll (c : Connection) {fields : List (Text × Json)}
    (h : ∀ f ∈ fields, f.1 ≠ chatgptPrivateCredentialsKey) : (c.setAll fields).redact = c.redact.setAll fields := by
  induction fields generalizing c with
  | nil => rfl
  | cons f fs ih =>
    obtain ⟨hf, hfs⟩ := List.forall_mem_cons.1 h
    show (Connection.setAll (c.set f.1 f.2) fs).redact = Connection.setAll (c.redact.set f.1 f.2) fs
    rw [ih _ hfs, Connection.redact, Dict.erase_set_of_ne c f.2 hf, Connection.redact]

/-- **A merged connection shows nothing of the credentials**, except whether there are some. -/
theorem redact_mergeConnection {stored stored' : Option Connection} (h : Option.Rel Connection.Alike stored stored')
    (c : Connection) : (mergeConnection stored c).redact = (mergeConnection stored' c).redact := by
  rcases h with @⟨st, st', hst⟩ | _
  swap
  · rfl
  unfold mergeConnection
  dsimp only
  split_ifs
  · rw [redact_setAll _ (by decide), redact_setAll _ (by decide)]
    refine congrArg (Connection.setAll · _) ?_
    have hne : chatgptPublicStatusKey ≠ chatgptPrivateCredentialsKey := by decide
    have hstatus := hst.get hne
    have htruthy := hst.2
    rcases hc : st.credentials with _ | x <;> rcases hc' : st'.credentials with _ | x' <;>
      simp only [hc, hc', Option.getD_none, Option.getD_some] at htruthy ⊢
    · rw [← htruthy]
      rfl
    · rw [htruthy]
      rfl
    · rw [htruthy, hstatus]
      split_ifs
      · simp only [Connection.redact, Dict.erase_set_of_ne _ _ hne, Dict.erase_set_self, Dict.get_set_of_ne _ hne]
      · rfl
  · rfl

/-- **What `get_config` replies** does not depend on the private credentials. -/
theorem getConfig_alike (h : s.Alike s') : s.getConfig = s'.getConfig := by
  have hredact : s.indexed.map Connection.redact = s'.indexed.map Connection.redact := by
    refine List.forall₂_eq_eq_eq ▸ ?_
    rw [List.forall₂_map_left_iff, List.forall₂_map_right_iff]
    exact h.forall₂.imp fun _ _ hc => hc.1
  unfold OpenAIConfig.getConfig OpenAIConfig.redacted
  rw [hredact, h.enable, h.baseUrls, h.keys]

/-- **What `update_config` replies** does not depend on the private credentials. -/
theorem updateReply_alike (h : s.Alike s') (form : OpenAIConfigForm) : s.updateReply form = s'.updateReply form := by
  unfold OpenAIConfig.updateReply OpenAIConfig.updateConfig mergeChatgptPrivateConfig
  rw [map_snd_findChatgptConnection, map_snd_findChatgptConnection, Option.map_map, Option.map_map, Option.map_map,
    Option.map_map]
  rcases hsubmitted : form.indexed with _ | submitted
  · rfl
  have hlen := length_form_indexed hsubmitted
  simp only [Option.map_some, Function.comp_apply, OpenAIConfig.redacted]
  rw [indexed_all (by rwa [List.length_map]), indexed_all (by rwa [List.length_map]), List.map_map, List.map_map]
  have hmerged : ∀ c ∈ submitted, (Connection.redact ∘ mergeConnection (s.indexed.find? Connection.isChatgpt)) c =
      (Connection.redact ∘ mergeConnection (s'.indexed.find? Connection.isChatgpt)) c :=
    fun c _ => redact_mergeConnection (alike_find h.forall₂) c
  rw [List.map_congr_left hmerged]

/-! ## Runs -/

/-- **The tokens of the subscription go to Codex only**: from a configuration without credentials, in every run
    whose submissions give the connections that claim the auth type the Codex URL while there are credentials,
    the credentials are stored where the URL is that of Codex, tokens are sent to it alone, and the replies of
    `get_config` and `update_config` are the same for other credentials. -/
theorem tokensOnlyToCodex {t : OpenAIConfig} {tr : List (SubscriptionStep × SubscriptionOutput)}
    (h₀ : s.Unconnected) (hrun : (subscriptionMachine cipher).RunIn SubmitsCodex s tr t) :
    CodexOnly t.baseUrls t.indexed ∧ (∀ e ∈ tr, e.2.ToCodex) ∧
      ∀ t', t.Alike t' → t.getConfig = t'.getConfig ∧ ∀ form, t.updateReply form = t'.updateReply form := by
  have hstart : CodexOnly s.baseUrls s.indexed := by
    intro idx url c _ hc hsome
    rw [h₀ c (List.mem_of_getElem? hc)] at hsome
    cases hsome
  obtain ⟨hleft, hsent⟩ := hrun.safety (I := fun s => CodexOnly s.baseUrls s.indexed) (P := fun e => e.2.ToCodex)
    (fun s i s' o hcodex h hs => codexOnly_step hcodex h hs) hstart
  exact ⟨hleft, hsent, fun t' h => ⟨getConfig_alike h, updateReply_alike h⟩⟩

end

namespace Sample

def credentials : Credentials :=
  ⟨.lit "access", .lit "refresh", none, .lit "account", none, none, 4000, 0⟩

def cipher : CredentialCipher where
  encrypt _ := .lit "sealed"
  decrypt t := if t = .lit "sealed" then some (some credentials) else none

/-- A submission of one connection, of the subscription's auth type. -/
def submitUrl (url : Text) : OpenAIConfigForm :=
  ⟨some true, [url], [[]], ⟨[(indexKey 0, some (Dict.empty.set (.lit "auth_type") (.str chatgptAuthType)))], by decide⟩⟩

def openAIConfig : OpenAIConfig := ⟨some true, [], [], .empty⟩

end Sample

/-- The token that was sent, and where. -/
def SubscriptionOutput.token : SubscriptionOutput → Option (Text × Text)
  | .sent url (some accessToken) => some (url, accessToken)
  | .sent _ none | .raised | .done | .config _ => none

theorem SubscriptionOutput.ToCodex.url_eq {o : SubscriptionOutput} {url accessToken : Text} (h : o.ToCodex)
    (htoken : o.token = some (url, accessToken)) : url = chatgptCodexBaseUrl := by
  rcases o with _ | _ | _ | ⟨url', _ | _⟩
  case sent.some =>
    obtain ⟨rfl, -⟩ := Prod.mk.inj (Option.some.inj htoken)
    exact h rfl
  all_goals cases htoken

/-- A login, a submission that keeps the URL, and a request. -/
theorem tokensOnlyToCodex_sample :
    ∃ (tr : List (SubscriptionStep × SubscriptionOutput)) (t : OpenAIConfig),
      tr.filterMap (fun e => e.2.token) = [(chatgptCodexBaseUrl, .lit "access")] ∧ t.hasCredentials ∧
      CodexOnly t.baseUrls t.indexed ∧ (∀ e ∈ tr, e.2.ToCodex) ∧
      ∀ t', t.Alike t' → t.getConfig = t'.getConfig ∧ ∀ form, t.updateReply form = t'.updateReply form := by
  obtain ⟨⟨tr, t⟩, hm, hsent, hcredentials⟩ : ∃ r ∈ (subscriptionMachine Sample.cipher).exec SubmitsCodex
      Sample.openAIConfig [.deviceLogin Sample.credentials, .updateConfig (Sample.submitUrl chatgptCodexBaseUrl),
        .request 0 0 0 (.error [])],
      r.1.filterMap (fun e => e.2.token) = [(chatgptCodexBaseUrl, .lit "access")] ∧ r.2.hasCredentials := by
    decide +kernel
  exact ⟨tr, t, hsent, hcredentials, tokensOnlyToCodex (by decide) (Machine.runIn_of_exec hm)⟩

/-- **A submission moves the credentials to another URL**, and the next request sends the token there. -/
theorem not_tokensOnlyToCodex : ¬ ∀ cipher s tr t, s.Unconnected → (subscriptionMachine cipher).Run s tr t →
    CodexOnly t.baseUrls t.indexed ∧ ∀ e ∈ tr, e.2.ToCodex := by
  intro h
  obtain ⟨⟨tr, t⟩, hm, e, he, hsent⟩ : ∃ r ∈ (subscriptionMachine Sample.cipher).exec (fun _ _ => True)
      Sample.openAIConfig [.deviceLogin Sample.credentials, .updateConfig (Sample.submitUrl (.lit "https://other.example")),
        .request 0 0 0 (.error [])],
      ∃ e ∈ r.1, e.2.token = some (.lit "https://other.example", .lit "access") := by
    decide +kernel
  have hcodex := (h Sample.cipher Sample.openAIConfig tr t (by decide) (Machine.runIn_of_exec hm)).2 e he
  exact absurd (hcodex.url_eq hsent) (by decide)

end TideBot
