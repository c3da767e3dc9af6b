/-
  The OpenAI connections of `routers/openai.py`, and the ChatGPT subscription among them.

  A connection is spread over the base URLs, the keys and the configurations; the three belong together by
  index.  The connection of the subscription is the first whose configuration has its auth type; its
  configuration holds the credentials, encrypted.

  A handler reads the whole configuration and writes lists and maps back: `Config.upsert` of all four keys,
  or of the configurations alone.  What is written is here a function of what was read.  The configurations
  that the code has indexed are a list here; a configuration that is `None` is the empty one.
-/
import TideBot.Lib.PyJson

namespace TideBot

open Lib

/-! ## Credentials -/

def chatgptAuthType : Text := .lit "chatgpt_subscription"

def chatgptCodexBaseUrl : Text := .lit "https://chatgpt.com/backend-api/codex"

def chatgptTokenRefreshSkewSeconds : ℤ := 5 * 60

def chatgptPrivateCredentialsKey : Text := .lit "_chatgpt_oauth_credentials"

def chatgptPublicStatusKey : Text := .lit "chatgpt_oauth_status"

/-- What `credentials_from_token_response` makes of the provider's answer. -/
structure Credentials where
  accessToken : Text
  refreshToken : Text
  idToken : Option Text
  accountId : Text
  email : Option Text
  planType : Option Text
  expiresAt : ℤ
  lastRefresh : ℤ
deriving DecidableEq

/-- Encryption under the server's key. -/
structure CredentialCipher where
  /-- `encrypt_credentials`, whose random part is left out. -/
  encrypt : Credentials → Text
  /-- `_decrypt_data`.  Outer `none`: it raises; inner `none`: the value is no dictionary. -/
  decrypt : Text → Option (Option Credentials)

/-- `decrypt_credentials`, with the message of the error. -/
def decryptCredentials (cipher : CredentialCipher) (value : Option Json) : Except Text Credentials :=
  if (value.getD .null).truthy then
    match value with
    | some (.str t) => match cipher.decrypt t with
      | none => .error (.lit "The stored ChatGPT credentials could not be decrypted.")
      | some none => .error (.lit "The stored ChatGPT credentials are invalid.")
      | some (some credentials) => .ok credentials
    | _ => .error (.lit "The stored ChatGPT credentials could not be decrypted.")
  else .error (.lit "The ChatGPT subscription is not connected.")

def credentialsNeedRefresh (now : ℚ) (credentials : Credentials) : Bool :=
  (credentials.expiresAt : ℚ) ≤ now + chatgptTokenRefreshSkewSeconds

def optionalText : Option Text → Json
  | none => .null
  | some t => .str t

/-- `public_status`; without credentials, every field of theirs is `None`. -/
def publicStatus (credentials : Option Credentials) (state : Text) (error : Option Text) : Json :=
  .obj [(.lit "connected", .bool (state = .lit "connected")),
    (.lit "state", .str state),
    (.lit "account_id", optionalText (credentials.map (·.accountId))),
    (.lit "email", optionalText (credentials.bind (·.email))),
    (.lit "plan_type", optionalText (credentials.bind (·.planType))),
    (.lit "expires_at", (credentials.map fun c => Json.int c.expiresAt).getD .null),
    (.lit "last_refresh", (credentials.map fun c => Json.int c.lastRefresh).getD .null),
    (.lit "error", optionalText error)]

/-! ## Connections -/

/-- The configuration of a connection. -/
abbrev Connection := Dict Text Json

/-- `connection.update(fields)` -/
def Connection.setAll (c : Connection) (fields : List (Text × Json)) : Connection :=
  fields.foldl (fun c f => c.set f.1 f.2) c

def Connection.isChatgpt (c : Connection) : Bool :=
  ((c.get (.lit "auth_type")).getD .null).eqStr chatgptAuthType

/-- The private credentials, as they are stored. -/
def Connection.credentials (c : Connection) : Option Json := c.get chatgptPrivateCredentialsKey

/-- `connection.pop(CHATGPT_PRIVATE_CREDENTIALS_KEY, None)` -/
def Connection.redact (c : Connection) : Connection := c.erase chatgptPrivateCredentialsKey

/-- The four keys of the OpenAI configuration. -/
structure OpenAIConfig where
  enable : Option Bool
  baseUrls : List Text
  keys : List Text
  configs : Dict Text Connection
deriving DecidableEq

/-- `str(idx)` -/
def indexKey (idx : ℕ) : Text := .lit (Nat.repr idx)

/-- `_indexed_openai_configs`: by index, or else by URL. -/
def indexedOpenaiConfigs {ν : Type} (unset : ν) (baseUrls : List Text) (configs : Dict Text ν) : List ν :=
  baseUrls.zipIdx.map fun e => (configs.get (indexKey e.2)).getD ((configs.get e.1).getD unset)

theorem indexKey_injective : Function.Injective indexKey :=
  fun _ _ h => Nat.repr_injective (Text.lit_inj.1 h)

/-- A list of configurations, as it is stored. -/
def byIndex (indexed : List Connection) : Dict Text Connection :=
  ⟨indexed.zipIdx.map fun e => (indexKey e.2, e.1), by
    rw [List.map_map, show (Prod.fst ∘ fun e : Connection × ℕ => (indexKey e.2, e.1)) = indexKey ∘ Prod.snd from rfl,
      ← List.map_map, List.zipIdx_map_snd]
    exact (List.nodup_range' 1).map indexKey_injective⟩

def OpenAIConfig.indexed (s : OpenAIConfig) : List Connection :=
  indexedOpenaiConfigs Dict.empty s.baseUrls s.configs

/-- `_find_chatgpt_connection` -/
def OpenAIConfig.findChatgptConnection (s : OpenAIConfig) : Option (ℕ × Connection) :=
  (s.indexed.findIdx? Connection.isChatgpt).bind fun idx => s.indexed[idx]?.map fun c => (idx, c)

/-! ## What the handlers write -/

/-- A `Config.upsert`. -/
inductive Upsert where
  | all (config : OpenAIConfig)
  | configs (indexed : List Connection)

def OpenAIConfig.upsert (s : OpenAIConfig) : Upsert → OpenAIConfig
  | .all config => config
  | .configs indexed => { s with configs := byIndex indexed }

/-- `OpenAIConfigForm`; a configuration that is no mapping, and truthy, is `none`. -/
structure OpenAIConfigForm where
  enable : Option Bool
  baseUrls : List Text
  keys : List Text
  configs : Dict Text (Option Connection)

/-- The submitted configurations by index; `none`: one of them is no mapping, and `pop` raises. -/
def OpenAIConfigForm.indexed (form : OpenAIConfigForm) : Option (List Connection) :=
  (indexedOpenaiConfigs (some Dict.empty) form.baseUrls form.configs).mapM id

/-- What `_merge_chatgpt_private_config` makes of a connection. -/
def mergeConnection (storedChatgpt : Option Connection) (submitted : Connection) : Connection :=
  let connection := submitted.redact
  if connection.isChatgpt then
    let kept := match storedChatgpt with
      | none => connection
      | some stored => match stored.credentials with
        | none => connection
        | some credentials =>
          if credentials.truthy then
            let connection := connection.set chatgptPrivateCredentialsKey credentials
            connection.set chatgptPublicStatusKey ((stored.get chatgptPublicStatusKey).getD
              ((connection.get chatgptPublicStatusKey).getD (.obj [])))
          else connection
    kept.setAll [(.lit "api_type", .str (.lit "responses")), (.lit "prefix_id", .str (.lit "chatgpt")),
      (.lit "provider", .str (.lit "openai"))]
  else connection

/-- `_merge_chatgpt_private_config` -/
def mergeChatgptPrivateConfig (form : OpenAIConfigForm) (stored : OpenAIConfig) : Option (List Connection) :=
  form.indexed.map fun submitted =>
    submitted.map (mergeConnection (stored.findChatgptConnection.map Prod.snd))

/-- The keys of a submission, as many as there are URLs. -/
def OpenAIConfigForm.fittedKeys (form : OpenAIConfigForm) : List Text :=
  if form.baseUrls.length < form.keys.length then form.keys.take form.baseUrls.length
  else form.keys ++ List.replicate (form.baseUrls.length - form.keys.length) []

/-- `update_config`; `none`: it raises. -/
def OpenAIConfig.updateConfig (read : OpenAIConfig) (form : OpenAIConfigForm) : Option OpenAIConfig :=
  (mergeChatgptPrivateConfig form read).map fun merged =>
    ⟨form.enable, form.baseUrls, form.fittedKeys, byIndex merged⟩

/-- The fields of the subscription's connection, when somebody has logged in. -/
def loginFields (cipher : CredentialCipher) (credentials : Credentials) : List (Text × Json) :=
  [(.lit "enable", .bool true),
    (.lit "auth_type", .str chatgptAuthType),
    (.lit "api_type", .str (.lit "responses")),
    (.lit "prefix_id", .str (.lit "chatgpt")),
    (.lit "provider", .str (.lit "openai")),
    (.lit "connection_type", .str (.lit "external")),
    (chatgptPrivateCredentialsKey, .str (cipher.encrypt credentials)),
    (chatgptPublicStatusKey, publicStatus (some credentials) (.lit "connected") none)]

/-- `_persist_chatgpt_credentials` -/
def OpenAIConfig.persistChatgptCredentials (cipher : CredentialCipher) (read : OpenAIConfig)
    (credentials : Credentials) : OpenAIConfig :=
  match read.findChatgptConnection with
  | none =>
    { enable := some true
      baseUrls := read.baseUrls ++ [chatgptCodexBaseUrl]
      keys := read.keys ++ [[]]
      configs := byIndex (read.indexed ++ [Connection.setAll Dict.empty (loginFields cipher credentials)]) }
  | some (idx, existing) =>
    { enable := some true
      baseUrls := read.baseUrls.set idx chatgptCodexBaseUrl
      keys := (read.keys ++ List.replicate (idx + 1 - read.keys.length) []).set idx []
      configs := byIndex (read.indexed.set idx (existing.setAll (loginFields cipher credentials))) }

/-- `_set_chatgpt_status`; `none`: there is no subscription, and nothing is written. -/
def OpenAIConfig.setChatgptStatus (cipher : CredentialCipher) (read : OpenAIConfig) (state : Text)
    (error : Option Text) : Option (List Connection) :=
  read.findChatgptConnection.map fun found =>
    let credentials := (decryptCredentials cipher found.2.credentials).toOption
    read.indexed.set found.1 (found.2.set chatgptPublicStatusKey (publicStatus credentials state error))

/-- The configuration of the subscription's connection after a refresh. -/
def Connection.refreshed (cipher : CredentialCipher) (c : Connection) (credentials : Credentials) : Connection :=
  (c.set chatgptPrivateCredentialsKey (.str (cipher.encrypt credentials))).set chatgptPublicStatusKey
    (publicStatus (some credentials) (.lit "connected") none)

/-- `disconnect_chatgpt_subscription`; `none`: there is no subscription, and nothing is written. -/
def OpenAIConfig.disconnect (read : OpenAIConfig) : Option OpenAIConfig :=
  read.findChatgptConnection.map fun found =>
    { read with
      baseUrls := read.baseUrls.eraseIdx found.1
      keys := read.keys.eraseIdx found.1
      configs := byIndex (read.indexed.eraseIdx found.1) }

/-- What `get_valid_chatgpt_credentials` does with what it has read under the lock. -/
inductive RefreshPlan where
  /-- The stored credentials cannot be decrypted: the status is set, and the reply is 401. -/
  | reconnect (error : Text)
  /-- Another request has refreshed them. -/
  | valid (credentials : Credentials)
  /-- The provider is asked, with these credentials. -/
  | ask (credentials : Credentials)

def OpenAIConfig.refreshPlan (cipher : CredentialCipher) (read : OpenAIConfig) (now : ℚ)
    (credentials : Credentials) : RefreshPlan :=
  match read.findChatgptConnection with
  | none => .ask credentials
  | some (_, stored) =>
    -- `if idx is not None and stored_config`: the configuration that was found is not empty
    match decryptCredentials cipher stored.credentials with
    | .error error => .reconnect error
    | .ok credentials => if credentialsNeedRefresh now credentials then .ask credentials else .valid credentials

/-- What is written when the provider has answered; `none`: the subscription is gone, and the reply is 401. -/
def OpenAIConfig.refreshUpsert (cipher : CredentialCipher) (read : OpenAIConfig) (credentials : Credentials) :
    Option (List Connection) :=
  read.findChatgptConnection.map fun found =>
    read.indexed.set found.1 (found.2.refreshed cipher credentials)

/-! ## Configurations by index -/

section

variable {s : OpenAIConfig} {cipher : CredentialCipher} {c : Connection} {idx : ℕ}

@[simp] theorem length_indexed (s : OpenAIConfig) : s.indexed.length = s.baseUrls.length := by
  simp [OpenAIConfig.indexed, indexedOpenaiConfigs]

theorem get_byIndex (indexed : List Connection) (idx : ℕ) : (byIndex indexed).get (indexKey idx) = indexed[idx]? := by
  ext c
  rw [← Dict.mem_entries_iff, byIndex, List.mem_map]
  constructor
  · rintro ⟨⟨c', idx'⟩, hmem, heq⟩
    obtain ⟨hkey, rfl⟩ := Prod.mk.inj heq
    obtain rfl := indexKey_injective hkey
    exact List.mem_zipIdx_iff_getElem?.1 hmem
  · intro h
    exact ⟨(c, idx), List.mem_zipIdx_iff_getElem?.2 h, rfl⟩

/-- **What was stored by index is read by index.** -/
theorem indexedOpenaiConfigs_byIndex {baseUrls : List Text} {indexed : List Connection}
    (h : indexed.length = baseUrls.length) :
    indexedOpenaiConfigs Dict.empty baseUrls (byIndex indexed) = indexed := by
  refine List.ext_getElem (by simp [indexedOpenaiConfigs, h]) ?_
  intro idx hidx hidx'
  simp only [indexedOpenaiConfigs, List.getElem_map, List.getElem_zipIdx, get_byIndex, Nat.zero_add,
    List.getElem?_eq_getElem hidx', Option.getD_some]

theorem findChatgptConnection_eq_some (h : s.findChatgptConnection = some (idx, c)) :
    s.indexed[idx]? = some c ∧ c.isChatgpt ∧ idx < s.baseUrls.length := by
  obtain ⟨idx', hfind, hsome⟩ := Option.bind_eq_some_iff.1 h
  obtain ⟨c', hget, heq⟩ := Option.map_eq_some_iff.1 hsome
  obtain ⟨rfl, rfl⟩ := Prod.mk.inj heq
  obtain ⟨hlt, hchatgpt, -⟩ := List.findIdx?_eq_some_iff_getElem.1 hfind
  rw [(List.getElem?_eq_some_iff.1 hget).2] at hchatgpt
  exact ⟨hget, hchatgpt, by rwa [← length_indexed]⟩

theorem findChatgptConnection_eq_none : s.findChatgptConnection = none ↔ ∀ c ∈ s.indexed, c.isChatgpt = false := by
  rw [OpenAIConfig.findChatgptConnection, Option.bind_eq_none_iff]
  constructor
  · intro h
    refine List.findIdx?_eq_none_iff.1 ?_
    by_contra hsome
    obtain ⟨idx, hidx⟩ := Option.ne_none_iff_exists'.1 hsome
    obtain ⟨hlt, -⟩ := List.findIdx?_eq_some_iff_getElem.1 hidx
    have hnone := h idx hidx
    rw [List.getElem?_eq_getElem hlt] at hnone
    cases hnone
  · intro h idx hidx
    rw [List.findIdx?_eq_none_iff.2 h] at hidx
    cases hidx

end

end TideBot
