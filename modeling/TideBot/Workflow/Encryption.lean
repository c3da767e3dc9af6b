/-
  Encryption of workflow definitions (`utils/browser_extension_crypto.py`).

  The definition is printed with its keys sorted, encoded, and sealed under a key derived from
  the secret of the server, with the user, the workflow and its version as associated data.
  HKDF and AES-GCM are a parameter (`Crypto`), and so are the bytes of `os.urandom`.
-/
import TideBot.Workflow.Definition

namespace TideBot

open Lib

/-! ## Keys -/

/-- HKDF with SHA-256, and AES-GCM; `none`: `InvalidTag`. -/
structure Crypto where
  Key : Type
  hkdf : (salt info material : List Byte) → Key
  encrypt : Key → (nonce plaintext aad : List Byte) → List Byte
  decrypt : Key → (nonce ciphertext aad : List Byte) → Option (List Byte)

/-- AES-GCM decrypts what it encrypted under equal key, nonce and associated data, and nothing
    else. -/
def Crypto.Authentic (C : Crypto) : Prop :=
  ∀ {key nonce ciphertext aad plaintext}, nonce.length = 12 →
    (C.decrypt key nonce ciphertext aad = some plaintext ↔
      ciphertext = C.encrypt key nonce plaintext aad)

/-- The bytes of an ASCII literal. -/
def bytesLit (s : String) : List Byte := (Text.lit s).flatMap CodePoint.utf8

def hkdfSalt : List Byte := bytesLit "tide-bot/browser-extension/v1"

def workflowInfo : List Byte := bytesLit "tide-bot/browser-extension/workflow-encryption/v1"

def tokenInfo : List Byte := bytesLit "tide-bot/browser-extension/token-hashing/v1"

def accessSigningInfo : List Byte := bytesLit "tide-bot/browser-extension/access-signing/v1"

def refreshSigningInfo : List Byte := bytesLit "tide-bot/browser-extension/refresh-signing/v1"

/-- `BrowserExtensionKeys` -/
structure BrowserExtensionKeys (Key : Type) where
  workflowEncryption : Key
  tokenHashing : Key
  accessSigning : Key
  refreshSigning : Key

section
variable (C : Crypto) (F : Json.FloatText)

/-- `_derive_key`; here and below, `none`: it raises. -/
def deriveKey (secretKey : Text) (info : List Byte) : Option C.Key :=
  if secretKey = [] then none else (Text.utf8 secretKey).map (C.hkdf hkdfSalt info)

/-- `derive_browser_extension_keys` -/
def deriveBrowserExtensionKeys (secretKey : Text) : Option (BrowserExtensionKeys C.Key) :=
  if secretKey = [] then none
  else do
    return {
      workflowEncryption := ← deriveKey C secretKey workflowInfo
      tokenHashing := ← deriveKey C secretKey tokenInfo
      accessSigning := ← deriveKey C secretKey accessSigningInfo
      refreshSigning := ← deriveKey C secretKey refreshSigningInfo }

/-! ## Definitions -/

/-- `_workflow_aad` -/
def workflowAad (userId workflowId : Text) (version : ℤ) : Option (List Byte) :=
  Text.utf8 (userId ++ .lit ":" ++ workflowId ++ .lit ":" ++ Json.intText version)

/-- `EncryptedWorkflowDefinition` -/
structure EncryptedWorkflowDefinition where
  ciphertext : Text
  nonce : Text
  deriving DecidableEq

/-- `encrypt_workflow_definition`; `nonce` is `os.urandom(12)`. -/
def encryptWorkflowDefinition (nonce : Fin 12 → Byte) (definition : Json)
    (secretKey userId workflowId : Text) (version : ℤ) : Option EncryptedWorkflowDefinition := do
  let plaintext ← Text.utf8 (Json.dumps F definition)
  let keys ← deriveBrowserExtensionKeys C secretKey
  let aad ← workflowAad userId workflowId version
  let ciphertext := C.encrypt keys.workflowEncryption (List.ofFn nonce) plaintext aad
  return { ciphertext := b64Encode ciphertext, nonce := b64Encode (List.ofFn nonce) }

/-- `decrypt_workflow_definition` -/
def decryptWorkflowDefinition (encrypted : EncryptedWorkflowDefinition)
    (secretKey userId workflowId : Text) (version : ℤ) : Option Json := do
  let keys ← deriveBrowserExtensionKeys C secretKey
  let nonce ← b64Decode encrypted.nonce
  let ciphertext ← b64Decode encrypted.ciphertext
  let aad ← workflowAad userId workflowId version
  let plaintext ← C.decrypt keys.workflowEncryption nonce ciphertext aad
  let definition ← Json.loads F (← utf8Decode 0 0 0 plaintext)
  if definition.isObj then return definition else none

end

/-! ## When something is encrypted -/

section
variable {C : Crypto} {F : Json.FloatText} {secretKey userId workflowId : Text} {version : ℤ}
  {nonce : Fin 12 → Byte} {d : Json} {e : EncryptedWorkflowDefinition}

/-- A secret that keys are derived from. -/
def usableSecret (secretKey : Text) : Bool := secretKey ≠ [] && Text.encodable secretKey

theorem utf8_isSome {t : Text} : (Text.utf8 t).isSome = Text.encodable t := by
  unfold Text.utf8
  split_ifs with h
  · exact h.symm
  · exact (Bool.eq_false_iff.2 h).symm

theorem utf8Decode_of_utf8 {t : Text} {l : List Byte} (h : Text.utf8 t = some l) :
    utf8Decode 0 0 0 l = some t := by
  unfold Text.utf8 at h
  split_ifs at h
  cases h
  exact utf8Decode_flatMap t

theorem deriveKey_isSome (info : List Byte) :
    (deriveKey C secretKey info).isSome = usableSecret secretKey := by
  unfold deriveKey usableSecret
  split_ifs with h
  · simp [h]
  · simp [h, utf8_isSome]

theorem deriveBrowserExtensionKeys_isSome :
    (deriveBrowserExtensionKeys C secretKey).isSome = usableSecret secretKey := by
  unfold deriveBrowserExtensionKeys
  split_ifs with h
  · simp [usableSecret, h]
  · have hkey : ∀ info, (deriveKey C secretKey info).isSome = usableSecret secretKey := deriveKey_isSome
    cases hu : usableSecret secretKey with
    | false =>
      rw [hu] at hkey
      have hnone : deriveKey C secretKey workflowInfo = none := by simpa using hkey workflowInfo
      rw [hnone]
      rfl
    | true =>
      rw [hu] at hkey
      obtain ⟨_, hw⟩ := Option.isSome_iff_exists.1 (hkey workflowInfo)
      obtain ⟨_, ht⟩ := Option.isSome_iff_exists.1 (hkey tokenInfo)
      obtain ⟨_, ha⟩ := Option.isSome_iff_exists.1 (hkey accessSigningInfo)
      obtain ⟨_, hr⟩ := Option.isSome_iff_exists.1 (hkey refreshSigningInfo)
      rw [hw, ht, ha, hr]
      rfl

theorem workflowAad_isSome (version : ℤ) : (workflowAad userId workflowId version).isSome =
    (Text.encodable userId && Text.encodable workflowId) := by
  have hcolon : Text.encodable (.lit ":") = true := rfl
  rw [workflowAad, utf8_isSome, Json.encodable_append, Json.encodable_append, Json.encodable_append,
    Json.encodable_append, hcolon, Json.encodable_intText, Bool.and_true, Bool.and_true,
    Bool.and_true]

theorem encryptWorkflowDefinition_isSome (C : Crypto) (nonce : Fin 12 → Byte)
    (secretKey userId workflowId : Text) (version : ℤ) (hd : d.Readable F) :
    (encryptWorkflowDefinition C F nonce d secretKey userId workflowId version).isSome =
      (d.encodable && usableSecret secretKey &&
        (Text.encodable userId && Text.encodable workflowId)) := by
  rw [← Json.encodable_dumps hd, ← utf8_isSome, ← deriveBrowserExtensionKeys_isSome (C := C),
    ← workflowAad_isSome version]
  unfold encryptWorkflowDefinition
  cases Text.utf8 (Json.dumps F d) <;> cases deriveBrowserExtensionKeys C secretKey <;>
    cases workflowAad userId workflowId version <;> rfl

/-- **What was encrypted is decrypted**, with its keys in order. -/
theorem decrypt_encrypted (hC : C.Authentic) (hd : d.Readable F) (hobj : d.isObj)
    (h : encryptWorkflowDefinition C F nonce d secretKey userId workflowId version = some e) :
    decryptWorkflowDefinition C F e secretKey userId workflowId version = some d.sorted := by
  simp only [encryptWorkflowDefinition, Option.bind_eq_bind, Option.bind_eq_some_iff,
    Option.pure_def, Option.some.injEq] at h
  obtain ⟨plaintext, hplain, keys, hkeys, aad, haad, rfl⟩ := h
  have hopen : C.decrypt keys.workflowEncryption (List.ofFn nonce)
      (C.encrypt keys.workflowEncryption (List.ofFn nonce) plaintext aad) aad = some plaintext :=
    (hC List.length_ofFn).2 rfl
  have hsorted : d.sorted.isObj := by
    cases d with
    | obj => rfl
    | null | bool | int | float | str | arr => cases hobj
  simp only [decryptWorkflowDefinition, hkeys, haad, b64Decode_b64Encode, Option.bind_eq_bind,
    Option.bind_some, hopen, utf8Decode_of_utf8 hplain, Json.loads_dumps hd]
  exact if_pos hsorted

/-! ## What was accepted is stored and read back -/

/-- The definition can be encrypted, and decrypted to an equal one. -/
def ReadBack (C : Crypto) (F : Json.FloatText) (nonce : Fin 12 → Byte) (d : Json)
    (secretKey userId workflowId : Text) (version : ℤ) : Prop :=
  ∃ e, encryptWorkflowDefinition C F nonce d secretKey userId workflowId version = some e ∧
    ∃ d', decryptWorkflowDefinition C F e secretKey userId workflowId version = some d' ∧
      d'.Same d

theorem isObj_accepted {U : PyUrls} {d' : Json} (h : validatedWorkflowDefinition F U d = some d') :
    d.isObj := by
  obtain ⟨-, fields, origin, steps, rfl, -⟩ := accepted h
  rfl

/-- **An accepted definition is stored and read back** exactly if none of its strings has a
    surrogate; the secret and the two ids are such strings too, and the secret is not empty. -/
theorem readBack_accepted {U : PyUrls} (hC : C.Authentic) (hF : F.One) (hd : distinctKeys d)
    (hacc : validatedWorkflowDefinition F U d = some d) :
    ReadBack C F nonce d secretKey userId workflowId version ↔
      d.encodable ∧ secretKey ≠ [] ∧ Text.encodable secretKey ∧ Text.encodable userId ∧
        Text.encodable workflowId := by
  have hread := readable_accepted hF.reads hd hacc
  have hsome := encryptWorkflowDefinition_isSome C nonce secretKey userId workflowId version hread
  constructor
  · rintro ⟨e, he, -⟩
    rw [he] at hsome
    simpa [usableSecret, and_assoc] using hsome.symm
  · rintro ⟨hd, hne, hsecret, huser, hworkflow⟩
    have hall : (encryptWorkflowDefinition C F nonce d secretKey userId workflowId version).isSome := by
      rw [hsome]
      simp [usableSecret, hd, hne, hsecret, huser, hworkflow]
    obtain ⟨e, he⟩ := Option.isSome_iff_exists.1 hall
    exact ⟨e, he, d.sorted, decrypt_encrypted hC hread (isObj_accepted hacc) he, Json.same_sorted d⟩

end

/-! ### A target whose name has a surrogate -/

/-- 1.0 is the only float. -/
def oneText : Json.FloatText where
  repr _ := .lit "1.0"
  parse _ := 1

/-- `urllib.parse`, at one URL. -/
def exampleUrls : PyUrls where
  urlsplit value :=
    if value = .lit "https://example.com" then
      some {
        scheme := .lit "https", hostname := some (.lit "example.com"), username := none
        password := none, path := [], query := [], fragment := [] }
    else none
  parseQsl _ := []

/-- The ciphertext is the plaintext, after everything else that was encrypted with. -/
def plainCrypto : Crypto where
  Key := List Byte
  hkdf salt info material := salt ++ info ++ material
  encrypt key nonce plaintext aad := key ++ nonce ++ aad ++ plaintext
  decrypt key nonce ciphertext aad :=
    if key ++ nonce ++ aad <+: ciphertext then some (ciphertext.drop (key ++ nonce ++ aad).length)
    else none

theorem plainCrypto_authentic : plainCrypto.Authentic := by
  intro (key : List Byte) nonce ciphertext aad plaintext _
  show (if key ++ nonce ++ aad <+: ciphertext then
    some (ciphertext.drop (key ++ nonce ++ aad).length) else none) = some plaintext ↔
      ciphertext = key ++ nonce ++ aad ++ plaintext
  constructor
  · intro h
    split_ifs at h with hpre
    obtain ⟨rest, rfl⟩ := hpre
    rw [List.drop_left] at h
    rw [Option.some.inj h]
  · rintro rfl
    rw [if_pos (List.prefix_append ..), List.drop_left]

/-- A click on a target of this name. -/
def clickDefinition (name : Text) : Json :=
  .obj [(.lit "schemaVersion", .int 1), (.lit "origin", .str (.lit "https://example.com")),
    (.lit "steps", .arr [.obj [(.lit "action", .str (.lit "click")),
      (.lit "target", .obj [(.lit "role", .str (.lit "button")), (.lit "name", .str name),
        (.lit "tag", .str (.lit "button"))])]])]

/-- A definition that is accepted and cannot be encrypted. -/
theorem readBack_surrogate :
    oneText.One ∧ plainCrypto.Authentic ∧ distinctKeys (clickDefinition [0xD800]) ∧
      validatedWorkflowDefinition oneText exampleUrls (clickDefinition [0xD800]) =
        some (clickDefinition [0xD800]) ∧
      ¬ ReadBack plainCrypto oneText (fun _ => 0) (clickDefinition [0xD800]) (.lit "secret")
        (.lit "user") (.lit "workflow") 1 := by
  refine ⟨⟨rfl, rfl⟩, plainCrypto_authentic, by decide +kernel, ?_, ?_⟩
  · rfl
  · rintro ⟨e, he, -⟩
    have hnone : encryptWorkflowDefinition plainCrypto oneText (fun _ => 0) (clickDefinition [0xD800])
        (.lit "secret") (.lit "user") (.lit "workflow") 1 = none := by decide +kernel
    rw [hnone] at he
    cases he

theorem readBack_save :
    ReadBack plainCrypto oneText (fun _ => 0) (clickDefinition (.lit "Save")) (.lit "secret")
      (.lit "user") (.lit "workflow") 1 := by
  refine (readBack_accepted (U := exampleUrls) plainCrypto_authentic ⟨rfl, rfl⟩
    (by decide +kernel) rfl).2 ?_
  decide +kernel

end TideBot
