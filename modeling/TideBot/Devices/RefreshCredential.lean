/-
  The refresh credentials (`utils/browser_extension_auth.py`, `create_refresh_credential` and
  `decode_refresh_credential`).

  A credential has three parts: a prefix, the Base64 of a JSON object, and the Base64 of its HMAC.  Base64 is read in
  its canonical form only, so that a credential is told by its payload (`decoded_canonical`).

  A payload that is not ASCII raises `UnicodeEncodeError`, which the route does not turn into 401.  Exactly which
  credentials raise `RefreshCredentialError` alone, and which identities are read as they were written, is
  `refreshCredential_iff`.
-/
import TideBot.Devices.Refresh
import TideBot.Lib.JsonLoads
import TideBot.Workflow.Encryption
import TideBot.Workflow.Schedules

namespace TideBot

open Lib

/-- What creating or decoding a credential raises. -/
inductive CredentialError where
  | refreshCredentialError
  | unicodeEncodeError
  | typeError
  | valueError
  | recursionError
  deriving DecidableEq

namespace RefreshCredential

def refreshCredentialPrefix : Text := .lit "tbx1"

def dot : CodePoint := CodePoint.ofChar '.'

/-- `_decode` -/
def decodePart (value : Text) : Except CredentialError (List Byte) :=
  match b64DecodeStrict value with
  | none => .error .refreshCredentialError
  | some decoded =>
    match compareDigest (b64Encode decoded) value with
    | none => .error .typeError
    | some equal => if equal then .ok decoded else .error .refreshCredentialError

/-- `encode('ascii')` -/
def encodeAscii (t : Text) : Except CredentialError (List Byte) :=
  if t.all (·.val < 0x80) then .ok (t.map fun c => byte c.val) else .error .unicodeEncodeError

/-- `encode('utf-8')` -/
def encodeUtf8 (t : Text) : Except CredentialError (List Byte) :=
  match Text.utf8 t with
  | none => .error .unicodeEncodeError
  | some bytes => .ok bytes

/-- The identity in the object of a credential. -/
def identityOf (data : Json) : Option RefreshCredentialIdentity :=
  match data.get (.lit "d"), data.get (.lit "f"), data.get (.lit "n") with
  | .str d, .str f, .str n =>
    if data.isObj ∧ (data.get (.lit "v")).eqInt 1 ∧ d ≠ [] ∧ f ≠ [] ∧ 32 ≤ n.length then some ⟨d, f⟩ else none
  | _, _, _ => none

/-- The object of a credential; `n` is its nonce. -/
def credentialData (deviceId tokenFamilyId n : Text) : Json :=
  .obj [(.lit "v", .int 1), (.lit "d", .str deviceId), (.lit "f", .str tokenFamilyId), (.lit "n", .str n)]

section

variable (C : Crypto) (hmac : C.Key → List Byte → List Byte) (F : Json.FloatText)

/-- `derive_browser_extension_keys(secret_key).refresh_signing` -/
def refreshSigning (secretKey : Text) : Except CredentialError C.Key :=
  match deriveBrowserExtensionKeys C secretKey with
  | some keys => .ok keys.refreshSigning
  | none => .error (if secretKey = [] then .valueError else .unicodeEncodeError)

/-- The parts of a credential. -/
def credentialText (payload signature : Text) : Text :=
  refreshCredentialPrefix ++ dot :: (payload ++ dot :: signature)

/-- `create_refresh_credential`; `random` are the 32 bytes of `secrets.token_urlsafe(32)`. -/
def createRefreshCredential (random : Fin 32 → Byte) (deviceId tokenFamilyId secretKey : Text) :
    Except CredentialError Text := do
  let bytes ← encodeUtf8 (Json.dumpsAscii F (credentialData deviceId tokenFamilyId (b64Encode (List.ofFn random))))
  let payload := b64Encode bytes
  let signingKey ← refreshSigning C secretKey
  let message ← encodeAscii payload
  return credentialText payload (b64Encode (hmac signingKey message))

/-- `decode_refresh_credential`; `stack` is the depth that is left for `json.loads`. -/
def decodeRefreshCredential (stack : ℕ) (credential secretKey : Text) :
    Except CredentialError RefreshCredentialIdentity :=
  match credential.splitOn dot with
  | [start, payload, signature] =>
    if start ≠ refreshCredentialPrefix then .error .refreshCredentialError
    else do
      let signingKey ← refreshSigning C secretKey
      let message ← encodeAscii payload
      let signed ← decodePart signature
      if signed ≠ hmac signingKey message then .error .refreshCredentialError
      else do
        let raw ← decodePart payload
        match Json.loadsBytes F stack raw with
        | .error .decodeError => .error .refreshCredentialError
        | .error .valueError => .error .valueError
        | .error .recursionError => .error .recursionError
        | .ok data =>
          match identityOf data with
          | none => .error .refreshCredentialError
          | some identity => .ok identity
  | _ => .error .refreshCredentialError

end

/-! ## The parts -/

section

variable {C : Crypto} {hmac : C.Key → List Byte → List Byte} {F : Json.FloatText} {stack : ℕ}
  {credential secretKey payload signature value : Text} {raw : List Byte} {identity : RefreshCredentialIdentity}
  {e : CredentialError}

/-- **Base64 is read in its canonical form.** -/
theorem decodePart_eq_ok_iff : decodePart value = .ok raw ↔ value = b64Encode raw := by
  constructor
  · intro h
    unfold decodePart at h
    cases hdecoded : b64DecodeStrict value with
    | none => simp [hdecoded] at h
    | some decoded =>
      cases hequal : compareDigest (b64Encode decoded) value with
      | none => simp [hdecoded, hequal] at h
      | some equal =>
        have hsame := compareDigest_eq_some hequal
        cases equal with
        | false => simp [hdecoded, hequal] at h
        | true =>
          simp only [hdecoded, hequal, if_true, Except.ok.injEq] at h
          rw [← h]
          exact (hsame.mp rfl).symm
  · rintro rfl
    have hascii := b64Encode_ascii raw
    simp [decodePart, b64DecodeStrict_b64Encode, compareDigest, hascii]

theorem decodePart_error (h : decodePart value = .error e) : e = .refreshCredentialError := by
  unfold decodePart at h
  cases hdecoded : b64DecodeStrict value with
  | none =>
    simp only [hdecoded, Except.error.injEq] at h
    exact h.symm
  | some decoded =>
    -- what was decoded is ASCII, so the comparison does not raise
    have hascii : value.all (·.val < 0x80) = true := by
      rw [b64DecodeStrict] at hdecoded
      split_ifs at hdecoded with hcond
      rw [Bool.and_eq_true] at hcond
      exact hcond.1
    have hequal : compareDigest (b64Encode decoded) value = some (decide (b64Encode decoded = value)) := by
      rw [compareDigest, hascii, b64Encode_ascii, Bool.and_self, if_pos rfl]
    simp only [hdecoded, hequal] at h
    split_ifs at h
    exact (Except.error.inj h).symm

theorem refreshSigning_error (h : refreshSigning C secretKey = .error e) :
    usableSecret secretKey = false ∧ e ≠ .refreshCredentialError := by
  have hsome : (deriveBrowserExtensionKeys C secretKey).isSome = usableSecret secretKey :=
    deriveBrowserExtensionKeys_isSome
  unfold refreshSigning at h
  cases hkeys : deriveBrowserExtensionKeys C secretKey with
  | some keys =>
    rw [hkeys] at h
    cases h
  | none =>
    rw [hkeys, Option.isSome_none] at hsome
    rw [hkeys] at h
    refine ⟨hsome.symm, ?_⟩
    obtain rfl := Except.error.inj h
    split_ifs <;> simp

theorem refreshSigning_ok {key : C.Key} (h : refreshSigning C secretKey = .ok key) : usableSecret secretKey = true := by
  have hsome : (deriveBrowserExtensionKeys C secretKey).isSome = usableSecret secretKey :=
    deriveBrowserExtensionKeys_isSome
  unfold refreshSigning at h
  cases hkeys : deriveBrowserExtensionKeys C secretKey with
  | some keys =>
    rw [hkeys, Option.isSome_some] at hsome
    exact hsome.symm
  | none =>
    rw [hkeys] at h
    cases h

/-- The bytes of an ASCII text. -/
def asciiBytes (t : Text) : List Byte := t.map fun c => byte c.val

theorem encodeAscii_of (h : payload.all (·.val < 0x80)) : encodeAscii payload = .ok (asciiBytes payload) := if_pos h

theorem dot_not_mem_b64Encode (l : List Byte) : dot ∉ b64Encode l := by
  intro hmem
  obtain ⟨n, hn, heq⟩ := mem_b64Encode hmem
  revert heq
  interval_cases n <;> decide

/-- **Three parts.** -/
theorem splitOn_credentialText (hpayload : dot ∉ payload) (hsignature : dot ∉ signature) :
    (credentialText payload signature).splitOn dot = [refreshCredentialPrefix, payload, signature] := by
  have hhead : dot ∉ refreshCredentialPrefix := by decide
  rw [credentialText, List.splitOn_append_cons_self, List.splitOn_append_cons_self]
  have hwhole : ∀ {t : Text}, dot ∉ t → t.splitOn dot = [t] := by
    intro t ht
    exact List.splitOn_eq_singleton ht
  rw [hwhole hhead, hwhole hpayload, hwhole hsignature]
  rfl

theorem eq_credentialText (h : credential.splitOn dot = [refreshCredentialPrefix, payload, signature]) :
    credential = credentialText payload signature := by
  have hjoin : [dot].intercalate (credential.splitOn dot) = credential := List.intercalate_splitOn dot
  rw [h] at hjoin
  rw [← hjoin]
  simp [credentialText, List.intercalate]

/-! ## What is decoded -/

/-- The JSON that was signed. -/
def Signed (C : Crypto) (hmac : C.Key → List Byte → List Byte) (secretKey payload signature : Text)
    (raw : List Byte) : Prop :=
  ∃ key, refreshSigning C secretKey = .ok key ∧ payload = b64Encode raw ∧
    signature = b64Encode (hmac key (asciiBytes payload))

variable (hmac) (F) (stack) in
/-- **What a credential is decoded to**, part by part. -/
theorem decode_parts (hparts : credential.splitOn dot = [refreshCredentialPrefix, payload, signature])
    {key : C.Key} (hkey : refreshSigning C secretKey = .ok key) (hascii : payload.all (·.val < 0x80)) :
    (¬(∃ raw, Signed C hmac secretKey payload signature raw) ∧
      decodeRefreshCredential C hmac F stack credential secretKey = .error .refreshCredentialError) ∨
    ∃ raw, Signed C hmac secretKey payload signature raw ∧
      decodeRefreshCredential C hmac F stack credential secretKey =
        match Json.loadsBytes F stack raw with
        | .error .decodeError => .error .refreshCredentialError
        | .error .valueError => .error .valueError
        | .error .recursionError => .error .recursionError
        | .ok data =>
          match identityOf data with
          | none => .error .refreshCredentialError
          | some identity => .ok identity := by
  have hsigned : ∀ {raw}, Signed C hmac secretKey payload signature raw →
      payload = b64Encode raw ∧ signature = b64Encode (hmac key (asciiBytes payload)) := by
    rintro raw ⟨key', hkey', hpayload, hsignature⟩
    obtain rfl := Except.ok.inj (hkey.symm.trans hkey')
    exact ⟨hpayload, hsignature⟩
  unfold decodeRefreshCredential
  rw [hparts]
  dsimp only
  rw [if_neg (by simp), hkey, encodeAscii_of hascii]
  simp only [bind, Except.bind]
  cases hsig : decodePart signature with
  | error e =>
    obtain rfl := decodePart_error hsig
    refine .inl ⟨?_, rfl⟩
    rintro ⟨raw, h⟩
    rw [decodePart_eq_ok_iff.2 (hsigned h).2] at hsig
    cases hsig
  | ok signed =>
    obtain rfl := decodePart_eq_ok_iff.1 hsig
    dsimp only
    by_cases hmatch : signed = hmac key (asciiBytes payload)
    · rw [if_neg (by simpa using hmatch)]
      cases hraw : decodePart payload with
      | error e =>
        obtain rfl := decodePart_error hraw
        refine .inl ⟨?_, rfl⟩
        rintro ⟨raw, h⟩
        rw [decodePart_eq_ok_iff.2 (hsigned h).1] at hraw
        cases hraw
      | ok raw => exact .inr ⟨raw, ⟨key, hkey, decodePart_eq_ok_iff.1 hraw, by rw [hmatch]⟩, rfl⟩
    · rw [if_pos hmatch]
      refine .inl ⟨?_, rfl⟩
      rintro ⟨raw, h⟩
      have hsame := (hsigned h).2
      refine hmatch (Option.some.inj ?_)
      rw [← b64DecodeStrict_b64Encode, hsame, b64DecodeStrict_b64Encode]

/-- Does no exception but `RefreshCredentialError` come of a credential?  With three parts and the right prefix, the
    secret must be usable, the payload ASCII, and signed JSON neither too deep nor with too many digits. -/
def Orderly (C : Crypto) (hmac : C.Key → List Byte → List Byte) (F : Json.FloatText) (stack : ℕ)
    (credential secretKey : Text) : Prop :=
  ∀ payload signature, credential.splitOn dot = [refreshCredentialPrefix, payload, signature] →
    usableSecret secretKey ∧ payload.all (·.val < 0x80) ∧
      ∀ raw, Signed C hmac secretKey payload signature raw →
        Json.loadsBytes F stack raw ≠ .error .valueError ∧ Json.loadsBytes F stack raw ≠ .error .recursionError

/-- **The exceptions.** -/
theorem orderly_iff : (∀ e, decodeRefreshCredential C hmac F stack credential secretKey = .error e →
    e = .refreshCredentialError) ↔ Orderly C hmac F stack credential secretKey := by
  constructor
  · intro h payload signature hparts
    have hkey : usableSecret secretKey = true := by
      cases hkey : refreshSigning C secretKey with
      | ok key => exact refreshSigning_ok hkey
      | error e =>
        have herror : decodeRefreshCredential C hmac F stack credential secretKey = .error e := by
          unfold decodeRefreshCredential
          rw [hparts]
          dsimp only
          rw [if_neg (by simp), hkey]
          rfl
        exact absurd (h e herror) (refreshSigning_error hkey).2
    obtain ⟨key, hkey⟩ : ∃ key, refreshSigning C secretKey = .ok key := by
      cases hsome : refreshSigning C secretKey with
      | ok key => exact ⟨key, rfl⟩
      | error e =>
        rw [(refreshSigning_error hsome).1] at hkey
        cases hkey
    have hascii : payload.all (·.val < 0x80) = true := by
      by_contra hascii
      have herror : decodeRefreshCredential C hmac F stack credential secretKey = .error .unicodeEncodeError := by
        unfold decodeRefreshCredential
        rw [hparts]
        dsimp only
        rw [if_neg (by simp), hkey, encodeAscii, if_neg hascii]
        rfl
      exact absurd (h _ herror) (by decide)
    refine ⟨refreshSigning_ok hkey, hascii, ?_⟩
    intro raw hraw
    obtain ⟨hno, -⟩ | ⟨raw', hraw', hdecode⟩ := decode_parts hmac F stack hparts hkey hascii
    · exact absurd ⟨raw, hraw⟩ hno
    · obtain ⟨-, -, hpayload, -⟩ := hraw
      obtain ⟨-, -, hpayload', -⟩ := hraw'
      obtain rfl : raw = raw' := by
        refine Option.some.inj ?_
        rw [← b64DecodeStrict_b64Encode, ← hpayload, hpayload', b64DecodeStrict_b64Encode]
      constructor
      · intro hloads
        rw [hloads] at hdecode
        exact absurd (h _ hdecode) (by decide)
      · intro hloads
        rw [hloads] at hdecode
        exact absurd (h _ hdecode) (by decide)
  · intro h e he
    by_cases hparts : ∃ payload signature, credential.splitOn dot = [refreshCredentialPrefix, payload, signature]
    · obtain ⟨payload, signature, hparts⟩ := hparts
      obtain ⟨husable, hascii, hloads⟩ := h payload signature hparts
      cases hkey : refreshSigning C secretKey with
      | error e' =>
        rw [(refreshSigning_error hkey).1] at husable
        cases husable
      | ok key =>
        obtain ⟨-, hdecode⟩ | ⟨raw, hraw, hdecode⟩ := decode_parts hmac F stack hparts hkey hascii
        · rw [hdecode] at he
          exact (Except.error.inj he).symm
        · obtain ⟨hvalue, hdepth⟩ := hloads raw hraw
          rw [hdecode] at he
          cases hload : Json.loadsBytes F stack raw with
          | error e' =>
            rw [hload] at he hvalue hdepth
            cases e' with
            | decodeError => exact (Except.error.inj he).symm
            | valueError => exact absurd rfl hvalue
            | recursionError => exact absurd rfl hdepth
          | ok data =>
            rw [hload] at he
            dsimp only at he
            cases hidentity : identityOf data with
            | none =>
              rw [hidentity] at he
              exact (Except.error.inj he).symm
            | some identity =>
              rw [hidentity] at he
              cases he
    · -- another number of parts, or another prefix
      unfold decodeRefreshCredential at he
      split at he
      · next start payload signature hsplit =>
        by_cases hstart : start = refreshCredentialPrefix
        · subst hstart
          exact absurd ⟨payload, signature, hsplit⟩ hparts
        · rw [if_pos hstart] at he
          exact (Except.error.inj he).symm
      · exact (Except.error.inj he).symm

/-- **What is accepted is written in one way.** -/
theorem decoded_canonical (h : decodeRefreshCredential C hmac F stack credential secretKey = .ok identity) :
    ∃ key payload, refreshSigning C secretKey = .ok key ∧ dot ∉ payload ∧
      credential = credentialText payload (b64Encode (hmac key (asciiBytes payload))) := by
  have hdecode := h
  unfold decodeRefreshCredential at h
  split at h
  · next start payload signature hsplit =>
    by_cases hstart : start = refreshCredentialPrefix
    · subst hstart
      rw [if_neg (by simp)] at h
      cases hkey : refreshSigning C secretKey with
      | error e =>
        rw [hkey] at h
        cases h
      | ok key =>
        cases hascii : payload.all (·.val < 0x80) with
        | false =>
          rw [hkey, encodeAscii, if_neg (by rw [hascii]; exact Bool.false_ne_true)] at h
          cases h
        | true =>
          obtain ⟨-, herror⟩ | ⟨raw, ⟨key', hkey', hpayload, hsignature⟩, -⟩ :=
            decode_parts hmac F stack hsplit hkey hascii
          · rw [herror] at hdecode
            cases hdecode
          · obtain rfl := Except.ok.inj (hkey.symm.trans hkey')
            refine ⟨key, payload, rfl, ?_, ?_⟩
            · rw [hpayload]
              exact dot_not_mem_b64Encode raw
            · rw [eq_credentialText hsplit, hsignature]
    · rw [if_pos hstart] at h
      cases h
  · cases h

/-! ## What is created -/

section

variable {d f n : Text}

theorem dumpsAscii_credentialData : Json.dumpsAscii F (credentialData d f n) =
    Json.ch '{' :: (Json.quoted (.lit "d") ++ Json.ch ':' :: (Json.quoted d ++ Json.ch ',' ::
      (Json.quoted (.lit "f") ++ Json.ch ':' :: (Json.quoted f ++ Json.ch ',' ::
        (Json.quoted (.lit "n") ++ Json.ch ':' :: (Json.quoted n ++ Json.ch ',' :: Text.lit "\"v\":1\x7d")))))) := by
  have hsorted : (credentialData d f n).sorted =
      .obj [(.lit "d", .str d), (.lit "f", .str f), (.lit "n", .str n), (.lit "v", .int 1)] := rfl
  have hlast : (Json.strText (.lit "v") ++ Json.ch ':' :: (Json.intText 1 ++ [Json.ch '\x7d'])).flatMap Json.asciiChar =
      Text.lit "\"v\":1\x7d" := by decide +kernel
  have hsep : ∀ {c : CodePoint}, c.val ≤ 0x7E → Json.asciiChar c = [c] := fun h => if_pos h
  rw [Json.dumpsAscii, Json.dumps, hsorted, ← hlast]
  simp only [Json.text, Json.fieldsText, List.flatMap_cons, List.flatMap_append, Json.flatMap_strText,
    List.isEmpty_cons, List.isEmpty_nil, Bool.false_eq_true, if_false, if_true]
  rw [hsep (c := Json.ch '{') (by decide), hsep (c := Json.ch ':') (by decide), hsep (c := Json.ch ',') (by decide)]
  rfl

theorem loadsText_credentialData (hn : n.all (·.val < 0x80)) :
    Json.loadsText F stack (Json.dumpsAscii F (credentialData d f n)) =
      if stack = 0 then .error .recursionError
      else .ok (.obj [(.lit "d", .str (joinPairs d)), (.lit "f", .str (joinPairs f)), (.lit "n", .str n),
        (.lit "v", .int 1)]) := by
  have hnpair : joinPairs n = n := joinPairs_eq_self_iff.2 (hasPair_of_ascii hn)
  rw [dumpsAscii_credentialData, Json.loadsText, Json.skipWs_cons (by decide), Json.scanOnce, if_neg (by decide),
    if_pos rfl]
  by_cases hstack : stack = 0
  · rw [if_pos hstack, if_pos hstack]
  · rw [if_neg hstack, if_neg hstack, Json.skipWs_quoted, if_neg (by simp [Json.quoted]; decide)]
    generalize hfuel : List.length _ = fuel
    obtain ⟨k, rfl⟩ : ∃ k, fuel = k + 6 := by
      refine ⟨fuel - 6, ?_⟩
      simp only [Json.quoted, List.length_append, List.length_cons] at hfuel
      omega
    have hlast : Json.scanFields F (k + 3) (stack - 1) (Text.lit "\"v\":1\x7d") = .ok ([(.lit "v", .int 1)], []) := rfl
    rw [Json.scanFields_quoted F (k + 4) _ _ _ (Json.skipWs_quoted _ _), Json.scanFields_quoted F (k + 3) _ _ _ (Json.skipWs_quoted _ _),
      Json.scanFields_quoted F (k + 2) _ _ _ (by decide), hlast, hnpair]
    rfl

theorem encodeUtf8_dumpsAscii (j : Json) :
    encodeUtf8 (Json.dumpsAscii F j) = .ok ((Json.dumpsAscii F j).flatMap CodePoint.utf8) := by
  have hencodable : Text.encodable (Json.dumpsAscii F j) = true := by
    rw [Text.encodable, List.all_eq_true]
    intro c hc
    have hascii := Json.dumpsAscii_ascii F j hc
    rw [CodePoint.surrogate, decide_eq_false (by omega), Bool.false_and]
    rfl
  rw [encodeUtf8, Text.utf8, if_pos hencodable]

theorem loadsBytes_credentialData : Json.loadsBytes F stack ((Json.dumpsAscii F (credentialData d f n)).flatMap CodePoint.utf8) =
    Json.loadsText F stack (Json.dumpsAscii F (credentialData d f n)) := by
  obtain ⟨t, ht⟩ : ∃ t, Json.dumpsAscii F (credentialData d f n) = Json.ch '{' :: Json.ch '"' :: t :=
    ⟨_, dumpsAscii_credentialData⟩
  rw [ht, Json.loadsBytes, decodeDetected_ascii (by decide) (by decide)]

variable {random : Fin 32 → Byte} {key : C.Key}

variable (hmac) (F) (stack) (random) in
/-- **A credential is decoded to the identity that it was created for**, with its pairs joined. -/
theorem decode_created (hd : d ≠ []) (hf : f ≠ []) (hkey : refreshSigning C secretKey = .ok key) :
    ∃ credential, createRefreshCredential C hmac F random d f secretKey = .ok credential ∧
      decodeRefreshCredential C hmac F stack credential secretKey =
        if stack = 0 then .error .recursionError else .ok ⟨joinPairs d, joinPairs f⟩ := by
  let nonce := b64Encode (List.ofFn random)
  let raw := (Json.dumpsAscii F (credentialData d f nonce)).flatMap CodePoint.utf8
  have hascii : (b64Encode raw).all (·.val < 0x80) = true := b64Encode_ascii raw
  have hlength : 32 ≤ nonce.length := by
    have hn := length_b64Encode (List.ofFn random)
    rw [List.length_ofFn] at hn
    exact hn ▸ (by decide)
  have hidentity : identityOf (.obj [(.lit "d", .str (joinPairs d)), (.lit "f", .str (joinPairs f)), (.lit "n", .str nonce),
      (.lit "v", .int 1)]) = some ⟨joinPairs d, joinPairs f⟩ :=
    if_pos ⟨rfl, rfl, mt joinPairs_eq_nil.1 hd, mt joinPairs_eq_nil.1 hf, hlength⟩
  refine ⟨credentialText (b64Encode raw) (b64Encode (hmac key (asciiBytes (b64Encode raw)))), ?_, ?_⟩
  · rw [createRefreshCredential, encodeUtf8_dumpsAscii, hkey]
    simp only [bind, Except.bind, pure, Except.pure]
    rw [encodeAscii_of hascii]
  · have hsplit := splitOn_credentialText (dot_not_mem_b64Encode raw)
      (dot_not_mem_b64Encode (hmac key (asciiBytes (b64Encode raw))))
    have hsigned : Signed C hmac secretKey (b64Encode raw) (b64Encode (hmac key (asciiBytes (b64Encode raw)))) raw :=
      ⟨key, hkey, rfl, rfl⟩
    obtain ⟨hno, -⟩ | ⟨raw', ⟨-, -, hraw, -⟩, hdecode⟩ := decode_parts hmac F stack hsplit hkey hascii
    · exact absurd ⟨raw, hsigned⟩ hno
    · obtain rfl : raw = raw' := by
        refine Option.some.inj ?_
        rw [← b64DecodeStrict_b64Encode, hraw, b64DecodeStrict_b64Encode]
      rw [hdecode, loadsBytes_credentialData, loadsText_credentialData (b64Encode_ascii _)]
      by_cases hstack : stack = 0
      · rw [if_pos hstack, if_pos hstack]
      · rw [if_neg hstack, if_neg hstack]
        dsimp only
        rw [hidentity]

theorem create_unusable (h : usableSecret secretKey = false) (credential : Text) :
    createRefreshCredential C hmac F random d f secretKey ≠ .ok credential := by
  rw [createRefreshCredential, encodeUtf8_dumpsAscii]
  cases hkey : refreshSigning C secretKey with
  | ok key =>
    rw [refreshSigning_ok hkey] at h
    cases h
  | error e =>
    rintro ⟨⟩

theorem exists_refreshSigning (h : usableSecret secretKey = true) : ∃ key, refreshSigning C secretKey = .ok key := by
  cases hkey : refreshSigning C secretKey with
  | ok key => exact ⟨key, rfl⟩
  | error e =>
    rw [(refreshSigning_error hkey).1] at h
    cases h

/-- **Exactly which identities are read as they were written.** -/
theorem roundTrip_iff (hd : d ≠ []) (hf : f ≠ []) :
    (∃ credential, createRefreshCredential C hmac F random d f secretKey = .ok credential ∧
      decodeRefreshCredential C hmac F stack credential secretKey = .ok ⟨d, f⟩) ↔
    usableSecret secretKey ∧ 0 < stack ∧ hasPair d = false ∧ hasPair f = false := by
  constructor
  · rintro ⟨credential, hcreate, hdecode⟩
    have husable : usableSecret secretKey = true := by
      by_contra h
      exact create_unusable (Bool.not_eq_true _ ▸ h) credential hcreate
    obtain ⟨key, hkey⟩ := exists_refreshSigning (C := C) husable
    obtain ⟨credential', hcreate', hdecode'⟩ := decode_created hmac F stack random hd hf hkey
    obtain rfl := Except.ok.inj (hcreate.symm.trans hcreate')
    rw [hdecode'] at hdecode
    by_cases hstack : stack = 0
    · rw [if_pos hstack] at hdecode
      cases hdecode
    · rw [if_neg hstack] at hdecode
      obtain ⟨hd', hf'⟩ := RefreshCredentialIdentity.mk.inj (Except.ok.inj hdecode)
      exact ⟨husable, Nat.pos_of_ne_zero hstack, joinPairs_eq_self_iff.1 hd', joinPairs_eq_self_iff.1 hf'⟩
  · rintro ⟨husable, hstack, hd', hf'⟩
    obtain ⟨key, hkey⟩ := exists_refreshSigning (C := C) husable
    obtain ⟨credential, hcreate, hdecode⟩ := decode_created hmac F stack random hd hf hkey
    rw [if_neg (by omega), joinPairs_eq_self_iff.2 hd', joinPairs_eq_self_iff.2 hf'] at hdecode
    exact ⟨credential, hcreate, hdecode⟩

theorem payload_unique {payload' signature' : Text} (hdot : dot ∉ payload) (hdot' : dot ∉ payload')
    (h : credentialText payload signature = credentialText payload' signature') : payload = payload' := by
  have htail := (List.cons_eq_cons.1 (List.append_cancel_left h)).2
  have hsplit := congrArg (List.splitOn dot) htail
  rw [List.splitOn_append_cons_self, List.splitOn_append_cons_self, List.splitOn_eq_singleton hdot,
    List.splitOn_eq_singleton hdot'] at hsplit
  exact (List.cons_eq_cons.1 hsplit).1

/-- **The refresh credentials**: what is created is read back, what is refused raises one exception, and what is
    accepted is told by its payload, exactly if the credential is orderly and the identity has no pair of surrogates. -/
theorem refreshCredential_iff {s : Text} (hd : d ≠ []) (hf : f ≠ []) :
    ((∃ credential, createRefreshCredential C hmac F random d f secretKey = .ok credential ∧
        decodeRefreshCredential C hmac F stack credential secretKey = .ok ⟨d, f⟩) ∧
      (∀ e, decodeRefreshCredential C hmac F stack s secretKey = .error e → e = .refreshCredentialError) ∧
      ∀ identity, decodeRefreshCredential C hmac F stack s secretKey = .ok identity →
        ∃ key payload, refreshSigning C secretKey = .ok key ∧
          s = credentialText payload (b64Encode (hmac key (asciiBytes payload))) ∧
          ∀ s' signature' identity', decodeRefreshCredential C hmac F stack s' secretKey = .ok identity' →
            s' = credentialText payload signature' → s' = s) ↔
    (usableSecret secretKey ∧ 0 < stack ∧ hasPair d = false ∧ hasPair f = false) ∧
      Orderly C hmac F stack s secretKey := by
  rw [roundTrip_iff hd hf, orderly_iff]
  refine and_congr_right fun _ => and_iff_left ?_
  intro identity h
  obtain ⟨key, payload, hkey, hdot, hs⟩ := decoded_canonical h
  refine ⟨key, payload, hkey, hs, ?_⟩
  rintro s' signature' identity' h' rfl
  obtain ⟨key', payload', hkey', hdot', hs'⟩ := decoded_canonical h'
  obtain rfl := Except.ok.inj (hkey.symm.trans hkey')
  obtain rfl := payload_unique hdot hdot' hs'
  rw [hs', hs]

end

end

def Sample.joinBytes (key message : List Byte) : List Byte := key ++ message

/-- `tbx1.`, a payload of accented letters, and a signature. -/
def Sample.accented : Text := credentialText (List.replicate 80 (CodePoint.ofChar 'é')) (.lit "AA")

theorem refreshCredential_sample :
    ((∃ credential, createRefreshCredential plainCrypto Sample.joinBytes oneText (fun _ => 0) (.lit "device-a")
        (.lit "family-a") (.lit "test-secret") = .ok credential ∧
        decodeRefreshCredential plainCrypto Sample.joinBytes oneText 900 credential (.lit "test-secret") =
          .ok ⟨.lit "device-a", .lit "family-a"⟩) ∧
      (∀ e, decodeRefreshCredential plainCrypto Sample.joinBytes oneText 900 (.lit "tbx1.AA") (.lit "test-secret") =
        .error e → e = .refreshCredentialError) ∧
      ∀ identity, decodeRefreshCredential plainCrypto Sample.joinBytes oneText 900 (.lit "tbx1.AA") (.lit "test-secret") =
          .ok identity →
        ∃ key payload, refreshSigning plainCrypto (.lit "test-secret") = .ok key ∧
          .lit "tbx1.AA" = credentialText payload (b64Encode (Sample.joinBytes key (asciiBytes payload))) ∧
          ∀ s' signature' identity',
            decodeRefreshCredential plainCrypto Sample.joinBytes oneText 900 s' (.lit "test-secret") = .ok identity' →
            s' = credentialText payload signature' → s' = .lit "tbx1.AA") := by
  refine (refreshCredential_iff (by decide) (by decide)).2 ⟨by decide +kernel, ?_⟩
  have hparts : (Text.lit "tbx1.AA").splitOn dot = [Text.lit "tbx1", Text.lit "AA"] := by decide +kernel
  intro payload signature h
  rw [hparts] at h
  cases h

/-- **A payload that is not ASCII** raises another exception. -/
theorem not_refreshCredential : ¬∀ (C : Crypto) (hmac : C.Key → List Byte → List Byte) (F : Json.FloatText) (stack : ℕ)
    (credential secretKey : Text) (e : CredentialError), usableSecret secretKey → 0 < stack →
    decodeRefreshCredential C hmac F stack credential secretKey = .error e → e = .refreshCredentialError := by
  intro h
  have herror : decodeRefreshCredential plainCrypto Sample.joinBytes oneText 900 Sample.accented (.lit "test-secret") =
      .error .unicodeEncodeError := by decide +kernel
  exact absurd (h _ _ _ _ _ _ _ (by decide) (by decide) herror) (by decide)

/-! ## The route -/

section

variable {C : Crypto} {hmac : C.Key → List Byte → List Byte} {F : Json.FloatText} {stack : ℕ} {secretKey : Text}

/-- The route catches `RefreshCredentialError`. -/
def caught : CredentialError → DecodeError
  | .refreshCredentialError => .refreshCredentialError
  | _ => .unhandled

/-- The route with this decoder. -/
def withCredentials (C : Crypto) (hmac : C.Key → List Byte → List Byte) (F : Json.FloatText) (stack : ℕ) (secretKey : Text)
    (env : RefreshEnv) : RefreshEnv :=
  { env with
    decodeRefreshCredential := fun credential =>
      (decodeRefreshCredential C hmac F stack credential secretKey).mapError caught }

/-- **The server fails** at exactly the credentials that are not orderly. -/
theorem refreshDeviceToken_serverError_iff {env : RefreshEnv} {form : RefreshTokenForm} {settings : RuntimeSettings}
    {deviceLimited : Bool} :
    refreshDeviceToken (withCredentials C hmac F stack secretKey env) form settings false deviceLimited =
      .done .serverError ↔ ¬Orderly C hmac F stack form.refreshToken secretKey := by
  rw [← orderly_iff]
  have hdecoder : (withCredentials C hmac F stack secretKey env).decodeRefreshCredential form.refreshToken =
      (decodeRefreshCredential C hmac F stack form.refreshToken secretKey).mapError caught := rfl
  rw [refreshDeviceToken, if_neg Bool.false_ne_true, hdecoder]
  cases decodeRefreshCredential C hmac F stack form.refreshToken secretKey with
  | ok identity => cases deviceLimited <;> simp [Except.mapError]
  | error e => cases e <;> simp [Except.mapError, caught, RefreshReply.invalidCredential]

end

end RefreshCredential

end TideBot
