/-
  Saving the settings unchanged, and the other connections (`routers/openai.py`).

  `get_config` shows every configuration without its private credentials; what is submitted gets the stored ones, if
  it claims the auth type of the subscription.  So a submission of what was shown stores the same, but for what
  `get_config` has hidden and nothing puts back (`Connection.Restored`): credentials of another connection, or none
  that count, and a status that is not there.

  The other connections are the triples of URL, key and configuration without that of the subscription; a login
  and a disconnection keep them in order.
-/
import TideBot.Subscription.Workers

namespace TideBot

open Lib

/-! ## The form -/

/-- What the settings page submits if nothing is changed. -/
def OpenAIConfig.form (s : OpenAIConfig) : OpenAIConfigForm where
  enable := s.enable
  baseUrls := s.baseUrls
  keys := s.keys
  configs := ⟨s.configs.entries.map fun e => (e.1, some e.2), by
    rw [List.map_map]
    exact s.configs.nodup⟩

/-- Equal, as mappings. -/
def Connection.Same (c c' : Connection) : Prop := ∀ key, Dict.get c key = Dict.get c' key

/-- The fields that a submission sets for the subscription. -/
structure Connection.Forced (c : Connection) : Prop where
  apiType : Dict.get c (.lit "api_type") = some (.str (.lit "responses"))
  prefixId : Dict.get c (.lit "prefix_id") = some (.str (.lit "chatgpt"))
  provider : Dict.get c (.lit "provider") = some (.str (.lit "openai"))

/-- What is hidden of the connection is put back: its credentials are those of the subscription, they count, and there
    is a status beside them. -/
def Connection.Restored (c : Connection) : Prop :=
  ∀ credentials, c.credentials = some credentials →
    c.isChatgpt ∧ credentials.truthy ∧ (Dict.get c chatgptPublicStatusKey).isSome

/-! ## The other connections -/

/-- The connections: URL, key and configuration. -/
def OpenAIConfig.connections (s : OpenAIConfig) : List (Text × Text × Connection) :=
  s.baseUrls.zip (s.keys.zip s.indexed)

/-- All connections but that of the subscription. -/
def OpenAIConfig.others (s : OpenAIConfig) : List (Text × Text × Connection) :=
  match s.findChatgptConnection with
  | none => s.connections
  | some (idx, _) => s.connections.eraseIdx idx

section

variable {s s' : OpenAIConfig} {cipher : CredentialCipher} {c : Connection} {idx : ℕ} {credentials : Credentials}

theorem get_form_configs (s : OpenAIConfig) (key : Text) : s.form.configs.get key = (s.configs.get key).map some := by
  ext c
  rw [← Dict.mem_entries_iff, Option.map_eq_some_iff, OpenAIConfig.form]
  simp only [List.mem_map, Prod.mk.injEq]
  constructor
  · rintro ⟨⟨key', c'⟩, hmem, rfl, rfl⟩
    exact ⟨c', Dict.mem_entries_iff.1 hmem, rfl⟩
  · rintro ⟨c', hget, rfl⟩
    exact ⟨(key, c'), Dict.mem_entries_iff.2 hget, rfl, rfl⟩

theorem form_indexed (s : OpenAIConfig) : s.form.indexed = some s.indexed := by
  have hindexed : indexedOpenaiConfigs (some Dict.empty) s.form.baseUrls s.form.configs = s.indexed.map some := by
    rw [OpenAIConfig.indexed, indexedOpenaiConfigs, indexedOpenaiConfigs, List.map_map]
    refine List.map_congr_left fun e _ => ?_
    simp only [get_form_configs, Function.comp_apply]
    rcases s.configs.get (indexKey e.2) with _ | c
    · rcases s.configs.get e.1 with _ | c'
      · rfl
      · rfl
    · rfl
  rw [OpenAIConfigForm.indexed, hindexed, List.mapM_map]
  exact List.mapM_pure.trans (congrArg some (List.map_id _))

theorem getConfig_indexed (s : OpenAIConfig) : s.getConfig.indexed = s.indexed.map Connection.redact :=
  indexed_all (by rw [List.length_map, length_indexed])

/-! ## A submission of what was shown -/

namespace Connection

theorem get_setAll_of_forced {c : Connection} (h : c.Forced) : Same (c.setAll
    [(.lit "api_type", .str (.lit "responses")), (.lit "prefix_id", .str (.lit "chatgpt")),
      (.lit "provider", .str (.lit "openai"))]) c := by
  intro key
  show Dict.get (((Dict.set c _ _).set _ _).set _ _) key = _
  by_cases h₃ : key = .lit "provider"
  · rw [h₃, Dict.get_set_self, h.provider]
  rw [Dict.get_set_of_ne _ h₃]
  by_cases h₂ : key = .lit "prefix_id"
  · rw [h₂, Dict.get_set_self, h.prefixId]
  rw [Dict.get_set_of_ne _ h₂]
  by_cases h₁ : key = .lit "api_type"
  · rw [h₁, Dict.get_set_self, h.apiType]
  rw [Dict.get_set_of_ne _ h₁]

theorem get_setAll_congr {c c' : Connection} (h : Same c c') (fields : List (Text × Json)) :
    Same (c.setAll fields) (c'.setAll fields) := by
  induction fields generalizing c c' with
  | nil => exact h
  | cons f fs ih =>
    have hset : Same (Dict.set c f.1 f.2) (Dict.set c' f.1 f.2) := by
      intro key
      rw [Dict.get_set, Dict.get_set, h key]
    exact ih hset

theorem get_setAll_of_notMem (c : Connection) {fields : List (Text × Json)} {key : Text}
    (h : ∀ f ∈ fields, f.1 ≠ key) : Dict.get (c.setAll fields) key = Dict.get c key := by
  induction fields generalizing c with
  | nil => rfl
  | cons f fs ih =>
    obtain ⟨hf, hfs⟩ := List.forall_mem_cons.1 h
    show Dict.get (Connection.setAll (c.set f.1 f.2) fs) key = _
    rw [ih _ hfs, Dict.get_set_of_ne c hf.symm]

theorem redact_redact (c : Connection) : c.redact.redact = c.redact :=
  Dict.erase_of_get_none (Dict.get_erase_self c _)

theorem same_restore {c : Connection} {x v : Json} (hx : c.credentials = some x)
    (hv : Dict.get c chatgptPublicStatusKey = some v) :
    Same ((c.redact.set chatgptPrivateCredentialsKey x).set chatgptPublicStatusKey v) c := by
  intro key
  by_cases hstatus : key = chatgptPublicStatusKey
  · rw [hstatus, Dict.get_set_self, hv]
  rw [Dict.get_set_of_ne _ hstatus]
  by_cases hprivate : key = chatgptPrivateCredentialsKey
  · rw [hprivate, Dict.get_set_self, ← hx, credentials]
  rw [Dict.get_set_of_ne _ hprivate, redact, Dict.get_erase_of_ne c hprivate]

/-- **A connection that is submitted as it was shown** is stored as it was, just if what is hidden is put back. -/
theorem same_mergeConnection {c : Connection} {stored : Option Connection} (hstored : c.isChatgpt → stored = some c)
    (hforced : c.isChatgpt → c.Forced) : Same (mergeConnection stored c.redact) c ↔ c.Restored := by
  have hhidden : Dict.get c.redact chatgptPrivateCredentialsKey = none := Dict.get_erase_self c _
  unfold mergeConnection
  simp only [redact_redact, redact_isChatgpt]
  by_cases hchatgpt : c.isChatgpt
  · simp only [if_pos hchatgpt, hstored hchatgpt]
    have hforced := hforced hchatgpt
    rcases hc : c.credentials with _ | x
    · -- there is nothing to hide
      have hshown : c.redact = c := Dict.erase_of_get_none hc
      rw [hshown]
      refine iff_of_true (get_setAll_of_forced hforced) ?_
      intro x hx
      rw [hc] at hx
      cases hx
    · by_cases hx : x.truthy
      · simp only [if_pos hx]
        rcases hstatus : Dict.get c chatgptPublicStatusKey with _ | v
        · refine iff_of_false (fun hsame => ?_) fun hrestored => ?_
          · have hset := hsame chatgptPublicStatusKey
            rw [get_setAll_of_notMem _ (by decide), Dict.get_set_self, hstatus] at hset
            cases hset
          · have hsome := (hrestored x hc).2.2
            rw [hstatus] at hsome
            cases hsome
        · refine iff_of_true ?_ ?_
          · rw [Option.getD_some]
            intro key
            rw [get_setAll_congr (same_restore hc hstatus) _ key]
            exact get_setAll_of_forced hforced key
          · intro x' hx'
            rw [hc] at hx'
            cases hx'
            exact ⟨hchatgpt, hx, by rw [hstatus]; rfl⟩
      · simp only [if_neg hx]
        refine iff_of_false (fun hsame => ?_) fun hrestored => hx (hrestored x hc).2.1
        have hget := hsame chatgptPrivateCredentialsKey
        rw [get_setAll_of_notMem _ (by decide), hhidden, ← credentials, hc] at hget
        cases hget
  · simp only [if_neg hchatgpt]
    rcases hc : c.credentials with _ | x
    · have hshown : c.redact = c := Dict.erase_of_get_none hc
      rw [hshown]
      refine iff_of_true (fun _ => rfl) ?_
      intro x hx
      rw [hc] at hx
      cases hx
    · refine iff_of_false (fun hsame => ?_) fun hrestored => hchatgpt (hrestored x hc).1
      have hget := hsame chatgptPrivateCredentialsKey
      rw [hhidden, ← credentials, hc] at hget
      cases hget

end Connection

/-- There is one connection of the subscription at most, and it has the fields that are set for it. -/
structure OpenAIConfig.OneSubscription (s : OpenAIConfig) : Prop where
  one : s.indexed.countP Connection.isChatgpt ≤ 1
  forced : ∀ c ∈ s.indexed, c.isChatgpt → c.Forced

theorem find?_of_countP_le_one {α : Type} {p : α → Bool} {l : List α} (h : l.countP p ≤ 1) {a : α} (ha : a ∈ l)
    (hp : p a) : l.find? p = some a := by
  induction l with
  | nil => cases ha
  | cons b l ih =>
    rw [List.find?_cons]
    by_cases hb : p b
    · rw [List.countP_cons_of_pos hb] at h
      have hnone : l.countP p = 0 := by omega
      rcases List.mem_cons.1 ha with rfl | ha
      · rw [hb]
      · exact absurd hp (List.countP_eq_zero.1 hnone a ha)
    · rw [List.countP_cons_of_neg hb] at h
      rw [Bool.not_eq_true] at hb
      rw [hb]
      refine ih h ((List.mem_cons.1 ha).resolve_left ?_)
      rintro rfl
      rw [hb] at hp
      cases hp

/-- **A submission of what was shown** stores the same URLs and keys, and the same configurations just if what is
    hidden of each is put back. -/
theorem updateConfig_form (hone : s.OneSubscription) (hkeys : s.keys.length = s.baseUrls.length) :
    ∃ s', s.updateConfig s.getConfig.form = some s' ∧ s'.baseUrls = s.baseUrls ∧ s'.keys = s.keys ∧
      (List.Forall₂ Connection.Same s'.indexed s.indexed ↔ ∀ c ∈ s.indexed, c.Restored) := by
  have hstored : ∀ c ∈ s.indexed, c.isChatgpt → s.findChatgptConnection.map Prod.snd = some c := by
    intro c hc hchatgpt
    rw [map_snd_findChatgptConnection]
    exact find?_of_countP_le_one hone.one hc hchatgpt
  have hupdate : s.updateConfig s.getConfig.form = some ⟨s.enable, s.baseUrls, s.keys,
      byIndex (s.indexed.map fun c => mergeConnection (s.findChatgptConnection.map Prod.snd) c.redact)⟩ := by
    have hfitted : s.getConfig.form.fittedKeys = s.keys := by
      have hlength : s.getConfig.form.keys.length = s.getConfig.form.baseUrls.length := hkeys
      rw [OpenAIConfigForm.fittedKeys, if_neg (by omega), hlength, Nat.sub_self, List.replicate_zero, List.append_nil]
      rfl
    rw [OpenAIConfig.updateConfig, mergeChatgptPrivateConfig, form_indexed, getConfig_indexed, hfitted, Option.map_some,
      Option.map_some, List.map_map]
    rfl
  refine ⟨_, hupdate, rfl, rfl, ?_⟩
  rw [indexed_all (by rw [List.length_map, length_indexed]), List.forall₂_map_left_iff, List.forall₂_same]
  refine forall₂_congr fun c hc => ?_
  exact Connection.same_mergeConnection (hstored c hc) (hone.forced c hc)

/-! ## Logins and disconnections -/

theorem zip_set {α β : Type} (as : List α) (bs : List β) (i : ℕ) (a : α) (b : β) :
    (as.set i a).zip (bs.set i b) = (as.zip bs).set i (a, b) := by
  induction as generalizing bs i with
  | nil => simp
  | cons a' as ih =>
    cases bs with
    | nil => simp
    | cons b' bs =>
      cases i with
      | zero => rfl
      | succ i =>
        rw [List.set_cons_succ, List.set_cons_succ, List.zip_cons_cons, ih, List.zip_cons_cons, List.set_cons_succ]

theorem zip_eraseIdx {α β : Type} {as : List α} {bs : List β} (h : as.length = bs.length) (i : ℕ) :
    (as.eraseIdx i).zip (bs.eraseIdx i) = (as.zip bs).eraseIdx i := by
  induction as generalizing bs i with
  | nil => simp
  | cons a as ih =>
    cases bs with
    | nil => cases h
    | cons b bs =>
      cases i with
      | zero => rfl
      | succ i =>
        rw [List.eraseIdx_cons_succ, List.eraseIdx_cons_succ, List.zip_cons_cons, ih (Nat.succ.inj h),
          List.zip_cons_cons, List.eraseIdx_cons_succ]

theorem connections_set {enable : Option Bool} {url key : Text} :
    (OpenAIConfig.mk enable (s.baseUrls.set idx url) (s.keys.set idx key) (byIndex (s.indexed.set idx c))).connections =
      s.connections.set idx (url, key, c) := by
  rw [OpenAIConfig.connections, indexed_all (by simp), zip_set, zip_set, OpenAIConfig.connections]

/-- **A login** keeps the other connections. -/
theorem others_persist (hkeys : s.keys.length = s.baseUrls.length) :
    (s.persistChatgptCredentials cipher credentials).others = s.others := by
  have hlength : s.indexed.length = s.baseUrls.length := length_indexed s
  unfold OpenAIConfig.persistChatgptCredentials
  rcases hfind : s.findChatgptConnection with _ | ⟨idx, existing⟩
  · -- a connection is added, which is the one of the subscription from now on
    have hnone := findChatgptConnection_eq_none.1 hfind
    have hlogin := @isChatgpt_login cipher Dict.empty credentials
    have hfind' : (OpenAIConfig.mk (some true) (s.baseUrls ++ [chatgptCodexBaseUrl]) (s.keys ++ [[]])
        (byIndex (s.indexed ++
          [Connection.setAll Dict.empty (loginFields cipher credentials)]))).findChatgptConnection =
        some (s.indexed.length, Connection.setAll Dict.empty (loginFields cipher credentials)) := by
      rw [findChatgptConnection_iff, indexed_all (by simp)]
      refine ⟨?_, List.getElem?_concat_length⟩
      rw [List.findIdx?_append, List.findIdx?_eq_none_iff.2 hnone, List.findIdx?_singleton, if_pos hlogin]
      simp
    simp only [OpenAIConfig.others, hfind, hfind']
    rw [OpenAIConfig.connections, indexed_all (by simp), OpenAIConfig.connections,
      List.zip_append (by omega), List.zip_append (by simp; omega)]
    rw [List.eraseIdx_append_of_length_le (by simp)]
    have hlast : s.indexed.length - (s.baseUrls.zip (s.keys.zip s.indexed)).length = 0 := by
      simp only [List.length_zip]
      omega
    rw [hlast]
    simp
  · -- the connection stays where it is
    obtain ⟨hidx, hget⟩ := findChatgptConnection_iff.1 hfind
    obtain ⟨hlt, -, hfirst⟩ := List.findIdx?_eq_some_iff_getElem.1 hidx
    have hlogin := @isChatgpt_login cipher existing credentials
    have hreplicate : s.keys ++ List.replicate (idx + 1 - s.keys.length) [] = s.keys := by
      rw [show idx + 1 - s.keys.length = 0 by omega, List.replicate_zero, List.append_nil]
    simp only [hreplicate]
    have hfind' : (OpenAIConfig.mk (some true) (s.baseUrls.set idx chatgptCodexBaseUrl) (s.keys.set idx [])
        (byIndex (s.indexed.set idx (existing.setAll (loginFields cipher credentials))))).findChatgptConnection =
        some (idx, existing.setAll (loginFields cipher credentials)) := by
      rw [findChatgptConnection_iff, indexed_all (by simp)]
      refine ⟨?_, by rw [List.getElem?_set_self hlt]⟩
      refine List.findIdx?_eq_some_iff_getElem.2 ⟨by rwa [List.length_set], by simpa using hlogin, ?_⟩
      intro j hj
      rw [List.getElem_set_ne (by omega)]
      exact hfirst j hj
    simp only [OpenAIConfig.others, hfind, hfind']
    rw [connections_set, List.eraseIdx_set_eq]

/-- **A disconnection** leaves the other connections. -/
theorem connections_disconnect (hkeys : s.keys.length = s.baseUrls.length) (hs : s.disconnect = some s') :
    s'.connections = s.others := by
  have hlength : s.indexed.length = s.baseUrls.length := length_indexed s
  obtain ⟨⟨idx, c⟩, hfind, rfl⟩ := Option.map_eq_some_iff.1 hs
  have herased : (s.indexed.eraseIdx idx).length = (s.baseUrls.eraseIdx idx).length := by
    rw [List.length_eraseIdx, List.length_eraseIdx, hlength]
  simp only [OpenAIConfig.others, hfind]
  rw [OpenAIConfig.connections, indexed_all herased, zip_eraseIdx (by omega), zip_eraseIdx (by simp; omega),
    OpenAIConfig.connections]

/-- **Saving the settings unchanged** stores the same URLs and keys, and the same configurations just if what is
    hidden of each is put back; **logins and disconnections** touch no other connection. -/
theorem openaiConfig_kept (hone : s.OneSubscription) (hkeys : s.keys.length = s.baseUrls.length) :
    (∃ s', s.updateConfig s.getConfig.form = some s' ∧ s'.baseUrls = s.baseUrls ∧ s'.keys = s.keys ∧
      (List.Forall₂ Connection.Same s'.indexed s.indexed ↔ ∀ c ∈ s.indexed, c.Restored)) ∧
      (∀ cipher credentials, (s.persistChatgptCredentials cipher credentials).others = s.others) ∧
      ∀ s', s.disconnect = some s' → s'.connections = s.others :=
  ⟨updateConfig_form hone hkeys, fun _ _ => others_persist hkeys, fun _ hs => connections_disconnect hkeys hs⟩

end

namespace Sample

/-- A connection by its URL, and the one of the subscription by its index. -/
def connectedConfig : OpenAIConfig where
  enable := some true
  baseUrls := [.lit "https://example.com/v1", chatgptCodexBaseUrl]
  keys := [.lit "key", []]
  configs := ⟨[(.lit "https://example.com/v1", Dict.empty.set (.lit "enable") (.bool true)),
    (indexKey 1, Connection.setAll Dict.empty (loginFields cipher credentials))], by decide +kernel⟩

/-- A connection that was of the subscription, and still has its credentials. -/
def strayConfig : OpenAIConfig where
  enable := some true
  baseUrls := [.lit "https://example.com/v1"]
  keys := [.lit "key"]
  configs := ⟨[(indexKey 0, (Dict.empty.set (.lit "auth_type") (.str (.lit "bearer"))).set chatgptPrivateCredentialsKey
    (.str (.lit "sealed")))], by decide +kernel⟩

theorem connectedConfig_one : connectedConfig.OneSubscription := by
  refine ⟨by decide +kernel, ?_⟩
  intro c hc hchatgpt
  have hall : ∀ c ∈ connectedConfig.indexed, c.isChatgpt →
      Dict.get c (.lit "api_type") = some (.str (.lit "responses")) ∧
        Dict.get c (.lit "prefix_id") = some (.str (.lit "chatgpt")) ∧
          Dict.get c (.lit "provider") = some (.str (.lit "openai")) := by
    decide +kernel
  obtain ⟨htype, hprefix, hprovider⟩ := hall c hc hchatgpt
  exact ⟨htype, hprefix, hprovider⟩

theorem strayConfig_one : strayConfig.OneSubscription := by
  have hnone : ∀ c ∈ strayConfig.indexed, c.isChatgpt = false := by decide +kernel
  refine ⟨by decide +kernel, ?_⟩
  intro c hc hchatgpt
  rw [hnone c hc] at hchatgpt
  cases hchatgpt

end Sample

/-- Two connections, one of them of the subscription. -/
theorem openaiConfig_kept_two :
    (∃ s', Sample.connectedConfig.updateConfig Sample.connectedConfig.getConfig.form = some s' ∧
      s'.baseUrls = Sample.connectedConfig.baseUrls ∧ s'.keys = Sample.connectedConfig.keys ∧
      (List.Forall₂ Connection.Same s'.indexed Sample.connectedConfig.indexed ↔
        ∀ c ∈ Sample.connectedConfig.indexed, c.Restored)) ∧
    (∀ cipher credentials, (Sample.connectedConfig.persistChatgptCredentials cipher credentials).others =
      Sample.connectedConfig.others) ∧
      ∀ s', Sample.connectedConfig.disconnect = some s' → s'.connections = Sample.connectedConfig.others :=
  openaiConfig_kept Sample.connectedConfig_one rfl

/-- Credentials of another connection are dropped by a submission of what was shown. -/
theorem openaiConfig_kept_fails : Sample.strayConfig.OneSubscription ∧
    Sample.strayConfig.keys.length = Sample.strayConfig.baseUrls.length ∧
      ∃ s', Sample.strayConfig.updateConfig Sample.strayConfig.getConfig.form = some s' ∧
        ¬List.Forall₂ Connection.Same s'.indexed Sample.strayConfig.indexed := by
  refine ⟨Sample.strayConfig_one, rfl, ?_⟩
  obtain ⟨s', hupdate, -, -, hsame⟩ := updateConfig_form Sample.strayConfig_one rfl
  refine ⟨s', hupdate, ?_⟩
  rw [hsame]
  intro hrestored
  have hstray : ∃ c ∈ Sample.strayConfig.indexed, c.credentials = some (.str (.lit "sealed")) ∧
      c.isChatgpt = false := by
    decide +kernel
  obtain ⟨c, hc, hcredentials, hnot⟩ := hstray
  have hchatgpt := (hrestored c hc _ hcredentials).1
  rw [hnot] at hchatgpt
  cases hchatgpt

end TideBot
