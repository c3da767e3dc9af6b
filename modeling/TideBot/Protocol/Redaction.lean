/-
  What a browser tool returns to the model (`utils/browser_extension_tools.py`,
  `utils/browser_extension_crypto.py`).

  The result of a command is JSON from the device.  The callable of a tool returns it through a
  sanitizer: `redact_sensitive_data` for most tools, `_sanitize_console` and `_sanitize_network`
  for two, and `_redact_type_echoes` for `browser_type`.

  Three of them keep the key rule at every depth: the value under a sensitive key is
  `[REDACTED]`.  `_redact_type_echoes` has a key rule of its own, for the text that was typed,
  and looks at no sensitive key; so what `browser_type` returns keeps the rule only for the
  results of which `_redact_string` makes it true (`EchoSafe`).
-/
import TideBot.Lib.JsonText
import TideBot.Lib.JsonTree
import TideBot.Lib.Regex
import TideBot.Extension.Mutating
import TideBot.Workflow.Definition

namespace TideBot

open Lib

/-- What `urlsplit` makes of a URL, with its port; `none`: reading the port raises. -/
structure UrlParts extends SplitUrl where
  port : Option (Option ℕ)

/-- `str.lower` of an ASCII character. -/
def lowerAscii (c : CodePoint) : CodePoint :=
  if 65 ≤ c.val ∧ c.val ≤ 90 then Fin.ofNat _ (c.val + 32) else c

/-- What Python knows of Unicode and of URLs: `str.lower`, `str.isalnum` and `str.isdecimal` of a
    character, and `urllib.parse`. -/
structure PyText where
  lower : Text → Text
  isAlnum : CodePoint → Bool
  isDecimal : CodePoint → Bool
  urlsplit : Text → Option UrlParts
  urlunsplit : Text → Text → Text → Text
  lower_ascii : ∀ t : Text, (∀ c ∈ t, c.val < 128) → lower t = t.map lowerAscii

/-- `REDACTED` -/
def redacted : Text := .lit "[REDACTED]"

section
variable (py : PyText)

/-! ## The key rule -/

/-- `_SENSITIVE_KEYS` -/
def sensitiveKeys : List String :=
  ["access_token", "api_key", "apikey", "authorization", "bearer", "card_number", "client_secret",
    "cookie", "credit_card", "credit_card_number", "cvc", "cvv", "device_code", "id_token",
    "passcode", "passphrase", "password", "passwd", "proxy_authorization", "refresh_token",
    "secret", "set_cookie", "token", "verifier", "x_api_key"]

/-- `[a-z0-9]` -/
def isKeyChar (c : CodePoint) : Bool := (97 ≤ c.val && c.val ≤ 122) || (48 ≤ c.val && c.val ≤ 57)

/-- `str.strip`, of one character. -/
def stripChar (c : CodePoint) (t : Text) : Text :=
  ((t.dropWhile (· = c)).reverse.dropWhile (· = c)).reverse

/-- `re.sub(r'[^a-z0-9]+', '_', t).strip('_')` -/
def keyWords (t : Text) : Text :=
  stripChar (.ofChar '_')
    ((Regex.plus (.char fun c => !isKeyChar c)).sub (fun _ => [.ofChar '_']) t)

/-- `_normalize_key` -/
def normalizeKey (key : Text) : Text := keyWords (py.lower (Text.strip key))

/-- `_normalize_key(key) in _SENSITIVE_KEYS` -/
def underKeyRule (key : Text) : Bool := normalizeKey py key ∈ sensitiveKeys.map Text.lit

/-! ## `redact_sensitive_data` -/

/-- `(?i)`: the characters of a literal. -/
def anyCase (w : String) : Regex := .word (fun c d => ignoreCase d = c) w

/-- `\b` -/
def wordBoundary : Regex := .look fun before after =>
  let isWord (c : Option CodePoint) : Bool := c.any fun c => py.isAlnum c || c = .ofChar '_'
  isWord before != isWord after

def spaces : Regex := .star (.char Text.isSpace)

def oneChar (cs : String) : Regex := .char fun c => c ∈ Text.lit cs

/-- `_BEARER_PATTERN` -/
def bearerPattern : Regex := .cat [wordBoundary py, anyCase "bearer", .plus (.char Text.isSpace),
  .plus (.char fun c => isKeyChar (ignoreCase c) || c ∈ Text.lit "._~+/=-")]

/-- `_COOKIE_PATTERN` -/
def cookiePattern : Regex := .cat [wordBoundary py, .oneOf [anyCase "cookie", anyCase "set-cookie"], spaces,
  oneChar ":", spaces, .plus (.char fun c => c ∉ Text.lit "\r\n")]

/-- Two words with `[_-]?` between them. -/
def joined (w w' : String) : Regex := .cat [anyCase w, .opt (oneChar "_-"), anyCase w']

/-- The words of `_ASSIGNMENT_PATTERN`. -/
def assignmentWords : Regex := .oneOf [anyCase "password", anyCase "passwd", anyCase "passcode",
  joined "api" "key", joined "access" "token", joined "refresh" "token", anyCase "token",
  joined "client" "secret", anyCase "secret", anyCase "verifier", joined "device" "code"]

/-- A string between two of these quotes. -/
def quoted (quote : String) : Regex :=
  .cat [oneChar quote, .star (.char fun c => c ∉ Text.lit quote), oneChar quote]

/-- `_ASSIGNMENT_PATTERN` -/
def assignmentPattern : Regex := .cat [wordBoundary py, .group assignmentWords, spaces, oneChar ":=", spaces,
  .oneOf [quoted "\"", quoted "'", .plus (.char fun c => !Text.isSpace c && c ∉ Text.lit ",;")]]

/-- `_CARD_PATTERN` -/
def cardPattern : Regex := .cat [.look fun before _ => !before.any py.isDecimal,
  .between (.cat [.char py.isDecimal, .opt (oneChar " -")]) 6 12, .char py.isDecimal,
  .look fun _ after => !after.any py.isDecimal]

/-- `_redact_string` -/
def redactString (t : Text) : Text :=
  (cardPattern py).sub (fun _ => redacted)
    ((assignmentPattern py).sub (fun word => word.getD [] ++ .lit "=" ++ redacted)
      ((cookiePattern py).sub (fun _ => .lit "Cookie: " ++ redacted)
        ((bearerPattern py).sub (fun _ => .lit "Bearer " ++ redacted) t)))

/-- What `redact_sensitive_data` makes of a value that is no container. -/
def redactAtom : Json → Json
  | .str s => .str (redactString py s)
  | .arr _ | .obj _ => .null
  | j => j

/-- `redact_sensitive_data` -/
def redactSensitiveData : Json → Json :=
  .walk (fun key => if underKeyRule py key then some (.str redacted) else none) (redactAtom py)

/-! ## The other sanitizers -/

/-- The keys of `_redact_type_echoes`. -/
def echoKeys : List String :=
  ["typed_value", "typedvalue", "input_value", "inputvalue", "entered_text", "enteredtext",
    "text", "value"]

/-- Is the value of this key an echo of what was typed? -/
def isEchoKey (key : Text) : Bool := keyWords (py.lower key) ∈ echoKeys.map Text.lit

/-- `_redact_type_echoes` -/
def redactTypeEchoes : Json → Json :=
  .walk (fun key => if isEchoKey py key then some (.str redacted) else none) (redactAtom py)

/-- `_redacted_url` -/
def redactedUrl : Json → Text
  | .str url =>
    match py.urlsplit url with
    | none => (redactString py url).take 2048
    | some parsed =>
      if py.lower parsed.scheme ∉ [Text.lit "http", Text.lit "https"] ∨ parsed.hostname.getD [] = [] then
        (redactString py url).take 2048
      else
        match parsed.port with
        | none => []
        | some port =>
          let host := parsed.hostname.getD [] ++
            (match port with
            | none => []
            | some port => .lit ":" ++ Json.intText port)
          (redactString py (py.urlunsplit (py.lower parsed.scheme) host parsed.path)).take 2048
  | _ => []

/-- The `entries` of a value, if they are a list; at most 200. -/
def listedEntries (value : Json) : List Json :=
  match value.field (.lit "entries") with
  | some (.arr xs) => xs.take 200
  | _ => []

/-- One entry of `_sanitize_console`; `none`: it is skipped. -/
def consoleEntry (entry : Json) : Except BrokerError (Option Json) :=
  if !entry.isObj then .ok none
  else do
    let some severity ← Broker.memberOf ["debug", "info", "warning", "error"] (entry.get (.lit "severity"))
      | return none
    let .str summary := entry.get (.lit "summary") | return none
    return some (.obj [(.lit "severity", .str severity),
      (.lit "summary", .str ((redactString py summary).take 2000))])

/-- The result of a sanitizer that keeps a list of entries. -/
def withEntries (entry : Json → Except BrokerError (Option Json)) (value : Json) : Except BrokerError Json :=
  ((listedEntries value).mapM entry).map fun es => .obj [(.lit "entries", .arr (es.filterMap id))]

/-- `_sanitize_console` -/
def sanitizeConsole : Json → Except BrokerError Json := withEntries (consoleEntry py)

/-- `_TIMING_FIELDS` -/
def timingFields : List String := ["duration", "dns", "connect", "ssl", "ttfb", "download"]

/-- `_NETWORK_METHODS` -/
def networkMethods : List String := ["GET", "POST", "PUT", "PATCH", "DELETE", "HEAD", "OPTIONS"]

/-- `_NETWORK_RESOURCE_TYPES` -/
def networkResourceTypes : List String :=
  ["document", "stylesheet", "image", "media", "font", "script", "fetch", "xhr", "websocket", "other"]

/-- The timing of an entry: numbers under known names. -/
def sanitizeTiming : Json → Json
  | .obj fields => .obj (fields.filter fun f => f.1 ∈ timingFields.map Text.lit && f.2.number.isSome)
  | _ => .null

/-- One entry of `_sanitize_network`. -/
def networkEntry (entry : Json) : Except BrokerError (Option Json) :=
  if !entry.isObj then .ok none
  else do
    let url := redactedUrl py (entry.get (.lit "url"))
    let some method ← Broker.memberOf networkMethods (entry.get (.lit "method")) | return none
    let some resourceType ← Broker.memberOf networkResourceTypes (entry.get (.lit "resourceType"))
      | return none
    let .int status := entry.get (.lit "status") | return none
    if 0 ≤ status ∧ status ≤ 599 ∧ url ≠ [] then
      return some (.obj [(.lit "method", .str method), (.lit "url", .str url),
        (.lit "resourceType", .str resourceType), (.lit "status", .int status),
        (.lit "timing", sanitizeTiming (entry.get (.lit "timing")))])
    else return none

/-- `_sanitize_network` -/
def sanitizeNetwork : Json → Except BrokerError Json := withEntries (networkEntry py)

/-! ## The tools -/

/-- `BROWSER_TOOL_NAMES` -/
inductive BrowserTool where
  | observe | click | type | select | scroll | navigate | goBack | goForward | reload | wait
  | screenshot | download | console | network | dom | recording
  deriving DecidableEq

/-- The `sanitizer` of a tool. -/
def BrowserTool.sanitizer : BrowserTool → Json → Except BrokerError Json
  | console => sanitizeConsole py
  | network => sanitizeNetwork py
  | _ => fun value => .ok (redactSensitiveData py value)

/-- What the callable of a tool returns for the result of its command. -/
def BrowserTool.returned (tool : BrowserTool) (result : Json) : Except BrokerError Json :=
  if tool = .type then .ok (redactTypeEchoes py result) else tool.sanitizer py result

/-! ## The rule -/

/-- Every entry with a sensitive key, at any depth, has the value `[REDACTED]`. -/
def KeysRedacted (value : Json) : Prop :=
  ∀ e ∈ value.entries, underKeyRule py e.1 → e.2 = .str redacted

/-- The entries that `_redact_type_echoes` comes by are redacted as echoes, or by
    `_redact_string`, if their keys are sensitive. -/
def EchoSafe (value : Json) : Prop :=
  ∀ e ∈ value.entriesWithin (isEchoKey py), underKeyRule py e.1 →
    isEchoKey py e.1 ∨ ∃ s, e.2 = .str s ∧ redactString py s = redacted

variable {py}

/-! ### The two walks -/

theorem entries_redactAtom (j : Json) : (redactAtom py j).entries = [] := by
  cases j <;> rfl

theorem keysRedacted_walk {p : Text → Bool} {value : Json} :
    KeysRedacted py (.walk (fun key => if p key then some (.str redacted) else none) (redactAtom py) value) ↔
      ∀ e ∈ value.entriesWithin p, underKeyRule py e.1 → p e.1 ∨
        Json.walk (fun key => if p key then some (.str redacted) else none) (redactAtom py) e.2 =
          .str redacted := by
  have hstop : (fun k => (if p k then some (Json.str redacted) else none).isSome) = p := by
    funext k
    cases p k <;> rfl
  rw [KeysRedacted, Json.entries_walk ?_ entries_redactAtom, hstop, List.forall_mem_map]
  · refine forall₂_congr fun e _ => imp_congr_right fun _ => ?_
    cases hp : p e.1 <;> simp [Json.walkEntry, hp]
  · intro k r hr
    split_ifs at hr
    cases hr
    rfl

theorem keysRedacted_redactSensitiveData (value : Json) : KeysRedacted py (redactSensitiveData py value) :=
  keysRedacted_walk.2 fun _ _ hkey => .inl hkey

/-- A walk makes `[REDACTED]` of the strings of which `_redact_string` makes it. -/
theorem walk_eq_redacted {replace : Text → Option Json} {value : Json} :
    Json.walk replace (redactAtom py) value = .str redacted ↔
      ∃ s, value = .str s ∧ redactString py s = redacted := by
  cases value <;> simp [Json.walk, redactAtom]

theorem keysRedacted_redactTypeEchoes {value : Json} :
    KeysRedacted py (redactTypeEchoes py value) ↔ EchoSafe py value := by
  rw [redactTypeEchoes, keysRedacted_walk, EchoSafe]
  simp only [walk_eq_redacted]

/-! ### The other two sanitizers -/

/-- The keys that the two sanitizers write. -/
def writtenKeys : List String :=
  ["entries", "severity", "summary", "method", "url", "resourceType", "status", "timing"] ++ timingFields

theorem mem_strip {c : CodePoint} {t : Text} (h : c ∈ Text.strip t) : c ∈ t := by
  have h' := (List.dropWhile_sublist _).subset (List.mem_reverse.1 h)
  exact (List.dropWhile_sublist _).subset (List.mem_reverse.1 h')

theorem underKeyRule_written {w : String} (hw : w ∈ writtenKeys) : underKeyRule py (.lit w) = false := by
  have hall : ∀ w ∈ writtenKeys, (Text.lit w).all (·.val < 128) ∧
      keyWords ((Text.strip (.lit w)).map lowerAscii) ∉ sensitiveKeys.map Text.lit := by
    decide +kernel
  obtain ⟨hascii, hnot⟩ := hall w hw
  rw [underKeyRule, normalizeKey, py.lower_ascii _ fun c hc => by
    simpa using List.all_eq_true.1 hascii c (mem_strip hc)]
  exact decide_eq_false hnot

/-- Every key of the value is one that the sanitizers write. -/
def Written (value : Json) : Prop := ∀ e ∈ value.entries, e.1 ∈ writtenKeys.map Text.lit

theorem Written.keysRedacted {value : Json} (h : Written value) : KeysRedacted py value := by
  intro e he hkey
  obtain ⟨w, hw, heq⟩ := List.mem_map.1 (h e he)
  rw [← heq, underKeyRule_written hw] at hkey
  cases hkey

theorem Written.obj {fields : List (Text × Json)}
    (h : ∀ f ∈ fields, f.1 ∈ writtenKeys.map Text.lit ∧ Written f.2) : Written (.obj fields) := by
  intro e he
  obtain ⟨f, hf, rfl | he⟩ := Json.mem_entries_obj.1 he
  · exact (h _ hf).1
  · exact (h f hf).2 e he

theorem Written.of_entries {value : Json} (h : value.entries = []) : Written value := by
  intro e he
  rw [h] at he
  cases he

theorem written_str (s : Text) : Written (.str s) := .of_entries rfl

theorem written_int (n : ℤ) : Written (.int n) := .of_entries rfl

theorem written_sanitizeTiming (value : Json) : Written (sanitizeTiming value) := by
  cases value with
  | obj fields =>
    refine .obj ?_
    intro f hf
    obtain ⟨-, hp⟩ := List.mem_filter.1 hf
    simp only [Bool.and_eq_true, decide_eq_true_eq] at hp
    obtain ⟨hname, hnum⟩ := hp
    constructor
    · rw [writtenKeys, List.map_append]
      exact List.mem_append_right _ hname
    · refine .of_entries ?_
      cases hv : f.2 with
      | int | float => rfl
      | null | bool | str | arr | obj => simp [hv, Json.number] at hnum
  | null | bool | int | float | str | arr => exact .of_entries rfl

/-- An object with one of these keys each for values that are strings, or are written themselves. -/
theorem written_fields (fields : List (String × Json))
    (h : ∀ f ∈ fields, f.1 ∈ writtenKeys ∧ Written f.2) :
    Written (.obj (fields.map fun f => (.lit f.1, f.2))) := by
  refine .obj ?_
  intro g hg
  obtain ⟨f, hf, rfl⟩ := List.mem_map.1 hg
  exact ⟨List.mem_map_of_mem (h f hf).1, (h f hf).2⟩

theorem written_consoleEntry {entry v : Json} (h : consoleEntry py entry = .ok (some v)) : Written v := by
  simp only [consoleEntry, bind, Except.bind, pure, Except.pure] at h
  split_ifs at h
  · cases h
  · split at h
    · cases h
    · split at h
      · split at h
        · cases h
          refine written_fields [("severity", _), ("summary", _)] ?_
          simp [writtenKeys, written_str]
        · cases h
      · cases h

theorem written_networkEntry {entry v : Json} (h : networkEntry py entry = .ok (some v)) : Written v := by
  simp only [networkEntry, bind, Except.bind, pure, Except.pure] at h
  split_ifs at h
  · cases h
  · split at h
    · cases h
    · split at h
      · split at h
        · cases h
        · split at h
          · split at h
            · split_ifs at h
              · cases h
                refine written_fields [("method", _), ("url", _), ("resourceType", _), ("status", _),
                  ("timing", _)] ?_
                intro f hf
                simp only [List.mem_cons, List.not_mem_nil, or_false] at hf
                rcases hf with rfl | rfl | rfl | rfl | rfl
                · exact ⟨by simp [writtenKeys], written_str _⟩
                · exact ⟨by simp [writtenKeys], written_str _⟩
                · exact ⟨by simp [writtenKeys], written_str _⟩
                · exact ⟨by simp [writtenKeys], written_int _⟩
                · exact ⟨by simp [writtenKeys], written_sanitizeTiming _⟩
              · cases h
            · cases h
          · cases h
      · cases h

theorem mem_of_mapM {α β ε : Type} {f : α → Except ε β} {xs : List α} {ys : List β}
    (h : xs.mapM f = .ok ys) {y : β} (hy : y ∈ ys) : ∃ x ∈ xs, f x = .ok y := by
  induction xs generalizing ys with
  | nil =>
    cases h
    cases hy
  | cons x xs ih =>
    rw [List.mapM_cons] at h
    cases hx : f x with
    | error e => simp [hx, bind, Except.bind] at h
    | ok z =>
      cases hxs : xs.mapM f with
      | error e => simp [hx, hxs, bind, Except.bind] at h
      | ok zs =>
        simp only [hx, hxs, bind, Except.bind, pure, Except.pure, Except.ok.injEq] at h
        subst h
        rcases List.mem_cons.1 hy with rfl | hy
        · exact ⟨x, List.mem_cons_self, hx⟩
        · obtain ⟨x', hx', hf⟩ := ih hxs hy
          exact ⟨x', List.mem_cons_of_mem _ hx', hf⟩

theorem written_withEntries {entry : Json → Except BrokerError (Option Json)} {value v : Json}
    (hentry : ∀ x y, entry x = .ok (some y) → Written y) (h : withEntries entry value = .ok v) :
    Written v := by
  cases hes : (listedEntries value).mapM entry with
  | error e => simp [withEntries, hes, Except.map] at h
  | ok es =>
    simp only [withEntries, hes, Except.map, Except.ok.injEq] at h
    subst h
    refine .obj ?_
    intro f hf
    obtain rfl := List.mem_singleton.1 hf
    refine ⟨List.mem_map_of_mem (by decide), ?_⟩
    intro e he
    obtain ⟨y, hy, he⟩ := Json.mem_entries_arr.1 he
    obtain ⟨o, ho, hoy⟩ := List.mem_filterMap.1 hy
    obtain rfl : o = some y := hoy
    obtain ⟨x, -, hx⟩ := mem_of_mapM hes ho
    exact hentry x y hx e he

/-! ### What the tools return -/

theorem keysRedacted_sanitizer (tool : BrowserTool) {result v : Json}
    (h : tool.sanitizer py result = .ok v) : KeysRedacted py v := by
  unfold BrowserTool.sanitizer at h
  split at h
  · exact (written_withEntries (fun _ _ => written_consoleEntry) h).keysRedacted
  · exact (written_withEntries (fun _ _ => written_networkEntry) h).keysRedacted
  · cases h
    exact keysRedacted_redactSensitiveData result

/-- **A tool returns no sensitive key with a value, except that `browser_type` does for the
    results that are not safe.** -/
theorem keysRedacted_returned_iff (py : PyText) (tool : BrowserTool) (result : Json) :
    (∀ v, tool.returned py result = .ok v → KeysRedacted py v) ↔ (tool = .type → EchoSafe py result) := by
  unfold BrowserTool.returned
  split_ifs with htype
  · refine ⟨fun h _ => keysRedacted_redactTypeEchoes.1 (h _ rfl), ?_⟩
    rintro h v hv
    cases hv
    exact keysRedacted_redactTypeEchoes.2 (h htype)
  · exact ⟨fun _ h => absurd h htype, fun _ v hv => keysRedacted_sanitizer tool hv⟩

end

/-- Texts of ASCII characters; no URL is split. -/
def asciiText : PyText where
  lower t := t.map lowerAscii
  isAlnum c := isKeyChar (lowerAscii c)
  isDecimal c := 48 ≤ c.val && c.val ≤ 57
  urlsplit _ := none
  urlunsplit _ _ _ := []
  lower_ascii _ _ := rfl

/-- The device answers to `browser_type` with the password of the form. -/
theorem keysRedacted_returned_fails :
    ∃ v, BrowserTool.type.returned asciiText (.obj [(.lit "typed", .bool true),
        (.lit "form", .obj [(.lit "password", .str (.lit "hunter2"))])]) = .ok v ∧
      ¬ KeysRedacted asciiText v := by
  refine ⟨_, rfl, ?_⟩
  rw [keysRedacted_redactTypeEchoes]
  intro h
  have hform : isEchoKey asciiText (.lit "form") = false := by decide +kernel
  have hpassword : isEchoKey asciiText (.lit "password") = false := by decide +kernel
  have hplain : redactString asciiText (.lit "hunter2") ≠ redacted := by decide +kernel
  rcases h (.lit "password", .str (.lit "hunter2"))
    (by simp [Json.entriesWithin, Json.fieldEntries, hform]) (by decide +kernel) with hecho | ⟨s, hs, hred⟩
  · rw [hpassword] at hecho
    cases hecho
  · cases hs
    exact hplain hred

end TideBot
