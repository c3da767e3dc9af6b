/-
  The broker and the extension understand each other.

  The request that `dispatch` builds passes the extension's check, and the
  result that the extension builds for it settles the pending command with the
  outcome of the execution (`command_roundTrip`).  Four things bound this
  (`command_roundTrip_limits`): an error without a code arrives as
  `command_failed`, a sequence number has to be a safe integer of JavaScript,
  the extension takes no deadline more than 30 seconds away, and the broker can
  not encode a surrogate that stands alone.

  The envelopes are objects with literal keys, so each side's reads of the
  other's envelope are computed once (`read_requestEnvelope`,
  `identity_commandResult`).
-/
import TideBot.Broker.Locks
import TideBot.Lib.JsonStrings
import TideBot.Protocol.Command

namespace TideBot

open Lib

variable {numberText : ℚ → Text} {cfg : BrokerConfig}

/-! ## Times -/

theorem truncate_mono {p q : ℚ} (h : p ≤ q) : Broker.truncate p ≤ Broker.truncate q := by
  unfold Broker.truncate
  split_ifs with hp hq hq
  · exact Int.floor_le_floor h
  · exact absurd (hp.trans h) hq
  · exact (Int.ceil_le.2 (by exact_mod_cast (not_le.1 hp).le)).trans (Int.floor_nonneg.2 hq)
  · exact Int.ceil_le_ceil h

theorem truncate_add_le {q y : ℚ} {n : ℕ} (hy : y ≤ n) :
    Broker.truncate (q + y) - Broker.truncate q ≤ n := by
  have hmono : q + y ≤ q + n := by linarith
  have hfloor : ⌊q + y⌋ ≤ ⌊q⌋ + n := by
    rw [← Int.floor_add_natCast]; exact Int.floor_le_floor hmono
  have hceil : ⌈q + y⌉ ≤ ⌈q⌉ + n := by
    rw [← Int.ceil_add_natCast]; exact Int.ceil_le_ceil hmono
  have h₁ : ⌊q⌋ ≤ ⌈q⌉ := Int.floor_le_ceil q
  have h₂ : ⌊q + y⌋ ≤ ⌈q + y⌉ := Int.floor_le_ceil (q + y)
  unfold Broker.truncate
  split_ifs with hqy hq hq
  · omega
  · omega
  · -- from a time after the epoch to one before it
    have : ⌈q + y⌉ ≤ 0 := Int.ceil_le.2 (by exact_mod_cast (not_le.1 hqy).le)
    have : 0 ≤ ⌊q⌋ := Int.floor_nonneg.2 hq
    omega
  · omega

/-! ## The request -/

section
variable (p : PendingCommand) (name : Text) (args : List (Text × Json)) (now timeout : ℚ)

theorem read_requestEnvelope :
    CommandRequest.read (Broker.requestEnvelope p name args now timeout) =
      { id := p.commandId, deviceId := p.deviceId, userId := p.userId, sessionId := p.sessionId
        timestamp := Broker.truncate (now * 1000)
        deadlineAt := Broker.truncate ((now + timeout) * 1000)
        nonce := p.nonce, sequence := p.sequence
        name := .str name, args := .obj args, mutating := p.mutating } := by
  simp [CommandRequest.read, Broker.requestEnvelope, textAt, numberAt, Json.field, Json.get,
    Json.number]

theorem isCommandRequest_requestEnvelope {size : ℕ} {clock : ℚ}
    (hsize : (Broker.requestEnvelope p name args now timeout).size (Json.jsPrinter numberText) =
      some size) (hle : size ≤ 1048576) (hname : name ∈ browserCommandNames.map Text.lit)
    (hids : ∀ x ∈ [p.commandId, p.deviceId, p.userId, p.sessionId, p.nonce],
      0 < x.utf16Length ∧ x.utf16Length ≤ 128)
    (htimeout : 0 ≤ timeout ∧ timeout ≤ 30)
    (hseq : 1 ≤ p.sequence ∧ p.sequence ≤ 9007199254740991)
    (hclock : clock ≤ Broker.truncate ((now + timeout) * 1000)) :
    isCommandRequest numberText (Broker.requestEnvelope p name args now timeout) clock := by
  have hle₁ : (Broker.truncate (now * 1000) : ℚ) ≤ Broker.truncate ((now + timeout) * 1000) := by
    exact_mod_cast truncate_mono (by linarith [htimeout.1])
  have hle₂ : (Broker.truncate ((now + timeout) * 1000) : ℚ) - Broker.truncate (now * 1000) ≤ 30000 := by
    have h := truncate_add_le (q := now * 1000) (y := timeout * 1000) (n := 30000)
      (by push_cast; linarith [htimeout.2])
    rw [← add_mul] at h
    exact_mod_cast h
  have htimes : hasTimes (Broker.requestEnvelope p name args now timeout) clock := by
    have hseq₁ : (1 : ℚ) ≤ (p.sequence : ℚ) := by exact_mod_cast hseq.1
    simp [hasTimes, numberAt, Broker.requestEnvelope, Json.field, Json.number, isSafeInteger,
      hle₁, hle₂, hclock, hseq₁, hseq.2]
  have hid : ∀ x ∈ [p.commandId, p.deviceId, p.userId, p.sessionId, p.nonce],
      isBoundedId (some (.str x)) := fun x hx => by
    simp only [isBoundedId, decide_eq_true_eq]; exact hids x hx
  have hcommand : isCommand numberText (some (.obj [(.lit "name", .str name),
      (.lit "args", .obj args), (.lit "mutating", .bool p.mutating)])) := by
    simp only [isCommand, Json.field, hasKeys, payloadKeys]
    simp [Json.jsString, hname, Json.isObj, Json.isBool]
  unfold isCommandRequest
  rw [hsize, Broker.requestEnvelope]
  rw [Broker.requestEnvelope] at htimes
  simp only [Bool.and_eq_true]
  refine ⟨⟨⟨⟨⟨⟨⟨⟨⟨⟨by simpa using hle, by simp [hasKeys, commandKeys]⟩, ?_⟩, ?_⟩, ?_⟩, ?_⟩, ?_⟩, ?_⟩,
    ?_⟩, htimes⟩, ?_⟩
  · simp [numberAt, Json.field, Json.number, protocolVersion]
  · simp [Json.field, Json.eqStr]
  · simpa [Json.field] using hid p.commandId (by simp)
  · simpa [Json.field] using hid p.deviceId (by simp)
  · simpa [Json.field] using hid p.userId (by simp)
  · simpa [Json.field] using hid p.sessionId (by simp)
  · simpa [Json.field] using hid p.nonce (by simp)
  · simpa [Json.field] using hcommand

end

/-! ## The result -/

/-- The outcome of an execution, as the caller of `dispatch` should see it. -/
def ExecResult.outcome : ExecResult → Outcome
  | .ok value => .value value
  | .error code message => .error (.make code (some message))

/-- An error has a code. -/
def ExecResult.coded : ExecResult → Bool
  | .ok _ => true
  | .error code _ => code ≠ []

theorem jsNumber_natCast (n : ℕ) : jsNumber (n : ℚ) = .int n := by simp [jsNumber]

theorem resultError_coded {code message : Text} (h : code ≠ []) :
    Broker.resultError (.obj [(.lit "code", .str code), (.lit "message", .str message)]) =
      .make code (some message) := by
  by_cases hm : message = [] <;>
    simp [Broker.resultError, Json.get, Json.field, Broker.nonemptyStr, h, hm,
      BrowserCommandError.make]

section
variable {p : PendingCommand} {request : CommandRequest}

/-- A request that echoes the identity of a pending command. -/
structure CommandRequest.Echoes (request : CommandRequest) (p : PendingCommand) : Prop where
  id : request.id = p.commandId
  deviceId : request.deviceId = p.deviceId
  userId : request.userId = p.userId
  sessionId : request.sessionId = p.sessionId
  nonce : request.nonce = p.nonce
  sequence : request.sequence = p.sequence

theorem identity_commandResult (h : request.Echoes p) (r : ExecResult) (now : ℚ) :
    Broker.identity p "command.result" (commandResult request r now) := by
  cases r <;>
    simp [Broker.identity, commandResult, resultPayload, Json.get, Json.field, Json.eqStr,
      Json.eqInt, Json.isObj, protocolVersion, h.deviceId, h.userId, h.sessionId, h.nonce,
      h.sequence, jsNumber_natCast]

theorem acceptResult_commandResult {b : Broker} (h : request.Echoes p) (hid : p.commandId ≠ [])
    (hb : b.pending.get p.commandId = some p) {r : ExecResult} (hr : r.coded) {now : ℚ} {size : ℕ}
    (hsize : (commandResult request r now).size (Json.pyPrinter cfg.floatText) = some size)
    (hle : size ≤ cfg.maxResultBytes) :
    b.acceptResult cfg (commandResult request r now) (some p.deviceId) =
      .ok (b.removePending p.commandId, p.commandId, r.outcome) := by
  have hcheck : Broker.checkEnvelope cfg (commandResult request r now) = none := by
    rw [Broker.checkEnvelope, hsize]
    simp [hle, commandResult, Json.isObj]
  have hget : Broker.nonemptyStr ((commandResult request r now).get (.lit "id")) =
      some p.commandId := by
    simp [commandResult, Json.get, Json.field, Broker.nonemptyStr, h.id, hid]
  have hdev : ((commandResult request r now).get (.lit "deviceId")).eqStr p.deviceId := by
    simp [commandResult, Json.get, Json.field, Json.eqStr, h.deviceId]
  have hpayload : (commandResult request r now).get (.lit "payload") = resultPayload request r := by
    simp [commandResult, Json.get, Json.field]
  rw [Broker.acceptResult, hcheck]
  simp only [hget, hb, identity_commandResult h, Option.all_some, hdev, Bool.and_self,
    Bool.not_true, Bool.false_eq_true, if_false, hpayload]
  cases r with
  | ok value => simp [resultPayload, Json.get, Json.field, ExecResult.outcome]
  | error code message =>
    have hcode : code ≠ [] := by simpa [ExecResult.coded] using hr
    simp [resultPayload, Json.get, Json.field, ExecResult.outcome, resultError_coded hcode]

end

theorem acceptResult_not_encodable {b : Broker} {envelope : Json} {deviceId : Option Text}
    (h : ¬ envelope.hasUtf8) :
    b.acceptResult cfg envelope deviceId = .error (.of "invalid_result") := by
  have hsize : envelope.size (Json.pyPrinter cfg.floatText) = none := by
    rw [← Option.not_isSome_iff_eq_none, Json.isSome_size]
    exact h
  rw [Broker.acceptResult, Broker.checkEnvelope, hsize]

/-! ## The round trip -/

/-- `BROWSER_TOOL_NAMES` (`utils/browser_extension_tools.py`): the commands the
    server sends. -/
def browserToolNames : List String :=
  ["browser_observe", "browser_click", "browser_type", "browser_select", "browser_scroll",
    "browser_navigate", "browser_go_back", "browser_go_forward", "browser_reload", "browser_wait",
    "browser_screenshot", "browser_download", "browser_console", "browser_network", "browser_dom",
    "browser_recording"]

theorem browserToolNames_subset {name : Text} (h : name ∈ browserToolNames.map Text.lit) :
    name ∈ browserCommandNames.map Text.lit := h

/-- **A command and its result make a round trip.**  The request that `dispatch`
    builds passes the extension's check until its deadline, and as long as the
    command is pending, the result of its execution settles it, and no other
    command, with the outcome; a result that has no UTF-8 encoding is refused. -/
theorem command_roundTrip (hcfg : cfg.defaultTimeoutSeconds ≤ 30) {b : Broker}
    {userId sessionId name : Text} {args : List (Text × Json)} {mutating : Bool}
    {timeout : Option ℚ} {commandId nonce : Text} {now : ℚ} {d : Broker.Dispatched}
    (hd : b.dispatch cfg userId sessionId (.str name) (.obj args) (.bool mutating) timeout commandId
      nonce now = .ok d)
    (hname : name ∈ browserToolNames.map Text.lit)
    {size : ℕ} (hsize : d.request.size (Json.jsPrinter numberText) = some size)
    (hle : size ≤ 1048576)
    (hids : ∀ x ∈ [commandId, d.pending.deviceId, userId, sessionId, nonce],
      0 < x.utf16Length ∧ x.utf16Length ≤ 128)
    (hseq : (b.sequences.get d.pending.deviceId).getD 0 < 9007199254740991)
    {clock : ℚ} (hclock : (CommandRequest.read d.request).timestamp ≤ clock ∧
      clock ≤ (CommandRequest.read d.request).deadlineAt) :
    isCommandRequest numberText d.request clock ∧
    ∀ (r : ExecResult) (now' : ℚ) (b' : Broker), b'.pending.get commandId = some d.pending →
      let result := commandResult (CommandRequest.read d.request) r now'
      (r.coded → result.hasUtf8 →
        (∀ n ∈ result.size (Json.pyPrinter cfg.floatText), n ≤ cfg.maxResultBytes) →
        ∃ b'', b'.acceptResult cfg result (some d.pending.deviceId) = .ok (b'', commandId, r.outcome) ∧
          b''.pending.get commandId = none ∧
          ∀ c, c ≠ commandId → b''.pending.get c = b'.pending.get c) ∧
      (¬ result.hasUtf8 →
        b'.acceptResult cfg result (some d.pending.deviceId) = .error (.of "invalid_result")) := by
  obtain ⟨s, dev, n, fields, h⟩ := Broker.dispatch_ok hd
  obtain ⟨hn, -⟩ := h.nameEq
  cases hn
  cases h.argsEq
  have hp := h.pending
  have hread := read_requestEnvelope d.pending name args now d.commandTimeout
  rw [← h.request] at hread
  rw [hread] at hclock
  have hcid : d.pending.commandId = commandId := by rw [hp]
  constructor
  · rw [h.request] at hsize ⊢
    refine isCommandRequest_requestEnvelope _ _ _ _ _ hsize hle (browserToolNames_subset hname) ?_
      ⟨h.timeoutBounds.1.le, h.timeoutBounds.2.trans hcfg⟩ ?_ hclock.2
    · have : d.pending.userId = userId ∧ d.pending.sessionId = sessionId ∧
          d.pending.nonce = nonce := by rw [hp]; exact ⟨rfl, rfl, rfl⟩
      rw [hcid, this.1, this.2.1, this.2.2]
      exact hids
    · have hs : d.pending.sequence = (b.sequences.get d.pending.deviceId).getD 0 + 1 := by
        rw [hp]
      omega
  · intro r now' b' hpend
    refine ⟨fun hr henc hmax => ?_, acceptResult_not_encodable⟩
    obtain ⟨n, hn⟩ := Option.isSome_iff_exists.1 ((Json.isSome_size _).2 henc)
    have hne : d.pending.commandId ≠ [] := by
      rw [hcid]
      rintro rfl
      have := (hids [] (by simp)).1
      simp [Text.utf16Length] at this
    have hecho : (CommandRequest.read d.request).Echoes d.pending := by
      rw [hread]; exact ⟨rfl, rfl, rfl, rfl, rfl, rfl⟩
    rw [← hcid] at hpend ⊢
    refine ⟨b'.removePending d.pending.commandId,
      acceptResult_commandResult hecho hne hpend hr hn (hmax n hn), ?_, ?_⟩
    · rw [Broker.removePending_pending, Dict.get_erase_self]
    · intro c hc
      rw [Broker.removePending_pending, Dict.get_erase_of_ne _ hc]

namespace Sample

def ready : Broker where
  devices := Dict.empty.set (.lit "A")
    ⟨.lit "u", .lit "A", .lit "s", .lit "f", .lit "https://tide-bot.com", 0⟩
  sessions := Dict.empty.set (.lit "S") ⟨.lit "u", .lit "A", .lit "s", .lit "S", 7,
    .lit "https://example.com", .lit "autonomous", .lit "locked", 0⟩
  pending := .empty
  mutatingDevices := ∅
  readingDevices := .empty
  sequences := .empty

def pendingClick : PendingCommand :=
  ⟨.lit "c", .lit "u", .lit "A", .lit "S", .lit "s", .lit "n", 1, true⟩

def clicked : Broker.Dispatched :=
  ⟨ready.addPending pendingClick, pendingClick,
    Broker.requestEnvelope pendingClick (.lit "browser_click") [] 0 30, 30⟩

theorem dispatch_clicked : ready.dispatch brokerConfig (.lit "u") (.lit "S")
    (.str (.lit "browser_click")) (.obj []) (.bool true) none (.lit "c") (.lit "n") 0 =
      .ok clicked := by
  rfl

def integerText (q : ℚ) : Text := .lit (toString q.num)

end Sample

/-- A click, and the value it comes to. -/
theorem command_roundTrip_click :
    isCommandRequest Sample.integerText Sample.clicked.request 15000 ∧
    ∃ b', Sample.clicked.broker.acceptResult Sample.brokerConfig
      (commandResult (CommandRequest.read Sample.clicked.request) (.ok (.str (.lit "done"))) 15000)
      (some (.lit "A")) = .ok (b', .lit "c", .value (.str (.lit "done"))) := by
  obtain ⟨size, hsize, hle⟩ : ∃ n ∈ Sample.clicked.request.size (Json.jsPrinter Sample.integerText),
      n ≤ 1048576 := by decide +kernel
  have hclock : (CommandRequest.read Sample.clicked.request).timestamp ≤ 15000 ∧
      15000 ≤ (CommandRequest.read Sample.clicked.request).deadlineAt := by decide +kernel
  obtain ⟨hreq, hres⟩ := command_roundTrip le_rfl Sample.dispatch_clicked (by decide) hsize hle
    (by decide) (by decide) hclock
  obtain ⟨b', hb', -⟩ := (hres (.ok (.str (.lit "done"))) 15000 Sample.clicked.broker
    (by decide +kernel)).1 rfl (by decide +kernel) (by decide +kernel)
  exact ⟨hreq, b', hb'⟩

/-- A click that fails with an empty error code is settled with another code; a
    sequence number that is no safe integer is refused; so is a deadline that a
    broker with a longer timeout sets; and so is a value that is half of a
    surrogate pair. -/
theorem command_roundTrip_limits :
    ((∃ n ∈ (commandResult (CommandRequest.read Sample.clicked.request)
        (.error [] (.lit "broken")) 15000).size (Json.pyPrinter Sample.brokerConfig.floatText),
      n ≤ Sample.brokerConfig.maxResultBytes) ∧
    ∃ b' e, Sample.clicked.broker.acceptResult Sample.brokerConfig
        (commandResult (CommandRequest.read Sample.clicked.request) (.error [] (.lit "broken")) 15000)
        (some (.lit "A")) = .ok (b', .lit "c", .error e) ∧
      e.code = .lit "command_failed" ∧ e.code ≠ []) ∧
    (∃ d, { Sample.ready with sequences := Dict.empty.set (.lit "A") 9007199254740991 }.dispatch
        Sample.brokerConfig (.lit "u") (.lit "S") (.str (.lit "browser_click")) (.obj [])
        (.bool true) none (.lit "c") (.lit "n") 0 = .ok d ∧
      isCommandRequest Sample.integerText d.request 0 = false) ∧
    (∃ d, Sample.ready.dispatch { Sample.brokerConfig with defaultTimeoutSeconds := 31 } (.lit "u")
        (.lit "S") (.str (.lit "browser_click")) (.obj []) (.bool true) none (.lit "c") (.lit "n") 0 =
          .ok d ∧
      isCommandRequest Sample.integerText d.request 0 = false) ∧
    Sample.clicked.broker.acceptResult Sample.brokerConfig
        (commandResult (CommandRequest.read Sample.clicked.request) (.ok (.str [0xD83D])) 15000)
        (some (.lit "A")) = .error (.of "invalid_result") :=
  ⟨⟨by decide +kernel, _, _, rfl, rfl, by decide⟩, ⟨_, rfl, by decide +kernel⟩,
    ⟨_, rfl, by decide +kernel⟩, acceptResult_not_encodable (by decide +kernel)⟩

end TideBot
