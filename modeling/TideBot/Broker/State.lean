/-
  The command broker (`utils/browser_extension_broker.py`).

  `Broker` is the state of one `BrowserCommandBroker`: the registered devices
  and sessions, the pending commands, the busy locks and the sequence counters.
  Every method is a function from the state to the new state, or to the error it
  raises; a method that raises leaves the state alone.  The asynchronous parts
  are cut where the source awaits: `dispatch` is the part up to the wait, and
  what can end the wait (a result, a cancellation, a timeout, the transport) are
  operations of their own.

  Clock readings, command ids and nonces are arguments.  Values that arrive from
  the socket are JSON, so the type checks of the source are kept.
-/
import TideBot.Lib.Dict
import TideBot.Lib.Json
import TideBot.Lib.Locks
import TideBot.Lib.Machine

namespace TideBot

open Lib

/-- `PROTOCOL_VERSION` -/
def protocolVersion : ℤ := 1

/-- `MAX_REGISTERED_DEVICES` -/
def maxRegisteredDevices : ℕ := 10000

/-- `MAX_REGISTERED_SESSIONS` -/
def maxRegisteredSessions : ℕ := 10000

/-- The parameters of a broker; `floatText` is how Python prints a float. -/
structure BrokerConfig where
  defaultTimeoutSeconds : ℚ := 30
  maxResultBytes : ℕ := 1048576
  maxPendingCommands : ℕ := 256
  floatText : ℚ → Text

/-- `BrowserCommandError` -/
structure BrowserCommandError where
  code : Text
  message : Text
  deriving DecidableEq

/-- The constructor of `BrowserCommandError`: the message defaults to the code. -/
def BrowserCommandError.make (code : Text) (message : Option Text) : BrowserCommandError :=
  ⟨code, if message.getD [] = [] then code else message.getD []⟩

/-- An error with a fixed code and no message. -/
def BrowserCommandError.of (code : String) : BrowserCommandError := .make (.lit code) none

/-- What a method raises: a `BrowserCommandError`, or the `TypeError` of a set
    lookup with a value that cannot be hashed. -/
inductive BrokerError where
  | command (e : BrowserCommandError)
  | typeError
  deriving DecidableEq

/-- A record of `devices`. -/
structure DeviceRecord where
  userId : Text
  deviceId : Text
  sid : Text
  tokenFamilyId : Text
  origin : Text
  lastSeenAt : ℚ
  deriving DecidableEq

/-- A record of `sessions`. -/
structure SessionRecord where
  userId : Text
  deviceId : Text
  sid : Text
  sessionId : Text
  tabId : ℤ
  tabOrigin : Text
  actionMode : Text
  tabPolicy : Text
  openedAt : ℚ
  deriving DecidableEq

/-- `_PendingCommand`, without its future and its task. -/
structure PendingCommand where
  commandId : Text
  userId : Text
  deviceId : Text
  sessionId : Text
  sid : Text
  nonce : Text
  sequence : ℕ
  mutating : Bool
  deriving DecidableEq

/-- How the future of a command is settled. -/
inductive Outcome where
  | value (v : Json)
  | error (e : BrowserCommandError)
  | cancelled

/-- The state of a broker. -/
structure Broker where
  devices : Dict Text DeviceRecord
  sessions : Dict Text SessionRecord
  pending : Dict Text PendingCommand
  mutatingDevices : Finset Text
  readingDevices : Dict Text ℕ
  sequences : Dict Text ℕ

/-- A broker with nothing registered. -/
def Broker.empty : Broker := ⟨.empty, .empty, .empty, ∅, .empty, .empty⟩

namespace Broker

variable (b : Broker)

/-! ## The registries -/

/-- `register_device` -/
def registerDevice (userId deviceId sid tokenFamilyId origin : Text) (now : ℚ) :
    Except BrokerError Broker :=
  if userId = [] ∨ deviceId = [] ∨ sid = [] ∨ tokenFamilyId = [] ∨ origin = [] then
    .error (.command (.of "invalid_device_registration"))
  else if b.devices.get deviceId = none ∧ maxRegisteredDevices ≤ b.devices.size then
    .error (.command (.of "device_registry_full"))
  else
    .ok { b with devices := b.devices.set deviceId ⟨userId, deviceId, sid, tokenFamilyId, origin, now⟩ }

/-- `_device_for_sid`: the one device registered for a socket. -/
def deviceForSid (sid : Text) : Option DeviceRecord :=
  match b.devices.entries.filter fun e => e.2.sid = sid with
  | [e] => some e.2
  | _ => none

/-- `device_authentication_required` -/
def unauthenticated : BrokerError := .command (.of "device_authentication_required")

/-- `heartbeat` -/
def heartbeat (sid : Text) (now : ℚ) : Except BrokerError Broker :=
  match b.deviceForSid sid with
  | none => .error unauthenticated
  | some device =>
    .ok { b with devices := b.devices.set device.deviceId { device with lastSeenAt := now } }

/-- A member of a set of strings; lists and dictionaries cannot be looked up. -/
def memberOf (names : List String) : Json → Except BrokerError (Option Text)
  | .str s => .ok (if s ∈ names.map Text.lit then some s else none)
  | .arr _ | .obj _ => .error .typeError
  | _ => .ok none

/-- Does another session of the device stand in the way of this one? -/
def otherTab (deviceId sessionId : Text) (tabId : ℤ) : Bool :=
  b.sessions.entries.any fun e =>
    e.2.deviceId = deviceId ∧ (e.1 ≠ sessionId ∨ e.2.tabId ≠ tabId)

/-- The value of `isinstance(value, str) and value`. -/
def nonemptyStr : Json → Option Text
  | .str s => if s = [] then none else some s
  | _ => none

/-- The value of `not isinstance(value, bool) and isinstance(value, int) and value >= 0`. -/
def tabNumber : Json → Option ℤ
  | .int n => if n < 0 then none else some n
  | _ => none

/-- `open_session` -/
def openSession (sid : Text) (sessionId tabId tabOrigin actionMode tabPolicy : Json) (now : ℚ) :
    Except BrokerError Broker := do
  let some device := b.deviceForSid sid | .error unauthenticated
  let some session := nonemptyStr sessionId | .error (.command (.of "invalid_session"))
  let some tab := tabNumber tabId | .error (.command (.of "invalid_tab"))
  let some tabOrigin := nonemptyStr tabOrigin | .error (.command (.of "invalid_tab_origin"))
  let some actionMode ← memberOf ["autonomous", "consequential-approval", "manual-approval"] actionMode
    | .error (.command (.of "invalid_action_mode"))
  let some tabPolicy ← memberOf ["locked", "follow-active"] tabPolicy
    | .error (.command (.of "invalid_tab_policy"))
  if b.otherTab device.deviceId session tab then
    .error (.command (.of "single_tab_only"))
  else if b.sessions.get session = none ∧ maxRegisteredSessions ≤ b.sessions.size then
    .error (.command (.of "session_registry_full"))
  else
    let record : SessionRecord :=
      ⟨device.userId, device.deviceId, sid, session, tab, tabOrigin, actionMode, tabPolicy, now⟩
    .ok { b with sessions := b.sessions.set session record }

/-! ## Pending commands -/

/-- `_remove_pending` -/
def removePending (commandId : Text) : Broker :=
  match b.pending.get commandId with
  | none => b
  | some p =>
    { b with
      pending := b.pending.erase commandId
      mutatingDevices :=
        if p.mutating then b.mutatingDevices.erase p.deviceId else b.mutatingDevices
      readingDevices :=
        if p.mutating then b.readingDevices
        else
          let remainingReads := (b.readingDevices.get p.deviceId).getD 1 - 1
          if 0 < remainingReads then b.readingDevices.set p.deviceId remainingReads
          else b.readingDevices.erase p.deviceId }

/-- `_fail_matching`: remove the matching commands, in order. -/
def failMatching (pred : PendingCommand → Bool) : Broker :=
  (b.pending.entries.filter fun e => pred e.2).foldl (fun b e => b.removePending e.1) b

/-- The futures that `_fail_matching` settles. -/
def failed (pred : PendingCommand → Bool) (e : BrowserCommandError) : List (Text × Outcome) :=
  (b.pending.entries.filter fun e => pred e.2).map fun f => (f.1, .error e)

/-- `close_session` -/
def closeSession (sid sessionId : Text) :
    Except BrokerError (Broker × List (Text × Outcome)) :=
  match b.sessions.get sessionId with
  | none => .ok (b, [])
  | some session =>
    if session.sid ≠ sid then .error (.command (.of "session_access_denied"))
    else
      let b := { b with sessions := b.sessions.erase sessionId }
      .ok (b.failMatching (fun p => p.sessionId = sessionId),
        b.failed (fun p => p.sessionId = sessionId) (.of "session_closed"))

/-- The devices registered for a socket. -/
def devicesOf (sid : Text) : List Text :=
  (b.devices.entries.filter fun e => e.2.sid = sid).map Prod.fst

/-- `disconnect` -/
def disconnect (sid : Text) : Broker × List (Text × Outcome) :=
  let disconnected := b.devicesOf sid
  let b := { b with
    devices := b.devices.filter fun e => e.2.sid ≠ sid
    sessions := b.sessions.filter fun e => e.2.sid ≠ sid }
  (b.failMatching (fun p => p.deviceId ∈ disconnected),
    b.failed (fun p => p.deviceId ∈ disconnected) (.of "device_disconnected"))

/-- The registry part of `BrowserExtensionSocketService.join`: a device that
    is registered for another socket is disconnected first. -/
def join (userId deviceId sid tokenFamilyId origin : Text) (now : ℚ) :
    Broker × Option BrokerError × List (Text × Outcome) :=
  let r : Broker × List (Text × Outcome) :=
    match b.devices.get deviceId with
    | some existing => if existing.sid ≠ sid then b.disconnect existing.sid else (b, [])
    | none => (b, [])
  match r.1.registerDevice userId deviceId sid tokenFamilyId origin now with
  | .ok b => (b, none, r.2)
  | .error e => (r.1, some e, r.2)

/-! ## Dispatch -/

/-- Python's `int` of a float: towards zero. -/
def truncate (q : ℚ) : ℤ := if 0 ≤ q then ⌊q⌋ else ⌈q⌉

/-- The request envelope. -/
def requestEnvelope (p : PendingCommand) (name : Text) (args : List (Text × Json))
    (now commandTimeout : ℚ) : Json :=
  .obj [(.lit "version", .int protocolVersion), (.lit "id", .str p.commandId),
    (.lit "type", .str (.lit "command.request")), (.lit "deviceId", .str p.deviceId),
    (.lit "userId", .str p.userId), (.lit "sessionId", .str p.sessionId),
    (.lit "timestamp", .int (truncate (now * 1000))),
    (.lit "deadlineAt", .int (truncate ((now + commandTimeout) * 1000))),
    (.lit "nonce", .str p.nonce), (.lit "sequence", .int p.sequence),
    (.lit "payload", .obj [(.lit "name", .str name), (.lit "args", .obj args),
      (.lit "mutating", .bool p.mutating)])]

/-- Record a pending command: its entry, its lock and its sequence number. -/
def addPending (p : PendingCommand) : Broker :=
  { b with
    pending := b.pending.set p.commandId p
    mutatingDevices :=
      if p.mutating then insert p.deviceId b.mutatingDevices else b.mutatingDevices
    readingDevices :=
      if p.mutating then b.readingDevices
      else b.readingDevices.set p.deviceId ((b.readingDevices.get p.deviceId).getD 0 + 1)
    sequences := b.sequences.set p.deviceId p.sequence }

/-- What `dispatch` sets up before it waits. -/
structure Dispatched where
  broker : Broker
  pending : PendingCommand
  request : Json
  commandTimeout : ℚ

/-- `dispatch`, up to the wait. -/
def dispatch (cfg : BrokerConfig) (userId sessionId : Text) (name args mutating : Json)
    (timeout : Option ℚ) (commandId nonce : Text) (now : ℚ) : Except BrokerError Dispatched := do
  let some session := (b.sessions.get sessionId).filter (·.userId = userId)
    | .error (.command (.of "session_access_denied"))
  let deviceId := session.deviceId
  let some device := (b.devices.get deviceId).filter fun device =>
      device.userId = userId ∧ device.sid = session.sid
    | .error (.command (.of "device_unavailable"))
  let (some name, .obj args, .bool mutating) := (nonemptyStr name, args, mutating)
    | .error (.command (.of "invalid_command"))
  if cfg.maxPendingCommands ≤ b.pending.size then
    .error (.command (.of "command_registry_full"))
  else if deviceId ∈ b.mutatingDevices ∨
      (mutating ∧ 0 < (b.readingDevices.get deviceId).getD 0) then
    .error (.command (.of "device_busy"))
  else
    let commandTimeout := timeout.getD cfg.defaultTimeoutSeconds
    if commandTimeout ≤ 0 ∨ cfg.defaultTimeoutSeconds < commandTimeout then
      .error (.command (.of "invalid_timeout"))
    else
      let sequence := (b.sequences.get deviceId).getD 0 + 1
      let p : PendingCommand :=
        ⟨commandId, userId, deviceId, sessionId, device.sid, nonce, sequence, mutating⟩
      .ok ⟨b.addPending p, p, requestEnvelope p name args now commandTimeout, commandTimeout⟩

/-! ## The ends of a command -/

/-- The checks that `accept_result` and `accept_approval_result` share: the
    envelope can be printed, in bounds, and is an object. -/
def checkEnvelope (cfg : BrokerConfig) (envelope : Json) : Option BrowserCommandError :=
  match envelope.size (Json.pyPrinter cfg.floatText) with
  | none => some (.of "invalid_result")
  | some n =>
    if cfg.maxResultBytes < n then some (.of "result_too_large")
    else if !envelope.isObj then some (.of "invalid_result")
    else none

/-- Does the envelope answer the pending command? -/
def identity (p : PendingCommand) (type : String) (envelope : Json) : Bool :=
  (envelope.get (.lit "version")).eqInt protocolVersion &&
  (envelope.get (.lit "type")).eqStr (.lit type) &&
  (envelope.get (.lit "deviceId")).eqStr p.deviceId &&
  (envelope.get (.lit "userId")).eqStr p.userId &&
  (envelope.get (.lit "sessionId")).eqStr p.sessionId &&
  (envelope.get (.lit "payload")).isObj &&
  ((envelope.get (.lit "payload")).get (.lit "nonce")).eqStr p.nonce &&
  ((envelope.get (.lit "payload")).get (.lit "sequence")).eqInt p.sequence

/-- The error of a failed command, from the `error` of its payload. -/
def resultError (error : Json) : BrowserCommandError :=
  .make ((nonemptyStr (error.get (.lit "code"))).getD (.lit "command_failed"))
    (nonemptyStr (error.get (.lit "message")))

/-- `accept_result` -/
def acceptResult (cfg : BrokerConfig) (envelope : Json) (expectedDeviceId : Option Text) :
    Except BrowserCommandError (Broker × Text × Outcome) :=
  match checkEnvelope cfg envelope with
  | some e => .error e
  | none => do
    let some commandId := nonemptyStr (envelope.get (.lit "id")) | .error (.of "invalid_result")
    let some p := b.pending.get commandId | .error (.of "late_result")
    let payload := envelope.get (.lit "payload")
    if !(identity p "command.result" envelope &&
        expectedDeviceId.all fun d => (envelope.get (.lit "deviceId")).eqStr d) then
      .error (.of "result_identity_mismatch")
    else
      match payload.get (.lit "ok") with
      | .bool true => .ok (b.removePending commandId, commandId, .value (payload.get (.lit "value")))
      | .bool false =>
        .ok (b.removePending commandId, commandId,
          .error (resultError (payload.get (.lit "error"))))
      | _ => .error (.of "invalid_result")

/-- `accept_approval_result`; its value is the payload. -/
def acceptApprovalResult (cfg : BrokerConfig) (envelope : Json) (expectedDeviceId : Text) :
    Except BrowserCommandError Json :=
  match checkEnvelope cfg envelope with
  | some e => .error e
  | none =>
    let found := match envelope.get (.lit "id") with
      | .str commandId => b.pending.get commandId
      | _ => none
    match found with
    | none => .error (.of "late_result")
    | some p =>
      let payload := envelope.get (.lit "payload")
      if !(identity p "approval.result" envelope && p.deviceId = expectedDeviceId &&
          (payload.get (.lit "approved")).isBool) then
        .error (.of "result_identity_mismatch")
      else .ok payload

/-- `cancel` -/
def cancel (userId commandId : Text) : Except BrokerError Broker :=
  match b.pending.get commandId with
  | none => .error (.command (.of "command_not_found"))
  | some p =>
    if p.userId ≠ userId then .error (.command (.of "command_access_denied"))
    else .ok (b.removePending commandId)

/-- What `send_command` raises. -/
inductive TransportError where
  | command (e : BrowserCommandError)
  | timeout
  | other
  deriving DecidableEq

/-- The handlers of `_run_transport`. -/
def TransportError.reported : TransportError → BrowserCommandError
  | .command e => e
  | .timeout => .of "command_timeout"
  | .other => .of "transport_error"

/-- `_fail_pending`, with the future it settles. -/
def failPending (commandId : Text) (e : BrowserCommandError) : Broker × List (Text × Outcome) :=
  (b.removePending commandId,
    match b.pending.get commandId with
    | none => []
    | some _ => [(commandId, .error e)])

/-- `_run_transport` after `send_command` has returned. -/
def transportReturned (cfg : BrokerConfig) (commandId : Text) (result : Option Json) :
    Broker × List (Text × Outcome) :=
  match result, b.pending.get commandId with
  | some envelope, some p =>
    match b.acceptResult cfg envelope (some p.deviceId) with
    | .ok (b, settled) => (b, [settled])
    | .error e => b.failPending commandId e
  | _, _ => (b, [])

/-- The wait of `dispatch` ends by timeout or by cancellation of its caller. -/
def waitEnded (commandId : Text) : Broker × List (Text × Outcome) :=
  (b.removePending commandId,
    match b.pending.get commandId with
    | none => []
    | some _ => [(commandId, .cancelled)])

end Broker

/-! ## The machine -/

/-- One synchronous section. -/
inductive Call where
  | registerDevice (userId deviceId sid tokenFamilyId origin : Text) (now : ℚ)
  | join (userId deviceId sid tokenFamilyId origin : Text) (now : ℚ)
  | heartbeat (sid : Text) (now : ℚ)
  | openSession (sid : Text) (sessionId tabId tabOrigin actionMode tabPolicy : Json) (now : ℚ)
  | closeSession (sid sessionId : Text)
  | dispatch (userId sessionId : Text) (name args mutating : Json) (timeout : Option ℚ)
      (commandId nonce : Text) (now : ℚ)
  | acceptResult (envelope : Json) (expectedDeviceId : Option Text)
  | acceptApprovalResult (envelope : Json) (expectedDeviceId : Text)
  | cancel (userId commandId : Text)
  | disconnect (sid : Text)
  | timeout (commandId : Text)
  | callerCancelled (commandId : Text)
  | transportReturned (commandId : Text) (result : Option Json)
  | transportFailed (commandId : Text) (e : Broker.TransportError)

/-- What a call does besides changing the state: the error it raises, the
    request it sends, the futures it settles. -/
structure Effect where
  raised : Option BrokerError := none
  sent : Option Json := none
  settled : List (Text × Outcome) := []

namespace Broker

/-- The state after a method that returns the new state or raises. -/
def orRaise (b : Broker) : Except BrokerError Broker → Broker × Effect
  | .ok b' => (b', {})
  | .error e => (b, { raised := some e })

/-- One call; `none` if the fresh command id of a dispatch is one of a
    pending command. -/
def step (cfg : BrokerConfig) (b : Broker) : Call → Option (Broker × Effect)
  | .registerDevice userId deviceId sid tokenFamilyId origin now =>
    some (b.orRaise (b.registerDevice userId deviceId sid tokenFamilyId origin now))
  | .join userId deviceId sid tokenFamilyId origin now =>
    let (b', raised, settled) := b.join userId deviceId sid tokenFamilyId origin now
    some (b', { raised, settled })
  | .heartbeat sid now => some (b.orRaise (b.heartbeat sid now))
  | .openSession sid sessionId tabId tabOrigin actionMode tabPolicy now =>
    some (b.orRaise (b.openSession sid sessionId tabId tabOrigin actionMode tabPolicy now))
  | .closeSession sid sessionId =>
    match b.closeSession sid sessionId with
    | .ok (b', settled) => some (b', { settled })
    | .error e => some (b, { raised := some e })
  | .dispatch userId sessionId name args mutating timeout commandId nonce now =>
    match b.pending.get commandId with
    | some _ => none
    | none =>
      match b.dispatch cfg userId sessionId name args mutating timeout commandId nonce now with
      | .ok d => some (d.broker, { sent := some d.request })
      | .error e => some (b, { raised := some e })
  | .acceptResult envelope expectedDeviceId =>
    match b.acceptResult cfg envelope expectedDeviceId with
    | .ok (b', settled) => some (b', { settled := [settled] })
    | .error e => some (b, { raised := some (.command e) })
  | .acceptApprovalResult envelope expectedDeviceId =>
    match b.acceptApprovalResult cfg envelope expectedDeviceId with
    | .ok _ => some (b, {})
    | .error e => some (b, { raised := some (.command e) })
  | .cancel userId commandId =>
    match b.cancel userId commandId with
    | .ok b' => some (b', { settled := [(commandId, .error (.of "command_cancelled"))] })
    | .error e => some (b, { raised := some e })
  | .disconnect sid =>
    let (b', settled) := b.disconnect sid
    some (b', { settled })
  | .timeout commandId | .callerCancelled commandId =>
    let (b', settled) := b.waitEnded commandId
    some (b', { settled })
  | .transportReturned commandId result =>
    let (b', settled) := b.transportReturned cfg commandId result
    some (b', { settled })
  | .transportFailed commandId e =>
    let (b', settled) := b.failPending commandId e.reported
    some (b', { settled })

end Broker

/-- The broker as a machine. -/
def brokerMachine (cfg : BrokerConfig) : Machine Broker Call Effect := ⟨Broker.step cfg⟩

/-! ## A small instance -/

namespace Sample

def brokerConfig : BrokerConfig := { floatText := fun _ => .lit "0.0" }

/-- Device `device` of user `u` connects on socket `sid`. -/
def connect (device sid : String) : Call :=
  .join (.lit "u") (.lit device) (.lit sid) (.lit "f") (.lit "https://tide-bot.com") 0

def startSession (sid session : String) : Call :=
  .openSession (.lit sid) (.str (.lit session)) (.int 7) (.str (.lit "https://example.com"))
    (.str (.lit "autonomous")) (.str (.lit "locked")) 0

def click (session c : String) : Call :=
  .dispatch (.lit "u") (.lit session) (.str (.lit "browser_click")) (.obj []) (.bool true) none
    (.lit c) (.lit "n") 0

end Sample

end TideBot
