/-
  The transport of the extension (`background/transport.ts`).

  `Transport` is the state of a `BrowserTransport` that decides about commands:
  whether it has joined, for which user, the replay cache and the last sequence
  number of each session.  `handleInboundCommand` is one step up to the call of
  the executor: what comes back from it only becomes the answer.  The steps of
  connecting are those of `performConnect` and of the socket's handlers.

  A step carries the readings of the clock it makes.
-/
import TideBot.Lib.Expiring
import TideBot.Lib.Machine
import TideBot.Protocol.Command

namespace TideBot

open Lib

/-- `REPLAY_TTL_MS` -/
def replayTtl : ℚ := 5 * 60000

/-- `MAX_REPLAY_ENTRIES` -/
def maxReplayEntries : ℕ := 1000

/-- The state of the transport; `connected` is `socket?.connected`. -/
structure Transport where
  connected : Bool
  joined : Bool
  userId : Option Text
  seenCommands : Dict Text ℚ
  lastSequenceBySession : Dict Text ℚ

/-- A transport before its first connection. -/
def Transport.initial : Transport := ⟨false, false, none, .empty, .empty⟩

/-- The readings of the clock while a command is handled: for the check, the
    pruning, the replay cache and the answer. -/
structure Readings where
  arrival : ℚ
  pruning : ℚ
  seen : ℚ
  answer : ℚ

/-- What becomes of an inbound value: it is answered with an error, or executed. -/
inductive Handled where
  | answered (code : Text) (result : Json)
  | executed (request : CommandRequest)

namespace Transport

variable (t : Transport)

/-- `pruneReplayCache` -/
def pruneReplayCache (clock : ℚ) : Transport :=
  { t with seenCommands := t.seenCommands.prune maxReplayEntries (clock - replayTtl) }

/-- Record a command that is going to be executed. -/
def remember (request : CommandRequest) (seen : ℚ) : Transport :=
  { t with
    seenCommands := t.seenCommands.set request.id seen
    lastSequenceBySession := t.lastSequenceBySession.set request.sessionId request.sequence }

/-- A refusal of a request. -/
def refuse (request : CommandRequest) (code message : String) (now : ℚ) : Handled :=
  .answered (.lit code) (commandResult request (.error (.lit code) (.lit message)) now)

/-- The first `n` UTF-16 units of a string (`slice(0, n)`): a character that does
    not fit leaves its high surrogate. -/
def slice : ℕ → Text → Text
  | _, [] => []
  | n, c :: cs =>
    if c.units ≤ n then c :: slice (n - c.units) cs
    else if n = 0 then []
    else [⟨0xD800 + (c.val - 0x10000) / 0x400 % 0x400, by omega⟩]

/-- `bounded` of `invalidResult` -/
def bounded (candidate : Option Json) (fallback : String) : Text :=
  match candidate with
  | some (.str s) => if s = [] then .lit fallback else slice 128 s
  | _ => .lit fallback

/-- `invalidResult` -/
def invalidResult (value : Json) (code message : String) (now : ℚ) : Handled :=
  refuse
    { id := bounded (value.field (.lit "id")) "invalid-command"
      deviceId := bounded (value.field (.lit "deviceId")) "unknown-device"
      userId := bounded (value.field (.lit "userId")) "unknown-user"
      sessionId := bounded (value.field (.lit "sessionId")) "unknown-session"
      timestamp := now
      deadlineAt := now
      nonce := bounded (value.field (.lit "nonce")) "invalid-nonce"
      sequence := ((numberAt value "sequence").filter (isSafeInteger ·)).getD 1
      name := .str (.lit "browser_observe")
      args := .obj []
      mutating := false } code message now

/-- `handleInboundCommand` after the identity check, up to the executor;
    `executor` is whether there is one. -/
def handleIdentified (executor : Bool) (request : CommandRequest) (clock : Readings) : Transport × Handled :=
  if (t.seenCommands.get request.id).isSome then
    (t, refuse request "replayed_command" "Browser command was already handled." clock.answer)
  else if request.sequence ≤ (t.lastSequenceBySession.get request.sessionId).getD 0 then
    (t, refuse request "out_of_order" "Browser command sequence is out of order." clock.answer)
  else if !executor then
    (t.remember request clock.seen,
      refuse request "executor_unavailable" "Browser executor is unavailable." clock.answer)
  else (t.remember request clock.seen, .executed request)

/-- `handleInboundCommand`; `deviceId` is that of `auth.status()`. -/
def handleInboundCommand (numberText : ℚ → Text) (executor : Bool) (value : Json)
    (deviceId : Option Text) (clock : Readings) : Transport × Handled :=
  if !isCommandRequest numberText value clock.arrival then
    (t, invalidResult value "invalid_envelope" "The browser command envelope is invalid."
      clock.answer)
  else if !t.joined || !t.connected then
    (t, refuse (.read value) "offline" "Browser executor is offline." clock.answer)
  else if some (CommandRequest.read value).deviceId ≠ deviceId ∨
      some (CommandRequest.read value).userId ≠ t.userId then
    (t, refuse (.read value) "invalid_envelope" "Browser command identity mismatch." clock.answer)
  else (t.pruneReplayCache clock.pruning).handleIdentified executor (.read value) clock

/-- JavaScript's truth of a property. -/
def truthy : Option Json → Bool
  | none | some .null => false
  | some (.bool b) => b
  | some (.int n) => n ≠ 0
  | some (.float q) => q ≠ 0
  | some (.str s) => s ≠ []
  | some (.arr _) | some (.obj _) => true

/-- The answer to `browser:device:join`, for the device `deviceId`. -/
def joinAnswered (response : Json) (deviceId : Text) : Transport :=
  match response.field (.lit "userId") with
  | some (.str userId) =>
    if truthy (response.field (.lit "ok")) ∧
        (response.field (.lit "deviceId")).any (·.eqStr deviceId) then
      { t with userId := some userId, joined := true, lastSequenceBySession := .empty }
    else t
  | _ => t

/-- The end of the connection: `performConnect` takes a new socket, the socket
    disconnects, or `stop`. -/
def left : Transport := { t with connected := false, joined := false, userId := none }

end Transport

/-- What happens to a transport. -/
inductive Inbound where
  | command (value : Json) (deviceId : Option Text) (clock : Readings)
  | socketConnected
  | joinAnswered (response : Json) (deviceId : Text)
  | newSocket
  | disconnected
  | stop

/-- One step, with what became of a command. -/
def Transport.step (numberText : ℚ → Text) (executor : Bool) (t : Transport) :
    Inbound → Option (Transport × Option Handled)
  | .command value deviceId clock =>
    let (t', handled) := t.handleInboundCommand numberText executor value deviceId clock
    some (t', some handled)
  | .socketConnected => some ({ t with connected := true }, none)
  | .joinAnswered response deviceId => some (t.joinAnswered response deviceId, none)
  | .newSocket | .disconnected | .stop => some (t.left, none)

/-- The transport as a machine. -/
def transportMachine (numberText : ℚ → Text) (executor : Bool) :
    Machine Transport Inbound (Option Handled) :=
  ⟨Transport.step numberText executor⟩

end TideBot
