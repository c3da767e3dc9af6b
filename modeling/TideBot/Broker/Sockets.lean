/-
  The sockets of the extension (`BrowserExtensionSocketService`), over the broker.

  `join` awaits the token, the device, the user and the permission, and only then enters the
  registry; it then enters the two rooms of the socket.  A join is resumed at each of its
  awaits with what the awaited call has answered (`JoinTick`), so that everything else may
  happen in between.  The handlers `heartbeat`, `open_session`, `close_session` and
  `disconnect` do not suspend, and are one step each.

  A room is a set of sockets, entered by `enter_room` and left at the disconnection.
-/
import TideBot.Broker.Sessions
import TideBot.Devices.Store

namespace TideBot

open Lib

/-! ## Rooms -/

/-- `f'browser:user:{user_id}'` -/
def userRoom (userId : Text) : Text := .lit "browser:user:" ++ userId

/-- `f'browser:device:{device_id}'` -/
def deviceRoom (deviceId : Text) : Text := .lit "browser:device:" ++ deviceId

theorem deviceRoom_inj {d d' : Text} (h : deviceRoom d = deviceRoom d') : d = d' :=
  List.append_cancel_left h

theorem userRoom_ne (userId d : Text) : userRoom userId ≠ deviceRoom d := by
  intro h
  have h' := congrArg (fun t : Text => t[8]?) h
  simp [userRoom, deviceRoom, Text.lit, CodePoint.ofChar] at h'

/-! ## The steps of a join -/

/-- What a handler returns: `_error`, the answers, or the exception it lets through. -/
inductive SocketReply where
  | error (code : Text)
  | ok
  | joined (userId deviceId : Text)
  | opened (sessionId : Text)
  | raised

/-- The claims of an access token. -/
structure JoinClaims where
  userId : Text
  deviceId : Text
  tokenFamilyId : Text
  origin : Text

/-- What the awaited call of a join answers. -/
structure JoinTick where
  /-- the claims; `none`: `decode_access_token` raises -/
  claims : Option Json
  device : Option PairedDevice
  /-- the role of the user that is found -/
  role : Option Text
  allowed : Bool
  now : ℚ
  /-- another call raises -/
  raises : Bool

/-- Where a join stands: what it awaits. -/
inductive JoinPc where
  /-- `decode_access_token` -/
  | decoding (sid origin : Text)
  /-- `get_device` -/
  | fetching (sid origin : Text) (claims : JoinClaims)
  /-- `get_user` -/
  | naming (sid origin : Text) (claims : JoinClaims)
  /-- `has_permission` -/
  | permitting (sid origin : Text) (claims : JoinClaims)
  /-- `enter_room` of the user's room -/
  | enteringUser (sid : Text) (claims : JoinClaims)
  /-- `enter_room` of the device's room -/
  | enteringDevice (sid : Text) (claims : JoinClaims)
  | done (reply : SocketReply)

/-- An answer `_error(code)`. -/
def SocketReply.code (code : String) : SocketReply := .error (.lit code)

/-- `not isinstance(data, Mapping) or set(data) != names`, negated. -/
def dataKeys (names : List String) : Json → Bool
  | .obj fields => (fields.map Prod.fst).toFinset = (names.map Text.lit).toFinset
  | _ => false

/-- `join`, up to `decode_access_token`. -/
def beginJoin (sid : Text) (data : Json) : JoinPc :=
  if !dataKeys ["accessToken", "origin"] data then .done (.code "invalid_payload")
  else
    match Broker.nonemptyStr (data.get (.lit "accessToken")), Broker.nonemptyStr (data.get (.lit "origin")) with
    | some _, some origin => .decoding sid origin
    | _, _ => .done (.code "invalid_payload")

/-- The four claims, if all are strings that are not empty. -/
def readClaims (claims : Json) : Option JoinClaims := do
  let userId ← Broker.nonemptyStr (claims.get (.lit "id"))
  let deviceId ← Broker.nonemptyStr (claims.get (.lit "device_id"))
  let tokenFamilyId ← Broker.nonemptyStr (claims.get (.lit "token_family_id"))
  let origin ← Broker.nonemptyStr (claims.get (.lit "origin"))
  return ⟨userId, deviceId, tokenFamilyId, origin⟩

def afterDecoding (sid origin : Text) (claims : Option Json) : JoinPc :=
  match claims.filter Json.isObj with
  | none => .done (.code "invalid_access_token")
  | some claims =>
    match readClaims claims with
    | none => .done (.code "invalid_access_token")
    | some claims => .fetching sid origin claims

def afterFetching (sid origin : Text) (claims : JoinClaims) : Option PairedDevice → JoinPc
  | none => .done (.code "device_revoked")
  | some device =>
    if device.revokedAt.isSome then .done (.code "device_revoked")
    else if device.id = claims.deviceId ∧ device.userId = claims.userId ∧
        device.tokenFamilyId = claims.tokenFamilyId ∧ device.allowedOrigin = claims.origin ∧
        claims.origin = origin then .naming sid origin claims
    else .done (.code "device_identity_mismatch")

def afterNaming (sid origin : Text) (claims : JoinClaims) (role : Option Text) : JoinPc :=
  if role = some (.lit "user") ∨ role = some (.lit "admin") then .permitting sid origin claims
  else .done (.code "browser_extension_not_allowed")

/-! ## The machine -/

/-- The broker, the rooms (a room with each of its sockets), the sockets whose disconnection
    has been handled, and the joins. -/
structure SocketWorld where
  broker : Broker
  rooms : Finset (Text × Text)
  gone : Finset Text
  joins : ℕ → Option JoinPc

def SocketWorld.init : SocketWorld := ⟨.empty, ∅, ∅, fun _ => none⟩

/-- The events of a socket, and the steps of the joins. -/
inductive SocketAct where
  | join (i : ℕ) (sid : Text) (data : Json)
  | resume (i : ℕ) (tick : JoinTick)
  | heartbeat (sid : Text) (data : Json) (now : ℚ)
  | openSession (sid : Text) (data : Json) (now : ℚ)
  | closeSession (sid : Text) (data : Json)
  | disconnect (sid : Text)

/-- What a step does besides changing the state: the device that it has registered for a
    socket, and the answer to its event. -/
structure SocketEffect where
  registered : Option (Text × Text) := none
  reply : Option SocketReply := none

namespace SocketWorld

variable (w : SocketWorld)

/-- Move join `i` to `pc`. -/
def goto (i : ℕ) (pc : JoinPc) : SocketWorld := { w with joins := Function.update w.joins i (some pc) }

/-- `enter_room` -/
def enterRoom (sid room : Text) : SocketWorld := { w with rooms := insert (room, sid) w.rooms }

/-- The answer to an error of the broker. -/
def errorReply : BrokerError → SocketReply
  | .command e => .error e.code
  | .typeError => .raised

/-- The registry part of `join`, once the permission is granted. -/
def register (i : ℕ) (sid origin : Text) (claims : JoinClaims) (now : ℚ) : SocketWorld × SocketEffect :=
  let r := w.broker.join claims.userId claims.deviceId sid claims.tokenFamilyId origin now
  match r.2.1 with
  | some e => ({ w with broker := r.1 }.goto i (.done (errorReply e)), {})
  | none =>
    ({ w with broker := r.1 }.goto i (.enteringUser sid claims),
      { registered := some (claims.deviceId, sid) })

/-- The next step of a join. -/
def resumeJoin (i : ℕ) (tick : JoinTick) : JoinPc → Option (SocketWorld × SocketEffect)
  | .decoding sid origin => some (w.goto i (afterDecoding sid origin tick.claims), {})
  | .done _ => none
  | pc =>
    if tick.raises then some (w.goto i (.done .raised), {})
    else
      match pc with
      | .fetching sid origin claims => some (w.goto i (afterFetching sid origin claims tick.device), {})
      | .naming sid origin claims => some (w.goto i (afterNaming sid origin claims tick.role), {})
      | .permitting sid origin claims =>
        if tick.allowed then some (w.register i sid origin claims tick.now)
        else some (w.goto i (.done (.code "browser_extension_not_allowed")), {})
      | .enteringUser sid claims =>
        some ((w.enterRoom sid (userRoom claims.userId)).goto i (.enteringDevice sid claims), {})
      | .enteringDevice sid claims =>
        some ((w.enterRoom sid (deviceRoom claims.deviceId)).goto i
          (.done (.joined claims.userId claims.deviceId)), {})
      | _ => none

/-- A handler that answers at once, with the broker it leaves. -/
def answer (r : Except BrokerError Broker) (reply : SocketReply) : SocketWorld × SocketEffect :=
  match r with
  | .ok b => ({ w with broker := b }, { reply := some reply })
  | .error e => (w, { reply := some (errorReply e) })

/-- `heartbeat` -/
def heartbeat (sid : Text) (data : Json) (now : ℚ) : SocketWorld × SocketEffect :=
  match data with
  | .null | .obj [] => w.answer (w.broker.heartbeat sid now) .ok
  | _ => (w, { reply := some (.code "invalid_payload") })

/-- `open_session` -/
def openSession (sid : Text) (data : Json) (now : ℚ) : SocketWorld × SocketEffect :=
  if !dataKeys ["sessionId", "tabId", "tabOrigin", "actionMode", "tabPolicy"] data then
    (w, { reply := some (.code "invalid_payload") })
  else
    w.answer (w.broker.openSession sid (data.get (.lit "sessionId")) (data.get (.lit "tabId"))
        (data.get (.lit "tabOrigin")) (data.get (.lit "actionMode")) (data.get (.lit "tabPolicy")) now)
      (.opened ((Broker.nonemptyStr (data.get (.lit "sessionId"))).getD []))

/-- `close_session` -/
def closeSession (sid : Text) (data : Json) : SocketWorld × SocketEffect :=
  if !dataKeys ["sessionId"] data then (w, { reply := some (.code "invalid_payload") })
  else
    match Broker.nonemptyStr (data.get (.lit "sessionId")) with
    | none => (w, { reply := some (.code "invalid_payload") })
    | some sessionId => w.answer ((w.broker.closeSession sid sessionId).map Prod.fst) .ok

/-- `disconnect`; the socket leaves its rooms. -/
def disconnect (sid : Text) : SocketWorld × SocketEffect :=
  ({ w with
    broker := (w.broker.disconnect sid).1
    rooms := w.rooms.filter fun p => p.2 ≠ sid
    gone := insert sid w.gone }, {})

/-- One step; `none` if the number of a join is taken, or there is nothing to resume. -/
def step : SocketAct → Option (SocketWorld × SocketEffect)
  | .join i sid data =>
    match w.joins i with
    | none => some (w.goto i (beginJoin sid data), {})
    | some _ => none
  | .resume i tick => (w.joins i).bind (w.resumeJoin i tick)
  | .heartbeat sid data now => some (w.heartbeat sid data now)
  | .openSession sid data now => some (w.openSession sid data now)
  | .closeSession sid data => some (w.closeSession sid data)
  | .disconnect sid => some (w.disconnect sid)

end SocketWorld

/-- The sockets of the extension. -/
def socketMachine : Machine SocketWorld SocketAct SocketEffect := ⟨SocketWorld.step⟩

end TideBot
