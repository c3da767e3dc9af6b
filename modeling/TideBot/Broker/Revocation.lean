/-
  Revocation of a device, over any number of workers.

  `revoke_paired_device` changes the row of the device and nothing else.  `join` reads the row, awaits the
  user and the permission, and then registers the device; `dispatch` consults the registries only.  The
  registries are shared between the workers (through Redis), the rest of a broker is not.

  A step is a join between two of its awaits, a call of a broker, or a revocation.  After a revocation the device is
  served on those sockets only on which it was admitted before (`revokedDevice_servedOn`), so it is silent if there
  was none (`revokedDevice_silent`).
-/
import TideBot.Broker.Binding
import TideBot.Lib.Machine

namespace TideBot

open Lib

/-- The table of devices, the shared registries, the workers, and the joins with their workers. -/
structure RevocationWorld (n : ℕ) where
  table : PairedDevices
  devices : Dict Text DeviceRecord
  sessions : Dict Text SessionRecord
  workers : Fin n → Broker
  joins : ℕ → Option (Fin n × JoinPc)

inductive RevocationStep (n : ℕ) where
  /-- `BrowserExtensionSocketService.join` -/
  | join (i : ℕ) (k : Fin n) (sid : Text) (data : Json)
  /-- The next step of a join; the device is read from the table. -/
  | resume (i : ℕ) (tick : JoinTick)
  /-- A call of the broker of a worker, other than those that a join makes. -/
  | call (k : Fin n) (c : Call)
  /-- `revoke_paired_device` -/
  | revoke (deviceId userId : Text) (now : ℤ)

inductive RevocationEffect where
  | none
  | registered (deviceId sid : Text)
  | called (effect : Effect)
  | revoked (found : Bool)

/-- The calls that register a device. -/
def Call.registers : Call → Bool
  | .join .. | .registerDevice .. => true
  | _ => false

namespace RevocationWorld

variable {n : ℕ} (w : RevocationWorld n)

/-- The broker of worker `k`, on the shared registries. -/
def broker (k : Fin n) : Broker := { w.workers k with devices := w.devices, sessions := w.sessions }

/-- The broker of worker `k` has become `b`. -/
def setBroker (k : Fin n) (b : Broker) : RevocationWorld n :=
  { w with devices := b.devices, sessions := b.sessions, workers := Function.update w.workers k b }

/-- Move join `i` of worker `k` to `pc`. -/
def goto (i : ℕ) (k : Fin n) (pc : JoinPc) : RevocationWorld n :=
  { w with joins := Function.update w.joins i (some (k, pc)) }

/-- The registry part of `join`. -/
def register (i : ℕ) (k : Fin n) (sid origin : Text) (claims : JoinClaims) (now : ℚ) :
    RevocationWorld n × RevocationEffect :=
  let r := (w.broker k).join claims.userId claims.deviceId sid claims.tokenFamilyId origin now
  match r.2.1 with
  | some e => ((w.setBroker k r.1).goto i k (.done (SocketWorld.errorReply e)), .none)
  | none => ((w.setBroker k r.1).goto i k (.enteringUser sid claims), .registered claims.deviceId sid)

/-- The next step of a join. -/
def resumeJoin (i : ℕ) (tick : JoinTick) (k : Fin n) : JoinPc → Option (RevocationWorld n × RevocationEffect)
  | .decoding sid origin => some (w.goto i k (afterDecoding sid origin tick.claims), .none)
  | .fetching sid origin claims =>
    if tick.raises then some (w.goto i k (.done .raised), .none)
    else some (w.goto i k (afterFetching sid origin claims
      (PairedDevices.getActiveById w.table claims.deviceId)), .none)
  | .naming sid origin claims =>
    if tick.raises then some (w.goto i k (.done .raised), .none)
    else some (w.goto i k (afterNaming sid origin claims tick.role), .none)
  | .permitting sid origin claims =>
    if tick.raises then some (w.goto i k (.done .raised), .none)
    else if tick.allowed then some (w.register i k sid origin claims tick.now)
    else some (w.goto i k (.done (.code "browser_extension_not_allowed")), .none)
  | .enteringUser sid claims =>
    if tick.raises then some (w.goto i k (.done .raised), .none)
    else some (w.goto i k (.enteringDevice sid claims), .none)
  | .enteringDevice _ claims =>
    if tick.raises then some (w.goto i k (.done .raised), .none)
    else some (w.goto i k (.done (.joined claims.userId claims.deviceId)), .none)
  | .done _ => none

/-- `revoke_paired_device`; an integrity error leaves the table. -/
def revoke (deviceId userId : Text) (now : ℤ) : RevocationWorld n × RevocationEffect :=
  match PairedDevices.revoke w.table deviceId userId now with
  | none => (w, .none)
  | some (table, device) => ({ w with table := table }, .revoked device.isSome)

end RevocationWorld

/-- Joins, calls and revocations. -/
def revocationMachine (n : ℕ) (cfg : BrokerConfig) :
    Machine (RevocationWorld n) (RevocationStep n) RevocationEffect where
  step w
    | .join i k sid data => if (w.joins i).isSome then none else some (w.goto i k (beginJoin sid data), .none)
    | .resume i tick => (w.joins i).bind fun j => w.resumeJoin i tick j.1 j.2
    | .call k c =>
      if c.registers then none
      else ((w.broker k).step cfg c).map fun r => (w.setBroker k r.1, .called r.2)
    | .revoke deviceId userId now => some (w.revoke deviceId userId now)

/-! ## Who is served -/

/-- The device and the socket of a join that has found the device not revoked. -/
def JoinPc.admitted : JoinPc → Option (Text × Text)
  | .naming sid _ claims | .permitting sid _ claims => some (claims.deviceId, sid)
  | .decoding .. | .fetching .. | .enteringUser .. | .enteringDevice .. | .done _ => none

/-- The socket that a device is registered for. -/
def RevocationWorld.socketOf {n : ℕ} (w : RevocationWorld n) (d : Text) : Option Text :=
  (w.devices.get d).map DeviceRecord.sid

/-- **The sockets that a device is admitted on**: it is registered, or a join has found it not revoked. -/
def RevocationWorld.Admitted {n : ℕ} (w : RevocationWorld n) (d sid : Text) : Prop :=
  w.socketOf d = some sid ∨ ∃ i k pc, w.joins i = some (k, pc) ∧ pc.admitted = some (d, sid)

/-- The device that a step registers, and its socket. -/
def RevocationEffect.registration : RevocationEffect → Option (Text × Text)
  | .registered deviceId sid => some (deviceId, sid)
  | .none | .called _ | .revoked _ => Option.none

/-- A step sends a command for a device. -/
def RevocationEffect.commands (d : Text) : RevocationEffect → Prop
  | .called effect => ∃ v ∈ effect.sent, (v.get (.lit "deviceId")).eqStr d
  | .none | .registered .. | .revoked _ => False

instance (d : Text) : (o : RevocationEffect) → Decidable (o.commands d)
  | .called effect => inferInstanceAs (Decidable (∃ v ∈ effect.sent, (v.get (.lit "deviceId")).eqStr d))
  | .none | .registered .. | .revoked _ => inferInstanceAs (Decidable False)

/-- The device is revoked, as its row says. -/
def PairedDevices.Revoked (T : PairedDevices) (d : Text) : Prop :=
  ∀ r, PairedDevices.row T d = some r → r.revokedAt.isSome

/-! ## What a broker does to the sockets -/

namespace Broker

variable {b b' : Broker} {cfg : BrokerConfig} {call : Call} {e : Effect}

/-- No device is registered for a socket that it was not registered for. -/
structure NoNewSocket (b b' : Broker) : Prop where
  sockets : ∀ d s, b'.socketOf d = some s → b.socketOf d = some s
  keyed : b.Keyed → b'.Keyed

theorem SameSockets.noNewSocket (h : SameSockets b b') : NoNewSocket b b' where
  sockets d _ hs := (h.sockets d).symm.trans hs
  keyed := h.keyed

theorem NoNewSocket.of_devices (h : b'.devices = b.devices) : NoNewSocket b b' := (SameSockets.of_devices h).noNewSocket

theorem NoNewSocket.orRaise {r : Except BrokerError Broker} (h : ∀ b', r = .ok b' → NoNewSocket b b') :
    NoNewSocket b (b.orRaise r).1 := by
  rcases r with e | b'
  · exact .of_devices rfl
  · exact h b' rfl

theorem NoNewSocket.disconnect (b : Broker) (sid : Text) : NoNewSocket b (b.disconnect sid).1 where
  sockets d s hs := ((socketOf_disconnect b sid d s).1 hs).1
  keyed hb := hb.disconnect sid

theorem NoNewSocket.removePending (b : Broker) (c : Text) : NoNewSocket b (b.removePending c) :=
  .of_devices (removePending_devices b c)

/-- **A call that registers no device.** -/
theorem NoNewSocket.step (hb : b.Keyed) (hcall : ¬ call.registers) (h : Broker.step cfg b call = some (b', e)) :
    NoNewSocket b b' := by
  cases call with
  | registerDevice => exact absurd rfl hcall
  | join => exact absurd rfl hcall
  | heartbeat sid now =>
    obtain ⟨rfl, -⟩ := Prod.mk.inj (Option.some.inj h)
    exact .orRaise fun b' h' => (SameSockets.heartbeat hb h').noNewSocket
  | openSession =>
    obtain ⟨rfl, -⟩ := Prod.mk.inj (Option.some.inj h)
    exact .orRaise fun b' h' => (SameSockets.openSession h').noNewSocket
  | closeSession sid sessionId =>
    simp only [Broker.step] at h
    split at h
    · rename_i b'' settled hclose
      obtain ⟨rfl, -⟩ := Prod.mk.inj (Option.some.inj h)
      exact (SameSockets.closeSession (congrArg (Except.map Prod.fst) hclose)).noNewSocket
    · obtain ⟨rfl, -⟩ := Prod.mk.inj (Option.some.inj h)
      exact .of_devices rfl
  | dispatch =>
    simp only [Broker.step] at h
    split at h
    · cases h
    · split at h
      · rename_i d hd
        obtain ⟨rfl, -⟩ := Prod.mk.inj (Option.some.inj h)
        obtain ⟨s, dev, n, fields, hok⟩ := dispatch_ok hd
        rw [hok.broker]
        exact .of_devices rfl
      · obtain ⟨rfl, -⟩ := Prod.mk.inj (Option.some.inj h)
        exact .of_devices rfl
  | acceptResult =>
    simp only [Broker.step] at h
    split at h
    · rename_i h'
      obtain ⟨rfl, -⟩ := Prod.mk.inj (Option.some.inj h)
      obtain ⟨c, p, rfl, -⟩ := acceptResult_ok h'
      exact .removePending b c
    · obtain ⟨rfl, -⟩ := Prod.mk.inj (Option.some.inj h)
      exact .of_devices rfl
  | acceptApprovalResult =>
    simp only [Broker.step] at h
    split at h
    · obtain ⟨rfl, -⟩ := Prod.mk.inj (Option.some.inj h)
      exact .of_devices rfl
    · obtain ⟨rfl, -⟩ := Prod.mk.inj (Option.some.inj h)
      exact .of_devices rfl
  | cancel =>
    simp only [Broker.step] at h
    split at h
    · rename_i h'
      obtain ⟨rfl, -⟩ := Prod.mk.inj (Option.some.inj h)
      rw [cancel_ok h']
      exact .removePending b _
    · obtain ⟨rfl, -⟩ := Prod.mk.inj (Option.some.inj h)
      exact .of_devices rfl
  | disconnect sid =>
    obtain ⟨rfl, -⟩ := Prod.mk.inj (Option.some.inj h)
    exact .disconnect b sid
  | timeout | callerCancelled | transportFailed =>
    obtain ⟨rfl, -⟩ := Prod.mk.inj (Option.some.inj h)
    exact .removePending b _
  | transportReturned c result =>
    obtain ⟨rfl, -⟩ := Prod.mk.inj (Option.some.inj h)
    split
    · split
      · rename_i h'
        obtain ⟨c', p', rfl, -⟩ := acceptResult_ok h'
        exact .removePending b c'
      · exact .removePending b c
    · exact .of_devices rfl

/-- **The registry part of a join** registers the device for the socket, or no device for a new one. -/
theorem join_sockets (b : Broker) (userId deviceId sid family origin : Text) (now : ℚ) (hb : b.Keyed) :
    (b.join userId deviceId sid family origin now).1.Keyed ∧
      ∀ d s, (b.join userId deviceId sid family origin now).1.socketOf d = some s → b.socketOf d = some s ∨
        (b.join userId deviceId sid family origin now).2.1 = none ∧ d = deviceId ∧ s = sid := by
  obtain ⟨b₁, hcases, hres⟩ := join_result b userId deviceId sid family origin now
  have hfirst : NoNewSocket b b₁ := by
    rcases hcases with ⟨r, -, -, rfl⟩ | ⟨rfl, -⟩
    · exact .disconnect b r.sid
    · exact .of_devices rfl
  rcases hres with ⟨hok, hregister⟩ | ⟨e, -, hsame, -⟩
  · refine ⟨(hfirst.keyed hb).register hregister, fun d s hs => ?_⟩
    rw [socketOf_register hregister] at hs
    split_ifs at hs with hd
    · exact .inr ⟨hok, hd, (Option.some.inj hs).symm⟩
    · exact .inl (hfirst.sockets d s hs)
  · rw [hsame]
    exact ⟨hfirst.keyed hb, fun d s hs => .inl (hfirst.sockets d s hs)⟩

/-- **A command is sent for a device that is registered.** -/
theorem socketOf_of_sent {d : Text} {v : Json} (h : Broker.step cfg b call = some (b', e)) (hsent : e.sent = some v)
    (hd : v.get (.lit "deviceId") = .str d) : ∃ s, b.socketOf d = some s := by
  have hlocks := lockStep_of_step h
  rw [hsent] at hlocks
  generalize b'.locks = l at hlocks
  cases hlocks with
  | @take _ _ _ _ _ _ _ _ _ s dev n fields r _ hok =>
    have hdevice : r.request.get (.lit "deviceId") = .str r.pending.deviceId := by
      rw [hok.request]
      simp [requestEnvelope, Json.get, Json.field]
    rw [hdevice, hok.pending] at hd
    obtain rfl := Json.str.inj hd
    exact ⟨dev.sid, congrArg (Option.map DeviceRecord.sid) hok.device⟩

end Broker

/-! ## Revocation -/

namespace PairedDevices

variable {T T' : PairedDevices} {deviceId userId d : Text} {now : ℤ} {device : Option PairedDevice}

theorem Revoked.revoke (h : T.Revoked d) (hrevoke : revoke T deviceId userId now = some (T', device)) : T'.Revoked d := by
  intro r hr
  rcases row_update_cases hrevoke (fun _ => rfl) d with hsame | ⟨r', -, -, hnew⟩
  · exact h r (hsame ▸ hr)
  · rw [hnew] at hr
    rw [← Option.some.inj hr]
    rfl

theorem revoked_of_revoke (hrevoke : revoke T d userId now = some (T', device)) (hfound : device.isSome) :
    T'.Revoked d := by
  have hid : ∀ r : PairedDevice, (decide (r.id = d ∧ r.userId = userId ∧ r.revokedAt = none) : Bool) → r.id = d := by
    intro r hr
    exact (of_decide_eq_true hr).1
  rcases updateReturning_cases hrevoke (fun _ => rfl) hid with ⟨hnone, -⟩ | ⟨r, -, -, -, hrow, -⟩
  · rw [hnone] at hfound
    cases hfound
  · intro r' hr'
    rw [hrow] at hr'
    rw [← Option.some.inj hr']
    rfl

theorem Revoked.getActiveById (h : T.Revoked d) : getActiveById T d = none := by
  rw [getActiveById_eq, Option.filter_eq_none_iff]
  intro r hr hactive
  have hsome := h r hr
  rw [of_decide_eq_true hactive] at hsome
  cases hsome

end PairedDevices

section
variable {n : ℕ} {cfg : BrokerConfig} {w w' : RevocationWorld n} {d : Text} {S : Text → Prop}
  {i : RevocationStep n} {o : RevocationEffect}

/-- What holds after the revocation of `d`: it is admitted on the sockets in `S` only. -/
structure ServedOn (S : Text → Prop) (d : Text) (w : RevocationWorld n) : Prop where
  keyed : ∀ k r, w.devices.get k = some r → r.deviceId = k
  revoked : w.table.Revoked d
  admitted : ∀ sid, w.Admitted d sid → S sid

/-- A join goes on, and admits the device on no socket that it was not admitted on. -/
theorem ServedOn.goto (h : ServedOn S d w) (j : ℕ) (k : Fin n) {pc : JoinPc}
    (hpc : ∀ sid, pc.admitted = some (d, sid) → S sid) : ServedOn S d (w.goto j k pc) := by
  refine ⟨h.keyed, h.revoked, ?_⟩
  rintro sid (hsocket | ⟨j', k', pc', hjoin, hadmits⟩)
  · exact h.admitted sid (.inl hsocket)
  · simp only [RevocationWorld.goto, Function.update_apply] at hjoin
    split_ifs at hjoin
    · obtain ⟨-, rfl⟩ := Prod.mk.inj (Option.some.inj hjoin)
      exact hpc sid hadmits
    · exact h.admitted sid (.inr ⟨j', k', pc', hjoin, hadmits⟩)

/-- The registries change, and the device is registered for no socket outside `S`. -/
theorem ServedOn.setBroker (h : ServedOn S d w) (k : Fin n) {b : Broker} (hkeyed : b.Keyed)
    (hsockets : ∀ sid, b.socketOf d = some sid → S sid) : ServedOn S d (w.setBroker k b) := by
  refine ⟨hkeyed, h.revoked, ?_⟩
  rintro sid (hsocket | hjoin)
  · exact hsockets sid hsocket
  · exact h.admitted sid (.inr hjoin)

theorem admitted_afterFetching {sid origin : Text} {claims : JoinClaims} {device : Option PairedDevice} {x : Text × Text}
    (h : (afterFetching sid origin claims device).admitted = some x) : device.isSome ∧ x = (claims.deviceId, sid) := by
  cases device with
  | none => cases h
  | some device =>
    refine ⟨rfl, ?_⟩
    rw [afterFetching] at h
    split_ifs at h
    · cases h
    · exact (Option.some.inj h).symm
    · cases h

theorem admitted_afterNaming {sid origin : Text} {claims : JoinClaims} {role : Option Text} {x : Text × Text}
    (h : (afterNaming sid origin claims role).admitted = some x) :
    (JoinPc.naming sid origin claims).admitted = some x := by
  rw [afterNaming] at h
  split_ifs at h
  · exact h
  · cases h

theorem not_admitted_afterDecoding (sid origin : Text) (claims : Option Json) :
    (afterDecoding sid origin claims).admitted = none := by
  rw [afterDecoding]
  split
  · rfl
  · split <;> rfl

theorem not_admitted_beginJoin (sid : Text) (data : Json) : (beginJoin sid data).admitted = none := by
  rw [beginJoin]
  split_ifs
  · rfl
  · split <;> rfl

/-- **The registry part of a join**, of one that is admitted. -/
theorem ServedOn.register (h : ServedOn S d w) (j : ℕ) (k : Fin n) (sid origin : Text) (claims : JoinClaims) (now : ℚ)
    (hadmitted : claims.deviceId = d → S sid) :
    ServedOn S d (w.register j k sid origin claims now).1 ∧
      ∀ sid', (w.register j k sid origin claims now).2 = .registered d sid' → S sid' := by
  obtain ⟨hkeyed, hsockets⟩ := Broker.join_sockets (w.broker k) claims.userId claims.deviceId sid claims.tokenFamilyId
    origin now h.keyed
  have hset : ServedOn S d (w.setBroker k
      ((w.broker k).join claims.userId claims.deviceId sid claims.tokenFamilyId origin now).1) := by
    refine h.setBroker k hkeyed fun sid' hs => ?_
    rcases hsockets d sid' hs with hs | ⟨-, hd, rfl⟩
    · exact h.admitted sid' (.inl hs)
    · exact hadmitted hd.symm
  rw [RevocationWorld.register]
  split
  · exact ⟨hset.goto j k (by rintro _ ⟨⟩), by rintro _ ⟨⟩⟩
  · refine ⟨hset.goto j k (by rintro _ ⟨⟩), fun sid' heq => ?_⟩
    obtain ⟨hd, rfl⟩ := RevocationEffect.registered.inj heq
    exact hadmitted hd

/-- **The next step of a join.** -/
theorem ServedOn.resume (h : ServedOn S d w) {j : ℕ} {tick : JoinTick} {k : Fin n} {pc : JoinPc}
    (hjoin : w.joins j = some (k, pc)) (hs : w.resumeJoin j tick k pc = some (w', o)) :
    ServedOn S d w' ∧ ∀ sid, o = .registered d sid → S sid := by
  have hdone : ∀ {reply : SocketReply}, ServedOn S d (w.goto j k (.done reply)) := h.goto j k (by rintro _ ⟨⟩)
  have hadmitted : ∀ {sid}, pc.admitted = some (d, sid) → S sid := fun hpc => h.admitted _ (.inr ⟨j, k, pc, hjoin, hpc⟩)
  cases pc with
  | decoding sid origin =>
    cases hs
    refine ⟨h.goto j k fun sid' hpc => ?_, by rintro _ ⟨⟩⟩
    rw [not_admitted_afterDecoding] at hpc
    cases hpc
  | fetching sid origin claims =>
    rw [RevocationWorld.resumeJoin] at hs
    split_ifs at hs
    · cases hs
      exact ⟨hdone, by rintro _ ⟨⟩⟩
    · cases hs
      refine ⟨h.goto j k fun sid' hpc => ?_, by rintro _ ⟨⟩⟩
      -- the row is read now, and the device is revoked
      obtain ⟨hfound, hx⟩ := admitted_afterFetching hpc
      obtain ⟨rfl, rfl⟩ := Prod.mk.inj hx
      rw [h.revoked.getActiveById] at hfound
      cases hfound
  | naming sid origin claims =>
    rw [RevocationWorld.resumeJoin] at hs
    split_ifs at hs
    · cases hs
      exact ⟨hdone, by rintro _ ⟨⟩⟩
    · cases hs
      exact ⟨h.goto j k fun sid' hpc => hadmitted (admitted_afterNaming hpc), by rintro _ ⟨⟩⟩
  | permitting sid origin claims =>
    rw [RevocationWorld.resumeJoin] at hs
    split_ifs at hs
    · cases hs
      exact ⟨hdone, by rintro _ ⟨⟩⟩
    · obtain ⟨hregistered, hsid⟩ := h.register j k sid origin claims tick.now
        fun hd => hadmitted (by rw [← hd]; rfl)
      rw [Option.some.inj hs] at hregistered hsid
      exact ⟨hregistered, hsid⟩
    · cases hs
      exact ⟨hdone, by rintro _ ⟨⟩⟩
  | enteringUser sid claims =>
    rw [RevocationWorld.resumeJoin] at hs
    split_ifs at hs
    · cases hs
      exact ⟨hdone, by rintro _ ⟨⟩⟩
    · cases hs
      exact ⟨h.goto j k (by rintro _ ⟨⟩), by rintro _ ⟨⟩⟩
  | enteringDevice sid claims =>
    rw [RevocationWorld.resumeJoin] at hs
    split_ifs at hs
    · cases hs
      exact ⟨hdone, by rintro _ ⟨⟩⟩
    · cases hs
      exact ⟨hdone, by rintro _ ⟨⟩⟩
  | done reply => cases hs

/-- **One step.** -/
theorem ServedOn.step (h : ServedOn S d w) (hs : (revocationMachine n cfg).step w i = some (w', o)) :
    ServedOn S d w' ∧ ∀ sid, o = .registered d sid → S sid := by
  cases i with
  | join j k sid data =>
    obtain ⟨-, hs⟩ := Option.ite_none_left_eq_some.1 hs
    cases hs
    refine ⟨h.goto j k fun sid' hpc => ?_, by rintro _ ⟨⟩⟩
    rw [not_admitted_beginJoin] at hpc
    cases hpc
  | resume j tick =>
    obtain ⟨⟨k, pc⟩, hjoin, hs⟩ := Option.bind_eq_some_iff.1 hs
    exact h.resume hjoin hs
  | call k c =>
    obtain ⟨hcall, hs⟩ := Option.ite_none_left_eq_some.1 hs
    obtain ⟨⟨b, e⟩, hstep, hs⟩ := Option.map_eq_some_iff.1 hs
    obtain ⟨rfl, rfl⟩ := Prod.mk.inj hs
    have hnew : (w.broker k).NoNewSocket b := .step h.keyed hcall hstep
    exact ⟨h.setBroker k (hnew.keyed h.keyed) fun sid hsid => h.admitted sid (.inl (hnew.sockets d sid hsid)),
      by rintro _ ⟨⟩⟩
  | revoke deviceId userId now =>
    have hs := Option.some.inj hs
    rw [RevocationWorld.revoke] at hs
    cases hrevoke : PairedDevices.revoke w.table deviceId userId now with
    | none =>
      rw [hrevoke] at hs
      cases hs
      exact ⟨h, by rintro _ ⟨⟩⟩
    | some r =>
      rw [hrevoke] at hs
      cases hs
      exact ⟨⟨h.keyed, h.revoked.revoke hrevoke, h.admitted⟩, by rintro _ ⟨⟩⟩

theorem servedOn_revoke {userId : Text} {now : ℤ} (hkeyed : ∀ k r, w.devices.get k = some r → r.deviceId = k)
    (hs : (revocationMachine n cfg).step w (.revoke d userId now) = some (w', .revoked true)) :
    ServedOn (w'.Admitted d) d w' := by
  have hs := Option.some.inj hs
  rw [RevocationWorld.revoke] at hs
  cases hrevoke : PairedDevices.revoke w.table d userId now with
  | none =>
    rw [hrevoke] at hs
    exact absurd (congrArg Prod.snd hs) (by simp)
  | some r =>
    rw [hrevoke] at hs
    have hfound : r.2.isSome = true := RevocationEffect.revoked.inj (congrArg Prod.snd hs)
    obtain rfl := congrArg Prod.fst hs
    exact ⟨hkeyed, PairedDevices.revoked_of_revoke hrevoke hfound, fun _ => id⟩

theorem not_commands_of_resume {j : ℕ} {tick : JoinTick} {k : Fin n} {pc : JoinPc}
    (hs : w.resumeJoin j tick k pc = some (w', o)) : ¬ o.commands d := by
  have hregister : ∀ {sid origin claims}, ¬ (w.register j k sid origin claims tick.now).2.commands d := by
    intro sid origin claims
    rw [RevocationWorld.register]
    split
    · exact id
    · exact id
  cases pc with
  | decoding =>
    cases hs
    exact id
  | done => cases hs
  | fetching | naming | enteringUser | enteringDevice =>
    rw [RevocationWorld.resumeJoin] at hs
    split_ifs at hs
    all_goals
      cases hs
      exact id
  | permitting sid origin claims =>
    rw [RevocationWorld.resumeJoin] at hs
    split_ifs at hs
    · cases hs
      exact id
    · have heffect : (w.register j k sid origin claims tick.now).2 = o := congrArg Prod.snd (Option.some.inj hs)
      rw [← heffect]
      exact hregister
    · cases hs
      exact id

/-- **A command is sent for a device that is registered.** -/
theorem socketOf_of_commands (hs : (revocationMachine n cfg).step w i = some (w', o)) (hcommand : o.commands d) :
    ∃ sid, w.socketOf d = some sid := by
  cases i with
  | join j k sid data =>
    obtain ⟨-, hs⟩ := Option.ite_none_left_eq_some.1 hs
    cases hs
    exact hcommand.elim
  | resume j tick =>
    obtain ⟨⟨k, pc⟩, -, hs⟩ := Option.bind_eq_some_iff.1 hs
    exact absurd hcommand (not_commands_of_resume hs)
  | call k c =>
    obtain ⟨-, hs⟩ := Option.ite_none_left_eq_some.1 hs
    obtain ⟨⟨b, e⟩, hstep, hs⟩ := Option.map_eq_some_iff.1 hs
    cases hs
    obtain ⟨v, hsent, hd⟩ := hcommand
    exact Broker.socketOf_of_sent hstep hsent (Json.eqStr_iff.1 hd)
  | revoke deviceId userId now =>
    have hs := Option.some.inj hs
    rw [RevocationWorld.revoke] at hs
    cases hrevoke : PairedDevices.revoke w.table deviceId userId now with
    | none =>
      rw [hrevoke] at hs
      cases hs
      exact hcommand.elim
    | some r =>
      rw [hrevoke] at hs
      cases hs
      exact hcommand.elim

/-- **After the revocation of a device, joins register it, and commands are sent for it, on those sockets only on which
    it was admitted before.** -/
theorem revokedDevice_servedOn {userId : Text} {now : ℤ} {w₀ : RevocationWorld n}
    {tr : List (RevocationStep n × RevocationEffect)}
    (hkeyed : ∀ k r, w₀.devices.get k = some r → r.deviceId = k)
    (hrevoke : (revocationMachine n cfg).step w₀ (.revoke d userId now) = some (w, .revoked true))
    (hrun : (revocationMachine n cfg).Run w tr w') :
    (∀ e ∈ tr, ∀ sid, e.2.registration = some (d, sid) → w.Admitted d sid) ∧
      ∀ xs i o ys, tr = xs ++ (i, o) :: ys → o.commands d →
        ∃ t sid, (revocationMachine n cfg).Run w xs t ∧ t.socketOf d = some sid ∧ w.Admitted d sid := by
  have hstart := servedOn_revoke hkeyed hrevoke
  constructor
  · refine (hrun.safety (I := ServedOn (w.Admitted d) d) ?_ hstart).2
    intro w i w' o _ h hs
    obtain ⟨h, hregistered⟩ := h.step hs
    refine ⟨h, fun sid hsid => hregistered sid ?_⟩
    cases o with
    | registered =>
      cases hsid
      rfl
    | none => cases hsid
    | called => cases hsid
    | revoked => cases hsid
  · rintro xs i o ys rfl hcommand
    obtain ⟨t, t', hxs, -, hs, -⟩ := hrun.split
    have ht := hxs.invariant (I := ServedOn (w.Admitted d) d) (fun _ _ _ _ _ h hs => (h.step hs).1) hstart
    obtain ⟨sid, hsid⟩ := socketOf_of_commands hs hcommand
    exact ⟨t, sid, hxs, hsid, ht.admitted sid (.inl hsid)⟩

theorem keyed_step (h : ∀ k r, w.devices.get k = some r → r.deviceId = k)
    (hs : (revocationMachine n cfg).step w i = some (w', o)) : ∀ k r, w'.devices.get k = some r → r.deviceId = k := by
  cases i with
  | join j k sid data =>
    obtain ⟨-, hs⟩ := Option.ite_none_left_eq_some.1 hs
    cases hs
    exact h
  | resume j tick =>
    obtain ⟨⟨k, pc⟩, -, hs⟩ := Option.bind_eq_some_iff.1 hs
    cases pc with
    | done => cases hs
    | decoding =>
      cases hs
      exact h
    | fetching | naming | enteringUser | enteringDevice =>
      rw [RevocationWorld.resumeJoin] at hs
      split_ifs at hs
      all_goals
        cases hs
        exact h
    | permitting sid origin claims =>
      rw [RevocationWorld.resumeJoin] at hs
      split_ifs at hs
      · cases hs
        exact h
      · obtain rfl : (w.register j k sid origin claims tick.now).1 = w' := congrArg Prod.fst (Option.some.inj hs)
        obtain ⟨hkeyed, -⟩ := Broker.join_sockets (w.broker k) claims.userId claims.deviceId sid claims.tokenFamilyId
          origin tick.now h
        rw [RevocationWorld.register]
        split
        · exact hkeyed
        · exact hkeyed
      · cases hs
        exact h
  | call k c =>
    obtain ⟨hcall, hs⟩ := Option.ite_none_left_eq_some.1 hs
    obtain ⟨⟨b, e⟩, hstep, hs⟩ := Option.map_eq_some_iff.1 hs
    obtain ⟨rfl, -⟩ := Prod.mk.inj hs
    exact (Broker.NoNewSocket.step (b := w.broker k) h hcall hstep).keyed h
  | revoke deviceId userId now =>
    have hs := Option.some.inj hs
    rw [RevocationWorld.revoke] at hs
    cases hrevoke : PairedDevices.revoke w.table deviceId userId now <;>
      · rw [hrevoke] at hs
        cases hs
        exact h

/-- A device is revoked when it is admitted on no socket. -/
def RevokedUnadmitted (w : RevocationWorld n) : RevocationStep n → Prop
  | .revoke d _ _ => ∀ sid, ¬ w.Admitted d sid
  | _ => True

/-- **A device that is revoked when it is admitted on no socket gets no further commands, and no join registers it.** -/
theorem revokedDevice_silent {w₀ : RevocationWorld n} {tr xs ys : List (RevocationStep n × RevocationEffect)}
    {userId : Text} {now : ℤ} (hkeyed : ∀ k r, w₀.devices.get k = some r → r.deviceId = k)
    (hrun : (revocationMachine n cfg).RunIn RevokedUnadmitted w₀ tr w')
    (htr : tr = xs ++ (.revoke d userId now, .revoked true) :: ys) :
    ∀ e ∈ ys, ¬ e.2.commands d ∧ ∀ sid, e.2.registration ≠ some (d, sid) := by
  subst htr
  obtain ⟨t, t', hxs, hfree, hrevoke, hys⟩ := hrun.split
  have ht := hxs.invariant (I := fun w => ∀ k r, w.devices.get k = some r → r.deviceId = k)
    (fun _ _ _ _ _ h hs => keyed_step h hs) hkeyed
  obtain ⟨hjoins, hcommands⟩ := revokedDevice_servedOn ht hrevoke hys.run
  -- the revocation changes the table only
  have hnone : ∀ sid, ¬ t'.Admitted d sid := by
    have hs := Option.some.inj hrevoke
    rw [RevocationWorld.revoke] at hs
    cases hrow : PairedDevices.revoke t.table d userId now <;>
      · rw [hrow] at hs
        obtain rfl := congrArg Prod.fst hs
        exact hfree
  intro e he
  constructor
  · intro hcommand
    obtain ⟨us, vs, rfl⟩ := List.append_of_mem he
    obtain ⟨-, sid, -, -, hadmitted⟩ := hcommands us e.1 e.2 vs rfl hcommand
    exact hnone sid hadmitted
  · exact fun sid hsid => hnone sid (hjoins e he sid hsid)

end

/-! ## A run -/

namespace Sample

/-- Two workers; the device `d` is paired, and no socket is there. -/
def revocationWorld : RevocationWorld 2 where
  table := ⟨[⟨.lit "d", .lit "u", .lit "laptop", [], none, none, .lit "f", .lit "https://tide-bot.com", .lit "1.0.0",
    none, none, 0, 0⟩], by decide⟩
  devices := .empty
  sessions := .empty
  workers _ := .empty
  joins _ := none

def joins (i : ℕ) (k : Fin 2) (sid : String) : List (RevocationStep 2) :=
  [.join i k (.lit sid) (.obj [(.lit "accessToken", .str (.lit "token")),
      (.lit "origin", .str (.lit "https://tide-bot.com"))]),
    .resume i (granted "d"), .resume i (granted "d"), .resume i (granted "d")]

/-- The device `e` is registered, with a session; a join of `d` has yet to read the row. -/
def unadmittedWorld : RevocationWorld 2 := { revocationWorld with
  devices := Dict.empty.set (.lit "e") ⟨.lit "u", .lit "e", .lit "s1", .lit "f", .lit "https://tide-bot.com", 0⟩
  sessions := Dict.empty.set (.lit "S") ⟨.lit "u", .lit "e", .lit "s1", .lit "S", 7, .lit "https://example.com",
    .lit "autonomous", .lit "locked", 0⟩
  joins := fun i => if i = 0 then
    some (1, .fetching (.lit "s2") (.lit "https://tide-bot.com") ⟨.lit "u", .lit "d", .lit "f", .lit "https://tide-bot.com"⟩)
    else none }

def isQuiet : RevocationStep 2 → Bool
  | .revoke .. => false
  | _ => true

theorem unadmitted (sid : Text) : ¬ unadmittedWorld.Admitted (.lit "d") sid := by
  rintro (hsocket | ⟨i, k, pc, hjoin, hpc⟩)
  · cases hsocket
  · obtain ⟨-, hjoin⟩ := Option.ite_none_right_eq_some.1 hjoin
    obtain ⟨-, rfl⟩ := Prod.mk.inj (Option.some.inj hjoin)
    cases hpc

/-- The device is registered on one socket, with a session, and is about to be on another; then it is revoked. -/
theorem revokedRun : ∃ w₀ w tr w', (∀ k r, w₀.devices.get k = some r → r.deviceId = k) ∧
    (revocationMachine 2 brokerConfig).step w₀ (.revoke (.lit "d") (.lit "u") 5) = some (w, .revoked true) ∧
    (revocationMachine 2 brokerConfig).Run w tr w' ∧ (∃ e ∈ tr, e.2.commands (.lit "d")) ∧
      ∃ e ∈ tr, e.2.registration = some (.lit "d", .lit "s2") := by
  obtain ⟨⟨tr₀, w₀⟩, hm₀, hkeyed, hfound, ⟨tr, w'⟩, hm, hcommand, hregistered⟩ :
      ∃ r₀ ∈ (revocationMachine 2 brokerConfig).exec (fun _ _ => True) revocationWorld
        (joins 0 0 "s1" ++ [.resume 0 (granted "d"), .call 1 (startSession "s1" "S")] ++ joins 1 1 "s2"),
      (∀ e ∈ r₀.2.devices.entries, e.2.deviceId = e.1) ∧
      (PairedDevices.revoke r₀.2.table (.lit "d") (.lit "u") 5).map (fun r => r.2.isSome) = some true ∧
      ∃ r ∈ (revocationMachine 2 brokerConfig).exec (fun _ _ => True) (r₀.2.revoke (.lit "d") (.lit "u") 5).1
        [.call 0 (click "S" "c"), .resume 1 (granted "d")],
      (∃ e ∈ r.1, e.2.commands (.lit "d")) ∧ ∃ e ∈ r.1, e.2.registration = some (.lit "d", .lit "s2") := by
    decide +kernel
  obtain ⟨r, hrevoke, hsome⟩ := Option.map_eq_some_iff.1 hfound
  refine ⟨w₀, _, tr, w', fun k r hr => hkeyed (k, r) (Dict.mem_entries_iff.2 hr), ?_, Machine.runIn_of_exec hm, hcommand,
    hregistered⟩
  rw [RevocationWorld.revoke, hrevoke, ← hsome]
  exact congrArg some (by rw [RevocationWorld.revoke, hrevoke])

end Sample

/-- The device `d` is revoked; its join is refused, and `e` goes on getting commands. -/
theorem revokedDevice_silent_sample : ∃ tr w, (revocationMachine 2 Sample.brokerConfig).Run Sample.unadmittedWorld
    ((.revoke (.lit "d") (.lit "u") 5, .revoked true) :: tr) w ∧ (∃ e ∈ tr, e.2.commands (.lit "e")) ∧
      ∀ e ∈ tr, ¬ e.2.commands (.lit "d") ∧ ∀ sid, e.2.registration ≠ some (.lit "d", sid) := by
  obtain ⟨hfound, ⟨tr, w⟩, hm, hcommand⟩ :
      (PairedDevices.revoke Sample.unadmittedWorld.table (.lit "d") (.lit "u") 5).map (fun r => r.2.isSome) = some true ∧
      ∃ r ∈ (revocationMachine 2 Sample.brokerConfig).exec (fun _ i => Sample.isQuiet i)
        (Sample.unadmittedWorld.revoke (.lit "d") (.lit "u") 5).1
        [.resume 0 (granted "d"), .call 0 (Sample.click "S" "c")], ∃ e ∈ r.1, e.2.commands (.lit "e") := by
    decide +kernel
  obtain ⟨r, hrevoke, hsome⟩ := Option.map_eq_some_iff.1 hfound
  have hstep : (revocationMachine 2 Sample.brokerConfig).step Sample.unadmittedWorld (.revoke (.lit "d") (.lit "u") 5) =
      some ((Sample.unadmittedWorld.revoke (.lit "d") (.lit "u") 5).1, .revoked true) := by
    rw [← hsome]
    exact congrArg some (by rw [RevocationWorld.revoke, hrevoke])
  have hrun := (Machine.runIn_of_exec hm).mono (D := RevokedUnadmitted) fun w i hi => by
    cases i with
    | revoke => cases hi
    | join | resume | call => trivial
  have hunadmitted : RevokedUnadmitted Sample.unadmittedWorld (.revoke (.lit "d") (.lit "u") 5) := Sample.unadmitted
  have hall := Machine.RunIn.cons hunadmitted hstep hrun
  have hkeyed : ∀ e ∈ Sample.unadmittedWorld.devices.entries, e.2.deviceId = e.1 := by decide
  exact ⟨tr, w, hall.run, hcommand, revokedDevice_silent
    (fun k r hr => hkeyed (k, r) (Dict.mem_entries_iff.2 hr)) hall (List.nil_append _).symm⟩

/-- **A revoked device gets a command, and is registered.** -/
theorem not_revokedDevice_silent : ¬ ∀ (w₀ w w' : RevocationWorld 2) tr,
    (∀ k r, w₀.devices.get k = some r → r.deviceId = k) →
    (revocationMachine 2 Sample.brokerConfig).step w₀ (.revoke (.lit "d") (.lit "u") 5) = some (w, .revoked true) →
    (revocationMachine 2 Sample.brokerConfig).Run w tr w' →
      ∀ e ∈ tr, ¬ e.2.commands (.lit "d") ∧ ∀ sid, e.2.registration ≠ some (.lit "d", sid) := by
  intro h
  obtain ⟨w₀, w, tr, w', hkeyed, hrevoke, hrun, ⟨e, he, hcommand⟩, -⟩ := Sample.revokedRun
  exact (h w₀ w w' tr hkeyed hrevoke hrun e he).1 hcommand

end TideBot
