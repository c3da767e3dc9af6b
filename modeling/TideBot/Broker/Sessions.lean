/-
  Which device a session belongs to.

  `open_session` stores a session under an id that the client chooses, and looks
  for conflicts only among the sessions of the caller's own device.  With the id
  of another device's session it overwrites that session; closing it then fails
  the other device's commands (`sessionIsolation_broken`).  If no call does that
  (`OwnSession`), the devices are isolated: `sessionIsolation`.

  The invariant is `Owned`: a session belongs to a device that is registered for
  the session's socket, and a pending command to the device of its session.  It
  needs what `join` does, the only caller of `register_device`: a device that
  moves to another socket is disconnected from the old one first.
-/
import TideBot.Broker.Locks

namespace TideBot

open Lib

namespace Broker

variable {cfg : BrokerConfig} {b b' : Broker} {call : Call} {e : Effect} {A sid : Text}

/-- The calls of the server: `register_device` is called by `join` only. -/
def ServerCall : Call → Prop
  | .registerDevice .. => False
  | _ => True

instance : DecidablePred ServerCall := fun call => by
  cases call <;> unfold ServerCall <;> infer_instance

/-- Socket `sid` is registered for no device other than `A`. -/
def BoundTo (b : Broker) (sid A : Text) : Prop := ∀ f ∈ b.devices.entries, f.2.sid = sid → f.1 = A

/-- The calls through the sockets of device `A`; a result comes with the device
    of its socket. -/
def CallOf (A : Text) (b : Broker) : Call → Prop
  | .heartbeat sid _ | .openSession sid .. | .closeSession sid _ | .disconnect sid => b.BoundTo sid A
  | .acceptResult _ expectedDeviceId => expectedDeviceId = some A
  | _ => False

instance (A : Text) (b : Broker) : DecidablePred (CallOf A b) := fun call => by
  cases call <;> unfold CallOf <;> unfold BoundTo <;> infer_instance

/-- `open_session` does not name a session of a device other than the caller's. -/
def OwnSession (b : Broker) : Call → Prop
  | .openSession sid (.str sessionId) _ _ _ _ _ =>
    ∀ device ∈ b.deviceForSid sid, ∀ s ∈ b.sessions.get sessionId, s.deviceId = device.deviceId
  | _ => True

instance (b : Broker) : DecidablePred (OwnSession b) := fun call => by
  unfold OwnSession; split <;> infer_instance

/-- Who owns what. -/
structure Owned (b : Broker) : Prop where
  /-- a device is registered under its own id -/
  keyed : ∀ d r, b.devices.get d = some r → r.deviceId = d
  /-- a session belongs to a device registered for the same socket -/
  session : ∀ x s, b.sessions.get x = some s →
    ∃ r, b.devices.get s.deviceId = some r ∧ r.sid = s.sid
  /-- a command belongs to the device of its session -/
  command : ∀ c p, b.pending.get c = some p →
    ∃ s, b.sessions.get p.sessionId = some s ∧ s.deviceId = p.deviceId

theorem owned_empty : Owned .empty :=
  ⟨fun d r h => by simp [Broker.empty] at h, fun x s h => by simp [Broker.empty] at h,
    fun c p h => by simp [Broker.empty] at h⟩

theorem deviceForSid_eq {device : DeviceRecord} (h : b.deviceForSid sid = some device) :
    ∃ d, b.devices.get d = some device ∧ device.sid = sid := by
  unfold deviceForSid at h
  split at h
  · rename_i f hf
    cases h
    have hm : f ∈ b.devices.entries.filter fun e => e.2.sid = sid := by rw [hf]; simp
    rw [List.mem_filter, decide_eq_true_eq] at hm
    exact ⟨f.1, Dict.mem_entries_iff.1 hm.1, hm.2⟩
  · cases h

theorem Owned.deviceForSid {device : DeviceRecord} (hb : Owned b)
    (h : b.deviceForSid sid = some device) :
    b.devices.get device.deviceId = some device ∧ device.sid = sid := by
  obtain ⟨d, hd, hs⟩ := deviceForSid_eq h
  rw [hb.keyed d device hd]
  exact ⟨hd, hs⟩

theorem BoundTo.eq (h : b.BoundTo sid A) {d : Text} {r : DeviceRecord}
    (hd : b.devices.get d = some r) (hs : r.sid = sid) : d = A :=
  h (d, r) (Dict.mem_entries_iff.2 hd) hs

theorem Owned.session_of_bound (hb : Owned b) (h : b.BoundTo sid A) {x : Text} {s : SessionRecord}
    (hx : b.sessions.get x = some s) (hs : s.sid = sid) : s.deviceId = A := by
  obtain ⟨r, hr, hsid⟩ := hb.session x s hx
  exact h.eq hr (hsid.trans hs)

theorem mem_devicesOf {d : Text} : d ∈ b.devicesOf sid ↔ ∃ r, b.devices.get d = some r ∧ r.sid = sid := by
  simp [devicesOf, Dict.mem_entries_iff]

/-! ## The invariant is kept -/

theorem Owned.removePending (hb : Owned b) (c : Text) : Owned (b.removePending c) := by
  refine ⟨by simpa using hb.keyed, by simpa using hb.session, fun c' p h => ?_⟩
  rw [removePending_pending, Dict.get_erase] at h
  split_ifs at h
  simpa using hb.command c' p h

theorem Owned.register (hb : Owned b) {r : DeviceRecord}
    (hs : ∀ x s, b.sessions.get x = some s → s.deviceId = r.deviceId → s.sid = r.sid) :
    Owned { b with devices := b.devices.set r.deviceId r } := by
  refine ⟨?_, ?_, hb.command⟩
  · intro d r' h
    simp only [Dict.get_set] at h
    split_ifs at h with hd
    · cases h; exact hd.symm
    · exact hb.keyed d r' h
  · intro x s h
    simp only [Dict.get_set]
    split_ifs with hd
    · exact ⟨r, rfl, (hs x s h hd).symm⟩
    · exact hb.session x s h

theorem disconnect_sessions (b : Broker) (sid x : Text) (s : SessionRecord) :
    (b.disconnect sid).1.sessions.get x = some s ↔ b.sessions.get x = some s ∧ s.sid ≠ sid := by
  simp [disconnect, Dict.get_filter]

theorem disconnect_devices (b : Broker) (sid d : Text) (r : DeviceRecord) :
    (b.disconnect sid).1.devices.get d = some r ↔ b.devices.get d = some r ∧ r.sid ≠ sid := by
  simp [disconnect, Dict.get_filter]

theorem disconnect_pending (b : Broker) (sid c : Text) (p : PendingCommand) :
    (b.disconnect sid).1.pending.get c = some p ↔
      b.pending.get c = some p ∧ p.deviceId ∉ b.devicesOf sid := by
  simp [disconnect, failMatching_pending_get]

theorem Owned.disconnect (hb : Owned b) (sid : Text) : Owned (b.disconnect sid).1 := by
  refine ⟨?_, ?_, ?_⟩
  · intro d r h
    exact hb.keyed d r ((disconnect_devices b sid d r).1 h).1
  · intro x s h
    obtain ⟨hx, hs⟩ := (disconnect_sessions b sid x s).1 h
    obtain ⟨r, hr, hsid⟩ := hb.session x s hx
    exact ⟨r, (disconnect_devices b sid _ r).2 ⟨hr, hsid ▸ hs⟩, hsid⟩
  · intro c p h
    obtain ⟨hc, hp⟩ := (disconnect_pending b sid c p).1 h
    obtain ⟨s, hs, hd⟩ := hb.command c p hc
    refine ⟨s, (disconnect_sessions b sid _ s).2 ⟨hs, fun hsid => hp ?_⟩, hd⟩
    obtain ⟨r, hr, hrs⟩ := hb.session _ s hs
    exact mem_devicesOf.2 ⟨r, hd ▸ hr, hrs.trans hsid⟩

theorem Owned.join (hb : Owned b) (userId deviceId sid family origin : Text) (now : ℚ) :
    Owned (b.join userId deviceId sid family origin now).1 := by
  obtain ⟨b₁, hjoin, hb₁⟩ := join_cases b userId deviceId sid family origin now
  have hsid : ∀ x s, b.sessions.get x = some s → s.deviceId = deviceId →
      ∃ r, b.devices.get deviceId = some r ∧ r.sid = s.sid :=
    fun x s hx hd => hd ▸ hb.session x s hx
  have howned : Owned b₁ := by
    rcases hb₁ with ⟨r, -, -, rfl⟩ | ⟨rfl, -⟩
    · exact hb.disconnect _
    · exact hb
  have hs : ∀ x s, b₁.sessions.get x = some s → s.deviceId = deviceId → s.sid = sid := by
    intro x s hx hd
    rcases hb₁ with ⟨r, hr, -, rfl⟩ | ⟨rfl, hr⟩
    · -- the sessions of the device went with its old socket
      obtain ⟨hx, hs⟩ := (disconnect_sessions b _ x s).1 hx
      obtain ⟨r', hr', hrs⟩ := hsid x s hx hd
      rw [hr] at hr'
      cases hr'
      exact absurd hrs.symm hs
    · obtain ⟨r', hr', hrs⟩ := hsid x s hx hd
      exact hrs.symm.trans (hr r' hr')
  rcases hjoin with h | h
  · rw [h]; exact howned
  · rw [registerDevice_ok h]
    exact howned.register (r := ⟨userId, deviceId, sid, family, origin, now⟩) hs

theorem Owned.heartbeat (hb : Owned b) {now : ℚ} (h : b.heartbeat sid now = .ok b') : Owned b' := by
  obtain ⟨device, hd, rfl⟩ := heartbeat_ok h
  obtain ⟨hget, -⟩ := hb.deviceForSid hd
  refine hb.register (r := { device with lastSeenAt := now }) ?_
  intro x s hx hs
  obtain ⟨r, hr, hrs⟩ := hb.session x s hx
  rw [hs] at hr
  cases hget.symm.trans hr
  exact hrs.symm

theorem Owned.openSession (hb : Owned b) {sessionId tabId tabOrigin actionMode tabPolicy : Json}
    {now : ℚ} (h : b.openSession sid sessionId tabId tabOrigin actionMode tabPolicy now = .ok b')
    (hown : OwnSession b (.openSession sid sessionId tabId tabOrigin actionMode tabPolicy now)) :
    Owned b' := by
  obtain ⟨device, session, record, hd, rfl, hrd, hrs, -, -, rfl⟩ := openSession_ok h
  obtain ⟨hget, hsid⟩ := hb.deviceForSid hd
  refine ⟨hb.keyed, ?_, ?_⟩
  · intro x s hx
    simp only [Dict.get_set] at hx
    split_ifs at hx
    · cases hx
      exact ⟨device, hrd ▸ hget, hsid.trans hrs.symm⟩
    · exact hb.session x s hx
  · intro c p hc
    obtain ⟨s, hs, hsd⟩ := hb.command c p hc
    simp only [Dict.get_set]
    split_ifs with hx
    · -- the session was one of the caller's device already
      rw [hx] at hs
      exact ⟨record, rfl, by rw [hrd, ← hown device hd s hs, hsd]⟩
    · exact ⟨s, hs, hsd⟩

theorem Owned.closeSession (hb : Owned b) {sessionId : Text} {settled : List (Text × Outcome)}
    (h : b.closeSession sid sessionId = .ok (b', settled)) : Owned b' := by
  rcases closeSession_ok h with rfl | ⟨session, -, -, rfl⟩
  · exact hb
  · refine ⟨by simpa using hb.keyed, fun x s hx => ?_, fun c p hc => ?_⟩
    · simp only [failMatching_sessions, Dict.get_erase] at hx
      split_ifs at hx
      simpa using hb.session x s hx
    · simp only [failMatching_pending_get, decide_eq_true_eq] at hc
      obtain ⟨s, hs, hsd⟩ := hb.command c p hc.1
      exact ⟨s, by simp [Dict.get_erase, hc.2, hs], hsd⟩

theorem Owned.dispatch (hb : Owned b) {userId sessionId : Text} {name args mutating : Json}
    {timeout : Option ℚ} {commandId nonce : Text} {now : ℚ} {d : Dispatched}
    (h : b.dispatch cfg userId sessionId name args mutating timeout commandId nonce now = .ok d) :
    Owned d.broker := by
  obtain ⟨s, dev, n, fields, hd⟩ := dispatch_ok h
  rw [hd.broker]
  refine ⟨hb.keyed, hb.session, ?_⟩
  intro c p hc
  simp only [addPending, Dict.get_set] at hc
  split_ifs at hc
  · cases hc
    refine ⟨s, ?_, ?_⟩ <;> rw [hd.pending]
    exact hd.session
  · exact hb.command c p hc

theorem Owned.orRaise (hb : Owned b) {r : Except BrokerError Broker}
    (h : ∀ b', r = .ok b' → Owned b') : Owned (b.orRaise r).1 := by
  rcases r with e | b'
  · exact hb
  · exact h b' rfl

/-- **Every call keeps the owners, unless it opens another device's session.** -/
theorem Owned.step (hb : Owned b) (hserver : ServerCall call) (hown : OwnSession b call)
    (h : step cfg b call = some (b', e)) : Owned b' := by
  cases call with
  | registerDevice => cases hserver
  | join =>
    obtain ⟨rfl, -⟩ := Prod.mk.inj (Option.some.inj h)
    exact hb.join ..
  | heartbeat =>
    obtain ⟨rfl, -⟩ := Prod.mk.inj (Option.some.inj h)
    exact hb.orRaise fun b' h' => hb.heartbeat h'
  | openSession =>
    obtain ⟨rfl, -⟩ := Prod.mk.inj (Option.some.inj h)
    exact hb.orRaise fun b' h' => hb.openSession h' hown
  | closeSession sid sessionId =>
    simp only [Broker.step] at h
    split at h <;> obtain ⟨rfl, -⟩ := Prod.mk.inj (Option.some.inj h)
    · rename_i settled h'
      exact hb.closeSession h'
    · exact hb
  | dispatch =>
    simp only [Broker.step] at h
    split at h
    · cases h
    · split at h <;> obtain ⟨rfl, -⟩ := Prod.mk.inj (Option.some.inj h)
      · rename_i d h'
        exact hb.dispatch h'
      · exact hb
  | acceptResult =>
    simp only [Broker.step] at h
    split at h <;> obtain ⟨rfl, -⟩ := Prod.mk.inj (Option.some.inj h)
    · rename_i h'
      obtain ⟨c, p, rfl, -⟩ := acceptResult_ok h'
      exact hb.removePending c
    · exact hb
  | acceptApprovalResult =>
    simp only [Broker.step] at h
    split at h <;> obtain ⟨rfl, -⟩ := Prod.mk.inj (Option.some.inj h) <;> exact hb
  | cancel =>
    simp only [Broker.step] at h
    split at h <;> obtain ⟨rfl, -⟩ := Prod.mk.inj (Option.some.inj h)
    · rename_i h'
      rw [cancel_ok h']
      exact hb.removePending _
    · exact hb
  | disconnect =>
    obtain ⟨rfl, -⟩ := Prod.mk.inj (Option.some.inj h)
    exact hb.disconnect _
  | timeout | callerCancelled | transportFailed =>
    obtain ⟨rfl, -⟩ := Prod.mk.inj (Option.some.inj h)
    exact hb.removePending _
  | transportReturned c result =>
    obtain ⟨rfl, -⟩ := Prod.mk.inj (Option.some.inj h)
    split
    · split
      · rename_i h'
        obtain ⟨c', p', rfl, -⟩ := acceptResult_ok h'
        exact hb.removePending c'
      · exact hb.removePending c
    · exact hb

/-! ## Isolation -/

/-- From `b` to `b'` the sessions and the commands of the devices other than `A`
    are the same. -/
structure Isolated (A : Text) (b b' : Broker) : Prop where
  sessions : ∀ x s, s.deviceId ≠ A → (b'.sessions.get x = some s ↔ b.sessions.get x = some s)
  pending : ∀ c p, p.deviceId ≠ A → (b'.pending.get c = some p ↔ b.pending.get c = some p)

theorem Isolated.refl (A : Text) (b : Broker) : Isolated A b b :=
  ⟨fun _ _ _ => Iff.rfl, fun _ _ _ => Iff.rfl⟩

theorem Isolated.trans {b₁ b₂ b₃ : Broker} (h : Isolated A b₁ b₂) (h' : Isolated A b₂ b₃) :
    Isolated A b₁ b₃ :=
  ⟨fun x s hs => (h'.sessions x s hs).trans (h.sessions x s hs),
    fun c p hp => (h'.pending c p hp).trans (h.pending c p hp)⟩

theorem Isolated.openSession (hb : Owned b) (hA : b.BoundTo sid A)
    {sessionId tabId tabOrigin actionMode tabPolicy : Json} {now : ℚ}
    (h : b.openSession sid sessionId tabId tabOrigin actionMode tabPolicy now = .ok b')
    (hown : OwnSession b (.openSession sid sessionId tabId tabOrigin actionMode tabPolicy now)) :
    Isolated A b b' := by
  obtain ⟨device, session, record, hd, rfl, hrd, -, -, -, rfl⟩ := openSession_ok h
  obtain ⟨hget, hsid⟩ := hb.deviceForSid hd
  have hdA : device.deviceId = A := hA.eq hget hsid
  refine ⟨?_, fun _ _ _ => Iff.rfl⟩
  intro x s hs
  simp only [Dict.get_set]
  split_ifs with hx
  · subst hx
    refine iff_of_false (?_) ?_
    · intro he
      cases he
      exact hs (hrd.trans hdA)
    · intro he
      exact hs ((hown device hd s he).trans hdA)
  · exact Iff.rfl

theorem Isolated.closeSession (hb : Owned b) (hA : b.BoundTo sid A) {sessionId : Text}
    {settled : List (Text × Outcome)} (h : b.closeSession sid sessionId = .ok (b', settled)) :
    Isolated A b b' := by
  rcases closeSession_ok h with rfl | ⟨session, hget, hsid, rfl⟩
  · exact .refl A _
  · have hsA : session.deviceId = A := hb.session_of_bound hA hget hsid
    constructor
    · intro x s hs
      simp only [failMatching_sessions, Dict.get_erase]
      split_ifs with hx
      · subst hx
        refine iff_of_false (by simp) ?_
        intro he
        rw [hget] at he
        cases he
        exact hs hsA
      · exact Iff.rfl
    · intro c p hp
      rw [failMatching_pending_get, decide_eq_true_eq, and_iff_left_iff_imp]
      rintro hc rfl
      obtain ⟨s, hs, hsd⟩ := hb.command c p hc
      rw [hget] at hs
      cases hs
      exact hp (hsd.symm.trans hsA)

theorem Isolated.acceptResult {envelope : Json} {r : Broker × Text × Outcome}
    (h : b.acceptResult cfg envelope (some A) = .ok r) : Isolated A b r.1 := by
  obtain ⟨c, q, hr, -, hq, hid, hA⟩ := acceptResult_ok h
  have hqA : q.deviceId = A := by
    simp only [identity, Bool.and_eq_true] at hid
    have hdev := hid.1.1.1.1.1.2
    rw [Option.all_some, Json.eqStr_iff] at hA
    rw [Json.eqStr_iff, hA] at hdev
    exact (Json.str.inj hdev).symm
  rw [hr]
  refine ⟨by simp, fun c' p hp => ?_⟩
  rw [removePending_pending, Dict.get_erase]
  split_ifs with hc
  · subst hc
    refine iff_of_false (by simp) ?_
    intro he
    rw [hq] at he
    cases he
    exact hp hqA
  · exact Iff.rfl

theorem Isolated.disconnect (hb : Owned b) (hA : b.BoundTo sid A) :
    Isolated A b (b.disconnect sid).1 := by
  constructor
  · intro x s hs
    rw [disconnect_sessions, and_iff_left_iff_imp]
    exact fun hx hsid => hs (hb.session_of_bound hA hx hsid)
  · intro c p hp
    rw [disconnect_pending, and_iff_left_iff_imp]
    intro _ hmem
    obtain ⟨r, hr, hrs⟩ := mem_devicesOf.1 hmem
    exact hp (hA.eq hr hrs)

theorem Isolated.orRaise {r : Except BrokerError Broker} (h : ∀ b', r = .ok b' → Isolated A b b') :
    Isolated A b (b.orRaise r).1 := by
  rcases r with e | b'
  · exact .refl A b
  · exact h b' rfl

theorem Isolated.step (hb : Owned b) (hcall : CallOf A b call) (hown : OwnSession b call)
    (h : step cfg b call = some (b', e)) : Isolated A b b' := by
  cases call with
  | heartbeat =>
    obtain ⟨rfl, -⟩ := Prod.mk.inj (Option.some.inj h)
    refine .orRaise ?_
    intro b' h'
    obtain ⟨device, -, rfl⟩ := heartbeat_ok h'
    exact ⟨fun _ _ _ => Iff.rfl, fun _ _ _ => Iff.rfl⟩
  | openSession =>
    obtain ⟨rfl, -⟩ := Prod.mk.inj (Option.some.inj h)
    exact .orRaise fun b' h' => .openSession hb hcall h' hown
  | closeSession =>
    simp only [Broker.step] at h
    split at h <;> obtain ⟨rfl, -⟩ := Prod.mk.inj (Option.some.inj h)
    · rename_i h'
      exact .closeSession hb hcall h'
    · exact .refl A b
  | acceptResult =>
    simp only [Broker.step] at h
    obtain rfl := hcall
    split at h <;> obtain ⟨rfl, -⟩ := Prod.mk.inj (Option.some.inj h)
    · rename_i h'
      exact .acceptResult h'
    · exact .refl A b
  | disconnect =>
    obtain ⟨rfl, -⟩ := Prod.mk.inj (Option.some.inj h)
    exact .disconnect hb hcall
  | _ => cases hcall

theorem CallOf.serverCall (h : CallOf A b call) : ServerCall call := by
  cases call <;> trivial

end Broker

/-- **The devices are isolated from each other**, as long as no `open_session`
    names a session of another device.  In every state so reached, no sequence of
    calls through the sockets of device `A` adds, changes or deletes a session of
    another device, or ends a command of another device. -/
theorem sessionIsolation {cfg : BrokerConfig} {tr tr' : List (Call × Effect)} {b b' : Broker}
    (A : Text)
    (h : (brokerMachine cfg).RunIn (fun b call => Broker.ServerCall call ∧ b.OwnSession call)
      .empty tr b)
    (h' : (brokerMachine cfg).RunIn (fun b call => b.CallOf A call ∧ b.OwnSession call) b tr' b') :
    (∀ x s, s.deviceId ≠ A → (b'.sessions.get x = some s ↔ b.sessions.get x = some s)) ∧
    (∀ c p, p.deviceId ≠ A → (b'.pending.get c = some p ↔ b.pending.get c = some p)) := by
  have hb : b.Owned :=
    h.invariant (fun b call b' e hC hb hs => hb.step hC.1 hC.2 hs) Broker.owned_empty
  have hiso : b'.Owned ∧ Broker.Isolated A b b' := by
    refine h'.invariant (I := fun b' => b'.Owned ∧ Broker.Isolated A b b') ?_ ⟨hb, .refl A b⟩
    intro b₁ call b₂ e hC ⟨hb₁, hiso⟩ hs
    exact ⟨hb₁.step hC.1.serverCall hC.2 hs, hiso.trans (.step hb₁ hC.1 hC.2 hs)⟩
  exact ⟨hiso.2.sessions, hiso.2.pending⟩

/-- Device `A` opens and closes a session of its own, and its socket
    disconnects: the session and the click of device `B` stay. -/
theorem sessionIsolation_ownSession :
    ∃ tr b tr' b', (brokerMachine Sample.brokerConfig).RunIn
        (fun b call => Broker.ServerCall call ∧ b.OwnSession call) .empty tr b ∧
      (brokerMachine Sample.brokerConfig).RunIn
        (fun b call => b.CallOf (.lit "A") call ∧ b.OwnSession call) b tr' b' ∧
      tr'.length = 3 ∧ ∃ p, p.deviceId = .lit "B" ∧ b'.pending.get (.lit "c") = some p := by
  obtain ⟨⟨tr, b⟩, hm, ⟨⟨tr', b'⟩, hm', hlen⟩, p, hp, hB⟩ :
      ∃ r ∈ (brokerMachine Sample.brokerConfig).exec
        (fun b call => Broker.ServerCall call ∧ b.OwnSession call) .empty
        [Sample.connect "B" "s2", Sample.startSession "s2" "S", Sample.click "S" "c",
          Sample.connect "A" "s1"],
      (∃ r' ∈ (brokerMachine Sample.brokerConfig).exec
        (fun b call => b.CallOf (.lit "A") call ∧ b.OwnSession call) r.2
        [Sample.startSession "s1" "T", .closeSession (.lit "s1") (.lit "T"), .disconnect (.lit "s1")],
        r'.1.length = 3) ∧
      ∃ p ∈ r.2.pending.get (.lit "c"), p.deviceId = .lit "B" := by
    decide +kernel
  have hr := Machine.runIn_of_exec hm
  have hr' := Machine.runIn_of_exec hm'
  refine ⟨tr, b, tr', b', hr, hr', hlen, p, hB, ?_⟩
  exact ((sessionIsolation (.lit "A") hr hr').2 _ p (by rw [hB]; decide)).2 hp

/-- Device `A` opens a session under the id of the session of device `B`, and
    closes it: the session of `B` is gone, and its click has failed. -/
theorem sessionIsolation_broken :
    ∃ tr b tr' b', (brokerMachine Sample.brokerConfig).RunIn
        (fun _ call => Broker.ServerCall call) .empty tr b ∧
      (brokerMachine Sample.brokerConfig).RunIn (Broker.CallOf (.lit "A")) b tr' b' ∧
      (∃ s ∈ b.sessions.get (.lit "S"), s.deviceId = .lit "B" ∧ b'.sessions.get (.lit "S") = none) ∧
      ∃ p ∈ b.pending.get (.lit "c"), p.deviceId = .lit "B" ∧ b'.pending.get (.lit "c") = none := by
  obtain ⟨⟨tr, b⟩, hm, ⟨tr', b'⟩, hm', hs⟩ :
      ∃ r ∈ (brokerMachine Sample.brokerConfig).exec (fun _ call => Broker.ServerCall call) .empty
        [Sample.connect "B" "s2", Sample.startSession "s2" "S", Sample.click "S" "c",
          Sample.connect "A" "s1"],
      ∃ r' ∈ (brokerMachine Sample.brokerConfig).exec (Broker.CallOf (.lit "A")) r.2
        [Sample.startSession "s1" "S", .closeSession (.lit "s1") (.lit "S")],
      (∃ s ∈ r.2.sessions.get (.lit "S"),
        s.deviceId = .lit "B" ∧ r'.2.sessions.get (.lit "S") = none) ∧
      ∃ p ∈ r.2.pending.get (.lit "c"),
        p.deviceId = .lit "B" ∧ r'.2.pending.get (.lit "c") = none := by
    decide +kernel
  exact ⟨tr, b, tr', b', Machine.runIn_of_exec hm, Machine.runIn_of_exec hm', hs⟩

end TideBot
