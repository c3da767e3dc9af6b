/-
  The busy locks of the broker are a table of readers-writer locks.

  `_pending`, `_mutating_devices` and `_reading_devices` together are a
  `Locks` table, with the pending commands as the holders and the devices as the
  keys (`Broker.locks`).  `lockStep_of_step`: whatever a call does, to the table
  it is a number of drops, or one `take` of a free lock below the bound.  From
  this `Accounted`, the invariant, follows for every run.
-/
import TideBot.Broker.State

namespace TideBot

open Lib

namespace Broker

variable {cfg : BrokerConfig} {b b' : Broker} {call : Call} {e : Effect}

/-- The locks of a broker. -/
def locks (b : Broker) : Locks Text Text PendingCommand :=
  ⟨b.pending, b.mutatingDevices, b.readingDevices⟩

/-! ## What the methods do -/

@[simp] theorem removePending_devices (b : Broker) (c : Text) :
    (b.removePending c).devices = b.devices := by
  unfold removePending; split <;> rfl

@[simp] theorem removePending_sessions (b : Broker) (c : Text) :
    (b.removePending c).sessions = b.sessions := by
  unfold removePending; split <;> rfl

theorem removePending_locks (b : Broker) (c : Text) : (b.removePending c).locks =
    b.locks.drop PendingCommand.deviceId PendingCommand.mutating c := by
  unfold removePending Locks.drop
  split
  · rename_i h; simp only [locks, h]
  · rename_i p h; simp only [locks, h]; rfl

theorem removePending_pending (b : Broker) (c : Text) :
    (b.removePending c).pending = b.pending.erase c := by
  have h := congrArg Locks.held (removePending_locks b c)
  rwa [Locks.held_drop] at h

theorem failMatching_induction {P : Broker → Prop} (b : Broker) (pred : PendingCommand → Bool)
    (h₀ : P b) (h : ∀ b c, P b → P (b.removePending c)) : P (b.failMatching pred) := by
  unfold failMatching
  generalize b.pending.entries.filter (fun e => pred e.2) = es
  induction es generalizing b with
  | nil => exact h₀
  | cons e es ih => exact ih (b.removePending e.1) (h b e.1 h₀)

@[simp] theorem failMatching_devices (b : Broker) (pred : PendingCommand → Bool) :
    (b.failMatching pred).devices = b.devices :=
  failMatching_induction (P := fun b' => b'.devices = b.devices) b pred rfl
    fun b' c h => (removePending_devices b' c).trans h

@[simp] theorem failMatching_sessions (b : Broker) (pred : PendingCommand → Bool) :
    (b.failMatching pred).sessions = b.sessions :=
  failMatching_induction (P := fun b' => b'.sessions = b.sessions) b pred rfl
    fun b' c h => (removePending_sessions b' c).trans h

theorem failMatching_pending_get (b : Broker) (pred : PendingCommand → Bool) (c : Text)
    (p : PendingCommand) :
    (b.failMatching pred).pending.get c = some p ↔ b.pending.get c = some p ∧ ¬ pred p := by
  unfold failMatching
  have key : ∀ (es : List (Text × PendingCommand)) (b : Broker),
      (es.foldl (fun b e => b.removePending e.1) b).pending.get c = some p ↔
        b.pending.get c = some p ∧ c ∉ es.map Prod.fst := by
    intro es
    induction es with
    | nil => simp
    | cons e es ih =>
      intro b
      rw [List.foldl_cons, ih, removePending_pending, Dict.get_erase]
      by_cases hc : c = e.1
      · simp [hc]
      · simp [hc]
  rw [key]
  refine and_congr_right fun hc => not_congr ?_
  simp only [List.mem_map, List.mem_filter, Prod.exists, exists_and_right, exists_eq_right,
    Dict.mem_entries_iff]
  constructor
  · rintro ⟨q, hq, hp⟩
    rw [hc] at hq
    cases hq
    exact hp
  · exact fun hp => ⟨p, hc, hp⟩

theorem registerDevice_ok {userId deviceId sid family origin : Text} {now : ℚ}
    (h : b.registerDevice userId deviceId sid family origin now = .ok b') :
    b' = { b with devices := b.devices.set deviceId ⟨userId, deviceId, sid, family, origin, now⟩ } := by
  unfold registerDevice at h
  split_ifs at h
  exact (Except.ok.inj h).symm

/-- `join` disconnects the old socket of the device, if it has another one, and
    then registers the device, or raises. -/
theorem join_result (b : Broker) (userId deviceId sid family origin : Text) (now : ℚ) :
    ∃ b₁, ((∃ r, b.devices.get deviceId = some r ∧ r.sid ≠ sid ∧ b₁ = (b.disconnect r.sid).1) ∨
        b₁ = b ∧ ∀ r, b.devices.get deviceId = some r → r.sid = sid) ∧
      (((b.join userId deviceId sid family origin now).2.1 = none ∧
          b₁.registerDevice userId deviceId sid family origin now =
            .ok (b.join userId deviceId sid family origin now).1) ∨
        ∃ e, (b.join userId deviceId sid family origin now).2.1 = some e ∧
          (b.join userId deviceId sid family origin now).1 = b₁ ∧
          b₁.registerDevice userId deviceId sid family origin now = .error e) := by
  -- the broker that `join` registers with
  obtain ⟨r, hok, herror, hcases⟩ : ∃ r : Broker × List (Text × Outcome),
      (∀ b', r.1.registerDevice userId deviceId sid family origin now = .ok b' →
        b.join userId deviceId sid family origin now = (b', none, r.2)) ∧
      (∀ e, r.1.registerDevice userId deviceId sid family origin now = .error e →
        b.join userId deviceId sid family origin now = (r.1, some e, r.2)) ∧
      ((∃ existing, b.devices.get deviceId = some existing ∧ existing.sid ≠ sid ∧
          r.1 = (b.disconnect existing.sid).1) ∨
        r.1 = b ∧ ∀ existing, b.devices.get deviceId = some existing → existing.sid = sid) := by
    cases hd : b.devices.get deviceId with
    | none =>
      refine ⟨(b, []), fun b' h => ?_, fun e h => ?_, .inr ⟨rfl, by simp⟩⟩
      · simp only [join, hd, h]
      · simp only [join, hd, h]
    | some existing =>
      by_cases hs : existing.sid = sid
      · refine ⟨(b, []), fun b' h => ?_, fun e h => ?_, .inr ⟨rfl, fun r hr => by cases hr; exact hs⟩⟩
        · simp only [join, hd, hs, ne_eq, not_true_eq_false, if_false, h]
        · simp only [join, hd, hs, ne_eq, not_true_eq_false, if_false, h]
      · refine ⟨b.disconnect existing.sid, fun b' h => ?_, fun e h => ?_, .inl ⟨existing, rfl, hs, rfl⟩⟩
        · simp only [join, hd, ne_eq, hs, not_false_eq_true, if_true, h]
        · simp only [join, hd, ne_eq, hs, not_false_eq_true, if_true, h]
  refine ⟨r.1, hcases, ?_⟩
  cases hreg : r.1.registerDevice userId deviceId sid family origin now with
  | ok b' =>
    rw [hok b' hreg]
    exact .inl ⟨rfl, rfl⟩
  | error e =>
    rw [herror e hreg]
    exact .inr ⟨e, rfl, rfl, rfl⟩

theorem join_cases (b : Broker) (userId deviceId sid family origin : Text) (now : ℚ) :
    ∃ b₁, ((b.join userId deviceId sid family origin now).1 = b₁ ∨
        b₁.registerDevice userId deviceId sid family origin now =
          .ok (b.join userId deviceId sid family origin now).1) ∧
      ((∃ r, b.devices.get deviceId = some r ∧ r.sid ≠ sid ∧ b₁ = (b.disconnect r.sid).1) ∨
        b₁ = b ∧ ∀ r, b.devices.get deviceId = some r → r.sid = sid) := by
  obtain ⟨b₁, hb₁, hres⟩ := join_result b userId deviceId sid family origin now
  rcases hres with ⟨-, h⟩ | ⟨e, -, h, -⟩
  · exact ⟨b₁, .inr h, hb₁⟩
  · exact ⟨b₁, .inl h, hb₁⟩

theorem heartbeat_ok {sid : Text} {now : ℚ} (h : b.heartbeat sid now = .ok b') :
    ∃ device, b.deviceForSid sid = some device ∧
      b' = { b with devices := b.devices.set device.deviceId { device with lastSeenAt := now } } := by
  unfold heartbeat at h
  split at h
  · cases h
  · rename_i device hd
    exact ⟨device, hd, (Except.ok.inj h).symm⟩

theorem openSession_ok {sid : Text} {sessionId tabId tabOrigin actionMode tabPolicy : Json} {now : ℚ}
    (h : b.openSession sid sessionId tabId tabOrigin actionMode tabPolicy now = .ok b') :
    ∃ device session record, b.deviceForSid sid = some device ∧ sessionId = .str session ∧
      record.deviceId = device.deviceId ∧ record.sid = sid ∧ record.userId = device.userId ∧
      b.otherTab device.deviceId session record.tabId = false ∧
      b' = { b with sessions := b.sessions.set session record } := by
  simp only [openSession, bind, Except.bind] at h
  split at h
  · rename_i device hd
    split at h
    · rename_i session hs
      split at h
      · split at h
        · split at h
          · cases h
          · split at h
            · split at h
              · cases h
              · split at h
                · split_ifs at h with h₁ h₂
                  refine ⟨device, session, _, hd, ?_, rfl, rfl, rfl, by simpa using h₁,
                    (Except.ok.inj h).symm⟩
                  unfold nonemptyStr at hs
                  split at hs
                  · split_ifs at hs; cases hs; rfl
                  · cases hs
                · cases h
            · cases h
        · cases h
      · cases h
    · cases h
  · cases h

theorem closeSession_ok {sid sessionId : Text} {settled : List (Text × Outcome)}
    (h : b.closeSession sid sessionId = .ok (b', settled)) :
    b' = b ∨ ∃ session, b.sessions.get sessionId = some session ∧ session.sid = sid ∧
      b' = { b with sessions := b.sessions.erase sessionId }.failMatching
        fun p => p.sessionId = sessionId := by
  unfold closeSession at h
  split at h
  · exact Or.inl (Prod.mk.inj (Except.ok.inj h)).1.symm
  · rename_i session hs
    split_ifs at h with hsid
    exact Or.inr ⟨session, hs, not_not.1 hsid, (Prod.mk.inj (Except.ok.inj h)).1.symm⟩

/-- What `dispatch` has checked, and does: `s` and `dev` are the records it
    found. -/
structure DispatchOk (cfg : BrokerConfig) (b : Broker) (userId sessionId : Text)
    (name args mutating : Json) (timeout : Option ℚ) (commandId nonce : Text) (now : ℚ)
    (s : SessionRecord) (dev : DeviceRecord) (n : Text) (fields : List (Text × Json))
    (d : Dispatched) : Prop where
  session : b.sessions.get sessionId = some s
  sessionUser : s.userId = userId
  device : b.devices.get s.deviceId = some dev
  deviceUser : dev.userId = userId
  deviceSid : dev.sid = s.sid
  nameEq : name = .str n ∧ n ≠ []
  argsEq : args = .obj fields
  mutatingEq : mutating = .bool d.pending.mutating
  bound : b.pending.size < cfg.maxPendingCommands
  free : b.locks.free s.deviceId d.pending.mutating
  timeoutEq : d.commandTimeout = timeout.getD cfg.defaultTimeoutSeconds
  timeoutBounds : 0 < d.commandTimeout ∧ d.commandTimeout ≤ cfg.defaultTimeoutSeconds
  pending : d.pending = ⟨commandId, userId, s.deviceId, sessionId, dev.sid, nonce,
    (b.sequences.get s.deviceId).getD 0 + 1, d.pending.mutating⟩
  broker : d.broker = b.addPending d.pending
  request : d.request = requestEnvelope d.pending n fields now d.commandTimeout

theorem nonemptyStr_eq {j : Json} {s : Text} (h : nonemptyStr j = some s) : j = .str s ∧ s ≠ [] := by
  unfold nonemptyStr at h
  split at h
  · split_ifs at h with hs
    cases h
    exact ⟨rfl, hs⟩
  · cases h

theorem dispatch_ok {userId sessionId : Text} {name args mutating : Json} {timeout : Option ℚ}
    {commandId nonce : Text} {now : ℚ} {d : Dispatched}
    (h : b.dispatch cfg userId sessionId name args mutating timeout commandId nonce now = .ok d) :
    ∃ session device n fields, DispatchOk cfg b userId sessionId name args mutating timeout
      commandId nonce now session device n fields d := by
  simp only [dispatch] at h
  split at h
  · rename_i session hs
    split at h
    · rename_i device hd
      split at h
      · rename_i n fields m hargs
        split_ifs at h with h₁ h₂ h₃
        cases h
        simp only [Prod.mk.injEq] at hargs
        obtain ⟨hn, rfl, rfl⟩ := hargs
        rw [Option.filter_eq_some_iff, decide_eq_true_eq] at hs hd
        have hfree : b.locks.free session.deviceId m := by
          exact decide_eq_true h₂
        push Not at h₃
        exact ⟨session, device, n, fields, hs.1, hs.2, hd.1, hd.2.1, hd.2.2, nonemptyStr_eq hn, rfl,
          rfl, by omega, hfree, rfl, h₃, rfl, rfl, rfl⟩
      · cases h
    · cases h
  · cases h

theorem acceptResult_ok {envelope : Json} {expected : Option Text} {r : Broker × Text × Outcome}
    (h : b.acceptResult cfg envelope expected = .ok r) :
    ∃ commandId p, r.1 = b.removePending commandId ∧ r.2.1 = commandId ∧
      b.pending.get commandId = some p ∧ identity p "command.result" envelope ∧
      expected.all fun d => (envelope.get (.lit "deviceId")).eqStr d := by
  simp only [acceptResult] at h
  split at h
  · cases h
  · split at h
    · rename_i commandId _
      split at h
      · rename_i p hp
        split_ifs at h with hid
        simp only [Bool.not_eq_true, Bool.not_eq_false', Bool.and_eq_true] at hid
        split at h <;> cases h <;> exact ⟨commandId, p, rfl, rfl, hp, hid.1, hid.2⟩
      · cases h
    · cases h

theorem cancel_ok {userId commandId : Text} (h : b.cancel userId commandId = .ok b') :
    b' = b.removePending commandId := by
  unfold cancel at h
  split at h
  · cases h
  · split_ifs at h
    exact (Except.ok.inj h).symm

/-! ## The locks of one step -/

/-- What a call does to the locks, and the request it sends. -/
inductive LockStep (cfg : BrokerConfig) (b : Broker) :
    Call → Option Json → Locks Text Text PendingCommand → Prop
  /-- some commands end -/
  | drops {c : Call} (ids : List Text) : LockStep cfg b c none
      (ids.foldl (Locks.drop PendingCommand.deviceId PendingCommand.mutating) b.locks)
  /-- a command starts -/
  | take {userId sessionId name args mutating timeout commandId nonce now s dev n fields d} :
      b.pending.get commandId = none →
      DispatchOk cfg b userId sessionId name args mutating timeout commandId nonce now s dev n
        fields d →
      LockStep cfg b (.dispatch userId sessionId name args mutating timeout commandId nonce now)
        (some d.request)
        (b.locks.take PendingCommand.deviceId PendingCommand.mutating commandId d.pending)

theorem LockStep.same (h : b'.locks = b.locks) : LockStep cfg b call none b'.locks :=
  h ▸ .drops []

theorem LockStep.drop (b : Broker) (c : Text) :
    LockStep cfg b call none (b.removePending c).locks := by
  rw [removePending_locks]
  exact .drops [c]

theorem LockStep.failMatching (b' : Broker) (pred : PendingCommand → Bool)
    (hb : b'.locks = b.locks) : LockStep cfg b call none (b'.failMatching pred).locks := by
  have h : (b'.failMatching pred).locks =
      ((b'.pending.entries.filter fun e => pred e.2).map Prod.fst).foldl
        (Locks.drop PendingCommand.deviceId PendingCommand.mutating) b.locks := by
    rw [← hb]
    unfold Broker.failMatching
    generalize b'.pending.entries.filter (fun e => pred e.2) = es
    clear hb
    induction es generalizing b' with
    | nil => rfl
    | cons e es ih => rw [List.map_cons, List.foldl_cons, List.foldl_cons, ih, removePending_locks]
  rw [h]
  exact .drops _

theorem LockStep.disconnect (b : Broker) (sid : Text) :
    LockStep cfg b call none (b.disconnect sid).1.locks :=
  .failMatching _ _ rfl

theorem orRaise_sent (b : Broker) (r : Except BrokerError Broker) : (b.orRaise r).2.sent = none := by
  cases r <;> rfl

theorem LockStep.orRaise {r : Except BrokerError Broker}
    (h : ∀ b', r = .ok b' → b'.locks = b.locks) :
    LockStep cfg b call (b.orRaise r).2.sent (b.orRaise r).1.locks := by
  rw [orRaise_sent]
  rcases r with e | b'
  · exact .same rfl
  · exact .same (h b' rfl)

theorem join_locks (b : Broker) (userId deviceId sid family origin : Text) (now : ℚ) :
    LockStep cfg b call none (b.join userId deviceId sid family origin now).1.locks := by
  obtain ⟨b₁, hjoin, hb₁⟩ := join_cases b userId deviceId sid family origin now
  have hlocks : (b.join userId deviceId sid family origin now).1.locks = b₁.locks := by
    rcases hjoin with h | h
    · rw [h]
    · rw [registerDevice_ok h]; rfl
  rw [hlocks]
  rcases hb₁ with ⟨r, -, -, rfl⟩ | ⟨rfl, -⟩
  · exact .disconnect b _
  · exact .same rfl

/-- **To the locks, a call is a number of drops or one take.** -/
theorem lockStep_of_step (h : step cfg b call = some (b', e)) :
    LockStep cfg b call e.sent b'.locks := by
  cases call with
  | registerDevice =>
    obtain ⟨rfl, rfl⟩ := Prod.mk.inj (Option.some.inj h)
    exact .orRaise fun b' h' => by rw [registerDevice_ok h']; rfl
  | join =>
    obtain ⟨rfl, rfl⟩ := Prod.mk.inj (Option.some.inj h)
    exact join_locks ..
  | heartbeat =>
    obtain ⟨rfl, rfl⟩ := Prod.mk.inj (Option.some.inj h)
    refine .orRaise ?_
    intro b' h'
    obtain ⟨device, -, rfl⟩ := heartbeat_ok h'
    rfl
  | openSession =>
    obtain ⟨rfl, rfl⟩ := Prod.mk.inj (Option.some.inj h)
    refine .orRaise ?_
    intro b' h'
    obtain ⟨device, session, record, -, -, -, -, -, -, rfl⟩ := openSession_ok h'
    rfl
  | closeSession sid sessionId =>
    simp only [step] at h
    split at h <;> obtain ⟨rfl, rfl⟩ := Prod.mk.inj (Option.some.inj h)
    · rename_i settled h'
      rcases closeSession_ok h' with rfl | ⟨session, -, -, rfl⟩
      · exact .same rfl
      · exact .failMatching _ _ rfl
    · exact .same rfl
  | dispatch =>
    simp only [step] at h
    split at h
    · cases h
    · rename_i hnew
      split at h <;> obtain ⟨rfl, rfl⟩ := Prod.mk.inj (Option.some.inj h)
      · rename_i d h'
        obtain ⟨s, dev, n, fields, hd⟩ := dispatch_ok h'
        have htake := LockStep.take hnew hd
        rw [hd.broker]
        rw [hd.pending] at htake ⊢
        exact htake
      · exact .same rfl
  | acceptResult =>
    simp only [step] at h
    split at h <;> obtain ⟨rfl, rfl⟩ := Prod.mk.inj (Option.some.inj h)
    · rename_i h'
      obtain ⟨c, p, rfl, -⟩ := acceptResult_ok h'
      exact .drop b c
    · exact .same rfl
  | acceptApprovalResult =>
    simp only [step] at h
    split at h <;> obtain ⟨rfl, rfl⟩ := Prod.mk.inj (Option.some.inj h) <;> exact .same rfl
  | cancel =>
    simp only [step] at h
    split at h <;> obtain ⟨rfl, rfl⟩ := Prod.mk.inj (Option.some.inj h)
    · rename_i h'
      rw [cancel_ok h']
      exact .drop b _
    · exact .same rfl
  | disconnect =>
    obtain ⟨rfl, rfl⟩ := Prod.mk.inj (Option.some.inj h)
    exact .disconnect b _
  | timeout | callerCancelled | transportFailed =>
    obtain ⟨rfl, rfl⟩ := Prod.mk.inj (Option.some.inj h)
    exact .drop b _
  | transportReturned c result =>
    obtain ⟨rfl, rfl⟩ := Prod.mk.inj (Option.some.inj h)
    split
    · split
      · rename_i h'
        obtain ⟨c', p', rfl, -⟩ := acceptResult_ok h'
        exact .drop b c'
      · exact .drop b c
    · exact .same rfl

/-! ## The invariant -/

/-- The locks agree with the pending commands, which are within the bound. -/
structure Accounted (cfg : BrokerConfig) (b : Broker) : Prop where
  locks : b.locks.Consistent PendingCommand.deviceId PendingCommand.mutating
  bound : b.pending.size ≤ cfg.maxPendingCommands

theorem Accounted.step (hb : Accounted cfg b) (h : step cfg b call = some (b', e)) :
    Accounted cfg b' := by
  have hL := lockStep_of_step h
  generalize hL' : b'.locks = L at hL
  generalize e.sent = sent at hL
  suffices hs : L.Consistent PendingCommand.deviceId PendingCommand.mutating ∧
      L.held.size ≤ cfg.maxPendingCommands by
    rw [← hL'] at hs
    exact ⟨hs.1, hs.2⟩
  cases hL with
  | drops ids =>
    refine Locks.foldl_drop_induction (P := fun L => L.Consistent PendingCommand.deviceId
      PendingCommand.mutating ∧ L.held.size ≤ cfg.maxPendingCommands) ⟨hb.locks, hb.bound⟩ ?_ ids
    rintro L c ⟨hL, hsize⟩
    refine ⟨hL.drop c, ?_⟩
    rw [Locks.held_drop]
    exact (Dict.size_erase_le _ _).trans hsize
  | take hnew hd =>
    refine ⟨hb.locks.take hnew ?_, ?_⟩
    · rw [hd.pending]; exact hd.free
    · have hbound := hd.bound
      change (b.pending.set _ _).size ≤ _
      rw [Dict.size_set_new hnew]
      omega

/-- The pending reads of a device. -/
def readsOf (b : Broker) (d : Text) : ℕ :=
  b.pending.entries.countP fun e => !e.2.mutating && e.2.deviceId = d

end Broker

/-- **Lock accounting.**  In every state that any sequence of calls reaches
    from a broker without pending commands: `_mutating_devices` is the set of the
    devices of pending mutating commands, `_reading_devices` has the number of
    pending reads of each device that has any, no device has two pending
    mutations, or a pending mutation and a pending read, and the number of
    pending commands is within its bound. -/
theorem lockAccounting (cfg : BrokerConfig) {devices : Dict Text DeviceRecord}
    {sessions : Dict Text SessionRecord} {sequences : Dict Text ℕ} {tr : List (Call × Effect)}
    {b : Broker} (h : (brokerMachine cfg).Run
      ⟨devices, sessions, .empty, ∅, .empty, sequences⟩ tr b) :
    (∀ d, d ∈ b.mutatingDevices ↔
      ∃ c p, b.pending.get c = some p ∧ p.mutating ∧ p.deviceId = d) ∧
    (∀ d, b.readingDevices.get d = if b.readsOf d = 0 then none else some (b.readsOf d)) ∧
    (∀ c c' p p', b.pending.get c = some p → b.pending.get c' = some p' → p.mutating →
      p'.mutating → p.deviceId = p'.deviceId → c = c') ∧
    (∀ c c' p p', b.pending.get c = some p → b.pending.get c' = some p' → p.mutating →
      p'.mutating = false → p.deviceId ≠ p'.deviceId) ∧
    b.pending.size ≤ cfg.maxPendingCommands := by
  have hb : Broker.Accounted cfg b := by
    refine h.invariant (fun b call b' e _ hb hs => hb.step hs) ⟨Locks.consistent_empty, ?_⟩
    exact Nat.zero_le _
  refine ⟨?_, hb.locks.readers, ?_, ?_, hb.bound⟩
  · intro d
    exact (hb.locks.writers d).trans Locks.writersOf_pos
  · exact fun c c' p p' hc hc' hm hm' hd => hb.locks.eq_of_excl hc hc' hm hm' hd
  · exact fun c c' p p' hc hc' hm hm' => hb.locks.not_shared hc hc' hm hm'

/-- While a click is pending, its device is locked, and only that command is
    a mutation on it. -/
theorem lockAccounting_click :
    ∃ tr b, (brokerMachine Sample.brokerConfig).Run .empty tr b ∧
      (b.pending.get (.lit "c")).isSome ∧ .lit "A" ∈ b.mutatingDevices ∧
      ∀ c p, b.pending.get c = some p → p.mutating → p.deviceId = .lit "A" → c = .lit "c" := by
  obtain ⟨⟨tr, b⟩, hm, hp⟩ : ∃ r ∈ (brokerMachine Sample.brokerConfig).exec (fun _ _ => True) .empty
      [Sample.connect "A" "s", Sample.startSession "s" "S", Sample.click "S" "c"],
      r.2.pending.get (.lit "c") = some ⟨.lit "c", .lit "u", .lit "A", .lit "S", .lit "s",
        .lit "n", 1, true⟩ := by
    decide +kernel
  have hr : (brokerMachine Sample.brokerConfig).Run .empty tr b := Machine.runIn_of_exec hm
  have hacc := lockAccounting Sample.brokerConfig hr
  refine ⟨tr, b, hr, by rw [hp]; rfl, (hacc.1 _).2 ⟨_, _, hp, rfl, rfl⟩, fun c p hc hmut hd => ?_⟩
  exact hacc.2.2.1 c _ p _ hc hp hmut rfl hd

end TideBot
