/-
  Several workers, one extension.

  Every worker process has a broker of its own.  The registries of devices and
  sessions are shared between them (through Redis), the pending commands, the busy
  locks and the sequence counters are not.  A `Fleet` is such a set of workers with
  the transport of one device, and the requests on their way to it, which arrive in
  the order in which they were sent.

  Two workers that serve the same session both count from one and both find the
  device idle: the extension refuses the second command as out of order, while both
  mutations are pending (`workers_collide`).  If every dispatch is made by a worker
  whose counter is not behind, and every mutation while no other worker has one
  pending (`Coordinated`), neither happens: `workers_inOrder`.
-/
import TideBot.Extension.Replay

namespace TideBot

open Lib

/-- `n` workers and the transport of one device. -/
structure Fleet (n : ℕ) where
  devices : Dict Text DeviceRecord
  sessions : Dict Text SessionRecord
  workers : Fin n → Broker
  /-- the requests sent to the device and not yet delivered, oldest first -/
  channel : List Json
  transport : Transport

/-- What happens: a call in a worker, the delivery of the oldest request, or a
    change of the connection. -/
inductive FleetAct (n : ℕ) where
  | call (k : Fin n) (c : Call)
  | deliver (deviceId : Option Text) (clock : Readings)
  | connection (i : Inbound)

namespace Fleet

variable {n : ℕ}

/-- The broker of worker `k`, on the shared registries. -/
def broker (w : Fleet n) (k : Fin n) : Broker :=
  { w.workers k with devices := w.devices, sessions := w.sessions }

/-- The request, if it is for the device. -/
def sentTo (device : Text) (sent : Option Json) : List Json :=
  (sent.filter fun v => (CommandRequest.read v).deviceId = device).toList

/-- One step, with what became of a delivered request. -/
def step (cfg : BrokerConfig) (numberText : ℚ → Text) (device : Text) (w : Fleet n) :
    FleetAct n → Option (Fleet n × Option Handled)
  | .call k c =>
    match Broker.step cfg (w.broker k) c with
    | none => none
    | some (b, e) =>
      some ({ w with
        devices := b.devices
        sessions := b.sessions
        workers := Function.update w.workers k b
        channel := w.channel ++ sentTo device e.sent }, none)
  | .deliver deviceId clock =>
    match w.channel with
    | [] => none
    | v :: rest =>
      let (t, handled) := w.transport.handleInboundCommand numberText true v deviceId clock
      some ({ w with channel := rest, transport := t }, some handled)
  | .connection (.command ..) => none
  | .connection i =>
    (Transport.step numberText true w.transport i).map fun r => ({ w with transport := r.1 }, r.2)

/-- The next sequence number of worker `k` for the device is above those of the
    session that were delivered since the last join or are on their way. -/
def InOrder (w : Fleet n) (k : Fin n) (sessionId deviceId : Text) : Prop :=
  (w.transport.lastSequenceBySession.get sessionId).getD 0 <
      ((((w.workers k).sequences.get deviceId).getD 0 + 1 : ℕ) : ℚ) ∧
    ∀ v ∈ w.channel, (CommandRequest.read v).sessionId = sessionId →
      (CommandRequest.read v).sequence <
        ((((w.workers k).sequences.get deviceId).getD 0 + 1 : ℕ) : ℚ)

/-- No other worker has a mutation pending on the device. -/
def Alone (w : Fleet n) (k : Fin n) (deviceId : Text) : Prop :=
  ∀ j, j ≠ k → ∀ f ∈ (w.workers j).pending.entries, f.2.mutating → f.2.deviceId ≠ deviceId

/-- A dispatch is in order, and a mutation alone. -/
def Coordinated (w : Fleet n) : FleetAct n → Prop
  | .call k (.dispatch _ sessionId _ _ mutating _ _ _ _) =>
    ∀ s ∈ w.sessions.get sessionId, w.InOrder k sessionId s.deviceId ∧
      match mutating with
      | .bool true => w.Alone k s.deviceId
      | _ => True
  | _ => True

instance (w : Fleet n) (k : Fin n) (sessionId deviceId : Text) :
    Decidable (w.InOrder k sessionId deviceId) := by unfold InOrder; infer_instance

instance (w : Fleet n) (k : Fin n) (deviceId : Text) : Decidable (w.Alone k deviceId) := by
  unfold Alone; infer_instance

instance (w : Fleet n) : DecidablePred w.Coordinated := fun a => by
  unfold Coordinated
  split
  · exact @Option.decidableForallMem _ _ (fun s => @instDecidableAnd _ _ _ (by split <;> infer_instance)) _
  · infer_instance

/-- The workers do not conflict, and the requests on their way are in order. -/
structure Sound (cfg : BrokerConfig) (w : Fleet n) : Prop where
  accounted : ∀ k, (w.workers k).Accounted cfg
  alone : ∀ j k c c' p q, (w.workers j).pending.get c = some p →
    (w.workers k).pending.get c' = some q → p.mutating → q.mutating → p.deviceId = q.deviceId → j = k
  ordered : w.channel.Pairwise fun v v' =>
    (CommandRequest.read v).sessionId = (CommandRequest.read v').sessionId →
      (CommandRequest.read v).sequence < (CommandRequest.read v').sequence
  ahead : ∀ v ∈ w.channel,
    (w.transport.lastSequenceBySession.get (CommandRequest.read v).sessionId).getD 0 <
      (CommandRequest.read v).sequence
  positive : ∀ v ∈ w.channel, 0 < (CommandRequest.read v).sequence

section
variable {cfg : BrokerConfig} {numberText : ℚ → Text} {device : Text} {w w' : Fleet n}

/-! ## Delivery -/

theorem outOfOrder_of_handle {t t' : Transport} {executor : Bool} {value : Json}
    {deviceId : Option Text} {clock : Readings} {result : Json}
    (h : t.handleInboundCommand numberText executor value deviceId clock =
      (t', .answered (.lit "out_of_order") result)) :
    (CommandRequest.read value).sequence ≤
      (t.lastSequenceBySession.get (CommandRequest.read value).sessionId).getD 0 := by
  unfold Transport.handleInboundCommand at h
  split_ifs at h
  any_goals simp [Transport.invalidResult, Transport.refuse] at h
  unfold Transport.handleIdentified at h
  split_ifs at h with h₁ h₂ h₃
  · simp [Transport.refuse] at h
  · exact h₂
  · simp [Transport.refuse] at h
  · simp at h

/-- A delivery changes the last sequence numbers at most to that of the request. -/
theorem last_of_handle {t t' : Transport} {value : Json} {deviceId : Option Text}
    {clock : Readings} {r : Handled}
    (h : t.handleInboundCommand numberText true value deviceId clock = (t', r)) :
    t'.lastSequenceBySession = t.lastSequenceBySession ∨
      t'.lastSequenceBySession = t.lastSequenceBySession.set
        (CommandRequest.read value).sessionId (CommandRequest.read value).sequence := by
  rcases handleInboundCommand_cases h with ⟨rfl, -⟩ | ⟨-, -, rfl⟩ | ⟨-, -, -, -, rfl⟩
  · exact Or.inl rfl
  · exact Or.inl rfl
  · exact Or.inr rfl

theorem Sound.deliver (hw : Sound cfg w) {v : Json} {rest : List Json} {t : Transport}
    {deviceId : Option Text} {clock : Readings} {r : Handled} (hch : w.channel = v :: rest)
    (h : w.transport.handleInboundCommand numberText true v deviceId clock = (t, r)) :
    Sound cfg { w with channel := rest, transport := t } := by
  have hord := hw.ordered
  have hahead := hw.ahead
  rw [hch] at hord hahead
  rw [List.pairwise_cons] at hord
  refine ⟨hw.accounted, hw.alone, hord.2, ?_,
    fun v' hv' => hw.positive v' (hch ▸ List.mem_cons_of_mem _ hv')⟩
  intro v' hv'
  have hv'' := hahead v' (List.mem_cons_of_mem _ hv')
  rcases last_of_handle h with hl | hl
  · simpa only [hl] using hv''
  · simp only [hl, Dict.get_set]
    split_ifs with hs
    · exact hord.1 v' hv' hs.symm
    · exact hv''

theorem Sound.connection (hw : Sound cfg w) {t : Transport}
    (h : t.lastSequenceBySession = w.transport.lastSequenceBySession ∨
      t.lastSequenceBySession = .empty) : Sound cfg { w with transport := t } := by
  refine ⟨hw.accounted, hw.alone, hw.ordered, ?_, hw.positive⟩
  intro v hv
  rcases h with h | h
  · simpa only [h] using hw.ahead v hv
  · simpa only [h, Dict.get_empty, Option.getD_none] using hw.positive v hv

/-! ## Calls -/

/-- The mutations of the workers do not conflict if those of worker `k` do not
    conflict with those of the others. -/
theorem alone_update {b : Broker} {k : Fin n} (hw : Sound cfg w)
    (h : ∀ j, j ≠ k → ∀ c c' p q, (w.workers j).pending.get c = some p →
      b.pending.get c' = some q → p.mutating → q.mutating → p.deviceId ≠ q.deviceId) :
    ∀ i j c c' p q, (Function.update w.workers k b i).pending.get c = some p →
      (Function.update w.workers k b j).pending.get c' = some q → p.mutating → q.mutating →
      p.deviceId = q.deviceId → i = j := by
  intro i j c c' p q hp hq hpm hqm hd
  by_cases hi : i = k <;> by_cases hj : j = k
  · rw [hi, hj]
  · subst hi
    rw [Function.update_self] at hp
    rw [Function.update_of_ne hj] at hq
    exact absurd hd.symm (h j hj c' c q p hq hp hqm hpm)
  · subst hj
    rw [Function.update_self] at hq
    rw [Function.update_of_ne hi] at hp
    exact absurd hd (h i hi c c' p q hp hq hpm hqm)
  · rw [Function.update_of_ne hi] at hp
    rw [Function.update_of_ne hj] at hq
    exact hw.alone i j c c' p q hp hq hpm hqm hd

theorem accounted_update (hw : Sound cfg w) {k : Fin n} {c : Call} {b : Broker} {e : Effect}
    (h : Broker.step cfg (w.broker k) c = some (b, e)) (j : Fin n) :
    (Function.update w.workers k b j).Accounted cfg := by
  by_cases hj : j = k
  · subst hj
    rw [Function.update_self]
    have hk : (w.broker j).Accounted cfg := ⟨(hw.accounted j).locks, (hw.accounted j).bound⟩
    exact hk.step h
  · rw [Function.update_of_ne hj]
    exact hw.accounted j

theorem read_sentTo {k : Fin n} {userId sessionId commandId nonce nm : Text}
    {name args mutating : Json} {timeout : Option ℚ} {now : ℚ} {s : SessionRecord}
    {dev : DeviceRecord} {fields : List (Text × Json)} {d : Broker.Dispatched}
    (hd : Broker.DispatchOk cfg (w.broker k) userId sessionId name args mutating timeout commandId
      nonce now s dev nm fields d) {v : Json} (hv : v ∈ sentTo device (some d.request)) :
    (CommandRequest.read v).sessionId = sessionId ∧ (CommandRequest.read v).sequence =
      ((((w.workers k).sequences.get s.deviceId).getD 0 + 1 : ℕ) : ℚ) := by
  simp only [sentTo, Option.mem_toList, Option.filter_eq_some_iff] at hv
  obtain rfl := Option.some.inj hv.1
  rw [hd.request, read_requestEnvelope, hd.pending]
  exact ⟨rfl, rfl⟩

theorem Sound.call (hw : Sound cfg w) {k : Fin n} {c : Call} {b : Broker} {e : Effect}
    (hC : w.Coordinated (.call k c)) (h : Broker.step cfg (w.broker k) c = some (b, e)) :
    Sound cfg { w with
      devices := b.devices
      sessions := b.sessions
      workers := Function.update w.workers k b
      channel := w.channel ++ sentTo device e.sent } := by
  have hacc := accounted_update hw h
  have hL := Broker.lockStep_of_step h
  generalize hLb : b.locks = L at hL
  generalize hsent : e.sent = sent at hL
  cases hL with
  | drops ids =>
    have hch : w.channel ++ sentTo device none = w.channel := by simp [sentTo]
    refine ⟨hacc, alone_update hw ?_, ?_, ?_, ?_⟩
    · intro j hj c c' p q hp hq hpm hqm hd
      -- what worker `k` still holds, it held before
      have hq' : b.locks.held.get c' = some q := hq
      rw [hLb] at hq'
      exact hj (hw.alone j k c c' p q hp (Locks.held_foldl_drop hq') hpm hqm hd)
    · simpa only [hch] using hw.ordered
    · simpa only [hch] using hw.ahead
    · simpa only [hch] using hw.positive
  | @take userId sessionId name args mutating timeout commandId nonce now s dev nm fields d hnew hd =>
    obtain ⟨⟨hlast, hflight⟩, halone⟩ := hC s hd.session
    refine ⟨hacc, alone_update hw ?_, ?_, ?_, ?_⟩
    · intro j hj c c' p q hp hq hpm hqm hdev
      have hq' : b.locks.held.get c' = some q := hq
      rw [hLb] at hq'
      simp only [Locks.take, Dict.get_set] at hq'
      split_ifs at hq' with hc
      · cases hq'
        have hmut : mutating = .bool true := by rw [hd.mutatingEq, hqm]
        rw [hmut] at halone
        refine halone j hj (c, p) (Dict.mem_entries_iff.2 hp) hpm ?_
        rw [hdev, hd.pending]
      · exact hj (hw.alone j k c c' p q hp hq' hpm hqm hdev)
    · refine List.pairwise_append.2 ⟨hw.ordered, ?_, ?_⟩
      · unfold sentTo
        rcases Option.filter _ _ with _ | v <;> simp
      · intro v hv v' hv' hvs
        obtain ⟨hsid, hseq⟩ := read_sentTo hd hv'
        rw [hseq]
        exact hflight v hv (hvs.trans hsid)
    · intro v hv
      rcases List.mem_append.1 hv with hv | hv
      · exact hw.ahead v hv
      · obtain ⟨hsid, hseq⟩ := read_sentTo hd hv
        rw [hsid, hseq]
        exact hlast
    · intro v hv
      rcases List.mem_append.1 hv with hv | hv
      · exact hw.positive v hv
      · rw [(read_sentTo hd hv).2]
        exact_mod_cast Nat.succ_pos _

/-- **Coordinated steps keep the fleet sound, and no delivery is out of order.** -/
theorem Sound.step (hw : Sound cfg w) {a : FleetAct n} {o : Option Handled}
    (hC : w.Coordinated a) (h : Fleet.step cfg numberText device w a = some (w', o)) :
    Sound cfg w' ∧ ∀ result, o ≠ some (.answered (.lit "out_of_order") result) := by
  cases a with
  | call k c =>
    simp only [Fleet.step] at h
    split at h
    · cases h
    · rename_i b e hs
      obtain ⟨rfl, rfl⟩ := Prod.mk.inj (Option.some.inj h)
      exact ⟨hw.call hC hs, by simp⟩
  | deliver deviceId clock =>
    simp only [Fleet.step] at h
    split at h
    · cases h
    · rename_i v rest hch
      rcases hh : w.transport.handleInboundCommand numberText true v deviceId clock with ⟨t, r⟩
      rw [hh] at h
      obtain ⟨rfl, rfl⟩ := Prod.mk.inj (Option.some.inj h)
      refine ⟨hw.deliver hch hh, ?_⟩
      intro result hr
      obtain rfl := Option.some.inj hr
      have hlt := hw.ahead v (hch ▸ List.mem_cons_self)
      exact absurd (outOfOrder_of_handle hh) (not_le.2 hlt)
  | connection i =>
    cases i with
    | command => simp [Fleet.step] at h
    | joinAnswered response deviceId =>
      obtain ⟨rfl, rfl⟩ := Prod.mk.inj (Option.some.inj h)
      refine ⟨hw.connection ?_, by simp⟩
      simp only [Transport.joinAnswered]
      split
      · split_ifs
        · exact Or.inr rfl
        · exact Or.inl rfl
      · exact Or.inl rfl
    | socketConnected | newSocket | disconnected | stop =>
      obtain ⟨rfl, rfl⟩ := Prod.mk.inj (Option.some.inj h)
      exact ⟨hw.connection (Or.inl rfl), by simp⟩

end

end Fleet

/-- Workers and an extension as one machine. -/
def fleetMachine (n : ℕ) (cfg : BrokerConfig) (numberText : ℚ → Text) (device : Text) :
    Machine (Fleet n) (FleetAct n) (Option Handled) :=
  ⟨Fleet.step cfg numberText device⟩

/-- Is this the answer to a command that is out of order? -/
def isOutOfOrder : Option Handled → Bool
  | some (.answered code _) => code = .lit "out_of_order"
  | _ => false

/-- No command is pending or on its way. -/
structure Fleet.Idle {n : ℕ} (w : Fleet n) : Prop where
  channel : w.channel = []
  locks : ∀ k, (w.workers k).locks = .empty

theorem Fleet.Idle.sound {n : ℕ} {w : Fleet n} {cfg : BrokerConfig} (h : w.Idle) : w.Sound cfg := by
  have hpend : ∀ k, (w.workers k).pending = .empty := fun k => congrArg Locks.held (h.locks k)
  refine ⟨fun k => ⟨by rw [h.locks k]; exact Locks.consistent_empty, ?_⟩, ?_, ?_, ?_, ?_⟩
  · rw [hpend k]; exact Nat.zero_le _
  · intro j k c c' p q hp
    rw [hpend j, Dict.get_empty] at hp
    cases hp
  · rw [h.channel]; exact List.Pairwise.nil
  · rw [h.channel]; simp
  · rw [h.channel]; simp

/-- **Coordinated workers are in order.**  In every run in which every dispatch
    is made by a worker whose counter is not behind, and every mutation while no
    other worker has one pending, the extension never answers that a command is
    out of order, and no two mutations of a device are pending, in one worker or
    in two. -/
theorem workers_inOrder {n : ℕ} {cfg : BrokerConfig} {numberText : ℚ → Text} {device : Text}
    {w₀ w : Fleet n} {tr : List (FleetAct n × Option Handled)} (h₀ : w₀.Idle)
    (h : (fleetMachine n cfg numberText device).RunIn Fleet.Coordinated w₀ tr w) :
    (∀ e ∈ tr, isOutOfOrder e.2 = false) ∧
    ∀ j k c c' p q, (w.workers j).pending.get c = some p → (w.workers k).pending.get c' = some q →
      p.mutating → q.mutating → p.deviceId = q.deviceId → j = k ∧ c = c' := by
  obtain ⟨hw, htr⟩ := h.safety (I := fun w => w.Sound cfg) (P := fun e => isOutOfOrder e.2 = false)
    (fun w a w' o hC hw hs => by
      obtain ⟨hw', ho⟩ := hw.step hC hs
      refine ⟨hw', ?_⟩
      unfold isOutOfOrder
      split
      · rename_i code result hcode
        rw [decide_eq_false_iff_not]
        rintro rfl
        exact ho result hcode
      · rfl) h₀.sound
  refine ⟨htr, ?_⟩
  intro j k c c' p q hp hq hpm hqm hd
  obtain rfl := hw.alone j k c c' p q hp hq hpm hqm hd
  exact ⟨rfl, (hw.accounted j).locks.eq_of_excl hp hq hpm hqm hd⟩

/-! ## Two workers -/

namespace Sample

/-- Two workers and a transport that has joined for device `A`. -/
def fleet : Fleet 2 :=
  ⟨.empty, .empty, fun _ => .empty, [], ⟨true, true, some (.lit "u"), .empty, .empty⟩⟩

theorem fleet_idle : fleet.Idle := ⟨rfl, fun _ => rfl⟩

def arrives : FleetAct 2 := .deliver (some (.lit "A")) ⟨0, 0, 0, 0⟩

end Sample

/-- One worker clicks twice, one click after the other. -/
theorem workers_inOrder_twoClicks :
    ∃ tr w, (fleetMachine 2 Sample.brokerConfig Sample.integerText (.lit "A")).RunIn
        Fleet.Coordinated Sample.fleet tr w ∧ tr.length = 7 ∧
      ∀ e ∈ tr, isOutOfOrder e.2 = false := by
  obtain ⟨⟨tr, w⟩, hm, hlen⟩ :
      ∃ r ∈ (fleetMachine 2 Sample.brokerConfig Sample.integerText (.lit "A")).exec Fleet.Coordinated
        Sample.fleet [.call 0 (Sample.connect "A" "s"), .call 0 (Sample.startSession "s" "S"),
          .call 0 (Sample.click "S" "c"), Sample.arrives, .call 0 (.timeout (.lit "c")),
          .call 0 (Sample.click "S" "c2"), Sample.arrives], r.1.length = 7 := by
    decide +kernel
  have hr := Machine.runIn_of_exec hm
  exact ⟨tr, w, hr, hlen, (workers_inOrder Sample.fleet_idle hr).1⟩

/-- Two workers click in the same session: both clicks are pending, and the
    extension refuses the second as out of order. -/
theorem workers_collide :
    Sample.fleet.Idle ∧
    ∃ tr w, (fleetMachine 2 Sample.brokerConfig Sample.integerText (.lit "A")).Run
        Sample.fleet tr w ∧
      (∃ e ∈ tr, isOutOfOrder e.2) ∧
      ∃ p ∈ (w.workers 0).pending.get (.lit "c"), ∃ q ∈ (w.workers 1).pending.get (.lit "c2"),
        p.mutating ∧ q.mutating ∧ p.deviceId = q.deviceId := by
  obtain ⟨⟨tr, w⟩, hm, h⟩ :
      ∃ r ∈ (fleetMachine 2 Sample.brokerConfig Sample.integerText (.lit "A")).exec
        (fun _ _ => True) Sample.fleet [.call 0 (Sample.connect "A" "s"),
          .call 0 (Sample.startSession "s" "S"), .call 0 (Sample.click "S" "c"),
          .call 1 (Sample.click "S" "c2"), Sample.arrives, Sample.arrives],
      (∃ e ∈ r.1, isOutOfOrder e.2) ∧
      ∃ p ∈ (r.2.workers 0).pending.get (.lit "c"),
        ∃ q ∈ (r.2.workers 1).pending.get (.lit "c2"),
          p.mutating ∧ q.mutating ∧ p.deviceId = q.deviceId := by
    decide +kernel
  exact ⟨Sample.fleet_idle, tr, w, Machine.runIn_of_exec hm, h⟩

end TideBot
