/-
  The binding of sockets to devices.

  The three facts that the rooms rely on (`SocketsBound`): a registered socket is connected, it
  is registered for one device, and the room of a device holds that device's socket only.  The
  code keeps them exactly as long as every registration and every `enter_room` finds what it
  assumes (`Registrable`, `JoinPc.Fits`): nothing checks, after the awaits of a join, that the
  socket is still there, and a socket whose device has moved to another one stays in the room.
-/
import TideBot.Broker.Sockets

namespace TideBot

open Lib

namespace Broker

variable {b b' : Broker} {sid d : Text}

/-- The socket a device is registered for. -/
def socketOf (b : Broker) (d : Text) : Option Text := (b.devices.get d).map DeviceRecord.sid

/-- A device is registered under its own id. -/
def Keyed (b : Broker) : Prop := ∀ d r, b.devices.get d = some r → r.deviceId = d

/-- The registry is that of before, as far as the sockets go. -/
structure SameSockets (b b' : Broker) : Prop where
  sockets : ∀ d, b'.socketOf d = b.socketOf d
  keyed : b.Keyed → b'.Keyed

theorem socketOf_eq : b.socketOf d = some sid ↔ ∃ r, b.devices.get d = some r ∧ r.sid = sid :=
  Option.map_eq_some_iff

theorem SameSockets.of_devices (h : b'.devices = b.devices) : SameSockets b b' where
  sockets d := by simp only [socketOf, h]
  keyed hb := by unfold Keyed; rw [h]; exact hb

theorem SameSockets.heartbeat (hb : b.Keyed) {now : ℚ} (h : b.heartbeat sid now = .ok b') :
    SameSockets b b' := by
  obtain ⟨device, hd, rfl⟩ := heartbeat_ok h
  obtain ⟨k, hget, -⟩ := deviceForSid_eq hd
  obtain rfl := hb k device hget
  constructor
  · intro d
    simp only [socketOf, Dict.get_set]
    split_ifs with hk
    · rw [hk, hget]
      rfl
    · rfl
  · intro _ d r hr
    simp only [Dict.get_set] at hr
    split_ifs at hr with hk
    · cases hr
      exact hk.symm
    · exact hb d r hr

theorem SameSockets.openSession {sessionId tabId tabOrigin actionMode tabPolicy : Json} {now : ℚ}
    (h : b.openSession sid sessionId tabId tabOrigin actionMode tabPolicy now = .ok b') :
    SameSockets b b' := by
  obtain ⟨_, _, _, -, -, -, -, -, -, rfl⟩ := openSession_ok h
  exact .of_devices rfl

theorem SameSockets.closeSession {sessionId : Text}
    (h : (b.closeSession sid sessionId).map Prod.fst = .ok b') : SameSockets b b' := by
  cases hclose : b.closeSession sid sessionId with
  | error e =>
    rw [hclose] at h
    cases h
  | ok res =>
    obtain ⟨b'', settled⟩ := res
    rw [hclose] at h
    cases h
    rcases closeSession_ok hclose with hb | ⟨_, -, -, hb⟩
    · exact .of_devices (congrArg Broker.devices hb)
    · refine .of_devices ?_
      rw [hb, failMatching_devices]

theorem socketOf_disconnect (b : Broker) (sid d s : Text) :
    (b.disconnect sid).1.socketOf d = some s ↔ b.socketOf d = some s ∧ s ≠ sid := by
  simp only [socketOf_eq, disconnect_devices]
  constructor
  · rintro ⟨r, ⟨hr, hne⟩, rfl⟩
    exact ⟨⟨r, hr, rfl⟩, hne⟩
  · rintro ⟨⟨r, hr, rfl⟩, hne⟩
    exact ⟨r, ⟨hr, hne⟩, rfl⟩

theorem Keyed.disconnect (hb : b.Keyed) (sid : Text) : (b.disconnect sid).1.Keyed :=
  fun d r hr => hb d r ((disconnect_devices b sid d r).1 hr).1

theorem socketOf_register {userId family origin : Text} {now : ℚ}
    (h : b.registerDevice userId d sid family origin now = .ok b') (k : Text) :
    b'.socketOf k = if k = d then some sid else b.socketOf k := by
  rw [registerDevice_ok h]
  simp only [socketOf, Dict.get_set]
  split_ifs <;> rfl

theorem Keyed.register (hb : b.Keyed) {userId family origin : Text} {now : ℚ}
    (h : b.registerDevice userId d sid family origin now = .ok b') : b'.Keyed := by
  intro k r hr
  rw [registerDevice_ok h] at hr
  simp only [Dict.get_set] at hr
  split_ifs at hr with hk
  · cases hr
    exact hk.symm
  · exact hb k r hr

theorem register_full {userId family origin : Text} {now : ℚ} (hnone : b.devices.get d = none)
    (hfull : maxRegisteredDevices ≤ b.devices.size) :
    b.registerDevice userId d sid family origin now ≠ .ok b' := by
  unfold registerDevice
  split_ifs with h₁ h₂
  · rintro ⟨⟩
  · rintro ⟨⟩
  · exact absurd ⟨hnone, hfull⟩ h₂

end Broker

/-! ## What is promised -/

/-- The socket that has last been registered for a device. -/
def lastRegistered (d : Text) (es : List SocketEffect) : Option Text :=
  ((es.filterMap SocketEffect.registered).filter fun e => e.1 = d).getLast?.map Prod.snd

theorem lastRegistered_snoc (d : Text) (es : List SocketEffect) (x : SocketEffect) :
    lastRegistered d (es ++ [x]) =
      if ∃ e ∈ x.registered, e.1 = d then x.registered.map Prod.snd else lastRegistered d es := by
  cases hx : x.registered with
  | none => simp [lastRegistered, hx]
  | some e =>
    simp only [lastRegistered, List.filterMap_append, List.filterMap_cons, hx, List.filterMap_nil,
      List.filter_append, Option.mem_def, Option.some.injEq, exists_eq_left', Option.map_some]
    split_ifs with he <;> simp [he]

/-- A registered socket is connected, and bound to one device; the room of a device holds its
    socket only, which is the one that was registered last. -/
structure SocketsBound (es : List SocketEffect) (w : SocketWorld) : Prop where
  connected : ∀ d sid, w.broker.socketOf d = some sid → sid ∉ w.gone
  single : ∀ d d' sid, w.broker.socketOf d = some sid → w.broker.socketOf d' = some sid → d = d'
  room : ∀ d sid, (deviceRoom d, sid) ∈ w.rooms → w.broker.socketOf d = some sid
  last : ∀ d sid, w.broker.socketOf d = some sid → lastRegistered d es = some sid

/-! ## When it is kept -/

/-- What a registration assumes: the registry is full, or the socket is connected and not
    registered for another device, and no other socket is in the room of the device. -/
def SocketWorld.Registrable (w : SocketWorld) (sid d : Text) : Prop :=
  (w.broker.devices.get d = none ∧ maxRegisteredDevices ≤ w.broker.devices.size) ∨
    (sid ∉ w.gone ∧ (∀ d' ∈ w.broker.devicesOf sid, d' = d) ∧
      ∀ p ∈ w.rooms, p.1 = deviceRoom d → p.2 = sid)

instance (w : SocketWorld) (sid d : Text) : Decidable (w.Registrable sid d) :=
  inferInstanceAs (Decidable (_ ∨ _))

/-- What the next step of a join assumes: a registration of its socket and its device, the
    `enter_room` of the device that the socket is still registered for it. -/
def JoinPc.Fits (w : SocketWorld) (tick : JoinTick) : JoinPc → Prop
  | .permitting sid _ claims =>
    tick.raises = false → tick.allowed = true → w.Registrable sid claims.deviceId
  | .enteringDevice sid claims => tick.raises = false → claims.deviceId ∈ w.broker.devicesOf sid
  | _ => True

instance (w : SocketWorld) (tick : JoinTick) : DecidablePred (JoinPc.Fits w tick)
  | .permitting .. => inferInstanceAs (Decidable (_ → _ → _))
  | .enteringDevice .. => inferInstanceAs (Decidable (_ → _))
  | .decoding .. | .fetching .. | .naming .. | .enteringUser .. | .done _ =>
    inferInstanceAs (Decidable True)

/-- The condition on a step. -/
def JoinsFit (w : SocketWorld) : SocketAct → Prop
  | .resume i tick => ∀ pc ∈ w.joins i, pc.Fits w tick
  | _ => True

instance (w : SocketWorld) : DecidablePred (JoinsFit w)
  | .resume i tick => inferInstanceAs (Decidable (∀ pc ∈ w.joins i, pc.Fits w tick))
  | .join .. | .heartbeat .. | .openSession .. | .closeSession .. | .disconnect _ =>
    inferInstanceAs (Decidable True)

/-! ## Every step keeps it -/

section
variable {w w' : SocketWorld} {es : List SocketEffect} {x : SocketEffect} {i : ℕ}
  {sid origin : Text} {claims : JoinClaims} {now : ℚ}

/-- What holds after the effects `es`. -/
def SocketInv (es : List SocketEffect) (w : SocketWorld) : Prop :=
  w.broker.Keyed ∧ SocketsBound es w

/-- **A step that registers no socket and disconnects none.** -/
theorem SocketInv.same (h : SocketInv es w) (hb : w.broker.SameSockets w'.broker)
    (hgone : w'.gone = w.gone)
    (hroom : ∀ d sid, (deviceRoom d, sid) ∈ w'.rooms → w'.broker.socketOf d = some sid)
    (hx : x.registered = none) : SocketInv (es ++ [x]) w' := by
  obtain ⟨hk, hbound⟩ := h
  refine ⟨hb.keyed hk, ?_, ?_, hroom, ?_⟩
  · intro d sid hd
    rw [hgone]
    rw [hb.sockets] at hd
    exact hbound.connected d sid hd
  · intro d d' sid hd hd'
    rw [hb.sockets] at hd hd'
    exact hbound.single d d' sid hd hd'
  · intro d sid hd
    rw [hb.sockets] at hd
    rw [lastRegistered_snoc, if_neg (by simp [hx])]
    exact hbound.last d sid hd

theorem SocketInv.goto (h : SocketInv es w) (i : ℕ) (pc : JoinPc) : SocketInv (es ++ [⟨none, none⟩]) (w.goto i pc) :=
  h.same (.of_devices rfl) rfl h.2.room rfl

theorem SocketInv.answer (h : SocketInv es w) {r : Except BrokerError Broker} {reply : SocketReply}
    (hr : ∀ b, r = .ok b → w.broker.SameSockets b) :
    SocketInv (es ++ [(w.answer r reply).2]) (w.answer r reply).1 := by
  cases r with
  | error e => exact h.same (.of_devices rfl) rfl h.2.room rfl
  | ok b =>
    refine h.same (hr b rfl) rfl ?_ rfl
    intro d sid hd
    exact ((hr b rfl).sockets d).trans (h.2.room d sid hd)

theorem SocketInv.disconnect (h : SocketInv es w) (sid : Text) :
    SocketInv (es ++ [⟨none, none⟩]) (w.disconnect sid).1 := by
  obtain ⟨hk, hb⟩ := h
  refine ⟨hk.disconnect sid, ?_, ?_, ?_, ?_⟩
  · intro d s hd hgone
    obtain ⟨hold, hne⟩ := (Broker.socketOf_disconnect _ _ _ _).1 hd
    rcases Finset.mem_insert.1 hgone with heq | hgone
    · exact hne heq
    · exact hb.connected d s hold hgone
  · intro d d' s hd hd'
    exact hb.single d d' s ((Broker.socketOf_disconnect _ _ _ _).1 hd).1
      ((Broker.socketOf_disconnect _ _ _ _).1 hd').1
  · intro d s hmem
    obtain ⟨hmem, hne⟩ := Finset.mem_filter.1 hmem
    exact (Broker.socketOf_disconnect _ _ _ _).2 ⟨hb.room d s hmem, by simpa using hne⟩
  · intro d s hd
    rw [lastRegistered_snoc, if_neg (by simp)]
    exact hb.last d s ((Broker.socketOf_disconnect _ _ _ _).1 hd).1

/-- Entering the room of the device that the socket is registered for, or that of a user. -/
theorem SocketInv.enterRoom (h : SocketInv es w) {room : Text} {pc : JoinPc}
    (hroom : ∀ d, room = deviceRoom d → w.broker.socketOf d = some sid) :
    SocketInv (es ++ [⟨none, none⟩]) ((w.enterRoom sid room).goto i pc) := by
  refine h.same (.of_devices rfl) rfl ?_ rfl
  intro d s hmem
  rcases Finset.mem_insert.1 hmem with heq | hmem
  · obtain ⟨hroom', rfl⟩ := Prod.mk.inj heq
    exact hroom d hroom'.symm
  · exact h.2.room d s hmem

/-- **The registration of a socket.** -/
theorem SocketInv.register (h : SocketInv es w) (hreg : w.Registrable sid claims.deviceId) :
    SocketInv (es ++ [(w.register i sid origin claims now).2]) (w.register i sid origin claims now).1 := by
  obtain ⟨hk, hb⟩ := h
  obtain ⟨b₁, hcases, hres⟩ := Broker.join_result w.broker claims.userId claims.deviceId sid
    claims.tokenFamilyId origin now
  -- the registry that the device is registered in: the old socket of the device is gone
  have hkeyed : b₁.Keyed := by
    rcases hcases with ⟨r, -, -, rfl⟩ | ⟨rfl, -⟩
    · exact hk.disconnect _
    · exact hk
  have hother : ∀ d, d ≠ claims.deviceId → b₁.socketOf d = w.broker.socketOf d := by
    rintro d hne
    rcases hcases with ⟨r, hr, -, rfl⟩ | ⟨rfl, -⟩
    · have hold : w.broker.socketOf claims.deviceId = some r.sid := Broker.socketOf_eq.2 ⟨r, hr, rfl⟩
      refine Option.ext fun s => ?_
      rw [Broker.socketOf_disconnect]
      refine ⟨And.left, fun hs => ⟨hs, ?_⟩⟩
      rintro rfl
      exact hne (hb.single d _ _ hs hold)
    · rfl
  have hdevice : ∀ s, b₁.socketOf claims.deviceId = some s → w.broker.socketOf claims.deviceId = some s := by
    intro s hs
    rcases hcases with ⟨r, -, -, rfl⟩ | ⟨rfl, -⟩
    · exact ((Broker.socketOf_disconnect _ _ _ _).1 hs).1
    · exact hs
  have hold : ∀ d s, b₁.socketOf d = some s → w.broker.socketOf d = some s := by
    intro d s hs
    by_cases hne : d = claims.deviceId
    · subst hne
      exact hdevice s hs
    · rwa [hother d hne] at hs
  rcases hres with ⟨hok, hb'⟩ | ⟨e, herr, hb', -⟩
  · have hsock := Broker.socketOf_register hb'
    obtain ⟨hgone, hone, hroom⟩ : sid ∉ w.gone ∧ (∀ d' ∈ w.broker.devicesOf sid, d' = claims.deviceId) ∧
        ∀ p ∈ w.rooms, p.1 = deviceRoom claims.deviceId → p.2 = sid := by
      rcases hreg with ⟨hnone, hfull⟩ | hreg
      · rcases hcases with ⟨r, hr, -, -⟩ | ⟨rfl, -⟩
        · rw [hnone] at hr
          cases hr
        · exact absurd hb' (Broker.register_full hnone hfull)
      · exact hreg
    have hown : ∀ d, w.broker.socketOf d = some sid → d = claims.deviceId := fun d hd =>
      hone d (Broker.mem_devicesOf.2 (Broker.socketOf_eq.1 hd))
    simp only [SocketWorld.register, hok]
    refine ⟨hkeyed.register hb', ?_, ?_, ?_, ?_⟩
    · intro d s hd
      replace hd := (hsock d).symm.trans hd
      split_ifs at hd with hk
      · cases hd
        exact hgone
      · exact hb.connected d s (hold d s hd)
    · intro d d' s hd hd'
      replace hd := (hsock d).symm.trans hd
      replace hd' := (hsock d').symm.trans hd'
      split_ifs at hd hd' with hk hk' hk'
      · exact hk.trans hk'.symm
      · cases hd
        exact absurd (hown d' (hold d' sid hd')) hk'
      · cases hd'
        exact absurd (hown d (hold d sid hd)) hk
      · exact hb.single d d' s (hold d s hd) (hold d' s hd')
    · intro d s (hmem : (deviceRoom d, s) ∈ w.rooms)
      refine (hsock d).trans ?_
      split_ifs with hk
      · subst hk
        exact congrArg some (hroom _ hmem rfl).symm
      · rw [hother d hk]
        exact hb.room d s hmem
    · intro d s hd
      replace hd := (hsock d).symm.trans hd
      rw [lastRegistered_snoc]
      split_ifs at hd with hk
      · cases hd
        rw [if_pos ⟨_, rfl, hk.symm⟩]
        rfl
      · rw [if_neg (by simpa using Ne.symm hk)]
        exact hb.last d s (hold d s hd)
  · simp only [SocketWorld.register, herr, hb']
    refine ⟨hkeyed, ?_, ?_, ?_, ?_⟩
    · exact fun d s hd => hb.connected d s (hold d s hd)
    · exact fun d d' s hd hd' => hb.single d d' s (hold d s hd) (hold d' s hd')
    · intro d s (hmem : (deviceRoom d, s) ∈ w.rooms)
      have hin := hb.room d s hmem
      by_cases hk : d = claims.deviceId
      · subst hk
        rcases hreg with ⟨hnone, -⟩ | ⟨-, -, hroom⟩
        · simp [Broker.socketOf, hnone] at hin
        · -- the socket in the room is the one that joins: no other was disconnected
          obtain rfl : s = sid := hroom _ hmem rfl
          rcases hcases with ⟨r, hr, hne, -⟩ | ⟨rfl, -⟩
          · simp [Broker.socketOf, hr, hne] at hin
          · exact hin
      · exact (hother d hk).trans hin
    · intro d s hd
      rw [lastRegistered_snoc, if_neg (by simp)]
      exact hb.last d s (hold d s hd)

theorem SocketInv.of_some {r : SocketWorld × SocketEffect} (h : SocketInv (es ++ [r.2]) r.1)
    (hs : some r = some (w', x)) : SocketInv (es ++ [x]) w' := by
  cases hs
  exact h

/-- **Every step that meets the condition keeps the binding.** -/
theorem SocketInv.step {a : SocketAct} (h : SocketInv es w) (hfit : JoinsFit w a)
    (hs : w.step a = some (w', x)) : SocketInv (es ++ [x]) w' := by
  cases a with
  | join i sid data =>
    simp only [SocketWorld.step] at hs
    split at hs
    · cases hs
      exact h.goto i _
    · cases hs
  | resume i tick =>
    obtain ⟨pc, hpc, hs⟩ := Option.bind_eq_some_iff.1 hs
    have hfit : pc.Fits w tick := hfit pc hpc
    cases pc with
    | done => cases hs
    | decoding =>
      cases hs
      exact h.goto i _
    | fetching | naming =>
      simp only [SocketWorld.resumeJoin] at hs
      split_ifs at hs
      all_goals
        cases hs
        exact h.goto i _
    | permitting sid origin claims =>
      simp only [SocketWorld.resumeJoin] at hs
      split_ifs at hs with hraise hallow
      · cases hs
        exact h.goto i _
      · exact .of_some (h.register (hfit (by simpa using hraise) hallow)) hs
      · cases hs
        exact h.goto i _
    | enteringUser sid claims =>
      simp only [SocketWorld.resumeJoin] at hs
      split_ifs at hs
      · cases hs
        exact h.goto i _
      · cases hs
        exact h.enterRoom fun d hd => absurd hd (userRoom_ne _ _)
    | enteringDevice sid claims =>
      simp only [SocketWorld.resumeJoin] at hs
      split_ifs at hs with hraise
      · cases hs
        exact h.goto i _
      · cases hs
        refine h.enterRoom ?_
        intro d hd
        rw [← deviceRoom_inj hd]
        exact Broker.socketOf_eq.2 (Broker.mem_devicesOf.1 (hfit (by simpa using hraise)))
  | heartbeat sid data now =>
    simp only [SocketWorld.step, SocketWorld.heartbeat] at hs
    split at hs
    · exact .of_some (h.answer fun b hb => .heartbeat h.1 hb) hs
    · exact .of_some (h.answer fun b hb => .heartbeat h.1 hb) hs
    · cases hs
      exact h.same (.of_devices rfl) rfl h.2.room rfl
  | openSession sid data now =>
    simp only [SocketWorld.step, SocketWorld.openSession] at hs
    split_ifs at hs
    · cases hs
      exact h.same (.of_devices rfl) rfl h.2.room rfl
    · exact .of_some (h.answer fun b hb => .openSession hb) hs
  | closeSession sid data =>
    simp only [SocketWorld.step, SocketWorld.closeSession] at hs
    split_ifs at hs
    · cases hs
      exact h.same (.of_devices rfl) rfl h.2.room rfl
    · split at hs
      · cases hs
        exact h.same (.of_devices rfl) rfl h.2.room rfl
      · exact .of_some (h.answer fun b hb => .closeSession hb) hs
  | disconnect sid =>
    cases hs
    exact h.disconnect sid

theorem socketInv_init : SocketInv [] .init := by
  refine ⟨fun d r hr => ?_, fun d s hd => ?_, fun d d' s hd => ?_, fun d s hmem => ?_, fun d s hd => ?_⟩
  · simp [SocketWorld.init, Broker.empty] at hr
  · simp [SocketWorld.init, Broker.empty, Broker.socketOf] at hd
  · simp [SocketWorld.init, Broker.empty, Broker.socketOf] at hd
  · simp [SocketWorld.init] at hmem
  · simp [SocketWorld.init, Broker.empty, Broker.socketOf] at hd

end

/-- **The binding of sockets to devices holds in every run whose joins find what they assume.** -/
theorem socketsBound {tr : List (SocketAct × SocketEffect)} {w : SocketWorld}
    (h : socketMachine.RunIn JoinsFit .init tr w) : SocketsBound (tr.map Prod.snd) w := by
  refine (h.traceInvariant (I := fun tr w => SocketInv (tr.map Prod.snd) w) ?_ socketInv_init).2
  intro tr w a w' x hfit hinv hs
  rw [List.map_append]
  exact hinv.step hfit hs

/-! ## Runs -/

/-- What the awaited calls answer to a socket with a valid token for `device` of user `u`. -/
def granted (device : String) : JoinTick where
  claims := some (.obj [(.lit "id", .str (.lit "u")), (.lit "device_id", .str (.lit device)),
    (.lit "token_family_id", .str (.lit "f")), (.lit "origin", .str (.lit "https://tide-bot.com"))])
  device := some ⟨.lit device, .lit "u", .lit "laptop", [], none, none, .lit "f",
    .lit "https://tide-bot.com", .lit "1.0.0", none, none, 0, 0⟩
  role := some (.lit "user")
  allowed := true
  now := 0
  raises := false

/-- Socket `sid` sends `browser:device:join`, and its token is read. -/
def knocks (i : ℕ) (sid device : String) : List SocketAct :=
  [.join i (.lit sid) (.obj [(.lit "accessToken", .str (.lit "token")),
      (.lit "origin", .str (.lit "https://tide-bot.com"))]),
    .resume i (granted device), .resume i (granted device), .resume i (granted device)]

/-- The join goes on: it registers the socket, and enters the two rooms. -/
def enters (i : ℕ) (device : String) : List SocketAct :=
  [.resume i (granted device), .resume i (granted device), .resume i (granted device)]

/-- The device moves to another socket after the first has been disconnected. -/
theorem socketsBound_moves : ∃ tr w, socketMachine.RunIn JoinsFit .init tr w ∧
    (deviceRoom (.lit "d"), Text.lit "s2") ∈ w.rooms ∧ Text.lit "s1" ∈ w.gone ∧
      SocketsBound (tr.map Prod.snd) w := by
  obtain ⟨⟨tr, w⟩, hm, hroom, hgone⟩ : ∃ r ∈ socketMachine.exec JoinsFit .init
      (knocks 0 "s1" "d" ++ knocks 1 "s2" "d" ++ enters 0 "d" ++ [.disconnect (.lit "s1")] ++ enters 1 "d"),
      (deviceRoom (.lit "d"), Text.lit "s2") ∈ r.2.rooms ∧ Text.lit "s1" ∈ r.2.gone := by
    decide +kernel
  exact ⟨tr, w, Machine.runIn_of_exec hm, hroom, hgone, socketsBound (Machine.runIn_of_exec hm)⟩

/-- A socket that is gone before its join registers it; a socket that joins for a second device;
    a device that joins on a second socket while the first is in its room. -/
theorem socketsBound_fails :
    (∃ tr w, socketMachine.Run .init tr w ∧ ∃ d sid, w.broker.socketOf d = some sid ∧ sid ∈ w.gone) ∧
    (∃ tr w, socketMachine.Run .init tr w ∧ ∃ d d' sid, d ≠ d' ∧ w.broker.socketOf d = some sid ∧
      w.broker.socketOf d' = some sid) ∧
    (∃ tr w, socketMachine.Run .init tr w ∧ ∃ d sid sid', sid ≠ sid' ∧
      w.broker.socketOf d = some sid' ∧ (deviceRoom d, sid) ∈ w.rooms) := by
  refine ⟨?_, ?_, ?_⟩
  · obtain ⟨⟨tr, w⟩, hm, hsock, hgone⟩ : ∃ r ∈ socketMachine.exec (fun _ _ => True) .init
        (knocks 0 "s1" "d" ++ [.disconnect (.lit "s1")] ++ enters 0 "d"),
        r.2.broker.socketOf (.lit "d") = some (.lit "s1") ∧ Text.lit "s1" ∈ r.2.gone := by
      decide +kernel
    exact ⟨tr, w, Machine.runIn_of_exec hm, _, _, hsock, hgone⟩
  · obtain ⟨⟨tr, w⟩, hm, hsock, hsock'⟩ : ∃ r ∈ socketMachine.exec (fun _ _ => True) .init
        (knocks 0 "s1" "d" ++ enters 0 "d" ++ knocks 1 "s1" "e" ++ enters 1 "e"),
        r.2.broker.socketOf (.lit "d") = some (.lit "s1") ∧
          r.2.broker.socketOf (.lit "e") = some (.lit "s1") := by
      decide +kernel
    exact ⟨tr, w, Machine.runIn_of_exec hm, _, _, _, by decide, hsock, hsock'⟩
  · obtain ⟨⟨tr, w⟩, hm, hsock, hroom⟩ : ∃ r ∈ socketMachine.exec (fun _ _ => True) .init
        (knocks 0 "s1" "d" ++ enters 0 "d" ++ knocks 1 "s2" "d" ++ enters 1 "d"),
        r.2.broker.socketOf (.lit "d") = some (.lit "s2") ∧
          (deviceRoom (.lit "d"), Text.lit "s1") ∈ r.2.rooms := by
      decide +kernel
    exact ⟨tr, w, Machine.runIn_of_exec hm, _, _, _, by decide, hsock, hroom⟩

end TideBot
