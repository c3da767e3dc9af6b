/-
  The labels of paired devices (`routers/browser_extension.py`: `_create_paired_device`,
  `rename_paired_device`, `revoke_paired_device`).

  A pairing takes the first free label among the one that is asked for and four with a suffix.  A label is
  not free while a device of the user has it, and a revoked device has it for good: so it is not the
  devices in use that decide whether a pairing succeeds, but all that hold one of the five labels
  (`created_iff_holders`).
-/
import TideBot.Devices.Pairing

namespace TideBot

open Lib

/-! ## Pairing -/

/-- The loop of `_create_paired_device`, with `n` attempts left. -/
def tryLabels (T : PairedDevices) (device : PairedDevice) (attempt : ℕ) : ℕ → Option (PairedDevices × PairedDevice)
  | 0 => none
  | n + 1 =>
    let candidate := { device with label := candidateLabel device.label attempt }
    match T.insert candidate with
    | some T' => some (T', candidate)
    | none => tryLabels T device (attempt + 1) n

/-- `_create_paired_device`, of a device with the label that is asked for; `none`: `device_label_in_use`. -/
def createPairedDevice (T : PairedDevices) (device : PairedDevice) : Option (PairedDevices × PairedDevice) :=
  tryLabels T device 1 maxDeviceLabelAttempts

/-- The labels that are tried. -/
def candidateLabels (label : Text) : List Text :=
  (List.range maxDeviceLabelAttempts).map fun i => candidateLabel label (i + 1)

/-! ## What a pairing needs -/

/-- The id and the credential that were drawn are new. -/
def NewDevice (T : PairedDevices) (device : PairedDevice) : Prop :=
  ∀ r ∈ T.rows, r.id ≠ device.id ∧ r.refreshTokenHash ≠ device.refreshTokenHash

instance : ∀ T device, Decidable (NewDevice T device) := fun T device =>
  inferInstanceAs (Decidable (∀ r ∈ T.rows, r.id ≠ device.id ∧ r.refreshTokenHash ≠ device.refreshTokenHash))

/-- The devices of a user that hold one of the labels, in use or revoked. -/
def holders (T : PairedDevices) (userId label : Text) : ℕ :=
  T.rows.countP fun r => r.userId = userId && r.label ∈ candidateLabels label

/-- The devices of a user that are in use. -/
def devicesInUse (T : PairedDevices) (userId : Text) : ℕ :=
  T.rows.countP fun r => r.userId = userId && r.revokedAt.isNone

section

variable {T T' : PairedDevices} {device : PairedDevice} {label : Text} {attempt n i j : ℕ}

theorem insert_isSome_iff : (T.insert device).isSome ↔
    NewDevice T device ∧ ∀ r ∈ T.rows, ¬(r.userId = device.userId ∧ r.label = device.label) := by
  have hone : ∀ {β : Type} [DecidableEq β] (g : PairedDevice → β), (T.rows.map g).Nodup →
      (((T.rows ++ [device]).map g).Nodup ↔ ∀ r ∈ T.rows, g r ≠ g device) := by
    intro β _ g hnd
    simp [List.nodup_append, hnd]
  have hok : DeviceConstraints (T.rows ++ [device]) ↔
      NewDevice T device ∧ ∀ r ∈ T.rows, ¬(r.userId = device.userId ∧ r.label = device.label) := by
    unfold DeviceConstraints NewDevice
    rw [hone _ T.ok.1, hone _ T.ok.2.1, hone _ T.ok.2.2]
    simp only [ne_eq, Prod.mk.injEq]
    constructor
    · rintro ⟨hid, hhash, hlabel⟩
      exact ⟨fun r hr => ⟨hid r hr, hhash r hr⟩, hlabel⟩
    · rintro ⟨hnew, hlabel⟩
      exact ⟨fun r hr => (hnew r hr).1, fun r hr => (hnew r hr).2, hlabel⟩
  rw [← hok, Table.insert]
  by_cases h : DeviceConstraints (T.rows ++ [device]) <;> simp [h]

theorem tryLabels_isSome_iff : (tryLabels T device attempt n).isSome ↔
    ∃ i, attempt ≤ i ∧ i < attempt + n ∧
      (T.insert { device with label := candidateLabel device.label i }).isSome := by
  induction n generalizing attempt with
  | zero =>
    refine iff_of_false (by simp [tryLabels]) ?_
    rintro ⟨i, hle, hlt, -⟩
    omega
  | succ n ih =>
    rw [tryLabels]
    cases hins : T.insert { device with label := candidateLabel device.label attempt } with
    | some T' => exact iff_of_true rfl ⟨attempt, le_rfl, by omega, by rw [hins]; rfl⟩
    | none =>
      refine ih.trans ⟨?_, ?_⟩
      · rintro ⟨i, hle, hlt, hi⟩
        exact ⟨i, by omega, by omega, hi⟩
      · rintro ⟨i, hle, hlt, hi⟩
        have hne : i ≠ attempt := by
          rintro rfl
          rw [hins] at hi
          cases hi
        exact ⟨i, by omega, by omega, hi⟩

/-- **A pairing succeeds if one of the labels is free.** -/
theorem createPairedDevice_isSome_iff : (createPairedDevice T device).isSome ↔
    NewDevice T device ∧ ∃ label ∈ candidateLabels device.label,
      ∀ r ∈ T.rows, ¬(r.userId = device.userId ∧ r.label = label) := by
  have hnew : ∀ label, NewDevice T { device with label := label } ↔ NewDevice T device := fun _ => Iff.rfl
  rw [createPairedDevice, tryLabels_isSome_iff]
  simp only [insert_isSome_iff, hnew, candidateLabels, List.mem_map, List.mem_range, exists_exists_and_eq_and]
  constructor
  · rintro ⟨i, hle, hlt, hnew, hfree⟩
    obtain ⟨i, rfl⟩ := Nat.exists_eq_add_of_le' hle
    exact ⟨hnew, i, by omega, hfree⟩
  · rintro ⟨hnew, i, hi, hfree⟩
    exact ⟨i + 1, by omega, by omega, hnew, hfree⟩

theorem candidateLabels_nodup (label : Text) : (candidateLabels label).Nodup := by
  have hsuffix : ∀ i, candidateLabel label (i + 1) = label ++ candidateLabel [] (i + 1) := by
    intro i
    unfold candidateLabel
    split_ifs <;> simp
  have hnd : ((List.range maxDeviceLabelAttempts).map fun i => candidateLabel [] (i + 1)).Nodup := by decide +kernel
  have hmap : candidateLabels label =
      ((List.range maxDeviceLabelAttempts).map fun i => candidateLabel [] (i + 1)).map (label ++ ·) := by
    rw [candidateLabels, List.map_map]
    exact List.map_congr_left fun i _ => hsuffix i
  rw [hmap]
  exact hnd.map (List.append_right_injective label)

theorem length_candidateLabels (label : Text) : (candidateLabels label).length = maxDeviceLabelAttempts := by
  simp [candidateLabels]

theorem holders_labels (T : PairedDevices) (userId label : Text) :
    let L := (T.rows.filter fun r => r.userId = userId && r.label ∈ candidateLabels label).map PairedDevice.label
    L.Nodup ∧ L.length = holders T userId label ∧
      ∀ l, l ∈ L ↔ l ∈ candidateLabels label ∧ ∃ r ∈ T.rows, r.userId = userId ∧ r.label = l := by
  refine ⟨?_, ?_, ?_⟩
  · have hsub := (List.filter_sublist (p := fun r : PairedDevice => r.userId = userId && r.label ∈ candidateLabels label)
      (l := T.rows)).map fun r => (r.userId, r.label)
    refine List.Nodup.map_on ?_ ((hsub.nodup T.ok.2.2).of_map)
    intro r hr r' hr' heq
    refine List.inj_on_of_nodup_map (hsub.nodup T.ok.2.2) hr hr' (Prod.ext ?_ heq)
    have hu := (List.mem_filter.1 hr).2
    have hu' := (List.mem_filter.1 hr').2
    simp only [Bool.and_eq_true, decide_eq_true_eq] at hu hu'
    exact hu.1.trans hu'.1.symm
  · rw [List.length_map, holders, List.countP_eq_length_filter]
  · intro l
    simp only [List.mem_map, List.mem_filter, Bool.and_eq_true, decide_eq_true_eq]
    constructor
    · rintro ⟨r, ⟨hr, hu, hc⟩, rfl⟩
      exact ⟨hc, r, hr, hu, rfl⟩
    · rintro ⟨hc, r, hr, hu, rfl⟩
      exact ⟨r, ⟨hr, hu, hc⟩, rfl⟩

theorem exists_free_iff : (∃ l ∈ candidateLabels label, ∀ r ∈ T.rows, ¬(r.userId = device.userId ∧ r.label = l)) ↔
    holders T device.userId label < maxDeviceLabelAttempts := by
  obtain ⟨hnd, hlength, hmem⟩ := holders_labels T device.userId label
  generalize (T.rows.filter fun r => r.userId = device.userId && r.label ∈ candidateLabels label).map
    PairedDevice.label = L at hnd hlength hmem
  rw [← hlength, ← length_candidateLabels label]
  constructor
  · rintro ⟨l, hl, hfree⟩
    have hsub : L ⊆ (candidateLabels label).erase l := by
      intro l' hl'
      obtain ⟨hc, r, hr, hu, rfl⟩ := (hmem l').1 hl'
      refine (List.mem_erase_of_ne ?_).2 hc
      rintro rfl
      exact hfree r hr ⟨hu, rfl⟩
    have hle := (hnd.subperm hsub).length_le
    rw [List.length_erase_of_mem hl] at hle
    have hpos := List.length_pos_of_mem hl
    omega
  · intro hlt
    by_contra hnone
    push Not at hnone
    have hsub : candidateLabels label ⊆ L := by
      intro l hl
      exact (hmem l).2 ⟨hl, hnone l hl⟩
    have hle := ((candidateLabels_nodup label).subperm hsub).length_le
    omega

/-- **A pairing succeeds if fewer devices than labels hold one of the labels.** -/
theorem created_iff_holders : (createPairedDevice T device).isSome ↔
    NewDevice T device ∧ holders T device.userId device.label < maxDeviceLabelAttempts := by
  rw [createPairedDevice_isSome_iff, exists_free_iff]

end

/-! ## Histories -/

/-- What is done to the devices; a pairing comes with the device that it would make. -/
inductive LabelAct where
  | pair (device : PairedDevice)
  | rename (deviceId userId label : Text) (now : ℤ)
  | revoke (deviceId userId : Text) (now : ℤ)

/-- The answer of the handler. -/
inductive LabelReply where
  | paired (device : PairedDevice)
  | device (device : PairedDevice)
  | revoked
  | http (status : ℕ) (detail : Text)
  | serverError
  deriving DecidableEq

namespace LabelReply

def labelInUse : LabelReply := .http 409 (.lit "device_label_in_use")

def notFound : LabelReply := .http 404 (.lit "paired_device_not_found")

end LabelReply

/-- One request. -/
def labelStep (T : PairedDevices) : LabelAct → PairedDevices × LabelReply
  | .pair device =>
    match createPairedDevice T device with
    | some (T', d) => (T', .paired d)
    | none => (T, .labelInUse)
  | .rename deviceId userId label now =>
    match PairedDevices.rename T deviceId userId label now with
    | some (T', some d) => (T', .device d)
    | some (T', none) => (T', .notFound)
    | none => (T, .labelInUse)
  | .revoke deviceId userId now =>
    match PairedDevices.revoke T deviceId userId now with
    | some (T', some _) => (T', .revoked)
    | some (T', none) => (T', .notFound)
    | none => (T, .serverError)

/-- The devices as a machine. -/
def labelMachine : Machine PairedDevices LabelAct LabelReply := ⟨fun T act => some (labelStep T act)⟩

theorem deviceConstraints_nil : DeviceConstraints [] := by simp [DeviceConstraints]

def noDevices : PairedDevices := ⟨[], deviceConstraints_nil⟩

/-- A pairing of a user with few devices in use succeeds. -/
def PairingSucceeds (T : PairedDevices) : LabelAct → LabelReply → Prop
  | .pair device, reply => devicesInUse T device.userId < maxDeviceLabelAttempts → ∃ d, reply = .paired d
  | _, _ => True

/-- Few devices of the user hold the labels of a pairing, whether in use or revoked. -/
def LabelsLeft (T : PairedDevices) : LabelAct → Prop
  | .pair device => devicesInUse T device.userId < maxDeviceLabelAttempts →
      NewDevice T device ∧ holders T device.userId device.label < maxDeviceLabelAttempts
  | _ => True

instance : ∀ T act, Decidable (LabelsLeft T act)
  | _, .pair _ => inferInstanceAs (Decidable (_ → _ ∧ _))
  | _, .rename .. => .isTrue trivial
  | _, .revoke .. => .isTrue trivial

section

variable {T T' : PairedDevices} {act : LabelAct} {reply : LabelReply} {tr : List (LabelAct × LabelReply)}

/-- **A pairing succeeds if labels are left.** -/
theorem pairingSucceeds_iff (h : labelMachine.step T act = some (T', reply)) :
    PairingSucceeds T act reply ↔ LabelsLeft T act := by
  cases act with
  | pair device =>
    have hcreated : (∃ d, reply = .paired d) ↔ (createPairedDevice T device).isSome := by
      cases hc : createPairedDevice T device with
      | none =>
        simp only [labelMachine, labelStep, hc] at h
        cases h
        refine iff_of_false ?_ (by simp)
        rintro ⟨d, ⟨⟩⟩
      | some r =>
        simp only [labelMachine, labelStep, hc] at h
        cases h
        exact iff_of_true ⟨r.2, rfl⟩ rfl
    rw [PairingSucceeds, LabelsLeft, hcreated, created_iff_holders]
  | rename | revoke => exact iff_of_true trivial trivial

/-- **In which histories every pairing succeeds.** -/
theorem pairings_succeed_iff (h : labelMachine.Run noDevices tr T) :
    (∀ xs act reply ys T₀, tr = xs ++ (act, reply) :: ys → labelMachine.Run noDevices xs T₀ →
      PairingSucceeds T₀ act reply) ↔ labelMachine.RunIn LabelsLeft noDevices tr T := by
  constructor
  · intro hall
    induction h with
    | nil => exact .nil
    | @snoc tr T₁ act T₂ reply hrun _ hstep ih =>
      refine .snoc (ih ?_) ?_ hstep
      · intro xs act' reply' ys T₀ htr hxs
        exact hall xs act' reply' (ys ++ [(act, reply)]) T₀ (by rw [htr]; simp) hxs
      · exact (pairingSucceeds_iff hstep).1 (hall tr act reply [] T₁ rfl hrun)
  · rintro hin xs act reply ys T₀ rfl hxs
    obtain ⟨T₁, T₂, hbefore, hleft, hstep, -⟩ := hin.split
    obtain rfl := hbefore.end_unique hxs
    exact (pairingSucceeds_iff hstep).2 hleft

end

namespace Sample

def chrome (id : String) : PairedDevice where
  id := .lit id
  userId := .lit "ada"
  label := .lit "Chrome"
  refreshTokenHash := .lit id
  previousRefreshTokenHash := none
  rotatedAt := none
  tokenFamilyId := .lit id
  allowedOrigin := .lit "https://tide-bot.com"
  extensionVersion := .lit "1.0"
  lastSeenAt := some 1
  revokedAt := none
  createdAt := 1
  updatedAt := 1

def pairAndRevoke (id : String) : List LabelAct := [.pair (chrome id), .revoke (.lit id) (.lit "ada") 2]

end Sample

/-- A device that was revoked is paired again. -/
theorem pairings_succeed_again : ∃ tr T, labelMachine.Run noDevices tr T ∧
    tr.map Prod.snd = [.paired (Sample.chrome "a"), .revoked, .paired { Sample.chrome "b" with label := .lit "Chrome (2)" }] ∧
    ∀ xs act reply ys T₀, tr = xs ++ (act, reply) :: ys → labelMachine.Run noDevices xs T₀ →
      PairingSucceeds T₀ act reply := by
  obtain ⟨⟨tr, T⟩, hm, hreplies⟩ : ∃ r ∈ labelMachine.exec LabelsLeft noDevices
      (Sample.pairAndRevoke "a" ++ [.pair (Sample.chrome "b")]), r.1.map Prod.snd =
        [.paired (Sample.chrome "a"), .revoked, .paired { Sample.chrome "b" with label := .lit "Chrome (2)" }] := by
    decide +kernel
  have hin := Machine.runIn_of_exec hm
  exact ⟨tr, T, hin.run, hreplies, (pairings_succeed_iff hin.run).2 hin⟩

/-- After five devices with one label were revoked, none can be paired with it. -/
theorem not_pairings_succeed : ¬∀ tr T, labelMachine.Run noDevices tr T → ∀ xs act reply ys T₀,
    tr = xs ++ (act, reply) :: ys → labelMachine.Run noDevices xs T₀ → PairingSucceeds T₀ act reply := by
  intro h
  obtain ⟨⟨tr, T⟩, hm, huse, hstep⟩ : ∃ r ∈ labelMachine.exec (fun _ _ => True) noDevices
      (["a", "b", "c", "d", "e"].flatMap Sample.pairAndRevoke), devicesInUse r.2 (.lit "ada") = 0 ∧
        (labelStep r.2 (.pair (Sample.chrome "f"))).2 = .labelInUse := by
    decide +kernel
  have hrun := Machine.runIn_of_exec hm
  obtain ⟨T', reply, hr⟩ : ∃ T' reply, labelStep T (.pair (Sample.chrome "f")) = (T', reply) := ⟨_, _, rfl⟩
  have hlast : labelMachine.step T (.pair (Sample.chrome "f")) = some (T', reply) := congrArg some hr
  have hfew : devicesInUse T (Sample.chrome "f").userId < maxDeviceLabelAttempts := huse.trans_lt (by decide)
  obtain ⟨d, hd⟩ := h _ T' (.snoc hrun trivial hlast) tr _ reply [] T rfl hrun hfew
  rw [hr, hd] at hstep
  cases hstep

end TideBot
