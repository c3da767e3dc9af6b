/-
  The table `browser_paired_device` and its statements
  (`models/browser_extension.py`, `BrowserPairedDeviceTable`).

  A row is a paired browser.  It stores the keyed hash of the current refresh
  credential, the hash it last rotated away from (`previousRefreshTokenHash`,
  with the time of that rotation, `rotatedAt`), and whether it is revoked
  (`revokedAt`).  Every method is one conditional `UPDATE … RETURNING`; an
  `UPDATE` that matches no row returns nothing, and one that breaks a unique
  constraint raises `IntegrityError` (`none`).

  `row_update` and `returned` say what such a statement does to the row of a
  device and what it returns; the proofs about the handlers use nothing else.
-/
import TideBot.Lib.Table
import TideBot.Lib.Text

namespace TideBot

open Lib

/-! ## The rows -/

/-- A row of `browser_paired_device` (`BrowserPairedDevice`). -/
structure PairedDevice where
  id : Text
  userId : Text
  label : Text
  refreshTokenHash : Text
  previousRefreshTokenHash : Option Text
  rotatedAt : Option ℤ
  tokenFamilyId : Text
  allowedOrigin : Text
  extensionVersion : Text
  lastSeenAt : Option ℤ
  revokedAt : Option ℤ
  createdAt : ℤ
  updatedAt : ℤ
  deriving DecidableEq

/-- The constraints of the table: the primary key, the unique hash, and
    `uq_browser_paired_device_user_label`. -/
def DeviceConstraints (rows : List PairedDevice) : Prop :=
  (rows.map PairedDevice.id).Nodup ∧ (rows.map PairedDevice.refreshTokenHash).Nodup ∧
    (rows.map fun r => (r.userId, r.label)).Nodup

instance : DecidablePred DeviceConstraints := fun rows =>
  inferInstanceAs (Decidable ((rows.map PairedDevice.id).Nodup ∧
    (rows.map PairedDevice.refreshTokenHash).Nodup ∧
    (rows.map fun r => (r.userId, r.label)).Nodup))

/-- The table `browser_paired_device`. -/
abbrev PairedDevices := Table PairedDevice DeviceConstraints

namespace PairedDevice

variable (r : PairedDevice)

/-- The `WHERE` of `rotate_refresh_token`. -/
def rotatable (deviceId tokenFamilyId currentHash : Text) : Bool :=
  r.id = deviceId ∧ r.tokenFamilyId = tokenFamilyId ∧ r.refreshTokenHash = currentHash ∧
    r.revokedAt = none

/-- The `SET` of `rotate_refresh_token`. -/
def rotated (currentHash newHash : Text) (extensionVersion : Option Text) (now : ℤ) :
    PairedDevice :=
  { r with
    refreshTokenHash := newHash
    previousRefreshTokenHash := some currentHash
    rotatedAt := some now
    lastSeenAt := some now
    updatedAt := now
    extensionVersion := extensionVersion.getD r.extensionVersion }

/-- The `WHERE` of `restore_rotated_refresh_token`. -/
def restorable (deviceId tokenFamilyId previousHash : Text) (notRotatedBefore : ℤ) : Bool :=
  r.id = deviceId ∧ r.tokenFamilyId = tokenFamilyId ∧
    r.previousRefreshTokenHash = some previousHash ∧
    (∃ t ∈ r.rotatedAt, notRotatedBefore ≤ t) ∧ r.revokedAt = none

/-- The `SET` of `restore_rotated_refresh_token`. -/
def restored (previousHash : Text) (now : ℤ) : PairedDevice :=
  { r with
    refreshTokenHash := previousHash
    previousRefreshTokenHash := none
    rotatedAt := none
    lastSeenAt := some now
    updatedAt := now }

/-- The `SET` of `revoke` and `revoke_token_family`. -/
def revoked (now : ℤ) : PairedDevice := { r with revokedAt := some now, updatedAt := now }

/-- The `SET` of `rename`. -/
def renamed (label : Text) (now : ℤ) : PairedDevice := { r with label := label, updatedAt := now }

end PairedDevice

namespace PairedDevices

variable (T : PairedDevices)

/-- The row with primary key `d`. -/
def row (d : Text) : Option PairedDevice := T.find PairedDevice.id d

/-! ## The statements -/

/-- `get_active_by_id` -/
def getActiveById (deviceId : Text) : Option PairedDevice :=
  (T.select fun r => r.id = deviceId ∧ r.revokedAt = none).head?

/-- A conditional `UPDATE` with its first returned row (`scalar_one_or_none`). -/
def updateReturning (p : PairedDevice → Bool) (f : PairedDevice → PairedDevice) :
    Option (PairedDevices × Option PairedDevice) :=
  (T.update p f).map fun res => (res.1, res.2.head?)

/-- `rotate_refresh_token`: compare and swap of the current hash. -/
def rotateRefreshToken (deviceId tokenFamilyId currentHash newHash : Text)
    (extensionVersion : Option Text) (now : ℤ) : Option (PairedDevices × Option PairedDevice) :=
  updateReturning T (·.rotatable deviceId tokenFamilyId currentHash)
    (·.rotated currentHash newHash extensionVersion now)

/-- `restore_rotated_refresh_token`: roll back to the hash the row just
    rotated away from, unless that was before `notRotatedBefore`. -/
def restoreRotatedRefreshToken (deviceId tokenFamilyId previousHash : Text)
    (notRotatedBefore now : ℤ) : Option (PairedDevices × Option PairedDevice) :=
  updateReturning T (·.restorable deviceId tokenFamilyId previousHash notRotatedBefore)
    (·.restored previousHash now)

/-- `revoke_token_family` (its row count is not used by any caller). -/
def revokeTokenFamily (tokenFamilyId : Text) (now : ℤ) :
    Option (PairedDevices × Option PairedDevice) :=
  updateReturning T (fun r => r.tokenFamilyId = tokenFamilyId ∧ r.revokedAt = none)
    (·.revoked now)

/-- `revoke` -/
def revoke (deviceId userId : Text) (now : ℤ) : Option (PairedDevices × Option PairedDevice) :=
  updateReturning T (fun r => r.id = deviceId ∧ r.userId = userId ∧ r.revokedAt = none)
    (·.revoked now)

/-- `rename` -/
def rename (deviceId userId label : Text) (now : ℤ) :
    Option (PairedDevices × Option PairedDevice) :=
  updateReturning T (fun r => r.id = deviceId ∧ r.userId = userId ∧ r.revokedAt = none)
    (·.renamed label now)

/-! ## What a statement does -/

variable {T} {T' : PairedDevices} {p : PairedDevice → Bool} {f : PairedDevice → PairedDevice}
  {res : Option PairedDevice}

theorem row_id {d : Text} {r : PairedDevice} (h : row T d = some r) : r.id = d :=
  Table.find_key _ h

theorem getActiveById_eq (T : PairedDevices) (d : Text) :
    getActiveById T d = (row T d).filter (·.revokedAt = none) := by
  rw [getActiveById, Table.head?_select PairedDevice.id T.ok.1 fun r hr => (by simpa using hr : _ ∧ _).1]
  rcases hr : row T d with _ | r
  · rw [show T.find PairedDevice.id d = none from hr]; rfl
  · rw [show T.find PairedDevice.id d = some r from hr]
    simp [Option.filter, row_id hr]

theorem row_update (h : updateReturning T p f = some (T', res)) (hf : ∀ r, (f r).id = r.id)
    (d : Text) : row T' d = (row T d).map fun r => if p r then f r else r := by
  obtain ⟨⟨T₁, rs⟩, hu, he⟩ := Option.map_eq_some_iff.1 h
  obtain ⟨rfl, -⟩ := Prod.mk.inj he
  exact Table.find_update _ hf hu d

theorem returned {d : Text} (h : updateReturning T p f = some (T', res))
    (hp : ∀ r, p r → r.id = d) : res = ((row T d).filter p).map f := by
  obtain ⟨⟨T₁, rs⟩, hu, he⟩ := Option.map_eq_some_iff.1 h
  obtain ⟨-, rfl⟩ := Prod.mk.inj he
  exact Table.returned_update _ T.ok.1 hp hu

theorem row_update_cases (h : updateReturning T p f = some (T', res)) (hf : ∀ r, (f r).id = r.id)
    (d : Text) : row T' d = row T d ∨ ∃ r, row T d = some r ∧ p r ∧ row T' d = some (f r) := by
  rw [row_update h hf]
  rcases hr : row T d with _ | r
  · exact Or.inl rfl
  · by_cases hp : p r
    · exact Or.inr ⟨r, rfl, hp, by simp [hp]⟩
    · exact Or.inl (by simp [hp])

theorem updateReturning_match {e : Text} {r : PairedDevice}
    (h : updateReturning T p f = some (T', res)) (hf : ∀ r, (f r).id = r.id)
    (hp : ∀ r, p r → r.id = e) (hr : row T e = some r) (hpr : p r) :
    res = some (f r) ∧ row T' e = some (f r) := by
  have hres := returned h hp
  rw [hr] at hres
  refine ⟨by simpa [Option.filter, hpr] using hres, ?_⟩
  rw [row_update h hf, hr]; simp [hpr]

/-- An update of the one row with key `e` either matches nothing, or changes
    that row and returns it. -/
theorem updateReturning_cases {e : Text} (h : updateReturning T p f = some (T', res))
    (hf : ∀ r, (f r).id = r.id) (hp : ∀ r, p r → r.id = e) :
    (res = none ∧ ∀ d, row T' d = row T d) ∨
      ∃ r, row T e = some r ∧ p r ∧ res = some (f r) ∧ row T' e = some (f r) ∧
        ∀ d, d ≠ e → row T' d = row T d := by
  have hne : ∀ d, d ≠ e → row T' d = row T d := by
    intro d hd
    rcases row_update_cases h hf d with h' | ⟨r, hr, hpr, -⟩
    · exact h'
    · exact absurd ((row_id hr).symm.trans (hp r hpr)) hd
  by_cases hm : ∃ r, row T e = some r ∧ p r
  · obtain ⟨r, hr, hpr⟩ := hm
    obtain ⟨hres, hrow⟩ := updateReturning_match h hf hp hr hpr
    exact Or.inr ⟨r, hr, hpr, hres, hrow, hne⟩
  · push Not at hm
    refine Or.inl ⟨?_, ?_⟩
    · have hres := returned h hp
      rcases hr : row T e with _ | r
      · simp [hres, hr]
      · simp [hres, hr, hm r hr, Option.filter]
    · intro d
      by_cases hd : d = e
      · subst hd
        rcases row_update_cases h hf d with h' | ⟨r, hr, hpr, -⟩
        · exact h'
        · exact absurd hpr (hm r hr)
      · exact hne d hd

/-! ## Statements that break no constraint -/

theorem updateReturning_noMatch (h : ∀ r ∈ T.rows, ¬ p r) :
    updateReturning T p f = some (T, none) := by
  have hrows : Table.updated p f T.rows = T.rows := by
    rw [Table.updated, List.map_congr_left (g := id) fun r hr => by simp [h r hr], List.map_id]
  have hsel : T.rows.filter p = [] := List.filter_eq_nil_iff.2 h
  rw [updateReturning, Table.update, dif_pos (by rw [hrows]; exact T.ok)]
  simp only [Option.map_some, hsel, List.map_nil, List.head?_nil, Option.some.injEq, Prod.mk.injEq,
    and_true]
  cases T; simp only at hrows; simp [hrows]

theorem updateReturning_isSome (hid : ∀ r, (f r).id = r.id)
    (hh : ∀ r, (f r).refreshTokenHash = r.refreshTokenHash)
    (hl : ∀ r, ((f r).userId, (f r).label) = (r.userId, r.label)) :
    ∃ T' res, updateReturning T p f = some (T', res) := by
  have hK : DeviceConstraints (Table.updated p f T.rows) := by
    unfold DeviceConstraints
    rw [Table.map_updated _ hid, Table.map_updated _ hh, Table.map_updated _ hl]
    exact T.ok
  exact ⟨_, _, by rw [updateReturning, Table.update, dif_pos hK]; rfl⟩

theorem rotateRefreshToken_isSome (deviceId family current new : Text) (version : Option Text)
    (now : ℤ) (hnew : ∀ r ∈ T.rows, r.refreshTokenHash ≠ new) :
    ∃ T' res, rotateRefreshToken T deviceId family current new version now = some (T', res) := by
  set p : PairedDevice → Bool := (·.rotatable deviceId family current) with hp
  set f : PairedDevice → PairedDevice := (·.rotated current new version now)
  have hid : ∀ r, p r → r.id = deviceId := by
    intro r hr
    simp only [hp, PairedDevice.rotatable, decide_eq_true_eq] at hr
    exact hr.1
  have hnd : T.rows.Nodup := T.ok.1.of_map
  have hhash : ((Table.updated p f T.rows).map PairedDevice.refreshTokenHash).Nodup := by
    rw [Table.updated, List.map_map]
    refine hnd.map_on ?_
    intro x hx y hy hxy
    simp only [Function.comp_apply] at hxy
    split_ifs at hxy with hpx hpy hpy
    · exact List.inj_on_of_nodup_map T.ok.1 hx hy ((hid x hpx).trans (hid y hpy).symm)
    · exact absurd hxy.symm (hnew y hy)
    · exact absurd hxy (hnew x hx)
    · exact List.inj_on_of_nodup_map T.ok.2.1 hx hy hxy
  have hK : DeviceConstraints (Table.updated p f T.rows) :=
    ⟨by rw [Table.map_updated (f := f) _ fun _ => rfl]; exact T.ok.1, hhash,
      by rw [Table.map_updated (f := f) _ fun _ => rfl]; exact T.ok.2.2⟩
  exact ⟨_, _, by rw [rotateRefreshToken, updateReturning, Table.update, dif_pos hK]; rfl⟩

end PairedDevices

end TideBot
