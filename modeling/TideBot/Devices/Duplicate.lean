/-
  Two refresh requests with the same credential, inside the grace window.

  A client that lost a response presents its credential again.  If the second
  request reads the row after the first has rotated it, the credential is the
  previous one and is restored.  If it read the row before that, it tries to
  rotate as well, its compare and swap finds another hash, and the whole token
  family is revoked.  `duplicateRefresh_active_iff`: over all interleavings of
  two such requests, the device stays active exactly when they do not both read
  the row before the first rotation (`Overlap`).

  `Phase` is the invariant: no rotation yet; one request has rotated and the
  other still holds the old row (`stale`) or not (`fresh`); or both are done.
-/
import TideBot.Devices.Refresh

namespace TideBot

open Lib

/-- Requests `i` and `j` are about to read the row `r` of device `d`; both
    present its current credential and pass the origin check. -/
structure Duplicate (env : RefreshEnv) (w₀ : World) (i j : ℕ) (d : Text) (r : PairedDevice) :
    Prop where
  ne : i ≠ j
  row : w₀.device d = some r
  active : r.revokedAt = none
  /-- a hash is a hex digest -/
  hash_ne : r.refreshTokenHash ≠ []
  known : ∀ d r, w₀.device d = some r → r.refreshTokenHash ∈ w₀.issued
  waiting : ∀ x, x = i ∨ x = j → ∃ form settings,
    w₀.requests x = some (.reading form settings ⟨d, r.tokenFamilyId⟩) ∧
    env.hashBrowserToken form.refreshToken = r.refreshTokenHash ∧
    ∃ o, env.validateServerOrigin settings r.allowedOrigin = .ok o ∧
      env.validateServerOrigin settings form.origin = .ok o

/-- The steps of `i` and `j`, with permission granted. -/
def OfPair (i j : ℕ) (_ : World) : Act → Prop
  | .read x | .rotate x _ _ | .restore x _ _ | .revokeFamily x _ => x = i ∨ x = j
  | .check x allowed => (x = i ∨ x = j) ∧ allowed
  | _ => False

instance (i j : ℕ) (w : World) (a : Act) : Decidable (OfPair i j w a) := by
  cases a <;> unfold OfPair <;> infer_instance

/-- The clock reading that a rotation records in the row. -/
def Act.rotatedAt : Act → Option ℤ
  | .rotate _ _ now => some now
  | _ => none

/-- The clock reading a restoration measures the grace window from. -/
def Act.restoredAt : Act → Option ℤ
  | .restore _ clock _ => some clock
  | _ => none

/-- Every restoration reads the clock at most the grace window after every
    rotation did. -/
def WithinGrace (tr : List (Act × Option Commit)) : Prop :=
  ∀ e ∈ tr, ∀ now ∈ e.1.rotatedAt, ∀ e' ∈ tr, ∀ clock ∈ e'.1.restoredAt,
    clock - now ≤ rotationGrace

instance : DecidablePred WithinGrace := fun _ => by unfold WithinGrace; infer_instance

/-- Request `x` has been answered. -/
def World.Done (w : World) (x : ℕ) : Prop := ∃ reply, w.requests x = some (.done reply)

instance (w : World) (x : ℕ) : Decidable (w.Done x) :=
  decidable_of_iff ((w.requests x).any fun pc => pc matches .done _) (by
    unfold World.Done
    rcases w.requests x with _ | pc
    · simp
    · cases pc <;> simp)

/-- Device `d` is not revoked. -/
def World.Active (w : World) (d : Text) : Prop := ∃ r ∈ w.device d, r.revokedAt = none

instance (w : World) (d : Text) : Decidable (w.Active d) := by unfold World.Active; infer_instance

def Act.isRotate : Act → Bool
  | .rotate _ _ _ => true
  | _ => false

/-- The steps before the first rotation. -/
def beforeRotation (tr : List (Act × Option Commit)) : List Act :=
  (tr.map Prod.fst).takeWhile fun a => !a.isRotate

/-- Both requests read the row before the first rotation. -/
def Overlap (i j : ℕ) (tr : List (Act × Option Commit)) : Prop :=
  Act.read i ∈ beforeRotation tr ∧ Act.read j ∈ beforeRotation tr

instance (i j : ℕ) : DecidablePred (Overlap i j) := fun _ => by unfold Overlap; infer_instance

theorem beforeRotation_snoc_of_rotate {tr : List (Act × Option Commit)} {e e' : Act × Option Commit}
    (h : e ∈ tr) (hr : e.1.isRotate) : beforeRotation (tr ++ [e']) = beforeRotation tr := by
  unfold beforeRotation
  obtain ⟨xs, ys, rfl⟩ := List.append_of_mem h
  simp only [List.map_append, List.map_cons, List.append_assoc, List.cons_append]
  induction xs with
  | nil => simp [hr]
  | cons x xs ih =>
    simp only [List.map_cons, List.cons_append, List.takeWhile_cons]
    split
    · rw [ih (by simp)]
    · rfl

theorem beforeRotation_of_none {tr : List (Act × Option Commit)}
    (h : ∀ e ∈ tr, ¬ e.1.isRotate) : beforeRotation tr = tr.map Prod.fst := by
  refine List.takeWhile_eq_self_iff.2 ?_
  intro a ha
  obtain ⟨e, he, rfl⟩ := List.mem_map.1 ha
  simpa using h e he

theorem beforeRotation_snoc_rotate {tr : List (Act × Option Commit)} {e : Act × Option Commit}
    (h : ∀ e ∈ tr, ¬ e.1.isRotate) (he : e.1.isRotate) :
    beforeRotation (tr ++ [e]) = beforeRotation tr := by
  have hall : ∀ a ∈ tr.map Prod.fst, (!a.isRotate) = true := by
    intro a ha
    obtain ⟨e, he, rfl⟩ := List.mem_map.1 ha
    simpa using h e he
  rw [beforeRotation_of_none h, beforeRotation, List.map_append,
    List.takeWhile_append_of_pos hall]
  simp [he]

section
variable {env : RefreshEnv} {w₀ : World} {i j : ℕ} {d : Text} {r : PairedDevice}

/-- A request that has not read, or that has read the row `r` and presents
    its current credential. -/
def HoldsOld (env : RefreshEnv) (r : PairedDevice) (w : World) (x : ℕ) : Prop :=
  ∃ form, env.hashBrowserToken form.refreshToken = r.refreshTokenHash ∧
    (w.requests x = some (.checking form r) ∨ w.requests x = some (.rotating form r))

/-- A request that read the row after the rotation. -/
def HoldsNew (env : RefreshEnv) (r r₁ : PairedDevice) (w : World) (x : ℕ) : Prop :=
  ∃ form, env.hashBrowserToken form.refreshToken = r.refreshTokenHash ∧
    (w.requests x = some (.checking form r₁) ∨ w.requests x = some (.restoring form r₁))

/-- No rotation yet: the table is as it was, and each of the two requests is
    still about to read it, or holds the row. -/
structure Unrotated (env : RefreshEnv) (w₀ : World) (i j : ℕ) (r : PairedDevice)
    (tr : List (Act × Option Commit)) (w : World) : Prop where
  devices : w.devices = w₀.devices
  issued : w.issued = w₀.issued
  noRotation : ∀ e ∈ tr, ¬ e.1.isRotate
  place : ∀ x, x = i ∨ x = j →
    (w.requests x = w₀.requests x ∧ Act.read x ∉ beforeRotation tr) ∨
      (Act.read x ∈ beforeRotation tr ∧ HoldsOld env r w x)

/-- Where the two requests can be. -/
inductive Phase (env : RefreshEnv) (w₀ : World) (i j : ℕ) (d : Text) (r : PairedDevice)
    (tr : List (Act × Option Commit)) (w : World) : Prop
  | before : Unrotated env w₀ i j r tr w → Phase env w₀ i j d r tr w
  /-- `k` has rotated; `l` read before that, and is bound to revoke -/
  | stale {k l token now c r₁} : (k = i ∧ l = j) ∨ (k = j ∧ l = i) → w.Done k →
      (Act.rotate k token now, c) ∈ tr → w.device d = some r₁ →
      r₁.refreshTokenHash ≠ r.refreshTokenHash → r₁.revokedAt = none →
      r₁.tokenFamilyId = r.tokenFamilyId → Overlap i j tr →
      (HoldsOld env r w l ∨ ∃ reply, w.requests l = some (.revoking r.tokenFamilyId reply)) →
      Phase env w₀ i j d r tr w
  /-- `k` has rotated; `l` reads, or has read, after that -/
  | fresh {k l token now c n version} : (k = i ∧ l = j) ∨ (k = j ∧ l = i) → w.Done k →
      (Act.rotate k token now, c) ∈ tr →
      w.device d = some (r.rotated r.refreshTokenHash n version now) → n ≠ r.refreshTokenHash →
      ¬ Overlap i j tr →
      (w.requests l = w₀.requests l ∨
        HoldsNew env r (r.rotated r.refreshTokenHash n version now) w l) →
      Phase env w₀ i j d r tr w
  | settled : w.Done i → w.Done j → (w.Active d ↔ ¬ Overlap i j tr) → Phase env w₀ i j d r tr w

/-! ## The steps -/

@[simp] theorem World.requests_goto (w : World) (x y : ℕ) (pc : Pc) :
    (w.goto x pc).requests y = if y = x then some pc else w.requests y := by
  simp [World.goto, Function.update_apply]

theorem World.Done.goto {w w' : World} {x : ℕ} {pc : Pc} {y : ℕ} (h : w.Done y) (hy : y ≠ x)
    (hw : w'.requests = w.requests := by rfl) : (w'.goto x pc).Done y := by
  obtain ⟨reply, h⟩ := h
  exact ⟨reply, by simp [hy, hw, h]⟩

theorem World.done_goto_self (w : World) (x : ℕ) (reply : RefreshReply) :
    (w.goto x (.done reply)).Done x := ⟨reply, by simp⟩

theorem pair_step_cases {w w' : World} {a : Act} {c : Option Commit} (hC : OfPair i j w a)
    (h : World.step env w a = some (w', c)) :
    ∃ x, (x = i ∨ x = j) ∧
      ((∃ form settings who, a = .read x ∧ w.requests x = some (.reading form settings who)) ∨
       (∃ form device, a = .check x true ∧ w.requests x = some (.checking form device)) ∨
       (∃ form device token now, a = .rotate x token now ∧
          w.requests x = some (.rotating form device)) ∨
       (∃ form device clock now, a = .restore x clock now ∧
          w.requests x = some (.restoring form device)) ∨
       ∃ family reply now, a = .revokeFamily x now ∧
          w.requests x = some (.revoking family reply)) := by
  cases a with
  | refresh | revoke | rename => cases hC
  | read x =>
    simp only [World.step] at h
    split at h
    · rename_i form settings who hpc
      exact ⟨x, hC, Or.inl ⟨form, settings, who, rfl, hpc⟩⟩
    · cases h
  | check x allowed =>
    obtain ⟨hx, rfl⟩ := hC
    simp only [World.step] at h
    split at h
    · rename_i form device hpc
      exact ⟨x, hx, Or.inr (Or.inl ⟨form, device, rfl, hpc⟩)⟩
    · cases h
  | rotate x token now =>
    simp only [World.step] at h
    split at h
    · rename_i form device hpc
      exact ⟨x, hC, Or.inr (Or.inr (Or.inl ⟨form, device, token, now, rfl, hpc⟩))⟩
    · cases h
  | restore x clock now =>
    simp only [World.step] at h
    split at h
    · rename_i form device hpc
      exact ⟨x, hC, Or.inr (Or.inr (Or.inr (Or.inl ⟨form, device, clock, now, rfl, hpc⟩)))⟩
    · cases h
  | revokeFamily x now =>
    simp only [World.step] at h
    split at h
    · rename_i family reply hpc
      exact ⟨x, hC, Or.inr (Or.inr (Or.inr (Or.inr ⟨family, reply, now, rfl, hpc⟩)))⟩
    · cases h

/-- A request that reads an active row of its family at an approved origin
    goes on to the permission check. -/
theorem afterRead_checking {form : RefreshTokenForm} {settings : RuntimeSettings} {r₁ : PairedDevice}
    {o : Text} (hf : r₁.tokenFamilyId = r.tokenFamilyId)
    (h₁ : env.validateServerOrigin settings r₁.allowedOrigin = .ok o)
    (h₂ : env.validateServerOrigin settings form.origin = .ok o) :
    afterRead env form settings ⟨d, r.tokenFamilyId⟩ (some r₁) = .checking form r₁ := by
  simp [afterRead, hf, h₁, h₂]

theorem getActiveById_device {w : World} {r₁ : PairedDevice} (h : w.device d = some r₁)
    (hr : r₁.revokedAt = none) : PairedDevices.getActiveById w.devices d = some r₁ := by
  rw [PairedDevices.getActiveById_eq, show PairedDevices.row w.devices d = some r₁ from h]
  simp [Option.filter, hr]

theorem Overlap.snoc_iff {tr : List (Act × Option Commit)} {x : ℕ} {token : Text} {now : ℤ}
    {c : Option Commit} (h : (Act.rotate x token now, c) ∈ tr) (e : Act × Option Commit) :
    Overlap i j (tr ++ [e]) ↔ Overlap i j tr := by
  rw [Overlap, Overlap, beforeRotation_snoc_of_rotate h rfl]

section
variable {tr : List (Act × Option Commit)} {w w' : World} {a : Act} {c : Option Commit} {x : ℕ}
  {pc : Pc}

theorem Unrotated.held (hU : Unrotated env w₀ i j r tr w) (hdup : Duplicate env w₀ i j d r)
    (hx : x = i ∨ x = j) (hat : w.requests x = some pc)
    (hpc : ∀ form settings who, pc ≠ .reading form settings who) :
    Act.read x ∈ beforeRotation tr ∧
      ∃ form, env.hashBrowserToken form.refreshToken = r.refreshTokenHash ∧
        (pc = .checking form r ∨ pc = .rotating form r) := by
  rcases hU.place x hx with ⟨hsame, -⟩ | ⟨hread, form, hhash, hold⟩
  · obtain ⟨form, settings, hw₀, -⟩ := hdup.waiting x hx
    rw [hsame, hw₀] at hat
    exact absurd (Option.some.inj hat).symm (hpc _ _ _)
  · rw [hat] at hold
    exact ⟨hread, form, hhash, hold.imp Option.some.inj Option.some.inj⟩

theorem Unrotated.keep (hU : Unrotated env w₀ i j r tr w) (ha : ¬ a.isRotate)
    (hread : Act.read x ∈ beforeRotation tr ++ [a])
    (hform : ∃ form, env.hashBrowserToken form.refreshToken = r.refreshTokenHash ∧
      (pc = .checking form r ∨ pc = .rotating form r))
    (hother : ∀ y, y ≠ x → a ≠ .read y) :
    Unrotated env w₀ i j r (tr ++ [(a, c)]) (w.goto x pc) := by
  have hno : ∀ e ∈ tr ++ [(a, c)], ¬ e.1.isRotate := by
    intro e he
    rcases List.mem_append.1 he with he | he
    · exact hU.noRotation e he
    · rw [List.mem_singleton.1 he]; exact ha
  have hbr : beforeRotation (tr ++ [(a, c)]) = beforeRotation tr ++ [a] := by
    rw [beforeRotation_of_none hno, beforeRotation_of_none hU.noRotation]; simp
  refine ⟨hU.devices, hU.issued, hno, ?_⟩
  intro y hy
  by_cases hyx : y = x
  · subst hyx
    obtain ⟨form, hhash, hform⟩ := hform
    refine Or.inr ⟨hbr ▸ hread, form, hhash, ?_⟩
    rcases hform with rfl | rfl
    · exact Or.inl (by simp)
    · exact Or.inr (by simp)
  · rcases hU.place y hy with ⟨hsame, hnr⟩ | ⟨hr, form, hhash, hold⟩
    · refine Or.inl ⟨by simp [hyx, hsame], ?_⟩
      rw [hbr, List.mem_append, List.mem_singleton]
      rintro (h' | h')
      · exact hnr h'
      · exact hother y hyx h'.symm
    · exact Or.inr ⟨by rw [hbr]; exact List.mem_append_left _ hr, form, hhash,
        by simpa [hyx] using hold⟩

theorem Unrotated.rotated (hU : Unrotated env w₀ i j r tr w) (hdup : Duplicate env w₀ i j d r)
    {form : RefreshTokenForm} {token : Text} {now : ℤ}
    (hat : w.requests x = some (.rotating form r))
    (hhash : env.hashBrowserToken form.refreshToken = r.refreshTokenHash)
    (h : World.step env w (.rotate x token now) = some (w', c)) :
    w'.Done x ∧ (∀ y, y ≠ x → w'.requests y = w.requests y) ∧
      ∃ n version, n ≠ r.refreshTokenHash ∧
        w'.device d = some (r.rotated r.refreshTokenHash n version now) := by
  have hrow : w.device d = some r := by rw [World.device, hU.devices]; exact hdup.row
  have hid : r.id = d := PairedDevices.row_id hdup.row
  have hknown : ∀ r' ∈ w.devices.rows, r'.refreshTokenHash ∈ w₀.issued := by
    intro r' hr'
    rw [hU.devices] at hr'
    exact hdup.known r'.id r' (Table.find_of_mem _ w₀.devices.ok.1 hr')
  simp only [World.step, hat] at h
  split_ifs at h with hfresh
  rw [hU.issued] at hfresh
  obtain ⟨T, res, hT⟩ := PairedDevices.rotateRefreshToken_isSome (T := w.devices) r.id
    r.tokenFamilyId (env.hashBrowserToken form.refreshToken) (env.hashBrowserToken token)
    (some form.extensionVersion) now fun r' hr' he => hfresh (he ▸ hknown r' hr')
  rw [hT] at h
  cases h
  have hmatch : r.rotatable r.id r.tokenFamilyId (env.hashBrowserToken form.refreshToken) := by
    simp [PairedDevice.rotatable, hhash, hdup.active]
  obtain ⟨rfl, hrow'⟩ := PairedDevices.updateReturning_match (e := d) hT (fun _ => rfl) (by
    intro r' hr'
    simp only [PairedDevice.rotatable, decide_eq_true_eq] at hr'
    exact hr'.1.trans hid) hrow hmatch
  rw [hhash] at hrow'
  refine ⟨World.done_goto_self _ _ _, fun y hy => by simp [hy], _, _, ?_, hrow'⟩
  intro he
  exact hfresh (he ▸ hdup.known d r hdup.row)

/-- After the first rotation, the other request still waits, or holds the old row. -/
theorem Unrotated.rotate (hU : Unrotated env w₀ i j r tr w) (hdup : Duplicate env w₀ i j d r)
    (hx : x = i ∨ x = j) {form : RefreshTokenForm} {token : Text} {now : ℤ}
    (hat : w.requests x = some (.rotating form r))
    (hhash : env.hashBrowserToken form.refreshToken = r.refreshTokenHash)
    (hread : Act.read x ∈ beforeRotation tr)
    (h : World.step env w (.rotate x token now) = some (w', c)) :
    Phase env w₀ i j d r (tr ++ [(.rotate x token now, c)]) w' := by
  obtain ⟨hdone, hreq, n, version, hn, hrow'⟩ := hU.rotated hdup hat hhash h
  have hbr : beforeRotation (tr ++ [(Act.rotate x token now, c)]) = beforeRotation tr :=
    beforeRotation_snoc_rotate hU.noRotation rfl
  have hrot : (Act.rotate x token now, c) ∈ tr ++ [(Act.rotate x token now, c)] :=
    List.mem_append_right _ (List.mem_singleton.2 rfl)
  obtain ⟨l, hl, hlx⟩ : ∃ l, ((x = i ∧ l = j) ∨ (x = j ∧ l = i)) ∧ l ≠ x := by
    rcases hx with rfl | rfl
    · exact ⟨j, Or.inl ⟨rfl, rfl⟩, hdup.ne.symm⟩
    · exact ⟨i, Or.inr ⟨rfl, rfl⟩, hdup.ne⟩
  have hlij : l = i ∨ l = j := by omega
  rcases hU.place l hlij with ⟨hsame, hnr⟩ | ⟨hrl, form', hhash', hold⟩
  · refine .fresh hl hdone hrot hrow' hn ?_ (Or.inl ((hreq l hlx).trans hsame))
    rw [Overlap, hbr]
    rintro ⟨h₁, h₂⟩
    rcases hl with ⟨-, rfl⟩ | ⟨-, rfl⟩
    · exact hnr h₂
    · exact hnr h₁
  · refine .stale hl hdone hrot hrow' hn hdup.active rfl ?_
      (Or.inl ⟨form', hhash', by rw [hreq l hlx]; exact hold⟩)
    rw [Overlap, hbr]
    rcases hl with ⟨rfl, rfl⟩ | ⟨rfl, rfl⟩
    · exact ⟨hread, hrl⟩
    · exact ⟨hrl, hread⟩

theorem Unrotated.step (hU : Unrotated env w₀ i j r tr w) (hdup : Duplicate env w₀ i j d r)
    (hC : OfPair i j w a) (h : World.step env w a = some (w', c)) :
    Phase env w₀ i j d r (tr ++ [(a, c)]) w' := by
  have hrow : w.device d = some r := by rw [World.device, hU.devices]; exact hdup.row
  obtain ⟨x, hx, hcase⟩ := pair_step_cases hC h
  rcases hcase with ⟨form, settings, who, rfl, hat⟩ | ⟨form, device, rfl, hat⟩ |
    ⟨form, device, token, now, rfl, hat⟩ | ⟨form, device, clock, now, rfl, hat⟩ |
    ⟨family, reply, now, rfl, hat⟩
  · -- the request reads `r`
    rcases hU.place x hx with ⟨hsame, -⟩ | ⟨-, form', -, hold⟩
    · obtain ⟨form', settings', hw₀, hhash, o, ho₁, ho₂⟩ := hdup.waiting x hx
      rw [hsame, hw₀] at hat
      cases hat
      simp only [World.step, hsame, hw₀, getActiveById_device hrow hdup.active,
        afterRead_checking (d := d) rfl ho₁ ho₂] at h
      cases h
      exact .before (hU.keep (by simp [Act.isRotate]) (by simp) ⟨form, hhash, Or.inl rfl⟩
        fun y hy he => hy (Act.read.inj he).symm)
    · rw [hat] at hold
      rcases hold with hold | hold <;> cases hold
  · -- the credential is the current one of `r`
    obtain ⟨hread, form', hhash, hold | hold⟩ := hU.held hdup hx hat (by simp)
    · cases hold
      simp only [World.step, hat, afterCheck, hhash, Bool.not_true, Bool.false_eq_true, if_false,
        ne_eq, not_true_eq_false] at h
      cases h
      exact .before (hU.keep (by simp [Act.isRotate]) (List.mem_append_left _ hread)
        ⟨form, hhash, Or.inr rfl⟩ fun y hy he => by cases he)
    · cases hold
  · -- the first rotation
    obtain ⟨hread, form', hhash, hold | hold⟩ := hU.held hdup hx hat (by simp)
    · cases hold
    · cases hold
      exact hU.rotate hdup hx hat hhash hread h
  · obtain ⟨-, form', -, hold | hold⟩ := hU.held hdup hx hat (by simp) <;> cases hold
  · obtain ⟨-, form', -, hold | hold⟩ := hU.held hdup hx hat (by simp) <;> cases hold

end

theorem World.Done.other {w : World} {k l x : ℕ} {pc : Pc} (hk : w.Done k)
    (hkl : (k = i ∧ l = j) ∨ (k = j ∧ l = i)) (hx : x = i ∨ x = j)
    (hat : w.requests x = some pc) (hpc : ∀ reply, pc ≠ .done reply) : x = l := by
  obtain ⟨reply, hk⟩ := hk
  have hxk : x ≠ k := by
    rintro rfl
    rw [hat] at hk
    exact hpc reply (Option.some.inj hk)
  omega

theorem ne_of_pair (hne : i ≠ j) {k l : ℕ} (hkl : (k = i ∧ l = j) ∨ (k = j ∧ l = i)) : k ≠ l := by
  omega

theorem Phase.settle {tr : List (Act × Option Commit)} {w : World} {k l : ℕ}
    (hkl : (k = i ∧ l = j) ∨ (k = j ∧ l = i)) (hk : w.Done k) (hl : w.Done l)
    (h : w.Active d ↔ ¬ Overlap i j tr) : Phase env w₀ i j d r tr w := by
  rcases hkl with ⟨rfl, rfl⟩ | ⟨rfl, rfl⟩
  · exact .settled hk hl h
  · exact .settled hl hk h

/-- One has rotated, and the other holds the row as it was before: its
    compare and swap misses, and it revokes the family. -/
theorem Phase.stale_step (hdup : Duplicate env w₀ i j d r) {tr : List (Act × Option Commit)}
    {w w' : World} {a : Act} {c : Option Commit} (hC : OfPair i j w a)
    (h : World.step env w a = some (w', c)) {k l : ℕ} {token : Text} {now : ℤ} {c₁ : Option Commit}
    {r₁ : PairedDevice} (hkl : (k = i ∧ l = j) ∨ (k = j ∧ l = i)) (hk : w.Done k)
    (hrot : (Act.rotate k token now, c₁) ∈ tr) (hrow : w.device d = some r₁)
    (hne : r₁.refreshTokenHash ≠ r.refreshTokenHash) (hact : r₁.revokedAt = none)
    (hfam : r₁.tokenFamilyId = r.tokenFamilyId) (hov : Overlap i j tr)
    (hl : HoldsOld env r w l ∨ ∃ reply, w.requests l = some (.revoking r.tokenFamilyId reply)) :
    Phase env w₀ i j d r (tr ++ [(a, c)]) w' := by
  have hkne : k ≠ l := ne_of_pair hdup.ne hkl
  have hrot' : (Act.rotate k token now, c₁) ∈ tr ++ [(a, c)] := List.mem_append_left _ hrot
  have hov' : Overlap i j (tr ++ [(a, c)]) := (Overlap.snoc_iff hrot _).2 hov
  obtain ⟨x, hx, hcase⟩ := pair_step_cases hC h
  rcases hcase with ⟨form, settings, who, rfl, hat⟩ | ⟨form, device, rfl, hat⟩ |
    ⟨form, device, token', now', rfl, hat⟩ | ⟨form, device, clock, now', rfl, hat⟩ |
    ⟨family, reply, now', rfl, hat⟩
  all_goals
    obtain rfl : x = l := hk.other hkl hx hat (by simp)
    rcases hl with ⟨form', hhash, hold | hold⟩ | ⟨reply', hold⟩ <;> rw [hat] at hold <;> cases hold
  · simp only [World.step, hat, afterCheck, hhash, Bool.not_true, Bool.false_eq_true, if_false,
      ne_eq, not_true_eq_false] at h
    cases h
    exact .stale hkl (hk.goto hkne) hrot' hrow hne hact hfam hov'
      (Or.inl ⟨form, hhash, Or.inr (by simp)⟩)
  · -- the compare and swap misses
    have hmiss : ∀ r' ∈ w.devices.rows,
        ¬ r'.rotatable r.id r.tokenFamilyId (env.hashBrowserToken form.refreshToken) := by
      intro r' hr' hp
      simp only [PairedDevice.rotatable, decide_eq_true_eq] at hp
      have hr'd : w.device d = some r' := by
        rw [← PairedDevices.row_id hdup.row, ← hp.1]
        exact Table.find_of_mem _ w.devices.ok.1 hr'
      rw [hrow] at hr'd
      cases hr'd
      exact hne (hp.2.2.1.trans hhash)
    simp only [World.step, hat] at h
    split_ifs at h
    rw [PairedDevices.rotateRefreshToken, PairedDevices.updateReturning_noMatch hmiss] at h
    cases h
    exact .stale hkl (hk.goto hkne) hrot' hrow hne hact hfam hov'
      (Or.inr ⟨.invalidCredential, by simp [afterUpdate]⟩)
  · -- the family is revoked
    simp only [World.step, hat] at h
    obtain ⟨T, res, hT⟩ := PairedDevices.updateReturning_isSome (T := w.devices)
      (p := fun r' => r'.tokenFamilyId = r.tokenFamilyId ∧ r'.revokedAt = none)
      (f := (·.revoked now')) (fun _ => rfl) (fun _ => rfl) fun _ => rfl
    rw [PairedDevices.revokeTokenFamily, hT] at h
    cases h
    refine Phase.settle hkl (hk.goto hkne) (World.done_goto_self _ _ _) ?_
    have hrow' : PairedDevices.row T d = some (r₁.revoked now') := by
      rw [PairedDevices.row_update hT (fun _ => rfl), show PairedDevices.row w.devices d = _ from hrow]
      simp [hfam, hact]
    refine iff_of_false ?_ (not_not.2 hov')
    rintro ⟨r', hr', hr'act⟩
    cases hrow'.symm.trans hr'
    cases hr'act

/-- One has rotated, and the other reads after that: it restores, or the
    database refuses the restoration; the device stays active. -/
theorem Phase.fresh_step (hdup : Duplicate env w₀ i j d r) {tr : List (Act × Option Commit)}
    {w w' : World} {a : Act} {c : Option Commit} (hC : OfPair i j w a)
    (hgrace : WithinGrace (tr ++ [(a, c)]))
    (h : World.step env w a = some (w', c)) {k l : ℕ} {token : Text} {now : ℤ} {c₁ : Option Commit}
    {n : Text} {version : Option Text} (hkl : (k = i ∧ l = j) ∨ (k = j ∧ l = i)) (hk : w.Done k)
    (hrot : (Act.rotate k token now, c₁) ∈ tr)
    (hrow : w.device d = some (r.rotated r.refreshTokenHash n version now))
    (hne : n ≠ r.refreshTokenHash) (hov : ¬ Overlap i j tr)
    (hl : w.requests l = w₀.requests l ∨
      HoldsNew env r (r.rotated r.refreshTokenHash n version now) w l) :
    Phase env w₀ i j d r (tr ++ [(a, c)]) w' := by
  set r₁ := r.rotated r.refreshTokenHash n version now with hr₁
  have hkne : k ≠ l := ne_of_pair hdup.ne hkl
  have hact : r₁.revokedAt = none := hdup.active
  have hrot' : (Act.rotate k token now, c₁) ∈ tr ++ [(a, c)] := List.mem_append_left _ hrot
  have hov' : ¬ Overlap i j (tr ++ [(a, c)]) := mt (Overlap.snoc_iff hrot _).1 hov
  obtain ⟨form₀, settings₀, hw₀, hhash₀, o, ho₁, ho₂⟩ :=
    hdup.waiting l (by rcases hkl with ⟨-, rfl⟩ | ⟨-, rfl⟩ <;> simp)
  rw [hw₀] at hl
  obtain ⟨x, hx, hcase⟩ := pair_step_cases hC h
  rcases hcase with ⟨form, settings, who, rfl, hat⟩ | ⟨form, device, rfl, hat⟩ |
    ⟨form, device, token', now', rfl, hat⟩ | ⟨form, device, clock, now', rfl, hat⟩ |
    ⟨family, reply, now', rfl, hat⟩
  all_goals
    obtain rfl : x = l := hk.other hkl hx hat (by simp)
    rcases hl with hold | ⟨form', hhash, hold | hold⟩ <;> rw [hat] at hold <;> cases hold
  · have hread : afterRead env form₀ settings₀ ⟨d, r.tokenFamilyId⟩ (some r₁) =
        .checking form₀ r₁ := afterRead_checking rfl ho₁ ho₂
    simp only [World.step, hat, getActiveById_device hrow hact, hread] at h
    cases h
    exact .fresh hkl (hk.goto hkne) hrot' hrow hne hov'
      (Or.inr ⟨form₀, hhash₀, Or.inl (by simp [hr₁])⟩)
  · have hcheck : afterCheck env form r₁ true = .restoring form r₁ := by
      simp [afterCheck, hhash, hr₁, PairedDevice.rotated, hne, hdup.hash_ne]
    simp only [World.step, hat, hcheck] at h
    cases h
    exact .fresh hkl (hk.goto hkne) hrot' hrow hne hov'
      (Or.inr ⟨form, hhash, Or.inr (by simp [hr₁])⟩)
  · have hclock : clock - rotationGrace ≤ now := by
      have := hgrace _ hrot' now rfl _ (List.mem_append_right _ (List.mem_singleton.2 rfl)) clock rfl
      omega
    have hid : r₁.id = d := PairedDevices.row_id hrow
    have hp : r₁.restorable r₁.id r₁.tokenFamilyId (env.hashBrowserToken form.refreshToken)
        (clock - rotationGrace) := by
      rw [PairedDevice.restorable, decide_eq_true_eq, hhash, hr₁]
      exact ⟨rfl, rfl, rfl, ⟨now, rfl, hclock⟩, hdup.active⟩
    simp only [World.step, hat] at h
    split at h
    · cases h
      refine Phase.settle hkl (hk.goto hkne) (World.done_goto_self _ _ _) (iff_of_true ?_ hov')
      exact ⟨r₁, hrow, hact⟩
    · rename_i T row hT
      cases h
      obtain ⟨rfl, hrow'⟩ := PairedDevices.updateReturning_match (e := d) hT (fun _ => rfl) (by
        intro r' hr'
        simp only [PairedDevice.restorable, decide_eq_true_eq] at hr'
        exact hr'.1.trans hid) hrow hp
      exact Phase.settle hkl (hk.goto hkne) (World.done_goto_self _ _ _)
        (iff_of_true ⟨_, hrow', hact⟩ hov')

theorem Phase.step (hdup : Duplicate env w₀ i j d r) {tr : List (Act × Option Commit)}
    {w w' : World} {a : Act} {c : Option Commit} (hC : OfPair i j w a)
    (hgrace : WithinGrace (tr ++ [(a, c)])) (hp : Phase env w₀ i j d r tr w)
    (h : World.step env w a = some (w', c)) : Phase env w₀ i j d r (tr ++ [(a, c)]) w' := by
  cases hp with
  | before hU => exact hU.step hdup hC h
  | stale hkl hk hrot hrow hne hact hfam hov hl =>
    exact Phase.stale_step hdup hC h hkl hk hrot hrow hne hact hfam hov hl
  | fresh hkl hk hrot hrow hne hov hl =>
    exact Phase.fresh_step hdup hC hgrace h hkl hk hrot hrow hne hov hl
  | settled hi hj =>
    obtain ⟨x, hx, hcase⟩ := pair_step_cases hC h
    have hdone : w.Done x := by rcases hx with rfl | rfl <;> assumption
    obtain ⟨reply, hdone⟩ := hdone
    rw [hdone] at hcase
    simp at hcase

theorem WithinGrace.of_append {tr tr' : List (Act × Option Commit)}
    (h : WithinGrace (tr ++ tr')) : WithinGrace tr :=
  fun e he now hn e' he' clock hc =>
    h e (List.mem_append_left _ he) now hn e' (List.mem_append_left _ he') clock hc

theorem phase_of_run (hdup : Duplicate env w₀ i j d r) {tr : List (Act × Option Commit)} {w : World}
    (h : (refreshMachine env).RunIn (OfPair i j) w₀ tr w) (hgrace : WithinGrace tr) :
    Phase env w₀ i j d r tr w := by
  refine h.traceInvariant (I := fun tr w => WithinGrace tr → Phase env w₀ i j d r tr w)
    (fun tr w a w' c hC ih hs hg => Phase.step hdup hC hg (ih hg.of_append) hs) (?_) hgrace
  intro _
  exact .before ⟨rfl, rfl, by simp, fun x _ => Or.inl ⟨rfl, by simp [beforeRotation]⟩⟩

theorem World.Done.not_at {w : World} {x : ℕ} {pc : Pc} (h : w.Done x)
    (hpc : ∀ reply, pc ≠ .done reply) : w.requests x ≠ some pc := by
  obtain ⟨reply, h⟩ := h
  rw [h]
  exact fun he => hpc reply (Option.some.inj he).symm

/-- **Two requests with the same current credential leave the device active
    exactly when they do not overlap.** -/
theorem duplicateRefresh_active_iff (hdup : Duplicate env w₀ i j d r)
    {tr : List (Act × Option Commit)} {w : World}
    (h : (refreshMachine env).RunIn (OfPair i j) w₀ tr w) (hgrace : WithinGrace tr)
    (hi : w.Done i) (hj : w.Done j) : w.Active d ↔ ¬ Overlap i j tr := by
  have hdone : ∀ {k l : ℕ}, (k = i ∧ l = j) ∨ (k = j ∧ l = i) → w.Done l := by
    rintro k l (⟨-, rfl⟩ | ⟨-, rfl⟩) <;> assumption
  cases phase_of_run hdup h hgrace with
  | before hU =>
    obtain ⟨form, settings, hw₀, -⟩ := hdup.waiting i (Or.inl rfl)
    rcases hU.place i (Or.inl rfl) with ⟨hsame, -⟩ | ⟨-, form', -, hold | hold⟩
    · exact absurd (hsame.trans hw₀) (hi.not_at (by simp))
    all_goals exact absurd hold (hi.not_at (by simp))
  | stale hkl _ _ _ _ _ _ _ hl =>
    rcases hl with ⟨form', -, hold | hold⟩ | ⟨reply, hold⟩
    all_goals exact absurd hold ((hdone hkl).not_at (by simp))
  | @fresh k l _ _ _ _ _ hkl _ _ _ _ _ hl =>
    obtain ⟨form, settings, hw₀, -⟩ :=
      hdup.waiting l (by rcases hkl with ⟨-, rfl⟩ | ⟨-, rfl⟩ <;> simp)
    rcases hl with hsame | ⟨form', -, hold | hold⟩
    · exact absurd (hsame.trans hw₀) ((hdone hkl).not_at (by simp))
    all_goals exact absurd hold ((hdone hkl).not_at (by simp))
  | settled _ _ hiff => exact hiff

end

/-! ## Both cases occur -/

namespace Sample

/-- Two requests with credential `c0`, both about to read. -/
def twoWaiting : World :=
  (world.goto 0 (refreshDeviceToken env (form "c0") settings false false)).goto 1
    (refreshDeviceToken env (form "c0") settings false false)

theorem twoWaiting_duplicate : Duplicate env twoWaiting 0 1 (.lit "d") row where
  ne := by decide
  row := by decide
  active := rfl
  hash_ne := by decide
  known d r h := (world_initial.known d r h).1
  waiting x hx := ⟨form "c0", settings, by rcases hx with rfl | rfl <;> decide, by decide,
    .lit "https://tide-bot.com", by decide, by decide⟩

end Sample

/-- One after the other: the first rotates and the second restores. -/
theorem duplicateRefresh_active_sequential :
    ∃ tr w, (refreshMachine Sample.env).RunIn (OfPair 0 1) Sample.twoWaiting tr w ∧
      WithinGrace tr ∧ w.Done 0 ∧ w.Done 1 ∧ w.Active (.lit "d") := by
  obtain ⟨⟨tr, w⟩, hm, hg, hov, h0, h1⟩ : ∃ r ∈ (refreshMachine Sample.env).exec (OfPair 0 1)
      Sample.twoWaiting [.read 0, .check 0 true, .rotate 0 (.lit "c1") 5, .read 1, .check 1 true,
        .restore 1 9 9], WithinGrace r.1 ∧ ¬ Overlap 0 1 r.1 ∧ r.2.Done 0 ∧ r.2.Done 1 := by
    decide
  have hr := Machine.runIn_of_exec hm
  exact ⟨tr, w, hr, hg, h0, h1,
    (duplicateRefresh_active_iff Sample.twoWaiting_duplicate hr hg h0 h1).2 hov⟩

/-- Both read first: one rotates, the compare and swap of the other misses,
    and the family is revoked. -/
theorem duplicateRefresh_overlap_revokes :
    Duplicate Sample.env Sample.twoWaiting 0 1 (.lit "d") Sample.row ∧
    ∃ tr w, (refreshMachine Sample.env).RunIn (OfPair 0 1) Sample.twoWaiting tr w ∧
      WithinGrace tr ∧ w.Done 0 ∧ w.Done 1 ∧ ¬ w.Active (.lit "d") := by
  obtain ⟨⟨tr, w⟩, hm, h⟩ : ∃ r ∈ (refreshMachine Sample.env).exec (OfPair 0 1)
      Sample.twoWaiting [.read 0, .read 1, .check 0 true, .check 1 true, .rotate 0 (.lit "c1") 5,
        .rotate 1 (.lit "c2") 6, .revokeFamily 1 7],
      WithinGrace r.1 ∧ r.2.Done 0 ∧ r.2.Done 1 ∧ ¬ r.2.Active (.lit "d") := by
    decide
  exact ⟨Sample.twoWaiting_duplicate, tr, w, Machine.runIn_of_exec hm, h⟩

end TideBot
