/-
  Refresh rotation over whole runs.

  * `Run.revoked`: a revoked row stays revoked and takes no further rotation or
    restoration;
  * `commit_presented`, `commit_acceptable`: whatever a run commits was presented
    by a request that arrived in it, and its hash was, in the row at that moment,
    the current one or the previous one inside the grace window;
  * `currents` is the history of the current hashes of a device.  A hash is
    superseded twice if the row has since had two other current hashes; `Past`,
    the invariant, says that the previous and the current hash of the row are
    the end of the history, so such a hash is neither, and stays so
    (`SupersededTwice.step`).
-/
import TideBot.Devices.Refresh

namespace TideBot

open Lib

variable {env : RefreshEnv} {w w' w₀ : World} {a : Act} {c : Option Commit} {d : Text}
  {tr tr' : List (Act × Option Commit)}

/-! ## Revocation is final -/

/-- Device `d` has a row revoked at `t`. -/
def World.RevokedAt (w : World) (d : Text) (t : ℤ) : Prop :=
  ∃ r, w.device d = some r ∧ r.revokedAt = some t

theorem RevokedAt.step {t : ℤ} (h : World.step env w a = some (w', c)) (hw : w.RevokedAt d t) :
    w'.RevokedAt d t ∧ ∀ k ∈ c, k.deviceId ≠ d := by
  obtain ⟨r, hr, ht⟩ := hw
  have hs := rowStep_of_step h d
  generalize hrow : w'.device d = row at hs
  cases hs with
  | same hc => exact ⟨⟨r, hrow.trans hr, ht⟩, hc⟩
  | rotate _ hr' hn | restore _ hr' hn | revoke hr' hn | rename hr' hn =>
    rw [hr] at hr'; cases hr'; rw [ht] at hn; cases hn

theorem Run.revoked {t : ℤ} (h : (refreshMachine env).Run w tr w') (hw : w.RevokedAt d t) :
    w'.RevokedAt d t ∧ ∀ e ∈ tr, ∀ k ∈ e.2, k.deviceId ≠ d := by
  refine h.safety (I := fun w => w.RevokedAt d t) (P := fun e => ∀ k ∈ e.2, k.deviceId ≠ d) ?_ hw
  intro w a w' c _ hw hs
  exact RevokedAt.step hs hw

/-! ## What a commit needs -/

/-- The credential of commit `k` is acceptable to row `r` in step `a`: its
    hash is the current one (a rotation), or the previous one, with the
    rotation no older than the grace window on the clock of the handler. -/
def Acceptable (env : RefreshEnv) (r : PairedDevice) (k : Commit) : Act → Prop
  | .rotate _ _ _ => r.refreshTokenHash = env.hashBrowserToken k.credential
  | .restore _ clock _ =>
    r.previousRefreshTokenHash = some (env.hashBrowserToken k.credential) ∧
      ∃ t, r.rotatedAt = some t ∧ clock - rotationGrace ≤ t
  | _ => False

/-- The request taking step `a` arrived in the trace with this credential. -/
def Presented (tr : List (Act × Option Commit)) (credential : Text) : Act → Prop
  | .rotate i _ _ | .restore i _ _ => ∃ form settings b b',
      (Act.refresh i form settings b b', none) ∈ tr ∧ form.refreshToken = credential
  | _ => False

/-- Every request in flight arrived in the trace. -/
def Arrived (tr : List (Act × Option Commit)) (w : World) : Prop :=
  ∀ i pc form, w.requests i = some pc → pc.form = some form →
    ∃ settings b b', (Act.refresh i form settings b b', none) ∈ tr

theorem arrived_of_run (h₀ : w₀.Initial) (h : (refreshMachine env).Run w₀ tr w) :
    Arrived tr w := by
  refine h.traceInvariant (I := Arrived) ?_ fun i pc form hi => by rw [h₀.idle i] at hi; cases hi
  intro tr w a w' c _ ih hs i pc form hi hform
  rcases formsFrom_of_step hs i pc form hi hform with ⟨pc₀, hi₀, hf₀⟩ | ⟨settings, b, b', rfl⟩
  · obtain ⟨settings, b, b', hm⟩ := ih i pc₀ form hi₀ hf₀
    exact ⟨settings, b, b', List.mem_append_left _ hm⟩
  · refine ⟨settings, b, b', List.mem_append_right _ ?_⟩
    have hc : c = none := by
      simp only [refreshMachine, World.step] at hs
      split at hs <;> cases hs; rfl
    simp [hc]

theorem commit_acceptable {k : Commit} (h : World.step env w a = some (w', some k)) :
    ∃ r, w.device k.deviceId = some r ∧ r.revokedAt = none ∧ Acceptable env r k a := by
  rcases commit_cases h with ⟨i, token, now, r, rfl, hk⟩ | ⟨i, clock, now, r, rfl, hk⟩
  · exact ⟨r, hk.row, hk.active, hk.current⟩
  · exact ⟨r, hk.row, hk.active, hk.previous, hk.recent⟩

theorem commit_presented (h₀ : w₀.Initial) (hr : (refreshMachine env).Run w₀ tr w) {k : Commit}
    (h : World.step env w a = some (w', some k)) : Presented tr k.credential a := by
  rcases commit_cases h with ⟨i, token, now, r, rfl, hk⟩ | ⟨i, clock, now, r, rfl, hk⟩
  · obtain ⟨form, device, hpc, hcred, -⟩ := hk.request
    obtain ⟨settings, b, b', hm⟩ := arrived_of_run h₀ hr i _ form hpc rfl
    exact ⟨form, settings, b, b', hm, hcred.symm⟩
  · obtain ⟨form, device, hpc, hcred⟩ := hk.request
    obtain ⟨settings, b, b', hm⟩ := arrived_of_run h₀ hr i _ form hpc rfl
    exact ⟨form, settings, b, b', hm, hcred.symm⟩

/-! ## The history of a device -/

/-- The hash a commit makes current. -/
def Commit.current (env : RefreshEnv) (k : Commit) : Text :=
  k.newHash.getD (env.hashBrowserToken k.credential)

/-- The last hashes of a device that its row still shows, oldest first. -/
def World.shown (w : World) (d : Text) : List Text :=
  match w.device d with
  | none => []
  | some r => r.previousRefreshTokenHash.toList ++ [r.refreshTokenHash]

/-- The hashes a trace makes current on device `d`. -/
def madeCurrent (env : RefreshEnv) (d : Text) (tr : List (Act × Option Commit)) : List Text :=
  tr.filterMap fun e => e.2.bind fun k => if k.deviceId = d then some (k.current env) else none

/-- All hashes that have been current on device `d`, oldest first. -/
def currents (env : RefreshEnv) (w₀ : World) (d : Text) (tr : List (Act × Option Commit)) :
    List Text :=
  w₀.shown d ++ madeCurrent env d tr

/-- `h` was current, and since then at least two others have been. -/
def SupersededTwice (hist : List Text) (h : Text) : Prop :=
  ∃ xs x y, hist = xs ++ [x, y] ∧ h ∈ xs ∧ h ≠ x ∧ h ≠ y

/-- The row shows the end of the history, and the history is known. -/
structure Past (hist : List Text) (w : World) (d : Text) : Prop where
  shown : ∃ ys, hist = ys ++ w.shown d
  known : ∀ h ∈ hist, h ∈ w.issued

theorem shown_of_row {r : PairedDevice} (h : w.device d = some r) :
    w.shown d = r.previousRefreshTokenHash.toList ++ [r.refreshTokenHash] := by
  rw [World.shown, h]

theorem known_of_step (h : World.step env w a = some (w', c)) {x : Text} (hx : x ∈ w.issued) :
    x ∈ w'.issued := by
  rcases issued_of_step h with he | ⟨_, _, _, -, he⟩
  · rw [he]; exact hx
  · rw [he]; exact List.mem_cons_of_mem _ hx

theorem issued_of_rotate {i : ℕ} {token : Text} {now : ℤ}
    (h : World.step env w (.rotate i token now) = some (w', c)) :
    env.hashBrowserToken token ∈ w'.issued := by
  simp only [World.step] at h
  split at h
  · split_ifs at h
    split at h <;> cases h <;> exact List.mem_cons_self
  · cases h

theorem shown_of_step (h : World.step env w a = some (w', c)) (hc : ∀ k ∈ c, k.deviceId ≠ d) :
    w'.shown d = w.shown d := by
  have he := hashes_of_step h hc
  unfold World.shown
  rcases hr : w.device d with _ | r <;> rcases hr' : w'.device d with _ | r' <;>
    simp_all

theorem madeCurrent_snoc (tr : List (Act × Option Commit)) (a : Act) (c : Option Commit) :
    madeCurrent env d (tr ++ [(a, c)]) = madeCurrent env d tr ++
      (c.bind fun k => if k.deviceId = d then some (k.current env) else none).toList := by
  simp only [madeCurrent, List.filterMap_append]
  rcases c with _ | k
  · simp
  · by_cases hk : k.deviceId = d <;> simp [hk]

/-- **The end of the history is what the row shows**, in every run. -/
theorem Past.step {hist : List Text} (h : World.step env w a = some (w', c))
    (hp : Past hist w d) :
    Past (hist ++ (c.bind fun k => if k.deviceId = d then some (k.current env) else none).toList)
      w' d := by
  by_cases hc : ∃ k, c = some k ∧ k.deviceId = d
  · obtain ⟨k, rfl, rfl⟩ := hc
    obtain ⟨ys, hys⟩ := hp.shown
    simp only [Option.bind_some, if_true, Option.toList_some]
    rcases commit_cases h with ⟨i, token, now, r, rfl, hk⟩ | ⟨i, clock, now, r, rfl, hk⟩
    · obtain ⟨form, device, -, -, hrow⟩ := hk.request
      have hcur : k.current env = env.hashBrowserToken token := by simp [Commit.current, hk.newHash]
      refine ⟨⟨ys ++ r.previousRefreshTokenHash.toList, ?_⟩, ?_⟩
      · rw [hys, shown_of_row hk.row, shown_of_row hrow, hcur, ← hk.current]
        simp [PairedDevice.rotated]
      · intro x hx
        rcases List.mem_append.1 hx with hx | hx
        · exact known_of_step h (hp.known x hx)
        · rw [List.mem_singleton.1 hx, hcur]; exact issued_of_rotate h
    · have hcur : k.current env = env.hashBrowserToken k.credential := by
        simp [Commit.current, hk.newHash]
      refine ⟨⟨hist, ?_⟩, ?_⟩
      · rw [shown_of_row hk.row', hcur]; simp [PairedDevice.restored]
      · intro x hx
        rcases List.mem_append.1 hx with hx | hx
        · exact known_of_step h (hp.known x hx)
        · refine known_of_step h (hp.known x ?_)
          rw [List.mem_singleton.1 hx, hcur, hys, shown_of_row hk.row, hk.previous]
          simp
  · push Not at hc
    have hne : ∀ k ∈ c, k.deviceId ≠ d := fun k hk => hc k hk
    have hnil : (c.bind fun k => if k.deviceId = d then some (k.current env) else none) = none := by
      rcases c with _ | k
      · rfl
      · simp [hne k rfl]
    rw [hnil, Option.toList_none, List.append_nil]
    obtain ⟨ys, hys⟩ := hp.shown
    exact ⟨⟨ys, by rw [shown_of_step h hne, hys]⟩, fun x hx => known_of_step h (hp.known x hx)⟩

theorem past_of_run (h₀ : w₀.Initial) (h : (refreshMachine env).Run w₀ tr w) :
    Past (currents env w₀ d tr) w d := by
  refine h.traceInvariant (I := fun tr w => Past (currents env w₀ d tr) w d) ?_ ?_
  · intro tr w a w' c _ ih hs
    have := Past.step hs ih
    rwa [currents, List.append_assoc, ← madeCurrent_snoc] at this
  · refine ⟨⟨[], by simp [currents, madeCurrent]⟩, fun x hx => ?_⟩
    simp only [currents, madeCurrent, List.filterMap_nil, List.append_nil] at hx
    unfold World.shown at hx
    split at hx
    · cases hx
    · rename_i r hr
      rcases List.mem_append.1 hx with hx | hx
      · exact (h₀.known d r hr).2 x (by simpa using hx)
      · rw [List.mem_singleton.1 hx]; exact (h₀.known d r hr).1

/-! ## A credential superseded twice -/

theorem SupersededTwice.not_shown {hist : List Text} {h : Text} (hs : SupersededTwice hist h)
    (hp : Past hist w d) : h ∉ w.shown d := by
  obtain ⟨xs, x, y, rfl, -, hx, hy⟩ := hs
  obtain ⟨ys, hys⟩ := hp.shown
  unfold World.shown at hys ⊢
  split
  · simp
  · rename_i r hr
    rw [hr] at hys
    rcases hprev : r.previousRefreshTokenHash with _ | p
    · simp only [hprev, Option.toList_none, List.nil_append] at hys ⊢
      have hxy : (xs ++ [x]) ++ [y] = ys ++ [r.refreshTokenHash] := by simpa using hys
      obtain ⟨-, he⟩ := List.append_inj' hxy rfl
      rw [← he]; simpa using hy
    · simp only [hprev, Option.toList_some, List.singleton_append] at hys ⊢
      obtain ⟨-, he⟩ := List.append_inj' hys rfl
      rw [← he]; simp [hx, hy]

theorem SupersededTwice.not_accepted {hist : List Text} {h : Text} (hs : SupersededTwice hist h)
    {k : Commit} (hp : Past hist w k.deviceId) (hstep : World.step env w a = some (w', some k)) :
    env.hashBrowserToken k.credential ≠ h := by
  rintro rfl
  apply hs.not_shown hp
  rcases commit_cases hstep with ⟨i, token, now, r, rfl, hk⟩ | ⟨i, clock, now, r, rfl, hk⟩
  · rw [shown_of_row hk.row, hk.current]; simp
  · rw [shown_of_row hk.row, hk.previous]; simp

theorem SupersededTwice.step {hist : List Text} {h : Text} (hs : SupersededTwice hist h)
    (hp : Past hist w d) (hstep : World.step env w a = some (w', c)) :
    SupersededTwice
      (hist ++ (c.bind fun k => if k.deviceId = d then some (k.current env) else none).toList) h := by
  rcases c with _ | k
  · simpa using hs
  · by_cases hk : k.deviceId = d
    · subst hk
      simp only [Option.bind_some, if_true, Option.toList_some]
      have hnew : h ≠ k.current env := by
        rintro rfl
        rcases commit_cases hstep with ⟨i, token, now, r, rfl, hk⟩ | ⟨i, clock, now, r, rfl, hk⟩
        · -- a new credential is not in the history
          obtain ⟨xs, x, y, rfl, hm, -, -⟩ := hs
          refine hk.fresh (hp.known _ (List.mem_append_left _ ?_))
          simpa [Commit.current, hk.newHash] using hm
        · exact hs.not_accepted hp hstep (by simp [Commit.current, hk.newHash])
      obtain ⟨xs, x, y, rfl, hm, hx, hy⟩ := hs
      exact ⟨xs ++ [x], y, k.current env, by simp, List.mem_append_left _ hm, hy, hnew⟩
    · simpa [hk] using hs

/-- **A credential superseded twice is never accepted again.** -/
theorem SupersededTwice.never_accepted {hist : List Text} {h : Text} (hs : SupersededTwice hist h)
    (hp : Past hist w d) (hr : (refreshMachine env).Run w tr' w') :
    ∀ e ∈ tr', ∀ k ∈ e.2, k.deviceId = d → env.hashBrowserToken k.credential ≠ h := by
  refine (hr.safety (I := fun w => ∃ hist, SupersededTwice hist h ∧ Past hist w d)
    (P := fun e => ∀ k ∈ e.2, k.deviceId = d → env.hashBrowserToken k.credential ≠ h) ?_
    ⟨hist, hs, hp⟩).2
  rintro w a w' c - ⟨hist, hs, hp⟩ hstep
  refine ⟨⟨_, hs.step hp hstep, Past.step hstep hp⟩, ?_⟩
  intro k hk hd
  subst hd
  obtain rfl : c = some k := hk
  exact hs.not_accepted hp hstep

/-! ## The safety of refresh rotation -/

/-- **Refresh rotation is safe in every interleaving.**  From a starting state,
    whatever the requests, revocations, renamings and clock readings:

    1. once the row of a device is revoked, it stays revoked at that time, and no
       later rotation or restoration commits on it;
    2. every rotation or restoration that commits was caused by a request that
       presented its credential, and the hash of that credential was then the
       current one of the row or the previous one inside the grace window; so
       a credential superseded twice is never accepted again. -/
theorem refreshRotation_safe (env : RefreshEnv) {w₀ w : World} {tr : List (Act × Option Commit)}
    (h₀ : w₀.Initial) (hr : (refreshMachine env).Run w₀ tr w) (d : Text) :
    (∀ t, w.RevokedAt d t → ∀ tr' w', (refreshMachine env).Run w tr' w' →
      w'.RevokedAt d t ∧ ∀ e ∈ tr', ∀ k ∈ e.2, k.deviceId ≠ d) ∧
    (∀ a w' k, World.step env w a = some (w', some k) → k.deviceId = d →
      Presented tr k.credential a ∧
        ∃ r, w.device d = some r ∧ r.revokedAt = none ∧ Acceptable env r k a) ∧
    (∀ h, SupersededTwice (currents env w₀ d tr) h → ∀ tr' w', (refreshMachine env).Run w tr' w' →
      ∀ e ∈ tr', ∀ k ∈ e.2, k.deviceId = d → env.hashBrowserToken k.credential ≠ h) := by
  refine ⟨fun t ht tr' w' h' => Run.revoked h' ht, ?_, ?_⟩
  · intro a w' k hk hd
    subst hd; exact ⟨commit_presented h₀ hr hk, commit_acceptable hk⟩
  · intro h hs tr' w' h'
    exact hs.never_accepted (past_of_run h₀ hr) h'

/-- After two rotations `c0` is never accepted again; after a revocation
    nothing is. -/
theorem refreshRotation_safe_twice_rotated :
    (∃ tr w, (refreshMachine Sample.env).Run Sample.world tr w ∧
      SupersededTwice (currents Sample.env Sample.world (.lit "d") tr) (.lit "h:c0") ∧
      ∀ tr' w', (refreshMachine Sample.env).Run w tr' w' → ∀ e ∈ tr', ∀ k ∈ e.2,
        k.deviceId = .lit "d" → k.credential ≠ .lit "c0") ∧
    ∃ tr w, (refreshMachine Sample.env).Run Sample.world tr w ∧ w.RevokedAt (.lit "d") 7 ∧
      ∀ tr' w', (refreshMachine Sample.env).Run w tr' w' →
        ∀ e ∈ tr', ∀ k ∈ e.2, k.deviceId ≠ .lit "d" := by
  constructor
  · obtain ⟨⟨tr, w⟩, hm, hc⟩ : ∃ r ∈ (refreshMachine Sample.env).exec (fun _ _ => True) Sample.world
        (Sample.rotation 0 "c0" "c1" 5 ++ Sample.rotation 1 "c1" "c2" 6),
        currents Sample.env Sample.world (.lit "d") r.1 = [.lit "h:c0", .lit "h:c1", .lit "h:c2"] := by
      decide
    have hr : (refreshMachine Sample.env).Run Sample.world tr w := Machine.runIn_of_exec hm
    have htwice : SupersededTwice (currents Sample.env Sample.world (.lit "d") tr) (.lit "h:c0") :=
      ⟨[.lit "h:c0"], .lit "h:c1", .lit "h:c2", hc, by decide⟩
    refine ⟨tr, w, hr, htwice, ?_⟩
    intro tr' w' h' e he k hk hd hcred
    exact (refreshRotation_safe Sample.env Sample.world_initial hr _).2.2 _ htwice tr' w' h' e he k
      hk hd (by rw [hcred]; decide)
  · obtain ⟨⟨tr, w⟩, hm, hc⟩ : ∃ r ∈ (refreshMachine Sample.env).exec (fun _ _ => True) Sample.world
        (Sample.rotation 0 "c0" "c1" 5 ++ [.revoke (.lit "d") (.lit "u") 7]),
        ∃ row ∈ r.2.device (.lit "d"), row.revokedAt = some 7 := by
      decide
    have hr : (refreshMachine Sample.env).Run Sample.world tr w := Machine.runIn_of_exec hm
    exact ⟨tr, w, hr, hc, fun tr' w' h' =>
      ((refreshRotation_safe Sample.env Sample.world_initial hr _).1 7 hc tr' w' h').2⟩

end TideBot
