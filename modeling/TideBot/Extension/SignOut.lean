/-
  What becomes of the credential.

  `AuthSafe`: after a `signOut` has returned, and until a call that pairs again, neither memory
  nor storage holds a credential; and neither is set to a refresh token that a stored one has
  replaced.  A call that was in flight when `signOut` began writes its credential all the same,
  and `restore` puts back what it has read, so it takes a condition (`AuthFits`): whoever
  writes a credential has not met a `signOut`, and what goes from storage to memory is still
  in storage.

  The invariant speaks of each call (`CallInv`): the token that a refresh has presented is not
  replaced, and the one that is about to be stored has never been stored.
-/
import TideBot.Extension.Auth

namespace TideBot

open Lib

/-! ## What has happened -/

/-- The steps so far. -/
abbrev AuthTrace := List (AuthAct × AuthEffect)

/-- The call that takes a step. -/
def AuthAct.caller : AuthAct → ℕ
  | .call i _ | .effect i | .resume i _ => i

/-- Is it the beginning of this call? -/
def AuthAct.calls (i : ℕ) : AuthAct → Bool
  | .call j _ => j = i
  | _ => false

/-- Is it the beginning of a call that pairs? -/
def AuthAct.pairs : AuthAct → Bool
  | .call _ c => c.pairs
  | _ => false

/-- Does a `signOut` begin or end? -/
def AuthEffect.marks (x : AuthEffect) : Bool := x.began.isSome || x.ended.isSome

/-- The calls that are in `signOut`. -/
def signingOut (tr : AuthTrace) : Finset ℕ :=
  tr.foldl (fun s x => (s ∪ x.2.began.toFinset) \ x.2.ended.toFinset) ∅

/-- Has a `signOut` begun or ended since this call was made? -/
def disturbed (i : ℕ) (tr : AuthTrace) : Bool :=
  tr.foldl (fun b x => if x.1.calls i then false else b || x.2.marks) false

/-- Has a `signOut` returned, and no call that pairs been made since? -/
def signedOut (tr : AuthTrace) : Bool :=
  tr.foldl (fun b x => x.2.ended.isSome || (b && !x.1.pairs)) false

/-- The refresh tokens that have been replaced. -/
def replacedTokens (tr : AuthTrace) : List Text := tr.filterMap fun x => x.2.replaced

/-- The refresh tokens that have been in storage. -/
def storedTokens (t₀ : Option Text) (tr : AuthTrace) : List Text :=
  t₀.toList ++ tr.filterMap fun x => x.2.stored

section
variable {tr : AuthTrace} {x : AuthAct × AuthEffect} {i : ℕ} {t₀ : Option Text}

theorem signingOut_snoc : signingOut (tr ++ [x]) =
    (signingOut tr ∪ x.2.began.toFinset) \ x.2.ended.toFinset := by
  simp [signingOut]

theorem disturbed_snoc : disturbed i (tr ++ [x]) =
    if x.1.calls i then false else disturbed i tr || x.2.marks := by
  simp [disturbed]

theorem signedOut_snoc : signedOut (tr ++ [x]) =
    (x.2.ended.isSome || (signedOut tr && !x.1.pairs)) := by
  simp [signedOut]

theorem replacedTokens_snoc : replacedTokens (tr ++ [x]) = replacedTokens tr ++ x.2.replaced.toList := by
  rw [replacedTokens, List.filterMap_append, replacedTokens]
  cases h : x.2.replaced <;> simp [h]

theorem storedTokens_snoc : storedTokens t₀ (tr ++ [x]) = storedTokens t₀ tr ++ x.2.stored.toList := by
  rw [storedTokens, List.filterMap_append, storedTokens, List.append_assoc]
  cases h : x.2.stored <;> simp [h]

end

/-! ## What is promised -/

/-- Signing out is final, and refresh tokens only move forward. -/
structure AuthSafe (tr : AuthTrace) (w : AuthWorld) : Prop where
  signedOut : signedOut tr → w.paired = false ∧ w.storage.bind isStoredCredential = none
  forward : ∀ xs x ys, tr = xs ++ x :: ys → ∀ t, x.2.memory = some t ∨ x.2.stored = some t →
    t ∉ replacedTokens xs

/-! ## When it is kept -/

namespace AuthPc

/-- The credential that the next step of a call writes. -/
def writes : AuthPc → Option StoredCredential
  | read value => value.bind isStoredCredential
  | storing _ credential _ _ | stored _ credential _ _ => some credential
  | _ => none

/-- Is the next step a `storage.set`? -/
def sets : AuthPc → Bool
  | storing .. => true
  | _ => false

end AuthPc

/-- No `signOut` is under way, and none has been since the call was made. -/
def SignedInSince (tr : AuthTrace) (i : ℕ) : Prop := signingOut tr = ∅ ∧ disturbed i tr = false

instance (tr : AuthTrace) (i : ℕ) : Decidable (SignedInSince tr i) := inferInstanceAs (Decidable (_ ∧ _))

/-- The condition on a step that writes a credential. -/
def WriteFits (y : AuthTrace × AuthWorld) (i : ℕ) : Prop :=
  ∀ pc ∈ y.2.calls i, ∀ c ∈ pc.writes,
    SignedInSince y.1 i ∧ (pc.sets ∨ y.2.storage.bind isStoredCredential = some c)

instance (y : AuthTrace × AuthWorld) (i : ℕ) : Decidable (WriteFits y i) :=
  inferInstanceAs (Decidable (∀ pc ∈ y.2.calls i, ∀ c ∈ pc.writes, _))

/-- The condition on a step. -/
def AuthFits (y : AuthTrace × AuthWorld) : AuthAct → Prop
  | .call .. => True
  | .effect i | .resume i _ => WriteFits y i

instance (y : AuthTrace × AuthWorld) : DecidablePred (AuthFits y)
  | .call .. => inferInstanceAs (Decidable True)
  | .effect i | .resume i _ => inferInstanceAs (Decidable (WriteFits y i))

/-! ## The invariant -/

namespace AuthPc

/-- Is the call in `signOut`? -/
def signsOut : AuthPc → Bool
  | removing _ | removed _ => true
  | _ => false

/-- Has a refresh stored its credential, and not yet put it in memory? -/
def swapping : AuthPc → Bool
  | stored (.refresh _) .. => true
  | _ => false

/-- The credential that a refresh presents, as long as it has not stored another. -/
def presents : AuthPc → Option StoredCredential
  | fetching job | failing job _ | parsing job | storing job .. => job.previous
  | _ => none

/-- The refresh token that is about to be stored. -/
def offers : AuthPc → Option Text
  | storing _ credential _ _ => some credential.refreshToken.1
  | _ => none

/-- Does the call perform the refresh that `refreshPromise` is about? -/
def refreshes : AuthPc → Bool
  | fetching job | failing job _ | parsing job | storing job .. | stored job .. => job.previous.isSome
  | removing caller | removed caller => caller ≠ .call
  | settled _ => true
  | _ => false

/-- A call that will write no credential. -/
def harmless : AuthPc → Bool
  | read value => (value.bind isStoredCredential).isNone
  | reading | clearing | cleared | sharing _ | removing _ | removed _ | settled _ | done _ => true
  | _ => false

end AuthPc

/-- Where a call stands. -/
structure CallInv (t₀ : Option Text) (tr : AuthTrace) (w : AuthWorld) (i : ℕ) (pc : AuthPc) : Prop where
  owner : pc.refreshes → w.refreshPromise = some i
  presented : ∀ p ∈ pc.presents, p.refreshToken.1 ∈ storedTokens t₀ tr ∧ p.refreshToken.1 ∉ replacedTokens tr
  offer : ∀ t ∈ pc.offers, t ∈ w.issued ∧ (pc.presents.map (·.refreshToken.1) = some t ∨
    t ∉ storedTokens t₀ tr ∧ ∀ j pc', j ≠ i → w.calls j = some pc' → pc'.offers ≠ some t)

/-- What is so of the calls of `signOut`, after the steps `tr`. -/
structure SignInv (tr : AuthTrace) (w : AuthWorld) : Prop where
  signing : ∀ i, i ∈ signingOut tr ↔ ∃ pc, w.calls i = some pc ∧ pc.signsOut
  cleared : signingOut tr ≠ ∅ → w.credential = none
  removed : ∀ i caller, w.calls i = some (.removed caller) → w.storage.bind isStoredCredential = none
  out : signedOut tr → w.credential = none ∧ w.storage.bind isStoredCredential = none ∧
    ∀ i pc, w.calls i = some pc → disturbed i tr ∨ pc.harmless

/-- What is so of the refresh tokens, after the steps `tr`. -/
structure TokenInv (t₀ : Option Text) (tr : AuthTrace) (w : AuthWorld) : Prop where
  calls : ∀ i pc, w.calls i = some pc → CallInv t₀ tr w i pc
  storage : ∀ t, storedToken w.storage = some t → t ∈ storedTokens t₀ tr ∧ t ∉ replacedTokens tr
  memory : ∀ c, w.credential = some c → c.refreshToken.1 ∈ storedTokens t₀ tr ∧
    (c.refreshToken.1 ∈ replacedTokens tr → ∃ i pc, w.calls i = some pc ∧ pc.swapping)
  replaced : ∀ t ∈ replacedTokens tr, t ∈ storedTokens t₀ tr
  issued : ∀ t ∈ storedTokens t₀ tr, t ∈ w.issued

/-! ## Every step keeps it -/

section
variable {t₀ : Option Text} {tr : AuthTrace} {w w' : AuthWorld} {x : AuthAct × AuthEffect} {i : ℕ}
  {pc' : AuthPc}

theorem isString_str (s : Str) : isString (.str s.1) = some s := dif_pos s.2

theorem isStoredCredential_toJson (c : StoredCredential) : isStoredCredential c.toJson = some c := by
  simp [isStoredCredential, StoredCredential.toJson, Json.get, Json.field, isString_str]

theorem AuthAct.calls_of_ne {a : AuthAct} {j : ℕ} (ha : a.caller = i) (hj : j ≠ i) : a.calls j = false := by
  cases a with
  | call k c =>
    obtain rfl : k = i := ha
    simp [AuthAct.calls, Ne.symm hj]
  | effect | resume => rfl

theorem AuthWorld.call_cases (hcalls : w'.calls = Function.update w.calls i (some pc')) {j : ℕ} {pc : AuthPc}
    (hj : w'.calls j = some pc) : j = i ∧ pc = pc' ∨ j ≠ i ∧ w.calls j = some pc := by
  rw [hcalls, Function.update_apply] at hj
  split_ifs at hj with hji
  · exact .inl ⟨hji, (Option.some.inj hj).symm⟩
  · exact .inr ⟨hji, hj⟩

theorem AuthWorld.signsOut_iff (hcalls : w'.calls = Function.update w.calls i (some pc')) {j : ℕ} :
    (∃ pc, w'.calls j = some pc ∧ pc.signsOut) ↔
      if j = i then pc'.signsOut = true else ∃ pc, w.calls j = some pc ∧ pc.signsOut := by
  rw [hcalls, Function.update_apply]
  split_ifs <;> simp

theorem CallInv.keep {j : ℕ} {pc : AuthPc} (h : CallInv t₀ tr w j pc)
    (hcalls : w'.calls = Function.update w.calls i (some pc'))
    (hprom : w.refreshPromise = some j → w'.refreshPromise = some j)
    (hissued : w.issued ⊆ w'.issued)
    (hstored : ∀ t ∈ x.2.stored, t ∉ pc.offers)
    (hreplaced : ∀ t ∈ x.2.replaced, ∀ p ∈ pc.presents, p.refreshToken.1 ≠ t)
    (hoffer : ∀ t ∈ pc'.offers, t ∈ storedTokens t₀ tr ∨ t ∉ w.issued) :
    CallInv t₀ (tr ++ [x]) w' j pc where
  owner hr := hprom (h.owner hr)
  presented p hp := by
    rw [storedTokens_snoc, replacedTokens_snoc, List.mem_append, List.mem_append]
    refine ⟨.inl (h.presented p hp).1, ?_⟩
    rintro (hmem | hmem)
    · exact (h.presented p hp).2 hmem
    · exact hreplaced _ (by simpa using hmem) p hp rfl
  offer t ht := by
    obtain ⟨hissue, hcase⟩ := h.offer t ht
    refine ⟨hissued hissue, hcase.imp_right ?_⟩
    rintro ⟨hfresh, hother⟩
    constructor
    · rw [storedTokens_snoc, List.mem_append]
      rintro (hmem | hmem)
      · exact hfresh hmem
      · exact hstored t (by simpa using hmem) ht
    · intro k pc'' hk hpc hoff
      obtain ⟨-, rfl⟩ | ⟨-, hpc⟩ := AuthWorld.call_cases hcalls hpc
      · rcases hoffer t hoff with hin | hnot
        · exact hfresh hin
        · exact hnot hissue
      · exact hother k pc'' hk hpc hoff

/-- **A step that stores nothing.** -/
theorem TokenInv.move (h : TokenInv t₀ tr w) (hx : x.2.stored = none ∧ x.2.replaced = none)
    (hcalls : w'.calls = Function.update w.calls i (some pc'))
    (hprom : ∀ j, j ≠ i → w.refreshPromise = some j → w'.refreshPromise = some j)
    (hissued : w.issued ⊆ w'.issued)
    (hstorage : ∀ c, w'.storage.bind isStoredCredential = some c → w.storage.bind isStoredCredential = some c)
    (hmemory : ∀ c, w'.credential = some c →
      (w.credential = some c ∧ ∀ pc, w.calls i = some pc → pc.swapping = false) ∨
        w.storage.bind isStoredCredential = some c)
    (howner : pc'.refreshes → w'.refreshPromise = some i)
    (hpresented : ∀ p ∈ pc'.presents,
      p.refreshToken.1 ∈ storedTokens t₀ tr ∧ p.refreshToken.1 ∉ replacedTokens tr)
    (hoffer : ∀ t ∈ pc'.offers, t ∈ w'.issued ∧
      (pc'.presents.map (·.refreshToken.1) = some t ∨ t ∉ w.issued)) :
    TokenInv t₀ (tr ++ [x]) w' := by
  obtain ⟨hstored, hreplaced⟩ := hx
  have hW : storedTokens t₀ (tr ++ [x]) = storedTokens t₀ tr := by simp [storedTokens_snoc, hstored]
  have hR : replacedTokens (tr ++ [x]) = replacedTokens tr := by simp [replacedTokens_snoc, hreplaced]
  have hoffered : ∀ t ∈ pc'.offers, t ∈ storedTokens t₀ tr ∨ t ∉ w.issued := by
    intro t ht
    refine (hoffer t ht).2.imp_left fun hp => ?_
    obtain ⟨p, hpc, rfl⟩ := Option.map_eq_some_iff.1 hp
    exact (hpresented p hpc).1
  refine ⟨?_, ?_, ?_, ?_, ?_⟩
  · intro j pc hj
    obtain ⟨rfl, rfl⟩ | ⟨hji, hj⟩ := AuthWorld.call_cases hcalls hj
    · refine ⟨howner, ?_, ?_⟩
      · rw [hW, hR]
        exact hpresented
      · intro t ht
        refine ⟨(hoffer t ht).1, (hoffer t ht).2.imp_right fun hnot => ⟨?_, ?_⟩⟩
        · rw [hW]
          exact fun hmem => hnot (h.issued t hmem)
        · intro k pc'' hk hpc hoff
          obtain ⟨rfl, -⟩ | ⟨-, hpc⟩ := AuthWorld.call_cases hcalls hpc
          · exact hk rfl
          · exact hnot ((h.calls k pc'' hpc).offer t hoff).1
    · refine (h.calls j pc hj).keep hcalls (hprom j hji) hissued ?_ ?_ hoffered
      · simp [hstored]
      · simp [hreplaced]
  · intro t ht
    rw [hW, hR]
    obtain ⟨c, hc, rfl⟩ := Option.map_eq_some_iff.1 ht
    exact h.storage _ (Option.map_eq_some_iff.2 ⟨c, hstorage c hc, rfl⟩)
  · intro c hc
    rw [hW, hR]
    rcases hmemory c hc with ⟨hold, hswap⟩ | hold
    · refine ⟨(h.memory c hold).1, fun hrep => ?_⟩
      obtain ⟨j, pc, hj, hpc⟩ := (h.memory c hold).2 hrep
      refine ⟨j, pc, ?_, hpc⟩
      have hji : j ≠ i := by
        rintro rfl
        rw [hswap pc hj] at hpc
        cases hpc
      rw [hcalls, Function.update_of_ne hji]
      exact hj
    · obtain ⟨hin, hnot⟩ := h.storage _ (Option.map_eq_some_iff.2 ⟨c, hold, rfl⟩)
      exact ⟨hin, fun hrep => absurd hrep hnot⟩
  · rw [hW, hR]
    exact h.replaced
  · rw [hW]
    exact fun t ht => hissued (h.issued t ht)

theorem AuthPc.refreshes_of_presents {pc : AuthPc} {p : StoredCredential} (h : p ∈ pc.presents) :
    pc.refreshes := by
  cases pc with
  | fetching | failing | parsing | storing => exact Option.isSome_of_mem h
  | reading | read | clearing | cleared | sharing | stored | opening | sleeping | closing | removing
    | removed | settled | done => cases h

/-- **`storage.set` takes effect.** -/
theorem TokenInv.set (h : TokenInv t₀ tr w) {job : AuthJob} {c : StoredCredential} {a : Str} {e : ℚ}
    (hi : w.calls i = some (.storing job c a e)) :
    TokenInv t₀ (tr ++ [(.effect i, { stored := some c.refreshToken.1
                                      replaced := (job.previous.map fun p => p.refreshToken.1).filter
                                        (· ≠ c.refreshToken.1) })])
      ({ w with storage := some c.toJson }.goto i (.stored job c a e)) := by
  have hinv := h.calls i _ hi
  obtain ⟨hissued, hcase⟩ := hinv.offer _ rfl
  -- another call presents no credential, if this one does
  have halone : ∀ j pc, j ≠ i → w.calls j = some pc → ∀ p ∈ job.previous, pc.presents = none := by
    intro j pc hj hpc p hp
    have hprom : w.refreshPromise = some i := hinv.owner (Option.isSome_of_mem hp)
    cases hq : pc.presents with
    | none => rfl
    | some q =>
      have hprom' := (h.calls j pc hpc).owner (AuthPc.refreshes_of_presents hq)
      rw [hprom] at hprom'
      exact absurd (Option.some.inj hprom').symm hj
  have hnot : c.refreshToken.1 ∉ replacedTokens tr := by
    rcases hcase with hp | ⟨hfresh, -⟩
    · obtain ⟨p, hp, heq⟩ := Option.map_eq_some_iff.1 hp
      rw [← heq]
      exact (hinv.presented p hp).2
    · exact fun hmem => hfresh (h.replaced _ hmem)
  refine ⟨?_, ?_, ?_, ?_, ?_⟩
  · intro j pc hj
    obtain ⟨rfl, rfl⟩ | ⟨hji, hj⟩ := AuthWorld.call_cases rfl hj
    · exact ⟨hinv.owner, nofun, nofun⟩
    · refine (h.calls j pc hj).keep rfl id (Finset.Subset.refl _) ?_ ?_ nofun
      · rintro t ⟨⟩ hoff
        obtain ⟨-, hpres | ⟨hfresh, -⟩⟩ := (h.calls j pc hj).offer _ hoff
        · obtain ⟨q, hq, heq⟩ := Option.map_eq_some_iff.1 hpres
          rcases hcase with hp | ⟨hfresh, -⟩
          · obtain ⟨p, hp, -⟩ := Option.map_eq_some_iff.1 hp
            rw [halone j pc hji hj p hp] at hq
            cases hq
          · exact hfresh (heq ▸ ((h.calls j pc hj).presented q hq).1)
        · rcases hcase with hp | ⟨-, hpriv⟩
          · obtain ⟨p, hp, heq⟩ := Option.map_eq_some_iff.1 hp
            exact hfresh (heq ▸ (hinv.presented p hp).1)
          · exact hpriv j pc hji hj hoff
      · intro t ht p hp
        obtain ⟨ht, -⟩ := Option.mem_filter_iff.1 ht
        obtain ⟨q, hq, -⟩ := Option.map_eq_some_iff.1 ht
        rw [halone j pc hji hj q hq] at hp
        cases hp
  · intro t ht
    have ht : c.refreshToken.1 = t := by simpa [storedToken, AuthWorld.goto, isStoredCredential_toJson] using ht
    subst ht
    rw [storedTokens_snoc, replacedTokens_snoc]
    refine ⟨by simp, fun hmem => ?_⟩
    rcases List.mem_append.1 hmem with hmem | hmem
    · exact hnot hmem
    · simpa using (Option.mem_filter_iff.1 (Option.mem_toList.1 hmem)).2
  · intro c' hc'
    obtain ⟨hin, hrep⟩ := h.memory c' hc'
    rw [storedTokens_snoc, replacedTokens_snoc]
    refine ⟨List.mem_append_left _ hin, ?_⟩
    intro hmem
    rcases List.mem_append.1 hmem with hmem | hmem
    · obtain ⟨j, pc, hj, hpc⟩ := hrep hmem
      have hji : j ≠ i := by
        rintro rfl
        rw [hi] at hj
        cases hj
        cases hpc
      exact ⟨j, pc, (Function.update_of_ne hji _ _).trans hj, hpc⟩
    · obtain ⟨hmem, -⟩ := Option.mem_filter_iff.1 (Option.mem_toList.1 hmem)
      refine ⟨i, _, Function.update_self .., ?_⟩
      cases job with
      | refresh p => rfl
      | claim | begin | poll => cases hmem
  · intro t ht
    rw [replacedTokens_snoc] at ht
    rw [storedTokens_snoc]
    refine List.mem_append_left _ ?_
    rcases List.mem_append.1 ht with ht | ht
    · exact h.replaced t ht
    · obtain ⟨ht, -⟩ := Option.mem_filter_iff.1 (Option.mem_toList.1 ht)
      obtain ⟨p, hp, rfl⟩ := Option.map_eq_some_iff.1 ht
      exact (hinv.presented p hp).1
  · intro t ht
    rw [storedTokens_snoc] at ht
    rcases List.mem_append.1 ht with ht | ht
    · exact h.issued t ht
    · obtain rfl : t = c.refreshToken.1 := by simpa using ht
      exact hissued

/-- The call may write: it has not met a `signOut`, and is not one of those that write nothing. -/
def Writer (tr : AuthTrace) (w : AuthWorld) (i : ℕ) : Prop :=
  SignedInSince tr i ∧ ∃ pc, w.calls i = some pc ∧ pc.harmless = false

theorem SignInv.not_writer (h : SignInv tr w) (hout : signedOut tr) : ¬ Writer tr w i := by
  rintro ⟨⟨-, hund⟩, pc, hpc, hharm⟩
  rcases (h.out hout).2.2 i pc hpc with hd | hh
  · rw [hund] at hd
    cases hd
  · rw [hharm] at hh
    cases hh

/-- **A step in which no `signOut` begins or ends.** -/
theorem SignInv.move (h : SignInv tr w) (hcaller : x.1.caller = i)
    (hx : x.2.began = none ∧ x.2.ended = none) (hcall : x.1.calls i → w.calls i = none)
    (hcalls : w'.calls = Function.update w.calls i (some pc'))
    (hstorage : ∀ c, w'.storage.bind isStoredCredential = some c →
      w.storage.bind isStoredCredential = some c ∨ Writer tr w i)
    (hmemory : ∀ c, w'.credential = some c → w.credential = some c ∨ Writer tr w i)
    (hsigns : pc'.signsOut = (w.calls i).any AuthPc.signsOut)
    (hremoved : ∀ caller, pc' = .removed caller → w'.storage.bind isStoredCredential = none)
    (hharmless : (∀ pc, w.calls i = some pc → pc.harmless) → w.credential = none →
      w.storage.bind isStoredCredential = none → x.1.pairs = false → pc'.harmless) :
    SignInv (tr ++ [x]) w' := by
  obtain ⟨hbegan, hended⟩ := hx
  have hS : signingOut (tr ++ [x]) = signingOut tr := by simp [signingOut_snoc, hbegan, hended]
  have hmarks : x.2.marks = false := by simp [AuthEffect.marks, hbegan, hended]
  refine ⟨?_, ?_, ?_, ?_⟩
  · intro j
    rw [hS, h.signing j, AuthWorld.signsOut_iff hcalls]
    split_ifs with hj
    · subst hj
      rw [hsigns]
      cases w.calls j <;> simp
    · rfl
  · intro hne
    rw [hS] at hne
    refine Option.eq_none_iff_forall_ne_some.2 fun c hc => ?_
    rcases hmemory c hc with hold | hwriter
    · rw [h.cleared hne] at hold
      cases hold
    · exact hne hwriter.1.1
  · intro j caller hj
    obtain ⟨-, hpc⟩ | ⟨-, hj⟩ := AuthWorld.call_cases hcalls hj
    · exact hremoved caller hpc.symm
    · refine Option.eq_none_iff_forall_ne_some.2 fun c hc => ?_
      rcases hstorage c hc with hold | hwriter
      · rw [h.removed j caller hj] at hold
        cases hold
      · have hin : j ∈ signingOut tr := (h.signing j).2 ⟨_, hj, rfl⟩
        rw [hwriter.1.1] at hin
        cases hin
  · intro hout
    rw [signedOut_snoc, hended] at hout
    simp only [Option.isSome_none, Bool.false_or, Bool.and_eq_true, Bool.not_eq_true'] at hout
    obtain ⟨hout, hpairs⟩ := hout
    obtain ⟨hcred, hstor, hall⟩ := h.out hout
    refine ⟨?_, ?_, ?_⟩
    · refine Option.eq_none_iff_forall_ne_some.2 fun c hc => ?_
      rcases hmemory c hc with hold | hwriter
      · rw [hcred] at hold
        cases hold
      · exact h.not_writer hout hwriter
    · refine Option.eq_none_iff_forall_ne_some.2 fun c hc => ?_
      rcases hstorage c hc with hold | hwriter
      · rw [hstor] at hold
        cases hold
      · exact h.not_writer hout hwriter
    · intro j pc hj
      rw [disturbed_snoc, hmarks, Bool.or_false]
      obtain ⟨rfl, rfl⟩ | ⟨hji, hj⟩ := AuthWorld.call_cases hcalls hj
      · cases hold : w.calls j with
        | none => exact .inr (hharmless (fun pc hpc => by rw [hold] at hpc; cases hpc) hcred hstor hpairs)
        | some pc =>
          have hnocall : x.1.calls j = false := by
            by_contra hc
            rw [hcall (by simpa using hc)] at hold
            cases hold
          rw [hnocall]
          refine (hall j pc hold).imp (fun hd => by simpa using hd) fun hh => ?_
          refine hharmless (fun pc' hpc' => ?_) hcred hstor hpairs
          rw [hold] at hpc'
          cases hpc'
          exact hh
      · rw [AuthAct.calls_of_ne hcaller hji]
        exact (hall j pc hj).imp_left fun hd => by simpa using hd

theorem disturbed_of_marks (hcaller : x.1.caller = i) (hmarks : x.2.marks)
    (hcalls : w'.calls = Function.update w.calls i (some pc')) (hharmless : pc'.harmless) {j : ℕ} {pc : AuthPc}
    (hj : w'.calls j = some pc) : disturbed j (tr ++ [x]) ∨ pc.harmless := by
  obtain ⟨-, rfl⟩ | ⟨hji, -⟩ := AuthWorld.call_cases hcalls hj
  · exact .inr hharmless
  · rw [disturbed_snoc, AuthAct.calls_of_ne hcaller hji, hmarks]
    exact .inl (by simp)

theorem SignInv.begin (h : SignInv tr w) (hcaller : x.1.caller = i) (hx : x.2 = { began := some i })
    {caller : SignOutFor}
    (hcalls : w'.calls = Function.update w.calls i (some (.removing caller)))
    (hstorage : w'.storage = w.storage) (hmemory : w'.credential = none) : SignInv (tr ++ [x]) w' := by
  refine ⟨?_, fun _ => hmemory, ?_, ?_⟩
  · intro j
    have hS : j ∈ signingOut (tr ++ [x]) ↔ j ∈ signingOut tr ∨ j = i := by
      simp [signingOut_snoc, hx, or_comm]
    rw [hS, AuthWorld.signsOut_iff hcalls, h.signing j]
    split_ifs with hj <;> simp [hj, AuthPc.signsOut]
  · intro j caller' hj
    obtain ⟨-, ⟨⟩⟩ | ⟨-, hj⟩ := AuthWorld.call_cases hcalls hj
    rw [hstorage]
    exact h.removed j caller' hj
  · intro hout
    rw [signedOut_snoc, hx] at hout
    simp only [Option.isSome_none, Bool.false_or, Bool.and_eq_true] at hout
    refine ⟨hmemory, ?_, fun j pc => disturbed_of_marks hcaller (by simp [hx, AuthEffect.marks]) hcalls rfl⟩
    rw [hstorage]
    exact (h.out hout.1).2.1

theorem SignInv.finish (h : SignInv tr w) {caller : SignOutFor} (hi : w.calls i = some (.removed caller))
    (hcaller : x.1.caller = i) (hx : x.2 = { ended := some i })
    (hcalls : w'.calls = Function.update w.calls i (some pc')) (hstorage : w'.storage = w.storage)
    (hmemory : w'.credential = w.credential) (hsigns : pc'.signsOut = false) (hharmless : pc'.harmless) :
    SignInv (tr ++ [x]) w' := by
  have hin : i ∈ signingOut tr := (h.signing i).2 ⟨_, hi, rfl⟩
  have hcred : w'.credential = none := by
    rw [hmemory]
    exact h.cleared (Finset.ne_empty_of_mem hin)
  refine ⟨?_, fun _ => hcred, ?_, ?_⟩
  · intro j
    have hS : j ∈ signingOut (tr ++ [x]) ↔ j ∈ signingOut tr ∧ j ≠ i := by
      simp [signingOut_snoc, hx]
    rw [hS, AuthWorld.signsOut_iff hcalls, h.signing j]
    split_ifs with hj <;> simp [hj, hsigns]
  · intro j caller' hj
    obtain ⟨-, rfl⟩ | ⟨-, hj⟩ := AuthWorld.call_cases hcalls hj
    · cases hsigns
    · rw [hstorage]
      exact h.removed j caller' hj
  · intro _
    refine ⟨hcred, ?_, fun j pc => disturbed_of_marks hcaller (by simp [hx, AuthEffect.marks]) hcalls hharmless⟩
    rw [hstorage]
    exact h.removed i caller hi

/-- What holds after the steps `tr`. -/
def AuthInv (t₀ : Option Text) (tr : AuthTrace) (w : AuthWorld) : Prop :=
  SignInv tr w ∧ TokenInv t₀ tr w

/-- **A step that writes no credential.** -/
theorem AuthInv.plain (h : AuthInv t₀ tr w) (hcaller : x.1.caller = i) (hx : x.2 = {})
    (hcall : x.1.calls i → w.calls i = none)
    (hcalls : w'.calls = Function.update w.calls i (some pc'))
    (hold : ∀ pc, w.calls i = some pc → pc.swapping = false)
    (hprom : ∀ j, j ≠ i → w.refreshPromise = some j → w'.refreshPromise = some j)
    (hissued : w.issued ⊆ w'.issued) (hstorage : w'.storage = w.storage ∨ w'.storage = none)
    (hmemory : w'.credential = w.credential ∨ w'.credential = none)
    (hsigns : pc'.signsOut = (w.calls i).any AuthPc.signsOut)
    (hremoved : ∀ caller, pc' = .removed caller → w'.storage = none)
    (hharmless : (∀ pc, w.calls i = some pc → pc.harmless) →
      w.storage.bind isStoredCredential = none → x.1.pairs = false → pc'.harmless)
    (howner : pc'.refreshes → w'.refreshPromise = some i)
    (hpresented : ∀ p ∈ pc'.presents, ∃ pc, w.calls i = some pc ∧ p ∈ pc.presents)
    (hoffer : ∀ t ∈ pc'.offers, t ∈ w'.issued ∧
      (pc'.presents.map (·.refreshToken.1) = some t ∨ t ∉ w.issued)) :
    AuthInv t₀ (tr ++ [x]) w' := by
  obtain ⟨hsign, htoken⟩ := h
  have hstor : ∀ c, w'.storage.bind isStoredCredential = some c → w.storage.bind isStoredCredential = some c := by
    intro c hc
    rcases hstorage with heq | hnone
    · rwa [heq] at hc
    · rw [hnone] at hc
      cases hc
  have hmem : ∀ c, w'.credential = some c → w.credential = some c := by
    intro c hc
    rcases hmemory with heq | hnone
    · rwa [heq] at hc
    · rw [hnone] at hc
      cases hc
  constructor
  · refine hsign.move hcaller (by simp [hx]) hcall hcalls (fun c hc => .inl (hstor c hc))
      (fun c hc => .inl (hmem c hc)) hsigns ?_ fun hall _ => hharmless hall
    intro caller hpc
    rw [hremoved caller hpc]
    rfl
  · refine htoken.move (by simp [hx]) hcalls hprom hissued hstor
      (fun c hc => .inl ⟨hmem c hc, hold⟩) howner ?_ hoffer
    intro p hp
    obtain ⟨pc, hpc, hp⟩ := hpresented p hp
    exact (htoken.calls i pc hpc).presented p hp

/-- `refresh`, up to its await, with a credential in memory that was there or is in storage. -/
theorem AuthInv.refresh (h : AuthInv t₀ tr w) (hcaller : x.1.caller = i)
    (hx : x.2.stored = none ∧ x.2.replaced = none ∧ x.2.began = none ∧ x.2.ended = none)
    (hcall : x.1.calls i → w.calls i = none) {cred : Option StoredCredential}
    (hcred : ∀ c, cred = some c →
      w.credential = some c ∨ (w.storage.bind isStoredCredential = some c ∧ Writer tr w i))
    (hold : ∀ pc, w.calls i = some pc → pc.signsOut = false ∧ pc.swapping = false) :
    AuthInv t₀ (tr ++ [x]) ({ w with credential := cred }.refresh i) := by
  obtain ⟨hsign, htoken⟩ := h
  have hsigns : (w.calls i).any AuthPc.signsOut = false := by
    cases hpc : w.calls i with
    | none => rfl
    | some pc => exact (hold pc hpc).1
  obtain ⟨pc', prom, hw, hnosign, hnostored, hnooffer, hprom, howner, hpres⟩ : ∃ pc' prom,
      ({ w with credential := cred } : AuthWorld).refresh i =
        ({ w with credential := cred, refreshPromise := prom } : AuthWorld).goto i pc' ∧
      pc'.signsOut = false ∧ (∀ caller, pc' ≠ .removed caller) ∧ pc'.offers = none ∧
      (∀ j, w.refreshPromise = some j → prom = some j) ∧ (pc'.refreshes → prom = some i) ∧
      ((pc'.presents = none ∧ pc'.harmless) ∨
        ∃ c, cred = some c ∧ pc'.presents = some c ∧ w.refreshPromise = none) := by
    cases hprom : w.refreshPromise with
    | some j =>
      exact ⟨.sharing j, some j, by simp [AuthWorld.refresh, AuthWorld.goto], rfl, nofun, rfl,
        fun _ h => h, nofun, .inl ⟨rfl, rfl⟩⟩
    | none =>
      cases cred with
      | none =>
        exact ⟨.settled (.threw (.lit "not_paired")), some i, by simp [AuthWorld.refresh], rfl,
          nofun, rfl, nofun, fun _ => rfl, .inl ⟨rfl, rfl⟩⟩
      | some c =>
        exact ⟨.fetching (.refresh c), some i, by simp [AuthWorld.refresh], rfl, nofun, rfl,
          nofun, fun _ => rfl, .inr ⟨c, rfl, rfl, rfl⟩⟩
  rw [hw]
  constructor
  · refine hsign.move hcaller hx.2.2 hcall rfl (fun c hc => .inl hc)
      (fun c hc => (hcred c hc).imp_right And.right) (hnosign.trans hsigns.symm)
      (fun caller hpc => absurd hpc (hnostored caller)) ?_
    intro _ hnone hstor _
    rcases hpres with ⟨-, hharm⟩ | ⟨c, hc, -, -⟩
    · exact hharm
    · rcases hcred c hc with hc | ⟨hc, -⟩
      · rw [hnone] at hc
        cases hc
      · rw [hstor] at hc
        cases hc
  · refine htoken.move ⟨hx.1, hx.2.1⟩ rfl (fun j _ hj => hprom j hj) (Finset.Subset.refl _)
      (fun c hc => hc) ?_ howner ?_ (by simp [hnooffer])
    · intro c hc
      rcases hcred c hc with hc | ⟨hc, -⟩
      · exact .inl ⟨hc, fun pc hpc => (hold pc hpc).2⟩
      · exact .inr hc
    · intro p hp
      rcases hpres with ⟨hnone, -⟩ | ⟨c, hcred', hpres, hfree⟩
      · rw [hnone] at hp
        cases hp
      · obtain rfl : c = p := Option.some.inj (hpres.symm.trans hp)
        rcases hcred c hcred' with hc | ⟨hc, -⟩
        · obtain ⟨hin, hrep⟩ := htoken.memory c hc
          refine ⟨hin, fun hmem => ?_⟩
          -- the refresh that has replaced it would still hold the promise
          obtain ⟨j, pc, hj, hswap⟩ := hrep hmem
          have howner := (htoken.calls j pc hj).owner (by
            cases pc with
            | stored job => cases job <;> first | rfl | cases hswap
            | _ => cases hswap)
          rw [hfree] at howner
          cases howner
        · exact htoken.storage _ (Option.map_eq_some_iff.2 ⟨c, hc, rfl⟩)

/-- A call goes on to a place where it neither presents a credential nor stores one. -/
theorem AuthInv.goto (h : AuthInv t₀ tr w) (hcaller : x.1.caller = i) (hx : x.2 = {})
    {pc : AuthPc} (hpc : w.calls i = some pc) (hcall : x.1.calls i = false)
    (hcalls : w'.calls = Function.update w.calls i (some pc'))
    (hprom : ∀ j, j ≠ i → w.refreshPromise = some j → w'.refreshPromise = some j)
    (hissued : w.issued ⊆ w'.issued) (hstorage : w'.storage = w.storage ∨ w'.storage = none)
    (hmemory : w'.credential = w.credential ∨ w'.credential = none)
    (hold : pc.swapping = false) (hsigns : pc'.signsOut = pc.signsOut)
    (hremoved : ∀ caller, pc' = .removed caller → w'.storage = none)
    (hharmless : pc.harmless → pc'.harmless)
    (howner : pc'.refreshes → w'.refreshPromise = some i) (hpresented : pc'.presents = none)
    (hoffer : pc'.offers = none) : AuthInv t₀ (tr ++ [x]) w' := by
  refine h.plain hcaller hx ?_ hcalls ?_ hprom hissued hstorage hmemory ?_ hremoved ?_ howner ?_ ?_
  · rw [hcall]
    exact nofun
  · intro pc'' hpc''
    rw [hpc] at hpc''
    cases hpc''
    exact hold
  · rw [hpc]
    exact hsigns
  · exact fun hall _ _ => hharmless (hall pc hpc)
  · rw [hpresented]
    exact nofun
  · rw [hoffer]
    exact nofun

theorem AuthInv.signOut (h : AuthInv t₀ tr w) (hcaller : x.1.caller = i) (hx : x.2 = { began := some i })
    (hissued : w.issued ⊆ w'.issued) {caller : SignOutFor}
    (hw : w' = ({ w with issued := w'.issued }.signOut i caller).1)
    (howner : caller ≠ .call → w.refreshPromise = some i) : AuthInv t₀ (tr ++ [x]) w' := by
  have hcalls : w'.calls = Function.update w.calls i (some (.removing caller)) := by rw [hw]; rfl
  have hstorage : w'.storage = w.storage := by rw [hw]; rfl
  have hmemory : w'.credential = none := by rw [hw]; rfl
  have hprom : w'.refreshPromise = w.refreshPromise := by rw [hw]; rfl
  refine ⟨h.1.begin hcaller hx hcalls hstorage hmemory, ?_⟩
  refine h.2.move (by simp [hx]) hcalls (fun j _ hj => hprom.trans hj) hissued ?_ ?_ ?_ nofun nofun
  · rw [hstorage]
    exact fun c hc => hc
  · rw [hmemory]
    exact nofun
  · intro hr
    rw [hprom]
    exact howner (by simpa [AuthPc.refreshes] using hr)

theorem AuthInv.finish (h : AuthInv t₀ tr w) (hcaller : x.1.caller = i) (hx : x.2 = {})
    {pc : AuthPc} (hpc : w.calls i = some pc) (hcall : x.1.calls i = false) (job : AuthJob)
    {reply : AuthReply} {I : Finset Text} (hissued : w.issued ⊆ I)
    (hold : pc.swapping = false ∧ pc.signsOut = false ∧ (pc.refreshes = job.previous.isSome)) :
    AuthInv t₀ (tr ++ [x]) ({ w with issued := I }.finish i job reply) := by
  have howner := (h.2.calls i pc hpc).owner
  cases job with
  | refresh p =>
    exact h.goto hcaller hx hpc hcall rfl (fun _ _ hj => hj) hissued (.inl rfl) (.inl rfl) hold.1
      hold.2.1.symm nofun (fun _ => rfl) (fun _ => howner hold.2.2) rfl rfl
  | claim | begin | poll =>
    exact h.goto hcaller hx hpc hcall rfl (fun _ _ hj => hj) hissued (.inl rfl) (.inl rfl) hold.1
      hold.2.1.symm nofun (fun _ => rfl) nofun rfl rfl

/-! ### The steps -/

variable {origin : Text}

theorem AuthInv.new (h : AuthInv t₀ tr w) {c : AuthCall} (hnew : w.calls i = none)
    (hcalls : w'.calls = Function.update w.calls i (some pc')) (hprom : w'.refreshPromise = w.refreshPromise)
    (hissued : w'.issued = w.issued) (hstorage : w'.storage = w.storage)
    (hmemory : w'.credential = w.credential) (hplain : pc'.signsOut = false ∧ pc'.refreshes = false ∧
      pc'.presents = none ∧ pc'.offers = none) (hharmless : c.pairs = false → pc'.harmless) :
    AuthInv t₀ (tr ++ [(.call i c, ⟨none, none, none, none, none⟩)]) w' := by
  obtain ⟨hsign, href, hpres, hoff⟩ := hplain
  refine h.plain (i := i) rfl rfl (fun _ => hnew) hcalls ?_ ?_ ?_ (.inl hstorage) (.inl hmemory) ?_ ?_ ?_ ?_ ?_ ?_
  · rw [hnew]
    exact nofun
  · rw [hprom]
    exact fun _ _ hj => hj
  · rw [hissued]
  · rw [hnew]
    exact hsign
  · rintro caller rfl
    cases hsign
  · exact fun _ _ hpairs => hharmless hpairs
  · rw [href]
    exact nofun
  · rw [hpres]
    exact nofun
  · rw [hoff]
    exact nofun

theorem AuthInv.call (h : AuthInv t₀ tr w) {c : AuthCall} (hnew : w.calls i = none) :
    AuthInv t₀ (tr ++ [(.call i c, (w.begin i c).2)]) (w.begin i c).1 := by
  cases c with
  | restore => exact h.new hnew rfl rfl rfl rfl rfl ⟨rfl, rfl, rfl, rfl⟩ fun _ => rfl
  | getAccessToken now =>
    simp only [AuthWorld.begin]
    split_ifs
    · exact h.new hnew rfl rfl rfl rfl rfl ⟨rfl, rfl, rfl, rfl⟩ fun _ => rfl
    · refine h.refresh (i := i) rfl ⟨rfl, rfl, rfl, rfl⟩ (fun _ => hnew) (fun c hc => .inl hc) ?_
      rw [hnew]
      exact nofun
  | signOut => exact h.signOut rfl rfl (Finset.Subset.refl _) rfl fun hne => absurd rfl hne
  | claimWithSession | beginPairing =>
    simp only [AuthWorld.begin]
    split_ifs
    all_goals exact h.new hnew rfl rfl rfl rfl rfl ⟨rfl, rfl, rfl, rfl⟩ nofun
  | pollPairing now =>
    simp only [AuthWorld.begin, AuthWorld.pollLoop]
    split
    · exact h.new hnew rfl rfl rfl rfl rfl ⟨rfl, rfl, rfl, rfl⟩ nofun
    · split_ifs
      all_goals exact h.new hnew rfl rfl rfl rfl rfl ⟨rfl, rfl, rfl, rfl⟩ nofun

theorem AuthInv.effect (h : AuthInv t₀ tr w) {pc : AuthPc} (hpc : w.calls i = some pc)
    (hfit : ∀ c ∈ pc.writes, SignedInSince tr i) {e : AuthEffect} (hs : w.takeEffect i pc = some (w', e)) :
    AuthInv t₀ (tr ++ [(.effect i, e)]) w' := by
  cases pc with
  | reading =>
    cases hs
    refine h.plain (i := i) rfl rfl nofun rfl ?_ (fun _ _ hj => hj) (Finset.Subset.refl _) (.inl rfl) (.inl rfl)
      ?_ nofun ?_ nofun nofun nofun
    · rw [hpc]
      rintro pc ⟨⟩
      rfl
    · rw [hpc]
      rfl
    · intro _ hstor _
      simpa [AuthPc.harmless] using hstor
  | clearing =>
    cases hs
    exact h.goto rfl rfl hpc rfl rfl (fun _ _ hj => hj) (Finset.Subset.refl _) (.inr rfl) (.inl rfl) rfl rfl
      nofun (fun _ => rfl) nofun rfl rfl
  | storing job c a e =>
    cases hs
    have hwriter : Writer tr w i := ⟨hfit c rfl, _, hpc, rfl⟩
    refine ⟨h.1.move (i := i) rfl ⟨rfl, rfl⟩ nofun rfl (fun _ _ => .inr hwriter) (fun _ hc => .inl hc) ?_ nofun ?_,
      h.2.set hpc⟩
    · rw [hpc]
      rfl
    · intro hall
      exact nomatch hall _ hpc
  | removing caller =>
    cases hs
    exact h.goto rfl rfl hpc rfl rfl (fun _ _ hj => hj) (Finset.Subset.refl _) (.inr rfl) (.inl rfl) rfl rfl
      (fun _ _ => rfl) (fun _ => rfl) (fun hr => (h.2.calls i _ hpc).owner hr) rfl rfl
  | read | cleared | sharing | fetching | failing | parsing | stored | opening | sleeping | closing
    | removed | settled | done => cases hs

theorem AuthInv.pollLoop (h : AuthInv t₀ tr w) {pc : AuthPc} (hpc : w.calls i = some pc) {pairing : PendingPairing}
    {now : ℚ} {tick : AuthTick} (hold : pc.swapping = false ∧ pc.signsOut = false)
    (hharmless : pc.harmless = false) :
    AuthInv t₀ (tr ++ [(.resume i tick, ⟨none, none, none, none, none⟩)]) (w.pollLoop i pairing now) := by
  unfold AuthWorld.pollLoop
  split_ifs
  all_goals
    refine h.goto rfl rfl hpc rfl rfl (fun _ _ hj => hj) (Finset.Subset.refl _) (.inl rfl) (.inl rfl) hold.1
      hold.2.symm nofun ?_ nofun rfl rfl
    rw [hharmless]
    exact nofun

theorem AuthInv.apply (h : AuthInv t₀ tr w) {job : AuthJob} (hpc : w.calls i = some (.parsing job))
    {value : Json} {tick : AuthTick} {e : AuthEffect}
    (hs : w.applyTokenResponse origin i job value = some (w', e)) :
    AuthInv t₀ (tr ++ [(.resume i tick, e)]) w' := by
  have hinv := h.2.calls i _ hpc
  unfold AuthWorld.applyTokenResponse at hs
  split at hs
  · cases hs
    exact h.finish (i := i) rfl rfl hpc rfl _ (Finset.Subset.refl _) ⟨rfl, rfl, rfl⟩
  · rename_i v hv
    split_ifs at hs with hrepeat hmismatch horigin
    · cases hs
      refine h.signOut (i := i) rfl rfl (Finset.subset_insert _ _) rfl fun _ => hinv.owner ?_
      cases hj : job.previous with
      | none => simp [hj] at hmismatch
      | some p => simp [AuthPc.refreshes, hj]
    · cases hs
      exact h.finish (i := i) rfl rfl hpc rfl _ (Finset.subset_insert _ _) ⟨rfl, rfl, rfl⟩
    · cases hs
      refine h.plain (i := i) rfl rfl nofun rfl ?_ (fun _ _ hj => hj) (Finset.subset_insert _ _) (.inl rfl)
        (.inl rfl) ?_ nofun ?_ hinv.owner (fun p hp => ⟨_, hpc, hp⟩) ?_
      · rw [hpc]
        rintro pc ⟨⟩
        rfl
      · rw [hpc]
        rfl
      · intro hall
        exact nomatch hall _ hpc
      · rintro t ⟨⟩
        refine ⟨Finset.mem_insert_self _ _, ?_⟩
        by_cases hin : v.refreshToken.1 ∈ w.issued
        · left
          have hsame : job.previous.map StoredCredential.refreshToken = some v.refreshToken := by
            by_contra hne
            exact hrepeat ⟨hin, hne⟩
          obtain ⟨p, hp, heq⟩ := Option.map_eq_some_iff.1 hsame
          exact Option.map_eq_some_iff.2 ⟨p, hp, congrArg Subtype.val heq⟩
        · exact .inr hin

theorem AuthInv.store (h : AuthInv t₀ tr w) {job : AuthJob} {c : StoredCredential} {a : Str} {e now : ℚ}
    (hpc : w.calls i = some (.stored job c a e)) {tick : AuthTick} (hund : SignedInSince tr i)
    (hstor : w.storage.bind isStoredCredential = some c) :
    AuthInv t₀ (tr ++ [(.resume i tick, { memory := some c.refreshToken.1 })])
      (w.afterStore i job c a e now) := by
  have hinv := h.2.calls i _ hpc
  obtain ⟨pc', hcalls, hprom, hissued, hstorage, hmemory, hsigns, hremoved, hpres, hoff, howner⟩ : ∃ pc',
      (w.afterStore i job c a e now).calls = Function.update w.calls i (some pc') ∧
      (w.afterStore i job c a e now).refreshPromise = w.refreshPromise ∧
      (w.afterStore i job c a e now).issued = w.issued ∧
      (w.afterStore i job c a e now).storage = w.storage ∧
      (w.afterStore i job c a e now).credential = some c ∧ pc'.signsOut = false ∧
      (∀ caller, pc' ≠ .removed caller) ∧ pc'.presents = none ∧ pc'.offers = none ∧
      (pc'.refreshes → w.refreshPromise = some i) := by
    unfold AuthWorld.afterStore
    cases job with
    | refresh p => exact ⟨_, rfl, rfl, rfl, rfl, rfl, rfl, nofun, rfl, rfl, fun _ => hinv.owner rfl⟩
    | claim | begin => exact ⟨_, rfl, rfl, rfl, rfl, rfl, rfl, nofun, rfl, rfl, nofun⟩
    | poll pairing =>
      cases w.verificationTabId with
      | none => exact ⟨_, rfl, rfl, rfl, rfl, rfl, rfl, nofun, rfl, rfl, nofun⟩
      | some tab => exact ⟨_, rfl, rfl, rfl, rfl, rfl, rfl, nofun, rfl, rfl, nofun⟩
  have hwriter : Writer tr w i := ⟨hund, _, hpc, rfl⟩
  constructor
  · refine h.1.move (i := i) rfl ⟨rfl, rfl⟩ nofun hcalls ?_ (fun _ _ => .inr hwriter) ?_
      (fun caller hc => absurd hc (hremoved caller)) ?_
    · rw [hstorage]
      exact fun c hc => .inl hc
    · rw [hpc]
      exact hsigns
    · intro hall
      exact nomatch hall _ hpc
  · refine h.2.move ⟨rfl, rfl⟩ hcalls ?_ ?_ ?_ ?_ ?_ ?_ ?_
    · rw [hprom]
      exact fun _ _ hj => hj
    · rw [hissued]
    · rw [hstorage]
      exact fun c hc => hc
    · rw [hmemory]
      rintro c' ⟨⟩
      exact .inr hstor
    · rw [hprom]
      exact howner
    · rw [hpres]
      exact nofun
    · rw [hoff]
      exact nofun

theorem AuthInv.fetched (h : AuthInv t₀ tr w) {job : AuthJob} (hpc : w.calls i = some (.fetching job))
    {tick : AuthTick} {status : Option ℕ} :
    AuthInv t₀ (tr ++ [(.resume i tick, ⟨none, none, none, none, none⟩)]) (w.afterFetch i job status) := by
  have hinv := h.2.calls i _ hpc
  -- the call goes on with the same job, or sleeps
  have hgo : ∀ {pc' pending}, pc'.signsOut = false → (pc'.refreshes → job.previous.isSome) →
      (∀ p ∈ pc'.presents, p ∈ job.previous) → pc'.offers = none →
      AuthInv t₀ (tr ++ [(.resume i tick, ⟨none, none, none, none, none⟩)])
        ({ w with pendingPairing := pending }.goto i pc') := by
    intro pc' pending hsigns href hpres hoff
    refine h.plain (i := i) rfl rfl nofun rfl ?_ (fun _ _ hj => hj) (Finset.Subset.refl _) (.inl rfl) (.inl rfl)
      ?_ ?_ ?_ (fun hr => hinv.owner (href hr)) (fun p hp => ⟨_, hpc, hpres p hp⟩) ?_
    · rw [hpc]
      rintro pc ⟨⟩
      rfl
    · rw [hpc]
      exact hsigns
    · rintro caller rfl
      cases hsigns
    · intro hall
      exact nomatch hall _ hpc
    · rw [hoff]
      exact nofun
  unfold AuthWorld.afterFetch
  cases status with
  | none => exact h.finish (i := i) rfl rfl hpc rfl _ (Finset.Subset.refl _) ⟨rfl, rfl, rfl⟩
  | some status =>
    by_cases hok : 200 ≤ status ∧ status < 300
    · simp only [if_pos hok]
      exact hgo rfl id (fun _ hp => hp) rfl
    · simp only [if_neg hok]
      cases job with
      | poll pairing =>
        by_cases hpending : status = 428
        · simp only [if_pos hpending]
          exact hgo rfl nofun nofun rfl
        · simp only [if_neg hpending]
          exact hgo rfl id (fun _ hp => hp) rfl
      | refresh | claim | begin => exact hgo rfl id (fun _ hp => hp) rfl

theorem AuthInv.failed (h : AuthInv t₀ tr w) {job : AuthJob} {status : ℕ}
    (hpc : w.calls i = some (.failing job status)) {tick : AuthTick} {code : Text} :
    AuthInv t₀ (tr ++ [(.resume i tick, (w.afterError i job status code).2)])
      (w.afterError i job status code).1 := by
  unfold AuthWorld.afterError
  cases job with
  | refresh p =>
    simp only
    split_ifs
    · exact h.signOut (i := i) rfl rfl (Finset.Subset.refl _) rfl fun _ => (h.2.calls i _ hpc).owner rfl
    · exact h.finish (i := i) rfl rfl hpc rfl (.refresh p) (Finset.Subset.refl _) ⟨rfl, rfl, rfl⟩
  | claim => exact h.finish (i := i) rfl rfl hpc rfl .claim (Finset.Subset.refl _) ⟨rfl, rfl, rfl⟩
  | begin => exact h.finish (i := i) rfl rfl hpc rfl .begin (Finset.Subset.refl _) ⟨rfl, rfl, rfl⟩
  | poll p => exact h.finish (i := i) rfl rfl hpc rfl (.poll p) (Finset.Subset.refl _) ⟨rfl, rfl, rfl⟩

theorem AuthInv.parsed (h : AuthInv t₀ tr w) {job : AuthJob} (hpc : w.calls i = some (.parsing job))
    {tick : AuthTick} {e : AuthEffect} (hs : w.afterParse origin i job tick = some (w', e)) :
    AuthInv t₀ (tr ++ [(.resume i tick, e)]) w' := by
  unfold AuthWorld.afterParse at hs
  split at hs
  · cases hs
    exact h.finish (i := i) rfl rfl hpc rfl _ (Finset.Subset.refl _) ⟨rfl, rfl, rfl⟩
  · cases job with
    | begin =>
      simp only at hs
      split at hs
      · cases hs
        exact h.finish (i := i) rfl rfl hpc rfl _ (Finset.Subset.refl _) ⟨rfl, rfl, rfl⟩
      · cases hs
        refine h.goto rfl rfl hpc rfl rfl (fun _ _ hj => hj) (Finset.Subset.refl _) (.inl rfl) (.inl rfl) rfl rfl
          ?_ ?_ ?_ rfl rfl
        · rintro _ ⟨⟩
        · rintro ⟨⟩
        · rintro ⟨⟩
    | refresh | claim | poll => exact h.apply hpc hs

theorem AuthInv.signedOut (h : AuthInv t₀ tr w) {caller : SignOutFor}
    (hpc : w.calls i = some (.removed caller)) {tick : AuthTick}
    (hcalls : w'.calls = Function.update w.calls i (some pc')) (hprom : w'.refreshPromise = w.refreshPromise)
    (hissued : w'.issued = w.issued) (hstorage : w'.storage = w.storage)
    (hmemory : w'.credential = w.credential) (hplain : pc'.signsOut = false ∧ pc'.harmless ∧
      pc'.presents = none ∧ pc'.offers = none) (howner : pc'.refreshes → caller ≠ .call) :
    AuthInv t₀ (tr ++ [(.resume i tick, { ended := some i })]) w' := by
  obtain ⟨hsigns, hharmless, hpres, hoff⟩ := hplain
  refine ⟨h.1.finish hpc rfl rfl hcalls hstorage hmemory hsigns hharmless, ?_⟩
  refine h.2.move ⟨rfl, rfl⟩ hcalls ?_ ?_ ?_ ?_ ?_ ?_ ?_
  · rw [hprom]
    exact fun _ _ hj => hj
  · rw [hissued]
  · rw [hstorage]
    exact fun c hc => hc
  · rw [hmemory, hpc]
    refine fun c hc => .inl ⟨hc, ?_⟩
    rintro pc ⟨⟩
    rfl
  · rw [hprom]
    exact fun hr => (h.2.calls i _ hpc).owner (by simpa [AuthPc.refreshes] using howner hr)
  · rw [hpres]
    exact nofun
  · rw [hoff]
    exact nofun

theorem AuthInv.resume (h : AuthInv t₀ tr w) {pc : AuthPc} (hpc : w.calls i = some pc) {tick : AuthTick}
    (hfit : ∀ c ∈ pc.writes, SignedInSince tr i ∧ (pc.sets ∨ w.storage.bind isStoredCredential = some c))
    {e : AuthEffect} (hs : w.resume origin i tick pc = some (w', e)) :
    AuthInv t₀ (tr ++ [(.resume i tick, e)]) w' := by
  cases pc with
  | read value =>
    simp only [AuthWorld.resume] at hs
    split at hs
    · cases hs
      exact h.goto rfl rfl hpc rfl rfl (fun _ _ hj => hj) (Finset.Subset.refl _) (.inl rfl) (.inr rfl) rfl rfl
        nofun (fun _ => rfl) nofun rfl rfl
    · cases hs
      exact h.goto rfl rfl hpc rfl rfl (fun _ _ hj => hj) (Finset.Subset.refl _) (.inl rfl) (.inl rfl) rfl rfl
        nofun (fun _ => rfl) nofun rfl rfl
    · rename_i c hc
      cases hs
      obtain ⟨hund, hstor | hstor⟩ := hfit c hc
      · cases hstor
      refine h.refresh (i := i) rfl ⟨rfl, rfl, rfl, rfl⟩ ?_ ?_ ?_
      · exact nofun
      · rintro c' ⟨⟩
        exact .inr ⟨hstor, hund, _, hpc, by simp [AuthPc.harmless, hc]⟩
      · rw [hpc]
        rintro pc ⟨⟩
        exact ⟨rfl, rfl⟩
  | cleared =>
    cases hs
    exact h.goto rfl rfl hpc rfl rfl (fun _ _ hj => hj) (Finset.Subset.refl _) (.inl rfl) (.inr rfl) rfl rfl
      nofun (fun _ => rfl) nofun rfl rfl
  | sharing j =>
    simp only [AuthWorld.resume] at hs
    split at hs
    · cases hs
      exact h.goto rfl rfl hpc rfl rfl (fun _ _ hj => hj) (Finset.Subset.refl _) (.inl rfl) (.inl rfl) rfl rfl
        nofun (fun _ => rfl) nofun rfl rfl
    · cases hs
      exact h.goto rfl rfl hpc rfl rfl (fun _ _ hj => hj) (Finset.Subset.refl _) (.inl rfl) (.inl rfl) rfl rfl
        nofun (fun _ => rfl) nofun rfl rfl
    · cases hs
  | fetching job =>
    cases hs
    exact h.fetched hpc
  | failing job status =>
    obtain ⟨rfl, rfl⟩ := Prod.mk.inj (Option.some.inj hs)
    exact h.failed hpc
  | parsing job => exact h.parsed hpc hs
  | stored job c a e =>
    cases hs
    obtain ⟨hund, hstor | hstor⟩ := hfit c rfl
    · cases hstor
    · exact h.store hpc hund hstor
  | opening | closing =>
    cases hs
    exact h.goto rfl rfl hpc rfl rfl (fun _ _ hj => hj) (Finset.Subset.refl _) (.inl rfl) (.inl rfl) rfl rfl
      nofun (fun _ => rfl) nofun rfl rfl
  | sleeping pairing =>
    cases hs
    exact h.pollLoop hpc ⟨rfl, rfl⟩ rfl
  | removed caller =>
    cases caller with
    | call =>
      cases hs
      exact h.signedOut hpc rfl rfl rfl rfl rfl ⟨rfl, rfl, rfl, rfl⟩ nofun
    | refresh code =>
      cases hs
      exact h.signedOut hpc rfl rfl rfl rfl rfl ⟨rfl, rfl, rfl, rfl⟩ nofun
  | settled reply =>
    cases hs
    refine h.goto rfl rfl hpc rfl rfl ?_ (Finset.Subset.refl _) (.inl rfl) (.inl rfl) rfl rfl
      nofun (fun _ => rfl) nofun rfl rfl
    intro j hj hprom
    rw [(h.2.calls i _ hpc).owner rfl] at hprom
    exact absurd (Option.some.inj hprom).symm hj
  | reading | clearing | storing | removing | done => cases hs

theorem AuthInv.step (h : AuthInv t₀ tr w) {a : AuthAct} {e : AuthEffect} (hfit : AuthFits (tr, w) a)
    (hs : w.step origin a = some (w', e)) : AuthInv t₀ (tr ++ [(a, e)]) w' := by
  cases a with
  | call i c =>
    cases hnew : w.calls i with
    | some pc => simp [AuthWorld.step, hnew] at hs
    | none =>
      simp only [AuthWorld.step, hnew, Option.some.injEq] at hs
      obtain ⟨rfl, rfl⟩ := Prod.mk.inj hs
      exact h.call hnew
  | effect i =>
    obtain ⟨pc, hpc, hs⟩ := Option.bind_eq_some_iff.1 hs
    exact h.effect hpc (fun c hc => (hfit pc hpc c hc).1) hs
  | resume i tick =>
    obtain ⟨pc, hpc, hs⟩ := Option.bind_eq_some_iff.1 hs
    exact h.resume hpc (hfit pc hpc) hs

theorem AuthInv.start (storage : Option Json) : AuthInv (storedToken storage) [] (.start storage) := by
  constructor
  · refine ⟨fun i => ?_, fun hne => absurd rfl hne, nofun, nofun⟩
    simp [signingOut, AuthWorld.start]
  · refine ⟨nofun, fun t ht => ?_, nofun, nofun, fun t ht => ?_⟩
    · have ht : storedToken storage = some t := ht
      simp [storedTokens, ht, replacedTokens]
    · simpa [storedTokens, AuthWorld.start] using ht

/-! ## What a step writes -/

theorem begin_effect (c : AuthCall) : (w.begin i c).2.memory = none ∧ (w.begin i c).2.stored = none := by
  unfold AuthWorld.begin
  cases c with
  | restore | signOut => exact ⟨rfl, rfl⟩
  | getAccessToken | claimWithSession | beginPairing =>
    dsimp only
    split_ifs
    all_goals exact ⟨rfl, rfl⟩
  | pollPairing now =>
    dsimp only
    split
    all_goals exact ⟨rfl, rfl⟩

theorem takeEffect_effect {pc : AuthPc} {e : AuthEffect} (hs : w.takeEffect i pc = some (w', e)) :
    e.memory = none ∧ ∀ t ∈ e.stored, t ∈ pc.offers := by
  cases pc with
  | storing job c a x =>
    cases hs
    exact ⟨rfl, fun t ht => ht⟩
  | reading | clearing | removing =>
    cases hs
    exact ⟨rfl, nofun⟩
  | read | cleared | sharing | fetching | failing | parsing | stored | opening | sleeping | closing
    | removed | settled | done => cases hs

theorem apply_effect {job : AuthJob} {value : Json} {e : AuthEffect}
    (hs : w.applyTokenResponse origin i job value = some (w', e)) : e.memory = none ∧ e.stored = none := by
  unfold AuthWorld.applyTokenResponse at hs
  split at hs
  · cases hs
    exact ⟨rfl, rfl⟩
  · split_ifs at hs
    all_goals
      cases hs
      exact ⟨rfl, rfl⟩

theorem parse_effect {job : AuthJob} {tick : AuthTick} {e : AuthEffect}
    (hs : w.afterParse origin i job tick = some (w', e)) : e.memory = none ∧ e.stored = none := by
  unfold AuthWorld.afterParse at hs
  split at hs
  · cases hs
    exact ⟨rfl, rfl⟩
  · split at hs
    · split at hs
      all_goals
        cases hs
        exact ⟨rfl, rfl⟩
    · exact apply_effect hs

theorem resume_effect {pc : AuthPc} {tick : AuthTick} {e : AuthEffect}
    (hs : w.resume origin i tick pc = some (w', e)) :
    e.stored = none ∧ ∀ t ∈ e.memory, ∃ c ∈ pc.writes, c.refreshToken.1 = t ∧ pc.sets = false := by
  cases pc with
  | read value =>
    simp only [AuthWorld.resume] at hs
    split at hs
    · cases hs
      exact ⟨rfl, nofun⟩
    · cases hs
      exact ⟨rfl, nofun⟩
    · rename_i c hc
      cases hs
      refine ⟨rfl, ?_⟩
      rintro t ⟨⟩
      exact ⟨c, hc, rfl, rfl⟩
  | stored job c a x =>
    cases hs
    refine ⟨rfl, ?_⟩
    rintro t ⟨⟩
    exact ⟨c, rfl, rfl, rfl⟩
  | parsing job =>
    obtain ⟨hmem, hstored⟩ := parse_effect hs
    refine ⟨hstored, ?_⟩
    rw [hmem]
    exact nofun
  | failing job status =>
    have hs : w.afterError i job status (responseErrorCode status tick.body) = (w', e) := Option.some.inj hs
    unfold AuthWorld.afterError at hs
    cases job with
    | refresh p =>
      dsimp only at hs
      split_ifs at hs
      all_goals
        cases hs
        exact ⟨rfl, nofun⟩
    | claim | begin | poll =>
      cases hs
      exact ⟨rfl, nofun⟩
  | sharing j =>
    simp only [AuthWorld.resume] at hs
    split at hs
    · cases hs
      exact ⟨rfl, nofun⟩
    · cases hs
      exact ⟨rfl, nofun⟩
    · cases hs
  | cleared | fetching | opening | sleeping | closing | settled =>
    cases hs
    exact ⟨rfl, nofun⟩
  | removed caller =>
    cases caller with
    | call | refresh =>
      cases hs
      exact ⟨rfl, nofun⟩
  | reading | clearing | storing | removing | done => cases hs

theorem AuthInv.forward (h : AuthInv t₀ tr w) {a : AuthAct} {e : AuthEffect} (hfit : AuthFits (tr, w) a)
    (hs : w.step origin a = some (w', e)) {t : Text} (ht : e.memory = some t ∨ e.stored = some t) :
    t ∉ replacedTokens tr := by
  cases a with
  | call i c =>
    cases hnew : w.calls i with
    | some pc => simp [AuthWorld.step, hnew] at hs
    | none =>
      simp only [AuthWorld.step, hnew, Option.some.injEq] at hs
      obtain ⟨hmem, hstored⟩ := begin_effect (w := w) (i := i) c
      rw [hs] at hmem hstored
      rw [hmem, hstored] at ht
      rcases ht with ht | ht <;> cases ht
  | effect i =>
    obtain ⟨pc, hpc, hs⟩ := Option.bind_eq_some_iff.1 hs
    obtain ⟨hmem, hstored⟩ := takeEffect_effect hs
    rw [hmem] at ht
    rcases ht with ht | ht
    · cases ht
    · -- it is the one that is presented, or was never stored
      obtain ⟨-, hpres | ⟨hfresh, -⟩⟩ := (h.2.calls i pc hpc).offer t (hstored t ht)
      · obtain ⟨p, hp, rfl⟩ := Option.map_eq_some_iff.1 hpres
        exact ((h.2.calls i pc hpc).presented p hp).2
      · exact fun hmem => hfresh (h.2.replaced t hmem)
  | resume i tick =>
    obtain ⟨pc, hpc, hs⟩ := Option.bind_eq_some_iff.1 hs
    obtain ⟨hstored, hmem⟩ := resume_effect hs
    rw [hstored] at ht
    rcases ht with ht | ht
    · obtain ⟨c, hc, rfl, hsets⟩ := hmem t ht
      obtain ⟨-, hset | hstor⟩ := hfit pc hpc c hc
      · rw [hsets] at hset
        cases hset
      · exact (h.2.storage _ (Option.map_eq_some_iff.2 ⟨c, hstor, rfl⟩)).2
    · cases ht

end

/-! ## The result -/

variable {storage : Option Json} {origin : Text} {tr : AuthTrace} {y : AuthTrace × AuthWorld}

/-- **Signing out is final and refresh tokens move forward, as long as nobody writes a credential
    that has met a `signOut`, or that storage no longer holds.** -/
theorem authSafe (h : (authMachine origin).recording.RunIn AuthFits ([], .start storage) tr y) :
    AuthSafe tr y.2 := by
  obtain ⟨hinv, hforward⟩ := h.positions (I := AuthInv (storedToken storage))
    (P := fun xs x => ∀ t, x.2.memory = some t ∨ x.2.stored = some t → t ∉ replacedTokens xs)
    (fun tr s a t e hfit hI hs => ⟨hI.step hfit hs, fun _ ht => hI.forward hfit hs ht⟩) (.start storage)
  refine ⟨fun hout => ?_, hforward⟩
  obtain ⟨hcred, hstor, -⟩ := hinv.1.out hout
  exact ⟨by rw [AuthWorld.paired, hcred]; rfl, hstor⟩

/-! ## Runs -/

/-- Has the call settled? -/
def AuthPc.ended : AuthPc → Bool
  | done _ => true
  | _ => false

namespace Sample

def authJson (token : String) : Json :=
  .obj [(.lit "serverOrigin", .str (.lit "https://tide-bot.com")), (.lit "deviceId", .str (.lit "d")),
    (.lit "refreshToken", .str (.lit token)), (.lit "tokenFamilyId", .str (.lit "f"))]

def authTick (token : String) : AuthTick where
  now := 0
  status := some 200
  body := some (.obj [(.lit "access_token", .str (.lit "a")), (.lit "refresh_token", .str (.lit token)),
    (.lit "token_type", .str (.lit "Bearer")), (.lit "expires_in", .int 600),
    (.lit "token_family_id", .str (.lit "f")),
    (.lit "device", .obj [(.lit "id", .str (.lit "d")), (.lit "allowed_origin", .str (.lit "https://tide-bot.com"))])])
  tab := none

/-- Call `i` sends its request, and stores what comes back. -/
def fetches (i : ℕ) (token : String) : List AuthAct :=
  [.resume i (authTick token), .resume i (authTick token), .effect i, .resume i (authTick token)]

def restores (i : ℕ) : List AuthAct := [.call i .restore, .effect i, .resume i (authTick "")]

def settles (i : ℕ) : List AuthAct := [.resume i (authTick "")]

def signsOut (i : ℕ) : List AuthAct := [.call i .signOut, .effect i, .resume i (authTick "")]

end Sample

/-- Pairing, a refresh that rotates the token, and `signOut`. -/
theorem authSafe_leaves : ∃ tr y, (authMachine (.lit "https://tide-bot.com")).recording.RunIn AuthFits
      ([], .start none) tr y ∧
    replacedTokens tr = [.lit "r0"] ∧ signedOut tr ∧ AuthSafe tr y.2 := by
  obtain ⟨⟨tr, y⟩, hm, hrep, hout⟩ : ∃ r ∈ (authMachine (.lit "https://tide-bot.com")).recording.exec AuthFits
      ([], .start none)
      ([.call 0 (.claimWithSession (.lit "laptop"))] ++ Sample.fetches 0 "r0" ++ Sample.restores 1 ++
        Sample.fetches 1 "r1" ++ Sample.settles 1 ++ Sample.signsOut 2),
      replacedTokens r.1 = [.lit "r0"] ∧ signedOut r.1 := by
    decide +kernel
  exact ⟨tr, y, Machine.runIn_of_exec hm, hrep, hout, authSafe (Machine.runIn_of_exec hm)⟩

/-- A refresh that is in flight when `signOut` is called pairs the extension again; `restore` puts
    the token that it has read back in memory, after another call has replaced it. -/
theorem authSafe_fails :
    (∃ tr w, (authMachine (.lit "https://tide-bot.com")).Run (.start (some (Sample.authJson "r0"))) tr w ∧
      signedOut tr ∧ (∀ x ∈ tr, (w.calls x.1.caller).any AuthPc.ended) ∧ w.paired ∧
      w.storage.bind isStoredCredential ≠ none) ∧
    (∃ tr x w, (authMachine (.lit "https://tide-bot.com")).Run (.start (some (Sample.authJson "r0")))
      (tr ++ [x]) w ∧ ∃ t ∈ replacedTokens tr, x.2.memory = some t) := by
  constructor
  · obtain ⟨⟨tr, w⟩, hm, h⟩ : ∃ r ∈ (authMachine (.lit "https://tide-bot.com")).exec (fun _ _ => True)
        (.start (some (Sample.authJson "r0")))
        (Sample.restores 0 ++ Sample.signsOut 1 ++ Sample.fetches 0 "r1" ++ Sample.settles 0),
        signedOut r.1 ∧ (∀ x ∈ r.1, (r.2.calls x.1.caller).any AuthPc.ended) ∧ r.2.paired ∧
          r.2.storage.bind isStoredCredential ≠ none := by
      decide +kernel
    exact ⟨tr, w, Machine.runIn_of_exec hm, h⟩
  · obtain ⟨⟨tr, w⟩, hm, x, hx, hrep, hmem⟩ : ∃ r ∈ (authMachine (.lit "https://tide-bot.com")).exec
        (fun _ _ => True) (.start (some (Sample.authJson "r0")))
        ([.call 0 .restore, .effect 0] ++ Sample.restores 1 ++ Sample.fetches 1 "r1" ++ Sample.settles 1 ++
          [.resume 0 (Sample.authTick "")]),
        ∃ x ∈ r.1.getLast?, .lit "r0" ∈ replacedTokens r.1.dropLast ∧ x.2.memory = some (.lit "r0") := by
      decide +kernel
    refine ⟨tr.dropLast, x, w, ?_, _, hrep, hmem⟩
    rw [List.dropLast_append_getLast? x hx]
    exact Machine.runIn_of_exec hm

end TideBot
