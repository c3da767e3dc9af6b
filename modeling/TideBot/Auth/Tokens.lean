/-
  Session tokens and their revocation (`utils/auth.py`, with Redis).

  A token is signed with its claims: the user, an id of its own, and the seconds at which it was issued and expires.
  `invalidate_token` stores a marker under the id of one token; `revoke_user_tokens` stores one for a user, which
  rejects the tokens issued until then.  Both markers have a time to live.  A request decodes its token, reads the
  marker of the token, then that of the user, and then the user.  Between any two of these commands, and between the
  reading of the clock and the command that stores a marker, anything else may happen.

  `signed` are the tokens that the secret has signed, so that no other text is decoded.  The ids of new tokens are
  new (`uuid4`), and the clock, which is that of Redis as well, does not go backwards (`ClockForward`).
-/
import TideBot.Lib.Machine
import TideBot.Lib.Text
import TideBot.Lib.Timed

namespace TideBot

open Lib

/-- The claims of a token that are read; each may be missing. -/
structure TokenClaims where
  id : Option Text
  jti : Option Text
  exp : Option ℤ
  iat : Option ℤ
deriving DecidableEq

/-- `jwt.decode` checks the times of a token: it has not expired, and is not from the future. -/
def TokenClaims.Timely (c : TokenClaims) (now : ℚ) : Prop := (∀ e ∈ c.exp, now < e) ∧ ∀ t ∈ c.iat, (t : ℚ) ≤ now

instance (c : TokenClaims) (now : ℚ) : Decidable (c.Timely now) :=
  inferInstanceAs (Decidable ((∀ e ∈ c.exp, now < e) ∧ ∀ t ∈ c.iat, (t : ℚ) ≤ now))

/-- A lifetime of zero is none. -/
def lifetime (expiresDelta : Option ℚ) : Option ℚ := expiresDelta.filter (· ≠ 0)

/-- The claims that `create_token` signs; it reads the clock twice. -/
def createToken (id : Text) (expiresDelta : Option ℚ) (jti : Text) (now now' : ℚ) : TokenClaims where
  id := some id
  jti := some jti
  exp := (lifetime expiresDelta).map fun d => ⌊now + d⌋
  iat := some ⌊now'⌋

/-- Where a call goes on. -/
inductive TokenCall where
  /-- `is_valid_token`, with the marker of the token -/
  | readingToken (claims : TokenClaims)
  /-- `is_valid_token`, with the marker of the user; that of the token was read at a time -/
  | readingUser (claims : TokenClaims) (tokenAt : ℚ)
  /-- `get_verified_user_by_token`, with the user -/
  | loadingUser (claims : TokenClaims) (tokenAt userAt : ℚ)
  /-- `invalidate_token`, with `SET` -/
  | invalidating (claims : TokenClaims) (jti : Text) (ttl : ℤ)
  /-- `revoke_user_tokens`, with the clock; the lifetime has been read -/
  | revoking (user : Text) (expiresDelta : Option ℚ)
  /-- `revoke_user_tokens`, with `SET` -/
  | marking (user : Text) (expiresDelta : Option ℚ) (revokedAt : ℤ)
deriving DecidableEq

structure TokenWorld where
  signed : Dict Text TokenClaims
  /-- `auth:token:{jti}:revoked` -/
  tokens : Timed Text Unit ℚ
  /-- `auth:user:{user_id}:revoked_at` -/
  users : Timed Text ℤ ℚ
  /-- `auth.jwt_expiry`, as `parse_duration` reads it -/
  jwtExpiry : Option ℚ
  calls : Dict ℕ TokenCall
  /-- The latest reading of the clock. -/
  clock : ℚ

inductive TokenStep where
  /-- The configured lifetime changes. -/
  | configure (jwtExpiry : Option ℚ)
  /-- `create_token` -/
  | create (id : Text) (expiresDelta : Option ℚ) (token jti : Text) (now now' : ℚ)
  /-- `invalidate_token`: the clock is read to decode, and for the time to live -/
  | invalidate (call : ℕ) (token : Text) (decodedAt now : ℚ)
  /-- `revoke_user_tokens`: the lifetime is read -/
  | revokeUser (call : ℕ) (user : Text)
  /-- `get_verified_user_by_token`: the token is decoded -/
  | request (call : ℕ) (token : Text) (now : ℚ)
  /-- The next command of a call, or reading of the clock; the role is that of the user, if there is one. -/
  | resume (call : ℕ) (now : ℚ) (role : Option Text)
deriving DecidableEq

inductive TokenEvent where
  | none
  /-- A marker has been stored for a token, or for a user. -/
  | invalidated (claims : TokenClaims)
  | revoked (user : Text) (revokedAt : ℤ)
  | raised
  | rejected
  /-- The request goes through; the markers were read at these times. -/
  | accepted (claims : TokenClaims) (tokenAt userAt : ℚ)
deriving DecidableEq

/-- When the marker of a user goes: after the lifetime of a token in whole seconds. -/
def markerEnd (expiresDelta : Option ℚ) (now : ℚ) : Option ℚ := (lifetime expiresDelta).map fun d => now + ⌊d⌋

namespace TokenWorld

variable (w : TokenWorld)

/-- `decode_token` -/
def decodeToken (token : Text) (now : ℚ) : Option TokenClaims := (w.signed.get token).filter fun c => c.Timely now

def await (call : ℕ) (c : TokenCall) : TokenWorld := { w with calls := w.calls.set call c }

def finish (call : ℕ) : TokenWorld := { w with calls := w.calls.erase call }

/-- `invalidate_token`; an empty id and the second 0 are no claims. -/
def invalidateToken (call : ℕ) (token : Text) (decodedAt now : ℚ) : TokenWorld :=
  match w.decodeToken token decodedAt with
  | some c =>
    match c.jti, c.exp with
    | some jti, some exp =>
      if jti ≠ [] ∧ exp ≠ 0 ∧ 0 < exp - ⌊now⌋ then w.await call (.invalidating c jti (exp - ⌊now⌋)) else w
    | _, _ => w
  | none => w

/-- The marker of the token is there. -/
def TokenRevoked (c : TokenClaims) (now : ℚ) : Prop :=
  ∃ jti ∈ c.jti, jti ≠ [] ∧ (Timed.live w.tokens now jti).isSome

instance (c : TokenClaims) (now : ℚ) : Decidable (w.TokenRevoked c now) :=
  inferInstanceAs (Decidable (∃ jti ∈ c.jti, jti ≠ [] ∧ (Timed.live w.tokens now jti).isSome))

/-- The marker of the user is there, and the token is not newer; without `iat` it counts as older. -/
def UserRevoked (c : TokenClaims) (now : ℚ) : Prop :=
  ∃ id ∈ c.id, id ≠ [] ∧ ∃ revokedAt ∈ Timed.live w.users now id, ∀ t ∈ c.iat, t ≤ revokedAt

instance (c : TokenClaims) (now : ℚ) : Decidable (w.UserRevoked c now) :=
  inferInstanceAs (Decidable (∃ id ∈ c.id, id ≠ [] ∧ ∃ revokedAt ∈ Timed.live w.users now id,
    ∀ t ∈ c.iat, t ≤ revokedAt))

/-- A call goes on; `SET` raises for a time to live that is not positive. -/
def resume (call : ℕ) (now : ℚ) (role : Option Text) : TokenCall → TokenWorld × TokenEvent
  | .readingToken c =>
    if w.TokenRevoked c now then (w.finish call, .rejected) else (w.await call (.readingUser c now), .none)
  | .readingUser c tokenAt =>
    if w.UserRevoked c now then (w.finish call, .rejected) else (w.await call (.loadingUser c tokenAt now), .none)
  | .loadingUser c tokenAt userAt =>
    (w.finish call, if role ∈ [some (.lit "user"), some (.lit "admin")] then .accepted c tokenAt userAt else .rejected)
  | .invalidating c jti ttl => ({ w.finish call with tokens := w.tokens.set jti ((), some (now + ttl)) }, .invalidated c)
  | .revoking user expiresDelta => (w.await call (.marking user expiresDelta ⌊now⌋), .none)
  | .marking user expiresDelta revokedAt =>
    if ∀ d ∈ lifetime expiresDelta, 0 < ⌊d⌋ then
      ({ w.finish call with users := w.users.set user (revokedAt, markerEnd expiresDelta now) }, .revoked user revokedAt)
    else (w.finish call, .raised)

end TokenWorld

/-- The clock is read. -/
def atClock (t : ℚ) (r : TokenWorld × TokenEvent) : TokenWorld × TokenEvent := ({ r.1 with clock := t }, r.2)

/-- Session tokens as a machine; a token and an id that are signed must be new. -/
def tokenMachine : Machine TokenWorld TokenStep TokenEvent where
  step w
    | .configure jwtExpiry => some ({ w with jwtExpiry }, .none)
    | .create id expiresDelta token jti now now' =>
      if (w.signed.get token).isSome ∨ ∃ e ∈ w.signed.entries, e.2.jti = some jti then none
      else some (atClock now' ({ w with signed := w.signed.set token (createToken id expiresDelta jti now now') }, .none))
    | .invalidate call token decodedAt now =>
      if (w.calls.get call).isSome then none
      else some (atClock now (w.invalidateToken call token decodedAt now, .none))
    | .revokeUser call user =>
      if (w.calls.get call).isSome then none else some (w.await call (.revoking user w.jwtExpiry), .none)
    | .request call token now =>
      if (w.calls.get call).isSome then none
      else some (atClock now (match (w.decodeToken token now).filter fun c => c.id.isSome with
        | none => (w, .rejected)
        | some c => (w.await call (.readingToken c), .none)))
    | .resume call now role => (w.calls.get call).map fun c => atClock now (w.resume call now role c)

/-- The readings of a step come in order, after those before. -/
def ClockForward (w : TokenWorld) : TokenStep → Prop
  | .configure _ | .revokeUser .. => True
  | .create _ _ _ _ now now' | .invalidate _ _ now now' => w.clock ≤ now ∧ now ≤ now'
  | .request _ _ now | .resume _ now _ => w.clock ≤ now

instance (w : TokenWorld) : (i : TokenStep) → Decidable (ClockForward w i)
  | .configure _ | .revokeUser .. => inferInstanceAs (Decidable True)
  | .create .. | .invalidate .. => inferInstanceAs (Decidable (_ ∧ _))
  | .request .. | .resume .. => inferInstanceAs (Decidable (_ ≤ _))

/-! ## What a step does -/

variable {w w' : TokenWorld} {tr : List (TokenStep × TokenEvent)} {i : TokenStep} {o : TokenEvent} {c : TokenClaims}

/-- What a call that has just got here knows. -/
def TokenCall.Follows (w : TokenWorld) (call : ℕ) (now : ℚ) : TokenCall → Prop
  | .readingToken _ => True
  | .revoking _ expiresDelta => expiresDelta = w.jwtExpiry
  | .readingUser c tokenAt => ¬ w.TokenRevoked c tokenAt ∧ tokenAt ≤ now
  | .loadingUser c tokenAt userAt =>
    w.calls.get call = some (.readingUser c tokenAt) ∧ ¬ w.UserRevoked c userAt ∧ userAt ≤ now
  | .invalidating c jti ttl =>
    c.jti = some jti ∧ jti ≠ [] ∧ ∃ token exp, w.signed.get token = some c ∧ c.exp = some exp ∧ (exp : ℚ) ≤ now + ttl
  | .marking user expiresDelta revokedAt =>
    w.calls.get call = some (.revoking user expiresDelta) ∧ (revokedAt : ℚ) ≤ now

/-- **What a step does.** -/
structure TokenDoes (w : TokenWorld) (i : TokenStep) (w' : TokenWorld) (o : TokenEvent) : Prop where
  clock : w.clock ≤ w'.clock
  configured : w'.jwtExpiry = w.jwtExpiry ∨ i = .configure w'.jwtExpiry
  signed : w'.signed = w.signed ∨ ∃ id delta token jti now now', i = .create id delta token jti now now' ∧
    now ≤ w'.clock ∧ w.signed.get token = none ∧ (∀ e ∈ w.signed.entries, e.2.jti ≠ some jti) ∧
      w'.signed = w.signed.set token (createToken id delta jti now now')
  tokens : w'.tokens = w.tokens ∨ ∃ call c jti ttl, w.calls.get call = some (.invalidating c jti ttl) ∧
    w'.tokens = w.tokens.set jti ((), some (w'.clock + ttl))
  users : w'.users = w.users ∨ ∃ call user expiresDelta revokedAt now role, i = .resume call now role ∧
    w.calls.get call = some (.marking user expiresDelta revokedAt) ∧
    w'.users = w.users.set user (revokedAt, markerEnd expiresDelta now)
  calls : ∀ call p, w'.calls.get call = some p → w.calls.get call = some p ∨ p.Follows w call w'.clock
  accepted : ∀ c t t', o = .accepted c t t' → ∃ call now role, i = .resume call now role ∧
    w.calls.get call = some (.loadingUser c t t')

theorem TokenDoes.idle (hclock : w.clock ≤ w'.clock)
    (hconfigured : w'.jwtExpiry = w.jwtExpiry ∨ i = .configure w'.jwtExpiry) (hsigned : w'.signed = w.signed)
    (htokens : w'.tokens = w.tokens) (husers : w'.users = w.users) (hcalls : ∀ call p, w'.calls.get call = some p → w.calls.get call = some p)
    (ho : ∀ c t t', o ≠ .accepted c t t') : TokenDoes w i w' o where
  clock := hclock
  configured := hconfigured
  signed := .inl hsigned
  tokens := .inl htokens
  users := .inl husers
  calls call p hp := .inl (hcalls call p hp)
  accepted c t t' h := absurd h (ho c t t')

theorem TokenDoes.await {call : ℕ} {now : ℚ} {q : TokenCall} (hclock : w.clock ≤ now) (hq : q.Follows w call now) :
    TokenDoes w i (atClock now (w.await call q, .none)).1 .none where
  clock := hclock
  configured := .inl rfl
  signed := .inl rfl
  tokens := .inl rfl
  users := .inl rfl
  calls call' p hp := by
    rcases Dict.eq_or_get_of_set hp with ⟨rfl, rfl⟩ | hp
    · exact .inr hq
    · exact .inl hp
  accepted := by rintro _ _ _ ⟨⟩

theorem TokenDoes.invalidate {call : ℕ} {token : Text} {decodedAt now : ℚ} (hdecodedAt : w.clock ≤ decodedAt)
    (hnow : decodedAt ≤ now) :
    TokenDoes w i (atClock now (w.invalidateToken call token decodedAt now, .none)).1 .none := by
  have hidle : TokenDoes w i (atClock now (w, .none)).1 .none :=
    .idle (hdecodedAt.trans hnow) (.inl rfl) rfl rfl rfl (fun _ _ hp => hp) (by rintro _ _ _ ⟨⟩)
  unfold TokenWorld.invalidateToken
  split
  · rename_i c hdecoded
    split
    · rename_i jti exp hjti hexp
      split_ifs with hset
      · have hfloor : (exp : ℚ) ≤ now + (exp - ⌊now⌋ : ℤ) := by
          have hle := Int.floor_le now
          push_cast
          linarith only [hle]
        exact .await (hdecodedAt.trans hnow)
          ⟨hjti, hset.1, token, exp, (Option.filter_eq_some_iff.1 hdecoded).1, hexp, hfloor⟩
      · exact hidle
    · exact hidle
  · exact hidle

theorem TokenDoes.resume {call : ℕ} {now : ℚ} {role : Option Text} {p : TokenCall} (hclock : w.clock ≤ now)
    (hp : w.calls.get call = some p) :
    TokenDoes w (.resume call now role) (atClock now (w.resume call now role p)).1 (w.resume call now role p).2 := by
  have hfinish : ∀ o, (∀ c t t', o ≠ .accepted c t t') →
      TokenDoes w (.resume call now role) (atClock now (w.finish call, o)).1 o := fun o ho =>
    .idle hclock (.inl rfl) rfl rfl rfl (fun _ _ h => Dict.get_of_erase h) ho
  have hrest := hfinish .none (by rintro _ _ _ ⟨⟩)
  cases p with
  | readingToken c =>
    rw [TokenWorld.resume]
    split_ifs with hrevoked
    · exact hfinish _ (by rintro _ _ _ ⟨⟩)
    · exact .await hclock ⟨hrevoked, le_rfl⟩
  | readingUser c tokenAt =>
    rw [TokenWorld.resume]
    split_ifs with hrevoked
    · exact hfinish _ (by rintro _ _ _ ⟨⟩)
    · exact .await hclock ⟨hp, hrevoked, le_rfl⟩
  | loadingUser c tokenAt userAt =>
    refine { hrest with accepted := ?_ }
    intro c' t t' ho
    rw [TokenWorld.resume] at ho
    split_ifs at ho
    cases ho
    exact ⟨call, now, role, rfl, hp⟩
  | invalidating c jti ttl =>
    exact { hrest with
      tokens := .inr ⟨call, c, jti, ttl, hp, rfl⟩
      accepted := by rintro _ _ _ ⟨⟩ }
  | revoking user expiresDelta => exact .await hclock ⟨hp, Int.floor_le now⟩
  | marking user expiresDelta revokedAt =>
    rw [TokenWorld.resume]
    split_ifs
    · exact { hrest with
        users := .inr ⟨call, user, expiresDelta, revokedAt, now, role, rfl, hp, rfl⟩
        accepted := by rintro _ _ _ ⟨⟩ }
    · exact hfinish _ (by rintro _ _ _ ⟨⟩)

/-- **One step.** -/
theorem tokenDoes_of_step (hC : ClockForward w i) (hs : tokenMachine.step w i = some (w', o)) : TokenDoes w i w' o := by
  cases i with
  | configure jwtExpiry =>
    cases hs
    exact .idle le_rfl (.inr rfl) rfl rfl rfl (fun _ _ hp => hp) (by rintro _ _ _ ⟨⟩)
  | create id expiresDelta token jti now now' =>
    obtain ⟨hnew, hs⟩ := Option.ite_none_left_eq_some.1 hs
    obtain ⟨htoken, hjti⟩ := not_or.1 hnew
    cases hs
    have hidle : TokenDoes w (.create id expiresDelta token jti now now') { w with clock := now' } .none :=
      .idle (hC.1.trans hC.2) (.inl rfl) rfl rfl rfl (fun _ _ hp => hp) (by rintro _ _ _ ⟨⟩)
    exact { hidle with
      signed := .inr ⟨id, expiresDelta, token, jti, now, now', rfl, hC.2, Option.not_isSome_iff_eq_none.1 htoken,
        fun e he heq => hjti ⟨e, he, heq⟩, rfl⟩ }
  | invalidate call token decodedAt now =>
    obtain ⟨-, hs⟩ := Option.ite_none_left_eq_some.1 hs
    cases hs
    exact .invalidate hC.1 hC.2
  | revokeUser call user =>
    obtain ⟨-, hs⟩ := Option.ite_none_left_eq_some.1 hs
    cases hs
    exact .await (le_refl w.clock) rfl
  | request call token now =>
    obtain ⟨-, hs⟩ := Option.ite_none_left_eq_some.1 hs
    split at hs
    · cases hs
      exact .idle hC (.inl rfl) rfl rfl rfl (fun _ _ hp => hp) (by rintro _ _ _ ⟨⟩)
    · cases hs
      exact .await hC trivial
  | resume call now role =>
    obtain ⟨p, hp, hs⟩ := Option.map_eq_some_iff.1 hs
    cases hs
    exact .resume hC hp

/-! ## What every run keeps -/

/-- An id is signed with one token only. -/
def UniqueIds (w : TokenWorld) : Prop := ∀ token token' c c', w.signed.get token = some c →
  w.signed.get token' = some c' → c.jti.isSome → c.jti = c'.jti → c = c'

/-- What a call knows. -/
def TokenCall.Past (w : TokenWorld) : TokenCall → Prop
  | .readingToken _ | .revoking .. => True
  | .readingUser _ tokenAt => tokenAt ≤ w.clock
  | .loadingUser _ tokenAt userAt => tokenAt ≤ w.clock ∧ userAt ≤ w.clock
  | .invalidating c jti ttl => c.jti = some jti ∧ jti ≠ [] ∧
    ∃ token exp, w.signed.get token = some c ∧ c.exp = some exp ∧ (exp : ℚ) ≤ w.clock + ttl
  | .marking _ _ revokedAt => (revokedAt : ℚ) ≤ w.clock

structure TokensInv (w : TokenWorld) : Prop where
  unique : UniqueIds w
  past : ∀ call p, w.calls.get call = some p → p.Past w

theorem TokenDoes.get_signed (hd : TokenDoes w i w' o) {token : Text} (hc : w.signed.get token = some c) :
    w'.signed.get token = some c := by
  rcases hd.signed with hsigned | ⟨_, _, token₀, _, _, _, -, -, hfree, -, hsigned⟩
  · rw [hsigned, hc]
  · rw [hsigned, Dict.get_set_of_ne, hc]
    rintro rfl
    rw [hc] at hfree
    cases hfree

theorem TokenCall.Past.step {p : TokenCall} (h : p.Past w) (hd : TokenDoes w i w' o) : p.Past w' := by
  have hclock := hd.clock
  cases p with
  | readingToken | revoking => trivial
  | readingUser | marking => exact le_trans h hclock
  | loadingUser => exact ⟨h.1.trans hclock, h.2.trans hclock⟩
  | invalidating c jti ttl =>
    obtain ⟨hjti, hne, token, exp, hc, hexp, hle⟩ := h
    exact ⟨hjti, hne, token, exp, hd.get_signed hc, hexp, hle.trans (by linarith only [hclock])⟩

theorem TokensInv.step (h : TokensInv w) (hd : TokenDoes w i w' o) : TokensInv w' where
  unique := by
    rcases hd.signed with hsigned | ⟨_, _, token₀, jti₀, _, _, -, -, -, hnew, hsigned⟩
    · rw [UniqueIds, hsigned]
      exact h.unique
    · have hne : ∀ token c, w.signed.get token = some c → c.jti ≠ some jti₀ := fun token c hc =>
        hnew _ (Dict.mem_entries_iff.2 hc)
      intro token token' c c' hc hc' hsome heq
      rw [hsigned, Dict.get_set] at hc hc'
      split_ifs at hc hc'
      · exact (Option.some.inj hc).symm.trans (Option.some.inj hc')
      · obtain rfl := Option.some.inj hc
        exact absurd heq.symm (hne token' c' hc')
      · obtain rfl := Option.some.inj hc'
        exact absurd heq (hne token c hc)
      · exact h.unique token token' c c' hc hc' hsome heq
  past call p hp := by
    rcases hd.calls call p hp with hp | hfollows
    · exact (h.past call p hp).step hd
    · cases p with
      | readingToken | revoking => trivial
      | readingUser => exact hfollows.2
      | loadingUser => exact ⟨(h.past call _ hfollows.1).trans hd.clock, hfollows.2.2⟩
      | invalidating c jti ttl =>
        obtain ⟨hjti, hne, token, exp, hc, hexp, hle⟩ := hfollows
        exact ⟨hjti, hne, token, exp, hd.get_signed hc, hexp, hle⟩
      | marking => exact hfollows.2

theorem tokensInv_run (hrun : tokenMachine.RunIn ClockForward w tr w') (hids : UniqueIds w) (hcalls : w.calls = .empty) :
    TokensInv w' := by
  refine hrun.invariant (fun _ _ _ _ hC h hs => h.step (tokenDoes_of_step hC hs)) ⟨hids, ?_⟩
  rintro call p hp
  rw [hcalls] at hp
  cases hp

/-! ## Signing out -/

/-- The token whose marker a call has read, and when. -/
def TokenCall.tokenRead : TokenCall → Option (TokenClaims × ℚ)
  | .readingUser c tokenAt | .loadingUser c tokenAt _ => some (c, tokenAt)
  | .readingToken _ | .invalidating .. | .revoking .. | .marking .. => none

/-- The marker of a signed-out token stays until the token has expired, and who has read it since has found it. -/
structure SignedOut (jti : Text) (exp : ℤ) (old w : TokenWorld) : Prop where
  marker : ∃ ends, w.tokens.get jti = some ((), some ends) ∧ (exp : ℚ) ≤ ends
  known : ∃ token c, w.signed.get token = some c ∧ c.jti = some jti ∧ c.exp = some exp
  reads : ∀ call p c t, w.calls.get call = some p → p.tokenRead = some (c, t) → c.jti = some jti →
    (exp : ℚ) ≤ t ∨ ∃ p', old.calls.get call = some p' ∧ p'.tokenRead = some (c, t)

theorem SignedOut.step {jti : Text} {exp : ℤ} {old : TokenWorld} (h : SignedOut jti exp old w) (hinv : TokensInv w)
    (hne : jti ≠ []) (hd : TokenDoes w i w' o) : SignedOut jti exp old w' := by
  obtain ⟨ends, hget, hle⟩ := h.marker
  obtain ⟨token, c, hc, hjti, hexp⟩ := h.known
  refine ⟨?_, ⟨token, c, hd.get_signed hc, hjti, hexp⟩, ?_⟩
  · rcases hd.tokens with htokens | ⟨call, c₀, jti₀, ttl, hp, htokens⟩
    · exact ⟨ends, by rw [htokens, hget], hle⟩
    · rw [htokens, Dict.get_set]
      split_ifs with heq
      · -- the marker of the same token once more
        obtain ⟨hjti₀, -, token₀, exp₀, hc₀, hexp₀, hle₀⟩ := hinv.past call _ hp
        rw [heq] at hjti
        obtain rfl := hinv.unique token token₀ c c₀ hc hc₀ (by rw [hjti]; rfl) (hjti.trans hjti₀.symm)
        obtain rfl := Option.some.inj (hexp.symm.trans hexp₀)
        have hclock := hd.clock
        exact ⟨_, rfl, hle₀.trans (by linarith only [hclock])⟩
      · exact ⟨ends, hget, hle⟩
  · intro call p c₀ t hp hread hjti₀
    rcases hd.calls call p hp with hp | hfollows
    · exact h.reads call p c₀ t hp hread hjti₀
    · cases p with
      | readingToken | invalidating | revoking | marking => cases hread
      | readingUser c₁ tokenAt =>
        obtain ⟨rfl, rfl⟩ := Prod.mk.inj (Option.some.inj hread)
        -- the marker was not there any more
        left
        by_contra hlt
        refine hfollows.1 ⟨jti, hjti₀, hne, ?_⟩
        rw [Timed.live_of_get hget, if_pos]
        · rfl
        · rintro _ ⟨⟩
          exact (not_le.1 hlt).trans_le hle
      | loadingUser c₁ tokenAt userAt => exact h.reads call _ c₀ t hfollows.1 hread hjti₀

theorem signedOut_of_invalidated {call : ℕ} {now : ℚ} {role : Option Text} (hinv : TokensInv w) (hclock : w.clock ≤ now)
    (hs : tokenMachine.step w (.resume call now role) = some (w', .invalidated c)) :
    ∃ jti exp, c.jti = some jti ∧ jti ≠ [] ∧ c.exp = some exp ∧ SignedOut jti exp w w' := by
  obtain ⟨p, hp, hs⟩ := Option.map_eq_some_iff.1 hs
  have hpast := hinv.past call p hp
  cases p with
  | readingToken | readingUser | marking =>
    rw [TokenWorld.resume] at hs
    split_ifs at hs <;> cases hs
  | loadingUser =>
    rw [TokenWorld.resume] at hs
    split_ifs at hs <;> cases hs
  | revoking => cases hs
  | invalidating c₀ jti ttl =>
    cases hs
    obtain ⟨hjti, hne, token, exp, hc, hexp, hle⟩ := hpast
    exact ⟨jti, exp, hjti, hne, hexp, ⟨_, Dict.get_set_self .., hle.trans (by linarith only [hclock])⟩,
      ⟨token, c, hc, hjti, hexp⟩, fun _ p' _ _ hp' hread _ => .inr ⟨p', Dict.get_of_erase hp', hread⟩⟩

theorem TokenCall.Past.tokenRead_le {p : TokenCall} {t : ℚ} (h : p.Past w) (hread : p.tokenRead = some (c, t)) :
    t ≤ w.clock := by
  cases p with
  | readingToken | invalidating | revoking | marking => cases hread
  | readingUser =>
    cases hread
    exact h
  | loadingUser =>
    cases hread
    exact h.1

/-- **A token that has been signed out does not go through again**: in every run, once `invalidate_token` has stored its
    marker, that stays until the token has expired, and a request is let through only if the token had expired when the
    request read the marker, or if it had read it before. -/
theorem signedOut_final (hrun : tokenMachine.RunIn ClockForward w tr w') (hids : UniqueIds w)
    (hcalls : w.calls = .empty) :
    ∀ xs ys call now role c, tr = xs ++ (.resume call now role, .invalidated c) :: ys →
      ∃ (t : TokenWorld) (jti : Text) (exp : ℤ), tokenMachine.RunIn ClockForward w xs t ∧ c.jti = some jti ∧ c.exp = some exp ∧
        (∃ ends, w'.tokens.get jti = some ((), some ends) ∧ (exp : ℚ) ≤ ends) ∧
        ∀ call' now' role' c' tokenAt userAt, (.resume call' now' role', .accepted c' tokenAt userAt) ∈ ys →
          c'.jti = c.jti → (exp : ℚ) ≤ tokenAt ∨
            tokenAt ≤ now ∧ ∃ p, t.calls.get call' = some p ∧ p.tokenRead = some (c', tokenAt) := by
  rintro xs ys call now role c rfl
  obtain ⟨t, t', hxs, hC, hs, hys⟩ := hrun.split
  have hinv := tokensInv_run hxs hids hcalls
  obtain ⟨jti, exp, hjti, hne, hexp, hout⟩ := signedOut_of_invalidated hinv hC hs
  have hstart := hinv.step (tokenDoes_of_step hC hs)
  have hsafe := hys.safety (I := fun w => TokensInv w ∧ SignedOut jti exp t w)
    (P := fun e => ∀ call' now' role' c' u u', e = (.resume call' now' role', .accepted c' u u') → c'.jti = some jti →
      (exp : ℚ) ≤ u ∨ ∃ p, t.calls.get call' = some p ∧ p.tokenRead = some (c', u)) ?_ ⟨hstart, hout⟩
  · refine ⟨t, jti, exp, hxs, hjti, hexp, hsafe.1.2.marker, fun call' now' role' c' u u' hmem hjti' => ?_⟩
    refine (hsafe.2 _ hmem _ _ _ _ _ _ rfl (hjti'.trans hjti)).imp_right ?_
    rintro ⟨p, hp, hread⟩
    exact ⟨((hinv.past call' p hp).tokenRead_le hread).trans hC, p, hp, hread⟩
  · rintro s i u o hC ⟨hinv, h⟩ hs
    have hd := tokenDoes_of_step hC hs
    refine ⟨⟨hinv.step hd, h.step hinv hne hd⟩, ?_⟩
    rintro call' now' role' c₀ t₀ t₁ ⟨⟩ hjti₀
    obtain ⟨call, now, role, heq, hp⟩ := hd.accepted c₀ t₀ t₁ rfl
    cases heq
    exact h.reads _ _ c₀ t₀ hp rfl hjti₀

namespace Sample

def tokenWorld : TokenWorld := ⟨.empty, .empty, .empty, some 60, .empty, 0⟩

def minuteToken : TokenClaims := createToken (.lit "u") (some 60) (.lit "j") 0 0

def createMinute : TokenStep := .create (.lit "u") (some 60) (.lit "t") (.lit "j") 0 0

theorem tokenWorld_unique : UniqueIds tokenWorld := by
  intro token token' c c' hc
  cases hc

end Sample

/-- Signed out after two seconds; a request has decoded the token in its last second, and reads the marker when that is
    gone. -/
theorem signedOut_final_minute : ∃ tr w', tokenMachine.RunIn ClockForward Sample.tokenWorld tr w' ∧
    (TokenStep.resume 1 61 (some (.lit "user")), TokenEvent.accepted Sample.minuteToken 61 61) ∈ tr ∧
      ∃ exp : ℤ, Sample.minuteToken.exp = some exp ∧ (exp : ℚ) ≤ 61 := by
  obtain ⟨⟨tr, w'⟩, hm, htr⟩ : ∃ r ∈ tokenMachine.exec ClockForward Sample.tokenWorld
      [Sample.createMinute, .invalidate 0 (.lit "t") 1 1, .resume 0 2 none, .request 1 (.lit "t") 59, .resume 1 61 none,
        .resume 1 61 none, .resume 1 61 (some (.lit "user"))],
      r.1 = [(Sample.createMinute, .none), (.invalidate 0 (.lit "t") 1 1, .none)] ++
        (.resume 0 2 none, .invalidated Sample.minuteToken) :: [(.request 1 (.lit "t") 59, .none),
          (.resume 1 61 none, .none), (.resume 1 61 none, .none),
          (.resume 1 61 (some (.lit "user")), .accepted Sample.minuteToken 61 61)] := by
    decide +kernel
  have hrun := Machine.runIn_of_exec hm
  obtain ⟨t, jti, exp, -, -, hexp, -, hread⟩ := signedOut_final hrun Sample.tokenWorld_unique rfl _ _ _ _ _ _ htr
  refine ⟨tr, w', hrun, by rw [show tr = _ from htr]; simp, exp, hexp, ?_⟩
  refine (hread 1 61 (some (.lit "user")) Sample.minuteToken 61 61 (by simp) rfl).resolve_right fun h => ?_
  exact absurd h.1 (by norm_num)

/-! ## Signing a user out -/

/-- The marker that a call stores next. -/
def TokenCall.marks : TokenCall → Option (Text × Option ℚ × ℤ)
  | .marking user expiresDelta revokedAt => some (user, expiresDelta, revokedAt)
  | .readingToken _ | .readingUser .. | .loadingUser .. | .invalidating .. | .revoking .. => none

/-- The token is of the user, and has been issued by then. -/
def TokenClaims.IssuedBy (c : TokenClaims) (user : Text) (revokedAt : ℤ) : Prop :=
  c.id = some user ∧ ∀ t ∈ c.iat, t ≤ revokedAt

/-- The token has expired by then. -/
def TokenClaims.GoneBy (c : TokenClaims) (ends : Option ℚ) : Prop := ∀ e ∈ ends, ∃ exp ∈ c.exp, (exp : ℚ) ≤ e

instance (c : TokenClaims) (user : Text) (revokedAt : ℤ) : Decidable (c.IssuedBy user revokedAt) :=
  inferInstanceAs (Decidable (_ ∧ ∀ t ∈ c.iat, t ≤ revokedAt))

instance (c : TokenClaims) (ends : Option ℚ) : Decidable (c.GoneBy ends) :=
  inferInstanceAs (Decidable (∀ e ∈ ends, ∃ exp ∈ c.exp, (exp : ℚ) ≤ e))

/-- The marker of a user outlives every token it revokes, and does not take the place of a newer one. -/
def MarkerOutlives (w : TokenWorld) : TokenStep → Prop
  | .resume call now _ => ∀ m ∈ (w.calls.get call).bind TokenCall.marks, (∀ m' ∈ w.users.get m.1, m'.1 ≤ m.2.2) ∧
    ∀ e ∈ w.signed.entries, e.2.IssuedBy m.1 m.2.2 → e.2.GoneBy (markerEnd m.2.1 now)
  | .configure _ | .create .. | .invalidate .. | .revokeUser .. | .request .. => True

instance (w : TokenWorld) : (i : TokenStep) → Decidable (MarkerOutlives w i)
  | .resume .. => inferInstanceAs (Decidable (∀ _ ∈ _, (∀ _ ∈ _, _) ∧ ∀ _ ∈ _, _ → _))
  | .configure _ | .create .. | .invalidate .. | .revokeUser .. | .request .. => inferInstanceAs (Decidable True)

/-- A revoked token: the marker of its user stays until it has expired, and who has read it since has found it. -/
structure RevokedToken (c : TokenClaims) (user : Text) (old w : TokenWorld) : Prop where
  known : ∃ token, w.signed.get token = some c
  marker : ∃ revokedAt ends, w.users.get user = some (revokedAt, ends) ∧ c.IssuedBy user revokedAt ∧ c.GoneBy ends
  reads : ∀ call t t', w.calls.get call = some (.loadingUser c t t') →
    (∃ exp : ℤ, c.exp = some exp ∧ (exp : ℚ) ≤ t') ∨ old.calls.get call = some (.loadingUser c t t')

theorem RevokedToken.step {user : Text} {old : TokenWorld} (h : RevokedToken c user old w) (hne : user ≠ [])
    (hC : MarkerOutlives w i) (hd : TokenDoes w i w' o) : RevokedToken c user old w' := by
  obtain ⟨token, hc⟩ := h.known
  obtain ⟨revokedAt, ends, hget, hissued, hgone⟩ := h.marker
  refine ⟨⟨token, hd.get_signed hc⟩, ?_, ?_⟩
  · rcases hd.users with husers | ⟨call, user', expiresDelta, revokedAt', now, role, rfl, hp, husers⟩
    · exact ⟨revokedAt, ends, by rw [husers, hget], hissued, hgone⟩
    · rw [husers, Dict.get_set]
      split_ifs with heq
      · subst heq
        obtain ⟨hnewer, houtlives⟩ := hC (user, expiresDelta, revokedAt') (by rw [hp]; rfl)
        have hissued' : c.IssuedBy user revokedAt' := ⟨hissued.1, fun t ht => (hissued.2 t ht).trans (hnewer _ hget)⟩
        exact ⟨revokedAt', _, rfl, hissued', houtlives _ (Dict.mem_entries_iff.2 hc) hissued'⟩
      · exact ⟨revokedAt, ends, hget, hissued, hgone⟩
  · intro call t t' hp
    rcases hd.calls call _ hp with hp | ⟨-, hnot, -⟩
    · exact h.reads call t t' hp
    · left
      by_cases hbefore : Timed.Before t' ends
      · have hlive : Timed.live w.users t' user = some revokedAt := by rw [Timed.live_of_get hget, if_pos hbefore]
        exact absurd ⟨user, hissued.1, hne, revokedAt, hlive, hissued.2⟩ hnot
      · obtain ⟨e, he, hle⟩ := Timed.not_before.1 hbefore
        obtain ⟨exp, hexp, hexple⟩ := hgone e he
        exact ⟨exp, hexp, hexple.trans hle⟩

theorem revokedToken_of_marked {call : ℕ} {now : ℚ} {role : Option Text} {token user : Text} {revokedAt : ℤ}
    (hC : MarkerOutlives w (.resume call now role))
    (hs : tokenMachine.step w (.resume call now role) = some (w', .revoked user revokedAt))
    (hc : w.signed.get token = some c) (hissued : c.IssuedBy user revokedAt) : RevokedToken c user w w' := by
  obtain ⟨p, hp, hs⟩ := Option.map_eq_some_iff.1 hs
  cases p with
  | readingToken | readingUser | loadingUser =>
    rw [TokenWorld.resume] at hs
    split_ifs at hs <;> cases hs
  | invalidating | revoking => cases hs
  | marking user' expiresDelta revokedAt' =>
    obtain ⟨-, houtlives⟩ := hC (user', expiresDelta, revokedAt') (by rw [hp]; rfl)
    rw [TokenWorld.resume] at hs
    split_ifs at hs <;> cases hs
    have hgone := houtlives _ (Dict.mem_entries_iff.2 hc) hissued
    exact ⟨⟨token, hc⟩, ⟨revokedAt, _, Dict.get_set_self .., hissued, hgone⟩,
      fun _ _ _ hp' => .inr (Dict.get_of_erase hp')⟩

theorem signed_of_create (hrun : tokenMachine.RunIn ClockForward w tr w') {user token jti : Text} {delta : Option ℚ}
    {now now' : ℚ} (hmem : (.create user delta token jti now now', o) ∈ tr) :
    w'.signed.get token = some (createToken user delta jti now now') := by
  obtain ⟨xs, ys, rfl⟩ := List.append_of_mem hmem
  obtain ⟨t, t', -, -, hs, hys⟩ := hrun.split
  refine hys.invariant (I := fun w => w.signed.get token = some (createToken user delta jti now now'))
    (fun _ _ _ _ hC h hs => (tokenDoes_of_step hC hs).get_signed h) ?_
  obtain ⟨-, hs⟩ := Option.ite_none_left_eq_some.1 hs
  cases hs
  exact Dict.get_set_self ..

/-- **What is to be so of a trace**: once `revoke_user_tokens` has stored its marker for a user, a token of the user that
    had been created before and issued until the second of the marker is let through only by a request for which it had
    expired when that read the marker, or which had read it before. -/
def RevokedForGood (w : TokenWorld) (tr : List (TokenStep × TokenEvent)) : Prop :=
  ∀ xs ys call now role user revokedAt, tr = xs ++ (.resume call now role, .revoked user revokedAt) :: ys → user ≠ [] →
    ∃ t : TokenWorld, tokenMachine.RunIn ClockForward w xs t ∧
      ∀ delta token jti createdAt issuedAt, (.create user delta token jti createdAt issuedAt, .none) ∈ xs →
        ⌊issuedAt⌋ ≤ revokedAt → ∀ call' now' role' tokenAt userAt,
          (.resume call' now' role', .accepted (createToken user delta jti createdAt issuedAt) tokenAt userAt) ∈ ys →
            (∃ exp : ℤ, (createToken user delta jti createdAt issuedAt).exp = some exp ∧ (exp : ℚ) ≤ userAt) ∨
              userAt ≤ now ∧
                t.calls.get call' = some (.loadingUser (createToken user delta jti createdAt issuedAt) tokenAt userAt)

theorem revokedForGood (hrun : tokenMachine.RunIn (fun w i => ClockForward w i ∧ MarkerOutlives w i) w tr w')
    (hids : UniqueIds w) (hcalls : w.calls = .empty) : RevokedForGood w tr := by
  rintro xs ys call now role user revokedAt rfl hne
  obtain ⟨t, t', hxs, hC, hs, hys⟩ := hrun.split
  replace hxs := hxs.mono fun _ _ h => h.1
  refine ⟨t, hxs, ?_⟩
  intro delta token jti createdAt issuedAt hcreated hissued call' now' role' tokenAt userAt haccepted
  have hsigned := signed_of_create hxs hcreated
  have hout := revokedToken_of_marked hC.2 hs hsigned ⟨rfl, by rintro _ ⟨⟩; exact hissued⟩
  have hsafe := hys.safety (I := RevokedToken (createToken user delta jti createdAt issuedAt) user t)
    (P := fun e => ∀ call' now' role' u u',
      e = (.resume call' now' role', .accepted (createToken user delta jti createdAt issuedAt) u u') →
        (∃ exp : ℤ, (createToken user delta jti createdAt issuedAt).exp = some exp ∧ (exp : ℚ) ≤ u') ∨
          t.calls.get call' = some (.loadingUser (createToken user delta jti createdAt issuedAt) u u')) ?_ hout
  · refine (hsafe.2 _ haccepted _ _ _ _ _ rfl).imp_right fun hp => ?_
    exact ⟨((tokensInv_run hxs hids hcalls).past call' _ hp).2.trans hC.1, hp⟩
  · rintro s i u o hC h hs
    have hd := tokenDoes_of_step hC.1 hs
    refine ⟨h.step hne hC.2 hd, ?_⟩
    rintro call' now' role' t₀ t₁ ⟨⟩
    obtain ⟨call, now, role, heq, hp⟩ := hd.accepted _ t₀ t₁ rfl
    cases heq
    exact h.reads _ t₀ t₁ hp

/-! ## A lifetime that does not change -/

/-- The lifetime stays as it is, for the configuration and for new tokens. -/
def LifetimeIs (d : Option ℚ) : TokenStep → Prop
  | .configure jwtExpiry => jwtExpiry = d
  | .create _ expiresDelta .. => expiresDelta = d
  | .invalidate .. | .revokeUser .. | .request .. | .resume .. => True

instance (d : Option ℚ) : (i : TokenStep) → Decidable (LifetimeIs d i)
  | .configure _ | .create .. => inferInstanceAs (Decidable (_ = _))
  | .invalidate .. | .revokeUser .. | .request .. | .resume .. => inferInstanceAs (Decidable True)

/-- The marker of a user does not take the place of a newer one. -/
def MarkerNewer (w : TokenWorld) : TokenStep → Prop
  | .resume call _ _ => ∀ m ∈ (w.calls.get call).bind TokenCall.marks, ∀ m' ∈ w.users.get m.1, m'.1 ≤ m.2.2
  | .configure _ | .create .. | .invalidate .. | .revokeUser .. | .request .. => True

instance (w : TokenWorld) : (i : TokenStep) → Decidable (MarkerNewer w i)
  | .resume .. => inferInstanceAs (Decidable (∀ _ ∈ _, ∀ _ ∈ _, _))
  | .configure _ | .create .. | .invalidate .. | .revokeUser .. | .request .. => inferInstanceAs (Decidable True)

/-- The lifetime is what everything goes by. -/
structure OneLifetime (d : Option ℚ) (w : TokenWorld) : Prop where
  jwtExpiry : w.jwtExpiry = d
  calls : ∀ call p, w.calls.get call = some p → ∀ user e, p = .revoking user e ∨ (∃ t, p = .marking user e t) → e = d
  signed : ∀ token c, w.signed.get token = some c → ∃ t ≤ w.clock, c.exp = (lifetime d).map fun d => ⌊t + d⌋

theorem OneLifetime.step {d : Option ℚ} (h : OneLifetime d w) (hL : LifetimeIs d i) (hd : TokenDoes w i w' o) :
    OneLifetime d w' where
  jwtExpiry := by
    rcases hd.configured with heq | rfl
    · exact heq.trans h.jwtExpiry
    · exact hL
  calls call p hp user e hkind := by
    rcases hd.calls call p hp with hp | hfollows
    · exact h.calls call p hp user e hkind
    · rcases hkind with rfl | ⟨t, rfl⟩
      · exact Eq.trans hfollows h.jwtExpiry
      · exact h.calls call _ hfollows.1 user e (.inl rfl)
  signed token c hc := by
    have hold : w.signed.get token = some c → ∃ t ≤ w'.clock, c.exp = (lifetime d).map fun d => ⌊t + d⌋ := fun hc => by
      obtain ⟨t, ht, hexp⟩ := h.signed token c hc
      exact ⟨t, ht.trans hd.clock, hexp⟩
    rcases hd.signed with hsigned | ⟨id, delta, token₀, jti, now, now', rfl, hnow, -, -, hsigned⟩
    · exact hold (hsigned ▸ hc)
    · rw [hsigned] at hc
      rcases Dict.eq_or_get_of_set hc with ⟨-, rfl⟩ | hc
      · obtain rfl : delta = d := hL
        exact ⟨now, hnow, rfl⟩
      · exact hold hc

/-- A marker that is stored for the lifetime of all tokens outlives those there are, if that is in whole seconds. -/
theorem OneLifetime.markerOutlives {d : Option ℚ} (h : OneLifetime d w) (hwhole : ∀ e ∈ d, (⌊e⌋ : ℚ) = e)
    (hclock : ClockForward w i) (hnewer : MarkerNewer w i) : MarkerOutlives w i := by
  cases i with
  | configure | create | invalidate | revokeUser | request => trivial
  | resume call now role =>
    intro m hm
    refine ⟨hnewer m hm, fun e he _ => ?_⟩
    obtain ⟨p, hp, hmarks⟩ := Option.bind_eq_some_iff.1 hm
    have hdelta : m.2.1 = d := by
      cases p with
      | marking user delta revokedAt =>
        cases hmarks
        exact h.calls call _ hp user delta (.inr ⟨revokedAt, rfl⟩)
      | readingToken | readingUser | loadingUser | invalidating | revoking => cases hmarks
    obtain ⟨t, ht, hexp⟩ := h.signed e.1 e.2 (Dict.get_of_mem he)
    intro ends hends
    obtain ⟨s, hs, rfl⟩ := Option.map_eq_some_iff.1 hends
    rw [hdelta] at hs
    refine ⟨⌊t + s⌋, by rw [hexp, hs]; rfl, ?_⟩
    have hle := Int.floor_le (t + s)
    have hnow := ht.trans hclock
    rw [hwhole s (Option.filter_eq_some_iff.1 hs).1]
    linarith only [hle, hnow]

/-- **A user who has been signed out is, on every device**: in every run whose markers outlive the tokens they revoke,
    and so in every run from the first token on with one lifetime, in whole seconds, in which no marker takes the place
    of a newer one. -/
theorem revokedUser_final (hids : UniqueIds w) (hcalls : w.calls = .empty) :
    (tokenMachine.RunIn (fun w i => ClockForward w i ∧ MarkerOutlives w i) w tr w' → RevokedForGood w tr) ∧
      ∀ d, (∀ e ∈ d, (⌊e⌋ : ℚ) = e) → w.jwtExpiry = d → w.signed = .empty →
        tokenMachine.RunIn (fun w i => ClockForward w i ∧ LifetimeIs d i ∧ MarkerNewer w i) w tr w' →
          RevokedForGood w tr := by
  refine ⟨fun hrun => revokedForGood hrun hids hcalls, fun d hwhole hexpiry hsigned hrun => ?_⟩
  have hstart : OneLifetime d w := by
    refine ⟨hexpiry, fun call p hp => ?_, fun token c hc => ?_⟩
    · rw [hcalls] at hp
      cases hp
    · rw [hsigned] at hc
      cases hc
  suffices h : tokenMachine.RunIn (fun w i => ClockForward w i ∧ MarkerOutlives w i) w tr w' ∧ OneLifetime d w' from
    revokedForGood h.1 hids hcalls
  induction hrun with
  | nil => exact ⟨.nil, hstart⟩
  | snoc _ hC hs ih =>
    exact ⟨.snoc ih.1 ⟨hC.1, ih.2.markerOutlives hwhole hC.1 hC.2.2⟩ hs, ih.2.step hC.2.1 (tokenDoes_of_step hC.1 hs)⟩

/-- Signed out after two seconds; a request has decoded the token before, and reads the marker when that is gone. -/
theorem revokedUser_final_minute : ∃ tr w',
    tokenMachine.RunIn (fun w i => ClockForward w i ∧ LifetimeIs (some 60) i ∧ MarkerNewer w i) Sample.tokenWorld tr w' ∧
      (TokenStep.resume 1 62 (some (.lit "user")), TokenEvent.accepted Sample.minuteToken 59 62) ∈ tr ∧
        ∃ exp : ℤ, Sample.minuteToken.exp = some exp ∧ (exp : ℚ) ≤ 62 := by
  obtain ⟨⟨tr, w'⟩, hm, htr⟩ : ∃ r ∈ tokenMachine.exec
      (fun w i => ClockForward w i ∧ LifetimeIs (some 60) i ∧ MarkerNewer w i)
      Sample.tokenWorld [Sample.createMinute, .revokeUser 0 (.lit "u"), .resume 0 1 none, .resume 0 2 none,
        .request 1 (.lit "t") 59, .resume 1 59 none, .resume 1 62 none, .resume 1 62 (some (.lit "user"))],
      r.1 = [(Sample.createMinute, .none), (.revokeUser 0 (.lit "u"), .none), (.resume 0 1 none, .none)] ++
        (.resume 0 2 none, .revoked (.lit "u") 1) :: [(.request 1 (.lit "t") 59, .none), (.resume 1 59 none, .none),
          (.resume 1 62 none, .none), (.resume 1 62 (some (.lit "user")), .accepted Sample.minuteToken 59 62)] := by
    decide +kernel
  have hrun := Machine.runIn_of_exec hm
  obtain ⟨t, -, hfinal⟩ := (revokedUser_final Sample.tokenWorld_unique rfl).2 (some 60)
    (by rintro e ⟨⟩; norm_num) rfl rfl hrun _ _ _ _ _ _ _ htr (by decide)
  refine ⟨tr, w', hrun, by rw [show tr = _ from htr]; simp, ?_⟩
  refine (hfinal (some 60) (.lit "t") (.lit "j") 0 0 (by simp [Sample.createMinute]) (by norm_num) 1 62
    (some (.lit "user")) 59 62 (by simp [Sample.minuteToken])).resolve_right fun h => ?_
  exact absurd h.1 (by norm_num)

/-- A shorter lifetime is configured before the revocation, so that the marker goes before the token: it is let through
    again. -/
theorem revokedUser_returns : ∃ tr w', tokenMachine.RunIn ClockForward Sample.tokenWorld tr w' ∧ tr.map Prod.snd =
    [.none, .none, .none, .none, .revoked (.lit "u") 1, .none, .none, .none, .accepted Sample.minuteToken 20 20] := by
  obtain ⟨⟨tr, w'⟩, hm, htr⟩ : ∃ r ∈ tokenMachine.exec ClockForward Sample.tokenWorld
      [Sample.createMinute, .configure (some 10), .revokeUser 0 (.lit "u"), .resume 0 1 none, .resume 0 2 none,
        .request 1 (.lit "t") 20, .resume 1 20 none, .resume 1 20 none, .resume 1 20 (some (.lit "user"))],
      r.1.map Prod.snd = [.none, .none, .none, .none, .revoked (.lit "u") 1, .none, .none, .none,
        .accepted Sample.minuteToken 20 20] := by
    decide +kernel
  exact ⟨tr, w', Machine.runIn_of_exec hm, htr⟩

end TideBot
