/-
  The presence store in Redis (`RedisPresenceStore`).

  One record by user; the operations are Lua scripts, which run atomically.  `store` is
  how a script writes its state back, and `expire` runs a script on every key that `SCAN`
  finds, on some perhaps twice.

  The scripts go through `pairs`, in whatever order the table has; strings compare by their
  UTF-8 bytes, that is by code points.  Texts travel to Redis as UTF-8 and records as JSON,
  whose escapes `cjson.decode` reads back: a surrogate that stands alone makes the call
  raise.
-/
import TideBot.Lib.Traversal
import TideBot.Presence.Store

namespace TideBot

open Lib

/-! ## In Redis -/

/-- `RedisPresenceStore`: what the keys of the users hold. -/
abbrev RedisPresenceStore := Dict Text UserPresence

/-- Does the text have a UTF-8 encoding? -/
def encodable (t : Text) : Bool := t.all fun c => !c.surrogate

/-- Is the record read back from its JSON? -/
def PresenceUpdate.encodable (p : PresenceUpdate) : Bool :=
  TideBot.encodable p.clientId && p.chatId.all TideBot.encodable &&
    p.chatTitle.all TideBot.encodable && TideBot.encodable p.deviceLabel

/-- `_REDIS_SELECT_ACTIVE`, on the records in the order of `pairs`. -/
def selectActive (pairs : List (Text × PresenceEntry)) (now : ℚ) : Option PresenceUpdate :=
  let live := (pairs.filter fun e => now < e.2.expiresAt).map Prod.snd
  let focused := live.filter (·.presence.isFocused)
  let unfocused := live.filter (!·.presence.isFocused)
  let candidates := if focused = [] then unfocused else focused
  (scanMax (PresenceEntry.rank (focused ≠ [])) (toLex (-1, toLex (-1, []))) candidates).map
    (·.presence)

namespace RedisPresenceStore

variable (ttl : ℤ) (r : RedisPresenceStore) (u sid : Text) (now : ℚ) (order : TableOrder)

/-- The state a script starts from. -/
def user : UserPresence := (r.get u).getD .unknown

/-- A script writes its state back, or deletes the key. -/
def store (v : UserPresence) : RedisPresenceStore := if v.idle then r.erase u else r.set u v

/-- What a script answers. -/
def answer (v : UserPresence) : PresenceState :=
  ⟨selectActive (order.pairs u v.entries.entries) now, v.revision⟩

/-- `subscribersChanged` -/
def subscribersChanged (v : UserPresence) : Bool := v.subscribers.entries.any fun e => e.2 ≤ now

/-- `_REDIS_UPDATE_LUA` -/
def update (presence : PresenceUpdate) : RedisPresenceStore × PresenceState :=
  let v := ((user r u).prune now).put ttl now sid presence
  (store r u v, answer u now order v)

/-- `_REDIS_CLEAR_LUA` -/
def clear : RedisPresenceStore × PresenceState :=
  match r.get u with
  | none => (r, ⟨none, 0⟩)
  | some v =>
    let v := (v.prune now).remove sid
    (store r u v, answer u now order v)

/-- `_REDIS_SUBSCRIBE_LUA` -/
def subscribe : RedisPresenceStore × PresenceState :=
  let v := (user r u).prune now
  let v := { v with subscribers := v.subscribers.set sid (now + ttl) }
  (r.set u v, answer u now order v)

/-- `_REDIS_STATE_LUA` -/
def state : RedisPresenceStore × PresenceState :=
  match r.get u with
  | none => (r, ⟨none, 0⟩)
  | some v =>
    (if subscribersChanged now v then store r u (v.prune now) else r,
      answer u now order (v.prune now))

/-- `_REDIS_DISCONNECT_LUA` -/
def disconnect : RedisPresenceStore × Option PresenceState :=
  match r.get u with
  | none => (r, none)
  | some v =>
    let v := v.prune now
    let hadEntry : Bool := sid ∈ v.entries.keys
    let v := { v.remove sid with subscribers := v.subscribers.erase sid }
    (store r u v, if hadEntry then some (answer u now order v) else none)

/-- `_REDIS_EXPIRE_LUA` -/
def expireUser : RedisPresenceStore × Option PresenceState :=
  match r.get u with
  | none => (r, none)
  | some v =>
    let entriesChanged := v.stale now
    let w := (v.prune now).expired now
    if !entriesChanged && !subscribersChanged now v then (r, none)
    else (store r u w, if entriesChanged then some (answer u now order w) else none)

/-- `expire`, on the keys that were found. -/
def expire (scan : List Text) : RedisPresenceStore × List (Text × PresenceState) :=
  sweep (fun r u => expireUser r u now order) r scan

end RedisPresenceStore

/-- Are the texts of the call encoded without an error? -/
def PresenceOp.encodable : PresenceOp → Bool
  | .update sid p => TideBot.encodable sid && p.encodable
  | .clear sid | .subscribe sid | .disconnect sid => TideBot.encodable sid
  | .state | .expire => true

/-- The Redis store as a machine. -/
def redisStore (ttl : ℤ) : Machine RedisPresenceStore TimedCall Answer where
  step r c := match c.call with
    | .on u op =>
      if !(encodable u && op.encodable) then some (r, .raised)
      else match op with
        | .update sid p =>
          let x := RedisPresenceStore.update ttl r u sid c.now c.order p; some (x.1, .state x.2)
        | .clear sid =>
          let x := RedisPresenceStore.clear r u sid c.now c.order; some (x.1, .state x.2)
        | .subscribe sid =>
          let x := RedisPresenceStore.subscribe ttl r u sid c.now c.order; some (x.1, .state x.2)
        | .state => let x := RedisPresenceStore.state r u c.now c.order; some (x.1, .state x.2)
        | .disconnect sid =>
          let x := RedisPresenceStore.disconnect r u sid c.now c.order; some (x.1, .maybe x.2)
        | .expire => none
    | .expire scan =>
      if (∀ u ∈ scan, u ∈ r.keys) ∧ (∀ u ∈ r.keys, u ∈ scan) then
        let x := RedisPresenceStore.expire r c.now c.order scan; some (x.1, .expiries x.2)
      else none

/-! ## The Redis store -/

namespace RedisPresenceStore

variable {ttl : ℤ} {r : RedisPresenceStore} {u w sid : Text} {now : ℚ} {order : TableOrder}

/-- No key holds an idle user, and every key was encoded. -/
structure Kept (r : RedisPresenceStore) : Prop where
  busy : ∀ u v, r.get u = some v → v.idle = false
  encodable : ∀ u v, r.get u = some v → TideBot.encodable u

theorem user_store {v : UserPresence} :
    user (store r u v) w = if w = u then v.settle else user r w := by
  unfold store user UserPresence.settle
  split_ifs with hidle h h
  · rw [h, Dict.get_erase_self]
    rfl
  · rw [Dict.get_erase_of_ne _ h]
  · rw [h, Dict.get_set_self]
    rfl
  · rw [Dict.get_set_of_ne _ h]

theorem user_set {v : UserPresence} :
    user (r.set u v) w = if w = u then v else user r w := by
  unfold user
  split_ifs with h
  · rw [h, Dict.get_set_self]
    rfl
  · rw [Dict.get_set_of_ne _ h]

theorem Kept.store (h : Kept r) (hu : TideBot.encodable u) (v : UserPresence) :
    Kept (store r u v) := by
  unfold RedisPresenceStore.store
  split_ifs with hidle
  · have hget : ∀ w v', (r.erase u).get w = some v' → r.get w = some v' := by
      intro w v' hw
      rw [Dict.get_erase] at hw
      split_ifs at hw
      exact hw
    exact ⟨fun w v' hw => h.busy w v' (hget w v' hw), fun w v' hw => h.encodable w v' (hget w v' hw)⟩
  · refine ⟨?_, ?_⟩
    · intro w v' hw
      rw [Dict.get_set] at hw
      split_ifs at hw
      · cases hw
        simpa using hidle
      · exact h.busy w v' hw
    · intro w v' hw
      rw [Dict.get_set] at hw
      split_ifs at hw with hwu
      · rw [hwu]
        exact hu
      · exact h.encodable w v' hw

theorem settle_prune (hr : Kept r) {v : UserPresence} (hv : r.get u = some v)
    (hsame : subscribersChanged now v = false) : (v.prune now).settle = v ∧ v.prune now = v := by
  have hprune : v.prune now = v := by
    unfold UserPresence.prune
    congr 1
    refine Dict.ext_entries (List.filter_eq_self.2 ?_)
    intro e he
    simpa using List.any_eq_false.1 hsame e he
  refine ⟨?_, hprune⟩
  rw [hprune, UserPresence.settle, hr.busy u v hv, if_neg Bool.false_ne_true]

theorem user_of_get_none (h : r.get u = none) : user r u = .unknown := by
  rw [user, h]
  rfl

theorem user_of_get_some {v : UserPresence} (h : r.get u = some v) : user r u = v := by
  rw [user, h]
  rfl

theorem answer_unknown : answer u now order .unknown = ⟨none, 0⟩ := by
  have hnil : order.pairs u UserPresence.unknown.entries.entries = [] :=
    List.perm_nil.1 (order.perm u [])
  rw [answer, hnil]
  rfl

theorem user_update {p : PresenceUpdate} :
    user (update ttl r u sid now order p).1 w =
      if w = u then (user r u).next ttl now (.update sid p) else user r w := user_store

theorem user_subscribe :
    user (subscribe ttl r u sid now order).1 w =
      if w = u then (user r u).next ttl now (.subscribe sid) else user r w := by
  rw [UserPresence.next, UserPresence.settle_lease]
  exact user_set

theorem clear_spec (ttl : ℤ) :
    (∀ w, user (clear r u sid now order).1 w =
      if w = u then (user r u).next ttl now (.clear sid) else user r w) ∧
    (clear r u sid now order).2 =
      answer u now order (((user r u).prune now).apply ttl now (.clear sid)) := by
  unfold clear
  split
  · rename_i hnone
    rw [user_of_get_none hnone]
    refine ⟨?_, answer_unknown.symm⟩
    intro w
    split_ifs with h
    · rw [h, user_of_get_none hnone]
      rfl
    · rfl
  · rename_i v hsome
    rw [user_of_get_some hsome]
    exact ⟨fun w => user_store, rfl⟩

theorem state_spec (ttl : ℤ) (hr : Kept r) :
    (∀ w, user (state r u now order).1 w =
      if w = u then (user r u).next ttl now .state else user r w) ∧
    (state r u now order).2 =
      answer u now order (((user r u).prune now).apply ttl now .state) := by
  unfold state
  split
  · rename_i hnone
    rw [user_of_get_none hnone]
    refine ⟨?_, answer_unknown.symm⟩
    intro w
    split_ifs with h
    · rw [h, user_of_get_none hnone]
      rfl
    · rfl
  · rename_i v hsome
    rw [user_of_get_some hsome]
    refine ⟨?_, rfl⟩
    intro w
    by_cases hch : subscribersChanged now v
    · rw [if_pos hch]
      exact user_store
    · rw [if_neg hch]
      split_ifs with h
      · rw [h, user_of_get_some hsome]
        exact (settle_prune hr hsome (by simpa using hch)).1.symm
      · rfl

theorem disconnect_spec (ttl : ℤ) :
    (∀ w, user (disconnect r u sid now order).1 w =
      if w = u then (user r u).next ttl now (.disconnect sid) else user r w) ∧
    (disconnect r u sid now order).2 = if (user r u).answers now (.disconnect sid) then
      some (answer u now order (((user r u).prune now).apply ttl now (.disconnect sid))) else none := by
  unfold disconnect
  split
  · rename_i hnone
    rw [user_of_get_none hnone]
    refine ⟨?_, rfl⟩
    intro w
    split_ifs with h
    · rw [h, user_of_get_none hnone]
      rfl
    · rfl
  · rename_i v hsome
    rw [user_of_get_some hsome]
    exact ⟨fun w => user_store, rfl⟩

theorem expireUser_spec (ttl : ℤ) (hr : Kept r) :
    (∀ w, user (expireUser r u now order).1 w =
      if w = u then (user r u).next ttl now .expire else user r w) ∧
    (expireUser r u now order).2 = if (user r u).stale now then
      some (answer u now order (((user r u).prune now).apply ttl now .expire)) else none := by
  unfold expireUser
  split
  · rename_i hnone
    rw [user_of_get_none hnone]
    refine ⟨?_, rfl⟩
    intro w
    split_ifs with h
    · rw [h, user_of_get_none hnone]
      rfl
    · rfl
  · rename_i v hsome
    rw [user_of_get_some hsome]
    by_cases hch : v.stale now = false ∧ subscribersChanged now v = false
    · obtain ⟨hstale, hsub⟩ := hch
      obtain ⟨hsettle, hprune⟩ := settle_prune hr hsome hsub
      simp only [hstale, hsub, Bool.not_false, Bool.and_self, if_true, Bool.false_eq_true, if_false]
      refine ⟨?_, trivial⟩
      intro w
      split_ifs with h
      · rw [h, user_of_get_some hsome, UserPresence.next, UserPresence.apply, UserPresence.expired,
          UserPresence.stale_prune, hstale, if_neg Bool.false_ne_true, hsettle]
      · rfl
    · have hif : (!v.stale now && !subscribersChanged now v) = false := by
        cases h₁ : v.stale now <;> cases h₂ : subscribersChanged now v <;> simp_all
      simp only [hif, Bool.false_eq_true, if_false]
      exact ⟨fun w => user_store, rfl⟩

theorem Kept.clear (h : Kept r) : Kept (clear r u sid now order).1 := by
  unfold RedisPresenceStore.clear
  split
  · exact h
  · rename_i v hv
    exact h.store (h.encodable u v hv) _

theorem Kept.subscribe (h : Kept r) (hu : TideBot.encodable u) :
    Kept (subscribe ttl r u sid now order).1 := by
  have hget := Dict.get_set_self ((user r u).prune now).subscribers sid (now + ttl)
  refine ⟨?_, ?_⟩
  · intro w v hw
    simp only [RedisPresenceStore.subscribe, Dict.get_set] at hw
    split_ifs at hw
    · cases hw
      have hmem := Dict.mem_entries_iff.2 hget
      unfold UserPresence.idle
      cases hes : (((user r u).prune now).subscribers.set sid (now + ttl)).entries with
      | nil => rw [hes] at hmem; cases hmem
      | cons => simp
    · exact h.busy w v hw
  · intro w v hw
    simp only [RedisPresenceStore.subscribe, Dict.get_set] at hw
    split_ifs at hw with hwu
    · rw [hwu]
      exact hu
    · exact h.encodable w v hw

theorem Kept.state (h : Kept r) : Kept (state r u now order).1 := by
  unfold RedisPresenceStore.state
  split
  · exact h
  · rename_i v hv
    simp only
    split_ifs
    · exact h.store (h.encodable u v hv) _
    · exact h

theorem Kept.disconnect (h : Kept r) : Kept (disconnect r u sid now order).1 := by
  unfold RedisPresenceStore.disconnect
  split
  · exact h
  · rename_i v hv
    exact h.store (h.encodable u v hv) _

theorem Kept.expireUser (h : Kept r) : Kept (expireUser r u now order).1 := by
  unfold RedisPresenceStore.expireUser
  split
  · exact h
  · rename_i v hv
    simp only
    split_ifs
    · exact h
    · exact h.store (h.encodable u v hv) _
    · exact h.store (h.encodable u v hv) _

theorem expire_spec (ttl : ℤ) (hr : Kept r) {scan : List Text} (hscan : ∀ u ∈ r.keys, u ∈ scan) :
    Kept (expire r now order scan).1 ∧
      (∀ u, user (expire r now order scan).1 u = (user r u).next ttl now .expire) ∧
      ∀ u x, (u, x) ∈ (expire r now order scan).2 ↔ (user r u).stale now ∧
        x = answer u now order (((user r u).prune now).apply ttl now .expire) := by
  obtain ⟨hkept, hview, hmem⟩ := sweep_spec Kept user (fun v => v.next ttl now .expire)
    (fun u v => if v.stale now then
      some (answer u now order ((v.prune now).apply ttl now .expire)) else none)
    (fun r u h => h.expireUser)
    (fun r u h => by rw [(expireUser_spec ttl h).1, if_pos rfl])
    (fun r u w h hw => by rw [(expireUser_spec ttl h).1, if_neg hw])
    (fun r u h => (expireUser_spec ttl h).2)
    (fun v => UserPresence.next_expire_next)
    (fun u v => by simp [UserPresence.stale_next_expire])
    hr scan
  have hunknown : ∀ u, u ∉ scan → user r u = .unknown := by
    intro u hu
    exact user_of_get_none (Dict.get_eq_none_iff.2 fun hk => hu (hscan u hk))
  refine ⟨hkept, ?_, ?_⟩
  · intro u
    refine (hview u).trans ?_
    split_ifs with hu
    · rfl
    · rw [hunknown u hu, UserPresence.next_expire_unknown]
  · intro u x
    refine (hmem u x).trans ?_
    by_cases hu : u ∈ scan
    · simp only [hu, true_and, Option.ite_none_right_eq_some, Option.some.injEq, @eq_comm _ x]
    · simp [hu, hunknown u hu, UserPresence.stale, UserPresence.unknown, Dict.empty]

theorem encodable_of_answered {op : PresenceOp} {r' : RedisPresenceStore} {a : Answer}
    (h : (redisStore ttl).step r ⟨.on u op, now, order⟩ = some (r', a)) (ha : a ≠ .raised) :
    encodable u := by
  by_contra hu
  rw [Bool.not_eq_true] at hu
  have hraise : (!(encodable u && op.encodable)) = true := by rw [hu]; rfl
  simp only [redisStore, hraise, if_true] at h
  cases h
  exact ha rfl

theorem state_answered (hu : encodable u) {r' : RedisPresenceStore} :
    (redisStore ttl).step r ⟨.on u .state, now, order⟩ ≠ some (r', .raised) := by
  intro h
  simp only [redisStore, hu, PresenceOp.encodable, Bool.and_self, Bool.not_true, Bool.false_eq_true,
    if_false] at h
  cases h

end RedisPresenceStore

open RedisPresenceStore in
/-- The Redis store. -/
def redisPresenceStore (ttl : ℤ) : PresenceStore ttl RedisPresenceStore where
  machine := redisStore ttl
  initial := .empty
  user := user
  reply order u _ now v := answer u now order v
  inv := RedisPresenceStore.Kept
  inv_initial := ⟨by rintro u v ⟨⟩, by rintro u v ⟨⟩⟩
  inv_step := by
    rintro r ⟨⟨u, op⟩ | scan, now, order⟩ r' a hr h
    · simp only [redisStore] at h
      split_ifs at h with henc
      · cases h
        exact hr
      · simp only [Bool.not_eq_true', Bool.not_eq_false, Bool.and_eq_true] at henc
        cases op with
        | update => cases h; exact hr.store henc.1 _
        | clear => cases h; exact hr.clear
        | subscribe => cases h; exact hr.subscribe henc.1
        | state => cases h; exact hr.state
        | disconnect => cases h; exact hr.disconnect
        | expire => cases h
    · simp only [redisStore] at h
      split_ifs at h with hscan
      cases h
      exact (expire_spec ttl hr hscan.2).1
  user_initial u := rfl
  reply_revision _ _ _ _ _ := rfl
  enabled := by
    intro r u op now order hop
    simp only [redisStore]
    split_ifs
    · rfl
    · cases op <;> first | rfl | exact absurd rfl hop
  raised := by
    intro r u op now order r' h
    simp only [redisStore] at h
    split_ifs at h
    · cases h
      rfl
    · cases op <;> cases h
  served h ha _ _ _ _ := state_answered (encodable_of_answered h ha)
  served_stale := by
    intro r u now hr hst
    cases hget : r.get u with
    | none =>
      rw [user_of_get_none hget] at hst
      cases hst
    | some v => exact fun _ _ _ _ => state_answered (hr.encodable u v hget)
  other := by
    intro r u op now order r' a hr h w hw
    simp only [redisStore] at h
    split_ifs at h
    · cases h
      rfl
    · cases op <;> cases h
      · rw [user_update, if_neg hw]
      · rw [(clear_spec ttl).1, if_neg hw]
      · rw [user_subscribe, if_neg hw]
      · rw [(state_spec ttl hr).1, if_neg hw]
      · rw [(disconnect_spec ttl).1, if_neg hw]
  self := by
    intro r u op now order r' a hr h hraised
    simp only [redisStore] at h
    split_ifs at h
    · cases h
      exact absurd rfl hraised
    · cases op <;> cases h
      · rw [user_update, if_pos rfl]
        exact ⟨rfl, rfl⟩
      · rw [(clear_spec ttl).1, if_pos rfl, (clear_spec ttl).2]
        exact ⟨rfl, rfl⟩
      · rw [user_subscribe, if_pos rfl]
        exact ⟨rfl, rfl⟩
      · rw [(state_spec ttl hr).1, if_pos rfl, (state_spec ttl hr).2]
        exact ⟨rfl, rfl⟩
      · rw [(disconnect_spec ttl).1, if_pos rfl, (disconnect_spec ttl).2]
        exact ⟨rfl, rfl⟩
  expire := by
    intro r scan now order r' a hr h
    simp only [redisStore] at h
    split_ifs at h with hscan
    cases h
    obtain ⟨-, hview, hmem⟩ := expire_spec ttl hr hscan.2
    exact ⟨fun u => congrArg (UserPresence.prune · now) (hview u), _, rfl, hmem⟩

end TideBot
