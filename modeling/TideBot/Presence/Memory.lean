/-
  The presence store in memory (`MemoryPresenceStore`).

  Three dictionaries by user; each operation runs under one lock.  Python's `max` takes
  the first maximum in the order of the dictionary.  `update`, `clear`, `disconnect` and
  `expire` read the state from all records that are there, also from those that have
  expired and were not swept yet.
-/
import TideBot.Lib.Traversal
import TideBot.Presence.Store

namespace TideBot

open Lib

/-! ## In memory -/

/-- `MemoryPresenceStore` -/
structure MemoryPresenceStore where
  entries : Dict Text (Dict Text PresenceEntry)
  revisions : Dict Text ℕ
  subscribers : Dict Text (Dict Text ℚ)

namespace MemoryPresenceStore

/-- `_active` -/
def active (entries : List PresenceEntry) : Option PresenceUpdate :=
  let focused := entries.filter (·.presence.isFocused)
  let candidates := if focused = [] then entries else focused
  (candidates.argmax (PresenceEntry.rank (focused ≠ []))).map (·.presence)

def initial : MemoryPresenceStore := ⟨.empty, .empty, .empty⟩

variable (ttl : ℤ) (m : MemoryPresenceStore) (u sid : Text) (now : ℚ)

/-- What is kept for a user. -/
def user : UserPresence :=
  ⟨(m.entries.get u).getD .empty, (m.revisions.get u).getD 0, (m.subscribers.get u).getD .empty⟩

/-- `_state` -/
def presenceState : PresenceState :=
  ⟨active ((m.user u).entries.entries.map Prod.snd), (m.user u).revision⟩

/-- The state without the records that have expired. -/
def liveState : PresenceState :=
  ⟨active (((m.user u).live now).entries.map Prod.snd), (m.user u).revision⟩

/-- `_drop_idle_user` -/
def dropIdleUser : MemoryPresenceStore :=
  if (m.user u).idle then ⟨m.entries.erase u, m.revisions.erase u, m.subscribers.erase u⟩ else m

/-- `_prune_subscribers` -/
def pruneSubscribers : MemoryPresenceStore :=
  match m.subscribers.get u with
  | none => m
  | some leases =>
    { m with subscribers := m.subscribers.set u (leases.filter fun e => now < e.2) }

/-- New records for a user, and the next revision. -/
def setEntries (entries : Dict Text PresenceEntry) : MemoryPresenceStore :=
  { m with
    entries := m.entries.set u entries
    revisions := m.revisions.set u ((m.user u).revision + 1) }

/-- `del entries[sid]`, if it is there. -/
def removeEntry : MemoryPresenceStore :=
  if sid ∈ (m.user u).entries.keys then m.setEntries u ((m.user u).entries.erase sid) else m

/-- `update` -/
def update (presence : PresenceUpdate) : MemoryPresenceStore × PresenceState :=
  let m := m.setEntries u (((m.user u).live now).set sid ⟨presence, now, now + ttl⟩)
  (m, m.presenceState u)

/-- `clear` -/
def clear : MemoryPresenceStore × PresenceState :=
  let m := (m.pruneSubscribers u now).removeEntry u sid
  (m.dropIdleUser u, m.presenceState u)

/-- `subscribe` -/
def subscribe : MemoryPresenceStore × PresenceState :=
  let m := m.pruneSubscribers u now
  let m := { m with subscribers := m.subscribers.set u ((m.user u).subscribers.set sid (now + ttl)) }
  (m, m.liveState u now)

/-- `state` -/
def state : MemoryPresenceStore × PresenceState :=
  let m := m.pruneSubscribers u now
  (m.dropIdleUser u, m.liveState u now)

/-- `subscribers.pop(sid, None)` -/
def popSubscriber : MemoryPresenceStore :=
  match m.subscribers.get u with
  | none => m
  | some leases => { m with subscribers := m.subscribers.set u (leases.erase sid) }

/-- `disconnect` -/
def disconnect : MemoryPresenceStore × Option PresenceState :=
  let m := m.pruneSubscribers u now
  let hadEntry : Bool := sid ∈ (m.user u).entries.keys
  let m := (m.removeEntry u sid).popSubscriber u sid
  (m.dropIdleUser u, if hadEntry then some (m.presenceState u) else none)

/-- The body of the loop of `expire`. -/
def expireUser : MemoryPresenceStore × Option PresenceState :=
  let m := m.pruneSubscribers u now
  let stale := (m.user u).stale now
  let m := if stale then m.setEntries u ((m.user u).live now) else m
  (m.dropIdleUser u, if stale then some (m.presenceState u) else none)

/-- `expire` -/
def expire : MemoryPresenceStore × List (Text × PresenceState) :=
  sweep (fun m u => m.expireUser u now) m
    (m.entries.keys ++ m.subscribers.keys.filter (· ∉ m.entries.keys))

end MemoryPresenceStore

/-- The memory store as a machine. -/
def memoryStore (ttl : ℤ) : Machine MemoryPresenceStore TimedCall Answer where
  step m c := match c.call with
    | .on u (.update sid p) => let r := m.update ttl u sid c.now p; some (r.1, .state r.2)
    | .on u (.clear sid) => let r := m.clear u sid c.now; some (r.1, .state r.2)
    | .on u (.subscribe sid) => let r := m.subscribe ttl u sid c.now; some (r.1, .state r.2)
    | .on u .state => let r := m.state u c.now; some (r.1, .state r.2)
    | .on u (.disconnect sid) => let r := m.disconnect u sid c.now; some (r.1, .maybe r.2)
    | .on _ .expire => none
    | .expire _ => let r := m.expire c.now; some (r.1, .expiries r.2)

/-! ## The memory store -/

namespace MemoryPresenceStore

variable {ttl : ℤ} {m : MemoryPresenceStore} {u w sid : Text} {now : ℚ}

theorem user_setEntries {d : Dict Text PresenceEntry} :
    (m.setEntries u d).user w =
      if w = u then ⟨d, (m.user u).revision + 1, (m.user u).subscribers⟩ else m.user w := by
  unfold setEntries
  split_ifs with h
  · subst h
    simp [user]
  · simp [user, Dict.get_set_of_ne _ h]

theorem user_pruneSubscribers :
    (m.pruneSubscribers u now).user w = if w = u then (m.user u).prune now else m.user w := by
  unfold pruneSubscribers
  split
  · rename_i hnone
    split_ifs with h
    · subst h
      simp [user, UserPresence.prune, hnone, Dict.filter, Dict.empty]
    · rfl
  · rename_i leases hsome
    split_ifs with h
    · subst h
      simp [user, UserPresence.prune, hsome]
    · simp [user, Dict.get_set_of_ne _ h]

theorem user_dropIdleUser :
    (m.dropIdleUser u).user w = if w = u then (m.user u).settle else m.user w := by
  unfold dropIdleUser UserPresence.settle
  split_ifs with hidle h h
  · subst h
    simp [user, UserPresence.unknown]
  · simp [user, Dict.get_erase_of_ne _ h]
  · rw [h]
  · rfl

theorem user_removeEntry :
    (m.removeEntry u sid).user w = if w = u then (m.user u).remove sid else m.user w := by
  unfold removeEntry UserPresence.remove
  split_ifs with hk h h
  · rw [user_setEntries, if_pos h]
  · rw [user_setEntries, if_neg h]
  · rw [h]
  · rfl

theorem user_popSubscriber :
    (m.popSubscriber u sid).user w =
      if w = u then { m.user u with subscribers := (m.user u).subscribers.erase sid }
      else m.user w := by
  unfold popSubscriber
  split
  · rename_i hnone
    split_ifs with h
    · subst h
      simp [user, hnone, Dict.erase, Dict.filter, Dict.empty]
    · rfl
  · rename_i leases hsome
    split_ifs with h
    · subst h
      simp [user, hsome]
    · simp [user, Dict.get_set_of_ne _ h]

/-- How the memory store reads a state: only `subscribe` and `state` leave out the records
    that have expired. -/
def reply (_ : TableOrder) (_ : Text) (op : PresenceOp) (now : ℚ) (v : UserPresence) : PresenceState :=
  match op with
  | .subscribe _ | .state => ⟨active ((v.live now).entries.map Prod.snd), v.revision⟩
  | _ => ⟨active (v.entries.entries.map Prod.snd), v.revision⟩

theorem user_update {p : PresenceUpdate} :
    (m.update ttl u sid now p).1.user w =
      if w = u then (m.user u).put ttl now sid p else m.user w := user_setEntries

theorem user_clear (ttl : ℤ) :
    (m.clear u sid now).1.user w =
      if w = u then (m.user u).next ttl now (.clear sid) else m.user w := by
  simp only [clear, user_dropIdleUser, user_removeEntry, user_pruneSubscribers]
  split_ifs <;> rfl

theorem user_subscribe :
    (m.subscribe ttl u sid now).1.user w =
      if w = u then (m.user u).next ttl now (.subscribe sid) else m.user w := by
  have huser : ((m.pruneSubscribers u now).user u) = (m.user u).prune now := by
    rw [user_pruneSubscribers, if_pos rfl]
  unfold subscribe
  split_ifs with h
  · subst h
    rw [UserPresence.next, UserPresence.settle_lease, ← huser]
    simp [user, UserPresence.apply]
  · have hother : (m.pruneSubscribers u now).user w = m.user w := by
      rw [user_pruneSubscribers, if_neg h]
    rw [← hother]
    simp [user, Dict.get_set_of_ne _ h]

theorem user_state (ttl : ℤ) :
    (m.state u now).1.user w = if w = u then (m.user u).next ttl now .state else m.user w := by
  simp only [state, user_dropIdleUser, user_pruneSubscribers]
  split_ifs <;> rfl

theorem user_disconnect (ttl : ℤ) :
    (m.disconnect u sid now).1.user w =
      if w = u then (m.user u).next ttl now (.disconnect sid) else m.user w := by
  simp only [disconnect, user_dropIdleUser, user_popSubscriber, user_removeEntry,
    user_pruneSubscribers]
  split_ifs with h
  · simp only [UserPresence.next, UserPresence.apply]
    congr 1
    simp only [UserPresence.remove]
    split_ifs <;> rfl
  · rfl

theorem user_expireUser (ttl : ℤ) :
    (m.expireUser u now).1.user w =
      if w = u then (m.user u).next ttl now .expire else m.user w := by
  simp only [expireUser, user_dropIdleUser]
  have huser : ((m.pruneSubscribers u now).user u) = (m.user u).prune now := by
    rw [user_pruneSubscribers, if_pos rfl]
  by_cases hst : (m.user u).stale now
  · have hst' : ((m.user u).prune now).stale now := hst
    simp only [huser, hst', if_true, user_setEntries, UserPresence.next, UserPresence.apply,
      UserPresence.expired, user_pruneSubscribers]
    split_ifs <;> rfl
  · have hst' : ¬ ((m.user u).prune now).stale now := hst
    simp only [huser, hst', if_false, UserPresence.next, UserPresence.apply,
      UserPresence.expired, user_pruneSubscribers, Bool.false_eq_true]
    split_ifs <;> rfl

theorem answer_expireUser (ttl : ℤ) (order : TableOrder) :
    (m.expireUser u now).2 = if (m.user u).stale now then
      some (reply order u .expire now (((m.user u).prune now).apply ttl now .expire)) else none := by
  have huser : ((m.pruneSubscribers u now).user u) = (m.user u).prune now := by
    rw [user_pruneSubscribers, if_pos rfl]
  simp only [expireUser, huser, UserPresence.stale_prune]
  split_ifs with hst
  · simp only [presenceState, user_setEntries, huser, if_true, reply, UserPresence.apply,
      UserPresence.expired, UserPresence.stale_prune, hst]
  · rfl

theorem user_eq_unknown (hm : (m.user u).settle = m.user u)
    (hu : u ∉ m.entries.keys ++ m.subscribers.keys.filter (· ∉ m.entries.keys)) :
    m.user u = .unknown := by
  simp only [List.mem_append, List.mem_filter, not_or, not_and, decide_eq_true_eq, not_not] at hu
  have hsubs : u ∉ m.subscribers.keys := fun h => hu.1 (hu.2 h)
  rw [← hm]
  simp [UserPresence.settle, UserPresence.idle, user, Dict.get_eq_none_iff.2 hu.1,
    Dict.get_eq_none_iff.2 hsubs, Dict.empty]

theorem expire_spec (ttl : ℤ) (hm : ∀ u, (m.user u).settle = m.user u) (order : TableOrder) :
    (∀ u, (m.expire now).1.user u = (m.user u).next ttl now .expire) ∧
      ∀ u x, (u, x) ∈ (m.expire now).2 ↔ (m.user u).stale now ∧
        x = reply order u .expire now (((m.user u).prune now).apply ttl now .expire) := by
  obtain ⟨-, hview, hmem⟩ := sweep_spec (fun _ => True) user (fun v => v.next ttl now .expire)
    (fun u v => if v.stale now then
      some (reply order u .expire now ((v.prune now).apply ttl now .expire)) else none)
    (fun _ _ _ => trivial)
    (fun m u _ => by rw [user_expireUser ttl, if_pos rfl])
    (fun m u w _ h => by rw [user_expireUser ttl, if_neg h])
    (fun m u _ => answer_expireUser ttl order)
    (fun v => UserPresence.next_expire_next)
    (fun u v => by simp [UserPresence.stale_next_expire])
    (s := m) trivial (m.entries.keys ++ m.subscribers.keys.filter (· ∉ m.entries.keys))
  refine ⟨?_, ?_⟩
  · intro u
    refine (hview u).trans ?_
    split_ifs with hu
    · rfl
    · rw [user_eq_unknown (hm u) hu, UserPresence.next_expire_unknown]
  · intro u x
    refine (hmem u x).trans ?_
    by_cases hu : u ∈ m.entries.keys ++ m.subscribers.keys.filter (· ∉ m.entries.keys)
    · simp only [hu, true_and, Option.ite_none_right_eq_some, Option.some.injEq, @eq_comm _ x]
    · simp [user_eq_unknown (hm u) hu, UserPresence.stale, UserPresence.unknown, Dict.empty]

/-! ### Answers -/

theorem answer_update (order : TableOrder) {p : PresenceUpdate} :
    (m.update ttl u sid now p).2 = reply order u (.update sid p) now
      (((m.user u).prune now).apply ttl now (.update sid p)) := by
  simp only [update, presenceState, user_setEntries, if_true]
  rfl

theorem answer_clear (ttl : ℤ) (order : TableOrder) :
    (m.clear u sid now).2 = reply order u (.clear sid) now
      (((m.user u).prune now).apply ttl now (.clear sid)) := by
  simp only [clear, presenceState, user_removeEntry, user_pruneSubscribers, if_true]
  rfl

theorem answer_subscribe (order : TableOrder) :
    (m.subscribe ttl u sid now).2 = reply order u (.subscribe sid) now
      (((m.user u).prune now).apply ttl now (.subscribe sid)) := by
  have huser : ((m.pruneSubscribers u now).user u) = (m.user u).prune now := by
    rw [user_pruneSubscribers, if_pos rfl]
  simp only [subscribe, liveState, reply, UserPresence.apply, ← huser]
  rfl

theorem answer_state (ttl : ℤ) (order : TableOrder) :
    (m.state u now).2 = reply order u .state now
      (((m.user u).prune now).apply ttl now .state) := by
  simp only [state, liveState, user_pruneSubscribers, if_true]
  rfl

theorem answer_disconnect (ttl : ℤ) (order : TableOrder) :
    (m.disconnect u sid now).2 = if (m.user u).answers now (.disconnect sid) then
      some (reply order u (.disconnect sid) now
        (((m.user u).prune now).apply ttl now (.disconnect sid))) else none := by
  simp only [disconnect, presenceState, user_popSubscriber, user_removeEntry, user_pruneSubscribers,
    if_true, UserPresence.answers, UserPresence.prune_entries, decide_eq_true_eq]
  rfl

end MemoryPresenceStore

open MemoryPresenceStore in
/-- The memory store. -/
def memoryPresenceStore (ttl : ℤ) : PresenceStore ttl MemoryPresenceStore where
  machine := memoryStore ttl
  initial := .initial
  user := user
  reply := reply
  inv m := ∀ u, (m.user u).settle = m.user u
  inv_initial u := rfl
  inv_step := by
    rintro s ⟨⟨u, op⟩ | scan, now, order⟩ s' a hs h w
    · cases op with
      | update sid p =>
        cases h
        rw [user_update]
        split_ifs
        · exact UserPresence.settle_put
        · exact hs w
      | clear | subscribe | state | disconnect =>
        cases h
        simp only [user_clear ttl, user_subscribe, user_state ttl, user_disconnect ttl]
        split_ifs
        · exact UserPresence.settle_settle
        · exact hs w
      | expire => cases h
    · cases h
      rw [(expire_spec ttl hs order).1 w]
      exact UserPresence.settle_settle
  user_initial u := rfl
  reply_revision := by
    intro order u op now v
    cases op <;> rfl
  enabled := by
    intro s u op now order hop
    cases op <;> first | rfl | exact absurd rfl hop
  raised := by
    intro s u op now order s' h
    cases op <;> cases h
  served _ _ s now order s' h := by cases h
  served_stale _ _ s now order s' h := by cases h
  other := by
    intro s u op now order s' a _ h w hw
    cases op <;> cases h
    · rw [user_update, if_neg hw]
    · rw [user_clear ttl, if_neg hw]
    · rw [user_subscribe, if_neg hw]
    · rw [user_state ttl, if_neg hw]
    · rw [user_disconnect ttl, if_neg hw]
  self := by
    intro s u op now order s' a _ h _
    cases op <;> cases h
    · refine ⟨?_, congrArg Answer.state (answer_update order)⟩
      rw [user_update, if_pos rfl, UserPresence.next, UserPresence.apply, UserPresence.settle_put,
        ← UserPresence.prune_put, UserPresence.prune_prune le_rfl]
    · rw [user_clear ttl, if_pos rfl]
      exact ⟨rfl, congrArg Answer.state (answer_clear ttl order)⟩
    · rw [user_subscribe, if_pos rfl]
      exact ⟨rfl, congrArg Answer.state (answer_subscribe order)⟩
    · rw [user_state ttl, if_pos rfl]
      exact ⟨rfl, congrArg Answer.state (answer_state ttl order)⟩
    · rw [user_disconnect ttl, if_pos rfl]
      exact ⟨rfl, congrArg Answer.maybe (answer_disconnect ttl order)⟩
  expire := by
    intro s scan now order s' a hs h
    cases h
    obtain ⟨hview, hmem⟩ := expire_spec ttl hs order
    exact ⟨fun u => congrArg (UserPresence.prune · now) (hview u), _, rfl, hmem⟩

end TideBot
