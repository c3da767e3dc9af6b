/-
  The presence of one user (`socket/companion_presence.py`): what both presence
  stores keep for a user, and what each of their operations does to it.

  A main client publishes a presence record, which lives for `ttl` seconds; a
  companion holds a lease as a subscriber, which lives as long.  Every change of the
  records counts up the revision.  A user without records and leases is forgotten,
  revision and all (`settle`).

  `next` is the operation, up to the answer; it begins by pruning the leases that
  have run out.  Time is exact.
-/
import TideBot.Lib.Dict
import TideBot.Lib.Text

namespace TideBot

open Lib

/-- `PresenceUpdate` -/
structure PresenceUpdate where
  clientId : Text
  chatId : Option Text
  chatTitle : Option Text
  deviceLabel : Text
  isFocused : Bool
  focusedAt : ℚ
  deriving DecidableEq

/-- What `validate_presence_update` lets through. -/
def PresenceUpdate.valid (p : PresenceUpdate) : Bool :=
  (p.clientId ≠ [] ∧ p.clientId.length ≤ 128) ∧
    (p.chatId.isSome ↔ p.chatTitle.isSome) ∧
    (∀ c ∈ p.chatId, c ≠ [] ∧ c.length ≤ 128) ∧ (∀ t ∈ p.chatTitle, t.length ≤ 512) ∧
    p.deviceLabel.length ≤ 128 ∧ 0 ≤ p.focusedAt

/-- `PresenceState` -/
structure PresenceState where
  active : Option PresenceUpdate
  revision : ℕ
  deriving DecidableEq

/-- A record with its times (`_MemoryEntry`, and the entries of the Lua scripts). -/
structure PresenceEntry where
  presence : PresenceUpdate
  updatedAt : ℚ
  expiresAt : ℚ
  deriving DecidableEq

/-- What is kept for a user: records and leases by socket, and the revision. -/
structure UserPresence where
  entries : Dict Text PresenceEntry
  revision : ℕ
  subscribers : Dict Text ℚ
  deriving DecidableEq

/-- The operations on one user. -/
inductive PresenceOp where
  | update (sid : Text) (presence : PresenceUpdate)
  | clear (sid : Text)
  | subscribe (sid : Text)
  | state
  | disconnect (sid : Text)
  | expire
  deriving DecidableEq

namespace UserPresence

/-- A user that is not known. -/
def unknown : UserPresence := ⟨.empty, 0, .empty⟩

variable (v : UserPresence)

/-- The records that have not expired. -/
def live (now : ℚ) : Dict Text PresenceEntry := v.entries.filter fun e => now < e.2.expiresAt

/-- Is there a record that has expired? -/
def stale (now : ℚ) : Bool := v.entries.entries.any fun e => e.2.expiresAt ≤ now

/-- `_prune_subscribers` -/
def prune (now : ℚ) : UserPresence :=
  { v with subscribers := v.subscribers.filter fun e => now < e.2 }

/-- Store a record; those that have expired go. -/
def put (ttl : ℤ) (now : ℚ) (sid : Text) (presence : PresenceUpdate) : UserPresence :=
  { v with
    entries := (v.live now).set sid ⟨presence, now, now + ttl⟩
    revision := v.revision + 1 }

/-- Remove the record of a socket. -/
def remove (sid : Text) : UserPresence :=
  if sid ∈ v.entries.keys then { v with entries := v.entries.erase sid, revision := v.revision + 1 }
  else v

/-- Remove the records that have expired. -/
def expired (now : ℚ) : UserPresence :=
  if v.stale now then { v with entries := v.live now, revision := v.revision + 1 } else v

/-- Nothing is kept. -/
def idle : Bool := v.entries.entries.isEmpty && v.subscribers.entries.isEmpty

/-- `_drop_idle_user` -/
def settle : UserPresence := if v.idle then unknown else v

/-- The operation on a user whose leases are pruned. -/
def apply (ttl : ℤ) (now : ℚ) : PresenceOp → UserPresence
  | .update sid presence => v.put ttl now sid presence
  | .clear sid => v.remove sid
  | .subscribe sid => { v with subscribers := v.subscribers.set sid (now + ttl) }
  | .state => v
  | .disconnect sid => { v.remove sid with subscribers := v.subscribers.erase sid }
  | .expire => v.expired now

/-- The whole operation. -/
def next (ttl : ℤ) (now : ℚ) (op : PresenceOp) : UserPresence :=
  ((v.prune now).apply ttl now op).settle

/-- Does the user keep its revision?  One without records and leases is forgotten. -/
def remembers (ttl : ℤ) (now : ℚ) (op : PresenceOp) : Bool :=
  !((v.prune now).apply ttl now op).idle || ((v.prune now).apply ttl now op).revision = 0

/-- Does the operation answer with a state? -/
def answers (now : ℚ) : PresenceOp → Bool
  | .disconnect sid => sid ∈ v.entries.keys
  | .expire => v.stale now
  | _ => true

/-! ## Pruning -/

section
variable {v : UserPresence} {t now : ℚ}

theorem prune_prune (h : t ≤ now) : (v.prune t).prune now = v.prune now := by
  unfold prune
  congr 1
  refine Dict.ext_entries ?_
  simp only [Dict.filter, List.filter_filter]
  refine List.filter_congr ?_
  intro e _
  by_cases he : now < e.2
  · simp [he, lt_of_le_of_lt h he]
  · simp [he]

@[simp] theorem prune_entries : (v.prune now).entries = v.entries := rfl

@[simp] theorem prune_revision : (v.prune now).revision = v.revision := rfl

theorem prune_put {ttl : ℤ} {sid : Text} {p : PresenceUpdate} :
    (v.put ttl now sid p).prune now = (v.prune now).put ttl now sid p := rfl

theorem remove_prune {sid : Text} : (v.prune now).remove sid = (v.remove sid).prune now := by
  unfold remove
  rw [prune_entries]
  split_ifs <;> rfl

/-! ## Settling -/

theorem settle_eq (v : UserPresence) : v.settle = unknown ∨ v.settle = v := by
  unfold settle
  split_ifs
  · exact .inl rfl
  · exact .inr rfl

theorem settle_settle : v.settle.settle = v.settle := by
  unfold settle
  split_ifs with h h' <;> rfl

theorem settle_of_entries {k : Text} {e : PresenceEntry} (h : v.entries.get k = some e) :
    v.settle = v := by
  have hmem := Dict.mem_entries_iff.2 h
  have hidle : v.idle = false := by
    cases hes : v.entries.entries with
    | nil => rw [hes] at hmem; cases hmem
    | cons => simp [idle, hes]
  simp [settle, hidle]

theorem idle_of_subscribers {k : Text} {t : ℚ} (h : v.subscribers.get k = some t) :
    v.idle = false := by
  have hmem := Dict.mem_entries_iff.2 h
  cases hes : v.subscribers.entries with
  | nil => rw [hes] at hmem; cases hmem
  | cons => simp [idle, hes]

theorem settle_of_subscribers {k : Text} {t : ℚ} (h : v.subscribers.get k = some t) :
    v.settle = v := by
  simp [settle, idle_of_subscribers h]

theorem settle_put {ttl : ℤ} {sid : Text} {p : PresenceUpdate} :
    (v.put ttl now sid p).settle = v.put ttl now sid p :=
  settle_of_entries (Dict.get_set_self ..)

theorem settle_lease {ttl : ℤ} {sid : Text} :
    (v.apply ttl now (.subscribe sid)).settle = v.apply ttl now (.subscribe sid) :=
  settle_of_subscribers (Dict.get_set_self ..)

/-! ## Leases -/

theorem remembers_of_lease {ttl : ℤ} {op : PresenceOp} {sid : Text} {t : ℚ}
    (h : (v.prune now).subscribers.get sid = some t) (hop : op ≠ .disconnect sid) :
    v.remembers ttl now op := by
  have hremove : ∀ sid', ((v.prune now).remove sid').subscribers = (v.prune now).subscribers := by
    intro sid'
    unfold remove
    split_ifs <;> rfl
  have hlease : ∃ t', ((v.prune now).apply ttl now op).subscribers.get sid = some t' := by
    cases op with
    | update | state => exact ⟨t, h⟩
    | clear sid' => exact ⟨t, by rw [apply, hremove]; exact h⟩
    | subscribe sid' =>
      by_cases hs : sid = sid'
      · subst hs
        exact ⟨now + ttl, Dict.get_set_self ..⟩
      · exact ⟨t, (Dict.get_set_of_ne _ hs).trans h⟩
    | disconnect sid' =>
      have hs : sid ≠ sid' := by
        rintro rfl
        exact hop rfl
      exact ⟨t, (Dict.get_erase_of_ne _ hs).trans h⟩
    | expire =>
      refine ⟨t, ?_⟩
      simp only [apply, expired]
      split_ifs <;> exact h
  obtain ⟨t', ht'⟩ := hlease
  simp [remembers, idle_of_subscribers ht']

theorem next_of_remembers {ttl : ℤ} {op : PresenceOp} (h : v.remembers ttl now op) :
    (v.next ttl now op).entries = ((v.prune now).apply ttl now op).entries ∧
      (v.next ttl now op).revision = ((v.prune now).apply ttl now op).revision := by
  rw [next, settle]
  split_ifs with hidle
  · simp only [remembers, hidle, Bool.not_true, Bool.false_or, decide_eq_true_eq] at h
    refine ⟨?_, h.symm⟩
    simp only [idle, Bool.and_eq_true, List.isEmpty_iff] at hidle
    exact Dict.ext_entries hidle.1.symm
  · exact ⟨rfl, rfl⟩

theorem apply_entries {ttl : ℤ} {op : PresenceOp} (h : (v.apply ttl now op).revision = v.revision) :
    (v.apply ttl now op).entries = v.entries := by
  have hremove : ∀ sid, (v.remove sid).revision = v.revision → (v.remove sid).entries = v.entries := by
    intro sid
    unfold remove
    split_ifs
    · exact fun h => absurd h (Nat.succ_ne_self _)
    · exact fun _ => rfl
  cases op with
  | update => exact absurd h (Nat.succ_ne_self _)
  | clear sid => exact hremove sid h
  | disconnect sid => exact hremove sid h
  | subscribe | state => rfl
  | expire =>
    simp only [apply, expired] at h ⊢
    split_ifs with hs
    · rw [if_pos hs] at h
      exact absurd h (Nat.succ_ne_self _)
    · rfl

theorem revision_le_apply {ttl : ℤ} {op : PresenceOp} : v.revision ≤ (v.apply ttl now op).revision := by
  have hremove : ∀ sid, v.revision ≤ (v.remove sid).revision := by
    intro sid
    unfold remove
    split_ifs
    · exact Nat.le_succ _
    · exact le_rfl
  cases op with
  | update => exact Nat.le_succ _
  | clear sid => exact hremove sid
  | disconnect sid => exact hremove sid
  | subscribe | state => exact le_rfl
  | expire =>
    simp only [apply, expired]
    split_ifs
    · exact Nat.le_succ _
    · exact le_rfl

/-! ## Expiring -/

theorem next_expire_unknown {ttl : ℤ} : unknown.next ttl now .expire = unknown := rfl

theorem stale_expired : (v.expired now).stale now = false := by
  unfold expired
  split_ifs with h
  · simp [stale, live, Dict.filter]
  · simpa using h

theorem expired_expired : (v.expired now).expired now = v.expired now := by
  rw [expired, stale_expired, if_neg Bool.false_ne_true]

theorem prune_expired : (v.expired now).prune now = (v.prune now).expired now := by
  unfold expired
  have hst : (v.prune now).stale now = v.stale now := rfl
  rw [hst]
  split_ifs <;> rfl

theorem next_expire_next {ttl : ℤ} :
    (v.next ttl now .expire).next ttl now .expire = v.next ttl now .expire := by
  by_cases hidle : ((v.prune now).expired now).idle
  · simp only [next, apply, settle, hidle, if_true]
    rfl
  · have hnext : v.next ttl now .expire = (v.prune now).expired now := by
      simp only [next, apply, settle, hidle, if_false, Bool.false_eq_true]
    rw [hnext]
    simp only [next, apply]
    rw [prune_expired, prune_prune le_rfl, expired_expired, settle, if_neg hidle]

theorem stale_next_expire {ttl : ℤ} : (v.next ttl now .expire).stale now = false := by
  rcases settle_eq ((v.prune now).expired now) with h | h
  · rw [next, apply, h]
    rfl
  · rw [next, apply, h]
    exact stale_expired

theorem stale_prune : (v.prune now).stale now = v.stale now := rfl

end

end UserPresence

end TideBot
