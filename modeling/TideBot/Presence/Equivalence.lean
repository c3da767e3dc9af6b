/-
  Are the two presence stores interchangeable?

  `stores` runs both side by side on the same calls, with a clock that does not go back
  and validated records.  They differ in what they read of a record that has expired and
  was not swept yet: `clear` and `disconnect` of the memory store still see it
  (`interchangeable_fails`).

  `Comparable` leaves out what makes them differ: such a record, a `ttl` that is not
  positive, records that tie, a clock before -1, a surrogate that stands alone.  Then all
  answers are the same (`interchangeable_comparable`).  The invariant is `Agree`: what the
  stores keep for a user is the same up to leases that have run out.
-/
import TideBot.Presence.Memory
import TideBot.Presence.Redis

namespace TideBot

open Lib

/-- Both stores, and the time of the last call. -/
structure Stores where
  memory : MemoryPresenceStore
  redis : RedisPresenceStore
  clock : Option ℚ

def Stores.initial : Stores := ⟨.initial, .empty, none⟩

/-- Is the record of an update validated? -/
def StoreCall.validated : StoreCall → Bool
  | .on _ (.update _ p) => p.valid
  | _ => true

/-- The two stores on the same calls. -/
def stores (ttl : ℤ) : Machine Stores TimedCall (Answer × Answer) where
  step s c :=
    if (∀ t ∈ s.clock, t ≤ c.now) ∧ c.call.validated then
      match (memoryPresenceStore ttl).machine.step s.memory c,
        (redisPresenceStore ttl).machine.step s.redis c with
      | some (m, a), some (r, b) => some (⟨m, r, some c.now⟩, (a, b))
      | _, _ => none
    else none

/-- The same state, the same `None`-ness, the same set of expiries. -/
def SameAnswer : Answer × Answer → Prop
  | (.state s, .state s') => s = s'
  | (.maybe s, .maybe s') => s = s'
  | (.expiries l, .expiries l') => ∀ x, x ∈ l ↔ x ∈ l'
  | _ => False

/-- Two records of which neither is the better one. -/
def PresenceEntry.ties (e f : PresenceEntry) : Bool :=
  e.presence.isFocused = f.presence.isFocused ∧
    e.rank e.presence.isFocused = f.rank e.presence.isFocused

/-- All records of the user but that of `sid` are alive. -/
def othersAlive (v : UserPresence) (sid : Text) (now : ℚ) : Bool :=
  v.entries.entries.all fun f => f.1 = sid ∨ now < f.2.expiresAt

/-- What makes the stores differ is left out. -/
def comparable (ttl : ℤ) (s : Stores) (c : TimedCall) : Bool :=
  0 < ttl && match c.call with
    | .on u op => encodable u && op.encodable && match op with
      | .update sid p => -1 ≤ c.now && ((s.memory.user u).live c.now).entries.all fun f =>
          f.1 = sid ∨ PresenceEntry.ties ⟨p, c.now, c.now + ttl⟩ f.2 = false
      | .clear sid => othersAlive (s.memory.user u) sid c.now
      | .disconnect sid =>
        !((s.memory.user u).answers c.now op) || othersAlive (s.memory.user u) sid c.now
      | .subscribe _ | .state | .expire => true
    | .expire _ => true

/-! ## Choosing the active record -/

/-- A record that beats the value that the Lua loop starts from. -/
def PresenceEntry.proper (e : PresenceEntry) : Bool :=
  e.presence.clientId ≠ [] ∧ 0 ≤ e.presence.focusedAt ∧ -1 ≤ e.updatedAt

/-- Records that can be compared: proper, and without ties. -/
structure Ranked (d : Dict Text PresenceEntry) : Prop where
  valid : ∀ f ∈ d.entries, f.2.proper
  apart : ∀ f ∈ d.entries, ∀ g ∈ d.entries, f.1 ≠ g.1 → f.2.ties g.2 = false

theorem Ranked.mono {d d' : Dict Text PresenceEntry} (h : Ranked d)
    (hsub : ∀ f ∈ d'.entries, f ∈ d.entries) : Ranked d' where
  valid f hf := h.valid f (hsub f hf)
  apart f hf g hg := h.apart f (hsub f hf) g (hsub g hg)

theorem PresenceEntry.ties_comm (e f : PresenceEntry) : e.ties f = f.ties e := by
  have hiff : (e.presence.isFocused = f.presence.isFocused ∧
      e.rank e.presence.isFocused = f.rank e.presence.isFocused) ↔
      (f.presence.isFocused = e.presence.isFocused ∧
        f.rank f.presence.isFocused = e.rank f.presence.isFocused) := by
    constructor
    · rintro ⟨h, h'⟩
      exact ⟨h.symm, by rw [← h, h']⟩
    · rintro ⟨h, h'⟩
      exact ⟨h.symm, by rw [← h, h']⟩
  exact decide_eq_decide.2 hiff

theorem Ranked.set {d : Dict Text PresenceEntry} (h : Ranked d) {sid : Text} {e : PresenceEntry}
    (he : e.proper)
    (hnew : ∀ f ∈ d.entries, f.1 = sid ∨ e.ties f.2 = false) : Ranked (d.set sid e) := by
  have hmem : ∀ f ∈ (d.set sid e).entries, f = (sid, e) ∨ f ∈ d.entries ∧ f.1 ≠ sid := by
    rintro ⟨k, x⟩ hf
    rw [Dict.mem_entries_iff, Dict.get_set] at hf
    split_ifs at hf with hk
    · cases hf
      exact .inl (by rw [hk])
    · exact .inr ⟨Dict.mem_entries_iff.2 hf, hk⟩
  refine ⟨?_, ?_⟩
  · intro f hf
    rcases hmem f hf with rfl | ⟨hf, -⟩
    · exact he
    · exact h.valid f hf
  · intro f hf g hg hne
    rcases hmem f hf with rfl | ⟨hf, hfk⟩
    · rcases hmem g hg with rfl | ⟨hg, hgk⟩
      · exact absurd rfl hne
      · exact (hnew g hg).resolve_left hgk
    · rcases hmem g hg with rfl | ⟨hg, hgk⟩
      · rw [PresenceEntry.ties_comm]
        exact (hnew f hf).resolve_left hfk
      · exact h.apart f hf g hg hne

theorem start_lt_rank {e : PresenceEntry} (he : e.proper) (b : Bool) :
    toLex ((-1 : ℚ), toLex ((-1 : ℚ), ([] : Text))) < e.rank b := by
  simp only [PresenceEntry.proper, decide_eq_true_eq] at he
  obtain ⟨hne, hfocus, hupd⟩ := he
  have hclient : ([] : Text) < e.presence.clientId := by
    cases hc : e.presence.clientId with
    | nil => exact absurd hc hne
    | cons => exact List.nil_lt_cons ..
  have hrest : toLex ((-1 : ℚ), ([] : Text)) < toLex (e.updatedAt, e.presence.clientId) := by
    rw [Prod.Lex.toLex_lt_toLex]
    rcases lt_or_eq_of_le hupd with h | h
    · exact .inl h
    · exact .inr ⟨h, hclient⟩
  unfold PresenceEntry.rank
  rw [Prod.Lex.toLex_lt_toLex]
  cases b with
  | true =>
    exact .inl (by simp only [if_true]; linarith)
  | false =>
    rcases lt_or_eq_of_le hupd with h | h
    · exact .inl (by simpa using h)
    · exact .inr ⟨by simpa using h, hrest⟩

/-- **The scripts choose what `_active` chooses** among the live records. -/
theorem selectActive_eq {d : Dict Text PresenceEntry} (hd : Ranked d) (order : TableOrder) (u : Text)
    (now : ℚ) :
    selectActive (order.pairs u d.entries) now =
      MemoryPresenceStore.active ((d.filter fun e => now < e.2.expiresAt).entries.map Prod.snd) := by
  generalize hL : ((order.pairs u d.entries).filter fun e => now < e.2.expiresAt).map Prod.snd = L
  generalize hL' : ((d.filter fun e => now < e.2.expiresAt).entries.map Prod.snd) = L'
  have hperm : L.Perm L' := by
    rw [← hL, ← hL']
    exact (((order.perm u d.entries).filter _).map _)
  have hmem : ∀ e ∈ L', ∃ k, (k, e) ∈ d.entries := by
    intro e he
    rw [← hL'] at he
    obtain ⟨⟨k, e'⟩, hf, rfl⟩ := List.mem_map.1 he
    exact ⟨k, (List.mem_filter.1 hf).1⟩
  have hstart : ∀ b, ∀ e ∈ L, toLex ((-1 : ℚ), toLex ((-1 : ℚ), ([] : Text))) < e.rank b := by
    intro b e he
    obtain ⟨k, hk⟩ := hmem e (hperm.mem_iff.1 he)
    exact start_lt_rank (hd.valid (k, e) hk) b
  have hinj : ∀ b, ∀ e ∈ L, ∀ f ∈ L, e.presence.isFocused = b → f.presence.isFocused = b →
      e.rank b = f.rank b → e = f := by
    intro b e he f hf hb hb' hrank
    obtain ⟨k, hk⟩ := hmem e (hperm.mem_iff.1 he)
    obtain ⟨k', hk'⟩ := hmem f (hperm.mem_iff.1 hf)
    by_cases hkk : k = k'
    · subst hkk
      rw [Dict.mem_entries_iff] at hk hk'
      exact Option.some.inj (hk.symm.trans hk')
    · have hno := hd.apart (k, e) hk (k', f) hk' hkk
      simp [PresenceEntry.ties, hb, hb', hrank] at hno
  have hfocused := hperm.filter (fun e => e.presence.isFocused)
  simp only [selectActive, MemoryPresenceStore.active, hL]
  by_cases hnone : L.filter (fun e => e.presence.isFocused) = []
  · have hnone' : L'.filter (fun e => e.presence.isFocused) = [] := by
      rw [hnone] at hfocused
      exact List.nil_perm.1 hfocused
    have hun : ∀ e ∈ L, e.presence.isFocused = false := by
      intro e he
      simpa using List.filter_eq_nil_iff.1 hnone e he
    have hall : L.filter (fun e => !e.presence.isFocused) = L := by
      refine List.filter_eq_self.2 ?_
      intro e he
      rw [hun e he]
      rfl
    simp only [hnone, hnone', hall, if_true]
    rw [scanMax_eq_argmax (hstart _), argmax_perm ?_ hperm]
    intro e he f hf
    exact hinj _ e he f hf (by simpa using hun e he) (by simpa using hun f hf)
  · have hnone' : L'.filter (fun e => e.presence.isFocused) ≠ [] := by
      intro h
      rw [h] at hfocused
      exact hnone (List.perm_nil.1 hfocused)
    rw [decide_eq_true (p := L.filter (fun e => e.presence.isFocused) ≠ []) hnone,
      decide_eq_true hnone', if_neg hnone, if_neg hnone']
    have hsub : ∀ e ∈ L.filter (fun e => e.presence.isFocused), e ∈ L ∧ e.presence.isFocused = true :=
      fun e he => List.mem_filter.1 he
    rw [scanMax_eq_argmax fun e he => hstart _ e (hsub e he).1, argmax_perm ?_ hfocused]
    intro e he f hf
    exact hinj true e (hsub e he).1 f (hsub f hf).1 (hsub e he).2 (hsub f hf).2

/-! ## One call -/

variable {ttl : ℤ} {s s' : Stores} {c : TimedCall} {a b : Answer}

/-- What is kept is the same up to leases that have run out, and can be compared. -/
structure Agree (ttl : ℤ) (s : Stores) : Prop where
  users : SameUsers (memoryPresenceStore ttl) (redisPresenceStore ttl) s.clock s.memory s.redis
  memory : (memoryPresenceStore ttl).inv s.memory
  redis : (redisPresenceStore ttl).inv s.redis
  ranked : ∀ u, Ranked ((memoryPresenceStore ttl).user s.memory u).entries

theorem Agree.initial : Agree ttl .initial where
  users _ _ _ := rfl
  memory := (memoryPresenceStore ttl).inv_initial
  redis := (redisPresenceStore ttl).inv_initial
  ranked _ := ⟨by rintro f ⟨⟩, by rintro f ⟨⟩⟩

/-- The memory store reads all records, Redis only those that are alive: the same, if all
    are. -/
theorem reply_eq {v : UserPresence} (hv : Ranked v.entries) (order : TableOrder) (u : Text)
    {op : PresenceOp} {now : ℚ}
    (hlive : (∀ sid, op ≠ .subscribe sid) → op ≠ .state → v.live now = v.entries) :
    (memoryPresenceStore ttl).reply order u op now v =
      (redisPresenceStore ttl).reply order u op now v := by
  have hsel : ∀ d, v.live now = d → RedisPresenceStore.answer u now order v =
      ⟨MemoryPresenceStore.active (d.entries.map Prod.snd), v.revision⟩ := by
    rintro d rfl
    rw [RedisPresenceStore.answer, selectActive_eq hv]
    rfl
  cases op with
  | subscribe | state => exact (hsel _ rfl).symm
  | update | clear | disconnect | expire =>
    exact (hsel v.entries (hlive (by simp) (by simp))).symm

theorem live_eq_entries {v : UserPresence} {now : ℚ}
    (h : ∀ f ∈ v.entries.entries, now < f.2.expiresAt) : v.live now = v.entries := by
  refine Dict.ext_entries (List.filter_eq_self.2 ?_)
  intro f hf
  simpa using h f hf

/-- The conditions on one operation, for what is kept for its user. -/
def comparableOn (ttl : ℤ) (now : ℚ) (v : UserPresence) : PresenceOp → Prop
  | .update sid p => p.valid ∧ -1 ≤ now ∧ ∀ f ∈ (v.live now).entries,
      f.1 = sid ∨ PresenceEntry.ties ⟨p, now, now + ttl⟩ f.2 = false
  | .clear sid => othersAlive v sid now
  | .disconnect sid => v.answers now (.disconnect sid) → othersAlive v sid now
  | .subscribe _ | .state | .expire => True

theorem mem_erase {d : Dict Text PresenceEntry} {sid : Text} {f : Text × PresenceEntry}
    (h : f ∈ (d.erase sid).entries) : f ∈ d.entries ∧ f.1 ≠ sid := by
  simpa [Dict.erase, Dict.filter] using h

theorem Ranked.apply {v : UserPresence} (hv : Ranked v.entries) {op : PresenceOp} {now : ℚ}
    (hC : comparableOn ttl now v op) : Ranked ((v.prune now).apply ttl now op).entries := by
  have hremove : ∀ sid, Ranked (v.remove sid).entries := by
    intro sid
    unfold UserPresence.remove
    split_ifs
    · exact hv.mono fun f hf => (mem_erase hf).1
    · exact hv
  have hlive : Ranked (v.live now) := hv.mono fun f hf => (List.mem_filter.1 hf).1
  cases op with
  | update sid p =>
    have hvalid := hC.1
    simp only [PresenceUpdate.valid, decide_eq_true_eq] at hvalid
    refine hlive.set ?_ hC.2.2
    simp only [PresenceEntry.proper, decide_eq_true_eq]
    exact ⟨hvalid.1.1, hvalid.2.2.2.2.2, hC.2.1⟩
  | clear sid | disconnect sid =>
    simp only [UserPresence.apply, UserPresence.remove_prune, UserPresence.prune_entries]
    exact hremove sid
  | subscribe | state => exact hv
  | expire =>
    unfold UserPresence.apply UserPresence.expired
    split_ifs
    · exact hlive
    · exact hv

theorem Ranked.next {v : UserPresence} (hv : Ranked v.entries) {op : PresenceOp} {now : ℚ}
    (hC : comparableOn ttl now v op) : Ranked (v.next ttl now op).entries := by
  rcases UserPresence.settle_eq ((v.prune now).apply ttl now op) with h | h
  · rw [UserPresence.next, h]
    exact ⟨by rintro f ⟨⟩, by rintro f ⟨⟩⟩
  · rw [UserPresence.next, h]
    exact hv.apply hC

theorem live_apply {v : UserPresence} (httl : 0 < ttl) {op : PresenceOp} {now : ℚ}
    (hC : comparableOn ttl now v op) (hans : v.answers now op)
    (hsub : ∀ sid, op ≠ .subscribe sid) (hstate : op ≠ .state) :
    ((v.prune now).apply ttl now op).live now = ((v.prune now).apply ttl now op).entries := by
  have hremove : ∀ sid, othersAlive v sid now → ∀ f ∈ (v.remove sid).entries.entries,
      now < f.2.expiresAt := by
    intro sid hothers f hf
    have hall : ∀ f ∈ v.entries.entries, f.1 = sid ∨ now < f.2.expiresAt := by
      simpa [othersAlive] using hothers
    unfold UserPresence.remove at hf
    split_ifs at hf with hk
    · obtain ⟨hf, hne⟩ := mem_erase hf
      exact (hall f hf).resolve_left hne
    · refine (hall f hf).resolve_left ?_
      rintro rfl
      exact hk (List.mem_map_of_mem hf)
  refine live_eq_entries ?_
  cases op with
  | update sid p =>
    rintro ⟨k, e⟩ hf
    rw [Dict.mem_entries_iff] at hf
    simp only [UserPresence.apply, UserPresence.put, Dict.get_set] at hf
    split_ifs at hf
    · cases hf
      simpa using httl
    · have := (Dict.get_filter.1 hf).2
      simpa using this
  | clear sid =>
    simp only [UserPresence.apply, UserPresence.remove_prune, UserPresence.prune_entries]
    exact hremove sid hC
  | disconnect sid =>
    simp only [UserPresence.apply, UserPresence.remove_prune, UserPresence.prune_entries]
    exact hremove sid (hC hans)
  | subscribe sid => exact absurd rfl (hsub sid)
  | state => exact absurd rfl hstate
  | expire =>
    intro f hf
    have hstale : ((v.prune now).expired now).stale now = false := UserPresence.stale_expired
    simpa using List.any_eq_false.1 hstale f hf

theorem Agree.on {u : Text} {op : PresenceOp} {now : ℚ} {order : TableOrder} (h : Agree ttl s)
    (httl : 0 < ttl) (hclock : ∀ t ∈ s.clock, t ≤ now)
    (hC : comparableOn ttl now ((memoryPresenceStore ttl).user s.memory u) op)
    (henc : encodable u && op.encodable) {m : MemoryPresenceStore} {r : RedisPresenceStore}
    (hm : (memoryPresenceStore ttl).machine.step s.memory ⟨.on u op, now, order⟩ = some (m, a))
    (hr : (redisPresenceStore ttl).machine.step s.redis ⟨.on u op, now, order⟩ = some (r, b)) :
    Agree ttl ⟨m, r, some now⟩ ∧ SameAnswer (a, b) := by
  have ha : a ≠ .raised := by
    rintro rfl
    cases op <;> cases hm
  have hb : b ≠ .raised := by
    rintro rfl
    simp only [redisPresenceStore, redisStore, henc, Bool.not_true, Bool.false_eq_true, if_false]
      at hr
    cases op <;> cases hr
  obtain ⟨husers, rfl, rfl⟩ := h.users.on h.memory h.redis hclock hm ha hr hb
  have hself := ((memoryPresenceStore ttl).self h.memory hm ha).1
  refine ⟨⟨husers, (memoryPresenceStore ttl).inv_step h.memory hm,
    (redisPresenceStore ttl).inv_step h.redis hr, ?_⟩, ?_⟩
  · intro w
    by_cases hw : w = u
    · subst hw
      have hent := congrArg UserPresence.entries hself
      rw [UserPresence.prune_entries, UserPresence.prune_entries] at hent
      simp only [hent]
      exact (h.ranked w).next hC
    · simp only [(memoryPresenceStore ttl).other h.memory hm w hw]
      exact h.ranked w
  · by_cases hans : ((memoryPresenceStore ttl).user s.memory u).answers now op
    · rw [if_pos hans, if_pos hans, reply_eq ((h.ranked u).apply hC) order u
        fun hsub hstate => live_apply httl hC hans hsub hstate]
      cases op <;> rfl
    · rw [if_neg hans, if_neg hans]
      cases op <;> first | rfl | exact absurd rfl hans | cases hm

theorem Agree.expire {scan : List Text} {now : ℚ} {order : TableOrder} (h : Agree ttl s)
    (httl : 0 < ttl) (hclock : ∀ t ∈ s.clock, t ≤ now) {m : MemoryPresenceStore}
    {r : RedisPresenceStore}
    (hm : (memoryPresenceStore ttl).machine.step s.memory ⟨.expire scan, now, order⟩ = some (m, a))
    (hr : (redisPresenceStore ttl).machine.step s.redis ⟨.expire scan, now, order⟩ = some (r, b)) :
    Agree ttl ⟨m, r, some now⟩ ∧ SameAnswer (a, b) := by
  obtain ⟨husers, l, l', rfl, rfl, hmem, hmem'⟩ := h.users.expire h.memory h.redis hclock hm hr
  have hself := ((memoryPresenceStore ttl).expire h.memory hm).1
  refine ⟨⟨husers, (memoryPresenceStore ttl).inv_step h.memory hm,
    (redisPresenceStore ttl).inv_step h.redis hr, ?_⟩, ?_⟩
  · intro w
    have hent := congrArg UserPresence.entries (hself w)
    rw [UserPresence.prune_entries, UserPresence.prune_entries] at hent
    simp only [hent]
    exact (h.ranked w).next trivial
  · rintro ⟨u, x⟩
    rw [hmem, hmem']
    have hC : comparableOn ttl now ((memoryPresenceStore ttl).user s.memory u) .expire := trivial
    refine and_congr_right ?_
    intro hstale
    rw [reply_eq ((h.ranked u).apply hC) order u
      fun hsub hstate => live_apply httl hC hstale hsub hstate]

/-- **One call** keeps the stores in agreement, and they answer the same. -/
theorem Agree.step (h : Agree ttl s) (hC : comparable ttl s c)
    (hs : (stores ttl).step s c = some (s', (a, b))) : Agree ttl s' ∧ SameAnswer (a, b) := by
  simp only [stores] at hs
  split_ifs at hs with hen
  split at hs
  · rename_i m a r b hm hr
    cases hs
    obtain ⟨⟨u, op⟩ | scan, now, order⟩ := c
    · simp only [comparable, Bool.and_eq_true, decide_eq_true_eq] at hC
      obtain ⟨httl, henc, hop⟩ := hC
      refine h.on httl hen.1 ?_ (by simpa using henc) hm hr
      cases op with
      | update sid p =>
        simp only [Bool.and_eq_true, decide_eq_true_eq, List.all_eq_true] at hop
        exact ⟨hen.2, hop.1, hop.2⟩
      | clear sid => exact hop
      | disconnect sid =>
        intro hans
        simp only [Bool.or_eq_true, Bool.not_eq_true'] at hop
        rcases hop with hno | hothers
        · exact absurd (hno.symm.trans hans) Bool.false_ne_true
        · exact hothers
      | subscribe | state | expire => trivial
    · simp only [comparable, Bool.and_true, decide_eq_true_eq] at hC
      exact h.expire hC hen.1 hm hr
  · cases hs

/-! ## Runs -/

/-- **The stores are interchangeable** in every run whose calls are comparable. -/
theorem interchangeable_comparable {tr : List (TimedCall × Answer × Answer)}
    (h : (stores ttl).RunIn (fun s c => comparable ttl s c) .initial tr s) :
    ∀ x ∈ tr, SameAnswer x.2 := by
  refine (h.safety (I := Agree ttl) (P := fun x => SameAnswer x.2) ?_ .initial).2
  rintro s c s' ⟨a, b⟩ hC hI hs
  exact hI.step hC hs

/-! ## Two clients -/

namespace Sample

def presence (client : String) (focused : Bool) : PresenceUpdate :=
  ⟨.lit client, some (.lit "chat"), some (.lit "Title"), .lit "laptop", focused, 5⟩

def callAt (now : ℚ) (op : PresenceOp) : TimedCall := ⟨.on (.lit "u") op, now, .inserted⟩

def showing (sid client : String) : PresenceOp := .update (.lit sid) (presence client true)

end Sample

/-- Two clients, a subscriber, and an expiry. -/
theorem interchangeable_comparable_clients :
    ∃ tr s, (stores 30).RunIn (fun s c => comparable 30 s c) .initial tr s ∧ tr.length = 5 ∧
      ∀ x ∈ tr, SameAnswer x.2 := by
  obtain ⟨⟨tr, s⟩, hm, hx⟩ :
      ∃ r ∈ (stores 30).exec (fun s c => comparable 30 s c) .initial
        [Sample.callAt 0 (Sample.showing "a" "A"), Sample.callAt 10 (Sample.showing "b" "B"),
          Sample.callAt 12 (.subscribe (.lit "c")), Sample.callAt 20 (.disconnect (.lit "b")),
          ⟨.expire [.lit "u"], 35, .inserted⟩], r.1.length = 5 := by
    decide +kernel
  have hr := Machine.runIn_of_exec hm
  exact ⟨tr, s, hr, hx, interchangeable_comparable hr⟩

/-- The record of `a` has expired and was not swept when `b` is cleared: the memory store
    still answers with it, Redis does not. -/
theorem interchangeable_fails :
    ∃ tr s, (stores 30).Run .initial tr s ∧ ∃ x ∈ tr, ¬ SameAnswer x.2 := by
  obtain ⟨⟨tr, s⟩, hm, x, hx, ha, hb⟩ :
      ∃ r ∈ (stores 30).exec (fun _ _ => True) .initial
        [Sample.callAt 0 (Sample.showing "a" "A"), Sample.callAt 10 (Sample.showing "b" "B"),
          Sample.callAt 35 (.clear (.lit "b"))],
      ∃ x ∈ r.1, x.2.1 = .state ⟨some (Sample.presence "A" true), 3⟩ ∧
        x.2.2 = .state ⟨none, 3⟩ := by
    decide +kernel
  refine ⟨tr, s, Machine.runIn_of_exec hm, x, hx, ?_⟩
  obtain ⟨c, a, b⟩ := x
  obtain rfl : a = _ := ha
  obtain rfl : b = _ := hb
  rintro ⟨⟩

end TideBot
