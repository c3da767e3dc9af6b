/-
  Rate limiting, with Redis and without (`utils/rate_limit.py`).

  Each call of `is_limited` is counted in the bucket that its time is in; a count goes over the current bucket and
  as many before it as fit the window.  With Redis a bucket is a key of its own, which expires a window and a bucket
  after its first count; without, it is an entry of a dictionary, from which old ones are dropped when it is used.

  Both give the answers of `rateAnswers`, which keeps every call (`redisAnswers_eq`, `memoryAnswers_eq`), and these
  admit no more calls than the limit in any window (`rateAnswers_limit`).

  Times are seconds since 1970, and Redis has the same clock.  `str.lower` is a parameter.
-/
import TideBot.Lib.JsonText
import TideBot.Lib.Rolling

namespace TideBot

open Lib

/-! ## The limiter -/

/-- The fields of a `RateLimiter`, but for the Redis client. -/
structure RateLimiter where
  limit : ℤ
  window : ℕ
  bucketSize : ℕ
  enabled : Bool

/-- `num_buckets` -/
def RateLimiter.numBuckets (r : RateLimiter) : ℕ := r.window / r.bucketSize

/-- `_current_bucket` -/
def RateLimiter.currentBucket (r : RateLimiter) (now : ℚ≥0) : ℤ := (⌊now⌋₊ / r.bucketSize : ℕ)

inductive RateMethod where
  | isLimited
  | getCount
deriving DecidableEq

structure RateCall where
  time : ℚ≥0
  method : RateMethod
  key : Text

inductive RateAnswer where
  | limited (answer : Bool)
  | count (n : ℕ)
deriving DecidableEq

/-- The answers to calls, one after the other. -/
def answersOf {σ : Type} (step : σ → RateCall → RateAnswer × σ) : σ → List RateCall → List RateAnswer
  | _, [] => []
  | s, c :: calls => (step s c).1 :: answersOf step (step s c).2 calls

/-! ## Redis -/

/-- A value of Redis, and when it expires. -/
structure RedisValue where
  value : ℕ
  expiresAt : Option ℚ≥0

abbrev RedisStore := Dict Text RedisValue

/-- The value of a key that has not expired. -/
def RedisStore.live (store : RedisStore) (now : ℚ≥0) (k : Text) : Option RedisValue :=
  (store.get k).filter fun v => v.expiresAt.all fun e => now < e

/-- `INCR` -/
def RedisStore.incr (store : RedisStore) (now : ℚ≥0) (k : Text) : ℕ × RedisStore :=
  let v := (store.live now k).getD ⟨0, none⟩
  (v.value + 1, store.set k { v with value := v.value + 1 })

/-- `EXPIRE` -/
def RedisStore.expire (store : RedisStore) (now : ℚ≥0) (k : Text) (seconds : ℕ) : RedisStore :=
  match store.live now k with
  | some v => store.set k { v with expiresAt := some (now + seconds) }
  | none => store

/-- `MGET`, the sum of what is found -/
def RedisStore.sum (store : RedisStore) (now : ℚ≥0) (ks : List Text) : ℕ :=
  (ks.filterMap fun k => (store.live now k).map RedisValue.value).sum

section
variable (lower : Text → Text) (redisKeyPrefix : Text) (r : RateLimiter)

/-- `_bucket_key` -/
def bucketKey (key : Text) (bucketIndex : ℤ) : Text :=
  redisKeyPrefix ++ .lit ":ratelimit:" ++ lower key ++ .lit ":" ++ Json.intText bucketIndex

/-- The keys of the buckets that are counted. -/
def bucketKeys (key : Text) (nowBucket : ℤ) : List Text :=
  (List.range (r.numBuckets + 1)).map fun i : ℕ => bucketKey lower redisKeyPrefix key (nowBucket - i)

/-- `_is_limited_redis` -/
def isLimitedRedis (store : RedisStore) (now : ℚ≥0) (key : Text) : Bool × RedisStore :=
  let nowBucket := r.currentBucket now
  let k := bucketKey lower redisKeyPrefix key nowBucket
  let (attempts, store) := store.incr now k
  let store := if attempts = 1 then store.expire now k (r.window + r.bucketSize) else store
  let total := store.sum now (bucketKeys lower redisKeyPrefix r key nowBucket)
  (r.limit < total, store)

/-- `_get_count_redis` -/
def getCountRedis (store : RedisStore) (now : ℚ≥0) (key : Text) : ℕ :=
  store.sum now (bucketKeys lower redisKeyPrefix r key (r.currentBucket now))

/-- `is_limited` and `get_count`, with Redis -/
def redisStep (store : RedisStore) (c : RateCall) : RateAnswer × RedisStore :=
  match c.method with
  | .isLimited =>
    if r.enabled then
      let (answer, store) := isLimitedRedis lower redisKeyPrefix r store c.time c.key
      (.limited answer, store)
    else (.limited false, store)
  | .getCount => (.count (if r.enabled then getCountRedis lower redisKeyPrefix r store c.time c.key else 0), store)

/-! ## Memory -/

/-- `_memory_store` -/
abbrev MemoryStore := Dict Text (Dict ℤ ℕ)

/-- The buckets of a key, without the expired ones. -/
def dropExpired (minBucket : ℤ) (store : Dict ℤ ℕ) : Dict ℤ ℕ := store.filter fun e => ¬e.1 < minBucket

/-- `sum(store.values())` -/
def sumValues (store : Dict ℤ ℕ) : ℕ := (store.entries.map Prod.snd).sum

/-- `_is_limited_memory` -/
def isLimitedMemory (memory : MemoryStore) (now : ℚ≥0) (key : Text) : Bool × MemoryStore :=
  let nowBucket := r.currentBucket now
  let store := (memory.get key).getD .empty
  let store := store.set nowBucket ((store.get nowBucket).getD 0 + 1)
  let store := dropExpired (nowBucket - r.numBuckets) store
  (r.limit < sumValues store, memory.set key store)

/-- `_get_count_memory` -/
def getCountMemory (memory : MemoryStore) (now : ℚ≥0) (key : Text) : ℕ × MemoryStore :=
  match memory.get key with
  | none => (0, memory)
  | some store =>
    let store := dropExpired (r.currentBucket now - r.numBuckets) store
    (sumValues store, memory.set key store)

/-- `is_limited` and `get_count`, without Redis -/
def memoryStep (memory : MemoryStore) (c : RateCall) : RateAnswer × MemoryStore :=
  match c.method with
  | .isLimited =>
    if r.enabled then
      let (answer, memory) := isLimitedMemory r memory c.time c.key
      (.limited answer, memory)
    else (.limited false, memory)
  | .getCount =>
    if r.enabled then
      let (n, memory) := getCountMemory r memory c.time c.key
      (.count n, memory)
    else (.count 0, memory)

end

/-! ## All calls -/

/-- Is the call counted for a key? -/
def RateCall.counts (key : Text) (c : RateCall) : Bool := c.method = .isLimited ∧ c.key = key

/-- The calls that are counted for a key. -/
def callsFor (key : Text) (calls : List RateCall) : List RateCall := calls.filter (RateCall.counts key)

section
variable (r : RateLimiter)

/-- Is the call in a bucket that is counted at a time? -/
def RateLimiter.recent (now : ℚ≥0) (c : RateCall) : Bool := r.currentBucket now - r.numBuckets ≤ r.currentBucket c.time

/-- How many calls are counted. -/
def RateLimiter.seen (calls : List RateCall) (now : ℚ≥0) (key : Text) : ℕ :=
  (callsFor key calls).countP (r.recent now)

/-- The answer to a call, from all calls before it. -/
def RateLimiter.answer (before : List RateCall) (c : RateCall) : RateAnswer :=
  let n := r.seen (before ++ [c]) c.time c.key
  match c.method with
  | .isLimited => .limited (r.limit < n)
  | .getCount => .count n

/-- The answers to calls, from all calls before each. -/
def rateAnswers (before : List RateCall) : List RateCall → List RateAnswer
  | [] => []
  | c :: calls => r.answer before c :: rateAnswers (before ++ [c]) calls

end

/-! ## Buckets -/

section
variable {r : RateLimiter} {s t : ℚ≥0}

theorem currentBucket_mono (h : s ≤ t) : r.currentBucket s ≤ r.currentBucket t := by
  have hfloor : ⌊s⌋₊ ≤ ⌊t⌋₊ := Nat.floor_mono h
  exact Int.ofNat_le.2 (Nat.div_le_div_right hfloor)

theorem window_eq (hdvd : r.bucketSize ∣ r.window) : r.window = r.numBuckets * r.bucketSize :=
  (Nat.div_mul_cancel hdvd).symm

/-- **A key has not expired while its bucket is counted.** -/
theorem lt_expiry (hpos : 0 < r.bucketSize) (hdvd : r.bucketSize ∣ r.window)
    (h : r.currentBucket t ≤ r.currentBucket s + r.numBuckets) : t < s + (r.window + r.bucketSize : ℕ) := by
  have hbuckets : ⌊t⌋₊ / r.bucketSize < ⌊s⌋₊ / r.bucketSize + r.numBuckets + 1 := by
    unfold RateLimiter.currentBucket at h
    omega
  have hfloor : ⌊t⌋₊ + 1 ≤ ⌊s⌋₊ + (r.window + r.bucketSize) := by
    have hlt := (Nat.div_lt_iff_lt_mul hpos).1 hbuckets
    have hle := Nat.div_mul_le_self ⌊s⌋₊ r.bucketSize
    rw [Nat.add_mul, Nat.add_mul, Nat.one_mul, ← window_eq hdvd] at hlt
    omega
  calc t < (⌊t⌋₊ + 1 : ℕ) := by
        push_cast
        exact Nat.lt_floor_add_one t
    _ ≤ (⌊s⌋₊ + (r.window + r.bucketSize) : ℕ) := Nat.cast_le.2 hfloor
    _ = ⌊s⌋₊ + (r.window + r.bucketSize : ℕ) := Nat.cast_add _ _
    _ ≤ s + (r.window + r.bucketSize : ℕ) := by
        gcongr
        exact Nat.floor_le zero_le

/-- **What is in one window is counted together.** -/
theorem currentBucket_le_of_lt (hpos : 0 < r.bucketSize) (hdvd : r.bucketSize ∣ r.window) (h : t < s + r.window) :
    r.currentBucket t ≤ r.currentBucket s + r.numBuckets := by
  have hfloor : ⌊t⌋₊ ≤ ⌊s⌋₊ + r.window := by
    have hle := Nat.floor_mono h.le
    rwa [Nat.floor_add_natCast zero_le] at hle
  have hdiv := Nat.div_le_div_right (c := r.bucketSize) hfloor
  rw [window_eq hdvd, Nat.add_mul_div_right _ _ hpos] at hdiv
  unfold RateLimiter.currentBucket
  omega

end

/-! ## Keys -/

theorem append_sep_inj {sep : CodePoint} {k k' t t' : Text} (ht : sep ∉ t) (ht' : sep ∉ t')
    (h : k ++ sep :: t = k' ++ sep :: t') : k = k' ∧ t = t' := by
  obtain ⟨a, rfl, ha⟩ | ⟨a, rfl, ha⟩ := List.append_eq_append_iff.1 h
  all_goals
    cases a with
    | nil =>
      obtain ⟨-, rfl⟩ := List.cons.inj ha
      exact ⟨by simp, rfl⟩
    | cons c a =>
      obtain ⟨-, rfl⟩ := List.cons.inj ha
      simp at ht ht'

theorem intText_spec (n : ℤ) : ∃ digits, Json.intText n = (if n < 0 then [Json.ch '-'] else []) ++ digits ∧
    (∀ c ∈ digits, Json.isDigit c) ∧ Json.natValue digits = n.natAbs := by
  obtain ⟨-, hdigits, hvalue, -⟩ := Json.natText_spec (Nat.lt_succ_self n.natAbs)
  exact ⟨_, rfl, hdigits, hvalue⟩

theorem colon_notMem_intText (n : ℤ) : Json.ch ':' ∉ Json.intText n := by
  obtain ⟨digits, heq, hdigits, -⟩ := intText_spec n
  rw [heq, List.mem_append]
  rintro (hsign | hdigit)
  · split_ifs at hsign
    · exact absurd (List.mem_singleton.1 hsign) (by decide)
    · cases hsign
  · exact absurd (hdigits _ hdigit) (by decide)

theorem intText_injective : Function.Injective Json.intText := by
  intro m n h
  obtain ⟨ds, hm, hds, hvm⟩ := intText_spec m
  obtain ⟨es, hn, hes, hvn⟩ := intText_spec n
  rw [hm, hn] at h
  have hminus : ∀ l : Text, (∀ c ∈ l, Json.isDigit c) → ∀ l', l ≠ Json.ch '-' :: l' := by
    rintro l hl l' rfl
    exact absurd (hl _ List.mem_cons_self) (by decide)
  split_ifs at h with hmneg hnneg hnneg
  · rw [List.append_cancel_left h, hvn] at hvm
    omega
  · exact absurd h.symm (hminus es hes ds)
  · exact absurd h (hminus ds hds es)
  · rw [List.nil_append, List.nil_append] at h
    rw [h, hvn] at hvm
    omega

theorem bucketKey_inj {lower : Text → Text} {redisKeyPrefix k k' : Text} {b b' : ℤ} (hk : lower k = k)
    (hk' : lower k' = k') (h : bucketKey lower redisKeyPrefix k b = bucketKey lower redisKeyPrefix k' b') :
    k = k' ∧ b = b' := by
  unfold bucketKey at h
  rw [hk, hk'] at h
  simp only [List.append_assoc, List.append_cancel_left_eq] at h
  obtain ⟨rfl, htext⟩ := append_sep_inj (colon_notMem_intText b) (colon_notMem_intText b') h
  exact ⟨rfl, intText_injective htext⟩

/-! ## Redis and all calls -/

section
variable {r : RateLimiter} {lower : Text → Text} {redisKeyPrefix key k : Text} {before calls : List RateCall}
variable {c : RateCall} {now : ℚ≥0} {b : ℤ}

/-- The calls in a bucket. -/
def RateLimiter.inBucket (r : RateLimiter) (key : Text) (calls : List RateCall) (b : ℤ) : ℕ :=
  (callsFor key calls).countP fun c => r.currentBucket c.time = b

theorem callsFor_snoc : callsFor key (before ++ [c]) = callsFor key before ++ if c.counts key then [c] else [] := by
  rw [callsFor, List.filter_append, List.filter_singleton, callsFor]
  cases c.counts key <;> rfl

theorem counts_iff : c.counts key ↔ c.method = .isLimited ∧ c.key = key := by
  simp [RateCall.counts]

theorem inBucket_snoc : r.inBucket key (before ++ [c]) b =
    r.inBucket key before b + if c.counts key ∧ r.currentBucket c.time = b then 1 else 0 := by
  rw [RateLimiter.inBucket, callsFor_snoc, List.countP_append, RateLimiter.inBucket]
  by_cases hcounts : c.counts key <;> by_cases hb : r.currentBucket c.time = b <;> simp [hcounts, hb]

/-- Every bucket that has been counted is a key of Redis, which does not expire while the bucket is counted. -/
def RedisHolds (lower : Text → Text) (redisKeyPrefix : Text) (r : RateLimiter) (calls : List RateCall)
    (store : RedisStore) : Prop :=
  ∀ key b, lower key = key →
    (r.inBucket key calls b = 0 → store.get (bucketKey lower redisKeyPrefix key b) = none) ∧
    (r.inBucket key calls b ≠ 0 → ∃ e, store.get (bucketKey lower redisKeyPrefix key b) =
      some ⟨r.inBucket key calls b, some e⟩ ∧ ∀ t, r.currentBucket t ≤ b + r.numBuckets → t < e)

theorem sum_filterMap {α : Type} {f : α → Option ℕ} {g : α → ℕ} {l : List α} (h : ∀ a ∈ l, (f a).getD 0 = g a) :
    (l.filterMap f).sum = (l.map g).sum := by
  induction l with
  | nil => rfl
  | cons a l ih =>
    have ha := h a List.mem_cons_self
    have hrest := ih fun b hb => h b (List.mem_cons_of_mem a hb)
    rw [List.map_cons, List.sum_cons, ← hrest, ← ha, List.filterMap_cons]
    cases f a <;> simp

theorem RedisHolds.live {store : RedisStore} (h : RedisHolds lower redisKeyPrefix r calls store)
    (hkey : lower key = key) (hb : r.currentBucket now ≤ b + r.numBuckets) :
    ((store.live now (bucketKey lower redisKeyPrefix key b)).map RedisValue.value).getD 0 = r.inBucket key calls b := by
  obtain ⟨hzero, hsome⟩ := h key b hkey
  by_cases hcount : r.inBucket key calls b = 0
  · rw [RedisStore.live, hzero hcount, hcount]
    rfl
  · obtain ⟨e, hget, hlater⟩ := hsome hcount
    rw [RedisStore.live, hget, Option.filter_some, if_pos (by simpa using hlater now hb)]
    rfl

/-- **What Redis counts is what has been called.** -/
theorem RedisHolds.sum_eq {store : RedisStore} (h : RedisHolds lower redisKeyPrefix r calls store)
    (hkey : lower key = key) (htimes : ∀ c ∈ calls, c.time ≤ now) :
    store.sum now (bucketKeys lower redisKeyPrefix r key (r.currentBucket now)) = r.seen calls now key := by
  have hmap : store.sum now (bucketKeys lower redisKeyPrefix r key (r.currentBucket now)) =
      (((List.range (r.numBuckets + 1)).map fun i : ℕ => r.currentBucket now - i).map
        (r.inBucket key calls)).sum := by
    rw [RedisStore.sum, bucketKeys, List.filterMap_map, List.map_map]
    refine sum_filterMap fun i hi => ?_
    rw [List.mem_range] at hi
    exact h.live hkey (by omega)
  have hnodup : ((List.range (r.numBuckets + 1)).map fun i : ℕ => r.currentBucket now - i).Nodup := by
    refine List.nodup_range.map fun i j hij => ?_
    have hij : r.currentBucket now - (i : ℤ) = r.currentBucket now - (j : ℤ) := hij
    omega
  rw [hmap]
  refine (sum_count_keys hnodup).trans (List.countP_congr fun c hc => ?_)
  have hle := currentBucket_mono (r := r) (htimes c (List.mem_of_mem_filter hc))
  simp only [RateLimiter.recent, decide_eq_true_eq, List.mem_map, List.mem_range]
  constructor
  · rintro ⟨i, hi, heq⟩
    omega
  · intro hrecent
    exact ⟨(r.currentBucket now - r.currentBucket c.time).toNat, by omega, by omega⟩

theorem RedisHolds.count {store : RedisStore} (h : RedisHolds lower redisKeyPrefix r before store)
    (hpos : 0 < r.bucketSize) (hdvd : r.bucketSize ∣ r.window) (hkey : lower c.key = c.key)
    (hmethod : c.method = .isLimited) :
    RedisHolds lower redisKeyPrefix r (before ++ [c])
      (isLimitedRedis lower redisKeyPrefix r store c.time c.key).2 := by
  set nowBucket := r.currentBucket c.time with hnow
  set k := bucketKey lower redisKeyPrefix c.key nowBucket with hk
  have hcounts : c.counts c.key := counts_iff.2 ⟨hmethod, rfl⟩
  obtain ⟨hzero, hsome⟩ := h c.key nowBucket hkey
  -- what is stored under the key of the bucket, and that nothing else changes
  have hstore : ∃ e, (isLimitedRedis lower redisKeyPrefix r store c.time c.key).2 =
      store.set k ⟨r.inBucket c.key before nowBucket + 1, some e⟩ ∧
        ∀ t, r.currentBucket t ≤ nowBucket + r.numBuckets → t < e := by
    unfold isLimitedRedis RedisStore.incr
    dsimp only
    rw [← hnow, ← hk]
    by_cases hcount : r.inBucket c.key before nowBucket = 0
    · have hlive : store.live c.time k = none := by
        rw [RedisStore.live, hzero hcount]
        rfl
      refine ⟨c.time + (r.window + r.bucketSize : ℕ), ?_, fun t ht => lt_expiry hpos hdvd ht⟩
      rw [hlive, Option.getD_none, if_pos rfl, RedisStore.expire, RedisStore.live, Dict.get_set_self,
        Option.filter_some, if_pos (by rfl), hcount]
      dsimp only
      rw [Dict.set_set]
    · obtain ⟨e, hget, hlater⟩ := hsome hcount
      have hlive : store.live c.time k = some ⟨r.inBucket c.key before nowBucket, some e⟩ := by
        have hlt := hlater c.time (by omega)
        rw [RedisStore.live, hget, Option.filter_some, if_pos (by simpa using hlt)]
      refine ⟨e, ?_, hlater⟩
      rw [hlive, Option.getD_some, if_neg (by simpa using hcount)]
  obtain ⟨e, hstore, hlater⟩ := hstore
  rw [hstore]
  intro key b hlower
  rw [inBucket_snoc, Dict.get_set]
  by_cases hsame : bucketKey lower redisKeyPrefix key b = k
  · obtain ⟨rfl, rfl⟩ := bucketKey_inj hlower hkey hsame
    rw [if_pos ⟨hcounts, rfl⟩, if_pos hsame]
    exact ⟨by simp, fun _ => ⟨e, rfl, hlater⟩⟩
  · have hnot : ¬(c.counts key ∧ r.currentBucket c.time = b) := by
      rintro ⟨hckey, rfl⟩
      obtain ⟨-, rfl⟩ := counts_iff.1 hckey
      exact hsame rfl
    rw [if_neg hnot, if_neg hsame, Nat.add_zero]
    exact h key b hlower

theorem redisStep_spec {store : RedisStore} (henabled : r.enabled)
    (h : RedisHolds lower redisKeyPrefix r before store) (hpos : 0 < r.bucketSize) (hdvd : r.bucketSize ∣ r.window)
    (hkey : lower c.key = c.key) (htimes : ∀ c' ∈ before ++ [c], c'.time ≤ c.time) :
    (redisStep lower redisKeyPrefix r store c).1 = r.answer before c ∧
      RedisHolds lower redisKeyPrefix r (before ++ [c]) (redisStep lower redisKeyPrefix r store c).2 := by
  unfold redisStep RateLimiter.answer
  cases hmethod : c.method with
  | isLimited =>
    have hcount := h.count hpos hdvd hkey hmethod
    have hsum := hcount.sum_eq hkey htimes
    dsimp only
    rw [if_pos henabled]
    refine ⟨?_, hcount⟩
    rw [← hsum]
    rfl
  | getCount =>
    have hcounts : ∀ key, c.counts key = false := by
      intro key
      simp [RateCall.counts, hmethod]
    have hsame : ∀ key, callsFor key (before ++ [c]) = callsFor key before := by
      intro key
      rw [callsFor_snoc, hcounts, if_neg Bool.false_ne_true, List.append_nil]
    have hnext : RedisHolds lower redisKeyPrefix r (before ++ [c]) store := by
      intro key b hlower
      rw [RateLimiter.inBucket, hsame]
      exact h key b hlower
    dsimp only
    rw [if_pos henabled, getCountRedis, hnext.sum_eq hkey htimes]
    exact ⟨rfl, hnext⟩

end

/-! ## Memory and all calls -/

section
variable {r : RateLimiter} {key : Text} {before calls : List RateCall} {c : RateCall} {now : ℚ≥0}

/-- The buckets of a key have right counts, and those that are counted are there. -/
structure BucketsHold (r : RateLimiter) (key : Text) (calls : List RateCall) (now : ℚ≥0) (store : Dict ℤ ℕ) :
    Prop where
  counts : ∀ b n, store.get b = some n → n = r.inBucket key calls b
  recent : ∀ c ∈ callsFor key calls, r.recent now c → (store.get (r.currentBucket c.time)).isSome

/-- What memory holds at a time; a key that it does not hold has not been counted. -/
structure MemoryHolds (r : RateLimiter) (calls : List RateCall) (now : ℚ≥0) (memory : MemoryStore) : Prop where
  absent : ∀ key, memory.get key = none → callsFor key calls = []
  present : ∀ key store, memory.get key = some store → BucketsHold r key calls now store

theorem recent_mono {now' : ℚ≥0} (h : now ≤ now') (hrecent : r.recent now' c) : r.recent now c := by
  have hle := currentBucket_mono (r := r) h
  simp only [RateLimiter.recent, decide_eq_true_eq] at hrecent ⊢
  omega

theorem BucketsHold.later {now' : ℚ≥0} {store : Dict ℤ ℕ} (h : BucketsHold r key calls now store) (hle : now ≤ now') :
    BucketsHold r key calls now' store :=
  ⟨h.counts, fun c hc hrecent => h.recent c hc (recent_mono hle hrecent)⟩

theorem get_dropExpired {minBucket b : ℤ} {store : Dict ℤ ℕ} :
    (dropExpired minBucket store).get b = if minBucket ≤ b then store.get b else none := by
  ext n
  rw [dropExpired, Dict.get_filter]
  by_cases hb : minBucket ≤ b <;> simp [hb]

theorem BucketsHold.dropExpired {store : Dict ℤ ℕ} (h : BucketsHold r key calls now store) :
    BucketsHold r key calls now (dropExpired (r.currentBucket now - r.numBuckets) store) := by
  refine ⟨fun b n hn => ?_, fun c hc hrecent => ?_⟩
  · rw [get_dropExpired] at hn
    split_ifs at hn
    exact h.counts b n hn
  · rw [get_dropExpired, if_pos (by simpa [RateLimiter.recent] using hrecent)]
    exact h.recent c hc hrecent

/-- **The sum of what is left is what has been called.** -/
theorem BucketsHold.sum_eq {store : Dict ℤ ℕ} (h : BucketsHold r key calls now store) :
    sumValues (TideBot.dropExpired (r.currentBucket now - r.numBuckets) store) = r.seen calls now key := by
  refine sum_counts (fun c : RateCall => r.currentBucket c.time) h.dropExpired.counts fun c hc => ?_
  constructor
  · exact h.dropExpired.recent c hc
  · intro hsome
    rw [get_dropExpired] at hsome
    split_ifs at hsome with hrecent
    · simpa [RateLimiter.recent] using hrecent
    · cases hsome

theorem BucketsHold.count {store : Dict ℤ ℕ} (h : BucketsHold r key before c.time store) (hcounts : c.counts key) :
    BucketsHold r key (before ++ [c]) c.time
      (store.set (r.currentBucket c.time) ((store.get (r.currentBucket c.time)).getD 0 + 1)) := by
  -- what is in the current bucket is counted
  have hcurrent : (store.get (r.currentBucket c.time)).getD 0 = r.inBucket key before (r.currentBucket c.time) := by
    cases hget : store.get (r.currentBucket c.time) with
    | some n => exact h.counts _ n hget
    | none =>
      rw [Option.getD_none, eq_comm, RateLimiter.inBucket, List.countP_eq_zero]
      intro c' hc' hbucket
      have hbucket : r.currentBucket c'.time = r.currentBucket c.time := by simpa using hbucket
      have hsome := h.recent c' hc' (by simp [RateLimiter.recent, hbucket])
      rw [hbucket, hget] at hsome
      cases hsome
  refine ⟨fun b n hn => ?_, fun c' hc' hrecent => ?_⟩
  · rw [Dict.get_set] at hn
    rw [inBucket_snoc]
    split_ifs at hn with hb
    · obtain rfl := Option.some.inj hn
      rw [hcurrent, hb, if_pos ⟨hcounts, rfl⟩]
    · rw [if_neg fun heq => hb heq.2.symm, Nat.add_zero]
      exact h.counts b n hn
  · rw [Dict.get_set]
    split_ifs with hb
    · rfl
    · rw [callsFor_snoc, if_pos hcounts] at hc'
      obtain hc' | hc' := List.mem_append.1 hc'
      · exact h.recent c' hc' hrecent
      · rw [List.mem_singleton.1 hc'] at hb
        exact absurd rfl hb

theorem BucketsHold.start (hnone : callsFor key calls = []) : BucketsHold r key calls now .empty := by
  refine ⟨fun b n hn => ?_, fun c hc => ?_⟩
  · cases hn
  · rw [hnone] at hc
    cases hc

theorem callsFor_snoc_of_not (hcounts : ¬c.counts key) : callsFor key (before ++ [c]) = callsFor key before := by
  rw [callsFor_snoc, if_neg hcounts, List.append_nil]

theorem BucketsHold.other {store : Dict ℤ ℕ} (h : BucketsHold r key before now store) (hcounts : ¬c.counts key) :
    BucketsHold r key (before ++ [c]) now store := by
  refine ⟨fun b n hn => ?_, fun c' hc' hrecent => ?_⟩
  · rw [RateLimiter.inBucket, callsFor_snoc_of_not hcounts]
    exact h.counts b n hn
  · rw [callsFor_snoc_of_not hcounts] at hc'
    exact h.recent c' hc' hrecent

theorem memoryStep_spec {memory : MemoryStore} (henabled : r.enabled) (h : MemoryHolds r before now memory)
    (hle : now ≤ c.time) : (memoryStep r memory c).1 = r.answer before c ∧
      MemoryHolds r (before ++ [c]) c.time (memoryStep r memory c).2 := by
  have hpresent : ∀ key store, memory.get key = some store → BucketsHold r key before c.time store :=
    fun key store hget => (h.present key store hget).later hle
  unfold memoryStep RateLimiter.answer
  cases hmethod : c.method with
  | isLimited =>
    have hcounts : c.counts c.key := counts_iff.2 ⟨hmethod, rfl⟩
    have hbuckets : BucketsHold r c.key before c.time ((memory.get c.key).getD .empty) := by
      cases hget : memory.get c.key with
      | none => exact BucketsHold.start (h.absent c.key hget)
      | some store => exact hpresent c.key store hget
    dsimp only
    rw [if_pos henabled]
    refine ⟨?_, fun key hget => ?_, fun key store hget => ?_⟩
    · rw [← (hbuckets.count hcounts).sum_eq]
      rfl
    all_goals
      rw [isLimitedMemory, Dict.get_set] at hget
      split_ifs at hget with hkey
    · rw [callsFor_snoc_of_not fun hc => hkey (counts_iff.1 hc).2.symm]
      exact h.absent key hget
    · obtain rfl := Option.some.inj hget
      subst hkey
      exact (hbuckets.count hcounts).dropExpired
    · exact (hpresent key store hget).other fun hc => hkey (counts_iff.1 hc).2.symm
  | getCount =>
    have hcounts : ∀ key, ¬c.counts key := fun key hc => by simp [counts_iff, hmethod] at hc
    have hseen : r.seen (before ++ [c]) c.time c.key = r.seen before c.time c.key := by
      rw [RateLimiter.seen, callsFor_snoc_of_not (hcounts _), RateLimiter.seen]
    dsimp only
    rw [if_pos henabled, getCountMemory, hseen]
    cases hget : memory.get c.key with
    | none =>
      refine ⟨?_, fun key hkey => ?_, fun key store hkey => (hpresent key store hkey).other (hcounts key)⟩
      · rw [RateLimiter.seen, h.absent c.key hget]
        rfl
      · rw [callsFor_snoc_of_not (hcounts key)]
        exact h.absent key hkey
    | some store =>
      have hstore := hpresent c.key store hget
      refine ⟨?_, fun key hkey => ?_, fun key store' hkey => ?_⟩
      · exact congrArg RateAnswer.count hstore.sum_eq
      all_goals
        dsimp only at hkey
        rw [Dict.get_set] at hkey
        split_ifs at hkey with heq
      · rw [callsFor_snoc_of_not (hcounts key)]
        exact h.absent key hkey
      · obtain rfl := Option.some.inj hkey
        subst heq
        exact hstore.dropExpired.other (hcounts _)
      · exact (hpresent key store' hkey).other (hcounts key)

end

/-! ## Sequences of calls -/

section
variable {r : RateLimiter} {lower : Text → Text} {redisKeyPrefix : Text} {before calls : List RateCall}

/-- **Redis answers from all calls.** -/
theorem redisAnswers_eq {store : RedisStore} (henabled : r.enabled) (hpos : 0 < r.bucketSize)
    (hdvd : r.bucketSize ∣ r.window) (hlower : ∀ c ∈ calls, lower c.key = c.key)
    (htimes : (before ++ calls).Pairwise fun c c' => c.time ≤ c'.time)
    (h : RedisHolds lower redisKeyPrefix r before store) :
    answersOf (redisStep lower redisKeyPrefix r) store calls = rateAnswers r before calls := by
  induction calls generalizing before store with
  | nil => rfl
  | cons c calls ih =>
    have hnow : ∀ c' ∈ before ++ [c], c'.time ≤ c.time := by
      intro c' hc'
      obtain hc' | hc' := List.mem_append.1 hc'
      · exact (List.pairwise_append.1 htimes).2.2 c' hc' c List.mem_cons_self
      · rw [List.mem_singleton.1 hc']
    obtain ⟨hanswer, hnext⟩ := redisStep_spec henabled h hpos hdvd (hlower c List.mem_cons_self) hnow
    rw [answersOf, rateAnswers, hanswer]
    congr 1
    refine ih (fun c' hc' => hlower c' (List.mem_cons_of_mem c hc')) ?_ hnext
    rwa [List.append_assoc, List.singleton_append]

/-- **So does memory.** -/
theorem memoryAnswers_eq {memory : MemoryStore} {now : ℚ≥0} (henabled : r.enabled)
    (htimes : calls.Pairwise fun c c' => c.time ≤ c'.time) (hnow : ∀ c ∈ calls, now ≤ c.time)
    (h : MemoryHolds r before now memory) : answersOf (memoryStep r) memory calls = rateAnswers r before calls := by
  induction calls generalizing before now memory with
  | nil => rfl
  | cons c calls ih =>
    obtain ⟨hlater, htimes⟩ := List.pairwise_cons.1 htimes
    obtain ⟨hanswer, hnext⟩ := memoryStep_spec henabled h (hnow c List.mem_cons_self)
    rw [answersOf, rateAnswers, hanswer, ih htimes hlater hnext]

theorem answersOf_disabled {σ : Type} {step : σ → RateCall → RateAnswer × σ} {answer : RateCall → RateAnswer}
    (hstep : ∀ s c, step s c = (answer c, s)) (s : σ) : answersOf step s calls = calls.map answer := by
  induction calls with
  | nil => rfl
  | cons c calls ih => rw [answersOf, hstep, ih, List.map_cons]

theorem answer_of_split {pre post : List (RateCall × RateAnswer)} {c : RateCall} {a : RateAnswer}
    (h : calls.zip (rateAnswers r before calls) = pre ++ (c, a) :: post) :
    a = r.answer (before ++ pre.map Prod.fst) c := by
  induction calls generalizing before pre with
  | nil =>
    rw [List.zip_nil_left] at h
    exact absurd h.symm (by simp)
  | cons c' calls ih =>
    rw [rateAnswers, List.zip_cons_cons] at h
    cases pre with
    | nil =>
      obtain ⟨heq, -⟩ := List.cons.inj h
      obtain ⟨rfl, rfl⟩ := Prod.mk.inj heq
      rw [List.map_nil, List.append_nil]
    | cons e pre =>
      obtain ⟨rfl, hrest⟩ := List.cons.inj h
      rw [ih hrest, List.map_cons, List.append_assoc, List.singleton_append]

theorem seen_lt_limit {c : RateCall} (h : r.answer before c = .limited false) :
    r.seen before c.time c.key < r.limit.toNat := by
  unfold RateLimiter.answer at h
  cases hmethod : c.method with
  | isLimited =>
    rw [hmethod] at h
    have hle : ¬r.limit < (r.seen (before ++ [c]) c.time c.key : ℕ) := by
      simpa using h
    have hself : r.recent c.time c := by simp [RateLimiter.recent]
    rw [RateLimiter.seen, callsFor_snoc, if_pos (counts_iff.2 ⟨hmethod, rfl⟩), List.countP_append,
      List.countP_singleton, if_pos hself] at hle
    rw [RateLimiter.seen]
    omega
  | getCount =>
    rw [hmethod] at h
    cases h

/-- **No window lets more calls through than the limit.** -/
theorem rateAnswers_limit (hpos : 0 < r.bucketSize) (hdvd : r.bucketSize ∣ r.window) (key : Text) (start : ℚ≥0) :
    ((calls.zip (rateAnswers r [] calls)).countP fun e => e.1.counts key && start ≤ e.1.time &&
      e.1.time < start + r.window && e.2 = .limited false) ≤ r.limit.toNat := by
  let p : RateCall → Bool := fun c => c.counts key && start ≤ c.time && c.time < start + r.window
  let recent : RateCall → RateCall → Bool := fun c c' => c'.counts c.key && r.recent c.time c'
  let verdicts := (calls.zip (rateAnswers r [] calls)).map fun e => (e.1, decide (e.2 = .limited false))
  have hrecent : ∀ c c', p c → p c' → recent c c' := by
    intro c c' hc hc'
    simp only [p, Bool.and_eq_true, decide_eq_true_eq] at hc hc'
    obtain ⟨⟨hcounts, -⟩, hend⟩ := hc
    obtain ⟨⟨hcounts', hstart⟩, -⟩ := hc'
    have hkey : c.key = key := (counts_iff.1 hcounts).2
    have hwindow : c.time < c'.time + r.window := hend.trans_le (by gcongr)
    have hle := currentBucket_le_of_lt hpos hdvd hwindow
    simp only [recent, Bool.and_eq_true, RateLimiter.recent, decide_eq_true_eq]
    exact ⟨hkey ▸ hcounts', by omega⟩
  have hlimit : ∀ pre c post, verdicts = pre ++ (c, true) :: post →
      (pre.countP fun e => recent c e.1) < r.limit.toNat := by
    intro pre c post heq
    obtain ⟨pre', rest, hsplit, rfl, hrest⟩ := List.map_eq_append_iff.1 heq
    obtain ⟨⟨c', a⟩, post', rfl, he, -⟩ := List.map_eq_cons_iff.1 hrest
    obtain ⟨rfl, ha⟩ := Prod.mk.inj he
    have hanswer := answer_of_split hsplit
    obtain rfl : a = .limited false := of_decide_eq_true ha
    rw [List.nil_append] at hanswer
    have hlt := seen_lt_limit hanswer.symm
    rw [RateLimiter.seen, callsFor, List.countP_filter, List.countP_map] at hlt
    rw [List.countP_map]
    refine (List.countP_congr fun e _ => ?_).trans_lt hlt
    simp only [recent, Function.comp_apply, Bool.and_eq_true]
    exact and_comm
  have hle := countP_admitted_le hlimit hrecent
  rw [List.countP_map] at hle
  refine (List.countP_congr fun e _ => ?_).trans_le hle
  simp only [p, Function.comp_apply]

/-- **With and without Redis, the limiter gives the same answers**, and lets no more calls through than the limit in
    any window. -/
theorem rateLimiter_same (r : RateLimiter) (lower : Text → Text) (redisKeyPrefix : Text) (calls : List RateCall)
    (hpos : 0 < r.bucketSize) (hdvd : r.bucketSize ∣ r.window) (hlower : ∀ c ∈ calls, lower c.key = c.key)
    (htimes : calls.Pairwise fun c c' => c.time ≤ c'.time) :
    answersOf (redisStep lower redisKeyPrefix r) .empty calls = answersOf (memoryStep r) .empty calls ∧
      (r.enabled → ∀ (key : Text) (start : ℚ≥0),
        (((calls.zip (answersOf (redisStep lower redisKeyPrefix r) .empty calls)).countP fun e =>
          e.1.counts key && start ≤ e.1.time && e.1.time < start + r.window && e.2 = .limited false : ℕ) : ℤ) ≤
            max 0 r.limit) := by
  by_cases henabled : r.enabled
  · have hredis : answersOf (redisStep lower redisKeyPrefix r) .empty calls = rateAnswers r [] calls := by
      refine redisAnswers_eq henabled hpos hdvd hlower htimes fun key b _ => ?_
      exact ⟨fun _ => rfl, fun hne => absurd rfl hne⟩
    have hmemory : answersOf (memoryStep r) .empty calls = rateAnswers r [] calls := by
      refine memoryAnswers_eq henabled htimes (fun c _ => zero_le) ⟨fun _ _ => rfl, fun key store hget => ?_⟩
      cases hget
    rw [hredis, hmemory]
    refine ⟨rfl, fun _ key start => ?_⟩
    have hle := @rateAnswers_limit _ calls hpos hdvd key start
    omega
  · refine ⟨?_, fun h => absurd h henabled⟩
    let answer : RateCall → RateAnswer := fun c =>
      match c.method with
      | .isLimited => .limited false
      | .getCount => .count 0
    have hredis : ∀ s c, redisStep lower redisKeyPrefix r s c = (answer c, s) := by
      intro s c
      unfold redisStep
      cases hmethod : c.method <;> simp [answer, hmethod, henabled]
    have hmemory : ∀ s c, memoryStep r s c = (answer c, s) := by
      intro s c
      unfold memoryStep
      cases hmethod : c.method <;> simp [answer, hmethod, henabled]
    rw [answersOf_disabled hredis, answersOf_disabled hmemory]

end

/-! ## An example -/

namespace Sample

def twoLogins : RateLimiter := ⟨2, 120, 60, true⟩

def loginCalls : List RateCall :=
  [⟨0, .isLimited, .lit "a"⟩, ⟨59, .isLimited, .lit "a"⟩, ⟨61, .isLimited, .lit "a"⟩, ⟨200, .getCount, .lit "a"⟩]

end Sample

/-- The third call is too many; its bucket is still counted at the end, and the first one is not. -/
theorem rateLimiter_same_logins :
    (answersOf (redisStep id (.lit "open-webui") Sample.twoLogins) .empty Sample.loginCalls =
      answersOf (memoryStep Sample.twoLogins) .empty Sample.loginCalls ∧
      (Sample.twoLogins.enabled → ∀ (key : Text) (start : ℚ≥0),
        (((Sample.loginCalls.zip
            (answersOf (redisStep id (.lit "open-webui") Sample.twoLogins) .empty Sample.loginCalls)).countP fun e =>
          e.1.counts key && start ≤ e.1.time && e.1.time < start + Sample.twoLogins.window &&
            e.2 = .limited false : ℕ) : ℤ) ≤ max 0 Sample.twoLogins.limit)) ∧
    answersOf (memoryStep Sample.twoLogins) .empty Sample.loginCalls =
      [.limited false, .limited false, .limited true, .count 1] :=
  ⟨rateLimiter_same Sample.twoLogins id (.lit "open-webui") Sample.loginCalls (by decide) (by decide)
    (fun _ _ => rfl) (by norm_num [Sample.loginCalls]), by decide +kernel⟩

end TideBot
