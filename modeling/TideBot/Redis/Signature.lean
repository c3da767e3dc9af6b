/-
  Dictionaries in Redis that remember what they were last set to (`socket/utils.py`, `RedisDict` with
  `cache_set_signature`).

  Beside the hash there is a signature of the mapping of the last `set`; a `set` of a mapping with this
  signature writes nothing.  A `set` writes the hash with two commands and the signature with a third; the
  other writers change the hash with one command and delete the signature with the next.

  A step is one Redis command, of any number of workers.  Values are serialized; `signature` stands for
  SHA-256 of the sorted mapping.
-/
import TideBot.Lib.Dict
import TideBot.Lib.Machine

namespace TideBot

open Lib

section
variable {κ ν σ : Type*} [DecidableEq κ] [DecidableEq σ]

/-- Where a call goes on. -/
inductive RedisDictCall (κ ν : Type*) [DecidableEq κ] where
  /-- `set`, with `HKEYS` -/
  | hkeys (mapping : Dict κ ν)
  /-- `set`, with `HSET` -/
  | hset (mapping : Dict κ ν) (keysToRemove : List κ)
  /-- `set`, with `HDEL` -/
  | hdel (mapping : Dict κ ν) (keysToRemove : List κ)
  /-- `set`, with `SET` of the signature -/
  | setSignature (mapping : Dict κ ν)
  /-- `__setitem__`, `__delitem__` and `clear`, with `DEL` of the signature -/
  | deleteSignature

/-- The hash, the signature, and the calls under way. -/
structure RedisDict (κ ν σ : Type*) [DecidableEq κ] where
  hash : Dict κ ν
  signature : Option σ
  calls : Dict ℕ (RedisDictCall κ ν)

inductive RedisDictStep (κ ν : Type*) [DecidableEq κ] where
  /-- `set`: `GET` of the signature, or the first command of `clear` -/
  | set (call : ℕ) (mapping : Dict κ ν)
  /-- `__setitem__`: `HSET` -/
  | setItem (call : ℕ) (key : κ) (value : ν)
  /-- `__delitem__`: `HDEL` -/
  | delItem (call : ℕ) (key : κ)
  /-- `clear`: `DEL` of the hash -/
  | clear (call : ℕ)
  /-- The next command of a call. -/
  | resume (call : ℕ)

inductive RedisDictResult where
  | none
  /-- The call has returned. -/
  | returned
  /-- `set` has returned early. -/
  | unchanged
  | keyError
deriving DecidableEq

/-- The keys that a `set` removes, of those that it finds. -/
def keysToRemove (existingKeys : List κ) (mapping : Dict κ ν) : List κ :=
  existingKeys.filter fun k => k ∉ mapping.keys

namespace RedisDict

variable (signature : Dict κ ν → σ) (s : RedisDict κ ν σ)

/-- A call waits for its next command. -/
def await (call : ℕ) (c : RedisDictCall κ ν) : RedisDict κ ν σ := { s with calls := s.calls.set call c }

def finish (call : ℕ) : RedisDict κ ν σ := { s with calls := s.calls.erase call }

/-- `clear` -/
def clear (call : ℕ) : RedisDict κ ν σ × RedisDictResult :=
  ({ s with hash := .empty }.await call .deleteSignature, .none)

/-- `set` -/
def set (call : ℕ) (mapping : Dict κ ν) : RedisDict κ ν σ × RedisDictResult :=
  if mapping.entries = [] then s.clear call
  else if s.signature = some (signature mapping) then (s, .unchanged)
  else (s.await call (.hkeys mapping), .none)

/-- `__setitem__` -/
def setItem (call : ℕ) (key : κ) (value : ν) : RedisDict κ ν σ × RedisDictResult :=
  ({ s with hash := s.hash.set key value }.await call .deleteSignature, .none)

/-- `__delitem__` -/
def delItem (call : ℕ) (key : κ) : RedisDict κ ν σ × RedisDictResult :=
  if (s.hash.get key).isNone then (s, .keyError)
  else ({ s with hash := s.hash.erase key }.await call .deleteSignature, .none)

/-- The next command of a call. -/
def resume (call : ℕ) : RedisDictCall κ ν → RedisDict κ ν σ × RedisDictResult
  | .hkeys mapping => (s.await call (.hset mapping (keysToRemove s.hash.keys mapping)), .none)
  | .hset mapping keysToRemove =>
    let s := { s with hash := s.hash.update mapping }
    if keysToRemove = [] then (s.await call (.setSignature mapping), .none)
    else (s.await call (.hdel mapping keysToRemove), .none)
  | .hdel mapping keysToRemove =>
    ({ s with hash := keysToRemove.foldl Dict.erase s.hash }.await call (.setSignature mapping), .none)
  | .setSignature mapping => ({ s with signature := some (signature mapping) }.finish call, .returned)
  | .deleteSignature => ({ s with signature := none }.finish call, .returned)

end RedisDict

/-- A `RedisDict` with a cached signature, and any number of workers. -/
def redisDictMachine (signature : Dict κ ν → σ) :
    Machine (RedisDict κ ν σ) (RedisDictStep κ ν) RedisDictResult where
  step s
    | .set call mapping => if (s.calls.get call).isSome then none else some (s.set signature call mapping)
    | .setItem call key value => if (s.calls.get call).isSome then none else some (s.setItem call key value)
    | .delItem call key => if (s.calls.get call).isSome then none else some (s.delItem call key)
    | .clear call => if (s.calls.get call).isSome then none else some (s.clear call)
    | .resume call => (s.calls.get call).map (s.resume signature call)

/-- The mapping that a call is about to sign. -/
def RedisDictCall.signing : RedisDictCall κ ν → Option (Dict κ ν)
  | .setSignature mapping => some mapping
  | .hkeys _ | .hset .. | .hdel .. | .deleteSignature => none

/-- A hash holds exactly a mapping. -/
def HashHolds (hash mapping : Dict κ ν) : Prop := ∀ k, hash.get k = mapping.get k

theorem hashHolds_iff [DecidableEq ν] {hash mapping : Dict κ ν} :
    HashHolds hash mapping ↔ ∀ k ∈ hash.keys ++ mapping.keys, hash.get k = mapping.get k := by
  refine ⟨fun h k _ => h k, fun h k => ?_⟩
  by_cases hk : k ∈ hash.keys ++ mapping.keys
  · exact h k hk
  · rw [List.mem_append, not_or] at hk
    rw [Dict.get_eq_none_iff.2 hk.1, Dict.get_eq_none_iff.2 hk.2]

instance [DecidableEq ν] (hash mapping : Dict κ ν) : Decidable (HashHolds hash mapping) :=
  decidable_of_iff _ hashHolds_iff.symm

/-- **The condition on a step**: when a signature is stored, the hash holds the mapping that it is of. -/
def SignatureFits (s : RedisDict κ ν σ) : RedisDictStep κ ν → Prop
  | .set .. | .setItem .. | .delItem .. | .clear _ => True
  | .resume call => ∀ mapping ∈ (s.calls.get call).bind RedisDictCall.signing, HashHolds s.hash mapping

instance [DecidableEq ν] (s : RedisDict κ ν σ) : (i : RedisDictStep κ ν) → Decidable (SignatureFits s i)
  | .set .. | .setItem .. | .delItem .. | .clear _ => inferInstanceAs (Decidable True)
  | .resume _ => inferInstanceAs (Decidable (∀ _ ∈ _, _))

/-! ## A set alone -/

variable {signature : Dict κ ν → σ}

/-- **What a `set` writes is the mapping**, if the keys that it removes are those of the hash that it writes to. -/
theorem hashHolds_replaced (hash mapping : Dict κ ν) :
    HashHolds ((keysToRemove hash.keys mapping).foldl Dict.erase (hash.update mapping)) mapping := by
  intro k
  have hmem : k ∈ keysToRemove hash.keys mapping ↔ k ∈ hash.keys ∧ k ∉ mapping.keys := by
    rw [keysToRemove, List.mem_filter, decide_eq_true_eq]
  rw [Dict.get_foldl_erase, Dict.get_update]
  by_cases hk : k ∈ mapping.keys
  · obtain ⟨v, hv⟩ := Dict.mem_keys_iff.1 hk
    rw [if_neg (fun h => (hmem.1 h).2 hk), hv, Option.some_or]
  · rw [Dict.get_eq_none_iff.2 hk, Option.none_or]
    split_ifs with hremoved
    · rfl
    · exact Dict.get_eq_none_iff.2 fun hin => hremoved (hmem.2 ⟨hin, hk⟩)

/-! ## Runs -/

/-- The hash holds the mapping that the signature is of. -/
def RedisDict.Signed (signature : Dict κ ν → σ) (s : RedisDict κ ν σ) : Prop :=
  ∀ mapping, s.signature = some (signature mapping) → HashHolds s.hash mapping

/-- A call that has written to the hash and has yet to write or delete the signature. -/
def RedisDictCall.wrote : RedisDictCall κ ν → Prop
  | .hkeys _ | .hset .. => False
  | .hdel .. | .setSignature _ | .deleteSignature => True

/-- What holds between the commands: the signature is right, or a call will change it. -/
def SignedOrWriting (signature : Dict κ ν → σ) (s : RedisDict κ ν σ) : Prop :=
  s.Signed signature ∨ ∃ call c, s.calls.get call = some c ∧ c.wrote

variable {s t : RedisDict κ ν σ} {i : RedisDictStep κ ν} {o : RedisDictResult} {call : ℕ} {c : RedisDictCall κ ν}

omit [DecidableEq σ] in
theorem signedOrWriting_await (hc : c.wrote) : SignedOrWriting signature (s.await call c) :=
  .inr ⟨call, c, Dict.get_set_self _ _ _, hc⟩

omit [DecidableEq σ] in
theorem SignedOrWriting.await (h : SignedOrWriting signature s)
    (hcall : ∀ c', s.calls.get call = some c' → ¬ c'.wrote) : SignedOrWriting signature (s.await call c) := by
  rcases h with h | ⟨call', c', hget, hwrote⟩
  · exact .inl h
  · refine .inr ⟨call', c', ?_, hwrote⟩
    have hne : call' ≠ call := by
      rintro rfl
      exact hcall c' hget hwrote
    rw [RedisDict.await, Dict.get_set_of_ne _ hne]
    exact hget

omit [DecidableEq σ] in
theorem SignedOrWriting.resume (hinj : ∀ m m', signature m = signature m' → HashHolds m m')
    (h : SignedOrWriting signature s) (hc : s.calls.get call = some c) (hfits : SignatureFits s (.resume call)) :
    SignedOrWriting signature (s.resume signature call c).1 := by
  cases c with
  | hkeys mapping =>
    refine h.await fun c' hc' hwrote => ?_
    rw [hc] at hc'
    cases hc'
    exact hwrote
  | hset mapping keysToRemove =>
    rw [RedisDict.resume]
    split_ifs
    · exact signedOrWriting_await trivial
    · exact signedOrWriting_await trivial
  | hdel mapping keysToRemove => exact signedOrWriting_await trivial
  | setSignature mapping =>
    have hholds : HashHolds s.hash mapping := hfits mapping (Option.bind_eq_some_iff.2 ⟨_, hc, rfl⟩)
    refine .inl fun mapping' hsigned k => ?_
    rw [← hinj mapping mapping' (Option.some.inj hsigned) k]
    exact hholds k
  | deleteSignature => exact .inl fun mapping hsigned => absurd hsigned (Option.some_ne_none _).symm

/-- **One step.** -/
theorem SignedOrWriting.step (hinj : ∀ m m', signature m = signature m' → HashHolds m m')
    (h : SignedOrWriting signature s) (hfits : SignatureFits s i)
    (hs : (redisDictMachine signature).step s i = some (t, o)) : SignedOrWriting signature t := by
  cases i with
  | set call mapping =>
    obtain ⟨hnew, hs⟩ := Option.ite_none_left_eq_some.1 hs
    obtain rfl := congrArg Prod.fst (Option.some.inj hs)
    rw [RedisDict.set]
    split_ifs
    · exact signedOrWriting_await trivial
    · exact h
    · refine h.await fun c' hc' => ?_
      rw [hc'] at hnew
      exact absurd rfl hnew
  | setItem call key value =>
    obtain ⟨-, hs⟩ := Option.ite_none_left_eq_some.1 hs
    obtain rfl := congrArg Prod.fst (Option.some.inj hs)
    exact signedOrWriting_await trivial
  | delItem call key =>
    obtain ⟨-, hs⟩ := Option.ite_none_left_eq_some.1 hs
    obtain rfl := congrArg Prod.fst (Option.some.inj hs)
    rw [RedisDict.delItem]
    split_ifs
    · exact h
    · exact signedOrWriting_await trivial
  | clear call =>
    obtain ⟨-, hs⟩ := Option.ite_none_left_eq_some.1 hs
    obtain rfl := congrArg Prod.fst (Option.some.inj hs)
    exact signedOrWriting_await trivial
  | resume call =>
    obtain ⟨c, hc, hs⟩ := Option.map_eq_some_iff.1 hs
    obtain rfl := congrArg Prod.fst hs
    exact h.resume hinj hc hfits

/-- A `set` that returns early has found the signature of its mapping, and writes nothing. -/
theorem set_unchanged {mapping : Dict κ ν} (h : s.set signature call mapping = (t, .unchanged)) :
    t = s ∧ s.signature = some (signature mapping) := by
  rw [RedisDict.set] at h
  split_ifs at h with hempty hsigned
  · exact absurd (congrArg Prod.snd h) (by simp [RedisDict.clear])
  · exact ⟨(congrArg Prod.fst h).symm, hsigned⟩
  · exact absurd (congrArg Prod.snd h) (by simp)

theorem step_set (signature : Dict κ ν → σ) (hidle : s.calls = .empty) (call : ℕ) (mapping : Dict κ ν) :
    (redisDictMachine signature).step s (.set call mapping) = some (s.set signature call mapping) := by
  simp [redisDictMachine, hidle]

/-- **In a run in which every signature is stored over the mapping that it is of, the signature is right whenever no
    operation is in progress**, and a `set` that then returns early leaves the hash equal to its mapping. -/
theorem signatureNeverLies (hinj : ∀ m m', signature m = signature m' → HashHolds m m')
    {tr : List (RedisDictStep κ ν × RedisDictResult)} (hrun : (redisDictMachine signature).RunIn SignatureFits s tr t)
    (hsigned : s.Signed signature) (hidle : t.calls = .empty) :
    t.Signed signature ∧ ∀ call mapping u, (redisDictMachine signature).step t (.set call mapping) = some (u, .unchanged) →
      HashHolds u.hash mapping := by
  have hinv := hrun.invariant (I := SignedOrWriting signature) (fun s i t o hfits h hs => h.step hinj hfits hs) (.inl hsigned)
  have ht : t.Signed signature := by
    rcases hinv with h | ⟨call, c, hget, -⟩
    · exact h
    · rw [hidle] at hget
      cases hget
  refine ⟨ht, fun call mapping u hs => ?_⟩
  obtain ⟨-, hs⟩ := Option.ite_none_left_eq_some.1 hs
  obtain ⟨rfl, hfound⟩ := set_unchanged (Option.some.inj hs)
  exact ht mapping hfound

/-- A call goes on alone to its end, and then the hash holds a mapping. -/
def Completes (signature : Dict κ ν → σ) (s : RedisDict κ ν σ) (call : ℕ) (mapping : Dict κ ν) : Prop :=
  ∃ tr t, (redisDictMachine signature).RunIn SignatureFits s tr t ∧ (∀ e ∈ tr, e.1 = .resume call) ∧
    t.calls.get call = none ∧ HashHolds t.hash mapping

variable {mapping : Dict κ ν}

theorem Completes.resume (hc : s.calls.get call = some c) (hfits : ∀ m ∈ c.signing, HashHolds s.hash m)
    (h : Completes signature (s.resume signature call c).1 call mapping) : Completes signature s call mapping := by
  obtain ⟨tr, t, hrun, hresumes, hdone⟩ := h
  have hstep : (redisDictMachine signature).step s (.resume call) = some (s.resume signature call c) :=
    congrArg (Option.map (s.resume signature call)) hc
  have hfits' : SignatureFits s (.resume call) := by
    intro m hm
    rw [hc] at hm
    exact hfits m hm
  refine ⟨_, t, hrun.cons hfits' hstep, ?_, hdone⟩
  rw [List.forall_mem_cons]
  exact ⟨rfl, hresumes⟩

theorem completes_setSignature (hc : s.calls.get call = some (.setSignature mapping)) (hholds : HashHolds s.hash mapping) :
    Completes signature s call mapping := by
  refine .resume hc (fun m hm => ?_) ⟨[], _, .nil, by simp, Dict.get_erase_self _ _, hholds⟩
  cases hm
  exact hholds

theorem completes_hkeys (hc : s.calls.get call = some (.hkeys mapping)) : Completes signature s call mapping := by
  have hreplaced := hashHolds_replaced s.hash mapping
  refine .resume hc (by rintro _ ⟨⟩) (.resume (Dict.get_set_self _ _ _) (by rintro _ ⟨⟩) ?_)
  show Completes signature (s.await call (.hset mapping (keysToRemove s.hash.keys mapping)) |>.resume signature call
    (.hset mapping (keysToRemove s.hash.keys mapping))).1 call mapping
  rw [RedisDict.resume]
  split_ifs with hnone
  · rw [hnone] at hreplaced
    exact completes_setSignature (Dict.get_set_self _ _ _) hreplaced
  · refine .resume (Dict.get_set_self _ _ _) (by rintro _ ⟨⟩) ?_
    exact completes_setSignature (Dict.get_set_self _ _ _) hreplaced

/-- **A `set` that nothing gets in the way of leaves the hash equal to its mapping**, and meets the condition. -/
theorem completes_set (hsigned : s.Signed signature) (hnew : s.calls.get call = none) :
    Completes signature (s.set signature call mapping).1 call mapping := by
  rw [RedisDict.set]
  split_ifs with hempty hfound
  · have hmapping : mapping = .empty := Dict.ext_entries hempty
    refine .resume (Dict.get_set_self _ _ _) (by rintro _ ⟨⟩) ⟨[], _, .nil, by simp, Dict.get_erase_self _ _, fun k => ?_⟩
    rw [hmapping]
    rfl
  · exact ⟨[], s, .nil, by simp, hnew, hsigned mapping hfound⟩
  · exact completes_hkeys (Dict.get_set_self _ _ _)

end

/-! ## Runs of two workers -/

/-- The sorted mapping, for SHA-256 of it. -/
def sortedMapping (m : Dict ℕ ℕ) : Finset (ℕ × ℕ) := m.entries.toFinset

theorem sortedMapping_injective {m m' : Dict ℕ ℕ} (h : sortedMapping m = sortedMapping m') : HashHolds m m' := by
  intro k
  ext v
  rw [← Dict.mem_entries_iff, ← Dict.mem_entries_iff, ← List.mem_toFinset, ← List.mem_toFinset]
  exact iff_of_eq (congrArg ((k, v) ∈ ·) h)

/-- A dictionary with nothing in it. -/
def emptyRedisDict : RedisDict ℕ ℕ (Finset (ℕ × ℕ)) := ⟨.empty, none, .empty⟩

/-- Mappings of one key. -/
def single (key value : ℕ) : Dict ℕ ℕ := Dict.empty.set key value

/-- Two workers, one after the other; a third `set` returns early. -/
theorem signatureNeverLies_set : ∃ tr t,
    (redisDictMachine sortedMapping).RunIn SignatureFits emptyRedisDict tr t ∧ t.hash.get 1 = none ∧
      t.Signed sortedMapping ∧ ∃ u, (redisDictMachine sortedMapping).step t (.set 3 (single 2 20)) = some (u, .unchanged) ∧
        HashHolds u.hash (single 2 20) := by
  obtain ⟨⟨tr, t⟩, hm, hidle, hgone, hearly⟩ : ∃ r ∈ (redisDictMachine sortedMapping).exec SignatureFits emptyRedisDict
      [.set 0 (single 1 10), .resume 0, .set 1 (single 2 20), .resume 0, .resume 0, .resume 1, .resume 1, .resume 1,
        .resume 1], r.2.calls.entries = [] ∧ r.2.hash.get 1 = none ∧
        (r.2.set sortedMapping 3 (single 2 20)).2 = .unchanged := by
    decide +kernel
  have hsigned : emptyRedisDict.Signed sortedMapping := fun m hm => absurd hm (Option.some_ne_none _).symm
  obtain ⟨ht, hset⟩ := signatureNeverLies (fun _ _ => sortedMapping_injective) (Machine.runIn_of_exec hm) hsigned
    (Dict.ext_entries hidle)
  have hstep := step_set sortedMapping (Dict.ext_entries hidle) 3 (single 2 20)
  rw [← Prod.mk.eta (p := t.set sortedMapping 3 (single 2 20)), hearly] at hstep
  exact ⟨tr, t, Machine.runIn_of_exec hm, hgone, ht, _, hstep, hset _ _ _ hstep⟩

/-- **Two `set` at the same time: the signature of one over the mapping of the other.** -/
theorem not_signatureNeverLies : ∃ tr t, (redisDictMachine sortedMapping).Run emptyRedisDict tr t ∧ t.calls = .empty ∧
    ¬ t.Signed sortedMapping ∧ ∃ u, (redisDictMachine sortedMapping).step t (.set 3 (single 1 10)) = some (u, .unchanged) ∧
      ¬ HashHolds u.hash (single 1 10) := by
  obtain ⟨⟨tr, t⟩, hm, hidle, hsignature, hlies, hearly⟩ : ∃ r ∈ (redisDictMachine sortedMapping).exec
      (fun _ _ => True) emptyRedisDict
      [.set 0 (single 1 10), .resume 0, .resume 0, .set 1 (single 2 20), .resume 1, .resume 1, .resume 1, .resume 1,
        .resume 0], r.2.calls.entries = [] ∧ r.2.signature = some (sortedMapping (single 1 10)) ∧
        ¬ HashHolds r.2.hash (single 1 10) ∧ (r.2.set sortedMapping 3 (single 1 10)).2 = .unchanged := by
    decide +kernel
  have hstep := step_set sortedMapping (Dict.ext_entries hidle) 3 (single 1 10)
  rw [← Prod.mk.eta (p := t.set sortedMapping 3 (single 1 10)), hearly] at hstep
  have hunchanged : (t.set sortedMapping 3 (single 1 10)).1 = t := (set_unchanged (Prod.ext rfl hearly)).1
  rw [hunchanged] at hstep
  exact ⟨tr, t, Machine.runIn_of_exec hm, Dict.ext_entries hidle, fun h => hlies (h _ hsignature), t, hstep, hlies⟩

end TideBot
