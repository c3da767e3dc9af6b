/-
  Documents that are edited together (`socket/utils.py`, `YdocManager`), kept in Redis.

  A document is a list of updates.  A worker appends to it, and when the list has become long it reads
  the list, merges the older half into one snapshot, and puts a new list in the place of the old one.
  What other workers have appended in between is not in the new list.

  Updates are a semilattice: `apply_update` takes the join, and a document contains an update if the
  update is below it.  A step is one Redis command, or the pipeline; there is one document.
-/
import TideBot.Lib.Dict
import TideBot.Lib.Machine

namespace TideBot

open Lib

section
variable {E : Type*} [SemilatticeSup E] [OrderBot E]

/-- The document that updates are applied to, one after the other, from an empty one. -/
def mergeUpdates (updates : List E) : E := updates.foldl (· ⊔ ·) ⊥

/-- `COMPACTION_THRESHOLD` -/
def compactionThreshold : ℕ := 500

/-- The list that a compaction puts in the place of the one it has read. -/
def compacted (allUpdates : List E) : List E :=
  let mid := allUpdates.length / 2
  mergeUpdates (allUpdates.take mid) :: allUpdates.drop mid

end

/-- Where a call of `append_to_updates` goes on. -/
inductive AppendCall (E : Type*) where
  /-- with `LLEN` -/
  | pushed (update : E)
  /-- with `LRANGE` -/
  | compacting (update : E)
  /-- with the pipeline -/
  | replacing (update : E) (allUpdates : List E)
deriving DecidableEq

/-- The update that a call appends. -/
def AppendCall.update {E : Type*} : AppendCall E → E
  | .pushed u | .compacting u | .replacing u _ => u

/-- The list that a call is about to replace, as it has read it. -/
def AppendCall.read {E : Type*} : AppendCall E → Option (List E)
  | .pushed _ | .compacting _ => none
  | .replacing _ allUpdates => some allUpdates

/-- The list in Redis, and the calls under way. -/
structure YdocManager (E : Type*) where
  updates : List E
  calls : Dict ℕ (AppendCall E)

inductive YdocStep (E : Type*) where
  /-- `append_to_updates` is called: `RPUSH` -/
  | append (call : ℕ) (update : E)
  /-- The next command of a call. -/
  | resume (call : ℕ)
  /-- `get_updates` -/
  | getUpdates

inductive YdocResult (E : Type*) where
  | none
  /-- `append_to_updates` has returned. -/
  | appended (update : E)
  | updates (updates : List E)
deriving DecidableEq

section
variable {E : Type*} [SemilatticeSup E] [OrderBot E]

namespace YdocManager

variable (s : YdocManager E)

/-- A call waits for its next command. -/
def await (call : ℕ) (c : AppendCall E) : YdocManager E := { s with calls := s.calls.set call c }

def finish (call : ℕ) : YdocManager E := { s with calls := s.calls.erase call }

/-- The next command of a call. -/
def resume (call : ℕ) : AppendCall E → YdocManager E × YdocResult E
  | .pushed u =>
    if compactionThreshold ≤ s.updates.length then (s.await call (.compacting u), .none)
    else (s.finish call, .appended u)
  | .compacting u =>
    if s.updates.length ≤ 1 then (s.finish call, .appended u)
    else (s.await call (.replacing u s.updates), .none)
  | .replacing u allUpdates => ({ s with updates := compacted allUpdates }.finish call, .appended u)

end YdocManager

/-- `YdocManager`, with any number of workers. -/
def ydocMachine : Machine (YdocManager E) (YdocStep E) (YdocResult E) where
  step s
    | .append call update =>
      if (s.calls.get call).isSome then none
      else some ({ s with updates := s.updates ++ [update] }.await call (.pushed update), .none)
    | .resume call => (s.calls.get call).map (s.resume call)
    | .getUpdates => some (s, .updates s.updates)

/-- **The condition on a step**: when a list is replaced, what is in it was in what has been read. -/
def ReplaceFits (s : YdocManager E) : YdocStep E → Prop
  | .append .. | .getUpdates => True
  | .resume call => ∀ allUpdates ∈ (s.calls.get call).bind AppendCall.read,
    mergeUpdates s.updates ≤ mergeUpdates allUpdates

instance [DecidableLE E] (s : YdocManager E) : (i : YdocStep E) → Decidable (ReplaceFits s i)
  | .append .. | .getUpdates => inferInstanceAs (Decidable True)
  | .resume _ => inferInstanceAs (Decidable (∀ _ ∈ _, _ ≤ _))

/-! ## Merging -/

variable {updates : List E} {e : E}

omit [OrderBot E] in
theorem foldl_sup_le {a : E} : updates.foldl (· ⊔ ·) a ≤ e ↔ a ≤ e ∧ ∀ u ∈ updates, u ≤ e := by
  induction updates generalizing a with
  | nil => simp
  | cons u updates ih =>
    rw [List.foldl_cons, ih, sup_le_iff, List.forall_mem_cons, and_assoc]

theorem mergeUpdates_le : mergeUpdates updates ≤ e ↔ ∀ u ∈ updates, u ≤ e := by
  rw [mergeUpdates, foldl_sup_le, and_iff_right bot_le]

theorem le_mergeUpdates {u : E} (h : u ∈ updates) : u ≤ mergeUpdates updates := mergeUpdates_le.1 le_rfl u h

/-- **A compaction loses nothing of what it has read.** -/
theorem mergeUpdates_compacted : mergeUpdates (compacted updates) = mergeUpdates updates := by
  refine eq_of_forall_ge_iff fun e => ?_
  rw [mergeUpdates_le, mergeUpdates_le, compacted, List.forall_mem_cons, mergeUpdates_le]
  conv_rhs => rw [← List.take_append_drop (updates.length / 2) updates]
  exact List.forall_mem_append.symm

/-! ## Runs -/

variable {s s' : YdocManager E} {tr : List (YdocStep E × YdocResult E)} {i : YdocStep E} {o : YdocResult E}

/-- What has been appended, by calls that have returned and calls under way, is in the document. -/
structure Contained (tr : List (YdocStep E × YdocResult E)) (s : YdocManager E) : Prop where
  returned : ∀ u, .appended u ∈ tr.map Prod.snd → u ≤ mergeUpdates s.updates
  pending : ∀ call c, s.calls.get call = some c → c.update ≤ mergeUpdates s.updates

/-- A step that leaves the document, or adds to it, and returns from a call that was under way. -/
theorem Contained.grow (h : Contained tr s) (hgrows : mergeUpdates s.updates ≤ mergeUpdates s'.updates)
    (hreturned : ∀ u, o = .appended u → u ≤ mergeUpdates s'.updates)
    (hcalls : ∀ call c, s'.calls.get call = some c → s.calls.get call = some c ∨ c.update ≤ mergeUpdates s'.updates) :
    Contained (tr ++ [(i, o)]) s' where
  returned u hu := by
    rw [List.map_append, List.mem_append] at hu
    rcases hu with hu | hu
    · exact (h.returned u hu).trans hgrows
    · exact hreturned u (List.mem_singleton.1 hu).symm
  pending call c hc := by
    rcases hcalls call c hc with hc | hc
    · exact (h.pending call c hc).trans hgrows
    · exact hc

theorem Contained.resume (h : Contained tr s) {call : ℕ} {c : AppendCall E} (hc : s.calls.get call = some c)
    (hfits : ReplaceFits s (.resume call)) :
    Contained (tr ++ [(i, (s.resume call c).2)]) (s.resume call c).1 := by
  have hcontained := h.pending call c hc
  have hfinish : ∀ {s' : YdocManager E}, s'.calls = s.calls → ∀ call' c', (s'.finish call).calls.get call' = some c' →
      s.calls.get call' = some c' := by
    intro s' hcalls call' c' hc'
    rw [YdocManager.finish, Dict.get_erase, hcalls] at hc'
    split_ifs at hc'
    exact hc'
  have hawait : ∀ {c' : AppendCall E}, c'.update = c.update → ∀ call' c'', (s.await call c').calls.get call' = some c'' →
      s.calls.get call' = some c'' ∨ c''.update ≤ mergeUpdates s.updates := by
    intro c' heq call' c'' hc''
    rw [YdocManager.await, Dict.get_set] at hc''
    split_ifs at hc''
    · cases hc''
      exact .inr (heq ▸ hcontained)
    · exact .inl hc''
  cases c with
  | pushed u =>
    rw [YdocManager.resume]
    split_ifs
    · exact h.grow le_rfl (by rintro _ ⟨⟩) (hawait rfl)
    · refine h.grow le_rfl ?_ fun call' c' hc' => .inl (hfinish rfl call' c' hc')
      rintro _ ⟨⟩
      exact hcontained
  | compacting u =>
    rw [YdocManager.resume]
    split_ifs
    · refine h.grow le_rfl ?_ fun call' c' hc' => .inl (hfinish rfl call' c' hc')
      rintro _ ⟨⟩
      exact hcontained
    · exact h.grow le_rfl (by rintro _ ⟨⟩) (hawait rfl)
  | replacing u allUpdates =>
    have hgrows : mergeUpdates s.updates ≤ mergeUpdates (compacted allUpdates) := by
      rw [mergeUpdates_compacted]
      exact hfits _ (Option.bind_eq_some_iff.2 ⟨_, hc, rfl⟩)
    refine h.grow hgrows ?_ fun call' c' hc' => .inl (hfinish rfl call' c' hc')
    rintro _ ⟨⟩
    exact hcontained.trans hgrows

/-- **One step.** -/
theorem Contained.step (h : Contained tr s) (hfits : ReplaceFits s i) (hs : ydocMachine.step s i = some (s', o)) :
    Contained (tr ++ [(i, o)]) s' := by
  cases i with
  | append call update =>
    obtain ⟨-, hs⟩ := Option.ite_none_left_eq_some.1 hs
    cases hs
    have hgrows : mergeUpdates s.updates ≤ mergeUpdates (s.updates ++ [update]) :=
      mergeUpdates_le.2 fun u hu => le_mergeUpdates (List.mem_append_left _ hu)
    refine h.grow hgrows (by rintro _ ⟨⟩) fun call' c hc => ?_
    rw [YdocManager.await, Dict.get_set] at hc
    split_ifs at hc
    · cases hc
      exact .inr (le_mergeUpdates (List.mem_append_right _ (List.mem_singleton_self _)))
    · exact .inl hc
  | resume call =>
    obtain ⟨c, hc, hs⟩ := Option.map_eq_some_iff.1 hs
    obtain ⟨rfl, rfl⟩ := Prod.mk.inj hs
    exact h.resume hc hfits
  | getUpdates =>
    cases hs
    exact h.grow le_rfl (by rintro _ ⟨⟩) fun _ _ => .inl

/-- **In a run in which no replacement loses anything, what `get_updates` returns contains every update whose
    `append_to_updates` has returned.** -/
theorem returnedUpdatesKept (hrun : (ydocMachine (E := E)).RunIn ReplaceFits s tr s') (hidle : s.calls = .empty) :
    ∀ xs es ys, tr = xs ++ (.getUpdates, .updates es) :: ys →
      ∀ u, .appended u ∈ xs.map Prod.snd → u ≤ mergeUpdates es := by
  rintro xs es ys rfl u hu
  obtain ⟨t, t', hxs, -, hs, -⟩ := hrun.split
  have hstart : Contained [] s := by
    refine ⟨by simp, fun call c hc => ?_⟩
    rw [hidle] at hc
    cases hc
  have hcontained := hxs.traceInvariant (fun _ _ _ _ _ hfits h hs => h.step hfits hs) hstart
  cases hs
  exact hcontained.returned u hu

end

/-! ## A run -/

/-- A document one update short of a compaction. -/
def fullYdoc : YdocManager (Finset ℕ) := ⟨List.replicate 499 {1}, .empty⟩

/-- A compaction with no append in its gap. -/
theorem returnedUpdatesKept_compacted : ∃ tr s',
    ydocMachine.RunIn ReplaceFits fullYdoc (tr ++ [(.getUpdates, .updates s'.updates)]) s' ∧ s'.updates.length = 252 ∧
      {2} ≤ mergeUpdates s'.updates ∧ {3} ≤ mergeUpdates s'.updates := by
  obtain ⟨⟨tr, s'⟩, hm, hlength, h₂, h₃⟩ : ∃ r ∈ ydocMachine.exec ReplaceFits fullYdoc
      [.append 0 {2}, .append 1 {3}, .resume 0, .resume 0, .resume 0, .resume 1],
      r.2.updates.length = 252 ∧ .appended {2} ∈ r.1.map Prod.snd ∧ .appended {3} ∈ r.1.map Prod.snd := by
    decide +kernel
  have hrun := (Machine.runIn_of_exec hm).snoc (show ReplaceFits _ .getUpdates from trivial) rfl
  exact ⟨tr, s', hrun, hlength, returnedUpdatesKept hrun rfl tr _ [] rfl _ h₂,
    returnedUpdatesKept hrun rfl tr _ [] rfl _ h₃⟩

/-- **An update that is appended while another worker compacts the list is lost.** -/
theorem not_returnedUpdatesKept : ¬ ∀ (s : YdocManager (Finset ℕ)) tr s', ydocMachine.Run s tr s' → s.calls = .empty →
    ∀ xs es ys, tr = xs ++ (.getUpdates, .updates es) :: ys →
      ∀ u, .appended u ∈ xs.map Prod.snd → u ≤ mergeUpdates es := by
  intro h
  obtain ⟨⟨tr, s'⟩, hm, hreturned, hlost⟩ : ∃ r ∈ ydocMachine.exec (fun _ _ => True) fullYdoc
      [.append 0 {2}, .resume 0, .resume 0, .append 1 {3}, .resume 1, .resume 1, .resume 1, .resume 0],
      .appended {3} ∈ r.1.map Prod.snd ∧ ¬ {3} ≤ mergeUpdates r.2.updates := by
    decide +kernel
  have hrun := (Machine.runIn_of_exec hm).snoc (i := .getUpdates) trivial rfl
  exact hlost (h _ _ _ hrun rfl tr _ [] rfl _ hreturned)

end TideBot
