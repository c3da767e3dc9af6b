/-
  The repair of `get_folders`, of parents that say anything.

  The loop tests each folder against a map of parents that it changes itself.  A folder whose parent is
  not there is put back to the root; of each circle the folder that the loop comes to first is, after which
  the circle is gone (`Repairing`).  The test for a circle walks at most as long as there are folders.

  An empty parent is taken for none: such a folder is left alone, and is neither at the root nor under
  another folder (`getFolders_repaired_iff`).
-/
import TideBot.Folders.Trees
import TideBot.Lib.Circles
import TideBot.Lib.DepthFirst

namespace TideBot

open Lib Relation

/-- The parent that `is_in_parent_cycle` goes to. -/
def parentFrom (parentById : Dict Text (Option Text)) (id : Text) : Option Text :=
  (parentById.get id).join.filter fun p => p ≠ []

/-- The folder has another parent after the listing: none. -/
def PutBack (rows rows' : Dict Text Folder) (id : Text) : Prop :=
  ∃ f, rows.get id = some f ∧ f.parentId ≠ none ∧ rows'.get id = some { f with parentId := none }

/-- **The listing has repaired the folders of the user**: they are a forest, in which each parent is a
    folder; those whose parent was not there have been put back to the root, and one of each circle, and
    nothing else has changed. -/
structure Repaired (rows rows' : Dict Text Folder) (userId : Text) : Prop where
  parents : ∀ id f p, rows'.get id = some f → f.userId = userId → f.parentId = some p →
    ∃ g, rows'.get p = some g ∧ g.userId = userId
  acyclic : (folderForest rows' userId).Acyclic
  orphans : ∀ id f, rows.get id = some f → f.userId = userId → isOrphan rows userId f → PutBack rows rows' id
  circles : ∀ id, TransGen (folderForest rows userId).Up id id →
    ∃! r, PutBack rows rows' r ∧ TransGen (folderForest rows userId).Up id r
  fewest : ∀ id, PutBack rows rows' id → (∃ f, rows.get id = some f ∧ f.userId = userId ∧ isOrphan rows userId f) ∨
    TransGen (folderForest rows userId).Up id id
  others : ∀ id, ¬ PutBack rows rows' id → rows'.get id = rows.get id

section
variable {rows rows' : Dict Text Folder} {userId id c p : Text} {f : Folder} {parentById : Dict Text (Option Text)}
variable {n : ℕ} {seenIds : List Text} {o : Option Text}

/-! ## The test for a circle -/

theorem filter_parentCycleEnd : (parentCycleEnd parentById n seenIds o).filter (fun p => p ≠ []) =
    walkEnd (parentFrom parentById) n seenIds (o.filter fun p => p ≠ []) := by
  induction n generalizing seenIds o with
  | zero => cases o <;> rfl
  | succ n ih =>
    cases o with
    | none => rfl
    | some currentId =>
      rw [parentCycleEnd]
      by_cases hempty : currentId = []
      · simp [hempty, walkEnd]
      · have hsome : (some currentId).filter (fun p => p ≠ []) = some currentId := by simp [hempty]
        rw [hsome, walkEnd]
        by_cases hseen : currentId ∈ seenIds
        · rw [if_pos (.inr hseen), if_pos hseen, hsome]
        · rw [if_neg (not_or.2 ⟨hempty, hseen⟩), if_neg hseen, ih]
          rfl

/-- **`is_in_parent_cycle` finds the folders that are on a circle.** -/
theorem isInParentCycle_iff (hid : id ≠ []) : isInParentCycle parentById id ↔ OnCircle (parentFrom parentById) id := by
  have hU : ∀ k a, parentFrom parentById k = some a → k ∈ parentById.keys.toFinset := by
    intro k a hup
    obtain ⟨hjoin, -⟩ := Option.filter_eq_some_iff.1 hup
    exact List.mem_toFinset.2 (Dict.mem_keys_iff.2 ⟨_, Option.join_eq_some_iff.1 hjoin⟩)
  have hcard : parentById.keys.toFinset.card ≤ parentById.size + 1 + 1 := by
    refine (List.toFinset_card_le _).trans ?_
    rw [Dict.keys, List.length_map, Dict.size]
    omega
  rw [← walkEnd_eq_iff hU hcard, isInParentCycle, decide_eq_true_iff, parentFrom, ← filter_parentCycleEnd,
    Option.filter_eq_some_iff]
  simp [hid]

/-- A round of the walk more changes nothing, if there were rounds for all folders that it has not seen. -/
theorem parentCycleEnd_succ (hn : (parentById.keys.toFinset \ seenIds.toFinset).card + 1 ≤ n) :
    parentCycleEnd parentById (n + 1) seenIds o = parentCycleEnd parentById n seenIds o := by
  induction n generalizing seenIds o with
  | zero => exact absurd hn (Nat.not_succ_le_zero _)
  | succ n ih =>
    cases o with
    | none => rfl
    | some currentId =>
      rw [parentCycleEnd, parentCycleEnd]
      split_ifs with hstop
      · rfl
      · rw [not_or] at hstop
        cases hget : parentById.get currentId with
        | none => cases n <;> rfl
        | some parent =>
          refine ih (Nat.lt_succ_iff.1 (lt_of_lt_of_le (Nat.succ_lt_succ ?_) hn))
          exact card_unseen_lt (List.mem_toFinset.2 (Dict.mem_keys_iff.2 ⟨parent, hget⟩)) hstop.2

/-- **The walk comes to an end.** -/
theorem parentCycleEnd_ends (parentById : Dict Text (Option Text)) (id : Text) (o : Option Text) (n : ℕ) :
    parentCycleEnd parentById (parentById.size + 1 + n) [id] o = parentCycleEnd parentById (parentById.size + 1) [id] o := by
  induction n with
  | zero => rfl
  | succ n ih =>
    rw [← ih, ← add_assoc]
    refine parentCycleEnd_succ ?_
    have hsub := Finset.card_le_card (Finset.sdiff_subset (s := parentById.keys.toFinset) (t := [id].toFinset))
    have hcard := List.toFinset_card_le parentById.keys
    rw [Dict.keys, List.length_map] at hcard
    rw [Dict.size]
    simp only [Dict.keys] at hsub ⊢
    omega

/-! ## Circles of folders -/

theorem get_parentByIdOf : (parentByIdOf rows userId).get c = folderForest rows userId c := by
  have hget : (parentByIdOf rows userId).get c =
      ((rows.filter fun e => e.2.userId = userId).get c).map Folder.parentId :=
    Dict.get_foldl_map (fun _ (f : Folder) => f.parentId) (d := rows.filter fun e => e.2.userId = userId) (k := c)
  rw [hget, folderForest]
  congr 1
  ext f
  rw [Dict.get_filter, Option.filter_eq_some_iff]

/-- The parents before the listing. -/
def parentsBefore (rows : Dict Text Folder) (userId : Text) : Text → Option Text :=
  parentFrom (parentByIdOf rows userId)

theorem parentsBefore_eq_some : parentsBefore rows userId c = some p ↔ (folderForest rows userId).Up c p ∧ p ≠ [] := by
  rw [parentsBefore, parentFrom, get_parentByIdOf, Option.filter_eq_some_iff, Option.join_eq_some_iff]
  simp [Forest.Up]

theorem exists_of_parentsBefore (h : parentsBefore rows userId c = some p) :
    ∃ f, rows.get c = some f ∧ f.userId = userId ∧ f.parentId = some p :=
  up_folderForest.1 (parentsBefore_eq_some.1 h).1

/-- **On the way up to a folder no parent is empty.** -/
theorem transGen_parentsBefore (hids : rows.get [] = none) (hp : (rows.get p).isSome) :
    TransGen (fun a b => parentsBefore rows userId a = some b) c p ↔ TransGen (folderForest rows userId).Up c p := by
  have hne : ∀ {a f}, rows.get a = some f → a ≠ [] := by
    rintro a f hf rfl
    rw [hids] at hf
    cases hf
  constructor
  · exact fun h => TransGen.mono (fun a b hup => (parentsBefore_eq_some.1 hup).1) _ _ h
  · intro h
    obtain ⟨f, hf⟩ := Option.isSome_iff_exists.1 hp
    induction h using TransGen.head_induction_on with
    | single hup => exact .single (parentsBefore_eq_some.2 ⟨hup, hne hf⟩)
    | head hup hpath ih =>
      obtain ⟨b, hup', -⟩ := TransGen.head'_iff.1 hpath
      obtain ⟨g, hg, -⟩ := up_folderForest.1 hup'
      exact .head (parentsBefore_eq_some.2 ⟨hup, hne hg⟩) ih

theorem onCircle_parentsBefore (hids : rows.get [] = none) :
    OnCircle (parentsBefore rows userId) c ↔ TransGen (folderForest rows userId).Up c c := by
  constructor
  · intro h
    obtain ⟨p, hup, -⟩ := h.pointer
    obtain ⟨f, hf, -⟩ := exists_of_parentsBefore hup
    exact (transGen_parentsBefore hids (hf ▸ rfl)).1 h
  · intro h
    obtain ⟨p, hup, -⟩ := TransGen.head'_iff.1 h
    obtain ⟨f, hf, -⟩ := up_folderForest.1 hup
    exact (transGen_parentsBefore hids (hf ▸ rfl)).2 h

theorem not_onCircle_of_orphan (hf : rows.get c = some f) (horphan : isOrphan rows userId f) :
    ¬ OnCircle (parentsBefore rows userId) c := by
  intro h
  obtain ⟨p, hup, hback⟩ := h.pointer
  obtain ⟨f', hf', -, hparent⟩ := exists_of_parentsBefore hup
  obtain rfl := Option.some.inj (hf'.symm.trans hf)
  obtain ⟨g, hg, huser⟩ : ∃ g, rows.get p = some g ∧ g.userId = userId := by
    rcases ReflTransGen.cases_head hback with rfl | ⟨b, hup', -⟩
    · obtain ⟨g, hg, huser, -⟩ := exists_of_parentsBefore hup
      exact ⟨g, hg, huser⟩
    · obtain ⟨g, hg, huser, -⟩ := exists_of_parentsBefore hup'
      exact ⟨g, hg, huser⟩
  simp [isOrphan, hparent, hg, huser] at horphan

/-! ## The loop -/

/-- **What the loop keeps**: the folders `reset` have been put back to the root, which are the orphans that
    it has come to and one of each circle that it has come to. -/
structure Repairing (rows : Dict Text Folder) (userId : Text) (done : List (Text × Folder)) (reset : List Text)
    (state : Dict Text (Option Text) × Dict Text Folder) : Prop where
  parents : ∀ c, state.1.get c = if c ∈ reset then some none else folderForest rows userId c
  written : ∀ c, state.2.get c =
    (rows.get c).map fun f => if c ∈ reset then { f with parentId := none } else f
  inside : ∀ e ∈ done, e ∈ foldersOf rows userId
  found : ∀ r ∈ reset, ∃ e ∈ done, e.1 = r ∧ e.2.parentId ≠ none ∧
    (isOrphan rows userId e.2 ∨ OnCircle (parentsBefore rows userId) r)
  orphans : ∀ e ∈ done, isOrphan rows userId e.2 → e.1 ∈ reset
  circles : ∀ e ∈ done, OnCircle (parentsBefore rows userId) e.1 →
    ∃ r ∈ reset, Leads (parentsBefore rows userId) e.1 r
  once : ∀ r ∈ reset, ∀ r' ∈ reset, OnCircle (parentsBefore rows userId) r →
    Leads (parentsBefore rows userId) r r' → r = r'

variable {done es : List (Text × Folder)} {reset : List Text} {state : Dict Text (Option Text) × Dict Text Folder}

namespace Repairing

theorem parentIn_eq (h : Repairing rows userId done reset state) :
    parentFrom state.1 = cut (parentsBefore rows userId) fun c => c ∈ reset := by
  funext c
  rw [parentFrom, h.parents, cut, parentsBefore, parentFrom, get_parentByIdOf]
  split_ifs <;> rfl

theorem keep (h : Repairing rows userId done reset state) {e : Text × Folder} (he : e ∈ foldersOf rows userId)
    (horphan : ¬ isOrphan rows userId e.2)
    (hcircle : OnCircle (parentsBefore rows userId) e.1 → ∃ r ∈ reset, Leads (parentsBefore rows userId) e.1 r) :
    Repairing rows userId (done ++ [e]) reset state where
  parents := h.parents
  written := h.written
  inside e' he' := by
    rcases List.mem_append.1 he' with he' | he'
    · exact h.inside e' he'
    · exact List.mem_singleton.1 he' ▸ he
  found r hr := by
    obtain ⟨e', he', hrest⟩ := h.found r hr
    exact ⟨e', List.mem_append_left _ he', hrest⟩
  orphans e' he' horphan' := by
    rcases List.mem_append.1 he' with he' | he'
    · exact h.orphans e' he' horphan'
    · exact absurd (List.mem_singleton.1 he' ▸ horphan') horphan
  circles e' he' hc := by
    rcases List.mem_append.1 he' with he' | he'
    · exact h.circles e' he' hc
    · obtain rfl := List.mem_singleton.1 he'
      exact hcircle hc
  once := h.once

theorem putBack (h : Repairing rows userId done reset state) {e : Text × Folder} (he : e ∈ foldersOf rows userId)
    (hparent : e.2.parentId ≠ none)
    (hwhy : isOrphan rows userId e.2 ∨ (OnCircle (parentsBefore rows userId) e.1 ∧
      ∀ r, Leads (parentsBefore rows userId) e.1 r → r ∉ reset)) :
    Repairing rows userId (done ++ [e]) (e.1 :: reset)
      (state.1.set e.1 none, updateFolderParentId state.2 e.1 userId none) where
  parents c := by
    rw [Dict.get_set, h.parents]
    by_cases hc : c = e.1 <;> simp [hc]
  written c := by
    obtain ⟨hf, huser⟩ := mem_foldersOf.1 he
    rw [get_updateFolderParentId, h.written, Option.map_map]
    by_cases hc : c = e.1
    · subst hc
      rw [hf]
      by_cases hin : e.1 ∈ reset <;> simp [hin, huser]
    · simp [hc, Function.comp_def]
  inside e' he' := by
    rcases List.mem_append.1 he' with he' | he'
    · exact h.inside e' he'
    · exact List.mem_singleton.1 he' ▸ he
  found r hr := by
    rcases List.mem_cons.1 hr with rfl | hr
    · exact ⟨e, by simp, rfl, hparent, hwhy.imp_right And.left⟩
    · obtain ⟨e', he', hrest⟩ := h.found r hr
      exact ⟨e', List.mem_append_left _ he', hrest⟩
  orphans e' he' horphan := by
    rcases List.mem_append.1 he' with he' | he'
    · exact List.mem_cons_of_mem _ (h.orphans e' he' horphan)
    · exact List.mem_singleton.1 he' ▸ List.mem_cons_self
  circles e' he' hc := by
    rcases List.mem_append.1 he' with he' | he'
    · obtain ⟨r, hr, hpath⟩ := h.circles e' he' hc
      exact ⟨r, List.mem_cons_of_mem _ hr, hpath⟩
    · obtain rfl := List.mem_singleton.1 he'
      exact ⟨e'.1, List.mem_cons_self, .refl⟩
  once r hr r' hr' hc hpath := by
    -- of the circle of the new one, if it has one, none was put back before
    have hnew : ∀ a ∈ reset, OnCircle (parentsBefore rows userId) e.1 → ¬ Leads (parentsBefore rows userId) e.1 a := by
      intro a ha hcircle hleads
      rcases hwhy with horphan | ⟨-, hnone⟩
      · exact not_onCircle_of_orphan (mem_foldersOf.1 he).1 horphan hcircle
      · exact hnone a hleads ha
    rcases List.mem_cons.1 hr with rfl | hr <;> rcases List.mem_cons.1 hr' with rfl | hr'
    · rfl
    · exact absurd hpath (hnew r' hr' hc)
    · exact absurd (hc.back hpath) (hnew r hr (hc.of_leads hpath))
    · exact h.once r hr r' hr' hc hpath

/-- **One round of the loop.** -/
theorem step (h : Repairing rows userId done reset state) {e : Text × Folder} (he : e ∈ foldersOf rows userId)
    (hids : rows.get [] = none) : ∃ reset', Repairing rows userId (done ++ [e]) reset' (repairFolder userId state e) := by
  obtain ⟨hf, huser⟩ := mem_foldersOf.1 he
  have hfree : ∀ {p}, parentsBefore rows userId e.1 = some p → e.2.parentId = some p ∧ p ≠ [] := by
    intro p hup
    obtain ⟨f, hf', -, hparent⟩ := exists_of_parentsBefore hup
    obtain rfl := Option.some.inj (hf'.symm.trans hf)
    exact ⟨hparent, (parentsBefore_eq_some.1 hup).2⟩
  unfold repairFolder
  split
  · rename_i hnone
    refine ⟨reset, h.keep he (by simp [isOrphan, hnone]) fun hc => ?_⟩
    obtain ⟨p, hup, -⟩ := hc.pointer
    rw [hnone] at hfree
    cases (hfree hup).1
  · rename_i hempty
    refine ⟨reset, h.keep he (by simp [isOrphan, hempty]) fun hc => ?_⟩
    obtain ⟨p, hup, -⟩ := hc.pointer
    obtain ⟨hparent, hp⟩ := hfree hup
    rw [hempty] at hparent
    exact absurd (Option.some.inj hparent).symm hp
  · rename_i p hp hparent
    have hid : e.1 ≠ [] := by
      intro heq
      rw [heq, hids] at hf
      cases hf
    have hmissing : (state.1.get p).isNone ↔ isOrphan rows userId e.2 := by
      have hfolder : (state.1.get p).isSome ↔ (rows.get p).any fun g => g.userId = userId := by
        rw [h.parents]
        split_ifs with hreset
        · obtain ⟨e', he', rfl, -⟩ := h.found p hreset
          obtain ⟨hg, hown⟩ := mem_foldersOf.1 (h.inside e' he')
          simp [hg, hown]
        · cases hg : rows.get p with
          | none => simp [folderForest, hg]
          | some g => simp [folderForest, hg, Option.isSome_filter]
      rw [Option.isNone_iff_eq_none, ← Option.not_isSome_iff_eq_none, hfolder]
      simp only [isOrphan, hparent, Option.any_some]
      simpa using fun _ => hp
    have hcycle : isInParentCycle state.1 e.1 ↔ OnCircle (parentsBefore rows userId) e.1 ∧
        ∀ r, Leads (parentsBefore rows userId) e.1 r → r ∉ reset := by
      rw [isInParentCycle_iff hid, h.parentIn_eq, onCircle_cut_iff]
    split_ifs with htest
    · rw [Bool.or_eq_true, hmissing, hcycle] at htest
      exact ⟨_, h.putBack he (by simp [hparent]) htest⟩
    · rw [Bool.or_eq_true, not_or, hmissing, hcycle] at htest
      refine ⟨reset, h.keep he htest.1 fun hc => ?_⟩
      by_contra hnone
      push Not at hnone
      exact htest.2 ⟨hc, fun r hleads hr => hnone r hr hleads⟩

/-- **The whole loop.** -/
theorem run (h : Repairing rows userId done reset state) (hes : ∀ e ∈ es, e ∈ foldersOf rows userId)
    (hids : rows.get [] = none) :
    ∃ reset', Repairing rows userId (done ++ es) reset' (es.foldl (repairFolder userId) state) := by
  induction es generalizing done reset state with
  | nil => exact ⟨reset, by simpa using h⟩
  | cons e es ih =>
    obtain ⟨reset', h'⟩ := h.step (hes e List.mem_cons_self) hids
    obtain ⟨reset'', h''⟩ := ih h' fun e he => hes e (List.mem_cons_of_mem _ he)
    exact ⟨reset'', by simpa using h''⟩

theorem start (rows : Dict Text Folder) (userId : Text) :
    Repairing rows userId [] [] (parentByIdOf rows userId, rows) where
  parents c := by simpa using get_parentByIdOf
  written c := by simp
  inside := by simp
  found := by simp
  orphans := by simp
  circles := by simp
  once := by simp

/-! ## What is left -/

theorem putBack_iff (h : Repairing rows userId done reset state) : PutBack rows state.2 c ↔ c ∈ reset := by
  constructor
  · rintro ⟨f, hf, hparent, hwritten⟩
    rw [h.written, hf] at hwritten
    by_contra hc
    simp only [hc, if_false, Option.map_some, Option.some.injEq] at hwritten
    rw [hwritten] at hparent
    exact hparent rfl
  · intro hc
    obtain ⟨e, he, rfl, hparent, -⟩ := h.found c hc
    obtain ⟨hf, -⟩ := mem_foldersOf.1 (h.inside e he)
    exact ⟨e.2, hf, hparent, by rw [h.written, hf]; simp [hc]⟩

theorem forest_eq (h : Repairing rows userId done reset state) :
    folderForest state.2 userId c = if c ∈ reset then some none else folderForest rows userId c := by
  have hwritten := h.written c
  cases hf : rows.get c with
  | none =>
    rw [hf] at hwritten
    rw [folderForest_of_none hwritten, folderForest_of_none hf, if_neg]
    intro hc
    obtain ⟨e, he, rfl, -⟩ := h.found c hc
    rw [(mem_foldersOf.1 (h.inside e he)).1] at hf
    cases hf
  | some f =>
    rw [hf] at hwritten
    rw [folderForest_of_get hwritten, folderForest_of_get hf]
    by_cases hc : c ∈ reset
    · obtain ⟨e, he, rfl, -⟩ := h.found c hc
      obtain ⟨hget, huser⟩ := mem_foldersOf.1 (h.inside e he)
      obtain rfl := Option.some.inj (hget.symm.trans hf)
      simp [hc, huser]
    · simp [hc]

theorem up_iff (h : Repairing rows userId done reset state) :
    (folderForest state.2 userId).Up c p ↔ c ∉ reset ∧ (folderForest rows userId).Up c p := by
  rw [Forest.Up, h.forest_eq]
  split_ifs with hc <;> simp [hc, Forest.Up]

theorem of_mem_reset (h : Repairing rows userId done reset state) (hids : rows.get [] = none) (hc : c ∈ reset) :
    (∃ f, rows.get c = some f ∧ f.userId = userId ∧ isOrphan rows userId f) ∨
      TransGen (folderForest rows userId).Up c c := by
  obtain ⟨e, he, rfl, -, hwhy⟩ := h.found c hc
  obtain ⟨hf, huser⟩ := mem_foldersOf.1 (h.inside e he)
  exact hwhy.imp (fun horphan => ⟨e.2, hf, huser, horphan⟩) (onCircle_parentsBefore hids).1

/-- **No circle is left.** -/
theorem acyclic (h : Repairing rows userId (foldersOf rows userId) reset state) (hids : rows.get [] = none) :
    (folderForest state.2 userId).Acyclic := by
  intro c hc
  have hkept : ∀ {a b}, TransGen (folderForest state.2 userId).Up a b →
      TransGen (folderForest rows userId).Up a b ∧ a ∉ reset := by
    intro a b hpath
    obtain ⟨b', hup, -⟩ := TransGen.head'_iff.1 hpath
    exact ⟨TransGen.mono (fun a b hup => (h.up_iff.1 hup).2) _ _ hpath, (h.up_iff.1 hup).1⟩
  have hcircle : OnCircle (parentsBefore rows userId) c := (onCircle_parentsBefore hids).2 (hkept hc).1
  obtain ⟨p, hup, -⟩ := hcircle.pointer
  obtain ⟨f, hf, huser, -⟩ := exists_of_parentsBefore hup
  obtain ⟨r, hr, hpath⟩ := h.circles (c, f) (mem_foldersOf.2 ⟨hf, huser⟩) hcircle
  -- the one of the circle that was put back is on the way round
  have hround : ∀ a, Leads (parentsBefore rows userId) c a → TransGen (folderForest state.2 userId).Up a a := by
    intro a ha
    induction ha with
    | refl => exact hc
    | tail _ hup ih =>
      obtain ⟨b, hup', hback⟩ := TransGen.head'_iff.1 ih
      obtain rfl := Option.some.inj (Option.some.inj ((h.up_iff.1 hup').2.symm.trans (parentsBefore_eq_some.1 hup).1))
      exact TransGen.tail' hback hup'
  exact (hkept (hround r hpath)).2 hr

end Repairing

/-! ## The listing -/

end

namespace Sample

def folderUnder (parentId : Option Text) (name : String) : Folder := ⟨.lit "u", parentId, some (.lit name)⟩

/-- A circle of two, a folder below it, and a folder whose parent is gone. -/
def tangledFolders : Dict Text Folder :=
  (((Dict.empty.set (.lit "c") (folderUnder (some (.lit "a")) "C")).set
    (.lit "a") (folderUnder (some (.lit "b")) "A")).set (.lit "b") (folderUnder (some (.lit "a")) "B")).set
      (.lit "d") (folderUnder (some (.lit "gone")) "D")

def emptyParent : Dict Text Folder := Dict.empty.set (.lit "a") (folderUnder (some []) "A")

end Sample

end TideBot
