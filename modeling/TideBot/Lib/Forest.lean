/-
  Forests given by parent pointers.

  `f k` is `none` if `k` is no node, `some none` if it is a root, and `some (some p)` if its parent
  is `p`.  Nothing makes such a map a forest: a parent may be missing (`Closed`), or the pointers
  may run in a circle (`Acyclic`).  Both survive that one forest is laid over another
  (`Acyclic.overlay`), of which a new node is a case, and that pointers are moved to
  ancestors (`Acyclic.of_ancestors`), as when nodes are cut out.  A node may be moved to any that is not
  below it (`Acyclic.move_iff`).
-/
import Mathlib

namespace Lib

open Relation

/-- The parents of the nodes. -/
def Forest (κ : Type*) := κ → Option (Option κ)

namespace Forest

variable {κ : Type*} {f g : Forest κ} {k k' p : κ}

/-- `p` is the parent of `k`. -/
def Up (f : Forest κ) (k p : κ) : Prop := f k = some (some p)

/-- Every parent is a node. -/
def Closed (f : Forest κ) : Prop := ∀ k p, f.Up k p → (f p).isSome

/-- No node is its own ancestor. -/
def Acyclic (f : Forest κ) : Prop := ∀ k, ¬ TransGen f.Up k k

/-- The forest `g`, laid over `f`. -/
def overlay (g f : Forest κ) : Forest κ := fun k => (g k).or (f k)

/-- **There is a root** if there is a node, and there are finitely many. -/
theorem exists_root (hfin : {k | (f k).isSome}.Finite) (hclosed : f.Closed) (hacyclic : f.Acyclic)
    (hk : (f k).isSome) : ∃ r, f r = some none := by
  have : Finite {k // (f k).isSome} := hfin.to_subtype
  let above : {k // (f k).isSome} → {k // (f k).isSome} → Prop := fun a b => TransGen f.Up b.1 a.1
  have : IsTrans _ above := ⟨fun _ _ _ hab hbc => hbc.trans hab⟩
  have : Std.Irrefl above := ⟨fun k => hacyclic k.1⟩
  obtain ⟨⟨r, hr⟩, -, htop⟩ := (Finite.wellFounded_of_trans_of_irrefl above).has_min Set.univ ⟨⟨k, hk⟩, trivial⟩
  obtain ⟨o, ho⟩ := Option.isSome_iff_exists.1 hr
  cases o with
  | none => exact ⟨r, ho⟩
  | some p => exact absurd (.single ho) (htop ⟨p, hclosed r p ho⟩ trivial)

theorem Acyclic.ne (h : f.Acyclic) (hk : f.Up k p) : k ≠ p := by
  rintro rfl
  exact h k (.single hk)

theorem Acyclic.ne_of_up_up (h : f.Acyclic) (hk : f.Up k p) (hp : f.Up p k') : k ≠ k' := by
  rintro rfl
  exact h k (.tail (.single hk) hp)

theorem Acyclic.of_rank (rank : κ → ℕ) (h : ∀ k p, f.Up k p → rank p < rank k) : f.Acyclic := by
  have hlt : ∀ k a, TransGen f.Up k a → rank a < rank k := by
    intro k a hpath
    induction hpath with
    | single hup => exact h _ _ hup
    | tail _ hup ih => exact (h _ _ hup).trans ih
  exact fun k hk => lt_irrefl _ (hlt k k hk)

theorem Acyclic.empty : Acyclic (fun _ => none : Forest κ) := by
  rintro k hk
  obtain ⟨p, hp, -⟩ := TransGen.head'_iff.1 hk
  cases hp

/-- **Pointers that are moved to ancestors run in no circle.** -/
theorem Acyclic.of_ancestors (hf : f.Acyclic) (h : ∀ k p, g.Up k p → TransGen f.Up k p) : g.Acyclic := by
  have hpath : ∀ {a b}, TransGen g.Up a b → TransGen f.Up a b := by
    intro a b hab
    induction hab with
    | single hup => exact h _ _ hup
    | tail _ hup ih => exact ih.trans (h _ _ hup)
  exact fun k hk => hf k (hpath hk)

/-! ## One forest over another -/

theorem overlay_of_some {o : Option κ} (h : g k = some o) : g.overlay f k = some o := by
  simp [overlay, h]

theorem overlay_of_none (h : g k = none) : g.overlay f k = f k := by
  simp [overlay, h]

theorem isSome_overlay : (g.overlay f k).isSome ↔ (g k).isSome ∨ (f k).isSome := by
  simp [overlay, Option.isSome_or]

/-- A pointer of a forest that is laid over another: one of its own, or one of the other's. -/
theorem up_overlay : (g.overlay f).Up k p ↔ g.Up k p ∨ (g k = none ∧ f.Up k p) := by
  unfold Up
  cases hg : g k with
  | none => simp [overlay_of_none hg]
  | some o => simp [overlay_of_some hg]

theorem Closed.overlay (hg : g.Closed) (hf : ∀ k p, f.Up k p → (g p).isSome ∨ (f p).isSome) :
    (g.overlay f).Closed := by
  intro k p hk
  rw [isSome_overlay]
  rcases up_overlay.1 hk with hk | ⟨-, hk⟩
  · exact .inl (hg k p hk)
  · exact hf k p hk

theorem ancestors_overlay (hg : g.Closed) (hk : (g k).isSome) (h : TransGen (g.overlay f).Up k k') :
    TransGen g.Up k k' ∧ (g k').isSome := by
  induction h with
  | single hup =>
    rcases up_overlay.1 hup with hup | ⟨hnone, -⟩
    · exact ⟨.single hup, hg _ _ hup⟩
    · rw [hnone] at hk
      cases hk
  | tail _ hup ih =>
    obtain ⟨hpath, hsome⟩ := ih
    rcases up_overlay.1 hup with hup | ⟨hnone, -⟩
    · exact ⟨hpath.tail hup, hg _ _ hup⟩
    · rw [hnone] at hsome
      cases hsome

/-- **A closed forest laid over another makes no circle.** -/
theorem Acyclic.overlay (hgc : g.Closed) (hg : g.Acyclic) (hf : f.Acyclic) : (g.overlay f).Acyclic := by
  intro k hk
  by_cases hin : (g k).isSome
  · exact hg k (ancestors_overlay hgc hin hk).1
  · -- a circle outside of `g` never enters it
    refine hf k ?_
    have hbelow : ∀ {a}, TransGen (g.overlay f).Up a k → TransGen f.Up a k := by
      intro a ha
      induction ha using TransGen.head_induction_on with
      | single hup =>
        rcases up_overlay.1 hup with hup | ⟨-, hup⟩
        · exact absurd (hgc _ _ hup) hin
        · exact .single hup
      | head hup hpath ih =>
        rcases up_overlay.1 hup with hup | ⟨-, hup⟩
        · exact absurd (ancestors_overlay hgc (hgc _ _ hup) hpath).2 hin
        · exact .head hup ih
    exact hbelow hk

/-! ## A new node -/

variable [DecidableEq κ]

/-- The forest with one node, and the parent it is to have. -/
def single (k : κ) (p : Option κ) : Forest κ := fun k' => if k' = k then some p else none

theorem up_single {o : Option κ} {a : κ} : (single k o).Up a p ↔ a = k ∧ o = some p := by
  unfold Up single
  split_ifs with ha <;> simp [ha]

theorem Acyclic.single {o : Option κ} (ho : o ≠ some k) : (Forest.single k o).Acyclic := by
  intro a ha
  obtain ⟨b, hab, hb⟩ := TransGen.head'_iff.1 ha
  obtain ⟨rfl, rfl⟩ := up_single.1 hab
  obtain ⟨c, -, hc⟩ := TransGen.tail'_iff.1 ha
  obtain ⟨rfl, hc⟩ := up_single.1 hc
  exact ho hc

/-- **A new node keeps the pointers free of circles.** -/
theorem Acyclic.insert (hfc : f.Closed) (hf : f.Acyclic) {o : Option κ} (ho : o ≠ some k) :
    (f.overlay (Forest.single k o)).Acyclic :=
  .overlay hfc hf (.single ho)

theorem Closed.insert (hf : f.Closed) {o : Option κ} (ho : ∀ p, o = some p → (f p).isSome) :
    (f.overlay (Forest.single k o)).Closed := by
  refine hf.overlay ?_
  intro a p ha
  exact .inl (ho p (up_single.1 ha).2)

omit [DecidableEq κ] in
theorem Acyclic.add_leaf (hf : f.Acyclic) (h : ∀ a b, g.Up a b → b ≠ k ∧ (a = k ∨ f.Up a b)) : g.Acyclic := by
  intro a ha
  have hne : a ≠ k := by
    obtain ⟨b, -, hup⟩ := TransGen.tail'_iff.1 ha
    exact (h b a hup).1
  have hpath : ∀ {b}, TransGen g.Up a b → TransGen f.Up a b := by
    intro b hab
    induction hab with
    | single hup => exact .single ((h _ _ hup).2.resolve_left hne)
    | tail hab hup ih =>
      obtain ⟨c, -, hc⟩ := TransGen.tail'_iff.1 hab
      exact ih.tail ((h _ _ hup).2.resolve_left (h _ _ hc).1)
  exact hf a (hpath ha)

/-! ## A node that is moved -/

/-- The forest in which `k` has another parent. -/
def move (f : Forest κ) (k : κ) (o : Option κ) : Forest κ := fun a => if a = k then (f a).map fun _ => o else f a

theorem up_move {o : Option κ} {a : κ} (hk : (f k).isSome) :
    (f.move k o).Up a p ↔ (a = k ∧ o = some p) ∨ (a ≠ k ∧ f.Up a p) := by
  unfold Up move
  obtain ⟨x, hx⟩ := Option.isSome_iff_exists.1 hk
  by_cases ha : a = k
  · subst ha
    simp [hx]
  · simp [ha]

theorem path_of_move {o : Option κ} {a b : κ} (hk : (f k).isSome) (h : TransGen (f.move k o).Up a b) :
    TransGen f.Up a b ∨ (ReflTransGen f.Up a k ∧ ∃ p, o = some p ∧ ReflTransGen f.Up p b) := by
  induction h with
  | single hup =>
    rcases (up_move hk).1 hup with ⟨rfl, ho⟩ | ⟨-, hup⟩
    · exact .inr ⟨.refl, _, ho, .refl⟩
    · exact .inl (.single hup)
  | tail _ hup ih =>
    rcases (up_move hk).1 hup with ⟨rfl, ho⟩ | ⟨-, hup⟩
    · rcases ih with ih | ⟨ih, -⟩
      · exact .inr ⟨ih.to_reflTransGen, _, ho, .refl⟩
      · exact .inr ⟨ih, _, ho, .refl⟩
    · rcases ih with ih | ⟨hpath, p, ho, ih⟩
      · exact .inl (ih.tail hup)
      · exact .inr ⟨hpath, p, ho, ih.tail hup⟩

theorem Acyclic.path_move (hf : f.Acyclic) {o : Option κ} {a : κ} (hk : (f k).isSome) (h : ReflTransGen f.Up a k) :
    ReflTransGen (f.move k o).Up a k := by
  induction h using ReflTransGen.head_induction_on with
  | refl => exact .refl
  | @head a b hup hpath ih =>
    refine .head ((up_move hk).2 (.inr ⟨?_, hup⟩)) ih
    rintro rfl
    exact hf a (.head' hup hpath)

/-- **A move makes no circle if and only if the new parent is not below the node.** -/
theorem Acyclic.move_iff (hf : f.Acyclic) {o : Option κ} (hk : (f k).isSome) :
    (f.move k o).Acyclic ↔ ∀ p, o = some p → ¬ ReflTransGen f.Up p k := by
  constructor
  · intro h p ho hpath
    exact h k (.head' ((up_move hk).2 (.inl ⟨rfl, ho⟩)) (hf.path_move hk hpath))
  · intro h a ha
    rcases path_of_move hk ha with ha | ⟨hak, p, ho, hpa⟩
    · exact hf a ha
    · exact h p ho (hpa.trans hak)

end Forest

/-! ## Lists of children -/

/-- The parent and the children of each node. -/
def Links (κ : Type*) := κ → Option (Option κ × List κ)

namespace Links

variable {κ : Type*} {L L' : Links κ} {k m a c : κ} {o : Option κ} {ids : List κ}

/-- The parents. -/
def parents (L : Links κ) : Forest κ := fun k => (L k).map Prod.fst

/-- The children of `k`, none if `k` is no node. -/
def children (L : Links κ) (k : κ) : List κ := ((L k).map Prod.snd).getD []

/-- A forest in which every node lists its children, without duplicates. -/
structure Linked (L : Links κ) : Prop where
  closed : L.parents.Closed
  acyclic : L.parents.Acyclic
  nodup : ∀ k, (L.children k).Nodup
  exact : ∀ k c, (L k).isSome → (c ∈ L.children k ↔ L.parents.Up c k)

theorem children_of_some (h : L k = some (o, ids)) : L.children k = ids := by
  simp [children, h]

theorem children_of_none (h : L k = none) : L.children k = [] := by
  simp [children, h]

theorem isSome_parents : (L.parents k).isSome ↔ (L k).isSome := by
  simp [parents]

theorem up_iff : L.parents.Up c k ↔ ∃ ids, L c = some (some k, ids) := by
  simp [Forest.Up, parents]

theorem isSome_of_up (h : L.parents.Up c k) : (L c).isSome := by
  obtain ⟨ids, h⟩ := up_iff.1 h
  rw [h]
  rfl

theorem up_unique (h : L.parents.Up c k) (h' : L.parents.Up c a) : k = a :=
  Option.some.inj (Option.some.inj (h.symm.trans h'))

theorem Linked.mem_children (h : L.Linked) : c ∈ L.children k ↔ L.parents.Up c k := by
  cases hk : L k with
  | some x => exact h.exact k c (by rw [hk]; rfl)
  | none =>
    rw [children_of_none hk]
    refine iff_of_false List.not_mem_nil fun hup => ?_
    have hsome := isSome_parents.1 (h.closed c k hup)
    rw [hk] at hsome
    cases hsome

theorem Linked.isSome_child (h : L.Linked) (hc : c ∈ L.children k) : (L c).isSome :=
  isSome_of_up (h.mem_children.1 hc)

theorem Linked.nodup_flatMap (h : L.Linked) (hids : ids.Nodup) : (ids.flatMap L.children).Nodup := by
  refine List.nodup_flatMap.2 ⟨fun k _ => h.nodup k, ?_⟩
  refine hids.imp ?_
  intro a b hab
  refine List.disjoint_left.2 fun c hca hcb => hab ?_
  exact up_unique (h.mem_children.1 hca) (h.mem_children.1 hcb)

/-- The children of the children. -/
def grandchildren (L : Links κ) (m : κ) : List κ := (L.children m).flatMap L.children

theorem bind_fst_eq_some : (L m).bind Prod.fst = some a ↔ L.parents.Up m a := by
  simp [Forest.Up, parents, Option.bind_eq_some_iff]

theorem Linked.mem_grandchildren (h : L.Linked) :
    c ∈ L.grandchildren m ↔ ∃ b, L.parents.Up c b ∧ L.parents.Up b m := by
  simp only [grandchildren, List.mem_flatMap, h.mem_children]
  constructor
  · rintro ⟨b, hb, hc⟩
    exact ⟨b, hc, hb⟩
  · rintro ⟨b, hc, hb⟩
    exact ⟨b, hb, hc⟩

theorem Linked.parent_stays (h : L.Linked) (hm : L.parents.Up m a) : a ≠ m ∧ a ∉ L.children m := by
  refine ⟨(h.acyclic.ne hm).symm, fun hmem => ?_⟩
  exact h.acyclic.ne_of_up_up hm (h.mem_children.1 hmem) rfl

/-- What is cut out, and the grandchildren, are not below the parent otherwise. -/
theorem Linked.cut_apart (h : L.Linked) (hm : L.parents.Up m a) (hc : L.parents.Up c a) :
    c ∉ L.children m ∧ c ∉ L.grandchildren m := by
  constructor
  · intro hmem
    obtain rfl := up_unique hc (h.mem_children.1 hmem)
    exact h.acyclic.ne hm rfl
  · intro hg
    obtain ⟨b, hcb, hbm⟩ := h.mem_grandchildren.1 hg
    obtain rfl := up_unique hc hcb
    exact h.acyclic.ne_of_up_up hm hbm rfl

variable [DecidableEq κ]

instance : Decidable (L.parents.Up c a) := inferInstanceAs (Decidable (L.parents c = some (some a)))

/-- A new node, entered in the list of its parent. -/
def insert (L : Links κ) (k : κ) (o : Option κ) : Links κ := fun a =>
  if a = k then some (o, [])
  else (L a).map fun x => (x.1, if o = some a then x.2 ++ [k] else x.2)

theorem parents_insert (hk : L k = none) :
    (L.insert k o).parents = L.parents.overlay (Forest.single k o) := by
  funext a
  unfold parents insert Forest.overlay Forest.single
  by_cases ha : a = k
  · subst ha
    simp [hk]
  · simp only [if_neg ha, Option.map_map, Option.or_none]
    rfl

/-- **A new node, linked with its parent, keeps a linked forest.** -/
theorem Linked.insert (h : L.Linked) (hk : L k = none) (ho : ∀ p, o = some p → (L p).isSome) :
    (L.insert k o).Linked := by
  have hne : o ≠ some k := by
    rintro rfl
    have hsome := ho k rfl
    rw [hk] at hsome
    cases hsome
  have hkp : L.parents k = none := by simp [parents, hk]
  -- no node has `k` for its parent
  have hnoup : ∀ c, ¬ L.parents.Up c k := by
    intro c hc
    have hsome := h.closed c k hc
    rw [hkp] at hsome
    cases hsome
  have hup : ∀ c a, (L.insert k o).parents.Up c a ↔ L.parents.Up c a ∨ (c = k ∧ o = some a) := by
    intro c a
    rw [parents_insert hk, Forest.up_overlay, Forest.up_single]
    constructor
    · rintro (hc | ⟨-, hc⟩)
      · exact .inl hc
      · exact .inr hc
    · rintro (hc | ⟨rfl, hc⟩)
      · exact .inl hc
      · exact .inr ⟨hkp, rfl, hc⟩
  refine ⟨?_, ?_, ?_, ?_⟩
  · rw [parents_insert hk]
    exact h.closed.insert fun p hp => isSome_parents.2 (ho p hp)
  · rw [parents_insert hk]
    exact h.acyclic.insert h.closed hne
  · intro a
    by_cases ha : a = k
    · simp [children, Links.insert, ha]
    · cases hL : L a with
      | none => simp [children, Links.insert, ha, hL]
      | some x =>
        have hnodup := h.nodup a
        rw [children, hL] at hnodup
        have hfresh : k ∉ x.2 := by
          intro hmem
          have hc : k ∈ L.children a := by rwa [children, hL]
          have hsome := h.isSome_child hc
          rw [hk] at hsome
          cases hsome
        simp only [children, Links.insert, if_neg ha, hL, Option.map_some, Option.getD_some]
        split_ifs
        · exact List.nodup_append.2 ⟨hnodup, List.nodup_singleton k, by
            rintro b hb _ hk' rfl
            exact hfresh (List.mem_singleton.1 hk' ▸ hb)⟩
        · exact hnodup
  · intro a c hsome
    rw [hup]
    by_cases ha : a = k
    · subst ha
      simp only [children, Links.insert, if_pos]
      refine iff_of_false List.not_mem_nil ?_
      rintro (hc | ⟨-, hc⟩)
      · exact hnoup c hc
      · exact hne hc
    · cases hL : L a with
      | none => simp [Links.insert, ha, hL] at hsome
      | some x =>
        have hex := h.exact a c (by rw [hL]; rfl)
        rw [children, hL] at hex
        simp only [children, Links.insert, if_neg ha, hL, Option.map_some, Option.getD_some]
        simp only [Option.map_some, Option.getD_some] at hex
        split_ifs with ho'
        · rw [List.mem_append, hex, List.mem_singleton]
          simp [ho']
        · rw [hex]
          simp [ho']

/-! ### Cutting out -/

/-- Node `m` is cut out with its children; its parent takes over its grandchildren. -/
def splice (L : Links κ) (m : κ) : Links κ := fun a =>
  if a = m ∨ a ∈ L.children m then none
  else (L a).map fun x =>
    (if a ∈ L.grandchildren m then (L m).bind Prod.fst else x.1,
      if (L m).bind Prod.fst = some a then x.2.filter (· ≠ m) ++ L.grandchildren m else x.2)

theorem Linked.up_splice (h : L.Linked) : (L.splice m).parents.Up c a ↔
    c ≠ m ∧ c ∉ L.children m ∧
      ((c ∈ L.grandchildren m ∧ L.parents.Up m a) ∨ (c ∉ L.grandchildren m ∧ L.parents.Up c a)) := by
  by_cases hcut : c = m ∨ c ∈ L.children m
  · refine iff_of_false ?_ ?_
    · simp [Forest.Up, parents, Links.splice, hcut]
    · rintro ⟨hm, hmem, -⟩
      exact hcut.elim hm hmem
  · obtain ⟨hm, hmem⟩ := not_or.1 hcut
    by_cases hg : c ∈ L.grandchildren m
    · obtain ⟨b, hcb, -⟩ := h.mem_grandchildren.1 hg
      obtain ⟨ids, hL⟩ := up_iff.1 hcb
      have hfst : (L.splice m).parents.Up c a ↔ (L m).bind Prod.fst = some a := by
        simp [Forest.Up, parents, Links.splice, hm, hmem, hg, hL]
      rw [hfst, bind_fst_eq_some]
      simp [hm, hmem, hg]
    · have hfst : (L.splice m).parents.Up c a ↔ L.parents.Up c a := by
        simp [Forest.Up, parents, Links.splice, hm, hmem, hg, Function.comp_def]
      rw [hfst]
      simp [hm, hmem, hg]

theorem isSome_splice : ((L.splice m) a).isSome ↔ (L a).isSome ∧ a ≠ m ∧ a ∉ L.children m := by
  by_cases hcut : a = m ∨ a ∈ L.children m
  · refine iff_of_false ?_ ?_
    · simp [splice, hcut]
    · rintro ⟨-, hm, hmem⟩
      exact hcut.elim hm hmem
  · obtain ⟨hm, hmem⟩ := not_or.1 hcut
    simp only [splice, if_neg hcut, Option.isSome_map]
    simp [hm, hmem]

theorem children_splice (hs : ((L.splice m) a).isSome) : (L.splice m).children a =
    if L.parents.Up m a then (L.children a).filter (· ≠ m) ++ L.grandchildren m else L.children a := by
  obtain ⟨hL, hm, hmem⟩ := isSome_splice.1 hs
  obtain ⟨x, hx⟩ := Option.isSome_iff_exists.1 hL
  have hcut : ¬ (a = m ∨ a ∈ L.children m) := not_or.2 ⟨hm, hmem⟩
  by_cases hup : L.parents.Up m a
  · rw [if_pos hup, children_of_some hx, children]
    simp only [splice, if_neg hcut, hx, bind_fst_eq_some.2 hup, if_true, Option.map_some, Option.getD_some]
  · rw [if_neg hup, children_of_some hx, children]
    simp only [splice, if_neg hcut, hx, mt bind_fst_eq_some.1 hup, if_false, Option.map_some, Option.getD_some]

theorem Linked.transGen_of_splice (h : L.Linked) (hca : (L.splice m).parents.Up c a) : TransGen L.parents.Up c a := by
  obtain ⟨-, -, ⟨hg, hup⟩ | ⟨-, hup⟩⟩ := h.up_splice.1 hca
  · obtain ⟨b, hcb, hbm⟩ := h.mem_grandchildren.1 hg
    exact .tail (.tail (.single hcb) hbm) hup
  · exact .single hup

/-- **Cutting out a node with its children keeps a linked forest.** -/
theorem Linked.splice (h : L.Linked) (m : κ) : (L.splice m).Linked := by
  refine ⟨?_, ?_, ?_, ?_⟩
  · intro c a hca
    obtain ⟨-, hmem, ⟨-, hup⟩ | ⟨hg, hup⟩⟩ := h.up_splice.1 hca
    · obtain ⟨hne, hnot⟩ := h.parent_stays hup
      exact isSome_parents.2 (isSome_splice.2 ⟨isSome_parents.1 (h.closed m a hup), hne, hnot⟩)
    · refine isSome_parents.2 (isSome_splice.2 ⟨isSome_parents.1 (h.closed c a hup), ?_, ?_⟩)
      · rintro rfl
        exact hmem (h.mem_children.2 hup)
      · exact fun ha => hg (h.mem_grandchildren.2 ⟨a, hup, h.mem_children.1 ha⟩)
  · exact h.acyclic.of_ancestors fun c a hca => h.transGen_of_splice hca
  · intro a
    cases hs : (L.splice m) a with
    | none =>
      rw [children_of_none hs]
      exact List.nodup_nil
    | some x =>
      rw [children_splice (by rw [hs]; rfl)]
      split_ifs with hup
      · refine List.nodup_append.2 ⟨(h.nodup a).filter _, h.nodup_flatMap (h.nodup m), ?_⟩
        rintro c hc _ hg rfl
        obtain ⟨hc, -⟩ := List.mem_filter.1 hc
        exact (h.cut_apart hup (h.mem_children.1 hc)).2 hg
      · exact h.nodup a
  · intro a c hsome
    obtain ⟨hL, ha, hmem⟩ := isSome_splice.1 hsome
    rw [h.up_splice, children_splice hsome]
    split_ifs with hup
    · simp only [List.mem_append, List.mem_filter, h.mem_children, ne_eq, decide_not, Bool.not_eq_true',
        decide_eq_false_iff_not, hup, and_true]
      constructor
      · rintro (⟨hc, hcm⟩ | hg)
        · obtain ⟨hnot, hg⟩ := h.cut_apart hup hc
          rw [h.mem_children] at hnot
          exact ⟨hcm, hnot, .inr ⟨hg, hc⟩⟩
        · obtain ⟨b, hcb, hbm⟩ := h.mem_grandchildren.1 hg
          refine ⟨?_, ?_, .inl hg⟩
          · rintro rfl
            exact h.acyclic.ne_of_up_up hcb hbm rfl
          · intro hcm
            obtain rfl := up_unique hcb hcm
            exact h.acyclic.ne hbm rfl
      · rintro ⟨hcm, -, hg | ⟨-, hc⟩⟩
        · exact .inr hg
        · exact .inl ⟨hc, hcm⟩
    · rw [h.mem_children]
      constructor
      · intro hc
        refine ⟨?_, ?_, .inr ⟨?_, hc⟩⟩
        · rintro rfl
          exact hup hc
        · exact fun hcm => ha (up_unique hc (h.mem_children.1 hcm))
        · intro hg
          obtain ⟨b, hcb, hbm⟩ := h.mem_grandchildren.1 hg
          obtain rfl := up_unique hc hcb
          exact hmem (h.mem_children.2 hbm)
      · rintro ⟨-, -, ⟨-, hm⟩ | ⟨-, hc⟩⟩
        · exact absurd hm hup
        · exact hc

/-- The ancestors that stay: of a node that stays, they are reached as before; of one that is cut out, through
    its parent. -/
theorem Linked.path_splice (h : L.Linked) (ha : a ≠ m ∧ a ∉ L.children m) (hp : ReflTransGen L.parents.Up c a) :
    if c = m ∨ c ∈ L.children m then ∃ p, L.parents.Up m p ∧ ReflTransGen (L.splice m).parents.Up p a
    else ReflTransGen (L.splice m).parents.Up c a := by
  induction hp using ReflTransGen.head_induction_on with
  | refl => rw [if_neg (not_or.2 ha)]
  | @head c b hcb _ ih =>
    by_cases hc : c = m
    · -- the parent of what is cut out stays
      subst hc
      rw [if_neg (not_or.2 (h.parent_stays hcb))] at ih
      rw [if_pos (.inl rfl)]
      exact ⟨b, hcb, ih⟩
    · by_cases hchild : c ∈ L.children m
      · obtain rfl := up_unique hcb (h.mem_children.1 hchild)
        rw [if_pos (.inl rfl)] at ih
        rw [if_pos (.inr hchild)]
        exact ih
      · rw [if_neg (not_or.2 ⟨hc, hchild⟩)]
        by_cases hb : b = m ∨ b ∈ L.children m
        · -- a grandchild, which is taken over
          rw [if_pos hb] at ih
          obtain ⟨p, hp, hpath⟩ := ih
          have hbm : b ∈ L.children m := by
            obtain rfl | hb := hb
            · exact absurd (h.mem_children.2 hcb) hchild
            · exact hb
          have hg : c ∈ L.grandchildren m := h.mem_grandchildren.2 ⟨b, hcb, h.mem_children.1 hbm⟩
          exact .head (h.up_splice.2 ⟨hc, hchild, .inl ⟨hg, hp⟩⟩) hpath
        · rw [if_neg hb] at ih
          have hg : c ∉ L.grandchildren m := by
            intro hg
            obtain ⟨b', hcb', hbm⟩ := h.mem_grandchildren.1 hg
            obtain rfl := up_unique hcb hcb'
            exact hb (.inr (h.mem_children.2 hbm))
          exact .head (h.up_splice.2 ⟨hc, hchild, .inr ⟨hg, hcb⟩⟩) ih

/-- **The ancestors among the nodes that stay are the same.** -/
theorem Linked.ancestors_splice (h : L.Linked) (hc : ((L.splice m) c).isSome) (ha : ((L.splice m) a).isSome) :
    TransGen (L.splice m).parents.Up c a ↔ TransGen L.parents.Up c a := by
  constructor
  · intro hpath
    exact hpath.lift' id fun c a hca => h.transGen_of_splice hca
  · intro hpath
    have hcstays := (isSome_splice.1 hc).2
    have hstays := h.path_splice (isSome_splice.1 ha).2 hpath.to_reflTransGen
    rw [if_neg (not_or.2 hcstays)] at hstays
    obtain heq | hstays := reflTransGen_iff_eq_or_transGen.1 hstays
    · subst heq
      exact absurd hpath (h.acyclic _)
    · exact hstays

end Links

end Lib
