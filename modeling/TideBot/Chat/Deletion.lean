/-
  Deleting a message (`models/chats.py`, `delete_message_from_history`).

  The message goes with its children, and its parent takes over its grandchildren: what becomes of the links
  is `Links.splice`.  The new current message is looked for from the parent, or from the roots, down the
  last children (`lastLeaf`); in a forest, this way ends at a leaf (`lastLeaf_leaf`).
-/
import TideBot.Chat.Links

namespace TideBot

open Lib Relation

section
variable {m m' : PyDict} {k k' p : Text} {ids : List Text} {h h' : ChatHistory} {ms : Dict Text PyDict}

/-! ## What is read of a message -/

theorem ConsistentHistory.asKey (h₀ : ConsistentHistory h) (hm : h.messages.get k = some m) :
    (m.fetch "parentId").asKey = some (parentIdOf m) := by
  obtain hp | ⟨p, hp⟩ := h₀.parent k m hm
  · simp [parentIdOf, hp, Json.asKey]
  · simp [parentIdOf, hp, Json.asKey]

theorem ConsistentHistory.or_children (h₀ : ConsistentHistory h) (hm : h.messages.get k = some m) :
    (m.fetch "childrenIds").or (.arr []) = Json.strs (childrenIdsOf m) := by
  obtain hnull | hlist := h₀.lists k m hm
  · rw [childrenIdsOf, hnull]
    rfl
  · rw [fetch_of_get hlist.get, or_strs]

theorem ConsistentHistory.last_children (h₀ : ConsistentHistory h) (hm : h.messages.get k = some m) :
    (m.fetchD "childrenIds" (.arr [])).last = some ((childrenIdsOf m).getLast?.map .str) := by
  obtain hnull | hlist := h₀.lists k m hm
  · have hnone : childrenIdsOf m = [] := by rw [childrenIdsOf, hnull]
    rw [hnone, PyDict.fetchD]
    rw [PyDict.fetch] at hnull
    cases hget : m.get (.lit "childrenIds") with
    | none => rfl
    | some v =>
      rw [hget, Option.getD_some] at hnull
      rw [Option.getD_some, hnull]
      rfl
  · rw [PyDict.fetchD, hlist.get, Option.getD_some, Json.last_strs]

theorem children_links (hm : h.messages.get k = some m) : h.links.children k = childrenIdsOf m :=
  Links.children_of_some (links_of_get hm)

theorem idsIn_of_or {value : Json} (h : value.or (.arr []) = Json.strs ids) :
    idsIn ms value = some (ids.filter fun id => (ms.get id).isSome) := by
  have hkeys : (ids.map Json.str).mapM Json.asKey = some (ids.map some) := by
    rw [List.mapM_map]
    exact List.mapM_pure
  have hreduce : (ids.map some).reduceOption = ids := by simp [List.reduceOption, List.filterMap_map]
  simp only [idsIn, h, Json.iter_strs, Option.bind_eq_bind, Option.bind_some, hkeys, hreduce]
  rfl

theorem ConsistentHistory.idsIn_children (h₀ : ConsistentHistory h) (hm : h.messages.get k = some m) :
    idsIn h.messages (m.fetch "childrenIds") = some (h.links.children k) := by
  rw [idsIn_of_or (h₀.or_children hm), children_links hm]
  refine congrArg some (List.filter_eq_self.2 fun c hc => ?_)
  rw [← children_links hm] at hc
  exact isSome_links.1 (h₀.linked.isSome_child hc)

theorem ConsistentHistory.grandchildrenOf (h₀ : ConsistentHistory h) (hids : ∀ id ∈ ids, (h.messages.get id).isSome) :
    grandchildrenOf h.messages ids = some (ids.flatMap h.links.children) := by
  induction ids with
  | nil => rfl
  | cons id ids ih =>
    obtain ⟨m, hm⟩ := Option.isSome_iff_exists.1 (hids id List.mem_cons_self)
    have hrest := ih fun id' hid' => hids id' (List.mem_cons_of_mem _ hid')
    simp only [TideBot.grandchildrenOf, hm, Option.map_some, Option.getD_some, h₀.idsIn_children hm, hrest,
      Option.bind_eq_bind, Option.bind_some, List.flatMap_cons]
    rfl

/-! ## The links are rewritten -/

theorem ConsistentHistory.adopt (h₀ : ConsistentHistory h) {g : List Text} {o : Option Text}
    (ho : ∀ p, o = some p → (h.messages.get p).isSome) :
    ∃ ms, adopt h.messages k g o = some ms ∧ ∀ a, ms.get a = (h.messages.get a).map fun m =>
      if o = some a then m.put "childrenIds" (Json.strs ((childrenIdsOf m).filter (· ≠ k) ++ g)) else m := by
  cases o with
  | none => exact ⟨h.messages, rfl, fun a => by simp⟩
  | some p =>
    obtain ⟨parent, hp⟩ := Option.isSome_iff_exists.1 (ho p rfl)
    have hfilter : ((childrenIdsOf parent).map Json.str).filter (fun s => !s.eqStr k) =
        ((childrenIdsOf parent).filter (· ≠ k)).map Json.str := by
      rw [List.filter_map]
      congr 1
      refine List.filter_congr fun c _ => ?_
      simp [Json.eqStr]
    refine ⟨h.messages.set p (parent.put "childrenIds" (Json.strs ((childrenIdsOf parent).filter (· ≠ k) ++ g))),
      ?_, fun a => ?_⟩
    · simp only [TideBot.adopt, hp, h₀.or_children hp, Json.iter_strs, Option.bind_eq_bind, Option.bind_some, hfilter]
      rw [Json.strs, List.map_append]
    · rw [Dict.get_set]
      by_cases ha : a = p
      · simp [ha, hp]
      · simp [ha, Ne.symm ha]

theorem get_foldl_putAt {key : String} {v : Json} : ∀ (ids : List Text) (d : Dict Text PyDict), ids.Nodup →
    (ids.foldl (fun ms id => putAt ms id key v) d).get k =
      if k ∈ ids then (d.get k).map fun m => m.put key v else d.get k := by
  intro ids
  induction ids with
  | nil => exact fun d _ => by simp
  | cons id ids ih =>
    intro d hnd
    rw [List.nodup_cons] at hnd
    have hput : (putAt d id key v).get k = if k = id then (d.get k).map fun m => m.put key v else d.get k := by
      unfold putAt
      by_cases hk : k = id
      · subst hk
        cases hd : d.get k <;> simp [hd]
      · cases hd : d.get id <;> simp [hk, Dict.get_set]
    rw [List.foldl_cons, ih _ hnd.2, hput]
    by_cases hk : k = id
    · subst hk
      simp [hnd.1]
    · simp [hk]

/-- What the deletion of `k` makes of the message that stays under `a`. -/
def afterCut (L : Links Text) (k : Text) (parentId : Json) (o : Option Text) (a : Text) (m : PyDict) : PyDict :=
  let m := if o = some a then
    m.put "childrenIds" (Json.strs ((childrenIdsOf m).filter (· ≠ k) ++ L.grandchildren k)) else m
  if a ∈ L.grandchildren k then m.put "parentId" parentId else m

section
variable {L : Links Text} {a : Text} {o : Option Text} {message : PyDict}

theorem get_afterCut {key : Text} {parentId : Json} (hp : key ≠ .lit "parentId") (hc : key ≠ .lit "childrenIds") :
    (afterCut L k parentId o a m).get key = m.get key := by
  unfold afterCut
  split_ifs <;> simp [PyDict.put, Dict.get_set, hp, hc]

theorem fetch_parentId_afterCut {parentId : Json} : (afterCut L k parentId o a m).fetch "parentId" =
    if a ∈ L.grandchildren k then parentId else m.fetch "parentId" := by
  unfold afterCut
  split_ifs <;> simp [PyDict.fetch_put]

theorem parentIdOf_afterCut : parentIdOf (afterCut L k (message.fetch "parentId") o a m) =
    if a ∈ L.grandchildren k then parentIdOf message else parentIdOf m := by
  rw [parentIdOf, fetch_parentId_afterCut]
  split_ifs <;> rfl

theorem get_childrenIds_afterCut (parentId : Json) : (afterCut L k parentId o a m).get (.lit "childrenIds") =
    if o = some a then some (Json.strs ((childrenIdsOf m).filter (· ≠ k) ++ L.grandchildren k))
    else m.get (.lit "childrenIds") := by
  unfold afterCut
  split_ifs <;> simp [PyDict.get_put]

theorem childrenIdsOf_afterCut {parentId : Json} : childrenIdsOf (afterCut L k parentId o a m) =
    if o = some a then (childrenIdsOf m).filter (· ≠ k) ++ L.grandchildren k else childrenIdsOf m := by
  by_cases ho : o = some a
  · rw [if_pos ho]
    exact childrenIdsOf_strs ((get_childrenIds_afterCut _).trans (if_pos ho))
  · rw [if_neg ho, childrenIdsOf, childrenIdsOf, fetch_congr ((get_childrenIds_afterCut _).trans (if_neg ho))]

end

/-! ## The way down to a leaf -/

theorem lastLeaf_nil {ms : Dict Text PyDict} {visited : List Text} {current : Json} (fuel : ℕ) :
    lastLeaf ms fuel visited current (.arr []) = some current := by
  cases fuel <;> rfl

theorem length_unvisited_le (ms : Dict Text PyDict) (visited : List Text) :
    (ms.keys.filter fun a => a ∉ visited).length ≤ ms.size := by
  refine (List.length_filter_le _ _).trans_eq ?_
  rw [Dict.keys, List.length_map, Dict.size]

theorem length_unvisited_lt {id : Text} {visited : List Text} (hin : id ∈ ms.keys) (hvisited : id ∉ visited) :
    (ms.keys.filter fun a => a ∉ id :: visited).length < (ms.keys.filter fun a => a ∉ visited).length := by
  have hmem : id ∈ ms.keys.filter fun a => a ∉ visited := List.mem_filter.2 ⟨hin, by simpa using hvisited⟩
  have hsub : (ms.keys.filter fun a => a ∉ id :: visited) =
      ((ms.keys.filter fun a => a ∉ visited).filter fun a => a ≠ id) := by
    rw [List.filter_filter]
    refine List.filter_congr fun a _ => ?_
    simp
  rw [hsub]
  exact List.length_filter_lt_length_iff_exists.2 ⟨id, hmem, by simp⟩

/-- The way down meets every message once: with the number of messages and one more, the fuel
    does not end it. -/
theorem lastLeaf_fuel {ms : Dict Text PyDict} : ∀ (fuel : ℕ) (visited : List Text) (current childIds : Json),
    (ms.keys.filter fun id => id ∉ visited).length < fuel →
      lastLeaf ms (fuel + 1) visited current childIds = lastLeaf ms fuel visited current childIds := by
  intro fuel
  induction fuel with
  | zero => exact fun _ _ _ hfuel => absurd hfuel (Nat.not_lt_zero _)
  | succ fuel ih =>
    intro visited current childIds hfuel
    rw [lastLeaf, lastLeaf]
    refine Option.bind_congr fun last _ => ?_
    cases last with
    | none => rfl
    | some next =>
      refine Option.bind_congr fun key _ => ?_
      cases key with
      | none => rfl
      | some id =>
        simp only
        split_ifs with hvisited
        · rfl
        · cases hm : ms.get id with
          | none => rw [Option.map_none, Option.getD_none, lastLeaf_nil, lastLeaf_nil]
          | some m =>
            refine ih _ _ _ ?_
            have hlt := length_unvisited_lt (Dict.mem_keys_iff.2 ⟨m, hm⟩) hvisited
            omega

/-- **The way down ends at a leaf.**  What was visited lies above. -/
theorem ConsistentHistory.lastLeaf_leaf (h₀ : ConsistentHistory h) : ∀ (fuel : ℕ) (visited : List Text) (c : Text)
    (childIds : Json), (h.messages.keys.filter fun id => id ∉ visited).length < fuel → (h.messages.get c).isSome →
    (∀ v ∈ visited, ReflTransGen h.links.parents.Up c v) →
    childIds.last = some ((h.links.children c).getLast?.map .str) →
    ∃ leaf, lastLeaf h.messages fuel visited (.str c) childIds = some (.str leaf) ∧
      (h.messages.get leaf).isSome ∧ h.links.children leaf = [] := by
  intro fuel
  induction fuel with
  | zero => exact fun _ _ _ hfuel => absurd hfuel (Nat.not_lt_zero _)
  | succ fuel ih =>
    intro visited c childIds hfuel hc habove hlast
    rw [lastLeaf, hlast]
    cases hnext : (h.links.children c).getLast? with
    | none => exact ⟨c, rfl, hc, List.getLast?_eq_none_iff.1 hnext⟩
    | some next =>
      have hmem : next ∈ h.links.children c := List.mem_of_getLast? hnext
      have hup := h₀.linked.mem_children.1 hmem
      obtain ⟨m, hm⟩ := Option.isSome_iff_exists.1 (isSome_links.1 (h₀.linked.isSome_child hmem))
      have hnew : next ∉ visited := by
        intro hvisited
        exact h₀.linked.acyclic next (.head' hup (habove next hvisited))
      have hlt := length_unvisited_lt (Dict.mem_keys_iff.2 ⟨m, hm⟩) hnew
      have habove' : ∀ v ∈ next :: visited, ReflTransGen h.links.parents.Up next v := by
        intro v hv
        obtain rfl | hv := List.mem_cons.1 hv
        · exact .refl
        · exact .head hup (habove v hv)
      obtain ⟨leaf, hleaf, hspec⟩ := ih (next :: visited) next (m.fetchD "childrenIds" (.arr [])) (by omega)
        (by rw [hm]; rfl) habove' (by rw [h₀.last_children hm, children_links hm])
      refine ⟨leaf, ?_, hspec⟩
      simp only [Option.map_some, Option.bind_eq_bind, Option.bind_some, Json.asKey, if_neg hnew, hm, Option.getD_some]
      exact hleaf

theorem ConsistentHistory.lastLeaf_roots (h₀ : ConsistentHistory h) :
    (∀ a, h.messages.get a = none) ∧ lastLeaf h.messages (h.messages.size + 1) [] .null
        (Json.strs ((h.messages.entries.filter fun e => (e.2.fetch "parentId").isNone).map Prod.fst)) = some .null ∨
    ∃ leaf, lastLeaf h.messages (h.messages.size + 1) [] .null
        (Json.strs ((h.messages.entries.filter fun e => (e.2.fetch "parentId").isNone).map Prod.fst)) = some (.str leaf) ∧
      (h.messages.get leaf).isSome ∧ h.links.children leaf = [] := by
  set roots := (h.messages.entries.filter fun e => (e.2.fetch "parentId").isNone).map Prod.fst with hroots
  have hroot : ∀ {r m}, h.messages.get r = some m → parentIdOf m = none → r ∈ roots := by
    intro r m hm hparent
    have hnone : (m.fetch "parentId").isNone = true := by
      obtain hp | ⟨p, hp⟩ := h₀.parent r m hm
      · rw [hp]
        rfl
      · rw [parentIdOf, hp] at hparent
        cases hparent
    exact List.mem_map.2 ⟨(r, m), List.mem_filter.2 ⟨Dict.mem_entries_iff.2 hm, hnone⟩, rfl⟩
  rw [lastLeaf, Json.last_strs]
  cases hlast : roots.getLast? with
  | none =>
    left
    refine ⟨fun a => ?_, rfl⟩
    -- finitely many messages without a root are none
    by_contra hsome
    have hfin : {k | (h.links.parents k).isSome}.Finite := by
      refine (List.finite_toSet h.messages.keys).subset ?_
      intro k hk
      exact Dict.mem_keys_iff.2 (Option.isSome_iff_exists.1 (isSome_links.1 (Links.isSome_parents.1 hk)))
    obtain ⟨r, hr⟩ := Forest.exists_root hfin h₀.linked.closed h₀.linked.acyclic
      (Links.isSome_parents.2 (isSome_links.2 (Option.isSome_iff_ne_none.2 hsome)))
    obtain ⟨x, hx, hnone⟩ := Option.map_eq_some_iff.1 hr
    obtain ⟨m, hm, rfl⟩ := links_eq_some.1 hx
    have hmem := hroot hm hnone
    rw [List.getLast?_eq_none_iff.1 hlast] at hmem
    cases hmem
  | some r =>
    right
    have hmem := List.mem_of_getLast? hlast
    obtain ⟨⟨r', m⟩, hentry, rfl⟩ := List.mem_map.1 hmem
    have hm := Dict.mem_entries_iff.1 (List.mem_filter.1 hentry).1
    have hlt := length_unvisited_lt (Dict.mem_keys_iff.2 ⟨m, hm⟩) (List.not_mem_nil (a := r'))
    have hall := length_unvisited_le h.messages []
    obtain ⟨leaf, hleaf, hspec⟩ := h₀.lastLeaf_leaf h.messages.size [r'] r' (m.fetchD "childrenIds" (.arr [])) (by omega)
      (by rw [hm]; rfl) (by simpa using ReflTransGen.refl) (by rw [h₀.last_children hm, children_links hm])
    refine ⟨leaf, ?_, hspec⟩
    simp only [Option.map_some, Option.bind_eq_bind, Option.bind_some, Json.asKey, if_neg List.not_mem_nil, hm, Option.getD_some]
    exact hleaf

/-! ## The deletion -/

/-- **What a deletion does**: to every message, to the links, and to the current message. -/
theorem get_of_cut {messages final : Dict Text PyDict} {cut : Text → Prop} [DecidablePred cut]
    {f : Text → PyDict → PyDict} (hget : ∀ a, final.get a = if cut a then none else (messages.get a).map (f a)) {a : Text}
    {m' : PyDict} (hm' : final.get a = some m') : ∃ m, messages.get a = some m ∧ m' = f a m := by
  rw [hget] at hm'
  split_ifs at hm'
  obtain ⟨m, hm, rfl⟩ := Option.map_eq_some_iff.1 hm'
  exact ⟨m, hm, rfl⟩

theorem ConsistentHistory.delete (h₀ : ConsistentHistory h) {message : PyDict} (hm : h.messages.get k = some message) :
    ∃ h', deleteMessageFromHistory h k = some (h', k :: h.links.children k) ∧
      (∀ a, h'.messages.get a = if a = k ∨ a ∈ h.links.children k then none
        else (h.messages.get a).map (afterCut h.links k (message.fetch "parentId") (parentIdOf message) a)) ∧
      h'.links = h.links.splice k ∧ ConsistentHistory h' ∧
      ((∀ a, h'.messages.get a = none) ∧ h'.currentId = none ∨
        ∃ leaf, h'.currentId = some leaf ∧ (h'.messages.get leaf).isSome ∧ h'.links.children leaf = []) := by
  have hgrand : TideBot.grandchildrenOf h.messages (h.links.children k) = some (h.links.grandchildren k) :=
    h₀.grandchildrenOf fun id hid => isSome_links.1 (h₀.linked.isSome_child hid)
  have hLk := links_of_get hm
  have hparent : ∀ p, parentIdOf message = some p → h.links.parents.Up k p := by
    intro p hp
    exact Links.bind_fst_eq_some.1 (by rw [hLk]; exact hp)
  obtain ⟨ms, hadopt, hms⟩ := h₀.adopt (k := k) (g := h.links.grandchildren k) (o := parentIdOf message) (by
    intro p hp
    exact isSome_links.1 (Links.isSome_parents.1 (h₀.linked.closed k p (hparent p hp))))
  have hnodup : (h.links.grandchildren k).Nodup := h₀.linked.nodup_flatMap (h₀.linked.nodup k)
  set final := (k :: h.links.children k).foldl Dict.erase
    ((h.links.grandchildren k).foldl (fun ms id => putAt ms id "parentId" (message.fetch "parentId")) ms)
    with hfinal
  have hget : ∀ a, final.get a = if a = k ∨ a ∈ h.links.children k then none else
      (h.messages.get a).map (afterCut h.links k (message.fetch "parentId") (parentIdOf message) a) := by
    intro a
    rw [hfinal, Dict.get_foldl_erase, get_foldl_putAt _ _ hnodup, hms]
    simp only [List.mem_cons]
    by_cases hcut : a = k ∨ a ∈ h.links.children k
    · rw [if_pos hcut, if_pos hcut]
    · rw [if_neg hcut, if_neg hcut]
      by_cases hg : a ∈ h.links.grandchildren k
      · rw [if_pos hg, Option.map_map]
        exact Option.map_congr fun m _ => by rw [Function.comp_apply, afterCut, if_pos hg]
      · rw [if_neg hg]
        exact Option.map_congr fun m _ => by rw [afterCut, if_neg hg]
  have hlinks : ∀ currentId, ChatHistory.links ⟨final, currentId⟩ = h.links.splice k := by
    intro currentId
    funext a
    change (final.get a).map _ = _
    rw [hget, Links.splice, hLk]
    by_cases hcut : a = k ∨ a ∈ h.links.children k
    · rw [if_pos hcut, if_pos hcut]
      rfl
    · rw [if_neg hcut, if_neg hcut, ChatHistory.links, Option.map_map, Option.map_map]
      refine Option.map_congr fun m _ => ?_
      simp only [Function.comp_apply, parentIdOf_afterCut, Option.bind_some, childrenIdsOf_afterCut]
  have hkept : ∀ currentId, ConsistentHistory ⟨final, currentId⟩ := by
    intro currentId
    refine ⟨?_, ?_, hlinks currentId ▸ h₀.linked.splice k⟩
    · intro a m' hm'
      obtain ⟨m, hma, rfl⟩ := get_of_cut hget hm'
      rw [fetch_parentId_afterCut]
      split_ifs
      · exact h₀.parent k message hm
      · exact h₀.parent a m hma
    · intro a m' hm'
      obtain ⟨m, hma, rfl⟩ := get_of_cut hget hm'
      by_cases ho : parentIdOf message = some a
      · exact .inr ⟨_, (get_childrenIds_afterCut _).trans (if_pos ho)⟩
      · have hsame := get_childrenIds_afterCut (L := h.links) (k := k) (m := m) (message.fetch "parentId") |>.trans (if_neg ho)
        obtain hnull | ⟨ids, hids⟩ := h₀.lists a m hma
        · exact .inl ((fetch_congr hsame).trans hnull)
        · exact .inr ⟨ids, hsame.trans hids⟩
  -- the new current message
  obtain ⟨currentId, hcurrent, hspec⟩ : ∃ currentId : Option Text,
      lastLeaf final (final.size + 1) [] (message.fetch "parentId")
        (if (message.fetch "parentId").isNone then
          Json.strs ((final.entries.filter fun e => (e.2.fetch "parentId").isNone).map Prod.fst)
        else (((parentIdOf message).bind final.get).map fun m => m.fetchD "childrenIds" (.arr [])).getD (.arr [])) =
          some ((currentId.map Json.str).getD .null) ∧
      ((∀ a, final.get a = none) ∧ currentId = none ∨
        ∃ leaf, currentId = some leaf ∧ (final.get leaf).isSome ∧ (h.links.splice k).children leaf = []) := by
    obtain hnull | ⟨p, hp⟩ := h₀.parent k message hm
    · rw [hnull]
      obtain ⟨hempty, hleaf⟩ | ⟨leaf, hleaf, hin, hnone⟩ := (hkept none).lastLeaf_roots
      · exact ⟨none, hleaf, .inl ⟨hempty, rfl⟩⟩
      · rw [hlinks none] at hnone
        exact ⟨some leaf, hleaf, .inr ⟨leaf, rfl, hin, hnone⟩⟩
    · have hpid : parentIdOf message = some p := by rw [parentIdOf, hp]
      have hup := hparent p hpid
      have hpstays := h₀.linked.parent_stays hup
      obtain ⟨parent, hparentMessage⟩ := Option.isSome_iff_exists.1
        (isSome_links.1 (Links.isSome_parents.1 (h₀.linked.closed k p hup)))
      have hpfinal : final.get p = some (afterCut h.links k (message.fetch "parentId") (parentIdOf message) p parent) := by
        rw [hget, if_neg (not_or.2 hpstays), hparentMessage]
        rfl
      have hlength := Nat.lt_succ_of_le (length_unvisited_le final [])
      obtain ⟨leaf, hleaf, hin, hnone⟩ := (hkept none).lastLeaf_leaf (final.size + 1) [] p _ hlength
        (by rw [hpfinal]; rfl) (by rintro v ⟨⟩)
        (((hkept none).last_children hpfinal).trans (by rw [children_links (h := ⟨final, none⟩) hpfinal]))
      rw [hlinks none] at hnone
      refine ⟨some leaf, ?_, .inr ⟨leaf, rfl, hin, hnone⟩⟩
      rw [hp] at hpfinal hleaf ⊢
      simpa [hpid, hpfinal, Json.isNone] using hleaf
  have hkey : ((currentId.map Json.str).getD .null).asKey = some currentId := by cases currentId <;> rfl
  have hcall : deleteMessageFromHistory h k =
      some (⟨final, currentId.filter fun id => (final.get id).isSome⟩, k :: h.links.children k) := by
    simp only [deleteMessageFromHistory, hm, h₀.idsIn_children hm, hgrand, h₀.asKey hm, hadopt,
      Option.bind_eq_bind, Option.bind_some, ← hfinal, hcurrent, hkey]
    rfl
  refine ⟨_, hcall, hget, hlinks _, hkept _, ?_⟩
  obtain ⟨hempty, rfl⟩ | ⟨leaf, rfl, hin, hnone⟩ := hspec
  · exact .inl ⟨hempty, rfl⟩
  · right
    refine ⟨leaf, ?_, hin, ?_⟩
    · dsimp only
      rw [Option.filter_some, if_pos hin]
    · rw [hlinks]
      exact hnone

/-- **A deletion splices the tree.**  It removes the message and its children and nothing else, leaves every other
    message as it was but for its links, keeps the ancestors among those that stay, and goes to a leaf. -/
theorem deleteMessage_splices (h₀ : ConsistentHistory h) (hk : (h.messages.get k).isSome) :
    ∃ h' deletedIds, deleteMessageFromHistory h k = some (h', deletedIds) ∧
      (∀ a, a ∈ deletedIds ↔ a = k ∨ h.links.parents.Up a k) ∧
      (∀ a, (h'.messages.get a).isSome ↔ (h.messages.get a).isSome ∧ a ∉ deletedIds) ∧
      (∀ a old new key, h.messages.get a = some old → h'.messages.get a = some new →
        key ≠ .lit "parentId" → key ≠ .lit "childrenIds" → new.get key = old.get key) ∧
      (∀ a b, (h'.messages.get a).isSome → (h'.messages.get b).isSome →
        (TransGen h'.links.parents.Up b a ↔ TransGen h.links.parents.Up b a)) ∧
      ConsistentHistory h' ∧
      ((∀ a, h'.messages.get a = none) ∧ h'.currentId = none ∨
        ∃ leaf, h'.currentId = some leaf ∧ (h'.messages.get leaf).isSome ∧ ∀ a, ¬h'.links.parents.Up a leaf) ∧
      ∀ n current childIds, lastLeaf h'.messages (h'.messages.size + 1 + n) [] current childIds =
        lastLeaf h'.messages (h'.messages.size + 1) [] current childIds := by
  obtain ⟨message, hm⟩ := Option.isSome_iff_exists.1 hk
  obtain ⟨h', hcall, hget, hlinks, hkept, hcurrent⟩ := h₀.delete hm
  have hsome : ∀ {a}, (h'.messages.get a).isSome → ((h.links.splice k) a).isSome := by
    intro a ha
    rw [← hlinks]
    exact isSome_links.2 ha
  refine ⟨h', _, hcall, ?_, ?_, ?_, ?_, hkept, ?_, ?_⟩
  · intro a
    rw [List.mem_cons, h₀.linked.mem_children]
  · intro a
    rw [hget, List.mem_cons]
    by_cases hcut : a = k ∨ a ∈ h.links.children k
    · rw [if_pos hcut]
      exact ⟨by rintro ⟨⟩, fun h => absurd hcut h.2⟩
    · rw [if_neg hcut, Option.isSome_map]
      exact (and_iff_left hcut).symm
  · intro a old new key hold hnew hparent hchildren
    rw [hget, hold] at hnew
    split_ifs at hnew
    obtain rfl := Option.some.inj hnew
    exact get_afterCut hparent hchildren
  · intro a b ha hb
    rw [hlinks]
    exact h₀.linked.ancestors_splice (hsome hb) (hsome ha)
  · obtain hempty | ⟨leaf, hleaf, hin, hnone⟩ := hcurrent
    · exact .inl hempty
    · refine .inr ⟨leaf, hleaf, hin, fun a ha => ?_⟩
      rw [← hkept.linked.mem_children, hnone] at ha
      cases ha
  · intro n current childIds
    induction n with
    | zero => rfl
    | succ n ih =>
      rw [← ih, Nat.add_succ, lastLeaf_fuel]
      refine Nat.lt_of_le_of_lt (length_unvisited_le _ _) ?_
      omega

end

namespace Sample

def linked (parentId : Option String) (ids : List String) : PyDict :=
  (PyDict.put .empty "parentId" (parentId.elim .null fun p => .str (.lit p))).put "childrenIds" (Json.strs (ids.map .lit))

/-- A thread with a branch aside; `b` has two children, and each of these has one. -/
def thread : ChatHistory :=
  ⟨[("a", linked none ["b", "x"]), ("b", linked (some "a") ["c", "d"]), ("c", linked (some "b") ["e"]),
    ("d", linked (some "b") ["f"]), ("e", linked (some "c") []), ("f", linked (some "d") []),
    ("x", linked (some "a") [])].foldl (fun d e => d.set (.lit e.1) e.2) .empty, some (.lit "f")⟩

theorem thread_consistent : ConsistentHistory thread := by
  have hfields : ∀ e ∈ thread.messages.entries, e.2.fetch "parentId" = (parentIdOf e.2).elim .null .str ∧
      e.2.get (.lit "childrenIds") = some (Json.strs (childrenIdsOf e.2)) := by
    decide +kernel
  refine ⟨fun k m hm => ?_, fun k m hm => ?_, ?_⟩
  · obtain ⟨hparent, -⟩ := hfields (k, m) (Dict.mem_entries_iff.2 hm)
    rw [hparent]
    cases parentIdOf m with
    | none => exact .inl rfl
    | some p => exact .inr ⟨p, rfl⟩
  · exact .inr ⟨_, (hfields (k, m) (Dict.mem_entries_iff.2 hm)).2⟩
  · exact linked_of_rank (fun k => (k.headD 0).val) (by decide +kernel) (by decide +kernel) (by decide +kernel)
      (by decide +kernel)

end Sample

/-- The grandchildren come under the parent of the message that is deleted. -/
theorem deleteMessage_splices_sample : ∃ h' deletedIds,
    deleteMessageFromHistory Sample.thread (.lit "b") = some (h', deletedIds) ∧
      (∀ a, a ∈ deletedIds ↔ a = .lit "b" ∨ Sample.thread.links.parents.Up a (.lit "b")) ∧
      TransGen h'.links.parents.Up (.lit "f") (.lit "a") ∧ ConsistentHistory h' := by
  obtain ⟨h', deletedIds, hcall, hdeleted, hthere, -, hancestors, hkept, -⟩ :=
    deleteMessage_splices Sample.thread_consistent (k := .lit "b") (by decide +kernel)
  have hup : ∀ {c p : Text}, Sample.thread.links.parents.Up c p ↔ (Sample.thread.messages.get c).bind parentIdOf = some p := by
    intro c p
    rw [up_links, Option.bind_eq_some_iff]
  have hstays : ∀ {a}, (Sample.thread.messages.get a).isSome → a ≠ .lit "b" →
      (Sample.thread.messages.get a).bind parentIdOf ≠ some (.lit "b") → (h'.messages.get a).isSome := by
    intro a ha hne hparent
    refine (hthere a).2 ⟨ha, fun hin => ?_⟩
    obtain heq | habove := (hdeleted a).1 hin
    · exact hne heq
    · exact hparent (hup.1 habove)
  refine ⟨h', deletedIds, hcall, hdeleted, ?_, hkept⟩
  refine (hancestors _ _ (hstays (by decide +kernel) (by decide +kernel) (by decide +kernel))
    (hstays (by decide +kernel) (by decide +kernel) (by decide +kernel))).2 ?_
  have hd : Sample.thread.links.parents.Up (.lit "f") (.lit "d") := hup.2 (by decide +kernel)
  have hb : Sample.thread.links.parents.Up (.lit "d") (.lit "b") := hup.2 (by decide +kernel)
  exact .head hd (.head hb (.single (hup.2 (by decide +kernel))))

end TideBot
