/-
  The links of a history: the parent of every message, and the children that it lists.

  The links are a map of the library (`ChatHistory.links`).  A history is consistent if they are a forest in
  which the lists of children are right (`ConsistentHistory`); nothing is asked of the other fields.
-/
import TideBot.Chat.History
import TideBot.Lib.Forest

namespace TideBot

open Lib

/-! ## Links -/

/-- `message['parentId']` -/
def parentIdOf (message : PyDict) : Option Text :=
  match message.fetch "parentId" with
  | .str p => some p
  | _ => none

/-- `message['childrenIds']` -/
def childrenIdsOf (message : PyDict) : List Text :=
  match message.fetch "childrenIds" with
  | .arr ids => ids.filterMap fun
    | .str id => some id
    | _ => none
  | _ => []

/-- The parents and children of the messages. -/
def ChatHistory.links (h : ChatHistory) : Links Text := fun k =>
  (h.messages.get k).map fun m => (parentIdOf m, childrenIdsOf m)

/-- The message is stored under its own id, and its parent is a string or null. -/
def Placed (k : Text) (m : PyDict) : Prop :=
  m.get (.lit "id") = some (.str k) ∧ (m.fetch "parentId" = .null ∨ ∃ p, m.fetch "parentId" = .str p)

/-- The children are listed. -/
def ListsChildren (m : PyDict) : Prop := ∃ ids, m.get (.lit "childrenIds") = some (Json.strs ids)

/-- A history whose links are a forest: every parent is a message, no message is its own ancestor, and
    every message lists exactly the messages whose parent it is, each once.  A message without children may
    have no list. -/
structure ConsistentHistory (h : ChatHistory) : Prop where
  parent : ∀ k m, h.messages.get k = some m → m.fetch "parentId" = .null ∨ ∃ p, m.fetch "parentId" = .str p
  lists : ∀ k m, h.messages.get k = some m → m.fetch "childrenIds" = .null ∨ ListsChildren m
  linked : h.links.Linked

/-! ## Reading messages -/

section
variable {m m' : PyDict} {k k' p : Text} {ids : List Text} {h h' : ChatHistory}

theorem or_strs (ids : List Text) : (Json.strs ids).or (.arr []) = Json.strs ids := by
  cases ids <;> rfl

theorem fetch_of_get {key : String} {v : Json} (h : m.get (.lit key) = some v) : m.fetch key = v := by
  rw [PyDict.fetch, h]
  rfl

theorem fetch_congr {key : String} (h : m'.get (.lit key) = m.get (.lit key)) : m'.fetch key = m.fetch key := by
  rw [PyDict.fetch, PyDict.fetch, h]

theorem childrenIdsOf_strs (h : m.get (.lit "childrenIds") = some (Json.strs ids)) : childrenIdsOf m = ids := by
  rw [childrenIdsOf, fetch_of_get h, Json.strs]
  simp [List.filterMap_map]

theorem ListsChildren.get (h : ListsChildren m) : m.get (.lit "childrenIds") = some (Json.strs (childrenIdsOf m)) := by
  obtain ⟨ids, hids⟩ := h
  rw [childrenIdsOf_strs hids, hids]

theorem parentIdOf_congr (h : m'.fetch "parentId" = m.fetch "parentId") : parentIdOf m' = parentIdOf m := by
  rw [parentIdOf, parentIdOf, h]

theorem Placed.asKey (h : Placed k m) : (m.fetch "parentId").asKey = some (parentIdOf m) := by
  rcases h.2 with hp | ⟨p, hp⟩
  · simp [parentIdOf, hp, Json.asKey]
  · simp [parentIdOf, hp, Json.asKey]

theorem Placed.congr (h : Placed k m) (hid : m'.get (.lit "id") = m.get (.lit "id"))
    (hparent : m'.get (.lit "parentId") = m.get (.lit "parentId")) : Placed k m' := by
  refine ⟨hid.trans h.1, ?_⟩
  rw [fetch_congr hparent]
  exact h.2

theorem links_eq_some {x : Option Text × List Text} :
    h.links k = some x ↔ ∃ m, h.messages.get k = some m ∧ (parentIdOf m, childrenIdsOf m) = x :=
  Option.map_eq_some_iff

theorem links_of_get (hm : h.messages.get k = some m) : h.links k = some (parentIdOf m, childrenIdsOf m) := by
  rw [ChatHistory.links, hm]
  rfl

theorem isSome_links : (h.links k).isSome ↔ (h.messages.get k).isSome := by
  simp [ChatHistory.links]

theorem links_eq_none : h.links k = none ↔ h.messages.get k = none := Option.map_eq_none_iff

theorem up_links : h.links.parents.Up k p ↔ ∃ m, h.messages.get k = some m ∧ parentIdOf m = some p := by
  rw [Links.up_iff]
  constructor
  · rintro ⟨ids, hids⟩
    obtain ⟨m, hm, heq⟩ := links_eq_some.1 hids
    exact ⟨m, hm, congrArg Prod.fst heq⟩
  · rintro ⟨m, hm, hp⟩
    exact ⟨childrenIdsOf m, by rw [links_of_get hm, hp]⟩

theorem parents_of_rank (rank : Text → ℕ) (hparents : ∀ e ∈ h.messages.entries, ∀ p ∈ parentIdOf e.2,
    rank p < rank e.1 ∧ (h.messages.get p).isSome) : h.links.parents.Closed ∧ h.links.parents.Acyclic := by
  have hup : ∀ k p, h.links.parents.Up k p → rank p < rank k ∧ (h.messages.get p).isSome := by
    intro k p hup
    obtain ⟨m, hm, hp⟩ := up_links.1 hup
    exact hparents (k, m) (Dict.mem_entries_iff.2 hm) p hp
  exact ⟨fun k p hk => Links.isSome_parents.2 (isSome_links.2 (hup k p hk).2), .of_rank rank fun k p hk => (hup k p hk).1⟩

theorem linked_of_rank (rank : Text → ℕ)
    (hparents : ∀ e ∈ h.messages.entries, ∀ p ∈ parentIdOf e.2, rank p < rank e.1 ∧ (h.messages.get p).isSome)
    (hnodup : ∀ e ∈ h.messages.entries, (childrenIdsOf e.2).Nodup)
    (hexact : ∀ e ∈ h.messages.entries, ∀ e' ∈ h.messages.entries,
      e'.1 ∈ childrenIdsOf e.2 ↔ parentIdOf e'.2 = some e.1)
    (hthere : ∀ e ∈ h.messages.entries, ∀ c ∈ childrenIdsOf e.2, (h.messages.get c).isSome) : h.links.Linked := by
  obtain ⟨hclosed, hacyclic⟩ := parents_of_rank rank hparents
  refine ⟨hclosed, hacyclic, fun k => ?_, fun k c hk => ?_⟩
  · cases hm : h.messages.get k with
    | none =>
      rw [Links.children_of_none (links_eq_none.2 hm)]
      exact List.nodup_nil
    | some m =>
      rw [Links.children_of_some (links_of_get hm)]
      exact hnodup (k, m) (Dict.mem_entries_iff.2 hm)
  · obtain ⟨m, hm⟩ := Option.isSome_iff_exists.1 (isSome_links.1 hk)
    rw [Links.children_of_some (links_of_get hm), up_links]
    constructor
    · intro hc
      obtain ⟨m', hm'⟩ := Option.isSome_iff_exists.1 (hthere (k, m) (Dict.mem_entries_iff.2 hm) c hc)
      exact ⟨m', hm', (hexact (k, m) (Dict.mem_entries_iff.2 hm) (c, m') (Dict.mem_entries_iff.2 hm')).1 hc⟩
    · rintro ⟨m', hm', hp⟩
      exact (hexact (k, m) (Dict.mem_entries_iff.2 hm) (c, m') (Dict.mem_entries_iff.2 hm')).2 hp

end

end TideBot
