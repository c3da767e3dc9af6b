/-
  The history of a chat is a forest in which every message lists its children.

  `ClosedForest` is kept by `merge_history`, by `delete_message_from_history` and by an upsert
  that leaves the links of a message alone, or saves one without a parent.  An upsert of a
  new message under a parent writes the new message only: its caller enters it in the list of the
  parent, with an upsert before or after (`HistoryOp.insert`).

  The links of a history are a map of the library (`ChatHistory.links`), and each operation does
  to them what the library does: `Links.insert`, `Links.splice`, one forest over another.
-/
import TideBot.Chat.Deletion
import TideBot.Chat.Merging
import TideBot.Lib.Machine

namespace TideBot

open Lib

/-! ## Forests -/

/-- A history that is closed: every message is stored under its own id, every parent is a message,
    and no message is its own ancestor. -/
structure ClosedHistory (h : ChatHistory) : Prop where
  placed : ∀ k m, h.messages.get k = some m → Placed k m
  closed : h.links.parents.Closed
  acyclic : h.links.parents.Acyclic

/-- A history that is a forest: it is closed, every message lists exactly the messages whose parent
    it is, each once, and the current message is there. -/
structure ClosedForest (h : ChatHistory) : Prop where
  placed : ∀ k m, h.messages.get k = some m → Placed k m
  lists : ∀ k m, h.messages.get k = some m → ListsChildren m
  linked : h.links.Linked
  current : ∀ k ∈ h.currentId, k ∈ h.messages.keys

/-! ## Operations -/

/-- An operation on a history. -/
inductive HistoryOp where
  | upsert (messageId : Text) (message : PyDict) (now : ℤ)
  /-- an upsert under a parent, with the upsert that enters the message in the parent's list -/
  | insert (messageId parentId : Text) (message : PyDict) (now : ℤ) (linkFirst : Bool)
  | merge (incoming : ChatHistory)
  | delete (messageId : Text)

/-- The upsert of `{'childrenIds': [*messages[parentId]['childrenIds'], messageId]}`. -/
def linkChild (h : ChatHistory) (messageId parentId : Text) (now : ℤ) : Option ChatHistory := do
  let parent ← h.messages.get parentId
  let ids ← (parent.fetchD "childrenIds" (.arr [])).iter
  let saved ← upsertMessageToHistory h parentId
    (PyDict.put .empty "childrenIds" (.arr (ids ++ [.str messageId]))) now
  return saved.1

/-- What an operation makes of a history; `none`: it raises. -/
def HistoryOp.apply (h : ChatHistory) : HistoryOp → Option ChatHistory
  | .upsert messageId message now => (upsertMessageToHistory h messageId message now).map Prod.fst
  | .insert messageId parentId message now true => do
    let h ← linkChild h messageId parentId now
    return (← upsertMessageToHistory h messageId message now).1
  | .insert messageId parentId message now false => do
    let (h, _) ← upsertMessageToHistory h messageId message now
    linkChild h messageId parentId now
  | .merge incoming => mergeHistory h incoming
  | .delete messageId => (deleteMessageFromHistory h messageId).map Prod.fst

/-- A history under operations; one that raises changes nothing, and answers `false`. -/
def historyMachine : Machine ChatHistory HistoryOp Bool where
  step h op :=
    match op.apply h with
    | some h' => some (h', true)
    | none => some (h, false)

/-! ## What is asked of an operation -/

/-- The payload of a new message: its `id`, if any, is the one it is stored under, and it has no
    children of its own. -/
def NewFits (messageId : Text) (message : PyDict) : Prop :=
  ((message.fetch "id").truthy → message.fetch "id" = .str messageId) ∧
    ∀ ids, message.fetch "childrenIds" = .arr ids → ids = []

/-- The payload does not change the links of the message. -/
def KeepsLinks (message old : PyDict) : Prop :=
  ∀ key ∈ ["id", "parentId", "childrenIds"], ∀ v, message.get (.lit key) = some v → old.get (.lit key) = some v

/-- The condition on an operation. -/
def HistoryFits (h : ChatHistory) : HistoryOp → Prop
  | .upsert messageId message _ =>
    match h.messages.get messageId with
    | some old => KeepsLinks message old
    | none => NewFits messageId message ∧ message.fetch "parentId" = .null
  | .insert messageId parentId message _ _ =>
    h.messages.get messageId = none ∧ (h.messages.get parentId).isSome ∧ NewFits messageId message ∧
      message.fetch "parentId" = .str parentId ∧ (outputRole (message.fetch "output")).isSome
  | .merge incoming => ClosedHistory incoming
  | .delete _ => True

/-- Does the operation raise?  Only the upsert of a new message does, if its output cannot be gone
    through. -/
def HistoryOp.raises (h : ChatHistory) : HistoryOp → Prop
  | .upsert messageId message _ =>
    h.messages.get messageId = none ∧ outputRole (message.fetch "output") = none
  | .insert .. | .merge _ | .delete _ => False

section
variable {m m' : PyDict} {k k' p : Text} {ids : List Text} {h h' : ChatHistory}

/-! ## Upserts -/

/-- The message, with `childId` at the end of its list. -/
def enlisted (m : PyDict) (childId : Text) : PyDict :=
  m.update (PyDict.put .empty "childrenIds" (Json.strs (childrenIdsOf m ++ [childId])))

theorem get_enlisted {key : String} : (enlisted m k).get (.lit key) =
    if key = "childrenIds" then some (Json.strs (childrenIdsOf m ++ [k])) else m.get (.lit key) := by
  rw [enlisted, Dict.get_update, PyDict.get_put]
  split_ifs <;> simp

theorem parentIdOf_enlisted : parentIdOf (enlisted m k) = parentIdOf m := by
  refine parentIdOf_congr (fetch_congr ?_)
  rw [get_enlisted, if_neg (by decide)]

theorem childrenIdsOf_enlisted : childrenIdsOf (enlisted m k) = childrenIdsOf m ++ [k] := by
  refine childrenIdsOf_strs ?_
  rw [get_enlisted, if_pos rfl]

theorem Placed.enlisted (h : Placed k' m) : Placed k' (enlisted m k) := by
  refine h.congr ?_ ?_
  · rw [get_enlisted, if_neg (by decide)]
  · rw [get_enlisted, if_neg (by decide)]

theorem ListsChildren.enlisted : ListsChildren (enlisted m k) := ⟨_, by rw [get_enlisted, if_pos rfl]⟩

theorem linkChild_eq (hm : h.messages.get p = some m) (hlists : ListsChildren m) (now : ℤ) :
    linkChild h k p now = some { h with messages := h.messages.set p (enlisted m k) } := by
  have hids : m.fetchD "childrenIds" (.arr []) = Json.strs (childrenIdsOf m) := by
    rw [PyDict.fetchD, hlists.get]
    rfl
  have hstrs : Json.arr ((childrenIdsOf m).map Json.str ++ [.str k]) = Json.strs (childrenIdsOf m ++ [k]) := by
    simp [Json.strs]
  simp only [linkChild, hm, hids, Json.iter_strs, upsertMessageToHistory, Option.bind_eq_bind, Option.bind_some,
    hstrs]
  rfl

theorem upsert_new {message : PyDict} {o : Option Text} (now : ℤ) (hnew : h.messages.get k = none)
    (hfits : NewFits k message) (hread : (outputRole (message.fetch "output")).isSome)
    (hparent : message.fetch "parentId" = (o.map Json.str).getD .null)
    (hlisted : o = none → listedBy k h.messages.entries = some none) :
    ∃ saved, upsertMessageToHistory h k message now = some (⟨h.messages.set k saved, some k⟩, saved) ∧
      Placed k saved ∧ parentIdOf saved = o ∧ saved.get (.lit "childrenIds") = some (Json.strs []) := by
  obtain ⟨role, hrole⟩ := Option.isSome_iff_exists.1 hread
  have hid : (message.fetch "id").or (.str k) = .str k := by
    unfold Json.or
    split_ifs with ht
    · exact hfits.1 ht
    · rfl
  have hchildren : listOrEmpty (message.fetch "childrenIds") = Json.strs [] := by
    cases hc : message.fetch "childrenIds" with
    | arr ids =>
      rw [hfits.2 ids hc]
      rfl
    | null | bool | int | float | str | obj => rfl
  obtain ⟨r, hcall⟩ : ∃ r, upsertMessageToHistory h k message now =
      some (⟨h.messages.set k (newMessage k message ((o.map Json.str).getD .null) r now), some k⟩,
        newMessage k message ((o.map Json.str).getD .null) r now) := by
    cases o with
    | none =>
      have hnull : message.fetch "parentId" = .null := hparent
      refine ⟨newRole ((message.fetch "role").or role) none, ?_⟩
      simp only [upsertMessageToHistory, newParentId, hnew, hnull, Json.isNone, hlisted rfl, hrole]
      rfl
    | some p =>
      have hstr : message.fetch "parentId" = .str p := hparent
      refine ⟨newRole ((message.fetch "role").or role) (if p = [] then none else h.messages.get p), ?_⟩
      simp only [upsertMessageToHistory, newParentId, parentMessage, hnew, hstr, Json.isNone, hrole, messageAt,
        Json.asKey]
      by_cases hp : p = [] <;> simp [hp, Json.truthy_str]
  have hown : (if (message.fetch "parentId").isNone then (o.map Json.str).getD .null else message.fetch "parentId") =
      (o.map Json.str).getD .null := by
    split_ifs
    · rfl
    · exact hparent
  refine ⟨_, hcall, ⟨?_, ?_⟩, ?_, ?_⟩
  · simp [newMessage, PyDict.get_put, hid]
  · simp only [newMessage, PyDict.fetch_put, hown]
    cases o with
    | none => exact .inl (by simp)
    | some p => exact .inr ⟨p, by simp⟩
  · simp only [parentIdOf, newMessage, PyDict.fetch_put, hown]
    cases o <;> simp
  · simp [newMessage, PyDict.get_put, hchildren]

theorem ClosedForest.congr (h₀ : ClosedForest h) (hkeys : ∀ k, (h'.messages.get k).isSome ↔ (h.messages.get k).isSome)
    (hsame : ∀ k m', h'.messages.get k = some m' → ∃ m, h.messages.get k = some m ∧
      ∀ key ∈ ["id", "parentId", "childrenIds"], m'.get (.lit key) = m.get (.lit key))
    (hcurrent : h'.currentId = h.currentId) : ClosedForest h' := by
  have hlinks : h'.links = h.links := by
    funext k
    cases hm' : h'.messages.get k with
    | none =>
      have hm : h.messages.get k = none := by
        rw [← Option.not_isSome_iff_eq_none, ← hkeys k, hm']
        simp
      rw [links_eq_none.2 hm, links_eq_none.2 hm']
    | some m' =>
      obtain ⟨m, hm, hkeep⟩ := hsame k m' hm'
      rw [links_of_get hm, links_of_get hm', parentIdOf_congr (fetch_congr (hkeep "parentId" (by simp))),
        childrenIdsOf, childrenIdsOf, fetch_congr (hkeep "childrenIds" (by simp))]
  refine ⟨?_, ?_, hlinks ▸ h₀.linked, ?_⟩
  · intro k m' hm'
    obtain ⟨m, hm, hkeep⟩ := hsame k m' hm'
    exact (h₀.placed k m hm).congr (hkeep "id" (by simp)) (hkeep "parentId" (by simp))
  · intro k m' hm'
    obtain ⟨m, hm, hkeep⟩ := hsame k m' hm'
    obtain ⟨ids, hids⟩ := h₀.lists k m hm
    exact ⟨ids, (hkeep "childrenIds" (by simp)).trans hids⟩
  · intro k hk
    rw [hcurrent] at hk
    rw [Dict.mem_keys_iff, ← Option.isSome_iff_exists, hkeys, Option.isSome_iff_exists, ← Dict.mem_keys_iff]
    exact h₀.current k hk

/-- **An upsert that leaves the links of a message alone.** -/
theorem ClosedForest.update (h₀ : ClosedForest h) {old message : PyDict} (hold : h.messages.get k = some old)
    (hkeep : KeepsLinks message old) :
    ClosedForest { h with messages := h.messages.set k (old.update message) } := by
  refine h₀.congr ?_ ?_ rfl
  · intro k'
    rw [Dict.get_set]
    split_ifs with hk
    · simp [hk, hold]
    · rfl
  · intro k' m' hm'
    rw [Dict.get_set] at hm'
    split_ifs at hm' with hk
    · cases hm'
      refine ⟨old, hk ▸ hold, ?_⟩
      intro key hkey
      rw [Dict.get_update]
      cases hv : message.get (.lit key) with
      | none => rfl
      | some v => exact (hkeep key hkey v hv).symm
    · exact ⟨m', hm', fun _ _ => rfl⟩

/-- **A new message, in the list of its parent if it has one.** -/
theorem ClosedForest.insert (h₀ : ClosedForest h) {o : Option Text} {saved : PyDict}
    (hnew : h.messages.get k = none) (ho : ∀ p, o = some p → (h.messages.get p).isSome)
    (hsaved : Placed k saved) (hparent : parentIdOf saved = o)
    (hlist : saved.get (.lit "childrenIds") = some (Json.strs []))
    (hget : ∀ k', h'.messages.get k' = if k' = k then some saved else
      (h.messages.get k').map fun m => if o = some k' then enlisted m k else m)
    (hcurrent : ∀ k' ∈ h'.currentId, k' = k ∨ k' ∈ h.currentId) : ClosedForest h' := by
  have hlinks : h'.links = h.links.insert k o := by
    funext k'
    unfold ChatHistory.links Links.insert
    rw [hget]
    by_cases hk : k' = k
    · simp [hk, hparent, childrenIdsOf_strs hlist]
    · simp only [if_neg hk, Option.map_map]
      refine Option.map_congr fun m _ => ?_
      simp only [Function.comp_apply]
      split_ifs
      · rw [parentIdOf_enlisted, childrenIdsOf_enlisted]
      · rfl
  refine ⟨?_, ?_, ?_, ?_⟩
  · intro k' m' hm'
    rw [hget] at hm'
    by_cases hk : k' = k
    · rw [if_pos hk] at hm'
      cases hm'
      exact hk ▸ hsaved
    · rw [if_neg hk] at hm'
      obtain ⟨m, hm, rfl⟩ := Option.map_eq_some_iff.1 hm'
      split_ifs
      · exact (h₀.placed k' m hm).enlisted
      · exact h₀.placed k' m hm
  · intro k' m' hm'
    rw [hget] at hm'
    by_cases hk : k' = k
    · rw [if_pos hk] at hm'
      cases hm'
      exact ⟨[], hlist⟩
    · rw [if_neg hk] at hm'
      obtain ⟨m, hm, rfl⟩ := Option.map_eq_some_iff.1 hm'
      split_ifs
      · exact .enlisted
      · exact h₀.lists k' m hm
  · rw [hlinks]
    exact h₀.linked.insert (links_eq_none.2 hnew) fun p hp => isSome_links.2 (ho p hp)
  · intro k' hk'
    rw [Dict.mem_keys_iff, ← Option.isSome_iff_exists, hget]
    by_cases hk : k' = k
    · rw [if_pos hk]
      rfl
    · rw [if_neg hk, Option.isSome_map]
      rcases hcurrent k' hk' with hk'' | hk''
      · exact absurd hk'' hk
      · exact Option.isSome_iff_exists.2 (Dict.mem_keys_iff.1 (h₀.current k' hk''))

theorem ClosedForest.listedBy_new (h₀ : ClosedForest h) (hnew : h.messages.get k = none) :
    listedBy k h.messages.entries = some none := by
  have hentries : ∀ es : List (Text × PyDict), (∀ e ∈ es, h.messages.get e.1 = some e.2) →
      listedBy k es = some none := by
    intro es hes
    induction es with
    | nil => rfl
    | cons e es ih =>
      obtain ⟨id, m⟩ := e
      have hm := hes (id, m) List.mem_cons_self
      have hids : m.fetchD "childrenIds" (.arr []) = Json.strs (childrenIdsOf m) := by
        rw [PyDict.fetchD, (h₀.lists id m hm).get]
        rfl
      have hout : k ∉ childrenIdsOf m := by
        intro hmem
        have hchild : k ∈ h.links.children id := by rwa [Links.children_of_some (links_of_get hm)]
        have hsome := isSome_links.1 (h₀.linked.isSome_child hchild)
        rw [hnew] at hsome
        cases hsome
      simp only [listedBy, hids, Json.contains_strs, hout, decide_false, Option.bind_eq_bind, Option.bind_some,
        Bool.false_eq_true, if_false]
      exact ih fun e he => hes e (List.mem_cons_of_mem _ he)
  exact hentries _ fun e he => Dict.mem_entries_iff.1 he

theorem ClosedForest.upsert (h₀ : ClosedForest h) {message : PyDict} {now : ℤ}
    (hfits : HistoryFits h (.upsert k message now)) (hread : ¬ (HistoryOp.upsert k message now).raises h) :
    ∃ h', (HistoryOp.upsert k message now).apply h = some h' ∧ ClosedForest h' := by
  cases hold : h.messages.get k with
  | some old =>
    simp only [HistoryFits, hold] at hfits
    refine ⟨_, ?_, h₀.update hold hfits⟩
    simp [HistoryOp.apply, upsertMessageToHistory, hold]
  | none =>
    simp only [HistoryFits, hold] at hfits
    obtain ⟨hnew, hnull⟩ := hfits
    have hread : (outputRole (message.fetch "output")).isSome :=
      Option.isSome_iff_ne_none.2 fun hnone => hread ⟨hold, hnone⟩
    obtain ⟨saved, hcall, hplaced, hparent, hlist⟩ := upsert_new (o := none) now hold hnew hread hnull
      fun _ => h₀.listedBy_new hold
    refine ⟨_, by rw [HistoryOp.apply, hcall]; rfl, ?_⟩
    refine h₀.insert (o := none) hold (by rintro _ ⟨⟩) hplaced hparent hlist ?_ ?_
    · intro k'
      rw [Dict.get_set]
      by_cases hk : k' = k <;> simp [hk]
    · rintro k' ⟨⟩
      exact .inl rfl

theorem ClosedForest.upsert_raises (h₀ : ClosedForest h) {message : PyDict} {now : ℤ}
    (hfits : HistoryFits h (.upsert k message now)) (hraises : (HistoryOp.upsert k message now).raises h) :
    (HistoryOp.upsert k message now).apply h = none := by
  obtain ⟨hold, hnone⟩ := hraises
  simp only [HistoryFits, hold] at hfits
  simp only [HistoryOp.apply, upsertMessageToHistory, newParentId, hold, hfits.2, Json.isNone,
    h₀.listedBy_new hold, hnone]
  rfl

theorem ClosedForest.insertLinked (h₀ : ClosedForest h) {message : PyDict} {now : ℤ} {first : Bool}
    (hfits : HistoryFits h (.insert k p message now first)) :
    ∃ h', (HistoryOp.insert k p message now first).apply h = some h' ∧ ClosedForest h' := by
  obtain ⟨hnew, hsome, hfit, hstr, hread⟩ := hfits
  obtain ⟨parent, hp⟩ := Option.isSome_iff_exists.1 hsome
  have hne : p ≠ k := by
    rintro rfl
    rw [hnew] at hp
    cases hp
  have ho : ∀ q, some p = some q → (h.messages.get q).isSome := by
    rintro q ⟨⟩
    exact hsome
  cases first with
  | true =>
    have hlink := linkChild_eq (k := k) hp (h₀.lists p parent hp) now
    obtain ⟨saved, hcall, hplaced, hparent, hlist⟩ := upsert_new (o := some p) now
      (h := { h with messages := h.messages.set p (enlisted parent k) })
      ((Dict.get_set_of_ne _ hne.symm).trans hnew) hfit hread hstr (by rintro ⟨⟩)
    refine ⟨_, by simp [HistoryOp.apply, hlink, hcall]; rfl, ?_⟩
    refine h₀.insert hnew ho hplaced hparent hlist ?_ ?_
    · intro k'
      simp only [Dict.get_set, Option.some.injEq]
      by_cases hk : k' = k
      · simp [hk]
      · by_cases hkp : k' = p
        · simp [hkp, hp, hne]
        · simp [hk, hkp, Ne.symm hkp]
    · rintro k' ⟨⟩
      exact .inl rfl
  | false =>
    obtain ⟨saved, hcall, hplaced, hparent, hlist⟩ := upsert_new (o := some p) now
      hnew hfit hread hstr (by rintro ⟨⟩)
    have hlink := linkChild_eq (k := k) (h := ⟨h.messages.set k saved, some k⟩) (p := p) (m := parent)
      ((Dict.get_set_of_ne _ hne).trans hp) (h₀.lists p parent hp) now
    refine ⟨_, by simp [HistoryOp.apply, hcall, hlink]; rfl, ?_⟩
    refine h₀.insert hnew ho hplaced hparent hlist ?_ ?_
    · intro k'
      simp only [Dict.get_set, Option.some.injEq]
      by_cases hk : k' = k
      · simp [hk, Ne.symm hne]
      · by_cases hkp : k' = p
        · simp [hkp, hp, hne]
        · simp [hk, hkp, Ne.symm hkp]
    · rintro k' ⟨⟩
      exact .inl rfl

/-! ## Merging -/

/-- **A closed history, laid over a forest, gives a forest.** -/
theorem ClosedForest.merge (h₀ : ClosedForest h) {incoming : ChatHistory} (hin : ClosedHistory incoming) :
    ∃ h', mergeHistory h incoming = some h' ∧ ClosedForest h' := by
  have hkeys : ∀ {k m}, Placed k m → (m.fetch "parentId").asKey.isSome := by
    intro k m hplaced
    rw [hplaced.asKey]
    rfl
  have hsource : ∀ k m, (mergedHistory h incoming).messages.get k = some m → ∃ m₀ ids, Placed k m₀ ∧ m = listing m₀ ids := by
    intro k m hm
    rw [mergedHistory, get_mergedMessages] at hm
    obtain ⟨m₀, hm₀, rfl⟩ := Option.map_eq_some_iff.1 hm
    obtain hm₀ | ⟨-, hm₀⟩ := Option.or_eq_some_iff.1 hm₀
    · exact ⟨m₀, _, hin.placed k m₀ hm₀, rfl⟩
    · exact ⟨m₀, _, h₀.placed k m₀ hm₀, rfl⟩
  refine ⟨mergedHistory h incoming, mergeHistory_eq (fun k m hm => hkeys (h₀.placed k m hm))
    (fun k m hm => hkeys (hin.placed k m hm)), ?_, ?_, ?_, fun k hk => currentId_mergedHistory hk⟩
  · intro k m hm
    obtain ⟨m₀, ids, hplaced, rfl⟩ := hsource k m hm
    exact hplaced.congr (by rw [get_listing, if_neg (by decide)]) (by rw [get_listing, if_neg (by decide)])
  · intro k m hm
    obtain ⟨m₀, ids, -, rfl⟩ := hsource k m hm
    exact ⟨ids, by rw [get_listing, if_pos rfl]⟩
  · exact linked_mergedHistory h₀.linked.closed h₀.linked.acyclic hin.closed hin.acyclic

/-! ## Deleting -/

theorem ClosedForest.consistent (h₀ : ClosedForest h) : ConsistentHistory h :=
  ⟨fun k m hm => (h₀.placed k m hm).2, fun k m hm => .inr (h₀.lists k m hm), h₀.linked⟩

/-- **Deleting a message with its children keeps a forest.** -/
theorem ClosedForest.delete (h₀ : ClosedForest h) (k : Text) :
    ∃ h' ids, deleteMessageFromHistory h k = some (h', ids) ∧ ClosedForest h' := by
  cases hm : h.messages.get k with
  | none => exact ⟨h, [], by rw [deleteMessageFromHistory, hm], h₀⟩
  | some message =>
    obtain ⟨h', hcall, hget, hlinks, hkept, hcurrent⟩ := h₀.consistent.delete hm
    refine ⟨h', _, hcall, ?_, ?_, hkept.linked, ?_⟩
    · intro a m' hm'
      have hparent := hkept.parent a m' hm'
      obtain ⟨m, hma, rfl⟩ := get_of_cut hget hm'
      exact ⟨(get_afterCut (by decide) (by decide)).trans (h₀.placed a m hma).1, hparent⟩
    · intro a m' hm'
      obtain ⟨m, hma, rfl⟩ := get_of_cut hget hm'
      by_cases ho : parentIdOf message = some a
      · exact ⟨_, (get_childrenIds_afterCut _).trans (if_pos ho)⟩
      · exact ⟨_, ((get_childrenIds_afterCut _).trans (if_neg ho)).trans (h₀.lists a m hma).get⟩
    · intro a ha
      obtain ⟨-, hnone⟩ | ⟨leaf, hleaf, hin, -⟩ := hcurrent
      · rw [hnone] at ha
        cases ha
      · rw [hleaf] at ha
        obtain rfl := Option.some.inj ha
        exact Dict.mem_keys_iff.2 (Option.isSome_iff_exists.1 hin)

end

/-! ## Runs -/

variable {h h' : ChatHistory} {op : HistoryOp} {tr : List (HistoryOp × Bool)}

theorem ClosedForest.empty : ClosedForest .empty := by
  have hlinks : ChatHistory.empty.links = fun _ => none := rfl
  have hparents : ChatHistory.empty.links.parents = fun _ => none := rfl
  refine ⟨by rintro _ _ ⟨⟩, by rintro _ _ ⟨⟩, ⟨?_, ?_, ?_, by rintro _ _ ⟨⟩⟩, by rintro _ ⟨⟩⟩
  · rw [hparents]
    rintro _ _ ⟨⟩
  · rw [hparents]
    exact .empty
  · intro k
    rw [Links.children_of_none (by rw [hlinks])]
    exact List.nodup_nil

theorem ClosedForest.apply (h₀ : ClosedForest h) (hfits : HistoryFits h op) (hread : ¬ op.raises h) :
    ∃ h', op.apply h = some h' ∧ ClosedForest h' := by
  cases op with
  | upsert k message now => exact h₀.upsert hfits hread
  | insert k p message now first => exact h₀.insertLinked hfits
  | merge incoming => exact h₀.merge hfits
  | delete k =>
    obtain ⟨h', ids, hcall, hforest⟩ := h₀.delete k
    exact ⟨h', by rw [HistoryOp.apply, hcall]; rfl, hforest⟩

theorem ClosedForest.step (h₀ : ClosedForest h) (hfits : HistoryFits h op) {b : Bool}
    (hs : historyMachine.step h op = some (h', b)) : ClosedForest h' ∧ (b = false → op.raises h) := by
  by_cases hread : op.raises h
  · refine ⟨?_, fun _ => hread⟩
    cases op with
    | upsert k message now =>
      simp only [historyMachine, h₀.upsert_raises hfits hread] at hs
      cases hs
      exact h₀
    | insert | merge | delete => cases hread
  · obtain ⟨h₁, hcall, hforest⟩ := h₀.apply hfits hread
    simp only [historyMachine, hcall] at hs
    cases hs
    exact ⟨hforest, by rintro ⟨⟩⟩

/-- **Under upserts, merges and deletions the history stays a closed forest.** -/
theorem closedForest (h : historyMachine.RunIn HistoryFits .empty tr h') : ClosedForest h' :=
  h.invariant (fun _ _ _ _ hfits h₀ hs => (h₀.step hfits hs).1) .empty

theorem ClosedForest.closedHistory (h₀ : ClosedForest h) : ClosedHistory h :=
  ⟨h₀.placed, h₀.linked.closed, h₀.linked.acyclic⟩

theorem historyMachine_step {t : ChatHistory} (heq : op.apply h = some t) :
    historyMachine.step h op = some (t, true) := by
  simp [historyMachine, heq]

namespace Sample

def child (parentId : String) : PyDict := PyDict.put .empty "parentId" (.str (.lit parentId))

def oneMessage : ChatHistory := ((HistoryOp.upsert (.lit "a") .empty 0).apply .empty).getD .empty

def twoMessages : ChatHistory :=
  ((HistoryOp.insert (.lit "b") (.lit "a") (child "a") 1 true).apply oneMessage).getD .empty

def threeMessages : ChatHistory :=
  ((HistoryOp.insert (.lit "c") (.lit "b") (child "b") 2 false).apply twoMessages).getD .empty

def merged : ChatHistory := ((HistoryOp.merge oneMessage).apply threeMessages).getD .empty

theorem child_fits (k parentId : String) : NewFits (.lit k) (child parentId) :=
  ⟨by rintro ⟨⟩, by rintro _ ⟨⟩⟩

end Sample

/-- Three messages in a row; a merge with the first alone, and the deletion of the first, with its
    child, which leaves the third. -/
theorem closedForest_keeps : ∃ tr h', historyMachine.RunIn HistoryFits .empty tr h' ∧
    h'.currentId = some (.lit "c") ∧ h'.messages.keys = [.lit "c"] ∧ ClosedForest h' := by
  have hrun₁ : historyMachine.RunIn HistoryFits .empty [(.upsert (.lit "a") .empty 0, true)] Sample.oneMessage :=
    .snoc .nil ⟨⟨by rintro ⟨⟩, by rintro _ ⟨⟩⟩, rfl⟩ (historyMachine_step rfl)
  have hfits₂ : HistoryFits Sample.oneMessage (.insert (.lit "b") (.lit "a") (Sample.child "a") 1 true) :=
    ⟨by decide +kernel, by decide +kernel, Sample.child_fits _ _, rfl, by decide +kernel⟩
  have hrun₂ := hrun₁.snoc hfits₂ (historyMachine_step (t := Sample.twoMessages) rfl)
  have hfits₃ : HistoryFits Sample.twoMessages (.insert (.lit "c") (.lit "b") (Sample.child "b") 2 false) :=
    ⟨by decide +kernel, by decide +kernel, Sample.child_fits _ _, rfl, by decide +kernel⟩
  have hrun₃ := hrun₂.snoc hfits₃ (historyMachine_step (t := Sample.threeMessages) rfl)
  have hfits₄ : HistoryFits Sample.threeMessages (.merge Sample.oneMessage) :=
    (closedForest hrun₁).closedHistory
  have hrun₄ := hrun₃.snoc hfits₄ (historyMachine_step (t := Sample.merged) rfl)
  have hfits₅ : HistoryFits Sample.merged (.delete (.lit "a")) := trivial
  have hrun₅ := hrun₄.snoc hfits₅ (historyMachine_step rfl)
  exact ⟨_, _, hrun₅, by decide +kernel, by decide +kernel, closedForest hrun₅⟩

/-- A message that is saved under a parent is in no list, and is left without a parent when that one
    is deleted. -/
theorem closedForest_fails : ∃ h₁ h₂ h₃,
    (HistoryOp.upsert (.lit "a") .empty 0).apply .empty = some h₁ ∧
    (HistoryOp.upsert (.lit "b") (Sample.child "a") 0).apply h₁ = some h₂ ∧ ¬ h₂.links.Linked ∧
    (HistoryOp.delete (.lit "a")).apply h₂ = some h₃ ∧ ¬ h₃.links.parents.Closed := by
  refine ⟨_, _, _, rfl, rfl, ?_, rfl, ?_⟩
  · intro hlinked
    have hmem := (hlinked.exact (.lit "a") (.lit "b") (by decide +kernel)).2 (by decide +kernel)
    revert hmem
    decide +kernel
  · intro hclosed
    have hsome := hclosed (.lit "b") (.lit "a") (by decide +kernel)
    revert hsome
    decide +kernel

end TideBot
