/-
  Merging two histories (`models/chats.py`, `merge_history`).

  The merged messages are known outright (`mergeHistory_eq`): those of the two, the incoming ones laid over, each
  with the list of its children in the order of the keys.  They depend on no list of children, so that merging is
  idempotent and associative; and the parents are one forest laid over another.

  A parent that is a list or an object cannot be looked up, and raises; so does such a current id (`mergeSent`).
-/
import TideBot.Chat.Links

namespace TideBot

open Lib

section
variable {m : PyDict} {k : Text} {ids : List Text} {h a b c : ChatHistory}

/-! ## Lists of children -/

/-- The ids of the messages with parent `k`. -/
def childrenAmong (k : Text) (es : List (Text × PyDict)) : List Text :=
  (es.filter fun e => parentIdOf e.2 = some k).map Prod.fst

theorem mem_childrenAmong {c : Text} {d : Dict Text PyDict} :
    c ∈ childrenAmong k d.entries ↔ ∃ m, d.get c = some m ∧ parentIdOf m = some k := by
  simp only [childrenAmong, List.mem_map, List.mem_filter, decide_eq_true_eq, Prod.exists, exists_and_right,
    exists_eq_right, Dict.mem_entries_iff]

theorem nodup_childrenAmong (d : Dict Text PyDict) : (childrenAmong k d.entries).Nodup :=
  (List.filter_sublist.map _).nodup d.nodup

theorem childrenAmong_mapWithKey {f : Text → PyDict → PyDict} {d : Dict Text PyDict}
    (hf : ∀ k m, parentIdOf (f k m) = parentIdOf m) : childrenAmong k (d.mapWithKey f).entries = childrenAmong k d.entries := by
  rw [childrenAmong, childrenAmong, Dict.mapWithKey, List.filter_map, List.map_map]
  congr 1
  refine List.filter_congr fun e _ => ?_
  rw [Function.comp_apply, hf]

/-- The message with this list. -/
def listing (m : PyDict) (ids : List Text) : PyDict := m.put "childrenIds" (Json.strs ids)

theorem put_put (m : PyDict) (key : String) (v w : Json) : (m.put key v).put key w = m.put key w := Dict.set_set m _ v w

theorem listing_listing (m : PyDict) (ids ids' : List Text) : listing (listing m ids) ids' = listing m ids' :=
  put_put m _ _ _

theorem get_listing {key : Text} : (listing m ids).get key =
    if key = .lit "childrenIds" then some (Json.strs ids) else m.get key := by
  rw [listing, PyDict.put, Dict.get_set]

theorem parentIdOf_listing (m : PyDict) (ids : List Text) : parentIdOf (listing m ids) = parentIdOf m :=
  parentIdOf_congr (fetch_congr (by rw [get_listing, if_neg (by decide)]))

/-- The parent can be looked up. -/
def Hashable (h : ChatHistory) : Prop := ∀ k m, h.messages.get k = some m → (m.fetch "parentId").asKey.isSome

theorem asKey_parentId (h : (m.fetch "parentId").asKey.isSome) : (m.fetch "parentId").asKey = some (parentIdOf m) := by
  rw [parentIdOf]
  cases hp : m.fetch "parentId" <;> first | rfl | (rw [hp] at h; cases h)

theorem appendChild_eq (hm : m.get (.lit "childrenIds") = some (Json.strs ids)) : appendChild m k = listing m (ids ++ [k]) := by
  have hfetch : m.fetch "childrenIds" = .arr (ids.map .str) := fetch_of_get hm
  rw [appendChild, hfetch, listing, Json.strs, List.map_append]
  rfl

/-- **The loop enters every message in the list of its parent.** -/
theorem linkChildren_eq : ∀ (es : List (Text × PyDict)) (d : Dict Text PyDict) (cs : Text → List Text),
    (∀ e ∈ es, (e.2.fetch "parentId").asKey.isSome) →
    (∀ k m, d.get k = some m → m.get (.lit "childrenIds") = some (Json.strs (cs k))) →
    linkChildren d es = some (d.mapWithKey fun k m => listing m (cs k ++ childrenAmong k es)) := by
  intro es
  induction es with
  | nil =>
    intro d cs _ hd
    refine congrArg some (Dict.ext_get (Dict.keys_mapWithKey _ _).symm fun k => ?_)
    rw [Dict.get_mapWithKey]
    cases hm : d.get k with
    | none => rfl
    | some m =>
      have hsame : listing m (cs k) = m := Dict.set_get_self (hd k m hm)
      rw [Option.map_some, childrenAmong, List.filter_nil, List.map_nil, List.append_nil, hsame]
  | cons e es ih =>
    intro d cs hes hd
    obtain ⟨id, message⟩ := e
    have hkey := asKey_parentId (hes (id, message) List.mem_cons_self)
    have hrest : ∀ e ∈ es, (e.2.fetch "parentId").asKey.isSome := fun e he => hes e (List.mem_cons_of_mem _ he)
    have hcons : ∀ k, childrenAmong k ((id, message) :: es) =
        if parentIdOf message = some k then id :: childrenAmong k es else childrenAmong k es := by
      intro k
      by_cases hp : parentIdOf message = some k
      · rw [if_pos hp, childrenAmong, List.filter_cons_of_pos (by simpa using hp)]
        rfl
      · rw [if_neg hp, childrenAmong, List.filter_cons_of_neg (by simpa using hp)]
        rfl
    -- a message without a parent that is there enters no list
    have hskip : (∀ p, parentIdOf message = some p → d.get p = none) →
        linkChildren d es = some (d.mapWithKey fun k m => listing m (cs k ++ childrenAmong k ((id, message) :: es))) := by
      intro hout
      rw [ih d cs hrest hd]
      refine congrArg some (Dict.ext_get (by rw [Dict.keys_mapWithKey, Dict.keys_mapWithKey]) fun k => ?_)
      rw [Dict.get_mapWithKey, Dict.get_mapWithKey]
      refine Option.map_congr fun m hm => ?_
      rw [hcons, if_neg]
      intro hp
      rw [hout k hp] at hm
      cases hm
    cases hp : parentIdOf message with
    | none =>
      rw [linkChildren, hkey, hp]
      exact hskip (by rw [hp]; rintro _ ⟨⟩)
    | some p =>
      cases hparent : d.get p with
      | none =>
        rw [linkChildren, hkey, hp]
        simp only [Option.bind_eq_bind, Option.bind_some, hparent]
        exact hskip (by rw [hp]; rintro q ⟨⟩; exact hparent)
      | some parent =>
        have hin : p ∈ d.keys := Dict.mem_keys_iff.2 ⟨parent, hparent⟩
        have hnext : ∀ k m, (d.set p (appendChild parent id)).get k = some m →
            m.get (.lit "childrenIds") = some (Json.strs (Function.update cs p (cs p ++ [id]) k)) := by
          intro k m hm
          rw [Dict.get_set] at hm
          by_cases hk : k = p
          · subst hk
            rw [if_pos rfl] at hm
            obtain rfl := Option.some.inj hm
            rw [Function.update_self, appendChild_eq (hd k parent hparent), get_listing, if_pos rfl]
          · rw [if_neg hk] at hm
            rw [Function.update_of_ne hk]
            exact hd k m hm
        rw [linkChildren, hkey, hp]
        simp only [Option.bind_eq_bind, Option.bind_some, hparent]
        rw [ih _ _ hrest hnext]
        refine congrArg some (Dict.ext_get (by rw [Dict.keys_mapWithKey, Dict.keys_mapWithKey, Dict.keys_set_of_mem hin])
          fun k => ?_)
        rw [Dict.get_mapWithKey, Dict.get_mapWithKey, Dict.get_set, hcons, hp]
        by_cases hk : k = p
        · subst hk
          rw [if_pos rfl, if_pos rfl, hparent, Option.map_some, Option.map_some, appendChild_eq (hd k parent hparent),
            listing_listing, Function.update_self, List.append_assoc]
          rfl
        · have hne : ¬some p = some k := fun heq => hk (Option.some.inj heq).symm
          rw [if_neg hk, if_neg hne, Function.update_of_ne hk]

/-! ## The merged history -/

/-- The messages of both, without children. -/
def laidOver (incoming existing : ChatHistory) : Dict Text PyDict :=
  (existing.messages.update incoming.messages).mapValues fun message => message.put "childrenIds" (.arr [])

theorem get_laidOver {incoming : ChatHistory} : (laidOver incoming h).get k =
    ((incoming.messages.get k).or (h.messages.get k)).map fun m => m.put "childrenIds" (.arr []) := by
  rw [laidOver, Dict.get_mapValues, Dict.get_update]

theorem keys_laidOver (incoming existing : ChatHistory) : (laidOver incoming existing).keys =
    existing.messages.keys ++ incoming.messages.keys.filter fun k => k ∉ existing.messages.keys := by
  rw [laidOver, Dict.mapValues, Dict.keys_mapWithKey, Dict.keys_update]
  exact congrArg _ (List.filter_congr fun k _ => by simp)

/-- The messages of both, with their children. -/
def mergedMessages (existing incoming : ChatHistory) : Dict Text PyDict :=
  (laidOver incoming existing).mapWithKey fun k m => listing m (childrenAmong k (laidOver incoming existing).entries)

/-- The incoming current message, or else the old one. -/
def mergedHistory (existing incoming : ChatHistory) : ChatHistory where
  messages := mergedMessages existing incoming
  currentId :=
    (incoming.currentId.filter fun id => ((mergedMessages existing incoming).get id).isSome).or
      (existing.currentId.filter fun id => ((mergedMessages existing incoming).get id).isSome)

/-- **What `merge_history` makes of two histories.** -/
theorem mergeHistory_eq (ha : Hashable a) (hb : Hashable b) : mergeHistory a b = some (mergedHistory a b) := by
  have horigin : ∀ k m, (laidOver b a).get k = some m → ∃ m₀, (b.messages.get k).or (a.messages.get k) = some m₀ ∧
      m = listing m₀ [] := by
    intro k m hm
    rw [get_laidOver] at hm
    obtain ⟨m₀, hm₀, rfl⟩ := Option.map_eq_some_iff.1 hm
    exact ⟨m₀, hm₀, rfl⟩
  have hlink : linkChildren (laidOver b a) (laidOver b a).entries = some (mergedMessages a b) := by
    refine linkChildren_eq _ _ (fun _ => []) ?_ ?_
    · intro e he
      obtain ⟨m₀, hm₀, heq⟩ := horigin e.1 e.2 (Dict.get_of_mem he)
      have hfetch : e.2.fetch "parentId" = m₀.fetch "parentId" := by
        rw [heq]
        exact fetch_congr (by rw [get_listing, if_neg (by decide)])
      rw [hfetch]
      obtain hm₀ | ⟨-, hm₀⟩ := Option.or_eq_some_iff.1 hm₀
      · exact hb e.1 m₀ hm₀
      · exact ha e.1 m₀ hm₀
    · intro k m hm
      obtain ⟨m₀, -, rfl⟩ := horigin k m hm
      rw [get_listing, if_pos rfl]
  rw [laidOver] at hlink
  simp only [mergeHistory, hlink, Option.bind_eq_bind, Option.bind_some]
  rfl

theorem get_mergedMessages : (mergedMessages a b).get k = ((b.messages.get k).or (a.messages.get k)).map fun m =>
    listing m (childrenAmong k (mergedMessages a b).entries) := by
  have hamong : childrenAmong k (mergedMessages a b).entries = childrenAmong k (laidOver b a).entries :=
    childrenAmong_mapWithKey fun _ m => parentIdOf_listing m _
  rw [hamong, mergedMessages, Dict.get_mapWithKey, get_laidOver, Option.map_map]
  refine Option.map_congr fun m _ => ?_
  exact put_put m _ _ _

theorem keys_mergedMessages : (mergedMessages a b).keys =
    a.messages.keys ++ b.messages.keys.filter fun k => k ∉ a.messages.keys := by
  rw [mergedMessages, Dict.keys_mapWithKey, keys_laidOver]

theorem Hashable.merged (ha : Hashable a) (hb : Hashable b) : Hashable (mergedHistory a b) := by
  intro k m hm
  rw [mergedHistory, get_mergedMessages] at hm
  obtain ⟨m₀, hm₀, rfl⟩ := Option.map_eq_some_iff.1 hm
  have hfetch : (listing m₀ (childrenAmong k (mergedMessages a b).entries)).fetch "parentId" = m₀.fetch "parentId" :=
    fetch_congr (by rw [get_listing, if_neg (by decide)])
  rw [hfetch]
  obtain hm₀ | ⟨-, hm₀⟩ := Option.or_eq_some_iff.1 hm₀
  · exact hb k m₀ hm₀
  · exact ha k m₀ hm₀

/-- **The parents** are those of the incoming history, laid over the old ones. -/
theorem parents_mergedHistory : (mergedHistory a b).links.parents = b.links.parents.overlay a.links.parents := by
  funext k
  have hparents : ∀ h : ChatHistory, h.links.parents k = (h.messages.get k).map parentIdOf := by
    intro h
    rw [Links.parents, ChatHistory.links, Option.map_map]
    rfl
  have hget : (mergedHistory a b).messages.get k = _ := get_mergedMessages
  rw [Forest.overlay, hparents, hparents, hparents, hget, Option.map_map, Option.map_or]
  cases b.messages.get k <;> cases a.messages.get k <;> simp [parentIdOf_listing]

/-- **The merged history is linked** if the parents of both are closed and acyclic, even if they disagree. -/
theorem linked_mergedHistory (hac : a.links.parents.Closed) (haa : a.links.parents.Acyclic)
    (hbc : b.links.parents.Closed) (hba : b.links.parents.Acyclic) : (mergedHistory a b).links.Linked := by
  have hchildren : ∀ k, ((mergedHistory a b).links k).isSome →
      (mergedHistory a b).links.children k = childrenAmong k (mergedHistory a b).messages.entries := by
    intro k hk
    obtain ⟨m, hm⟩ := Option.isSome_iff_exists.1 (isSome_links.1 hk)
    rw [Links.children_of_some (links_of_get hm)]
    rw [mergedHistory, get_mergedMessages] at hm
    obtain ⟨m₀, -, rfl⟩ := Option.map_eq_some_iff.1 hm
    exact childrenIdsOf_strs (get_listing.trans (if_pos rfl))
  refine ⟨?_, ?_, ?_, ?_⟩
  · rw [parents_mergedHistory]
    exact hbc.overlay fun k p hup => .inr (hac k p hup)
  · rw [parents_mergedHistory]
    exact .overlay hbc hba haa
  · intro k
    cases hk : (mergedHistory a b).links k with
    | none =>
      rw [Links.children_of_none hk]
      exact List.nodup_nil
    | some x =>
      rw [hchildren k (by rw [hk]; rfl)]
      exact nodup_childrenAmong _
  · intro k c hk
    rw [hchildren k hk, mem_childrenAmong, Links.up_iff]
    constructor
    · rintro ⟨m, hm, hp⟩
      exact ⟨childrenIdsOf m, by rw [links_of_get hm, hp]⟩
    · rintro ⟨ids, hlinks⟩
      obtain ⟨m, hm, heq⟩ := links_eq_some.1 hlinks
      exact ⟨m, hm, (Prod.mk.inj heq).1⟩

theorem currentId_mergedHistory (hk : (mergedHistory a b).currentId = some k) : k ∈ (mergedHistory a b).messages.keys := by
  refine Dict.mem_keys_iff.2 (Option.isSome_iff_exists.1 ?_)
  obtain hk | ⟨-, hk⟩ := Option.or_eq_some_iff.1 hk
  · exact (Option.filter_eq_some_iff.1 hk).2
  · exact (Option.filter_eq_some_iff.1 hk).2

/-! ## Laws -/

theorem clear_listing (m : PyDict) (ids : List Text) :
    (listing m ids).put "childrenIds" (.arr []) = m.put "childrenIds" (.arr []) := put_put m _ _ _

theorem laidOver_merged : laidOver b (mergedHistory a b) = laidOver b a := by
  refine Dict.ext_get ?_ fun k => ?_
  · have hkeys : (mergedHistory a b).messages.keys = (laidOver b a).keys := by
      rw [keys_laidOver]
      exact keys_mergedMessages
    rw [keys_laidOver b (mergedHistory a b), hkeys, List.filter_eq_nil_iff.2, List.append_nil]
    intro k hk
    rw [keys_laidOver]
    by_cases ha : k ∈ a.messages.keys <;> simp [ha, hk]
  · have hget : (mergedHistory a b).messages.get k = _ := get_mergedMessages
    rw [get_laidOver, get_laidOver, hget]
    cases b.messages.get k with
    | some m => rfl
    | none =>
      rw [Option.none_or, Option.none_or, Option.map_map]
      exact Option.map_congr fun m _ => clear_listing m _

/-- **Merging again changes nothing.** -/
theorem mergedHistory_idem (a b : ChatHistory) : mergedHistory (mergedHistory a b) b = mergedHistory a b := by
  have hmessages : mergedMessages (mergedHistory a b) b = mergedMessages a b := by
    rw [mergedMessages, laidOver_merged]
    rfl
  rw [mergedHistory, hmessages]
  refine congrArg (ChatHistory.mk _) ?_
  dsimp only [mergedHistory]
  cases hb : b.currentId.filter fun id => ((mergedMessages a b).get id).isSome with
  | some id => rfl
  | none =>
    rw [Option.none_or, Option.none_or, Option.filter_filter]
    simp

theorem laidOver_assoc : laidOver c (mergedHistory a b) = laidOver (mergedHistory b c) a := by
  refine Dict.ext_get ?_ fun k => ?_
  · have hab : (mergedHistory a b).messages.keys = _ := keys_mergedMessages
    have hbc : (mergedHistory b c).messages.keys = _ := keys_mergedMessages
    rw [keys_laidOver, keys_laidOver, hab, hbc, List.filter_append, List.append_assoc, List.filter_filter]
    congr 2
    refine List.filter_congr fun k _ => ?_
    by_cases ha : k ∈ a.messages.keys <;> by_cases hb : k ∈ b.messages.keys <;> simp [ha, hb]
  · have hab : (mergedHistory a b).messages.get k = _ := get_mergedMessages
    have hbc : (mergedHistory b c).messages.get k = _ := get_mergedMessages
    rw [get_laidOver, get_laidOver, hab, hbc]
    cases c.messages.get k with
    | some m => simp [clear_listing]
    | none =>
      cases b.messages.get k with
      | some m => simp [clear_listing]
      | none =>
        rw [Option.none_or, Option.none_or, Option.none_or, Option.map_none, Option.none_or, Option.map_map]
        exact Option.map_congr fun m _ => clear_listing m _

/-- **Three histories may be merged in any grouping.** -/
theorem mergedMessages_assoc (a b c : ChatHistory) :
    mergedMessages (mergedHistory a b) c = mergedMessages a (mergedHistory b c) := by
  rw [mergedMessages, mergedMessages, laidOver_assoc]

/-! ## Current ids that are anything -/

/-- A history as it is stored and sent. -/
structure SentHistory where
  messages : Dict Text PyDict
  currentId : Json

/-- `merge_history`, with `currentId` as it is sent -/
def mergeSent (existing incoming : SentHistory) : Option SentHistory := do
  let merged := (existing.messages.update incoming.messages).mapValues
    fun message => message.put "childrenIds" (.arr [])
  let messages ← linkChildren merged merged.entries
  let present (id : Json) := id.asKey.map fun key => key.any fun k => (messages.get k).isSome
  if ← present incoming.currentId then return ⟨messages, incoming.currentId⟩
  else if ← present existing.currentId then return ⟨messages, existing.currentId⟩
  else return ⟨messages, .null⟩

/-- With the current id if it is a string. -/
def SentHistory.plain (h : SentHistory) : ChatHistory := ⟨h.messages, h.currentId.asKey.join⟩

def ChatHistory.sent (h : ChatHistory) : SentHistory := ⟨h.messages, h.currentId.elim .null .str⟩

/-- The parents and the current id can be looked up. -/
structure SentHistory.Hashable (h : SentHistory) : Prop where
  parents : TideBot.Hashable h.plain
  current : h.currentId.asKey.isSome

@[simp] theorem ChatHistory.plain_sent (h : ChatHistory) : h.sent.plain = h := by
  obtain ⟨messages, currentId⟩ := h
  cases currentId <;> rfl

theorem ChatHistory.hashable_sent (hh : Hashable h) : h.sent.Hashable := by
  refine ⟨h.plain_sent.symm ▸ hh, ?_⟩
  obtain ⟨messages, currentId⟩ := h
  cases currentId <;> rfl

/-- **The current id is looked up in the same way.** -/
theorem mergeSent_eq {x y : SentHistory} (hx : x.Hashable) (hy : y.Hashable) :
    mergeSent x y = some (mergedHistory x.plain y.plain).sent := by
  have hmerge := mergeHistory_eq hx.parents hy.parents
  simp only [mergeHistory, Option.bind_eq_bind, Option.bind_eq_some_iff] at hmerge
  obtain ⟨messages, hlink, hmerged⟩ := hmerge
  rw [← Option.some.inj hmerged, mergeSent]
  have hlink' : linkChildren ((x.messages.update y.messages).mapValues fun m => m.put "childrenIds" (.arr []))
      ((x.messages.update y.messages).mapValues fun m => m.put "childrenIds" (.arr [])).entries = some messages := hlink
  simp only [hlink', Option.bind_eq_bind, Option.bind_some]
  have hlookup : ∀ v : Json, v.asKey.isSome → v.asKey = some none ∨ ∃ k, v = .str k := by
    intro v hv
    cases v with
    | str k => exact .inr ⟨k, rfl⟩
    | arr | obj => cases hv
    | null | bool | int | float => exact .inl rfl
  simp only [SentHistory.plain]
  obtain hy' | ⟨k, hk⟩ := hlookup _ hy.current <;> obtain hx' | ⟨l, hl⟩ := hlookup _ hx.current
  · rw [hy', hx']
    rfl
  · rw [hy', hl]
    cases hpresent : (messages.get l).isSome <;> simp [Json.asKey, hpresent, ChatHistory.sent, Option.filter_some]
  · rw [hk, hx']
    cases hpresent : (messages.get k).isSome <;> simp [Json.asKey, hpresent, ChatHistory.sent, Option.filter_some]
  · rw [hk, hl]
    cases hpresent : (messages.get k).isSome <;> cases hpresent' : (messages.get l).isSome <;>
      simp [Json.asKey, hpresent, hpresent', ChatHistory.sent, Option.filter_some]

/-- **Merging histories**: what the messages, their lists and the current message are; merging again changes nothing,
    three may be grouped, and parents that are closed and acyclic stay so. -/
theorem mergeHistory_laws {x y z : SentHistory} (hx : x.Hashable) (hy : y.Hashable) (hz : z.Hashable) :
    ∃ xy, mergeSent x y = some xy ∧
    (∀ k, (xy.messages.get k).isSome ↔ (x.messages.get k).isSome ∨ (y.messages.get k).isSome) ∧
    (∀ k m, xy.messages.get k = some m →
      (∃ source, (y.messages.get k).or (x.messages.get k) = some source ∧
        ∀ key, key ≠ .lit "childrenIds" → m.get key = source.get key) ∧
      m.get (.lit "childrenIds") = some (Json.strs (childrenAmong k xy.messages.entries))) ∧
    (xy.currentId = .null ∨ ∃ k ∈ xy.messages.keys, xy.currentId = .str k) ∧
    mergeSent xy y = some xy ∧
    (∃ xyz yz xyz', mergeSent xy z = some xyz ∧ mergeSent y z = some yz ∧ mergeSent x yz = some xyz' ∧
      xyz.messages = xyz'.messages) ∧
    (x.plain.links.parents.Closed → x.plain.links.parents.Acyclic → y.plain.links.parents.Closed →
      y.plain.links.parents.Acyclic → xy.plain.links.parents.Closed ∧ xy.plain.links.parents.Acyclic) := by
  have hxy : (mergedHistory x.plain y.plain).sent.Hashable := ChatHistory.hashable_sent (hx.parents.merged hy.parents)
  have hyz : (mergedHistory y.plain z.plain).sent.Hashable := ChatHistory.hashable_sent (hy.parents.merged hz.parents)
  refine ⟨(mergedHistory x.plain y.plain).sent, mergeSent_eq hx hy, ?_, ?_, ?_, ?_, ?_, ?_⟩
  · intro k
    have hget : (mergedHistory x.plain y.plain).messages.get k = _ := get_mergedMessages
    rw [ChatHistory.sent, hget, Option.isSome_map, Option.isSome_or, Bool.or_eq_true, or_comm]
    rfl
  · intro k m hm
    rw [ChatHistory.sent, mergedHistory, get_mergedMessages] at hm
    obtain ⟨source, hsource, rfl⟩ := Option.map_eq_some_iff.1 hm
    refine ⟨⟨source, hsource, fun key hkey => ?_⟩, ?_⟩
    · rw [get_listing, if_neg hkey]
    · rw [get_listing, if_pos rfl]
      rfl
  · cases hcurrent : (mergedHistory x.plain y.plain).currentId with
    | none => exact .inl (by rw [ChatHistory.sent, hcurrent]; rfl)
    | some k => exact .inr ⟨k, currentId_mergedHistory hcurrent, by rw [ChatHistory.sent, hcurrent]; rfl⟩
  · rw [mergeSent_eq hxy hy, ChatHistory.plain_sent, mergedHistory_idem]
  · refine ⟨_, _, _, mergeSent_eq hxy hz, mergeSent_eq hy hz, mergeSent_eq hx hyz, ?_⟩
    rw [ChatHistory.plain_sent, ChatHistory.plain_sent]
    exact mergedMessages_assoc x.plain y.plain z.plain
  · intro hxc hxa hyc hya
    have hlinked := linked_mergedHistory hxc hxa hyc hya
    rw [ChatHistory.plain_sent]
    exact ⟨hlinked.closed, hlinked.acyclic⟩

end

namespace Sample

def saved (es : List (String × Json)) (currentId : Json) : SentHistory :=
  ⟨es.foldl (fun d e => d.set (.lit e.1) (PyDict.put .empty "parentId" e.2)) .empty, currentId⟩

/-- A question `a`, an answer `b` and another question `c`; then `b` under `c`, in a history that lacks `a`; then an
    answer `d` to `a`. -/
def asked : SentHistory := saved [("a", .null), ("b", .str (.lit "a")), ("c", .str (.lit "b"))] (.str (.lit "c"))

def regrafted : SentHistory := saved [("c", .null), ("b", .str (.lit "c"))] (.int 3)

def answeredAgain : SentHistory := saved [("a", .null), ("d", .str (.lit "a"))] (.str (.lit "d"))

theorem saved_hashable {h : SentHistory} (hparents : ∀ e ∈ h.messages.entries, (e.2.fetch "parentId").asKey.isSome)
    (hcurrent : h.currentId.asKey.isSome) : h.Hashable :=
  ⟨fun k m hm => hparents (k, m) (Dict.mem_entries_iff.2 hm), hcurrent⟩

end Sample

/-- Two histories in which each of two messages is above the other, and a third. -/
theorem mergeHistory_laws_sample : ∃ xy, mergeSent Sample.asked Sample.regrafted = some xy ∧
    Sample.asked.plain.links.parents.Up (.lit "c") (.lit "b") ∧
    Sample.regrafted.plain.links.parents.Up (.lit "b") (.lit "c") ∧
    (∀ k, (xy.messages.get k).isSome ↔
      (Sample.asked.messages.get k).isSome ∨ (Sample.regrafted.messages.get k).isSome) ∧
    mergeSent xy Sample.regrafted = some xy ∧
    (∃ xyz yz xyz', mergeSent xy Sample.answeredAgain = some xyz ∧
      mergeSent Sample.regrafted Sample.answeredAgain = some yz ∧ mergeSent Sample.asked yz = some xyz' ∧
      xyz.messages = xyz'.messages) ∧
    xy.plain.links.parents.Closed ∧ xy.plain.links.parents.Acyclic := by
  have hasked := parents_of_rank (h := Sample.asked.plain) (fun k => (k.headD 0).val) (by decide +kernel)
  have hregrafted := parents_of_rank (h := Sample.regrafted.plain) (fun k => 200 - (k.headD 0).val) (by decide +kernel)
  obtain ⟨xy, hmerge, hkeys, -, -, hidem, hassoc, hparents⟩ := mergeHistory_laws
    (Sample.saved_hashable (h := Sample.asked) (by decide) rfl)
    (Sample.saved_hashable (h := Sample.regrafted) (by decide) rfl)
    (Sample.saved_hashable (h := Sample.answeredAgain) (by decide) rfl)
  exact ⟨xy, hmerge, up_links.2 ⟨_, rfl, rfl⟩, up_links.2 ⟨_, rfl, rfl⟩, hkeys, hidem, hassoc,
    hparents hasked.1 hasked.2 hregrafted.1 hregrafted.2⟩

/-- **A parent that is a list** raises, and so does a current id. -/
theorem not_mergeHistory :
    mergeSent (Sample.saved [("m", .arr [])] .null) (Sample.saved [] .null) = none ∧
      mergeSent (Sample.saved [("m", .null)] (.str (.lit "m"))) (Sample.saved [("m", .null)] (.arr [])) = none := by
  decide +kernel

end TideBot
