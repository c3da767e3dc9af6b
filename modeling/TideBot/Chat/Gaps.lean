/-
  Gaps in the rows of a chat (`get_unresolved_parent_ids`, `Chats.get_messages_map_by_chat_id`).

  A message that a row refers to and that has no row is taken from the history.  What it refers to
  itself is not looked for: of several messages in a row that have none, one is found.
-/
import TideBot.Chat.Agreement
import TideBot.Chat.Coverage

namespace TideBot

open Lib Relation

/-! ## Branches -/

namespace BranchOf

variable {messages messages' : Dict Text PyDict} {k : Text} {l l' : List (Text × PyDict)}

theorem unique (h : BranchOf messages k l) (h' : BranchOf messages k l') : l = l' := by
  induction h generalizing l' with
  | root hm hup =>
    cases h' with
    | root hm' _ =>
      obtain rfl := Option.some.inj (hm.symm.trans hm')
      rfl
    | step hm' hup' _ =>
      obtain rfl := Option.some.inj (hm.symm.trans hm')
      rw [hup] at hup'
      cases hup'
  | step hm hup _ ih =>
    cases h' with
    | root hm' hup' =>
      obtain rfl := Option.some.inj (hm.symm.trans hm')
      rw [hup'] at hup
      cases hup
    | step hm' hup' hl' =>
      obtain rfl := Option.some.inj (hm.symm.trans hm')
      obtain rfl := Option.some.inj (hup.symm.trans hup')
      rw [ih hl']

/-- No message is passed twice: from it the way up would be as long as from below. -/
theorem nodup (h : BranchOf messages k l) : (l.map Prod.fst).Nodup := by
  induction h with
  | root _ _ => simp
  | @step k m p l hm hup hl ih =>
    rw [List.map_cons, List.nodup_cons]
    refine ⟨?_, ih⟩
    intro hk
    obtain ⟨⟨k', m'⟩, hmem, rfl⟩ := List.mem_map.1 hk
    obtain ⟨pre, post, rfl⟩ := List.append_of_mem hmem
    have heq := unique (hl.split rfl) (.step hm hup hl)
    have hlength := congrArg List.length heq
    simp only [List.length_cons, List.length_append] at hlength
    omega

theorem up (h : BranchOf messages k l) : ∀ e ∈ l, ReflTransGen (treeOf messages).Up k e.1 := by
  induction h with
  | root _ _ => simpa using ReflTransGen.refl
  | step hm hup _ ih =>
    intro e he
    rcases List.mem_cons.1 he with rfl | he
    · exact .refl
    · exact .head (up_treeOf.2 ⟨_, hm, hup⟩) (ih e he)

theorem congr (h : BranchOf messages k l) (heq : ∀ e ∈ l, messages'.get e.1 = messages.get e.1) :
    BranchOf messages' k l := by
  induction h with
  | root hm hup => exact .root ((heq _ List.mem_cons_self).trans hm) hup
  | step hm hup _ ih =>
    exact .step ((heq _ List.mem_cons_self).trans hm) hup (ih fun e he => heq e (List.mem_cons_of_mem _ he))

/-- **The loop of `get_message_list` passes the branch.** -/
theorem branchUp (h : BranchOf messages k l)
    (hpass : ∀ e ∈ l, e.2.entries ≠ [] ∧ parentKey e.2 = some (upId e.2)) (fuel : ℕ) {visited : List Text}
    (hvisited : ∀ e ∈ l, e.1 ∉ visited) (hfuel : l.length ≤ fuel) :
    branchUp messages fuel visited k = some l := by
  induction h generalizing fuel visited with
  | @root k m hm hup =>
    obtain ⟨fuel, rfl⟩ : ∃ n, fuel = n + 1 := Nat.exists_eq_add_of_le' hfuel
    obtain ⟨hfilled, hkey⟩ := hpass (k, m) (by simp)
    have hnew : k ∉ visited := hvisited (k, m) (by simp)
    simp [TideBot.branchUp, hm, hnew, hfilled, hkey, hup]
  | @step k m p l hm hup hl ih =>
    have hnd := (BranchOf.step hm hup hl).nodup
    rw [List.map_cons, List.nodup_cons] at hnd
    obtain ⟨fuel, rfl⟩ : ∃ n, fuel = n + 1 := Nat.exists_eq_add_of_le' (Nat.le_of_add_left_le hfuel)
    obtain ⟨hfilled, hkey⟩ := hpass (k, m) (by simp)
    have hnew : k ∉ visited := hvisited (k, m) (by simp)
    have hrest : TideBot.branchUp messages fuel (k :: visited) p = some l := by
      refine ih (fun e he => hpass e (List.mem_cons_of_mem _ he)) fuel ?_ (by simpa using hfuel)
      intro e he hin
      rcases List.mem_cons.1 hin with heq | hin
      · exact hnd.1 (List.mem_map.2 ⟨e, he, heq⟩)
      · exact hvisited e (List.mem_cons_of_mem _ he) hin
    simp [TideBot.branchUp, hm, hnew, hfilled, hkey, hup, hrest]

/-- **`get_message_list` gives the branch, from the root on.** -/
theorem getMessageList (h : BranchOf messages k l)
    (hpass : ∀ e ∈ l, e.2.entries ≠ [] ∧ parentKey e.2 = some (upId e.2)) :
    getMessageList messages k = some l.reverse := by
  have hle : (l.map Prod.fst).length ≤ messages.keys.length := by
    refine (List.subperm_of_subset h.nodup ?_).length_le
    intro a ha
    obtain ⟨e, he, rfl⟩ := List.mem_map.1 ha
    exact Dict.mem_keys_iff.2 ⟨e.2, h.get e he⟩
  rw [List.length_map, Dict.keys, List.length_map] at hle
  rw [TideBot.getMessageList, h.branchUp hpass _ (by simp) (by rw [Dict.size]; omega), Option.map_some]

end BranchOf

/-! ## The map -/

/-- The messages of a chat: a row stands for the message of its id. -/
def allMessages (store : ChatStore) : Dict Text PyDict := store.history.messages.update (rowsMap store.rows)

/-- All messages that `k` is under are there. -/
def Whole (messages : Dict Text PyDict) (k : Text) : Prop :=
  ∀ a, ReflTransGen (treeOf messages).Up k a →
    ∃ m, messages.get a = some m ∧ ((m.fetch "parentId").truthy → ∃ p, m.fetch "parentId" = .str p)

/-- The map has all messages that the message of a row is under, and from each the walk goes up to
    its root. -/
def RestoresBranches (store : ChatStore) : Prop :=
  ∀ k, (store.rows.get k).isSome → Whole (allMessages store) k →
    ∀ a, ReflTransGen (treeOf (allMessages store)).Up k a →
      ((getMessagesMap store).get a).isSome ∧
      ∀ l, BranchOf (allMessages store) a l → getMessageList (getMessagesMap store) a = some l.reverse

/-- Each of them has a row or is what a row refers to, and none is an empty object. -/
def ShortGaps (store : ChatStore) : Prop :=
  ∀ k, (store.rows.get k).isSome → Whole (allMessages store) k →
    ∀ a, ReflTransGen (treeOf (allMessages store)).Up k a →
      ((store.rows.get a).isSome ∨ ∃ r row, store.rows.get r = some row ∧ row.parentId = .str a) ∧
      ∀ m, (allMessages store).get a = some m → m.entries ≠ []

section
variable {store : ChatStore} {rows : Dict Text ChatRow} {historyMessages messages : Dict Text PyDict}
variable {ids : List Text} {k a : Text} {m : PyDict}

theorem get_rowsMap (rows : Dict Text ChatRow) (k : Text) :
    Option.Rel (fun (row : ChatRow) m => m.entries ≠ [] ∧ m.fetch "parentId" = row.parentId)
      (rows.get k) ((rowsMap rows).get k) := by
  obtain ⟨d, hd, hlinks⟩ := rowsMap_relinked rows
  have hrel := hlinks k
  rw [hd] at hrel
  generalize (rowsMap rows).get k = read at hrel ⊢
  cases hrow : rows.get k with
  | none =>
    rw [hrow] at hrel
    cases hrel
    exact .none
  | some row =>
    rw [hrow] at hrel
    cases hrel with
    | @some _ m hm =>
      have hparent : m.fetch "parentId" = row.parentId :=
        (hm.fetch (by simp)).trans (fetch_toMessage (by simp) (by simp [ChatRow.columns]))
      refine .some ⟨?_, hparent⟩
      intro hempty
      have hcontent : m.get (.lit "content") = none := by
        rw [Dict.get, hempty]
        rfl
      rw [hm.others "content" (by simp), toMessage_get (by simp)] at hcontent
      simp at hcontent

theorem isSome_rowsMap : ((rowsMap rows).get k).isSome ↔ (rows.get k).isSome := by
  have hrel := get_rowsMap rows k
  revert hrel
  generalize rows.get k = row, (rowsMap rows).get k = read
  rintro (_ | _) <;> simp

theorem get_addMissing : (addMissing historyMessages messages ids).get k =
    if k ∈ ids then (historyMessages.get k).or (messages.get k) else messages.get k := by
  unfold addMissing
  induction ids generalizing messages with
  | nil => simp
  | cons id ids ih =>
    rw [List.foldl_cons, ih]
    cases hid : historyMessages.get id with
    | none =>
      by_cases hk : k = id
      · subst hk
        simp [hid]
      · simp [hk]
    | some m =>
      by_cases hk : k = id
      · subst hk
        simp [hid]
      · simp [hk, Dict.get_set_of_ne _ hk]

theorem mem_unresolved_rowsMap : a ∈ unresolvedParentIds (rowsMap rows) ↔
    a ≠ [] ∧ rows.get a = none ∧ ∃ r row, rows.get r = some row ∧ row.parentId = .str a := by
  have hnone : rows.get a = none ↔ ¬ ((rowsMap rows).get a).isSome := by
    rw [isSome_rowsMap, Option.not_isSome_iff_eq_none]
  rw [hnone, unresolvedParentIds, List.mem_filterMap]
  constructor
  · rintro ⟨⟨r, m⟩, he, hparent⟩
    have hrel := get_rowsMap rows r
    rw [Dict.mem_entries_iff.1 he] at hrel
    generalize hread : rows.get r = read at hrel
    obtain ⟨-, hm⟩ | _ := hrel
    rename_i row
    simp only at hparent
    split at hparent
    · rename_i p hp
      split_ifs at hparent with habsent
      cases hparent
      rw [not_or] at habsent
      exact ⟨habsent.1, habsent.2, r, row, hread, hm.symm.trans hp⟩
    · cases hparent
  · rintro ⟨hne, habsent, r, row, hrow, hparent⟩
    have hrel := get_rowsMap rows r
    rw [hrow] at hrel
    generalize hm : (rowsMap rows).get r = read at hrel
    obtain ⟨-, hm'⟩ | _ := hrel
    rename_i m
    refine ⟨(r, m), Dict.mem_entries_iff.2 hm, ?_⟩
    simp only [hm', hparent]
    rw [if_neg (not_or.2 ⟨hne, habsent⟩)]

/-- **The map has the messages with rows and what their rows refer to, and these as they are.** -/
theorem get_getMessagesMap (hrow : (store.rows.get k).isSome) (a : Text) :
    (getMessagesMap store).get a =
      if (store.rows.get a).isSome ∨ a ∈ unresolvedParentIds (rowsMap store.rows) then (allMessages store).get a
      else none := by
  have hfilled : ¬ store.rows.entries.isEmpty := by
    intro hempty
    rw [Dict.get, List.isEmpty_iff.1 hempty] at hrow
    cases hrow
  rw [getMessagesMap, if_neg hfilled, get_addMissing, allMessages, Dict.get_update]
  cases hread : (rowsMap store.rows).get a with
  | none =>
    have habsent : ¬ (store.rows.get a).isSome := by
      rw [← isSome_rowsMap, hread]
      simp
    simp [habsent]
  | some m =>
    have hin : (store.rows.get a).isSome := isSome_rowsMap.1 (by rw [hread]; rfl)
    have hnot : a ∉ unresolvedParentIds (rowsMap store.rows) := by
      intro hasked
      rw [(mem_unresolved_rowsMap.1 hasked).2.1] at hin
      cases hin
    simp [hin, hnot]

theorem upId_of_empty (hempty : m.entries = []) : upId m = none := by
  have hfetch : m.fetch "parentId" = .null := fetch_of_absent (by rw [Dict.get, hempty]; rfl)
  rw [upId, hfetch]

theorem upId_ne_nil (hup : upId m = some a) : a ≠ [] := by
  unfold upId at hup
  split at hup
  · split_ifs at hup with hp
    cases hup
    exact hp
  · cases hup

theorem getMessageList_of_empty (hm : messages.get k = some m) (hempty : m.entries = []) :
    getMessageList messages k = some [] := by
  simp [getMessageList, branchUp, hm, hempty]

end

/-- **The whole branches of a chat are restored just if its gaps are short.** -/
theorem getMessagesMap_restores_iff (store : ChatStore) : RestoresBranches store ↔ ShortGaps store := by
  constructor
  · intro h k hrow hwhole a ha
    obtain ⟨hin, hwalk⟩ := h k hrow hwhole a ha
    rw [get_getMessagesMap hrow] at hin
    refine ⟨?_, ?_⟩
    · split_ifs at hin with hfound
      · exact hfound.imp_right fun hasked => (mem_unresolved_rowsMap.1 hasked).2.2
      · cases hin
    · intro m hm hempty
      have hlist := hwalk _ (.root hm (upId_of_empty hempty))
      have hget : (getMessagesMap store).get a = some m := by
        rw [get_getMessagesMap hrow]
        split_ifs at hin ⊢
        · exact hm
        · cases hin
      rw [getMessageList_of_empty hget hempty] at hlist
      cases hlist
  · intro h k hrow hwhole
    have hget : ∀ a, ReflTransGen (treeOf (allMessages store)).Up k a →
        (getMessagesMap store).get a = (allMessages store).get a := by
      intro a ha
      rw [get_getMessagesMap hrow, if_pos]
      by_cases hin : (store.rows.get a).isSome
      · exact .inl hin
      · refine .inr (mem_unresolved_rowsMap.2 ⟨?_, Option.not_isSome_iff_eq_none.1 hin, ?_⟩)
        · rcases ha.cases_tail with rfl | ⟨b, -, hb⟩
          · exact absurd hrow hin
          · obtain ⟨m, -, hup⟩ := up_treeOf.1 hb
            exact upId_ne_nil hup
        · exact (h k hrow hwhole a ha).1.resolve_left hin
    intro a ha
    refine ⟨?_, ?_⟩
    · obtain ⟨m, hm, -⟩ := hwhole a ha
      rw [hget a ha, hm]
      rfl
    · intro l hl
      have hbranch : BranchOf (getMessagesMap store) a l := hl.congr fun e he => hget _ (ha.trans (hl.up e he))
      refine hbranch.getMessageList fun e he => ?_
      have hup := ha.trans (hl.up e he)
      obtain ⟨m, hm, hids⟩ := hwhole _ hup
      obtain rfl := Option.some.inj (hm.symm.trans (hl.get e he))
      exact ⟨(h k hrow hwhole _ hup).2 _ hm, parentKey_eq hids⟩

namespace Sample

/-- Three messages, one below the other, of which the last alone has a row. -/
def lastSaved : ChatStore :=
  let root := PyDict.put .empty "content" (.str (.lit "q"))
  let reply := root.put "parentId" (.str (.lit "a"))
  let last := root.put "parentId" (.str (.lit "b"))
  { history := ⟨((Dict.empty.set (.lit "a") root).set (.lit "b") reply).set (.lit "c") last, none⟩
    rows := (upsertRow noText .empty (.lit "c") last 1).getD .empty }

theorem up_lastSaved {k p : Text} (h : (treeOf (allMessages lastSaved)).Up k p) :
    (k = .lit "c" ∧ p = .lit "b") ∨ (k = .lit "b" ∧ p = .lit "a") := by
  obtain ⟨m, hm, hup⟩ := up_treeOf.1 h
  have hall : ∀ e ∈ (allMessages lastSaved).entries, ∀ p ∈ upId e.2,
      (e.1 = .lit "c" ∧ p = .lit "b") ∨ (e.1 = .lit "b" ∧ p = .lit "a") := by
    decide +kernel
  exact hall (k, m) (Dict.mem_entries_iff.2 hm) p hup

theorem above_lastSaved {a : Text} (h : ReflTransGen (treeOf (allMessages lastSaved)).Up (.lit "c") a) :
    a = .lit "c" ∨ a = .lit "b" ∨ a = .lit "a" := by
  induction h with
  | refl => exact .inl rfl
  | tail _ hup _ =>
    obtain ⟨-, rfl⟩ | ⟨-, rfl⟩ := up_lastSaved hup
    · exact .inr (.inl rfl)
    · exact .inr (.inr rfl)

theorem whole_lastSaved : Whole (allMessages lastSaved) (.lit "c") := by
  intro a ha
  obtain rfl | rfl | rfl := above_lastSaved ha
  · exact ⟨_, rfl, fun _ => ⟨_, rfl⟩⟩
  · exact ⟨_, rfl, fun _ => ⟨_, rfl⟩⟩
  · exact ⟨_, rfl, fun htruthy => by cases htruthy⟩

end Sample

/-- Of two messages without rows, the upper one is not found. -/
theorem not_getMessagesMap_restores : ¬ ∀ store, RestoresBranches store := by
  intro h
  have hup : ReflTransGen (treeOf (allMessages Sample.lastSaved)).Up (.lit "c") (.lit "a") := by
    refine .head (b := .lit "b") (up_treeOf.2 ⟨_, rfl, rfl⟩) (.single (up_treeOf.2 ⟨_, rfl, rfl⟩))
  obtain ⟨hfound, -⟩ := h Sample.lastSaved (.lit "c") rfl Sample.whole_lastSaved (.lit "a") hup
  exact absurd hfound (by decide +kernel)

end TideBot
