/-
  The rows of a chat and its history agree.

  `ChatStore.Agrees`: there is a row for each message and no other, with the same role, parent,
  content, output, files, status history and `done`.  Upserts and deletions keep it where the
  row can be written and nothing is left to a default (`ChatFits`); the status and the files that
  are added to a message go to the history alone.
-/
import TideBot.Chat.Rows

namespace TideBot

open Lib

/-- The row holds what the message holds. -/
structure RowAgrees (row : ChatRow) (m : PyDict) : Prop where
  role : row.role = m.fetch "role"
  parentId : row.parentId = m.fetch "parentId"
  content : row.content = m.fetch "content"
  output : row.output = m.fetch "output"
  files : row.files = m.fetch "files"
  statusHistory : row.statusHistory = m.fetch "statusHistory"
  done : row.done = m.fetch "done"

/-- The rows are those of the messages. -/
structure ChatStore.Agrees (s : ChatStore) : Prop where
  keys : ∀ k, (s.rows.get k).isSome ↔ (s.history.messages.get k).isSome
  fields : ∀ k row m, s.rows.get k = some row → s.history.messages.get k = some m → RowAgrees row m

/-! ## When it is kept -/

section
variable (py : PyConv)

/-- The message has no second name for a field of the row. -/
def OneName (m : PyDict) : Prop :=
  ¬ (m.fetch "parent_id").truthy ∧ ¬ (m.fetch "status_history").truthy

/-- The message can be written to the row. -/
def Writable (usage : Option PyDict) (m : PyDict) : Prop := OneName m ∧ (addUsage py usage m).isSome

/-- The condition on an operation. -/
def ChatFits (s : ChatStore) (op : ChatOp) : Prop :=
  cleanHistory s.history = s.history ∧
  match op with
  | .upsert messageId message _ =>
    match s.history.messages.get (sanitizeText messageId) with
    | some old => ∀ row, s.rows.get (sanitizeText messageId) = some row →
        Writable py row.usage (old.update (payloadOf py message))
    | none => OneName (payloadOf py message) ∧ (getUsage py (payloadOf py message)).isSome ∧
        ((payloadOf py message).get (.lit "done")).isSome
  | .delete .. => ∀ k m row, s.history.messages.get k = some m → s.rows.get k = some row →
      (m.fetch "role").truthy ∧ Writable py row.usage m
  | .addStatus messageId _ => ∀ m, s.history.messages.get messageId = some m →
      ∀ xs, m.fetchD "statusHistory" (.arr []) ≠ .arr xs
  | .addFiles messageId files => ∀ m, s.history.messages.get messageId = some m →
      (∀ xs, m.fetchD "files" (.arr []) ≠ .arr xs) ∨ (files = [] ∧ (m.get (.lit "files")).isSome)

end

/-! ## One row -/

section
variable {py : PyConv} {row row' : ChatRow} {m old data : PyDict} {now : ℤ} {key key' : String} {v : Json}

theorem fetch_of_absent (h : data.get (.lit key) = none) : data.fetch key = .null := by
  rw [PyDict.fetch, h]
  rfl

theorem carried_eq (h : data.get (.lit key) = none → v = .null) : carried data key v = data.fetch key := by
  unfold carried PyDict.fetch
  cases hd : data.get (.lit key) with
  | none => exact h hd
  | some x => rfl

theorem or_of_falsy {a b : Json} (h : ¬ a.truthy) : a.or b = b := if_neg h

theorem carriedOr_eq (hone : ¬ (data.fetch key).truthy) (h : data.get (.lit key') = none → v = .null) :
    carriedOr data key key' v = data.fetch key' := by
  unfold carriedOr
  split_ifs with hin
  · exact or_of_falsy hone
  · have hnone : data.get (.lit key') = none := by
      rw [Bool.or_eq_true, not_or] at hin
      exact Option.not_isSome_iff_eq_none.1 hin.2
    rw [h hnone, fetch_of_absent hnone]

/-- **A row that is overwritten agrees with the message, if it agreed with an older one whose fields
    are all there.** -/
theorem RowAgrees.applied (h : RowAgrees row old) (hone : OneName data)
    (hkeep : ∀ key : String, data.get (.lit key) = none → old.get (.lit key) = none)
    (happ : applyMessageData py row data now = some row') : RowAgrees row' data := by
  obtain ⟨usage, -, happ⟩ := Option.bind_eq_some_iff.1 happ
  cases happ
  have hnull : ∀ key : String, data.get (.lit key) = none → old.fetch key = .null := fun key hd =>
    fetch_of_absent (hkeep key hd)
  exact {
    role := carried_eq fun hd => h.role.trans (hnull _ hd)
    parentId := carriedOr_eq hone.1 fun hd => h.parentId.trans (hnull _ hd)
    content := carried_eq fun hd => h.content.trans (hnull _ hd)
    output := carried_eq fun hd => h.output.trans (hnull _ hd)
    files := carried_eq fun hd => h.files.trans (hnull _ hd)
    statusHistory := carriedOr_eq hone.2 fun hd => h.statusHistory.trans (hnull _ hd)
    done := carried_eq fun hd => h.done.trans (hnull _ hd) }

/-- **A new row agrees with a message that has a role and a `done`.** -/
theorem RowAgrees.built (hone : OneName data) (hrole : (data.get (.lit "role")).isSome)
    (hdone : (data.get (.lit "done")).isSome) (hbuild : buildMessage py data now = some row) :
    RowAgrees row data := by
  obtain ⟨usage, -, hbuild⟩ := Option.bind_eq_some_iff.1 hbuild
  cases hbuild
  have hdefault : ∀ {key : String} {d : Json}, (data.get (.lit key)).isSome → data.fetchD key d = data.fetch key := by
    intro key d hin
    obtain ⟨x, hx⟩ := Option.isSome_iff_exists.1 hin
    rw [PyDict.fetchD, PyDict.fetch, hx]
    rfl
  exact {
    role := hdefault hrole
    parentId := or_of_falsy hone.1
    content := rfl
    output := rfl
    files := rfl
    statusHistory := or_of_falsy hone.2
    done := hdefault hdone }

theorem applyMessageData_isSome (now : ℤ) (h : (addUsage py row.usage data).isSome) :
    (applyMessageData py row data now).isSome := by
  obtain ⟨usage, hu⟩ := Option.isSome_iff_exists.1 h
  simp [applyMessageData, hu]

theorem buildMessage_isSome (now : ℤ) (h : (getUsage py data).isSome) : (buildMessage py data now).isSome := by
  obtain ⟨usage, hu⟩ := Option.isSome_iff_exists.1 h
  simp [buildMessage, hu]

end

/-! ## What the operations do to the messages -/

section
variable {py : PyConv} {h h' : ChatHistory} {k : Text} {message saved : PyDict} {now : ℤ}

theorem repairCurrentId_messages (hr : repairCurrentId h = some h') : h'.messages = h.messages := by
  obtain ⟨itemRole, -, hr⟩ := Option.bind_eq_some_iff.1 hr
  simp only at hr
  split at hr
  · split_ifs at hr
    · obtain ⟨lastId, -, hr⟩ := Option.bind_eq_some_iff.1 hr
      cases hr
      rfl
    · cases hr
      rfl
  · obtain ⟨leaf, -, hr⟩ := Option.bind_eq_some_iff.1 hr
    split at hr
    · cases hr
      rfl
    · split_ifs at hr
      · cases hr
        rfl
      · cases hr
        rfl

end

/-! ### Deletion -/

/-- The message with other values under these keys. -/
structure Relinked (links : List String) (m m' : PyDict) : Prop where
  others : ∀ key : String, key ∉ links → m'.get (.lit key) = m.get (.lit key)
  kept : ∀ key : String, m'.get (.lit key) = none → m.get (.lit key) = none

namespace Relinked

variable {links : List String} {m m' m₁ m₂ m₃ : PyDict} {key : String} {v : Json}

theorem refl (m : PyDict) : Relinked links m m := ⟨fun _ _ => rfl, fun _ => id⟩

theorem trans (h : Relinked links m₁ m₂) (h' : Relinked links m₂ m₃) : Relinked links m₁ m₃ :=
  ⟨fun key hkey => (h'.others key hkey).trans (h.others key hkey),
    fun key hnone => h.kept key (h'.kept key hnone)⟩

theorem put (hkey : key ∈ links) : Relinked links m (m.put key v) := by
  refine ⟨?_, ?_⟩
  · intro key' hkey'
    rw [PyDict.get_put, if_neg]
    rintro rfl
    exact hkey' hkey
  · intro key' hnone
    rw [PyDict.get_put] at hnone
    split_ifs at hnone
    exact hnone

theorem fetch (h : Relinked links m m') (hkey : key ∉ links) : m'.fetch key = m.fetch key := by
  rw [PyDict.fetch, PyDict.fetch, h.others key hkey]

end Relinked

/-- The same of all messages. -/
def RelinkedMessages (links : List String) (d d' : Dict Text PyDict) : Prop :=
  ∀ k, Option.Rel (Relinked links) (d.get k) (d'.get k)

namespace RelinkedMessages

variable {links : List String} {d d' d₁ d₂ d₃ : Dict Text PyDict} {k : Text} {m : PyDict} {key : String} {v : Json}

theorem refl (d : Dict Text PyDict) : RelinkedMessages links d d := by
  intro k
  cases d.get k with
  | none => exact .none
  | some m => exact .some (.refl m)

theorem trans (h : RelinkedMessages links d₁ d₂) (h' : RelinkedMessages links d₂ d₃) : RelinkedMessages links d₁ d₃ := by
  intro k
  have hk := h k
  have hk' := h' k
  revert hk hk'
  generalize d₁.get k = a, d₂.get k = b, d₃.get k = c
  rintro (hab | _) (hbc | _)
  · exact .some (hab.trans hbc)
  · exact .none

theorem none_of (h : RelinkedMessages links d d') (hk : d'.get k = none) : d.get k = none := by
  have hrel := h k
  rw [hk] at hrel
  generalize d.get k = a at hrel ⊢
  cases hrel
  rfl

theorem some_of (h : RelinkedMessages links d d') (hk : d'.get k = some m) :
    ∃ m₀, d.get k = some m₀ ∧ Relinked links m₀ m := by
  have hrel := h k
  rw [hk] at hrel
  generalize d.get k = a at hrel ⊢
  cases hrel with
  | some hrel => exact ⟨_, rfl, hrel⟩

theorem set (hm : d.get k = some m) (hkey : key ∈ links) :
    RelinkedMessages links d (d.set k (m.put key v)) := by
  intro k'
  rw [Dict.get_set]
  split_ifs with heq
  · rw [heq, hm]
    exact .some (.put hkey)
  · exact refl d k'

theorem putAt (hkey : key ∈ links) : RelinkedMessages links d (putAt d k key v) := by
  unfold TideBot.putAt
  split
  · exact refl d
  · rename_i m hm
    exact set hm hkey

theorem foldl_putAt (hkey : key ∈ links) (ids : List Text) :
    RelinkedMessages links d (ids.foldl (fun ms id => TideBot.putAt ms id key v) d) := by
  induction ids generalizing d with
  | nil => exact refl d
  | cons id ids ih => exact (putAt hkey).trans ih

theorem adopt {ids : List Text} {parentId : Option Text} (ha : adopt d k ids parentId = some d') :
    RelinkedMessages ["parentId", "childrenIds"] d d' := by
  unfold TideBot.adopt at ha
  split at ha
  · cases ha
    exact refl d
  · split at ha
    · cases ha
      exact refl d
    · rename_i parent hparent
      obtain ⟨siblings, -, ha⟩ := Option.bind_eq_some_iff.1 ha
      cases ha
      exact set hparent (by simp)

end RelinkedMessages

/-- **A deletion takes messages away and sets links of others.** -/
theorem delete_messages {h h' : ChatHistory} {messageId : Text} {deletedIds : List Text}
    (hd : deleteMessageFromHistory h messageId = some (h', deletedIds)) :
    (h' = h ∧ deletedIds = []) ∨ (deletedIds ≠ [] ∧ ∃ messages,
      RelinkedMessages ["parentId", "childrenIds"] h.messages messages ∧
      h'.messages = deletedIds.foldl Dict.erase messages) := by
  unfold deleteMessageFromHistory at hd
  split at hd
  · cases hd
    exact .inl ⟨rfl, rfl⟩
  · simp only [Option.bind_eq_bind, Option.bind_eq_some_iff] at hd
    obtain ⟨childIds, -, grandchildIds, -, parentKey, -, messages, hadopt, currentId, -, currentKey, -, hd⟩ := hd
    cases hd
    exact .inr ⟨List.cons_ne_nil _ _, _, (RelinkedMessages.adopt hadopt).trans (.foldl_putAt (by simp) _), rfl⟩

/-! ### The backfill -/

section
variable {py : PyConv} {rows rows' : Dict Text ChatRow} {now : ℤ}

theorem writtenRow_some {k : Text} {row : ChatRow} {data : PyDict} (hrow : rows.get k = some row) :
    writtenRow py (rows.get k) data now = applyMessageData py row data now := by
  rw [hrow]
  rfl

/-- **Rows that can all be written are all written.** -/
theorem upsertRows_spec (py : PyConv) (rows : Dict Text ChatRow) (now : ℤ) {es : List (Text × PyDict)} (hnd : (es.map Prod.fst).Nodup)
    (hall : ∀ e ∈ es, (writtenRow py (rows.get e.1) e.2 now).isSome) :
    ∃ rows', upsertRows py rows now es = some rows' ∧
      (∀ e ∈ es, rows'.get e.1 = writtenRow py (rows.get e.1) e.2 now) ∧
      ∀ k, k ∉ es.map Prod.fst → rows'.get k = rows.get k := by
  induction es generalizing rows with
  | nil => exact ⟨rows, rfl, by simp, fun _ _ => rfl⟩
  | cons e es ih =>
    rw [List.map_cons, List.nodup_cons] at hnd
    obtain ⟨row, hrow⟩ := Option.isSome_iff_exists.1 (hall e (by simp))
    have hsame : ∀ k, k ∈ es.map Prod.fst → (rows.set e.1 row).get k = rows.get k := fun k hk =>
      Dict.get_set_of_ne _ fun heq => hnd.1 (heq ▸ hk)
    obtain ⟨rows', hrows', hin, hout⟩ := @ih (rows.set e.1 row) hnd.2 fun e' he' => by
      rw [hsame _ (List.mem_map_of_mem he')]
      exact hall e' (List.mem_cons_of_mem _ he')
    have hfirst : upsertRow py rows e.1 e.2 now = some (rows.set e.1 row) := by
      rw [upsertRow, hrow]
      rfl
    refine ⟨rows', ?_, ?_, ?_⟩
    · rw [upsertRows, hfirst]
      exact hrows'
    · intro e' he'
      rcases List.mem_cons.1 he' with rfl | he'
      · rw [hout _ hnd.1, Dict.get_set_self, hrow]
      · rw [hin e' he', hsame _ (List.mem_map_of_mem he')]
    · intro k hk
      rw [List.map_cons, List.mem_cons, not_or] at hk
      rw [hout k hk.2, Dict.get_set_of_ne _ hk.1]

theorem backfill_spec {messages : Dict Text PyDict}
    (hall : ∀ k m, messages.get k = some m → (m.fetch "role").truthy ∧ (writtenRow py (rows.get k) m now).isSome) :
    ∃ rows', backfillMessages py rows messages now = rows' ∧
      (∀ k m, messages.get k = some m → rows'.get k = writtenRow py (rows.get k) m now) ∧
      ∀ k, messages.get k = none → rows'.get k = rows.get k := by
  have hroles : messages.entries.filter (fun e => (e.2.fetch "role").truthy) = messages.entries :=
    List.filter_eq_self.2 fun e he => (hall e.1 e.2 (Dict.mem_entries_iff.1 he)).1
  obtain ⟨rows', hrows', hin, hout⟩ := upsertRows_spec py rows now messages.nodup
    fun e he => (hall e.1 e.2 (Dict.mem_entries_iff.1 he)).2
  refine ⟨rows', ?_, fun k m hm => hin (k, m) (Dict.mem_entries_iff.2 hm), fun k hk => hout k ?_⟩
  · rw [backfillMessages, hroles, hrows', Option.getD_some]
  · exact Dict.get_eq_none_iff.1 hk

end

/-! ## The steps -/

section
variable {py : PyConv} {s s' : ChatStore} {now : ℤ} {messageId : Text}

theorem getUsage_congr {data data' : PyDict} (husage : data'.fetch "usage" = data.fetch "usage")
    (hinfo : data'.fetch "info" = data.fetch "info") : getUsage py data' = getUsage py data := by
  simp only [getUsage, husage, hinfo]

theorem addUsage_congr {stored : Option PyDict} {data data' : PyDict}
    (husage : data'.fetch "usage" = data.fetch "usage") (hinfo : data'.fetch "info" = data.fetch "info") :
    addUsage py stored data' = addUsage py stored data := by
  simp only [addUsage, getUsage_congr husage hinfo]

theorem fetch_newMessage {k : Text} {message : PyDict} {parentId role : Json} {key : String}
    (hkey : key ∉ ["id", "parentId", "childrenIds", "role", "timestamp"]) :
    (newMessage k message parentId role now).fetch key = message.fetch key := by
  rw [PyDict.fetch, PyDict.fetch, get_newMessage hkey]

namespace ChatStore.Agrees

theorem row (h : s.Agrees) {k : Text} {m : PyDict} (hm : s.history.messages.get k = some m) :
    ∃ row, s.rows.get k = some row ∧ RowAgrees row m := by
  obtain ⟨row, hrow⟩ := Option.isSome_iff_exists.1 ((h.keys k).2 (Option.isSome_iff_exists.2 ⟨m, hm⟩))
  exact ⟨row, hrow, h.fields k row m hrow hm⟩

theorem of_messages (h : s.Agrees) (hrows : s'.rows = s.rows)
    (hmessages : s'.history.messages = s.history.messages) : s'.Agrees := by
  obtain ⟨hkeys, hfields⟩ := h
  rw [← hrows, ← hmessages] at hkeys hfields
  exact ⟨hkeys, hfields⟩

theorem set (h : s.Agrees) {k : Text} {row : ChatRow} {m : PyDict} (hrow : RowAgrees row m)
    (hrows : s'.rows = s.rows.set k row) (hmessages : s'.history.messages = s.history.messages.set k m) :
    s'.Agrees := by
  refine ⟨?_, ?_⟩
  · intro k'
    rw [hrows, hmessages, Dict.get_set, Dict.get_set]
    split_ifs
    · simp
    · exact h.keys k'
  · intro k' row' m' hrow' hm'
    rw [hrows, Dict.get_set] at hrow'
    rw [hmessages, Dict.get_set] at hm'
    split_ifs at hrow' hm'
    · cases hrow'
      cases hm'
      exact hrow
    · exact h.fields k' row' m' hrow' hm'

theorem written {old message : PyDict} (h : s.Agrees) (hold : s.history.messages.get messageId = some old)
    (hfits : ∀ row, s.rows.get messageId = some row → Writable py row.usage (old.update message)) :
    ∃ row, writtenRow py (s.rows.get messageId) (old.update message) now = some row ∧
      RowAgrees row (old.update message) := by
  obtain ⟨row, hrow, hagrees⟩ := h.row hold
  obtain ⟨hone, husage⟩ := hfits row hrow
  obtain ⟨row', happ⟩ := Option.isSome_iff_exists.1 (applyMessageData_isSome now husage)
  refine ⟨row', (writtenRow_some hrow).trans happ, hagrees.applied hone ?_ happ⟩
  intro key hkey
  rw [Dict.get_update, Option.or_eq_none_iff] at hkey
  exact hkey.2

theorem writtenNew {message : PyDict} {parentId role : Json} (h : s.Agrees)
    (hnone : s.history.messages.get messageId = none) (hone : OneName message)
    (husage : (getUsage py message).isSome) (hdone : (message.get (.lit "done")).isSome) :
    ∃ row, writtenRow py (s.rows.get messageId) (newMessage messageId message parentId role now) now = some row ∧
      RowAgrees row (newMessage messageId message parentId role now) := by
  have hrow : s.rows.get messageId = none := by
    rw [← Option.not_isSome_iff_eq_none, h.keys, hnone]
    simp
  rw [hrow]
  rw [← getUsage_congr (fetch_newMessage (by simp)) (fetch_newMessage (by simp))] at husage
  obtain ⟨row, hbuild⟩ := Option.isSome_iff_exists.1 (buildMessage_isSome now husage)
  rw [← get_newMessage (by simp)] at hdone
  refine ⟨row, hbuild, .built ⟨?_, ?_⟩ get_role_newMessage hdone hbuild⟩
  · rw [fetch_newMessage (by simp)]
    exact hone.1
  · rw [fetch_newMessage (by simp)]
    exact hone.2

theorem upsert {message : PyDict} (h : s.Agrees) (hfits : ChatFits py s (.upsert messageId message now))
    (hs : upsertMessageToChat py s messageId message now = some s') : s'.Agrees := by
  obtain ⟨hclean, hfits⟩ := hfits
  simp only at hfits
  simp only [upsertMessageToChat, hclean, Option.bind_eq_bind, Option.bind_eq_some_iff, Option.pure_def,
    Option.some.injEq] at hs
  obtain ⟨history, hrepair, ⟨h', saved⟩, hup, rfl⟩ := hs
  have hsame := repairCurrentId_messages hrepair
  obtain ⟨hmessages, hsaved⟩ := upsert_saved hup
  rw [hsame] at hmessages hsaved
  obtain ⟨row, hrow, hagrees⟩ : ∃ row, writtenRow py (s.rows.get (sanitizeText messageId)) saved now = some row ∧
      RowAgrees row saved := by
    obtain ⟨old, hold, heq⟩ | ⟨hnone, parentId, role, -, heq⟩ := hsaved <;> rw [heq]
    · simp only [hold] at hfits
      exact h.written hold hfits
    · simp only [hnone] at hfits
      obtain ⟨hone, husage, hdone⟩ := hfits
      exact h.writtenNew hnone hone husage hdone
  refine h.set hagrees ?_ hmessages
  rw [upsertRow, hrow]
  rfl

theorem delete (h : s.Agrees) (hfits : ChatFits py s (.delete messageId now))
    (hs : deleteMessageFromChat py s messageId now = some s') : s'.Agrees := by
  obtain ⟨hclean, hfits⟩ := hfits
  simp only at hfits
  simp only [deleteMessageFromChat, hclean, Option.bind_eq_bind, Option.bind_eq_some_iff] at hs
  obtain ⟨history, hrepair, ⟨h', deletedIds⟩, hdel, hs⟩ := hs
  obtain ⟨rfl, rfl⟩ | ⟨hne, messages, hlinks, hmessages⟩ := delete_messages hdel
  · cases hs
    exact h.of_messages rfl (repairCurrentId_messages hrepair)
  rw [repairCurrentId_messages hrepair] at hlinks
  rw [if_neg (by simpa using hne)] at hs
  cases hs
  -- A message that is left, the one it was, and its row.
  have hleft : ∀ k m', h'.messages.get k = some m' → k ∉ deletedIds ∧ ∃ m row,
      s.history.messages.get k = some m ∧ s.rows.get k = some row ∧ RowAgrees row m ∧
      Relinked ["parentId", "childrenIds"] m m' := by
    intro k m' hm'
    rw [hmessages, Dict.get_foldl_erase] at hm'
    split_ifs at hm' with hk
    refine ⟨hk, ?_⟩
    obtain ⟨m, hm, hrel⟩ := hlinks.some_of hm'
    obtain ⟨row, hrow, hagrees⟩ := h.row hm
    exact ⟨m, row, hm, hrow, hagrees, hrel⟩
  have hwrite : ∀ k m', h'.messages.get k = some m' → (m'.fetch "role").truthy ∧
      ∃ row, writtenRow py (s.rows.get k) m' now = some row ∧ RowAgrees row m' := by
    intro k m' hm'
    obtain ⟨-, m, row, hm, hrow, hagrees, hrel⟩ := hleft k m' hm'
    obtain ⟨hrole, hone, husage⟩ := hfits k m row hm hrow
    have hone' : OneName m' := by
      rw [OneName, hrel.fetch (by simp), hrel.fetch (by simp)]
      exact hone
    rw [← addUsage_congr (hrel.fetch (by simp)) (hrel.fetch (by simp))] at husage
    obtain ⟨row', happ⟩ := Option.isSome_iff_exists.1 (applyMessageData_isSome now husage)
    rw [← hrel.fetch (by simp)] at hrole
    exact ⟨hrole, row', (writtenRow_some hrow).trans happ, hagrees.applied hone' hrel.kept happ⟩
  obtain ⟨rows', hrows', hin, hout⟩ := backfill_spec fun k m' hm' =>
    ⟨(hwrite k m' hm').1, Option.isSome_iff_exists.2 ((hwrite k m' hm').2.imp fun _ h => h.1)⟩
  rw [hrows']
  refine ⟨?_, ?_⟩
  · intro k
    rw [Dict.get_foldl_erase]
    split_ifs with hk
    · rw [hmessages, Dict.get_foldl_erase, if_pos hk]
      simp
    · cases hm' : h'.messages.get k with
      | some m' =>
        obtain ⟨-, row, hrow, -⟩ := hwrite k m' hm'
        simp [hin k m' hm', hrow]
      | none =>
        rw [hout k hm', h.keys]
        rw [hmessages, Dict.get_foldl_erase, if_neg hk] at hm'
        simp [hlinks.none_of hm']
  · intro k row m' hrow hm'
    rw [Dict.get_foldl_erase, if_neg (hleft k m' hm').1, hin k m' hm'] at hrow
    obtain ⟨-, row', hrow', hagrees⟩ := hwrite k m' hm'
    rw [hrow'] at hrow
    cases hrow
    exact hagrees

theorem addStatus {status : Json} (h : s.Agrees) (hfits : ChatFits py s (.addStatus messageId status))
    (hs : addMessageStatus s messageId status = some s') : s'.Agrees := by
  obtain ⟨hclean, hfits⟩ := hfits
  simp only at hfits
  simp only [addMessageStatus, hclean, Option.bind_eq_bind, Option.bind_eq_some_iff] at hs
  obtain ⟨history, hrepair, hs⟩ := hs
  have hsame := repairCurrentId_messages hrepair
  rw [hsame] at hs
  split at hs
  · cases hs
    exact h.of_messages rfl hsame
  · rename_i m hm
    split at hs
    · rename_i xs hxs
      exact absurd hxs (hfits m hm xs)
    · cases hs

theorem addFiles {files : List Json} (h : s.Agrees) (hfits : ChatFits py s (.addFiles messageId files))
    (hs : addMessageFiles s messageId files = some s') : s'.Agrees := by
  obtain ⟨hclean, hfits⟩ := hfits
  simp only at hfits
  unfold addMessageFiles at hs
  simp only [hclean] at hs
  split at hs
  · cases hs
    exact h
  · rename_i m hm
    split at hs
    · rename_i xs hxs
      obtain hraises | ⟨rfl, hin⟩ := hfits m hm
      · exact absurd hxs (hraises xs)
      obtain ⟨v, hv⟩ := Option.isSome_iff_exists.1 hin
      rw [PyDict.fetchD, hv, Option.getD_some] at hxs
      have hput : m.put "files" (.arr (xs ++ [])) = m := by
        rw [List.append_nil, ← hxs]
        exact Dict.set_get_self hv
      rw [hput, Dict.set_get_self hm, hclean] at hs
      cases hs
      exact h
    · cases hs

/-- **The step lemma.** -/
theorem step {op : ChatOp} {o : Bool} (h : s.Agrees) (hfits : ChatFits py s op)
    (hs : (chatMachine py).step s op = some (s', o)) : s'.Agrees := by
  simp only [chatMachine] at hs
  split at hs
  · rename_i t ht
    cases hs
    cases op with
    | upsert messageId message now => exact h.upsert hfits ht
    | delete messageId now => exact h.delete hfits ht
    | addStatus messageId status => exact h.addStatus hfits ht
    | addFiles messageId files => exact h.addFiles hfits ht
  · cases hs
    exact h

end ChatStore.Agrees

end

/-! ## What readers see -/

/-- The message, as it is read from its row. -/
structure ReadsAs (m m' : PyDict) : Prop where
  fields : ∀ key ∈ ["role", "parentId", "output", "files", "statusHistory", "done"], m'.fetch key = m.fetch key
  content : m'.fetch "content" = if (m.fetch "content").isNone then .str [] else m.fetch "content"

section
variable {s : ChatStore} {row : ChatRow} {k : Text} {m m' : PyDict}

theorem isNone_iff {v : Json} : v.isNone ↔ v = .null := by
  cases v <;> simp [Json.isNone]

theorem get_columns {columns : List (String × Json)} {key : String} (hnd : (columns.map Prod.fst).Nodup) :
    (columns.foldl (fun m c => if c.2.isNone then m else m.put c.1 c.2) m).get (.lit key) =
      (columns.find? fun c => c.1 = key).elim (m.get (.lit key))
        fun c => if c.2.isNone then m.get (.lit key) else some c.2 := by
  induction columns generalizing m with
  | nil => rfl
  | cons c columns ih =>
    rw [List.map_cons, List.nodup_cons] at hnd
    rw [List.foldl_cons, ih hnd.2, List.find?_cons]
    by_cases hkey : c.1 = key
    · have hnone : columns.find? (fun c => c.1 = key) = none := by
        refine List.find?_eq_none.2 fun c' hc' hk => hnd.1 ?_
        rw [hkey, ← of_decide_eq_true hk]
        exact List.mem_map_of_mem hc'
      by_cases hnull : c.2.isNone <;> simp [hnone, hkey, hnull, PyDict.get_put]
    · have hsame : (if c.2.isNone then m else m.put c.1 c.2).get (.lit key) = m.get (.lit key) := by
        split_ifs
        · rfl
        · rw [PyDict.get_put, if_neg (Ne.symm hkey)]
      simp only [hsame, hkey, decide_false]

theorem fetch_of_column {columns : List (String × Json)} {key : String} {v : Json}
    (hnd : (columns.map Prod.fst).Nodup) (hfind : (columns.find? fun c => c.1 = key) = some (key, v))
    (hm : m.get (.lit key) = none) :
    (columns.foldl (fun m c => if c.2.isNone then m else m.put c.1 c.2) m).get (.lit key) =
      if v.isNone then none else some v := by
  rw [get_columns hnd, hfind]
  by_cases hnull : v.isNone <;> simp [hnull, hm]

theorem nodup_columns (row : ChatRow) : (row.columns.map Prod.fst).Nodup := by
  simp [ChatRow.columns]

theorem get_fold_columns {key : String} {v : Json} (hkey : key ≠ "id")
    (hfind : (row.columns.find? fun c => c.1 = key) = some (key, v)) :
    (row.columns.foldl (fun m c => if c.2.isNone then m else m.put c.1 c.2)
      (PyDict.put .empty "id" (.str k))).get (.lit key) = if v.isNone then none else some v :=
  fetch_of_column (nodup_columns row) hfind (by simp [PyDict.get_put, hkey])

theorem toMessage_get {key : String} (hkey : key ≠ "info") :
    (row.toMessage k).get (.lit key) =
      ((row.columns.foldl (fun m c => if c.2.isNone then m else m.put c.1 c.2)
        (PyDict.put .empty "id" (.str k))).get (.lit key)).or
        (if key = "content" then some (.str []) else none) := by
  unfold ChatRow.toMessage
  generalize row.columns.foldl _ _ = d
  have hinfo : ∀ (d : PyDict) (v : Json), (d.put "info" v).get (.lit key) = d.get (.lit key) := by
    intro d v
    rw [PyDict.get_put, if_neg hkey]
  have hcontent : (if (d.get (.lit "content")).isSome then d else d.put "content" (.str [])).get (.lit key) =
      (d.get (.lit key)).or (if key = "content" then some (.str []) else none) := by
    by_cases hc : key = "content"
    · subst hc
      cases hd : d.get (.lit "content") with
      | none => simp [PyDict.get_put]
      | some v => simp [hd]
    · by_cases hin : (d.get (.lit "content")).isSome <;> simp [hin, hc, PyDict.get_put]
  cases row.usage with
  | none => exact hcontent
  | some usage => exact (hinfo _ _).trans hcontent

theorem fetch_toMessage {key : String} {v : Json} (hkey : key ∉ ["id", "content", "info"])
    (hfind : (row.columns.find? fun c => c.1 = key) = some (key, v)) : (row.toMessage k).fetch key = v := by
  simp only [List.mem_cons, List.not_mem_nil, or_false, not_or] at hkey
  rw [PyDict.fetch, toMessage_get hkey.2.2, get_fold_columns hkey.1 hfind, if_neg hkey.2.1, Option.or_none]
  by_cases hnull : v.isNone
  · rw [if_pos hnull, isNone_iff.1 hnull]
    rfl
  · rw [if_neg hnull]
    rfl

theorem fetch_content_toMessage :
    (row.toMessage k).fetch "content" = if row.content.isNone then .str [] else row.content := by
  rw [PyDict.fetch, toMessage_get (by simp), get_fold_columns (v := row.content) (by simp) (by simp [ChatRow.columns])]
  by_cases hnull : row.content.isNone <;> simp [hnull]

theorem RowAgrees.reads (h : RowAgrees row m) : ReadsAs m (row.toMessage k) := by
  refine ⟨?_, ?_⟩
  · have hcolumn : ∀ {key : String} {v : Json}, key ∉ ["id", "content", "info"] →
        (row.columns.find? fun c => c.1 = key) = some (key, v) → v = m.fetch key →
        (row.toMessage k).fetch key = m.fetch key :=
      fun hkey hfind hv => (fetch_toMessage hkey hfind).trans hv
    simp only [List.forall_mem_cons, List.not_mem_nil, false_implies, implies_true, and_true]
    refine ⟨hcolumn (by simp) ?_ h.role, hcolumn (by simp) ?_ h.parentId, hcolumn (by simp) ?_ h.output,
      hcolumn (by simp) ?_ h.files, hcolumn (by simp) ?_ h.statusHistory, hcolumn (by simp) ?_ h.done⟩
    all_goals simp [ChatRow.columns]
  · rw [fetch_content_toMessage, h.content]

theorem listUnder_relinked {d : Dict Text PyDict} {childId : Text} {parentId : Json} :
    RelinkedMessages ["childrenIds"] d (listUnder d childId parentId) := by
  unfold listUnder
  split
  · split
    · rename_i p parent hparent
      split_ifs at hparent
      split
      · split_ifs
        · exact .refl d
        · exact .set hparent (by simp)
      · exact .set hparent (by simp)
    · exact .refl d
  · exact .refl d

theorem foldl_listUnder_relinked {d : Dict Text PyDict} (es : List (Text × ChatRow)) :
    RelinkedMessages ["childrenIds"] d (es.foldl (fun d e => listUnder d e.1 e.2.parentId) d) := by
  induction es generalizing d with
  | nil => exact .refl d
  | cons e es ih => exact listUnder_relinked.trans ih

theorem relinked_mapValues {d : Dict Text PyDict} :
    RelinkedMessages ["childrenIds"] d (d.mapValues fun m =>
      if (m.get (.lit "childrenIds")).isSome then m else m.put "childrenIds" (.arr [])) := by
  intro k
  rw [Dict.get_mapValues]
  cases d.get k with
  | none => exact .none
  | some m =>
    refine .some ?_
    simp only
    split_ifs
    · exact .refl m
    · exact .put (by simp)

theorem rowsMap_relinked (rows : Dict Text ChatRow) : ∃ d : Dict Text PyDict,
    (∀ k, d.get k = (rows.get k).map fun row => row.toMessage k) ∧ RelinkedMessages ["childrenIds"] d (rowsMap rows) :=
  ⟨rows.entries.foldl (fun d e => d.set e.1 (e.2.toMessage e.1)) .empty,
    fun _ => Dict.get_foldl_map fun k (row : ChatRow) => row.toMessage k,
    (foldl_listUnder_relinked rows.entries).trans relinked_mapValues⟩

theorem ReadsAs.relinked {m₁ m₂ : PyDict} (h : ReadsAs m m₁) (h' : Relinked ["childrenIds"] m₁ m₂) : ReadsAs m m₂ := by
  refine ⟨fun key hkey => ?_, ?_⟩
  · rw [h'.fetch, h.fields key hkey]
    rintro hlink
    rw [List.mem_singleton] at hlink
    subst hlink
    simp at hkey
  · rw [h'.fetch (by simp), h.content]

theorem addMissing_none {messages d : Dict Text PyDict} {ids : List Text}
    (h : ∀ id ∈ ids, messages.get id = none) : addMissing messages d ids = d := by
  unfold addMissing
  induction ids with
  | nil => rfl
  | cons id ids ih =>
    rw [List.foldl_cons, h id (by simp)]
    exact ih fun id' hid' => h id' (List.mem_cons_of_mem _ hid')

theorem mem_unresolvedParentIds {messages : Dict Text PyDict} {p : Text} (h : p ∈ unresolvedParentIds messages) :
    messages.get p = none := by
  obtain ⟨e, -, he⟩ := List.mem_filterMap.1 h
  split at he
  · split_ifs at he with hp
    cases he
    rw [not_or] at hp
    exact Option.not_isSome_iff_eq_none.1 hp.2
  · cases he

/-- **The rows are read as the messages.** -/
theorem ChatStore.Agrees.reads (h : s.Agrees) (k : Text) :
    Option.Rel ReadsAs (s.history.messages.get k) ((getMessagesMap s).get k) := by
  have hnone : ∀ k, s.rows.get k = none → s.history.messages.get k = none := by
    intro k hk
    rw [← Option.not_isSome_iff_eq_none, ← h.keys, hk]
    simp
  obtain ⟨d, hd, hlinks⟩ := rowsMap_relinked s.rows
  have habsent : ∀ k, (rowsMap s.rows).get k = none → s.rows.get k = none := by
    intro k hk
    have hdk := hlinks.none_of hk
    rwa [hd, Option.map_eq_none_iff] at hdk
  unfold getMessagesMap
  split_ifs with hempty
  · rw [hnone k (by rw [Dict.get, List.isEmpty_iff.1 hempty]; rfl)]
    exact .none
  · rw [addMissing_none fun id hid => hnone id (habsent id (mem_unresolvedParentIds hid))]
    cases hk : (rowsMap s.rows).get k with
    | none =>
      rw [hnone k (habsent k hk)]
      exact .none
    | some m' =>
      obtain ⟨m₀, hm₀, hrel⟩ := hlinks.some_of hk
      rw [hd, Option.map_eq_some_iff] at hm₀
      obtain ⟨row, hrow, rfl⟩ := hm₀
      obtain ⟨m, hm⟩ := Option.isSome_iff_exists.1 ((h.keys k).1 (Option.isSome_iff_exists.2 ⟨row, hrow⟩))
      rw [hm]
      exact .some ((h.fields k row m hrow hm).reads.relinked hrel)

theorem ChatStore.Agrees.files (h : s.Agrees) (k : Text) :
    getMessageFiles s k = ((s.history.messages.get k).map fun m => m.fetch "files").getD .null := by
  unfold getMessageFiles
  split
  · rename_i row hrow
    obtain ⟨m, hm⟩ := Option.isSome_iff_exists.1 ((h.keys k).1 (Option.isSome_iff_exists.2 ⟨row, hrow⟩))
    rw [hm, Option.map_some, Option.getD_some, (h.fields k row m hrow hm).files]
  · rfl

end

/-! ## Runs -/

/-- **Rows and history that agree do so after every run of operations that fit, and are read alike.** -/
theorem rowsAgree {py : PyConv} {s₀ s : ChatStore} {tr : List (ChatOp × Bool)}
    (h : (chatMachine py).RunIn (ChatFits py) s₀ tr s) (h₀ : s₀.Agrees) :
    s.Agrees ∧ (∀ k, Option.Rel ReadsAs (s.history.messages.get k) ((getMessagesMap s).get k)) ∧
      ∀ k, getMessageFiles s k = ((s.history.messages.get k).map fun m => m.fetch "files").getD .null := by
  have hs : s.Agrees := h.invariant (fun _ _ _ _ hfits h hstep => h.step hfits hstep) h₀
  exact ⟨hs, hs.reads, hs.files⟩

theorem chatMachine_step (py : PyConv) (s : ChatStore) (op : ChatOp) {t : ChatStore} (h : op.apply py s = some t) :
    (chatMachine py).step s op = some (t, true) := by
  simp [chatMachine, h]

namespace Sample

def question : PyDict := (PyDict.put .empty "content" (.str (.lit "q"))).put "done" (.bool true)

def answer : PyDict := (question.put "parentId" (.str (.lit "a"))).put "role" (.str (.lit "assistant"))

def emptyStore : ChatStore := ⟨.empty, .empty⟩

def oneRow : ChatStore := ((ChatOp.upsert (.lit "a") question 1).apply noText emptyStore).getD emptyStore

def twoRows : ChatStore := ((ChatOp.upsert (.lit "b") answer 2).apply noText oneRow).getD emptyStore

def savedTwice : ChatStore := ((ChatOp.upsert (.lit "b") answer 3).apply noText twoRows).getD emptyStore

def rootDeleted : ChatStore := ((ChatOp.delete (.lit "a") 4).apply noText savedTwice).getD emptyStore

theorem emptyStore_agrees : emptyStore.Agrees := ⟨fun _ => Iff.rfl, by rintro _ _ _ ⟨⟩⟩

end Sample

/-- Two messages, the second saved twice, and the deletion of the first. -/
theorem rowsAgree_saved : ∃ tr s, (chatMachine Sample.noText).RunIn (ChatFits Sample.noText) Sample.emptyStore tr s ∧
    s.history.messages.keys = [.lit "b"] ∧ s.rows.keys = [.lit "b"] ∧ s.Agrees := by
  have hfits₁ : ChatFits Sample.noText Sample.emptyStore (.upsert (.lit "a") Sample.question 1) :=
    ⟨rfl, ⟨by decide +kernel, by decide +kernel⟩, rfl, rfl⟩
  have hrun₁ := Machine.RunIn.snoc .nil hfits₁ (chatMachine_step _ _ _ (t := Sample.oneRow) rfl)
  have hfits₂ : ChatFits Sample.noText Sample.oneRow (.upsert (.lit "b") Sample.answer 2) :=
    ⟨rfl, ⟨by decide +kernel, by decide +kernel⟩, rfl, rfl⟩
  have hrun₂ := hrun₁.snoc hfits₂ (chatMachine_step _ _ _ (t := Sample.twoRows) rfl)
  have hfits₃ : ChatFits Sample.noText Sample.twoRows (.upsert (.lit "b") Sample.answer 3) := by
    refine ⟨rfl, fun row hrow => ⟨⟨by decide +kernel, by decide +kernel⟩, ?_⟩⟩
    obtain rfl := Option.some.inj hrow
    rfl
  have hrun₃ := hrun₂.snoc hfits₃ (chatMachine_step _ _ _ (t := Sample.savedTwice) rfl)
  have hfits₄ : ChatFits Sample.noText Sample.savedTwice (.delete (.lit "a") 4) := by
    refine ⟨rfl, fun k m row hm hrow => ?_⟩
    have hkey : k ∈ Sample.savedTwice.history.messages.keys := Dict.mem_keys_iff.2 ⟨m, hm⟩
    rw [show Sample.savedTwice.history.messages.keys = [.lit "a", .lit "b"] by decide +kernel,
      List.mem_cons, List.mem_singleton] at hkey
    obtain rfl | rfl := hkey
    all_goals
      obtain rfl := Option.some.inj hm
      obtain rfl := Option.some.inj hrow
      exact ⟨by decide +kernel, ⟨by decide +kernel, by decide +kernel⟩, rfl⟩
  have hrun₄ := hrun₃.snoc hfits₄ (chatMachine_step _ _ _ (t := Sample.rootDeleted) rfl)
  exact ⟨_, _, hrun₄, by decide +kernel, by decide +kernel, (rowsAgree hrun₄ Sample.emptyStore_agrees).1⟩

/-- The files that are added to a message are not in its row, and are not read. -/
theorem rowsAgree_fails : ∃ tr s, (chatMachine Sample.noText).Run Sample.emptyStore tr s ∧ Sample.emptyStore.Agrees ∧
    ¬ s.Agrees ∧ ((s.history.messages.get (.lit "a")).map fun m => m.fetch "files") = some (.arr [.obj []]) ∧
    getMessageFiles s (.lit "a") = .null := by
  have hrun₁ := Machine.RunIn.snoc (C := fun _ _ => True) .nil trivial (chatMachine_step Sample.noText
    Sample.emptyStore (.upsert (.lit "a") Sample.question 1) (t := Sample.oneRow) rfl)
  have hrun := hrun₁.snoc trivial (chatMachine_step _ _ (.addFiles (.lit "a") [.obj []]) rfl)
  refine ⟨_, _, hrun, Sample.emptyStore_agrees, ?_, rfl, rfl⟩
  intro hagrees
  have hfiles := hagrees.files (.lit "a")
  cases hfiles

end TideBot
