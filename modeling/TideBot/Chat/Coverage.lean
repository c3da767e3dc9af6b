/-
  Compaction loses no message.

  The invariant (`Covered`): the summary that a message carries covers all messages above it.  A
  request that cuts its branch at that message then loses nothing, and what it compacts itself is
  covered by what it generates.  The summary has to go to the first message that is kept, or to one
  above it (`CheckpointFits`).
-/
import TideBot.Chat.Compaction
import TideBot.Lib.Forest

namespace TideBot

open Lib Relation

/-! ## The tree -/

/-- The parent that the code goes to. -/
def upId (message : PyDict) : Option Text :=
  match message.fetch "parentId" with
  | .str p => if p = [] then none else some p
  | _ => none

/-- The parents of the messages. -/
def treeOf (messages : Dict Text PyDict) : Forest Text := fun k => (messages.get k).map upId

/-- `a` is above `k`. -/
def Above (messages : Dict Text PyDict) (k a : Text) : Prop := TransGen (treeOf messages).Up k a

/-- A tree of messages: none is an empty object, and parents are ids of messages and run in no circle. -/
structure ChatTree (messages : Dict Text PyDict) : Prop where
  filled : ∀ k m, messages.get k = some m → m.entries ≠ []
  ids : ∀ k m, messages.get k = some m → (m.fetch "parentId").truthy → ∃ p, m.fetch "parentId" = .str p
  closed : (treeOf messages).Closed
  acyclic : (treeOf messages).Acyclic

/-- The messages from `k` up to a root. -/
inductive BranchOf (messages : Dict Text PyDict) : Text → List (Text × PyDict) → Prop
  | root {k m} : messages.get k = some m → upId m = none → BranchOf messages k [(k, m)]
  | step {k m p l} : messages.get k = some m → upId m = some p → BranchOf messages p l →
      BranchOf messages k ((k, m) :: l)

section
variable {messages : Dict Text PyDict} {k a p : Text} {m : PyDict} {l pre post branch : List (Text × PyDict)}

theorem up_treeOf : (treeOf messages).Up k p ↔ ∃ m, messages.get k = some m ∧ upId m = some p := by
  simp [Forest.Up, treeOf]

theorem parentKey_eq (hids : (m.fetch "parentId").truthy → ∃ p, m.fetch "parentId" = .str p) :
    parentKey m = some (upId m) := by
  unfold parentKey
  simp only
  split_ifs with htruthy
  · obtain ⟨p, hp⟩ := hids htruthy
    rw [hp, Json.truthy_str, decide_eq_true_iff] at htruthy
    rw [upId, hp, Json.asKey]
    simp [htruthy]
  · unfold upId
    split
    · rename_i p hp
      rw [hp, Json.truthy_str, decide_eq_true_iff, not_not] at htruthy
      simp [htruthy]
    · rfl

theorem ChatTree.parentKey (h : ChatTree messages) (hm : messages.get k = some m) :
    parentKey m = some (upId m) :=
  parentKey_eq (h.ids k m hm)

/-- **The loop of `get_message_list` goes up to a root.** -/
theorem ChatTree.branchUp (h : ChatTree messages) (fuel : ℕ) {visited : List Text} (hm : messages.get k = some m)
    (hnd : visited.Nodup) (hvisited : ∀ v ∈ visited, v ∈ messages.keys ∧ Above messages v k)
    (hfuel : messages.size < fuel + visited.length) :
    ∃ l, branchUp messages fuel visited k = some l ∧ BranchOf messages k l := by
  induction fuel generalizing visited k m with
  | zero =>
    have hle : visited.length ≤ messages.keys.length :=
      (List.subperm_of_subset hnd fun v hv => (hvisited v hv).1).length_le
    rw [Dict.keys, List.length_map] at hle
    exact absurd hfuel (by rw [Nat.zero_add, Dict.size]; omega)
  | succ fuel ih =>
    have hnew : k ∉ visited := fun hk => h.acyclic k (hvisited k hk).2
    have hfilled : ¬ m.entries.isEmpty := by simpa using h.filled k m hm
    simp only [TideBot.branchUp, hm, hnew, hfilled, or_self, if_false, h.parentKey hm, Bool.false_eq_true]
    cases hup : upId m with
    | none => exact ⟨_, rfl, .root hm hup⟩
    | some p =>
      have hedge : (treeOf messages).Up k p := up_treeOf.2 ⟨m, hm, hup⟩
      obtain ⟨mp, hmp⟩ := Option.isSome_iff_exists.1 (h.closed k p hedge)
      obtain ⟨mp, hmp, -⟩ := Option.map_eq_some_iff.1 hmp
      obtain ⟨l, hl, hbranch⟩ := ih hmp
        (show (k :: visited).Nodup from List.nodup_cons.2 ⟨hnew, hnd⟩) (by
        intro v hv
        rcases List.mem_cons.1 hv with rfl | hv
        · exact ⟨Dict.mem_keys_iff.2 ⟨m, hm⟩, .single hedge⟩
        · exact ⟨(hvisited v hv).1, (hvisited v hv).2.tail hedge⟩) (by
        rw [List.length_cons]
        omega)
      refine ⟨(k, m) :: l, ?_, .step hm hup hbranch⟩
      simp [hl]

namespace BranchOf

theorem split (h : BranchOf messages k l) (heq : l = pre ++ (p, m) :: post) : BranchOf messages p ((p, m) :: post) := by
  induction h generalizing pre with
  | root hm hup =>
    cases pre with
    | nil =>
      cases heq
      exact .root hm hup
    | cons e pre => simp at heq
  | step hm hup hl ih =>
    cases pre with
    | nil =>
      cases heq
      exact .step hm hup hl
    | cons e pre =>
      cases heq
      exact ih rfl

theorem get (h : BranchOf messages k l) : ∀ e ∈ l, messages.get e.1 = some e.2 := by
  induction h with
  | root hm _ => simpa using hm
  | step hm _ _ ih => simpa using ⟨hm, fun a b hab => ih (a, b) hab⟩

theorem head (h : BranchOf messages k l) : k ∈ l.map Prod.fst := by
  cases h <;> simp

theorem above_iff (h : BranchOf messages k ((p, m) :: post)) : Above messages p a ↔ a ∈ post.map Prod.fst := by
  generalize hl : (p, m) :: post = l at h
  induction h generalizing p m post with
  | root hm hup =>
    cases hl
    refine iff_of_false (fun habove => ?_) (by simp)
    obtain ⟨b, hb, -⟩ := TransGen.head'_iff.1 habove
    obtain ⟨m', hm', hb⟩ := up_treeOf.1 hb
    rw [hm, Option.some.injEq] at hm'
    rw [← hm', hup] at hb
    cases hb
  | @step k m p' l hm hup hl' ih =>
    cases hl
    have hedge : (treeOf messages).Up k p' := up_treeOf.2 ⟨m, hm, hup⟩
    cases l with
    | nil => cases hl'
    | cons e l =>
      have he : e.1 = p' := by cases hl' <;> rfl
      have hrest : Above messages p' a ↔ a ∈ l.map Prod.fst := he ▸ ih (p := e.1) (m := e.2) rfl
      rw [List.map_cons, List.mem_cons, ← hrest, he]
      constructor
      · intro habove
        obtain ⟨b, hb, hpath⟩ := TransGen.head'_iff.1 habove
        obtain rfl : p' = b := Option.some.inj (Option.some.inj (hedge.symm.trans hb))
        rcases reflTransGen_iff_eq_or_transGen.1 hpath with rfl | hpath
        · exact .inl rfl
        · exact .inr hpath
      · rintro (rfl | hpath)
        · exact .single hedge
        · exact .head hedge hpath

end BranchOf

/-- **The branch of a tree: what stands before a message is what is above it.** -/
theorem ChatTree.before_iff (h : ChatTree messages) {tip : Text} (hbranch : getMessageList messages tip = some branch)
    (heq : branch = pre ++ (k, m) :: post) :
    messages.get k = some m ∧ ∀ a, Above messages k a ↔ a ∈ pre.map Prod.fst := by
  obtain ⟨l, hl, rfl⟩ := Option.map_eq_some_iff.1 hbranch
  have hsplit : l = post.reverse ++ (k, m) :: pre.reverse := by
    rw [← List.reverse_reverse l, heq]
    simp
  cases htip : messages.get tip with
  | none =>
    rw [TideBot.branchUp, htip] at hl
    rw [← Option.some.inj hl] at hsplit
    simp at hsplit
  | some mt =>
    obtain ⟨l', hl', hof⟩ := h.branchUp (messages.size + 1) htip List.nodup_nil (by simp) (by simp)
    obtain rfl := Option.some.inj (hl.symm.trans hl')
    have hk := hof.split hsplit
    refine ⟨hk.get (k, m) (by simp), fun a => ?_⟩
    rw [hk.above_iff, List.map_reverse, List.mem_reverse]

end

/-! ## Checkpoints -/

section
variable {l messages compacted recent : List PassedMessage} {p firstKept : PassedMessage}
variable {previous : Option Summary}

theorem latest_spec (n : ℕ) (acc : Option (Summary × ℕ)) :
    ((∀ p ∈ l, p.summary = none) ∧
      (l.zipIdx n).foldl (fun acc e => (e.1.summary.map fun summary => (summary, e.2)).or acc) acc = acc) ∨
    ∃ pre p post s, l = pre ++ p :: post ∧ p.summary = some s ∧
      (l.zipIdx n).foldl (fun acc e => (e.1.summary.map fun summary => (summary, e.2)).or acc) acc =
        some (s, n + pre.length) := by
  induction l generalizing n acc with
  | nil => exact .inl ⟨by simp, rfl⟩
  | cons p l ih =>
    rw [List.zipIdx_cons, List.foldl_cons]
    rcases ih (n + 1) ((p.summary.map fun summary => (summary, n)).or acc) with ⟨hnone, hfold⟩ | ⟨pre, q, post, s, rfl, hq, hfold⟩
    · cases hp : p.summary with
      | none =>
        rw [hp] at hfold
        exact .inl ⟨by simpa [hp] using hnone, hfold⟩
      | some s =>
        rw [hp] at hfold
        exact .inr ⟨[], p, l, s, rfl, hp, hfold⟩
    · refine .inr ⟨p :: pre, q, post, s, rfl, hq, ?_⟩
      rw [hfold, List.length_cons, Nat.add_assoc, Nat.add_comm 1]

theorem applyLatest_spec (h : applyLatestSummaryCheckpoint l = (messages, previous)) :
    (messages = l ∧ previous = none) ∨
      ∃ pre p post s, l = pre ++ p :: post ∧ p.summary = some s ∧ messages = p :: post ∧ previous = some s := by
  unfold applyLatestSummaryCheckpoint at h
  rcases latest_spec (l := l) 0 none with ⟨-, hfold⟩ | ⟨pre, p, post, s, rfl, hp, hfold⟩
  · rw [hfold] at h
    cases h
    exact .inl ⟨rfl, rfl⟩
  · rw [hfold] at h
    simp only [Nat.zero_add, List.drop_left] at h
    cases h
    exact .inr ⟨pre, p, post, s, rfl, hp, rfl, rfl⟩

theorem latest_suffix (l : List PassedMessage) : ∃ cut, l = cut ++ (applyLatestSummaryCheckpoint l).1 := by
  obtain ⟨⟨messages, previous⟩, h⟩ : ∃ r, applyLatestSummaryCheckpoint l = r := ⟨_, rfl⟩
  rw [h]
  obtain ⟨rfl, -⟩ | ⟨pre, p, post, s, rfl, -, rfl, -⟩ := applyLatest_spec h
  · exact ⟨[], rfl⟩
  · exact ⟨pre, rfl⟩

theorem boundary_le {data : List PyDict} (retentionPercentage : ℤ) (h : 3 ≤ data.length) :
    findCompactionBoundary data retentionPercentage ≤ data.length - 2 := by
  unfold findCompactionBoundary
  simp only
  generalize (List.drop 1 _) = idxs
  cases hlast : (idxs.filter fun idx =>
      idx ≤ max 1 (data.length - max 2 (data.length * retentionPercentage.toNat / 100))).getLast? with
  | none => simp
  | some idx =>
    have hmem := List.mem_of_getLast? hlast
    rw [List.mem_filter, decide_eq_true_iff] at hmem
    rw [Option.getD_some]
    omega

theorem compactionSplit_spec {py : PyConv} {dumps : Json → Text} {req : CompactionRequest}
    (h : compactionSplit py dumps req messages previous = some (some (compacted, firstKept, recent))) :
    messages = compacted ++ firstKept :: recent ∧ recent ≠ [] := by
  unfold compactionSplit at h
  simp only [Option.bind_eq_bind, Option.bind_eq_some_iff] at h
  obtain ⟨exceeds, -, h⟩ := h
  split_ifs at h with hfew
  · cases h
  · simp only [Bool.or_eq_true, decide_eq_true_eq, not_or, not_le] at hfew
    have hle := boundary_le (loadConfig py req.values).retentionPercentage
      (show 3 ≤ (messages.map PassedMessage.data).length by rw [List.length_map]; omega)
    rw [List.length_map] at hle
    generalize findCompactionBoundary _ _ = boundary at h hle
    split at h
    · cases h
    · cases h
    · rename_i hdrop _
      cases h
      have hlen := congrArg List.length hdrop
      rw [List.length_drop, List.length_cons] at hlen
      refine ⟨?_, ?_⟩
      · rw [← hdrop, List.take_append_drop]
      · rintro rfl
        rw [List.length_nil] at hlen
        omega

end

/-! ## What is asked of an operation -/

/-- What is passed of a stored message. -/
structure Carries (chat : CompactedChat) (e : Text × PyDict) (p : PassedMessage) : Prop where
  key : p.key = some e.1
  covers : p.covers = chat.covers e.1
  summary : summaryText p.data = summaryText e.2

/-- A message that is passed and not stored. -/
def Unstored (p : PassedMessage) : Prop := p.key = none ∧ p.summary = none

/-- `message['role'] == 'system'` -/
def IsSystem (p : PassedMessage) : Prop := (p.data.fetch "role").eqStr (.lit "system")

/-- The messages of a request: maybe a system message, the branch that ends at `tip`, and maybe a prompt. -/
structure PassesBranch (chat : CompactedChat) (tip : Text) (messages system body prompt : List PassedMessage) : Prop where
  split : messages = system ++ (body ++ prompt)
  oneSystem : system.length ≤ 1
  onePrompt : prompt.length ≤ 1
  isSystem : ∀ p ∈ system, Unstored p ∧ IsSystem p
  isPrompt : ∀ p ∈ prompt, Unstored p ∧ ¬ IsSystem p
  ownIds : ∀ p ∈ body, (p.data.fetch "id").truthy → p.key.any fun k => (p.data.fetch "id").eqStr k
  ofBranch : ∃ branch, getMessageList chat.messages tip = some branch ∧ List.Forall₂ (Carries chat) branch body

/-- The payload keeps these fields of a message. -/
def KeepsFields (keys : List String) (message old : PyDict) : Prop :=
  ∀ key ∈ keys, ∀ v, message.get (.lit key) = some v → old.get (.lit key) = some v

/-- The tree grows: messages are saved under messages that there are, without a summary, and keep their
    parents and summaries; a request passes a branch. -/
def Grows (chat : CompactedChat) : CompactionOp → Prop
  | .save messageId message _ =>
    match chat.messages.get messageId with
    | some old => KeepsFields ["parentId", "contextSummary", "context_summary"] message old
    | none => summaryText message = none ∧ (message.fetch "parentId" = .null ∨
        ∃ p, message.fetch "parentId" = .str p ∧ (p = [] ∨ (chat.messages.get p).isSome))
  | .request tip req => ∃ system body prompt, PassesBranch chat tip req.messages system body prompt
  | .branch .. => True

/-- **The condition on a request**: a branch that begins with a system message is passed with another
    one before it, and the summary goes to a message with no other messages above it than the first that
    is kept has. -/
def CheckpointFits (py : PyConv) (dumps : Json → Text) (chat : CompactedChat) : CompactionOp → Prop
  | .request _ req =>
    (∀ p ∈ (splitSystem req.messages).1, p.key = none) ∧
    ∀ compacted firstKept recent checkpointId key,
      compactionSplit py dumps req (applyLatestSummaryCheckpoint (splitSystem req.messages).2).1
        (applyLatestSummaryCheckpoint (splitSystem req.messages).2).2 = some (some (compacted, firstKept, recent)) →
      checkpointMessageId req firstKept = some checkpointId → req.savedChat → firstKept.key = some key →
      checkpointId = key ∨ ((chat.messages.get checkpointId).isSome ∧
        ∀ a, Above chat.messages checkpointId a → Above chat.messages key a)
  | _ => True

/-- The chat is a tree, and every summary covers what is above it. -/
structure Covered (chat : CompactedChat) : Prop where
  tree : ChatTree chat.messages
  covers : ∀ k m, chat.messages.get k = some m → (summaryText m).isSome →
    ∀ a, Above chat.messages k a → a ∈ chat.covers k

/-- The message is returned, or covered by the summary that is. -/
def Kept (result : CompactionResult) (k : Text) : Prop :=
  k ∈ keysOf result.messages ∨ ∃ s, result.summary = some s ∧ k ∈ s.covers

/-! ## What is cut is covered -/

section
variable {chat : CompactedChat} {tip : Text} {branch : List (Text × PyDict)}
variable {body prompt messages compacted recent pre post : List PassedMessage} {p firstKept : PassedMessage}
variable {previous : Option Summary} {k : Text}

theorem keysOf_append (xs ys : List PassedMessage) : keysOf (xs ++ ys) = keysOf xs ++ keysOf ys :=
  List.filterMap_append

theorem keysOf_cons (h : p.key = some k) : keysOf (p :: post) = k :: keysOf post := by
  simp [keysOf, h]

theorem keysOf_body (h : List.Forall₂ (Carries chat) branch body) : keysOf body = branch.map Prod.fst := by
  induction h with
  | nil => rfl
  | cons he _ ih => rw [keysOf_cons he.key, ih, List.map_cons]

theorem body_stored (h : List.Forall₂ (Carries chat) branch body) : ∀ p ∈ body, ∃ k, p.key = some k := by
  induction h with
  | nil => simp
  | cons he _ ih => exact List.forall_mem_cons.2 ⟨⟨_, he.key⟩, ih⟩

theorem passed_above (htree : ChatTree chat.messages) (hbranch : getMessageList chat.messages tip = some branch)
    (hbody : List.Forall₂ (Carries chat) branch (pre ++ p :: post)) : ∃ k m, Carries chat (k, m) p ∧
      chat.messages.get k = some m ∧ ∀ a, Above chat.messages k a ↔ a ∈ keysOf pre := by
  have hpre := List.forall₂_take_append _ _ _ hbody
  have hpost := List.forall₂_drop_append _ _ _ hbody
  obtain ⟨e, bpost, he, -, hsplit⟩ := List.forall₂_cons_right_iff.1 hpost
  obtain ⟨hget, habove⟩ := htree.before_iff hbranch
    (show branch = branch.take pre.length ++ (e.1, e.2) :: bpost by rw [← hsplit, List.take_append_drop])
  refine ⟨e.1, e.2, he, hget, fun a => ?_⟩
  rw [habove, keysOf_body hpre]

theorem split_append (heq : body ++ prompt = pre ++ p :: post) :
    (∃ post', body = pre ++ p :: post') ∨ ∃ pre', prompt = pre' ++ p :: post := by
  rcases List.append_eq_append_iff.1 heq with ⟨as, -, hprompt⟩ | ⟨bs, hbody, hpost⟩
  · exact .inr ⟨as, hprompt⟩
  · cases bs with
    | nil => exact .inr ⟨[], hpost.symm⟩
    | cons q bs =>
      rw [List.cons_append, List.cons.injEq] at hpost
      exact .inl ⟨bs, hpost.1 ▸ hbody⟩

/-- **What is cut off at the last summary is covered by it.** -/
theorem cut_covered (h : Covered chat) (hbranch : getMessageList chat.messages tip = some branch)
    (hbody : List.Forall₂ (Carries chat) branch body) (hprompt : ∀ q ∈ prompt, Unstored q)
    (hlatest : applyLatestSummaryCheckpoint (body ++ prompt) = (messages, previous)) :
    ∃ cut, body ++ prompt = cut ++ messages ∧ ∀ a ∈ keysOf cut, ∃ s, previous = some s ∧ a ∈ s.covers := by
  obtain ⟨rfl, rfl⟩ | ⟨pre, p, post, s, heq, hp, rfl, rfl⟩ := applyLatest_spec hlatest
  · exact ⟨[], rfl, by simp [keysOf]⟩
  · refine ⟨pre, heq, fun a ha => ⟨s, rfl, ?_⟩⟩
    obtain ⟨post', rfl⟩ := (split_append heq).resolve_right <| by
      rintro ⟨pre', hpre'⟩
      rw [(hprompt p (by simp [hpre'])).2] at hp
      cases hp
    obtain ⟨k, m, hcarries, hm, habove⟩ := passed_above h.tree hbranch hbody
    obtain ⟨text, htext, rfl⟩ := Option.map_eq_some_iff.1 hp
    rw [hcarries.summary] at htext
    rw [hcarries.covers]
    exact h.covers k m hm (by rw [htext]; rfl) a ((habove a).2 ha)

/-- The system message that is split off is the one that is passed before the branch. -/
theorem PassesBranch.splitSystem {messages system : List PassedMessage}
    (h : PassesBranch chat tip messages system body prompt)
    (hunstored : ∀ p ∈ (splitSystem messages).1, p.key = none) : splitSystem messages = (system, body ++ prompt) := by
  obtain ⟨branch, -, hbody⟩ := h.ofBranch
  have hsplit := h.split
  cases system with
  | cons p rest =>
    have hrest : rest = [] := by simpa using h.oneSystem
    obtain ⟨-, hrole⟩ := h.isSystem p (by simp)
    rw [hsplit, hrest]
    exact if_pos hrole
  | nil =>
    rw [List.nil_append] at hsplit
    rw [hsplit] at hunstored ⊢
    cases hall : body ++ prompt with
    | nil => rfl
    | cons p rest =>
      refine if_neg fun hrole => ?_
      rw [hall] at hunstored
      have hkey := hunstored p (by simp [TideBot.splitSystem, hrole])
      have hmem : p ∈ body ++ prompt := hall ▸ List.mem_cons_self
      rcases List.mem_append.1 hmem with hmem | hmem
      · obtain ⟨k, hk⟩ := body_stored hbody p hmem
        rw [hk] at hkey
        cases hkey
      · exact (h.isPrompt p hmem).2 hrole

end

/-! ## Writing -/

section
variable {chat : CompactedChat} {messages : Dict Text PyDict} {k p : Text} {m old message saved : PyDict} {now : ℤ}

theorem upId_congr (h : m.get (.lit "parentId") = old.get (.lit "parentId")) : upId m = upId old := by
  simp only [upId, PyDict.fetch, h]

theorem summaryText_congr (h : m.get (.lit "contextSummary") = old.get (.lit "contextSummary"))
    (h' : m.get (.lit "context_summary") = old.get (.lit "context_summary")) : summaryText m = summaryText old := by
  simp only [summaryText, PyDict.fetch, h, h']

theorem get_update_keeps {keys : List String} {key : String} (h : KeepsFields keys message old) (hkey : key ∈ keys) :
    (old.update message).get (.lit key) = old.get (.lit key) := by
  rw [Dict.get_update]
  cases hv : message.get (.lit key) with
  | none => rfl
  | some v => rw [h key hkey v hv, Option.some_or]

theorem filled_update (h : old.entries ≠ []) : (old.update message).entries ≠ [] := by
  obtain ⟨e, rest, he⟩ := List.exists_cons_of_ne_nil h
  have hget : old.get e.1 = some e.2 := Dict.mem_entries_iff.1 (he ▸ List.mem_cons_self)
  intro hempty
  have hnone : (old.update message).get e.1 = none := by
    rw [Dict.get, hempty]
    rfl
  rw [Dict.get_update, hget, Option.or_eq_none_iff] at hnone
  cases hnone.2

theorem treeOf_set (hold : messages.get k = some old) (hup : upId m = upId old) :
    treeOf (messages.set k m) = treeOf messages := by
  funext k'
  rw [treeOf, treeOf, Dict.get_set]
  split_ifs with heq
  · rw [heq, hold, Option.map_some, Option.map_some, hup]
  · rfl

theorem ChatTree.set (h : ChatTree messages) (hold : messages.get k = some old) (hfilled : m.entries ≠ [])
    (hparent : m.get (.lit "parentId") = old.get (.lit "parentId")) : ChatTree (messages.set k m) := by
  have htree := treeOf_set hold (upId_congr hparent)
  refine ⟨?_, ?_, htree ▸ h.closed, htree ▸ h.acyclic⟩
  · intro k' m' hm'
    rw [Dict.get_set] at hm'
    split_ifs at hm'
    · cases hm'
      exact hfilled
    · exact h.filled k' m' hm'
  · intro k' m' hm'
    rw [Dict.get_set] at hm'
    split_ifs at hm'
    · cases hm'
      rw [PyDict.fetch, hparent]
      exact h.ids k old hold
    · exact h.ids k' m' hm'

theorem ChatTree.insert (h : ChatTree messages) (hnone : messages.get k = none) (hfilled : m.entries ≠ [])
    (hparent : m.fetch "parentId" = .null ∨
      ∃ p, m.fetch "parentId" = .str p ∧ (p = [] ∨ (messages.get p).isSome)) :
    ChatTree (messages.set k m) ∧ treeOf (messages.set k m) = (treeOf messages).overlay (Forest.single k (upId m)) := by
  have htree : treeOf (messages.set k m) = (treeOf messages).overlay (Forest.single k (upId m)) := by
    funext k'
    by_cases heq : k' = k
    · rw [heq, Forest.overlay_of_none (by rw [treeOf, hnone]; rfl)]
      simp [treeOf, Forest.single]
    · cases hk' : messages.get k' with
      | none =>
        rw [Forest.overlay_of_none (by rw [treeOf, hk']; rfl)]
        simp [treeOf, Forest.single, Dict.get_set, heq, hk']
      | some m' =>
        rw [Forest.overlay_of_some (o := upId m') (by rw [treeOf, hk']; rfl)]
        simp [treeOf, Dict.get_set, heq, hk']
  have hstored : ∀ p, upId m = some p → (treeOf messages p).isSome := by
    intro p hp
    rw [treeOf, Option.isSome_map]
    unfold upId at hp
    obtain hnull | ⟨q, hq, hq'⟩ := hparent
    · rw [hnull] at hp
      cases hp
    · rw [hq] at hp
      simp only at hp
      split_ifs at hp with hempty
      cases hp
      exact hq'.resolve_left hempty
  have hself : upId m ≠ some k := by
    intro hk
    have hsome := hstored k hk
    rw [treeOf, hnone] at hsome
    cases hsome
  refine ⟨⟨?_, ?_, ?_, ?_⟩, htree⟩
  · intro k' m' hm'
    rw [Dict.get_set] at hm'
    split_ifs at hm'
    · cases hm'
      exact hfilled
    · exact h.filled k' m' hm'
  · intro k' m' hm' htruthy
    rw [Dict.get_set] at hm'
    split_ifs at hm'
    · cases hm'
      obtain hnull | ⟨q, hq, -⟩ := hparent
      · rw [hnull] at htruthy
        cases htruthy
      · exact ⟨q, hq⟩
    · exact h.ids k' m' hm' htruthy
  · rw [htree]
    exact h.closed.insert hstored
  · rw [htree]
    exact h.acyclic.insert h.closed hself

theorem newMessage_parent {h : ChatHistory} {parentId : Json} (role : Json) (now : ℤ)
    (hfits : message.fetch "parentId" = .null ∨
      ∃ p, message.fetch "parentId" = .str p ∧ (p = [] ∨ (h.messages.get p).isSome))
    (hnew : newParentId h k (message.fetch "parentId") = some parentId) :
    (newMessage k message parentId role now).fetch "parentId" = .null ∨
      ∃ p, (newMessage k message parentId role now).fetch "parentId" = .str p ∧
        (p = [] ∨ (h.messages.get p).isSome) := by
  have hfetch : (newMessage k message parentId role now).fetch "parentId" =
      if (message.fetch "parentId").isNone then parentId else message.fetch "parentId" := by
    simp [newMessage, PyDict.fetch_put]
  rw [hfetch]
  obtain hnull | ⟨p, hp, hstored⟩ := hfits
  · rw [hnull] at hnew ⊢
    obtain ⟨listed, hl, rfl⟩ := Option.map_eq_some_iff.1 hnew
    cases listed with
    | none => exact .inl rfl
    | some id =>
      obtain ⟨v, hv⟩ := Dict.mem_keys_iff.1 (listedBy_mem hl)
      exact .inr ⟨id, rfl, .inr (by rw [hv]; rfl)⟩
  · rw [hp]
    exact .inr ⟨p, rfl, hstored⟩

theorem filled_newMessage {parentId role : Json} : (newMessage k message parentId role now).entries ≠ [] := by
  intro hempty
  have hrole : ((newMessage k message parentId role now).get (.lit "role")).isSome := get_role_newMessage
  rw [Dict.get, hempty] at hrole
  cases hrole

/-- **A message is saved.** -/
theorem Covered.save (h : Covered chat) {messageId : Text} {history : ChatHistory}
    (hgrows : Grows chat (.save messageId message now))
    (hs : upsertMessageToHistory ⟨chat.messages, none⟩ messageId message now = some (history, saved)) :
    Covered ⟨history.messages, chat.covers⟩ := by
  obtain ⟨hmessages, ⟨old, hold, hsaved⟩ | ⟨hnone, parentId, role, hnew, hsaved⟩⟩ := upsert_saved hs
  · simp only [Grows, hold] at hgrows
    simp only at hmessages hold
    have hkeep : ∀ key ∈ ["parentId", "contextSummary", "context_summary"],
        (old.update message).get (.lit key) = old.get (.lit key) := fun key hkey => get_update_keeps hgrows hkey
    rw [hsaved] at hmessages
    rw [hmessages]
    have htree := treeOf_set hold (upId_congr (hkeep "parentId" (by simp)))
    refine ⟨h.tree.set hold (filled_update (h.tree.filled _ _ hold)) (hkeep "parentId" (by simp)), ?_⟩
    intro k m hm hsummary a habove
    rw [Above, htree] at habove
    simp only [Dict.get_set] at hm
    split_ifs at hm with heq
    · cases hm
      rw [summaryText_congr (hkeep "contextSummary" (by simp)) (hkeep "context_summary" (by simp))] at hsummary
      exact h.covers k old (heq ▸ hold) hsummary a habove
    · exact h.covers k m hm hsummary a habove
  · simp only at hmessages hnone
    simp only [Grows, hnone] at hgrows
    obtain ⟨htree, hoverlay⟩ := h.tree.insert hnone filled_newMessage
      (newMessage_parent role now hgrows.2 hnew)
    rw [hsaved] at hmessages
    rw [hmessages]
    refine ⟨htree, ?_⟩
    intro k m hm hsummary a habove
    simp only [Dict.get_set] at hm
    split_ifs at hm with heq
    · cases hm
      rw [summaryText_congr (get_newMessage (by simp)) (get_newMessage (by simp)), hgrows.1] at hsummary
      cases hsummary
    · rw [Above, hoverlay] at habove
      have hstored : (treeOf chat.messages k).isSome := by
        rw [treeOf, hm]
        rfl
      exact h.covers k m hm hsummary a (Forest.ancestors_overlay h.tree.closed hstored habove).1

/-- **A summary is written to a message, and covers all above it.** -/
theorem Covered.write (h : Covered chat) {checkpointId : Text} {summary : Summary}
    (hstored : (chat.messages.get checkpointId).isSome)
    (hcovers : ∀ a, Above chat.messages checkpointId a → a ∈ summary.covers) :
    Covered (writeCheckpoint chat checkpointId summary now) := by
  obtain ⟨old, hold⟩ := Option.isSome_iff_exists.1 hstored
  unfold writeCheckpoint
  split
  · rename_i history saved hs
    obtain ⟨hmessages, ⟨old', hold', hsaved⟩ | ⟨hnone, -⟩⟩ := upsert_saved hs
    · simp only at hmessages hold'
      obtain rfl := Option.some.inj (hold.symm.trans hold')
      have hparent : saved.get (.lit "parentId") = old.get (.lit "parentId") := by
        rw [hsaved, Dict.get_update, PyDict.get_put]
        simp
      have htree := treeOf_set hold (upId_congr hparent)
      simp only [hmessages]
      refine ⟨h.tree.set hold (hsaved ▸ filled_update (h.tree.filled _ _ hold)) hparent, ?_⟩
      intro k m hm hsummary a habove
      simp only [Above, htree] at habove
      simp only [Dict.get_set] at hm
      split_ifs at hm with heq
      · rw [heq] at habove ⊢
        simp only [Function.update_self]
        exact hcovers a habove
      · simp only [Function.update_of_ne heq]
        exact h.covers k m hm hsummary a habove
    · rw [hold] at hnone
      cases hnone
  · exact h

end

/-! ## The steps -/

section
variable {py : PyConv} {dumps : Json → Text} {chat chat' : CompactedChat} {tip : Text} {branch : List (Text × PyDict)}
variable {body prompt messages compacted recent : List PassedMessage} {firstKept : PassedMessage}
variable {previous : Option Summary} {req : CompactionRequest} {result : CompactionResult}

/-- What is cut and what is compacted is covered by the summary that is generated. -/
theorem generated_covers {cut : List PassedMessage} {generated : Option Text} {summary : Summary} {a : Text}
    (hcut : ∀ a ∈ keysOf cut, ∃ s, previous = some s ∧ a ∈ s.covers)
    (hsummary : generateSummary generated compacted previous = some summary) (ha : a ∈ keysOf (cut ++ compacted)) :
    a ∈ summary.covers := by
  obtain ⟨text, -, rfl⟩ := Option.map_eq_some_iff.1 hsummary
  rw [keysOf_append, List.mem_append] at ha
  rw [List.mem_append]
  rcases ha with ha | ha
  · obtain ⟨s, rfl, hs⟩ := hcut a ha
    exact .inr hs
  · exact .inl ha

theorem branch_keys {cut : List PassedMessage} (hbody : List.Forall₂ (Carries chat) branch body)
    (hsplit : body ++ prompt = cut ++ messages) {k : Text} (hk : k ∈ branch.map Prod.fst) :
    k ∈ keysOf cut ∨ k ∈ keysOf messages := by
  rw [← List.mem_append, ← keysOf_append, ← hsplit, keysOf_append, List.mem_append]
  exact .inl (keysOf_body hbody ▸ hk)

/-- **A request loses no message, and leaves the chat covered.** -/
theorem Covered.request (h : Covered chat) (hgrows : Grows chat (.request tip req))
    (hfits : CheckpointFits py dumps chat (.request tip req))
    (hs : compactMessagesForRequest py dumps chat req = some (chat', result)) :
    Covered chat' ∧ ∀ k ∈ ((getMessageList chat.messages tip).getD []).map Prod.fst, Kept result k := by
  obtain ⟨system, body, prompt, hpasses⟩ := hgrows
  obtain ⟨branch, hbranch, hbody⟩ := hpasses.ofBranch
  rw [hbranch, Option.getD_some]
  unfold compactMessagesForRequest at hs
  by_cases henable : !(loadConfig py req.values).enable
  · rw [if_pos henable] at hs
    cases hs
    refine ⟨h, fun k hk => .inl ?_⟩
    rw [hpasses.split, keysOf_append, keysOf_append, keysOf_body hbody]
    simp [hk]
  rw [if_neg henable] at hs
  obtain ⟨hunstored, hcheckpoint⟩ := hfits
  rw [hpasses.splitSystem hunstored] at hs hcheckpoint
  obtain ⟨⟨messages, previous⟩, hlatest⟩ : ∃ r, applyLatestSummaryCheckpoint (body ++ prompt) = r := ⟨_, rfl⟩
  rw [hlatest] at hcheckpoint
  simp only [hlatest, Option.bind_eq_bind, Option.bind_eq_some_iff] at hs hcheckpoint
  obtain ⟨cut, hsplit, hcut⟩ := cut_covered h hbranch hbody (fun q hq => (hpasses.isPrompt q hq).1) hlatest
  obtain ⟨split, hcompact, hs⟩ := hs
  split at hs
  · -- nothing is compacted
    cases hs
    refine ⟨h, fun k hk => ?_⟩
    rcases branch_keys hbody hsplit hk with hk | hk
    · obtain ⟨s, hprevious, hcovered⟩ := hcut k hk
      exact .inr ⟨s, hprevious, hcovered⟩
    · exact .inl (by rw [keysOf_append, List.mem_append]; exact .inr hk)
  · rename_i compacted firstKept recent
    simp only [Option.bind_eq_some_iff] at hs
    obtain ⟨summary, hsummary, hs⟩ := hs
    obtain ⟨hmessages, hrecent⟩ := compactionSplit_spec hcompact
    obtain ⟨rfl, rfl⟩ := Prod.mk.inj (Option.some.inj hs)
    refine ⟨?_, fun k hk => ?_⟩
    · -- the first message that is kept is a message of the branch
      rw [hmessages, ← List.append_assoc] at hsplit
      obtain ⟨post, rfl⟩ := (split_append hsplit).resolve_right <| by
        rintro ⟨pre', hpre'⟩
        have hone := hpasses.onePrompt
        have hmore := List.length_pos_of_ne_nil hrecent
        rw [hpre', List.length_append, List.length_cons] at hone
        omega
      obtain ⟨key, m, hcarries, hm, habove⟩ := passed_above h.tree hbranch hbody
      split
      · rename_i checkpointId hid
        split_ifs with hsaved
        · refine h.write ?_ ?_
          · rcases hcheckpoint _ _ _ _ _ hcompact hid hsaved hcarries.key with rfl | ⟨hstored, -⟩
            · simp [hm]
            · exact hstored
          · intro a ha
            refine generated_covers hcut hsummary ((habove a).1 ?_)
            rcases hcheckpoint _ _ _ _ _ hcompact hid hsaved hcarries.key with rfl | ⟨-, hup⟩
            · exact ha
            · exact hup a ha
        · exact h
      · exact h
    · rcases branch_keys hbody hsplit hk with hk | hk
      · exact .inr ⟨summary, rfl, generated_covers hcut hsummary (by rw [keysOf_append]; simp [hk])⟩
      · rw [hmessages, keysOf_append, List.mem_append] at hk
        rcases hk with hk | hk
        · exact .inr ⟨summary, rfl, generated_covers hcut hsummary (by rw [keysOf_append]; simp [hk])⟩
        · exact .inl (by rw [keysOf_append, List.mem_append]; exact .inr hk)

theorem carries_stored (chat : CompactedChat) (branch : List (Text × PyDict)) : List.Forall₂ (Carries chat) branch (branch.map chat.stored) := by
  rw [List.forall₂_map_right_iff]
  exact List.forall₂_same.2 fun _ _ => ⟨rfl, rfl, rfl⟩

theorem ChatTree.last (h : ChatTree chat.messages) {pre : List (Text × PyDict)} {e : Text × PyDict}
    (hbranch : getMessageList chat.messages tip = some (pre ++ [e])) : e.1 = tip := by
  obtain ⟨l, hl, heq⟩ := Option.map_eq_some_iff.1 hbranch
  have hsplit : l = e :: pre.reverse := by
    rw [← List.reverse_reverse l, heq]
    simp
  cases htip : chat.messages.get tip with
  | none =>
    rw [TideBot.branchUp, htip] at hl
    rw [← Option.some.inj hl] at hsplit
    simp at hsplit
  | some m =>
    obtain ⟨l', hl', hof⟩ := h.branchUp (chat.messages.size + 1) htip List.nodup_nil (by simp) (by simp)
    obtain rfl := Option.some.inj (hl.symm.trans hl')
    rw [hsplit] at hof
    generalize pre.reverse = post at hof
    cases hof <;> rfl

/-- **A branch that is compacted leaves the chat covered.** -/
theorem Covered.compactBranch (h : Covered chat) {values : CompactionValues} {generated : Option Text} {now : ℤ}
    (hs : compactChatBranch py chat values tip generated now = some chat') : Covered chat' := by
  unfold compactChatBranch at hs
  split_ifs at hs
  · cases hs
    exact h
  simp only [Option.bind_eq_bind, Option.bind_eq_some_iff] at hs
  obtain ⟨branch, hbranch, hs⟩ := hs
  obtain ⟨⟨messages, previous⟩, hlatest⟩ : ∃ r, applyLatestSummaryCheckpoint (branch.map chat.stored) = r := ⟨_, rfl⟩
  rw [hlatest] at hs
  simp only at hs
  split_ifs at hs with hempty
  · cases hs
    exact h
  obtain ⟨summary, hsummary, hs⟩ := Option.bind_eq_some_iff.1 hs
  cases hs
  have hbody := carries_stored chat branch
  have hlatest' : applyLatestSummaryCheckpoint (branch.map chat.stored ++ []) = (messages, previous) := by
    rw [List.append_nil]
    exact hlatest
  obtain ⟨cut, hsplit, hcut⟩ := cut_covered h hbranch hbody (by simp) hlatest'
  have hne : messages ≠ [] := by
    rintro rfl
    exact hempty rfl
  obtain ⟨compacted, last, rfl⟩ := (List.eq_nil_or_concat messages).resolve_left hne
  rw [List.concat_eq_append, List.append_nil, ← List.append_assoc] at hsplit
  rw [List.concat_eq_append, List.dropLast_concat] at hsummary
  rw [hsplit] at hbody
  obtain ⟨key, m, hcarries, hm, habove⟩ := passed_above h.tree hbranch hbody
  -- the message that is kept is the tip
  obtain ⟨pre, e, hbranch', -, he⟩ : ∃ pre e, branch = pre ++ [e] ∧ pre.map chat.stored = cut ++ compacted ∧
      chat.stored e = last := by
    obtain ⟨pre, es, rfl, hpre, hes⟩ := List.map_eq_append_iff.1 hsplit
    obtain ⟨e, rfl, he⟩ := List.map_eq_singleton_iff.1 hes
    exact ⟨pre, e, rfl, hpre, he⟩
  have hkey : key = tip := by
    rw [hbranch'] at hbranch
    rw [← h.tree.last hbranch]
    have hlast := hcarries.key
    rw [← he] at hlast
    exact (Option.some.inj hlast).symm
  subst hkey
  exact h.write (by simp [hm]) fun a ha => generated_covers hcut hsummary ((habove a).1 ha)

/-- **The step lemma.** -/
theorem Covered.step (h : Covered chat) {op : CompactionOp} {o : Option (List Text × CompactionResult)}
    (hgrows : Grows chat op) (hfits : CheckpointFits py dumps chat op)
    (hs : (compactionMachine py dumps).step chat op = some (chat', o)) :
    Covered chat' ∧ ∀ branch result, o = some (branch, result) → ∀ k ∈ branch, Kept result k := by
  cases op with
  | save messageId message now =>
    simp only [compactionMachine] at hs
    split at hs
    · rename_i history saved hup
      cases hs
      exact ⟨h.save hgrows hup, by rintro _ _ ⟨⟩⟩
    · cases hs
      exact ⟨h, by rintro _ _ ⟨⟩⟩
  | request tip req =>
    simp only [compactionMachine] at hs
    split at hs
    · rename_i t result hreq
      cases hs
      obtain ⟨hcovered, hkept⟩ := h.request hgrows hfits hreq
      refine ⟨hcovered, fun branch result' heq => ?_⟩
      cases heq
      exact hkept
    · cases hs
      exact ⟨h, by rintro _ _ ⟨⟩⟩
  | branch values currentId generated now =>
    simp only [compactionMachine] at hs
    cases hs
    refine ⟨?_, by rintro _ _ ⟨⟩⟩
    cases hbranch : compactChatBranch py chat values currentId generated now with
    | none => exact h
    | some t => exact h.compactBranch hbranch

end

/-- **The condition is met where all stored messages are passed with their ids.** -/
theorem checkpointFits_of_ids {py : PyConv} {dumps : Json → Text} {chat : CompactedChat} {tip : Text}
    {req : CompactionRequest} {system body prompt : List PassedMessage}
    (hpasses : PassesBranch chat tip req.messages system body prompt)
    (hids : ∀ p ∈ body, (p.data.fetch "id").truthy) (hroot : ∀ p ∈ (splitSystem req.messages).1, p.key = none) :
    CheckpointFits py dumps chat (.request tip req) := by
  refine ⟨hroot, fun compacted firstKept recent checkpointId key hcompact hid _ hkey => .inl ?_⟩
  rw [hpasses.splitSystem hroot] at hcompact
  have hmem : firstKept ∈ body ++ prompt := by
    obtain ⟨cut, hcut⟩ := latest_suffix (body ++ prompt)
    rw [hcut, (compactionSplit_spec hcompact).1]
    simp
  rcases List.mem_append.1 hmem with hmem | hmem
  · have htruthy := hids firstKept hmem
    have hown := hpasses.ownIds firstKept hmem htruthy
    rw [hkey, Option.any_some] at hown
    cases hv : firstKept.data.fetch "id" with
    | str id =>
      rw [hv] at htruthy hown
      rw [Json.truthy_str, decide_eq_true_iff] at htruthy
      have hidOf : idOf firstKept = some id := by
        rw [idOf, hv]
      have hsame : id = key := by simpa [Json.eqStr] using hown
      have hor : orId (orId (some id) req.userMessageId) req.messageId = some id := by
        simp [orId, htruthy]
      rw [checkpointMessageId, hidOf, hor] at hid
      simp only [Option.filter_eq_some_iff] at hid
      rw [← hsame]
      exact (Option.some.inj hid.1).symm
    | _ =>
      rw [hv] at hown
      cases hown
  · rw [(hpasses.isPrompt firstKept hmem).1.1] at hkey
    cases hkey

/-! ## Runs -/

theorem Covered.start {chat : CompactedChat} (htree : ChatTree chat.messages)
    (hnone : ∀ k m, chat.messages.get k = some m → summaryText m = none) : Covered chat := by
  refine ⟨htree, fun k m hm hsummary => ?_⟩
  rw [hnone k m hm] at hsummary
  cases hsummary

/-- **Compaction drops no message.**  In every run from a tree without a summary whose requests meet the
    condition, each message of the branch of a request is returned or covered by the summary that is. -/
theorem compactionKeeps {py : PyConv} {dumps : Json → Text} {chat₀ chat : CompactedChat}
    {tr : List (CompactionOp × Option (List Text × CompactionResult))} (htree : ChatTree chat₀.messages)
    (hnone : ∀ k m, chat₀.messages.get k = some m → summaryText m = none)
    (h : (compactionMachine py dumps).RunIn (fun c op => Grows c op ∧ CheckpointFits py dumps c op) chat₀ tr chat) :
    ∀ op branch result, (op, some (branch, result)) ∈ tr → ∀ k ∈ branch, Kept result k := by
  obtain ⟨-, hkept⟩ := h.safety
    (P := fun e => ∀ branch result, e.2 = some (branch, result) → ∀ k ∈ branch, Kept result k)
    (fun _ _ _ _ hC hcovered hs => hcovered.step hC.1 hC.2 hs) (Covered.start htree hnone)
  exact fun op branch result hmem => hkept _ hmem branch result rfl

namespace Sample

def line (withId : Bool) (id role : String) (parentId : Json) : PyDict :=
  let message := (PyDict.put .empty "role" (.str (.lit role))).put "parentId" parentId
  if withId then message.put "id" (.str (.lit id)) else message

/-- A conversation whose messages have ids, or have none. -/
def conversation (withIds : Bool) : CompactedChat where
  messages := ((((Dict.empty.set (.lit "u1") (line withIds "u1" "user" .null)).set (.lit "a1")
    (line withIds "a1" "assistant" (.str (.lit "u1")))).set (.lit "u2")
      (line withIds "u2" "user" (.str (.lit "a1")))).set (.lit "a2")
        (line withIds "a2" "assistant" (.str (.lit "u2")))).set (.lit "u3") (line withIds "u3" "user" (.str (.lit "a2")))
  covers := fun _ => []

def ask (chat : CompactedChat) : CompactionRequest where
  messages := ((getMessageList chat.messages (.lit "u3")).getD []).map chat.stored
  userMessageId := some (.lit "u3")
  messageId := none
  compactTokenThreshold := .null
  systemPrompt := []
  values := ⟨.bool true, .int 1, .null, .int 10⟩
  savedChat := true
  generated := some (.lit "summary")
  now := 0

def noDumps : Json → Text := fun _ => []

def afterAsk (chat : CompactedChat) : CompactedChat :=
  ((compactMessagesForRequest noText noDumps chat (ask chat)).map Prod.fst).getD chat

theorem ask_passes {chat : CompactedChat}
    (hsome : getMessageList chat.messages (.lit "u3") = some ((getMessageList chat.messages (.lit "u3")).getD []))
    (hids : ∀ p ∈ (ask chat).messages, (p.data.fetch "id").truthy → p.key.any fun k => (p.data.fetch "id").eqStr k) :
    PassesBranch chat (.lit "u3") (ask chat).messages [] (ask chat).messages [] where
  split := by simp
  oneSystem := by simp
  onePrompt := by simp
  isSystem := by simp
  isPrompt := by simp
  ownIds := hids
  ofBranch := ⟨_, hsome, carries_stored chat _⟩

theorem empty_tree : ChatTree .empty :=
  ⟨by rintro _ _ ⟨⟩, by rintro _ _ ⟨⟩, by rintro _ _ ⟨⟩, .empty⟩

theorem conversation_tree (withIds : Bool) : ChatTree (conversation withIds).messages := by
  have hline : ∀ id role parentId, (line withIds id role parentId).entries ≠ [] ∧
      (line withIds id role parentId).fetch "parentId" = parentId := by
    intro id role parentId
    cases withIds <;> exact ⟨List.cons_ne_nil _ _, rfl⟩
  have hroot : ∀ {messages : Dict Text PyDict} {id role}, ChatTree messages → (messages.get (.lit id)).isNone →
      ChatTree (messages.set (.lit id) (line withIds id role .null)) := fun h hnone =>
    (h.insert (Option.isNone_iff_eq_none.1 hnone) (hline _ _ _).1 (.inl (hline _ _ _).2)).1
  have hreply : ∀ {messages : Dict Text PyDict} {id role p}, ChatTree messages → (messages.get (.lit id)).isNone →
      (messages.get (.lit p)).isSome → ChatTree (messages.set (.lit id) (line withIds id role (.str (.lit p)))) :=
    fun h hnone hp =>
      (h.insert (Option.isNone_iff_eq_none.1 hnone) (hline _ _ _).1 (.inr ⟨_, (hline _ _ _).2, .inr hp⟩)).1
  simp only [conversation]
  apply hreply
  · apply hreply
    · apply hreply
      · apply hreply
        · apply hroot empty_tree
          rfl
        all_goals cases withIds <;> decide +kernel
      all_goals cases withIds <;> decide +kernel
    all_goals cases withIds <;> decide +kernel
  all_goals cases withIds <;> decide +kernel

theorem conversation_noSummary (withIds : Bool) (k : Text) (m : PyDict)
    (hm : (conversation withIds).messages.get k = some m) : summaryText m = none := by
  have hall : ∀ e ∈ (conversation withIds).messages.entries, summaryText e.2 = none := by
    cases withIds <;> decide +kernel
  exact hall (k, m) (Dict.mem_entries_iff.2 hm)

end Sample

/-- Two requests for a branch: the first compacts two messages, and the second gets the summary. -/
theorem compactionKeeps_asked : ∃ tr chat branch result,
    (compactionMachine Sample.noText Sample.noDumps).RunIn
      (fun c op => Grows c op ∧ CheckpointFits Sample.noText Sample.noDumps c op) (Sample.conversation true) tr chat ∧
    (.request (.lit "u3") (Sample.ask (Sample.afterAsk (Sample.conversation true))), some (branch, result)) ∈ tr ∧
    branch.length = 5 ∧ result.messages.length = 3 ∧ ∀ k ∈ branch, Kept result k := by
  have hfits : ∀ chat, getMessageList chat.messages (.lit "u3") =
      some ((getMessageList chat.messages (.lit "u3")).getD []) →
      (∀ p ∈ (Sample.ask chat).messages, (p.data.fetch "id").truthy ∧
        p.key.any fun k => (p.data.fetch "id").eqStr k) →
      (splitSystem (Sample.ask chat).messages).1 = [] →
      Grows chat (.request (.lit "u3") (Sample.ask chat)) ∧
        CheckpointFits Sample.noText Sample.noDumps chat (.request (.lit "u3") (Sample.ask chat)) := by
    intro chat hsome hids hsystem
    have hpasses := Sample.ask_passes hsome fun p hp _ => (hids p hp).2
    exact ⟨⟨_, _, _, hpasses⟩, checkpointFits_of_ids hpasses (fun p hp => (hids p hp).1) (by simp [hsystem])⟩
  have hrun₁ := Machine.RunIn.snoc (M := compactionMachine Sample.noText Sample.noDumps)
    (C := fun c op => Grows c op ∧ CheckpointFits Sample.noText Sample.noDumps c op) .nil
    (hfits (Sample.conversation true) rfl (by decide +kernel) rfl) rfl
  have hrun := hrun₁.snoc (hfits (Sample.afterAsk (Sample.conversation true)) rfl (by decide +kernel) rfl) rfl
  exact ⟨_, _, _, _, hrun, List.mem_append_right _ List.mem_cons_self, by decide +kernel, by decide +kernel,
    compactionKeeps (Sample.conversation_tree true) (Sample.conversation_noSummary true) hrun _ _ _
      (List.mem_append_right _ List.mem_cons_self)⟩

/-- The summary goes to the end of the branch where the first message that is kept has no id: what is
    between them is in no summary, and the next request does not get it. -/
theorem compactionKeeps_fails : ∃ tr chat branch result,
    ChatTree (Sample.conversation false).messages ∧
    (∀ k m, (Sample.conversation false).messages.get k = some m → summaryText m = none) ∧
    (compactionMachine Sample.noText Sample.noDumps).RunIn Grows (Sample.conversation false) tr chat ∧
    (.request (.lit "u3") (Sample.ask (Sample.afterAsk (Sample.conversation false))), some (branch, result)) ∈ tr ∧
    Text.lit "u2" ∈ branch ∧ ¬ Kept result (.lit "u2") := by
  have hgrows : ∀ chat, getMessageList chat.messages (.lit "u3") =
      some ((getMessageList chat.messages (.lit "u3")).getD []) →
      (∀ p ∈ (Sample.ask chat).messages, ¬ (p.data.fetch "id").truthy) →
      Grows chat (.request (.lit "u3") (Sample.ask chat)) := fun chat hsome hids =>
    ⟨_, _, _, Sample.ask_passes hsome fun p hp htruthy => absurd htruthy (hids p hp)⟩
  have hrun₁ := Machine.RunIn.snoc (M := compactionMachine Sample.noText Sample.noDumps) (C := Grows) .nil
    (hgrows (Sample.conversation false) rfl (by decide +kernel)) rfl
  have hrun := hrun₁.snoc (hgrows (Sample.afterAsk (Sample.conversation false)) rfl (by decide +kernel)) rfl
  refine ⟨_, _, _, _, Sample.conversation_tree false, Sample.conversation_noSummary false, hrun,
    List.mem_append_right _ List.mem_cons_self, by decide +kernel, ?_⟩
  rintro (hlisted | ⟨s, hs, hcovered⟩)
  · revert hlisted
    decide +kernel
  · obtain rfl := Option.some.inj hs
    revert hcovered
    decide +kernel

end TideBot
