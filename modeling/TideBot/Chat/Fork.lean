/-
  The fork of a chat at a message (`utils/chat_fork.py`).

  `build_fork_history` goes up from a message to the root of its branch, and copies what it has met with new links.
  It does not trust the map: it raises where a message comes up again or is not there.
-/
import TideBot.Chat.Gaps
import TideBot.Lib.Circles

namespace TideBot

open Lib

/-- What `build_fork_history` raises: three a `ValueError`, and the last a `TypeError` of the set `seen`. -/
inductive ForkError where
  | noMessages
  | cycle
  | notFound
  | unhashable

/-- The text of a `ValueError`. -/
def ForkError.detail : ForkError → Option Text
  | .noMessages => some (.lit "chat has no messages to fork")
  | .cycle => some (.lit "message branch contains a cycle")
  | .notFound => some (.lit "message not found")
  | .unhashable => none

/-- The first loop, with the ids; `none`: the fuel has run out. -/
def forkBranch (messagesMap : Dict Text PyDict) :
    ℕ → List Text → Json → Option (Except ForkError (List (Text × PyDict)))
  | 0, _, _ => none
  | fuel + 1, seen, messageId =>
    if messageId.truthy then
      match messageId.asKey with
      | none => some (.error .unhashable)
      -- what is no string is in neither the set nor the map
      | some none => some (.error .notFound)
      | some (some key) =>
        if key ∈ seen then some (.error .cycle)
        else
          match messagesMap.get key with
          | none => some (.error .notFound)
          | some message =>
            (forkBranch messagesMap fuel (key :: seen) (message.fetch "parentId")).map fun branch =>
              branch.map fun rest => (key, message) :: rest
    else some (.ok [])

/-- The variables of the second loop; of `ordered_messages` the ids, for its items are those of `fork_messages`. -/
structure ForkState where
  forkMessages : Dict Text PyDict
  orderedIds : List Text
  parentId : Option Text

/-- The copy of a message. -/
def copiedMessage (messageId : Text) (message : PyDict) (parentId : Option Text) : PyDict :=
  ((message.put "id" (.str messageId)).put "parentId" ((parentId.map Json.str).getD .null)).put "childrenIds" (.arr [])

/-- `fork_messages[parent_id]['childrenIds'] = [message_id]` -/
def linkParent (forkMessages : Dict Text PyDict) (parentId : Option Text) (messageId : Text) : Dict Text PyDict :=
  match parentId with
  | none => forkMessages
  | some p =>
    if p = [] then forkMessages
    else
      match forkMessages.get p with
      | none => forkMessages
      | some parent => forkMessages.set p (parent.put "childrenIds" (.arr [.str messageId]))

/-- One round of the second loop. -/
def ForkState.copy (s : ForkState) (e : Text × PyDict) : ForkState where
  forkMessages := (linkParent s.forkMessages s.parentId e.1).set e.1 (copiedMessage e.1 e.2 s.parentId)
  orderedIds := s.orderedIds ++ [e.1]
  parentId := some e.1

/-- A fork: its history, and its messages in order. -/
structure Fork where
  messages : Dict Text PyDict
  currentId : Text
  ordered : List PyDict

/-- What is made of a branch, which is given from the message on upwards. -/
def forkOf (branch : List (Text × PyDict)) (sourceMessageId : Text) : Fork :=
  let s := branch.reverse.foldl ForkState.copy ⟨.empty, [], none⟩
  ⟨s.forkMessages, sourceMessageId, s.orderedIds.filterMap s.forkMessages.get⟩

/-- `build_fork_history` -/
def buildForkHistory (messagesMap : Dict Text PyDict) (sourceMessageId : Text) : Option (Except ForkError Fork) :=
  if messagesMap.entries.isEmpty then some (.error .noMessages)
  else
    (forkBranch messagesMap (messagesMap.size + 1) [] (.str sourceMessageId)).map fun branch =>
      branch.map fun branch => forkOf branch sourceMessageId

/-! ## The chain of parents -/

/-- The parent id of the message that a value is the id of, if it is one. -/
def parentValue (messages : Dict Text PyDict) : Json → Option Json
  | .str key => if key = [] then none else (messages.get key).map fun m => m.fetch "parentId"
  | _ => none

/-- The chain of parents from an id runs in a circle. -/
def ChainCyclic (messages : Dict Text PyDict) (id : Text) : Prop :=
  ∃ v, Leads (parentValue messages) (.str id) v ∧ OnCircle (parentValue messages) v

/-- It reaches a message that is not there. -/
def ChainBroken (messages : Dict Text PyDict) (id : Text) : Prop :=
  ∃ v key, Leads (parentValue messages) (.str id) v ∧ v.truthy ∧ v.asKey = some key ∧ key.bind messages.get = none

/-- It reaches a value that is no key: a list or an object that is not empty. -/
def ChainUnhashable (messages : Dict Text PyDict) (id : Text) : Prop :=
  ∃ v, Leads (parentValue messages) (.str id) v ∧ v.truthy ∧ v.asKey = none

/-- The messages from a value up to a root, whose parent id is empty or not there. -/
inductive ChainOf (messages : Dict Text PyDict) : Json → List (Text × PyDict) → Prop
  | top {v} : v.truthy = false → ChainOf messages v []
  | step {key m l} : key ≠ [] → messages.get key = some m → ChainOf messages (m.fetch "parentId") l →
      ChainOf messages (.str key) ((key, m) :: l)

section
variable {messages : Dict Text PyDict} {fuel : ℕ} {seen : List Text} {v w : Json} {key id : Text} {m : PyDict}
  {l : List (Text × PyDict)}

theorem parentValue_str (hkey : key ≠ []) (hm : messages.get key = some m) :
    parentValue messages (.str key) = some (m.fetch "parentId") := by
  rw [parentValue, if_neg hkey, hm, Option.map_some]

theorem parentValue_of_not_truthy (h : v.truthy = false) : parentValue messages v = none := by
  cases v with
  | str s =>
    rw [Json.truthy_str, decide_eq_false_iff_not, not_not] at h
    exact if_pos h
  | null | bool | int | float | arr | obj => rfl

theorem parentValue_of_missing {k : Option Text} (h : v.asKey = some k) (hnone : k.bind messages.get = none) :
    parentValue messages v = none := by
  cases v with
  | str s =>
    obtain rfl := Option.some.inj h
    rw [Option.bind_some] at hnone
    rw [parentValue, hnone]
    exact ite_self none
  | null | bool | int | float | arr | obj => rfl

theorem parentValue_of_unhashable (h : v.asKey = none) : parentValue messages v = none := by
  cases v with
  | str s => cases h
  | null | bool | int | float | arr | obj => rfl

theorem ChainOf.leads (h : ChainOf messages v l) :
    ∃ t, Leads (parentValue messages) v t ∧ t.truthy = false := by
  induction h with
  | top hv => exact ⟨_, .refl, hv⟩
  | step hkey hm _ ih =>
    obtain ⟨t, ht, hend⟩ := ih
    exact ⟨t, .head (parentValue_str hkey hm) ht, hend⟩

theorem ChainOf.top_eq (h : ChainOf messages v []) : v.truthy = false := by
  cases h with
  | top hv => exact hv

theorem ChainOf.head_eq (h : ChainOf messages v ((key, m) :: l)) : v = .str key ∧ key ≠ [] := by
  cases h with
  | step hkey _ _ => exact ⟨rfl, hkey⟩

theorem ChainOf.get (h : ChainOf messages v l) : ∀ e ∈ l, e.1 ≠ [] ∧ messages.get e.1 = some e.2 := by
  induction h with
  | top => simp
  | step hkey hm _ ih => exact List.forall_mem_cons.2 ⟨⟨hkey, hm⟩, ih⟩

/-! ## The first loop -/

/-- What the first loop has found when it ends. -/
def Found (messages : Dict Text PyDict) (seen : List Text) (v : Json) :
    Except ForkError (List (Text × PyDict)) → Prop
  | .ok l => ChainOf messages v l ∧ (l.map Prod.fst).Nodup ∧ ∀ k ∈ l.map Prod.fst, k ∉ seen
  | .error .cycle => ∃ key, Leads (parentValue messages) v (.str key) ∧
      (key ∈ seen ∨ OnCircle (parentValue messages) (.str key))
  | .error .notFound => ∃ t key, Leads (parentValue messages) v t ∧ t.truthy ∧ t.asKey = some key ∧
      key.bind messages.get = none
  | .error .unhashable => ∃ t, Leads (parentValue messages) v t ∧ t.truthy ∧ t.asKey = none
  | .error .noMessages => False

theorem Found.below {r : Except ForkError (List (Text × PyDict))} (hkey : key ≠ []) (hm : messages.get key = some m)
    (hnew : key ∉ seen) (h : Found messages (key :: seen) (m.fetch "parentId") r) :
    Found messages seen (.str key) (r.map fun rest => (key, m) :: rest) := by
  have hup := parentValue_str hkey hm
  match r, h with
  | .ok l, ⟨hchain, hnodup, hfresh⟩ =>
    refine ⟨.step hkey hm hchain, List.nodup_cons.2 ⟨fun hmem => hfresh key hmem List.mem_cons_self, hnodup⟩, ?_⟩
    rw [List.map_cons, List.forall_mem_cons]
    exact ⟨hnew, fun k hk hin => hfresh k hk (List.mem_cons_of_mem _ hin)⟩
  | .error .cycle, ⟨key', hleads, hback⟩ =>
    obtain hmem | hcircle := hback
    · obtain rfl | hmem := List.mem_cons.1 hmem
      · exact ⟨key', .refl, .inr (.head' hup hleads)⟩
      · exact ⟨key', .head hup hleads, .inl hmem⟩
    · exact ⟨key', .head hup hleads, .inr hcircle⟩
  | .error .notFound, ⟨t, k, hleads, ht⟩ => exact ⟨t, k, .head hup hleads, ht⟩
  | .error .unhashable, ⟨t, hleads, ht⟩ => exact ⟨t, .head hup hleads, ht⟩

/-- **The first loop ends, and says what it has found.** -/
theorem forkBranch_found (hnodup : seen.Nodup) (hseen : ∀ k ∈ seen, k ∈ messages.keys)
    (hfuel : messages.size < fuel + seen.length) :
    ∃ r, forkBranch messages fuel seen v = some r ∧ Found messages seen v r := by
  induction fuel generalizing seen v with
  | zero =>
    have hle : seen.length ≤ messages.keys.length := (List.subperm_of_subset hnodup hseen).length_le
    rw [Dict.keys, List.length_map] at hle
    exact absurd hfuel (by rw [Nat.zero_add, Dict.size]; omega)
  | succ fuel ih =>
    rw [forkBranch]
    by_cases htruthy : v.truthy
    swap
    · rw [if_neg htruthy]
      exact ⟨_, rfl, .top (by simpa using htruthy), List.nodup_nil, by simp⟩
    rw [if_pos htruthy]
    rcases hkey : v.asKey with _ | _ | key
    · exact ⟨_, rfl, v, .refl, htruthy, hkey⟩
    · exact ⟨_, rfl, v, none, .refl, htruthy, hkey, rfl⟩
    · obtain rfl : v = .str key := by
        cases v <;> simp_all [Json.asKey]
      rw [Json.truthy_str, decide_eq_true_iff] at htruthy
      dsimp only
      split_ifs with hin
      · exact ⟨_, rfl, key, .refl, .inl hin⟩
      · rcases hm : messages.get key with _ | m
        · exact ⟨_, rfl, .str key, some key, .refl, by simpa [Json.truthy_str] using htruthy, hkey, hm⟩
        · obtain ⟨r, hr, hfound⟩ := ih (v := m.fetch "parentId") (List.nodup_cons.2 ⟨hin, hnodup⟩)
            (List.forall_mem_cons.2 ⟨Dict.mem_keys_iff.2 ⟨m, hm⟩, hseen⟩) (by rw [List.length_cons]; omega)
          refine ⟨r.map fun rest => (key, m) :: rest, ?_, hfound.below htruthy hm hin⟩
          dsimp only
          rw [hr, Option.map_some]

/-! ## The copies -/

/-- A message with its links: under `parentId`, and over `childId`. -/
def linkedMessage (messageId : Text) (message : PyDict) (parentId childId : Option Text) : PyDict :=
  ((message.put "id" (.str messageId)).put "parentId" ((parentId.map Json.str).getD .null)).put "childrenIds"
    (.arr (childId.toList.map Json.str))

/-- The copies of a branch, from the root on. -/
def forkCopies : Option Text → List (Text × PyDict) → List (Text × PyDict)
  | _, [] => []
  | parentId, (k, m) :: rest =>
    (k, linkedMessage k m parentId (rest.head?.map Prod.fst)) :: forkCopies (some k) rest

theorem map_fst_forkCopies (parentId : Option Text) (chain : List (Text × PyDict)) :
    (forkCopies parentId chain).map Prod.fst = chain.map Prod.fst := by
  induction chain generalizing parentId with
  | nil => rfl
  | cons e rest ih => rw [forkCopies, List.map_cons, List.map_cons, ih]

theorem linkParent_entries {d : Dict Text PyDict} {pre : List (Text × PyDict)} {p : Text} {mp : PyDict}
    {grandparentId : Option Text} (hp : p ≠ []) (child : Text)
    (hd : d.entries = pre ++ [(p, linkedMessage p mp grandparentId none)]) :
    (linkParent d (some p) child).entries = pre ++ [(p, linkedMessage p mp grandparentId (some child))] := by
  have hmem : (p, linkedMessage p mp grandparentId none) ∈ d.entries := by simp [hd]
  have hget := Dict.mem_entries_iff.1 hmem
  have hput : (linkedMessage p mp grandparentId none).put "childrenIds" (.arr [.str child]) =
      linkedMessage p mp grandparentId (some child) := Dict.set_set _ _ _ _
  have hpre : ∀ e ∈ pre, e.1 ≠ p := by
    have hnodup := d.nodup
    rw [hd, List.map_append, List.nodup_append] at hnodup
    exact fun e he => hnodup.2.2 e.1 (List.mem_map_of_mem he) p (by simp)
  rw [linkParent, if_neg hp, hget]
  dsimp only
  rw [hput, Dict.set, dif_pos (Dict.mem_keys_iff.2 ⟨_, hget⟩)]
  dsimp only
  rw [hd, List.map_append, List.map_cons, List.map_nil, if_pos rfl]
  congr 1
  exact (List.map_congr_left fun e he => if_neg (hpre e he)).trans (List.map_id pre)

theorem foldl_copy {pre chain : List (Text × PyDict)} {p : Text} {mp : PyDict} {grandparentId : Option Text}
    {s : ForkState} (hne : ∀ e ∈ (p, mp) :: chain, e.1 ≠ [])
    (hnodup : ((pre ++ (p, mp) :: chain).map Prod.fst).Nodup)
    (hentries : s.forkMessages.entries = pre ++ [(p, linkedMessage p mp grandparentId none)])
    (hparent : s.parentId = some p) :
    (chain.foldl ForkState.copy s).forkMessages.entries = pre ++ forkCopies grandparentId ((p, mp) :: chain) ∧
      (chain.foldl ForkState.copy s).orderedIds = s.orderedIds ++ chain.map Prod.fst := by
  induction chain generalizing pre p mp grandparentId s with
  | nil => exact ⟨hentries, (List.append_nil _).symm⟩
  | cons e chain ih =>
    obtain ⟨k, m⟩ := e
    have hlinked := linkParent_entries (hne _ List.mem_cons_self) k hentries
    have hnew : (linkParent s.forkMessages (some p) k).get k = none := by
      rw [Dict.get_eq_none_iff, Dict.keys, hlinked]
      rw [List.map_append, List.nodup_append] at hnodup
      rw [List.map_append, List.mem_append, not_or]
      refine ⟨fun hk => hnodup.2.2 k hk k (by simp) rfl, fun hk => ?_⟩
      have hkp : k = p := by simpa using hk
      have hnot := (List.nodup_cons.1 hnodup.2.1).1
      exact hnot (by simp [hkp])
    have hstep : (s.copy (k, m)).forkMessages.entries =
        (pre ++ [(p, linkedMessage p mp grandparentId (some k))]) ++ [(k, linkedMessage k m (some p) none)] := by
      rw [ForkState.copy, hparent, Dict.entries_set_new hnew, hlinked]
      rfl
    have hrest := ih (s := s.copy (k, m)) (fun e he => hne e (List.mem_cons_of_mem _ he))
      (by simpa [List.append_assoc] using hnodup) hstep rfl
    rw [List.foldl_cons]
    refine ⟨?_, ?_⟩
    · rw [hrest.1, List.append_assoc]
      rfl
    · rw [hrest.2, ForkState.copy, List.append_assoc]
      rfl

/-- **What the second loop makes of a branch.** -/
theorem forkOf_spec (id : Text) (hne : ∀ e ∈ l, e.1 ≠ []) (hnodup : (l.map Prod.fst).Nodup) :
    (forkOf l id).messages.entries = forkCopies none l.reverse ∧
      (forkOf l id).ordered = (forkCopies none l.reverse).map Prod.snd := by
  have hrun : (l.reverse.foldl ForkState.copy ⟨.empty, [], none⟩).forkMessages.entries = forkCopies none l.reverse ∧
      (l.reverse.foldl ForkState.copy ⟨.empty, [], none⟩).orderedIds = l.reverse.map Prod.fst := by
    have hne' : ∀ e ∈ l.reverse, e.1 ≠ [] := fun e he => hne e (List.mem_reverse.1 he)
    have hnodup' : (l.reverse.map Prod.fst).Nodup := by
      rw [List.map_reverse]
      exact List.nodup_reverse.2 hnodup
    cases hchain : l.reverse with
    | nil => exact ⟨rfl, rfl⟩
    | cons e rest =>
      rw [hchain] at hne' hnodup'
      obtain ⟨k, m⟩ := e
      have hfirst : (ForkState.copy ⟨.empty, [], none⟩ (k, m)).forkMessages.entries =
          [] ++ [(k, linkedMessage k m none none)] := Dict.entries_set_new rfl
      obtain ⟨hentries, hids⟩ := foldl_copy hne' hnodup' hfirst rfl
      exact ⟨hentries, hids⟩
  refine ⟨hrun.1, ?_⟩
  rw [forkOf]
  dsimp only
  rw [hrun.2, ← map_fst_forkCopies none, ← hrun.1, List.filterMap_map, ← List.filterMap_eq_map]
  exact List.filterMap_congr fun e he => Dict.mem_entries_iff.1 he

/-! ## What a fork is -/

/-- The fields that a copy gets anew. -/
def linkFields : List Text := [.lit "id", .lit "parentId", .lit "childrenIds"]

/-- A message with its own id and content, and with these links. -/
structure CopyOf (message copied : PyDict) (messageId : Text) (parentId childId : Option Text) : Prop where
  id : copied.fetch "id" = .str messageId
  parentId : copied.fetch "parentId" = (parentId.map Json.str).getD .null
  childrenIds : copied.fetch "childrenIds" = .arr (childId.toList.map Json.str)
  content : ∀ key ∉ linkFields, copied.get key = message.get key

/-- The entries are copies of the messages of a chain, each under the one before it. -/
inductive IsPath : Option Text → List (Text × PyDict) → List (Text × PyDict) → Prop
  | nil {parentId} : IsPath parentId [] []
  | cons {parentId k m c chain copies} : CopyOf m c k parentId (chain.head?.map Prod.fst) →
      IsPath (some k) chain copies → IsPath parentId ((k, m) :: chain) ((k, c) :: copies)

theorem linkedMessage_copyOf (k : Text) (m : PyDict) (parentId childId : Option Text) :
    CopyOf m (linkedMessage k m parentId childId) k parentId childId where
  id := by
    rw [linkedMessage, PyDict.fetch_put, if_neg (by decide), PyDict.fetch_put, if_neg (by decide), PyDict.fetch_put,
      if_pos rfl]
  parentId := by rw [linkedMessage, PyDict.fetch_put, if_neg (by decide), PyDict.fetch_put, if_pos rfl]
  childrenIds := by rw [linkedMessage, PyDict.fetch_put, if_pos rfl]
  content := by
    intro key hkey
    simp only [linkFields, List.mem_cons, List.not_mem_nil, or_false, not_or] at hkey
    rw [linkedMessage, PyDict.put, PyDict.put, PyDict.put, Dict.get_set_of_ne _ hkey.2.2, Dict.get_set_of_ne _ hkey.2.1,
      Dict.get_set_of_ne _ hkey.1]

theorem forkCopies_isPath (parentId : Option Text) (chain : List (Text × PyDict)) :
    IsPath parentId chain (forkCopies parentId chain) := by
  induction chain generalizing parentId with
  | nil => exact .nil
  | cons e chain ih => exact .cons (linkedMessage_copyOf _ _ _ _) (ih _)

theorem CopyOf.upId {c : PyDict} {k : Text} {parentId childId : Option Text} (h : CopyOf m c k parentId childId)
    (hne : parentId ≠ some []) : upId c = parentId := by
  rw [TideBot.upId, h.parentId]
  cases parentId with
  | none => rfl
  | some p => exact if_neg fun hp => hne (congrArg some hp)

theorem IsPath.branchOf {d : Dict Text PyDict} {parentId : Option Text} {chain copies above : List (Text × PyDict)}
    {k : Text} {c : PyDict} (h : IsPath parentId chain (copies ++ [(k, c)])) (hne : ∀ e ∈ chain, e.1 ≠ [])
    (hd : ∀ e ∈ copies ++ [(k, c)], d.get e.1 = some e.2)
    (habove : (parentId = none ∧ above = []) ∨ ∃ p, parentId = some p ∧ p ≠ [] ∧ BranchOf d p above) :
    BranchOf d k ((k, c) :: copies.reverse ++ above) := by
  -- the first copy goes on from what is above it
  have hfirst : ∀ {k₁ m₁ c₁ childId}, CopyOf m₁ c₁ k₁ parentId childId → d.get k₁ = some c₁ →
      BranchOf d k₁ ((k₁, c₁) :: above) := by
    intro k₁ m₁ c₁ childId hcopy hget
    obtain ⟨rfl, rfl⟩ | ⟨p, rfl, hp, hbranch⟩ := habove
    · exact .root hget (hcopy.upId (by simp))
    · exact .step hget (hcopy.upId (by simpa using hp)) hbranch
  induction copies generalizing parentId chain above with
  | nil =>
    obtain _ | ⟨hcopy, -⟩ := h
    exact hfirst hcopy (hd (k, c) List.mem_cons_self)
  | cons e copies ih =>
    obtain _ | ⟨hcopy, hpath⟩ := h
    rw [List.forall_mem_cons] at hne
    rw [List.cons_append, List.forall_mem_cons] at hd
    have hbranch := hfirst hcopy hd.1
    have hrest := ih hpath hne.2 hd.2 (.inr ⟨_, rfl, hne.1, hbranch⟩) fun hcopy' hget =>
      .step hget (hcopy'.upId (by simpa using hne.1)) hbranch
    rw [List.reverse_cons, List.cons_append, List.append_assoc]
    exact hrest

/-- The messages that `get_message_list` passes of a chain: it stops at one that is an empty object. -/
theorem ChainOf.branchUp {visited : List Text} (h : ChainOf messages (.str key) ((key, m) :: l))
    (hnodup : (((key, m) :: l).map Prod.fst).Nodup) (hvisited : ∀ k ∈ ((key, m) :: l).map Prod.fst, k ∉ visited)
    (hfuel : ((key, m) :: l).length ≤ fuel) :
    branchUp messages fuel visited key = some (((key, m) :: l).filter fun e => !e.2.entries.isEmpty) := by
  induction l generalizing key m fuel visited with
  | nil =>
    obtain ⟨fuel, rfl⟩ : ∃ n, fuel = n + 1 := Nat.exists_eq_add_of_le' hfuel
    obtain _ | ⟨-, hm, htop⟩ := h
    have hroot : parentKey m = some none := by
      rw [parentKey, htop.top_eq]
      rfl
    have hnew : key ∉ visited := hvisited key List.mem_cons_self
    rw [TideBot.branchUp, hm]
    by_cases hempty : m.entries.isEmpty <;> simp [hempty, hnew, hroot]
  | cons e l ih =>
    obtain ⟨p, mp⟩ := e
    obtain ⟨fuel, rfl⟩ : ∃ n, fuel = n + 1 := Nat.exists_eq_add_of_le' (Nat.le_of_add_left_le hfuel)
    obtain _ | ⟨-, hm, hchain⟩ := h
    obtain ⟨hparent, hp⟩ := hchain.head_eq
    rw [hparent] at hchain
    have hparentKey : parentKey m = some (some p) := by
      rw [parentKey, hparent]
      simp [Json.truthy_str, hp, Json.asKey]
    have hfilled : m.entries.isEmpty = false := by
      rw [Bool.eq_false_iff]
      intro hempty
      rw [PyDict.fetch, Dict.get, List.isEmpty_iff.1 hempty] at hparent
      cases hparent
    rw [List.map_cons, List.nodup_cons] at hnodup
    rw [List.map_cons, List.forall_mem_cons] at hvisited
    have hfresh : ∀ k ∈ ((p, mp) :: l).map Prod.fst, k ∉ key :: visited := by
      intro k hk hin
      obtain rfl | hin := List.mem_cons.1 hin
      · exact hnodup.1 hk
      · exact hvisited.2 k hk hin
    have hrest := ih hchain hnodup.2 hfresh (Nat.le_of_succ_le_succ hfuel)
    rw [TideBot.branchUp, hm]
    simp [hfilled, hvisited.1, hparentKey, hrest]

/-- The copy of a chain, given from the root on: a path from the root to the message that is forked at, which
    `get_message_list` goes along; the original list has the chain, without a root that is an empty object. -/
structure IsFork (messages : Dict Text PyDict) (id : Text) (chain : List (Text × PyDict)) (fork : Fork) : Prop where
  currentId : fork.currentId = id
  ends : chain.getLast?.map Prod.fst = some id
  path : IsPath none chain fork.messages.entries
  ordered : fork.ordered = fork.messages.entries.map Prod.snd
  list : getMessageList fork.messages fork.currentId = some fork.messages.entries
  original : getMessageList messages id = some (chain.filter fun e => !e.2.entries.isEmpty)

theorem IsPath.mem {parentId : Option Text} {chain copies : List (Text × PyDict)} (h : IsPath parentId chain copies) :
    ∀ e ∈ copies, ∃ m parentId childId, CopyOf m e.2 e.1 parentId childId := by
  induction h with
  | nil => simp
  | cons hcopy _ ih => exact List.forall_mem_cons.2 ⟨⟨_, _, _, hcopy⟩, ih⟩

theorem CopyOf.passes {c : PyDict} {k : Text} {parentId childId : Option Text} (h : CopyOf m c k parentId childId) :
    c.entries ≠ [] ∧ parentKey c = some (TideBot.upId c) := by
  constructor
  · intro hempty
    have hid := h.id
    rw [PyDict.fetch, Dict.get, hempty] at hid
    cases hid
  · refine parentKey_eq fun htruthy => ?_
    rw [h.parentId] at htruthy ⊢
    cases parentId with
    | none => cases htruthy
    | some p => exact ⟨p, rfl⟩

theorem ChainOf.isFork (h : ChainOf messages (.str id) l) (hid : id ≠ []) (hnodup : (l.map Prod.fst).Nodup) :
    IsFork messages id l.reverse (forkOf l id) := by
  have hne : ∀ e ∈ l, e.1 ≠ [] := fun e he => (h.get e he).1
  obtain ⟨hentries, hordered⟩ := forkOf_spec id hne hnodup
  obtain ⟨m, rest, rfl⟩ : ∃ m rest, l = (id, m) :: rest := by
    cases h with
    | top hfalse => exact absurd hfalse (by simpa [Json.truthy_str] using hid)
    | step _ _ _ => exact ⟨_, _, rfl⟩
  have hpath := forkCopies_isPath none ((id, m) :: rest).reverse
  rw [← hentries] at hordered hpath
  have hlast : ∃ copies c, (forkOf ((id, m) :: rest) id).messages.entries = copies ++ [(id, c)] := by
    have hfst := map_fst_forkCopies none ((id, m) :: rest).reverse
    rw [← hentries, List.reverse_cons, List.map_append, List.map_cons, List.map_nil] at hfst
    obtain ⟨copies, last, heq, -, hmap⟩ := List.map_eq_append_iff.1 hfst
    obtain ⟨⟨k, c⟩, tail, rfl, rfl, htail⟩ := List.map_eq_cons_iff.1 hmap
    obtain rfl := List.map_eq_nil_iff.1 htail
    exact ⟨copies, c, heq⟩
  obtain ⟨copies, c, heq⟩ := hlast
  refine ⟨rfl, by simp, hpath, hordered, ?_, ?_⟩
  · rw [heq] at hpath
    have hget : ∀ e ∈ copies ++ [(id, c)], (forkOf ((id, m) :: rest) id).messages.get e.1 = some e.2 :=
      fun e he => Dict.mem_entries_iff.1 (heq ▸ he)
    have hbranch := hpath.branchOf (fun e he => hne e (List.mem_reverse.1 he)) hget (.inl ⟨rfl, rfl⟩)
    rw [List.append_nil] at hbranch
    have hlist := hbranch.getMessageList fun e he => by
      obtain ⟨m', parentId, childId, hcopy⟩ := hpath.mem e (by simpa [or_comm] using he)
      exact hcopy.passes
    rw [List.reverse_cons, List.reverse_reverse, ← heq] at hlist
    exact hlist
  · have hle : (((id, m) :: rest).map Prod.fst).length ≤ messages.keys.length := by
      refine (List.subperm_of_subset hnodup fun a ha => ?_).length_le
      obtain ⟨e, he, rfl⟩ := List.mem_map.1 ha
      exact Dict.mem_keys_iff.2 ⟨e.2, (h.get e he).2⟩
    rw [List.length_map, Dict.keys, List.length_map] at hle
    rw [TideBot.getMessageList, h.branchUp hnodup (by simp) (by rw [Dict.size]; omega), Option.map_some,
      List.filter_reverse]

/-! ## When it raises -/

theorem not_chainCyclic (h : Leads (parentValue messages) (.str id) v) (hend : parentValue messages v = none) :
    ¬ChainCyclic messages id := by
  rintro ⟨w, hw, hcircle⟩
  exact h.not_onCircle hend hw hcircle

theorem not_chainBroken (h : Leads (parentValue messages) (.str id) v) (hend : parentValue messages v = none)
    (hthere : v.truthy = false ∨ v.asKey = none) : ¬ChainBroken messages id := by
  rintro ⟨w, k, hw, htruthy, hkey, hnone⟩
  obtain rfl := h.end_unique hend hw (parentValue_of_missing hkey hnone)
  obtain hfalse | hunhashable := hthere
  · rw [hfalse] at htruthy
    cases htruthy
  · rw [hunhashable] at hkey
    cases hkey

theorem not_chainUnhashable (h : Leads (parentValue messages) (.str id) v) (hend : parentValue messages v = none)
    (hkey : v.truthy = false ∨ ∃ k, v.asKey = some k) : ¬ChainUnhashable messages id := by
  rintro ⟨w, hw, htruthy, hnone⟩
  obtain rfl := h.end_unique hend hw (parentValue_of_unhashable hnone)
  obtain hfalse | ⟨k, hk⟩ := hkey
  · rw [hfalse] at htruthy
    cases htruthy
  · rw [hnone] at hk
    cases hk

theorem not_chainUnhashable_of_cyclic (h : ChainCyclic messages id) : ¬ChainUnhashable messages id := by
  rintro ⟨w, hw, -, hnone⟩
  exact not_chainCyclic hw (parentValue_of_unhashable hnone) h

/-- What the first loop has found from an id that is not empty, as an answer to the three questions. -/
theorem Found.answers {r : Except ForkError (List (Text × PyDict))} (h : Found messages [] (.str id) r) :
    ((∃ e detail, r = .error e ∧ e.detail = some detail) ↔ ChainCyclic messages id ∨ ChainBroken messages id) ∧
      (r = .error .unhashable ↔ ChainUnhashable messages id) := by
  match r, h with
  | .ok l, ⟨hchain, _, _⟩ =>
    obtain ⟨t, ht, hfalse⟩ := hchain.leads
    have hend : parentValue messages t = none := parentValue_of_not_truthy hfalse
    have hc := not_chainCyclic ht hend
    have hb := not_chainBroken ht hend (.inl hfalse)
    have hu := not_chainUnhashable ht hend (.inl hfalse)
    simp [hc, hb, hu]
  | .error .cycle, ⟨key, hleads, hback⟩ =>
    have hc : ChainCyclic messages id := ⟨_, hleads, hback.resolve_left List.not_mem_nil⟩
    have hu := not_chainUnhashable_of_cyclic hc
    simp [hc, hu, ForkError.detail]
  | .error .notFound, ⟨t, key, hleads, htruthy, hkey, hnone⟩ =>
    have hb : ChainBroken messages id := ⟨t, key, hleads, htruthy, hkey, hnone⟩
    have hu := not_chainUnhashable hleads (parentValue_of_missing hkey hnone) (.inr ⟨key, hkey⟩)
    simp [hb, hu, ForkError.detail]
  | .error .unhashable, ⟨t, hleads, htruthy, hnone⟩ =>
    have hend : parentValue messages t = none := parentValue_of_unhashable hnone
    have hc := not_chainCyclic hleads hend
    have hb := not_chainBroken hleads hend (.inr hnone)
    have hu : ChainUnhashable messages id := ⟨t, hleads, htruthy, hnone⟩
    simp [hc, hb, hu, ForkError.detail]

theorem chainBroken_of_empty (hid : id ≠ []) (hempty : messages.entries.isEmpty) : ChainBroken messages id := by
  refine ⟨.str id, some id, .refl, by simpa [Json.truthy_str] using hid, rfl, ?_⟩
  rw [Option.bind_some, Dict.get, List.isEmpty_iff.1 hempty]
  rfl

/-- **A fork copies one branch.**  `build_fork_history` ends; at an id that is not empty it raises a `ValueError` iff
    the chain of parents is cyclic or reaches a message that is not there, and a `TypeError` iff it reaches a value that
    is not hashable; and otherwise it returns a fork of the chain. -/
theorem buildForkHistory_exact (messages : Dict Text PyDict) {id : Text} (hid : id ≠ []) :
    ∃ result, buildForkHistory messages id = some result ∧
      ((∃ e detail, result = .error e ∧ e.detail = some detail) ↔
        ChainCyclic messages id ∨ ChainBroken messages id) ∧
      (result = .error .unhashable ↔ ChainUnhashable messages id) ∧
      ∀ fork, result = .ok fork →
        ∃ chain, ChainOf messages (.str id) chain ∧ IsFork messages id chain.reverse fork := by
  rw [buildForkHistory]
  split_ifs with hempty
  · have hb := chainBroken_of_empty hid hempty
    have hu : ¬ChainUnhashable messages id := by
      obtain ⟨w, k, hw, -, hkey, hnone⟩ := hb
      exact not_chainUnhashable hw (parentValue_of_missing hkey hnone) (.inr ⟨k, hkey⟩)
    exact ⟨.error .noMessages, rfl, by simp [hb, ForkError.detail], by simp [hu], by simp⟩
  · obtain ⟨r, hr, hfound⟩ : ∃ r, forkBranch messages (messages.size + 1) [] (.str id) = some r ∧
        Found messages [] (.str id) r := forkBranch_found List.nodup_nil (by simp) (by simp)
    have hanswers := hfound.answers
    rw [hr, Option.map_some]
    match r, hfound with
    | .ok l, ⟨hchain, hnodup, _⟩ =>
      refine ⟨_, rfl, by simpa [Except.map] using hanswers.1, by simpa [Except.map] using hanswers.2, ?_⟩
      rintro fork ⟨⟩
      exact ⟨l, hchain, hchain.isFork hid hnodup⟩
    | .error e, _ =>
      refine ⟨.error e, rfl, by simpa using hanswers.1, by simpa using hanswers.2, by simp⟩

end

namespace Sample

def soleMessage (message : PyDict) : Dict Text PyDict := Dict.set .empty (.lit "a") message

def threaded (role parentId : String) (childrenIds : List String) : PyDict :=
  ((PyDict.put .empty "role" (.str (.lit role))).put "parentId" (.str (.lit parentId))).put "childrenIds"
    (.arr (childrenIds.map fun c => .str (.lit c)))

/-- A question with two answers, the first of which is asked about again. -/
def twoAnswers : Dict Text PyDict :=
  (((Dict.set .empty (.lit "a") (threaded "user" "" ["b", "s"])).set (.lit "b") (threaded "assistant" "a" ["c"])).set
    (.lit "s") (threaded "assistant" "a" [])).set (.lit "c") (threaded "user" "b" [])

end Sample

theorem buildForkHistory_twoAnswers :
    ∃ fork chain, buildForkHistory Sample.twoAnswers (.lit "c") = some (.ok fork) ∧
      IsFork Sample.twoAnswers (.lit "c") chain fork ∧ fork.messages.keys = [.lit "a", .lit "b", .lit "c"] := by
  obtain ⟨result, hresult, -, -, hfork⟩ :=
    buildForkHistory_exact Sample.twoAnswers (show Text.lit "c" ≠ [] by decide)
  have hkeys : (buildForkHistory Sample.twoAnswers (.lit "c")).map (fun result =>
      result.toOption.map fun fork => fork.messages.keys) = some (some [.lit "a", .lit "b", .lit "c"]) := by
    decide
  rw [hresult] at hkeys
  cases result with
  | error e => cases hkeys
  | ok fork =>
    obtain ⟨chain, -, h⟩ := hfork fork rfl
    exact ⟨fork, chain.reverse, hresult, h, Option.some.inj (Option.some.inj hkeys)⟩

/-- At the empty id, which is not there, an empty fork is returned; a list for a parent raises a `TypeError`; and an
    empty message is copied, which `get_message_list` does not list. -/
theorem buildForkHistory_off_chains :
    ((buildForkHistory (Sample.soleMessage (PyDict.put .empty "role" (.str (.lit "user")))) []).map fun result =>
      result.toOption.map fun fork => fork.ordered) = some (some []) ∧
    ((buildForkHistory (Sample.soleMessage (PyDict.put .empty "parentId" (.arr [.int 1]))) (.lit "a")).map fun result =>
      match result with
      | .ok _ => none
      | .error e => some e.detail) = some (some none) ∧
    ((buildForkHistory (Sample.soleMessage .empty) (.lit "a")).map fun result =>
      result.toOption.map fun fork => fork.ordered.length) = some (some 1) ∧
    getMessageList (Sample.soleMessage .empty) (.lit "a") = some [] := by
  decide

end TideBot
