/-
  Growing small chunks to a desired size (`merge_docs_to_target_size` in `routers/retrieval.py`).

  A chunk below the minimum absorbs the chunks after it as long as they fit, and is appended to the chunk before it if
  it is still too small at the end.  Only chunks of one source, and of one file if both name a file, are merged; the
  result has the metadata of its first chunk.  How texts are measured, in characters or tokens, is a parameter.
-/
import TideBot.Lib.Text

namespace TideBot

open Lib

/-- A chunk of a document, with the metadata that are read, and the others. -/
structure DocChunk (μ : Type*) where
  pageContent : Text
  source : Option Text
  fileId : Option Text
  metadata : μ
deriving DecidableEq

section

variable {μ : Type*}

/-- `can_merge_chunks` -/
def canMergeChunks (a b : DocChunk μ) : Prop := a.source = b.source ∧ ∀ x ∈ a.fileId, ∀ y ∈ b.fileId, x = y

instance (a b : DocChunk μ) : Decidable (canMergeChunks a b) :=
  inferInstanceAs (Decidable (_ ∧ ∀ x ∈ a.fileId, ∀ y ∈ b.fileId, x = y))

/-- Two texts as one, as two paragraphs. -/
def paragraphs (a b : Text) : Text := a ++ .lit "\n\n" ++ b

/-- A chunk with other content. -/
def DocChunk.withContent (d : DocChunk μ) (content : Text) : DocChunk μ := { d with pageContent := content }

/-- The sizes of a configuration, and how a text is measured. -/
structure ChunkSizes where
  measure : Text → ℤ
  minSize : ℤ
  maxSize : ℤ

namespace ChunkSizes

variable (s : ChunkSizes)

/-- Append to the chunk emitted last, if there is one and they can be merged. -/
def mergeBackward (result : List (DocChunk μ)) (content : Text) (chunk : DocChunk μ) : Option (List (DocChunk μ)) :=
  match result.getLast? with
  | none => none
  | some prev =>
    if canMergeChunks prev chunk ∧ s.measure (paragraphs prev.pageContent content) ≤ s.maxSize then
      some (result.dropLast ++ [prev.withContent (paragraphs prev.pageContent content)])
    else none

/-- Emit a chunk; one that is too small is merged backward if it can be. -/
def emit (result : List (DocChunk μ)) (content : Text) (chunk : DocChunk μ) : List (DocChunk μ) :=
  if s.measure content < s.minSize then
    (s.mergeBackward result content chunk).getD (result ++ [chunk.withContent content])
  else result ++ [chunk.withContent content]

/-- What has been emitted, and the current chunk with its content. -/
structure State (μ : Type*) where
  result : List (DocChunk μ)
  current : Option (DocChunk μ × Text)

/-- The current chunk absorbs the next one, or is emitted. -/
def step (st : State μ) (next : DocChunk μ) : State μ :=
  match st.current with
  | none => { st with current := some (next, next.pageContent) }
  | some (chunk, content) =>
    if canMergeChunks chunk next ∧ s.measure content < s.minSize ∧
        s.measure (paragraphs content next.pageContent) ≤ s.maxSize then
      { st with current := some (chunk, paragraphs content next.pageContent) }
    else ⟨s.emit st.result content chunk, some (next, next.pageContent)⟩

/-- The last chunk is emitted. -/
def finish (st : State μ) : List (DocChunk μ) :=
  match st.current with
  | none => st.result
  | some (chunk, content) => s.emit st.result content chunk

/-- `merge_docs_to_target_size` -/
def mergeDocsToTargetSize (chunks : List (DocChunk μ)) : List (DocChunk μ) :=
  if s.minSize ≤ 0 then chunks else s.finish (chunks.foldl s.step ⟨[], none⟩)

end ChunkSizes

variable {s : ChunkSizes} {d d' next : DocChunk μ} {g g' chunks ds : List (DocChunk μ)} {gs : List (List (DocChunk μ))}
  {content : Text}

theorem paragraphs_assoc (a b c : Text) : paragraphs (paragraphs a b) c = paragraphs a (paragraphs b c) := by
  simp only [paragraphs, List.append_assoc]

/-- A chunk is emitted as it is, or joins the last one because it is too small. -/
theorem emit_cases (s : ChunkSizes) (ds : List (DocChunk μ)) (d : DocChunk μ) (content : Text) :
    (s.emit ds content d = ds ++ [d.withContent content] ∧ (s.measure content < s.minSize → ∀ prev ∈ ds.getLast?,
      ¬ canMergeChunks prev d ∨ s.maxSize < s.measure (paragraphs prev.pageContent content))) ∨
    ∃ ds₀ prev, ds = ds₀ ++ [prev] ∧ s.measure content < s.minSize ∧ canMergeChunks prev d ∧
      s.measure (paragraphs prev.pageContent content) ≤ s.maxSize ∧
      s.emit ds content d = ds₀ ++ [prev.withContent (paragraphs prev.pageContent content)] := by
  rw [ChunkSizes.emit, ChunkSizes.mergeBackward]
  split_ifs with hsmall
  · split
    · rename_i hnone
      exact .inl ⟨rfl, fun _ prev hprev => by rw [hnone] at hprev; cases hprev⟩
    · rename_i prev hprev
      split_ifs with hmerge
      · obtain ⟨ds, rfl⟩ := List.getLast?_eq_some_iff.1 hprev
        exact .inr ⟨ds, prev, rfl, hsmall, hmerge.1, hmerge.2, by rw [List.dropLast_concat]; rfl⟩
      · refine .inl ⟨rfl, fun _ prev' hprev' => ?_⟩
        obtain rfl := Option.some.inj (hprev.symm.trans hprev')
        rcases not_and_or.1 hmerge with hcan | hfits
        · exact .inl hcan
        · exact .inr (not_le.1 hfits)
  · exact .inl ⟨rfl, fun hsmall' => absurd hsmall' hsmall⟩

/-! ## What a merged chunk is made of -/

/-- A chunk that has been merged from others: each merge keeps the metadata of the first and does not pass the maximum. -/
inductive MergedFrom (s : ChunkSizes) : List (DocChunk μ) → DocChunk μ → Prop
  | single (d : DocChunk μ) : MergedFrom s [d] d
  | append {g g' : List (DocChunk μ)} {d d' : DocChunk μ} (h : MergedFrom s g d) (h' : MergedFrom s g' d')
      (hcan : canMergeChunks d d') (hfits : s.measure (paragraphs d.pageContent d'.pageContent) ≤ s.maxSize) :
      MergedFrom s (g ++ g') (d.withContent (paragraphs d.pageContent d'.pageContent))

/-- The contents of chunks, as paragraphs. -/
def joinContents : List (DocChunk μ) → Text
  | [] => []
  | [d] => d.pageContent
  | d :: ds => paragraphs d.pageContent (joinContents ds)

theorem joinContents_cons (hne : g ≠ []) : joinContents (d :: g) = paragraphs d.pageContent (joinContents g) := by
  cases g with
  | nil => exact absurd rfl hne
  | cons => rfl

theorem joinContents_append (hg : g ≠ []) (hg' : g' ≠ []) :
    joinContents (g ++ g') = paragraphs (joinContents g) (joinContents g') := by
  induction g with
  | nil => exact absurd rfl hg
  | cons d g ih =>
    by_cases hnil : g = []
    · subst hnil
      exact joinContents_cons hg'
    · rw [List.cons_append, joinContents_cons (by simp [hnil]), ih hnil, joinContents_cons hnil, paragraphs_assoc]

theorem MergedFrom.ne_nil (h : MergedFrom s g d) : g ≠ [] := by
  induction h with
  | single => exact List.cons_ne_nil _ _
  | append h h' hcan hfits ih ih' => exact List.append_ne_nil_of_left_ne_nil ih _

/-- **What it holds**: all the content in order, the metadata of the first, nothing of another source, and not more than
    the maximum unless it is one chunk that was. -/
theorem MergedFrom.spec (h : MergedFrom s g d) :
    d.pageContent = joinContents g ∧ (∃ c ∈ g.head?, d = c.withContent d.pageContent) ∧
      (∀ c ∈ g, c.source = d.source) ∧ (g = [d] ∨ s.measure d.pageContent ≤ s.maxSize) := by
  induction h with
  | single d => exact ⟨rfl, ⟨d, rfl, rfl⟩, by simp, .inl rfl⟩
  | append h h' hcan hfits ih ih' =>
    obtain ⟨hcontent, ⟨c, hc, hd⟩, hsource, -⟩ := ih
    obtain ⟨hcontent', -, hsource', -⟩ := ih'
    refine ⟨?_, ⟨c, ?_, ?_⟩, fun c hc => ?_, .inr hfits⟩
    · rw [joinContents_append h.ne_nil h'.ne_nil, ← hcontent, ← hcontent']
      rfl
    · rw [List.head?_append_of_ne_nil _ h.ne_nil]
      exact hc
    · rw [hd]
      rfl
    · rcases List.mem_append.1 hc with hc | hc
      · exact hsource c hc
      · exact (hsource' c hc).trans hcan.1.symm

/-- The groups from which a list of chunks has been merged. -/
abbrev Groups (s : ChunkSizes) (gs : List (List (DocChunk μ))) (ds : List (DocChunk μ)) : Prop :=
  List.Forall₂ (MergedFrom s) gs ds

theorem Groups.append_single (h : Groups s gs ds) (hd : MergedFrom s g d) : Groups s (gs ++ [g]) (ds ++ [d]) :=
  List.rel_append h (.cons hd .nil)

theorem Groups.of_concat (h : Groups s gs (ds ++ [d])) :
    ∃ gs' g, gs = gs' ++ [g] ∧ Groups s gs' ds ∧ MergedFrom s g d := by
  have hlast := List.forall₂_drop_append _ _ _ h
  obtain ⟨g, rest, hg, hnil, hdrop⟩ := List.forall₂_cons_right_iff.1 hlast
  obtain rfl := List.forall₂_nil_right_iff.1 hnil
  exact ⟨_, g, by rw [← hdrop, List.take_append_drop], List.forall₂_take_append _ _ _ h, hg⟩

theorem groups_emit (h : Groups s gs ds) (hd : MergedFrom s g (d.withContent content)) :
    ∃ gs', gs'.flatten = gs.flatten ++ g ∧ Groups s gs' (s.emit ds content d) := by
  rcases emit_cases s ds d content with ⟨hemit, -⟩ | ⟨ds, prev, rfl, -, hcan, hfits, hemit⟩
  · rw [hemit]
    exact ⟨gs ++ [g], by simp, h.append_single hd⟩
  · obtain ⟨gs', g₀, rfl, hgs, hg₀⟩ := h.of_concat
    rw [hemit]
    exact ⟨gs' ++ [g₀ ++ g], by simp, hgs.append_single (hg₀.append hd hcan hfits)⟩

theorem step_some : s.step ⟨ds, some (d, content)⟩ next =
    if canMergeChunks d next ∧ s.measure content < s.minSize ∧
      s.measure (paragraphs content next.pageContent) ≤ s.maxSize then
      ⟨ds, some (d, paragraphs content next.pageContent)⟩
    else ⟨s.emit ds content d, some (next, next.pageContent)⟩ := rfl

theorem groups_finish (h : Groups s gs ds) (hd : MergedFrom s g (d.withContent content)) :
    ∃ gs', gs'.flatten = gs.flatten ++ g ++ chunks ∧
      Groups s gs' (s.finish (chunks.foldl s.step ⟨ds, some (d, content)⟩)) := by
  induction chunks generalizing gs ds g d content with
  | nil =>
    obtain ⟨gs', hflatten, hgs⟩ := groups_emit h hd
    exact ⟨gs', by rw [hflatten, List.append_nil], hgs⟩
  | cons next chunks ih =>
    rw [List.foldl_cons, step_some]
    split_ifs with hforward
    · obtain ⟨gs', hflatten, hgs⟩ := ih (d := d) h (hd.append (.single next) hforward.1 hforward.2.2)
      exact ⟨gs', by rw [hflatten]; simp, hgs⟩
    · obtain ⟨gs₁, hflatten₁, hgs₁⟩ := groups_emit h hd
      obtain ⟨gs', hflatten, hgs⟩ := ih hgs₁ (.single next)
      exact ⟨gs', by rw [hflatten, hflatten₁]; simp, hgs⟩

/-- **Nothing is lost, repeated or reordered**: the result is made of consecutive groups of the chunks, each with all
    the content of its chunks in order and the metadata of the first, of one source, and within the maximum unless it
    is a chunk as it was. -/
theorem mergeDocs_groups (s : ChunkSizes) (chunks : List (DocChunk μ)) : ∃ gs : List (List (DocChunk μ)),
    gs.flatten = chunks ∧ List.Forall₂ (fun g d => d.pageContent = joinContents g ∧
      (∃ c ∈ g.head?, d = c.withContent d.pageContent) ∧ (∀ c ∈ g, c.source = d.source) ∧
        (g = [d] ∨ s.measure d.pageContent ≤ s.maxSize)) gs (s.mergeDocsToTargetSize chunks) := by
  have key : ∃ gs, gs.flatten = chunks ∧ Groups s gs (s.mergeDocsToTargetSize chunks) := by
    rw [ChunkSizes.mergeDocsToTargetSize]
    split_ifs
    · refine ⟨chunks.map fun d => [d], by simp [← List.flatMap_def], List.forall₂_map_left_iff.2 ?_⟩
      exact List.forall₂_same.2 fun d _ => .single d
    · cases chunks with
      | nil => exact ⟨[], rfl, .nil⟩
      | cons d chunks => exact groups_finish .nil (.single d)
  obtain ⟨gs, hflatten, hgs⟩ := key
  exact ⟨gs, hflatten, hgs.imp fun _ _ h => h.spec⟩

/-! ## Merging once more -/

/-- A text does not get smaller when others are put before or after it. -/
def ChunkSizes.Monotone (s : ChunkSizes) : Prop :=
  ∀ a b, s.measure a ≤ s.measure (paragraphs a b) ∧ s.measure b ≤ s.measure (paragraphs a b)

/-- Two neighbours, one of which is too small, cannot be merged. -/
def SettledChunks (s : ChunkSizes) (a b : DocChunk μ) : Prop :=
  s.measure a.pageContent < s.minSize ∨ s.measure b.pageContent < s.minSize →
    ¬ canMergeChunks a b ∨ s.maxSize < s.measure (paragraphs a.pageContent b.pageContent)

/-- What has been emitted is settled, and the last chunk with the current one if it is the last that is too small. -/
structure MergeInv (s : ChunkSizes) (k : Bool) (ds : List (DocChunk μ)) (d : DocChunk μ) : Prop where
  settled : ds.IsChain (SettledChunks s)
  last : ∀ a ∈ ds.getLast?, s.measure a.pageContent < s.minSize →
    ¬ canMergeChunks a d ∨ s.maxSize < s.measure (paragraphs a.pageContent d.pageContent)
  filed : ∀ a ∈ ds, a.fileId.isSome = k
  current : d.fileId.isSome = k

variable {k : Bool}

/-- Chunks that all have a file, or all have none, can be merged if they are of one source and file. -/
theorem canMergeChunks_iff {a b : DocChunk μ} (ha : a.fileId.isSome = k) (hb : b.fileId.isSome = k) :
    canMergeChunks a b ↔ a.source = b.source ∧ a.fileId = b.fileId := by
  refine and_congr_right fun _ => ?_
  cases hfa : a.fileId with
  | none =>
    cases hfb : b.fileId with
    | none => simp
    | some y => rw [← ha, hfa, hfb] at hb; cases hb
  | some x =>
    cases hfb : b.fileId with
    | none => rw [← ha, hfa, hfb] at hb; cases hb
    | some y => simp

theorem SettledChunks.grow {a b : DocChunk μ} (hs : s.Monotone) (h : SettledChunks s a b) (t : Text) :
    SettledChunks s a (b.withContent (paragraphs b.pageContent t)) := by
  intro hsmall
  have hb := (hs b.pageContent t).1
  have hab := (hs (paragraphs a.pageContent b.pageContent) t).1
  rw [paragraphs_assoc] at hab
  rcases h (hsmall.imp_right hb.trans_lt) with hcan | hfits
  · exact .inl hcan
  · exact .inr (hfits.trans_le hab)

theorem MergeInv.forward (hs : s.Monotone) (h : MergeInv s k ds (d.withContent content)) (t : Text) :
    MergeInv s k ds (d.withContent (paragraphs content t)) where
  settled := h.settled
  last a ha hsmall := by
    have hle := (hs (paragraphs a.pageContent content) t).1
    rw [paragraphs_assoc] at hle
    rcases h.last a ha hsmall with hcan | hfits
    · exact .inl hcan
    · exact .inr (hfits.trans_le hle)
  filed := h.filed
  current := h.current

theorem MergeInv.emit (hs : s.Monotone) (h : MergeInv s k ds (d.withContent content)) (next : DocChunk μ) :
    (s.emit ds content d).IsChain (SettledChunks s) ∧ (∀ a ∈ s.emit ds content d, a.fileId.isSome = k) ∧
      ∀ a ∈ (s.emit ds content d).getLast?, (s.measure a.pageContent < s.minSize → s.measure content < s.minSize) ∧
        (canMergeChunks a next → next.fileId.isSome = k → canMergeChunks d next) ∧
        ∀ t, s.measure (paragraphs content t) ≤ s.measure (paragraphs a.pageContent t) := by
  rcases emit_cases s ds d content with ⟨hemit, hbackward⟩ | ⟨ds, prev, rfl, -, hcan, hfits, hemit⟩
  · rw [hemit]
    refine ⟨List.isChain_append.2 ⟨h.settled, .singleton _, ?_⟩, fun a ha => ?_, fun a ha => ?_⟩
    · rintro a ha b ⟨⟩ (hsmall | hsmall)
      · exact h.last a ha hsmall
      · exact hbackward hsmall a ha
    · rcases List.mem_append.1 ha with ha | ha
      · exact h.filed a ha
      · rw [List.mem_singleton.1 ha]
        exact h.current
    · rw [List.getLast?_concat] at ha
      obtain rfl := Option.some.inj ha
      exact ⟨id, fun hcan _ => hcan, fun _ => le_rfl⟩
  · rw [hemit]
    have hprev : prev.fileId.isSome = k := h.filed prev (by simp)
    obtain ⟨hds, -, hlast⟩ := List.isChain_append.1 h.settled
    refine ⟨List.isChain_append.2 ⟨hds, .singleton _, ?_⟩, fun a ha => ?_, fun a ha => ?_⟩
    · rintro a ha b ⟨⟩
      exact (hlast a ha prev rfl).grow hs content
    · rcases List.mem_append.1 ha with ha | ha
      · exact h.filed a (List.mem_append_left _ ha)
      · rw [List.mem_singleton.1 ha]
        exact hprev
    · rw [List.getLast?_concat] at ha
      obtain rfl := Option.some.inj ha
      refine ⟨(hs _ _).2.trans_lt, fun hnext hk => ?_, fun t => ?_⟩
      · obtain ⟨hsource, hfile⟩ := (canMergeChunks_iff hprev h.current).1 hcan
        obtain ⟨hsource', hfile'⟩ := (canMergeChunks_iff (a := prev.withContent _) hprev hk).1 hnext
        exact (canMergeChunks_iff (a := d) h.current hk).2 ⟨hsource.symm.trans hsource', hfile.symm.trans hfile'⟩
      · rw [DocChunk.withContent, paragraphs_assoc]
        exact (hs _ _).2

theorem MergeInv.finish (hs : s.Monotone) (h : MergeInv s k ds (d.withContent content))
    (hchunks : ∀ c ∈ chunks, c.fileId.isSome = k) :
    (s.finish (chunks.foldl s.step ⟨ds, some (d, content)⟩)).IsChain (SettledChunks s) := by
  induction chunks generalizing ds d content with
  | nil => exact (h.emit hs d).1
  | cons next chunks ih =>
    obtain ⟨hnext, hchunks⟩ := List.forall_mem_cons.1 hchunks
    rw [List.foldl_cons, step_some]
    split_ifs with hforward
    · exact ih (h.forward hs _) hchunks
    · obtain ⟨hsettled, hfiled, hlast⟩ := h.emit hs next
      refine ih (d := next) ⟨hsettled, fun a ha hsmall => ?_, hfiled, hnext⟩ hchunks
      obtain ⟨hcontent, hcan, hle⟩ := hlast a ha
      by_contra hcon
      obtain ⟨hmerge, hfits⟩ := not_or.1 hcon
      exact hforward ⟨hcan (not_not.1 hmerge) hnext, hcontent hsmall, (hle _).trans (not_lt.1 hfits)⟩

theorem emit_of_settled (h : (ds ++ d :: chunks).IsChain (SettledChunks s)) : s.emit ds d.pageContent d = ds ++ [d] := by
  rcases emit_cases s ds d d.pageContent with ⟨hemit, -⟩ | ⟨ds, prev, rfl, hsmall, hcan, hfits, -⟩
  · exact hemit
  · rcases (List.isChain_append.1 h).2.2 prev (by simp) d rfl (.inr hsmall) with hnot | hnot
    · exact absurd hcan hnot
    · exact absurd hfits (not_le.2 hnot)

theorem finish_of_settled (h : (ds ++ d :: chunks).IsChain (SettledChunks s)) :
    s.finish (chunks.foldl s.step ⟨ds, some (d, d.pageContent)⟩) = ds ++ d :: chunks := by
  induction chunks generalizing ds d with
  | nil => exact emit_of_settled h
  | cons next chunks ih =>
    have hnot : ¬ (canMergeChunks d next ∧ s.measure d.pageContent < s.minSize ∧
        s.measure (paragraphs d.pageContent next.pageContent) ≤ s.maxSize) := by
      rintro ⟨hcan, hsmall, hfits⟩
      rcases (List.isChain_cons_cons.1 (List.isChain_append.1 h).2.1).1 (.inl hsmall) with hnot | hnot
      · exact hnot hcan
      · exact absurd hfits (not_le.2 hnot)
    rw [List.append_cons] at h
    have hfront : (ds ++ [d]).IsChain (SettledChunks s) := (List.isChain_append.1 h).1
    rw [List.foldl_cons, step_some, if_neg hnot, emit_of_settled hfront, ih h, ← List.append_cons]

/-- **Neighbours are settled, and merging again changes nothing**: if the measure does not shrink and all chunks have a
    file or none has, no two neighbours of the result of which one is too small could still be merged. -/
theorem mergeDocs_settled (hs : s.Monotone) (hchunks : ∀ c ∈ chunks, c.fileId.isSome = k)
    (hsizes : 0 < s.minSize ∨ ∀ t, 0 ≤ s.measure t) :
    (s.mergeDocsToTargetSize chunks).IsChain (SettledChunks s) ∧
      s.mergeDocsToTargetSize (s.mergeDocsToTargetSize chunks) = s.mergeDocsToTargetSize chunks := by
  by_cases hmin : 0 < s.minSize
  swap
  · -- nothing is merged, and no chunk is too small
    have hmeasure := hsizes.resolve_left hmin
    have hid : ∀ chunks, s.mergeDocsToTargetSize (μ := μ) chunks = chunks := fun _ => if_pos (not_lt.1 hmin)
    rw [hid, hid]
    refine ⟨(List.pairwise_of_forall fun a b hsmall => absurd hsmall ?_).isChain, rfl⟩
    have hle := fun t => (not_lt.1 hmin).trans (hmeasure t)
    exact not_or.2 ⟨not_lt.2 (hle _), not_lt.2 (hle _)⟩
  have hsettled : (s.mergeDocsToTargetSize chunks).IsChain (SettledChunks s) := by
    rw [ChunkSizes.mergeDocsToTargetSize, if_neg (not_le.2 hmin)]
    cases chunks with
    | nil => exact .nil
    | cons d chunks =>
      obtain ⟨hd, hchunks⟩ := List.forall_mem_cons.1 hchunks
      exact MergeInv.finish (d := d) hs ⟨.nil, by simp, by simp, hd⟩ hchunks
  refine ⟨hsettled, ?_⟩
  generalize s.mergeDocsToTargetSize chunks = merged at hsettled
  rw [ChunkSizes.mergeDocsToTargetSize, if_neg (not_le.2 hmin)]
  cases merged with
  | nil => rfl
  | cons d merged =>
    have hall : ([] ++ d :: merged).IsChain (SettledChunks s) := hsettled
    exact finish_of_settled hall

namespace Sample

def characters : ChunkSizes := ⟨fun t => t.length, 6, 14⟩

theorem characters_monotone : characters.Monotone := by
  intro a b
  simp only [characters, paragraphs, List.length_append]
  omega

def fileChunk (content : Text) : DocChunk Unit := ⟨content, some (.lit "s"), some (.lit "f"), ()⟩

end Sample

/-- Two small chunks are merged, and the last one cannot be. -/
theorem mergeDocs_settled_characters : Sample.characters.mergeDocsToTargetSize
      [Sample.fileChunk (.lit "abcd"), Sample.fileChunk (.lit "efgh"), Sample.fileChunk (.lit "ijklm")] =
        [Sample.fileChunk (.lit "abcd\n\nefgh"), Sample.fileChunk (.lit "ijklm")] ∧
    [Sample.fileChunk (.lit "abcd\n\nefgh"), Sample.fileChunk (.lit "ijklm")].IsChain
      (SettledChunks Sample.characters) := by
  have heq : Sample.characters.mergeDocsToTargetSize
      [Sample.fileChunk (.lit "abcd"), Sample.fileChunk (.lit "efgh"), Sample.fileChunk (.lit "ijklm")] =
        [Sample.fileChunk (.lit "abcd\n\nefgh"), Sample.fileChunk (.lit "ijklm")] := by
    decide +kernel
  have hfiled : ∀ c ∈ [Sample.fileChunk (.lit "abcd"), Sample.fileChunk (.lit "efgh"),
      Sample.fileChunk (.lit "ijklm")], c.fileId.isSome = true := by
    decide
  have h := mergeDocs_settled Sample.characters_monotone hfiled (.inl (by decide))
  exact ⟨heq, heq ▸ h.1⟩

end

end TideBot
