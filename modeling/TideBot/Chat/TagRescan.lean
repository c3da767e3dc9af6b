/-
  A call of `tag_output_handler`, and a full rescan (`utils/middleware.py`).

  What is cached for the last item is right (`CacheSound`), and a call keeps it so.  If the new text does not close a
  start tag that has been passed over (`ClearFor`), the call does what it does in a full rescan
  (`tagOutputHandler_agree`).  A call goes no deeper than the text is long (`tagOutputHandler_fuel`).
-/
import TideBot.Chat.TagScans

namespace TideBot

open Lib

/-! ## States -/

/-- The states of the two runs: they differ in the boundaries at most, which a rescan does not use. -/
structure Alike (s s' : TagState) : Prop where
  output : s'.output = s.output
  nextId : s'.nextId = s.nextId
  positions : s'.positions = s.positions

/-- What has been scanned of an item: the text has no start tag, or no end tag. -/
def ScannedText (tags : List TagPair) (item : TagItem) (text : Text) : Prop :=
  if item.kind = .message then ∀ tag ∈ tags, search (matchStartTag tag.startTag) text = none
  else search (literal item.endTag) text = none

/-- An id that is not in the caches. -/
def NewId (s : TagState) (id : Option ℕ) : Prop := ∀ i ∈ id, s.nextId ≤ i

/-- What is cached for an item is right. -/
structure SoundFor (tags : ContentType → List TagPair) (s : TagState) (item : TagItem) : Prop where
  positions : ∀ type n, s.positions.get (item.id, type) = some n →
    n ≤ item.text.length ∧ ScannedText (tags type) item (item.text.take n)
  boundaries : ∀ type e, s.boundaries.get (item.id, type) = some e → BoundsOf item.text e

/-- What is cached for the last item is right, and new ids are not cached. -/
structure CacheSound (tags : ContentType → List TagPair) (s : TagState) : Prop where
  fresh : ∀ id type, NewId s id → s.positions.get (id, type) = none ∧ s.boundaries.get (id, type) = none
  old : ∀ item ∈ s.output.getLast?, ∀ i ∈ item.id, i < s.nextId
  last : ∀ item ∈ s.output.getLast?, SoundFor tags s item

/-- The new text does not close a start tag that has been passed over. -/
def ClearFor (tags : ContentType → List TagPair) (s : TagState) (type : ContentType) : Prop :=
  ∀ item ∈ s.output.getLast?, item.kind = .message → ∀ n ∈ s.positions.get (item.id, type), ∀ tag ∈ tags type,
    Stranded (maxStartTagLength (tags type)) tag.startTag (item.text.take n) → ¬Closes (item.text.drop n)

section
variable {tags : ContentType → List TagPair} {s s' : TagState} {item : TagItem} {type : ContentType} {n : ℕ}

theorem length_le_maxStartTagLength {tags : List TagPair} {tag : TagPair} (h : tag ∈ tags) :
    tag.startTag.length ≤ maxStartTagLength tags := by
  have hne : tags.isEmpty = false := by
    cases tags with
    | nil => cases h
    | cons t l => rfl
  rw [maxStartTagLength, hne]
  exact List.le_max_of_le' 0 (List.mem_map_of_mem h) le_rfl

theorem maxStartTagLength_pos {tags : List TagPair} (h : ∀ tag ∈ tags, tag.startTag ≠ []) :
    0 < maxStartTagLength tags := by
  cases htags : tags with
  | nil => exact Nat.one_pos
  | cons tag rest =>
    rw [← htags]
    have hmem : tag ∈ tags := htags ▸ List.mem_cons_self
    exact (List.length_pos_iff.2 (h tag hmem)).trans_le (length_le_maxStartTagLength hmem)

theorem matchStartTag_nil (l : Text) : matchStartTag [] l = some (0, []) := by
  rw [matchStartTag, if_neg (by decide), if_pos (List.nil_prefix)]
  rfl

theorem startTag_ne_nil {tags : List TagPair} {text : Text}
    (h : ∀ tag ∈ tags, search (matchStartTag tag.startTag) text = none) : ∀ tag ∈ tags, tag.startTag ≠ [] := by
  intro tag htag hnil
  have hnone := search_eq_none_iff.1 (h tag htag) 0 (Nat.zero_le _)
  rw [hnil, matchStartTag_nil] at hnone
  cases hnone

/-- **The search from where the last one ended finds what a search of the whole text finds.** -/
theorem findStartTag_eq {tags : List TagPair} {text : Text} {start : ℕ} (hn : n ≤ text.length)
    (hscanned : ∀ tag ∈ tags, search (matchStartTag tag.startTag) (text.take n) = none)
    (hstart : start ≤ n + 1 - maxStartTagLength tags)
    (hopen : (tags.any fun tag => isAngle tag.startTag) → lastBoundaryOf (text.take n) < lastOpenOf (text.take n) →
      (start : ℤ) ≤ lastOpenOf (text.take n))
    (hclear : ∀ tag ∈ tags, Stranded (maxStartTagLength tags) tag.startTag (text.take n) → ¬Closes (text.drop n)) :
    findStartTag tags text start = findStartTag tags text 0 := by
  have hpos := maxStartTagLength_pos (startTag_ne_nil hscanned)
  have heq : ∀ tag ∈ tags, searchFrom (matchStartTag tag.startTag) text start =
      searchFrom (matchStartTag tag.startTag) text 0 := by
    intro tag htag
    rw [searchFrom_zero, searchFrom_eq_search (by omega)]
    intro k hk
    exact no_match_before hn (length_le_maxStartTagLength htag) (hscanned tag htag) hstart
      (fun hangle => hopen (List.any_eq_true.2 ⟨tag, htag, hangle⟩)) (hclear tag htag) hk
  unfold findStartTag
  refine findSome?_congr fun tag htag => ?_
  rw [heq tag htag]

theorem search_of_findStartTag_none {tags : List TagPair} {text : Text}
    (h : findStartTag tags text (0 + 1 - maxStartTagLength tags) = none) :
    ∀ tag ∈ tags, search (matchStartTag tag.startTag) text = none := by
  intro tag htag
  have hnone := List.findSome?_eq_none_iff.1 h tag htag
  rw [Option.map_eq_none_iff] at hnone
  by_cases hpos : 0 < maxStartTagLength tags
  · rwa [show 0 + 1 - maxStartTagLength tags = 0 by omega, searchFrom_zero] at hnone
  -- all start tags are empty, and an empty one is found everywhere
  · have hle := length_le_maxStartTagLength htag
    obtain hnil : tag.startTag = [] := List.eq_nil_of_length_eq_zero (by omega)
    rw [hnil, searchFrom, Option.map_eq_none_iff, search_eq_none_iff] at hnone
    have hzero := hnone 0 (Nat.zero_le _)
    rw [matchStartTag_nil] at hzero
    cases hzero

theorem CacheSound.scannedLength_eq (h : CacheSound tags s) (hitem : item ∈ s.output.getLast?) (type : ContentType) :
    scannedLength false type item s = (s.positions.get (item.id, type)).getD 0 := by
  unfold scannedLength
  by_cases hid : item.id = none
  · have hfresh := (h.fresh item.id type (by rw [hid]; simp [NewId])).1
    rw [if_pos (.inr hid), hfresh, Option.getD_none]
  · rw [if_neg (by simp [hid])]
    cases hget : s.positions.get (item.id, type) with
    | none => simp
    | some n =>
      have hle := ((h.last item hitem).positions type n hget).1
      simp [hle]

theorem CacheSound.searchStart_spec (h : CacheSound tags s) (hitem : item ∈ s.output.getLast?)
    (hkind : item.kind = .message) (hclear : ClearFor tags s type) :
    findStartTag (tags type) item.text (searchStart (tags type) type item (scannedLength false type item s) s).1 =
        findStartTag (tags type) item.text (0 + 1 - maxStartTagLength (tags type)) ∧
      ∃ boundaries, (searchStart (tags type) type item (scannedLength false type item s) s).2 =
          { s with boundaries := boundaries } ∧
        (s.positions.get (item.id, type) = none → boundaries = s.boundaries) ∧
        (∀ key ≠ (item.id, type), boundaries.get key = s.boundaries.get key) ∧
        ∀ e, boundaries.get (item.id, type) = some e → BoundsOf item.text e := by
  have hlast := h.last item hitem
  rw [h.scannedLength_eq hitem]
  cases hget : s.positions.get (item.id, type) with
  | none =>
    rw [Option.getD_none, searchStart, if_neg (by simp)]
    exact ⟨rfl, s.boundaries, rfl, fun _ => rfl, fun _ _ => rfl, hlast.boundaries type⟩
  | some n =>
    obtain ⟨hn, hscanned⟩ := hlast.positions type n hget
    rw [ScannedText, if_pos hkind] at hscanned
    have hpos := maxStartTagLength_pos (startTag_ne_nil hscanned)
    have hclear' := hclear item hitem hkind n hget
    rw [Option.getD_some, show 0 + 1 - maxStartTagLength (tags type) = 0 by omega, searchStart]
    dsimp only
    split
    · have hboundaries := tagBoundaries_eq (hlast.boundaries type) hn
      generalize tagBoundaries type item n s = r at hboundaries ⊢
      obtain ⟨⟨o, b⟩, t⟩ := r
      obtain ⟨hbounds, boundaries, hstate, hcached⟩ := hboundaries
      obtain ⟨rfl, rfl⟩ := Prod.mk.inj hbounds
      refine ⟨findStartTag_eq hn hscanned ?_ ?_ hclear', boundaries, hstate, by simp, hcached⟩
      · split_ifs <;> omega
      · intro _ hlt
        dsimp only
        rw [if_pos hlt]
        have hneg : -1 ≤ lastBoundaryOf (item.text.take n) := le_max_of_le_left neg_one_le_lastIndex
        push_cast
        omega
    · next hangle =>
      refine ⟨findStartTag_eq hn hscanned le_rfl ?_ hclear', s.boundaries, rfl, by simp, fun _ _ => rfl,
        hlast.boundaries type⟩
      intro hany
      have hn0 : n = 0 := by
        by_contra hne
        exact hangle ⟨hne, hany⟩
      subst hn0
      intro hlt
      exact absurd hlt (by rw [List.take_zero]; decide)

/-! ## One call -/

theorem CacheSound.setBoundaries (h : CacheSound tags s) (hitem : item ∈ s.output.getLast?)
    {boundaries : Dict ScanKey (ℕ × ℤ × ℤ)} (hnone : s.positions.get (item.id, type) = none → boundaries = s.boundaries)
    (hother : ∀ key ≠ (item.id, type), boundaries.get key = s.boundaries.get key)
    (hown : ∀ e, boundaries.get (item.id, type) = some e → BoundsOf item.text e) :
    CacheSound tags { s with boundaries := boundaries } := by
  refine ⟨fun id type' hid => ?_, h.old, fun item' hitem' => ?_⟩
  · obtain ⟨hpositions, hboundaries⟩ := h.fresh id type' hid
    refine ⟨hpositions, ?_⟩
    by_cases hkey : (id, type') = (item.id, type)
    · obtain ⟨rfl, rfl⟩ := Prod.mk.inj hkey
      rw [hnone hpositions]
      exact hboundaries
    · exact (hother _ hkey).trans hboundaries
  · obtain rfl : item' = item := Option.mem_unique hitem' hitem
    refine ⟨(h.last _ hitem).positions, fun type' e he => ?_⟩
    by_cases hkey : type' = type
    · subst hkey
      exact hown e he
    · refine (h.last _ hitem).boundaries type' e ?_
      rwa [← hother _ fun heq => hkey (Prod.mk.inj heq).2]

theorem CacheSound.save (h : CacheSound tags s) (hitem : item ∈ s.output.getLast?)
    (hscanned : ScannedText (tags type) item item.text) : CacheSound tags (saveScannedLength type item s) := by
  unfold saveScannedLength
  split_ifs with hnone
  · exact h
  obtain ⟨i, hi⟩ := Option.ne_none_iff_exists'.1 hnone
  refine ⟨fun id type' hid => ?_, h.old, fun item' hitem' => ?_⟩
  · refine ⟨?_, (h.fresh id type' hid).2⟩
    rw [Dict.get_set_of_ne, (h.fresh id type' hid).1]
    intro hkey
    obtain ⟨rfl, -⟩ := Prod.mk.inj hkey
    exact absurd (hid i hi) (not_le.2 (h.old item hitem i hi))
  · obtain rfl : item' = item := Option.mem_unique hitem' hitem
    refine ⟨fun type' n hn => ?_, (h.last _ hitem).boundaries⟩
    rw [Dict.get_set] at hn
    split_ifs at hn with hkey
    · obtain rfl := Option.some.inj hn
      obtain rfl := (Prod.mk.inj hkey).2
      rw [List.take_length]
      exact ⟨le_refl _, hscanned⟩
    · exact (h.last _ hitem).positions type' n hn

theorem ClearFor.save {other : ContentType} (h : ClearFor tags s other) (hother : other ≠ type) :
    ClearFor tags (saveScannedLength type item s) other := by
  unfold saveScannedLength
  split_ifs
  · exact h
  intro item' hitem' hkind n hn
  refine h item' hitem' hkind n ?_
  rwa [Dict.get_set_of_ne _ fun hkey => hother (Prod.mk.inj hkey).2] at hn

theorem Alike.save (h : Alike s s') : Alike (saveScannedLength type item s) (saveScannedLength type item s') := by
  unfold saveScannedLength
  split_ifs
  · exact h
  · exact ⟨h.output, h.nextId, by rw [h.positions]⟩

theorem CacheSound.push (h : CacheSound tags s) {t : TagState} {front : List TagItem} {new : TagItem}
    (houtput : t.output = front ++ [new]) (hid : new.id = some s.nextId) (hnext : t.nextId = s.nextId + 1)
    (hpositions : ∀ key, t.positions.get key = none ∨ t.positions.get key = s.positions.get key)
    (hboundaries : ∀ key, t.boundaries.get key = none ∨ t.boundaries.get key = s.boundaries.get key) :
    CacheSound tags t ∧ ∀ type, ClearFor tags t type := by
  have hnone : ∀ id type, NewId s id → t.positions.get (id, type) = none ∧ t.boundaries.get (id, type) = none := by
    intro id type hnew
    obtain ⟨hp, hb⟩ := h.fresh id type hnew
    exact ⟨(hpositions _).elim (fun h => h) fun h => h.trans hp, (hboundaries _).elim (fun h => h) fun h => h.trans hb⟩
  have hlast : ∀ item ∈ t.output.getLast?, item = new := by
    intro item hitem
    rw [houtput, List.getLast?_concat] at hitem
    exact (Option.some.inj hitem).symm
  have hnew : NewId s new.id := by
    intro i hi
    rw [hid] at hi
    exact (Option.some.inj hi).le
  refine ⟨⟨fun id type hid' => hnone id type fun i hi => ?_, fun item hitem i hi => ?_, fun item hitem => ?_⟩,
    fun type item hitem _ n hn => ?_⟩
  · have hle := hid' i hi
    omega
  · obtain rfl := hlast item hitem
    rw [hid] at hi
    obtain rfl := Option.some.inj hi
    omega
  · obtain rfl := hlast item hitem
    refine ⟨fun type n hn => ?_, fun type e he => ?_⟩
    · rw [(hnone _ type hnew).1] at hn
      cases hn
    · rw [(hnone _ type hnew).2] at he
      cases he
  · obtain rfl := hlast item hitem
    rw [(hnone _ type hnew).1] at hn
    cases hn

theorem clearScannedLength_spec (type : ContentType) (item : TagItem) (s : TagState) :
    (∀ key, (clearScannedLength type item s).positions.get key = none ∨
      (clearScannedLength type item s).positions.get key = s.positions.get key) ∧
    (∀ key, (clearScannedLength type item s).boundaries.get key = none ∨
      (clearScannedLength type item s).boundaries.get key = s.boundaries.get key) ∧
    (clearScannedLength type item s).output = s.output ∧ (clearScannedLength type item s).nextId = s.nextId := by
  unfold clearScannedLength
  split_ifs
  · exact ⟨fun _ => .inr rfl, fun _ => .inr rfl, rfl, rfl⟩
  · refine ⟨fun key => ?_, fun key => ?_, rfl, rfl⟩
    all_goals
      rw [Dict.get_erase]
      split_ifs
      · exact .inl rfl
      · exact .inr rfl

theorem Alike.clear (h : Alike s s') : Alike (clearScannedLength type item s) (clearScannedLength type item s') := by
  unfold clearScannedLength
  split_ifs
  · exact h
  · exact ⟨h.output, h.nextId, by rw [h.positions]⟩

section
variable (isWord : CodePoint → Bool) (type : ContentType) (item : TagItem) (tag : TagPair) (k m : ℕ) (group : Text)

theorem Alike.openBlock (h : Alike s s') :
    Alike (openBlock isWord type item tag k m group s) (openBlock isWord type item tag k m group s') := by
  have hclear : Alike (clearScannedLength type item s) (clearScannedLength type item s') := h.clear
  unfold TideBot.openBlock
  dsimp only
  rw [hclear.output, hclear.nextId]
  exact ⟨rfl, rfl, hclear.positions⟩

theorem CacheSound.openBlock (h : CacheSound tags s) : CacheSound tags (openBlock isWord type item tag k m group s) ∧
    ∀ other, ClearFor tags (openBlock isWord type item tag k m group s) other := by
  obtain ⟨hpositions, hboundaries, -, hnextId⟩ := clearScannedLength_spec type item s
  unfold TideBot.openBlock
  exact h.push rfl (congrArg some hnextId) (congrArg (· + 1) hnextId) hpositions hboundaries

end

/-- What a call does in the two runs. -/
structure CallsAgree (tags : ContentType → List TagPair) (type : ContentType) (s : TagState) (r r' : TagState × Bool) :
    Prop where
  alike : Alike r.1 r'.1
  flag : r'.2 = r.2
  sound : CacheSound tags r.1
  clear : ∀ other ≠ type, ClearFor tags s other → ClearFor tags r.1 other

theorem CallsAgree.of_push {r r' : TagState × Bool} (hs : Alike r.1 r'.1) (hflag : r'.2 = r.2)
    (h : CacheSound tags r.1 ∧ ∀ other, ClearFor tags r.1 other) : CallsAgree tags type s r r' :=
  ⟨hs, hflag, h.1, fun other _ _ => h.2 other⟩

theorem scannedLength_rescan : scannedLength true type item s = 0 := if_pos (.inl rfl)

theorem closeBlock_agree (h : CacheSound tags s) (hs : Alike s s') (hitem : item ∈ s.output.getLast?)
    (hkind : item.kind ≠ .message) :
    CallsAgree tags type s (closeBlock false type item s) (closeBlock true type item s') := by
  have hfind : searchFrom (literal item.endTag) item.text
      (scannedLength false type item s + 1 - max item.endTag.length 1) =
      search (literal item.endTag) item.text := by
    rw [h.scannedLength_eq hitem]
    cases hget : s.positions.get (item.id, type) with
    | none => rw [Option.getD_none, show 0 + 1 - max item.endTag.length 1 = 0 by omega, searchFrom_zero]
    | some n =>
      obtain ⟨hn, hscanned⟩ := (h.last item hitem).positions type n hget
      rw [ScannedText, if_neg hkind] at hscanned
      exact searchFrom_literal hn le_rfl hscanned
  have hfind' : searchFrom (literal item.endTag) item.text
      (scannedLength true type item s' + 1 - max item.endTag.length 1) = search (literal item.endTag) item.text := by
    rw [scannedLength_rescan, show 0 + 1 - max item.endTag.length 1 = 0 by omega, searchFrom_zero]
  unfold closeBlock
  dsimp only
  rw [hfind, hfind']
  split
  · obtain ⟨hpositions, hboundaries, -, hnextId⟩ := clearScannedLength_spec type item s
    have hclear : Alike (clearScannedLength type item s) (clearScannedLength type item s') := hs.clear
    rw [hclear.output, hclear.nextId]
    refine CallsAgree.of_push ⟨rfl, rfl, hclear.positions⟩ rfl ?_
    exact h.push rfl (congrArg some hnextId) (congrArg (· + 1) hnextId) hpositions hboundaries
  · next hnone =>
    have hscanned : ScannedText (tags type) item item.text := by
      rw [ScannedText, if_neg hkind]
      simpa using hnone
    exact ⟨hs.save, rfl, h.save hitem hscanned, fun other hother hclear => hclear.save hother⟩

end

section
variable (isWord : CodePoint → Bool) {tags : ContentType → List TagPair} {s s' : TagState} {type : ContentType}

/-- **A call of the handler does what it does in a full rescan.** -/
theorem tagOutputHandler_agree (fuel : ℕ) (h : CacheSound tags s) (hs : Alike s s') (hclear : ClearFor tags s type) :
    CallsAgree tags type s (tagOutputHandler isWord tags false type fuel s)
      (tagOutputHandler isWord tags true type fuel s') := by
  induction fuel generalizing s s' with
  | zero => exact ⟨hs, rfl, h, fun _ _ hother => hother⟩
  | succ fuel ih =>
    unfold tagOutputHandler
    rw [hs.output]
    cases hitem : s.output.getLast? with
    | none => exact ⟨hs, rfl, h, fun _ _ hother => hother⟩
    | some item =>
      dsimp only
      by_cases hkind : item.kind = .message
      · obtain ⟨hfind, boundaries, hstate, hnone, hother, hown⟩ := h.searchStart_spec hitem hkind hclear
        have hzero : searchStart (tags type) type item 0 s' = (0 + 1 - maxStartTagLength (tags type), s') := by
          rw [searchStart, if_neg (by simp)]
        rw [if_pos hkind, if_pos hkind, scannedLength_rescan, hzero]
        generalize searchStart (tags type) type item (scannedLength false type item s) s = r at hfind hstate ⊢
        obtain ⟨start, t⟩ := r
        dsimp only at hfind hstate ⊢
        subst hstate
        have hbounds := h.setBoundaries hitem hnone hother hown
        have hbounds' : Alike { s with boundaries := boundaries } s' := ⟨hs.output, hs.nextId, hs.positions⟩
        rw [hfind]
        cases hfound : findStartTag (tags type) item.text (0 + 1 - maxStartTagLength (tags type)) with
        | none =>
          have hscanned : ScannedText (tags type) item item.text := by
            rw [ScannedText, if_pos hkind]
            exact search_of_findStartTag_none hfound
          exact ⟨hbounds'.save, rfl, hbounds.save hitem hscanned,
            fun other hne hother => ClearFor.save (s := { s with boundaries := boundaries }) hother hne⟩
        | some found =>
          obtain ⟨tag, k, n, group⟩ := found
          have hpush := hbounds.openBlock isWord type item tag k n group
          dsimp only
          split_ifs
          · exact CallsAgree.of_push (hbounds'.openBlock isWord type item tag k n group) rfl hpush
          · have hrest := ih hpush.1 (hbounds'.openBlock isWord type item tag k n group) (hpush.2 type)
            exact ⟨hrest.alike, hrest.flag, hrest.sound, fun other hne _ => hrest.clear other hne (hpush.2 other)⟩
      · rw [if_neg hkind, if_neg hkind]
        split_ifs
        · exact closeBlock_agree h hs hitem hkind
        · exact ⟨hs, rfl, h, fun _ _ hother => hother⟩

end

/-! ## How deep a call goes -/

section
variable {isWord : CodePoint → Bool} {tags : ContentType → List TagPair} {s : TagState} {type : ContentType}

theorem matchStartTag_pos {startTag l : Text} {r : ℕ × Text} (hne : startTag ≠ [])
    (h : matchStartTag startTag l = some r) : 0 < r.1 := by
  unfold matchStartTag at h
  split_ifs at h
  · obtain ⟨r', hmatch, rfl⟩ := Option.map_eq_some_iff.1 h
    obtain ⟨rest, -, rfl⟩ | ⟨c, body, rest, -, -, -, -, rfl⟩ := matchAttributes_eq_some_iff.1 hmatch
    · exact Nat.succ_pos _
    · exact Nat.succ_pos _
  · obtain rfl := Option.some.inj h
    exact List.length_pos_iff.2 hne

theorem pos_of_findStartTag {tags : List TagPair} {tag : TagPair} {text group : Text} {start k n : ℕ}
    (hne : ∀ tag ∈ tags, tag.startTag ≠ []) (h : findStartTag tags text start = some (tag, k, n, group)) : 0 < n := by
  obtain ⟨tag', htag, hfound⟩ := List.exists_of_findSome?_eq_some h
  obtain ⟨r, hsearch, heq⟩ := Option.map_eq_some_iff.1 hfound
  obtain ⟨rfl, rfl⟩ := Prod.mk.inj heq
  exact matchStartTag_pos (hne _ htag) (match_of_searchFrom hsearch)

theorem lastText_openBlock (item : TagItem) (tag : TagPair) (k n : ℕ) (group : Text) :
    lastText (openBlock isWord type item tag k n group s) = item.text.drop (k + n) := by
  unfold lastText openBlock
  dsimp only
  rw [List.getLast?_concat]
  rfl

/-- **A call goes no deeper than the text is long**, if no start tag is empty. -/
theorem tagOutputHandler_fuel {rescan : Bool} {fuel fuel' : ℕ} (hne : ∀ tag ∈ tags type, tag.startTag ≠ [])
    (h : (lastText s).length < fuel) (h' : (lastText s).length < fuel') :
    tagOutputHandler isWord tags rescan type fuel s = tagOutputHandler isWord tags rescan type fuel' s := by
  induction fuel generalizing s fuel' with
  | zero => exact absurd h (Nat.not_lt_zero _)
  | succ fuel ih =>
    obtain ⟨fuel', rfl⟩ := Nat.exists_eq_succ_of_ne_zero (Nat.ne_of_gt (Nat.zero_lt_of_lt h'))
    unfold tagOutputHandler
    cases hitem : s.output.getLast? with
    | none => rfl
    | some item =>
      have htext : lastText s = item.text := by
        rw [lastText, hitem]
        rfl
      rw [htext] at h h'
      dsimp only
      cases hfound : findStartTag (tags type) item.text
          (searchStart (tags type) type item (scannedLength rescan type item s) s).1 with
      | none => rfl
      | some found =>
        obtain ⟨tag, k, n, group⟩ := found
        have hpos := pos_of_findStartTag hne hfound
        dsimp only
        split_ifs with hkind hrest
        · rfl
        -- the rest of the text is shorter
        · have hlength := List.length_pos_iff.2 hrest
          rw [List.length_drop] at hlength
          refine ih ?_ ?_ <;> rw [lastText_openBlock, List.length_drop] <;> omega
        · rfl
        · rfl

end

end TideBot
