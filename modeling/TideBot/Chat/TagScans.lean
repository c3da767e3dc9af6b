/-
  Start tags in a text that grows (`utils/middleware.py`).

  A start tag that is found in a text, but not in its beginning, either ends after the beginning, or it is open there:
  its `>` is yet to come, and its `<` is the last one, with no `>` or newline after it, unless an attribute has such a
  character, or the white space is a newline (`no_match_before`).  `tag_boundary_positions` says where these are
  (`tagBoundaries_eq`).
-/
import TideBot.Chat.TagDetection

namespace TideBot

open Lib

/-! ## Open start tags -/

/-- A start tag with attributes whose `>` is yet to come. -/
def IsOpen (startTag l : Text) : Prop :=
  ∃ c rest, l = startTag.dropLast ++ c :: rest ∧ Text.isSpace c ∧ ∀ d ∈ rest, d ≠ codeOf '>' ∧ d ≠ codeOf '\n'

/-- A `>` comes before any newline. -/
def Closes (l : Text) : Prop := codeOf '>' ∈ l.takeWhile fun d => d ≠ codeOf '\n'

instance (l : Text) : Decidable (Closes l) := inferInstanceAs (Decidable (_ ∈ _))

/-- There is an open start tag before the end of a text, with another `<`, a `>` or a newline after its `<`. -/
def Stranded (maxLength : ℕ) (startTag text : Text) : Prop :=
  isAngle startTag ∧ ∃ k, k + maxLength ≤ text.length ∧ IsOpen startTag (text.drop k) ∧
    ∃ c ∈ text.drop (k + 1), c = codeOf '<' ∨ c = codeOf '>' ∨ c = codeOf '\n'

theorem isOpen_iff {startTag l : Text} : IsOpen startTag l ↔ startTag.dropLast <+: l ∧
    (∃ c ∈ (l.drop startTag.dropLast.length).head?, Text.isSpace c) ∧
      ∀ d ∈ (l.drop startTag.dropLast.length).tail, d ≠ codeOf '>' ∧ d ≠ codeOf '\n' := by
  constructor
  · rintro ⟨c, rest, rfl, hspace, hrest⟩
    rw [List.drop_left]
    exact ⟨List.prefix_append _ _, ⟨c, rfl, hspace⟩, hrest⟩
  · rintro ⟨hstarts, ⟨c, hc, hspace⟩, hrest⟩
    refine ⟨c, (l.drop startTag.dropLast.length).tail, ?_, hspace, hrest⟩
    rw [List.cons_head?_tail hc]
    exact (List.prefix_iff_eq_append.1 hstarts).symm

instance (startTag l : Text) : Decidable (IsOpen startTag l) := decidable_of_iff' _ isOpen_iff

theorem stranded_iff {maxLength : ℕ} {startTag text : Text} : Stranded maxLength startTag text ↔
    isAngle startTag ∧ ∃ k < text.length + 1, k + maxLength ≤ text.length ∧ IsOpen startTag (text.drop k) ∧
      ∃ c ∈ text.drop (k + 1), c = codeOf '<' ∨ c = codeOf '>' ∨ c = codeOf '\n' := by
  constructor
  · rintro ⟨hangle, k, hk, hrest⟩
    exact ⟨hangle, k, by omega, hk, hrest⟩
  · rintro ⟨hangle, k, -, hk, hrest⟩
    exact ⟨hangle, k, hk, hrest⟩

instance (maxLength : ℕ) (startTag text : Text) : Decidable (Stranded maxLength startTag text) :=
  decidable_of_iff' _ stranded_iff

section
variable {startTag text u : Text} {k n m : ℕ} {r : ℕ × Text}

theorem takeWhile_append_cons {p : CodePoint → Bool} {body rest : Text} {c : CodePoint} (h : ∀ d ∈ body, p d)
    (hc : p c = false) : (body ++ c :: rest).takeWhile p = body := by
  rw [List.takeWhile_append_of_pos h, List.takeWhile_cons_of_neg (by simp [hc]), List.append_nil]

/-- The rest of a start tag: a `>`, or white space, attributes, and the first `>`, if no newline is before it. -/
theorem matchAttributes_eq_some_iff : matchAttributes u = some r ↔
    (∃ rest, u = codeOf '>' :: rest ∧ r = (1, [])) ∨
      ∃ c body rest, u = c :: (body ++ codeOf '>' :: rest) ∧ c ≠ codeOf '>' ∧ Text.isSpace c ∧
        (∀ d ∈ body, d ≠ codeOf '>' ∧ d ≠ codeOf '\n') ∧ r = (body.length + 2, c :: body) := by
  cases u with
  | nil => simp [matchAttributes]
  | cons c v =>
    let p := fun d => decide (d ≠ codeOf '>' ∧ d ≠ codeOf '\n')
    have hgt : p (codeOf '>') = false := by simp [p]
    rw [matchAttributes]
    by_cases hc : c = codeOf '>'
    · subst hc
      rw [if_pos rfl]
      constructor
      · intro h
        exact .inl ⟨v, rfl, (Option.some.inj h).symm⟩
      · rintro (⟨rest, -, rfl⟩ | ⟨c, body, rest, heq, hne, -⟩)
        · rfl
        · exact absurd (List.cons.inj heq).1.symm hne
    rw [if_neg hc]
    constructor
    · intro h
      dsimp only at h
      split_ifs at h with hspace hclose
      refine .inr ⟨c, v.takeWhile p, v.drop ((v.takeWhile p).length + 1), ?_, hc, hspace, ?_, (Option.some.inj h).symm⟩
      · obtain ⟨hlt, hget⟩ := List.getElem?_eq_some_iff.1 hclose
        rw [← hget, ← List.drop_eq_getElem_cons hlt, List.prefix_iff_eq_append.1 (List.takeWhile_prefix p)]
      · intro d hd
        simpa [p] using List.mem_takeWhile_imp hd
    · rintro (⟨rest, heq, -⟩ | ⟨c', body, rest, heq, hne, hspace, hbody, rfl⟩)
      · exact absurd (List.cons.inj heq).1 hc
      · obtain ⟨rfl, rfl⟩ := List.cons.inj heq
        have htake : (body ++ codeOf '>' :: rest).takeWhile p = body :=
          takeWhile_append_cons (fun d hd => by simpa [p] using hbody d hd) hgt
        rw [if_pos hspace]
        show (if (body ++ codeOf '>' :: rest)[((body ++ codeOf '>' :: rest).takeWhile p).length]? = some (codeOf '>')
          then some (((body ++ codeOf '>' :: rest).takeWhile p).length + 2,
            c :: (body ++ codeOf '>' :: rest).takeWhile p) else none) = _
        rw [htake, if_pos (by simp)]

/-- A match in a longer text only: the start tag is open, and the new text closes it. -/
theorem matchAttributes_take (hm : 0 < m) (h : matchAttributes u = some r) (hnone : matchAttributes (u.take m) = none) :
    (∃ c rest, u.take m = c :: rest ∧ Text.isSpace c ∧ ∀ d ∈ rest, d ≠ codeOf '>' ∧ d ≠ codeOf '\n') ∧
      Closes (u.drop m) := by
  obtain ⟨m, rfl⟩ := Nat.exists_eq_succ_of_ne_zero hm.ne'
  obtain ⟨rest, rfl, -⟩ | ⟨c, body, rest, rfl, hne, hspace, hbody, -⟩ := matchAttributes_eq_some_iff.1 h
  · rw [List.take_succ_cons, matchAttributes, if_pos rfl] at hnone
    cases hnone
  rw [List.take_succ_cons] at hnone ⊢
  rw [List.drop_succ_cons]
  -- the `>` is not in the shorter text
  have hlength : m ≤ body.length := by
    by_contra hlt
    have htake : (body ++ codeOf '>' :: rest).take m = body ++ codeOf '>' :: rest.take (m - body.length - 1) := by
      rw [List.take_append, List.take_of_length_le (by omega),
        show m - body.length = (m - body.length - 1) + 1 by omega, List.take_succ_cons]
      rfl
    rw [htake, matchAttributes_eq_some_iff.2 (.inr ⟨c, body, _, rfl, hne, hspace, hbody, rfl⟩)] at hnone
    cases hnone
  rw [List.take_append_of_le_length hlength, List.drop_append_of_le_length hlength]
  refine ⟨⟨c, body.take m, rfl, hspace, fun d hd => hbody d (List.mem_of_mem_take hd)⟩, ?_⟩
  have hbefore : ∀ d ∈ body.drop m, decide (d ≠ codeOf '\n') := by
    intro d hd
    simpa using (hbody d (List.mem_of_mem_drop hd)).2
  rw [Closes, List.takeWhile_append_of_pos hbefore, List.takeWhile_cons_of_pos (by decide)]
  exact List.mem_append_right _ List.mem_cons_self

theorem isAngle_dropLast (h : isAngle startTag) :
    startTag.dropLast.length + 1 = startTag.length ∧ ∃ name, startTag.dropLast = codeOf '<' :: name := by
  obtain ⟨hhead, hlast⟩ := of_decide_eq_true h
  cases startTag with
  | nil => cases hhead
  | cons c rest =>
    obtain rfl : c = codeOf '<' := Option.some.inj hhead
    cases rest with
    | nil => exact absurd hlast (by decide)
    | cons d rest =>
      refine ⟨by simp, (d :: rest).dropLast, List.dropLast_cons_of_ne_nil (by simp)⟩

theorem matchStartTag_take (h : matchStartTag startTag (text.drop k) = some r)
    (hnone : matchStartTag startTag ((text.take n).drop k) = none) (hk : k + startTag.length ≤ n) :
    isAngle startTag ∧ IsOpen startTag ((text.take n).drop k) ∧ Closes (text.drop n) := by
  unfold matchStartTag at h hnone
  by_cases hangle : isAngle startTag
  · obtain ⟨hlength, -⟩ := isAngle_dropLast hangle
    rw [if_pos hangle] at h hnone
    split at h
    · next hstarts =>
      have hstarts' : startTag.dropLast <+: (text.take n).drop k := prefix_drop_take hstarts (by omega)
      rw [if_pos hstarts', Option.map_eq_none_iff, List.drop_drop, List.drop_take] at hnone
      obtain ⟨r', hmatch, -⟩ := Option.map_eq_some_iff.1 h
      rw [List.drop_drop] at hmatch
      obtain ⟨⟨c, rest, htake, hspace, hrest⟩, hcloses⟩ := matchAttributes_take (by omega) hmatch hnone
      have hn : k + startTag.dropLast.length + (n - (k + startTag.dropLast.length)) = n := by omega
      rw [List.drop_drop, hn] at hcloses
      refine ⟨hangle, ⟨c, rest, ?_, hspace, hrest⟩, hcloses⟩
      rw [← htake, ← List.drop_take, ← List.drop_drop, List.prefix_iff_eq_append.1 hstarts']
    · cases h
  · rw [if_neg hangle] at h hnone
    split at h
    · next hstarts =>
      rw [if_pos (prefix_drop_take hstarts hk)] at hnone
      cases hnone
    · cases h

/-- The last `<`, and the last `>` or newline. -/
def lastOpenOf (text : Text) : ℤ := lastIndex (fun d => d = codeOf '<') text

def lastBoundaryOf (text : Text) : ℤ :=
  max (lastIndex (fun d => d = codeOf '>') text) (lastIndex (fun d => d = codeOf '\n') text)

theorem lastOpen_of_isOpen (hangle : isAngle startTag) (hopen : IsOpen startTag (text.drop k))
    (hclear : ∀ c ∈ text.drop (k + 1), ¬(c = codeOf '<' ∨ c = codeOf '>' ∨ c = codeOf '\n')) :
    lastOpenOf text = k ∧ lastBoundaryOf text < k := by
  obtain ⟨-, name, hname⟩ := isAngle_dropLast hangle
  obtain ⟨c, rest, hdrop, -⟩ := hopen
  rw [hname, List.cons_append] at hdrop
  have htext : text = text.take k ++ codeOf '<' :: text.drop (k + 1) := by
    rw [← List.drop_drop, hdrop, List.drop_one, List.tail_cons, ← hdrop, List.take_append_drop]
  have hk : (text.take k).length = k := by
    have hlength := congrArg List.length hdrop
    rw [List.length_drop, List.length_cons] at hlength
    rw [List.length_take]
    omega
  have hboundary : ∀ d, (d = codeOf '>' ∨ d = codeOf '\n') → lastIndex (fun c => decide (c = d)) text < k := by
    intro d hd
    rw [htext, lastIndex_append_of_not]
    · have hlt := lastIndex_lt (p := fun c => decide (c = d)) (l := text.take k)
      omega
    · intro c hc
      obtain rfl | hc := List.mem_cons.1 hc
      · obtain rfl | rfl := hd <;> decide
      · have hnot := hclear c hc
        simp only [decide_eq_true_eq]
        rintro rfl
        exact hnot (.inr hd)
  refine ⟨?_, max_lt (hboundary _ (.inl rfl)) (hboundary _ (.inr rfl))⟩
  rw [lastOpenOf, htext, lastIndex_eq_length (by simp), hk]
  intro c hc
  have hnot := hclear c hc
  simp only [decide_eq_true_eq]
  exact fun heq => hnot (.inl heq)

/-- **No match begins before the place where the search does.** -/
theorem no_match_before {start maxLength : ℕ} (hn : n ≤ text.length) (hmax : startTag.length ≤ maxLength)
    (hscanned : search (matchStartTag startTag) (text.take n) = none) (hstart : start ≤ n + 1 - maxLength)
    (hopen : isAngle startTag → lastBoundaryOf (text.take n) < lastOpenOf (text.take n) →
      (start : ℤ) ≤ lastOpenOf (text.take n))
    (hclear : Stranded maxLength startTag (text.take n) → ¬Closes (text.drop n)) (hk : k < start) :
    matchStartTag startTag (text.drop k) = none := by
  by_contra hmatch
  obtain ⟨r, hmatch⟩ := Option.ne_none_iff_exists'.1 hmatch
  have hlength : (text.take n).length = n := List.length_take_of_le hn
  have hnone := search_eq_none_iff.1 hscanned k (by omega)
  obtain ⟨hangle, hisOpen, hcloses⟩ := matchStartTag_take hmatch hnone (by omega)
  have hothers : ∀ c ∈ (text.take n).drop (k + 1), ¬(c = codeOf '<' ∨ c = codeOf '>' ∨ c = codeOf '\n') := by
    intro c hc hbad
    exact hclear ⟨hangle, k, by omega, hisOpen, c, hc, hbad⟩ hcloses
  obtain ⟨hlast, hboundary⟩ := lastOpen_of_isOpen hangle hisOpen hothers
  have hle := hopen hangle (by omega)
  omega

end

/-! ## The caches -/

/-- An entry of `tag_boundary_positions` that is right for a text. -/
structure BoundsOf (text : Text) (e : ℕ × ℤ × ℤ) : Prop where
  length : e.1 ≤ text.length
  lastOpen : e.2.1 = lastOpenOf (text.take e.1)
  lastBoundary : e.2.2 = lastBoundaryOf (text.take e.1)

section
variable {text : Text} {c : CodePoint} {start stop n : ℕ} {item : TagItem} {type : ContentType} {s : TagState}

theorem rfind_eq (c : CodePoint) (text : Text) (start stop : ℕ) :
    rfind c text start stop = -1 ∨ (start : ℤ) ≤ rfind c text start stop := by
  unfold rfind
  dsimp only
  split_ifs with h
  · exact .inl rfl
  · have hle := neg_one_le_lastIndex (p := fun d => decide (d = c)) (l := (text.take stop).drop start)
    omega

theorem lastIndex_take (h : start ≤ stop) (hstop : stop ≤ text.length) :
    lastIndex (fun d => d = c) (text.take stop) =
      if rfind c text start stop ≠ -1 then rfind c text start stop
      else lastIndex (fun d => d = c) (text.take start) := by
  have hsplit : text.take stop = text.take start ++ (text.take stop).drop start := by
    conv_lhs => rw [← List.take_append_drop start (text.take stop), List.take_take, Nat.min_eq_left h]
  have hlength : (text.take start).length = start := List.length_take_of_le (by omega)
  rw [hsplit, lastIndex_append, hlength]
  unfold rfind
  dsimp only
  by_cases hnone : lastIndex (fun d => decide (d = c)) ((text.take stop).drop start) = -1
  · rw [if_neg (not_not.2 hnone), if_pos hnone, if_neg (not_not.2 rfl)]
  · have hle := neg_one_le_lastIndex (p := fun d => decide (d = c)) (l := (text.take stop).drop start)
    rw [if_pos hnone, if_neg hnone, if_pos (by omega)]

theorem lastIndex_take_lt (p : CodePoint → Bool) (text : Text) (n : ℕ) : lastIndex p (text.take n) < n := by
  have hlt := lastIndex_lt (p := p) (l := text.take n)
  rw [List.length_take] at hlt
  omega

/-- **The boundaries are those of the text that has been scanned.** -/
theorem tagBoundaries_eq (hcache : ∀ e, s.boundaries.get (item.id, type) = some e → BoundsOf item.text e)
    (hn : n ≤ item.text.length) :
    (tagBoundaries type item n s).1 = (lastOpenOf (item.text.take n), lastBoundaryOf (item.text.take n)) ∧
      ∃ boundaries, (tagBoundaries type item n s).2 = { s with boundaries := boundaries } ∧
        (∀ key ≠ (item.id, type), boundaries.get key = s.boundaries.get key) ∧
        ∀ e, boundaries.get (item.id, type) = some e → BoundsOf item.text e := by
  have hzero : BoundsOf item.text (0, -1, -1) := ⟨Nat.zero_le _, rfl, rfl⟩
  unfold tagBoundaries
  generalize hentry : (s.boundaries.get (item.id, type)).getD (0, -1, -1) = entry
  have hentryOf : BoundsOf item.text entry := by
    rw [← hentry]
    cases hget : s.boundaries.get (item.id, type) with
    | none => exact hzero
    | some e => exact hcache e hget
  obtain ⟨before, lastOpen, lastBoundary⟩ := entry
  dsimp only
  generalize hreset : (if before > n then ((0, -1, -1) : ℕ × ℤ × ℤ) else (before, lastOpen, lastBoundary)) = reset
  have hresetOf : BoundsOf item.text reset ∧ reset.1 ≤ n := by
    rw [← hreset]
    split_ifs with hgt
    · exact ⟨hzero, Nat.zero_le n⟩
    · exact ⟨hentryOf, not_lt.1 hgt⟩
  obtain ⟨b, o, d⟩ := reset
  obtain ⟨⟨hb, ho, hd⟩, hle⟩ := hresetOf
  dsimp only at hb ho hd hle ⊢
  split
  · have hopen := lastIndex_take (c := codeOf '<') hle hn
    have hgt := lastIndex_take (c := codeOf '>') hle hn
    have hnewline := lastIndex_take (c := codeOf '\n') hle hn
    have hopenEq : (if rfind (codeOf '<') item.text b n ≠ -1 then rfind (codeOf '<') item.text b n else o) =
        lastOpenOf (item.text.take n) := by
      rw [ho]
      exact hopen.symm
    have hboundaryEq : (if max (rfind (codeOf '>') item.text b n) (rfind (codeOf '\n') item.text b n) ≠ -1 then
        max (rfind (codeOf '>') item.text b n) (rfind (codeOf '\n') item.text b n) else d) =
        lastBoundaryOf (item.text.take n) := by
      have hlt := lastIndex_take_lt (fun c => decide (c = codeOf '>')) item.text b
      have hlt' := lastIndex_take_lt (fun c => decide (c = codeOf '\n')) item.text b
      have hcases := rfind_eq (codeOf '>') item.text b n
      have hcases' := rfind_eq (codeOf '\n') item.text b n
      have hneg := neg_one_le_lastIndex (p := fun c => decide (c = codeOf '>')) (l := item.text.take b)
      have hneg' := neg_one_le_lastIndex (p := fun c => decide (c = codeOf '\n')) (l := item.text.take b)
      rw [hd, lastBoundaryOf, lastBoundaryOf, hgt, hnewline]
      split_ifs <;> omega
    rw [hopenEq, hboundaryEq]
    refine ⟨rfl, _, rfl, fun key hkey => Dict.get_set_of_ne _ hkey, fun e he => ?_⟩
    rw [Dict.get_set_self] at he
    obtain rfl := Option.some.inj he
    exact ⟨hn, rfl, rfl⟩
  · next hlt =>
    obtain rfl : b = n := by omega
    exact ⟨by rw [ho, hd], s.boundaries, rfl, fun _ _ => rfl, hcache⟩

end

end TideBot
