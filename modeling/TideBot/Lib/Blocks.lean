/-
  Blocks of lines in a text that comes in pieces.

  A block ends at an empty line: at two line feeds.  What is cut off a buffer as it grows are the blocks of the
  whole text (`blocks_append`); the lines of the blocks are those before the last empty line
  (`filterMap_blocks`).

  Where lines end with CR LF, a reader that replaces the pair by a line feed in each piece (`unix`) misses
  the pairs that the pieces cut in two.  The lines that it reads are still those of the text, up to a CR at
  their end (`Eased`); but the text may have fewer blocks.
-/
import TideBot.Lib.Text

namespace Lib

namespace Text

def lf : CodePoint := CodePoint.ofChar '\n'

def cr : CodePoint := CodePoint.ofChar '\r'

/-- The lines of a text. -/
def lines (t : Text) : List Text := t.splitOn lf

/-- The text before the first two line feeds, and the text after them. -/
def cutBlock : Text → Option (Text × Text)
  | a :: b :: t =>
    if a = lf ∧ b = lf then some ([], t) else (cutBlock (b :: t)).map fun r => (a :: r.1, r.2)
  | _ => none

/-- Cut off at most so many blocks. -/
def cutBlocks : ℕ → Text → List Text × Text
  | 0, t => ([], t)
  | n + 1, t =>
    match cutBlock t with
    | none => ([], t)
    | some r => (r.1 :: (cutBlocks n r.2).1, (cutBlocks n r.2).2)

/-- The blocks of a text, and the text after the last of them. -/
def blocks (t : Text) : List Text × Text := cutBlocks t.length t

/-- `replaceAll('\\r\\n', '\\n')` -/
def unix : Text → Text
  | a :: b :: t => if a = cr ∧ b = lf then lf :: unix t else a :: unix (b :: t)
  | t => t

/-! ## Blocks -/

section

variable {t u e r : Text} {n m : ℕ}

theorem cutBlock_eq_some (h : cutBlock t = some (e, r)) : t = e ++ lf :: lf :: r := by
  fun_induction cutBlock t generalizing e with
  | case1 a b t hlf =>
    obtain ⟨rfl, rfl⟩ := hlf
    obtain ⟨rfl, rfl⟩ := Prod.mk.inj (Option.some.inj h)
    rfl
  | case2 a b t hlf ih =>
    obtain ⟨⟨e', r'⟩, hcut, heq⟩ := Option.map_eq_some_iff.1 h
    obtain ⟨rfl, rfl⟩ := Prod.mk.inj heq
    rw [ih hcut]
    rfl
  | case3 t hshort => cases h

theorem cutBlock_append (h : cutBlock t = some (e, r)) (u : Text) : cutBlock (t ++ u) = some (e, r ++ u) := by
  fun_induction cutBlock t generalizing e with
  | case1 a b t hlf =>
    obtain ⟨rfl, rfl⟩ := Prod.mk.inj (Option.some.inj h)
    rw [List.cons_append, List.cons_append, cutBlock, if_pos hlf]
  | case2 a b t hlf ih =>
    obtain ⟨⟨e', r'⟩, hcut, heq⟩ := Option.map_eq_some_iff.1 h
    obtain ⟨rfl, rfl⟩ := Prod.mk.inj heq
    have hmore := ih hcut
    rw [List.cons_append] at hmore
    rw [List.cons_append, List.cons_append, cutBlock, if_neg hlf, hmore]
    rfl
  | case3 t hshort => cases h

theorem cutBlock_isSome (e r : Text) : (cutBlock (e ++ lf :: lf :: r)).isSome := by
  induction e with
  | nil => simp [cutBlock]
  | cons a e ih =>
    cases e with
    | nil =>
      rw [List.cons_append, List.nil_append, cutBlock]
      split_ifs
      · rfl
      · rw [Option.isSome_map]
        exact ih
    | cons b e =>
      rw [List.cons_append, List.cons_append, cutBlock]
      split_ifs
      · rfl
      · rw [Option.isSome_map]
        exact ih

theorem cutBlocks_of_le (hn : t.length ≤ n) : cutBlocks n t = blocks t := by
  have key : ∀ (n m : ℕ) (t : Text), t.length ≤ n → t.length ≤ m → cutBlocks n t = cutBlocks m t := by
    intro n
    induction n with
    | zero =>
      intro m t hn hm
      obtain rfl := List.eq_nil_of_length_eq_zero (Nat.le_zero.1 hn)
      cases m <;> rfl
    | succ n ih =>
      intro m t hn hm
      cases m with
      | zero =>
        obtain rfl := List.eq_nil_of_length_eq_zero (Nat.le_zero.1 hm)
        rfl
      | succ m =>
        rw [cutBlocks, cutBlocks]
        cases hcut : cutBlock t with
        | none => rfl
        | some r =>
          have hlength := congrArg List.length (cutBlock_eq_some hcut)
          simp only [List.length_append, List.length_cons] at hlength
          dsimp only
          rw [ih m r.2 (by omega) (by omega)]
  exact key n t.length t hn le_rfl

theorem blocks_of_none (h : cutBlock t = none) : blocks t = ([], t) := by
  rw [blocks]
  cases t.length <;> simp [cutBlocks, h]

theorem blocks_of_some (h : cutBlock t = some (e, r)) : blocks t = (e :: (blocks r).1, (blocks r).2) := by
  have hlength := congrArg List.length (cutBlock_eq_some h)
  simp only [List.length_append, List.length_cons] at hlength
  obtain ⟨n, hn⟩ : ∃ n, t.length = n + 1 := ⟨t.length - 1, by omega⟩
  rw [blocks, hn, cutBlocks, h]
  dsimp only
  rw [cutBlocks_of_le (by omega)]

theorem blocks_induction {P : Text → Prop} (hnone : ∀ t, cutBlock t = none → P t)
    (hsome : ∀ t e r, cutBlock t = some (e, r) → P r → P t) (t : Text) : P t := by
  induction hn : t.length using Nat.strong_induction_on generalizing t with
  | _ n ih =>
    cases hcut : cutBlock t with
    | none => exact hnone t hcut
    | some r =>
      have hlength := congrArg List.length (cutBlock_eq_some hcut)
      simp only [List.length_append, List.length_cons] at hlength
      exact hsome t r.1 r.2 hcut (ih r.2.length (by omega) r.2 rfl)

/-- **The blocks of a text that grows.** -/
theorem blocks_append (t u : Text) :
    blocks (t ++ u) = ((blocks t).1 ++ (blocks ((blocks t).2 ++ u)).1, (blocks ((blocks t).2 ++ u)).2) := by
  induction t using blocks_induction with
  | hnone t h => simp [blocks_of_none h]
  | hsome t e r h ih => rw [blocks_of_some h, blocks_of_some (cutBlock_append h u), ih, List.cons_append]

/-! ## The lines of the blocks -/

theorem lines_cons_lf (t : Text) : lines (lf :: t) = [] :: lines t :=
  List.splitOn_append_cons_self [] t

theorem lines_append_lf (t u : Text) : lines (t ++ lf :: u) = lines t ++ lines u :=
  List.splitOn_append_cons_self t u

theorem lines_ne_nil (t : Text) : lines t ≠ [] := List.splitOn_ne_nil lf t

theorem cutBlock_of_lines {x y : List Text} (hx : x ≠ []) (hy : y ≠ []) (h : lines t = x ++ [] :: y) :
    (cutBlock t).isSome := by
  have hjoin : [lf].intercalate (lines t) = t := List.intercalate_splitOn lf
  have hsplit : ∀ {x y : List Text}, x ≠ [] → y ≠ [] →
      [lf].intercalate (x ++ y) = [lf].intercalate x ++ lf :: [lf].intercalate y := by
    intro x y hx hy
    induction x with
    | nil => exact absurd rfl hx
    | cons a x ih =>
      cases x with
      | nil =>
        rw [List.singleton_append, List.intercalate_cons_of_ne_nil hy, List.intercalate_singleton]
        simp
      | cons b x =>
        rw [List.cons_append, List.intercalate_cons_of_ne_nil (by simp), ih (by simp),
          List.intercalate_cons_cons]
        simp
  have heq : t = [lf].intercalate x ++ lf :: lf :: [lf].intercalate y := by
    rw [← hjoin, h, hsplit hx (by simp),
      List.intercalate_cons_of_ne_nil hy]
    rfl
  rw [heq]
  exact cutBlock_isSome _ _

/-- The last line but one that has a property, not the first one; 0 if there is none. -/
def lastLine (p : Text → Bool) (ls : List Text) : ℕ :=
  Nat.findGreatest (fun i => i ≠ 0 ∧ p (ls.getD i [])) (ls.length - 2)

/-- The lines of the blocks end with an empty one, after which there is no other empty line that ends a block. -/
theorem lines_blocks {β : Type*} (f : Text → Option β) (hf : f [] = none) (t : Text) :
    ∃ x, lines t = x ++ lines (blocks t).2 ∧ x.filterMap f = ((blocks t).1.flatMap lines).filterMap f ∧
      (x = [] ∨ ∃ y, y ≠ [] ∧ x = y ++ [[]]) ∧ cutBlock (blocks t).2 = none := by
  induction t using blocks_induction with
  | hnone t h => exact ⟨[], by simp [blocks_of_none h], by simp [blocks_of_none h], .inl rfl, by rw [blocks_of_none h]; exact h⟩
  | hsome t e r h ih =>
    obtain ⟨x, hlines, hsame, hends, hnone⟩ := ih
    have ht := cutBlock_eq_some h
    rw [blocks_of_some h]
    refine ⟨lines e ++ [[]] ++ x, ?_, ?_, .inr ?_, hnone⟩
    · rw [ht, lines_append_lf, lines_cons_lf, hlines]
      simp
    · rw [List.flatMap_cons, List.filterMap_append, List.filterMap_append, List.filterMap_append, ← hsame]
      simp [hf]
    · obtain rfl | ⟨y, hy, rfl⟩ := hends
      · exact ⟨lines e, lines_ne_nil e, by simp⟩
      · exact ⟨lines e ++ [[]] ++ y, by simp, by simp⟩

theorem lastLine_spec {p : Text → Bool} {ls : List Text} (h : lastLine p ls ≠ 0) :
    p (ls.getD (lastLine p ls) []) ∧ lastLine p ls + 2 ≤ ls.length := by
  have hspec := Nat.findGreatest_of_ne_zero rfl h
  have hle := Nat.findGreatest_le (P := fun i => i ≠ 0 ∧ p (ls.getD i [])) (ls.length - 2)
  have hne : lastLine p ls = Nat.findGreatest (fun i => i ≠ 0 ∧ p (ls.getD i [])) (ls.length - 2) := rfl
  refine ⟨hspec.2, ?_⟩
  omega

theorem le_lastLine {p : Text → Bool} {ls : List Text} {i : ℕ} (hi : i ≠ 0) (hlast : i + 2 ≤ ls.length)
    (hp : p (ls.getD i [])) : i ≤ lastLine p ls :=
  Nat.le_findGreatest (by omega) ⟨hi, hp⟩

/-- **What is read in the blocks is what stands in the lines before the last empty line.** -/
theorem filterMap_blocks {β : Type*} (f : Text → Option β) (hf : f [] = none) (t : Text) :
    ((blocks t).1.flatMap lines).filterMap f =
      ((lines t).take (lastLine (fun l => l = []) (lines t))).filterMap f := by
  obtain ⟨x, hlines, hsame, hends, hnone⟩ := lines_blocks f hf t
  obtain ⟨last, rest, hrest⟩ := List.exists_cons_of_ne_nil (lines_ne_nil (blocks t).2)
  -- an empty line of the rest is its first or its last
  have hinner : ∀ i, i ≠ 0 → i + 1 < (lines (blocks t).2).length → (lines (blocks t).2).getD i [] ≠ [] := by
    intro i hi hlt heq
    have hsplit : lines (blocks t).2 = (lines (blocks t).2).take i ++ [] :: (lines (blocks t).2).drop (i + 1) := by
      rw [List.getD_eq_getElem _ _ (by omega)] at heq
      rw [← heq, List.getElem_cons_drop, List.take_append_drop]
    have hsome := cutBlock_of_lines (t := (blocks t).2) (x := (lines (blocks t).2).take i)
      (y := (lines (blocks t).2).drop (i + 1)) ?_ ?_ hsplit
    · rw [hnone] at hsome
      cases hsome
    · rw [ne_eq, List.take_eq_nil_iff]
      rintro (h | h)
      · exact hi h
      · exact lines_ne_nil _ h
    · rw [ne_eq, List.drop_eq_nil_iff]
      omega
  rw [← hsame, hlines]
  generalize hL : lastLine (fun l => decide (l = [])) (x ++ lines (blocks t).2) = L
  have hlength : (x ++ lines (blocks t).2).length = x.length + (lines (blocks t).2).length := List.length_append
  obtain rfl | ⟨y, hy, rfl⟩ := hends
  · -- no block, and no empty line
    have hzero : L = 0 := by
      by_contra hne
      subst hL
      obtain ⟨hempty, hle⟩ := lastLine_spec hne
      rw [List.nil_append] at hne hempty hle
      exact hinner _ hne (by omega) (of_decide_eq_true hempty)
    rw [hzero]
    rfl
  · have hpos := List.length_pos_of_ne_nil hy
    have htail := List.length_pos_of_ne_nil (lines_ne_nil (blocks t).2)
    have hylen : (y ++ [[]] : List Text).length = y.length + 1 := by simp
    have hle : y.length ≤ L := by
      subst hL
      refine le_lastLine (by omega) (by omega) ?_
      simp
    obtain hL' | hL' := hle.eq_or_lt
    · -- up to the empty line that ends the last block
      rw [← hL', List.append_assoc, List.take_left, List.filterMap_append]
      simp [hf]
    · -- the rest begins with an empty line
      have hone : L = (y ++ [[]]).length := by
        by_contra hne
        obtain ⟨hempty, hle⟩ := lastLine_spec (hL.trans_ne (by omega))
        rw [hL] at hempty hle
        rw [List.getD_append_right _ _ _ _ (by omega)] at hempty
        exact hinner _ (by omega) (by omega) (of_decide_eq_true hempty)
      rw [hone, List.take_left]

end

/-! ## Pieces with CR LF -/

/-- The second text is the first one, where some of its pairs of CR and LF are line feeds. -/
inductive Eased : Text → Text → Prop
  | nil : Eased [] []
  | char {c t u} : ¬(c = cr ∧ t.head? = some lf) → Eased t u → Eased (c :: t) (c :: u)
  | kept {t u} : Eased t u → Eased (cr :: lf :: t) (cr :: lf :: u)
  | eased {t u} : Eased t u → Eased (cr :: lf :: t) (lf :: u)

/-- The lines are the same, up to a CR at their end. -/
inductive LinesEased : List Text → List Text → Prop
  | last (l) : LinesEased [l] [l]
  | line {a b as bs} : a = b ∨ a = b ++ [cr] → LinesEased as bs → LinesEased (a :: as) (b :: bs)

section

variable {t u : Text} {as bs : List Text} {c : CodePoint}

theorem cr_ne_lf : cr ≠ lf := by decide

/-- **A piece in front.** -/
theorem Eased.unix_append (h : Eased t u) (p : Text) : Eased (p ++ t) (unix p ++ u) := by
  fun_induction unix p with
  | case1 a b p hpair ih =>
    obtain ⟨rfl, rfl⟩ := hpair
    exact .eased ih
  | case2 a b p hpair ih =>
    refine .char ?_ ih
    rintro ⟨rfl, hb⟩
    exact hpair ⟨rfl, Option.some.inj hb⟩
  | case3 p hshort =>
    cases p with
    | nil => exact h
    | cons a p =>
      cases p with
      | nil =>
        by_cases hcut : a = cr ∧ t.head? = some lf
        · -- the pair is cut in two
          obtain ⟨rfl, hhead⟩ := hcut
          cases h with
          | nil => cases hhead
          | char hc h =>
            obtain rfl := Option.some.inj hhead
            exact .kept h
          | kept => exact absurd (Option.some.inj hhead) cr_ne_lf
          | eased => exact absurd (Option.some.inj hhead) cr_ne_lf
        · exact .char hcut h
      | cons b p => exact absurd rfl (hshort a b p)

theorem lines_cons (hc : c ≠ lf) (t : Text) : lines (c :: t) = (lines t).modifyHead (c :: ·) := by
  rw [lines, List.splitOn_cons_eq_if_modifyHead, if_neg (by simpa using hc)]
  rfl

theorem LinesEased.char (h : LinesEased as bs) (c : CodePoint) :
    LinesEased (as.modifyHead (c :: ·)) (bs.modifyHead (c :: ·)) := by
  cases h with
  | last l => exact .last (c :: l)
  | line hab h =>
    refine .line ?_ h
    obtain rfl | rfl := hab
    · exact .inl rfl
    · exact .inr rfl

/-- **The lines of the two.** -/
theorem Eased.lines (h : Eased t u) : LinesEased (lines t) (lines u) := by
  have hpair : ∀ t, Text.lines (cr :: lf :: t) = [cr] :: Text.lines t := by
    intro t
    rw [lines_cons cr_ne_lf, lines_cons_lf]
    rfl
  induction h with
  | nil => exact .last []
  | @char c t u _ _ ih =>
    by_cases hc : c = lf
    · subst hc
      rw [lines_cons_lf, lines_cons_lf]
      exact .line (.inl rfl) ih
    · rw [lines_cons hc, lines_cons hc]
      exact ih.char c
  | kept _ ih =>
    rw [hpair, hpair]
    exact .line (.inl rfl) ih
  | eased _ ih =>
    rw [hpair, lines_cons_lf]
    exact .line (.inr rfl) ih

theorem LinesEased.length (h : LinesEased as bs) : as.length = bs.length := by
  induction h with
  | last => rfl
  | line _ _ ih => rw [List.length_cons, List.length_cons, ih]

theorem LinesEased.getD (h : LinesEased as bs) (i : ℕ) :
    as.getD i [] = bs.getD i [] ∨ as.getD i [] = bs.getD i [] ++ [cr] := by
  induction h generalizing i with
  | last => exact .inl rfl
  | line hab _ ih =>
    cases i with
    | zero => exact hab
    | succ i => exact ih i

theorem LinesEased.filterMap_take {β : Type*} {f : Text → Option β} (hf : ∀ l, f (l ++ [cr]) = f l)
    (h : LinesEased as bs) (i : ℕ) : (as.take i).filterMap f = (bs.take i).filterMap f := by
  induction h generalizing i with
  | last => rfl
  | @line a b as bs hab _ ih =>
    cases i with
    | zero => rfl
    | succ i =>
      have hfab : f a = f b := by
        obtain rfl | rfl := hab
        · rfl
        · exact hf b
      rw [List.take_succ_cons, List.take_succ_cons, List.filterMap_cons, List.filterMap_cons, hfab, ih]

/-- A line without the CR at its end. -/
def easeLine (l : Text) : Text := if l.getLast? = some cr then l.dropLast else l

/-- The lines without the CR at their ends, but for the last one. -/
def easeLines : List Text → List Text
  | [] => []
  | [l] => [l]
  | a :: b :: ls => easeLine a :: easeLines (b :: ls)

theorem easeLines_cons (a : Text) (h : as ≠ []) : easeLines (a :: as) = easeLine a :: easeLines as := by
  cases as with
  | nil => exact absurd rfl h
  | cons b as => rfl

theorem easeLine_eq_nil {l : Text} : easeLine l = [] ↔ l = [] ∨ l = [cr] := by
  unfold easeLine
  constructor
  · intro h
    split_ifs at h with hlast
    · right
      have hl := List.dropLast_append_getLast? cr hlast
      rw [h] at hl
      exact hl.symm
    · exact .inl h
  · rintro (rfl | rfl) <;> rfl

/-- **The lines of a text that is read in one piece.** -/
theorem lines_unix (t : Text) : lines (unix t) = easeLines (lines t) := by
  fun_induction unix t with
  | case1 a b t hpair ih =>
    obtain ⟨rfl, rfl⟩ := hpair
    rw [lines_cons_lf, ih, lines_cons cr_ne_lf, lines_cons_lf, List.modifyHead_cons, easeLines_cons _ (lines_ne_nil t)]
    rfl
  | case2 a b t hpair ih =>
    by_cases ha : a = lf
    · subst ha
      rw [lines_cons_lf, ih, lines_cons_lf, easeLines_cons _ (lines_ne_nil _)]
      rfl
    · rw [lines_cons ha, ih, lines_cons ha]
      obtain ⟨l, ls, hls⟩ := List.exists_cons_of_ne_nil (lines_ne_nil (b :: t))
      rw [hls]
      cases ls with
      | nil => rfl
      | cons l' ls =>
        rw [List.modifyHead_cons, easeLines_cons l (List.cons_ne_nil l' ls),
          easeLines_cons (a :: l) (List.cons_ne_nil l' ls), List.modifyHead_cons]
        congr 1
        cases l with
        | nil =>
          -- the next character is a line feed, so this one is no CR
          have hb : b = lf := by
            by_contra hb
            rw [lines_cons hb] at hls
            obtain ⟨l'', ls'', hls''⟩ := List.exists_cons_of_ne_nil (lines_ne_nil t)
            rw [hls'', List.modifyHead_cons] at hls
            cases hls
          have ha : a ≠ cr := fun ha => hpair ⟨ha, hb⟩
          simp [easeLine, ha]
        | cons c l =>
          simp only [easeLine, List.getLast?_cons_cons, List.dropLast_cons_cons]
          split_ifs <;> rfl
  | case3 t hshort =>
    cases t with
    | nil => rfl
    | cons a t =>
      cases t with
      | nil =>
        by_cases ha : a = lf
        · subst ha
          rfl
        · rw [lines_cons ha]
          rfl
      | cons b t => exact absurd rfl (hshort a b t)

theorem unix_concat (hc : c ≠ lf) (t : Text) : unix (t ++ [c]) = unix t ++ [c] := by
  fun_induction unix t with
  | case1 a b t hpair ih => rw [List.cons_append, List.cons_append, unix, if_pos hpair, ih, List.cons_append]
  | case2 a b t hpair ih =>
    rw [List.cons_append] at ih
    rw [List.cons_append, List.cons_append, unix, if_neg hpair, ih, List.cons_append]
  | case3 t hshort =>
    cases t with
    | nil => rfl
    | cons a t =>
      cases t with
      | nil =>
        rw [List.singleton_append, unix, if_neg (by rintro ⟨-, h⟩; exact hc h)]
        rfl
      | cons b t => exact absurd rfl (hshort a b t)

theorem getD_easeLines {ls : List Text} {i : ℕ} (hi : i + 2 ≤ ls.length) :
    (easeLines ls).getD i [] = easeLine (ls.getD i []) := by
  fun_induction easeLines ls generalizing i with
  | case1 => simp at hi
  | case2 l =>
    rw [List.length_singleton] at hi
    omega
  | case3 a b ls ih =>
    cases i with
    | zero => rfl
    | succ i =>
      rw [List.length_cons] at hi
      exact ih (by omega)

theorem length_easeLines (ls : List Text) : (easeLines ls).length = ls.length := by
  fun_induction easeLines ls with
  | case1 => rfl
  | case2 => rfl
  | case3 a b ls ih => exact congrArg (· + 1) ih

/-! ## The last empty line -/

theorem lastLine_mono {p q : Text → Bool} (hlength : as.length = bs.length)
    (h : ∀ i, i + 2 ≤ as.length → p (as.getD i []) → q (bs.getD i [])) : lastLine p as ≤ lastLine q bs := by
  by_cases hzero : lastLine p as = 0
  · omega
  · obtain ⟨hp, hle⟩ := lastLine_spec hzero
    exact le_lastLine hzero (by omega) (h _ hle hp)

theorem LinesEased.le_lastLine (h : LinesEased as bs) :
    lastLine (fun l => l = []) as ≤ lastLine (fun l => l = []) bs ∧
      lastLine (fun l => l = []) bs ≤ lastLine (fun l => easeLine l = []) as := by
  constructor
  · refine lastLine_mono h.length ?_
    intro i _ hi
    rw [decide_eq_true_eq] at hi ⊢
    obtain heq | heq := h.getD i
    · rw [← heq, hi]
    · rw [hi] at heq
      simp at heq
  · refine lastLine_mono h.length.symm ?_
    intro i _ hi
    rw [decide_eq_true_eq] at hi
    rw [decide_eq_true_eq, easeLine_eq_nil]
    obtain heq | heq := h.getD i
    · exact .inl (heq.trans hi)
    · rw [hi, List.nil_append] at heq
      exact .inr heq

theorem lastLine_unix (t : Text) : lastLine (fun l => l = []) (lines (unix t)) = lastLine (fun l => easeLine l = []) (lines t) := by
  rw [lines_unix]
  refine le_antisymm (lastLine_mono (length_easeLines _) ?_) (lastLine_mono (length_easeLines _).symm ?_)
  · intro i hi h
    rw [length_easeLines] at hi
    rwa [getD_easeLines hi] at h
  · intro i hi h
    rwa [getD_easeLines hi]

end

end Text

end Lib
