/-
  Brackets and quotes of JSON texts.

  A small lexer follows a text: how many brackets are open, and whether it is in a string, or behind a backslash there
  (`LexState`).  Whatever `scan_once` reads is balanced (`scan_balanced`).  So no object is left of the text of an
  object when something is cut off in front (`IsObject.cut`): where it is cut, a bracket is open, or a string, and in
  the latter case the quotes come out the other way round.
-/
import TideBot.Lib.JsonLoads

namespace Lib

namespace Json

/-! ## The lexer -/

inductive LexMode where
  | plain
  | inString
  | escaped
deriving DecidableEq

/-- The brackets that are open, and the mode. -/
abbrev LexState := ℕ × LexMode

/-- One character; a bracket that was not opened, a backslash outside of a string, and a brace or white space behind a
    backslash are errors. -/
def lexStep : LexState → CodePoint → Option LexState
  | (n, .inString), c =>
    if c = ch '"' then some (n, .plain) else if c = ch '\\' then some (n, .escaped) else some (n, .inString)
  | (n, .escaped), c => if whitespace c || c = ch '{' then none else some (n, .inString)
  | (n, .plain), c =>
    if c = ch '"' then some (n, .inString)
    else if c = ch '\\' then none
    else if c = ch '{' ∨ c = ch '[' then some (n + 1, .plain)
    else if c = ch '}' ∨ c = ch ']' then (match n with | 0 => none | n + 1 => some (n, .plain))
    else some (n, .plain)

def lexRun (s : LexState) (l : Text) : Option LexState := l.foldlM lexStep s

/-- Nothing is open behind the text, if nothing is before it. -/
def Balanced (l : Text) : Prop := lexRun (0, .plain) l = some (0, .plain)

instance (l : Text) : Decidable (Balanced l) :=
  inferInstanceAs (Decidable (lexRun (0, .plain) l = some (0, .plain)))

section
variable {s s' : LexState} {l l' : Text} {m m' : LexMode} {n n' k : ℕ} {c : CodePoint}

theorem lexRun_cons : lexRun s (c :: l) = (lexStep s c).bind fun s => lexRun s l := rfl

theorem lexRun_append : lexRun s (l ++ l') = (lexRun s l).bind fun s => lexRun s l' := List.foldlM_append

theorem lexStep_add (h : lexStep (n, m) c = some (n', m')) : lexStep (n + k, m) c = some (n' + k, m') := by
  cases m with
  | inString =>
    simp only [lexStep] at h ⊢
    split_ifs at h ⊢ <;> simpa using h
  | escaped =>
    simp only [lexStep] at h ⊢
    split_ifs at h ⊢
    simpa using h
  | plain =>
    simp only [lexStep] at h ⊢
    split_ifs at h ⊢
    · simpa using h
    · obtain ⟨rfl, rfl⟩ := Prod.mk.inj (Option.some.inj h)
      rw [Nat.add_right_comm]
    · cases n with
      | zero => cases h
      | succ n =>
        obtain ⟨rfl, rfl⟩ := Prod.mk.inj (Option.some.inj h)
        rw [Nat.add_right_comm]
    · simpa using h

theorem lexRun_add (h : lexRun (n, m) l = some (n', m')) : lexRun (n + k, m) l = some (n' + k, m') := by
  induction l generalizing n m with
  | nil =>
    obtain ⟨rfl, rfl⟩ := Prod.mk.inj (Option.some.inj h)
    rfl
  | cons c l ih =>
    rw [lexRun_cons, Option.bind_eq_some_iff] at h
    obtain ⟨⟨n₁, m₁⟩, hstep, hrun⟩ := h
    rw [lexRun_cons, lexStep_add hstep]
    exact ih hrun

theorem Balanced.at (h : Balanced l) (n : ℕ) : lexRun (n, .plain) l = some (n, .plain) := by
  have hrun := lexRun_add (k := n) h
  rwa [Nat.zero_add] at hrun

theorem Balanced.append (h : Balanced l) (h' : Balanced l') : Balanced (l ++ l') := by
  rw [Balanced, lexRun_append, h]
  exact h'

/-- A character without a meaning of its own. -/
def isPlain (c : CodePoint) : Bool := ¬(c = ch '"' ∨ c = ch '\\' ∨ c = ch '{' ∨ c = ch '[' ∨ c = ch '}' ∨ c = ch ']')

theorem lexStep_plain (h : isPlain c) : lexStep (n, .plain) c = some (n, .plain) := by
  rw [isPlain, decide_eq_true_eq] at h
  push Not at h
  obtain ⟨h₁, h₂, h₃, h₄, h₅, h₆⟩ := h
  simp only [lexStep]
  rw [if_neg h₁, if_neg h₂, if_neg (not_or.2 ⟨h₃, h₄⟩), if_neg (not_or.2 ⟨h₅, h₆⟩)]

theorem balanced_of_plain (h : ∀ c ∈ l, isPlain c) : Balanced l := by
  induction l with
  | nil => rfl
  | cons c l ih =>
    rw [List.forall_mem_cons] at h
    rw [Balanced, lexRun_cons, lexStep_plain h.1]
    exact ih h.2

theorem isPlain_of_whitespace (h : whitespace c) : isPlain c := by
  rw [whitespace, decide_eq_true_eq] at h
  obtain rfl | rfl | rfl | rfl := h <;> decide

theorem Balanced.bracket {o e : CodePoint} (ho : o = ch '{' ∨ o = ch '[') (he : e = ch '}' ∨ e = ch ']')
    (h : Balanced l) : Balanced (o :: (l ++ [e])) := by
  have hopen : lexStep (0, .plain) o = some (1, .plain) := by obtain rfl | rfl := ho <;> rfl
  have hclose : lexStep (1, .plain) e = some (0, .plain) := by obtain rfl | rfl := he <;> rfl
  rw [Balanced, lexRun_cons, hopen, Option.bind_some, lexRun_append, h.at 1, Option.bind_some, lexRun_cons, hclose]
  rfl

theorem skipWs_split (l : Text) : ∃ ws, l = ws ++ skipWs l ∧ Balanced ws ∧ ∀ c ∈ ws, whitespace c :=
  ⟨l.takeWhile whitespace, List.takeWhile_append_dropWhile.symm,
    balanced_of_plain fun _ hc => isPlain_of_whitespace (List.mem_takeWhile_imp hc),
    fun _ hc => List.mem_takeWhile_imp hc⟩

/-! ## Strings -/

theorem hexValue_cases (h : (hexValue c).isSome) : c ≠ ch '"' ∧ c ≠ ch '\\' := by
  constructor
  · rintro rfl
    cases h
  · rintro rfl
    cases h

theorem lexStep_inString (h : c ≠ ch '"') (h' : c ≠ ch '\\') : lexStep (n, .inString) c = some (n, .inString) := by
  simp only [lexStep]
  rw [if_neg h, if_neg h']

theorem hex4_spec {r : ℕ × Text} (h : hex4 l = some r) :
    ∃ used, l = used ++ r.2 ∧ used.length = 4 ∧ lexRun (n, .inString) used = some (n, .inString) := by
  unfold hex4 at h
  split at h
  · rename_i a b c d l'
    simp only [Option.bind_eq_bind, Option.bind_eq_some_iff, Option.pure_def, Option.some.injEq] at h
    obtain ⟨va, ha, vb, hb, vc, hc, vd, hd, rfl⟩ := h
    have hstep : ∀ {x v}, hexValue x = some v → lexStep (n, .inString) x = some (n, .inString) := by
      intro x v hx
      have hcases := hexValue_cases (c := x) (by rw [hx]; rfl)
      exact lexStep_inString hcases.1 hcases.2
    refine ⟨[a, b, c, d], rfl, rfl, ?_⟩
    rw [lexRun_cons, hstep ha, Option.bind_some, lexRun_cons, hstep hb, Option.bind_some, lexRun_cons, hstep hc,
      Option.bind_some, lexRun_cons, hstep hd]
    rfl
  · cases h

theorem lowSurrogate_spec {high : ℕ} {r : CodePoint × Text} (h : lowSurrogate high l = some r) :
    ∃ used, l = used ++ r.2 ∧ lexRun (n, .inString) used = some (n, .inString) := by
  unfold lowSurrogate at h
  split at h
  · rename_i b u l'
    split_ifs at h with hpair
    · simp only [Option.bind_eq_bind, Option.bind_eq_some_iff] at h
      obtain ⟨⟨low, rest⟩, hhex, h⟩ := h
      obtain ⟨used, hused, -, hrun⟩ := hex4_spec (n := n) hhex
      obtain ⟨-, -, rfl, rfl⟩ := hpair
      split_ifs at h
      · obtain rfl := Option.some.inj h
        refine ⟨ch '\\' :: ch 'u' :: used, by rw [hused]; rfl, ?_⟩
        exact hrun
      · obtain rfl := Option.some.inj h
        exact ⟨[], rfl, rfl⟩
    · obtain rfl := Option.some.inj h
      exact ⟨[], rfl, rfl⟩
  · obtain rfl := Option.some.inj h
    exact ⟨[], rfl, rfl⟩

theorem unescape_spec {r : CodePoint × Text} (h : unescape l = some r) :
    ∃ used, used ≠ [] ∧ l = used ++ r.2 ∧ lexRun (n, .escaped) used = some (n, .inString) := by
  have hone : ∀ e : CodePoint, whitespace e = false → e ≠ ch '{' → lexStep (n, .escaped) e = some (n, .inString) := by
    intro e hws he
    simp only [lexStep]
    rw [if_neg (by simp [hws, he])]
  cases l with
  | nil => cases h
  | cons e l =>
    have hsingle : ∀ {x : CodePoint}, some (x, l) = some r → whitespace e = false → e ≠ ch '{' →
        ∃ used, used ≠ [] ∧ e :: l = used ++ r.2 ∧ lexRun (n, .escaped) used = some (n, .inString) := by
      intro x hx hws he
      obtain rfl := Option.some.inj hx
      exact ⟨[e], by simp, rfl, by rw [lexRun_cons, hone e hws he]; rfl⟩
    rw [unescape] at h
    split_ifs at h with h₁ h₂ h₃ h₄ h₅ h₆ h₇
    · obtain rfl | rfl | rfl := h₁
      · exact hsingle h (by decide) (by decide)
      · exact hsingle h (by decide) (by decide)
      · exact hsingle h (by decide) (by decide)
    · exact hsingle h (by rw [h₂]; decide) (by rw [h₂]; decide)
    · exact hsingle h (by rw [h₃]; decide) (by rw [h₃]; decide)
    · exact hsingle h (by rw [h₄]; decide) (by rw [h₄]; decide)
    · exact hsingle h (by rw [h₅]; decide) (by rw [h₅]; decide)
    · exact hsingle h (by rw [h₆]; decide) (by rw [h₆]; decide)
    · obtain ⟨⟨v, l₁⟩, hhex, hlow⟩ := Option.bind_eq_some_iff.1 h
      obtain ⟨used, hused, -, hrun⟩ := hex4_spec (n := n) hhex
      obtain ⟨used', hused', hrun'⟩ := lowSurrogate_spec (n := n) hlow
      refine ⟨e :: (used ++ used'), by simp, ?_, ?_⟩
      · rw [hused, hused', List.cons_append, List.append_assoc]
      · rw [lexRun_cons, hone e (by rw [h₇]; decide) (by rw [h₇]; decide), Option.bind_some, lexRun_append, hrun]
        exact hrun'

/-- **A string** is read up to its closing quote. -/
theorem scanString_spec {fuel : ℕ} {r : Text × Text} (h : scanString fuel l = some r) :
    ∃ used, used ≠ [] ∧ l = used ++ r.2 ∧ lexRun (n, .inString) used = some (n, .plain) := by
  induction fuel generalizing l r with
  | zero => cases h
  | succ fuel ih =>
    cases l with
    | nil => cases h
    | cons c l =>
      rw [scanString] at h
      split_ifs at h with hquote hescape hcontrol
      · obtain rfl := Option.some.inj h
        rw [hquote]
        exact ⟨[ch '"'], by simp, rfl, rfl⟩
      · obtain ⟨⟨e, l₁⟩, hunescape, h⟩ := Option.bind_eq_some_iff.1 h
        obtain ⟨r', hr', rfl⟩ := Option.map_eq_some_iff.1 h
        obtain ⟨used, -, hused, hrun⟩ := unescape_spec (n := n) hunescape
        obtain ⟨used', -, hused', hrun'⟩ := ih hr'
        refine ⟨c :: (used ++ used'), by simp, ?_, ?_⟩
        · rw [hused, hused', List.cons_append, List.append_assoc]
        · have hstep : lexStep (n, .inString) c = some (n, .escaped) := by
            rw [hescape]
            rfl
          rw [lexRun_cons, hstep, Option.bind_some, lexRun_append, hrun]
          exact hrun'
      · obtain ⟨r', hr', rfl⟩ := Option.map_eq_some_iff.1 h
        obtain ⟨used, -, hused, hrun⟩ := ih hr'
        refine ⟨c :: used, by simp, by rw [hused]; rfl, ?_⟩
        rw [lexRun_cons, lexStep_inString hquote hescape]
        exact hrun

/-! ## Numbers -/

/-- The characters of numbers. -/
def isNumberChar (c : CodePoint) : Bool := isDigit c || c ∈ [ch '-', ch '+', ch '.', ch 'e', ch 'E']

/-- The text does not begin with one of them. -/
def NoNumber (l : Text) : Prop := ∀ c ∈ l.head?, isNumberChar c = false

theorem isPlain_of_isNumberChar (h : isNumberChar c) : isPlain c := by
  rw [isPlain, decide_eq_true_eq]
  rintro (rfl | rfl | rfl | rfl | rfl | rfl) <;> revert h <;> decide

theorem takeWhile_noNumber (u : Text) (h : NoNumber l) : (u ++ l).takeWhile isDigit = u.takeWhile isDigit := by
  induction u with
  | nil =>
    cases l with
    | nil => rfl
    | cons c l =>
      have hc := h c rfl
      rw [isNumberChar, Bool.or_eq_false_iff] at hc
      rw [List.nil_append, List.takeWhile_cons, hc.1]
      rfl
  | cons c u ih => rw [List.cons_append, List.takeWhile_cons, List.takeWhile_cons, ih]

theorem head_noNumber (u : Text) (h : NoNumber l) (hc : isNumberChar c) :
    ((u ++ l).head? = some c) = (u.head? = some c) := by
  cases u with
  | nil =>
    rw [List.nil_append, List.head?_nil, eq_iff_iff]
    refine ⟨fun hhead => ?_, fun hnone => (by cases hnone)⟩
    rw [h c hhead] at hc
    cases hc
  | cons x u => rfl

theorem fraction_noNumber (u : Text) (h : NoNumber l) : fraction (u ++ l) = fraction u := by
  cases u with
  | nil =>
    cases l with
    | nil => rfl
    | cons c l =>
      have hdot : c ≠ ch '.' := by
        rintro rfl
        exact absurd (h _ rfl) (by decide)
      have hnone : ¬(c = ch '.' ∧ l.takeWhile isDigit ≠ []) := fun hdots => hdot hdots.1
      rw [List.nil_append]
      exact if_neg hnone
  | cons c u => rw [List.cons_append, fraction, fraction, takeWhile_noNumber u h]

theorem fraction_begins (u : Text) : fraction u <+: u := by
  cases u with
  | nil => exact List.prefix_rfl
  | cons c u =>
    rw [fraction]
    split_ifs
    · exact (List.prefix_cons_inj c).2 (List.takeWhile_prefix _)
    · exact List.nil_prefix

theorem sign_noNumber {P : Option CodePoint → Prop} [DecidablePred P] (u : Text) (h : NoNumber l)
    (hP : ∀ o, P o → ∃ c, o = some c ∧ isNumberChar c) :
    (u ++ l).take (if P (u ++ l).head? then 1 else 0) = u.take (if P u.head? then 1 else 0) := by
  cases u with
  | nil =>
    rw [List.nil_append, List.take_nil, if_neg, List.take_zero]
    intro hl
    obtain ⟨c, hc, hnumber⟩ := hP _ hl
    rw [h c hc] at hnumber
    cases hnumber
  | cons c u =>
    rw [List.cons_append, List.head?_cons, List.head?_cons]
    split_ifs
    · rfl
    · rfl

theorem exponent_noNumber (u : Text) (h : NoNumber l) : exponent (u ++ l) = exponent u := by
  cases u with
  | nil =>
    cases l with
    | nil => rfl
    | cons c l =>
      have he : ¬(c = ch 'e' ∨ c = ch 'E') := by
        rintro (rfl | rfl)
        · exact absurd (h _ rfl) (by decide)
        · exact absurd (h _ rfl) (by decide)
      simp only [List.nil_append, exponent]
      rw [if_neg fun hexp => he hexp.1]
  | cons c u =>
    have hsign : (u ++ l).take (if (u ++ l).head? = some (ch '+') ∨ (u ++ l).head? = some (ch '-') then 1 else 0) =
        u.take (if u.head? = some (ch '+') ∨ u.head? = some (ch '-') then 1 else 0) := by
      refine sign_noNumber (P := fun o => o = some (ch '+') ∨ o = some (ch '-')) u h ?_
      rintro o (rfl | rfl)
      · exact ⟨_, rfl, by decide⟩
      · exact ⟨_, rfl, by decide⟩
    simp only [List.cons_append, exponent]
    rw [hsign, List.drop_append_of_le_length (List.length_take_le' _ _), takeWhile_noNumber _ h]

theorem exponent_begins (u : Text) : exponent u <+: u := by
  cases u with
  | nil => exact List.prefix_rfl
  | cons c u =>
    simp only [exponent]
    generalize (if u.head? = some (ch '+') ∨ u.head? = some (ch '-') then 1 else 0) = k
    have hu : u.take k ++ u.drop (u.take k).length = u := List.prefix_iff_eq_append.1 (List.take_prefix k u)
    have hprefix : u.take k ++ (u.drop (u.take k).length).takeWhile isDigit <+: u := by
      conv_rhs => rw [← hu]
      exact (List.prefix_append_right_inj _).2 (List.takeWhile_prefix _)
    split_ifs
    · exact (List.prefix_cons_inj c).2 hprefix
    · exact List.nil_prefix

/-- **A number is read of the characters of numbers**, whatever is behind them. -/
theorem scanNumber_noNumber (F : FloatText) (u : Text) (h : NoNumber l) :
    scanNumber F (u ++ l) = (scanNumber F u).map fun r => (r.1, r.2 ++ l) := by
  have hsign : (u ++ l).take (if (u ++ l).head? = some (ch '-') then 1 else 0) =
      u.take (if u.head? = some (ch '-') then 1 else 0) := by
    refine sign_noNumber (P := fun o => o = some (ch '-')) u h ?_
    rintro o rfl
    exact ⟨_, rfl, by decide⟩
  unfold scanNumber
  simp only [hsign]
  have hsignLength : (u.take (if u.head? = some (ch '-') then 1 else 0)).length ≤ u.length := List.length_take_le' _ _
  generalize u.take (if u.head? = some (ch '-') then 1 else 0) = sign at hsignLength
  rw [List.drop_append_of_le_length hsignLength]
  generalize u.drop sign.length = w
  have hdigits : (if (w ++ l).head? = some (ch '0') then [ch '0'] else (w ++ l).takeWhile isDigit) =
      if w.head? = some (ch '0') then [ch '0'] else w.takeWhile isDigit := by
    rw [takeWhile_noNumber w h]
    exact if_congr (iff_of_eq (head_noNumber w h (by decide))) rfl rfl
  have hdigitsLength : (if w.head? = some (ch '0') then [ch '0'] else w.takeWhile isDigit).length ≤ w.length := by
    split_ifs with hzero
    · cases w with
      | nil => cases hzero
      | cons c w => exact Nat.succ_le_succ (Nat.zero_le _)
    · exact (List.takeWhile_prefix _).length_le
  rw [hdigits]
  generalize (if w.head? = some (ch '0') then [ch '0'] else w.takeWhile isDigit) = digits at hdigitsLength
  rw [List.drop_append_of_le_length hdigitsLength]
  generalize w.drop digits.length = v
  have hfrac := (fraction_begins v).length_le
  have hexp := (exponent_begins (v.drop (fraction v).length)).length_le
  rw [List.length_drop] at hexp
  rw [fraction_noNumber v h, List.drop_append_of_le_length hfrac, exponent_noNumber _ h,
    List.drop_append_of_le_length (by omega)]
  split_ifs <;> rfl

/-- A number begins with a digit, perhaps behind a sign, and something is read of it. -/
theorem scanNumber_head {F : FloatText} {r : Json × Text} (h : scanNumber F l = some r) :
    r.2 <:+ l ∧ r.2.length < l.length ∧
      ∃ sign d t, l = sign ++ d :: t ∧ isDigit d ∧ (sign = [] ∨ sign = [ch '-']) := by
  unfold scanNumber at h
  have hsign : ∃ w, l = l.take (if l.head? = some (ch '-') then 1 else 0) ++ w ∧
      (l.take (if l.head? = some (ch '-') then 1 else 0) = [] ∨
        l.take (if l.head? = some (ch '-') then 1 else 0) = [ch '-']) := by
    refine ⟨_, (List.take_append_drop _ l).symm, ?_⟩
    split_ifs with hminus
    · cases l with
      | nil => cases hminus
      | cons c l => exact .inr (by rw [← Option.some.inj hminus]; rfl)
    · exact .inl rfl
  generalize l.take (if l.head? = some (ch '-') then 1 else 0) = sign at h hsign
  obtain ⟨w, rfl, hminus⟩ := hsign
  simp only [List.drop_left] at h
  have hdigits : ∃ v, w = (if w.head? = some (ch '0') then [ch '0'] else w.takeWhile isDigit) ++ v ∧
      ∀ d ∈ if w.head? = some (ch '0') then [ch '0'] else w.takeWhile isDigit, isDigit d := by
    split_ifs with hzero
    · cases w with
      | nil => cases hzero
      | cons c w =>
        obtain rfl := Option.some.inj hzero
        exact ⟨w, rfl, by simp; decide⟩
    · exact ⟨_, List.takeWhile_append_dropWhile.symm, fun d hd => List.mem_takeWhile_imp hd⟩
  generalize (if w.head? = some (ch '0') then [ch '0'] else w.takeWhile isDigit) = digits at h hdigits
  obtain ⟨v, rfl, hall⟩ := hdigits
  simp only [List.drop_left] at h
  cases digits with
  | nil => cases h
  | cons d digits =>
    have hrest : r.2 <:+ v := by
      rw [if_neg (List.cons_ne_nil d digits)] at h
      split_ifs at h
      · obtain rfl := Option.some.inj h
        exact List.suffix_rfl
      · obtain rfl := Option.some.inj h
        exact List.suffix_rfl
      · obtain rfl := Option.some.inj h
        exact List.drop_suffix _ _
    refine ⟨?_, ?_, sign, d, digits ++ v, ?_, hall d List.mem_cons_self, hminus⟩
    · exact hrest.trans ((List.suffix_append _ v).trans (List.suffix_append sign _))
    · have hle := hrest.length_le
      rw [List.length_append, List.length_append, List.length_cons]
      omega
    · rw [List.cons_append]

theorem dropWhile_noNumber (l : Text) : NoNumber (l.dropWhile isNumberChar) := by
  intro c hc
  have hhead := List.head?_dropWhile_not isNumberChar l
  rw [hc] at hhead
  simpa using hhead

theorem scanNumber_spec {F : FloatText} {r : Json × Text} (h : scanNumber F l = some r) :
    ∃ used, used ≠ [] ∧ l = used ++ r.2 ∧ Balanced used := by
  have hsplit : l.takeWhile isNumberChar ++ l.dropWhile isNumberChar = l := List.takeWhile_append_dropWhile
  rw [← hsplit, scanNumber_noNumber F _ (dropWhile_noNumber l)] at h
  obtain ⟨r', hr', rfl⟩ := Option.map_eq_some_iff.1 h
  obtain ⟨⟨used, hused⟩, hlt, -⟩ := scanNumber_head hr'
  refine ⟨used, ?_, ?_, balanced_of_plain fun c hc => ?_⟩
  · rintro rfl
    rw [← hused] at hlt
    exact absurd hlt (lt_irrefl _)
  · rw [← List.append_assoc, hused, hsplit]
  · refine isPlain_of_isNumberChar (List.mem_takeWhile_imp (l := l) ?_)
    rw [← hused]
    exact List.mem_append_left _ hc

/-! ## Values -/

theorem map_eq_ok {α β ε : Type} {x : Except ε α} {f : α → β} {b : β} :
    x.map f = .ok b ↔ ∃ a, x = .ok a ∧ f a = b := by
  cases x with
  | error e => simp [Except.map]
  | ok a => simp [Except.map]

theorem split_of_isPrefixOf {t : Text} (h : t.isPrefixOf l) : l = t ++ l.drop t.length := by
  obtain ⟨rest, rfl⟩ := List.isPrefixOf_iff_prefix.1 h
  rw [List.drop_left]

theorem scanNumber_number {F : FloatText} {r : Json × Text} (h : scanNumber F l = some r) : r.1.number.isSome := by
  unfold scanNumber at h
  extract_lets sign l₁ digits l₂ frac exp at h
  by_cases hdigits : digits = []
  · rw [if_pos hdigits] at h
    cases h
  rw [if_neg hdigits] at h
  by_cases hint : frac = [] ∧ exp = []
  · rw [if_pos hint] at h
    cases h
    rfl
  · rw [if_neg hint] at h
    cases h
    rfl

theorem scanConstant_cases {F : FloatText} {r : Json × Text} (h : scanConstant F l = .ok r) :
    (∃ t ∈ [Text.lit "NaN", Text.lit "Infinity", Text.lit "-Infinity"],
      t.isPrefixOf l ∧ r = (.float (F.parse t), l.drop t.length)) ∨
      (scanNumber F l = some r ∧ ∀ n rest, r = (.int n, rest) → integerDigits l ≤ maxStrDigits) := by
  unfold scanConstant at h
  by_cases h₁ : (Text.lit "NaN").isPrefixOf l
  · rw [if_pos h₁] at h
    cases h
    exact .inl ⟨_, by simp, h₁, rfl⟩
  rw [if_neg h₁] at h
  by_cases h₂ : (Text.lit "Infinity").isPrefixOf l
  · rw [if_pos h₂] at h
    cases h
    exact .inl ⟨_, by simp, h₂, rfl⟩
  rw [if_neg h₂] at h
  by_cases h₃ : (Text.lit "-Infinity").isPrefixOf l
  · rw [if_pos h₃] at h
    cases h
    exact .inl ⟨_, by simp, h₃, rfl⟩
  rw [if_neg h₃] at h
  refine .inr ?_
  rcases hnumber : scanNumber F l with _ | ⟨v, rest⟩
  · rw [hnumber] at h
    cases h
  · rw [hnumber] at h
    have hsome := scanNumber_number hnumber
    cases v with
    | int n =>
      by_cases hlong : maxStrDigits < integerDigits l
      · simp only [if_pos hlong] at h
        cases h
      · simp only [if_neg hlong] at h
        cases h
        exact ⟨rfl, fun _ _ _ => Nat.le_of_not_lt hlong⟩
    | float q =>
      cases h
      exact ⟨rfl, by rintro n rest ⟨⟩⟩
    | null | bool | str | arr | obj => cases hsome

theorem isObj_of_number {v : Json} (h : v.number.isSome) : v.isObj = false := by
  cases v with
  | int | float => rfl
  | null | bool | str | arr | obj => cases h

theorem scanConstant_spec {F : FloatText} {r : Json × Text} (h : scanConstant F l = .ok r) :
    ∃ used, used ≠ [] ∧ l = used ++ r.2 ∧ Balanced used ∧ r.1.isObj = false := by
  obtain ⟨t, ht, hprefix, rfl⟩ | ⟨hnumber, -⟩ := scanConstant_cases h
  · refine ⟨t, ?_, split_of_isPrefixOf hprefix, ?_, rfl⟩
    · fin_cases ht <;> decide
    · fin_cases ht <;> decide
  · obtain ⟨used, hne, hused, hbalanced⟩ := scanNumber_spec hnumber
    exact ⟨used, hne, hused, hbalanced, isObj_of_number (scanNumber_number hnumber)⟩

/-! ### What arrays and objects share -/

section
variable {α : Type}

/-- A sequence behind its opening bracket; `next` reads what is in it. -/
def container (stack : ℕ) (close : CodePoint) (value : List α → Json)
    (next : Text → Except LoadError (List α × Text)) (l : Text) : Except LoadError (Json × Text) :=
  if stack = 0 then .error .recursionError
  else if (skipWs l).head? = some close then .ok (value [], (skipWs l).tail)
  else (next (skipWs l)).map fun r => (value r.1, r.2)

/-- What comes behind a value of a sequence. -/
def afterValue (close : CodePoint) (a : α) (next : Text → Except LoadError (List α × Text)) (l : Text) :
    Except LoadError (List α × Text) :=
  match skipWs l with
  | [] => .error .decodeError
  | c :: l =>
    if c = close then .ok ([a], l)
    else if c = ch ',' then (next (skipWs l)).map fun r => (a :: r.1, r.2)
    else .error .decodeError

/-- A sequence from a value on. -/
def sequence (F : FloatText) (fuel stack : ℕ) (close : CodePoint) (a : Json → α)
    (next : Text → Except LoadError (List α × Text)) (l : Text) : Except LoadError (List α × Text) :=
  (scanOnce F fuel stack l).bind fun r => afterValue close (a r.1) next r.2

/-- A key of an object, with its colon. -/
def scanKey : Text → Except LoadError (Text × Text)
  | [] => .error .decodeError
  | q :: l =>
    if q ≠ ch '"' then .error .decodeError
    else
      match scanString (l.length + 1) l with
      | none => .error .decodeError
      | some (k, l) =>
        match skipWs l with
        | [] => .error .decodeError
        | c :: l => if c ≠ ch ':' then .error .decodeError else .ok (k, l)

variable {F : FloatText} {fuel stack : ℕ}

theorem scanOnce_cons : scanOnce F (fuel + 1) stack (c :: l) =
    if c = ch '"' then (required (scanString (l.length + 1) l)).map fun r => (.str r.1, r.2)
    else if c = ch '{' then
      container stack (ch '}') (fun fs => .obj (fs.foldl setField [])) (scanFields F fuel (stack - 1)) l
    else if c = ch '[' then container stack (ch ']') .arr (scanItems F fuel (stack - 1)) l
    else if (Text.lit "null").isPrefixOf (c :: l) then .ok (.null, l.drop 3)
    else if (Text.lit "true").isPrefixOf (c :: l) then .ok (.bool true, l.drop 3)
    else if (Text.lit "false").isPrefixOf (c :: l) then .ok (.bool false, l.drop 4)
    else scanConstant F (c :: l) := by
  rw [scanOnce]
  rfl

theorem scanItems_succ : scanItems F (fuel + 1) stack l = sequence F fuel stack (ch ']') id (scanItems F fuel stack) l := by
  rw [scanItems, sequence]
  cases scanOnce F fuel stack l <;> rfl

theorem scanFields_succ : scanFields F (fuel + 1) stack l =
    (scanKey l).bind fun k => sequence F fuel stack (ch '}') (fun v => (k.1, v)) (scanFields F fuel stack) (skipWs k.2) := by
  cases l with
  | nil => rfl
  | cons q l =>
    rw [scanFields, scanKey]
    by_cases hquote : q ≠ ch '"'
    · rw [if_pos hquote, if_pos hquote]
      rfl
    rw [if_neg hquote, if_neg hquote]
    rcases scanString (l.length + 1) l with _ | ⟨k, l₁⟩
    · rfl
    dsimp only
    rcases skipWs l₁ with _ | ⟨c, l₂⟩
    · rfl
    dsimp only
    by_cases hcolon : c ≠ ch ':'
    · rw [if_pos hcolon, if_pos hcolon]
      rfl
    rw [if_neg hcolon, if_neg hcolon]
    change _ = sequence F fuel stack (ch '}') (fun v => (k, v)) (scanFields F fuel stack) (skipWs l₂)
    rw [sequence]
    cases scanOnce F fuel stack (skipWs l₂) <;> rfl

end

/-! ### Balance -/

/-- A value is read of balanced text; an object is read from brace to brace. -/
def OnceBalanced (F : FloatText) (fuel : ℕ) : Prop :=
  ∀ {stack : ℕ} {l : Text} {v : Json} {r : Text}, scanOnce F fuel stack l = .ok (v, r) →
    ∃ used, used ≠ [] ∧ l = used ++ r ∧ Balanced used ∧
      (v.isObj → ∃ body, used = ch '{' :: (body ++ [ch '}']) ∧ Balanced body)

/-- What is in a sequence is balanced, up to its bracket. -/
def UpTo {α : Type} (close : CodePoint) (next : Text → Except LoadError (List α × Text)) : Prop :=
  ∀ {l : Text} {xs : List α} {r : Text}, next l = .ok (xs, r) → ∃ body, l = body ++ close :: r ∧ Balanced body

variable {F : FloatText} {fuel : ℕ}

theorem balanced_quoted {used : Text} (h : lexRun (0, .inString) used = some (0, .plain)) :
    Balanced (ch '"' :: used) := h

theorem UpTo.container {α : Type} {close : CodePoint} {next : Text → Except LoadError (List α × Text)} (hnext : UpTo close next)
    {stack : ℕ} {value : List α → Json} {v : Json} {r : Text} (h : container stack close value next l = .ok (v, r)) :
    ∃ xs body, v = value xs ∧ l = body ++ close :: r ∧ Balanced body := by
  obtain ⟨ws, hws, hbalanced, -⟩ := skipWs_split l
  unfold Json.container at h
  split_ifs at h with hstack hempty
  · cases h
    refine ⟨[], ws, rfl, ?_, hbalanced⟩
    rw [List.cons_head?_tail hempty]
    exact hws
  · obtain ⟨⟨xs, r'⟩, hxs, hr⟩ := map_eq_ok.1 h
    obtain ⟨rfl, rfl⟩ := Prod.mk.inj hr
    obtain ⟨body, hbody, hbodyBalanced⟩ := hnext hxs
    refine ⟨xs, ws ++ body, rfl, ?_, hbalanced.append hbodyBalanced⟩
    rw [List.append_assoc, ← hbody]
    exact hws

theorem onceBalanced_succ (hitems : ∀ stack, UpTo (ch ']') (scanItems F fuel stack))
    (hfields : ∀ stack, UpTo (ch '}') (scanFields F fuel stack)) : OnceBalanced F (fuel + 1) := by
  intro stack l v r h
  cases l with
  | nil => cases h
  | cons c l =>
    rw [scanOnce_cons] at h
    have hword : ∀ {t : Text}, t.isPrefixOf (c :: l) → t ≠ [] → Balanced t → v.isObj = false →
        (c :: l).drop t.length = r → ∃ used, used ≠ [] ∧ c :: l = used ++ r ∧ Balanced used ∧
          (v.isObj → ∃ body, used = ch '{' :: (body ++ [ch '}']) ∧ Balanced body) := by
      intro t ht hne hbalancedWord hobj hdrop
      refine ⟨t, hne, ?_, hbalancedWord, ?_⟩
      · rw [← hdrop]
        exact split_of_isPrefixOf ht
      · rw [hobj]
        rintro ⟨⟩
    split_ifs at h with hquote hbrace hbracket hnull htrue hfalse
    · rcases hscan : scanString (l.length + 1) l with _ | s
      · rw [hscan] at h
        cases h
      · rw [hscan] at h
        cases h
        obtain ⟨used, -, hused, hrun⟩ := scanString_spec (n := 0) hscan
        refine ⟨c :: used, by simp, by rw [hused]; rfl, ?_, by intro hobj; cases hobj⟩
        rw [hquote]
        exact balanced_quoted hrun
    · obtain ⟨fs, body, rfl, hl, hbody⟩ := UpTo.container (hfields _) h
      refine ⟨ch '{' :: (body ++ [ch '}']), by simp, ?_, hbody.bracket (.inl rfl) (.inl rfl), fun _ => ⟨body, rfl, hbody⟩⟩
      rw [hl, hbrace, List.cons_append, List.append_assoc]
      rfl
    · obtain ⟨xs, body, rfl, hl, hbody⟩ := UpTo.container (hitems _) h
      refine ⟨ch '[' :: (body ++ [ch ']']), by simp, ?_, hbody.bracket (.inr rfl) (.inr rfl), by rintro ⟨⟩⟩
      rw [hl, hbracket, List.cons_append, List.append_assoc]
      rfl
    · cases h
      exact hword hnull (by decide) (by decide) rfl rfl
    · cases h
      exact hword htrue (by decide) (by decide) rfl rfl
    · cases h
      exact hword hfalse (by decide) (by decide) rfl rfl
    · obtain ⟨used, hne, hused, husedBalanced, hobj⟩ := scanConstant_spec h
      refine ⟨used, hne, hused, husedBalanced, ?_⟩
      rw [hobj]
      rintro ⟨⟩

theorem UpTo.afterValue {α : Type} {close : CodePoint} {next : Text → Except LoadError (List α × Text)} (hnext : UpTo close next)
    {a : α} : UpTo close (afterValue close a next) := by
  intro l xs r h
  obtain ⟨ws, hws, hwsBalanced, -⟩ := skipWs_split l
  unfold Json.afterValue at h
  rcases hskip : skipWs l with _ | ⟨c, l'⟩
  · rw [hskip] at h
    cases h
  rw [hskip] at h hws
  dsimp only at h
  split_ifs at h with hclose hcomma
  · cases h
    exact ⟨ws, by rw [hws, hclose], hwsBalanced⟩
  · obtain ⟨r', hr', hr⟩ := map_eq_ok.1 h
    obtain ⟨rfl, rfl⟩ := Prod.mk.inj hr
    obtain ⟨body, hbody, hbodyBalanced⟩ := hnext hr'
    obtain ⟨ws', hws', hwsBalanced', -⟩ := skipWs_split l'
    refine ⟨ws ++ (ch ',' :: (ws' ++ body)), ?_, ?_⟩
    · rw [hws, hws', hbody, hcomma]
      simp only [List.append_assoc, List.cons_append]
    · have hcommaBalanced : Balanced [ch ','] := by decide
      exact hwsBalanced.append (hcommaBalanced.append (hwsBalanced'.append hbodyBalanced))

theorem UpTo.sequence {α : Type} {close : CodePoint} {next : Text → Except LoadError (List α × Text)} (hnext : UpTo close next)
    (honce : OnceBalanced F fuel) {stack : ℕ} {a : Json → α} : UpTo close (sequence F fuel stack close a next) := by
  intro l xs r h
  rw [Json.sequence] at h
  rcases hx : scanOnce F fuel stack l with e | ⟨x, l'⟩
  · rw [hx] at h
    cases h
  rw [hx] at h
  obtain ⟨used, -, hused, hbalanced, -⟩ := honce hx
  obtain ⟨body, hbody, hbodyBalanced⟩ := UpTo.afterValue hnext h
  refine ⟨used ++ body, ?_, hbalanced.append hbodyBalanced⟩
  rw [hused, List.append_assoc, ← hbody]

theorem scanKey_spec {k r : Text} (h : scanKey l = .ok (k, r)) : ∃ used, 2 < used.length ∧ l = used ++ r ∧ Balanced used := by
  cases l with
  | nil => cases h
  | cons q l =>
    rw [scanKey] at h
    split_ifs at h with hquote
    rcases hkey : scanString (l.length + 1) l with _ | ⟨k', l₁⟩
    · rw [hkey] at h
      cases h
    rw [hkey] at h
    dsimp only at h
    obtain ⟨key, hne, hkeyUsed, hkeyRun⟩ := scanString_spec (n := 0) hkey
    obtain ⟨ws, hws, hwsBalanced, -⟩ := skipWs_split l₁
    rcases hskip : skipWs l₁ with _ | ⟨c, l₂⟩
    · rw [hskip] at h
      cases h
    rw [hskip] at h hws
    dsimp only at h
    split_ifs at h with hcolon
    cases h
    have hpos := List.length_pos_iff.2 hne
    have hcolonBalanced : Balanced [ch ':'] := by decide
    refine ⟨(q :: key) ++ (ws ++ [ch ':']), by simp; omega, ?_, ?_⟩
    · rw [hkeyUsed, hws, not_not.1 hcolon]
      simp
    · rw [not_not.1 hquote]
      exact (balanced_quoted hkeyRun).append (hwsBalanced.append hcolonBalanced)

/-- **What is read is balanced.** -/
theorem scan_balanced (F : FloatText) (fuel : ℕ) : OnceBalanced F fuel ∧
    (∀ stack, UpTo (ch ']') (scanItems F fuel stack)) ∧ ∀ stack, UpTo (ch '}') (scanFields F fuel stack) := by
  induction fuel with
  | zero =>
    refine ⟨?_, ?_, ?_⟩
    · intro stack l v r h
      cases h
    · intro stack l xs r h
      cases h
    · intro stack l fs r h
      cases h
  | succ fuel ih =>
    obtain ⟨honce, hitems, hfields⟩ := ih
    refine ⟨onceBalanced_succ hitems hfields, ?_, ?_⟩
    · intro stack l xs r h
      rw [scanItems_succ] at h
      exact UpTo.sequence (hitems stack) honce h
    · intro stack l fs r h
      rw [scanFields_succ] at h
      rcases hkey : scanKey l with e | ⟨k, l₁⟩
      · rw [hkey] at h
        cases h
      rw [hkey] at h
      obtain ⟨used, -, hused, hbalanced⟩ := scanKey_spec hkey
      obtain ⟨ws, hws, hwsBalanced, -⟩ := skipWs_split l₁
      obtain ⟨body, hbody, hbodyBalanced⟩ := UpTo.sequence (hfields stack) honce h
      refine ⟨used ++ (ws ++ body), ?_, hbalanced.append (hwsBalanced.append hbodyBalanced)⟩
      rw [List.append_assoc, List.append_assoc, ← hbody, ← hws]
      exact hused

/-! ## The text of an object -/

/-- The text is a JSON object. -/
def IsObject (F : FloatText) (stack : ℕ) (t : Text) : Prop := ∃ fields, loadsText F stack t = .ok (.obj fields)

theorem loadsText_eq_ok {stack : ℕ} {t : Text} {v : Json} : loadsText F stack t = .ok v ↔
    ∃ rest, scanOnce F (t.length + 1) stack (skipWs t) = .ok (v, rest) ∧ skipWs rest = [] := by
  rw [loadsText]
  rcases scanOnce F (t.length + 1) stack (skipWs t) with e | ⟨x, rest⟩
  · simp
  · by_cases hrest : skipWs rest = []
    · simp [hrest]
    · simp [hrest]

theorem IsObject.split {stack : ℕ} {t : Text} (h : IsObject F stack t) : ∃ ws body ws',
    t = ws ++ (ch '{' :: (body ++ ch '}' :: ws')) ∧ (∀ c ∈ ws, whitespace c) ∧ Balanced body ∧
      ∀ c ∈ ws', whitespace c := by
  obtain ⟨fields, hloads⟩ := h
  obtain ⟨rest, hscan, hrest⟩ := loadsText_eq_ok.1 hloads
  obtain ⟨used, -, hused, -, hobj⟩ := (scan_balanced F _).1 hscan
  obtain ⟨body, rfl, hbody⟩ := hobj rfl
  obtain ⟨ws, hws, -, hwhite⟩ := skipWs_split t
  obtain ⟨ws', hws', -, hwhite'⟩ := skipWs_split rest
  rw [hrest, List.append_nil] at hws'
  refine ⟨ws, body, ws', ?_, hwhite, hbody, hwhite'⟩
  rw [hws, hused, hws', List.cons_append, List.append_assoc]
  rfl

theorem IsObject.balanced {stack : ℕ} {t : Text} (h : IsObject F stack t) : Balanced t := by
  obtain ⟨ws, body, ws', rfl, hws, hbody, hws'⟩ := h.split
  have hplain : ∀ {l : Text}, (∀ c ∈ l, whitespace c) → Balanced l :=
    fun hl => balanced_of_plain fun c hc => isPlain_of_whitespace (hl c hc)
  have hmiddle : Balanced (ch '{' :: (body ++ [ch '}'])) := hbody.bracket (.inl rfl) (.inl rfl)
  have happend := (hplain hws).append (hmiddle.append (hplain hws'))
  rwa [List.cons_append, List.append_assoc] at happend

theorem IsObject.head {stack : ℕ} {t : Text} (h : IsObject F stack t) :
    ∃ c t', t = c :: t' ∧ (whitespace c ∨ c = ch '{') := by
  obtain ⟨ws, body, ws', rfl, hws, -, -⟩ := h.split
  cases ws with
  | nil => exact ⟨_, _, rfl, .inr rfl⟩
  | cons c ws => exact ⟨c, _, rfl, .inl (hws c List.mem_cons_self)⟩

/-- **Out of a string and in one**: a text that is read in the two modes does not end in the same one. -/
theorem lexRun_flip {t : Text} {a b a' b' : ℕ} {m m' : LexMode}
    (hin : lexRun (a, .inString) t = some (a', m)) (hplain : lexRun (b, .plain) t = some (b', m')) :
    m = .inString ∧ m' = .plain ∨ m = .plain ∧ m' = .inString := by
  induction t generalizing a b a' b' m m' with
  | nil =>
    cases hin
    cases hplain
    exact .inl ⟨rfl, rfl⟩
  | cons c t ih =>
    rw [lexRun_cons, Option.bind_eq_some_iff] at hin hplain
    obtain ⟨⟨a₁, m₁⟩, hstep, hrun⟩ := hin
    obtain ⟨⟨b₁, m₁'⟩, hstep', hrun'⟩ := hplain
    by_cases hquote : c = ch '"'
    · -- the modes are exchanged
      rw [hquote] at hstep hstep'
      cases hstep
      cases hstep'
      obtain ⟨h₁, h₂⟩ | ⟨h₁, h₂⟩ := ih hrun' hrun
      · exact .inr ⟨h₂, h₁⟩
      · exact .inl ⟨h₂, h₁⟩
    have hbackslash : c ≠ ch '\\' := by
      rintro rfl
      cases hstep'
    rw [lexStep_inString hquote hbackslash] at hstep
    cases hstep
    have hmode : m₁' = .plain := by
      simp only [lexStep] at hstep'
      rw [if_neg hquote, if_neg hbackslash] at hstep'
      split_ifs at hstep'
      · cases hstep'
        rfl
      · cases b with
        | zero => cases hstep'
        | succ b =>
          cases hstep'
          rfl
      · cases hstep'
        rfl
    rw [hmode] at hrun'
    exact ih hrun hrun'

/-- Behind its first brace something is open in the text of an object, up to its last one. -/
theorem IsObject.open_of_split {stack : ℕ} {l t : Text} (h : IsObject F stack (l ++ t)) (hl : ¬∀ c ∈ l, whitespace c)
    (ht : ¬∀ c ∈ t, whitespace c) : lexRun (0, .plain) l ≠ some (0, .plain) := by
  obtain ⟨ws, body, ws', hsplit, hws, hbody, hws'⟩ := h.split
  obtain ⟨inner, outer, rfl, hinner⟩ : ∃ inner outer, l = ws ++ ch '{' :: inner ∧ body = inner ++ outer := by
    obtain ⟨a, ha, -⟩ | ⟨a, rfl, ha⟩ := List.append_eq_append_iff.1 hsplit
    · exact absurd (fun c hc => hws c (ha ▸ List.mem_append_left a hc)) hl
    cases a with
    | nil =>
      rw [List.append_nil] at hl
      exact absurd hws hl
    | cons c inner =>
      rw [List.cons_append, List.cons.injEq] at ha
      obtain ⟨rfl, ha⟩ := ha
      obtain ⟨b, rfl, hb⟩ | ⟨b, hb, -⟩ := List.append_eq_append_iff.1 ha
      · cases b with
        | nil => exact ⟨body, [], by rw [List.append_nil], by rw [List.append_nil]⟩
        | cons c' b =>
          rw [List.cons_append, List.cons.injEq] at hb
          exact absurd (fun c hc => hws' c (hb.2 ▸ List.mem_append_right b hc)) ht
      · exact ⟨inner, b, rfl, hb⟩
  have hwhite : Balanced ws := balanced_of_plain fun c hc => isPlain_of_whitespace (hws c hc)
  rw [hinner, Balanced, lexRun_append, Option.bind_eq_some_iff] at hbody
  obtain ⟨⟨n, m⟩, hrun, -⟩ := hbody
  have hopen : lexStep (0, .plain) (ch '{') = some (1, .plain) := rfl
  rw [lexRun_append, hwhite, Option.bind_some, lexRun_cons, hopen, Option.bind_some]
  have hdeeper := lexRun_add (k := 1) hrun
  rw [Nat.zero_add] at hdeeper
  rw [hdeeper]
  intro heq
  cases heq

/-- **No object is left** of the text of an object when something is cut off that is more than white space. -/
theorem IsObject.cut {stack stack' : ℕ} {l t : Text} (h : IsObject F stack (l ++ t)) (hl : ¬∀ c ∈ l, whitespace c) :
    ¬IsObject F stack' t := by
  intro ht
  have hrun := h.balanced
  rw [Balanced, lexRun_append, Option.bind_eq_some_iff] at hrun
  obtain ⟨⟨n, m⟩, hcut, hrest⟩ := hrun
  have hbalanced := ht.balanced
  cases m with
  | plain =>
    -- as many brackets are open as at the end
    have hend := hbalanced.at n
    rw [hrest] at hend
    cases hend
    refine h.open_of_split hl ?_ hcut
    intro hwhite
    obtain ⟨ws, body, ws', rfl, -⟩ := ht.split
    exact absurd (hwhite (ch '{') (by simp)) (by decide)
  | inString =>
    obtain ⟨hmode, -⟩ | ⟨-, hmode⟩ := lexRun_flip hrest hbalanced
    · cases hmode
    · cases hmode
  | escaped =>
    obtain ⟨c, t', rfl, hc⟩ := ht.head
    have hnone : lexStep (n, .escaped) c = none := by
      simp only [lexStep]
      rw [if_pos]
      simpa using hc
    rw [lexRun_cons, hnone] at hrest
    cases hrest

end

end Json

end Lib
