/-
  Beginnings of JSON texts.

  What has been read of a text is read again when more text follows (`scanOnce_append`), unless it is a number that
  goes on; and what nests too deep still does (`scanOnce_deep`).  So a beginning of the text of an object is JSON only
  if it is that object (`loadsText_prefix`), and it is never the nesting that it fails of (`not_recursionError_prefix`).
-/
import TideBot.Lib.JsonBrackets

namespace Lib

namespace Json

section
variable {F : FloatText} {l x : Text} {c : CodePoint} {fuel fuel' stack : ℕ}

/-! ## Strings -/

theorem skipWs_append (h : skipWs l ≠ []) : skipWs (l ++ x) = skipWs l ++ x := by
  rw [skipWs, List.dropWhile_append, if_neg]
  · rfl
  · rwa [List.isEmpty_iff]

theorem length_skipWs_le (l : Text) : (skipWs l).length ≤ l.length := (List.dropWhile_suffix _).length_le

theorem hex4_append {r : ℕ × Text} (h : hex4 l = some r) : hex4 (l ++ x) = some (r.1, r.2 ++ x) := by
  unfold hex4 at h
  split at h
  · rename_i a b c d l'
    simp only [Option.bind_eq_bind, Option.bind_eq_some_iff, Option.pure_def, Option.some.injEq] at h
    obtain ⟨va, ha, vb, hb, vc, hc, vd, hd, rfl⟩ := h
    simp only [List.cons_append, hex4, ha, hb, hc, hd]
    rfl
  · cases h

/-- A lone backslash at the end may be the beginning of a second escape sequence. -/
theorem lowSurrogate_append {high : ℕ} {r : CodePoint × Text} (h : lowSurrogate high l = some r) (hne : l ≠ [])
    (hlone : l ≠ [ch '\\']) : lowSurrogate high (l ++ x) = some (r.1, r.2 ++ x) := by
  unfold lowSurrogate at h
  split at h
  · rename_i b u l'
    rw [List.cons_append, List.cons_append, lowSurrogate]
    split_ifs at h ⊢ with hpair
    · simp only [Option.bind_eq_bind, Option.bind_eq_some_iff] at h ⊢
      obtain ⟨⟨low, rest⟩, hhex, h⟩ := h
      refine ⟨_, hex4_append hhex, ?_⟩
      dsimp only at h ⊢
      split_ifs at h ⊢
      · obtain rfl := Option.some.inj h
        rfl
      · obtain rfl := Option.some.inj h
        rfl
    · obtain rfl := Option.some.inj h
      rfl
  · rename_i hshort
    obtain rfl := Option.some.inj h
    rcases l with _ | ⟨b, _ | ⟨u, l'⟩⟩
    · exact absurd rfl hne
    · have hb : b ≠ ch '\\' := fun heq => hlone (by rw [heq])
      cases x with
      | nil => rfl
      | cons u x =>
        rw [List.singleton_append, lowSurrogate, if_neg fun hpair => hb hpair.2.2.1]
    · exact absurd rfl (hshort b u l')

theorem unescape_append {r : CodePoint × Text} (h : unescape l = some r) (hne : r.2 ≠ []) (hlone : r.2 ≠ [ch '\\']) :
    unescape (l ++ x) = some (r.1, r.2 ++ x) := by
  cases l with
  | nil => cases h
  | cons e l =>
    rw [List.cons_append]
    rw [unescape] at h ⊢
    split_ifs at h ⊢
    · cases h
      rfl
    · cases h
      rfl
    · cases h
      rfl
    · cases h
      rfl
    · cases h
      rfl
    · cases h
      rfl
    · obtain ⟨r', hhex, hlow⟩ := Option.bind_eq_some_iff.1 h
      rw [hex4_append hhex, Option.bind_some]
      refine lowSurrogate_append hlow ?_ ?_
      · intro hnil
        rw [hnil] at hlow
        cases hlow
        exact hne rfl
      · intro hback
        rw [hback] at hlow
        cases hlow
        exact hlone rfl

/-- **A string** is read up to its closing quote, whatever follows. -/
theorem scanString_append {r : Text × Text} (h : scanString fuel l = some r) (hfuel : fuel ≤ fuel') :
    scanString fuel' (l ++ x) = some (r.1, r.2 ++ x) := by
  induction fuel generalizing l r fuel' with
  | zero => cases h
  | succ fuel ih =>
    obtain ⟨fuel', rfl⟩ := Nat.exists_eq_add_of_le' (Nat.one_le_of_lt hfuel)
    have hle : fuel ≤ fuel' := Nat.succ_le_succ_iff.1 hfuel
    cases l with
    | nil => cases h
    | cons c l =>
      rw [List.cons_append]
      rw [scanString] at h ⊢
      split_ifs at h ⊢
      · cases h
        rfl
      · obtain ⟨e, hunescape, h⟩ := Option.bind_eq_some_iff.1 h
        obtain ⟨r', hr', rfl⟩ := Option.map_eq_some_iff.1 h
        have hne : e.2 ≠ [] := by
          intro hnil
          rw [hnil] at hr'
          cases fuel <;> cases hr'
        have hlone : e.2 ≠ [ch '\\'] := by
          intro hback
          rw [hback] at hr'
          cases fuel <;> cases hr'
        rw [unescape_append hunescape hne hlone, Option.bind_some, ih hr' hle]
        rfl
      · obtain ⟨r', hr', rfl⟩ := Option.map_eq_some_iff.1 h
        rw [ih hr' hle]
        rfl

/-! ## Numbers and constants -/

/-- What follows a number ends it. -/
def Delimited (l : Text) : Prop := ∃ c l', l = c :: l' ∧ isNumberChar c = false

theorem integerDigits_cons :
    integerDigits (c :: l) = ((if c = ch '-' then l else c :: l).takeWhile isDigit).length := by
  by_cases hminus : c = ch '-'
  · simp [integerDigits, hminus]
  · simp [integerDigits, hminus]

theorem integerDigits_noNumber {u : Text} (hne : u ≠ []) (h : NoNumber l) :
    integerDigits (u ++ l) = integerDigits u := by
  cases u with
  | nil => exact absurd rfl hne
  | cons c u =>
    rw [List.cons_append, integerDigits_cons, integerDigits_cons]
    split_ifs
    · rw [takeWhile_noNumber u h]
    · rw [← List.cons_append, takeWhile_noNumber (c :: u) h]

theorem scanNumber_append {r : Json × Text} (h : scanNumber F l = some r) (hr : Delimited r.2) :
    scanNumber F (l ++ x) = some (r.1, r.2 ++ x) ∧ integerDigits (l ++ x) = integerDigits l := by
  obtain ⟨c, t, hrest, hc⟩ := hr
  have hsplit : l.takeWhile isNumberChar ++ l.dropWhile isNumberChar = l := List.takeWhile_append_dropWhile
  have hscan := h
  rw [← hsplit, scanNumber_noNumber F _ (dropWhile_noNumber l)] at hscan
  obtain ⟨r', hr', rfl⟩ := Option.map_eq_some_iff.1 hscan
  obtain ⟨⟨used, hused⟩, hlt, -⟩ := scanNumber_head hr'
  -- nothing of the number is left
  have hnil : r'.2 = [] := by
    cases hr₂ : r'.2 with
    | nil => rfl
    | cons d t' =>
      rw [hr₂] at hrest hused
      obtain rfl : d = c := (List.cons.inj hrest).1
      have hd : isNumberChar d = true := by
        refine List.mem_takeWhile_imp (l := l) ?_
        rw [← hused]
        simp
      rw [hd] at hc
      cases hc
  have hdrop : l.dropWhile isNumberChar = c :: t := by
    rw [← hrest, hnil]
    rfl
  have hno : ∀ y, NoNumber (l.dropWhile isNumberChar ++ y) := by
    intro y d hd
    rw [hdrop] at hd
    obtain rfl := Option.some.inj hd
    exact hc
  have hne : l.takeWhile isNumberChar ≠ [] := by
    intro hempty
    rw [hempty] at hlt
    exact absurd hlt (Nat.not_lt_zero _)
  have hfirst : l ++ x = l.takeWhile isNumberChar ++ (l.dropWhile isNumberChar ++ x) := by
    rw [← List.append_assoc, hsplit]
  constructor
  · rw [hfirst, scanNumber_noNumber F _ (hno x), hr', Option.map_some, hnil]
    rfl
  · rw [hfirst, integerDigits_noNumber hne (hno x)]
    conv_rhs => rw [← hsplit]
    rw [integerDigits_noNumber hne (dropWhile_noNumber l)]

theorem isPrefixOf_cons_of_ne {a b : CodePoint} {t : Text} (h : a ≠ b) : (a :: t).isPrefixOf (b :: l) = false := by
  rw [List.isPrefixOf_cons_cons, beq_eq_false_iff_ne.2 h, Bool.false_and]

theorem isPrefixOf_append_self (t l : Text) : t.isPrefixOf (t ++ l) = true :=
  List.isPrefixOf_iff_prefix.2 (List.prefix_append t l)

theorem scanConstant_head {r : Json × Text} (h : scanConstant F l = .ok r) :
    ∃ c l', l = c :: l' ∧ (isDigit c ∨ c ∈ [ch '-', ch 'N', ch 'I']) := by
  obtain ⟨t, ht, hprefix, -⟩ | ⟨hnumber, -⟩ := scanConstant_cases h
  · rw [split_of_isPrefixOf hprefix]
    fin_cases ht
    · exact ⟨_, _, rfl, .inr (by decide)⟩
    · exact ⟨_, _, rfl, .inr (by decide)⟩
    · exact ⟨_, _, rfl, .inr (by decide)⟩
  · obtain ⟨-, -, sign, d, t, rfl, hd, rfl | rfl⟩ := scanNumber_head hnumber
    · exact ⟨d, t, rfl, .inl hd⟩
    · exact ⟨_, _, rfl, .inr (by decide)⟩

theorem scanConstant_append {r : Json × Text} (h : scanConstant F l = .ok r) (hr : Delimited r.2) :
    scanConstant F (l ++ x) = .ok (r.1, r.2 ++ x) := by
  obtain ⟨t, ht, hprefix, rfl⟩ | ⟨hnumber, hdigits⟩ := scanConstant_cases h
  · have hl : l ++ x = t ++ (l.drop t.length ++ x) := by
      rw [← List.append_assoc, ← split_of_isPrefixOf hprefix]
    have hself := isPrefixOf_append_self t (l.drop t.length ++ x)
    rw [hl]
    fin_cases ht
    · unfold scanConstant
      rw [if_pos hself]
      rfl
    · unfold scanConstant
      rw [if_neg (by exact Bool.false_ne_true), if_pos hself]
      rfl
    · unfold scanConstant
      rw [if_neg (by exact Bool.false_ne_true), if_neg (by exact Bool.false_ne_true), if_pos hself]
      rfl
  · obtain ⟨hscan, hlength⟩ := scanNumber_append (x := x) hnumber hr
    have hnone : (Text.lit "NaN").isPrefixOf (l ++ x) = false ∧ (Text.lit "Infinity").isPrefixOf (l ++ x) = false ∧
        (Text.lit "-Infinity").isPrefixOf (l ++ x) = false := by
      obtain ⟨-, -, sign, d, t, rfl, hd, rfl | rfl⟩ := scanNumber_head hnumber
      · have hne : ∀ e : CodePoint, isDigit e = false → e ≠ d := by
          rintro e he rfl
          rw [hd] at he
          cases he
        exact ⟨isPrefixOf_cons_of_ne (hne _ (by decide)), isPrefixOf_cons_of_ne (hne _ (by decide)),
          isPrefixOf_cons_of_ne (hne _ (by decide))⟩
      · have hne : ch 'I' ≠ d := by
          rintro rfl
          cases hd
        have hrest : (ch 'I' :: Text.lit "nfinity").isPrefixOf (d :: (t ++ x)) = false := isPrefixOf_cons_of_ne hne
        exact ⟨rfl, rfl, hrest⟩
    unfold scanConstant
    rw [if_neg (by simp [hnone.1]), if_neg (by simp [hnone.2.1]), if_neg (by simp [hnone.2.2]), hscan]
    have hsome := scanNumber_number hnumber
    obtain ⟨v, rest⟩ := r
    cases v with
    | int n =>
      have hfew := hdigits n rest rfl
      dsimp only
      rw [hlength, if_neg (Nat.not_lt.2 hfew)]
    | float q => rfl
    | null | bool | str | arr | obj => cases hsome

theorem scanConstant_ne_recursionError : scanConstant F l ≠ .error .recursionError := by
  unfold scanConstant
  intro h
  split_ifs at h
  all_goals
    split at h
    all_goals cases h

/-! ## Values -/

section
variable {α β : Type} {res : Except LoadError (α × Text)}

/-- What was read, with more text behind it. -/
def behind (x : Text) (res : Except LoadError (α × Text)) : Except LoadError (α × Text) :=
  res.map fun r => (r.1, r.2 ++ x)

/-- It was read to its end, or nests too deep. -/
def Settled {γ : Type} (res : Except LoadError γ) : Prop := ∀ e, res = .error e → e = .recursionError

/-- Is there enough fuel?  As much as there was, or more than what is read is long. -/
def Enough (fuel fuel' : ℕ) (l : Text) (res : Except LoadError (α × Text)) : Prop :=
  fuel ≤ fuel' ∨ ∃ r, res = .ok r ∧ l.length < fuel' + r.2.length

theorem not_settled_decodeError {γ : Type} : ¬ Settled (.error .decodeError : Except LoadError γ) := by
  intro h
  cases h _ rfl

theorem behind_map (f : α → β) :
    behind x (res.map fun r => (f r.1, r.2)) = (behind x res).map fun r => (f r.1, r.2) := by
  cases res <;> rfl

theorem settled_map {γ δ : Type} {y : Except LoadError γ} {f : γ → δ} : Settled (y.map f) ↔ Settled y := by
  cases y with
  | error e => simp [Settled, Except.map]
  | ok a => simp [Settled, Except.map]

theorem Enough.pos (h : Enough (fuel + 1) fuel' l res) (hlt : ∀ r, res = .ok r → r.2.length < l.length) :
    ∃ n, fuel' = n + 1 := by
  refine Nat.exists_eq_add_of_le' ?_
  obtain h | ⟨r, hr, h⟩ := h
  · omega
  · have := hlt r hr
    omega

theorem Enough.next {n : ℕ} {l' : Text} {res' : Except LoadError (β × Text)} (h : Enough (fuel + 1) (n + 1) l res)
    (hres : ∀ r, res = .ok r → ∃ r', res' = .ok r' ∧ l'.length + r.2.length < l.length + r'.2.length) :
    Enough fuel n l' res' := by
  obtain h | ⟨r, hr, h⟩ := h
  · exact .inl (Nat.succ_le_succ_iff.1 h)
  · obtain ⟨r', hr', hlt⟩ := hres r hr
    exact .inr ⟨r', hr', by omega⟩

end

/-- A value is read again whatever follows, or still nests too deep, with enough fuel; a number must have ended. -/
def OnceAgain (F : FloatText) (fuel : ℕ) : Prop :=
  ∀ {stack : ℕ} {l : Text}, Settled (scanOnce F fuel stack l) →
    (∀ v r, scanOnce F fuel stack l = .ok (v, r) → v.number.isSome → Delimited r) → ∀ {x : Text} {fuel' : ℕ},
      Enough fuel fuel' l (scanOnce F fuel stack l) → scanOnce F fuel' stack (l ++ x) = behind x (scanOnce F fuel stack l)

/-- So is what is in a sequence. -/
def SeqAgain {α : Type} (scan : (fuel : ℕ) → Text → Except LoadError (List α × Text)) (fuel : ℕ) : Prop :=
  ∀ {l : Text}, Settled (scan fuel l) → ∀ {x : Text} {fuel' : ℕ}, Enough fuel fuel' l (scan fuel l) →
    scan fuel' (l ++ x) = behind x (scan fuel l)

theorem length_lt_of_upTo {α : Type} {close : CodePoint} {next : Text → Except LoadError (List α × Text)}
    (h : UpTo close next) (r : List α × Text) (hr : next l = .ok r) : r.2.length < l.length := by
  obtain ⟨body, rfl, -⟩ := h hr
  simp
  omega

theorem length_scanOnce (r : Json × Text) (h : scanOnce F fuel stack l = .ok r) : r.2.length < l.length := by
  obtain ⟨used, hne, rfl, -⟩ := (scan_balanced F fuel).1 h
  have hpos := List.length_pos_iff.2 hne
  simp
  omega

theorem container_append {α : Type} {close : CodePoint} {value : List α → Json}
    {next next' : Text → Except LoadError (List α × Text)} (h : Settled (container stack close value next l))
    (hnil : ¬Settled (next [])) (hnext : Settled (next (skipWs l)) →
      container stack close value next l = (next (skipWs l)).map (fun r => (value r.1, r.2)) →
        next' (skipWs l ++ x) = behind x (next (skipWs l))) :
    container stack close value next' (l ++ x) = behind x (container stack close value next l) := by
  by_cases hstack : stack = 0
  · simp only [container, if_pos hstack]
    rfl
  have hskip : skipWs l ≠ [] := by
    intro hl
    rw [container, if_neg hstack, hl, if_neg (by simp), settled_map] at h
    exact hnil h
  by_cases hempty : (skipWs l).head? = some close
  · simp only [container, if_neg hstack, skipWs_append hskip, List.head?_append_of_ne_nil _ hskip, if_pos hempty]
    rw [List.tail_append_of_ne_nil hskip]
    rfl
  · have heq : container stack close value next l = (next (skipWs l)).map fun r => (value r.1, r.2) := by
      rw [container, if_neg hstack, if_neg hempty]
    rw [heq, settled_map] at h
    rw [heq, behind_map, ← hnext h heq, container, if_neg hstack, skipWs_append hskip,
      List.head?_append_of_ne_nil _ hskip, if_neg hempty]

theorem onceAgain_succ (hitems : ∀ stack, SeqAgain (fun fuel => scanItems F fuel stack) fuel)
    (hfields : ∀ stack, SeqAgain (fun fuel => scanFields F fuel stack) fuel) : OnceAgain F (fuel + 1) := by
  intro stack l h hnumber x fuel' henough
  obtain ⟨n, rfl⟩ := henough.pos length_scanOnce
  cases l with
  | nil => exact absurd h not_settled_decodeError
  | cons c l =>
    have hle := length_skipWs_le l
    rw [List.cons_append]
    rw [scanOnce_cons] at h hnumber henough
    rw [scanOnce_cons, scanOnce_cons]
    by_cases hquote : c = ch '"'
    · rw [if_pos hquote] at h
      rw [if_pos hquote, if_pos hquote]
      rcases hscan : scanString (l.length + 1) l with _ | s
      · rw [hscan] at h
        exact absurd h not_settled_decodeError
      · rw [scanString_append hscan (by simp)]
        rfl
    simp only [if_neg hquote] at h hnumber henough ⊢
    by_cases hbrace : c = ch '{'
    · simp only [if_pos hbrace] at h henough ⊢
      refine container_append h (fun hnil => ?_) fun hsettled heq => hfields _ hsettled (henough.next fun r hr => ?_)
      · cases fuel <;> exact not_settled_decodeError hnil
      · rw [heq] at hr
        obtain ⟨r', hr', rfl⟩ := map_eq_ok.1 hr
        exact ⟨r', hr', by simp; omega⟩
    simp only [if_neg hbrace] at h hnumber henough ⊢
    by_cases hbracket : c = ch '['
    · simp only [if_pos hbracket] at h henough ⊢
      refine container_append h (fun hnil => ?_) fun hsettled heq => hitems _ hsettled (henough.next fun r hr => ?_)
      · cases fuel with
        | zero => exact not_settled_decodeError hnil
        | succ fuel => cases fuel <;> exact not_settled_decodeError hnil
      · rw [heq] at hr
        obtain ⟨r', hr', rfl⟩ := map_eq_ok.1 hr
        exact ⟨r', hr', by simp; omega⟩
    simp only [if_neg hbracket] at h hnumber ⊢
    -- the words differ in their first letters
    have hword : ∀ t : Text, (∃ e ∈ t.head?, e ≠ c) → ¬t.isPrefixOf (c :: (l ++ x)) := by
      rintro t ⟨e, he, hne⟩
      obtain ⟨t, rfl⟩ := List.head?_eq_some_iff.1 he
      rw [isPrefixOf_cons_of_ne hne]
      exact Bool.false_ne_true
    have hlonger : ∀ {t : Text}, t.isPrefixOf (c :: l) → t.isPrefixOf (c :: (l ++ x)) := by
      intro t ht
      rw [List.isPrefixOf_iff_prefix] at ht ⊢
      exact ht.trans (List.prefix_append (c :: l) x)
    have hdrop : ∀ {t : Text} (k : ℕ), t.isPrefixOf (c :: l) → t.length = k + 1 → (l ++ x).drop k = l.drop k ++ x := by
      intro t k ht hk
      have hlength := (List.isPrefixOf_iff_prefix.1 ht).length_le
      rw [hk, List.length_cons] at hlength
      exact List.drop_append_of_le_length (Nat.succ_le_succ_iff.1 hlength)
    have hfirst : ∀ {e : CodePoint} {t : Text}, (e :: t).isPrefixOf (c :: l) → c = e := by
      intro e t ht
      obtain ⟨rest, hrest⟩ := List.isPrefixOf_iff_prefix.1 ht
      exact (List.cons.inj hrest).1.symm
    by_cases hnull : (Text.lit "null").isPrefixOf (c :: l)
    · rw [if_pos hnull, if_pos (hlonger hnull), hdrop 3 hnull rfl]
      rfl
    by_cases htrue : (Text.lit "true").isPrefixOf (c :: l)
    · rw [if_neg hnull, if_pos htrue, if_neg (hword (.lit "null") ⟨_, rfl, by rw [hfirst htrue]; decide⟩),
        if_pos (hlonger htrue), hdrop 3 htrue rfl]
      rfl
    by_cases hfalse : (Text.lit "false").isPrefixOf (c :: l)
    · rw [if_neg hnull, if_neg htrue, if_pos hfalse,
        if_neg (hword (.lit "null") ⟨_, rfl, by rw [hfirst hfalse]; decide⟩),
        if_neg (hword (.lit "true") ⟨_, rfl, by rw [hfirst hfalse]; decide⟩), if_pos (hlonger hfalse), hdrop 4 hfalse rfl]
      rfl
    rw [if_neg hnull, if_neg htrue, if_neg hfalse] at h
    simp only [if_neg hnull, if_neg htrue, if_neg hfalse] at hnumber ⊢
    rcases hconstant : scanConstant F (c :: l) with e | ⟨v, r⟩
    · rw [hconstant] at h
      cases h e rfl
      exact absurd hconstant scanConstant_ne_recursionError
    have hne : ∀ e : CodePoint, isDigit e = false → e ∉ [ch '-', ch 'N', ch 'I'] → e ≠ c := by
      rintro e hdigit hother rfl
      obtain ⟨c', l', heq, hhead⟩ := scanConstant_head hconstant
      obtain ⟨rfl, -⟩ := List.cons.inj heq
      obtain hhead | hhead := hhead
      · rw [hdigit] at hhead
        cases hhead
      · exact hother hhead
    rw [if_neg (hword (.lit "null") ⟨_, rfl, hne _ (by decide) (by decide)⟩),
      if_neg (hword (.lit "true") ⟨_, rfl, hne _ (by decide) (by decide)⟩),
      if_neg (hword (.lit "false") ⟨_, rfl, hne _ (by decide) (by decide)⟩), ← List.cons_append]
    have hsome : v.number.isSome := by
      obtain ⟨t, -, -, heq⟩ | ⟨hscan, -⟩ := scanConstant_cases hconstant
      · obtain ⟨rfl, -⟩ := Prod.mk.inj heq
        rfl
      · exact scanNumber_number hscan
    exact scanConstant_append hconstant (hnumber v r hconstant hsome)

theorem delimited_of_skipWs {t : Text} (h : skipWs l = c :: t) (hc : isNumberChar c = false) : Delimited l := by
  cases l with
  | nil => cases h
  | cons d l =>
    rcases hd : whitespace d with _ | _
    · rw [skipWs, List.dropWhile_cons_of_neg (by simp [hd])] at h
      obtain ⟨rfl, -⟩ := List.cons.inj h
      exact ⟨d, l, rfl, hc⟩
    · refine ⟨d, l, rfl, ?_⟩
      rw [whitespace, decide_eq_true_eq] at hd
      obtain rfl | rfl | rfl | rfl := hd <;> decide

theorem afterValue_append {α : Type} {close : CodePoint} {a : α} {next next' : Text → Except LoadError (List α × Text)}
    (hclose : isNumberChar close = false) (h : Settled (afterValue close a next l)) (hnil : ¬Settled (next []))
    (hnext : ∀ l', l'.length < l.length → Settled (next l') →
      afterValue close a next l = (next l').map (fun r => (a :: r.1, r.2)) → next' (l' ++ x) = behind x (next l')) :
    Delimited l ∧ afterValue close a next' (l ++ x) = behind x (afterValue close a next l) := by
  have hle := length_skipWs_le l
  rcases hskip : skipWs l with _ | ⟨c, l'⟩
  · rw [afterValue, hskip] at h
    exact absurd h not_settled_decodeError
  have hmore : skipWs (l ++ x) = c :: (l' ++ x) := by
    rw [skipWs_append (by rw [hskip]; exact List.cons_ne_nil _ _), hskip, List.cons_append]
  rw [hskip, List.length_cons] at hle
  by_cases hc : c = close
  · refine ⟨delimited_of_skipWs hskip (by rw [hc]; exact hclose), ?_⟩
    simp only [afterValue, hskip, hmore, if_pos hc]
    rfl
  by_cases hcomma : c = ch ','
  · have heq : afterValue close a next l = (next (skipWs l')).map fun r => (a :: r.1, r.2) := by
      simp only [afterValue, hskip, if_neg hc, if_pos hcomma]
    rw [heq, settled_map] at h
    have hskip' : skipWs l' ≠ [] := by
      intro hl
      rw [hl] at h
      exact hnil h
    have hle' := length_skipWs_le l'
    refine ⟨delimited_of_skipWs hskip (by rw [hcomma]; decide), ?_⟩
    rw [heq, behind_map, ← hnext _ (by omega) h heq]
    simp only [afterValue, hmore, if_neg hc, if_pos hcomma, skipWs_append hskip']
  · simp only [afterValue, hskip, if_neg hc, if_neg hcomma] at h
    exact absurd h not_settled_decodeError

/-- **A sequence from a value on** is read again if what comes behind the value is. -/
theorem sequence_append {α : Type} {close : CodePoint} {a : Json → α}
    (scan : (fuel : ℕ) → Text → Except LoadError (List α × Text)) {l₀ : Text} {n : ℕ} (honce : OnceAgain F fuel)
    (hscan : SeqAgain scan fuel) (hlength : UpTo close (scan fuel)) (hnil : ¬Settled (scan fuel []))
    (hclose : isNumberChar close = false) (h : Settled (sequence F fuel stack close a (scan fuel) l))
    (hle : l.length ≤ l₀.length) (henough : Enough (fuel + 1) (n + 1) l₀ (sequence F fuel stack close a (scan fuel) l)) :
    sequence F n stack close a (scan n) (l ++ x) = behind x (sequence F fuel stack close a (scan fuel) l) := by
  rcases hv : scanOnce F fuel stack l with e | ⟨v, l₁⟩
  · have heq : sequence F fuel stack close a (scan fuel) l = .error e := by
      rw [sequence, hv]
      rfl
    rw [heq] at h henough
    have hagain : scanOnce F n stack (l ++ x) = behind x (scanOnce F fuel stack l) :=
      honce (by rw [hv]; exact fun e' he' => h e' (by cases he'; rfl)) (by rw [hv]; rintro v r ⟨⟩)
        (henough.next (by rintro r ⟨⟩))
    rw [heq, sequence, hagain, hv]
    rfl
  · have heq : sequence F fuel stack close a (scan fuel) l = afterValue close (a v) (scan fuel) l₁ := by
      rw [sequence, hv]
      rfl
    rw [heq] at h henough
    have hlt := length_scanOnce _ hv
    dsimp only at hlt
    obtain ⟨hdelimited, hafter⟩ : Delimited l₁ ∧
        afterValue close (a v) (scan n) (l₁ ++ x) = behind x (afterValue close (a v) (scan fuel) l₁) := by
      refine afterValue_append hclose h hnil fun l' hl' hsettled hres => hscan hsettled (henough.next fun r hr => ?_)
      rw [hres] at hr
      obtain ⟨r', hr', rfl⟩ := map_eq_ok.1 hr
      exact ⟨r', hr', by dsimp only; omega⟩
    have hagain : scanOnce F n stack (l ++ x) = behind x (scanOnce F fuel stack l) := by
      refine honce (by rw [hv]; rintro e ⟨⟩) ?_ (henough.next fun r hr => ?_)
      · rintro v' r hr -
        cases hv.symm.trans hr
        exact hdelimited
      · have hlt' := length_lt_of_upTo (UpTo.afterValue hlength) r hr
        exact ⟨(v, l₁), hv, by dsimp only; omega⟩
    rw [heq, ← hafter, sequence, hagain, hv]
    rfl

theorem scanKey_ne_recursionError : scanKey l ≠ .error .recursionError := by
  intro h
  cases l with
  | nil => cases h
  | cons q l =>
    rw [scanKey] at h
    split_ifs at h
    · cases h
    split at h
    · cases h
    split at h
    · cases h
    split_ifs at h
    cases h

theorem scanKey_append {r : Text × Text} (h : scanKey l = .ok r) : scanKey (l ++ x) = .ok (r.1, r.2 ++ x) := by
  cases l with
  | nil => cases h
  | cons q l =>
    rw [List.cons_append]
    rw [scanKey] at h ⊢
    split_ifs at h ⊢
    rcases hkey : scanString (l.length + 1) l with _ | ⟨k, l₁⟩
    · rw [hkey] at h
      cases h
    rw [hkey] at h
    rw [scanString_append hkey (by simp)]
    dsimp only at h ⊢
    rcases hskip : skipWs l₁ with _ | ⟨c, l₂⟩
    · rw [hskip] at h
      cases h
    rw [hskip] at h
    rw [skipWs_append (by rw [hskip]; exact List.cons_ne_nil _ _), hskip, List.cons_append]
    dsimp only at h ⊢
    split_ifs at h ⊢
    cases h
    rfl

/-- **What is read is read again**, whatever follows, and what nests too deep still does. -/
theorem scan_again (F : FloatText) (fuel : ℕ) : OnceAgain F fuel ∧
    (∀ stack, SeqAgain (fun fuel => scanItems F fuel stack) fuel) ∧
    ∀ stack, SeqAgain (fun fuel => scanFields F fuel stack) fuel := by
  induction fuel with
  | zero =>
    refine ⟨?_, ?_, ?_⟩
    · intro stack l h
      exact absurd h not_settled_decodeError
    · intro stack l h
      exact absurd h not_settled_decodeError
    · intro stack l h
      exact absurd h not_settled_decodeError
  | succ fuel ih =>
    obtain ⟨honce, hitems, hfields⟩ := ih
    have hbalanced := (scan_balanced F fuel).2
    have hsucc := (scan_balanced F (fuel + 1)).2
    have hnil : ∀ stack, ¬Settled (scanOnce F fuel stack []) := by
      intro stack h
      cases fuel <;> exact not_settled_decodeError h
    refine ⟨onceAgain_succ hitems hfields, ?_, ?_⟩
    · intro stack l h x fuel' henough
      obtain ⟨n, rfl⟩ := henough.pos (length_lt_of_upTo (hsucc.1 stack))
      dsimp only at h henough ⊢
      rw [scanItems_succ] at h henough
      rw [scanItems_succ, scanItems_succ]
      refine sequence_append (fun fuel => scanItems F fuel stack) honce (hitems stack) (hbalanced.1 stack)
        (fun hsettled => ?_) ?_ h le_rfl henough
      swap
      · decide
      cases fuel with
      | zero => exact not_settled_decodeError hsettled
      | succ fuel => cases fuel <;> exact not_settled_decodeError hsettled
    · intro stack l h x fuel' henough
      obtain ⟨n, rfl⟩ := henough.pos (length_lt_of_upTo (hsucc.2 stack))
      dsimp only at h henough ⊢
      rw [scanFields_succ] at h henough
      rw [scanFields_succ, scanFields_succ]
      rcases hkey : scanKey l with e | ⟨k, l₁⟩
      · rw [hkey] at h
        cases h e rfl
        exact absurd hkey scanKey_ne_recursionError
      obtain ⟨used, hused, rfl, -⟩ := scanKey_spec hkey
      rw [hkey] at h henough
      change Settled (sequence F fuel stack (ch '}') (fun v => (k, v)) (scanFields F fuel stack) (skipWs l₁)) at h
      rw [scanKey_append hkey]
      have hle := length_skipWs_le l₁
      have hskip : skipWs l₁ ≠ [] := by
        intro hl
        rw [hl, sequence] at h
        cases fuel <;> exact not_settled_decodeError h
      change sequence F n stack (ch '}') (fun v => (k, v)) (scanFields F n stack) (skipWs (l₁ ++ x)) = _
      rw [skipWs_append hskip]
      refine sequence_append (fun fuel => scanFields F fuel stack) honce (hfields stack) (hbalanced.2 stack)
        (fun hsettled => ?_) ?_ h ?_ henough
      · cases fuel <;> exact not_settled_decodeError hsettled
      · decide
      · rw [List.length_append]
        omega

theorem scanOnce_append {v : Json} {r : Text} (h : scanOnce F fuel stack l = .ok (v, r))
    (hnumber : v.number.isSome → Delimited r) (henough : fuel ≤ fuel' ∨ l.length < fuel' + r.length) :
    scanOnce F fuel' stack (l ++ x) = .ok (v, r ++ x) := by
  have hagain : scanOnce F fuel' stack (l ++ x) = behind x (scanOnce F fuel stack l) := by
    refine (scan_again F fuel).1 (by rw [h]; rintro e ⟨⟩) ?_ (henough.imp id fun hlt => ⟨_, h, hlt⟩)
    intro v' r' hr
    cases h.symm.trans hr
    exact hnumber
  rw [hagain, h]
  rfl

theorem scanOnce_deep (h : scanOnce F fuel stack l = .error .recursionError) (hfuel : fuel ≤ fuel') :
    scanOnce F fuel' stack (l ++ x) = .error .recursionError := by
  have hagain : scanOnce F fuel' stack (l ++ x) = behind x (scanOnce F fuel stack l) := by
    refine (scan_again F fuel).1 ?_ (by rw [h]; rintro v r ⟨⟩) (.inl hfuel)
    rw [h]
    rintro e ⟨⟩
    rfl
  rw [hagain, h]
  rfl

/-! ## Texts -/

variable {t : Text} {v : Json} {fields : List (Text × Json)}

theorem skipWs_whitespace {ws : Text} (h : ∀ c ∈ ws, whitespace c) : skipWs (ws ++ t) = skipWs t := by
  induction ws with
  | nil => rfl
  | cons c ws ih =>
    rw [List.forall_mem_cons] at h
    rw [List.cons_append, skipWs, List.dropWhile_cons_of_pos h.1]
    exact ih h.2

/-- **White space in front** makes no difference to an object. -/
theorem loadsText_whitespace {ws : Text} (h : ∀ c ∈ ws, whitespace c) :
    loadsText F stack (ws ++ t) = .ok (.obj fields) ↔ loadsText F stack t = .ok (.obj fields) := by
  have hstable : ∀ {n m : ℕ} {r : Text}, scanOnce F n stack (skipWs t) = .ok (.obj fields, r) → t.length + 1 ≤ m →
      scanOnce F m stack (skipWs t) = .ok (.obj fields, r) := by
    intro n m r hscan hm
    have hle := length_skipWs_le t
    have hscan' : scanOnce F m stack (skipWs t ++ []) = .ok (.obj fields, r ++ []) :=
      scanOnce_append hscan (by intro hnumber; cases hnumber) (.inr (by omega))
    rwa [List.append_nil, List.append_nil] at hscan'
  rw [loadsText_eq_ok, loadsText_eq_ok, skipWs_whitespace h]
  constructor
  · rintro ⟨r, hscan, hr⟩
    exact ⟨r, hstable hscan le_rfl, hr⟩
  · rintro ⟨r, hscan, hr⟩
    exact ⟨r, hstable hscan (by simp), hr⟩

theorem loadsText_brace (h : loadsText F stack t = .ok v) (hbrace : (skipWs t).head? = some (ch '{')) : v.isObj := by
  obtain ⟨r, hscan, -⟩ := loadsText_eq_ok.1 h
  cases ht : skipWs t with
  | nil =>
    rw [ht] at hbrace
    cases hbrace
  | cons c l =>
    rw [ht] at hbrace hscan
    obtain rfl := Option.some.inj hbrace
    have hquote : ch '{' ≠ ch '"' := by decide
    rw [scanOnce, if_neg hquote, if_pos rfl] at hscan
    split_ifs at hscan
    · cases hscan
      rfl
    · rw [map_eq_ok] at hscan
      obtain ⟨fs, -, hr⟩ := hscan
      obtain ⟨rfl, -⟩ := Prod.mk.inj hr
      rfl

/-- A beginning of the text of an object, if it is more than white space, begins with a brace. -/
theorem IsObject.brace (h : IsObject F stack (t ++ x)) (ht : skipWs t ≠ []) : (skipWs t).head? = some (ch '{') := by
  obtain ⟨ws, body, ws', hsplit, hws, -⟩ := h.split
  have hskip : skipWs (t ++ x) = ch '{' :: (body ++ ch '}' :: ws') := by
    rw [hsplit, skipWs_whitespace hws, skipWs, List.dropWhile_cons_of_neg (by decide)]
  rw [skipWs_append ht] at hskip
  have hhead : (skipWs t ++ x).head? = (skipWs t).head? := List.head?_append_of_ne_nil _ ht
  rw [← hhead, hskip]
  rfl

/-- **A beginning of the text of an object** is JSON only if it is the object. -/
theorem loadsText_prefix (h : loadsText F stack (t ++ x) = .ok (.obj fields)) (ht : loadsText F stack t = .ok v) :
    v = .obj fields := by
  obtain ⟨r, hscan, hr⟩ := loadsText_eq_ok.1 ht
  have hskip : skipWs t ≠ [] := by
    intro hnil
    rw [hnil] at hscan
    cases hscan
  have hobj : IsObject F stack (t ++ x) := ⟨fields, h⟩
  have hv := loadsText_brace ht (hobj.brace hskip)
  obtain ⟨r', hscan', -⟩ := loadsText_eq_ok.1 h
  have hnumber : v.number.isSome → Delimited r := by
    intro hsome
    rw [isObj_of_number hsome] at hv
    cases hv
  have hstable : scanOnce F ((t ++ x).length + 1) stack (skipWs t ++ x) = .ok (v, r ++ x) :=
    scanOnce_append hscan hnumber (.inl (by simp))
  rw [← skipWs_append (x := x) hskip, hscan'] at hstable
  cases hstable
  rfl

/-- **It never nests too deep.** -/
theorem not_recursionError_prefix (h : IsObject F stack (t ++ x)) : loadsText F stack t ≠ .error .recursionError := by
  intro ht
  obtain ⟨fields, hloads⟩ := h
  obtain ⟨r', hscan', -⟩ := loadsText_eq_ok.1 hloads
  rw [loadsText] at ht
  rcases hscan : scanOnce F (t.length + 1) stack (skipWs t) with e | ⟨v, r⟩
  · rw [hscan] at ht
    cases ht
    have hskip : skipWs t ≠ [] := by
      intro hnil
      rw [hnil] at hscan
      cases hscan
    have hdeep : scanOnce F ((t ++ x).length + 1) stack (skipWs t ++ x) = .error .recursionError :=
      scanOnce_deep hscan (by simp)
    rw [← skipWs_append hskip, hscan'] at hdeep
    cases hdeep
  · rw [hscan] at ht
    dsimp only at ht
    split_ifs at ht
    cases ht

end

end Json

end Lib
