/-
  JSON as text: `json.dumps` and `json.loads` of Python.

  The printer is the compact one without `ensure_ascii`, that sorts the keys (`dumps`).  The
  parser is that of the standard library (`loads`), with its duplicate keys, of which the
  last counts; `NaN` and `Infinity`, which it accepts, are no values here.  How floats are
  printed and read is a parameter (`FloatText`).

  What was printed is read back as it was, with its keys in order (`loads_dumps`).
-/
import TideBot.Lib.Bytes
import TideBot.Lib.Json

namespace Lib

namespace Json

/-- The code point of a character. -/
def ch (c : Char) : CodePoint := CodePoint.ofChar c

/-- `float.__repr__`, and `float` of a literal. -/
structure FloatText where
  repr : ℚ → Text
  parse : Text → ℚ

/-! ## Printing -/

/-- A digit, up to 15. -/
def hexDigit (n : ℕ) : CodePoint := if n < 10 then Fin.ofNat _ (48 + n) else Fin.ofNat _ (87 + n)

/-- A character of a string. -/
def escapeChar (c : CodePoint) : Text :=
  if c = ch '"' then [ch '\\', ch '"']
  else if c = ch '\\' then [ch '\\', ch '\\']
  else if c = ch '\n' then [ch '\\', ch 'n']
  else if c = ch '\r' then [ch '\\', ch 'r']
  else if c = ch '\t' then [ch '\\', ch 't']
  else if c.val = 8 then [ch '\\', ch 'b']
  else if c.val = 12 then [ch '\\', ch 'f']
  else if c.val < 0x20 then
    [ch '\\', ch 'u', ch '0', ch '0', hexDigit (c.val / 16), hexDigit (c.val % 16)]
  else [c]

def strText (s : Text) : Text := ch '"' :: (s.flatMap escapeChar ++ [ch '"'])

/-- The decimal digits of a number below the first argument. -/
def natText : ℕ → ℕ → Text
  | 0, _ => []
  | fuel + 1, n => if n < 10 then [hexDigit n] else natText fuel (n / 10) ++ [hexDigit (n % 10)]

def intText (n : ℤ) : Text :=
  (if n < 0 then [ch '-'] else []) ++ natText (n.natAbs + 1) n.natAbs

section
variable (F : FloatText)

mutual

/-- A value, with the fields as they stand. -/
def text : Json → Text
  | .null => .lit "null"
  | .bool b => if b then .lit "true" else .lit "false"
  | .int n => intText n
  | .float q => F.repr q
  | .str s => strText s
  | .arr [] => [ch '[', ch ']']
  | .arr (x :: xs) => ch '[' :: itemsText (x :: xs)
  | .obj [] => [ch '{', ch '}']
  | .obj (f :: fs) => ch '{' :: fieldsText (f :: fs)

/-- The items of an array, each with the separator or bracket after it. -/
def itemsText : List Json → Text
  | [] => []
  | x :: xs => text x ++ (if xs.isEmpty then ch ']' else ch ',') :: itemsText xs

/-- The fields of an object, each with its colon and the separator or brace after it. -/
def fieldsText : List (Text × Json) → Text
  | [] => []
  | (k, x) :: fs =>
    strText k ++ ch ':' :: (text x ++ (if fs.isEmpty then ch '}' else ch ',') :: fieldsText fs)

end

mutual

/-- The value with the fields of every object in the order of their keys. -/
def sorted : Json → Json
  | .arr xs => .arr (sortedItems xs)
  | .obj fs => .obj ((sortedFields fs).insertionSort fun f g => f.1 ≤ g.1)
  | j => j

def sortedItems : List Json → List Json
  | [] => []
  | x :: xs => sorted x :: sortedItems xs

def sortedFields : List (Text × Json) → List (Text × Json)
  | [] => []
  | (k, x) :: fs => (k, sorted x) :: sortedFields fs

end

/-- `json.dumps(value, ensure_ascii=False, separators=(',', ':'), sort_keys=True)` -/
def dumps (j : Json) : Text := text F j.sorted

/-! ## Parsing -/

def whitespace (c : CodePoint) : Bool := c = ch ' ' ∨ c = ch '\t' ∨ c = ch '\n' ∨ c = ch '\r'

def skipWs (l : Text) : Text := l.dropWhile whitespace

def hexValue (c : CodePoint) : Option ℕ :=
  if 48 ≤ c.val ∧ c.val ≤ 57 then some (c.val - 48)
  else if 97 ≤ c.val ∧ c.val ≤ 102 then some (c.val - 87)
  else if 65 ≤ c.val ∧ c.val ≤ 70 then some (c.val - 55)
  else none

/-- Four hexadecimal digits. -/
def hex4 : Text → Option (ℕ × Text)
  | a :: b :: c :: d :: l => do
    return ((((← hexValue a) * 16 + (← hexValue b)) * 16 + (← hexValue c)) * 16 + (← hexValue d), l)
  | _ => none

/-- The second half of a surrogate pair, if it follows the first. -/
def lowSurrogate (high : ℕ) (l : Text) : Option (CodePoint × Text) :=
  match l with
  | b :: u :: l' =>
    if 0xD800 ≤ high ∧ high ≤ 0xDBFF ∧ b = ch '\\' ∧ u = ch 'u' then do
      let (low, rest) ← hex4 l'
      if 0xDC00 ≤ low ∧ low ≤ 0xDFFF then
        return (Fin.ofNat _ (0x10000 + (high - 0xD800) * 1024 + (low - 0xDC00)), rest)
      else return (Fin.ofNat _ high, l)
    else some (Fin.ofNat _ high, l)
  | _ => some (Fin.ofNat _ high, l)

/-- The character of an escape sequence, after its backslash. -/
def unescape : Text → Option (CodePoint × Text)
  | [] => none
  | e :: l =>
    if e = ch '"' ∨ e = ch '\\' ∨ e = ch '/' then some (e, l)
    else if e = ch 'n' then some (ch '\n', l)
    else if e = ch 'r' then some (ch '\r', l)
    else if e = ch 't' then some (ch '\t', l)
    else if e = ch 'b' then some (8, l)
    else if e = ch 'f' then some (12, l)
    else if e = ch 'u' then (hex4 l).bind fun r => lowSurrogate r.1 r.2
    else none

/-- A string, after its first quote. -/
def scanString : ℕ → Text → Option (Text × Text)
  | 0, _ => none
  | _ + 1, [] => none
  | fuel + 1, c :: l =>
    if c = ch '"' then some ([], l)
    else if c = ch '\\' then
      (unescape l).bind fun r => (scanString fuel r.2).map fun s => (r.1 :: s.1, s.2)
    else if c.val < 0x20 then none
    else (scanString fuel l).map fun s => (c :: s.1, s.2)

def isDigit (c : CodePoint) : Bool := 48 ≤ c.val && c.val ≤ 57

def natValue (t : Text) : ℕ := t.foldl (fun n c => 10 * n + (c.val - 48)) 0

/-- The fraction that a text begins with. -/
def fraction : Text → Text
  | [] => []
  | c :: l => if c = ch '.' ∧ l.takeWhile isDigit ≠ [] then c :: l.takeWhile isDigit else []

/-- The exponent that a text begins with. -/
def exponent : Text → Text
  | [] => []
  | e :: l =>
    let sign := l.take (if l.head? = some (ch '+') ∨ l.head? = some (ch '-') then 1 else 0)
    let digits := (l.drop sign.length).takeWhile isDigit
    if (e = ch 'e' ∨ e = ch 'E') ∧ digits ≠ [] then e :: (sign ++ digits) else []

/-- A number: `(-?(?:0|[1-9][0-9]*))(\.[0-9]+)?([eE][-+]?[0-9]+)?` -/
def scanNumber (l : Text) : Option (Json × Text) :=
  let sign := l.take (if l.head? = some (ch '-') then 1 else 0)
  let l₁ := l.drop sign.length
  let digits := if l₁.head? = some (ch '0') then [ch '0'] else l₁.takeWhile isDigit
  let l₂ := l₁.drop digits.length
  let frac := fraction l₂
  let exp := exponent (l₂.drop frac.length)
  if digits = [] then none
  else if frac = [] ∧ exp = [] then
    some (.int (if sign = [] then (natValue digits : ℤ) else -(natValue digits : ℤ)), l₂)
  else some (.float (F.parse (sign ++ digits ++ frac ++ exp)), l₂.drop (frac.length + exp.length))

/-- An item of a `dict`: the last value of a key counts, in the first place. -/
def setField (fs : List (Text × Json)) (f : Text × Json) : List (Text × Json) :=
  if f.1 ∈ fs.map Prod.fst then fs.map fun g => if g.1 = f.1 then f else g else fs ++ [f]

mutual

def value : ℕ → Text → Option (Json × Text)
  | 0, _ => none
  | _ + 1, [] => none
  | fuel + 1, c :: l =>
    if c = ch '"' then (scanString (l.length + 1) l).map fun r => (.str r.1, r.2)
    else if c = ch '{' then
      if (skipWs l).head? = some (ch '}') then some (.obj [], (skipWs l).tail)
      else (fields fuel (skipWs l)).map fun r => (.obj (r.1.foldl setField []), r.2)
    else if c = ch '[' then
      if (skipWs l).head? = some (ch ']') then some (.arr [], (skipWs l).tail)
      else (items fuel (skipWs l)).map fun r => (.arr r.1, r.2)
    else if (Text.lit "null").isPrefixOf (c :: l) then some (.null, l.drop 3)
    else if (Text.lit "true").isPrefixOf (c :: l) then some (.bool true, l.drop 3)
    else if (Text.lit "false").isPrefixOf (c :: l) then some (.bool false, l.drop 4)
    else scanNumber F (c :: l)

/-- The items of an array, up to its bracket. -/
def items : ℕ → Text → Option (List Json × Text)
  | 0, _ => none
  | fuel + 1, l => do
    let (x, l) ← value fuel l
    match skipWs l with
    | [] => none
    | c :: l =>
      if c = ch ']' then some ([x], l)
      else if c = ch ',' then (items fuel (skipWs l)).map fun r => (x :: r.1, r.2)
      else none

/-- The fields of an object, up to its brace. -/
def fields : ℕ → Text → Option (List (Text × Json) × Text)
  | 0, _ => none
  | _ + 1, [] => none
  | fuel + 1, q :: l => do
    if q ≠ ch '"' then none
    let (k, l) ← scanString (l.length + 1) l
    match skipWs l with
    | [] => none
    | c :: l =>
      if c ≠ ch ':' then none
      let (x, l) ← value fuel (skipWs l)
      match skipWs l with
      | [] => none
      | c :: l =>
        if c = ch '}' then some ([(k, x)], l)
        else if c = ch ',' then (fields fuel (skipWs l)).map fun r => ((k, x) :: r.1, r.2)
        else none

end

/-- `json.loads` -/
def loads (t : Text) : Option Json :=
  (value F (t.length + 1) (skipWs t)).bind fun r => if skipWs r.2 = [] then some r.1 else none

end

/-! ## Strings -/

theorem hexValue_hexDigit {n : ℕ} (h : n < 16) : hexValue (hexDigit n) = some n := by
  interval_cases n <;> rfl

/-- **A character is read as it was printed.** -/
theorem scanString_escapeChar (c : CodePoint) (fuel : ℕ) (l : Text) :
    scanString (fuel + 1) (escapeChar c ++ l) = (scanString fuel l).map fun s => (c :: s.1, s.2) := by
  unfold escapeChar
  split_ifs with hquote hback hn hr ht hb hf hctl
  · subst hquote
    rfl
  · subst hback
    rfl
  · subst hn
    rfl
  · subst hr
    rfl
  · subst ht
    rfl
  · obtain rfl : c = 8 := Fin.ext hb
    rfl
  · obtain rfl : c = 12 := Fin.ext hf
    rfl
  · have hhex : hex4 (ch '0' :: ch '0' :: hexDigit (c.val / 16) :: hexDigit (c.val % 16) :: l) =
        some (c.val, l) := by
      have hzero : hexValue (ch '0') = some 0 := rfl
      have hc : ((0 * 16 + 0) * 16 + c.val / 16) * 16 + c.val % 16 = c.val := by omega
      simp only [hex4, hzero, hexValue_hexDigit (show c.val / 16 < 16 by omega),
        hexValue_hexDigit (show c.val % 16 < 16 by omega), Option.bind_eq_bind, Option.bind_some,
        Option.pure_def, hc]
    have hlow : lowSurrogate c.val l = some (c, l) := by
      have hno : ¬ 0xD800 ≤ c.val := by omega
      unfold lowSurrogate
      rcases l with _ | ⟨b, _ | ⟨u, l⟩⟩ <;> simp [hno]
    have hu : unescape (ch 'u' :: ch '0' :: ch '0' :: hexDigit (c.val / 16) ::
        hexDigit (c.val % 16) :: l) = some (c, l) := by
      rw [unescape, hhex]
      exact hlow
    show (unescape (ch 'u' :: ch '0' :: ch '0' :: hexDigit (c.val / 16) ::
      hexDigit (c.val % 16) :: l)).bind _ = _
    rw [hu, Option.bind_some]
  · rw [List.singleton_append, scanString, if_neg hquote, if_neg hback, if_neg hctl]

theorem length_escapeChar (c : CodePoint) : 1 ≤ (escapeChar c).length := by
  unfold escapeChar
  split_ifs <;> simp

/-- **A string is read as it was printed.** -/
theorem scanString_flatMap {s : Text} : ∀ {fuel : ℕ} {l : Text}, (s.flatMap escapeChar).length < fuel →
    scanString fuel (s.flatMap escapeChar ++ ch '"' :: l) = some (s, l) := by
  induction s with
  | nil =>
    intro fuel l h
    obtain ⟨fuel, rfl⟩ : ∃ n, fuel = n + 1 := ⟨fuel - 1, by omega⟩
    rfl
  | cons c s ih =>
    intro fuel l h
    rw [List.flatMap_cons, List.length_append] at h
    have hone := length_escapeChar c
    obtain ⟨fuel, rfl⟩ : ∃ n, fuel = n + 1 := ⟨fuel - 1, by omega⟩
    rw [List.flatMap_cons, List.append_assoc, scanString_escapeChar, ih (by omega), Option.map_some]

theorem scanString_strText (s l : Text) (fuel : ℕ) (h : (strText s).length ≤ fuel) :
    scanString fuel ((strText s).tail ++ l) = some (s, l) := by
  simp only [strText, List.length_cons, List.length_append, List.length_nil] at h
  rw [strText, List.tail_cons, List.append_assoc, List.singleton_append]
  exact scanString_flatMap (by omega)

/-! ## Numbers -/

/-- What follows a value. -/
def Closed (l : Text) : Prop := ∀ c ∈ l.head?, c = ch ',' ∨ c = ch ']' ∨ c = ch '}'

theorem isDigit_hexDigit {n : ℕ} (h : n < 10) : isDigit (hexDigit n) := by
  interval_cases n <;> rfl

theorem val_hexDigit {n : ℕ} (h : n < 10) : (hexDigit n).val = 48 + n := by
  interval_cases n <;> rfl

/-- The digits of a number: they are digits, say which number it is, and begin with a zero
    only if they are zero. -/
theorem natText_spec : ∀ {fuel n : ℕ}, n < fuel →
    natText fuel n ≠ [] ∧ (∀ c ∈ natText fuel n, isDigit c) ∧ natValue (natText fuel n) = n ∧
      ((natText fuel n).head? = some (ch '0') → natText fuel n = [ch '0']) := by
  intro fuel
  induction fuel with
  | zero => exact fun h => absurd h (Nat.not_lt_zero _)
  | succ fuel ih =>
    intro n h
    unfold natText
    split_ifs with hn
    · refine ⟨by simp, ?_, ?_, ?_⟩
      · intro c hc
        rw [List.mem_singleton.1 hc]
        exact isDigit_hexDigit hn
      · simp [natValue, val_hexDigit hn]
      · intro hz
        rw [List.head?_cons, Option.some.injEq] at hz
        rw [hz]
    · obtain ⟨hne, hdig, hval, hzero⟩ := ih (n := n / 10) (by omega)
      have hmod : n % 10 < 10 := Nat.mod_lt _ (by omega)
      refine ⟨by simp, ?_, ?_, ?_⟩
      · intro c hc
        rcases List.mem_append.1 hc with hc | hc
        · exact hdig c hc
        · rw [List.mem_singleton.1 hc]
          exact isDigit_hexDigit hmod
      · rw [natValue, List.foldl_append]
        have hval' : (natText fuel (n / 10)).foldl (fun n c => 10 * n + (c.val - 48)) 0 = n / 10 := hval
        rw [hval', List.foldl_cons, List.foldl_nil, val_hexDigit hmod]
        omega
      · intro hz
        rw [List.head?_append_of_ne_nil _ hne] at hz
        rw [hzero hz] at hval
        have : natValue [ch '0'] = 0 := rfl
        omega

theorem takeWhile_closed {ds l : Text} (hds : ∀ c ∈ ds, isDigit c) (hl : Closed l) :
    (ds ++ l).takeWhile isDigit = ds := by
  rw [List.takeWhile_append_of_pos hds]
  cases l with
  | nil => simp
  | cons c l =>
    have hc : isDigit c = false := by
      rcases hl c rfl with rfl | rfl | rfl <;> rfl
    rw [List.takeWhile_cons, hc]
    simp

theorem fraction_closed {l : Text} (hl : Closed l) : fraction l = [] := by
  cases l with
  | nil => rfl
  | cons c l =>
    have hc : c ≠ ch '.' := by
      rcases hl c rfl with rfl | rfl | rfl <;> decide
    simp [fraction, hc]

theorem exponent_closed {l : Text} (hl : Closed l) : exponent l = [] := by
  cases l with
  | nil => rfl
  | cons c l =>
    have hc : c ≠ ch 'e' ∧ c ≠ ch 'E' := by
      rcases hl c rfl with rfl | rfl | rfl <;> decide
    simp [exponent, hc.1, hc.2]

variable {F : FloatText}

/-- **An integer is read as it was printed.** -/
theorem scanNumber_intText (n : ℤ) {l : Text} (hl : Closed l) :
    scanNumber F (intText n ++ l) = some (.int n, l) := by
  obtain ⟨hne, hdig, hval, hzero⟩ := natText_spec (Nat.lt_succ_self n.natAbs)
  have hsign : ∀ sign : Text, sign = (if n < 0 then [ch '-'] else []) →
      (sign ++ natText (n.natAbs + 1) n.natAbs ++ l).take
        (if (sign ++ natText (n.natAbs + 1) n.natAbs ++ l).head? = some (ch '-') then 1 else 0) = sign := by
    intro sign hs
    split_ifs at hs with hneg
    · subst hs
      rfl
    · subst hs
      obtain ⟨d, ds, hd⟩ := List.exists_cons_of_ne_nil hne
      have hdne : d ≠ ch '-' := by
        rintro rfl
        have := hdig (ch '-') (by rw [hd]; exact List.mem_cons_self)
        exact absurd this (by decide)
      simp [hd, hdne]
  have hdigits : (if (natText (n.natAbs + 1) n.natAbs ++ l).head? = some (ch '0') then [ch '0']
      else (natText (n.natAbs + 1) n.natAbs ++ l).takeWhile isDigit) =
      natText (n.natAbs + 1) n.natAbs := by
    rw [List.head?_append_of_ne_nil _ hne, takeWhile_closed hdig hl]
    split_ifs with hz
    · exact (hzero hz).symm
    · rfl
  unfold scanNumber intText
  simp only [hsign _ rfl]
  rw [List.append_assoc, List.drop_left, hdigits, List.drop_left, fraction_closed hl, List.length_nil,
    List.drop_zero, exponent_closed hl, if_neg hne, if_pos ⟨rfl, rfl⟩, hval]
  by_cases hneg : n < 0
  · simp only [if_pos hneg, List.cons_ne_nil, if_false]
    congr 3
    omega
  · simp only [if_neg hneg, if_true]
    congr 3
    omega

/-! ## Values -/

/-- A float that is read as it is printed. -/
structure FloatText.Reads (F : FloatText) (q : ℚ) : Prop where
  number : ∃ c l, F.repr q = c :: l ∧ (isDigit c ∨ c = ch '-')
  scan : ∀ {l}, Closed l → scanNumber F (F.repr q ++ l) = some (.float q, l)
  encodable : Text.encodable (F.repr q)

/-- 1.0, as `float.__repr__` prints it and `float` reads it. -/
structure FloatText.One (F : FloatText) : Prop where
  repr : F.repr 1 = .lit "1.0"
  parse : F.parse (.lit "1.0") = 1

theorem FloatText.One.reads (h : F.One) : F.Reads 1 where
  number := ⟨ch '1', Text.lit ".0", h.repr, .inl rfl⟩
  scan {l} hl := by
    have hstop : ([] ++ l).takeWhile isDigit = [] := takeWhile_closed (by simp) hl
    have hdigits : (ch '0' :: l).takeWhile isDigit = [ch '0'] := by
      rw [List.takeWhile_cons_of_pos rfl]
      exact congrArg _ hstop
    have hfrac : fraction (ch '.' :: ch '0' :: l) = .lit ".0" := by
      simp only [fraction, hdigits]
      rfl
    have htext : F.repr 1 ++ l = ch '1' :: ch '.' :: ch '0' :: l := by
      rw [h.repr]
      rfl
    have hone : ch '1' ≠ ch '-' ∧ ch '1' ≠ ch '0' ∧ isDigit (ch '1') ∧ ¬ isDigit (ch '.') := by decide
    have hdrop : (ch '.' :: ch '0' :: l).drop (Text.lit ".0").length = l := rfl
    rw [htext]
    simp only [scanNumber, List.head?_cons, Option.some.injEq, hone.1, hone.2.1, if_false,
      List.take_zero, List.length_nil, List.drop_zero, List.takeWhile_cons_of_pos hone.2.2.1,
      List.takeWhile_cons_of_neg hone.2.2.2, List.length_singleton, List.drop_succ_cons, hfrac,
      hdrop, exponent_closed hl, List.append_nil, Nat.add_zero]
    rw [if_neg (by simp), if_neg (by simp [Text.lit]), List.nil_append]
    exact congrArg (fun q => some (Json.float q, l)) h.parse
  encodable := by rw [h.repr]; rfl

section
variable (F)

mutual

/-- The keys of every object are distinct, and floats are read as they are printed. -/
def Readable : Json → Prop
  | .float q => F.Reads q
  | .arr xs => ReadableItems xs
  | .obj fs => (fs.map Prod.fst).Nodup ∧ ReadableFields fs
  | _ => True

def ReadableItems : List Json → Prop
  | [] => True
  | x :: xs => Readable x ∧ ReadableItems xs

def ReadableFields : List (Text × Json) → Prop
  | [] => True
  | (_, x) :: fs => Readable x ∧ ReadableFields fs

end

end

/-- A character that no value begins with. -/
def opens (c : CodePoint) : Bool := !whitespace c && c ≠ ch ']' && c ≠ ch '}'

theorem opens_of_digit {c : CodePoint} (h : isDigit c ∨ c = ch '-') : opens c := by
  rcases h with h | rfl
  · have hval : 48 ≤ c.val ∧ c.val ≤ 57 := by simpa [isDigit] using h
    have hne : ∀ d : Char, d.toNat < 48 ∨ 57 < d.toNat → c ≠ ch d := by
      rintro d hd rfl
      have : (ch d).val = d.toNat := rfl
      omega
    simp [opens, whitespace, hne ' ' (by decide), hne '\t' (by decide), hne '\n' (by decide),
      hne '\r' (by decide), hne ']' (by decide), hne '}' (by decide)]
  · rfl

theorem text_head : (j : Json) → j.Readable F → ∃ c l, text F j = c :: l ∧ opens c
  | .null, _ => ⟨_, _, rfl, rfl⟩
  | .bool true, _ => ⟨_, _, rfl, rfl⟩
  | .bool false, _ => ⟨_, _, rfl, rfl⟩
  | .int n, _ => by
    obtain ⟨hne, hdig, -, -⟩ := natText_spec (Nat.lt_succ_self n.natAbs)
    obtain ⟨d, ds, hd⟩ := List.exists_cons_of_ne_nil hne
    rw [text, intText]
    split_ifs
    · exact ⟨_, _, rfl, rfl⟩
    · refine ⟨d, ds, by rw [← hd]; rfl, opens_of_digit (.inl (hdig d ?_))⟩
      rw [hd]
      exact List.mem_cons_self
  | .float q, h => by
    obtain ⟨c, l, hrepr, hc⟩ := h.number
    exact ⟨c, l, hrepr, opens_of_digit hc⟩
  | .str s, _ => ⟨_, _, rfl, rfl⟩
  | .arr [], _ => ⟨_, _, rfl, rfl⟩
  | .arr (x :: xs), _ => ⟨_, _, rfl, rfl⟩
  | .obj [], _ => ⟨_, _, rfl, rfl⟩
  | .obj (f :: fs), _ => ⟨_, _, rfl, rfl⟩

theorem skipWs_cons {c : CodePoint} {l : Text} (h : opens c) : skipWs (c :: l) = c :: l := by
  have hws : whitespace c = false := by
    simp only [opens, Bool.and_eq_true, Bool.not_eq_true'] at h
    exact h.1.1
  rw [skipWs, List.dropWhile_cons, hws]
  rfl

theorem skipWs_text {j : Json} (h : j.Readable F) (l : Text) :
    skipWs (text F j ++ l) = text F j ++ l := by
  obtain ⟨c, l', hj, hc⟩ := text_head j h
  rw [hj, List.cons_append, skipWs_cons hc]

theorem foldl_setField {fs acc : List (Text × Json)} (h : ((acc ++ fs).map Prod.fst).Nodup) :
    fs.foldl setField acc = acc ++ fs := by
  induction fs generalizing acc with
  | nil => simp
  | cons f fs ih =>
    have hnew : f.1 ∉ acc.map Prod.fst := by
      rw [List.map_append, List.map_cons, List.nodup_append] at h
      intro hf
      exact h.2.2 f.1 hf f.1 List.mem_cons_self rfl
    rw [List.foldl_cons, setField, if_neg hnew, ih (by simpa using h)]
    simp

theorem value_number {c : CodePoint} {t l : Text} {fuel : ℕ} (h : isDigit c ∨ c = ch '-') :
    value F (fuel + 1) (c :: t ++ l) = scanNumber F (c :: t ++ l) := by
  have hne : ∀ d : Char, ¬ isDigit (ch d) → d ≠ '-' → c ≠ ch d := by
    rintro d hd hm rfl
    rcases h with h | h
    · exact hd h
    · exact hm (Text.ofChar_injective h)
  have hpre : ∀ d : Char, ∀ ds : Text, c ≠ ch d → (ch d :: ds).isPrefixOf (c :: (t ++ l)) = false := by
    intro d ds hd
    simp [List.isPrefixOf, Ne.symm hd]
  have hn := hne 'n' (by decide) (by decide)
  have ht := hne 't' (by decide) (by decide)
  have hf := hne 'f' (by decide) (by decide)
  rw [List.cons_append, value, if_neg (hne '"' (by decide) (by decide)),
    if_neg (hne '{' (by decide) (by decide)), if_neg (hne '[' (by decide) (by decide)),
    show Text.lit "null" = ch 'n' :: Text.lit "ull" from rfl, hpre 'n' _ hn,
    show Text.lit "true" = ch 't' :: Text.lit "rue" from rfl, hpre 't' _ ht,
    show Text.lit "false" = ch 'f' :: Text.lit "alse" from rfl, hpre 'f' _ hf]
  simp

theorem length_text {j : Json} (h : j.Readable F) : 1 ≤ (text F j).length := by
  obtain ⟨c, l, hj, -⟩ := text_head j h
  rw [hj]
  simp

theorem intText_head (n : ℤ) : ∃ c l, intText n = c :: l ∧ (isDigit c ∨ c = ch '-') := by
  obtain ⟨hne, hdig, -, -⟩ := natText_spec (Nat.lt_succ_self n.natAbs)
  obtain ⟨d, ds, hd⟩ := List.exists_cons_of_ne_nil hne
  rw [intText]
  split_ifs
  · exact ⟨_, _, rfl, .inr rfl⟩
  · refine ⟨d, ds, by rw [← hd]; rfl, .inl (hdig d ?_)⟩
    rw [hd]
    exact List.mem_cons_self

theorem closed_sep (b : Bool) {c : CodePoint} (hc : c = ch ']' ∨ c = ch '}') (l : Text) :
    Closed ((if b then c else ch ',') :: l) := by
  intro d hd
  cases hd
  split_ifs
  · rcases hc with rfl | rfl
    · exact .inr (.inl rfl)
    · exact .inr (.inr rfl)
  · exact .inl rfl

theorem skipWs_items {x : Json} {xs : List Json} (h : x.Readable F) (l : Text) :
    skipWs (itemsText F (x :: xs) ++ l) = itemsText F (x :: xs) ++ l := by
  rw [itemsText, List.append_assoc]
  exact skipWs_text h _

theorem skipWs_fields {f : Text × Json} {fs : List (Text × Json)} (l : Text) :
    skipWs (fieldsText F (f :: fs) ++ l) = fieldsText F (f :: fs) ++ l := by
  obtain ⟨k, x⟩ := f
  rw [fieldsText, strText]
  rfl

mutual

/-- **A value is read as it was printed.** -/
theorem value_text : (j : Json) → j.Readable F → ∀ {n : ℕ} {l : Text},
    (text F j).length ≤ n → Closed l → value F n (text F j ++ l) = some (j, l)
  | .null, _, fuel + 1, _, _, _ => rfl
  | .bool true, _, fuel + 1, _, _, _ => rfl
  | .bool false, _, fuel + 1, _, _, _ => rfl
  | .int n, _, fuel + 1, l, _, hl => by
    obtain ⟨c, t, hn, hc⟩ := intText_head n
    have hscan := scanNumber_intText (F := F) n hl
    rw [text]
    rw [hn] at hscan ⊢
    rw [value_number hc, hscan]
  | .float q, h, fuel + 1, l, _, hl => by
    obtain ⟨c, t, hq, hc⟩ := h.number
    have hscan := h.scan hl
    rw [text]
    rw [hq] at hscan ⊢
    rw [value_number hc, hscan]
  | .str s, _, fuel + 1, l, _, _ => by
    have hscan := scanString_strText s l (((strText s).tail ++ l).length + 1) (by
      simp only [strText, List.tail_cons, List.length_append, List.length_cons, List.length_nil]
      omega)
    have hcons : text F (.str s) ++ l = ch '"' :: ((strText s).tail ++ l) := rfl
    rw [hcons, value, if_pos rfl, hscan, Option.map_some]
  | .arr [], _, fuel + 1, _, _, _ => rfl
  | .arr (x :: xs), h, fuel + 1, l, hlen, _ => by
    have hitems := items_text (x :: xs) (by simp) h (n := fuel) (l := l) (by
      simpa [text] using hlen)
    obtain ⟨c, t, hx, hc⟩ := text_head x h.1
    have hhead : (itemsText F (x :: xs) ++ l).head? ≠ some (ch ']') := by
      rw [itemsText, hx]
      simp only [List.cons_append, List.head?_cons, ne_eq, Option.some.injEq]
      rintro rfl
      cases hc
    have hcons : text F (.arr (x :: xs)) ++ l = ch '[' :: (itemsText F (x :: xs) ++ l) := rfl
    rw [hcons, value, if_neg (by decide), if_neg (by decide), if_pos rfl, skipWs_items h.1,
      if_neg hhead, hitems, Option.map_some]
  | .obj [], _, fuel + 1, _, _, _ => rfl
  | .obj (f :: fs), h, fuel + 1, l, hlen, _ => by
    have hfields := fields_text (f :: fs) (by simp) h.2 (n := fuel) (l := l) (by
      simpa [text] using hlen)
    have hhead : (fieldsText F (f :: fs) ++ l).head? ≠ some (ch '}') := by
      obtain ⟨k, x⟩ := f
      rw [fieldsText, strText]
      simp only [List.cons_append, List.head?_cons, ne_eq, Option.some.injEq]
      decide
    have hcons : text F (.obj (f :: fs)) ++ l = ch '{' :: (fieldsText F (f :: fs) ++ l) := rfl
    have hdict : (f :: fs).foldl setField [] = f :: fs := foldl_setField h.1
    rw [hcons, value, if_neg (by decide), if_pos rfl, skipWs_fields, if_neg hhead, hfields,
      Option.map_some, hdict]
  | j, h, 0, _, hlen, _ => by
    have := length_text h
    omega

theorem items_text : (xs : List Json) → xs ≠ [] → ReadableItems F xs → ∀ {n : ℕ} {l : Text},
    (itemsText F xs).length ≤ n → items F n (itemsText F xs ++ l) = some (xs, l)
  | [], h, _, _, _, _ => absurd rfl h
  | x :: xs, _, _, 0, _, hlen => by
    simp [itemsText] at hlen
  | x :: xs, _, h, fuel + 1, l, hlen => by
    have hone := length_text h.1
    simp only [itemsText, List.length_append, List.length_cons] at hlen
    have hx := value_text x h.1 (n := fuel)
      (l := (if xs.isEmpty then ch ']' else ch ',') :: (itemsText F xs ++ l)) (by omega)
      (closed_sep xs.isEmpty (.inl rfl) _)
    have hcons : itemsText F (x :: xs) ++ l =
        text F x ++ (if xs.isEmpty then ch ']' else ch ',') :: (itemsText F xs ++ l) := by
      rw [itemsText, List.append_assoc]
      rfl
    rw [hcons, items, hx]
    cases xs with
    | nil => rfl
    | cons y ys =>
      have hrest := items_text (y :: ys) (by simp) h.2 (n := fuel) (l := l) (by omega)
      show (items F fuel (skipWs (itemsText F (y :: ys) ++ l))).map _ = _
      rw [skipWs_items h.2.1, hrest, Option.map_some]

theorem fields_text : (fs : List (Text × Json)) → fs ≠ [] → ReadableFields F fs →
    ∀ {n : ℕ} {l : Text}, (fieldsText F fs).length ≤ n →
      fields F n (fieldsText F fs ++ l) = some (fs, l)
  | [], h, _, _, _, _ => absurd rfl h
  | (k, x) :: fs, _, _, 0, _, hlen => by
    simp [fieldsText, strText] at hlen
  | (k, x) :: fs, _, h, fuel + 1, l, hlen => by
    have hone := length_text h.1
    simp only [fieldsText, List.length_append, List.length_cons] at hlen
    have hx := value_text x h.1 (n := fuel)
      (l := (if fs.isEmpty then ch '}' else ch ',') :: (fieldsText F fs ++ l)) (by omega)
      (closed_sep fs.isEmpty (.inr rfl) _)
    have hcons : fieldsText F ((k, x) :: fs) ++ l = ch '"' :: ((strText k).tail ++ ch ':' ::
        (text F x ++ (if fs.isEmpty then ch '}' else ch ',') :: (fieldsText F fs ++ l))) := by
      rw [fieldsText]
      simp [strText]
    have hkey := fun l' => scanString_strText k l' (((strText k).tail ++ l').length + 1) (by
      simp only [strText, List.tail_cons, List.length_append, List.length_cons, List.length_nil]
      omega)
    rw [hcons, fields, if_neg (by simp), hkey]
    show (if ch ':' ≠ ch ':' then none else (value F fuel (skipWs (text F x ++ _))).bind _) = _
    rw [if_neg (by simp), skipWs_text h.1, hx]
    cases fs with
    | nil => rfl
    | cons g gs =>
      have hrest := fields_text (g :: gs) (by simp) h.2 (n := fuel) (l := l) (by omega)
      show (fields F fuel (skipWs (fieldsText F (g :: gs) ++ l))).map _ = _
      rw [skipWs_fields, hrest, Option.map_some]

end

/-! ## Sorted keys -/

theorem map_fst_sortedFields (fs : List (Text × Json)) :
    (sortedFields fs).map Prod.fst = fs.map Prod.fst := by
  induction fs with
  | nil => rfl
  | cons f fs ih => rw [sortedFields, List.map_cons, List.map_cons, ih]

theorem readableFields_iff {fs : List (Text × Json)} :
    ReadableFields F fs ↔ ∀ f ∈ fs, f.2.Readable F := by
  induction fs with
  | nil => simp [ReadableFields]
  | cons f fs ih => simp [ReadableFields, ih]

mutual

theorem Readable.sorted : (j : Json) → j.Readable F → j.sorted.Readable F
  | .null, h | .bool _, h | .int _, h | .float _, h | .str _, h => h
  | .arr xs, h => ReadableItems.sorted xs h
  | .obj fs, h => by
    have hperm := List.perm_insertionSort (fun f g : Text × Json => f.1 ≤ g.1) (sortedFields fs)
    refine ⟨?_, readableFields_iff.2 ?_⟩
    · rw [(hperm.map Prod.fst).nodup_iff, map_fst_sortedFields]
      exact h.1
    · intro f hf
      exact readableFields_iff.1 (ReadableFields.sorted fs h.2) f (hperm.mem_iff.1 hf)

theorem ReadableItems.sorted : (xs : List Json) → ReadableItems F xs → ReadableItems F (sortedItems xs)
  | [], _ => trivial
  | x :: xs, h => ⟨Readable.sorted x h.1, ReadableItems.sorted xs h.2⟩

theorem ReadableFields.sorted : (fs : List (Text × Json)) → ReadableFields F fs →
    ReadableFields F (sortedFields fs)
  | [], _ => trivial
  | (_, x) :: fs, h => ⟨Readable.sorted x h.1, ReadableFields.sorted fs h.2⟩

end

/-- **What was printed is read back**, with its keys in order. -/
theorem loads_dumps {j : Json} (h : j.Readable F) : loads F (dumps F j) = some j.sorted := by
  have hs := Readable.sorted j h
  have hskip : skipWs (dumps F j) = dumps F j := by
    have := skipWs_text hs []
    rwa [List.append_nil] at this
  have hval := value_text j.sorted hs (n := (dumps F j).length + 1) (l := []) (Nat.le_succ _)
    (by rintro c ⟨⟩)
  rw [List.append_nil] at hval
  rw [loads, hskip]
  show (value F _ (text F j.sorted)).bind _ = _
  rw [hval]
  rfl

mutual

/-- The same value: the order of the fields of an object does not matter. -/
inductive Same : Json → Json → Prop
  | refl {j} : Same j j
  | arr {xs ys} : SameItems xs ys → Same (.arr xs) (.arr ys)
  | obj {fs gs hs} : fs.Perm gs → SameFields gs hs → Same (.obj fs) (.obj hs)

inductive SameItems : List Json → List Json → Prop
  | nil : SameItems [] []
  | cons {x y xs ys} : Same x y → SameItems xs ys → SameItems (x :: xs) (y :: ys)

inductive SameFields : List (Text × Json) → List (Text × Json) → Prop
  | nil : SameFields [] []
  | cons {k x y fs gs} : Same x y → SameFields fs gs → SameFields ((k, x) :: fs) ((k, y) :: gs)

end

mutual

theorem same_sorted : (j : Json) → Same j.sorted j
  | .null | .bool _ | .int _ | .float _ | .str _ => .refl
  | .arr xs => .arr (sameItems_sorted xs)
  | .obj fs => .obj (List.perm_insertionSort ..) (sameFields_sorted fs)

theorem sameItems_sorted : (xs : List Json) → SameItems (sortedItems xs) xs
  | [] => .nil
  | x :: xs => .cons (same_sorted x) (sameItems_sorted xs)

theorem sameFields_sorted : (fs : List (Text × Json)) → SameFields (sortedFields fs) fs
  | [] => .nil
  | (_, x) :: fs => .cons (same_sorted x) (sameFields_sorted fs)

end

/-! ## Surrogates -/

mutual

/-- Is there no surrogate in any of the strings and keys? -/
def encodable : Json → Bool
  | .str s => Text.encodable s
  | .arr xs => encodableItems xs
  | .obj fs => encodableFields fs
  | _ => true

def encodableItems : List Json → Bool
  | [] => true
  | x :: xs => encodable x && encodableItems xs

def encodableFields : List (Text × Json) → Bool
  | [] => true
  | (k, x) :: fs => Text.encodable k && encodable x && encodableFields fs

end

theorem encodable_append (a b : Text) :
    Text.encodable (a ++ b) = (Text.encodable a && Text.encodable b) := List.all_append

theorem encodable_cons (c : CodePoint) (t : Text) :
    Text.encodable (c :: t) = (!c.surrogate && Text.encodable t) := rfl

theorem encodable_escapeChar (c : CodePoint) : Text.encodable (escapeChar c) = !c.surrogate := by
  have hlow : c.val < 0x80 → c.surrogate = false := by
    intro h
    have : ¬ 0xD800 ≤ c.val := by omega
    simp [CodePoint.surrogate, this]
  have hdigit : ∀ n, n < 16 → (hexDigit n).surrogate = false := by
    intro n hn
    interval_cases n <;> rfl
  unfold escapeChar
  split_ifs with hquote hback hn hr ht hb hf hctl
  · subst hquote
    rfl
  · subst hback
    rfl
  · subst hn
    rfl
  · subst hr
    rfl
  · subst ht
    rfl
  · rw [hlow (by omega)]
    rfl
  · rw [hlow (by omega)]
    rfl
  · rw [hlow (by omega)]
    simp only [encodable_cons, hdigit _ (show c.val / 16 < 16 by omega),
      hdigit _ (show c.val % 16 < 16 by omega)]
    rfl
  · rw [encodable_cons]
    exact Bool.and_true _

theorem encodable_strText (s : Text) : Text.encodable (strText s) = Text.encodable s := by
  have hflat : Text.encodable (s.flatMap escapeChar) = Text.encodable s := by
    induction s with
    | nil => rfl
    | cons c s ih => rw [List.flatMap_cons, encodable_append, encodable_escapeChar, ih]; rfl
  rw [strText, encodable_cons, encodable_append, hflat]
  show (true && (Text.encodable s && true)) = Text.encodable s
  rw [Bool.true_and, Bool.and_true]

theorem encodable_natText (fuel n : ℕ) : Text.encodable (natText fuel n) := by
  have hdigit : ∀ n, n < 10 → (hexDigit n).surrogate = false := by
    intro n hn
    interval_cases n <;> rfl
  induction fuel generalizing n with
  | zero => rfl
  | succ fuel ih =>
    unfold natText
    split_ifs with hn
    · rw [encodable_cons, hdigit n hn]
      rfl
    · rw [encodable_append, ih, encodable_cons, hdigit _ (Nat.mod_lt _ (by omega))]
      rfl

theorem encodable_intText (n : ℤ) : Text.encodable (intText n) := by
  rw [intText, encodable_append, encodable_natText]
  split_ifs <;> rfl

theorem encodable_sep (b : Bool) {c : CodePoint} (hc : c = ch ']' ∨ c = ch '}') (l : Text) :
    Text.encodable ((if b then c else ch ',') :: l) = Text.encodable l := by
  rcases hc with rfl | rfl <;> cases b <;> rfl

mutual

/-- **The text has a surrogate if the value has.** -/
theorem encodable_text : (j : Json) → j.Readable F → Text.encodable (text F j) = j.encodable
  | .null, _ | .bool true, _ | .bool false, _ => rfl
  | .int n, _ => encodable_intText n
  | .float _, h => h.encodable
  | .str s, _ => encodable_strText s
  | .arr [], _ => rfl
  | .arr (x :: xs), h => encodable_itemsText (x :: xs) h
  | .obj [], _ => rfl
  | .obj (f :: fs), h => encodable_fieldsText (f :: fs) h.2

theorem encodable_itemsText : (xs : List Json) → ReadableItems F xs →
    Text.encodable (itemsText F xs) = encodableItems xs
  | [], _ => rfl
  | x :: xs, h => by
    rw [itemsText, encodable_append, encodable_text x h.1, encodable_sep _ (.inl rfl),
      encodable_itemsText xs h.2, encodableItems]

theorem encodable_fieldsText : (fs : List (Text × Json)) → ReadableFields F fs →
    Text.encodable (fieldsText F fs) = encodableFields fs
  | [], _ => rfl
  | (k, x) :: fs, h => by
    have hcolon : ∀ l, Text.encodable (ch ':' :: l) = Text.encodable l := fun _ => rfl
    rw [fieldsText, encodable_append, encodable_strText, hcolon, encodable_append,
      encodable_text x h.1, encodable_sep _ (.inr rfl), encodable_fieldsText fs h.2, encodableFields,
      Bool.and_assoc]

end

theorem encodableFields_eq (fs : List (Text × Json)) :
    encodableFields fs = fs.all fun f => Text.encodable f.1 && f.2.encodable := by
  induction fs with
  | nil => rfl
  | cons f fs ih => rw [encodableFields, ih, List.all_cons]

mutual

theorem encodable_sorted : (j : Json) → j.sorted.encodable = j.encodable
  | .null | .bool _ | .int _ | .float _ | .str _ => rfl
  | .arr xs => encodableItems_sorted xs
  | .obj fs => by
    have hperm := List.perm_insertionSort (fun f g : Text × Json => f.1 ≤ g.1) (sortedFields fs)
    rw [Json.sorted, encodable, encodableFields_eq, hperm.all_eq, ← encodableFields_eq,
      encodableFields_sorted fs, encodable]

theorem encodableItems_sorted : (xs : List Json) → encodableItems (sortedItems xs) = encodableItems xs
  | [] => rfl
  | x :: xs => by
    rw [sortedItems, encodableItems, encodableItems, encodable_sorted x, encodableItems_sorted xs]

theorem encodableFields_sorted : (fs : List (Text × Json)) →
    encodableFields (sortedFields fs) = encodableFields fs
  | [] => rfl
  | (k, x) :: fs => by
    rw [sortedFields, encodableFields, encodableFields, encodable_sorted x, encodableFields_sorted fs]

end

/-- **What is printed can be encoded** exactly if no string of the value has a surrogate. -/
theorem encodable_dumps {j : Json} (h : j.Readable F) :
    Text.encodable (dumps F j) = j.encodable := by
  rw [dumps, encodable_text _ (Readable.sorted j h), encodable_sorted]

end Json

end Lib
