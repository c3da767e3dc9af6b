/-
  `json.loads` of bytes with the exceptions that it raises, and `json.dumps` with all escapes.

  The encoding is guessed from the first bytes.  Besides `JSONDecodeError` and `UnicodeDecodeError`,
  `ValueError` is raised for an integer with too many digits, and `RecursionError` for a value that is
  nested too deep.  `NaN` and the infinities are read; `float` of these literals is left to `FloatText`.

  A string is read as it was printed (`scanString_joined`), but for two surrogates that stand for one
  character: they are escaped one by one, and joined as they are read.
-/
import TideBot.Lib.Bytes
import TideBot.Lib.JsonText

namespace Lib

/-! ## Surrogates -/

def CodePoint.highSurrogate (c : CodePoint) : Bool := 0xD800 ≤ c.val && c.val ≤ 0xDBFF

def CodePoint.lowSurrogate (c : CodePoint) : Bool := 0xDC00 ≤ c.val && c.val ≤ 0xDFFF

/-- The character of a pair. -/
def joined (high low : CodePoint) : CodePoint :=
  Fin.ofNat _ (0x10000 + (high.val - 0xD800) * 1024 + (low.val - 0xDC00))

/-- The text with its pairs of surrogates joined. -/
def joinPairs : Text → Text
  | a :: b :: t =>
    if a.highSurrogate && b.lowSurrogate then joined a b :: joinPairs t else a :: joinPairs (b :: t)
  | (t : List CodePoint) => t

/-- Does a low surrogate follow a high one? -/
def hasPair : Text → Bool
  | a :: b :: t => (a.highSurrogate && b.lowSurrogate) || hasPair (b :: t)
  | _ => false

theorem length_joinPairs_le (t : Text) : (joinPairs t).length ≤ t.length := by
  fun_induction joinPairs t with
  | case1 a b t hpair ih =>
    simp only [List.length_cons]
    omega
  | case2 a b t hpair ih =>
    simp only [List.length_cons] at ih ⊢
    omega
  | case3 t hshort => exact le_rfl

theorem joinPairs_eq_nil {t : Text} : joinPairs t = [] ↔ t = [] := by
  fun_induction joinPairs t with
  | case1 => simp
  | case2 => simp
  | case3 t hshort => exact Iff.rfl

theorem hasPair_of_ascii {t : Text} (h : t.all (·.val < 0x80)) : hasPair t = false := by
  fun_induction hasPair t with
  | case1 a b t ih =>
    rw [List.all_cons, Bool.and_eq_true, decide_eq_true_eq] at h
    rw [ih h.2, Bool.or_false, CodePoint.highSurrogate, decide_eq_false (by omega), Bool.false_and, Bool.false_and]
  | case2 t hshort => rfl

/-- **Nothing is joined** exactly if there is no pair. -/
theorem joinPairs_eq_self_iff {t : Text} : joinPairs t = t ↔ hasPair t = false := by
  fun_induction joinPairs t with
  | case1 a b t hpair ih =>
    rw [hasPair, hpair, Bool.true_or]
    constructor
    · intro h
      have hlength := congrArg List.length h
      have hle := length_joinPairs_le t
      simp only [List.length_cons] at hlength
      omega
    · rintro ⟨⟩
  | case2 a b t hpair ih =>
    rw [hasPair, Bool.eq_false_iff.2 hpair, Bool.false_or, List.cons_eq_cons, ih]
    exact and_iff_right rfl
  | case3 t hshort =>
    refine ⟨fun _ => ?_, fun _ => rfl⟩
    unfold hasPair
    split
    · exact absurd rfl (hshort _ _ _)
    · rfl

/-! ## Decoding -/

inductive Encoding where
  | utf8
  | utf8Sig
  | utf16
  | utf16BE
  | utf16LE
  | utf32
  | utf32BE
  | utf32LE
  deriving DecidableEq

/-- `json.detect_encoding` -/
def detectEncoding (b : List Byte) : Encoding :=
  if [0x00, 0x00, 0xFE, 0xFF].isPrefixOf b || [0xFF, 0xFE, 0x00, 0x00].isPrefixOf b then .utf32
  else if [0xFE, 0xFF].isPrefixOf b || [0xFF, 0xFE].isPrefixOf b then .utf16
  else if [0xEF, 0xBB, 0xBF].isPrefixOf b then .utf8Sig
  else
    match b with
    | [b₀, b₁] => if b₀ = 0 then .utf16BE else if b₁ = 0 then .utf16LE else .utf8
    | b₀ :: b₁ :: b₂ :: b₃ :: _ =>
      if b₀ = 0 then (if b₁ = 0 then .utf32BE else .utf16BE)
      else if b₁ = 0 then (if b₂ = 0 ∧ b₃ = 0 then .utf32LE else .utf16LE)
      else .utf8
    | _ => .utf8

/-- The units of a text in UTF-16. -/
def units16 (little : Bool) : List Byte → Option Text
  | [] => some []
  | [_] => none
  | a :: b :: l =>
    (units16 little l).map (Fin.ofNat _ (if little then a.val + 256 * b.val else 256 * a.val + b.val) :: ·)

/-- The characters of a text in UTF-32. -/
def units32 (little : Bool) : List Byte → Option Text
  | [] => some []
  | a :: b :: c :: d :: l =>
    let n := if little then a.val + 256 * (b.val + 256 * (c.val + 256 * d.val))
      else d.val + 256 * (c.val + 256 * (b.val + 256 * a.val))
    if n < 0x110000 then (units32 little l).map (Fin.ofNat _ n :: ·) else none
  | _ => none

/-- `b.decode(detect_encoding(b), 'surrogatepass')` -/
def decodeDetected (b : List Byte) : Option Text :=
  match detectEncoding b with
  | .utf8 => utf8Decode 0 0 0 b
  | .utf8Sig => utf8Decode 0 0 0 (b.drop 3)
  | .utf16 => (units16 (b.head? = some 0xFF) (b.drop 2)).map joinPairs
  | .utf16BE => (units16 false b).map joinPairs
  | .utf16LE => (units16 true b).map joinPairs
  | .utf32 => units32 (b.head? = some 0xFF) (b.drop 4)
  | .utf32BE => units32 false b
  | .utf32LE => units32 true b

theorem decodeDetected_ascii {a b : CodePoint} {t : Text} (ha : 0 < a.val ∧ a.val < 0x80) (hb : 0 < b.val ∧ b.val < 0x80) :
    decodeDetected ((a :: b :: t).flatMap CodePoint.utf8) = some (a :: b :: t) := by
  have hbyte : ∀ {c : CodePoint}, 0 < c.val → c.val < 0x80 → c.utf8 = [byte c.val] ∧ (byte c.val).val = c.val := by
    intro c _ hc
    exact ⟨by rw [CodePoint.utf8, if_pos hc], byte_val (by omega)⟩
  obtain ⟨hau, hav⟩ := hbyte ha.1 ha.2
  obtain ⟨hbu, hbv⟩ := hbyte hb.1 hb.2
  have ha₀ : byte a.val ≠ 0 := fun h => by rw [h] at hav; exact absurd hav (by simp; omega)
  have hb₀ : byte b.val ≠ 0 := fun h => by rw [h] at hbv; exact absurd hbv (by simp; omega)
  have hbom : ∀ {n : Byte} {l l' : List Byte}, n = 0 ∨ 0x80 ≤ n.val → (n :: l).isPrefixOf (byte a.val :: l') = false := by
    intro n l l' hn
    rw [List.isPrefixOf, Bool.and_eq_false_iff]
    left
    rw [beq_eq_false_iff_ne]
    rintro rfl
    obtain h | h := hn
    · exact ha₀ h
    · omega
  have hdetect : detectEncoding ((a :: b :: t).flatMap CodePoint.utf8) = .utf8 := by
    rw [List.flatMap_cons, List.flatMap_cons, hau, hbu, List.singleton_append, List.singleton_append]
    unfold detectEncoding
    rw [hbom (.inl rfl), hbom (.inr (by decide)), hbom (.inr (by decide)), hbom (.inr (by decide)),
      hbom (.inr (by decide))]
    simp only [Bool.or_self, Bool.false_eq_true, if_false]
    rcases t.flatMap CodePoint.utf8 with _ | ⟨x, _ | ⟨y, rest⟩⟩ <;> simp [ha₀, hb₀]
  rw [decodeDetected, hdetect]
  exact utf8Decode_flatMap _

namespace Json

/-! ## Reading -/

/-- What `json.loads` raises; a `UnicodeDecodeError` is counted with `JSONDecodeError`. -/
inductive LoadError where
  | decodeError
  | valueError
  | recursionError
  deriving DecidableEq

/-- `sys.get_int_max_str_digits()` -/
def maxStrDigits : ℕ := 4300

mutual

/-- Does `json.dumps` write the value?  It raises for an integer with too many digits. -/
def writable : Json → Bool
  | .int n => n.natAbs < 10 ^ maxStrDigits
  | .arr xs => writableItems xs
  | .obj fs => writableFields fs
  | _ => true

def writableItems : List Json → Bool
  | [] => true
  | x :: xs => writable x && writableItems xs

def writableFields : List (Text × Json) → Bool
  | [] => true
  | (_, x) :: fs => writable x && writableFields fs

end

theorem writable_zero : (Json.int 0).writable := by
  rw [writable, decide_eq_true_eq]
  exact Nat.pow_pos (by decide)

/-- What is not there is a `JSONDecodeError`. -/
def required {α : Type} : Option α → Except LoadError α
  | none => .error .decodeError
  | some a => .ok a

/-- The digits of the integer that a text begins with, if it begins with one. -/
def integerDigits (l : Text) : ℕ :=
  let l₁ := if l.head? = some (ch '-') then l.tail else l
  (l₁.takeWhile isDigit).length

section

variable (F : FloatText)

/-- A number, or a constant that is no JSON. -/
def scanConstant (l : Text) : Except LoadError (Json × Text) :=
  if (Text.lit "NaN").isPrefixOf l then .ok (.float (F.parse (.lit "NaN")), l.drop 3)
  else if (Text.lit "Infinity").isPrefixOf l then .ok (.float (F.parse (.lit "Infinity")), l.drop 8)
  else if (Text.lit "-Infinity").isPrefixOf l then .ok (.float (F.parse (.lit "-Infinity")), l.drop 9)
  else
    match scanNumber F l with
    | none => .error .decodeError
    | some (.int n, rest) => if maxStrDigits < integerDigits l then .error .valueError else .ok (.int n, rest)
    | some r => .ok r

mutual

/-- `scan_once`; `stack` is the depth to which arrays and objects may still be nested. -/
def scanOnce : (fuel stack : ℕ) → Text → Except LoadError (Json × Text)
  | 0, _, _ => .error .decodeError
  | _ + 1, _, [] => .error .decodeError
  | fuel + 1, stack, c :: l =>
    if c = ch '"' then (required (scanString (l.length + 1) l)).map fun r => (.str r.1, r.2)
    else if c = ch '{' then
      if stack = 0 then .error .recursionError
      else if (skipWs l).head? = some (ch '}') then .ok (.obj [], (skipWs l).tail)
      else (scanFields fuel (stack - 1) (skipWs l)).map fun r => (.obj (r.1.foldl setField []), r.2)
    else if c = ch '[' then
      if stack = 0 then .error .recursionError
      else if (skipWs l).head? = some (ch ']') then .ok (.arr [], (skipWs l).tail)
      else (scanItems fuel (stack - 1) (skipWs l)).map fun r => (.arr r.1, r.2)
    else if (Text.lit "null").isPrefixOf (c :: l) then .ok (.null, l.drop 3)
    else if (Text.lit "true").isPrefixOf (c :: l) then .ok (.bool true, l.drop 3)
    else if (Text.lit "false").isPrefixOf (c :: l) then .ok (.bool false, l.drop 4)
    else scanConstant F (c :: l)

/-- The items of an array, up to its bracket. -/
def scanItems : (fuel stack : ℕ) → Text → Except LoadError (List Json × Text)
  | 0, _, _ => .error .decodeError
  | fuel + 1, stack, l =>
    match scanOnce fuel stack l with
    | .error e => .error e
    | .ok (x, l) =>
      match skipWs l with
      | [] => .error .decodeError
      | c :: l =>
        if c = ch ']' then .ok ([x], l)
        else if c = ch ',' then (scanItems fuel stack (skipWs l)).map fun r => (x :: r.1, r.2)
        else .error .decodeError

/-- The fields of an object, up to its brace. -/
def scanFields : (fuel stack : ℕ) → Text → Except LoadError (List (Text × Json) × Text)
  | 0, _, _ => .error .decodeError
  | _ + 1, _, [] => .error .decodeError
  | fuel + 1, stack, q :: l =>
    if q ≠ ch '"' then .error .decodeError
    else
      match scanString (l.length + 1) l with
      | none => .error .decodeError
      | some (k, l) =>
        match skipWs l with
        | [] => .error .decodeError
        | c :: l =>
          if c ≠ ch ':' then .error .decodeError
          else
            match scanOnce fuel stack (skipWs l) with
            | .error e => .error e
            | .ok (x, l) =>
              match skipWs l with
              | [] => .error .decodeError
              | c :: l =>
                if c = ch '}' then .ok ([(k, x)], l)
                else if c = ch ',' then (scanFields fuel stack (skipWs l)).map fun r => ((k, x) :: r.1, r.2)
                else .error .decodeError

end

/-- `json.loads`, of a string without a byte order mark. -/
def loadsText (stack : ℕ) (t : Text) : Except LoadError Json :=
  match scanOnce F (t.length + 1) stack (skipWs t) with
  | .error e => .error e
  | .ok (x, rest) => if skipWs rest = [] then .ok x else .error .decodeError

/-- `json.loads`, of bytes. -/
def loadsBytes (stack : ℕ) (b : List Byte) : Except LoadError Json :=
  match decodeDetected b with
  | none => .error .decodeError
  | some t => loadsText F stack t

end

/-! ## Printing with all escapes -/

/-- Four hexadecimal digits. -/
def hexText (n : ℕ) : Text :=
  [hexDigit (n / 4096), hexDigit (n / 256 % 16), hexDigit (n / 16 % 16), hexDigit (n % 16)]

/-- The escape sequences of what is not a printable ASCII character. -/
def asciiChar (c : CodePoint) : Text :=
  if c.val ≤ 0x7E then [c]
  else if c.val < 0x10000 then ch '\\' :: ch 'u' :: hexText c.val
  else
    ch '\\' :: ch 'u' :: hexText (0xD800 + (c.val - 0x10000) / 1024) ++
      ch '\\' :: ch 'u' :: hexText (0xDC00 + (c.val - 0x10000) % 1024)

/-- `json.dumps(value, separators=(',', ':'), sort_keys=True)` -/
def dumpsAscii (F : FloatText) (j : Json) : Text := (dumps F j).flatMap asciiChar

section

variable {c b : CodePoint} {s l : Text} {fuel n : ℕ}

theorem hex4_hexText (h : n < 0x10000) (l : Text) : hex4 (hexText n ++ l) = some (n, l) := by
  have hn : ((n / 4096 * 16 + n / 256 % 16) * 16 + n / 16 % 16) * 16 + n % 16 = n := by omega
  simp only [hexText, List.cons_append, List.nil_append, hex4, hexValue_hexDigit (show n / 4096 < 16 by omega),
    hexValue_hexDigit (Nat.mod_lt _ (by omega)), Option.bind_eq_bind, Option.bind_some, Option.pure_def, hn]

theorem asciiChar_ascii {x : CodePoint} (h : x ∈ asciiChar c) : x.val < 0x80 := by
  have hhex : ∀ {n : ℕ}, n < 16 → (hexDigit n).val < 0x80 := by
    intro n hn
    interval_cases n <;> decide
  have hfour : ∀ {n : ℕ} {x : CodePoint}, n < 0x10000 → x ∈ hexText n → x.val < 0x80 := by
    intro n x hn hx
    simp only [hexText, List.mem_cons, List.not_mem_nil, or_false] at hx
    obtain rfl | rfl | rfl | rfl := hx <;> exact hhex (by omega)
  have hc := c.isLt
  unfold asciiChar at h
  split_ifs at h with hascii hplane
  · rw [List.mem_singleton] at h
    subst h
    omega
  · simp only [List.mem_cons] at h
    obtain rfl | rfl | h := h
    · decide
    · decide
    · exact hfour hplane h
  · simp only [List.cons_append, List.mem_cons, List.mem_append] at h
    obtain rfl | rfl | h | rfl | rfl | h := h
    iterate 2 decide
    · exact hfour (by omega) h
    iterate 2 decide
    · exact hfour (by omega) h

/-- **Only ASCII is printed.** -/
theorem dumpsAscii_ascii (F : FloatText) (j : Json) {x : CodePoint} (h : x ∈ dumpsAscii F j) : x.val < 0x80 := by
  obtain ⟨c, -, hx⟩ := List.mem_flatMap.1 h
  exact asciiChar_ascii hx

/-- A character as it is printed in a string. -/
def printed (c : CodePoint) : Text := (escapeChar c).flatMap asciiChar

theorem printed_of_ascii (h : c.val ≤ 0x7E) : printed c = escapeChar c := by
  have hhex : ∀ {n : ℕ}, n < 16 → (hexDigit n).val ≤ 0x7E := by
    intro n hn
    interval_cases n <;> decide
  have hall : ∀ x ∈ escapeChar c, x.val ≤ 0x7E := by
    intro x hx
    unfold escapeChar at hx
    split_ifs at hx <;> simp only [List.mem_cons, List.not_mem_nil, or_false] at hx
    all_goals first
      | (obtain rfl | rfl := hx <;> decide)
      | (obtain rfl | rfl | rfl | rfl | rfl | rfl := hx <;> first | decide | exact hhex (by omega))
      | (subst hx; exact h)
  have hself : ∀ t : Text, (∀ x ∈ t, x.val ≤ 0x7E) → t.flatMap asciiChar = t := by
    intro t ht
    induction t with
    | nil => rfl
    | cons x t ih =>
      rw [List.flatMap_cons, asciiChar, if_pos (ht x List.mem_cons_self), ih fun y hy => ht y (List.mem_cons_of_mem _ hy)]
      rfl
  exact hself _ hall

theorem printed_of_not_ascii (h : ¬c.val ≤ 0x7E) : printed c = asciiChar c := by
  have hesc : escapeChar c = [c] := by
    have hne : ∀ {x : CodePoint}, x.val ≤ 0x7E → c ≠ x := fun hx heq => h (heq ▸ hx)
    rw [escapeChar, if_neg (hne (by decide)), if_neg (hne (by decide)), if_neg (hne (by decide)),
      if_neg (hne (by decide)), if_neg (hne (by decide)), if_neg (by omega), if_neg (by omega), if_neg (by omega)]
  rw [printed, hesc, List.flatMap_singleton]

/-- After a high surrogate, what is printed is read by itself, but for a low surrogate. -/
theorem lowSurrogate_printed (hb : b.lowSurrogate = false) (l : Text) :
    lowSurrogate n (printed b ++ l) = some (Fin.ofNat _ n, printed b ++ l) := by
  have hescaped : ∀ {m : ℕ} {l : Text}, m < 0x10000 → ¬(0xDC00 ≤ m ∧ m ≤ 0xDFFF) →
      lowSurrogate n (ch '\\' :: ch 'u' :: (hexText m ++ l)) =
        some (Fin.ofNat _ n, ch '\\' :: ch 'u' :: (hexText m ++ l)) := by
    intro m l hm hlow
    rw [lowSurrogate]
    split_ifs
    · simp only [hex4_hexText hm, Option.bind_eq_bind, Option.bind_some, if_neg hlow, Option.pure_def]
    · rfl
  have hother : ∀ {x : CodePoint} {t : Text}, x ≠ ch 'u' → lowSurrogate n (ch '\\' :: x :: t) =
      some (Fin.ofNat _ n, ch '\\' :: x :: t) := by
    intro x t hx
    rw [lowSurrogate, if_neg (by rintro ⟨-, -, -, h⟩; exact hx h)]
  by_cases hascii : b.val ≤ 0x7E
  · rw [printed_of_ascii hascii]
    unfold escapeChar
    split_ifs with hquote hback hnl hcr htab hbs hff hctl
    iterate 7 exact hother (by decide)
    · have hhex : hexText b.val = [ch '0', ch '0', hexDigit (b.val / 16), hexDigit (b.val % 16)] := by
        have hzero : hexDigit 0 = ch '0' := rfl
        rw [hexText, Nat.div_eq_of_lt (by omega), Nat.div_eq_of_lt (by omega), Nat.zero_mod, hzero,
          Nat.mod_eq_of_lt (a := b.val / 16) (by omega)]
      have hlow := hescaped (m := b.val) (l := l) (by omega) (by omega)
      rw [hhex] at hlow
      exact hlow
    · cases l with
      | nil => rfl
      | cons u l =>
        rw [List.singleton_append, lowSurrogate, if_neg (by rintro ⟨-, -, h, -⟩; exact hback h)]
  · rw [printed_of_not_ascii hascii, asciiChar, if_neg hascii]
    split_ifs with hplane
    · refine hescaped hplane ?_
      intro hlow
      rw [CodePoint.lowSurrogate, decide_eq_true hlow.1, decide_eq_true hlow.2] at hb
      cases hb
    · have hb := b.isLt
      have hlow := hescaped (m := 0xD800 + (b.val - 0x10000) / 1024)
        (l := ch '\\' :: ch 'u' :: hexText (0xDC00 + (b.val - 0x10000) % 1024) ++ l) (by omega) (by omega)
      simpa only [List.cons_append, List.append_assoc] using hlow

theorem lowSurrogate_quote (l : Text) : lowSurrogate n (ch '"' :: l) = some (Fin.ofNat _ n, ch '"' :: l) := by
  cases l with
  | nil => rfl
  | cons u l => rw [lowSurrogate, if_neg (by rintro ⟨-, -, h, -⟩; exact absurd h (by decide))]

theorem lowSurrogate_of_not_high (hn : ¬(0xD800 ≤ n ∧ n ≤ 0xDBFF)) (l : Text) :
    lowSurrogate n l = some (Fin.ofNat _ n, l) := by
  unfold lowSurrogate
  split
  · rw [if_neg (by rintro ⟨h, h', -⟩; exact hn ⟨h, h'⟩)]
  · rfl

theorem lowSurrogate_escaped {m : ℕ} (hn : 0xD800 ≤ n ∧ n ≤ 0xDBFF) (hm : 0xDC00 ≤ m ∧ m ≤ 0xDFFF) (l : Text) :
    lowSurrogate n (ch '\\' :: ch 'u' :: (hexText m ++ l)) =
      some (Fin.ofNat _ (0x10000 + (n - 0xD800) * 1024 + (m - 0xDC00)), l) := by
  rw [lowSurrogate, if_pos ⟨hn.1, hn.2, rfl, rfl⟩]
  simp only [hex4_hexText (show m < 0x10000 by omega), Option.bind_eq_bind, Option.bind_some, if_pos hm, Option.pure_def]

theorem scanString_escaped (hn : n < 0x10000) (l : Text) :
    scanString (fuel + 1) (ch '\\' :: ch 'u' :: (hexText n ++ l)) =
      (lowSurrogate n l).bind fun r => (scanString fuel r.2).map fun s => (r.1 :: s.1, s.2) := by
  have hu : unescape (ch 'u' :: (hexText n ++ l)) = lowSurrogate n l := by
    have hbind : unescape (ch 'u' :: (hexText n ++ l)) = (hex4 (hexText n ++ l)).bind fun r => lowSurrogate r.1 r.2 := rfl
    rw [hbind, hex4_hexText hn, Option.bind_some]
  rw [scanString, if_neg (by decide), if_pos rfl, hu]

theorem scanString_printed (hnext : c.highSurrogate = false ∨ lowSurrogate c.val l = some (c, l)) :
    scanString (fuel + 1) (printed c ++ l) = (scanString fuel l).map fun s => (c :: s.1, s.2) := by
  by_cases hascii : c.val ≤ 0x7E
  · rw [printed_of_ascii hascii, scanString_escapeChar]
  · rw [printed_of_not_ascii hascii, asciiChar, if_neg hascii]
    have hself : Fin.ofNat 0x110000 c.val = c := Fin.ofNat_val_eq_self c
    split_ifs with hplane
    · have halone : lowSurrogate c.val l = some (c, l) := by
        obtain hhigh | halone := hnext
        · rw [CodePoint.highSurrogate, Bool.and_eq_false_iff, decide_eq_false_iff_not, decide_eq_false_iff_not] at hhigh
          rw [lowSurrogate_of_not_high (by omega), hself]
        · exact halone
      rw [List.cons_append, List.cons_append, scanString_escaped hplane, halone, Option.bind_some]
    · have hc := c.isLt
      have hval : 0x10000 + (0xD800 + (c.val - 0x10000) / 1024 - 0xD800) * 1024 +
          (0xDC00 + (c.val - 0x10000) % 1024 - 0xDC00) = c.val := by omega
      have hpair : ch '\\' :: ch 'u' :: hexText (0xD800 + (c.val - 0x10000) / 1024) ++
          ch '\\' :: ch 'u' :: hexText (0xDC00 + (c.val - 0x10000) % 1024) ++ l =
          ch '\\' :: ch 'u' :: (hexText (0xD800 + (c.val - 0x10000) / 1024) ++
            ch '\\' :: ch 'u' :: (hexText (0xDC00 + (c.val - 0x10000) % 1024) ++ l)) := by simp
      rw [hpair, scanString_escaped (by omega), lowSurrogate_escaped (by omega) (by omega), Option.bind_some]
      dsimp only
      rw [hval, hself]

theorem scanString_pair {a : CodePoint} (ha : a.highSurrogate = true) (hb : b.lowSurrogate = true) :
    scanString (fuel + 1) (printed a ++ (printed b ++ l)) =
      (scanString fuel l).map fun s => (joined a b :: s.1, s.2) := by
  rw [CodePoint.highSurrogate, Bool.and_eq_true, decide_eq_true_eq, decide_eq_true_eq] at ha
  rw [CodePoint.lowSurrogate, Bool.and_eq_true, decide_eq_true_eq, decide_eq_true_eq] at hb
  have hprinted : ∀ {c : CodePoint}, 0xD800 ≤ c.val → c.val ≤ 0xDFFF →
      ∀ t, printed c ++ t = ch '\\' :: ch 'u' :: (hexText c.val ++ t) := by
    intro c hlow hhigh t
    rw [printed_of_not_ascii (by omega), asciiChar, if_neg (by omega), if_pos (by omega)]
    rfl
  rw [hprinted ha.1 (by omega), hprinted (by omega) hb.2, scanString_escaped (by omega), lowSurrogate_escaped ha hb,
    Option.bind_some]
  rfl

theorem length_printed (c : CodePoint) : 1 ≤ (printed c).length := by
  by_cases hascii : c.val ≤ 0x7E
  · rw [printed_of_ascii hascii]
    exact length_escapeChar c
  · rw [printed_of_not_ascii hascii, asciiChar, if_neg hascii]
    split_ifs <;> simp

/-- **A string is read as it was printed**, with its pairs joined. -/
theorem scanString_joined (s : Text) : ∀ {fuel : ℕ} {l : Text}, (s.flatMap printed).length < fuel →
    scanString fuel (s.flatMap printed ++ ch '"' :: l) = some (joinPairs s, l) := by
  fun_induction joinPairs s with
  | case1 a b t hpair ih =>
    intro fuel l hfuel
    rw [Bool.and_eq_true] at hpair
    rw [List.flatMap_cons, List.flatMap_cons, List.length_append, List.length_append] at hfuel
    have hone := length_printed a
    obtain ⟨fuel, rfl⟩ : ∃ n, fuel = n + 1 := ⟨fuel - 1, by omega⟩
    rw [List.flatMap_cons, List.flatMap_cons, List.append_assoc, List.append_assoc, scanString_pair hpair.1 hpair.2,
      ih (by omega), Option.map_some]
  | case2 a b t hpair ih =>
    intro fuel l hfuel
    rw [List.flatMap_cons, List.length_append] at hfuel
    have hone := length_printed a
    obtain ⟨fuel, rfl⟩ : ∃ n, fuel = n + 1 := ⟨fuel - 1, by omega⟩
    have hnext : a.highSurrogate = false ∨
        lowSurrogate a.val ((b :: t).flatMap printed ++ ch '"' :: l) =
          some (a, (b :: t).flatMap printed ++ ch '"' :: l) := by
      cases hhigh : a.highSurrogate with
      | false => exact .inl rfl
      | true =>
        rw [hhigh, Bool.true_and, Bool.not_eq_true] at hpair
        have halone := lowSurrogate_printed (n := a.val) hpair (t.flatMap printed ++ ch '"' :: l)
        rw [Fin.ofNat_val_eq_self] at halone
        rw [List.flatMap_cons, List.append_assoc]
        exact .inr halone
    rw [List.flatMap_cons, List.append_assoc, scanString_printed hnext, ih (by omega), Option.map_some]
  | case3 s hshort =>
    intro fuel l hfuel
    cases s with
    | nil =>
      obtain ⟨fuel, rfl⟩ : ∃ n, fuel = n + 1 := ⟨fuel - 1, by omega⟩
      rfl
    | cons a s =>
      cases s with
      | nil =>
        rw [List.flatMap_singleton] at hfuel
        have hone := length_printed a
        obtain ⟨fuel, rfl⟩ : ∃ n, fuel = n + 2 := ⟨fuel - 2, by omega⟩
        have halone := lowSurrogate_quote (n := a.val) l
        rw [Fin.ofNat_val_eq_self] at halone
        rw [List.flatMap_singleton, scanString_printed (.inr halone)]
        rfl
      | cons b s => exact absurd rfl (hshort a b s)

/-! ## Objects of strings -/

/-- A string as it is printed. -/
def quoted (s : Text) : Text := ch '"' :: (s.flatMap printed ++ [ch '"'])

theorem flatMap_strText (s : Text) : (strText s).flatMap asciiChar = quoted s := by
  rw [strText, List.flatMap_cons, List.flatMap_append, List.flatMap_assoc]
  rfl

theorem scanOnce_quoted (F : FloatText) (fuel stack : ℕ) (s l : Text) :
    scanOnce F (fuel + 1) stack (quoted s ++ l) = .ok (.str (joinPairs s), l) := by
  rw [quoted, List.cons_append, List.append_assoc, List.singleton_append, scanOnce, if_pos rfl,
    scanString_joined s (by rw [List.length_append, List.length_cons]; omega)]
  rfl

theorem skipWs_quoted (s l : Text) : skipWs (quoted s ++ l) = quoted s ++ l := skipWs_cons (by decide)

/-- **A field that is a string**, before another one. -/
theorem scanFields_quoted (F : FloatText) (fuel stack : ℕ) (k s : Text) (hl : skipWs l = l) :
    scanFields F (fuel + 2) stack (quoted k ++ ch ':' :: (quoted s ++ ch ',' :: l)) =
      (scanFields F (fuel + 1) stack l).map fun r => ((joinPairs k, .str (joinPairs s)) :: r.1, r.2) := by
  have hkey : ∀ t : Text, scanString ((k.flatMap printed ++ ch '"' :: t).length + 1)
      (k.flatMap printed ++ ch '"' :: t) = some (joinPairs k, t) := by
    intro t
    exact scanString_joined k (by rw [List.length_append, List.length_cons]; omega)
  have hcolon : ∀ t, skipWs (ch ':' :: t) = ch ':' :: t := fun t => skipWs_cons (by decide)
  have hcomma : ∀ t, skipWs (ch ',' :: t) = ch ',' :: t := fun t => skipWs_cons (by decide)
  have hfields : quoted k ++ ch ':' :: (quoted s ++ ch ',' :: l) =
      ch '"' :: (k.flatMap printed ++ ch '"' :: ch ':' :: (quoted s ++ ch ',' :: l)) := by simp [quoted]
  rw [hfields, scanFields, if_neg (by simp), hkey]
  dsimp only
  rw [hcolon]
  dsimp only
  rw [if_neg (by simp), skipWs_quoted, scanOnce_quoted]
  dsimp only
  rw [hcomma]
  dsimp only
  rw [if_neg (by decide), if_pos rfl, hl]

end

end Json

end Lib
