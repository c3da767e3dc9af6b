/-
  Bytes: the UTF-8 encoding, and base64 without padding.

  A surrogate that stands alone has no UTF-8 encoding (`utf8`).  The decoder is that of
  Python with `surrogatepass`, which is lenient about them (`utf8Decode`).

  The base64 decoder is `binascii.a2b_base64` in its lenient mode (`a2b`): it passes over
  what is not in the alphabet and stops at the padding.
-/
import TideBot.Lib.Text

namespace Lib

/-- A byte. -/
abbrev Byte := Fin 256

instance Byte.instNeZero : NeZero 256 := inferInstance

/-- The low eight bits. -/
def byte (n : ℕ) : Byte := Fin.ofNat 256 n

theorem byte_val {n : ℕ} (h : n < 256) : (byte n).val = n := Nat.mod_eq_of_lt h

/-! ## UTF-8 -/

/-- Is there no surrogate? -/
def Text.encodable (t : Text) : Bool := t.all fun c => !c.surrogate

/-- The encoding of a code point. -/
def CodePoint.utf8 (c : CodePoint) : List Byte :=
  if c.val < 0x80 then [byte c.val]
  else if c.val < 0x800 then [byte (0xC0 + c.val / 64), byte (0x80 + c.val % 64)]
  else if c.val < 0x10000 then
    [byte (0xE0 + c.val / 4096), byte (0x80 + c.val / 64 % 64), byte (0x80 + c.val % 64)]
  else [byte (0xF0 + c.val / 262144), byte (0x80 + c.val / 4096 % 64), byte (0x80 + c.val / 64 % 64),
    byte (0x80 + c.val % 64)]

/-- `str.encode('utf-8')`; `none`: it raises. -/
def Text.utf8 (t : Text) : Option (List Byte) :=
  if Text.encodable t then some (t.flatMap CodePoint.utf8) else none

/-- `bytes.decode('utf-8', 'surrogatepass')`: `need` bytes are to come of a code point that
    has the bits `acc` so far and is at least `least`. -/
def utf8Decode : ℕ → ℕ → ℕ → List Byte → Option Text
  | 0, _, _, [] => some []
  | _ + 1, _, _, [] => none
  | 0, _, _, a :: l =>
    if h : a.val < 0x80 then (utf8Decode 0 0 0 l).map (⟨a.val, by omega⟩ :: ·)
    else if 0xC2 ≤ a.val ∧ a.val ≤ 0xDF then utf8Decode 1 (a.val - 0xC0) 0x80 l
    else if 0xE0 ≤ a.val ∧ a.val ≤ 0xEF then utf8Decode 2 (a.val - 0xE0) 0x800 l
    else if 0xF0 ≤ a.val ∧ a.val ≤ 0xF4 then utf8Decode 3 (a.val - 0xF0) 0x10000 l
    else none
  | 1, acc, least, a :: l =>
    if h : (0x80 ≤ a.val ∧ a.val ≤ 0xBF) ∧ least ≤ acc * 64 + (a.val - 0x80) ∧
        acc * 64 + (a.val - 0x80) < 0x110000 then
      (utf8Decode 0 0 0 l).map (⟨acc * 64 + (a.val - 0x80), h.2.2⟩ :: ·)
    else none
  | n + 2, acc, least, a :: l =>
    if 0x80 ≤ a.val ∧ a.val ≤ 0xBF then utf8Decode (n + 1) (acc * 64 + (a.val - 0x80)) least l
    else none

theorem utf8Decode_last {acc least n : ℕ} {c : CodePoint} {l : List Byte} (hn : n < 64)
    (hc : acc * 64 + n = c.val) (hleast : least ≤ c.val) :
    utf8Decode 1 acc least (byte (0x80 + n) :: l) = (utf8Decode 0 0 0 l).map (c :: ·) := by
  have hb : (byte (0x80 + n)).val = 0x80 + n := byte_val (by omega)
  have hsum : acc * 64 + ((byte (0x80 + n)).val - 0x80) = c.val := by omega
  rw [utf8Decode, dif_pos ⟨by omega, by omega, by omega⟩]
  have heq : (⟨acc * 64 + ((byte (0x80 + n)).val - 0x80), by omega⟩ : CodePoint) = c := Fin.ext hsum
  rw [heq]

theorem utf8Decode_middle {m acc least n : ℕ} {l : List Byte} (hn : n < 64) :
    utf8Decode (m + 2) acc least (byte (0x80 + n) :: l) = utf8Decode (m + 1) (acc * 64 + n) least l := by
  have hb : (byte (0x80 + n)).val = 0x80 + n := byte_val (by omega)
  have hsub : 0x80 + n - 0x80 = n := by omega
  rw [utf8Decode, if_pos (by omega), hb, hsub]

/-- **A code point is decoded as it was encoded.** -/
theorem utf8Decode_utf8 (c : CodePoint) (l : List Byte) :
    utf8Decode 0 0 0 (c.utf8 ++ l) = (utf8Decode 0 0 0 l).map (c :: ·) := by
  have hc := c.isLt
  unfold CodePoint.utf8
  split_ifs with h₁ h₂ h₃
  · have hb : (byte c.val).val = c.val := byte_val (by omega)
    rw [List.singleton_append, utf8Decode, dif_pos (by omega)]
    have heq : (⟨(byte c.val).val, by omega⟩ : CodePoint) = c := Fin.ext hb
    rw [heq]
  · have hb : (byte (0xC0 + c.val / 64)).val = 0xC0 + c.val / 64 := byte_val (by omega)
    rw [List.cons_append, utf8Decode, dif_neg (by omega), if_pos (by omega), List.singleton_append]
    exact utf8Decode_last (by omega) (by omega) (by omega)
  · have hb : (byte (0xE0 + c.val / 4096)).val = 0xE0 + c.val / 4096 := byte_val (by omega)
    rw [List.cons_append, utf8Decode, dif_neg (by omega), if_neg (by omega), if_pos (by omega),
      List.cons_append, utf8Decode_middle (by omega), List.singleton_append]
    exact utf8Decode_last (by omega) (by omega) (by omega)
  · have hb : (byte (0xF0 + c.val / 262144)).val = 0xF0 + c.val / 262144 := byte_val (by omega)
    rw [List.cons_append, utf8Decode, dif_neg (by omega), if_neg (by omega), if_neg (by omega),
      if_pos (by omega), List.cons_append, utf8Decode_middle (by omega), List.cons_append,
      utf8Decode_middle (by omega), List.singleton_append]
    exact utf8Decode_last (by omega) (by omega) (by omega)

theorem utf8Decode_flatMap (t : Text) : utf8Decode 0 0 0 (t.flatMap CodePoint.utf8) = some t := by
  induction t with
  | nil => rfl
  | cons c t ih => rw [List.flatMap_cons, utf8Decode_utf8, ih, Option.map_some]

/-! ## Base64 -/

/-- The alphabet of `urlsafe_b64encode`. -/
def b64Char (n : ℕ) : CodePoint :=
  if n < 26 then Fin.ofNat _ (65 + n)
  else if n < 52 then Fin.ofNat _ (97 + (n - 26))
  else if n < 62 then Fin.ofNat _ (48 + (n - 52))
  else if n = 62 then .ofChar '-'
  else .ofChar '_'

/-- The value of a character, after `-_` were translated to `+/`. -/
def b64Value (c : CodePoint) : Option ℕ :=
  if 65 ≤ c.val ∧ c.val ≤ 90 then some (c.val - 65)
  else if 97 ≤ c.val ∧ c.val ≤ 122 then some (c.val - 97 + 26)
  else if 48 ≤ c.val ∧ c.val ≤ 57 then some (c.val - 48 + 52)
  else if c = .ofChar '-' ∨ c = .ofChar '+' then some 62
  else if c = .ofChar '_' ∨ c = .ofChar '/' then some 63
  else none

/-- `base64.urlsafe_b64encode(value).rstrip(b'=')` -/
def b64Encode : List Byte → Text
  | [] => []
  | [a] => [b64Char (a.val / 4), b64Char (a.val % 4 * 16)]
  | [a, b] => [b64Char (a.val / 4), b64Char (a.val % 4 * 16 + b.val / 16), b64Char (b.val % 16 * 4)]
  | a :: b :: c :: l =>
    b64Char (a.val / 4) :: b64Char (a.val % 4 * 16 + b.val / 16) ::
      b64Char (b.val % 16 * 4 + c.val / 64) :: b64Char (c.val % 64) :: b64Encode l

/-- `binascii.a2b_base64`: `quad` characters of a group of four were read, with the bits
    `left` to be used, and `pads` characters of padding. -/
def a2b : ℕ → ℕ → ℕ → Text → Option (List Byte)
  | quad, _, _, [] => if quad = 0 then some [] else none
  | quad, left, pads, c :: l =>
    if c = .ofChar '=' then
      if 2 ≤ quad ∧ 4 ≤ quad + (pads + 1) then some []
      else a2b quad left (if 2 ≤ quad then pads + 1 else pads) l
    else
      match b64Value c, quad with
      | none, _ => a2b quad left pads l
      | some v, 0 => a2b 1 v 0 l
      | some v, 1 => (a2b 2 (v % 16) 0 l).map (byte (left * 4 + v / 16) :: ·)
      | some v, 2 => (a2b 3 (v % 4) 0 l).map (byte (left * 16 + v / 4) :: ·)
      | some v, _ => (a2b 0 0 0 l).map (byte (left * 64 + v) :: ·)

/-- `base64.urlsafe_b64decode(f'{value}{padding}')`; what is not ASCII raises. -/
def b64Decode (value : Text) : Option (List Byte) :=
  if value.all (·.val < 128) then
    a2b 0 0 0 (value ++ List.replicate ((4 - value.length % 4) % 4) (.ofChar '='))
  else none

theorem b64Value_b64Char {n : ℕ} (h : n < 64) :
    b64Value (b64Char n) = some n ∧ b64Char n ≠ .ofChar '=' ∧ (b64Char n).val < 128 := by
  interval_cases n <;> decide

theorem byte_eq {n : ℕ} {b : Byte} (h : n = b.val) : byte n = b := by
  rw [h]
  exact Fin.ofNat_val_eq_self b

/-- A decoder of groups of four characters: how many of a group were read, and the bits left over of them. -/
structure Decodes (D : (quad left : ℕ) → Text → Option (List Byte)) : Prop where
  first : ∀ n < 64, ∀ l, D 0 0 (b64Char n :: l) = D 1 n l
  second : ∀ n < 64, ∀ left l, D 1 left (b64Char n :: l) = (D 2 (n % 16) l).map (byte (left * 4 + n / 16) :: ·)
  third : ∀ n < 64, ∀ left l, D 2 left (b64Char n :: l) = (D 3 (n % 4) l).map (byte (left * 16 + n / 4) :: ·)
  fourth : ∀ n < 64, ∀ left l, D 3 left (b64Char n :: l) = (D 0 0 l).map (byte (left * 64 + n) :: ·)
  nothing : D 0 0 [] = some []
  two : ∀ left, D 2 left [.ofChar '=', .ofChar '='] = some []
  one : ∀ left, D 3 left [.ofChar '='] = some []

/-- **Bytes are decoded as they were encoded**, with the padding put back. -/
theorem Decodes.b64Encode {D : ℕ → ℕ → Text → Option (List Byte)} (h : Decodes D) (l : List Byte) :
    D 0 0 (b64Encode l ++ List.replicate ((4 - (b64Encode l).length % 4) % 4) (.ofChar '=')) = some l := by
  fun_induction Lib.b64Encode l with
  | case1 => exact h.nothing
  | case2 a =>
    have ha := a.isLt
    simp only [List.cons_append, List.nil_append, List.length_cons, List.length_nil]
    rw [h.first _ (by omega), h.second _ (by omega), byte_eq (b := a) (by omega)]
    exact congrArg (Option.map _) (h.two _)
  | case3 a b =>
    have ha := a.isLt
    have hb := b.isLt
    simp only [List.cons_append, List.nil_append, List.length_cons, List.length_nil]
    rw [h.first _ (by omega), h.second _ (by omega), h.third _ (by omega), byte_eq (b := a) (by omega),
      byte_eq (b := b) (by omega)]
    exact congrArg (Option.map _) (congrArg (Option.map _) (h.one _))
  | case4 a b c l ih =>
    have ha := a.isLt
    have hb := b.isLt
    have hc := c.isLt
    have hlen : (b64Char (a.val / 4) :: b64Char (a.val % 4 * 16 + b.val / 16) ::
        b64Char (b.val % 16 * 4 + c.val / 64) :: b64Char (c.val % 64) :: Lib.b64Encode l).length % 4 =
        (Lib.b64Encode l).length % 4 := by
      simp only [List.length_cons]
      omega
    rw [hlen]
    simp only [List.cons_append]
    rw [h.first _ (by omega), h.second _ (by omega), h.third _ (by omega), h.fourth _ (by omega), ih,
      byte_eq (b := a) (by omega), byte_eq (b := b) (by omega), byte_eq (b := c) (by omega)]
    rfl

theorem decodes_a2b : Decodes fun quad left => a2b quad left 0 := by
  constructor
  case nothing => rfl
  case two => exact fun _ => rfl
  case one => exact fun _ => rfl
  all_goals
    intro n hn
    intros
    simp only [a2b, if_neg (b64Value_b64Char hn).2.1, (b64Value_b64Char hn).1]

theorem mem_b64Encode {c : CodePoint} {l : List Byte} (h : c ∈ b64Encode l) : ∃ n < 64, c = b64Char n := by
  fun_induction b64Encode l with
  | case1 => cases h
  | case2 a =>
    have ha := a.isLt
    simp only [List.mem_cons, List.not_mem_nil, or_false] at h
    obtain rfl | rfl := h <;> exact ⟨_, by omega, rfl⟩
  | case3 a b =>
    have ha := a.isLt
    have hb := b.isLt
    simp only [List.mem_cons, List.not_mem_nil, or_false] at h
    obtain rfl | rfl | rfl := h <;> exact ⟨_, by omega, rfl⟩
  | case4 a b c' l ih =>
    have ha := a.isLt
    have hb := b.isLt
    have hc := c'.isLt
    simp only [List.mem_cons] at h
    obtain rfl | rfl | rfl | rfl | h := h
    iterate 4 exact ⟨_, by omega, rfl⟩
    exact ih h

theorem b64Encode_ascii (l : List Byte) : (b64Encode l).all (·.val < 128) := by
  rw [List.all_eq_true]
  intro c hc
  obtain ⟨n, hn, rfl⟩ := mem_b64Encode hc
  exact decide_eq_true (b64Value_b64Char hn).2.2

theorem b64Decode_b64Encode (l : List Byte) : b64Decode (b64Encode l) = some l := by
  rw [b64Decode, if_pos (b64Encode_ascii l)]
  exact decodes_a2b.b64Encode l

/-! ## Strict base64 -/

/-- `binascii.a2b_base64` in strict mode; `padded`: padding has begun. -/
def a2bStrict : (quad left pads : ℕ) → (padded : Bool) → Text → Option (List Byte)
  | quad, _, _, _, [] => if quad = 0 then some [] else none
  | quad, left, pads, padded, c :: l =>
    if c = .ofChar '=' then
      if 2 ≤ quad ∧ 4 ≤ quad + (pads + 1) then (if l = [] then some [] else none)
      else a2bStrict quad left (if 2 ≤ quad then pads + 1 else pads) true l
    else if padded then none
    else
      match b64Value c, quad with
      | none, _ => none
      | some v, 0 => a2bStrict 1 v 0 false l
      | some v, 1 => (a2bStrict 2 (v % 16) 0 false l).map (byte (left * 4 + v / 16) :: ·)
      | some v, 2 => (a2bStrict 3 (v % 4) 0 false l).map (byte (left * 16 + v / 4) :: ·)
      | some v, _ => (a2bStrict 0 0 0 false l).map (byte (left * 64 + v) :: ·)

/-- `base64.b64decode(f'{value}{padding}', altchars=b'-_', validate=True)`; `none`: it raises. -/
def b64DecodeStrict (value : Text) : Option (List Byte) :=
  let t := value ++ List.replicate ((4 - value.length % 4) % 4) (.ofChar '=')
  if value.all (·.val < 128) && t.head? ≠ some (.ofChar '=') then a2bStrict 0 0 0 false t else none

theorem decodes_a2bStrict : Decodes fun quad left => a2bStrict quad left 0 false := by
  constructor
  case nothing => rfl
  case two => exact fun _ => rfl
  case one => exact fun _ => rfl
  all_goals
    intro n hn
    intros
    simp only [a2bStrict, if_neg (b64Value_b64Char hn).2.1, (b64Value_b64Char hn).1, Bool.false_eq_true, if_false]

/-- **Bytes are decoded as they were encoded**, strictly. -/
theorem b64DecodeStrict_b64Encode (l : List Byte) : b64DecodeStrict (b64Encode l) = some l := by
  have hhead : (b64Encode l ++ List.replicate ((4 - (b64Encode l).length % 4) % 4) (CodePoint.ofChar '=')).head? ≠
      some (CodePoint.ofChar '=') := by
    cases henc : b64Encode l with
    | nil => simp
    | cons c t =>
      have hmem : c ∈ b64Encode l := by rw [henc]; exact List.mem_cons_self
      obtain ⟨n, hn, rfl⟩ := mem_b64Encode hmem
      rw [List.cons_append, List.head?_cons, ne_eq, Option.some_inj]
      exact (b64Value_b64Char hn).2.1
  rw [b64DecodeStrict, b64Encode_ascii, decide_eq_true hhead, Bool.and_self, if_pos rfl]
  exact decodes_a2bStrict.b64Encode l

theorem length_b64Encode (l : List Byte) : (b64Encode l).length = (4 * l.length + 2) / 3 := by
  fun_induction b64Encode l with
  | case1 => rfl
  | case2 a => simp
  | case3 a b => simp
  | case4 a b c l ih =>
    simp only [List.length_cons, ih]
    omega

end Lib
