/-
  Strings as the two runtimes have them.

  A `Text` is a sequence of Unicode code points in which a surrogate may stand
  alone: such strings exist in Python (`json.loads` makes them from `\ud800`)
  and in JavaScript (a slice through a surrogate pair), and they have no UTF-8
  encoding.  `utf16Length` is JavaScript's `length`, in UTF-16 code units; `bytes`
  is the length of the UTF-8 encoding of a code point.
-/
import Mathlib

namespace Lib

/-- A Unicode code point, surrogates included. -/
abbrev CodePoint := Fin 0x110000

/-- A string. -/
abbrev Text := List CodePoint

instance Text.instLawfulBEq : LawfulBEq Text := inferInstance

instance CodePoint.instLawfulBEq : LawfulBEq CodePoint := inferInstance

instance CodePoint.instNeZero : NeZero 0x110000 := inferInstance

/-- The code point of a character. -/
def CodePoint.ofChar (c : Char) : CodePoint := ⟨c.toNat, by
  have h : c.toNat = c.val.toNat := rfl
  rcases c.valid with hc | hc <;> omega⟩

/-- Is the code point a surrogate? -/
def CodePoint.surrogate (c : CodePoint) : Bool := 0xD800 ≤ c.val && c.val ≤ 0xDFFF

/-- The number of UTF-16 code units of a code point. -/
def CodePoint.units (c : CodePoint) : ℕ := if c.val < 0x10000 then 1 else 2

/-- The number of bytes of the UTF-8 encoding of a code point. -/
def CodePoint.bytes (c : CodePoint) : ℕ :=
  if c.val < 0x80 then 1 else if c.val < 0x800 then 2 else if c.val < 0x10000 then 3 else 4

namespace Text

/-- A string literal. -/
def lit (s : String) : Text := s.toList.map CodePoint.ofChar

/-- `str.isspace`, of one character. -/
def isSpace (c : CodePoint) : Bool :=
  (9 ≤ c.val && c.val ≤ 13) || (0x1C ≤ c.val && c.val ≤ 0x20) || (0x2000 ≤ c.val && c.val ≤ 0x200A) ||
    c.val ∈ [0x85, 0xA0, 0x1680, 0x2028, 0x2029, 0x202F, 0x205F, 0x3000]

/-- `str.strip` -/
def strip (t : Text) : Text := ((t.dropWhile isSpace).reverse.dropWhile isSpace).reverse

/-- JavaScript's `length`. -/
def utf16Length (t : Text) : ℕ := (t.map CodePoint.units).sum

theorem utf16Length_eq_length {t : Text} (h : ∀ c ∈ t, c.val < 0x10000) : t.utf16Length = t.length := by
  induction t with
  | nil => rfl
  | cons c t ih =>
    obtain ⟨hc, ht⟩ := List.forall_mem_cons.1 h
    have hunits : c.units = 1 := if_pos hc
    have hrest := ih ht
    simp only [utf16Length, List.map_cons, List.sum_cons, List.length_cons] at hrest ⊢
    omega

theorem ofChar_injective : Function.Injective CodePoint.ofChar := by
  intro a b h
  have hn : a.toNat = b.toNat := congrArg (fun c : CodePoint => c.val) h
  exact Char.toNat_inj.1 hn

@[simp] theorem lit_inj {a b : String} : lit a = lit b ↔ a = b :=
  ⟨fun h => String.toList_inj.1 (List.map_injective_iff.2 ofChar_injective h),
    fun h => h ▸ rfl⟩

@[simp] theorem lit_eq_nil {s : String} : lit s = [] ↔ s = "" := by
  rw [show ([] : Text) = lit "" from rfl, lit_inj]

end Text

end Lib
