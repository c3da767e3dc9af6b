/-
  The UTF-8 decoder of the Encoding Standard in stream mode: JavaScript's `TextDecoder`.

  The decoder takes byte after byte.  A byte that cannot stand where it stands gives a replacement
  character, and is read again if it came in the middle of a character.  A byte order mark at the start is
  left out.

  What is decoded of a stream does not depend on how it is cut into pieces (`feed_append`).
-/
import TideBot.Lib.Bytes

namespace Lib

/-- The bytes that are still needed for a character, its bits so far, the range of the next byte, and whether the
    stream has begun. -/
structure TextDecoder where
  needed : ℕ
  point : ℕ
  lower : ℕ
  upper : ℕ
  begun : Bool
  deriving DecidableEq

namespace TextDecoder

def initial : TextDecoder := ⟨0, 0, 0x80, 0xBF, false⟩

/-- U+FFFD -/
def replacement : CodePoint := 0xFFFD

/-- U+FEFF -/
def byteOrderMark : CodePoint := 0xFEFF

/-- Characters are put out; the first of the stream may be a byte order mark. -/
def put (begun : Bool) : Text → Bool × Text
  | [] => (begun, [])
  | c :: t => if !begun && c = byteOrderMark then (true, t) else (true, c :: t)

/-- The first byte of a character. -/
def first (b : Byte) : (ℕ × ℕ × ℕ × ℕ) × Text :=
  if b.val < 0x80 then ((0, 0, 0x80, 0xBF), [Fin.ofNat _ b.val])
  else if 0xC2 ≤ b.val ∧ b.val ≤ 0xDF then ((1, b.val - 0xC0, 0x80, 0xBF), [])
  else if 0xE0 ≤ b.val ∧ b.val ≤ 0xEF then
    ((2, b.val - 0xE0, if b.val = 0xE0 then 0xA0 else 0x80, if b.val = 0xED then 0x9F else 0xBF), [])
  else if 0xF0 ≤ b.val ∧ b.val ≤ 0xF4 then
    ((3, b.val - 0xF0, if b.val = 0xF0 then 0x90 else 0x80, if b.val = 0xF4 then 0x8F else 0xBF), [])
  else ((0, 0, 0x80, 0xBF), [replacement])

/-- What is read of a byte: what is needed next, and the characters that are complete. -/
def read (d : TextDecoder) (b : Byte) : (ℕ × ℕ × ℕ × ℕ) × Text :=
  if d.needed = 0 then first b
  else if d.lower ≤ b.val ∧ b.val ≤ d.upper then
    let point := d.point * 64 + (b.val - 0x80)
    if d.needed = 1 then ((0, 0, 0x80, 0xBF), [Fin.ofNat _ point])
    else ((d.needed - 1, point, 0x80, 0xBF), [])
  else ((first b).1, replacement :: (first b).2)

/-- One byte. -/
def step (d : TextDecoder) (b : Byte) : TextDecoder × Text :=
  let r := d.read b
  let p := put d.begun r.2
  (⟨r.1.1, r.1.2.1, r.1.2.2.1, r.1.2.2.2, p.1⟩, p.2)

/-- `decode(value, { stream: true })` -/
def feed (d : TextDecoder) : List Byte → TextDecoder × Text
  | [] => (d, [])
  | b :: value =>
    let r := (d.step b).1.feed value
    (r.1, (d.step b).2 ++ r.2)

/-- `decode()` -/
def flush (d : TextDecoder) : Text := if d.needed = 0 then [] else (put d.begun [replacement]).2

variable {d : TextDecoder} {b : Byte}

/-- **Bytes may be fed in pieces.** -/
theorem feed_append (d : TextDecoder) (a b : List Byte) :
    d.feed (a ++ b) = (((d.feed a).1.feed b).1, (d.feed a).2 ++ ((d.feed a).1.feed b).2) := by
  induction a generalizing d with
  | nil => simp [feed]
  | cons x a ih => simp [feed, ih]

theorem feed_singleton (d : TextDecoder) (b : Byte) : d.feed [b] = d.step b := by
  simp [feed]

/-- A byte completes at most one character, after the replacement of another one. -/
theorem read_cases (d : TextDecoder) (b : Byte) :
    (d.read b).2 = [] ∨ (∃ c, (d.read b).2 = [c]) ∨ ∃ c, (d.read b).2 = [replacement, c] := by
  have hfirst : (first b).2 = [] ∨ ∃ c, (first b).2 = [c] := by
    unfold first
    split_ifs <;> first | exact .inl rfl | exact .inr ⟨_, rfl⟩
  unfold read
  split_ifs
  · obtain h | ⟨c, h⟩ := hfirst
    · exact .inl h
    · exact .inr (.inl ⟨c, h⟩)
  · exact .inr (.inl ⟨_, rfl⟩)
  · exact .inl rfl
  · obtain h | ⟨c, h⟩ := hfirst
    · exact .inr (.inl ⟨replacement, by rw [h]⟩)
    · exact .inr (.inr ⟨c, by rw [h]⟩)

theorem step_cases (d : TextDecoder) (b : Byte) :
    (d.step b).2 = [] ∨ (∃ c, (d.step b).2 = [c]) ∨ ∃ c, (d.step b).2 = [replacement, c] := by
  have hput : ∀ (begun : Bool) (c : CodePoint), (put begun [c]).2 = [] ∨ (put begun [c]).2 = [c] := by
    intro begun c
    simp only [put]
    split_ifs
    · exact .inl rfl
    · exact .inr rfl
  have hstep : (d.step b).2 = (put d.begun (d.read b).2).2 := rfl
  rw [hstep]
  obtain h | ⟨c, h⟩ | ⟨c, h⟩ := d.read_cases b <;> rw [h]
  · exact .inl rfl
  · obtain hc | hc := hput d.begun c
    · exact .inl hc
    · exact .inr (.inl ⟨c, hc⟩)
  · have hne : ¬(!d.begun && replacement = byteOrderMark) = true := by
      simp [replacement, byteOrderMark]
    exact .inr (.inr ⟨c, by simp only [put, if_neg hne]⟩)

end TextDecoder

end Lib
