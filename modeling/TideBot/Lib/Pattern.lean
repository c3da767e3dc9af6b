/-
  Searching a string for simple patterns, as a regular expression without the `u`
  flag does: on UTF-16 code units, ignoring the case of ASCII letters.
-/
import TideBot.Lib.Text

namespace Lib

/-- The UTF-16 code units of a string. -/
def Text.units (t : Text) : List ℕ :=
  t.flatMap fun c =>
    if c.val < 0x10000 then [c.val]
    else [0xD800 + (c.val - 0x10000) / 0x400, 0xDC00 + (c.val - 0x10000) % 0x400]

namespace Pattern

/-- The lower case of an ASCII letter; other units are themselves. -/
def lower (u : ℕ) : ℕ := if 65 ≤ u ∧ u ≤ 90 then u + 32 else u

/-- The units a search for a word or in a text works on. -/
def folded (t : Text) : List ℕ := t.units.map lower

/-- `[a-z]`, on lowered units. -/
def isLetter (u : ℕ) : Bool := 97 ≤ u ∧ u ≤ 122

/-- What `.` does not match. -/
def isLineTerminator (u : ℕ) : Bool := u = 10 ∨ u = 13 ∨ u = 0x2028 ∨ u = 0x2029

/-- Is there a position at which `m` matches?  `m` is given the unit before it
    and the units from it on. -/
def anywhere (m : Option ℕ → List ℕ → Bool) : Option ℕ → List ℕ → Bool
  | before, [] => m before []
  | before, u :: us => m before (u :: us) || anywhere m (some u) us

/-- Some units other than line terminators, at most `n`, and then `m`. -/
def afterGap (m : List ℕ → Bool) : ℕ → List ℕ → Bool
  | 0, s => m s
  | _ + 1, [] => m []
  | n + 1, u :: us => m (u :: us) || (!isLineTerminator u && afterGap m n us)

/-- Does one of the words stand here? -/
def oneOf (words : List String) (s : List ℕ) : Bool :=
  words.any fun w => (folded (.lit w)).isPrefixOf s

/-- `/(w1|w2|...)/i.test(t)` -/
def contains (words : List String) (t : Text) : Bool :=
  anywhere (fun _ s => oneOf words s) none (folded t)

/-- `/(?<![a-z])(w1|w2|...)(?![a-z])/i.test(t)` -/
def containsWord (words : List String) (t : Text) : Bool :=
  anywhere (fun before s => !before.any isLetter && words.any fun w =>
    (folded (.lit w)).isPrefixOf s && !((s.drop (folded (.lit w)).length).head?.any isLetter))
    none (folded t)

/-- `/(w1|w2|...).{0,n}(v1|v2|...)/i.test(t)` -/
def containsPair (words : List String) (n : ℕ) (words' : List String) (t : Text) : Bool :=
  anywhere (fun _ s => words.any fun w => (folded (.lit w)).isPrefixOf s &&
    afterGap (oneOf words') n (s.drop (folded (.lit w)).length)) none (folded t)

example : containsWord ["pay"] (.lit "Pay now") = true := by decide +kernel
example : containsWord ["pay"] (.lit "payment") = false := by decide +kernel

end Pattern

end Lib
