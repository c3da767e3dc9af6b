/-
  JSON values as they cross between a Python and a JavaScript program.

  A value is a parsed document.  Python keeps integers and floats apart, so a
  number carries which of the two its literal was; JavaScript sees only its
  value.  The fields of an object are in order of appearance.

  Of the printed form only the length in bytes matters here (`size`).  The two
  runtimes print numbers differently, and differ on a surrogate that stands
  alone: Python cannot encode it, JavaScript escapes it.  How a float is printed
  is a parameter of the printers.
-/
import TideBot.Lib.Text

namespace Lib

/-- A JSON value. -/
inductive Json where
  | null
  | bool (b : Bool)
  | int (n : ℤ)
  | float (q : ℚ)
  | str (s : Text)
  | arr (items : List Json)
  | obj (fields : List (Text × Json))

namespace Json

mutual

/-- Equality of values is decided, field by field. -/
def decEq : (a b : Json) → Decidable (a = b)
  | .null, .null => isTrue rfl
  | .bool a, .bool b => decidable_of_iff (a = b) (by simp)
  | .int a, .int b => decidable_of_iff (a = b) (by simp)
  | .float a, .float b => decidable_of_iff (a = b) (by simp)
  | .str a, .str b => decidable_of_iff (a = b) (by simp)
  | .arr xs, .arr ys => haveI := decEqItems xs ys; decidable_of_iff (xs = ys) (by simp)
  | .obj fs, .obj gs => haveI := decEqFields fs gs; decidable_of_iff (fs = gs) (by simp)
  | .null, .bool _ | .null, .int _ | .null, .float _ | .null, .str _ | .null, .arr _ | .null, .obj _
  | .bool _, .null | .bool _, .int _ | .bool _, .float _ | .bool _, .str _ | .bool _, .arr _ | .bool _, .obj _
  | .int _, .null | .int _, .bool _ | .int _, .float _ | .int _, .str _ | .int _, .arr _ | .int _, .obj _
  | .float _, .null | .float _, .bool _ | .float _, .int _ | .float _, .str _ | .float _, .arr _ | .float _, .obj _
  | .str _, .null | .str _, .bool _ | .str _, .int _ | .str _, .float _ | .str _, .arr _ | .str _, .obj _
  | .arr _, .null | .arr _, .bool _ | .arr _, .int _ | .arr _, .float _ | .arr _, .str _ | .arr _, .obj _
  | .obj _, .null | .obj _, .bool _ | .obj _, .int _ | .obj _, .float _ | .obj _, .str _ | .obj _, .arr _ =>
    isFalse (by simp)

def decEqItems : (xs ys : List Json) → Decidable (xs = ys)
  | [], [] => isTrue rfl
  | [], _ :: _ | _ :: _, [] => isFalse (by simp)
  | x :: xs, y :: ys =>
    haveI := decEq x y
    haveI := decEqItems xs ys
    decidable_of_iff (x = y ∧ xs = ys) (by simp)

def decEqFields : (fs gs : List (Text × Json)) → Decidable (fs = gs)
  | [], [] => isTrue rfl
  | [], _ :: _ | _ :: _, [] => isFalse (by simp)
  | (k, x) :: fs, (l, y) :: gs =>
    haveI := decEq x y
    haveI := decEqFields fs gs
    decidable_of_iff ((k = l ∧ x = y) ∧ fs = gs) (by simp)

end

instance : DecidableEq Json := decEq

/-- The value of a field of an object. -/
def field : Json → Text → Option Json
  | .obj fields, k => (fields.find? fun f => f.1 = k).map Prod.snd
  | _, _ => none

/-- Is the value an object? -/
def isObj : Json → Bool
  | .obj _ => true
  | _ => false

def isBool : Json → Bool
  | .bool _ => true
  | _ => false

/-- Python's `get` of a mapping: `None` for a key that is absent. -/
def get (j : Json) (k : Text) : Json := (j.field k).getD .null

/-- Python's `==` with a string. -/
def eqStr : Json → Text → Bool
  | .str s, t => s = t
  | _, _ => false

/-- Python's `==` with an integer; `True` is 1. -/
def eqInt : Json → ℤ → Bool
  | .int m, n => m = n
  | .float q, n => q = n
  | .bool b, n => (b.toNat : ℤ) = n
  | _, _ => false

/-- The number, as JavaScript has it. -/
def number : Json → Option ℚ
  | .int n => some n
  | .float q => some q
  | _ => none

theorem eqStr_iff {j : Json} {t : Text} : j.eqStr t ↔ j = .str t := by
  cases j <;> simp [eqStr]

/-! ## Printed length -/

/-- How a runtime prints the atoms, in bytes; `none`: it raises. -/
structure Printer where
  char : CodePoint → Option ℕ
  int : ℤ → ℕ
  float : ℚ → ℕ

/-- The length of the escape sequence of a character that both runtimes escape. -/
def escape (c : CodePoint) : Option ℕ :=
  if c = .ofChar '"' ∨ c = .ofChar '\\' ∨ c = .ofChar '\n' ∨ c = .ofChar '\r' ∨
      c = .ofChar '\t' ∨ c.val = 8 ∨ c.val = 12 then some 2
  else if c.val < 0x20 then some 6
  else none

/-- `json.dumps(..., separators=(',', ':'), ensure_ascii=False).encode('utf-8')`;
    `floatText` is `float.__repr__`. -/
def pyPrinter (floatText : ℚ → Text) : Printer where
  char c := (escape c).orElse fun _ => if c.surrogate then none else some c.bytes
  int n := (toString n).length
  float q := (floatText q).length

/-- `new TextEncoder().encode(JSON.stringify(...))`; `numberText` is
    `Number.prototype.toString`. -/
def jsPrinter (numberText : ℚ → Text) : Printer where
  char c := (escape c).orElse fun _ => if c.surrogate then some 6 else some c.bytes
  int n := (numberText n).length
  float q := (numberText q).length

/-- The printed length of a string, with its quotes. -/
def strSize (p : Printer) (s : Text) : Option ℕ := (s.mapM p.char).map fun ns => ns.sum + 2

mutual

/-- The printed length of a value. -/
def size (p : Printer) : Json → Option ℕ
  | .null => some 4
  | .bool b => some (if b then 4 else 5)
  | .int n => some (p.int n)
  | .float q => some (p.float q)
  | .str s => strSize p s
  | .arr [] => some 2
  | .arr (x :: xs) => (sizeItems p (x :: xs)).map (· + 1)
  | .obj [] => some 2
  | .obj (f :: fs) => (sizeFields p (f :: fs)).map (· + 1)

/-- The items of an array, each with the separator or bracket after it. -/
def sizeItems (p : Printer) : List Json → Option ℕ
  | [] => some 0
  | x :: xs => do return (← size p x) + 1 + (← sizeItems p xs)

/-- The fields of an object, each with its colon and the separator or brace after it. -/
def sizeFields (p : Printer) : List (Text × Json) → Option ℕ
  | [] => some 0
  | (k, x) :: fs => do return (← strSize p k) + 1 + (← size p x) + 1 + (← sizeFields p fs)

end

mutual

/-- JavaScript's `String(value)`. -/
def jsString (numberText : ℚ → Text) : Json → Text
  | .null => .lit "null"
  | .bool b => if b then .lit "true" else .lit "false"
  | .int n => numberText n
  | .float q => numberText q
  | .str s => s
  | .arr xs => jsJoin numberText xs
  | .obj _ => .lit "[object Object]"

/-- `Array.prototype.join`: `null` prints as nothing. -/
def jsJoin (numberText : ℚ → Text) : List Json → Text
  | [] => []
  | [x] => jsItem numberText x
  | x :: xs => jsItem numberText x ++ .lit "," ++ jsJoin numberText xs

def jsItem (numberText : ℚ → Text) : Json → Text
  | .null => []
  | .bool b => if b then .lit "true" else .lit "false"
  | .int n => numberText n
  | .float q => numberText q
  | .str s => s
  | .arr xs => jsJoin numberText xs
  | .obj _ => .lit "[object Object]"

end

end Json

end Lib
