/-
  JSON values in the hands of a Python program that does not check their types.

  Truthiness, `or`, iteration and membership are defined on every value, as are `==`, `+` and
  `int`; what raises is `none`.  Integers and floats compare by value, the booleans are the integers
  0 and 1, and objects are equal up to the order of their fields.  A float is a rational here,
  and a sum of floats is rounded to a double; infinities are left out.
-/
import TideBot.Lib.Dict
import TideBot.Lib.JsonText

namespace Lib

namespace Json

/-- `bool(value)` -/
def truthy : Json → Bool
  | .null => false
  | .bool b => b
  | .int n => n ≠ 0
  | .float q => q ≠ 0
  | .str s => s ≠ []
  | .arr xs => !xs.isEmpty
  | .obj fs => !fs.isEmpty

/-- `value or other` -/
def or (value other : Json) : Json := if value.truthy then value else other

/-- `value is None` -/
def isNone : Json → Bool
  | .null => true
  | _ => false

/-- `value.get(key)`, which raises on what is no dictionary. -/
def item (j : Json) (key : String) : Option Json := if j.isObj then some (j.get (.lit key)) else none

/-- `value.get(key, default)` -/
def itemD (j : Json) (key : String) (default : Json) : Option Json :=
  if j.isObj then some ((j.field (.lit key)).getD default) else none

/-- A value as the key of a dictionary whose keys are strings: a list or an object is not
    hashable, another value is no key. -/
def asKey : Json → Option (Option Text)
  | .arr _ | .obj _ => none
  | .str s => some (some s)
  | _ => some none

/-- What `for x in value` goes through. -/
def iter : Json → Option (List Json)
  | .arr xs => some xs
  | .obj fs => some (fs.map fun f => .str f.1)
  | .str s => some (s.map fun c => .str [c])
  | _ => none

/-- `key in value` -/
def contains (key : Text) : Json → Option Bool
  | .arr xs => some (xs.any fun x => x.eqStr key)
  | .obj fs => some (fs.any fun f => f.1 = key)
  | .str s => some (s.tails.any fun t => key.isPrefixOf t)
  | _ => none

/-- `value[-1] if value else None`, where a loop ends at `None`. -/
def last : Json → Option (Option Json)
  | .arr xs => some xs.getLast?
  | .str s => some (s.getLast?.map fun c => .str [c])
  | j => if j.truthy then none else some none

theorem truthy_str (s : Text) : (Json.str s).truthy = decide (s ≠ []) := rfl

/-- A list of strings. -/
def strs (ts : List Text) : Json := .arr (ts.map .str)

theorem iter_strs (ts : List Text) : (strs ts).iter = some (ts.map .str) := rfl

theorem contains_strs (key : Text) (ts : List Text) : (strs ts).contains key = some (decide (key ∈ ts)) := by
  rw [strs, contains, List.any_map]
  congr 1
  rw [Bool.eq_iff_iff, List.any_eq_true, decide_eq_true_iff]
  simp [eqStr]

theorem last_strs (ts : List Text) : (strs ts).last = some (ts.getLast?.map .str) := by
  rw [strs, last, List.getLast?_map]

/-! ## Numbers -/

/-- A boolean is an integer. -/
def unbool : Json → Json
  | .bool b => .int b.toNat
  | j => j

/-- `isinstance(value, Number) and not isinstance(value, bool)` -/
def isNumber : Json → Bool
  | .int _ | .float _ => true
  | _ => false

/-- The double that is nearest to a number, and of two that are as near the even one; it may be as large as it
    takes. -/
def nearestDouble (q : ℚ) : ℚ :=
  let e : ℤ := q.num.natAbs.log2 - q.den.log2
  -- the number is at least 2 ^ e, and less than twice that
  let e := if |q| < (2 : ℚ) ^ e then e - 1 else e
  let unit : ℚ := 2 ^ max (e - 52) (-1074)
  let n := ⌊q / unit⌋
  let rest := q / unit - n
  unit * if rest < 1 / 2 ∨ (rest = 1 / 2 ∧ n % 2 = 0) then n else n + 1

/-- `a + b` -/
def add (a b : Json) : Option Json :=
  match a.unbool, b.unbool with
  | .int m, .int n => some (.int (m + n))
  | .int m, .float q => some (.float (nearestDouble (nearestDouble m + q)))
  | .float q, .int n => some (.float (nearestDouble (q + nearestDouble n)))
  | .float q, .float r => some (.float (nearestDouble (q + r)))
  | .str s, .str t => some (.str (s ++ t))
  | .arr xs, .arr ys => some (.arr (xs ++ ys))
  | _, _ => none

/-- `a - b` -/
def sub (a b : Json) : Option Json :=
  match a.unbool, b.unbool with
  | .int m, .int n => some (.int (m - n))
  | .int m, .float q => some (.float (nearestDouble (nearestDouble m - q)))
  | .float q, .int n => some (.float (nearestDouble (q - nearestDouble n)))
  | .float q, .float r => some (.float (nearestDouble (q - r)))
  | _, _ => none

/-- `max(value, 0)`, of a number. -/
def atLeastZero : Json → Json
  | .int n => if n < 0 then .int 0 else .int n
  | .float q => if q < 0 then .int 0 else .float q
  | j => j

/-- `int(value)`; `intOfText` is `int` of a string. -/
def toInt (intOfText : Text → Option ℤ) : Json → Option ℤ
  | .int n => some n
  | .bool b => some b.toNat
  | .float q => some (if 0 ≤ q then ⌊q⌋ else ⌈q⌉)
  | .str s => intOfText s
  | _ => none

/-! ## Equality -/

mutual

/-- The value with its numbers and the order of its fields in one form. -/
def canonical : Json → Json
  | .bool b => .int b.toNat
  | .float q => if q.isInt then .int q.num else .float q
  | .arr xs => .arr (canonicalItems xs)
  | .obj fs => .obj ((canonicalFields fs).insertionSort fun f g => f.1 ≤ g.1)
  | j => j

def canonicalItems : List Json → List Json
  | [] => []
  | x :: xs => canonical x :: canonicalItems xs

def canonicalFields : List (Text × Json) → List (Text × Json)
  | [] => []
  | (k, x) :: fs => (k, canonical x) :: canonicalFields fs

end

mutual

/-- Are two values the same? -/
def same : Json → Json → Bool
  | .null, .null => true
  | .bool a, .bool b => a = b
  | .int a, .int b => a = b
  | .float a, .float b => a = b
  | .str a, .str b => a = b
  | .arr xs, .arr ys => sameItems xs ys
  | .obj fs, .obj gs => sameFields fs gs
  | _, _ => false

def sameItems : List Json → List Json → Bool
  | [], [] => true
  | x :: xs, y :: ys => same x y && sameItems xs ys
  | _, _ => false

def sameFields : List (Text × Json) → List (Text × Json) → Bool
  | [], [] => true
  | (k, x) :: fs, (l, y) :: gs => decide (k = l) && same x y && sameFields fs gs
  | _, _ => false

end

/-- `a == b` -/
def eq (a b : Json) : Bool := same a.canonical b.canonical

end Json

/-- An object of a Python program that comes from JSON. -/
abbrev PyDict := Dict Text Json

namespace PyDict

/-- `d.get(key)` -/
def fetch (d : PyDict) (key : String) : Json := (d.get (.lit key)).getD .null

/-- `d.get(key, default)` -/
def fetchD (d : PyDict) (key : String) (default : Json) : Json := (d.get (.lit key)).getD default

/-- `d[key] = value` -/
def put (d : PyDict) (key : String) (value : Json) : PyDict := d.set (.lit key) value

/-- The fields of an object: of two with one key the last counts. -/
def ofFields (fields : List (Text × Json)) : PyDict := fields.foldl (fun d f => d.set f.1 f.2) .empty

/-- A dictionary as a value. -/
def toJson (d : PyDict) : Json := .obj d.entries

theorem fetch_put {d : PyDict} {key key' : String} {value : Json} :
    (d.put key value).fetch key' = if key' = key then value else d.fetch key' := by
  unfold fetch put
  rw [Dict.get_set]
  by_cases h : key' = key <;> simp [h]

theorem get_put {d : PyDict} {key key' : String} {value : Json} :
    (d.put key value).get (.lit key') = if key' = key then some value else d.get (.lit key') := by
  unfold put
  rw [Dict.get_set]
  by_cases h : key' = key <;> simp [h]

theorem mem_entries_ofFields {fields : List (Text × Json)} {f : Text × Json} (h : f ∈ (ofFields fields).entries) :
    f ∈ fields := by
  obtain ⟨k, v⟩ := f
  have hfrom : ∀ d : PyDict, (k, v) ∈ (fields.foldl (fun d f => d.set f.1 f.2) d).entries →
      (k, v) ∈ d.entries ∨ (k, v) ∈ fields := by
    clear h
    induction fields with
    | nil => exact fun d hmem => .inl hmem
    | cons g fields ih =>
      intro d hmem
      obtain hmem | hmem := ih _ hmem
      · rw [Dict.mem_entries_iff, Dict.get_set] at hmem
        split_ifs at hmem with hkey
        · have hf : (k, v) = g := Prod.ext hkey (Option.some.inj hmem).symm
          exact .inr (hf ▸ List.mem_cons_self)
        · exact .inl (Dict.mem_entries_iff.2 hmem)
      · exact .inr (List.mem_cons_of_mem _ hmem)
  exact (hfrom .empty h).resolve_left List.not_mem_nil

theorem entries_ofFields {fields : List (Text × Json)} (h : (fields.map Prod.fst).Nodup) :
    (ofFields fields).entries = fields :=
  Dict.entries_foldl_set (fun _ _ => rfl) h

end PyDict

end Lib
