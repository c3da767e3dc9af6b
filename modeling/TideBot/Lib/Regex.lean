/-
  Regular expressions, as Python's `re` matches them: by backtracking, with the
  alternatives in order of preference.

  A match is a way from one place of a text to another (`Place`).  `ends` are the
  places at which a match may end, the preferred one first, so that the first of
  them is where a search ends; `sub` is `re.sub`.  There is at most one group.
-/
import TideBot.Lib.Text

namespace Lib

/-- A place in a text: what is before it, last character first, what is after it,
    and the group, if it has been matched. -/
structure Place where
  before : Text
  rest : Text
  group : Option Text := none
  deriving DecidableEq

/-- A pattern. -/
inductive Regex where
  /-- one character of a set -/
  | char (p : CodePoint → Bool)
  /-- a test of the characters around a place: `\b`, `(?<!\d)`, `(?!\d)` -/
  | look (p : Option CodePoint → Option CodePoint → Bool)
  | empty
  | seq (r s : Regex)
  | alt (r s : Regex)
  /-- `r*` -/
  | star (r : Regex)
  /-- `(r)` -/
  | group (r : Regex)

namespace Regex

/-- `r*`: once more, if that gets on, or no more. -/
def repeats (ends : Place → List Place) : ℕ → Place → List Place
  | 0, x => [x]
  | fuel + 1, x =>
    ((ends x).filter fun y => y.rest.length < x.rest.length).flatMap (repeats ends fuel) ++ [x]

/-- Where a match from a place may end, in order of preference. -/
def ends : Regex → Place → List Place
  | char p, x =>
    match x.rest with
    | c :: l => if p c then [{ x with before := c :: x.before, rest := l }] else []
    | [] => []
  | look p, x => if p x.before.head? x.rest.head? then [x] else []
  | empty, x => [x]
  | seq r s, x => (ends r x).flatMap (ends s)
  | alt r s, x => ends r x ++ ends s x
  | star r, x => repeats (ends r) x.rest.length x
  | group r, x => (ends r x).map fun y =>
      { y with group := some (y.before.take (x.rest.length - y.rest.length)).reverse }

/-- `r?` -/
def opt (r : Regex) : Regex := alt r empty

/-- `r+` -/
def plus (r : Regex) : Regex := seq r (star r)

/-- One pattern after another. -/
def cat : List Regex → Regex
  | [] => empty
  | [r] => r
  | r :: rs => seq r (cat rs)

/-- The first of the patterns that matches. -/
def oneOf : List Regex → Regex
  | [] => look fun _ _ => false
  | [r] => r
  | r :: rs => alt r (oneOf rs)

/-- `r{0,n}` -/
def upTo (r : Regex) : ℕ → Regex
  | 0 => empty
  | n + 1 => opt (seq r (upTo r n))

/-- `r{m,m+n}` -/
def between (r : Regex) (n : ℕ) : ℕ → Regex
  | 0 => upTo r n
  | m + 1 => seq r (between r n m)

/-- The characters of a literal, as `eq` compares them. -/
def word (eq : CodePoint → CodePoint → Bool) (w : String) : Regex :=
  cat ((Text.lit w).map fun c => char (eq c))

/-- Where the match at a place ends, if there is one. -/
def matchAt (r : Regex) (x : Place) : Option Place := (r.ends x).head?

/-- `re.sub`: every match, from the left, is replaced by what `repl` makes of its group. -/
def subFrom (r : Regex) (repl : Option Text → Text) : ℕ → Text → Text → Text
  | 0, _, rest => rest
  | fuel + 1, before, rest =>
    match r.matchAt ⟨before, rest, none⟩ with
    | some y =>
      if y.rest.length < rest.length then repl y.group ++ subFrom r repl fuel y.before y.rest
      else
        match rest with
        | [] => repl y.group
        | c :: l => repl y.group ++ c :: subFrom r repl fuel (c :: before) l
    | none =>
      match rest with
      | [] => []
      | c :: l => c :: subFrom r repl fuel (c :: before) l

def sub (r : Regex) (repl : Option Text → Text) (t : Text) : Text :=
  r.subFrom repl (t.length + 1) [] t

end Regex

end Lib
