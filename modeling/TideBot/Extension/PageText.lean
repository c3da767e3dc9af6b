/-
  The texts of a page, as the extension lets them out (`content/redaction.ts`).

  `redactText` hides what looks like a secret, collapses white space and cuts the text; `safeElementValue`
  is the value of a field.  The patterns have no `u` flag and ignore the case of ASCII letters; none of them
  ends inside a character, so they are matched on code points.

  A `PageElement` is what is read of an element: its attributes, its kind and its texts.
-/
import TideBot.Extension.Dom
import TideBot.Protocol.Redaction

namespace TideBot

open Lib

/-- The states of `HTMLInputElement.type`. -/
inductive InputType where
  | button | checkbox | color | date | datetimeLocal | email | file | hidden | image | month | number | password
  | radio | range | reset | search | submit | tel | text | time | url | week
  deriving DecidableEq

/-- `element.type` -/
def InputType.name : InputType → String
  | .button => "button" | .checkbox => "checkbox" | .color => "color" | .date => "date"
  | .datetimeLocal => "datetime-local" | .email => "email" | .file => "file" | .hidden => "hidden"
  | .image => "image" | .month => "month" | .number => "number" | .password => "password" | .radio => "radio"
  | .range => "range" | .reset => "reset" | .search => "search" | .submit => "submit" | .tel => "tel"
  | .text => "text" | .time => "time" | .url => "url" | .week => "week"

/-- What the content script reads of an element. -/
structure PageElement where
  /-- `tagName` -/
  tagName : Text
  /-- `getAttribute` -/
  getAttribute : Text → Option Text
  /-- its type, of an `HTMLInputElement` -/
  input : Option InputType
  /-- whether several options can be chosen, of an `HTMLSelectElement` -/
  select : Option Bool
  /-- an `HTMLTextAreaElement` -/
  textArea : Bool
  /-- `isContentEditable` -/
  contentEditable : Bool
  /-- the texts of its labels -/
  labels : List Text
  /-- the text of the label around it -/
  closestLabel : Option Text
  textContent : Text
  /-- its value, of an input or a text area -/
  value : Text
  /-- the values of the options that are chosen -/
  selectedOptions : List Text

/-- An attribute that is there and not empty. -/
def PageElement.attributeText (e : PageElement) (name : String) : Option Text :=
  (e.getAttribute (.lit name)).filter (· ≠ [])

/-! ## `redactText` -/

/-- The characters of a literal, in any case. -/
def ignoringCase (w : String) : Regex := .word (fun c d => lowerAscii d = c) w

/-- `\w` -/
def isWordChar (c : CodePoint) : Bool := isKeyChar (lowerAscii c) || c = .ofChar '_'

/-- `\b` -/
def asciiBoundary : Regex := .look fun before after => before.any isWordChar != after.any isWordChar

/-- `\d` -/
def isDigitChar (c : CodePoint) : Bool := 48 ≤ c.val && c.val ≤ 57

def whiteSpace : Regex := .char isSpace

/-- `bearerPattern` -/
def pageBearerPattern : Regex := .cat [asciiBoundary, ignoringCase "bearer", .plus whiteSpace,
  .plus (.char fun c => isKeyChar (lowerAscii c) || (Text.lit "._~+/=-").contains c)]

/-- Two words with `[_-]?` between them. -/
def ignoringJoint (w w' : String) : Regex := .cat [ignoringCase w, .opt (oneChar "_-"), ignoringCase w']

/-- `assignmentPattern` -/
def pageAssignmentPattern : Regex := .cat [asciiBoundary,
  .group (.oneOf [ignoringCase "password", ignoringCase "passwd", ignoringCase "passcode", ignoringJoint "api" "key",
    ignoringJoint "access" "token", ignoringJoint "refresh" "token", ignoringCase "token", ignoringCase "secret"]),
  .star whiteSpace, oneChar ":=", .star whiteSpace,
  .oneOf [quoted "\"", quoted "'", .plus (.char fun c => !isSpace c && !(Text.lit ",;").contains c)]]

/-- `cardPattern` -/
def pageCardPattern : Regex := .cat [.look fun before _ => !before.any isDigitChar,
  .between (.cat [.char isDigitChar, .opt (oneChar " -")]) 6 12, .char isDigitChar,
  .look fun _ after => !after.any isDigitChar]

/-- `replace(/\s+/g, ' ')` -/
def collapseSpaces (t : Text) : Text := (Regex.plus whiteSpace).sub (fun _ => .lit " ") t

/-- `trim` -/
def trimSpaces (t : Text) : Text := ((t.dropWhile isSpace).reverse.dropWhile isSpace).reverse

/-- What `redactText` hides. -/
def hideSecrets (t : Text) : Text :=
  pageCardPattern.sub (fun _ => redacted)
    (pageAssignmentPattern.sub (fun word => word.getD [] ++ .lit "=" ++ redacted)
      (pageBearerPattern.sub (fun _ => .lit "Bearer " ++ redacted) t))

/-- `redactText` -/
def redactText (value : Text) (maxLength : ℕ) : Text :=
  Transport.slice maxLength (trimSpaces (collapseSpaces (hideSecrets value)))

/-! ## Fields -/

/-- `sensitiveHintPattern` -/
def sensitiveHint (t : Text) : Bool :=
  Pattern.contains ["password", "passcode", "pin", "card", "credit", "debit", "payment", "cvv", "cvc", "expiry",
    "expiration", "auth", "token", "secret"] t || Pattern.containsPair ["security"] 1 ["code"] t

/-- `/^(?:current-password|new-password|one-time-code|cc-)/i` -/
def secretAutocomplete (t : Text) : Bool :=
  ["current-password", "new-password", "one-time-code", "cc-"].any fun w => (Text.lit w).isPrefixOf (t.map lowerAscii)

/-- `associatedLabel` -/
def PageElement.associatedLabel (e : PageElement) : Text :=
  if e.labels ≠ [] then joinSpaces e.labels else e.closestLabel.getD []

/-- `isSensitiveElement` -/
def PageElement.isSensitive (e : PageElement) : Bool :=
  e.input = some .password ||
    secretAutocomplete ((e.getAttribute (.lit "autocomplete")).getD []) ||
    sensitiveHint (joinSpaces ([e.getAttribute (.lit "name"), e.getAttribute (.lit "id"), e.getAttribute (.lit "aria-label"),
      e.getAttribute (.lit "placeholder"), some e.associatedLabel].filterMap fun t => t.filter (· ≠ [])))

/-- The strings of a list, separated by commas. -/
def joinCommas : List Text → Text
  | [] => []
  | [t] => t
  | t :: ts => t ++ .lit ", " ++ joinCommas ts

/-- The text of a field, before it is redacted. -/
def PageElement.fieldText (e : PageElement) : Option Text :=
  if e.input.isSome || e.textArea then some e.value
  else if e.select.isSome then some (joinCommas e.selectedOptions)
  else if e.contentEditable || e.getAttribute (.lit "contenteditable") = some (.lit "true") then some e.textContent
  else none

/-- `safeElementValue` -/
def PageElement.safeValue (e : PageElement) : Option Text :=
  e.fieldText.map fun value => if e.isSensitive then redacted else redactText value 1000

/-! ## Lengths -/

theorem one_le_units (c : CodePoint) : 1 ≤ c.units := by
  unfold CodePoint.units
  split_ifs <;> decide

theorem length_slice (n : ℕ) (t : Text) : (Transport.slice n t).length ≤ n := by
  induction t generalizing n with
  | nil => exact Nat.zero_le n
  | cons c cs ih =>
    have hunits := one_le_units c
    rw [Transport.slice]
    split_ifs with hle hn
    · have hrest := ih (n - c.units)
      rw [List.length_cons]
      omega
    · exact Nat.zero_le n
    · rw [List.length_singleton]
      omega

theorem length_redactText (value : Text) (n : ℕ) : (redactText value n).length ≤ n :=
  length_slice n _

theorem slice_eq_take {t : Text} (h : ∀ c ∈ t, c.val < 0x10000) (n : ℕ) : Transport.slice n t = t.take n := by
  induction t generalizing n with
  | nil => simp [Transport.slice]
  | cons c cs ih =>
    obtain ⟨hc, hcs⟩ := List.forall_mem_cons.1 h
    have hunits : c.units = 1 := by rw [CodePoint.units, if_pos hc]
    rw [Transport.slice, hunits]
    cases n with
    | zero => simp
    | succ n => rw [if_pos (by omega), Nat.add_sub_cancel, ih hcs, List.take_succ_cons]

end TideBot
