/-
  Workflow definitions as the server accepts them (`routers/browser_extension.py`).

  A definition is what `json.loads` has made of a request, so that the keys of an object are
  distinct (`distinctKeys`).  Its only number is the version of the schema, and Python's
  `==` takes `1.0` and `True` for 1.

  How `urllib.parse` splits a URL and a query is a parameter (`PyUrls`).
-/
import TideBot.Lib.JsonText

namespace TideBot

open Lib

/-! ## URLs -/

/-- What `urlsplit` makes of a URL. -/
structure SplitUrl where
  scheme : Text
  hostname : Option Text
  username : Option Text
  password : Option Text
  path : Text
  query : Text
  fragment : Text
  deriving DecidableEq

/-- `urllib.parse`; `none`: `ValueError`. -/
structure PyUrls where
  urlsplit : Text → Option SplitUrl
  parseQsl : Text → List (Text × Text)

/-- Python's truth of an optional string. -/
def truthy (t : Option Text) : Bool := t.any (· ≠ [])

/-- The case folding of `re.IGNORECASE`, as far as it comes to an ASCII letter. -/
def ignoreCase (c : CodePoint) : CodePoint :=
  if 65 ≤ c.val ∧ c.val ≤ 90 then Fin.ofNat _ (c.val + 32)
  else if c.val = 0x130 ∨ c.val = 0x131 then .ofChar 'i'
  else if c.val = 0x17F then .ofChar 's'
  else if c.val = 0x212A then .ofChar 'k'
  else c

/-- `re.search(r'(?:token|secret|password|passcode|auth|key|session)', key, re.IGNORECASE)` -/
def sensitiveKey (key : Text) : Bool :=
  ["token", "secret", "password", "passcode", "auth", "key", "session"].any fun w =>
    Text.lit w <:+: key.map ignoreCase

section
variable (U : PyUrls)

/-- `_valid_navigation_url`, of a string -/
def validUrl (value : Text) : Bool :=
  value.length ≤ 4096 && (U.urlsplit value).any fun parsed =>
    (parsed.scheme = .lit "http" || parsed.scheme = .lit "https") && truthy parsed.hostname &&
      !truthy parsed.username && !truthy parsed.password &&
      (U.parseQsl parsed.query).all fun q => !sensitiveKey q.1 ||
        q.2 = .lit "%5BREDACTED%5D" || q.2 = .lit "[REDACTED]"

/-- `_valid_navigation_url` -/
def validNavigationUrl : Json → Bool
  | .str value => validUrl U value
  | _ => false

/-- `_valid_workflow_origin` -/
def validWorkflowOrigin (value : Text) : Bool :=
  validUrl U value && (U.urlsplit value).any fun parsed =>
    (parsed.path = [] || parsed.path = .lit "/") && parsed.query = [] && parsed.fragment = []

end

/-! ## Steps -/

/-- `set(value) <= keys` -/
def keysWithin (fields : List (Text × Json)) (keys : List String) : Bool :=
  fields.all fun f => f.1 ∈ keys.map Text.lit

/-- `set(value) == keys` -/
def keysAre (fields : List (Text × Json)) (keys : List String) : Bool :=
  keysWithin fields keys && keys.all fun k => Text.lit k ∈ fields.map Prod.fst

/-- A string of at most so many characters. -/
def shortString (limit : ℕ) : Json → Bool
  | .str s => s.length ≤ limit
  | _ => false

def targetKeys : List String := ["role", "name", "tag", "type", "testId"]

/-- `_valid_target` -/
def validTarget : Json → Bool
  | .obj fields =>
    keysWithin fields targetKeys &&
      ["role", "name", "tag"].all (fun k => shortString 256 ((Json.obj fields).get (.lit k))) &&
      [("type", 64), ("testId", 128)].all fun k =>
        ((Json.obj fields).field (.lit k.1)).all (shortString k.2)
  | _ => false

/-- A list of at most twenty values. -/
def validValues : Json → Bool
  | .arr values => values.length ≤ 20 && values.all (shortString 256)
  | _ => false

/-- The checks on one step. -/
def validStep (U : PyUrls) : Json → Bool
  | .obj fields =>
    let step := Json.obj fields
    match step.get (.lit "action") with
    | .str action =>
      if action = .lit "navigate" then
        keysAre fields ["action", "url"] && validNavigationUrl U (step.get (.lit "url"))
      else if action = .lit "click" then
        keysAre fields ["action", "target"] && validTarget (step.get (.lit "target"))
      else if action = .lit "type-intent" then
        keysAre fields ["action", "target", "sensitive"] && validTarget (step.get (.lit "target")) &&
          (step.get (.lit "sensitive")).isBool
      else if action = .lit "select" then
        keysAre fields ["action", "target", "values"] && validTarget (step.get (.lit "target")) &&
          validValues (step.get (.lit "values"))
      else
        action = .lit "wait" && keysAre fields ["action", "condition"] &&
          (step.get (.lit "condition")).eqStr (.lit "load")
    | _ => false
  | _ => false

/-! ## Definitions -/

/-- `json.dumps(value, separators=(',', ':'))`, in ASCII; `floatText` is `float.__repr__`. -/
def asciiPrinter (floatText : ℚ → Text) : Json.Printer where
  char c := some (if c.val = 34 ∨ c.val = 92 ∨ c.val = 10 ∨ c.val = 13 ∨ c.val = 9 ∨ c.val = 8 ∨
      c.val = 12 then 2
    else if 0x20 ≤ c.val ∧ c.val ≤ 0x7E then 1
    else if c.val < 0x10000 then 6
    else 12)
  int n := (toString n).length
  float q := (floatText q).length

/-- `_validated_workflow_definition`; `none`: it raises. -/
def validatedWorkflowDefinition (F : Json.FloatText) (U : PyUrls) : Json → Option Json
  | .obj fields =>
    let value := Json.obj fields
    let encodedSize := (value.size (asciiPrinter F.repr)).getD 1000000
    match value.get (.lit "origin"), value.get (.lit "steps") with
    | .str origin, .arr steps =>
      if keysAre fields ["schemaVersion", "origin", "steps"] &&
          (value.get (.lit "schemaVersion")).eqInt 1 && origin.length ≤ 512 &&
          validWorkflowOrigin U origin && 0 < steps.length && steps.length ≤ 500 &&
          encodedSize ≤ 128000 && steps.all (validStep U) then some value
      else none
    | _, _ => none
  | _ => none

/-! ## What the keys say -/

mutual

/-- The keys of every object are distinct. -/
def distinctKeys : Json → Bool
  | .arr xs => distinctItems xs
  | .obj fs => (fs.map Prod.fst).Nodup && distinctFields fs
  | _ => true

def distinctItems : List Json → Bool
  | [] => true
  | x :: xs => distinctKeys x && distinctItems xs

def distinctFields : List (Text × Json) → Bool
  | [] => true
  | (_, x) :: fs => distinctKeys x && distinctFields fs

end

section
variable {fields : List (Text × Json)} {f : Text × Json} {xs : List Json} {F : Json.FloatText}
  {U : PyUrls}

theorem distinctItems_iff : distinctItems xs ↔ ∀ x ∈ xs, distinctKeys x := by
  induction xs with
  | nil => simp [distinctItems]
  | cons x xs ih => simp [distinctItems, ih]

theorem distinctFields_iff : distinctFields fields ↔ ∀ f ∈ fields, distinctKeys f.2 := by
  induction fields with
  | nil => simp [distinctFields]
  | cons f fields ih => simp [distinctFields, ih]

theorem distinctKeys_obj : distinctKeys (.obj fields) ↔
    (fields.map Prod.fst).Nodup ∧ ∀ f ∈ fields, distinctKeys f.2 := by
  rw [distinctKeys, Bool.and_eq_true, decide_eq_true_eq, distinctFields_iff]

theorem field_of_mem (hnodup : (fields.map Prod.fst).Nodup) (hf : f ∈ fields) :
    (Json.obj fields).field f.1 = some f.2 := by
  induction fields with
  | nil => cases hf
  | cons g fields ih =>
    rw [List.map_cons, List.nodup_cons] at hnodup
    rcases List.mem_cons.1 hf with rfl | hf
    · simp [Json.field]
    · have hne : g.1 ≠ f.1 := fun heq => hnodup.1 (heq ▸ List.mem_map_of_mem hf)
      have hrest := ih hnodup.2 hf
      simp only [Json.field] at hrest ⊢
      rw [List.find?_cons_of_neg (by simpa using hne), hrest]

theorem get_of_mem (hnodup : (fields.map Prod.fst).Nodup) (hf : f ∈ fields) :
    (Json.obj fields).get f.1 = f.2 := by
  rw [Json.get, field_of_mem hnodup hf, Option.getD_some]

theorem mem_keysWithin {keys : List String} (h : keysWithin fields keys) (hf : f ∈ fields) :
    ∃ k ∈ keys, f.1 = .lit k := by
  have := List.all_eq_true.1 h f hf
  obtain ⟨k, hk, heq⟩ := List.mem_map.1 (of_decide_eq_true this)
  exact ⟨k, hk, heq.symm⟩

/-! ## Definitions are read as they are printed -/

theorem readable_shortString {n : ℕ} {j : Json} (h : shortString n j) : j.Readable F := by
  cases j with
  | str => trivial
  | null | bool | int | float | arr | obj => cases h

theorem readableItems_iff : Json.ReadableItems F xs ↔ ∀ x ∈ xs, x.Readable F := by
  induction xs with
  | nil => simp [Json.ReadableItems]
  | cons x xs ih => simp [Json.ReadableItems, ih]

theorem readable_obj (hd : distinctKeys (.obj fields)) (h : ∀ f ∈ fields, f.2.Readable F) :
    (Json.obj fields).Readable F :=
  ⟨(distinctKeys_obj.1 hd).1, Json.readableFields_iff.2 h⟩

theorem readable_target {j : Json} (hd : distinctKeys j) (h : validTarget j) : j.Readable F := by
  cases j with
  | obj fields =>
    refine readable_obj hd ?_
    intro f hf
    have hnodup := (distinctKeys_obj.1 hd).1
    have hfield := field_of_mem hnodup hf
    have hget := get_of_mem hnodup hf
    simp only [validTarget, Bool.and_eq_true, List.all_cons, List.all_nil, Bool.and_true] at h
    obtain ⟨⟨hkeys, hrole, hname, htag⟩, htype, htest⟩ := h
    obtain ⟨k, hk, heq⟩ := mem_keysWithin hkeys hf
    rw [heq] at hfield hget
    simp only [targetKeys, List.mem_cons, List.not_mem_nil, or_false] at hk
    rcases hk with rfl | rfl | rfl | rfl | rfl
    · rw [hget] at hrole
      exact readable_shortString hrole
    · rw [hget] at hname
      exact readable_shortString hname
    · rw [hget] at htag
      exact readable_shortString htag
    · rw [hfield] at htype
      exact readable_shortString htype
    · rw [hfield] at htest
      exact readable_shortString htest
  | null | bool | int | float | str | arr => cases h

theorem readable_values {j : Json} (h : validValues j) : j.Readable F := by
  cases j with
  | arr values =>
    simp only [validValues, Bool.and_eq_true, List.all_eq_true] at h
    exact readableItems_iff.2 fun x hx => readable_shortString (h.2 x hx)
  | null | bool | int | float | str | obj => cases h

theorem readable_bool {j : Json} (h : j.isBool) : j.Readable F := by
  cases j with
  | bool => trivial
  | null | int | float | str | arr | obj => cases h

theorem readable_url {j : Json} (h : validNavigationUrl U j) : j.Readable F := by
  cases j with
  | str => trivial
  | null | bool | int | float | arr | obj => cases h

/-- The forms of a step that was accepted. -/
inductive StepForm (U : PyUrls) (fields : List (Text × Json)) : Prop
  | navigate : (Json.obj fields).get (.lit "action") = .str (.lit "navigate") →
      keysAre fields ["action", "url"] →
      validNavigationUrl U ((Json.obj fields).get (.lit "url")) → StepForm U fields
  | click : (Json.obj fields).get (.lit "action") = .str (.lit "click") →
      keysAre fields ["action", "target"] →
      validTarget ((Json.obj fields).get (.lit "target")) → StepForm U fields
  | type : (Json.obj fields).get (.lit "action") = .str (.lit "type-intent") →
      keysAre fields ["action", "target", "sensitive"] →
      validTarget ((Json.obj fields).get (.lit "target")) →
      ((Json.obj fields).get (.lit "sensitive")).isBool → StepForm U fields
  | select : (Json.obj fields).get (.lit "action") = .str (.lit "select") →
      keysAre fields ["action", "target", "values"] →
      validTarget ((Json.obj fields).get (.lit "target")) →
      validValues ((Json.obj fields).get (.lit "values")) → StepForm U fields
  | wait : (Json.obj fields).get (.lit "action") = .str (.lit "wait") →
      keysAre fields ["action", "condition"] →
      (Json.obj fields).get (.lit "condition") = .str (.lit "load") → StepForm U fields

theorem stepForm {j : Json} (h : validStep U j) : ∃ fields, j = .obj fields ∧ StepForm U fields := by
  cases j with
  | obj fields =>
    refine ⟨fields, rfl, ?_⟩
    simp only [validStep] at h
    cases hact : (Json.obj fields).get (.lit "action") with
    | str action =>
      simp only [hact] at h
      split_ifs at h with hnav hclick htype hselect
      · subst hnav
        simp only [Bool.and_eq_true] at h
        exact .navigate hact h.1 h.2
      · subst hclick
        simp only [Bool.and_eq_true] at h
        exact .click hact h.1 h.2
      · subst htype
        simp only [Bool.and_eq_true] at h
        exact .type hact h.1.1 h.1.2 h.2
      · subst hselect
        simp only [Bool.and_eq_true] at h
        exact .select hact h.1.1 h.1.2 h.2
      · simp only [Bool.and_eq_true, decide_eq_true_eq] at h
        obtain ⟨⟨rfl, hkeys⟩, hcond⟩ := h
        exact .wait hact hkeys (Json.eqStr_iff.1 hcond)
    | null | bool | int | float | arr | obj => simp [hact] at h
  | null | bool | int | float | str | arr => cases h

theorem readable_keysAre {keys : List String} (hd : distinctKeys (.obj fields))
    (hkeys : keysAre fields keys)
    (h : ∀ k ∈ keys, distinctKeys ((Json.obj fields).get (.lit k)) →
      ((Json.obj fields).get (.lit k)).Readable F) : (Json.obj fields).Readable F := by
  refine readable_obj hd ?_
  intro f hf
  obtain ⟨hnodup, hdist⟩ := distinctKeys_obj.1 hd
  have hget := get_of_mem hnodup hf
  simp only [keysAre, Bool.and_eq_true] at hkeys
  obtain ⟨k, hk, heq⟩ := mem_keysWithin hkeys.1 hf
  rw [heq] at hget
  have hval := h k hk
  rw [hget] at hval
  exact hval (hdist f hf)

theorem readable_step {j : Json} (hd : distinctKeys j) (h : validStep U j) : j.Readable F := by
  obtain ⟨fields, rfl, hform⟩ := stepForm h
  have htext : ∀ {k : String} {text : Text}, (Json.obj fields).get (.lit k) = .str text →
      ((Json.obj fields).get (.lit k)).Readable F := by
    intro k text hget
    rw [hget]
    trivial
  cases hform with
  | navigate hact hkeys hurl =>
    refine readable_keysAre hd hkeys ?_
    simp only [List.forall_mem_cons]
    exact ⟨fun _ => htext hact, fun _ => readable_url hurl, nofun⟩
  | click hact hkeys htarget =>
    refine readable_keysAre hd hkeys ?_
    simp only [List.forall_mem_cons]
    exact ⟨fun _ => htext hact, fun hdk => readable_target hdk htarget, nofun⟩
  | type hact hkeys htarget hbool =>
    refine readable_keysAre hd hkeys ?_
    simp only [List.forall_mem_cons]
    exact ⟨fun _ => htext hact, fun hdk => readable_target hdk htarget, fun _ => readable_bool hbool, nofun⟩
  | select hact hkeys htarget hvalues =>
    refine readable_keysAre hd hkeys ?_
    simp only [List.forall_mem_cons]
    exact ⟨fun _ => htext hact, fun hdk => readable_target hdk htarget, fun _ => readable_values hvalues, nofun⟩
  | wait hact hkeys hcond =>
    refine readable_keysAre hd hkeys ?_
    simp only [List.forall_mem_cons]
    exact ⟨fun _ => htext hact, fun _ => htext hcond, nofun⟩

/-- What was accepted. -/
structure Accepted (F : Json.FloatText) (U : PyUrls) (fields : List (Text × Json)) (origin : Text)
    (steps : List Json) : Prop where
  originAt : (Json.obj fields).get (.lit "origin") = .str origin
  stepsAt : (Json.obj fields).get (.lit "steps") = .arr steps
  keys : keysAre fields ["schemaVersion", "origin", "steps"]
  version : ((Json.obj fields).get (.lit "schemaVersion")).eqInt 1
  short : origin.length ≤ 512
  url : validWorkflowOrigin U origin
  nonempty : 0 < steps.length
  few : steps.length ≤ 500
  valid : ∀ step ∈ steps, validStep U step

theorem accepted {d d' : Json} (h : validatedWorkflowDefinition F U d = some d') :
    d' = d ∧ ∃ fields origin steps, d = .obj fields ∧ Accepted F U fields origin steps := by
  cases d with
  | obj fields =>
    simp only [validatedWorkflowDefinition] at h
    cases horigin : (Json.obj fields).get (.lit "origin") with
    | str origin =>
      cases hsteps : (Json.obj fields).get (.lit "steps") with
      | arr steps =>
        simp only [horigin, hsteps] at h
        split_ifs at h with hall
        cases h
        simp only [Bool.and_eq_true, decide_eq_true_eq, List.all_eq_true] at hall
        obtain ⟨⟨⟨⟨⟨⟨⟨hkeys, hversion⟩, hshort⟩, hurl⟩, hsome⟩, hfew⟩, -⟩, hvalid⟩ := hall
        exact ⟨rfl, fields, origin, steps, rfl,
          ⟨horigin, hsteps, hkeys, hversion, hshort, hurl, hsome, hfew, hvalid⟩⟩
      | null | bool | int | float | str | obj => simp [horigin, hsteps] at h
    | null | bool | int | float | arr | obj => simp [horigin] at h
  | null | bool | int | float | str | arr => cases h

/-- **What the server accepts is read as it is printed.** -/
theorem readable_accepted {d d' : Json} (hF : F.Reads 1) (hd : distinctKeys d)
    (h : validatedWorkflowDefinition F U d = some d') : d.Readable F := by
  obtain ⟨-, fields, origin, steps, rfl, hacc⟩ := accepted h
  refine readable_keysAre hd hacc.keys ?_
  intro k hk hdk
  simp only [List.mem_cons, List.not_mem_nil, or_false] at hk
  rcases hk with rfl | rfl | rfl
  · -- 1, 1.0 or True
    have hversion := hacc.version
    cases hv : (Json.obj fields).get (.lit "schemaVersion") with
    | int | bool => trivial
    | float q =>
      rw [hv] at hversion
      have hq : q = 1 := by simpa [Json.eqInt] using hversion
      rw [hq]
      exact hF
    | null | str | arr | obj =>
      rw [hv] at hversion
      cases hversion
  · rw [hacc.originAt]
    trivial
  · rw [hacc.stepsAt] at hdk ⊢
    refine readableItems_iff.2 ?_
    intro step hstep
    exact readable_step (distinctItems_iff.1 hdk step hstep) (hacc.valid step hstep)

end

end TideBot
