/-
  The strings of a JSON value, and how a codec prints them.

  `strings` are the strings and keys at any depth; a value can be printed in UTF-8 if they all can (`isSome_size`).
  A `Codec` prints a value character by character, and may fail at
  any of them; what it prints of a character of a string is a part of what it prints of the value (`print_char`).
-/
import TideBot.Lib.Bytes
import TideBot.Lib.Json
import TideBot.Lib.Mapping

namespace Lib

namespace Json

mutual

/-- The strings and keys at any depth. -/
def strings : Json → List Text
  | .str s => [s]
  | .arr xs => itemStrings xs
  | .obj fs => fieldStrings fs
  | _ => []

def itemStrings : List Json → List Text
  | [] => []
  | x :: xs => strings x ++ itemStrings xs

def fieldStrings : List (Text × Json) → List Text
  | [] => []
  | (k, x) :: fs => k :: (strings x ++ fieldStrings fs)

end

mutual

/-- The keys of every object are distinct. -/
def Distinct : Json → Prop
  | .arr xs => ItemsDistinct xs
  | .obj fs => (fs.map Prod.fst).Nodup ∧ FieldsDistinct fs
  | _ => True

def ItemsDistinct : List Json → Prop
  | [] => True
  | x :: xs => Distinct x ∧ ItemsDistinct xs

def FieldsDistinct : List (Text × Json) → Prop
  | [] => True
  | (_, x) :: fs => Distinct x ∧ FieldsDistinct fs

end

theorem mem_strings_arr {s : Text} {xs : List Json} : s ∈ (arr xs).strings ↔ ∃ x ∈ xs, s ∈ x.strings := by
  rw [strings]
  induction xs with
  | nil => simp [itemStrings]
  | cons x xs ih => simp [itemStrings, ih]

theorem mem_strings_obj {s : Text} {fs : List (Text × Json)} :
    s ∈ (obj fs).strings ↔ ∃ f ∈ fs, s = f.1 ∨ s ∈ f.2.strings := by
  rw [strings]
  induction fs with
  | nil => simp [fieldStrings]
  | cons f fs ih =>
    rw [fieldStrings, List.mem_cons, List.mem_append, ih, List.exists_mem_cons_iff, or_assoc]

theorem itemsDistinct_iff {xs : List Json} : ItemsDistinct xs ↔ ∀ x ∈ xs, x.Distinct := by
  induction xs with
  | nil => simp [ItemsDistinct]
  | cons x xs ih => rw [ItemsDistinct, ih, List.forall_mem_cons]

theorem fieldsDistinct_iff {fs : List (Text × Json)} : FieldsDistinct fs ↔ ∀ f ∈ fs, f.2.Distinct := by
  induction fs with
  | nil => simp [FieldsDistinct]
  | cons f fs ih => rw [FieldsDistinct, ih, List.forall_mem_cons]

mutual

/-- Induction on a value: over the items of an array, and over the values of an object. -/
@[elab_as_elim]
theorem induct {P : Json → Prop} (atom : ∀ j, (∀ xs, j ≠ .arr xs) → (∀ fs, j ≠ .obj fs) → P j)
    (arr : ∀ xs, (∀ x ∈ xs, P x) → P (.arr xs)) (obj : ∀ fs, (∀ f ∈ fs, P f.2) → P (.obj fs)) : (j : Json) → P j
  | .arr xs => arr xs (inductItems atom arr obj xs)
  | .obj fs => obj fs (inductFields atom arr obj fs)
  | .null | .bool _ | .int _ | .float _ | .str _ => atom _ (fun _ h => by cases h) (fun _ h => by cases h)

theorem inductItems {P : Json → Prop} (atom : ∀ j, (∀ xs, j ≠ .arr xs) → (∀ fs, j ≠ .obj fs) → P j)
    (arr : ∀ xs, (∀ x ∈ xs, P x) → P (.arr xs)) (obj : ∀ fs, (∀ f ∈ fs, P f.2) → P (.obj fs)) :
    (xs : List Json) → ∀ x ∈ xs, P x
  | [], _, h => by cases h
  | x :: _, _, .head _ => induct atom arr obj x
  | _ :: xs, y, .tail _ h => inductItems atom arr obj xs y h

theorem inductFields {P : Json → Prop} (atom : ∀ j, (∀ xs, j ≠ .arr xs) → (∀ fs, j ≠ .obj fs) → P j)
    (arr : ∀ xs, (∀ x ∈ xs, P x) → P (.arr xs)) (obj : ∀ fs, (∀ f ∈ fs, P f.2) → P (.obj fs)) :
    (fs : List (Text × Json)) → ∀ f ∈ fs, P f.2
  | [], _, h => by cases h
  | (_, x) :: _, _, .head _ => induct atom arr obj x
  | _ :: fs, g, .tail _ h => inductFields atom arr obj fs g h

end

/-! ### Printing in UTF-8 -/

/-- Is there no surrogate in the strings and keys? -/
def hasUtf8 (j : Json) : Bool := j.strings.all Text.encodable

section
variable {floatText : ℚ → Text}

theorem hasUtf8_iff {j : Json} : j.hasUtf8 ↔ ∀ s ∈ j.strings, Text.encodable s := List.all_eq_true

theorem isSome_char (c : CodePoint) : ((pyPrinter floatText).char c).isSome ↔ !c.surrogate := by
  have hescape : escape c ≠ none → c.surrogate = false := by
    intro h
    by_contra hsurrogate
    rw [Bool.not_eq_false, CodePoint.surrogate, Bool.and_eq_true, decide_eq_true_eq, decide_eq_true_eq] at hsurrogate
    refine h ?_
    rw [escape, if_neg, if_neg (by omega)]
    rintro (rfl | rfl | rfl | rfl | rfl | h | h)
    · exact absurd hsurrogate (by decide)
    · exact absurd hsurrogate (by decide)
    · exact absurd hsurrogate (by decide)
    · exact absurd hsurrogate (by decide)
    · exact absurd hsurrogate (by decide)
    · omega
    · omega
  change ((escape c).orElse fun _ => if c.surrogate then none else some c.bytes).isSome ↔ _
  rcases hc : escape c with _ | n
  · cases c.surrogate <;> simp
  · simp [hescape (by simp [hc])]

theorem isSome_strSize (s : Text) : (strSize (pyPrinter floatText) s).isSome ↔ Text.encodable s := by
  rw [strSize, Option.isSome_map, mapM_isSome_iff, Text.encodable, List.all_eq_true]
  exact forall₂_congr fun c _ => isSome_char c

theorem isSome_sizeItems {xs : List Json} :
    (sizeItems (pyPrinter floatText) xs).isSome ↔ ∀ x ∈ xs, (x.size (pyPrinter floatText)).isSome := by
  induction xs with
  | nil => simp [sizeItems]
  | cons x xs ih =>
    rw [List.forall_mem_cons, ← ih, sizeItems]
    cases x.size (pyPrinter floatText) <;> cases sizeItems (pyPrinter floatText) xs <;> simp

theorem isSome_sizeFields {fs : List (Text × Json)} :
    (sizeFields (pyPrinter floatText) fs).isSome ↔
      ∀ f ∈ fs, Text.encodable f.1 ∧ (f.2.size (pyPrinter floatText)).isSome := by
  induction fs with
  | nil => simp [sizeFields]
  | cons f fs ih =>
    have hkey : (strSize (pyPrinter floatText) f.1).isSome ↔ _ := isSome_strSize f.1
    rw [List.forall_mem_cons, ← ih, ← hkey, sizeFields]
    cases strSize (pyPrinter floatText) f.1 <;> cases f.2.size (pyPrinter floatText) <;>
      cases sizeFields (pyPrinter floatText) fs <;> simp

/-- **Python prints what has no surrogate, and nothing else.** -/
theorem isSome_size (j : Json) : (j.size (pyPrinter floatText)).isSome ↔ j.hasUtf8 := by
  rw [hasUtf8_iff]
  induction j using induct with
  | atom j harr hobj =>
    cases j with
    | str s => simpa [size, strings] using isSome_strSize s
    | arr xs => exact absurd rfl (harr xs)
    | obj fs => exact absurd rfl (hobj fs)
    | null | bool | int | float => simp [size, strings]
  | arr xs ih =>
    have hsize : ((arr xs).size (pyPrinter floatText)).isSome ↔ (sizeItems (pyPrinter floatText) xs).isSome := by
      cases xs <;> simp [size, Option.isSome_map, sizeItems, -Option.bind_eq_bind]
    rw [hsize, isSome_sizeItems, forall₂_congr ih]
    simp only [mem_strings_arr]
    exact ⟨fun h s ⟨x, hx, hs⟩ => h x hx s hs, fun h x hx s hs => h s ⟨x, hx, hs⟩⟩
  | obj fs ih =>
    have hsize : ((obj fs).size (pyPrinter floatText)).isSome ↔ (sizeFields (pyPrinter floatText) fs).isSome := by
      cases fs <;> simp [size, Option.isSome_map, sizeFields, -Option.bind_eq_bind]
    rw [hsize, isSome_sizeFields, forall₂_congr fun f hf => and_congr_right fun _ => ih f hf]
    simp only [mem_strings_obj]
    constructor
    · rintro h s ⟨f, hf, rfl | hs⟩
      · exact (h f hf).1
      · exact (h f hf).2 s hs
    · exact fun h f hf => ⟨h _ ⟨f, hf, .inl rfl⟩, fun s hs => h s ⟨f, hf, .inr hs⟩⟩

end

/-- How values are printed: what a character of a string is printed as, and what is no string, array or object.
    `none`: it raises. -/
structure Codec where
  char : CodePoint → Option Text
  atom : Json → Option Text
  itemSeparator : Text
  keySeparator : Text

namespace Codec
variable (codec : Codec)

/-- A string, with its quotes. -/
def quote (s : Text) : Option Text := (s.mapM codec.char).map fun ts => .lit "\"" ++ ts.flatten ++ .lit "\""

/-- Texts in brackets, with separators between them. -/
def enclose (opening closing : String) (ts : List Text) : Text :=
  .lit opening ++ (ts.intersperse codec.itemSeparator).flatten ++ .lit closing

mutual

/-- A value. -/
def print : Json → Option Text
  | .str s => quote codec s
  | .arr xs => (printItems xs).map (enclose codec "[" "]")
  | .obj fs => (printFields fs).map (enclose codec "\x7b" "\x7d")
  | j => codec.atom j

def printItems : List Json → Option (List Text)
  | [] => some []
  | x :: xs => do return (← print x) :: (← printItems xs)

def printFields : List (Text × Json) → Option (List Text)
  | [] => some []
  | (k, x) :: fs => do return ((← quote codec k) ++ codec.keySeparator ++ (← print x)) :: (← printFields fs)

end

variable {codec}

theorem infix_enclose {opening closing : String} {ts : List Text} {t : Text} (h : t ∈ ts) :
    t <:+: codec.enclose opening closing ts := by
  have hmem : t ∈ ts.intersperse codec.itemSeparator := by
    induction ts with
    | nil => cases h
    | cons a ts ih =>
      cases ts with
      | nil => exact h
      | cons b ts =>
        rw [List.intersperse_cons_cons]
        obtain rfl | h := List.mem_cons.1 h
        · exact List.mem_cons_self
        · exact List.mem_cons_of_mem _ (List.mem_cons_of_mem _ (ih h))
  exact (List.infix_of_mem_flatten hmem).trans ⟨_, _, rfl⟩

theorem printItems_mem {xs : List Json} {ts : List Text} (h : codec.printItems xs = some ts) {x : Json} (hx : x ∈ xs) :
    ∃ t ∈ ts, codec.print x = some t := by
  induction xs generalizing ts with
  | nil => cases hx
  | cons y xs ih =>
    rw [printItems, Option.bind_eq_bind, Option.bind_eq_some_iff] at h
    obtain ⟨t, ht, h⟩ := h
    obtain ⟨us, hus, h⟩ := Option.bind_eq_some_iff.1 h
    obtain rfl := Option.some.inj h
    obtain rfl | hx := List.mem_cons.1 hx
    · exact ⟨t, List.mem_cons_self, ht⟩
    · obtain ⟨u, hu, hprint⟩ := ih hus hx
      exact ⟨u, List.mem_cons_of_mem _ hu, hprint⟩

theorem printFields_mem {fs : List (Text × Json)} {ts : List Text} (h : codec.printFields fs = some ts)
    {f : Text × Json} (hf : f ∈ fs) :
    ∃ q t, codec.quote f.1 = some q ∧ codec.print f.2 = some t ∧ q ++ codec.keySeparator ++ t ∈ ts := by
  induction fs generalizing ts with
  | nil => cases hf
  | cons g fs ih =>
    rw [printFields, Option.bind_eq_bind, Option.bind_eq_some_iff] at h
    obtain ⟨q, hq, h⟩ := h
    obtain ⟨t, ht, h⟩ := Option.bind_eq_some_iff.1 h
    obtain ⟨us, hus, h⟩ := Option.bind_eq_some_iff.1 h
    obtain rfl := Option.some.inj h
    obtain rfl | hf := List.mem_cons.1 hf
    · exact ⟨q, t, hq, ht, List.mem_cons_self⟩
    · obtain ⟨q', t', hq', ht', hmem⟩ := ih hus hf
      exact ⟨q', t', hq', ht', List.mem_cons_of_mem _ hmem⟩

theorem print_string {s : Text} (j : Json) {t : Text} (h : codec.print j = some t) (hs : s ∈ j.strings) :
    ∃ q, codec.quote s = some q ∧ q <:+: t := by
  induction j using induct generalizing t with
  | atom j harr hobj =>
    cases j with
    | str s' =>
      obtain rfl := List.mem_singleton.1 hs
      exact ⟨t, h, List.infix_rfl⟩
    | arr xs => exact absurd rfl (harr xs)
    | obj fs => exact absurd rfl (hobj fs)
    | null | bool | int | float => cases hs
  | arr xs ih =>
    rw [print] at h
    obtain ⟨ts, hts, rfl⟩ := Option.map_eq_some_iff.1 h
    obtain ⟨x, hx, hsx⟩ := mem_strings_arr.1 hs
    obtain ⟨u, hu, hprint⟩ := printItems_mem hts hx
    obtain ⟨q, hq, hpart⟩ := ih x hx hprint hsx
    exact ⟨q, hq, hpart.trans (infix_enclose hu)⟩
  | obj fs ih =>
    rw [print] at h
    obtain ⟨ts, hts, rfl⟩ := Option.map_eq_some_iff.1 h
    obtain ⟨f, hf, hsf⟩ := mem_strings_obj.1 hs
    obtain ⟨q, u, hq, hu, hmem⟩ := printFields_mem hts hf
    obtain rfl | hsf := hsf
    · exact ⟨q, hq, .trans ⟨[], codec.keySeparator ++ u, by simp⟩ (infix_enclose hmem)⟩
    · obtain ⟨q', hq', hpart⟩ := ih f hf hu hsf
      exact ⟨q', hq', (hpart.trans ⟨_, [], List.append_nil _⟩).trans (infix_enclose hmem)⟩

theorem print_char {j : Json} {t s : Text} {c : CodePoint} (h : codec.print j = some t) (hs : s ∈ j.strings)
    (hc : c ∈ s) : ∃ e, codec.char c = some e ∧ e <:+: t := by
  obtain ⟨q, hq, hpart⟩ := print_string j h hs
  obtain ⟨es, hes, rfl⟩ := Option.map_eq_some_iff.1 hq
  obtain ⟨e, he⟩ := Option.isSome_iff_exists.1 (mapM_isSome_iff.1 (Option.isSome_of_eq_some hes) c hc)
  have hmem : e ∈ es := (mem_mapM_iff hes).2 ⟨c, hc, he⟩
  exact ⟨e, he, (List.infix_of_mem_flatten hmem).trans (.trans ⟨_, _, rfl⟩ hpart)⟩

end Codec

end Json

end Lib
