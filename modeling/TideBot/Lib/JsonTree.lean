/-
  JSON values as trees: their entries at any depth, and walks that rewrite them.

  `entriesWithin stop` are the entries of all objects of a value, except those below an entry
  whose key is in `stop`; `walk` replaces the values of some keys, goes on into the others, and
  rewrites what is neither an object nor an array.  The entries of what a walk returns are
  the entries that it has come by (`entries_walk`).
-/
import TideBot.Lib.Json

namespace Lib

namespace Json

section
variable (stop : Text → Bool)

mutual

/-- The entries at any depth, but not below a key in `stop`. -/
def entriesWithin : Json → List (Text × Json)
  | .arr xs => itemEntries xs
  | .obj fs => fieldEntries fs
  | _ => []

def itemEntries : List Json → List (Text × Json)
  | [] => []
  | x :: xs => entriesWithin x ++ itemEntries xs

def fieldEntries : List (Text × Json) → List (Text × Json)
  | [] => []
  | (k, x) :: fs => (k, x) :: ((if stop k then [] else entriesWithin x) ++ fieldEntries fs)

end

variable {stop} {e : Text × Json}

theorem mem_itemEntries {xs : List Json} :
    e ∈ itemEntries stop xs ↔ ∃ x ∈ xs, e ∈ x.entriesWithin stop := by
  induction xs with
  | nil => simp [itemEntries]
  | cons x xs ih => simp [itemEntries, ih]

theorem mem_fieldEntries {fs : List (Text × Json)} :
    e ∈ fieldEntries stop fs ↔ ∃ f ∈ fs, e = f ∨ (stop f.1 = false ∧ e ∈ f.2.entriesWithin stop) := by
  induction fs with
  | nil => simp [fieldEntries]
  | cons f fs ih =>
    obtain ⟨k, x⟩ := f
    rw [fieldEntries, List.mem_cons, List.mem_append, ih, List.exists_mem_cons_iff, or_assoc]
    cases stop k <;> simp

end

/-- The entries of all objects of a value. -/
def entries (j : Json) : List (Text × Json) := j.entriesWithin fun _ => false

theorem mem_entries_arr {e : Text × Json} {xs : List Json} :
    e ∈ (arr xs).entries ↔ ∃ x ∈ xs, e ∈ x.entries := mem_itemEntries

theorem mem_entries_obj {e : Text × Json} {fs : List (Text × Json)} :
    e ∈ (obj fs).entries ↔ ∃ f ∈ fs, e = f ∨ e ∈ f.2.entries := by
  rw [entries, entriesWithin, mem_fieldEntries]
  simp [entries]

section
variable (replace : Text → Option Json) (atom : Json → Json)

mutual

/-- Replace the values of some keys, and rewrite what is neither an object nor an array. -/
def walk : Json → Json
  | .arr xs => .arr (walkItems xs)
  | .obj fs => .obj (walkFields fs)
  | j => atom j

def walkItems : List Json → List Json
  | [] => []
  | x :: xs => walk x :: walkItems xs

def walkFields : List (Text × Json) → List (Text × Json)
  | [] => []
  | (k, x) :: fs =>
    (k, match replace k with
      | some r => r
      | none => walk x) :: walkFields fs

end

variable {replace atom}

/-- What a walk makes of an entry. -/
def walkEntry (replace : Text → Option Json) (atom : Json → Json) (e : Text × Json) : Text × Json :=
  (e.1, (replace e.1).getD (walk replace atom e.2))

mutual

/-- **The entries of a walked value are the entries that the walk has come by.** -/
theorem entries_walk (hreplace : ∀ k r, replace k = some r → r.entries = [])
    (hatom : ∀ j, (atom j).entries = []) : (j : Json) → (walk replace atom j).entries =
      (j.entriesWithin fun k => (replace k).isSome).map (walkEntry replace atom)
  | .arr xs => itemEntries_walk hreplace hatom xs
  | .obj fs => fieldEntries_walk hreplace hatom fs
  | .null | .bool _ | .int _ | .float _ | .str _ => hatom _

theorem itemEntries_walk (hreplace : ∀ k r, replace k = some r → r.entries = [])
    (hatom : ∀ j, (atom j).entries = []) : (xs : List Json) →
      itemEntries (fun _ => false) (walkItems replace atom xs) =
        (itemEntries (fun k => (replace k).isSome) xs).map (walkEntry replace atom)
  | [] => rfl
  | x :: xs => by
    have hx := entries_walk hreplace hatom x
    have hxs := itemEntries_walk hreplace hatom xs
    rw [entries] at hx
    rw [walkItems, itemEntries, itemEntries, List.map_append, hx, hxs]

theorem fieldEntries_walk (hreplace : ∀ k r, replace k = some r → r.entries = [])
    (hatom : ∀ j, (atom j).entries = []) : (fs : List (Text × Json)) →
      fieldEntries (fun _ => false) (walkFields replace atom fs) =
        (fieldEntries (fun k => (replace k).isSome) fs).map (walkEntry replace atom)
  | [] => rfl
  | (k, x) :: fs => by
    have hx := entries_walk hreplace hatom x
    have hfs := fieldEntries_walk hreplace hatom fs
    rw [entries] at hx
    rw [walkFields, fieldEntries, fieldEntries, List.map_cons, List.map_append, hfs, walkEntry]
    cases hr : replace k with
    | none => simp [hx]
    | some r =>
      have he := hreplace k r hr
      rw [entries] at he
      simp [he]

end

end

end Json

end Lib
