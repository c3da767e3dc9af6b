/-
  Queries of URLs: pairs joined by `&`, each a name and a value joined by `=`.

  How a name or a value is written (`encode`) and read (`decode`) is a parameter; a written one has no
  separator in it.  A query that has been cut is read as its whole pairs and what is left of the next
  (`parsePairs_take`).
-/
import TideBot.Lib.Text

namespace Lib

namespace FormText

def ampersand : CodePoint := .ofChar '&'

def equals : CodePoint := .ofChar '='

/-- A name and a value, of the text of a pair; without `=` the value is empty. -/
def readPair (decode : Text → Text) (piece : Text) : Text × Text :=
  (decode (piece.takeWhile (· ≠ equals)), decode ((piece.dropWhile (· ≠ equals)).drop 1))

/-- The pairs of a query. -/
def parsePairs (decode : Text → Text) (query : Text) : List (Text × Text) :=
  ((query.splitOn ampersand).filter (· ≠ [])).map (readPair decode)

def writePair (encode : Text → Text) (p : Text × Text) : Text := encode p.1 ++ equals :: encode p.2

/-- The query of some pairs. -/
def serializePairs (encode : Text → Text) (ps : List (Text × Text)) : Text :=
  [ampersand].intercalate (ps.map (writePair encode))

/-- What is read of the first `n` characters of the query of some pairs. -/
def cutPairs (encode decode : Text → Text) : ℕ → List (Text × Text) → List (Text × Text)
  | _, [] => []
  | n, p :: ps =>
    if (writePair encode p).length < n then
      readPair decode (writePair encode p) ::
        cutPairs encode decode (n - ((writePair encode p).length + 1)) ps
    else if n = 0 then []
    else [readPair decode ((writePair encode p).take n)]

/-- No separator is written. -/
def Separable (encode : Text → Text) : Prop := ∀ t, ampersand ∉ encode t ∧ equals ∉ encode t

variable {encode decode : Text → Text} {p : Text × Text} {ps : List (Text × Text)} {t rest : Text} {n : ℕ}

theorem ampersand_notMem_writePair (h : Separable encode) (p : Text × Text) : ampersand ∉ writePair encode p := by
  rw [writePair, List.mem_append, List.mem_cons]
  rintro (hname | heq | hvalue)
  · exact (h p.1).1 hname
  · exact absurd heq (by decide)
  · exact (h p.2).1 hvalue

theorem readPair_append (hname : equals ∉ t) (rest : Text) :
    readPair decode (t ++ equals :: rest) = (decode t, decode rest) := by
  have hall : ∀ c ∈ t, decide (c ≠ equals) = true := by
    intro c hc
    refine decide_eq_true ?_
    rintro rfl
    exact hname hc
  rw [readPair, List.takeWhile_append_of_pos hall, List.dropWhile_append_of_pos hall]
  simp

theorem readPair_writePair (h : Separable encode) (p : Text × Text) :
    readPair decode (writePair encode p) = (decode (encode p.1), decode (encode p.2)) :=
  readPair_append (h p.1).2 _

theorem readPair_of_notMem (hname : equals ∉ t) : readPair decode t = (decode t, decode []) := by
  have hall : ∀ c ∈ t, decide (c ≠ equals) = true := by
    intro c hc
    refine decide_eq_true ?_
    rintro rfl
    exact hname hc
  rw [readPair, List.takeWhile_eq_self_iff.2 hall, List.dropWhile_eq_nil_iff.2 hall]
  rfl

theorem parsePairs_nil : parsePairs decode [] = [] := by
  simp [parsePairs]

theorem parsePairs_cons (ht : ampersand ∉ t) (hne : t ≠ []) (rest : Text) :
    parsePairs decode (t ++ ampersand :: rest) = readPair decode t :: parsePairs decode rest := by
  have hsplit : (t ++ ampersand :: rest).splitOn ampersand = t :: rest.splitOn ampersand := by
    rw [List.splitOn_append_cons_self, List.splitOn_eq_singleton ht, List.singleton_append]
  rw [parsePairs, hsplit, List.filter_cons_of_pos (by simpa using hne), List.map_cons, parsePairs]

theorem parsePairs_single (ht : ampersand ∉ t) (hne : t ≠ []) : parsePairs decode t = [readPair decode t] := by
  rw [parsePairs, List.splitOn_eq_singleton ht, List.filter_cons_of_pos (by simpa using hne)]
  rfl

theorem eq_of_mem_intercalate {ls : List Text} {c sep : CodePoint} (hls : ∀ l ∈ ls, l = [])
    (h : c ∈ [sep].intercalate ls) : c = sep := by
  induction ls with
  | nil => cases h
  | cons l ls ih =>
    obtain ⟨rfl, hrest⟩ := List.forall_mem_cons.1 hls
    cases ls with
    | nil => simp at h
    | cons l' ls =>
      rw [List.intercalate_cons_cons, List.nil_append, List.singleton_append, List.mem_cons] at h
      exact h.elim id (ih hrest)

theorem parsePairs_eq_nil : parsePairs decode t = [] ↔ ∀ c ∈ t, c = ampersand := by
  rw [parsePairs, List.map_eq_nil_iff]
  constructor
  · intro h c hc
    have hjoin : [ampersand].intercalate (t.splitOn ampersand) = t := List.intercalate_splitOn ampersand
    rw [← hjoin] at hc
    have hempty : ∀ l ∈ t.splitOn ampersand, l = [] := by
      simpa [List.filter_eq_nil_iff] using h
    exact eq_of_mem_intercalate hempty hc
  · intro h
    induction t with
    | nil => simp
    | cons c t ih =>
      obtain ⟨rfl, ht⟩ := List.forall_mem_cons.1 h
      have hsplit : (ampersand :: t).splitOn ampersand = [] :: t.splitOn ampersand := by
        rw [List.splitOn_cons_eq_if_modifyHead, if_pos (by simp)]
      rw [hsplit, List.filter_cons_of_neg (by simp)]
      exact ih ht

theorem writePair_ne_nil (p : Text × Text) : writePair encode p ≠ [] := by
  simp [writePair]

theorem serializePairs_cons_cons (p q : Text × Text) (ps : List (Text × Text)) :
    serializePairs encode (p :: q :: ps) = writePair encode p ++ ampersand :: serializePairs encode (q :: ps) := by
  simp [serializePairs, List.intercalate_cons_cons]

/-- **A query that was cut** is read as its whole pairs, and what is left of the next. -/
theorem parsePairs_take (h : Separable encode) (n : ℕ) (ps : List (Text × Text)) :
    parsePairs decode ((serializePairs encode ps).take n) = cutPairs encode decode n ps := by
  induction ps generalizing n with
  | nil => simp [serializePairs, cutPairs, parsePairs_nil]
  | cons p ps ih =>
    have hp := ampersand_notMem_writePair h p
    have hcut : ∀ m, ampersand ∉ (writePair encode p).take m := fun m hm => hp (List.mem_of_mem_take hm)
    have hshort : n ≤ (writePair encode p).length →
        parsePairs decode ((writePair encode p).take n) =
          if n = 0 then [] else [readPair decode ((writePair encode p).take n)] := by
      intro _
      split_ifs with hn
      · rw [hn, List.take_zero, parsePairs_nil]
      · refine parsePairs_single (hcut n) ?_
        rw [ne_eq, List.take_eq_nil_iff]
        exact not_or.2 ⟨hn, writePair_ne_nil p⟩
    rw [cutPairs]
    cases ps with
    | nil =>
      have hone : serializePairs encode [p] = writePair encode p := by simp [serializePairs]
      rw [hone]
      split_ifs with hlt hn
      · rw [List.take_of_length_le hlt.le, parsePairs_single hp (writePair_ne_nil p)]
        rfl
      · rw [hn, List.take_zero, parsePairs_nil]
      · rw [hshort (by omega), if_neg hn]
    | cons q ps =>
      rw [serializePairs_cons_cons]
      split_ifs with hlt hn
      · obtain ⟨m, rfl⟩ : ∃ m, n = (writePair encode p).length + (m + 1) :=
          ⟨n - (writePair encode p).length - 1, by omega⟩
        rw [List.take_length_add_append, List.take_succ_cons, parsePairs_cons hp (writePair_ne_nil p), ih m]
        congr 2
        omega
      · rw [hn, List.take_zero, parsePairs_nil]
      · rw [List.take_append_of_le_length (by omega), hshort (by omega), if_neg hn]

end FormText

end Lib
