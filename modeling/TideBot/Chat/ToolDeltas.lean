/-
  The deltas of one tool call, and the pieces of its arguments that are emitted.

  A tool call is announced by its first delta, gets its name with one of its deltas, and its arguments piece by piece.
  `CallRun` is what the stream remembers of it: a piece that comes before the name is kept and never emitted, and
  nothing is emitted any more once the arguments are JSON.

  What has been emitted is a piece of the arguments out of their middle (`run_emitted`).  It stands for the arguments
  iff nothing but white space came before the name (`argumentsKept_iff`).
-/
import TideBot.Lib.JsonPrefixes

namespace TideBot

open Lib

/-- A tool call of a response. -/
structure CarriedCall where
  id : Text
  name : Text
  arguments : Text
deriving DecidableEq

/-- What a delta brings of a tool call: its id, its name, a piece of its arguments. -/
structure CallDelta where
  call : CarriedCall
  identified : Bool
  named : Bool
  piece : Text

/-- The pieces of the arguments, one behind the other. -/
def piecesOf (ds : List CallDelta) : Text := ds.flatMap CallDelta.piece

/-- The deltas of a tool call carry it: the first of them has the id, one has the name, and the arguments are spread
    over them. -/
structure Carried (c : CarriedCall) (ds : List CallDelta) : Prop where
  identified : ∃ d later, ds = d :: later ∧ d.identified ∧ ∀ d' ∈ later, d'.identified = false
  named : ds.countP CallDelta.named = 1
  arguments : piecesOf ds = c.arguments

/-- What is known of a tool call, and what has been emitted of its arguments. -/
structure CallRun where
  arguments : Text
  named : Bool
  started : Bool
  stopped : Bool
  parts : List Text

namespace CallRun

def new : CallRun := ⟨[], false, false, false, []⟩

/-- A delta may bring the name. -/
def call (r : CallRun) (d : CallDelta) : CallRun := { r with named := r.named || d.named }

/-- The block is started once there is a name. -/
def start (r : CallRun) : CallRun := { r with started := r.started || r.named }

/-- A piece of the arguments; `isJson` says when the block is stopped. -/
def add (isJson : Text → Bool) (r : CallRun) (piece : Text) : CallRun :=
  if piece = [] then r
  else if r.started && !r.stopped then
    { r with arguments := r.arguments ++ piece, parts := r.parts ++ [piece], stopped := isJson (r.arguments ++ piece) }
  else { r with arguments := r.arguments ++ piece }

def step (isJson : Text → Bool) (r : CallRun) (d : CallDelta) : CallRun := (r.call d).start.add isJson d.piece

/-- The deltas of a tool call, one after the other. -/
def run (isJson : Text → Bool) (ds : List CallDelta) : CallRun := ds.foldl (step isJson) new

end CallRun

/-- The deltas before the name. -/
def earlyDeltas (ds : List CallDelta) : List CallDelta := ds.takeWhile fun d => !d.named

/-- The delta with the name, and those behind it. -/
def lateDeltas (ds : List CallDelta) : List CallDelta := ds.dropWhile fun d => !d.named

section
variable {isJson : Text → Bool} {ds : List CallDelta} {d : CallDelta}

theorem piecesOf_append (ds ds' : List CallDelta) : piecesOf (ds ++ ds') = piecesOf ds ++ piecesOf ds' :=
  List.flatMap_append

theorem piecesOf_early_late (ds : List CallDelta) :
    piecesOf (earlyDeltas ds) ++ piecesOf (lateDeltas ds) = piecesOf ds := by
  rw [← piecesOf_append, earlyDeltas, lateDeltas, List.takeWhile_append_dropWhile]

namespace CallRun

theorem run_snoc : run isJson (ds ++ [d]) = step isJson (run isJson ds) d := List.foldl_concat ..

theorem add_named (r : CallRun) (piece : Text) : (r.add isJson piece).named = r.named := by
  unfold add
  split_ifs <;> rfl

theorem add_started (r : CallRun) (piece : Text) : (r.add isJson piece).started = r.started := by
  unfold add
  split_ifs <;> rfl

theorem add_arguments (r : CallRun) (piece : Text) : (r.add isJson piece).arguments = r.arguments ++ piece := by
  unfold add
  split_ifs with hpiece
  · rw [hpiece, List.append_nil]
  · rfl
  · rfl

theorem add_unstarted (isJson : Text → Bool) {r : CallRun} (h : r.started = false) (piece : Text) :
    (r.add isJson piece).parts = r.parts ∧ (r.add isJson piece).stopped = r.stopped := by
  unfold add
  rw [h, Bool.false_and]
  split_ifs with hpiece hfalse
  · exact ⟨rfl, rfl⟩
  · cases hfalse
  · exact ⟨rfl, rfl⟩

theorem start_self {r : CallRun} (h : ¬(r.named && !r.started) = true) : r.start = r := by
  obtain ⟨arguments, named, started, stopped, parts⟩ := r
  cases named with
  | false =>
    rw [start, Bool.or_false]
  | true =>
    have hstarted : started = true := by simpa using h
    rw [hstarted]
    rfl

theorem start_call {r : CallRun} (hnamed : r.named = true) (hstarted : r.started = true) : (r.call d).start = r := by
  cases r
  cases hnamed
  cases hstarted
  rfl

theorem run_named (isJson : Text → Bool) (ds : List CallDelta) :
    (run isJson ds).named = ds.any CallDelta.named ∧ (run isJson ds).started = ds.any CallDelta.named := by
  induction ds using List.reverseRecOn with
  | nil => exact ⟨rfl, rfl⟩
  | append_singleton ds d ih =>
    obtain ⟨hnamed, hstarted⟩ := ih
    rw [run_snoc, step, add_named, add_started, List.any_append, List.any_cons, List.any_nil, Bool.or_false]
    dsimp only [start, call]
    rw [hnamed, hstarted, ← Bool.or_assoc, Bool.or_self]
    exact ⟨rfl, rfl⟩

theorem run_arguments (ds : List CallDelta) : (run isJson ds).arguments = piecesOf ds := by
  induction ds using List.reverseRecOn with
  | nil => rfl
  | append_singleton ds d ih =>
    rw [run_snoc, step, add_arguments, piecesOf_append, ← ih]
    simp [start, call, piecesOf]

/-- What has been emitted of a tool call: what came between the name and the end, or the moment the arguments were
    JSON. -/
structure Emits (isJson : Text → Bool) (r : CallRun) (early : Text) : Prop where
  middle : ∃ rest, early ++ r.parts.flatten ++ rest = r.arguments ∧ (r.stopped = false → rest = [])
  json : r.stopped → isJson (early ++ r.parts.flatten)
  nonempty : ∀ p ∈ r.parts, p ≠ []
  untouched : r.parts = [] → r.stopped = false
  unnamed : r.named = false → r.parts = []

theorem Emits.add {r : CallRun} {early piece : Text} (h : Emits isJson r early) (hstarted : r.started = r.named)
    (hnamed : r.named) : Emits isJson (r.add isJson piece) early := by
  obtain ⟨rest, hrest, hopen⟩ := h.middle
  unfold CallRun.add
  split_ifs with hpiece hstart
  · exact h
  · have hstopped : r.stopped = false := by simpa [hstarted, hnamed] using hstart
    obtain rfl := hopen hstopped
    rw [List.append_nil] at hrest
    have hflat : early ++ (r.parts ++ [piece]).flatten = r.arguments ++ piece := by
      rw [← hrest, List.flatten_append, List.flatten_singleton, List.append_assoc]
    refine ⟨⟨[], by rw [List.append_nil, hflat], fun _ => rfl⟩, ?_, ?_, ?_, ?_⟩
    · intro hjson
      dsimp only at hjson ⊢
      rwa [hflat]
    · intro p hp
      obtain hp | hp := List.mem_append.1 hp
      · exact h.nonempty p hp
      · rwa [List.mem_singleton.1 hp]
    · intro hnil
      exact absurd hnil (by simp)
    · intro hnone
      exact absurd hnamed (by simpa using hnone)
  · have hstopped : r.stopped = true := by simpa [hstarted, hnamed] using hstart
    refine ⟨⟨rest ++ piece, by rw [← List.append_assoc, hrest], ?_⟩, h.json, h.nonempty, h.untouched, h.unnamed⟩
    intro hno
    exact absurd hstopped (by simpa using hno)

/-- **What has been emitted** after the deltas of a tool call. -/
theorem run_emitted (isJson : Text → Bool) (ds : List CallDelta) :
    Emits isJson (run isJson ds) (piecesOf (earlyDeltas ds)) := by
  induction ds using List.reverseRecOn with
  | nil => exact ⟨⟨[], rfl, fun _ => rfl⟩, fun h => absurd h (by simp [run, new]), by simp [run, new], fun _ => rfl,
      fun _ => rfl⟩
  | append_singleton ds d ih =>
    have hearly : earlyDeltas (ds ++ [d]) =
        if ds.any CallDelta.named then earlyDeltas ds else if d.named then ds else ds ++ [d] := by
      unfold earlyDeltas
      rw [List.takeWhile_append]
      by_cases hany : ds.any CallDelta.named
      · rw [if_pos hany, if_neg]
        intro hlength
        have hall := List.takeWhile_eq_self_iff.1 ((List.takeWhile_prefix _).eq_of_length hlength)
        obtain ⟨d', hd', hnamed⟩ := List.any_eq_true.1 hany
        have hnot := hall d' hd'
        rw [hnamed] at hnot
        cases hnot
      · have hall : ds.takeWhile (fun d => !d.named) = ds := by
          refine List.takeWhile_eq_self_iff.2 fun d' hd' => ?_
          rw [Bool.not_eq_true']
          exact Bool.eq_false_iff.2 fun hnamed => hany (List.any_eq_true.2 ⟨d', hd', hnamed⟩)
        rw [if_neg hany, if_pos (by rw [hall]), List.takeWhile_cons]
        cases d.named <;> simp
    obtain ⟨hnamed, hstarted⟩ := run_named isJson ds
    rw [run_snoc, step, hearly]
    by_cases hany : ds.any CallDelta.named
    · -- the name was there before
      rw [if_pos hany]
      rw [hany] at hnamed hstarted
      rw [start_call hnamed hstarted]
      exact ih.add (by rw [hnamed, hstarted]) hnamed
    · rw [if_neg hany]
      rw [Bool.not_eq_true] at hany
      rw [hany] at hnamed hstarted
      have hparts := ih.unnamed hnamed
      have hstopped := ih.untouched hparts
      by_cases hd : d.named
      · -- the name comes with this delta
        rw [if_pos hd]
        have hemits : Emits isJson ((run isJson ds).call d).start (piecesOf ds) := by
          refine ⟨⟨[], ?_, fun _ => rfl⟩, ?_, ?_, fun _ => hstopped, ?_⟩
          · simp [call, start, hparts, run_arguments]
          · intro h
            exact absurd h (by simp [call, start, hstopped])
          · simp [call, start, hparts]
          · intro h
            exact absurd h (by simp [call, start, hd])
        exact hemits.add (by simp [call, start, hd]) (by simp [call, start, hd])
      · -- there is no name yet
        rw [if_neg hd]
        rw [Bool.not_eq_true] at hd
        obtain ⟨hkept, hnone⟩ := add_unstarted isJson (r := ((run isJson ds).call d).start)
          (by simp [call, start, hnamed, hstarted, hd]) d.piece
        have harguments : (((run isJson ds).call d).start.add isJson d.piece).arguments = piecesOf (ds ++ [d]) := by
          rw [← step, ← run_snoc, run_arguments]
        refine ⟨⟨[], ?_, fun _ => rfl⟩, ?_, ?_, fun _ => hnone.trans hstopped, fun _ => hkept.trans hparts⟩
        · rw [hkept, harguments]
          simp [call, start, hparts]
        · intro h
          rw [hnone] at h
          exact absurd h (by simp [call, start, hstopped])
        · rw [hkept]
          simp [call, start, hparts]

end CallRun

end

/-! ## The arguments, from what has been emitted -/

/-- Is the text JSON? -/
def isJson (loads : Text → Except Json.LoadError Json) (t : Text) : Bool := (loads t).isOk

theorem isJson_iff {loads : Text → Except Json.LoadError Json} {t : Text} : isJson loads t ↔ ∃ v, loads t = .ok v := by
  unfold isJson
  rcases loads t with e | v
  · simp [Except.isOk, Except.toBool]
  · simp [Except.isOk, Except.toBool]

theorem toOption_eq_some {x : Except Json.LoadError Json} {v : Json} : x.toOption = some v ↔ x = .ok v := by
  cases x <;> simp [Except.toOption]

/-- The input of a tool call, of which pieces have been emitted: they are read, one behind the other.  A block starts
    with an empty input. -/
def assembledInput (loads : Text → Except Json.LoadError Json) (parts : List Text) : Option Json :=
  if parts = [] then some (.obj []) else (loads parts.flatten).toOption

/-- **The condition**: nothing but white space comes before the name, or the arguments are empty and nothing comes with
    the name or behind it. -/
def ArgumentsKept (loads : Text → Except Json.LoadError Json) (c : CarriedCall) (ds : List CallDelta) : Prop :=
  (∀ char ∈ piecesOf (earlyDeltas ds), Json.whitespace char) ∨
    loads c.arguments = .ok (.obj []) ∧ piecesOf (lateDeltas ds) = []

/-- **What has been emitted is read as the arguments** iff the condition holds. -/
theorem argumentsKept_iff {F : Json.FloatText} {stack : ℕ} {c : CarriedCall} {ds : List CallDelta}
    {fields : List (Text × Json)} (h : Carried c ds) (hobj : Json.loadsText F stack c.arguments = .ok (.obj fields)) :
    assembledInput (Json.loadsText F stack) (CallRun.run (isJson (Json.loadsText F stack)) ds).parts =
      some (.obj fields) ↔ ArgumentsKept (Json.loadsText F stack) c ds := by
  obtain ⟨⟨rest, hrest, hopen⟩, hjson, hnonempty, huntouched, -⟩ :=
    CallRun.run_emitted (isJson (Json.loadsText F stack)) ds
  rw [CallRun.run_arguments, h.arguments] at hrest
  have hsplit := (piecesOf_early_late ds).trans h.arguments
  -- with what came before the name, what has been emitted is the object
  have hread : Json.loadsText F stack (piecesOf (earlyDeltas ds) ++
      (CallRun.run (isJson (Json.loadsText F stack)) ds).parts.flatten) = .ok (.obj fields) := by
    cases hstopped : (CallRun.run (isJson (Json.loadsText F stack)) ds).stopped with
    | false => rw [← hobj, ← hrest, hopen hstopped, List.append_nil]
    | true =>
      obtain ⟨v, hv⟩ := isJson_iff.1 (hjson hstopped)
      rw [← hrest] at hobj
      rw [hv, Json.loadsText_prefix hobj hv]
  unfold assembledInput ArgumentsKept
  by_cases hparts : (CallRun.run (isJson (Json.loadsText F stack)) ds).parts = []
  · -- nothing has been emitted: everything came before the name
    have hearly : piecesOf (earlyDeltas ds) = c.arguments := by
      rw [hopen (huntouched hparts), hparts, List.append_nil, List.flatten_nil, List.append_nil] at hrest
      exact hrest
    have hlate : piecesOf (lateDeltas ds) = [] := by
      rw [hearly] at hsplit
      exact List.append_right_eq_self.1 hsplit
    rw [if_pos hparts, hlate, hobj]
    constructor
    · rintro heq
      exact .inr ⟨congrArg _ (Option.some.inj heq).symm, rfl⟩
    · rintro (hwhite | ⟨hempty, -⟩)
      · rw [hearly] at hwhite
        rw [← List.append_nil c.arguments, Json.loadsText_whitespace hwhite] at hobj
        cases hobj
      · cases hempty
        rfl
  · rw [if_neg hparts, toOption_eq_some]
    constructor
    · intro hloads
      refine .inl ?_
      by_contra hblack
      exact Json.IsObject.cut ⟨fields, hread⟩ hblack ⟨fields, hloads⟩
    · rintro (hwhite | ⟨-, hlate⟩)
      · exact (Json.loadsText_whitespace hwhite).1 hread
      · have hempty : (CallRun.run (isJson (Json.loadsText F stack)) ds).parts.flatten ++ rest = [] := by
          rw [← hlate]
          refine (List.append_right_inj (piecesOf (earlyDeltas ds))).1 ?_
          rw [hsplit, ← hrest, List.append_assoc]
        have hall := List.flatten_eq_nil_iff.1 (List.append_eq_nil_iff.1 hempty).1
        obtain ⟨p, hp⟩ := List.exists_mem_of_ne_nil _ hparts
        exact absurd (hall p hp) (hnonempty p hp)

end TideBot
