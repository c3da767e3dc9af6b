/-
  Lines of a provider's stream (`utils/misc.py`).

  `stream_chunks_handler` puts the lines of a stream together from chunks, and drops those that are too long: when they
  are complete, or while they are still arriving.  Which lines are dropped does not depend on the chunks
  (`streamChunksHandler_eq`).
-/
import TideBot.Lib.Bytes
import TideBot.Lib.Lines

namespace TideBot

open Lib

/-- `b'\n'` -/
def newline : Byte := 10

/-- `CHAT_STREAM_RESPONSE_CHUNK_MAX_BUFFER_SIZE`; `none`: no line is too long. -/
def maxBufferSize (setting : Option ℤ) : Option ℕ :=
  match setting with
  | none => none
  | some n => if n ≤ 0 then none else some n.toNat

section
variable (limit : Option ℕ)

/-- `len(line) > max_buffer_size` -/
def tooLong (line : List Byte) : Bool := limit.any fun n => n < line.length

/-- The variables of the generator. -/
structure LineBuffer where
  buffer : List Byte
  droppingLineTail : Bool

/-- The loop over the lines that are complete: the flag, and what is yielded. -/
def yieldLines : Bool → List (List Byte) → Bool × List (List Byte)
  | droppingLineTail, [] => (droppingLineTail, [])
  | true, _ :: lines => yieldLines false lines
  | false, line :: lines =>
    let (droppingLineTail, yielded) := yieldLines false lines
    (droppingLineTail, if tooLong limit line then yielded else (line ++ [newline]) :: yielded)

/-- What a chunk adds to the buffer, and what is yielded of it. -/
def LineBuffer.add (s : LineBuffer) (data : List Byte) : LineBuffer × List (List Byte) :=
  let buffer := s.buffer ++ data
  if newline ∈ data then
    let (droppingLineTail, yielded) := yieldLines limit s.droppingLineTail (completed newline buffer)
    (⟨remainder newline buffer, droppingLineTail⟩, yielded)
  else (⟨buffer, s.droppingLineTail⟩, [])

/-- A line that is too long is dropped while it is arriving. -/
def LineBuffer.dropTail (s : LineBuffer) : LineBuffer := if tooLong limit s.buffer then ⟨[], true⟩ else s

/-- A chunk. -/
def LineBuffer.handle (s : LineBuffer) (data : List Byte) : LineBuffer × List (List Byte) :=
  if data = [] then (s, [])
  else
    let (s, yielded) := s.add limit data
    (s.dropTail limit, yielded)

/-- What is yielded after the last chunk. -/
def LineBuffer.finish (s : LineBuffer) : List (List Byte) :=
  if s.buffer ≠ [] ∧ !s.droppingLineTail then [s.buffer] else []

/-- The loop over the chunks. -/
def yieldSafeStreamChunks : LineBuffer → List (List Byte) → List (List Byte)
  | s, [] => s.finish
  | s, data :: chunks =>
    let (s, yielded) := s.handle limit data
    yielded ++ yieldSafeStreamChunks s chunks

end

/-- `stream_chunks_handler`: all that is yielded of a stream. -/
def streamChunksHandler (setting : Option ℤ) (chunks : List (List Byte)) : List (List Byte) :=
  yieldSafeStreamChunks (maxBufferSize setting) ⟨[], false⟩ chunks

/-! ## What should be yielded -/

section
variable (limit : Option ℕ)

/-- The lines that are not too long, with their newlines. -/
def keptLines (lines : List (List Byte)) : List (List Byte) :=
  (lines.filter fun line => !tooLong limit line).map (· ++ [newline])

/-- The lines of a stream that are not too long, and what comes after the last newline. -/
def streamLines (stream : List Byte) : List (List Byte) :=
  let rest := remainder newline stream
  keptLines limit (completed newline stream) ++ if rest ≠ [] ∧ !tooLong limit rest then [rest] else []

end

/-! ## Chunks -/

section
variable {limit : Option ℕ} {s : LineBuffer} {read data : List Byte}

theorem yieldLines_false (lines : List (List Byte)) :
    yieldLines limit false lines = (false, keptLines limit lines) := by
  induction lines with
  | nil => rfl
  | cons line lines ih =>
    rw [yieldLines, ih]
    simp only [keptLines, List.filter_cons]
    cases tooLong limit line <;> rfl

theorem tooLong_append {p q : List Byte} (h : tooLong limit p) : tooLong limit (p ++ q) := by
  obtain ⟨n, hn, hlt⟩ := (Option.any_eq_true _ _).1 h
  refine (Option.any_eq_true _ _).2 ⟨n, hn, ?_⟩
  rw [decide_eq_true_eq] at hlt ⊢
  rw [List.length_append]
  omega

/-- What the variables say of the line that is not complete yet: a line that is too long is being dropped, and any other
    is in the buffer. -/
structure Buffers (limit : Option ℕ) (line : List Byte) (s : LineBuffer) : Prop where
  dropping : s.droppingLineTail = tooLong limit line
  buffer : tooLong limit line = false → s.buffer = line
  oneLine : newline ∉ s.buffer

/-- … before it has been looked at. -/
structure HoldsLine (limit : Option ℕ) (line : List Byte) (s : LineBuffer) : Prop where
  dropping : s.droppingLineTail → tooLong limit line
  buffer : s.droppingLineTail = false → s.buffer = line
  oneLine : newline ∉ s.buffer

theorem HoldsLine.dropTail {line : List Byte} (h : HoldsLine limit line s) : Buffers limit line (s.dropTail limit) := by
  rw [LineBuffer.dropTail]
  split_ifs with hlong
  · -- what is in the buffer is a part of the line
    have hline : tooLong limit line := by
      cases hflag : s.droppingLineTail with
      | true => exact h.dropping hflag
      | false => exact h.buffer hflag ▸ hlong
    exact ⟨hline.symm, fun hfits => absurd (hfits.symm.trans hline) Bool.false_ne_true, List.not_mem_nil⟩
  · cases hflag : s.droppingLineTail with
    | true =>
      have hline := h.dropping hflag
      exact ⟨hflag.trans hline.symm, fun hfits => absurd (hfits.symm.trans hline) Bool.false_ne_true, h.oneLine⟩
    | false =>
      have hline := h.buffer hflag
      rw [hline] at hlong
      exact ⟨hflag.trans (Bool.eq_false_iff.2 hlong).symm, fun _ => hline, h.oneLine⟩

/-- **The lines that a chunk completes.** -/
theorem Buffers.add (h : Buffers limit (remainder newline read) s) (data : List Byte) :
    HoldsLine limit (remainder newline (read ++ data)) (s.add limit data).1 ∧
      (s.add limit data).2 = keptLines limit (completed newline (remainder newline read ++ data)) := by
  rw [remainder_append, LineBuffer.add]
  have hread : newline ∉ remainder newline read := notMem_remainder read
  by_cases hdata : newline ∈ data
  · rw [if_pos hdata]
    obtain ⟨first, rest, hlines⟩ := List.exists_cons_of_ne_nil (completed_ne_nil hdata)
    obtain ⟨hcompleted, hremainder⟩ := lines_append_of_notMem hread hlines
    obtain ⟨hcompleted', hremainder'⟩ := lines_append_of_notMem h.oneLine hlines
    have hrest : newline ∉ remainder newline data := notMem_remainder data
    rw [hcompleted, hremainder, hcompleted', hremainder', h.dropping]
    cases hlong : tooLong limit (remainder newline read) with
    | true =>
      -- the first line is the rest of the one that is being dropped
      rw [yieldLines, yieldLines_false]
      refine ⟨⟨nofun, fun _ => rfl, hrest⟩, ?_⟩
      rw [keptLines, keptLines, List.filter_cons_of_neg]
      simp [tooLong_append hlong]
    | false =>
      rw [h.buffer hlong, yieldLines_false]
      exact ⟨⟨nofun, fun _ => rfl, hrest⟩, rfl⟩
  · rw [if_neg hdata]
    have hnone : newline ∉ remainder newline read ++ data := by simp [hread, hdata]
    obtain ⟨hcompleted, hremainder⟩ := completed_eq_nil hnone
    rw [hcompleted, hremainder]
    refine ⟨⟨fun hflag => ?_, fun hflag => ?_, by simp [h.oneLine, hdata]⟩, rfl⟩
    · exact tooLong_append (h.dropping ▸ hflag)
    · change s.buffer ++ data = remainder newline read ++ data
      rw [h.buffer (h.dropping.symm.trans hflag)]

/-- **A chunk.** -/
theorem Buffers.handle (h : Buffers limit (remainder newline read) s) (data : List Byte) :
    Buffers limit (remainder newline (read ++ data)) (s.handle limit data).1 ∧
      (s.handle limit data).2 = keptLines limit (completed newline (remainder newline read ++ data)) := by
  obtain ⟨hholds, hyielded⟩ := h.add data
  rw [LineBuffer.handle]
  split_ifs with hempty
  · subst hempty
    rw [List.append_nil, List.append_nil, (completed_eq_nil (notMem_remainder read)).1]
    exact ⟨h, rfl⟩
  · exact ⟨hholds.dropTail, hyielded⟩

theorem Buffers.finish {line : List Byte} (h : Buffers limit line s) :
    s.finish = if line ≠ [] ∧ !tooLong limit line then [line] else [] := by
  rw [LineBuffer.finish, h.dropping]
  cases hlong : tooLong limit line with
  | true => simp
  | false => rw [h.buffer hlong]

/-- **All chunks.** -/
theorem Buffers.run (h : Buffers limit (remainder newline read) s) (chunks : List (List Byte)) :
    keptLines limit (completed newline read) ++ yieldSafeStreamChunks limit s chunks =
      streamLines limit (read ++ chunks.flatten) := by
  induction chunks generalizing s read with
  | nil => rw [yieldSafeStreamChunks, h.finish, List.flatten_nil, List.append_nil, streamLines]
  | cons data chunks ih =>
    obtain ⟨hnext, hyielded⟩ := h.handle data
    have hrest := ih hnext
    have hcons : yieldSafeStreamChunks limit s (data :: chunks) =
        (s.handle limit data).2 ++ yieldSafeStreamChunks limit (s.handle limit data).1 chunks := rfl
    rw [hcons, hyielded, List.flatten_cons, ← List.append_assoc, ← List.append_assoc, ← hrest,
      completed_append read data, keptLines, keptLines, keptLines, List.filter_append, List.map_append]

end

/-- **What is yielded does not depend on the chunks**: it is the lines that are not too long, and the rest. -/
theorem streamChunksHandler_eq (setting : Option ℤ) (chunks : List (List Byte)) :
    streamChunksHandler setting chunks = streamLines (maxBufferSize setting) chunks.flatten := by
  have hstart : Buffers (maxBufferSize setting) (remainder newline []) ⟨[], false⟩ := by
    refine ⟨?_, fun _ => rfl, List.not_mem_nil⟩
    have hnil : remainder newline ([] : List Byte) = [] := rfl
    rw [hnil, tooLong]
    cases maxBufferSize setting <;> rfl
  exact hstart.run chunks

/-- A maximum of zero is none: a line of two bytes is yielded. -/
theorem streamChunksHandler_zero :
    ¬∀ (n : ℕ) (chunks : List (List Byte)),
      streamChunksHandler (some n) chunks = streamLines (some n) chunks.flatten := by
  intro h
  have hzero := h 0 [[97, 98, newline]]
  revert hzero
  decide

end TideBot
