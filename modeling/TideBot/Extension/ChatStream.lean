/-
  The stream of a chat in the extension (`background/api-proxy.ts`, `streamChat`).

  The body is decoded chunk by chunk into a buffer.  An event ends at two line feeds; its lines that begin
  with `data:` are read, up to `[DONE]`.  A CR LF is made a line feed in the text of each chunk, so
  that a pair which is cut in two by a chunk stays.

  What is left of that pair is a CR at the end of a line, where it is trimmed; but an empty line with it ends no
  event.  So the panel is sent the same, however the body is cut, exactly if nothing is said
  after the last line feed that follows on another one (`streamChat_chunks_iff`).
-/
import TideBot.Extension.PageText
import TideBot.Lib.Blocks
import TideBot.Lib.JsonText
import TideBot.Lib.TextDecoder

namespace TideBot

open Lib

/-- What the panel is sent. -/
inductive StreamMessage where
  | delta (value : Text)
  | activity (label : Text)
  | done (chatId : Option Text)
  deriving DecidableEq

namespace ChatStream

/-! ## One event -/

/-- `value?.key` -/
def chain (value : Option Json) (key : String) : Option Json :=
  match value with
  | some (.obj fields) => (Json.obj fields).field (.lit key)
  | some (.arr items) => if key = "0" then items.head? else none
  | some (.str (c :: _)) => if key = "0" then some (.str (Transport.slice 1 [c])) else none
  | _ => none

/-- `a ?? b` -/
def nullish (a b : Option Json) : Option Json := if a = none ∨ a = some .null then b else a

/-- The labels of `activityLabel`. -/
def activityLabels : List (Text × Text) :=
  [("browser_observe", "Observe page"), ("browser_click", "Click element"), ("browser_type", "Type in field"),
    ("browser_select", "Choose option"), ("browser_scroll", "Scroll page"), ("browser_navigate", "Navigate page"),
    ("browser_screenshot", "Capture screenshot"), ("browser_download", "Start download"),
    ("browser_wait", "Wait for page")].map fun e => (.lit e.1, .lit e.2)

/-- `activityLabel` -/
def activityLabel : Option Json → Option Text
  | some (.str name) =>
    if (Text.lit "browser_").isPrefixOf name then
      some ((activityLabels.lookup name).getD (.lit "Use browser tool"))
    else none
  | _ => none

/-- `emit(requestId, 'delta', …)`, of a string that is not empty. -/
def sayContent : Option Json → List StreamMessage
  | some (.str content) => if content = [] then [] else [.delta (Transport.slice 50000 content)]
  | _ => []

/-- The `content` of a value. -/
def contentOf (data : Json) : Option Json :=
  nullish (chain (chain (chain (chain (some data) "choices") "0") "delta") "content")
    (if chain (some data) "type" = some (.str (.lit "chat:message:delta")) then
      chain (chain (some data) "data") "content"
    else none)

/-- The `toolName` of a value. -/
def toolNameOf (data : Json) : Option Json :=
  let delta := chain (chain (chain (some data) "choices") "0") "delta"
  nullish (chain (chain (chain (chain delta "tool_calls") "0") "function") "name")
    (nullish (chain (chain (chain (some data) "data") "tool") "name") (chain (chain (some data) "data") "name"))

/-- `JSON.parse` -/
def parseJson (F : Json.FloatText) (raw : Text) : Option Json := Json.loads F raw

section

variable (F : Json.FloatText)

/-- `handleStreamData` -/
def handleStreamData (raw : Text) : List StreamMessage :=
  match parseJson F raw with
  | none => []
  | some data => sayContent (contentOf data) ++ ((activityLabel (toolNameOf data)).map .activity).toList

/-- The data of a line. -/
def dataOf (line : Text) : Option Text :=
  if (Text.lit "data:").isPrefixOf line then some (trimSpaces (line.drop 5)) else none

def doneData : Text := .lit "[DONE]"

/-- The lines of an event; `true`: the stream is finished. -/
def readLines : List Text → List StreamMessage × Bool
  | [] => ([], false)
  | line :: lines =>
    match dataOf line with
    | none => readLines lines
    | some data =>
      if data = doneData then ([], true) else (handleStreamData F data ++ (readLines lines).1, (readLines lines).2)

/-- The loop over the events in the buffer: what is said, what is left, and whether the stream is finished. -/
def drain : ℕ → Text → List StreamMessage × Text × Bool
  | 0, buffer => ([], buffer, false)
  | n + 1, buffer =>
    match buffer.cutBlock with
    | none => ([], buffer, false)
    | some (event, rest) =>
      let r := readLines F event.lines
      if r.2 then (r.1, rest, true) else (r.1 ++ (drain n rest).1, (drain n rest).2)

/-! ## The stream -/

/-- `MAX_STREAM_BYTES` -/
def maxStreamBytes : ℕ := 4 * 1024 * 1024

def tooLarge : Text := .lit "api_response_too_large"

def invalidResponse : Text := .lit "invalid_api_response"

/-- The loop over the chunks; what is said, and the code of what is thrown. -/
def readStream (d : TextDecoder) (buffer : Text) (totalBytes : ℕ) :
    List (List Byte) → List StreamMessage × Option Text
  | [] => ((drain F (buffer ++ d.flush).length (buffer ++ d.flush)).1, none)
  | value :: chunks =>
    if maxStreamBytes < totalBytes + value.length then ([], some tooLarge)
    else
      let buffer := buffer ++ (d.feed value).2.unix
      let q := drain F buffer.length buffer
      if q.2.2 then (q.1, none)
      else
        let rest := readStream (d.feed value).1 q.2.1 (totalBytes + value.length) chunks
        (q.1 ++ rest.1, rest.2)

/-- `/^[a-z0-9_-]{1,128}$/i` -/
def validRequestId (requestId : Text) : Bool :=
  requestId ≠ [] && requestId.length ≤ 128 && requestId.all fun c =>
    (48 ≤ c.val && c.val ≤ 57) || (65 ≤ c.val && c.val ≤ 90) || (97 ≤ c.val && c.val ≤ 122) ||
      (Text.lit "_-").contains c

/-- The answer of the server. -/
structure ChatResponse where
  ok : Bool
  status : ℕ
  contentType : Text
  body : Option (List (List Byte))

/-- The answer that came as JSON. -/
def readJson (maxResponseBytes : ℕ) (bytes : List Byte) : List StreamMessage × Option Text :=
  if maxResponseBytes < bytes.length then ([], some tooLarge)
  else
    let d := TextDecoder.initial.feed bytes
    match parseJson F (d.2 ++ d.1.flush) with
    | none => ([], some invalidResponse)
    | some value =>
      match chain (chain (chain (chain (some value) "choices") "0") "message") "content" with
      | some (.str content) => ([.delta content], none)
      | _ => ([], none)

/-- The last message, if nothing was thrown. -/
def finish (chatId : Text) (r : List StreamMessage × Option Text) : List StreamMessage × Option Text :=
  if r.2 = none then (r.1 ++ [.done (if chatId = [] then none else some chatId)], none) else r

/-- `streamChat`; `chatId` is `String(body.chat_id ?? '')`. -/
def streamChat (maxResponseBytes : ℕ) (requestId chatId : Text) (response : ChatResponse) :
    List StreamMessage × Option Text :=
  if !validRequestId requestId then ([], some (.lit "invalid_request_id"))
  else if !response.ok then ([], some (.lit "api_http_" ++ Json.intText response.status))
  else
    match response.body with
    | none => ([], some invalidResponse)
    | some chunks =>
      if Text.lit "application/json" <:+: response.contentType then
        finish chatId (readJson F maxResponseBytes chunks.flatten)
      else finish chatId (readStream F .initial [] 0 chunks)

end

/-! ## What a stream says -/

/-- What is said of data, up to `[DONE]`. -/
def said (F : Json.FloatText) (data : List Text) : List StreamMessage :=
  (data.takeWhile (· ≠ doneData)).flatMap (handleStreamData F)

/-- The text that a reader of these chunks has in its buffers. -/
def readText (d : TextDecoder) : List (List Byte) → Text
  | [] => d.flush
  | value :: chunks => (d.feed value).2.unix ++ readText (d.feed value).1 chunks

/-- The text of a stream. -/
def decodeAll (d : TextDecoder) (bytes : List Byte) : Text := (d.feed bytes).2 ++ (d.feed bytes).1.flush

section

variable {F : Json.FloatText} {d : TextDecoder} {t buffer : Text} {ls ls' : List Text} {n : ℕ}

theorem readLines_fst (ls : List Text) : (readLines F ls).1 = said F (ls.filterMap dataOf) := by
  induction ls with
  | nil => rfl
  | cons line ls ih =>
    rw [readLines, List.filterMap_cons]
    cases dataOf line with
    | none => exact ih
    | some data =>
      dsimp only
      by_cases hdone : data = doneData
      · rw [if_pos hdone, said, List.takeWhile_cons_of_neg (by simpa using hdone)]
        rfl
      · rw [if_neg hdone, said, List.takeWhile_cons_of_pos (by simpa using hdone), List.flatMap_cons, ih]
        rfl

theorem readLines_append_of_finished (h : (readLines F ls).2 = true) (ls' : List Text) :
    readLines F (ls ++ ls') = readLines F ls := by
  induction ls with
  | nil => cases h
  | cons line ls ih =>
    rw [readLines] at h
    rw [List.cons_append, readLines, readLines]
    cases hdata : dataOf line with
    | none =>
      rw [hdata] at h
      exact ih h
    | some data =>
      rw [hdata] at h
      dsimp only at h ⊢
      by_cases hdone : data = doneData
      · rw [if_pos hdone, if_pos hdone]
      · rw [if_neg hdone] at h
        rw [if_neg hdone, if_neg hdone, ih h]

theorem readLines_append (h : (readLines F ls).2 = false) (ls' : List Text) :
    readLines F (ls ++ ls') = ((readLines F ls).1 ++ (readLines F ls').1, (readLines F ls').2) := by
  induction ls with
  | nil => rfl
  | cons line ls ih =>
    rw [readLines] at h
    rw [List.cons_append, readLines, readLines]
    cases hdata : dataOf line with
    | none =>
      rw [hdata] at h
      exact ih h
    | some data =>
      rw [hdata] at h
      dsimp only at h ⊢
      by_cases hdone : data = doneData
      · rw [if_pos hdone] at h
        cases h
      · rw [if_neg hdone] at h
        rw [if_neg hdone, if_neg hdone, ih h, List.append_assoc]

/-- The lines of the events in a text. -/
def eventLines (t : Text) : List Text := t.blocks.1.flatMap Text.lines

/-- **The loop over the events.** -/
theorem drain_eq (hn : t.length ≤ n) : (drain F n t).1 = (readLines F (eventLines t)).1 ∧
    (drain F n t).2.2 = (readLines F (eventLines t)).2 ∧
    ((drain F n t).2.2 = false → (drain F n t).2.1 = t.blocks.2) := by
  induction n generalizing t with
  | zero =>
    obtain rfl := List.eq_nil_of_length_eq_zero (Nat.le_zero.1 hn)
    exact ⟨rfl, rfl, fun _ => rfl⟩
  | succ n ih =>
    unfold eventLines
    cases hcut : t.cutBlock with
    | none =>
      rw [Text.blocks_of_none hcut, drain, hcut]
      exact ⟨rfl, rfl, fun _ => rfl⟩
    | some r =>
      have hlength := congrArg List.length (Text.cutBlock_eq_some hcut)
      simp only [List.length_append, List.length_cons] at hlength
      obtain ⟨hsaid, hfinished, hrest⟩ := ih (t := r.2) (by omega)
      rw [Text.blocks_of_some hcut, drain, hcut, List.flatMap_cons]
      dsimp only
      cases hdone : (readLines F r.1.lines).2 with
      | true =>
        rw [readLines_append_of_finished hdone, if_pos rfl]
        exact ⟨rfl, hdone.symm, by rintro ⟨⟩⟩
      | false =>
        rw [readLines_append hdone, if_neg (by simp)]
        refine ⟨?_, hfinished, hrest⟩
        dsimp only
        rw [hsaid]
        rfl

theorem eventLines_append (t u : Text) : eventLines (t ++ u) = eventLines t ++ eventLines (t.blocks.2 ++ u) := by
  rw [eventLines, Text.blocks_append, List.flatMap_append]
  rfl

/-- **The loop over the chunks.** -/
theorem readStream_eq {chunks : List (List Byte)} : ∀ {d : TextDecoder} {buffer : Text} {total : ℕ},
    total + chunks.flatten.length ≤ maxStreamBytes →
    readStream F d buffer total chunks = ((readLines F (eventLines (buffer ++ readText d chunks))).1, none) := by
  induction chunks with
  | nil =>
    intro d buffer total _
    rw [readStream, (drain_eq le_rfl).1]
    rfl
  | cons value chunks ih =>
    intro d buffer total hsize
    rw [List.flatten_cons, List.length_append] at hsize
    obtain ⟨hsaid, hfinished, hrest⟩ := drain_eq (F := F) (t := buffer ++ (d.feed value).2.unix) le_rfl
    rw [readStream, if_neg (by omega), readText, ← List.append_assoc, eventLines_append]
    dsimp only
    cases hdone : (readLines F (eventLines (buffer ++ (d.feed value).2.unix))).2 with
    | true => rw [readLines_append_of_finished hdone, if_pos (hfinished.trans hdone), hsaid]
    | false =>
      rw [hdone] at hfinished
      rw [readLines_append hdone, if_neg (by rw [hfinished]; exact Bool.false_ne_true),
        hrest hfinished, ih (by omega), hsaid]

/-! ## The text of the chunks -/

theorem replacement_ne_cr : TextDecoder.replacement ≠ Text.cr := by decide

theorem replacement_ne_lf : TextDecoder.replacement ≠ Text.lf := by decide

theorem flush_cases (d : TextDecoder) : d.flush = [] ∨ d.flush = [TextDecoder.replacement] := by
  have hmark : ¬(!d.begun && TextDecoder.replacement = TextDecoder.byteOrderMark) = true := by
    simp [TextDecoder.replacement, TextDecoder.byteOrderMark]
  unfold TextDecoder.flush
  split_ifs
  · exact .inl rfl
  · right
    rw [TextDecoder.put, if_neg hmark]

theorem readText_eased (d : TextDecoder) (chunks : List (List Byte)) :
    Text.Eased (decodeAll d chunks.flatten) (readText d chunks) := by
  induction chunks generalizing d with
  | nil =>
    obtain h | h := flush_cases d
    · rw [decodeAll, readText, List.flatten_nil, TextDecoder.feed, h]
      exact .nil
    · rw [decodeAll, readText, List.flatten_nil, TextDecoder.feed, h]
      exact .char (fun hcut => replacement_ne_cr hcut.1) .nil
  | cons value chunks ih =>
    have hall : decodeAll d (value ++ chunks.flatten) =
        (d.feed value).2 ++ decodeAll (d.feed value).1 chunks.flatten := by
      rw [decodeAll, TextDecoder.feed_append, List.append_assoc]
      rfl
    rw [List.flatten_cons, hall, readText]
    exact (ih _).unix_append _

theorem readText_bytes (d : TextDecoder) (bytes : List Byte) :
    readText d (bytes.map fun b => [b]) = decodeAll d bytes := by
  induction bytes generalizing d with
  | nil => rfl
  | cons b bytes ih =>
    have hunix : (d.step b).2.unix = (d.step b).2 := by
      obtain h | ⟨c, h⟩ | ⟨c, h⟩ := d.step_cases b
      · rw [h]
        rfl
      · rw [h]
        rfl
      · rw [h, Text.unix, if_neg (fun hcut => replacement_ne_cr hcut.1)]
        rfl
    rw [List.map_cons, readText, TextDecoder.feed_singleton, hunix, ih, decodeAll, decodeAll, TextDecoder.feed,
      List.append_assoc]

theorem readText_whole (d : TextDecoder) (bytes : List Byte) :
    readText d [bytes] = (decodeAll d bytes).unix := by
  rw [readText, readText, decodeAll]
  obtain h | h := flush_cases (d.feed bytes).1
  · rw [h, List.append_nil, List.append_nil]
  · rw [h, Text.unix_concat replacement_ne_lf]

/-! ## What is said -/

/-- The data in the lines before the last one of a kind, up to `[DONE]`. -/
def heard (p : Text → Bool) (ls : List Text) : List Text :=
  ((ls.take (Text.lastLine p ls)).filterMap dataOf).takeWhile (· ≠ doneData)

theorem dataOf_cr (l : Text) : dataOf (l ++ [Text.cr]) = dataOf l := by
  have htrim : ∀ l : Text, trimSpaces (l ++ [Text.cr]) = trimSpaces l := by
    intro l
    have hcr : isSpace Text.cr = true := by decide
    rw [trimSpaces, trimSpaces, List.dropWhile_append]
    cases hall : (l.dropWhile isSpace).isEmpty with
    | true =>
      rw [List.isEmpty_iff] at hall
      rw [if_pos rfl, hall, List.dropWhile_cons_of_pos hcr]
      rfl
    | false =>
      rw [if_neg Bool.false_ne_true, List.reverse_append, List.reverse_singleton, List.singleton_append,
        List.dropWhile_cons_of_pos hcr]
  have hstarts : ∀ l : Text, (Text.lit "data:").isPrefixOf l = true ↔ Text.lit "data:" <+: l :=
    fun _ => List.isPrefixOf_iff_prefix
  by_cases h : Text.lit "data:" <+: l
  · have hlength : 5 ≤ l.length := h.length_le
    rw [dataOf, dataOf, if_pos ((hstarts l).2 h), if_pos ((hstarts _).2 (h.trans (List.prefix_append l _))),
      List.drop_append_of_le_length hlength, htrim]
  · have hlonger : ¬Text.lit "data:" <+: l ++ [Text.cr] := by
      rw [List.prefix_concat_iff]
      rintro (heq | hp)
      · exact absurd (congrArg List.getLast? heq) (by rw [List.getLast?_concat]; decide)
      · exact h hp
    rw [dataOf, dataOf, if_neg (mt (hstarts l).1 h), if_neg (mt (hstarts _).1 hlonger)]

theorem said_eventLines (t : Text) :
    (readLines F (eventLines t)).1 = (heard (fun l => l = []) t.lines).flatMap (handleStreamData F) := by
  rw [readLines_fst, eventLines, Text.filterMap_blocks dataOf rfl]
  rfl

theorem takeWhile_prefix {β : Type*} {p : β → Bool} {a b : List β} (h : a <+: b) :
    a.takeWhile p <+: b.takeWhile p := by
  obtain ⟨rest, rfl⟩ := h
  induction a with
  | nil => exact List.nil_prefix
  | cons x a ih =>
    cases hx : p x with
    | true =>
      rw [List.cons_append, List.takeWhile_cons_of_pos hx, List.takeWhile_cons_of_pos hx]
      exact List.cons_prefix_cons.2 ⟨rfl, ih⟩
    | false =>
      rw [List.takeWhile_cons_of_neg (by simp [hx])]
      exact List.nil_prefix

theorem heard_eased {as bs : List Text} (h : Text.LinesEased as bs) {p q : Text → Bool}
    (hlast : Text.lastLine p as = Text.lastLine q bs) : heard p as = heard q bs := by
  rw [heard, heard, hlast, h.filterMap_take dataOf_cr]

def isEmpty (l : Text) : Bool := l = []

/-- Empty, or a CR. -/
def isBlank (l : Text) : Bool := Text.easeLine l = []

/-- **A reader hears** at least what stands before the last empty line, and at most what stands before the last one
    that has no more than a CR. -/
theorem said_between (chunks : List (List Byte)) : ∃ data,
    (readLines F (eventLines (readText .initial chunks))).1 = data.flatMap (handleStreamData F) ∧
    heard isEmpty (decodeAll .initial chunks.flatten).lines <+: data ∧
    data <+: heard isBlank (decodeAll .initial chunks.flatten).lines := by
  have heased := (readText_eased .initial chunks).lines
  obtain ⟨hlow, hhigh⟩ := heased.le_lastLine
  refine ⟨heard isEmpty (readText .initial chunks).lines, said_eventLines _, ?_, ?_⟩
  · refine takeWhile_prefix ?_
    rw [← heased.filterMap_take dataOf_cr]
    exact (List.take_prefix_take_left hlow).filterMap dataOf
  · refine takeWhile_prefix ?_
    rw [← heased.filterMap_take dataOf_cr]
    exact (List.take_prefix_take_left hhigh).filterMap dataOf

theorem said_bytes (bytes : List Byte) :
    (readLines F (eventLines (readText .initial (bytes.map fun b => [b])))).1 =
      (heard isEmpty (decodeAll .initial bytes).lines).flatMap (handleStreamData F) := by
  rw [said_eventLines, readText_bytes]
  rfl

theorem said_whole (bytes : List Byte) :
    (readLines F (eventLines (readText .initial [bytes]))).1 =
      (heard isBlank (decodeAll .initial bytes).lines).flatMap (handleStreamData F) := by
  have heased := (readText_eased .initial [bytes]).lines
  rw [List.flatten_singleton] at heased
  have hlast : Text.lastLine isBlank (decodeAll .initial bytes).lines =
      Text.lastLine isEmpty (readText .initial [bytes]).lines := by
    rw [readText_whole]
    exact (Text.lastLine_unix _).symm
  rw [said_eventLines, heard_eased heased hlast]
  rfl

end

/-- Data of which the panel is told nothing. -/
def Silent (F : Json.FloatText) (raw : Text) : Prop :=
  ∀ data, parseJson F raw = some data →
    (∀ content, contentOf data = some (.str content) → content = []) ∧ activityLabel (toolNameOf data) = none

theorem handleStreamData_eq_nil {F : Json.FloatText} {raw : Text} : handleStreamData F raw = [] ↔ Silent F raw := by
  have hsay : ∀ content : Option Json, sayContent content = [] ↔ ∀ c, content = some (.str c) → c = [] := by
    intro content
    constructor
    · rintro h c rfl
      by_contra hne
      rw [sayContent, if_neg hne] at h
      cases h
    · intro h
      unfold sayContent
      split
      · rw [if_pos (h _ rfl)]
      · rfl
  unfold handleStreamData Silent
  cases parseJson F raw with
  | none => exact ⟨by rintro - data ⟨⟩, fun _ => rfl⟩
  | some data =>
    dsimp only
    rw [List.append_eq_nil_iff, hsay, Option.toList_eq_nil_iff, Option.map_eq_none_iff]
    exact ⟨by rintro h data ⟨⟩; exact h, fun h => h data rfl⟩

/-- Is nothing said between the last empty line and the last one that has a CR? -/
def NothingLate (F : Json.FloatText) (bytes : List Byte) : Prop :=
  ∀ raw ∈ (heard isBlank (decodeAll .initial bytes).lines).drop (heard isEmpty (decodeAll .initial bytes).lines).length,
    Silent F raw

/-- **Up to what is heard late**, all readers say the same, if nothing is said of it. -/
theorem said_of_nothingLate {F : Json.FloatText} {bytes : List Byte} (h : NothingLate F bytes)
    {chunks : List (List Byte)} (hbytes : chunks.flatten = bytes) :
    (readLines F (eventLines (readText .initial chunks))).1 =
      (heard isEmpty (decodeAll .initial bytes).lines).flatMap (handleStreamData F) := by
  obtain ⟨data, hsaid, hlow, hhigh⟩ := said_between (F := F) chunks
  rw [hbytes] at hlow hhigh
  have hdata := List.prefix_iff_eq_append.1 hlow
  have hlate : ((data.drop (heard isEmpty (decodeAll .initial bytes).lines).length).flatMap (handleStreamData F)) = [] := by
    rw [List.flatMap_eq_nil_iff]
    intro raw hraw
    exact handleStreamData_eq_nil.2 (h raw ((hhigh.drop _).subset hraw))
  rw [hsaid, ← hdata, List.flatMap_append, hlate, List.append_nil]

/-- **The panel is sent the same, however the body is cut, exactly if nothing is said late.** -/
theorem streamChat_chunks_iff {F : Json.FloatText} {maxResponseBytes : ℕ} {requestId chatId : Text}
    {ok : Bool} {status : ℕ} {contentType : Text} {bytes : List Byte} (hsize : bytes.length ≤ maxStreamBytes) :
    (∀ chunks chunks' : List (List Byte), chunks.flatten = bytes → chunks'.flatten = bytes →
      streamChat F maxResponseBytes requestId chatId ⟨ok, status, contentType, some chunks⟩ =
        streamChat F maxResponseBytes requestId chatId ⟨ok, status, contentType, some chunks'⟩) ↔
    (validRequestId requestId → ok → ¬Text.lit "application/json" <:+: contentType → NothingLate F bytes) := by
  have hstream : validRequestId requestId = true → ok = true → ¬Text.lit "application/json" <:+: contentType →
      ∀ chunks : List (List Byte), chunks.flatten = bytes →
      streamChat F maxResponseBytes requestId chatId ⟨ok, status, contentType, some chunks⟩ =
        finish chatId ((readLines F (eventLines (readText .initial chunks))).1, none) := by
    rintro hid hok htype chunks rfl
    have hread : readStream F .initial [] 0 chunks = ((readLines F (eventLines ([] ++ readText .initial chunks))).1, none) :=
      readStream_eq (by omega)
    rw [streamChat, if_neg (by simp [hid]), if_neg (by simp [hok])]
    dsimp only
    rw [if_neg htype, hread, List.nil_append]
  constructor
  · intro hsame hid hok htype raw hraw
    have hflat : (bytes.map fun b => [b]).flatten = bytes := by
      rw [← List.flatMap_def, List.flatMap_singleton']
    have heq := hsame (bytes.map fun b => [b]) [bytes] hflat List.flatten_singleton
    rw [hstream hid hok htype _ hflat, hstream hid hok htype _ List.flatten_singleton, said_bytes, said_whole] at heq
    -- what is heard late is said in one chunk only
    have hbetween := said_between (F := F) [bytes]
    rw [List.flatten_singleton] at hbetween
    obtain ⟨data, -, hlow, hhigh⟩ := hbetween
    have hmore := List.prefix_iff_eq_append.1 (hlow.trans hhigh)
    have hsays := List.append_cancel_right (Prod.mk.inj heq).1
    rw [← hmore, List.flatMap_append] at hsays
    exact handleStreamData_eq_nil.1 (List.flatMap_eq_nil_iff.1 (List.self_eq_append_right.1 hsays) raw hraw)
  · intro hlate chunks chunks' hchunks hchunks'
    by_cases hid : validRequestId requestId = true
    · by_cases hok : ok = true
      · by_cases htype : Text.lit "application/json" <:+: contentType
        · rw [streamChat, streamChat]
          dsimp only
          rw [if_pos htype, if_pos htype, hchunks, hchunks']
        · have hnothing := hlate hid hok htype
          rw [hstream hid hok htype chunks hchunks, hstream hid hok htype chunks' hchunks',
            said_of_nothingLate hnothing hchunks, said_of_nothingLate hnothing hchunks']
      · rw [streamChat, streamChat]
        simp only [Bool.not_eq_true] at hok
        simp [hok]
    · rw [streamChat, streamChat]
      simp [hid]

def Sample.noFloats : Json.FloatText := ⟨fun _ => [], fun _ => 0⟩

def Sample.greeting (ending : String) : List Byte :=
  ((Text.lit "data: \x7b\"choices\":[\x7b\"delta\":\x7b\"content\":\"Hi\"\x7d\x7d]\x7d" ++ .lit ending ++ .lit ending).utf8).getD []

theorem streamChat_chunks_sample : (Sample.greeting "\n").length ≤ maxStreamBytes ∧
    ∀ chunks chunks' : List (List Byte), chunks.flatten = Sample.greeting "\n" → chunks'.flatten = Sample.greeting "\n" →
      streamChat Sample.noFloats 1000 (.lit "r-1") [] ⟨true, 200, .lit "text/event-stream", some chunks⟩ =
        streamChat Sample.noFloats 1000 (.lit "r-1") [] ⟨true, 200, .lit "text/event-stream", some chunks'⟩ := by
  have hsize : (Sample.greeting "\n").length ≤ maxStreamBytes := by decide +kernel
  have hsame : (heard isBlank (decodeAll .initial (Sample.greeting "\n")).lines).drop
      (heard isEmpty (decodeAll .initial (Sample.greeting "\n")).lines).length = [] := by decide +kernel
  refine ⟨hsize, (streamChat_chunks_iff hsize).2 ?_⟩
  intro _ _ _ raw hraw
  rw [hsame] at hraw
  cases hraw

/-- **A chunk ends between the CR and the LF of the last line.** -/
theorem not_streamChat_chunks : ¬∀ (F : Json.FloatText) (maxResponseBytes : ℕ) (requestId chatId contentType t : Text)
    (ok : Bool) (status : ℕ) (bytes : List Byte) (chunks chunks' : List (List Byte)), t.utf8 = some bytes →
    bytes.length ≤ maxStreamBytes → chunks.flatten = bytes → chunks'.flatten = bytes →
    streamChat F maxResponseBytes requestId chatId ⟨ok, status, contentType, some chunks⟩ =
      streamChat F maxResponseBytes requestId chatId ⟨ok, status, contentType, some chunks'⟩ := by
  intro h
  have hsame := h Sample.noFloats 1000 (.lit "r-1") [] (.lit "text/event-stream")
    (Text.lit "data: \x7b\"choices\":[\x7b\"delta\":\x7b\"content\":\"Hi\"\x7d\x7d]\x7d\r\n\r\n") true 200 (Sample.greeting "\r\n")
    [Sample.greeting "\r\n"] [(Sample.greeting "\r\n").dropLast, [byte 10]]
    (by decide +kernel) (by decide +kernel) (by decide +kernel) (by decide +kernel)
  have hwhole : streamChat Sample.noFloats 1000 (.lit "r-1") []
      ⟨true, 200, .lit "text/event-stream", some [Sample.greeting "\r\n"]⟩ = ([.delta (.lit "Hi"), .done none], none) := by
    decide +kernel
  have hcut : streamChat Sample.noFloats 1000 (.lit "r-1") []
      ⟨true, 200, .lit "text/event-stream", some [(Sample.greeting "\r\n").dropLast, [byte 10]]⟩ =
        ([.done none], none) := by
    decide +kernel
  rw [hwhole, hcut] at hsame
  cases hsame

end ChatStream

end TideBot
