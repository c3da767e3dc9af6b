/-
  The names of downloads (`browser-extension/src/background/downloads.ts`, `sanitizeDownloadFilename`).

  A string is the list of its UTF-16 code units.  The dots at the ends of a name are taken off before its white space,
  and the name is cut last: so a dot can stand at an end after all, or a blank, and then the name is not the same when
  it is cleaned again (`sanitizeDownloadFilename_safe_iff` says when).
-/
import TideBot.Extension.Dom
import TideBot.Lib.Lines
import TideBot.Lib.Stripping

namespace TideBot

open Lib

/-- A UTF-16 code unit. -/
abbrev CodeUnit := Fin 0x10000

namespace CodeUnit

/-- An ASCII character. -/
def ofChar (c : Char) : CodeUnit := Fin.ofNat _ c.toNat

def lit (s : String) : List CodeUnit := s.toList.map ofChar

/-- `/` or `\`. -/
def isSeparator (c : CodeUnit) : Bool := c = ofChar '/' || c = ofChar '\\'

def isDot (c : CodeUnit) : Bool := c = ofChar '.'

/-- What `trim` takes off. -/
def isTrimmed (c : CodeUnit) : Bool := isSpace (c.castLE (by decide))

/-- `[<>:"/\\|?*\u0000-\u001f\u007f]` -/
def isReserved (c : CodeUnit) : Bool := (lit "<>:\"/\\|?*").contains c || c.val ≤ 0x1F || c.val = 0x7F

/-- What stands for a unit in a name. -/
def clean (c : CodeUnit) : CodeUnit := if c.isReserved then ofChar '_' else c

end CodeUnit

open CodeUnit

/-- `value.replaceAll('\\', '/').split('/').pop()` -/
def basename (value : List CodeUnit) : List CodeUnit :=
  remainder (ofChar '/') (value.map fun c => if c = ofChar '\\' then ofChar '/' else c)

/-- `'tide-bot-download'` -/
def defaultName : List CodeUnit := lit "tide-bot-download"

/-- `sanitizeDownloadFilename` -/
def sanitizeDownloadFilename (value : List CodeUnit) : List CodeUnit :=
  let safe := (stripEnds isTrimmed (stripEnds isDot ((basename value).map clean))).take 120
  if safe = [] then defaultName else safe

/-! ## What a safe name is -/

/-- The control characters of ASCII, which the pattern has. -/
def asciiControl (c : CodeUnit) : Bool := c.val ≤ 0x1F || c.val = 0x7F

/-- Those of Unicode from 80 on. -/
def laterControl (c : CodeUnit) : Bool := 0x80 ≤ c.val && c.val ≤ 0x9F

/-- A name that neither begins nor ends with a dot or white space, without separators, reserved characters and
    control characters, and that is the same when it is cleaned again. -/
structure SafeName (control : CodeUnit → Bool) (name : List CodeUnit) : Prop where
  nonempty : name ≠ []
  short : name.length ≤ 120
  chars : ∀ c ∈ name, isSeparator c = false ∧ control c = false ∧ c ∉ lit "<>:\"|?*"
  first : ∀ c ∈ name.head?, isDot c = false ∧ isTrimmed c = false
  last : ∀ c ∈ name.getLast?, isDot c = false ∧ isTrimmed c = false
  stable : sanitizeDownloadFilename name = name

/-- White space that is not replaced. -/
def isBlank (c : CodeUnit) : Bool := isTrimmed c && !isReserved c

/-- The value is a directory and a name, and the name is the core with blanks around it and dots around these. -/
structure HasCore (value directory dots blanks core blanks' dots' : List CodeUnit) : Prop where
  eq : value = directory ++ (dots ++ (blanks ++ (core ++ blanks') ++ dots'))
  directory : ∀ c ∈ directory.getLast?, isSeparator c
  name : ∀ c ∈ dots ++ (blanks ++ (core ++ blanks') ++ dots'), isSeparator c = false
  dots : ∀ c ∈ dots ++ dots', isDot c
  blanks : ∀ c ∈ blanks ++ blanks', isBlank c

/-- The core begins with neither a dot nor a blank, and what is left of it at 120 units ends with neither. -/
structure CleanEnds (core : List CodeUnit) : Prop where
  first : ∀ c ∈ core.head?, isDot c = false ∧ isBlank c = false
  last : ∀ c ∈ (core.take 120).getLast?, isDot c = false ∧ isBlank c = false

/-! ## The steps -/

section
variable {value name core directory dots blanks blanks' dots' : List CodeUnit} {control : CodeUnit → Bool}

theorem isDot_clean (c : CodeUnit) : isDot (clean c) = isDot c := by
  rw [clean]
  split_ifs with h
  · have hdot : isReserved (ofChar '.') = false := by decide
    have hne : c ≠ ofChar '.' := by
      rintro rfl
      rw [hdot] at h
      cases h
    have hfalse : isDot c = false := decide_eq_false hne
    rw [hfalse]
    decide
  · rfl

theorem isTrimmed_clean (c : CodeUnit) : isTrimmed (clean c) = isBlank c := by
  rw [clean, isBlank]
  split_ifs with h
  · rw [h, Bool.not_true, Bool.and_false]
    decide
  · rw [Bool.eq_false_iff.2 h, Bool.not_false, Bool.and_true]

theorem isReserved_of_isSeparator {c : CodeUnit} (h : isSeparator c) : isReserved c := by
  rw [isSeparator, Bool.or_eq_true, decide_eq_true_eq, decide_eq_true_eq] at h
  obtain rfl | rfl := h <;> decide

theorem isReserved_clean (c : CodeUnit) : isReserved (clean c) = false := by
  rw [clean]
  split_ifs with h
  · decide
  · exact Bool.eq_false_iff.2 h

theorem clean_of_not_isReserved {c : CodeUnit} (h : isReserved c = false) : clean c = c := by
  rw [clean, h]
  rfl

theorem basename_append (hdirectory : ∀ c ∈ directory.getLast?, isSeparator c)
    (hname : ∀ c ∈ name, isSeparator c = false) : basename (directory ++ name) = name := by
  have hsame : name.map (fun c => if c = ofChar '\\' then ofChar '/' else c) = name := by
    refine (List.map_congr_left fun c hc => if_neg ?_).trans (List.map_id name)
    rintro rfl
    cases hname _ hc
  rw [basename, List.map_append, hsame]
  refine remainder_of_append ?_ fun hmem => by cases hname _ hmem
  rw [List.getLast?_map]
  rintro a ha
  obtain ⟨c, hc, rfl⟩ := Option.map_eq_some_iff.1 ha
  have hsep := hdirectory c hc
  rw [isSeparator, Bool.or_eq_true, decide_eq_true_eq, decide_eq_true_eq] at hsep
  obtain rfl | rfl := hsep
  · rfl
  · exact if_pos rfl

theorem basename_spec (value : List CodeUnit) :
    ∃ directory, value = directory ++ basename value ∧ (∀ c ∈ directory.getLast?, isSeparator c) ∧
      ∀ c ∈ basename value, isSeparator c = false := by
  obtain ⟨pre, heq, hpre⟩ : ∃ pre, (value.map fun c => if c = ofChar '\\' then ofChar '/' else c) =
      pre ++ basename value ∧ ∀ c ∈ pre.getLast?, c = ofChar '/' := remainder_spec _
  have hslash : ofChar '/' ∉ basename value := notMem_remainder _
  obtain ⟨directory, name, rfl, rfl, hname⟩ := List.map_eq_append_iff.1 heq
  rw [← hname] at hslash
  have hnone : ∀ c ∈ name, isSeparator c = false := by
    intro c hc
    rw [Bool.eq_false_iff]
    intro hsep
    refine hslash (List.mem_map.2 ⟨c, hc, ?_⟩)
    rw [isSeparator, Bool.or_eq_true, decide_eq_true_eq, decide_eq_true_eq] at hsep
    obtain rfl | rfl := hsep <;> decide
  have hdirectory : ∀ c ∈ directory.getLast?, isSeparator c := by
    intro c hc
    have hlast := hpre (if c = ofChar '\\' then ofChar '/' else c) (by rw [List.getLast?_map, hc]; rfl)
    split_ifs at hlast with hback
    · rw [hback]
      decide
    · rw [hlast]
      decide
  rw [basename_append hdirectory hnone]
  exact ⟨directory, rfl, hdirectory, hnone⟩

/-- What is left of the base name. -/
def coreOf (value : List CodeUnit) : List CodeUnit := stripEnds isBlank (stripEnds isDot (basename value))

theorem sanitizeDownloadFilename_eq (value : List CodeUnit) :
    sanitizeDownloadFilename value =
      if (coreOf value).take 120 = [] then defaultName else ((coreOf value).take 120).map clean := by
  have hdots : isDot ∘ clean = isDot := funext isDot_clean
  have hspaces : isTrimmed ∘ clean = isBlank := funext isTrimmed_clean
  rw [sanitizeDownloadFilename]
  simp only [stripEnds_map, hdots, hspaces, ← List.map_take, List.map_eq_nil_iff]
  rfl

theorem coreOf_hasCore (value : List CodeUnit) :
    ∃ directory dots blanks blanks' dots', HasCore value directory dots blanks (coreOf value) blanks' dots' := by
  obtain ⟨directory, hvalue, hdirectory, hname⟩ := basename_spec value
  obtain ⟨⟨dots, dots', hdots, hpre, hpost⟩, -, -⟩ := stripEnds_spec isDot (basename value)
  obtain ⟨⟨blanks, blanks', hblanks, hpre', hpost'⟩, -, -⟩ :=
    stripEnds_spec isBlank (stripEnds isDot (basename value))
  rw [← coreOf] at hblanks
  rw [hblanks] at hdots
  refine ⟨directory, dots, blanks, blanks', dots', ?_, hdirectory, ?_, ?_, ?_⟩
  · rw [← hdots]
    exact hvalue
  · rw [← hdots]
    exact hname
  · exact List.forall_mem_append.2 ⟨hpre, hpost⟩
  · exact List.forall_mem_append.2 ⟨hpre', hpost'⟩

theorem HasCore.basename_eq (h : HasCore value directory dots blanks core blanks' dots') :
    basename value = dots ++ (blanks ++ (core ++ blanks') ++ dots') := by
  rw [h.eq]
  exact basename_append h.directory h.name

theorem isDot_of_isBlank {c : CodeUnit} (h : isBlank c) : isDot c = false := by
  rw [Bool.eq_false_iff]
  intro hdot
  obtain rfl : c = ofChar '.' := of_decide_eq_true hdot
  revert h
  decide

/-- However a value is taken apart, the first 120 units of its core are those that are left. -/
theorem HasCore.take_eq (h : HasCore value directory dots blanks core blanks' dots') (hends : CleanEnds core) :
    (coreOf value).take 120 = core.take 120 := by
  obtain ⟨hdots, hdots'⟩ := List.forall_mem_append.1 h.dots
  obtain ⟨hblanks, hblanks'⟩ := List.forall_mem_append.1 h.blanks
  have hnodot : ∀ l : List CodeUnit, (∀ c ∈ l, isBlank c) → (l ++ dots').rdropWhile isDot = l := by
    intro l hl
    have hlast : ∀ c ∈ l.getLast?, isDot c = false := fun c hc => isDot_of_isBlank (hl c (List.mem_of_getLast? hc))
    rw [rdropWhile_append hlast, List.rdropWhile_eq_nil_iff.2 hdots', List.append_nil]
  rw [coreOf, h.basename_eq]
  by_cases hcore : core = []
  · -- only blanks between the dots
    rw [hcore, List.nil_append]
    have hall : ∀ c ∈ blanks ++ blanks', isBlank c := h.blanks
    have hfirst : ∀ c ∈ (blanks ++ blanks').head?, isDot c = false :=
      fun c hc => isDot_of_isBlank (hall c (List.mem_of_head? hc))
    have hnone : stripEnds isDot (dots ++ (blanks ++ blanks' ++ dots')) = blanks ++ blanks' := by
      by_cases hempty : blanks ++ blanks' = []
      · rw [hempty, List.nil_append]
        exact stripEnds_eq_nil h.dots
      · have hlast : ∀ c ∈ (blanks ++ blanks').getLast?, isDot c = false :=
          fun c hc => isDot_of_isBlank (hall c (List.mem_of_getLast? hc))
        rw [stripEnds_append hdots hempty hfirst hlast, List.rdropWhile_eq_nil_iff.2 hdots', List.append_nil]
    rw [hnone, stripEnds_eq_nil hall]
  · -- the first 120 units stay, and behind them something only if there are so many
    have hkept : core.take 120 ≠ [] := by simpa using hcore
    have hhead : (core.take 120).head? = core.head? := by rw [List.head?_take, if_neg (by decide)]
    obtain ⟨rest, hrest⟩ : ∃ rest, core = core.take 120 ++ rest := ⟨_, (List.take_append_drop 120 core).symm⟩
    have hfirst : ∀ c ∈ (blanks ++ core.take 120).head?, isDot c = false := by
      intro c hc
      rw [List.head?_append] at hc
      cases hb : blanks.head? with
      | none =>
        rw [hb, Option.none_or, hhead] at hc
        exact (hends.first c hc).1
      | some b =>
        rw [hb, Option.some_or] at hc
        obtain rfl := Option.some.inj hc
        exact isDot_of_isBlank (hblanks _ (List.mem_of_head? hb))
    have hlast : ∀ c ∈ (blanks ++ core.take 120).getLast?, isDot c = false := by
      intro c hc
      rw [List.getLast?_append_of_ne_nil _ hkept] at hc
      exact (hends.last c hc).1
    have hdot : stripEnds isDot (dots ++ (blanks ++ (core ++ blanks') ++ dots')) =
        blanks ++ core.take 120 ++ (rest ++ (blanks' ++ dots')).rdropWhile isDot := by
      have hshape : blanks ++ (core ++ blanks') ++ dots' = blanks ++ core.take 120 ++ (rest ++ (blanks' ++ dots')) := by
        conv_lhs => rw [hrest]
        simp only [List.append_assoc]
      rw [hshape]
      exact stripEnds_append hdots (by simp [hkept]) hfirst hlast
    rw [hdot, List.append_assoc]
    rw [stripEnds_append hblanks hkept (fun c hc => (hends.first c (hhead ▸ hc)).2) fun c hc => (hends.last c hc).2]
    by_cases hnil : rest = []
    · rw [hnil, List.nil_append, hnodot blanks' hblanks', List.rdropWhile_eq_nil_iff.2 hblanks', List.append_nil,
        List.take_take, min_self]
    · have hlong : (core.take 120).length = 120 := by
        have hlength := congrArg List.length hrest
        have hpos := List.length_pos_iff.2 hnil
        rw [List.length_append, List.length_take] at hlength
        rw [List.length_take]
        omega
      rw [List.take_append_of_le_length (by omega), List.take_of_length_le (by omega)]

/-- A short name with clean ends and without reserved characters is the same when it is cleaned. -/
theorem sanitizeDownloadFilename_eq_self (hne : name ≠ []) (hshort : name.length ≤ 120)
    (hchars : ∀ c ∈ name, isReserved c = false) (hfirst : ∀ c ∈ name.head?, isDot c = false ∧ isTrimmed c = false)
    (hlast : ∀ c ∈ name.getLast?, isDot c = false ∧ isTrimmed c = false) : sanitizeDownloadFilename name = name := by
  have hseparator : ∀ c ∈ name, isSeparator c = false := by
    intro c hc
    rw [Bool.eq_false_iff]
    intro hsep
    have hreserved := isReserved_of_isSeparator hsep
    rw [hchars c hc] at hreserved
    cases hreserved
  have hbasename : basename ([] ++ name) = name := basename_append (fun c hc => by cases hc) hseparator
  rw [List.nil_append] at hbasename
  have hclean : name.map clean = name :=
    (List.map_congr_left fun c hc => clean_of_not_isReserved (hchars c hc)).trans (List.map_id name)
  rw [sanitizeDownloadFilename, hbasename, hclean,
    stripEnds_eq_self (fun c hc => (hfirst c hc).1) fun c hc => (hlast c hc).1,
    stripEnds_eq_self (fun c hc => (hfirst c hc).2) fun c hc => (hlast c hc).2, List.take_of_length_le hshort]
  exact if_neg hne

theorem isReserved_eq_false_iff {c : CodeUnit} :
    isReserved c = false ↔ isSeparator c = false ∧ asciiControl c = false ∧ c ∉ lit "<>:\"|?*" := by
  have hclass : lit "<>:\"/\\|?*" = [ofChar '<', ofChar '>', ofChar ':', ofChar '"', ofChar '/', ofChar '\\',
    ofChar '|', ofChar '?', ofChar '*'] := rfl
  have hothers : lit "<>:\"|?*" = [ofChar '<', ofChar '>', ofChar ':', ofChar '"', ofChar '|', ofChar '?',
    ofChar '*'] := rfl
  have hmem : c ∈ lit "<>:\"/\\|?*" ↔ isSeparator c ∨ c ∈ lit "<>:\"|?*" := by
    rw [hclass, hothers, isSeparator, Bool.or_eq_true, decide_eq_true_eq, decide_eq_true_eq]
    simp only [List.mem_cons, List.not_mem_nil, or_false]
    tauto
  rw [isReserved, Bool.or_assoc, Bool.or_eq_false_iff, ← asciiControl, Bool.eq_false_iff, Ne, List.contains_iff_mem,
    hmem, not_or, Bool.not_eq_true]
  tauto

theorem SafeName.of_chars (hne : name ≠ []) (hshort : name.length ≤ 120)
    (hchars : ∀ c ∈ name, isReserved c = false ∧ control c = false)
    (hfirst : ∀ c ∈ name.head?, isDot c = false ∧ isTrimmed c = false)
    (hlast : ∀ c ∈ name.getLast?, isDot c = false ∧ isTrimmed c = false) : SafeName control name where
  nonempty := hne
  short := hshort
  chars c hc := by
    obtain ⟨hreserved, hcontrol⟩ := hchars c hc
    obtain ⟨hseparator, -, hnone⟩ := isReserved_eq_false_iff.1 hreserved
    exact ⟨hseparator, hcontrol, hnone⟩
  first := hfirst
  last := hlast
  stable := sanitizeDownloadFilename_eq_self hne hshort (fun c hc => (hchars c hc).1) hfirst hlast

theorem defaultName_safe (hcontrol : ∀ c ∈ defaultName, control c = false) : SafeName control defaultName := by
  have hall : (defaultName.all fun c => !isReserved c) = true := by decide +kernel
  have hreserved : ∀ c ∈ defaultName, isReserved c = false :=
    fun c hc => by simpa using List.all_eq_true.1 hall c hc
  refine .of_chars (by decide) (by decide) (fun c hc => ⟨hreserved c hc, hcontrol c hc⟩) ?_ ?_
  · rintro c ⟨⟩
    decide
  · rintro c ⟨⟩
    decide

/-- **When the cleaned name is safe**, said of what is left of the base name. -/
theorem safeName_iff (hdefault : ∀ c ∈ defaultName, control c = false) :
    SafeName control (sanitizeDownloadFilename value) ↔
      CleanEnds (coreOf value) ∧ ∀ c ∈ (coreOf value).take 120, control (clean c) = false := by
  rw [sanitizeDownloadFilename_eq]
  split_ifs with hnil
  · -- nothing is left
    have hcore : coreOf value = [] := by simpa using hnil
    rw [hcore]
    exact ⟨fun _ => ⟨⟨by simp, by simp⟩, by simp⟩, fun _ => defaultName_safe hdefault⟩
  · have hhead : ((coreOf value).take 120).head? = (coreOf value).head? := by
      rw [List.head?_take, if_neg (by decide)]
    constructor
    · intro h
      refine ⟨⟨fun c hc => ?_, fun c hc => ?_⟩, fun c hc => (h.chars _ (List.mem_map_of_mem hc)).2.1⟩
      · have hends := h.first (clean c) (by rw [List.head?_map, hhead, hc]; rfl)
        rwa [isDot_clean, isTrimmed_clean] at hends
      · have hends := h.last (clean c) (by rw [List.getLast?_map, hc]; rfl)
        rwa [isDot_clean, isTrimmed_clean] at hends
    · rintro ⟨hends, hcontrol⟩
      refine .of_chars (by simpa using hnil) (by simp) ?_ ?_ ?_
      · exact List.forall_mem_map.2 fun c hc => ⟨isReserved_clean c, hcontrol c hc⟩
      · rw [List.head?_map, hhead]
        rintro a ha
        obtain ⟨c, hc, rfl⟩ := Option.map_eq_some_iff.1 ha
        rw [isDot_clean, isTrimmed_clean]
        exact hends.first c hc
      · rw [List.getLast?_map]
        rintro a ha
        obtain ⟨c, hc, rfl⟩ := Option.map_eq_some_iff.1 ha
        rw [isDot_clean, isTrimmed_clean]
        exact hends.last c hc

theorem asciiControl_clean (c : CodeUnit) : asciiControl (clean c) = false :=
  (isReserved_eq_false_iff.1 (isReserved_clean c)).2.1

theorem laterControl_clean (c : CodeUnit) : laterControl (clean c) = laterControl c := by
  rw [clean]
  split_ifs with h
  · -- what is replaced is an ASCII character
    have hascii : c.val ≤ 0x7F := by
      rw [isReserved, Bool.or_eq_true, Bool.or_eq_true, List.contains_iff_mem, decide_eq_true_eq,
        decide_eq_true_eq] at h
      obtain (h | h) | h := h
      · obtain ⟨a, ha, rfl⟩ := List.mem_map.1 h
        have hall : ("<>:\"/\\|?*".toList.all fun a => decide ((ofChar a).val ≤ 0x7F)) = true := by decide +kernel
        simpa using List.all_eq_true.1 hall a ha
      · omega
      · omega
    have hfalse : laterControl c = false := by
      rw [laterControl, Bool.and_eq_false_iff]
      exact .inl (decide_eq_false (by omega))
    rw [hfalse]
    decide
  · rfl

theorem HasCore.cleanEnds (h : HasCore value directory dots blanks core blanks' dots') (hends : CleanEnds core) :
    CleanEnds (coreOf value) := by
  have htake := h.take_eq hends
  have hhead : ∀ l : List CodeUnit, (l.take 120).head? = l.head? := fun l => by
    rw [List.head?_take, if_neg (by decide)]
  refine ⟨?_, htake ▸ hends.last⟩
  rw [← hhead, htake, hhead]
  exact hends.first

/-- **When a cleaned name is safe.**  The value has to have a directory and a name of dots, blanks, a core, blanks and
    dots, where the core begins with neither a dot nor a blank, and has neither for the last of its first 120 units; if
    the control characters from 80 on count as such, there must be none of them in these 120. -/
theorem sanitizeDownloadFilename_safe_iff (value : List CodeUnit) :
    (SafeName asciiControl (sanitizeDownloadFilename value) ↔
      ∃ directory dots blanks core blanks' dots',
        HasCore value directory dots blanks core blanks' dots' ∧ CleanEnds core) ∧
    (SafeName (fun c => asciiControl c || laterControl c) (sanitizeDownloadFilename value) ↔
      ∃ directory dots blanks core blanks' dots',
        HasCore value directory dots blanks core blanks' dots' ∧ CleanEnds core ∧
          ∀ c ∈ core.take 120, laterControl c = false) := by
  have hdefault : (defaultName.all fun c => !(asciiControl c || laterControl c)) = true := by decide +kernel
  have hboth : ∀ c ∈ defaultName, (asciiControl c || laterControl c) = false :=
    fun c hc => by simpa using List.all_eq_true.1 hdefault c hc
  have hascii : ∀ c ∈ defaultName, asciiControl c = false := fun c hc => (Bool.or_eq_false_iff.1 (hboth c hc)).1
  obtain ⟨directory, dots, blanks, blanks', dots', hcore⟩ := coreOf_hasCore value
  rw [safeName_iff hascii, safeName_iff hboth]
  simp only [asciiControl_clean, Bool.false_or, laterControl_clean, implies_true, and_true]
  constructor
  · exact ⟨fun h => ⟨_, _, _, _, _, _, hcore, h⟩, fun ⟨_, _, _, _, _, _, hcore', h⟩ => hcore'.cleanEnds h⟩
  · constructor
    · exact fun h => ⟨_, _, _, _, _, _, hcore, h⟩
    · rintro ⟨_, _, _, _, _, _, hcore', hends, hlater⟩
      exact ⟨hcore'.cleanEnds hends, hcore'.take_eq hends ▸ hlater⟩

end

/-- A dot behind a blank is left, and taken off the second time. -/
theorem sanitizeDownloadFilename_dot :
    ¬∀ value, SafeName asciiControl (sanitizeDownloadFilename value) := by
  intro h
  have hname : sanitizeDownloadFilename (lit " .a") = lit ".a" := by decide +kernel
  have hfirst := (h (lit " .a")).first (ofChar '.') (by rw [hname]; rfl)
  exact absurd hfirst.1 (by decide)

end TideBot
