/-
  Only what the last snapshot showed can be acted on (`content/dom.ts`).

  Handles are never given twice (`handleText_inj`), so that what is exposed is one of the handles for one element.
  A snapshot fits once it has no entries (`size_bare`), so every snapshot fits.

  An observation that raises is not pruned.  What it has registered can be resolved, and found, although no snapshot
  has shown it.  `snapshotShown_iff` says exactly when that happens.
-/
import TideBot.Extension.Observation
import TideBot.Lib.Mapping

namespace TideBot

open Lib

/-! ## Handles -/

/-- A digit, in base 36. -/
def base36Digit (d : ℕ) : CodePoint := .ofChar (Char.ofNat (if d < 10 then 48 + d else 87 + d))

theorem base36Digit_inj : ∀ a < 36, ∀ b < 36, base36Digit a = base36Digit b → a = b := by decide +kernel

theorem base36Digit_ne : ∀ d < 36, base36Digit d ≠ .ofChar '_' := by decide +kernel

theorem map_base36Digit_inj {l l' : List ℕ} (hl : ∀ d ∈ l, d < 36) (hl' : ∀ d ∈ l', d < 36)
    (h : l.map base36Digit = l'.map base36Digit) : l = l' := by
  induction l generalizing l' with
  | nil =>
    rw [List.map_nil, eq_comm, List.map_eq_nil_iff] at h
    exact h.symm
  | cons d l ih =>
    rcases l' with _ | ⟨d', l'⟩
    · cases h
    · obtain ⟨hd, hlt⟩ := List.forall_mem_cons.1 hl
      obtain ⟨hd', hlt'⟩ := List.forall_mem_cons.1 hl'
      obtain ⟨hhead, htail⟩ := List.cons.inj h
      rw [base36Digit_inj d hd d' hd' hhead, ih hlt hlt' htail]

theorem base36_inj {m n : ℕ} : base36 m = base36 n ↔ m = n := by
  refine ⟨fun h => ?_, fun h => h ▸ rfl⟩
  have hlt : ∀ n, ∀ d ∈ (Nat.digits 36 n).reverse, d < 36 := fun n d hd =>
    Nat.digits_lt_base (by omega) (List.mem_reverse.1 hd)
  have hdigits := map_base36Digit_inj (hlt m) (hlt n) h
  exact Nat.digits_inj_iff.1 (List.reverse_injective hdigits)

theorem base36_no_joint (n : ℕ) : ∀ c ∈ base36 n, (decide (c ≠ .ofChar '_')) = true := by
  intro c hc
  obtain ⟨d, hd, rfl⟩ := List.mem_map.1 hc
  exact decide_eq_true (base36Digit_ne d (Nat.digits_lt_base (by omega) (List.mem_reverse.1 hd)))

theorem append_joint_inj {a b x y : Text} (ha : ∀ c ∈ a, decide (c ≠ .ofChar '_') = true)
    (hb : ∀ c ∈ b, decide (c ≠ .ofChar '_') = true) (h : a ++ .lit "_" ++ x = b ++ .lit "_" ++ y) : a = b ∧ x = y := by
  have htake : ∀ {a x : Text}, (∀ c ∈ a, decide (c ≠ .ofChar '_') = true) →
      (a ++ .lit "_" ++ x).takeWhile (fun c => decide (c ≠ .ofChar '_')) = a := by
    intro a x ha
    rw [List.append_assoc, List.takeWhile_append_of_pos ha]
    exact List.append_nil a
  have hab : a = b := by rw [← htake (x := x) ha, h, htake hb]
  subst hab
  exact ⟨rfl, List.append_cancel_left h⟩

/-- **A handle tells the observation, and the place in it.** -/
theorem handleText_inj {r i r' i' : ℕ} {nonce : Text} :
    handleText r i nonce = handleText r' i' nonce ↔ r = r' ∧ i = i' := by
  refine ⟨fun h => ?_, fun h => by rw [h.1, h.2]⟩
  unfold handleText at h
  simp only [List.append_assoc] at h
  have hrest := List.append_cancel_left h
  simp only [← List.append_assoc] at hrest
  have hsplit : ∀ r i, base36 r ++ Text.lit "_" ++ base36 i ++ Text.lit "_" ++ nonce =
      base36 r ++ Text.lit "_" ++ (base36 i ++ Text.lit "_" ++ nonce) := by
    intro r i
    simp only [List.append_assoc]
  rw [hsplit, hsplit] at hrest
  obtain ⟨hr, hi⟩ := append_joint_inj (base36_no_joint r) (base36_no_joint r') hrest
  obtain ⟨hi, -⟩ := append_joint_inj (base36_no_joint i) (base36_no_joint i') hi
  exact ⟨base36_inj.1 hr, base36_inj.1 hi⟩

/-! ## Sizes -/

/-- A value is printed, in so many bytes at most. -/
def PrintedIn (numberText : ℚ → Text) (j : Json) (n : ℕ) : Prop := ∃ m ∈ j.size (Json.jsPrinter numberText), m ≤ n

/-- The fields of an object. -/
def FieldsPrintedIn (numberText : ℚ → Text) (fs : List (Text × Json)) (n : ℕ) : Prop :=
  ∃ m ∈ Json.sizeFields (Json.jsPrinter numberText) fs, m ≤ n

section
variable {numberText : ℚ → Text} {maxBytes : ℕ}

variable (numberText) in
theorem jsChar_le (c : CodePoint) : ∃ n ∈ (Json.jsPrinter numberText).char c, n ≤ 6 := by
  unfold Json.jsPrinter Json.escape
  simp only
  split_ifs
  · exact ⟨2, rfl, by omega⟩
  · exact ⟨2, rfl, by omega⟩
  · exact ⟨6, rfl, by omega⟩
  · exact ⟨6, rfl, by omega⟩
  · exact ⟨6, rfl, by omega⟩
  · refine ⟨c.bytes, rfl, ?_⟩
    unfold CodePoint.bytes
    split_ifs <;> omega

variable (numberText) in
theorem strSize_le (t : Text) : ∃ n ∈ Json.strSize (Json.jsPrinter numberText) t, n ≤ 6 * t.length + 2 := by
  have hsum : ∃ ns, t.mapM (Json.jsPrinter numberText).char = some ns ∧ ns.sum ≤ 6 * t.length := by
    induction t with
    | nil => exact ⟨[], rfl, le_rfl⟩
    | cons c t ih =>
      obtain ⟨n, hn, hle⟩ := jsChar_le numberText c
      obtain ⟨ns, hns, hsum⟩ := ih
      refine ⟨n :: ns, ?_, ?_⟩
      · rw [List.mapM_cons, Option.mem_def.1 hn, hns]
        rfl
      · rw [List.sum_cons, List.length_cons]
        omega
  obtain ⟨ns, hns, hle⟩ := hsum
  refine ⟨ns.sum + 2, ?_, by omega⟩
  rw [Json.strSize, hns]
  rfl

theorem PrintedIn.str {t : Text} {n : ℕ} (h : t.length ≤ n) : PrintedIn numberText (.str t) (6 * n + 2) := by
  obtain ⟨m, hm, hle⟩ := strSize_le numberText t
  refine ⟨m, ?_, by omega⟩
  rw [Json.size]
  exact hm

theorem FieldsPrintedIn.nil : FieldsPrintedIn numberText [] 0 := ⟨0, by rw [Json.sizeFields]; rfl, le_rfl⟩

theorem FieldsPrintedIn.cons {k : Text} {x : Json} {fs : List (Text × Json)} {a b : ℕ} (hk : k.length ≤ 16)
    (hx : PrintedIn numberText x a) (hfs : FieldsPrintedIn numberText fs b) :
    FieldsPrintedIn numberText ((k, x) :: fs) (100 + a + b) := by
  obtain ⟨l, hl, hle⟩ := strSize_le numberText k
  obtain ⟨m, hm, hma⟩ := hx
  obtain ⟨n, hn, hnb⟩ := hfs
  refine ⟨l + 1 + m + 1 + n, ?_, by omega⟩
  rw [Json.sizeFields, Option.mem_def.1 hl, Option.mem_def.1 hm, Option.mem_def.1 hn]
  rfl

theorem PrintedIn.obj {fs : List (Text × Json)} {n : ℕ} (h : FieldsPrintedIn numberText fs n) (hne : fs ≠ []) :
    PrintedIn numberText (.obj fs) (n + 1) := by
  obtain ⟨m, hm, hle⟩ := h
  refine ⟨m + 1, ?_, by omega⟩
  cases fs with
  | nil => exact absurd rfl hne
  | cons f fs =>
    rw [Json.size, Option.mem_def.1 hm]
    rfl

namespace PageSnapshot

variable {s s' : PageSnapshot}

/-- The snapshot without entries. -/
def bare (s : PageSnapshot) : PageSnapshot :=
  { s with headings := [], landmarks := [], forms := [], interactive := [], truncated := true }

/-- **Without entries, a snapshot fits.** -/
theorem size_bare (hnumber : ∀ q, (numberText q).length ≤ 32) (hurl : s.url.length ≤ 4096)
    (htitle : s.title.length ≤ 512) {text : Text} (hsignals : s.pageSignals = detectPageSignals text) :
    s.bare.size numberText ≤ 64000 := by
  have hfloat : ∀ q, PrintedIn numberText (.float q) 32 := fun q => ⟨_, by rw [Json.size]; rfl, hnumber q⟩
  have hint : ∀ n, PrintedIn numberText (.int n) 32 := fun n => ⟨_, by rw [Json.size]; rfl, hnumber n⟩
  have hempty : PrintedIn numberText (.arr []) 2 := ⟨2, by rw [Json.size]; rfl, le_rfl⟩
  have htrue : PrintedIn numberText (.bool true) 4 := ⟨4, by rw [Json.size]; rfl, le_rfl⟩
  have hwarned : PrintedIn numberText (.arr (s.bare.pageSignals.map Json.str)) 200 := by
    have hbare : s.bare.pageSignals = detectPageSignals text := hsignals
    rw [hbare, detectPageSignals]
    split_ifs
    · obtain ⟨n, hn, hle⟩ := strSize_le numberText (.lit "prompt_injection")
      have hlength : (Text.lit "prompt_injection").length = 16 := rfl
      refine ⟨n + 1 + 0 + 1, ?_, by omega⟩
      rw [List.map_singleton, Json.size, Json.sizeItems, Json.sizeItems, Json.size, Option.mem_def.1 hn]
      rfl
    · exact ⟨2, by rw [List.map_nil, Json.size]; rfl, by omega⟩
  have hviewport := PrintedIn.obj (.cons (k := .lit "width") (by decide) (hfloat s.viewport.width)
    (.cons (k := .lit "height") (by decide) (hfloat s.viewport.height)
    (.cons (k := .lit "scrollX") (by decide) (hfloat s.viewport.scrollX)
    (.cons (k := .lit "scrollY") (by decide) (hfloat s.viewport.scrollY) .nil)))) (by simp)
  have hfields := PrintedIn.obj (.cons (k := .lit "revision") (by decide) (hint s.revision)
    (.cons (k := .lit "url") (by decide) (.str hurl)
    (.cons (k := .lit "title") (by decide) (.str htitle)
    (.cons (k := .lit "viewport") (by decide) hviewport
    (.cons (k := .lit "headings") (by decide) hempty
    (.cons (k := .lit "landmarks") (by decide) hempty
    (.cons (k := .lit "forms") (by decide) hempty
    (.cons (k := .lit "interactive") (by decide) hempty
    (.cons (k := .lit "pageSignals") (by decide) hwarned
    (.cons (k := .lit "untrustedContent") (by decide) htrue
    (.cons (k := .lit "truncated") (by decide) htrue .nil))))))))))) (by simp)
  obtain ⟨n, hn, hle⟩ := hfields
  have hsize : s.bare.json.size (Json.jsPrinter numberText) = some n := hn
  rw [size, hsize, Option.getD_some]
  omega

theorem pop_some (h : s.pop = some s') :
    s'.bare = s.bare ∧ s'.interactive <+: s.interactive ∧ s'.forms <+: s.forms := by
  unfold pop at h
  split_ifs at h
  all_goals
    cases h
    exact ⟨rfl, by simp [List.dropLast_prefix], by simp [List.dropLast_prefix]⟩

theorem pop_none (h : s.pop = none) : { s with truncated := true } = s.bare := by
  unfold pop at h
  split_ifs at h with h₁ h₂ h₃ h₄
  rw [not_not] at h₁ h₂ h₃ h₄
  rw [bare, h₁, h₂, h₃, h₄]

end PageSnapshot

/-- **Entries are dropped from the end**, until the snapshot fits. -/
theorem fitSnapshot_spec (s : PageSnapshot) :
    (fitSnapshot numberText maxBytes s).interactive <+: s.interactive ∧
      (fitSnapshot numberText maxBytes s).forms <+: s.forms ∧
      (s.bare.size numberText ≤ maxBytes → (fitSnapshot numberText maxBytes s).size numberText ≤ maxBytes) := by
  fun_induction fitSnapshot numberText maxBytes s with
  | case1 s hfits => exact ⟨List.prefix_rfl, List.prefix_rfl, fun _ => hfits⟩
  | case2 s hlarge s' hpop ih =>
    obtain ⟨hbare, hinteractive, hforms⟩ := PageSnapshot.pop_some hpop
    rw [hbare] at ih
    exact ⟨ih.1.trans hinteractive, ih.2.1.trans hforms, ih.2.2⟩
  | case3 s hlarge hpop =>
    refine ⟨List.prefix_rfl, List.prefix_rfl, fun hfits => ?_⟩
    rw [PageSnapshot.pop_none hpop]
    exact hfits

end

/-! ## Observations -/

section
variable {toLowerCase : Text → Text} {toNumber : Text → JsNumber} {numberText : ℚ → Text} {nonce : Text}
variable {maxBytes revision : ℕ} {page : Page} {nodes : List PageNode} {t t' : Registered}

/-- The handles that have been given. -/
def Registered.Numbered (nonce : Text) (revision : ℕ) (t : Registered) : Prop :=
  t.handles.map Prod.fst = (List.range' 1 t.handleIndex).map (handleText revision · nonce)

namespace Registered.Numbered

theorem register (h : t.Numbered nonce revision) (node : Node) :
    (t.register nonce revision node).Numbered nonce revision := by
  unfold Registered.Numbered at h ⊢
  rw [Registered.register, List.map_append, h, List.range'_concat, List.map_append, Registered.next, Nat.one_mul,
    Nat.add_comm 1]
  rfl

theorem nodup (h : t.Numbered nonce revision) : (t.handles.map Prod.fst).Nodup := by
  rw [Registered.Numbered] at h
  rw [h]
  exact List.Nodup.map (fun i j hij => (handleText_inj.1 hij).2) (List.nodup_range' ..)

theorem node_unique (h : t.Numbered nonce revision) {handle : Text} {node node' : Node}
    (hnode : (handle, node) ∈ t.handles) (hnode' : (handle, node') ∈ t.handles) : node = node' :=
  (Prod.mk.inj (List.inj_on_of_nodup_map h.nodup hnode hnode' rfl)).2

theorem handle_eq (h : t.Numbered nonce revision) {handle : Text} {node : Node} (hnode : (handle, node) ∈ t.handles) :
    ∃ i, handle = handleText revision i nonce := by
  have hmem := List.mem_map_of_mem (f := Prod.fst) hnode
  rw [Registered.Numbered] at h
  rw [h] at hmem
  obtain ⟨i, -, rfl⟩ := List.mem_map.1 hmem
  exact ⟨i, rfl⟩

end Registered.Numbered

/-- **The interactive elements that have been read** are in the tables, each with its record. -/
theorem observeInteractive_some {records : List InteractiveRecord}
    (h : observeInteractive toLowerCase nonce revision page nodes t = (t', some records)) :
    records.length = nodes.length ∧
      t'.handles = t.handles ++ (records.zip nodes).map (fun x => (x.1.handle, x.2.node)) ∧
      t'.records = t.records ++ (records.zip nodes).map fun x => (x.2.node, x.1) := by
  induction nodes generalizing t records with
  | nil =>
    obtain ⟨rfl, hnil⟩ := Prod.mk.inj h
    cases hnil
    simp
  | cons x nodes ih =>
    rw [observeInteractive] at h
    rcases hrecord : x.read.bind (·.record toLowerCase page.textById (t.next nonce revision)) with _ | record
    · rw [hrecord] at h
      cases h
    · simp only [hrecord] at h
      obtain ⟨ht', hmap⟩ := Prod.mk.inj h
      obtain ⟨rest, hrest, rfl⟩ := Option.map_eq_some_iff.1 hmap
      obtain ⟨hlength, hhandles, hrecords⟩ := ih (Prod.ext ht' hrest)
      have hhandle : record.handle = t.next nonce revision := by
        obtain ⟨e, -, he⟩ := Option.bind_eq_some_iff.1 hrecord
        obtain ⟨role, -, rfl⟩ := Option.map_eq_some_iff.1 he
        rfl
      refine ⟨by simp [hlength], ?_, ?_⟩
      · rw [hhandles, Registered.register, List.append_assoc, List.zip_cons_cons, List.map_cons, hhandle]
        rfl
      · rw [hrecords, List.append_assoc, List.zip_cons_cons, List.map_cons]
        rfl

/-- What registering and recording keep is kept, whether all of it is read or not. -/
theorem observeInteractive_keeps {P : Registered → Prop}
    (hregister : ∀ t node, P t → P (t.register nonce revision node))
    (hrecord : ∀ t x, P t → P { t with records := t.records ++ [x] }) (h : P t) :
    P (observeInteractive toLowerCase nonce revision page nodes t).1 := by
  induction nodes generalizing t with
  | nil => exact h
  | cons x nodes ih =>
    rw [observeInteractive]
    rcases x.read.bind (·.record toLowerCase page.textById (t.next nonce revision)) with _ | record
    · exact hregister t x.node h
    · exact ih (hrecord _ _ (hregister t x.node h))

theorem observeInteractive_numbered (h : t.Numbered nonce revision) :
    (observeInteractive toLowerCase nonce revision page nodes t).1.Numbered nonce revision :=
  observeInteractive_keeps (fun _ node h => h.register node) (fun _ _ h => h) h

theorem register_handles_ne_nil (t : Registered) (node : Node) : (t.register nonce revision node).handles ≠ [] :=
  List.append_ne_nil_of_right_ne_nil _ (List.cons_ne_nil _ _)

theorem observeInteractive_handles (hne : t.handles ≠ [] ∨ nodes ≠ []) :
    (observeInteractive toLowerCase nonce revision page nodes t).1.handles ≠ [] := by
  rcases nodes with _ | ⟨x, nodes⟩
  · exact hne.resolve_right (not_not.2 rfl)
  · rw [observeInteractive]
    rcases x.read.bind (·.record toLowerCase page.textById (t.next nonce revision)) with _ | record
    · exact register_handles_ne_nil t x.node
    · exact observeInteractive_keeps (P := (·.handles ≠ [])) (fun t node _ => register_handles_ne_nil t node)
        (fun _ _ h => h) (register_handles_ne_nil t x.node)

/-- **The forms that have been read** are in the tables. -/
theorem observeForms_some {forms : List PageForm} (h : observeForms nonce revision page nodes t = (t', some forms)) :
    forms.length = nodes.length ∧
      t'.handles = t.handles ++ (forms.zip nodes).map (fun x => (x.1.handle, x.2.node)) ∧ t'.records = t.records := by
  induction nodes generalizing t forms with
  | nil =>
    obtain ⟨rfl, hnil⟩ := Prod.mk.inj h
    cases hnil
    simp
  | cons x nodes ih =>
    rw [observeForms] at h
    rcases hread : x.read with _ | e
    · rw [hread] at h
      cases h
    · simp only [hread] at h
      obtain ⟨ht', hmap⟩ := Prod.mk.inj h
      obtain ⟨rest, hrest, rfl⟩ := Option.map_eq_some_iff.1 hmap
      obtain ⟨hlength, hhandles, hrecords⟩ := ih (Prod.ext ht' hrest)
      refine ⟨by simp [hlength], ?_, hrecords⟩
      rw [hhandles, Registered.register, List.append_assoc, List.zip_cons_cons, List.map_cons]
      rfl

theorem observeForms_keeps {P : Registered → Prop} (hregister : ∀ t node, P t → P (t.register nonce revision node))
    (h : P t) : P (observeForms nonce revision page nodes t).1 := by
  induction nodes generalizing t with
  | nil => exact h
  | cons x nodes ih =>
    rw [observeForms]
    rcases x.read with _ | e
    · exact hregister t x.node h
    · exact ih (hregister t x.node h)

theorem observeForms_numbered (h : t.Numbered nonce revision) :
    (observeForms nonce revision page nodes t).1.Numbered nonce revision :=
  observeForms_keeps (fun _ node h => h.register node) h

theorem observeForms_handles (hne : t.handles ≠ [] ∨ nodes ≠ []) :
    (observeForms nonce revision page nodes t).1.handles ≠ [] := by
  rcases nodes with _ | ⟨x, nodes⟩
  · exact hne.resolve_right (not_not.2 rfl)
  · rw [observeForms]
    rcases x.read with _ | e
    · exact register_handles_ne_nil t x.node
    · exact observeForms_keeps (P := (·.handles ≠ [])) (fun t node _ => register_handles_ne_nil t node)
        (register_handles_ne_nil t x.node)

/-! ### Pages -/

variable (toLowerCase page) in
/-- Can all of the page be read? -/
structure Page.Readable : Prop where
  interactive : ∃ nodes, page.shownInteractive = some nodes ∧
    ∀ x ∈ nodes, (x.read.bind (·.implicitRole toLowerCase)).isSome
  headings : (readAll page.shownHeadings).isSome
  landmarks : (readAll page.shownLandmarks).isSome
  forms : (readAll page.shownForms).isSome
  bodyText : page.bodyText.isSome
  title : page.title.isSome

variable (page) in
/-- Is an element registered, whether all of the page can be read or not? -/
def Page.Registers : Prop :=
  ∃ nodes, page.shownInteractive = some nodes ∧ (nodes ≠ [] ∨
    (readAll page.shownHeadings).isSome ∧ (readAll page.shownLandmarks).isSome ∧
      ∃ forms, page.shownForms = some forms ∧ forms ≠ [])

theorem observeInteractive_isSome :
    (observeInteractive toLowerCase nonce revision page nodes t).2.isSome ↔
      ∀ x ∈ nodes, (x.read.bind (·.implicitRole toLowerCase)).isSome := by
  induction nodes generalizing t with
  | nil => simp [observeInteractive]
  | cons x nodes ih =>
    have hrole : (x.read.bind (·.record toLowerCase page.textById (t.next nonce revision))).isSome =
        (x.read.bind (·.implicitRole toLowerCase)).isSome := by
      rcases x.read with _ | e
      · rfl
      · simp [ObservedElement.record]
    rw [List.forall_mem_cons, ← hrole, observeInteractive]
    rcases x.read.bind (·.record toLowerCase page.textById (t.next nonce revision)) with _ | record
    · simp
    · simp only [Option.isSome_map, Option.isSome_some, true_and]
      exact ih

theorem observeHeadings_isSome : (observeHeadings toNumber page).isSome = (readAll page.shownHeadings).isSome :=
  Option.isSome_map

theorem observeLandmarks_isSome : (observeLandmarks toLowerCase page).isSome = (readAll page.shownLandmarks).isSome :=
  Option.isSome_map

theorem observeForms_isSome :
    (observeForms nonce revision page nodes t).2.isSome ↔ ∀ x ∈ nodes, x.read.isSome := by
  induction nodes generalizing t with
  | nil => simp [observeForms]
  | cons x nodes ih =>
    rw [List.forall_mem_cons, observeForms]
    rcases x.read with _ | e
    · simp
    · simp only [Option.isSome_map, Option.isSome_some, true_and]
      exact ih

/-- What an observation leaves that returns. -/
structure Returned (page : Page) (nonce : Text) (revision : ℕ) (tables : DomObserver) (snapshot : PageSnapshot)
    (nodes formNodes : List PageNode) (records : List InteractiveRecord) (forms : List PageForm) (t : Registered) :
    Prop where
  shown : page.shownInteractive = some nodes
  shownForms : page.shownForms = some formNodes
  numbered : t.Numbered nonce revision
  length : records.length = nodes.length
  lengthForms : forms.length = formNodes.length
  inHandles : t.handles = (records.zip nodes).map (fun x => (x.1.handle, x.2.node)) ++
    (forms.zip formNodes).map fun x => (x.1.handle, x.2.node)
  inRecords : t.records = (records.zip nodes).map fun x => (x.2.node, x.1)
  pruned : tables = t.exposed snapshot
  listed : snapshot.interactive <+: records
  listedForms : snapshot.forms <+: forms

theorem finishObservation_some {interactive : List InteractiveRecord} {headings : List PageHeading}
    {landmarks : List PageLandmark} {tables : DomObserver} {snapshot : PageSnapshot}
    (h : finishObservation numberText nonce maxBytes revision page interactive headings landmarks nodes t =
      (tables, some snapshot)) :
    ∃ forms bodyText title t', observeForms nonce revision page nodes t = (t', some forms) ∧
      page.bodyText = some bodyText ∧ page.title = some title ∧ tables = t'.exposed snapshot ∧
      snapshot = fitSnapshot numberText maxBytes
        (page.snapshot revision interactive headings landmarks forms bodyText title) := by
  unfold finishObservation at h
  rcases hforms : observeForms nonce revision page nodes t with ⟨t', _ | forms⟩
  · rw [hforms] at h
    cases h
  rcases hbody : page.bodyText with _ | bodyText
  · rw [hforms, hbody] at h
    cases h
  rcases htitle : page.title with _ | title
  · rw [hforms, hbody, htitle] at h
    cases h
  simp only [hforms, hbody, htitle, Prod.mk.injEq, Option.some.injEq] at h
  obtain ⟨rfl, rfl⟩ := h
  exact ⟨forms, bodyText, title, t', rfl, rfl, rfl, rfl, rfl⟩

/-- **An observation that returns** has read all of the page, and its snapshot fits. -/
theorem observePage_some {tables : DomObserver} {snapshot : PageSnapshot} (hnumber : ∀ q, (numberText q).length ≤ 32)
    (h : observePage toLowerCase toNumber numberText nonce 64000 revision page = (tables, some snapshot)) :
    page.Readable toLowerCase ∧ snapshot.size numberText ≤ 64000 ∧
      ∃ nodes formNodes records forms t,
        Returned page nonce revision tables snapshot nodes formNodes records forms t := by
  unfold observePage at h
  rcases hnodes : page.shownInteractive with _ | nodes
  · rw [hnodes] at h
    cases h
  simp only [hnodes] at h
  have hnumbered : (observeInteractive toLowerCase nonce revision page nodes .empty).1.Numbered nonce revision :=
    observeInteractive_numbered rfl
  have hsome : (observeInteractive toLowerCase nonce revision page nodes .empty).2.isSome ↔ _ :=
    observeInteractive_isSome
  rcases hread : observeInteractive toLowerCase nonce revision page nodes .empty with ⟨t, _ | records⟩
  · rw [hread] at h
    cases h
  rw [hread] at hnumbered hsome
  obtain ⟨hlength, hhandles, hrecords⟩ := observeInteractive_some hread
  simp only [hread] at h
  rcases hheadings : observeHeadings toNumber page with _ | headings
  · rw [hheadings] at h
    cases h
  rcases hlandmarks : observeLandmarks toLowerCase page with _ | landmarks
  · rw [hheadings, hlandmarks] at h
    cases h
  rcases hformNodes : page.shownForms with _ | formNodes
  · rw [hheadings, hlandmarks, hformNodes] at h
    cases h
  simp only [hheadings, hlandmarks, hformNodes] at h
  obtain ⟨forms, bodyText, title, t', hforms, hbody, htitle, rfl, rfl⟩ := finishObservation_some h
  have hnumbered' : (observeForms nonce revision page formNodes t).1.Numbered nonce revision :=
    observeForms_numbered hnumbered
  have hsome' : (observeForms nonce revision page formNodes t).2.isSome ↔ _ := observeForms_isSome
  rw [hforms] at hnumbered' hsome'
  obtain ⟨hlength', hhandles', hrecords'⟩ := observeForms_some hforms
  obtain ⟨hlisted, hlistedForms, hfits⟩ := @fitSnapshot_spec numberText 64000
    (page.snapshot revision records headings landmarks forms bodyText title)
  refine ⟨⟨⟨nodes, hnodes, hsome.1 rfl⟩, ?_, ?_, ?_, by rw [hbody]; rfl,
    by rw [htitle]; rfl⟩, hfits ?_, nodes, formNodes, records, forms, t', ⟨hnodes, hformNodes, hnumbered', hlength,
      hlength', ?_, ?_, rfl, hlisted, hlistedForms⟩⟩
  · rw [← observeHeadings_isSome, hheadings]
    rfl
  · rw [← observeLandmarks_isSome, hlandmarks]
    rfl
  · rw [hformNodes, readAll, Option.bind_some, mapM_isSome_iff]
    exact hsome'.1 rfl
  · refine PageSnapshot.size_bare hnumber ?_ ?_ (show _ = detectPageSignals bodyText from rfl)
    · simp only [Page.snapshot]
      exact length_slice 4096 page.href
    · simp only [Page.snapshot]
      exact length_redactText title 512
  · rw [hhandles', hhandles]
    rfl
  · rw [hrecords', hrecords]
    rfl

/-- What an observation leaves that raises: nothing, or a handle of its own. -/
def Left (page : Page) (nonce : Text) (revision : ℕ) (tables : DomObserver) : Prop :=
  (page.Registers ∧ ∃ i node, (handleText revision i nonce, node) ∈ tables.handles) ∨
    (¬page.Registers ∧ tables.handles = [] ∧ tables.records = [])

theorem Registered.Numbered.left (h : t.Numbered nonce revision) (hregisters : page.Registers) (hne : t.handles ≠ []) :
    Left page nonce revision t.tables := by
  obtain ⟨⟨handle, node⟩, hmem⟩ := List.exists_mem_of_ne_nil _ hne
  obtain ⟨i, rfl⟩ := h.handle_eq hmem
  exact .inl ⟨hregisters, i, node, hmem⟩

theorem left_interactive (hnodes : page.shownInteractive = some nodes)
    (hforms : nodes = [] → ¬((readAll page.shownHeadings).isSome ∧ (readAll page.shownLandmarks).isSome ∧
      ∃ forms, page.shownForms = some forms ∧ forms ≠ [])) :
    Left page nonce revision (observeInteractive toLowerCase nonce revision page nodes .empty).1.tables := by
  by_cases hnil : nodes = []
  · subst hnil
    refine .inr ⟨?_, rfl, rfl⟩
    rintro ⟨nodes', hsome, hne | hall⟩
    · rw [hnodes] at hsome
      cases hsome
      exact hne rfl
    · exact hforms rfl hall
  · have hnumbered : (observeInteractive toLowerCase nonce revision page nodes .empty).1.Numbered nonce revision :=
      observeInteractive_numbered rfl
    exact hnumbered.left ⟨nodes, hnodes, .inl hnil⟩ (observeInteractive_handles (.inr hnil))

theorem left_forms (hnodes : page.shownInteractive = some nodes) (hheadings : (readAll page.shownHeadings).isSome)
    (hlandmarks : (readAll page.shownLandmarks).isSome) {formNodes : List PageNode}
    (hformNodes : page.shownForms = some formNodes) :
    Left page nonce revision (observeForms nonce revision page formNodes
      (observeInteractive toLowerCase nonce revision page nodes .empty).1).1.tables := by
  have hnumbered : (observeForms nonce revision page formNodes
      (observeInteractive toLowerCase nonce revision page nodes .empty).1).1.Numbered nonce revision :=
    observeForms_numbered (observeInteractive_numbered rfl)
  by_cases hforms : formNodes = []
  · by_cases hnil : nodes = []
    · subst hforms
      refine left_interactive hnodes fun _ => ?_
      rintro ⟨-, -, forms, hsome, hne⟩
      rw [hformNodes] at hsome
      cases hsome
      exact hne rfl
    · exact hnumbered.left ⟨nodes, hnodes, .inl hnil⟩
        (observeForms_handles (.inl (observeInteractive_handles (.inr hnil))))
  · exact hnumbered.left ⟨nodes, hnodes, .inr ⟨hheadings, hlandmarks, formNodes, hformNodes, hforms⟩⟩
      (observeForms_handles (.inr hforms))

theorem finishObservation_none {interactive : List InteractiveRecord} {headings : List PageHeading}
    {landmarks : List PageLandmark} {tables : DomObserver}
    (h : finishObservation numberText nonce maxBytes revision page interactive headings landmarks nodes t =
      (tables, none)) :
    tables = (observeForms nonce revision page nodes t).1.tables ∧
      ¬((∀ x ∈ nodes, x.read.isSome) ∧ page.bodyText.isSome ∧ page.title.isSome) := by
  have hsome : (observeForms nonce revision page nodes t).2.isSome ↔ _ := observeForms_isSome
  rw [← hsome]
  unfold finishObservation at h
  rcases hforms : observeForms nonce revision page nodes t with ⟨t', _ | forms⟩
  · rw [hforms] at h
    exact ⟨(Prod.mk.inj h).1.symm, by simp⟩
  rcases hbody : page.bodyText with _ | bodyText
  · rw [hforms, hbody] at h
    exact ⟨(Prod.mk.inj h).1.symm, by simp⟩
  rcases htitle : page.title with _ | title
  · rw [hforms, hbody, htitle] at h
    exact ⟨(Prod.mk.inj h).1.symm, by simp⟩
  · rw [hforms, hbody, htitle] at h
    cases h

/-- **An observation that raises** has not read all of the page, and leaves what it has registered. -/
theorem observePage_none {tables : DomObserver}
    (h : observePage toLowerCase toNumber numberText nonce maxBytes revision page = (tables, none)) :
    ¬page.Readable toLowerCase ∧ Left page nonce revision tables := by
  unfold observePage at h
  rcases hnodes : page.shownInteractive with _ | nodes
  · rw [hnodes] at h
    obtain ⟨rfl, -⟩ := Prod.mk.inj h
    refine ⟨?_, .inr ⟨?_, rfl, rfl⟩⟩
    · rintro ⟨⟨nodes, hsome, -⟩, -⟩
      rw [hnodes] at hsome
      cases hsome
    · rintro ⟨nodes, hsome, -⟩
      rw [hnodes] at hsome
      cases hsome
  simp only [hnodes] at h
  have hsome : (observeInteractive toLowerCase nonce revision page nodes .empty).2.isSome ↔ _ :=
    observeInteractive_isSome
  have hleft := @left_interactive toLowerCase nonce revision page nodes hnodes
  have hleft' := @left_forms toLowerCase nonce revision page nodes hnodes
  have hnil : nodes = [] → observeInteractive toLowerCase nonce revision page nodes .empty = (.empty, some []) := by
    rintro rfl
    rfl
  rcases hread : observeInteractive toLowerCase nonce revision page nodes .empty with ⟨t, _ | records⟩
  · rw [hread] at h hsome hleft hnil
    obtain ⟨rfl, -⟩ := Prod.mk.inj h
    refine ⟨?_, hleft fun h' => ?_⟩
    · rintro ⟨⟨nodes', hsome', hall⟩, -⟩
      rw [hnodes] at hsome'
      cases hsome'
      cases hsome.2 hall
    · cases hnil h'
  rw [hread] at hleft hleft'
  simp only [hread] at h
  rcases hheadings : observeHeadings toNumber page with _ | headings
  · rw [hheadings] at h
    obtain ⟨rfl, -⟩ := Prod.mk.inj h
    have hnot : ¬(readAll page.shownHeadings).isSome := by
      rw [← observeHeadings_isSome, hheadings]
      exact Bool.false_ne_true
    exact ⟨fun hpage => hnot hpage.headings, hleft fun _ hall => hnot hall.1⟩
  rcases hlandmarks : observeLandmarks toLowerCase page with _ | landmarks
  · rw [hheadings, hlandmarks] at h
    obtain ⟨rfl, -⟩ := Prod.mk.inj h
    have hnot : ¬(readAll page.shownLandmarks).isSome := by
      rw [← observeLandmarks_isSome, hlandmarks]
      exact Bool.false_ne_true
    exact ⟨fun hpage => hnot hpage.landmarks, hleft fun _ hall => hnot hall.2.1⟩
  rcases hformNodes : page.shownForms with _ | formNodes
  · rw [hheadings, hlandmarks, hformNodes] at h
    obtain ⟨rfl, -⟩ := Prod.mk.inj h
    refine ⟨fun hpage => ?_, hleft fun _ => ?_⟩
    · have hforms := hpage.forms
      rw [hformNodes] at hforms
      cases hforms
    · rintro ⟨-, -, forms, hforms, -⟩
      rw [hformNodes] at hforms
      cases hforms
  simp only [hheadings, hlandmarks, hformNodes] at h
  obtain ⟨rfl, hnot⟩ := finishObservation_none h
  refine ⟨fun hpage => hnot ⟨?_, hpage.bodyText, hpage.title⟩, hleft' ?_ ?_ hformNodes⟩
  · have hforms := hpage.forms
    rwa [hformNodes, readAll, Option.bind_some, mapM_isSome_iff] at hforms
  · rw [← observeHeadings_isSome, hheadings]
    rfl
  · rw [← observeLandmarks_isSome, hlandmarks]
    rfl

/-! ## What has been shown -/

/-- Does the snapshot list the handle among the interactive elements, for the element? -/
def InteractiveFor (page : Page) (snapshot : PageSnapshot) (handle : Text) (node : Node) : Prop :=
  ∃ nodes record x, page.shownInteractive = some nodes ∧ (record, x) ∈ snapshot.interactive.zip nodes ∧
    record.handle = handle ∧ x.node = node

/-- Does the snapshot list the handle for the element? -/
def ListedFor (page : Page) (snapshot : PageSnapshot) (handle : Text) (node : Node) : Prop :=
  InteractiveFor page snapshot handle node ∨
    ∃ nodes form x, page.shownForms = some nodes ∧ (form, x) ∈ snapshot.forms.zip nodes ∧
      form.handle = handle ∧ x.node = node

/-- Whatever becomes of the document, only what the last snapshot lists can be resolved, and found. -/
structure ShownOnly (toLowerCase : Text → Text) (observer : DomObserver) (last : Option (Page × PageSnapshot)) :
    Prop where
  resolve : ∀ document handle node, observer.resolve document handle = .ok node →
    ∃ page snapshot, last = some (page, snapshot) ∧ ListedFor page snapshot handle node
  findTarget : ∀ document target node, (∀ handle, target.field (.lit "handle") ≠ some (.str handle)) →
    observer.findTarget toLowerCase document target = .ok node →
      ∃ page snapshot, last = some (page, snapshot) ∧ ∃ handle, InteractiveFor page snapshot handle node

theorem resolve_mem {observer : DomObserver} {document : Document} {handle : Text} {node : Node}
    (h : observer.resolve document handle = .ok node) : (handle, node) ∈ observer.handles := by
  unfold DomObserver.resolve at h
  split at h
  · rename_i element hlookup
    split_ifs at h
    cases h
    obtain ⟨l, l', heq, -⟩ := List.lookup_eq_some_iff.1 hlookup
    rw [heq]
    simp
  · cases h

theorem findTarget_mem {observer : DomObserver} {document : Document} {target : Json} {node : Node}
    (hsemantic : ∀ handle, target.field (.lit "handle") ≠ some (.str handle))
    (h : observer.findTarget toLowerCase document target = .ok node) : ∃ record, (node, record) ∈ observer.records := by
  unfold DomObserver.findTarget at h
  split_ifs at h with hobj hraw hnone
  all_goals
    split at h
    · rename_i handle hhandle
      exact absurd hhandle (hsemantic handle)
  · cases h
  · split at h
    · rename_i x hx
      split_ifs at h
      cases h
      have hmem := List.mem_of_getElem? hx
      exact ⟨x.2, (List.mem_filter.1 hmem).1⟩
    · cases h

/-- While the element stays connected, a handle that is in the table is resolved. -/
theorem exists_resolve {observer : DomObserver} {document : Document} {handle : Text} {node : Node}
    (hconnected : ∀ node, document.isConnected node) (h : (handle, node) ∈ observer.handles) :
    ∃ node', observer.resolve document handle = .ok node' := by
  rcases hlookup : observer.handles.lookup handle with _ | node'
  · have hne := List.lookup_eq_none_iff.1 hlookup _ h
    simp at hne
  · refine ⟨node', ?_⟩
    rw [DomObserver.resolve, hlookup]
    exact if_pos (hconnected node')

theorem exists_zip_of_prefix {α β : Type} {as as' : List α} {bs : List β} {a : α} (h : as <+: as')
    (hlength : as'.length = bs.length) (ha : a ∈ as) : ∃ b, (a, b) ∈ as.zip bs ∧ (a, b) ∈ as'.zip bs := by
  obtain ⟨rest, rfl⟩ := h
  obtain ⟨i, hi, rfl⟩ := List.mem_iff_getElem.1 ha
  rw [List.length_append] at hlength
  have hb : bs[i]? = some (bs.get ⟨i, by omega⟩) := List.getElem?_eq_getElem _
  refine ⟨bs.get ⟨i, by omega⟩, ?_, ?_⟩
  · exact List.mem_of_getElem? (List.getElem?_zip_eq_some.2 ⟨List.getElem?_eq_getElem hi, hb⟩)
  · refine List.mem_of_getElem? (List.getElem?_zip_eq_some.2 ⟨?_, hb⟩)
    rw [List.getElem?_append_left hi, List.getElem?_eq_getElem hi]

section
variable {tables : DomObserver} {snapshot : PageSnapshot} {formNodes : List PageNode}
  {records : List InteractiveRecord} {forms : List PageForm}

theorem Returned.mem_exposed (h : Returned page nonce revision tables snapshot nodes formNodes records forms t)
    {handle : Text} (hhandle : handle ∈ snapshot.interactive.map (·.handle) ++ snapshot.forms.map (·.handle)) :
    ∃ node, (handle, node) ∈ t.handles ∧ ListedFor page snapshot handle node := by
  rcases List.mem_append.1 hhandle with hmem | hmem
  · obtain ⟨record, hrecord, rfl⟩ := List.mem_map.1 hmem
    obtain ⟨x, hx, hx'⟩ := exists_zip_of_prefix h.listed h.length hrecord
    refine ⟨x.node, ?_, .inl ⟨nodes, record, x, h.shown, hx, rfl, rfl⟩⟩
    rw [h.inHandles]
    exact List.mem_append_left _ (List.mem_map.2 ⟨(record, x), hx', rfl⟩)
  · obtain ⟨form, hform, rfl⟩ := List.mem_map.1 hmem
    obtain ⟨x, hx, hx'⟩ := exists_zip_of_prefix h.listedForms h.lengthForms hform
    refine ⟨x.node, ?_, .inr ⟨formNodes, form, x, h.shownForms, hx, rfl, rfl⟩⟩
    rw [h.inHandles]
    exact List.mem_append_right _ (List.mem_map.2 ⟨(form, x), hx', rfl⟩)

theorem Returned.interactive_ne_form (h : Returned page nonce revision tables snapshot nodes formNodes records forms t)
    {record : InteractiveRecord} {form : PageForm} {x y : PageNode} (hx : (record, x) ∈ records.zip nodes)
    (hy : (form, y) ∈ forms.zip formNodes) : record.handle ≠ form.handle := by
  have hnodup := h.numbered.nodup
  rw [h.inHandles, List.map_append, List.nodup_append] at hnodup
  refine hnodup.2.2 _ (List.mem_map.2 ⟨_, List.mem_map.2 ⟨_, hx, rfl⟩, rfl⟩) _ ?_
  exact List.mem_map.2 ⟨_, List.mem_map.2 ⟨_, hy, rfl⟩, rfl⟩

/-- **After an observation that returns**, only what its snapshot lists is left. -/
theorem Returned.shownOnly (h : Returned page nonce revision tables snapshot nodes formNodes records forms t) :
    ShownOnly toLowerCase tables (some (page, snapshot)) := by
  refine ⟨?_, ?_⟩
  · intro document handle node hresolve
    have hmem := resolve_mem hresolve
    rw [h.pruned, Registered.exposed, List.mem_filter, decide_eq_true_eq] at hmem
    obtain ⟨node', hnode', hlisted⟩ := h.mem_exposed hmem.2
    rw [h.numbered.node_unique hmem.1 hnode']
    exact ⟨page, snapshot, rfl, hlisted⟩
  · intro document target node hsemantic hfind
    obtain ⟨found, hfound⟩ := findTarget_mem hsemantic hfind
    rw [h.pruned, Registered.exposed, List.mem_filter, decide_eq_true_eq] at hfound
    obtain ⟨hrecord, hexposed⟩ := hfound
    rw [Registered.tables, h.inRecords, List.map_map] at hrecord
    obtain ⟨⟨record, x⟩, hx, heq⟩ := List.mem_map.1 hrecord
    obtain ⟨rfl, rfl⟩ := Prod.mk.inj heq
    have hhandle : (record.handle, x.node) ∈ t.handles := by
      rw [h.inHandles]
      exact List.mem_append_left _ (List.mem_map.2 ⟨_, hx, rfl⟩)
    obtain ⟨node', hnode', hlisted⟩ := h.mem_exposed hexposed
    obtain rfl := h.numbered.node_unique hhandle hnode'
    refine ⟨page, snapshot, rfl, record.handle, hlisted.resolve_right ?_⟩
    rintro ⟨formNodes', form, y, hforms, hy, hsame, -⟩
    rw [h.shownForms] at hforms
    cases hforms
    obtain ⟨y', -, hy'⟩ := exists_zip_of_prefix h.listedForms h.lengthForms (List.of_mem_zip hy).1
    exact h.interactive_ne_form hx hy' hsame.symm

theorem Returned.handle_eq (h : Returned page nonce revision tables snapshot nodes formNodes records forms t)
    {handle : Text} {node : Node} (hlisted : ListedFor page snapshot handle node) :
    ∃ i, handle = handleText revision i nonce := by
  have hexposed : handle ∈ snapshot.interactive.map (·.handle) ++ snapshot.forms.map (·.handle) := by
    rcases hlisted with ⟨_, record, x, -, hx, rfl, -⟩ | ⟨_, form, x, -, hx, rfl, -⟩
    · exact List.mem_append_left _ (List.mem_map.2 ⟨record, (List.of_mem_zip hx).1, rfl⟩)
    · exact List.mem_append_right _ (List.mem_map.2 ⟨form, (List.of_mem_zip hx).1, rfl⟩)
  obtain ⟨node', hnode', -⟩ := h.mem_exposed hexposed
  exact h.numbered.handle_eq hnode'

end

/-! ## Runs -/

/-- The last snapshot that has been returned, and the page it was taken of. -/
def lastShown (tr : List (Page × Option PageSnapshot)) : Option (Page × PageSnapshot) :=
  tr.foldl (fun last e => (e.2.map (e.1, ·)).or last) none

/-- What a run keeps. -/
structure ShownKept (toLowerCase : Text → Text) (numberText : ℚ → Text) (nonce : Text)
    (tr : List (Page × Option PageSnapshot)) (s : ObserverState) : Prop where
  fits : ∀ e ∈ tr, ∀ snapshot, e.2 = some snapshot → snapshot.size numberText ≤ 64000
  older : ∀ page snapshot, lastShown tr = some (page, snapshot) → ∀ handle node,
    ListedFor page snapshot handle node → ∃ r i, r ≤ s.revision ∧ handle = handleText r i nonce
  shown : ShownOnly toLowerCase s.tables (lastShown tr) ↔
    ∀ page answer, tr.getLast? = some (page, answer) → page.Readable toLowerCase ∨ ¬page.Registers

theorem lastShown_concat (tr : List (Page × Option PageSnapshot)) (e : Page × Option PageSnapshot) :
    lastShown (tr ++ [e]) = (e.2.map (e.1, ·)).or (lastShown tr) := by
  rw [lastShown, List.foldl_append]
  rfl

theorem shownOnly_nil {last : Option (Page × PageSnapshot)} {observer : DomObserver} (hhandles : observer.handles = [])
    (hrecords : observer.records = []) : ShownOnly toLowerCase observer last := by
  refine ⟨?_, ?_⟩
  · intro document handle node hresolve
    have hmem := resolve_mem hresolve
    rw [hhandles] at hmem
    cases hmem
  · intro document target node hsemantic hfind
    obtain ⟨record, hmem⟩ := findTarget_mem hsemantic hfind
    rw [hrecords] at hmem
    cases hmem

/-- **One observation.** -/
theorem ShownKept.observe {tr : List (Page × Option PageSnapshot)} {s : ObserverState}
    (hnumber : ∀ q, (numberText q).length ≤ 32) (h : ShownKept toLowerCase numberText nonce tr s) (page : Page) :
    ShownKept toLowerCase numberText nonce
      (tr ++ [(page, (s.observe toLowerCase toNumber numberText nonce 64000 page).2)])
      (s.observe toLowerCase toNumber numberText nonce 64000 page).1 := by
  have hlast : ∀ answer, (∀ page' answer', (tr ++ [(page, answer)]).getLast? = some (page', answer') →
      page'.Readable toLowerCase ∨ ¬page'.Registers) ↔ page.Readable toLowerCase ∨ ¬page.Registers := by
    intro answer
    rw [List.getLast?_concat]
    constructor
    · intro hall
      exact hall page answer rfl
    · rintro hpage _ _ ⟨⟩
      exact hpage
  unfold ObserverState.observe
  rcases hobserve : observePage toLowerCase toNumber numberText nonce 64000 (s.revision + 1) page
    with ⟨tables, _ | snapshot⟩
  · obtain ⟨hread, hleft⟩ := observePage_none hobserve
    refine ⟨?_, ?_, ?_⟩
    · intro e he snapshot hsome
      rcases List.mem_append.1 he with he | he
      · exact h.fits e he snapshot hsome
      · rw [List.mem_singleton.1 he] at hsome
        cases hsome
    · intro page' snapshot hshown handle node hlisted
      rw [lastShown_concat] at hshown
      obtain ⟨r, i, hle, heq⟩ := h.older page' snapshot hshown handle node hlisted
      exact ⟨r, i, Nat.le_succ_of_le hle, heq⟩
    · rw [hlast, lastShown_concat, or_iff_right hread]
      rcases hleft with ⟨hregisters, i, node, hmem⟩ | ⟨hnot, hhandles, hrecords⟩
      · refine iff_of_false (fun hshown => ?_) (not_not.2 hregisters)
        let connected : Document := ⟨fun _ => [], fun _ => none, fun _ => none, fun _ => true, fun _ => true⟩
        obtain ⟨node', hresolve⟩ := @exists_resolve tables connected _ node (fun _ => rfl) hmem
        obtain ⟨page', snapshot, hlastShown, hlisted⟩ := hshown.resolve connected _ node' hresolve
        obtain ⟨r, i', hle, heq⟩ := h.older page' snapshot hlastShown _ _ hlisted
        have hrevision := (handleText_inj.1 heq).1
        omega
      · exact iff_of_true (shownOnly_nil hhandles hrecords) hnot
  · obtain ⟨hread, hfits, nodes, formNodes, records, forms, t, hreturned⟩ := observePage_some hnumber hobserve
    refine ⟨?_, ?_, ?_⟩
    · intro e he snapshot' hsome
      rcases List.mem_append.1 he with he | he
      · exact h.fits e he snapshot' hsome
      · rw [List.mem_singleton.1 he] at hsome
        cases hsome
        exact hfits
    · intro page' snapshot' hshown handle node hlisted
      rw [lastShown_concat] at hshown
      cases hshown
      obtain ⟨i, heq⟩ := hreturned.handle_eq hlisted
      exact ⟨s.revision + 1, i, le_rfl, heq⟩
    · rw [hlast, lastShown_concat]
      exact iff_of_true hreturned.shownOnly (.inl hread)

/-- **Every run.** -/
theorem kept_of_run {tr : List (Page × Option PageSnapshot)} {s : ObserverState}
    (hnumber : ∀ q, (numberText q).length ≤ 32)
    (hrun : (observerMachine toLowerCase toNumber numberText nonce 64000).Run .initial tr s) :
    ShownKept toLowerCase numberText nonce tr s := by
  refine hrun.traceInvariant (I := ShownKept toLowerCase numberText nonce) ?_ ?_
  · intro tr s page s' answer _ hkept hstep
    obtain ⟨rfl, rfl⟩ := Prod.mk.inj (Option.some.inj hstep)
    exact hkept.observe hnumber page
  · refine ⟨by simp, ?_, ?_⟩
    · intro page snapshot hshown
      cases hshown
    · exact iff_of_true (shownOnly_nil rfl rfl) (by simp)

/-- **Only what the last snapshot showed can be acted on**, in every run, just if the last observation could read
    all of its page, or has registered nothing; and every snapshot fits. -/
theorem snapshotShown_iff {tr : List (Page × Option PageSnapshot)} {s : ObserverState}
    (hnumber : ∀ q, (numberText q).length ≤ 32)
    (hrun : (observerMachine toLowerCase toNumber numberText nonce 64000).Run .initial tr s) :
    (∀ e ∈ tr, ∀ snapshot, e.2 = some snapshot → snapshot.size numberText ≤ 64000) ∧
      (ShownOnly toLowerCase s.tables (lastShown tr) ↔
        ∀ page answer, tr.getLast? = some (page, answer) → page.Readable toLowerCase ∨ ¬page.Registers) := by
  have hkept := kept_of_run hnumber hrun
  exact ⟨hkept.fits, hkept.shown⟩

end

/-! ## An `input` in a drawing -/

namespace Sample

def numberText (q : ℚ) : Text := (Json.intText q.num).take 32

def textElement (tagName : String) : ObservedElement where
  tagName := .lit tagName
  getAttribute _ := none
  input := none
  select := none
  textArea := false
  contentEditable := false
  labels := []
  closestLabel := none
  textContent := .lit "Go"
  value := []
  selectedOptions := []
  labelTexts := []
  closestLabelText := none
  disabled := false

def pageOf (interactive : List PageNode) : Page where
  interactive := some interactive
  headings := []
  landmarks := []
  forms := some []
  textById _ := none
  bodyText := some (.lit "Go")
  href := .lit "https://example.com/"
  title := some (.lit "Example")
  viewport := ⟨800, 600, 0, 0⟩

def goButton : PageNode := ⟨0, textElement "BUTTON", [], false⟩

/-- `<svg><input></svg>`: the element is named `input`, but is no `HTMLInputElement`. -/
def drawnInput : PageNode := ⟨1, textElement "input", [], false⟩

end Sample

/-- A page with a button is observed twice. -/
theorem snapshotShown_iff_button : ∃ tr s,
    tr.map Prod.fst = [Sample.pageOf [Sample.goButton], Sample.pageOf [Sample.goButton]] ∧
      (observerMachine Sample.lowerCase (fun _ => .nan) Sample.numberText (.lit "n") 64000).Run .initial tr s ∧
      (∀ e ∈ tr, ∀ snapshot, e.2 = some snapshot → snapshot.size Sample.numberText ≤ 64000) ∧
      (ShownOnly Sample.lowerCase s.tables (lastShown tr) ↔
        ∀ page answer, tr.getLast? = some (page, answer) →
          page.Readable Sample.lowerCase ∨ ¬page.Registers) := by
  have hrun : (observerMachine Sample.lowerCase (fun _ => .nan) Sample.numberText (.lit "n") 64000).Run .initial
      [(Sample.pageOf [Sample.goButton], _), (Sample.pageOf [Sample.goButton], _)] _ :=
    .cons trivial rfl (.cons trivial rfl .nil)
  exact ⟨_, _, rfl, hrun, snapshotShown_iff (fun q => List.length_take_le 32 _) hrun⟩

/-- Then an `input` is drawn on the page: what the observation that raises has registered can be acted on. -/
theorem snapshotShown_fails : ∃ tr s,
    tr.map Prod.fst = [Sample.pageOf [Sample.goButton], Sample.pageOf [Sample.goButton, Sample.drawnInput]] ∧
      (observerMachine Sample.lowerCase (fun _ => .nan) Sample.numberText (.lit "n") 64000).Run .initial tr s ∧
      ¬ShownOnly Sample.lowerCase s.tables (lastShown tr) := by
  have hrun : (observerMachine Sample.lowerCase (fun _ => .nan) Sample.numberText (.lit "n") 64000).Run .initial
      [(Sample.pageOf [Sample.goButton], _), (Sample.pageOf [Sample.goButton, Sample.drawnInput], _)] _ :=
    .cons trivial rfl (.cons trivial rfl .nil)
  refine ⟨_, _, rfl, hrun, ?_⟩
  rw [(kept_of_run (fun q => List.length_take_le 32 _) hrun).shown]
  intro hlast
  have hshown : (Sample.pageOf [Sample.goButton, Sample.drawnInput]).shownInteractive =
      some [Sample.goButton, Sample.drawnInput] := rfl
  rcases hlast _ _ rfl with hread | hnot
  · obtain ⟨nodes, hnodes, hall⟩ := hread.interactive
    rw [hshown] at hnodes
    cases hnodes
    have hinput := hall Sample.drawnInput (by simp)
    revert hinput
    decide +kernel
  · exact hnot ⟨_, hshown, .inl (List.cons_ne_nil _ _)⟩

end TideBot
