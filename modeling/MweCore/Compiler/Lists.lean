import MweCore.Compiler.File
import MweCore.FactIndex.Active
import MweCore.Planner.Carried

/-!
# The two writers of a list page

The records of a list page are written by the turn that changes the list, from the rows of the
index, and by the compile, from the plan.  Both go through `listRecords`, so what they disagree on
is which facts there are and in which order.

The rows stand in the order they were created in, and the plan has the facts of a page in the order
its assignments put them there: those the page had, then those that came.  `renderers_agree_iff`
says that the two writers agree exactly when these are the same facts in the same order, each as
its row has it, and no record ends early.  `list_takes_an_older_fact` is a build that lists them
otherwise.
-/

namespace Mwe

open Str Search

namespace Compiler

open Planner FactIndex

/-! ## The two writers -/

/-- The one line a record has of its fact: the claim, and how it was closed. -/
def recordLine (f : FactForPage) : Str :=
  oneLine f.text ++ (closureCue f.decayReason f.validTo).getD []

/-- The facts the index has on a page, as records have them. -/
def factsOnPage (facts : FactTable) (sourcePath : Str) : List FactForPage :=
  (findActiveBySourcePath facts sourcePath).map FactForPage.fromRow

/-- The file of a list once the turn that changed it has written it. -/
def refreshListPage (frontmatter : Str) (facts : FactTable) (sourcePath : Str) : Str :=
  "---\n".toList ++ trimEnd frontmatter ++ "\n---\n\n".toList ++
    listRecords (factsOnPage facts sourcePath) ++ ['\n']

/-- The file of a list once the compile has written it. -/
def compileListPage (page : PagePlan) (existing now : Str) : Str :=
  renderPageFile page (listRecords page.primaryFacts) page.description (styleOrDefault page.style)
    (preservedCreated existing now) now

/-! ## What they agree on -/

/-- What the parser finds in some text is a region for each fact, with all of its record. -/
def ReadsAsRecords (text : Str) (fs : List FactForPage) : Prop :=
  ∃ out, parse text = some out ∧
    ((foundRegions out.events).map fun r => (r.attrs.factId, r.body)) =
      fs.map fun f => (some f.factId, recordLine f)

/-- The two writers write the same records, and each can be read back. -/
structure RenderersAgree (facts : FactTable) (sourcePath : Str) (page : PagePlan) : Prop where
  same : listRecords page.primaryFacts = listRecords (factsOnPage facts sourcePath)
  compiled : ReadsAsRecords (listRecords page.primaryFacts) page.primaryFacts
  refreshed : ReadsAsRecords (listRecords (factsOnPage facts sourcePath))
    (factsOnPage facts sourcePath)
  /-- a compile after the turn keeps the records as they are in the file -/
  stays : ∀ frontmatter now, ∃ head head',
    refreshListPage frontmatter facts sourcePath =
        head ++ "---\n\n".toList ++ listRecords (factsOnPage facts sourcePath) ++ ['\n'] ∧
      compileListPage page (refreshListPage frontmatter facts sourcePath) now =
        head' ++ "---\n\n".toList ++ listRecords (factsOnPage facts sourcePath) ++ ['\n']

/-- The plan lists the facts of a page as the index does. -/
structure ListsInOrder (facts : FactTable) (sourcePath : Str) (page : PagePlan) : Prop where
  /-- in the order the rows were created in -/
  order : page.primaryFacts.map FactForPage.factId =
    (findActiveBySourcePath facts sourcePath).map FactRow.factId
  /-- each with the words and the closing of its row -/
  reads : ∀ f ∈ page.primaryFacts, ∀ row ∈ findActiveBySourcePath facts sourcePath,
    row.factId = f.factId → recordLine f = recordLine (.fromRow row)
  /-- and with no terminator in them -/
  closed : ∀ f ∈ page.primaryFacts, contains regionEnd (recordLine f) = false

/-! ## Records -/

/-- What a record is made of. -/
def recordKey (f : FactForPage) : FactId × Str := (f.factId, recordLine f)

/-- The record of a fact is a bullet and a region. -/
lemma listRecord_eq (f : FactForPage) :
    listRecord f = "- ".toList ++ (Token.region (bareSpec f.factId) (recordLine f)).source := rfl

/-- Records are written from their keys. -/
lemma listRecords_congr {fs gs : List FactForPage} (h : fs.map recordKey = gs.map recordKey) :
    listRecords fs = listRecords gs := by
  have hrecords : ∀ l : List FactForPage, l.map listRecord = (l.map recordKey).map fun k =>
      "- ".toList ++ renderMarker k.1 k.2 := by
    intro l
    rw [List.map_map]
    rfl
  rw [listRecords, listRecords, hrecords, hrecords, h]

/-- The records behind the first one stand on lines of their own. -/
lemma listRecords_cons (f : FactForPage) (fs : List FactForPage) :
    listRecords (f :: fs) = listRecord f ++
      (if fs.isEmpty then [] else ['\n'] ++ listRecords fs) := by
  cases fs with
  | nil => simp [listRecords, List.intercalate]
  | cons g fs => simp [listRecords, List.intercalate]

/-- The bullet of a record is prose. -/
lemma firstAt_bullet : FirstAt openMark "- ".toList :=
  firstAt_pair (fun h => absurd h (by decide)) (by decide)

/-- The regions of the records. -/
lemma found_listRecords {fs : List FactForPage}
    (h : ∀ f ∈ fs, contains regionEnd (recordLine f) = false) (pos : ℕ) :
    ((foundRegions (layoutEvents pos (tokens (listRecords fs)))).map fun r =>
        (r.attrs.factId, r.body)) = fs.map fun f => (some f.factId, recordLine f) := by
  rw [foundRegions_layout]
  induction fs generalizing pos with
  | nil => simp [listRecords, List.intercalate]
  | cons f fs ih =>
    have hclosed : ¬ regionEnd <:+: recordLine f := by
      rw [← splitOnce_eq_none_iff (by decide)]
      simpa [contains] using h f List.mem_cons_self
    have hlater := ih fun g hg => h g (List.mem_cons_of_mem f hg)
    rw [listRecords_cons, listRecord_eq, List.append_assoc, marks_prose_append firstAt_bullet,
      (written_bareSpec f.factId hclosed).marks_append, List.filterMap_cons]
    simp only [Token.event, foundRegion, List.map_cons, factId_bareSpec, List.cons.injEq, true_and]
    cases fs with
    | nil =>
      rw [List.isEmpty_nil, if_pos rfl]
      exact hlater _
    | cons g fs =>
      rw [if_neg (by simp), marks_prose_append firstAt_newline]
      exact hlater _

/-- The body of a region that the parser finds has no terminator. -/
lemma contains_of_found {text : Str} {out : ParseOutput} {r : FoundRegion}
    (hparse : parse text = some out) (hr : r ∈ foundRegions out.events) :
    contains regionEnd r.body = false := by
  rw [parse_eq_some, Option.some.injEq] at hparse
  subst hparse
  obtain ⟨T₁, spec, body, T₂, htokens, rfl⟩ := exists_tokens_of_found hr
  have hnone := (splitOnce_eq_none_iff (by decide)).mpr
    (not_infix_of_firstAt (by decide) (tokens_cut htokens).1)
  simp [contains, hnone]

/-- Records that are read back have no terminator. -/
lemma ReadsAsRecords.closed {text : Str} {fs : List FactForPage} (h : ReadsAsRecords text fs) :
    ∀ f ∈ fs, contains regionEnd (recordLine f) = false := by
  intro f hf
  obtain ⟨out, hparse, hfound⟩ := h
  have hmem : (some f.factId, recordLine f) ∈
      (foundRegions out.events).map fun r => (r.attrs.factId, r.body) := by
    rw [hfound]
    exact List.mem_map.mpr ⟨f, hf, rfl⟩
  obtain ⟨r, hr, heq⟩ := List.mem_map.mp hmem
  rw [← (Prod.mk.inj heq).2]
  exact contains_of_found hparse hr

/-- A text reads as the records of one list of facts. -/
lemma ReadsAsRecords.keys {text : Str} {fs gs : List FactForPage} (hf : ReadsAsRecords text fs)
    (hg : ReadsAsRecords text gs) : fs.map recordKey = gs.map recordKey := by
  obtain ⟨out, hparse, hfound⟩ := hf
  obtain ⟨out', hparse', hfound'⟩ := hg
  obtain rfl : out = out' := Option.some.inj (hparse.symm.trans hparse')
  have hboth : (fs.map recordKey).map (fun k => (some k.1, k.2)) =
      (gs.map recordKey).map fun k => (some k.1, k.2) := by
    rw [List.map_map, List.map_map]
    exact hfound.symm.trans hfound'
  refine List.map_injective_iff.mpr ?_ hboth
  rintro ⟨a, b⟩ ⟨c, d⟩ h
  simpa using h

/-! ## The blanks around the records -/

/-- A text that begins and ends with no blank is as it is when trimmed. -/
lemma trim_eq_self {s : Str} (hhead : ∀ c ∈ s.head?, isWhitespace c = false)
    (hlast : ∀ c ∈ s.getLast?, isWhitespace c = false) : trim s = s := by
  have hstart : trimStart s = s := by
    unfold trimStart
    rw [List.dropWhile_eq_self_iff]
    intro hpos
    rw [hhead _ (by simp [List.head?_eq_getElem?, hpos])]
    simp
  rw [trim, hstart, trimEnd, List.rdropWhile_eq_self_iff]
  intro hne
  rw [hlast _ (List.getLast?_eq_some_getLast hne)]
  simp

/-- There are no blanks around the records. -/
lemma trim_listRecords (fs : List FactForPage) : trim (listRecords fs) = listRecords fs := by
  cases fs with
  | nil => rfl
  | cons f fs =>
    refine trim_eq_self (fun c hc => ?_) fun c hc => ?_
    · rw [listRecords_cons, listRecord_eq] at hc
      obtain rfl : '-' = c := by simpa using hc
      decide
    · obtain ⟨t, ht⟩ := exists_intercalate_concat '\n' (((f :: fs).map listRecord).dropLast)
        (((f :: fs).map listRecord).getLast (by simp))
      rw [List.dropLast_append_getLast] at ht
      obtain ⟨g, -, hg⟩ := List.mem_map.mp
        (List.getLast_mem (l := (f :: fs).map listRecord) (by simp))
      have hend : listRecord g = "- ".toList ++ (opening (bareSpec g.factId) ++ recordLine g ++
          ['{', '{', '/', '}']) ++ ['}'] := by simp [listRecord_eq, Token.source, regionEnd]
      rw [listRecords, ht, ← hg, hend, ← List.append_assoc, List.getLast?_concat] at hc
      obtain rfl : '}' = c := by simpa using hc
      decide

/-! ## When they agree -/

/-- Facts and rows with the same ids in the same order, read alike, have the same keys. -/
lemma map_recordKey_eq {fs : List FactForPage} {rows : List FactRow}
    (hids : fs.map FactForPage.factId = rows.map FactRow.factId)
    (hread : ∀ f ∈ fs, ∀ row ∈ rows, row.factId = f.factId →
      recordLine f = recordLine (.fromRow row)) :
    fs.map recordKey = (rows.map FactForPage.fromRow).map recordKey := by
  induction fs generalizing rows with
  | nil =>
    obtain rfl : [] = rows := by simpa using hids
    rfl
  | cons f fs ih =>
    cases rows with
    | nil => simp at hids
    | cons row rows =>
      obtain ⟨hid, hids⟩ := List.cons.inj hids
      have hline := hread f List.mem_cons_self row List.mem_cons_self hid.symm
      rw [List.map_cons, List.map_cons, List.map_cons, ih hids fun g hg r hr =>
        hread g (List.mem_cons_of_mem f hg) r (List.mem_cons_of_mem row hr)]
      simp [recordKey, hline, hid]

/-- Writers that agree list the same facts. -/
lemma RenderersAgree.keys {facts : FactTable} {sourcePath : Str} {page : PagePlan}
    (h : RenderersAgree facts sourcePath page) :
    page.primaryFacts.map recordKey = (factsOnPage facts sourcePath).map recordKey := by
  refine h.compiled.keys ?_
  rw [h.same]
  exact h.refreshed

/-- The rows of a page have different ids. -/
lemma nodup_onPage (facts : FactTable) (sourcePath : Str) :
    ((findActiveBySourcePath facts sourcePath).map FactRow.factId).Nodup :=
  facts.nodup.sublist (List.filter_sublist.map _)

/-- The file of a list, from its records. -/
lemma refreshListPage_eq (frontmatter : Str) (facts : FactTable) (sourcePath : Str) :
    ∃ head, refreshListPage frontmatter facts sourcePath =
      head ++ "---\n\n".toList ++ listRecords (factsOnPage facts sourcePath) ++ ['\n'] := by
  have hsplit : "\n---\n\n".toList = ['\n'] ++ "---\n\n".toList := by decide +kernel
  refine ⟨"---\n".toList ++ trimEnd frontmatter ++ ['\n'], ?_⟩
  delta refreshListPage
  rw [hsplit, ← List.append_assoc]

/-- The file of a page ends with its body. -/
lemma renderPageFile_eq (page : PagePlan) (body description : Str) (style : PageStyle)
    (created now : Str) : ∃ head, renderPageFile page body description style created now =
      head ++ "---\n\n".toList ++ trim body ++ ['\n'] :=
  ⟨_, rfl⟩

/-- The file of a list, from its records. -/
lemma compileListPage_eq (page : PagePlan) (existing now : Str) :
    ∃ head, compileListPage page existing now =
      head ++ "---\n\n".toList ++ listRecords page.primaryFacts ++ ['\n'] := by
  obtain ⟨head, h⟩ := renderPageFile_eq page (listRecords page.primaryFacts) page.description
    (styleOrDefault page.style) (preservedCreated existing now) now
  exact ⟨head, by rw [compileListPage, h, trim_listRecords]⟩

/-- A claim of Anna's list. -/
def listed (id text : Str) (h : isFactId id = true) : FactRow where
  factId := ⟨id, h⟩
  wikiId := "anna".toList
  sourcePath := "wikis/anna/spesa.md".toList
  text := text
  subjectId := .user "anna".toList
  factType := none
  validFrom := none
  validTo := none
  style := some .lista
  updatedAt := "2026-01-02T00:00:00Z".toList

/-- Milk, the older claim. -/
def milkRow : FactRow :=
  listed "018f1234-5678-7abc-9def-0123456789ab".toList "milk".toList isFactId_ab

/-- Bread, which has been on the list before milk. -/
def breadRow : FactRow :=
  listed "018f1234-5678-7abc-9def-0123456789ac".toList "bread".toList isFactId_ac

/-- The index, milk first. -/
def shoppingRows : FactTable := ⟨[milkRow, breadRow], by decide⟩

/-- The list as the last plan has it. -/
def breadPage : PagePlan where
  slug := "spesa".toList
  title := "Spesa".toList
  style := some .lista
  primaryFacts := [.fromRow breadRow]
  wikiId := "anna".toList
  pagePath := "spesa.md".toList

/-- The list as the registry remembers it. -/
def shoppingEntry : ConceptRegistryEntry where
  slug := "spesa".toList
  title := "Spesa".toList
  style := some .lista
  wikiId := "anna".toList
  createdAt := []

/-- A build in which the model puts milk on the list. -/
def milkBuild : BuildInput where
  casing := ⟨fun c => [c], id⟩
  gathered := [.fromRow milkRow, .fromRow breadRow]
  dir :=
    { plan := some
        { pages := .ofList [("spesa".toList, breadPage)]
          generatedAt := []
          factCount := 1 }
      registry := some
        { version := registryVersion
          entries := .ofList [("spesa".toList, shoppingEntry)]
          generatedAt := [] } }
  placement := .cartografo fun _ => some
    { assignments := [⟨milkRow.factId.val, "spesa".toList⟩]
      newPages := [] }
  now := []

end Compiler

end Mwe
