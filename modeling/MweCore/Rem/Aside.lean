import MweCore.Rem.MarkedPage
import MweCore.Rem.Split
import MweCore.Wiki.Markdown

/-!
# Standing aside for the reading

Two sweeps ask a model about a fact and those it may have closed.  A case that is all on one page
the judge will read tonight is skipped: the reading sees the whole page, and carries the question
already.

What the reading shows is the page as `gather` builds it.  It puts a marker round every active fact
of the page, woven into the prose or listed below it, and round no other (`carries_iff`).  The
completion sweep reads active facts only.  The contradiction sweep starts from a fact that was
contradicted, and most of these are superseded: `aside_asks_iff` says when the pair is still put to
the reading.
-/

namespace Mwe

namespace Rem

open Str FactIndex

variable {T S : Type*} [LinearOrder T] [LinearOrder S]

/-! ## The page as it is gathered -/

/-- Whom most facts of a page are about; of several the last in the order of their spellings. -/
def pageSubject (live : List FactRow) : Option Principal :=
  let subjects := (live.map fun f => f.subjectId.display).insertionSort (· ≤ ·)
  let most := subjects.foldl (fun best s =>
    if best.any fun b => subjects.count s < subjects.count b then best else some s) none
  most.bind fun s => (Principal.fromStr s).toOption

/-- The identity card of whoever a page is about, for the judge. -/
def cardBlock (facts : FactTable) (live : List FactRow) : Str :=
  let card := (pageSubject live).elim [] fun s =>
    (findActiveBySubject facts s).filter FactRow.isIdentityCore
  if card.isEmpty then []
  else "\n\nWHO THIS PAGE IS ABOUT — their identity card:\n".toList ++
    card.flatMap fun f => "- ".toList ++ oneLineCapped f.text 160 ++ "\n".toList

/-- A page as the judge reads it, and what the model is shown of it. -/
def gather (facts : FactTable) (depth : JudgementDepth) (path raw : Str) (pageInWiki : Option Str)
    (heavy : Bool) : Option (JudgedPage × Str) :=
  let live := findActiveBySourcePath facts path
  if live.isEmpty then none
  else
    let body := ((MarkdownDoc.parse raw).map MarkdownDoc.body).getD raw
    (renderPageWithMarkers body live).map fun out =>
      (gatherPage facts depth path (out.2.map FactRow.factId) pageInWiki heavy,
        out.1 ++ cardBlock facts live)

/-- A marker of what the model is shown that names a fact. -/
def Carries (page : JudgedPage) (block : Str) (id : FactId) : Prop :=
  ∃ n row, page.factAt n = some row ∧ row.factId = id ∧ ∃ text, factMarker n text <:+: block

/-! ## The cases of the sweeps -/

/-- One closure a sweep carries out. -/
structure SweepClosure (T : Type*) where
  target : FactId
  validTo : Str
  reason : Str
  successor : Option FactId
  whenUnstated : T
  now : Str

/-- The index after the closures of the sweeps. -/
def closeAll (chrono : Chrono T) (facts : FactTable) (closures : List (SweepClosure T)) :
    FactTable :=
  closures.foldl (fun facts c =>
    (closeValidity chrono facts c.target c.validTo c.reason c.successor c.whenUnstated c.now).2)
    facts

/-- What a sweep asks about, before it stands aside for anything: each fact, and those it may have
closed.  The completion sweep leaves out what it has closed already. -/
def sweepCases (chrono : Chrono T) (lib : Library T S) (policy : RemPolicy S) (facts : FactTable)
    (wikis : List Str) (since now : T) (closedThisCycle : List FactId) :
    SweepKind → List (FactRow × List FactRow)
  | .completion =>
    (completionCases chrono lib policy since (wikis.map (findActiveInWiki facts))).map fun c =>
      (c.1, c.2.filter fun r => !closedThisCycle.contains r.factId)
  | .contradiction =>
    wikis.flatMap fun wiki => (findRecentlyContradicted chrono facts wiki since).map fun seed =>
      (seed, satellites chrono lib facts (findActiveInWiki facts wiki) now seed)

/-- A case a sweep skips, all of it on one page that will be read. -/
structure SkippedCase (chrono : Chrono T) (lib : Library T S) (policy : RemPolicy S)
    (facts : FactTable) where
  kind : SweepKind
  wikis : List Str
  since : T
  now : T
  closedThisCycle : List FactId
  willRead : List Str
  seed : FactRow
  candidates : List FactRow
  nominated : (seed, candidates) ∈
    sweepCases chrono lib policy facts wikis since now closedThisCycle kind
  asked : candidates ≠ []
  skipped : allOnOnePageTheReadingWillOpen seed candidates willRead = true

/-! ## What the block carries -/

section Gather

variable {facts : FactTable} {depth : JudgementDepth} {path raw : Str} {pageInWiki : Option Str}
  {heavy : Bool}

lemma mem_live_iff {r : FactRow} : r ∈ findActiveBySourcePath facts path ↔
    facts.get? r.factId = some r ∧ r.isActive = true ∧ r.sourcePath = path := by
  rw [findActiveBySourcePath, List.mem_filter, Sql.Table.get?_eq_some_iff, Sql.Table.mem_iff]
  simp only [Bool.and_eq_true, decide_eq_true_eq]
  tauto

/-- The rows of the rendering are the rows of the page. -/
lemma facts_gatherPage {rows : List FactRow}
    (hrows : ∀ r ∈ rows, r ∈ findActiveBySourcePath facts path) :
    (gatherPage facts depth path (rows.map FactRow.factId) pageInWiki heavy).facts = rows := by
  have hfind : ∀ r ∈ rows, (findActiveBySourcePath facts path).find?
      (fun r' => r'.factId = r.factId) = some r := by
    intro r hr
    have hsome : ((findActiveBySourcePath facts path).find?
        fun r' => r'.factId = r.factId).isSome = true :=
      List.find?_isSome.mpr ⟨r, hrows r hr, by simp⟩
    obtain ⟨r', hr'⟩ := Option.isSome_iff_exists.mp hsome
    have hid : r'.factId = r.factId := by simpa using List.find?_some hr'
    rw [hr', Option.some.injEq]
    have hget := (mem_live_iff.mp (List.mem_of_find?_eq_some hr')).1
    rw [hid, (mem_live_iff.mp (hrows r hr)).1] at hget
    exact (Option.some.inj hget).symm
  change (rows.map FactRow.factId).filterMap _ = rows
  rw [List.filterMap_map]
  calc rows.filterMap _ = rows.filterMap some := List.filterMap_congr hfind
    _ = rows := List.filterMap_some

/-- The facts of a rendering are the caller's. -/
lemma mem_of_renderPageWithMarkers {body out : Str} {live facts : List FactRow}
    (h : renderPageWithMarkers body live = some (out, facts)) {f : FactRow} (hf : f ∈ facts) :
    f ∈ live := by
  obtain ⟨marked, -, h⟩ := Option.bind_eq_some_iff.mp h
  obtain ⟨-, rfl⟩ := Prod.mk.inj (Option.some.inj h)
  obtain ⟨i, -, hi⟩ := List.mem_filterMap.mp hf
  exact List.mem_of_getElem? hi

/-- A page on which a fact stands is gathered. -/
lemma gather_isSome_iff :
    (gather facts depth path raw pageInWiki heavy).isSome = true ↔
      ∃ id, StandsOn facts path id := by
  have hlive : (∃ id, StandsOn facts path id) ↔ findActiveBySourcePath facts path ≠ [] := by
    constructor
    · rintro ⟨id, r, hr, hstands⟩
      obtain rfl := (Sql.Table.get?_eq_some_iff.mp hr).2
      exact List.ne_nil_of_mem (mem_live_iff.mpr ⟨hr, hstands⟩)
    · intro hsome
      obtain ⟨r, hr⟩ := List.exists_mem_of_ne_nil _ hsome
      exact ⟨r.factId, r, mem_live_iff.mp hr⟩
  rw [hlive, gather]
  by_cases hempty : findActiveBySourcePath facts path = []
  · rw [hempty]
    simp
  · have hmarked : ∀ body live, (renderPageWithMarkers body live).isSome = true := by
      intro body live
      rw [renderPageWithMarkers, markUp, parse_eq_some]
      rfl
    dsimp only
    rw [if_neg (by simpa using hempty), Option.isSome_map, hmarked]
    simpa using hempty

/-- The markers name the facts that stand on the page. -/
theorem carries_iff {page : JudgedPage} {block : Str}
    (h : gather facts depth path raw pageInWiki heavy = some (page, block)) (id : FactId) :
    Carries page block id ↔ StandsOn facts path id := by
  unfold gather at h
  dsimp only at h
  split_ifs at h with hempty
  obtain ⟨⟨out, rows⟩, hrender, h⟩ := Option.map_eq_some_iff.mp h
  obtain ⟨hpage, hblock⟩ := Prod.mk.inj h
  have hrows : page.facts = rows := by
    rw [← hpage]
    exact facts_gatherPage fun r hr => mem_of_renderPageWithMarkers hrender hr
  constructor
  · rintro ⟨n, row, hat, rfl, -⟩
    have hmem := JudgedPage.mem_of_factAt hat
    rw [hrows] at hmem
    exact ⟨row, mem_live_iff.mp (mem_of_renderPageWithMarkers hrender hmem)⟩
  · rintro ⟨r, hr, hactive, hpath⟩
    obtain ⟨-, hid⟩ := Sql.Table.get?_eq_some_iff.mp hr
    subst hid
    obtain ⟨n, hn, text, htext⟩ :=
      renderPageWithMarkers_marks hrender (mem_live_iff.mpr ⟨hr, hactive, hpath⟩)
    refine ⟨n + 1, r, ?_, rfl, text, ?_⟩
    · have hkept : r.deletedAt.isNone = true := (Bool.and_eq_true_iff.mp hactive).2
      change (page.facts[n]?).filter _ = some r
      rw [hrows, hn, Option.filter_some, if_pos hkept]
    · rw [← hblock]
      exact htext.trans (List.prefix_append _ _).isInfix

end Gather

/-! ## What the closures leave -/

/-- A closure leaves a fact where it stands. -/
lemma standsOn_closeValidity {chrono : Chrono T} {facts : FactTable} {factId : FactId}
    {validTo reason : Str} {successor : Option FactId} {whenUnstated : T} {now path : Str}
    {id : FactId} :
    StandsOn (closeValidity chrono facts factId validTo reason successor whenUnstated now).2 path
      id ↔ StandsOn facts path id := by
  unfold closeValidity
  split
  · rfl
  · simp only [StandsOn, updateActive, Sql.Table.get?_update]
    constructor
    · rintro ⟨r, hr, hstands⟩
      obtain ⟨r₀, hr₀, rfl⟩ := Option.map_eq_some_iff.mp hr
      refine ⟨r₀, hr₀, ?_⟩
      split_ifs at hstands <;> exact hstands
    · rintro ⟨r, hr, hstands⟩
      rw [hr]
      refine ⟨_, rfl, ?_⟩
      dsimp only
      split_ifs <;> exact hstands

lemma standsOn_closeAll {chrono : Chrono T} {facts : FactTable} (closures : List (SweepClosure T))
    {path : Str} {id : FactId} :
    StandsOn (closeAll chrono facts closures) path id ↔ StandsOn facts path id := by
  induction closures generalizing facts with
  | nil => rfl
  | cons c closures ih => exact ih.trans standsOn_closeValidity

/-! ## The question is asked -/

section Skipped

variable {chrono : Chrono T} {lib : Library T S} {policy : RemPolicy S} {facts : FactTable}

/-- The evidence of a completion case is a row that was read. -/
lemma evidence_of_completionCases {since : T} {byWiki : List (List FactRow)}
    {c : FactRow × List FactRow} (h : c ∈ completionCases chrono lib policy since byWiki) :
    ∃ rows ∈ byWiki, c.1 ∈ rows := by
  have hc := (List.mem_insertionSort _).mp (List.mem_of_mem_take h)
  obtain ⟨rows, hrows, hc⟩ := List.mem_flatMap.mp hc
  obtain ⟨evidence, hevidence, hc⟩ := List.mem_filterMap.mp hc
  split_ifs at hc
  split at hc
  · cases hc
  split_ifs at hc
  dsimp only at hc
  split_ifs at hc
  obtain rfl := Option.some.inj hc
  exact ⟨rows, hrows, hevidence⟩

omit [LinearOrder T] [LinearOrder S] in
lemma standsOn_of_findActiveInWiki {wiki : Str} {r : FactRow}
    (h : r ∈ findActiveInWiki facts wiki) : StandsOn facts r.sourcePath r.factId := by
  obtain ⟨hmem, hactive⟩ := List.mem_filter.mp h
  refine ⟨r, Sql.Table.get?_eq_some_iff.mpr ⟨hmem, rfl⟩, ?_, rfl⟩
  simp only [Bool.and_eq_true] at hactive
  exact hactive.2

/-- A case is a row of the index that is not tombstoned, and facts that stand. -/
lemma sweepCases_spec {wikis : List Str} {since now : T} {closedThisCycle : List FactId}
    {kind : SweepKind} {seed : FactRow} {candidates : List FactRow}
    (h : (seed, candidates) ∈
      sweepCases chrono lib policy facts wikis since now closedThisCycle kind) :
    seed ∈ facts ∧ seed.deletedAt = none ∧ (kind = .completion → seed.supersededAt = none) ∧
      ∀ r ∈ candidates, StandsOn facts r.sourcePath r.factId := by
  cases kind with
  | completion =>
    obtain ⟨⟨evidence, items⟩, hcase, heq⟩ := List.mem_map.mp h
    obtain ⟨rfl, rfl⟩ := Prod.mk.inj heq
    obtain ⟨rows, hrows, hread⟩ := evidence_of_completionCases hcase
    obtain ⟨wiki, -, rfl⟩ := List.mem_map.mp hrows
    obtain ⟨r, hr, hactive, -⟩ := standsOn_of_findActiveInWiki hread
    obtain ⟨hmem, hid⟩ := Sql.Table.get?_eq_some_iff.mp hr
    obtain rfl := Sql.Table.eq_of_key_eq hmem (mem_of_findActiveInWiki hread) hid
    rw [FactRow.isActive, Bool.and_eq_true, Option.isNone_iff_eq_none,
      Option.isNone_iff_eq_none] at hactive
    refine ⟨hmem, hactive.2, fun _ => hactive.1, fun c hc => ?_⟩
    obtain ⟨rows, hrows, hc⟩ := mem_of_completionCases hcase (List.mem_filter.mp hc).1
    obtain ⟨wiki, -, rfl⟩ := List.mem_map.mp hrows
    exact standsOn_of_findActiveInWiki hc
  | contradiction =>
    obtain ⟨wiki, -, hcase⟩ := List.mem_flatMap.mp h
    obtain ⟨seed', hseed, heq⟩ := List.mem_map.mp hcase
    obtain ⟨rfl, rfl⟩ := Prod.mk.inj heq
    obtain ⟨hmem, hfell⟩ := List.mem_filter.mp hseed
    simp only [Bool.and_eq_true, Option.isNone_iff_eq_none] at hfell
    refine ⟨hmem, hfell.1.2, by simp, fun c hc => ?_⟩
    exact standsOn_of_findActiveInWiki (mem_of_satellites hc).1

/-- The pair is put to the reading that a sweep stands aside for exactly when the fact it starts
from is not superseded; what that may have closed always is. -/
theorem aside_asks_iff (c : SkippedCase chrono lib policy facts)
    (closures : List (SweepClosure T)) (depth : JudgementDepth) (raw : Str)
    (pageInWiki : Option Str) (heavy : Bool) :
    (∃ page block,
      gather (closeAll chrono facts closures) depth c.seed.sourcePath raw pageInWiki heavy =
        some (page, block) ∧
      Carries page block c.seed.factId ∧ ∀ r ∈ c.candidates, Carries page block r.factId) ↔
    c.seed.supersededAt = none := by
  obtain ⟨hseed, hkept, -, hstand⟩ := sweepCases_spec c.nominated
  have hget : facts.get? c.seed.factId = some c.seed :=
    Sql.Table.get?_eq_some_iff.mpr ⟨hseed, rfl⟩
  have hstands : StandsOn facts c.seed.sourcePath c.seed.factId ↔ c.seed.supersededAt = none := by
    constructor
    · rintro ⟨r, hr, hactive, -⟩
      rw [hget, Option.some.injEq] at hr
      rw [← hr, FactRow.isActive, Bool.and_eq_true, Option.isNone_iff_eq_none] at hactive
      exact hactive.1
    · intro hnone
      exact ⟨c.seed, hget, by simp [FactRow.isActive, hnone, hkept], rfl⟩
  rw [← hstands]
  constructor
  · rintro ⟨page, block, hgather, hcarries, -⟩
    exact (standsOn_closeAll closures).mp ((carries_iff hgather _).mp hcarries)
  · intro hon
    obtain ⟨⟨page, block⟩, hgather⟩ := Option.isSome_iff_exists.mp
      (gather_isSome_iff.mpr ⟨_, (standsOn_closeAll closures).mpr hon⟩)
    refine ⟨page, block, hgather,
      (carries_iff hgather _).mpr ((standsOn_closeAll closures).mpr hon), fun r hr => ?_⟩
    have hpage : r.sourcePath = c.seed.sourcePath := by
      have hall := (Bool.and_eq_true_iff.mp c.skipped).2
      simpa using List.all_eq_true.mp hall r hr
    rw [carries_iff hgather, standsOn_closeAll, ← hpage]
    exact hstand r hr

end Skipped

/-! ## A fact that fell -/

/-- Of three facts on a page one was contradicted by a fact of another page. -/
def fallenFact : FactTable :=
  (markSuperseded sampleChrono (quietNight [olderFact,
    { newerFact with sourcePath := "wikis/alice/news.md".toList }, thirdFact]).facts none
      olderFact.factId newerFact.factId 1781085600000 "2026-06-10T10:00:00Z".toList).2

/-- The sweep stands aside for a reading that does not show what fell. -/
theorem aside_loses_what_fell :
    ∃ c : SkippedCase sampleChrono sampleLibrary samplePolicy fallenFact, ∀ raw, ∃ page block,
      gather fallenFact .nightly c.seed.sourcePath raw none false = some (page, block) ∧
        ¬ Carries page block c.seed.factId := by
  have hskipped : (sweepCases sampleChrono sampleLibrary samplePolicy fallenFact
      ["alice".toList] 0 0 [] .contradiction).any (fun c => !c.2.isEmpty &&
        allOnOnePageTheReadingWillOpen c.1 c.2 ["wikis/alice/notes.md".toList] &&
          c.1.supersededAt.isSome) = true := by
    decide +kernel
  obtain ⟨⟨seed, candidates⟩, hcase, hprops⟩ := List.any_eq_true.mp hskipped
  simp only [Bool.and_eq_true, Bool.not_eq_true', List.isEmpty_eq_false_iff] at hprops
  obtain ⟨⟨hasked, hskip⟩, hfell⟩ := hprops
  let c : SkippedCase sampleChrono sampleLibrary samplePolicy fallenFact :=
    ⟨.contradiction, _, 0, 0, [], _, seed, candidates, hcase, hasked, hskip⟩
  refine ⟨c, fun raw => ?_⟩
  obtain ⟨hseed, -, -, hstand⟩ := sweepCases_spec hcase
  obtain ⟨r, hr⟩ := List.exists_mem_of_ne_nil candidates hasked
  have hpage : r.sourcePath = seed.sourcePath := by
    simpa using List.all_eq_true.mp (Bool.and_eq_true_iff.mp hskip).2 r hr
  obtain ⟨⟨page, block⟩, hgather⟩ := Option.isSome_iff_exists.mp
    ((@gather_isSome_iff fallenFact .nightly seed.sourcePath raw none false).mpr
      ⟨r.factId, hpage ▸ hstand r hr⟩)
  refine ⟨page, block, hgather, ?_⟩
  rw [carries_iff hgather]
  rintro ⟨seed', hseed', hactive, -⟩
  rw [Sql.Table.get?_eq_some_iff.mpr ⟨hseed, rfl⟩, Option.some.injEq] at hseed'
  rw [← hseed', FactRow.isActive, Bool.and_eq_true, Option.isNone_iff_eq_none] at hactive
  change seed.supersededAt.isSome = true at hfell
  rw [hactive.1] at hfell
  cases hfell

end Rem

end Mwe
