import MweCore.Compiler.Sheet
import MweCore.Planner.Carried
import MweCore.Planner.Contents
import MweCore.Planner.Named

/-!
# A plan that is kept

When no fact is new, none has gone and none reads differently, a build keeps the last plan and
builds nothing.  What it asks for that is less than what a build would look at: it counts the facts
that have gone without those of the pages that are placed again, and it compares texts, where a
build also looks at kinds, names, styles and the people who are enrolled.  `reuse_exact_iff` says
when the plan that is kept is the one the carried assignments would have made.
-/

namespace Mwe.Planner

open Compiler

/-! ## Assignments that land where they say -/

/-- A fact that is assigned to a key gets there: the page that has the key takes it, or the key is
one a page can be made under. -/
structure Keeps (casing : Casing) (pages : SlugMap PagePlan) (key : Str) (fact : FactForPage) :
    Prop where
  takes : ∀ page : PagePlan, pages[key]? = some page → turnsAway casing page fact = false
  free : pages[key]? = none → isReservedPageStem key = false ∧ slugify key = key

section

variable {casing : Casing} {facts : SlugMap FactForPage} {redirects : SlugMap Str}
  {pages : SlugMap PagePlan} {minted : List Str} {a : Assignment} {assignments : List Assignment}
  {fact : FactForPage} {key slug : Str}

/-- An assignment that is kept lands where it says. -/
lemma Keeps.landing (h : Keeps casing pages key fact) {id : Str} (hfact : facts[id]? = some fact)
    (hid : fact.factId.val = id) :
    landing casing facts ∅ pages minted ⟨id, key⟩ = some (fact, key) := by
  subst hid
  rw [Planner.landing, hfact, Option.bind_some]
  dsimp only
  cases hpage : pages[key]? with
  | some page =>
    have hknown : knownKey pages minted key = true := by
      rw [knownKey, Std.TreeMap.contains_eq_isSome_getElem?, hpage]
      rfl
    have hslug : resolveSlug (knownKey pages minted) ∅ fact ⟨fact.factId.val, key⟩ = key := by
      simp [resolveSlug, redirected, hknown]
    rw [hslug, hknown, if_neg (by simp), hpage, Option.any_some, h.takes page hpage,
      if_neg (by simp)]
  | none =>
    obtain ⟨hfree, hkey⟩ := h.free hpage
    rw [resolveSlug_of_key _ hkey hfree, hfree, Bool.and_false, if_neg (by simp), hpage,
      Option.any_none, if_neg (by simp)]

/-- Assignments that are kept land one by one. -/
lemma landings_of_keeps (h : ∀ a ∈ assignments, ∀ fact : FactForPage,
    facts[a.factId]? = some fact → fact.factId.val = a.factId ∧
      Keeps casing pages a.pageSlug fact) :
    landings casing facts ∅ pages minted assignments =
      assignments.filterMap fun a => facts[a.factId]?.map fun fact => (fact, a.pageSlug) := by
  induction assignments generalizing minted with
  | nil => rfl
  | cons a rest ih =>
    have hland : landing casing facts ∅ pages minted a =
        facts[a.factId]?.map fun fact => (fact, a.pageSlug) := by
      cases hfact : facts[a.factId]? with
      | none => rw [landing, hfact]; rfl
      | some fact =>
        obtain ⟨hid, hkeeps⟩ := h a List.mem_cons_self fact hfact
        exact hkeeps.landing hfact hid
    rw [landings, hland, ih fun a ha => h a (List.mem_cons_of_mem _ ha), List.filterMap_cons]
    cases facts[a.factId]? <;> rfl

/-- A key that is not known has been respelled. -/
lemma slugify_resolveSlug {known : Str → Bool}
    (hunknown : known (resolveSlug known redirects fact a) = false) :
    slugify (resolveSlug known redirects fact a) = resolveSlug known redirects fact a := by
  have hredirected : ∀ slug : Str,
      redirected redirects (if known a.pageSlug then a.pageSlug else slugify a.pageSlug) = slug →
        known slug = false → slugify slug = slug := by
    rintro slug rfl hslug
    unfold redirected at hslug ⊢
    split at hslug
    · exact slugify_slugify _
    · split at hslug
      · next hknown => simp [hknown] at hslug
      · next hknown =>
        rw [if_neg hknown]
        exact slugify_slugify _
  unfold resolveSlug at hunknown ⊢
  dsimp only at hunknown ⊢
  generalize hslug : redirected redirects
    (if known a.pageSlug then a.pageSlug else slugify a.pageSlug) = slug at hunknown ⊢
  by_cases hknown : known slug
  · simp [hknown] at hunknown
  · rw [if_neg hknown] at hunknown ⊢
    by_cases hcard : namesTheCard a.pageSlug ∧ known (planSlugForPage fact.sourceWikiId a.pageSlug)
    · simp [hcard.1, hcard.2] at hunknown
    · have hsame : (if namesTheCard a.pageSlug then
          if known (planSlugForPage fact.sourceWikiId a.pageSlug) then
            planSlugForPage fact.sourceWikiId a.pageSlug
          else slug
        else slug) = slug := by
        rw [not_and] at hcard
        split
        · next h => rw [if_neg (hcard h)]
        · rfl
      rw [hsame] at hunknown ⊢
      exact hredirected slug hslug hunknown

/-- A fact lands only where it is kept. -/
lemma keeps_of_landing (hminted : ∀ key ∈ minted, pages[key]? = none →
      isReservedPageStem key = false ∧ slugify key = key)
    (h : landing casing facts redirects pages minted a = some (fact, slug)) :
    Keeps casing pages slug fact := by
  unfold landing at h
  obtain ⟨fact', -, h⟩ := Option.bind_eq_some_iff.mp h
  dsimp only at h
  split at h
  · cases h
  · next hkept =>
    split at h
    · cases h
    · next haway =>
      obtain ⟨rfl, hslug⟩ := Prod.mk.inj (Option.some.inj h)
      rw [hslug] at hkept haway
      constructor
      · intro page hpage
        simpa [hpage] using haway
      · intro hnone
        cases hknown : minted.contains slug with
        | true => exact hminted slug (List.contains_iff_mem.mp hknown) hnone
        | false =>
          have hunknown : knownKey pages minted slug = false := by
            rw [knownKey, Std.TreeMap.contains_eq_isSome_getElem?, hnone, hknown]
            rfl
          have hkey := @slugify_resolveSlug redirects a fact' (knownKey pages minted)
            (by rw [hslug, hunknown])
          rw [hslug] at hkey
          exact ⟨by simpa [hunknown] using hkept, hkey⟩

/-- Every fact that lands is kept where it lands. -/
lemma keeps_of_mem_landings (hminted : ∀ key ∈ minted, pages[key]? = none →
      isReservedPageStem key = false ∧ slugify key = key) :
    ∀ x ∈ landings casing facts redirects pages minted assignments,
      Keeps casing pages x.2 x.1 := by
  induction assignments generalizing minted with
  | nil => simp [landings]
  | cons a rest ih =>
    intro x hx
    rw [landings, List.mem_append] at hx
    cases hland : landing casing facts redirects pages minted a with
    | none =>
      rw [hland] at hx
      exact ih hminted x (hx.resolve_left (by simp))
    | some y =>
      obtain ⟨fact, slug⟩ := y
      have hkeeps := keeps_of_landing hminted hland
      rw [hland] at hx
      obtain hx | hx := hx
      · rw [Option.toList_some, List.mem_singleton] at hx
        subst hx
        exact hkeeps
      · refine ih (fun key hkey hnone => ?_) x hx
        unfold mintedBy at hkey
        dsimp only at hkey
        split at hkey
        · exact hminted key hkey hnone
        · obtain rfl | hkey := List.mem_cons.mp hkey
          · exact hkeeps.free hnone
          · exact hminted key hkey hnone

/-- A card takes what is reserved for it. -/
lemma keeps_of_identityCardTarget {all : List FactForPage} {landed : List (FactForPage × Str)} :
    ∀ x ∈ fallbacks casing pages all landed, Keeps casing pages x.2 x.1 := by
  rintro x hx
  obtain ⟨f, -, hf⟩ := List.mem_filterMap.mp hx
  split at hf
  · next hbelongs =>
    obtain ⟨slug, htarget, rfl⟩ := Option.map_eq_some_iff.mp hf
    obtain ⟨page, hpage, hcard⟩ := exists_of_identityCardTarget htarget
    have hexternal : f.subjectExternal.isSome = false := by
      unfold identityCardTarget at htarget
      split at htarget
      · cases htarget
      · next h => simpa using h
    rw [factBelongsOnACard, FactIndex.belongsOnAnIdentityCard] at hbelongs
    simp only [Bool.and_eq_true, Bool.not_eq_true'] at hbelongs
    refine ⟨fun page' hpage' => ?_, fun hnone => ?_⟩
    · rw [turnsAway, hexternal, hbelongs.1.1, hbelongs.2]
      simp
    · rw [hpage] at hnone
      cases hnone
  · cases hf

end

/-! ## The plan of the carried assignments -/

namespace BuildInput

variable (input : BuildInput) (prev : CompilationPlan)

/-- The plan a full build makes of the carried assignments alone. -/
def carriedPlan : CompilationPlan := input.finished (input.built (input.carriedOver prev) {}).1

/-- The pages the carried assignments find. -/
def pagesKept : SlugMap PagePlan :=
  Planner.pagesThereAre input.facts input.foundation (input.carriedOver prev) {} input.registry
    input.now

/-- The facts of a page of the last plan as they are now. -/
def rowsOn (key : Str) : List FactForPage :=
  ((prev.pages[key]?.map PagePlan.primaryFacts).getD []).filterMap fun f =>
    (factMap input.facts)[f.factId.val]?

/-- A page of the last plan made anew: who is enrolled, the registry and the facts say what it is
now. -/
def pageAnew (key : Str) : Option PagePlan :=
  ((pageFor input.casing (input.pagesKept prev) (input.rowsOn prev key) key).map fun page =>
    restyled input.foundation key (page.withFacts (input.rowsOn prev key))).filter fun page =>
      !isEmptyPage page

/-- What a page that is made anew is written from. -/
def sheetAnew (lookup : Lookup) (key : Str) : Option Sheet :=
  (input.pageAnew prev key).map fun page =>
    sheet lookup (input.healCard (page.withLinks []
      (owedLinks (fun key => (input.pageAnew prev key).isSome)
        ((input.proseLinks page.address).getD []) key prev.authoredRails)))

/-- The facts the carried assignments name, each with its page. -/
def carriedLandings : List (FactForPage × Str) :=
  (input.carriedOver prev).filterMap fun a =>
    (factMap input.facts)[a.factId]?.map fun fact => (fact, a.pageSlug)

end BuildInput

/-- The early skip is exact: the plan that is kept has the facts where the carried assignments put
them, lists no fact that has gone, and has every page to compile that would be written from
something else. -/
structure ReuseExact (input : BuildInput) (lookup : Lookup) (prev : CompilationPlan) : Prop where
  placement : ∀ key factId, countAt (buildWikiPlan input).pages key factId =
    countAt (input.carriedPlan prev).pages key factId
  current : ∀ key factId, 0 < countAt (buildWikiPlan input).pages key factId →
    input.isCurrent factId.val = true
  dirty : ∀ key : Str, key ∉ (buildWikiPlan input).dirtyPages →
    (buildWikiPlan input).pages[key]?.map (sheet lookup) =
      (input.carriedPlan prev).pages[key]?.map (sheet lookup)

/-- The last plan is what its facts, the registry and the enrolment would make it now. -/
structure UpToDate (input : BuildInput) (lookup : Lookup) (prev : CompilationPlan) : Prop where
  /-- no page that is placed again holds a fact -/
  reopened : ∀ key ∈ input.reopen prev, ∀ page : PagePlan, prev.pages[key]? = some page →
    page.primaryFacts = []
  /-- each fact is still one its page takes, under a key a page may have -/
  kept : ∀ (key : Str) (page : PagePlan), prev.pages[key]? = some page →
    ∀ f ∈ page.primaryFacts, ∀ g ∈ input.facts, g.factId = f.factId →
      Keeps input.casing (input.pagesKept prev) key g
  /-- a page that nobody has marked is what it would be made anew -/
  sheets : ∀ key : Str, ¬ (key ∈ prev.forceDirty ∧ prev.pages.contains key = true) →
    prev.pages[key]?.map (fun page => sheet lookup (input.healCard page)) =
      input.sheetAnew prev lookup key

/-! ## What the early skip has looked at -/

section

variable {input : BuildInput} {prev : CompilationPlan} {key : Str} {page : PagePlan}
  {f : FactForPage}

lemma getElem?_foldl_insertAll {l : List (Str × Str)} {map : SlugMap Str} {id slug : Str}
    (h : (l.foldl (fun map x => map.insert x.1 x.2) map)[id]? = some slug) :
    (id, slug) ∈ l ∨ map[id]? = some slug := by
  induction l generalizing map with
  | nil => exact .inr h
  | cons x l ih =>
    obtain hmem | hmap := ih h
    · exact .inl (List.mem_cons_of_mem x hmem)
    · rw [Std.TreeMap.getElem?_insert] at hmap
      split at hmap
      · next hkey =>
        rw [Std.compare_eq_iff_eq] at hkey
        obtain rfl := Option.some.inj hmap
        exact .inl (hkey ▸ List.mem_cons_self)
      · exact .inr hmap

lemma contains_foldl_insertAll {l : List (Str × Str)} {map : SlugMap Str} {id : Str} :
    (l.foldl (fun map x => map.insert x.1 x.2) map).contains id =
      (l.any (fun x => x.1 == id) || map.contains id) := by
  induction l generalizing map with
  | nil => simp
  | cons x l ih =>
    have hkey : (compare x.1 id == .eq) = (x.1 == id) := by
      rw [Bool.eq_iff_iff, beq_iff_eq, beq_iff_eq, Std.compare_eq_iff_eq]
    rw [List.foldl_cons, ih, Std.TreeMap.contains_insert, List.any_cons, hkey]
    cases l.any fun x => x.1 == id <;> simp

/-- What is assigned is on its page. -/
lemma exists_of_extractAssigned {id slug : Str}
    (h : (extractAssignedFactIds prev)[id]? = some slug) :
    ∃ page : PagePlan, prev.pages[slug]? = some page ∧
      ∃ f ∈ page.primaryFacts, f.factId.val = id := by
  obtain hmem | hempty := getElem?_foldl_insertAll h
  · obtain ⟨⟨key, page⟩, hpage, hmem⟩ := List.mem_flatMap.mp hmem
    obtain ⟨f, hf, heq⟩ := List.mem_map.mp hmem
    obtain ⟨rfl, rfl⟩ := Prod.mk.inj heq
    exact ⟨page, Std.TreeMap.mem_toList_iff_getElem?_eq_some.mp hpage, f, hf, rfl⟩
  · simp at hempty

/-- What is on a page is assigned somewhere. -/
lemma exists_extractAssigned (hpage : prev.pages[key]? = some page) (hf : f ∈ page.primaryFacts) :
    ∃ slug, (extractAssignedFactIds prev)[f.factId.val]? = some slug := by
  rw [← Option.isSome_iff_exists, ← Std.TreeMap.contains_eq_isSome_getElem?,
    extractAssignedFactIds, contains_foldl_insertAll, Bool.or_eq_true]
  refine .inl (List.any_eq_true.mpr ⟨(f.factId.val, key), List.mem_flatMap.mpr
    ⟨(key, page), Std.TreeMap.mem_toList_iff_getElem?_eq_some.mpr hpage, ?_⟩, by simp⟩)
  exact List.mem_map.mpr ⟨f, hf, rfl⟩

/-- A plan that is kept has every fact there is on a page that keeps its facts. -/
lemma exists_page_of_reuses (hreuse : input.reuses prev = true) (hf : f ∈ input.facts) :
    ∃ (key : Str) (page : PagePlan), prev.pages[key]? = some page ∧ key ∉ input.reopen prev ∧
      ∃ g ∈ page.primaryFacts, g.factId = f.factId := by
  have hnew : (input.newFacts prev).isEmpty = true := by
    simp only [BuildInput.reuses, Bool.and_eq_true] at hreuse
    exact hreuse.1.1
  rw [List.isEmpty_iff, BuildInput.newFacts, List.filter_eq_nil_iff] at hnew
  have hassigned := hnew f hf
  rw [Bool.not_eq_true', Bool.not_eq_false, Std.TreeMap.contains_eq_isSome_getElem?,
    BuildInput.prevAssigned, Std.TreeMap.getElem?_filter'] at hassigned
  obtain ⟨slug, hslug⟩ := Option.isSome_iff_exists.mp hassigned
  obtain ⟨hslug, hkept⟩ := Option.filter_eq_some_iff.mp hslug
  obtain ⟨page, hpage, g, hg, hid⟩ := exists_of_extractAssigned hslug
  exact ⟨slug, page, hpage, by simpa using hkept, g, hg, FactId.val_injective hid⟩

/-- When the pages that are placed again hold nothing, a plan that is kept lists no fact that has
gone. -/
lemma isCurrent_of_reuses (hreuse : input.reuses prev = true)
    (hreopened : ∀ key ∈ input.reopen prev, ∀ page : PagePlan, prev.pages[key]? = some page →
      page.primaryFacts = [])
    (hpage : prev.pages[key]? = some page) (hf : f ∈ page.primaryFacts) :
    input.isCurrent f.factId.val = true := by
  have hremoved : input.removed prev = 0 := by
    simp only [BuildInput.reuses, Bool.and_eq_true, beq_iff_eq] at hreuse
    exact hreuse.1.2
  obtain ⟨slug, hslug⟩ := exists_extractAssigned hpage hf
  obtain ⟨page', hpage', g, hg, -⟩ := exists_of_extractAssigned hslug
  have hkept : slug ∉ input.reopen prev := fun hopen => by
    rw [hreopened slug hopen page' hpage'] at hg
    cases hg
  have hassigned : f.factId.val ∈ (input.prevAssigned prev).keys := by
    rw [Std.TreeMap.mem_keys, Std.TreeMap.mem_iff_isSome_getElem?, BuildInput.prevAssigned,
      Std.TreeMap.getElem?_filter', hslug]
    simp [hkept]
  rw [BuildInput.removed, List.length_eq_zero_iff, List.filter_eq_nil_iff] at hremoved
  simpa using hremoved _ hassigned

end

/-! ## What a full build would make -/

section

variable {input : BuildInput} {prev : CompilationPlan} {key : Str} {factId : FactId}
  {f : FactForPage} {x : FactForPage × Str} {landed : List (FactForPage × Str)}

lemma mem_carriedOver {a : Assignment} (h : a ∈ input.carriedOver prev) :
    ∃ page : PagePlan, prev.pages[a.pageSlug]? = some page ∧ a.pageSlug ∉ input.reopen prev ∧
      ∃ f ∈ page.primaryFacts, f.factId.val = a.factId := by
  obtain ⟨⟨key, page⟩, hpage, ha⟩ := List.mem_flatMap.mp h
  dsimp only at ha
  split at ha
  · cases ha
  · next hkept =>
    obtain ⟨f, hf, rfl⟩ := List.mem_map.mp ha
    exact ⟨page, Std.TreeMap.mem_toList_iff_getElem?_eq_some.mp hpage, by simpa using hkept, f,
      (List.mem_filter.mp hf).1, rfl⟩

lemma mem_carriedOver_of {page : PagePlan} (hpage : prev.pages[key]? = some page)
    (hkept : key ∉ input.reopen prev) (hf : f ∈ page.primaryFacts)
    (hcurrent : input.isCurrent f.factId.val = true) :
    ⟨f.factId.val, key⟩ ∈ input.carriedOver prev := by
  refine List.mem_flatMap.mpr
    ⟨(key, page), Std.TreeMap.mem_toList_iff_getElem?_eq_some.mpr hpage, ?_⟩
  rw [if_neg (by simpa using hkept)]
  exact List.mem_map.mpr ⟨f, List.mem_filter.mpr ⟨hf, hcurrent⟩, rfl⟩

/-- A current id is that of a fact there is. -/
lemma exists_of_isCurrent (hnodup : (input.facts.map FactForPage.factId).Nodup)
    (h : input.isCurrent factId.val = true) :
    ∃ g ∈ input.facts, g.factId = factId ∧ (factMap input.facts)[factId.val]? = some g := by
  obtain ⟨g, hg, hid⟩ := List.any_eq_true.mp h
  obtain rfl := FactId.val_injective (beq_iff_eq.mp hid)
  exact ⟨g, hg, rfl, getElem?_factMap hnodup hg⟩

/-- The facts of an assignment that lands are facts there are. -/
lemma mem_facts_of_mem_landings {casing : Casing} {facts : List FactForPage}
    {redirects : SlugMap Str} {pages : SlugMap PagePlan} {minted : List Str}
    {assignments : List Assignment}
    (h : x ∈ landings casing (factMap facts) redirects pages minted assignments) : x.1 ∈ facts := by
  induction assignments generalizing minted with
  | nil => cases h
  | cons a rest ih =>
    obtain hfirst | hrest := List.mem_append.mp h
    · rw [Option.mem_toList, landing] at hfirst
      obtain ⟨fact, hfact, hland⟩ := Option.bind_eq_some_iff.mp hfirst
      dsimp only at hland
      split at hland
      · cases hland
      · split at hland
        · cases hland
        · obtain rfl := Option.some.inj hland
          exact (mem_of_getElem?_factMap hfact).1
    · exact ih hrest

lemma countOn_eq_countP_landedOn :
    countOn landed key factId = (landedOn landed key).countP fun f => f.factId = factId := by
  rw [countOn, landedOn, List.countP_map, List.countP_filter]
  refine List.countP_congr fun x _ => ?_
  simp

lemma landedOn_append (l l' : List (FactForPage × Str)) :
    landedOn (l ++ l') key = landedOn l key ++ landedOn l' key := by
  simp [landedOn]

/-- The part of a sorted list that belongs to one key. -/
lemma flatMap_of_key {β γ : Type} (map : SlugMap β) (g : β → List γ) :
    map.toList.flatMap (fun x => if x.1 = key then g x.2 else []) =
      (map[key]?.map g).getD [] := by
  have hdistinct := Std.TreeMap.distinct_keys_toList (t := map)
  rw [← find?_toList map key]
  generalize map.toList = l at hdistinct
  induction l with
  | nil => rfl
  | cons x l ih =>
    obtain ⟨hfirst, hrest⟩ := List.pairwise_cons.mp hdistinct
    rw [List.flatMap_cons, ih hrest, List.find?_cons]
    by_cases hkey : x.1 = key
    · have hnone : l.find? (fun y => y.1 == key) = none := by
        refine List.find?_eq_none.mpr fun y hy heq => hfirst y hy ?_
        rw [Std.compare_eq_iff_eq, hkey, beq_iff_eq.mp heq]
      simp [hkey, hnone]
    · rw [if_neg hkey, beq_eq_false_iff_ne.mpr hkey]
      rfl

lemma landedOn_flatMap {β : Type} (l : List β) (g : β → List (FactForPage × Str)) :
    landedOn (l.flatMap g) key = l.flatMap fun b => landedOn (g b) key := by
  rw [landedOn, List.filter_flatMap, List.map_flatMap]
  rfl

/-- The assignments of one page name its facts in their order. -/
lemma landedOn_page (slug : Str) (l : List FactForPage) :
    landedOn (((l.filter fun f => input.isCurrent f.factId.val).map fun f =>
        (⟨f.factId.val, slug⟩ : Assignment)).filterMap fun a =>
          (factMap input.facts)[a.factId]?.map fun fact => (fact, a.pageSlug)) key =
      if slug = key then l.filterMap fun f => (factMap input.facts)[f.factId.val]? else [] := by
  induction l with
  | nil => simp
  | cons f l ih =>
    cases hfact : (factMap input.facts)[f.factId.val]? with
    | none =>
      rw [List.filterMap_cons, hfact, ← ih]
      by_cases hcurrent : input.isCurrent f.factId.val = true
      · simp [hcurrent, hfact]
      · simp [hcurrent]
    | some g =>
      obtain ⟨hg, hid⟩ := mem_of_getElem?_factMap hfact
      have hcurrent : input.isCurrent f.factId.val = true :=
        List.any_eq_true.mpr ⟨g, hg, beq_iff_eq.mpr hid⟩
      rw [List.filter_cons, if_pos hcurrent, List.map_cons, List.filterMap_cons, hfact,
        Option.map_some]
      dsimp only
      rw [landedOn_cons, ih, List.filterMap_cons, hfact]
      split <;> rfl

/-- The carried assignments name the facts of each page in the order of the page. -/
lemma landedOn_carriedLandings (hreopened : ∀ key ∈ input.reopen prev, ∀ page : PagePlan,
      prev.pages[key]? = some page → page.primaryFacts = []) :
    landedOn (input.carriedLandings prev) key = input.rowsOn prev key := by
  rw [BuildInput.carriedLandings, BuildInput.carriedOver, List.filterMap_flatMap,
    landedOn_flatMap, BuildInput.rowsOn]
  have hpages : ∀ x ∈ prev.pages.toList,
      landedOn ((if (input.reopen prev).contains x.1 then []
        else ((PagePlan.primaryFacts x.2).filter fun f => input.isCurrent f.factId.val).map fun f =>
          (⟨f.factId.val, x.1⟩ : Assignment)).filterMap fun a =>
            (factMap input.facts)[a.factId]?.map fun fact => (fact, a.pageSlug)) key =
        if x.1 = key then (PagePlan.primaryFacts x.2).filterMap fun f =>
          (factMap input.facts)[f.factId.val]? else [] := by
    rintro ⟨slug, page⟩ hpage
    rw [Std.TreeMap.mem_toList_iff_getElem?_eq_some] at hpage
    dsimp only
    split
    · next hopen =>
      rw [hreopened slug (List.contains_iff_mem.mp hopen) page hpage]
      simp
    · exact landedOn_page slug page.primaryFacts
  rw [List.flatMap_congr hpages, flatMap_of_key prev.pages fun page =>
    (PagePlan.primaryFacts page).filterMap fun f => (factMap input.facts)[f.factId.val]?]
  cases prev.pages[key]? <;> rfl

/-- The carried assignments land where they say when their pages keep their facts. -/
lemma landings_carriedOver
    (hkept : ∀ (key : Str) (page : PagePlan), prev.pages[key]? = some page →
      ∀ f ∈ page.primaryFacts, ∀ g ∈ input.facts, g.factId = f.factId →
        Keeps input.casing (input.pagesKept prev) key g) :
    landings input.casing (factMap input.facts) ∅ (input.pagesKept prev) []
      (input.carriedOver prev) = input.carriedLandings prev := by
  refine landings_of_keeps fun a ha fact hfact => ?_
  obtain ⟨hmem, hid⟩ := mem_of_getElem?_factMap hfact
  obtain ⟨page, hpage, -, f, hf, hsame⟩ := mem_carriedOver ha
  exact ⟨hid, hkept a.pageSlug page hpage f hf fact hmem
    (FactId.val_injective (hid.trans hsame.symm))⟩

/-- A plan that is kept has an assignment for each fact there is. -/
lemma exists_mem_carriedLandings (hnodup : (input.facts.map FactForPage.factId).Nodup)
    (hreuse : input.reuses prev = true) (hf : f ∈ input.facts) :
    ∃ x ∈ input.carriedLandings prev, x.1.factId = f.factId := by
  obtain ⟨key, page, hpage, hkept, g, hg, hid⟩ := exists_page_of_reuses hreuse hf
  have hfact := getElem?_factMap hnodup hf
  have hcurrent : input.isCurrent g.factId.val = true :=
    List.any_eq_true.mpr ⟨f, hf, beq_iff_eq.mpr (congrArg FactId.val hid.symm)⟩
  have hassigned := mem_carriedOver_of hpage hkept hg hcurrent
  refine ⟨(f, key), List.mem_filterMap.mpr ⟨_, hassigned, ?_⟩, rfl⟩
  dsimp only
  rw [hid, hfact]
  rfl

/-- Where the carried assignments put the facts. -/
lemma countAt_carriedPlan :
    countAt (input.carriedPlan prev).pages key factId =
      countOn (placements input.casing input.facts input.foundation (input.carriedOver prev) {}
        input.registry input.now) key factId := by
  rw [BuildInput.carriedPlan, pages_finished, countAt_healPageCards]
  exact countAt_buildCompilationPlan

lemma pendingLinks_foundation {page : PagePlan} (h : input.foundation[key]? = some page) :
    page.pendingLinks = [] := by
  have hfold : ∀ (users groupSlugs : List Str) (pages : SlugMap PagePlan),
      (∀ page : PagePlan, pages[key]? = some page → page.pendingLinks = []) →
      ∀ page : PagePlan, (users.foldl (fun pages userId =>
        let slug := slugify userId
        if slug.isEmpty || groupSlugs.contains slug then pages
        else pages.insert slug (personPage input.casing userId)) pages)[key]? = some page →
          page.pendingLinks = [] := by
    intro users groupSlugs
    induction users with
    | nil => exact fun pages hpages => hpages
    | cons userId users ih =>
      refine fun pages hpages => ih _ fun page hpage => ?_
      dsimp only at hpage
      split at hpage
      · exact hpages page hpage
      · rw [Std.TreeMap.getElem?_insert] at hpage
        split at hpage
        · rw [← Option.some.inj hpage]
          rfl
        · exact hpages page hpage
  exact hfold _ _ ∅ (by simp) page h

lemma pendingLinks_pagesKept {page : PagePlan} (h : (input.pagesKept prev)[key]? = some page) :
    page.pendingLinks = [] := by
  rw [BuildInput.pagesKept, getElem?_pagesThereAre] at h
  obtain hfoundation | ⟨-, hrest⟩ := Option.or_eq_some_iff.mp h
  · obtain ⟨page', hpage, rfl⟩ := Option.map_eq_some_iff.mp hfoundation
    have hnone := pendingLinks_foundation hpage
    exact hnone
  · obtain hentry | ⟨-, hproposal⟩ := Option.or_eq_some_iff.mp hrest
    · obtain ⟨e, -, rfl⟩ := Option.map_eq_some_iff.mp hentry
      rfl
    · cases hproposal

/-- What a full build would write each page from. -/
lemma sheet_carriedPlan {lookup : Lookup} (hprev : loadPreviousPlan input.dir = some prev)
    (hreopened : ∀ key ∈ input.reopen prev, ∀ page : PagePlan, prev.pages[key]? = some page →
      page.primaryFacts = [])
    (hland : landings input.casing (factMap input.facts) ∅ (input.pagesKept prev) []
      (input.carriedOver prev) = input.carriedLandings prev)
    (hall : ∀ f ∈ input.facts, ∃ x ∈ input.carriedLandings prev, x.1.factId = f.factId) :
    (input.carriedPlan prev).pages[key]?.map (sheet lookup) = input.sheetAnew prev lookup key := by
  have hkept : keptPage input.casing input.foundation (input.pagesKept prev)
      (input.carriedLandings prev) = input.pageAnew prev := by
    funext key
    rw [keptPage, landedOn_carriedLandings hreopened]
    rfl
  have hplan := @getElem?_buildCompilationPlan input.casing input.facts input.foundation
    { assignments := input.carriedOver prev } {} input.registry input.proseLinks
    prev.authoredRails input.now key (fun key page => pendingLinks_pagesKept)
    (fun f hf => by
      obtain ⟨x, hx, hid⟩ := hall f hf
      exact ⟨x, hland.symm ▸ hx, hid⟩)
  dsimp only at hplan
  rw [← BuildInput.pagesKept, hland, hkept] at hplan
  have hmap := congrArg (Option.map fun page => sheet lookup (input.healCard page)) hplan
  rw [Option.map_map, Option.map_map] at hmap
  rw [BuildInput.carriedPlan, pages_finished, BuildInput.healPageCards, BuildInput.built, hprev,
    Option.map_some, Option.getD_some, Std.TreeMap.getElem?_map, Option.map_map]
  exact hmap

/-- A fact is on its page once for each time the page lists it. -/
lemma countP_rowsOn (hnodup : (input.facts.map FactForPage.factId).Nodup)
    (hcurrent : ∀ page : PagePlan, prev.pages[key]? = some page → ∀ f ∈ page.primaryFacts,
      input.isCurrent f.factId.val = true) :
    ((input.rowsOn prev key).countP fun f => f.factId = factId) =
      countAt prev.pages key factId := by
  rw [BuildInput.rowsOn, countAt]
  cases hpage : prev.pages[key]? with
  | none => rfl
  | some page =>
    rw [Option.map_some, Option.map_some, Option.getD_some, Option.getD_some, PagePlan.count]
    have hfacts := hcurrent page hpage
    generalize page.primaryFacts = l at hfacts
    induction l with
    | nil => rfl
    | cons f l ih =>
      obtain ⟨g, -, hid, hfact⟩ :=
        exists_of_isCurrent hnodup (hfacts f List.mem_cons_self)
      rw [List.filterMap_cons, hfact]
      dsimp only
      rw [List.countP_cons, List.countP_cons, hid,
        ih fun f hf => hfacts f (List.mem_cons_of_mem _ hf)]

/-- A placement is of a fact there is, on a page that keeps it. -/
lemma keeps_of_mem_placements {casing : Casing} {facts : List FactForPage}
    {foundation : SlugMap PagePlan} {assignments : List Assignment}
    {conciliation : ConciliatorResult} {registry : ConceptRegistry} {now : Str}
    (h : x ∈ placements casing facts foundation assignments conciliation registry now) :
    x.1 ∈ facts ∧
      Keeps casing (pagesThereAre facts foundation assignments conciliation registry now) x.2
        x.1 := by
  obtain hland | hcard := List.mem_append.mp h
  · exact ⟨mem_facts_of_mem_landings hland, keeps_of_mem_landings (by simp) x hland⟩
  · refine ⟨?_, keeps_of_identityCardTarget x hcard⟩
    obtain ⟨f, hf, hx⟩ := List.mem_filterMap.mp hcard
    split at hx
    · obtain ⟨slug, -, rfl⟩ := Option.map_eq_some_iff.mp hx
      exact (List.mem_filter.mp hf).1
    · cases hx

/-- The cards take nothing when every fact has landed. -/
lemma fallbacks_eq_nil {casing : Casing} {facts : List FactForPage} {pages : SlugMap PagePlan}
    (h : ∀ f ∈ facts, ∃ x ∈ landed, x.1.factId = f.factId) :
    fallbacks casing pages facts landed = [] := by
  have hnobody : (facts.filter fun f =>
      !(landed.any fun x => x.1.factId.val == f.factId.val)) = [] := by
    refine List.filter_eq_nil_iff.mpr fun f hf => ?_
    obtain ⟨x, hx, hid⟩ := h f hf
    simpa using ⟨x.1, ⟨x.2, hx⟩, congrArg FactId.val hid⟩
  rw [fallbacks, hnobody, List.filterMap_nil]

end

/-- A plan is kept exactly where nothing but what the early skip looks at could have changed. -/
theorem reuse_exact_iff (input : BuildInput) (lookup : Lookup) {prev : CompilationPlan}
    (hprev : loadPreviousPlan input.dir = some prev) (hreuse : input.reuses prev = true)
    (hnodup : ((input.gathered ++ input.waiting).map FactForPage.factId).Nodup) :
    ReuseExact input lookup prev ↔ UpToDate input lookup prev := by
  have hfacts := nodup_facts hnodup
  have hplan : buildWikiPlan input = input.reusedPlan prev := by
    unfold buildWikiPlan
    rw [hprev]
    exact if_pos hreuse
  have hsheets : ∀ key : Str, (buildWikiPlan input).pages[key]?.map (sheet lookup) =
      prev.pages[key]?.map fun page => sheet lookup (input.healCard page) := by
    intro key
    rw [hplan, BuildInput.reusedPlan, BuildInput.healPageCards, Std.TreeMap.getElem?_map,
      Option.map_map]
    rfl
  have hdirty : ∀ key : Str, key ∉ (buildWikiPlan input).dirtyPages ↔
      ¬ (key ∈ prev.forceDirty ∧ prev.pages.contains key = true) := by
    intro key
    rw [hplan]
    exact not_congr List.mem_filter
  have hall : ∀ f ∈ input.facts, ∃ x ∈ input.carriedLandings prev, x.1.factId = f.factId :=
    fun f hf => exists_mem_carriedLandings hfacts hreuse hf
  have hcount : ∀ key factId, countAt (buildWikiPlan input).pages key factId =
      countAt prev.pages key factId := by
    intro key factId
    rw [hplan, countAt_reusedPlan]
  constructor
  · intro h
    -- a fact that the last plan lists is placed on the same page by the carried assignments
    have hplaced : ∀ (key : Str) (page : PagePlan), prev.pages[key]? = some page →
        ∀ f ∈ page.primaryFacts, ∃ x ∈ placements input.casing input.facts input.foundation
          (input.carriedOver prev) {} input.registry input.now,
            x.1.factId = f.factId ∧ x.2 = key := by
      intro key page hpage f hf
      rw [← countOn_pos_iff, ← countAt_carriedPlan, ← h.placement, hcount,
        countAt_of_getElem? hpage]
      exact PagePlan.count_pos_of_mem hf
    have hkept : ∀ (key : Str) (page : PagePlan), prev.pages[key]? = some page →
        ∀ f ∈ page.primaryFacts, ∀ g ∈ input.facts, g.factId = f.factId →
          Keeps input.casing (input.pagesKept prev) key g := by
      intro key page hpage f hf g hg hid
      obtain ⟨x, hx, hsame, rfl⟩ := hplaced key page hpage f hf
      obtain ⟨hmem, hkeeps⟩ := keeps_of_mem_placements hx
      rw [List.inj_on_of_nodup_map hfacts hg hmem (hid.trans hsame.symm)]
      exact hkeeps
    have hland := landings_carriedOver hkept
    have hreopened : ∀ key ∈ input.reopen prev, ∀ page : PagePlan,
        prev.pages[key]? = some page → page.primaryFacts = [] := by
      intro key hopen page hpage
      refine List.eq_nil_iff_forall_not_mem.mpr fun f hf => ?_
      obtain ⟨x, hx, -, rfl⟩ := hplaced key page hpage f hf
      have hpart := List.mem_append.mp hx
      rw [← BuildInput.pagesKept, hland, fallbacks_eq_nil hall] at hpart
      obtain ⟨a, ha, hfact⟩ := List.mem_filterMap.mp (hpart.resolve_right (by simp))
      obtain ⟨fact, -, rfl⟩ := Option.map_eq_some_iff.mp hfact
      obtain ⟨-, -, hclosed, -⟩ := mem_carriedOver ha
      exact hclosed hopen
    refine ⟨hreopened, hkept, fun key hkey => ?_⟩
    rw [← hsheets, ← sheet_carriedPlan hprev hreopened hland hall]
    exact h.dirty key ((hdirty key).mpr hkey)
  · intro h
    have hland := landings_carriedOver h.kept
    have hcurrent : ∀ (key : Str) (page : PagePlan), prev.pages[key]? = some page →
        ∀ f ∈ page.primaryFacts, input.isCurrent f.factId.val = true :=
      fun key page hpage f hf => isCurrent_of_reuses hreuse h.reopened hpage hf
    refine ⟨fun key factId => ?_, fun key factId hpos => ?_, fun key hkey => ?_⟩
    · rw [hcount, countAt_carriedPlan, placements]
      dsimp only
      rw [← BuildInput.pagesKept, hland, fallbacks_eq_nil hall, List.append_nil,
        countOn_eq_countP_landedOn, landedOn_carriedLandings h.reopened,
        countP_rowsOn hfacts (hcurrent key)]
    · rw [hcount] at hpos
      obtain ⟨page, hpage⟩ := exists_of_countAt_pos hpos
      rw [countAt_of_getElem? hpage] at hpos
      obtain ⟨f, hf, rfl⟩ := PagePlan.exists_of_count_pos hpos
      exact hcurrent key page hpage f hf
    · rw [hsheets, sheet_carriedPlan hprev h.reopened hland hall]
      exact h.sheets key ((hdirty key).mp hkey)

/-! ### A fact that is gone from a page that is placed again -/

/-- A build after one in which the settled fact was on its page. -/
def afterwards (gathered : List FactForPage) (reopenPages : List Str) : BuildInput where
  casing := ⟨fun c => [c], id⟩
  gathered := gathered
  dir :=
    { plan := some
        { pages := .ofList [("orto".toList, conceptPage "orto".toList [settled])]
          generatedAt := []
          factCount := 1
          reopenPages := reopenPages }
      registry := some
        { version := registryVersion
          entries := .ofList [("orto".toList, conceptEntry "orto".toList)]
          generatedAt := [] } }
  placement := .cartografo fun _ => none
  now := []

/-- Nothing to look up. -/
def noLookup : Lookup := ⟨⟨fun c => [c], id⟩, fun _ => false, fun _ => false, fun _ => none⟩

/-- The page is found under its key and no other. -/
lemma eq_orto_of_getElem? {page : PagePlan} {pages : SlugMap PagePlan} {key : Str}
    (hpages : pages.toList = [("orto".toList, page)]) {page' : PagePlan}
    (hpage : pages[key]? = some page') : key = "orto".toList ∧ page' = page := by
  have hmem := Std.TreeMap.mem_toList_iff_getElem?_eq_some.mpr hpage
  rw [hpages, List.mem_singleton] at hmem
  exact Prod.mk.inj hmem

/-- A plan whose facts are all there as they were is kept as it would be built. -/
theorem reuse_exact_unchanged :
    ∃ prev, loadPreviousPlan (afterwards [settled] []).dir = some prev ∧
      (afterwards [settled] []).reuses prev = true ∧
      ReuseExact (afterwards [settled] []) noLookup prev := by
  set input := afterwards [settled] [] with hinput
  obtain ⟨prev, hprev, hpages⟩ : ∃ prev, loadPreviousPlan input.dir = some prev ∧
      prev.pages.toList = [("orto".toList, conceptPage "orto".toList [settled])] :=
    ⟨_, rfl, by decide +kernel⟩
  have hkept : (input.pagesKept prev).toList =
      [("orto".toList, registryToPage (conceptEntry "orto".toList))] := by
    obtain rfl := Option.some.inj hprev
    decide +kernel
  refine ⟨prev, hprev, by obtain rfl := Option.some.inj hprev; decide +kernel,
    (reuse_exact_iff _ _ hprev (by obtain rfl := Option.some.inj hprev; decide +kernel)
      (by decide)).mpr ⟨?_, ?_, ?_⟩⟩
  · intro key hopen
    obtain rfl := Option.some.inj hprev
    cases hopen
  · intro key page hpage f hf g hg hid
    obtain ⟨rfl, rfl⟩ := eq_orto_of_getElem? hpages hpage
    obtain rfl : g = settled := by
      rw [hinput] at hg
      simpa [afterwards] using (List.perm_insertionSort _ _).mem_iff.mp hg
    refine ⟨fun page hpage => ?_, fun hnone => ?_⟩
    · rw [(eq_orto_of_getElem? hkept hpage).2]
      decide
    · have hmem := Std.TreeMap.mem_toList_iff_getElem?_eq_some.mp
        (hkept.symm ▸ List.mem_singleton_self _)
      rw [hnone] at hmem
      cases hmem
  · rintro key -
    by_cases horto : key = "orto".toList
    · subst horto
      obtain rfl := Option.some.inj hprev
      decide +kernel
    · have hnone : prev.pages[key]? = none := by
        cases hpage : prev.pages[key]? with
        | none => rfl
        | some page => exact absurd (eq_orto_of_getElem? hpages hpage).1 horto
      have hkeptNone : (input.pagesKept prev)[key]? = none := by
        cases hpage : (input.pagesKept prev)[key]? with
        | none => rfl
        | some page => exact absurd (eq_orto_of_getElem? hkept hpage).1 horto
      simp [BuildInput.sheetAnew, BuildInput.pageAnew, BuildInput.rowsOn, pageFor, hnone, hkeptNone]

/-- A fact that has gone stays listed on a page that is to be placed again. -/
theorem reopened_page_lists_gone :
    ¬ ∀ (input : BuildInput) (lookup : Lookup) (prev : CompilationPlan),
      loadPreviousPlan input.dir = some prev → input.reuses prev = true →
        ((input.gathered ++ input.waiting).map FactForPage.factId).Nodup →
          ReuseExact input lookup prev := by
  intro h
  have hexact := h (afterwards [] ["orto".toList]) noLookup _ rfl (by decide +kernel) (by decide)
  exact absurd (hexact.current "orto".toList settled.factId (by decide +kernel)) (by decide +kernel)

end Mwe.Planner
