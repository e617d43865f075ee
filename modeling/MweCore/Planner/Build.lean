import MweCore.Planner.Plan

/-!
# Building the plan

`buildCompilationPlan` makes the pages there are (foundation, registry, accepted proposals), puts
each fact on the page its assignment names, and lets the identity card take what is reserved for
it.  It then drops the pages that stayed empty and takes the links of each page from its prose.

An assignment names a page by a word somebody wrote, and which page that is depends on the pages
known by then.  `landings` follows the assignments with nothing but the keys that are known, and
`countAt_buildCompilationPlan` says that the facts of the plan are what `landings` lists, and what
the fallback adds.
-/

namespace Mwe.Planner

/-- The wiki no page lives in. -/
def rootWiki : Str := "root".toList

/-! ## The pages there are -/

/-- The facts by their ids. -/
def factMap (facts : List FactForPage) : SlugMap FactForPage :=
  facts.foldl (fun map f => map.insert f.factId.val f) ∅

/-- A slug once a redirect of it is followed. -/
def redirected (redirects : SlugMap Str) (slug : Str) : Str :=
  match redirects[slug]? with
  | some redir => slugify redir
  | none => slug

/-- The wiki of the first fact that is assigned to each slug. -/
def slugSourceWiki (facts : SlugMap FactForPage) (redirects : SlugMap Str)
    (assignments : List Assignment) : SlugMap Str :=
  assignments.foldl
    (fun wikis a =>
      match facts[a.factId]? with
      | none => wikis
      | some fact =>
        wikis.insertIfNew (redirected redirects (slugify a.pageSlug)) fact.sourceWikiId)
    ∅

/-- The wiki a concept page lives in: the wiki of its facts. -/
def resolvePageWiki (slug : Str) (wikis : SlugMap Str) : Option Str :=
  wikis[slug]?.filter fun w => w ≠ rootWiki

/-- The registry's entries once those of the root wiki have moved to their facts. -/
def entriesOutOfRoot (wikis : SlugMap Str) (entries : SlugMap ConceptRegistryEntry) :
    SlugMap ConceptRegistryEntry :=
  entries.filterMap fun slug e =>
    if e.wikiId ≠ rootWiki then some e
    else (resolvePageWiki slug wikis).map fun w => { e with wikiId := w }

/-- The registry's entries without those a foundation page has taken the slug of. -/
def entriesNotShadowed (foundation : SlugMap PagePlan) (entries : SlugMap ConceptRegistryEntry) :
    SlugMap ConceptRegistryEntry :=
  entries.filter fun slug _ => !foundation.contains slug

/-- The page of a registry entry. -/
def registryToPage (e : ConceptRegistryEntry) : PagePlan where
  slug := e.slug
  title := e.title
  description := e.description
  style := e.style
  wikiId := e.wikiId
  pagePath := e.slug ++ ".md".toList

/-- The page of an accepted proposal. -/
def newPageToPlan (np : NewPage) (slug wikiId : Str) : PagePlan where
  slug := slug
  title := np.title
  description := np.description
  style := PageStyle.parseLenient np.style
  wikiId := wikiId
  pagePath := slug ++ ".md".toList

/-- The foundation pages, empty. -/
def foundationPages (foundation : SlugMap PagePlan) : SlugMap PagePlan :=
  foundation.map fun _ page => { page with primaryFacts := [] }

/-- The pages of the registry, where the foundation has none. -/
def withRegistryPages (entries : SlugMap ConceptRegistryEntry) (pages : SlugMap PagePlan) :
    SlugMap PagePlan :=
  entries.toList.foldl
    (fun pages (slug, e) =>
      if pages.contains slug then pages else pages.insert slug (registryToPage e))
    pages

/-- The plan while it is built. -/
structure Building where
  pages : SlugMap PagePlan
  entries : SlugMap ConceptRegistryEntry
  assigned : Std.TreeSet Str := ∅

/-- Make the page of an accepted proposal, in the wiki of its facts. -/
def Building.accept (now : Str) (wikis : SlugMap Str) (st : Building) (np : NewPage) : Building :=
  let slug := slugify np.slug
  if slug.isEmpty || st.pages.contains slug then st
  else
    match resolvePageWiki slug wikis with
    | none => st
    | some wikiId =>
      { st with
        pages := st.pages.insert slug (newPageToPlan np slug wikiId)
        entries := st.entries.insert slug
          { slug := slug, title := np.title, description := np.description
            style := PageStyle.parseLenient np.style, wikiId := wikiId, createdAt := now } }

/-- The pages before any fact is placed. -/
def materialised (facts : SlugMap FactForPage) (foundation : SlugMap PagePlan)
    (assignments : List Assignment) (conciliation : ConciliatorResult)
    (registry : ConceptRegistry) (now : Str) : Building :=
  let wikis := slugSourceWiki facts conciliation.redirects assignments
  let entries := entriesNotShadowed foundation (entriesOutOfRoot wikis registry.entries)
  conciliation.acceptedNew.foldl (Building.accept now wikis)
    { pages := withRegistryPages entries (foundationPages foundation), entries := entries }

/-! ## The assignments -/

/-- The key of the page an assignment means, given the keys that are known. -/
def resolveSlug (known : Str → Bool) (redirects : SlugMap Str) (fact : FactForPage)
    (a : Assignment) : Str :=
  let slug := redirected redirects (if known a.pageSlug then a.pageSlug else slugify a.pageSlug)
  if known slug then slug
  else if namesTheCard a.pageSlug then
    let card := planSlugForPage fact.sourceWikiId a.pageSlug
    if known card then card else slug
  else slug

/-- Whether a page turns a fact away: a card holds one person, and who that person is. -/
def turnsAway (casing : Casing) (page : PagePlan) (fact : FactForPage) : Bool :=
  page.isIdentityCard && fact.subjectExternal.isSome ||
    page.isIdentityCard &&
      (!FactIndex.isAnIdentityKind fact.factType ||
        FactIndex.attributesToAnotherPerson casing fact.text)

/-- The page that is made for an assignment nobody has a page for. -/
def mintedPage (casing : Casing) (slug : Str) (fact : FactForPage) : PagePlan where
  slug := slug
  title := titleOf casing slug
  wikiId := fact.sourceWikiId
  pagePath := slug ++ ".md".toList

/-- Make a page for a fact, unless there is one. -/
def Building.mint (casing : Casing) (now slug : Str) (fact : FactForPage) (st : Building) :
    Building :=
  if st.pages.contains slug then st
  else
    { st with
      pages := st.pages.insert slug (mintedPage casing slug fact)
      entries := st.entries.insertIfNew slug
        { slug := slug, title := titleOf casing slug, wikiId := fact.sourceWikiId
          createdAt := now } }

/-- Put a fact on a page that takes it. -/
def Building.place (casing : Casing) (slug : Str) (fact : FactForPage) (st : Building) :
    Building :=
  match st.pages[slug]? with
  | none => st
  | some page =>
    if turnsAway casing page fact then st
    else
      { st with
        pages := st.pages.insert slug (page.withFact fact)
        assigned := st.assigned.insert fact.factId.val }

/-- Obey one assignment. -/
def Building.assign (casing : Casing) (now : Str) (facts : SlugMap FactForPage)
    (redirects : SlugMap Str) (st : Building) (a : Assignment) : Building :=
  match facts[a.factId]? with
  | none => st
  | some fact =>
    let slug := resolveSlug st.pages.contains redirects fact a
    if !st.pages.contains slug && isReservedPageStem slug then st
    else (st.mint casing now slug fact).place casing slug fact

/-- The wikis whose card may take a fact: its subject's, and its own. -/
def cardWikis (f : FactForPage) : List Str :=
  [if f.subject.isGlobal then [] else slugify f.subject.id, slugify f.sourceWikiId]

/-- The identity card of a wiki. -/
def identityCardSlugFor (pages : SlugMap PagePlan) (wikiSlug : Str) : Option Str :=
  (pages[wikiSlug]?.filter fun p => p.isIdentityCard).map fun _ => wikiSlug

/-- The card a fact is reserved for. -/
def identityCardTarget (f : FactForPage) (pages : SlugMap PagePlan) : Option Str :=
  if f.subjectExternal.isSome then none
  else (cardWikis f).findSome? fun wikiSlug =>
    if wikiSlug.isEmpty then none else identityCardSlugFor pages wikiSlug

/-- Whether a fact goes on a card with nobody asking for it. -/
def factBelongsOnACard (casing : Casing) (f : FactForPage) : Bool :=
  FactIndex.belongsOnAnIdentityCard f.factType f.salience &&
    !FactIndex.attributesToAnotherPerson casing f.text

/-- Put a fact that nobody placed on the card it is reserved for. -/
def Building.fallBack (casing : Casing) (st : Building) (f : FactForPage) : Building :=
  if st.assigned.contains f.factId.val then st
  else if !factBelongsOnACard casing f then st
  else
    match identityCardTarget f st.pages with
    | none => st
    | some slug => { st with pages := st.pages.modify slug fun page => page.withFact f }

/-- The pages with their facts. -/
def placed (casing : Casing) (facts : List FactForPage) (foundation : SlugMap PagePlan)
    (assignments : List Assignment) (conciliation : ConciliatorResult)
    (registry : ConceptRegistry) (now : Str) : Building :=
  facts.foldl (Building.fallBack casing)
    (assignments.foldl
      (Building.assign casing now (factMap facts) conciliation.redirects)
      (materialised (factMap facts) foundation assignments conciliation registry now))

/-! ## Style, links and order -/

/-- The style more than half of the styled facts ask for. -/
def majorityFactStyle (facts : List FactForPage) : Option PageStyle :=
  let styles := facts.filterMap FactForPage.style
  [PageStyle.lista, .prosa, .prosaTecnica].find? fun style =>
    styles.length < styles.count style * 2

/-- The style an entry without one takes from its page. -/
def healedStyle (entry : Option ConceptRegistryEntry) (page : Option PagePlan) :
    Option PageStyle :=
  entry.bind fun e =>
    if e.style.isNone then page.bind fun p => majorityFactStyle p.primaryFacts else none

/-- Give the entries without a style the style of their facts. -/
def Building.healStyles (st : Building) : Building :=
  { st with
    pages := st.pages.map fun slug page =>
      { page with style := (healedStyle st.entries[slug]? (some page)).or page.style }
    entries := st.entries.map fun slug e =>
      { e with style := (healedStyle (some e) st.pages[slug]?).or e.style } }

/-- Whether a page has nothing on it and is not a wiki's own. -/
def isEmptyPage (page : PagePlan) : Bool := !page.isIdentityCard && page.primaryFacts.isEmpty

/-- Drop the pages that stayed empty. -/
def Building.collect (st : Building) : Building :=
  { st with
    pages := st.pages.filter fun _ page => !isEmptyPage page
    entries := st.entries.filter fun slug _ => !(st.pages[slug]?.any isEmptyPage) }

/-- What was dropped, for the audit. -/
def Building.collected (st : Building) : List MergedPage :=
  (st.pages.toList.filter fun x => isEmptyPage x.2).map fun x =>
    ⟨x.1, "—".toList, "page with 0 facts".toList⟩

/-- Add a text to a list that does not have it. -/
def pushNew (links : List Str) (link : Str) : List Str :=
  if links.contains link then links else links ++ [link]

/-- One rail the prose has not caught up with. -/
def addRail (st : SlugMap PagePlan × List (Str × Str)) (rail : Str × Str) :
    SlugMap PagePlan × List (Str × Str) :=
  match st.1[rail.1]? with
  | none => st
  | some page =>
    if !st.1.contains rail.2 || rail.1 == rail.2 || page.outgoingLinks.contains rail.2 then st
    else
      (st.1.insert rail.1
        { page with
          outgoingLinks := pushNew page.outgoingLinks rail.2
          pendingLinks := pushNew page.pendingLinks rail.2 },
        st.2 ++ [rail])

/-- The links of a page that lead to pages of the plan, in order and once each. -/
def linksOf (pages : SlugMap PagePlan) (slug : Str) (page : PagePlan) : List Str :=
  ((page.outgoingLinks.filter fun l => l ≠ slug && pages.contains l).foldl pushNew
    []).insertionSort fun a b => (compare a b).isLE

/-- Take the links of each page from its prose, and the rails it still owes. -/
def linked (proseLinks : Address → Option (List Str)) (authoredRails : List (Str × Str))
    (pages : SlugMap PagePlan) : SlugMap PagePlan × List (Str × Str) :=
  let railed := authoredRails.foldl addRail
    (pages.map fun _ page =>
      { page with outgoingLinks := (proseLinks page.address).getD [] }, [])
  (railed.1.map fun slug page => { page with outgoingLinks := linksOf railed.1 slug page },
    railed.2)

/-- The order pages are compiled in: the wikis' own pages first. -/
def compilationOrder (pages : SlugMap PagePlan) : List Str :=
  (pages.toList.insertionSort fun a b =>
    a.2.orderRank < b.2.orderRank ∨
      (a.2.orderRank = b.2.orderRank ∧ (compare a.1 b.1).isLE)).map Prod.fst

/-- Build the plan, and the registry that goes with it. -/
def buildCompilationPlan (casing : Casing) (facts : List FactForPage)
    (foundation : SlugMap PagePlan) (blueprint : Blueprint) (conciliation : ConciliatorResult)
    (registry : ConceptRegistry) (proseLinks : Address → Option (List Str))
    (authoredRails : List (Str × Str)) (now : Str) : CompilationPlan × ConceptRegistry :=
  let st :=
    (placed casing facts foundation blueprint.assignments conciliation registry now).healStyles
  let pages := linked proseLinks authoredRails st.collect.pages
  ({ pages := pages.1
     mergedPages := st.collected
     linkGraph := pages.1.map fun _ page => page.outgoingLinks
     compilationOrder := compilationOrder pages.1
     generatedAt := now
     factCount := facts.length
     dirtyPages := compilationOrder pages.1
     authoredRails := pages.2 },
   { version := registryVersion, entries := st.collect.entries, generatedAt := now })

end Mwe.Planner
