import MweCore.Planner.Landing

/-!
# Placing new facts

Who says on which page a new fact goes is a matter of the hour.  A page the user named is taken as
it stands (`ingestPlacementBlueprint`); the rest is asked of a model, in batches of one wiki
(`classifyFacts`), and its answer is any text that parses.  The hourly round holds the answer to
the floor below which no page is born (`holdToBirthFloor`), and the last round of the night gives
a page to whatever is left (`coverTheLeftovers`).  A second model may fold a proposed page into
one there is; `vetAccepted` and `vetRedirects` hold its answer to what a merge can be.
-/

namespace Mwe.Planner

open Str

/-! ## The pages the user named -/

/-- The key of the page a fact is meant for, unless its name is no concept page's. -/
def placementSlug (targetPage : Str) : Option Str :=
  let stripped := stemOf targetPage
  if isReservedPageStem (toAsciiLowercase stripped) then none
  else
    let slug := slugify stripped
    if slug.isEmpty || isReservedPageStem slug then none else some slug

/-- The key of the page the user named for a fact; what is reserved for a card has none. -/
def namedSlug (f : FactForPage) : Option Str :=
  if f.salience = some "high".toList then none else f.targetPage.bind placementSlug

/-- Put each fact on the page the user named. -/
def ingestPlacementBlueprint (casing : Casing) (facts : List FactForPage) : Blueprint where
  assignments := facts.filterMap fun f => (namedSlug f).map fun slug => ⟨f.factId.val, slug⟩
  newPages :=
    (facts.foldl
      (fun (pages : SlugMap NewPage) f =>
        match namedSlug f with
        | none => pages
        | some slug =>
          pages.insertIfNew slug
            { slug := slug, title := titleOf casing slug, style := f.style.map PageStyle.asStr })
      ∅).values

/-! ## The model's answers -/

/-- Facts in one question to the model. -/
def cartografoBatch : ℕ := 15

/-- The facts of each wiki, in questions of one wiki each. -/
def cartografoBatches (facts : List FactForPage) : List (List FactForPage) :=
  let byWiki : SlugMap (List FactForPage) := facts.foldl
    (fun byWiki f => byWiki.insert f.sourceWikiId (byWiki[f.sourceWikiId]?.getD [] ++ [f])) ∅
  byWiki.toList.flatMap fun x => x.2.toChunks cartografoBatch

/-- Take a proposal of the model's, unless its name is taken or the engine's. -/
def addProposal (st : Std.TreeSet Str × List NewPage) (np : NewPage) :
    Std.TreeSet Str × List NewPage :=
  let slug := slugify np.slug
  if isReservedPageStem slug || slug.isEmpty || st.1.contains slug then st
  else (st.1.insert slug, st.2 ++ [{ np with slug := slug }])

/-- Ask the model for a page for each fact; `replies` says what it answers to each question, and
nothing when the call fails or the answer does not parse. -/
def classifyFacts (replies : ℕ → Option Blueprint) (facts : List FactForPage)
    (foundation : SlugMap PagePlan) (registry : ConceptRegistry) : Blueprint :=
  let known : Std.TreeSet Str := .ofList (foundation.keys ++ registry.entries.keys)
  let answers := ((cartografoBatches facts).zipIdx.filterMap fun x => replies x.2)
  { assignments := answers.flatMap Blueprint.assignments
    newPages := ((answers.flatMap Blueprint.newPages).foldl addProposal (known, [])).2 }

/-- How many facts a page needs to be born of, in the hourly round. -/
def pageBirthFloor : ℕ := 5

/-- Drop the proposals that group too few facts, and the facts meant for them. -/
def holdToBirthFloor (bp : Blueprint) : Blueprint :=
  let mass := fun slug => (bp.assignments.filter fun a => a.pageSlug == slug).length
  let refused := (bp.newPages.filter fun np => mass np.slug < pageBirthFloor).map NewPage.slug
  { assignments := bp.assignments.filter fun a => !refused.contains a.pageSlug
    newPages := bp.newPages.filter fun np => !refused.contains np.slug }

/-- The model's answer added to the pages the user named, which win. -/
def mergeBlueprints (named classified : Blueprint) : Blueprint where
  assignments := named.assignments ++ classified.assignments
  newPages := named.newPages ++
    classified.newPages.filter fun np => !(named.newPages.map NewPage.slug).contains np.slug

/-- Whether an assignment counts as a placement when the last round looks for leftovers. -/
def countsAsPlaced (facts : List FactForPage) (foundation : SlugMap PagePlan) (a : Assignment) :
    Bool :=
  if isReservedPageStem (stemOf a.pageSlug) then false
  else
    match foundation[a.pageSlug]?, (factMap facts)[a.factId]? with
    | some page, some f => if page.isIdentityCard then f.subjectExternal.isNone else true
    | _, _ => true

/-- The page a leftover takes: its macrotopic, and its wiki. -/
def leftoverSlug (f : FactForPage) : Option Str :=
  f.topics.head?.bind fun macrotopic =>
    let stem := slugify macrotopic
    let wiki := slugify f.sourceWikiId
    if stem.isEmpty || wiki.isEmpty then none else some (stem ++ '_' :: wiki)

/-- The pages the last round gives to the facts nobody claimed. -/
def covered (casing : Casing) (bp : Blueprint) (facts : List FactForPage)
    (foundation : SlugMap PagePlan) : List Assignment :=
  let placed := (bp.assignments.filter (countsAsPlaced facts foundation)).map Assignment.factId
  facts.filterMap fun f =>
    if placed.contains f.factId.val then none
    else if factBelongsOnACard casing f && (identityCardTarget f foundation).isSome then none
    else (leftoverSlug f).map fun slug => ⟨f.factId.val, slug⟩

/-- Give a page to whatever nobody claimed. -/
def coverTheLeftovers (casing : Casing) (bp : Blueprint) (facts : List FactForPage)
    (foundation : SlugMap PagePlan) : Blueprint :=
  { bp with assignments := bp.assignments ++ covered casing bp facts foundation }

/-- How new facts are placed; a model is given by its answers. -/
inductive NewFactPlacement where
  | ingest
  | cartografo (replies : ℕ → Option Blueprint)
  | namedThenCartografo (replies : ℕ → Option Blueprint)
  | closingCartografo (replies : ℕ → Option Blueprint)
  | orphanFallback

/-- Place new facts. -/
def placeNewFacts (casing : Casing) (placement : NewFactPlacement) (facts : List FactForPage)
    (foundation : SlugMap PagePlan) (registry : ConceptRegistry) : Blueprint :=
  match placement with
  | .cartografo replies => classifyFacts replies facts foundation registry
  | .closingCartografo replies =>
    coverTheLeftovers casing (classifyFacts replies facts foundation registry) facts foundation
  | .ingest => ingestPlacementBlueprint casing facts
  | .namedThenCartografo replies =>
    let named := ingestPlacementBlueprint casing facts
    let settled := named.assignments.map Assignment.factId
    let remainder := facts.filter fun f =>
      f.salience ≠ some "high".toList && !settled.contains f.factId.val
    if remainder.isEmpty then named
    else
      mergeBlueprints named (holdToBirthFloor (classifyFacts replies remainder foundation registry))
  | .orphanFallback => {}

/-! ## Folding proposals into pages there are -/

/-- Give back to each accepted page the style it was proposed with. -/
def backfillAcceptedNewStyle (accepted original : List NewPage) : List NewPage :=
  accepted.map fun np =>
    if np.style.isSome then np
    else
      match original.find? fun p => slugify p.slug == slugify np.slug with
      | some p => { np with style := p.style }
      | none => np

/-- The proposals by the wiki of their facts. -/
def conciliatoreGroups (newPages : List NewPage) (pageWikis : SlugMap Str) :
    SlugMap (List NewPage) :=
  newPages.foldl
    (fun byWiki np =>
      let wiki := pageWikis[slugify np.slug]?.getD []
      byWiki.insert wiki (byWiki[wiki]?.getD [] ++ [np]))
    ∅

/-- Fold proposals into the pages there are, one question for each wiki; `replies` says what the
model answers, and nothing when the call fails. -/
def conciliateNewPages (replies : Str → Option ConciliatorResult) (newPages : List NewPage)
    (pageWikis : SlugMap Str) : ConciliatorResult :=
  (conciliatoreGroups newPages pageWikis).toList.foldl
    (fun merged x =>
      let result : ConciliatorResult :=
        match replies x.1 with
        | some answer =>
          { answer with acceptedNew := backfillAcceptedNewStyle answer.acceptedNew x.2 }
        | none => { acceptedNew := x.2 }
      { redirects := result.redirects.toList.foldl (fun m r => m.insert r.1 r.2) merged.redirects
        acceptedNew := merged.acceptedNew ++ result.acceptedNew })
    {}

/-- An accepted page under its key, unless its name is the engine's. -/
def vetAccepted (np : NewPage) : Option NewPage :=
  if isReservedPageStem (slugify np.slug) then none else some { np with slug := slugify np.slug }

/-- Hold the redirects to what a merge can be: its target is there, and is no foundation page. -/
def vetRedirects (proposed : SlugMap Str) (foundation : SlugMap PagePlan)
    (registry : ConceptRegistry) (acceptedNew : List NewPage) : SlugMap Str :=
  let accepted := acceptedNew.map fun np => slugify np.slug
  proposed.toList.foldl
    (fun kept x =>
      let source := slugify x.1
      let target := slugify x.2
      if target.isEmpty || target == source then kept
      else if foundation.contains target then kept
      else if !registry.entries.contains target && !accepted.contains target then kept
      else kept.insert source target)
    ∅

end Mwe.Planner
