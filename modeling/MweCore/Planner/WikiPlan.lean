import MweCore.Planner.Placement

/-!
# A build of the plan

`buildWikiPlan` starts from the plan of the last build.  When no fact is new, none has gone and
none reads differently, it keeps that plan (`reusedPlan`).  Else the facts keep their pages
(`carriedOver`), the new ones are placed, a model may fold new pages into old ones, and the plan
is built from all assignments together (`fullPlan`).

What the models answer, what the pages say of themselves and what their prose links to are
parameters.
-/

namespace Mwe.Planner

/-! ## The foundation -/

/-- The card of an enrolled user. -/
def personPage (casing : Casing) (userId : Str) : PagePlan where
  slug := slugify userId
  title := capitalize casing userId
  description := "Personal page of ".toList ++ capitalize casing userId
  wikiId := userId
  pagePath := profileFilename

/-- The foundation pages: an identity card for each user whose slug no group has. -/
def buildFoundationPages (casing : Casing) (groups users : List Str) : SlugMap PagePlan :=
  let groupSlugs := (groups.map slugify).filter fun s => !s.isEmpty
  users.foldl
    (fun pages userId =>
      let slug := slugify userId
      if slug.isEmpty || groupSlugs.contains slug then pages
      else pages.insert slug (personPage casing userId))
    ∅

/-! ## What a page is compiled from -/

/-- The texts of a list with a separator between them. -/
def joinWith (sep : Str) (parts : List Str) : Str := (parts.intersperse sep).flatten

/-- The texts of a list in order. -/
def sorted (texts : List Str) : List Str := texts.insertionSort fun a b => (compare a b).isLE

/-- What a fact puts on its page. -/
def factRenderKey (f : FactForPage) : Str :=
  joinWith [Char.ofNat 0x1f]
    [f.text, f.validFrom.getD [], f.validTo.getD [], f.decayReason.getD [],
      (f.successorFactId.map FactId.val).getD [], f.subject.display,
      joinWith ",".toList (sorted (f.allow.map Principal.display)),
      (f.sender.map Principal.display).getD []]

/-- The 64-bit FNV-1a hash. -/
def fnv1a64 (bytes : List UInt8) : UInt64 :=
  bytes.foldl (fun h b => (h ^^^ b.toUInt64) * 0x00000100000001b3) 0xcbf29ce484222325

/-- A number in sixteen hexadecimal digits. -/
def hex16 (n : UInt64) : Str :=
  let digits := Nat.toDigits 16 n.toNat
  List.replicate (16 - digits.length) '0' ++ digits

/-- What the prose of a page has to say, in short. -/
def pageFingerprint (page : PagePlan) : Str :=
  let facts := page.primaryFacts.map fun f =>
    f.factId.val ++ ':' :: hex16 (fnv1a64 (String.ofList (factRenderKey f)).toUTF8.toList)
  joinWith ",".toList (sorted facts) ++ '|' :: joinWith ",".toList (sorted page.pendingLinks)

/-- The pages to compile: those that are new, changed, moved or gone. -/
def computeDirtyPages (prev next : CompilationPlan) : List Str :=
  let changed := next.pages.toList.filterMap fun x =>
    match prev.pages[x.1]? with
    | some old =>
      if pageFingerprint old = pageFingerprint x.2 ∧ old.pagePath = x.2.pagePath then none
      else some x.1
    | none => some x.1
  let gone := prev.pages.keys.filter fun slug => !next.pages.contains slug
  (Std.TreeSet.ofList (changed ++ gone)).toList

/-- Whether a fact of the last plan reads differently now. -/
def anyContentDrift (facts : List FactForPage) (prev : CompilationPlan) : Bool :=
  let prevKey : SlugMap Str := (prev.pages.values.flatMap PagePlan.primaryFacts).foldl
    (fun map f => map.insert f.factId.val (factRenderKey f)) ∅
  facts.any fun f => prevKey[f.factId.val]?.any fun k => k ≠ factRenderKey f

/-- The facts of a plan by id, with their pages. -/
def extractAssignedFactIds (plan : CompilationPlan) : SlugMap Str :=
  (plan.pages.toList.flatMap fun x => x.2.primaryFacts.map fun f => (f.factId.val, x.1)).foldl
    (fun map x => map.insert x.1 x.2) ∅

/-! ## A build -/

/-- What a build is given: the facts of the memory and those of the queue, who is enrolled, the two
files, how facts are placed, and what the pages on disk say. -/
structure BuildInput where
  casing : Casing
  gathered : List FactForPage
  waiting : List FactForPage := []
  groups : List Str := []
  users : List Str := []
  dir : PlanDir
  placement : NewFactPlacement
  conciliatore : Option (Str → Option ConciliatorResult) := none
  proseLinks : Address → Option (List Str) := fun _ => none
  cards : Address → Option Str := fun _ => none
  now : Str

namespace BuildInput

variable (input : BuildInput)

/-- The facts there are, by id. -/
def facts : List FactForPage :=
  (input.gathered ++ input.waiting).insertionSort fun a b =>
    (compare a.factId.val b.factId.val).isLE

/-- The foundation of the build. -/
def foundation : SlugMap PagePlan := buildFoundationPages input.casing input.groups input.users

/-- The registry of the build. -/
def registry : ConceptRegistry := loadConceptRegistry input.dir input.now

/-- Whether this build answers the pages that are parked to be placed again. -/
def reopenConsumable : Bool :=
  match input.placement with
  | .cartografo _ => true
  | _ => false

/-- The pages whose facts are placed again. -/
def reopen (prev : CompilationPlan) : List Str :=
  if input.reopenConsumable then prev.reopenPages.filter fun s => prev.pages.contains s else []

/-- Whether a fact with this id is there. -/
def isCurrent (id : Str) : Bool := input.facts.any fun f => f.factId.val == id

/-- Where the last plan has the facts it does not place again. -/
def prevAssigned (prev : CompilationPlan) : SlugMap Str :=
  (extractAssignedFactIds prev).filter fun _ slug => !(input.reopen prev).contains slug

/-- The facts the last plan does not have. -/
def newFacts (prev : CompilationPlan) : List FactForPage :=
  input.facts.filter fun f => !(input.prevAssigned prev).contains f.factId.val

/-- How many facts of the last plan have gone. -/
def removed (prev : CompilationPlan) : ℕ :=
  ((input.prevAssigned prev).keys.filter fun id => !input.isCurrent id).length

/-- Whether the last plan is kept. -/
def reuses (prev : CompilationPlan) : Bool :=
  (input.newFacts prev).isEmpty && input.removed prev == 0 && !anyContentDrift input.facts prev

/-- The facts that keep their page. -/
def carriedOver (prev : CompilationPlan) : List Assignment :=
  prev.pages.toList.flatMap fun x =>
    if (input.reopen prev).contains x.1 then []
    else (x.2.primaryFacts.filter fun f => input.isCurrent f.factId.val).map fun f =>
      ⟨f.factId.val, x.1⟩

/-- What the placement answers for some facts. -/
def placed (facts : List FactForPage) : Blueprint :=
  placeNewFacts input.casing input.placement facts input.foundation input.registry

/-- The assignments and the proposals before any merge. -/
def blueprint : Blueprint :=
  match loadPreviousPlan input.dir with
  | none => input.placed input.facts
  | some prev =>
    let new := input.newFacts prev
    let bp := if new.isEmpty then {} else input.placed new
    { assignments := input.carriedOver prev ++ bp.assignments, newPages := bp.newPages }

/-- The wiki each proposal is meant for. -/
def pageWikis (bp : Blueprint) : SlugMap Str :=
  bp.assignments.foldl
    (fun wikis a =>
      match (factMap input.facts)[a.factId]? with
      | none => wikis
      | some f => wikis.insertIfNew (slugify a.pageSlug) f.sourceWikiId)
    ∅

/-- The merges the build obeys, once they are vetted. -/
def conciliation (bp : Blueprint) : ConciliatorResult :=
  let raw : ConciliatorResult :=
    if bp.newPages.isEmpty then {}
    else
      match input.conciliatore with
      | some replies => conciliateNewPages replies bp.newPages (input.pageWikis bp)
      | none => { acceptedNew := bp.newPages }
  let accepted := raw.acceptedNew.filterMap vetAccepted
  { redirects := vetRedirects raw.redirects input.foundation input.registry accepted
    acceptedNew := accepted }

/-- An assignment once a redirect of its page is obeyed. -/
def redirectAssignment (redirects : SlugMap Str) (a : Assignment) : Assignment :=
  match redirects[slugify a.pageSlug]? with
  | some r => { a with pageSlug := r }
  | none => a

/-- The assignments the plan is built from. -/
def assignments (bp : Blueprint) : List Assignment :=
  bp.assignments.map (redirectAssignment (input.conciliation bp).redirects)

/-- Take over what a page says of itself. -/
def healCard (page : PagePlan) : PagePlan :=
  { page with description := (input.cards page.address).getD page.description }

/-- The plan with the descriptions the pages have. -/
def healPageCards (plan : CompilationPlan) : CompilationPlan :=
  { plan with pages := plan.pages.map fun _ page => input.healCard page }

/-- The registry with the descriptions the pages have. -/
def healEntries (plan : CompilationPlan) (registry : ConceptRegistry) : ConceptRegistry :=
  { registry with
    entries := registry.entries.map fun slug e =>
      { e with
        description :=
          (plan.pages[slug]?.bind fun page =>
            (input.cards page.address).filter fun written => written ≠ page.description).getD
              e.description } }

/-- The last plan, kept. -/
def reusedPlan (prev : CompilationPlan) : CompilationPlan :=
  input.healPageCards
    { prev with
      generatedAt := input.now
      dirtyPages := prev.forceDirty.filter fun s => prev.pages.contains s
      forceDirty := []
      reopenPages := if input.reopenConsumable then [] else prev.reopenPages }

/-- The plan and the registry that a list of assignments makes. -/
def built (assignments : List Assignment) (conciliation : ConciliatorResult) :
    CompilationPlan × ConceptRegistry :=
  buildCompilationPlan input.casing input.facts input.foundation { assignments } conciliation
    input.registry input.proseLinks
    (((loadPreviousPlan input.dir).map CompilationPlan.authoredRails).getD []) input.now

/-- The plan that a list of assignments makes, as it is saved. -/
def finished (plan : CompilationPlan) : CompilationPlan :=
  match loadPreviousPlan input.dir with
  | none => { input.healPageCards plan with dirtyPages := plan.compilationOrder }
  | some prev =>
    let healed := input.healPageCards plan
    let dirty := computeDirtyPages prev healed ++
      prev.forceDirty.filter fun s => healed.pages.contains s
    { healed with
      refileCandidates := prev.refileCandidates
      reopenPages :=
        if input.reopenConsumable then []
        else prev.reopenPages.filter fun s => healed.pages.contains s
      dirtyPages := (Std.TreeSet.ofList dirty).toList }

/-- The plan of a full build. -/
def fullPlan : CompilationPlan :=
  input.finished
    (input.built (input.assignments input.blueprint) (input.conciliation input.blueprint)).1

/-- Whether this build keeps the last plan. -/
def keepsPlan : Bool := (loadPreviousPlan input.dir).any input.reuses

end BuildInput

/-- Build the plan. -/
def buildWikiPlan (input : BuildInput) : CompilationPlan :=
  match loadPreviousPlan input.dir with
  | some prev => if input.reuses prev then input.reusedPlan prev else input.fullPlan
  | none => input.fullPlan

/-- The two files after a build; a plan that is kept leaves the registry alone unless a page has
described itself anew. -/
def savedPlan (input : BuildInput) : PlanDir where
  plan := some (buildWikiPlan input)
  registry :=
    match (loadPreviousPlan input.dir).filter input.reuses with
    | some prev =>
      if prev.pages.toList.any fun x => (input.cards x.2.address).any fun written =>
          written ≠ x.2.description then
        some (input.healEntries prev input.registry)
      else input.dir.registry
    | none =>
      let built :=
        input.built (input.assignments input.blueprint) (input.conciliation input.blueprint)
      some (input.healEntries built.1 built.2)

end Mwe.Planner
