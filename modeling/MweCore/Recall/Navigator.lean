import MweCore.Compiler.Restating
import MweCore.Wiki.Tree

/-!
# The navigator funnel

A search leaves a fan of pages at the navigator's door.  It asks a model which to open, opens them,
adds the pages their links lead to, and asks again, a few times at most.  What it brings back goes
in front of somebody, so the funnel has its dials: how many decisions, how many pages to a decision,
how many pages on offer, and how many bytes of text.

`navigate` is the whole loop.  The model may answer what it likes and the pages may change between
two hops; `navigate_stays_inside` says what holds all the same.
-/

namespace Mwe

namespace RecallNav

open Str

/-! ## Candidates -/

/-- How an entry of the fan surfaced. -/
inductive EntryOrigin where
  | rag | description | topic | situational

/-- The label of an origin. -/
def EntryOrigin.label : EntryOrigin → Str
  | .rag => "rag".toList
  | .description => "description".toList
  | .topic => "topic".toList
  | .situational => "situational".toList

/-- A page a search found. -/
structure EntryPoint where
  wikiId : Str
  page : Str
  origin : EntryOrigin
  matchedFact : Option Str := none

/-- A destination offered to the navigator, with its card. -/
structure Candidate where
  wikiId : Str
  page : Str
  origin : Str
  summary : Option Str := none
  summaryRead : Bool := false
  keywords : List Str := []
  /-- for a door a search opened, the fact it matched -/
  openedByFact : Option Str := none
  /-- whether this link stands beside the fact that opened the page it was found on -/
  extendsTheMatch : Bool := false

/-- The tier of an origin nobody knows. -/
def unknownTier : ℕ := 3

/-- The tier of a candidate; a lower one sorts first. -/
def Candidate.pruneTier (c : Candidate) : ℕ :=
  if c.origin = "link".toList then 0
  else if c.origin = "rag".toList ∨ c.origin = "description".toList ∨ c.origin = "topic".toList ∨
      c.origin = "situational".toList then 1
  else if c.origin = "card".toList then 2
  else unknownTier

/-- What a candidate is ranked by. -/
def Candidate.rank (c : Candidate) : ℕ ×ₗ Bool := toLex (c.pruneTier, !c.extendsTheMatch)

/-- A page, however its path is spelt. -/
abbrev PageKey := Str × List Component

/-- The key of a page. -/
def pageKey (wikiId page : Str) : PageKey := (wikiId, components page)

/-- The page of a candidate. -/
def Candidate.key (c : Candidate) : PageKey := pageKey c.wikiId c.page

/-- Whether a page is the one with the rules. -/
def isRulesPagePath (page : Str) : Bool := (components page).getLast? = some (.normal rulesFilename)

/-! ## What is there -/

/-- A wiki of the tree. -/
structure DiscoveredWiki where
  wikiId : Str
  absDir : HostPath
  smart : Bool := false

/-- What the funnel finds when it looks: the tree, the reader's card, and the pages. -/
structure Grounds where
  wikis : List DiscoveredWiki
  readerCanReadIn : Str → Bool
  /-- the topics of a page that the reader sees -/
  readerPageKeywords : DiscoveredWiki → Str → List Str
  /-- the line on a page's card, when the reader may see it -/
  cardLine : DiscoveredWiki → Str → Option Str
  /-- the page a link means, when its file exists -/
  resolvePageCaseInsensitive : HostPath → Str → Option Str
  isFile : HostPath → Str → Bool
  /-- whether the readers of the facts of a page can be loaded -/
  aclLoads : DiscoveredWiki → Str → Bool
  /-- a page as the sender may read it, when it can be read -/
  openProjected : DiscoveredWiki → Str → Option Str
  /-- the links that stand beside a fact of a page -/
  targetsBeside : DiscoveredWiki → Str → Str → List Str

/-- The wiki of an id; smart ones are not navigated. -/
def Grounds.byId (g : Grounds) (wikiId : Str) : Option DiscoveredWiki :=
  (g.wikis.filter fun d => !d.smart).reverse.find? fun d => d.wikiId = wikiId

/-- Where a wiki stands in the order a bare name is looked up in: the wiki of the link, those above
it, those below it, and the others. -/
def bareSlugRank (origin d : DiscoveredWiki) : ℕ ×ₗ ℕ ×ₗ Str :=
  if d.absDir = origin.absDir then toLex (0, toLex (0, d.wikiId))
  else if d.absDir.isPrefixOf origin.absDir then
    toLex (1, toLex (2 ^ 64 - 1 - (d.absDir.length + 1), d.wikiId))
  else if origin.absDir.isPrefixOf d.absDir then toLex (2, toLex (d.absDir.length + 1, d.wikiId))
  else toLex (3, toLex (0, d.wikiId))

/-- The wiki that has the page a bare name means. -/
def resolveBareSlugWiki (g : Grounds) (origin : DiscoveredWiki) (rel : Str) :
    Option DiscoveredWiki :=
  ((g.wikis.filter fun d => !d.smart).insertionSort fun a b =>
    bareSlugRank origin a ≤ bareSlugRank origin b).find? fun d => g.isFile d.absDir rel

/-- A page a link leads to. -/
def linkCandidate (g : Grounds) (d : DiscoveredWiki) (page : Str) : Candidate where
  wikiId := d.wikiId
  page
  origin := "link".toList
  keywords := g.readerPageKeywords d page

/-- Where one link leads. -/
def linkDestination (g : Grounds) (origin : DiscoveredWiki) (link : Compiler.WikiLink) :
    Option Candidate :=
  match g.byId link.wikiId with
  | none =>
    let rel := link.wikiId ++ ".md".toList
    if link.page.isSome || !isSafePagePath rel || isRulesPagePath rel then none
    else
      (resolveBareSlugWiki g origin rel).bind fun target =>
        if g.readerCanReadIn target.wikiId then some (linkCandidate g target rel) else none
  | some d =>
    if !g.readerCanReadIn link.wikiId then none
    else
      link.page.bind fun slug =>
        let rel := slug ++ ".md".toList
        if !isSafePagePath rel then none
        else
          (g.resolvePageCaseInsensitive d.absDir rel).bind fun resolved =>
            if isRulesPagePath resolved then none else some (linkCandidate g d resolved)

/-- The pages the links of a text lead to. -/
def linkedWikiCandidates (g : Grounds) (text : Str) (origin : DiscoveredWiki) : List Candidate :=
  (Compiler.extractWikilinks text).filterMap (linkDestination g origin)

/-- A text without the ending, however often it has it. -/
def trimEndMatches (ending : Str) : ℕ → Str → Str
  | 0, s => s
  | fuel + 1, s => (stripSuffix ending s).elim s (trimEndMatches ending fuel)

/-- An address in one spelling. -/
def normaliseTarget (raw : Str) : Str :=
  let slashed := raw.map fun c => if c = '\\' then '/' else c
  toAsciiLowercase (trimEndMatches ".MD".toList slashed.length
    (trimEndMatches ".md".toList slashed.length slashed))

/-- Mark the links that stand beside the fact a search matched. -/
def markWhatExtendsTheMatch (g : Grounds) (d : DiscoveredWiki) (door : Candidate)
    (discoveries : List Candidate) : List Candidate :=
  let targets := door.openedByFact.elim [] (g.targetsBeside d door.page)
  if targets.isEmpty then discoveries
  else
    let beside := targets.map normaliseTarget
    discoveries.map fun c =>
      { c with extendsTheMatch := beside.contains (normaliseTarget (c.wikiId ++ '/' :: c.page)) }

/-- The fan as candidates; an entry whose wiki is gone is dropped. -/
def initialPool (g : Grounds) (entryPoints : List EntryPoint) : List Candidate :=
  entryPoints.filterMap fun ep => (g.byId ep.wikiId).map fun d =>
    { wikiId := ep.wikiId
      page := ep.page
      origin := ep.origin.label
      keywords := g.readerPageKeywords d ep.page
      openedByFact := ep.matchedFact }

/-- What the caller has put in front of the reader by another route. -/
structure Served where
  pages : List (Str × Str) := []
  cards : List (Str × Str) := []

/-- The links written on the cards that were served. -/
def cardRailCandidates (g : Grounds) (cards : List (Str × Str)) (maxPerCard : ℕ) :
    List Candidate :=
  cards.flatMap fun card => (g.byId card.1).elim [] fun origin =>
    ((linkedWikiCandidates g card.2 origin).take maxPerCard).map fun c =>
      { c with origin := "card".toList }

/-! ## The pool -/

/-- Keep the first candidate of each page that was not visited. -/
def retainFresh (visited : List PageKey) : List PageKey → List Candidate → List Candidate
  | _, [] => []
  | seen, c :: cs =>
    if visited.contains c.key || seen.contains c.key then retainFresh visited seen cs
    else c :: retainFresh visited (c.key :: seen) cs

/-- Rank the pool, keep one candidate to a page, and cut it. -/
def prunePool (pool : List Candidate) (visited : List PageKey) (cap : ℕ) : List Candidate :=
  (retainFresh visited [] (pool.insertionSort fun a b => a.rank ≤ b.rank)).take cap

/-- Read the line on each candidate's card, once. -/
def fillSummaries (g : Grounds) (pool : List Candidate) : List Candidate :=
  pool.map fun c =>
    if c.summaryRead then c
    else
      { c with
        summaryRead := true
        summary := ((g.byId c.wikiId).bind fun d => g.cardLine d c.page).or c.summary }

/-! ## The journal -/

/-- A candidate as offered to the navigator. -/
structure CandidateCard where
  wikiId : Str
  page : Option Str
  origin : Str
  keywords : List Str
  summary : Option Str

/-- The card of a candidate. -/
def CandidateCard.fromCandidate (c : Candidate) : CandidateCard :=
  ⟨c.wikiId, some c.page, c.origin, c.keywords, c.summary⟩

/-- Why a pick is discarded. -/
inductive OpenRefusal where
  | notOffered | wikiVanished | rulesPage | alreadyRead | aclUnreadable | unreadable

/-- A pick of a decision, and what became of it. -/
structure RequestedOpen where
  wikiId : Str
  page : Option Str
  opened : Bool
  reason : Option OpenRefusal

/-- A page that was opened. -/
structure OpenedPage where
  wikiId : Str
  page : Str
  chars : ℕ
  excerpt : Str
  discovered : ℕ

/-- One decision. -/
structure HopTrace where
  candidates : List CandidateCard
  requested : List RequestedOpen := []
  done : Bool := false
  note : Option Str := none
  opened : List OpenedPage := []

/-- Why the funnel ended. -/
inductive NavStop where
  | emptyFan | poolExhausted | budget | done | llmDegraded | nothingOpened | hopCap
  deriving DecidableEq

/-- A page the navigator brought back. -/
structure NavigatedFragment where
  wikiId : Str
  page : Str
  text : Str
  truncated : Bool

/-- The page of a fragment. -/
def NavigatedFragment.key (f : NavigatedFragment) : PageKey := pageKey f.wikiId f.page

/-- What the navigator comes back with. -/
structure NavigationOutcome where
  fragments : List NavigatedFragment := []
  hops : ℕ := 0
  truncated : Bool := false
  trace : List HopTrace := []
  stop : NavStop := .emptyFan

/-- How far the navigator may go. -/
structure NavigatorPolicy where
  maxHops : ℕ := 2
  pagesPerHop : ℕ := 3
  charBudget : ℕ := 8000
  maxCandidates : ℕ := 16
  maxCardRails : ℕ := 8

/-- A page the model wants opened. -/
structure NavOpen where
  wikiId : Str
  page : Option Str

/-- A decision of the model. -/
structure NavDecision where
  opens : List NavOpen := []
  done : Bool := false
  note : Option Str := none

/-! ## Opening a page -/

/-- The longest beginning of a text that has at most so many bytes. -/
def upToBytes : ℕ → Str → Str
  | _, [] => []
  | n, c :: cs => if c.utf8Size ≤ n then c :: upToBytes (n - c.utf8Size) cs else []

/-- Cut a text to what is left of the budget, and say whether something was cut. -/
def takeBudget (text : Str) (budget : ℕ) : Str × Bool :=
  if len text ≤ budget then (text, false) else (upToBytes budget text, true)

/-- The leading bytes of a text. -/
def excerptOf (s : Str) (cap : ℕ) : Str := if len s ≤ cap then s else upToBytes cap s

/-- The bytes of a page the journal keeps. -/
def traceExcerptCap : ℕ := 700

/-- The navigator on its way: the pages it visited, the bytes that are left, and what it has. -/
structure Walk where
  visited : List PageKey
  remaining : ℕ
  outcome : NavigationOutcome

/-- Whether a pick names a candidate. -/
def NavOpen.names (target : NavOpen) (c : Candidate) : Bool :=
  c.wikiId == target.wikiId && target.page.any fun p => components p == components c.page

/-- Vet a pick and open the page; the pages its links lead to, or why it was discarded. -/
def openTarget (g : Grounds) (candidates : List Candidate) (target : NavOpen) (w : Walk) :
    Walk × Except OpenRefusal (List Candidate) :=
  match candidates.find? target.names with
  | none => (w, .error .notOffered)
  | some cand =>
    match g.byId cand.wikiId with
    | none => (w, .error .wikiVanished)
    | some d =>
      if isRulesPagePath cand.page then (w, .error .rulesPage)
      else if w.visited.contains cand.key then (w, .error .alreadyRead)
      else
        -- from here on the page counts as visited, whatever becomes of it
        let w := { w with visited := cand.key :: w.visited }
        if !g.aclLoads d cand.page then (w, .error .aclUnreadable)
        else
          match (g.openProjected d cand.page).filter fun text => !(trim text).isEmpty with
          | none => (w, .error .unreadable)
          | some projected =>
            let (text, cut) := takeBudget projected w.remaining
            let discoveries := markWhatExtendsTheMatch g d cand (linkedWikiCandidates g text d)
            ({ w with
              remaining := w.remaining - len text
              outcome.truncated := w.outcome.truncated || cut
              outcome.fragments :=
                w.outcome.fragments ++ [⟨cand.wikiId, cand.page, text, cut⟩] }, .ok discoveries)

/-- Note a pick in the journal. -/
def noted (hop : HopTrace) (target : NavOpen) (fragment : Option NavigatedFragment) :
    Except OpenRefusal (List Candidate) → HopTrace
  | .ok found =>
    { hop with
      opened := hop.opened ++ (fragment.map fun f =>
        (⟨f.wikiId, f.page, len f.text, excerptOf f.text traceExcerptCap, found.length⟩ :
          OpenedPage)).toList
      requested := hop.requested ++ [⟨target.wikiId, target.page, true, none⟩] }
  | .error refusal =>
    { hop with requested := hop.requested ++ [⟨target.wikiId, target.page, false, some refusal⟩] }

/-- Open the pages of a decision, as long as there is a budget. -/
def openTargets (g : Grounds) (candidates : List Candidate) :
    List NavOpen → Walk × HopTrace × List Candidate → Walk × HopTrace × List Candidate
  | [], st => st
  | target :: targets, (w, hop, discoveries) =>
    let out := openTarget g candidates target w
    let hop := noted hop target out.1.outcome.fragments[w.outcome.fragments.length]? out.2
    let discoveries := discoveries ++ out.2.toOption.getD []
    if out.1.remaining = 0 then (out.1, hop, discoveries)
    else openTargets g candidates targets (out.1, hop, discoveries)

/-! ## The funnel -/

/-- How a hop ends: the funnel stops, or goes on with the pages that were discovered. -/
inductive HopEnd where
  | stopped (w : Walk)
  | goesOn (w : Walk) (discoveries : List Candidate)

/-- Put a hop into the journal. -/
def Walk.journal (w : Walk) (hop : HopTrace) : Walk :=
  { w with outcome.trace := w.outcome.trace ++ [hop] }

/-- Say why the funnel ended. -/
def Walk.stopAt (w : Walk) (stop : NavStop) : Walk := { w with outcome.stop := stop }

/-- What a hop offers. -/
def offered (g : Grounds) (policy : NavigatorPolicy) (pool : List Candidate) (w : Walk) :
    List Candidate :=
  fillSummaries g (prunePool pool w.visited policy.maxCandidates)

/-- One decision, and what is opened on it. -/
def takeHop (g : Grounds) (policy : NavigatorPolicy) (reply : Option NavDecision)
    (candidates : List Candidate) (w : Walk) : HopEnd :=
  let hop : HopTrace := { candidates := candidates.map CandidateCard.fromCandidate }
  let w := { w with outcome.hops := w.outcome.hops + 1 }
  match reply with
  | none => .stopped ((w.journal hop).stopAt .llmDegraded)
  | some decision =>
    let hop := { hop with done := decision.done, note := decision.note }
    if decision.done && decision.opens.isEmpty then .stopped ((w.journal hop).stopAt .done)
    else
      let out := openTargets g candidates (decision.opens.take policy.pagesPerHop) (w, hop, [])
      let w := out.1.journal out.2.1
      if out.2.1.opened.isEmpty then .stopped (w.stopAt .nothingOpened)
      else .goesOn w out.2.2

/-- The hops, each on what there is then and with the reply it gets. -/
def funnel (ground : ℕ → Grounds) (reply : ℕ → Option NavDecision) (policy : NavigatorPolicy) :
    ℕ → List Candidate → Walk → Walk
  | 0, _, w => w
  | fuel + 1, pool, w =>
    let g := ground w.outcome.hops
    let candidates := offered g policy pool w
    if candidates.isEmpty || w.remaining = 0 then
      w.stopAt (if w.remaining = 0 then .budget else .poolExhausted)
    else
      match takeHop g policy (reply w.outcome.hops) candidates w with
      | .stopped w => w
      | .goesOn w discoveries => funnel ground reply policy fuel (discoveries ++ candidates) w

/-- The most hops whatever the policy says. -/
def multiHopHardLimit : ℕ := 10

/-- The pool before the first hop. -/
def firstPool (g : Grounds) (policy : NavigatorPolicy) (entryPoints : List EntryPoint)
    (served : Served) : List Candidate :=
  initialPool g entryPoints ++ cardRailCandidates g served.cards policy.maxCardRails

/-- Before the first hop: what was served counts as visited. -/
def firstWalk (policy : NavigatorPolicy) (served : Served) : Walk where
  visited := served.pages.map fun p => pageKey p.1 p.2
  remaining := policy.charBudget
  outcome := { stop := .hopCap }

/-- The way of the navigator through a fan. -/
def walkOf (ground : ℕ → Grounds) (reply : ℕ → Option NavDecision) (policy : NavigatorPolicy)
    (entryPoints : List EntryPoint) (served : Served) : Walk :=
  if entryPoints.isEmpty then { firstWalk policy served with outcome := {} }
  else
    funnel ground reply policy (min policy.maxHops multiHopHardLimit)
      (firstPool (ground 0) policy entryPoints served) (firstWalk policy served)

/-- Run the funnel over a fan. -/
def navigate (ground : ℕ → Grounds) (reply : ℕ → Option NavDecision) (policy : NavigatorPolicy)
    (entryPoints : List EntryPoint) (served : Served) : NavigationOutcome :=
  (walkOf ground reply policy entryPoints served).outcome

end RecallNav

end Mwe
