import MweCore.Parser.Tokens
import MweCore.Planner.Plan

/-!
# What a page is written from

A list page is written from its records; any other page with facts from numbered lines that a model
is handed; a page without facts from its description.  `sheet` is what the page's own plan
contributes to its file: its place, its head, and that text.

Where other pages are, and which page references still lead somewhere, is looked up when the page
is written.
-/

namespace Mwe

open Str

/-- The user id of whoever is no longer there. -/
def removedUserId : Str := "_removed".toList

/-- Whether a principal is one nobody holds any more. -/
def isRemoved : Principal → Bool
  | .user id => id == removedUserId
  | .group _ => false

/-- Whether everybody reads a fact: `global` on any axis. -/
def isPublic (subject : Principal) (allow : List Principal) (sender : Option Principal) : Bool :=
  subject.isGlobal || allow.any Principal.isGlobal || sender.any Principal.isGlobal

/-- The bare marker: `{{f=…}}body{{/}}`. -/
def renderMarker (factId : FactId) (body : Str) : Str :=
  opening ("f=".toList ++ factId.val) ++ body ++ regionEnd

namespace Compiler

open Planner

/-- A text with its line breaks made blanks. -/
def oneLine (text : Str) : Str := text.map fun c => if c = '\n' then ' ' else c

/-- Equal neighbours made one. -/
def dedup : List Str → List Str
  | a :: b :: l => if a = b then dedup (b :: l) else a :: dedup (b :: l)
  | l => l

/-! ## Records -/

/-- The reason of a window that closed because the thing was done. -/
def completed : Str := "completed".toList

/-- How a record shows that it is closed. -/
def closureCue (decayReason validTo : Option Str) : Option Str :=
  decayReason.map fun reason =>
    " · ".toList ++ [if reason = completed then '✓' else '✗'] ++
      ((validTo.bind fun t => slice t 0 10).map (' ' :: ·)).getD []

/-- The record of a fact on a list page. -/
def listRecord (f : FactForPage) : Str :=
  "- ".toList ++
    renderMarker f.factId (oneLine f.text ++ (closureCue f.decayReason f.validTo).getD [])

/-- The body of a list page. -/
def listRecords (facts : List FactForPage) : Str :=
  List.intercalate ['\n'] (facts.map listRecord)

/-! ## Lines -/

/-- What is looked up when the lines are written: which instants are still to come, which page
references lead somewhere, and where a fact lives. -/
structure Lookup where
  casing : Casing
  isFuture : Str → Bool
  refAlive : Str → Bool
  succHome : FactId → Option Str

/-- How a line shows the validity of its fact. -/
def validityHint (isFuture : Str → Bool) (validFrom validTo decayReason : Option Str) : Str :=
  let why := (decayReason.map (", closed: ".toList ++ ·)).getD []
  match validFrom, validTo with
  | none, none => []
  | some start, some stop =>
    " (validity: from ".toList ++ start ++ " until ".toList ++ stop ++ why ++ ")".toList
  | some start, none =>
    if isFuture start then " (validity: from ".toList ++ start ++ ", open-ended)".toList
    else " (validity: open-ended)".toList
  | none, some stop => " (validity: until ".toList ++ stop ++ why ++ ")".toList

/-- How a line shows who may read its fact. -/
def audienceHint (subject : Principal) (allow : List Principal) (sender : Option Principal) :
    Str :=
  if isPublic subject allow sender then []
  else
    let names := ((subject :: allow ++ sender.toList).filter fun p => !isRemoved p).map Principal.id
    " (audience: ".toList ++
      List.intercalate ", ".toList (dedup (names.insertionSort fun a b => (compare a b).isLE)) ++
      ")".toList

/-- The line of a fact, with its number. -/
def factLine (lookup : Lookup) (number : ℕ) (f : FactForPage) : Str :=
  let kind := (f.factType.getD "other".toList).flatMap lookup.casing.toUppercase
  let refs := f.authoredRefs.filter lookup.refAlive
  Nat.toDigits 10 number ++ ". [".toList ++ kind ++ "] ".toList ++ oneLine f.text ++
    audienceHint f.subject f.allow f.sender ++
    validityHint lookup.isFuture f.validFrom f.validTo f.decayReason ++
    ((f.successorFactId.bind lookup.succHome).map fun link =>
      " (current: ".toList ++ link ++ ")".toList).getD [] ++
    (if refs.isEmpty then []
      else " (detail at: ".toList ++ List.intercalate [' '] refs ++ ")".toList)

/-- The lines of a page's facts. -/
def primaryFactsText (lookup : Lookup) (facts : List FactForPage) : Str :=
  if facts.isEmpty then "(no facts — write only a brief introduction)".toList
  else List.intercalate ['\n'] (facts.zipIdx.map fun x => factLine lookup (x.2 + 1) x.1)

/-! ## The sheet of a page -/

/-- What a page's plan contributes to its file. -/
structure Sheet where
  address : Address
  title : Str
  style : PageStyle
  /-- the description, where the plan's own is written -/
  description : Option Str
  /-- the ids of the facts and the text the page is written from -/
  body : List FactId × Str
  /-- the links the page has yet to say -/
  owed : List Str
  deriving DecidableEq

/-- The style a page is written in when nobody proposed one. -/
def styleOrDefault (style : Option PageStyle) : PageStyle := style.getD .prosa

/-- What a page is written from. -/
def sheet (lookup : Lookup) (page : PagePlan) : Sheet where
  address := page.address
  title := page.title
  style := styleOrDefault page.style
  description :=
    if styleOrDefault page.style = .lista ∨ page.primaryFacts = [] then some page.description
    else none
  body :=
    (page.primaryFacts.map FactForPage.factId,
      if styleOrDefault page.style = .lista then listRecords page.primaryFacts
      else if page.primaryFacts = [] then []
      else primaryFactsText lookup page.primaryFacts)
  owed := if styleOrDefault page.style = .lista then [] else page.pendingLinks

end Compiler

end Mwe
