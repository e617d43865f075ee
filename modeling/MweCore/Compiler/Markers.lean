import MweCore.Compiler.Sheet
import MweCore.Parser.Layout

/-!
# From fact tags to markers

The writer of a page wraps each fact in `<fN>…</fN>`, where N is the fact's place in the list it
was handed.  The marker that protects the fact is rendered here: `expandFactTags` puts a region in
place of the first span of each number, `stripOrphanFactTags` takes out what is left of tags, and
a fact that got no region is appended in one of its own.
-/

namespace Mwe

open Str Search

/-- The events of a text. -/
def parseEvents (text : Str) : List ParseEvent := ((parse text).map ParseOutput.events).getD []

/-- The events of a text are its tokens, laid out. -/
lemma parseEvents_eq (text : Str) : parseEvents text = layoutEvents 0 (tokens text) := by
  simp [parseEvents, parse_eq_some]

/-- The embeds of a text, those inside its regions included. -/
def collectEmbeds (text : Str) : List CatalogId :=
  (parseEvents text).flatMap fun
    | .embed _ _ catalogId => [catalogId]
    | .region _ _ _ _ _ _ embeds => embeds
    | .prose _ _ _ => []

/-- The self-closing marker of an embed. -/
def renderEmbedMarker (catalogId : CatalogId) : Str := opening ("embed=".toList ++ catalogId.val)

namespace Compiler

open Planner

/-! ## Tags -/

/-- What opens a tag. -/
def tagOpen : Str := ['<', 'f']

/-- The closing tag of a number. -/
def closingTag (n : ℕ) : Str := ['<', '/', 'f'] ++ Nat.toDigits 10 n ++ ['>']

/-- A run of digits as a number of the machine, 0 when it is too large. -/
def parseNumber (digits : Str) : ℕ :=
  let n := digits.foldl (fun n c => n * 10 + (c.toNat - '0'.toNat)) 0
  if n < 2 ^ 64 then n else 0

/-- The number of the tag whose `<f` has been read, and what follows its `>`. -/
def tagNumber (tail : Str) : Option (ℕ × Str) :=
  let digits := tail.takeWhile isAsciiDigit
  if digits.isEmpty then none
  else (stripPrefix ['>'] (tail.drop digits.length)).map fun rest => (parseNumber digits, rest)

/-- The fact a number means. -/
def factOf (facts : List FactForPage) (n : ℕ) : Option FactForPage :=
  if n = 0 then none else facts[n - 1]?

/-- Give a span back the embeds of its fact that are nowhere on the page. -/
def restoreMissingEmbeds (span canonicalText fullBody : Str) : Str :=
  (collectEmbeds canonicalText).foldl
    (fun out cid =>
      if (collectEmbeds span).contains cid || contains (renderEmbedMarker cid) fullBody then out
      else
        (if out.isEmpty || out.getLast? == some ' ' then out else out ++ [' ']) ++
          renderEmbedMarker cid)
    span

/-- Put regions in place of the tags of what is left of a body; `rendered` are the numbers that
have one. -/
def expandFrom (facts : List FactForPage) (body : Str) : ℕ → List ℕ → Str → Str
  | 0, _, rest => rest
  | fuel + 1, rendered, rest =>
    match splitOnce tagOpen rest with
    | none => rest
    | some (before, tail) =>
      match tagNumber tail with
      | none => before ++ tagOpen ++ expandFrom facts body fuel rendered tail
      | some (n, inside) =>
        match splitOnce (closingTag n) inside with
        -- an opening that is never closed
        | none => before ++ expandFrom facts body fuel rendered inside
        | some (span, after) =>
          match if rendered.contains n then none else factOf facts n with
          | some f =>
            before ++ renderMarker f.factId (restoreMissingEmbeds span f.text body) ++
              expandFrom facts body fuel (n :: rendered) after
          | none => before ++ span ++ expandFrom facts body fuel rendered after

/-- Put regions in place of the tags of a body. -/
def expandFactTags (body : Str) (facts : List FactForPage) : Str :=
  expandFrom facts body (body.length + 1) [] body

/-- What follows the tag whose `<` has been read. -/
def orphanTag (tail : Str) : Option Str :=
  (stripPrefix ['f'] ((stripPrefix ['/'] tail).getD tail)).bind fun rest =>
    (tagNumber rest).map Prod.snd

/-- Take the tags out of what is left of a body. -/
def stripFrom : ℕ → Str → Str
  | 0, rest => rest
  | fuel + 1, rest =>
    match splitOnce ['<'] rest with
    | none => rest
    | some (before, tail) =>
      match orphanTag tail with
      | some after => before ++ stripFrom fuel after
      | none => before ++ '<' :: stripFrom fuel tail

/-- Take the tags out of a body. -/
def stripOrphanFactTags (body : Str) : Str := stripFrom (body.length + 1) body

/-! ## Completing -/

/-- The fact a region names. -/
def regionFact : ParseEvent → Option FactId
  | .region _ _ attrs _ _ _ _ => attrs.factId
  | _ => none

/-- The facts a text has no region of. -/
def missingFacts (body : Str) (facts : List FactForPage) : List FactForPage :=
  facts.filter fun f => !((parseEvents body).filterMap regionFact).contains f.factId

/-- The region a fact gets that the writer left out. -/
def completion (f : FactForPage) : Str := "\n\n".toList ++ renderMarker f.factId (oneLine f.text)

/-- Expand the tags of a body, and append the facts it has no region of. -/
def expandAndCompleteFactMarkers (rawBody : Str) (facts : List FactForPage) : Str :=
  let body := stripOrphanFactTags (expandFactTags rawBody facts)
  let missing := missingFacts body facts
  if missing.isEmpty then body
  else
    body ++ (if (trim body).isEmpty then [] else "\n\n---\n".toList) ++ missing.flatMap completion

end Compiler

end Mwe
