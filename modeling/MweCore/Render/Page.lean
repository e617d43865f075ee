import MweCore.Parser.Layout
import MweCore.Render.Links

/-!
# Rendering a page for one reader

`renderForSenderSegments` takes the front matter off, parses the page and turns its events into
pieces: runs of prose cut at the headings, and regions with the decision whether the reader may
read them.  `servePieces` then writes out what the reader's mode of the page serves: a hidden
region leaves `[redacted]` or nothing, a section's prose may go with its facts, and a page of
which nothing survives collapses to one callout.
-/

namespace Mwe

open Str Search

/-! ## Output -/

/-- One slice of a segmented render. -/
structure RenderSegment where
  text : Str
  factId : Option FactId := none
  deriving DecidableEq

/-- The rendered stream, split into slices. -/
structure SegmentedRenderOutput where
  segments : List RenderSegment := []
  blocksRedacted : ℕ := 0
  deriving DecidableEq

/-- The result of rendering one page for one reader. -/
structure RenderOutput where
  text : Str
  blocksRedacted : ℕ
  deriving DecidableEq

/-- Append fact-less text, merging it into a trailing fact-less slice. -/
def SegmentedRenderOutput.pushPlain (out : SegmentedRenderOutput) (text : Str) :
    SegmentedRenderOutput :=
  match out.segments.getLast? with
  | some ⟨last, none⟩ => { out with segments := out.segments.dropLast ++ [⟨last ++ text, none⟩] }
  | _ => { out with segments := out.segments ++ [⟨text, none⟩] }

/-- Append a shown region. -/
def SegmentedRenderOutput.pushRegion (out : SegmentedRenderOutput) (text : Str)
    (factId : Option FactId) : SegmentedRenderOutput :=
  { out with segments := out.segments ++ [⟨text, factId⟩] }

/-- The joined text. -/
def SegmentedRenderOutput.text (out : SegmentedRenderOutput) : Str :=
  out.segments.flatMap RenderSegment.text

/-- Collapse into the plain output. -/
def SegmentedRenderOutput.intoOutput (out : SegmentedRenderOutput) : RenderOutput :=
  ⟨out.text, out.blocksRedacted⟩

/-! ## Access -/

/-- The access records of the regions of one page. -/
abbrev FactAclMap := List (FactId × RegionAcl)

/-- The access list gating one region and its attribution: the database record when there is one,
else the inline attributes with the sender as the subject of last resort. -/
def resolveRegionAcl (attrs : RegionAttrs) (dbAcl : FactAclMap) : Acl × Option Principal :=
  match attrs.factId.bind fun fid => dbAcl.lookup fid with
  | none =>
    ({ subject := attrs.acl.subject.or attrs.sender, allow := attrs.acl.allow, excluded := [] },
      attrs.sender)
  | some rec => (rec.toAcl, rec.sender)

/-- Whether the reader may read a region with these attributes. -/
def regionVisible (attrs : RegionAttrs) (dbAcl : FactAclMap) (view : ReaderView) : Bool :=
  let (resolved, senderOfRegion) := resolveRegionAcl attrs dbAcl
  canRead resolved view.senderId view.senderGroups senderOfRegion

/-- The fact id a shown region's slice carries: only one the map covers. -/
def segmentFactId (attrs : RegionAttrs) (dbAcl : FactAclMap) : Option FactId :=
  attrs.factId.filter fun fid => (dbAcl.lookup fid).isSome

/-! ## Pieces -/

/-- One run of the page. -/
inductive Piece where
  /-- Prose, already rewritten for the reader. -/
  | prose (run : Str)
  /-- A region: its body, whether this reader may read it, and its fact id. -/
  | region (body : Str) (visible : Bool) (factId : Option FactId)
  deriving DecidableEq

/-- Whether a line opens a section: an ATX heading of any level. -/
def opensASection (line : Str) : Bool :=
  let t := trimStart line
  t.head? == some '#' && (t.dropWhile (· == '#')).head? == some ' '

/-- Walk the lines of a run; `run` is what has been read of the current one. -/
def splitAtHeadingsFrom (runIsNew : Bool) (run : Str) (runs : List (Bool × Str)) :
    List Str → List (Bool × Str)
  | [] => if !run.isEmpty || runs.isEmpty then runs ++ [(runIsNew, run)] else runs
  | line :: lines =>
    if opensASection line then
      splitAtHeadingsFrom true line (if run.isEmpty then runs else runs ++ [(runIsNew, run)]) lines
    else splitAtHeadingsFrom runIsNew (run ++ line) runs lines

/-- Split one run of prose into the sections it spans; the flag says a heading opens it. -/
def splitAtHeadings (chunk : Str) : List (Bool × Str) :=
  splitAtHeadingsFrom false [] [] (splitInclusive '\n' chunk)

/-- The pieces read so far, each with the section it belongs to. -/
structure PieceState where
  pieces : List (ℕ × Piece) := []
  sectionNo : ℕ := 0
  nRegions : ℕ := 0

/-- Append one piece in the current section. -/
def PieceState.push (st : PieceState) (p : Piece) : PieceState :=
  { st with pieces := st.pieces ++ [(st.sectionNo, p)] }

/-- Append one run of prose, in a new section when a heading opens it. -/
def PieceState.pushRun (view : ReaderView) (st : PieceState) (run : Bool × Str) : PieceState :=
  let st := if run.1 then { st with sectionNo := st.sectionNo + 1 } else st
  st.push (.prose (proseForReader run.2 view))

/-- The piece of one event; `none` is a bad slice. -/
def pieceStep (body : Str) (dbAcl : FactAclMap) (view : ReaderView) (st : PieceState) :
    ParseEvent → Option PieceState
  | .prose _ _ chunk => some ((splitAtHeadings chunk).foldl (PieceState.pushRun view) st)
  | .region _ _ attrs _ _ region _ =>
    some { st.push (.region region (regionVisible attrs dbAcl view) (segmentFactId attrs dbAcl)) with
      nRegions := st.nRegions + 1 }
  | .embed start stop _ => (slice body start stop).map fun t => st.push (.prose t)

/-! ## Serving the pieces -/

/-- What stands for a region the reader may not read. -/
def redactedInlineMarker : Str := "[redacted]".toList

/-- The whole output when nothing of the page survives. -/
def fullyPrivateCallout : Str := "> [!redacted] This entire page is private.\n".toList

/-- Does this line of prose give a redacted page something to stand on? -/
def anchorsARedactedPage (line : Str) : Bool :=
  !(trim line).isEmpty && !isEngineFurniture line

/-- What the serving loop carries. -/
structure ServeState where
  out : SegmentedRenderOutput := {}
  visibleRegions : ℕ := 0
  keptProse : Bool := false

/-- Serve one piece. -/
def servePiece (view : ReaderView) (readable : List ℕ) (st : ServeState) :
    ℕ × Piece → ServeState
  | (sec, .prose run) =>
    let serve := match view.page with
      | .asWritten | .whole => true
      | .factsAlone => false
      | .sectionBySection => readable.contains sec
    if serve then
      { st with
        out := st.out.pushPlain run
        keptProse := st.keptProse || (lines run).any anchorsARedactedPage }
    else st
  | (_, .region region true factId) =>
    if view.page = .factsAlone then
      { st with
        out := (st.out.pushRegion (trim region) factId).pushPlain ['\n']
        visibleRegions := st.visibleRegions + 1 }
    else
      { st with
        out := st.out.pushRegion region factId
        visibleRegions := st.visibleRegions + 1 }
  | (_, .region _ false _) =>
    let out := if view.page = .factsAlone then st.out else st.out.pushPlain redactedInlineMarker
    { st with out := { out with blocksRedacted := out.blocksRedacted + 1 } }

/-- The sections with a fact this reader may read. -/
def sectionsWithAReadableFact (pieces : List (ℕ × Piece)) : List ℕ :=
  pieces.filterMap fun
    | (sec, .region _ true _) => some sec
    | _ => none

/-- Serve the pieces of a page, collapsing it when nothing of it survives. -/
def servePieces (view : ReaderView) (st : PieceState) : SegmentedRenderOutput :=
  let served := st.pieces.foldl (servePiece view (sectionsWithAReadableFact st.pieces)) {}
  if 0 < st.nRegions ∧ served.visibleRegions = 0 ∧ served.keptProse = false then
    { served.out with segments := [⟨fullyPrivateCallout, none⟩] }
  else served.out

/-- Render a page for one reader, slice by slice; `none` would be a bad slice. -/
def renderForSenderSegments (text : Str) (dbAcl : FactAclMap) (view : ReaderView) :
    Option SegmentedRenderOutput :=
  let body := match MarkdownDoc.parse text with
    | some doc => doc.body
    | none => text
  -- no record means no active fact is left, and then nothing of the page is served
  if view.page ≠ .asWritten ∧ dbAcl = [] then some {}
  else do
    let parsed ← parse body
    let st ← parsed.events.foldlM (pieceStep body dbAcl view) {}
    pure (servePieces view st)

/-- Render a page for one reader. -/
def renderForSender (text : Str) (dbAcl : FactAclMap) (view : ReaderView) : Option RenderOutput :=
  (renderForSenderSegments text dbAcl view).map SegmentedRenderOutput.intoOutput

end Mwe
