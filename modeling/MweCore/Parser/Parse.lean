import MweCore.Types

/-!
# The inline marker parser

`parse` takes a page text to an ordered list of events (prose, regions, embeds) and a list of
recoverable warnings.  The scanner moves a byte cursor forward: it finds the next `{{`, the `}}`
that closes it, and depending on what stands between them a region terminator `{{/}}`.

All slicing is by byte offsets, as in the source, where a slice at an offset that is not a
character boundary stops the program.  Here such a slice is `none`, so `parse` has its result in
`Option`; the scanner's loops carry a fuel that counts their turns.  That `parse` always returns
is a theorem about it (`Mwe.parse_eq_some`), not part of its definition.
-/

namespace Mwe

open Str

/-! ## The marker alphabet -/

/-- The opening braces of a marker. -/
def openMark : Str := ['{', '{']

/-- The closing braces of a marker. -/
def closeMark : Str := ['}', '}']

/-- The region terminator. -/
def regionEnd : Str := ['{', '{', '/', '}', '}']

/-! ## Events and warnings -/

/-- One thing the parser produced from the input; `stop` is one past the last byte. -/
inductive ParseEvent where
  /-- Free prose outside of any marker. -/
  | prose (start stop : ℕ) (text : Str)
  /-- A marker-delimited region. -/
  | region (start stop : ℕ) (attrs : RegionAttrs) (bodyStart bodyEnd : ℕ) (body : Str)
      (embeds : List CatalogId)
  /-- A self-closing media embed. -/
  | embed (start stop : ℕ) (catalogId : CatalogId)
  deriving DecidableEq

/-- Classification of a warning. -/
inductive ParseWarningKind where
  | unclosedMarker | unclosedRegion | strayCloseMarker | invalidAttr | invalidPrincipal
  | invalidFactId | invalidCatalogId | unknownAttr | nestedRegion
  deriving DecidableEq, Repr

/-- A recoverable problem the parser encountered while scanning. -/
structure ParseWarning where
  offset : ℕ
  kind : ParseWarningKind
  detail : Str
  deriving DecidableEq, Repr

/-- Result of parsing a single input string. -/
structure ParseOutput where
  events : List ParseEvent := []
  warnings : List ParseWarning := []
  deriving DecidableEq

/-- Append one event. -/
def ParseOutput.push (out : ParseOutput) (ev : ParseEvent) : ParseOutput :=
  { out with events := out.events ++ [ev] }

/-- Append one warning. -/
def ParseOutput.warn (out : ParseOutput) (w : ParseWarning) : ParseOutput :=
  { out with warnings := out.warnings ++ [w] }

/-! ## Attributes -/

/-- What `parseAttrs` carries from clause to clause. -/
structure AttrState where
  attrs : RegionAttrs := {}
  /-- Whether the subject held came from `subject=` rather than its alias `owner=`. -/
  subjectFromCanonicalKey : Bool := false
  warnings : List ParseWarning := []

/-- Append one warning. -/
def AttrState.warn (st : AttrState) (offset : ℕ) (kind : ParseWarningKind) (detail : Str) :
    AttrState :=
  { st with warnings := st.warnings ++ [⟨offset, kind, detail⟩] }

/-- `subject=` and its alias `owner=`: the canonical key wins whatever the order. -/
def parseSubject (offset : ℕ) (st : AttrState) (key val : Str) : AttrState :=
  match Principal.fromStr val with
  | .ok p =>
    let canonical := key == "subject".toList
    if canonical || !st.subjectFromCanonicalKey then
      { st with
        attrs := { st.attrs with acl := { st.attrs.acl with subject := some p } }
        subjectFromCanonicalKey := canonical }
    else st
  | .error e => st.warn offset .invalidPrincipal
      (key ++ "=".toList ++ debug val ++ ": ".toList ++ e.display)

/-- One entry of an `allow=` list. -/
def parseAllowEntry (offset : ℕ) (st : AttrState) (raw : Str) : AttrState :=
  match Principal.fromStr raw with
  | .ok p =>
    { st with
      attrs := { st.attrs with acl := { st.attrs.acl with allow := st.attrs.acl.allow ++ [p] } } }
  | .error e => st.warn offset .invalidPrincipal
      ("allow has invalid principal ".toList ++ debug raw ++ ": ".toList ++ e.display)

/-- One `key=value` clause of an opening marker. -/
def parseAttr (offset : ℕ) (st : AttrState) (key val : Str) : AttrState :=
  if key = "subject".toList ∨ key = "owner".toList then parseSubject offset st key val
  else if key = "allow".toList then (val.splitOn ',').foldl (parseAllowEntry offset) st
  else if key = "sender".toList then
    match Principal.fromStr val with
    | .ok p => { st with attrs := { st.attrs with sender := some p } }
    | .error e => st.warn offset .invalidPrincipal
        ("sender=".toList ++ debug val ++ ": ".toList ++ e.display)
  else if key = "external".toList then
    let trimmed := trim val
    if trimmed.isEmpty then st
    else { st with attrs := { st.attrs with subjectExternal := some trimmed } }
  else if key = "f".toList then
    match FactId.parse val with
    | .ok fid => { st with attrs := { st.attrs with factId := some fid } }
    | .error e => st.warn offset .invalidFactId e.display
  else st.warn offset .unknownAttr ("unknown attribute ".toList ++ debug key)

/-- One whitespace-separated clause of an opening marker. -/
def parseClause (offset : ℕ) (st : AttrState) (clause : Str) : AttrState :=
  match Search.splitOnce ['='] clause with
  | none => st.warn offset .invalidAttr ("attribute missing `=`: ".toList ++ debug clause)
  | some (key, val) =>
    if key.isEmpty then
      st.warn offset .invalidAttr ("empty attribute key in ".toList ++ debug clause)
    else parseAttr offset st key val

/-- The attributes of an opening marker and the warnings they raise. -/
def parseAttrs (spec : Str) (markerOffset : ℕ) : RegionAttrs × List ParseWarning :=
  let st := (splitAsciiWhitespace spec).foldl (parseClause markerOffset) {}
  (st.attrs, st.warnings)

/-! ## Helpers of the scanner -/

/-- The offset of the next occurrence at or after `start`; the outer `none` is a bad slice. -/
def findFrom (haystack needle : Str) (start : ℕ) : Option (Option ℕ) :=
  (sliceFrom haystack start).map fun tail => (find needle tail).map (· + start)

/-- Append the prose between two offsets, unless it is empty. -/
def pushProse (out : ParseOutput) (text : Str) (start stop : ℕ) : Option ParseOutput :=
  if start = stop then some out
  else (slice text start stop).map fun t => out.push (.prose start stop t)

/-- What the scan of a region body collects. -/
structure BodyScan where
  embeds : List CatalogId := []
  nestedWarned : Bool := false
  warnings : List ParseWarning := []

/-- The inner `{{` whose attributes start at `innerAttrStart` as an embed: where its `}}` stands
and the catalogue id between, when it starts with `embed=` and closes on the same line. -/
def innerEmbed (upToTerm : Str) (innerAttrStart : ℕ) : Option (Option (ℕ × Str)) := do
  let tail ← sliceFrom upToTerm innerAttrStart
  if !"embed=".toList.isPrefixOf tail then pure none
  else
    match ← findFrom upToTerm closeMark innerAttrStart with
    | none => pure none
    | some innerClose =>
      let raw ← slice upToTerm innerAttrStart innerClose
      if '\n' ∈ raw then pure none
      else
        let catalogRaw ← slice upToTerm (innerAttrStart + len "embed=".toList) innerClose
        pure (some (innerClose, catalogRaw))

/-- Scan a region body for inner `{{`: valid embeds are collected, anything else warns once. -/
def scanBody (upToTerm : Str) : ℕ → ℕ → BodyScan → Option BodyScan
  | 0, _, _ => none
  | fuel + 1, scan, st => do
    match ← findFrom upToTerm openMark scan with
    | none => pure st
    | some inner =>
      match ← innerEmbed upToTerm (inner + 2) with
      | some (innerClose, catalogRaw) =>
        match CatalogId.parse catalogRaw with
        | .ok cid =>
          scanBody upToTerm fuel (innerClose + 2) { st with embeds := st.embeds ++ [cid] }
        | .error raw =>
          scanBody upToTerm fuel (innerClose + 2)
            { st with
              warnings := st.warnings ++
                [⟨inner, .invalidCatalogId, "invalid catalog_id ".toList ++ debug raw⟩] }
      | none =>
        if st.nestedWarned then scanBody upToTerm fuel (inner + 2) st
        else
          scanBody upToTerm fuel (inner + 2)
            { st with
              nestedWarned := true
              warnings := st.warnings ++
                [⟨inner, .nestedRegion,
                  "nested markers are not supported; outer region kept verbatim".toList⟩] }

/-! ## The scanner -/

/-- What the scanner does at the marker that opens at `opening`: where it goes on from, and the
output so far.  A marker that never closes is the rest of the text. -/
def parseMarker (text : Str) (opening : ℕ) (out : ParseOutput) : Option (ℕ × ParseOutput) := do
  let afterOpen := opening + 2
  match ← findFrom text closeMark afterOpen with
  | none =>
    let out ← pushProse
      (out.warn ⟨opening, .unclosedMarker, "missing `\x7d\x7d` for opening `\x7b\x7b`".toList⟩)
      text opening (len text)
    pure (len text, out)
  | some closeAttr =>
    let attrStr ← slice text afterOpen closeAttr
    let markerEnd := closeAttr + 2
    if '\n' ∈ attrStr then
      -- recovery: the braces stay prose, and what follows them is scanned again
      let out ← pushProse
        (out.warn ⟨opening, .unclosedMarker,
          "marker open spans a newline (markers are single-line)".toList⟩)
        text opening (opening + 2)
      pure (opening + 2, out)
    else if attrStr = ['/'] then
      let out ← pushProse
        (out.warn ⟨opening, .strayCloseMarker,
          "stray `\x7b\x7b/\x7d\x7d` without a matching open marker".toList⟩)
        text opening markerEnd
      pure (markerEnd, out)
    else
      match stripPrefix "embed=".toList attrStr with
      | some catalogRaw =>
        match CatalogId.parse catalogRaw with
        | .ok cid => pure (markerEnd, out.push (.embed opening markerEnd cid))
        | .error raw =>
          let out ← pushProse
            (out.warn ⟨opening, .invalidCatalogId, "invalid catalog_id ".toList ++ debug raw⟩)
            text opening markerEnd
          pure (markerEnd, out)
      | none =>
        match ← findFrom text regionEnd markerEnd with
        | none =>
          let out ← pushProse
            (out.warn ⟨opening, .unclosedRegion,
              "missing `\x7b\x7b/\x7d\x7d` terminator for the open region".toList⟩)
            text opening markerEnd
          pure (markerEnd, out)
        | some term =>
          let upToTerm ← slice text 0 term
          let inner ← scanBody upToTerm (len text + 1) markerEnd {}
          let body ← slice text markerEnd term
          pure (term + 5,
            { events := out.events ++
                [.region opening (term + 5) (parseAttrs attrStr opening).1 markerEnd term body
                  inner.embeds]
              warnings := out.warnings ++ inner.warnings ++ (parseAttrs attrStr opening).2 })

/-- Append the prose between the cursor and the next marker. -/
def pushBefore (out : ParseOutput) (text : Str) (pos opening : ℕ) : Option ParseOutput :=
  if opening > pos then pushProse out text pos opening else some out

/-- The scanner loop at cursor `pos`; `none` when the fuel runs out or a slice is bad. -/
def parseLoop (text : Str) : ℕ → ℕ → ParseOutput → Option ParseOutput
  | 0, _, _ => none
  | fuel + 1, pos, out =>
    if len text ≤ pos then some out
    else do
      match ← findFrom text openMark pos with
      | none => pushProse out text pos (len text)
      | some opening =>
        let out ← pushBefore out text pos opening
        let (pos, out) ← parseMarker text opening out
        parseLoop text fuel pos out

/-- Parse the input string into events and warnings. -/
def parse (text : Str) : Option ParseOutput := parseLoop text (len text + 1) 0 {}

end Mwe
