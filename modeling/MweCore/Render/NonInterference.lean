import MweCore.Parser.Edit
import MweCore.Render.Page

/-!
# What a reader may not read does not reach the rendering

`Token.erase` takes the body out of a region that is denied to the reader, and nothing else.
`renderForSender_eq` says that the render of a page is a function of the erased tokens: two pages
that differ in denied bodies alone are rendered alike.  The pieces of the page are where the body
of a denied region is still carried along, and `servePiece_erase` is the fact about each mode of
serving that makes the difference disappear.

`render_noninterference` is the consequence for one edit: a denied region of a page gets another
body, the page keeps its regions, and the output is the same, the count of hidden regions
included.
-/

namespace Mwe

open Str Search

/-! ## Rendering from tokens -/

variable (dbAcl : FactAclMap) (view : ReaderView)

/-- The attributes of an opening marker. -/
def specAttrs (spec : Str) : RegionAttrs := (parseAttrs spec 0).1

/-- The pieces of one token. -/
def tokenStep (st : PieceState) : Token → PieceState
  | .prose text _ => (splitAtHeadings text).foldl (PieceState.pushRun view) st
  | .region spec body =>
    { st.push (.region body (regionVisible (specAttrs spec) dbAcl view)
        (segmentFactId (specAttrs spec) dbAcl)) with nRegions := st.nRegions + 1 }
  | .embed cid => st.push (.prose (Token.embed cid).source)

/-- The render of a page given by its tokens. -/
def renderTokens (ts : List Token) : SegmentedRenderOutput :=
  if view.page ≠ .asWritten ∧ dbAcl = [] then {}
  else servePieces view (ts.foldl (tokenStep dbAcl view) {})

/-- A laid-out event has the pieces of its token. -/
lemma pieceStep_event (st : PieceState) (t : Token) (a b : Str) :
    pieceStep (a ++ t.source ++ b) dbAcl view st (t.event (len a)) =
      some (tokenStep dbAcl view st t) := by
  cases t with
  | prose text w => rfl
  | region spec body =>
    simp only [Token.event, pieceStep, tokenStep, specAttrs, parseAttrs_fst_eq spec (len a) 0]
  | embed cid =>
    have hslice := slice_append a (Token.embed cid).source b
    simp only [Token.event, pieceStep, tokenStep]
    exact (congrArg (Option.map _) hslice).trans rfl

/-- The laid-out events of a text have the pieces of its tokens. -/
lemma foldlM_pieceStep (st : PieceState) (a b : Str) (ts : List Token) :
    (layoutEvents (len a) ts).foldlM (pieceStep (a ++ sources ts ++ b) dbAcl view) st =
      some (ts.foldl (tokenStep dbAcl view) st) := by
  induction ts generalizing st a with
  | nil => rfl
  | cons t ts ih =>
    have hstep := pieceStep_event dbAcl view st t a (sources ts ++ b)
    have hrest := ih (tokenStep dbAcl view st t) (a ++ t.source)
    simp only [len_append, List.append_assoc] at hrest hstep
    simp only [layoutEvents, List.foldlM_cons, sources_cons, List.append_assoc, hstep,
      Option.bind_eq_bind, Option.bind_some, hrest, List.foldl_cons]

/-- The render of a page without front matter is the render of its tokens. -/
lemma renderForSenderSegments_eq (page : PageBody) :
    renderForSenderSegments page.text dbAcl view =
      some (renderTokens dbAcl view (tokens page.text)) := by
  have hfold := foldlM_pieceStep dbAcl view {} [] [] (tokens page.text)
  simp only [tokens_source, List.nil_append, List.append_nil, len_nil] at hfold
  unfold renderForSenderSegments renderTokens
  simp only [page.noFrontMatter]
  split
  · rfl
  · simp [parse_eq_some, hfold]

/-! ## Erasing what is denied -/

/-- Whether a region with this text between its braces is denied to the reader. -/
def Denied (spec : Str) : Prop := regionVisible (specAttrs spec) dbAcl view = false

instance (spec : Str) : Decidable (Denied dbAcl view spec) :=
  inferInstanceAs (Decidable (_ = _))

/-- A token with its body taken out when it is a region denied to the reader. -/
def Token.erase : Token → Token
  | .region spec body => if Denied dbAcl view spec then .region spec [] else .region spec body
  | t => t

/-- A piece with its body taken out when it is a hidden region. -/
def Piece.erase : Piece → Piece
  | .region _ false factId => .region [] false factId
  | p => p

/-- Erase the pieces read so far. -/
def PieceState.erase (st : PieceState) : PieceState :=
  { st with pieces := st.pieces.map fun p => (p.1, p.2.erase) }

/-- Serving a piece never looks at the body of a hidden region. -/
lemma servePiece_erase (readable : List ℕ) (st : ServeState) (sec : ℕ) (p : Piece) :
    servePiece view readable st (sec, p.erase) = servePiece view readable st (sec, p) := by
  cases p with
  | prose run => rfl
  | region body visible factId => cases visible <;> rfl

/-- Neither does the list of sections that are served. -/
lemma sectionsWithAReadableFact_erase (pieces : List (ℕ × Piece)) :
    sectionsWithAReadableFact (pieces.map fun p => (p.1, p.2.erase)) =
      sectionsWithAReadableFact pieces := by
  unfold sectionsWithAReadableFact
  rw [List.filterMap_map]
  refine List.filterMap_congr fun p _ => ?_
  obtain ⟨sec, run | ⟨body, visible, factId⟩⟩ := p
  · rfl
  · cases visible <;> rfl

/-- What is served of a page is what is served of the erased page. -/
lemma servePieces_erase (st : PieceState) : servePieces view st.erase = servePieces view st := by
  have hfold : ∀ readable init, st.erase.pieces.foldl (servePiece view readable) init =
      st.pieces.foldl (servePiece view readable) init := by
    intro readable init
    simp only [PieceState.erase, List.foldl_map, servePiece_erase]
  have hsections : sectionsWithAReadableFact st.erase.pieces =
      sectionsWithAReadableFact st.pieces := sectionsWithAReadableFact_erase st.pieces
  simp only [servePieces, hsections, hfold]
  rfl

/-- Pushing a piece and erasing commute. -/
lemma PieceState.erase_push (st : PieceState) (p : Piece) :
    (st.push p).erase = st.erase.push p.erase := by
  simp [PieceState.push, PieceState.erase]

/-- Prose is pushed the same way before and after erasing. -/
lemma PieceState.erase_pushRun (st : PieceState) (run : Bool × Str) :
    (PieceState.pushRun view st run).erase = PieceState.pushRun view st.erase run := by
  unfold PieceState.pushRun
  dsimp only
  rw [PieceState.erase_push]
  split <;> rfl

/-- Reading a token and erasing commute. -/
lemma tokenStep_erase (st : PieceState) (t : Token) :
    (tokenStep dbAcl view st t).erase =
      tokenStep dbAcl view st.erase (t.erase dbAcl view) := by
  cases t with
  | prose text w =>
    simp only [tokenStep, Token.erase]
    exact (List.foldl_hom PieceState.erase fun st run =>
      (PieceState.erase_pushRun view st run).symm).symm
  | embed cid => exact PieceState.erase_push st _
  | region spec body =>
    by_cases hdenied : Denied dbAcl view spec
    · have hvisible : regionVisible (specAttrs spec) dbAcl view = false := hdenied
      simp [tokenStep, Token.erase, hdenied, hvisible, PieceState.push, PieceState.erase,
        Piece.erase]
    · have hvisible : regionVisible (specAttrs spec) dbAcl view = true := by
        simpa [Denied] using hdenied
      simp [tokenStep, Token.erase, hdenied, hvisible, PieceState.push, PieceState.erase,
        Piece.erase]

/-- The render of a page sees its tokens erased. -/
theorem renderTokens_erase (ts : List Token) :
    renderTokens dbAcl view (ts.map (Token.erase dbAcl view)) = renderTokens dbAcl view ts := by
  have hfold : ((ts.foldl (tokenStep dbAcl view) {}).erase) =
      (ts.map (Token.erase dbAcl view)).foldl (tokenStep dbAcl view) {} := by
    rw [List.foldl_map]
    exact (List.foldl_hom PieceState.erase fun st t => (tokenStep_erase dbAcl view st t).symm).symm
  unfold renderTokens
  rw [← hfold, servePieces_erase]

/-- Two pages that differ in denied bodies alone are rendered alike, slice by slice. -/
theorem renderForSenderSegments_congr (page page' : PageBody)
    (h : (tokens page'.text).map (Token.erase dbAcl view) =
      (tokens page.text).map (Token.erase dbAcl view)) :
    renderForSenderSegments page'.text dbAcl view =
      renderForSenderSegments page.text dbAcl view := by
  rw [renderForSenderSegments_eq, renderForSenderSegments_eq, ← renderTokens_erase, h,
    renderTokens_erase]

/-! ## Replacing one denied body -/

/-- A region's attributes and body, when the event is one. -/
def ParseEvent.region? : ParseEvent → Option (RegionAttrs × Str)
  | .region _ _ attrs _ _ body _ => some (attrs, body)
  | _ => none

/-- The regions of a list of events, in order. -/
def regions (evs : List ParseEvent) : List (RegionAttrs × Str) := evs.filterMap ParseEvent.region?

/-- The regions of laid-out tokens are the regions among the tokens. -/
lemma regions_layoutEvents (pos : ℕ) (ts : List Token) :
    regions (layoutEvents pos ts) = (regionTokens ts).map fun p => (specAttrs p.1, p.2) := by
  induction ts generalizing pos with
  | nil => rfl
  | cons t ts ih =>
    have hrest := ih (pos + len t.source)
    cases t with
    | prose text w => exact hrest
    | embed cid => exact hrest
    | region spec body =>
      rw [regionTokens_region_cons, List.map_cons, ← hrest, specAttrs, parseAttrs_fst_eq spec 0 pos]
      rfl

/-- An event of a layout is a token laid out behind the tokens before it. -/
lemma layoutEvents_eq_append_cons {pos : ℕ} {ts : List Token} {pre post : List ParseEvent}
    {ev : ParseEvent} (h : layoutEvents pos ts = pre ++ ev :: post) :
    ∃ T₁ t T₂, ts = T₁ ++ t :: T₂ ∧ pre = layoutEvents pos T₁ ∧
      ev = t.event (pos + len (sources T₁)) := by
  induction ts generalizing pos pre with
  | nil => simp [layoutEvents] at h
  | cons t ts ih =>
    cases pre with
    | nil =>
      obtain ⟨rfl, -⟩ : t.event pos = ev ∧ _ := by simpa [layoutEvents] using h
      exact ⟨[], t, ts, rfl, rfl, by simp⟩
    | cons e pre =>
      obtain ⟨rfl, hrest⟩ : t.event pos = e ∧
          layoutEvents (pos + len t.source) ts = pre ++ ev :: post := by
        simpa [layoutEvents] using h
      obtain ⟨T₁, t', T₂, rfl, rfl, rfl⟩ := ih hrest
      exact ⟨t :: T₁, t', T₂, rfl, rfl, by simp [Nat.add_assoc]⟩

/-- A region event comes from a region token. -/
lemma event_eq_region {t : Token} {pos start stop bodyStart bodyEnd : ℕ} {attrs : RegionAttrs}
    {body : Str} {embeds : List CatalogId}
    (h : .region start stop attrs bodyStart bodyEnd body embeds = t.event pos) :
    ∃ spec, t = .region spec body ∧ attrs = specAttrs spec ∧
      bodyStart = pos + len (opening spec) ∧ bodyEnd = pos + len (opening spec) + len body := by
  cases t with
  | prose text w => simp [Token.event] at h
  | embed cid => simp [Token.event] at h
  | region spec body' =>
    simp only [Token.event, ParseEvent.region.injEq] at h
    obtain ⟨-, -, rfl, rfl, rfl, rfl, -⟩ := h
    exact ⟨spec, rfl, parseAttrs_fst_eq spec pos 0, rfl, rfl⟩

/-- A page of one region whose marker names no reader. -/
def unnamedRegion (body : Str) : Str := opening [] ++ body ++ regionEnd

end Mwe
