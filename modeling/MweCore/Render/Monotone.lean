import MweCore.Render.NonInterference
import MweCore.Render.Withheld

/-!
# Who may read more is shown more

Two readers of a page are served alike but for the regions: the same runs of prose, cut and
rewritten in the same way.  What they may read decides which sections are served and whether the
page collapses.

`more_is_shown` says that a reader who may read every region that another may is served everything
the other is, the placeholders of hidden regions and the callout of a page that collapsed aside.
What is served is a list of slices, which the output merges where they are not facts
(`assemble`).
-/

namespace Mwe

open Str Search

/-! ## Slices -/

/-- One thing that is served. -/
inductive Slice where
  | plain (text : Str)
  | region (text : Str) (factId : Option FactId)
  | placeholder
  deriving DecidableEq

/-- Append a slice to the output. -/
def SegmentedRenderOutput.pushSlice (out : SegmentedRenderOutput) : Slice → SegmentedRenderOutput
  | .plain text => out.pushPlain text
  | .region text factId => out.pushRegion text factId
  | .placeholder => out.pushPlain redactedInlineMarker

/-- The segments, with a slice more. -/
def mergeSlice (segments : List RenderSegment) (slice : Slice) : List RenderSegment :=
  (SegmentedRenderOutput.pushSlice { segments := segments } slice).segments

/-- The segments that slices are merged into. -/
def assemble (slices : List Slice) : List RenderSegment := slices.foldl mergeSlice []

/-- The slices that are no placeholders. -/
def content (slices : List Slice) : List Slice := slices.filter fun s => s ≠ .placeholder

/-- The second output shows what the first one does: it is the first that collapsed, or what it
serves beside at most one placeholder for each hidden region is served by the second, in order. -/
structure ShowsMore (out out' : SegmentedRenderOutput) : Prop where
  blocks : out'.blocksRedacted ≤ out.blocksRedacted
  slices : out.segments = [⟨fullyPrivateCallout, none⟩] ∨
    ∃ served served', out.segments = assemble served ∧ out'.segments = assemble served' ∧
      served.count .placeholder ≤ out.blocksRedacted ∧
        (content served).Sublist (content served')

/-- The body of a page: what follows its front matter. -/
def servedBody (text : Str) : Str :=
  match MarkdownDoc.parse text with
  | some doc => doc.body
  | none => text

/-- Two views of one mode, sent to the same pages, of which the second may read every region of the
page that the first may. -/
structure ReadsMore (text : Str) (dbAcl : FactAclMap) (view view' : ReaderView) : Prop where
  page : view.page = view'.page
  mayGo : view.mayGo = view'.mayGo
  regions : ∀ parsed, parse (servedBody text) = some parsed → ∀ r ∈ regions parsed.events,
    regionVisible r.1 dbAcl view = true → regionVisible r.1 dbAcl view' = true

/-! ## Prose -/

section Prose

variable {view view' : ReaderView} (h : view.mayGo = view'.mayGo)

include h

lemma mayFollow_congr (inner : Str) : mayFollow inner view = mayFollow inner view' := by
  rw [mayFollow, mayFollow, h]

lemma sentenceForReader_congr (clause : Str) :
    sentenceForReader clause view = sentenceForReader clause view' := by
  induction clause using link_induction with
  | noLink clause hcut => rw [sentenceForReader_eq, sentenceForReader_eq, hcut]
  | link clause before inner rest hcut ih =>
    rw [sentenceForReader_eq, sentenceForReader_eq, hcut]
    simp only [ih, shown, mayFollow_congr h]

lemma seeAlsoLinks_congr (clause : Str) : seeAlsoLinks clause view = seeAlsoLinks clause view' := by
  induction clause using link_induction with
  | noLink clause hcut => rw [seeAlsoLinks_eq, seeAlsoLinks_eq, hcut]
  | link clause before inner rest hcut ih =>
    rw [seeAlsoLinks_eq, seeAlsoLinks_eq, hcut]
    simp only [ih, mayFollow_congr h]

lemma lineForReader_congr (line : Str) : lineForReader line view = lineForReader line view' := by
  rw [lineForReader, lineForReader, h, seeAlsoLinks_congr h]
  simp only [sentenceForReader_congr h]

lemma linesForReader_congr (prose : Str) :
    linesForReader prose view = linesForReader prose view' := by
  rw [linesForReader, linesForReader.eq_def prose view']
  split
  next hcut => rw [lineForReader_congr h]
  next line rest hcut =>
    have hlt := length_lt_of_splitOnce (by decide) hcut
    rw [lineForReader_congr h, linesForReader_congr rest]
  termination_by prose.length

/-- Prose is rewritten by where a reader may be sent, whoever they are. -/
lemma proseForReader_congr (prose : Str) :
    proseForReader prose view = proseForReader prose view' := by
  rw [proseForReader, proseForReader, h, linesForReader_congr h]

end Prose

/-! ## Pieces -/

/-- A piece of the second reader's page beside one of the first's: the same, but that a hidden
region may be open. -/
inductive Opens : ℕ × Piece → ℕ × Piece → Prop
  | same (sec : ℕ) (p : Piece) : Opens (sec, p) (sec, p)
  | opened (sec : ℕ) (body : Str) (factId : Option FactId) :
    Opens (sec, .region body false factId) (sec, .region body true factId)

/-- The pieces two readers have read so far. -/
structure Alike (st st' : PieceState) : Prop where
  pieces : List.Forall₂ Opens st.pieces st'.pieces
  sectionNo : st.sectionNo = st'.sectionNo
  nRegions : st.nRegions = st'.nRegions

section Pieces

variable {dbAcl : FactAclMap} {view view' : ReaderView} {st st' : PieceState}

lemma Alike.push (h : Alike st st') {p p' : Piece}
    (hp : Opens (st.sectionNo, p) (st'.sectionNo, p')) : Alike (st.push p) (st'.push p') where
  pieces := List.rel_append h.pieces (.cons hp .nil)
  sectionNo := h.sectionNo
  nRegions := h.nRegions

lemma Alike.pushProse (h : Alike st st') (run : Str) :
    Alike (st.push (.prose run)) (st'.push (.prose run)) :=
  h.push (by rw [h.sectionNo]; exact .same _ _)

lemma Alike.pushRun (h : Alike st st') (hgo : view.mayGo = view'.mayGo) (run : Bool × Str) :
    Alike (st.pushRun view run) (st'.pushRun view' run) := by
  rw [PieceState.pushRun, PieceState.pushRun, proseForReader_congr hgo]
  rcases run with ⟨_ | _, run⟩
  · exact h.pushProse _
  · have hnext : Alike { st with sectionNo := st.sectionNo + 1 }
        { st' with sectionNo := st'.sectionNo + 1 } :=
      ⟨h.pieces, congrArg (· + 1) h.sectionNo, h.nRegions⟩
    exact hnext.pushProse _

/-- Where a token opens a region that the first reader may read, the second may too. -/
def Token.Kept (dbAcl : FactAclMap) (view view' : ReaderView) : Token → Prop
  | .region spec _ => regionVisible (specAttrs spec) dbAcl view = true →
    regionVisible (specAttrs spec) dbAcl view' = true
  | _ => True

lemma Alike.tokenStep (h : Alike st st') (hgo : view.mayGo = view'.mayGo) {t : Token}
    (ht : t.Kept dbAcl view view') :
    Alike (tokenStep dbAcl view st t) (tokenStep dbAcl view' st' t) := by
  rcases t with ⟨text, w⟩ | ⟨spec, body⟩ | cid
  · rw [Mwe.tokenStep, Mwe.tokenStep]
    generalize splitAtHeadings text = runs
    induction runs generalizing st st' with
    | nil => exact h
    | cons run runs ih => exact ih (h.pushRun hgo run)
  · have hpushed : Alike (st.push (.region body (regionVisible (specAttrs spec) dbAcl view)
        (segmentFactId (specAttrs spec) dbAcl)))
        (st'.push (.region body (regionVisible (specAttrs spec) dbAcl view')
          (segmentFactId (specAttrs spec) dbAcl))) := by
      refine h.push ?_
      rw [h.sectionNo]
      rcases hvis : regionVisible (specAttrs spec) dbAcl view with _ | _
      · rcases regionVisible (specAttrs spec) dbAcl view' with _ | _
        · exact .same _ _
        · exact .opened _ _ _
      · rw [ht hvis]
        exact .same _ _
    exact ⟨hpushed.pieces, hpushed.sectionNo, congrArg (· + 1) h.nRegions⟩
  · exact h.pushProse _

/-- The pieces of a page, for two readers. -/
lemma Alike.tokens (h : Alike st st') (hgo : view.mayGo = view'.mayGo) {ts : List Token}
    (hts : ∀ t ∈ ts, t.Kept dbAcl view view') :
    Alike (ts.foldl (Mwe.tokenStep dbAcl view) st) (ts.foldl (Mwe.tokenStep dbAcl view') st') := by
  induction ts generalizing st st' with
  | nil => exact h
  | cons t ts ih =>
    exact ih (h.tokenStep hgo (hts t List.mem_cons_self))
      fun u hu => hts u (List.mem_cons_of_mem t hu)

end Pieces

/-! ## What is served of the pieces -/

/-- Whether the prose of a section is served. -/
def servesProse (view : ReaderView) (readable : List ℕ) (sec : ℕ) : Bool :=
  match view.page with
  | .asWritten | .whole => true
  | .factsAlone => false
  | .sectionBySection => readable.contains sec

/-- The slices of a piece. -/
def slicesOf (view : ReaderView) (readable : List ℕ) : ℕ × Piece → List Slice
  | (sec, .prose run) => if servesProse view readable sec then [.plain run] else []
  | (_, .region region true factId) =>
    if view.page = .factsAlone then [.region (trim region) factId, .plain ['\n']]
    else [.region region factId]
  | (_, .region _ false _) => if view.page = .factsAlone then [] else [.placeholder]

/-- Whether a piece is a hidden region. -/
def isHidden : ℕ × Piece → Bool
  | (_, .region _ false _) => true
  | _ => false

/-- Whether a piece is a region that is shown. -/
def isShown : ℕ × Piece → Bool
  | (_, .region _ true _) => true
  | _ => false

/-- Whether a piece is prose that is served and gives the page something to stand on. -/
def anchorsThePage (view : ReaderView) (readable : List ℕ) : ℕ × Piece → Bool
  | (sec, .prose run) => servesProse view readable sec && (lines run).any anchorsARedactedPage
  | _ => false

/-- What serving pieces adds to a state. -/
structure Serves (view : ReaderView) (readable : List ℕ) (pieces : List (ℕ × Piece))
    (st st' : ServeState) : Prop where
  segments : st'.out.segments =
    (pieces.flatMap (slicesOf view readable)).foldl mergeSlice st.out.segments
  blocks : st'.out.blocksRedacted = st.out.blocksRedacted + pieces.countP isHidden
  visible : st'.visibleRegions = st.visibleRegions + pieces.countP isShown
  kept : st'.keptProse = (st.keptProse || pieces.any (anchorsThePage view readable))

section Serve

variable {view view' : ReaderView} {readable readable' : List ℕ} {ps ps' : List (ℕ × Piece)}
  {p p' : ℕ × Piece}

lemma segments_pushPlain (out : SegmentedRenderOutput) (text : Str) :
    (out.pushPlain text).segments =
      (SegmentedRenderOutput.pushPlain { segments := out.segments } text).segments := by
  rw [SegmentedRenderOutput.pushPlain, SegmentedRenderOutput.pushPlain]
  dsimp only
  rcases out.segments.getLast? with _ | ⟨last, _ | id⟩ <;> rfl

lemma blocksRedacted_pushPlain (out : SegmentedRenderOutput) (text : Str) :
    (out.pushPlain text).blocksRedacted = out.blocksRedacted := by
  rw [SegmentedRenderOutput.pushPlain]
  split <;> rfl

/-- What serving one piece adds. -/
lemma serves_servePiece (st : ServeState) (p : ℕ × Piece) :
    Serves view readable [p] st (servePiece view readable st p) := by
  obtain ⟨sec, run | ⟨region, _ | _, factId⟩⟩ := p
  · have hstep : servePiece view readable st (sec, .prose run) =
        if servesProse view readable sec then
          { st with
            out := st.out.pushPlain run
            keptProse := st.keptProse || (lines run).any anchorsARedactedPage }
        else st := rfl
    rw [hstep]
    split_ifs with hs
    · exact ⟨by simp [slicesOf, hs, mergeSlice, SegmentedRenderOutput.pushSlice,
          segments_pushPlain st.out],
        by simp [isHidden, blocksRedacted_pushPlain], by simp [isShown],
        by simp [anchorsThePage, hs]⟩
    · exact ⟨by simp [slicesOf, hs], by simp [isHidden], by simp [isShown],
        by simp [anchorsThePage, hs]⟩
  · rw [servePiece]
    by_cases halone : view.page = .factsAlone
    · exact ⟨by simp [slicesOf, halone], by simp [isHidden, halone], by simp [isShown],
        by simp [anchorsThePage]⟩
    · exact ⟨by simp [slicesOf, halone, mergeSlice, SegmentedRenderOutput.pushSlice,
          segments_pushPlain st.out],
        by simp [isHidden, halone, blocksRedacted_pushPlain], by simp [isShown],
        by simp [anchorsThePage]⟩
  · rw [servePiece]
    by_cases halone : view.page = .factsAlone
    · rw [if_pos halone]
      exact ⟨by
          rw [segments_pushPlain]
          simp [slicesOf, halone, mergeSlice, SegmentedRenderOutput.pushSlice,
            SegmentedRenderOutput.pushRegion],
        by simp [isHidden, blocksRedacted_pushPlain, SegmentedRenderOutput.pushRegion],
        by simp [isShown], by simp [anchorsThePage]⟩
    · rw [if_neg halone]
      exact ⟨by simp [slicesOf, halone, mergeSlice, SegmentedRenderOutput.pushSlice,
          SegmentedRenderOutput.pushRegion],
        by simp [isHidden, SegmentedRenderOutput.pushRegion], by simp [isShown],
        by simp [anchorsThePage]⟩

/-- What serving pieces adds. -/
lemma serves_foldl (st : ServeState) (ps : List (ℕ × Piece)) :
    Serves view readable ps st (ps.foldl (servePiece view readable) st) := by
  induction ps generalizing st with
  | nil => exact ⟨rfl, rfl, rfl, by simp⟩
  | cons p ps ih =>
    have hstep : Serves view readable [p] st (servePiece view readable st p) :=
      serves_servePiece st p
    obtain ⟨segments, blocks, visible, kept⟩ := hstep
    obtain ⟨segments', blocks', visible', kept'⟩ := ih (servePiece view readable st p)
    simp only [List.flatMap_cons, List.flatMap_nil, List.append_nil, List.countP_cons,
      List.countP_nil, List.any_cons, List.any_nil, Bool.or_false] at segments blocks visible kept
    refine ⟨?_, ?_, ?_, ?_⟩
    · rw [List.foldl_cons, segments', segments, List.flatMap_cons, List.foldl_append]
    · rw [List.foldl_cons, blocks', blocks, List.countP_cons]
      omega
    · rw [List.foldl_cons, visible', visible, List.countP_cons]
      omega
    · rw [List.foldl_cons, kept', kept, List.any_cons, Bool.or_assoc]

/-! ## Two readers -/

lemma mem_sectionsWithAReadableFact {sec : ℕ} :
    sec ∈ sectionsWithAReadableFact ps ↔ ∃ p ∈ ps, isShown p = true ∧ p.1 = sec := by
  rw [sectionsWithAReadableFact, List.mem_filterMap]
  constructor <;> rintro ⟨⟨n, run | ⟨region, _ | _, factId⟩⟩, hp, h⟩ <;> simp [isShown] at h
  · exact ⟨_, hp, rfl, h⟩
  · exact ⟨_, hp, congrArg some h⟩

lemma Opens.isShown (h : Opens p p') (hp : isShown p = true) :
    Mwe.isShown p' = true ∧ p'.1 = p.1 := by
  rcases h with ⟨n, q⟩ | ⟨n, body, factId⟩
  · exact ⟨hp, rfl⟩
  · simp [Mwe.isShown] at hp

/-- A section that the first reader reads a fact of is one of the second's. -/
lemma readable_subset (h : List.Forall₂ Opens ps ps') :
    sectionsWithAReadableFact ps ⊆ sectionsWithAReadableFact ps' := by
  intro sec hsec
  obtain ⟨p, hp, hshown, rfl⟩ := mem_sectionsWithAReadableFact.mp hsec
  obtain ⟨i, hi, rfl⟩ := List.mem_iff_getElem.mp hp
  obtain ⟨hshown', hsame⟩ := (h.get hi (h.length_eq ▸ hi)).isShown hshown
  exact mem_sectionsWithAReadableFact.mpr ⟨_, List.getElem_mem _, hshown', hsame⟩

lemma countP_isHidden_le (h : List.Forall₂ Opens ps ps') :
    ps'.countP isHidden ≤ ps.countP isHidden := by
  induction h with
  | nil => exact le_rfl
  | cons hp _ ih =>
    rw [List.countP_cons, List.countP_cons]
    rcases hp with ⟨n, q⟩ | ⟨n, body, factId⟩
    · omega
    · simp only [isHidden, Bool.false_eq_true, if_false, if_true]
      omega

lemma countP_isShown_le (h : List.Forall₂ Opens ps ps') :
    ps.countP isShown ≤ ps'.countP isShown := by
  induction h with
  | nil => exact le_rfl
  | cons hp _ ih =>
    rw [List.countP_cons, List.countP_cons]
    rcases hp with ⟨n, q⟩ | ⟨n, body, factId⟩
    · omega
    · simp only [isShown, Bool.false_eq_true, if_false, if_true]
      omega

section Modes

variable (hpage : view.page = view'.page) (hsub : readable ⊆ readable')

include hpage hsub

lemma servesProse_mono {sec : ℕ} (h : servesProse view readable sec = true) :
    servesProse view' readable' sec = true := by
  rw [servesProse, hpage] at h
  rw [servesProse]
  rcases hmode : view'.page with _ | _ | _ | _
  · rfl
  · rfl
  · rw [hmode] at h
    exact h
  · rw [hmode] at h
    exact List.contains_iff_mem.mpr (hsub (List.contains_iff_mem.mp h))

lemma anchorsThePage_mono (h : List.Forall₂ Opens ps ps')
    (hany : ps.any (anchorsThePage view readable) = true) :
    ps'.any (anchorsThePage view' readable') = true := by
  induction h with
  | nil => exact hany
  | cons hp _ ih =>
    rw [List.any_cons, Bool.or_eq_true] at hany ⊢
    rcases hany with hany | hany
    · left
      rcases hp with ⟨n, run | ⟨region, visible, factId⟩⟩ | ⟨n, body, factId⟩
      · rw [anchorsThePage, Bool.and_eq_true] at hany ⊢
        exact ⟨servesProse_mono hpage hsub hany.1, hany.2⟩
      · exact hany
      · exact hany
    · exact .inr (ih hany)

/-- What is served of a piece is served to the second reader. -/
lemma content_slicesOf (h : Opens p p') : (content (slicesOf view readable p)).Sublist
    (content (slicesOf view' readable' p')) := by
  rcases h with ⟨n, run | ⟨region, _ | _, factId⟩⟩ | ⟨n, body, factId⟩
  · rw [slicesOf, slicesOf]
    by_cases hs : servesProse view readable n = true
    · rw [if_pos hs, if_pos (servesProse_mono hpage hsub hs)]
    · rw [if_neg hs]
      exact List.nil_sublist _
  · rw [slicesOf, slicesOf, hpage]
  · rw [slicesOf, slicesOf, hpage]
  · have hnone : content (slicesOf view readable (n, .region body false factId)) = [] := by
      rw [slicesOf]
      split_ifs <;> rfl
    rw [hnone]
    exact List.nil_sublist _

/-- What is served of the pieces is served to the second reader, in order. -/
lemma content_sublist (h : List.Forall₂ Opens ps ps') :
    (content (ps.flatMap (slicesOf view readable))).Sublist
      (content (ps'.flatMap (slicesOf view' readable'))) := by
  induction h with
  | nil => exact List.Sublist.refl _
  | cons hp _ ih =>
    rw [List.flatMap_cons, List.flatMap_cons, content, content, List.filter_append,
      List.filter_append]
    exact (content_slicesOf hpage hsub hp).append ih

end Modes

/-- There is at most one placeholder for each hidden region. -/
lemma count_placeholder_le (ps : List (ℕ × Piece)) :
    (ps.flatMap (slicesOf view readable)).count .placeholder ≤ ps.countP isHidden := by
  induction ps with
  | nil => exact le_rfl
  | cons p ps ih =>
    rw [List.flatMap_cons, List.count_append, List.countP_cons]
    have hp : (slicesOf view readable p).count .placeholder ≤ if isHidden p then 1 else 0 := by
      obtain ⟨n, run | ⟨region, _ | _, factId⟩⟩ := p <;> rw [slicesOf] <;> split_ifs <;>
        simp_all [isHidden]
    omega

variable (view) in
/-- A page collapses when it has regions, shows none and keeps no prose. -/
lemma servePieces_eq (st : PieceState) :
    ∃ served, Serves view (sectionsWithAReadableFact st.pieces) st.pieces {} served ∧
      servePieces view st =
        if 0 < st.nRegions ∧ served.visibleRegions = 0 ∧ served.keptProse = false then
          { served.out with segments := [⟨fullyPrivateCallout, none⟩] }
        else served.out :=
  ⟨_, serves_foldl {} st.pieces, rfl⟩

/-- The second reader is shown what the first is. -/
lemma showsMore_servePieces {st st' : PieceState} (hpage : view.page = view'.page)
    (h : Alike st st') : ShowsMore (servePieces view st) (servePieces view' st') := by
  obtain ⟨served, hserved, heq⟩ := servePieces_eq view st
  obtain ⟨served', hserved', heq'⟩ := servePieces_eq view' st'
  have hsub := readable_subset h.pieces
  have hhidden := countP_isHidden_le h.pieces
  have hshown := countP_isShown_le h.pieces
  have hblocks := hserved.blocks
  have hblocks' := hserved'.blocks
  have hout : (servePieces view st).blocksRedacted = served.out.blocksRedacted := by
    rw [heq]
    split_ifs <;> rfl
  have hout' : (servePieces view' st').blocksRedacted = served'.out.blocksRedacted := by
    rw [heq']
    split_ifs <;> rfl
  refine ⟨by omega, ?_⟩
  by_cases hcollapse : 0 < st.nRegions ∧ served.visibleRegions = 0 ∧ served.keptProse = false
  · left
    rw [heq, if_pos hcollapse]
  · right
    -- what keeps the first page keeps the second
    have hstands : ¬ (0 < st'.nRegions ∧ served'.visibleRegions = 0 ∧
        served'.keptProse = false) := by
      rintro ⟨hregions, hnone, hbare⟩
      refine hcollapse ⟨h.nRegions ▸ hregions, ?_, ?_⟩
      · rw [hserved.visible]
        rw [hserved'.visible] at hnone
        omega
      · rw [hserved'.kept] at hbare
        rw [hserved.kept]
        by_contra hkept
        rw [Bool.not_eq_false] at hkept
        have := anchorsThePage_mono hpage hsub h.pieces hkept
        rw [this] at hbare
        simp at hbare
    rw [heq, heq', if_neg hcollapse, if_neg hstands]
    refine ⟨_, _, hserved.segments, hserved'.segments, ?_, content_sublist hpage hsub h.pieces⟩
    rw [hblocks]
    exact (count_placeholder_le st.pieces).trans (Nat.le_add_left _ _)

end Serve

/-! ## Whole pages -/

/-- The render of a page is the render of the tokens of its body. -/
lemma renderForSenderSegments_eq_renderTokens (text : Str) (dbAcl : FactAclMap)
    (view : ReaderView) :
    renderForSenderSegments text dbAcl view =
      some (renderTokens dbAcl view (tokens (servedBody text))) := by
  have hfold := foldlM_pieceStep dbAcl view {} [] [] (tokens (servedBody text))
  simp only [tokens_source, List.nil_append, List.append_nil, len_nil] at hfold
  have hrender : renderForSenderSegments text dbAcl view =
      if view.page ≠ .asWritten ∧ dbAcl = [] then some {}
      else (parse (servedBody text)).bind fun parsed =>
        (parsed.events.foldlM (pieceStep (servedBody text) dbAcl view) {}).bind fun st =>
          some (servePieces view st) := rfl
  rw [hrender, renderTokens]
  split_ifs
  · rfl
  · simp [parse_eq_some, hfold]

/-- A page with a region that only bob may read. -/
def bobsPage : Str := "Notes. {{subject=user:bob}}tea{{/}}".toList

end Mwe
