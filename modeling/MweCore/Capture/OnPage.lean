import MweCore.Capture.Write
import MweCore.Compiler.File
import MweCore.Promote.Regions

/-!
# A captured fact on its page

A capture appends the marker of its fact to the page, on a line of its own, and reports where it
stands.  The next sweep of the page tombstones the active facts that the page has no region of.

`captured_on_its_page_iff` says that the page has its old regions and the new one where it was
reported, exactly when every region the page opened before is closed.  On a page where one is not,
the marker ends that region instead, and the sweep takes the fact for removed:
`open_marker_takes_the_capture`.
-/

namespace Mwe

open Str Search Promote

namespace Reindex

/-! ## The sweep of a page -/

/-- The facts a page has regions of. -/
def collectDiskMarkers (out : ParseOutput) : List FactId :=
  (foundRegions out.events).filterMap fun r => r.attrs.factId

/-- Whether a page's markers parsed without a structural warning. -/
def markersParseWhole (out : ParseOutput) : Bool :=
  !out.warnings.any fun w =>
    w.kind == .unclosedRegion || w.kind == .unclosedMarker || w.kind == .strayCloseMarker

/-- The active facts of a page that the sweep tombstones: their markers are gone.  A fact without
offsets is spared on a standard wiki, since its region is still to be written. -/
def orphans (facts : FactTable) (sourcePath : Str) (sparePending : Bool) (out : ParseOutput) :
    List FactRow :=
  if markersParseWhole out then
    (FactIndex.findActiveBySourcePath facts sourcePath).filter fun r =>
      !(collectDiskMarkers out).contains r.factId && !(sparePending && r.regionStart.isNone)
  else []

end Reindex

namespace Capture

/-! ## The page of a capture -/

/-- The page once a claim is appended to it. -/
def pageAfter (around : Around) (raw body : Str) : Str :=
  (appendRegion raw (renderMarker around.freshId body)).1

/-- The page has the regions it had and one more: the fact's, with the captured body, at the
offsets that were reported; and the sweep of the page leaves the fact alone. -/
def OnItsPage (around : Around) (raw body : Str) (factId : FactId) (regionStart regionEnd : ℤ)
    (facts : FactTable) : Prop :=
  ∃ old new r, parse raw = some old ∧ parse (pageAfter around raw body) = some new ∧
    foundRegions new.events = foundRegions old.events ++ [r] ∧
    r.attrs.factId = some factId ∧ r.body = body ∧
    (r.start : ℤ) = regionStart ∧ (r.stop : ℤ) = regionEnd ∧
    ∀ spare, ∀ row ∈ Reindex.orphans facts around.sourcePath spare new, row.factId ≠ factId

section

variable {S : Type*} [LinearOrder S] (floats : Floats S) (casing : Casing)

/-- A call that is reported as a capture: it finds the page, writes it, and reports the fact and its
offsets.  A text has less than `2 ^ 63` bytes. -/
structure Reported (around : Around) (facts : FactTable) (req : CaptureRequest S)
    (sourceRef : Option Str) (raw : Str) (factId : FactId) (regionStart regionEnd : ℤ)
    (facts' : FactTable) : Prop where
  page : around.page = some raw
  outcome : wikiCaptureWithSource floats casing around facts req sourceRef =
    (.ok ⟨factId, .captured around.sourcePath regionStart regionEnd⟩, facts')
  fits : len (pageAfter around raw req.body) < 2 ^ 63

end

/-- Parsing the page finds every region closed that it opens. -/
def AllRegionsClose (raw : Str) : Prop :=
  ∀ out, parse raw = some out → ∀ w ∈ out.warnings, w.kind ≠ .unclosedRegion

variable {raw body : Str} {factId : FactId}

lemma allRegionsClose_iff : AllRegionsClose raw ↔ AllClosed raw := by
  constructor
  · exact fun h => (allClosed_iff_parse (parse_eq_some raw)).mpr (h _ (parse_eq_some raw))
  · exact fun h out hparse => (allClosed_iff_parse hparse).mp h

/-- A region is appended to the lines of the page. -/
lemma appendRegion_marker (raw body : Str) (factId : FactId) :
    appendRegion raw (renderMarker factId body) =
      (targetLines raw ++ ((Token.region (bareSpec factId) body).source ++ ['\n']),
        len (targetLines raw),
        len (targetLines raw) + len (Token.region (bareSpec factId) body).source) := by
  have hlines : (if !raw.isEmpty && raw.getLast? != some '\n' then raw ++ ['\n'] else raw) =
      targetLines raw := by
    unfold targetLines
    cases raw.isEmpty <;> cases h : raw.getLast? == some '\n' <;> simp [bne, h]
  have hend : ∀ s : Str, (s ++ (Token.region (bareSpec factId) body).source).getLast? =
      some '}' := by
    intro s
    simp [Token.source, regionEnd]
  rw [renderMarker_eq, appendRegion, hlines]
  simp [hend]

/-- The marks of a page whose regions close, with a claim appended. -/
lemma marks_pageAfter {around : Around} (hclosed : AllClosed raw)
    (hbody : ¬ regionEnd <:+: body) :
    marks 0 (tokens (pageAfter around raw body)) = marks 0 (tokens raw) ++
      [(len (targetLines raw), .region (bareSpec around.freshId) body)] := by
  have hnewline := marks_prose_append firstAt_newline []
  rw [List.append_nil] at hnewline
  rw [pageAfter, appendRegion_marker, marks_targetLines hclosed,
    (written_bareSpec around.freshId hbody).marks_append, hnewline]
  simp

/-- The regions of a page with a claim appended are as they should be exactly when the page's own
all close. -/
lemma onItsPage_iff {around : Around} {facts : FactTable} (hbody : ¬ regionEnd <:+: body) :
    OnItsPage around raw body around.freshId (len (targetLines raw) : ℕ)
        (len (targetLines raw) + len (Token.region (bareSpec around.freshId) body).source : ℕ)
        facts ↔ AllClosed raw := by
  constructor
  · rintro ⟨old, new, r, hold, hnew, hfound, -, -, hstart, -, -⟩
    by_contra hopen
    rw [parse_eq_some, Option.some.injEq] at hold hnew
    subst hold hnew
    have hend : regionEnd <:+:
        (Token.region (bareSpec around.freshId) body).source ++ ['\n'] :=
      ⟨opening (bareSpec around.freshId) ++ body, ['\n'], by simp [Token.source]⟩
    obtain ⟨p, spec, taken, rest, hp, hmarks⟩ := marks_targetLines_opened hopen hend
    rw [pageAfter, appendRegion_marker, foundRegions_layout, foundRegions_layout, hmarks,
      List.filterMap_append, filterMap_found_filter] at hfound
    -- the region that is gained starts in the old page
    have hgained := List.append_cancel_left hfound
    rw [List.filterMap_cons] at hgained
    simp only [Token.event, foundRegion, List.cons.injEq] at hgained
    have hp' : r.start = p := by rw [← hgained.1]
    omega
  · intro hclosed
    have hmarks := @marks_pageAfter raw body around hclosed hbody
    have hfound : foundRegions (layoutEvents 0 (tokens (pageAfter around raw body))) =
        foundRegions (layoutEvents 0 (tokens raw)) ++ [⟨len (targetLines raw),
          len (targetLines raw) + len (Token.region (bareSpec around.freshId) body).source,
          (parseAttrs (bareSpec around.freshId) (len (targetLines raw))).1, body⟩] := by
      rw [foundRegions_layout, foundRegions_layout, hmarks, List.filterMap_append]
      simp [Token.event, foundRegion, Token.source, Nat.add_assoc]
    refine ⟨_, _, _, parse_eq_some raw, parse_eq_some _, hfound, factId_bareSpec _ _, rfl, rfl, rfl,
      fun spare row hrow hid => ?_⟩
    have hdisk : around.freshId ∈ Reindex.collectDiskMarkers
        ⟨layoutEvents 0 (tokens (pageAfter around raw body)),
          layoutWarnings 0 (tokens (pageAfter around raw body))⟩ := by
      rw [Reindex.collectDiskMarkers, hfound, List.mem_filterMap]
      exact ⟨_, List.mem_append_right _ (List.mem_singleton_self _), factId_bareSpec _ _⟩
    unfold Reindex.orphans at hrow
    split_ifs at hrow
    · have hgone := (List.mem_filter.mp hrow).2
      rw [hid, List.contains_iff_mem.mpr hdisk] at hgone
      cases hgone
    · cases hrow

/-- The offsets of a text that fits are stored as they are. -/
lemma offset_of_lt {n : ℕ} (h : n < 2 ^ 63) : offset n = n := by
  unfold offset
  omega

/-- What a write reports. -/
lemma captured_of_writeFact {S : Type*} {around : Around} {facts : FactTable}
    {req : CaptureRequest S} {page path : Str} {sourceRef : Option Str} {regionStart regionEnd : ℤ}
    (hpage : around.page = some raw)
    (h : (writeFact around facts req page sourceRef).1 =
      .ok ⟨factId, .captured path regionStart regionEnd⟩) :
    factId = around.freshId ∧
      regionStart = offset (appendRegion raw (renderMarker around.freshId req.body)).2.1 ∧
      regionEnd = offset (appendRegion raw (renderMarker around.freshId req.body)).2.2 := by
  unfold writeFact at h
  rw [hpage] at h
  dsimp only at h
  split at h
  · cases h
  · cases hwrites : around.writes with
    | false =>
      rw [hwrites] at h
      cases h
    | true =>
      rw [hwrites] at h
      obtain ⟨rfl, haction⟩ := CaptureOutcome.mk.inj (Except.ok.inj h)
      obtain ⟨-, rfl, rfl⟩ := CaptureAction.captured.inj haction
      exact ⟨rfl, rfl, rfl⟩

section

variable {S : Type*} [LinearOrder S] {floats : Floats S} {casing : Casing}

/-- What a call that is reported as a capture wrote. -/
lemma Reported.spec {around : Around} {facts facts' : FactTable} {req : CaptureRequest S}
    {sourceRef : Option Str} {regionStart regionEnd : ℤ}
    (h : Reported floats casing around facts req sourceRef raw factId regionStart regionEnd
      facts') :
    validateBody req.body = .ok () ∧ factId = around.freshId ∧
      regionStart = (len (targetLines raw) : ℕ) ∧
      regionEnd = (len (targetLines raw) +
        len (Token.region (bareSpec around.freshId) req.body).source : ℕ) := by
  have houtcome := h.outcome
  unfold wikiCaptureWithSource at houtcome
  cases haccept : accept around req with
  | error e =>
    rw [haccept] at houtcome
    cases houtcome
  | ok accepted =>
    obtain ⟨page, req'⟩ := accepted
    obtain ⟨hbody, -, -, hreq, -⟩ := accept_eq_ok_iff.mp haccept
    have hsame : req'.body = req.body := by rw [normalize_eq_ok hreq]
    simp only [haccept] at houtcome
    split_ifs at houtcome with hreads
    · cases houtcome
    · split at houtcome
      · cases houtcome
      · obtain ⟨hid, hstart, hend⟩ :=
          captured_of_writeFact h.page (congrArg Prod.fst houtcome)
        have hfits := h.fits
        rw [pageAfter, appendRegion_marker, len_append, len_append] at hfits
        rw [hsame, appendRegion_marker] at hstart hend
        dsimp only at hstart hend
        exact ⟨hbody, hid, by rw [hstart, offset_of_lt (by omega)],
          by rw [hend, offset_of_lt (by omega)]⟩

/-- **The condition.**  A captured fact is on its page exactly when every region that the page
opened before is closed. -/
theorem captured_on_its_page_iff (floats : Floats S) (casing : Casing) (around : Around)
    (facts : FactTable) (req : CaptureRequest S) (sourceRef : Option Str) :
    (∀ raw factId regionStart regionEnd facts',
      Reported floats casing around facts req sourceRef raw factId regionStart regionEnd facts' →
        OnItsPage around raw req.body factId regionStart regionEnd facts') ↔
      ∀ raw factId regionStart regionEnd facts',
        Reported floats casing around facts req sourceRef raw factId regionStart regionEnd facts' →
          AllRegionsClose raw := by
  refine forall₅_congr fun raw factId regionStart regionEnd facts' => ?_
  refine forall_congr' fun h => ?_
  obtain ⟨hbody, rfl, rfl, rfl⟩ := h.spec
  rw [allRegionsClose_iff]
  exact onItsPage_iff (EmbedOnly.of_validateBody hbody).not_regionEnd

end

/-! ## A page with an open marker -/

/-- A page on which somebody opened a region and did not close it. -/
def openPage : Str := "{{f=018f1234-5678-7abc-9def-0123456789ab}}coffee\n".toList

/-- A capture of tea on that page. -/
def teaOnOpenPage : Around where
  freshId := ⟨"018f1234-5678-7abc-9def-0123456789ac".toList, isFactId_ac⟩
  roster := household
  page := some openPage
  sourcePath := "wikis/alice/notes.md".toList
  now := []

/-- The request of that capture. -/
def teaRequest : CaptureRequest ℚ where
  wikiId := ⟨"alice".toList, checkSlug_alice⟩
  page := some "notes.md".toList
  body := "tea".toList
  subject := .user "alice".toList

/-- The marker ends the region that was open, and is not read as the fact's. -/
theorem open_marker_takes_the_capture :
    ∃ raw factId regionStart regionEnd facts',
      Reported exactFloats asciiCasing teaOnOpenPage (Sql.Table.empty _) teaRequest none raw factId
        regionStart regionEnd facts' ∧
      ¬ OnItsPage teaOnOpenPage raw teaRequest.body factId regionStart regionEnd facts' := by
  have hcall : (wikiCaptureWithSource exactFloats asciiCasing teaOnOpenPage (Sql.Table.empty _)
      teaRequest none).1 = .ok ⟨teaOnOpenPage.freshId,
        .captured teaOnOpenPage.sourcePath 49 99⟩ := by decide +kernel
  have hreported : Reported exactFloats asciiCasing teaOnOpenPage (Sql.Table.empty _) teaRequest
      none openPage teaOnOpenPage.freshId 49 99 (wikiCaptureWithSource exactFloats asciiCasing
        teaOnOpenPage (Sql.Table.empty _) teaRequest none).2 :=
    ⟨rfl, Prod.ext hcall rfl, by decide +kernel⟩
  refine ⟨_, _, _, _, _, hreported, fun h => ?_⟩
  obtain ⟨hbody, -, hstart, hend⟩ := hreported.spec
  rw [hstart, hend] at h
  have hclosed := (onItsPage_iff (EmbedOnly.of_validateBody hbody).not_regionEnd).mp h
  have hwarns : ∃ w ∈ ((parse openPage).map ParseOutput.warnings).getD [],
      w.kind = .unclosedRegion := by decide +kernel
  obtain ⟨w, hw, hkind⟩ := hwarns
  rw [parse_eq_some] at hw
  exact (allClosed_iff_parse (parse_eq_some openPage)).mp hclosed w hw hkind

end Capture

end Mwe
