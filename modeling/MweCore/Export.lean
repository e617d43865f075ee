import MweCore.Capture.Marker
import MweCore.Parser.Respell

/-!
# Exporting a page

`rewritePageMarkers` writes every region the database knows as a full marker and copies the rest
of the page.  `rewritePageMarkers_eq` says what the new page is: the old tokens with those regions
respelled, so its regions are the old ones with the attributes of their records.

`export_round_trip` puts the pieces together.  A full marker is read back as the record it was
written from, and an exported page, rendered as written and with no database, shows a region to
whom the record grants it, the record's exclusions aside.
-/

namespace Mwe

open Str Search

/-! ## The rewrite -/

/-- What the rewrite carries: the page so far, where the text not copied yet starts, and the
counts of rewritten and unindexed regions. -/
structure ExportState where
  out : Str := []
  last : ℕ := 0
  rewritten : ℕ := 0
  unindexed : ℕ := 0

/-- The external names of the facts of a page. -/
abbrev FactNames := List (FactId × Str)

/-- The record of a region's fact, when the database knows it. -/
def indexedFact (aclMap : FactAclMap) (attrs : RegionAttrs) : Option (FactId × RegionAcl) :=
  attrs.factId.bind fun f => (aclMap.lookup f).map fun acl => (f, acl)

/-- Rewrite one region the database knows; `none` is a bad slice. -/
def exportStep (raw : Str) (aclMap : FactAclMap) (names : FactNames) (st : ExportState) :
    ParseEvent → Option ExportState
  | .region start stop attrs bodyStart bodyEnd _ _ =>
    match indexedFact aclMap attrs with
    | none => some { st with unindexed := st.unindexed + 1 }
    | some (factId, acl) => do
      let between ← slice raw st.last start
      let body ← slice raw bodyStart bodyEnd
      pure { st with
        out := st.out ++ between ++
          renderFullMarker factId acl.subject acl.allow acl.sender (names.lookup factId) body
        last := stop
        rewritten := st.rewritten + 1 }
  | _ => some st

/-- Rewrite every region the database knows to the full marker, leaving everything else intact:
the new page, and the counts of rewritten and unindexed regions. -/
def rewritePageMarkers (raw : Str) (aclMap : FactAclMap) (names : FactNames) :
    Option (Str × ℕ × ℕ) := do
  let parsed ← parse raw
  let st ← parsed.events.foldlM (exportStep raw aclMap names) {}
  let rest ← sliceFrom raw st.last
  pure (st.out ++ rest, st.rewritten, st.unindexed)

/-! ## What it rewrites -/

section Rewrite

variable (aclMap : FactAclMap) (names : FactNames)

/-- A token as it is exported. -/
def Token.exported : Token → Token
  | .region spec body =>
    match indexedFact aclMap (specAttrs spec) with
    | some (factId, acl) => .region (fullSpec factId acl (names.lookup factId)) body
    | none => .region spec body
  | t => t

/-- A region's attributes as they are exported. -/
def exportedAttrs (attrs : RegionAttrs) : RegionAttrs :=
  match indexedFact aclMap attrs with
  | some (factId, acl) => markerAttrs factId acl (names.lookup factId)
  | none => attrs

/-- Every record of the page, with its external name, is one a marker can carry. -/
def RecordsSafe : Prop :=
  ∀ f acl, aclMap.lookup f = some acl → acl.MarkerSafe (names.lookup f)

/-- The record of an indexed fact is one of the page's records. -/
lemma safe_of_indexedFact (hsafe : RecordsSafe aclMap names)
    {attrs : RegionAttrs} {p : FactId × RegionAcl} (h : indexedFact aclMap attrs = some p) :
    p.2.MarkerSafe (names.lookup p.1) := by
  obtain ⟨f, -, hf⟩ := Option.bind_eq_some_iff.mp h
  obtain ⟨acl, hacl, rfl⟩ := Option.map_eq_some_iff.mp hf
  exact hsafe f acl hacl

/-- The text before a token has been exported as `done`; `pending` is the end of it that the loop
has not copied yet. -/
structure Exporting (raw : Str) (st : ExportState) (read done : Str) (rest : Str) : Prop where
  split : ∃ copied pending, raw = copied ++ pending ++ rest ∧ read = copied ++ pending ∧
    st.last = len copied ∧ st.out ++ pending = done

/-- One event keeps the invariant: a region is exported, anything else stays pending. -/
lemma Exporting.step {raw read done tail : Str} {st : ExportState} {t : Token}
    (h : Exporting raw st read done (t.source ++ tail)) :
    ∃ st', exportStep raw aclMap names st (t.event (len read)) = some st' ∧
      Exporting raw st' (read ++ t.source) (done ++ (t.exported aclMap names).source) tail := by
  obtain ⟨copied, pending, hraw, rfl, hlast, hout⟩ := h.split
  have hskip : ∀ st' : ExportState, st'.last = st.last → st'.out = st.out →
      Exporting raw st' (copied ++ pending ++ t.source) (done ++ t.source) tail := by
    intro st' hlast' hout'
    exact ⟨copied, pending ++ t.source, by rw [hraw]; simp, by simp, by rw [hlast', hlast],
      by rw [hout', ← hout]; simp⟩
  cases t with
  | prose text w => exact ⟨st, rfl, hskip st rfl rfl⟩
  | embed cid => exact ⟨st, rfl, hskip st rfl rfl⟩
  | region spec body =>
    simp only [Token.event, exportStep, Token.exported, specAttrs,
      parseAttrs_fst_eq spec (len (copied ++ pending)) 0]
    cases hfact : indexedFact aclMap (parseAttrs spec 0).1 with
    | none => exact ⟨_, rfl, hskip _ rfl rfl⟩
    | some p =>
      obtain ⟨factId, acl⟩ := p
      have hbetween : slice raw st.last (len (copied ++ pending)) = some pending :=
        slice_eq hraw hlast (by rw [len_append, ← hlast])
      have hbody : slice raw (len (copied ++ pending) + len (opening spec))
          (len (copied ++ pending) + len (opening spec) + len body) = some body :=
        slice_eq (a := copied ++ pending ++ opening spec) (b := regionEnd ++ tail)
          (by rw [hraw]; simp [Token.source]) (len_append _ _).symm (by simp only [len_append])
      refine ⟨_, by simp only [hbetween, hbody, Option.bind_eq_bind, Option.bind_some]; rfl,
        ⟨copied ++ pending ++ (Token.region spec body).source, [], ?_, by simp,
        ?_, ?_⟩⟩
      · rw [hraw]
        simp
      · simp [Token.source, Nat.add_assoc]
      · simp [renderFullMarker, fullSpec, Token.source, ← hout]

/-- The loop over laid-out events exports their tokens. -/
lemma Exporting.run {raw read done tail : Str} {st : ExportState} {ts : List Token}
    (h : Exporting raw st read done (sources ts ++ tail)) :
    ∃ st', (layoutEvents (len read) ts).foldlM (exportStep raw aclMap names) st = some st' ∧
      Exporting raw st' (read ++ sources ts)
        (done ++ sources (ts.map (Token.exported aclMap names))) tail := by
  induction ts generalizing read done st with
  | nil => exact ⟨st, rfl, by simpa using h⟩
  | cons t ts ih =>
    have hnow : Exporting raw st read done (t.source ++ (sources ts ++ tail)) := by simpa using h
    obtain ⟨st₁, hstep, h₁⟩ := Exporting.step aclMap names hnow
    obtain ⟨st', hrun, h'⟩ := ih h₁
    refine ⟨st', ?_, by simpa using h'⟩
    rw [layoutEvents, List.foldlM_cons, hstep, ← len_append]
    exact hrun

/-- The exported page is the old page with the known regions respelled. -/
theorem rewritePageMarkers_eq (raw : Str) :
    ∃ rewritten unindexed, rewritePageMarkers raw aclMap names =
      some (sources ((tokens raw).map (Token.exported aclMap names)), rewritten, unindexed) := by
  have hstart : Exporting raw {} [] [] (sources (tokens raw) ++ []) :=
    ⟨[], [], by simp [tokens_source], rfl, rfl, rfl⟩
  obtain ⟨st, hrun, ⟨copied, pending, hraw, -, hlast, hout⟩⟩ :=
    Exporting.run aclMap names hstart
  refine ⟨st.rewritten, st.unindexed, ?_⟩
  have hrest : sliceFrom raw st.last = some pending := by
    rw [hlast, hraw, List.append_nil, sliceFrom_append]
  rw [rewritePageMarkers, parse_eq_some]
  simp only [Option.bind_eq_bind, Option.bind_some]
  rw [show layoutEvents 0 (tokens raw) = layoutEvents (len []) (tokens raw) from rfl, hrun,
    Option.bind_some, hrest]
  simpa using hout

/-- Where every record is safe, exporting respells markers. -/
lemma respells_exported (hsafe : RecordsSafe aclMap names) :
    Respells (Token.exported aclMap names) where
  other t ht := by
    cases t with
    | prose text w => rfl
    | embed cid => rfl
    | region spec body => exact absurd rfl (ht spec body)
  region spec body hopens hspec := by
    unfold Token.exported
    split
    · next spec' body' heq =>
      obtain ⟨rfl, rfl⟩ : spec = spec' ∧ body = body' := by simpa using heq
      cases hfact : indexedFact aclMap (specAttrs spec) with
      | none => exact ⟨spec, rfl, hopens, hspec⟩
      | some p =>
        have hp := safe_of_indexedFact aclMap names hsafe hfact
        exact ⟨_, rfl, opensRegion_fullSpec _ hp, firstAt_fullSpec _ hp⟩
    · next hother => exact absurd rfl (hother spec body)

/-- The regions of exported tokens carry the exported attributes. -/
lemma regions_exported (hsafe : RecordsSafe aclMap names)
    (ts : List Token) :
    (regionTokens (ts.map (Token.exported aclMap names))).map (fun p => (specAttrs p.1, p.2)) =
      (regionTokens ts).map fun p => (exportedAttrs aclMap names (specAttrs p.1), p.2) := by
  induction ts with
  | nil => rfl
  | cons t ts ih =>
    cases t with
    | prose text w => exact ih
    | embed cid => exact ih
    | region spec body =>
      rw [List.map_cons, Token.exported]
      cases hfact : indexedFact aclMap (specAttrs spec) with
      | none => simp [ih, exportedAttrs, hfact]
      | some p =>
        have hattrs : specAttrs (fullSpec p.1 p.2 (names.lookup p.1)) =
            markerAttrs p.1 p.2 (names.lookup p.1) := by
          rw [specAttrs, parseAttrs_fullSpec (safe_of_indexedFact aclMap names hsafe hfact)]
        simp [ih, hattrs, exportedAttrs, hfact]

end Rewrite

/-! ## The round trip -/

/-- A full marker is a page without front matter. -/
lemma parse_renderFullMarker_frontMatter (factId : FactId) (r : RegionAcl)
    (external : Option Str) (body : Str) :
    MarkdownDoc.parse (renderFullMarker factId r.subject r.allow r.sender external body) = none := by
  simp [MarkdownDoc.parse, stripFenceLine, stripPrefix, renderFullMarker, opening, openMark]

/-- The full marker of a safe record, rendered as written with no database: the body for whom the
record grants, exclusions aside, and the callout for everyone else. -/
lemma render_renderFullMarker {factId : FactId} {r : RegionAcl} {external : Option Str}
    (h : r.MarkerSafe external) {body : Str} (hbody : FirstAt regionEnd body) {view : ReaderView}
    (hview : view.page = .asWritten) :
    renderForSender (renderFullMarker factId r.subject r.allow r.sender external body) [] view =
      some (if canRead { r.toAcl with excluded := [] } view.senderId view.senderGroups r.sender
        then ⟨body, 0⟩ else ⟨fullyPrivateCallout, 1⟩) := by
  have hsegments := renderForSenderSegments_eq [] view
    ⟨_, parse_renderFullMarker_frontMatter factId r external body⟩
  have hattrs : specAttrs (fullSpec factId r external) = markerAttrs factId r external := by
    rw [specAttrs, parseAttrs_fullSpec h]
  rw [renderForSender, hsegments, Option.map_some, tokens_renderFullMarker factId h hbody]
  simp only [renderTokens, hview, List.foldl_cons, List.foldl_nil, tokenStep, hattrs,
    regionVisible_markerAttrs]
  cases canRead { r.toAcl with excluded := [] } view.senderId view.senderGroups r.sender with
  | true =>
    simp [PieceState.push, servePieces, servePiece, hview, sectionsWithAReadableFact,
      SegmentedRenderOutput.pushRegion, SegmentedRenderOutput.intoOutput,
      SegmentedRenderOutput.text]
  | false =>
    simp [PieceState.push, servePieces, servePiece, hview, sectionsWithAReadableFact,
      SegmentedRenderOutput.pushPlain, SegmentedRenderOutput.intoOutput,
      SegmentedRenderOutput.text]

/-- For a page whose records a marker can carry: the full marker of a record and a validated body
is read back as one region with the record's fact id, subject, audience, sender, external name and
body, without a warning, and rendered as written with no database it shows the body exactly to
whom the record grants it, exclusions aside.  The exported page has the regions of the old page in
the same order with the same bodies, a known region with the attributes of its record, and with no
database such a region is visible exactly to whom the record grants it, exclusions aside. -/
theorem export_round_trip (raw : Str) {aclMap : FactAclMap} {names : FactNames}
    (hsafe : RecordsSafe aclMap names) :
    (∀ f r, aclMap.lookup f = some r → ∀ body, validateBody body = .ok () →
      (∃ stop bodyStart bodyEnd embeds,
        parse (renderFullMarker f r.subject r.allow r.sender (names.lookup f) body) =
          some ⟨[.region 0 stop (markerAttrs f r (names.lookup f)) bodyStart bodyEnd body embeds],
            []⟩) ∧
      ∀ view : ReaderView, view.page = .asWritten →
        renderForSender (renderFullMarker f r.subject r.allow r.sender (names.lookup f) body) []
          view = some (if canRead { r.toAcl with excluded := [] } view.senderId view.senderGroups
            r.sender then ⟨body, 0⟩ else ⟨fullyPrivateCallout, 1⟩)) ∧
    ∃ out exported rewritten unindexed out',
      parse raw = some out ∧
      rewritePageMarkers raw aclMap names = some (exported, rewritten, unindexed) ∧
      parse exported = some out' ∧
      regions out'.events =
        (regions out.events).map (fun p => (exportedAttrs aclMap names p.1, p.2)) ∧
      ∀ attrs f r, indexedFact aclMap attrs = some (f, r) → ∀ view : ReaderView,
        regionVisible (exportedAttrs aclMap names attrs) [] view =
          canRead { r.toAcl with excluded := [] } view.senderId view.senderGroups r.sender := by
  constructor
  · intro f r hr body hbody
    have hmarker := hsafe f r hr
    exact ⟨parse_renderFullMarker f hmarker hbody, fun view hview =>
      render_renderFullMarker hmarker (firstAt_of_validateBody hbody) hview⟩
  · obtain ⟨rewritten, unindexed, hrewrite⟩ := rewritePageMarkers_eq aclMap names raw
    have htokens := (tokens_respell (respells_exported aclMap names hsafe) raw).1
    refine ⟨_, _, rewritten, unindexed, _, parse_eq_some raw, hrewrite, parse_eq_some _, ?_, ?_⟩
    · rw [htokens, regions_layoutEvents, regions_layoutEvents,
        regions_exported aclMap names hsafe, List.map_map]
      rfl
    · intro attrs f r hfact view
      rw [exportedAttrs, hfact]
      exact regionVisible_markerAttrs f r _ view

/-- A fact id. -/
def sampleFactId : FactId := ⟨"018f1234-5678-7abc-9def-0123456789ab".toList, isFactId_ab⟩

/-- A public record kept from one reader. -/
def keptFromZoe : RegionAcl := { subject := .global, excluded := [.user "zoe".toList] }

/-- The record has no term a marker cannot carry. -/
lemma markerSafe_keptFromZoe : keptFromZoe.MarkerSafe none where
  subject := ⟨by decide, MarkerWord.append (k := "global".toList) (s := []) ⟨by simp, by decide⟩ rfl⟩
  allow p hp := by simp [keptFromZoe] at hp
  sender p hp := by simp [keptFromZoe] at hp
  name n hn := by simp [markerName] at hn

/-- The round trip of a public record. -/
theorem export_round_trip_keptFromZoe :
    ∃ stop bodyStart bodyEnd embeds,
      parse (renderFullMarker sampleFactId .global [] none none ['x']) =
        some ⟨[.region 0 stop (markerAttrs sampleFactId keptFromZoe none) bodyStart bodyEnd ['x']
          embeds], []⟩ := by
  have hsafe : RecordsSafe [(sampleFactId, keptFromZoe)] [] := by
    intro f r hr
    rw [List.lookup] at hr
    split at hr
    · rw [← Option.some.inj hr]
      exact markerSafe_keptFromZoe
    · exact absurd hr (by simp)
  exact ((export_round_trip [] hsafe).1 sampleFactId keptFromZoe (by simp) ['x'] (by decide)).1

/-- The exclusion of a record is not written: the marker's attributes have none, and the reader
the record is kept from is shown the body. -/
theorem export_loses_exclusions :
    validateBody ['x'] = .ok () ∧
    rowReadableBy keptFromZoe "zoe".toList [] = false ∧
    (∃ stop attrs bodyStart bodyEnd embeds,
      parse (renderFullMarker sampleFactId keptFromZoe.subject keptFromZoe.allow
          keptFromZoe.sender none ['x']) =
        some ⟨[.region 0 stop attrs bodyStart bodyEnd ['x'] embeds], []⟩ ∧
      attrs.acl.excluded ≠ keptFromZoe.excluded) ∧
    renderForSender (renderFullMarker sampleFactId keptFromZoe.subject keptFromZoe.allow
      keptFromZoe.sender none ['x']) [] { senderId := "zoe".toList } = some ⟨['x'], 0⟩ := by
  have hbody : validateBody ['x'] = .ok () := by decide
  obtain ⟨stop, bodyStart, bodyEnd, embeds, hparse⟩ :=
    parse_renderFullMarker sampleFactId markerSafe_keptFromZoe hbody
  refine ⟨hbody, by decide, ⟨stop, _, bodyStart, bodyEnd, embeds, hparse, by decide⟩, ?_⟩
  exact render_renderFullMarker markerSafe_keptFromZoe (firstAt_of_validateBody hbody) rfl

end Mwe
