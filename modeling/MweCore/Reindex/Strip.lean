import MweCore.Capture.OnPage
import MweCore.Render.NonInterference

/-!
# The region of a retired fact

What a retired fact said is cut out of its page.  `cutRegion` goes by the offsets of the row, which
may be stale: it looks at how the slice between them begins and how it ends, and not at what is in
it.  `cut_harms_nothing_else_iff` says that the cut takes the region of the fact and leaves the
others, exactly when the parser reads the marker where the slice begins and the first terminator
behind the marker is the one the slice ends with.  A slice that runs to the terminator of another
region takes that region along, and the next sweep takes its fact for removed.
-/

namespace Mwe

open Str Search

namespace Reindex

/-! ## The cut -/

/-- The marker that opens the region of a fact. -/
def openMarker (factId : FactId) : Str := opening (bareSpec factId)

/-- The page without the slice of a fact, if there is something safe to cut. -/
def cutRegion (raw : Str) (factId : FactId) (regionStart regionEnd : Option ℤ) : Option Str := do
  let start ← regionStart
  let stop ← regionEnd
  -- negative offsets are stale
  if start < 0 ∨ stop < 0 then none
  else
    let start := start.toNat
    let stop := stop.toNat
    if stop ≤ start then none
    else
      let span ← slice raw start stop
      if !(openMarker factId).isPrefixOf span || !Mwe.regionEnd.isSuffixOf span then none
      else splice raw start stop []

/-- The page stays as it was, or is left without the region of the fact: the other regions are there
with their attributes and their bodies, and the sweep that follows takes no fact for removed that
had its region on the page. -/
def HarmsNothingElse (raw : Str) (factId : FactId) (regionStart regionEnd : Option ℤ) : Prop :=
  ∀ out, cutRegion raw factId regionStart regionEnd = some out →
    ∃ old new pre post, ∃ start stop bodyStart bodyEnd : ℕ, ∃ attrs body embeds,
      parse raw = some old ∧ parse out = some new ∧
      old.events = pre ++ .region start stop attrs bodyStart bodyEnd body embeds :: post ∧
      attrs.factId = some factId ∧ regionStart = some (start : ℤ) ∧ regionEnd = some (stop : ℤ) ∧
      regions new.events = regions pre ++ regions post ∧
      ∀ facts sourcePath spare,
        (∀ row ∈ FactIndex.findActiveBySourcePath facts sourcePath, row.factId ≠ factId) →
          ∀ row ∈ orphans facts sourcePath spare new, row.factId ∉ collectDiskMarkers old

/-- A slice that looks like the region of a fact is one: the parser reads something where it begins,
and its terminator is the first one behind the marker. -/
def SliceIsRegion (raw : Str) (factId : FactId) (regionStart regionEnd : Option ℤ) : Prop :=
  ∀ a x b, raw = a ++ (openMarker factId ++ x ++ Mwe.regionEnd) ++ b →
    regionStart = some (len a : ℤ) →
    regionEnd = some (len (a ++ (openMarker factId ++ x ++ Mwe.regionEnd)) : ℤ) →
    (∃ ev ∈ parseEvents raw, ev.span.1 = len a) ∧ FirstAt Mwe.regionEnd x

/-! ## The slice -/

/-- There is no slash in the marker of a fact. -/
lemma slash_notMem_openMarker (factId : FactId) : '/' ∉ openMarker factId := by
  intro h
  simp only [openMarker, opening, bareSpec, List.mem_append] at h
  rcases h with (h | h | h) | h
  · exact absurd h (by decide)
  · exact absurd h (by decide)
  · exact absurd (factId.isAsciiLowerHex_or_dash h) (by decide)
  · exact absurd h (by decide)

/-- A marker and a terminator do not overlap. -/
lemma exists_between {span : Str} {factId : FactId} (hopen : openMarker factId <+: span)
    (hend : Mwe.regionEnd <:+ span) : ∃ x, span = openMarker factId ++ x ++ Mwe.regionEnd := by
  obtain ⟨w, rfl⟩ := hopen
  obtain ⟨u, hu⟩ := hend
  rcases List.append_eq_append_iff.mp hu with ⟨x, hx, hw⟩ | ⟨x, rfl, hw⟩
  · -- what both have has no slash, and ends as the marker does
    have hslash : '/' ∉ x := fun h =>
      slash_notMem_openMarker factId (by rw [hx]; exact List.mem_append_right u h)
    have hlast : x ≠ [] → x.getLast? = some '}' := by
      intro hne
      have hmark : (openMarker factId).getLast? = some '}' := by
        rw [openMarker, opening, List.getLast?_append_of_ne_nil _ (by decide)]
        rfl
      rwa [hx, List.getLast?_append_of_ne_nil _ hne] at hmark
    rcases x with _ | ⟨c, _ | ⟨d, _ | ⟨e, x⟩⟩⟩
    · exact ⟨[], by rw [List.append_nil, hw]; rfl⟩
    · simp [Mwe.regionEnd] at hw
      simp [← hw.1] at hlast
    · simp [Mwe.regionEnd] at hw
      simp [← hw.2.1] at hlast
    · simp [Mwe.regionEnd] at hw
      simp [← hw.2.2.1] at hslash
  · exact ⟨x, by rw [hw, List.append_assoc]⟩

/-- What the checks of the cut come to. -/
lemma cutRegion_eq_some_iff {raw out : Str} {factId : FactId} {regionStart regionEnd : Option ℤ} :
    cutRegion raw factId regionStart regionEnd = some out ↔
      ∃ a x b, raw = a ++ (openMarker factId ++ x ++ Mwe.regionEnd) ++ b ∧
        regionStart = some (len a : ℤ) ∧
        regionEnd = some (len (a ++ (openMarker factId ++ x ++ Mwe.regionEnd)) : ℤ) ∧
        out = a ++ b := by
  constructor
  · intro h
    simp only [cutRegion, Option.bind_eq_bind, Option.bind_eq_some_iff] at h
    obtain ⟨start, rfl, stop, rfl, h⟩ := h
    split_ifs at h with hneg hlt
    obtain ⟨span, hspan, h⟩ := Option.bind_eq_some_iff.mp h
    split_ifs at h with hlooks
    obtain ⟨a, b, rfl, hstart, hstop⟩ := slice_eq_some_iff.mp hspan
    simp only [Bool.or_eq_true, Bool.not_eq_true', not_or, Bool.not_eq_false,
      List.isPrefixOf_iff_prefix, List.isSuffixOf_iff_suffix] at hlooks
    obtain ⟨x, rfl⟩ := exists_between hlooks.1 hlooks.2
    rw [hstart, hstop, splice_append, List.append_nil, Option.some.injEq] at h
    refine ⟨a, x, b, rfl, ?_, ?_, h.symm⟩
    · rw [← hstart, Int.toNat_of_nonneg (by omega)]
    · rw [len_append, ← hstop, Int.toNat_of_nonneg (by omega)]
  · rintro ⟨a, x, b, rfl, rfl, rfl, rfl⟩
    have hslice := slice_append a (openMarker factId ++ x ++ Mwe.regionEnd) b
    have hcut := splice_append a (openMarker factId ++ x ++ Mwe.regionEnd) b []
    rw [List.append_nil] at hcut
    have hpos : 0 < len (openMarker factId ++ x ++ Mwe.regionEnd) := by
      have hlen := len_regionEnd
      simp only [len_append]
      omega
    have hopen :
        (openMarker factId).isPrefixOf (openMarker factId ++ x ++ Mwe.regionEnd) = true := by
      rw [List.isPrefixOf_iff_prefix, List.append_assoc]
      exact List.prefix_append _ _
    have hend : Mwe.regionEnd.isSuffixOf (openMarker factId ++ x ++ Mwe.regionEnd) = true :=
      List.isSuffixOf_iff_suffix.mpr (List.suffix_append _ _)
    simp only [cutRegion, Option.bind_eq_bind, Option.bind_some, Int.toNat_natCast]
    rw [if_neg (by omega), len_append, if_neg (by omega), hslice, Option.bind_some, hopen, hend,
      if_neg (by simp), hcut]

/-! ## Where the parser reads -/

/-- A run of prose is one token at most. -/
lemma proseToken_split {text : Str} {T₁ T₂ : List Token} (h : proseToken text = T₁ ++ T₂) :
    T₁ = [] ∨ T₂ = [] := by
  unfold proseToken at h
  split at h
  · exact .inl (List.append_eq_nil_iff.mp h.symm).1
  · rcases List.singleton_eq_append_iff.mp h with ⟨h₁, -⟩ | ⟨-, h₂⟩
    · exact .inl h₁
    · exact .inr h₂

/-- The parser reads what follows one of its tokens as it reads that text alone. -/
lemma tokens_suffix {s : Str} {T₁ T₂ : List Token} (h : tokens s = T₁ ++ T₂) :
    tokens (sources T₂) = T₂ := by
  induction s using tokens.induct generalizing T₁ with
  | case1 s hnone =>
    have hs := tokens_source s
    rw [tokens_of_none hnone] at h
    rcases proseToken_split h with rfl | rfl
    · rw [← tokens_of_none hnone, List.nil_append] at h
      rw [← h, hs]
    · exact tokens_nil
  | case2 s before inner hsome ih =>
    have hwhole := tokens_source s
    have hturn := tokens_of_some hsome
    rw [hturn] at h
    -- the marker alone is one turn as well
    have hmarker : tokens (sources ((marker inner).1 :: tokens (marker inner).2)) =
        (marker inner).1 :: tokens (marker inner).2 := by
      have hopen : splitOnce openMark (openMark ++ inner) = some ([], inner) := by
        simpa using splitOnce_of_firstAt (by decide) (firstAt_nil openMark) inner
      rw [sources_cons, tokens_source, marker_source, tokens_of_some hopen]
      rfl
    rcases List.append_eq_append_iff.mp h with ⟨T, rfl, hT⟩ | ⟨T, hT, rfl⟩
    · rcases T with _ | ⟨t, T⟩
      · rw [List.nil_append] at hT
        rw [← hT, hmarker]
      · exact ih (List.cons.inj hT).2
    · rcases proseToken_split hT with rfl | rfl
      · rw [List.nil_append] at hT
        rw [← hT, ← hturn, hwhole]
      · rw [List.nil_append, hmarker]

/-! ## The other regions -/

/-- The region of a fragment. -/
def fragmentRegion : Fragment → Option (RegionAttrs × Str)
  | .region spec body => some ((parseAttrs spec 0).1, body)
  | _ => none

/-- The regions of a layout are those of its fragments. -/
lemma regions_eq_fragments (pos : ℕ) (ts : List Token) :
    regions (layoutEvents pos ts) = (ts.flatMap Token.fragments).filterMap fragmentRegion := by
  induction ts generalizing pos with
  | nil => rfl
  | cons t ts ih =>
    have hlater := ih (pos + len t.source)
    have hevent : (t.event pos).region?.toList = t.fragments.filterMap fragmentRegion := by
      unfold Token.fragments
      split
      · rfl
      · simp [Token.event, ParseEvent.region?, fragmentRegion, List.filterMap_map,
          Function.comp_def]
      · next spec body =>
        simp [Token.event, ParseEvent.region?, fragmentRegion, parseAttrs_fst_eq spec pos 0]
      · rfl
    rw [regions, layoutEvents, List.filterMap_cons, List.flatMap_cons, List.filterMap_append,
      ← hevent]
    rcases (t.event pos).region? with _ | r
    · exact hlater
    · rw [← hlater]
      rfl

/-- With a region cut out a page has its other regions. -/
lemma regions_cut {raw spec body : Str} {T₁ T₂ : List Token}
    (h : tokens raw = T₁ ++ .region spec body :: T₂) :
    regions (parseEvents (sources T₁ ++ sources T₂)) =
      regions (layoutEvents 0 T₁) ++
        regions (layoutEvents (len (sources T₁) + len (Token.region spec body).source) T₂) := by
  have hread : (tokens (sources T₁ ++ sources T₂)).flatMap Token.fragments =
      T₁.flatMap Token.fragments ++ T₂.flatMap Token.fragments := fragments_tokens_cut h
  rw [parseEvents_eq, regions_eq_fragments, regions_eq_fragments, regions_eq_fragments, hread,
    List.filterMap_append]

/-- The facts on a page are those of its regions. -/
lemma collectDiskMarkers_eq (out : ParseOutput) :
    collectDiskMarkers out = (regions out.events).filterMap fun r => r.1.factId := by
  have hregion : ∀ ev, (foundRegion ev).map (fun f => (f.attrs, f.body)) = ev.region? := by
    intro ev
    rcases ev with _ | _ | _ <;> rfl
  rw [collectDiskMarkers, foundRegions, regions, List.filterMap_filterMap, List.filterMap_filterMap]
  refine List.filterMap_congr fun ev _ => ?_
  rw [← hregion]
  rcases foundRegion ev with _ | f <;> rfl

/-- A marker and what follows it are told apart at its closing braces. -/
lemma opening_append_inj {spec spec' body body' : Str} (hspec : FirstAt closeMark spec)
    (hspec' : FirstAt closeMark spec') (h : opening spec ++ body = opening spec' ++ body') :
    spec = spec' ∧ body = body' := by
  have hinner : spec ++ closeMark ++ body = spec' ++ closeMark ++ body' := by
    simpa [opening] using h
  have hsplit := splitOnce_of_firstAt (by decide) hspec body
  rw [hinner, splitOnce_of_firstAt (by decide) hspec' body'] at hsplit
  simpa [eq_comm] using hsplit

/-- An event of a page is one of its tokens, where it stands. -/
lemma exists_token_of_event {raw : Str} {ev : ParseEvent} (h : ev ∈ parseEvents raw) :
    ∃ T₁ t T₂, tokens raw = T₁ ++ t :: T₂ ∧ ev = t.event (len (sources T₁)) := by
  obtain ⟨pre, post, hevents⟩ := List.append_of_mem h
  rw [parseEvents_eq] at hevents
  obtain ⟨T₁, t, T₂, htokens, -, hev⟩ := layoutEvents_eq_append_cons hevents
  exact ⟨T₁, t, T₂, htokens, by rw [hev, Nat.zero_add]⟩

/-- A slice that the parser begins to read at its beginning, and whose terminator is the first one,
is a region. -/
lemma tokens_of_slice {raw a x b : Str} {factId : FactId} {ev : ParseEvent}
    (hraw : raw = a ++ (openMarker factId ++ x ++ Mwe.regionEnd) ++ b)
    (hev : ev ∈ parseEvents raw) (hat : ev.span.1 = len a) (hx : FirstAt Mwe.regionEnd x) :
    ∃ T₁ T₂, tokens raw = T₁ ++ .region (bareSpec factId) x :: T₂ ∧ sources T₁ = a ∧
      sources T₂ = b := by
  obtain ⟨T₁, t, T₂, htokens, rfl⟩ := exists_token_of_event hev
  rw [Token.span_event] at hat
  have hsource := tokens_source raw
  rw [htokens, sources_append] at hsource
  obtain ⟨ha, hrest⟩ : sources T₁ = a ∧ sources (t :: T₂) =
      openMarker factId ++ x ++ Mwe.regionEnd ++ b :=
    append_inj_of_len (by rw [hsource, hraw]; simp) hat
  have hwritten := written_bareSpec factId (not_infix_of_firstAt (by decide) hx)
  have hsuffix := tokens_suffix htokens
  rw [hrest, openMarker, tokens_region hwritten.close hwritten.opens hx b] at hsuffix
  obtain ⟨rfl, rfl⟩ := List.cons.inj hsuffix
  exact ⟨T₁, tokens b, htokens, ha, tokens_source b⟩

/-- The sweep takes no other fact for removed when one region is cut. -/
lemma orphans_cut {old new : ParseOutput} {pre post : List ParseEvent} {ev : ParseEvent}
    {factId : FactId} (hold : old.events = pre ++ ev :: post)
    (hnew : regions new.events = regions pre ++ regions post)
    (hev : ∀ r ∈ ev.region?, r.1.factId = some factId) {facts : FactTable} {sourcePath : Str}
    {spare : Bool}
    (hretired : ∀ row ∈ FactIndex.findActiveBySourcePath facts sourcePath, row.factId ≠ factId)
    {row : FactRow} (hrow : row ∈ orphans facts sourcePath spare new) :
    row.factId ∉ collectDiskMarkers old := by
  intro hdisk
  unfold orphans at hrow
  split_ifs at hrow with hwhole
  · obtain ⟨hactive, hgone⟩ := List.mem_filter.mp hrow
    have hne := hretired row hactive
    simp only [Bool.and_eq_true, Bool.not_eq_true', List.contains_eq_mem, decide_eq_false_iff_not]
      at hgone
    refine hgone.1 ?_
    rw [collectDiskMarkers_eq, hnew, List.filterMap_append, List.mem_append]
    rw [collectDiskMarkers_eq, hold] at hdisk
    obtain ⟨r, hr, hid⟩ := List.mem_filterMap.mp hdisk
    obtain ⟨ev', hmem, hregion⟩ := List.mem_filterMap.mp hr
    rcases List.mem_append.mp hmem with hpre | hpost
    · exact .inl (List.mem_filterMap.mpr ⟨r, List.mem_filterMap.mpr ⟨ev', hpre, hregion⟩, hid⟩)
    · rcases List.mem_cons.mp hpost with rfl | hpost
      · rw [hev r hregion] at hid
        exact absurd (Option.some.inj hid).symm hne
      · exact .inr (List.mem_filterMap.mpr ⟨r, List.mem_filterMap.mpr ⟨ev', hpost, hregion⟩, hid⟩)
  · cases hrow

/-- A cut takes the region of the fact and nothing else, exactly when the slice it goes by is a
region if it looks like one. -/
theorem cut_harms_nothing_else_iff (raw : Str) (factId : FactId)
    (regionStart regionEnd : Option ℤ) :
    HarmsNothingElse raw factId regionStart regionEnd ↔
      SliceIsRegion raw factId regionStart regionEnd := by
  constructor
  · intro h a x b hraw hstart hstop
    obtain ⟨old, new, pre, post, start, stop, bodyStart, bodyEnd, attrs, body, embeds, hold, -,
      hevents, -, hstart', hstop', -, -⟩ :=
      h (a ++ b) (cutRegion_eq_some_iff.mpr ⟨a, x, b, hraw, hstart, hstop, rfl⟩)
    rw [parse_eq_some, Option.some.injEq] at hold
    have hlayout : layoutEvents 0 (tokens raw) =
        pre ++ .region start stop attrs bodyStart bodyEnd body embeds :: post := by
      rw [← hevents, ← hold]
    obtain ⟨T₁, t, T₂, htokens, -, hev⟩ := layoutEvents_eq_append_cons hlayout
    have hspan := congrArg ParseEvent.span hev
    rw [Token.span_event, Nat.zero_add] at hspan
    obtain ⟨hfrom, hto⟩ : start = len (sources T₁) ∧ stop = len (sources T₁) + len t.source :=
      Prod.mk.inj hspan
    obtain ⟨spec, rfl, -, -, -⟩ := event_eq_region hev
    have hlen : len (sources T₁) = len a := by
      rw [hstart] at hstart'
      have hcast := Option.some.inj hstart'
      omega
    have hsource := tokens_source raw
    rw [htokens, sources_append, sources_cons, hraw, List.append_assoc] at hsource
    obtain ⟨hsame, hrest⟩ := append_inj_of_len hsource hlen
    obtain ⟨hslice, -⟩ := append_inj_of_len hrest (by
      rw [hstop, len_append] at hstop'
      have hcast := Option.some.inj hstop'
      push_cast at hcast
      omega)
    have hwritten := Written.of_tokens htokens
    have hbare : Written (bareSpec factId) [] := written_bareSpec factId (by decide)
    have hinner : opening spec ++ body = opening (bareSpec factId) ++ x :=
      List.append_cancel_right hslice
    obtain ⟨-, rfl⟩ := opening_append_inj hwritten.close hbare.close hinner
    have hmem : (Token.region spec body).event (len (sources T₁)) ∈ parseEvents raw := by
      rw [parseEvents_eq, hlayout, hev, Nat.zero_add]
      exact List.mem_append_right _ List.mem_cons_self
    exact ⟨⟨_, hmem, by rw [Token.span_event]; exact hlen⟩, hwritten.terminator⟩
  · intro h out hout
    obtain ⟨a, x, b, hraw, hstart, hstop, rfl⟩ := cutRegion_eq_some_iff.mp hout
    obtain ⟨⟨ev, hev, hat⟩, hx⟩ := h a x b hraw hstart hstop
    obtain ⟨T₁, T₂, htokens, rfl, rfl⟩ := tokens_of_slice hraw hev hat hx
    have hcut := regions_cut htokens
    rw [parseEvents_eq] at hcut
    have hevents : layoutEvents 0 (tokens raw) = layoutEvents 0 T₁ ++
        (Token.region (bareSpec factId) x).event (len (sources T₁)) ::
          layoutEvents (len (sources T₁) + len (Token.region (bareSpec factId) x).source) T₂ := by
      rw [htokens, layoutEvents_append, Nat.zero_add, layoutEvents]
    have hfact := factId_bareSpec factId (len (sources T₁))
    refine ⟨_, _, layoutEvents 0 T₁, _, _, _, _, _, _, _, _, parse_eq_some raw, parse_eq_some _,
      hevents, hfact, hstart, ?_, hcut, fun facts sourcePath spare hretired row hrow => ?_⟩
    · rw [hstop]
      simp only [len_append, len_regionEnd, openMarker, Nat.add_assoc]
    · refine orphans_cut hevents hcut ?_ hretired hrow
      rintro r ⟨⟩
      exact hfact

/-! ## A stale end -/

/-- A fact that is retired. -/
def retired : FactId := ⟨"01890000-0000-7000-8000-000000000001".toList, isFactId_one⟩

/-- Its page, with another fact behind it. -/
def twoRegions : Str :=
  "{{f=01890000-0000-7000-8000-000000000001}}Bob vive a Roma{{/}}\n".toList ++
    "{{f=01890000-0000-7000-8000-000000000002}}Bob lavora in banca{{/}}".toList

/-- When the end that is stored is that of the next region, both regions are cut. -/
theorem stale_end_takes_the_next :
    ¬ HarmsNothingElse twoRegions retired (some 0) (some (len twoRegions : ℤ)) := by
  intro h
  have hcut : cutRegion twoRegions retired (some 0) (some (len twoRegions : ℤ)) = some [] := by
    decide +kernel
  obtain ⟨old, new, pre, post, start, stop, bodyStart, bodyEnd, attrs, body, embeds, hold, -,
    hevents, -, hstart, hstop, -, -⟩ := h [] hcut
  have hnone : (parseEvents twoRegions).all (fun ev => ev.span != (0, len twoRegions)) = true := by
    decide +kernel
  have hmem : .region start stop attrs bodyStart bodyEnd body embeds ∈ parseEvents twoRegions := by
    rw [parseEvents, hold, Option.map_some, Option.getD_some, hevents]
    exact List.mem_append_right _ List.mem_cons_self
  have hspan := List.all_eq_true.mp hnone _ hmem
  have hzero := Option.some.inj hstart
  have hlen := Option.some.inj hstop
  simp only [ParseEvent.span, bne_iff_ne, ne_eq, Prod.mk.injEq, not_and] at hspan
  exact hspan (by omega) (by omega)

end Reindex

end Mwe
