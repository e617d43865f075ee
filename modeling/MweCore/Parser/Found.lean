import MweCore.Parser.Appending

/-!
# Where the regions of a text are

The regions of an output with their offsets, and what is left of a text when the regions that a
test picks are cut out at those offsets (`cutSpans_left`).
-/

namespace Mwe

open Str Search

/-- A region where the parser finds it. -/
structure FoundRegion where
  start : ℕ
  stop : ℕ
  attrs : RegionAttrs
  body : Str

/-- Where a region stands. -/
def FoundRegion.span (f : FoundRegion) : ℕ × ℕ := (f.start, f.stop)

/-- The region of an event. -/
def foundRegion : ParseEvent → Option FoundRegion
  | .region start stop attrs _ _ body _ => some ⟨start, stop, attrs, body⟩
  | _ => none

/-- The regions of events. -/
def foundRegions (events : List ParseEvent) : List FoundRegion := events.filterMap foundRegion

/-- What stands between the spans, from a cursor on. -/
def cutSpans (source : Str) : ℕ → List (ℕ × ℕ) → Option Str
  | cursor, [] => sliceFrom source cursor
  | cursor, span :: spans => do
    let piece ← slice source cursor span.1
    let rest ← cutSpans source span.2 spans
    pure (piece ++ rest)

/-! ## Regions in a layout -/

lemma foundRegion_event {t : Token} (h : t.isRegion = false) (pos : ℕ) :
    foundRegion (t.event pos) = none := by
  cases t with
  | region spec body => simp [Token.isRegion] at h
  | prose text why => rfl
  | embed cid => rfl

/-- A region spans its token. -/
lemma span_of_event {t : Token} {pos : ℕ} {f : FoundRegion}
    (h : foundRegion (t.event pos) = some f) : f.span = (pos, pos + len t.source) := by
  cases t with
  | prose text why => simp [Token.event, foundRegion] at h
  | embed cid => simp [Token.event, foundRegion] at h
  | region spec body =>
    obtain rfl := Option.some.inj h
    simp [FoundRegion.span, Token.source, Nat.add_assoc]

/-- The regions of a layout are those of its marks. -/
lemma foundRegions_layout (pos : ℕ) (ts : List Token) :
    foundRegions (layoutEvents pos ts) =
      (marks pos ts).filterMap fun m => foundRegion (m.2.event m.1) := by
  induction ts generalizing pos with
  | nil => rfl
  | cons t ts ih =>
    have hlater := ih (pos + len t.source)
    unfold foundRegions at hlater ⊢
    rw [layoutEvents, List.filterMap_cons, hlater, marks]
    split_ifs with hmark
    · rw [List.filterMap_cons]
    · rw [foundRegion_event (by simp_all)]

/-- Marks that are no regions show none. -/
lemma filterMap_found_filter (ms : List (ℕ × Token)) :
    ((ms.filter (·.2.isRegion)).filterMap fun m => foundRegion (m.2.event m.1)) =
      ms.filterMap fun m => foundRegion (m.2.event m.1) := by
  induction ms with
  | nil => rfl
  | cons m ms ih =>
    rw [List.filter_cons]
    split
    · rw [List.filterMap_cons, List.filterMap_cons, ih]
    · next hm =>
      rw [List.filterMap_cons, foundRegion_event (by simpa using hm), ih]

/-- A region of a text is one of its tokens, at its place. -/
lemma exists_tokens_of_found {pos : ℕ} {ts : List Token} {f : FoundRegion}
    (h : f ∈ foundRegions (layoutEvents pos ts)) :
    ∃ T₁ spec body T₂, ts = T₁ ++ .region spec body :: T₂ ∧
      f = ⟨pos + len (sources T₁), pos + len (sources T₁) + len (Token.region spec body).source,
        (parseAttrs spec (pos + len (sources T₁))).1, body⟩ := by
  induction ts generalizing pos with
  | nil => simp [layoutEvents, foundRegions] at h
  | cons t ts ih =>
    obtain ⟨ev, hev, hf⟩ := List.mem_filterMap.mp h
    rcases List.mem_cons.mp hev with rfl | hev
    · cases t with
      | prose text why => simp [Token.event, foundRegion] at hf
      | embed cid => simp [Token.event, foundRegion] at hf
      | region spec body =>
        refine ⟨[], spec, body, ts, rfl, ?_⟩
        simp only [Token.event, foundRegion, Option.some.injEq] at hf
        simp [← hf, Token.source, Nat.add_assoc]
    · obtain ⟨T₁, spec, body, T₂, rfl, rfl⟩ := ih (List.mem_filterMap.mpr ⟨ev, hev, hf⟩)
      exact ⟨t :: T₁, spec, body, T₂, rfl, by simp [Nat.add_assoc]⟩

/-- The bytes of a region that the parser finds, wherever it stands. -/
structure Written (spec body : Str) : Prop where
  opens : OpensRegion spec
  close : FirstAt closeMark spec
  terminator : FirstAt regionEnd body

/-- The regions of a text can be written anywhere. -/
lemma Written.of_tokens {s spec body : Str} {T₁ T₂ : List Token}
    (h : tokens s = T₁ ++ .region spec body :: T₂) : Written spec body :=
  ⟨(opensRegion_of_tokens h).1, (opensRegion_of_tokens h).2, (tokens_cut h).1⟩

/-- Where a region is written, the parser finds it. -/
lemma Written.marks_append {spec body : Str} (h : Written spec body) (w : Str) (pos : ℕ) :
    marks pos (tokens ((Token.region spec body).source ++ w)) =
      (pos, .region spec body) ::
        marks (pos + len (Token.region spec body).source) (tokens w) := by
  have htokens := tokens_region h.close h.opens h.terminator w
  rw [Token.source, htokens]
  rfl

/-- The regions of a layout start one behind the other. -/
lemma pairwise_foundRegions (pos : ℕ) (ts : List Token) :
    (foundRegions (layoutEvents pos ts)).Pairwise fun f g => f.start < g.start := by
  induction ts generalizing pos with
  | nil => exact .nil
  | cons t ts ih =>
    unfold foundRegions at ih ⊢
    rw [layoutEvents, List.filterMap_cons]
    cases t with
    | prose text why => exact ih _
    | embed cid => exact ih _
    | region spec body =>
      refine List.pairwise_cons.mpr ⟨fun g hg => ?_, ih _⟩
      obtain ⟨T₁, -, -, -, -, rfl⟩ := exists_tokens_of_found hg
      simp only [Token.source, len_append, len_regionEnd]
      omega

/-! ## Cutting regions out -/

section

variable (picks : FoundRegion → Bool)

/-- Whether an event is a region that is cut. -/
def isCut (ev : ParseEvent) : Bool := (foundRegion ev).any picks

/-- The tokens that are not cut. -/
def leftTokens : ℕ → List Token → List Token
  | _, [] => []
  | pos, t :: ts =>
    if isCut picks (t.event pos) then leftTokens (pos + len t.source) ts
    else t :: leftTokens (pos + len t.source) ts

variable {picks}

lemma isCut_of_none {ev : ParseEvent} (h : foundRegion ev = none) : isCut picks ev = false := by
  simp [isCut, h]

lemma isCut_of_some {ev : ParseEvent} {f : FoundRegion} (h : foundRegion ev = some f) :
    isCut picks ev = picks f := by
  simp [isCut, h]

/-- Only regions are cut. -/
lemma thinned_leftTokens (pos : ℕ) (ts : List Token) : Thinned ts (leftTokens picks pos ts) := by
  induction ts generalizing pos with
  | nil => exact .nil
  | cons t ts ih =>
    rw [leftTokens]
    split_ifs with hcut
    · cases t with
      | region spec body => exact .cut spec body (ih _)
      | prose text why => exact absurd hcut (by rw [isCut_of_none rfl]; simp)
      | embed cid => exact absurd hcut (by rw [isCut_of_none rfl]; simp)
    · exact .keep t (ih _)

/-- Cutting the spans of the regions leaves the characters of the other tokens. -/
lemma cutSpans_left {source before held : Str} {ts : List Token}
    (h : source = before ++ held ++ sources ts) :
    cutSpans source (len before)
        (((foundRegions (layoutEvents (len (before ++ held)) ts)).filter picks).map
          FoundRegion.span) =
      some (held ++ sources (leftTokens picks (len (before ++ held)) ts)) := by
  induction ts generalizing before held with
  | nil => simp [layoutEvents, foundRegions, cutSpans, h, leftTokens]
  | cons t ts ih =>
    have hpos : len (before ++ held) + len t.source = len (before ++ held ++ t.source) :=
      (len_append _ _).symm
    have hheld : source = before ++ (held ++ t.source) ++ sources ts := by simp [h]
    have hlater := ih hheld
    rw [← List.append_assoc] at hlater
    unfold foundRegions at ih hlater ⊢
    rw [layoutEvents, List.filterMap_cons, leftTokens, hpos]
    cases hf : foundRegion (t.event (len (before ++ held))) with
    | none =>
      dsimp only
      rw [hlater, isCut_of_none hf]
      simp
    | some f =>
      have hspan := span_of_event hf
      rw [hpos] at hspan
      dsimp only
      rw [List.filter_cons, isCut_of_some hf]
      cases hpick : picks f with
      | true =>
        -- what was held is written, and the cursor goes behind the region
        have hpiece : slice source (len before) (len (before ++ held)) = some held :=
          slice_eq (b := sources (t :: ts)) (by rw [h]) rfl (len_append _ _)
        have hcursor : source = (before ++ held ++ t.source) ++ [] ++ sources ts := by simp [h]
        have hbehind := ih hcursor
        rw [List.append_nil] at hbehind
        rw [if_pos rfl, if_pos rfl, List.map_cons, cutSpans, hspan, hpiece, hbehind]
        rfl
      | false =>
        rw [if_neg (by simp), if_neg (by simp), hlater]
        simp

end

end Mwe
