import MweCore.Parser.Edit

/-!
# Respelling the markers of a text

An export rewrites what stands between the braces of some regions and copies everything else.
`tokens_respell` says that such a rewrite does what it looks like: the tokens of the new text are
the old tokens with the regions respelled, however malformed the rest of the text is.

The one interaction is a `{{` whose first `}}` lies on a later line: its scan runs through the
text behind it, markers included.  The second half of the induction (`KeepsLine`) says that this
scan still meets a line break first.
-/

namespace Mwe

open Str Search

/-- A rewrite of tokens that changes the markers of regions alone, into markers that open a
region and close at their own braces. -/
structure Respells (f : Token → Token) : Prop where
  other : ∀ t, (∀ spec body, t ≠ .region spec body) → f t = t
  region : ∀ spec body, OpensRegion spec → FirstAt closeMark spec →
    ∃ spec', f (.region spec body) = .region spec' body ∧ OpensRegion spec' ∧
      FirstAt closeMark spec'

/-- Where the first `}}` of the old text lies behind a line break, so does that of the new text. -/
def KeepsLine (old new : Str) : Prop :=
  ∀ a b, splitOnce closeMark old = some (a, b) → '\n' ∈ a →
    ∃ a' b', splitOnce closeMark new = some (a', b') ∧ '\n' ∈ a'

/-- A text without a terminator has no region, and is not respelled. -/
lemma map_respell_of_not_regionEnd {f : Token → Token} (hf : Respells f) {s : Str}
    (h : ¬ regionEnd <:+: s) : (tokens s).map f = tokens s := by
  refine (List.map_congr_left fun t ht => hf.other t fun spec body heq => ?_).trans (List.map_id _)
  obtain ⟨T₁, T₂, hT⟩ := List.append_of_mem ht
  refine h ⟨sources T₁ ++ opening spec ++ body, sources T₂, ?_⟩
  rw [← tokens_source s, hT, heq]
  simp [Token.source]

/-- A marker that closes on its line has no line break before its `}}`. -/
lemma keepsLine_of_closed {spec new : Str} (hspec : FirstAt closeMark spec)
    (hnl : '\n' ∉ spec) (rest : Str) : KeepsLine (spec ++ closeMark ++ rest) new := by
  intro a b hcut hmem
  rw [splitOnce_of_firstAt (by decide) hspec] at hcut
  obtain ⟨rfl, -⟩ : spec = a ∧ _ := by simpa using hcut
  exact absurd hmem hnl

/-- What a respelled marker has to satisfy, in front of the rest `new` of the new text. -/
def MarkerRespelled (inner new : Str) (t : Token) : Prop :=
  ∃ inner', openMark ++ inner' = t.source ++ new ∧ marker inner' = (t, new) ∧
    KeepsLine inner inner' ∧
    ((splitOnce closeMark inner).isSome → (splitOnce closeMark inner').isSome)

/-- A region's marker, respelled. -/
lemma markerRespelled_region {inner spec spec' body new : Str}
    (h : (marker inner).1 = .region spec body) (hopens : OpensRegion spec')
    (hspec' : FirstAt closeMark spec') : MarkerRespelled inner new (.region spec' body) := by
  obtain ⟨hinner, hspec, hold, hbody⟩ := marker_eq_region_iff.mp (Prod.ext h rfl)
  refine ⟨spec' ++ closeMark ++ body ++ regionEnd ++ new, by simp [Token.source, opening],
    marker_eq_region_iff.mpr ⟨rfl, hspec', hopens, hbody⟩, ?_, fun _ => ?_⟩
  · rw [hinner]
    simpa using keepsLine_of_closed hspec hold.1 (body ++ regionEnd ++ (marker inner).2)
  · have hcut := splitOnce_of_firstAt (by decide) hspec' (body ++ regionEnd ++ new)
    simp only [← List.append_assoc] at hcut
    rw [hcut]
    rfl

/-- Any other marker, in front of a rest that keeps the lines of the old one. -/
lemma markerRespelled_other {inner new : Str} (hend : regionEnd <:+: (marker inner).2)
    (hline : KeepsLine (marker inner).2 new) : MarkerRespelled inner new (marker inner).1 := by
  unfold marker at hend hline ⊢
  split at hend
  · exact absurd (List.infix_nil.mp hend) (by decide)
  · next spec rest hcut =>
    obtain ⟨rfl, hspec⟩ := (splitOnce_eq_some_iff (by decide)).mp hcut
    simp only [hcut] at hline ⊢
    split at hend
    · next hnl =>
      simp only [if_pos hnl] at hline ⊢
      obtain ⟨a, b, hnew, hmem⟩ := hline _ _ hcut hnl
      exact ⟨new, rfl, by simp only [marker, hnew, if_pos hmem], hline, fun _ => by simp [hnew]⟩
    · next hnl =>
      simp only [if_neg hnl]
      obtain ⟨rest', hsource, hclosed⟩ :=
        closedMarker_stable (t := (closedMarker spec rest).1) rfl hend new
      have hcut' := splitOnce_of_firstAt (by decide) hspec rest'
      refine ⟨spec ++ closeMark ++ rest', by rw [← hsource]; simp [opening], ?_,
        keepsLine_of_closed hspec hnl rest, fun _ => by rw [hcut']; rfl⟩
      simp only [marker, hcut', if_neg hnl, hclosed]

/-- One marker, respelled in front of the respelled rest. -/
lemma marker_respell {f : Token → Token} (hf : Respells f) (inner : Str)
    (hline : KeepsLine (marker inner).2 (sources ((tokens (marker inner).2).map f))) :
    MarkerRespelled inner (sources ((tokens (marker inner).2).map f)) (f (marker inner).1) := by
  by_cases hregion : ∃ spec body, (marker inner).1 = .region spec body
  · obtain ⟨spec, body, h⟩ := hregion
    obtain ⟨-, hspec, hopens, -⟩ := marker_eq_region_iff.mp (Prod.ext h rfl)
    obtain ⟨spec', hfspec, hopens', hspec'⟩ := hf.region spec body hopens hspec
    rw [h, hfspec]
    exact markerRespelled_region h hopens' hspec'
  · have hkeep : f (marker inner).1 = (marker inner).1 :=
      hf.other _ fun spec body h => hregion ⟨spec, body, h⟩
    rw [hkeep]
    by_cases hend : regionEnd <:+: (marker inner).2
    · exact markerRespelled_other hend hline
    · rw [map_respell_of_not_regionEnd hf hend, tokens_source]
      exact ⟨inner, (marker_source inner).symm, rfl, fun a b hcut hnl => ⟨a, b, hcut, hnl⟩, id⟩

/-- Behind prose without `}}` and an opening `{{`, the first `}}` is the one of what follows. -/
lemma splitOnce_closeMark_append {before inner : Str} (h : ¬ closeMark <:+: before) :
    splitOnce closeMark (before ++ openMark ++ inner) =
      (splitOnce closeMark inner).map fun p => (before ++ openMark ++ p.1, p.2) := by
  have hbrace : ¬ closeMark <:+: before ++ ['{'] := fun hin =>
    (infix_append_cons (by decide) (by decide) hin).elim h fun hnil =>
      absurd (List.infix_nil.mp hnil) (by decide)
  cases hcut : splitOnce closeMark inner with
  | none =>
    rw [Option.map_none, splitOnce_eq_none_iff (by decide)]
    intro hin
    have hnone := (splitOnce_eq_none_iff (by decide)).mp hcut
    have hin' : closeMark <:+: (before ++ ['{']) ++ '{' :: inner := by simpa [openMark] using hin
    exact (infix_append_cons (by decide) (by decide) hin').elim hbrace hnone
  | some p =>
    obtain ⟨a, b⟩ := p
    obtain ⟨rfl, hfirst⟩ := (splitOnce_eq_some_iff (by decide)).mp hcut
    have hfirst' := hfirst.append_cons (c := '{') (by decide) (by decide) hbrace
    have hnew := splitOnce_of_firstAt (by decide) hfirst' b
    simpa [openMark] using hnew

/-- Respelling the regions of a text respells its tokens and keeps its lines. -/
theorem tokens_respell {f : Token → Token} (hf : Respells f) (s : Str) :
    tokens (sources ((tokens s).map f)) = (tokens s).map f ∧
      KeepsLine s (sources ((tokens s).map f)) := by
  induction s using tokens.induct with
  | case1 s hnone =>
    have hsame : (tokens s).map f = tokens s := by
      rw [tokens_of_none hnone]
      unfold proseToken
      split
      · rfl
      · simp [hf.other]
    rw [hsame, tokens_source]
    exact ⟨rfl, fun a b hcut hnl => ⟨a, b, hcut, hnl⟩⟩
  | case2 s before inner hsome ih =>
    obtain ⟨inner', hsource, hmarker, hline, hsomeClose⟩ := marker_respell hf inner ih.2
    have hbefore := firstAt_of_splitOnce (by decide) hsome
    have hprose : (proseToken before).map f = proseToken before := by
      unfold proseToken
      split
      · rfl
      · simp [hf.other]
    have hs : s = before ++ openMark ++ inner := (splitOnce_append (by decide) hsome).symm
    have hnew : sources ((tokens s).map f) = before ++ openMark ++ inner' := by
      rw [tokens_of_some hsome, List.map_append, hprose, sources_append, sources_proseToken,
        List.map_cons, sources_cons, ← hsource, List.append_assoc]
    have hcut := splitOnce_of_firstAt (by decide) hbefore inner'
    rw [hnew]
    constructor
    · rw [tokens_of_some hcut, hmarker, tokens_of_some hsome, List.map_append, hprose,
        List.map_cons, ih.1]
    · intro a b hclose hnl
      by_cases hin : closeMark <:+: before
      · obtain ⟨a₀, b₀, hcut₀⟩ := exists_splitOnce_of_infix (by decide) hin
        have hold := splitOnce_append_right (by decide) hcut₀ (openMark ++ inner)
        have hnew₀ := splitOnce_append_right (by decide) hcut₀ (openMark ++ inner')
        rw [← List.append_assoc] at hold hnew₀
        rw [hs, hold] at hclose
        obtain ⟨rfl, -⟩ : a₀ = a ∧ _ := by simpa using hclose
        exact ⟨a₀, _, hnew₀, hnl⟩
      · rw [hs, splitOnce_closeMark_append hin] at hclose
        obtain ⟨⟨c, d⟩, hinner, heq⟩ := Option.map_eq_some_iff.mp hclose
        obtain ⟨rfl, rfl⟩ : before ++ openMark ++ c = a ∧ d = b := by simpa using heq
        rw [splitOnce_closeMark_append hin]
        rcases List.mem_append.mp hnl with hnl | hnl
        · obtain ⟨⟨c', d'⟩, hinner'⟩ := Option.isSome_iff_exists.mp (hsomeClose (by simp [hinner]))
          exact ⟨before ++ openMark ++ c', d', by simp [hinner'], List.mem_append_left _ hnl⟩
        · obtain ⟨c', d', hinner', hnl'⟩ := hline c d hinner hnl
          exact ⟨before ++ openMark ++ c', d', by simp [hinner'], List.mem_append_right _ hnl'⟩

end Mwe
