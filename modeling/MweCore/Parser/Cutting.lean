import MweCore.Parser.Edit

/-!
# Cutting regions out of a text

A reader of a page meets the characters of its prose, its regions and its embeds, one after the
other: its `fragments`.  How the scanner cuts the prose into tokens does not show there.

`fragments_thinned` says that a text with some of its regions cut out has the other fragments, in
order.  What stands before a region cannot reach over it: a `{{` that has no `}}` before the region
has a line break there, or it would have taken the region's own braces.
-/

namespace Mwe

open Str Search

/-! ## Fragments -/

/-- What a reader meets at one place of a text. -/
inductive Fragment where
  /-- A character of the prose. -/
  | letter (c : Char)
  /-- A region: what stands between the braces of its opening marker, and its body. -/
  | region (spec body : Str)
  /-- A self-closing embed. -/
  | embed (catalogId : CatalogId)
  /-- A marker that opens a region nothing closes. -/
  | opened (text : Str)
  deriving DecidableEq

/-- The characters a fragment was read from. -/
def Fragment.source : Fragment → Str
  | .letter c => [c]
  | .region spec body => (Token.region spec body).source
  | .embed cid => (Token.embed cid).source
  | .opened text => text

/-- The fragments of a token. -/
def Token.fragments : Token → List Fragment
  | .prose text (some (.unclosedRegion, _)) => [.opened text]
  | .prose text _ => text.map .letter
  | .region spec body => [.region spec body]
  | .embed cid => [.embed cid]

/-- The fragments of a text. -/
def fragments (s : Str) : List Fragment := (tokens s).flatMap Token.fragments

/-- The characters that fragments were read from. -/
def spelled (fs : List Fragment) : Str := fs.flatMap Fragment.source

@[simp] lemma spelled_append (fs gs : List Fragment) :
    spelled (fs ++ gs) = spelled fs ++ spelled gs := by
  simp [spelled]

@[simp] lemma spelled_cons (f : Fragment) (fs : List Fragment) :
    spelled (f :: fs) = f.source ++ spelled fs := rfl

@[simp] lemma spelled_fragments (t : Token) : spelled t.fragments = t.source := by
  unfold Token.fragments
  split <;> simp [spelled, Fragment.source, Token.source, List.flatMap_map]

@[simp] lemma spelled_flatMap_fragments (ts : List Token) :
    spelled (ts.flatMap Token.fragments) = sources ts := by
  induction ts with
  | nil => rfl
  | cons t ts ih => simp [ih]

@[simp] lemma flatMap_proseToken (s : Str) :
    (proseToken s).flatMap Token.fragments = s.map .letter := by
  unfold proseToken
  split
  · next h => simp [List.isEmpty_iff.mp h]
  · simp [Token.fragments]

/-- The characters before a doubled element are skipped when it is first behind them. -/
lemma splitOnce_pair_append {d : Char} {a : Str} (h : FirstAt [d, d] a) (w : Str) :
    splitOnce [d, d] (a ++ w) = (splitOnce [d, d] w).map fun p => (a ++ p.1, p.2) := by
  induction a with
  | nil => simp
  | cons c a ih =>
    obtain ⟨hpre, hrest⟩ := firstAt_cons_iff.mp h
    have hno : ¬ [d, d].isPrefixOf (c :: (a ++ w)) = true := by
      intro hhere
      apply hpre
      cases a with
      | nil =>
        obtain ⟨rfl, -⟩ : d = c ∧ _ := by simpa [List.isPrefixOf] using hhere
        simp
      | cons x a => simpa [List.isPrefixOf] using hhere
    rw [List.cons_append, splitOnce, if_neg hno, ih hrest, Option.map_map]
    rfl

/-- A text behind prose that ends before any `{{` has its own fragments. -/
lemma fragments_append {a : Str} (h : FirstAt openMark a) (w : Str) :
    fragments (a ++ w) = a.map .letter ++ fragments w := by
  have hskip := splitOnce_pair_append h w
  unfold fragments
  cases hcut : splitOnce openMark w with
  | none =>
    rw [tokens_of_none hcut, tokens_of_none (by rw [openMark] at *; rw [hskip, hcut]; rfl)]
    simp
  | some p =>
    rw [tokens_of_some hcut, tokens_of_some (by rw [openMark] at *; rw [hskip, hcut]; rfl)]
    simp

/-- A marker at the start of a text gives its fragments. -/
lemma fragments_openMark (inner : Str) :
    fragments (openMark ++ inner) =
      (marker inner).1.fragments ++ fragments (marker inner).2 := by
  have hcut := splitOnce_of_firstAt (by decide) (firstAt_nil openMark) inner
  unfold fragments
  rw [show openMark ++ inner = [] ++ openMark ++ inner from rfl, tokens_of_some hcut]
  simp [proseToken]

/-- One turn of the scanner gives the fragments of the prose, of the marker and of the rest. -/
lemma fragments_of_some {s before inner : Str} (h : splitOnce openMark s = some (before, inner)) :
    fragments s =
      before.map .letter ++ (marker inner).1.fragments ++ fragments (marker inner).2 := by
  simp [fragments, tokens_of_some h]

@[simp] lemma tokens_nil : tokens [] = [] := tokens_of_none rfl

@[simp] lemma fragments_nil : fragments [] = [] := by simp [fragments]

/-- A text in which no marker closes is prose. -/
lemma fragments_of_not_closeMark {s : Str} (h : ¬ closeMark <:+: s) :
    fragments s = s.map .letter := by
  cases hcut : splitOnce openMark s with
  | none => rw [fragments, tokens_of_none hcut, flatMap_proseToken]
  | some p =>
    obtain ⟨before, inner⟩ := p
    have hs := splitOnce_append (by decide) hcut
    have hinner : splitOnce closeMark inner = none := by
      rw [splitOnce_eq_none_iff (by decide)]
      exact fun hclose => h (hs ▸ hclose.trans ⟨before ++ openMark, [], by simp⟩)
    rw [fragments_of_some hcut, marker, hinner, ← hs]
    simp [Token.fragments]

/-! ## What a region is made of -/

/-- The regions among the tokens of a text open as regions do, and close at their own braces. -/
lemma opensRegion_of_tokens {s spec b : Str} {T₁ T₂ : List Token}
    (h : tokens s = T₁ ++ .region spec b :: T₂) : OpensRegion spec ∧ FirstAt closeMark spec := by
  induction s using tokens.induct generalizing T₁ with
  | case1 s hnone =>
    rw [tokens_of_none hnone] at h
    exact absurd (by simp [h]) (region_not_mem_proseToken spec b s)
  | case2 s before inner hsome ih =>
    rw [tokens_of_some hsome] at h
    rcases proseToken_append_eq h with ⟨-, hmarker, -⟩ | ⟨T, -, hrest⟩
    · obtain ⟨-, hspec, hopens, -⟩ := marker_eq_region_iff.mp (Prod.ext hmarker rfl)
      exact ⟨hopens, hspec⟩
    · exact ih hrest

/-! ## One region -/

/-- Where the first `}}` lies behind a line break, there is one before the region. -/
lemma newline_mem_before {p spec rest a b : Str} (hspec : '\n' ∉ spec)
    (hcut : splitOnce closeMark (p ++ opening spec ++ rest) = some (a, b)) (hmem : '\n' ∈ a) :
    '\n' ∈ p := by
  obtain ⟨heq, hfirst⟩ := (splitOnce_eq_some_iff (by decide)).mp hcut
  have hpre : a <+: p ++ openMark ++ spec :=
    hfirst.prefix_of_eq (v := rest) (by rw [← heq]; simp [opening])
  have hline := hpre.subset hmem
  simpa [openMark, hspec] using hline

/-- A line break before the cut stays before the first `}}`. -/
lemma newline_mem_of_splitOnce {p q a b : Str} (hp : '\n' ∈ p) (hclose : ¬ closeMark <:+: p)
    (hcut : splitOnce closeMark (p ++ q) = some (a, b)) : '\n' ∈ a := by
  have heq := splitOnce_append (by decide) hcut
  have hparts : p ++ q = a ++ (closeMark ++ b) := by simpa using heq.symm
  rcases List.append_eq_append_iff.mp hparts with ⟨x, ha, -⟩ | ⟨x, hpx, hx⟩
  · simp [ha, hp]
  · -- at most one brace of the `}}` stands before the cut
    match x, hx with
    | [], _ => simpa [hpx] using hp
    | [c], hx =>
      obtain ⟨rfl, -⟩ : '}' = c ∧ _ := by simpa [closeMark] using hx
      simpa [hpx] using hp
    | c :: d :: x, hx =>
      obtain ⟨rfl, rfl, -⟩ : '}' = c ∧ '}' = d ∧ _ := by simpa [closeMark] using hx
      exact absurd ⟨a, x, by rw [hpx]; simp [closeMark]⟩ hclose

/-- A marker before a region stays what it is when the region is cut out. -/
lemma fragments_marker_cut {inner p spec rest q : Str} {t : Token}
    (h : marker inner = (t, p ++ opening spec ++ rest)) (hspec : '\n' ∉ spec)
    (hend : regionEnd <:+: p ++ opening spec ++ rest) :
    fragments (t.source ++ (p ++ q)) = t.fragments ++ fragments (p ++ q) := by
  unfold marker at h
  split at h
  · obtain ⟨rfl, hnil⟩ := Prod.mk.inj h
    rw [← hnil] at hend
    exact absurd (List.infix_nil.mp hend) (by decide)
  · next a b hcut =>
    split at h
    · next hnl =>
      obtain ⟨rfl, rfl⟩ := Prod.mk.inj h
      have hp := newline_mem_before hspec hcut hnl
      change fragments (openMark ++ (p ++ q)) = _
      rw [fragments_openMark]
      cases hnew : splitOnce closeMark (p ++ q) with
      | none =>
        rw [marker, hnew, fragments_of_not_closeMark ((splitOnce_eq_none_iff (by decide)).mp hnew)]
        simp [Token.fragments]
      | some r =>
        obtain ⟨a', b'⟩ := r
        have hnl' : '\n' ∈ a' := by
          by_cases hclose : closeMark <:+: p
          · obtain ⟨x, y, hxy⟩ := exists_splitOnce_of_infix (by decide) hclose
            have hold := splitOnce_append_right (by decide) hxy (opening spec ++ rest)
            rw [← List.append_assoc, hcut] at hold
            rw [splitOnce_append_right (by decide) hxy] at hnew
            obtain ⟨rfl, -⟩ : a = x ∧ _ := by simpa using hold
            obtain ⟨rfl, -⟩ : a = a' ∧ _ := by simpa using hnew
            exact hnl
          · exact newline_mem_of_splitOnce hp hclose hnew
        simp only [marker, hnew, if_pos hnl']
    · next hnl =>
      obtain ⟨rest', hsource, hmarker⟩ := closedMarker_stable h hend (p ++ q)
      have hfirst := firstAt_of_splitOnce (by decide) hcut
      have hnew : marker (a ++ closeMark ++ rest') = (t, p ++ q) := by
        rw [marker, splitOnce_of_firstAt (by decide) hfirst]
        simp only [if_neg hnl, hmarker]
      have htext : t.source ++ (p ++ q) = openMark ++ (a ++ closeMark ++ rest') := by
        rw [← hsource]
        simp [opening]
      rw [htext, fragments_openMark, hnew]

/-- With one region cut out the other tokens give the fragments they gave. -/
lemma fragments_tokens_cut {s spec b : Str} {T₁ T₂ : List Token}
    (h : tokens s = T₁ ++ .region spec b :: T₂) :
    fragments (sources T₁ ++ sources T₂) =
      T₁.flatMap Token.fragments ++ T₂.flatMap Token.fragments := by
  induction s using tokens.induct generalizing T₁ with
  | case1 s hnone =>
    rw [tokens_of_none hnone] at h
    exact absurd (by simp [h]) (region_not_mem_proseToken spec b s)
  | case2 s before inner hsome ih =>
    have hbefore := firstAt_of_splitOnce (by decide) hsome
    have hopens := (opensRegion_of_tokens h).1
    have hafter := (tokens_cut h).2
    rw [tokens_of_some hsome] at h
    rcases proseToken_append_eq h with ⟨rfl, -, -⟩ | ⟨T, rfl, hrest⟩
    · -- the region follows the prose of this turn
      rw [sources_proseToken, fragments_append hbefore, flatMap_proseToken, fragments, hafter]
    · -- the region comes later, and this turn's marker stays
      have hsource := tokens_source (marker inner).2
      rw [hrest] at hsource
      have hmarker : marker inner =
          ((marker inner).1, sources T ++ opening spec ++ (b ++ regionEnd ++ sources T₂)) :=
        Prod.ext rfl (by simp [← hsource, Token.source])
      have hkept := fragments_marker_cut hmarker hopens.1
        ⟨sources T ++ opening spec ++ b, sources T₂, by simp⟩ (q := sources T₂)
      have htext : sources (proseToken before ++ (marker inner).1 :: T) ++ sources T₂ =
          before ++ ((marker inner).1.source ++ (sources T ++ sources T₂)) := by simp
      rw [htext, fragments_append hbefore, hkept, ih hrest]
      simp

/-! ## Any number of regions -/

/-- The second list is the first one without some of its regions. -/
inductive Thinned : List Token → List Token → Prop
  | nil : Thinned [] []
  | keep (t : Token) {ts us : List Token} : Thinned ts us → Thinned (t :: ts) (t :: us)
  | cut (spec body : Str) {ts us : List Token} : Thinned ts us →
      Thinned (.region spec body :: ts) us

lemma region_not_mem_prose {spec b : Str} (text : Str) (why : Option (ParseWarningKind × Str)) :
    Fragment.region spec b ∉ (Token.prose text why).fragments := by
  unfold Token.fragments
  split
  · simp
  · next heq =>
    obtain ⟨rfl, -⟩ := Token.prose.inj heq
    simp
  · next heq => cases heq
  · next heq => cases heq

/-- A region among the fragments is a region among the tokens. -/
lemma tokens_of_fragments {ts : List Token} {spec b : Str} {F₁ F₂ : List Fragment}
    (h : ts.flatMap Token.fragments = F₁ ++ .region spec b :: F₂) :
    ∃ T₁ T₂, ts = T₁ ++ .region spec b :: T₂ ∧ T₁.flatMap Token.fragments = F₁ ∧
      T₂.flatMap Token.fragments = F₂ := by
  induction ts generalizing F₁ with
  | nil => simp at h
  | cons t ts ih =>
    rw [List.flatMap_cons] at h
    rcases List.append_eq_append_iff.mp h with ⟨x, rfl, hx⟩ | ⟨x, ht, hx⟩
    · obtain ⟨T₁, T₂, rfl, rfl, rfl⟩ := ih hx
      exact ⟨t :: T₁, T₂, rfl, by simp, rfl⟩
    · cases x with
      | nil =>
        have hlater : ts.flatMap Token.fragments = [] ++ .region spec b :: F₂ := hx.symm
        obtain ⟨T₁, T₂, rfl, hnil, rfl⟩ := ih hlater
        exact ⟨t :: T₁, T₂, rfl, by simp [hnil, ht], rfl⟩
      | cons y x =>
        obtain ⟨rfl, rfl⟩ : Fragment.region spec b = y ∧ F₂ = x ++ _ := by simpa using hx
        cases t with
        | prose text w =>
          have hmem : Fragment.region spec b ∈ (Token.prose text w).fragments := by
            rw [ht]
            simp
          exact absurd hmem (region_not_mem_prose text w)
        | embed cid =>
          rcases F₁ with _ | ⟨f, F₁⟩
          · simp [Token.fragments] at ht
          · simp [Token.fragments] at ht
        | region spec' b' =>
          rcases F₁ with _ | ⟨f, F₁⟩
          · obtain ⟨⟨rfl, rfl⟩, rfl⟩ : (spec' = spec ∧ b' = b) ∧ x = [] := by
              simpa [Token.fragments] using ht
            exact ⟨[], ts, rfl, rfl, rfl⟩
          · simp [Token.fragments] at ht

/-- With one region cut out a text has its other fragments. -/
lemma fragments_cut {s spec b : Str} {F₁ F₂ : List Fragment}
    (h : fragments s = F₁ ++ .region spec b :: F₂) :
    fragments (spelled (F₁ ++ F₂)) = F₁ ++ F₂ := by
  obtain ⟨T₁, T₂, htokens, rfl, rfl⟩ := tokens_of_fragments h
  simpa using fragments_tokens_cut htokens

/-- Fragments that read back as themselves still do when regions behind some of them are cut. -/
lemma fragments_cut_behind {ts us : List Token} (h : Thinned ts us) (F : List Fragment)
    (hread : fragments (spelled (F ++ ts.flatMap Token.fragments)) =
      F ++ ts.flatMap Token.fragments) :
    fragments (spelled (F ++ us.flatMap Token.fragments)) = F ++ us.flatMap Token.fragments := by
  induction h generalizing F with
  | nil => exact hread
  | keep t _ ih => simpa using ih (F ++ t.fragments) (by simpa using hread)
  | cut spec body _ ih => exact ih F (fragments_cut hread)

/-- A text with some of its regions cut out has its other fragments, in order. -/
theorem fragments_thinned {s : Str} {us : List Token} (h : Thinned (tokens s) us) :
    fragments (sources us) = us.flatMap Token.fragments := by
  have hread := fragments_cut_behind h [] (by simp [tokens_source, fragments])
  simpa using hread

end Mwe
