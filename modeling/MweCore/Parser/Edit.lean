import MweCore.Parser.Layout

/-!
# Editing the body of a region

The tokens before a region do not depend on what stands behind the region's opening marker
(`tokens_edit`): each of them is decided by a `}}` or a `{{/}}` that comes no later than that
marker.  So a text whose `j`-th region gets another body has the same tokens up to that region,
then a region with the new body up to its first `{{/}}`, then the tokens of what follows.

`tokens_replace` draws the conclusion for an edit that keeps the list of regions: the new text
has the old tokens with the one body replaced.
-/

namespace Mwe

open Str Search

/-! ## Which markers open a region -/

/-- What stands between the braces of a marker that opens a region. -/
def OpensRegion (spec : Str) : Prop :=
  '\n' ∉ spec ∧ spec ≠ ['/'] ∧ stripPrefix "embed=".toList spec = none

/-- A marker opens a region exactly when it closes on its line, is neither a terminator nor an
embed, and a terminator follows. -/
theorem marker_eq_region_iff {inner spec body after : Str} :
    marker inner = (.region spec body, after) ↔
      inner = spec ++ closeMark ++ body ++ regionEnd ++ after ∧ FirstAt closeMark spec ∧
        OpensRegion spec ∧ FirstAt regionEnd body := by
  constructor
  · intro h
    unfold marker at h
    split at h
    · simp at h
    · next spec' rest hclose =>
      obtain ⟨rfl, hfirst⟩ := (splitOnce_eq_some_iff (by decide)).mp hclose
      split at h
      · simp at h
      · next hnl =>
        unfold closedMarker at h
        split at h
        · simp at h
        · next hslash =>
          split at h
          · split at h <;> simp at h
          · next hembed =>
            split at h
            · simp at h
            · next body' after' hterm =>
              obtain ⟨rfl, hend⟩ := (splitOnce_eq_some_iff (by decide)).mp hterm
              obtain ⟨⟨rfl, rfl⟩, rfl⟩ : (spec' = spec ∧ body' = body) ∧ after' = after := by
                simpa using h
              exact ⟨by simp, hfirst, ⟨hnl, hslash, hembed⟩, hend⟩
  · rintro ⟨rfl, hfirst, ⟨hnl, hslash, hembed⟩, hend⟩
    have hclose : splitOnce closeMark (spec ++ closeMark ++ body ++ regionEnd ++ after) =
        some (spec, body ++ regionEnd ++ after) := by
      simpa using splitOnce_of_firstAt (by decide) hfirst (body ++ regionEnd ++ after)
    have hterm := splitOnce_of_firstAt (by decide) hend after
    simp only [marker, hclose, if_neg hnl, closedMarker, if_neg hslash, hembed, hterm]

/-- A text that starts with a region is that region and the tokens behind it. -/
lemma tokens_region {spec body : Str} (hspec : FirstAt closeMark spec) (hopens : OpensRegion spec)
    (hbody : FirstAt regionEnd body) (w : Str) :
    tokens (opening spec ++ body ++ regionEnd ++ w) = .region spec body :: tokens w := by
  have hcut : splitOnce openMark (opening spec ++ body ++ regionEnd ++ w) =
      some ([], spec ++ closeMark ++ body ++ regionEnd ++ w) := by
    simpa [opening] using splitOnce_of_firstAt (by decide) (firstAt_nil openMark)
      (spec ++ closeMark ++ body ++ regionEnd ++ w)
  have hmarker : marker (spec ++ closeMark ++ body ++ regionEnd ++ w) = (.region spec body, w) :=
    marker_eq_region_iff.mpr ⟨rfl, hspec, hopens, hbody⟩
  rw [tokens_of_some hcut, hmarker]
  rfl

/-- Two region terminators never overlap. -/
lemma borderless_regionEnd : Borderless regionEnd := by
  intro p q hp hq h hpre
  have hdrop : q = regionEnd.drop p.length := by rw [h]; simp
  have hlen := congrArg List.length h
  have hpos : 0 < p.length := List.length_pos_iff.mpr hp
  have hqpos : 0 < q.length := List.length_pos_iff.mpr hq
  simp only [List.length_append, show regionEnd.length = 5 from rfl] at hlen
  rw [hdrop] at hpre
  obtain hp | hp | hp | hp : p.length = 1 ∨ p.length = 2 ∨ p.length = 3 ∨ p.length = 4 := by
    omega
  all_goals
    rw [hp] at hpre
    exact absurd hpre (by decide)

/-! ## What comes before a region -/

/-- A closed marker with a terminator behind it is decided by its spec and what it takes. -/
lemma closedMarker_stable {spec rest tail : Str} {t : Token}
    (h : closedMarker spec rest = (t, tail)) (hend : regionEnd <:+: tail) (tail' : Str) :
    ∃ rest', opening spec ++ rest' = t.source ++ tail' ∧ closedMarker spec rest' = (t, tail') := by
  have hsource := closedMarker_source spec
  unfold closedMarker at h
  split at h
  · next hslash =>
    obtain ⟨rfl, rfl⟩ := Prod.mk.inj h
    exact ⟨tail', rfl, by simp [closedMarker, hslash]⟩
  · next hslash =>
    split at h
    · next raw hembed =>
      have hval : closedMarker spec tail' = (t, tail') := by
        unfold closedMarker
        rw [if_neg hslash, hembed]
        dsimp only
        split at h
        all_goals obtain ⟨rfl, rfl⟩ := Prod.mk.inj h; simp [*]
      refine ⟨tail', ?_, hval⟩
      have hs := hsource tail'
      rw [hval] at hs
      exact hs.symm
    · next hembed =>
      split at h
      · next hnone =>
        obtain ⟨rfl, rfl⟩ := Prod.mk.inj h
        exact absurd hend ((splitOnce_eq_none_iff (by decide)).mp hnone)
      · next body after hterm =>
        obtain ⟨rfl, rfl⟩ := Prod.mk.inj h
        have hfirst := firstAt_of_splitOnce (by decide) hterm
        refine ⟨body ++ regionEnd ++ tail', by simp [Token.source], ?_⟩
        simp only [closedMarker, if_neg hslash, hembed,
          splitOnce_of_firstAt (by decide) hfirst tail']

/-- A marker before a text `p` that closes a marker, with a terminator behind, is decided by what
stands before the end of `p`. -/
lemma marker_stable {inner p q : Str} {t : Token} (h : marker inner = (t, p ++ q))
    (hclose : closeMark <:+: p) (hend : regionEnd <:+: p ++ q) (q' : Str) :
    ∃ inner', openMark ++ inner' = t.source ++ (p ++ q') ∧ marker inner' = (t, p ++ q') := by
  unfold marker at h
  split at h
  · obtain ⟨rfl, hnil⟩ := Prod.mk.inj h
    rw [← hnil] at hend
    exact absurd (List.infix_nil.mp hend) (by decide)
  · next spec rest hcut =>
    split at h
    · next hnl =>
      obtain ⟨rfl, rfl⟩ := Prod.mk.inj h
      obtain ⟨spec', rest', hp⟩ := exists_splitOnce_of_infix (by decide) hclose
      have hq := splitOnce_append_right (by decide) hp q
      have hq' := splitOnce_append_right (by decide) hp q'
      obtain ⟨rfl, -⟩ : spec' = spec ∧ _ := by simpa using hq.symm.trans hcut
      exact ⟨p ++ q', rfl, by simp only [marker, hq', if_pos hnl]⟩
    · next hnl =>
      obtain ⟨rest', hsource, hmarker⟩ := closedMarker_stable h hend (p ++ q')
      have hfirst := firstAt_of_splitOnce (by decide) hcut
      refine ⟨spec ++ closeMark ++ rest', by rw [← hsource]; simp [opening], ?_⟩
      rw [marker, splitOnce_of_firstAt (by decide) hfirst]
      simp only [if_neg hnl, hmarker]

/-- Prose is no region. -/
lemma region_not_mem_proseToken (spec body s : Str) : Token.region spec body ∉ proseToken s := by
  unfold proseToken
  split <;> simp

/-- A region among the tokens of one turn is the marker's token or among those after it. -/
lemma proseToken_append_eq {before spec b : Str} {t : Token} {ts T₁ T₂ : List Token}
    (h : proseToken before ++ t :: ts = T₁ ++ .region spec b :: T₂) :
    (T₁ = proseToken before ∧ t = .region spec b ∧ ts = T₂) ∨
      ∃ T, T₁ = proseToken before ++ t :: T ∧ ts = T ++ .region spec b :: T₂ := by
  rcases List.append_eq_append_iff.mp h with ⟨x, hT, hx⟩ | ⟨x, hT, hx⟩
  · cases x with
    | nil =>
      obtain ⟨rfl, rfl⟩ : t = .region spec b ∧ ts = T₂ := by simpa using hx
      exact .inl ⟨by simpa using hT, rfl, rfl⟩
    | cons y x =>
      obtain ⟨rfl, rfl⟩ : t = y ∧ ts = x ++ .region spec b :: T₂ := by simpa using hx
      exact .inr ⟨x, hT, rfl⟩
  · cases x with
    | nil =>
      obtain ⟨rfl, rfl⟩ : t = .region spec b ∧ ts = T₂ := by simpa [eq_comm] using hx
      exact .inl ⟨by simpa using hT.symm, rfl, rfl⟩
    | cons y x =>
      obtain ⟨rfl, -⟩ : Token.region spec b = y ∧ T₂ = x ++ t :: ts := by simpa using hx
      exact absurd (by simp [hT]) (region_not_mem_proseToken spec b before)

/-- The tokens before a region and the region's marker stay when what follows the marker is
replaced by a body, its terminator and any text. -/
theorem tokens_edit {s spec b : Str} {T₁ T₂ : List Token}
    (h : tokens s = T₁ ++ .region spec b :: T₂) {u : Str} (hu : FirstAt regionEnd u) (w : Str) :
    tokens (sources T₁ ++ opening spec ++ u ++ regionEnd ++ w) =
      T₁ ++ .region spec u :: tokens w := by
  induction s using tokens.induct generalizing T₁ with
  | case1 s hnone =>
    rw [tokens_of_none hnone] at h
    exact absurd (by simp [h]) (region_not_mem_proseToken spec b s)
  | case2 s before inner hsome ih =>
    have hbefore := firstAt_of_splitOnce (by decide) hsome
    rw [tokens_of_some hsome] at h
    rcases proseToken_append_eq h with ⟨rfl, hmarker, -⟩ | ⟨T, rfl, hrest⟩
    · -- the region is this turn's marker
      obtain ⟨hinner, hspec, hopens, -⟩ := marker_eq_region_iff.mp (Prod.ext hmarker rfl)
      have hnew : marker (spec ++ closeMark ++ u ++ regionEnd ++ w) = (.region spec u, w) :=
        marker_eq_region_iff.mpr ⟨rfl, hspec, hopens, hu⟩
      have hcut := splitOnce_of_firstAt (by decide) hbefore (spec ++ closeMark ++ u ++ regionEnd ++ w)
      have hturn := tokens_of_some hcut
      rw [hnew] at hturn
      rw [← hturn, sources_proseToken]
      simp [opening]
    · -- the region comes later, and this turn's marker stays
      have hlater := ih hrest
      have hsource := tokens_source (marker inner).2
      rw [hrest] at hsource
      have hmarker : marker inner = ((marker inner).1,
          (sources T ++ opening spec) ++ (b ++ regionEnd ++ sources T₂)) :=
        Prod.ext rfl (by simp [← hsource, Token.source])
      obtain ⟨inner', hinner', hmarker'⟩ := marker_stable hmarker
        ⟨sources T ++ openMark ++ spec, [], by simp [opening]⟩
        ⟨sources T ++ opening spec ++ b, sources T₂, by simp⟩ (u ++ regionEnd ++ w)
      have hcut := splitOnce_of_firstAt (by decide) hbefore inner'
      have htext : sources (proseToken before ++ (marker inner).1 :: T) ++ opening spec ++ u ++
          regionEnd ++ w = before ++ openMark ++ inner' := by
        rw [List.append_assoc before, hinner']
        simp
      have hlater' : tokens (sources T ++ opening spec ++ (u ++ regionEnd ++ w)) =
          T ++ .region spec u :: tokens w := by
        rw [← hlater]
        simp
      rw [htext, tokens_of_some hcut, hmarker', hlater']
      simp

/-- The same, for any text behind the marker that holds a terminator. -/
lemma tokens_edit_of_splitOnce {s spec b x u w : Str} {T₁ T₂ : List Token}
    (h : tokens s = T₁ ++ .region spec b :: T₂) (hx : splitOnce regionEnd x = some (u, w)) :
    tokens (sources T₁ ++ opening spec ++ x) = T₁ ++ .region spec u :: tokens w := by
  have hcut := splitOnce_append (by decide) hx
  rw [← tokens_edit h (firstAt_of_splitOnce (by decide) hx) w, ← hcut]
  simp

/-- A region's body ends at its first terminator, and what follows it has its own tokens. -/
lemma tokens_cut {s spec b : Str} {T₁ T₂ : List Token}
    (h : tokens s = T₁ ++ .region spec b :: T₂) :
    FirstAt regionEnd b ∧ tokens (sources T₂) = T₂ := by
  obtain ⟨u, w, hcut⟩ : ∃ u w, splitOnce regionEnd (b ++ regionEnd ++ sources T₂) = some (u, w) :=
    exists_splitOnce_of_infix (by decide) ⟨b, sources T₂, rfl⟩
  have hs : s = sources T₁ ++ opening spec ++ (b ++ regionEnd ++ sources T₂) := by
    rw [← tokens_source s, h]
    simp [Token.source]
  have hsame := tokens_edit_of_splitOnce h hcut
  rw [← hs, h] at hsame
  obtain ⟨rfl, hT₂⟩ : b = u ∧ T₂ = tokens w := by simpa using hsame
  refine ⟨firstAt_of_splitOnce (by decide) hcut, ?_⟩
  rw [hT₂, tokens_source]

/-! ## Edits that keep the regions -/

/-- The regions among tokens: what stands between the braces, and the body. -/
def regionTokens (ts : List Token) : List (Str × Str) :=
  ts.filterMap fun
    | .region spec body => some (spec, body)
    | _ => none

@[simp] lemma regionTokens_append (ts us : List Token) :
    regionTokens (ts ++ us) = regionTokens ts ++ regionTokens us := by
  simp [regionTokens]

@[simp] lemma regionTokens_region_cons (spec body : Str) (ts : List Token) :
    regionTokens (.region spec body :: ts) = (spec, body) :: regionTokens ts := rfl

/-- When a region's body is replaced and the text still has the new body at that region, no other
token changes. -/
theorem tokens_replace {s spec b b' : Str} {T₁ T₂ : List Token}
    (h : tokens s = T₁ ++ .region spec b :: T₂)
    (hkeep : ∃ spec', (regionTokens (tokens (sources T₁ ++ opening spec ++ b' ++ regionEnd ++
      sources T₂)))[(regionTokens T₁).length]? = some (spec', b')) :
    tokens (sources T₁ ++ opening spec ++ b' ++ regionEnd ++ sources T₂) =
      T₁ ++ .region spec b' :: T₂ := by
  obtain ⟨u, w, hcut⟩ : ∃ u w, splitOnce regionEnd (b' ++ regionEnd ++ sources T₂) = some (u, w) :=
    exists_splitOnce_of_infix (by decide) ⟨b', sources T₂, rfl⟩
  have hnew := tokens_edit_of_splitOnce h hcut
  simp only [← List.append_assoc] at hnew
  obtain ⟨spec', hkeep⟩ := hkeep
  -- the region read at the edited place has the body `u`, so `u` is the new body
  rw [hnew] at hkeep
  obtain ⟨-, rfl⟩ : spec = spec' ∧ u = b' := by simpa using hkeep
  have hw : w = sources T₂ := by simpa using splitOnce_append (by decide) hcut
  rw [hnew, hw, (tokens_cut h).2]

/-! ## Attributes do not depend on where the marker stands -/

/-- Two attribute states that differ in their warnings alone. -/
def AttrState.SameAttrs (st st' : AttrState) : Prop :=
  st.attrs = st'.attrs ∧ st.subjectFromCanonicalKey = st'.subjectFromCanonicalKey

/-- Warnings change nothing else. -/
lemma AttrState.SameAttrs.warn {st st' : AttrState} (h : st.SameAttrs st') (o o' : ℕ)
    (kind kind' : ParseWarningKind) (detail detail' : Str) :
    (st.warn o kind detail).SameAttrs (st'.warn o' kind' detail') := h

/-- Folds of steps that agree up to warnings agree up to warnings. -/
lemma foldl_sameAttrs {f f' : AttrState → Str → AttrState}
    (hf : ∀ st st' c, st.SameAttrs st' → (f st c).SameAttrs (f' st' c)) (cs : List Str)
    {st st' : AttrState} (h : st.SameAttrs st') : (cs.foldl f st).SameAttrs (cs.foldl f' st') := by
  induction cs generalizing st st' with
  | nil => exact h
  | cons c cs ih => exact ih (hf st st' c h)

lemma parseSubject_sameAttrs (o o' : ℕ) {st st' : AttrState} (h : st.SameAttrs st')
    (key val : Str) : (parseSubject o st key val).SameAttrs (parseSubject o' st' key val) := by
  unfold parseSubject
  split
  · simp only [h.2]
    split
    · exact ⟨by simp only [h.1], rfl⟩
    · exact h
  · exact h.warn ..

lemma parseAllowEntry_sameAttrs (o o' : ℕ) (st st' : AttrState) (raw : Str)
    (h : st.SameAttrs st') : (parseAllowEntry o st raw).SameAttrs (parseAllowEntry o' st' raw) := by
  unfold parseAllowEntry
  split
  · exact ⟨by simp only [h.1], h.2⟩
  · exact h.warn ..

/-- An attribute of a marker sets the same attributes at every offset. -/
lemma parseAttr_sameAttrs (o o' : ℕ) {st st' : AttrState} (h : st.SameAttrs st')
    (key val : Str) : (parseAttr o st key val).SameAttrs (parseAttr o' st' key val) := by
  unfold parseAttr
  split
  · exact parseSubject_sameAttrs o o' h key val
  · split
    · exact foldl_sameAttrs (parseAllowEntry_sameAttrs o o') _ h
    · split
      · split
        · exact ⟨by simp only [h.1], h.2⟩
        · exact h.warn ..
      · split
        · dsimp only
          split
          · exact h
          · exact ⟨by simp only [h.1], h.2⟩
        · split
          · split
            · exact ⟨by simp only [h.1], h.2⟩
            · exact h.warn ..
          · exact h.warn ..

/-- A clause of a marker sets the same attributes at every offset. -/
lemma parseClause_sameAttrs (o o' : ℕ) (st st' : AttrState) (clause : Str)
    (h : st.SameAttrs st') : (parseClause o st clause).SameAttrs (parseClause o' st' clause) := by
  unfold parseClause
  split
  · exact h.warn ..
  · split
    · exact h.warn ..
    · exact parseAttr_sameAttrs o o' h _ _

/-- The attributes of a marker do not depend on its offset. -/
lemma parseAttrs_fst_eq (spec : Str) (o o' : ℕ) :
    (parseAttrs spec o).1 = (parseAttrs spec o').1 :=
  (foldl_sameAttrs (parseClause_sameAttrs o o') (splitAsciiWhitespace spec) ⟨rfl, rfl⟩).1

end Mwe
