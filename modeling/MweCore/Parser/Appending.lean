import MweCore.Parser.Cutting

/-!
# Appending to a text

Text that is appended on a line of its own is read as it would be alone, and the text before it as
it was (`marks_append_line`), with one exception: an opening marker that has no terminator yet finds
one in the appended text, and takes everything up to it (`marks_append_opened`).
-/

namespace Mwe

open Str Search

/-! ## Marks -/

/-- A region. -/
def Token.isRegion : Token → Bool
  | .region _ _ => true
  | _ => false

/-- A marker that opens a region no terminator closes. -/
def Token.opens : Token → Bool
  | .prose _ (some (.unclosedRegion, _)) => true
  | _ => false

/-- No marker opens a region that nothing closes. -/
def AllClosed (s : Str) : Prop := ∀ t ∈ tokens s, t.opens = false

/-- The regions among tokens and the markers that would open one, with their positions. -/
def marks : ℕ → List Token → List (ℕ × Token)
  | _, [] => []
  | pos, t :: ts =>
    if t.isRegion || t.opens then (pos, t) :: marks (pos + len t.source) ts
    else marks (pos + len t.source) ts

@[simp] lemma marks_nil (pos : ℕ) : marks pos [] = [] := rfl

@[simp] lemma marks_append (pos : ℕ) (ts us : List Token) :
    marks pos (ts ++ us) = marks pos ts ++ marks (pos + len (sources ts)) us := by
  induction ts generalizing pos with
  | nil => simp
  | cons t ts ih =>
    simp only [List.cons_append, marks, ih, sources_cons, len_append, ← Nat.add_assoc]
    split <;> rfl

@[simp] lemma marks_proseToken (pos : ℕ) (s : Str) : marks pos (proseToken s) = [] := by
  unfold proseToken
  split <;> simp [marks, Token.isRegion, Token.opens]

/-- A mark is a token. -/
lemma mem_of_mem_marks {pos : ℕ} {ts : List Token} {m : ℕ × Token} (h : m ∈ marks pos ts) :
    m.2 ∈ ts := by
  induction ts generalizing pos with
  | nil => simp at h
  | cons t ts ih =>
    rw [marks] at h
    split at h
    · rcases List.mem_cons.mp h with rfl | h
      · exact List.mem_cons_self
      · exact List.mem_cons_of_mem t (ih h)
    · exact List.mem_cons_of_mem t (ih h)

/-- A token that opens a region is a mark. -/
lemma exists_mem_marks {ts : List Token} {t : Token} (ht : t.opens = true) (hmem : t ∈ ts)
    (pos : ℕ) : ∃ p, (p, t) ∈ marks pos ts := by
  induction ts generalizing pos with
  | nil => simp at hmem
  | cons u ts ih =>
    rw [marks]
    rcases List.mem_cons.mp hmem with rfl | hmem
    · exact ⟨pos, by simp [ht]⟩
    · obtain ⟨p, hp⟩ := ih hmem (pos + len u.source)
      refine ⟨p, ?_⟩
      split
      · exact List.mem_cons_of_mem _ hp
      · exact hp

/-- Whether all regions close can be seen at the marks. -/
lemma allClosed_iff_marks {s : Str} (pos : ℕ) :
    AllClosed s ↔ ∀ m ∈ marks pos (tokens s), m.2.opens = false := by
  constructor
  · exact fun h m hm => h m.2 (mem_of_mem_marks hm)
  · intro h t ht
    by_contra hopen
    obtain ⟨p, hp⟩ := exists_mem_marks (by simpa using hopen) ht pos
    exact hopen (h _ hp)

/-- One turn of the scanner. -/
lemma marks_of_some {s before inner : Str} (h : splitOnce openMark s = some (before, inner))
    (pos : ℕ) :
    marks pos (tokens s) = marks (pos + len before) [(marker inner).1] ++
      marks (pos + len before + len (marker inner).1.source) (tokens (marker inner).2) := by
  rw [tokens_of_some h, marks_append, marks_proseToken, sources_proseToken, List.nil_append]
  simpa using marks_append (pos + len before) [(marker inner).1] (tokens (marker inner).2)

/-- Prose before any `{{` has no mark. -/
lemma marks_prose_append {a : Str} (h : FirstAt openMark a) (w : Str) (pos : ℕ) :
    marks pos (tokens (a ++ w)) = marks (pos + len a) (tokens w) := by
  have hskip := splitOnce_pair_append h w
  cases hcut : splitOnce openMark w with
  | none =>
    rw [tokens_of_none hcut, tokens_of_none (by rw [openMark] at *; rw [hskip, hcut]; rfl)]
    simp
  | some p =>
    rw [marks_of_some hcut, marks_of_some (by rw [openMark] at *; rw [hskip, hcut]; rfl)]
    simp [Nat.add_assoc]

/-- Where no marker closes there is no mark. -/
lemma marks_of_not_closeMark {s : Str} (h : ¬ closeMark <:+: s) (pos : ℕ) :
    marks pos (tokens s) = [] := by
  cases hcut : splitOnce openMark s with
  | none => rw [tokens_of_none hcut, marks_proseToken]
  | some p =>
    obtain ⟨before, inner⟩ := p
    have hs := splitOnce_append (by decide) hcut
    have hinner : splitOnce closeMark inner = none := by
      rw [splitOnce_eq_none_iff (by decide)]
      exact fun hclose => h (hs ▸ hclose.trans ⟨before ++ openMark, [], by simp⟩)
    rw [marks_of_some hcut, marker, hinner]
    simp [marks, Token.isRegion, Token.opens]

/-- A marker that opens a region is none. -/
lemma not_isRegion_of_opens {t : Token} (h : t.opens = true) : t.isRegion = false := by
  cases t <;> simp_all [Token.isRegion, Token.opens]

/-- Prose opens nothing. -/
lemma opens_of_mem_proseToken {s : Str} {t : Token} (h : t ∈ proseToken s) : t.opens = false := by
  unfold proseToken at h
  split at h
  · simp at h
  · obtain rfl := List.mem_singleton.mp h
    rfl

/-- Where there is no terminator there is no region. -/
lemma not_isRegion_of_not_regionEnd {s : Str} (h : ¬ regionEnd <:+: s) {t : Token}
    (ht : t ∈ tokens s) : t.isRegion = false := by
  cases t with
  | prose text w => rfl
  | embed cid => rfl
  | region spec body =>
    obtain ⟨T₁, T₂, hT⟩ := List.append_of_mem ht
    refine absurd ⟨sources T₁ ++ opening spec ++ body, sources T₂, ?_⟩ h
    rw [← tokens_source s, hT]
    simp [Token.source]

/-! ## One marker -/

/-- The marker that opens a region nothing closes. -/
lemma marker_of_opens {inner : Str} (h : (marker inner).1.opens = true) :
    ∃ spec, splitOnce closeMark inner = some (spec, (marker inner).2) ∧ OpensRegion spec ∧
      ¬ regionEnd <:+: (marker inner).2 := by
  unfold marker at h ⊢
  split at h
  · simp [Token.opens] at h
  · next spec rest hcut =>
    split at h
    · simp [Token.opens] at h
    · next hnl =>
      unfold closedMarker at h ⊢
      split at h
      · simp [Token.opens] at h
      · next hslash =>
        split at h
        · split at h <;> simp [Token.opens] at h
        · next hembed =>
          split at h
          · next hnone =>
            refine ⟨spec, ?_, ⟨hnl, hslash, hembed⟩, ?_⟩
            · simp only [hcut, if_neg hnl, if_neg hslash]
            · simp only [if_neg hnl, if_neg hslash]
              exact (splitOnce_eq_none_iff (by decide)).mp hnone
          · simp [Token.opens] at h

/-- A marker that closes reads the same in front of a line that it does not need. -/
lemma marker_append_line {inner w : Str} (hclose : (splitOnce closeMark inner).isSome = true)
    (h : (marker inner).1.opens = false ∨ ¬ regionEnd <:+: w) :
    marker (inner ++ '\n' :: w) = ((marker inner).1, (marker inner).2 ++ '\n' :: w) := by
  obtain ⟨⟨spec, rest⟩, hcut⟩ := Option.isSome_iff_exists.mp hclose
  have hnew := splitOnce_append_right (by decide) hcut ('\n' :: w)
  simp only [marker, hcut, hnew] at h ⊢
  split
  · rfl
  · next hnl =>
    rw [if_neg hnl] at h
    unfold closedMarker at h ⊢
    split
    · rfl
    · next hslash =>
      rw [if_neg hslash] at h
      split
      · split <;> rfl
      · next hembed =>
        simp only [hembed] at h
        cases hend : splitOnce regionEnd rest with
        | some r => rw [splitOnce_append_right (by decide) hend]
        | none =>
          have hw : ¬ regionEnd <:+: w := by simpa [hend, Token.opens] using h
          have hnone : splitOnce regionEnd (rest ++ '\n' :: w) = none := by
            rw [splitOnce_eq_none_iff (by decide)] at hend ⊢
            intro hinfix
            rcases infix_append_cons (by decide) (by decide) hinfix with hinfix | hinfix
            · exact hend hinfix
            · exact hw hinfix
          rw [hnone]

/-- A marker that never closes is read again, or closes nowhere. -/
lemma marker_append_line_of_none {inner : Str} (h : splitOnce closeMark inner = none) (w : Str) :
    ¬ closeMark <:+: w ∧ (∃ why, marker (inner ++ '\n' :: w) =
        (.prose (openMark ++ (inner ++ '\n' :: w)) (some (.unclosedMarker, why)), [])) ∨
      ∃ why, marker (inner ++ '\n' :: w) =
        (.prose openMark (some (.unclosedMarker, why)), inner ++ '\n' :: w) := by
  have hinner := (splitOnce_eq_none_iff (by decide)).mp h
  cases hnew : splitOnce closeMark (inner ++ '\n' :: w) with
  | none =>
    refine .inl ⟨?_, _, by simp only [marker, hnew]; rfl⟩
    have hno := (splitOnce_eq_none_iff (by decide)).mp hnew
    exact fun hw => hno (hw.trans ⟨inner ++ ['\n'], [], by simp⟩)
  | some p =>
    obtain ⟨spec, rest⟩ := p
    have hline : '\n' ∈ spec := by
      have hno : ¬ closeMark <:+: inner ++ ['\n'] := fun hclose => by
        rcases infix_append_cons (by decide) (by decide) hclose with hclose | hclose
        · exact hinner hclose
        · exact absurd (List.infix_nil.mp hclose) (by decide)
      exact newline_mem_of_splitOnce (p := inner ++ ['\n']) (q := w) (by simp) hno
        (by simpa using hnew)
    exact .inr ⟨_, by simp only [marker, hnew, if_pos hline]; rfl⟩

/-! ## A whole text -/

/-- A text without `{{` and the end of its line are prose. -/
lemma firstAt_line {s : Str} (h : splitOnce openMark s = none) :
    FirstAt openMark (s ++ ['\n']) := by
  refine firstAt_pair (fun hinfix => ?_) (by simp)
  rcases infix_append_cons (by decide) (by decide) hinfix with hinfix | hinfix
  · exact (splitOnce_eq_none_iff (by decide)).mp h hinfix
  · exact absurd (List.infix_nil.mp hinfix) (by decide)

/-- A marker is read from at least its braces. -/
lemma len_marker_pos (inner : Str) : 0 < len (marker inner).1.source := by
  have hle := length_openMark_le_marker inner
  have hlen := length_le_len (marker inner).1.source
  simp only [openMark, List.length_cons, List.length_nil] at hle
  omega

/-- A line break has no mark. -/
lemma firstAt_newline : FirstAt openMark ['\n'] :=
  firstAt_pair (fun h => absurd h (by decide)) (by simp)

/-- The length of a text is that of the prose, the marker and what the scan goes on with. -/
lemma len_of_some {s before inner : Str} (h : splitOnce openMark s = some (before, inner)) :
    len s = len before + len (marker inner).1.source + len (marker inner).2 := by
  rw [← splitOnce_append (by decide) h, List.append_assoc, ← marker_source]
  simp [Nat.add_assoc]

/-- Text on a new line leaves the marks before it, unless it closes a region that was open. -/
theorem marks_append_line {s w : Str} (h : AllClosed s ∨ ¬ regionEnd <:+: w) (pos : ℕ) :
    marks pos (tokens (s ++ '\n' :: w)) =
      marks pos (tokens s) ++ marks (pos + len s + 1) (tokens w) := by
  induction hn : s.length using Nat.strong_induction_on generalizing s pos with
  | _ n ih =>
    cases hcut : splitOnce openMark s with
    | none =>
      have hskip := marks_prose_append (firstAt_line hcut) w pos
      rw [tokens_of_none hcut, marks_proseToken, List.nil_append]
      simpa [Nat.add_assoc, show '\n'.utf8Size = 1 from rfl] using hskip
    | some p =>
      obtain ⟨before, inner⟩ := p
      have hs := splitOnce_append (by decide : openMark ≠ []) hcut
      have hlt := length_lt_of_splitOnce (by decide : openMark ≠ []) hcut
      have hle := marker_length_le inner
      have hlen := len_of_some hcut
      rw [marks_of_some hcut, marks_of_some (splitOnce_append_right (by decide) hcut _)]
      cases hclose : splitOnce closeMark inner with
      | some q =>
        have hfirst : (marker inner).1.opens = false ∨ ¬ regionEnd <:+: w :=
          h.imp_left fun hall => hall _ (by rw [tokens_of_some hcut]; simp)
        have hrest : AllClosed (marker inner).2 ∨ ¬ regionEnd <:+: w :=
          h.imp_left fun hall t ht => hall t (by rw [tokens_of_some hcut]; simp [ht])
        have hpos : pos + len before + len (marker inner).1.source + len (marker inner).2 + 1 =
            pos + len s + 1 := by omega
        rw [marker_append_line (by simp [hclose]) hfirst, ih _ (by omega) hrest _ rfl, hpos,
          List.append_assoc]
      | none =>
        have hinner := (splitOnce_eq_none_iff (by decide)).mp hclose
        have hold : marks (pos + len before) [(marker inner).1] ++
            marks (pos + len before + len (marker inner).1.source) (tokens (marker inner).2) =
              [] := by
          simp [marker, hclose, marks, Token.isRegion, Token.opens]
        rw [hold, List.nil_append]
        rcases marker_append_line_of_none hclose w with ⟨hw, why, hnew⟩ | ⟨why, hnew⟩
        · rw [hnew, marks_of_not_closeMark hw]
          simp [marks, Token.isRegion, Token.opens]
        · have hall : AllClosed inner := by
            rw [allClosed_iff_marks 0, marks_of_not_closeMark hinner]
            simp
          rw [hnew]
          have hlater := ih _ (by omega) (.inl hall) (pos + len before + 2) rfl
          rw [marks_of_not_closeMark hinner] at hlater
          have hpos : pos + len before + 2 + len inner + 1 = pos + len s + 1 := by
            rw [← hs]
            simp only [len_append, len_openMark]
            omega
          simp only [marks, Token.isRegion, Token.opens, Bool.or_self, Bool.false_eq_true,
            if_false, List.nil_append, Token.source, len_openMark, hlater, hpos]

/-- A page that ends with a line break has the marks of the page without it. -/
lemma marks_newline (s : Str) (pos : ℕ) :
    marks pos (tokens (s ++ ['\n'])) = marks pos (tokens s) := by
  have hline := marks_append_line (s := s) (w := []) (.inr (by decide)) pos
  simpa using hline

lemma allClosed_newline_iff (s : Str) : AllClosed (s ++ ['\n']) ↔ AllClosed s := by
  rw [allClosed_iff_marks 0, allClosed_iff_marks 0, marks_newline]

/-- Text on a new line that has a terminator is taken by a region that was open. -/
theorem marks_append_opened {s w : Str} (h : ¬ AllClosed s) (hw : regionEnd <:+: w) (pos : ℕ) :
    ∃ p spec body rest, p < pos + len s ∧ marks pos (tokens (s ++ '\n' :: w)) =
      (marks pos (tokens s)).filter (·.2.isRegion) ++ (p, .region spec body) :: rest := by
  induction hn : s.length using Nat.strong_induction_on generalizing s pos with
  | _ n ih =>
    cases hcut : splitOnce openMark s with
    | none =>
      refine absurd ?_ h
      rw [allClosed_iff_marks 0, tokens_of_none hcut, marks_proseToken]
      simp
    | some q =>
      obtain ⟨before, inner⟩ := q
      have hlt := length_lt_of_splitOnce (by decide : openMark ≠ []) hcut
      have hle := marker_length_le inner
      have hlen := len_of_some hcut
      have hmarker := len_marker_pos inner
      have hturn := marks_of_some (splitOnce_append_right (by decide) hcut ('\n' :: w)) pos
      cases hopens : (marker inner).1.opens with
      | true =>
        -- the open region finds the terminator, and before it nothing was a region
        obtain ⟨spec, hclose, hspec, hend⟩ := marker_of_opens hopens
        obtain ⟨hinner, hfirst⟩ := (splitOnce_eq_some_iff (by decide)).mp hclose
        obtain ⟨body, after, hbody⟩ := exists_splitOnce_of_infix (n := regionEnd)
          (s := (marker inner).2 ++ '\n' :: w) (by decide)
          (hw.trans ⟨(marker inner).2 ++ ['\n'], [], by simp⟩)
        have hnew : marker (inner ++ '\n' :: w) = (.region spec body, after) := by
          refine marker_eq_region_iff.mpr
            ⟨?_, hfirst, hspec, firstAt_of_splitOnce (by decide) hbody⟩
          have hback := splitOnce_append (by decide) hbody
          simp only [List.append_assoc] at hback ⊢
          rw [hback, ← List.append_assoc, ← List.append_assoc, ← hinner]
        have hnone : (marks pos (tokens s)).filter (·.2.isRegion) = [] := by
          rw [marks_of_some hcut, List.filter_eq_nil_iff]
          intro m hm
          rcases List.mem_append.mp hm with hm | hm
          · rw [List.mem_singleton.mp (mem_of_mem_marks hm), Bool.not_eq_true]
            exact not_isRegion_of_opens hopens
          · rw [not_isRegion_of_not_regionEnd hend (mem_of_mem_marks hm)]
            simp
        rw [hturn, hnew, hnone]
        refine ⟨pos + len before, spec, body, marks (pos + len before +
          len (Token.region spec body).source) (tokens after), by omega, ?_⟩
        simp [marks, Token.isRegion]
      | false =>
        have hrest : ¬ AllClosed (marker inner).2 := by
          intro hrest
          refine h fun t ht => ?_
          rw [tokens_of_some hcut, List.mem_append, List.mem_cons] at ht
          rcases ht with ht | rfl | ht
          · exact opens_of_mem_proseToken ht
          · exact hopens
          · exact hrest t ht
        have hclose : (splitOnce closeMark inner).isSome = true := by
          by_contra hclose
          refine hrest ?_
          rw [marker, Option.not_isSome_iff_eq_none.mp hclose]
          simp [AllClosed]
        obtain ⟨p, spec, body, rest, hp, hmarks⟩ :=
          ih _ (by omega) hrest (pos + len before + len (marker inner).1.source) rfl
        rw [hturn, marker_append_line hclose (.inl hopens), marks_of_some hcut, hmarks,
          List.filter_append]
        refine ⟨p, spec, body, rest, by omega, ?_⟩
        rw [List.append_assoc]
        congr 1
        simp only [marks, hopens, Bool.or_false]
        split <;> simp [*]

/-! ## What the parser says of an open region -/

/-- The warnings an attribute raises are not about the region. -/
def AttrState.Mild (st : AttrState) : Prop := ∀ w ∈ st.warnings, w.kind ≠ .unclosedRegion

lemma AttrState.Mild.warn {st : AttrState} (h : st.Mild) (offset : ℕ) {kind : ParseWarningKind}
    (hkind : kind ≠ .unclosedRegion) (detail : Str) : (st.warn offset kind detail).Mild := by
  intro w hw
  rcases List.mem_append.mp hw with hw | hw
  · exact h w hw
  · obtain rfl := List.mem_singleton.mp hw
    exact hkind

lemma parseSubject_mild (offset : ℕ) {st : AttrState} (h : st.Mild) (key val : Str) :
    (parseSubject offset st key val).Mild := by
  unfold parseSubject
  split
  · dsimp only
    split <;> exact h
  · exact h.warn _ (by decide) _

lemma parseAllowEntry_mild (offset : ℕ) {st : AttrState} (h : st.Mild) (raw : Str) :
    (parseAllowEntry offset st raw).Mild := by
  unfold parseAllowEntry
  split
  · exact h
  · exact h.warn _ (by decide) _

lemma foldl_mild {f : AttrState → Str → AttrState} (hf : ∀ st c, st.Mild → (f st c).Mild)
    (cs : List Str) {st : AttrState} (h : st.Mild) : (cs.foldl f st).Mild := by
  induction cs generalizing st with
  | nil => exact h
  | cons c cs ih => exact ih (hf st c h)

lemma parseAttr_mild (offset : ℕ) {st : AttrState} (h : st.Mild) (key val : Str) :
    (parseAttr offset st key val).Mild := by
  unfold parseAttr
  split_ifs
  · exact parseSubject_mild offset h key val
  · exact foldl_mild (fun st c hst => parseAllowEntry_mild offset hst c) _ h
  · split
    · exact h
    · exact h.warn _ (by decide) _
  · dsimp only
    split <;> exact h
  · split
    · exact h
    · exact h.warn _ (by decide) _
  · exact h.warn _ (by decide) _

lemma parseClause_mild (offset : ℕ) {st : AttrState} (h : st.Mild) (clause : Str) :
    (parseClause offset st clause).Mild := by
  unfold parseClause
  split
  · exact h.warn _ (by decide) _
  · split
    · exact h.warn _ (by decide) _
    · exact parseAttr_mild offset h _ _

/-- No attribute of a marker raises the warning of an open region. -/
lemma parseAttrs_mild (spec : Str) (offset : ℕ) :
    ∀ w ∈ (parseAttrs spec offset).2, w.kind ≠ .unclosedRegion :=
  foldl_mild (fun _ c hst => parseClause_mild offset hst c) (splitAsciiWhitespace spec)
    (by simp [AttrState.Mild])

/-- Nor does anything in a region's body. -/
lemma scanInner_mild (pos : ℕ) (rest : Str) (st : BodyScan)
    (h : ∀ w ∈ st.warnings, w.kind ≠ .unclosedRegion) :
    ∀ w ∈ (scanInner pos rest st).warnings, w.kind ≠ .unclosedRegion := by
  fun_induction scanInner pos rest st with
  | case1 => exact h
  | case2 pos rest st before tail hopen inner raw after hembed ih =>
    refine ih ?_
    split
    · exact h
    · intro w hw
      rcases List.mem_append.mp hw with hw | hw
      · exact h w hw
      · obtain rfl := List.mem_singleton.mp hw
        simp
  | case3 pos rest st before tail hopen inner hembed ih =>
    refine ih ?_
    split
    · exact h
    · intro w hw
      rcases List.mem_append.mp hw with hw | hw
      · exact h w hw
      · obtain rfl := List.mem_singleton.mp hw
        simp

/-- A token raises the warning of an open region when it opens one. -/
lemma exists_warning_iff_opens (t : Token) (pos : ℕ) :
    (∃ w ∈ t.warnings pos, w.kind = .unclosedRegion) ↔ t.opens = true := by
  cases t with
  | embed cid => simp [Token.warnings, Token.opens]
  | region spec body =>
    simp only [Token.warnings, Token.opens, Bool.false_eq_true, iff_false, not_exists, not_and]
    intro w hw
    rcases List.mem_append.mp hw with hw | hw
    · exact scanInner_mild _ _ _ (by simp) w hw
    · exact parseAttrs_mild spec pos w hw
  | prose text why =>
    cases why with
    | none => simp [Token.warnings, Token.opens]
    | some why =>
      obtain ⟨kind, detail⟩ := why
      cases kind <;> simp [Token.warnings, Token.opens]

/-- All regions of a text close exactly when the parser warns of none that does not. -/
theorem allClosed_iff_parse {s : Str} {out : ParseOutput} (h : parse s = some out) :
    AllClosed s ↔ ∀ w ∈ out.warnings, w.kind ≠ .unclosedRegion := by
  rw [parse_eq_some, Option.some.injEq] at h
  subst h
  have hall : ∀ (ts : List Token) pos, (∀ t ∈ ts, t.opens = false) ↔
      ∀ w ∈ layoutWarnings pos ts, w.kind ≠ .unclosedRegion := by
    intro ts
    induction ts with
    | nil => simp [layoutWarnings]
    | cons t ts ih =>
      intro pos
      have ht := exists_warning_iff_opens t pos
      simp only [List.forall_mem_cons, layoutWarnings, List.forall_mem_append,
        ← ih (pos + len t.source), ← Bool.not_eq_true, ← ht, not_exists, not_and]
  exact hall (tokens s) 0

end Mwe
