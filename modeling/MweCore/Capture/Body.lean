import MweCore.Parser.Edit

/-!
# The bodies a capture accepts

A fact's body may carry well-formed self-closing embeds and no other marker syntax:
`embedOnlyMarkers` parses the body and refuses everything else, `validateBody` is the gate in front
of every capture.  What the gate is for is `EmbedOnly.of_validateBody`: a body that passes it can
be wrapped in a region, because it contains no terminator and its scan as a region body raises no
warning.
-/

namespace Mwe

open Str Search

/-! ## The gate -/

/-- Go past one event of a text that may carry embeds alone. -/
def embedOnlyStep (embeds : List CatalogId) : ParseEvent → Option (List CatalogId)
  | .embed _ _ catalogId => some (embeds ++ [catalogId])
  | .region _ _ _ _ _ _ _ => none
  -- a stray `}}` parses silently as prose and is refused here
  | .prose _ _ text =>
    if contains openMark text || contains closeMark text then none else some embeds

/-- Check that a text carries no marker syntax but well-formed embeds, and return them. -/
def embedOnlyMarkers (text : Str) : Option (List CatalogId) := do
  let parsed ← parse text
  if !parsed.warnings.isEmpty then none else parsed.events.foldlM embedOnlyStep []

/-- Reason a body was refused. -/
inductive CaptureError where
  | emptyBody | bodyContainsMarker
  deriving DecidableEq, Repr

/-- Check the body of a capture request. -/
def validateBody (body : Str) : Except CaptureError Unit :=
  if (trim body).isEmpty then .error .emptyBody
  else if (contains openMark body || contains closeMark body) && (embedOnlyMarkers body).isNone then
    .error .bodyContainsMarker
  else .ok ()

/-! ## What it lets through -/

/-- A token an accepted body may have. -/
def Token.Plain : Token → Prop
  | .prose text w => w = none ∧ ¬ openMark <:+: text
  | .region _ _ => False
  | .embed _ => True

/-- A text of plain tokens. -/
def EmbedOnly (s : Str) : Prop := ∀ t ∈ tokens s, t.Plain

/-- A marker that is read as a plain token is an embed. -/
lemma marker_of_plain {inner : Str} (h : (marker inner).1.Plain) :
    ∃ cid rest, marker inner = (.embed cid, rest) ∧
      inner = "embed=".toList ++ cid.val ++ closeMark ++ rest ∧
      FirstAt closeMark ("embed=".toList ++ cid.val) ∧ '\n' ∉ "embed=".toList ++ cid.val := by
  unfold marker at h ⊢
  split at h
  · exact absurd h.1 (by simp)
  · next spec rest hclose =>
    obtain ⟨rfl, hfirst⟩ := (splitOnce_eq_some_iff (by decide)).mp hclose
    split at h
    · exact absurd h.1 (by simp)
    · next hnl =>
      unfold closedMarker at h ⊢
      split at h
      · exact absurd h.1 (by simp)
      · next hslash =>
        split at h
        · next raw hembed =>
          split at h
          · next cid hcid =>
            obtain rfl := CatalogId.val_of_parse hcid
            obtain rfl := stripPrefix_eq_some_iff.mp hembed
            refine ⟨cid, rest, ?_, rfl, hfirst, hnl⟩
            simp only [if_neg hnl, if_neg hslash]
          · exact absurd h.1 (by simp)
        · split at h
          · exact absurd h.1 (by simp)
          · exact h.elim

/-- At the first marker of a text of plain tokens stands an embed, and the text behind it is one
of plain tokens. -/
lemma EmbedOnly.marker {s before inner : Str} (h : EmbedOnly s)
    (hopen : splitOnce openMark s = some (before, inner)) :
    ∃ cid rest, inner = "embed=".toList ++ CatalogId.val cid ++ closeMark ++ rest ∧
      FirstAt closeMark ("embed=".toList ++ cid.val) ∧ '\n' ∉ "embed=".toList ++ cid.val ∧
      EmbedOnly rest ∧ rest.length < s.length := by
  unfold EmbedOnly at h
  rw [tokens_of_some hopen] at h
  obtain ⟨cid, rest, hmarker, hinner, hfirst, hnl⟩ :=
    marker_of_plain (h (Mwe.marker inner).1 (by simp))
  rw [hmarker] at h
  have hlt := length_lt_of_splitOnce (by decide) hopen
  refine ⟨cid, rest, hinner, hfirst, hnl, fun t ht => h t (by simp [ht]), ?_⟩
  rw [hinner] at hlt
  simp only [List.length_append] at hlt
  omega

/-- A text of plain tokens holds no region terminator. -/
lemma EmbedOnly.not_regionEnd {s : Str} (h : EmbedOnly s) : ¬ regionEnd <:+: s := by
  induction hn : s.length using Nat.strong_induction_on generalizing s with
  | _ n ih =>
    rintro ⟨u, v, huv⟩
    cases hopen : splitOnce openMark s with
    | none =>
      refine (splitOnce_eq_none_iff (by decide)).mp hopen ⟨u, "/\x7d\x7d".toList ++ v, ?_⟩
      rw [← huv]
      simp [openMark, regionEnd]
    | some p =>
      obtain ⟨before, inner⟩ := p
      obtain ⟨cid, rest, hinner, -, -, hrest, hlt⟩ := h.marker hopen
      obtain ⟨hs, hfirst⟩ := (splitOnce_eq_some_iff (by decide)).mp hopen
      have hbrace : '{' ∉ "embed=".toList ++ cid.val ++ closeMark := by
        have hcid : '{' ∉ cid.val := fun hmem =>
          absurd (isCatalogChar_of_isCatalogId cid.wellFormed '{' hmem) (by decide)
        simp [closeMark, hcid]
      -- the terminator begins at or after the first marker, whose text has no brace
      obtain ⟨w, hw⟩ : before <+: u := hfirst.prefix_of_eq (b := inner)
        (v := "/\x7d\x7d".toList ++ v) (by rw [← hs, ← huv]; simp [openMark, regionEnd])
      have hlater : openMark ++ inner = w ++ regionEnd ++ v := by
        have heq : before ++ (openMark ++ inner) = before ++ (w ++ regionEnd ++ v) := by
          rw [← List.append_assoc, ← hs, ← huv, ← hw]
          simp
        exact List.append_cancel_left heq
      have hin : regionEnd <:+: inner := by
        rw [hinner] at hlater ⊢
        rcases w with _ | ⟨a, _ | ⟨b, w⟩⟩
        · simp [openMark, regionEnd] at hlater
        · simp [openMark, regionEnd] at hlater
        · refine ⟨w, v, ?_⟩
          simpa [openMark, eq_comm] using (List.cons.inj (List.cons.inj hlater).2).2
      rw [hinner] at hin
      exact ih rest.length (by omega) hrest rfl ((infix_append_left_iff hbrace).mp hin)

/-- As the body of a region a text of plain tokens raises no warning. -/
lemma EmbedOnly.scanInner {s : Str} (h : EmbedOnly s) (pos : ℕ) (st : BodyScan) :
    (scanInner pos s st).warnings = st.warnings := by
  induction hn : s.length using Nat.strong_induction_on generalizing s pos st with
  | _ n ih =>
    rw [Mwe.scanInner]
    cases hopen : splitOnce openMark s with
    | none => rfl
    | some p =>
      obtain ⟨before, inner⟩ := p
      obtain ⟨cid, rest, hinner, hfirst, hnl, hrest, hlt⟩ := h.marker hopen
      have hembed : embedAt inner = some (cid.val, rest) := by
        have hstrip : stripPrefix "embed=".toList inner = some (cid.val ++ closeMark ++ rest) :=
          stripPrefix_eq_some_iff.mpr (by rw [hinner]; simp)
        have hcut : splitOnce closeMark (cid.val ++ closeMark ++ rest) = some (cid.val, rest) := by
          refine splitOnce_of_firstAt (by decide) (fun u v huv => ?_) rest
          exact hfirst ("embed=".toList ++ u) v (by simp only [List.append_assoc, huv])
        have hline : '\n' ∉ cid.val := fun hmem => hnl (List.mem_append_right _ hmem)
        simp only [embedAt, hstrip, hcut, if_neg hline]
      dsimp only
      split
      · next raw after heq =>
        obtain ⟨rfl, rfl⟩ : raw = cid.val ∧ after = rest := by simpa using heq.symm.trans hembed
        rw [ih after.length (by omega) hrest _ _ rfl, CatalogId.parse_val]
      · next hnone => exact absurd (hembed.symm.trans hnone) (by simp)

/-- Tokens that raise no warning and whose events `embedOnlyStep` goes through are plain. -/
lemma plain_of_foldlM {pos : ℕ} {ts : List Token} {embeds embeds' : List CatalogId}
    (hwarnings : layoutWarnings pos ts = [])
    (hfold : (layoutEvents pos ts).foldlM embedOnlyStep embeds = some embeds') :
    ∀ t ∈ ts, t.Plain := by
  induction ts generalizing pos embeds with
  | nil => simp
  | cons t ts ih =>
    obtain ⟨hw, hws⟩ : t.warnings pos = [] ∧ layoutWarnings (pos + len t.source) ts = [] := by
      simpa [layoutWarnings] using hwarnings
    rw [layoutEvents, List.foldlM_cons] at hfold
    obtain ⟨next, hstep, hrest⟩ := Option.bind_eq_some_iff.mp hfold
    have hlater := ih hws hrest
    intro t' ht'
    rcases List.mem_cons.mp ht' with rfl | ht'
    · cases t' with
      | prose text w =>
        refine ⟨?_, ?_⟩
        · cases w with
          | none => rfl
          | some p => simp [Token.warnings] at hw
        · intro hopen
          obtain ⟨a, b, hcut⟩ := exists_splitOnce_of_infix (by decide) hopen
          simp [Token.event, embedOnlyStep, contains, hcut] at hstep
      | region spec body => simp [Token.event, embedOnlyStep] at hstep
      | embed cid => trivial
    · exact hlater t' ht'

/-- A text that `embedOnlyMarkers` accepts is a text of plain tokens. -/
lemma EmbedOnly.of_embedOnlyMarkers {s : Str} (h : (embedOnlyMarkers s).isSome) : EmbedOnly s := by
  obtain ⟨embeds, h⟩ := Option.isSome_iff_exists.mp h
  unfold embedOnlyMarkers at h
  rw [parse_eq_some] at h
  simp only [Option.bind_eq_bind, Option.bind_some] at h
  split at h
  · exact absurd h (by simp)
  · next hwarnings => exact plain_of_foldlM (by simpa using hwarnings) h

/-- A body that passes the gate is a text of plain tokens. -/
theorem EmbedOnly.of_validateBody {s : Str} (h : validateBody s = .ok ()) : EmbedOnly s := by
  unfold validateBody at h
  split at h
  · exact absurd h (by simp)
  · split at h
    · exact absurd h (by simp)
    · next hgate =>
      by_cases hopen : contains openMark s
      · refine EmbedOnly.of_embedOnlyMarkers ?_
        simpa [hopen, Option.isSome_iff_ne_none] using hgate
      · have hnone : splitOnce openMark s = none := by simpa [contains] using hopen
        intro t ht
        rw [tokens_of_none hnone, proseToken] at ht
        split at ht
        · simp at ht
        · obtain rfl : t = .prose s none := by simpa using ht
          exact ⟨rfl, (splitOnce_eq_none_iff (by decide)).mp hnone⟩

end Mwe
