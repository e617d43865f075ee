import MweCore.Parser.Parse

/-!
# The parser without offsets

The scanner of `Parse.lean` keeps a cursor into the whole text.  What it reads at each turn is
only what follows the cursor, so it can be described without offsets: `tokens` cuts a text into
tokens, each of which knows the characters it was read from (`Token.source`), and `layout` puts
the offsets back by adding up their lengths.

`parse_eq_some` is the connection: `parse` never fails, and returns the laid-out tokens.  Two
properties of the parser become facts about lists this way.  The sources of the tokens put the
text back together (`tokens_source`), and the tokens of a text do not depend on where it stands.
-/

namespace Mwe

open Str Search

/-! ## Tokens -/

/-- What the scanner reads at one turn, without its position. -/
inductive Token where
  /-- Prose, with the warning raised when it is a malformed marker kept as prose. -/
  | prose (text : Str) (warning : Option (ParseWarningKind × Str))
  /-- A region: what stands between the braces of its opening marker, and its body. -/
  | region (spec body : Str)
  /-- A self-closing embed. -/
  | embed (catalogId : CatalogId)
  deriving DecidableEq

/-- The opening marker of a region. -/
def opening (spec : Str) : Str := openMark ++ spec ++ closeMark

/-- The characters a token was read from. -/
def Token.source : Token → Str
  | .prose text _ => text
  | .region spec body => opening spec ++ body ++ regionEnd
  | .embed cid => opening ("embed=".toList ++ cid.val)

/-- The embed that `tail` starts with, if any: its catalogue id and what follows its `}}`. -/
def embedAt (tail : Str) : Option (Str × Str) :=
  match stripPrefix "embed=".toList tail with
  | none => none
  | some rest =>
    match splitOnce closeMark rest with
    | none => none
    | some (raw, after) => if '\n' ∈ raw then none else some (raw, after)

/-- What follows an embed is shorter than the text it was found in. -/
lemma length_lt_of_embedAt {tail raw after : Str} (h : embedAt tail = some (raw, after)) :
    after.length < tail.length := by
  unfold embedAt at h
  split at h
  · exact absurd h (by simp)
  · next rest hrest =>
    have htail : tail = "embed=".toList ++ rest := stripPrefix_eq_some_iff.mp hrest
    split at h
    · exact absurd h (by simp)
    · next raw' after' hcut =>
      have hlt := length_lt_of_splitOnce (by decide : closeMark ≠ []) hcut
      split at h
      · exact absurd h (by simp)
      · obtain ⟨rfl, rfl⟩ : raw' = raw ∧ after' = after := by simpa using h
        rw [htail, List.length_append]
        omega

/-- The scan of a region body from a place `pos` on, where `rest` is what is left of it. -/
def scanInner (pos : ℕ) (rest : Str) (st : BodyScan) : BodyScan :=
  match _hopen : splitOnce openMark rest with
  | none => st
  | some (before, tail) =>
    let inner := pos + len before
    match _hembed : embedAt tail with
    | some (raw, after) =>
      scanInner (inner + 2 + (len "embed=".toList + len raw + 2)) after
        (match CatalogId.parse raw with
          | .ok cid => { st with embeds := st.embeds ++ [cid] }
          | .error raw => { st with
              warnings := st.warnings ++
                [⟨inner, .invalidCatalogId, "invalid catalog_id ".toList ++ debug raw⟩] })
    | none =>
      scanInner (inner + 2) tail
        (if st.nestedWarned then st
        else { st with
          nestedWarned := true
          warnings := st.warnings ++
            [⟨inner, .nestedRegion,
              "nested markers are not supported; outer region kept verbatim".toList⟩] })
  termination_by rest.length
  decreasing_by
  · have htail := length_lt_of_splitOnce (by decide : openMark ≠ []) _hopen
    have hafter := length_lt_of_embedAt _hembed
    omega
  · exact length_lt_of_splitOnce (by decide : openMark ≠ []) _hopen

/-- The event a token becomes at a position. -/
def Token.event (pos : ℕ) : Token → ParseEvent
  | .prose text _ => .prose pos (pos + len text) text
  | .region spec body =>
    .region pos (pos + len (opening spec) + len body + 5) (parseAttrs spec pos).1
      (pos + len (opening spec)) (pos + len (opening spec) + len body) body
      (scanInner (pos + len (opening spec)) body {}).embeds
  | .embed cid => .embed pos (pos + len (opening ("embed=".toList ++ cid.val))) cid

/-- The warnings a token raises at a position. -/
def Token.warnings (pos : ℕ) : Token → List ParseWarning
  | .prose _ none => []
  | .prose _ (some (kind, detail)) => [⟨pos, kind, detail⟩]
  | .region spec body =>
    (scanInner (pos + len (opening spec)) body {}).warnings ++ (parseAttrs spec pos).2
  | .embed _ => []

/-! ## The scanner -/

/-- The prose token of a run, none when the run is empty. -/
def proseToken (text : Str) : List Token :=
  if text.isEmpty then [] else [.prose text none]

/-- The token of a marker that closes on its line, `spec` between its braces and `rest` behind
them, and the text the scan goes on with. -/
def closedMarker (spec rest : Str) : Token × Str :=
  if spec = ['/'] then
    (.prose (opening spec) (some (.strayCloseMarker,
      "stray `\x7b\x7b/\x7d\x7d` without a matching open marker".toList)), rest)
  else
    match stripPrefix "embed=".toList spec with
    | some raw =>
      match CatalogId.parse raw with
      | .ok cid => (.embed cid, rest)
      | .error raw =>
        (.prose (opening spec) (some (.invalidCatalogId,
          "invalid catalog_id ".toList ++ debug raw)), rest)
    | none =>
      match splitOnce regionEnd rest with
      | none =>
        (.prose (opening spec) (some (.unclosedRegion,
          "missing `\x7b\x7b/\x7d\x7d` terminator for the open region".toList)), rest)
      | some (body, after) => (.region spec body, after)

/-- The token an opening `{{` starts, and the text the scan goes on with; `inner` is what
follows the braces. -/
def marker (inner : Str) : Token × Str :=
  match splitOnce closeMark inner with
  | none =>
    (.prose (openMark ++ inner)
      (some (.unclosedMarker, "missing `\x7d\x7d` for opening `\x7b\x7b`".toList)), [])
  | some (spec, rest) =>
    if '\n' ∈ spec then
      (.prose openMark (some (.unclosedMarker,
        "marker open spans a newline (markers are single-line)".toList)), inner)
    else closedMarker spec rest

/-- The token of a closed marker is read from the text the scan moves past. -/
lemma closedMarker_source (spec rest : Str) :
    (closedMarker spec rest).1.source ++ (closedMarker spec rest).2 = opening spec ++ rest := by
  unfold closedMarker
  split
  · rfl
  · split
    · next raw hraw =>
      split
      · next cid hcid =>
        rw [Token.source, CatalogId.val_of_parse hcid, ← stripPrefix_eq_some_iff.mp hraw]
      · rfl
    · split
      · rfl
      · next body after hterm =>
        rw [← splitOnce_append (by decide) hterm]
        simp [Token.source]

/-- The token a marker starts is read from the text the scan moves past. -/
lemma marker_source (inner : Str) :
    (marker inner).1.source ++ (marker inner).2 = openMark ++ inner := by
  unfold marker
  split
  · simp [Token.source]
  · next spec rest hclose =>
    split
    · rfl
    · rw [closedMarker_source, ← splitOnce_append (by decide) hclose]
      simp [opening]

/-- Every marker takes at least its two braces. -/
lemma length_openMark_le_marker (inner : Str) :
    openMark.length ≤ (marker inner).1.source.length := by
  unfold marker closedMarker
  repeat' split
  all_goals simp [Token.source, opening, openMark]

/-- A marker leaves no more text to scan than it was given. -/
lemma marker_length_le (inner : Str) : (marker inner).2.length ≤ inner.length := by
  have hsource := congrArg List.length (marker_source inner)
  have hpos := length_openMark_le_marker inner
  simp only [List.length_append] at hsource
  omega

/-- The tokens of a text. -/
def tokens (s : Str) : List Token :=
  match _hopen : splitOnce openMark s with
  | none => proseToken s
  | some (before, inner) => proseToken before ++ (marker inner).1 :: tokens (marker inner).2
  termination_by s.length
  decreasing_by
    have hlt := length_lt_of_splitOnce (by decide : openMark ≠ []) _hopen
    have hle := marker_length_le inner
    omega

/-- A text without an opening `{{` is one run of prose. -/
lemma tokens_of_none {s : Str} (h : splitOnce openMark s = none) : tokens s = proseToken s := by
  rw [tokens]
  split
  · rfl
  · next hsome => exact absurd (h.symm.trans hsome) (by simp)

/-- One turn of the scanner. -/
lemma tokens_of_some {s before inner : Str} (h : splitOnce openMark s = some (before, inner)) :
    tokens s = proseToken before ++ (marker inner).1 :: tokens (marker inner).2 := by
  rw [tokens]
  split
  · next hnone => exact absurd (h.symm.trans hnone) (by simp)
  · next hsome =>
    obtain ⟨rfl, rfl⟩ : before = _ ∧ inner = _ := by simpa using h.symm.trans hsome
    rfl

/-- The characters a list of tokens was read from. -/
def sources (ts : List Token) : Str := ts.flatMap Token.source

@[simp] lemma sources_nil : sources [] = [] := rfl

@[simp] lemma sources_cons (t : Token) (ts : List Token) :
    sources (t :: ts) = t.source ++ sources ts := rfl

@[simp] lemma sources_append (ts us : List Token) :
    sources (ts ++ us) = sources ts ++ sources us := by
  simp [sources]

@[simp] lemma sources_proseToken (s : Str) : sources (proseToken s) = s := by
  unfold proseToken
  split
  · next h => simp [List.isEmpty_iff.mp h]
  · simp [Token.source]

/-- The tokens of a text put it back together. -/
theorem tokens_source (s : Str) : sources (tokens s) = s := by
  induction s using tokens.induct with
  | case1 s hnone => rw [tokens_of_none hnone, sources_proseToken]
  | case2 s before inner hsome ih =>
    rw [tokens_of_some hsome, sources_append, sources_proseToken, sources_cons, ih, marker_source,
      ← List.append_assoc]
    exact splitOnce_append (by decide) hsome

end Mwe
