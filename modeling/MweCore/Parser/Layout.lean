import MweCore.Parser.Tokens

/-!
# The parser's output is the layout of the tokens

`layoutEvents` and `layoutWarnings` put the offsets back into a list of tokens by adding up the
lengths of their sources.  The scanner's two loops are followed one turn at a time: each turn of
`scanBody` is a turn of `scanInner`, and each turn of `parseLoop` reads one marker
(`parseLoop_turn`).  By induction on what is left of the text the whole run is the layout of its
tokens (`parse_eq_some`); in particular no slice the scanner takes is bad and it never runs out
of fuel.

The tiling theorem `parse_tiles` is read off the layout: the events cover the text in order,
without gap or overlap, and every offset is a character boundary.
-/

namespace Mwe

open Str Search

/-! ## Laying tokens out -/

/-- The events of tokens laid out from a position on. -/
def layoutEvents : ℕ → List Token → List ParseEvent
  | _, [] => []
  | pos, t :: ts => t.event pos :: layoutEvents (pos + len t.source) ts

/-- The warnings of tokens laid out from a position on. -/
def layoutWarnings : ℕ → List Token → List ParseWarning
  | _, [] => []
  | pos, t :: ts => t.warnings pos ++ layoutWarnings (pos + len t.source) ts

@[simp] lemma layoutEvents_append (pos : ℕ) (ts us : List Token) :
    layoutEvents pos (ts ++ us) = layoutEvents pos ts ++ layoutEvents (pos + len (sources ts)) us := by
  induction ts generalizing pos with
  | nil => simp [layoutEvents]
  | cons t ts ih => simp [layoutEvents, ih, Nat.add_assoc]

@[simp] lemma layoutWarnings_append (pos : ℕ) (ts us : List Token) :
    layoutWarnings pos (ts ++ us) =
      layoutWarnings pos ts ++ layoutWarnings (pos + len (sources ts)) us := by
  induction ts generalizing pos with
  | nil => simp [layoutWarnings]
  | cons t ts ih => simp [layoutWarnings, ih, Nat.add_assoc]

/-- An output with the events and warnings of tokens laid out from `pos` on behind it. -/
def ParseOutput.lay (out : ParseOutput) (pos : ℕ) (ts : List Token) : ParseOutput where
  events := out.events ++ layoutEvents pos ts
  warnings := out.warnings ++ layoutWarnings pos ts

@[simp] lemma ParseOutput.lay_nil (out : ParseOutput) (pos : ℕ) : out.lay pos [] = out := by
  simp [ParseOutput.lay, layoutEvents, layoutWarnings]

lemma ParseOutput.lay_append (out : ParseOutput) (pos : ℕ) (ts us : List Token) :
    out.lay pos (ts ++ us) = (out.lay pos ts).lay (pos + len (sources ts)) us := by
  simp [ParseOutput.lay]

/-! ## The helpers at a cut -/

/-- The needle is searched for in what follows the cut. -/
lemma findFrom_append (a b n : Str) :
    findFrom (a ++ b) n (len a) = some ((splitOnce n b).map fun p => len p.1 + len a) := by
  simp [findFrom, find, Function.comp_def]

/-- The prose between two cuts is pushed as the tokens of that prose. -/
lemma pushProse_append (out : ParseOutput) (a t b : Str) :
    pushProse out (a ++ t ++ b) (len a) (len a + len t) = some (out.lay (len a) (proseToken t)) := by
  unfold pushProse proseToken
  cases t with
  | nil => simp
  | cons c t =>
    have hpos : 0 < c.utf8Size := c.utf8Size_pos
    have hne : ¬ len a = len a + len (c :: t) := by simp; omega
    rw [if_neg hne, slice_append]
    simp [ParseOutput.push, ParseOutput.lay, layoutEvents, layoutWarnings, Token.event,
      Token.warnings]

/-- The prose of a malformed marker is pushed behind its warning. -/
lemma pushProse_warn (out : ParseOutput) (kind : ParseWarningKind) (detail a t b : Str)
    (ht : t ≠ []) :
    pushProse (out.warn ⟨len a, kind, detail⟩) (a ++ t ++ b) (len a) (len a + len t) =
      some (out.lay (len a) [.prose t (some (kind, detail))]) := by
  rw [pushProse_append, proseToken, if_neg (by simpa using ht)]
  simp [ParseOutput.warn, ParseOutput.lay, layoutEvents, layoutWarnings, Token.event,
    Token.warnings]

/-! ## The scan of a region body -/

/-- The prefix test and the stripping of a prefix agree. -/
lemma isPrefixOf_eq_isSome (p s : Str) : p.isPrefixOf s = (stripPrefix p s).isSome := by
  unfold stripPrefix
  cases hpre : List.isPrefixOf p s <;> simp

/-- What an inner `{{` is read as does not depend on where it stands. -/
lemma innerEmbed_append (a tail : Str) :
    innerEmbed (a ++ tail) (len a) = some ((embedAt tail).map fun p =>
      (len a + len "embed=".toList + len p.1, p.1)) := by
  unfold innerEmbed embedAt
  rw [sliceFrom_append]
  simp only [isPrefixOf_eq_isSome, Option.bind_eq_bind, Option.bind_some]
  cases hpre : stripPrefix "embed=".toList tail with
  | none => rfl
  | some rest =>
    obtain rfl := stripPrefix_eq_some_iff.mp hpre
    have hskip := splitOnce_append_left (n := ['}']) (by decide : '}' ∉ "embed=".toList) rest
    rw [findFrom_append]
    simp only [closeMark, hskip, Option.isSome_some, Bool.not_true, Bool.false_eq_true, if_false,
      Option.map_map, Option.bind_some]
    cases hcut : splitOnce ['}', '}'] rest with
    | none => rfl
    | some p =>
      obtain ⟨raw, after⟩ := p
      have hrest : raw ++ ['}', '}'] ++ after = rest := splitOnce_append (by decide) hcut
      have hwhole : slice (a ++ ("embed=".toList ++ rest)) (len a)
          (len ("embed=".toList ++ raw) + len a) = some ("embed=".toList ++ raw) :=
        slice_eq (b := ['}', '}'] ++ after) (by simp [← hrest]) rfl (Nat.add_comm _ _)
      have hraw : slice (a ++ ("embed=".toList ++ rest)) (len a + len "embed=".toList)
          (len ("embed=".toList ++ raw) + len a) = some raw :=
        slice_eq (a := a ++ "embed=".toList) (b := ['}', '}'] ++ after) (by simp [← hrest])
          (by simp) (by simp; omega)
      simp only [Option.map_some, Function.comp_apply, hwhole, hraw, Option.bind_some]
      have hmem : '\n' ∈ "embed=".toList ++ raw ↔ '\n' ∈ raw := by simp
      by_cases hnl : '\n' ∈ raw
      · rw [if_pos (hmem.mpr hnl), if_pos hnl]
        rfl
      · rw [if_neg fun h => hnl (hmem.mp h), if_neg hnl]
        simp
        omega

/-- The embed that is found is a piece of the text it was searched in. -/
lemma embedAt_append {tail raw after : Str} (h : embedAt tail = some (raw, after)) :
    tail = "embed=".toList ++ raw ++ closeMark ++ after := by
  unfold embedAt at h
  split at h
  · exact absurd h (by simp)
  · next rest hrest =>
    split at h
    · exact absurd h (by simp)
    · next raw' after' hcut =>
      split at h
      · exact absurd h (by simp)
      · obtain ⟨rfl, rfl⟩ : raw' = raw ∧ after' = after := by simpa using h
        rw [stripPrefix_eq_some_iff.mp hrest, ← splitOnce_append (by decide) hcut]
        simp

@[simp] lemma len_openMark : len openMark = 2 := by decide

@[simp] lemma len_closeMark : len closeMark = 2 := by decide

@[simp] lemma len_regionEnd : len regionEnd = 5 := by decide

/-- The scan of a region body from a cut on is `scanInner`, given a turn for each character. -/
lemma scanBody_append (pre rest : Str) (st : BodyScan) (fuel : ℕ) (hfuel : rest.length < fuel) :
    scanBody (pre ++ rest) fuel (len pre) st = some (scanInner (len pre) rest st) := by
  induction hn : rest.length using Nat.strong_induction_on generalizing pre rest st fuel with
  | _ n ih =>
    obtain ⟨fuel, rfl⟩ : ∃ k, fuel = k + 1 := ⟨fuel - 1, by omega⟩
    rw [scanBody, scanInner, findFrom_append]
    cases hopen : splitOnce openMark rest with
    | none => rfl
    | some p =>
      obtain ⟨before, tail⟩ := p
      have hrest := splitOnce_append (by decide : openMark ≠ []) hopen
      have hlt := length_lt_of_splitOnce (by decide : openMark ≠ []) hopen
      have hcut : pre ++ rest = (pre ++ before ++ openMark) ++ tail := by simp [← hrest]
      have hpos : len before + len pre + 2 = len (pre ++ before ++ openMark) := by
        simp only [len_append, len_openMark]
        omega
      have hinner : innerEmbed (pre ++ rest) (len before + len pre + 2) =
          some ((embedAt tail).map fun q =>
            (len before + len pre + 2 + len "embed=".toList + len q.1, q.1)) := by
        rw [hcut, hpos, innerEmbed_append]
      have hback : len pre + len before = len before + len pre := Nat.add_comm _ _
      simp only [Option.map_some, Option.bind_eq_bind, Option.bind_some, hinner, hback]
      -- the induction hypothesis at a later cut of the same text
      have hlater : ∀ (a b : Str) (at' : ℕ) (st' : BodyScan), pre ++ rest = a ++ b →
          at' = len a → b.length < rest.length →
          scanBody (pre ++ rest) fuel at' st' = some (scanInner at' b st') := by
        rintro a b _ st' hab rfl hb
        rw [hab]
        exact ih b.length (by omega) a b st' fuel (by omega) rfl
      cases hembed : embedAt tail with
      | none =>
        simp only [Option.map_none]
        rw [← hlater _ tail _ _ hcut hpos hlt]
        split <;> rfl
      | some q =>
        obtain ⟨raw, after⟩ := q
        have htail := embedAt_append hembed
        have hshort := length_lt_of_embedAt hembed
        simp only [Option.map_some]
        rw [← hlater (pre ++ before ++ openMark ++ "embed=".toList ++ raw ++ closeMark) after _ _
          (by rw [hcut, htail]; simp) (by simp only [len_append, ← hpos, len_closeMark]; omega)
          (by omega)]
        cases CatalogId.parse raw <;> simp only [Nat.add_assoc]

/-! ## The scanner loop -/

/-- The prose up to the next marker is pushed as its tokens. -/
lemma pushBefore_append (out : ParseOutput) (a t b : Str) :
    pushBefore out (a ++ t ++ b) (len a) (len t + len a) =
      some (out.lay (len a) (proseToken t)) := by
  rw [pushBefore, Nat.add_comm (len t), pushProse_append]
  split
  · rfl
  · next h =>
    have hlen := length_le_len t
    have ht : t = [] := List.length_eq_zero_iff.mp (by omega)
    simp [ht, proseToken]

/-- The prose of a malformed marker, up to the offset where it ends. -/
lemma pushProse_malformed {text a t b : Str} {stop : ℕ} (htext : text = a ++ t ++ b)
    (hstop : stop = len (a ++ t)) (ht : t ≠ []) (out : ParseOutput) (kind : ParseWarningKind)
    (detail : Str) :
    pushProse (out.warn ⟨len a, kind, detail⟩) text (len a) stop =
      some (out.lay (len a) [.prose t (some (kind, detail))]) := by
  rw [htext, hstop, len_append, pushProse_warn _ _ _ _ _ _ ht]

lemma opening_ne_nil (spec : Str) : opening spec ≠ [] := by simp [opening, openMark]

/-- At a marker the scanner reads the marker's token. -/
lemma parseMarker_append (pre inner : Str) (out : ParseOutput) :
    parseMarker (pre ++ openMark ++ inner) (len pre) out =
      some (len (pre ++ (marker inner).1.source), out.lay (len pre) [(marker inner).1]) := by
  have hafter : len pre + 2 = len (pre ++ openMark) := by simp
  unfold parseMarker marker
  simp only [hafter, findFrom_append]
  cases hattr : splitOnce closeMark inner with
  | none =>
    have hpush := pushProse_malformed (List.append_nil (pre ++ (openMark ++ inner))).symm rfl
      (by simp [openMark]) out (a := pre)
    simp only [Option.map_none, Option.bind_eq_bind, Option.bind_some, Option.pure_def,
      List.append_assoc, hpush, Token.source]
  | some q =>
    obtain ⟨spec, tail⟩ := q
    have hinner := splitOnce_append (by decide : closeMark ≠ []) hattr
    have htext : pre ++ openMark ++ inner = pre ++ opening spec ++ tail := by
      simp [← hinner, opening]
    have hspec : slice (pre ++ openMark ++ inner) (len (pre ++ openMark))
        (len spec + len (pre ++ openMark)) = some spec :=
      slice_eq (b := closeMark ++ tail) (by simp [← hinner]) rfl (Nat.add_comm _ _)
    have hend : len spec + len (pre ++ openMark) + 2 = len (pre ++ opening spec) := by
      simp only [opening, len_append, len_closeMark]
      omega
    have hbraces := pushProse_malformed (b := inner) rfl rfl (by simp [openMark] : openMark ≠ [])
      out (a := pre)
    have hmark := pushProse_malformed htext rfl (opening_ne_nil spec) out
    simp only [Option.map_some, Option.bind_eq_bind, Option.bind_some, hspec, hend, hbraces, hmark,
      Option.pure_def]
    by_cases hnl : '\n' ∈ spec
    · simp only [if_pos hnl, Token.source]
    · simp only [if_neg hnl, closedMarker]
      by_cases hslash : spec = ['/']
      · simp only [if_pos hslash, Token.source]
      · simp only [if_neg hslash]
        cases hstrip : stripPrefix "embed=".toList spec with
        | some raw =>
          have hraw : spec = "embed=".toList ++ raw := stripPrefix_eq_some_iff.mp hstrip
          cases hcid : CatalogId.parse raw with
          | error raw' => simp only [hcid, Token.source]
          | ok cid =>
            have hval : "embed=".toList ++ cid.val = spec := by rw [CatalogId.val_of_parse hcid, hraw]
            simp only [hcid, Token.source, hval, ParseOutput.push, ParseOutput.lay, layoutEvents,
              layoutWarnings, Token.event, Token.warnings, len_append, List.append_nil]
        | none =>
          have hfind : findFrom (pre ++ openMark ++ inner) regionEnd (len (pre ++ opening spec)) =
              some ((splitOnce regionEnd tail).map fun p =>
                len p.1 + len (pre ++ opening spec)) := by
            rw [htext, findFrom_append]
          simp only [hfind]
          cases hterm : splitOnce regionEnd tail with
          | none => simp only [Option.map_none, Option.bind_some, Token.source]
          | some r =>
            obtain ⟨body, after⟩ := r
            have htail := splitOnce_append (by decide : regionEnd ≠ []) hterm
            have hwhole : pre ++ openMark ++ inner =
                [] ++ (pre ++ opening spec ++ body) ++ (regionEnd ++ after) := by
              rw [htext, ← htail]
              simp
            have hterm : len body + len (pre ++ opening spec) = len (pre ++ opening spec ++ body) := by
              rw [len_append _ body, Nat.add_comm]
            have hupTo : slice (pre ++ openMark ++ inner) 0 (len (pre ++ opening spec ++ body)) =
                some (pre ++ opening spec ++ body) := slice_eq hwhole rfl (by simp)
            have hbody : slice (pre ++ openMark ++ inner) (len (pre ++ opening spec))
                (len (pre ++ opening spec ++ body)) = some body :=
              slice_eq hwhole rfl (len_append _ _)
            have hscan := scanBody_append (pre ++ opening spec) body {}
              (len (pre ++ openMark ++ inner) + 1) (by
                have hlen := length_le_len body
                rw [hwhole]
                simp only [len_append]
                omega)
            simp only [Option.map_some, hterm, hupTo, hbody, hscan, Option.bind_some]
            simp only [Token.source, ParseOutput.lay, layoutEvents, layoutWarnings, Token.event,
              Token.warnings, len_append, len_regionEnd, List.append_nil, List.append_assoc,
              Nat.add_assoc]

/-- The scanner loop from a cut on lays the tokens of the rest out, given a turn for each
character. -/
lemma parseLoop_append (pre rest : Str) (out : ParseOutput) (fuel : ℕ)
    (hfuel : rest.length < fuel) :
    parseLoop (pre ++ rest) fuel (len pre) out = some (out.lay (len pre) (tokens rest)) := by
  induction hn : rest.length using Nat.strong_induction_on generalizing pre rest out fuel with
  | _ n ih =>
    obtain ⟨fuel, rfl⟩ : ∃ k, fuel = k + 1 := ⟨fuel - 1, by omega⟩
    rw [parseLoop]
    cases hopen : splitOnce openMark rest with
    | none =>
      rw [tokens_of_none hopen]
      split
      · next hle =>
        have hlen := length_le_len rest
        have hrest : rest = [] := List.length_eq_zero_iff.mp (by rw [len_append] at hle; omega)
        simp [hrest, proseToken]
      · simp only [findFrom_append, hopen, Option.map_none, Option.bind_eq_bind, Option.bind_some]
        have hpush := pushProse_append out pre rest []
        simpa using hpush
    | some p =>
      obtain ⟨before, inner⟩ := p
      have hrest := splitOnce_append (by decide : openMark ≠ []) hopen
      have hlt := length_lt_of_splitOnce (by decide : openMark ≠ []) hopen
      have hle := marker_length_le inner
      have hmore : ¬ len (pre ++ rest) ≤ len pre := by
        rw [← hrest]
        simp only [len_append, len_openMark]
        omega
      have hbefore := pushBefore_append out pre before (openMark ++ inner)
      have hmarker := parseMarker_append (pre ++ before) inner (out.lay (len pre) (proseToken before))
      have hnext : pre ++ rest =
          pre ++ before ++ (marker inner).1.source ++ (marker inner).2 := by
        rw [← hrest, List.append_assoc _ (marker inner).1.source, marker_source]
        simp
      have hcut : pre ++ before ++ openMark ++ inner = pre ++ rest := by simp [← hrest]
      have hcut' : pre ++ before ++ (openMark ++ inner) = pre ++ rest := by simp [← hrest]
      rw [hcut] at hmarker
      rw [hcut'] at hbefore
      rw [if_neg hmore, tokens_of_some hopen]
      simp only [findFrom_append, hopen, Option.map_some, Option.bind_eq_bind, Option.bind_some,
        hbefore]
      rw [show len before + len pre = len (pre ++ before) by rw [len_append, Nat.add_comm], hmarker,
        Option.bind_some, hnext, ih _ (by omega) _ _ _ _ (by omega) rfl, ParseOutput.lay_append,
        sources_proseToken]
      have hlay := ParseOutput.lay_append (out.lay (len pre) (proseToken before))
        (len pre + len before) [(marker inner).1] (tokens (marker inner).2)
      simpa [Nat.add_assoc] using hlay.symm

/-- `parse` returns on every text, and what it returns is the layout of the text's tokens. -/
theorem parse_eq_some (text : Str) :
    parse text = some ⟨layoutEvents 0 (tokens text), layoutWarnings 0 (tokens text)⟩ := by
  have hlen := length_le_len text
  have h := parseLoop_append [] text {} (len text + 1) (by omega)
  simpa [parse, ParseOutput.lay] using h

/-! ## The tiling -/

/-- The span of an event. -/
def ParseEvent.span : ParseEvent → ℕ × ℕ
  | .prose start stop _ => (start, stop)
  | .region start stop _ _ _ _ _ => (start, stop)
  | .embed start stop _ => (start, stop)

/-- The texts an event carries are the slices it names, and a region's body lies in its span. -/
def ParseEvent.Faithful (text : Str) : ParseEvent → Prop
  | .prose start stop t => slice text start stop = some t
  | .region start stop _ bodyStart bodyEnd body _ =>
    start ≤ bodyStart ∧ bodyStart ≤ bodyEnd ∧ bodyEnd ≤ stop ∧
      IsCharBoundary text bodyStart ∧ IsCharBoundary text bodyEnd ∧
      slice text bodyStart bodyEnd = some body
  | .embed _ _ _ => True

/-- A token laid out at a position spans its source. -/
@[simp] lemma Token.span_event (t : Token) (pos : ℕ) :
    (t.event pos).span = (pos, pos + len t.source) := by
  cases t <;> simp [Token.event, Token.source, ParseEvent.span, Nat.add_assoc]

/-- A token laid out where its source stands is faithful. -/
lemma Token.faithful_event (t : Token) (a b : Str) :
    (t.event (len a)).Faithful (a ++ t.source ++ b) := by
  cases t with
  | prose text w => exact slice_append a text b
  | embed cid => trivial
  | region spec body =>
    have htext : a ++ (Token.region spec body).source ++ b =
        (a ++ opening spec) ++ body ++ (regionEnd ++ b) := by simp [Token.source]
    have hstart : len a + len (opening spec) = len (a ++ opening spec) := by simp
    rw [htext]
    refine ⟨by omega, by omega, by omega, ⟨a ++ opening spec, _, List.append_assoc _ _ _, by simp⟩,
      ⟨a ++ opening spec ++ body, _, rfl, by simp [Nat.add_assoc]⟩, ?_⟩
    rw [hstart]
    exact slice_append _ body _

/-- Tokens laid out tile the piece of text they were read from. -/
lemma layoutEvents_tiles (pos : ℕ) (ts : List Token) :
    Tiles pos (pos + len (sources ts)) ((layoutEvents pos ts).map ParseEvent.span) := by
  induction ts generalizing pos with
  | nil => simp [layoutEvents, Tiles]
  | cons t ts ih =>
    have hrest := ih (pos + len t.source)
    refine ⟨by simp, by simp, ?_⟩
    simpa [Nat.add_assoc] using hrest

/-- Tokens laid out where their sources stand end at character boundaries and are faithful. -/
lemma layoutEvents_faithful (a b : Str) (ts : List Token) :
    ∀ ev ∈ layoutEvents (len a) ts, IsCharBoundary (a ++ sources ts ++ b) ev.span.1 ∧
      IsCharBoundary (a ++ sources ts ++ b) ev.span.2 ∧ ev.Faithful (a ++ sources ts ++ b) := by
  induction ts generalizing a with
  | nil => simp [layoutEvents]
  | cons t ts ih =>
    intro ev hev
    have htext : a ++ sources (t :: ts) ++ b = a ++ t.source ++ (sources ts ++ b) := by simp
    rcases List.mem_cons.mp hev with rfl | hev
    · rw [htext, Token.span_event]
      refine ⟨⟨a, _, List.append_assoc _ _ _, rfl⟩, ⟨a ++ t.source, _, rfl, by simp⟩, ?_⟩
      exact t.faithful_event a _
    · have hrest := ih (a ++ t.source) ev (by simpa using hev)
      simpa using hrest

/-- `parse` returns on every text.  The events tile the text in order, their ends are character
boundaries, the texts they carry are the slices they name, and the slices of all events put the
text back together. -/
theorem parse_tiles (text : Str) :
    ∃ out, parse text = some out ∧
      Tiles 0 (len text) (out.events.map ParseEvent.span) ∧
      (∀ ev ∈ out.events, IsCharBoundary text ev.span.1 ∧ IsCharBoundary text ev.span.2 ∧
        ev.Faithful text) ∧
      (out.events.mapM fun ev => slice text ev.span.1 ev.span.2).map List.flatten = some text := by
  have hsource := tokens_source text
  have htiles : Tiles 0 (len text) ((layoutEvents 0 (tokens text)).map ParseEvent.span) := by
    simpa [hsource] using layoutEvents_tiles 0 (tokens text)
  have hfaithful : ∀ ev ∈ layoutEvents 0 (tokens text), IsCharBoundary text ev.span.1 ∧
      IsCharBoundary text ev.span.2 ∧ ev.Faithful text := by
    simpa [hsource] using layoutEvents_faithful [] [] (tokens text)
  refine ⟨_, parse_eq_some text, htiles, hfaithful, ?_⟩
  obtain ⟨pieces, hpieces, hflat⟩ := htiles.slices (s := text) ⟨[], text, rfl, rfl⟩ (by
    intro p hp
    obtain ⟨ev, hev, rfl⟩ := List.mem_map.mp hp
    exact (hfaithful ev hev).2.1)
  have hwhole : slice text 0 (len text) = some text :=
    slice_eq (a := []) (b := []) (by simp) rfl (by simp)
  rw [List.mapM_map] at hpieces
  rw [hwhole] at hflat
  simp only [Function.comp_def] at hpieces
  rw [hpieces, Option.map_some, ← hflat]

end Mwe
