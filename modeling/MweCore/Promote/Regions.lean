import MweCore.Lib.Table
import MweCore.Parser.Found

/-!
# Moving regions to another page

The regions of a page that are moved are copied to the end of the target, each on a line of its
own, and cut out of the source at the offsets the parser gave.

`move_conserves_iff` says that nothing is lost: the target keeps its regions and has each moved one
where its offsets say, and the source keeps everything else.  It is so exactly when every region
that the target opens is closed.  `target_opens_a_region` is a target where it is not.
-/

namespace Mwe

open Str Search

namespace Promote

/-! ## The regions to move -/

/-- A region of the source as the parser found it. -/
structure ParsedRegion where
  start : ℕ
  stop : ℕ
  bytes : Str

/-- A region that moves: its fact, where it stood and the bytes it had. -/
structure MovedRegion where
  factId : FactId
  oldStart : ℕ
  oldEnd : ℕ
  bytes : Str
  deriving DecidableEq

/-- Why a move is refused. -/
inductive ApplyError where
  | invalidPayload (detail : Str)
  | handlerData (detail : Str)
  deriving DecidableEq

/-- The fact ids that a payload names, each once. -/
def parseFactIdsAfter (seen : List Str) : List Str → Except ApplyError (List FactId)
  | [] => .ok []
  | s :: ss =>
    if s ∈ seen then .error (.invalidPayload ("context.fact_ids duplicate: ".toList ++ s))
    else
      match FactId.parse s with
      | .error e => .error (.invalidPayload
          ("fact_id ".toList ++ s ++ " invalid: ".toList ++ e.display))
      | .ok fid => (parseFactIdsAfter (s :: seen) ss).map (fid :: ·)

/-- The fact ids of a payload, which has at least one. -/
def parseFactIds (ss : List Str) : Except ApplyError (List FactId) :=
  if ss.isEmpty then .error (.invalidPayload "context.fact_ids must not be empty".toList)
  else parseFactIdsAfter [] ss

/-- The regions of a page by the fact they hold. -/
abbrev RegionMap := Sql.Table (Prod.fst : FactId × ParsedRegion → FactId)

/-- Add one event; of two regions with the same fact the later one stays. -/
def addRegion (source : Str) (byFact : RegionMap) : ParseEvent → Option RegionMap
  | .region start stop attrs _ _ _ _ =>
    match attrs.factId with
    | none => some byFact
    | some fid => (slice source start stop).map fun bytes =>
        byFact.replace (fid, ⟨start, stop, bytes⟩)
  | _ => some byFact

/-- The regions of a page by the fact they hold. -/
def regionsByFact (source : Str) (events : List ParseEvent) : Option RegionMap :=
  events.foldlM (addRegion source) (Sql.Table.empty _)

/-- Take the regions of the given facts, each once. -/
def takeRegions (sourceRel : Str) : List FactId → RegionMap → Except ApplyError (List MovedRegion)
  | [], _ => .ok []
  | fid :: fids, byFact =>
    match byFact.get? fid with
    | none => .error (.handlerData ("fact ".toList ++ fid.val ++
        " not present as a marker in ".toList ++ sourceRel))
    | some region => (takeRegions sourceRel fids (byFact.delete fun r => r.1 = fid)).map
        (⟨fid, region.2.start, region.2.stop, region.2.bytes⟩ :: ·)

/-- The regions that a payload moves out of a page. -/
def regionsToMove (sourceRel source : Str) (factIds : List Str) :
    Option (Except ApplyError (List MovedRegion)) := do
  let parsed ← parse source
  let byFact ← regionsByFact source parsed.events
  pure ((parseFactIds factIds).bind fun fids => takeRegions sourceRel fids byFact)

/-! ## The two pages afterwards -/

/-- Where the moved regions stand in the target. -/
abbrev Offsets := Sql.Table (Prod.fst : FactId × (ℕ × ℕ) → FactId)

/-- Append one region and a line break. -/
def appendRegion (st : Str × Offsets) (m : MovedRegion) : Str × Offsets :=
  (st.1 ++ m.bytes ++ ['\n'], st.2.replace (m.factId, (len st.1, len (st.1 ++ m.bytes))))

/-- The text that the moved regions are appended to. -/
def targetLines (existing : Str) : Str :=
  if existing.isEmpty || existing.getLast? == some '\n' then existing else existing ++ ['\n']

/-- Append every moved region to the target, and say where each one stands. -/
def composeTarget (existing : Str) (moved : List MovedRegion) : Str × Offsets :=
  moved.foldl appendRegion (targetLines existing, Sql.Table.empty _)

/-- Cut every moved region out of the source. -/
def composeSourceMinusMoved (source : Str) (moved : List MovedRegion) : Option Str :=
  cutSpans source 0
    ((moved.map fun m => (m.oldStart, m.oldEnd)).insertionSort fun a b => a.1 ≤ b.1)

/-! ## What is conserved -/

/-- What an event says, wherever it stands. -/
inductive Content where
  | letter (c : Char)
  | region (attrs : RegionAttrs) (body : Str)
  | embed (catalogId : CatalogId)

/-- The content of an event. -/
def content : ParseEvent → List Content
  | .prose _ _ text => text.map .letter
  | .region _ _ attrs _ _ body _ => [.region attrs body]
  | .embed _ _ cid => [.embed cid]

/-- A nonempty set of regions of a page, no two of the same fact. -/
structure Selection (source : Str) where
  moved : List MovedRegion
  nonempty : moved ≠ []
  distinct : (moved.map MovedRegion.factId).Nodup
  found : ∀ m ∈ moved, ∃ out f, parse source = some out ∧ f ∈ foundRegions out.events ∧
    f.start = m.oldStart ∧ f.stop = m.oldEnd ∧ f.attrs.factId = some m.factId ∧
      slice source m.oldStart m.oldEnd = some m.bytes

/-- A moved region is found at its offsets with the attributes and the body it had. -/
def Arrives (old : List FoundRegion) (offsets : Offsets) (m : MovedRegion) (g : FoundRegion) :
    Prop :=
  offsets.get? m.factId = some (m.factId, (g.start, g.stop)) ∧
    ∃ f ∈ old, f.start = m.oldStart ∧ f.stop = m.oldEnd ∧ g.attrs = f.attrs ∧ g.body = f.body

/-- The target has its old regions and then the moved ones, where the offsets say. -/
def TargetGains (source existing : Str) (moved : List MovedRegion) : Prop :=
  ∃ sourceOut oldOut newOut gained, parse source = some sourceOut ∧ parse existing = some oldOut ∧
    parse (composeTarget existing moved).1 = some newOut ∧
      foundRegions newOut.events = foundRegions oldOut.events ++ gained ∧
        List.Forall₂ (Arrives (foundRegions sourceOut.events) (composeTarget existing moved).2)
          moved gained

/-- The spans of the moved regions. -/
def movedSpans (moved : List MovedRegion) : List (ℕ × ℕ) :=
  moved.map fun m => (m.oldStart, m.oldEnd)

/-- Whether a region is one of those that move. -/
def isMoved (moved : List MovedRegion) (f : FoundRegion) : Bool := f.span ∈ movedSpans moved

/-- The source has what it had but for the moved regions. -/
def SourceKeeps (source : Str) (moved : List MovedRegion) : Prop :=
  ∃ sourceOut left newOut, parse source = some sourceOut ∧
    composeSourceMinusMoved source moved = some left ∧ parse left = some newOut ∧
      newOut.events.flatMap content =
        (sourceOut.events.filter fun ev => !isCut (isMoved moved) ev).flatMap content

/-- The move conserves what stands on both pages. -/
structure Conserves (source existing : Str) (moved : List MovedRegion) : Prop where
  target : TargetGains source existing moved
  source : SourceKeeps source moved

/-- The parser warns of no region of the page that is not closed. -/
def RegionsClose (existing : Str) : Prop :=
  ∀ out, parse existing = some out → ∀ w ∈ out.warnings, w.kind ≠ .unclosedRegion

/-- A moved region has the bytes of a region of the source. -/
lemma Selection.exists_written {source : Str} (sel : Selection source) {m : MovedRegion}
    (hm : m ∈ sel.moved) :
    ∃ spec body, Written spec body ∧ m.bytes = (Token.region spec body).source ∧
      ∃ out f, parse source = some out ∧ f ∈ foundRegions out.events ∧ f.start = m.oldStart ∧
        f.stop = m.oldEnd ∧ f.attrs = (parseAttrs spec 0).1 ∧ f.body = body := by
  obtain ⟨out, f, hparse, hf, hstart, hstop, -, hbytes⟩ := sel.found m hm
  have hout := hparse
  rw [parse_eq_some, Option.some.injEq] at hout
  subst hout
  obtain ⟨T₁, spec, body, T₂, htokens, rfl⟩ := exists_tokens_of_found hf
  refine ⟨spec, body, .of_tokens htokens, ?_, _, _, hparse, hf, hstart, hstop,
    parseAttrs_fst_eq spec _ _, rfl⟩
  have hslice : slice source m.oldStart m.oldEnd = some (Token.region spec body).source :=
    slice_eq (a := sources T₁) (b := sources T₂) (by rw [← tokens_source source, htokens]; simp)
      (by rw [← hstart]; simp) (by rw [← hstop]; simp)
  exact Option.some.inj (hbytes.symm.trans hslice)

/-! ## The target -/

/-- The lines of the moved regions. -/
def movedLines (moved : List MovedRegion) : Str := moved.flatMap fun m => m.bytes ++ ['\n']

lemma foldl_appendRegion_fst (moved : List MovedRegion) (st : Str × Offsets) :
    (moved.foldl appendRegion st).1 = st.1 ++ movedLines moved := by
  induction moved generalizing st with
  | nil => simp [movedLines]
  | cons m moved ih => simp [ih, movedLines, appendRegion]

/-- Regions of other facts leave the offsets of a fact. -/
lemma get?_foldl_appendRegion {moved : List MovedRegion} {fid : FactId}
    (h : fid ∉ moved.map MovedRegion.factId) {st : Str × Offsets} {o : FactId × (ℕ × ℕ)}
    (ho : st.2.get? fid = some o) : (moved.foldl appendRegion st).2.get? fid = some o := by
  induction moved generalizing st with
  | nil => exact ho
  | cons m moved ih =>
    rw [List.map_cons, List.mem_cons, not_or] at h
    refine ih h.2 ?_
    rw [Sql.Table.get?_eq_some_iff] at ho ⊢
    exact ⟨Sql.Table.mem_replace_iff.mpr (.inr ⟨ho.1, fun heq => h.1 (ho.2.symm.trans heq)⟩), ho.2⟩

/-- The offsets of a region that is appended. -/
lemma get?_appendRegion (st : Str × Offsets) (m : MovedRegion) :
    (appendRegion st m).2.get? m.factId =
      some (m.factId, (len st.1, len (st.1 ++ m.bytes))) := by
  rw [Sql.Table.get?_eq_some_iff]
  exact ⟨Sql.Table.mem_replace_iff.mpr (.inl rfl), rfl⟩

/-- The offsets of the first moved region are where the target ended. -/
lemma get?_composeTarget_head (existing : Str) {m : MovedRegion} {moved : List MovedRegion}
    (h : ((m :: moved).map MovedRegion.factId).Nodup) :
    (composeTarget existing (m :: moved)).2.get? m.factId = some (m.factId,
      (len (targetLines existing), len (targetLines existing ++ m.bytes))) :=
  get?_foldl_appendRegion (List.nodup_cons.mp h).1 (get?_appendRegion _ m)

/-- The moved regions are found on their lines, where the offsets say. -/
lemma arrives_movedLines {old : List FoundRegion} {moved : List MovedRegion}
    (hdistinct : (moved.map MovedRegion.factId).Nodup)
    (hmoved : ∀ m ∈ moved, ∃ spec body, Written spec body ∧
      m.bytes = (Token.region spec body).source ∧ ∃ f ∈ old, f.start = m.oldStart ∧
        f.stop = m.oldEnd ∧ f.attrs = (parseAttrs spec 0).1 ∧ f.body = body)
    (st : Str × Offsets) :
    List.Forall₂ (Arrives old (moved.foldl appendRegion st).2) moved
      ((marks (len st.1) (tokens (movedLines moved))).filterMap
        fun m => foundRegion (m.2.event m.1)) := by
  induction moved generalizing st with
  | nil => simp [movedLines]
  | cons m moved ih =>
    obtain ⟨hfresh, hdistinct⟩ := List.nodup_cons.mp hdistinct
    obtain ⟨spec, body, hwritten, hbytes, f, hf, hstart, hstop, hattrs, hbody⟩ :=
      hmoved m List.mem_cons_self
    have hlater := ih hdistinct (fun x hx => hmoved x (List.mem_cons_of_mem m hx))
      (appendRegion st m)
    have htext : movedLines (m :: moved) =
        (Token.region spec body).source ++ (['\n'] ++ movedLines moved) := by
      simp [movedLines, hbytes]
    have hpos : len st.1 + len (Token.region spec body).source + len ['\n'] =
        len (appendRegion st m).1 := by simp [appendRegion, hbytes, Nat.add_assoc]
    rw [htext, hwritten.marks_append, marks_prose_append firstAt_newline, hpos]
    refine .cons ⟨?_, f, hf, hstart, hstop, ?_, hbody.symm⟩ hlater
    · rw [List.foldl_cons, get?_foldl_appendRegion hfresh (get?_appendRegion st m)]
      simp [hbytes, Token.source, Nat.add_assoc]
    · rw [hattrs]
      exact parseAttrs_fst_eq spec _ _

/-- The target is empty, or ends with a line break behind a text with its marks. -/
lemma targetLines_cases (existing : Str) :
    existing = [] ∨ ∃ s, targetLines existing = s ++ ['\n'] ∧
      marks 0 (tokens s) = marks 0 (tokens existing) ∧ (AllClosed s ↔ AllClosed existing) := by
  rcases List.eq_nil_or_concat' existing with rfl | ⟨s, c, rfl⟩
  · exact .inl rfl
  · right
    by_cases hc : c = '\n'
    · subst hc
      exact ⟨s, by simp [targetLines], (marks_newline s 0).symm, (allClosed_newline_iff s).symm⟩
    · exact ⟨s ++ [c], by simp [targetLines, hc], by simp, by simp⟩

/-- Lines behind a target whose regions close are read as they would be alone. -/
lemma marks_targetLines {existing : Str} (h : AllClosed existing) (w : Str) :
    marks 0 (tokens (targetLines existing ++ w)) =
      marks 0 (tokens existing) ++ marks (len (targetLines existing)) (tokens w) := by
  rcases targetLines_cases existing with rfl | ⟨s, hs, hmarks, hclosed⟩
  · simp [targetLines]
  · have hline := marks_append_line (w := w) (.inl (hclosed.mpr h)) 0
    rw [hs, ← hmarks]
    simpa [show '\n'.utf8Size = 1 from rfl] using hline

/-- Behind a target with an open region one starts before the lines. -/
lemma marks_targetLines_opened {existing w : Str} (h : ¬ AllClosed existing)
    (hw : regionEnd <:+: w) :
    ∃ p spec body rest, p < len (targetLines existing) ∧
      marks 0 (tokens (targetLines existing ++ w)) =
        (marks 0 (tokens existing)).filter (·.2.isRegion) ++ (p, .region spec body) :: rest := by
  rcases targetLines_cases existing with rfl | ⟨s, hs, hmarks, hclosed⟩
  · exact absurd (by simp [AllClosed]) h
  · obtain ⟨p, spec, body, rest, hp, hopened⟩ :=
      marks_append_opened (fun hall => h (hclosed.mp hall)) hw 0
    refine ⟨p, spec, body, rest, ?_, ?_⟩
    · rw [hs, len_append]
      omega
    · rw [hs, ← hmarks, ← hopened]
      simp

/-- The lines of the moved regions have a terminator. -/
lemma Selection.regionEnd_infix {source : Str} (sel : Selection source) :
    regionEnd <:+: movedLines sel.moved := by
  obtain ⟨m, moved, hmoved⟩ := List.exists_cons_of_ne_nil sel.nonempty
  obtain ⟨spec, body, -, hbytes, -⟩ := sel.exists_written (m := m) (by rw [hmoved]; simp)
  refine ⟨opening spec ++ body, '\n' :: movedLines moved, ?_⟩
  rw [hmoved]
  simp [movedLines, hbytes, Token.source]

/-- The target gains the moved regions exactly when its own all close. -/
theorem targetGains_iff {source : Str} (existing : Str) (sel : Selection source) :
    TargetGains source existing sel.moved ↔ AllClosed existing := by
  have htext : (composeTarget existing sel.moved).1 =
      targetLines existing ++ movedLines sel.moved := foldl_appendRegion_fst _ _
  constructor
  · rintro ⟨sourceOut, oldOut, newOut, gained, -, hold, hnew, hfound, harrives⟩
    by_contra hopen
    rw [htext, parse_eq_some, Option.some.injEq] at hnew
    rw [parse_eq_some, Option.some.injEq] at hold
    subst hold hnew
    obtain ⟨p, spec, body, rest, hp, hmarks⟩ := marks_targetLines_opened hopen sel.regionEnd_infix
    rw [foundRegions_layout, foundRegions_layout, hmarks, List.filterMap_append,
      filterMap_found_filter] at hfound
    -- the first region that is gained starts in the old target
    have hgained := List.append_cancel_left hfound
    obtain ⟨m, moved, hmoved⟩ := List.exists_cons_of_ne_nil sel.nonempty
    have hdistinct := sel.distinct
    rw [hmoved] at harrives hdistinct
    rw [← hgained] at harrives
    obtain ⟨⟨hoffset, -⟩, -⟩ := List.forall₂_cons.mp harrives
    rw [get?_composeTarget_head existing hdistinct] at hoffset
    simp only [Option.some.injEq, Prod.mk.injEq, true_and] at hoffset
    omega
  · intro hclosed
    refine ⟨_, _, _, _, parse_eq_some source, parse_eq_some existing, parse_eq_some _, ?_,
      arrives_movedLines sel.distinct (fun m hm => ?_) _⟩
    · rw [htext, foundRegions_layout, foundRegions_layout, marks_targetLines hclosed,
        List.filterMap_append]
    · obtain ⟨spec, body, hwritten, hbytes, out, f, hparse, hf⟩ := sel.exists_written hm
      rw [parse_eq_some, Option.some.injEq] at hparse
      exact ⟨spec, body, hwritten, hbytes, f, by rw [hparse]; exact hf⟩

/-! ## The source -/

/-- What a fragment says. -/
def told : Fragment → List Content
  | .letter c => [.letter c]
  | .region spec body => [.region (parseAttrs spec 0).1 body]
  | .embed cid => [.embed cid]
  | .opened text => text.map .letter

/-- An event says what the fragments of its token say. -/
lemma content_event (t : Token) (pos : ℕ) :
    content (t.event pos) = t.fragments.flatMap told := by
  unfold Token.fragments
  split
  · simp [Token.event, content, told]
  · simp [Token.event, content, told, List.flatMap_map, ← List.map_eq_flatMap]
  · next spec body =>
    simp [Token.event, content, told, parseAttrs_fst_eq spec pos 0]
  · rfl

/-- The events of tokens say what their fragments say. -/
lemma flatMap_content (pos : ℕ) (ts : List Token) :
    (layoutEvents pos ts).flatMap content = (ts.flatMap Token.fragments).flatMap told := by
  induction ts generalizing pos with
  | nil => rfl
  | cons t ts ih => simp [layoutEvents, content_event, ih]

/-- The events that are left are those of the tokens that are left. -/
lemma flatMap_content_left (picks : FoundRegion → Bool) (pos : ℕ) (ts : List Token) :
    ((layoutEvents pos ts).filter fun ev => !isCut picks ev).flatMap content =
      ((leftTokens picks pos ts).flatMap Token.fragments).flatMap told := by
  induction ts generalizing pos with
  | nil => rfl
  | cons t ts ih =>
    rw [layoutEvents, List.filter_cons, leftTokens]
    cases hcut : isCut picks (t.event pos) <;> simp [content_event, ih]

/-- In order, the spans of the moved regions are those the parser finds. -/
lemma sorted_movedSpans {source : Str} (sel : Selection source) :
    (movedSpans sel.moved).insertionSort (fun a b => a.1 ≤ b.1) =
      ((foundRegions (layoutEvents 0 (tokens source))).filter (isMoved sel.moved)).map
        FoundRegion.span := by
  have hstarts := pairwise_foundRegions 0 (tokens source)
  have hunique : ((foundRegions (layoutEvents 0 (tokens source))).map FoundRegion.start).Nodup := by
    rw [List.nodup_iff_pairwise_ne, List.pairwise_map]
    exact hstarts.imp fun hlt => hlt.ne
  have hspans : ((foundRegions (layoutEvents 0 (tokens source))).map FoundRegion.span).Pairwise
      fun a b => a.1 < b.1 := List.pairwise_map.mpr hstarts
  have hfound : ∀ m ∈ sel.moved, ∃ f ∈ foundRegions (layoutEvents 0 (tokens source)),
      f.span = (m.oldStart, m.oldEnd) ∧ f.attrs.factId = some m.factId := by
    intro m hm
    obtain ⟨out, f, hparse, hf, hstart, hstop, hid, -⟩ := sel.found m hm
    rw [parse_eq_some, Option.some.injEq] at hparse
    subst hparse
    exact ⟨f, hf, Prod.ext hstart hstop, hid⟩
  have hinj : ∀ m ∈ sel.moved, ∀ m' ∈ sel.moved,
      (m.oldStart, m.oldEnd) = (m'.oldStart, m'.oldEnd) → m = m' := by
    intro m hm m' hm' heq
    obtain ⟨f, hf, hspan, hid⟩ := hfound m hm
    obtain ⟨f', hf', hspan', hid'⟩ := hfound m' hm'
    obtain rfl : f = f' := List.inj_on_of_nodup_map hunique hf hf'
      (congrArg Prod.fst (hspan.trans (heq.trans hspan'.symm)))
    exact List.inj_on_of_nodup_map sel.distinct hm hm' (Option.some.inj (hid.symm.trans hid'))
  have hnodup : (movedSpans sel.moved).Nodup :=
    (sel.distinct.of_map _).map_on hinj
  have hsorted : ((movedSpans sel.moved).insertionSort fun a b => a.1 ≤ b.1).Pairwise
      fun a b => a.1 ≤ b.1 := List.pairwise_insertionSort _ _
  have hpicked : ((foundRegions (layoutEvents 0 (tokens source))).filter (isMoved sel.moved)).map
      FoundRegion.span = ((foundRegions (layoutEvents 0 (tokens source))).map
        FoundRegion.span).filter (· ∈ movedSpans sel.moved) := by
    rw [List.filter_map]
    rfl
  rw [hpicked]
  refine List.Perm.eq_of_pairwise ?_ hsorted ((hspans.imp Nat.le_of_lt).filter _) ?_
  · intro a b ha hb hab hba
    have ha' := (List.perm_insertionSort _ _).mem_iff.mp ha
    obtain ⟨m, hm, rfl⟩ := List.mem_map.mp ha'
    have hb' : b ∈ movedSpans sel.moved := by simpa using (List.mem_filter.mp hb).2
    obtain ⟨m', hm', rfl⟩ := List.mem_map.mp hb'
    obtain ⟨f, hf, hspan, -⟩ := hfound m hm
    obtain ⟨f', hf', hspan', -⟩ := hfound m' hm'
    obtain rfl : f = f' := List.inj_on_of_nodup_map hunique hf hf'
      (by rw [show f.start = _ from congrArg Prod.fst hspan, le_antisymm hab hba,
        show f'.start = _ from congrArg Prod.fst hspan'])
    exact hspan.symm.trans hspan'
  · refine (List.perm_insertionSort _ _).trans ((List.perm_ext_iff_of_nodup hnodup ?_).mpr ?_)
    · exact (hspans.imp fun hlt heq => absurd (congrArg Prod.fst heq) hlt.ne).filter _
    · intro p
      simp only [List.mem_filter, decide_eq_true_eq, iff_and_self]
      intro hp
      obtain ⟨m, hm, rfl⟩ := List.mem_map.mp hp
      obtain ⟨f, hf, hspan, -⟩ := hfound m hm
      exact List.mem_map.mpr ⟨f, hf, hspan⟩

/-- The source keeps everything but the moved regions. -/
theorem sourceKeeps {source : Str} (sel : Selection source) : SourceKeeps source sel.moved := by
  have hwhole : source = [] ++ [] ++ sources (tokens source) := by simp [tokens_source]
  have hcut := @cutSpans_left (isMoved sel.moved) _ _ _ _ hwhole
  have hread := fragments_thinned (@thinned_leftTokens (isMoved sel.moved) 0 (tokens source))
  refine ⟨_, sources (leftTokens (isMoved sel.moved) 0 (tokens source)), _, parse_eq_some source,
    ?_, parse_eq_some _, ?_⟩
  · have hsorted := sorted_movedSpans sel
    unfold movedSpans at hsorted
    rw [composeSourceMinusMoved, hsorted]
    exact hcut
  · rw [flatMap_content, flatMap_content_left, ← hread, fragments]

/-! ## The move -/

/-- A move conserves what stands on both pages exactly when the regions of the target close. -/
theorem move_conserves_iff (source existing : Str) (sel : Selection source) :
    Conserves source existing sel.moved ↔ RegionsClose existing := by
  have hclosed : RegionsClose existing ↔ AllClosed existing := by
    rw [allClosed_iff_parse (parse_eq_some existing), RegionsClose, parse_eq_some]
    simp
  rw [hclosed, ← targetGains_iff existing sel]
  exact ⟨Conserves.target, fun htarget => ⟨htarget, sourceKeeps sel⟩⟩

/-! ## What a payload moves -/

/-- The regions by fact are regions of the events. -/
lemma mem_regionsByFact {source : Str} {events : List ParseEvent} {byFact : RegionMap}
    (h : regionsByFact source events = some byFact) :
    ∀ r ∈ byFact, ∃ f ∈ foundRegions events, f.start = r.2.start ∧ f.stop = r.2.stop ∧
      f.attrs.factId = some r.1 ∧ slice source r.2.start r.2.stop = some r.2.bytes := by
  have hstep : ∀ (evs : List ParseEvent) (start : RegionMap), evs.foldlM (addRegion source) start =
      some byFact → ∀ r ∈ byFact, r ∈ start ∨ ∃ f ∈ foundRegions evs, f.start = r.2.start ∧
        f.stop = r.2.stop ∧ f.attrs.factId = some r.1 ∧
          slice source r.2.start r.2.stop = some r.2.bytes := by
    intro evs
    induction evs with
    | nil =>
      intro start hrun r hr
      obtain rfl : start = byFact := by simpa using hrun
      exact .inl hr
    | cons ev evs ih =>
      intro start hrun r hr
      rw [List.foldlM_cons, Option.bind_eq_bind, Option.bind_eq_some_iff] at hrun
      obtain ⟨next, hnext, hrun⟩ := hrun
      rcases ih next hrun r hr with hmem | ⟨f, hf, hrest⟩
      · cases ev with
        | prose start' stop text =>
          obtain rfl : start = next := by simpa [addRegion] using hnext
          exact .inl hmem
        | embed start' stop cid =>
          obtain rfl : start = next := by simpa [addRegion] using hnext
          exact .inl hmem
        | region start' stop attrs bodyStart bodyEnd body embeds =>
          cases hid : attrs.factId with
          | none =>
            obtain rfl : start = next := by simpa [addRegion, hid] using hnext
            exact .inl hmem
          | some fid =>
            simp only [addRegion, hid, Option.map_eq_some_iff] at hnext
            obtain ⟨bytes, hbytes, rfl⟩ := hnext
            rcases Sql.Table.mem_replace_iff.mp hmem with rfl | ⟨hmem, -⟩
            · exact .inr ⟨⟨start', stop, attrs, body⟩, by simp [foundRegions, foundRegion], rfl,
                rfl, hid, hbytes⟩
            · exact .inl hmem
      · refine .inr ⟨f, ?_, hrest⟩
        obtain ⟨ev', hev', hf⟩ := List.mem_filterMap.mp hf
        exact List.mem_filterMap.mpr ⟨ev', List.mem_cons_of_mem ev hev', hf⟩
  intro r hr
  rcases hstep events _ h r hr with hmem | hfound
  · exact absurd hmem (Sql.Table.not_mem_empty r)
  · exact hfound

/-- The regions that are taken are in the map, each of another fact, one for each fact. -/
lemma takeRegions_ok {sourceRel : Str} {fids : List FactId} {byFact : RegionMap}
    {moved : List MovedRegion} (h : takeRegions sourceRel fids byFact = .ok moved) :
    moved.length = fids.length ∧ (moved.map MovedRegion.factId).Nodup ∧
      ∀ m ∈ moved, (m.factId, ⟨m.oldStart, m.oldEnd, m.bytes⟩) ∈ byFact := by
  induction fids generalizing byFact moved with
  | nil =>
    obtain rfl : [] = moved := by simpa [takeRegions] using h
    simp
  | cons fid fids ih =>
    rw [takeRegions] at h
    split at h
    · simp at h
    · next region hget =>
      obtain ⟨hregion, hkey⟩ := Sql.Table.get?_eq_some_iff.mp hget
      cases hrest : takeRegions sourceRel fids (byFact.delete fun r => r.1 = fid) with
      | error e => simp [hrest, Except.map] at h
      | ok rest =>
        obtain rfl : _ :: rest = moved := by simpa [hrest, Except.map] using h
        obtain ⟨hlen, hdistinct, hmem⟩ := ih hrest
        have hleft : ∀ m ∈ rest, (m.factId, ⟨m.oldStart, m.oldEnd, m.bytes⟩) ∈ byFact ∧
            m.factId ≠ fid := by
          intro m hm
          simpa using Sql.Table.mem_delete_iff.mp (hmem m hm)
        refine ⟨by simp [hlen], List.nodup_cons.mpr ⟨?_, hdistinct⟩, ?_⟩
        · intro hin
          obtain ⟨m, hm, hid⟩ := List.mem_map.mp hin
          exact (hleft m hm).2 hid
        · intro m hm
          rcases List.mem_cons.mp hm with rfl | hm
          · rw [← hkey]
            exact hregion
          · exact (hleft m hm).1

/-- A payload names at least one fact. -/
lemma parseFactIds_ne_nil {ss : List Str} {fids : List FactId} (h : parseFactIds ss = .ok fids) :
    fids ≠ [] := by
  cases ss with
  | nil => simp [parseFactIds] at h
  | cons s ss =>
    simp only [parseFactIds, List.isEmpty_cons, Bool.false_eq_true, if_false, parseFactIdsAfter,
      List.not_mem_nil] at h
    split at h
    · simp at h
    · next fid _ =>
      cases hrest : parseFactIdsAfter [s] ss with
      | error e => simp [hrest, Except.map] at h
      | ok rest =>
        obtain rfl : fid :: rest = fids := by simpa [hrest, Except.map] using h
        simp

/-- What a payload moves is a selection of regions of the page. -/
theorem exists_selection {sourceRel source : Str} {factIds : List Str} {moved : List MovedRegion}
    (h : regionsToMove sourceRel source factIds = some (.ok moved)) :
    ∃ sel : Selection source, sel.moved = moved := by
  unfold regionsToMove at h
  rw [parse_eq_some] at h
  simp only [Option.bind_eq_bind, Option.bind_some, Option.bind_eq_some_iff, Option.pure_def,
    Option.some.injEq] at h
  obtain ⟨byFact, hbyFact, hmoved⟩ := h
  cases hids : parseFactIds factIds with
  | error e => simp [hids, Except.bind] at hmoved
  | ok fids =>
    have htake : takeRegions sourceRel fids byFact = .ok moved := by
      simpa [hids, Except.bind] using hmoved
    obtain ⟨hlen, hdistinct, hmem⟩ := takeRegions_ok htake
    refine ⟨⟨moved, ?_, hdistinct, fun m hm => ?_⟩, rfl⟩
    · rintro rfl
      exact parseFactIds_ne_nil hids (List.length_eq_zero_iff.mp hlen.symm)
    · obtain ⟨f, hf⟩ := mem_regionsByFact hbyFact _ (hmem m hm)
      exact ⟨_, f, parse_eq_some source, hf⟩

/-! ## A target that opens a region -/

/-- A page with one region. -/
def onePage : Str :=
  "\x7b\x7bf=018f0000-0000-7000-8000-000000000001\x7d\x7dtea\x7b\x7b/\x7d\x7d".toList

/-- A page whose region is still open. -/
def halfWritten : Str :=
  "\x7b\x7bf=018f0000-0000-7000-8000-000000000002\x7d\x7dcoffee".toList

/-- The region that moves. -/
def teaRegion : MovedRegion where
  factId := ⟨"018f0000-0000-7000-8000-000000000001".toList, by decide +kernel⟩
  oldStart := 0
  oldEnd := 50
  bytes := onePage

/-- The region that is appended ends the open one, and is found nowhere. -/
theorem target_opens_a_region :
    regionsToMove "notes/a.md".toList onePage
        ["018f0000-0000-7000-8000-000000000001".toList] = some (.ok [teaRegion]) ∧
      ¬ Conserves onePage halfWritten [teaRegion] := by
  have hmoved : regionsToMove "notes/a.md".toList onePage
      ["018f0000-0000-7000-8000-000000000001".toList] = some (.ok [teaRegion]) := by
    decide +kernel
  refine ⟨hmoved, fun hconserves => ?_⟩
  obtain ⟨sel, hsel⟩ := exists_selection hmoved
  have hclosed := (targetGains_iff halfWritten sel).mp (by rw [hsel]; exact hconserves.target)
  have hkinds : (parse halfWritten).map (fun out => out.warnings.map ParseWarning.kind) =
      some [.unclosedRegion] := by decide +kernel
  obtain ⟨out, hout, hwarns⟩ := Option.map_eq_some_iff.mp hkinds
  obtain ⟨w, hw, hkind⟩ := List.mem_map.mp
    (by rw [hwarns]; simp : ParseWarningKind.unclosedRegion ∈ out.warnings.map ParseWarning.kind)
  exact (allClosed_iff_parse hout).mp hclosed w hw hkind

end Promote

end Mwe
