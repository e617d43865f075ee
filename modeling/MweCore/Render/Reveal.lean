import MweCore.Planner.Names
import MweCore.Render.Page
import MweCore.Wiki.Meta

/-!
# The page as the operator is shown it

`renderAdminRevealSegments` shows an operator every region of a page and puts a mark around the
ones they could not read: a `span` when the region stands inside a line of prose, a `div` with
lines of its own otherwise.  The regions come from the page with its front matter taken off and
carry offsets of that body, but the line is looked up in the whole text at the same offsets.

`RevealedIn` is the reveal in which every line is the body's.  `reveal_faithful_iff` says for
which pages the code returns it: `ReadsTheSameLines` asks of every region that is to be marked
that its offsets can be cut at in the text too, and that the line found there holds something
exactly when the region's own line does.  A page without front matter is its own body and passes
(`readsTheSameLines_of_page`); `front_matter_misleads_the_reveal` has a page that stops the program
and one whose region is taken for a part of a sentence.
-/

namespace Mwe

open Str Planner

/-! ## The code -/

/-- A segmented render with the regions that were revealed counted. -/
structure RevealedRenderOutput extends SegmentedRenderOutput where
  blocksRevealed : ℕ := 0
  deriving DecidableEq

/-- Append fact-less text. -/
def RevealedRenderOutput.pushPlain (out : RevealedRenderOutput) (text : Str) :
    RevealedRenderOutput :=
  { out with toSegmentedRenderOutput := out.toSegmentedRenderOutput.pushPlain text }

/-- Append a shown region. -/
def RevealedRenderOutput.pushRegion (out : RevealedRenderOutput) (text : Str)
    (factId : Option FactId) : RevealedRenderOutput :=
  { out with toSegmentedRenderOutput := out.toSegmentedRenderOutput.pushRegion text factId }

/-- Whether a piece of a line holds anything but whitespace. -/
def hasContent (line : Str) : Bool := line.any fun c => !isWhitespace c

/-- Whether the region between two offsets stands inside a line; `none` is a bad slice. -/
def isInlineRegion (text : Str) (start stop : ℕ) : Option Bool := do
  let before ← slice text 0 start
  let after ← sliceFrom text stop
  pure (hasContent (before.rtakeWhile (· ≠ '\n')) || hasContent (after.takeWhile (· ≠ '\n')))

/-- A revealed region inside a line. -/
def revealedInline (body : Str) : Str :=
  '<' :: "span class=\"acl-revealed\">".toList ++ body ++ "</span>".toList

/-- A revealed region on lines of its own. -/
def revealedBlock (body : Str) : Str :=
  '\n' :: "\n<div class=\"acl-revealed\">\n\n".toList ++ trimMatches '\n' body ++
    "\n\n</div>\n\n".toList

/-- What the reveal adds for one event; `none` is a bad slice. -/
def revealStep (text body : Str) (dbAcl : FactAclMap) (senderId : Str) (senderGroups : List Str)
    (out : RevealedRenderOutput) : ParseEvent → Option RevealedRenderOutput
  | .prose _ _ run => some (out.pushPlain run)
  | .region start stop attrs _ _ region _ =>
    if regionVisible attrs dbAcl { senderId, senderGroups } then
      some (out.pushRegion region (segmentFactId attrs dbAcl))
    else
      (isInlineRegion text start stop).map fun inline =>
        let wrapped := if inline then revealedInline region else revealedBlock region
        { out.pushRegion wrapped (segmentFactId attrs dbAcl) with
          blocksRevealed := out.blocksRevealed + 1 }
  | .embed start stop _ => (slice body start stop).map out.pushPlain

/-- The part of a page's text that is parsed for regions. -/
def bodyOf (text : Str) : Str :=
  match MarkdownDoc.parse text with
  | some doc => doc.body
  | none => text

/-- Render a page for an operator who sees all of it; `none` is a bad slice. -/
def renderAdminRevealSegments (text : Str) (dbAcl : FactAclMap) (senderId : Str)
    (senderGroups : List Str) : Option RevealedRenderOutput := do
  let parsed ← parse (bodyOf text)
  parsed.events.foldlM (revealStep text (bodyOf text) dbAcl senderId senderGroups) {}

/-! ## Lines -/

/-- The line that ends at an offset holds something before it. -/
def HoldsBefore (text : Str) (start : ℕ) : Prop :=
  ∃ before c gap after, text = before ++ c :: gap ++ after ∧ len (before ++ c :: gap) = start ∧
    isWhitespace c = false ∧ '\n' ∉ gap

/-- The line that starts at an offset holds something behind it. -/
def HoldsAfter (text : Str) (stop : ℕ) : Prop :=
  ∃ before gap c after, text = before ++ (gap ++ c :: after) ∧ len before = stop ∧
    isWhitespace c = false ∧ '\n' ∉ gap

/-- The line of the stretch between two offsets holds something outside of it. -/
def OnALineOfText (text : Str) (start stop : ℕ) : Prop :=
  HoldsBefore text start ∨ HoldsAfter text stop

/-- The rest of a line holds something when it has a first part, free of breaks, that ends so. -/
lemma hasContent_takeWhile_iff {s : Str} :
    hasContent (s.takeWhile (· ≠ '\n')) = true ↔
      ∃ gap c after, s = gap ++ c :: after ∧ isWhitespace c = false ∧ '\n' ∉ gap := by
  constructor
  · intro h
    obtain ⟨c, hc, hblank⟩ := List.any_eq_true.mp h
    obtain ⟨gap, more, hline⟩ := List.append_of_mem hc
    have hclean : ∀ x ∈ s.takeWhile (· ≠ '\n'), x ≠ '\n' := fun x hx => by
      simpa using List.mem_takeWhile_imp hx
    refine ⟨gap, c, more ++ s.dropWhile (· ≠ '\n'), ?_, by simpa using hblank, ?_⟩
    · calc s = s.takeWhile (· ≠ '\n') ++ s.dropWhile (· ≠ '\n') :=
            (List.takeWhile_append_dropWhile).symm
        _ = _ := by rw [hline]; simp
    · intro hbreak
      exact hclean '\n' (by rw [hline]; simp [hbreak]) rfl
  · rintro ⟨gap, c, after, rfl, hblank, hgap⟩
    have hc : c ≠ '\n' := by
      rintro rfl
      exact absurd hblank (by decide)
    have hall : ∀ x ∈ gap, (decide (x ≠ '\n')) = true := by
      intro x hx
      have hne : x ≠ '\n' := by
        rintro rfl
        exact hgap hx
      simpa using hne
    rw [List.takeWhile_append_of_pos hall, List.takeWhile_cons_of_pos (by simpa using hc)]
    simp [hasContent, hblank]

/-- The end of a line is taken from the last break on. -/
lemma hasContent_rtakeWhile_iff {s : Str} :
    hasContent (s.rtakeWhile (· ≠ '\n')) = true ↔
      ∃ before c gap, s = before ++ c :: gap ∧ isWhitespace c = false ∧ '\n' ∉ gap := by
  have hflip : hasContent (s.rtakeWhile (· ≠ '\n')) =
      hasContent (s.reverse.takeWhile (· ≠ '\n')) := by
    simp [hasContent, List.rtakeWhile]
  rw [hflip, hasContent_takeWhile_iff]
  constructor
  · rintro ⟨gap, c, after, hs, hblank, hgap⟩
    have hback := congrArg List.reverse hs
    exact ⟨after.reverse, c, gap.reverse, by simpa using hback, hblank, by simpa using hgap⟩
  · rintro ⟨before, c, gap, rfl, hblank, hgap⟩
    exact ⟨gap.reverse, c, before.reverse, by simp, hblank, by simpa using hgap⟩

/-- A region's line is read off the text where the text can be cut at both offsets. -/
lemma isInlineRegion_eq_some_iff {text : Str} {start stop : ℕ} {inline : Bool} :
    isInlineRegion text start stop = some inline ↔
      IsCharBoundary text start ∧ IsCharBoundary text stop ∧
        (inline = true ↔ OnALineOfText text start stop) := by
  have hcut : ∀ before rest upTo after, text = before ++ rest → len before = start →
      text = upTo ++ after → len upTo = stop →
      isInlineRegion text start stop =
        some (hasContent (before.rtakeWhile (· ≠ '\n')) ||
          hasContent (after.takeWhile (· ≠ '\n'))) := by
    intro before rest upTo after htext hstart htext' hstop
    have hbefore : slice text 0 start = some before :=
      slice_eq (a := []) (b := rest) (by simpa using htext) rfl (by simp [hstart])
    have hafter : sliceFrom text stop = some after := by
      rw [htext', ← hstop, sliceFrom_append]
    simp [isInlineRegion, hbefore, hafter]
  have hholds : ∀ before rest upTo after, text = before ++ rest → len before = start →
      text = upTo ++ after → len upTo = stop →
      ((hasContent (before.rtakeWhile (· ≠ '\n')) ||
          hasContent (after.takeWhile (· ≠ '\n'))) = true ↔ OnALineOfText text start stop) := by
    intro before rest upTo after htext hstart htext' hstop
    rw [Bool.or_eq_true, hasContent_rtakeWhile_iff, hasContent_takeWhile_iff]
    refine or_congr ?_ ?_
    · constructor
      · rintro ⟨a, c, gap, rfl, hblank, hgap⟩
        exact ⟨a, c, gap, rest, htext, hstart, hblank, hgap⟩
      · rintro ⟨a, c, gap, b, hab, hlen, hblank, hgap⟩
        obtain ⟨hsame, -⟩ := append_inj_of_len (hab.symm.trans htext) (hlen.trans hstart.symm)
        exact ⟨a, c, gap, hsame.symm, hblank, hgap⟩
    · constructor
      · rintro ⟨gap, c, b, rfl, hblank, hgap⟩
        exact ⟨upTo, gap, c, b, htext', hstop, hblank, hgap⟩
      · rintro ⟨a, gap, c, b, hab, hlen, hblank, hgap⟩
        obtain ⟨-, hsame⟩ := append_inj_of_len (hab.symm.trans htext') (hlen.trans hstop.symm)
        exact ⟨gap, c, b, hsame.symm, hblank, hgap⟩
  constructor
  · intro h
    obtain ⟨before, hbefore, hrest⟩ := Option.bind_eq_some_iff.mp h
    obtain ⟨after, hafter, -⟩ := Option.bind_eq_some_iff.mp hrest
    obtain ⟨a, b, htext, ha, hb⟩ := slice_eq_some_iff.mp hbefore
    obtain rfl : a = [] := List.length_eq_zero_iff.mp (by have := length_le_len a; omega)
    obtain ⟨⟨upTo, after'⟩, hcutAt, hsame⟩ := Option.map_eq_some_iff.mp hafter
    obtain ⟨htext', hstop⟩ := splitAtByte_eq_some_iff.mp hcutAt
    have hstart : len before = start := by simpa using hb.symm
    have htext₀ : text = before ++ b := by simpa using htext
    rw [hcut before b upTo after' htext₀ hstart htext' hstop] at h
    refine ⟨⟨before, b, htext₀, hstart⟩, ⟨upTo, after', htext', hstop⟩, ?_⟩
    rw [← hholds before b upTo after' htext₀ hstart htext' hstop, ← Option.some.inj h]
  · rintro ⟨⟨before, rest, htext, hstart⟩, ⟨upTo, after, htext', hstop⟩, hline⟩
    rw [hcut before rest upTo after htext hstart htext' hstop]
    have hsame := (hholds before rest upTo after htext hstart htext' hstop).trans hline.symm
    exact congrArg some (Bool.eq_iff_iff.mpr hsame)

/-! ## The reveal of a body -/

section

variable (dbAcl : FactAclMap) (senderId : Str) (senderGroups : List Str)

/-- Whether an event is a region that has to be marked. -/
def isMarked : ParseEvent → Bool
  | .region _ _ attrs _ _ _ _ => !regionVisible attrs dbAcl { senderId, senderGroups }
  | _ => false

/-- What an event adds to the reveal when a region to be marked stands `inline` or does not. -/
def addRevealed (inline : Bool) (out : RevealedRenderOutput) : ParseEvent → RevealedRenderOutput
  | .prose _ _ run => out.pushPlain run
  | .region _ _ attrs _ _ region _ =>
    if regionVisible attrs dbAcl { senderId, senderGroups } then
      out.pushRegion region (segmentFactId attrs dbAcl)
    else
      { out.pushRegion (if inline then revealedInline region else revealedBlock region)
          (segmentFactId attrs dbAcl) with blocksRevealed := out.blocksRevealed + 1 }
  | .embed _ _ cid => out.pushPlain (Token.embed cid).source

open Classical in
/-- The reveal of the events of a body, every line looked up in that body. -/
noncomputable def revealOf (body : Str) (events : List ParseEvent) : RevealedRenderOutput :=
  let inline : ParseEvent → Bool := fun ev => decide (OnALineOfText body ev.span.1 ev.span.2)
  events.foldl (fun out ev => addRevealed dbAcl senderId senderGroups (inline ev) out ev) {}

/-- The reveal returns, with every region taken for what it is in the body. -/
def RevealedIn (text : Str) : Prop :=
  ∃ parsed, parse (bodyOf text) = some parsed ∧
    renderAdminRevealSegments text dbAcl senderId senderGroups =
      some (revealOf dbAcl senderId senderGroups (bodyOf text) parsed.events)

/-- Wherever a region has to be marked, its offsets in the body can be cut at in the text, and the
line found there holds something exactly when the region's line does. -/
def ReadsTheSameLines (text : Str) : Prop :=
  ∀ parsed, parse (bodyOf text) = some parsed → ∀ ev ∈ parsed.events,
    isMarked dbAcl senderId senderGroups ev = true →
      IsCharBoundary text ev.span.1 ∧ IsCharBoundary text ev.span.2 ∧
        (OnALineOfText text ev.span.1 ev.span.2 ↔ OnALineOfText (bodyOf text) ev.span.1 ev.span.2)

/-- A slice of fact-less text stands behind what was there. -/
@[simp] lemma RevealedRenderOutput.text_pushPlain (out : RevealedRenderOutput) (t : Str) :
    (out.pushPlain t).text = out.text ++ t := by
  unfold RevealedRenderOutput.pushPlain SegmentedRenderOutput.pushPlain
  simp only [SegmentedRenderOutput.text]
  split
  · next last hlast =>
    obtain ⟨front, hfront⟩ := List.getLast?_eq_some_iff.mp hlast
    simp [hfront]
  · simp

/-- A shown region stands behind what was there. -/
@[simp] lemma RevealedRenderOutput.text_pushRegion (out : RevealedRenderOutput) (t : Str)
    (factId : Option FactId) : (out.pushRegion t factId).text = out.text ++ t := by
  simp [RevealedRenderOutput.pushRegion, SegmentedRenderOutput.pushRegion,
    SegmentedRenderOutput.text]

/-- What an event adds stands behind what was there. -/
lemma text_addRevealed (inline : Bool) (out : RevealedRenderOutput) (ev : ParseEvent) :
    out.text <+: (addRevealed dbAcl senderId senderGroups inline out ev).text := by
  unfold addRevealed
  split
  · simp
  · split <;> simp
  · simp

/-- An embed names the marker it was read from. -/
def ParseEvent.Written (body : Str) : ParseEvent → Prop
  | .embed start stop cid => slice body start stop = some (Token.embed cid).source
  | _ => True

/-- The embeds that are laid out name their markers. -/
lemma layoutEvents_written (a b : Str) (ts : List Token) :
    ∀ ev ∈ layoutEvents (len a) ts, ev.Written (a ++ sources ts ++ b) := by
  induction ts generalizing a with
  | nil => simp [layoutEvents]
  | cons t ts ih =>
    intro ev hev
    rcases List.mem_cons.mp hev with rfl | hev
    · cases t with
      | prose run w => trivial
      | region spec region => trivial
      | embed cid =>
        have htext : a ++ sources (.embed cid :: ts) ++ b =
            a ++ (Token.embed cid).source ++ (sources ts ++ b) := by simp
        rw [htext]
        exact slice_append a _ _
    · have hrest := ih (a ++ t.source) ev (by simpa using hev)
      simpa using hrest

variable {dbAcl senderId senderGroups} {text body : Str}

/-- An event that is no region to be marked is added as it is, whatever its line. -/
lemma revealStep_of_not_marked {out : RevealedRenderOutput} {ev : ParseEvent}
    (hwritten : ev.Written body) (hopen : isMarked dbAcl senderId senderGroups ev = false)
    (inline : Bool) :
    revealStep text body dbAcl senderId senderGroups out ev =
      some (addRevealed dbAcl senderId senderGroups inline out ev) := by
  cases ev with
  | prose start stop run => rfl
  | embed start stop cid =>
    have hslice : slice body start stop = some (Token.embed cid).source := hwritten
    simp [revealStep, addRevealed, hslice]
  | region start stop attrs bodyStart bodyEnd region embeds =>
    have hvisible : regionVisible attrs dbAcl { senderId, senderGroups } = true := by
      simpa [isMarked] using hopen
    simp [revealStep, addRevealed, hvisible]

/-- A region to be marked is added as the text at its offsets has it. -/
lemma revealStep_of_marked {out : RevealedRenderOutput} {ev : ParseEvent}
    (hmarked : isMarked dbAcl senderId senderGroups ev = true) :
    revealStep text body dbAcl senderId senderGroups out ev =
      (isInlineRegion text ev.span.1 ev.span.2).map fun inline =>
        addRevealed dbAcl senderId senderGroups inline out ev := by
  cases ev with
  | prose start stop run => exact absurd hmarked (by simp [isMarked])
  | embed start stop cid => exact absurd hmarked (by simp [isMarked])
  | region start stop attrs bodyStart bodyEnd region embeds =>
    have hdenied : regionVisible attrs dbAcl { senderId, senderGroups } = false := by
      simpa [isMarked] using hmarked
    simp [revealStep, addRevealed, hdenied, ParseEvent.span]

/-- Each step of the reveal keeps the text it was given. -/
lemma text_revealStep {out out' : RevealedRenderOutput} {ev : ParseEvent}
    (hwritten : ev.Written body)
    (h : revealStep text body dbAcl senderId senderGroups out ev = some out') :
    out.text <+: out'.text := by
  cases hmarked : isMarked dbAcl senderId senderGroups ev with
  | false =>
    rw [revealStep_of_not_marked hwritten hmarked false] at h
    obtain rfl := Option.some.inj h
    exact text_addRevealed dbAcl senderId senderGroups false out ev
  | true =>
    rw [revealStep_of_marked hmarked] at h
    obtain ⟨inline, -, rfl⟩ := Option.map_eq_some_iff.mp h
    exact text_addRevealed dbAcl senderId senderGroups inline out ev

/-- A run of steps keeps the text it was given. -/
lemma text_foldlM_revealStep {events : List ParseEvent} {out out' : RevealedRenderOutput}
    (hwritten : ∀ ev ∈ events, ev.Written body)
    (h : events.foldlM (revealStep text body dbAcl senderId senderGroups) out = some out') :
    out.text <+: out'.text := by
  induction events generalizing out with
  | nil =>
    obtain rfl := Option.some.inj h
    exact List.prefix_rfl
  | cons ev events ih =>
    obtain ⟨next, hnext, hrest⟩ := Option.bind_eq_some_iff.mp h
    have hstep := text_revealStep (hwritten ev List.mem_cons_self) hnext
    exact hstep.trans (ih (fun e he => hwritten e (List.mem_cons_of_mem ev he)) hrest)

variable (dbAcl senderId senderGroups) in
/-- So do the additions, whatever the lines. -/
lemma text_foldl_addRevealed (inline : ParseEvent → Bool) (events : List ParseEvent)
    (out : RevealedRenderOutput) :
    out.text <+: (events.foldl (fun out ev =>
      addRevealed dbAcl senderId senderGroups (inline ev) out ev) out).text := by
  induction events generalizing out with
  | nil => exact List.prefix_rfl
  | cons ev events ih =>
    exact (text_addRevealed dbAcl senderId senderGroups (inline ev) out ev).trans (ih _)

/-- A region marked inside a line and one on lines of its own differ in their first character. -/
lemma addRevealed_prefix_inj {out : RevealedRenderOutput} {ev : ParseEvent} {i j : Bool} {t : Str}
    (hmarked : isMarked dbAcl senderId senderGroups ev = true)
    (hi : (addRevealed dbAcl senderId senderGroups i out ev).text <+: t)
    (hj : (addRevealed dbAcl senderId senderGroups j out ev).text <+: t) : i = j := by
  cases ev with
  | prose start stop run => exact absurd hmarked (by simp [isMarked])
  | embed start stop cid => exact absurd hmarked (by simp [isMarked])
  | region start stop attrs bodyStart bodyEnd region embeds =>
    have hdenied : regionVisible attrs dbAcl { senderId, senderGroups } = false := by
      simpa [isMarked] using hmarked
    have htext : ∀ k, (addRevealed dbAcl senderId senderGroups k out
        (.region start stop attrs bodyStart bodyEnd region embeds)).text =
        out.text ++ if k then revealedInline region else revealedBlock region := by
      intro k
      simp only [addRevealed, hdenied, Bool.false_eq_true, if_false]
      exact RevealedRenderOutput.text_pushRegion _ _ _
    rw [htext] at hi hj
    obtain ⟨a, ha⟩ := hi
    obtain ⟨b, hb⟩ := hj
    have hsame : (if i then revealedInline region else revealedBlock region) ++ a =
        (if j then revealedInline region else revealedBlock region) ++ b := by
      simpa using ha.trans hb.symm
    cases i <;> cases j <;> simp_all [revealedInline, revealedBlock]

/-- The reveal of some events is the body's when every region to be marked is taken for what it
is in the body. -/
lemma foldlM_revealStep_eq_iff (inline : ParseEvent → Bool) {events : List ParseEvent}
    (hwritten : ∀ ev ∈ events, ev.Written body) (out : RevealedRenderOutput) :
    events.foldlM (revealStep text body dbAcl senderId senderGroups) out =
        some (events.foldl (fun out ev =>
          addRevealed dbAcl senderId senderGroups (inline ev) out ev) out) ↔
      ∀ ev ∈ events, isMarked dbAcl senderId senderGroups ev = true →
        isInlineRegion text ev.span.1 ev.span.2 = some (inline ev) := by
  induction events generalizing out with
  | nil => simp
  | cons ev events ih =>
    have hrest := fun out => ih (fun e he => hwritten e (List.mem_cons_of_mem ev he)) out
    have hhead := hwritten ev List.mem_cons_self
    rw [List.foldlM_cons, List.foldl_cons, List.forall_mem_cons]
    cases hmarked : isMarked dbAcl senderId senderGroups ev with
    | false =>
      rw [revealStep_of_not_marked hhead hmarked (inline ev), Option.bind_eq_bind,
        Option.bind_some, hrest]
      simp
    | true =>
      rw [revealStep_of_marked hmarked]
      cases hline : isInlineRegion text ev.span.1 ev.span.2 with
      | none => simp
      | some i =>
        rw [Option.map_some, Option.bind_eq_bind, Option.bind_some]
        by_cases hi : i = inline ev
        · rw [hi, hrest]
          simp
        · -- the first characters of the two marks stay apart whatever follows
          refine iff_of_false (fun h => hi ?_) (fun h => hi (by simpa using h.1 rfl))
          have hcode := text_foldlM_revealStep
            (fun e he => hwritten e (List.mem_cons_of_mem ev he)) h
          have hbody := text_foldl_addRevealed dbAcl senderId senderGroups inline events
            (addRevealed dbAcl senderId senderGroups (inline ev) out ev)
          exact addRevealed_prefix_inj hmarked hcode hbody

end

/-! ## Which pages are revealed faithfully -/

/-- A page without front matter is its own body. -/
lemma bodyOf_page (page : PageBody) : bodyOf page.text = page.text := by
  simp [bodyOf, page.noFrontMatter]

/-- A page without front matter reads the lines its regions stand on. -/
theorem readsTheSameLines_of_page (page : PageBody) (dbAcl : FactAclMap) (senderId : Str)
    (senderGroups : List Str) : ReadsTheSameLines dbAcl senderId senderGroups page.text := by
  intro parsed hparsed ev hev _
  obtain ⟨parsed', hparsed', -, hfaithful, -⟩ := parse_tiles (bodyOf page.text)
  obtain rfl := Option.some.inj (hparsed'.symm.trans hparsed)
  obtain ⟨hstart, hstop, -⟩ := hfaithful ev hev
  rw [bodyOf_page] at hstart hstop ⊢
  exact ⟨hstart, hstop, Iff.rfl⟩

/-- The reveal returns, with every region taken for what it is in its body, exactly when the
offsets of every region to be marked find the same lines in the text. -/
theorem reveal_faithful_iff (text : Str) (dbAcl : FactAclMap) (senderId : Str)
    (senderGroups : List Str) :
    RevealedIn dbAcl senderId senderGroups text ↔
      ReadsTheSameLines dbAcl senderId senderGroups text := by
  classical
  have hsources := tokens_source (bodyOf text)
  have hwritten : ∀ ev ∈ layoutEvents 0 (tokens (bodyOf text)), ev.Written (bodyOf text) := by
    simpa [hsources] using layoutEvents_written [] [] (tokens (bodyOf text))
  have hrender : renderAdminRevealSegments text dbAcl senderId senderGroups =
      (layoutEvents 0 (tokens (bodyOf text))).foldlM
        (revealStep text (bodyOf text) dbAcl senderId senderGroups) {} := by
    simp [renderAdminRevealSegments, parse_eq_some]
  have hreturns : RevealedIn dbAcl senderId senderGroups text ↔
      renderAdminRevealSegments text dbAcl senderId senderGroups =
        some (revealOf dbAcl senderId senderGroups (bodyOf text)
          (layoutEvents 0 (tokens (bodyOf text)))) := by
    simp [RevealedIn, parse_eq_some]
  rw [hreturns, hrender, revealOf, foldlM_revealStep_eq_iff _ hwritten]
  simp only [ReadsTheSameLines, parse_eq_some, Option.some.injEq, forall_eq',
    isInlineRegion_eq_some_iff, decide_eq_true_iff]
  refine forall₃_congr fun ev _ _ => and_congr_right fun _ => and_congr_right fun _ => ?_
  exact Iff.comm

/-! ## Two pages with front matter -/

/-- The body of a file is what stands behind its front matter. -/
lemma bodyOf_append {t : Str} (h : ∀ line ∈ t.splitOn '\n', isFence line = false) (body : Str) :
    bodyOf ("---\n".toList ++ (t ++ ['\n'] ++ "---\n".toList ++ body)) = body := by
  have hstrip : ∀ rest, stripFenceLine ("---\n".toList ++ rest) = some rest := by
    intro rest
    have hprefix : stripPrefix "---\n".toList ("---\n".toList ++ rest) = some rest :=
      stripPrefix_eq_some_iff.mpr rfl
    rw [stripFenceLine, hprefix]
  rw [bodyOf, MarkdownDoc.parse, hstrip, Option.bind_some, WikiMeta.scanFence_lines h []]

/-- A file with front matter. -/
def fileOf (frontmatter body : Str) : Str :=
  "---\n".toList ++ (frontmatter ++ ['\n'] ++ "---\n".toList ++ body)

/-- A page of Anna's with her rent in the middle of a sentence. -/
def rentPage : Str :=
  fileOf "keywords: [città]".toList
    "The rent per month: {{subject=user:anna}}900{{/}} euro.\n".toList

/-- A page of Anna's with one region on a line of its own. -/
def linePage : Str :=
  fileOf "keywords: [rent]".toList "{{subject=user:anna}}The rent is 900.{{/}}\n".toList

/-- The region of `rentPage` starts at offset 20, which in the file is the middle of the accented
letter: the reveal stops the program.  The line of `linePage` holds nothing but its region, and
the region is marked as one inside a sentence. -/
theorem front_matter_misleads_the_reveal :
    (renderAdminRevealSegments rentPage [] "bruno".toList [] = none ∧
      ¬ RevealedIn [] "bruno".toList [] rentPage) ∧
    (∃ out, renderAdminRevealSegments linePage [] "bruno".toList [] = some out ∧
      out.text = revealedInline "The rent is 900.".toList ++ ['\n'] ∧
      ¬ OnALineOfText (bodyOf linePage) 0 42) := by
  have hrent : bodyOf rentPage =
      "The rent per month: {{subject=user:anna}}900{{/}} euro.\n".toList :=
    bodyOf_append (by decide) _
  have hline : bodyOf linePage = "{{subject=user:anna}}The rent is 900.{{/}}\n".toList :=
    bodyOf_append (by decide) _
  have hstops : renderAdminRevealSegments rentPage [] "bruno".toList [] = none := by
    rw [renderAdminRevealSegments, hrent]
    decide +kernel
  refine ⟨⟨hstops, ?_⟩, ?_⟩
  · rintro ⟨parsed, -, hreturns⟩
    exact absurd (hstops.symm.trans hreturns) (by simp)
  · refine ⟨⟨⟨[⟨revealedInline "The rent is 900.".toList ++ ['\n'], none⟩], 0⟩, 1⟩, ?_, ?_, ?_⟩
    · rw [renderAdminRevealSegments, hline]
      decide +kernel
    · decide +kernel
    · rw [hline]
      have hread : isInlineRegion "{{subject=user:anna}}The rent is 900.{{/}}\n".toList 0 42 =
          some false := by decide +kernel
      exact fun h => absurd ((isInlineRegion_eq_some_iff.mp hread).2.2.mpr h) (by simp)

end Mwe
