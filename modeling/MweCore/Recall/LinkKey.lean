import MweCore.Capture.Words
import MweCore.Parser.Found
import MweCore.Promote.Retarget

/-!
# Clauses that carry a link

A page is cut into clauses at the marks between them, and a clause with a link to a page is a key
to the facts beside it: `coveredFacts` of the place where the clause begins.  A link inside a fact
is to stand for that fact alone, and every link to a page is to have a clause.

The cut looks neither at brackets nor at the markers of regions.  A link with a mark in it, as a dot
in its alias, is in no clause, and a clause that begins before the marker of a fact is beside what
is there.  `links_have_their_facts_iff` says that nothing else goes wrong.
-/

namespace Mwe

open Str Search

namespace LinkKey

open Compiler Promote

/-! ## Clauses -/

/-- One clause and what it points at. -/
structure Clause where
  target : Str
  text : Str
  at' : ℕ
  deriving DecidableEq

/-- The longest clause worth keeping. -/
def maxClauseChars : ℕ := 400

/-- The shortest clause worth keeping. -/
def minClauseChars : ℕ := 20

/-- The marks between clauses. -/
def isBreak (c : Char) : Bool := ['.', '!', '?', ';', ':', '\n', '(', ')', '—', '–'].elem c

/-- A text without its links, the alias of each kept. -/
def stripLinksFrom : ℕ → Str → Str
  | 0, rest => rest
  | fuel + 1, rest =>
    match splitOnce ['[', '['] rest with
    | none => rest
    | some (before, tail) =>
      match splitOnce [']', ']'] tail with
      -- what stands before open brackets is written twice
      | none => before ++ rest
      | some (inner, after) =>
        before ++ ((splitOnce ['|'] inner).map Prod.snd).getD [] ++ stripLinksFrom fuel after

/-- A text without its links. -/
def stripLinks (span : Str) : Str := stripLinksFrom (span.length + 1) span

/-- What a clause says. -/
def clauseText (span : Str) : Str :=
  List.intercalate [' '] (Capture.splitWhitespace (stripEmbedMarkers (stripLinks span)))

/-- The page of a link, unless it leads to a wiki. -/
def pageHop (link : WikiLink) : Option Str := link.page.map fun p => link.wikiId ++ '/' :: p

/-- The clause of a span, when it carries a link to a page and says enough and not too much. -/
def pushClause (start : ℕ) (span : Str) : Option Clause :=
  ((extractWikilinks span).findSome? pageHop).bind fun target =>
    if minClauseChars ≤ (clauseText span).length ∧ (clauseText span).length ≤ maxClauseChars then
      some ⟨target, clauseText span, start⟩
    else none

/-- The spans between the marks of what is left of a text, each with its place. -/
def spansFrom : ℕ → Str → Str → List (ℕ × Str)
  | start, span, [] => [(start, span)]
  | start, span, c :: rest =>
    if isBreak c then (start, span) :: spansFrom (start + len span + len [c]) [] rest
    else spansFrom start (span ++ [c]) rest

/-- The clauses of a page that carry a link. -/
def clausesOf (body : Str) : List Clause :=
  (spansFrom 0 [] body).filterMap fun s => pushClause s.1 s.2

/-! ## Facts beside a clause -/

/-- A region of a fact. -/
structure FactRegion where
  start : ℕ
  stop : ℕ
  factId : FactId
  deriving DecidableEq

/-- The fact of an event. -/
def factRegion (ev : ParseEvent) : Option FactRegion :=
  (foundRegion ev).bind fun f => f.attrs.factId.map fun id => ⟨f.start, f.stop, id⟩

/-- The regions of the facts of a page. -/
def factRegions (events : List ParseEvent) : List FactRegion := events.filterMap factRegion

/-- Whether a region holds a place. -/
def FactRegion.holds (r : FactRegion) (at' : ℕ) : Bool := r.start ≤ at' && at' < r.stop

/-- The facts beside a place. -/
def coveredFacts (regions : List FactRegion) (at' : ℕ) : List FactId :=
  match regions.find? fun r => r.holds at' with
  | some r => [r.factId]
  | none =>
    -- the last of several that stop together, and the first of several that start together
    let before := (regions.filter fun r => r.stop ≤ at').reverse.argmax FactRegion.stop
    let after := (regions.filter fun r => at' < r.start).argmin FactRegion.start
    (before.toList ++ after.toList).map FactRegion.factId

/-! ## What clauses are for -/

/-- A stretch between two marks. -/
structure IsSpan (body before span after : Str) : Prop where
  eq : body = before ++ span ++ after
  unbroken : ∀ c ∈ span, isBreak c = false
  opened : ∀ c ∈ before.getLast?, isBreak c = true
  closed : ∀ c ∈ after.head?, isBreak c = true

/-- A stretch that says enough and not too much. -/
def Admissible (span : Str) : Prop :=
  minClauseChars ≤ (clauseText span).length ∧ (clauseText span).length ≤ maxClauseChars

instance (span : Str) : Decidable (Admissible span) := inferInstanceAs (Decidable (_ ∧ _))

/-- Where what stands between brackets leads, when that is a page. -/
def pageOf (inner : Str) : Option Str := (readLink inner).bind pageHop

/-- A link as it is written. -/
def written (inner : Str) : Str := ['[', '['] ++ inner ++ [']', ']']

/-- A link of a text to a page, and what stands before it. -/
def PageLinkAt (text u inner : Str) : Prop :=
  (pageOf inner).isSome ∧ ∃ ps b qs rest, linkParts text = (ps ++ (b, inner) :: qs, rest) ∧
    u = rejoin ['[', '['] [']', ']'] ps b

/-- The first link of a text to a page, and what stands before it. -/
def FirstPageLink (text u inner : Str) : Prop :=
  (pageOf inner).isSome ∧ ∃ ps b qs rest, linkParts text = (ps ++ (b, inner) :: qs, rest) ∧
    u = rejoin ['[', '['] [']', ']'] ps b ∧ ∀ p ∈ ps, pageOf p.2 = none

/-- A stretch that holds a link which stands after `u` in the page. -/
structure HoldsLink (body u inner before span : Str) : Prop where
  isSpan : ∃ after, IsSpan body before span after
  holds : ∃ x y, u = before ++ x ∧ span = x ++ written inner ++ y

/-- A fact, and a stretch the first link of which lies inside the fact. -/
structure LinkInFact (body before span u inner : Str) (r : FactRegion) : Prop where
  isSpan : ∃ after, IsSpan body before span after
  first : FirstPageLink span u inner
  fact : r ∈ factRegions (parseEvents body)
  from_start : r.start ≤ len (before ++ u)
  to_stop : len (before ++ u ++ written inner) ≤ r.stop

/-- What the clauses of a page are for. -/
structure LinksHaveTheirFacts (body : Str) : Prop where
  /-- A clause that is kept for a link inside a fact stands for that fact alone. -/
  alone : ∀ before span u inner r, LinkInFact body before span u inner r →
    ∀ c ∈ clausesOf body, c.at' = len before →
      ∀ id, id ∈ coveredFacts (factRegions (parseEvents body)) c.at' ↔ id = r.factId
  /-- A link to a page stands in a stretch that says too little or too much, or is the target of a
  clause, or stands with one. -/
  kept : ∀ u inner, PageLinkAt body u inner →
    (∃ before span, HoldsLink body u inner before span ∧ ¬ Admissible span) ∨
      (∃ c ∈ clausesOf body, pageOf inner = some c.target) ∨
        ∃ c ∈ clausesOf body, ∃ before span, HoldsLink body u inner before span ∧
          c.at' = len before

/-- The regions of one fact, and no others, are beside a place: it is in one of them, or in the open
with one of them next to it on each side where there is any. -/
def OnlyBeside (regions : List FactRegion) (at' : ℕ) (id : FactId) : Prop :=
  (∃ r ∈ regions, r.holds at' = true ∧ r.factId = id) ∨
    (∀ r ∈ regions, r.holds at' = false) ∧
      (∀ r ∈ regions, r.stop ≤ at' → (∀ r' ∈ regions, r'.stop ≤ at' → r'.stop ≤ r.stop) →
        r.factId = id) ∧
      ∀ r ∈ regions, at' < r.start → (∀ r' ∈ regions, at' < r'.start → r.start ≤ r'.start) →
        r.factId = id

/-- What has to be so of the marks of a page. -/
structure MarksStandApart (body : Str) : Prop where
  /-- A stretch with a link inside a fact begins beside that fact alone. -/
  beside : ∀ before span u inner r, LinkInFact body before span u inner r → Admissible span →
    OnlyBeside (factRegions (parseEvents body)) (len before) r.factId
  /-- A page that a link with a mark in it leads to is the first that a stretch leads to. -/
  elsewhere : ∀ u inner, PageLinkAt body u inner → (∃ c ∈ inner, isBreak c = true) →
    ∃ before span after v inner', IsSpan body before span after ∧ Admissible span ∧
      FirstPageLink span v inner' ∧ pageOf inner' = pageOf inner

/-! ## Spans -/

section

variable {body before span after : Str}

/-- A stretch is what follows, up to the next mark. -/
lemma IsSpan.takeWhile (h : IsSpan body before span after) :
    (span ++ after).takeWhile (fun c => !isBreak c) = span := by
  rw [List.takeWhile_append_of_pos fun c hc => by simp [h.unbroken c hc]]
  rcases after with _ | ⟨c, after⟩
  · simp
  · simp [h.closed c rfl]

/-- Where a stretch begins says which one it is. -/
lemma IsSpan.unique {before' span' after' : Str} (h : IsSpan body before span after)
    (h' : IsSpan body before' span' after') (hlen : len before = len before') :
    before = before' ∧ span = span' := by
  have heq : before ++ (span ++ after) = before' ++ (span' ++ after') := by
    rw [← List.append_assoc, ← h.eq, h'.eq, List.append_assoc]
  obtain ⟨rfl, hrest⟩ := append_inj_of_len heq hlen
  exact ⟨rfl, by rw [← h.takeWhile, ← h'.takeWhile, hrest]⟩

/-- A later stretch begins behind the mark that closes an earlier one. -/
lemma IsSpan.later {a rest : Str} (h : IsSpan (a ++ span ++ rest) before span' after)
    (hspan : ∀ c ∈ span, isBreak c = false) (ha : a <+: before) :
    before = a ∨ ∃ x, x ≠ [] ∧ before = a ++ span ++ x ∧ rest = x ++ span' ++ after := by
  obtain ⟨z, rfl⟩ := ha
  by_cases hz : z = []
  · exact .inl (by rw [hz, List.append_nil])
  · have hopened : ∀ d ∈ z.getLast?, d ∉ span := by
      intro d hd hmem
      have hbreak := h.opened d (by rwa [List.getLast?_append_of_ne_nil _ hz])
      rw [hspan d hmem] at hbreak
      cases hbreak
    have heq : span ++ rest = z ++ (span' ++ after) := by simpa using h.eq
    obtain ⟨x, rfl, hx, hrest⟩ := exists_of_append_eq hz hopened heq
    exact .inr ⟨x, hx, by simp, by simpa using hrest⟩

/-- The stretches of a text are its spans. -/
lemma mem_spansFrom_iff {a rest : Str} {start n : ℕ} (hstart : start = len a)
    (ha : ∀ c ∈ a.getLast?, isBreak c = true) (hspan : ∀ c ∈ span, isBreak c = false) {s : Str} :
    (n, s) ∈ spansFrom start span rest ↔ ∃ before after, n = len before ∧ a <+: before ∧
      IsSpan (a ++ span ++ rest) before s after := by
  induction rest generalizing a span start with
  | nil =>
    rw [spansFrom, List.mem_singleton, Prod.mk.injEq]
    have hself : IsSpan (a ++ span ++ []) a span [] := ⟨rfl, hspan, ha, by simp⟩
    constructor
    · rintro ⟨rfl, rfl⟩
      exact ⟨a, [], hstart, List.prefix_rfl, hself⟩
    · rintro ⟨before, after, rfl, hpre, h⟩
      rcases h.later hspan hpre with rfl | ⟨x, hx, -, hrest⟩
      · exact ⟨hstart.symm, (h.unique hself rfl).2⟩
      · exact absurd hrest (by simp [hx])
  | cons c rest ih =>
    rw [spansFrom]
    split_ifs with hc
    · have hself : IsSpan (a ++ span ++ c :: rest) a span (c :: rest) :=
        ⟨rfl, hspan, ha, by simpa using hc⟩
      have hlater := @ih [] (a ++ span ++ [c]) (start + len span + len [c])
        (by simp [hstart, Nat.add_assoc]) (by simpa using hc) (by simp)
      rw [List.mem_cons, hlater, Prod.mk.injEq]
      have htext : a ++ span ++ [c] ++ [] ++ rest = a ++ span ++ c :: rest := by simp
      rw [htext]
      constructor
      · rintro (⟨rfl, rfl⟩ | ⟨before, after, hn, hpre, h⟩)
        · exact ⟨a, c :: rest, hstart, List.prefix_rfl, hself⟩
        · have hfront : a <+: a ++ span ++ [c] := ⟨span ++ [c], by simp⟩
          exact ⟨before, after, hn, hfront.trans hpre, h⟩
      · rintro ⟨before, after, rfl, hpre, h⟩
        rcases h.later hspan hpre with rfl | ⟨x, hx, rfl, hrest⟩
        · exact .inl ⟨hstart.symm, (h.unique hself rfl).2⟩
        · refine .inr ⟨_, after, rfl, ?_, h⟩
          rcases x with _ | ⟨d, x⟩
          · exact absurd rfl hx
          · obtain ⟨rfl, -⟩ : c = d ∧ rest = x ++ (s ++ after) := by simpa using hrest
            exact ⟨x, by simp⟩
    · have hspan' : ∀ d ∈ span ++ [c], isBreak d = false := by
        intro d hd
        rcases List.mem_append.mp hd with hd | hd
        · exact hspan d hd
        · rw [List.mem_singleton.mp hd]
          simpa using hc
      have hlater := @ih (span ++ [c]) a start hstart ha hspan'
      have htext : a ++ (span ++ [c]) ++ rest = a ++ span ++ c :: rest := by simp
      rwa [htext] at hlater

/-! ## The link of a clause -/

/-- What a span is kept for is the first of its links that leads to a page. -/
lemma findSome?_pageHop (span : Str) :
    (extractWikilinks span).findSome? pageHop =
      (linkParts span).1.findSome? fun p => pageOf p.2 := by
  rw [extractWikilinks_eq]
  induction (linkParts span).1 with
  | nil => rfl
  | cons p ps ih =>
    rw [List.flatMap_cons, List.findSome?_append, ih, List.findSome?_cons, pageOf]
    rcases readLink p.2 with _ | link
    · simp
    · rcases hhop : pageHop link with _ | target <;> simp [hhop]

/-- The first link of a span to a page leads there. -/
lemma exists_firstPageLink_iff {target : Str} :
    (extractWikilinks span).findSome? pageHop = some target ↔
      ∃ u inner, FirstPageLink span u inner ∧ pageOf inner = some target := by
  rw [findSome?_pageHop, List.findSome?_eq_some_iff]
  constructor
  · rintro ⟨ps, ⟨b, inner⟩, qs, hparts, hpage, hnone⟩
    have hwhole : linkParts span = (ps ++ (b, inner) :: qs, (linkParts span).2) := by rw [← hparts]
    exact ⟨_, inner, ⟨by simp [hpage], ps, b, qs, _, hwhole, rfl, hnone⟩, hpage⟩
  · rintro ⟨u, inner, ⟨-, ps, b, qs, rest, hparts, -, hnone⟩, hpage⟩
    exact ⟨ps, (b, inner), qs, by rw [hparts], hpage, hnone⟩

/-- A link to a page comes first, or one before it does. -/
lemma PageLinkAt.exists_first {text u inner : Str} (h : PageLinkAt text u inner) :
    ∃ v inner', FirstPageLink text v inner' := by
  obtain ⟨hpage, ps, b, qs, rest, hparts, -⟩ := h
  obtain ⟨target, htarget⟩ : ∃ t, (extractWikilinks text).findSome? pageHop = some t := by
    rw [← Option.isSome_iff_exists, findSome?_pageHop, List.findSome?_isSome_iff, hparts]
    exact ⟨(b, inner), by simp, hpage⟩
  obtain ⟨v, inner', hfirst, -⟩ := exists_firstPageLink_iff.mp htarget
  exact ⟨v, inner', hfirst⟩

/-- The clauses of a page are its stretches with a link to a page that say enough and not too
much. -/
lemma mem_clausesOf_iff {c : Clause} : c ∈ clausesOf body ↔
    ∃ before span after u inner, IsSpan body before span after ∧ FirstPageLink span u inner ∧
      Admissible span ∧ pageOf inner = some c.target ∧ c.text = clauseText span ∧
        c.at' = len before := by
  have hspans : ∀ n s, (n, s) ∈ spansFrom 0 [] body ↔ ∃ before after, n = len before ∧
      IsSpan body before s after := by
    intro n s
    have hall := @mem_spansFrom_iff [] [] body 0 n rfl (by simp) (by simp) s
    simpa using hall
  simp only [clausesOf, List.mem_filterMap, Prod.exists, hspans, pushClause,
    Option.bind_eq_some_iff, exists_firstPageLink_iff, Option.ite_none_right_eq_some]
  constructor
  · rintro ⟨_, s, ⟨before, after, rfl, hspan⟩, target, ⟨u, inner, hfirst, hpage⟩, hlen, heq⟩
    obtain rfl := Option.some.inj heq
    exact ⟨before, s, after, u, inner, hspan, hfirst, hlen, hpage, rfl, rfl⟩
  · rintro ⟨before, s, after, u, inner, hspan, hfirst, hlen, hpage, htext, hat⟩
    refine ⟨len before, s, ⟨before, after, rfl, hspan⟩, c.target, ⟨u, inner, hfirst, hpage⟩,
      hlen, ?_⟩
    rw [← htext, ← hat]

/-! ## The stretch of a link -/

/-- A text from a link on. -/
lemma PageLinkAt.eq {text u inner : Str} (h : PageLinkAt text u inner) :
    ∃ y, text = u ++ written inner ++ y := by
  obtain ⟨-, ps, b, qs, rest, hparts, rfl⟩ := h
  have hjoin : rejoin ['[', '['] [']', ']'] (linkParts text).1 (linkParts text).2 = text :=
    rejoin_enclosures (by simp) (by simp)
  rw [hparts] at hjoin
  refine ⟨rejoin ['[', '['] [']', ']'] qs rest, ?_⟩
  rw [← hjoin, rejoin_append_cons]
  simp [written]

/-- No link that stands in a stretch has a mark in it. -/
lemma HoldsLink.unbroken {u inner : Str} (h : HoldsLink body u inner before span) :
    ∀ c ∈ inner, isBreak c = false := by
  obtain ⟨after, hspan⟩ := h.isSpan
  obtain ⟨x, y, -, rfl⟩ := h.holds
  exact fun c hc => hspan.unbroken c (by simp [written, hc])

/-- The stretch at the end of a text. -/
lemma exists_lastSpan (u : Str) : ∃ a x, u = a ++ x ∧ (∀ c ∈ x, isBreak c = false) ∧
    ∀ c ∈ a.getLast?, isBreak c = true := by
  induction u using List.reverseRecOn with
  | nil => exact ⟨[], [], rfl, by simp, by simp⟩
  | append_singleton u c ih =>
    by_cases hc : isBreak c = true
    · exact ⟨u ++ [c], [], by simp, by simp, by simpa using hc⟩
    · obtain ⟨a, x, rfl, hx, ha⟩ := ih
      refine ⟨a, x ++ [c], by simp, ?_, ha⟩
      intro d hd
      rcases List.mem_append.mp hd with hd | hd
      · exact hx d hd
      · rw [List.mem_singleton.mp hd]
        simpa using hc

/-- The stretch at the head of a text. -/
lemma exists_firstSpan (y : Str) : ∃ v after, y = v ++ after ∧ (∀ c ∈ v, isBreak c = false) ∧
    ∀ c ∈ after.head?, isBreak c = true := by
  refine ⟨y.takeWhile fun c => !isBreak c, y.dropWhile fun c => !isBreak c,
    List.takeWhile_append_dropWhile.symm, fun c hc => ?_, fun c hc => ?_⟩
  · simpa using List.mem_takeWhile_imp hc
  · have hnot := List.head?_dropWhile_not (fun c => !isBreak c) y
    rw [hc] at hnot
    simpa using hnot

/-- Marks are no brackets. -/
lemma not_bracket_of_isBreak {c : Char} (h : isBreak c = true) :
    c ∉ ['[', '['] ∧ c ∉ [']', ']'] := by
  constructor
  · intro hmem
    obtain rfl : c = '[' := by simpa using hmem
    exact absurd h (by decide)
  · intro hmem
    obtain rfl : c = ']' := by simpa using hmem
    exact absurd h (by decide)

/-- A link without a mark in it stands in a stretch, the scan of which finds it. -/
lemma PageLinkAt.exists_holdsLink {u inner : Str} (h : PageLinkAt body u inner)
    (hinner : ∀ c ∈ inner, isBreak c = false) :
    ∃ before span x, HoldsLink body u inner before span ∧ PageLinkAt span x inner := by
  obtain ⟨y, hbody⟩ := h.eq
  obtain ⟨hpage, ps, b, qs, rest, hparts, hu⟩ := h
  obtain ⟨before, x, rfl, hx, hopened⟩ := exists_lastSpan u
  obtain ⟨v, after, rfl, hv, hclosed⟩ := exists_firstSpan y
  have hfirst : ∀ p ∈ ps ++ (b, inner) :: qs, FirstAt ['[', '['] p.1 ∧ FirstAt [']', ']'] p.2 := by
    intro p hp
    have hmem : p ∈ (linkParts body).1 := by rwa [hparts]
    exact firstAt_of_mem_enclosures (by simp) (by simp) hmem
  obtain ⟨hb, hi⟩ := hfirst (b, inner) (by simp)
  -- the scan sets in at the beginning of the stretch
  obtain ⟨ps', b', hx', hps', hb'⟩ := exists_rejoin_of_append (o := ['[', '[']) (c := [']', ']'])
    (by simp) (by simp) (by simp) (fun p hp => hfirst p (List.mem_append_left _ hp)) hb
    (fun d hd => not_bracket_of_isBreak (hopened d hd)) hu.symm
  have hspan : IsSpan body before (x ++ written inner ++ v) after := by
    refine ⟨by rw [hbody]; simp, ?_, hopened, hclosed⟩
    intro c hc
    simp only [written, List.mem_append] at hc
    rcases hc with (hc | (hc | hc) | hc) | hc
    · exact hx c hc
    · obtain rfl : c = '[' := by simpa using hc
      decide
    · exact hinner c hc
    · obtain rfl : c = ']' := by simpa using hc
      decide
    · exact hv c hc
  have hparts' : linkParts (x ++ written inner ++ v) =
      (ps' ++ (b', inner) :: (linkParts v).1, (linkParts v).2) := by
    have htext : x ++ written inner ++ v = rejoin ['[', '['] [']', ']']
        (ps' ++ (b', inner) :: (linkParts v).1) (linkParts v).2 := by
      have hv' : rejoin ['[', '['] [']', ']'] (linkParts v).1 (linkParts v).2 = v :=
        rejoin_enclosures (by simp) (by simp)
      rw [rejoin_append_cons, hv', hx']
      simp [written]
    rw [linkParts, htext]
    refine enclosures_rejoin (by simp) (by simp) ?_ ?_ ?_
    · intro p hp
      rcases List.mem_append.mp hp with hp | hp
      · exact hps' p hp
      · rcases List.mem_cons.mp hp with rfl | hp
        · exact ⟨hb', hi⟩
        · exact firstAt_of_mem_enclosures (by simp) (by simp) hp
    · exact unclosed_enclosures (by simp) (by simp) (Nat.lt_succ_self _)
    · exact Nat.lt_succ_of_le (length_le_length_rejoin (by simp))
  exact ⟨before, _, x, ⟨⟨after, hspan⟩, x, v, rfl, rfl⟩,
    hpage, ps', b', _, _, hparts', hx'⟩

/-- A link to a page is kept, unless a mark in it keeps it out of every stretch and nothing else
leads to the page. -/
lemma PageLinkAt.kept_iff {u inner : Str} (h : PageLinkAt body u inner) :
    ((∃ before span, HoldsLink body u inner before span ∧ ¬ Admissible span) ∨
      (∃ c ∈ clausesOf body, pageOf inner = some c.target) ∨
        ∃ c ∈ clausesOf body, ∃ before span, HoldsLink body u inner before span ∧
          c.at' = len before) ↔
      ((∃ c ∈ inner, isBreak c = true) →
        ∃ before span after v inner', IsSpan body before span after ∧ Admissible span ∧
          FirstPageLink span v inner' ∧ pageOf inner' = pageOf inner) := by
  constructor
  · rintro hkept ⟨d, hd, hbreak⟩
    have hout : ∀ before span, ¬ HoldsLink body u inner before span := by
      intro before span hholds
      rw [hholds.unbroken d hd] at hbreak
      cases hbreak
    rcases hkept with ⟨before, span, hholds, -⟩ | ⟨c, hc, htarget⟩ | ⟨c, -, before, span, hholds, -⟩
    · exact absurd hholds (hout before span)
    · obtain ⟨before, span, after, v, inner', hspan, hfirst, hlen, hpage, -, -⟩ :=
        mem_clausesOf_iff.mp hc
      exact ⟨before, span, after, v, inner', hspan, hlen, hfirst, hpage.trans htarget.symm⟩
    · exact absurd hholds (hout before span)
  · intro helse
    by_cases hbreak : ∃ c ∈ inner, isBreak c = true
    · obtain ⟨before, span, after, v, inner', hspan, hlen, hfirst, hpage⟩ := helse hbreak
      obtain ⟨target, htarget⟩ := Option.isSome_iff_exists.mp hfirst.1
      refine .inr (.inl ⟨⟨target, clauseText span, len before⟩, ?_, by rw [← hpage, htarget]⟩)
      exact mem_clausesOf_iff.mpr
        ⟨before, span, after, v, inner', hspan, hfirst, hlen, htarget, rfl, rfl⟩
    · push Not at hbreak
      obtain ⟨before, span, x, hholds, hlink⟩ :=
        h.exists_holdsLink fun c hc => by simpa using hbreak c hc
      by_cases hlen : Admissible span
      · obtain ⟨after, hspan⟩ := hholds.isSpan
        obtain ⟨v, inner', hfirst⟩ := hlink.exists_first
        obtain ⟨target, htarget⟩ := Option.isSome_iff_exists.mp hfirst.1
        refine .inr (.inr ⟨⟨target, clauseText span, len before⟩, ?_, before, span, hholds, rfl⟩)
        exact mem_clausesOf_iff.mpr
          ⟨before, span, after, v, inner', hspan, hfirst, hlen, htarget, rfl, rfl⟩
      · exact .inl ⟨before, span, hholds, hlen⟩

end

/-! ## Regions -/

/-- The regions of facts are regions. -/
lemma exists_found_of_mem {events : List ParseEvent} {r : FactRegion} (h : r ∈ factRegions events) :
    ∃ f ∈ foundRegions events, f.start = r.start ∧ f.stop = r.stop := by
  obtain ⟨ev, hev, hr⟩ := List.mem_filterMap.mp h
  obtain ⟨f, hf, hid⟩ := Option.bind_eq_some_iff.mp hr
  obtain ⟨id, -, rfl⟩ := Option.map_eq_some_iff.mp hid
  exact ⟨f, List.mem_filterMap.mpr ⟨ev, hev, hf⟩, rfl, rfl⟩

/-- The regions of facts in a layout stand one behind the other. -/
lemma pairwise_factRegions (pos : ℕ) (ts : List Token) :
    (factRegions (layoutEvents pos ts)).Pairwise fun r r' => r.stop ≤ r'.start := by
  induction ts generalizing pos with
  | nil => exact .nil
  | cons t ts ih =>
    have hlater := ih (pos + len t.source)
    rw [factRegions, layoutEvents, List.filterMap_cons]
    rcases hfact : factRegion (t.event pos) with _ | r
    · exact hlater
    · refine List.pairwise_cons.mpr ⟨fun r' hr' => ?_, hlater⟩
      obtain ⟨f, hf, hid⟩ := Option.bind_eq_some_iff.mp hfact
      obtain ⟨id, -, rfl⟩ := Option.map_eq_some_iff.mp hid
      obtain ⟨g, hg, hstart, -⟩ := exists_found_of_mem hr'
      obtain ⟨T₁, spec, text, T₂, -, hg⟩ := exists_tokens_of_found hg
      have hspan := congrArg Prod.snd (span_of_event hf)
      have hat := congrArg FoundRegion.start hg
      dsimp only [FoundRegion.span] at hspan hat ⊢
      omega

/-- Regions that stand apart. -/
structure Apart (regions : List FactRegion) : Prop where
  nonempty : ∀ r ∈ regions, r.start < r.stop
  disjoint : ∀ r ∈ regions, ∀ r' ∈ regions, r = r' ∨ r.stop ≤ r'.start ∨ r'.stop ≤ r.start

/-- The regions of a page stand apart. -/
lemma apart_factRegions (body : Str) : Apart (factRegions (parseEvents body)) := by
  rw [parseEvents_eq]
  constructor
  · intro r hr
    obtain ⟨f, hf, hstart, hstop⟩ := exists_found_of_mem hr
    obtain ⟨T₁, spec, text, T₂, -, rfl⟩ := exists_tokens_of_found hf
    have hlen := len_regionEnd
    rw [← hstart, ← hstop]
    simp only [Token.source, len_append, hlen]
    omega
  · have hpair : (factRegions (layoutEvents 0 (tokens body))).Pairwise fun r r' =>
        r = r' ∨ r.stop ≤ r'.start ∨ r'.stop ≤ r.start :=
      (pairwise_factRegions 0 (tokens body)).imp fun h => Or.inr (Or.inl h)
    have hsymm : Std.Symm fun r r' : FactRegion =>
        r = r' ∨ r.stop ≤ r'.start ∨ r'.stop ≤ r.start := by
      refine ⟨?_⟩
      rintro r r' (rfl | h | h)
      · exact .inl rfl
      · exact .inr (.inr h)
      · exact .inr (.inl h)
    intro r hr r' hr'
    refine List.Pairwise.forall_of_forall ?_ hpair hr hr'
    exact fun r _ => Or.inl rfl

/-- Regions that hold one place are one. -/
lemma Apart.eq_of_holds {regions : List FactRegion} (h : Apart regions) {r r' : FactRegion}
    (hr : r ∈ regions) (hr' : r' ∈ regions) {x : ℕ} (hx : r.start ≤ x ∧ x < r.stop)
    (hx' : r'.start ≤ x ∧ x < r'.stop) : r = r' := by
  rcases h.disjoint r hr r' hr' with heq | hle | hle
  · exact heq
  · omega
  · omega

lemma holds_iff {r : FactRegion} {at' : ℕ} : r.holds at' = true ↔ r.start ≤ at' ∧ at' < r.stop := by
  simp [FactRegion.holds]

/-- What is beside a place that has a region of the fact in front of it or around it. -/
lemma covered_iff {regions : List FactRegion} (h : Apart regions) {at' : ℕ} {r : FactRegion}
    (hr : r ∈ regions) (hstop : at' < r.stop) :
    (∀ id, id ∈ coveredFacts regions at' ↔ id = r.factId) ↔ OnlyBeside regions at' r.factId := by
  rcases hfind : regions.find? fun r => r.holds at' with _ | r₀
  · -- in the open
    have hopen : ∀ r ∈ regions, r.holds at' = false := by simpa using hfind
    have hstart : at' < r.start := by
      have hout := hopen r hr
      rw [← Bool.not_eq_true, holds_iff] at hout
      omega
    rcases hafter : (regions.filter fun r => at' < r.start).argmin FactRegion.start with _ | a
    · rw [List.argmin_eq_none, List.filter_eq_nil_iff] at hafter
      exact absurd hstart (by simpa using hafter r hr)
    obtain ⟨ha, hastart⟩ := List.mem_filter.mp (List.argmin_mem hafter)
    have hamin : ∀ r ∈ regions, at' < r.start → a.start ≤ r.start := fun r hr hat =>
      List.le_of_mem_argmin (List.mem_filter.mpr ⟨hr, by simpa using hat⟩) hafter
    have hcovered : ∀ id, id ∈ coveredFacts regions at' ↔
        (∃ b, (regions.filter fun r => r.stop ≤ at').reverse.argmax FactRegion.stop = some b ∧
          b.factId = id) ∨ a.factId = id := by
      intro id
      simp only [coveredFacts, hfind, hafter, List.map_append, List.mem_append, List.mem_map,
        Option.mem_toList, Option.some.injEq, exists_eq_left']
    simp only [hcovered]
    constructor
    · intro hall
      refine .inr ⟨hopen, fun r₁ hr₁ hle hmax => ?_, fun r₁ hr₁ hlt hmin => ?_⟩
      · rcases hbefore : (regions.filter fun r => r.stop ≤ at').reverse.argmax FactRegion.stop
          with _ | b
        · rw [List.argmax_eq_none, List.reverse_eq_nil_iff, List.filter_eq_nil_iff] at hbefore
          exact absurd hle (by simpa using hbefore r₁ hr₁)
        · have hle₁ := List.le_of_mem_argmax (a := r₁) (by simpa using ⟨hr₁, hle⟩) hbefore
          obtain ⟨hb, hble⟩ : b ∈ regions ∧ b.stop ≤ at' := by
            simpa using List.argmax_mem hbefore
          have hbmax := hmax b hb hble
          have hne := h.nonempty b hb
          have hne₁ := h.nonempty r₁ hr₁
          have heq : b = r₁ := @Apart.eq_of_holds _ h b r₁ hb hr₁ (b.stop - 1) (by omega) (by omega)
          exact (hall r₁.factId).mp (.inl ⟨b, hbefore, by rw [heq]⟩)
      · have hle := hamin r₁ hr₁ hlt
        have hle₁ := hmin a ha (by simpa using hastart)
        have hne := h.nonempty a ha
        have hne₁ := h.nonempty r₁ hr₁
        have heq : a = r₁ := @Apart.eq_of_holds _ h a r₁ ha hr₁ a.start (by omega) (by omega)
        exact (hall r₁.factId).mp (.inr (by rw [heq]))
    · rintro (⟨r₁, hr₁, hholds, -⟩ | ⟨-, hbefore, hnext⟩)
      · rw [hopen r₁ hr₁] at hholds
        cases hholds
      · have haid := hnext a ha (by simpa using hastart) hamin
        refine fun id => ⟨?_, fun heq => .inr (haid.trans heq.symm)⟩
        rintro (⟨b, hb, rfl⟩ | rfl)
        · obtain ⟨hmem, hble⟩ : b ∈ regions ∧ b.stop ≤ at' := by simpa using List.argmax_mem hb
          refine hbefore b hmem hble fun r' hr' hle => ?_
          exact List.le_of_mem_argmax (a := r') (by simpa using ⟨hr', hle⟩) hb
        · exact haid
  · -- in a region
    have hmem := List.mem_of_find?_eq_some hfind
    have hholds : r₀.holds at' = true := by simpa using List.find?_some hfind
    have hone : (∀ id, id ∈ [r₀.factId] ↔ id = r.factId) ↔ r₀.factId = r.factId := by
      simp only [List.mem_singleton]
      exact ⟨fun hall => (hall _).mp rfl, fun heq id => by rw [heq]⟩
    simp only [coveredFacts, hfind, hone]
    constructor
    · exact fun heq => .inl ⟨r₀, hmem, hholds, heq⟩
    · rintro (⟨r₁, hr₁, hholds₁, hid⟩ | ⟨hnone, -⟩)
      · rw [h.eq_of_holds hmem hr₁ (holds_iff.mp hholds) (holds_iff.mp hholds₁), hid]
      · rw [hnone r₀ hmem] at hholds
        cases hholds

/-! ## A page -/

/-- Links inside facts stand for these alone and every link has its clause, exactly when a stretch
with a link inside a fact begins beside that fact alone and a link with a mark in it leads where a
stretch leads first. -/
theorem links_have_their_facts_iff (body : Str) :
    LinksHaveTheirFacts body ↔ MarksStandApart body := by
  have halone : ∀ before span u inner r, LinkInFact body before span u inner r →
      ((∀ c ∈ clausesOf body, c.at' = len before →
        ∀ id, id ∈ coveredFacts (factRegions (parseEvents body)) c.at' ↔ id = r.factId) ↔
      (Admissible span →
        OnlyBeside (factRegions (parseEvents body)) (len before) r.factId)) := by
    intro before span u inner r hlink
    obtain ⟨after, hspan⟩ := hlink.isSpan
    have hstop : len before < r.stop := by
      have hlen := hlink.to_stop
      have hpos := Char.utf8Size_pos '['
      simp only [len_append, written, len_cons] at hlen
      omega
    have hcovered := covered_iff (apart_factRegions body) hlink.fact hstop
    constructor
    · intro hall hlen
      obtain ⟨target, htarget⟩ := Option.isSome_iff_exists.mp hlink.first.1
      refine hcovered.mp (hall ⟨target, clauseText span, len before⟩ ?_ rfl)
      exact mem_clausesOf_iff.mpr
        ⟨before, span, after, u, inner, hspan, hlink.first, hlen, htarget, rfl, rfl⟩
    · intro hbeside c hc hat
      obtain ⟨before', span', after', -, -, hspan', -, hlen, -, -, hat'⟩ := mem_clausesOf_iff.mp hc
      obtain ⟨-, rfl⟩ := hspan.unique hspan' (hat.symm.trans hat')
      rw [hat]
      exact hcovered.mpr (hbeside hlen)
  constructor
  · intro h
    refine ⟨fun before span u inner r hlink => ?_, fun u inner hlink => ?_⟩
    · exact (halone before span u inner r hlink).mp (h.alone before span u inner r hlink)
    · exact hlink.kept_iff.mp (h.kept u inner hlink)
  · intro h
    refine ⟨fun before span u inner r hlink => ?_, fun u inner hlink => ?_⟩
    · exact (halone before span u inner r hlink).mpr (h.beside before span u inner r hlink)
    · exact hlink.kept_iff.mpr (h.elsewhere u inner hlink)

/-- Where somebody lives. -/
def home : FactId := ⟨"01890000-0000-7000-8000-000000000001".toList, by decide⟩

/-- Where somebody works. -/
def work : FactId := ⟨"01890000-0000-7000-8000-000000000002".toList, by decide⟩

/-- A stretch that begins at the end of one fact and runs into the next. -/
def acrossFacts : Str :=
  "{{/}} {{f=01890000-0000-7000-8000-000000000002}}Lavora [[bob/lavoro|in banca]]{{/}}".toList

/-- The first fact, up to the dot at its end. -/
def upToTheDot : Str :=
  "{{f=01890000-0000-7000-8000-000000000001}}Bob vive a Roma con la famiglia.".toList

/-- The dot at the end of a fact is followed by its marker, so that a clause begins inside the fact:
the link of the next one stands for it. -/
theorem next_link_is_the_neighbours : ¬ LinksHaveTheirFacts (upToTheDot ++ acrossFacts) := by
  intro h
  have hspan : IsSpan (upToTheDot ++ acrossFacts) upToTheDot acrossFacts [] := by
    have hall : (acrossFacts.all fun c => !isBreak c) = true := by decide +kernel
    have hdot : upToTheDot.getLast? = some '.' := by decide +kernel
    refine ⟨(List.append_nil _).symm, fun c hc => ?_, fun c hc => ?_, by simp⟩
    · simpa using List.all_eq_true.mp hall c hc
    · rw [hdot] at hc
      obtain rfl := Option.some.inj hc
      decide
  have hlink : LinkInFact (upToTheDot ++ acrossFacts) upToTheDot acrossFacts
      "{{/}} {{f=01890000-0000-7000-8000-000000000002}}Lavora ".toList
      "bob/lavoro|in banca".toList ⟨80, 157, work⟩ := by
    refine ⟨⟨[], hspan⟩,
      ⟨by decide +kernel, [], _, [], "{{/}}".toList, by decide +kernel, rfl, by simp⟩,
      by decide +kernel, by decide +kernel, by decide +kernel⟩
  have hkept : ∃ c ∈ clausesOf (upToTheDot ++ acrossFacts), c.at' = len upToTheDot := by
    decide +kernel
  obtain ⟨c, hc, hat⟩ := hkept
  have hcovered : home ∈ coveredFacts
      (factRegions (parseEvents (upToTheDot ++ acrossFacts))) (len upToTheDot) := by
    decide +kernel
  have hsame := (h.alone _ _ _ _ _ hlink c hc hat home).mp (hat ▸ hcovered)
  exact absurd hsame (by decide)

/-- A link with a dot in its alias has no clause. -/
example :
    clausesOf "Ne parla volentieri con il medico [[bob/salute|Dr. Rossi]] da anni".toList = [] := by
  decide +kernel

end LinkKey

end Mwe
