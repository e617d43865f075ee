import MweCore.Compiler.Leaf
import MweCore.Lib.Solid
import MweCore.Promote.Retarget

/-!
# Links that are appended

Links that a page should have and has not are written at its foot, and the next scan is to find
them.  The scan reads the foot after the prose: brackets that the prose leaves open take the first
link of the foot for their inside.  `appended_walkable_iff` says that nothing else goes wrong.  The
links the page had are found as before, and the foot is complete unless the open brackets take a
link in that neither another link of the foot nor the open one itself leads to.
-/

namespace Mwe

open Str Search

namespace Compiler

open Planner Promote

/-! ## The last step of a page -/

/-- A page with the links at its foot that it should have and has not. -/
def withMissingRails (rails : List Str) (body : Str) : Str :=
  appendMissingRails body (missingRails rails body)

/-- Where a recommended link leads. -/
def railAddress (rail : Str) : Option (Str × Str) := (extractWikilinks rail).head?.bind linkAddress

/-- What the link to a planned page encloses. -/
def railInner (page : PagePlan) : Str := page.wikiId ++ '/' :: stemOf page.pagePath

/-- A page whose wiki and name hold no brackets. -/
def Bracketless (page : PagePlan) : Prop := '[' ∉ railInner page ∧ ']' ∉ railInner page

/-- What stands after the brackets that a text leaves open. -/
def leftOpen (body : Str) : Option Str :=
  (splitOnce ['[', '['] (linkParts body).2).map Prod.snd

/-- Where a link that is not closed leads, when it is written up to its bar. -/
def halfWritten (inner : Str) : Option (Str × Str) :=
  if '|' ∈ inner then (readLink inner).bind linkAddress else none

/-- What the last step of a page is for. -/
structure Walkable (rails : List Str) (body : Str) : Prop where
  /-- No link is missing afterwards. -/
  found : missingRails rails (withMissingRails rails body) = []
  /-- The links that were there still are. -/
  kept : extractWikilinks body <+: extractWikilinks (withMissingRails rails body)
  /-- There is nothing left for another step. -/
  again : withMissingRails rails (withMissingRails rails body) = withMissingRails rails body

/-- The first link that the text does not have is not lost in open brackets. -/
def FirstIsSafe (rails : List Str) (body : Str) : Prop :=
  ∀ before first after address, rails = before ++ first :: after →
    (∀ rail ∈ before, ∀ a, railAddress rail = some a → a ∈ linkedAddresses body) →
    railAddress first = some address → address ∉ linkedAddresses body →
    leftOpen body = none ∨ (leftOpen body).bind halfWritten = some address ∨
      ∃ rail ∈ after, railAddress rail = some address

/-! ## One link -/

/-- What a wiki and a page may be called has no brackets. -/
lemma bracketless_of_isSafePagePath {page : PagePlan} {w : WikiId} (hwiki : page.wikiId = w.val)
    (hpath : isSafePagePath page.pagePath = true) : Bracketless page := by
  have hplain : ∀ c ∈ railInner page, isPageChar c = true ∨ c = '/' ∨ isSlugChar c = true := by
    intro c hc
    rw [railInner, hwiki] at hc
    rcases List.mem_append.mp hc with hc | hc
    · exact .inr (.inr (isSlugChar_of_mem hc))
    · rcases List.mem_cons.mp hc with rfl | hc
      · exact .inr (.inl rfl)
      · exact (mem_of_isSafePagePath hpath (mem_of_mem_stemOf hc)).imp_right Or.inl
  exact ⟨fun h => ne_of_isPageChar (hplain _ h) (by decide) rfl,
    fun h => ne_of_isPageChar (hplain _ h) (by decide) rfl⟩

/-- Where a link leads is read before its bar. -/
lemma exists_of_linkAddress {inner : Str} {address : Str × Str}
    (h : (readLink inner).bind linkAddress = some address) :
    ∃ wiki page, inner.takeWhile (· ≠ '|') = wiki ++ '/' :: page ∧
      address = (trim wiki, stemOf (trim page)) := by
  obtain ⟨link, hread, haddress⟩ := Option.bind_eq_some_iff.mp h
  rw [readLink] at hread
  rcases hcut : splitOnce ['/'] (inner.takeWhile (· ≠ '|')) with _ | ⟨wiki, page⟩
  · simp only [hcut, Option.ite_none_left_eq_some, Option.some.injEq] at hread
    rw [← hread.2] at haddress
    simp [linkAddress] at haddress
  · simp only [hcut, Option.ite_none_left_eq_some, Option.some.injEq] at hread
    rw [← hread.2] at haddress
    refine ⟨wiki, page, by simpa using splitOnce_append (by simp) hcut |>.symm, ?_⟩
    obtain ⟨stem, hstem, hsome⟩ := Option.bind_eq_some_iff.mp haddress
    obtain ⟨p, hp, rfl⟩ := Option.map_eq_some_iff.mp hstem
    dsimp only at hp
    obtain ⟨hpage, -⟩ := Option.filter_eq_some_iff.mp hp
    obtain rfl := Option.some.inj hpage
    split_ifs at hsome
    exact (Option.some.inj hsome).symm

/-- Trimming leaves the brackets. -/
lemma bracket_mem_trim_iff {s : Str} : '[' ∈ trim s ↔ '[' ∈ s := by
  have hsolid : ∀ t : Str, '[' ∈ solid t ↔ '[' ∈ t := fun t => by
    rw [solid, List.mem_filter]
    exact and_iff_left (by decide)
  rw [← hsolid, solid_trim, hsolid]

/-- So does taking the ending off. -/
lemma bracket_mem_stemOf_iff {page : Str} : '[' ∈ stemOf page ↔ '[' ∈ page := by
  conv_rhs => rw [← stemOf_append_mdOf page, List.mem_append]
  refine ⟨Or.inl, fun h => h.elim id fun h => ?_⟩
  exact absurd (mem_mdOf h) (by decide)

/-- Where a link leads has the brackets that stand before its bar. -/
lemma bracket_mem_address_iff {inner : Str} {address : Str × Str}
    (h : (readLink inner).bind linkAddress = some address) :
    '[' ∈ address.1 ∨ '[' ∈ address.2 ↔ '[' ∈ inner.takeWhile (· ≠ '|') := by
  obtain ⟨wiki, page, hhead, rfl⟩ := exists_of_linkAddress h
  rw [hhead, bracket_mem_trim_iff, bracket_mem_stemOf_iff, bracket_mem_trim_iff]
  simp

/-- Open brackets lead where they are written to, or to nothing that a link leads to. -/
lemma swallowed_iff {tail inner : Str} {address : Str × Str} (hinner : '[' ∉ inner)
    (haddress : (readLink inner).bind linkAddress = some address) :
    (readLink (tail ++ "\n\n[[".toList ++ inner)).bind linkAddress = some address ↔
      halfWritten tail = some address := by
  rw [halfWritten]
  split_ifs with hbar
  · obtain ⟨a, b, rfl⟩ := List.append_of_mem hbar
    have hsame : ∀ t u : Str, readLink (a ++ '|' :: t) = readLink (a ++ '|' :: u) := by
      intro t u
      have htake : ∀ t : Str, (a ++ '|' :: t).takeWhile (· ≠ '|') = a.takeWhile (· ≠ '|') := by
        intro t
        rw [List.takeWhile_append]
        split_ifs with hall
        · rw [List.takeWhile_cons_of_neg (by simp), List.append_nil]
          exact ((List.takeWhile_prefix _).eq_of_length hall).symm
        · rfl
      rw [readLink, htake t, readLink, htake u]
    rw [List.append_assoc, List.append_assoc, List.cons_append, hsame]
  · refine ⟨fun h => ?_, fun h => by cases h⟩
    have hnone : '[' ∉ inner.takeWhile (· ≠ '|') := fun hmem =>
      hinner ((List.takeWhile_prefix _).subset hmem)
    refine absurd ((bracket_mem_address_iff h).mpr ?_)
      (mt (bracket_mem_address_iff haddress).mp hnone)
    rw [List.append_assoc, List.takeWhile_append_of_pos (by
      intro c hc
      simpa using fun h : c = '|' => hbar (h ▸ hc))]
    exact List.mem_append_right _ (by simp)

/-! ## The foot -/

/-- The links after the first one, each with the separator before it. -/
def laterLinks (pages : List PagePlan) : List (Str × Str) :=
  pages.map fun page => (" · ".toList, railInner page)

/-- A foot is a text of links. -/
lemma foot_eq (a : Str) (page : PagePlan) (pages : List PagePlan) :
    a ++ (List.intercalate " · ".toList ((page :: pages).map planPageWikilink) ++ ['\n']) =
      rejoin ['[', '['] [']', ']'] ((a, railInner page) :: laterLinks pages) ['\n'] := by
  induction pages generalizing a page with
  | nil => simp [laterLinks, rejoin, planPageWikilink, railInner]
  | cons p pages ih =>
    have hlater := ih " · ".toList p
    have hjoin : List.intercalate " · ".toList ((page :: p :: pages).map planPageWikilink) =
        planPageWikilink page ++ (" · ".toList ++
          List.intercalate " · ".toList ((p :: pages).map planPageWikilink)) := by
      simp [List.intercalate]
    rw [hjoin, List.append_assoc, List.append_assoc, hlater]
    simp [rejoin, laterLinks, planPageWikilink, railInner]

/-- A text without brackets is closed by the first ones after it. -/
lemma firstAt_close {a : Str} (h : ']' ∉ a) : FirstAt [']', ']'] a := by
  have happ := FirstAt.append_of_notMem (firstAt_nil [']', ']']) h
  rwa [List.append_nil] at happ

/-- A text without brackets is opened by the first ones after it. -/
lemma firstAt_open {a : Str} (h : ¬ ['[', '['] <:+: a) :
    FirstAt ['[', '['] (a ++ "\n\n".toList) := by
  refine FirstAt.append_cons (a := ['\n']) ?_ (by decide) (by simp) h
  exact FirstAt.append_cons (p := []) (firstAt_nil _) (by decide) (by simp) (by simp)

/-- The first link of the foot is found, or the open brackets of the text with it for their
inside. -/
def firstFound (body : Str) (page : PagePlan) : Str :=
  match leftOpen body with
  | none => railInner page
  | some tail => tail ++ "\n\n[[".toList ++ railInner page

/-- What is found in a text with links at its foot. -/
lemma extractWikilinks_append (body : Str) {page : PagePlan} {pages : List PagePlan}
    (h : ∀ p ∈ page :: pages, Bracketless p) :
    extractWikilinks (appendMissingRails body ((page :: pages).map planPageWikilink)) =
      extractWikilinks body ++ ((readLink (firstFound body page)).toList ++
        pages.flatMap fun p => (readLink (railInner p)).toList) := by
  have hlater : ∀ q ∈ laterLinks pages, FirstAt ['[', '['] q.1 ∧ FirstAt [']', ']'] q.2 := by
    intro q hq
    obtain ⟨p, hp, rfl⟩ := List.mem_map.mp hq
    refine ⟨?_, firstAt_close (h p (List.mem_cons_of_mem _ hp)).2⟩
    exact FirstAt.append_cons (p := " ·".toList) (firstAt_nil _) (by decide) (by simp) (by decide)
  have hrest : Unclosed ['[', '['] [']', ']'] ['\n'] := by
    intro before tail hopen
    cases hopen
  obtain ⟨before, hjoin, hfirst⟩ : ∃ before,
      (linkParts body).2 ++ ("\n\n".toList ++
        (List.intercalate " · ".toList ((page :: pages).map planPageWikilink) ++ ['\n'])) =
          rejoin ['[', '['] [']', ']'] ((before, firstFound body page) :: laterLinks pages) ['\n'] ∧
        FirstAt ['[', '['] before ∧ FirstAt [']', ']'] (firstFound body page) := by
    rcases hopen : splitOnce ['[', '['] (linkParts body).2 with _ | ⟨before, tail⟩
    · have hfound : firstFound body page = railInner page := by simp [firstFound, leftOpen, hopen]
      refine ⟨(linkParts body).2 ++ "\n\n".toList, ?_, ?_, ?_⟩
      · rw [hfound, ← foot_eq, List.append_assoc]
      · exact firstAt_open ((splitOnce_eq_none_iff (by simp)).mp hopen)
      · rw [hfound]
        exact firstAt_close (h page List.mem_cons_self).2
    · have hfound : firstFound body page = tail ++ "\n\n[[".toList ++ railInner page := by
        simp [firstFound, leftOpen, hopen]
      refine ⟨before, ?_, firstAt_of_splitOnce (by simp) hopen, ?_⟩
      · rw [foot_eq, ← splitOnce_append (by simp) hopen, hfound]
        simp [rejoin]
      · have hclose := unclosed_enclosures (o := ['[', '[']) (c := [']', ']']) (by simp) (by simp)
          (Nat.lt_succ_self body.length) before tail hopen
        rw [hfound, List.append_assoc]
        refine FirstAt.append_cons (a := "\n[[".toList ++ railInner page) ?_ (by decide) (by simp)
          ((splitOnce_eq_none_iff (by simp)).mp hclose)
        refine firstAt_close fun hmem => ?_
        rcases List.mem_append.mp hmem with hmem | hmem
        · exact absurd hmem (by decide)
        · exact (h page List.mem_cons_self).2 hmem
  have hparts : linkParts (appendMissingRails body ((page :: pages).map planPageWikilink)) =
      ((linkParts body).1 ++ (before, firstFound body page) :: laterLinks pages, ['\n']) := by
    have happ : appendMissingRails body ((page :: pages).map planPageWikilink) = body ++
        ("\n\n".toList ++
          (List.intercalate " · ".toList ((page :: pages).map planPageWikilink) ++ ['\n'])) := by
      simp [appendMissingRails]
    rw [happ]
    refine enclosures_append (by simp) (by simp) rfl hjoin ?_ hrest (Nat.lt_succ_self _)
    exact List.forall_mem_cons.mpr ⟨hfirst, hlater⟩
  rw [extractWikilinks_eq, hparts, extractWikilinks_eq]
  simp [laterLinks, List.flatMap_map]

/-! ## The step -/

lemma extractWikilinks_planPageWikilink {page : PagePlan} (h : Bracketless page) :
    extractWikilinks (planPageWikilink page) = (readLink (railInner page)).toList := by
  have hparts : linkParts (planPageWikilink page) = ([([], railInner page)], []) := by
    have htext : planPageWikilink page =
        rejoin ['[', '['] [']', ']'] [([], railInner page)] [] := by
      simp [rejoin, planPageWikilink, railInner]
    rw [linkParts, htext]
    refine enclosures_rejoin (by simp) (by simp) ?_ ?_ (by simp [rejoin])
    · simpa using ⟨firstAt_nil _, firstAt_close h.2⟩
    · intro before tail hopen
      cases hopen
  rw [extractWikilinks_eq, hparts]
  simp

lemma railAddress_planPageWikilink {page : PagePlan} (h : Bracketless page) :
    railAddress (planPageWikilink page) = (readLink (railInner page)).bind linkAddress := by
  rw [railAddress, extractWikilinks_planPageWikilink h]
  rcases readLink (railInner page) with _ | link <;> rfl

/-- A link is missing when it leads somewhere and the text does not lead there. -/
lemma mem_missingRails_iff {rails : List Str} {body rail : Str} :
    rail ∈ missingRails rails body ↔
      rail ∈ rails ∧ ∃ a, railAddress rail = some a ∧ a ∉ linkedAddresses body := by
  simp [missingRails, railAddress, Option.any_eq_true]

lemma missingRails_eq_nil_iff {rails : List Str} {body : Str} : missingRails rails body = [] ↔
    ∀ rail ∈ rails, ∀ a, railAddress rail = some a → a ∈ linkedAddresses body := by
  simp only [List.eq_nil_iff_forall_not_mem, mem_missingRails_iff]
  push Not
  rfl

/-- Where the first missing link stands among the recommended ones. -/
lemma exists_of_missingRails {rails later : List Str} {body first : Str}
    (h : missingRails rails body = first :: later) : ∃ before after,
      rails = before ++ first :: after ∧ missingRails before body = [] ∧
        (∃ a, railAddress first = some a ∧ a ∉ linkedAddresses body) ∧
          missingRails after body = later := by
  obtain ⟨before, after, rfl, hbefore, hfirst, hafter⟩ := List.filter_eq_cons_iff.mp h
  refine ⟨before, after, rfl, List.filter_eq_nil_iff.mpr hbefore, ?_, hafter⟩
  have hmem : first ∈ missingRails [first] body :=
    List.mem_filter.mpr ⟨List.mem_singleton_self first, hfirst⟩
  exact (mem_missingRails_iff.mp hmem).2

/-- Missing links are links to planned pages when the recommended ones are. -/
lemma exists_pages_of_missingRails {pages : List PagePlan} (hpages : ∀ p ∈ pages, Bracketless p)
    {body first : Str} {later : List Str}
    (h : missingRails (pages.map planPageWikilink) body = first :: later) :
    ∃ page pages', (∀ p ∈ page :: pages', Bracketless p) ∧ first = planPageWikilink page ∧
      later = pages'.map planPageWikilink := by
  rw [missingRails, List.filter_map, List.map_eq_cons_iff] at h
  obtain ⟨page, pages', hfilter, rfl, rfl⟩ := h
  refine ⟨page, pages', fun p hp => hpages p ?_, rfl, rfl⟩
  exact (List.mem_filter.mp (hfilter ▸ hp)).1

/-- Where a text leads with the missing links at its foot. -/
lemma mem_linkedAddresses_append_iff {body : Str} {page : PagePlan} {pages : List PagePlan}
    (h : ∀ p ∈ page :: pages, Bracketless p) {a : Str × Str} :
    a ∈ linkedAddresses (appendMissingRails body ((page :: pages).map planPageWikilink)) ↔
      a ∈ linkedAddresses body ∨ (readLink (firstFound body page)).bind linkAddress = some a ∨
        ∃ rail ∈ pages.map planPageWikilink, railAddress rail = some a := by
  have hlater : (∃ rail ∈ pages.map planPageWikilink, railAddress rail = some a) ↔
      ∃ p ∈ pages, (readLink (railInner p)).bind linkAddress = some a := by
    simp only [List.mem_map, exists_exists_and_eq_and]
    refine exists_congr fun p => and_congr_right fun hp => ?_
    rw [railAddress_planPageWikilink (h p (List.mem_cons_of_mem _ hp))]
  rw [hlater, linkedAddresses, extractWikilinks_append body h]
  simp only [List.filterMap_append, List.mem_append, List.mem_filterMap, List.mem_flatMap,
    Option.mem_toList, Option.bind_eq_some_iff, linkedAddresses]
  refine or_congr_right (or_congr_right ?_)
  constructor
  · rintro ⟨link, ⟨p, hp, hlink⟩, haddress⟩
    exact ⟨p, hp, link, hlink, haddress⟩
  · rintro ⟨p, hp, link, hlink, haddress⟩
    exact ⟨link, ⟨p, hp, hlink⟩, haddress⟩

/-- The first link of the foot leads where it should: brackets are not open before it, or they lead
there too. -/
lemma firstFound_iff {body : Str} {page : PagePlan} (h : Bracketless page) {a : Str × Str}
    (ha : railAddress (planPageWikilink page) = some a) :
    (readLink (firstFound body page)).bind linkAddress = some a ↔
      leftOpen body = none ∨ (leftOpen body).bind halfWritten = some a := by
  rw [railAddress_planPageWikilink h] at ha
  rcases hopen : leftOpen body with _ | tail
  · simp [firstFound, hopen, ha]
  · simp only [firstFound, hopen, swallowed_iff h.1 ha]
    simp

/-- The links of a page stay at the head of its links. -/
lemma kept_withMissingRails {pages : List PagePlan} (hpages : ∀ p ∈ pages, Bracketless p)
    (body : Str) :
    extractWikilinks body <+: extractWikilinks
      (withMissingRails (pages.map planPageWikilink) body) := by
  rw [withMissingRails]
  rcases hmissing : missingRails (pages.map planPageWikilink) body with _ | ⟨first, later⟩
  · exact List.prefix_rfl
  · obtain ⟨page, pages', hplain, rfl, rfl⟩ := exists_pages_of_missingRails hpages hmissing
    have happ := extractWikilinks_append body hplain
    rw [List.map_cons] at happ
    rw [happ]
    exact List.prefix_append _ _

/-- No link is missing afterwards when the first of the missing ones is not lost. -/
lemma found_of_firstIsSafe {pages : List PagePlan} (hpages : ∀ p ∈ pages, Bracketless p)
    {body : Str} (hsafe : FirstIsSafe (pages.map planPageWikilink) body) :
    missingRails (pages.map planPageWikilink)
      (withMissingRails (pages.map planPageWikilink) body) = [] := by
  rcases hmissing : missingRails (pages.map planPageWikilink) body with _ | ⟨first, later⟩
  · rwa [withMissingRails, hmissing]
  · obtain ⟨page, pages', hplain, hpage, hlater⟩ := exists_pages_of_missingRails hpages hmissing
    obtain ⟨before, after, hrails, hbefore, -, hafter⟩ := exists_of_missingRails hmissing
    rw [missingRails_eq_nil_iff]
    intro rail hrail a ha
    rw [withMissingRails, hmissing, hpage, hlater, ← List.map_cons,
      mem_linkedAddresses_append_iff hplain, ← hlater, ← hafter]
    by_cases hold : a ∈ linkedAddresses body
    · exact .inl hold
    · have hmem : rail ∈ first :: later := by
        rw [← hmissing, mem_missingRails_iff]
        exact ⟨hrail, a, ha, hold⟩
      refine .inr ?_
      rcases List.mem_cons.mp hmem with rfl | hmem
      · -- the one that open brackets may take
        rw [hpage] at ha
        have hfirst := @firstFound_iff body page (hplain page List.mem_cons_self) a ha
        rcases hsafe before rail after a hrails (missingRails_eq_nil_iff.mp hbefore)
          (hpage ▸ ha) hold with hnone | hwritten | ⟨other, hother, hsame⟩
        · exact .inl (hfirst.mpr (.inl hnone))
        · exact .inl (hfirst.mpr (.inr hwritten))
        · exact .inr ⟨other, mem_missingRails_iff.mpr ⟨hother, a, hsame, hold⟩, hsame⟩
      · exact .inr ⟨rail, hafter ▸ hmem, ha⟩

/-- The links at the foot of a page are all found, the ones it had still are, and another step
leaves it, exactly when the first of them is not lost in open brackets. -/
theorem appended_walkable_iff {pages : List PagePlan} (hpages : ∀ p ∈ pages, Bracketless p)
    (body : Str) :
    Walkable (pages.map planPageWikilink) body ↔
      FirstIsSafe (pages.map planPageWikilink) body := by
  constructor
  · intro hwalk before first after address hrails hbefore haddress hnew
    have hmissing : missingRails (pages.map planPageWikilink) body =
        first :: missingRails after body := by
      have hfirst : missingRails [first] body = [first] := by
        refine List.filter_eq_self.mpr fun rail hrail => ?_
        have hmem := mem_missingRails_iff.mpr ⟨hrail, address, ?_, hnew⟩
        · exact (List.mem_filter.mp hmem).2
        · rwa [List.mem_singleton.mp hrail]
      have hsplit : missingRails (before ++ ([first] ++ after)) body =
          missingRails before body ++ (missingRails [first] body ++ missingRails after body) := by
        simp only [missingRails, List.filter_append]
      rw [hrails, ← List.singleton_append, hsplit, missingRails_eq_nil_iff.mpr hbefore, hfirst]
      rfl
    obtain ⟨page, pages', hplain, rfl, hafter⟩ := exists_pages_of_missingRails hpages hmissing
    have hfound := missingRails_eq_nil_iff.mp hwalk.found (planPageWikilink page)
      (by rw [hrails]; simp) address haddress
    rw [withMissingRails, hmissing, hafter, ← List.map_cons,
      mem_linkedAddresses_append_iff hplain] at hfound
    rcases hfound with hold | hfirst | ⟨rail, hrail, hlater⟩
    · exact absurd hold hnew
    · exact ((firstFound_iff (hplain page List.mem_cons_self) haddress).mp hfirst).imp_right Or.inl
    · rw [← hafter, mem_missingRails_iff] at hrail
      exact .inr (.inr ⟨rail, hrail.1, hlater⟩)
  · intro hsafe
    have hfound := found_of_firstIsSafe hpages hsafe
    refine ⟨hfound, kept_withMissingRails hpages body, ?_⟩
    conv_lhs => rw [withMissingRails, hfound]
    rfl

/-! ## Open brackets -/

/-- The page of somebody's hobbies. -/
def hobbies : PagePlan where
  slug := "hobbies".toList
  title := "Hobbies".toList
  wikiId := "bob".toList
  pagePath := "hobbies.md".toList

/-- A link that was begun and leads to the page is closed by the one that is appended. -/
theorem appended_walkable_hobbies :
    Walkable ([hobbies].map planPageWikilink) "Ne parla [[bob/hobbies|gli".toList := by
  have hplain : Bracketless hobbies :=
    @bracketless_of_isSafePagePath hobbies ⟨"bob".toList, by decide⟩ rfl (by decide)
  refine (appended_walkable_iff (List.forall_mem_singleton.mpr hplain) _).mpr ?_
  intro before first after address hrails _ haddress _
  obtain ⟨rfl, rfl, rfl⟩ : before = [] ∧ planPageWikilink hobbies = first ∧ after = [] := by
    simpa [List.append_eq_singleton_iff, eq_comm] using hrails.symm
  refine .inr (.inl ?_)
  rw [← haddress]
  decide +kernel

/-- A link that was begun and leads nowhere takes the one that is appended for its inside: the page
is not led to, and another step appends the link again. -/
theorem hobbies_swallowed :
    ¬ Walkable ([hobbies].map planPageWikilink) "Ne parla [[con Bob".toList :=
  fun h => absurd h.found (by decide +kernel)

end Compiler

end Mwe
