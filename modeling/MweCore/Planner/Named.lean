import MweCore.Planner.Placement

/-!
# A page the user named

The deterministic half of the light pass puts each new fact on the page its turn named.  The page
is looked for by its slug alone, in a plan whose keys know nothing of wikis, so two wikis with a
list of the same name get one page between them.  `named_kept_iff` says when a named page keeps
its place: when the one page that has its slug is where the fact means it to be.
-/

namespace Mwe.Planner

open Str

/-- The deterministic half of the light pass. -/
def namedHalf (casing : Casing) (facts : List FactForPage) (foundation : SlugMap PagePlan)
    (registry : ConceptRegistry) (proseLinks : Address → Option (List Str))
    (rails : List (Str × Str)) (now : Str) : CompilationPlan × ConceptRegistry :=
  let blueprint := ingestPlacementBlueprint casing facts
  buildCompilationPlan casing facts foundation blueprint
    { acceptedNew := blueprint.newPages.filterMap vetAccepted } registry proseLinks rails now

/-- Whether a fact means a page by its canonical name, which is not the engine's. -/
structure Names (f : FactForPage) (page : Str) : Prop where
  salience : f.salience ≠ some "high".toList
  target : f.targetPage = some page
  canonical : canonicalPagePath page = some page
  free : isReservedPageStem (stemOf page) = false

/-- The wiki of the first fact that is put on a slug. -/
def firstWiki (facts : List FactForPage) (slug : Str) : Option Str :=
  (facts.find? fun f => namedSlug f == some slug).map FactForPage.sourceWikiId

/-- The registry's entry for a slug; one of the root wiki has moved to the facts' wiki. -/
def homeEntry (facts : List FactForPage) (registry : ConceptRegistry) (slug : Str) :
    Option ConceptRegistryEntry :=
  registry.entries[slug]?.bind fun e =>
    if e.wikiId ≠ rootWiki then some e
    else ((firstWiki facts slug).filter fun w => w ≠ rootWiki).map fun w => { e with wikiId := w }

/-- Where the one page with a slug is: where the foundation has it, else where the registry has it,
else in the wiki of the first fact that is put on it. -/
def homeOf (facts : List FactForPage) (foundation : SlugMap PagePlan) (registry : ConceptRegistry)
    (slug : Str) : Option Address :=
  (foundation[slug]?.map PagePlan.address).or
    (((homeEntry facts registry slug).map fun e => ⟨e.wikiId, e.slug ++ ".md".toList⟩).or
      ((firstWiki facts slug).map fun w => ⟨w, slug ++ ".md".toList⟩))

/-! ## Canonical names -/

section

variable {f : FactForPage} {page slug : Str}

lemma canonicalPagePath_eq_some {raw : Str} (h : canonicalPagePath raw = some page) :
    slugify (stemOf (trim raw)) ≠ [] ∧ page = slugify (stemOf (trim raw)) ++ ".md".toList := by
  unfold canonicalPagePath at h
  dsimp only at h
  split at h
  · cases h
  · split at h
    · cases h
    · next hne => exact ⟨by simpa using hne, (Option.some.inj h).symm⟩

lemma stemOf_append_md (slug : Str) : stemOf (slug ++ ".md".toList) = slug := by
  have hsuffix : ".md".toList.isSuffixOf (slug ++ ".md".toList) = true :=
    List.isSuffixOf_iff_suffix.mpr (List.suffix_append _ _)
  rw [stemOf, stripSuffix, if_pos hsuffix, Option.getD_some, List.length_append,
    Nat.add_sub_cancel, List.take_left]

/-- The characters of a key. -/
lemma isSlugRunChar_of_mem_slugify {s : Str} {c : Char} (h : c ∈ slugify s) : isSlugRunChar c :=
  isSlugRunChar_of_mem_slugRun ((trimMatches_within '_' _).subset h)

lemma toAsciiLowercase_slugify (s : Str) : toAsciiLowercase (slugify s) = slugify s := by
  refine (List.map_congr_left fun c hc => ?_).trans (List.map_id _)
  obtain rfl | ⟨-, hlower⟩ := isSlugRunChar_of_mem_slugify hc
  · rfl
  · exact hlower

/-- A canonical name is its key with an ending. -/
lemma Names.namedSlug_eq (h : Names f page) :
    namedSlug f = some (stemOf page) ∧ page = stemOf page ++ ".md".toList ∧
      slugify (stemOf page) = stemOf page := by
  obtain ⟨hne, hpage⟩ := canonicalPagePath_eq_some h.canonical
  have hstem : stemOf page = slugify (stemOf (trim page)) := by
    conv_lhs => rw [hpage]
    exact stemOf_append_md _
  have hself : slugify (stemOf page) = stemOf page := by rw [hstem, slugify_slugify]
  refine ⟨?_, by rw [hstem]; exact hpage, hself⟩
  rw [namedSlug, if_neg h.salience, h.target, Option.bind_some, placementSlug]
  have hlower : toAsciiLowercase (stemOf page) = stemOf page := by
    rw [hstem, toAsciiLowercase_slugify]
  simp only [hlower, h.free, hself, Bool.false_eq_true, if_false, Bool.or_false]
  rw [if_neg]
  rw [hstem]
  simpa using hne

/-- The key a fact is put on is a key, and not one of the engine's. -/
lemma namedSlug_eq_some (h : namedSlug f = some slug) :
    slugify slug = slug ∧ slug ≠ [] ∧ isReservedPageStem slug = false := by
  unfold namedSlug at h
  split at h
  · cases h
  · obtain ⟨target, -, h⟩ := Option.bind_eq_some_iff.mp h
    unfold placementSlug at h
    dsimp only at h
    split at h
    · cases h
    · split at h
      · cases h
      · next hfree =>
        obtain rfl := Option.some.inj h
        simp only [Bool.or_eq_true, not_or, List.isEmpty_iff, Bool.not_eq_true] at hfree
        exact ⟨slugify_slugify _, hfree.1, hfree.2⟩

/-- A key has no ending to cut. -/
lemma stemOf_slugify (s : Str) : stemOf (slugify s) = slugify s := by
  have hsuffix : ¬ ".md".toList.isSuffixOf (slugify s) = true := fun hmd => by
    have hdot : '.' ∈ slugify s :=
      (List.isSuffixOf_iff_suffix.mp hmd).subset (show '.' ∈ ".md".toList by decide)
    obtain h | ⟨h, -⟩ := isSlugRunChar_of_mem_slugify hdot
    · exact absurd h (by decide)
    · exact absurd h (by decide)
  rw [stemOf, stripSuffix, if_neg hsuffix, Option.getD_none]

/-- A key that is not the engine's is not the name of a card. -/
lemma namesTheCard_slugify {s : Str} (hfree : isReservedPageStem (slugify s) = false) :
    namesTheCard (slugify s) = false := by
  rw [namesTheCard, stemOf_slugify, Bool.or_eq_false_iff, beq_eq_false_iff_ne, beq_eq_false_iff_ne]
  constructor
  · intro h
    rw [h] at hfree
    exact absurd hfree (by decide)
  · intro h
    rw [h] at hfree
    exact absurd hfree (by decide)

/-- A named page is found under its key. -/
lemma resolveSlug_of_key (known : Str → Bool) (hkey : slugify slug = slug)
    (hfree : isReservedPageStem slug = false) :
    resolveSlug known ∅ f ⟨f.factId.val, slug⟩ = slug := by
  have hcard : namesTheCard slug = false := hkey ▸ namesTheCard_slugify (hkey.symm ▸ hfree)
  simp [resolveSlug, redirected, hkey, hcard]

end

/-! ## What the deterministic half places -/

section

variable {casing : Casing} {facts : List FactForPage} {foundation : SlugMap PagePlan}
  {registry : ConceptRegistry} {proseLinks : Address → Option (List Str)}
  {rails : List (Str × Str)} {now : Str} {f : FactForPage} {page slug key : Str}

/-- The pages the deterministic half finds. -/
def namedPages (casing : Casing) (facts : List FactForPage) (foundation : SlugMap PagePlan)
    (registry : ConceptRegistry) (now : Str) : SlugMap PagePlan :=
  let blueprint := ingestPlacementBlueprint casing facts
  pagesThereAre facts foundation blueprint.assignments
    { acceptedNew := blueprint.newPages.filterMap vetAccepted } registry now

/-- Where a named fact lands. -/
def landsNamed (casing : Casing) (pages : SlugMap PagePlan) (f : FactForPage) : Option Str :=
  (namedSlug f).filter fun slug => !(pages[slug]?.any fun page => turnsAway casing page f)

lemma landing_named (hnodup : (facts.map FactForPage.factId).Nodup) (hf : f ∈ facts)
    (hslug : namedSlug f = some slug) (pages : SlugMap PagePlan) (minted : List Str) :
    landing casing (factMap facts) ∅ pages minted ⟨f.factId.val, slug⟩ =
      (landsNamed casing pages f).map fun slug => (f, slug) := by
  obtain ⟨hkey, -, hfree⟩ := namedSlug_eq_some hslug
  rw [landing, getElem?_factMap hnodup hf, Option.bind_some]
  dsimp only
  rw [resolveSlug_of_key _ hkey hfree, hfree, Bool.and_false, if_neg Bool.false_ne_true, landsNamed,
    hslug, Option.filter_some]
  cases pages[slug]?.any fun page => turnsAway casing page f <;> rfl

/-- The assignments land the named facts, each on its page. -/
lemma landings_named (hnodup : (facts.map FactForPage.factId).Nodup) (pages : SlugMap PagePlan) :
    landings casing (factMap facts) ∅ pages []
        (ingestPlacementBlueprint casing facts).assignments =
      facts.filterMap fun f => (landsNamed casing pages f).map fun slug => (f, slug) := by
  have hpart : ∀ (l : List FactForPage) (minted : List Str), (∀ f ∈ l, f ∈ facts) →
      landings casing (factMap facts) ∅ pages minted
          (l.filterMap fun f => (namedSlug f).map fun slug => ⟨f.factId.val, slug⟩) =
        l.filterMap fun f => (landsNamed casing pages f).map fun slug => (f, slug) := by
    intro l
    induction l with
    | nil => exact fun _ _ => rfl
    | cons f l ih =>
      intro minted hl
      have hrest := fun minted => ih minted fun g hg => hl g (List.mem_cons_of_mem _ hg)
      cases hslug : namedSlug f with
      | none => simpa [hslug, landsNamed] using hrest minted
      | some slug =>
        have hland := @landing_named casing _ _ _ hnodup (hl f List.mem_cons_self) hslug pages
          minted
        rw [List.filterMap_cons_some (by rw [hslug]; rfl), landings, hland, List.filterMap_cons]
        cases landsNamed casing pages f with
        | none => exact hrest minted
        | some slug => exact congrArg _ (hrest _)
  exact hpart facts [] fun _ hf => hf

/-- Where the plan has a fact: on the page it names, or else on the card it is reserved for. -/
lemma countAt_namedHalf (hnodup : (facts.map FactForPage.factId).Nodup) (hf : f ∈ facts) :
    countAt (namedHalf casing facts foundation registry proseLinks rails now).1.pages key
        f.factId =
      match landsNamed casing (namedPages casing facts foundation registry now) f with
      | some slug => if slug = key then 1 else 0
      | none =>
        if factBelongsOnACard casing f = true ∧
          identityCardTarget f (namedPages casing facts foundation registry now) = some key then 1
        else 0 := by
  rw [namedHalf, countAt_buildCompilationPlan, placements, countOn_append,
    countOn_fallbacks hnodup hf]
  dsimp only
  rw [landings_named hnodup, countOn_filterMap hnodup hf, any_factId_iff hnodup hf, ← namedPages]
  cases landsNamed casing (namedPages casing facts foundation registry now) f <;> simp

/-- The wiki recorded for a slug is the wiki of the first fact that is put on it. -/
lemma getElem?_slugSourceWiki_named (hnodup : (facts.map FactForPage.factId).Nodup) :
    (slugSourceWiki (factMap facts) ∅ (ingestPlacementBlueprint casing facts).assignments)[slug]? =
      firstWiki facts slug := by
  have hpart : ∀ (l : List FactForPage) (wikis : SlugMap Str), (∀ f ∈ l, f ∈ facts) →
      ((l.filterMap fun f => (namedSlug f).map fun slug => Assignment.mk f.factId.val slug).foldl
        (fun wikis a => (factMap facts)[a.factId]?.elim wikis fun fact =>
          wikis.insertIfNew (redirected ∅ (slugify a.pageSlug)) fact.sourceWikiId)
        wikis)[slug]? = wikis[slug]?.or (firstWiki l slug) := by
    intro l
    induction l with
    | nil => intro wikis _; simp [firstWiki]
    | cons f l ih =>
      intro wikis hl
      have hrest := fun wikis => ih wikis fun g hg => hl g (List.mem_cons_of_mem _ hg)
      cases hslug : namedSlug f with
      | none => simpa [hslug, firstWiki] using hrest wikis
      | some named =>
        have hfound := getElem?_factMap hnodup (hl f List.mem_cons_self)
        have hkey : redirected ∅ (slugify named) = named := by
          simp [redirected, (namedSlug_eq_some hslug).1]
        rw [List.filterMap_cons_some (by rw [hslug]; rfl), List.foldl_cons]
        simp only [hfound, hkey]
        rw [hrest, Option.elim_some, Std.TreeMap.getElem?_insertIfNew]
        simp only [Std.compare_eq_iff_eq]
        by_cases hname : named = slug
        · subst hname
          have hfirst : firstWiki (f :: l) named = some f.sourceWikiId := by
            simp [firstWiki, hslug]
          rw [hfirst]
          cases hwiki : wikis[named]? with
          | none =>
            have hnot : named ∉ wikis := by
              rw [Std.TreeMap.mem_iff_isSome_getElem?, hwiki]
              simp
            simp [hnot]
          | some w =>
            have hin : named ∈ wikis := by
              rw [Std.TreeMap.mem_iff_isSome_getElem?, hwiki]
              rfl
            simp [hin]
        · have hfirst : firstWiki (f :: l) slug = firstWiki l slug := by
            simp [firstWiki, hslug, hname]
          simp [hname, hfirst]
  have hall := hpart facts ∅ fun _ hf => hf
  rw [Std.TreeMap.getElem?_emptyc, Option.none_or] at hall
  rw [← hall, slugSourceWiki]
  congr 2
  funext wikis a
  cases (factMap facts)[a.factId]? <;> rfl

/-- The first fact on a page nobody had is the first that names it. -/
lemma find?_landsNamed (hpage : (namedPages casing facts foundation registry now)[slug]? = none)
    (l : List FactForPage) :
    ((l.filterMap fun f =>
        (landsNamed casing (namedPages casing facts foundation registry now) f).map fun slug =>
          (f, slug)).find? fun x => x.2 == slug).map (fun x => x.1.sourceWikiId) =
      firstWiki l slug := by
  induction l with
  | nil => rfl
  | cons f l ih =>
    have hlands : landsNamed casing (namedPages casing facts foundation registry now) f = some slug ↔
        namedSlug f = some slug := by
      rw [landsNamed, Option.filter_eq_some_iff]
      simp [hpage]
    by_cases hslug : namedSlug f = some slug
    · simp [hlands.mpr hslug, firstWiki, hslug]
    · have hother : landsNamed casing (namedPages casing facts foundation registry now) f ≠ some slug :=
        mt hlands.mp hslug
      have hfirst : firstWiki (f :: l) slug = firstWiki l slug := by simp [firstWiki, hslug]
      rw [List.filterMap_cons, hfirst, ← ih]
      cases hland : landsNamed casing (namedPages casing facts foundation registry now) f with
      | none => rfl
      | some other =>
        have hne : other ≠ slug := fun h => hother (h ▸ hland)
        simp [hne]

/-- The registry's entry for a named slug. -/
lemma getElem?_entriesThereAre_named (hnodup : (facts.map FactForPage.factId).Nodup)
    (hfree : foundation[slug]? = none) (proposals : List NewPage) :
    (entriesThereAre facts foundation (ingestPlacementBlueprint casing facts).assignments
        { acceptedNew := proposals } registry)[slug]? = homeEntry facts registry slug := by
  have hcontains : foundation.contains slug = false := by
    rw [Std.TreeMap.contains_eq_isSome_getElem?, hfree]
    rfl
  rw [entriesThereAre, entriesNotShadowed, Std.TreeMap.getElem?_filter', entriesOutOfRoot,
    Std.TreeMap.getElem?_filterMap', resolvePageWiki, getElem?_slugSourceWiki_named hnodup,
    hcontains, ← homeEntry]
  cases homeEntry facts registry slug <;> rfl

/-- A page nobody had before the named facts is in the wiki of the first of them. -/
lemma address_proposedPage {wikis : SlugMap Str} {np : NewPage} {p : PagePlan}
    (h : proposedPage wikis slug np = some p) :
    ∃ w, resolvePageWiki slug wikis = some w ∧ p.address = ⟨w, slug ++ ".md".toList⟩ := by
  unfold proposedPage at h
  split at h
  · obtain ⟨w, hw, rfl⟩ := Option.map_eq_some_iff.mp h
    exact ⟨w, hw, rfl⟩
  · cases h

/-- The page with a slug is at the one home the slug has. -/
lemma homeOf_eq (hnodup : (facts.map FactForPage.factId).Nodup) :
    ((namedPages casing facts foundation registry now)[slug]?.map PagePlan.address).or
        (((facts.filterMap fun f =>
            (landsNamed casing (namedPages casing facts foundation registry now) f).map fun slug =>
              (f, slug)).find? fun x => x.2 == slug).map fun x =>
          ⟨x.1.sourceWikiId, slug ++ ".md".toList⟩) =
      homeOf facts foundation registry slug := by
  have hwikis := @getElem?_slugSourceWiki_named casing _ slug hnodup
  have hpages : (namedPages casing facts foundation registry now)[slug]? = _ :=
    getElem?_pagesThereAre
  cases hfoundation : foundation[slug]? with
  | some p =>
    rw [hpages, hfoundation, homeOf, hfoundation]
    rfl
  | none =>
    rw [homeOf, hfoundation]
    rw [hfoundation, getElem?_entriesThereAre_named hnodup hfoundation] at hpages
    rw [Option.map_none, Option.none_or] at hpages ⊢
    cases hentry : homeEntry facts registry slug with
    | some e =>
      rw [hpages, hentry]
      rfl
    | none =>
      rw [hentry, Option.map_none, Option.none_or] at hpages
      rw [Option.map_none, Option.none_or]
      cases hpage : (namedPages casing facts foundation registry now)[slug]? with
      | none =>
        rw [Option.map_none, Option.none_or, ← find?_landsNamed hpage, Option.map_map]
        rfl
      | some p =>
        rw [hpage] at hpages
        obtain ⟨np, -, hnp⟩ := List.exists_of_findSome?_eq_some hpages.symm
        obtain ⟨w, hw, haddress⟩ := address_proposedPage hnp
        rw [resolvePageWiki, hwikis] at hw
        rw [(Option.filter_eq_some_iff.mp hw).1, Option.map_some, haddress]
        rfl

/-- A page the user may name is not a card. -/
lemma Names.ne_profileFilename (h : Names f page) : page ≠ profileFilename := by
  rintro rfl
  exact absurd h.free (by decide)

/-- The address of a page of the plan with a fact on it. -/
lemma address_namedHalf (hnodup : (facts.map FactForPage.factId).Nodup) {p : PagePlan}
    (hpage : (namedHalf casing facts foundation registry proseLinks rails now).1.pages[key]? =
      some p) : some p.address = homeOf facts foundation registry key := by
  have haddress := address_buildCompilationPlan hpage
  rw [landings_named hnodup] at haddress
  rw [haddress]
  exact homeOf_eq hnodup

/-- A named fact keeps its place when the one page with its slug is where the fact means it. -/
lemma livesAt_namedHalf_iff (hnodup : (facts.map FactForPage.factId).Nodup) (hf : f ∈ facts)
    (hnames : Names f page) :
    LivesAt (namedHalf casing facts foundation registry proseLinks rails now).1.pages f.factId
        ⟨f.sourceWikiId, page⟩ ↔
      homeOf facts foundation registry (stemOf page) = some ⟨f.sourceWikiId, page⟩ := by
  obtain ⟨hslug, -, -⟩ := hnames.namedSlug_eq
  have hcountAt := fun key =>
    @countAt_namedHalf casing facts foundation registry proseLinks rails now f key hnodup hf
  have hhomeOf := fun slug => @homeOf_eq casing facts foundation registry now slug hnodup
  constructor
  · rintro ⟨key, p, hpage, haddr, hcount⟩
    have hhome := address_namedHalf hnodup hpage
    rw [haddr] at hhome
    have hone := (hcountAt key).symm.trans (hcount key)
    rw [if_pos rfl] at hone
    cases hland : landsNamed casing (namedPages casing facts foundation registry now) f with
    | some slug =>
      rw [hland] at hone
      have hkey : slug = key := by
        by_contra hne
        simp [hne] at hone
      have hnamed := (Option.filter_eq_some_iff.mp hland).1
      rw [hslug, hkey] at hnamed
      rw [Option.some.inj hnamed, hhome]
    | none =>
      -- the fact is on a card, which is no page the user may name
      rw [hland] at hone
      have htarget : identityCardTarget f (namedPages casing facts foundation registry now) =
          some key := by
        by_contra hne
        simp [hne] at hone
      obtain ⟨card, hcard, hidentity⟩ := exists_of_identityCardTarget htarget
      have hpath := hhomeOf key
      rw [hcard, ← hhome] at hpath
      have hprofile : card.pagePath = page := congrArg Address.pagePath (Option.some.inj hpath)
      exact absurd (hprofile.symm.trans (by simpa [PagePlan.isIdentityCard] using hidentity))
        hnames.ne_profileFilename
  · intro hhome
    have hstays : ((namedPages casing facts foundation registry now)[stemOf page]?.any
        fun p => turnsAway casing p f) = false := by
      cases hpage : (namedPages casing facts foundation registry now)[stemOf page]? with
      | none => rfl
      | some p =>
        have hpath := hhomeOf (stemOf page)
        rw [hpage, hhome] at hpath
        have hname : p.pagePath = page := congrArg Address.pagePath (Option.some.inj hpath)
        have hcard : p.isIdentityCard = false := by
          simpa [PagePlan.isIdentityCard, hname] using hnames.ne_profileFilename
        simp [turnsAway, hcard]
    have hland : landsNamed casing (namedPages casing facts foundation registry now) f =
        some (stemOf page) := by
      rw [landsNamed, hslug, Option.filter_some, hstays]
      rfl
    have hcount : ∀ key, countAt (namedHalf casing facts foundation registry proseLinks rails
        now).1.pages key f.factId = if key = stemOf page then 1 else 0 := fun key => by
      rw [hcountAt, hland]
      simp [eq_comm]
    obtain ⟨p, hpage⟩ := exists_of_countAt_pos (by
      rw [hcount, if_pos rfl]
      exact Nat.one_pos)
    refine ⟨stemOf page, p, hpage, ?_, hcount⟩
    exact Option.some.inj ((address_namedHalf hnodup hpage).trans hhome)

end

/-- The deterministic half keeps every page the user named in its place exactly when the one page
with its slug is where the fact means it to be. -/
theorem named_kept_iff (casing : Casing) {facts : List FactForPage}
    (hnodup : (facts.map FactForPage.factId).Nodup) (foundation : SlugMap PagePlan)
    (registry : ConceptRegistry) (proseLinks : Address → Option (List Str))
    (rails : List (Str × Str)) (now : Str) :
    (∀ f ∈ facts, ∀ page, Names f page →
      LivesAt (namedHalf casing facts foundation registry proseLinks rails now).1.pages f.factId
        ⟨f.sourceWikiId, page⟩) ↔
      ∀ f ∈ facts, ∀ page, Names f page →
        homeOf facts foundation registry (stemOf page) = some ⟨f.sourceWikiId, page⟩ :=
  forall₂_congr fun _ hf => forall₂_congr fun _ hnames => livesAt_namedHalf_iff hnodup hf hnames

/-! ### Two lists of one name -/

/-- An item of Anna's shopping list. -/
def annasItem : FactForPage where
  factId := ⟨"018f1234-5678-7abc-9def-0123456789ab".toList, isFactId_ab⟩
  text := "Milk".toList
  subject := .user "anna".toList
  sourceWikiId := "anna".toList
  targetPage := some "spesa.md".toList

/-- An item of Bruno's shopping list. -/
def brunosItem : FactForPage where
  factId := ⟨"018f1234-5678-7abc-9def-0123456789cd".toList, isFactId_cd⟩
  text := "Bread".toList
  subject := .user "bruno".toList
  sourceWikiId := "bruno".toList
  targetPage := some "spesa.md".toList

lemma names_brunosItem : Names brunosItem "spesa.md".toList :=
  ⟨by decide, rfl, by decide +kernel, by decide⟩

/-- One list keeps its place. -/
theorem named_kept_oneList :
    Names brunosItem "spesa.md".toList ∧
    ∀ f ∈ [brunosItem], ∀ page, Names f page →
      LivesAt (namedHalf ⟨fun c => [c], id⟩ [brunosItem] ∅ (.empty []) (fun _ => none) [] []).1.pages
        f.factId ⟨f.sourceWikiId, page⟩ := by
  refine ⟨names_brunosItem, (named_kept_iff _ (by decide) _ _ _ _ _).mpr fun f hf page hnames => ?_⟩
  obtain rfl := List.mem_singleton.mp hf
  obtain rfl := Option.some.inj hnames.target
  decide +kernel

/-- Two lists of the same name in two wikis become one. -/
theorem named_lists_merge :
    ¬ ∀ (casing : Casing) (facts : List FactForPage), (facts.map FactForPage.factId).Nodup →
      ∀ (foundation : SlugMap PagePlan) (registry : ConceptRegistry)
        (proseLinks : Address → Option (List Str)) (rails : List (Str × Str)) (now : Str),
      ∀ f ∈ facts, ∀ page, Names f page →
        LivesAt (namedHalf casing facts foundation registry proseLinks rails now).1.pages f.factId
          ⟨f.sourceWikiId, page⟩ := by
  intro h
  have hlives := h ⟨fun c => [c], id⟩ [annasItem, brunosItem] (by decide) ∅ (.empty [])
    (fun _ => none) [] [] brunosItem (by simp) _ names_brunosItem
  exact not_livesAt_of_any_eq_false (by decide +kernel) hlives

end Mwe.Planner
