import MweCore.Planner.Landing

/-!
# What is on a page of the plan

`countAt_buildCompilationPlan` says how often a fact is on a page.  This file says what the page
is: the page there was, or the one made for the first fact that landed there, with the facts that
landed on it in their order, the style it takes from them, and the links it has yet to say.  It
does so for builds in which every fact lands, so that the cards take nothing of their own accord.
-/

namespace Mwe.Planner

/-- The facts that land on a page, in their order. -/
def landedOn (landed : List (FactForPage × Str)) (key : Str) : List FactForPage :=
  (landed.filter fun x => x.2 == key).map Prod.fst

/-- A page with more facts. -/
def PagePlan.withFacts (page : PagePlan) (facts : List FactForPage) : PagePlan :=
  { page with primaryFacts := page.primaryFacts ++ facts }

/-- The page an assignment finds or makes. -/
def pageFor (casing : Casing) (pages : SlugMap PagePlan) (facts : List FactForPage) (key : Str) :
    Option PagePlan :=
  pages[key]?.or (facts.head?.map (mintedPage casing key))

@[simp] lemma landedOn_nil (key : Str) : landedOn [] key = [] := rfl

@[simp] lemma landedOn_cons (x : FactForPage × Str) (l : List (FactForPage × Str)) (key : Str) :
    landedOn (x :: l) key = if x.2 = key then x.1 :: landedOn l key else landedOn l key := by
  by_cases hkey : x.2 = key <;> simp [landedOn, hkey]

section

variable {casing : Casing} {facts : SlugMap FactForPage} {redirects : SlugMap Str}
  {pages foundation : SlugMap PagePlan} {minted : List Str} {st : Building}
  {assignments : List Assignment} {now key : Str}

/-- The assignments put on each page the facts that land there, in their order. -/
lemma Tracks.getElem?_foldl_assign (h : Tracks pages minted st) :
    let landed := landings casing facts redirects pages minted assignments
    (assignments.foldl (Building.assign casing now facts redirects) st).pages[key]? =
      (pageFor casing st.pages (landedOn landed key) key).map fun page =>
        page.withFacts (landedOn landed key) := by
  induction assignments generalizing minted st with
  | nil => simp [landings, pageFor, PagePlan.withFacts]
  | cons a rest ih =>
    have hrest := ih (@Tracks.assign casing facts redirects _ _ _ a now h)
    rw [List.foldl_cons, landings]
    cases hland : landing casing facts redirects pages minted a with
    | none =>
      rw [hland, h.assign_of_none hland] at hrest
      rw [h.assign_of_none hland]
      exact hrest
    | some x =>
      obtain ⟨fact, slug⟩ := x
      rw [hland] at hrest
      have hpages := (@Tracks.assign_of_some _ _ _ _ _ _ _ now _ _ h hland).1
      dsimp only at hrest ⊢
      rw [hrest, Option.toList_some, List.singleton_append, landedOn_cons, pageFor, pageFor, hpages]
      by_cases hkey : slug = key
      · subst hkey
        cases hpage : st.pages[slug]? with
        | some page => simp [PagePlan.withFact, PagePlan.withFacts]
        | none => simp [PagePlan.withFact, PagePlan.withFacts]
      · simp [hkey]

/-- When every fact has landed, the cards take nothing. -/
lemma foldl_fallBack_eq_self {all : List FactForPage}
    (h : ∀ f ∈ all, st.assigned.contains f.factId.val = true) :
    all.foldl (Building.fallBack casing) st = st := by
  induction all with
  | nil => rfl
  | cons f all ih =>
    have hfirst : st.fallBack casing f = st := if_pos (h f List.mem_cons_self)
    rw [List.foldl_cons, hfirst]
    exact ih fun g hg => h g (List.mem_cons_of_mem f hg)

end

/-! ## Styles -/

section

variable {casing : Casing} {facts : SlugMap FactForPage} {redirects wikis : SlugMap Str}
  {foundation : SlugMap PagePlan} {st : Building} {a : Assignment}
  {assignments : List Assignment} {fact : FactForPage} {np : NewPage} {now slug key : Str}

/-- The pages of the foundation are there and have no entry; every other page has an entry of its
style. -/
structure Registered (foundation : SlugMap PagePlan) (st : Building) : Prop where
  there : ∀ key : Str, foundation.contains key = true → st.pages.contains key = true
  style : ∀ key : Str, st.entries[key]?.map ConceptRegistryEntry.style =
    if foundation.contains key then none else st.pages[key]?.map PagePlan.style

/-- A page that is new gets an entry of its style. -/
lemma Registered.insert {page : PagePlan} {entries : SlugMap ConceptRegistryEntry}
    (h : Registered foundation st) (hnew : st.pages.contains slug = false)
    (hentries : ∀ key : Str, entries[key]?.map ConceptRegistryEntry.style =
      if slug = key then some page.style else st.entries[key]?.map ConceptRegistryEntry.style) :
    Registered foundation
      { st with pages := st.pages.insert slug page, entries := entries } := by
  have hslug : foundation.contains slug = false := by
    rw [← Bool.not_eq_true]
    intro hcontains
    simp [h.there slug hcontains] at hnew
  refine ⟨fun key hkey => ?_, fun key => ?_⟩
  · simp [h.there key hkey]
  · rw [hentries]
    by_cases hkey : slug = key
    · subst hkey
      simp [hslug]
    · simpa [Std.TreeMap.getElem?_insert, hkey] using h.style key

/-- A fact on a page changes no style. -/
lemma Registered.place (h : Registered foundation st) :
    Registered foundation (st.place casing slug fact) := by
  unfold Building.place
  split
  · exact h
  · next page hpage =>
    split
    · exact h
    · refine ⟨fun key hkey => ?_, fun key => ?_⟩
      · simp [h.there key hkey]
      · by_cases hkey : slug = key
        · subst hkey
          simpa [hpage, PagePlan.withFact] using h.style slug
        · simpa [Std.TreeMap.getElem?_insert, hkey] using h.style key

lemma Registered.accept (h : Registered foundation st) :
    Registered foundation (st.accept now wikis np) := by
  unfold Building.accept
  dsimp only
  split
  · exact h
  · next hnew =>
    split
    · exact h
    · rw [Bool.or_eq_true, not_or, Bool.not_eq_true] at hnew
      refine h.insert (Bool.not_eq_true _ ▸ hnew.2) fun key => ?_
      by_cases hkey : slugify np.slug = key <;>
        simp [Std.TreeMap.getElem?_insert, hkey, newPageToPlan]

lemma Registered.mint (h : Registered foundation st) :
    Registered foundation (st.mint casing now slug fact) := by
  unfold Building.mint
  split
  · exact h
  · next hnew =>
    rw [Bool.not_eq_true] at hnew
    have hpage : st.pages[slug]? = none := by
      rw [← Option.not_isSome_iff_eq_none, ← Std.TreeMap.contains_eq_isSome_getElem?, hnew]
      simp
    have hentry : st.entries[slug]? = none := by
      have hstyle := h.style slug
      rw [hpage, Option.map_none, ite_self, Option.map_eq_none_iff] at hstyle
      exact hstyle
    have hfree : slug ∉ st.entries := by simp [Std.TreeMap.mem_iff_isSome_getElem?, hentry]
    refine h.insert hnew fun key => ?_
    rw [Std.TreeMap.getElem?_insertIfNew]
    by_cases hkey : slug = key
    · subst hkey
      simp [hfree, mintedPage]
    · simp [hkey]

lemma Registered.assign (h : Registered foundation st) :
    Registered foundation (st.assign casing now facts redirects a) := by
  unfold Building.assign
  split
  · exact h
  · dsimp only
    split
    · exact h
    · exact h.mint.place

lemma Registered.foldl_assign (h : Registered foundation st) :
    Registered foundation (assignments.foldl (Building.assign casing now facts redirects) st) := by
  induction assignments generalizing st with
  | nil => exact h
  | cons a rest ih => exact ih h.assign

/-- The pages there are have entries of their styles. -/
lemma registered_materialised {all : List FactForPage} {conciliation : ConciliatorResult}
    {registry : ConceptRegistry} :
    Registered foundation
      (materialised (factMap all) foundation assignments conciliation registry now) := by
  have hfold : ∀ (wikis : SlugMap Str) (proposals : List NewPage) (st : Building),
      Registered foundation st →
        Registered foundation (proposals.foldl (Building.accept now wikis) st) := by
    intro wikis proposals
    induction proposals with
    | nil => exact fun st h => h
    | cons np proposals ih => exact fun st h => ih _ h.accept
  refine hfold _ _ _ ⟨fun key hkey => ?_, fun key => ?_⟩
  · rw [Std.TreeMap.contains_eq_isSome_getElem?] at hkey ⊢
    rw [getElem?_withRegistryPages, foundationPages, Std.TreeMap.getElem?_map]
    simp [hkey]
  · dsimp only
    rw [getElem?_withRegistryPages, foundationPages, Std.TreeMap.getElem?_map, entriesNotShadowed,
      Std.TreeMap.getElem?_filter', Std.TreeMap.contains_eq_isSome_getElem?]
    cases hpage : foundation[key]? with
    | some page => simp
    | none => simp [registryToPage, Option.map_map, Function.comp_def]

/-- The style a page has once the styles are healed. -/
def restyled (foundation : SlugMap PagePlan) (key : Str) (page : PagePlan) : PagePlan :=
  { page with
    style :=
      if foundation.contains key then page.style
      else page.style.or (majorityFactStyle page.primaryFacts) }

lemma Registered.getElem?_healStyles (h : Registered foundation st) :
    st.healStyles.pages[key]? = st.pages[key]?.map (restyled foundation key) := by
  rw [Building.healStyles]
  simp only [Std.TreeMap.getElem?_map]
  refine Option.map_congr fun page hpage => ?_
  have hstyle := h.style key
  rw [Option.mem_def.mp hpage, Option.map_some] at hstyle
  rw [restyled, healedStyle]
  split at hstyle
  · next hfoundation =>
    rw [Option.map_eq_none_iff] at hstyle
    simp [hstyle, hfoundation]
  · next hfoundation =>
    obtain ⟨e, hentry, hsame⟩ := Option.map_eq_some_iff.mp hstyle
    rw [hentry, if_neg hfoundation, ← hsame]
    cases he : e.style <;> simp [he]

end

/-! ## Links -/

/-- The links a page owes after one more rail. -/
def owe (known : Str → Bool) (prose : List Str) (key : Str) (owed : List Str)
    (rail : Str × Str) : List Str :=
  if rail.1 = key ∧ known rail.2 = true ∧ rail.2 ≠ key ∧ rail.2 ∉ prose ++ owed then
    owed ++ [rail.2]
  else owed

/-- The links a page owes: rails that lead from it to a page of the plan and that its prose does
not have. -/
def owedLinks (known : Str → Bool) (prose : List Str) (key : Str) (rails : List (Str × Str)) :
    List Str :=
  rails.foldl (owe known prose key) []

/-- A page with other links. -/
def PagePlan.withLinks (page : PagePlan) (outgoing pending : List Str) : PagePlan :=
  { page with outgoingLinks := outgoing, pendingLinks := pending }

section

variable {pages : SlugMap PagePlan} {acc : SlugMap PagePlan × List (Str × Str)} {page : PagePlan}
  {known : Str → Bool} {prose owed : List Str} {rails : List (Str × Str)} {rail : Str × Str}
  {key : Str}

lemma contains_addRail (key : Str) : (addRail acc rail).1.contains key = acc.1.contains key := by
  unfold addRail
  split
  · rfl
  · next page hpage =>
    split
    · rfl
    · have hcontains : acc.1.contains rail.1 = true := by
        rw [Std.TreeMap.contains_eq_isSome_getElem?, hpage]
        rfl
      by_cases hkey : rail.1 = key
      · simp [← hkey, hcontains]
      · simp [hkey]

/-- One rail, on the page it leads from and on the others. -/
lemma getElem?_addRail (hpage : acc.1[key]? = some (page.withLinks (prose ++ owed) owed)) :
    let owed' := owe acc.1.contains prose key owed rail
    (addRail acc rail).1[key]? = some (page.withLinks (prose ++ owed') owed') := by
  unfold addRail owe
  dsimp only
  by_cases hkey : rail.1 = key
  · subst hkey
    rw [hpage]
    dsimp only
    split
    · next hkept =>
      rw [if_neg, hpage]
      rintro ⟨-, hknown, hne, hnew⟩
      simp [hknown, Ne.symm hne, hnew, PagePlan.withLinks] at hkept
    · next howes =>
      rw [Bool.or_eq_true, Bool.or_eq_true, not_or, not_or] at howes
      obtain ⟨⟨hknown, hne⟩, hnew⟩ := howes
      have hall : acc.1.contains rail.2 = true ∧ rail.2 ≠ rail.1 ∧ rail.2 ∉ prose ++ owed :=
        ⟨by simpa using hknown, fun h => hne (beq_iff_eq.mpr h.symm),
          by simpa [PagePlan.withLinks] using hnew⟩
      have howed : rail.2 ∉ owed := fun h => hall.2.2 (List.mem_append_right prose h)
      rw [if_pos ⟨rfl, hall⟩, Std.TreeMap.getElem?_insert_self]
      simp [PagePlan.withLinks, pushNew, howed, hall.2.2, List.append_assoc]
  · rw [if_neg fun h => hkey h.1]
    split
    · exact hpage
    · split
      · exact hpage
      · rw [Std.TreeMap.getElem?_insert, if_neg (by simp [hkey]), hpage]

lemma getElem?_foldl_addRail (hpage : acc.1[key]? = some (page.withLinks (prose ++ owed) owed)) :
    let owed' := rails.foldl (owe acc.1.contains prose key) owed
    (rails.foldl addRail acc).1[key]? = some (page.withLinks (prose ++ owed') owed') := by
  induction rails generalizing acc owed with
  | nil => exact hpage
  | cons rail rails ih =>
    have hknown : (addRail acc rail).1.contains = acc.1.contains := funext contains_addRail
    have hrest := ih (@getElem?_addRail _ _ _ _ rail _ hpage)
    rw [hknown] at hrest
    exact hrest

end

section

variable {pages : SlugMap PagePlan} {rails : List (Str × Str)}
  {proseLinks : Address → Option (List Str)} {key : Str}

/-- A page once its links are taken from its prose, but for those. -/
lemma getElem?_linked (hpending : ∀ page : PagePlan, pages[key]? = some page →
    page.pendingLinks = []) :
    (linked proseLinks rails pages).1[key]?.map (fun page => { page with outgoingLinks := [] }) =
      pages[key]?.map fun page => page.withLinks []
        (owedLinks pages.contains ((proseLinks page.address).getD []) key rails) := by
  cases hpage : pages[key]? with
  | none =>
    have hnone : (linked proseLinks rails pages).1[key]?.map (fun _ => ()) =
        pages[key]?.map fun _ => () :=
      map_linked ⟨fun _ _ => rfl, fun _ _ => rfl, fun _ _ => rfl⟩ proseLinks rails
    rw [hpage, Option.map_none, Option.map_eq_none_iff] at hnone
    rw [hnone]
    rfl
  | some page =>
    have hrails := @getElem?_foldl_addRail (pages.map fun _ page =>
      { page with outgoingLinks := (proseLinks page.address).getD [] }, []) page
      ((proseLinks page.address).getD []) [] rails key
      (by simp [hpage, PagePlan.withLinks, hpending page hpage])
    have hknown : (pages.map fun _ page => { page with
        outgoingLinks := (proseLinks page.address).getD [] }).contains = pages.contains :=
      funext fun key => by simp
    rw [hknown] at hrails
    rw [linked]
    dsimp only at hrails ⊢
    rw [Std.TreeMap.getElem?_map, hrails]
    rfl

end

/-! ## The plan -/

/-- The page the plan keeps under a key, before its links are taken. -/
def keptPage (casing : Casing) (foundation pages : SlugMap PagePlan)
    (landed : List (FactForPage × Str)) (key : Str) : Option PagePlan :=
  ((pageFor casing pages (landedOn landed key) key).map fun page =>
    restyled foundation key (page.withFacts (landedOn landed key))).filter fun page =>
      !isEmptyPage page

section

variable {casing : Casing} {facts : List FactForPage} {foundation : SlugMap PagePlan}
  {blueprint : Blueprint} {conciliation : ConciliatorResult} {registry : ConceptRegistry}
  {proseLinks : Address → Option (List Str)} {rails : List (Str × Str)} {now key : Str}

lemma pendingLinks_pageFor {pages : SlugMap PagePlan} {page : PagePlan}
    (hpending : ∀ page : PagePlan, pages[key]? = some page → page.pendingLinks = [])
    (hpage : pageFor casing pages facts key = some page) : page.pendingLinks = [] := by
  obtain h | ⟨-, h⟩ := Option.or_eq_some_iff.mp hpage
  · exact hpending page h
  · obtain ⟨f, -, rfl⟩ := Option.map_eq_some_iff.mp h
    rfl

/-- When every fact lands, a page of the plan is the one that is kept under its key, with the links
it owes. -/
theorem getElem?_buildCompilationPlan
    (hpending : ∀ (key : Str) (page : PagePlan),
      (pagesThereAre facts foundation blueprint.assignments conciliation registry now)[key]? =
        some page → page.pendingLinks = [])
    (hall : ∀ f ∈ facts, ∃ x ∈ landings casing (factMap facts) conciliation.redirects
      (pagesThereAre facts foundation blueprint.assignments conciliation registry now) []
      blueprint.assignments, x.1.factId = f.factId) :
    let pages := pagesThereAre facts foundation blueprint.assignments conciliation registry now
    let kept := keptPage casing foundation pages
      (landings casing (factMap facts) conciliation.redirects pages [] blueprint.assignments)
    (buildCompilationPlan casing facts foundation blueprint conciliation registry proseLinks rails
        now).1.pages[key]?.map (fun page => { page with outgoingLinks := [] }) =
      (kept key).map fun page => page.withLinks []
        (owedLinks (fun key => (kept key).isSome) ((proseLinks page.address).getD []) key
          rails) := by
  dsimp only
  set pages := pagesThereAre facts foundation blueprint.assignments conciliation registry now
    with hpages
  set landed := landings casing (factMap facts) conciliation.redirects pages []
    blueprint.assignments
  have hlanded := @landed_assignments casing facts foundation blueprint.assignments conciliation
    registry now
  have hplaced : placed casing facts foundation blueprint.assignments conciliation registry now =
      blueprint.assignments.foldl (Building.assign casing now (factMap facts)
        conciliation.redirects)
        (materialised (factMap facts) foundation blueprint.assignments conciliation registry
          now) := by
    refine foldl_fallBack_eq_self fun f hf => ?_
    obtain ⟨x, hx, hid⟩ := hall f hf
    rw [← Std.TreeSet.mem_iff_contains, hlanded.assigned]
    exact .inr ⟨x, hx, congrArg FactId.val hid⟩
  have hregistered : Registered foundation (placed casing facts foundation blueprint.assignments
      conciliation registry now) := by
    rw [hplaced]
    exact registered_materialised.foldl_assign
  have hstart : Tracks pages [] (materialised (factMap facts) foundation blueprint.assignments
      conciliation registry now) :=
    ⟨fun key => by simp [knownKey, hpages, pagesThereAre], fun key => rfl⟩
  have hkept : ∀ key : Str, (placed casing facts foundation blueprint.assignments conciliation
      registry now).healStyles.collect.pages[key]? = keptPage casing foundation pages landed key := by
    intro key
    rw [getElem?_collect, hregistered.getElem?_healStyles, hplaced, hstart.getElem?_foldl_assign,
      Option.map_map]
    rfl
  rw [buildCompilationPlan]
  dsimp only
  have hknown : (placed casing facts foundation blueprint.assignments conciliation registry
      now).healStyles.collect.pages.contains =
        fun key => (keptPage casing foundation pages landed key).isSome := by
    funext key
    rw [Std.TreeMap.contains_eq_isSome_getElem?, hkept]
  rw [getElem?_linked, hkept, hknown]
  intro page hpage
  rw [hkept] at hpage
  obtain ⟨page', hfor, rfl⟩ := Option.map_eq_some_iff.mp (Option.filter_eq_some_iff.mp hpage).1
  have hnone := pendingLinks_pageFor (hpending key) hfor
  exact hnone

end

end Mwe.Planner
