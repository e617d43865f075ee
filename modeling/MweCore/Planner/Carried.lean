import MweCore.Planner.OneFact

/-!
# Carried placements

A fact keeps its page from one build to the next: the last plan becomes assignments, and the build
obeys them.  On the way a merge may rewrite them.  `vetRedirects` looks at where a merge leads and
never at where it comes from, so an answer may empty a page that was there all along; and a page
that only the last plan knows may be keyed anew.  `carried_stay_iff` says when a carried fact
stays.
-/

namespace Mwe.Planner

section

variable (input : BuildInput) (prev : CompilationPlan)

/-- Whether the last plan holds a fact on a page that keeps its facts and still accepts this
one. -/
def HeldOn (f : FactForPage) (key : Str) : Prop :=
  f ∈ input.facts ∧ key ∉ input.reopen prev ∧
    ∃ page, prev.pages[key]? = some page ∧ 0 < PagePlan.count page f.factId ∧
      turnsAway input.casing page f = false

/-- Whether a page was proposed in this build. -/
def Proposed (slug : Str) : Prop :=
  ∃ np ∈ input.blueprint.newPages, slugify np.slug = slug

/-- Carried placements stay put: a fact stays on its page, and a merge moves only facts whose page
was proposed in this build. -/
structure CarriedStay : Prop where
  stays : ∀ f key, HeldOn input prev f key → 0 < countAt (buildWikiPlan input).pages key f.factId
  merges : input.keepsPlan = false → ∀ a ∈ input.blueprint.assignments,
    input.isCurrent a.factId = true →
      BuildInput.redirectAssignment (input.conciliation input.blueprint).redirects a ≠ a →
        Proposed input (slugify a.pageSlug)

/-- Nothing diverts a carried placement. -/
structure Undiverted : Prop where
  /-- an assignment of the fact lands on its page, or none lands and its page is the card it is
  reserved for -/
  lands : input.keepsPlan = false → ∀ f key, HeldOn input prev f key →
    (∃ x ∈ input.landings, x.1.factId = f.factId ∧ x.2 = key) ∨
      (∀ x ∈ input.landings, x.1.factId ≠ f.factId) ∧
        factBelongsOnACard input.casing f = true ∧
        identityCardTarget f input.pagesThereAre = some key
  /-- a redirect that a fact's assignment meets comes from a page proposed in this build -/
  sources : input.keepsPlan = false →
    ∀ slug target, (input.conciliation input.blueprint).redirects[slug]? = some target →
      (∃ a ∈ input.blueprint.assignments, input.isCurrent a.factId = true ∧
        slugify a.pageSlug = slug ∧ a.pageSlug ≠ target) → Proposed input slug

end

section

variable {input : BuildInput} {prev : CompilationPlan} {f : FactForPage} {key : Str}

/-- A full build has a fact on a page when an assignment lands it there, or when none lands and the
page is the card it is reserved for. -/
lemma countAt_fullPlan_pos_iff (hnodup : (input.facts.map FactForPage.factId).Nodup)
    (hf : f ∈ input.facts) :
    0 < countAt input.fullPlan.pages key f.factId ↔
      (∃ x ∈ input.landings, x.1.factId = f.factId ∧ x.2 = key) ∨
        (∀ x ∈ input.landings, x.1.factId ≠ f.factId) ∧
          factBelongsOnACard input.casing f = true ∧
          identityCardTarget f input.pagesThereAre = some key := by
  have hplacements : countAt input.fullPlan.pages key f.factId =
      countOn input.landings key f.factId +
        countOn (fallbacks input.casing input.pagesThereAre input.facts input.landings) key
          f.factId := countAt_fullPlan.trans (countOn_append ..)
  have hnobody : (input.landings.any fun x => x.1.factId.val == f.factId.val) = false ↔
      ∀ x ∈ input.landings, x.1.factId ≠ f.factId := by
    rw [List.any_eq_false]
    refine forall₂_congr fun x _ => ?_
    rw [beq_iff_eq, FactId.val_injective.eq_iff]
  rw [hplacements, Nat.add_pos_iff_pos_or_pos, countOn_pos_iff, countOn_fallbacks hnodup hf,
    ← hnobody]
  refine or_congr_right ?_
  split
  · next h => exact ⟨fun _ => h, fun _ => Nat.one_pos⟩
  · next h => exact ⟨fun hpos => absurd hpos (Nat.lt_irrefl 0), fun h' => absurd h' h⟩

/-- A plan that is kept keeps its facts where they are. -/
lemma countAt_reusedPlan {factId : FactId} :
    countAt (input.reusedPlan prev).pages key factId = countAt prev.pages key factId :=
  countAt_healPageCards _

/-- An assignment is rewritten when a redirect of its page leads elsewhere. -/
lemma redirectAssignment_ne_iff {redirects : SlugMap Str} {a : Assignment} :
    BuildInput.redirectAssignment redirects a ≠ a ↔
      ∃ target, redirects[slugify a.pageSlug]? = some target ∧ a.pageSlug ≠ target := by
  unfold BuildInput.redirectAssignment
  cases redirects[slugify a.pageSlug]? with
  | none => simp
  | some target =>
    obtain ⟨factId, pageSlug⟩ := a
    simp [eq_comm]

end

/-- Carried placements stay put exactly when nothing diverts them. -/
theorem carried_stay_iff (input : BuildInput) {prev : CompilationPlan}
    (hprev : loadPreviousPlan input.dir = some prev)
    (hnodup : ((input.gathered ++ input.waiting).map FactForPage.factId).Nodup) :
    CarriedStay input prev ↔ Undiverted input prev := by
  have hkeeps : input.keepsPlan = input.reuses prev := by simp [BuildInput.keepsPlan, hprev]
  have hstays : (∀ f key, HeldOn input prev f key →
      0 < countAt (buildWikiPlan input).pages key f.factId) ↔
      (input.keepsPlan = false → ∀ f key, HeldOn input prev f key →
        (∃ x ∈ input.landings, x.1.factId = f.factId ∧ x.2 = key) ∨
          (∀ x ∈ input.landings, x.1.factId ≠ f.factId) ∧
            factBelongsOnACard input.casing f = true ∧
            identityCardTarget f input.pagesThereAre = some key) := by
    rw [hkeeps]
    unfold buildWikiPlan
    rw [hprev]
    dsimp only
    cases hreuse : input.reuses prev with
    | true =>
      simp only [if_true, Bool.true_eq_false, false_implies, iff_true]
      rintro f key ⟨-, -, page, hpage, hcount, -⟩
      rwa [countAt_reusedPlan, countAt_of_getElem? hpage]
    | false =>
      simp only [Bool.false_eq_true, if_false, true_implies]
      exact forall₂_congr fun f key => imp_congr_right fun hheld =>
        countAt_fullPlan_pos_iff (nodup_facts hnodup) hheld.1
  have hmerges : (∀ a ∈ input.blueprint.assignments, input.isCurrent a.factId = true →
      BuildInput.redirectAssignment (input.conciliation input.blueprint).redirects a ≠ a →
        Proposed input (slugify a.pageSlug)) ↔
      ∀ slug target, (input.conciliation input.blueprint).redirects[slug]? = some target →
        (∃ a ∈ input.blueprint.assignments, input.isCurrent a.factId = true ∧
          slugify a.pageSlug = slug ∧ a.pageSlug ≠ target) → Proposed input slug := by
    constructor
    · rintro h slug target hredirect ⟨a, ha, hcurrent, rfl, hne⟩
      exact h a ha hcurrent (redirectAssignment_ne_iff.mpr ⟨target, hredirect, hne⟩)
    · intro h a ha hcurrent hmoved
      obtain ⟨target, hredirect, hne⟩ := redirectAssignment_ne_iff.mp hmoved
      exact h _ target hredirect ⟨a, ha, hcurrent, rfl, hne⟩
  constructor
  · exact fun h => ⟨hstays.mp h.stays, fun hfull => hmerges.mp (h.merges hfull)⟩
  · exact fun h => ⟨hstays.mpr h.lands, fun hfull => hmerges.mpr (h.sources hfull)⟩

/-! ### A merge out of a page that was there -/

/-- A fact that has its page. -/
def settled : FactForPage where
  factId := ⟨"018f1234-5678-7abc-9def-0123456789cd".toList, isFactId_cd⟩
  text := "The hoe is in the shed".toList
  subject := .user "anna".toList
  sourceWikiId := "anna".toList

/-- The page of a concept, with some facts on it. -/
def conceptPage (slug : Str) (facts : List FactForPage) : PagePlan where
  slug := slug
  title := slug
  primaryFacts := facts
  wikiId := "anna".toList
  pagePath := slug ++ ".md".toList

/-- What the registry remembers of a concept. -/
def conceptEntry (slug : Str) : ConceptRegistryEntry where
  slug := slug
  title := slug
  wikiId := "anna".toList
  createdAt := []

/-- A build with a page, another the registry remembers, and a fact the model proposes a third for;
the merging model redirects one page to another. -/
def merging (source target : Str) : BuildInput where
  casing := ⟨fun c => [c], id⟩
  gathered := [newcomer, settled]
  dir :=
    { plan := some
        { pages := .ofList [("orto".toList, conceptPage "orto".toList [settled])]
          generatedAt := []
          factCount := 1 }
      registry := some
        { version := registryVersion
          entries := .ofList [("orto".toList, conceptEntry "orto".toList),
            ("spesa".toList, conceptEntry "spesa".toList)]
          generatedAt := [] } }
  placement := .cartografo fun _ => some
    { assignments := [⟨newcomer.factId.val, "serra".toList⟩]
      newPages := [⟨"serra".toList, [], [], none⟩] }
  conciliatore := some fun _ => some
    { redirects := .ofList [(source, target)], acceptedNew := [⟨"serra".toList, [], [], none⟩] }
  now := []

/-- A merge of a page that was proposed in this build leaves the others alone. -/
theorem carried_stay_mergeOfProposal :
    ∃ prev, loadPreviousPlan (merging "serra".toList "spesa".toList).dir = some prev ∧
      CarriedStay (merging "serra".toList "spesa".toList) prev := by
  refine ⟨_, rfl, (carried_stay_iff _ rfl (by decide)).mpr ⟨?_, ?_⟩⟩
  · rintro - f key ⟨hf, -, page, hpage, hcount, -⟩
    rw [Std.TreeMap.ofList_singleton, Std.TreeMap.getElem?_insert] at hpage
    split at hpage
    · next hkey =>
      obtain rfl : "orto".toList = key := Std.compare_eq_iff_eq.mp hkey
      obtain rfl := Option.some.inj hpage
      have hcases : f = newcomer ∨ f = settled := by
        have hperm := (List.perm_insertionSort _ _).mem_iff.mp hf
        simpa [merging] using hperm
      obtain rfl | rfl := hcases
      · exact absurd hcount (by decide)
      · exact Or.inl (by decide +kernel)
    · simp at hpage
  · rintro - slug target hredirect -
    have hredirects : ((merging "serra".toList "spesa".toList).conciliation
        (merging "serra".toList "spesa".toList).blueprint).redirects.toList =
          [("serra".toList, "spesa".toList)] := by decide +kernel
    have hmem := Std.TreeMap.mem_toList_iff_getElem?_eq_some.mpr hredirect
    rw [hredirects, List.mem_singleton] at hmem
    obtain ⟨rfl, -⟩ := Prod.mk.inj hmem
    exact ⟨⟨"serra".toList, [], [], none⟩, by decide +kernel, by decide +kernel⟩

/-- A merge out of a page that was there takes its facts away. -/
theorem merge_empties_page :
    ¬ ∀ (input : BuildInput) (prev : CompilationPlan), loadPreviousPlan input.dir = some prev →
      ((input.gathered ++ input.waiting).map FactForPage.factId).Nodup →
      CarriedStay input prev := by
  intro h
  have hstay := h (merging "orto".toList "spesa".toList) _ rfl (by decide)
  have hheld := hstay.stays settled "orto".toList ⟨by decide +kernel, by decide +kernel, _,
    rfl, by decide +kernel, by decide +kernel⟩
  exact absurd hheld (by decide +kernel)

end Mwe.Planner
