import MweCore.Planner.OneFact

/-!
# The birth floor

In the hourly round a page that is proposed for fewer than five facts is not born.  The floor looks
at what the model proposes, and at the assignments that spell the proposal as it does
(`refuses`).  An assignment to a page that nobody proposed passes it, and so does one that spells
a refused page in another way: the builder makes the page when it meets the assignment.  Facts
that are named twice or that nobody knows count for the floor as well.  So a page is born of five
facts exactly when the assignments that are heeded bring five to it (`birth_floor_iff`).
-/

namespace Mwe.Planner

open Str

/-! ## What the round answers -/

/-- Whether the floor refuses an assignment: the page is proposed, and fewer than five assignments
spell it as this one does. -/
def refuses (answer : Blueprint) (slug : Str) : Bool :=
  answer.newPages.any (fun np => np.slug == slug) &&
    decide ((answer.assignments.filter fun a => a.pageSlug == slug).length < pageBirthFloor)

/-- The assignments of an answer that the floor lets pass. -/
def heeded (answer : Blueprint) : List Assignment :=
  answer.assignments.filter fun a => !refuses answer a.pageSlug

namespace BuildInput

variable (input : BuildInput) (replies : ℕ → Option Blueprint)

/-- The build of the hourly round, with what its model answers. -/
def light : BuildInput := { input with placement := .namedThenCartografo replies }

/-- The facts that have no page yet. -/
def batch : List FactForPage :=
  ((loadPreviousPlan input.dir).map input.newFacts).getD input.facts

/-- The facts of the batch the model is asked about: no card and no name settles them. -/
def remainder : List FactForPage :=
  input.batch.filter fun f => f.salience ≠ some "high".toList &&
    !((ingestPlacementBlueprint input.casing input.batch).assignments.map
      Assignment.factId).contains f.factId.val

/-- What the model answers. -/
def answer : Blueprint := classifyFacts replies input.remainder input.foundation input.registry

/-- The assignments the plan is built from: the pages the facts had, the pages the user named, and
what is heeded of the answer. -/
def said : List Assignment :=
  ((loadPreviousPlan input.dir).map input.carriedOver).getD [] ++
    ((ingestPlacementBlueprint input.casing input.batch).assignments ++
      heeded (input.answer replies))

/-- The facts that what is said brings to a key, read in order: a word is a key when a page has
it, and stands for its slug else; a merge is followed; a card's name leads to the card. -/
def broughtTo (key : Str) : Finset FactId :=
  let redirects := (input.conciliation input.blueprint).redirects
  let landed := Planner.landings input.casing (factMap input.facts) redirects input.pagesThereAre []
    ((input.said replies).map (redirectAssignment redirects))
  ((landed.filter fun x => x.2 == key).map fun x => x.1.factId).toFinset

end BuildInput

/-- A key that is nobody's: no page of the foundation, of the registry or of the last plan has it,
and no fact names it. -/
structure Fresh (input : BuildInput) (key : Str) : Prop where
  foundation : input.foundation[key]? = none
  registry : input.registry.entries[key]? = none
  carried : ∀ prev, loadPreviousPlan input.dir = some prev → prev.pages[key]? = none
  unnamed : ∀ f ∈ input.facts, f.targetPage.bind placementSlug ≠ some key

/-- A page that is born under a key that was nobody's holds five facts. -/
def BirthFloorKept (input : BuildInput) : Prop :=
  ∀ key page, (buildWikiPlan input).pages[key]? = some page → Fresh input key →
    pageBirthFloor ≤ (page.primaryFacts.map FactForPage.factId).toFinset.card

/-! ## The assignments -/

section

variable {answer : Blueprint} {input : BuildInput} {replies : ℕ → Option Blueprint} {key : Str}

/-- The floor keeps the assignments that are heeded. -/
lemma assignments_holdToBirthFloor : (holdToBirthFloor answer).assignments = heeded answer := by
  unfold holdToBirthFloor heeded
  refine List.filter_congr fun a _ => ?_
  congr 1
  rw [Bool.eq_iff_iff, List.contains_iff_mem]
  simp only [refuses, List.mem_map, List.mem_filter, decide_eq_true_eq, Bool.and_eq_true,
    List.any_eq_true, beq_iff_eq]
  constructor
  · rintro ⟨np, ⟨hnp, hmass⟩, hslug⟩
    exact ⟨⟨np, hnp, hslug⟩, hslug ▸ hmass⟩
  · rintro ⟨⟨np, hnp, hslug⟩, hmass⟩
    exact ⟨np, ⟨hnp, hslug.symm ▸ hmass⟩, hslug⟩

/-- Nobody is asked about no facts. -/
lemma heeded_classifyFacts_nil {foundation : SlugMap PagePlan} {registry : ConceptRegistry} :
    heeded (classifyFacts replies [] foundation registry) = [] := rfl

/-- What the hourly round assigns to a batch. -/
lemma assignments_placeNewFacts (casing : Casing) (batch : List FactForPage)
    (foundation : SlugMap PagePlan) (registry : ConceptRegistry) :
    (placeNewFacts casing (.namedThenCartografo replies) batch foundation registry).assignments =
      (ingestPlacementBlueprint casing batch).assignments ++
        heeded (classifyFacts replies
          (batch.filter fun f => f.salience ≠ some "high".toList &&
            !((ingestPlacementBlueprint casing batch).assignments.map
              Assignment.factId).contains f.factId.val) foundation registry) := by
  unfold placeNewFacts
  dsimp only
  split
  · next hnone =>
    rw [List.isEmpty_iff.mp hnone, heeded_classifyFacts_nil, List.append_nil]
  · rw [mergeBlueprints, assignments_holdToBirthFloor]

/-- The assignments of the round are what is said. -/
lemma assignments_blueprint (hlight : input.placement = .namedThenCartografo replies) :
    input.blueprint.assignments = input.said replies := by
  have hplaced : ∀ batch, (input.placed batch).assignments =
      (ingestPlacementBlueprint input.casing batch).assignments ++
        heeded (classifyFacts replies
          (batch.filter fun f => f.salience ≠ some "high".toList &&
            !((ingestPlacementBlueprint input.casing batch).assignments.map
              Assignment.factId).contains f.factId.val) input.foundation input.registry) := by
    intro batch
    rw [BuildInput.placed, hlight]
    exact assignments_placeNewFacts _ _ _ _
  unfold BuildInput.said BuildInput.answer BuildInput.remainder BuildInput.batch
    BuildInput.blueprint
  cases hload : loadPreviousPlan input.dir with
  | none => exact hplaced _
  | some prev =>
    dsimp only [Option.map_some, Option.getD_some]
    congr 1
    split
    · next hnone =>
      rw [List.isEmpty_iff.mp hnone]
      rfl
    · exact hplaced _

end

/-! ## A key that is nobody's -/

section

variable {input : BuildInput} {key : Str} {factId : FactId}

/-- A slug does not name the card. -/
lemma append_md_ne_profileFilename (hkey : slugify key = key) :
    key ++ ".md".toList ≠ profileFilename := by
  intro hpath
  have hprofile : key = "@profile".toList := List.append_cancel_right
    (show key ++ ".md".toList = "@profile".toList ++ ".md".toList from hpath)
  have hslug : slugify "@profile".toList = "profile".toList := by decide
  rw [hprofile, hslug] at hkey
  exact absurd hkey (by decide)

/-- No card has a key that is nobody's. -/
lemma Fresh.any_isIdentityCard (h : Fresh input key) :
    input.pagesThereAre[key]?.any PagePlan.isIdentityCard = false := by
  have hentry : (entriesThereAre input.facts input.foundation
      (input.assignments input.blueprint) (input.conciliation input.blueprint)
      input.registry)[key]? = none := by
    simp [entriesThereAre, entriesNotShadowed, entriesOutOfRoot, Std.TreeMap.getElem?_filter,
      Std.TreeMap.getElem?_filterMap, h.registry]
  rw [BuildInput.pagesThereAre, getElem?_pagesThereAre, h.foundation, hentry, Option.map_none,
    Option.none_or, Option.map_none, Option.none_or, Option.any_eq_false]
  intro page hpage
  obtain ⟨np, -, hnp⟩ := List.exists_of_findSome?_eq_some hpage
  unfold proposedPage at hnp
  split at hnp
  · next hslug =>
    obtain ⟨wikiId, -, rfl⟩ := Option.map_eq_some_iff.mp hnp
    have hkey : slugify key = key := by rw [← hslug.2, slugify_slugify]
    simpa [PagePlan.isIdentityCard, newPageToPlan] using append_md_ne_profileFilename hkey
  · cases hnp

/-- The cards take nothing to a key that is nobody's. -/
lemma Fresh.countOn_fallbacks (h : Fresh input key) :
    countOn (fallbacks input.casing input.pagesThereAre input.facts input.landings) key factId =
      0 := by
  refine List.countP_eq_zero.mpr fun x hx => ?_
  simp only [decide_eq_true_eq, not_and]
  rintro - hkey
  obtain ⟨f, -, hf⟩ := List.mem_filterMap.mp hx
  split at hf
  · obtain ⟨slug, hslug, rfl⟩ := Option.map_eq_some_iff.mp hf
    obtain ⟨page, hpage, hcard⟩ := exists_of_identityCardTarget hslug
    have hfresh := h.any_isIdentityCard
    dsimp only at hkey
    rw [← hkey, hpage, Option.any_some, hcard] at hfresh
    cases hfresh
  · cases hf

/-- Under a key that is nobody's a full build has the facts that land there. -/
lemma Fresh.countAt_fullPlan (h : Fresh input key) :
    countAt input.fullPlan.pages key factId = countOn input.landings key factId := by
  rw [Planner.countAt_fullPlan]
  refine (countOn_append _ _ key factId).trans ?_
  exact (congrArg _ h.countOn_fallbacks).trans (Nat.add_zero _)

/-- Whether a page is a card is told by its address. -/
lemma any_isCard (o : Option PagePlan) :
    o.any PagePlan.isIdentityCard =
      (o.map PagePlan.address).any fun address => address.pagePath == profileFilename := by
  cases o <;> rfl

/-- A page under a key that is nobody's is there for a fact. -/
lemma Fresh.primaryFacts_ne_nil (h : Fresh input key) {page : PagePlan}
    (hpage : input.fullPlan.pages[key]? = some page) : page.primaryFacts ≠ [] := by
  rw [BuildInput.fullPlan, pages_finished, BuildInput.healPageCards, Std.TreeMap.getElem?_map,
    Option.map_eq_some_iff] at hpage
  obtain ⟨before, hbefore, rfl⟩ := hpage
  have hcontent := @content_plan input.casing input.facts input.foundation
    { assignments := input.assignments input.blueprint } (input.conciliation input.blueprint)
    input.registry input.proseLinks
    (((loadPreviousPlan input.dir).map CompilationPlan.authoredRails).getD []) input.now key
  rw [BuildInput.built] at hbefore
  rw [hbefore, Option.map_some] at hcontent
  obtain ⟨raw, hraw, hsame⟩ := Option.map_eq_some_iff.mp hcontent.symm
  obtain ⟨hplaced, hkept⟩ := Option.filter_eq_some_iff.mp hraw
  -- no card has this key, so what kept the page is that it is not empty
  have hcard : raw.isIdentityCard = false := by
    have hany := h.any_isIdentityCard
    rw [BuildInput.pagesThereAre, ← landed_assignments.card, any_isCard,
      ← (@foldl_fallBack input.casing _ input.facts).1, ← any_isCard] at hany
    exact (congrArg (Option.any PagePlan.isIdentityCard) hplaced).symm.trans hany
  have hfacts : raw.primaryFacts = before.primaryFacts := congrArg Prod.snd hsame
  intro hnil
  have hempty : before.primaryFacts = [] := hnil
  simp [isEmptyPage, hcard, hfacts, hempty] at hkept

/-- What is brought to a key is what lands there. -/
lemma broughtTo_eq {replies : ℕ → Option Blueprint}
    (hlight : input.placement = .namedThenCartografo replies) :
    input.broughtTo replies key =
      ((input.landings.filter fun x => x.2 == key).map fun x => x.1.factId).toFinset := by
  rw [BuildInput.broughtTo, BuildInput.landings, BuildInput.assignments,
    assignments_blueprint hlight]

/-- A fact that is brought to a key that is nobody's has a page there. -/
lemma Fresh.exists_page {replies : ℕ → Option Blueprint} (h : Fresh input key)
    (hlight : input.placement = .namedThenCartografo replies)
    (hne : (input.broughtTo replies key).Nonempty) :
    ∃ page, input.fullPlan.pages[key]? = some page := by
  obtain ⟨factId, hmem⟩ := hne
  rw [broughtTo_eq hlight, List.mem_toFinset] at hmem
  obtain ⟨x, hx, hid⟩ := List.mem_map.mp hmem
  obtain ⟨hlanded, hkey⟩ := List.mem_filter.mp hx
  refine exists_of_countAt_pos (?_ : 0 < countAt input.fullPlan.pages key factId)
  rw [h.countAt_fullPlan, countOn_pos_iff]
  exact ⟨x, hlanded, hid, by simpa using hkey⟩

/-- The page under a key that is nobody's has the facts that are brought to it. -/
lemma Fresh.toFinset_primaryFacts {replies : ℕ → Option Blueprint} (h : Fresh input key)
    (hlight : input.placement = .namedThenCartografo replies) {page : PagePlan}
    (hpage : input.fullPlan.pages[key]? = some page) :
    (page.primaryFacts.map FactForPage.factId).toFinset = input.broughtTo replies key := by
  ext factId
  have hcount : countAt input.fullPlan.pages key factId = countOn input.landings key factId :=
    h.countAt_fullPlan
  rw [countAt_of_getElem? hpage] at hcount
  have hpos : 0 < page.count factId ↔ ∃ x ∈ input.landings, x.1.factId = factId ∧ x.2 = key := by
    rw [hcount, countOn_pos_iff]
  rw [broughtTo_eq hlight, List.mem_toFinset, List.mem_toFinset]
  have hpage : factId ∈ page.primaryFacts.map FactForPage.factId ↔ 0 < page.count factId := by
    simp [PagePlan.count, List.countP_pos_iff]
  rw [hpage, hpos]
  simp [and_comm]

end

/-! ## The floor -/

/-- The hourly round brings no page under the floor into the plan exactly when what is said brings
to each key that is nobody's no fact or five. -/
theorem birth_floor_iff (input : BuildInput) (replies : ℕ → Option Blueprint) :
    BirthFloorKept (input.light replies) ↔
      ((input.light replies).keepsPlan = false → ∀ key, Fresh (input.light replies) key →
        (input.light replies).broughtTo replies key = ∅ ∨
          pageBirthFloor ≤ ((input.light replies).broughtTo replies key).card) := by
  have hlight : (input.light replies).placement = .namedThenCartografo replies := rfl
  generalize input.light replies = input at hlight ⊢
  have hfull : (∀ key page, input.fullPlan.pages[key]? = some page → Fresh input key →
      pageBirthFloor ≤ (page.primaryFacts.map FactForPage.factId).toFinset.card) ↔
      ∀ key, Fresh input key → input.broughtTo replies key = ∅ ∨
        pageBirthFloor ≤ (input.broughtTo replies key).card := by
    constructor
    · intro h key hfresh
      refine (Finset.eq_empty_or_nonempty _).imp id fun hne => ?_
      obtain ⟨page, hpage⟩ := hfresh.exists_page hlight hne
      rw [← hfresh.toFinset_primaryFacts hlight hpage]
      exact h key page hpage hfresh
    · intro h key page hpage hfresh
      have hfacts := hfresh.toFinset_primaryFacts hlight hpage
      rw [hfacts]
      refine (h key hfresh).resolve_left fun hempty => ?_
      rw [hempty, List.toFinset_eq_empty_iff, List.map_eq_nil_iff] at hfacts
      exact hfresh.primaryFacts_ne_nil hpage hfacts
  unfold BirthFloorKept buildWikiPlan BuildInput.keepsPlan
  cases hload : loadPreviousPlan input.dir with
  | none => simpa using hfull
  | some prev =>
    cases hreuse : input.reuses prev with
    | false => simpa [hreuse] using hfull
    | true =>
      -- a plan that is kept brings nothing
      simp only [if_true, Option.any_some, hreuse, Bool.true_eq_false, false_implies, iff_true]
      intro key page hpage hfresh
      simp [BuildInput.reusedPlan, BuildInput.healPageCards, hfresh.carried prev hload] at hpage

/-! ### A page nobody proposed -/

/-- An answer that puts one fact on a page and proposes none. -/
def unproposed : ℕ → Option Blueprint :=
  fun _ => some { assignments := [⟨newcomer.factId.val, "orto".toList⟩] }

lemma fresh_orto : Fresh ((answered []).light unproposed) "orto".toList :=
  ⟨by decide +kernel, by decide +kernel, fun prev hprev => (by cases hprev), by decide +kernel⟩

/-- A page that is not proposed is born of one fact. -/
theorem page_born_of_one_fact :
    ¬ ∀ (input : BuildInput) (replies : ℕ → Option Blueprint),
      BirthFloorKept (input.light replies) := by
  intro h
  have hborn : ((buildWikiPlan ((answered []).light unproposed)).pages["orto".toList]?.map
      fun page => (page.primaryFacts.map FactForPage.factId).toFinset.card) = some 1 := by
    decide +kernel
  obtain ⟨page, hpage, hone⟩ := Option.map_eq_some_iff.mp hborn
  have hfloor := h (answered []) unproposed _ page hpage fresh_orto
  rw [hone] at hfloor
  exact absurd hfloor (by decide)

end Mwe.Planner
