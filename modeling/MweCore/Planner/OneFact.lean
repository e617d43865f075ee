import MweCore.Planner.WikiPlan

/-!
# One fact, one page

The assignments of a build come from four places: the pages the facts had, the pages the user
named, the answers of a model, and the net of the last round.  `buildCompilationPlan` obeys each
of them, and never asks whether a fact has been placed already.  So the plan has a fact on two
pages exactly when two assignments of it land (`one_fact_one_page_iff`).
-/

namespace Mwe.Planner

/-! ## Lists of placements -/

section

variable {pages : SlugMap PagePlan} {placements : List (FactForPage × Str)}

/-- A page has a fact when the list places it there. -/
lemma countOn_pos_iff {key : Str} {factId : FactId} :
    0 < countOn placements key factId ↔ ∃ x ∈ placements, x.1.factId = factId ∧ x.2 = key := by
  simp [countOn, List.countP_pos_iff]

/-- A plan has each fact once when its list of placements has. -/
lemma oneFactOnePage_iff_nodup
    (h : ∀ key factId, countAt pages key factId = countOn placements key factId) :
    OneFactOnePage pages ↔ (placements.map fun x => x.1.factId).Nodup := by
  constructor
  · intro hone
    refine List.nodup_iff_count_le_one.mpr fun factId => ?_
    rw [List.count_eq_countP, List.countP_map]
    by_cases hfact : ∃ x ∈ placements, x.1.factId = factId
    · obtain ⟨x, hx, rfl⟩ := hfact
      -- every other placement of the fact is on the same page
      have hsame : ∀ y ∈ placements, y.1.factId = x.1.factId → y.2 = x.2 := fun y hy hid =>
        hone.samePage _ _ x.1.factId (h _ _ ▸ countOn_pos_iff.mpr ⟨y, hy, hid, rfl⟩)
          (h _ _ ▸ countOn_pos_iff.mpr ⟨x, hx, rfl, rfl⟩)
      have hcount : countOn placements x.2 x.1.factId ≤ 1 := h _ _ ▸ hone.once _ _
      refine le_trans (le_of_eq (List.countP_congr fun y hy => ?_)) hcount
      simp only [Function.comp_apply, beq_iff_eq, decide_eq_true_eq]
      exact ⟨fun hid => ⟨hid, hsame y hy hid⟩, fun hid => hid.1⟩
    · have hzero : placements.countP ((· == factId) ∘ fun x => x.1.factId) = 0 := by
        refine List.countP_eq_zero.mpr fun x hx => ?_
        simp only [Function.comp_apply, beq_iff_eq]
        exact fun hid => hfact ⟨x, hx, hid⟩
      omega
  · intro hnodup
    refine ⟨fun key factId => ?_, fun key key' factId hkey hkey' => ?_⟩
    · have hcount := List.nodup_iff_count_le_one.mp hnodup factId
      rw [List.count_eq_countP, List.countP_map] at hcount
      refine (h key factId).trans_le (le_trans (List.countP_mono_left fun x _ hx => ?_) hcount)
      simpa using (of_decide_eq_true hx).1
    · rw [h, countOn_pos_iff] at hkey hkey'
      obtain ⟨x, hx, hid, rfl⟩ := hkey
      obtain ⟨y, hy, hid', rfl⟩ := hkey'
      rw [List.inj_on_of_nodup_map hnodup hx hy (hid.trans hid'.symm)]

/-- What the cards take is a part of the facts, in their order. -/
lemma map_fallbacks_sublist (casing : Casing) (facts : List FactForPage)
    (landed : List (FactForPage × Str)) :
    ((fallbacks casing pages facts landed).map Prod.fst).Sublist
      (facts.filter fun f => !(landed.any fun x => x.1.factId.val == f.factId.val)) := by
  rw [fallbacks]
  generalize facts.filter (fun f => !(landed.any fun x => x.1.factId.val == f.factId.val)) = l
  induction l with
  | nil => exact List.Sublist.refl _
  | cons f l ih =>
    rw [List.filterMap_cons]
    split
    · exact ih.cons _
    · next x hx =>
      split at hx
      · obtain ⟨slug, -, rfl⟩ := Option.map_eq_some_iff.mp hx
        exact ih.cons_cons _
      · cases hx

/-- The cards take a fact once, and only if nobody has placed it. -/
lemma nodup_placements_iff {casing : Casing} {facts : List FactForPage}
    (hnodup : (facts.map FactForPage.factId).Nodup) {landed : List (FactForPage × Str)} :
    ((landed ++ fallbacks casing pages facts landed).map fun x => x.1.factId).Nodup ↔
      (landed.map fun x => x.1.factId).Nodup := by
  have hsublist := @map_fallbacks_sublist pages casing facts landed
  rw [List.map_append, List.nodup_append]
  refine ⟨fun h => h.1, fun h => ⟨h, ?_, ?_⟩⟩
  · have hfacts := (hsublist.trans List.filter_sublist).map FactForPage.factId
    rw [List.map_map] at hfacts
    exact hnodup.sublist hfacts
  · intro id hid id' hid' heq
    obtain ⟨x, hx, rfl⟩ := List.mem_map.mp hid
    obtain ⟨y, hy, rfl⟩ := List.mem_map.mp hid'
    have hfree := (List.mem_filter.mp (hsublist.subset (List.mem_map_of_mem hy))).2
    rw [Bool.not_eq_true', List.any_eq_false] at hfree
    exact hfree x hx (by rw [heq]; simp)

end

/-! ## Builds -/

namespace BuildInput

variable (input : BuildInput)

/-- The pages the assignments of a build find. -/
def pagesThereAre : SlugMap PagePlan :=
  Planner.pagesThereAre input.facts input.foundation (input.assignments input.blueprint)
    (input.conciliation input.blueprint) input.registry input.now

/-- The facts the assignments of a build land, each with its page. -/
def landings : List (FactForPage × Str) :=
  Planner.landings input.casing (factMap input.facts)
    (input.conciliation input.blueprint).redirects input.pagesThereAre []
    (input.assignments input.blueprint)

/-- What the model answers in the last round of the night, and the facts it is asked about. -/
def closing : Option (Blueprint × List FactForPage) :=
  match input.placement with
  | .closingCartografo replies =>
    let asked := ((loadPreviousPlan input.dir).map input.newFacts).getD input.facts
    some (classifyFacts replies asked input.foundation input.registry, asked)
  | _ => none

end BuildInput

/-- Whether an assignment puts a fact on an identity card that takes it. -/
def PutsOnCard (input : BuildInput) (f : FactForPage) (a : Assignment) : Prop :=
  a.factId = f.factId.val ∧
    ∃ page, (input.foundation[a.pageSlug]? = some page ∨
        namesTheCard a.pageSlug = true ∧
          input.foundation[slugify f.sourceWikiId]? = some page) ∧
      page.isIdentityCard = true ∧ turnsAway input.casing page f = false

/-- One fact, one page: the plan has each fact once, and the net of the last round gives no page to
a fact that the model put on a card that takes it. -/
structure OneFactOnePageKept (input : BuildInput) : Prop where
  plan : OneFactOnePage (buildWikiPlan input).pages
  net : ∀ bp asked, input.closing = some (bp, asked) → ∀ f ∈ asked, ∀ a ∈ bp.assignments,
    PutsOnCard input f a →
      ∀ a' ∈ covered input.casing bp asked input.foundation, a'.factId ≠ f.factId.val

/-- Nobody places a fact twice. -/
structure PlacedOnce (input : BuildInput) : Prop where
  /-- no two assignments that the build obeys land the same fact -/
  landings : input.keepsPlan = false → (input.landings.map fun x => x.1.factId).Nodup
  /-- the net sees that the fact is placed, or leaves it alone for a reason of its own -/
  net : ∀ bp asked, input.closing = some (bp, asked) → ∀ f ∈ asked, ∀ a ∈ bp.assignments,
    PutsOnCard input f a →
      (∃ a' ∈ bp.assignments, a'.factId = f.factId.val ∧
        countsAsPlaced asked input.foundation a' = true) ∨
      (factBelongsOnACard input.casing f = true ∧
        (identityCardTarget f input.foundation).isSome = true) ∨
      leftoverSlug f = none

section

variable {input : BuildInput} {key : Str} {factId : FactId}

lemma countAt_healPageCards (plan : CompilationPlan) :
    countAt (input.healPageCards plan).pages key factId = countAt plan.pages key factId := by
  rw [countAt, BuildInput.healPageCards, Std.TreeMap.getElem?_map, Option.map_map]
  rfl

lemma pages_finished (plan : CompilationPlan) :
    (input.finished plan).pages = (input.healPageCards plan).pages := by
  unfold BuildInput.finished
  cases loadPreviousPlan input.dir <;> rfl

/-- A full build has the facts where its placements say. -/
lemma countAt_fullPlan :
    countAt input.fullPlan.pages key factId =
      countOn (placements input.casing input.facts input.foundation
        (input.assignments input.blueprint) (input.conciliation input.blueprint) input.registry
        input.now) key factId := by
  rw [BuildInput.fullPlan, pages_finished, countAt_healPageCards]
  exact countAt_buildCompilationPlan

/-- The facts of a build have ids of their own when the facts it is given have. -/
lemma nodup_facts (h : ((input.gathered ++ input.waiting).map FactForPage.factId).Nodup) :
    (input.facts.map FactForPage.factId).Nodup :=
  ((List.perm_insertionSort _ _).map _).nodup_iff.mpr h

lemma oneFactOnePage_congr {pages pages' : SlugMap PagePlan}
    (h : ∀ key factId, countAt pages key factId = countAt pages' key factId) :
    OneFactOnePage pages ↔ OneFactOnePage pages' := by
  constructor
  · intro hone
    exact ⟨fun key factId => h key factId ▸ hone.once key factId,
      fun key key' factId hkey hkey' =>
        hone.samePage _ _ factId ((h _ _).symm ▸ hkey) ((h _ _).symm ▸ hkey')⟩
  · intro hone
    exact ⟨fun key factId => (h key factId).symm ▸ hone.once key factId,
      fun key key' factId hkey hkey' =>
        hone.samePage _ _ factId ((h _ _) ▸ hkey) ((h _ _) ▸ hkey')⟩

/-- The net leaves a fact alone when it sees that the fact is placed, or has no page to give. -/
lemma forall_mem_covered_iff {bp : Blueprint} {asked : List FactForPage} {f : FactForPage}
    (hnodup : (asked.map FactForPage.factId).Nodup) (hf : f ∈ asked) :
    (∀ a' ∈ covered input.casing bp asked input.foundation, a'.factId ≠ f.factId.val) ↔
      (∃ a' ∈ bp.assignments, a'.factId = f.factId.val ∧
        countsAsPlaced asked input.foundation a' = true) ∨
      (factBelongsOnACard input.casing f = true ∧
        (identityCardTarget f input.foundation).isSome = true) ∨
      leftoverSlug f = none := by
  have hplaced : ((bp.assignments.filter (countsAsPlaced asked input.foundation)).map
      Assignment.factId).contains f.factId.val = true ↔
      ∃ a' ∈ bp.assignments, a'.factId = f.factId.val ∧
        countsAsPlaced asked input.foundation a' = true := by
    simp only [List.contains_iff_mem, List.mem_map, List.mem_filter]
    exact exists_congr fun a' => by tauto
  rw [← hplaced]
  constructor
  · intro h
    by_contra hgiven
    rw [not_or, not_or, Bool.not_eq_true] at hgiven
    obtain ⟨hfree, hcard, hslug⟩ := hgiven
    obtain ⟨slug, hslug⟩ := Option.ne_none_iff_exists'.mp hslug
    have hcard : (factBelongsOnACard input.casing f &&
        (identityCardTarget f input.foundation).isSome) = false := by
      rw [← Bool.not_eq_true, Bool.and_eq_true]
      exact hcard
    refine h ⟨f.factId.val, slug⟩ (List.mem_filterMap.mpr ⟨f, hf, ?_⟩) rfl
    rw [hfree, hcard, hslug]
    rfl
  · rintro hgiven a' ha' hid
    obtain ⟨g, hg, hcovered⟩ := List.mem_filterMap.mp ha'
    split at hcovered
    · cases hcovered
    · next hfree =>
      split at hcovered
      · cases hcovered
      · next hcard =>
        obtain ⟨slug, hslug, rfl⟩ := Option.map_eq_some_iff.mp hcovered
        obtain rfl := List.inj_on_of_nodup_map hnodup hg hf (FactId.val_injective hid)
        rw [Bool.and_eq_true] at hcard
        rw [hslug] at hgiven
        exact hgiven.elim hfree fun h => h.elim hcard (by simp)

/-- The facts the last round is asked about have ids of their own. -/
lemma nodup_asked (h : (input.facts.map FactForPage.factId).Nodup) {bp : Blueprint}
    {asked : List FactForPage} (hclosing : input.closing = some (bp, asked)) :
    (asked.map FactForPage.factId).Nodup := by
  unfold BuildInput.closing at hclosing
  split at hclosing
  · obtain ⟨-, rfl⟩ := Prod.mk.inj (Option.some.inj hclosing)
    cases loadPreviousPlan input.dir with
    | none => exact h
    | some prev => exact h.sublist (List.filter_sublist.map _)
  · cases hclosing

/-- A plan that is built has each fact once when no two assignments land the same. -/
lemma oneFactOnePage_buildWikiPlan_iff
    (hnodup : ((input.gathered ++ input.waiting).map FactForPage.factId).Nodup)
    (hprev : ∀ prev, loadPreviousPlan input.dir = some prev → OneFactOnePage prev.pages) :
    OneFactOnePage (buildWikiPlan input).pages ↔
      (input.keepsPlan = false → (input.landings.map fun x => x.1.factId).Nodup) := by
  have hfull : OneFactOnePage input.fullPlan.pages ↔
      (input.landings.map fun x => x.1.factId).Nodup :=
    (oneFactOnePage_iff_nodup fun key factId => countAt_fullPlan).trans
      (nodup_placements_iff (nodup_facts hnodup))
  unfold buildWikiPlan BuildInput.keepsPlan
  cases hload : loadPreviousPlan input.dir with
  | none => simpa using hfull
  | some prev =>
    cases hreuse : input.reuses prev with
    | false => simpa [hreuse] using hfull
    | true =>
      simp only [if_true, Option.any_some, hreuse, Bool.true_eq_false, false_implies, iff_true]
      exact (oneFactOnePage_congr fun key factId => countAt_healPageCards _).mpr (hprev prev hload)

end

/-- A build puts each fact on one page, and its net puts nobody on a second, exactly when nobody
places a fact twice. -/
theorem one_fact_one_page_iff (input : BuildInput)
    (hnodup : ((input.gathered ++ input.waiting).map FactForPage.factId).Nodup)
    (hprev : ∀ prev, loadPreviousPlan input.dir = some prev → OneFactOnePage prev.pages) :
    OneFactOnePageKept input ↔ PlacedOnce input := by
  have hplan := oneFactOnePage_buildWikiPlan_iff hnodup hprev
  constructor
  · intro h
    refine ⟨hplan.mp h.plan, fun bp asked hclosing f hf a ha hputs => ?_⟩
    exact (forall_mem_covered_iff (nodup_asked (nodup_facts hnodup) hclosing) hf).mp
      (h.net bp asked hclosing f hf a ha hputs)
  · intro h
    refine ⟨hplan.mpr h.landings, fun bp asked hclosing f hf a ha hputs => ?_⟩
    exact (forall_mem_covered_iff (nodup_asked (nodup_facts hnodup) hclosing) hf).mpr
      (h.net bp asked hclosing f hf a ha hputs)

/-! ### A fact that is answered twice -/

/-- A fact nobody has placed. -/
def newcomer : FactForPage where
  factId := ⟨"018f1234-5678-7abc-9def-0123456789ab".toList, isFactId_ab⟩
  text := "The tomatoes are in".toList
  subject := .user "anna".toList
  sourceWikiId := "anna".toList

/-- A first build, in which the model puts the fact on the pages that are listed. -/
def answered (slugs : List Str) : BuildInput where
  casing := ⟨fun c => [c], id⟩
  gathered := [newcomer]
  dir := {}
  placement := .cartografo fun _ => some
    { assignments := slugs.map fun slug => ⟨newcomer.factId.val, slug⟩ }
  now := []

/-- An answer that names the fact once puts it on one page. -/
theorem one_fact_one_page_answeredOnce :
    OneFactOnePageKept (answered ["orto".toList]) := by
  refine (one_fact_one_page_iff _ (by decide) fun prev hprev => by cases hprev).mpr ⟨fun _ => ?_, ?_⟩
  · decide +kernel
  · intro bp asked hclosing
    cases hclosing

/-- An answer that names the fact twice puts it on two pages. -/
theorem fact_on_two_pages :
    ¬ ∀ input : BuildInput, ((input.gathered ++ input.waiting).map FactForPage.factId).Nodup →
      (∀ prev, loadPreviousPlan input.dir = some prev → OneFactOnePage prev.pages) →
      OneFactOnePageKept input := by
  intro h
  have hone := (h (answered ["orto".toList, "cucina".toList]) (by decide)
    fun prev hprev => by cases hprev).plan
  exact absurd hone (by decide +kernel)

end Mwe.Planner
