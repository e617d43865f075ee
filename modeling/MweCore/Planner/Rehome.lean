import MweCore.Planner.Plan

/-!
# Moving facts in the persisted plan

A structural move rewrites files and rows, and the plan has to follow, or the next build puts every
moved fact back.  `rehomeFactsInPersistedPlan` takes each moved fact off its page, puts it on its
destination, makes that page when the plan has none of its key, and drops the pages that emptied
out.

A page is found by its key alone, and the key of a name knows nothing of the wiki.  So a page may
be dragged to another address by a move to a page of the same name elsewhere, and a husk may take
facts with it that nobody moved.  `rehome_exact_iff` says when neither happens.
-/

namespace Mwe.Planner

/-! ## The code -/

/-- What a destination page is to be when the plan does not know it. -/
structure RehomePageSeed where
  slug : Str
  title : Str
  description : Str := []
  style : Option PageStyle := none
  wikiId : Str
  pagePath : Option Str := none

/-- The seed of a concept page, made of a slug alone. -/
def RehomePageSeed.concept (casing : Casing) (slug wikiId : Str) : RehomePageSeed where
  slug := slugify slug
  title := titleOf casing (slugify slug)
  wikiId := wikiId

/-- The seed of any page of a wiki. -/
def RehomePageSeed.pageInWiki (casing : Casing) (page wikiId : Str) : RehomePageSeed where
  slug := planSlugForPage wikiId page
  title := titleOf casing (planSlugForPage wikiId page)
  wikiId := wikiId
  pagePath := some page

/-- Where a seed means its page to be, under the key it is planned with. -/
def RehomePageSeed.address (seed : RehomePageSeed) (key : Str) : Address where
  wikiId := seed.wikiId
  pagePath := seed.pagePath.getD (key ++ ".md".toList)

/-- The page a seed makes. -/
def RehomePageSeed.page (seed : RehomePageSeed) (key : Str) : PagePlan where
  slug := key
  title := seed.title
  description := seed.description
  style := seed.style
  wikiId := seed.wikiId
  pagePath := seed.pagePath.getD (key ++ ".md".toList)

/-- The registry entry a seed makes. -/
def RehomePageSeed.entry (seed : RehomePageSeed) (key now : Str) : ConceptRegistryEntry where
  slug := key
  title := seed.title
  description := seed.description
  style := seed.style
  wikiId := seed.wikiId
  createdAt := now

/-- A fact and the page it goes to. -/
structure Move where
  row : FactRow
  seed : RehomePageSeed

/-- The plan and the registry while they are edited. -/
structure Rehoming where
  plan : CompilationPlan
  registry : ConceptRegistry
  touched : Std.TreeSet Str := ∅
  seeded : Std.TreeSet Str := ∅
  rehomed : ℕ := 0

namespace Rehoming

/-- Take a fact off every page. -/
def detach (factId : FactId) (st : Rehoming) : Rehoming :=
  { st with
    plan := { st.plan with pages := st.plan.pages.map fun _ page => page.without factId }
    touched := st.plan.pages.toList.foldl
      (fun touched (slug, page) =>
        if (page.without factId).primaryFacts.length ≠ page.primaryFacts.length then
          touched.insert slug
        else touched)
      st.touched }

/-- Make the destination page, unless the plan has one with its key. -/
def seedDestination (seed : RehomePageSeed) (dest now : Str) (st : Rehoming) : Rehoming :=
  if st.plan.pages.contains dest then st
  else
    { st with
      plan :=
        { st.plan with
          pages := st.plan.pages.insert dest (seed.page dest)
          compilationOrder :=
            if st.plan.compilationOrder.contains dest then st.plan.compilationOrder
            else st.plan.compilationOrder ++ [dest] }
      registry :=
        { st.registry with
          entries := st.registry.entries.insertIfNew dest (seed.entry dest now) } }

/-- A page once a fact has landed on it; a seed that names its file takes the page there. -/
def landed (move : Move) (page : PagePlan) : PagePlan :=
  (match move.seed.pagePath with
    | some path => page.movedTo ⟨move.seed.wikiId, path⟩
    | none => page).withFact (FactForPage.fromRow move.row)

/-- Put the fact on its destination page. -/
def attach (move : Move) (dest : Str) (st : Rehoming) : Rehoming :=
  if st.plan.pages.contains dest then
    { st with
      plan := { st.plan with pages := st.plan.pages.modify dest (landed move) }
      touched := st.touched.insert dest
      seeded := st.seeded.insert dest
      rehomed := st.rehomed + 1 }
  else st

/-- The key a move goes to: a key the plan holds is left as it is. -/
def destOf (pages : SlugMap PagePlan) (move : Move) : Str :=
  if pages.contains move.seed.slug then move.seed.slug else slugify move.seed.slug

/-- One move. -/
def move (now : Str) (st : Rehoming) (m : Move) : Rehoming :=
  let dest := destOf st.plan.pages m
  if dest.isEmpty then st
  else ((st.detach m.row.factId).seedDestination m.seed dest now).attach m dest

/-- Drop a page that emptied out, unless something moved to it. -/
def removeHusk (st : Rehoming) (husk : Str) : Rehoming :=
  let husk := slugify husk
  if st.seeded.contains husk then st
  else
    { st with
      plan :=
        if st.plan.pages.contains husk then
          { st.plan with
            pages := (st.plan.pages.erase husk).map fun _ page =>
              { page with outgoingLinks := page.outgoingLinks.filter (· ≠ husk) }
            mergedPages := st.plan.mergedPages ++
              [⟨husk, "—".toList, "act-first re-home removed the page".toList⟩]
            compilationOrder := st.plan.compilationOrder.filter (· ≠ husk)
            dirtyPages := st.plan.dirtyPages.filter (· ≠ husk)
            linkGraph := (st.plan.linkGraph.erase husk).map fun _ links =>
              links.filter (· ≠ husk) }
        else st.plan
      registry := { st.registry with entries := st.registry.entries.erase husk }
      touched := st.touched.erase husk }

end Rehoming

/-- One more page to compile whatever its fingerprint says. -/
def parkForceDirty (forceDirty : List Str) (slug : Str) : List Str :=
  if forceDirty.contains slug then forceDirty else forceDirty ++ [slug]

/-- Move facts in the persisted plan and drop the pages that emptied out; the number of facts that
were moved, and the two files. -/
def rehomeFactsInPersistedPlan (dir : PlanDir) (moves : List Move) (removePages : List Str)
    (now : Str) : ℕ × PlanDir :=
  match loadPreviousPlan dir with
  | none => (0, dir)
  | some plan =>
    let st := removePages.foldl Rehoming.removeHusk
      (moves.foldl (Rehoming.move now) ⟨plan, loadConceptRegistry dir now, ∅, ∅, 0⟩)
    (st.rehomed,
      { plan := some
          { st.plan with
            forceDirty := st.touched.toList.foldl parkForceDirty st.plan.forceDirty
            generatedAt := now }
        registry := some st.registry })

/-! ## Which move has the last word -/

section LastWord

variable (pages : SlugMap PagePlan) (moves : List Move)

/-- Whether a move names a page at all. -/
def usable (m : Move) : Bool := !(Rehoming.destOf pages m).isEmpty

/-- Whether a move goes to the page with this key. -/
def goesTo (key : Str) (m : Move) : Bool := usable pages m && Rehoming.destOf pages m == key

/-- The last move of a fact. -/
def lastMoveOf (factId : FactId) : Option Move :=
  (moves.filter fun m => usable pages m && m.row.factId == factId).getLast?

/-- The last move to a key whose seed names its file. -/
def lastPinned (key : Str) : Option Move :=
  (moves.filter fun m => goesTo pages key m && m.seed.pagePath.isSome).getLast?

/-- The address the page with this key is left at: what the last seed with a file says, else what
the plan says, else what the seed that made the page says. -/
def addressAfter (key : Str) : Option Address :=
  ((lastPinned pages moves key).map fun m => m.seed.address key).or
    ((pages[key]?.map PagePlan.address).or
      ((moves.find? (goesTo pages key)).map fun m => m.seed.address key))

end LastWord

section

variable {pages : SlugMap PagePlan} {moves : List Move} {m : Move} {key : Str} {factId : FactId}

lemma lastMoveOf_append : lastMoveOf pages (moves ++ [m]) factId =
    if usable pages m ∧ m.row.factId = factId then some m else lastMoveOf pages moves factId := by
  by_cases h : usable pages m ∧ m.row.factId = factId
  · simp [lastMoveOf, List.filter_append, h]
  · have hf : (usable pages m && m.row.factId == factId) = false := by simpa using h
    simp [lastMoveOf, List.filter_append, hf, h]

lemma addressAfter_append_of_not_goesTo (h : goesTo pages key m = false) :
    addressAfter pages (moves ++ [m]) key = addressAfter pages moves key := by
  simp [addressAfter, lastPinned, List.filter_append, List.find?_append, h]

lemma addressAfter_append_of_pinned (h : goesTo pages key m = true)
    (hpath : m.seed.pagePath.isSome) :
    addressAfter pages (moves ++ [m]) key = some (m.seed.address key) := by
  simp [addressAfter, lastPinned, List.filter_append, h, hpath]

lemma addressAfter_append_of_not_pinned (h : goesTo pages key m = true)
    (hpath : m.seed.pagePath = none) :
    addressAfter pages (moves ++ [m]) key =
      (addressAfter pages moves key).or (some (m.seed.address key)) := by
  simp [addressAfter, lastPinned, List.filter_append, List.find?_append, h, hpath]

/-- A key has an address when the plan had its page or something moves there. -/
lemma isSome_addressAfter :
    (addressAfter pages moves key).isSome ↔
      pages.contains key ∨ ∃ m ∈ moves, goesTo pages key m = true := by
  induction moves using List.reverseRecOn with
  | nil => simp [addressAfter, lastPinned]
  | append_singleton moves m ih =>
    simp only [List.mem_append, List.mem_singleton, or_and_right, exists_or, exists_eq_left]
    cases h : goesTo pages key m with
    | false => rw [addressAfter_append_of_not_goesTo h, ih]; simp
    | true =>
      cases hpath : m.seed.pagePath with
      | none => simp [addressAfter_append_of_not_pinned h hpath]
      | some path => simp [addressAfter_append_of_pinned h (hpath ▸ rfl)]

end

/-! ## One move, and a run of moves -/

namespace Rehoming

lemma mem_foldl_insert {α : Type*} {l : List α} {p : α → Prop} [DecidablePred p] {f : α → Str}
    {key : Str} (t : Std.TreeSet Str) :
    key ∈ l.foldl (fun t x => if p x then t.insert (f x) else t) t ↔
      key ∈ t ∨ ∃ x ∈ l, p x ∧ f x = key := by
  induction l generalizing t with
  | nil => simp
  | cons x l ih =>
    rw [List.foldl_cons, ih]
    by_cases hx : p x
    · simp only [hx, if_true, Std.TreeSet.mem_insert, Std.compare_eq_iff_eq, List.mem_cons,
        exists_eq_or_imp, true_and]
      tauto
    · simp [hx]

variable {st : Rehoming} {m : Move} {now key : Str} {factId : FactId}

lemma mem_touched_detach :
    key ∈ (st.detach factId).touched ↔
      key ∈ st.touched ∨ 0 < countAt st.plan.pages key factId := by
  have hdetach : key ∈ (st.detach factId).touched ↔ _ :=
    mem_foldl_insert (f := Prod.fst) (p := fun x =>
      ((x.2 : PagePlan).without factId).primaryFacts.length ≠ x.2.primaryFacts.length) st.touched
  simp only [PagePlan.length_without_ne_iff] at hdetach
  rw [hdetach]
  refine or_congr_right ⟨?_, fun hpos => ?_⟩
  · rintro ⟨⟨slug, page⟩, hmem, hcount, rfl⟩
    rw [countAt_of_getElem? (Std.TreeMap.mem_toList_iff_getElem?_eq_some.mp hmem)]
    exact hcount
  · obtain ⟨page, hpage⟩ := exists_of_countAt_pos hpos
    rw [countAt_of_getElem? hpage] at hpos
    exact ⟨(key, page), Std.TreeMap.mem_toList_iff_getElem?_eq_some.mpr hpage, hpos, rfl⟩

@[simp] lemma touched_seedDestination (seed : RehomePageSeed) (dest : Str) :
    (st.seedDestination seed dest now).touched = st.touched := by
  unfold seedDestination
  split <;> rfl

@[simp] lemma seeded_seedDestination (seed : RehomePageSeed) (dest : Str) :
    (st.seedDestination seed dest now).seeded = st.seeded := by
  unfold seedDestination
  split <;> rfl

lemma getElem?_seedDestination (seed : RehomePageSeed) (dest : Str) :
    (st.seedDestination seed dest now).plan.pages[key]? =
      if dest = key then some (st.plan.pages[key]?.getD (seed.page key))
      else st.plan.pages[key]? := by
  unfold seedDestination
  by_cases hdest : dest = key
  · subst hdest
    cases hpage : st.plan.pages[dest]? with
    | none =>
      have hno : st.plan.pages.contains dest = false := by
        rw [Std.TreeMap.contains_eq_isSome_getElem?, hpage]; rfl
      simp [hno]
    | some page =>
      have hyes : st.plan.pages.contains dest = true := by
        rw [Std.TreeMap.contains_eq_isSome_getElem?, hpage]; rfl
      simp [hyes, hpage]
  · rw [if_neg hdest]
    split
    · rfl
    · simp [Std.TreeMap.getElem?_insert, hdest]

lemma contains_seedDestination (seed : RehomePageSeed) (dest : Str) :
    (st.seedDestination seed dest now).plan.pages.contains dest = true := by
  rw [Std.TreeMap.contains_eq_isSome_getElem?, getElem?_seedDestination, if_pos rfl]
  rfl

/-- A move that names a page, as its three steps. -/
lemma move_eq (h : usable st.plan.pages m = true) :
    st.move now m =
      let dest := destOf st.plan.pages m
      let made := (st.detach m.row.factId).seedDestination m.seed dest now
      { made with
        plan := { made.plan with pages := made.plan.pages.modify dest (landed m) }
        touched := made.touched.insert dest
        seeded := made.seeded.insert dest
        rehomed := made.rehomed + 1 } := by
  have hdest : ¬ (destOf st.plan.pages m).isEmpty = true := by simpa [usable] using h
  simp only [move, if_neg hdest, attach]
  rw [if_pos (contains_seedDestination _ _)]

/-- The pages after a move that names a page. -/
lemma getElem?_move (h : usable st.plan.pages m = true) :
    (st.move now m).plan.pages[key]? =
      if destOf st.plan.pages m = key then
        some (landed m ((st.plan.pages[key]?.map fun page => page.without m.row.factId).getD
          (m.seed.page key)))
      else st.plan.pages[key]?.map fun page => page.without m.row.factId := by
  rw [move_eq h]
  simp only [Std.TreeMap.getElem?_modify, Std.compare_eq_iff_eq, getElem?_seedDestination]
  split
  · next hdest =>
    subst hdest
    simp [detach]
  · simp [detach]

/-- A fact lands where its seed says, when the seed names a file. -/
lemma address_landed (page : PagePlan) :
    (landed m page).address =
      (m.seed.pagePath.map fun path => Address.mk m.seed.wikiId path).getD page.address := by
  unfold landed
  cases m.seed.pagePath <;> rfl

lemma count_landed (page : PagePlan) :
    (landed m page).count factId = page.count factId + if m.row.factId = factId then 1 else 0 := by
  unfold landed
  cases m.seed.pagePath <;> exact PagePlan.count_withFact

/-- A move takes its fact off every page and puts it once on its destination. -/
lemma countAt_move (h : usable st.plan.pages m = true) :
    countAt (st.move now m).plan.pages key factId =
      if m.row.factId = factId then (if destOf st.plan.pages m = key then 1 else 0)
      else countAt st.plan.pages key factId := by
  have hnew : (m.seed.page key).count factId = 0 := rfl
  simp only [countAt, getElem?_move h]
  by_cases hdest : destOf st.plan.pages m = key
  · rw [if_pos hdest, Option.map_some, Option.getD_some, count_landed]
    cases st.plan.pages[key]? with
    | none => by_cases hfact : m.row.factId = factId <;> simp [hfact, hnew, hdest]
    | some page =>
      by_cases hfact : m.row.factId = factId
      · simp [hfact, hdest]
      · simp [hfact, Ne.symm hfact]
  · rw [if_neg hdest, Option.map_map]
    cases st.plan.pages[key]? with
    | none => by_cases hfact : m.row.factId = factId <;> simp [hfact, hdest]
    | some page =>
      by_cases hfact : m.row.factId = factId
      · simp [hfact, hdest]
      · simp [hfact, Ne.symm hfact]

lemma mem_touched_move (h : usable st.plan.pages m = true) :
    key ∈ (st.move now m).touched ↔
      destOf st.plan.pages m = key ∨ key ∈ st.touched ∨
        0 < countAt st.plan.pages key m.row.factId := by
  rw [move_eq h]
  simp [Std.TreeSet.mem_insert, mem_touched_detach]

lemma mem_seeded_move (h : usable st.plan.pages m = true) :
    key ∈ (st.move now m).seeded ↔ destOf st.plan.pages m = key ∨ key ∈ st.seeded := by
  rw [move_eq h]
  simp [Std.TreeSet.mem_insert, detach]

lemma move_eq_self (h : usable st.plan.pages m = false) : st.move now m = st := by
  have hdest : (destOf st.plan.pages m).isEmpty = true := by simpa [usable] using h
  simp [move, hdest]

end Rehoming

/-- The plan after a list of moves, read off the plan before them. -/
structure Moved (pages : SlugMap PagePlan) (moves : List Move) (st : Rehoming) : Prop where
  address : ∀ key, st.plan.pages[key]?.map PagePlan.address = addressAfter pages moves key
  count : ∀ key factId, countAt st.plan.pages key factId =
    match lastMoveOf pages moves factId with
    | some m => if Rehoming.destOf pages m = key then 1 else 0
    | none => countAt pages key factId
  untouched : ∀ key, key ∉ st.touched →
    st.plan.pages[key]?.map PagePlan.primaryFacts = pages[key]?.map PagePlan.primaryFacts
  seeded : ∀ key, key ∈ st.seeded ↔ ∃ m ∈ moves, goesTo pages key m = true

namespace Moved

variable {pages : SlugMap PagePlan} {moves : List Move} {st : Rehoming} {now : Str}

/-- The moves before it do not change where a move goes. -/
lemma destOf_eq (h : Moved pages moves st) (m : Move) :
    Rehoming.destOf st.plan.pages m = Rehoming.destOf pages m := by
  have hcontains : st.plan.pages.contains m.seed.slug = true ↔
      pages.contains m.seed.slug ∨ ∃ m' ∈ moves, goesTo pages m.seed.slug m' = true := by
    rw [← isSome_addressAfter, ← h.address, Option.isSome_map,
      Std.TreeMap.contains_eq_isSome_getElem?]
  unfold Rehoming.destOf
  by_cases hold : pages.contains m.seed.slug
  · rw [if_pos hold, if_pos (hcontains.mpr (.inl hold))]
  · rw [if_neg hold]
    by_cases hnew : ∃ m' ∈ moves, goesTo pages m.seed.slug m' = true
    · -- the page was made by an earlier move, so its key is the key of a name
      rw [if_pos (hcontains.mpr (.inr hnew))]
      obtain ⟨m', -, hgoes⟩ := hnew
      have hslug : Rehoming.destOf pages m' = m.seed.slug := by
        simpa [goesTo] using (Bool.and_eq_true_iff.mp hgoes).2
      unfold Rehoming.destOf at hslug
      split at hslug
      · next hheld => exact absurd (hslug ▸ hheld) hold
      · rw [← hslug, slugify_slugify]
    · rw [if_neg fun hc => (hcontains.mp hc).elim hold hnew]

lemma usable_eq (h : Moved pages moves st) (m : Move) :
    usable st.plan.pages m = usable pages m := by
  rw [usable, usable, h.destOf_eq]

/-- Before the first move. -/
lemma nil (plan : CompilationPlan) (registry : ConceptRegistry) :
    Moved plan.pages [] { plan, registry } where
  address key := by simp [addressAfter, lastPinned]
  count key factId := by simp [lastMoveOf]
  untouched key _ := rfl
  seeded key := by simp

/-- One more move. -/
lemma move (h : Moved pages moves st) (m : Move) :
    Moved pages (moves ++ [m]) (st.move now m) := by
  cases husable : usable pages m with
  | false =>
    have hgoes : ∀ key, goesTo pages key m = false := fun key => by simp [goesTo, husable]
    rw [Rehoming.move_eq_self (h.usable_eq m ▸ husable)]
    refine ⟨fun key => ?_, fun key factId => ?_, h.untouched, fun key => ?_⟩
    · rw [h.address, addressAfter_append_of_not_goesTo (hgoes key)]
    · rw [h.count, lastMoveOf_append, if_neg (by simp [husable])]
    · simp [h.seeded, or_and_right, exists_or, hgoes]
  | true =>
    have hst : usable st.plan.pages m = true := h.usable_eq m ▸ husable
    have hgoes : ∀ key, goesTo pages key m = true ↔ Rehoming.destOf pages m = key := fun key => by
      simp [goesTo, husable]
    constructor
    · intro key
      rw [Rehoming.getElem?_move hst, h.destOf_eq]
      by_cases hdest : Rehoming.destOf pages m = key
      · have hto : goesTo pages key m = true := (hgoes key).mpr hdest
        rw [if_pos hdest, Option.map_some, Rehoming.address_landed]
        cases hpath : m.seed.pagePath with
        | some path =>
          rw [addressAfter_append_of_pinned hto (hpath ▸ rfl)]
          simp [RehomePageSeed.address, hpath]
        | none =>
          rw [addressAfter_append_of_not_pinned hto hpath, ← h.address]
          cases st.plan.pages[key]? with
          | none => simp [RehomePageSeed.page, RehomePageSeed.address, PagePlan.address]
          | some page => simp
      · have hto : goesTo pages key m = false := by
          simpa using fun hg => hdest ((hgoes key).mp hg)
        rw [if_neg hdest, addressAfter_append_of_not_goesTo hto, ← h.address, Option.map_map]
        rfl
    · intro key factId
      rw [Rehoming.countAt_move hst, h.destOf_eq, lastMoveOf_append, h.count]
      by_cases hfact : m.row.factId = factId <;> simp [hfact, husable]
    · intro key hkey
      rw [Rehoming.mem_touched_move hst, h.destOf_eq, not_or, not_or, not_lt,
        Nat.le_zero] at hkey
      obtain ⟨hdest, htouched, hcount⟩ := hkey
      rw [Rehoming.getElem?_move hst, h.destOf_eq, if_neg hdest, Option.map_map,
        ← h.untouched key htouched]
      cases hpage : st.plan.pages[key]? with
      | none => rfl
      | some page =>
        rw [countAt_of_getElem? hpage] at hcount
        simp [PagePlan.without_eq_self hcount]
    · intro key
      rw [Rehoming.mem_seeded_move hst, h.destOf_eq, h.seeded]
      simp only [List.mem_append, List.mem_singleton, or_and_right, exists_or, exists_eq_left,
        hgoes]
      exact or_comm

/-- All moves, in their order. -/
lemma foldl (plan : CompilationPlan) (registry : ConceptRegistry) (moves : List Move) :
    Moved plan.pages moves (moves.foldl (Rehoming.move now) { plan, registry }) := by
  induction moves using List.reverseRecOn with
  | nil => exact nil plan registry
  | append_singleton moves m ih =>
    rw [List.foldl_append]
    exact ih.move m

end Moved

/-! ## Husks -/

namespace Rehoming

variable {st : Rehoming} {key : Str} {husk : Str} {husks : List Str} {α : Type*}

lemma seeded_removeHusk : (st.removeHusk husk).seeded = st.seeded := by
  unfold removeHusk
  dsimp only
  split <;> rfl

/-- Anything but its links: what a page is after a husk was dropped. -/
lemma map_removeHusk {view : PagePlan → α}
    (hview : ∀ page links, view { page with outgoingLinks := links } = view page) :
    (st.removeHusk husk).plan.pages[key]?.map view =
      if slugify husk = key ∧ key ∉ st.seeded then none else st.plan.pages[key]?.map view := by
  unfold removeHusk
  dsimp only
  by_cases hseeded : slugify husk ∈ st.seeded
  · have hcontains : st.seeded.contains (slugify husk) = true := by simpa using hseeded
    rw [if_pos hcontains, if_neg]
    rintro ⟨rfl, hnot⟩
    exact hnot hseeded
  · have hcontains : ¬ st.seeded.contains (slugify husk) = true := by simpa using hseeded
    rw [if_neg hcontains]
    by_cases hkey : slugify husk = key
    · subst hkey
      simp only [hseeded, not_false_eq_true, and_self, if_true]
      split
      · simp
      · next hpage =>
        have hnone : st.plan.pages[slugify husk]? = none := by simpa using hpage
        rw [hnone]
        rfl
    · simp only [hkey, false_and, if_false]
      split
      · simp [Std.TreeMap.getElem?_erase, hkey, Function.comp_def, hview]
      · rfl

lemma mem_touched_removeHusk :
    key ∈ (st.removeHusk husk).touched ↔
      key ∈ st.touched ∧ ¬ (slugify husk = key ∧ key ∉ st.seeded) := by
  unfold removeHusk
  dsimp only
  split
  · next hcontains =>
    have hseeded : slugify husk ∈ st.seeded := by simpa using hcontains
    refine ⟨fun h => ⟨h, ?_⟩, fun h => h.1⟩
    rintro ⟨rfl, hnot⟩
    exact hnot hseeded
  · next hcontains =>
    have hseeded : slugify husk ∉ st.seeded := by simpa using hcontains
    simp only [Std.TreeSet.mem_erase, ne_eq, Std.compare_eq_iff_eq]
    refine ⟨fun h => ⟨h.2, fun hk => h.1 hk.1⟩, fun h => ⟨?_, h.1⟩⟩
    rintro rfl
    exact h.2 ⟨rfl, hseeded⟩

lemma seeded_foldl_removeHusk : (husks.foldl removeHusk st).seeded = st.seeded := by
  induction husks generalizing st with
  | nil => rfl
  | cons husk husks ih => rw [List.foldl_cons, ih, seeded_removeHusk]

/-- Whether a key is dropped with the husks. -/
def dropped (husks : List Str) (seeded : Std.TreeSet Str) (key : Str) : Bool :=
  (husks.map slugify).contains key && !seeded.contains key

lemma map_foldl_removeHusk {view : PagePlan → α}
    (hview : ∀ page links, view { page with outgoingLinks := links } = view page) :
    (husks.foldl removeHusk st).plan.pages[key]?.map view =
      if dropped husks st.seeded key then none else st.plan.pages[key]?.map view := by
  induction husks generalizing st with
  | nil => simp [dropped]
  | cons husk husks ih =>
    rw [List.foldl_cons, ih, map_removeHusk hview, seeded_removeHusk]
    by_cases hseeded : key ∈ st.seeded
    · have hcontains : st.seeded.contains key = true := by simpa using hseeded
      simp [dropped, hseeded, hcontains]
    · have hcontains : st.seeded.contains key = false := by
        rwa [← Bool.not_eq_true, ← Std.TreeSet.mem_iff_contains]
      by_cases hkey : slugify husk = key
      · simp [dropped, hseeded, hcontains, hkey]
      · simp [dropped, hcontains, hkey, Ne.symm hkey]

lemma mem_touched_foldl_removeHusk :
    key ∈ (husks.foldl removeHusk st).touched ↔
      key ∈ st.touched ∧ dropped husks st.seeded key = false := by
  induction husks generalizing st with
  | nil => simp [dropped]
  | cons husk husks ih =>
    rw [List.foldl_cons, ih, mem_touched_removeHusk, seeded_removeHusk]
    by_cases hseeded : key ∈ st.seeded
    · have hcontains : st.seeded.contains key = true := by simpa using hseeded
      simp [dropped, hseeded, hcontains]
    · have hcontains : st.seeded.contains key = false := by
        rwa [← Bool.not_eq_true, ← Std.TreeSet.mem_iff_contains]
      by_cases hkey : slugify husk = key
      · simp [dropped, hseeded, hcontains, hkey]
      · simp [dropped, hcontains, hkey, Ne.symm hkey]

end Rehoming

lemma mem_foldl_parkForceDirty {slugs forceDirty : List Str} {key : Str} :
    key ∈ slugs.foldl parkForceDirty forceDirty ↔ key ∈ forceDirty ∨ key ∈ slugs := by
  induction slugs generalizing forceDirty with
  | nil => simp
  | cons slug slugs ih =>
    rw [List.foldl_cons, ih, parkForceDirty]
    split
    · next h =>
      have hmem : slug ∈ forceDirty := by simpa using h
      rw [List.mem_cons]
      constructor
      · rintro (h | h)
        · exact .inl h
        · exact .inr (.inr h)
      · rintro (h | rfl | h)
        · exact .inl h
        · exact .inl hmem
        · exact .inr h
    · simp [or_assoc]

/-! ## What was asked, and no more -/

/-- What a re-home owes: each moved fact is at its destination and nowhere else, every other fact
stays where it was, and the pages whose facts changed are parked to be compiled. -/
structure RehomeExact (pages : SlugMap PagePlan) (moves : List Move) (after : CompilationPlan) :
    Prop where
  moved : ∀ m ∈ moves,
    LivesAt after.pages m.row.factId (m.seed.address (Rehoming.destOf pages m))
  frame : ∀ factId, (∀ m ∈ moves, m.row.factId ≠ factId) → ∀ (key : Str) (page : PagePlan),
    pages[key]? = some page → 0 < page.count factId → LivesAt after.pages factId page.address
  dirty : ∀ (key : Str) (page : PagePlan), after.pages[key]? = some page →
    pages[key]?.map PagePlan.primaryFacts ≠ some page.primaryFacts → key ∈ after.forceDirty

section NoClash

variable (pages : SlugMap PagePlan) (moves : List Move) (husks : List Str)

/-- Whether the page with this key is dropped: it is a husk and nothing moves to it. -/
def IsDropped (key : Str) : Prop :=
  key ∈ husks.map slugify ∧ ¬ ∃ m ∈ moves, goesTo pages key m = true

instance (key : Str) : Decidable (IsDropped pages moves husks key) :=
  inferInstanceAs (Decidable (_ ∧ ¬ ∃ m ∈ moves, goesTo pages key m = true))

/-- Whether a page of the plan stays where it is: it is not dropped, and no move takes it
elsewhere. -/
def KeepsPlace (key : Str) (page : PagePlan) : Prop :=
  ¬ IsDropped pages moves husks key ∧ addressAfter pages moves key = some page.address

instance (key : Str) (page : PagePlan) : Decidable (KeepsPlace pages moves husks key page) :=
  inferInstanceAs (Decidable (_ ∧ _))

/-- No two moves, pages and husks get into each other's way. -/
structure NoClash : Prop where
  /-- the page a fact comes to rest on is left at the address the move asks for -/
  lands : ∀ m ∈ moves, ∀ last, lastMoveOf pages moves m.row.factId = some last →
    addressAfter pages moves (Rehoming.destOf pages last) =
      some (m.seed.address (Rehoming.destOf pages m))
  /-- a fact whose moves name no page is on a page that is left at its destination -/
  there : ∀ m ∈ moves, lastMoveOf pages moves m.row.factId = none →
    ∃ key, 0 < countAt pages key m.row.factId ∧ ¬ IsDropped pages moves husks key ∧
      addressAfter pages moves key = some (m.seed.address (Rehoming.destOf pages m))
  /-- a page with a fact that is not moved keeps its place -/
  bystanders : ∀ (key : Str) (page : PagePlan), pages[key]? = some page →
    ∀ f ∈ page.primaryFacts, (∀ m ∈ moves, m.row.factId ≠ f.factId) → KeepsPlace pages moves husks key page

end NoClash

/-- The plan and the registry once the moves are made and the husks are dropped. -/
def rehomed (plan : CompilationPlan) (registry : ConceptRegistry) (moves : List Move)
    (husks : List Str) (now : Str) : Rehoming :=
  husks.foldl Rehoming.removeHusk (moves.foldl (Rehoming.move now) { plan, registry })

section

variable {plan : CompilationPlan} {registry : ConceptRegistry} {moves : List Move}
  {husks : List Str} {now key : Str} {factId : FactId} {address : Address}

lemma dropped_iff {st : Rehoming} (h : Moved plan.pages moves st) :
    Rehoming.dropped husks st.seeded key = true ↔ IsDropped plan.pages moves husks key := by
  simp only [Rehoming.dropped, Bool.and_eq_true, List.contains_iff_mem, Bool.not_eq_true',
    ← Bool.not_eq_true, ← Std.TreeSet.mem_iff_contains, h.seeded, IsDropped]

lemma address_rehomed (h : ¬ IsDropped plan.pages moves husks key) :
    (rehomed plan registry moves husks now).plan.pages[key]?.map PagePlan.address =
      addressAfter plan.pages moves key := by
  have hmoved := @Moved.foldl now plan registry moves
  rw [rehomed, Rehoming.map_foldl_removeHusk (fun _ _ => rfl),
    if_neg (mt (dropped_iff hmoved).mp h), hmoved.address]

lemma getElem?_rehomed_of_dropped (h : IsDropped plan.pages moves husks key) :
    (rehomed plan registry moves husks now).plan.pages[key]? = none := by
  have hmoved := @Moved.foldl now plan registry moves
  rw [← Option.map_eq_none_iff (f := PagePlan.address), rehomed,
    Rehoming.map_foldl_removeHusk (fun _ _ => rfl), if_pos ((dropped_iff hmoved).mpr h)]

/-- Where a fact is found after the re-home. -/
lemma countAt_rehomed :
    countAt (rehomed plan registry moves husks now).plan.pages key factId =
      if Rehoming.dropped husks (moves.foldl (Rehoming.move now) { plan, registry }).seeded key
        then 0
      else
        match lastMoveOf plan.pages moves factId with
        | some m => if Rehoming.destOf plan.pages m = key then 1 else 0
        | none => countAt plan.pages key factId := by
  have hmoved := @Moved.foldl now plan registry moves
  rw [← hmoved.count, countAt, rehomed, Rehoming.map_foldl_removeHusk (fun _ _ => rfl)]
  split <;> rfl

lemma goesTo_of_lastMoveOf {last : Move} (h : lastMoveOf plan.pages moves factId = some last) :
    last ∈ moves ∧ goesTo plan.pages (Rehoming.destOf plan.pages last) last = true := by
  have hmem := List.mem_of_getLast? h
  rw [List.mem_filter] at hmem
  refine ⟨hmem.1, ?_⟩
  simp [goesTo, (Bool.and_eq_true_iff.mp hmem.2).1]

/-- A fact that was moved rests on the page of its last move. -/
lemma livesAt_rehomed_of_moved {last : Move}
    (h : lastMoveOf plan.pages moves factId = some last) :
    LivesAt (rehomed plan registry moves husks now).plan.pages factId address ↔
      addressAfter plan.pages moves (Rehoming.destOf plan.pages last) = some address := by
  have hgoes := goesTo_of_lastMoveOf h
  have hkept : ¬ IsDropped plan.pages moves husks (Rehoming.destOf plan.pages last) :=
    fun hdrop => hdrop.2 ⟨last, hgoes⟩
  have hcount : ∀ key, countAt (rehomed plan registry moves husks now).plan.pages key factId =
      if key = Rehoming.destOf plan.pages last then 1 else 0 := by
    intro key
    rw [countAt_rehomed, h]
    by_cases hkey : key = Rehoming.destOf plan.pages last
    · subst hkey
      simp [mt (dropped_iff (Moved.foldl plan registry moves)).mp hkept]
    · simp [hkey, Ne.symm hkey]
  rw [← @address_rehomed plan registry moves husks now _ hkept]
  constructor
  · rintro ⟨key, page, hpage, rfl, hlives⟩
    have hkey : key = Rehoming.destOf plan.pages last := by
      have hone := (hlives key).symm.trans (hcount key)
      by_contra hne
      simp [hne] at hone
    rw [← hkey, hpage]
    rfl
  · intro haddr
    obtain ⟨page, hpage, rfl⟩ := Option.map_eq_some_iff.mp haddr
    exact ⟨_, page, hpage, rfl, hcount⟩

/-- A fact that was not moved rests where it was, if its page is kept. -/
lemma livesAt_rehomed_of_not_moved (hone : OneFactOnePage plan.pages)
    (h : lastMoveOf plan.pages moves factId = none) (hholds : 0 < countAt plan.pages key factId) :
    LivesAt (rehomed plan registry moves husks now).plan.pages factId address ↔
      ¬ IsDropped plan.pages moves husks key ∧
        addressAfter plan.pages moves key = some address := by
  have hdropped := @dropped_iff plan moves husks key _
    (@Moved.foldl now plan registry moves)
  have hcount : ∀ key', countAt (rehomed plan registry moves husks now).plan.pages key' factId =
      if key' = key ∧ ¬ IsDropped plan.pages moves husks key then 1 else 0 := by
    intro key'
    rw [countAt_rehomed, h]
    dsimp only
    rw [hone.countAt_eq hholds]
    by_cases hkey : key' = key
    · subst hkey
      by_cases hdrop : IsDropped plan.pages moves husks key' <;> simp [hdropped, hdrop]
    · simp [hkey]
  constructor
  · rintro ⟨key', page, hpage, rfl, hlives⟩
    have hkey : key' = key ∧ ¬ IsDropped plan.pages moves husks key := by
      have hone := (hlives key').symm.trans (hcount key')
      by_contra hne
      simp [hne] at hone
    obtain ⟨rfl, hkept⟩ := hkey
    refine ⟨hkept, ?_⟩
    rw [← @address_rehomed plan registry moves husks now _ hkept, hpage]
    rfl
  · rintro ⟨hkept, haddr⟩
    rw [← @address_rehomed plan registry moves husks now _ hkept] at haddr
    obtain ⟨page, hpage, rfl⟩ := Option.map_eq_some_iff.mp haddr
    exact ⟨key, page, hpage, rfl, fun key' => (hcount key').trans (by simp [hkept])⟩

/-- A fact that was not moved is found only where it was. -/
lemma exists_of_livesAt_rehomed (h : lastMoveOf plan.pages moves factId = none)
    (hlives : LivesAt (rehomed plan registry moves husks now).plan.pages factId address) :
    ∃ key, 0 < countAt plan.pages key factId := by
  obtain ⟨key, page, -, -, hcount⟩ := hlives
  have hone := hcount key
  rw [if_pos rfl, countAt_rehomed, h] at hone
  dsimp only at hone
  refine ⟨key, ?_⟩
  split at hone <;> omega

/-- A fact no move names is not moved. -/
lemma lastMoveOf_eq_none {pages : SlugMap PagePlan} (h : ∀ m ∈ moves, m.row.factId ≠ factId) :
    lastMoveOf pages moves factId = none := by
  rw [lastMoveOf, List.getLast?_eq_none_iff, List.filter_eq_nil_iff]
  intro m hm
  simp [h m hm]

/-- The pages whose facts changed are parked. -/
lemma dirty_rehomed {page : PagePlan}
    (hpage : (rehomed plan registry moves husks now).plan.pages[key]? = some page)
    (hchanged : plan.pages[key]?.map PagePlan.primaryFacts ≠ some page.primaryFacts) :
    key ∈ (rehomed plan registry moves husks now).touched := by
  have hmoved := @Moved.foldl now plan registry moves
  have hkept : ¬ IsDropped plan.pages moves husks key := fun hdrop => by
    rw [getElem?_rehomed_of_dropped hdrop] at hpage
    cases hpage
  have hdropped := mt (dropped_iff hmoved).mp hkept
  have hfacts := @Rehoming.map_foldl_removeHusk
    (moves.foldl (Rehoming.move now) { plan, registry }) key husks _ PagePlan.primaryFacts
    (fun _ _ => rfl)
  rw [if_neg hdropped] at hfacts
  refine Rehoming.mem_touched_foldl_removeHusk.mpr ⟨?_, by simpa using hdropped⟩
  by_contra htouched
  refine hchanged ?_
  rw [← hmoved.untouched key htouched, ← hfacts]
  exact congrArg (Option.map PagePlan.primaryFacts) hpage

end

/-- A re-home moves what it was asked to move and nothing else exactly when no two of its moves,
husks and the pages of the plan get into each other's way. -/
theorem rehome_exact_iff {dir : PlanDir} {plan : CompilationPlan}
    (hplan : loadPreviousPlan dir = some plan) (hone : OneFactOnePage plan.pages)
    (moves : List Move) (husks : List Str) (now : Str) :
    (∃ after, (rehomeFactsInPersistedPlan dir moves husks now).2.plan = some after ∧
      RehomeExact plan.pages moves after) ↔ NoClash plan.pages moves husks := by
  have hresult : (rehomeFactsInPersistedPlan dir moves husks now).2.plan =
      let st := rehomed plan (loadConceptRegistry dir now) moves husks now
      some
        { st.plan with
          forceDirty := st.touched.toList.foldl parkForceDirty st.plan.forceDirty
          generatedAt := now } := by
    simp only [rehomeFactsInPersistedPlan, hplan, rehomed]
  simp only [hresult, Option.some.injEq, exists_eq_left']
  constructor
  · intro h
    refine ⟨fun m hm last hlast => ?_, fun m hm hlast => ?_, fun key page hpage f hf hbystander => ?_⟩
    · exact (livesAt_rehomed_of_moved hlast).mp (h.moved m hm)
    · obtain ⟨key, hholds⟩ := exists_of_livesAt_rehomed hlast (h.moved m hm)
      exact ⟨key, hholds, (livesAt_rehomed_of_not_moved hone hlast hholds).mp (h.moved m hm)⟩
    · have hholds : 0 < page.count f.factId := PagePlan.count_pos_of_mem hf
      have hlives := h.frame f.factId hbystander key page hpage hholds
      rw [← countAt_of_getElem? hpage] at hholds
      exact (livesAt_rehomed_of_not_moved hone (lastMoveOf_eq_none hbystander) hholds).mp hlives
  · intro h
    refine ⟨fun m hm => ?_, fun factId hbystander key page hpage hholds => ?_,
      fun key page hpage hchanged => ?_⟩
    · cases hlast : lastMoveOf plan.pages moves m.row.factId with
      | some last => exact (livesAt_rehomed_of_moved hlast).mpr (h.lands m hm last hlast)
      | none =>
        obtain ⟨key, hholds, hrest⟩ := h.there m hm hlast
        exact (livesAt_rehomed_of_not_moved hone hlast hholds).mpr hrest
    · obtain ⟨f, hf, rfl⟩ := PagePlan.exists_of_count_pos hholds
      rw [← countAt_of_getElem? hpage] at hholds
      exact (livesAt_rehomed_of_not_moved hone (lastMoveOf_eq_none hbystander) hholds).mpr
        (h.bystanders key page hpage f hf hbystander)
    · exact mem_foldl_parkForceDirty.mpr
        (.inr (Std.TreeSet.mem_toList.mpr (dirty_rehomed hpage hchanged)))

/-! ### A page of the same name in another wiki -/

/-- A fact of the wiki `anna`. -/
def annasFact : FactForPage where
  factId := ⟨"018f1234-5678-7abc-9def-0123456789ab".toList, isFactId_ab⟩
  text := "Milk".toList
  subject := .user "anna".toList
  sourceWikiId := "anna".toList

/-- A fact of the wiki `bruno`, as a row of the index. -/
def brunosRow : FactRow where
  factId := ⟨"018f1234-5678-7abc-9def-0123456789cd".toList, isFactId_cd⟩
  wikiId := "bruno".toList
  sourcePath := "wikis/bruno/conti.md".toList
  text := "Bread".toList
  subjectId := .user "bruno".toList
  factType := none
  validFrom := none
  validTo := none
  updatedAt := []

/-- A list of Anna's. -/
def annasList : PagePlan where
  slug := "spesa".toList
  title := "Spesa".toList
  primaryFacts := [annasFact]
  wikiId := "anna".toList
  pagePath := "spesa.md".toList

/-- A page of Bruno's. -/
def brunosPage : PagePlan where
  slug := "conti".toList
  title := "Conti".toList
  primaryFacts := [FactForPage.fromRow brunosRow]
  wikiId := "bruno".toList
  pagePath := "conti.md".toList

/-- A plan with the two pages. -/
def twoPages : CompilationPlan where
  pages := .ofList [("spesa".toList, annasList), ("conti".toList, brunosPage)]
  generatedAt := []
  factCount := 2

/-- Bruno's fact goes to a page of Bruno's wiki. -/
def toBrunosPage (page : Str) : Move where
  row := brunosRow
  seed := .pageInWiki ⟨fun c => [c], id⟩ page "bruno".toList

/-- A move to a page of a new name moves its fact, and leaves the other where it is. -/
theorem rehome_exact_newName :
    ∃ after,
      (rehomeFactsInPersistedPlan { plan := some twoPages } [toBrunosPage "lista.md".toList]
        ["conti.md".toList] []).2.plan = some after ∧
      RehomeExact twoPages.pages [toBrunosPage "lista.md".toList] after := by
  refine (rehome_exact_iff rfl (by decide +kernel) _ _ _).mpr ⟨?_, ?_, ?_⟩
  · intro m hm last hlast
    obtain rfl := List.mem_singleton.mp hm
    obtain rfl := List.mem_singleton.mp (goesTo_of_lastMoveOf hlast).1
    decide +kernel
  · intro m hm hlast
    obtain rfl := List.mem_singleton.mp hm
    have hmoved : (lastMoveOf twoPages.pages [toBrunosPage "lista.md".toList]
        (toBrunosPage "lista.md".toList).row.factId).isSome = true := by decide +kernel
    rw [hlast] at hmoved
    cases hmoved
  · intro key page hpage
    have hkept : ∀ x ∈ twoPages.pages.toList, ∀ f ∈ x.2.primaryFacts,
        (∀ m ∈ [toBrunosPage "lista.md".toList], m.row.factId ≠ f.factId) →
        KeepsPlace twoPages.pages [toBrunosPage "lista.md".toList] ["conti.md".toList] x.1 x.2 := by
      decide +kernel
    exact hkept (key, page) (Std.TreeMap.mem_toList_iff_getElem?_eq_some.mpr hpage)

/-- A move to a page of a name that another wiki has already takes that page along. -/
theorem rehome_drags_namesake :
    ¬ ∀ (dir : PlanDir) (plan : CompilationPlan), loadPreviousPlan dir = some plan →
      OneFactOnePage plan.pages → ∀ (moves : List Move) (husks : List Str) (now : Str),
      ∃ after, (rehomeFactsInPersistedPlan dir moves husks now).2.plan = some after ∧
        RehomeExact plan.pages moves after := by
  intro h
  obtain ⟨after, hafter, hexact⟩ := h { plan := some twoPages } twoPages rfl (by decide +kernel)
    [toBrunosPage "spesa.md".toList] [] []
  have hlives := hexact.frame annasFact.factId (by decide) "spesa".toList annasList
    (by decide +kernel) (by decide)
  have hgone : ((rehomeFactsInPersistedPlan { plan := some twoPages }
      [toBrunosPage "spesa.md".toList] [] []).2.plan.map fun plan =>
        plan.pages.toList.any fun x => x.2.address = annasList.address) = some false := by
    decide +kernel
  rw [hafter, Option.map_some, Option.some.injEq] at hgone
  exact not_livesAt_of_any_eq_false hgone hlives

end Mwe.Planner
