import MweCore.Planner.Build

/-!
# Where assignments land

Which page an assignment means depends on the keys that are known when it is read, and nothing
else of the pages made on the way.  `landings` reads the assignments with those keys alone, and
lists each fact with the page it lands on; `fallbacks` lists what the cards then take.  The plan
holds what the two lists say (`countAt_buildCompilationPlan`), at the addresses the pages have
(`address_of_mem_plan`).
-/

namespace Mwe.Planner

section Landings

variable (casing : Casing) (facts : SlugMap FactForPage) (redirects : SlugMap Str)
  (pages : SlugMap PagePlan)

/-- Whether a key is known: a page had it, or one was made with it. -/
def knownKey (minted : List Str) (key : Str) : Bool := pages.contains key || minted.contains key

/-- The fact an assignment lands and the page it lands on. -/
def landing (minted : List Str) (a : Assignment) : Option (FactForPage × Str) :=
  facts[a.factId]?.bind fun fact =>
    let slug := resolveSlug (knownKey pages minted) redirects fact a
    if !knownKey pages minted slug && isReservedPageStem slug then none
    else if pages[slug]?.any fun page => turnsAway casing page fact then none
    else some (fact, slug)

/-- The keys of the pages that were made, once a fact has landed. -/
def mintedBy (minted : List Str) : Option (FactForPage × Str) → List Str
  | none => minted
  | some x => if knownKey pages minted x.2 then minted else x.2 :: minted

/-- The facts that assignments land, each with its page. -/
def landings : List Str → List Assignment → List (FactForPage × Str)
  | _, [] => []
  | minted, a :: rest =>
    let landed := landing casing facts redirects pages minted a
    landed.toList ++ landings (mintedBy pages minted landed) rest

/-- The facts nobody placed that a card takes. -/
def fallbacks (all : List FactForPage) (landed : List (FactForPage × Str)) :
    List (FactForPage × Str) :=
  (all.filter fun f => !(landed.any fun x => x.1.factId.val == f.factId.val)).filterMap fun f =>
    if factBelongsOnACard casing f then (identityCardTarget f pages).map fun slug => (f, slug)
    else none

end Landings

/-- How often a list puts a fact on a page. -/
def countOn (placements : List (FactForPage × Str)) (key : Str) (factId : FactId) : ℕ :=
  placements.countP fun x => x.1.factId = factId ∧ x.2 = key

@[simp] lemma countOn_nil (key : Str) (factId : FactId) : countOn [] key factId = 0 := rfl

@[simp] lemma countOn_append (l l' : List (FactForPage × Str)) (key : Str) (factId : FactId) :
    countOn (l ++ l') key factId = countOn l key factId + countOn l' key factId :=
  List.countP_append

@[simp] lemma countOn_cons (x : FactForPage × Str) (l : List (FactForPage × Str)) (key : Str)
    (factId : FactId) :
    countOn (x :: l) key factId =
      countOn l key factId + if x.1.factId = factId ∧ x.2 = key then 1 else 0 := by
  simp [countOn, List.countP_cons]

/-! ## One assignment -/

/-- A building whose pages are those of `pages` and the ones made on the way. -/
structure Tracks (pages : SlugMap PagePlan) (minted : List Str) (st : Building) : Prop where
  known : ∀ key : Str, st.pages.contains key = knownKey pages minted key
  card : ∀ key : Str,
    st.pages[key]?.any PagePlan.isIdentityCard = pages[key]?.any PagePlan.isIdentityCard

section

variable {casing : Casing} {facts : SlugMap FactForPage} {redirects : SlugMap Str}
  {pages : SlugMap PagePlan} {minted : List Str} {st : Building} {a : Assignment} {now : Str}
  {fact : FactForPage} {slug key : Str}

@[simp] lemma turnsAway_withFact (page : PagePlan) (f : FactForPage) :
    turnsAway casing (page.withFact f) fact = turnsAway casing page fact := rfl

@[simp] lemma isIdentityCard_withFact (page : PagePlan) (f : FactForPage) :
    (page.withFact f).isIdentityCard = page.isIdentityCard := rfl

/-- A page made on the way is not a card. -/
lemma isIdentityCard_mintedPage (h : isReservedPageStem slug = false) :
    (mintedPage casing slug fact).isIdentityCard = false := by
  have hhead : slug.head? ≠ some '@' := by
    intro hat
    simp [isReservedPageStem, hat] at h
  rw [PagePlan.isIdentityCard, beq_eq_false_iff_ne]
  intro hpath
  have hprofile : slug ++ ".md".toList = "@profile.md".toList := hpath
  have hslug : slug = "@profile".toList := by
    have : slug ++ ".md".toList = "@profile".toList ++ ".md".toList := hprofile
    exact List.append_cancel_right this
  rw [hslug] at hhead
  exact hhead rfl

lemma turnsAway_mintedPage (h : isReservedPageStem slug = false) (f : FactForPage) :
    turnsAway casing (mintedPage casing slug fact) f = false := by
  simp [turnsAway, isIdentityCard_mintedPage h]

/-- Only a card turns a fact away. -/
lemma any_turnsAway (o : Option PagePlan) :
    o.any (fun page => turnsAway casing page fact) =
      (o.any PagePlan.isIdentityCard && (fact.subjectExternal.isSome ||
        (!FactIndex.isAnIdentityKind fact.factType ||
          FactIndex.attributesToAnotherPerson casing fact.text))) := by
  cases o with
  | none => rfl
  | some page => simp [turnsAway, Bool.and_or_distrib_left]

lemma Tracks.turnsAway (h : Tracks pages minted st) :
    (st.pages[key]?.any fun page => turnsAway casing page fact) =
      pages[key]?.any fun page => turnsAway casing page fact := by
  rw [any_turnsAway, any_turnsAway, h.card]

/-- An assignment that lands nothing changes nothing. -/
lemma Tracks.assign_of_none (h : Tracks pages minted st)
    (hland : landing casing facts redirects pages minted a = none) :
    st.assign casing now facts redirects a = st := by
  unfold landing at hland
  unfold Building.assign
  cases hfact : facts[a.factId]? with
  | none => rfl
  | some fact =>
    have hknown : st.pages.contains = knownKey pages minted := funext h.known
    simp only [hfact, Option.bind_some] at hland
    simp only [hknown]
    split
    · rfl
    · next hkept =>
      rw [if_neg hkept] at hland
      split at hland
      · next haway =>
        rw [← h.turnsAway] at haway
        obtain ⟨page, hpage, hturns⟩ := (Option.any_eq_true _ _).mp haway
        have hcontains : st.pages.contains (resolveSlug (knownKey pages minted) redirects fact a) =
            true := by
          rw [Std.TreeMap.contains_eq_isSome_getElem?, hpage]
          rfl
        simp [Building.mint, hcontains, Building.place, hpage, hturns]
      · cases hland

/-- An assignment that lands puts its fact on its page, which it makes if need be. -/
lemma Tracks.assign_of_some (h : Tracks pages minted st)
    (hland : landing casing facts redirects pages minted a = some (fact, slug)) :
    (∀ key : Str, (st.assign casing now facts redirects a).pages[key]? =
      if slug = key then
        some ((st.pages[slug]?.getD (mintedPage casing slug fact)).withFact fact)
      else st.pages[key]?) ∧
    (st.assign casing now facts redirects a).assigned = st.assigned.insert fact.factId.val := by
  unfold landing at hland
  obtain ⟨fact', hfact, hland⟩ := Option.bind_eq_some_iff.mp hland
  dsimp only at hland
  split at hland
  · cases hland
  · next hkept =>
    split at hland
    · cases hland
    · next haway =>
      obtain ⟨rfl, rfl⟩ := Prod.mk.inj (Option.some.inj hland)
      rw [← h.turnsAway] at haway
      have hknown : st.pages.contains = knownKey pages minted := funext h.known
      unfold Building.assign
      rw [hfact]
      dsimp only
      rw [hknown, if_neg hkept]
      generalize resolveSlug (knownKey pages minted) redirects fact' a = slug at hkept haway
      cases hpage : st.pages[slug]? with
      | some page =>
        have hcontains : st.pages.contains slug = true := by
          rw [Std.TreeMap.contains_eq_isSome_getElem?, hpage]
          rfl
        have hstays : Planner.turnsAway casing page fact' = false := by simpa [hpage] using haway
        simp [Building.mint, hcontains, Building.place, hpage, hstays, Std.TreeMap.getElem?_insert]
      | none =>
        have hcontains : st.pages.contains slug = false := by
          rw [Std.TreeMap.contains_eq_isSome_getElem?, hpage]
          rfl
        have hfree : isReservedPageStem slug = false := by
          simpa [← hknown, hcontains] using hkept
        have hstays := @turnsAway_mintedPage casing fact' _ hfree fact'
        have hmint : (st.mint casing now slug fact').pages[slug]? =
            some (mintedPage casing slug fact') := by simp [Building.mint, hcontains]
        rw [Building.place, hmint]
        dsimp only
        rw [if_neg (by simp [hstays])]
        refine ⟨fun key => ?_, by simp [Building.mint, hcontains]⟩
        by_cases hkey : slug = key
        · simp [hkey]
        · simp [Building.mint, hcontains, Std.TreeMap.getElem?_insert, hkey]

/-- No page is made with the name of a page of the engine's. -/
lemma isReservedPageStem_of_landing
    (hland : landing casing facts redirects pages minted a = some (fact, slug))
    (hunknown : knownKey pages minted slug = false) : isReservedPageStem slug = false := by
  unfold landing at hland
  obtain ⟨fact', -, hland⟩ := Option.bind_eq_some_iff.mp hland
  dsimp only at hland
  split at hland
  · cases hland
  · next hkept =>
    split at hland
    · cases hland
    · obtain ⟨rfl, rfl⟩ := Prod.mk.inj (Option.some.inj hland)
      simpa [hunknown] using hkept

/-- A page that takes a fact is known from then on. -/
lemma knownKey_mintedBy :
    knownKey pages (mintedBy pages minted (some (fact, slug))) key =
      (key == slug || knownKey pages minted key) := by
  cases hknown : knownKey pages minted slug with
  | true =>
    have hminted : mintedBy pages minted (some (fact, slug)) = minted := if_pos hknown
    rw [hminted]
    by_cases hkey : key = slug
    · simp [hkey, hknown]
    · simp [hkey]
  | false =>
    have hminted : mintedBy pages minted (some (fact, slug)) = slug :: minted :=
      if_neg (by simp [hknown])
    rw [hminted, knownKey, knownKey, List.contains_cons, ← Bool.or_assoc, ← Bool.or_assoc,
      Bool.or_comm (pages.contains key)]

/-- The keys and the cards after a fact has landed. -/
lemma Tracks.assign (h : Tracks pages minted st) :
    Tracks pages (mintedBy pages minted (landing casing facts redirects pages minted a))
      (st.assign casing now facts redirects a) := by
  cases hland : landing casing facts redirects pages minted a with
  | none =>
    rw [h.assign_of_none hland]
    exact h
  | some x =>
    obtain ⟨fact, slug⟩ := x
    have hpages := (@Tracks.assign_of_some _ _ _ _ _ _ _ now _ _ h hland).1
    have hcontains : st.pages.contains slug = knownKey pages minted slug := h.known slug
    rw [Std.TreeMap.contains_eq_isSome_getElem?] at hcontains
    constructor
    · intro key
      rw [Std.TreeMap.contains_eq_isSome_getElem?, hpages]
      rw [knownKey_mintedBy, ← h.known key, Std.TreeMap.contains_eq_isSome_getElem?]
      by_cases hkey : slug = key
      · simp [hkey]
      · simp [hkey, Ne.symm hkey]
    · intro key
      rw [hpages]
      by_cases hkey : slug = key
      · subst hkey
        rw [if_pos rfl, ← h.card slug]
        cases hpage : st.pages[slug]? with
        | some page => simp
        | none =>
          have hunknown : knownKey pages minted slug = false := by simpa [hpage] using hcontains.symm
          simp [isIdentityCard_mintedPage (isReservedPageStem_of_landing hland hunknown)]
      · rw [if_neg hkey, h.card]

end

/-! ## All assignments -/

section

variable {casing : Casing} {facts : SlugMap FactForPage} {redirects : SlugMap Str}
  {pages : SlugMap PagePlan} {minted : List Str} {st : Building} {assignments : List Assignment}
  {now : Str}

/-- What the assignments leave, next to what they found. -/
structure Landed (pages : SlugMap PagePlan) (before : Building)
    (landed : List (FactForPage × Str)) (after : Building) : Prop where
  card : ∀ key : Str,
    after.pages[key]?.any PagePlan.isIdentityCard = pages[key]?.any PagePlan.isIdentityCard
  address : ∀ key : Str, after.pages[key]?.map PagePlan.address =
    (before.pages[key]?.map PagePlan.address).or
      ((landed.find? fun x => x.2 == key).map fun x =>
        ⟨x.1.sourceWikiId, key ++ ".md".toList⟩)
  count : ∀ key factId,
    countAt after.pages key factId = countAt before.pages key factId + countOn landed key factId
  assigned : ∀ id : Str, id ∈ after.assigned ↔
    id ∈ before.assigned ∨ ∃ x ∈ landed, x.1.factId.val = id

lemma Tracks.foldl_assign (h : Tracks pages minted st) :
    Landed pages st (landings casing facts redirects pages minted assignments)
      (assignments.foldl (Building.assign casing now facts redirects) st) := by
  induction assignments generalizing minted st with
  | nil =>
    exact ⟨h.card, fun key => by simp [landings], fun key factId => by simp [landings],
      fun id => by simp [landings]⟩
  | cons a rest ih =>
    have hrest := ih (@Tracks.assign casing facts redirects _ _ _ a now h)
    rw [List.foldl_cons, landings]
    cases hland : landing casing facts redirects pages minted a with
    | none =>
      rw [hland, h.assign_of_none hland] at hrest
      rw [h.assign_of_none hland]
      exact hrest
    | some x =>
      obtain ⟨fact, slug⟩ := x
      rw [hland] at hrest
      obtain ⟨hpages, hassigned⟩ :=
        @Tracks.assign_of_some _ _ _ _ _ _ _ now _ _ h hland
      refine ⟨hrest.card, fun key => ?_, fun key factId => ?_, fun id => ?_⟩
      · rw [hrest.address, hpages]
        by_cases hkey : slug = key
        · subst hkey
          cases hpage : st.pages[slug]? with
          | some page => simp
          | none => simp [mintedPage, PagePlan.address, PagePlan.withFact]
        · simp [hkey]
      · have hcount : countAt (st.assign casing now facts redirects a).pages key factId =
            countAt st.pages key factId +
              if fact.factId = factId ∧ slug = key then 1 else 0 := by
          rw [countAt, hpages]
          by_cases hkey : slug = key
          · subst hkey
            cases hpage : st.pages[slug]? with
            | some page => simp [countAt, hpage]
            | none => simp [countAt, hpage, mintedPage, PagePlan.count, PagePlan.withFact]
          · simp [countAt, hkey]
        rw [hrest.count, hcount, Option.toList_some, List.singleton_append, countOn_cons,
          Nat.add_assoc, Nat.add_comm (ite _ _ _)]
      · rw [hrest.assigned, hassigned, Std.TreeSet.mem_insert, Std.compare_eq_iff_eq]
        simp only [Option.toList_some, List.singleton_append, List.mem_cons, exists_eq_or_imp]
        tauto

end

/-! ## The cards -/

section

variable {casing : Casing} {pages pages' : SlugMap PagePlan} {st : Building} {f : FactForPage}
  {all : List FactForPage}

/-- Which card a fact is reserved for is a matter of which pages are cards. -/
lemma identityCardTarget_congr
    (h : ∀ key : Str,
      pages[key]?.any PagePlan.isIdentityCard = pages'[key]?.any PagePlan.isIdentityCard) :
    identityCardTarget f pages = identityCardTarget f pages' := by
  have hslug : identityCardSlugFor pages = identityCardSlugFor pages' := by
    funext wikiSlug
    have hcard := h wikiSlug
    unfold identityCardSlugFor
    cases hpage : pages[wikiSlug]? <;> cases hpage' : pages'[wikiSlug]? <;>
      simp_all [Option.filter]
  simp only [identityCardTarget, hslug]

/-- The card a fact is reserved for is there, and is a card. -/
lemma exists_of_identityCardTarget {slug : Str} (h : identityCardTarget f pages = some slug) :
    ∃ page, pages[slug]? = some page ∧ page.isIdentityCard = true := by
  unfold identityCardTarget at h
  split at h
  · cases h
  · obtain ⟨wikiSlug, -, hslug⟩ := List.exists_of_findSome?_eq_some h
    split at hslug
    · cases hslug
    · obtain ⟨page, hpage, rfl⟩ := Option.map_eq_some_iff.mp hslug
      exact ⟨page, Option.filter_eq_some_iff.mp hpage⟩

/-- The fact and the card, when the card takes it. -/
def fallback (casing : Casing) (pages : SlugMap PagePlan) (assigned : Std.TreeSet Str)
    (f : FactForPage) : Option (FactForPage × Str) :=
  if assigned.contains f.factId.val then none
  else if factBelongsOnACard casing f then (identityCardTarget f pages).map fun slug => (f, slug)
  else none

/-- What the fallback does with one fact. -/
lemma fallBack_spec :
    (st.fallBack casing f).assigned = st.assigned ∧
    (∀ key : Str, (st.fallBack casing f).pages[key]?.any PagePlan.isIdentityCard =
      st.pages[key]?.any PagePlan.isIdentityCard) ∧
    (∀ key : Str, (st.fallBack casing f).pages[key]?.map PagePlan.address =
      st.pages[key]?.map PagePlan.address) ∧
    ∀ key factId, countAt (st.fallBack casing f).pages key factId =
      countAt st.pages key factId +
        countOn (fallback casing st.pages st.assigned f).toList key factId := by
  unfold Building.fallBack fallback
  split
  · simp
  · cases hbelongs : factBelongsOnACard casing f with
    | false => simp
    | true =>
      cases htarget : identityCardTarget f st.pages with
      | none => simp
      | some slug =>
        obtain ⟨page, hpage, -⟩ := exists_of_identityCardTarget htarget
        have hpages : ∀ key : Str, (st.pages.modify slug fun page => page.withFact f)[key]? =
            if slug = key then some (page.withFact f) else st.pages[key]? := fun key => by
          simp [Std.TreeMap.getElem?_modify, hpage]
        simp only [Bool.not_true, Bool.false_eq_true, if_false, if_true, hpages, countAt]
        refine ⟨by trivial, fun key => ?_, fun key => ?_, fun key factId => ?_⟩
        · by_cases hkey : slug = key
          · simp [← hkey, hpage]
          · simp [hkey]
        · by_cases hkey : slug = key
          · simp [← hkey, hpage]
          · simp [hkey]
        · by_cases hkey : slug = key
          · simp [← hkey, hpage, countOn]
          · simp [hkey, countOn]

/-- The facts the cards take, for the whole list. -/
lemma foldl_fallBack :
    (∀ key : Str, (all.foldl (Building.fallBack casing) st).pages[key]?.map PagePlan.address =
      st.pages[key]?.map PagePlan.address) ∧
    ∀ key factId, countAt (all.foldl (Building.fallBack casing) st).pages key factId =
      countAt st.pages key factId +
        countOn (all.filterMap (fallback casing st.pages st.assigned)) key factId := by
  induction all generalizing st with
  | nil => simp
  | cons f all ih =>
    obtain ⟨hassigned, hcard, haddress, hcount⟩ := @fallBack_spec casing st f
    have hrest : fallback casing (st.fallBack casing f).pages (st.fallBack casing f).assigned =
        fallback casing st.pages st.assigned := by
      funext g
      simp only [fallback, hassigned, identityCardTarget_congr hcard]
    rw [List.foldl_cons]
    refine ⟨fun key => (ih.1 key).trans (haddress key), fun key factId => ?_⟩
    rw [ih.2, hcount, hrest, List.filterMap_cons]
    cases fallback casing st.pages st.assigned f with
    | none => simp
    | some x => simp; omega

end

/-! ## The pages there are -/

section

variable {pages : SlugMap PagePlan} {entries : SlugMap ConceptRegistryEntry} {wikis : SlugMap Str}
  {st : Building} {proposals : List NewPage} {now key : Str}

lemma find?_toList {β : Type} (map : SlugMap β) (key : Str) :
    (map.toList.find? fun x => x.1 == key).map Prod.snd = map[key]? := by
  cases hvalue : map[key]? with
  | none =>
    rw [Option.map_eq_none_iff, List.find?_eq_none]
    rintro ⟨k, value⟩ hmem
    rw [Std.TreeMap.mem_toList_iff_getElem?_eq_some] at hmem
    simp only [beq_iff_eq]
    rintro rfl
    rw [hvalue] at hmem
    cases hmem
  | some value =>
    cases hfind : map.toList.find? fun x => x.1 == key with
    | none =>
      have hmem := Std.TreeMap.mem_toList_iff_getElem?_eq_some.mpr hvalue
      simpa using List.find?_eq_none.mp hfind _ hmem
    | some x =>
      have hkey : x.1 = key := by simpa using List.find?_some hfind
      have hmem := Std.TreeMap.mem_toList_iff_getElem?_eq_some.mp (List.mem_of_find?_eq_some hfind)
      rw [hkey, hvalue] at hmem
      rw [Option.map_some, ← hmem]

/-- The registry makes the pages the foundation does not have. -/
lemma getElem?_withRegistryPages :
    (withRegistryPages entries pages)[key]? =
      pages[key]?.or (entries[key]?.map registryToPage) := by
  rw [← find?_toList entries, withRegistryPages]
  generalize entries.toList = l
  induction l generalizing pages with
  | nil => simp
  | cons x l ih =>
    obtain ⟨slug, e⟩ := x
    rw [List.foldl_cons, ih]
    dsimp only
    by_cases hkey : slug = key
    · subst hkey
      cases hpage : pages[slug]? with
      | some page =>
        have hcontains : pages.contains slug = true := by
          rw [Std.TreeMap.contains_eq_isSome_getElem?, hpage]
          rfl
        simp [hcontains, hpage]
      | none =>
        have hcontains : pages.contains slug = false := by
          rw [Std.TreeMap.contains_eq_isSome_getElem?, hpage]
          rfl
        simp [hcontains]
    · split <;> simp [Std.TreeMap.getElem?_insert, hkey]

/-- The page one proposal makes under a key. -/
def proposedPage (wikis : SlugMap Str) (key : Str) (np : NewPage) : Option PagePlan :=
  if key ≠ [] ∧ slugify np.slug = key then (resolvePageWiki key wikis).map (newPageToPlan np key)
  else none

lemma getElem?_accept (np : NewPage) :
    (st.accept now wikis np).pages[key]? = st.pages[key]?.or (proposedPage wikis key np) := by
  unfold Building.accept proposedPage
  by_cases hkey : slugify np.slug = key
  · subst hkey
    by_cases hempty : slugify np.slug = []
    · simp [hempty]
    · cases hpage : st.pages[slugify np.slug]? with
      | some page =>
        have hcontains : st.pages.contains (slugify np.slug) = true := by
          rw [Std.TreeMap.contains_eq_isSome_getElem?, hpage]
          rfl
        simp [hcontains, hpage]
      | none =>
        have hcontains : st.pages.contains (slugify np.slug) = false := by
          rw [Std.TreeMap.contains_eq_isSome_getElem?, hpage]
          rfl
        cases hwiki : resolvePageWiki (slugify np.slug) wikis with
        | none => simp [hempty, hcontains, hwiki, hpage]
        | some wikiId => simp [hempty, hcontains, hwiki]
  · simp only [hkey, and_false, if_false, Option.or_none]
    split
    · rfl
    · cases resolvePageWiki (slugify np.slug) wikis with
      | none => rfl
      | some wikiId => simp [Std.TreeMap.getElem?_insert, hkey]

/-- The proposals make the pages there are none of, when their facts have a wiki. -/
lemma getElem?_foldl_accept :
    (proposals.foldl (Building.accept now wikis) st).pages[key]? =
      st.pages[key]?.or (proposals.findSome? (proposedPage wikis key)) := by
  induction proposals generalizing st with
  | nil => simp
  | cons np proposals ih =>
    rw [List.foldl_cons, ih, getElem?_accept, List.findSome?_cons, Option.or_assoc]
    cases proposedPage wikis key np <;> rfl

end

/-! ## Style, links and order leave the facts where they are -/

section

variable {α : Type*} {view : PagePlan → α} {st : Building} {pages : SlugMap PagePlan} {key : Str}

/-- What neither the style nor the links of a page show. -/
def Steady (view : PagePlan → α) : Prop :=
  (∀ page style, view { page with style := style } = view page) ∧
    (∀ page links, view { page with outgoingLinks := links } = view page) ∧
    ∀ page links, view { page with pendingLinks := links } = view page

lemma map_healStyles (hview : Steady view) :
    st.healStyles.pages[key]?.map view = st.pages[key]?.map view := by
  simp only [Building.healStyles, Std.TreeMap.getElem?_map, Option.map_map]
  congr 1
  funext page
  exact hview.1 _ _

lemma getElem?_collect :
    st.collect.pages[key]? = st.pages[key]?.filter fun page => !isEmptyPage page := by
  simp [Building.collect, Std.TreeMap.getElem?_filter]

lemma map_addRail (hview : Steady view) (acc : SlugMap PagePlan × List (Str × Str))
    (rail : Str × Str) : (addRail acc rail).1[key]?.map view = acc.1[key]?.map view := by
  unfold addRail
  cases hpage : acc.1[rail.1]? with
  | none => rfl
  | some page =>
    dsimp only
    split
    · rfl
    · by_cases hkey : rail.1 = key
      · have hsame := (hview.2.1 { page with pendingLinks := pushNew page.pendingLinks rail.2 }
          (pushNew page.outgoingLinks rail.2)).trans (hview.2.2 page _)
        simpa [← hkey, hpage] using hsame
      · simp [Std.TreeMap.getElem?_insert, hkey]

lemma map_linked (hview : Steady view) (proseLinks : Address → Option (List Str))
    (rails : List (Str × Str)) :
    (linked proseLinks rails pages).1[key]?.map view = pages[key]?.map view := by
  have hrails : ∀ acc : SlugMap PagePlan × List (Str × Str),
      (rails.foldl addRail acc).1[key]?.map view = acc.1[key]?.map view := by
    intro acc
    induction rails generalizing acc with
    | nil => rfl
    | cons rail rails ih => rw [List.foldl_cons, ih, map_addRail hview]
  simp only [linked, Std.TreeMap.getElem?_map, Option.map_map]
  have hlinks : ∀ links : Str → PagePlan → List Str,
      view ∘ (fun page => { page with outgoingLinks := links key page }) = view :=
    fun links => funext fun page => hview.2.1 _ _
  rw [hlinks, hrails, Std.TreeMap.getElem?_map, Option.map_map]
  congr 1
  funext page
  exact hview.2.1 _ _

end

/-! ## The plan -/

section

variable {casing : Casing} {facts : List FactForPage} {foundation : SlugMap PagePlan}
  {blueprint : Blueprint} {assignments : List Assignment} {conciliation : ConciliatorResult}
  {registry : ConceptRegistry} {proseLinks : Address → Option (List Str)}
  {rails : List (Str × Str)} {now key : Str} {factId : FactId}

/-- Where a page of the plan is and what is on it. -/
def PagePlan.content (page : PagePlan) : Address × List FactForPage :=
  (page.address, page.primaryFacts)

lemma steady_content : Steady PagePlan.content :=
  ⟨fun _ _ => rfl, fun _ _ => rfl, fun _ _ => rfl⟩

/-- The pages that stay are found by what is on them. -/
lemma map_content_filter (o : Option PagePlan) :
    (o.filter fun page => !isEmptyPage page).map PagePlan.content =
      (o.map PagePlan.content).filter fun content =>
        !(!(content.1.pagePath == profileFilename) && content.2.isEmpty) := by
  cases o with
  | none => rfl
  | some page =>
    simp only [Option.map_some, Option.filter_some]
    split
    · next hkept => exact (if_pos hkept).symm
    · next hempty => exact (if_neg hempty).symm

/-- The plan holds the pages that were made and did not stay empty. -/
lemma content_plan :
    (buildCompilationPlan casing facts foundation blueprint conciliation registry proseLinks rails
        now).1.pages[key]?.map PagePlan.content =
      ((placed casing facts foundation blueprint.assignments conciliation registry
        now).pages[key]?.filter fun page => !isEmptyPage page).map PagePlan.content := by
  rw [buildCompilationPlan]
  dsimp only
  rw [map_linked steady_content, getElem?_collect, map_content_filter, map_content_filter,
    map_healStyles steady_content]

/-- A page with a fact on it stays. -/
lemma countAt_plan :
    countAt (buildCompilationPlan casing facts foundation blueprint conciliation registry proseLinks
        rails now).1.pages key factId =
      countAt (placed casing facts foundation blueprint.assignments conciliation registry
        now).pages key factId := by
  have hcount : ∀ pages : SlugMap PagePlan, countAt pages key factId =
      ((pages[key]?.map PagePlan.content).map fun content =>
        content.2.countP fun f => f.factId = factId).getD 0 := fun pages => by
    rw [countAt, Option.map_map]
    rfl
  rw [hcount, content_plan, countAt]
  cases hpage : (placed casing facts foundation blueprint.assignments conciliation registry
    now).pages[key]? with
  | none => rfl
  | some page =>
    cases hempty : isEmptyPage page with
    | false => simp [Option.filter_some, hempty, PagePlan.content, PagePlan.count]
    | true =>
      have hfacts : page.primaryFacts = [] := by
        simpa using (Bool.and_eq_true_iff.mp hempty).2
      simp [Option.filter_some, hempty, PagePlan.count, hfacts]

/-- The pages the assignments find. -/
def pagesThereAre (facts : List FactForPage) (foundation : SlugMap PagePlan)
    (assignments : List Assignment) (conciliation : ConciliatorResult)
    (registry : ConceptRegistry) (now : Str) : SlugMap PagePlan :=
  (materialised (factMap facts) foundation assignments conciliation registry now).pages

/-- Each fact with the page the plan has it on. -/
def placements (casing : Casing) (facts : List FactForPage) (foundation : SlugMap PagePlan)
    (assignments : List Assignment) (conciliation : ConciliatorResult)
    (registry : ConceptRegistry) (now : Str) : List (FactForPage × Str) :=
  let pages := pagesThereAre facts foundation assignments conciliation registry now
  let landed := landings casing (factMap facts) conciliation.redirects pages [] assignments
  landed ++ fallbacks casing pages facts landed

/-- The registry's entries that may make a page. -/
def entriesThereAre (facts : List FactForPage) (foundation : SlugMap PagePlan)
    (assignments : List Assignment) (conciliation : ConciliatorResult)
    (registry : ConceptRegistry) : SlugMap ConceptRegistryEntry :=
  entriesNotShadowed foundation (entriesOutOfRoot
    (slugSourceWiki (factMap facts) conciliation.redirects assignments) registry.entries)

/-- The pages there are: the foundation's, then the registry's, then the proposals'. -/
lemma getElem?_pagesThereAre :
    (pagesThereAre facts foundation assignments conciliation registry now)[key]? =
      (foundation[key]?.map fun page => { page with primaryFacts := [] }).or
        (((entriesThereAre facts foundation assignments conciliation registry)[key]?.map
            registryToPage).or
          (conciliation.acceptedNew.findSome? (proposedPage
            (slugSourceWiki (factMap facts) conciliation.redirects assignments) key))) := by
  rw [pagesThereAre, materialised]
  rw [getElem?_foldl_accept, getElem?_withRegistryPages, foundationPages,
    Std.TreeMap.getElem?_map, Option.or_assoc]
  rfl

/-- Before any fact is placed, no page has one. -/
lemma countAt_pagesThereAre :
    countAt (pagesThereAre facts foundation assignments conciliation registry now) key factId =
      0 := by
  rw [countAt, getElem?_pagesThereAre]
  cases foundation[key]? with
  | some page => rfl
  | none =>
    cases (entriesThereAre facts foundation assignments conciliation registry)[key]? with
    | some e => rfl
    | none =>
      cases hfind : conciliation.acceptedNew.findSome? (proposedPage
        (slugSourceWiki (factMap facts) conciliation.redirects assignments) key) with
      | none => rfl
      | some page =>
        obtain ⟨np, -, hpage⟩ := List.exists_of_findSome?_eq_some hfind
        unfold proposedPage at hpage
        split at hpage
        · obtain ⟨wikiId, -, rfl⟩ := Option.map_eq_some_iff.mp hpage
          rfl
        · cases hpage

/-- The cards take what no assignment landed. -/
lemma filterMap_fallback {pages : SlugMap PagePlan} {st before : Building}
    {landed : List (FactForPage × Str)} (h : Landed pages before landed st)
    (hbefore : before.assigned = ∅) :
    facts.filterMap (fallback casing st.pages st.assigned) =
      fallbacks casing pages facts landed := by
  rw [fallbacks, List.filterMap_filter]
  refine List.filterMap_congr fun f _ => ?_
  have hassigned : st.assigned.contains f.factId.val =
      landed.any fun x => x.1.factId.val == f.factId.val := by
    rw [Bool.eq_iff_iff, ← Std.TreeSet.mem_iff_contains, h.assigned, hbefore]
    simp
  rw [fallback, hassigned, identityCardTarget_congr h.card]
  cases landed.any fun x => x.1.factId.val == f.factId.val <;> rfl

/-- The assignments start from the pages there are. -/
lemma landed_assignments :
    Landed (pagesThereAre facts foundation assignments conciliation registry now)
      (materialised (factMap facts) foundation assignments conciliation registry now)
      (landings casing (factMap facts) conciliation.redirects
        (pagesThereAre facts foundation assignments conciliation registry now) [] assignments)
      (assignments.foldl (Building.assign casing now (factMap facts) conciliation.redirects)
        (materialised (factMap facts) foundation assignments conciliation registry now)) := by
  have hstart : Tracks (pagesThereAre facts foundation assignments conciliation registry now) []
      (materialised (factMap facts) foundation assignments conciliation registry now) :=
    ⟨fun key => by simp [knownKey, pagesThereAre], fun key => rfl⟩
  exact hstart.foldl_assign

/-- Before any assignment, nothing is assigned. -/
lemma assigned_materialised :
    (materialised (factMap facts) foundation assignments conciliation registry now).assigned =
      ∅ := by
  have hfold : ∀ (wikis : SlugMap Str) (proposals : List NewPage) (st : Building),
      (proposals.foldl (Building.accept now wikis) st).assigned = st.assigned := by
    intro wikis proposals st
    induction proposals generalizing st with
    | nil => rfl
    | cons np proposals ih =>
      rw [List.foldl_cons, ih, Building.accept]
      split
      · rfl
      · cases resolvePageWiki (slugify np.slug) wikis <;> rfl
  exact hfold _ _ _

/-- The facts of the plan are those the assignments land and those the cards take. -/
theorem countAt_buildCompilationPlan :
    countAt (buildCompilationPlan casing facts foundation blueprint conciliation registry proseLinks
        rails now).1.pages key factId =
      countOn (placements casing facts foundation blueprint.assignments conciliation registry now)
        key factId := by
  have hlanded := @landed_assignments casing facts foundation blueprint.assignments conciliation
    registry now
  rw [countAt_plan, placed, foldl_fallBack.2, hlanded.count,
    filterMap_fallback hlanded (assigned_materialised ..), placements]
  have hbefore := @countAt_pagesThereAre facts foundation blueprint.assignments conciliation
    registry now key factId
  rw [pagesThereAre] at hbefore
  rw [hbefore, Nat.zero_add]
  rw [countOn_append]

/-- A page of the plan is where the page there was is; a page made on the way is in the wiki of the
first fact that landed on it. -/
theorem address_buildCompilationPlan {page : PagePlan}
    (hpage : (buildCompilationPlan casing facts foundation blueprint conciliation registry
      proseLinks rails now).1.pages[key]? = some page) :
    some page.address =
      ((pagesThereAre facts foundation blueprint.assignments conciliation registry
          now)[key]?.map PagePlan.address).or
        (((landings casing (factMap facts) conciliation.redirects
            (pagesThereAre facts foundation blueprint.assignments conciliation registry now) []
            blueprint.assignments).find? fun x => x.2 == key).map fun x =>
          ⟨x.1.sourceWikiId, key ++ ".md".toList⟩) := by
  have hcontent := @content_plan casing facts foundation blueprint conciliation registry proseLinks
    rails now key
  rw [hpage] at hcontent
  obtain ⟨before, hbefore, hsame⟩ := Option.map_eq_some_iff.mp hcontent.symm
  have hplaced := (Option.filter_eq_some_iff.mp hbefore).1
  have haddress : some page.address = (placed casing facts foundation blueprint.assignments
      conciliation registry now).pages[key]?.map PagePlan.address := by
    rw [hplaced, Option.map_some]
    exact congrArg some (congrArg Prod.fst hsame).symm
  rw [haddress, placed, foldl_fallBack.1, landed_assignments.address]
  rfl

/-- What a map of facts says of an id that none of the facts to come has. -/
lemma getElem?_foldl_insert_of_not_mem {id : Str} (map : SlugMap FactForPage)
    (h : ∀ f ∈ facts, f.factId.val ≠ id) :
    (facts.foldl (fun map f => map.insert f.factId.val f) map)[id]? = map[id]? := by
  induction facts generalizing map with
  | nil => rfl
  | cons f facts ih =>
    rw [List.foldl_cons, ih _ fun g hg => h g (List.mem_cons_of_mem _ hg)]
    simp [Std.TreeMap.getElem?_insert, h f List.mem_cons_self]

/-- A fact is found by its id, when no two facts share one. -/
lemma getElem?_factMap (hnodup : (facts.map FactForPage.factId).Nodup) {f : FactForPage}
    (hf : f ∈ facts) : (factMap facts)[f.factId.val]? = some f := by
  have hfold : ∀ map : SlugMap FactForPage,
      (facts.foldl (fun map f => map.insert f.factId.val f) map)[f.factId.val]? = some f := by
    induction facts with
    | nil => cases hf
    | cons g facts ih =>
      intro map
      obtain ⟨hnew, hrest⟩ := List.nodup_cons.mp hnodup
      rw [List.foldl_cons]
      obtain rfl | hf := List.mem_cons.mp hf
      · rw [getElem?_foldl_insert_of_not_mem _ fun g hg hid => hnew ?_]
        · simp
        · exact List.mem_map.mpr ⟨g, hg, FactId.val_injective hid⟩
      · exact ih hrest hf _
  exact hfold ∅

/-- What is found by an id is a fact with that id. -/
lemma mem_of_getElem?_factMap {id : Str} {f : FactForPage} (h : (factMap facts)[id]? = some f) :
    f ∈ facts ∧ f.factId.val = id := by
  have hfold : ∀ (l : List FactForPage) (map : SlugMap FactForPage),
      (l.foldl (fun map f => map.insert f.factId.val f) map)[id]? = some f →
        map[id]? = some f ∨ (f ∈ l ∧ f.factId.val = id) := by
    intro l
    induction l with
    | nil => exact fun map h => .inl h
    | cons g l ih =>
      intro map hl
      rw [List.foldl_cons] at hl
      obtain hmap | ⟨hf, hid⟩ := ih _ hl
      · rw [Std.TreeMap.getElem?_insert] at hmap
        split at hmap
        · next hg =>
          obtain rfl := Option.some.inj hmap
          exact .inr ⟨List.mem_cons_self, by simpa using hg⟩
        · exact .inl hmap
      · exact .inr ⟨List.mem_cons_of_mem _ hf, hid⟩
  exact (hfold facts ∅ h).resolve_left (by simp)

/-- A fact that occurs once is listed at most once, where the list says it goes. -/
lemma countOn_filterMap (hnodup : (facts.map FactForPage.factId).Nodup) {f : FactForPage}
    (hf : f ∈ facts) (goes : FactForPage → Option Str) (key : Str) :
    countOn (facts.filterMap fun g => (goes g).map fun slug => (g, slug)) key f.factId =
      if goes f = some key then 1 else 0 := by
  have hnone : ∀ l : List FactForPage, f.factId ∉ l.map FactForPage.factId →
      countOn (l.filterMap fun g => (goes g).map fun slug => (g, slug)) key f.factId = 0 := by
    intro l hl
    refine List.countP_eq_zero.mpr fun x hx => ?_
    obtain ⟨g, hg, hgoes⟩ := List.mem_filterMap.mp hx
    obtain ⟨slug, -, rfl⟩ := Option.map_eq_some_iff.mp hgoes
    simp only [decide_eq_true_eq, not_and]
    exact fun hid => absurd (hid ▸ List.mem_map_of_mem hg) hl
  induction facts with
  | nil => cases hf
  | cons g facts ih =>
    obtain ⟨hnew, hrest⟩ := List.nodup_cons.mp hnodup
    rw [List.filterMap_cons]
    obtain rfl | hf := List.mem_cons.mp hf
    · cases hgoes : goes f with
      | none => simp [hnone facts hnew]
      | some slug => simp [hnone facts hnew]
    · have hne : g.factId ≠ f.factId := fun hid => hnew (hid ▸ List.mem_map_of_mem hf)
      cases hgoes : goes g with
      | none => exact ih hrest hf
      | some slug => simpa [hne] using ih hrest hf

/-- Whether a list places a fact is told by its id. -/
lemma any_factId_iff (hnodup : (facts.map FactForPage.factId).Nodup) {f : FactForPage}
    (hf : f ∈ facts) (goes : FactForPage → Option Str) :
    ((facts.filterMap fun g => (goes g).map fun slug => (g, slug)).any fun x =>
      x.1.factId.val == f.factId.val) = (goes f).isSome := by
  rw [Bool.eq_iff_iff, List.any_eq_true]
  constructor
  · rintro ⟨x, hx, hid⟩
    obtain ⟨g, hg, hgoes⟩ := List.mem_filterMap.mp hx
    obtain ⟨slug, hslug, rfl⟩ := Option.map_eq_some_iff.mp hgoes
    have hid : g.factId = f.factId := FactId.val_injective (by simpa using hid)
    rw [← List.inj_on_of_nodup_map hnodup hg hf hid, hslug]
    rfl
  · intro hgoes
    obtain ⟨slug, hslug⟩ := Option.isSome_iff_exists.mp hgoes
    exact ⟨(f, slug), List.mem_filterMap.mpr ⟨f, hf, by rw [hslug]; rfl⟩, by simp⟩

/-- What the cards take of a fact that occurs once. -/
lemma countOn_fallbacks (hnodup : (facts.map FactForPage.factId).Nodup) {f : FactForPage}
    (hf : f ∈ facts) (pages : SlugMap PagePlan) (landed : List (FactForPage × Str)) (key : Str) :
    countOn (fallbacks casing pages facts landed) key f.factId =
      if (landed.any fun x => x.1.factId.val == f.factId.val) = false ∧
          factBelongsOnACard casing f = true ∧ identityCardTarget f pages = some key then 1
      else 0 := by
  have hlist : fallbacks casing pages facts landed = facts.filterMap fun g =>
      (if (landed.any fun x => x.1.factId.val == g.factId.val) then none
        else if factBelongsOnACard casing g then identityCardTarget g pages else none).map
          fun slug => (g, slug) := by
    rw [fallbacks, List.filterMap_filter]
    refine List.filterMap_congr fun g _ => ?_
    cases landed.any fun x => x.1.factId.val == g.factId.val with
    | true => rfl
    | false => cases factBelongsOnACard casing g <;> rfl
  rw [hlist, countOn_filterMap hnodup hf]
  cases landed.any fun x => x.1.factId.val == f.factId.val with
  | true => simp
  | false => cases factBelongsOnACard casing f <;> simp

end

end Mwe.Planner
