import MweCore.FactIndex.Access
import MweCore.Planner.Names

/-!
# The compilation plan

The plan says on which page each fact is written.  Its pages are keyed by slug, and a page has an
address, the wiki it lives in and its file there; the registry remembers the pages that were coined
in earlier runs, so that a page keeps its place while it holds nothing new.

The law of the plan is `OneFactOnePage`: a fact is on one page, and there once.
-/

namespace Mwe

open Str

/-- Read a writing style back. -/
def PageStyle.parse (raw : Str) : Option PageStyle :=
  let name := toAsciiLowercase (trim raw)
  if name = "prosa".toList then some .prosa
  else if name = "prosa-tecnica".toList then some .prosaTecnica
  else if name = "lista".toList then some .lista
  else none

/-- Read a writing style that may be missing or anything. -/
def PageStyle.parseLenient (raw : Option Str) : Option PageStyle :=
  ((raw.map trim).filter fun s => !s.isEmpty).bind PageStyle.parse

/-- The wire form of a writing style. -/
def PageStyle.asStr : PageStyle → Str
  | .prosa => "prosa".toList
  | .prosaTecnica => "prosa-tecnica".toList
  | .lista => "lista".toList

/-- A style is read back from its wire form. -/
lemma PageStyle.parse_asStr (style : PageStyle) : PageStyle.parse style.asStr = some style := by
  cases style <;> decide

namespace FactIndex

/-! ## What an identity card carries -/

/-- Whether a claim of this kind is one a card carries. -/
def isAnIdentityKind (factType : Option Str) : Bool := factType == some "bio".toList

/-- Phrases that hand a claim to somebody else. -/
def anotherPersons : List Str :=
  ["mother's".toList, "mother-in-law's".toList, "mum's".toList, "mom's".toList,
    "father's".toList, "father-in-law's".toList, "dad's".toList, "sister's".toList,
    "sister-in-law's".toList, "brother's".toList, "brother-in-law's".toList, "wife's".toList,
    "husband's".toList, "partner's".toList, "girlfriend's".toList, "boyfriend's".toList,
    "son's".toList, "daughter's".toList, "son-in-law's".toList, "daughter-in-law's".toList,
    "aunt's".toList, "uncle's".toList, "cousin's".toList, "nephew's".toList, "niece's".toList,
    "grandmother's".toList, "grandfather's".toList, "granny's".toList, "grandma's".toList,
    "grandad's".toList, "grandpa's".toList, "neighbour's".toList, "neighbor's".toList,
    "boss's".toList, "colleague's".toList, "friend's".toList, "doctor's".toList, "dog's".toList,
    "cat's".toList,
    "di mia madre".toList, "di mio padre".toList, "della mamma".toList, "del papà".toList,
    "di mia sorella".toList, "di mio fratello".toList, "di mia moglie".toList,
    "di mio marito".toList, "del mio compagno".toList, "della mia compagna".toList,
    "del mio fidanzato".toList, "della mia fidanzata".toList, "di mio figlio".toList,
    "di mia figlia".toList, "dei miei figli".toList, "di mia nonna".toList,
    "di mio nonno".toList, "dei miei nonni".toList, "di mia zia".toList, "di mio zio".toList,
    "di mio cugino".toList, "di mia cugina".toList, "di mia suocera".toList,
    "di mio suocero".toList, "di mio genero".toList, "di mia nuora".toList,
    "di mio cognato".toList, "di mia cognata".toList, "del mio capo".toList,
    "del mio collega".toList, "della mia collega".toList, "del mio vicino".toList,
    "della mia vicina".toList, "del mio amico".toList, "della mia amica".toList,
    "del mio medico".toList, "del mio cane".toList, "del mio gatto".toList]

/-- Whether the words of a claim say that it is about somebody else. -/
def attributesToAnotherPerson (casing : Casing) (text : Str) : Bool :=
  let lower := casing.toLowercase text
  anotherPersons.any fun p => contains p lower

/-- Whether a claim may go on a card with nobody judging. -/
def belongsOnAnIdentityCard (factType salience : Option Str) : Bool :=
  isAnIdentityKind factType && salience == some "high".toList

end FactIndex

namespace Planner

/-- A map with text keys, ordered by them. -/
abbrev SlugMap (β : Type) := Std.TreeMap Str β

/-! ## Facts and pages -/

/-- A fact as it is written on a page. -/
structure FactForPage where
  factId : FactId
  text : Str
  factType : Option Str := none
  subject : Principal
  allow : List Principal := []
  sender : Option Principal := none
  subjectExternal : Option Str := none
  sourceWikiId : Str
  validFrom : Option Str := none
  validTo : Option Str := none
  decayReason : Option Str := none
  successorFactId : Option FactId := none
  targetPage : Option Str := none
  style : Option PageStyle := none
  salience : Option Str := none
  authoredRefs : List Str := []
  topics : List Str := []
  deriving DecidableEq

/-- The plan's side of a row. -/
def FactForPage.fromRow (row : FactRow) : FactForPage where
  factId := row.factId
  text := row.text
  factType := row.factType
  subject := row.subjectId
  allow := row.allowIds
  sender := row.senderId
  subjectExternal := row.subjectExternal
  sourceWikiId := row.wikiId
  validFrom := row.validFrom
  validTo := row.validTo
  decayReason := row.decayReason
  successorFactId := row.successorFactId
  targetPage := row.targetPage
  style := row.style
  salience := row.salience
  authoredRefs := row.authoredRefs
  topics := row.topics

@[simp] lemma FactForPage.factId_fromRow (row : FactRow) :
    (FactForPage.fromRow row).factId = row.factId := rfl

/-- Where a page is: its wiki and its file there. -/
structure Address where
  wikiId : Str
  pagePath : Str
  deriving DecidableEq

/-- The plan of one page. -/
structure PagePlan where
  slug : Str
  title : Str
  description : Str := []
  style : Option PageStyle := none
  primaryFacts : List FactForPage := []
  outgoingLinks : List Str := []
  pendingLinks : List Str := []
  wikiId : Str
  pagePath : Str
  deriving DecidableEq

/-- Where a planned page is. -/
def PagePlan.address (page : PagePlan) : Address := ⟨page.wikiId, page.pagePath⟩

/-- Whether a page is the identity card of its wiki. -/
def PagePlan.isIdentityCard (page : PagePlan) : Bool := page.pagePath == profileFilename

/-- A wiki's own page comes before the others. -/
def PagePlan.orderRank (page : PagePlan) : ℕ := if page.isIdentityCard then 0 else 1

/-- How often a fact is on a page. -/
def PagePlan.count (page : PagePlan) (factId : FactId) : ℕ :=
  page.primaryFacts.countP fun f => f.factId = factId

/-- A page without one of its facts. -/
def PagePlan.without (page : PagePlan) (factId : FactId) : PagePlan :=
  { page with primaryFacts := page.primaryFacts.filter fun f => f.factId ≠ factId }

/-- A page with one more fact. -/
def PagePlan.withFact (page : PagePlan) (fact : FactForPage) : PagePlan :=
  { page with primaryFacts := page.primaryFacts ++ [fact] }

/-- A page at another address. -/
def PagePlan.movedTo (page : PagePlan) (address : Address) : PagePlan :=
  { page with wikiId := address.wikiId, pagePath := address.pagePath }

section

variable {page : PagePlan} {factId other : FactId} {fact : FactForPage} {address : Address}

@[simp] lemma PagePlan.address_without : (page.without factId).address = page.address := rfl

@[simp] lemma PagePlan.address_withFact : (page.withFact fact).address = page.address := rfl

@[simp] lemma PagePlan.address_movedTo : (page.movedTo address).address = address := rfl

@[simp] lemma PagePlan.primaryFacts_movedTo :
    (page.movedTo address).primaryFacts = page.primaryFacts := rfl

@[simp] lemma PagePlan.primaryFacts_withFact :
    (page.withFact fact).primaryFacts = page.primaryFacts ++ [fact] := rfl

@[simp] lemma PagePlan.primaryFacts_without :
    (page.without factId).primaryFacts = page.primaryFacts.filter fun f => f.factId ≠ factId := rfl

@[simp] lemma PagePlan.count_movedTo :
    (page.movedTo address).count factId = page.count factId := rfl

@[simp] lemma PagePlan.count_withFact :
    (page.withFact fact).count factId =
      page.count factId + if fact.factId = factId then 1 else 0 := by
  simp [PagePlan.count, List.countP_append, List.countP_singleton]

@[simp] lemma PagePlan.count_without :
    (page.without factId).count other = if other = factId then 0 else page.count other := by
  simp only [PagePlan.count, PagePlan.primaryFacts_without, List.countP_filter]
  split
  · next heq =>
    subst heq
    simp
  · next hne =>
    refine List.countP_congr fun f _ => ?_
    simp only [decide_eq_true_eq, Bool.and_eq_true, and_iff_left_iff_imp]
    rintro rfl
    exact hne

lemma PagePlan.count_pos_of_mem (h : fact ∈ page.primaryFacts) : 0 < page.count fact.factId :=
  List.countP_pos_iff.mpr ⟨fact, h, by simp⟩

lemma PagePlan.exists_of_count_pos (h : 0 < page.count factId) :
    ∃ f ∈ page.primaryFacts, f.factId = factId := by
  simpa using List.countP_pos_iff.mp h

/-- Taking out a fact that is not there changes nothing. -/
lemma PagePlan.without_eq_self (h : page.count factId = 0) : page.without factId = page := by
  have hnone : ∀ f ∈ page.primaryFacts, f.factId ≠ factId := by
    simpa [PagePlan.count, List.countP_eq_zero] using h
  rw [PagePlan.without, List.filter_eq_self.mpr (by simpa using hnone)]

/-- Taking out a fact that is there makes the list of facts shorter. -/
lemma PagePlan.length_without_ne_iff :
    (page.without factId).primaryFacts.length ≠ page.primaryFacts.length ↔
      0 < page.count factId := by
  rw [PagePlan.primaryFacts_without, ne_eq, List.length_filter_eq_length_iff, PagePlan.count,
    List.countP_pos_iff]
  simp

end

/-! ## The plan and the registry -/

/-- A page that was folded away. -/
structure MergedPage where
  source : Str
  into : Str
  reason : Str
  deriving DecidableEq

/-- The persisted plan. -/
structure CompilationPlan where
  pages : SlugMap PagePlan
  mergedPages : List MergedPage := []
  linkGraph : SlugMap (List Str) := ∅
  compilationOrder : List Str := []
  generatedAt : Str
  factCount : ℕ
  dirtyPages : List Str := []
  forceDirty : List Str := []
  refileCandidates : List Str := []
  reopenPages : List Str := []
  authoredRails : List (Str × Str) := []

/-- A concept page as the registry remembers it. -/
structure ConceptRegistryEntry where
  slug : Str
  title : Str
  description : Str := []
  style : Option PageStyle := none
  wikiId : Str
  createdAt : Str
  deriving DecidableEq

/-- The registry of concept pages. -/
structure ConceptRegistry where
  version : ℕ
  entries : SlugMap ConceptRegistryEntry := ∅
  generatedAt : Str

/-- The version of the registry's format. -/
def registryVersion : ℕ := 1

/-- A registry with nothing in it. -/
def ConceptRegistry.empty (now : Str) : ConceptRegistry where
  version := registryVersion
  generatedAt := now

/-- A fact and the page somebody puts it on. -/
structure Assignment where
  factId : Str
  pageSlug : Str
  deriving DecidableEq

/-- A concept page somebody proposes. -/
structure NewPage where
  slug : Str
  title : Str
  description : Str := []
  style : Option Str := none
  deriving DecidableEq

/-- What a placement stage answers. -/
structure Blueprint where
  assignments : List Assignment := []
  newPages : List NewPage := []

/-- What the merging stage answers. -/
structure ConciliatorResult where
  redirects : SlugMap Str := ∅
  acceptedNew : List NewPage := []

/-- The two files of the plan; a file that is missing or cannot be read is `none`. -/
structure PlanDir where
  plan : Option CompilationPlan := none
  registry : Option ConceptRegistry := none

/-- The plan of the last build. -/
def loadPreviousPlan (dir : PlanDir) : Option CompilationPlan :=
  dir.plan.filter fun p => !p.pages.isEmpty || !p.compilationOrder.isEmpty

/-- The registry, or an empty one. -/
def loadConceptRegistry (dir : PlanDir) (now : Str) : ConceptRegistry :=
  dir.registry.getD (ConceptRegistry.empty now)

/-! ## One fact, one page -/

/-- How often a fact is on the page with this key. -/
def countAt (pages : SlugMap PagePlan) (key : Str) (factId : FactId) : ℕ :=
  (pages[key]?.map fun page => page.count factId).getD 0

lemma countAt_of_getElem? {pages : SlugMap PagePlan} {key : Str} {page : PagePlan}
    (h : pages[key]? = some page) (factId : FactId) :
    countAt pages key factId = page.count factId := by
  simp [countAt, h]

/-- A page that holds something is there. -/
lemma exists_of_countAt_pos {pages : SlugMap PagePlan} {key : Str} {factId : FactId}
    (h : 0 < countAt pages key factId) : ∃ page, pages[key]? = some page := by
  cases hpage : pages[key]? with
  | none => simp [countAt, hpage] at h
  | some page => exact ⟨page, rfl⟩

/-- Every fact is on at most one page, and there at most once. -/
structure OneFactOnePage (pages : SlugMap PagePlan) : Prop where
  once : ∀ key factId, countAt pages key factId ≤ 1
  samePage : ∀ key key' factId, 0 < countAt pages key factId → 0 < countAt pages key' factId →
    key = key'

/-- A fact that is on one page only is not on the others. -/
lemma OneFactOnePage.countAt_eq {pages : SlugMap PagePlan} {key : Str} {factId : FactId}
    (hone : OneFactOnePage pages) (h : 0 < countAt pages key factId) (key' : Str) :
    countAt pages key' factId = if key' = key then 1 else 0 := by
  by_cases hkey : key' = key
  · subst hkey
    have := hone.once key' factId
    rw [if_pos rfl]
    omega
  · rw [if_neg hkey]
    by_contra hpos
    exact hkey (hone.samePage _ _ factId (Nat.pos_of_ne_zero hpos) h)

/-- The law of the plan, page by page. -/
lemma oneFactOnePage_iff {pages : SlugMap PagePlan} :
    OneFactOnePage pages ↔
      ∀ x ∈ pages.toList, ∀ f ∈ PagePlan.primaryFacts x.2, x.2.count f.factId ≤ 1 ∧
        ∀ y ∈ pages.toList, 0 < PagePlan.count y.2 f.factId → x.1 = y.1 := by
  constructor
  · rintro hone ⟨key, page⟩ hpage f hf
    rw [Std.TreeMap.mem_toList_iff_getElem?_eq_some] at hpage
    have hcount := countAt_of_getElem? hpage f.factId
    refine ⟨hcount ▸ hone.once key f.factId, ?_⟩
    rintro ⟨key', page'⟩ hpage' hpos
    rw [Std.TreeMap.mem_toList_iff_getElem?_eq_some] at hpage'
    exact hone.samePage _ _ f.factId (hcount.symm ▸ PagePlan.count_pos_of_mem hf)
      (countAt_of_getElem? hpage' f.factId ▸ hpos)
  · intro h
    have hpart : ∀ key factId, 0 < countAt pages key factId → countAt pages key factId ≤ 1 ∧
        ∀ key', 0 < countAt pages key' factId → key = key' := by
      intro key factId hpos
      obtain ⟨page, hpage⟩ := exists_of_countAt_pos hpos
      rw [countAt_of_getElem? hpage] at hpos ⊢
      obtain ⟨f, hf, rfl⟩ := PagePlan.exists_of_count_pos hpos
      have hone := h (key, page) (Std.TreeMap.mem_toList_iff_getElem?_eq_some.mpr hpage) f hf
      refine ⟨hone.1, fun key' hpos' => ?_⟩
      obtain ⟨page', hpage'⟩ := exists_of_countAt_pos hpos'
      exact hone.2 (key', page') (Std.TreeMap.mem_toList_iff_getElem?_eq_some.mpr hpage')
        (countAt_of_getElem? hpage' f.factId ▸ hpos')
    refine ⟨fun key factId => ?_, fun key key' factId hpos => (hpart key factId hpos).2 key'⟩
    rcases Nat.eq_zero_or_pos (countAt pages key factId) with hzero | hpos
    · omega
    · exact (hpart key factId hpos).1

instance (pages : SlugMap PagePlan) : Decidable (OneFactOnePage pages) :=
  decidable_of_iff _ oneFactOnePage_iff.symm

/-- A fact is on exactly one page, there once, and that page is at this address. -/
def LivesAt (pages : SlugMap PagePlan) (factId : FactId) (address : Address) : Prop :=
  ∃ key page, pages[key]? = some page ∧ PagePlan.address page = address ∧
    ∀ key', countAt pages key' factId = if key' = key then 1 else 0

/-- A fact does not live where no page is. -/
lemma not_livesAt_of_any_eq_false {pages : SlugMap PagePlan} {factId : FactId} {address : Address}
    (h : (pages.toList.any fun x => PagePlan.address x.2 = address) = false) :
    ¬ LivesAt pages factId address := by
  rintro ⟨key, page, hpage, haddr, -⟩
  rw [List.any_eq_false] at h
  refine h (key, page) (Std.TreeMap.mem_toList_iff_getElem?_eq_some.mpr hpage) ?_
  simpa using haddr

end Planner

end Mwe
