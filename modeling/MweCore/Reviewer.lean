import MweCore.Capture.Words
import MweCore.Compiler.Sheet
import MweCore.Enrollment.Validate
import MweCore.Lib.Occurrences
import MweCore.WikiAdmin.Push

/-!
# The review of a compiled plan

`review` reads a plan and the pages it was compiled to and lists what is wrong with them.  On an
identity card it looks in every fact for somebody else's name: `names` searches a text for a name
that stands alone, and goes on behind each occurrence that does not.

Behind an empty name is where it was, so the review of a card whose person has an empty alias may
never end; and an occurrence that overlaps one that was passed over is passed over with it.
`review_ends_and_names_exactly_iff` says when neither happens.
-/

namespace Mwe.Reviewer

open Str Search Planner Enrollment

/-! ## Names in a text -/

/-- Letters, with what the search for a name relies on. -/
structure Alphabet extends Letters where
  alphanumeric_a : isAlphanumeric 'a' = true
  toLowercase_eq_nil_iff : ∀ s, toLowercase s = [] ↔ s = []

variable (letters : Alphabet)

/-- Nothing, or nothing that continues a word. -/
def edge (c : Option Char) : Bool := c.all fun c => !letters.isAlphanumeric c

/-- The first occurrence of a needle; an empty one occurs at once. -/
def findFrom (needle rest : Str) : Option (Str × Str) :=
  if needle = [] then some ([], rest) else splitOnce needle rest

/-- The loop of `names`, so many times round; `none` while it is still going. -/
def namesFrom (needle : Str) : ℕ → Str → Str → Option Bool
  | 0, _, _ => none
  | fuel + 1, read, rest =>
    match findFrom needle rest with
    | none => some false
    | some (skipped, after) =>
      if edge letters (read ++ skipped).getLast? && edge letters after.head? then some true
      else namesFrom needle fuel (read ++ skipped ++ needle) after

/-- Whether a text names somebody, as a word and not as a part of a longer one. -/
def names (fuel : ℕ) (haystack needle : Str) : Option Bool :=
  namesFrom letters needle fuel [] haystack

/-! ## Who is who -/

/-- The elements of an ordered set. -/
def orderedSet (xs : List Str) : List Str := xs.toFinset.sort fun a b => a ≤ b

/-- What the review knows of people. -/
structure IdentityContext where
  userWikis : List Str
  memberships : Str → Option (List Str)
  aliases : Str → Option (List Str)

/-- Nobody has an identity wiki. -/
def IdentityContext.empty : IdentityContext where
  userWikis := []
  memberships _ := none
  aliases _ := none

/-- The names a person answers to. -/
def ownNames (roster : List EnrolledUserLite) (user : Str) : List Str :=
  orderedSet (letters.toLowercase user ::
    match roster.find? fun r => r.userId = user with
    | some row => row.aliases.map letters.toLowercase
    | none => [])

/-- One wiki taken into account. -/
def IdentityContext.add (roster : List EnrolledUserLite) (groups : List EnrollmentGroup)
    (ctx : IdentityContext) (d : WikiHandle) : IdentityContext :=
  if d.wikiMeta.wikiType = identityWikiType then
    let user := d.wikiMeta.wikiId.val
    { userWikis := user :: ctx.userWikis
      memberships := Function.update ctx.memberships user (some (groupsFor groups user))
      aliases := Function.update ctx.aliases user (some (ownNames letters roster user)) }
  else ctx

/-- Read the identity wikis of the tree, and who their people are. -/
def IdentityContext.load (users : UserTable) (groups : List EnrollmentGroup) (tree : WikiTree)
    (d : HostDisk) : Except WikiError IdentityContext := do
  let wikis ← tree.walk d
  pure (wikis.foldl (IdentityContext.add letters (listUsers users) groups) .empty)

/-- Whether a subject is somebody else's business on a person's page. -/
def IdentityContext.isForeign (ctx : IdentityContext) (pageUser : Str) (subject : Principal) :
    Bool :=
  if subject.isGlobal then false
  else
    match subject with
    | .user u => u != pageUser
    | .group g => !(ctx.memberships pageUser).any fun groups => groups.contains g

/-! ## What is wrong with a plan -/

/-- The findings. -/
structure ReviewReport (S : Type) where
  emptyLeaves : List Str := []
  duplicateFactHomes : List (Str × List Str) := []
  duplicateProse : List (Str × Str × S) := []
  missingAclMarkers : List (Str × Str) := []
  crossSubjectBloat : List (Str × Str × Str) := []
  oversizedPages : List (Str × ℕ) := []
  spentCardFacts : List (Str × Str × Str) := []

/-- From so many facts on a page is looked at again. -/
def oversizedPageThreshold : ℕ := 30

/-- Why a fact of a card has stopped holding. -/
def spentReason (f : FactForPage) (now : Str) : Option Str :=
  match (f.decayReason.map trim).filter fun r => !r.isEmpty with
  | some reason => some reason
  | none =>
    ((f.validTo.map trim).filter fun v => !v.isEmpty).bind fun ends =>
      if ends < now then some ("valid_to ".toList ++ ends) else none

/-- The people a plan knows who are not principals. -/
def namedNonPrincipals (plan : CompilationPlan) : List Str :=
  orderedSet ((((plan.pages.values.flatMap PagePlan.primaryFacts).filterMap
    FactForPage.subjectExternal).map trim).filter (fun n => 3 ≤ n.length) |>.map
      letters.toLowercase)

/-- Somebody a sentence is about who is not the card's person. -/
def aboutSomeoneElse (fuel : ℕ) (text : Str) (others own : List Str) : Option (Option Str) := do
  let lower := letters.toLowercase text
  if ← own.anyM (names letters fuel lower) then pure none
  else others.findM? (names letters fuel lower)

variable {S : Type}

/-- The shape of a page. -/
def checkPageShape (slug : Str) (page : PagePlan) (report : ReviewReport S) : ReviewReport S :=
  let report :=
    if !page.isIdentityCard && page.primaryFacts.isEmpty then
      { report with emptyLeaves := report.emptyLeaves ++ [slug] }
    else report
  if oversizedPageThreshold ≤ page.primaryFacts.length then
    { report with oversizedPages := report.oversizedPages ++ [(slug, page.primaryFacts.length)] }
  else report

/-- Whether a page is the card of somebody known. -/
def onCard (ctx : IdentityContext) (page : PagePlan) : Bool :=
  page.pagePath == profileFilename && ctx.userWikis.contains page.wikiId

/-- Who a fact of a card is about, if that is not the card's person. -/
def foreignOn (fuel : ℕ) (plan : CompilationPlan) (ctx : IdentityContext) (page : PagePlan)
    (f : FactForPage) : Option (Option Str) :=
  if ctx.isForeign page.wikiId f.subject then some (some f.subject.display)
  else
    match ctx.aliases page.wikiId with
    | none => some none
    | some own => aboutSomeoneElse letters fuel f.text (namedNonPrincipals letters plan) own

/-- What is wrong with a fact of a card. -/
def checkCardFact (fuel : ℕ) (plan : CompilationPlan) (ctx : IdentityContext) (now slug : Str)
    (page : PagePlan) (report : ReviewReport S) (f : FactForPage) : Option (ReviewReport S) :=
  if onCard ctx page then do
    let foreign ← foreignOn letters fuel plan ctx page f
    let bloat := foreign.map fun about => (slug, f.factId.val, about)
    let spent := (spentReason f now).map fun why => (slug, f.factId.val, why)
    pure { report with
      crossSubjectBloat := report.crossSubjectBloat ++ bloat.toList
      spentCardFacts := report.spentCardFacts ++ spent.toList }
  else some report

/-- What is wrong with a page of the plan. -/
def checkPage (fuel : ℕ) (plan : CompilationPlan) (ctx : IdentityContext) (now : Str)
    (report : ReviewReport S) (entry : Str × PagePlan) : Option (ReviewReport S) :=
  entry.2.primaryFacts.foldlM (checkCardFact letters fuel plan ctx now entry.1 entry.2)
    (checkPageShape entry.1 entry.2 report)

/-- The pages each fact is on. -/
def factHomes (plan : CompilationPlan) : SlugMap (List Str) :=
  plan.pages.toList.foldl (fun homes entry =>
    entry.2.primaryFacts.foldl (fun homes f =>
      homes.insert f.factId.val ((homes.getD f.factId.val []) ++ [entry.1])) homes) ∅

/-- A page as it was compiled. -/
def readPage (tree : WikiTree) (d : HostDisk) (wikiId pagePath : Str) : Option Str := do
  let id ← (WikiId.parse wikiId).toOption
  let handle ← (tree.locate d id).toOption
  if isSafePagePath pagePath then
    let at' ← (follow d handle.absDir pagePath).toOption
    (readToString d at').toOption
  else none

/-- The readable text of a page. -/
def strippedBody (events : List ParseEvent) : Str :=
  events.flatMap fun ev =>
    match ev with
    | .prose _ _ text => text
    | .region _ _ _ _ _ body _ => stripEmbedMarkers body
    | .embed _ _ _ => []

/-- The facts whose region on a page is not open to everybody. -/
def subjectMarked (events : List ParseEvent) : List Str :=
  events.filterMap fun ev =>
    match ev with
    | .region _ _ attrs _ _ _ _ => attrs.factId.bind fun fid =>
      let isOpen := attrs.acl.subject.any Principal.isGlobal || attrs.acl.allow.any
        Principal.isGlobal
      if isOpen then none else some fid.val
    | _ => none

/-- The owned facts of a page that are not marked on it. -/
def unmarked (slug : Str) (page : PagePlan) (marked : List Str) : List (Str × Str) :=
  (page.primaryFacts.filter fun f =>
    !isPublic f.subject f.allow f.sender && !marked.contains f.factId.val).map fun f =>
      (slug, f.factId.val)

variable [LinearOrder S]

/-- The pairs of pages that say much the same. -/
def proseTwins (floats : Floats S) (threshold : S) : List (Str × Str) → List (Str × Str × S)
  | [] => []
  | a :: rest =>
    (rest.filterMap fun b =>
      let score := Recall.jaccardSets floats
        (Recall.ngrams letters.toCasing a.2 Recall.defaultNgram)
        (Recall.ngrams letters.toCasing b.2 Recall.defaultNgram)
      if threshold ≤ score then some (a.1, b.1, score) else none) ++
      proseTwins floats threshold rest

/-- Review a plan, with so many rounds for each search of a name. -/
def review (floats : Floats S) (threshold : S) (fuel : ℕ) (tree : WikiTree) (d : HostDisk)
    (plan : CompilationPlan) (ctx : IdentityContext) (now : Str) : Option (ReviewReport S) := do
  let report : ReviewReport S ← plan.pages.toList.foldlM (checkPage letters fuel plan ctx now) {}
  let compiled := plan.pages.toList.filterMap fun entry =>
    (readPage tree d entry.2.wikiId entry.2.pagePath).map fun contents =>
      (entry.1, entry.2, parseEvents contents)
  pure { report with
    duplicateFactHomes := (factHomes plan).toList.filter fun home => 1 < home.2.length
    missingAclMarkers := compiled.flatMap fun c => unmarked c.1 c.2.1 (subjectMarked c.2.2)
    duplicateProse := proseTwins letters floats threshold
      (compiled.map fun c => (c.1, strippedBody c.2.2)) }

/-- The review ends. -/
def Ends (floats : Floats S) (threshold : S) (tree : WikiTree) (d : HostDisk)
    (plan : CompilationPlan) (ctx : IdentityContext) (now : Str) : Prop :=
  ∃ fuel report, review letters floats threshold fuel tree d plan ctx now = some report

/-! ## The search for a name -/

/-- A name stands somewhere in a text with nothing before or after it that continues a word. -/
def StandsAlone (haystack name : Str) : Prop :=
  ∃ before after, haystack = before ++ name ++ after ∧ edge letters before.getLast? = true ∧
    edge letters after.head? = true

/-- An occurrence has nothing on either side that continues a word. -/
def alone (p : Str × Str) : Bool := edge letters p.1.getLast? && edge letters p.2.head?

variable {letters}

lemma findFrom_of_ne_nil {needle : Str} (h : needle ≠ []) (rest : Str) :
    findFrom needle rest = splitOnce needle rest := if_neg h

/-- The loop asks of each occurrence it meets whether it stands alone. -/
lemma namesFrom_eq {needle : Str} (hn : needle ≠ []) {fuel : ℕ} {read rest : Str}
    (h : rest.length < fuel) : namesFrom letters needle fuel read rest =
      some ((occurrencesFrom needle fuel read rest).any (alone letters)) := by
  induction fuel generalizing read rest with
  | zero => omega
  | succ fuel ih =>
    rw [namesFrom, occurrencesFrom, findFrom_of_ne_nil hn]
    rcases hsplit : splitOnce needle rest with _ | ⟨skipped, after⟩
    · rfl
    · have hlt := length_after_lt hn hsplit
      dsimp only
      rw [List.any_cons]
      by_cases halone : alone letters (read ++ skipped, after) = true
      · rw [halone, Bool.true_or]
        exact if_pos halone
      · rw [Bool.eq_false_of_not_eq_true halone, Bool.false_or, ← ih (by omega)]
        exact if_neg halone

/-- Whenever the loop ends its answer is that. -/
lemma eq_any_of_namesFrom {needle : Str} (hn : needle ≠ []) {fuel : ℕ} {read rest : Str}
    {b : Bool} (h : namesFrom letters needle fuel read rest = some b) :
    b = (occurrencesFrom needle (rest.length + 1) read rest).any (alone letters) := by
  induction fuel generalizing read rest with
  | zero => cases h
  | succ fuel ih =>
    rw [namesFrom, findFrom_of_ne_nil hn] at h
    rw [occurrencesFrom]
    rcases hsplit : splitOnce needle rest with _ | ⟨skipped, after⟩
    · rw [hsplit] at h
      exact (Option.some.inj h).symm
    · have hlt := length_after_lt hn hsplit
      rw [hsplit] at h
      change (if alone letters (read ++ skipped, after) = true then some true
        else namesFrom letters needle fuel (read ++ skipped ++ needle) after) = some b at h
      dsimp only
      rw [List.any_cons]
      by_cases halone : alone letters (read ++ skipped, after) = true
      · rw [halone, Bool.true_or]
        rw [if_pos halone] at h
        exact (Option.some.inj h).symm
      · rw [Bool.eq_false_of_not_eq_true halone, Bool.false_or,
          occurrencesFrom_eq hn hlt (Nat.lt_succ_self after.length)]
        rw [if_neg halone] at h
        exact ih h

/-- The search for a name that is not empty ends. -/
lemma names_eq {name : Str} (hn : name ≠ []) {fuel : ℕ} {haystack : Str}
    (h : haystack.length < fuel) : names letters fuel haystack name =
      some ((occurrences name haystack).any (alone letters)) := by
  rw [names, namesFrom_eq hn h, occurrences, occurrencesFrom_eq hn h (Nat.lt_succ_self _)]

/-- The search for an empty name finds it before a text that does not begin with a word. -/
lemma names_nil_of_edge {haystack : Str} (h : edge letters haystack.head? = true) (fuel : ℕ) :
    names letters (fuel + 1) haystack [] = some true := by
  rw [names, namesFrom, findFrom, if_pos rfl]
  exact if_pos (Bool.and_eq_true_iff.mpr ⟨rfl, h⟩)

/-- Before a text that begins with a word the search for an empty name never ends. -/
lemma names_nil_of_not_edge {haystack : Str} (h : edge letters haystack.head? = false)
    (fuel : ℕ) : names letters fuel haystack [] = none := by
  rw [names]
  induction fuel with
  | zero => rfl
  | succ fuel ih =>
    rw [namesFrom, findFrom, if_pos rfl]
    have hnot : ¬ (edge letters (([] : Str) ++ []).getLast? &&
        edge letters haystack.head?) = true := by
      rw [h, Bool.and_false]
      exact Bool.false_ne_true
    exact (if_neg hnot).trans ih

/-- What is found alone stands alone. -/
lemma standsAlone_of_any {name haystack : Str} (hn : name ≠ [])
    (h : (occurrences name haystack).any (alone letters) = true) :
    StandsAlone letters haystack name := by
  obtain ⟨p, hp, halone⟩ := List.any_eq_true.mp h
  rw [alone, Bool.and_eq_true] at halone
  exact ⟨p.1, p.2, eq_of_mem_occurrences hn hp, halone⟩

/-- The name test says where a name stands alone. -/
def NamesExactly (letters : Alphabet) (haystack name : Str) : Prop :=
  (∃ fuel, names letters fuel haystack name = some true) ↔ StandsAlone letters haystack name

/-- A name that stands alone does so at one of the occurrences that do not overlap. -/
def MetAlone (letters : Alphabet) (haystack name : Str) : Prop :=
  StandsAlone letters haystack name →
    ∃ p ∈ occurrences name haystack, alone letters p = true

/-- Where a name overlaps itself, what stands in front of the overlap ends in a word. -/
def OverlapsInWords (letters : Alphabet) (name : Str) : Prop :=
  ∀ x w y, x ≠ [] → w ≠ [] → x ++ w = name → w ++ y = name → edge letters x.getLast? = false

lemma exists_names_iff {name haystack : Str} (hn : name ≠ []) :
    (∃ fuel, names letters fuel haystack name = some true) ↔
      (occurrences name haystack).any (alone letters) = true := by
  constructor
  · rintro ⟨fuel, hfuel⟩
    exact (eq_any_of_namesFrom hn hfuel).symm
  · intro h
    exact ⟨haystack.length + 1, by rw [names_eq hn (Nat.lt_succ_self _), h]⟩

/-- The name test is exact for a text exactly when a name that stands alone is met alone. -/
lemma namesExactly_iff {name : Str} (hn : name ≠ []) (haystack : Str) :
    NamesExactly letters haystack name ↔ MetAlone letters haystack name := by
  rw [NamesExactly, MetAlone, exists_names_iff hn, List.any_eq_true]
  constructor
  · intro h
    exact h.mpr
  · intro h
    exact ⟨fun hany => standsAlone_of_any hn (List.any_eq_true.mpr hany), h⟩

/-- The name test is exact for all texts exactly when the name overlaps itself in words only. -/
lemma namesExactly_all_iff {name : Str} (hn : name ≠ []) :
    (∀ haystack, NamesExactly letters haystack name) ↔ OverlapsInWords letters name := by
  constructor
  · intro h x w y hx hw hxw hwy
    by_contra hedge
    rw [Bool.not_eq_false] at hedge
    -- a word, the name, and what completes a second occurrence that overlaps it
    have hexact := (namesExactly_iff hn _).mp (h (['a'] ++ name ++ y))
    have hstands : StandsAlone letters (['a'] ++ name ++ y) name := by
      refine ⟨'a' :: x, [], ?_, ?_, rfl⟩
      · rw [List.append_nil, ← hwy]
        conv_lhs => rw [hwy, ← hxw]
        simp
      · rwa [List.getLast?_cons_of_ne_nil hx]
    obtain ⟨p, hp, halone⟩ := hexact hstands
    have hylen : y.length < name.length := by
      have hlen := congrArg List.length hwy
      have hpos := List.length_pos_iff.mpr hw
      rw [List.length_append] at hlen
      omega
    have hsplit : splitOnce name (['a'] ++ name ++ y) = some (['a'], y) := by
      refine splitOnce_of_firstAt hn ?_ y
      rw [firstAt_cons_iff]
      refine ⟨?_, firstAt_nil name⟩
      intro hpre
      -- then the name is one letter over and over, and that letter continues a word
      have hall : ∀ c ∈ name, c = 'a' := by
        have hrep : ∀ (s : Str), s <+: 'a' :: s → ∀ c ∈ s, c = 'a' := by
          intro s
          induction s with
          | nil => simp
          | cons c s ih =>
            intro hs
            obtain ⟨rfl, hs⟩ := List.cons_prefix_cons.mp hs
            exact List.forall_mem_cons.mpr ⟨rfl, ih hs⟩
        exact hrep name (by simpa using hpre)
      obtain ⟨front, c, rfl⟩ : ∃ front c, x = front ++ [c] :=
        ⟨_, _, (List.dropLast_append_getLast hx).symm⟩
      have hc : c = 'a' := hall c (by rw [← hxw]; simp)
      rw [hc, List.getLast?_concat, edge, Option.all_some, letters.alphanumeric_a] at hedge
      cases hedge
    rw [occurrences, occurrencesFrom, hsplit] at hp
    rcases List.mem_cons.mp hp with rfl | hp
    · rw [alone, Bool.and_eq_true] at halone
      have hfirst := halone.1
      simp [edge, letters.alphanumeric_a] at hfirst
    · have hnone : splitOnce name y = none := by
        rw [splitOnce_eq_none_iff hn]
        intro hinfix
        exact absurd hinfix.length_le (not_le.mpr hylen)
      obtain ⟨k, hk⟩ : ∃ k, (['a'] ++ name ++ y).length = k + 1 := ⟨_, rfl⟩
      rw [hk, occurrencesFrom, hnone] at hp
      cases hp
  · intro h haystack
    rw [namesExactly_iff hn]
    rintro ⟨before, after, rfl, hbefore, hafter⟩
    rcases mem_occurrences_or_overlap hn before after with hmem | hover
    · exact ⟨_, hmem, Bool.and_eq_true_iff.mpr ⟨hbefore, hafter⟩⟩
    · obtain ⟨p, -, x, w, y, hx, hw, hxw, hwy, rfl⟩ := hover
      rw [List.getLast?_append_of_ne_nil _ hx, h x w y hx hw hxw hwy] at hbefore
      cases hbefore

/-! ## Loops that end when their steps do -/

lemma isSome_anyM {α : Type} {p : α → Option Bool} {l : List α}
    (h : ∀ x ∈ l, (p x).isSome = true) : (l.anyM p).isSome = true := by
  induction l with
  | nil => rfl
  | cons x l ih =>
    obtain ⟨b, hb⟩ := Option.isSome_iff_exists.mp (h x List.mem_cons_self)
    rw [List.anyM_cons, hb]
    by_cases htrue : b = true
    · rw [htrue]
      rfl
    · rw [Bool.eq_false_of_not_eq_true htrue]
      exact ih fun y hy => h y (List.mem_cons_of_mem x hy)

lemma isSome_findM? {α : Type} {p : α → Option Bool} {l : List α}
    (h : ∀ x ∈ l, (p x).isSome = true) : (l.findM? p).isSome = true := by
  induction l with
  | nil => rfl
  | cons x l ih =>
    obtain ⟨b, hb⟩ := Option.isSome_iff_exists.mp (h x List.mem_cons_self)
    rw [List.findM?, hb]
    by_cases htrue : b = true
    · rw [htrue]
      rfl
    · rw [Bool.eq_false_of_not_eq_true htrue]
      exact ih fun y hy => h y (List.mem_cons_of_mem x hy)

lemma isSome_foldlM {σ α : Type} {f : σ → α → Option σ} {l : List α}
    (h : ∀ x ∈ l, ∀ s, (f s x).isSome = true) (s : σ) : (l.foldlM f s).isSome = true := by
  induction l generalizing s with
  | nil => rfl
  | cons x l ih =>
    obtain ⟨t, ht⟩ := Option.isSome_iff_exists.mp (h x List.mem_cons_self s)
    rw [List.foldlM_cons, ht]
    exact ih (fun y hy => h y (List.mem_cons_of_mem x hy)) t

/-- A loop that ended was through with each of its steps. -/
lemma exists_of_isSome_foldlM {σ α : Type} {f : σ → α → Option σ} {l : List α} {s : σ}
    (h : (l.foldlM f s).isSome = true) {x : α} (hx : x ∈ l) : ∃ s', (f s' x).isSome = true := by
  induction l generalizing s with
  | nil => cases hx
  | cons y l ih =>
    rw [List.foldlM_cons] at h
    rcases hy : f s y with _ | t
    · rw [hy] at h
      cases h
    · rw [hy] at h
      rcases List.mem_cons.mp hx with rfl | hx
      · exact ⟨s, by rw [hy]; rfl⟩
      · exact ih h hx

/-! ## The review of a card -/

lemma mem_orderedSet {xs : List Str} {x : Str} : x ∈ orderedSet xs ↔ x ∈ xs := by
  simp [orderedSet]

/-- Nothing comes before the empty name. -/
lemma orderedSet_of_nil_mem {xs : List Str} (h : [] ∈ xs) :
    ∃ rest, orderedSet xs = [] :: rest := by
  have hsorted : (orderedSet xs).Pairwise fun a b => a ≤ b := Finset.pairwise_sort _ _
  rcases hset : orderedSet xs with _ | ⟨first, rest⟩
  · rw [← mem_orderedSet, hset] at h
    cases h
  · rw [← mem_orderedSet, hset, List.mem_cons] at h
    rw [hset, List.pairwise_cons] at hsorted
    rcases h with rfl | h
    · exact ⟨rest, rfl⟩
    · have hle : first ≤ [] := hsorted.1 [] h
      rcases first with _ | ⟨c, cs⟩
      · exact ⟨rest, rfl⟩
      · exact absurd hle (not_le.mpr (List.nil_lt_cons c cs))

/-- The names of others are not empty. -/
lemma ne_nil_of_mem_namedNonPrincipals {plan : CompilationPlan} {n : Str}
    (h : n ∈ namedNonPrincipals letters plan) : n ≠ [] := by
  rw [namedNonPrincipals, mem_orderedSet, List.mem_map] at h
  obtain ⟨m, hm, rfl⟩ := h
  have hlen : 3 ≤ m.length := by simpa using (List.mem_filter.mp hm).2
  rw [ne_eq, letters.toLowercase_eq_nil_iff]
  rintro rfl
  exact absurd hlen (by decide)

/-- A fact that begins with a word, before an empty name, is never done with. -/
lemma aboutSomeoneElse_eq_none {xs others : List Str} {text : Str} (hnil : [] ∈ xs)
    (hword : edge letters (letters.toLowercase text).head? = false) (fuel : ℕ) :
    aboutSomeoneElse letters fuel text others (orderedSet xs) = none := by
  obtain ⟨rest, hset⟩ := orderedSet_of_nil_mem hnil
  rw [aboutSomeoneElse, hset, List.anyM_cons, names_nil_of_not_edge hword]
  rfl

/-- Every other fact is. -/
lemma isSome_aboutSomeoneElse {xs others : List Str} {text : Str}
    (hothers : ∀ n ∈ others, n ≠ [])
    (h : [] ∈ xs → edge letters (letters.toLowercase text).head? = true) {fuel : ℕ}
    (hfuel : (letters.toLowercase text).length < fuel) :
    (aboutSomeoneElse letters fuel text others (orderedSet xs)).isSome = true := by
  have hname : ∀ n, n ≠ [] →
      (names letters fuel (letters.toLowercase text) n).isSome = true := by
    intro n hn
    rw [names_eq hn hfuel]
    rfl
  have hown : ((orderedSet xs).anyM (names letters fuel (letters.toLowercase text))).isSome =
      true := by
    refine isSome_anyM fun n hn => ?_
    by_cases hnil : n = []
    · subst hnil
      obtain ⟨k, rfl⟩ := Nat.exists_eq_succ_of_ne_zero (Nat.ne_zero_of_lt hfuel)
      rw [names_nil_of_edge (h (mem_orderedSet.mp hn))]
      rfl
    · exact hname n hnil
  obtain ⟨b, hb⟩ := Option.isSome_iff_exists.mp hown
  rw [aboutSomeoneElse, hb]
  change (if b = true then some none else others.findM?
    (names letters fuel (letters.toLowercase text))).isSome = true
  by_cases htrue : b = true
  · rw [if_pos htrue]
    rfl
  · rw [if_neg htrue]
    exact isSome_findM? fun n hn => hname n (hothers n hn)

/-! ## The roster -/

/-- A roster that was accepted. -/
structure AcceptedRoster (f : Folding) where
  file : EnrollmentFile
  warnings : List RosterWarning
  accepted : validate f file = .ok warnings

namespace AcceptedRoster

variable {f : Folding} (roster : AcceptedRoster f)

/-- The people of a roster as they are stored. -/
def users : UserTable where
  rows := roster.file.users.map fun u => ⟨u.id, u.aliases⟩
  nodup := by
    rw [List.map_map]
    exact (warned_of_validate roster.accepted).1

/-- The groups of a roster as they are stored, and the one that everybody is in. -/
def groups : List EnrollmentGroup :=
  roster.file.groups.map (fun g => ⟨g.id, g.members⟩) ++ [⟨"global".toList, []⟩]

/-- Whose row is read for a person. -/
lemma find?_listUsers {x : Str} {row : EnrolledUserLite} :
    (listUsers roster.users).find? (fun r => r.userId = x) = some row ↔
      row.userId = x ∧ ∃ u ∈ roster.file.users, row = ⟨u.id, u.aliases⟩ := by
  have hmem : ∀ r, r ∈ listUsers roster.users ↔
      ∃ u ∈ roster.file.users, r = ⟨u.id, u.aliases⟩ := by
    intro r
    rw [listUsers, (List.perm_insertionSort _ _).mem_iff]
    simp only [users, List.mem_map, eq_comm]
  constructor
  · intro h
    exact ⟨by simpa using List.find?_some h, (hmem row).mp (List.mem_of_find?_eq_some h)⟩
  · rintro ⟨hid, hrow⟩
    obtain ⟨r, hr⟩ : ∃ r, (listUsers roster.users).find? (fun r => r.userId = x) = some r := by
      rw [← Option.isSome_iff_exists, List.find?_isSome]
      exact ⟨row, (hmem row).mpr hrow, by simpa using hid⟩
    have hx : r.userId = x := by simpa using List.find?_some hr
    rw [hr, Option.some.injEq]
    have hin : ∀ s ∈ listUsers roster.users, s ∈ roster.users := fun s hs =>
      (List.perm_insertionSort _ _).mem_iff.mp hs
    exact Sql.Table.eq_of_key_eq (hin r (List.mem_of_find?_eq_some hr))
      (hin row ((hmem row).mpr hrow)) (hx.trans hid.symm)

variable (letters) in
/-- A person with a name answers to the empty one exactly where it is an alias of theirs. -/
lemma nil_mem_ownNames {x : Str} (hx : x ≠ []) :
    [] ∈ ownNames letters (listUsers roster.users) x ↔
      ∃ u ∈ roster.file.users, u.id = x ∧ [] ∈ u.aliases := by
  rw [ownNames, mem_orderedSet, List.mem_cons]
  have hown : [] ≠ letters.toLowercase x := fun h =>
    hx ((letters.toLowercase_eq_nil_iff x).mp h.symm)
  rw [or_iff_right hown]
  rcases hfind : (listUsers roster.users).find? (fun r => r.userId = x) with _ | row
  · rw [hfind]
    simp only [List.not_mem_nil, false_iff, not_exists, not_and]
    intro u hu hid _
    have hsome := roster.find?_listUsers.mpr ⟨hid, u, hu, rfl⟩
    rw [hfind] at hsome
    cases hsome
  · obtain ⟨hid, u, hu, rfl⟩ := roster.find?_listUsers.mp hfind
    rw [hfind]
    simp only [List.mem_map, letters.toLowercase_eq_nil_iff, exists_eq_right]
    constructor
    · intro h
      exact ⟨u, hu, hid, h⟩
    · rintro ⟨v, hv, hvid, h⟩
      have hsame := roster.find?_listUsers.mpr ⟨hvid, v, hv, rfl⟩
      rw [hfind, Option.some.injEq, EnrolledUserLite.mk.injEq] at hsame
      rw [hsame.2]
      exact h

end AcceptedRoster

/-- What a nightly review is given: a roster that was accepted, the wikis on disk, and what
`IdentityContext::load` makes of both. -/
structure Nightly (letters : Alphabet) (f : Folding) where
  roster : AcceptedRoster f
  tree : WikiTree
  disk : HostDisk
  identity : IdentityContext
  loaded : IdentityContext.load letters roster.users roster.groups tree disk = .ok identity

namespace Nightly

variable {f : Folding} (night : Nightly letters f)

/-- The people known by a card answer to the names of the roster. -/
lemma aliases_eq {page : PagePlan} (h : onCard night.identity page = true) :
    page.wikiId ≠ [] ∧ night.identity.aliases page.wikiId =
      some (ownNames letters (listUsers night.roster.users) page.wikiId) := by
  have hknown : ∀ (wikis : List WikiHandle) (ctx : IdentityContext),
      (∀ u ∈ ctx.userWikis, u ≠ [] ∧
        ctx.aliases u = some (ownNames letters (listUsers night.roster.users) u)) →
      ∀ u ∈ (wikis.foldl (IdentityContext.add letters (listUsers night.roster.users)
          night.roster.groups) ctx).userWikis, u ≠ [] ∧
        (wikis.foldl (IdentityContext.add letters (listUsers night.roster.users)
          night.roster.groups) ctx).aliases u =
            some (ownNames letters (listUsers night.roster.users) u) := by
    intro wikis
    induction wikis with
    | nil => exact fun ctx hctx => hctx
    | cons w wikis ih =>
      intro ctx hctx
      rw [List.foldl_cons]
      refine ih _ ?_
      rw [IdentityContext.add]
      by_cases htype : w.wikiMeta.wikiType = identityWikiType
      · rw [if_pos htype]
        intro u hu
        by_cases hsame : u = w.wikiMeta.wikiId.val
        · subst hsame
          exact ⟨(checkSlug_eq_ok_iff.mp w.wikiMeta.wikiId.wellFormed).1,
            Function.update_self _ _ _⟩
        · have hold := hctx u ((List.mem_cons.mp hu).resolve_left hsame)
          exact ⟨hold.1, by rw [← hold.2]; exact Function.update_of_ne hsame _ _⟩
      · rw [if_neg htype]
        exact hctx
  obtain ⟨wikis, -, hfold⟩ := Effect.except_bind_ok_iff.mp night.loaded
  have hidentity := Except.ok.inj hfold
  rw [onCard, Bool.and_eq_true, ← hidentity] at h
  rw [← hidentity]
  refine hknown wikis .empty ?_ page.wikiId (by simpa using h.2)
  intro u hu
  cases hu

/-- A fact of somebody's own card that begins with a word, while they have an empty alias. -/
def Stuck (page : PagePlan) (fact : FactForPage) : Prop :=
  onCard night.identity page = true ∧
    night.identity.isForeign page.wikiId fact.subject = false ∧
    (∃ u ∈ night.roster.file.users, u.id = page.wikiId ∧ [] ∈ u.aliases) ∧
    edge letters (letters.toLowercase fact.text).head? = false

variable {night} {plan : CompilationPlan}

lemma foreignOn_eq_none {page : PagePlan} {fact : FactForPage} (h : night.Stuck page fact)
    (fuel : ℕ) : foreignOn letters fuel plan night.identity page fact = none := by
  obtain ⟨hcard, hforeign, hempty, hword⟩ := h
  obtain ⟨hne, haliases⟩ := night.aliases_eq hcard
  have hmem := (night.roster.nil_mem_ownNames letters hne).mpr hempty
  rw [ownNames, mem_orderedSet] at hmem
  rw [foreignOn, hforeign, haliases]
  exact aboutSomeoneElse_eq_none hmem hword fuel

lemma isSome_foreignOn {page : PagePlan} {fact : FactForPage}
    (hcard : onCard night.identity page = true) (h : ¬ night.Stuck page fact) {fuel : ℕ}
    (hfuel : (letters.toLowercase fact.text).length < fuel) :
    (foreignOn letters fuel plan night.identity page fact).isSome = true := by
  obtain ⟨hne, haliases⟩ := night.aliases_eq hcard
  rw [foreignOn, haliases]
  by_cases hforeign : night.identity.isForeign page.wikiId fact.subject = true
  · rw [if_pos hforeign]
    rfl
  · rw [if_neg hforeign]
    refine isSome_aboutSomeoneElse (fun n hn => ne_nil_of_mem_namedNonPrincipals hn) ?_ hfuel
    intro hmem
    rw [← mem_orderedSet] at hmem
    by_contra hword
    refine h ⟨hcard, Bool.eq_false_of_not_eq_true hforeign, ?_,
      Bool.eq_false_of_not_eq_true hword⟩
    exact (night.roster.nil_mem_ownNames letters hne).mp hmem

variable {S : Type}

lemma isSome_checkCardFact_iff {fuel : ℕ} {now slug : Str} {page : PagePlan}
    {report : ReviewReport S} {fact : FactForPage} :
    (checkCardFact letters fuel plan night.identity now slug page report fact).isSome = true ↔
      (onCard night.identity page = true →
        (foreignOn letters fuel plan night.identity page fact).isSome = true) := by
  rw [checkCardFact]
  by_cases hcard : onCard night.identity page = true
  · rw [if_pos hcard]
    rcases foreignOn letters fuel plan night.identity page fact with _ | about
    · simp [hcard]
    · exact iff_of_true rfl fun _ => rfl
  · rw [if_neg hcard]
    exact iff_of_true rfl fun h => absurd h hcard

variable [LinearOrder S] {floats : Floats S} {threshold : S}

/-- The review ends exactly when no fact of a card is stuck. -/
theorem ends_iff {now : Str} :
    Ends letters floats threshold night.tree night.disk plan night.identity now ↔
      ∀ entry ∈ plan.pages.toList, ∀ fact ∈ entry.2.primaryFacts, ¬ night.Stuck entry.2 fact := by
  constructor
  · rintro ⟨fuel, report, hreview⟩ entry hentry fact hfact hstuck
    rw [review] at hreview
    obtain ⟨pages, hpages, -⟩ := Option.bind_eq_some_iff.mp hreview
    obtain ⟨report', hpage⟩ := exists_of_isSome_foldlM
      (Option.isSome_iff_exists.mpr ⟨pages, hpages⟩) hentry
    obtain ⟨report'', hcard⟩ := exists_of_isSome_foldlM hpage hfact
    have hsome := isSome_checkCardFact_iff.mp hcard hstuck.1
    rw [foreignOn_eq_none hstuck] at hsome
    cases hsome
  · intro h
    -- as many rounds as all the facts have characters
    let lengths := (plan.pages.toList.flatMap fun entry => entry.2.primaryFacts).map fun fact =>
      (letters.toLowercase fact.text).length
    have hpages : (plan.pages.toList.foldlM (checkPage letters (lengths.sum + 1) plan
        night.identity now) ({} : ReviewReport S)).isSome = true := by
      refine isSome_foldlM (fun entry hentry report =>
        isSome_foldlM (fun fact hfact report => ?_) _) _
      rw [isSome_checkCardFact_iff]
      intro hcard
      refine isSome_foreignOn hcard (h entry hentry fact hfact) (Nat.lt_succ_of_le ?_)
      refine List.le_sum_of_mem (List.mem_map_of_mem (List.mem_flatMap.mpr ⟨entry, hentry, hfact⟩))
    obtain ⟨report, hreport⟩ := Option.isSome_iff_exists.mp hpages
    refine ⟨lengths.sum + 1, ?_⟩
    rw [review, hreport]
    exact ⟨_, rfl⟩

end Nightly

/-- **The conditions.**  The review ends exactly when no card of a person with an empty alias has a
fact of their own that begins with a word; and the name test is exact for a text exactly when a name
that stands alone there is met alone, for all texts exactly when the name overlaps itself in words
only. -/
theorem review_ends_and_names_exactly_iff (letters : Alphabet) (f : Folding) {S : Type}
    [LinearOrder S] (floats : Floats S) (threshold : S) :
    (∀ (night : Nightly letters f) (plan : CompilationPlan) (now : Str),
      Ends letters floats threshold night.tree night.disk plan night.identity now ↔
        ∀ entry ∈ plan.pages.toList, ∀ fact ∈ entry.2.primaryFacts,
          ¬ night.Stuck entry.2 fact) ∧
    ∀ name : {s : Str // s ≠ []},
      (∀ haystack, NamesExactly letters haystack name.val ↔ MetAlone letters haystack name.val) ∧
        ((∀ haystack, NamesExactly letters haystack name.val) ↔
          OverlapsInWords letters name.val) :=
  ⟨fun _ _ _ => Nightly.ends_iff, fun name =>
    ⟨namesExactly_iff name.property, namesExactly_all_iff name.property⟩⟩

/-! ## An empty alias, and a name that overlaps itself -/

/-- Letters, digits and case of ASCII. -/
private def asciiAlphabet : Alphabet where
  toUppercase c := [c.toUpper]
  toLowercase := toAsciiLowercase
  isAlphabetic := Char.isAlpha
  isAlphanumeric := Char.isAlphanum
  alphanumeric_a := by decide
  toLowercase_eq_nil_iff s := List.map_eq_nil_iff

/-- Alice is enrolled with an empty alias. -/
private def namelessAlice : EnrollmentFile where
  version := 1
  users := [⟨"alice".toList, [[]]⟩]

/-- What is known of Alice's wiki. -/
private def aliceContext : Except WikiError IdentityContext :=
  IdentityContext.load asciiAlphabet ⟨[⟨"alice".toList, [[]]⟩], by decide⟩ [⟨"global".toList, []⟩]
    ⟨["srv".toList], Serde.ofMetas [Sample.alice]⟩
    (diskOf [(Sample.aliceDir ++ [metaFilename], Sample.metaText Sample.alice)])

/-- A fact of Alice's on her card. -/
private def seaFact : FactForPage where
  factId := ⟨"018f1234-5678-7abc-9def-0123456789ab".toList, isFactId_ab⟩
  text := "Ama il mare".toList
  subject := .user "alice".toList
  sourceWikiId := "alice".toList

/-- Alice's card. -/
private def aliceCard : PagePlan where
  slug := "alice".toList
  title := "Alice".toList
  primaryFacts := [seaFact]
  wikiId := "alice".toList
  pagePath := profileFilename

/-- A review of the card of somebody with an empty alias does not end, and of `a a` in `ba a a` only
the occurrence that continues a word is looked at. -/
theorem an_empty_alias_stops_the_review :
    (¬ ∀ (night : Nightly asciiAlphabet ascii) (plan : CompilationPlan) (now : Str),
      Ends asciiAlphabet exactFloats (1 / 5) night.tree night.disk plan night.identity now) ∧
    ¬ ∀ haystack name, name ≠ [] → NamesExactly asciiAlphabet haystack name := by
  constructor
  · intro h
    have haccepted : validate ascii namelessAlice = .ok [] := by decide +kernel
    have hwikis : aliceContext.toOption.map IdentityContext.userWikis =
        some ["alice".toList] := by decide +kernel
    obtain ⟨ctx, hctx, hknown⟩ := Option.map_eq_some_iff.mp hwikis
    rcases hload : aliceContext with e | ctx'
    · rw [hload] at hctx
      cases hctx
    · rw [hload] at hctx
      obtain rfl : ctx' = ctx := Option.some.inj hctx
      let night : Nightly asciiAlphabet ascii :=
        ⟨⟨namelessAlice, [], haccepted⟩, _, _, ctx', hload⟩
      refine Nightly.ends_iff.mp (h night ⟨.ofList [("alice".toList, aliceCard)], [], ∅, [], [], 1,
        [], [], [], [], []⟩ []) ("alice".toList, aliceCard) ?_ seaFact List.mem_cons_self ?_
      · decide +kernel
      · refine ⟨?_, rfl, ⟨_, List.mem_cons_self, rfl, List.mem_cons_self⟩, by decide +kernel⟩
        rw [onCard, show night.identity.userWikis = ["alice".toList] from hknown]
        decide +kernel
  · intro h
    have hexact := h "ba a a".toList "a a".toList (by decide)
    have hstands : StandsAlone asciiAlphabet "ba a a".toList "a a".toList :=
      ⟨"ba ".toList, [], by decide, by decide, by decide⟩
    have hmet := (exists_names_iff (by decide)).mp (hexact.mpr hstands)
    revert hmet
    decide +kernel

end Mwe.Reviewer
