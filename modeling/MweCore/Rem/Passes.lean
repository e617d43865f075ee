import MweCore.Acl.Readership
import MweCore.Capture.Fold
import MweCore.Gdpr.Forget
import MweCore.Planner.Plan

/-!
# The passes of the night

While nobody is there, four passes correct what the memory holds: the revisor merges facts that
say the same thing, the completion sweep closes what was done, the contradiction sweep closes what
fell with a fact that was contradicted, and the page judge reads whole pages.  Each has a model
confirm what it found, and fences of its own around what it may act on.

Here is what they decide, on the rows they read: `nominated`, `completionCases`, `satellites` and
`weigh`.  How similar two facts are, and what the prose of a page looks like, is a `Library`.
-/

namespace Mwe

open Str

/-- Whether a fact is of the identity core: the kind an identity card carries, and always on. -/
def FactRow.isIdentityCore (r : FactRow) : Bool :=
  FactIndex.belongsOnAnIdentityCard r.factType r.salience

/-- Whether a page is the identity card of a wiki. -/
def isIdentityCardPage (sourcePath : Str) : Bool := namesPage sourcePath profileFilename

namespace Rem

/-- What the passes read beside the fact index. -/
structure Library (T S : Type*) where
  createdAt : FactId → Str
  /-- the likeness of the words of two claims -/
  jaccard : Str → Str → S
  /-- the likeness of two embeddings -/
  cosine : FactRow → FactRow → S
  /-- whether two embeddings have one length and are not the same -/
  apart : FactRow → FactRow → Bool
  /-- the last instant a date names, in its canonical spelling -/
  canonicalBound : Str → Option Str
  /-- the last instant of the day of an instant -/
  endOfDay : T → Str
  /-- the values of the one claim that the other neither keeps nor replaces -/
  orphanedValues : Str → Str → List Str

/-- How far the passes go. -/
structure RemPolicy (S : Type*) where
  revisorCap : ℕ
  revisorExaminedCap : ℕ
  revisorJaccardMin : S
  revisorJaccardMax : S
  revisorCosineMin : S
  completionSweepCap : ℕ
  contradictionSweepCap : ℕ

/-- Whether two facts are told to different people. -/
def readerSetsDiffer (a b : FactRow) : Bool := decide (a.acl.readerSet ≠ b.acl.readerSet)

section Passes

variable {T S : Type*} [LinearOrder T] [LinearOrder S] (chrono : Chrono T) (lib : Library T S)

/-- When a fact began: the earlier of its two clocks. -/
def factBegan (r : FactRow) : Str :=
  match r.validFrom with
  | some start => if start < lib.createdAt r.factId then start else lib.createdAt r.factId
  | none => lib.createdAt r.factId

/-! ## The revisor -/

/-- Whether the words or the meaning of two facts are near enough to ask about. -/
def similar (policy : RemPolicy S) (newer older : FactRow) : Bool :=
  let score := lib.jaccard newer.text older.text
  decide (score < policy.revisorJaccardMax) &&
    (decide (policy.revisorJaccardMin ≤ score) ||
      (lib.apart newer older && decide (policy.revisorCosineMin ≤ lib.cosine newer older)))

/-- Whether the model is asked if a fact repeats an older one: both or neither are on a channel
page, and a withdrawn directive is nobody's twin; what would be retired is not of the identity
core; both are told to the same people; and they are alike. -/
def nominated (policy : RemPolicy S) (newer older : FactRow) : Bool :=
  (isChannelPage newer.sourcePath == isChannelPage older.sourcePath) &&
    !(isChannelPage newer.sourcePath && (newer.validTo.isSome || older.validTo.isSome)) &&
    !older.isIdentityCore && !readerSetsDiffer newer older && similar lib policy newer older

/-- Rows, the newest first. -/
def newestFirst (rows : List FactRow) : List FactRow :=
  rows.insertionSort fun a b => lib.createdAt b.factId ≤ lib.createdAt a.factId

/-- The pairs of a list, each row with every later one. -/
def pairsOf : List FactRow → List (FactRow × FactRow)
  | [] => []
  | newer :: rows => rows.map (newer, ·) ++ pairsOf rows

/-! ## The completion sweep -/

/-- The most similar rows, the nearest first. -/
def nearest (seed : FactRow) (rows : List FactRow) (n : ℕ) : List FactRow :=
  (rows.insertionSort fun a b => lib.cosine seed b ≤ lib.cosine seed a).take n

/-- The open facts of a wiki that a piece of evidence may have closed. -/
def openItems (rows : List FactRow) (evidence : FactRow) : List FactRow :=
  nearest lib evidence (rows.filter fun c => c.factId != evidence.factId && c.validTo.isNone &&
    decide (lib.createdAt c.factId < lib.createdAt evidence.factId) &&
      !isChannelPage c.sourcePath) 3

/-- The evidence of a wiki, each with the open facts it may have closed. -/
def completionCases (policy : RemPolicy S) (since : T) (byWiki : List (List FactRow)) :
    List (FactRow × List FactRow) :=
  let cases := byWiki.flatMap fun rows => rows.filterMap fun evidence =>
    if isChannelPage evidence.sourcePath then none
    else
      match instantOf chrono (lib.createdAt evidence.factId) with
      | none => none
      | some created =>
        if created < since then none
        else
          let candidates := openItems lib rows evidence
          if candidates.isEmpty then none else some (evidence, candidates)
  (cases.insertionSort fun a b =>
    lib.createdAt b.1.factId ≤ lib.createdAt a.1.factId).take policy.completionSweepCap

/-! ## The contradiction sweep -/

/-- The facts of a wiki contradicted since an instant. -/
def findRecentlyContradicted (facts : FactTable) (wikiId : Str) (since : T) : List FactRow :=
  facts.rows.filter fun r => decide (r.wikiId = wikiId) && r.deletedAt.isNone &&
    match r.supersededAt with
    | some at_ => (instantOf chrono at_).any fun t => decide (since ≤ t)
    | none => r.decayReason == some "contradicted".toList &&
        (instantOf chrono r.updatedAt).any fun t => decide (since ≤ t)

/-- The facts that replaced a fact, one after the other. -/
def lineageFrom (facts : FactTable) : ℕ → List FactId → Option FactId → List FactId
  | 0, lineage, _ => lineage
  | _, lineage, none => lineage
  | fuel + 1, lineage, some id =>
    if lineage.contains id then lineage
    else lineageFrom facts fuel (lineage ++ [id]) ((facts.get? id).bind FactRow.supersededBy)

/-- The successors of a fact, at most thirty-two. -/
def successorLineage (facts : FactTable) (seed : FactRow) : List FactId :=
  lineageFrom facts 32 [] seed.supersededBy

/-- The facts in force that may fall with one that was contradicted: not those that replaced it,
no channel page's, none of the identity core. -/
def satellites (facts : FactTable) (rows : List FactRow) (now : T) (seed : FactRow) :
    List FactRow :=
  nearest lib seed (rows.filter fun c =>
    (c.validTo.all fun stop => (instantOf chrono stop).any fun t => decide (now < t)) &&
      c.factId != seed.factId && !(successorLineage facts seed).contains c.factId &&
      !isChannelPage c.sourcePath && !c.isIdentityCore) 5

/-- Whether a fact and what it is weighed against are on one page that will be read whole. -/
def allOnOnePageTheReadingWillOpen (seed : FactRow) (others : List FactRow)
    (willRead : List Str) : Bool :=
  willRead.contains seed.sourcePath && others.all fun c => c.sourcePath == seed.sourcePath

/-- One closure a model confirmed. -/
structure CompletionItem where
  target : Str
  outcome : Option Str := none
  validTo : Option Str := none

/-- Why an item closes: it was done, or it was called off. -/
def CompletionItem.decayReason (item : CompletionItem) : Str :=
  if item.outcome = some "retracted".toList then "retracted".toList else "completed".toList

/-! ## The page judge -/

/-- Which of the two readings a page is given. -/
inductive JudgementDepth where
  | hourly | nightly
  deriving DecidableEq

/-- Whether a reading may compare one fact with another. -/
def JudgementDepth.weighsFactsAgainstEachOther : JudgementDepth → Bool
  | .hourly => false
  | .nightly => true

/-- Whether a reading may ask about the page as well. -/
def JudgementDepth.reshapesThePage : JudgementDepth → Bool
  | .hourly => false
  | .nightly => true

/-- A page as the judge reads it, its facts in the order of their markers. -/
structure JudgedPage where
  wikiId : Str
  sourcePath : Str
  facts : List FactRow
  pageInWiki : Option Str := none
  heavyEnoughToSplit : Bool := false

/-- What the judge says about one marker. -/
structure LlmPageVerdict where
  verdict : Str
  validTo : Option Str := none
  target : Option Str := none
  /-- the marker that makes this one false -/
  byMarker : Option Str := none
  reason : Option Str := none
  factType : Option Str := none

/-- The facts that would leave a page for one of their own. -/
structure LlmPageSplit where
  title : Option Str := none
  markers : List Str

/-- What the judge says about a page. -/
structure PageDecision where
  verdicts : List (Str × LlmPageVerdict) := []
  split : Option LlmPageSplit := none

/-- The value of a run of digits. -/
def decimal (digits : Str) : ℕ := digits.foldl (fun n c => 10 * n + (c.toNat - '0'.toNat)) 0

/-- The number a marker names: `f7`, `<F7>` and `7` are all seven. -/
def markerNumber (raw : Str) : Option ℕ :=
  let bare := (((trim raw).dropWhile (· == '<')).rdropWhile (· == '>')).dropWhile fun c =>
    c == 'f' || c == 'F'
  let digits := bare.takeWhile isAsciiDigit
  if digits.isEmpty then none
  else if 0 < decimal digits ∧ decimal digits < 2 ^ 64 then some (decimal digits)
  else none

/-- The fact a marker names. -/
def JudgedPage.factAt (page : JudgedPage) : ℕ → Option FactRow
  | 0 => none
  | marker + 1 => page.facts[marker]?.filter fun row => row.deletedAt.isNone

/-- Whether a verdict is kept off a fact of the identity core: all but a retype are. -/
def theCardIsOutOfReach (row : FactRow) (verb : Str) : Bool :=
  row.isIdentityCore && verb != "retype".toList

/-- Why a verdict is not carried out. -/
inductive Refusal where
  | onTheCard | alreadyEnds | cardNeverEnded | noMarkerToClose | noSuchMarker | closesItself
  | alreadyClosed | onlyTheCardIsRetyped | onlyAsState | notAskedToWeigh | noMarkerAgainst
  | contradictsItself | noMarkerToMerge | ownDuplicate | cardNeverRetired | saysLess
  | differentPeople | noSuchVerdict
  deriving DecidableEq

/-- What a verdict comes to. -/
inductive Act (T : Type*) where
  | kept
  | refused (why : Refusal)
  | endAt (row : FactRow) (stop : Str)
  | close (row : FactRow) (stop reason : Str) (successor : FactRow) (when : T)
  | ask (row : FactRow) (ends : Option Str)
  | retype (row : FactRow) (ends : Option Str) (saidAt : T)
  | merge (winner loser : FactRow)

/-- The fact a verdict names beside its own. -/
def JudgedPage.named (page : JudgedPage) (marker : Option Str) : Option (Option FactRow) :=
  (marker.bind markerNumber).map page.factAt

/-- Whether a verdict would act on a fact that was decided already. -/
def touchesADecidedFact (page : JudgedPage) (verdict : LlmPageVerdict) (row : FactRow)
    (decided : List FactId) : Bool :=
  decided.contains row.factId ||
    ([verdict.target, verdict.byMarker].filterMap fun marker => (page.named marker).join).any
      fun other => decided.contains other.factId

/-- An errand, true of its day and of no other. -/
def weighEnd (row : FactRow) (verdict : LlmPageVerdict) (saidAt : T) : Act T :=
  if row.validTo.isSome then .refused .alreadyEnds
  else if FactIndex.isAnIdentityKind row.factType then .refused .cardNeverEnded
  else
    let day := (instantOf chrono (row.validFrom.getD (lib.createdAt row.factId))).getD saidAt
    .endAt row ((verdict.validTo.bind lib.canonicalBound).getD (lib.endOfDay day))

/-- A fact that finishes something the page was still waiting for. -/
def weighCloses (page : JudgedPage) (row : FactRow) (verdict : LlmPageVerdict) (saidAt : T) :
    Act T :=
  match page.named verdict.target with
  | none => .refused .noMarkerToClose
  | some none => .refused .noSuchMarker
  | some (some opened) =>
    if opened.factId = row.factId then .refused .closesItself
    else if opened.validTo.isSome then .refused .alreadyClosed
    else if theCardIsOutOfReach opened "closes".toList then .refused .onTheCard
    else
      .close opened (boundFromInstant chrono saidAt)
        (if verdict.reason = some "retracted".toList then "retracted".toList
          else "completed".toList) row saidAt

/-- A passage wearing the clothes of a trait; on the identity core this is a question. -/
def weighRetype (row : FactRow) (verdict : LlmPageVerdict) (saidAt : T) : Act T :=
  if !FactIndex.isAnIdentityKind row.factType then .refused .onlyTheCardIsRetyped
  else if verdict.factType ≠ some "state".toList then .refused .onlyAsState
  else if row.isIdentityCore then .ask row (verdict.validTo.bind lib.canonicalBound)
  else .retype row (verdict.validTo.bind lib.canonicalBound) saidAt

/-- Something standing on the page that makes a fact false. -/
def weighContradicted (depth : JudgementDepth) (page : JudgedPage) (row : FactRow)
    (verdict : LlmPageVerdict) (saidAt : T) : Act T :=
  if !depth.weighsFactsAgainstEachOther then .refused .notAskedToWeigh
  else
    match page.named verdict.byMarker with
    | none => .refused .noMarkerAgainst
    | some none => .refused .noSuchMarker
    | some (some against) =>
      if against.factId = row.factId then .refused .contradictsItself
      else if row.validTo.isSome then .refused .alreadyClosed
      else
        let when := (instantOf chrono (against.validFrom.getD
          (lib.createdAt against.factId))).getD saidAt
        .close row (boundFromInstant chrono when) "contradicted".toList against when

/-- The merge of two copies of a claim: the newer survives, unless it says less, or the older is of
the identity core or told to other people. -/
def mergeCopies (winner loser : FactRow) : Act T :=
  if loser.isIdentityCore then .refused .cardNeverRetired
  else if (lib.orphanedValues loser.text winner.text) ≠ [] then .refused .saysLess
  else if readerSetsDiffer winner loser then .refused .differentPeople
  else .merge winner loser

/-- The same claim, written twice on one page. -/
def weighDuplicate (depth : JudgementDepth) (page : JudgedPage) (row : FactRow)
    (verdict : LlmPageVerdict) : Act T :=
  if !depth.weighsFactsAgainstEachOther then .refused .notAskedToWeigh
  else
    match page.named verdict.target with
    | none => .refused .noMarkerToMerge
    | some none => .refused .noSuchMarker
    | some (some twin) =>
      if twin.factId = row.factId then .refused .ownDuplicate
      else if lib.createdAt twin.factId ≤ lib.createdAt row.factId then mergeCopies lib row twin
      else mergeCopies lib twin row

/-- What the engine makes of one verdict. -/
def weigh (depth : JudgementDepth) (memoryNow : T) (page : JudgedPage) (row : FactRow)
    (verdict : LlmPageVerdict) : Act T :=
  let saidAt := (instantOf chrono (factBegan lib row)).getD memoryNow
  let verb := trim verdict.verdict
  if verb = "keep".toList ∨ verb = [] then .kept
  else if theCardIsOutOfReach row verb then .refused .onTheCard
  else if verb = "end".toList then weighEnd chrono lib row verdict saidAt
  else if verb = "closes".toList then weighCloses chrono page row verdict saidAt
  else if verb = "retype".toList then weighRetype lib row verdict saidAt
  else if verb = "contradicted".toList then weighContradicted chrono lib depth page row verdict saidAt
  else if verb = "duplicate_of".toList then weighDuplicate lib depth page row verdict
  else .refused .noSuchVerdict

/-- The facts a split moves; it leaves something behind. -/
def factsThatMove (page : JudgedPage) (split : LlmPageSplit) : Option (List FactRow) :=
  (split.markers.mapM fun raw => (page.named (some raw)).join).bind fun rows =>
    let moving := rows.foldl (fun moving row =>
      if moving.any fun f => f.factId == row.factId then moving else moving ++ [row]) []
    if moving.isEmpty || page.facts.length ≤ moving.length then none else some moving

/-- The page name made of the first words of a claim. -/
def defaultTargetPage (body : Str) : Str :=
  let words := List.intercalate " ".toList
    (((body.splitOnP isWhitespace).filter fun w => !w.isEmpty).take 4)
  let stem := Planner.slugify words
  if stem.isEmpty then "promoted_paragraph.md".toList else stem ++ ".md".toList

/-- The page a split opens. -/
def pageTheSplitOpens (split : LlmPageSplit) (moving : List FactRow) (sourcePage : Str) :
    Option Str :=
  let canonical := (split.title.bind Planner.canonicalPagePath).getD
    (defaultTargetPage (moving.head?.elim [] FactRow.text))
  let slug := Planner.slugify ((stripSuffix ".md".toList canonical).getD canonical)
  if slug.isEmpty || isReservedPageStem slug then none
  else if slug ++ ".md".toList = sourcePage then none
  else some (slug ++ ".md".toList)

/-! ### What a verdict can come to -/

/-- The fact an act would close, retype or retire. -/
def Act.reaches : Act T → Option FactRow
  | .endAt row _ | .close row _ _ _ _ | .retype row _ _ => some row
  | .merge _ loser => some loser
  | _ => none

variable {chrono lib} {page : JudgedPage} {row r winner loser : FactRow}
  {verdict : LlmPageVerdict} {saidAt memoryNow : T} {depth : JudgementDepth}

lemma JudgedPage.mem_of_factAt {marker : ℕ} (h : page.factAt marker = some row) :
    row ∈ page.facts := by
  cases marker with
  | zero => cases h
  | succ marker => exact List.mem_of_getElem? (Option.filter_eq_some_iff.mp h).1

lemma JudgedPage.mem_of_named {marker : Option Str} (h : page.named marker = some (some row)) :
    row ∈ page.facts := by
  obtain ⟨n, -, hat⟩ := Option.map_eq_some_iff.mp h
  exact mem_of_factAt hat

omit [LinearOrder T] [LinearOrder S] in
/-- What is merged is not of the identity core, and told to the same people. -/
lemma mergeCopies_cases (lib : Library T S) (winner loser : FactRow) :
    (∃ why, mergeCopies lib winner loser = .refused why) ∨
      (mergeCopies lib winner loser = .merge winner loser ∧
        loser.isIdentityCore = false ∧ readerSetsDiffer winner loser = false) := by
  unfold mergeCopies
  split_ifs with hcore hless hpeople
  · exact .inl ⟨_, rfl⟩
  · exact .inl ⟨_, rfl⟩
  · exact .inl ⟨_, rfl⟩
  · exact .inr ⟨rfl, by simpa using hcore, by simpa using hpeople⟩

omit [LinearOrder T] [LinearOrder S] in
/-- A verdict that two facts are one is refused, or merges two facts of the page. -/
lemma weighDuplicate_cases (lib : Library T S) (depth : JudgementDepth)
    (verdict : LlmPageVerdict) (hrow : row ∈ page.facts) :
    (∃ why, weighDuplicate lib depth page row verdict = .refused why) ∨
      ∃ winner loser, weighDuplicate lib depth page row verdict = .merge winner loser ∧
        loser ∈ page.facts ∧ loser.isIdentityCore = false ∧
        readerSetsDiffer winner loser = false := by
  unfold weighDuplicate
  split
  · exact .inl ⟨_, rfl⟩
  split
  · exact .inl ⟨_, rfl⟩
  · exact .inl ⟨_, rfl⟩
  next twin htwin =>
  split_ifs
  · exact .inl ⟨_, rfl⟩
  · obtain hrefused | ⟨hmerge, hfences⟩ := mergeCopies_cases lib row twin
    · exact .inl hrefused
    · exact .inr ⟨row, twin, hmerge, JudgedPage.mem_of_named htwin, hfences⟩
  · obtain hrefused | ⟨hmerge, hfences⟩ := mergeCopies_cases lib twin row
    · exact .inl hrefused
    · exact .inr ⟨twin, row, hmerge, hrow, hfences⟩

omit [LinearOrder T] [LinearOrder S] in
lemma theCardIsOutOfReach_eq_false {verb : Str} (h : theCardIsOutOfReach row verb = false)
    (hverb : verb ≠ "retype".toList) : row.isIdentityCore = false := by
  have hbne : (verb != "retype".toList) = true := bne_iff_ne.mpr hverb
  rwa [theCardIsOutOfReach, hbne, Bool.and_true] at h

omit [LinearOrder T] [LinearOrder S] in
lemma reaches_weighEnd (h : (weighEnd chrono lib row verdict saidAt).reaches = some r) :
    r = row := by
  unfold weighEnd at h
  split_ifs at h
  · cases h
  · cases h
  · exact (Option.some.inj h).symm

omit [LinearOrder T] in
lemma reaches_weighCloses (h : (weighCloses chrono page row verdict saidAt).reaches = some r) :
    r ∈ page.facts ∧ r.isIdentityCore = false := by
  unfold weighCloses at h
  split at h
  · cases h
  · cases h
  next opened hopened =>
  split at h
  · cases h
  split at h
  · cases h
  split at h
  · cases h
  next hreach =>
  obtain rfl := Option.some.inj h
  exact ⟨JudgedPage.mem_of_named hopened,
    theCardIsOutOfReach_eq_false (by simpa using hreach) (by decide)⟩

omit [LinearOrder T] [LinearOrder S] in
lemma reaches_weighRetype (h : (weighRetype lib row verdict saidAt).reaches = some r) :
    r = row ∧ row.isIdentityCore = false := by
  unfold weighRetype at h
  split_ifs at h with hkind hstate hcore
  · cases h
  · cases h
  · cases h
  · exact ⟨(Option.some.inj h).symm, by simpa using hcore⟩

omit [LinearOrder T] [LinearOrder S] in
lemma reaches_weighContradicted
    (h : (weighContradicted chrono lib depth page row verdict saidAt).reaches = some r) :
    r = row := by
  unfold weighContradicted at h
  split at h
  · cases h
  split at h
  · cases h
  · cases h
  split_ifs at h
  · cases h
  · cases h
  · exact (Option.some.inj h).symm

omit [LinearOrder T] [LinearOrder S] in
lemma reaches_weighDuplicate (hrow : row ∈ page.facts)
    (h : (weighDuplicate lib depth page row verdict).reaches = some r) :
    r ∈ page.facts ∧ r.isIdentityCore = false := by
  obtain ⟨why, hrefused⟩ | ⟨winner, loser, hmerge, hmem, hcore, -⟩ :=
    weighDuplicate_cases lib depth verdict hrow
  · rw [hrefused] at h
    cases h
  · rw [hmerge] at h
    obtain rfl := Option.some.inj h
    exact ⟨hmem, hcore⟩

omit [LinearOrder T] [LinearOrder S] in
/-- Whatever a verdict comes to, the fact it closes, retypes or retires is on the page and not of
the identity core. -/
lemma reaches_weigh (hrow : row ∈ page.facts)
    (h : (weigh chrono lib depth memoryNow page row verdict).reaches = some r) :
    r ∈ page.facts ∧ r.isIdentityCore = false := by
  unfold weigh at h
  dsimp only at h
  split at h
  · cases h
  split at h
  · cases h
  next hreach =>
  rw [Bool.not_eq_true] at hreach
  split at h
  · next hverb =>
    rw [hverb] at hreach
    rw [reaches_weighEnd h]
    exact ⟨hrow, theCardIsOutOfReach_eq_false hreach (by decide)⟩
  split at h
  · exact reaches_weighCloses h
  split at h
  · obtain ⟨rfl, hcore⟩ := reaches_weighRetype h
    exact ⟨hrow, hcore⟩
  split at h
  · next hverb =>
    rw [hverb] at hreach
    rw [reaches_weighContradicted h]
    exact ⟨hrow, theCardIsOutOfReach_eq_false hreach (by decide)⟩
  split at h
  · exact reaches_weighDuplicate hrow h
  · cases h

omit [LinearOrder T] [LinearOrder S] in
lemma weighEnd_ne_merge (winner loser : FactRow) :
    weighEnd chrono lib row verdict saidAt ≠ .merge winner loser := by
  unfold weighEnd
  split_ifs <;> simp

omit [LinearOrder T] in
lemma weighCloses_ne_merge (winner loser : FactRow) :
    weighCloses chrono page row verdict saidAt ≠ .merge winner loser := by
  unfold weighCloses
  split
  · simp
  · simp
  · split_ifs <;> simp

omit [LinearOrder T] [LinearOrder S] in
lemma weighRetype_ne_merge (winner loser : FactRow) :
    weighRetype lib row verdict saidAt ≠ .merge winner loser := by
  unfold weighRetype
  split_ifs <;> simp

omit [LinearOrder T] [LinearOrder S] in
lemma weighContradicted_ne_merge (winner loser : FactRow) :
    weighContradicted chrono lib depth page row verdict saidAt ≠ .merge winner loser := by
  unfold weighContradicted
  split
  · simp
  split
  · simp
  · simp
  · split_ifs <;> simp

omit [LinearOrder T] [LinearOrder S] in
/-- Two facts the judge merges are told to the same people. -/
lemma readerSetsDiffer_of_weigh (hrow : row ∈ page.facts)
    (h : weigh chrono lib depth memoryNow page row verdict = .merge winner loser) :
    readerSetsDiffer winner loser = false := by
  have hmerge : weighDuplicate lib depth page row verdict = .merge winner loser := by
    unfold weigh at h
    dsimp only at h
    split_ifs at h
    · exact absurd h (weighEnd_ne_merge winner loser)
    · exact absurd h (weighCloses_ne_merge winner loser)
    · exact absurd h (weighRetype_ne_merge winner loser)
    · exact absurd h (weighContradicted_ne_merge winner loser)
    · exact h
  obtain ⟨why, hrefused⟩ | ⟨winner', loser', hmerge', -, -, hpeople⟩ :=
    weighDuplicate_cases lib depth verdict hrow
  · rw [hrefused] at hmerge
    cases hmerge
  · obtain ⟨rfl, rfl⟩ := Act.merge.inj (hmerge.symm.trans hmerge')
    exact hpeople

end Passes

end Rem

end Mwe
