import MweCore.Acl.Readership
import MweCore.Dream.Holding
import MweCore.Proposals.SlotConflict

/-!
# Two claims of one queue that are the same

The scan of the fact index cannot see a claim that is still in the queue, so a pass compares each
claim with those it has let through before.  The row-side test compares the subject, the author and
the readers one by one; the queue-side test compares one set in which the three are thrown together.
Alice telling something about Bob and Bob telling it about Alice have the same set
(`twins_of_two_subjects`).

`queue_folds_as_store_iff` says when the fact of the first claim would have been matched by the
scan.
-/

namespace Mwe

open Str Capture Planner

namespace Dream

/-- What a pass over the queue comes to. -/
structure Screening where
  store : Store
  rows : List BufferedCapture := []
  forPlan : List FactForPage := []
  /-- the claims folded into another of the queue, each with that one -/
  twins : List (BufferedCapture × BufferedCapture) := []
  skippedDup : ℕ := 0
  errors : List Str := []

section Screen

variable {S : Type*} [LinearOrder S] (floats : Floats S) (casing : Casing)

/-- Whether two claims have the same audience. -/
def sameAudience (a b : BufferedCapture) : Bool :=
  decide (readerSet a.subject a.allow a.sender a.excluded =
    readerSet b.subject b.allow b.sender b.excluded)

/-- Whether a claim that was let through is the same as one that is read. -/
def isTwin (threshold : S) (prev cap : BufferedCapture) : Bool :=
  sameAudience prev cap && decide (threshold ≤ Recall.score floats casing prev.body cap.body) &&
    decide (collectEmbeds prev.body = collectEmbeds cap.body)

/-- What a pass reads beside the queue. -/
structure Pass (S : Type*) where
  roster : Roster
  onDisk : List (Str × Bool)
  maxPromotionsPerCycle : ℕ := 500
  dedupThreshold : S
  questions : QuestionTable
  cutoff : Str
  now : Str

/-- Screen the next claim: against the claims let through, and then against the facts. -/
def screenNext (pass : Pass S) (st : Screening) (cap : BufferedCapture) : Screening :=
  match st.rows.find? fun prev => isTwin floats casing pass.dedupThreshold prev cap with
  | some twin =>
    { st with
      store := { st.store with
        queue := CaptureBuffer.markSkippedDup st.store.queue cap.captureId twin.captureId pass.now }
      twins := st.twins ++ [(cap, twin)]
      skippedDup := st.skippedDup + 1 }
  | none =>
    match screenOne floats casing pass.roster pass.onDisk st.store cap pass.dedupThreshold
        pass.now with
    | (.forPlan fact, store) =>
      { st with store, forPlan := st.forPlan ++ [fact], rows := st.rows ++ [cap] }
    | (.folded _, store) => { st with store, skippedDup := st.skippedDup + 1 }
    | (.noWiki, store) =>
      { st with
        store
        errors := st.errors ++ [cap.captureId.val ++ ": no wiki on disk for subject ".toList ++
          cap.subject.display ++ " — left waiting".toList] }

/-- Screen the queue. -/
def screenQueue (pass : Pass S) (s : Store) : Screening :=
  let queue := CaptureBuffer.sweepOrphanHeld s.queue pass.questions pass.cutoff
  (CaptureBuffer.findAllBuffered queue pass.maxPromotionsPerCycle).foldl
    (screenNext floats casing pass) { store := { s with queue } }

/-! ## The scan of the facts -/

/-- The fact a claim repeats as it is, with its embeds. -/
def dedupScan (facts : FactTable) (cap : BufferedCapture) (threshold : S) : Option (FactRow × S) :=
  (bestDedupCandidate floats casing (FactIndex.findActiveBySubject facts cap.subject)
      (audienceOf cap) none cap.body (some cap.captureId)).filter fun e =>
    decide (threshold ≤ e.2) && decide (collectEmbeds e.1.text = collectEmbeds cap.body)

/-- The rows the scan weighs. -/
def weighed (facts : FactTable) (cap : BufferedCapture) : List FactRow :=
  ((FactIndex.findActiveBySubject facts cap.subject).filter fun r =>
    some cap.captureId != some r.factId && (audienceOf cap).sameAsRow r).filter (onChannel none)

/-- No row the scan weighs is nearer, and none that is as near comes before. -/
def Unbeaten (facts : FactTable) (cap : BufferedCapture) (row : FactRow) : Prop :=
  ∀ r ∈ weighed facts cap,
    Recall.score floats casing cap.body r.text ≤ Recall.score floats casing cap.body row.text ∧
      (Recall.score floats casing cap.body row.text ≤ Recall.score floats casing cap.body r.text →
        ((weighed facts cap).map FactRow.factId).idxOf row.factId ≤
          ((weighed facts cap).map FactRow.factId).idxOf r.factId)

end Screen

/-- A row is the fact a claim became. -/
structure StoredAs (cap : BufferedCapture) (row : FactRow) : Prop where
  factId : row.factId = cap.captureId
  text : row.text = cap.body
  subject : row.subjectId = cap.subject
  allow : row.allowIds = cap.allow
  excluded : row.excludedIds = cap.excluded
  sender : row.senderId = cap.sender
  active : row.isActive = true

/-- The row a claim is written as. -/
lemma storedAs_placedFact (cap : BufferedCapture) (wikiId pagePath now : Str) :
    StoredAs cap ((placedFact cap wikiId pagePath).row now) :=
  ⟨rfl, rfl, rfl, rfl, rfl, rfl, rfl⟩

/-- Two claims name their author alike: as their subject, in both lists, or in neither. -/
def AuthorAlike (a b : BufferedCapture) : Prop :=
  ∀ author, b.sender = some author → author = b.subject ∨ (author ∈ a.allow ↔ author ∈ b.allow)

/-! ## What a pass folds -/

section Laws

variable {S : Type*} [LinearOrder S] {floats : Floats S} {casing : Casing} {pass : Pass S}
  {facts : FactTable} {a b : BufferedCapture} {row : FactRow}

/-- Of two texts, each is as near to the other. -/
lemma score_comm (body text : Str) :
    Recall.score floats casing body text = Recall.score floats casing text body := by
  unfold Recall.score Recall.jaccardSets
  simp only [and_comm, or_comm, Finset.inter_comm, Nat.add_comm]

/-- What a claim adds to a pass: itself, to the claims that are let through or beside a twin of its
own. -/
lemma screenNext_cases (st : Screening) (cap : BufferedCapture) :
    ((screenNext floats casing pass st cap).rows = st.rows ∧
        ∃ twin ∈ st.rows, isTwin floats casing pass.dedupThreshold twin cap = true ∧
          (screenNext floats casing pass st cap).twins = st.twins ++ [(cap, twin)]) ∨
      (screenNext floats casing pass st cap).twins = st.twins ∧
        ((screenNext floats casing pass st cap).rows = st.rows ∨
          (screenNext floats casing pass st cap).rows = st.rows ++ [cap]) := by
  unfold screenNext
  cases htwin : st.rows.find? fun prev => isTwin floats casing pass.dedupThreshold prev cap with
  | some twin =>
    have his := List.find?_some
      (p := fun prev => isTwin floats casing pass.dedupThreshold prev cap) htwin
    exact .inl ⟨rfl, twin, List.mem_of_find?_eq_some htwin, his, rfl⟩
  | none =>
    right
    dsimp only
    split
    · exact ⟨rfl, .inr rfl⟩
    · exact ⟨rfl, .inl rfl⟩
    · exact ⟨rfl, .inl rfl⟩

/-- The claims a pass lets through are claims it read, and the twins are two of these. -/
lemma twins_foldl {captures : List BufferedCapture} {st : Screening}
    (hnodup : (captures.map BufferedCapture.captureId).Nodup) (hrows : st.rows = [])
    (htwins : st.twins = []) :
    (∀ cap ∈ (captures.foldl (screenNext floats casing pass) st).rows, cap ∈ captures) ∧
      ∀ pair ∈ (captures.foldl (screenNext floats casing pass) st).twins,
        pair.2.captureId ≠ pair.1.captureId ∧
          isTwin floats casing pass.dedupThreshold pair.2 pair.1 = true := by
  induction captures using List.reverseRecOn with
  | nil => simp [hrows, htwins]
  | append_singleton captures cap ih =>
    rw [List.map_append, List.nodup_append] at hnodup
    obtain ⟨hbefore, -, hnew⟩ := hnodup
    obtain ⟨hread, hfolded⟩ := ih hbefore
    rw [List.foldl_append, List.foldl_cons, List.foldl_nil]
    set st' := captures.foldl (screenNext floats casing pass) st with hst'
    rcases @screenNext_cases S _ floats casing pass st' cap with
      ⟨hsame, twin, htwin, his, hpairs⟩ | ⟨hpairs, hsame | hmore⟩
    · rw [hsame, hpairs]
      refine ⟨fun c hc => List.mem_append_left _ (hread c hc), fun pair hpair => ?_⟩
      rcases List.mem_append.mp hpair with hpair | hpair
      · exact hfolded pair hpair
      · obtain rfl := List.mem_singleton.mp hpair
        exact ⟨hnew _ (List.mem_map_of_mem (hread twin htwin)) _ (by simp), his⟩
    · rw [hsame, hpairs]
      exact ⟨fun c hc => List.mem_append_left _ (hread c hc), hfolded⟩
    · rw [hmore, hpairs]
      refine ⟨fun c hc => ?_, hfolded⟩
      rcases List.mem_append.mp hc with hc | hc
      · exact List.mem_append_left _ (hread c hc)
      · exact List.mem_append_right _ hc

/-- A claim that is folded into another of the queue is another claim, of the same set of readers,
near enough and with the same embeds. -/
lemma isTwin_of_mem_twins {s : Store} (h : (b, a) ∈ (screenQueue floats casing pass s).twins) :
    a.captureId ≠ b.captureId ∧ isTwin floats casing pass.dedupThreshold a b = true := by
  refine (twins_foldl ?_ rfl rfl).2 (b, a) h
  unfold CaptureBuffer.findAllBuffered
  refine List.Nodup.sublist (List.Sublist.map _ (List.take_sublist _ _)) ?_
  refine ((List.perm_insertionSort _ _).map _).nodup_iff.mpr ?_
  exact (Sql.Table.nodup _).sublist (List.Sublist.map _ List.filter_sublist)

/-! ## The set and its parts -/

/-- A set of readers is told from another by the names that open and by those kept out. -/
lemma readerSet_eq_iff {subject : Principal} {sender : Option Principal}
    {allow allow' excluded excluded' : List Principal} :
    readerSet subject allow sender excluded = readerSet subject allow' sender excluded' ↔
      (∀ p, subject = p ∨ p ∈ allow ∨ sender = some p ↔
        subject = p ∨ p ∈ allow' ∨ sender = some p) ∧ ∀ p, p ∈ excluded ↔ p ∈ excluded' := by
  constructor
  · intro h
    have hacl : (RegionAcl.mk subject allow excluded sender).readerSet =
        (RegionAcl.mk subject allow' excluded' sender).readerSet := h
    constructor
    · intro p
      have hmem : p ∈ (RegionAcl.mk subject allow excluded sender).named ↔
          p ∈ (RegionAcl.mk subject allow' excluded' sender).named := by
        rw [← RegionAcl.display_mem_readerSet, hacl, RegionAcl.display_mem_readerSet]
      rwa [RegionAcl.mem_named, RegionAcl.mem_named] at hmem
    · intro p
      have hmem : "not:".toList ++ p.display ∈
            (RegionAcl.mk subject allow excluded sender).readerSet ↔
          "not:".toList ++ p.display ∈
            (RegionAcl.mk subject allow' excluded' sender).readerSet := by rw [hacl]
      rwa [RegionAcl.kept_mem_readerSet, RegionAcl.kept_mem_readerSet] at hmem
  · rintro ⟨hnamed, hexcluded⟩
    have hopen : ∀ (allow : List Principal) (p : Principal),
        p ∈ subject :: allow ++ sender.toList ↔ subject = p ∨ p ∈ allow ∨ sender = some p := by
      intro allow p
      simp [eq_comm]
    ext x
    simp only [readerSet, List.mem_toFinset, List.mem_append (s := List.map _ _), List.mem_map,
      hopen, hnamed, hexcluded]

/-- When two claims have one subject, one author and one set of readers, the readers but for the
author are the same exactly when both name the author alike. -/
lemma readerSet_without_author_iff {subject : Principal} {sender : Option Principal}
    {allow allow' excluded excluded' : List Principal}
    (h : readerSet subject allow sender excluded = readerSet subject allow' sender excluded') :
    readerSet subject allow none excluded = readerSet subject allow' none excluded' ↔
      ∀ author, sender = some author → author = subject ∨ (author ∈ allow ↔ author ∈ allow') := by
  obtain ⟨hnamed, hexcluded⟩ := readerSet_eq_iff.mp h
  rw [readerSet_eq_iff, and_iff_left hexcluded]
  constructor
  · intro hopen author _
    by_cases hsubject : author = subject
    · exact .inl hsubject
    · have hauthor := hopen author
      simp only [Ne.symm hsubject, reduceCtorEq, or_false, false_or] at hauthor
      exact .inr hauthor
  · intro halike p
    by_cases hauthor : sender = some p
    · rcases halike p hauthor with rfl | hlists
      · simp
      · simp [hlists]
    · have hp := hnamed p
      simp only [hauthor, or_false] at hp
      simpa using hp

/-! ## What the scan would have matched -/

/-- Among rows that are told apart by their ids, a row is first where its id is. -/
lemma idxOf_map_factId [DecidableEq FactRow] {rows : List FactRow} {r : FactRow}
    (hinj : ∀ x ∈ rows, x.factId = r.factId → x = r) :
    (rows.map FactRow.factId).idxOf r.factId = rows.idxOf r := by
  induction rows with
  | nil => rfl
  | cons x rows ih =>
    have hrest := ih fun y hy => hinj y (List.mem_cons_of_mem _ hy)
    rw [List.map_cons, List.idxOf_cons, List.idxOf_cons, hrest]
    by_cases hx : x = r
    · simp [hx]
    · have hid : x.factId ≠ r.factId := fun hid => hx (hinj x List.mem_cons_self hid)
      rw [beq_eq_false_iff_ne.mpr hid, beq_eq_false_iff_ne.mpr hx]

/-- The nearest of the rows that are weighed is one of them that is not beaten. -/
lemma nearest_iff_unbeaten :
    Nearest (Recall.score floats casing) ((FactIndex.findActiveBySubject facts b.subject).filter
        fun r => some b.captureId != some r.factId && (audienceOf b).sameAsRow r) none b.body row ↔
      row ∈ weighed facts b ∧ Unbeaten floats casing facts b row := by
  classical
  have hstored : ∀ r ∈ weighed facts b, r ∈ facts := fun r hr =>
    (FactIndex.mem_findActiveBySubject.mp
      (List.mem_filter.mp (List.mem_filter.mp hr).1).1).1
  have hindex : ∀ r ∈ weighed facts b, ((weighed facts b).map FactRow.factId).idxOf r.factId =
      (weighed facts b).idxOf r := fun r hr =>
    idxOf_map_factId fun x hx hid => facts.eq_of_key_eq (hstored x hx) (hstored r hr) hid
  unfold Nearest Unbeaten
  rw [List.mem_argmax_iff]
  change row ∈ weighed facts b ∧ _ ↔ _
  refine and_congr_right fun hrow => ?_
  rw [hindex row hrow]
  constructor
  · rintro ⟨hle, hfirst⟩ r hr
    rw [hindex r hr]
    exact ⟨hle r hr, hfirst r hr⟩
  · intro h
    refine ⟨fun r hr => (h r hr).1, fun r hr hge => ?_⟩
    have hfirst := (h r hr).2 hge
    rw [hindex r hr] at hfirst
    exact hfirst

/-- The one row that is weighed is not beaten. -/
lemma unbeaten_of_forall_eq (h : ∀ r ∈ weighed facts b, r = row) :
    Unbeaten floats casing facts b row := by
  intro r hr
  rw [h r hr]
  exact ⟨le_rfl, fun _ => le_rfl⟩

/-- Whenever a pass folds a claim into another of the queue, the scan would have matched it to the
fact of that one exactly when the two have one subject and one author, whom both name alike, and the
fact is on no channel page and is not beaten by another fact. -/
theorem queue_folds_as_store_iff {s : Store}
    (hfolded : (b, a) ∈ (screenQueue floats casing pass s).twins) (hrow : row ∈ facts)
    (hstored : StoredAs a row) :
    (∃ score, dedupScan floats casing facts b pass.dedupThreshold = some (row, score)) ↔
      (a.subject = b.subject ∧ a.sender = b.sender ∧ AuthorAlike a b) ∧
        isChannelPage row.sourcePath = false ∧ Unbeaten floats casing facts b row := by
  obtain ⟨hother, htwin⟩ := isTwin_of_mem_twins hfolded
  simp only [isTwin, sameAudience, Bool.and_eq_true, decide_eq_true_eq] at htwin
  obtain ⟨⟨hset, hnear⟩, hembeds⟩ := htwin
  have hreaches : pass.dedupThreshold ≤ Recall.score floats casing b.body row.text := by
    rw [hstored.text, score_comm]
    exact hnear
  unfold dedupScan
  rw [filter_best_iff]
  unfold Repeats
  rw [nearest_iff_unbeaten, and_iff_left ⟨hreaches, by rw [hstored.text, hembeds]⟩, ← and_assoc]
  refine and_congr_left fun _ => ?_
  have hweighed : row ∈ weighed facts b ↔
      (a.subject = b.subject ∧ (audienceOf b).sameAsRow row = true) ∧
        isChannelPage row.sourcePath = false := by
    simp only [weighed, List.mem_filter, FactIndex.mem_findActiveBySubject, hrow, hstored.active,
      hstored.subject, hstored.factId, onChannel, true_and, and_true, Bool.and_eq_true,
      bne_iff_ne, ne_eq, Option.some.injEq, Ne.symm hother, not_false_eq_true,
      Bool.not_eq_true', and_assoc]
  rw [hweighed]
  refine and_congr_left fun _ => and_congr_right fun hsubject => ?_
  simp only [Audience.sameAsRow, Audience.sameReadSetAs, audienceOf, Bool.and_eq_true,
    decide_eq_true_eq, hstored.subject, hstored.allow, hstored.excluded, hstored.sender]
  rw [and_comm]
  refine and_congr_right fun hsender => ?_
  rw [hsubject, hsender] at hset
  rw [hsubject, eq_comm, readerSet_without_author_iff hset]
  rfl

end Laws

/-! ## The same words about each other -/

/-- The ids of two claims. -/
def toldFirst : FactId := ⟨"018f1234-5678-7abc-9def-0123456789ac".toList, isFactId_ac⟩
def toldThen : FactId := ⟨"018f1234-5678-7abc-9def-0123456789ad".toList, isFactId_ad⟩

/-- A claim about one person, told by another. -/
def toldOf (captureId : FactId) (subject sender : Str) (capturedAt : Str) : BufferedCapture where
  captureId := captureId
  body := "They go to the dentist together.".toList
  subject := .user subject
  sender := some (.user sender)
  capturedAt := capturedAt

/-- Bob tells it of Alice, and then Alice tells it of Bob, or Bob tells it again. -/
def ofAlice : BufferedCapture := toldOf toldFirst "alice".toList "bob".toList "1".toList
def ofBob : BufferedCapture := toldOf toldThen "bob".toList "alice".toList "2".toList
def ofAliceAgain : BufferedCapture := toldOf toldThen "alice".toList "bob".toList "2".toList

/-- A queue of two claims, and no fact. -/
def twoWaiting (cap cap' : BufferedCapture) : Store where
  facts := Sql.Table.empty _
  queue := Sql.Table.insertIfAbsent (Sql.Table.insertIfAbsent (Sql.Table.empty _) cap) cap'

/-- A pass over them. -/
def atNight : Pass ℚ where
  roster := household
  onDisk := [("alice".toList, false), ("bob".toList, false)]
  dedupThreshold := 17 / 20
  questions := Sql.Table.empty _
  cutoff := []
  now := []

/-- The fact of the first claim. -/
def ofAliceStored : FactRow := (placedFact ofAlice "alice".toList "health.md".toList).row []

/-- The index with that fact alone. -/
def storedAlone : FactTable := Sql.Table.insertIfAbsent (Sql.Table.empty _) ofAliceStored

lemma mem_storedAlone {r : FactRow} : r ∈ storedAlone ↔ r = ofAliceStored := by
  simp [storedAlone, Sql.Table.insertIfAbsent, Sql.Table.insert, Sql.Table.empty,
    Sql.Table.mem_iff]

theorem queue_folds_as_store_iff_again :
    ∃ score, dedupScan exactFloats asciiCasing storedAlone ofAliceAgain atNight.dedupThreshold =
      some (ofAliceStored, score) := by
  have hfolded : (ofAliceAgain, ofAlice) ∈
      (screenQueue exactFloats asciiCasing atNight (twoWaiting ofAlice ofAliceAgain)).twins := by
    decide +kernel
  have hstored : StoredAs ofAlice ofAliceStored := storedAs_placedFact ofAlice _ _ _
  have hunbeaten : Unbeaten exactFloats asciiCasing storedAlone ofAliceAgain ofAliceStored :=
    unbeaten_of_forall_eq fun r hr => mem_storedAlone.mp (FactIndex.mem_findActiveBySubject.mp
      (List.mem_filter.mp (List.mem_filter.mp hr).1).1).1
  have hpage : isChannelPage ofAliceStored.sourcePath = false := by decide
  have hrow : ofAliceStored ∈ storedAlone := mem_storedAlone.mpr rfl
  have hiff := queue_folds_as_store_iff hfolded hrow hstored
  have hallow : ofAlice.allow = ofAliceAgain.allow := by decide
  have halike : AuthorAlike ofAlice ofAliceAgain := fun _ _ => .inr (by rw [hallow])
  exact hiff.mpr ⟨⟨by decide, by decide, halike⟩, hpage, hunbeaten⟩

/-- What Alice told of Bob is folded into what Bob told of Alice; the scan keeps the two apart. -/
theorem twins_of_two_subjects :
    (ofBob, ofAlice) ∈
        (screenQueue exactFloats asciiCasing atNight (twoWaiting ofAlice ofBob)).twins ∧
      ofAlice.subject ≠ ofBob.subject ∧ ofAlice.sender ≠ ofBob.sender ∧
        (dedupScan exactFloats asciiCasing storedAlone ofBob
          atNight.dedupThreshold).isNone = true := by
  refine ⟨?_, by decide, by decide, ?_⟩
  · decide +kernel
  · decide +kernel

end Dream

end Mwe
