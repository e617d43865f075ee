import MweCore.Gdpr.Erased
import MweCore.Lib.Tally
import MweCore.Media.Store

/-!
# The numbers an erasure is confirmed on

Before a person is forgotten an operator is shown what will go: `forgetPreview` sorts the active
facts as the pass does.  The report of the pass counts the rows its statements touch, and two of
these touch rows that are superseded: the one that takes the author's name off, and the one that
tombstones what is left in the wikis.

`preview_tells_iff` says when the two agree.  `superseded_fact_is_disowned` is a fact that was
replaced: no number of the preview counts it, and the report does.
-/

namespace Mwe

open Str Sql

namespace Gdpr

/-! ## What is counted -/

/-- The media catalog, and the files of the training spool with what they hold. -/
structure Belongings where
  catalog : Media.Catalog
  spool : List (Str × Str) := []

/-- What a pass did, as far as a preview foretells it. -/
structure ForgetReport where
  factsHandedOver : ℕ := 0
  factsTombstoned : ℕ := 0
  factsDisowned : ℕ := 0
  mediaRemoved : ℕ := 0
  wikisErased : ℕ := 0
  trainingSpoolFilesEmptied : ℕ := 0
  deriving DecidableEq

/-- What a pass is about to do. -/
structure ForgetPreview where
  factsDestroyed : ℕ
  factsHandedOver : ℕ
  factsDisowned : ℕ
  media : ℕ
  wikis : ℕ
  trainingSpoolFiles : ℕ
  deriving DecidableEq

/-- Every number of a preview is the one of the report. -/
structure ForgetPreview.Foretells (preview : ForgetPreview) (report : ForgetReport) : Prop where
  destroyed : preview.factsDestroyed = report.factsTombstoned
  handedOver : preview.factsHandedOver = report.factsHandedOver
  disowned : preview.factsDisowned = report.factsDisowned
  media : preview.media = report.mediaRemoved
  wikis : preview.wikis = report.wikisErased
  trainingSpoolFiles : preview.trainingSpoolFiles = report.trainingSpoolFilesEmptied

/-! ### The spool -/

/-- Whether a file of the spool directory is a spool file. -/
def isSpoolFile (name : Str) : Bool :=
  ".jsonl".toList.isSuffixOf name && decide (".jsonl".toList.length < name.length)

/-- The spool files on disk. -/
def spoolFileCount (spool : List (Str × Str)) : ℕ := spool.countP fun file => isSpoolFile file.1

/-- Empty every spool file: how many were, and the directory. -/
def eraseSpool (spool : List (Str × Str)) : ℕ × List (Str × Str) :=
  spool.foldl (fun st file =>
    if isSpoolFile file.1 then (st.1 + 1, st.2 ++ [(file.1, [])]) else (st.1, st.2 ++ [file]))
    (0, [])

/-! ### The media -/

/-- The media a person uploaded. -/
def mediaOf (catalog : Media.Catalog) (subject : Principal) : List Media.MediaRow :=
  catalog.rows.filter fun r => r.subjectId = subject

/-- Delete a row of the catalog: whether it was there, and the catalog. -/
def removeMedia (catalog : Media.Catalog) (catalogId : CatalogId) : Bool × Media.Catalog :=
  if (catalog.get? catalogId).isSome then
    (true, catalog.delete fun r => r.catalogId = catalogId)
  else (false, catalog)

/-- Delete the media of a person: how many rows went, and the catalog. -/
def removeMediaOf (catalog : Media.Catalog) (subject : Principal) : ℕ × Media.Catalog :=
  (mediaOf catalog subject).foldl (fun st row =>
    let removal := removeMedia st.2 row.catalogId
    (st.1 + removal.1.toNat, removal.2)) (0, catalog)

/-! ### The facts -/

section

variable (a : Answers) (ids : List Str) (now : Str)

/-- `settle`, with what it adds to the report. -/
def settleReported (userId : Str) (st : FactTable × ForgetReport) (row : FactRow) :
    FactTable × ForgetReport :=
  (settle a ids now userId st.1 row,
    match fateOf row (.user userId) with
    | .handOver _ => { st.2 with factsHandedOver := st.2.factsHandedOver + 1 }
    | .destroy => { st.2 with factsTombstoned := st.2.factsTombstoned + 1 }
    | .disown | .untouched => st.2)

/-- The rows `replaceSender` touches. -/
def resentCount (facts : FactTable) (old : Principal) : ℕ :=
  facts.rows.countP fun r => decide (r.senderId = some old) && r.deletedAt.isNone

/-- Tombstone what is left in some wikis: how many rows are touched, and the table. -/
def buryWikis (ds : List WikiNode) (facts : FactTable) : ℕ × FactTable :=
  ds.foldl (fun st d =>
    (st.1 + st.2.rows.countP fun r => decide (r.wikiId = d.wikiId) && r.deletedAt.isNone,
      FactIndex.markForgottenInWiki st.2 d.wikiId deleteReason now)) (0, facts)

/-! ## The report and the preview -/

/-- The facts once those about the person are settled, with what that adds to the report. -/
def settledReport (facts : FactTable) (userId : Str) : FactTable × ForgetReport :=
  (findActiveBySubject a facts (.user userId)).foldl (settleReported a ids now userId) (facts, {})

/-- The report of a pass, and what it leaves of the deployment. -/
def forgetUserReported (w : Deployment) (b : Belongings) (userId : Str) :
    Option (ForgetReport × Deployment) :=
  (forgetUser a now w userId).map fun w' =>
    let settled := settledReport a (hers w userId) now w.store.facts userId
    ({ settled.2 with
        factsDisowned := resentCount settled.1 (.user userId)
        mediaRemoved := (removeMediaOf b.catalog (.user userId)).1
        trainingSpoolFilesEmptied := (eraseSpool b.spool).1
        wikisErased := (herWikis w userId).length
        factsTombstoned := settled.2.factsTombstoned +
          (buryWikis now (herWikis w userId) (forgetInStore a now w userId).facts).1 }, w')

/-- Whether a fact changes hands. -/
def FactFate.isHandOver : FactFate → Bool
  | .handOver _ => true
  | _ => false

/-- The active facts a person said, whomever they are about. -/
def findActiveBySender (facts : FactTable) (sender : Principal) : List FactRow :=
  facts.rows.filter fun r => decide (r.senderId = some sender) && r.isActive

/-- Count what `forgetUser` would do. -/
def forgetPreview (w : Deployment) (b : Belongings) (userId : Str) : Option ForgetPreview :=
  (w.users.get? userId).map fun _ =>
    let gone := Principal.user userId
    let about := findActiveBySubject a w.store.facts gone
    { factsDestroyed := about.countP fun r => fateOf r gone = .destroy
      factsHandedOver := about.countP fun r => (fateOf r gone).isHandOver
      factsDisowned := (findActiveBySender w.store.facts gone).countP fun r =>
        fateOf r gone = .disown
      media := (mediaOf b.catalog gone).length
      wikis := (herWikis w userId).length
      trainingSpoolFiles := spoolFileCount b.spool }

end

/-! ## When they agree -/

/-- Whether a row was replaced, and is not tombstoned. -/
def isReplaced (r : FactRow) : Bool := r.supersededAt.isSome && r.deletedAt.isNone

instance (xs : List FactRow) (r : FactRow) (userId : Str) (a : Answers) (hers : List Str) :
    Decidable (SweptBy a hers userId xs r) :=
  inferInstanceAs (Decidable (∃ x ∈ xs, _ ∧ _ ∧ _ ∧ _ ∧ _))

/-- The facts a person said that were replaced. -/
def replacedOf (facts : FactTable) (gone : Principal) : ℕ :=
  facts.rows.countP fun r => decide (r.senderId = some gone) && isReplaced r

/-- The active facts a person said about others that are found missing when the page is read again
on which a fact about the person was destroyed. -/
def sweptOf (a : Answers) (w : Deployment) (userId : Str) : ℕ :=
  w.store.facts.rows.countP fun r => decide (r.senderId = some (.user userId)) && r.isActive &&
    decide (r.subjectId ≠ .user userId) && decide (SweptBy a (hers w userId) userId
      (findActiveBySubject a w.store.facts (.user userId)) r)

/-! ### The counts -/

section Laws

variable {a : Answers} {ids : List Str} {now userId : Str} {w : Deployment} {b : Belongings}

/-- Settling with a report settles. -/
lemma foldl_settleReported (xs : List FactRow) (facts : FactTable) (report : ForgetReport) :
    xs.foldl (settleReported a ids now userId) (facts, report) =
      (xs.foldl (settle a ids now userId) facts,
        { report with
          factsHandedOver := report.factsHandedOver +
            xs.countP fun r => (fateOf r (.user userId)).isHandOver
          factsTombstoned := report.factsTombstoned +
            xs.countP fun r => fateOf r (.user userId) = .destroy }) := by
  induction xs generalizing facts report with
  | nil => rfl
  | cons x xs ih =>
    rw [List.foldl_cons, settleReported, ih]
    cases hfate : fateOf x (.user userId) <;> simp [hfate, FactFate.isHandOver] <;> omega

/-- Every spool file is emptied. -/
lemma eraseSpool_fst (spool : List (Str × Str)) : (eraseSpool spool).1 = spoolFileCount spool := by
  have hfold : ∀ st : ℕ × List (Str × Str), (spool.foldl (fun st file =>
      if isSpoolFile file.1 then (st.1 + 1, st.2 ++ [(file.1, [])]) else (st.1, st.2 ++ [file]))
      st).1 = st.1 + spoolFileCount spool := by
    induction spool with
    | nil => exact fun st => rfl
    | cons file spool ih =>
      intro st
      rw [List.foldl_cons, ih]
      by_cases hfile : isSpoolFile file.1 = true
      · simp [spoolFileCount, hfile]
        omega
      · simp [spoolFileCount, hfile]
  rw [eraseSpool, hfold, Nat.zero_add]

/-- Every row of the person goes. -/
lemma removeMediaOf_fst (catalog : Media.Catalog) (subject : Principal) :
    (removeMediaOf catalog subject).1 = (mediaOf catalog subject).length := by
  have hfold : ∀ (rows : List Media.MediaRow) (st : ℕ × Media.Catalog),
      (rows.map Media.MediaRow.catalogId).Nodup → (∀ r ∈ rows, r ∈ st.2) →
        (rows.foldl (fun st row =>
          ((st.1 + (removeMedia st.2 row.catalogId).1.toNat),
            (removeMedia st.2 row.catalogId).2)) st).1 = st.1 + rows.length := by
    intro rows
    induction rows with
    | nil => exact fun st _ _ => rfl
    | cons row rows ih =>
      intro st hnodup hrows
      obtain ⟨hnew, hrest⟩ := List.nodup_cons.mp hnodup
      have hthere : (st.2.get? row.catalogId).isSome = true := by
        rw [Table.get?_eq_some_iff.mpr ⟨hrows row List.mem_cons_self, rfl⟩]
        rfl
      have hremoved : removeMedia st.2 row.catalogId =
          (true, st.2.delete fun r => r.catalogId = row.catalogId) := if_pos hthere
      rw [List.foldl_cons, hremoved, ih _ hrest]
      · simp only [Bool.toNat_true, List.length_cons]
        omega
      · intro r hr
        refine Table.mem_delete_iff.mpr ⟨hrows r (List.mem_cons_of_mem _ hr), ?_⟩
        rw [decide_eq_false_iff_not]
        intro hid
        exact hnew (hid ▸ List.mem_map_of_mem hr)
  have hnodup : ((mediaOf catalog subject).map Media.MediaRow.catalogId).Nodup :=
    catalog.nodup.sublist (List.filter_sublist.map _)
  have hcount := hfold (mediaOf catalog subject) (0, catalog) hnodup fun r hr =>
    (List.mem_filter.mp hr).1
  rw [Nat.zero_add] at hcount
  exact hcount

/-- Whether a row is left in some wikis. -/
def isLeft (ids : List Str) (r : FactRow) : Bool := decide (r.wikiId ∈ ids) && r.deletedAt.isNone

/-- The rows that are tombstoned with the wikis are those left in them. -/
lemma buryWikis_fst (ds : List WikiNode) (facts : FactTable) :
    (buryWikis now ds facts).1 = facts.rows.countP (isLeft (ds.map WikiNode.wikiId)) := by
  have hfold : ∀ st : ℕ × FactTable, (ds.foldl (fun st d =>
      (st.1 + st.2.rows.countP fun r => decide (r.wikiId = d.wikiId) && r.deletedAt.isNone,
        FactIndex.markForgottenInWiki st.2 d.wikiId deleteReason now)) st).1 =
        st.1 + st.2.rows.countP (isLeft (ds.map WikiNode.wikiId)) := by
    induction ds with
    | nil => simp [isLeft]
    | cons d ds ih =>
      intro st
      have hsplit : (st.2.rows.countP fun r => decide (r.wikiId = d.wikiId) && r.deletedAt.isNone) +
          (FactIndex.markForgottenInWiki st.2 d.wikiId deleteReason now).rows.countP
            (isLeft (ds.map WikiNode.wikiId)) =
          st.2.rows.countP (isLeft ((d :: ds).map WikiNode.wikiId)) := by
        rw [FactIndex.markForgottenInWiki, Table.update, List.countP_map]
        have hnone : st.2.rows.countP (fun _ => false) = 0 := by simp
        rw [← Nat.add_zero (st.2.rows.countP (isLeft _)), ← hnone]
        refine List.countP_add_countP fun r _ => ?_
        by_cases hwiki : r.wikiId = d.wikiId
        · cases hdeleted : r.deletedAt <;> simp [isLeft, hwiki, hdeleted, FactRow.forgotten]
        · simp [isLeft, hwiki]
      rw [List.foldl_cons, ih, Nat.add_assoc, hsplit]
  rw [buryWikis, hfold, Nat.zero_add]

/-- The table that is left when the rows of some wikis are tombstoned. -/
lemma buryWikis_snd (ds : List WikiNode) (facts : FactTable) :
    (buryWikis now ds facts).2 = ds.foldl (fun facts d =>
      FactIndex.markForgottenInWiki facts d.wikiId deleteReason now) facts := by
  have hfold : ∀ st : ℕ × FactTable, (ds.foldl (fun st d =>
      (st.1 + st.2.rows.countP fun r => decide (r.wikiId = d.wikiId) && r.deletedAt.isNone,
        FactIndex.markForgottenInWiki st.2 d.wikiId deleteReason now)) st).2 =
        ds.foldl (fun facts d => FactIndex.markForgottenInWiki facts d.wikiId deleteReason now)
          st.2 := by
    induction ds with
    | nil => exact fun st => rfl
    | cons d ds ih =>
      intro st
      rw [List.foldl_cons, ih, List.foldl_cons]
  exact hfold (0, facts)

/-- The tables that are counted are those the pass goes through. -/
lemma forgetUserReported_pass {report : ForgetReport} {w' : Deployment}
    (h : forgetUserReported a now w b userId = some (report, w')) :
    forgetUser a now w userId = some w' ∧
      w'.store.facts = (buryWikis now (herWikis w userId) (forgetInStore a now w userId).facts).2 ∧
      (forgetInStore a now w userId).facts = (((hers w userId).foldl
        (evacuateWiki a (hers w userId) now w.wikis) { w.store with
          facts := FactIndex.strikeFromAllow (FactIndex.replaceSender
            (settledReport a (hers w userId) now w.store.facts userId).1 (.user userId)
              removedSender now) (.user userId) now }).facts) := by
  obtain ⟨passed, hpass, heq⟩ := Option.map_eq_some_iff.mp h
  obtain ⟨-, rfl⟩ := Prod.mk.inj heq
  refine ⟨hpass, ?_, ?_⟩
  · obtain ⟨user, -, hleft⟩ := Option.bind_eq_some_iff.mp hpass
    dsimp only at hleft
    split_ifs at hleft
    obtain rfl := Option.some.inj hleft
    rw [buryWikis_snd]
  · rw [settledReport, foldl_settleReported]
    rfl

/-! ### What is left in the wikis -/

/-- What the pass leaves in the index under one id, before the wikis go. -/
lemma get?_forgetInStore (k : FactId) : (forgetInStore a now w userId).facts.get? k =
    (departed a (hers w userId) now w.wikis (hers w userId)
      (((w.store.facts.get? k).bind (settled a (hers w userId) now userId w.store.facts)).map
        (cleansed (.user userId) now), w.store.queue.get? k)).1 := by
  have hthird : ∀ facts, heldAt { w.store with facts } k = (facts.get? k, w.store.queue.get? k) :=
    fun _ => rfl
  have hfourth := fun s => @heldAt_evacuated a _ now w.wikis (hers w userId) (fun _ hv => hv) s k
  rw [← get?_settled, ← get?_cleansed, ← hthird, ← hfourth]
  rfl

/-- A fact that was active is gone from the wikis when they go. -/
lemma isLeft_of_active (hremoved : removedSender ≠ .user userId) {r : FactRow}
    (c : Option BufferedCapture) (hr : r ∈ w.store.facts) (hactive : r.isActive = true) :
    ((departed a (hers w userId) now w.wikis (hers w userId)
      ((settled a (hers w userId) now userId w.store.facts r).map (cleansed (.user userId) now),
        c)).1.any (isLeft (hers w userId))) = false := by
  have hdead : ∀ x : FactRow, x.deletedAt ≠ none → (departed a (hers w userId) now w.wikis
      (hers w userId) (some (cleansed (.user userId) now x), c)).1.any (isLeft (hers w userId)) =
        false := by
    intro x hx
    have hinactive : x.isActive ≠ true := fun h => hx (isActive_iff.mp h).2
    rw [cleansed_of_deleted hx]
    simp [departed, hinactive, isLeft, Option.isSome_iff_ne_none, hx]
  by_cases hfate : fateOf r (.user userId) = .destroy
  · rcases @settled_of_destroy a w userId now r hactive hfate with
      ⟨hnone, -⟩ | ⟨x, hx, htomb, -⟩
    · simp [hnone, departed]
    · rw [hx]
      exact hdead x htomb
  by_cases hlost : Lost a w userId r
  · obtain ⟨x, hx, htomb, -⟩ := settled_of_lost now hr hactive hfate hlost
    rw [hx]
    exact hdead x htomb
  · obtain ⟨hlives, -, -⟩ := readdressed_spec now hremoved hactive hfate
    rw [settled_of_lasting hr hactive hfate hlost]
    by_cases hwiki : (readdressed userId now r).wikiId ∈ hers w userId
    · cases hlanding : landing a (hers w userId) w.wikis (readdressed userId now r) with
      | none => simp [departed, hlives, hwiki, evacuated, hlanding]
      | some l =>
        have hout := landing_notMem hlanding
        simp [departed, hlives, hwiki, evacuated, hlanding, isLeft, FactRow.moved, hout]
    · simp [departed, hwiki, isLeft]

/-- What is left in the wikis when they go was replaced there. -/
lemma countP_isLeft (hremoved : removedSender ≠ .user userId) :
    (forgetInStore a now w userId).facts.rows.countP (isLeft (hers w userId)) =
      w.store.facts.rows.countP fun r => isReplaced r && decide (r.wikiId ∈ hers w userId) := by
  refine Table.countP_eq_of_get? fun k => ?_
  rw [get?_forgetInStore]
  cases hget : w.store.facts.get? k with
  | none => rfl
  | some r =>
    obtain ⟨hr, -⟩ := Table.get?_eq_some_iff.mp hget
    rw [Option.bind_some]
    cases hactive : r.isActive with
    | true =>
      obtain ⟨hsuperseded, -⟩ := isActive_iff.mp hactive
      rw [isLeft_of_active hremoved _ hr hactive]
      simp [isReplaced, hsuperseded]
    | false =>
      obtain ⟨-, hwiki, -, -, -, hsuperseded, hdeleted⟩ := cleansed_spec (.user userId) now r
      have hstill : (cleansed (.user userId) now r).isActive = false := by
        rw [← hactive]
        simp [FactRow.isActive, hsuperseded, hdeleted]
      rw [settled_of_retired hactive]
      cases hsup : r.supersededAt <;> cases hdel : r.deletedAt <;>
        simp_all [departed, isLeft, isReplaced, FactRow.isActive]

/-! ### Whose name is taken off -/

/-- The first step leaves a fact its author. -/
lemma senderId_settled {facts : FactTable} {r r' : FactRow}
    (h : settled a ids now userId facts r = some r') : r'.senderId = r.senderId := by
  unfold settled at h
  split at h
  · split at h
    · split_ifs at h
      · obtain rfl := Option.some.inj h
        rfl
      · obtain rfl := Option.some.inj h
        rfl
      · obtain rfl := Option.some.inj h
        rfl
    · split_ifs at h
      · obtain rfl := Option.some.inj h
        rfl
      · obtain rfl := Option.some.inj h
        rfl
  · split_ifs at h
    · obtain rfl := Option.some.inj h
      rfl
    · obtain rfl := Option.some.inj h
      rfl

/-- What one fact adds to the rows whose author is replaced, beside those of the preview. -/
lemma resent_cases (r : FactRow) (sweep : FactRow → Bool)
    (hsweep : ∀ r, sweep r = true ↔ SweptBy a (hers w userId) userId
      (findActiveBySubject a w.store.facts (.user userId)) r) :
    ((settled a (hers w userId) now userId w.store.facts r).any fun r' =>
        decide (r'.senderId = some (.user userId)) && r'.deletedAt.isNone).toNat +
      (decide (r.senderId = some (.user userId)) && r.isActive &&
        decide (r.subjectId ≠ .user userId) && sweep r).toNat =
    (decide (r.senderId = some (.user userId)) && isReplaced r).toNat +
      (decide (fateOf r (.user userId) = .disown) &&
        (decide (r.senderId = some (.user userId)) && r.isActive)).toNat := by
  by_cases hsender : r.senderId = some (.user userId)
  · cases hactive : r.isActive with
    | false =>
      rw [settled_of_retired hactive]
      cases hsup : r.supersededAt <;> cases hdel : r.deletedAt <;>
        simp_all [isReplaced, FactRow.isActive]
    | true =>
      obtain ⟨hsuperseded, hdeleted⟩ := isActive_iff.mp hactive
      by_cases hsubject : r.subjectId = .user userId
      · -- what the person said of themselves goes
        have hfate : fateOf r (.user userId) = .destroy := by
          rcases fateOf_of_subject hsubject with hfate | ⟨keeper, -, hkeeper, hne, -⟩
          · exact hfate
          · rw [hsender] at hkeeper
            exact absurd (Option.some.inj hkeeper).symm hne
        rcases @settled_of_destroy a w userId now r hactive hfate with
          ⟨hnone, -⟩ | ⟨x, hx, htomb, -⟩
        · simp [hnone, hsubject, isReplaced, hsuperseded, hfate]
        · simp [hx, hsubject, isReplaced, hsuperseded, hfate, Option.isSome_iff_ne_none, htomb]
      · have hfate : fateOf r (.user userId) = .disown := by simp [fateOf, hsubject, hsender]
        by_cases hswept : SweptBy a (hers w userId) userId
            (findActiveBySubject a w.store.facts (.user userId)) r
        · have htrue : sweep r = true := (hsweep r).mpr hswept
          simp [settled, hsubject, hswept, htrue, isReplaced, hsuperseded, hfate, hsender, swept]
        · have hfalse : sweep r = false := Bool.eq_false_iff.mpr fun h => hswept ((hsweep r).mp h)
          simp [settled, hsubject, hswept, hfalse, isReplaced, hsuperseded, hfate, hsender,
            hdeleted]
  · have hkept : ((settled a (hers w userId) now userId w.store.facts r).any fun r' =>
        decide (r'.senderId = some (.user userId)) && r'.deletedAt.isNone) = false := by
      cases hx : settled a (hers w userId) now userId w.store.facts r with
      | none => rfl
      | some x => simp [senderId_settled hx, hsender]
    simp [hkept, hsender]

/-- The rows whose author is replaced are those of the preview and those that were replaced, but
for the swept. -/
lemma resentCount_settled (b : Belongings) {preview : ForgetPreview}
    (h : forgetPreview a w b userId = some preview) :
    resentCount (settledReport a (hers w userId) now w.store.facts userId).1 (.user userId) +
        sweptOf a w userId =
      replacedOf w.store.facts (.user userId) + preview.factsDisowned := by
  obtain ⟨user, -, rfl⟩ := Option.map_eq_some_iff.mp h
  have hkeys : resentCount (settledReport a (hers w userId) now w.store.facts userId).1
      (.user userId) = w.store.facts.rows.countP fun r =>
        (settled a (hers w userId) now userId w.store.facts r).any fun r' =>
          decide (r'.senderId = some (.user userId)) && r'.deletedAt.isNone := by
    rw [settledReport, foldl_settleReported]
    refine Table.countP_eq_of_get? fun k => ?_
    rw [get?_settled]
    cases w.store.facts.get? k <;> rfl
  rw [hkeys, sweptOf, replacedOf]
  simp only [findActiveBySender, List.countP_filter]
  exact List.countP_add_countP fun r _ => resent_cases r _ fun r => decide_eq_true_iff

/-! ### Every number -/

/-- A preview tells what the pass reports exactly when no fact that was replaced is left in the
wikis, and as many facts of the person were replaced as are swept off the pages of others. -/
theorem preview_tells_iff (a : Answers) (now userId : Str) (w w' : Deployment) (b : Belongings)
    (report : ForgetReport) (h : forgetUserReported a now w b userId = some (report, w')) :
    ∃ preview, forgetPreview a w b userId = some preview ∧
      (preview.Foretells report ↔
        (∀ r ∈ w.store.facts, isReplaced r = true → r.wikiId ∉ hers w userId) ∧
          replacedOf w.store.facts (.user userId) = sweptOf a w userId) := by
  obtain ⟨passed, hpass, heq⟩ := Option.map_eq_some_iff.mp h
  obtain ⟨hreport, -⟩ := Prod.mk.inj heq
  have hremoved := removedSender_ne hpass
  obtain ⟨user, hget, -⟩ := Option.bind_eq_some_iff.mp hpass
  obtain ⟨preview, hpreview⟩ : ∃ preview, forgetPreview a w b userId = some preview := by
    simp [forgetPreview, hget]
  refine ⟨preview, hpreview, ?_⟩
  have hdisowned := @resentCount_settled a now userId w b preview hpreview
  have hburied : (buryWikis now (herWikis w userId) (forgetInStore a now w userId).facts).1 =
      w.store.facts.rows.countP fun r => isReplaced r && decide (r.wikiId ∈ hers w userId) := by
    rw [buryWikis_fst]
    exact countP_isLeft hremoved
  have hleft : (∀ r ∈ w.store.facts, isReplaced r = true → r.wikiId ∉ hers w userId) ↔
      (w.store.facts.rows.countP fun r =>
        isReplaced r && decide (r.wikiId ∈ hers w userId)) = 0 := by
    simp [List.countP_eq_zero, Table.mem_iff]
  obtain ⟨user', -, rfl⟩ := Option.map_eq_some_iff.mp hpreview
  rw [hleft, ← hburied, ← hreport]
  have hsettled := @foldl_settleReported a (hers w userId) now userId
    (findActiveBySubject a w.store.facts (.user userId)) w.store.facts {}
  rw [settledReport, hsettled] at hdisowned ⊢
  constructor
  · intro hforetold
    have hdestroyed := hforetold.destroyed
    have hsame := hforetold.disowned
    dsimp only at hdestroyed hsame hdisowned
    constructor
    · omega
    · omega
  · rintro ⟨hnone, hsame⟩
    dsimp only at hdisowned
    constructor
    · dsimp only
      omega
    · dsimp only
      omega
    · dsimp only
      omega
    · exact (removeMediaOf_fst b.catalog (.user userId)).symm
    · rfl
    · exact (eraseSpool_fst b.spool).symm

end Laws

/-! ### A household -/

/-- Nothing but facts. -/
def factsOnly : Belongings where
  catalog := Table.empty _

lemma household_foretold : ∃ preview report w',
    forgetUserReported orderly [] (household ownFact) factsOnly "alice".toList =
        some (report, w') ∧
      forgetPreview orderly (household ownFact) factsOnly "alice".toList = some preview ∧
        preview.Foretells report := by
  have hpasses : (forgetUserReported orderly [] (household ownFact) factsOnly
      "alice".toList).isSome = true := by decide +kernel
  obtain ⟨⟨report, w'⟩, hpass⟩ := Option.isSome_iff_exists.mp hpasses
  obtain ⟨preview, hpreview, htells⟩ :=
    preview_tells_iff orderly [] "alice".toList (household ownFact) w' factsOnly report hpass
  refine ⟨preview, report, w', hpass, hpreview, htells.mpr ⟨?_, by decide +kernel⟩⟩
  intro r hr hreplaced
  obtain rfl : r = ownFact := List.mem_singleton.mp hr
  cases hreplaced

/-- What Alice said of Bruno, and said again in other words. -/
def reworded : FactRow where
  factId := ⟨"018f1234-5678-7abc-9def-0123456789cf".toList, by decide⟩
  wikiId := "bruno".toList
  sourcePath := "users/bruno/notes.md".toList
  text := "He likes the sea.".toList
  subjectId := .user "bruno".toList
  senderId := some (.user "alice".toList)
  supersededAt := some "2026-09-01T10:00:00+00:00".toList
  factType := none
  validFrom := none
  validTo := none
  updatedAt := []

/-- A fact that was replaced is no number of the preview, and one of the report. -/
theorem superseded_fact_is_disowned : ∃ preview report w',
    forgetUserReported orderly [] (household reworded) factsOnly "alice".toList =
        some (report, w') ∧
      forgetPreview orderly (household reworded) factsOnly "alice".toList = some preview ∧
        preview.factsDisowned = 0 ∧ report.factsDisowned = 1 ∧ ¬ preview.Foretells report := by
  have hpasses : (forgetUserReported orderly [] (household reworded) factsOnly
      "alice".toList).any (fun p => p.1.factsDisowned == 1) = true := by decide +kernel
  have hshown : (forgetPreview orderly (household reworded) factsOnly "alice".toList).any
      (fun preview => preview.factsDisowned == 0) = true := by decide +kernel
  obtain ⟨⟨report, w'⟩, hpass, hone⟩ := (Option.any_eq_true _ _).mp hpasses
  obtain ⟨preview, hpreview, hzero⟩ := (Option.any_eq_true _ _).mp hshown
  have hreported : report.factsDisowned = 1 := by simpa using hone
  have hforeseen : preview.factsDisowned = 0 := by simpa using hzero
  refine ⟨preview, report, w', hpass, hpreview, hforeseen, hreported, ?_⟩
  intro hforetold
  have hsame := hforetold.disowned
  omega

end Gdpr

end Mwe
